import PlantOS.Fat.Chains

/-!
# Calls of `fat_write` and `fat_truncate` that fail

`fat_resize` changes the chain of a file first, then the bytes, and the size last. A call that fails on the way leaves
the file with a chain that is long enough, but for a truncation: it frees clusters before it zeroes the rest of the last
one, and the buffer for this may be missing.
-/

namespace PlantOS.Fat

open Function (update update_eq_self update_idem update_self)

open Vfs (VfsError)

variable {dm : FatCache} {s s' s₁ s₂ : FatState} {c n m size offset length start completed : ℕ} {l l' l₁ l₂ rest : List ℕ}
  {out : ℕ → UInt8}

/-! ### Zeros -/

lemma zeroLoop_done (hdm : Sane dm) (h : IsFatChain dm s.fat (c :: rest)) (hoff : offset < dm.clustnoBytes)
    (hleft : length - completed ≤ (rest.length + 1) * dm.clustnoBytes - offset) (hlt : completed < length)
    (hn : length - completed ≤ n) : (transferLoop dm .zero true length n s c offset completed out).2.2 = true := by
  induction rest generalizing s c offset completed out n with
  | nil =>
    obtain ⟨n, rfl⟩ := Nat.exists_eq_add_of_le' (show 1 ≤ n by omega)
    simp only [List.length_nil, Nat.zero_add, Nat.one_mul] at hleft
    simp only [transferLoop, transferStep, if_true]
    rw [if_neg (by omega)]
  | cons d rest ih =>
    obtain ⟨n, rfl⟩ := Nat.exists_eq_add_of_le' (show 1 ≤ n by omega)
    obtain ⟨hlink, heoc⟩ := h.not_eoc hdm
    simp only [transferLoop, transferStep, if_true]
    split
    · next hmore =>
      have hpat : (s.patch c offset (min (dm.clustnoBytes - offset) (length - completed)) fun _ => 0).fat = s.fat := rfl
      rw [hpat, hlink, heoc, h.valid d (by simp), if_neg (by simp)]
      rw [List.length_cons, Nat.add_mul _ 1, Nat.one_mul] at hleft
      exact ih (h.tail.congr fun _ _ => rfl) hdm.bytes (by omega) hmore (by omega)
    · rfl

lemma lookup_chain (hdm : Sane dm) (hok : CursorOk dm s) (h : IsFatChain dm s.fat (c :: l)) (hn : n < l.length + 1) :
    (fatClusterAt dm s c n).2 = (c :: l)[n]? := by
  have hlen := h.length_lt hdm
  rw [List.length_cons] at hlen
  rw [clusterAt_eq hok (by have := two_le_of_valid (h.valid c (by simp)); omega), plainClusterAt, if_neg (by omega),
    h.walk hdm]

/-- **Zeros in a chain that is long enough only fail for want of a buffer, and then nothing was written.** -/
lemma zeroTransfer_spec (bounce : Bool) (hdm : Sane dm) (hok : CursorOk dm s) (h : IsFatChain dm s.fat (c :: l))
    (hlen : 0 < length) (hin : offset + length ≤ (l.length + 1) * dm.clustnoBytes) :
    (fatTransfer dm .zero bounce s c offset length).2.2 = bounce ∧
      (bounce = false → (fatTransfer dm .zero bounce s c offset length).1.data = s.data) := by
  have hbs := hdm.bytes
  have hidx : offset / dm.clustnoBytes < l.length + 1 := (Nat.div_lt_iff_lt_mul hbs).mpr (by omega)
  have hlook := lookup_chain hdm hok h hidx
  have hkept := clusterAt_fat dm s c (offset / dm.clustnoBytes)
  unfold fatTransfer
  rw [if_neg (by omega)]
  rcases hfnd : fatClusterAt dm s c (offset / dm.clustnoBytes) with ⟨s₁, found⟩
  rw [hfnd] at hlook hkept
  dsimp only at hlook hkept
  obtain ⟨d, rest, hdrop⟩ : ∃ d rest, (c :: l).drop (offset / dm.clustnoBytes) = d :: rest :=
    ⟨_, _, List.drop_eq_getElem_cons (by simpa using hidx)⟩
  have hd : found = some d := by
    rw [hlook, ← Nat.add_zero (offset / dm.clustnoBytes), ← List.getElem?_drop, hdrop]
    rfl
  subst hd
  dsimp only
  cases bounce with
  | false =>
    obtain ⟨n, rfl⟩ := Nat.exists_eq_add_of_le' (show 1 ≤ length by omega)
    exact ⟨rfl, fun _ => hkept.2⟩
  | true =>
    refine ⟨?_, nofun⟩
    have hsuf : IsFatChain dm s₁.fat (d :: rest) := by
      rw [← hdrop, hkept.1]
      exact IsFatChain.drop (a := (c :: l).take (offset / dm.clustnoBytes)) (by rwa [List.take_append_drop])
    have hcnt : offset / dm.clustnoBytes + (rest.length + 1) = l.length + 1 := by
      have := congrArg List.length hdrop
      simp only [List.length_drop, List.length_cons] at this
      omega
    have hdiv := Nat.div_add_mod' offset dm.clustnoBytes
    have hmul : (l.length + 1) * dm.clustnoBytes =
        offset / dm.clustnoBytes * dm.clustnoBytes + (rest.length + 1) * dm.clustnoBytes := by
      rw [← hcnt, Nat.add_mul]
    exact zeroLoop_done hdm hsuf (Nat.mod_lt _ hbs) (by omega) hlen (by omega)

/-! ### A file and its chain -/

/-- `ceil(size / ClustnoBytes)` -/
def neededClusters (dm : FatCache) (size : ℕ) : ℕ := (size + dm.clustnoBytes - 1) / dm.clustnoBytes

/-- The chain starts where the entry says, and has room for the bytes; an empty file may have none. -/
def FileOk (dm : FatCache) (e : FatEntry) (l : List ℕ) : Prop :=
  (l = [] ∧ e.start = 0 ∧ e.size = 0) ∨ (l.head? = some e.start ∧ neededClusters dm e.size ≤ l.length)

lemma needed_mono (dm : FatCache) (h : m ≤ n) : neededClusters dm m ≤ neededClusters dm n :=
  Nat.div_le_div_right (by omega)

lemma needed_zero (hdm : Sane dm) : neededClusters dm 0 = 0 :=
  Nat.div_eq_of_lt (by have := hdm.bytes; omega)

lemma required_eq (hdm : Sane dm) (hsize : 0 < size) : requiredClusters dm size = neededClusters dm size := by
  have hbs := hdm.bytes
  rw [requiredClusters, if_neg (by omega), neededClusters,
    show size + dm.clustnoBytes - 1 = size - 1 + dm.clustnoBytes by omega, Nat.add_div_right _ hbs]

lemma required_pos (dm : FatCache) (size : ℕ) : 0 < requiredClusters dm size := by
  unfold requiredClusters
  split
  · exact Nat.one_pos
  · exact Nat.succ_pos _

lemma needed_le_required (hdm : Sane dm) (size : ℕ) : neededClusters dm size ≤ requiredClusters dm size := by
  rcases Nat.eq_zero_or_pos size with rfl | hpos
  · rw [needed_zero hdm]
    exact Nat.zero_le _
  · exact (required_eq hdm hpos).ge

lemma required_le_needed (hdm : Sane dm) (h : size < n) : requiredClusters dm size ≤ neededClusters dm n := by
  rcases Nat.eq_zero_or_pos size with rfl | hpos
  · rw [← required_eq hdm h]
    exact required_pos dm n
  · rw [required_eq hdm hpos]
    exact needed_mono dm h.le

lemma size_le_of_needed (hdm : Sane dm) (h : neededClusters dm size ≤ n) : size ≤ n * dm.clustnoBytes := by
  have hbs := hdm.bytes
  have hlt := (Nat.div_lt_iff_lt_mul hbs).mp (Nat.lt_succ_of_le h)
  rw [Nat.succ_mul] at hlt
  omega

section

variable {ι : Type*} [DecidableEq ι] {chains : ι → List ℕ} {f : ι} {e : FatEntry} {mem : ResizeMemory}

/-- A part of `fat_resize` has changed the chain of the file to `l`, but for its first `n` clusters. -/
structure Kept (dm : FatCache) (s : FatState) (chains : ι → List ℕ) (f : ι) (n : ℕ) (s' : FatState) (l : List ℕ) : Prop where
  wellFormed : WellFormed dm s'.fat (update chains f l)
  cursor : CursorOk dm s'
  take : l.take n = (chains f).take n
  data : s'.data = s.data

lemma Kept.refl (h : WellFormed dm s.fat chains) (hok : CursorOk dm s) : Kept dm s chains f n s (chains f) :=
  ⟨by rwa [update_eq_self], hok, rfl, rfl⟩

lemma Kept.trans (h : Kept dm s chains f n s₁ l₁) (h' : Kept dm s₁ (update chains f l₁) f n s₂ l₂) :
    Kept dm s chains f n s₂ l₂ where
  wellFormed := by
    have := h'.wellFormed
    rwa [update_idem] at this
  cursor := h'.cursor
  take := by rw [h'.take, update_self, h.take]
  data := h'.data.trans h.data

/-- `fat_resize` finds the chain of the file, or gives a file without one a first cluster. -/
lemma fatStart_spec (hdm : Sane dm) (h : WellFormed dm s.fat chains) (hok : CursorOk dm s) (hfile : FileOk dm e (chains f))
    (mem : EnsureMemory) {required : ℕ} :
    fatStart dm mem s e required = (s, none) ∨ ∃ s' start l, fatStart dm mem s e required = (s', some start) ∧
      Kept dm s chains f (neededClusters dm e.size) s' (start :: l) ∧
      neededClusters dm e.size ≤ (start :: l).length := by
  unfold fatStart
  split
  · next hemp =>
    have hneed : neededClusters dm e.size = 0 := by rw [hemp.2, needed_zero hdm]
    have hf : chains f = [] := by
      rcases hfile with hnone | ⟨hhead, -⟩
      · exact hnone.1
      · obtain ⟨l, hl⟩ := List.head?_eq_some_iff.mp hhead
        have hval := (h.isChain f).valid e.start (by simp [hl])
        rw [hemp.1] at hval
        have := two_le_of_valid hval
        omega
    unfold fatFirstCluster
    split
    · exact .inl rfl
    · next start hfree =>
      have hfnd := List.find?_some hfree
      simp only [Bool.and_eq_true, decide_eq_true_eq] at hfnd
      have hpush := h.push_first hf hfnd.1 hfnd.2
      have hlen : fatChainLength dm (s.setFat start (fatEocMarker dm.type)).fat start = some 1 := by
        have hch := hpush.isChain f
        rw [update_self] at hch
        exact hch.chainLength hdm
      have hsv (s' : FatState) : CursorOk dm (fileSavefat dm s' start 1) :=
        cursorOk_of_start (fileSavefat_start s' Nat.one_pos (lt_of_valid hfnd.2))
      rcases Nat.lt_or_ge 1 required with hmore | hone
      · rcases fatEnsureClusters_spec (s := s.setFat start (fatEocMarker dm.type)) hdm hpush (update_self ..) mem
          hmore with hfail | ⟨s', allocated, hens, hdata, -, hwell⟩
        · rw [hfail]
          exact .inl (by simp only [setFat_restore s start _ hfnd.1])
        · rw [hens]
          refine .inr ⟨_, start, allocated, rfl, ⟨?_, hsv s', ?_, ?_⟩, by omega⟩
          · rw [(fileSavefat_fat s' start 1).1]
            rw [update_idem] at hwell
            exact hwell
          · rw [hneed, List.take_zero, List.take_zero]
          · exact (fileSavefat_fat s' start 1).2.trans hdata
      · have hens : fatEnsureClusters dm mem (s.setFat start (fatEocMarker dm.type)) start required false =
            (s.setFat start (fatEocMarker dm.type), true) := by
          unfold fatEnsureClusters
          rw [hlen]
          exact if_pos hone
        rw [hens]
        refine .inr ⟨_, start, [], rfl, ⟨?_, hsv _, ?_, ?_⟩, by omega⟩
        · rw [(fileSavefat_fat _ start 1).1]
          exact hpush
        · rw [hneed, List.take_zero, List.take_zero]
        · exact (fileSavefat_fat _ start 1).2
  · next hfull =>
    rcases hfile with hnone | ⟨hhead, hneed⟩
    · exact absurd hnone.2 hfull
    · obtain ⟨l, hl⟩ := List.head?_eq_some_iff.mp hhead
      exact .inr ⟨s, e.start, l, rfl, hl ▸ Kept.refl h hok, hl ▸ hneed⟩

lemma fatGrow_spec (hdm : Sane dm) (h : WellFormed dm s.fat chains) (hok : CursorOk dm s) (hf : chains f = c :: l)
    (mem : EnsureMemory) {required : ℕ} (hn : n ≤ l.length + 1) :
    fatGrow dm mem s c (l.length + 1) required = (s, false) ∨
      ∃ s' l', fatGrow dm mem s c (l.length + 1) required = (s', true) ∧ Kept dm s chains f n s' (c :: (l ++ l')) ∧
        (required ≤ l.length + 1 ∧ l' = [] ∨ (c :: (l ++ l')).length = required) := by
  unfold fatGrow
  split
  · next hlt =>
    have hcurs := hok.ensureClusters mem c required false
    rcases fatEnsureClusters_spec hdm h hf mem hlt with hfail | ⟨s', l', hens, hdata, hlen, hwell⟩
    · exact .inl hfail
    · rw [hens] at hcurs
      refine .inr ⟨s', l', hens, ⟨hwell, hcurs, ?_, hdata⟩, .inr hlen⟩
      rw [hf, ← List.cons_append, List.take_append_of_le_length (by simpa using hn)]
  · next hge =>
    refine .inr ⟨s, [], rfl, ?_, .inl ⟨by omega, rfl⟩⟩
    rw [List.append_nil, ← hf]
    exact Kept.refl h hok

lemma fatShrink_spec (hdm : Sane dm) (h : WellFormed dm s.fat chains) (hok : CursorOk dm s) (hf : chains f = c :: l)
    {required existing : ℕ} (hpos : 0 < required) (hexis : existing ≤ l.length + 1)
    (hsame : required < existing → existing = l.length + 1) :
    ∃ s', fatShrink dm s c existing required = (s', true) ∧
      Kept dm s chains f required s' (if required < existing then (c :: l).take required else c :: l) := by
  unfold fatShrink
  split
  · next hlt =>
    obtain rfl := hsame hlt
    have hcurs := hok.cut (by have := hdm.terms; omega) c required
    obtain ⟨s', hcut, hdata, hwell⟩ := fatCut_spec hdm hok h hf hpos hlt
    rw [hcut] at hcurs
    exact ⟨s', hcut, hwell, hcurs, by rw [hf, List.take_take, Nat.min_self], hdata⟩
  · exact ⟨s, rfl, hf ▸ Kept.refl h hok⟩

lemma Kept.mono (h : Kept dm s chains f m s' l) (hnm : n ≤ m) : Kept dm s chains f n s' l :=
  ⟨h.wellFormed, h.cursor, by
    rw [← Nat.min_eq_left hnm, ← List.take_take, h.take, List.take_take], h.data⟩

/-! ### The bytes -/

lemma transferIf_fat (dm : FatCache) (cond : Bool) (kind : TransferKind) (bounce : Bool) (s : FatState) (c offset n : ℕ) :
    (transferIf dm cond kind bounce s c offset n).1.fat = s.fat := by
  unfold transferIf
  split
  · exact transfer_fat dm kind bounce s c offset n
  · rfl

/-- The last part of `fat_resize` leaves the chains alone, and changes the size only if it succeeds. -/
lemma fatFill_kept (dm : FatCache) (mem : ResizeMemory) (s : FatState) (e : FatEntry) (size offset : ℕ)
    (data : Option (ℕ → UInt8)) : (fatFill dm mem s e size offset data).1.fat = s.fat ∧
      (((fatFill dm mem s e size offset data).2.2 = .ok () ∧
          (fatFill dm mem s e size offset data).2.1 = { e with size := size }) ∨
        ((fatFill dm mem s e size offset data).2.2 = .error .io ∧ (fatFill dm mem s e size offset data).2.1 = e)) := by
  unfold fatFill
  dsimp only
  have hfat (cond : Bool) (kind : TransferKind) (bounce : Bool) (s₀ : FatState) (offset n : ℕ) :=
    transferIf_fat dm cond kind bounce s₀ e.start offset n
  rcases h₁ : transferIf dm (decide (e.size < if data.isSome = true then offset else size)) .zero mem.zero s e.start e.size
    ((if data.isSome = true then offset else size) - e.size) with ⟨s₁, done⟩
  have hs₁ : s₁.fat = s.fat := by
    have := hfat (decide (e.size < if data.isSome = true then offset else size)) .zero mem.zero s e.size
      ((if data.isSome = true then offset else size) - e.size)
    rwa [h₁] at this
  cases done with
  | false => exact ⟨hs₁, .inr ⟨rfl, rfl⟩⟩
  | true =>
    dsimp only
    rcases h₂ : transferIf dm (decide (size < e.size) && decide (size % dm.clustnoBytes ≠ 0)) .zero mem.tail s₁ e.start size
      (dm.clustnoBytes - size % dm.clustnoBytes) with ⟨s₂, done⟩
    have hs₂ : s₂.fat = s.fat := by
      have := hfat (decide (size < e.size) && decide (size % dm.clustnoBytes ≠ 0)) .zero mem.tail s₁ size
        (dm.clustnoBytes - size % dm.clustnoBytes)
      rw [h₂] at this
      exact this.trans hs₁
    cases done with
    | false => exact ⟨hs₂, .inr ⟨rfl, rfl⟩⟩
    | true =>
      dsimp only
      rcases h₃ : transferIf dm data.isSome (.write (data.getD fun _ => 0)) mem.data s₂ e.start offset (size - offset)
        with ⟨s₃, done⟩
      have hs₃ : s₃.fat = s.fat := by
        have := hfat data.isSome (.write (data.getD fun _ => 0)) mem.data s₂ offset (size - offset)
        rw [h₃] at this
        exact this.trans hs₂
      cases done with
      | false => exact ⟨hs₃, .inr ⟨rfl, rfl⟩⟩
      | true => exact ⟨hs₃, .inl ⟨rfl, rfl⟩⟩

lemma fatFill_longer (hdm : Sane dm) (hok : CursorOk dm s) (h : IsFatChain dm s.fat (e.start :: l)) (hsize : e.size ≤ size)
    (hin : size ≤ (l.length + 1) * dm.clustnoBytes) (herr : (fatFill dm mem s e size offset none).2.2 = .error .io) :
    (fatFill dm mem s e size offset none).1.data = s.data := by
  unfold fatFill at herr ⊢
  rcases Nat.lt_or_ge e.size size with hlt | hge
  · obtain ⟨hdone, hdata⟩ := zeroTransfer_spec mem.zero hdm hok h (Nat.sub_pos_of_lt hlt)
      (show e.size + (size - e.size) ≤ _ by omega)
    cases hzero : mem.zero with
    | false =>
      rw [hzero] at hdone hdata
      simp only [transferIf, Option.isSome_none, Bool.false_eq_true, if_false, hlt, decide_true, if_true, hdone]
      exact hdata rfl
    | true =>
      rw [hzero] at hdone
      simp [transferIf, hlt, hzero, hdone, Nat.not_lt.mpr hsize] at herr
  · simp [transferIf, Nat.not_lt.mpr hge, Nat.not_lt.mpr hsize] at herr

lemma fatFill_shorter (mem : ResizeMemory) (offset : ℕ) (hdm : Sane dm) (hok : CursorOk dm s)
    (h : IsFatChain dm s.fat (e.start :: l)) (hsize : size < e.size) (hin : requiredClusters dm size ≤ l.length + 1) :
    ((fatFill dm mem s e size offset none).2.2 = .error .io ↔ size % dm.clustnoBytes ≠ 0 ∧ mem.tail = false) ∧
      ((fatFill dm mem s e size offset none).2.2 = .error .io → (fatFill dm mem s e size offset none).1.data = s.data) := by
  have hbs := hdm.bytes
  unfold fatFill
  by_cases hmod : size % dm.clustnoBytes = 0
  · simp [transferIf, hmod, Nat.not_lt.mpr hsize.le]
  have hpos : 0 < size := by
    rcases Nat.eq_zero_or_pos size with rfl | hpos
    · exact absurd (Nat.zero_mod _) hmod
    · exact hpos
  have hend : size + (dm.clustnoBytes - size % dm.clustnoBytes) ≤ (l.length + 1) * dm.clustnoBytes := by
    have hdiv := Nat.div_add_mod' size dm.clustnoBytes
    have hlt := Nat.mod_lt size hbs
    have hidx : size / dm.clustnoBytes + 1 ≤ l.length + 1 := by
      refine le_trans ?_ hin
      rw [requiredClusters, if_neg (by omega)]
      refine Nat.succ_le_succ ((Nat.le_div_iff_mul_le hbs).mpr ?_)
      omega
    have hmul := Nat.mul_le_mul_right dm.clustnoBytes hidx
    rw [Nat.succ_mul] at hmul
    omega
  obtain ⟨hdone, hdata⟩ := zeroTransfer_spec mem.tail hdm hok h (Nat.sub_pos_of_lt (Nat.mod_lt size hbs)) hend
  cases htail : mem.tail with
  | false =>
    rw [htail] at hdone hdata
    simp only [transferIf, Option.isSome_none, Bool.false_eq_true, if_false, Nat.not_lt.mpr hsize.le, decide_false, hsize,
      decide_true, Bool.true_and, hdone, ne_eq, hmod, not_false_eq_true, if_true]
    exact ⟨by simp, fun _ => hdata rfl⟩
  | true =>
    rw [htail] at hdone
    simp [transferIf, hsize, hmod, hdone, Nat.not_lt.mpr hsize.le]

/-! ### The whole of `fat_resize` -/

/-- `fat_resize` has nothing to do, fails with a chain that is long enough still, or comes to the bytes with a chain of
the length that the new size needs. -/
lemma fatResize_cases (hdm : Sane dm) (h : WellFormed dm s.fat chains) (hok : CursorOk dm s) (hfile : FileOk dm e (chains f))
    (mem : ResizeMemory) (size offset : ℕ) (data : Option (ℕ → UInt8)) :
    (e.size = size ∧ fatResize dm mem s e size offset data = (s, e, .ok ())) ∨
      (∃ s' e' l' error, fatResize dm mem s e size offset data = (s', e', .error error) ∧
        Kept dm s chains f (neededClusters dm e.size) s' l' ∧ FileOk dm e' l' ∧ e'.size = e.size ∧ e.size ≤ size) ∨
      ∃ s' start l', fatResize dm mem s e size offset data = fatFill dm mem s' { e with start := start } size offset data ∧
        Kept dm s chains f (min (neededClusters dm e.size) (requiredClusters dm size)) s' (start :: l') ∧
        l'.length + 1 = requiredClusters dm size := by
  unfold fatResize
  dsimp only
  split
  · next hemp => exact .inl ⟨by omega, rfl⟩
  refine .inr ?_
  rcases fatStart_spec hdm h hok hfile mem.first with hfail | ⟨s₁, start, l₁, hstar, h₁, hneed⟩
  · rw [hfail]
    refine .inl ⟨s, e, chains f, .noSpace, rfl, Kept.refl h hok, hfile, rfl, ?_⟩
    by_contra hlt
    unfold fatStart at hfail
    rw [if_neg (by omega)] at hfail
    cases hfail
  rw [hstar]
  dsimp only
  have hch := h₁.wellFormed.isChain f
  rw [update_self] at hch
  rw [hch.chainLength hdm]
  dsimp only
  rcases fatGrow_spec hdm h₁.wellFormed h₁.cursor (update_self ..) mem.grow hneed
    with hfail | ⟨s₂, l₂, hgrow, h₂, hlen⟩
  · rw [hfail]
    refine .inl ⟨s₁, _, start :: l₁, .noSpace, rfl, h₁, .inr ⟨rfl, hneed⟩, rfl, ?_⟩
    by_contra hlt
    have hle : requiredClusters dm size ≤ l₁.length + 1 := by
      rcases Nat.eq_zero_or_pos size with rfl | hpos
      · exact Nat.succ_le_succ (Nat.zero_le _)
      · exact (required_eq hdm hpos).le.trans ((needed_mono dm (by omega)).trans hneed)
    unfold fatGrow at hfail
    rw [if_neg (by omega)] at hfail
    cases hfail
  rw [hgrow]
  dsimp only
  have h₂' := h₁.trans h₂
  obtain ⟨s₃, hshr, h₃⟩ := fatShrink_spec hdm h₂'.wellFormed h₂'.cursor (update_self ..)
    (required_pos dm size) (show l₁.length + 1 ≤ _ by simp) fun hlt => by
      rcases hlen with ⟨-, rfl⟩ | heq
      · rw [List.append_nil]
      · simp only [List.length_cons, List.length_append] at heq
        omega
  rw [hshr]
  dsimp only
  have h₃' := (h₂'.mono (Nat.min_le_left _ _)).trans (h₃.mono (Nat.min_le_right (neededClusters dm e.size) _))
  obtain ⟨k, hk⟩ := Nat.exists_eq_add_of_le' (required_pos dm size)
  split at h₃'
  · next hcut =>
    rw [hk, List.take_succ_cons, ← hk] at h₃'
    refine .inr ⟨s₃, start, _, rfl, h₃', ?_⟩
    rw [List.length_take, List.length_append]
    omega
  · next hkeep =>
    refine .inr ⟨s₃, start, _, rfl, h₃', ?_⟩
    rcases hlen with ⟨hle, rfl⟩ | heq
    · rw [List.append_nil]
      omega
    · rwa [List.length_cons] at heq

lemma fatFill_wellFormed (h : Kept dm s chains f n s₁ l) (mem : ResizeMemory) (e : FatEntry) (size offset : ℕ)
    (data : Option (ℕ → UInt8)) :
    WellFormed dm (fatFill dm mem s₁ e size offset data).1.fat (update chains f l) := by
  rw [(fatFill_kept dm mem s₁ e size offset data).1]
  exact h.wellFormed

/-- What a call that changes the size to `size` or more leaves behind, if it fails: the chain has kept its clusters as
far as the file needs them. -/
lemma fatResize_grow (hdm : Sane dm) (h : WellFormed dm s.fat chains) (hok : CursorOk dm s) (hfile : FileOk dm e (chains f))
    (hsize : e.size ≤ size) (mem : ResizeMemory) (offset : ℕ) (data : Option (ℕ → UInt8)) :
    ∃ l', WellFormed dm (fatResize dm mem s e size offset data).1.fat (update chains f l') ∧
      FileOk dm (fatResize dm mem s e size offset data).2.1 l' ∧
      l'.take (neededClusters dm e.size) = (chains f).take (neededClusters dm e.size) ∧
      ((fatResize dm mem s e size offset data).2.2 = .ok () ∧ (fatResize dm mem s e size offset data).2.1.size = size ∨
        (∃ error, (fatResize dm mem s e size offset data).2.2 = .error error) ∧
          (fatResize dm mem s e size offset data).2.1.size = e.size ∧
          (data = none → (fatResize dm mem s e size offset data).1.data = s.data)) := by
  rcases fatResize_cases hdm h hok hfile mem size offset data with
    ⟨hsame, hnoth⟩ | ⟨s', e', l', error, hfail, hkept, hfile', hsize', -⟩ | ⟨s', start, l', hfill, hkept, hlen⟩
  · rw [hnoth]
    exact ⟨chains f, by rwa [update_eq_self], hfile, rfl, .inl ⟨rfl, hsame⟩⟩
  · rw [hfail]
    exact ⟨l', hkept.wellFormed, hfile', hkept.take, .inr ⟨⟨error, rfl⟩, hsize', fun _ => hkept.data⟩⟩
  · have hneed : neededClusters dm size ≤ l'.length + 1 := hlen ▸ needed_le_required hdm size
    have htake := hkept.mono (Nat.le_min.mpr ⟨le_rfl, (needed_mono dm hsize).trans (needed_le_required hdm size)⟩)
    have hch := hkept.wellFormed.isChain f
    rw [update_self] at hch
    rw [hfill]
    refine ⟨start :: l', fatFill_wellFormed hkept .., ?_, htake.take, ?_⟩
    · rcases (fatFill_kept dm mem s' { e with start := start } size offset data).2 with ⟨-, he⟩ | ⟨-, he⟩
      · rw [he]
        exact .inr ⟨rfl, hneed⟩
      · rw [he]
        exact .inr ⟨rfl, (needed_mono dm hsize).trans hneed⟩
    · rcases (fatFill_kept dm mem s' { e with start := start } size offset data).2 with ⟨hdone, he⟩ | ⟨herr, he⟩
      · exact .inl ⟨hdone, by rw [he]⟩
      · refine .inr ⟨⟨_, herr⟩, by rw [he], ?_⟩
        rintro rfl
        rw [fatFill_longer (e := { e with start := start }) hdm hkept.cursor hch hsize
          (size_le_of_needed hdm hneed) herr]
        exact hkept.data

/-- What `fat_truncate` to a smaller size leaves behind, if it fails: the chain is cut, the bytes are the same. -/
lemma fatResize_shrink (hdm : Sane dm) (h : WellFormed dm s.fat chains) (hok : CursorOk dm s)
    (hfile : FileOk dm e (chains f)) (hsize : size < e.size) (mem : ResizeMemory) (offset : ℕ) :
    ((∃ error, (fatResize dm mem s e size offset none).2.2 = .error error) ↔
        size % dm.clustnoBytes ≠ 0 ∧ mem.tail = false) ∧
      ((∃ error, (fatResize dm mem s e size offset none).2.2 = .error error) →
        (fatResize dm mem s e size offset none).2.1.size = e.size ∧
          (fatResize dm mem s e size offset none).1.data = s.data ∧
          ∃ l', l' = (chains f).take (requiredClusters dm size) ∧
            l'.head? = some (fatResize dm mem s e size offset none).2.1.start ∧ l'.length = requiredClusters dm size ∧
            WellFormed dm (fatResize dm mem s e size offset none).1.fat (update chains f l')) := by
  rcases fatResize_cases hdm h hok hfile mem size offset none with
    ⟨hsame, -⟩ | ⟨s', e', l', error, -, -, -, -, hle⟩ | ⟨s', start, l', hfill, hkept, hlen⟩
  · exact absurd hsame (by omega)
  · exact absurd hle (by omega)
  · have hch := hkept.wellFormed.isChain f
    rw [update_self] at hch
    obtain ⟨hiff, hdata⟩ := fatFill_shorter mem offset (e := { e with start := start }) hdm hkept.cursor hch hsize
      hlen.ge
    have herr : (∃ error, (fatFill dm mem s' { e with start := start } size offset none).2.2 = .error error) ↔
        (fatFill dm mem s' { e with start := start } size offset none).2.2 = .error .io := by
      rcases (fatFill_kept dm mem s' { e with start := start } size offset none).2 with ⟨hdone, -⟩ | ⟨hio, -⟩
      · simp [hdone]
      · simp [hio]
    rw [hfill, herr]
    refine ⟨hiff, fun hio => ?_⟩
    have he : (fatFill dm mem s' { e with start := start } size offset none).2.1 = { e with start := start } := by
      rcases (fatFill_kept dm mem s' { e with start := start } size offset none).2 with ⟨hdone, -⟩ | ⟨-, he⟩
      · rw [hdone] at hio
        cases hio
      · exact he
    have htake := hkept.take
    rw [Nat.min_eq_right (required_le_needed hdm hsize), ← hlen, List.take_of_length_le (by simp)] at htake
    rw [he]
    exact ⟨rfl, (hdata hio).trans hkept.data, start :: l', by rw [htake, hlen], rfl, hlen,
      fatFill_wellFormed hkept ..⟩

/-! ### The calls -/

inductive ResizeCall
  | write (mem : WriteMemory) (offset : ℕ) (buffer : ℕ → UInt8) (length : ℕ)
  | truncate (mem : ResizeMemory) (size : ℕ)

/-- A call, and what it returns: `VFS_OK` is 0. -/
def ResizeCall.run (dm : FatCache) (s : FatState) (e : FatEntry) : ResizeCall → FatState × FatEntry × Except VfsError ℕ
  | .write mem offset buffer length => fatWrite dm mem s e offset buffer length
  | .truncate mem size =>
    let (s, e, status) := fatTruncate dm mem s e size
    (s, e, status.map fun _ => 0)

def ResizeCall.isTruncate : ResizeCall → Bool
  | .write .. => false
  | .truncate .. => true

/-- The byte of a file at `i` -/
def fileByte (dm : FatCache) (s : FatState) (l : List ℕ) (i : ℕ) : UInt8 :=
  s.data (l.getD (i / dm.clustnoBytes) 0) (i % dm.clustnoBytes)

/-- The file is usable and of the same size, and the chains of the volume are well-formed with one for the file; its
bytes are those before if `same` says so. -/
def LeftUsable (dm : FatCache) (s : FatState) (e : FatEntry) (chains : ι → List ℕ) (f : ι) (same : Bool) (s' : FatState)
    (e' : FatEntry) : Prop :=
  e'.size = e.size ∧ ∃ l', WellFormed dm s'.fat (update chains f l') ∧ FileOk dm e' l' ∧
    (same = true → ∀ i < e.size, fileByte dm s' l' i = fileByte dm s (chains f) i)

/-- A truncation to fewer clusters that ends in a cluster, and whose buffer for the rest of it is missing -/
def ResizeCall.CutsFirst (dm : FatCache) (e : FatEntry) : ResizeCall → Prop
  | .write .. => False
  | .truncate mem size => size % dm.clustnoBytes ≠ 0 ∧ mem.tail = false ∧
      neededClusters dm size < neededClusters dm e.size

lemma index_lt_needed (hdm : Sane dm) (hn : n < size) : n / dm.clustnoBytes < neededClusters dm size := by
  have hbs := hdm.bytes
  rw [neededClusters, ← Nat.succ_le_iff, Nat.succ_eq_add_one, ← Nat.add_div_right _ hbs]
  exact Nat.div_le_div_right (by omega)

lemma fileByte_eq (hdm : Sane dm) (htake : l'.take (neededClusters dm size) = l.take (neededClusters dm size))
    (hdata : s'.data = s.data) (hn : n < size) : fileByte dm s' l' n = fileByte dm s l n := by
  have hclus : l'[n / dm.clustnoBytes]? = l[n / dm.clustnoBytes]? := by
    rw [← List.getElem?_take_of_lt (index_lt_needed hdm hn), htake, List.getElem?_take_of_lt (index_lt_needed hdm hn)]
  rw [fileByte, fileByte, hdata, List.getD_eq_getElem?_getD, List.getD_eq_getElem?_getD, hclus]

/-- **`fat_write` that fails leaves the file usable**, even if the way back fails too. -/
lemma fatWrite_usable (hdm : Sane dm) (h : WellFormed dm s.fat chains) (hok : CursorOk dm s) (hfile : FileOk dm e (chains f))
    (mem : WriteMemory) (offset : ℕ) (buffer : ℕ → UInt8) (length : ℕ)
    (herr : ∃ error, (fatWrite dm mem s e offset buffer length).2.2 = .error error) :
    LeftUsable dm s e chains f false (fatWrite dm mem s e offset buffer length).1
      (fatWrite dm mem s e offset buffer length).2.1 := by
  unfold fatWrite at herr ⊢
  split
  · exact ⟨rfl, chains f, by rwa [update_eq_self], hfile, nofun⟩
  next hfits =>
  rw [if_neg hfits] at herr
  split
  · next hlon =>
    rw [if_pos hlon] at herr
    have hcurs := hok.resize (by have := hdm.terms; omega) mem.resize e (offset + length) offset (some buffer)
    obtain ⟨l', hwell, hfile', -, hcase⟩ := fatResize_grow hdm h hok hfile hlon.le mem.resize offset (some buffer)
    rcases hrsz : fatResize dm mem.resize s e (offset + length) offset (some buffer) with ⟨s₁, e₁, status⟩
    rw [hrsz] at hcurs hwell hfile' hcase herr
    dsimp only at hcurs hwell hfile' hcase herr ⊢
    cases status with
    | ok =>
      obtain ⟨error, herr⟩ := herr
      cases herr
    | error error =>
      rcases hcase with ⟨hok, -⟩ | ⟨-, hsize, -⟩
      · cases hok
      -- the way back to the old size
      obtain ⟨l'', hwell', hfile'', -, hcase'⟩ := fatResize_grow (f := f) hdm hwell hcurs
        (by rwa [update_self]) hsize.le mem.rollback 0 none
      rw [update_idem] at hwell'
      refine ⟨?_, l'', hwell', hfile'', nofun⟩
      rcases hcase' with ⟨-, hsize'⟩ | ⟨-, hsize', -⟩
      · exact hsize'
      · exact hsize'.trans hsize
  · have hfat := transfer_fat dm (.write buffer) mem.bounce s e.start offset length
    rcases htran : fatTransfer dm (.write buffer) mem.bounce s e.start offset length with ⟨s₁, out, done⟩
    rw [htran] at hfat
    cases done <;> exact ⟨rfl, chains f, by rw [update_eq_self, hfat]; exact h, hfile, nofun⟩

/-- `fat_truncate` to a smaller size that fails leaves the file usable if and only if no cluster was freed that its
size still needs. -/
lemma leftUsable_shrink (hdm : Sane dm) (h : WellFormed dm s.fat chains) (hok : CursorOk dm s)
    (hfile : FileOk dm e (chains f)) (hsize : size < e.size) (mem : ResizeMemory) (herr : ∃ error,
    (fatTruncate dm mem s e size).2.2 = .error error) :
    LeftUsable dm s e chains f true (fatTruncate dm mem s e size).1 (fatTruncate dm mem s e size).2.1 ↔
      ¬neededClusters dm size < neededClusters dm e.size := by
  obtain ⟨hiff, hleft⟩ := fatResize_shrink hdm h hok hfile hsize mem 0
  obtain ⟨hsame, hdata, l', hl', hhead, hlen, hwell⟩ := hleft herr
  have hpos : 0 < size := Nat.pos_of_ne_zero fun hzero => (hiff.mp herr).1 (by rw [hzero, Nat.zero_mod])
  rw [required_eq hdm hpos] at hl' hlen
  refine ⟨?_, fun hnot => ?_⟩
  · rintro ⟨-, l'', hwell', hfile', -⟩ hlt
    rcases hfile' with ⟨-, -, hzero⟩ | ⟨hhead', hneed⟩
    · exact absurd (hsame.symm.trans hzero) (by omega)
    -- a chain with this start has the length that `fat_chain_length` finds
    obtain ⟨m', hm'⟩ := List.head?_eq_some_iff.mp hhead
    obtain ⟨m'', hm''⟩ := List.head?_eq_some_iff.mp hhead'
    have hch := hwell.isChain f
    have hch' := hwell'.isChain f
    rw [update_self] at hch hch'
    rw [hm'] at hch hlen
    rw [hm''] at hch' hneed
    have heq := (hch.chainLength hdm).symm.trans (hch'.chainLength hdm)
    have hle : neededClusters dm e.size ≤ (_ :: m'').length := hsame ▸ hneed
    simp only [Option.some.injEq, List.length_cons] at heq hle hlen
    omega
  · have hneed : neededClusters dm e.size = neededClusters dm size :=
      le_antisymm (Nat.not_lt.mp hnot) (needed_mono dm hsize.le)
    refine ⟨hsame, l', hwell, .inr ⟨hhead, ?_⟩, fun _ i hi => fileByte_eq hdm ?_ hdata hi⟩
    · exact (congrArg (neededClusters dm) hsame).trans_le (hneed.trans_le hlen.ge)
    · rw [hneed, hl', List.take_take, Nat.min_self]

/-- **A failed call of `fat_write` or `fat_truncate` leaves the file usable, of the same size and, if it was truncated,
with the same bytes, unless it is a truncation to fewer clusters that finds no buffer for the rest of the last one.** -/
theorem failed_resize_iff (hs : (fatSystem dm).Reachable s) (hdm : Sane dm) (h : WellFormed dm s.fat chains)
    (hfile : FileOk dm e (chains f)) (call : ResizeCall) :
    ((∃ error, (call.run dm s e).2.2 = .error error) →
        LeftUsable dm s e chains f call.isTruncate (call.run dm s e).1 (call.run dm s e).2.1) ↔
      ¬call.CutsFirst dm e := by
  have hok := (cursorOk_reachable hs).1
  cases call with
  | write mem offset buffer length =>
    exact iff_of_true (fatWrite_usable hdm h hok hfile mem offset buffer length) id
  | truncate mem size =>
    have hmap : (∃ error, (ResizeCall.run dm s e (.truncate mem size)).2.2 = .error error) ↔
        ∃ error, (fatTruncate dm mem s e size).2.2 = .error error := by
      cases hstatus : (fatTruncate dm mem s e size).2.2 <;> simp [ResizeCall.run, hstatus, Except.map]
    rw [hmap]
    rcases Nat.lt_or_ge size e.size with hlt | hge
    · have hiff := (fatResize_shrink hdm h hok hfile hlt mem 0).1
      refine ⟨fun huse hcuts => ?_, fun hno herror => ?_⟩
      · have herror := hiff.mpr ⟨hcuts.1, hcuts.2.1⟩
        exact (leftUsable_shrink hdm h hok hfile hlt mem herror).mp (huse herror) hcuts.2.2
      · refine (leftUsable_shrink hdm h hok hfile hlt mem herror).mpr fun hfewer => hno ?_
        exact ⟨(hiff.mp herror).1, (hiff.mp herror).2, hfewer⟩
    · refine iff_of_true ?_ fun hcuts => absurd hcuts.2.2 (Nat.not_lt.mpr (needed_mono dm hge))
      rintro ⟨error, herror⟩
      obtain ⟨l', hwell, hfile', htake, hdone | ⟨-, hsize, hdata⟩⟩ := fatResize_grow hdm h hok hfile hge mem 0 none
      · exact absurd (hdone.1.symm.trans herror) (by simp)
      · exact ⟨hsize, l', hwell, hfile', fun _ i hi => fileByte_eq hdm htake (hdata rfl) hi⟩

end

lemma smallVolume_sane : Sane smallVolume where
  terms := by decide
  bytes := by decide
  below c hc := by
    have hlt : c < 16 := lt_of_valid hc
    have heoc : ∀ c < 16, fatIsEoc smallVolume.type c = false := by decide
    exact heoc c hlt

lemma smallState_wellFormed : WellFormed smallVolume smallState.fat fun _ : Unit => [2, 3, 4] where
  isChain _ := ⟨by decide, by decide, by simp [smallState]; decide, by decide⟩
  disjoint _ _ _ _ _ := rfl
  used c _ hne := by
    refine .inl ⟨(), ?_⟩
    simp only [smallState, ne_eq] at hne
    by_contra hnot
    simp only [List.mem_cons, List.not_mem_nil, or_false, not_or] at hnot
    simp [hnot.1, hnot.2.1, hnot.2.2] at hne

lemma smallFile_ok : FileOk smallVolume ⟨2, 1500⟩ [2, 3, 4] := .inr ⟨rfl, by decide⟩

def enoughMemory : ResizeMemory := ⟨⟨true, true⟩, ⟨true, true⟩, true, true, true⟩

/-- A write that finds no space on the volume leaves the file as it should. -/
theorem full_volume_write : LeftUsable smallVolume smallState ⟨2, 1500⟩ (fun _ : Unit => [2, 3, 4]) () false
    (fatWrite smallVolume ⟨enoughMemory, true, enoughMemory⟩ smallState ⟨2, 1500⟩ 1000 (fun _ => 7) 9000).1
    (fatWrite smallVolume ⟨enoughMemory, true, enoughMemory⟩ smallState ⟨2, 1500⟩ 1000 (fun _ => 7) 9000).2.1 :=
  (failed_resize_iff (smallState_reachable []) smallVolume_sane smallState_wellFormed smallFile_ok
    (.write ⟨enoughMemory, true, enoughMemory⟩ 1000 (fun _ => 7) 9000)).mpr id ⟨.noSpace, by rfl⟩

/-- A file of 1500 bytes is truncated to 600, and the buffer for the rest of the second cluster is missing: the third
cluster has been freed, and the size is 1500 still. -/
theorem truncate_cuts_first : (fatSystem smallVolume).Reachable smallState ∧
    (fatTruncate smallVolume { enoughMemory with tail := false } smallState ⟨2, 1500⟩ 600).2.2 = .error .io ∧
    (fatTruncate smallVolume { enoughMemory with tail := false } smallState ⟨2, 1500⟩ 600).2.1 = ⟨2, 1500⟩ ∧
    fatChainLength smallVolume
      (fatTruncate smallVolume { enoughMemory with tail := false } smallState ⟨2, 1500⟩ 600).1.fat 2 = some 2 ∧
    ¬LeftUsable smallVolume smallState ⟨2, 1500⟩ (fun _ : Unit => [2, 3, 4]) () true
      (fatTruncate smallVolume { enoughMemory with tail := false } smallState ⟨2, 1500⟩ 600).1
      (fatTruncate smallVolume { enoughMemory with tail := false } smallState ⟨2, 1500⟩ 600).2.1 := by
  have herror : (fatTruncate smallVolume { enoughMemory with tail := false } smallState ⟨2, 1500⟩ 600).2.2 = .error .io := by
    rfl
  refine ⟨smallState_reachable [], herror, by decide +kernel, by decide +kernel, fun huse => ?_⟩
  exact (leftUsable_shrink smallVolume_sane smallState_wellFormed (cursorOk_of_start rfl) smallFile_ok (by decide) _
    ⟨_, herror⟩).mp huse (by decide)

end PlantOS.Fat

import PlantOS.Vfs.PathText

/-!
# The two parsers and the printer of paths

`vfs_resolve` and `vfs_resolve_parent` agree on every path that does not begin with a separator and a colon, and
`vfs_resolve` reads back what `vfs_dentry_path` writes.
-/

namespace PlantOS.Vfs.PathText

open List (append_nil cons_append length_cons mem_cons mem_cons_self mem_map mem_singleton nil_append not_mem_nil)

/-! ### Components -/

lemma componentsFrom_append (left right component : List UInt8) {c : UInt8} (hc : isSeparator c = true) :
    componentsFrom (left ++ c :: right) component = componentsFrom left component ++ componentsFrom right [] := by
  induction left generalizing component with
  | nil =>
    simp only [nil_append, componentsFrom, hc, if_true]
    split_ifs
    · rfl
    · rfl
  | cons d left ih =>
    simp only [cons_append, componentsFrom]
    split_ifs
    · exact ih []
    · rw [ih [], cons_append]
    · exact ih _

lemma componentsFrom_plain (name component : List UInt8) (hname : ∀ c ∈ name, isSeparator c = false) :
    componentsFrom name component = if component ++ name = [] then [] else [component ++ name] := by
  induction name generalizing component with
  | nil => rw [append_nil, componentsFrom]
  | cons c name ih =>
    rw [componentsFrom, hname c mem_cons_self, if_neg Bool.false_ne_true,
      ih _ fun d hd => hname d (.tail _ hd), List.append_assoc, List.singleton_append]

lemma componentsFrom_slashes (left component : List UInt8) (n : ℕ) :
    componentsFrom (left ++ List.replicate n slash) component = componentsFrom left component := by
  have hnil : ∀ n, componentsFrom (List.replicate n slash) [] = [] := by
    intro n
    induction n with
    | zero => rfl
    | succ n ih => exact ih
  cases n with
  | zero => rw [List.replicate_zero, append_nil]
  | succ n => rw [List.replicate_succ, componentsFrom_append _ _ _ (by decide), hnil, append_nil]

lemma componentsFrom_copyOf (path component : List UInt8) :
    componentsFrom (copyOf path) component = componentsFrom path component := by
  induction path generalizing component with
  | nil => rfl
  | cons c path ih =>
    change componentsFrom ((if c = backslash then slash else c) :: copyOf path) component = _
    rw [componentsFrom, componentsFrom]
    by_cases hc : c = backslash
    · rw [hc, if_pos rfl, if_pos (by decide : isSeparator slash = true), if_pos (by decide : isSeparator backslash = true), ih]
    · rw [if_neg hc, ih, ih]

variable {component : List UInt8}

lemma componentsFrom_mem {path name : List UInt8} (hcomp : ∀ c ∈ component, isSeparator c = false)
    (hname : name ∈ componentsFrom path component) : name ≠ [] ∧ ∀ c ∈ name, isSeparator c = false := by
  induction path generalizing component with
  | nil =>
    rw [componentsFrom] at hname
    split_ifs at hname with hnil
    · cases hname
    · rw [mem_singleton.mp hname]
      exact ⟨hnil, hcomp⟩
  | cons c path ih =>
    rw [componentsFrom] at hname
    split_ifs at hname with hc hnil
    · exact ih (fun _ hd => (not_mem_nil hd).elim) hname
    · rcases mem_cons.mp hname with rfl | hrest
      · exact ⟨hnil, hcomp⟩
      · exact ih (fun _ hd => (not_mem_nil hd).elim) hrest
    · refine ih (fun d hd => ?_) hname
      rcases List.mem_append.mp hd with hold | hnew
      · exact hcomp d hold
      · rw [mem_singleton.mp hnew]
        exact Bool.eq_false_iff.mpr hc

/-! ### The copy -/

lemma copyOf_separator (path : List UInt8) {c : UInt8} (hc : c ∈ copyOf path) (hslas : c ≠ slash) : isSeparator c = false := by
  obtain ⟨d, -, rfl⟩ := mem_map.mp hc
  unfold isSeparator
  by_cases hd : d = backslash
  · rw [if_pos hd] at hslas
    exact absurd rfl hslas
  · rw [if_neg hd] at hslas ⊢
    simp [hslas, hd]

lemma stripped_append (copy : List UInt8) : ∃ n, copy = stripped copy ++ List.replicate n slash := by
  have hdrop : ∀ l : List UInt8, ∃ n, l = List.replicate n slash ++ l.dropWhile fun c => c = slash := by
    intro l
    induction l with
    | nil => exact ⟨0, rfl⟩
    | cons c l ih =>
      obtain ⟨n, hn⟩ := ih
      by_cases hc : c = slash
      · refine ⟨n + 1, ?_⟩
        rw [List.dropWhile_cons, if_pos (decide_eq_true hc), hc, List.replicate_succ, cons_append, ← hn]
      · refine ⟨0, ?_⟩
        rw [List.dropWhile_cons, if_neg (by simpa using hc)]
        rfl
  obtain ⟨n, hn⟩ := hdrop copy.reverse
  refine ⟨n, ?_⟩
  have hrev := congrArg List.reverse hn
  rw [List.reverse_reverse, List.reverse_append, List.reverse_replicate] at hrev
  exact hrev

lemma last_slash {copy : List UInt8} (h : slash ∈ copy) :
    ∃ directory leaf, copy = directory ++ slash :: leaf ∧ slash ∉ leaf := by
  induction copy with
  | nil => cases h
  | cons c copy ih =>
    by_cases hrest : slash ∈ copy
    · obtain ⟨directory, leaf, rfl, hleaf⟩ := ih hrest
      exact ⟨c :: directory, leaf, rfl, hleaf⟩
    · rcases mem_cons.mp h with rfl | hmem
      · exact ⟨[], copy, rfl, hrest⟩
      · exact absurd hmem hrest

lemma leafFrom_plain {scan : List UInt8} (h : slash ∉ scan) (index leaf : ℕ) : leafFrom scan index leaf = leaf := by
  induction scan generalizing index leaf with
  | nil => rfl
  | cons c scan ih =>
    have hc : c ≠ slash := fun heq => h (by rw [heq]; exact mem_cons_self)
    rw [leafFrom, if_neg hc]
    exact ih (fun hmem => h (.tail _ hmem)) ..

lemma leafFrom_append (directory : List UInt8) {name : List UInt8} (h : slash ∉ name) (index leaf : ℕ) :
    leafFrom (directory ++ slash :: name) index leaf = index + directory.length + 1 := by
  induction directory generalizing index leaf with
  | nil =>
    rw [nil_append, leafFrom, if_pos rfl, leafFrom_plain h]
    rfl
  | cons c directory ih =>
    rw [cons_append, leafFrom, ih, length_cons]
    omega

/-! ### `vfs_resolve` of a copy -/

variable {s : Mounts} {cwd d parent : Dentry} {path name : List UInt8}

lemma rootForDrive_separator {c : UInt8} (hc : isSeparator c = true) : s.rootForDrive c = none := by
  unfold isSeparator at hc
  rcases Bool.or_eq_true_iff.mp hc with hc | hc <;> rw [of_decide_eq_true hc] <;> rfl

lemma start_copyOf (s : Mounts) (cwd : Dentry) (path : List UInt8) :
    s.start cwd (copyOf path) = (s.start cwd path).map fun start => (start.1, copyOf start.2) := by
  cases path with
  | nil => rfl
  | cons c rest =>
    have hhead : (copyOf rest).head? = some colon ↔ rest.head? = some colon := by
      cases rest with
      | nil => exact Iff.rfl
      | cons d rest =>
        change some (if d = backslash then slash else d) = some colon ↔ some d = some colon
        by_cases hd : d = backslash
        · rw [if_pos hd, hd]
          decide
        · rw [if_neg hd]
    have hsep : isSeparator (if c = backslash then slash else c) = isSeparator c := by
      by_cases hc : c = backslash
      · rw [if_pos hc, hc]
        rfl
      · rw [if_neg hc]
    have hroot : s.rootForDrive (if c = backslash then slash else c) = s.rootForDrive c := by
      by_cases hc : c = backslash
      · rw [if_pos hc, hc]
        rfl
      · rw [if_neg hc]
    change s.start cwd ((if c = backslash then slash else c) :: copyOf rest) = _
    unfold Mounts.start
    dsimp only
    rw [hsep, hroot]
    by_cases hcol : rest.head? = some colon
    · rw [if_pos hcol, if_pos (hhead.mpr hcol)]
      cases s.rootForDrive c with
      | none => rfl
      | some root =>
        change Except.ok (root, (copyOf rest).tail) = Except.ok (root, copyOf rest.tail)
        unfold copyOf
        rw [List.map_tail]
    · rw [if_neg hcol, if_neg (mt hhead.mp hcol)]
      by_cases hc : isSeparator c = true
      · rw [if_pos hc, if_pos hc]
        rfl
      · rw [if_neg hc, if_neg hc]
        rfl

lemma vfsResolve_copyOf (s : Mounts) (cwd : Dentry) (path : List UInt8) :
    s.vfsResolve cwd (copyOf path) = s.vfsResolve cwd path := by
  unfold Mounts.vfsResolve
  rw [start_copyOf]
  cases s.start cwd path with
  | error status => rfl
  | ok start =>
    obtain ⟨current, cursor⟩ := start
    dsimp only [Except.map]
    rw [componentsFrom_copyOf]

lemma vfsResolve_slashes (s : Mounts) (cwd : Dentry) {copy : List UInt8} (hcopy : copy ≠ []) (n : ℕ) :
    s.vfsResolve cwd (copy ++ List.replicate n slash) = s.vfsResolve cwd copy := by
  cases copy with
  | nil => exact absurd rfl hcopy
  | cons c rest =>
    have hhead : (rest ++ List.replicate n slash).head? = some colon ↔ rest.head? = some colon := by
      cases rest with
      | nil =>
        cases n with
        | zero => exact Iff.rfl
        | succ n =>
          rw [nil_append, List.replicate_succ]
          exact ⟨fun heq => absurd (Option.some.inj heq) (by decide), nofun⟩
      | cons d rest => exact Iff.rfl
    have htail : rest.head? = some colon → (rest ++ List.replicate n slash).tail = rest.tail ++ List.replicate n slash := by
      cases rest with
      | nil => exact nofun
      | cons d rest => exact fun _ => rfl
    unfold Mounts.vfsResolve Mounts.start
    rw [cons_append]
    dsimp only
    by_cases hcol : rest.head? = some colon
    · rw [if_pos hcol, if_pos (hhead.mpr hcol)]
      cases s.rootForDrive c with
      | none => rfl
      | some root =>
        dsimp only
        rw [htail hcol, componentsFrom_slashes]
    · rw [if_neg hcol, if_neg (mt hhead.mp hcol)]
      split_ifs
      · dsimp only
        rw [← cons_append, componentsFrom_slashes]
      · dsimp only
        rw [← cons_append, componentsFrom_slashes]

lemma walk_append (s : Mounts) (current : Dentry) (components rest : List (List UInt8)) : s.walk current (components ++ rest) =
    match s.walk current components with
    | .error status => .error status
    | .ok next => s.walk next rest := by
  induction components generalizing current with
  | nil => rfl
  | cons component components ih =>
    rw [cons_append, Mounts.walk, Mounts.walk]
    cases s.enter current component with
    | error status => rfl
    | ok next => exact ih next

lemma walk_last (s : Mounts) (current : Dentry) (components : List (List UInt8)) (name : List UInt8) :
    s.walk current (components ++ [name]) =
      match s.walk current components with
      | .error status => .error status
      | .ok next => s.enter next name := by
  rw [walk_append]
  cases s.walk current components with
  | error status => rfl
  | ok next =>
    change (match s.enter next name with
      | .error status => .error status
      | .ok next => .ok next) = s.enter next name
    cases s.enter next name <;> rfl

/-- **`vfs_resolve` of a path enters the leaf from where that of the parent's path ends**, unless the path is a
separator and a name that begins with a colon. -/
lemma vfsResolve_leaf (s : Mounts) (cwd : Dentry) {copy : List UInt8} (hsep : ∀ c ∈ copy, c ≠ slash → isSeparator c = false)
    (hcopy : copy ≠ []) (hdrv : ¬(copy.length = 2 ∧ copy[1]? = some colon)) (hleaf : copy.drop (leafStart copy) ≠ [])
    (hcol : ∀ rest, slash ∉ rest → copy ≠ slash :: colon :: rest) :
    s.vfsResolve cwd copy =
      match s.vfsResolve cwd (parentPath copy (leafStart copy)) with
      | .error status => .error status
      | .ok parent => s.enter parent (copy.drop (leafStart copy)) := by
  by_cases hslas : slash ∈ copy
  · obtain ⟨directory, leaf, rfl, hnot⟩ := last_slash hslas
    have hpl : ∀ c ∈ leaf, isSeparator c = false := fun c hc =>
      hsep c (List.mem_append_right _ (.tail _ hc)) fun heq => hnot (heq ▸ hc)
    have hstar : leafStart (directory ++ slash :: leaf) = directory.length + 1 := by
      unfold leafStart
      rw [leafFrom_append _ hnot, Nat.zero_add]
    have hdrop : (directory ++ slash :: leaf).drop (directory.length + 1) = leaf := by
      rw [List.drop_append, List.drop_eq_nil_of_le (Nat.le_succ _), Nat.add_sub_cancel_left]
      rfl
    have hnotDrive : ¬(directory.length + 1 = 2 ∧ (directory ++ slash :: leaf)[1]? = some colon) := by
      rintro ⟨hlen, hget⟩
      rw [List.getElem?_append_right (by omega), show 1 - directory.length = 0 by omega] at hget
      cases hget
    rw [hstar, hdrop] at hleaf
    rw [hstar, hdrop]
    have hname : componentsFrom leaf [] = [leaf] := by
      rw [componentsFrom_plain _ _ hpl, nil_append, if_neg hleaf]
    unfold parentPath
    rw [if_neg (Nat.succ_ne_zero _), if_neg hnotDrive, Nat.add_sub_cancel]
    cases directory with
    | nil =>
      have hhead : leaf.head? ≠ some colon := by
        cases leaf with
        | nil => exact nofun
        | cons c rest =>
          intro heq
          cases heq
          exact hcol rest (fun hmem => hnot (.tail _ hmem)) rfl
      unfold Mounts.vfsResolve Mounts.start
      simp only [nil_append, List.length_nil, if_true, List.take_succ_cons, List.take_zero, List.head?_nil,
        reduceCtorEq, if_false,
        if_neg hhead, if_pos (show isSeparator slash = true by decide)]
      split_ifs
      · rw [show slash :: leaf = [] ++ slash :: leaf from rfl, componentsFrom_append _ _ _ (by decide), hname]
        exact walk_last s _ _ leaf
      · rfl
    | cons c directory =>
      have hhead : (directory ++ slash :: leaf).head? = some colon ↔ directory.head? = some colon := by
        cases directory with
        | nil =>
          change some slash = some colon ↔ none = some colon
          exact ⟨fun heq => absurd heq (by decide), nofun⟩
        | cons d directory => exact Iff.rfl
      have htail : directory.head? = some colon → (directory ++ slash :: leaf).tail = directory.tail ++ slash :: leaf := by
        cases directory with
        | nil => exact nofun
        | cons d directory => exact fun _ => rfl
      have htake : (c :: directory ++ slash :: leaf).take (c :: directory).length = c :: directory := List.take_left
      rw [if_neg (by rw [length_cons]; omega), htake]
      have hlast : ∀ current (cursor : List UInt8), (if (s.mount (current : Dentry).mount).diskReady = true then
            s.walk current (componentsFrom (cursor ++ slash :: leaf) []) else .error .io) =
          match if (s.mount current.mount).diskReady = true then s.walk current (componentsFrom cursor []) else .error .io with
          | .error status => .error status
          | .ok parent => s.enter parent leaf := by
        intro current cursor
        rw [componentsFrom_append _ _ _ (by decide), hname]
        split_ifs
        · exact walk_last s _ _ leaf
        · rfl
      unfold Mounts.vfsResolve Mounts.start
      rw [cons_append]
      dsimp only
      by_cases hdriveHead : directory.head? = some colon
      · rw [if_pos hdriveHead, if_pos (hhead.mpr hdriveHead)]
        cases s.rootForDrive c with
        | none => rfl
        | some root =>
          dsimp only
          rw [htail hdriveHead]
          exact hlast root directory.tail
      · rw [if_neg hdriveHead, if_neg (mt hhead.mp hdriveHead)]
        split_ifs
        · exact hlast _ (c :: directory)
        · exact hlast _ (c :: directory)
  · have hpl : ∀ c ∈ copy, isSeparator c = false := fun c hc => hsep c hc fun heq => hslas (heq ▸ hc)
    have hstar : leafStart copy = if copy.length > 2 ∧ copy[1]? = some colon then 2 else 0 := leafFrom_plain hslas ..
    rw [hstar] at hleaf ⊢
    unfold parentPath
    by_cases hlong : copy.length > 2 ∧ copy[1]? = some colon
    · rw [if_pos hlong] at hleaf ⊢
      rw [if_neg (by decide), if_pos ⟨rfl, hlong.2⟩]
      match copy, hlong, hpl, hleaf with
      | c :: d :: leaf, hlong, hpl, hleaf =>
        obtain rfl : d = colon := Option.some.inj hlong.2
        have hname : leaf ≠ [] := hleaf
        unfold Mounts.vfsResolve Mounts.start
        simp only [List.take_succ_cons, List.take_zero, List.head?_cons, if_true, List.tail_cons, List.drop_succ_cons,
          List.drop_zero]
        cases s.rootForDrive c with
        | none => rfl
        | some root =>
          dsimp only
          split_ifs
          · rw [componentsFrom_plain leaf [] fun x hx => hpl x (.tail _ (.tail _ hx)), nil_append, if_neg hname]
            exact walk_last s root [] leaf
          · rfl
    · rw [if_neg hlong] at hleaf ⊢
      rw [if_pos rfl]
      match copy, hcopy, hpl with
      | c :: rest, _, hpl =>
        have hhead : rest.head? ≠ some colon := by
          cases rest with
          | nil => exact nofun
          | cons d rest =>
            intro heq
            refine hlong ⟨?_, heq⟩
            have hne : ¬(c :: d :: rest).length = 2 := fun hlen => hdrv ⟨hlen, heq⟩
            simp only [length_cons] at hne ⊢
            omega
        unfold Mounts.vfsResolve Mounts.start
        simp only [if_neg hhead, if_neg (Bool.eq_false_iff.mp (hpl c mem_cons_self)), List.drop_zero]
        split_ifs
        · rw [componentsFrom_plain (c :: rest) [] hpl, nil_append, if_neg (List.cons_ne_nil _ _)]
          exact walk_last s cwd [] (c :: rest)
        · rfl

/-! ### Names -/

lemma isoUpper_toNat (c : UInt8) : (isoUpper c).toNat = if 97 ≤ c.toNat ∧ c.toNat ≤ 122 then c.toNat - 32 else c.toNat := by
  unfold isoUpper
  by_cases hc : 97 ≤ c ∧ c ≤ 122
  · have hlow : 97 ≤ c.toNat := UInt8.le_iff_toNat_le.mp hc.1
    have hhigh : c.toNat ≤ 122 := UInt8.le_iff_toNat_le.mp hc.2
    rw [if_pos hc, if_pos ⟨hlow, hhigh⟩]
    exact UInt8.toNat_sub_of_le _ _ (UInt8.le_iff_toNat_le.mpr (Nat.le_trans (by decide) hlow))
  · rw [if_neg hc, if_neg fun hboth => hc ⟨UInt8.le_iff_toNat_le.mpr hboth.1, UInt8.le_iff_toNat_le.mpr hboth.2⟩]

lemma isoUpper_eq {c d : UInt8} (hd : d.toNat < 65) : isoUpper c = d ↔ c = d := by
  rw [← UInt8.toNat_inj, ← UInt8.toNat_inj, isoUpper_toNat]
  split_ifs <;> omega

lemma isoUpper_backslash {c : UInt8} : isoUpper c = backslash ↔ c = backslash := by
  rw [← UInt8.toNat_inj, ← UInt8.toNat_inj, isoUpper_toNat, show backslash.toNat = 92 from rfl]
  split_ifs <;> omega

lemma isoUpper_isoUpper (c : UInt8) : isoUpper (isoUpper c) = isoUpper c := by
  rw [← UInt8.toNat_inj, isoUpper_toNat, isoUpper_toNat]
  split_ifs <;> omega

/-- A name that a filesystem keeps, and that `vfs_resolve` takes for one component -/
structure Proper (m : Mount) (name : List UInt8) : Prop where
  nonempty : name ≠ []
  plain : ∀ c ∈ name, isSeparator c = false
  dot : name ≠ [dot]
  dots : name ≠ [PathText.dot, PathText.dot]
  normal : m.normalizeComponent name = .ok name

lemma normalizeComponent_length {m : Mount} (h : m.normalizeComponent component = .ok name) :
    component ≠ [] ∧ component.length < 255 := by
  unfold Mount.normalizeComponent at h
  split_ifs at h with hlen
  exact ⟨fun hnil => hlen (.inl (by rw [hnil]; rfl)), by omega⟩

lemma normalizeComponent_eq {m : Mount} (h : m.normalizeComponent component = .ok name) :
    name = component ∨ m.normalizeName = .iso ∧ name = component.map isoUpper := by
  unfold Mount.normalizeComponent at h
  split_ifs at h
  cases hkind : m.normalizeName <;> rw [hkind] at h
  · simp only [Normalizer.apply, pfsVfsNormalize] at h
    split_ifs at h
    exact .inl (Except.ok.inj h).symm
  · simp only [Normalizer.apply, fatNormalizeName] at h
    split_ifs at h
    exact .inl (Except.ok.inj h).symm
  · simp only [Normalizer.apply, isoNormalizeName] at h
    split_ifs at h
    exact .inr ⟨rfl, (Except.ok.inj h).symm⟩
  · exact .inl (Except.ok.inj h).symm

/-- **What a filesystem makes of a component is a proper name.** -/
lemma normalizeComponent_proper {m : Mount} (hpl : ∀ c ∈ component, isSeparator c = false)
    (hdot : component ≠ [dot]) (hdots : component ≠ [dot, dot])
    (h : m.normalizeComponent component = .ok name) : Proper m name := by
  obtain ⟨hnemp, hlen⟩ := normalizeComponent_length h
  obtain rfl | ⟨hiso, rfl⟩ := normalizeComponent_eq h
  · exact ⟨hnemp, hpl, hdot, hdots, h⟩
  have hup : ∀ c : UInt8, isoUpper c = dot ↔ c = dot := fun c => isoUpper_eq (by decide)
  refine ⟨mt List.map_eq_nil_iff.mp hnemp, fun c hc => ?_, fun heq => hdot ?_, fun heq => hdots ?_, ?_⟩
  · obtain ⟨d, hd, rfl⟩ := mem_map.mp hc
    have hnot := hpl d hd
    unfold isSeparator at hnot ⊢
    rw [Bool.or_eq_false_iff] at hnot ⊢
    refine ⟨decide_eq_false fun heq => ?_, decide_eq_false fun heq => ?_⟩
    · exact of_decide_eq_false hnot.1 ((isoUpper_eq (by decide)).mp heq)
    · exact of_decide_eq_false hnot.2 (isoUpper_backslash.mp heq)
  · obtain ⟨c, rfl, hc⟩ := List.map_eq_singleton_iff.mp heq
    rw [(hup c).mp hc]
  · obtain ⟨c, rest, rfl, hc, hrest⟩ := List.map_eq_cons_iff.mp heq
    obtain ⟨d, rfl, hd⟩ := List.map_eq_singleton_iff.mp hrest
    rw [(hup c).mp hc, (hup d).mp hd]
  · unfold Mount.normalizeComponent
    have hlen' : ¬(component.length = 0 ∨ component.length ≥ 255) := by
      rintro (hzero | hge)
      · exact hnemp (List.eq_nil_of_length_eq_zero hzero)
      · omega
    rw [List.length_map, if_neg hlen', hiso]
    simp only [Normalizer.apply, isoNormalizeName]
    rw [List.length_map, if_neg hlen', List.map_map]
    congr 1
    exact List.map_congr_left fun c _ => isoUpper_isoUpper c

/-! ### Dentries -/

/-- **A dentry in its place**: its mount is the active one of its drive, and each name on the way is an entry of the
directory above it. -/
def Attached (s : Mounts) : Dentry → Prop
  | .root m => s.rootForDrive (s.mount m).drive = some (.root m)
  | .child parent name node => Attached s parent ∧ (s.node parent).type = .directory ∧ Proper (s.mount parent.mount) name ∧
    s.lookup parent name = .ok node

lemma Attached.root (h : Attached s d) : Attached s (.root d.mount) := by
  induction d with
  | root m => exact h
  | child parent name node ih => exact ih h.1

lemma Attached.up (h : Attached s d) : Attached s d.up := by
  cases d with
  | root m => exact h
  | child parent name node => exact h.1

lemma up_mount (d : Dentry) : d.up.mount = d.mount := by
  cases d <;> rfl

lemma normalizeDrive_normalizeDrive {drive normalized : UInt8} (h : normalizeDrive drive = some normalized) :
    normalizeDrive normalized = some normalized := by
  unfold normalizeDrive at h
  dsimp only at h
  rw [Option.ite_none_left_eq_some] at h
  obtain ⟨hrng, h⟩ := h
  cases h
  have hnot : ¬(97 ≤ (if 97 ≤ drive ∧ drive ≤ 122 then drive - 32 else drive) ∧
      (if 97 ≤ drive ∧ drive ≤ 122 then drive - 32 else drive) ≤ 122) := by
    rintro ⟨hlow, -⟩
    exact hrng (.inr (UInt8.lt_of_lt_of_le (by decide : (90 : UInt8) < 97) hlow))
  unfold normalizeDrive
  dsimp only
  rw [if_neg hnot, if_neg hrng]

lemma rootForDrive_attached {c : UInt8} (h : s.rootForDrive c = some d) : Attached s d := by
  unfold Mounts.rootForDrive at h
  obtain ⟨drive, hdrv, h⟩ := Option.bind_eq_some_iff.mp h
  obtain ⟨m, hfind, rfl⟩ := Option.map_eq_some_iff.mp h
  have hm : (s.mount m).drive = drive := by
    have hfnd := List.find?_some hfind
    exact of_decide_eq_true (Bool.and_eq_true_iff.mp hfnd).2
  change s.rootForDrive (s.mount m).drive = some (.root m)
  unfold Mounts.rootForDrive
  rw [hm, normalizeDrive_normalizeDrive hdrv, Option.bind_some, hfind]
  rfl

lemma enter_attached (h : Attached s d) {next : Dentry} (hpl : ∀ c ∈ name, isSeparator c = false)
    (he : s.enter d name = .ok next) : Attached s next ∧ next.mount = d.mount := by
  unfold Mounts.enter at he
  split_ifs at he with hdot hdots htype
  · cases he
    exact ⟨h, rfl⟩
  · cases he
    exact ⟨h.up, up_mount d⟩
  · split at he
    · cases he
    · rename_i normalized hnorm
      split at he
      · cases he
      · rename_i node hlook
        cases he
        unfold Mount.status at hlook
        split_ifs at hlook
        exact ⟨⟨h, Decidable.not_not.mp htype, normalizeComponent_proper hpl hdot hdots hnorm, hlook⟩, rfl⟩

lemma walk_attached {components : List (List UInt8)} (h : Attached s d) {next : Dentry}
    (hpl : ∀ name ∈ components, ∀ c ∈ name, isSeparator c = false) (he : s.walk d components = .ok next) :
    Attached s next ∧ next.mount = d.mount := by
  induction components generalizing d with
  | nil =>
    cases he
    exact ⟨h, rfl⟩
  | cons component components ih =>
    rw [Mounts.walk] at he
    cases hent : s.enter d component with
    | error status =>
      rw [hent] at he
      cases he
    | ok first =>
      rw [hent] at he
      obtain ⟨hfst, hmnt⟩ := enter_attached h (hpl component mem_cons_self) hent
      obtain ⟨hnext, hmnt'⟩ := ih hfst (fun name hname => hpl name (.tail _ hname)) he
      exact ⟨hnext, hmnt'.trans hmnt⟩

lemma vfsResolve_cases (he : s.vfsResolve cwd path = .ok d) : ∃ current cursor, s.start cwd path = .ok (current, cursor) ∧
    (s.mount current.mount).diskReady = true ∧ s.walk current (componentsFrom cursor []) = .ok d := by
  unfold Mounts.vfsResolve at he
  split at he
  · cases he
  · rename_i current cursor hstar
    split_ifs at he with hrdy
    exact ⟨current, cursor, hstar, hrdy, he⟩

lemma vfsResolve_attached (h : Attached s cwd) (he : s.vfsResolve cwd path = .ok d) :
    Attached s d ∧ (s.mount d.mount).diskReady = true := by
  obtain ⟨current, cursor, hstar, hrdy, hwalk⟩ := vfsResolve_cases he
  have hcur : Attached s current := by
    unfold Mounts.start at hstar
    split at hstar
    · cases hstar
      exact h
    · split_ifs at hstar
      · split at hstar
        · cases hstar
        · rename_i root hroot
          cases hstar
          exact rootForDrive_attached hroot
      · cases hstar
        exact h.root
      · cases hstar
        exact h
  obtain ⟨hd, hmnt⟩ := walk_attached hcur
    (fun name hname => (componentsFrom_mem (fun _ hc => (not_mem_nil hc).elim) hname).2) hwalk
  exact ⟨hd, hmnt ▸ hrdy⟩

lemma start_drive (s : Mounts) (cwd : Dentry) (c : UInt8) (rest : List UInt8) : s.start cwd (c :: colon :: rest) =
    match s.rootForDrive c with
    | none => .error .noEntry
    | some root => .ok (root, rest) := by
  unfold Mounts.start
  exact if_pos rfl

lemma start_slash (s : Mounts) (cwd : Dentry) {rest : List UInt8} (h : rest.head? ≠ some colon) :
    s.start cwd (slash :: rest) = .ok (.root cwd.mount, slash :: rest) := (if_neg h).trans (if_pos (by decide))

lemma vfsResolve_drive_attached {c : UInt8} {rest : List UInt8} (he : s.vfsResolve cwd (c :: colon :: rest) = .ok d) :
    Attached s d ∧ (s.mount d.mount).diskReady = true := by
  obtain ⟨current, cursor, hstar, hrdy, hwalk⟩ := vfsResolve_cases he
  have hcur : Attached s current := by
    rw [start_drive] at hstar
    split at hstar
    · cases hstar
    · rename_i root hroot
      cases hstar
      exact rootForDrive_attached hroot
  obtain ⟨hd, hmnt⟩ := walk_attached hcur
    (fun name hname => (componentsFrom_mem (fun _ hc => (not_mem_nil hc).elim) hname).2) hwalk
  exact ⟨hd, hmnt ▸ hrdy⟩

lemma walk_names (h : Attached s d) (hrdy : (s.mount d.mount).diskReady = true) : s.walk (.root d.mount) d.names = .ok d := by
  induction d with
  | root m => rfl
  | child parent name node ih =>
    obtain ⟨hpar, htype, hprop, hlook⟩ := h
    change s.walk (.root parent.mount) (parent.names ++ [name]) = _
    rw [walk_last, ih hpar hrdy]
    change s.enter parent name = _
    have hparentReady : (s.mount parent.mount).diskReady = true := hrdy
    unfold Mounts.enter Mount.status
    rw [if_neg hprop.dot, if_neg hprop.dots, if_neg (Decidable.not_not.mpr htype), hprop.normal]
    dsimp only
    rw [if_pos hparentReady, hlook]

lemma Attached.names_proper (h : Attached s d) : ∀ name ∈ d.names, name ≠ [] ∧ ∀ c ∈ name, isSeparator c = false := by
  induction d with
  | root m => exact fun name hname => (not_mem_nil hname).elim
  | child parent name node ih =>
    intro other hoth
    rcases List.mem_append.mp hoth with hold | hnew
    · exact ih h.1 other hold
    · rw [mem_singleton.mp hnew]
      exact ⟨h.2.2.1.nonempty, h.2.2.1.plain⟩

/-! ### What `vfs_dentry_path` writes -/

lemma write_eq (d : Dentry) (buffer : List UInt8) : write d buffer = d.names.flatMap (fun name => slash :: name) ++ buffer := by
  induction d generalizing buffer with
  | root m => rfl
  | child parent name node ih =>
    rw [write, ih, Dentry.names, List.flatMap_append, List.flatMap_singleton, List.append_assoc]

lemma componentsFrom_text {names : List (List UInt8)} (h : ∀ name ∈ names, name ≠ [] ∧ ∀ c ∈ name, isSeparator c = false) :
    componentsFrom (names.flatMap fun name => slash :: name) [] = names := by
  -- what stands behind a name begins with a separator
  have hname : ∀ (rest : List (List UInt8)) (name : List UInt8), name ≠ [] → (∀ c ∈ name, isSeparator c = false) →
      componentsFrom (name ++ rest.flatMap fun name => slash :: name) [] =
        name :: componentsFrom (rest.flatMap fun name => slash :: name) [] := by
    intro rest name hnemp hpl
    have hsin : componentsFrom name [] = [name] := by
      rw [componentsFrom_plain _ _ hpl, nil_append, if_neg hnemp]
    cases rest with
    | nil => rw [List.flatMap_nil, append_nil, hsin, componentsFrom, if_pos rfl]
    | cons next rest =>
      rw [List.flatMap_cons, cons_append, componentsFrom_append _ _ _ (by decide), hsin]
      rfl
  induction names with
  | nil => rfl
  | cons name names ih =>
    obtain ⟨hnemp, hpl⟩ := h name mem_cons_self
    rw [List.flatMap_cons, cons_append]
    change componentsFrom (name ++ names.flatMap fun name => slash :: name) [] = _
    rw [hname names name hnemp hpl, ih fun other hoth => h other (.tail _ hoth)]

def text (d : Dentry) : List UInt8 := if write d [] = [] then [slash] else write d []

lemma componentsFrom_text_dentry (h : Attached s d) : componentsFrom (text d) [] = d.names := by
  have hwr := write_eq d []
  rw [append_nil] at hwr
  have hnms := componentsFrom_text h.names_proper
  rw [← hwr] at hnms
  unfold text
  split_ifs with hnil
  · rw [hnil] at hnms
    exact hnms
  · exact hnms

lemma measure_eq (d : Dentry) {length : ℕ} (hlen : length ≤ intMax - 3) :
    measure d length = if length + (write d []).length ≤ intMax - 3 then some (length + (write d []).length) else none := by
  induction d generalizing length with
  | root m =>
    rw [measure, write, List.length_nil, Nat.add_zero, if_pos hlen]
  | child parent name node ih =>
    have hwr : (write (.child parent name node) []).length = (write parent []).length + (name.length + 1) := by
      rw [write, write_eq parent, write_eq parent []]
      simp only [append_nil, List.length_append, length_cons]
    rw [measure, hwr]
    by_cases hname : name.length + 1 > intMax - length - 3
    · rw [if_pos hname, if_neg]
      omega
    · rw [if_neg hname, ih (by omega)]
      have hcon : length + (name.length + 1) + (write parent []).length = length + ((write parent []).length + (name.length + 1)) := by
        omega
      rw [hcon]

lemma dentryPathLength_eq (d : Dentry) (drive : Bool) : dentryPathLength d drive =
    if (write d []).length ≤ intMax - 3 then .ok ((text d).length + if drive then 2 else 0) else .error .overflow := by
  unfold dentryPathLength
  rw [measure_eq d (Nat.zero_le _), Nat.zero_add]
  split_ifs with hfits <;> dsimp only
  all_goals
    congr 2
    unfold text
    by_cases hnil : write d [] = []
    · rw [if_pos hnil, hnil]
      rfl
    · rw [if_neg hnil, if_neg fun hzero => hnil (List.eq_nil_of_length_eq_zero hzero)]

lemma dentryPath_eq (s : Mounts) (d : Dentry) (capacity : ℕ) (drive : Bool) (hfits : (write d []).length ≤ intMax - 3)
    (hcap : (text d).length + (if drive then 2 else 0) < capacity) :
    s.dentryPath d capacity drive = .ok ((if drive then [(s.mount d.mount).drive, colon] else []) ++ text d) := by
  unfold Mounts.dentryPath
  rw [dentryPathLength_eq, if_pos hfits]
  dsimp only
  rw [if_neg (Nat.not_le.mpr hcap)]
  rfl

/-- **The path of a dentry leads back to it**, from any directory. -/
lemma vfsResolve_path (h : Attached s d) (hrdy : (s.mount d.mount).diskReady = true) (cwd : Dentry) :
    s.vfsResolve cwd ((s.mount d.mount).drive :: colon :: text d) = .ok d := by
  have hroot : s.rootForDrive (s.mount d.mount).drive = some (.root d.mount) := h.root
  unfold Mounts.vfsResolve
  rw [start_drive, hroot]
  dsimp only
  rw [componentsFrom_text_dentry h, walk_names h hrdy]
  exact if_pos hrdy

lemma text_cons (d : Dentry) : ∃ rest, text d = slash :: rest ∧
    (rest.head? = some colon → ∃ name ∈ d.names.head?, name = [] ∨ name.head? = some colon) ∧
    ∀ name ∈ d.names.head?, name.head? = some colon → rest.head? = some colon := by
  unfold text
  have hwr := write_eq d []
  rw [append_nil] at hwr
  rw [hwr]
  cases hnms : d.names with
  | nil => exact ⟨[], rfl, nofun, fun name hname => nomatch hname⟩
  | cons name names =>
    refine ⟨name ++ names.flatMap fun name => slash :: name, rfl, fun hhead => ⟨name, rfl, ?_⟩, fun other hoth hcol => ?_⟩
    · cases name with
      | nil => exact .inl rfl
      | cons c name => exact .inr hhead
    · cases hoth
      cases name with
      | nil => cases hcol
      | cons c name => exact hcol

lemma vfsResolve_text (h : Attached s cwd) (hrdy : (s.mount cwd.mount).diskReady = true)
    (hfst : ∀ name ∈ cwd.names.head?, name.head? ≠ some colon) : s.vfsResolve cwd (text cwd) = .ok cwd := by
  obtain ⟨rest, htext, hhead, -⟩ := text_cons cwd
  have hcom := componentsFrom_text_dentry h
  rw [htext] at hcom ⊢
  have hnot : rest.head? ≠ some colon := fun hcol => by
    obtain ⟨name, hname, hnil | hcol⟩ := hhead hcol
    · exact (h.names_proper name (List.mem_of_mem_head? hname)).1 hnil
    · exact hfst name hname hcol
  unfold Mounts.vfsResolve
  rw [start_slash s cwd hnot]
  dsimp only
  rw [hcom, walk_names h hrdy]
  exact if_pos hrdy

/-! ## What callers can rely on with paths -/

/-! ### `vfs_resolve_parent` -/

/-- What has happened when `vfs_resolve_parent` succeeds; `copy` is the path in one kind of separators. -/
structure Parted (s : Mounts) (cwd parent : Dentry) (path copy name : List UInt8) : Prop where
  resolve : s.vfsResolve cwd path = s.vfsResolve cwd copy
  separator : ∀ c ∈ copy, c ≠ slash → isSeparator c = false
  nonempty : copy ≠ []
  drive : ¬(copy.length = 2 ∧ copy[1]? = some colon)
  leaf : copy.drop (leafStart copy) ≠ []
  dot : copy.drop (leafStart copy) ≠ [dot]
  dots : copy.drop (leafStart copy) ≠ [PathText.dot, PathText.dot]
  found : s.vfsResolve cwd (parentPath copy (leafStart copy)) = .ok parent
  directory : (s.node parent).type = .directory
  name : (s.mount parent.mount).normalizeComponent (copy.drop (leafStart copy)) = .ok name

lemma vfsResolveParent_parted (h : s.vfsResolveParent cwd path = .ok (parent, name)) :
    ∃ copy, Parted s cwd parent path copy name := by
  unfold Mounts.vfsResolveParent at h
  dsimp only at h
  split_ifs at h with _ _ hcopy hleaf _
  split at h
  · cases h
  · rename_i found hfnd
    split_ifs at h with htype
    split at h
    · cases h
    · rename_i normalized hnorm
      cases h
      obtain ⟨n, hn⟩ := stripped_append (copyOf path)
      have hnemp : stripped (copyOf path) ≠ [] := fun hnil => hcopy (.inl (by rw [hnil]; rfl))
      refine ⟨stripped (copyOf path), ?_, fun c hc => copyOf_separator path ?_, hnemp, fun hdrv => hcopy (.inr hdrv),
        fun hnil => hleaf (.inl hnil), fun hdot => hleaf (.inr (.inl hdot)), fun hdots => hleaf (.inr (.inr hdots)), hfnd,
        Decidable.not_not.mp htype, hnorm⟩
      · rw [← vfsResolve_copyOf, hn, vfsResolve_slashes s cwd hnemp]
        rw [← hn]
      · rw [hn]
        exact List.mem_append_left _ hc

lemma leafStart_colon {rest : List UInt8} (h : slash ∉ rest) : leafStart (slash :: colon :: rest) = 1 := by
  have hrest : slash ∉ colon :: rest := fun hmem => by
    rcases List.mem_cons.mp hmem with heq | hmem
    · exact absurd heq (by decide)
    · exact h hmem
  exact leafFrom_append [] hrest 0 _

lemma vfsResolve_colon (s : Mounts) (cwd : Dentry) (rest : List UInt8) :
    s.vfsResolve cwd (slash :: colon :: rest) = .error .noEntry := by
  unfold Mounts.vfsResolve
  rw [start_drive, rootForDrive_separator (by decide)]

lemma vfsResolve_slash (s : Mounts) (cwd : Dentry) (hrdy : (s.mount cwd.mount).diskReady = true) :
    s.vfsResolve cwd [slash] = .ok (.root cwd.mount) := by
  unfold Mounts.vfsResolve
  rw [start_slash s cwd (by exact nofun)]
  exact if_pos hrdy

/-! ### The contract -/

/-- **The parsers and the printer agree.** What `vfs_resolve_parent` says of a path is what `vfs_resolve` finds there;
the real path of what a path leads to leads to it from everywhere, has the announced length, and is its own real path.
-/
structure Agree (s : Mounts) (cwd : Dentry) : Prop where
  parent : ∀ path parent name, s.vfsResolveParent cwd path = .ok (parent, name) → ∀ node,
    (∃ d, s.vfsResolve cwd path = .ok d ∧ s.node d = node ∧ d.mount = parent.mount) ↔ s.lookup parent name = .ok node
  realpath : ∀ path d, s.vfsResolve cwd path = .ok d → ∃ result, s.vfsRealpath cwd path = .ok result ∧
    dentryPathLength d true = .ok result.length ∧
    ∀ cwd', s.vfsResolve cwd' result = .ok d ∧ s.vfsRealpath cwd' result = .ok result
  getcwd : ∃ result, (∀ capacity, result.length < capacity → s.vfsContextGetcwd cwd capacity = .ok result) ∧
    s.vfsResolve cwd result = .ok cwd

/-- The working directory is in its place on a disk that is ready, no path is as long as `INT_MAX`, and no name behind
the first separator of a path without a drive begins with a colon. -/
structure InOrder (s : Mounts) (cwd : Dentry) : Prop where
  attached : Attached s cwd
  ready : (s.mount cwd.mount).diskReady = true
  fits : ∀ d, Attached s d → (s.mount d.mount).diskReady = true → (write d []).length ≤ intMax - 3
  entry : (s.mount cwd.mount).root.type = .directory → ∀ name node, Proper (s.mount cwd.mount) name → name.head? = some colon →
    2 ≤ name.length → s.lookup (.root cwd.mount) name ≠ .ok node
  first : ∀ name ∈ cwd.names.head?, name.head? ≠ some colon

lemma normalizeComponent_colon {m : Mount} {rest : List UInt8} (h : m.normalizeComponent (colon :: rest) = .ok name) :
    name.head? = some colon ∧ name.length = rest.length + 1 := by
  obtain rfl | ⟨-, rfl⟩ := normalizeComponent_eq h
  · exact ⟨rfl, rfl⟩
  · rw [List.length_map]
    exact ⟨congrArg some ((isoUpper_eq (by decide)).mpr rfl), rfl⟩

lemma InOrder.agrees (h : InOrder s cwd) (he : s.vfsResolveParent cwd path = .ok (parent, name)) (node : VfsNode) :
    (∃ d, s.vfsResolve cwd path = .ok d ∧ s.node d = node ∧ d.mount = parent.mount) ↔ s.lookup parent name = .ok node := by
  obtain ⟨copy, hpart⟩ := vfsResolveParent_parted he
  by_cases hcol : ∃ rest, slash ∉ rest ∧ copy = slash :: colon :: rest
  · -- neither side holds
    obtain ⟨rest, hslas, rfl⟩ := hcol
    have hpar := hpart.found
    have hname := hpart.name
    have hdir := hpart.directory
    have hlng : rest ≠ [] := fun hnil => hpart.drive (by rw [hnil]; exact ⟨rfl, rfl⟩)
    rw [leafStart_colon hslas] at hpar hname
    change s.vfsResolve cwd [slash] = .ok parent at hpar
    rw [vfsResolve_slash s cwd h.ready] at hpar
    cases hpar
    change (s.mount cwd.mount).normalizeComponent (colon :: rest) = .ok name at hname
    obtain ⟨hhead, hlen⟩ := normalizeComponent_colon hname
    have hpl : ∀ c ∈ colon :: rest, isSeparator c = false := fun c hc => by
      refine hpart.separator c (.tail _ hc) fun heq => ?_
      rcases List.mem_cons.mp hc with hfst | hmem
      · rw [heq] at hfst
        exact absurd hfst (by decide)
      · exact hslas (heq ▸ hmem)
    have hprop := normalizeComponent_proper hpl (fun heq => absurd (List.head_eq_of_cons_eq heq) (by decide))
      (fun heq => absurd (List.head_eq_of_cons_eq heq) (by decide)) hname
    have hnone := h.entry hdir name node hprop hhead (by
      have hpos := List.length_pos_of_ne_nil hlng
      omega)
    refine ⟨?_, fun hlook => absurd hlook hnone⟩
    rintro ⟨d, hd, -⟩
    rw [hpart.resolve, vfsResolve_colon] at hd
    cases hd
  · have hleaf := vfsResolve_leaf s cwd hpart.separator hpart.nonempty hpart.drive hpart.leaf
      fun rest hrest heq => hcol ⟨rest, hrest, heq⟩
    have hrdy := (vfsResolve_attached h.attached hpart.found).2
    rw [hpart.found] at hleaf
    have hstatus : (s.mount parent.mount).status (s.lookup parent name) = s.lookup parent name := if_pos hrdy
    rw [hpart.resolve, hleaf]
    dsimp only
    unfold Mounts.enter
    simp only [if_neg hpart.dot, if_neg hpart.dots, if_neg (Decidable.not_not.mpr hpart.directory), hpart.name, hstatus]
    cases s.lookup parent name with
    | error status =>
      refine ⟨?_, nofun⟩
      rintro ⟨d, hd, -⟩
      cases hd
    | ok found =>
      constructor
      · rintro ⟨d, hd, hnode, -⟩
        cases hd
        exact congrArg _ hnode
      · intro heq
        cases heq
        exact ⟨_, rfl, rfl, rfl⟩

lemma vfsRealpath_eq (hd : s.vfsResolve cwd path = .ok d) (hfits : (write d []).length ≤ intMax - 3) :
    s.vfsRealpath cwd path = .ok ((s.mount d.mount).drive :: colon :: text d) := by
  unfold Mounts.vfsRealpath
  rw [hd]
  dsimp only
  rw [dentryPathLength_eq, if_pos hfits]
  exact dentryPath_eq s d _ true hfits (Nat.lt_succ_self _)

lemma InOrder.realpath (h : InOrder s cwd) (hd : s.vfsResolve cwd path = .ok d) :
    ∃ result, s.vfsRealpath cwd path = .ok result ∧
    dentryPathLength d true = .ok result.length ∧
    ∀ cwd', s.vfsResolve cwd' result = .ok d ∧ s.vfsRealpath cwd' result = .ok result := by
  obtain ⟨hatt, hrdy⟩ := vfsResolve_attached h.attached hd
  have hfits := h.fits d hatt hrdy
  refine ⟨_, vfsRealpath_eq hd hfits, ?_, fun cwd' => ?_⟩
  · rw [dentryPathLength_eq, if_pos hfits]
    rfl
  · have hback := vfsResolve_path hatt hrdy cwd'
    exact ⟨hback, vfsRealpath_eq hback hfits⟩

lemma InOrder.getcwd (h : InOrder s cwd) : ∃ result,
    (∀ capacity, result.length < capacity → s.vfsContextGetcwd cwd capacity = .ok result) ∧
    s.vfsResolve cwd result = .ok cwd := by
  refine ⟨text cwd, fun capacity hcap => ?_, vfsResolve_text h.attached h.ready h.first⟩
  exact dentryPath_eq s cwd capacity false (h.fits cwd h.attached h.ready) hcap

lemma getcwd_text {result : List UInt8} (h : ∀ capacity, result.length < capacity →
    s.vfsContextGetcwd cwd capacity = .ok result) :
    result = text cwd := by
  have hres := h (result.length + (text cwd).length + 1) (by omega)
  unfold Mounts.vfsContextGetcwd at hres
  by_cases hfits : (write cwd []).length ≤ intMax - 3
  · have htext := dentryPath_eq s cwd (result.length + (text cwd).length + 1) false hfits (by
      change (text cwd).length + 0 < _
      omega)
    exact (Except.ok.inj (htext.symm.trans hres)).symm
  · unfold Mounts.dentryPath at hres
    rw [dentryPathLength_eq, if_neg hfits] at hres
    cases hres

lemma realpath_text {result : List UInt8} (hd : s.vfsResolve cwd path = .ok d) (h : s.vfsRealpath cwd path = .ok result) :
    (write d []).length ≤ intMax - 3 ∧ result = (s.mount d.mount).drive :: colon :: text d := by
  unfold Mounts.vfsRealpath at h
  rw [hd] at h
  dsimp only at h
  rw [dentryPathLength_eq] at h
  by_cases hfits : (write d []).length ≤ intMax - 3
  · rw [if_pos hfits] at h
    have hres := dentryPath_eq s d _ true hfits (Nat.lt_succ_self _)
    exact ⟨hfits, (Except.ok.inj (hres.symm.trans h)).symm⟩
  · rw [if_neg hfits] at h
    cases h

lemma Agree.inOrder (h : Agree s cwd) : InOrder s cwd := by
  obtain ⟨result, hget, hback⟩ := h.getcwd
  rw [getcwd_text hget] at hback
  obtain ⟨rest, htext, -, hhead⟩ := text_cons cwd
  rw [htext] at hback
  have hfst : ∀ name ∈ cwd.names.head?, name.head? ≠ some colon := by
    intro name hname hcol
    have hrest := hhead name hname hcol
    cases rest with
    | nil => cases hrest
    | cons c rest =>
      cases hrest
      rw [vfsResolve_colon] at hback
      cases hback
  -- the path without a drive starts at the root of the directory's own mount
  have hrdy : (s.mount cwd.mount).diskReady = true := by
    obtain ⟨current, cursor, hstar, hrdy, -⟩ := vfsResolve_cases hback
    have hnot : rest.head? ≠ some colon := fun hcol => by
      cases rest with
      | nil => cases hcol
      | cons c rest =>
        cases hcol
        rw [vfsResolve_colon] at hback
        cases hback
    rw [start_slash s cwd hnot] at hstar
    cases hstar
    exact hrdy
  have hhere : s.vfsResolve cwd [] = .ok cwd := if_pos hrdy
  obtain ⟨real, hreal, -, hret⟩ := h.realpath [] cwd hhere
  have hatt : Attached s cwd := by
    have hlead := (hret cwd).1
    rw [(realpath_text hhere hreal).2] at hlead
    exact (vfsResolve_drive_attached hlead).1
  refine ⟨hatt, hrdy, fun d hd hdisk => ?_, fun hdir name node hprop hcol hlng hlook => ?_, hfst⟩
  · have hlead := vfsResolve_path hd hdisk cwd
    obtain ⟨result, hres, -⟩ := h.realpath _ d hlead
    exact (realpath_text hlead hres).1
  · -- the name behind a separator
    obtain ⟨-, hshrt⟩ := normalizeComponent_length hprop.normal
    match name, hcol with
    | _ :: rest, rfl =>
      have hslas : slash ∉ rest := fun hmem => absurd (hprop.plain slash (.tail _ hmem)) (by decide)
      have hcopyOf : copyOf (slash :: colon :: rest) = slash :: colon :: rest := by
        refine (List.map_congr_left fun c hc => ?_).trans (List.map_id _)
        have hne : c ≠ backslash := fun heq => by
          rcases List.mem_cons.mp hc with rfl | hmem
          · exact absurd heq (by decide)
          · have hpl := hprop.plain c hmem
            rw [heq] at hpl
            exact absurd hpl (by decide)
        exact if_neg hne
      have hstr : stripped (slash :: colon :: rest) = slash :: colon :: rest := by
        obtain ⟨n, hn⟩ := stripped_append (slash :: colon :: rest)
        cases n with
        | zero => exact (hn.trans (List.append_nil _)).symm
        | succ n =>
          -- the last byte is no separator
          have hlast := congrArg List.getLast? hn
          rw [List.replicate_succ', ← List.append_assoc, List.getLast?_concat, List.getLast?_cons_cons] at hlast
          have hmem : slash ∈ colon :: rest := List.mem_of_getLast? hlast
          exact absurd (hprop.plain slash hmem) (by decide)
      have hpar : s.vfsResolveParent cwd (slash :: colon :: rest) = .ok (.root cwd.mount, colon :: rest) := by
        unfold Mounts.vfsResolveParent
        dsimp only
        rw [hcopyOf, hstr, leafStart_colon hslas, if_neg (List.cons_ne_nil _ _)]
        have hlong : ¬(slash :: colon :: rest).length ≥ intMax := by
          have hmax : intMax = 2147483647 := rfl
          simp only [List.length_cons] at hshrt ⊢
          omega
        have hdrv : ¬((slash :: colon :: rest).length = 0 ∨ (slash :: colon :: rest).length = 2 ∧
            (slash :: colon :: rest)[1]? = some colon) := by
          simp only [List.length_cons] at hlng ⊢
          omega
        have hleaf : ¬(colon :: rest = [] ∨ colon :: rest = [dot] ∨ colon :: rest = [dot, dot]) := by
          rintro (hnil | hdot | hdots)
          · exact hprop.nonempty hnil
          · exact hprop.dot hdot
          · exact hprop.dots hdots
        have hdrop : (slash :: colon :: rest).drop 1 = colon :: rest := rfl
        have hpath : parentPath (slash :: colon :: rest) 1 = [slash] := rfl
        have htype : (s.node (.root cwd.mount)).type = .directory := hdir
        rw [if_neg hlong, if_neg hdrv, hdrop, if_neg hleaf, if_neg (Nat.not_le.mpr hshrt), hpath, vfsResolve_slash s cwd hrdy]
        dsimp only
        rw [if_neg (Decidable.not_not.mpr htype)]
        dsimp only [Dentry.mount]
        rw [hprop.normal]
      obtain ⟨d, hd, -⟩ := (h.parent _ _ _ hpar node).mpr hlook
      rw [vfsResolve_colon] at hd
      cases hd

/-- **Paths agree exactly when the working directory is in order.** -/
theorem paths_agree (s : Mounts) (cwd : Dentry) : Agree s cwd ↔ InOrder s cwd :=
  ⟨Agree.inOrder, fun h => ⟨fun _ _ _ he => h.agrees he, fun _ _ => h.realpath, h.getcwd⟩⟩

/-- A directory `:x` in the root of a PFS volume that is mounted as `A:` -/
def colonMounts : Mounts where
  mount _ := ⟨true, 65, true, .pfs, ⟨.ofWords 1 0 0 0, .directory, 0⟩, fun _ name =>
    if name = [colon, 120] then .ok ⟨.ofWords 1 7 0 0, .directory, 0⟩ else .error .noEntry⟩
  table := [0]

/-- **A separator before a colon**: `vfs_resolve_parent` finds `:x` in the root, and `vfs_resolve` looks for a drive
`/`. -/
theorem colon_is_a_drive : Attached colonMounts (.root 0) ∧ ¬Agree colonMounts (.root 0) := by
  refine ⟨by rfl, fun hagree => ?_⟩
  have hparent : colonMounts.vfsResolveParent (.root 0) [slash, colon, 120] = .ok (.root 0, [colon, 120]) := by rfl
  obtain ⟨d, hd, -⟩ := (hagree.parent _ _ _ hparent ⟨.ofWords 1 7 0 0, .directory, 0⟩).mpr rfl
  cases hd

end PlantOS.Vfs.PathText

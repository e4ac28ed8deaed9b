import PlantOS.Libp.Condition

/-!
# Read-write locks

`rwlock_acquire` and `pthread_rwlock_unlock`: one lock, any number of threads. A step is what a thread does while it
has the mutex of the lock: up to its wait, or up to the end of the call.
-/

namespace PlantOS.Libp.Rwlock

open Lib Mutex Condition
open Function (update update_of_ne update_self)

inductive Pc
  | idle
  /-- in `pthread_cond_wait` -/
  | blocked (write : Bool)
  /-- released from it, and before its next test -/
  | woken (write : Bool)
  deriving DecidableEq, Repr

structure LockState where
  readers : ℕ
  writers : ℕ
  writing : Bool
  pc : ℕ → Pc
  /-- what the last call of a thread has returned -/
  outcome : ℕ → Option Errno
  /-- the locks that have succeeded and are not unlocked, by their threads, and the threads that wait to write; no
  code reads them -/
  readHolders : List ℕ
  writeHolders : List ℕ
  wants : List ℕ

namespace LockState

variable (s : LockState)

def returns (t : ℕ) (outcome : Errno) : LockState :=
  { s with pc := update s.pc t .idle, outcome := update s.outcome t (some outcome) }

/-- The test of the loop in `rwlock_acquire` -/
def busy (write : Bool) : Bool := s.writing || (if write then s.readers != 0 else s.writers != 0)

/-- `writers++` -/
def want (t : ℕ) (write : Bool) : LockState :=
  if write then { s with writers := (s.writers + 1) % 2 ^ 32, wants := t :: s.wants } else s

/-- `writers--` -/
def unwant (t : ℕ) (write : Bool) : LockState :=
  if write then { s with writers := (s.writers + 2 ^ 32 - 1) % 2 ^ 32, wants := s.wants.erase t } else s

def take (t : ℕ) (write : Bool) : LockState :=
  if write then { s with writing := true, writeHolders := t :: s.writeHolders }
  else { s with readers := (s.readers + 1) % 2 ^ 32, readHolders := t :: s.readHolders }

/-- The loop of `rwlock_acquire`, from a test to the wait or to the end -/
def loop (t : ℕ) (write tries : Bool) : LockState :=
  if s.busy write then
    if tries then (s.unwant t write).returns t .ebusy else { s with pc := update s.pc t (.blocked write) }
  else ((s.unwant t write).take t write).returns t .ok

/-- `pthread_cond_broadcast` -/
def wakeAll : LockState :=
  { s with
    pc := fun t =>
      match s.pc t with
      | .blocked write => .woken write
      | pc => pc }

/-- `pthread_rwlock_unlock` -/
def unlock (t : ℕ) : LockState :=
  if s.writing then ({ s with writing := false, writeHolders := s.writeHolders.erase t }).wakeAll.returns t .ok
  else if s.readers ≠ 0 then
    ({ s with readers := s.readers - 1, readHolders := s.readHolders.erase t }).wakeAll.returns t .ok
  else s.wakeAll.returns t .eperm

def Holds (t : ℕ) : Prop := t ∈ s.readHolders ∨ t ∈ s.writeHolders

instance (t : ℕ) : Decidable (s.Holds t) := inferInstanceAs (Decidable (_ ∨ _))

def Free (t : ℕ) : Prop := s.pc t = .idle ∧ 0 < t ∧ t ≤ intMax

instance (t : ℕ) : Decidable (s.Free t) := inferInstanceAs (Decidable (_ ∧ _ ∧ _))

end LockState

inductive Event
  /-- `rwlock_acquire`; a call that only tries may find the mutex taken -/
  | acquire (t : ℕ) (write tries mutexBusy : Bool)
  /-- a thread that has been released tests again -/
  | again (t : ℕ)
  /-- a wait returns for no reason -/
  | spurious (t : ℕ)
  /-- a thread unlocks what it has -/
  | unlock (t : ℕ)

def LockState.step (s : LockState) : Event → Option LockState
  | .acquire t write tries mutexBusy =>
    if ¬s.Free t then none
    else if tries ∧ mutexBusy then some (s.returns t .ebusy)
    else some ((s.want t write).loop t write tries)
  | .again t =>
    match s.pc t with
    | .woken write => some (s.loop t write false)
    | _ => none
  | .spurious t =>
    match s.pc t with
    | .blocked write => some { s with pc := update s.pc t (.woken write) }
    | _ => none
  | .unlock t => if s.Free t ∧ s.Holds t then some (s.unlock t) else none

/-- `pthread_rwlock_init` -/
def sys : System LockState Event where
  init s := (s.readers = 0 ∧ s.writers = 0 ∧ s.writing = false) ∧ (∀ t, s.pc t = .idle) ∧
    s.readHolders = [] ∧ s.writeHolders = [] ∧ s.wants = []
  step := LockState.step

def Few (s : LockState) : Event → Prop
  | .acquire _ false _ _ => s.busy false = false → s.readHolders.length < 2 ^ 32 - 1
  | .again t => s.pc t = .woken false → s.busy false = false → s.readHolders.length < 2 ^ 32 - 1
  | _ => True

instance (s : LockState) : (e : Event) → Decidable (Few s e)
  | .acquire _ false _ _ => inferInstanceAs (Decidable (_ → _))
  | .again _ => inferInstanceAs (Decidable (_ → _ → _))
  | .acquire _ true _ _ | .spurious _ | .unlock _ => isTrue trivial

/-! ### The invariant -/

structure Inv (s : LockState) : Prop where
  readers : s.readers = s.readHolders.length
  bound : s.readHolders.length < 2 ^ 32
  writing : s.writing = true ↔ s.writeHolders ≠ []
  one : s.writeHolders.length ≤ 1
  exclusive : s.writeHolders ≠ [] → s.readHolders = []
  writers : s.writers = s.wants.length
  nodup : s.wants.Nodup
  wants : ∀ t, t ∈ s.wants ↔ s.pc t = .blocked true ∨ s.pc t = .woken true
  ids : ∀ t, s.pc t ≠ .idle → 0 < t ∧ t ≤ intMax
  /-- what a blocked thread waits for -/
  reason : ∀ t write, s.pc t = .blocked write →
    s.writeHolders ≠ [] ∨ (if write then s.readHolders ≠ [] else s.wants ≠ [])

variable {s s' : LockState} {t : ℕ}

lemma Inv.busy_iff (h : Inv s) (write : Bool) :
    s.busy write = true ↔ s.writeHolders ≠ [] ∨ (if write then s.readHolders ≠ [] else s.wants ≠ []) := by
  unfold LockState.busy
  rw [Bool.or_eq_true, h.writing]
  refine or_congr_right ?_
  cases write with
  | true =>
    rw [if_pos rfl, if_pos rfl, bne_iff_ne, h.readers, Ne, List.length_eq_zero_iff]
  | false =>
    rw [if_neg nofun, if_neg nofun, bne_iff_ne, h.writers, Ne, List.length_eq_zero_iff]

lemma Inv.wants_le (h : Inv s) : s.wants.length ≤ intMax :=
  length_le_of_ids h.nodup fun u hu => h.ids u fun hidle => by
    rcases (h.wants u).mp hu with hpc | hpc <;> cases hidle.symm.trans hpc

lemma waits_update {pc : ℕ → Pc} {q : Pc} (h : pc t = .blocked true ∨ pc t = .woken true ↔ q = .blocked true ∨ q = .woken true)
    (u : ℕ) : pc u = .blocked true ∨ pc u = .woken true ↔ update pc t q u = .blocked true ∨ update pc t q u = .woken true := by
  by_cases heq : u = t
  · rw [heq, update_self]
    exact h
  · rw [update_of_ne heq]

lemma Inv.ids_update (h : Inv s) {q : Pc} (hids : q ≠ .idle → 0 < t ∧ t ≤ intMax) (u : ℕ) (hu : update s.pc t q u ≠ .idle) :
    0 < u ∧ u ≤ intMax := by
  by_cases heq : u = t
  · rw [heq, update_self] at hu
    exact heq ▸ hids hu
  · exact h.ids u fun hout => hu ((update_of_ne heq ..).trans hout)

lemma Inv.want (h : Inv s) (hfree : s.Free t) (write : Bool) :
    Inv { s.want t write with pc := update s.pc t (.woken write) } := by
  obtain ⟨hidle, hids⟩ := hfree
  have hnot : t ∉ s.wants := fun hmem => by
    rcases (h.wants t).mp hmem with hpc | hpc <;> cases hidle.symm.trans hpc
  have hthrs := h.ids_update (q := .woken write) fun _ => hids
  have hblk : ∀ u w, update s.pc t (.woken write) u = .blocked w → s.pc u = .blocked w := fun u w hu => by
    rcases update_cases hu with ⟨-, ⟨⟩⟩ | ⟨-, hu⟩
    exact hu
  cases write with
  | true =>
    have hlen := h.wants_le
    have hmax : intMax = 0x7fffffff := rfl
    have hwtrs := h.writers
    refine ⟨h.readers, h.bound, h.writing, h.one, h.exclusive, ?_, List.nodup_cons.mpr ⟨hnot, h.nodup⟩, fun u => ?_, hthrs,
      fun u w hu => ?_⟩
    · change (s.writers + 1) % 2 ^ 32 = (t :: s.wants).length
      rw [List.length_cons]
      omega
    · exact mem_cons_update (fun p => p = Pc.blocked true ∨ p = Pc.woken true) (h.wants u) (.inr rfl)
    · refine (h.reason u w (hblk u w hu)).imp_right fun hreas => ?_
      cases w with
      | true => exact hreas
      | false => exact List.cons_ne_nil t s.wants
  | false =>
    refine { h with wants := fun u => ?_, ids := hthrs, reason := fun u w hu => h.reason u w (hblk u w hu) }
    exact (h.wants u).trans (waits_update (by simp [hidle]) u)

lemma Inv.blocks (h : Inv s) {write : Bool} (hpc : s.pc t = .woken write) (hbusy : s.busy write = true) :
    Inv { s with pc := update s.pc t (.blocked write) } := by
  refine { h with
    wants := fun u => (h.wants u).trans (waits_update (by cases write <;> simp [hpc]) u)
    ids := h.ids_update fun _ => h.ids t (by rw [hpc]; nofun), reason := fun u w hu => ?_ }
  rcases update_cases hu with ⟨-, ⟨⟩⟩ | ⟨-, hu⟩
  · exact (h.busy_iff write).mp hbusy
  · exact h.reason u w hu

lemma blocked_of_leaves {pc : ℕ → Pc} {u : ℕ} {w : Bool} (hu : update pc t .idle u = .blocked w) : pc u = .blocked w := by
  rcases update_cases hu with ⟨-, ⟨⟩⟩ | ⟨-, hu⟩
  exact hu

lemma Inv.takeWrite (h : Inv s) (hpc : s.pc t = .woken true) (hfree : s.busy true = false) :
    Inv (((s.unwant t true).take t true).returns t .ok) := by
  have hnot := fun hor => Bool.eq_false_iff.mp hfree ((h.busy_iff true).mpr hor)
  have hwr : s.writeHolders = [] := Decidable.not_not.mp fun hne => hnot (.inl hne)
  have hread : s.readHolders = [] := Decidable.not_not.mp fun hne => hnot (.inr hne)
  have hmem : t ∈ s.wants := (h.wants t).mpr (.inr hpc)
  have hpos := List.length_pos_of_mem hmem
  have hlen := h.wants_le
  have hmax : intMax = 0x7fffffff := rfl
  have hwtrs := h.writers
  unfold LockState.unwant LockState.take LockState.returns
  rw [if_pos rfl, if_pos rfl]
  refine ⟨h.readers, h.bound, ⟨fun _ => List.cons_ne_nil t s.writeHolders, fun _ => rfl⟩, ?_, fun _ => hread, ?_,
    h.nodup.erase t, fun u => ?_, h.ids_update (absurd rfl), fun u w hu => .inl (List.cons_ne_nil t s.writeHolders)⟩
  · change (t :: s.writeHolders).length ≤ 1
    rw [hwr]
    exact Nat.le_refl 1
  · dsimp only
    rw [List.length_erase_of_mem hmem]
    omega
  · refine mem_erase_update (fun p => p = Pc.blocked true ∨ p = Pc.woken true) h.nodup (h.wants u) ?_
    rintro (hcase | hcase) <;> cases hcase

lemma Inv.takeRead (h : Inv s) (hpc : s.pc t = .woken false) (hfree : s.busy false = false)
    (hroom : s.readHolders.length < 2 ^ 32 - 1) : Inv (((s.unwant t false).take t false).returns t .ok) := by
  have hnot := fun hor => Bool.eq_false_iff.mp hfree ((h.busy_iff false).mpr hor)
  have hwr : s.writeHolders = [] := Decidable.not_not.mp fun hne => hnot (.inl hne)
  have hrdrs := h.readers
  refine ⟨?_, ?_, h.writing, h.one, fun hne => absurd hwr hne, h.writers, h.nodup, fun u => ?_, h.ids_update (absurd rfl),
    fun u w hu => ?_⟩
  · change (s.readers + 1) % 2 ^ 32 = (t :: s.readHolders).length
    rw [List.length_cons]
    omega
  · change (t :: s.readHolders).length < 2 ^ 32
    rw [List.length_cons]
    omega
  · change u ∈ s.wants ↔ update s.pc t .idle u = _ ∨ update s.pc t .idle u = _
    exact (h.wants u).trans (waits_update (by simp [hpc]) u)
  · refine .inr ?_
    cases w with
    | true => exact List.cons_ne_nil t s.readHolders
    | false => exact absurd (h.reason u false (blocked_of_leaves hu)) hnot

lemma Inv.loop (h : Inv s) {write : Bool} (hpc : s.pc t = .woken write)
    (hfew : write = false → s.busy false = false → s.readHolders.length < 2 ^ 32 - 1) : Inv (s.loop t write false) := by
  unfold LockState.loop
  split_ifs with hbusy htries
  · cases htries
  · exact h.blocks hpc hbusy
  · have hfree := Bool.eq_false_iff.mpr hbusy
    cases write with
    | true => exact h.takeWrite hpc hfree
    | false => exact h.takeRead hpc hfree (hfew rfl hfree)

/-- **Everybody who waits tests again**, whatever has been unlocked. -/
lemma Inv.wakeAll (h : Inv s) {readers : ℕ} {writing : Bool} {readHolders writeHolders : List ℕ}
    (hrdrs : readers = readHolders.length) (hbd : readHolders.length < 2 ^ 32) (hwrit : writing = true ↔ writeHolders ≠ [])
    (hone : writeHolders.length ≤ 1) (hexcl : writeHolders ≠ [] → readHolders = []) :
    Inv ({ s with readers, writing, readHolders, writeHolders }).wakeAll := by
  have hpc : ∀ u, (s.wakeAll.pc u = s.pc u ∧ ∀ w, s.pc u ≠ .blocked w) ∨
      ∃ w, s.pc u = .blocked w ∧ s.wakeAll.pc u = .woken w := fun u => by
    unfold LockState.wakeAll
    dsimp only
    split
    · rename_i w hw
      exact .inr ⟨w, hw, rfl⟩
    · rename_i hw
      exact .inl ⟨rfl, hw⟩
  refine ⟨hrdrs, hbd, hwrit, hone, hexcl, h.writers, h.nodup, fun u => ?_, fun u hu => ?_, fun u w hu => ?_⟩
  · change u ∈ s.wants ↔ s.wakeAll.pc u = _ ∨ s.wakeAll.pc u = _
    rw [h.wants u]
    rcases hpc u with ⟨hsame, -⟩ | ⟨w, hw, hto⟩
    · rw [hsame]
    · rw [hw, hto]
      cases w with
      | true => exact ⟨fun _ => .inr rfl, fun _ => .inl rfl⟩
      | false =>
        constructor
        · rintro (hcase | hcase) <;> cases hcase
        · rintro (hcase | hcase) <;> cases hcase
  · rcases hpc u with ⟨hsame, -⟩ | ⟨w, hw, -⟩
    · exact h.ids u (hsame ▸ hu)
    · exact h.ids u (by rw [hw]; nofun)
  · rcases hpc u with ⟨hsame, hnev⟩ | ⟨w', -, hto⟩
    · exact absurd (hsame.symm.trans hu) (hnev w)
    · cases hto.symm.trans hu

/-! ### The code -/

lemma Inv.returns (h : Inv s) (hidle : s.pc t = .idle) (outcome : Errno) : Inv (s.returns t outcome) := by
  have hpc : update s.pc t .idle = s.pc := by
    rw [← hidle, Function.update_eq_self]
  unfold LockState.returns
  rw [hpc]
  exact { h with }

lemma loop_pc (s : LockState) (t : ℕ) (pc : Pc) (write tries : Bool) :
    LockState.loop { s with pc := update s.pc t pc } t write tries = s.loop t write tries := by
  have hbusy : LockState.busy { s with pc := update s.pc t pc } write = s.busy write := rfl
  unfold LockState.loop
  rw [hbusy]
  cases write <;> cases tries <;>
    simp only [LockState.unwant, LockState.take, LockState.returns, Function.update_idem, if_true, Bool.false_eq_true, if_false]

lemma want_busy (s : LockState) (t : ℕ) (write : Bool) : (s.want t write).busy write = s.busy write := by
  cases write <;> rfl

lemma Inv.want_unwant (h : Inv s) (write : Bool) : (s.want t write).unwant t write = s := by
  cases write with
  | false => rfl
  | true =>
    have hlen := h.wants_le
    have hmax : intMax = 0x7fffffff := rfl
    have hwtrs := h.writers
    have hcnt : ((s.writers + 1) % 2 ^ 32 + 2 ^ 32 - 1) % 2 ^ 32 = s.writers := by omega
    unfold LockState.unwant LockState.want
    simp only [if_true, hcnt, List.erase_cons_head]

lemma Inv.acquire (h : Inv s) (hfree : s.Free t) {write : Bool} (tries : Bool)
    (hfew : write = false → s.busy false = false → s.readHolders.length < 2 ^ 32 - 1) :
    Inv ((s.want t write).loop t write tries) := by
  have hloop : Inv ((s.want t write).loop t write false) := by
    have hwant : Inv { s.want t write with pc := update (s.want t write).pc t (.woken write) } := by
      have hpc : (s.want t write).pc = s.pc := by cases write <;> rfl
      rw [hpc]
      exact h.want hfree write
    rw [← loop_pc _ t (.woken write)]
    refine hwant.loop (update_self ..) fun hread hbusy => ?_
    subst hread
    exact hfew rfl hbusy
  cases tries with
  | false => exact hloop
  | true =>
    unfold LockState.loop at hloop ⊢
    by_cases hbusy : (s.want t write).busy write = true
    · rw [if_pos hbusy, if_pos rfl, h.want_unwant write]
      exact h.returns hfree.1 .ebusy
    · rw [if_neg hbusy] at hloop ⊢
      exact hloop

/-- **`pthread_rwlock_unlock`**: everybody who waits tests again. -/
lemma Inv.unlock (h : Inv s) (hidle : s.pc t = .idle) (hhol : s.Holds t) :
    Inv (s.unlock t) ∧ ∀ u write, (s.unlock t).pc u ≠ .blocked write := by
  have hwok : ∀ u write, s.wakeAll.pc u ≠ .blocked write := fun u write heq => by
    unfold LockState.wakeAll at heq
    dsimp only at heq
    split at heq
    · cases heq
    · rename_i hnev
      exact hnev write heq
  have hsty : s.wakeAll.pc t = .idle := by
    unfold LockState.wakeAll
    dsimp only
    rw [hidle]
  have hnob : ∀ u write, update s.wakeAll.pc t .idle u ≠ .blocked write := fun u write heq =>
    hwok u write (blocked_of_leaves heq)
  have hrdrs := h.readers
  have hbd := h.bound
  have hone := h.one
  unfold LockState.unlock
  split_ifs with hwrit hcnt
  · -- the writer
    have hnil := h.exclusive (h.writing.mp hwrit)
    have hmem : t ∈ s.writeHolders := hhol.resolve_left (by rw [hnil]; exact List.not_mem_nil)
    have hemp : s.writeHolders.erase t = [] := List.length_eq_zero_iff.mp (by
      rw [List.length_erase_of_mem hmem]
      omega)
    have hwake : Inv ({ s with writing := false, writeHolders := s.writeHolders.erase t }).wakeAll := by
      refine h.wakeAll hrdrs hbd ?_ ?_ fun hne => absurd hemp hne
      · rw [hemp]
        exact ⟨nofun, fun hne => absurd rfl hne⟩
      · rw [hemp]
        exact Nat.zero_le 1
    exact ⟨hwake.returns hsty .ok, hnob⟩
  · -- a reader
    have hwr : s.writeHolders = [] := Decidable.not_not.mp (mt h.writing.mpr hwrit)
    have hmem : t ∈ s.readHolders := hhol.resolve_right (by rw [hwr]; exact List.not_mem_nil)
    have hlen := List.length_erase_of_mem hmem
    have hwake : Inv ({ s with readers := s.readers - 1, readHolders := s.readHolders.erase t }).wakeAll := by
      refine h.wakeAll ?_ ?_ h.writing hone fun hne => absurd hwr hne
      · rw [hlen, hrdrs]
      · rw [hlen]
        omega
    exact ⟨hwake.returns hsty .ok, hnob⟩
  · -- nobody has the lock
    have hwr : s.writeHolders = [] := Decidable.not_not.mp (mt h.writing.mpr hwrit)
    have hread : s.readHolders = [] := List.length_eq_zero_iff.mp (hrdrs.symm.trans (Decidable.not_not.mp hcnt))
    unfold LockState.Holds at hhol
    rw [hwr, hread] at hhol
    rcases hhol with hmem | hmem <;> cases hmem

lemma Inv.spurious (h : Inv s) {write : Bool} (hpc : s.pc t = .blocked write) :
    Inv { s with pc := update s.pc t (.woken write) } := by
  refine { h with
    wants := fun u => (h.wants u).trans (waits_update (by cases write <;> simp [hpc]) u)
    ids := h.ids_update fun _ => h.ids t (by rw [hpc]; nofun), reason := fun u w hu => ?_ }
  rcases update_cases hu with ⟨-, ⟨⟩⟩ | ⟨-, hu⟩
  exact h.reason u w hu

/-- **What one step preserves.** -/
theorem Inv.step (h : Inv s) {e : Event} (hfew : Few s e) (he : s.step e = some s') : Inv s' := by
  cases e with
  | acquire t write tries mutexBusy =>
    simp only [LockState.step] at he
    split_ifs at he with hfree hbusy
    · cases he
      exact h.returns hfree.1 .ebusy
    · cases he
      refine h.acquire hfree tries fun hread => ?_
      subst hread
      exact hfew
  | again t =>
    simp only [LockState.step] at he
    split at he
    · rename_i write hpc
      cases he
      refine h.loop hpc fun hread => ?_
      subst hread
      exact hfew hpc
    · cases he
  | spurious t =>
    simp only [LockState.step] at he
    split at he
    · rename_i write hpc
      cases he
      exact h.spurious hpc
    · cases he
  | unlock t =>
    simp only [LockState.step, Option.ite_none_right_eq_some] at he
    obtain ⟨⟨hfree, hhol⟩, he⟩ := he
    cases he
    exact (h.unlock hfree.1 hhol).1

lemma guarded_inv (h : sys.Guarded Few s) : Inv s := by
  refine h.invariant (fun s hs => ?_) fun _ _ _ hinv hfew he => hinv.step hfew he
  obtain ⟨⟨hrdrs, hwtrs, hwrit⟩, hidle, hread, hwr, hwan⟩ := hs
  refine ⟨by rw [hrdrs, hread]; rfl, by rw [hread]; exact Nat.two_pow_pos 32, ?_, by rw [hwr]; exact Nat.zero_le 1,
    fun hne => absurd hwr hne, by rw [hwtrs, hwan]; rfl, by rw [hwan]; exact List.nodup_nil, fun t => ?_,
    fun t ht => absurd (hidle t) ht, fun t w ht => ?_⟩
  · rw [hwrit, hwr]
    exact ⟨nofun, fun hne => absurd rfl hne⟩
  · rw [hwan, hidle t]
    exact ⟨nofun, by rintro (hcase | hcase) <;> cases hcase⟩
  · cases (hidle t).symm.trans ht

lemma Inv.next_writer (h : Inv s) (hread : s.readHolders = []) (hwr : s.writeHolders = []) :
    (∀ t write, s.pc t = .blocked write → write = false ∧ ∃ u, s.pc u = .woken true) ∧
      ∀ u, s.pc u = .woken true → ∃ s', s.step (.again u) = some s' ∧ u ∈ s'.writeHolders := by
  have hnev : ∀ t, s.pc t ≠ .blocked true := fun t hpc => by
    rcases h.reason t true hpc with hne | hne
    · exact hne hwr
    · exact hne hread
  refine ⟨fun t write hpc => ?_, fun u hpc => ?_⟩
  · cases write with
    | true => exact absurd hpc (hnev t)
    | false =>
      have hne := (h.reason t false hpc).resolve_left fun hne => hne hwr
      obtain ⟨u, hu⟩ := List.exists_mem_of_ne_nil _ hne
      exact ⟨rfl, u, ((h.wants u).mp hu).resolve_left (hnev u)⟩
  · have hfree : s.busy true = false := Bool.eq_false_iff.mpr fun hbusy => by
      rcases (h.busy_iff true).mp hbusy with hne | hne
      · exact hne hwr
      · exact hne hread
    refine ⟨s.loop u true false, ?_, ?_⟩
    · simp only [LockState.step]
      rw [hpc]
    · unfold LockState.loop
      rw [hfree, if_neg nofun]
      exact List.mem_cons_self

/-! ### What a call returns -/

/-- In this step a thread gets the lock exactly if its call ends with 0. -/
def Takes (s s' : LockState) (t : ℕ) (write : Bool) : Prop :=
  if s'.pc t = .idle ∧ s'.outcome t = some .ok then
    if write then s'.writeHolders = t :: s.writeHolders ∧ s'.readHolders = s.readHolders
    else s'.readHolders = t :: s.readHolders ∧ s'.writeHolders = s.writeHolders
  else s'.readHolders = s.readHolders ∧ s'.writeHolders = s.writeHolders

lemma want_holders (s : LockState) (t : ℕ) (write : Bool) :
    (s.want t write).readHolders = s.readHolders ∧ (s.want t write).writeHolders = s.writeHolders := by
  unfold LockState.want
  split_ifs <;> exact ⟨rfl, rfl⟩

lemma unwant_holders (s : LockState) (t : ℕ) (write : Bool) :
    (s.unwant t write).readHolders = s.readHolders ∧ (s.unwant t write).writeHolders = s.writeHolders := by
  unfold LockState.unwant
  split_ifs <;> exact ⟨rfl, rfl⟩

lemma takes_fails (hread : s'.readHolders = s.readHolders) (hwr : s'.writeHolders = s.writeHolders) (write : Bool) :
    Takes s (s'.returns t .ebusy) t write := by
  unfold Takes
  rw [if_neg fun hboth => ?_]
  · exact ⟨hread, hwr⟩
  · have hout : (s'.returns t .ebusy).outcome t = some .ebusy := update_self ..
    cases hout.symm.trans hboth.2

lemma loop_takes (hread : s'.readHolders = s.readHolders) (hwr : s'.writeHolders = s.writeHolders) (write tries : Bool) :
    Takes s (s'.loop t write tries) t write := by
  unfold LockState.loop
  split_ifs
  · obtain ⟨hread', hwr'⟩ := unwant_holders s' t write
    exact takes_fails (hread'.trans hread) (hwr'.trans hwr) write
  · unfold Takes
    rw [if_neg fun hboth => ?_]
    · exact ⟨hread, hwr⟩
    · cases (update_self ..).symm.trans hboth.1
  · have hidle : (((s'.unwant t write).take t write).returns t .ok).pc t = .idle := update_self ..
    have hout : (((s'.unwant t write).take t write).returns t .ok).outcome t = some .ok := update_self ..
    obtain ⟨hread', hwr'⟩ := unwant_holders s' t write
    unfold Takes
    rw [if_pos ⟨hidle, hout⟩]
    unfold LockState.take
    split_ifs
    · exact ⟨congrArg (t :: ·) (hwr'.trans hwr), hread'.trans hread⟩
    · exact ⟨congrArg (t :: ·) (hread'.trans hread), hwr'.trans hwr⟩

lemma acquire_takes {write tries mutexBusy : Bool} (he : s.step (.acquire t write tries mutexBusy) = some s') :
    Takes s s' t write := by
  simp only [LockState.step] at he
  split_ifs at he
  · cases he
    exact takes_fails rfl rfl write
  · cases he
    obtain ⟨hread, hwr⟩ := want_holders s t write
    exact loop_takes hread hwr write tries

lemma again_takes {write : Bool} (hpc : s.pc t = .woken write) (he : s.step (.again t) = some s') : Takes s s' t write := by
  simp only [LockState.step] at he
  rw [hpc] at he
  cases he
  exact loop_takes rfl rfl write false

lemma Inv.gives (h : Inv s) (he : s.step (.unlock t) = some s') : s'.outcome t = some .ok ∧
    (s'.readHolders, s'.writeHolders) = if t ∈ s.writeHolders then (s.readHolders, s.writeHolders.erase t)
      else (s.readHolders.erase t, s.writeHolders) := by
  simp only [LockState.step, Option.ite_none_right_eq_some] at he
  obtain ⟨⟨-, hhol⟩, he⟩ := he
  cases he
  unfold LockState.unlock
  split_ifs with hwrit hmem hcnt hmem hmem
  · exact ⟨update_self .., rfl⟩
  · have hnil := h.exclusive (h.writing.mp hwrit)
    refine absurd (hhol.resolve_left ?_) hmem
    rw [hnil]
    exact List.not_mem_nil
  · exact absurd (h.writing.mpr (List.ne_nil_of_mem hmem)) hwrit
  · exact ⟨update_self .., rfl⟩
  · exact absurd (h.writing.mpr (List.ne_nil_of_mem hmem)) hwrit
  · have hread : s.readHolders = [] := List.length_eq_zero_iff.mp (h.readers.symm.trans (Decidable.not_not.mp hcnt))
    refine absurd (hhol.resolve_right hmem) ?_
    rw [hread]
    exact List.not_mem_nil

/-! ### 2^32 readers -/

def fresh : LockState := ⟨0, 0, false, fun _ => .idle, fun _ => none, [], [], []⟩

lemma fresh_init : sys.init fresh := ⟨⟨rfl, rfl, rfl⟩, fun _ => rfl, rfl, rfl, rfl⟩

/-- A lock that readers have, or nobody, while no thread waits -/
def ReadLocked (s : LockState) (n : ℕ) : Prop :=
  (s.readers = n % 2 ^ 32 ∧ s.writers = 0 ∧ s.writing = false) ∧ (∀ t, s.pc t = .idle) ∧ s.readHolders.length = n

lemma ReadLocked.acquire {n : ℕ} (h : ReadLocked s n) :
    ∃ s', sys.step s (.acquire 1 false false false) = some s' ∧ ReadLocked s' (n + 1) := by
  obtain ⟨⟨hrdrs, hwtrs, hwrit⟩, hidle, hlen⟩ := h
  have hfree : s.Free 1 := ⟨hidle 1, Nat.one_pos, by decide⟩
  have hbusy : s.busy false = false := by
    unfold LockState.busy
    rw [hwrit, hwtrs]
    rfl
  refine ⟨(s.take 1 false).returns 1 .ok, ?_, ⟨?_, hwtrs, hwrit⟩, fun t => ?_, congrArg Nat.succ hlen⟩
  · simp only [sys, LockState.step]
    rw [if_neg (not_not_intro hfree), if_neg (fun hboth => nomatch hboth.1)]
    have hwant : s.want 1 false = s := rfl
    rw [hwant]
    unfold LockState.loop
    rw [hbusy, if_neg nofun]
    rfl
  · unfold LockState.take LockState.returns
    rw [if_neg nofun]
    dsimp only
    omega
  · unfold LockState.take LockState.returns
    rw [if_neg nofun]
    dsimp only
    by_cases heq : t = 1
    · rw [heq, update_self]
    · rw [update_of_ne heq]
      exact hidle t

lemma readLocked_reachable (n : ℕ) : ∃ s, sys.Reachable s ∧ ReadLocked s n := by
  induction n with
  | zero => exact ⟨fresh, .init fresh_init, ⟨rfl, rfl, rfl⟩, fun _ => rfl, rfl⟩
  | succ n ih =>
    obtain ⟨s, hs, hlock⟩ := ih
    obtain ⟨s', he, hlock'⟩ := hlock.acquire
    exact ⟨s', .step hs trivial he, hlock'⟩

/-- **2^32 read locks are counted as none**: a writer takes the lock beside them. -/
theorem readers_wrap : ¬∀ s, sys.Reachable s → s.writeHolders ≠ [] → s.readHolders = [] := by
  intro hclaim
  obtain ⟨s, hs, ⟨hreaders, hwriters, hwriting⟩, hidle, hlen⟩ := readLocked_reachable (2 ^ 32)
  rw [Nat.mod_self] at hreaders
  have hfree : s.Free 2 := ⟨hidle 2, Nat.two_pos, by decide⟩
  have hbusy : (s.want 2 true).busy true = false := by
    rw [want_busy]
    unfold LockState.busy
    rw [hwriting, hreaders]
    rfl
  have he : sys.step s (.acquire 2 true false false) =
      some ((((s.want 2 true).unwant 2 true).take 2 true).returns 2 .ok) := by
    simp only [sys, LockState.step]
    rw [if_neg (not_not_intro hfree), if_neg (fun hboth => nomatch hboth.1)]
    unfold LockState.loop
    rw [hbusy, if_neg nofun]
  have hreached := hclaim _ (.step hs trivial he)
  simp only [LockState.want, LockState.unwant, LockState.take, LockState.returns, if_true] at hreached
  rw [hreached (List.cons_ne_nil 2 _), List.length_nil] at hlen
  omega

end PlantOS.Libp.Rwlock

/-! ## Barriers -/

namespace PlantOS.Libp.Barrier

open Lib Condition
open Function (update update_of_ne update_self)

/-- Where a thread is in `pthread_barrier_wait`. `round` is the number of rounds before its own; no code reads it. -/
inductive Pc
  | idle
  /-- it takes the mutex and arrives -/
  | arrive
  /-- the last one of its round wakes the others -/
  | wake (round : ℕ)
  /-- it loads the generation -/
  | load (generation round : ℕ)
  /-- `os_futex_wait` -/
  | waits (generation round : ℕ)
  | blocked (generation round : ℕ)
  /-- it subtracts itself from `users`, and returns; the last one of its round returns `PTHREAD_BARRIER_SERIAL_THREAD` -/
  | leave (serial : Bool) (round : ℕ)
  deriving DecidableEq, Repr

structure BarrierState where
  count : ℕ
  arrived : ℕ
  generation : ℕ
  users : ℕ
  /-- the threads that are blocked on the generation -/
  queue : List ℕ
  pc : ℕ → Pc
  /-- the threads in `users`, the rounds that are complete, and who has arrived in a round and who has returned from
  it, with what it returns; no code reads them -/
  inside : List ℕ
  rounds : ℕ
  arrivals : ℕ → List (ℕ × Bool)
  returned : ℕ → List (ℕ × Bool)

/-- What a thread finds in its next step: `os_futex_wait` returns without a look at the generation, and
`os_futex_wake` releases these threads -/
structure Env where
  refused : Bool
  released : List ℕ
  deriving DecidableEq, Repr

namespace BarrierState

variable (s : BarrierState)

def goto (t : ℕ) (pc : Pc) : BarrierState := { s with pc := update s.pc t pc }

def arrives (t : ℕ) (serial : Bool) : BarrierState :=
  { s with arrivals := update s.arrivals s.rounds ((t, serial) :: s.arrivals s.rounds) }

def wakeUp (released : List ℕ) : BarrierState :=
  { s with
    queue := remaining s.queue released
    pc := fun t =>
      match s.pc t with
      | .blocked generation round => if t ∈ released then .load generation round else .blocked generation round
      | pc => pc }

def goOn (t : ℕ) (env : Env) : Option BarrierState :=
  match s.pc t with
  | .idle | .blocked .. => none
  | .arrive =>
    let arrived := (s.arrived + 1) % 2 ^ 32
    if arrived = s.count then
      some { (s.arrives t true).goto t (.wake s.rounds) with
        arrived := 0, generation := (s.generation + 1) % 2 ^ 32, rounds := s.rounds + 1 }
    else some { (s.arrives t false).goto t (.load s.generation s.rounds) with arrived }
  | .wake round =>
    if Releases s.queue intMax env.released then some ((s.wakeUp env.released).goto t (.leave true round)) else none
  | .load generation round =>
    some (s.goto t (if s.generation = generation then .waits generation round else .leave false round))
  | .waits generation round =>
    if !env.refused ∧ s.generation = generation then
      some { s.goto t (.blocked generation round) with queue := t :: s.queue }
    else some (s.goto t (.load generation round))
  | .leave serial round =>
    some { s.goto t .idle with
      users := (s.users + 2 ^ 32 - 1) % 2 ^ 32, inside := s.inside.erase t,
      returned := update s.returned round ((t, serial) :: s.returned round) }

/-- `pthread_barrier_destroy` returns 0. -/
def mayDestroy : Bool := s.users == 0

end BarrierState

inductive Event
  /-- a thread calls `pthread_barrier_wait`, and adds itself to `users` -/
  | enter (t : ℕ)
  | goOn (t : ℕ) (env : Env)
  /-- a wait is interrupted, or returns for no reason -/
  | spurious (t : ℕ)

def BarrierState.step (s : BarrierState) : Event → Option BarrierState
  | .enter t =>
    if s.pc t = .idle ∧ 0 < t ∧ t ≤ intMax then
      some { s.goto t .arrive with users := (s.users + 1) % 2 ^ 32, inside := t :: s.inside }
    else none
  | .goOn t env => s.goOn t env
  | .spurious t => if t ∈ s.queue then some (s.wakeUp [t]) else none

/-- `pthread_barrier_init` -/
def sys : System BarrierState Event where
  init s := (0 < s.count ∧ s.count < 2 ^ 32) ∧ (s.arrived = 0 ∧ s.generation = 0 ∧ s.users = 0) ∧ s.queue = [] ∧
    (∀ t, s.pc t = .idle) ∧ s.inside = [] ∧ s.rounds = 0 ∧ (∀ r, s.arrivals r = []) ∧ ∀ r, s.returned r = []
  step := BarrierState.step

/-- Fewer than 2^32 rounds are complete between the arrival of a thread and its look at the generation. -/
def Pc.Soon (rounds : ℕ) : Pc → Prop
  | .load _ round | .waits _ round => rounds < round + 2 ^ 32
  | _ => True

def Soon (s : BarrierState) : Event → Prop
  | .goOn t _ => (s.pc t).Soon s.rounds
  | _ => True

instance (rounds : ℕ) : (pc : Pc) → Decidable (pc.Soon rounds)
  | .load .. | .waits .. => inferInstanceAs (Decidable (_ < _))
  | .idle | .arrive | .wake _ | .blocked .. | .leave .. => isTrue trivial

instance (s : BarrierState) : (e : Event) → Decidable (Soon s e)
  | .goOn t _ => inferInstanceAs (Decidable ((s.pc t).Soon s.rounds))
  | .enter _ | .spurious _ => isTrue trivial

/-! ### The invariant -/

/-- The round of a thread that has arrived, and whether it is the last one of it -/
def Pc.round : Pc → Option (ℕ × Bool)
  | .wake round => some (round, true)
  | .load _ round | .waits _ round | .blocked _ round => some (round, false)
  | .leave serial round => some (round, serial)
  | _ => none

def Pc.Ok (rounds : ℕ) : Pc → Prop
  | .wake round | .leave _ round => round < rounds
  | .load generation round | .waits generation round | .blocked generation round =>
    generation = round % 2 ^ 32 ∧ round ≤ rounds
  | _ => True

structure Inv (s : BarrierState) : Prop where
  count : 0 < s.count ∧ s.count < 2 ^ 32
  arrived : s.arrived < s.count
  generation : s.generation = s.rounds % 2 ^ 32
  users : s.users = s.inside.length
  insideNodup : s.inside.Nodup
  inside : ∀ t, t ∈ s.inside ↔ s.pc t ≠ .idle
  ids : ∀ t, s.pc t ≠ .idle → 0 < t ∧ t ≤ intMax
  queueNodup : s.queue.Nodup
  queue : ∀ t, t ∈ s.queue ↔ ∃ generation round, s.pc t = .blocked generation round
  ok : ∀ t, (s.pc t).Ok s.rounds
  /-- a blocked thread waits for its round, or for the wake of the last one -/
  blocked : ∀ t generation round, s.pc t = .blocked generation round → round = s.rounds ∨ ∃ u, s.pc u = .wake round
  complete : ∀ r < s.rounds, (s.arrivals r).length = s.count ∧ (s.arrivals r).countP (·.2) = 1
  current : (s.arrivals s.rounds).length = s.arrived ∧ (s.arrivals s.rounds).countP (·.2) = 0
  future : ∀ r, s.rounds < r → s.arrivals r = []
  nodup : ∀ r, ((s.arrivals r).map Prod.fst).Nodup
  place : ∀ t r b, (s.pc t).round = some (r, b) → (t, b) ∈ s.arrivals r ∧ ∀ b', (t, b') ∉ s.returned r
  gone : ∀ r t b, (t, b) ∈ s.arrivals r → (t, b) ∈ s.returned r ∨ (s.pc t).round = some (r, b)
  returned : ∀ r t b, (t, b) ∈ s.returned r → r < s.rounds ∧ (t, b) ∈ s.arrivals r
  once : ∀ r, ((s.returned r).map Prod.fst).Nodup

variable {s s' : BarrierState} {t : ℕ}

lemma inside_update {pc : ℕ → Pc} {p q : Pc} (h : pc t ≠ p ↔ q ≠ p) (u : ℕ) : update pc t q u ≠ p ↔ pc u ≠ p := by
  by_cases hu : u = t
  · rw [hu, update_self]
    exact h.symm
  · rw [update_of_ne hu]

lemma blocked_update {pc : ℕ → Pc} {q : Pc} (hnot : ∀ g r, pc t ≠ .blocked g r) (hnot' : ∀ g r, q ≠ .blocked g r) (u g r : ℕ) :
    update pc t q u = .blocked g r ↔ pc u = .blocked g r := by
  by_cases heq : u = t
  · rw [heq, update_self]
    exact ⟨fun hu => absurd hu (hnot' g r), fun hu => absurd hu (hnot g r)⟩
  · rw [update_of_ne heq]

lemma round_update {pc : ℕ → Pc} {q : Pc} (h : q.round = (pc t).round) (u : ℕ) : (update pc t q u).round = (pc u).round := by
  by_cases hu : u = t
  · rw [hu, update_self, h]
  · rw [update_of_ne hu]

lemma Pc.Ok.mono {p : Pc} {rounds rounds' : ℕ} (h : p.Ok rounds) (hle : rounds ≤ rounds') : p.Ok rounds' := by
  cases p with
  | wake r | leave b r => exact Nat.lt_of_lt_of_le h hle
  | load g r | waits g r | blocked g r => exact ⟨h.1, Nat.le_trans h.2 hle⟩
  | _ => trivial

lemma Inv.ok_update (h : Inv s) {q : Pc} {rounds : ℕ} (hle : s.rounds ≤ rounds) (hok : q.Ok rounds) (u : ℕ) :
    (update s.pc t q u).Ok rounds := by
  by_cases heq : u = t
  · rw [heq, update_self]
    exact hok
  · rw [update_of_ne heq]
    exact (h.ok u).mono hle

lemma Inv.queue_update (h : Inv s) {q : Pc} (hnot : ∀ g r, s.pc t ≠ .blocked g r) (hnot' : ∀ g r, q ≠ .blocked g r) (u : ℕ) :
    u ∈ s.queue ↔ ∃ g r, update s.pc t q u = .blocked g r :=
  (h.queue u).trans (exists_congr fun g => exists_congr fun r => (blocked_update hnot hnot' u g r).symm)

lemma Inv.goto (h : Inv s) {q : Pc} (hrd : q.round = (s.pc t).round) (hfrom : s.pc t ≠ .idle) (hto : q ≠ .idle)
    (hnot : ∀ g r, s.pc t ≠ .blocked g r) (hnot' : ∀ g r, q ≠ .blocked g r) (hok : q.Ok s.rounds)
    (hblk : ∀ u g r, s.pc u = .blocked g r → s.pc t = .wake r → r = s.rounds) : Inv (s.goto t q) := by
  have hsame := round_update hrd
  have hback := fun u g r => (blocked_update hnot hnot' u g r).mp
  refine { h with
    inside := fun u => ?_, ids := fun u hu => ?_, queue := h.queue_update hnot hnot', ok := h.ok_update (Nat.le_refl _) hok,
    blocked := fun u g r hu => ?_, place := fun u r b hu => ?_, gone := fun r u b hmem => ?_ }
  · exact (h.inside u).trans (inside_update ⟨fun _ => hto, fun _ => hfrom⟩ u).symm
  · exact h.ids u ((inside_update ⟨fun _ => hto, fun _ => hfrom⟩ u).mp hu)
  · by_cases hlast : r = s.rounds
    · exact .inl hlast
    · obtain ⟨v, hv⟩ := (h.blocked u g r (hback u g r hu)).resolve_left hlast
      refine .inr ⟨v, (update_of_ne (fun heq => ?_) ..).trans hv⟩
      exact hlast (hblk u g r (hback u g r hu) (heq ▸ hv))
  · exact h.place u r b ((hsame u).symm.trans hu)
  · refine (h.gone r u b hmem).imp_right fun hu => ?_
    exact (hsame u).trans hu

lemma Inv.inside_le (h : Inv s) : s.inside.length ≤ intMax :=
  length_le_of_ids h.insideNodup fun u hu => h.ids u ((h.inside u).mp hu)

lemma Inv.queue_le (h : Inv s) : s.queue.length ≤ intMax :=
  length_le_of_ids h.queueNodup fun u hu => h.ids u fun hidle => by
    obtain ⟨g, r, hpc⟩ := (h.queue u).mp hu
    cases hidle.symm.trans hpc

lemma Inv.blocked_stays (h : Inv s) {q : Pc} (hnot : ∀ g r, s.pc t ≠ .blocked g r) (hnot' : ∀ g r, q ≠ .blocked g r)
    (hwake : ∀ r, s.pc t ≠ .wake r) (u g r : ℕ) (hu : update s.pc t q u = .blocked g r) :
    r = s.rounds ∨ ∃ v, update s.pc t q v = .wake r := by
  refine (h.blocked u g r ((blocked_update hnot hnot' u g r).mp hu)).imp_right fun ⟨v, hv⟩ => ⟨v, ?_⟩
  exact (update_of_ne (fun heq : v = t => hwake r (heq ▸ hv)) ..).trans hv

lemma Inv.enter (h : Inv s) (hidle : s.pc t = .idle) (hids : 0 < t ∧ t ≤ intMax) :
    Inv { s.goto t .arrive with users := (s.users + 1) % 2 ^ 32, inside := t :: s.inside } := by
  have hnot : t ∉ s.inside := fun hmem => (h.inside t).mp hmem hidle
  have hrd := round_update (q := .arrive) (show none = (s.pc t).round by rw [hidle]; rfl)
  have hlen := h.inside_le
  have hmax : intMax = 0x7fffffff := rfl
  have hus := h.users
  have hblk : ∀ g r, s.pc t ≠ .blocked g r := by rw [hidle]; exact nofun
  refine { h with
    users := ?_, insideNodup := List.nodup_cons.mpr ⟨hnot, h.insideNodup⟩, inside := fun u => ?_,
    ids := fun u hu => ?_, queue := h.queue_update hblk nofun, ok := h.ok_update (Nat.le_refl _) trivial,
    blocked := h.blocked_stays (q := .arrive) hblk nofun (by rw [hidle]; exact nofun),
    place := fun u r b hu => h.place u r b ((hrd u).symm.trans hu),
    gone := fun r u b hmem => (h.gone r u b hmem).imp_right fun hu => (hrd u).trans hu }
  · dsimp only
    rw [List.length_cons]
    omega
  · exact mem_cons_update (· ≠ Pc.idle) (h.inside u) nofun
  · by_cases heq : u = t
    · exact heq ▸ hids
    · exact h.ids u fun hout => hu ((update_of_ne heq ..).trans hout)

lemma Inv.arrived_round (h : Inv s) {b : Bool} (hmem : (t, b) ∈ s.arrivals s.rounds) : (s.pc t).round = some (s.rounds, b) :=
  (h.gone s.rounds t b hmem).resolve_left fun hret => absurd (h.returned s.rounds t b hret).1 (Nat.lt_irrefl _)

/-- **A thread arrives**: it waits for the others, or it is the last one, and the round is complete. -/
lemma Inv.arrive (h : Inv s) (hpc : s.pc t = .arrive) {serial : Bool} {q : Pc} {arrived generation rounds : ℕ}
    (hcase : (serial = false ∧ q = .load s.generation s.rounds ∧ arrived = s.arrived + 1 ∧ arrived < s.count ∧
        generation = s.generation ∧ rounds = s.rounds) ∨
      (serial = true ∧ q = .wake s.rounds ∧ arrived = 0 ∧ s.arrived + 1 = s.count ∧
        generation = (s.generation + 1) % 2 ^ 32 ∧ rounds = s.rounds + 1)) :
    Inv { (s.arrives t serial).goto t q with arrived, generation, rounds } := by
  have hnone : (s.pc t).round = none := by rw [hpc]; rfl
  have hblk : ∀ g r, s.pc t ≠ .blocked g r := by rw [hpc]; exact nofun
  have hrd : q.round = some (s.rounds, serial) := by
    rcases hcase with ⟨rfl, rfl, -⟩ | ⟨rfl, rfl, -⟩ <;> rfl
  have hidle : s.pc t ≠ .idle ↔ q ≠ .idle := by
    rw [hpc]
    rcases hcase with ⟨-, rfl, -⟩ | ⟨-, rfl, -⟩ <;> exact ⟨fun _ => nofun, fun _ => nofun⟩
  have hblk' : ∀ g r, q ≠ .blocked g r := by
    rcases hcase with ⟨-, rfl, -⟩ | ⟨-, rfl, -⟩ <;> exact nofun
  have hlat : s.rounds ≤ rounds := by
    rcases hcase with ⟨-, -, -, -, -, rfl⟩ | ⟨-, -, -, -, -, rfl⟩ <;> omega
  have hoth : ∀ r, r ≠ s.rounds → update s.arrivals s.rounds ((t, serial) :: s.arrivals s.rounds) r = s.arrivals r :=
    fun r hr => update_of_ne hr ..
  have hself : update s.arrivals s.rounds ((t, serial) :: s.arrivals s.rounds) s.rounds =
      (t, serial) :: s.arrivals s.rounds := update_self ..
  have hmem : ∀ r x, x ∈ s.arrivals r → x ∈ update s.arrivals s.rounds ((t, serial) :: s.arrivals s.rounds) r := by
    intro r x hx
    by_cases hr : r = s.rounds
    · subst hr
      rw [hself]
      exact .tail _ hx
    · rw [hoth r hr]
      exact hx
  obtain ⟨hlen, hser⟩ := h.current
  refine ⟨h.count, ?_, ?_, h.users, h.insideNodup, fun u => (h.inside u).trans (inside_update hidle u).symm,
    fun u hu => h.ids u ((inside_update hidle u).mp hu), h.queueNodup, h.queue_update hblk hblk', h.ok_update hlat ?_,
    fun u g r hu => ?_,
    fun r hr => ?_, ?_, fun r hr => ?_, fun r => ?_, fun u r b hu => ?_, fun r u b hx => ?_, fun r u b hx => ?_, h.once⟩
  · rcases hcase with ⟨-, -, -, hlt, -⟩ | ⟨-, -, hzero, -⟩
    · exact hlt
    · exact Nat.lt_of_le_of_lt (Nat.le_of_eq hzero) h.count.1
  · have hgen := h.generation
    rcases hcase with ⟨-, -, -, -, rfl, rfl⟩ | ⟨-, -, -, -, rfl, rfl⟩
    · exact hgen
    · dsimp only
      omega
  · rcases hcase with ⟨-, rfl, -, -, -, rfl⟩ | ⟨-, rfl, -, -, -, rfl⟩
    · exact ⟨h.generation, Nat.le_refl _⟩
    · exact Nat.lt_succ_self _
  · -- the last thread of the round will wake the others
    have hsty := h.blocked_stays (q := q) hblk hblk' (by rw [hpc]; exact nofun) u g r hu
    rcases hcase with ⟨-, -, -, -, -, rfl⟩ | ⟨-, rfl, -, -, -, rfl⟩
    · exact hsty
    · rcases hsty with rfl | hwake
      · exact .inr ⟨t, update_self ..⟩
      · exact .inr hwake
  · change (update s.arrivals s.rounds ((t, serial) :: s.arrivals s.rounds) r).length = s.count ∧ _
    by_cases heq : r = s.rounds
    · rcases hcase with ⟨-, -, -, -, -, rfl⟩ | ⟨rfl, -, -, hlast, -, rfl⟩
      · exact absurd hr (Nat.not_lt_of_le (Nat.le_of_eq heq.symm))
      · subst heq
        unfold BarrierState.arrives BarrierState.goto
        dsimp only
        rw [hself, List.length_cons, List.countP_cons, hser, hlen]
        exact ⟨hlast, rfl⟩
    · have hlt : r < s.rounds := by
        rcases hcase with ⟨-, -, -, -, -, rfl⟩ | ⟨-, -, -, -, -, rfl⟩
        · exact hr
        · exact Nat.lt_of_le_of_ne (Nat.le_of_lt_succ hr) heq
      unfold BarrierState.arrives BarrierState.goto
      dsimp only
      rw [hoth r heq]
      exact h.complete r hlt
  · unfold BarrierState.arrives BarrierState.goto
    dsimp only
    rcases hcase with ⟨rfl, -, rfl, -, -, rfl⟩ | ⟨-, -, rfl, -, -, rfl⟩
    · rw [hself, List.length_cons, List.countP_cons, hser, hlen]
      exact ⟨rfl, rfl⟩
    · rw [hoth _ (Nat.succ_ne_self _), h.future _ (Nat.lt_succ_self _)]
      exact ⟨rfl, rfl⟩
  · have hne : r ≠ s.rounds := fun heq => absurd hr (Nat.not_lt_of_le (heq ▸ hlat))
    exact (hoth r hne).trans (h.future r (Nat.lt_of_le_of_lt hlat hr))
  · unfold BarrierState.arrives BarrierState.goto
    dsimp only
    by_cases heq : r = s.rounds
    · subst heq
      rw [hself, List.map_cons]
      refine List.nodup_cons.mpr ⟨fun hx => ?_, h.nodup _⟩
      obtain ⟨⟨u, b⟩, hin, rfl⟩ := List.mem_map.mp hx
      rw [h.arrived_round hin] at hnone
      cases hnone
    · rw [hoth r heq]
      exact h.nodup r
  · change (update s.pc t q u).round = some (r, b) at hu
    by_cases heq : u = t
    · subst heq
      rw [update_self, hrd] at hu
      cases hu
      refine ⟨?_, fun b' hx => absurd (h.returned _ _ _ hx).1 (Nat.lt_irrefl _)⟩
      change _ ∈ update s.arrivals s.rounds ((u, serial) :: s.arrivals s.rounds) s.rounds
      rw [hself]
      exact List.mem_cons_self
    · rw [update_of_ne heq] at hu
      have hplc := h.place u r b hu
      exact ⟨hmem r _ hplc.1, hplc.2⟩
  · have hold : (u, b) ∈ s.arrivals r → (u, b) ∈ s.returned r ∨ (update s.pc t q u).round = some (r, b) := fun hin =>
      (h.gone r u b hin).imp_right fun hu => by
        rw [update_of_ne (fun heq : u = t => by rw [heq, hnone] at hu; cases hu)]
        exact hu
    change (u, b) ∈ update s.arrivals s.rounds ((t, serial) :: s.arrivals s.rounds) r at hx
    by_cases heq : r = s.rounds
    · subst heq
      rw [hself] at hx
      rcases List.mem_cons.mp hx with hx | hin
      · cases hx
        exact .inr ((congrArg Pc.round (update_self ..)).trans hrd)
      · exact hold hin
    · rw [hoth r heq] at hx
      exact hold hx
  · obtain ⟨hlt, hin⟩ := h.returned r u b hx
    exact ⟨Nat.lt_of_lt_of_le hlt hlat, hmem r _ hin⟩

lemma wakeUp_pc (s : BarrierState) (released : List ℕ) (u : ℕ) :
    (∃ g r, s.pc u = .blocked g r ∧ u ∈ released ∧ (s.wakeUp released).pc u = .load g r) ∨
      ((s.wakeUp released).pc u = s.pc u ∧ ((∀ g r, s.pc u ≠ .blocked g r) ∨ u ∉ released)) := by
  unfold BarrierState.wakeUp
  dsimp only
  split
  · rename_i g r hpc
    split_ifs with hu
    · exact .inl ⟨g, r, hpc, hu, rfl⟩
    · exact .inr ⟨hpc.symm, .inr hu⟩
  · rename_i hpc
    exact .inr ⟨rfl, .inl hpc⟩

/-- **Blocked threads are released**, and look at the generation again. -/
lemma Inv.wakeUp (h : Inv s) (released : List ℕ) : Inv (s.wakeUp released) := by
  have hrd : ∀ u, ((s.wakeUp released).pc u).round = (s.pc u).round := fun u => by
    rcases wakeUp_pc s released u with ⟨g, r, hfrom, -, hto⟩ | ⟨hto, -⟩
    · rw [hfrom, hto]
      rfl
    · rw [hto]
  have hidle : ∀ u, (s.wakeUp released).pc u ≠ .idle ↔ s.pc u ≠ .idle := fun u => by
    rcases wakeUp_pc s released u with ⟨g, r, hfrom, -, hto⟩ | ⟨hto, -⟩
    · rw [hfrom, hto]
      exact ⟨fun _ => nofun, fun _ => nofun⟩
    · rw [hto]
  refine { h with
    inside := fun u => (h.inside u).trans (hidle u).symm, ids := fun u hu => h.ids u ((hidle u).mp hu),
    queueNodup := nodup_remaining h.queueNodup released, queue := fun u => ?_, ok := fun u => ?_,
    blocked := fun u g r hu => ?_, place := fun u r b hu => h.place u r b ((hrd u).symm.trans hu),
    gone := fun r u b hx => (h.gone r u b hx).imp_right fun hu => (hrd u).trans hu }
  · refine mem_remaining.trans ?_
    rw [h.queue u]
    rcases wakeUp_pc s released u with ⟨g, r, hfrom, hmem, hto⟩ | ⟨hto, hnot⟩
    · rw [hto]
      exact ⟨fun hboth => absurd hmem hboth.2, fun ⟨_, _, hx⟩ => nomatch hx⟩
    · rw [hto]
      refine ⟨fun hboth => hboth.1, fun ⟨g, r, hx⟩ => ⟨⟨g, r, hx⟩, ?_⟩⟩
      exact hnot.resolve_left fun hnev => hnev g r hx
  · have hok := h.ok u
    rcases wakeUp_pc s released u with ⟨g, r, hfrom, -, hto⟩ | ⟨hto, -⟩
    · rw [hfrom] at hok
      rw [hto]
      exact hok
    · rw [hto]
      exact hok
  · rcases wakeUp_pc s released u with ⟨g', r', -, -, hto⟩ | ⟨hto, -⟩
    · cases hto.symm.trans hu
    · refine (h.blocked u g r (hto.symm.trans hu)).imp_right fun ⟨v, hv⟩ => ⟨v, ?_⟩
      rcases wakeUp_pc s released v with ⟨g', r', hfrom, -⟩ | ⟨hsty, -⟩
      · cases hfrom.symm.trans hv
      · exact hsty.trans hv

/-! ### The code -/

lemma Inv.block (h : Inv s) {g r : ℕ} (hpc : s.pc t = .waits g r) (hsame : s.generation = g)
    (hsoon : s.rounds < r + 2 ^ 32) : Inv { s.goto t (.blocked g r) with queue := t :: s.queue } := by
  have hok := h.ok t
  rw [hpc] at hok
  obtain ⟨hgen, hle⟩ := hok
  have hmod := h.generation
  have hlast : r = s.rounds := by omega
  have hrd := round_update (q := .blocked g r) (show _ = (s.pc t).round by rw [hpc]; rfl)
  have hidle : s.pc t ≠ .idle ↔ Pc.blocked g r ≠ .idle := by
    rw [hpc]
    exact ⟨fun _ => nofun, fun _ => nofun⟩
  have hnot : t ∉ s.queue := fun hmem => by
    obtain ⟨g', r', hblk⟩ := (h.queue t).mp hmem
    cases hblk.symm.trans hpc
  refine { h with
    inside := fun u => (h.inside u).trans (inside_update hidle u).symm,
    ids := fun u hu => h.ids u ((inside_update hidle u).mp hu), queueNodup := List.nodup_cons.mpr ⟨hnot, h.queueNodup⟩,
    queue := fun u => ?_, ok := h.ok_update (Nat.le_refl _) ⟨hgen, hle⟩, blocked := fun u g' r' hu => ?_,
    place := fun u r' b hu => h.place u r' b ((hrd u).symm.trans hu),
    gone := fun r' u b hx => (h.gone r' u b hx).imp_right fun hu => (hrd u).trans hu }
  · exact mem_cons_update (fun p => ∃ g r, p = Pc.blocked g r) (h.queue u) ⟨g, r, rfl⟩
  · change update s.pc t (.blocked g r) u = .blocked g' r' at hu
    rcases update_cases hu with ⟨rfl, ⟨⟩⟩ | ⟨heq, hu⟩
    · exact .inl hlast
    · refine (h.blocked u g' r' hu).imp_right fun ⟨v, hv⟩ => ⟨v, (update_of_ne (fun heq : v = t => ?_) ..).trans hv⟩
      rw [heq, hpc] at hv
      cases hv

lemma Inv.leave (h : Inv s) {serial : Bool} {r : ℕ} (hpc : s.pc t = .leave serial r) : Inv
    { s.goto t .idle with
      users := (s.users + 2 ^ 32 - 1) % 2 ^ 32, inside := s.inside.erase t,
      returned := update s.returned r ((t, serial) :: s.returned r) } := by
  have hmem : t ∈ s.inside := (h.inside t).mpr (by rw [hpc]; exact nofun)
  have hpos := List.length_pos_of_mem hmem
  have hlen := h.inside_le
  have hmax : intMax = 0x7fffffff := rfl
  have hus := h.users
  have hblk : ∀ g r, s.pc t ≠ .blocked g r := by rw [hpc]; exact nofun
  obtain ⟨hplc, hnev⟩ := h.place t r serial (by rw [hpc]; rfl)
  have hlt : r < s.rounds := by
    have hok := h.ok t
    rw [hpc] at hok
    exact hok
  have hold : ∀ r' x, x ∈ update s.returned r ((t, serial) :: s.returned r) r' →
      x ∈ s.returned r' ∨ (r' = r ∧ x = (t, serial)) := by
    intro r' x hx
    by_cases heq : r' = r
    · subst heq
      rw [update_self] at hx
      rcases List.mem_cons.mp hx with hx | hin
      · exact .inr ⟨rfl, hx⟩
      · exact .inl hin
    · rw [update_of_ne heq] at hx
      exact .inl hx
  refine ⟨h.count, h.arrived, h.generation, ?_, h.insideNodup.erase t, fun u => ?_, fun u hu => ?_, h.queueNodup,
    h.queue_update hblk nofun, h.ok_update (Nat.le_refl _) trivial,
    h.blocked_stays (q := .idle) hblk nofun (by rw [hpc]; exact nofun), h.complete, h.current, h.future, h.nodup,
    fun u r' b hu => ?_, fun r' u b hx => ?_, fun r' u b hx => ?_, fun r' => ?_⟩
  · dsimp only
    rw [List.length_erase_of_mem hmem]
    omega
  · exact mem_erase_update (· ≠ Pc.idle) h.insideNodup (h.inside u) fun hne => hne rfl
  · change update s.pc t .idle u ≠ .idle at hu
    by_cases heq : u = t
    · rw [heq, update_self] at hu
      exact absurd rfl hu
    · rw [update_of_ne heq] at hu
      exact h.ids u hu
  · change (update s.pc t .idle u).round = some (r', b) at hu
    by_cases heq : u = t
    · rw [heq, update_self] at hu
      cases hu
    · rw [update_of_ne heq] at hu
      obtain ⟨hin, hout⟩ := h.place u r' b hu
      refine ⟨hin, fun b' hx => ?_⟩
      rcases hold r' _ hx with hx | ⟨-, hx⟩
      · exact hout b' hx
      · exact heq (congrArg Prod.fst hx)
  · -- the thread has returned from its round
    unfold BarrierState.goto
    dsimp only
    have hkps : (u, b) ∈ s.returned r' → (u, b) ∈ update s.returned r ((t, serial) :: s.returned r) r' := fun hin => by
      by_cases heq : r' = r
      · subst heq
        rw [update_self]
        exact .tail _ hin
      · rw [update_of_ne heq]
        exact hin
    rcases h.gone r' u b hx with hin | hu
    · exact .inl (hkps hin)
    · by_cases heq : u = t
      · subst heq
        rw [hpc] at hu
        cases hu
        rw [update_self]
        exact .inl List.mem_cons_self
      · rw [update_of_ne heq]
        exact .inr hu
  · rcases hold r' _ hx with hin | ⟨rfl, heq⟩
    · exact h.returned r' u b hin
    · cases heq
      exact ⟨hlt, hplc⟩
  · unfold BarrierState.goto
    dsimp only
    by_cases heq : r' = r
    · subst heq
      rw [update_self, List.map_cons]
      refine List.nodup_cons.mpr ⟨fun hx => ?_, h.once r'⟩
      obtain ⟨⟨u, b⟩, hin, rfl⟩ := List.mem_map.mp hx
      exact hnev b hin
    · rw [update_of_ne heq]
      exact h.once r'

lemma Inv.goOn (h : Inv s) {env : Env} (hsoon : Soon s (.goOn t env)) (he : s.goOn t env = some s') : Inv s' := by
  have hok := h.ok t
  have hnear : (s.pc t).Soon s.rounds := hsoon
  unfold BarrierState.goOn at he
  cases hpc : s.pc t with
  | idle =>
    rw [hpc] at he
    cases he
  | blocked g r =>
    rw [hpc] at he
    cases he
  | arrive =>
    rw [hpc] at he
    have hcnt := h.count
    have harriv := h.arrived
    dsimp only at he
    split_ifs at he with hlast
    · cases he
      exact h.arrive hpc (.inr ⟨rfl, rfl, rfl, by omega, rfl, rfl⟩)
    · cases he
      have hnext : (s.arrived + 1) % 2 ^ 32 = s.arrived + 1 := by omega
      rw [hnext] at hlast ⊢
      exact h.arrive hpc (.inl ⟨rfl, rfl, rfl, by omega, rfl, rfl⟩)
  | wake r =>
    rw [hpc] at he hok
    simp only [Option.ite_none_right_eq_some] at he
    obtain ⟨hrel, he⟩ := he
    cases he
    have hsty : (s.wakeUp env.released).pc t = .wake r := by
      unfold BarrierState.wakeUp
      dsimp only
      rw [hpc]
    refine (h.wakeUp env.released).goto (by rw [hsty]; rfl) (by rw [hsty]; exact nofun) nofun (by rw [hsty]; exact nofun)
      nofun hok fun u g r' hu => ?_
    -- nobody is blocked any more
    have hmem := ((h.wakeUp env.released).queue u).mpr ⟨g, r', hu⟩
    obtain ⟨hin, hout⟩ := mem_remaining.mp hmem
    exact absurd (hrel.all h.queue_le hin) hout
  | load g r =>
    rw [hpc] at he hok hnear
    cases he
    have hmod := h.generation
    have hnow : ∀ u g' r', s.pc u = .blocked g' r' → s.pc t = .wake r' → r' = s.rounds := fun _ _ _ _ hw => by
      cases hpc.symm.trans hw
    split_ifs with hsame
    · exact h.goto (by rw [hpc]; rfl) (by rw [hpc]; exact nofun) nofun (by rw [hpc]; exact nofun) nofun hok hnow
    · -- the generation has changed: the round is complete
      refine h.goto (by rw [hpc]; rfl) (by rw [hpc]; exact nofun) nofun (by rw [hpc]; exact nofun) nofun ?_ hnow
      refine Nat.lt_of_le_of_ne hok.2 fun heq => hsame ?_
      rw [hmod, hok.1, heq]
  | waits g r =>
    rw [hpc] at he hok hnear
    have hnow : ∀ u g' r', s.pc u = .blocked g' r' → s.pc t = .wake r' → r' = s.rounds := fun _ _ _ _ hw => by
      cases hpc.symm.trans hw
    dsimp only at he
    split_ifs at he with hboth
    · cases he
      exact h.block hpc hboth.2 hnear
    · cases he
      exact h.goto (by rw [hpc]; rfl) (by rw [hpc]; exact nofun) nofun (by rw [hpc]; exact nofun) nofun hok hnow
  | leave serial r =>
    rw [hpc] at he
    cases he
    exact h.leave hpc

/-- **What one step preserves.** -/
theorem Inv.step (h : Inv s) {e : Event} (hsoon : Soon s e) (he : s.step e = some s') : Inv s' := by
  cases e with
  | enter t =>
    simp only [BarrierState.step, Option.ite_none_right_eq_some] at he
    obtain ⟨⟨hidle, hids⟩, he⟩ := he
    cases he
    exact h.enter hidle hids
  | goOn t env => exact h.goOn hsoon he
  | spurious t =>
    simp only [BarrierState.step, Option.ite_none_right_eq_some] at he
    cases he.2
    exact h.wakeUp [t]

lemma guarded_inv (h : sys.Guarded Soon s) : Inv s := by
  refine h.invariant (fun s hs => ?_) fun _ _ _ hinv hsoon he => hinv.step hsoon he
  obtain ⟨hcnt, ⟨harriv, hgen, hus⟩, hqu, hidle, hins, hroun, harr, hret⟩ := hs
  refine ⟨hcnt, by omega, by simp only [hgen, hroun, Nat.zero_mod], by rw [hus, hins]; rfl, by rw [hins]; exact List.nodup_nil,
    fun t => ?_, fun t ht => absurd (hidle t) ht, by rw [hqu]; exact List.nodup_nil, fun t => ?_, fun t => ?_,
    fun t g r ht => ?_, fun r hr => ?_, ?_, fun r _ => harr r, fun r => ?_, fun t r b ht => ?_, fun r t b hin => ?_,
    fun r t b hin => ?_, fun r => ?_⟩
  · rw [hins]
    exact ⟨nofun, fun ht => absurd (hidle t) ht⟩
  · rw [hqu, hidle t]
    exact ⟨nofun, fun ⟨_, _, ht⟩ => nomatch ht⟩
  · rw [hidle t]
    trivial
  · cases (hidle t).symm.trans ht
  · rw [hroun] at hr
    exact absurd hr (Nat.not_lt_zero r)
  · rw [harr, harriv]
    exact ⟨rfl, rfl⟩
  · rw [harr]
    exact List.nodup_nil
  · rw [hidle t] at ht
    cases ht
  · rw [harr] at hin
    cases hin
  · rw [hret] at hin
    cases hin
  · rw [hret]
    exact List.nodup_nil

/-! ### What the locks and the barriers promise -/

/-- **Read-write locks and barriers**, with fewer than 2^32 read locks at a time and fewer than 2^32 rounds between
the arrival of a thread and its looks at the generation. A writer has the lock alone, and only a woken reader stays
blocked on a free lock. A complete round has `count` threads and one serial one; who returns from it has arrived in
it, and who has arrived returns. When `pthread_barrier_destroy` returns 0, no thread is inside. -/
theorem holders_and_rounds {l : Rwlock.LockState} (hl : Rwlock.sys.Guarded Rwlock.Few l) (h : sys.Guarded Soon s) :
    ((l.writeHolders.length ≤ 1 ∧ (l.writeHolders ≠ [] → l.readHolders = [])) ∧
      (l.readHolders = [] → l.writeHolders = [] →
        (∀ t write, l.pc t = .blocked write → write = false ∧ ∃ u, l.pc u = .woken true) ∧
          ∀ u, l.pc u = .woken true → ∃ l', Rwlock.sys.step l (.again u) = some l' ∧ u ∈ l'.writeHolders) ∧
      (∀ t l', Rwlock.sys.step l (.unlock t) = some l' → (∀ u write, l'.pc u ≠ .blocked write) ∧ l'.outcome t = some .ok ∧
        (l'.readHolders, l'.writeHolders) = if t ∈ l.writeHolders then (l.readHolders, l.writeHolders.erase t)
          else (l.readHolders.erase t, l.writeHolders)) ∧
      (∀ t write tries mutexBusy l', Rwlock.sys.step l (.acquire t write tries mutexBusy) = some l' →
        Rwlock.Takes l l' t write) ∧
      ∀ t write l', l.pc t = .woken write → Rwlock.sys.step l (.again t) = some l' → Rwlock.Takes l l' t write) ∧
    ((∀ r < s.rounds, (s.arrivals r).length = s.count ∧ (s.arrivals r).countP (·.2) = 1) ∧
      (∀ r, ((s.arrivals r).map Prod.fst).Nodup ∧ ((s.returned r).map Prod.fst).Nodup) ∧
      (∀ r t serial, (t, serial) ∈ s.returned r → r < s.rounds ∧ (t, serial) ∈ s.arrivals r) ∧
      (∀ r < s.rounds, ∀ t serial, (t, serial) ∈ s.arrivals r → (t, serial) ∈ s.returned r ∨
        (s.pc t).round = some (r, serial) ∧ ((∃ g, s.pc t = .blocked g r) → ∃ u, s.pc u = .wake r)) ∧
      (∀ t g r, s.pc t = .load g r ∨ s.pc t = .waits g r → r < s.rounds → s.rounds < r + 2 ^ 32 → s.generation ≠ g) ∧
      (s.mayDestroy = true → ∀ t, s.pc t = .idle)) := by
  have hlock := Rwlock.guarded_inv hl
  have hinv := guarded_inv h
  refine ⟨⟨⟨hlock.one, hlock.exclusive⟩, hlock.next_writer, fun t l' he => ⟨?_, hlock.gives he⟩,
    fun t write tries mutexBusy l' he => Rwlock.acquire_takes he, fun t write l' hpc he => Rwlock.again_takes hpc he⟩,
      hinv.complete,
    fun r => ⟨hinv.nodup r, hinv.once r⟩, hinv.returned, fun r hr t serial hin => ?_, fun t g r hpc hr hsoon heq => ?_,
    fun hdestroy t => ?_⟩
  · simp only [Rwlock.sys, Rwlock.LockState.step, Option.ite_none_right_eq_some] at he
    obtain ⟨⟨hfree, hholds⟩, he⟩ := he
    cases he
    exact (hlock.unlock hfree.1 hholds).2
  · refine (hinv.gone r t serial hin).imp_right fun hround => ⟨hround, fun hout => ?_⟩
    obtain ⟨g, hpc⟩ := hout
    exact (hinv.blocked t g r hpc).resolve_left (Nat.ne_of_lt hr)
  · have hok := hinv.ok t
    have hmod := hinv.generation
    have hgeneration : g = r % 2 ^ 32 := by
      rcases hpc with hpc | hpc
      · rw [hpc] at hok
        exact hok.1
      · rw [hpc] at hok
        exact hok.1
    omega
  · have hzero : s.users = 0 := beq_iff_eq.mp hdestroy
    have hnil : s.inside = [] := List.length_eq_zero_iff.mp (hinv.users.symm.trans hzero)
    by_contra hne
    have hmem := (hinv.inside t).mpr hne
    rw [hnil] at hmem
    cases hmem

def pair : BarrierState := ⟨2, 0, 0, 0, [], fun _ => .idle, [], 0, fun _ => [], fun _ => []⟩

lemma pair_init : sys.init pair :=
  ⟨⟨Nat.two_pos, by decide⟩, ⟨rfl, rfl, rfl⟩, rfl, fun _ => rfl, rfl, rfl, fun _ => rfl, fun _ => rfl⟩

def releasing (released : List ℕ) : Env := ⟨false, released⟩

/-- Thread 1 arrives and blocks; thread 2 arrives, wakes it and returns; thread 1 returns. -/
def twoThreads : List Event :=
  [.enter 1, .goOn 1 (releasing []), .goOn 1 (releasing []), .goOn 1 (releasing []), .enter 2, .goOn 2 (releasing []),
    .goOn 2 (releasing [1]), .goOn 2 (releasing []), .goOn 1 (releasing []), .goOn 1 (releasing [])]

/-- Thread 1 reads, thread 2 waits to write, thread 3 waits behind it, and thread 1 unlocks. -/
def behindWriter : List Rwlock.Event :=
  [.acquire 1 false false false, .acquire 2 true false false, .acquire 3 false false false, .unlock 1, .again 3]

/-- Thread 3 is blocked again behind the writer, which takes the lock; both threads have returned from the barrier. -/
theorem holders_and_rounds_pair : ∃ (l : Rwlock.LockState) (s : BarrierState),
    (l.pc 3 = .blocked false ∧ s.returned 0 = [(1, false), (2, true)]) ∧
      (∃ l', Rwlock.sys.step l (.again 2) = some l' ∧ 2 ∈ l'.writeHolders) ∧ ∀ t, s.pc t = .idle := by
  have hmeets : Rwlock.sys.Meets Rwlock.Few Rwlock.fresh behindWriter := by decide +kernel
  have hsoon : sys.Meets Soon pair twoThreads := by decide +kernel
  have hpromise := holders_and_rounds (System.after_guarded (.init Rwlock.fresh_init) hmeets)
    (System.after_guarded (.init pair_init) hsoon)
  exact ⟨_, _, ⟨rfl, rfl⟩, (hpromise.1.2.1 rfl rfl).2 2 rfl, hpromise.2.2.2.2.2.2 rfl⟩

end PlantOS.Libp.Barrier

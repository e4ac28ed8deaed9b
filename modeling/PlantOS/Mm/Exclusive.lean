import PlantOS.Mm.UserMap

/-!
# No page is both writable and executable

Every function that writes an entry keeps the rule: either the entry is not executable, or it is neither writable nor
to be copied when it is written.
-/

namespace PlantOS.Mm

open Machine

variable {s : Machine} {e : Pte}

/-! ### What leaves the entries as they are -/

lemma setLeaf_leaf (s : Machine) (root v : ℕ) (e : Pte) (r w : ℕ) :
    (s.setLeaf root v e).leaf r w = if r = root ∧ w = v then e else s.leaf r w := by
  unfold Machine.setLeaf
  by_cases hr : r = root
  · subst hr
    by_cases hw : w = v
    · subst hw
      simp
    · simp [hw]
  · simp [hr]

lemma pageRetain_leaf (s : Machine) (p : ℕ) : (s.pageRetain p).leaf = s.leaf := by
  unfold Machine.pageRetain
  split <;> rfl

lemma pageRelease_leaf (s : Machine) (p : ℕ) : (s.pageRelease p).leaf = s.leaf := by
  unfold Machine.pageRelease
  split <;> rfl

lemma mappingRelease_leaf (s : Machine) (e : Pte) : (s.mappingRelease e).leaf = s.leaf := by
  unfold mappingRelease
  split
  · exact pageRelease_leaf s e.page
  · rfl

/-- The entry is not executable, or it is neither writable nor copied when it is written. -/
def Pte.Exclusive (e : Pte) : Prop := e.nx = true ∨ (e.write = false ∧ e.cow = false)

def Protection.Exclusive (p : Protection) : Prop := ¬(p.write = true ∧ p.exec = true)

def Exclusive (s : Machine) : Prop := ∀ root v, (s.leaf root v).Exclusive

lemma Pte.Exclusive.zero : Pte.zero.Exclusive := .inr ⟨rfl, rfl⟩

namespace Exclusive

lemma congr {s' : Machine} (h : Exclusive s) (hleaf : s'.leaf = s.leaf) : Exclusive s' := fun root v => by
  rw [hleaf]
  exact h root v

lemma setLeaf (h : Exclusive s) (root v : ℕ) (he : e.Exclusive) : Exclusive (s.setLeaf root v e) := fun r w => by
  rw [setLeaf_leaf]
  split
  · exact he
  · exact h r w

lemma mappingRelease (h : Exclusive s) (e : Pte) : Exclusive (s.mappingRelease e) := h.congr (mappingRelease_leaf s e)

lemma pageRetain (h : Exclusive s) (p : ℕ) : Exclusive (s.pageRetain p) := h.congr (pageRetain_leaf s p)

lemma pageRelease (h : Exclusive s) (p : ℕ) : Exclusive (s.pageRelease p) := h.congr (pageRelease_leaf s p)

lemma foldl {α : Type} {f : Machine → α → Machine} {l : List α} (hstep : ∀ s, ∀ a ∈ l, Exclusive s → Exclusive (f s a))
    (h : Exclusive s) : Exclusive (l.foldl f s) := by
  induction l generalizing s with
  | nil => exact h
  | cons a l ih => exact ih (fun s b hb => hstep s b (.tail _ hb)) (hstep s a (.head _) h)

/-! ### Tables and allocation -/

lemma userPageAllocate (h : Exclusive s) : Exclusive s.userPageAllocate.1 := by
  unfold Machine.userPageAllocate
  split <;> exact h

lemma tableCreate_leaf (s : Machine) (root v level : ℕ) : (s.tableCreate root v level).1.leaf = s.leaf := by
  have hleaf : s.pageMallocOne.1.leaf = s.leaf := by
    unfold Machine.pageMallocOne
    split <;> rfl
  unfold Machine.tableCreate
  split
  · rfl
  · generalize s.pageMallocOne = r at hleaf ⊢
    rcases r with ⟨s₁, _ | p⟩ <;> exact hleaf

lemma pageEntryCreate_leaf (s : Machine) (root v : ℕ) : (s.pageEntryCreate root v).1.leaf = s.leaf := by
  unfold Machine.pageEntryCreate
  exact Lib.untilFail_invariant (P := fun s' : Machine => s'.leaf = s.leaf)
    (fun level _ s' hs => (tableCreate_leaf s' root v level).trans hs) rfl

lemma pageEntryCreate (h : Exclusive s) (root v : ℕ) : Exclusive (s.pageEntryCreate root v).1 :=
  h.congr (pageEntryCreate_leaf s root v)

lemma pageMallocOne (h : Exclusive s) : Exclusive s.pageMallocOne.1 := by
  unfold Machine.pageMallocOne
  split <;> exact h

lemma detachEmpty (h : Exclusive s) (root v fuel level : ℕ) : Exclusive (Machine.detachEmpty root v fuel level s).1 := by
  induction fuel generalizing s level with
  | zero => exact h
  | succ fuel ih =>
    unfold Machine.detachEmpty
    dsimp only
    split
    · exact ih (s := s.setTable root level (v / tableEntries ^ level) none) (h.congr rfl) (level + 1)
    · exact h.congr rfl

lemma userTablePrune (h : Exclusive s) (root v : ℕ) : Exclusive (s.userTablePrune root v) := by
  unfold Machine.userTablePrune
  dsimp only
  split
  · exact h
  split
  · exact h
  · exact foldl (fun s p _ hs => hs.pageRelease p) (h.detachEmpty root v 3 _)

lemma unmapPages (h : Exclusive s) (root address size : ℕ) (required : Pte → Bool) :
    Exclusive (s.unmapPages root address size required) := by
  unfold Machine.unmapPages
  dsimp only
  refine foldl (fun s v _ hs => hs.userTablePrune root v) (foldl (fun s v _ hs => ?_) (foldl (fun s v _ hs => ?_) h))
  · split
    · exact (hs.mappingRelease _).setLeaf root v .zero
    · exact hs
  · split
    · exact hs.setLeaf root v (hs root v)
    · exact hs

/-! ### New mappings -/

lemma mapping (page : ℕ) {protection : Protection} (shared : Bool) (h : protection.Exclusive) :
    (Pte.mapping page protection shared).Exclusive := by
  unfold Pte.Exclusive Pte.mapping
  unfold Protection.Exclusive at h
  cases hw : protection.write <;> cases hx : protection.exec <;> simp_all

lemma prepareZero (h : Exclusive s) : Exclusive s.prepareZero.1 := by
  unfold Machine.prepareZero
  split
  · exact h
  · have halc := h.userPageAllocate
    generalize s.userPageAllocate = r at halc ⊢
    rcases r with ⟨s₁, _ | p⟩ <;> exact halc

lemma mapBatch (h : Exclusive s) (root : ℕ) {protection : Protection} (shared : Bool) (batch : List (ℕ × ℕ))
    (hprot : protection.Exclusive) : Exclusive (s.mapBatch root protection shared batch) := by
  unfold Machine.mapBatch
  exact foldl (fun s e _ hs => hs.mappingRelease e)
    (foldl (fun s a _ hs => (hs.pageRetain a.2).setLeaf root a.1 (mapping a.2 shared hprot)) h)

/-- **A new mapping keeps the rule if its protection does.** -/
theorem archUserMapPages (h : Exclusive s) (root address size : ℕ) {protection : Protection} (replace : Bool)
    (backing : Option (List ℕ)) (shared : Bool) (hprot : protection.Exclusive) :
    Exclusive (s.archUserMapPages root address size protection replace backing shared).1 := by
  have hzero : Exclusive (if backing.isNone then s.prepareZero else (s, true)).1 := by
    split
    · exact h.prepareZero
    · exact h
  unfold Machine.archUserMapPages
  generalize (if backing.isNone then s.prepareZero else (s, true)) = r at hzero ⊢
  rcases r with ⟨s₀, _ | _⟩
  · exact hzero
  have hchk : Exclusive (Lib.untilFail (fun v s => s.mapCheck root replace v) (pagesOf address size) s₀).1 :=
    Lib.untilFail_invariant (fun v _ s hs => by
      have hcr := hs.pageEntryCreate root v
      unfold Machine.mapCheck
      generalize s.pageEntryCreate root v = r at hcr ⊢
      rcases r with ⟨s₁, _ | _⟩ <;> exact hcr) hzero
  dsimp only
  generalize Lib.untilFail (fun v s => s.mapCheck root replace v) (pagesOf address size) s₀ = r at hchk ⊢
  rcases r with ⟨s₁, _ | last⟩
  · exact foldl (fun s batch _ hs => hs.mapBatch root shared batch hprot) hchk
  · exact foldl (fun s v _ hs => hs.userTablePrune root v) hchk

lemma pageLink (h : Exclusive s) (root address : ℕ) : Exclusive (s.pageLink root address).1 := by
  unfold Machine.pageLink
  dsimp only
  split
  · exact h
  have hcr := h.pageEntryCreate root (address / pageBytes)
  generalize s.pageEntryCreate root (address / pageBytes) = r at hcr ⊢
  rcases r with ⟨s₁, _ | _⟩
  · exact hcr
  have halc := hcr.userPageAllocate
  dsimp only at halc ⊢
  generalize s₁.userPageAllocate = r at halc ⊢
  rcases r with ⟨s₂, _ | p⟩
  · exact halc
  · exact (halc.setLeaf root _ (.inl rfl)).mappingRelease _

/-! ### Faults and aliases -/

lemma replacePage (h : Exclusive s) (copy p q root v : ℕ) (he : e.Exclusive) :
    Exclusive (((s.copyPage copy p).setLeaf root v e).pageRelease q) := by
  have hcopy : Exclusive (s.copyPage copy p) := h.congr rfl
  exact (hcopy.setLeaf root v he).pageRelease q

lemma archPageFaultResolve (h : Exclusive s) (root address : ℕ) (other fetch store : Bool) :
    Exclusive (s.archPageFaultResolve root address other fetch store).1 := by
  have hent := h root (address / pageBytes)
  unfold Machine.archPageFaultResolve
  dsimp only
  split
  · exact h
  split
  · exact h
  split
  · exact h
  split
  · exact h
  split
  · exact h
  rename_i hcow
  -- the entry is to be copied, and so it is not executable
  have hnx : (s.leaf root (address / pageBytes)).nx = true := hent.resolve_right fun hno => hcow (by rw [hno.2]; rfl)
  split
  · have halc := h.userPageAllocate
    generalize s.userPageAllocate = r at halc ⊢
    rcases r with ⟨s₁, _ | copy⟩
    · exact halc
    · exact halc.replacePage copy _ _ root _ (.inl hnx)
  · exact h.setLeaf root _ (.inl hnx)

lemma userStore (h : Exclusive s) (root address : ℕ) (byte : UInt8) : Exclusive (s.userStore root address byte).1 := by
  have hflt := h.archPageFaultResolve root address false false true
  unfold Machine.userStore
  dsimp only
  split
  · exact h.congr rfl
  · generalize s.archPageFaultResolve root address false false true = r at hflt ⊢
    rcases r with ⟨s₁, result⟩
    dsimp only
    split
    · exact hflt.congr rfl
    · exact hflt

lemma aliasOwn (h : Exclusive s) (root source i : ℕ) : Exclusive (s.aliasOwn root source i).1 := by
  have hres : Exclusive (if (s.leaf root (source / pageBytes + i)).cow = true then
      (s.archPageFaultResolve root ((source / pageBytes + i) * pageBytes) false false true).1 else s) := by
    split
    · exact h.archPageFaultResolve root _ false false true
    · exact h
  unfold Machine.aliasOwn
  dsimp only
  split
  · rename_i hcow
    rw [if_pos hcow] at hres
    generalize s.archPageFaultResolve root ((source / pageBytes + i) * pageBytes) false false true = r at hres ⊢
    rcases r with ⟨s₁, result⟩
    dsimp only at hres ⊢
    split
    · exact hres
    split
    · have halc := hres.userPageAllocate
      generalize s₁.userPageAllocate = r at halc ⊢
      rcases r with ⟨s₂, _ | copy⟩
      · exact halc
      · exact halc.replacePage copy _ _ root _ (hres root (source / pageBytes + i))
    · exact hres
  · dsimp only
    rw [if_neg Bool.false_ne_true]
    split
    · have halc := h.userPageAllocate
      generalize s.userPageAllocate = r at halc ⊢
      rcases r with ⟨s₂, _ | copy⟩
      · exact halc
      · exact halc.replacePage copy _ _ root _ (h root (source / pageBytes + i))
    · exact h

lemma aliasJoin (h : Exclusive s) (root source target i : ℕ) : Exclusive (s.aliasJoin root source target i) := by
  have hjoin := ((h.pageRetain (s.leaf root (source / pageBytes + i)).page).setLeaf root (source / pageBytes + i)
    (e := { s.leaf root (source / pageBytes + i) with aliased := true }) (h root _)).setLeaf root (target / pageBytes + i)
    (e := ⟨(s.leaf root (source / pageBytes + i)).page, true, true, true, true, false, false, false, true⟩) (.inl rfl)
  unfold Machine.aliasJoin
  dsimp only
  split
  · exact hjoin.mappingRelease _
  · exact hjoin

lemma archUserAlias (h : Exclusive s) (root source target size : ℕ) :
    Exclusive (s.archUserAlias root source target size).1 := by
  unfold Machine.archUserAlias
  split
  · exact h
  have hprun : ∀ {s : Machine} (count : ℕ), Exclusive s → Exclusive (s.pruneFirst root target count) := fun count hs =>
    foldl (fun s i _ hs => hs.userTablePrune root _) hs
  have hchk : Exclusive
      (Lib.untilFail (fun i s => s.aliasCheck root source target i) (List.range (size / pageBytes)) s).1 :=
    Lib.untilFail_invariant (fun i _ s hs => hs.pageEntryCreate root (target / pageBytes + i)) h
  dsimp only
  generalize Lib.untilFail (fun i s => s.aliasCheck root source target i) (List.range (size / pageBytes)) s = r at hchk ⊢
  rcases r with ⟨s₁, _ | i⟩
  · dsimp only at hchk ⊢
    have howd : Exclusive (Lib.untilFail (fun i s => s.aliasOwn root source i) (List.range (size / pageBytes)) s₁).1 :=
      Lib.untilFail_invariant (fun i _ s hs => hs.aliasOwn root source i) hchk
    generalize Lib.untilFail (fun i s => s.aliasOwn root source i) (List.range (size / pageBytes)) s₁ = r at howd ⊢
    rcases r with ⟨s₂, _ | i⟩
    · exact foldl (fun s i _ hs => hs.aliasJoin root source target i) howd
    · exact hprun _ howd
  · exact hprun _ hchk

lemma protectedEntry (e : Pte) (s : Machine) (root v : ℕ) {protection : Protection}
    (hprot : protection.Exclusive) : (s.protectedEntry root v protection e).Exclusive := by
  unfold Protection.Exclusive at hprot
  unfold Machine.protectedEntry Pte.Exclusive
  dsimp only
  split
  · rename_i hwr
    have hexec : protection.exec = false := by simpa [hwr] using hprot
    split
    · exact .inl (by rw [hexec]; rfl)
    · split <;> exact .inl (by rw [hexec]; rfl)
  · exact .inr ⟨rfl, rfl⟩

/-- **A change of protection keeps the rule if the protection does.** -/
lemma archUserProtect (h : Exclusive s) (root address size : ℕ) {protection : Protection}
    (hprot : protection.Exclusive) : Exclusive (s.archUserProtect root address size protection).1 := by
  unfold Machine.archUserProtect
  split
  · exact foldl (fun s v _ hs => hs.setLeaf root v (protectedEntry _ s root v hprot)) h
  · exact h

lemma discarded (h : e.Exclusive) (frame : ℕ) : (e.discarded frame).Exclusive := by
  refine h.imp id fun hno => ⟨rfl, ?_⟩
  change (e.cow || e.write) = false
  rw [hno.1, hno.2]
  rfl

lemma archUserDiscard (h : Exclusive s) (root address size : ℕ) : Exclusive (s.archUserDiscard root address size).1 := by
  unfold Machine.archUserDiscard
  split
  · exact foldl (fun s v _ hs =>
      ((hs.pageRetain _).setLeaf root v (discarded (hs root v) _)).mappingRelease _) h
  · exact h

lemma archUserUnmap (h : Exclusive s) (root address size : ℕ) : Exclusive (s.archUserUnmap root address size).1 := by
  unfold Machine.archUserUnmap
  split
  · exact h.unmapPages root address size _
  · exact h

/-! ### Sharing and devices -/

lemma archAddressSpaceUnmapShared (h : Exclusive s) (target size root : ℕ) :
    Exclusive (s.archAddressSpaceUnmapShared target size root).1 := by
  unfold Machine.archAddressSpaceUnmapShared
  split
  · exact h
  · exact h.unmapPages root target size _

def Stays (s s' : Machine) (root : ℕ) : Prop := ∀ v, (s.leaf root v).nx = true → (s'.leaf root v).nx = true

lemma shareOwn (h : Exclusive s) (fromRoot v : ℕ) :
    Exclusive (s.shareOwn fromRoot v).1 ∧ Stays s (s.shareOwn fromRoot v).1 fromRoot := by
  unfold Machine.shareOwn
  dsimp only
  split
  · have halc := h.userPageAllocate
    have hleaf : s.userPageAllocate.1.leaf = s.leaf := by
      unfold Machine.userPageAllocate
      split <;> rfl
    generalize s.userPageAllocate = r at halc hleaf ⊢
    rcases r with ⟨s₁, _ | copy⟩
    · exact ⟨halc, fun w hw => hleaf ▸ hw⟩
    · have hcopy : Exclusive (s₁.copyPage copy (s.leaf fromRoot v).page) := halc.congr rfl
      refine ⟨(hcopy.setLeaf fromRoot v (.inl rfl)).mappingRelease _, fun w hw => ?_⟩
      dsimp only
      rw [mappingRelease_leaf, setLeaf_leaf]
      split
      · rfl
      · exact hleaf ▸ hw
  · exact ⟨h, fun _ hw => hw⟩

lemma publish (h : Exclusive s) {fromRoot v : ℕ} (toRoot w : ℕ) (hnx : (s.leaf fromRoot v).nx = true) :
    Exclusive (s.publish fromRoot v toRoot w) ∧ Stays s (s.publish fromRoot v toRoot w) fromRoot := by
  unfold Machine.publish
  dsimp only
  have hent : Pte.Exclusive { s.leaf fromRoot v with shared := true, write := true } := .inl hnx
  refine ⟨((h.setLeaf fromRoot v hent).pageRetain _).setLeaf toRoot w hent, fun w' hw => ?_⟩
  rw [setLeaf_leaf]
  split
  · exact hnx
  · rw [pageRetain_leaf, setLeaf_leaf]
    split
    · exact hnx
    · exact hw

lemma sharePages (h : Exclusive s) (source target fromRoot toRoot : ℕ) {is : List ℕ}
    (hnx : ∀ i ∈ is, (s.leaf fromRoot (source / pageBytes + i)).nx = true) :
    Exclusive (Lib.untilFail (fun i s => s.sharePage source target fromRoot toRoot i) is s).1 := by
  induction is generalizing s with
  | nil => exact h
  | cons i is ih =>
    obtain ⟨hown, hsty⟩ := h.shareOwn fromRoot (source / pageBytes + i)
    rw [Lib.untilFail_cons]
    unfold Machine.sharePage
    generalize s.shareOwn fromRoot (source / pageBytes + i) = r at hown hsty ⊢
    rcases r with ⟨s₁, _ | _⟩
    · exact hown
    · obtain ⟨hpub, hsty'⟩ := hown.publish toRoot (target / pageBytes + i) (hsty _ (hnx i (.head _)))
      exact ih hpub fun j hj => hsty' _ (hsty _ (hnx j (.tail _ hj)))

lemma shareChecks (h : Exclusive s) (source target fromRoot toRoot : ℕ) (is : List ℕ) :
    let r := Lib.untilFail (fun i s => s.shareCheck source target fromRoot toRoot i) is s
    Exclusive r.1 ∧ r.1.leaf = s.leaf ∧
      (r.2 = none → ∀ i ∈ is, (s.leaf fromRoot (source / pageBytes + i)).nx = true) := by
  induction is generalizing s with
  | nil => exact ⟨h, rfl, fun _ => nofun⟩
  | cons i is ih =>
    have hcr := h.pageEntryCreate toRoot (target / pageBytes + i)
    have hleaf := pageEntryCreate_leaf s toRoot (target / pageBytes + i)
    dsimp only
    rw [Lib.untilFail_cons]
    split
    · rename_i hok
      obtain ⟨hexcl, hsame, hall⟩ := ih hcr
      refine ⟨hexcl, hsame.trans hleaf, fun hnone j hj => ?_⟩
      rcases List.mem_cons.mp hj with rfl | hj
      · unfold Machine.shareCheck at hok
        simp only [decide_eq_true_eq] at hok
        rw [← hleaf]
        exact hok.2.2.2.2.1
      · rw [← hleaf]
        exact hall hnone j hj
    · exact ⟨hcr, hleaf, nofun⟩

/-- **Sharing keeps the rule**: a page that is executable is not shared. -/
lemma archAddressSpaceShare (h : Exclusive s) (source target size fromRoot toRoot : ℕ) :
    Exclusive (s.archAddressSpaceShare source target size fromRoot toRoot).1 := by
  unfold Machine.archAddressSpaceShare
  split
  · exact h
  dsimp only
  generalize List.range (size / pageBytes) = is
  obtain ⟨hchk, hleaf, hnx⟩ := h.shareChecks source target fromRoot toRoot is
  generalize Lib.untilFail (fun i s => s.shareCheck source target fromRoot toRoot i) is s = r at hchk hleaf hnx ⊢
  rcases r with ⟨s₁, _ | i⟩
  · have hpages := hchk.sharePages source target fromRoot toRoot fun i hi => by
      rw [hleaf]
      exact hnx rfl i hi
    dsimp only at hpages ⊢
    generalize Lib.untilFail (fun i s => s.sharePage source target fromRoot toRoot i) is s₁ = r at hpages ⊢
    rcases r with ⟨s₂, _ | i⟩
    · exact hpages
    · exact hpages.archAddressSpaceUnmapShared target _ toRoot
  · exact hchk

lemma archAddressSpaceMapUserDevice (h : Exclusive s) (root user physical size : ℕ) :
    Exclusive (s.archAddressSpaceMapUserDevice root user physical size).1 := by
  unfold Machine.archAddressSpaceMapUserDevice
  split
  · exact h
  refine Lib.untilFail_invariant (fun i _ s hs => ?_) h
  have hcr := hs.pageEntryCreate root (user / pageBytes + i)
  dsimp only
  generalize s.pageEntryCreate root (user / pageBytes + i) = r at hcr ⊢
  rcases r with ⟨s₁, _ | _⟩
  · exact hcr
  dsimp only at hcr ⊢
  have hset := hcr.setLeaf root (user / pageBytes + i)
    (e := ⟨physical / pageBytes + i, true, true, true, true, false, false, true, false⟩) (.inl rfl)
  split
  · exact hset.mappingRelease _
  · exact hset

/-! ### Address spaces -/

lemma tableDestroy (h : Exclusive s) (root level index : ℕ) : Exclusive (Machine.tableDestroy root level index s) := by
  induction level generalizing s index with
  | zero =>
    unfold Machine.tableDestroy
    split
    · exact (h.setLeaf root index .zero).mappingRelease _
    · exact h
  | succ level ih =>
    unfold Machine.tableDestroy
    split
    · exact h
    · generalize tableSlots = l
      have hloop : Exclusive (l.foldl (fun s i => Machine.tableDestroy root level (index * tableEntries + i) s) s) :=
        foldl (fun s i _ hs => ih hs (index * tableEntries + i)) h
      have hdet : Exclusive ((l.foldl (fun s i =>
        Machine.tableDestroy root level (index * tableEntries + i) s) s).setTable root (level + 1) index none) :=
        hloop.congr rfl
      exact hdet.pageRelease _

lemma cloned (h : e.Exclusive) : e.cloned.Exclusive := by
  unfold Pte.Exclusive at h ⊢
  unfold Pte.cloned
  dsimp only
  split
  · rename_i hwr
    exact .inl (h.resolve_right fun hno => by simp [hno.1] at hwr)
  · exact h

lemma tableClone (h : Exclusive s) (source target level index : ℕ) :
    Exclusive (Machine.tableClone source target level index s).1 := by
  induction level generalizing s index with
  | zero =>
    have hent := cloned (h source index)
    rw [tableClone_zero]
    split
    · have hret : Exclusive (if (s.leaf source index).device = true then s
          else s.pageRetain (s.leaf source index).page) := by
        split
        · exact h
        · exact h.pageRetain _
      exact (hret.setLeaf source index hent).setLeaf target index hent
    · exact h
  | succ level ih =>
    rw [tableClone_succ]
    generalize tableSlots = l
    split
    · exact h
    have halc := h.pageMallocOne
    generalize s.pageMallocOne = r at halc ⊢
    rcases r with ⟨s₁, _ | p⟩
    · exact halc
    have hatt : Exclusive (s₁.setTable target (level + 1) index (some p)) := halc.congr rfl
    have hloop : Exclusive (Lib.untilFail (fun i s => Machine.tableClone source target level (index * tableEntries + i) s)
        l (s₁.setTable target (level + 1) index (some p))).1 :=
      Lib.untilFail_invariant (fun i _ s hs => ih hs _) hatt
    dsimp only
    generalize Lib.untilFail (fun i s => Machine.tableClone source target level (index * tableEntries + i) s)
      l (s₁.setTable target (level + 1) index (some p)) = r at hloop ⊢
    rcases r with ⟨s₂, _ | i⟩
    · exact hloop
    · exact hloop.tableDestroy target (level + 1) index

/-! ### Address spaces -/

lemma prepareExecLocked (h : Exclusive s) (root : ℕ) : Exclusive (s.prepareExecLocked root) := by
  unfold Machine.prepareExecLocked
  generalize userSlots = l
  exact foldl (fun s i _ hs => hs.tableDestroy root 3 i) h

lemma archAddressSpaceReleaseLocked (h : Exclusive s) (root : ℕ) : Exclusive (s.archAddressSpaceReleaseLocked root) := by
  have hhds : Exclusive { s with handles := s.handles.erase root } := h.congr rfl
  unfold Machine.archAddressSpaceReleaseLocked
  dsimp only
  split
  · exact h
  split
  · exact hhds.pageRelease root
  split
  · have hrel : Exclusive (({ s with handles := s.handles.erase root }.prepareExecLocked root).userVmReleaseLocked root) :=
      (hhds.prepareExecLocked root).congr rfl
    exact hrel.pageRelease root
  · exact hhds.pageRelease root

lemma archAddressSpaceRelease (h : Exclusive s) (root : ℕ) : Exclusive (s.archAddressSpaceRelease root) := by
  have hhds : Exclusive { s with handles := s.handles.erase root } := h.congr rfl
  unfold Machine.archAddressSpaceRelease
  split
  · exact h
  split
  · exact hhds.pageRelease root
  · exact h.archAddressSpaceReleaseLocked root

lemma archAddressSpacePrepareExec (h : Exclusive s) (root : ℕ) : Exclusive (s.archAddressSpacePrepareExec root).1 := by
  unfold Machine.archAddressSpacePrepareExec
  split
  · exact h
  · exact (h.prepareExecLocked root).congr rfl

lemma archAddressSpaceClone (h : Exclusive s) (source nodes : ℕ) : Exclusive (s.archAddressSpaceClone source nodes).1 := by
  have halc := h.pageMallocOne
  unfold Machine.archAddressSpaceClone
  generalize userSlots = l
  generalize s.pageMallocOne = r at halc ⊢
  rcases r with ⟨s₁, _ | root⟩
  · exact halc
  have hhds : Exclusive { s₁ with handles := root ::ₘ s₁.handles } := halc.congr rfl
  have hloop : Exclusive (Lib.untilFail (fun i s => Machine.tableClone source root 3 i s) l
      { s₁ with handles := root ::ₘ s₁.handles }).1 :=
    Lib.untilFail_invariant (fun i _ s hs => hs.tableClone source root 3 i) hhds
  dsimp only
  generalize Lib.untilFail (fun i s => Machine.tableClone source root 3 i s) l
    { s₁ with handles := root ::ₘ s₁.handles } = r at hloop ⊢
  rcases r with ⟨s₂, _ | i⟩
  · have hrgns : Exclusive (s₂.userVmClone source root nodes).1 := by
      unfold Machine.userVmClone
      dsimp only
      split
      · exact hloop.congr rfl
      · exact hloop
    dsimp only
    generalize s₂.userVmClone source root nodes = r at hrgns ⊢
    rcases r with ⟨s₃, _ | _⟩
    · exact hrgns.archAddressSpaceReleaseLocked root
    · exact hrgns
  · exact hloop.archAddressSpaceReleaseLocked root

lemma archAddressSpaceRetain (h : Exclusive s) (root : ℕ) : Exclusive (s.archAddressSpaceRetain root) := by
  have hhds : Exclusive { s with handles := root ::ₘ s.handles } := h.congr rfl
  unfold Machine.archAddressSpaceRetain
  split
  · exact h
  · exact hhds.pageRetain root

/-! ### Requests -/

lemma userFileExamine (h : Exclusive s) (io : Answers) (operation : VmOperation) (root address length : ℕ)
    {protection : Protection} (hprot : protection.Exclusive) :
    Exclusive (s.userFileExamine io operation root address length protection).1 := by
  unfold Machine.userFileExamine
  generalize s.fileRange root (length + 1) address (address + length) = parts
  dsimp only
  generalize (if operation = .protect ∨ operation = .sync then s.examineParts root operation protection parts else 0) = status
  split
  · exact h
  split
  · have hloop : Exclusive (Lib.untilFail (fun (part : ℕ × ℕ × Option Region) s =>
        s.archUserProtect root part.1 (part.2.1 - part.1) protection) parts s).1 :=
      Lib.untilFail_invariant (fun part _ s hs => hs.archUserProtect root _ _ hprot) h
    generalize Lib.untilFail (fun (part : ℕ × ℕ × Option Region) s =>
      s.archUserProtect root part.1 (part.2.1 - part.1) protection) parts s = r at hloop ⊢
    rcases r with ⟨s₁, _ | part⟩ <;> exact hloop
  · exact h

lemma flags (h : Exclusive s) (root v : ℕ) :
    ((s.archUserPageFlags root v).getD ⟨false, false, false⟩).Exclusive := by
  unfold Protection.Exclusive Machine.archUserPageFlags
  dsimp only
  split
  · simp
  split
  · simp
  · rintro ⟨hwr, hexec⟩
    have hnx : (s.leaf root v).nx = false := by simpa using hexec
    rcases h root v with hent | ⟨hno, hcow⟩
    · rw [hnx] at hent
      cases hent
    · simp [hno, hcow] at hwr

lemma discardRuns (h : Exclusive s) (root : ℕ) (r : Region) (frames : List ℕ) (stop fuel cursor : ℕ) :
    Exclusive (Machine.discardRuns root r frames stop fuel cursor s).1 := by
  induction fuel generalizing s cursor with
  | zero => exact h
  | succ fuel ih =>
    unfold Machine.discardRuns
    split
    · exact h
    dsimp only
    have hmap := h.archUserMapPages root cursor (s.sameFlags root cursor stop) true
      (some ((frames.drop (r.index cursor)).take (s.sameFlags root cursor stop / pageBytes))) false
      (h.flags root (cursor / pageBytes))
    generalize s.archUserMapPages root cursor (s.sameFlags root cursor stop)
      ((s.archUserPageFlags root (cursor / pageBytes)).getD ⟨false, false, false⟩) true
      (some ((frames.drop (r.index cursor)).take (s.sameFlags root cursor stop / pageBytes))) false = result at hmap ⊢
    rcases result with ⟨s₁, _ | _⟩
    · exact hmap
    · exact ih hmap _

lemma discardPart (h : Exclusive s) (io : Answers) (root : ℕ) (part : ℕ × ℕ × Option Region) :
    Exclusive (s.discardPart io root part).1 := by
  obtain ⟨cursor, next, r⟩ := part
  unfold Machine.discardPart
  cases r with
  | none => exact h.archUserDiscard root cursor (next - cursor)
  | some r =>
    dsimp only
    split
    · exact h
    split
    · exact h.discardRuns root r _ next (next - cursor) cursor
    · exact h

lemma userFileDiscard (h : Exclusive s) (io : Answers) (root address length : ℕ) :
    Exclusive (s.userFileDiscard io root address length).1 := by
  unfold Machine.userFileDiscard
  exact Lib.untilFail_invariant (fun part _ s hs => hs.discardPart io root part) h

lemma fileRegionsRemove (h : Exclusive s) (root address length : ℕ) (split : Bool) :
    Exclusive (s.fileRegionsRemove root address length split) := by
  unfold Machine.fileRegionsRemove
  split <;> exact h.congr rfl

lemma userFileMap (h : Exclusive s) (io : Answers) (root address length : ℕ) (request : VmRequest)
    (hprot : request.rights.Exclusive) : Exclusive (s.userFileMap io root address length request).1 := by
  unfold Machine.userFileMap
  split
  · exact h
  split
  · exact h
  rename_i m _
  split
  · exact h
  have hbac : Exclusive { s with backing := Function.update s.backing io.number (some m) } := h.congr rfl
  extract_lets s₁
  change Exclusive s₁ at hbac
  clear_value s₁
  generalize (if address < io.heapEnd then (vmErrorInvalid, false)
    else s₁.fileRegionsPrepare io root address length (io.nodes - 1)) = prepared
  rcases prepared with ⟨status, node⟩
  dsimp only
  split
  · exact hbac.congr rfl
  have hmap := hbac.archUserMapPages root address length request.replace (some m.frames) m.shared hprot
  generalize s₁.archUserMapPages root address length request.rights request.replace (some m.frames) m.shared = r at hmap ⊢
  rcases r with ⟨s₂, _ | _⟩
  · exact hmap.congr rfl
  · exact (hmap.fileRegionsRemove root address length node).congr rfl

/-- **An operation keeps the rule if the request does.** -/
theorem userVmApply (h : Exclusive s) (io : Answers) (operation : VmOperation) (root address : ℕ) (request : VmRequest)
    (hprot : request.rights.Exclusive) : Exclusive (s.userVmApply io operation root address request).1 := by
  unfold Machine.userVmApply
  dsimp only
  split
  · have halias := h.archUserAlias root request.offset address request.length
    generalize s.archUserAlias root request.offset address request.length = r at halias ⊢
    rcases r with ⟨s₁, _ | _⟩ <;> exact halias
  split
  · split
    · exact h
    have hdis := h.userFileDiscard io root address request.length
    generalize s.userFileDiscard io root address request.length = r at hdis ⊢
    rcases r with ⟨s₁, _ | _⟩ <;> exact hdis
  split
  · exact h.userFileExamine io operation root address request.length hprot
  split
  · exact h.userFileMap io root address request.length request hprot
  generalize s.fileRegionsPrepare io root address request.length io.nodes = prepared
  split
  · exact h
  split
  · exact h
  have hchan : Exclusive (if operation = .unmap then s.archUserUnmap root address request.length
      else s.archUserMap root address request.length request.rights request.replace).1 := by
    split
    · exact h.archUserUnmap root address request.length
    · exact h.archUserMapPages root address request.length request.replace none false hprot
  generalize (if operation = .unmap then s.archUserUnmap root address request.length
    else s.archUserMap root address request.length request.rights request.replace) = r at hchan ⊢
  split
  · exact hchan
  · exact hchan.fileRegionsRemove root address request.length prepared.2

lemma rights_of_supported {request : VmRequest} {operation : VmOperation}
    (h : request.vmRequestSupported operation = true) : request.rights.Exclusive := by
  unfold VmRequest.vmRequestSupported at h
  split at h
  · cases h
  · rename_i href
    exact fun hboth => href (.inr (.inr (.inr (.inr hboth))))

/-- **`user_vm_operation`**: every request keeps the rule. -/
theorem userVmOperation (h : Exclusive s) (io : Answers) (heap : Option (ℕ × ℕ)) (hint : ℕ) (operation : VmOperation)
    (root : ℕ) (request : VmRequest) : Exclusive (s.userVmOperation io heap hint operation root request).1 := by
  unfold Machine.userVmOperation
  dsimp only
  generalize (if operation = VmOperation.alias then pageBytes else request.alignment) = alignment
  rcases heap with _ | ⟨base, size⟩
  · exact h
  dsimp only
  generalize (if request.address = 0 ∧ (operation = VmOperation.map ∨ operation = VmOperation.alias) then
    s.vmPlace root ((base + size) % 2 ^ 64) hint request.length alignment else request.address) = address
  split
  · exact h
  rename_i href
  have hsup : request.vmRequestSupported operation = true := by
    by_contra hnot
    exact href (.inl (by simpa using hnot))
  split
  · exact h
  split
  · exact h
  split
  · exact h
  split
  · exact h
  have happ := h.userVmApply io operation root address request (rights_of_supported hsup)
  split
  · split <;> exact happ
  · split <;> exact happ

/-! ### Runs -/

lemma takes (h : Exclusive s) (pages : List ℕ) : Exclusive (pages.foldl Machine.take s) :=
  foldl (fun _ _ _ hs => hs.congr rfl) h

lemma step {s' : Machine} {event : PageEvent} (h : Exclusive s) (hdir : event.direct = true)
    (hstep : s.step event = some s') : Exclusive s' := by
  cases event <;> simp only [Machine.step, Option.ite_none_right_eq_some, Option.some.injEq] at hstep <;>
    try obtain ⟨-, rfl⟩ := hstep
  case map | protect | discard | «alias» | files => cases hdir
  case unmap root address size => exact h.archUserUnmap root address size
  case link root address => exact h.pageLink root address
  case fault root address other fetch store => exact h.archPageFaultResolve root address other fetch store
  case store root address byte => exact h.userStore root address byte
  case clone source nodes => exact h.archAddressSpaceClone source nodes
  case share source target size fromRoot toRoot => exact h.archAddressSpaceShare source target size fromRoot toRoot
  case unmapShared target size root => exact h.archAddressSpaceUnmapShared target size root
  case mapDevice root user physical size => exact h.archAddressSpaceMapUserDevice root user physical size
  case prepareExec root => exact h.archAddressSpacePrepareExec root
  case retain root => exact h.archAddressSpaceRetain root
  case release root => exact h.archAddressSpaceRelease root
  case allocate pages hint => exact (h.takes pages).congr rfl
  case free p => exact (h.pageRelease p).congr rfl

lemma vmStep {s' : Machine} {event : VmEvent} (h : Exclusive s) (hstep : s.vmStep event = some s') : Exclusive s' := by
  cases event <;> simp only [Machine.vmStep, Option.ite_none_right_eq_some, Option.some.injEq] at hstep <;>
    obtain ⟨hgrd, hstep⟩ := hstep
  case operation io heap hint operation root request =>
    exact hstep ▸ h.userVmOperation io heap hint operation root request
  case segment root address size write exec =>
    have hexcl : Protection.Exclusive ⟨true, write, exec⟩ := fun ⟨hwr, hexec⟩ => by
      obtain rfl : write = true := hwr
      obtain rfl : exec = true := hexec
      cases hgrd.2.2.2
    exact hstep ▸ h.archUserProtect root address size hexcl
  case zeroed root address =>
    exact hstep ▸ h.archUserMapPages root address pageBytes false none false (by simp [Protection.Exclusive])
  case page e => exact h.step hgrd hstep

end Exclusive

/-- **No user page is executable and writable, nor executable and to be copied when it is written**, in any state that the
requests of user programs, their faults and stores, `fork`, sharing, device mappings and the start of programs lead to. -/
theorem never_writable_and_executable (h : vm.Reachable s) (root v : ℕ) :
    ¬((s.leaf root v).nx = false ∧ ((s.leaf root v).write = true ∨ (s.leaf root v).cow = true)) := by
  have hexclusive : Exclusive s := h.invariant
    (fun s hinit root v => by rw [hinit.1.2.2.2.2.1 root v]; exact .zero) fun s event s' hs hstep => hs.vmStep hstep
  rintro ⟨hnx, hwrite⟩
  rcases hexclusive root v with hentry | ⟨hno, hcow⟩
  · rw [hnx] at hentry
    cases hentry
  · rw [hno, hcow] at hwrite
    simp at hwrite

/-- A machine of 16 pages, the first of which is the root of the kernel -/
def smallMachine : Machine where
  pageCount := 16
  references p := if p = 0 then 1 else 0
  allocationHint := 0
  userHint := 16
  zeroPage := none
  kernelRoot := 0
  content _ _ := 0
  table _ _ _ := none
  leaf _ _ := Pte.zero
  fileRegions := []
  backing _ := none
  halted := false
  handles := 0
  owners := {0}

lemma smallMachine_initial : vmInitial smallMachine := by
  refine ⟨⟨fun p => ?_, rfl, rfl, Multiset.mem_singleton_self 0, fun _ _ => rfl, fun _ _ _ => rfl, fun p hp => ?_, by decide,
    by decide⟩, rfl, fun _ => rfl⟩
  · change (if p = 0 then 1 else 0) = Multiset.count p {0}
    rw [Multiset.count_singleton]
  · change (if p = 0 then 1 else 0) ≠ 0 at hp
    have hzero : p = 0 := by simpa using hp
    subst hzero
    decide

/-- An address space with a page of a stack and a page that may be executed -/
def execMapped : Machine := vm.replay smallMachine [.page (.clone 0 0), .zeroed 1 userSpaceStart,
  .operation ⟨0, fun _ _ _ => 0, .error (-9), 0, userSpaceStart⟩ (some (userSpaceStart, pageBytes)) 0 .map 1
    ⟨userSpaceStart + 2 * pageBytes, pageBytes, pageBytes, 5, 0, 0, 0, 0⟩]

theorem never_writable_and_executable_execMapped :
    (execMapped.leaf 1 (userSpaceStart / pageBytes + 2)).nx = false ∧
    (execMapped.leaf 1 (userSpaceStart / pageBytes)).cow = true ∧
      ∀ root v, ¬((execMapped.leaf root v).nx = false ∧
        ((execMapped.leaf root v).write = true ∨ (execMapped.leaf root v).cow = true)) :=
  ⟨by decide +kernel, by decide +kernel,
    never_writable_and_executable (Lib.System.replay_reachable (.init smallMachine_initial) _)⟩

end PlantOS.Mm

import Mathlib.Data.List.Induction
import Mathlib.Data.List.TakeWhile
import PlantOS.Lib.IntrusiveQueue

/-!
# Lists whose nodes point back at what points to them

The head of a list lives in its owner, the successor of a node in the node, and every node knows the cell that
points to it: the head of its list or the successor of the node before it. A node is taken out without knowing
its list. All lists share the links, and a node is in at most one list.
-/

namespace PlantOS.Lib.HeadedList

open Function (update update_apply update_of_ne update_self)
open List (append_assoc append_nil mem_append mem_append_left mem_append_right mem_cons mem_of_getLast? mem_of_head?
    nodup_append nodup_cons)

open IntrusiveQueue (append_eq_split)

variable {η ν : Type*}

/-- The heads and the links of all lists. -/
structure Links (η ν : Type*) where
  head : η → Option ν
  next : ν → Option ν
  prev : ν → Option (η ⊕ ν)

/-- The cell that points behind the nodes `a` of the list `h`. -/
def cell (h : η) (a : List ν) : η ⊕ ν :=
  match a.getLast? with
  | none => .inl h
  | some p => .inr p

/-- The list of `h` is `l`. -/
structure IsList (L : Links η ν) (h : η) (l : List ν) : Prop where
  nodup : l.Nodup
  head : L.head h = l.head?
  prev : ∀ a x b, l = a ++ x :: b → L.prev x = some (cell h a)
  next : ∀ a x b, l = a ++ x :: b → L.next x = b.head?

/-- The lists are `lists`, and their nodes are those that something points to. -/
structure IsLists (L : Links η ν) (lists : η → List ν) : Prop where
  isList : ∀ h, IsList L h (lists h)
  linked : ∀ x, (L.prev x).isSome ↔ ∃ h, x ∈ lists h

@[simp] lemma cell_nil (h : η) : cell h ([] : List ν) = .inl h := rfl

@[simp] lemma cell_concat (h : η) (a : List ν) (x : ν) : cell h (a ++ [x]) = .inr x := by simp [cell]

lemma cell_append_cons (h : η) (a : List ν) (x : ν) (b : List ν) : cell h (a ++ x :: b) = cell h (x :: b) := by
  simp only [cell, List.getLast?_append, List.getLast?_cons]
  rfl

lemma cell_cons_cons (h : η) (x y : ν) (b : List ν) : cell h (x :: y :: b) = cell h (y :: b) :=
  cell_append_cons h [x] y b

lemma cell_eq_inl {h h' : η} {a : List ν} : cell h a = .inl h' ↔ a = [] ∧ h = h' := by
  unfold cell
  cases ha : a.getLast? with
  | none => simp [List.getLast?_eq_none_iff.mp ha]
  | some p =>
    have hne : a ≠ [] := by
      rintro rfl
      cases ha
    simp [hne]

lemma cell_eq_inr {h : η} {a : List ν} {x : ν} : cell h a = .inr x ↔ a.getLast? = some x := by
  unfold cell
  cases a.getLast? <;> simp

namespace IsList

variable {L : Links η ν} {h : η} {l : List ν} {x : ν}

/-- **Frame.** A list only reads its own head and the links of its own nodes. -/
theorem congr {L' : Links η ν} (hl : IsList L h l) (hhead : L'.head h = L.head h)
    (hnext : ∀ x ∈ l, L'.next x = L.next x) (hprev : ∀ x ∈ l, L'.prev x = L.prev x) : IsList L' h l where
  nodup := hl.nodup
  head := hhead.trans hl.head
  prev a x b e := by rw [hprev x (by simp [e]), hl.prev a x b e]
  next a x b e := by rw [hnext x (by simp [e]), hl.next a x b e]

end IsList

namespace IsLists

variable {L : Links η ν} {lists : η → List ν} {x : ν} {h h' : η}

/-- **A node is in one list only.** -/
theorem unique (hL : IsLists L lists) (hx : x ∈ lists h) (hx' : x ∈ lists h') : h = h' := by
  -- the first node of the list of `h` decides, the others follow their predecessors
  have hwalk : ∀ a b, lists h = a ++ b → (∃ y ∈ a, y ∈ lists h') → h = h' := by
    intro a
    induction a using List.reverseRecOn with
    | nil => exact fun b _ ⟨y, hy, _⟩ => absurd hy (List.not_mem_nil)
    | append_singleton a y ih =>
      rintro b hb ⟨z, hz, hz'⟩
      rw [append_assoc, List.singleton_append] at hb
      rcases mem_append.mp hz with hz | hz
      · exact ih (y :: b) hb ⟨z, hz, hz'⟩
      · obtain rfl := List.mem_singleton.mp hz
        have hprev := (hL.isList h).prev a z b hb
        obtain ⟨a', b', hb'⟩ := List.append_of_mem hz'
        have hprev' := (hL.isList h').prev a' z b' hb'
        have hcell : cell h a = cell h' a' := Option.some.inj (hprev.symm.trans hprev')
        cases hlast : a.getLast? with
        | none =>
          obtain rfl := List.getLast?_eq_none_iff.mp hlast
          exact (cell_eq_inl.mp hcell.symm).2.symm
        | some p =>
          rw [cell_eq_inr.mpr hlast] at hcell
          refine ih (z :: b) hb ⟨p, mem_of_getLast? hlast, ?_⟩
          rw [hb']
          exact mem_append_left _ (mem_of_getLast? (cell_eq_inr.mp hcell.symm))
  exact hwalk (lists h) [] (append_nil _).symm ⟨x, hx, hx'⟩

lemma prev_eq_none (hL : IsLists L lists) (hx : ∀ h, x ∉ lists h) : L.prev x = none := by
  by_contra hne
  obtain ⟨h, hmem⟩ := (hL.linked x).mp (Option.isSome_iff_ne_none.mpr hne)
  exact hx h hmem

end IsLists

section Ops

variable [DecidableEq ν] (L : Links η ν)

def setPrev (x : Option ν) (c : Option (η ⊕ ν)) : Links η ν :=
  match x with
  | some n => { L with prev := update L.prev n c }
  | none => L

variable {L} in
@[simp] lemma setPrev_head (y : Option ν) (c : Option (η ⊕ ν)) : (setPrev L y c).head = L.head := by
  cases y <;> rfl

variable {L} in
@[simp] lemma setPrev_next (y : Option ν) (c : Option (η ⊕ ν)) : (setPrev L y c).next = L.next := by
  cases y <;> rfl

variable {L} in
@[simp] lemma setPrev_prev (y : Option ν) (c : Option (η ⊕ ν)) (z : ν) :
    (setPrev L y c).prev z = if y = some z then c else L.prev z := by
  cases y <;> simp [setPrev, update_apply, eq_comm]

variable [DecidableEq η]

def setCell (c : η ⊕ ν) (x : Option ν) : Links η ν :=
  match c with
  | .inl h => { L with head := update L.head h x }
  | .inr p => { L with next := update L.next p x }

def unlink (x : ν) : Links η ν :=
  match L.prev x with
  | none => L
  | some c =>
    let L₁ := setCell L c (L.next x)
    let L₂ := setPrev L₁ (L₁.next x) (L₁.prev x)
    { L₂ with next := update L₂.next x none, prev := update L₂.prev x none }

/-- Put the node in front of the list of `h`. -/
def pushFront (h : η) (x : ν) : Links η ν :=
  let L₁ : Links η ν :=
    { L with next := update L.next x (L.head h), prev := update L.prev x (some (.inl h)) }
  let L₂ := setPrev L₁ (L₁.next x) (some (.inr x))
  { L₂ with head := update L₂.head h (some x) }

variable {L} {lists : η → List ν} {x : ν} {h : η}

/-! ### What the operations write -/

@[simp] lemma setCell_head (c : η ⊕ ν) (y : Option ν) (k : η) :
    (setCell L c y).head k = if c = .inl k then y else L.head k := by
  cases c <;> simp [setCell, update_apply, eq_comm]

@[simp] lemma setCell_next (c : η ⊕ ν) (y : Option ν) (z : ν) :
    (setCell L c y).next z = if c = .inr z then y else L.next z := by
  cases c <;> simp [setCell, update_apply, eq_comm]

@[simp] lemma setCell_prev (c : η ⊕ ν) (y : Option ν) : (setCell L c y).prev = L.prev := by
  cases c <;> rfl

section

variable {c : η ⊕ ν} (hx : L.prev x = some c)

include hx

lemma unlink_head (k : η) : (unlink L x).head k = if c = .inl k then L.next x else L.head k := by
  simp [unlink, hx]

lemma unlink_next (z : ν) : (unlink L x).next z =
    if z = x then none else if c = .inr z then L.next x else L.next z := by
  simp [unlink, hx, update_apply]

lemma unlink_prev (hne : c ≠ .inr x) (z : ν) : (unlink L x).prev z =
    if z = x then none else if L.next x = some z then some c else L.prev z := by
  simp [unlink, hx, hne, update_apply]

end

lemma pushFront_head (k : η) : (pushFront L h x).head k = if k = h then some x else L.head k := by
  simp [pushFront, update_apply]

lemma pushFront_next (z : ν) : (pushFront L h x).next z = if z = x then L.head h else L.next z := by
  simp [pushFront, update_apply]

lemma pushFront_prev (z : ν) : (pushFront L h x).prev z =
    if L.head h = some z then some (.inr x) else if z = x then some (.inl h) else L.prev z := by
  simp [pushFront, update_apply]

/-! ### The lists behind the operations -/

/-- **Unlinking takes the node out of its list.** -/
theorem IsLists.unlink (hL : IsLists L lists) (hx : x ∈ lists h) :
    IsLists (unlink L x) (update lists h ((lists h).erase x)) := by
  obtain ⟨a, b, hl⟩ := List.append_of_mem hx
  have hlist := hL.isList h
  have hnd := hlist.nodup
  rw [hl] at hnd
  have hxa : x ∉ a := fun hmem => (nodup_append.mp hnd).2.2 _ hmem _ (List.mem_cons_self ..) rfl
  have hxb : x ∉ b := (nodup_cons.mp (nodup_append.mp hnd).2.1).1
  have hab : ∀ y ∈ a, y ∉ b := fun y hy hy' => (nodup_append.mp hnd).2.2 _ hy _ (List.mem_cons_of_mem _ hy') rfl
  have hprev := hlist.prev a x b hl
  have hnext := hlist.next a x b hl
  have hers : (lists h).erase x = a ++ b := by rw [hl, List.erase_append_right _ hxa, List.erase_cons_head]
  have hcell : cell h a ≠ .inr x := fun heq => hxa (mem_of_getLast? (cell_eq_inr.mp heq))
  refine ⟨fun k => ?_, fun z => ?_⟩
  · by_cases hk : k = h
    · subst hk
      rw [update_self, hers]
      refine ⟨?_, ?_, fun c z d hcd => ?_, fun c z d hcd => ?_⟩
      · exact hers ▸ hlist.nodup.erase x
      · rw [unlink_head hprev, hlist.head, hl, hnext]
        cases a with
        | nil => simp
        | cons y a => simp [cell_eq_inl]
      · rw [unlink_prev hprev hcell, hnext]
        rcases append_eq_split hcd with ⟨m, rfl, rfl⟩ | ⟨m, rfl, rfl⟩
        · have hz : z ∈ c ++ z :: m := by simp
          have hzx : z ≠ x := fun heq => hxa (heq ▸ hz)
          have hzb : b.head? ≠ some z := fun heq => hab z hz (mem_of_head? heq)
          rw [if_neg hzx, if_neg hzb]
          exact hlist.prev c z (m ++ x :: b) (by rw [hl]; simp)
        · have hz : z ∈ m ++ z :: d := by simp
          have hzx : z ≠ x := fun heq => hxb (heq ▸ hz)
          rw [if_neg hzx]
          cases m with
          | nil => simp
          | cons y m =>
            have hyz : y ≠ z := by
              rintro rfl
              have hnd' := (nodup_cons.mp (nodup_append.mp hnd).2.1).2
              exact (nodup_cons.mp hnd').1 (by simp)
            rw [if_neg (by simpa using hyz), hlist.prev (a ++ x :: y :: m) z d (by rw [hl]; simp), cell_append_cons,
              cell_append_cons, cell_cons_cons]
      · rw [unlink_next hprev]
        rcases append_eq_split hcd with ⟨m, rfl, rfl⟩ | ⟨m, rfl, rfl⟩
        · have hz : z ∈ c ++ z :: m := by simp
          have hzx : z ≠ x := fun heq => hxa (heq ▸ hz)
          rw [if_neg hzx, hnext]
          cases m with
          | nil => simp
          | cons y m =>
            have hlast : cell k (c ++ z :: y :: m) ≠ .inr z := by
              intro heq
              have hmem : z ∈ y :: m := by
                rw [cell_append_cons, cell_cons_cons] at heq
                exact mem_of_getLast? (cell_eq_inr.mp heq)
              have hnd' := (nodup_append.mp (nodup_append.mp hnd).1).2.1
              exact (nodup_cons.mp hnd').1 hmem
            rw [if_neg hlast, hlist.next c z (y :: m ++ x :: b) (by rw [hl]; simp)]
            rfl
        · have hz : z ∈ m ++ z :: d := by simp
          have hzx : z ≠ x := fun heq => hxb (heq ▸ hz)
          have hlast : cell k a ≠ .inr z := fun heq => hab z (mem_of_getLast? (cell_eq_inr.mp heq)) hz
          rw [if_neg hzx, if_neg hlast, hlist.next (a ++ x :: m) z d (by rw [hl]; simp)]
    · -- the other lists
      rw [update_of_ne hk]
      have hoth : ∀ z ∈ lists k, z ∉ lists h := fun z hz hz' => hk (hL.unique hz hz')
      refine (hL.isList k).congr ?_ (fun z hz => ?_) fun z hz => ?_
      · rw [unlink_head hprev, if_neg fun heq => hk (cell_eq_inl.mp heq).2.symm]
      · rw [unlink_next hprev, if_neg fun heq : z = x => hoth z hz (heq ▸ hx), if_neg]
        intro heq
        refine hoth z hz ?_
        rw [hl]
        exact mem_append_left _ (mem_of_getLast? (cell_eq_inr.mp heq))
      · rw [unlink_prev hprev hcell, if_neg fun heq : z = x => hoth z hz (heq ▸ hx), if_neg]
        intro heq
        rw [hnext] at heq
        refine hoth z hz ?_
        rw [hl]
        exact mem_append_right _ (List.mem_cons_of_mem _ (mem_of_head? heq))
  · rw [unlink_prev hprev hcell]
    by_cases hzx : z = x
    · subst hzx
      rw [if_pos rfl]
      refine ⟨nofun, fun ⟨k, hk⟩ => ?_⟩
      by_cases hkh : k = h
      · subst hkh
        rw [update_self] at hk
        exact absurd hk (hlist.nodup.not_mem_erase)
      · rw [update_of_ne hkh] at hk
        exact absurd (hL.unique hk hx) hkh
    · rw [if_neg hzx]
      have hlink : (if L.next x = some z then some (cell h a) else L.prev z).isSome ↔ ∃ k, z ∈ lists k := by
        split
        case isTrue heq =>
          rw [hnext] at heq
          refine ⟨fun _ => ⟨h, ?_⟩, fun _ => rfl⟩
          rw [hl]
          exact mem_append_right _ (List.mem_cons_of_mem _ (mem_of_head? heq))
        · exact hL.linked z
      rw [hlink]
      refine exists_congr fun k => ?_
      by_cases hkh : k = h
      · subst hkh
        rw [update_self, List.mem_erase_of_ne hzx]
      · rw [update_of_ne hkh]

/-- **A node that is in no list is put in front of one.** -/
theorem IsLists.pushFront (hL : IsLists L lists) (hx : L.prev x = none) (h : η) :
    IsLists (pushFront L h x) (update lists h (x :: lists h)) := by
  have hlist := hL.isList h
  have hfree : ∀ k, x ∉ lists k := fun k hk => by
    have hsome := (hL.linked x).mpr ⟨k, hk⟩
    rw [hx] at hsome
    cases hsome
  have hhead : L.head h ≠ some x := fun heq => hfree h (mem_of_head? (hlist.head ▸ heq))
  refine ⟨fun k => ?_, fun z => ?_⟩
  · by_cases hk : k = h
    · subst hk
      rw [update_self]
      refine ⟨nodup_cons.mpr ⟨hfree k, hlist.nodup⟩, ?_, fun c z d hcd => ?_, fun c z d hcd => ?_⟩
      · rw [pushFront_head, if_pos rfl]
        rfl
      · rw [pushFront_prev]
        cases c with
        | nil =>
          obtain ⟨rfl, -⟩ := List.cons.inj hcd
          rw [if_neg hhead, if_pos rfl, cell_nil]
        | cons y c =>
          obtain ⟨rfl, hcd'⟩ := List.cons.inj hcd
          have hz : z ∈ lists k := by rw [show lists k = c ++ z :: d from hcd']; simp
          have hzx : z ≠ x := fun heq => hfree k (heq ▸ hz)
          cases c with
          | nil =>
            rw [hlist.head, show lists k = z :: d from hcd', List.head?_cons, if_pos rfl]
            rfl
          | cons w c =>
            have hwz : L.head k ≠ some z := by
              rw [hlist.head, show lists k = w :: (c ++ z :: d) from hcd']
              intro heq
              have hwz : w = z := by simpa using heq
              have hnd := hlist.nodup
              rw [show lists k = w :: (c ++ z :: d) from hcd', hwz] at hnd
              exact (nodup_cons.mp hnd).1 (by simp)
            rw [if_neg hwz, if_neg hzx, hlist.prev (w :: c) z d hcd', cell_cons_cons]
      · rw [pushFront_next]
        cases c with
        | nil =>
          obtain ⟨rfl, rfl⟩ := List.cons.inj hcd
          rw [if_pos rfl, hlist.head]
        | cons y c =>
          obtain ⟨rfl, hcd'⟩ := List.cons.inj hcd
          have hz : z ∈ lists k := by rw [show lists k = c ++ z :: d from hcd']; simp
          have hzx : z ≠ x := fun heq => hfree k (heq ▸ hz)
          rw [if_neg hzx, hlist.next c z d hcd']
    · rw [update_of_ne hk]
      have hoth : ∀ z ∈ lists k, z ≠ x ∧ L.head h ≠ some z := fun z hz =>
        ⟨fun heq => hfree k (heq ▸ hz), fun heq => hk (hL.unique hz (mem_of_head? (hlist.head ▸ heq)))⟩
      refine (hL.isList k).congr ?_ (fun z hz => ?_) fun z hz => ?_
      · rw [pushFront_head, if_neg hk]
      · rw [pushFront_next, if_neg (hoth z hz).1]
      · rw [pushFront_prev, if_neg (hoth z hz).2, if_neg (hoth z hz).1]
  · rw [pushFront_prev]
    by_cases hzx : z = x
    · subst hzx
      rw [if_neg hhead, if_pos rfl]
      exact ⟨fun _ => ⟨h, by simp⟩, fun _ => rfl⟩
    · have hlink : (if L.head h = some z then some (.inr x) else if z = x then some (.inl h) else L.prev z).isSome ↔
          ∃ k, z ∈ lists k := by
        split
        case isTrue heq => exact ⟨fun _ => ⟨h, mem_of_head? (hlist.head ▸ heq)⟩, fun _ => rfl⟩
        · exact hL.linked z
      rw [hlink]
      refine exists_congr fun k => ?_
      by_cases hkh : k = h
      · subst hkh
        rw [update_self, mem_cons, or_iff_right hzx]
      · rw [update_of_ne hkh]

/-! ### Taking a node out but for its own successor, and putting one anywhere -/

def Links.read (L : Links η ν) : η ⊕ ν → Option ν
  | .inl h => L.head h
  | .inr p => L.next p

variable (L) in
def detach (x : ν) : Links η ν :=
  match L.prev x with
  | none => L
  | some c =>
    let L₁ := setCell L c (L.next x)
    let L₂ := setPrev L₁ (L₁.next x) (L₁.prev x)
    { L₂ with prev := update L₂.prev x none }

variable (L) in
def insertAt (c : η ⊕ ν) (x : ν) : Links η ν :=
  let L₁ : Links η ν :=
    { L with next := update L.next x (L.read c), prev := update L.prev x (some c) }
  setCell (setPrev L₁ (L.read c) (some (.inr x))) c (some x)

lemma detach_of_none (hx : L.prev x = none) : detach L x = L := by
  unfold detach
  rw [hx]

theorem IsLists.detach (hL : IsLists L lists) (hx : x ∈ lists h) :
    IsLists (detach L x) (update lists h ((lists h).erase x)) := by
  have hunl := hL.unlink hx
  obtain ⟨c, hc⟩ := Option.isSome_iff_exists.mp ((hL.linked x).mpr ⟨h, hx⟩)
  have hhead : (HeadedList.detach L x).head = (HeadedList.unlink L x).head := by
    simp [HeadedList.detach, HeadedList.unlink, hc]
  have hprev : (HeadedList.detach L x).prev = (HeadedList.unlink L x).prev := by
    simp [HeadedList.detach, HeadedList.unlink, hc]
  have hnext : ∀ z, z ≠ x → (HeadedList.detach L x).next z = (HeadedList.unlink L x).next z := by
    intro z hz
    simp [HeadedList.detach, HeadedList.unlink, hc, hz]
  have hgone : ∀ k, x ∉ update lists h ((lists h).erase x) k := by
    intro k hk
    have hsome := (hunl.linked x).mpr ⟨k, hk⟩
    simp [HeadedList.unlink, hc] at hsome
  refine ⟨fun k => ?_, fun z => by rw [hprev, hunl.linked]⟩
  refine (hunl.isList k).congr (congrFun hhead k) (fun z hz => hnext z ?_) fun z _ => congrFun hprev z
  rintro rfl
  exact hgone k hz

theorem IsLists.detach_erase (hL : IsLists L lists) (x : ν) :
    IsLists (HeadedList.detach L x) fun k => (lists k).erase x := by
  by_cases hx : ∃ h, x ∈ lists h
  · obtain ⟨h, hx⟩ := hx
    have hsame : (fun k => (lists k).erase x) = update lists h ((lists h).erase x) := by
      funext k
      by_cases hk : k = h
      · rw [hk, update_self]
      · rw [update_of_ne hk, List.erase_of_not_mem fun hmem => hk (hL.unique hmem hx)]
    rw [hsame]
    exact hL.detach hx
  · rw [not_exists] at hx
    rw [detach_of_none (hL.prev_eq_none hx), show (fun k => (lists k).erase x) = lists from
      funext fun k => List.erase_of_not_mem (hx k)]
    exact hL

lemma insertAt_head (c : η ⊕ ν) (k : η) : (insertAt L c x).head k = if c = .inl k then some x else L.head k := by
  simp [insertAt]

lemma insertAt_next {c : η ⊕ ν} (z : ν) :
    (insertAt L c x).next z = if c = .inr z then some x else if z = x then L.read c else L.next z := by
  simp [insertAt, update_apply]

lemma insertAt_prev {c : η ⊕ ν} (z : ν) :
    (insertAt L c x).prev z = if L.read c = some z then some (.inr x) else if z = x then some c else L.prev z := by
  simp [insertAt, update_apply]

omit [DecidableEq ν] [DecidableEq η] in
lemma IsList.read {a b : List ν} (hl : IsList L h (a ++ b)) : L.read (cell h a) = b.head? := by
  rcases List.eq_nil_or_concat a with rfl | ⟨a, p, rfl⟩
  · rw [cell_nil]
    exact hl.head
  · rw [List.concat_eq_append] at hl ⊢
    rw [cell_concat]
    exact hl.next a p b (by simp)

/-- **A node that is in no list is put anywhere in one.** -/
theorem IsLists.insertAt (hL : IsLists L lists) (hx : L.prev x = none) {a b : List ν} (hl : lists h = a ++ b) :
    IsLists (insertAt L (cell h a) x) (update lists h (a ++ x :: b)) := by
  have hlist := hL.isList h
  have hfree : ∀ k, x ∉ lists k := fun k hk => by
    have hsome := (hL.linked x).mpr ⟨k, hk⟩
    rw [hx] at hsome
    cases hsome
  have hread : L.read (cell h a) = b.head? := (hl ▸ hlist).read
  have hnd : (a ++ b).Nodup := hl ▸ hlist.nodup
  have hxa : x ∉ a := fun hmem => hfree h (by rw [hl]; exact mem_append_left _ hmem)
  have hxb : x ∉ b := fun hmem => hfree h (by rw [hl]; exact mem_append_right _ hmem)
  have hab : ∀ y ∈ a, y ∉ b := fun y hy hy' => (nodup_append.mp hnd).2.2 _ hy _ hy' rfl
  have hcell : ∀ z, cell h a = .inr z → z ∈ a := fun z heq => mem_of_getLast? (cell_eq_inr.mp heq)
  refine ⟨fun k => ?_, fun z => ?_⟩
  · by_cases hk : k = h
    · subst hk
      rw [update_self]
      refine ⟨?_, ?_, fun c z d hcd => ?_, fun c z d hcd => ?_⟩
      · refine nodup_append.mpr ⟨(nodup_append.mp hnd).1,
          nodup_cons.mpr ⟨hxb, (nodup_append.mp hnd).2.1⟩, fun y hy z hz heq => ?_⟩
        rcases mem_cons.mp hz with rfl | hz
        · exact hxa (heq ▸ hy)
        · exact hab y hy (heq ▸ hz)
      · rw [insertAt_head, hlist.head, hl]
        cases a with
        | nil => simp
        | cons y a => simp [cell_eq_inl]
      · rw [insertAt_prev, hread]
        rcases append_eq_split hcd with ⟨m, rfl, rfl⟩ | ⟨m, hm, rfl⟩
        · have hz : z ∈ c ++ z :: m := by simp
          have hzx : z ≠ x := fun heq => hxa (heq ▸ hz)
          rw [if_neg fun heq => hab z hz (mem_of_head? heq), if_neg hzx]
          exact hlist.prev c z (m ++ b) (by rw [hl]; simp)
        · cases m with
          | nil =>
            obtain ⟨rfl, rfl⟩ := List.cons.inj hm
            rw [if_neg fun heq => hxb (mem_of_head? heq), if_pos rfl, append_nil]
          | cons y m =>
            obtain ⟨rfl, rfl⟩ := List.cons.inj hm
            have hzx : z ≠ x := fun heq => hxb (by simp [← heq])
            cases m with
            | nil => simp
            | cons y m =>
              have hyz : y ≠ z := by
                rintro rfl
                exact (nodup_cons.mp (nodup_append.mp hnd).2.1).1 (by simp)
              rw [if_neg (by simpa using hyz), if_neg hzx, hlist.prev (a ++ y :: m) z d (by rw [hl]; simp),
                cell_append_cons, cell_append_cons, cell_cons_cons]
      · rw [insertAt_next, hread]
        rcases append_eq_split hcd with ⟨m, rfl, rfl⟩ | ⟨m, hm, rfl⟩
        · have hz : z ∈ c ++ z :: m := by simp
          have hzx : z ≠ x := fun heq => hxa (heq ▸ hz)
          rw [if_neg hzx]
          cases m with
          | nil => simp
          | cons y m =>
            have hlast : cell k (c ++ z :: y :: m) ≠ .inr z := by
              intro heq
              rw [cell_append_cons, cell_cons_cons] at heq
              have hmem : z ∈ y :: m := mem_of_getLast? (cell_eq_inr.mp heq)
              exact (nodup_cons.mp (nodup_append.mp (nodup_append.mp hnd).1).2.1).1 hmem
            rw [if_neg hlast, hlist.next c z (y :: m ++ b) (by rw [hl]; simp)]
            rfl
        · cases m with
          | nil =>
            obtain ⟨rfl, rfl⟩ := List.cons.inj hm
            rw [if_neg fun heq => hxa (hcell x heq), if_pos rfl]
          | cons y m =>
            obtain ⟨rfl, rfl⟩ := List.cons.inj hm
            have hz : z ∈ m ++ z :: d := by simp
            have hzx : z ≠ x := fun heq => hxb (heq ▸ hz)
            rw [if_neg fun heq => hab z (hcell z heq) hz, if_neg hzx, hlist.next (a ++ m) z d (by rw [hl]; simp)]
    · -- the other lists
      rw [update_of_ne hk]
      have hoth : ∀ z ∈ lists k, z ≠ x ∧ z ∉ a ∧ z ∉ b := fun z hz =>
        ⟨fun heq => hfree k (heq ▸ hz), fun hmem => hk (hL.unique hz (by rw [hl]; exact mem_append_left _ hmem)),
          fun hmem => hk (hL.unique hz (by rw [hl]; exact mem_append_right _ hmem))⟩
      refine (hL.isList k).congr ?_ (fun z hz => ?_) fun z hz => ?_
      · rw [insertAt_head, if_neg fun heq => hk (cell_eq_inl.mp heq).2.symm]
      · rw [insertAt_next, if_neg fun heq => (hoth z hz).2.1 (hcell z heq), if_neg (hoth z hz).1]
      · rw [insertAt_prev, hread, if_neg fun heq => (hoth z hz).2.2 (mem_of_head? heq), if_neg (hoth z hz).1]
  · rw [insertAt_prev, hread]
    by_cases hzx : z = x
    · subst hzx
      rw [if_neg fun heq => hxb (mem_of_head? heq), if_pos rfl]
      exact ⟨fun _ => ⟨h, by simp⟩, fun _ => rfl⟩
    · have hlink : (if b.head? = some z then some (.inr x) else if z = x then some (cell h a) else L.prev z).isSome ↔
          ∃ k, z ∈ lists k := by
        split
        case isTrue heq =>
          refine ⟨fun _ => ⟨h, ?_⟩, fun _ => rfl⟩
          rw [hl]
          exact mem_append_right _ (mem_of_head? heq)
        · exact hL.linked z
      rw [hlink]
      refine exists_congr fun k => ?_
      by_cases hkh : k = h
      · subst hkh
        rw [update_self, hl, mem_append, mem_append, mem_cons, or_iff_right hzx]
      · rw [update_of_ne hkh]

/-- **The lists without some nodes**, wherever they were -/
theorem IsLists.detach_all (hL : IsLists L lists) (nodes : List ν) {p : ν → Bool}
    (hp : ∀ k, ∀ x ∈ lists k, p x = true ↔ x ∉ nodes) :
    IsLists (nodes.foldl (fun L x => HeadedList.detach L x) L) fun k => (lists k).filter p := by
  induction nodes generalizing L lists with
  | nil =>
    have hsame : (fun k => (lists k).filter p) = lists := funext fun k =>
      List.filter_eq_self.mpr fun x hx => (hp k x hx).mpr List.not_mem_nil
    rw [hsame]
    exact hL
  | cons x nodes ih =>
    have hsame : (fun k => (lists k).filter p) = fun k => ((lists k).erase x).filter p := by
      funext k
      rw [(hL.isList k).nodup.erase_eq_filter, List.filter_filter]
      refine List.filter_congr fun y hy => ?_
      by_cases hyx : y = x
      · have hno : p y = false := by
          rw [← Bool.not_eq_true, hp k y hy, hyx, not_not]
          exact List.mem_cons_self
        rw [hno, Bool.false_and]
      · simp [hyx]
    rw [hsame, List.foldl_cons]
    refine ih (hL.detach_erase x) fun k y hy => ?_
    obtain ⟨hyx, hy⟩ := (hL.isList k).nodup.mem_erase_iff.mp hy
    rw [hp k y hy, mem_cons, or_iff_right hyx]

omit [DecidableEq ν] [DecidableEq η] in
theorem IsLists.clear (hL : IsLists L lists) (p : ν → Bool) (hp : ∀ x, p x = true → L.prev x = none) :
    IsLists { L with next := fun x => if p x then none else L.next x, prev := fun x => if p x then none else L.prev x }
      lists := by
  have hin : ∀ k, ∀ x ∈ lists k, ¬p x = true := fun k x hx hpx => by
    have hsome := (hL.linked x).mpr ⟨k, hx⟩
    rw [hp x hpx] at hsome
    cases hsome
  refine ⟨fun k => (hL.isList k).congr rfl (fun x hx => if_neg (hin k x hx)) fun x hx => if_neg (hin k x hx), fun x => ?_⟩
  dsimp only
  split
  · rename_i hpx
    exact ⟨nofun, fun ⟨k, hk⟩ => absurd hpx (hin k x hk)⟩
  · exact hL.linked x

/-! ### Sorted lists -/

/-- The cell behind the nodes at the front of a list that meet the condition -/
def seek (L : Links η ν) (p : ν → Bool) : ℕ → η ⊕ ν → η ⊕ ν
  | 0, position => position
  | fuel + 1, position =>
    match L.read position with
    | none => position
    | some x => if p x then seek L p fuel (.inr x) else position

omit [DecidableEq ν] [DecidableEq η] in
lemma IsList.seek (p : ν → Bool) (fuel : ℕ) {a c : List ν} (hlist : IsList L h (a ++ c)) (hfuel : c.length ≤ fuel) :
    HeadedList.seek L p fuel (cell h a) = cell h (a ++ c.takeWhile p) := by
  induction c generalizing a fuel with
  | nil =>
    rw [List.takeWhile_nil, append_nil]
    cases fuel with
    | zero => rfl
    | succ fuel =>
      unfold HeadedList.seek
      rw [hlist.read]
      rfl
  | cons x c ih =>
    cases fuel with
    | zero => cases hfuel
    | succ fuel =>
      unfold HeadedList.seek
      rw [hlist.read, List.head?_cons]
      dsimp only
      split
      · rename_i hx
        have hnext := ih (a := a ++ [x]) fuel (by rwa [append_assoc, List.singleton_append])
          (Nat.le_of_succ_le_succ hfuel)
        rw [cell_concat] at hnext
        rw [hnext, List.takeWhile_cons_of_pos hx, append_assoc, List.singleton_append]
      · rename_i hx
        rw [List.takeWhile_cons_of_neg hx, append_nil]

end Ops

lemma pairwise_insert {α : Type*} (key : α → ℕ) {l : List α} (hsort : l.Pairwise fun x y => key x ≤ key y) (t : α) :
    ((l.takeWhile fun x => decide (key x ≤ key t)) ++ t :: l.dropWhile fun x => decide (key x ≤ key t)).Pairwise
      fun x y => key x ≤ key y := by
  have hbef : ∀ x ∈ l.takeWhile fun x => decide (key x ≤ key t), key x ≤ key t := fun x hx => by
    simpa using List.mem_takeWhile_imp hx
  have hrest := hsort.sublist (List.dropWhile_sublist fun x => decide (key x ≤ key t))
  have haft : ∀ y ∈ l.dropWhile fun x => decide (key x ≤ key t), key t ≤ key y := by
    have hhead := List.head?_dropWhile_not (fun x => decide (key x ≤ key t)) l
    cases hdrop : l.dropWhile fun x => decide (key x ≤ key t) with
    | nil => nofun
    | cons y b =>
      rw [hdrop] at hhead hrest
      have hy : key t ≤ key y := by
        have hnot : ¬key y ≤ key t := by simpa using hhead
        omega
      intro z hz
      rcases mem_cons.mp hz with rfl | hz
      · exact hy
      · exact hy.trans ((List.pairwise_cons.mp hrest).1 z hz)
  refine List.pairwise_append.mpr ⟨hsort.sublist (List.takeWhile_sublist _),
    List.pairwise_cons.mpr ⟨haft, hrest⟩, fun x hx y hy => ?_⟩
  rcases mem_cons.mp hy with rfl | hy
  · exact hbef x hx
  · exact (hbef x hx).trans (haft y hy)

end PlantOS.Lib.HeadedList

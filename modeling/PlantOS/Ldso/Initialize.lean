import Mathlib.Algebra.GroupWithZero.Nat
import Mathlib.Algebra.Order.BigOperators.Group.Finset
import PlantOS.Lib.Run

/-!
# Constructors and destructors

`initialize_object_tree` and `finalize` of `ldso/link.c`, with the loading of further objects by `load_runtime_object`. An
object is its place in the list of the linker. The calls of `initialize_object_tree` that have not returned are a list,
the innermost one first: between two steps of a call the program's own code can run, and make another call. A failed load
changes nothing, and an initializer that is not executable ends the process: neither is an event.
-/

namespace PlantOS.Ldso.Initialize

open Lib

inductive ObjectState
  | new | visiting | initialized
  deriving DecidableEq, Repr

inductive Phase
  | walking | preinit | constructor
  deriving DecidableEq, Repr

/-- A call of `initialize_object_tree`. -/
structure Search where
  /-- the frames below `depth`, the last one first: an object, and the index of the next dependency -/
  stack : List (ℕ × ℕ)
  /-- the frames that `stack` was allocated for -/
  capacity : ℕ
  phase : Phase

/-- `linker`, and the calls. -/
structure LinkerState where
  count : ℕ
  dependencies : ℕ → List ℕ
  state : ℕ → ObjectState
  /-- `linker.initialized` below `initialized_count` -/
  initialized : List ℕ
  initializedCapacity : ℕ
  searches : List Search
  /-- `finalize` has been called. -/
  finalizing : Bool
  /-- the objects whose destructors have run, in this order -/
  destroyed : List ℕ
  /-- the objects that have been initialised, in this order -/
  order : List ℕ
  /-- the objects that calls were for -/
  roots : List ℕ
  /-- the calls by constructors: whose constructor it was, and the object of the call -/
  opens : List (ℕ × ℕ)
  /-- the objects that were being visited when the process called `exit` -/
  abandoned : List ℕ

namespace LinkerState

variable (s : LinkerState)

def frames : List (ℕ × ℕ) := s.searches.flatMap Search.stack

/-- The program's code runs: outside of all calls, or in a constructor. -/
def inUserCode : Bool :=
  match s.searches with
  | [] => true
  | search :: _ => search.phase ≠ .walking

/-- The objects that are loaded are new ones at the end of the list; `load_runtime_object` makes room for them in
`linker.initialized`. -/
def load (new : List (List ℕ)) : LinkerState :=
  { s with
    count := s.count + new.length
    dependencies := fun u => if u < s.count then s.dependencies u else new.getD (u - s.count) []
    initializedCapacity :=
      if s.count + new.length > s.initializedCapacity then s.count + new.length else s.initializedCapacity }

/-- `initialize_object_tree` up to its loop -/
def initializeObjectTree (root : ℕ) : LinkerState :=
  if s.state root ≠ .new then { s with roots := root :: s.roots }
  else
    { s with
      state := Function.update s.state root .visiting
      searches := ⟨[(root, 0)], s.count, if root = 0 then .preinit else .walking⟩ :: s.searches
      roots := root :: s.roots
      opens := (s.frames.head?.toList.map fun frame => (frame.1, root)) ++ s.opens }

/-- One pass of the loop of the innermost call, or its return -/
def advance : Option LinkerState :=
  match s.searches with
  | ⟨(object, dependency) :: stack, capacity, .walking⟩ :: rest =>
    match (s.dependencies object)[dependency]? with
    | some next =>
      if s.state next = .new then
        some { s with
          state := Function.update s.state next .visiting
          searches := ⟨(next, 0) :: (object, dependency + 1) :: stack, capacity, .walking⟩ :: rest }
      else some { s with searches := ⟨(object, dependency + 1) :: stack, capacity, .walking⟩ :: rest }
    | none =>
      some { s with
        state := Function.update s.state object .initialized
        initialized := s.initialized ++ [object]
        order := s.order ++ [object]
        searches := ⟨(object, dependency) :: stack, capacity, .constructor⟩ :: rest }
  | ⟨[], _, .walking⟩ :: rest => some { s with searches := rest }
  | _ => none

def resume : Option LinkerState :=
  match s.searches with
  | ⟨stack, capacity, .preinit⟩ :: rest => some { s with searches := ⟨stack, capacity, .walking⟩ :: rest }
  | ⟨_ :: stack, capacity, .constructor⟩ :: rest => some { s with searches := ⟨stack, capacity, .walking⟩ :: rest }
  | _ => none

/-- The process calls `exit`: no call returns any more. -/
def exit : LinkerState :=
  { s with
    searches := []
    finalizing := true
    abandoned := s.abandoned ++ (s.frames.map Prod.fst).filter fun u => s.state u = .visiting }

/-- One pass of the loop of `finalize` -/
def destruct : Option LinkerState :=
  match s.initialized.getLast? with
  | none => none
  | some object =>
    some { s with initialized := s.initialized.dropLast, destroyed := s.destroyed ++ [object] }

end LinkerState

inductive LinkerEvent
  /-- the program's code loads objects and has one initialised -/
  | open_ (new : List (List ℕ)) (root : ℕ)
  | advance
  | resume
  | exit
  | destruct

namespace LinkerState

def step (s : LinkerState) : LinkerEvent → Option LinkerState
  | .open_ new root =>
    if s.inUserCode ∧ root < s.count + new.length ∧ ∀ dependencies ∈ new, ∀ v ∈ dependencies, v < s.count + new.length then
      some ((s.load new).initializeObjectTree root)
    else none
  | .advance => s.advance
  | .resume => s.resume
  | .exit => if s.inUserCode then some s.exit else none
  | .destruct => if s.finalizing ∧ s.searches.isEmpty then s.destruct else none

structure Init (s : LinkerState) : Prop where
  bounded : ∀ u, ∀ v ∈ s.dependencies u, v < s.count
  outside : ∀ u, s.count ≤ u → s.dependencies u = []
  state : s.state = fun _ => .new
  initialized : s.initialized = []
  initializedCapacity : s.initializedCapacity = s.count
  searches : s.searches = []
  finalizing : s.finalizing = false
  destroyed : s.destroyed = []
  order : s.order = []
  roots : s.roots = []
  opens : s.opens = []
  abandoned : s.abandoned = []

/-- The second object is a dependency of the first one, or is opened by its constructor. -/
def Edge (s : LinkerState) (x y : ℕ) : Prop := y ∈ s.dependencies x ∨ (x, y) ∈ s.opens

def Reach (s : LinkerState) : ℕ → ℕ → Prop := Relation.ReflTransGen s.Edge

def Needs (s : LinkerState) : ℕ → ℕ → Prop := Relation.ReflTransGen fun x y => y ∈ s.dependencies x

end LinkerState

/-- `v` stands before `u`. -/
def Before (order : List ℕ) (v u : ℕ) : Prop := ∃ a b, order = a ++ u :: b ∧ v ∈ a

def linkerSystem : System LinkerState LinkerEvent := ⟨LinkerState.Init, LinkerState.step⟩

/-! ## The order of constructors and destructors -/

open List (cons_append cons_ne_nil map_cons mem_append mem_append_left mem_append_right mem_cons mem_cons_of_mem
    mem_cons_self mem_filter mem_map mem_singleton nodup_append nodup_cons nodup_nil not_mem_nil pairwise_cons sum_cons)
open Function (update update_of_ne update_self)

def Search.waiting (q : Search) : List (ℕ × ℕ) := if q.phase = .constructor then q.stack.tail else q.stack

lemma Search.mem_of_waiting {q : Search} {f : ℕ × ℕ} (hf : f ∈ q.waiting) : f ∈ q.stack := by
  unfold Search.waiting at hf
  split at hf
  · exact List.mem_of_mem_tail hf
  · exact hf

namespace LinkerState

variable {s s' : LinkerState}

def busy (s : LinkerState) : List ℕ := s.frames.map Prod.fst

/-- What the frames of a call, and those of all calls, fulfil. -/
structure SearchInv (s : LinkerState) (q : Search) : Prop where
  /-- the objects that were there when the call began do not need later ones -/
  capacity : q.capacity ≤ s.count
  closed : ∀ u < q.capacity, ∀ v ∈ s.dependencies u, v < q.capacity
  within : ∀ f ∈ q.stack, f.1 < q.capacity
  waiting : ∀ f ∈ q.waiting, s.state f.1 = .visiting
  done : q.phase = .constructor → ∀ f ∈ q.stack.head?, s.state f.1 = .initialized
  user : q.phase ≠ .walking → q.stack ≠ []

structure Inv (s : LinkerState) : Prop where
  bounded : ∀ u, ∀ v ∈ s.dependencies u, v < s.count
  outside : ∀ u, s.count ≤ u → s.dependencies u = []
  known : ∀ u, s.state u ≠ .new → u < s.count
  capacity : s.count ≤ s.initializedCapacity
  order : ∀ u, u ∈ s.order ↔ s.state u = .initialized
  nodup : s.order.Nodup
  alive : s.initialized = s.order.filter (· ∉ s.destroyed)
  destroyed : s.destroyed.Nodup ∧ ∀ u ∈ s.destroyed, u ∈ s.order
  running : s.finalizing = false → s.destroyed = [] ∧ s.abandoned = []
  searches : ∀ q ∈ s.searches, s.SearchInv q
  suspended : ∀ q ∈ s.searches.tail, q.phase ≠ .walking
  busy : ∀ u ∈ s.busy, s.state u ≠ .new
  once : s.busy.Nodup
  reach : s.busy.Pairwise fun a b => s.Reach b a
  progress : ∀ f ∈ s.frames, ∀ v ∈ (s.dependencies f.1).take f.2, s.state v ≠ .new
  closed : ∀ u ∈ s.order, ∀ v ∈ s.dependencies u, s.state v ≠ .new
  visiting : ∀ u, s.state u = .visiting → u ∈ s.busy ∨ u ∈ s.abandoned
  before : ∀ u ∈ s.order, ∀ v ∈ s.dependencies u, Before s.order v u ∨ s.Reach v u ∨ v ∈ s.abandoned
  roots : ∀ r ∈ s.roots, s.state r ≠ .new

lemma Init.inv (h : s.Init) : s.Inv := by
  have hbusy : s.busy = [] := by
    unfold busy frames
    rw [h.searches]
    rfl
  have hfrms : s.frames = [] := by
    unfold frames
    rw [h.searches]
    rfl
  have hst : ∀ u, s.state u = .new := fun u => by rw [h.state]
  refine ⟨h.bounded, h.outside, fun u hu => absurd (hst u) hu, Nat.le_of_eq h.initializedCapacity.symm, fun u => ?_, ?_,
    ?_, ?_, fun _ => ⟨h.destroyed, h.abandoned⟩, ?_, ?_, ?_, ?_, ?_, ?_, ?_, fun u hu => ?_, ?_, ?_⟩
  · simp [h.order, hst]
  · simp [h.order]
  · simp [h.initialized, h.order]
  · simp [h.destroyed]
  · simp [h.searches]
  · simp [h.searches]
  · simp [hbusy]
  · simp [hbusy]
  · simp [hbusy]
  · simp [hfrms]
  · simp [h.order]
  · rw [hst] at hu
    cases hu
  · simp [h.order]
  · simp [h.roots]

lemma Inv.first (h : s.Inv) {q : Search} {rest : List Search} (hsrch : s.searches = q :: rest) : s.SearchInv q :=
  h.searches q (by rw [hsrch]; exact mem_cons_self)

lemma Inv.others (h : s.Inv) {q r : Search} {rest : List Search} (hsrch : s.searches = q :: rest) (hr : r ∈ rest) :
    s.SearchInv r := h.searches r (by rw [hsrch]; exact .tail _ hr)

lemma Inv.suspended_rest (h : s.Inv) {q : Search} {rest : List Search} (hsrch : s.searches = q :: rest) :
    ∀ r ∈ rest, r.phase ≠ .walking := by
  have hsusp := h.suspended
  rw [hsrch] at hsusp
  exact hsusp

lemma Reach.mono (hedge : ∀ x y, s.Edge x y → s'.Edge x y) {x y : ℕ} (h : s.Reach x y) : s'.Reach x y :=
  Relation.ReflTransGen.mono hedge _ _ h

lemma Before.append {order : List ℕ} {v u : ℕ} (h : Before order v u) (more : List ℕ) : Before (order ++ more) v u := by
  obtain ⟨a, b, rfl, hv⟩ := h
  exact ⟨a, b ++ more, by rw [List.append_assoc, cons_append], hv⟩

/-! ### Loading -/

lemma Inv.load (h : s.Inv) {new : List (List ℕ)}
    (hnew : ∀ dependencies ∈ new, ∀ v ∈ dependencies, v < s.count + new.length) : (s.load new).Inv := by
  have hold : ∀ u < s.count, (s.load new).dependencies u = s.dependencies u := fun u hu => if_pos hu
  have hcnt : (s.load new).count = s.count + new.length := rfl
  have hedge : ∀ x y, s.Edge x y → (s.load new).Edge x y := by
    rintro x y (hdep | hopen)
    · have hx : x < s.count := by
        by_contra hout
        rw [h.outside x (by omega)] at hdep
        cases hdep
      exact .inl (by rw [hold x hx]; exact hdep)
    · exact .inr hopen
  have hord : ∀ u ∈ s.order, u < s.count := fun u hu => h.known u (by
    rw [(h.order u).mp hu]
    exact nofun)
  refine ⟨fun u v hv => ?_, fun u hu => ?_, fun u hu => ?_, ?_, h.order, h.nodup, h.alive, h.destroyed, h.running,
    fun q hq => ?_, h.suspended, h.busy, h.once, h.reach.imp fun hr => hr.mono hedge, fun f hf v hv => ?_,
    fun u hu v hv => ?_, h.visiting, fun u hu v hv => ?_, h.roots⟩
  · by_cases hu : u < s.count
    · rw [hold u hu] at hv
      have := h.bounded u v hv
      omega
    · change v ∈ (if u < s.count then s.dependencies u else new.getD (u - s.count) []) at hv
      rw [if_neg hu, List.getD_eq_getElem?_getD] at hv
      cases hlist : new[u - s.count]? with
      | none =>
        rw [hlist] at hv
        cases hv
      | some dependencies =>
        rw [hlist] at hv
        exact hnew dependencies (List.mem_of_getElem? hlist) v hv
  · have hnot : ¬u < s.count := by omega
    change (if u < s.count then s.dependencies u else new.getD (u - s.count) []) = []
    rw [if_neg hnot, List.getD_eq_getElem?_getD, List.getElem?_eq_none (by omega)]
    rfl
  · have := h.known u hu
    omega
  · change s.count + new.length ≤ if s.count + new.length > s.initializedCapacity then s.count + new.length else _
    split <;> omega
  · obtain ⟨hcap, hcls, hwin, hwait, hdone, huser⟩ := h.searches q hq
    refine ⟨by omega, fun u hu v hv => ?_, hwin, hwait, hdone, huser⟩
    rw [hold u (by omega)] at hv
    exact hcls u hu v hv
  · have hbusy : f.1 ∈ s.busy := mem_map.mpr ⟨f, hf, rfl⟩
    rw [hold _ (h.known _ (h.busy _ hbusy))] at hv
    exact h.progress f hf v hv
  · rw [hold u (hord u hu)] at hv
    exact h.closed u hu v hv
  · rw [hold u (hord u hu)] at hv
    exact (h.before u hu v hv).imp_right fun hor => hor.imp_left fun hr => hr.mono hedge

/-! ### A call -/

lemma state_visit {v : ℕ} (hv : s.state v = .new) (u : ℕ) :
    (update s.state v .visiting u ≠ .new ↔ s.state u ≠ .new ∨ u = v) ∧
    (update s.state v .visiting u = .initialized ↔ s.state u = .initialized) := by
  by_cases hu : u = v
  · subst hu
    rw [update_self]
    exact ⟨iff_of_true (by exact nofun) (.inr rfl), by rw [hv]; exact ⟨nofun, nofun⟩⟩
  · rw [update_of_ne hu]
    exact ⟨⟨.inl, fun hor => hor.resolve_right hu⟩, Iff.rfl⟩

lemma visit_visiting (v : ℕ) {u : ℕ} (hu : s.state u = .visiting) : update s.state v .visiting u = .visiting := by
  by_cases heq : u = v
  · rw [heq, update_self]
  · rw [update_of_ne heq, hu]

lemma Inv.initializeObjectTree (h : s.Inv) (huser : s.inUserCode = true) {root : ℕ} (hroot : root < s.count) :
    (s.initializeObjectTree root).Inv := by
  unfold LinkerState.initializeObjectTree
  by_cases hnew : s.state root = .new
  · rw [if_neg (fun hne => hne hnew)]
    have hst := fun u => state_visit hnew u
    -- the constructor's object has an edge to the root
    have hedge : ∀ x y, s.Edge x y → Edge { s with
        state := update s.state root .visiting
        searches := ⟨[(root, 0)], s.count, if root = 0 then .preinit else .walking⟩ :: s.searches
        roots := root :: s.roots
        opens := (s.frames.head?.toList.map fun frame => (frame.1, root)) ++ s.opens } x y := fun x y hxy =>
      hxy.imp_right fun hopen => mem_append_right _ hopen
    have hfrms : ∀ q ∈ s.searches, ∀ f ∈ q.stack, f.1 ∈ s.busy := fun q hq f hf =>
      mem_map.mpr ⟨f, List.mem_flatMap.mpr ⟨q, hq, hf⟩, rfl⟩
    refine ⟨h.bounded, h.outside, fun u hu => ?_, h.capacity, fun u => (h.order u).trans (hst u).2.symm, h.nodup, h.alive,
      h.destroyed, h.running, fun q hq => ?_, fun q hq => ?_, fun u hu => ?_, ?_, ?_, fun f hf v hv => ?_,
      fun u hu v hv => (hst v).1.mpr (.inl (h.closed u hu v hv)), fun u hu => ?_,
      fun u hu v hv => (h.before u hu v hv).imp_right fun hor => hor.imp_left fun hr => hr.mono hedge, fun r hr => ?_⟩
    · rcases (hst u).1.mp hu with hold | rfl
      · exact h.known u hold
      · exact hroot
    · rcases mem_cons.mp hq with rfl | hq
      · refine ⟨Nat.le_refl _, fun u _ v hv => h.bounded u v hv, fun f hf => ?_, fun f hf => ?_, fun hph => ?_,
          fun _ => cons_ne_nil _ _⟩
        · rw [mem_singleton.mp hf]
          exact hroot
        · rw [mem_singleton.mp (Search.mem_of_waiting hf)]
          exact update_self _ _ _
        · dsimp only at hph
          split at hph <;> cases hph
      · obtain ⟨hcap, hcls, hwin, hwait, hdone, huser⟩ := h.searches q hq
        exact ⟨hcap, hcls, hwin, fun f hf => visit_visiting _ (hwait f hf),
          fun hph f hf => (hst _).2.mpr (hdone hph f hf), huser⟩
    · -- the call from which this one is made is in the program's code
      unfold inUserCode at huser
      cases hsrch : s.searches with
      | nil =>
        dsimp only [List.tail_cons] at hq
        rw [hsrch] at hq
        cases hq
      | cons outer rest =>
        dsimp only [List.tail_cons] at hq
        rw [hsrch] at huser hq
        rcases mem_cons.mp hq with rfl | hq
        · exact of_decide_eq_true huser
        · exact h.suspended q (by rw [hsrch]; exact hq)
    · rcases mem_cons.mp hu with rfl | hu
      · exact (hst _).1.mpr (.inr rfl)
      · exact (hst u).1.mpr (.inl (h.busy u hu))
    · exact nodup_cons.mpr ⟨fun hmem => h.busy root hmem hnew, h.once⟩
    · refine pairwise_cons.mpr ⟨fun b hb => ?_, h.reach.imp fun hr => hr.mono hedge⟩
      -- from the object of the innermost frame on
      change b ∈ s.frames.map Prod.fst at hb
      obtain ⟨f, rest, hlist⟩ : ∃ f rest, s.frames = f :: rest :=
        List.exists_cons_of_ne_nil fun hnil => by
          rw [hnil] at hb
          cases hb
      have hreach := h.reach
      unfold LinkerState.busy at hreach
      rw [hlist, map_cons] at hreach hb
      have htop : s.Reach b f.1 := by
        rcases mem_cons.mp hb with rfl | hb
        · exact .refl
        · exact (pairwise_cons.mp hreach).1 b hb
      refine Relation.ReflTransGen.tail (htop.mono hedge) (.inr ?_)
      dsimp only
      rw [hlist]
      exact mem_cons_self
    · rcases mem_cons.mp hf with rfl | hf
      · cases hv
      · exact (hst v).1.mpr (.inl (h.progress f hf v hv))
    · by_cases heq : u = root
      · exact .inl (heq ▸ mem_cons_self)
      · dsimp only at hu
        rw [update_of_ne heq] at hu
        exact (h.visiting u hu).imp_left fun hmem => mem_cons_of_mem _ hmem
    · rcases mem_cons.mp hr with rfl | hr
      · exact (hst _).1.mpr (.inr rfl)
      · exact (hst r).1.mpr (.inl (h.roots r hr))
  · rw [if_pos hnew]
    refine ⟨h.bounded, h.outside, h.known, h.capacity, h.order, h.nodup, h.alive, h.destroyed, h.running, fun q hq => ?_,
      h.suspended, h.busy, h.once, h.reach, h.progress, h.closed, h.visiting, h.before, fun r hr => ?_⟩
    · exact { h.searches q hq with }
    · rcases mem_cons.mp hr with rfl | hr
      · exact hnew
      · exact h.roots r hr

/-! ### The loop -/

/-- What one pass of the loop does: a dependency is entered, or passed over, or the object is initialised, or the call
returns. -/
lemma advance_cases (h : s.advance = some s') :
    (∃ object k stack capacity rest next, s.searches = ⟨(object, k) :: stack, capacity, .walking⟩ :: rest ∧
      (s.dependencies object)[k]? = some next ∧ s.state next = .new ∧
      s' = { s with
        state := update s.state next .visiting
        searches := ⟨(next, 0) :: (object, k + 1) :: stack, capacity, .walking⟩ :: rest }) ∨
    (∃ object k stack capacity rest next, s.searches = ⟨(object, k) :: stack, capacity, .walking⟩ :: rest ∧
      (s.dependencies object)[k]? = some next ∧ s.state next ≠ .new ∧
      s' = { s with searches := ⟨(object, k + 1) :: stack, capacity, .walking⟩ :: rest }) ∨
    (∃ object k stack capacity rest, s.searches = ⟨(object, k) :: stack, capacity, .walking⟩ :: rest ∧
      (s.dependencies object)[k]? = none ∧
      s' = { s with
        state := update s.state object .initialized
        initialized := s.initialized ++ [object]
        order := s.order ++ [object]
        searches := ⟨(object, k) :: stack, capacity, .constructor⟩ :: rest }) ∨
    ∃ capacity rest, s.searches = ⟨[], capacity, .walking⟩ :: rest ∧ s' = { s with searches := rest } := by
  unfold advance at h
  split at h
  · rename_i object k stack capacity rest hsrch
    split at h
    · rename_i next hnext
      split at h
      · rename_i hnew
        exact .inl ⟨object, k, stack, capacity, rest, next, hsrch, hnext, hnew, (Option.some.inj h).symm⟩
      · rename_i hnew
        exact .inr (.inl ⟨object, k, stack, capacity, rest, next, hsrch, hnext, hnew, (Option.some.inj h).symm⟩)
    · rename_i hnone
      exact .inr (.inr (.inl ⟨object, k, stack, capacity, rest, hsrch, hnone, (Option.some.inj h).symm⟩))
  · rename_i capacity rest hsrch
    exact .inr (.inr (.inr ⟨capacity, rest, hsrch, (Option.some.inj h).symm⟩))
  · cases h

lemma frames_cons {q : Search} {rest : List Search} (h : s.searches = q :: rest) :
    s.frames = q.stack ++ rest.flatMap Search.stack := by
  unfold frames
  rw [h]
  rfl

lemma busy_cons {q : Search} {rest : List Search} (h : s.searches = q :: rest) :
    s.busy = q.stack.map Prod.fst ++ (rest.flatMap Search.stack).map Prod.fst := by
  unfold busy
  rw [frames_cons h, List.map_append]

lemma Inv.enter (h : s.Inv) {object k capacity next : ℕ} {stack : List (ℕ × ℕ)} {rest : List Search}
    (hsrch : s.searches = ⟨(object, k) :: stack, capacity, .walking⟩ :: rest)
    (hnext : (s.dependencies object)[k]? = some next) (hnew : s.state next = .new) :
    Inv { s with
      state := update s.state next .visiting
      searches := ⟨(next, 0) :: (object, k + 1) :: stack, capacity, .walking⟩ :: rest } := by
  have hst := fun u => state_visit hnew u
  have hdep : next ∈ s.dependencies object := List.mem_of_getElem? hnext
  have hbusy := busy_cons hsrch
  have hfrms := frames_cons hsrch
  have hobj : object ∈ s.busy := by
    rw [hbusy]
    exact mem_cons_self
  -- the new list of objects with frames
  have hbusy' : LinkerState.busy { s with
      state := update s.state next .visiting
      searches := ⟨(next, 0) :: (object, k + 1) :: stack, capacity, .walking⟩ :: rest } = next :: s.busy := by
    rw [hbusy]
    exact busy_cons (q := ⟨(next, 0) :: (object, k + 1) :: stack, capacity, .walking⟩) rfl
  have hfst := h.first hsrch
  refine ⟨h.bounded, h.outside, fun u hu => ?_, h.capacity, fun u => (h.order u).trans (hst u).2.symm, h.nodup, h.alive,
    h.destroyed, h.running, fun q hq => ?_, ?_, fun u hu => ?_, ?_, ?_, fun f hf v hv => ?_,
    fun u hu v hv => (hst v).1.mpr (.inl (h.closed u hu v hv)), fun u hu => ?_, h.before,
    fun r hr => (hst r).1.mpr (.inl (h.roots r hr))⟩
  · rcases (hst u).1.mp hu with hold | rfl
    · exact h.known u hold
    · exact h.bounded object _ hdep
  · rcases mem_cons.mp hq with rfl | hq
    · have hin := hfst.within (object, k) mem_cons_self
      refine ⟨hfst.capacity, hfst.closed, fun f hf => ?_, fun f hf => ?_, nofun, fun _ => cons_ne_nil _ _⟩
      · rcases mem_cons.mp hf with rfl | hf
        · exact hfst.closed object hin next hdep
        · rcases mem_cons.mp hf with rfl | hf
          · exact hin
          · exact hfst.within f (.tail _ hf)
      · rcases mem_cons.mp hf with rfl | hf
        · exact update_self _ _ _
        · rcases mem_cons.mp hf with rfl | hf
          · exact visit_visiting _ (hfst.waiting (object, k) mem_cons_self)
          · exact visit_visiting _ (hfst.waiting f (mem_cons_of_mem _ hf))
    · obtain ⟨hcap, hcls, hwin, hwait, hdone, huser⟩ := h.others hsrch hq
      exact ⟨hcap, hcls, hwin, fun f hf => visit_visiting _ (hwait f hf),
          fun hph f hf => (hst _).2.mpr (hdone hph f hf), huser⟩
  · exact h.suspended_rest hsrch
  · rw [hbusy'] at hu
    rcases mem_cons.mp hu with rfl | hu
    · exact (hst _).1.mpr (.inr rfl)
    · exact (hst u).1.mpr (.inl (h.busy u hu))
  · rw [hbusy']
    exact nodup_cons.mpr ⟨fun hmem => h.busy next hmem hnew, h.once⟩
  · rw [hbusy']
    refine pairwise_cons.mpr ⟨fun b hb => ?_, h.reach⟩
    have hreach := h.reach
    rw [hbusy, map_cons, cons_append] at hreach hb
    have htop : s.Reach b object := by
      rcases mem_cons.mp hb with rfl | hb
      · exact .refl
      · exact (pairwise_cons.mp hreach).1 b hb
    exact Relation.ReflTransGen.tail htop (.inl hdep)
  · rcases mem_cons.mp hf with rfl | hf
    · cases hv
    · rcases mem_cons.mp hf with rfl | hf
      · dsimp only at hv
        rw [List.take_add_one, hnext] at hv
        rcases mem_append.mp hv with hold | hlast
        · exact (hst v).1.mpr (.inl (h.progress (object, k) (by rw [hfrms]; exact mem_cons_self) v hold))
        · exact (hst v).1.mpr (.inr (mem_singleton.mp hlast))
      · exact (hst v).1.mpr (.inl (h.progress f (by rw [hfrms]; exact .tail _ hf) v hv))
  · rw [hbusy']
    by_cases heq : u = next
    · exact .inl (heq ▸ mem_cons_self)
    · dsimp only at hu
      rw [update_of_ne heq] at hu
      exact (h.visiting u hu).imp_left fun hmem => mem_cons_of_mem _ hmem

lemma Inv.pass (h : s.Inv) {object k capacity next : ℕ} {stack : List (ℕ × ℕ)} {rest : List Search}
    (hsrch : s.searches = ⟨(object, k) :: stack, capacity, .walking⟩ :: rest)
    (hnext : (s.dependencies object)[k]? = some next) (hold : s.state next ≠ .new) :
    Inv { s with searches := ⟨(object, k + 1) :: stack, capacity, .walking⟩ :: rest } := by
  have hfrms := frames_cons hsrch
  have hbusy' : LinkerState.busy { s with searches := ⟨(object, k + 1) :: stack, capacity, .walking⟩ :: rest } = s.busy := by
    rw [busy_cons hsrch]
    exact busy_cons (q := ⟨(object, k + 1) :: stack, capacity, .walking⟩) rfl
  have hfst := h.first hsrch
  refine ⟨h.bounded, h.outside, h.known, h.capacity, h.order, h.nodup, h.alive, h.destroyed, h.running, fun q hq => ?_, ?_,
    hbusy' ▸ h.busy, hbusy' ▸ h.once, hbusy' ▸ h.reach, fun f hf v hv => ?_, h.closed, hbusy' ▸ h.visiting, h.before,
    h.roots⟩
  · rcases mem_cons.mp hq with rfl | hq
    · refine ⟨hfst.capacity, hfst.closed, fun f hf => ?_, fun f hf => ?_, nofun, fun _ => cons_ne_nil _ _⟩
      · rcases mem_cons.mp hf with rfl | hf
        · exact hfst.within (object, k) mem_cons_self
        · exact hfst.within f (.tail _ hf)
      · rcases mem_cons.mp hf with rfl | hf
        · exact hfst.waiting (object, k) mem_cons_self
        · exact hfst.waiting f (mem_cons_of_mem _ hf)
    · exact { h.others hsrch hq with }
  · exact h.suspended_rest hsrch
  · rcases mem_cons.mp hf with rfl | hf
    · dsimp only at hv
      rw [List.take_add_one, hnext] at hv
      rcases mem_append.mp hv with hear | hlast
      · exact h.progress (object, k) (by rw [hfrms]; exact mem_cons_self) v hear
      · rw [mem_singleton.mp hlast]
        exact hold
    · exact h.progress f (by rw [hfrms]; exact .tail _ hf) v hv

lemma state_initialize {v : ℕ} (hv : s.state v = .visiting) (u : ℕ) :
    (update s.state v .initialized u ≠ .new ↔ s.state u ≠ .new) ∧
    (update s.state v .initialized u = .initialized ↔ s.state u = .initialized ∨ u = v) ∧
    (update s.state v .initialized u = .visiting ↔ s.state u = .visiting ∧ u ≠ v) := by
  by_cases hu : u = v
  · subst hu
    rw [update_self, hv]
    exact ⟨⟨fun _ => nofun, fun _ => nofun⟩, ⟨fun _ => .inr rfl, fun _ => rfl⟩, ⟨nofun, fun h => absurd rfl h.2⟩⟩
  · rw [update_of_ne hu]
    exact ⟨Iff.rfl, ⟨.inl, fun h => h.resolve_right hu⟩, ⟨fun h => ⟨h, hu⟩, fun h => h.1⟩⟩

/-- **An object is initialised.** Its dependencies are not new any more: those that are still being visited have frames,
from which the object is reached. -/
lemma Inv.complete (h : s.Inv) {object k capacity : ℕ} {stack : List (ℕ × ℕ)} {rest : List Search}
    (hsrch : s.searches = ⟨(object, k) :: stack, capacity, .walking⟩ :: rest)
    (hnone : (s.dependencies object)[k]? = none) :
    Inv { s with
      state := update s.state object .initialized
      initialized := s.initialized ++ [object]
      order := s.order ++ [object]
      searches := ⟨(object, k) :: stack, capacity, .constructor⟩ :: rest } := by
  have hbusy := busy_cons hsrch
  have hfrms := frames_cons hsrch
  have hfst := h.first hsrch
  have hvis : s.state object = .visiting := hfst.waiting (object, k) mem_cons_self
  have hst := fun u => state_initialize hvis u
  have hnot : object ∉ s.order := fun hmem => by
    rw [h.order, hvis] at hmem
    cases hmem
  have hall : ∀ v ∈ s.dependencies object, s.state v ≠ .new := fun v hv => by
    have htake : (s.dependencies object).take k = s.dependencies object :=
      List.take_of_length_le (List.getElem?_eq_none_iff.mp hnone)
    exact h.progress (object, k) (by rw [hfrms]; exact mem_cons_self) v (by rw [htake]; exact hv)
  have hbusy' : LinkerState.busy { s with
      state := update s.state object .initialized
      initialized := s.initialized ++ [object]
      order := s.order ++ [object]
      searches := ⟨(object, k) :: stack, capacity, .constructor⟩ :: rest } = s.busy := by
    rw [hbusy]
    exact busy_cons (q := ⟨(object, k) :: stack, capacity, .constructor⟩) rfl
  have honce := h.once
  have hreach := h.reach
  rw [hbusy, map_cons, cons_append] at honce hreach
  -- no other frame has the object
  have hoth : ∀ f ∈ stack ++ rest.flatMap Search.stack, f.1 ≠ object := fun f hf heq => by
    refine (nodup_cons.mp honce).1 ?_
    rw [← heq, ← List.map_append]
    exact mem_map.mpr ⟨f, hf, rfl⟩
  refine ⟨h.bounded, h.outside, fun u hu => h.known u ((hst u).1.mp hu), h.capacity, fun u => ?_, ?_, ?_, ?_, h.running,
    fun q hq => ?_, ?_, fun u hu => ?_, hbusy' ▸ h.once, hbusy' ▸ h.reach, fun f hf v hv => ?_, fun u hu v hv => ?_,
    fun u hu => ?_, fun u hu v hv => ?_, fun r hr => (hst r).1.mpr (h.roots r hr)⟩
  · dsimp only
    rw [mem_append, mem_singleton, (hst u).2.1, h.order]
  · exact nodup_append.mpr ⟨h.nodup, List.nodup_singleton _, fun a ha b hb heq =>
      hnot (mem_singleton.mp hb ▸ heq ▸ ha)⟩
  · have hdest : object ∉ s.destroyed := fun hmem => hnot (h.destroyed.2 object hmem)
    dsimp only
    rw [List.filter_append, ← h.alive, List.filter_cons_of_pos (by simpa using hdest), List.filter_nil]
  · exact ⟨h.destroyed.1, fun u hu => mem_append_left _ (h.destroyed.2 u hu)⟩
  · rcases mem_cons.mp hq with rfl | hq
    · refine ⟨hfst.capacity, hfst.closed, hfst.within, fun f hf => ?_, fun _ f hf => ?_, fun _ => cons_ne_nil _ _⟩
      · have hmem : f ∈ stack := hf
        exact (hst _).2.2.mpr ⟨hfst.waiting f (mem_cons_of_mem _ hmem), hoth f (mem_append_left _ hmem)⟩
      · cases hf
        exact update_self _ _ _
    · obtain ⟨hcap, hcls, hwin, hwait, hdone, huser⟩ := h.others hsrch hq
      refine ⟨hcap, hcls, hwin, fun f hf => (hst _).2.2.mpr ⟨hwait f hf, ?_⟩,
        fun hph f hf => (hst _).2.1.mpr (.inl (hdone hph f hf)), huser⟩
      exact hoth f (mem_append_right _ (List.mem_flatMap.mpr ⟨q, hq, Search.mem_of_waiting hf⟩))
  · exact h.suspended_rest hsrch
  · rw [hbusy'] at hu
    exact (hst u).1.mpr (h.busy u hu)
  · exact (hst v).1.mpr (h.progress f (by rw [hfrms]; exact hf) v hv)
  · rcases mem_append.mp hu with hu | hu
    · exact (hst v).1.mpr (h.closed u hu v hv)
    · rw [mem_singleton.mp hu] at hv
      exact (hst v).1.mpr (hall v hv)
  · rw [hbusy']
    exact h.visiting u ((hst u).2.2.mp hu).1
  · rcases mem_append.mp hu with hu | hu
    · exact (h.before u hu v hv).imp_left fun hb => Before.append hb _
    · rw [mem_singleton.mp hu] at hv ⊢
      cases hv' : s.state v with
      | new => exact absurd hv' (hall v hv)
      | initialized => exact .inl ⟨s.order, [], rfl, (h.order v).mpr hv'⟩
      | visiting =>
        rcases h.visiting v hv' with hmem | haban
        · rw [hbusy, map_cons, cons_append] at hmem
          rcases mem_cons.mp hmem with rfl | hmem
          · exact .inr (.inl .refl)
          · exact .inr (.inl ((pairwise_cons.mp hreach).1 v hmem))
        · exact .inr (.inr haban)

lemma Inv.leave (h : s.Inv) {capacity : ℕ} {rest : List Search}
    (hsrch : s.searches = ⟨[], capacity, .walking⟩ :: rest) :
    Inv { s with searches := rest } := by
  have hfrms : LinkerState.frames { s with searches := rest } = s.frames := (frames_cons hsrch).symm
  have hbusy : LinkerState.busy { s with searches := rest } = s.busy := congrArg (List.map Prod.fst) hfrms
  refine ⟨h.bounded, h.outside, h.known, h.capacity, h.order, h.nodup, h.alive, h.destroyed, h.running, fun q hq => ?_,
    fun q hq => ?_, hbusy ▸ h.busy, hbusy ▸ h.once, hbusy ▸ h.reach, hfrms ▸ h.progress, h.closed, hbusy ▸ h.visiting,
    h.before, h.roots⟩
  · exact { h.others hsrch hq with }
  · exact h.suspended q (by rw [hsrch]; exact List.mem_of_mem_tail hq)

/-- **The program's code returns** to the loop: after a constructor the frame goes. -/
lemma Inv.resume (h : s.Inv) (he : s.resume = some s') : s'.Inv := by
  unfold LinkerState.resume at he
  split at he
  · rename_i stack capacity rest hsrch
    cases he
    have hfrms : LinkerState.frames { s with searches := ⟨stack, capacity, .walking⟩ :: rest } = s.frames :=
      (frames_cons hsrch).symm
    have hbusy : LinkerState.busy { s with searches := ⟨stack, capacity, .walking⟩ :: rest } = s.busy :=
      congrArg (List.map Prod.fst) hfrms
    have hfst := h.first hsrch
    refine ⟨h.bounded, h.outside, h.known, h.capacity, h.order, h.nodup, h.alive, h.destroyed, h.running, fun q hq => ?_,
      fun q hq => ?_, hbusy ▸ h.busy, hbusy ▸ h.once, hbusy ▸ h.reach, hfrms ▸ h.progress, h.closed, hbusy ▸ h.visiting,
      h.before, h.roots⟩
    · rcases mem_cons.mp hq with rfl | hq
      · exact ⟨hfst.capacity, hfst.closed, hfst.within, hfst.waiting, nofun, fun hne => absurd rfl hne⟩
      · exact { h.others hsrch hq with }
    · exact h.suspended q (by rw [hsrch]; exact hq)
  · rename_i f stack capacity rest hsrch
    cases he
    have hfrms := frames_cons hsrch
    have hbusy := busy_cons hsrch
    have hfrms' : LinkerState.frames { s with searches := ⟨stack, capacity, .walking⟩ :: rest } =
        stack ++ rest.flatMap Search.stack := rfl
    have hbusy' : LinkerState.busy { s with searches := ⟨stack, capacity, .walking⟩ :: rest } =
        stack.map Prod.fst ++ (rest.flatMap Search.stack).map Prod.fst := busy_cons (q := ⟨stack, capacity, .walking⟩) rfl
    rw [map_cons, cons_append] at hbusy
    have honce := h.once
    have hreach := h.reach
    rw [hbusy] at honce hreach
    have hsub : ∀ u ∈ LinkerState.busy { s with searches := ⟨stack, capacity, .walking⟩ :: rest }, u ∈ s.busy := by
      intro u hu
      rw [hbusy]
      exact .tail _ (hbusy' ▸ hu)
    have hfst := h.first hsrch
    refine ⟨h.bounded, h.outside, h.known, h.capacity, h.order, h.nodup, h.alive, h.destroyed, h.running, fun q hq => ?_,
      fun q hq => ?_, fun u hu => h.busy u (hsub u hu), ?_, ?_, fun g hg => ?_, h.closed, fun u hu => ?_, h.before, h.roots⟩
    · rcases mem_cons.mp hq with rfl | hq
      · exact ⟨hfst.capacity, hfst.closed, fun g hg => hfst.within g (.tail _ hg), hfst.waiting,
          nofun, fun hne => absurd rfl hne⟩
      · exact { h.others hsrch hq with }
    · exact h.suspended q (by rw [hsrch]; exact hq)
    · rw [hbusy']
      exact (nodup_cons.mp honce).2
    · rw [hbusy']
      exact (pairwise_cons.mp hreach).2
    · exact h.progress g (by rw [hfrms]; exact .tail _ hg)
    · -- the object of the frame has been initialised
      rcases h.visiting u hu with hmem | haban
      · rw [hbusy] at hmem
        rcases mem_cons.mp hmem with rfl | hmem
        · have hdone := hfst.done rfl f rfl
          dsimp only at hu
          rw [hdone] at hu
          cases hu
        · exact .inl (hbusy'.symm ▸ hmem)
      · exact .inr haban
  · cases he

/-! ### `exit` and `finalize` -/

lemma Inv.exit (h : s.Inv) : s.exit.Inv := by
  refine ⟨h.bounded, h.outside, h.known, h.capacity, h.order, h.nodup, h.alive, h.destroyed, nofun,
    fun _ hq => (not_mem_nil hq).elim, fun _ hq => (not_mem_nil hq).elim, fun _ hu => (not_mem_nil hu).elim,
    nodup_nil, List.Pairwise.nil, fun _ hf => (not_mem_nil hf).elim, h.closed, fun u hu => .inr ?_,
    fun u hu v hv => (h.before u hu v hv).imp_right fun hor => hor.imp_right fun hmem => mem_append_left _ hmem, h.roots⟩
  rcases h.visiting u hu with hbusy | haban
  · exact mem_append_right _ (mem_filter.mpr ⟨hbusy, decide_eq_true hu⟩)
  · exact mem_append_left _ haban

lemma destruct_cases (h : s.destruct = some s') : ∃ object front, s.initialized = front ++ [object] ∧
    s' = { s with initialized := front, destroyed := s.destroyed ++ [object] } := by
  unfold LinkerState.destruct at h
  split at h
  · cases h
  · rename_i object hlast
    obtain ⟨front, hft⟩ := List.getLast?_eq_some_iff.mp hlast
    refine ⟨object, front, hft, ?_⟩
    rw [← Option.some.inj h, hft, List.dropLast_concat]

lemma Inv.destruct (h : s.Inv) (hfin : s.finalizing = true) (he : s.destruct = some s') : s'.Inv := by
  obtain ⟨object, front, hinitial, rfl⟩ := destruct_cases he
  have haliv := h.alive
  rw [hinitial] at haliv
  have hmem : object ∈ s.order.filter (· ∉ s.destroyed) := by
    rw [← haliv]
    exact mem_append_right _ (List.mem_singleton_self _)
  obtain ⟨horder, hdest⟩ := mem_filter.mp hmem
  have hnot : object ∉ s.destroyed := of_decide_eq_true hdest
  have hnd : (front ++ [object]).Nodup := haliv ▸ h.nodup.filter _
  have hft : object ∉ front := fun hf =>
    (nodup_append.mp hnd).2.2 object hf object (List.mem_singleton_self _) rfl
  refine ⟨h.bounded, h.outside, h.known, h.capacity, h.order, h.nodup, ?_, ⟨?_, fun u hu => ?_⟩, fun hfls => ?_, fun q hq => ?_,
    h.suspended, h.busy, h.once, h.reach, h.progress, h.closed, h.visiting, h.before, h.roots⟩
  · have hfilt : (front ++ [object]).filter (· ≠ object) = front := by
      rw [List.filter_append, List.filter_eq_self.mpr fun u hu => decide_eq_true (ne_of_mem_of_not_mem hu hft)]
      simp
    dsimp only
    rw [← hfilt, haliv, List.filter_filter]
    refine List.filter_congr fun u _ => ?_
    simp only [mem_append, mem_singleton, not_or, Bool.decide_and, Bool.and_comm]
  · exact nodup_append.mpr ⟨h.destroyed.1, List.nodup_singleton _, fun a ha b hb heq =>
      hnot (mem_singleton.mp hb ▸ heq ▸ ha)⟩
  · rcases mem_append.mp hu with hu | hu
    · exact h.destroyed.2 u hu
    · rw [mem_singleton.mp hu]
      exact horder
  · rw [hfin] at hfls
    cases hfls
  · exact { h.searches q hq with }

lemma Inv.advance (h : s.Inv) (he : s.advance = some s') : s'.Inv := by
  rcases advance_cases he with ⟨_, _, _, _, _, _, hsrch, hnext, hnew, rfl⟩ |
    ⟨_, _, _, _, _, _, hsrch, hnext, hold, rfl⟩ | ⟨_, _, _, _, _, hsrch, hnone, rfl⟩ | ⟨_, _, hsrch, rfl⟩
  · exact h.enter hsrch hnext hnew
  · exact h.pass hsrch hnext hold
  · exact h.complete hsrch hnone
  · exact h.leave hsrch

theorem Inv.step (h : s.Inv) {e : LinkerEvent} (he : s.step e = some s') : s'.Inv := by
  cases e with
  | open_ new root =>
    simp only [LinkerState.step] at he
    split at he
    · rename_i hgrd
      cases he
      exact (h.load hgrd.2.2).initializeObjectTree hgrd.1 hgrd.2.1
    · cases he
  | advance => exact h.advance he
  | resume => exact h.resume he
  | exit =>
    simp only [LinkerState.step] at he
    split at he
    · cases he
      exact h.exit
    · cases he
  | destruct =>
    simp only [LinkerState.step] at he
    split at he
    · rename_i hgrd
      exact h.destruct hgrd.1 he
    · cases he

theorem inv_reachable (hs : linkerSystem.Reachable s) : s.Inv :=
  hs.invariant (P := Inv) (fun _ hinit => Init.inv hinit) fun _ _ _ hi he => Inv.step hi he

/-! ### Every call ends -/

/-- The passes that a call still needs for its frames, and one for its return -/
def weight (s : LinkerState) (q : Search) : ℕ :=
  1 + (q.waiting.map fun f => (s.dependencies f.1).length - f.2 + 2).sum + if q.phase = .walking then 0 else 1

/-- The passes for an object with `n` dependencies that is still new -/
def passes : ObjectState → ℕ → ℕ
  | .new, n => n + 3
  | _, _ => 0

def fresh (s : LinkerState) : ℕ := ∑ u ∈ Finset.range s.count, passes (s.state u) (s.dependencies u).length

def work (s : LinkerState) : ℕ := s.fresh + (s.searches.map s.weight).sum

lemma work_first {q : Search} (q' : Search) {rest : List Search} (hsrch : s.searches = q :: rest)
    (hdepen : s'.dependencies = s.dependencies) (hsrch' : s'.searches = q' :: rest)
    (hless : s'.fresh + s.weight q' < s.fresh + s.weight q) : s'.work < s.work := by
  have hweig : s'.weight = s.weight := by
    funext q
    unfold weight
    rw [hdepen]
  unfold work
  rw [hsrch, hsrch', hweig, map_cons, map_cons, sum_cons, sum_cons]
  omega

lemma fresh_visit {next : ℕ} (hnext : next < s.count) (hnew : s.state next = .new) (searches : List Search) :
    LinkerState.fresh { s with state := update s.state next .visiting, searches := searches } +
      ((s.dependencies next).length + 3) = s.fresh := by
  unfold fresh
  have hmem : next ∈ Finset.range s.count := Finset.mem_range.mpr hnext
  dsimp only
  rw [← Finset.add_sum_erase _ _ hmem, ← Finset.add_sum_erase (Finset.range s.count) _ hmem, update_self, hnew]
  have hrest : ∑ u ∈ (Finset.range s.count).erase next,
      passes (update s.state next .visiting u) (s.dependencies u).length =
        ∑ u ∈ (Finset.range s.count).erase next, passes (s.state u) (s.dependencies u).length := by
    refine Finset.sum_congr rfl fun u hu => ?_
    rw [update_of_ne (Finset.ne_of_mem_erase hu)]
  rw [hrest]
  change 0 + _ + _ = (_ + 3) + _
  omega

/-- **A call always goes on**, in its loop or when the program's code returns, and needs less then. -/
lemma Inv.proceeds (h : s.Inv) (hne : s.searches ≠ []) : ∃ e s', (e = .advance ∨ e = .resume) ∧ s.step e = some s' ∧
    s'.work < s.work ∧ s'.roots = s.roots ∧ s'.abandoned = s.abandoned := by
  obtain ⟨⟨stack, capacity, phase⟩, rest, hsrch⟩ := List.exists_cons_of_ne_nil hne
  have hfst := h.first hsrch
  cases phase with
  | preinit =>
    refine ⟨.resume, { s with searches := ⟨stack, capacity, .walking⟩ :: rest }, .inr rfl, ?_, ?_, rfl, rfl⟩
    · change s.resume = _
      unfold LinkerState.resume
      rw [hsrch]
    · refine work_first ⟨stack, capacity, .walking⟩ hsrch rfl rfl (Nat.add_lt_add_left ?_ _)
      simp [weight, Search.waiting]
  | constructor =>
    cases stack with
    | nil => exact absurd rfl (hfst.user (by exact nofun))
    | cons f stack =>
      refine ⟨.resume, { s with searches := ⟨stack, capacity, .walking⟩ :: rest }, .inr rfl, ?_, ?_, rfl, rfl⟩
      · change s.resume = _
        unfold LinkerState.resume
        rw [hsrch]
      · refine work_first ⟨stack, capacity, .walking⟩ hsrch rfl rfl (Nat.add_lt_add_left ?_ _)
        simp [weight, Search.waiting]
  | walking =>
    obtain ⟨s', hs'⟩ : ∃ s', s.advance = some s' := by
      unfold LinkerState.advance
      rw [hsrch]
      cases stack with
      | nil => exact ⟨_, rfl⟩
      | cons f stack =>
        dsimp only
        cases (s.dependencies f.1)[f.2]? with
        | none => exact ⟨_, rfl⟩
        | some next =>
          dsimp only
          split <;> exact ⟨_, rfl⟩
    refine ⟨.advance, s', .inl rfl, hs', ?_⟩
    rcases advance_cases hs' with ⟨object, k, stack, capacity, rest, next, hsrch, hnext, hnew, rfl⟩ |
      ⟨object, k, stack, capacity, rest, next, hsrch, hnext, hold, rfl⟩ |
      ⟨object, k, stack, capacity, rest, hsrch, hnone, rfl⟩ | ⟨capacity, rest, hsrch, rfl⟩
    · have hk : k < (s.dependencies object).length := (List.getElem?_eq_some_iff.mp hnext).1
      have hfr := fresh_visit (h.bounded object next (List.mem_of_getElem? hnext)) hnew
        (⟨(next, 0) :: (object, k + 1) :: stack, capacity, .walking⟩ :: rest)
      refine ⟨work_first ⟨(next, 0) :: (object, k + 1) :: stack, capacity, .walking⟩ hsrch rfl rfl ?_, rfl, rfl⟩
      simp only [weight, Search.waiting, reduceCtorEq, if_false, if_true, map_cons, sum_cons]
      omega
    · have hk : k < (s.dependencies object).length := (List.getElem?_eq_some_iff.mp hnext).1
      refine ⟨work_first ⟨(object, k + 1) :: stack, capacity, .walking⟩ hsrch rfl rfl
        (Nat.add_lt_add_left ?_ _), rfl, rfl⟩
      simp only [weight, Search.waiting, reduceCtorEq, if_false, if_true, map_cons, sum_cons]
      omega
    · have hvis : s.state object = .visiting :=
        (h.searches _ (by rw [hsrch]; exact mem_cons_self)).waiting (object, k) mem_cons_self
      refine ⟨work_first ⟨(object, k) :: stack, capacity, .constructor⟩ hsrch rfl rfl ?_, rfl, rfl⟩
      have hfr : LinkerState.fresh { s with
          state := update s.state object .initialized
          initialized := s.initialized ++ [object]
          order := s.order ++ [object]
          searches := ⟨(object, k) :: stack, capacity, .constructor⟩ :: rest } = s.fresh := by
        refine Finset.sum_congr rfl fun u _ => ?_
        dsimp only
        by_cases hu : u = object
        · rw [hu, update_self, hvis]
          rfl
        · rw [update_of_ne hu]
      rw [hfr]
      refine Nat.add_lt_add_left ?_ _
      simp [weight, Search.waiting]
      omega
    · refine ⟨?_, rfl, rfl⟩
      have hsame : LinkerState.work { s with searches := rest } = s.fresh + (rest.map s.weight).sum := rfl
      unfold work at hsame ⊢
      rw [hsrch, map_cons, sum_cons, hsame]
      simp only [weight, Search.waiting]
      omega

/-- **The calls that are open end** once the constructors return and open nothing more. -/
lemma Inv.ends (h : s.Inv) : ∃ es : List LinkerEvent, es.length ≤ s.work ∧ (∀ e ∈ es, e = .advance ∨ e = .resume) ∧
    ∃ s', linkerSystem.runFrom s es = some s' ∧ s'.searches = [] ∧ s'.roots = s.roots ∧ s'.abandoned = s.abandoned := by
  induction hwork : s.work using Nat.strongRecOn generalizing s with
  | ind n ih =>
    by_cases hnil : s.searches = []
    · exact ⟨[], Nat.zero_le _, fun _ he => (not_mem_nil he).elim, s, rfl, hnil, rfl, rfl⟩
    · obtain ⟨e, t, hkind, hstep, hless, hroots, haban⟩ := h.proceeds hnil
      obtain ⟨es, hlen, hkin, s', hrun, hend, hroots', haban'⟩ := ih t.work (hwork ▸ hless) (h.step hstep) rfl
      refine ⟨e :: es, ?_, fun f hf => ?_, s', ?_, hend, hroots'.trans hroots, haban'.trans haban⟩
      · rw [List.length_cons]
        omega
      · rcases mem_cons.mp hf with rfl | hf
        · exact hkind
        · exact hkin f hf
      · rw [System.runFrom]
        exact Option.bind_eq_some_iff.mpr ⟨t, hstep, hrun⟩

lemma Inv.covers (h : s.Inv) (hsrch : s.searches = []) (haban : s.abandoned = []) {r u : ℕ} (hr : r ∈ s.roots)
    (hneed : s.Needs r u) : u ∈ s.order := by
  have hold : ∀ v, s.state v ≠ .new → v ∈ s.order := fun v hv => by
    cases hst : s.state v with
    | new => exact absurd hst hv
    | initialized => exact (h.order v).mpr hst
    | visiting =>
      rcases h.visiting v hst with hmem | hmem
      · unfold LinkerState.busy frames at hmem
        rw [hsrch] at hmem
        cases hmem
      · rw [haban] at hmem
        cases hmem
  induction hneed with
  | refl => exact hold r (h.roots r hr)
  | tail _ hedge ih => exact hold _ (h.closed _ ih _ hedge)

lemma length_le_of_nodup {l : List ℕ} {n : ℕ} (hnd : l.Nodup) (hlt : ∀ u ∈ l, u < n) : l.length ≤ n := by
  have hsub : l ⊆ List.range n := fun u hu => List.mem_range.mpr (hlt u hu)
  have hle := (hnd.subperm hsub).length_le
  rwa [List.length_range] at hle

lemma Inv.stack_le (h : s.Inv) {q : Search} (hq : q ∈ s.searches) : q.stack.length ≤ q.capacity := by
  have hsub : (q.stack.map Prod.fst).Sublist s.busy := by
    obtain ⟨a, b, hab⟩ := List.append_of_mem hq
    unfold LinkerState.busy frames
    rw [hab, List.flatMap_append, List.flatMap_cons]
    exact ((List.sublist_append_left _ _).trans (List.sublist_append_right _ _)).map _
  have hle := length_le_of_nodup (h.once.sublist hsub) fun u hu => by
    obtain ⟨f, hf, rfl⟩ := mem_map.mp hu
    exact (h.searches q hq).within f hf
  rwa [List.length_map] at hle

lemma Inv.initialized_le (h : s.Inv) : s.initialized.length ≤ s.initializedCapacity := by
  refine Nat.le_trans (length_le_of_nodup ?_ fun u hu => ?_) h.capacity
  · rw [h.alive]
    exact h.nodup.filter _
  · rw [h.alive] at hu
    have horder := (h.order u).mp (mem_filter.mp hu).1
    exact h.known u (by rw [horder]; exact nofun)

lemma finalize_run (n : ℕ) (hfin : s.finalizing = true) (hsrch : s.searches = [])
    (hn : s.initialized.length = n) :
    ∃ s', linkerSystem.runFrom s (List.replicate n .destruct) = some s' ∧ s'.initialized = [] ∧
      s'.destroyed = s.destroyed ++ s.initialized.reverse := by
  induction n generalizing s with
  | zero =>
    have hnil := List.eq_nil_of_length_eq_zero hn
    exact ⟨s, rfl, hnil, by rw [hnil, List.reverse_nil, List.append_nil]⟩
  | succ n ih =>
    obtain ⟨front, object, hlast⟩ : ∃ front object, s.initialized = front ++ [object] := by
      rcases List.eq_nil_or_concat' s.initialized with hnil | hcons
      · rw [hnil] at hn
        cases hn
      · exact hcons
    have hstep : s.step .destruct = some { s with initialized := front, destroyed := s.destroyed ++ [object] } := by
      simp only [LinkerState.step, LinkerState.destruct]
      rw [if_pos ⟨hfin, by rw [hsrch]; rfl⟩, hlast, List.getLast?_concat]
      dsimp only
      rw [List.dropLast_concat]
    obtain ⟨s', hrun, hemp, hdest⟩ := @ih { s with initialized := front, destroyed := s.destroyed ++ [object] }
      hfin hsrch (by rw [hlast, List.length_append] at hn; exact Nat.succ.inj hn)
    refine ⟨s', ?_, hemp, ?_⟩
    · rw [List.replicate_succ, System.runFrom]
      exact Option.bind_eq_some_iff.mpr ⟨_, hstep, hrun⟩
    · rw [hdest, hlast, List.reverse_concat, List.append_assoc]
      rfl

/-- **The order of constructors and destructors**, in every run. No object is initialised twice, and what a root needs is
initialised when no call is open. A dependency comes first unless it reaches the object, by its dependencies and by what
constructors open, or has been abandoned. No stack is left, the open calls end, and the destructors run in the opposite
order. -/
theorem initialization_order (hs : linkerSystem.Reachable s) :
    (s.order.Nodup ∧ (s.searches = [] → s.abandoned = [] → ∀ r ∈ s.roots, ∀ u, s.Needs r u → u ∈ s.order)) ∧
    (∀ u ∈ s.order, ∀ v ∈ s.dependencies u, ¬s.Reach v u → v ∉ s.abandoned → Before s.order v u) ∧
    ((∀ q ∈ s.searches, q.stack.length ≤ q.capacity) ∧ s.initialized.length ≤ s.initializedCapacity) ∧
    (∃ es : List LinkerEvent, es.length ≤ s.work ∧ (∀ e ∈ es, e = .advance ∨ e = .resume) ∧
      ∃ s', linkerSystem.runFrom s es = some s' ∧ s'.searches = [] ∧ s'.roots = s.roots ∧ s'.abandoned = s.abandoned) ∧
    (s.initialized = s.order.filter (· ∉ s.destroyed) ∧ s.destroyed.Nodup ∧ (∀ u ∈ s.destroyed, u ∈ s.order) ∧
      ∀ s', s.step .destruct = some s' → ∃ object front, s.initialized = front ++ [object] ∧ s'.initialized = front ∧
        s'.destroyed = s.destroyed ++ [object]) ∧
    (s.finalizing = false → s.inUserCode = true → ∃ s',
      linkerSystem.runFrom s (.exit :: List.replicate s.order.length .destruct) = some s' ∧ s'.initialized = [] ∧
        s'.destroyed = s.order.reverse) := by
  have h := inv_reachable hs
  refine ⟨⟨h.nodup, fun hsearches habandoned r hr u hneeds => h.covers hsearches habandoned hr hneeds⟩,
    fun u hu v hv hreach habandoned => ?_, ⟨fun q hq => h.stack_le hq, h.initialized_le⟩, h.ends,
    ⟨h.alive, h.destroyed.1, h.destroyed.2, fun s' hs' => ?_⟩, fun hrunning huser => ?_⟩
  · exact (h.before u hu v hv).resolve_right fun hor => hor.elim hreach habandoned
  · simp only [LinkerState.step] at hs'
    split at hs'
    · obtain ⟨object, front, hfront, rfl⟩ := destruct_cases hs'
      exact ⟨object, front, hfront, rfl, rfl⟩
    · cases hs'
  · have hdestroyed := (h.running hrunning).1
    have hsame : s.initialized = s.order := by
      rw [h.alive, hdestroyed]
      exact List.filter_eq_self.mpr fun u _ => decide_eq_true (not_mem_nil)
    obtain ⟨s', hrun, hempty, hgone⟩ := @finalize_run s.exit s.initialized.length rfl rfl rfl
    refine ⟨s', ?_, hempty, ?_⟩
    · rw [System.runFrom, ← hsame]
      exact Option.bind_eq_some_iff.mpr ⟨s.exit, if_pos huser, hrun⟩
    · rw [hgone]
      change s.destroyed ++ s.initialized.reverse = _
      rw [hdestroyed, hsame, List.nil_append]

/-! ### A constructor that opens an object -/

/-- A program that needs a library, which needs a second one. -/
def twoLibraries : LinkerState where
  count := 3
  dependencies u := match u with | 0 => [1] | 1 => [2] | _ => []
  state _ := .new
  initialized := []
  initializedCapacity := 3
  searches := []
  finalizing := false
  destroyed := []
  order := []
  roots := []
  opens := []
  abandoned := []

lemma twoLibraries_init : linkerSystem.init twoLibraries := by
  refine ⟨fun u v hv => ?_, fun u hu => ?_, rfl, rfl, rfl, rfl, rfl, rfl, rfl, rfl, rfl, rfl⟩
  · match u with
    | 0 | 1 =>
      obtain rfl := mem_singleton.mp hv
      decide
    | _ + 2 => cases hv
  · match u with
    | 0 | 1 => exact absurd hu (by decide)
    | _ + 2 => rfl

/-- The constructor of the second library opens a plugin, which needs the first one. -/
def plugin : List LinkerEvent :=
  [.open_ [] 0, .resume, .advance, .advance, .advance, .open_ [[1]] 3, .advance, .advance, .resume, .advance, .resume,
    .advance, .resume, .advance, .resume, .advance]

/-- All four objects have been initialised, and the destructors run in the reverse order. -/
theorem initialization_order_plugin :
    ∃ s', linkerSystem.runFrom (linkerSystem.replay twoLibraries plugin) (.exit :: List.replicate 4 .destruct) = some s' ∧
      s'.initialized = [] ∧ s'.destroyed = [0, 1, 3, 2] :=
  (initialization_order (System.replay_reachable (.init twoLibraries_init) plugin)).2.2.2.2.2 (by decide +kernel)
    (by decide +kernel)

/-- **The plugin is initialised before the library that it needs**, which does not need the plugin. -/
theorem plugin_before_library :
    linkerSystem.Reachable (linkerSystem.replay twoLibraries plugin) ∧
      (linkerSystem.replay twoLibraries plugin).searches.isEmpty = true ∧
      1 ∈ (linkerSystem.replay twoLibraries plugin).dependencies 3 ∧
      ¬(linkerSystem.replay twoLibraries plugin).Needs 1 3 ∧
      (linkerSystem.replay twoLibraries plugin).order = [2, 3, 1, 0] := by
  refine ⟨System.replay_reachable (.init twoLibraries_init) _, by decide +kernel, by decide +kernel, fun hneeds => ?_,
    by decide +kernel⟩
  -- the second library needs nothing
  have hone : (linkerSystem.replay twoLibraries plugin).dependencies 1 = [2] := by decide +kernel
  have htwo : (linkerSystem.replay twoLibraries plugin).dependencies 2 = [] := by decide +kernel
  have hclosed : ∀ y, (linkerSystem.replay twoLibraries plugin).Needs 1 y → y = 1 ∨ y = 2 := by
    intro y hy
    induction hy with
    | refl => exact .inl rfl
    | tail _ hedge ih =>
      rcases ih with rfl | rfl
      · rw [hone] at hedge
        exact .inr (mem_singleton.mp hedge)
      · rw [htwo] at hedge
        cases hedge
  exact absurd (hclosed 3 hneeds) (by decide)

end LinkerState

end PlantOS.Ldso.Initialize

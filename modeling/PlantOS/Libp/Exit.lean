import Mathlib.Data.List.DropRight
import PlantOS.Lib.Run

/-!
# The exit callbacks

The registry of `exit.c`. The lock is dropped around a callback, so that a pass is its part up to the next callback, and
callbacks register others and start passes of their own.
-/

namespace PlantOS.Libp.Exit

open Lib

inductive Kind
  | plain | object | quick | finished
  deriving DecidableEq

/-- An `exit_callback_t`, and the number of its registration -/
structure Callback where
  kind : Kind
  function : ℕ
  argument : ℕ
  dso : ℕ
  serial : ℕ
  deriving DecidableEq

/-- A call of `exit_callbacks_run` that is in a callback -/
structure Pass where
  dso : ℕ
  quick : Bool
  index : ℕ
  before : ℕ

/-- The registry, the passes, and what has been registered and run, the last one first -/
structure Registry where
  callbacks : List Callback
  capacity : ℕ
  passes : List Pass
  registered : List Callback
  ran : List Callback

inductive Call
  | atexit (callback : ℕ)
  | cxaAtexit (callback argument dso : ℕ)
  | atQuickExit (callback : ℕ)

/-- What is registered: `__dso_handle` is the handle of the library. -/
def Call.callback (dsoHandle serial : ℕ) : Call → Callback
  | .atexit f => ⟨.plain, f, 0, dsoHandle, serial⟩
  | .cxaAtexit f argument dso => ⟨.object, f, argument, dso, serial⟩
  | .atQuickExit f => ⟨.quick, f, 0, 0, serial⟩

def sizeMax : ℕ := 0xffffffffffffffff

/-- The loop of a pass goes on at once. -/
def skips (dso : ℕ) (quick : Bool) (c : Callback) : Bool :=
  c.kind = .finished || (decide (c.kind = .quick) != quick) || (dso ≠ 0 && c.dso ≠ dso)

/-- The loop from the index downwards -/
def scan (l : List Callback) (dso : ℕ) (quick : Bool) : ℕ → Option (ℕ × Callback)
  | 0 => none
  | index + 1 =>
    match l[index]? with
    | none => none
    | some c => if skips dso quick c then scan l dso quick index else some (index, c)

namespace Registry

/-- `exit_callback_add`; `none` is -1. -/
def exitCallbackAdd (s : Registry) (c : Callback) (memory : Bool) : Option Registry :=
  let added (capacity : ℕ) : Registry :=
    { s with callbacks := s.callbacks ++ [c], capacity, registered := s.registered ++ [c] }
  if s.callbacks.length = s.capacity then
    let capacity := if s.capacity ≠ 0 then s.capacity * 2 % (sizeMax + 1) else 16
    if capacity < s.capacity ∨ capacity > sizeMax / 32 ∨ memory = false then none else some (added capacity)
  else some (added s.capacity)

/-- `atexit`, `__cxa_atexit` and `at_quick_exit` -/
def register (s : Registry) (dsoHandle : ℕ) (call : Call) (memory : Bool) : Option Registry :=
  let c := call.callback dsoHandle s.registered.length
  if c.function = 0 then none else s.exitCallbackAdd c memory

/-- `exit_callbacks_run` from the loop to its next callback or to its end -/
def goOn (s : Registry) (dso : ℕ) (quick : Bool) (index : ℕ) (passes : List Pass) : Registry :=
  match scan s.callbacks dso quick index with
  | some (i, c) =>
    { s with
      callbacks := s.callbacks.set i { c with kind := .finished }
      passes := ⟨dso, quick, i, s.callbacks.length⟩ :: passes
      ran := c :: s.ran }
  | none => { s with callbacks := s.callbacks.rdropWhile (·.kind = .finished), passes }

def exitCallbacksRun (s : Registry) (dso : ℕ) (quick : Bool) : Registry := s.goOn dso quick s.callbacks.length s.passes

/-- The callback of the `n`-th pass returns. -/
def returns (s : Registry) (n : ℕ) : Option Registry :=
  s.passes[n]?.map fun p =>
    let index := if s.callbacks.length > p.before ∨ p.index > s.callbacks.length then s.callbacks.length else p.index
    s.goOn p.dso p.quick index (s.passes.eraseIdx n)

end Registry

/-- `exit` calls `__cxa_finalize(NULL)`, once before and once after it ends the runtime. -/
inductive Event
  | register (call : Call) (memory : Bool)
  | cxaFinalize (dso : ℕ)
  | quickExit
  | returns (pass : ℕ)

def system (dsoHandle : ℕ) : System Registry Event where
  init s := s = ⟨[], 0, [], [], []⟩
  step s
    | .register call memory => some ((s.register dsoHandle call memory).getD s)
    | .cxaFinalize dso => some (s.exitCallbacksRun dso false)
    | .quickExit => some (s.exitCallbacksRun 0 true)
    | .returns pass => s.returns pass

/-! ### The contract -/

/-- **What a pass does next**: it runs the callback that was registered last of those that it has to run, or there is
none. -/
def Proceeds (s s' : Registry) (dso : ℕ) (quick : Bool) : Prop :=
  (∃ c ∈ s.registered, c ∉ s.ran ∧ skips dso quick c = false ∧ s'.ran = c :: s.ran ∧
      ∀ c' ∈ s.registered, c' ∉ s.ran → skips dso quick c' = false → c'.serial ≤ c.serial) ∨
    s'.ran = s.ran ∧ ∀ c ∈ s.registered, skips dso quick c = false → c ∈ s.ran

def StepContract (dsoHandle : ℕ) (s s' : Registry) : Event → Prop
  | .register call memory => s'.ran = s.ran ∧ s'.registered = s.registered ++
      if (s.register dsoHandle call memory).isSome then [call.callback dsoHandle s.registered.length] else []
  | .cxaFinalize dso => Proceeds s s' dso false
  | .quickExit => Proceeds s s' 0 true
  | .returns pass => ∀ p ∈ s.passes[pass]?, Proceeds s s' p.dso p.quick

/-- **Nothing is lost or run twice**: the registry holds what has been registered and has not run, in this order. -/
structure Contract (s : Registry) : Prop where
  live : s.callbacks.filter (·.kind ≠ .finished) = s.registered.filter (· ∉ s.ran)
  once : s.ran.Nodup
  ran : ∀ c ∈ s.ran, c ∈ s.registered
  room : s.callbacks.length ≤ s.capacity

/-- Nobody registers a callback that a pass would run while the registry is shorter than it was when the pass called the
callback it is in. -/
def Calm (dsoHandle : ℕ) (s : Registry) : Event → Prop
  | .register call _ =>
    ∀ p ∈ s.passes, skips p.dso p.quick (call.callback dsoHandle s.registered.length) = false → p.before ≤ s.callbacks.length
  | _ => True

/-! ### The invariant -/

/-- What holds in every run -/
structure Inv (s : Registry) : Prop extends Contract s where
  small : s.capacity ≤ sizeMax / 32
  serials : s.registered.Pairwise (·.serial < ·.serial)
  bound : ∀ c ∈ s.registered, c.serial < s.registered.length

/-- The pass has nothing to run between where it is and the length that it has seen. -/
def Pass.Noticed (l : List Callback) (p : Pass) : Prop :=
  ∀ j c, p.index ≤ j → j < p.before → l[j]? = some c → skips p.dso p.quick c = true

variable {s s' : Registry} {dsoHandle dso : ℕ} {quick : Bool} {index : ℕ} {passes : List Pass}

lemma live_of_not_skips {c : Callback} (h : skips dso quick c = false) : c.kind ≠ .finished := by
  rintro hfin
  simp [skips, hfin] at h

lemma scan_spec (l : List Callback) (index : ℕ) (hle : index ≤ l.length) :
    (scan l dso quick index = none ∧ ∀ j c, j < index → l[j]? = some c → skips dso quick c = true) ∨
      ∃ pre c post, l = pre ++ c :: post ∧ scan l dso quick index = some (pre.length, c) ∧ skips dso quick c = false ∧
        ∀ j c, pre.length < j → j < index → l[j]? = some c → skips dso quick c = true := by
  induction index with
  | zero => exact .inl ⟨rfl, fun j c hj => absurd hj (Nat.not_lt_zero j)⟩
  | succ index ih =>
    have hget : l[index]? = some l[index] := List.getElem?_eq_getElem hle
    have hlast : ∀ j c, ¬j < index → j < index + 1 → l[j]? = some c → c = l[index] := fun j c hnot hj hc => by
      obtain rfl : j = index := by omega
      exact (Option.some.inj (hget.symm.trans hc)).symm
    rw [scan, hget]
    dsimp only
    split_ifs with hskip
    · rcases ih (Nat.le_of_lt hle) with ⟨hscan, hall⟩ | ⟨pre, c, post, hl, hscan, hc, hall⟩
      · refine .inl ⟨hscan, fun j x hj hx => ?_⟩
        by_cases hlow : j < index
        · exact hall j x hlow hx
        · exact hlast j x hlow hj hx ▸ hskip
      · refine .inr ⟨pre, c, post, hl, hscan, hc, fun j x hpre hj hx => ?_⟩
        by_cases hlow : j < index
        · exact hall j x hpre hlow hx
        · exact hlast j x hlow hj hx ▸ hskip
    · refine .inr ⟨l.take index, l[index], l.drop (index + 1), ?_, ?_, Bool.eq_false_iff.mpr hskip, fun j c hpre hj => ?_⟩
      · rw [← List.drop_eq_getElem_cons, List.take_append_drop]
      · rw [List.length_take_of_le (Nat.le_of_lt hle)]
      · rw [List.length_take_of_le (Nat.le_of_lt hle)] at hpre
        omega

lemma filter_rdropWhile (l : List Callback) :
    (l.rdropWhile (·.kind = .finished)).filter (·.kind ≠ .finished) = l.filter (·.kind ≠ .finished) := by
  induction l using List.reverseRecOn with
  | nil => rfl
  | append_singleton l c ih =>
    by_cases hc : c.kind = .finished
    · rw [List.rdropWhile_concat_pos _ _ _ (by simpa using hc), ih, List.filter_append]
      simp [hc]
    · rw [List.rdropWhile_concat_neg _ _ _ (by simpa using hc)]

/-- The callbacks that a pass has to run are in the registry. -/
lemma Inv.mem_iff (h : Inv s) {c : Callback} (hc : skips dso quick c = false) :
    c ∈ s.callbacks ↔ c ∈ s.registered ∧ c ∉ s.ran := by
  have hmem : c ∈ s.callbacks.filter (·.kind ≠ .finished) ↔ c ∈ s.registered.filter (· ∉ s.ran) := by rw [h.live]
  simpa [live_of_not_skips hc] using hmem

/-- Where the callback that a pass runs stands among those that have not run -/
lemma Inv.split (h : Inv s) {pre post : List Callback} {c : Callback} (hl : s.callbacks = pre ++ c :: post)
    (hc : skips dso quick c = false) :
    s.registered.filter (· ∉ s.ran) = pre.filter (·.kind ≠ .finished) ++ c :: post.filter (·.kind ≠ .finished) ∧
      c ∈ s.registered ∧ c ∉ s.ran := by
  refine ⟨?_, (h.mem_iff hc).mp (hl ▸ List.mem_append_right _ List.mem_cons_self)⟩
  rw [← h.live, hl, List.filter_append, List.filter_cons_of_pos (by simpa using live_of_not_skips hc)]

lemma Inv.goOn (h : Inv s) (hle : index ≤ s.callbacks.length) : Inv (s.goOn dso quick index passes) := by
  unfold Registry.goOn
  rcases scan_spec s.callbacks index hle with ⟨hscan, -⟩ | ⟨pre, c, post, hl, hscan, hc, -⟩
  · rw [hscan]
    have hlen := (List.rdropWhile_prefix (fun c : Callback => decide (c.kind = .finished)) s.callbacks).length_le
    exact ⟨⟨(filter_rdropWhile _).trans h.live, h.once, h.ran, hlen.trans h.room⟩, h.small, h.serials, h.bound⟩
  · rw [hscan]
    dsimp only
    have hnd : (s.registered.filter (· ∉ s.ran)).Nodup :=
      (h.serials.filter _).imp fun hlt heq => absurd (heq ▸ hlt) (Nat.lt_irrefl _)
    have hreg : s.registered.filter (· ∉ c :: s.ran) = (s.registered.filter (· ∉ s.ran)).erase c := by
      rw [hnd.erase_eq_filter, List.filter_filter]
      exact List.filter_congr fun x _ => Bool.eq_iff_iff.mpr (by simp)
    obtain ⟨hlive, hcreg, hcran⟩ := h.split hl hc
    rw [hlive] at hnd hreg
    refine ⟨⟨?_, List.nodup_cons.mpr ⟨hcran, h.once⟩, ?_, ?_⟩, h.small, h.serials, h.bound⟩
    · have hset : s.callbacks.set pre.length { c with kind := .finished } = pre ++ { c with kind := .finished } :: post := by
        rw [hl, List.set_append_right _ _ (Nat.le_refl _), Nat.sub_self]
        rfl
      dsimp only
      rw [hset, List.filter_append, List.filter_cons_of_neg (by simp), hreg, List.erase_append_right, List.erase_cons_head]
      exact fun hmem => (List.nodup_append.mp hnd).2.2 c hmem c List.mem_cons_self rfl
    · rintro x (_ | ⟨_, hx⟩)
      · exact hcreg
      · exact h.ran x hx
    · rw [List.length_set]
      exact h.room

/-- A pass that has noticed everything goes on in the order of the registrations. -/
lemma Inv.goOn_noticed (h : Inv s) (hle : index ≤ s.callbacks.length) (hpas : ∀ p ∈ passes, p.Noticed s.callbacks)
    (hskip : ∀ j c, index ≤ j → s.callbacks[j]? = some c → skips dso quick c = true) :
    Proceeds s (s.goOn dso quick index passes) dso quick ∧
      ∀ p ∈ (s.goOn dso quick index passes).passes, p.Noticed (s.goOn dso quick index passes).callbacks := by
  unfold Registry.goOn
  rcases scan_spec s.callbacks index hle with ⟨hscan, hall⟩ | ⟨pre, c, post, hl, hscan, hc, hall⟩
  · rw [hscan]
    refine ⟨.inr ⟨rfl, fun c hc hsk => ?_⟩, fun p hp j c hj hlt hc => ?_⟩
    · by_contra hnot
      obtain ⟨j, hj⟩ := List.mem_iff_getElem?.mp ((h.mem_iff hsk).mpr ⟨hc, hnot⟩)
      have := (Nat.lt_or_ge j index).elim (hall j c · hj) (hskip j c · hj)
      rw [hsk] at this
      cases this
    · obtain ⟨rest, hrest⟩ := List.rdropWhile_prefix (fun c : Callback => decide (c.kind = .finished)) s.callbacks
      obtain ⟨hlen, -⟩ := List.getElem?_eq_some_iff.mp hc
      exact hpas p hp j c hj hlt (by rw [← hrest, List.getElem?_append_left hlen]; exact hc)
  · rw [hscan]
    dsimp only
    have hpost : ∀ j x, pre.length < j → s.callbacks[j]? = some x → skips dso quick x = true := fun j x hj hx =>
      (Nat.lt_or_ge j index).elim (hall j x hj · hx) (hskip j x · hx)
    obtain ⟨hlive, hcreg, hcran⟩ := h.split hl hc
    refine ⟨.inl ⟨c, hcreg, hcran, hc, rfl, fun c' hc' hrun hsk => ?_⟩, fun p hp j x hj hbef hx => ?_⟩
    · have hord := h.serials.filter (· ∉ s.ran)
      rw [hlive] at hord
      have hmem := (h.mem_iff hsk).mpr ⟨hc', hrun⟩
      rw [hl, List.mem_append, List.mem_cons] at hmem
      rcases hmem with hmem | rfl | hmem
      · exact Nat.le_of_lt ((List.pairwise_append.mp hord).2.2 c'
          (List.mem_filter.mpr ⟨hmem, by simpa using live_of_not_skips hsk⟩) c List.mem_cons_self)
      · exact Nat.le_refl _
      · obtain ⟨k, hk⟩ := List.mem_iff_getElem?.mp hmem
        rw [hpost (pre.length + (k + 1)) c' (by omega) (by
          rw [hl, List.getElem?_append_right (by omega), Nat.add_sub_cancel_left]
          exact hk)] at hsk
        cases hsk
    · -- above the new index everything has been passed
      rw [List.getElem?_set] at hx
      split_ifs at hx with heq
      · cases hx
        rfl
      · rcases List.mem_cons.mp hp with rfl | hold
        · exact hpost j x (Nat.lt_of_le_of_ne hj heq) hx
        · exact hpas p hold j x hj hbef hx

lemma Inv.add (h : Inv s) {c : Callback} {capacity : ℕ} (hkind : c.kind ≠ .finished) (hser : c.serial = s.registered.length)
    (hroom : s.callbacks.length < capacity) (hsmall : capacity ≤ sizeMax / 32) :
    Inv { s with callbacks := s.callbacks ++ [c], capacity, registered := s.registered ++ [c] } := by
  have hran : c ∉ s.ran := fun hmem => Nat.lt_irrefl _ (hser ▸ h.bound c (h.ran c hmem))
  refine ⟨⟨?_, h.once, fun x hx => List.mem_append_left _ (h.ran x hx), ?_⟩, hsmall, ?_, fun x hx => ?_⟩
  · dsimp only
    rw [List.filter_append, List.filter_append, h.live]
    simp [hkind, hran]
  · dsimp only
    rw [List.length_append]
    exact hroom
  · refine List.pairwise_append.mpr ⟨h.serials, List.pairwise_singleton .., fun x hx y hy => ?_⟩
    rw [List.mem_singleton.mp hy, hser]
    exact h.bound x hx
  · dsimp only at hx ⊢
    rw [List.length_append, List.length_singleton]
    rcases List.mem_append.mp hx with hold | hnew
    · exact Nat.lt_succ_of_lt (h.bound x hold)
    · exact List.mem_singleton.mp hnew ▸ hser ▸ Nat.lt_succ_self _

/-- A pass notices the callback, or it passes over it. -/
lemma Pass.Noticed.add {l : List Callback} {p : Pass} {c : Callback} (h : p.Noticed l)
    (hcalm : skips p.dso p.quick c = false → p.before ≤ l.length) : p.Noticed (l ++ [c]) := by
  intro j x hj hlt hx
  rcases Nat.lt_or_ge j l.length with hold | hnew
  · rw [List.getElem?_append_left hold] at hx
    exact h j x hj hlt hx
  · have hmem : x ∈ [c] := List.mem_of_getElem? ((List.getElem?_append_right hnew).symm.trans hx)
    rw [List.mem_singleton.mp hmem]
    by_contra hskip
    have := hcalm (Bool.eq_false_iff.mpr hskip)
    omega

/-- The registry never writes outside of the array. -/
lemma exitCallbackAdd_eq {c : Callback} {memory : Bool} (h : s.exitCallbackAdd c memory = some s') :
    ∃ capacity, s' = { s with callbacks := s.callbacks ++ [c], capacity, registered := s.registered ++ [c] } ∧
      (s.callbacks.length ≤ s.capacity → s.capacity ≤ sizeMax / 32 → s.callbacks.length < capacity ∧
      capacity ≤ sizeMax / 32) := by
  have hmax : sizeMax = 0xffffffffffffffff := rfl
  unfold Registry.exitCallbackAdd at h
  dsimp only at h
  by_cases hfull : s.callbacks.length = s.capacity
  · rw [if_pos hfull] at h
    generalize hcap : (if s.capacity ≠ 0 then s.capacity * 2 % (sizeMax + 1) else 16) = capacity at h
    by_cases hgrow : capacity < s.capacity ∨ capacity > sizeMax / 32 ∨ memory = false
    · rw [if_pos hgrow] at h
      cases h
    · rw [if_neg hgrow] at h
      cases h
      refine ⟨capacity, rfl, fun hroom hsmall => ⟨?_, by omega⟩⟩
      rw [Nat.mod_eq_of_lt (by omega)] at hcap
      split at hcap <;> omega
  · rw [if_neg hfull] at h
    cases h
    exact ⟨s.capacity, rfl, fun hroom hsmall => ⟨by omega, hsmall⟩⟩

lemma Inv.register (h : Inv s) {call : Call} {memory : Bool} (he : s.register dsoHandle call memory = some s') :
    Inv s' ∧ s'.callbacks = s.callbacks ++ [call.callback dsoHandle s.registered.length] ∧ s'.passes = s.passes ∧
    s'.ran = s.ran ∧
      s'.registered = s.registered ++ [call.callback dsoHandle s.registered.length] := by
  unfold Registry.register at he
  dsimp only at he
  rw [Option.ite_none_left_eq_some] at he
  obtain ⟨capacity, rfl, hcap⟩ := exitCallbackAdd_eq he.2
  obtain ⟨hroom, hsmall⟩ := hcap h.room h.small
  refine ⟨h.add ?_ ?_ hroom hsmall, rfl, rfl, rfl, rfl⟩
  · cases call <;> exact fun heq => Kind.noConfusion heq
  · cases call <;> rfl

lemma Inv.step (h : Inv s) {e : Event} (he : (system dsoHandle).step s e = some s') : Inv s' := by
  cases e with
  | register call memory =>
    cases he
    cases hreg : s.register dsoHandle call memory with
    | none => exact h
    | some s₁ => exact (h.register hreg).1
  | cxaFinalize dso =>
    cases he
    exact h.goOn (Nat.le_refl _)
  | quickExit =>
    cases he
    exact h.goOn (Nat.le_refl _)
  | returns pass =>
    obtain ⟨p, -, rfl⟩ := Option.map_eq_some_iff.mp he
    exact h.goOn (by split <;> omega)

lemma Inv.step_noticed (h : Inv s) (hn : ∀ p ∈ s.passes, p.Noticed s.callbacks) {e : Event} (hcalm : Calm dsoHandle s e)
    (he : (system dsoHandle).step s e = some s') : StepContract dsoHandle s s' e ∧ ∀ p ∈ s'.passes, p.Noticed s'.callbacks := by
  have hnew : ∀ dso quick, Proceeds s (s.exitCallbacksRun dso quick) dso quick ∧
      ∀ p ∈ (s.exitCallbacksRun dso quick).passes, p.Noticed (s.exitCallbacksRun dso quick).callbacks :=
    fun dso quick => h.goOn_noticed (Nat.le_refl _) hn fun j c hj hc =>
      absurd (List.getElem?_eq_some_iff.mp hc).1 (Nat.not_lt.mpr hj)
  cases e with
  | register call memory =>
    cases he
    cases hreg : s.register dsoHandle call memory with
    | none => exact ⟨⟨rfl, by rw [hreg]; exact (List.append_nil _).symm⟩, hn⟩
    | some s₁ =>
      obtain ⟨-, hcal, hpas, hran, hregd⟩ := h.register hreg
      refine ⟨⟨hran, by rw [hreg]; exact hregd⟩, fun p hp => ?_⟩
      dsimp only [Option.getD] at hp ⊢
      rw [hpas] at hp
      exact hcal ▸ (hn p hp).add (hcalm p hp)
  | cxaFinalize dso =>
    cases he
    exact hnew dso false
  | quickExit =>
    cases he
    exact hnew 0 true
  | returns pass =>
    obtain ⟨p, hp, rfl⟩ := Option.map_eq_some_iff.mp he
    have hgo := @Inv.goOn_noticed s p.dso p.quick
      (if s.callbacks.length > p.before ∨ p.index > s.callbacks.length then s.callbacks.length else p.index)
      (s.passes.eraseIdx pass) h (by split <;> omega) (fun q hq => hn q (List.mem_of_mem_eraseIdx hq)) fun j c hj hc => ?_
    · exact ⟨fun q hq => Option.some.inj (hp.symm.trans hq) ▸ hgo.1, hgo.2⟩
    · have hlen := (List.getElem?_eq_some_iff.mp hc).1
      split at hj
      · exact absurd hj (Nat.not_le.mpr hlen)
      · exact hn p (List.mem_of_getElem? hp) j c hj (by omega) hc

lemma inv_of_init (s : Registry) (h : (system dsoHandle).init s) : Inv s := by
  obtain rfl := h
  exact ⟨⟨rfl, List.nodup_nil, nofun, Nat.le_refl 0⟩, Nat.zero_le _, .nil, nofun⟩

/-- **Every callback runs at most once, and none is forgotten**, whatever the callbacks do. -/
theorem callbacks_kept (dsoHandle : ℕ) (s : Registry) (hs : (system dsoHandle).Reachable s) : Contract s :=
  (hs.invariant inv_of_init fun _ _ _ h he => h.step he).toContract

/-- **The callbacks run in order.** In a run in which no callback is registered below the length at which a pass has
called the callback it is in, every pass runs the one that has been registered last, until none is left that it has to
run. -/
theorem callbacks_run_in_order (dsoHandle : ℕ) {s s' : Registry} {e : Event}
    (hs : (system dsoHandle).Guarded (Calm dsoHandle) s)
    (hcalm : Calm dsoHandle s e) (he : (system dsoHandle).step s e = some s') : StepContract dsoHandle s s' e := by
  have h := hs.invariant (P := fun s => Inv s ∧ ∀ p ∈ s.passes, p.Noticed s.callbacks)
    (fun s hs => ⟨inv_of_init s hs, by obtain rfl := hs; exact nofun⟩)
    fun _ _ _ h hcalm he => ⟨h.1.step he, (h.1.step_noticed h.2 hcalm he).2⟩
  exact (h.1.step_noticed h.2 hcalm he).1

/-- A callback registers another one and ends an object, and `exit` runs both. -/
def nested : List Event :=
  [.register (.atexit 8) true, .cxaFinalize 0, .register (.cxaAtexit 9 0 5) true, .cxaFinalize 5]

theorem callbacks_kept_nested : Contract ((system 1).replay ⟨[], 0, [], [], []⟩ nested) :=
  callbacks_kept 1 _ (System.replay_reachable (.init rfl) nested)

theorem callbacks_run_in_order_nested : ∃ s', StepContract 1 ((system 1).after ⟨[], 0, [], [], []⟩ nested) s' (.returns 0) :=
  ⟨_, callbacks_run_in_order 1 (System.after_guarded (.init rfl) ⟨nofun, trivial,
  by unfold Calm; decide, trivial, trivial⟩) trivial rfl⟩

/-- A callback of `quick_exit` ends an object, which trims the registry, and registers another one. -/
def trimmed : List Event :=
  [.register (.atQuickExit 8) true, .quickExit, .cxaFinalize 5, .register (.atQuickExit 9) true]

/-- The pass does not notice the callback, and it is never run. -/
theorem trimmed_is_lost : ¬∀ dsoHandle s, (system dsoHandle).Reachable s → ∀ e s', (system dsoHandle).step s e = some s' →
    StepContract dsoHandle s s' e := by
  intro h
  have hlost := h 1 _ (System.replay_reachable (.init rfl) trimmed) (.returns 0) _ rfl ⟨0, true, 0, 1⟩ rfl
  revert hlost
  unfold Proceeds
  decide

end PlantOS.Libp.Exit

import Mathlib.Logic.Function.Basic

/-!
# Guarded transition systems

A system is an initial condition and an executable step: `step s e` is `some s'` when the event `e` is
enabled in `s`. `Reachable` are the states of all runs, `Guarded G` the states of the runs every step
of which meets the condition `G` on the state before it.
-/

namespace PlantOS.Lib

/-- Where an updated function has a value -/
theorem update_cases {α β : Type*} [DecidableEq α] {f : α → β} {a x : α} {b y : β} (h : Function.update f a b x = y) :
    (x = a ∧ b = y) ∨ (x ≠ a ∧ f x = y) := by
  by_cases hx : x = a
  · rw [hx, Function.update_self] at h
    exact .inl ⟨hx, h⟩
  · rw [Function.update_of_ne hx] at h
    exact .inr ⟨hx, h⟩

/-- A transition system with guarded events. -/
structure System (S E : Type*) where
  init : S → Prop
  step : S → E → Option S

namespace System

variable {S E : Type*} (sys : System S E)

/-- The states of the runs all of whose steps meet `G`. -/
inductive Guarded (G : S → E → Prop) : S → Prop
  | init {s : S} : sys.init s → Guarded G s
  | step {s s' : S} {e : E} : Guarded G s → G s e → sys.step s e = some s' → Guarded G s'

def Reachable (s : S) : Prop := sys.Guarded (fun _ _ => True) s

variable {sys}
variable {G : S → E → Prop}

theorem Guarded.mono {G' : S → E → Prop} (h : ∀ s e, G s e → G' s e) {s : S}
    (hs : sys.Guarded G s) : sys.Guarded G' s := by
  induction hs with
  | init hi => exact .init hi
  | step _ hg he ih => exact .step ih (h _ _ hg) he

theorem Guarded.reachable {s : S} (hs : sys.Guarded G s) : sys.Reachable s :=
  hs.mono fun _ _ _ => trivial

/-- **The invariant rule.** What holds initially and is kept by every step that meets `G` holds in
every state of the runs of `G`. -/
theorem Guarded.invariant {P : S → Prop} (hinit : ∀ s, sys.init s → P s)
    (hstep : ∀ s e s', P s → G s e → sys.step s e = some s' → P s') {s : S}
    (hs : sys.Guarded G s) : P s := by
  induction hs with
  | init hi => exact hinit _ hi
  | step _ hg he ih => exact hstep _ _ _ ih hg he

theorem Reachable.invariant {P : S → Prop} (hinit : ∀ s, sys.init s → P s)
    (hstep : ∀ s e s', P s → sys.step s e = some s' → P s') {s : S} (hs : sys.Reachable s) : P s :=
  Guarded.invariant hinit (fun s e s' hp _ he => hstep s e s' hp he) hs

variable (sys)

/-- The state after a list of events, `none` if one of them is not enabled. -/
def runFrom (s : S) : List E → Option S
  | [] => some s
  | e :: es => (sys.step s e).bind fun s' => runFrom s' es

variable {sys}

theorem runFrom_reachable {s : S} (hs : sys.Reachable s) {es : List E} {s' : S}
    (h : sys.runFrom s es = some s') : sys.Reachable s' := by
  induction es generalizing s with
  | nil =>
    simp only [runFrom, Option.some.injEq] at h
    exact h ▸ hs
  | cons e es ih =>
    obtain ⟨s₁, h1, h2⟩ := Option.bind_eq_some_iff.mp h
    exact ih (.step hs trivial h1) h2

variable (sys) in
/-- The state after a list of events that are enabled one after the other. -/
def replay (s : S) (es : List E) : S := (sys.runFrom s es).getD s

theorem replay_reachable {s : S} (hs : sys.Reachable s) (es : List E) :
    sys.Reachable (sys.replay s es) := by
  unfold replay
  cases h : sys.runFrom s es with
  | none => exact hs
  | some s' => exact runFrom_reachable hs h

theorem replay_guarded {s : S} (hs : sys.Guarded G s) {es : List E}
    (h : ∀ s, ∀ e ∈ es, G s e) : sys.Guarded G (sys.replay s es) := by
  have : ∀ es : List E, (∀ s, ∀ e ∈ es, G s e) → ∀ s s', sys.Guarded G s →
      sys.runFrom s es = some s' → sys.Guarded G s' := by
    intro es
    induction es with
    | nil =>
      intro _ s s' hs hrun
      exact Option.some.inj hrun ▸ hs
    | cons e es ih =>
      intro h s s' hs hrun
      obtain ⟨s₁, h1, h2⟩ := Option.bind_eq_some_iff.mp hrun
      exact ih (fun s e he => h s e (.tail _ he)) s₁ s' (.step hs (h s e (.head _)) h1) h2
  unfold replay
  cases hrun : sys.runFrom s es with
  | none => exact hs
  | some s' => exact this es h s s' hs hrun

variable (sys) in
/-- The state after a list of events; one that is not enabled does nothing. -/
def after (s : S) (es : List E) : S := es.foldl (fun s e => (sys.step s e).getD s) s

variable (sys) in
def Meets (G : S → E → Prop) (s : S) : List E → Prop
  | [] => True
  | e :: es => G s e ∧ Meets G ((sys.step s e).getD s) es

instance decidableMeets {G : S → E → Prop} [∀ s e, Decidable (G s e)] (s : S) : (es : List E) → Decidable (sys.Meets G s es)
  | [] => isTrue trivial
  | e :: es => @instDecidableAnd _ _ _ (decidableMeets ((sys.step s e).getD s) es)

theorem after_guarded {s : S} {es : List E} (hs : sys.Guarded G s) (h : sys.Meets G s es) :
    sys.Guarded G (sys.after s es) := by
  induction es generalizing s with
  | nil => exact hs
  | cons e es ih =>
    refine ih ?_ h.2
    dsimp only
    cases he : sys.step s e with
    | none => exact hs
    | some s' => exact .step hs h.1 he

end System

end PlantOS.Lib

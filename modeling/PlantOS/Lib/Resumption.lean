import Mathlib.Data.List.Range

/-!
# Computations that give the processor away

A resumption is a computation on a state that others share: at some points it stops, in the state it has
come to, and goes on in whatever state it then finds. `atOnce` is what it does if nobody comes between,
`stopAt` what it leaves behind at one of its stops.
-/

namespace PlantOS.Lib

inductive Resumption (S A : Type*)
  | done (a : A)
  | fail
  | pause (s : S) (rest : S → Resumption S A)

namespace Resumption

variable {S A B : Type*}

def bind (p : Resumption S A) (f : A → Resumption S B) : Resumption S B :=
  match p with
  | done a => f a
  | fail => fail
  | pause s rest => pause s fun s => (rest s).bind f

def ofOption : Option A → Resumption S A
  | some a => done a
  | none => fail

/-- The result if the state stays as it is at every stop -/
def atOnce : Resumption S A → Option A
  | done a => some a
  | fail => none
  | pause s rest => (rest s).atOnce

/-- The state at the stop `n`, and the rest, if the earlier stops are passed at once -/
def stopAt : Resumption S A → ℕ → Option (S × (S → Resumption S A))
  | pause s rest, 0 => some (s, rest)
  | pause s rest, n + 1 => (rest s).stopAt n
  | _, _ => none

@[simp] lemma atOnce_done (a : A) : (done a : Resumption S A).atOnce = some a := rfl

@[simp] lemma atOnce_fail : (fail : Resumption S A).atOnce = none := rfl

@[simp] lemma atOnce_pause (s : S) (rest : S → Resumption S A) : (pause s rest).atOnce = (rest s).atOnce :=
  rfl

@[simp] lemma atOnce_ofOption (a : Option A) : (ofOption a : Resumption S A).atOnce = a := by
  cases a <;> rfl

@[simp] lemma atOnce_bind (p : Resumption S A) (f : A → Resumption S B) :
    (p.bind f).atOnce = p.atOnce.bind fun a => (f a).atOnce := by
  induction p with
  | done a => rfl
  | fail => rfl
  | pause s rest ih => exact ih s

/-! ### Loops -/

/-- `for (; i < bound; i++)`, where the bound is read again before each pass; at most `fuel` passes -/
def loop (bound : S → ℕ) (f : ℕ → S → Resumption S S) : ℕ → ℕ → S → Resumption S S
  | 0, _, s => done s
  | fuel + 1, i, s => if i < bound s then (f i s).bind (loop bound f fuel (i + 1)) else done s

theorem atOnce_loop {bound : S → ℕ} {f : ℕ → S → Resumption S S} {g : S → ℕ → S}
    (hf : ∀ i s, (f i s).atOnce = some (g s i)) (hg : ∀ i s, bound (g s i) = bound s) {fuel i : ℕ} {s : S}
    (hfuel : bound s - i ≤ fuel) :
    (loop bound f fuel i s).atOnce = some ((List.range' i (bound s - i)).foldl g s) := by
  induction fuel generalizing i s with
  | zero => simp [loop, Nat.le_zero.mp hfuel]
  | succ fuel ih =>
    unfold loop
    split
    case isTrue hi =>
      have hlen : bound s - i = bound (g s i) - (i + 1) + 1 := by
        rw [hg]
        omega
      rw [atOnce_bind, hf, Option.bind_some, ih (by omega), hlen, List.range'_succ, List.foldl_cons]
    case isFalse hi => simp [Nat.sub_eq_zero_of_le (not_lt.mp hi)]

end Resumption

end PlantOS.Lib

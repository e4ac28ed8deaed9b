import Mathlib.Data.List.Infix
import Mathlib.Data.List.TakeWhile

/-!
# Lists that are worked off while they grow

A loop goes through a list and appends to it, for every element, the successors of that element; it
stops when it meets an element that it cannot accept. What it collects is the breadth-first listing of
everything that is led to from the start, level by level, up to the first element that is not accepted.
-/

namespace PlantOS.Lib.WorkList

variable {α : Type*}

/-! ### The loop -/

structure Outcome (α : Type*) where
  collected : List α
  refused : Option α

/-- The new elements are appended one after the other; `accept n a`: with `n` elements collected, `a` is
accepted. -/
def append (accept : ℕ → α → Bool) (collected : List α) : List α → Outcome α
  | [] => ⟨collected, none⟩
  | a :: as => if accept collected.length a then append accept (collected ++ [a]) as else ⟨collected, some a⟩

/-- The loop over the list from the position `i` on; `none` if it has not ended. -/
def loop (successors : α → List α) (accept : ℕ → α → Bool) : ℕ → ℕ → List α → Option (Outcome α)
  | 0, _, _ => none
  | fuel + 1, i, collected =>
    match collected[i]? with
    | none => some ⟨collected, none⟩
    | some a =>
      match append accept collected (successors a) with
      | ⟨collected, some b⟩ => some ⟨collected, some b⟩
      | ⟨collected, none⟩ => loop successors accept fuel (i + 1) collected

def run (successors : α → List α) (accept : ℕ → α → Bool) (fuel : ℕ) (start : List α) : Option (Outcome α) :=
  match append accept [] start with
  | ⟨collected, some b⟩ => some ⟨collected, some b⟩
  | ⟨collected, none⟩ => loop successors accept fuel 0 collected

def level (successors : α → List α) (start : List α) : ℕ → List α
  | 0 => start
  | n + 1 => (level successors start n).flatMap successors

/-- The levels below `n`. -/
def below (successors : α → List α) (start : List α) (n : ℕ) : List α :=
  (List.range n).flatMap (level successors start)

/-- The listing in front of the first element that is not good. -/
def visited (successors : α → List α) (start : List α) (good : α → Bool) (n : ℕ) : List α :=
  (below successors start n).takeWhile good

def reached (successors : α → List α) (start : List α) (good : α → Bool) (n : ℕ) : List α :=
  (below successors start n).take ((visited successors start good n).length + 1)

section

variable (successors : α → List α) (start : List α)

lemma below_succ (n : ℕ) : below successors start (n + 1) = below successors start n ++ level successors start n := by
  simp [below, List.range_succ]

lemma below_succ' (n : ℕ) : below successors start (n + 1) = start ++ (below successors start n).flatMap successors := by
  induction n with
  | zero => simp [below, level]
  | succ n ih =>
    calc below successors start (n + 2)
        = below successors start (n + 1) ++ level successors start (n + 1) := below_succ ..
      _ = start ++ (below successors start n).flatMap successors ++ (level successors start n).flatMap successors := by
          rw [ih]
          rfl
      _ = start ++ (below successors start (n + 1)).flatMap successors := by
          rw [below_succ successors start n, List.flatMap_append, List.append_assoc]

lemma below_prefix {m n : ℕ} (h : m ≤ n) : below successors start m <+: below successors start n := by
  induction h with
  | refl => exact List.prefix_rfl
  | step _ ih =>
    rw [below_succ]
    exact ih.trans (List.prefix_append _ _)

end

/-! ### What the loop collects -/

section

variable {successors : α → List α} {start : List α} {good : α → Bool} {accept : ℕ → α → Bool}

lemma append_spec (hacc : ∀ n a, accept n a = true → good a = true) (collected new : List α) :
    (append accept collected new = ⟨collected ++ new, none⟩ ∧ ∀ a ∈ new, good a = true) ∨
      ∃ front b back, new = front ++ b :: back ∧ append accept collected new = ⟨collected ++ front, some b⟩ ∧
        (∀ a ∈ front, good a = true) ∧ accept (collected ++ front).length b = false := by
  induction new generalizing collected with
  | nil => exact .inl ⟨by simp [append], by simp⟩
  | cons a new ih =>
    rw [append]
    by_cases ha : accept collected.length a = true
    · have hgood := hacc _ _ ha
      rw [if_pos ha]
      rcases ih (collected ++ [a]) with ⟨heq, hall⟩ | ⟨front, b, back, rfl, heq, hall, hb⟩
      · refine .inl ⟨by simpa using heq, ?_⟩
        rw [List.forall_mem_cons]
        exact ⟨hgood, hall⟩
      · refine .inr ⟨a :: front, b, back, rfl, by simpa using heq, ?_, by simpa using hb⟩
        rw [List.forall_mem_cons]
        exact ⟨hgood, hall⟩
    · rw [if_neg ha]
      exact .inr ⟨[], a, new, rfl, by simp, by simp, by simpa using ha⟩

/-- What holds at the position `i` of the loop: the first `i` elements have been worked off. -/
structure Inv (successors : α → List α) (start : List α) (good : α → Bool) (i : ℕ) (collected : List α) : Prop where
  le : i ≤ collected.length
  eq : collected = start ++ (collected.take i).flatMap successors
  listed : ∃ n, collected <+: below successors start n
  good : ∀ a ∈ collected, good a = true

structure Ended (successors : α → List α) (start : List α) (good : α → Bool) (accept : ℕ → α → Bool)
    (o : Outcome α) : Prop where
  good : ∀ a ∈ o.collected, good a = true
  listed : ∃ n, o.collected ++ o.refused.toList <+: below successors start n
  closed : o.refused = none → o.collected = start ++ o.collected.flatMap successors
  refused : ∀ b, o.refused = some b → accept o.collected.length b = false

lemma Inv.next {i : ℕ} {collected : List α} {a : α} (h : Inv successors start good i collected)
    (hacc : ∀ n a, accept n a = true → good a = true) (ha : collected[i]? = some a) :
    (∃ collected', append accept collected (successors a) = ⟨collected', none⟩ ∧
      Inv successors start good (i + 1) collected') ∨
    ∃ o, append accept collected (successors a) = o ∧ o.refused.isSome ∧ Ended successors start good accept o := by
  obtain ⟨hlt, hget⟩ := List.getElem?_eq_some_iff.mp ha
  obtain ⟨n, hn⟩ := h.listed
  have htake : collected.take (i + 1) = collected.take i ++ [a] := by
    rw [List.take_add_one, ha, Option.toList_some]
  have hnext : collected ++ successors a = start ++ (collected.take (i + 1)).flatMap successors := by
    rw [htake, List.flatMap_append, List.flatMap_singleton, ← List.append_assoc, ← h.eq]
  have hlst : collected ++ successors a <+: below successors start (n + 1) := by
    rw [hnext, below_succ']
    refine (List.prefix_append_right_inj _).mpr ?_
    obtain ⟨rest, hrest⟩ := (List.take_prefix (i + 1) collected).trans hn
    rw [← hrest, List.flatMap_append]
    exact List.prefix_append _ _
  rcases append_spec hacc collected (successors a) with ⟨heq, hall⟩ | ⟨front, b, back, hsucc, heq, hall, hb⟩
  · refine .inl ⟨_, heq, by rw [List.length_append]; omega, ?_, ⟨_, hlst⟩, ?_⟩
    · rw [List.take_append_of_le_length hlt]
      exact hnext
    · intro x hx
      rcases List.mem_append.mp hx with hx | hx
      · exact h.good x hx
      · exact hall x hx
  · refine .inr ⟨_, heq, rfl, ?_, ⟨n + 1, ?_⟩, nofun, ?_⟩
    · intro x hx
      rcases List.mem_append.mp hx with hx | hx
      · exact h.good x hx
      · exact hall x hx
    · rw [hsucc] at hlst
      refine List.IsPrefix.trans ⟨back, ?_⟩ hlst
      simp
    · rintro _ ⟨⟩
      exact hb

lemma loop_ended (hacc : ∀ n a, accept n a = true → good a = true) {fuel i : ℕ} {collected : List α}
    {o : Outcome α} (h : Inv successors start good i collected)
    (hloop : loop successors accept fuel i collected = some o) : Ended successors start good accept o := by
  induction fuel generalizing i collected with
  | zero => cases hloop
  | succ fuel ih =>
    rw [loop] at hloop
    cases ha : collected[i]? with
    | none =>
      rw [ha] at hloop
      cases hloop
      have hi : i = collected.length := le_antisymm h.le (List.getElem?_eq_none_iff.mp ha)
      obtain ⟨n, hn⟩ := h.listed
      refine ⟨h.good, ⟨n, by simpa using hn⟩, fun _ => ?_, nofun⟩
      have heq := h.eq
      rwa [hi, List.take_length] at heq
    | some a =>
      rw [ha] at hloop
      rcases h.next hacc ha with ⟨collected', heq, hinv⟩ | ⟨⟨collected', _ | b⟩, heq, hsome, hend⟩
      · dsimp only at hloop
        rw [heq] at hloop
        exact ih hinv hloop
      · cases hsome
      · dsimp only at hloop
        rw [heq] at hloop
        cases hloop
        exact hend

lemma run_start (hacc : ∀ n a, accept n a = true → good a = true) :
    (∃ collected, append accept [] start = ⟨collected, none⟩ ∧ Inv successors start good 0 collected) ∨
      ∃ o, append accept [] start = o ∧ o.refused.isSome ∧ Ended successors start good accept o := by
  have hbel : below successors start 1 = start := by simp [below, level]
  rcases append_spec hacc [] start with ⟨heq, hall⟩ | ⟨front, b, back, hstar, heq, hall, hb⟩
  · exact .inl ⟨_, heq, Nat.zero_le _, by simp, ⟨1, by simp [hbel]⟩, by simpa using hall⟩
  · refine .inr ⟨_, heq, rfl, by simpa using hall, ⟨1, ?_⟩, nofun, ?_⟩
    · rw [hbel, hstar]
      exact ⟨back, by simp⟩
    · rintro _ ⟨⟩
      exact hb

/-- **The end of a run.** -/
theorem run_ended (hacc : ∀ n a, accept n a = true → good a = true) {fuel : ℕ} {o : Outcome α}
    (hrun : run successors accept fuel start = some o) : Ended successors start good accept o := by
  unfold run at hrun
  rcases run_start hacc with ⟨collected, heq, hinv⟩ | ⟨⟨collected, _ | b⟩, heq, hsome, hend⟩
  · rw [heq] at hrun
    exact loop_ended hacc hinv hrun
  · cases hsome
  · rw [heq] at hrun
    cases hrun
    exact hend

/-! ### When it ends -/

lemma prefix_visited {l : List α} {n : ℕ} (h : l <+: below successors start n) (hgood : ∀ a ∈ l, good a = true) :
    l <+: visited successors start good n := by
  obtain ⟨rest, hrest⟩ := h
  unfold visited
  rw [← hrest, List.takeWhile_append_of_pos hgood]
  exact List.prefix_append _ _

lemma loop_terminates (hacc : ∀ n a, accept n a = true → good a = true) {bound fuel i : ℕ} {collected : List α}
    (hbd : ∀ n, (visited successors start good n).length ≤ bound) (h : Inv successors start good i collected)
    (hfuel : bound < fuel + i) : ∃ o, loop successors accept fuel i collected = some o := by
  induction fuel generalizing i collected with
  | zero =>
    obtain ⟨n, hn⟩ := h.listed
    have hle := (prefix_visited hn h.good).length_le.trans (hbd n)
    have := h.le
    omega
  | succ fuel ih =>
    rw [loop]
    cases ha : collected[i]? with
    | none => exact ⟨_, rfl⟩
    | some a =>
      dsimp only
      rcases h.next hacc ha with ⟨collected', heq, hinv⟩ | ⟨⟨collected', _ | b⟩, heq, hsome, -⟩
      · rw [heq]
        exact ih hinv (by omega)
      · cases hsome
      · rw [heq]
        exact ⟨_, rfl⟩

lemma run_terminates (hacc : ∀ n a, accept n a = true → good a = true) {bound : ℕ}
    (hbd : ∀ n, (visited successors start good n).length ≤ bound) :
    ∃ fuel o, run successors accept fuel start = some o := by
  refine ⟨bound + 1, ?_⟩
  unfold run
  rcases @run_start _ successors start good accept hacc with ⟨collected, heq, hinv⟩ | ⟨⟨collected, _ | b⟩, heq, hsome, -⟩
  · rw [heq]
    exact loop_terminates hacc hbd hinv (by omega)
  · cases hsome
  · rw [heq]
    exact ⟨_, rfl⟩

lemma Ended.complete {o : Outcome α} (h : Ended successors start good (fun _ a => good a) o) (n : ℕ) :
    visited successors start good n <+: o.collected ∧
      reached successors start good n <+: o.collected ++ o.refused.toList := by
  obtain ⟨m, hm⟩ := h.listed
  cases hb : o.refused with
  | none =>
    have hbel : below successors start n <+: o.collected := by
      induction n with
      | zero => exact List.nil_prefix
      | succ n ih =>
        obtain ⟨rest, hrest⟩ := ih
        rw [below_succ', h.closed hb, ← hrest, List.flatMap_append]
        exact (List.prefix_append_right_inj _).mpr (List.prefix_append _ _)
    rw [Option.toList_none, List.append_nil]
    exact ⟨(List.takeWhile_prefix _).trans hbel, (List.take_prefix _ _).trans hbel⟩
  | some b =>
    have hbad : good b = false := h.refused b hb
    rw [hb, Option.toList_some] at hm
    rw [Option.toList_some]
    have hn := below_prefix successors start (le_max_left m n)
    have hn' := below_prefix successors start (le_max_right m n)
    rcases List.prefix_or_prefix_of_prefix (hm.trans hn) hn' with ⟨rest, hrest⟩ | hle
    · have hvis : visited successors start good n = o.collected := by
        unfold visited
        rw [← hrest, List.append_assoc, List.takeWhile_append_of_pos h.good, List.singleton_append,
          List.takeWhile_cons_of_neg (by simp [hbad]), List.append_nil]
      refine ⟨hvis ▸ List.prefix_rfl, ?_⟩
      unfold reached
      rw [hvis, ← hrest, List.take_left' (by simp)]
    · refine ⟨?_, (List.take_prefix _ _).trans hle⟩
      rcases List.prefix_concat_iff.mp ((List.takeWhile_prefix good).trans hle) with heq | hlt
      · have hmem : b ∈ visited successors start good n := by
          unfold visited
          rw [heq]
          simp
        rw [List.mem_takeWhile_imp hmem] at hbad
        cases hbad
      · exact hlt

/-- **A run ends, collects few enough elements and meets only fine ones exactly if the listing up to its first element
that is not good is so.** -/
theorem run_tidy_iff {once : List α → Prop} {fine : α → Prop} {bound : ℕ}
    (hpre : ∀ l l' : List α, l <+: l' → once l' → once l)
    (hbd : ∀ l : List α, (∀ a ∈ l, good a = true) → once l → l.length ≤ bound) :
    (∀ also : ℕ → Bool,
      (∃ fuel o, run successors (fun n a => good a && also n) fuel start = some o) ∧
      ∀ fuel o, run successors (fun n a => good a && also n) fuel start = some o →
        once o.collected ∧ ∀ a ∈ o.collected ++ o.refused.toList, fine a) ↔
    ∀ n, once (visited successors start good n) ∧ ∀ a ∈ reached successors start good n, fine a := by
  constructor
  · intro h n
    obtain ⟨⟨fuel, o, hrun⟩, hall⟩ := h fun _ => true
    obtain ⟨honce, hfine⟩ := hall fuel o hrun
    simp only [Bool.and_true] at hrun
    have hend : Ended successors start good (fun _ a => good a) o :=
      run_ended (fun _ a (h : good a = true) => h) hrun
    obtain ⟨hvis, hrchd⟩ := hend.complete n
    exact ⟨hpre _ _ hvis honce, fun a ha => hfine a (hrchd.subset ha)⟩
  · intro h also
    have hacc : ∀ n a, (good a && also n) = true → good a = true := fun n a h => (Bool.and_eq_true_iff.mp h).1
    refine ⟨run_terminates hacc fun n => hbd _ (fun a ha => List.mem_takeWhile_imp ha) (h n).1,
      fun fuel o hrun => ?_⟩
    have hend := run_ended hacc hrun
    obtain ⟨n, hn⟩ := hend.listed
    have hvis := prefix_visited ((List.prefix_append _ _).trans hn) hend.good
    refine ⟨hpre _ _ hvis (h n).1, fun a ha => (h n).2 a ?_⟩
    have hlen : (o.collected ++ o.refused.toList).length ≤ (visited successors start good n).length + 1 := by
      have := hvis.length_le
      cases o.refused <;> simp <;> omega
    unfold reached
    rw [List.prefix_iff_eq_take.mp hn] at ha
    exact List.take_subset_take_left _ hlen ha

end

end PlantOS.Lib.WorkList

import Mathlib.Algebra.Group.Nat.Defs
import Mathlib.Data.List.Forall2
import Mathlib.Data.List.GetD
import Mathlib.Order.Basic

/-!
# The arguments of a program

The command line that a program is started with, and its arguments. `runtime_arguments_take` reads the line and
writes the arguments into the same memory; every byte that it writes is recorded together with the two cursors.
Pointers that a call is given are not `NULL`; whether `malloc` has memory is an input.
-/

namespace PlantOS.Libp.RuntimeArgs

/-! ### Characters -/

def space : UInt8 := 0x20

def quote : UInt8 := 0x22

def backslash : UInt8 := 0x5c

def byteAt (line : List UInt8) (i : ℕ) : UInt8 := line.getD i 0

/-- `c` may be escaped. -/
def escapable (c : UInt8) : Bool := c = quote || c = backslash || c = space

def intMax : ℕ := 2 ^ 31 - 1

def uintMax : ℕ := 2 ^ 32 - 1

/-! ### Counting -/

def skipSpaces (line : List UInt8) : List UInt8 := line.dropWhile (· = space)

/-- The inner loop of `runtime_argument_count`: `quoted` and the text at `cursor` behind it. -/
def countArgument (quoted : Bool) (cursor : List UInt8) : Bool × List UInt8 :=
  match cursor with
  | [] => (quoted, [])
  | c :: rest =>
    if c = quote then countArgument (!quoted) rest
    else if c = backslash ∧ escapable (byteAt rest 0) then countArgument quoted (rest.drop 1)
    else if ¬quoted ∧ c = space then (quoted, c :: rest)
    else countArgument quoted rest
termination_by cursor.length
decreasing_by
  all_goals
    simp only [List.length_cons, List.length_drop]
    omega

lemma countArgument_length (quoted : Bool) (cursor : List UInt8) :
    (countArgument quoted cursor).2.length ≤ cursor.length := by
  fun_induction countArgument quoted cursor with
  | case1 => exact Nat.le_refl _
  | case2 quoted rest ih => exact Nat.le_succ_of_le ih
  | case3 quoted c rest _ _ ih =>
    rw [List.length_drop] at ih
    rw [List.length_cons]
    omega
  | case4 => exact Nat.le_refl _
  | case5 quoted c rest _ _ _ ih => exact Nat.le_succ_of_le ih

lemma countArgument_lt {c : UInt8} (hc : c ≠ space) (rest : List UInt8) :
    (countArgument false (c :: rest)).2.length < (c :: rest).length := by
  rw [countArgument, List.length_cons]
  split_ifs with hquo hesc hspc
  · exact Nat.lt_succ_of_le (countArgument_length _ _)
  · have hle := countArgument_length false (rest.drop 1)
    rw [List.length_drop] at hle
    omega
  · exact absurd hspc.2 hc
  · exact Nat.lt_succ_of_le (countArgument_length _ _)

lemma skipSpaces_head {line : List UInt8} {c : UInt8} {rest : List UInt8} (h : skipSpaces line = c :: rest) : c ≠ space := by
  have hhead := List.head?_dropWhile_not (· = space) line
  unfold skipSpaces at h
  rw [h] at hhead
  simpa using hhead

lemma skipSpaces_length (line : List UInt8) : (skipSpaces line).length ≤ line.length :=
  (List.dropWhile_suffix _).length_le

/-- The outer loop of `runtime_argument_count`. -/
def argumentCountFrom (count : ℕ) (cursor : List UInt8) : Option ℕ :=
  match _h : skipSpaces cursor with
  | [] => some count
  | c :: rest =>
    let r := countArgument false (c :: rest)
    if r.1 then none else argumentCountFrom (count + 1) r.2
termination_by cursor.length
decreasing_by
  have hlt := countArgument_lt (skipSpaces_head _h) rest
  have hle := skipSpaces_length cursor
  rw [_h] at hle
  omega

/-- `runtime_argument_count`: `none` is -1. -/
def runtimeArgumentCount (line : List UInt8) : Option ℕ := argumentCountFrom 0 line

/-! ### Taking the arguments -/

/-- The memory of a line with the two cursors, and what has been written: the places with the read cursor at that
time, the latest first. -/
structure Cursors where
  mem : ℕ → UInt8
  read : ℕ
  write : ℕ
  written : List (ℕ × ℕ)

namespace Cursors

/-- `*write_cursor++ = c` -/
def put (s : Cursors) (c : UInt8) : Cursors where
  mem := Function.update s.mem s.write c
  read := s.read
  write := s.write + 1
  written := (s.write, s.read) :: s.written

def advance (s : Cursors) (n : ℕ) : Cursors := { s with read := s.read + n }

def skip : ℕ → Cursors → Option Cursors
  | 0, _ => none
  | fuel + 1, s => if s.mem s.read = space then skip fuel (s.advance 1) else some s

/-- The loop of `runtime_arguments_take` over the bytes of an argument. -/
def copyArgument : ℕ → Bool → Cursors → Option Cursors
  | 0, _, _ => none
  | fuel + 1, quoted, s =>
    let c := s.mem s.read
    if c = 0 then some s
    else if c = quote then copyArgument fuel (!quoted) (s.advance 1)
    else if c = backslash ∧ escapable (s.mem (s.read + 1)) then
      let s := s.advance 1
      copyArgument fuel quoted ((s.put (s.mem s.read)).advance 1)
    else if ¬quoted ∧ c = space then some s
    else copyArgument fuel quoted ((s.put c).advance 1)

/-- The loop of `runtime_arguments_take` over `count` arguments: their addresses. -/
def takeLoop (fuel : ℕ) : ℕ → Cursors → Option (List ℕ × Cursors)
  | 0, s => some ([], s)
  | count + 1, s =>
    (s.skip fuel).bind fun s =>
      (s.copyArgument fuel false).bind fun t =>
        (t.skip fuel).bind fun u =>
          (takeLoop fuel count (u.put 0)).map fun r => (s.write :: r.1, r.2)

end Cursors

/-- `runtime_arguments_t` -/
structure RuntimeArguments where
  argc : ℕ
  argv : List ℕ
  storage : Cursors

/-- `runtime_arguments_take` of a line, with pointers of `pointerSize` bytes; `memory`: `malloc` has memory for
`argv`. -/
def runtimeArgumentsTake (pointerSize : ℕ) (memory : Bool) (line : List UInt8) : Option RuntimeArguments :=
  match runtimeArgumentCount line with
  | none => none
  | some count =>
    if count > intMax ∨ count > uintMax / pointerSize - 1 ∨ !memory then none
    else
      (Cursors.takeLoop (line.length + 2) count ⟨byteAt line, 0, 0, []⟩).map fun r => ⟨count, r.1, r.2⟩

/-- `runtime_arguments_parse`; `memory`: `malloc` has memory for the copy and for `argv`. -/
def runtimeArgumentsParse (pointerSize : ℕ) (memory : Bool × Bool) (line : List UInt8) : Option RuntimeArguments :=
  if line.length ≥ intMax ∨ !memory.1 then none else runtimeArgumentsTake pointerSize memory.2 line

def needsEscape (c : UInt8) : Bool := c = quote || c = backslash

/-- The inner loop that adds up `required`. -/
def requiredBytes (required : ℕ) : List UInt8 → Option ℕ
  | [] => some required
  | c :: cursor =>
    let bytes := if needsEscape c then 2 else 1
    if required > uintMax - bytes then none else requiredBytes (required + bytes) cursor

/-- The outer loop that adds up `required`, from the argument `i` on; `none` in `argv` is `NULL`. -/
def requiredFrom (i required : ℕ) : List (Option (List UInt8)) → Option ℕ
  | [] => some required
  | none :: _ => none
  | some argument :: argv =>
    if i ≠ 0 ∧ required = uintMax then none
    else
      let required := if i ≠ 0 then required + 1 else required
      if required > uintMax - 2 then none
      else (requiredBytes (required + 2) argument).bind fun required => requiredFrom (i + 1) required argv

def outputByte (c : UInt8) : List UInt8 := if needsEscape c then [backslash, c] else [c]

/-- What the loop writes from the argument `i` on. -/
def outputFrom (i : ℕ) : List (Option (List UInt8)) → List UInt8
  | [] => []
  | argument :: argv =>
    (if i ≠ 0 then [space] else []) ++ [quote] ++ (argument.getD []).flatMap outputByte ++ [quote] ++ outputFrom (i + 1) argv

/-- `runtime_command_line_build`: the line and its length; `memory`: `malloc` has memory for it. -/
def runtimeCommandLineBuild (memory : Bool) (argv : List (Option (List UInt8))) : Option (List UInt8 × ℕ) :=
  match requiredFrom 0 0 argv with
  | none => none
  | some required => if required ≥ intMax ∨ !memory then none else some (outputFrom 0 argv, required)

/-! ## Taking the arguments in place -/

open List (append_nil length_append length_cons length_nil map_cons mem_append mem_cons mem_cons_of_mem mem_cons_self
    mem_singleton)

/-! ### The arguments of a line -/

/-- An argument, `quoted` behind it, and what is left of the line. -/
def readArgument (quoted : Bool) (cursor : List UInt8) : List UInt8 × Bool × List UInt8 :=
  match cursor with
  | [] => ([], quoted, [])
  | c :: rest =>
    if c = quote then readArgument (!quoted) rest
    else if c = backslash ∧ escapable (byteAt rest 0) then
      let r := readArgument quoted (rest.drop 1)
      (byteAt rest 0 :: r.1, r.2)
    else if ¬quoted ∧ c = space then ([], quoted, c :: rest)
    else
      let r := readArgument quoted rest
      (c :: r.1, r.2)
termination_by cursor.length
decreasing_by
  all_goals
    simp only [length_cons, List.length_drop]
    omega

lemma readArgument_count (quoted : Bool) (cursor : List UInt8) :
    (readArgument quoted cursor).2 = countArgument quoted cursor := by
  fun_induction readArgument quoted cursor with
  | case1 => rw [countArgument]
  | case2 quoted rest ih => rw [ih, countArgument, if_pos rfl]
  | case3 quoted c rest hquo hesc r ih => rw [countArgument, if_neg hquo, if_pos hesc, ← ih]
  | case4 quoted c rest hquo hesc hspc => rw [countArgument, if_neg hquo, if_neg hesc, if_pos hspc]
  | case5 quoted c rest hquo hesc hspc r ih =>
    rw [countArgument, if_neg hquo, if_neg hesc, if_neg hspc, ← ih]

/-- The arguments of a line, `none` if a quotation does not end. -/
def arguments (cursor : List UInt8) : Option (List (List UInt8)) :=
  match _h : skipSpaces cursor with
  | [] => some []
  | c :: rest =>
    let r := readArgument false (c :: rest)
    if r.2.1 then none else (arguments r.2.2).map (r.1 :: ·)
termination_by cursor.length
decreasing_by
  have hlt := countArgument_lt (skipSpaces_head _h) rest
  have hle := skipSpaces_length cursor
  rw [_h] at hle
  rw [readArgument_count]
  omega

variable {cursor : List UInt8}

lemma arguments_nil (h : skipSpaces cursor = []) : arguments cursor = some [] := by
  rw [arguments]
  split
  · rfl
  · rename_i heq
    rw [h] at heq
    cases heq

lemma arguments_cons {rest : List UInt8} {c : UInt8} (h : skipSpaces cursor = c :: rest) :
    arguments cursor =
      if (readArgument false (c :: rest)).2.1 then none
      else (arguments (readArgument false (c :: rest)).2.2).map ((readArgument false (c :: rest)).1 :: ·) := by
  rw [arguments]
  split
  · rename_i heq
    rw [h] at heq
    cases heq
  · rename_i heq
    rw [h] at heq
    obtain ⟨rfl, rfl⟩ := List.cons.inj heq
    rfl

lemma argumentCountFrom_eq (count : ℕ) (cursor : List UInt8) :
    argumentCountFrom count cursor = (arguments cursor).map fun ws => count + ws.length := by
  fun_induction argumentCountFrom count cursor with
  | case1 count cursor h => simp [arguments_nil h]
  | case2 count cursor c rest h r hquot =>
    have hr : (readArgument false (c :: rest)).2 = r := readArgument_count false _
    rw [arguments_cons h, hr, if_pos hquot]
    rfl
  | case3 count cursor c rest h r hquot ih =>
    have hr : (readArgument false (c :: rest)).2 = r := readArgument_count false _
    rw [arguments_cons h, hr, if_neg hquot, ih]
    cases arguments r.2 with
    | none => rfl
    | some ws =>
      simp only [Option.map_some, length_cons, Option.some.injEq]
      omega

/-! ### The cursors -/

variable {line : List UInt8} {s s' t : Cursors} {word : List UInt8} {c : UInt8} {rest : List UInt8}

structure Unread (line : List UInt8) (s : Cursors) : Prop where
  mem : ∀ i, s.read ≤ i → s.mem i = byteAt line i
  read_le : s.read ≤ line.length

/-- From `s` to `s'` the loop has written the bytes of `word`, none of them behind the read cursor. -/
structure Copies (line : List UInt8) (s : Cursors) (word : List UInt8) (s' : Cursors) : Prop where
  unread : Unread line s'
  write : s'.write = s.write + word.length
  le : s'.write ≤ s'.read
  kept : ∀ i < s.write, s'.mem i = s.mem i
  word : ∀ j, ∀ h : j < word.length, s'.mem (s.write + j) = word.get ⟨j, h⟩
  written : ∃ new, s'.written = new ++ s.written ∧ ∀ x ∈ new, x.1 ≤ x.2 ∧ x.2 ≤ line.length

lemma Copies.refl (h : Unread line s) (hle : s.write ≤ s.read) : Copies line s [] s :=
  ⟨h, rfl, hle, fun _ _ => rfl, fun _ h => absurd h (Nat.not_lt_zero _), [], rfl, by simp⟩

lemma Copies.of_advance {n : ℕ} (h : Copies line (s.advance n) word s') : Copies line s word s' :=
  { h with }

lemma Copies.of_put (hle : s.write ≤ s.read) (hread : s.read ≤ line.length) (h : Copies line (s.put c) word s') :
    Copies line s (c :: word) s' where
  unread := h.unread
  write := by
    rw [h.write, length_cons]
    exact Nat.add_right_comm ..
  le := h.le
  kept i hi := by
    rw [h.kept i (Nat.lt_succ_of_lt hi)]
    exact Function.update_of_ne (Nat.ne_of_lt hi) _ _
  word j hj := by
    cases j with
    | zero =>
      rw [Nat.add_zero, h.kept s.write (Nat.lt_succ_self _)]
      exact Function.update_self ..
    | succ j =>
      have hnext := h.word j (Nat.lt_of_succ_lt_succ hj)
      rwa [show (s.put c).write + j = s.write + (j + 1) by simp only [Cursors.put]; omega] at hnext
  written := by
    obtain ⟨new, hnew, hall⟩ := h.written
    refine ⟨new ++ [(s.write, s.read)], by rw [hnew]; simp [Cursors.put], fun x hx => ?_⟩
    obtain hx | hx := mem_append.mp hx
    · exact hall x hx
    · obtain rfl := mem_singleton.mp hx
      exact ⟨hle, hread⟩

lemma Unread.advance {n : ℕ} (h : Unread line s) (hn : s.read + n ≤ line.length) : Unread line (s.advance n) :=
  ⟨fun i hi => h.mem i (Nat.le_trans (Nat.le_add_right _ _) hi), hn⟩

lemma Unread.put_advance (h : Unread line s) (hle : s.write ≤ s.read) (hlt : s.read < line.length) :
    Unread line ((s.put c).advance 1) := by
  refine ⟨fun i hi => ?_, hlt⟩
  have hi' : s.read + 1 ≤ i := hi
  have hne : i ≠ s.write := by omega
  exact (Function.update_of_ne hne _ _).trans (h.mem i (by omega))

lemma drop_cons {i : ℕ} (h : line.drop i = c :: rest) :
    byteAt line i = c ∧ line.drop (i + 1) = rest ∧ i < line.length ∧ c ∈ line ∧ byteAt line (i + 1) = byteAt rest 0 := by
  have hlt : i < line.length := by
    by_contra hge
    rw [List.drop_of_length_le (by omega)] at h
    cases h
  rw [List.drop_eq_getElem_cons hlt] at h
  obtain ⟨hc, hrest⟩ := List.cons.inj h
  refine ⟨by rw [byteAt, List.getD_eq_getElem _ _ hlt, hc], hrest, hlt, hc ▸ List.getElem_mem hlt, ?_⟩
  rw [← hrest, byteAt, byteAt, List.getD_eq_getElem?_getD, List.getD_eq_getElem?_getD, List.getElem?_drop, Nat.add_zero]

lemma drop_nil {i : ℕ} (h : line.drop i = []) (hle : i ≤ line.length) : i = line.length ∧ byteAt line i = 0 := by
  have hge := List.drop_eq_nil_iff.mp h
  exact ⟨Nat.le_antisymm hle hge, List.getD_eq_default _ _ hge⟩

lemma skip_spec {fuel : ℕ} (h : Unread line s) (hle : s.write ≤ s.read) (hfuel : (line.drop s.read).length < fuel) :
    ∃ n, s.skip fuel = some (s.advance n) ∧ Unread line (s.advance n) ∧
      line.drop (s.read + n) = skipSpaces (line.drop s.read) ∧
      (byteAt line s.read = space → 0 < n) := by
  induction fuel generalizing s with
  | zero => exact absurd hfuel (Nat.not_lt_zero _)
  | succ fuel ih =>
    rw [Cursors.skip, h.mem _ (Nat.le_refl _)]
    cases hl : line.drop s.read with
    | nil =>
      obtain ⟨-, hzero⟩ := drop_nil hl h.read_le
      rw [hzero, if_neg (by decide)]
      exact ⟨0, rfl, h, hl, fun habs => absurd habs (by decide)⟩
    | cons c rest =>
      obtain ⟨hc, hrest, hlt, -⟩ := drop_cons hl
      rw [hl, length_cons] at hfuel
      rw [hc]
      by_cases hspc : c = space
      · have hnext : ((line.drop (s.advance 1).read).length) < fuel := by
          change (line.drop (s.read + 1)).length < fuel
          rw [hrest]
          omega
        obtain ⟨n, hskip, hunrd, hdrop, -⟩ := ih (s := s.advance 1) (h.advance hlt) (Nat.le_succ_of_le hle) hnext
        rw [if_pos hspc]
        refine ⟨1 + n, ?_, ?_, ?_, fun _ => by omega⟩
        · rw [hskip]
          simp [Cursors.advance, Nat.add_assoc]
        · have hsame : s.advance (1 + n) = (s.advance 1).advance n := by simp [Cursors.advance, Nat.add_assoc]
          rwa [hsame]
        · change line.drop (s.read + 1 + n) = skipSpaces (line.drop (s.read + 1)) at hdrop
          rw [← Nat.add_assoc, hdrop, hrest]
          simp [skipSpaces, hspc]
      · rw [if_neg hspc]
        refine ⟨0, rfl, h, ?_, fun habs => absurd habs hspc⟩
        rw [Nat.add_zero, hl]
        simp [skipSpaces, hspc]

/-- **The loop over an argument writes what is to be read there.** -/
lemma copyArgument_spec (hnul : 0 ∉ line) {fuel : ℕ} (quoted : Bool) (h : Unread line s) (hle : s.write ≤ s.read)
    (hfuel : (line.drop s.read).length < fuel) :
    ∃ s', s.copyArgument fuel quoted = some s' ∧ Copies line s (readArgument quoted (line.drop s.read)).1 s' ∧
      line.drop s'.read = (readArgument quoted (line.drop s.read)).2.2 := by
  induction fuel generalizing quoted s with
  | zero => exact absurd hfuel (Nat.not_lt_zero _)
  | succ fuel ih =>
    rw [Cursors.copyArgument, h.mem _ (Nat.le_refl _), h.mem _ (Nat.le_succ _)]
    cases hl : line.drop s.read with
    | nil =>
      obtain ⟨-, hzero⟩ := drop_nil hl h.read_le
      simp only [hzero, if_true]
      rw [readArgument]
      exact ⟨s, rfl, .refl h hle, hl⟩
    | cons c rest =>
      obtain ⟨hc, hrest, hlt, hmem, hnext⟩ := drop_cons hl
      rw [hl, length_cons] at hfuel
      have hzero : c ≠ 0 := fun hzero => hnul (hzero ▸ hmem)
      simp only [hc, hnext, hzero, if_false]
      rw [readArgument]
      by_cases hquo : c = quote
      · rw [if_pos hquo, if_pos hquo]
        have hfuel' : (line.drop (s.advance 1).read).length < fuel := by
          change (line.drop (s.read + 1)).length < fuel
          rw [hrest]
          omega
        obtain ⟨s', hcopy, hcps, hdrop⟩ := @ih (s.advance 1) (!quoted) (h.advance hlt)
          (Nat.le_succ_of_le hle) hfuel'
        change _ = _ at hdrop
        rw [show line.drop (s.advance 1).read = rest from hrest] at hcps hdrop
        exact ⟨s', hcopy, hcps.of_advance, hdrop⟩
      rw [if_neg hquo, if_neg hquo]
      by_cases hesc : c = backslash ∧ escapable (byteAt rest 0)
      · -- the byte behind the backslash is not the terminator
        rw [if_pos hesc, if_pos hesc]
        cases rest with
        | nil => exact absurd hesc.2 (by decide)
        | cons d rest =>
          obtain ⟨hd, hrest', hlt', -⟩ := drop_cons hrest
          have hmem' : (s.advance 1).mem (s.advance 1).read = d := (h.mem _ (Nat.le_succ _)).trans hd
          have hfuel' : (line.drop (((s.advance 1).put d).advance 1).read).length < fuel := by
            change (line.drop (s.read + 1 + 1)).length < fuel
            rw [hrest']
            simp only [length_cons] at hfuel
            omega
          obtain ⟨s', hcopy, hcps, hdrop⟩ := @ih (((s.advance 1).put d).advance 1) quoted
            ((h.advance hlt).put_advance (Nat.le_succ_of_le hle) hlt')
            (Nat.succ_le_succ (Nat.le_succ_of_le hle)) hfuel'
          rw [show line.drop (((s.advance 1).put d).advance 1).read = rest from hrest'] at hcps hdrop
          simp only [hmem']
          refine ⟨s', hcopy, ?_, hdrop⟩
          have hread : (s.advance 1).read ≤ line.length := hlt
          exact (Copies.of_put (Nat.le_succ_of_le hle) hread hcps.of_advance).of_advance
      rw [if_neg hesc, if_neg hesc]
      by_cases hspc : ¬quoted ∧ c = space
      · rw [if_pos hspc, if_pos hspc]
        exact ⟨s, rfl, .refl h hle, hl⟩
      · rw [if_neg hspc, if_neg hspc]
        have hfuel' : (line.drop ((s.put c).advance 1).read).length < fuel := by
          change (line.drop (s.read + 1)).length < fuel
          rw [hrest]
          omega
        obtain ⟨s', hcopy, hcps, hdrop⟩ := @ih ((s.put c).advance 1) quoted (h.put_advance hle hlt)
          (Nat.succ_le_succ hle) hfuel'
        rw [show line.drop ((s.put c).advance 1).read = rest from hrest] at hcps hdrop
        exact ⟨s', hcopy, Copies.of_put hle h.read_le hcps.of_advance, hdrop⟩

/-! ### All arguments -/

lemma mem_readArgument {quoted : Bool} {b : UInt8} (h : b ∈ (readArgument quoted cursor).1) :
    b ∈ cursor := by
  fun_induction readArgument quoted cursor with
  | case1 => cases h
  | case2 quoted rest ih => exact mem_cons_of_mem _ (ih h)
  | case3 quoted c rest hquo hesc r ih =>
    cases rest with
    | nil => exact absurd hesc.2 (by decide)
    | cons d rest =>
      obtain rfl | h := mem_cons.mp h
      · exact mem_cons_of_mem _ mem_cons_self
      · exact mem_cons_of_mem _ (mem_cons_of_mem _ (ih h))
  | case4 => cases h
  | case5 quoted c rest hquo hesc hspc r ih =>
    obtain rfl | h := mem_cons.mp h
    · exact mem_cons_self
    · exact mem_cons_of_mem _ (ih h)

lemma readArgument_rest {quoted : Bool} (h : (readArgument quoted cursor).2.2 = c :: rest) :
    c = space := by
  fun_induction readArgument quoted cursor with
  | case1 => cases h
  | case2 quoted l ih => exact ih h
  | case3 quoted d l hquo hesc r ih => exact ih h
  | case4 quoted d l hquo hesc hspc =>
    obtain ⟨rfl, -⟩ := List.cons.inj h
    exact hspc.2
  | case5 quoted d l hquo hesc hspc r ih => exact ih h

lemma skipSpaces_skipSpaces (cursor : List UInt8) : skipSpaces (skipSpaces cursor) = skipSpaces cursor := by
  cases h : skipSpaces cursor with
  | nil => rfl
  | cons c rest =>
    have hc := skipSpaces_head h
    simp [skipSpaces, hc]

lemma arguments_skipSpaces (cursor : List UInt8) : arguments (skipSpaces cursor) = arguments cursor := by
  cases h : skipSpaces cursor with
  | nil => rw [arguments_nil h, arguments_nil rfl]
  | cons c rest => rw [arguments_cons h, arguments_cons (h ▸ skipSpaces_skipSpaces cursor)]

/-- The string `w` stands at the address. -/
structure IsString (mem : ℕ → UInt8) (address : ℕ) (w : List UInt8) : Prop where
  nonzero : 0 ∉ w
  bytes : ∀ j, ∀ h : j < w.length, mem (address + j) = w.get ⟨j, h⟩
  terminator : mem (address + w.length) = 0

/-- **The loop over the arguments**: it ends, the arguments stand at the addresses, and every byte has been written
at or in front of the read cursor. -/
lemma takeLoop_spec (hnul : 0 ∉ line) {fuel : ℕ} (hfuel : line.length < fuel) {ws : List (List UInt8)} (h : Unread line s)
    (hle : s.write ≤ s.read) (hws : arguments (line.drop s.read) = some ws) :
    ∃ argv s', s.takeLoop fuel ws.length = some (argv, s') ∧ List.Forall₂ (IsString s'.mem) argv ws ∧
      (∀ i < s.write, s'.mem i = s.mem i) ∧ s'.write ≤ s'.read + 1 ∧ s'.read ≤ line.length ∧
      ∃ new, s'.written = new ++ s.written ∧ ∀ x ∈ new, x.1 ≤ x.2 ∧ x.2 ≤ line.length := by
  have hdrop : ∀ i, (line.drop i).length < fuel := by
    intro i
    rw [List.length_drop]
    omega
  induction ws generalizing s with
  | nil =>
    exact ⟨[], s, rfl, .nil, fun _ _ => rfl, Nat.le_succ_of_le hle, h.read_le, [], rfl, by simp⟩
  | cons w ws ih =>
    obtain ⟨n, hskip, hunrd, hrest, -⟩ := skip_spec h hle (hdrop _)
    have hle₁ : (s.advance n).write ≤ (s.advance n).read := Nat.le_trans hle (Nat.le_add_right _ _)
    obtain ⟨t, hcopy, hcps, hleft⟩ := copyArgument_spec hnul false hunrd hle₁ (hdrop _)
    obtain ⟨m, hskip', hunrd', hrest', hmove⟩ := skip_spec hcps.unread hcps.le (hdrop _)
    change line.drop (s.advance n).read = _ at hrest
    -- the first argument of the line, and the others
    have hargs : (readArgument false (line.drop (s.advance n).read)).1 = w ∧
        arguments (line.drop (t.advance m).read) = some ws := by
      change _ ∧ arguments (line.drop (t.read + m)) = some ws
      rw [hrest', arguments_skipSpaces, hleft, hrest]
      cases hhead : skipSpaces (line.drop s.read) with
      | nil =>
        rw [arguments_nil hhead] at hws
        cases hws
      | cons c rest =>
        rw [arguments_cons hhead] at hws
        split_ifs at hws
        obtain ⟨ws', hws', hcons⟩ := Option.map_eq_some_iff.mp hws
        obtain ⟨rfl, rfl⟩ := List.cons.inj hcons
        exact ⟨rfl, hws'⟩
    obtain ⟨hw, hoths⟩ := hargs
    rw [hw] at hcps
    have hput : t.write ≤ (t.advance m).read := Nat.le_trans hcps.le (Nat.le_add_right _ _)
    have hkept : ∀ i < t.write, ((t.advance m).put 0).mem i = t.mem i := fun i hi =>
      Function.update_of_ne (Nat.ne_of_lt hi) _ _
    have hzero : ((t.advance m).put 0).mem t.write = 0 := Function.update_self ..
    have hstr : IsString ((t.advance m).put 0).mem s.write w := by
      refine ⟨fun hmem => ?_, fun j hj => ?_, ?_⟩
      · rw [← hw] at hmem
        exact hnul (List.mem_of_mem_drop (mem_readArgument hmem))
      · rw [hkept _ (by rw [hcps.write]; exact Nat.add_lt_add_left hj _)]
        exact hcps.word j hj
      · have hend : t.write = s.write + w.length := hcps.write
        rwa [hend] at hzero
    have hbef : ∀ i < s.write, ((t.advance m).put 0).mem i = s.mem i := by
      intro i hi
      rw [hkept i (by rw [hcps.write]; exact Nat.lt_of_lt_of_le hi (Nat.le_add_right _ _))]
      exact hcps.kept i hi
    obtain ⟨new, hnew, hall⟩ := hcps.written
    have hwrit : ∃ new, ((t.advance m).put 0).written = new ++ s.written ∧
        ∀ x ∈ new, x.1 ≤ x.2 ∧ x.2 ≤ line.length := by
      refine ⟨(t.write, t.read + m) :: new, congrArg (_ :: ·) hnew, fun x hx => ?_⟩
      obtain rfl | hx := mem_cons.mp hx
      · exact ⟨hput, hunrd'.read_le⟩
      · exact hall x hx
    have hloop : s.takeLoop fuel (w :: ws).length =
        (((t.advance m).put 0).takeLoop fuel ws.length).map fun r => (s.write :: r.1, r.2) := by
      rw [length_cons, Cursors.takeLoop, hskip, Option.bind_some, hcopy, Option.bind_some, hskip', Option.bind_some]
      rfl
    rw [hloop]
    cases ws with
    | nil =>
      exact ⟨[s.write], (t.advance m).put 0, rfl, .cons hstr .nil, hbef, Nat.succ_le_succ hput, hunrd'.read_le,
        hwrit⟩
    | cons w' ws =>
      -- the argument has ended at a space, so that the read cursor is ahead
      have hpos : 0 < m := by
        cases hl : line.drop t.read with
        | nil =>
          rw [hl] at hrest'
          change arguments (line.drop (t.read + m)) = _ at hoths
          rw [hrest', arguments_nil rfl] at hoths
          cases hoths
        | cons c rest =>
          have hspc : c = space := readArgument_rest (hleft.symm.trans hl)
          exact hmove ((drop_cons hl).1.trans hspc)
      have hlt : t.write + 1 ≤ (t.advance m).read := by
        have hle := hcps.le
        change t.write + 1 ≤ t.read + m
        omega
      have hunrd₂ : Unread line ((t.advance m).put 0) := by
        refine ⟨fun i hi => ?_, hunrd'.read_le⟩
        have hi' : (t.advance m).read ≤ i := hi
        have hne : i ≠ t.write := by omega
        exact (Function.update_of_ne hne _ _).trans (hunrd'.mem i hi')
      obtain ⟨argv, s', htake, hstrs, hkept', hend, hread, new', hnew', hall'⟩ := ih hunrd₂ hlt hoths
      obtain ⟨new, hnew, hall⟩ := hwrit
      refine ⟨s.write :: argv, s', by rw [htake]; rfl, .cons ?_ hstrs, fun i hi => ?_, hend, hread, new' ++ new, ?_,
        fun x hx => ?_⟩
      · have hbel : ∀ j ≤ w.length, s'.mem (s.write + j) = ((t.advance m).put 0).mem (s.write + j) := by
          intro j hj
          refine hkept' _ ?_
          change s.write + j < t.write + 1
          rw [hcps.write]
          change s.write + j < s.write + w.length + 1
          omega
        refine ⟨hstr.nonzero, fun j hj => ?_, ?_⟩
        · rw [hbel j (Nat.le_of_lt hj)]
          exact hstr.bytes j hj
        · rw [hbel _ (Nat.le_refl _)]
          exact hstr.terminator
      · rw [hkept' i ?_, hbef i hi]
        change i < t.write + 1
        rw [hcps.write]
        change i < s.write + w.length + 1
        omega
      · rw [hnew', hnew, List.append_assoc]
      · obtain hx | hx := mem_append.mp hx
        · exact hall' x hx
        · exact hall x hx

/-! ### Building and reading -/

lemma readArgument_output (argument l : List UInt8) :
    readArgument true (argument.flatMap outputByte ++ quote :: l) =
      (argument ++ (readArgument false l).1, (readArgument false l).2) := by
  induction argument with
  | nil =>
    rw [List.flatMap_nil, List.nil_append, readArgument, if_pos rfl]
    rfl
  | cons c argument ih =>
    rw [List.flatMap_cons, List.append_assoc]
    by_cases hesc : needsEscape c = true
    · -- a quotation mark or a backslash stands behind a backslash
      have hout : outputByte c = [backslash, c] := if_pos hesc
      have hescap : escapable c = true := by
        unfold needsEscape at hesc
        unfold escapable
        rw [hesc, Bool.true_or]
      have hfst : byteAt (c :: (argument.flatMap outputByte ++ quote :: l)) 0 = c := rfl
      rw [hout, List.cons_append, List.cons_append, List.nil_append, readArgument, if_neg (by decide), hfst,
        if_pos ⟨rfl, hescap⟩, List.drop_one, List.tail_cons, ih]
      rfl
    · have hout : outputByte c = [c] := if_neg hesc
      have hpl : c ≠ quote ∧ c ≠ backslash := by simpa [needsEscape] using hesc
      rw [hout, List.singleton_append, readArgument, if_neg hpl.1, if_neg fun h => hpl.2 h.1,
        if_neg (by simp), ih]
      rfl

lemma arguments_output (i : ℕ) (argv : List (List UInt8)) : arguments (outputFrom i (argv.map some)) = some argv := by
  induction argv generalizing i with
  | nil => exact arguments_nil rfl
  | cons argument argv ih =>
    rw [map_cons, outputFrom]
    generalize hl : outputFrom (i + 1) (argv.map some) = l
    have hskip : skipSpaces ((if i ≠ 0 then [space] else []) ++ [quote] ++ ((some argument).getD []).flatMap outputByte ++
        [quote] ++ l) = quote :: (argument.flatMap outputByte ++ quote :: l) := by
      have hquo : (quote = space) = False := by decide
      by_cases hi : i ≠ 0
      · rw [if_pos hi]
        simp [skipSpaces, hquo]
      · rw [if_neg hi]
        simp [skipSpaces, hquo]
    have hread : readArgument false (quote :: (argument.flatMap outputByte ++ quote :: l)) = (argument, false, l) := by
      rw [readArgument, if_pos rfl, Bool.not_false, readArgument_output]
      -- behind the closing mark the line ends, or goes on with a space
      cases argv with
      | nil =>
        obtain rfl : [] = l := hl
        rw [readArgument, append_nil]
      | cons argument' argv =>
        have hspc : ∃ l', l = space :: l' := by
          rw [map_cons, outputFrom, if_pos (Nat.succ_ne_zero i)] at hl
          exact ⟨_, hl.symm⟩
        obtain ⟨l', rfl⟩ := hspc
        rw [readArgument, if_neg (by decide), if_neg (fun h => absurd h.1 (by decide)), if_pos ⟨by simp, rfl⟩,
          append_nil]
    rw [arguments_cons hskip, hread, ← hl, ih]
    rfl

/-! ### The length of the line -/

lemma length_outputByte (c : UInt8) : (outputByte c).length = if needsEscape c then 2 else 1 := by
  unfold outputByte
  split_ifs <;> rfl

lemma requiredBytes_eq {required : ℕ} (h : required ≤ uintMax) (cursor : List UInt8) :
    requiredBytes required cursor =
      if required + (cursor.flatMap outputByte).length ≤ uintMax then some (required + (cursor.flatMap outputByte).length)
      else none := by
  induction cursor generalizing required with
  | nil => rw [requiredBytes, List.flatMap_nil, length_nil, Nat.add_zero, if_pos h]
  | cons c cursor ih =>
    rw [requiredBytes, List.flatMap_cons, length_append, length_outputByte, ← Nat.add_assoc]
    have hbs : (if needsEscape c = true then 2 else 1) ≤ 2 := by split_ifs <;> decide
    generalize (if needsEscape c = true then 2 else 1) = bytes at *
    have htwo : 2 ≤ uintMax := by decide
    by_cases hlg : required > uintMax - bytes
    · rw [if_pos hlg, if_neg (by omega)]
    · rw [if_neg hlg, ih (by omega)]

lemma requiredFrom_eq {i required : ℕ} (h : required ≤ uintMax) (argv : List (List UInt8)) :
    requiredFrom i required (argv.map some) =
      if required + (outputFrom i (argv.map some)).length ≤ uintMax then
        some (required + (outputFrom i (argv.map some)).length)
      else none := by
  induction argv generalizing i required with
  | nil => simp [requiredFrom, outputFrom, h]
  | cons argument argv ih =>
    have htwo : 2 ≤ uintMax := by decide
    have hlen : (outputFrom i ((argument :: argv).map some)).length =
        (if i ≠ 0 then 1 else 0) + 2 + (argument.flatMap outputByte).length +
          (outputFrom (i + 1) (argv.map some)).length := by
      rw [map_cons, outputFrom]
      simp only [Option.getD_some, length_append, List.length_singleton]
      split_ifs <;> simp only [length_nil, List.length_singleton] <;> omega
    rw [hlen, map_cons, requiredFrom]
    have hrest := fun required => @ih (i + 1) required
    generalize (outputFrom (i + 1) (argv.map some)).length = rest at *
    have hspc : (if i ≠ 0 then required + 1 else required) = required + if i ≠ 0 then 1 else 0 := by
      split_ifs <;> rfl
    have hone : (if i ≠ 0 then 1 else 0) ≤ 1 ∧ (i = 0 → (if i ≠ 0 then 1 else 0) = 0) := by
      split_ifs with hi <;> omega
    rw [hspc]
    by_cases hmax : i ≠ 0 ∧ required = uintMax
    · rw [if_pos hmax, if_neg (by omega)]
    rw [if_neg hmax]
    generalize (if i ≠ 0 then 1 else 0) = space at *
    by_cases hlg : required + space > uintMax - 2
    · rw [if_pos hlg, if_neg (by omega)]
    rw [if_neg hlg, requiredBytes_eq (by omega)]
    generalize (argument.flatMap outputByte).length = n
    by_cases hfits : required + space + 2 + n ≤ uintMax
    · have hsum : required + space + 2 + n + rest = required + (space + 2 + n + rest) := by omega
      rw [if_pos hfits, Option.bind_some, hrest _ hfits, hsum]
    · rw [if_neg hfits, if_neg (by omega)]
      rfl

lemma zero_not_mem_output {argv : List (List UInt8)} (h : ∀ a ∈ argv, 0 ∉ a) (i : ℕ) : 0 ∉ outputFrom i (argv.map some) := by
  induction argv generalizing i with
  | nil => exact List.not_mem_nil
  | cons argument argv ih =>
    have hbs : 0 ∉ argument.flatMap outputByte := by
      rw [List.mem_flatMap]
      rintro ⟨c, hc, hmem⟩
      unfold outputByte at hmem
      split_ifs at hmem
      · obtain hmem | hmem := mem_cons.mp hmem
        · exact absurd hmem (by decide)
        · exact h argument mem_cons_self (mem_singleton.mp hmem ▸ hc)
      · exact h argument mem_cons_self (mem_singleton.mp hmem ▸ hc)
    have hrest := ih (fun a ha => h a (mem_cons_of_mem _ ha)) (i + 1)
    have hmar : (0 : UInt8) ≠ quote ∧ (0 : UInt8) ≠ space := by decide
    rw [map_cons, outputFrom, Option.getD_some]
    simp only [mem_append, mem_singleton, not_or]
    refine ⟨⟨⟨⟨?_, hmar.1⟩, hbs⟩, hmar.1⟩, hrest⟩
    split_ifs
    · simp [hmar.2]
    · simp

lemma length_le_output (i : ℕ) (argv : List (List UInt8)) : 2 * argv.length ≤ (outputFrom i (argv.map some)).length := by
  induction argv generalizing i with
  | nil => exact Nat.zero_le _
  | cons argument argv ih =>
    have hrest := ih (i + 1)
    rw [map_cons, outputFrom]
    simp only [length_append, length_cons, length_nil]
    omega

lemma build_eq (argv : List (List UInt8)) :
    runtimeCommandLineBuild true (argv.map some) =
      if (outputFrom 0 (argv.map some)).length < intMax then
        some (outputFrom 0 (argv.map some), (outputFrom 0 (argv.map some)).length)
      else none := by
  have hmax : intMax ≤ uintMax := by decide
  unfold runtimeCommandLineBuild
  rw [requiredFrom_eq (Nat.zero_le _), Nat.zero_add]
  by_cases hfits : (outputFrom 0 (argv.map some)).length < intMax
  · rw [if_pos (show _ ≤ uintMax by omega), if_pos hfits]
    exact if_neg (by simp [hfits])
  · rw [if_neg hfits]
    by_cases hsome : (outputFrom 0 (argv.map some)).length ≤ uintMax
    · rw [if_pos hsome]
      exact if_pos (.inl (Nat.le_of_not_lt hfits))
    · rw [if_neg hsome]

/-! ### The contract -/

lemma take_spec {pointerSize : ℕ} {ws : List (List UInt8)} (hnul : 0 ∉ line) (hws : arguments line = some ws)
    (hint : ws.length ≤ intMax) (hvec : ws.length ≤ uintMax / pointerSize - 1) :
    ∃ args, runtimeArgumentsTake pointerSize true line = some args ∧ args.argc = ws.length ∧
      List.Forall₂ (IsString args.storage.mem) args.argv ws ∧
      (∀ x ∈ args.storage.written, x.1 ≤ x.2 ∧ x.2 ≤ line.length) ∧
      args.storage.write ≤ args.storage.read + 1 ∧ args.storage.read ≤ line.length := by
  have hcnt : runtimeArgumentCount line = some ws.length := by
    unfold runtimeArgumentCount
    rw [argumentCountFrom_eq, hws, Option.map_some, Nat.zero_add]
  have hstar : Unread line ⟨byteAt line, 0, 0, []⟩ := ⟨fun _ _ => rfl, Nat.zero_le _⟩
  obtain ⟨argv, s', hloop, hstrs, -, hend, hread, new, hnew, hall⟩ :=
    takeLoop_spec hnul (show line.length < line.length + 2 by omega) hstar (Nat.le_refl 0) hws
  rw [append_nil] at hnew
  refine ⟨⟨ws.length, argv, s'⟩, ?_, rfl, hstrs, hnew ▸ hall, hend, hread⟩
  unfold runtimeArgumentsTake
  rw [hcnt]
  dsimp only
  rw [if_neg (by simp; omega), hloop, Option.map_some]

/-- **The arguments of a program.** What is built of arguments is read as these, as long as the vector fits; every
line that is accepted gives as many arguments as have been counted, and each byte is written within the line and not
behind the read cursor, which the last terminator alone lets the write cursor pass. -/
theorem runtime_arguments (pointerSize : ℕ) :
    (∀ (argv : List (List UInt8)) line length, (∀ a ∈ argv, 0 ∉ a) →
      runtimeCommandLineBuild true (argv.map some) = some (line, length) → argv.length ≤ uintMax / pointerSize - 1 →
        ∃ args, runtimeArgumentsParse pointerSize (true, true) line = some args ∧ args.argc = argv.length ∧
          List.Forall₂ (IsString args.storage.mem) args.argv argv) ∧
    (∀ (line : List UInt8) count, 0 ∉ line → runtimeArgumentCount line = some count → count ≤ intMax →
      count ≤ uintMax / pointerSize - 1 →
        ∃ args, runtimeArgumentsTake pointerSize true line = some args ∧ args.argc = count ∧ args.argv.length = count ∧
          (∀ x ∈ args.storage.written, x.1 ≤ x.2 ∧ x.2 < line.length + 1) ∧
          args.storage.write ≤ args.storage.read + 1 ∧ args.storage.read ≤ line.length) ∧
    (∀ (memory : Bool) (line : List UInt8) args, runtimeArgumentsTake pointerSize memory line = some args →
      runtimeArgumentCount line = some args.argc ∧ memory = true ∧ args.argc ≤ intMax ∧
        args.argc ≤ uintMax / pointerSize - 1) := by
  refine ⟨fun argv line length hnul hbuild hvector => ?_, fun line count hnul hcount hint hvector => ?_,
    fun memory line args htake => ?_⟩
  · rw [build_eq] at hbuild
    split_ifs at hbuild with hfits
    obtain ⟨rfl, -⟩ := Prod.mk.inj (Option.some.inj hbuild)
    have htwo := length_le_output 0 argv
    obtain ⟨args, htake, hargc, hstrings, -⟩ := take_spec (zero_not_mem_output hnul 0) (arguments_output 0 argv)
      (show argv.length ≤ intMax by omega) hvector
    refine ⟨args, ?_, hargc, hstrings⟩
    unfold runtimeArgumentsParse
    rw [if_neg (by simp; omega), htake]
  · have hcount' := hcount
    unfold runtimeArgumentCount at hcount'
    rw [argumentCountFrom_eq] at hcount'
    obtain ⟨ws, hws, hlength⟩ := Option.map_eq_some_iff.mp hcount'
    rw [Nat.zero_add] at hlength
    subst hlength
    obtain ⟨args, htake, hargc, hstrings, hwritten, hend, hread⟩ := take_spec hnul hws hint hvector
    exact ⟨args, htake, hargc, hstrings.length_eq, fun x hx => ⟨(hwritten x hx).1, Nat.lt_succ_of_le (hwritten x hx).2⟩,
      hend, hread⟩
  · unfold runtimeArgumentsTake at htake
    cases hcount : runtimeArgumentCount line with
    | none =>
      rw [hcount] at htake
      cases htake
    | some count =>
      rw [hcount] at htake
      dsimp only at htake
      split_ifs at htake with hlimits
      obtain ⟨r, -, rfl⟩ := Option.map_eq_some_iff.mp htake
      simp only [not_or, Nat.not_lt, Bool.not_eq_true', Bool.not_eq_false] at hlimits
      exact ⟨rfl, hlimits.2.2, hlimits.1, hlimits.2.1⟩

lemma count_a : runtimeArgumentCount [0x61] = some 1 := by
  have hread : readArgument false [0x61] = ([0x61], false, []) := by
    rw [readArgument, if_neg (by decide), if_neg (by decide), if_neg (by decide), readArgument]
  have hargs : arguments [0x61] = some [[0x61]] := by
    rw [arguments_cons rfl, hread, arguments_nil rfl]
    rfl
  unfold runtimeArgumentCount
  rw [argumentCountFrom_eq, hargs]
  rfl

/-- The line for `"a "` and an empty argument, and the line `a`. -/
theorem runtime_arguments_two :
    (∃ args, runtimeArgumentsParse 8 (true, true) [0x22, 0x61, 0x20, 0x22, 0x20, 0x22, 0x22] = some args ∧ args.argc = 2 ∧
      List.Forall₂ (IsString args.storage.mem) args.argv [[0x61, 0x20], []]) ∧
    ∃ args, runtimeArgumentsTake 8 true [0x61] = some args ∧ args.argv.length = 1 ∧ args.argc ≤ intMax := by
  obtain ⟨hbuild, hcount, htake⟩ := runtime_arguments 8
  obtain ⟨args, hargs, -, hlength, -⟩ := hcount [0x61] 1 (by decide) count_a (by decide) (by decide)
  exact ⟨hbuild [[0x61, 0x20], []] _ 7 (by decide) (by decide) (by decide),
    args, hargs, hlength, (htake true _ args hargs).2.2.1⟩

lemma length_output_empty (i n : ℕ) : (outputFrom (i + 1) ((List.replicate n []).map some)).length = 3 * n := by
  induction n generalizing i with
  | zero => rfl
  | succ n ih =>
    rw [List.replicate_succ, map_cons, outputFrom]
    simp only [length_append, ih]
    simp
    omega

lemma too_many {n : ℕ} (hlg : uintMax / 8 - 1 < n + 1) (hsm : 3 * n + 2 < intMax) :
    ∃ line length, runtimeCommandLineBuild true ((List.replicate (n + 1) []).map some) = some (line, length) ∧
      runtimeArgumentsParse 8 (true, true) line = none := by
  have hlen : (outputFrom 0 ((List.replicate (n + 1) []).map some)).length = 3 * n + 2 := by
    rw [List.replicate_succ, map_cons, outputFrom]
    simp only [length_append, length_output_empty]
    simp
    omega
  have hcnt : runtimeArgumentCount (outputFrom 0 ((List.replicate (n + 1) []).map some)) = some (n + 1) := by
    unfold runtimeArgumentCount
    rw [argumentCountFrom_eq, arguments_output, Option.map_some, List.length_replicate, Nat.zero_add]
  refine ⟨_, _, (build_eq _).trans (if_pos (by rwa [hlen])), ?_⟩
  have htake : runtimeArgumentsTake 8 true (outputFrom 0 ((List.replicate (n + 1) []).map some)) = none := by
    unfold runtimeArgumentsTake
    rw [hcnt]
    exact if_pos (.inr (.inl hlg))
  unfold runtimeArgumentsParse
  rw [htake, ite_self]

/-- 600000000 empty arguments are not read, with pointers of eight bytes; and behind the last terminator the write
cursor is past the read cursor. -/
theorem runtime_arguments_limits :
    (∃ line length, runtimeCommandLineBuild true ((List.replicate 600000000 []).map some) = some (line, length) ∧
      runtimeArgumentsParse 8 (true, true) line = none) ∧
    ∃ args, runtimeArgumentsTake 8 true [0x61] = some args ∧ args.storage.read < args.storage.write := by
  refine ⟨too_many (n := 599999999) (by unfold uintMax; omega) (by unfold intMax; omega), ?_⟩
  unfold runtimeArgumentsTake
  rw [count_a]
  exact ⟨_, rfl, by decide⟩

end PlantOS.Libp.RuntimeArgs

import PlantOS.Vfs.PathContract

/-!
# The absolute paths of the dynamic linker

`absolute_path` of `ldso/object.c` over the mounts of the kernel. A string is the list of its bytes before the terminator.
The bytes of the buffer below `used` are a list too: a write that would leave the buffer fails.
-/

namespace PlantOS.Ldso

open Vfs.PathText

def sizeMax : ℕ := 18446744073709551615

/-- The ends of `absolute_path` without a path: the three calls of `fail`, and a write outside of the buffer. -/
inductive PathFailure
  | workingDirectory | overflow | memory | outside
  deriving DecidableEq, Repr

/-! ### The buffer -/

def append (capacity : ℕ) (path bytes : List UInt8) : Option (List UInt8) :=
  if path.length + bytes.length ≤ capacity then some (path ++ bytes) else none

/-- `while (used > 3 && path[used - 1] != '/') used--`, on the bytes from the last one on -/
def dropName : List UInt8 → List UInt8
  | [] => []
  | c :: path => if path.length + 1 > 3 ∧ c ≠ slash then dropName path else c :: path

/-- What `..` does. -/
def popComponent (path : List UInt8) : List UInt8 :=
  let path := if path.length > 3 ∧ path.getLast? = some slash then path.dropLast else path
  (dropName path.reverse).reverse

def addComponent (capacity : ℕ) (path component : List UInt8) : Option (List UInt8) :=
  if component = [dot] then some path
  else if component = [dot, dot] then some (popComponent path)
  else
    (if path.getLast? ≠ some slash then append capacity path [slash] else some path).bind fun path =>
      append capacity path component

def addComponents (capacity : ℕ) : List UInt8 → List (List UInt8) → Option (List UInt8)
  | path, [] => some path
  | path, component :: rest => (addComponent capacity path component).bind fun path => addComponents capacity path rest

def finishPath (capacity : ℕ) (path : List UInt8) : Option (List UInt8) :=
  let path := if path.length > 3 ∧ path.getLast? = some slash then path.dropLast else path
  if path.length < capacity then some path else none

/-- `path[0] -= 'a' - 'A'` for a lower case letter -/
def upperCase (c : UInt8) : UInt8 := if 97 ≤ c ∧ c ≤ 122 then c - 32 else c

/-- `length >= 2 && name[1] == ':'` -/
def hasDrive (name : List UInt8) : Bool := name.length ≥ 2 && name[1]? = some colon

/-- The first bytes: the drive and the root, or the working directory and a slash. -/
def beginPath (capacity : ℕ) (cwd name : List UInt8) : Option (List UInt8) :=
  let drive := hasDrive name
  let letter := upperCase ((if drive then name else cwd).headD 0)
  if ¬drive ∧ name.head? ≠ some slash ∧ name.head? ≠ some backslash then
    (append capacity [letter, colon] (cwd.drop 2)).bind fun path =>
      if path.getLast? ≠ some slash then append capacity path [slash] else some path
  else append capacity [] [letter, colon, slash]

/-- `absolute_path` with the working directory `linker.cwd`; `memory` says whether the buffer can be allocated. -/
def absolutePath (cwd name : List UInt8) (memory : Bool) : Except PathFailure (List UInt8) :=
  if name.length > sizeMax - cwd.length - 4 then .error .overflow
  else if ¬memory then .error .memory
  else
    let capacity := cwd.length + name.length + 4
    let source := if hasDrive name then name.drop 2 else name
    let path := (beginPath capacity cwd name).bind fun path =>
      (addComponents capacity path (componentsFrom source [])).bind (finishPath capacity)
    match path with
    | some path => .ok path
    | none => .error .outside

/-- What `absolute_path` puts into `linker.cwd`: the drive and the text of the working directory. -/
def linkerCwd (s : Mounts) (cwd : Dentry) : Except PathFailure (List UInt8) :=
  match dentryPathLength cwd false with
  | .error _ => .error .workingDirectory
  | .ok length =>
    match s.vfsContextGetcwd cwd (length + 1) with
    | .error _ => .error .workingDirectory
    | .ok path =>
      if path.length ≠ length then .error .workingDirectory else .ok ((s.mount cwd.mount).drive :: colon :: path)

/-- `absolute_path` in a working directory of the kernel. -/
def absolutePathFrom (s : Mounts) (cwd : Dentry) (name : List UInt8) (memory : Bool) : Except PathFailure (List UInt8) :=
  match linkerCwd s cwd with
  | .error failure => .error failure
  | .ok cwd => absolutePath cwd name memory

/-! ### What a path stands for -/

structure Component (name : List UInt8) : Prop where
  nonempty : name ≠ []
  plain : ∀ c ∈ name, isSeparator c = false
  dot : name ≠ [Vfs.PathText.dot]
  dots : name ≠ [Vfs.PathText.dot, Vfs.PathText.dot]

/-- Where a name begins: at the root of a drive, at the root of the drive of the working directory, or there. -/
inductive Anchor
  | drive (letter : UInt8)
  | root
  | here
  deriving DecidableEq, Repr

def anchorOf (name : List UInt8) : Anchor :=
  if hasDrive name then .drive (name.headD 0)
  else if name.head? = some slash ∨ name.head? = some backslash then .root
  else .here

def namesOf (name : List UInt8) : List (List UInt8) := componentsFrom (if hasDrive name then name.drop 2 else name) []

def reduce (names : List (List UInt8)) (component : List UInt8) : List (List UInt8) :=
  if component = [dot] then names
  else if component = [dot, dot] then names.dropLast
  else names ++ [component]

/-- The names that a name stands for, in a working directory with the names `base`. -/
def reducedNames (base : List (List UInt8)) (name : List UInt8) : List (List UInt8) :=
  (namesOf name).foldl reduce (if anchorOf name = .here then base else [])

def letterOf (drive : UInt8) (name : List UInt8) : UInt8 :=
  upperCase (if hasDrive name then name.headD 0 else drive)

def joined (names : List (List UInt8)) : List UInt8 := names.flatMap fun name => slash :: name

/-- `D:/c1/…/cn` -/
def render (letter : UInt8) (names : List (List UInt8)) : List UInt8 :=
  letter :: colon :: if names = [] then [slash] else joined names

/-- What a working directory can be: the root of a mount, or a directory that was resolved, with the mounts as they were
then. -/
inductive WorkingDirectory : Dentry → Prop
  | root (m : Vfs.MountId) : WorkingDirectory (.root m)
  | change {s : Mounts} {cwd d : Dentry} {path : List UInt8} (h : WorkingDirectory cwd)
      (hd : s.vfsResolve cwd path = .ok d) : WorkingDirectory d

/-! ## What the absolute paths of the dynamic linker stand for -/

open List (cons_append dropLast_concat foldl_cons length_append length_cons length_nil length_singleton mem_append
    mem_cons_self mem_singleton not_mem_nil)

variable {s : Mounts} {cwd d : Dentry} {letter : UInt8} {names : List (List UInt8)} {name component : List UInt8}
  {capacity : ℕ}

/-! ### The buffer between two components -/

/-- The bytes below `used` for the names on the way; `slashed` says whether a slash stands at the end. -/
def held (letter : UInt8) (names : List (List UInt8)) (slashed : Bool) : List UInt8 :=
  letter :: colon :: (joined names ++ if slashed then [slash] else [])

/-- What the buffer holds between two components. -/
structure Holds (letter : UInt8) (names : List (List UInt8)) (path : List UInt8) : Prop where
  proper : ∀ name ∈ names, Component name
  bytes : ∃ slashed, path = held letter names slashed ∧ (names = [] → slashed = true)

lemma joined_concat (names : List (List UInt8)) (name : List UInt8) :
    joined (names ++ [name]) = joined names ++ slash :: name := by
  unfold joined
  rw [List.flatMap_append, List.flatMap_singleton]

lemma Component.last (h : Component name) (front : List UInt8) : (front ++ name).getLast? ≠ some slash := by
  intro hlast
  rw [List.getLast?_append_of_ne_nil _ h.nonempty] at hlast
  exact absurd (h.plain slash (List.mem_of_getLast? hlast)) (by decide)

lemma held_last (hnms : ∀ name ∈ names, Component name) {slashed : Bool} (hroot : names = [] → slashed = true) :
    (held letter names slashed).getLast? = some slash ↔ slashed = true := by
  cases slashed with
  | true =>
    refine iff_of_true ?_ rfl
    change (letter :: colon :: (joined names ++ [slash])).getLast? = _
    rw [← cons_append, ← cons_append]
    exact List.getLast?_concat
  | false =>
    refine iff_of_false ?_ Bool.false_ne_true
    rcases List.eq_nil_or_concat' names with rfl | ⟨front, last, rfl⟩
    · exact absurd (hroot rfl) Bool.false_ne_true
    · have hlast := hnms last (List.mem_append_right _ (List.mem_singleton_self _))
      unfold held
      rw [joined_concat]
      simpa using hlast.last (letter :: colon :: (joined front ++ [slash]))

lemma held_length (letter : UInt8) (names : List (List UInt8)) (slashed : Bool) :
    (held letter names slashed).length = 2 + (joined names).length + if slashed then 1 else 0 := by
  unfold held
  cases slashed <;> simp <;> omega

lemma joined_pos (hnms : names ≠ []) : 0 < (joined names).length := by
  cases names with
  | nil => exact absurd rfl hnms
  | cons name names => simp [joined]

lemma dropName_spec (front : List UInt8) (hft : 2 ≤ front.length) {name : List UInt8} (hname : slash ∉ name) :
    dropName ((front ++ slash :: name).reverse) = (front ++ [slash]).reverse := by
  rw [List.reverse_append, List.reverse_cons, List.append_assoc]
  have hrev : slash ∉ name.reverse := fun h => hname (List.mem_reverse.mp h)
  generalize name.reverse = last at hrev
  induction last with
  | nil =>
    simp only [List.nil_append, List.singleton_append, dropName]
    rw [if_neg (fun h => h.2 rfl), List.reverse_append]
    rfl
  | cons c rest ih =>
    have hc : c ≠ slash := fun h => hrev (h ▸ mem_cons_self)
    rw [cons_append, dropName, if_pos, ih fun h => hrev (.tail _ h)]
    refine ⟨?_, hc⟩
    simp only [length_append, length_singleton, List.length_reverse]
    omega

variable {path : List UInt8}

lemma popComponent_spec (h : Holds letter names path) :
    Holds letter names.dropLast (popComponent path) := by
  obtain ⟨hnms, slashed, rfl, hroot⟩ := h
  refine ⟨fun name hname => hnms name (List.dropLast_subset names hname), true, ?_, fun _ => rfl⟩
  rcases List.eq_nil_or_concat' names with rfl | ⟨front, last, rfl⟩
  · obtain rfl := hroot rfl
    rfl
  · have hlast := hnms last (List.mem_append_right _ (List.mem_singleton_self _))
    have hlong : (held letter (front ++ [last]) slashed).length > 3 := by
      have hpos := List.length_pos_of_ne_nil hlast.nonempty
      rw [held_length, joined_concat, length_append, length_cons]
      omega
    have hbare : (if (held letter (front ++ [last]) slashed).length > 3 ∧
        (held letter (front ++ [last]) slashed).getLast? = some slash then (held letter (front ++ [last]) slashed).dropLast
        else held letter (front ++ [last]) slashed) = letter :: colon :: joined front ++ slash :: last := by
      cases slashed with
      | true =>
        rw [if_pos ⟨hlong, (held_last hnms hroot).mpr rfl⟩]
        unfold held
        rw [joined_concat]
        simp only [if_true]
        rw [← cons_append, ← cons_append, dropLast_concat]
        rfl
      | false =>
        rw [if_neg fun h => Bool.false_ne_true ((held_last hnms hroot).mp h.2)]
        unfold held
        rw [joined_concat]
        simp
    have hpl : slash ∉ last := fun h => absurd (hlast.plain slash h) (by decide)
    unfold popComponent
    dsimp only
    rw [hbare, dropName_spec _ (by simp) hpl, List.reverse_reverse, dropLast_concat]
    rfl

lemma pushComponent_spec (h : Holds letter names path) (hcomp : Component component)
    (hroom : path.length + 1 + component.length ≤ capacity) :
    ∃ path', addComponent capacity path component = some path' ∧ Holds letter (names ++ [component]) path' ∧
      path'.length ≤ path.length + 1 + component.length := by
  obtain ⟨hnms, slashed, rfl, hroot⟩ := h
  have hall : ∀ name ∈ names ++ [component], Component name := fun name hname => by
    rcases mem_append.mp hname with hold | hnew
    · exact hnms name hold
    · rw [mem_singleton.mp hnew]
      exact hcomp
  have hheld : ∀ front, front = letter :: colon :: (joined names ++ [slash]) →
      front ++ component = held letter (names ++ [component]) false := by
    rintro front rfl
    unfold held
    rw [joined_concat]
    simp
  unfold addComponent
  rw [if_neg hcomp.dot, if_neg hcomp.dots]
  cases slashed with
  | true =>
    have hlast : (held letter names true).getLast? = some slash := (held_last hnms hroot).mpr rfl
    rw [if_neg (fun h => h hlast), Option.bind_some, append, if_pos (by omega)]
    refine ⟨_, rfl, ⟨hall, false, hheld _ rfl, fun h => absurd h (by simp)⟩, ?_⟩
    rw [length_append]
    omega
  | false =>
    have hlast : (held letter names false).getLast? ≠ some slash := fun h =>
      Bool.false_ne_true ((held_last hnms hroot).mp h)
    rw [if_pos hlast, append, if_pos (by rw [length_singleton]; omega), Option.bind_some, append,
      if_pos (by rw [length_append, length_singleton]; omega)]
    refine ⟨_, rfl, ⟨hall, false, hheld _ (by simp [held]), fun h => absurd h (by simp)⟩, ?_⟩
    simp only [length_append, length_singleton]
    omega

lemma component_cases (hpl : component ≠ [] ∧ ∀ c ∈ component, isSeparator c = false) :
    component = [dot] ∨ component = [dot, dot] ∨ Component component := by
  by_cases hdot : component = [dot]
  · exact .inl hdot
  by_cases hdots : component = [dot, dot]
  · exact .inr (.inl hdots)
  exact .inr (.inr ⟨hpl.1, hpl.2, hdot, hdots⟩)

lemma dropName_length (path : List UInt8) : (dropName path).length ≤ path.length := by
  induction path with
  | nil => exact Nat.le_refl _
  | cons c path ih =>
    rw [dropName]
    split_ifs
    · exact Nat.le_succ_of_le ih
    · exact Nat.le_refl _

lemma popComponent_length (path : List UInt8) : (popComponent path).length ≤ path.length := by
  unfold popComponent
  dsimp only
  rw [List.length_reverse]
  refine Nat.le_trans (dropName_length _) ?_
  rw [List.length_reverse]
  split_ifs
  · rw [List.length_dropLast]
    omega
  · exact Nat.le_refl _

lemma addComponent_spec (h : Holds letter names path)
    (hpl : component ≠ [] ∧ ∀ c ∈ component, isSeparator c = false)
    (hroom : path.length + 1 + component.length ≤ capacity) :
    ∃ path', addComponent capacity path component = some path' ∧ Holds letter (reduce names component) path' ∧
      path'.length ≤ path.length + 1 + component.length := by
  rcases component_cases hpl with rfl | rfl | hcomp
  · exact ⟨path, if_pos rfl, h, by omega⟩
  · have hlen := popComponent_length path
    exact ⟨_, by rw [addComponent, if_neg (by decide), if_pos rfl], popComponent_spec h, by omega⟩
  · have hreduc : reduce names component = names ++ [component] := by
      unfold reduce
      rw [if_neg hcomp.dot, if_neg hcomp.dots]
    rw [hreduc]
    exact pushComponent_spec h hcomp hroom

def room (components : List (List UInt8)) : ℕ := (components.map fun component => 1 + component.length).sum

variable {components : List (List UInt8)}

lemma addComponents_spec
    (hpl : ∀ component ∈ components, component ≠ [] ∧ ∀ c ∈ component, isSeparator c = false)
    {path : List UInt8} (h : Holds letter names path) (hroom : path.length + room components ≤ capacity) :
    ∃ path', addComponents capacity path components = some path' ∧ Holds letter (components.foldl reduce names) path' ∧
      path'.length ≤ path.length + room components := by
  induction components generalizing names path with
  | nil => exact ⟨path, rfl, h, Nat.le_refl _⟩
  | cons component components ih =>
    have hsum : room (component :: components) = 1 + component.length + room components := by
      simp [room]
    rw [hsum] at hroom
    obtain ⟨path₁, hadd, hhol, hlen⟩ := @addComponent_spec _ _ _ capacity _ h (hpl component mem_cons_self)
      (by omega)
    obtain ⟨path', hrest, hhol', hlen'⟩ := ih (fun c hc => hpl c (.tail _ hc)) hhol (by omega)
    refine ⟨path', ?_, hhol', by omega⟩
    rw [addComponents, hadd, Option.bind_some, hrest]

lemma room_componentsFrom (source component : List UInt8) :
    room (componentsFrom source component) ≤ source.length + component.length + 1 := by
  induction source generalizing component with
  | nil =>
    rw [componentsFrom]
    split_ifs <;> simp [room]
    omega
  | cons c source ih =>
    rw [componentsFrom, length_cons]
    split_ifs
    · have := ih []
      simp only [length_nil] at this
      omega
    · have := ih []
      simp only [length_nil, room, List.map_cons, List.sum_cons] at this ⊢
      omega
    · have := ih (component ++ [c])
      rw [length_append, length_singleton] at this
      omega

lemma finishPath_spec (h : Holds letter names path) (hroom : path.length < capacity) :
    finishPath capacity path = some (render letter names) := by
  obtain ⟨hnms, slashed, rfl, hroot⟩ := h
  have hbare : (if (held letter names slashed).length > 3 ∧ (held letter names slashed).getLast? = some slash then
      (held letter names slashed).dropLast else held letter names slashed) = render letter names := by
    by_cases hnil : names = []
    · obtain rfl := hroot hnil
      subst hnil
      rfl
    · have hpos := joined_pos hnil
      unfold render
      rw [if_neg hnil]
      cases slashed with
      | true =>
        rw [if_pos ⟨by rw [held_length, if_pos rfl]; omega, (held_last hnms hroot).mpr rfl⟩]
        unfold held
        rw [if_pos rfl, ← cons_append, ← cons_append, dropLast_concat]
      | false =>
        rw [if_neg fun h => Bool.false_ne_true ((held_last hnms hroot).mp h.2)]
        simp [held]
  have hlen : (render letter names).length ≤ (held letter names slashed).length := by
    rw [← hbare]
    split_ifs
    · rw [List.length_dropLast]
      omega
    · exact Nat.le_refl _
  unfold finishPath
  dsimp only
  rw [hbare, if_pos (by omega)]

/-! ### The whole function -/

lemma text_held (letter : UInt8) (cwd : Dentry) :
    ∃ slashed, letter :: colon :: text cwd = held letter cwd.names slashed ∧ (cwd.names = [] → slashed = true) := by
  have hwr := write_eq cwd []
  rw [List.append_nil] at hwr
  unfold text
  rw [hwr]
  cases hcwd : cwd.names with
  | nil => exact ⟨true, rfl, fun _ => rfl⟩
  | cons name rest =>
    refine ⟨false, ?_, fun h => absurd h (List.cons_ne_nil _ _)⟩
    rw [if_neg (by simp)]
    simp [held, joined]

lemma beginPath_spec (hnms : ∀ name ∈ cwd.names, Component name) (drive : UInt8) (name : List UInt8)
    (hroom : (drive :: colon :: text cwd).length + 1 ≤ capacity) :
    ∃ path, beginPath capacity (drive :: colon :: text cwd) name = some path ∧
      Holds (letterOf drive name) (if anchorOf name = .here then cwd.names else []) path ∧
      path.length ≤ if anchorOf name = .here then (drive :: colon :: text cwd).length + 1 else 3 := by
  have hlong : 3 ≤ (drive :: colon :: text cwd).length := by
    obtain ⟨rest, htext, -⟩ := text_cons cwd
    rw [htext]
    simp only [length_cons]
    omega
  have hroot : ∀ letter, ∃ path, append capacity [] [letter, colon, slash] = some path ∧ Holds letter [] path ∧
      path.length ≤ 3 := fun letter => by
    have hthr : ([] : List UInt8).length + [letter, colon, slash].length ≤ capacity := by
      simp only [length_cons, length_nil] at hlong hroom ⊢
      omega
    refine ⟨_, if_pos hthr, ⟨fun _ h => (not_mem_nil h).elim, true, rfl, fun _ => rfl⟩, Nat.le_refl _⟩
  unfold beginPath anchorOf letterOf
  dsimp only
  by_cases hdrv : hasDrive name = true
  · simp only [hdrv, if_true, not_true_eq_false, false_and, if_false, reduceCtorEq]
    exact hroot _
  · simp only [hdrv, if_false, Bool.false_eq_true, not_false_eq_true, true_and]
    by_cases hhead : name.head? = some slash ∨ name.head? = some backslash
    · rw [if_neg fun h => hhead.elim h.1 h.2]
      simp only [hhead, if_true, if_false, reduceCtorEq]
      exact hroot _
    · rw [if_pos ⟨fun h => hhead (.inl h), fun h => hhead (.inr h)⟩, if_neg hhead, if_pos rfl, if_pos rfl]
      obtain ⟨slashed, htext, hbare⟩ := text_held (upperCase drive) cwd
      have hlen : (upperCase drive :: colon :: text cwd).length = (drive :: colon :: text cwd).length := rfl
      have happ : append capacity [upperCase drive, colon] (text cwd) = some (upperCase drive :: colon :: text cwd) :=
        if_pos (by simp only [length_cons, length_nil] at hroom ⊢; omega)
      change ∃ path, (append capacity [upperCase drive, colon] (text cwd)).bind _ = some path ∧ _
      rw [happ, Option.bind_some]
      cases slashed with
      | true =>
        have hlast : (upperCase drive :: colon :: text cwd).getLast? = some slash := by
          rw [htext]
          exact (held_last hnms hbare).mpr rfl
        rw [if_neg fun h => h hlast]
        exact ⟨_, rfl, ⟨hnms, true, htext, hbare⟩, by omega⟩
      | false =>
        have hlast : (upperCase drive :: colon :: text cwd).getLast? ≠ some slash := by
          rw [htext]
          exact fun h => Bool.false_ne_true ((held_last hnms hbare).mp h)
        rw [if_pos hlast, append, if_pos (by rw [hlen, length_singleton]; omega)]
        refine ⟨_, rfl, ⟨hnms, true, ?_, fun _ => rfl⟩, ?_⟩
        · rw [htext]
          simp [held]
        · rw [length_append, hlen, length_singleton]

lemma namesOf_plain (name : List UInt8) :
    ∀ component ∈ namesOf name, component ≠ [] ∧ ∀ c ∈ component, isSeparator c = false :=
  fun _ h => componentsFrom_mem (fun _ hc => (not_mem_nil hc).elim) h

/-- **The buffer is large enough, and holds the path of the names.** -/
theorem absolutePath_eq (hnms : ∀ name ∈ cwd.names, Component name) (drive : UInt8) (name : List UInt8) (memory : Bool) :
    absolutePath (drive :: colon :: text cwd) name memory =
      if name.length > sizeMax - (drive :: colon :: text cwd).length - 4 then .error .overflow
      else if memory then .ok (render (letterOf drive name) (reducedNames cwd.names name))
      else .error .memory := by
  unfold absolutePath
  by_cases hover : name.length > sizeMax - (drive :: colon :: text cwd).length - 4
  · rw [if_pos hover, if_pos hover]
  rw [if_neg hover, if_neg hover]
  cases memory with
  | false => rfl
  | true =>
    obtain ⟨path, hbeg, hhol, hlen⟩ := beginPath_spec hnms drive name
      (show (drive :: colon :: text cwd).length + 1 ≤ (drive :: colon :: text cwd).length + name.length + 4 by omega)
    have hroom := room_componentsFrom (if hasDrive name then name.drop 2 else name) []
    have hsrc : (if hasDrive name then name.drop 2 else name).length ≤ name.length := by
      split_ifs
      · rw [List.length_drop]
        omega
      · exact Nat.le_refl _
    change room (namesOf name) ≤ _ at hroom
    rw [length_nil] at hroom
    have hlong : 3 ≤ (drive :: colon :: text cwd).length := by
      obtain ⟨rest, htext, -⟩ := text_cons cwd
      rw [htext]
      simp only [length_cons]
      omega
    have hbd : path.length ≤ (drive :: colon :: text cwd).length + 1 := by
      split_ifs at hlen <;> omega
    obtain ⟨path', hadd, hhol', hlen'⟩ := @addComponents_spec _ _
      ((drive :: colon :: text cwd).length + name.length + 4) _ (namesOf_plain name) _ hhol (by omega)
    have hfin := finishPath_spec hhol'
      (show path'.length < (drive :: colon :: text cwd).length + name.length + 4 by omega)
    rw [if_neg (by simp)]
    dsimp only
    change addComponents _ _ (componentsFrom _ []) = _ at hadd
    rw [hbeg, Option.bind_some, hadd, Option.bind_some, hfin]
    rfl

/-! ### Working directories -/

variable {current next : Dentry}

lemma enter_names (h : ∀ name ∈ d.names, Component name)
    (hpl : ∀ c ∈ component, isSeparator c = false)
    (he : s.enter d component = .ok next) : ∀ name ∈ next.names, Component name := by
  unfold Mounts.enter at he
  split_ifs at he with hdot hdots
  · cases he
    exact h
  · cases he
    cases d with
    | root m => exact h
    | child parent other node => exact fun name hname => h name (List.mem_append_left _ hname)
  · split at he
    · cases he
    · rename_i normalized hnorm
      split at he
      · cases he
      · cases he
        have hprop := normalizeComponent_proper hpl hdot hdots hnorm
        intro name hname
        rcases mem_append.mp hname with hold | hnew
        · exact h name hold
        · rw [mem_singleton.mp hnew]
          exact { hprop with }

lemma walk_component {rest : List (List UInt8)}
    (he : s.walk current (component :: rest) = .ok next) :
    ∃ first, s.enter current component = .ok first ∧ s.walk first rest = .ok next := by
  rw [Mounts.walk] at he
  split at he
  · cases he
  · rename_i first hfst
    exact ⟨first, hfst, he⟩

lemma walk_proper (h : ∀ name ∈ d.names, Component name)
    (hpl : ∀ component ∈ components, ∀ c ∈ component, isSeparator c = false) (he : s.walk d components = .ok next) :
    ∀ name ∈ next.names, Component name := by
  induction components generalizing d with
  | nil =>
    cases he
    exact h
  | cons component rest ih =>
    obtain ⟨first, hfst, he⟩ := walk_component he
    exact ih (enter_names h (hpl component mem_cons_self) hfst) (fun c hc => hpl c (.tail _ hc)) he

inductive Starts (s : Mounts) (cwd : Dentry) (name : List UInt8) : Dentry → Prop
  | drive {m : Vfs.MountId} (h : hasDrive name = true) (hroot : s.rootForDrive (name.headD 0) = some (.root m)) :
      Starts s cwd name (.root m)
  | root (h : hasDrive name ≠ true) (hanchor : anchorOf name = .root) : Starts s cwd name (.root cwd.mount)
  | here (h : hasDrive name ≠ true) (hanchor : anchorOf name = .here) : Starts s cwd name cwd

/-- **The kernel has the same anchors and the same components.** -/
lemma starts_of_resolve (he : s.vfsResolve cwd name = .ok d) :
    ∃ current, Starts s cwd name current ∧ (s.mount current.mount).diskReady = true ∧
      s.walk current (namesOf name) = .ok d := by
  obtain ⟨current, cursor, hstar, hrdy, hwalk⟩ := vfsResolve_cases he
  have hboth : Starts s cwd name current ∧ cursor = if hasDrive name then name.drop 2 else name := by
    cases name with
    | nil =>
      cases hstar
      exact ⟨.here (by decide) (by decide), rfl⟩
    | cons c rest =>
      have hdrv : hasDrive (c :: rest) = true ↔ rest.head? = some colon := by
        cases rest with
        | nil => exact iff_of_false (by simp [hasDrive]) (by simp)
        | cons e rest => simp [hasDrive]
      rw [Mounts.start] at hstar
      by_cases hcol : rest.head? = some colon
      · rw [if_pos hcol] at hstar
        rw [if_pos (hdrv.mpr hcol)]
        cases hroot : s.rootForDrive c with
        | none =>
          rw [hroot] at hstar
          cases hstar
        | some root =>
          rw [hroot] at hstar
          cases hstar
          obtain ⟨letter, -, hfnd⟩ := Option.bind_eq_some_iff.mp hroot
          obtain ⟨m, -, rfl⟩ := Option.map_eq_some_iff.mp hfnd
          exact ⟨.drive (hdrv.mpr hcol) hroot, by rw [← List.drop_one]; rfl⟩
      · have hnone : ¬hasDrive (c :: rest) = true := fun h => hcol (hdrv.mp h)
        rw [if_neg hcol] at hstar
        rw [if_neg hnone]
        have hanchor : anchorOf (c :: rest) = if isSeparator c = true then .root else .here := by
          unfold anchorOf
          rw [if_neg hnone]
          simp [isSeparator]
        by_cases hsep : isSeparator c = true
        · rw [if_pos hsep] at hstar hanchor
          cases hstar
          exact ⟨.root hnone hanchor, rfl⟩
        · rw [if_neg hsep] at hstar hanchor
          cases hstar
          exact ⟨.here hnone hanchor, rfl⟩
  obtain ⟨hstarts, rfl⟩ := hboth
  exact ⟨current, hstarts, hrdy, hwalk⟩

lemma WorkingDirectory.proper (h : WorkingDirectory cwd) : ∀ name ∈ cwd.names, Component name := by
  induction h with
  | root m => exact fun _ hname => (not_mem_nil hname).elim
  | @change s cwd d path _ hd ih =>
    obtain ⟨current, hstarts, -, hwalk⟩ := starts_of_resolve hd
    refine walk_proper ?_ (fun component h => (namesOf_plain path component h).2) hwalk
    cases hstarts with
    | drive _ _ => exact fun _ hname => (not_mem_nil hname).elim
    | root _ _ => exact fun _ hname => (not_mem_nil hname).elim
    | here _ _ => exact ih

lemma linkerCwd_eq (s : Mounts) (cwd : Dentry) : linkerCwd s cwd =
    if (write cwd []).length ≤ intMax - 3 then .ok ((s.mount cwd.mount).drive :: colon :: text cwd)
    else .error .workingDirectory := by
  unfold linkerCwd
  rw [dentryPathLength_eq]
  by_cases hfits : (write cwd []).length ≤ intMax - 3
  · rw [if_pos hfits, if_pos hfits]
    dsimp only
    unfold Mounts.vfsContextGetcwd
    have hpath := dentryPath_eq s cwd ((text cwd).length + 0 + 1) false hfits (Nat.lt_succ_self _)
    simp only [Bool.false_eq_true, if_false, hpath, List.nil_append]
    rw [if_neg (fun h => h (Nat.add_zero _).symm)]
  · rw [if_neg hfits, if_neg hfits]

/-! ### Reading a path back -/

lemma reduce_component (h : Component component) : reduce names component = names ++ [component] := by
  unfold reduce
  rw [if_neg h.dot, if_neg h.dots]

lemma reduce_names (base : List (List UInt8)) (h : ∀ name ∈ names, Component name) :
    names.foldl reduce base = base ++ names := by
  induction names generalizing base with
  | nil => exact (List.append_nil _).symm
  | cons name names ih =>
    rw [foldl_cons, reduce_component (h name mem_cons_self), ih _ fun other hoth => h other (.tail _ hoth),
      List.append_assoc]
    rfl

lemma namesOf_render (letter : UInt8) (h : ∀ name ∈ names, Component name) : namesOf (render letter names) = names := by
  change componentsFrom (if names = [] then [slash] else joined names) [] = names
  by_cases hnil : names = []
  · subst hnil
    rfl
  · rw [if_neg hnil]
    exact componentsFrom_text fun name hname => ⟨(h name hname).nonempty, (h name hname).plain⟩

lemma reducedNames_render (base : List (List UInt8)) (letter : UInt8) (h : ∀ name ∈ names, Component name) :
    reducedNames base (render letter names) = names := by
  unfold reducedNames
  rw [namesOf_render letter h]
  exact reduce_names [] h

lemma reduce_proper (h : ∀ name ∈ names, Component name) (hpl : component ≠ [] ∧ ∀ c ∈ component, isSeparator c = false) :
    ∀ name ∈ reduce names component, Component name := by
  rcases component_cases hpl with rfl | rfl | hcomp
  · exact h
  · exact fun name hname => h name (List.dropLast_subset names hname)
  · rw [reduce_component hcomp]
    intro name hname
    rcases mem_append.mp hname with hold | hnew
    · exact h name hold
    · rw [mem_singleton.mp hnew]
      exact hcomp

lemma reducedNames_proper {base : List (List UInt8)} (h : ∀ name ∈ base, Component name) (name : List UInt8) :
    ∀ other ∈ reducedNames base name, Component other := by
  have hfold : ∀ components : List (List UInt8),
      (∀ component ∈ components, component ≠ [] ∧ ∀ c ∈ component, isSeparator c = false) →
      ∀ names : List (List UInt8), (∀ name ∈ names, Component name) →
        ∀ other ∈ components.foldl reduce names, Component other := by
    intro components
    induction components with
    | nil => exact fun _ _ h => h
    | cons component components ih =>
      intro hpl names hnms
      exact ih (fun c hc => hpl c (.tail _ hc)) _ (reduce_proper hnms (hpl component mem_cons_self))
  refine hfold _ (namesOf_plain name) _ ?_
  split_ifs
  · exact h
  · exact fun _ hname => (not_mem_nil hname).elim

lemma foldl_reduce_dots (components : List (List UInt8)) :
    components.foldl reduce names = (components.filter fun component => component ≠ [dot]).foldl reduce names := by
  induction components generalizing names with
  | nil => rfl
  | cons component components ih =>
    by_cases hdot : component = [dot]
    · rw [foldl_cons, List.filter_cons_of_neg (by simpa using hdot), ← ih]
      rw [show reduce names component = names from if_pos hdot]
    · rw [foldl_cons, List.filter_cons_of_pos (by simpa using hdot), foldl_cons, ih]

/-! ### The walk of the kernel -/

/-- **One component.** Where the names lead, and the component from there, the names lead with the component taken in. -/
lemma walk_reduce {m : Vfs.MountId} (hnms : ∀ name ∈ names, Component name)
    (hpl : component ≠ [] ∧ ∀ c ∈ component, isSeparator c = false)
    (hcur : s.walk (.root m) names = .ok current) (he : s.enter current component = .ok next) :
    s.walk (.root m) (reduce names component) = .ok next := by
  rcases component_cases hpl with rfl | rfl | hcomp
  · rw [Mounts.enter, if_pos rfl] at he
    cases he
    exact hcur
  · rw [Mounts.enter, if_neg (by decide), if_pos rfl] at he
    cases he
    rcases List.eq_nil_or_concat' names with rfl | ⟨front, last, rfl⟩
    · cases hcur
      rfl
    · have hlast := hnms last (List.mem_append_right _ (List.mem_singleton_self _))
      have hreduc : reduce (front ++ [last]) [dot, dot] = front := by
        unfold reduce
        rw [if_neg (by decide), if_pos rfl, dropLast_concat]
      rw [hreduc]
      rw [walk_last] at hcur
      cases hft : s.walk (.root m) front with
      | error status =>
        rw [hft] at hcur
        cases hcur
      | ok parent =>
        -- the last name is below the directory where those before it lead
        rw [hft] at hcur
        change s.enter parent last = _ at hcur
        rw [Mounts.enter, if_neg hlast.dot, if_neg hlast.dots] at hcur
        split_ifs at hcur
        split at hcur
        · cases hcur
        · split at hcur
          · cases hcur
          · cases hcur
            rfl
  · rw [reduce_component hcomp, walk_last, hcur]
    exact he

lemma walk_foldl_reduce {m : Vfs.MountId}
    (hpl : ∀ component ∈ components, component ≠ [] ∧ ∀ c ∈ component, isSeparator c = false)
    (hnms : ∀ name ∈ names, Component name) (hcur : s.walk (.root m) names = .ok current)
    (he : s.walk current components = .ok next) : s.walk (.root m) (components.foldl reduce names) = .ok next := by
  induction components generalizing names current with
  | nil =>
    cases he
    exact hcur
  | cons component components ih =>
    obtain ⟨first, hfst, he⟩ := walk_component he
    have hcomp := hpl component mem_cons_self
    exact ih (fun c hc => hpl c (.tail _ hc)) (reduce_proper hnms hcomp)
      (walk_reduce hnms hcomp hcur hfst) he

lemma normalizeDrive_upperCase (c : UInt8) : normalizeDrive (upperCase c) = normalizeDrive c := by
  unfold normalizeDrive upperCase
  dsimp only
  by_cases hc : 97 ≤ c ∧ c ≤ 122
  · have hnot : ¬(97 ≤ c - 32 ∧ c - 32 ≤ 122) := by
      rintro ⟨hlow, -⟩
      rw [UInt8.le_iff_toNat_le] at hlow hc
      rw [UInt8.le_iff_toNat_le] at hc
      rw [UInt8.toNat_sub_of_le _ _ (by rw [UInt8.le_iff_toNat_le]; simp at hc ⊢; omega)] at hlow
      simp at hlow hc
      omega
    rw [if_pos hc, if_neg hnot]
  · rw [if_neg hc, if_neg hc]

lemma rootForDrive_upperCase (s : Mounts) (c : UInt8) : s.rootForDrive (upperCase c) = s.rootForDrive c := by
  unfold Mounts.rootForDrive
  rw [normalizeDrive_upperCase]

/-- **The path of the names leads where the name leads.** -/
theorem resolve_render (hcwd : ∀ name ∈ cwd.names, Component name) (he : s.vfsResolve cwd name = .ok d)
    (hplc : hasDrive name = true ∨ Attached s (if anchorOf name = .here then cwd else .root cwd.mount)) (cwd' : Dentry) :
    s.vfsResolve cwd' (render (letterOf (s.mount cwd.mount).drive name) (reducedNames cwd.names name)) = .ok d := by
  obtain ⟨current, hstarts, hrdy, hwalk⟩ := starts_of_resolve he
  -- the root of the drive, and the names from there to where the name starts
  obtain ⟨m, hroot, hmnt, base, hbase, hprop, hcur⟩ : ∃ m,
      s.rootForDrive (letterOf (s.mount cwd.mount).drive name) = some (.root m) ∧ current.mount = m ∧
      ∃ base, base = (if anchorOf name = .here then cwd.names else []) ∧ (∀ name ∈ base, Component name) ∧
        s.walk (.root m) base = .ok current := by
    unfold letterOf
    cases hstarts with
    | @drive m h hroot =>
      have hanchor : anchorOf name ≠ .here := by
        unfold anchorOf
        rw [if_pos h]
        exact nofun
      rw [if_pos h, rootForDrive_upperCase]
      exact ⟨m, hroot, rfl, [], (if_neg hanchor).symm, fun _ hname => (not_mem_nil hname).elim, rfl⟩
    | root h hanchor =>
      have hatt := hplc.resolve_left h
      rw [if_neg (by rw [hanchor]; nofun)] at hatt
      rw [if_neg h, rootForDrive_upperCase]
      exact ⟨_, hatt, rfl, [], by rw [hanchor]; rfl, fun _ hname => (not_mem_nil hname).elim, rfl⟩
    | here h hanchor =>
      have hatt := hplc.resolve_left h
      rw [if_pos hanchor] at hatt
      rw [if_neg h, rootForDrive_upperCase]
      exact ⟨_, hatt.root, rfl, cwd.names, (if_pos hanchor).symm, hcwd, walk_names hatt hrdy⟩
  subst hmnt
  have hred := walk_foldl_reduce (namesOf_plain name) hprop hcur hwalk
  rw [hbase] at hred
  change s.walk _ (reducedNames cwd.names name) = _ at hred
  have hback := namesOf_render (letterOf (s.mount cwd.mount).drive name) (reducedNames_proper hcwd name)
  change componentsFrom (if reducedNames cwd.names name = [] then [slash] else joined (reducedNames cwd.names name)) [] = _
    at hback
  unfold render Mounts.vfsResolve
  rw [start_drive, hroot]
  dsimp only
  rw [hback, hred]
  exact if_pos hrdy

/-! ### The contract -/

lemma upperCase_range {c : UInt8} (h : 65 ≤ c ∧ c ≤ 90 ∨ 97 ≤ c ∧ c ≤ 122) : 65 ≤ upperCase c ∧ upperCase c ≤ 90 := by
  unfold upperCase
  simp only [UInt8.le_iff_toNat_le] at h ⊢
  by_cases hc : (97 : UInt8).toNat ≤ c.toNat ∧ c.toNat ≤ (122 : UInt8).toNat
  · rw [if_pos hc, UInt8.toNat_sub_of_le _ _ (by rw [UInt8.le_iff_toNat_le]; simp at hc ⊢; omega)]
    simp at hc ⊢
    omega
  · rw [if_neg hc]
    simp at hc h ⊢
    omega

lemma upperCase_upperCase (c : UInt8) : upperCase (upperCase c) = upperCase c := by
  by_cases hc : 97 ≤ c ∧ c ≤ 122
  · have hrng := upperCase_range (.inr hc)
    have hnot : ¬(97 ≤ upperCase c ∧ upperCase c ≤ 122) := fun h =>
      absurd (UInt8.le_trans h.1 hrng.2) (by decide)
    exact if_neg hnot
  · have hsame : upperCase c = c := if_neg hc
    rw [hsame, hsame]

def driveOf (s : Mounts) (cwd : Dentry) (name : List UInt8) : UInt8 :=
  if hasDrive name then name.headD 0 else (s.mount cwd.mount).drive

/-- What can be relied on with the absolute path of a name. -/
structure Absolute (s : Mounts) (cwd : Dentry) (name path : List UInt8) : Prop where
  /-- `D:/c1/…/cn` -/
  form : ∃ names, path = render (upperCase (driveOf s cwd name)) names ∧ ∀ other ∈ names, Component other
  letter : (65 ≤ driveOf s cwd name ∧ driveOf s cwd name ≤ 90 ∨
      97 ≤ driveOf s cwd name ∧ driveOf s cwd name ≤ 122) →
    ∃ letter, path.head? = some letter ∧ 65 ≤ letter ∧ letter ≤ 90
  again : ∀ (s' : Mounts) (cwd' : Dentry) path', WorkingDirectory cwd' →
    absolutePathFrom s' cwd' path true = .ok path' → path' = path
  aliases : ∀ other path', anchorOf other = anchorOf name →
    ((namesOf other).filter fun component => component ≠ [dot]) =
      ((namesOf name).filter fun component => component ≠ [dot]) →
    absolutePathFrom s cwd other true = .ok path' → path' = path
  resolves : ∀ d, s.vfsResolve cwd name = .ok d →
    hasDrive name = true ∨ Attached s (if anchorOf name = .here then cwd else .root cwd.mount) →
    ∀ cwd', s.vfsResolve cwd' path = .ok d

lemma absolutePathFrom_eq (s : Mounts) (hcwd : WorkingDirectory cwd) (name : List UInt8) (memory : Bool) :
    absolutePathFrom s cwd name memory =
      if (write cwd []).length ≤ intMax - 3 then
        if name.length > sizeMax - ((text cwd).length + 2) - 4 then .error .overflow
        else if memory then .ok (render (letterOf (s.mount cwd.mount).drive name) (reducedNames cwd.names name))
        else .error .memory
      else .error .workingDirectory := by
  unfold absolutePathFrom
  rw [linkerCwd_eq]
  by_cases hfits : (write cwd []).length ≤ intMax - 3
  · rw [if_pos hfits, if_pos hfits]
    exact absolutePath_eq hcwd.proper _ name memory
  · rw [if_neg hfits, if_neg hfits]

lemma absolutePathFrom_ok {memory : Bool} (hcwd : WorkingDirectory cwd)
    (h : absolutePathFrom s cwd name memory = .ok path) :
    path = render (letterOf (s.mount cwd.mount).drive name) (reducedNames cwd.names name) := by
  rw [absolutePathFrom_eq s hcwd] at h
  split_ifs at h
  exact (Except.ok.inj h).symm

lemma letterOf_eq (s : Mounts) (cwd : Dentry) (name : List UInt8) :
    letterOf (s.mount cwd.mount).drive name = upperCase (driveOf s cwd name) := rfl

/-- **The absolute paths of the linker.** The buffer is not left, and the three failures have their reasons. A path
has the form `D:/c1/…/cn`, is its own path and that of all names with the same anchor that differ in separators and
single dots, and leads where the name leads. -/
theorem absolute_paths (s : Mounts) (hcwd : WorkingDirectory cwd) (name : List UInt8) :
    (∀ memory failure, absolutePathFrom s cwd name memory = .error failure →
      failure = .workingDirectory ∧ intMax - 3 < (write cwd []).length ∨
      failure = .overflow ∧ sizeMax - ((text cwd).length + 2) - 4 < name.length ∨
      failure = .memory ∧ memory = false) ∧
    ∀ path, absolutePathFrom s cwd name true = .ok path → Absolute s cwd name path := by
  refine ⟨fun memory failure h => ?_, fun path h => ?_⟩
  · rw [absolutePathFrom_eq s hcwd] at h
    split_ifs at h with hfits hlong hmemory
    · exact .inr (.inl ⟨(Except.error.inj h).symm, hlong⟩)
    · exact .inr (.inr ⟨(Except.error.inj h).symm, by simpa using hmemory⟩)
    · exact .inl ⟨(Except.error.inj h).symm, by omega⟩
  · obtain rfl := absolutePathFrom_ok hcwd h
    have hproper := reducedNames_proper hcwd.proper name
    refine ⟨⟨_, rfl, hproper⟩, fun hrange => ⟨_, rfl, upperCase_range hrange⟩, fun s' cwd' path' hcwd' h' => ?_,
      fun other path' hanchor hnames h' => ?_, fun d hd hplace => resolve_render hcwd.proper hd hplace⟩
    · rw [absolutePathFrom_ok hcwd' h', reducedNames_render _ _ hproper, letterOf_eq s]
      have hletter : letterOf (s'.mount cwd'.mount).drive
          (render (upperCase (driveOf s cwd name)) (reducedNames cwd.names name)) =
            upperCase (upperCase (driveOf s cwd name)) := rfl
      rw [hletter, upperCase_upperCase]
    · rw [absolutePathFrom_ok hcwd h']
      have hletter : letterOf (s.mount cwd.mount).drive other = letterOf (s.mount cwd.mount).drive name := by
        unfold anchorOf at hanchor
        unfold letterOf
        by_cases h1 : hasDrive other = true <;> by_cases h2 : hasDrive name = true
        · rw [if_pos h1, if_pos h2] at hanchor ⊢
          rw [Anchor.drive.inj hanchor]
        · rw [if_pos h1, if_neg h2] at hanchor
          split_ifs at hanchor
        · rw [if_neg h1, if_pos h2] at hanchor
          split_ifs at hanchor
        · rw [if_neg h1, if_neg h2]
      have hreduced : reducedNames cwd.names other = reducedNames cwd.names name := by
        unfold reducedNames
        rw [hanchor, foldl_reduce_dots (namesOf other), hnames, ← foldl_reduce_dots]
      rw [hletter, hreduced]

/-! ### Names and directories without these properties -/

/-- A directory `a` in the root of a PFS volume `A:`, with a directory `b`, and a file `x` in it; the directory `a`
can have been renamed to `c`. -/
def renamedMounts (renamed : Bool) : Mounts where
  mount _ := ⟨true, 65, true, .pfs, ⟨.ofWords 1 0 0 0, .directory, 0⟩, fun node name =>
    if node.id = .ofWords 1 0 0 0 ∧ name = [if renamed then 99 else 97] then .ok ⟨.ofWords 1 7 0 0, .directory, 0⟩
    else if node.id = .ofWords 1 7 0 0 ∧ name = [98] then .ok ⟨.ofWords 1 8 0 0, .directory, 0⟩
    else if node.id = .ofWords 1 8 0 0 ∧ name = [120] then .ok ⟨.ofWords 1 9 0 0, .file, 0⟩
    else .error .noEntry⟩
  table := [0]

/-- `A:/a/b`, as it was before -/
def insideRenamed : Dentry :=
  .child (.child (.root 0) [97] ⟨.ofWords 1 7 0 0, .directory, 0⟩) [98] ⟨.ofWords 1 8 0 0, .directory, 0⟩

lemma insideRenamed_workingDirectory : WorkingDirectory insideRenamed :=
  @WorkingDirectory.change (renamedMounts false) (.root 0) _ [97, slash, 98] (.root 0) (by decide +kernel)

/-- Before the directory is renamed, `../b//x` has the absolute path `A:/a/b/x`, and both lead to the file. -/
theorem absolute_paths_inside :
    absolutePathFrom (renamedMounts false) insideRenamed [dot, dot, slash, 98, slash, slash, 120] true =
      .ok [65, colon, slash, 97, slash, 98, slash, 120] ∧
    (renamedMounts false).vfsResolve (.root 0) [65, colon, slash, 97, slash, 98, slash, 120] =
      .ok (.child insideRenamed [120] ⟨.ofWords 1 9 0 0, .file, 0⟩) := by
  have hpath : absolutePathFrom (renamedMounts false) insideRenamed [dot, dot, slash, 98, slash, slash, 120] true =
    .ok [65, colon, slash, 97, slash, 98, slash, 120] := by decide +kernel
  have habsolute := (absolute_paths (renamedMounts false) insideRenamed_workingDirectory
    [dot, dot, slash, 98, slash, slash, 120]).2 _ hpath
  have hroot : Attached (renamedMounts false) (.root 0) := by rfl
  have hresolve : (renamedMounts false).vfsResolve (.root 0) [97, slash, 98] = .ok insideRenamed := by decide +kernel
  have hattached := (vfsResolve_attached hroot hresolve).1
  exact ⟨hpath, habsolute.resolves _ (by decide +kernel) (.inr hattached) _⟩

/-- **A digit for a drive letter, a dot before a colon, and a working directory below a directory that has been
renamed.** -/
theorem absolute_paths_limits :
    absolutePathFrom (renamedMounts false) (.root 0) [49, colon, 120] true = .ok [49, colon, slash, 120] ∧
    absolutePathFrom (renamedMounts false) (.root 0) [97, colon, 98] true = .ok [65, colon, slash, 98] ∧
    absolutePathFrom (renamedMounts false) (.root 0) [dot, slash, 97, colon, 98] true =
      .ok [65, colon, slash, 97, colon, 98] ∧
    WorkingDirectory insideRenamed ∧
    (renamedMounts true).vfsResolve insideRenamed [120] =
      .ok (.child insideRenamed [120] ⟨.ofWords 1 9 0 0, .file, 0⟩) ∧
    absolutePathFrom (renamedMounts true) insideRenamed [120] true = .ok [65, colon, slash, 97, slash, 98, slash, 120] ∧
    (renamedMounts true).vfsResolve insideRenamed [65, colon, slash, 97, slash, 98, slash, 120] = .error .noEntry := by
  refine ⟨by decide +kernel, by decide +kernel, by decide +kernel, insideRenamed_workingDirectory, by decide +kernel,
    by decide +kernel, by decide +kernel⟩

end PlantOS.Ldso

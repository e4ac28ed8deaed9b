import Mathlib.Data.Fintype.Basic
import PlantOS.Lib.Run

/-!
# Event queues

`gui_pointer_push`, `gui_pointer_pop` and the `gui_event_queue_*` of `gui_rpc.h`, in memory that the server and the client
share. A step is one load or store; the words of an event are copied one at a time, in any order. The history records what
the queue did at the points that decide it, and is compared with a bounded first-in first-out queue.
-/

namespace PlantOS.Gui.Queue

open Lib

/-- `GUI_EVENT_QUEUE_CAPACITY` -/
abbrev capacity : ℕ := 64

/-- The values of a `uint32_t` -/
abbrev words : ℕ := 4294967296

/-- An event of `k` words: a `gui_event_t`, or a code of a key -/
abbrev Record (W : Type) (k : ℕ) := Fin k → W

variable {W : Type} {k : ℕ}

/-- The server in `gui_pointer_push`, `gui_event_queue_push` or `push2`: after it loaded `write`, while it stores words of
the events, or between the stores of `gui_event_queue_init` -/
inductive Producer (W : Type) (k : ℕ)
  | idle
  | loaded (group : List (Record W k)) (write : ℕ)
  | storing (group : List (Record W k)) (write : ℕ) (stored : List (ℕ × Fin k))
  | resetting

/-- The client in `gui_pointer_pop` or `gui_event_queue_pop`: after it loaded `read`, or while it loads words of the
event -/
inductive Consumer (W : Type) (k : ℕ)
  | idle
  | loaded (read : ℕ)
  | copying (read : ℕ) (event : Fin k → Option W)

inductive Action (W : Type) (k : ℕ)
  | accept (group : List (Record W k))
  | reject (n : ℕ)
  | receive (event : Record W k)
  | empty
  | reset

/-- `gui_pointer_queue_t` and `gui_event_queue_t`, with where both sides are and the slots that the server accessed -/
structure State (W : Type) (k : ℕ) where
  read : ℕ
  write : ℕ
  data : ℕ → Record W k
  producer : Producer W k
  consumer : Consumer W k
  history : List (Action W k)
  touched : List ℕ

inductive Event (W : Type) (k : ℕ)
  /-- `uint32_t write = queue->write` of a push of one or two events -/
  | push (group : List (Record W k))
  /-- the load of `read`, and the test for room -/
  | check
  /-- a word of the event with this number -/
  | store (i : ℕ) (j : Fin k)
  /-- the store of `write` -/
  | publish
  /-- the two stores of `gui_event_queue_init` -/
  | resetRead
  | resetWrite
  /-- `uint32_t read = queue->read` of a pop -/
  | pop
  /-- the load of `write`, and the test for an event -/
  | look
  | copy (j : Fin k)
  /-- the store of `read` -/
  | advance
  /-- a client writes what it likes to the indexes -/
  | scribble (read write : ℕ)

def whole (event : Fin k → Option W) : Option (Record W k) :=
  if h : ∀ j, (event j).isSome = true then some fun j => (event j).get (h j) else none

/-- One step; the server pushes and resets under its lock, so that a reset begins when no push is going on. -/
def step (s : State W k) : Event W k → Option (State W k)
  | .push group =>
    match s.producer with
    | .idle => if group.length = 1 ∨ group.length = 2 then some { s with producer := .loaded group s.write } else none
    | _ => none
  | .check =>
    match s.producer with
    | .loaded group write =>
      if (write + words - s.read) % words > capacity - group.length then
        some { s with producer := .idle, history := s.history ++ [.reject group.length] }
      else some { s with producer := .storing group write [] }
    | _ => none
  | .store i j =>
    match s.producer with
    | .storing group write stored =>
      match group[i]? with
      | none => none
      | some event =>
        let slot := (write + i) % capacity
        some { s with
          data := Function.update s.data slot (Function.update (s.data slot) j (event j))
          producer := .storing group write ((i, j) :: stored)
          touched := slot :: s.touched }
    | _ => none
  | .publish =>
    match s.producer with
    | .storing group write stored =>
      if ∀ i < group.length, ∀ j : Fin k, (i, j) ∈ stored then
        some { s with
          write := (write + group.length) % words
          producer := .idle
          history := s.history ++ [.accept group] }
      else none
    | _ => none
  | .resetRead =>
    match s.producer with
    | .idle => some { s with read := 0, producer := .resetting, history := s.history ++ [.reset] }
    | _ => none
  | .resetWrite =>
    match s.producer with
    | .resetting => some { s with write := 0, producer := .idle }
    | _ => none
  | .pop =>
    match s.consumer with
    | .idle => some { s with consumer := .loaded s.read }
    | _ => none
  | .look =>
    match s.consumer with
    | .loaded read =>
      if read = s.write then some { s with consumer := .idle, history := s.history ++ [.empty] }
      else some { s with consumer := .copying read fun _ => none }
    | _ => none
  | .copy j =>
    match s.consumer with
    | .copying read event =>
      some { s with consumer := .copying read (Function.update event j (some (s.data (read % capacity) j))) }
    | _ => none
  | .advance =>
    match s.consumer with
    | .copying read event =>
      match whole event with
      | none => none
      | some event =>
        some { s with
          read := (read + 1) % words
          consumer := .idle
          history := s.history ++ [.receive event] }
    | _ => none
  | .scribble read write => some { s with read := read % words, write := write % words }

/-- The queue that `gui_event_queue_init` makes for a new window -/
structure Init (s : State W k) : Prop where
  read : s.read = 0
  write : s.write = 0
  producer : s.producer = .idle
  consumer : s.consumer = .idle
  history : s.history = []
  touched : s.touched = []

def system (W : Type) (k : ℕ) : System (State W k) (Event W k) where
  init := Init
  step := step

/-! ### The queue as it is meant -/

variable [DecidableEq W]

/-- A bounded queue: a group is accepted as a whole, where it fits. -/
def fifoStep (content : List (Record W k)) : Action W k → Option (List (Record W k))
  | .accept group => if content.length + group.length ≤ capacity then some (content ++ group) else none
  | .reject n => if content.length + n > capacity then some content else none
  | .receive event =>
    match content with
    | [] => none
    | first :: rest => if first = event then some rest else none
  | .empty => if content.length = 0 then some [] else none
  | .reset => some []

/-- What is in the queue after a history, `none` where the queue would not have done that -/
def fifo (history : List (Action W k)) : Option (List (Record W k)) := history.foldlM fifoStep []

/-- The queue has done what a bounded queue does, and between two resets its indexes are as far apart as it is long. -/
def Faithful (s : State W k) : Prop :=
  ∃ content, fifo s.history = some content ∧ content.length ≤ capacity ∧
    (s.producer ≠ .resetting → (s.write + words - s.read) % words = content.length)

/-- **No pop overlaps a reset** in a way that matters: a reset does not begin while the client copies an event; the
index that a client tests is still that of the queue, and between the two stores of a reset it finds the queue empty;
and the client writes the indexes by the functions only. -/
def Calm (s : State W k) : Event W k → Prop
  | .resetRead => ∀ read event, s.consumer ≠ .copying read event
  | .look => ∀ read, s.consumer = .loaded read →
      match s.producer with
      | .resetting => read = s.write
      | _ => read = s.read
  | .scribble _ _ => False
  | _ => True

/-! ## What the client receives -/

open Function (update update_of_ne update_self)

variable {W : Type} {k : ℕ} [DecidableEq W]

/-- Words that the server has stored behind the end of the queue -/
def Stored (s : State W k) (group : List (Record W k)) (write : ℕ) (stored : List (ℕ × Fin k)) : Prop :=
  ∀ i j, (i, j) ∈ stored → ∃ event, group[i]? = some event ∧ s.data ((write + i) % capacity) j = event j

structure Inv (s : State W k) (content : List (Record W k)) : Prop where
  legal : fifo s.history = some content
  length : content.length ≤ capacity
  read : s.read < words
  write : s.producer ≠ .resetting → s.write = (s.read + content.length) % words
  resetting : s.producer = .resetting →
    s.read = 0 ∧ content = [] ∧ ∀ read event, s.consumer ≠ .copying read event
  data : ∀ i event, content[i]? = some event → s.data ((s.read + i) % capacity) = event
  loaded : ∀ group write, s.producer = .loaded group write →
    write = s.write ∧ (group.length = 1 ∨ group.length = 2)
  storing : ∀ group write stored, s.producer = .storing group write stored →
    write = s.write ∧ content.length + group.length ≤ capacity ∧ Stored s group write stored
  copying : ∀ read event, s.consumer = .copying read event → read = s.read ∧ content ≠ [] ∧
    ∀ j v, event j = some v → v = s.data (read % capacity) j

omit [DecidableEq W] in
lemma fifo_append [DecidableEq W] {history : List (Action W k)} {content : List (Record W k)}
    (h : fifo history = some content) (action : Action W k) : fifo (history ++ [action]) = fifoStep content action := by
  unfold fifo at h ⊢
  rw [List.foldlM_append, h]
  show (fifoStep content action >>= fun next => pure next) = _
  exact bind_pure _

section Steps

variable {s s' : State W k} {content : List (Record W k)}

/-! ### Steps of the server -/

lemma Inv.push (h : Inv s content) {group : List (Record W k)} (hgrp : group.length = 1 ∨ group.length = 2)
    (hidle : s.producer = .idle) : Inv { s with producer := .loaded group s.write } content where
  legal := h.legal
  length := h.length
  read := h.read
  write _ := h.write (by rw [hidle]; exact nofun)
  resetting hp := by cases hp
  data := h.data
  loaded g w hp := by
    cases hp
    exact ⟨rfl, hgrp⟩
  storing g w stored hp := by cases hp
  copying := h.copying

lemma Inv.check (h : Inv s content) {group : List (Record W k)} {write : ℕ} (hload : s.producer = .loaded group write) :
    Inv (if (write + words - s.read) % words > capacity - group.length then
        { s with producer := .idle, history := s.history ++ [.reject group.length] }
      else { s with producer := .storing group write [] }) content := by
  obtain ⟨hwr, hgrp⟩ := h.loaded group write hload
  have hne : s.producer ≠ .resetting := by
    rw [hload]
    exact nofun
  have hidx := h.write hne
  have hlen := h.length
  have hread := h.read
  -- the distance of the indexes is the length of the queue
  have hdis : (write + words - s.read) % words = content.length := by
    rw [hwr, hidx]
    unfold words capacity at *
    omega
  rw [hdis]
  by_cases hfull : content.length > capacity - group.length
  · rw [if_pos hfull]
    refine ⟨?_, h.length, h.read, fun _ => hidx, fun hp => (by cases hp), h.data, fun _ _ hp => (by cases hp),
      fun _ _ _ hp => (by cases hp), h.copying⟩
    rw [fifo_append h.legal]
    exact if_pos (by omega)
  · rw [if_neg hfull]
    refine ⟨h.legal, h.length, h.read, fun _ => hidx, fun hp => (by cases hp), h.data, fun _ _ hp => (by cases hp),
      ?_, h.copying⟩
    intro g w stored hp
    cases hp
    refine ⟨hwr, ?_, fun i j hmem => absurd hmem List.not_mem_nil⟩
    unfold capacity at *
    omega

lemma Inv.store (h : Inv s content) {group : List (Record W k)} {write i : ℕ} {j : Fin k} {stored : List (ℕ × Fin k)}
    {event : Record W k} (hstor : s.producer = .storing group write stored) (hev : group[i]? = some event) :
    Inv { s with
      data := update s.data ((write + i) % capacity)
        (update (s.data ((write + i) % capacity)) j (event j))
      producer := .storing group write ((i, j) :: stored)
      touched := (write + i) % capacity :: s.touched } content := by
  obtain ⟨hwr, hroom, hstd⟩ := h.storing group write stored hstor
  have hidx := h.write (by rw [hstor]; exact nofun)
  have hi : i < group.length := (List.getElem?_eq_some_iff.mp hev).1
  -- the slots of the queue are other slots
  have hapar : ∀ n < content.length, (s.read + n) % capacity ≠ (write + i) % capacity := by
    intro n hn
    rw [hwr, hidx]
    unfold words capacity at *
    omega
  refine ⟨h.legal, h.length, h.read, fun _ => hidx, fun hp => (by cases hp), ?_, fun _ _ hp => (by cases hp), ?_, ?_⟩
  · intro n e hn
    have hlt := (List.getElem?_eq_some_iff.mp hn).1
    exact (update_of_ne (hapar n hlt) _ _).trans (h.data n e hn)
  · intro g w done hp
    cases hp
    refine ⟨hwr, hroom, ?_⟩
    intro n m hmem
    have hoth : ∀ event', group[n]? = some event' → (n, m) ≠ (i, j) →
        s.data ((write + n) % capacity) m = event' m →
        update s.data ((write + i) % capacity)
          (update (s.data ((write + i) % capacity)) j (event j)) ((write + n) % capacity) m = event' m := by
      intro event' hev' hne hold
      by_cases hslot : (write + n) % capacity = (write + i) % capacity
      · have hn := (List.getElem?_eq_some_iff.mp hev').1
        have hsame : n = i := by
          unfold capacity at *
          omega
        have hm : m ≠ j := fun heq => hne (by rw [hsame, heq])
        rw [hslot, update_self, update_of_ne hm, ← hslot]
        exact hold
      · rw [update_of_ne hslot]
        exact hold
    by_cases hnew : (n, m) = (i, j)
    · cases hnew
      refine ⟨event, hev, ?_⟩
      dsimp only
      rw [update_self, update_self]
    · rcases List.mem_cons.mp hmem with heq | hmem
      · exact absurd heq hnew
      · obtain ⟨event', hev', hold⟩ := hstd n m hmem
        exact ⟨event', hev', hoth event' hev' hnew hold⟩
  · intro read e hp
    obtain ⟨hread, hcont, hcopy⟩ := h.copying read e hp
    refine ⟨hread, hcont, fun m v hv => ?_⟩
    have hfst := hapar 0 (List.length_pos_iff.mpr hcont)
    rw [Nat.add_zero] at hfst
    rw [hread] at hcopy ⊢
    dsimp only
    rw [update_of_ne hfst]
    exact hcopy m v hv

lemma Inv.publish (h : Inv s content) {group : List (Record W k)} {write : ℕ} {stored : List (ℕ × Fin k)}
    (hstor : s.producer = .storing group write stored) (hall : ∀ i < group.length, ∀ j : Fin k, (i, j) ∈ stored) :
    Inv { s with
      write := (write + group.length) % words
      producer := .idle
      history := s.history ++ [.accept group] } (content ++ group) := by
  obtain ⟨hwr, hroom, hstd⟩ := h.storing group write stored hstor
  have hidx := h.write (by rw [hstor]; exact nofun)
  refine ⟨?_, ?_, h.read, fun _ => ?_, fun hp => (by cases hp), ?_, fun _ _ hp => (by cases hp), fun _ _ _ hp => (by cases hp),
    ?_⟩
  · rw [fifo_append h.legal]
    exact if_pos hroom
  · rw [List.length_append]
    exact hroom
  · dsimp only
    rw [List.length_append, hwr, hidx]
    unfold words
    omega
  · intro n event hn
    by_cases hold : n < content.length
    · rw [List.getElem?_append_left hold] at hn
      exact h.data n event hn
    · rw [List.getElem?_append_right (Nat.not_lt.mp hold)] at hn
      have hlt := (List.getElem?_eq_some_iff.mp hn).1
      have hslot : (s.read + n) % capacity = (write + (n - content.length)) % capacity := by
        rw [hwr, hidx]
        unfold words capacity at *
        omega
      dsimp only
      rw [hslot]
      funext j
      obtain ⟨event', hev', hdata⟩ := hstd _ j (hall _ hlt j)
      rw [hn] at hev'
      cases hev'
      exact hdata
  · intro read event hp
    obtain ⟨hread, hcont, hcopy⟩ := h.copying read event hp
    exact ⟨hread, by simp [hcont], hcopy⟩

lemma Inv.resetRead (h : Inv s content) (hcalm : ∀ read event, s.consumer ≠ .copying read event) :
    Inv { s with read := 0, producer := .resetting, history := s.history ++ [.reset] } [] := by
  refine ⟨?_, Nat.zero_le _, Nat.zero_lt_succ _, fun hne => absurd rfl hne, fun _ => ⟨rfl, rfl, hcalm⟩,
    fun _ _ hn => by simp at hn, fun _ _ hp => (by cases hp), fun _ _ _ hp => (by cases hp),
    fun _ _ hp => absurd hp (hcalm _ _)⟩
  rw [fifo_append h.legal]
  rfl

lemma Inv.resetWrite (h : Inv s content) (hres : s.producer = .resetting) :
    Inv { s with write := 0, producer := .idle } content := by
  obtain ⟨hread, hemp, _⟩ := h.resetting hres
  refine ⟨h.legal, h.length, h.read, fun _ => ?_, fun hp => (by cases hp), h.data, fun _ _ hp => (by cases hp),
    fun _ _ _ hp => (by cases hp), h.copying⟩
  dsimp only
  rw [hread, hemp]
  rfl

/-! ### Steps of the client -/

lemma Inv.pop (h : Inv s content) : Inv { s with consumer := .loaded s.read } content := by
  refine { h with resetting := ?_, copying := fun _ _ hp => (by cases hp) }
  intro hp
  obtain ⟨hread, hemp, _⟩ := h.resetting hp
  exact ⟨hread, hemp, fun _ _ hc => by cases hc⟩

lemma Inv.look (h : Inv s content) {read : ℕ} (hload : s.consumer = .loaded read) (hcalm : Calm s .look) :
    Inv (if read = s.write then { s with consumer := .idle, history := s.history ++ [.empty] }
      else { s with consumer := .copying read fun _ => none }) content := by
  have hlen := h.length
  have hbd := h.read
  have hdur : s.producer = .resetting → read = s.write := by
    intro hp
    have hread := hcalm read hload
    rw [hp] at hread
    exact hread
  have hbet : s.producer ≠ .resetting → read = s.read := by
    intro hp
    have hread := hcalm read hload
    cases hprod : s.producer with
    | resetting => exact absurd hprod hp
    | idle | loaded g w | storing g w d =>
      rw [hprod] at hread
      exact hread
  by_cases hequal : read = s.write
  · rw [if_pos hequal]
    have hemp : content = [] := by
      by_cases hres : s.producer = .resetting
      · exact (h.resetting hres).2.1
      · have hsame := hbet hres
        have hidx := h.write hres
        refine List.length_eq_zero_iff.mp ?_
        unfold words capacity at *
        omega
    refine { h with legal := ?_, resetting := ?_, copying := fun _ _ hp => (by cases hp) }
    · rw [fifo_append h.legal, hemp]
      rfl
    · intro hp
      obtain ⟨hzero, hcont, _⟩ := h.resetting hp
      exact ⟨hzero, hcont, fun _ _ hc => by cases hc⟩
  · rw [if_neg hequal]
    have hres : s.producer ≠ .resetting := fun hp => hequal (hdur hp)
    have hsame := hbet hres
    refine { h with resetting := fun hp => absurd hp hres, copying := ?_ }
    intro r event hp
    cases hp
    refine ⟨hsame, ?_, fun j v hv => by cases hv⟩
    intro hemp
    have hidx := h.write hres
    rw [hemp, List.length_nil, Nat.add_zero, Nat.mod_eq_of_lt hbd] at hidx
    exact hequal (hsame.trans hidx.symm)

lemma Inv.copy (h : Inv s content) {read : ℕ} {event : Fin k → Option W} (hcop : s.consumer = .copying read event)
    (j : Fin k) :
    Inv { s with consumer := .copying read (update event j (some (s.data (read % capacity) j))) } content := by
  obtain ⟨hread, hcont, hcopy⟩ := h.copying read event hcop
  refine { h with resetting := ?_, copying := ?_ }
  · intro hp
    exact absurd (h.resetting hp).2.1 hcont
  · intro r e hp
    cases hp
    refine ⟨hread, hcont, fun m v hv => ?_⟩
    rcases update_cases hv with ⟨rfl, hv⟩ | ⟨-, hv⟩
    · exact (Option.some.inj hv).symm
    · exact hcopy m v hv

lemma Inv.advance (h : Inv s content) {read : ℕ} {event : Fin k → Option W} {e : Record W k}
    (hcop : s.consumer = .copying read event) (hwh : whole event = some e) :
    ∃ rest, Inv { s with
      read := (read + 1) % words
      consumer := .idle
      history := s.history ++ [.receive e] } rest := by
  obtain ⟨hread, hcont, hcopy⟩ := h.copying read event hcop
  have hlen := h.length
  have hres : s.producer ≠ .resetting := fun hp => hcont (h.resetting hp).2.1
  have hidx := h.write hres
  obtain ⟨first, rest, rfl⟩ := List.exists_cons_of_ne_nil hcont
  rw [List.length_cons] at hlen hidx
  -- what was copied is the first event
  have hfst : e = first := by
    have hslot := h.data 0 first rfl
    rw [Nat.add_zero, ← hread] at hslot
    unfold whole at hwh
    by_cases hall : ∀ j, (event j).isSome = true
    · rw [dif_pos hall] at hwh
      rw [← Option.some.inj hwh, ← hslot]
      funext j
      exact hcopy j _ (Option.some_get (hall j)).symm
    · rw [dif_neg hall] at hwh
      cases hwh
  refine ⟨rest, ?_, by omega, Nat.mod_lt _ (by decide), fun _ => ?_, fun hp => absurd hp hres, ?_, h.loaded, ?_,
    fun _ _ hp => (by cases hp)⟩
  · rw [fifo_append h.legal]
    exact if_pos hfst.symm
  · dsimp only
    rw [hidx, hread]
    unfold words
    omega
  · intro n event' hn
    have hslot := h.data (n + 1) event' hn
    dsimp only
    rw [hread, ← hslot]
    refine congrArg s.data ?_
    unfold words capacity
    omega
  · intro group write stored hp
    obtain ⟨hwr, hroom, hstd⟩ := h.storing group write stored hp
    rw [List.length_cons] at hroom
    exact ⟨hwr, by omega, hstd⟩

/-- **Every calm step keeps the invariant.** -/
theorem step_inv {e : Event W k} (h : Inv s content) (hcalm : Calm s e) (hstep : step s e = some s') :
    ∃ content', Inv s' content' := by
  unfold step at hstep
  cases e with
  | push group =>
    cases hprod : s.producer with
    | idle =>
      rw [hprod] at hstep
      dsimp only at hstep
      by_cases hgrp : group.length = 1 ∨ group.length = 2
      · rw [if_pos hgrp] at hstep
        cases hstep
        exact ⟨content, h.push hgrp hprod⟩
      · rw [if_neg hgrp] at hstep
        cases hstep
    | loaded g w | storing g w d | resetting =>
      rw [hprod] at hstep
      cases hstep
  | check =>
    cases hprod : s.producer with
    | loaded group write =>
      rw [hprod] at hstep
      dsimp only at hstep
      rw [← apply_ite some] at hstep
      cases hstep
      exact ⟨content, h.check hprod⟩
    | idle | storing g w d | resetting =>
      rw [hprod] at hstep
      cases hstep
  | store i j =>
    cases hprod : s.producer with
    | storing group write stored =>
      rw [hprod] at hstep
      dsimp only at hstep
      cases hev : group[i]? with
      | none =>
        rw [hev] at hstep
        cases hstep
      | some event =>
        rw [hev] at hstep
        cases hstep
        exact ⟨content, h.store hprod hev⟩
    | idle | loaded g w | resetting =>
      rw [hprod] at hstep
      cases hstep
  | publish =>
    cases hprod : s.producer with
    | storing group write stored =>
      rw [hprod] at hstep
      dsimp only at hstep
      by_cases hall : ∀ i < group.length, ∀ j : Fin k, (i, j) ∈ stored
      · rw [if_pos hall] at hstep
        cases hstep
        exact ⟨content ++ group, h.publish hprod hall⟩
      · rw [if_neg hall] at hstep
        cases hstep
    | idle | loaded g w | resetting =>
      rw [hprod] at hstep
      cases hstep
  | resetRead =>
    cases hprod : s.producer with
    | idle =>
      rw [hprod] at hstep
      cases hstep
      exact ⟨[], h.resetRead hcalm⟩
    | loaded g w | storing g w d | resetting =>
      rw [hprod] at hstep
      cases hstep
  | resetWrite =>
    cases hprod : s.producer with
    | resetting =>
      rw [hprod] at hstep
      cases hstep
      exact ⟨content, h.resetWrite hprod⟩
    | idle | loaded g w | storing g w d =>
      rw [hprod] at hstep
      cases hstep
  | pop =>
    cases hcons : s.consumer with
    | idle =>
      rw [hcons] at hstep
      cases hstep
      exact ⟨content, h.pop⟩
    | loaded r | copying r b =>
      rw [hcons] at hstep
      cases hstep
  | look =>
    cases hcons : s.consumer with
    | loaded read =>
      rw [hcons] at hstep
      dsimp only at hstep
      rw [← apply_ite some] at hstep
      cases hstep
      exact ⟨content, h.look hcons hcalm⟩
    | idle | copying r b =>
      rw [hcons] at hstep
      cases hstep
  | copy j =>
    cases hcons : s.consumer with
    | copying read event =>
      rw [hcons] at hstep
      cases hstep
      exact ⟨content, h.copy hcons j⟩
    | idle | loaded r =>
      rw [hcons] at hstep
      cases hstep
  | advance =>
    cases hcons : s.consumer with
    | copying read event =>
      rw [hcons] at hstep
      dsimp only at hstep
      cases hwh : whole event with
      | none =>
        rw [hwh] at hstep
        cases hstep
      | some e =>
        rw [hwh] at hstep
        cases hstep
        exact h.advance hcons hwh
    | idle | loaded r =>
      rw [hcons] at hstep
      cases hstep
  | scribble read write => exact absurd hcalm id

lemma inv_init (hs : Init s) : Inv s [] := by
  refine ⟨?_, Nat.zero_le _, ?_, fun _ => ?_, fun hp => ?_, fun _ _ hn => by simp at hn, fun _ _ hp => ?_, fun _ _ _ hp => ?_,
    fun _ _ hp => ?_⟩
  · rw [hs.history]
    rfl
  · rw [hs.read]
    decide
  · rw [hs.read, hs.write]
    rfl
  · rw [hs.producer] at hp
    cases hp
  · rw [hs.producer] at hp
    cases hp
  · rw [hs.producer] at hp
    cases hp
  · rw [hs.consumer] at hp
    cases hp

/-- **A calm queue is a bounded queue.** -/
theorem calm_faithful (hs : (system W k).Guarded Calm s) : Faithful s := by
  have hinv : ∃ content, Inv s content :=
    hs.invariant (P := fun s => ∃ content, Inv s content) (fun _ hinit => ⟨[], inv_init hinit⟩)
      fun _ _ _ ⟨_, h⟩ hcalm hstep => step_inv h hcalm hstep
  obtain ⟨content, h⟩ := hinv
  refine ⟨content, h.legal, h.length, fun hres => ?_⟩
  have hidx := h.write hres
  have hread := h.read
  have hlen := h.length
  rw [hidx]
  unfold words capacity at *
  omega

end Steps

omit [DecidableEq W] in
theorem touched_inside {s : State W k} (hs : (system W k).Reachable s) : ∀ slot ∈ s.touched, slot < capacity := by
  refine hs.invariant (P := fun s => ∀ slot ∈ s.touched, slot < capacity) ?_ ?_
  · intro s hinit slot hslot
    rw [hinit.touched] at hslot
    cases hslot
  · intro s e s' h hstep
    change step s e = some s' at hstep
    unfold step at hstep
    cases e with
    | store i j =>
      cases hprod : s.producer with
      | storing group write stored =>
        rw [hprod] at hstep
        dsimp only at hstep
        cases hev : group[i]? with
        | none =>
          rw [hev] at hstep
          cases hstep
        | some event =>
          rw [hev] at hstep
          cases hstep
          intro slot hslot
          rcases List.mem_cons.mp hslot with rfl | hslot
          · exact Nat.mod_lt _ (by decide)
          · exact h slot hslot
      | idle | loaded g w | resetting =>
        rw [hprod] at hstep
        cases hstep
    | _ =>
      dsimp only at hstep
      repeat' split at hstep
      all_goals first
        | cases hstep; exact h
        | cases hstep

end PlantOS.Gui.Queue

/-! ## The published state of a window -/

namespace PlantOS.Gui.StateSequence

open Lib Queue
open Function (update update_of_ne update_self)

variable {W : Type} {k : ℕ}

/-- The server: after it loaded the sequence, or while it stores the words of a state -/
inductive Publisher (W : Type) (k : ℕ)
  | idle
  | loaded (state : Record W k) (sequence : ℕ)
  | storing (state : Record W k) (sequence : ℕ) (stored : List (Fin k))

/-- The client in `window_get_state`, with the number of publications that had begun when it loaded the sequence -/
inductive Reader (W : Type) (k : ℕ)
  | idle
  | copying (sequence : ℕ) (state : Fin k → Option W) (since : ℕ)

/-- The shared state, where both sides are, how many publications have begun, what has been published and what the client
got -/
structure State (W : Type) (k : ℕ) where
  sequence : ℕ
  state : Record W k
  publisher : Publisher W k
  reader : Reader W k
  begun : ℕ
  published : List (Record W k)
  returned : List (Record W k)

inductive Event (W : Type) (k : ℕ)
  /-- the load of the sequence for a state to publish -/
  | prepare (state : Record W k)
  /-- the store of `sequence + 1` -/
  | begin
  | store (j : Fin k)
  /-- the store of `sequence + 2` -/
  | finish
  /-- the load of the sequence, again while it is odd -/
  | load
  | copy (j : Fin k)
  /-- the load that is compared with the first -/
  | compare

def step (s : State W k) : Event W k → Option (State W k)
  | .prepare state =>
    match s.publisher with
    | .idle => some { s with publisher := .loaded state (s.sequence / 2 * 2) }
    | _ => none
  | .begin =>
    match s.publisher with
    | .loaded state sequence =>
      some { s with
        sequence := (sequence + 1) % words
        publisher := .storing state sequence []
        begun := s.begun + 1 }
    | _ => none
  | .store j =>
    match s.publisher with
    | .storing state sequence stored =>
      some { s with state := update s.state j (state j), publisher := .storing state sequence (j :: stored) }
    | _ => none
  | .finish =>
    match s.publisher with
    | .storing state sequence stored =>
      if ∀ j : Fin k, j ∈ stored then
        some { s with
          sequence := (sequence + 2) % words
          publisher := .idle
          published := s.published ++ [state] }
      else none
    | _ => none
  | .load =>
    match s.reader with
    | .idle => if s.sequence % 2 = 1 then some s else some { s with reader := .copying s.sequence (fun _ => none) s.begun }
    | _ => none
  | .copy j =>
    match s.reader with
    | .copying sequence state since =>
      some { s with reader := .copying sequence (update state j (some (s.state j))) since }
    | _ => none
  | .compare =>
    match s.reader with
    | .copying sequence state _ =>
      match whole state with
      | none => none
      | some state =>
        if s.sequence = sequence then some { s with reader := .idle, returned := s.returned ++ [state] }
        else some { s with reader := .idle }
    | _ => none

/-- A window that has been created: its first state is there, by a publication or because it is all zeros. -/
structure Init (s : State W k) : Prop where
  sequence : s.sequence = 2 * s.begun % words
  publisher : s.publisher = .idle
  reader : s.reader = .idle
  published : s.published = [s.state]
  returned : s.returned = []

def system (W : Type) (k : ℕ) : System (State W k) (Event W k) where
  init := Init
  step := step

/-- Fewer than 2³¹ publications have begun since the sequence was loaded. -/
def Few (s : State W k) : Event W k → Prop
  | .compare => ∀ sequence state since, s.reader = .copying sequence state since → s.begun < since + 2147483648
  | _ => True

/-! ### What is published -/

def Quiet (s : State W k) : Prop := ∀ state sequence stored, s.publisher ≠ .storing state sequence stored

/-- The invariant: outside a publication the words are the last state that was published, and a client that no publication
has overtaken has copied from it. -/
structure Inv (s : State W k) : Prop where
  quiet : Quiet s → s.sequence = 2 * s.begun % words ∧ s.state ∈ s.published
  loaded : ∀ state sequence, s.publisher = .loaded state sequence → sequence = s.sequence
  storing : ∀ state sequence stored, s.publisher = .storing state sequence stored →
    s.sequence = (sequence + 1) % words ∧ (sequence + 2) % words = 2 * s.begun % words ∧
      ∀ j ∈ stored, s.state j = state j
  copying : ∀ sequence state since, s.reader = .copying sequence state since →
    sequence = 2 * since % words ∧ since ≤ s.begun ∧
      (since = s.begun → Quiet s ∧ ∀ j v, state j = some v → v = s.state j)
  returned : ∀ state ∈ s.returned, state ∈ s.published

section Steps

variable {s s' : State W k}

lemma Inv.prepare (h : Inv s) (hidle : s.publisher = .idle) (state : Record W k) :
    Inv { s with publisher := .loaded state (s.sequence / 2 * 2) } := by
  have hqt : Quiet s := fun _ _ _ hp => by
    rw [hidle] at hp
    cases hp
  obtain ⟨hseq, hst⟩ := h.quiet hqt
  refine ⟨fun _ => ⟨hseq, hst⟩, ?_, fun _ _ _ hp => (by cases hp), ?_, h.returned⟩
  · intro r sequence hp
    cases hp
    dsimp only
    unfold words at hseq
    omega
  · intro n copied since hp
    obtain ⟨hn, hle, hsame⟩ := h.copying n copied since hp
    exact ⟨hn, hle, fun heq => ⟨fun _ _ _ hp => (by cases hp), (hsame heq).2⟩⟩

lemma Inv.begin (h : Inv s) {state : Record W k} {sequence : ℕ} (hloaded : s.publisher = .loaded state sequence) :
    Inv { s with
      sequence := (sequence + 1) % words
      publisher := .storing state sequence []
      begun := s.begun + 1 } := by
  have hsame := h.loaded state sequence hloaded
  have hqt : Quiet s := fun _ _ _ hp => by
    rw [hloaded] at hp
    cases hp
  obtain ⟨hseq, -⟩ := h.quiet hqt
  refine ⟨fun hne => absurd rfl (hne _ _ _), fun _ _ hp => (by cases hp), ?_, ?_, h.returned⟩
  · intro r n stored hp
    cases hp
    refine ⟨rfl, ?_, fun j hj => absurd hj List.not_mem_nil⟩
    dsimp only
    rw [hsame, hseq]
    unfold words
    omega
  · intro n copied since hp
    obtain ⟨hn, hle, -⟩ := h.copying n copied since hp
    exact ⟨hn, Nat.le_succ_of_le hle, fun heq => absurd heq (Nat.ne_of_lt (Nat.lt_succ_of_le hle))⟩

lemma Inv.store (h : Inv s) {state : Record W k} {sequence : ℕ} {stored : List (Fin k)}
    (hstor : s.publisher = .storing state sequence stored) (j : Fin k) :
    Inv { s with
      state := update s.state j (state j)
      publisher := .storing state sequence (j :: stored) } := by
  obtain ⟨hodd, heven, hstd⟩ := h.storing state sequence stored hstor
  refine ⟨fun hne => absurd rfl (hne _ _ _), fun _ _ hp => (by cases hp), ?_, ?_, h.returned⟩
  · intro r n done hp
    cases hp
    refine ⟨hodd, heven, fun m hm => ?_⟩
    by_cases heq : m = j
    · subst heq
      exact update_self _ _ _
    · rcases List.mem_cons.mp hm with hsame | hm
      · exact absurd hsame heq
      · exact (update_of_ne heq _ _).trans (hstd m hm)
  · intro n copied since hp
    obtain ⟨hn, hle, hsame⟩ := h.copying n copied since hp
    exact ⟨hn, hle, fun heq => absurd hstor ((hsame heq).1 _ _ _)⟩

lemma Inv.finish (h : Inv s) {state : Record W k} {sequence : ℕ} {stored : List (Fin k)}
    (hstor : s.publisher = .storing state sequence stored) (hall : ∀ j : Fin k, j ∈ stored) :
    Inv { s with
      sequence := (sequence + 2) % words
      publisher := .idle
      published := s.published ++ [state] } := by
  obtain ⟨hodd, heven, hstd⟩ := h.storing state sequence stored hstor
  have hst : s.state = state := funext fun j => hstd j (hall j)
  refine ⟨fun _ => ⟨heven, ?_⟩, fun _ _ hp => (by cases hp), fun _ _ _ hp => (by cases hp), ?_, ?_⟩
  · dsimp only
    rw [hst]
    exact List.mem_append_right _ (List.mem_singleton_self _)
  · intro n copied since hp
    obtain ⟨hn, hle, hsame⟩ := h.copying n copied since hp
    exact ⟨hn, hle, fun heq => absurd hstor ((hsame heq).1 _ _ _)⟩
  · intro r hr
    exact List.mem_append_left _ (h.returned r hr)

lemma Inv.load (h : Inv s) (heven : s.sequence % 2 ≠ 1) :
    Inv { s with reader := .copying s.sequence (fun _ => none) s.begun } := by
  have hqt : Quiet s := by
    intro state sequence stored hstor
    obtain ⟨hodd, hnext, -⟩ := h.storing state sequence stored hstor
    unfold words at hodd hnext
    omega
  refine { h with copying := ?_ }
  intro n copied since hp
  cases hp
  exact ⟨(h.quiet hqt).1, Nat.le_refl _, fun _ => ⟨hqt, fun _ _ hv => by cases hv⟩⟩

lemma Inv.copy (h : Inv s) {sequence since : ℕ} {state : Fin k → Option W}
    (hcop : s.reader = .copying sequence state since) (j : Fin k) :
    Inv { s with reader := .copying sequence (update state j (some (s.state j))) since } := by
  obtain ⟨hseq, hle, hsame⟩ := h.copying sequence state since hcop
  refine { h with copying := ?_ }
  intro n copied m hp
  cases hp
  refine ⟨hseq, hle, fun heq => ⟨(hsame heq).1, fun m v hv => ?_⟩⟩
  rcases update_cases hv with ⟨rfl, hv⟩ | ⟨-, hv⟩
  · exact (Option.some.inj hv).symm
  · exact (hsame heq).2 m v hv

lemma Inv.compare (h : Inv s) {sequence since : ℕ} {copied : Fin k → Option W} {state : Record W k}
    (hcop : s.reader = .copying sequence copied since) (hfew : s.begun < since + 2147483648)
    (hwh : whole copied = some state) (hequal : s.sequence = sequence) :
    Inv { s with reader := .idle, returned := s.returned ++ [state] } := by
  obtain ⟨hseq, hle, hsame⟩ := h.copying sequence copied since hcop
  have hqt : Quiet s := by
    intro r n stored hstor
    obtain ⟨hodd, hnext, -⟩ := h.storing r n stored hstor
    unfold words at hodd hnext hseq
    omega
  obtain ⟨hnow, hst⟩ := h.quiet hqt
  have hsin : since = s.begun := by
    unfold words at hnow hseq
    omega
  have hcopy : state = s.state := by
    obtain ⟨-, hwor⟩ := hsame hsin
    unfold whole at hwh
    by_cases hall : ∀ j, (copied j).isSome = true
    · rw [dif_pos hall] at hwh
      rw [← Option.some.inj hwh]
      funext j
      exact hwor j _ (Option.some_get (hall j)).symm
    · rw [dif_neg hall] at hwh
      cases hwh
  refine ⟨h.quiet, h.loaded, h.storing, fun _ _ _ hp => (by cases hp), ?_⟩
  intro r hr
  rcases List.mem_append.mp hr with hr | hr
  · exact h.returned r hr
  · rw [List.mem_singleton.mp hr, hcopy]
    exact hst

lemma Inv.retry (h : Inv s) : Inv { s with reader := .idle } :=
  { h with copying := fun _ _ _ hp => (by cases hp) }

/-- **Every step of a run with few publications keeps the invariant.** -/
theorem step_inv {e : Event W k} (h : Inv s) (hfew : Few s e) (hstep : step s e = some s') : Inv s' := by
  unfold step at hstep
  cases e with
  | prepare state =>
    cases hpubr : s.publisher with
    | idle =>
      rw [hpubr] at hstep
      cases hstep
      exact h.prepare hpubr state
    | loaded r n | storing r n d =>
      rw [hpubr] at hstep
      cases hstep
  | begin =>
    cases hpubr : s.publisher with
    | loaded state sequence =>
      rw [hpubr] at hstep
      cases hstep
      exact h.begin hpubr
    | idle | storing r n d =>
      rw [hpubr] at hstep
      cases hstep
  | store j =>
    cases hpubr : s.publisher with
    | storing state sequence stored =>
      rw [hpubr] at hstep
      cases hstep
      exact h.store hpubr j
    | idle | loaded r n =>
      rw [hpubr] at hstep
      cases hstep
  | finish =>
    cases hpubr : s.publisher with
    | storing state sequence stored =>
      rw [hpubr] at hstep
      dsimp only at hstep
      by_cases hall : ∀ j : Fin k, j ∈ stored
      · rw [if_pos hall] at hstep
        cases hstep
        exact h.finish hpubr hall
      · rw [if_neg hall] at hstep
        cases hstep
    | idle | loaded r n =>
      rw [hpubr] at hstep
      cases hstep
  | load =>
    cases hrdr : s.reader with
    | idle =>
      rw [hrdr] at hstep
      dsimp only at hstep
      by_cases hodd : s.sequence % 2 = 1
      · rw [if_pos hodd] at hstep
        cases hstep
        exact h
      · rw [if_neg hodd] at hstep
        cases hstep
        exact h.load hodd
    | copying n r b =>
      rw [hrdr] at hstep
      cases hstep
  | copy j =>
    cases hrdr : s.reader with
    | copying sequence state since =>
      rw [hrdr] at hstep
      cases hstep
      exact h.copy hrdr j
    | idle =>
      rw [hrdr] at hstep
      cases hstep
  | compare =>
    cases hrdr : s.reader with
    | copying sequence copied since =>
      have hnear := hfew sequence copied since hrdr
      rw [hrdr] at hstep
      dsimp only at hstep
      cases hwh : whole copied with
      | none =>
        rw [hwh] at hstep
        cases hstep
      | some state =>
        rw [hwh] at hstep
        dsimp only at hstep
        by_cases hequal : s.sequence = sequence
        · rw [if_pos hequal] at hstep
          cases hstep
          exact h.compare hrdr hnear hwh hequal
        · rw [if_neg hequal] at hstep
          cases hstep
          exact h.retry
    | idle =>
      rw [hrdr] at hstep
      cases hstep

lemma inv_init (hs : Init s) : Inv s := by
  refine ⟨fun _ => ⟨hs.sequence, ?_⟩, fun _ _ hp => ?_, fun _ _ _ hp => ?_, fun _ _ _ hp => ?_, fun r hr => ?_⟩
  · rw [hs.published]
    exact List.mem_singleton_self _
  · rw [hs.publisher] at hp
    cases hp
  · rw [hs.publisher] at hp
    cases hp
  · rw [hs.reader] at hp
    cases hp
  · rw [hs.returned] at hr
    cases hr

/-- **A client gets states that were published as a whole.** -/
theorem returned_published (hs : (system W k).Guarded Few s) : ∀ state ∈ s.returned, state ∈ s.published :=
  (hs.invariant (P := Inv) (fun _ hinit => inv_init hinit) fun _ _ _ h hfew hstep => step_inv h hfew hstep).returned

/-! ### A client that is not disturbed -/

lemma runFrom_step {e : Event W k} {es : List (Event W k)} (h : step s e = some s') :
    (system W k).runFrom s (e :: es) = (system W k).runFrom s' es :=
  congrArg (fun next => Option.bind next fun s => (system W k).runFrom s es) h

lemma copies {sequence since : ℕ} (js : List (Fin k)) (es : List (Event W k)) (copied : Fin k → Option W)
    (hcop : s.reader = .copying sequence copied since) :
    ∃ copied', (system W k).runFrom s (js.map .copy ++ es) =
        (system W k).runFrom { s with reader := .copying sequence copied' since } es ∧
      ∀ j, copied' j = if j ∈ js then some (s.state j) else copied j := by
  induction js generalizing s copied with
  | nil =>
    refine ⟨copied, ?_, fun j => (if_neg List.not_mem_nil).symm⟩
    rw [← hcop]
    rfl
  | cons j js ih =>
    have hcopy : step s (.copy j) =
        some { s with reader := .copying sequence (update copied j (some (s.state j))) since } := by
      unfold step
      rw [hcop]
    obtain ⟨copied', hrun, hcopied⟩ := ih (s := { s with
      reader := .copying sequence (update copied j (some (s.state j))) since }) _ rfl
    refine ⟨copied', ?_, fun m => ?_⟩
    · exact (runFrom_step hcopy).trans hrun
    · rw [hcopied m]
      by_cases hmem : m ∈ js
      · rw [if_pos hmem, if_pos (List.mem_cons_of_mem j hmem)]
      · rw [if_neg hmem]
        by_cases hm : m = j
        · subst hm
          rw [update_self, if_pos List.mem_cons_self]
        · rw [update_of_ne hm, if_neg]
          exact List.not_mem_cons_of_ne_of_not_mem hm hmem

/-- **A client that no publication disturbs returns**, with the state of now. -/
theorem undisturbed_returns (hs : (system W k).Guarded Few s) (hidle : s.reader = .idle) (hqt : Quiet s) :
    ∃ s', (system W k).runFrom s (.load :: ((List.finRange k).map .copy ++ [.compare])) = some s' ∧
      s'.returned = s.returned ++ [s.state] := by
  have h := hs.invariant (P := Inv) (fun _ hinit => inv_init hinit) fun _ _ _ h hfew hstep => step_inv h hfew hstep
  have heven : s.sequence % 2 ≠ 1 := by
    rw [(h.quiet hqt).1]
    unfold words
    omega
  have hload : step s .load = some { s with reader := .copying s.sequence (fun _ => none) s.begun } := by
    unfold step
    rw [hidle]
    exact if_neg heven
  obtain ⟨copied, hcps, hcopied⟩ := copies (s := { s with reader := .copying s.sequence (fun _ => none) s.begun })
    (List.finRange k) [.compare] _ rfl
  have hwh : whole copied = some s.state := by
    have hword : ∀ j, copied j = some (s.state j) := fun j => (hcopied j).trans (if_pos (List.mem_finRange j))
    have hall : ∀ j, (copied j).isSome = true := by
      intro j
      rw [hword j]
      rfl
    unfold whole
    rw [dif_pos hall]
    exact congrArg some (funext fun j => Option.get_of_eq_some (hall j) (hword j))
  have hcom : step { s with reader := .copying s.sequence copied s.begun } .compare =
      some { s with reader := .idle, returned := s.returned ++ [s.state] } := by
    unfold step
    dsimp only
    rw [hwh]
    exact if_pos rfl
  refine ⟨{ s with reader := .idle, returned := s.returned ++ [s.state] }, ?_, rfl⟩
  calc (system W k).runFrom s (.load :: ((List.finRange k).map .copy ++ [.compare]))
      = (system W k).runFrom { s with reader := .copying s.sequence (fun _ => none) s.begun }
          ((List.finRange k).map .copy ++ [.compare]) :=
        runFrom_step hload
    _ = (system W k).runFrom { s with reader := .copying s.sequence copied s.begun } [.compare] := hcps
    _ = some { s with reader := .idle, returned := s.returned ++ [s.state] } :=
        runFrom_step hcom

end Steps

end PlantOS.Gui.StateSequence

/-! ## The memory that a window shares -/

namespace PlantOS.Gui

open Lib

/-- **What server and client may rely on.** -/
theorem window_memory (W : Type) [DecidableEq W] (k : ℕ) :
    (∀ s, (Queue.system W k).Guarded Queue.Calm s → Queue.Faithful s) ∧
    (∀ s, (Queue.system W k).Reachable s → ∀ slot ∈ s.touched, slot < Queue.capacity) ∧
    (∀ s, (StateSequence.system W k).Guarded StateSequence.Few s → ∀ state ∈ s.returned, state ∈ s.published) ∧
    ∀ s, (StateSequence.system W k).Guarded StateSequence.Few s → s.reader = .idle → StateSequence.Quiet s →
      ∃ s', (StateSequence.system W k).runFrom s (.load :: ((List.finRange k).map .copy ++ [.compare])) = some s' ∧
        s'.returned = s.returned ++ [s.state] :=
  ⟨fun _ hs => Queue.calm_faithful hs, fun _ hs => Queue.touched_inside hs, fun _ hs => StateSequence.returned_published hs,
    fun _ hs hidle hquiet => StateSequence.undisturbed_returns hs hidle hquiet⟩

section Overlap

open Queue

def emptyKeys : State ℕ 1 :=
  { read := 0, write := 0, data := fun _ _ => 0, producer := .idle, consumer := .idle, history := [], touched := [] }

/-- A key is pressed, and the client pops it. -/
def pressed : List (Event ℕ 1) := [.push [fun _ => 30], .check, .store 0 0, .publish, .pop, .look, .copy 0, .advance]

/-- A state is published, and the client reads it. -/
def shown : List (StateSequence.Event ℕ 1) := [.prepare fun _ => 7, .begin, .store 0, .finish, .load, .copy 0, .compare]

theorem window_memory_pressed : Faithful ((Queue.system ℕ 1).after emptyKeys pressed) ∧ ∀ state ∈
    ((StateSequence.system ℕ 1).after ⟨0, fun _ => 0, .idle, .idle, 0, [fun _ => 0], []⟩ shown).returned, state ∈
      ((StateSequence.system ℕ 1).after ⟨0, fun _ => 0, .idle, .idle, 0, [fun _ => 0], []⟩ shown).published := by
  obtain ⟨hqueue, -, hstate, -⟩ := window_memory ℕ 1
  refine ⟨hqueue _ (System.after_guarded (.init ⟨rfl, rfl, rfl, rfl, rfl, rfl⟩) ?_),
    hstate _ (System.after_guarded (.init ⟨rfl, rfl, rfl, rfl, rfl⟩) ?_)⟩
  · refine ⟨trivial, trivial, trivial, trivial, trivial, fun read hread => ?_, trivial, trivial, trivial⟩
    cases hread
    exact Eq.refl 0
  · refine ⟨trivial, trivial, trivial, trivial, trivial, trivial, fun sequence state since hread => ?_, trivial⟩
    cases hread
    decide

/-- A key is pressed; the client begins to pop it, the keyboard is started anew, the client ends its pop; another key. -/
def overlap : List (Event ℕ 1) :=
  [.push [fun _ => 30], .check, .store 0 0, .publish, .pop, .look, .copy 0, .resetRead, .resetWrite, .advance,
    .push [fun _ => 31], .check]

/-- The queue is empty and takes no key: `read` is one and `write` is zero. -/
theorem overlap_fills : ¬ ∀ s, (Queue.system ℕ 1).Reachable s → Faithful s := by
  intro h
  have hinit : (Queue.system ℕ 1).Reachable emptyKeys := .init ⟨rfl, rfl, rfl, rfl, rfl, rfl⟩
  obtain ⟨content, hlegal, -⟩ := h _ (System.replay_reachable hinit overlap)
  have hillegal : fifo ((Queue.system ℕ 1).replay emptyKeys overlap).history = none := by
    rfl
  rw [hillegal] at hlegal
  cases hlegal

end Overlap

end PlantOS.Gui

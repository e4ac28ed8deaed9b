import Mathlib.Algebra.BigOperators.Group.List.Basic
import Mathlib.Data.List.Perm.Subperm
import PlantOS.Lib.Chain
import PlantOS.Net.SlotCalls

/-!
# The lists in the socket table

The packets in the free list and in the queues, and the sockets that wait to be accepted. Each part speaks of the
columns that it is about, so that a step that does not write them keeps it.
-/

namespace PlantOS.Net.Slots

open Lib.Chain
open List (length_append map_cons mem_append mem_append_left mem_cons mem_of_getLast? mem_singleton nodup_cons sum sum_cons)
open Function (comp_update update update_apply update_eq_self update_of_ne update_self)

abbrev nextPacket (packets : ℕ → Packet) (p : ℕ) : Option ℕ := (packets p).next

abbrev nextPending (pending : ℕ → Pending) (i : ℕ) : Option ℕ := (pending i).next

def Packet.left (p : Packet) : ℕ := p.total - p.offset

/-! ### Packets -/

/-- **Every packet is in the free list or in one queue**, and the queues know their bytes. -/
structure Pool (packets : ℕ → Packet) (packetFree : Option ℕ) (queue : ℕ → Queue) (free : List ℕ) (lists : ℕ → List ℕ) :
    Prop where
  chain : IsChain (nextPacket packets) packetFree free
  isQueue : ∀ i, IsQueue (nextPacket packets) (queue i).head (queue i).tail (lists i)
  unused : ∀ i, ∀ p ∈ lists i, p ∉ free
  once : ∀ i j, ∀ p ∈ lists i, p ∈ lists j → i = j
  all : ∀ p, p < packetCapacity ↔ p ∈ free ∨ ∃ i, p ∈ lists i
  bytes : ∀ i, (queue i).bytes = ((lists i).map fun p => (packets p).left).sum
  offset : ∀ i, ∀ p ∈ lists i, (packets p).offset ≤ (packets p).total

section Pool

variable {packets : ℕ → Packet} {packetFree : Option ℕ} {queue : ℕ → Queue} {free : List ℕ} {lists : ℕ → List ℕ} {i p : ℕ}

lemma nextPacket_update (packets : ℕ → Packet) (p : ℕ) (x : Packet) :
    nextPacket (update packets p x) = update (nextPacket packets) p x.next :=
  comp_update Packet.next packets p x

lemma sum_left_congr {packets' : ℕ → Packet} {l : List ℕ} (h : ∀ q ∈ l, (packets' q).left = (packets q).left) :
    (l.map fun q => (packets' q).left).sum = (l.map fun q => (packets q).left).sum :=
  congrArg sum (List.map_congr_left h)

lemma Pool.length_le (h : Pool packets packetFree queue free lists) (i : ℕ) : (lists i).length ≤ packetCapacity := by
  have hsub : List.Subperm (lists i) (List.range packetCapacity) :=
    List.Nodup.subperm (h.isQueue i).chain.nodup fun p hp => List.mem_range.mpr ((h.all p).mpr (.inr ⟨i, hp⟩))
  have hle := hsub.length_le
  rwa [List.length_range] at hle

/-- **A packet is taken out of a queue and freed.** -/
theorem Pool.drop (h : Pool packets packetFree queue free lists) {l : List ℕ} (hl : lists i = p :: l) :
    Pool (update packets p ⟨packetFree, 0, 0⟩) (some p)
      (update queue i
        ⟨(packets p).next, if (packets p).next = none then none else (queue i).tail, (queue i).bytes - (packets p).left⟩)
      (p :: free) (update lists i l) := by
  have hqu := h.isQueue i
  rw [hl] at hqu
  have hp : p ∈ lists i := by simp [hl]
  have hpfr : p ∉ free := h.unused i p hp
  have hpl : p ∉ l := (nodup_cons.mp hqu.chain.nodup).1
  have hmem : ∀ j q, q ∈ update lists i l j → q ∈ lists j ∧ q ≠ p := by
    intro j q hq
    by_cases hj : j = i
    · subst hj
      rw [update_self] at hq
      exact ⟨by simp [hl, hq], fun heq => hpl (heq ▸ hq)⟩
    · rw [update_of_ne hj] at hq
      exact ⟨hq, fun heq => hj (h.once j i q hq (heq ▸ hp))⟩
  refine ⟨?_, fun j => ?_, fun j q hq => ?_, fun j k q hq hq' => ?_, fun q => ?_, fun j => ?_, fun j q hq => ?_⟩
  · rw [nextPacket_update]
    exact h.chain.cons hpfr
  · rw [nextPacket_update]
    by_cases hj : j = i
    · subst hj
      rw [update_self, update_self]
      exact hqu.tail_of_cons.update hpl _
    · rw [update_of_ne hj, update_of_ne hj]
      exact (h.isQueue j).update (fun hmem => hj (h.once j i p hmem hp)) _
  · obtain ⟨hq, hne⟩ := hmem j q hq
    rw [mem_cons, not_or]
    exact ⟨hne, h.unused j q hq⟩
  · exact h.once j k q (hmem j q hq).1 (hmem k q hq').1
  · rw [h.all, mem_cons]
    constructor
    · rintro (hq | ⟨j, hq⟩)
      · exact .inl (.inr hq)
      · by_cases hqp : q = p
        · exact .inl (.inl hqp)
        · refine .inr ⟨j, ?_⟩
          by_cases hj : j = i
          · subst hj
            rw [hl, mem_cons] at hq
            rw [update_self]
            exact hq.resolve_left hqp
          · rwa [update_of_ne hj]
    · rintro ((rfl | hq) | ⟨j, hq⟩)
      · exact .inr ⟨i, hp⟩
      · exact .inl hq
      · exact .inr ⟨j, (hmem j q hq).1⟩
  · have hsum : ((update lists i l j).map fun q => (update packets p ⟨packetFree, 0, 0⟩ q).left).sum =
        ((update lists i l j).map fun q => (packets q).left).sum :=
      sum_left_congr fun q hq => by rw [update_of_ne (hmem j q hq).2]
    rw [hsum]
    by_cases hj : j = i
    · subst hj
      rw [update_self, update_self, h.bytes, hl, map_cons, sum_cons]
      exact Nat.add_sub_cancel_left ..
    · rw [update_of_ne hj, update_of_ne hj]
      exact h.bytes j
  · obtain ⟨hq, hne⟩ := hmem j q hq
    rw [update_of_ne hne]
    exact h.offset j q hq

/-- **Bytes of a packet are received.** -/
theorem Pool.consume (h : Pool packets packetFree queue free lists) {l : List ℕ} (hl : lists i = p :: l) {part : ℕ}
    (hpart : part ≤ (packets p).left) :
    Pool (update packets p { packets p with offset := (packets p).offset + part }) packetFree
      (update queue i { queue i with bytes := (queue i).bytes - part }) free lists := by
  have hnext : nextPacket (update packets p { packets p with offset := (packets p).offset + part }) = nextPacket packets := by
    rw [nextPacket_update]
    exact update_eq_self p (nextPacket packets)
  have hp : p ∈ lists i := by simp [hl]
  have hoff := h.offset i p hp
  unfold Packet.left at hpart
  refine ⟨hnext ▸ h.chain, fun j => ?_, h.unused, h.once, h.all, fun j => ?_, fun j q hq => ?_⟩
  · rw [hnext]
    by_cases hj : j = i
    · subst hj
      rw [update_self]
      exact h.isQueue j
    · rw [update_of_ne hj]
      exact h.isQueue j
  · by_cases hj : j = i
    · subst hj
      have hpl : p ∉ l := by
        have hnd := (h.isQueue j).chain.nodup
        rw [hl] at hnd
        exact (nodup_cons.mp hnd).1
      have hsum : (l.map fun q => (update packets p { packets p with offset := (packets p).offset + part } q).left).sum =
          (l.map fun q => (packets q).left).sum :=
        sum_left_congr fun q hq => by rw [update_of_ne fun heq : q = p => hpl (heq ▸ hq)]
      rw [update_self, h.bytes, hl, map_cons, map_cons, sum_cons, sum_cons, hsum,
        update_self]
      simp only [Packet.left]
      omega
    · rw [update_of_ne hj, h.bytes]
      refine (sum_left_congr fun q hq => ?_).symm
      rw [update_of_ne fun heq : q = p => hj (h.once j i q hq (heq ▸ hp))]
  · by_cases hqp : q = p
    · subst hqp
      rw [update_self]
      show (packets q).offset + part ≤ (packets q).total
      omega
    · rw [update_of_ne hqp]
      exact h.offset j q hq

/-- The packet that is appended to a queue, and the one in front of it -/
def appended (packets : ℕ → Packet) (tail : Option ℕ) (p length : ℕ) : ℕ → Packet :=
  match tail with
  | some y => update (update packets p ⟨none, length, 0⟩) y
      { update packets p ⟨none, length, 0⟩ y with next := some p }
  | none => update packets p ⟨none, length, 0⟩

lemma appended_left (packets : ℕ → Packet) (tail : Option ℕ) (p length q : ℕ) :
    (appended packets tail p length q).total = (update packets p ⟨none, length, 0⟩ q).total ∧
      (appended packets tail p length q).offset = (update packets p ⟨none, length, 0⟩ q).offset := by
  unfold appended
  cases tail with
  | none => exact ⟨rfl, rfl⟩
  | some y =>
    dsimp only
    by_cases hq : q = y
    · subst hq
      rw [update_self]
      exact ⟨rfl, rfl⟩
    · simp only [update_of_ne hq, and_self]

/-- **A free packet is put into a queue.** -/
theorem Pool.push (h : Pool packets packetFree queue (p :: free) lists) (i length : ℕ) :
    Pool (appended packets (queue i).tail p length) (packets p).next
      (update queue i ⟨if (queue i).tail = none then some p else (queue i).head, some p, (queue i).bytes + length⟩) free
      (update lists i (lists i ++ [p])) := by
  have hfree := h.chain
  have hpfr : p ∉ free := (nodup_cons.mp hfree.nodup).1
  have hpl : ∀ j, p ∉ lists j := fun j hp => h.unused j p hp List.mem_cons_self
  have hmem : ∀ j q, q ∈ update lists i (lists i ++ [p]) j → q ∈ lists j ∨ (j = i ∧ q = p) := by
    intro j q hq
    by_cases hj : j = i
    · subst hj
      rw [update_self] at hq
      rcases mem_append.mp hq with hq | hq
      · exact .inl hq
      · exact .inr ⟨rfl, mem_singleton.mp hq⟩
    · rw [update_of_ne hj] at hq
      exact .inl hq
  have hold : ∀ j, j ≠ i → update lists i (lists i ++ [p]) j = lists j := fun j hj => update_of_ne hj ..
  refine ⟨?_, fun j => ?_, fun j q hq => ?_, fun j k q hq hq' => ?_, fun q => ?_, fun j => ?_, fun j q hq => ?_⟩
  · -- the free list does not read the packets that are written
    have hch := hfree.2.update hpfr none
    unfold appended
    cases htail : (queue i).tail with
    | none =>
      rw [nextPacket_update]
      exact hch
    | some y =>
      have hy : y ∈ lists i := mem_of_getLast? ((h.isQueue i).tail.symm.trans htail)
      dsimp only
      rw [nextPacket_update, nextPacket_update]
      exact hch.update (fun hmem => h.unused i y hy (List.mem_cons_of_mem _ hmem)) _
  · unfold appended
    have hqu := h.isQueue i
    cases htail : (queue i).tail with
    | none =>
      rw [nextPacket_update]
      by_cases hj : j = i
      · subst hj
        rw [htail] at hqu
        obtain ⟨hnil, hlist⟩ := hqu.append_nil p
        rw [update_self, update_self, hnil, if_pos rfl]
        exact hlist
      · rw [update_of_ne hj, update_of_ne hj]
        exact (h.isQueue j).update (hpl j) _
    | some y =>
      dsimp only
      rw [nextPacket_update, nextPacket_update]
      have hy : y ∈ lists i := mem_of_getLast? ((h.isQueue i).tail.symm.trans htail)
      by_cases hj : j = i
      · subst hj
        rw [htail] at hqu
        rw [update_self, update_self, if_neg (Option.some_ne_none y)]
        exact hqu.append_some (hpl j)
      · rw [update_of_ne hj, update_of_ne hj]
        exact ((h.isQueue j).update (hpl j) _).update (fun hmem => hj (h.once j i y hmem hy)) _
  · rcases hmem j q hq with hq | ⟨-, rfl⟩
    · exact fun hmem => h.unused j q hq (List.mem_cons_of_mem _ hmem)
    · exact hpfr
  · rcases hmem j q hq with hq | ⟨rfl, rfl⟩
    · rcases hmem k q hq' with hq' | ⟨-, heq⟩
      · exact h.once j k q hq hq'
      · exact absurd (heq ▸ hq) (hpl j)
    · rcases hmem k q hq' with hq' | ⟨rfl, -⟩
      · exact absurd hq' (hpl k)
      · rfl
  · rw [h.all, mem_cons]
    constructor
    · rintro ((rfl | hq) | ⟨j, hq⟩)
      · exact .inr ⟨i, by simp⟩
      · exact .inl hq
      · refine .inr ⟨j, ?_⟩
        by_cases hj : j = i
        · subst hj
          rw [update_self]
          exact mem_append_left _ hq
        · rwa [hold j hj]
    · rintro (hq | ⟨j, hq⟩)
      · exact .inl (.inr hq)
      · rcases hmem j q hq with hq | ⟨-, rfl⟩
        · exact .inr ⟨j, hq⟩
        · exact .inl (.inl rfl)
  · have hleft : ∀ q, (appended packets (queue i).tail p length q).left = (update packets p ⟨none, length, 0⟩ q).left := by
      intro q
      obtain ⟨htot, hoff⟩ := appended_left packets (queue i).tail p length q
      unfold Packet.left
      rw [htot, hoff]
    have hsum : ((lists j).map fun q => (appended packets (queue i).tail p length q).left).sum =
        ((lists j).map fun q => (packets q).left).sum :=
      sum_left_congr fun q hq => by rw [hleft, update_of_ne fun heq : q = p => hpl j (heq ▸ hq)]
    by_cases hj : j = i
    · subst hj
      rw [update_self, update_self, List.map_append, List.sum_append, hsum, ← h.bytes, List.map_singleton,
        List.sum_singleton, hleft, update_self]
      rfl
    · rw [update_of_ne hj, hold j hj, hsum, ← h.bytes]
  · obtain ⟨htot, hoff⟩ := appended_left packets (queue i).tail p length q
    rw [htot, hoff]
    rcases hmem j q hq with hq | ⟨-, rfl⟩
    · rw [update_of_ne fun heq : q = p => hpl j (heq ▸ hq)]
      exact h.offset j q hq
    · rw [update_self]
      exact Nat.zero_le _

end Pool

/-! ### Sockets that wait to be accepted -/

def State.Settled (x : State) : Prop := x = .tcpConnected ∨ x = .localConnected ∨ x = .tcpFailed

def State.Unready (x : State) : Prop := x = .reserved ∨ x = .tcpReady ∨ x = .localReady

lemma State.Settled.ne_free {x : State} (h : x.Settled) : x ≠ .free := by
  rcases h with rfl | rfl | rfl <;> exact nofun

lemma State.Settled.not_unready {x : State} (h : x.Settled) : ¬x.Unready := by
  rcases h with rfl | rfl | rfl <;> simp [State.Unready]

lemma State.Unready.not_settled {x : State} (h : x.Unready) : ¬x.Settled := fun hset => hset.not_unready h

lemma State.Unready.ne_free {x : State} (h : x.Unready) : x ≠ .free := by
  rcases h with rfl | rfl | rfl <;> exact nofun

/-- **The lists of the sockets that wait to be accepted**: `lists l` is the list of `l`. -/
structure Waiting (state : ℕ → State) (generation : ℕ → ℕ) (pending : ℕ → Pending) (lists : ℕ → List ℕ) : Prop where
  isQueue : ∀ l, state l ≠ .free → IsQueue (nextPending pending) (pending l).head (pending l).tail (lists l)
  nil : ∀ l, state l = .free → lists l = []
  count : ∀ l, state l ≠ .free → (pending l).count = (lists l).length
  backlog : ∀ l, (lists l).length ≤ (pending l).backlog
  child : ∀ l, ∀ c ∈ lists l, (pending c).parent = some l ∧ (pending c).parentGeneration = generation l
  settled : ∀ l, ∀ c ∈ lists l, (state c).Settled ∧ lists c = []
  orphan : ∀ c, state c ≠ .free → (∀ l, c ∉ lists l) → (pending c).parent = none
  unready : ∀ l, (state l).Unready → lists l = []

section Waiting

variable {state : ℕ → State} {generation : ℕ → ℕ} {pending pending' : ℕ → Pending} {lists : ℕ → List ℕ} {i l c g : ℕ}
    {x : State}

lemma nextPending_update (pending : ℕ → Pending) (i : ℕ) (x : Pending) :
    nextPending (update pending i x) = update (nextPending pending) i x.next :=
  comp_update Pending.next pending i x

lemma Waiting.unique (h : Waiting state generation pending lists) (hc : c ∈ lists l) (hc' : c ∈ lists i) : l = i :=
  Option.some.inj ((h.child l c hc).1.symm.trans (h.child i c hc').1)

lemma Waiting.ne (h : Waiting state generation pending lists) (hc : c ∈ lists l) : c ≠ l := by
  rintro rfl
  rw [(h.settled c c hc).2] at hc
  cases hc

lemma Waiting.notMem (h : Waiting state generation pending lists) (hc : ¬(state c).Settled) (l : ℕ) : c ∉ lists l :=
  fun hmem => hc (h.settled l c hmem).1

lemma Waiting.mem_of_parent (h : Waiting state generation pending lists) (hc : state c ≠ .free)
    (hl : (pending c).parent = some l) :
    c ∈ lists l := by
  by_contra hmem
  by_cases hex : ∃ k, c ∈ lists k
  · obtain ⟨k, hk⟩ := hex
    rw [(h.child k c hk).1] at hl
    exact hmem (Option.some.inj hl ▸ hk)
  · rw [h.orphan c hc fun k hk => hex ⟨k, hk⟩] at hl
    cases hl

/-- **A socket changes its state.** -/
theorem Waiting.setState (h : Waiting state generation pending lists) (hi : state i ≠ .free) (hx : x ≠ .free)
    (hunr : x.Unready → lists i = []) (hsett : x.Settled ∨ ¬(state i).Settled) :
    Waiting (update state i x) generation pending lists := by
  have hfree : ∀ k, update state i x k = .free ↔ state k = .free := by
    intro k
    by_cases hk : k = i
    · subst hk
      simp [hx, hi]
    · rw [update_of_ne hk]
  refine ⟨fun k hk => h.isQueue k fun heq => hk ((hfree k).mpr heq), fun k hk => h.nil k ((hfree k).mp hk),
    fun k hk => h.count k fun heq => hk ((hfree k).mpr heq), h.backlog, h.child, fun k d hd => ?_,
    fun d hd hmem => h.orphan d (fun heq => hd ((hfree d).mpr heq)) hmem, fun k hk => ?_⟩
  · refine ⟨?_, (h.settled k d hd).2⟩
    by_cases hdi : d = i
    · subst hdi
      rw [update_self]
      exact hsett.resolve_right fun hnot => hnot (h.settled k d hd).1
    · rw [update_of_ne hdi]
      exact (h.settled k d hd).1
  · by_cases hki : k = i
    · subst hki
      rw [update_self] at hk
      exact hunr hk
    · rw [update_of_ne hki] at hk
      exact h.unready k hk

/-- A socket that is in no list and has none is replaced by one that is free or has just been reserved. -/
lemma Waiting.replace (h : Waiting state generation pending lists) (hmem : ∀ l, i ∉ lists l) (hnil : lists i = []) (g : ℕ)
    {p : Pending} (hp : x ≠ .free → p = .init) :
    Waiting (update state i x) (update generation i g) (update pending i p) lists := by
  have hne : ∀ l, ∀ c ∈ lists l, c ≠ i := fun l c hc heq => hmem l (heq ▸ hc)
  refine ⟨fun k hk => ?_, fun k hk => ?_, fun k hk => ?_, fun k => ?_, fun k c hc => ?_, fun k c hc => ?_, fun c hc hc' => ?_,
    fun k hk => ?_⟩
  · rw [nextPending_update]
    by_cases hki : k = i
    · subst hki
      rw [update_self] at hk
      rw [update_self, hnil, hp hk]
      exact isQueue_nil
    · rw [update_of_ne hki] at hk ⊢
      exact (h.isQueue k hk).update (hmem k) _
  · by_cases hki : k = i
    · exact hki ▸ hnil
    · rw [update_of_ne hki] at hk
      exact h.nil k hk
  · by_cases hki : k = i
    · subst hki
      rw [update_self] at hk
      rw [update_self, hnil, hp hk]
      rfl
    · rw [update_of_ne hki] at hk ⊢
      exact h.count k hk
  · by_cases hki : k = i
    · subst hki
      rw [hnil]
      exact Nat.zero_le _
    · rw [update_of_ne hki]
      exact h.backlog k
  · have hki : k ≠ i := by
      rintro rfl
      rw [hnil] at hc
      cases hc
    rw [update_of_ne (hne k c hc), update_of_ne hki]
    exact h.child k c hc
  · rw [update_of_ne (hne k c hc)]
    exact h.settled k c hc
  · by_cases hci : c = i
    · subst hci
      rw [update_self] at hc
      rw [update_self, hp hc]
      rfl
    · rw [update_of_ne hci] at hc ⊢
      exact h.orphan c hc hc'
  · by_cases hki : k = i
    · exact hki ▸ hnil
    · rw [update_of_ne hki] at hk
      exact h.unready k hk

theorem Waiting.reserve (h : Waiting state generation pending lists) (hi : state i = .free) (g : ℕ) :
    Waiting (update state i .reserved) (update generation i g) (update pending i .init) lists :=
  h.replace (fun l => h.notMem (by rw [hi]; simp [State.Settled]) l) (h.nil i hi) g fun _ => rfl

theorem Waiting.blank (h : Waiting state generation pending lists) (hmem : ∀ l, i ∉ lists l) (hnil : lists i = [])
    (p : Pending) :
    Waiting (update state i .free) generation (update pending i p) lists := by
  have hblan := h.replace (x := .free) (p := p) hmem hnil (generation i) fun hne => absurd rfl hne
  rwa [update_eq_self] at hblan

/-- **Another member list for one socket.** What is left to show when the list of `l` becomes `m`: the new links are
right, and who leaves the list has no parent any more. -/
theorem Waiting.relist (h : Waiting state generation pending lists) (hl : state l ≠ .free) {m : List ℕ}
    (hqu : IsQueue (nextPending pending') (pending' l).head (pending' l).tail m)
    (hoth : ∀ k, k ≠ l → (pending' k).head = (pending k).head ∧ (pending' k).tail = (pending k).tail ∧
      (pending' k).count = (pending k).count ∧ ∀ c ∈ lists k, nextPending pending' c = nextPending pending c)
    (hbac : ∀ k, (pending' k).backlog = (pending k).backlog)
    (hcnt : (pending' l).count = m.length) (hlen : m.length ≤ (pending l).backlog)
    (hstay : ∀ k, ∀ c ∈ lists k, k ≠ l → (pending' c).parent = some k ∧ (pending' c).parentGeneration = generation k)
    (hchd : ∀ c ∈ m, (pending' c).parent = some l ∧ (pending' c).parentGeneration = generation l)
    (hsett : ∀ c ∈ m, c ≠ l ∧ (state c).Settled ∧ lists c = [])
    (hpar : ∀ k, ∀ c ∈ lists k, k ≠ l → c ≠ l) (horp : ∀ c, state c ≠ .free → c ∉ m → (∀ k, k ≠ l → c ∉ lists k) →
      (pending' c).parent = none) (hunr : (state l).Unready → m = []) :
    Waiting state generation pending' (update lists l m) := by
  have hold : ∀ k, k ≠ l → update lists l m k = lists k := fun k hk => update_of_ne hk ..
  have hself : update lists l m l = m := update_self ..
  refine ⟨fun k hk => ?_, fun k hk => ?_, fun k hk => ?_, fun k => ?_, fun k c hc => ?_, fun k c hc => ?_, fun c hc hc' => ?_,
    fun k hk => ?_⟩
  · by_cases hkl : k = l
    · subst hkl
      rw [hself]
      exact hqu
    · obtain ⟨hhead, htail, -, hnext⟩ := hoth k hkl
      rw [hold k hkl, hhead, htail]
      exact (h.isQueue k hk).congr hnext
  · have hkl : k ≠ l := fun heq => hl (heq ▸ hk)
    rw [hold k hkl]
    exact h.nil k hk
  · by_cases hkl : k = l
    · subst hkl
      rw [hself]
      exact hcnt
    · rw [hold k hkl, (hoth k hkl).2.2.1]
      exact h.count k hk
  · rw [hbac]
    by_cases hkl : k = l
    · subst hkl
      rw [hself]
      exact hlen
    · rw [hold k hkl]
      exact h.backlog k
  · by_cases hkl : k = l
    · subst hkl
      rw [hself] at hc
      exact hchd c hc
    · rw [hold k hkl] at hc
      exact hstay k c hc hkl
  · by_cases hkl : k = l
    · subst hkl
      rw [hself] at hc
      obtain ⟨hne, hset, hnil⟩ := hsett c hc
      exact ⟨hset, (hold c hne).trans hnil⟩
    · rw [hold k hkl] at hc
      obtain ⟨hset, hnil⟩ := h.settled k c hc
      exact ⟨hset, (hold c (hpar k c hc hkl)).trans hnil⟩
  · refine horp c hc (hself ▸ hc' l) fun k hk => ?_
    rw [← hold k hk]
    exact hc' k
  · by_cases hkl : k = l
    · subst hkl
      rw [hself]
      exact hunr hk
    · rw [hold k hkl]
      exact h.unready k hk

/-! ### What the operations write -/

/-- What `net_socket_pending_push` writes -/
def pushed (pending : ℕ → Pending) (l c generation : ℕ) : ℕ → Pending :=
  let pending := update pending c { pending c with next := none, parent := some l, parentGeneration := generation }
  let pending :=
    match (pending l).tail with
    | some y => update pending y { pending y with next := some c }
    | none => update pending l { pending l with head := some c }
  update pending l { pending l with tail := some c, count := (pending l).count + 1 }

/-- What `net_socket_pending_remove` writes, behind its walk -/
def removed (pending : ℕ → Pending) (l c : ℕ) (previous : Option ℕ) : ℕ → Pending :=
  let next := (pending c).next
  let pending :=
    match previous with
    | none => update pending l { pending l with head := next }
    | some y => update pending y { pending y with next }
  let p := pending l
  let pending := update pending l { p with tail := if p.tail = some c then previous else p.tail, count := p.count - 1 }
  update pending c { pending c with next := none, parent := none, parentGeneration := 0 }

lemma pushed_apply (hc : c ≠ l) (hy : (pending l).tail ≠ some l) (k : ℕ) : pushed pending l c g k =
    { pending k with
      head := if k = l ∧ (pending l).tail = none then some c else (pending k).head
      tail := if k = l then some c else (pending k).tail
      count := if k = l then (pending k).count + 1 else (pending k).count
      next := if (pending l).tail = some k then some c else if k = c then none else (pending k).next
      parent := if k = c then some l else (pending k).parent
      parentGeneration := if k = c then g else (pending k).parentGeneration } := by
  unfold pushed
  simp only [update_of_ne hc.symm]
  cases htail : (pending l).tail with
  | none =>
    by_cases hkl : k = l
    · subst hkl
      simp [hc.symm]
    · by_cases hkc : k = c
      · subst hkc
        simp [hkl]
      · simp [hkl, hkc]
  | some y =>
    have hyl : l ≠ y := fun heq => hy (by rw [htail, heq])
    by_cases hkl : k = l
    · subst hkl
      simp [hc.symm, hyl, hyl.symm]
    · by_cases hky : k = y
      · subst hky
        by_cases hkc : k = c
        · subst hkc
          simp [hkl]
        · simp [hkl, hkc]
      · by_cases hkc : k = c
        · subst hkc
          simp [hkl, hky, Ne.symm hky]
        · simp [hkl, hkc, hky, Ne.symm hky]

/-- **A socket is put behind the others that wait.** -/
theorem Waiting.push (h : Waiting state generation pending lists) (hl : state l ≠ .free) (hlset : ¬(state l).Settled)
    (hlread : ¬(state l).Unready) (hc : (state c).Settled) (hmem : ∀ k, c ∉ lists k) (hnil : lists c = [])
    (hroom : (pending l).count < (pending l).backlog) :
    Waiting state generation (pushed pending l c (generation l)) (update lists l (lists l ++ [c])) := by
  have hcl : c ≠ l := fun heq => hlset (heq ▸ hc)
  have hqu := h.isQueue l hl
  have htail : (pending l).tail ≠ some l := fun heq => h.notMem hlset l (mem_of_getLast? (hqu.tail.symm.trans heq))
  have happ := fun k => pushed_apply (g := generation l) hcl htail k
  have hlast : ∀ k, ∀ d ∈ lists k, k ≠ l → (pending l).tail ≠ some d := fun k d hd hk heq =>
    hk (h.unique hd (mem_of_getLast? (hqu.tail.symm.trans heq)))
  refine h.relist hl ⟨?_, ?_⟩ (fun k hk => ⟨?_, ?_, ?_, fun d hd => ?_⟩) (fun k => ?_) ?_ ?_ (fun k d hd hk => ?_)
    (fun d hd => ?_) (fun d hd => ?_) (fun k d hd hk => fun heq => h.notMem hlset k (heq ▸ hd)) (fun d hd hdm hdk => ?_)
    fun hrdy => absurd hrdy hlread
  · have hnext : nextPending (pushed pending l c (generation l)) = fun k =>
        if (pending l).tail = some k then some c else if k = c then none else nextPending pending k := by
      funext k
      rw [nextPending, happ]
    rw [hnext, happ]
    cases ht : (pending l).tail with
    | none =>
      rw [ht] at hqu
      have hemp := (hqu.append_nil c).1
      simp [hemp]
    | some y =>
      rw [ht] at hqu
      have happn := (hqu.append_some (hmem l)).chain
      simp only [reduceCtorEq, and_false, if_false]
      refine happn.congr fun d _ => ?_
      simp only [update_apply, Option.some.injEq, eq_comm (a := d) (b := y)]
  · rw [happ]
    simp
  · rw [happ]
    simp [hk]
  · rw [happ]
    simp [hk]
  · rw [happ]
    simp [hk]
  · have hdc : d ≠ c := fun heq => hmem k (heq ▸ hd)
    rw [nextPending, happ]
    simp [hdc, hlast k d hd hk]
  · rw [happ]
  · rw [happ]
    simp [h.count l hl]
  · have hcnt := h.count l hl
    rw [length_append, List.length_singleton]
    omega
  · have hdc : d ≠ c := fun heq => hmem k (heq ▸ hd)
    rw [happ]
    simp only [if_neg hdc]
    exact h.child k d hd
  · rw [happ]
    rcases mem_append.mp hd with hd | hd
    · have hdc : d ≠ c := fun heq => hmem l (heq ▸ hd)
      simp only [if_neg hdc]
      exact h.child l d hd
    · rw [mem_singleton.mp hd]
      simp
  · rcases mem_append.mp hd with hd | hd
    · exact ⟨h.ne hd, h.settled l d hd⟩
    · rw [mem_singleton.mp hd]
      exact ⟨hcl, hc, hnil⟩
  · rw [happ]
    have hdc : d ≠ c := fun heq => hdm (by simp [heq])
    simp only [if_neg hdc]
    refine h.orphan d hd fun k hk => ?_
    by_cases hkl : k = l
    · subst hkl
      exact hdm (mem_append_left _ hk)
    · exact hdk k hkl hk

lemma removed_apply (pending : ℕ → Pending) (previous : Option ℕ) (hc : c ≠ l) (hy : previous ≠ some l)
    (hyc : previous ≠ some c) (k : ℕ) :
    removed pending l c previous k =
    { pending k with
      head := if k = l ∧ previous = none then (pending c).next else (pending k).head
      tail := if k = l then (if (pending l).tail = some c then previous else (pending l).tail) else (pending k).tail
      count := if k = l then (pending k).count - 1 else (pending k).count
      next := if k = c then none else if previous = some k then (pending c).next else (pending k).next
      parent := if k = c then none else (pending k).parent
      parentGeneration := if k = c then 0 else (pending k).parentGeneration } := by
  unfold removed
  cases previous with
  | none =>
    by_cases hkl : k = l
    · subst hkl
      simp [hc.symm]
    · by_cases hkc : k = c
      · subst hkc
        simp [hkl]
      · simp [hkl, hkc]
  | some y =>
    have hyl : l ≠ y := fun heq => hy (by rw [heq])
    have hyc : c ≠ y := fun heq => hyc (by rw [heq])
    by_cases hkl : k = l
    · subst hkl
      simp [hc.symm, hyl, hyl.symm]
    · by_cases hkc : k = c
      · subst hkc
        simp [hkl, hyc]
      · by_cases hky : k = y
        · subst hky
          simp [hkl, hkc]
        · simp [hkl, hkc, hky, Ne.symm hky]

/-- **A socket leaves the list in which it waits.** -/
theorem Waiting.remove (h : Waiting state generation pending lists) (hl : state l ≠ .free) {a b : List ℕ}
    (hlist : lists l = a ++ c :: b) :
    Waiting state generation (removed pending l c a.getLast?) (update lists l (a ++ b)) := by
  have hc : c ∈ lists l := by simp [hlist]
  have hcl : c ≠ l := h.ne hc
  have hqu := h.isQueue l hl
  rw [hlist] at hqu
  have hnd := hqu.chain.nodup
  have hca : c ∉ a := fun hmem => (List.nodup_append.mp hnd).2.2 _ hmem _ List.mem_cons_self rfl
  have hcb : c ∉ b := (nodup_cons.mp (List.nodup_append.mp hnd).2.1).1
  have hmemab : ∀ d, d ∈ a ++ b → d ∈ lists l ∧ d ≠ c := by
    intro d hd
    rw [hlist]
    rcases mem_append.mp hd with hd | hd
    · exact ⟨mem_append_left _ hd, fun heq => hca (heq ▸ hd)⟩
    · exact ⟨List.mem_append_right _ (List.mem_cons_of_mem _ hd), fun heq => hcb (heq ▸ hd)⟩
  have hprev : ∀ d, a.getLast? = some d → d ∈ lists l ∧ d ≠ c := fun d hd =>
    hmemab d (mem_append_left _ (mem_of_getLast? hd))
  have happ := fun k => removed_apply pending a.getLast? hcl
    (fun heq => h.ne (hprev l heq).1 rfl) (fun heq => (hprev c heq).2 rfl) k
  refine h.relist hl ⟨?_, ?_⟩ (fun k hk => ⟨?_, ?_, ?_, fun d hd => ?_⟩) (fun k => ?_) ?_ ?_ (fun k d hd hk => ?_)
    (fun d hd => ?_) (fun d hd => ?_) (fun k d hd hk => fun heq => ?_) (fun d hd hdm hdk => ?_) fun hrdy => ?_
  · -- the links that are read are those with the predecessor's one written
    have hnext : ∀ d ∈ a ++ b, nextPending (removed pending l c a.getLast?) d =
        if a.getLast? = some d then nextPending pending c else nextPending pending d := by
      intro d hd
      rw [nextPending, happ]
      simp only [if_neg (hmemab d hd).2]
    rw [happ]
    cases hlast : a.getLast? with
    | none =>
      obtain rfl := List.getLast?_eq_none_iff.mp hlast
      simp only [true_and, if_true, List.nil_append]
      refine hqu.chain.2.congr fun d hd => ?_
      rw [hlast] at hnext
      exact (hnext d hd).trans (if_neg nofun)
    | some y =>
      obtain ⟨a', rfl⟩ := List.getLast?_eq_some_iff.mp hlast
      have hch := hqu.chain
      rw [List.append_assoc, List.singleton_append] at hch
      have hrem := hch.remove
      rw [hlast] at hnext
      simp only [reduceCtorEq, and_false, if_false]
      rw [List.append_assoc, List.singleton_append]
      refine hrem.congr fun d hd => ?_
      rw [hnext d (by simpa using hd)]
      simp only [update_apply, Option.some.injEq, eq_comm (a := d) (b := y)]
  · rw [happ]
    simp only [if_true]
    have htail := hqu.tail
    cases b with
    | nil =>
      rw [htail]
      simp
    | cons d b =>
      have hne : (pending l).tail ≠ some c := by
        rw [htail]
        intro heq
        have hmem : c ∈ d :: b := by
          rw [List.getLast?_append_of_ne_nil _ (by simp), List.getLast?_cons_cons] at heq
          exact mem_of_getLast? heq
        exact hcb hmem
      rw [if_neg hne, htail]
      simp [List.getLast?_append, List.getLast?_cons]
  · rw [happ]
    simp [hk]
  · rw [happ]
    simp [hk]
  · rw [happ]
    simp [hk]
  · have hdc : d ≠ c := fun heq => hk (h.unique (heq ▸ hd) hc)
    have hdp : a.getLast? ≠ some d := fun heq => hk (h.unique hd (hprev d heq).1)
    rw [nextPending, happ]
    simp only [if_neg hdc, if_neg hdp]
  · rw [happ]
  · have hcnt := h.count l hl
    rw [hlist] at hcnt
    rw [happ]
    simp only [if_true, hcnt, length_append, List.length_cons]
    omega
  · have hbac := h.backlog l
    rw [hlist] at hbac
    simp only [length_append, List.length_cons] at hbac ⊢
    omega
  · have hdc : d ≠ c := fun heq => hk (h.unique (heq ▸ hd) hc)
    rw [happ]
    simp only [if_neg hdc]
    exact h.child k d hd
  · obtain ⟨hd, hdc⟩ := hmemab d hd
    rw [happ]
    simp only [if_neg hdc]
    exact h.child l d hd
  · obtain ⟨hd, -⟩ := hmemab d hd
    exact ⟨h.ne hd, h.settled l d hd⟩
  · subst heq
    rw [(h.settled k d hd).2] at hc
    cases hc
  · rw [happ]
    by_cases hdc : d = c
    · simp [hdc]
    · simp only [if_neg hdc]
      refine h.orphan d hd fun k hk => ?_
      by_cases hkl : k = l
      · subst hkl
        rw [hlist, mem_append, mem_cons] at hk
        exact hdm (mem_append.mpr (hk.imp id fun hk => hk.resolve_left hdc))
      · exact hdk k hkl hk
  · rw [h.unready l hrdy] at hc
    cases hc

theorem Waiting.setBacklog (h : Waiting state generation pending lists) (hnil : lists i = []) (n : ℕ) :
    Waiting state generation (update pending i { pending i with backlog := n }) lists := by
  have hnext : nextPending (update pending i { pending i with backlog := n }) = nextPending pending := by
    rw [nextPending_update]
    exact update_eq_self i (nextPending pending)
  have hsame : ∀ k, (update pending i { pending i with backlog := n } k).head = (pending k).head ∧
      (update pending i { pending i with backlog := n } k).tail = (pending k).tail ∧
      (update pending i { pending i with backlog := n } k).count = (pending k).count ∧
      (update pending i { pending i with backlog := n } k).parent = (pending k).parent ∧
      (update pending i { pending i with backlog := n } k).parentGeneration = (pending k).parentGeneration := by
    intro k
    by_cases hk : k = i
    · subst hk
      simp only [update_self, and_self]
    · simp only [update_of_ne hk, and_self]
  refine ⟨fun k hk => ?_, h.nil, fun k hk => (hsame k).2.2.1.trans (h.count k hk), fun k => ?_, fun k c hc => ?_, h.settled,
    fun c hc hmem => (hsame c).2.2.2.1.trans (h.orphan c hc hmem), h.unready⟩
  · rw [hnext, (hsame k).1, (hsame k).2.1]
    exact h.isQueue k hk
  · by_cases hk : k = i
    · subst hk
      rw [hnil]
      exact Nat.zero_le _
    · rw [update_of_ne hk]
      exact h.backlog k
  · rw [(hsame c).2.2.2.1, (hsame c).2.2.2.2]
    exact h.child k c hc

end Waiting

/-! ## The invariant of the socket table -/

open Function (update_idem)

/-! ### The parts -/

/-- **Peers point at each other**, or one points nowhere and knows that its peer is closed. -/
structure Peers (state : ℕ → State) (generation : ℕ → ℕ) (peer : ℕ → Peer) : Prop where
  mutual_ : ∀ i j, state i ≠ .free → (peer i).slot = some j →
    j ≠ i ∧ state j ≠ .free ∧ (peer i).generation = generation j ∧ (peer j).slot = some i
  alone : ∀ i, state i = .localConnected → (peer i).slot = none → (peer i).closed
  unready : ∀ i, (state i).Unready → (peer i).slot = none

/-- **A free slot is cleared.** -/
structure Cleared (state : ℕ → State) (queue : ℕ → Queue) (pending : ℕ → Pending) (waiter : ℕ → Role → Waiter)
    (watches : List (ℕ × ℕ)) : Prop where
  queue : ∀ i, state i = .free → queue i = .zero
  pending : ∀ i, state i = .free → pending i = .zero ∨ pending i = .init
  waiter : ∀ i r, state i = .free → waiter i r = .zero ∨ waiter i r = .init
  watches : ∀ w ∈ watches, state w.2 ≠ .free

/-- The generation of a slot that has been reserved so often -/
def lifeGeneration (n : ℕ) : ℕ := if n = 0 then 0 else (n - 1) % generationMax + 1

/-- **What the handles that calls have returned stand for.** -/
structure Handles (state : ℕ → State) (owner generation lives : ℕ → ℕ) (issued : List Issued) : Prop where
  generation : ∀ i, generation i = lifeGeneration (lives i)
  used : ∀ i, state i ≠ .free → 0 < lives i
  issued : ∀ x ∈ issued, x.slot < capacity ∧ 0 < x.life ∧ x.life ≤ lives x.slot ∧
    x.handle = 2 ^ 30 + lifeGeneration x.life * 64 + (x.slot + 1) ∧
    (x.life = lives x.slot → state x.slot ≠ .free → owner x.slot = x.owner)

/-- The listener of a half-open block still listens, and has the argument that the block has got from it. -/
def Heirs (blocks : ℕ → Option Block) : Prop :=
  ∀ b block l, blocks b = some block → block.listener = some l →
    ∃ parent, blocks l = some parent ∧ parent.kind = .listen ∧ (block.arg = none ∨ block.arg = parent.arg)

/-- **A block whose callbacks hold a socket is the block of that socket.** -/
structure Callbacks (state : ℕ → State) (kind : ℕ → Kind) (lives : ℕ → ℕ) (pcb : ℕ → Option ℕ)
    (blocks : ℕ → Option Block) : Prop where
  arg : ∀ b block i life, blocks b = some block → block.held = some (i, life) → state i ≠ .free ∧ lives i = life ∧
  pcb i = some b
  heirs : Heirs blocks
  kind : ∀ i, pcb i ≠ none → (kind i).protocol ≠ .unspecified

structure Inv (t : Table) : Prop where
  bound : ∀ i, t.state i ≠ .free → i < capacity
  pool : ∃ free lists, Pool t.packets t.packetFree t.queue free lists
  waiting : ∃ lists, Waiting t.state t.generation t.pending lists
  peers : Peers t.state t.generation t.peer
  cleared : Cleared t.state t.queue t.pending t.waiter t.watches
  handles : Handles t.state t.owner t.generation t.lives t.issued
  callbacks : Callbacks t.state t.kind t.lives t.pcb t.blocks

variable {t t' : Table} {i j l c b n : ℕ} {r : Role} {x : State}

/-! ### Waiters and watches -/

/-- `t'` is `t` after some wake-ups. -/
def Roused (t t' : Table) : Prop :=
  ∃ waiter watches, t' = { t with waiter, watches } ∧ (∀ j r, waiter j r = t.waiter j r ∨ waiter j r = .init) ∧
    ∀ w ∈ watches, w ∈ t.watches

lemma Roused.refl (t : Table) : Roused t t := ⟨t.waiter, t.watches, rfl, fun _ _ => .inl rfl, fun _ h => h⟩

lemma Roused.trans {t₁ t₂ t₃ : Table} (h : Roused t₁ t₂) (h' : Roused t₂ t₃) : Roused t₁ t₃ := by
  obtain ⟨waiter, watches, rfl, hwtr, hwat⟩ := h
  obtain ⟨waiter', watches', rfl, hwtr', hwat'⟩ := h'
  refine ⟨waiter', watches', rfl, fun j r => ?_, fun w hw => hwat w (hwat' w hw)⟩
  rcases hwtr' j r with heq | heq
  · rw [heq]
    exact hwtr j r
  · exact .inr heq

lemma roused_setWaiter (t : Table) (i : ℕ) (r : Role) : Roused t (t.setWaiter i r .init) := by
  refine ⟨_, t.watches, rfl, fun j q => ?_, fun _ h => h⟩
  by_cases hj : j = i
  · subst hj
    by_cases hq : q = r
    · subst hq
      simp
    · simp [hq]
  · simp [hj]

lemma roused_pollWake (t : Table) (i : ℕ) : Roused t (t.pollWake i) :=
  ⟨t.waiter, _, rfl, fun _ _ => .inl rfl, fun _ hw => (List.mem_filter.mp hw).1⟩

lemma roused_wake (t : Table) (i : ℕ) (r : Role) : Roused t (t.wake i r) := by
  unfold Table.wake
  dsimp only
  split
  · exact roused_pollWake t i
  · exact (roused_pollWake t i).trans (roused_setWaiter _ i r)

lemma roused_wakeAll (t : Table) (i : ℕ) : Roused t (t.wakeAll i) :=
  (((roused_wake t i .reader).trans (roused_wake _ i .writer)).trans (roused_wake _ i .connector)).trans
  (roused_wake _ i .acceptor)

lemma roused_cancel (t : Table) (i : ℕ) (r : Role) (tid generation : ℕ) : Roused t (t.cancel i r tid generation) := by
  unfold Table.cancel
  split
  · exact roused_setWaiter t i r
  · exact .refl t

theorem Inv.roused (h : Inv t) (ht : Roused t t') : Inv t' := by
  obtain ⟨waiter, watches, rfl, hwtr, hwat⟩ := ht
  refine { h with cleared := ⟨h.cleared.queue, h.cleared.pending, fun i r hi => ?_, fun w hw => ?_⟩ }
  · rcases hwtr i r with heq | heq
    · show waiter i r = .zero ∨ waiter i r = .init
      rw [heq]
      exact h.cleared.waiter i r hi
    · exact .inr heq
  · exact h.cleared.watches w (hwat w hw)

lemma Inv.wake (h : Inv t) (i : ℕ) (r : Role) : Inv (t.wake i r) := h.roused (roused_wake t i r)

lemma wakeAll_watches (t : Table) (i : ℕ) : ∀ w ∈ (t.wakeAll i).watches, w.2 ≠ i := by
  obtain ⟨_, watches, heq, -, hwat⟩ := (((roused_wake (t.wake i .reader) i .writer).trans (roused_wake _ i .connector)).trans
    (roused_wake _ i .acceptor) : Roused (t.wake i .reader) (t.wakeAll i))
  have hrdr : (t.wake i .reader).watches = (t.pollWake i).watches := by
    unfold Table.wake
    dsimp only
    split <;> rfl
  intro w hw hwi
  rw [heq] at hw
  have hmem := hwat w hw
  rw [hrdr] at hmem
  obtain ⟨hmem, hno⟩ := List.mem_filter.mp hmem
  exact (of_decide_eq_true hno) w hmem hwi rfl

/-- **A task begins to wait for a socket.** -/
theorem Inv.wait (h : Inv t) (hi : t.state i ≠ .free) (r : Role) (c : Table.Caller) : Inv (t.wait i r c).1 := by
  have hset : Inv (t.setWaiter i r ⟨some c.tid, c.generation, c.deadline⟩) := by
    refine { h with cleared := ⟨h.cleared.queue, h.cleared.pending, fun k q hk => ?_, h.cleared.watches⟩ }
    have hki : k ≠ i := fun heq => hi (heq ▸ hk)
    have hsame : (t.setWaiter i r ⟨some c.tid, c.generation, c.deadline⟩).waiter k q = t.waiter k q := by
      simp [Table.setWaiter, hki]
    rw [hsame]
    exact h.cleared.waiter k q hk
  unfold Table.wait
  dsimp only
  split
  · exact h
  split
  · exact h
  split
  · exact h
  · exact hset

lemma Inv.setSettings (h : Inv t) (i : ℕ) (x : Settings) : Inv (t.setSettings i x) :=
  { h with }

/-! ### States -/

@[simp] lemma setState_self (t : Table) (i : ℕ) (x : State) : (t.setState i x).state i = x := update_self ..

lemma update_free (hi : t.state i ≠ .free) (hx : x ≠ .free) (k : ℕ) :
    update t.state i x k = .free ↔ t.state k = .free := by
  by_cases hk : k = i
  · subst hk
    simp [hx, hi]
  · rw [update_of_ne hk]

lemma Inv.of_free (h : Inv t) (state : ℕ → State) (peer : ℕ → Peer) (hfree : ∀ k, state k = .free ↔ t.state k = .free)
    (hwait : ∃ lists, Waiting state t.generation t.pending lists) (hpeer : Peers state t.generation peer) :
    Inv { t with state, peer } := by
  have hlive : ∀ k, state k ≠ .free → t.state k ≠ .free := fun k hk heq => hk ((hfree k).mpr heq)
  have hlive' : ∀ k, t.state k ≠ .free → state k ≠ .free := fun k hk heq => hk ((hfree k).mp heq)
  refine ⟨fun k hk => h.bound k (hlive k hk), h.pool, hwait, hpeer,
    ⟨fun k hk => h.cleared.queue k ((hfree k).mp hk), fun k hk => h.cleared.pending k ((hfree k).mp hk),
      fun k r hk => h.cleared.waiter k r ((hfree k).mp hk), fun w hw => hlive' _ (h.cleared.watches w hw)⟩,
    ⟨h.handles.generation, fun k hk => h.handles.used k (hlive k hk), fun x hx => ?_⟩,
    ⟨fun b block k life hb harg => ?_, h.callbacks.heirs, h.callbacks.kind⟩⟩
  · obtain ⟨hslot, hpos, hle, hhd, hown⟩ := h.handles.issued x hx
    exact ⟨hslot, hpos, hle, hhd, fun hlife hlive'' => hown hlife (hlive _ hlive'')⟩
  · obtain ⟨hk, hrest⟩ := h.callbacks.arg b block k life hb harg
    exact ⟨hlive' k hk, hrest⟩

/-- **A socket changes its state** to one in which it has been used. -/
theorem Inv.setState (h : Inv t) (hi : t.state i ≠ .free) (hx : x ≠ .free) (hrdy : ¬x.Unready)
    (hsett : x.Settled ∨ ¬(t.state i).Settled) (hloc : x = .localConnected → (t.peer i).slot = none → (t.peer i).closed) :
    Inv (t.setState i x) := by
  obtain ⟨lists, hwait⟩ := h.waiting
  refine h.of_free _ t.peer (update_free hi hx) ⟨lists, hwait.setState hi hx (fun hun => absurd hun hrdy) hsett⟩
    ⟨fun k j hk hj => ?_, fun k hk hnone => ?_, fun k hk => ?_⟩
  · obtain ⟨hjk, hlive, hrest⟩ := h.peers.mutual_ k j (fun heq => hk ((update_free hi hx k).mpr heq)) hj
    exact ⟨hjk, fun heq => hlive ((update_free hi hx j).mp heq), hrest⟩
  · by_cases hki : k = i
    · subst hki
      rw [update_self] at hk
      exact hloc hk hnone
    · rw [update_of_ne hki] at hk
      exact h.peers.alone k hk hnone
  · by_cases hki : k = i
    · subst hki
      rw [update_self] at hk
      exact absurd hk hrdy
    · rw [update_of_ne hki] at hk
      exact h.peers.unready k hk

lemma Inv.fail (h : Inv t) (hi : t.state i ≠ .free) : Inv (t.setState i .tcpFailed) :=
  h.setState hi nofun (by simp [State.Unready]) (.inl (.inr (.inr rfl))) nofun

theorem Inv.close (h : Inv t) (i : ℕ) : Inv (t.setPeer i { t.peer i with closed := true }) := by
  have hslot : ∀ k, ((t.setPeer i { t.peer i with closed := true }).peer k).slot = (t.peer k).slot ∧
      ((t.setPeer i { t.peer i with closed := true }).peer k).generation = (t.peer k).generation := by
    intro k
    by_cases hk : k = i
    · subst hk
      simp [Table.setPeer]
    · simp [Table.setPeer, hk]
  refine { h with peers := ⟨fun k j hk hj => ?_, fun k hk hnone => ?_, fun k hk => ?_⟩ }
  · rw [(hslot k).1] at hj
    rw [(hslot k).2, (hslot j).1]
    exact h.peers.mutual_ k j hk hj
  · rw [(hslot k).1] at hnone
    by_cases hki : k = i
    · subst hki
      simp [Table.setPeer]
    · simp only [Table.setPeer, update_of_ne hki]
      exact h.peers.alone k hk hnone
  · rw [(hslot k).1]
    exact h.peers.unready k hk

/-! ### Packets -/

lemma enqueue_eq {p : ℕ} (hfree : t.packetFree = some p) (hroom : t.HasRoom i n) :
    t.enqueue i n = some (Table.wake
      { t with
        packets := appended t.packets (t.queue i).tail p n
        packetFree := (t.packets p).next
        queue := update t.queue i
          ⟨if (t.queue i).tail = none then some p else (t.queue i).head, some p, (t.queue i).bytes + n⟩ } i .reader) := by
  unfold Table.enqueue Table.packetAlloc
  rw [if_pos hroom, hfree]
  simp only [Table.packetAppend, Table.setPacket, Table.setQueue, update_idem, update_self]
  cases htail : (t.queue i).tail with
  | none => simp [appended]
  | some y =>
    by_cases hy : p = y
    · subst hy
      simp [appended]
    · simp [appended, hy]

lemma enqueue_eq_none (hfree : t.packetFree = none ∨ ¬t.HasRoom i n) : t.enqueue i n = none := by
  unfold Table.enqueue Table.packetAlloc
  rcases hfree with hfree | hroom
  · rw [hfree]
    exact ite_self _
  · exact if_neg hroom

/-- **A packet is put into the queue of a socket.** -/
theorem Inv.enqueue (h : Inv t) (hi : t.state i ≠ .free) (n : ℕ) : Inv ((t.enqueue i n).getD t) := by
  by_cases hroom : t.HasRoom i n
  · cases hfree : t.packetFree with
    | none =>
      rw [enqueue_eq_none (.inl hfree)]
      exact h
    | some p =>
      rw [enqueue_eq hfree hroom]
      obtain ⟨free, lists, hpool⟩ := h.pool
      rw [hfree] at hpool
      obtain ⟨free, rfl, -⟩ := hpool.chain.exists_cons
      show Inv (Table.wake _ i .reader)
      apply Inv.wake
      refine { h with pool := ⟨free, _, hpool.push i n⟩, cleared := ⟨fun k hk => ?_, h.cleared.pending, h.cleared.waiter,
        h.cleared.watches⟩ }
      have hki : k ≠ i := fun heq => hi (heq ▸ hk)
      exact (update_of_ne hki ..).trans (h.cleared.queue k hk)
  · rw [enqueue_eq_none (.inr hroom)]
    exact h

lemma freeFrom_eq (t : Table) (head : Option ℕ) (n : ℕ) :
    ∃ packets packetFree, Table.freeFrom n t head = { t with packets, packetFree } := by
  induction n generalizing t head with
  | zero => exact ⟨_, _, rfl⟩
  | succ n ih =>
    cases head with
    | none => exact ⟨_, _, rfl⟩
    | some p =>
      obtain ⟨packets, packetFree, heq⟩ := ih (t.freePacket p) (t.packets p).next
      exact ⟨packets, packetFree, heq⟩

lemma Pool.zero_of_nil {packets : ℕ → Packet} {packetFree : Option ℕ} {queue : ℕ → Queue} {free : List ℕ} {lists : ℕ → List ℕ}
    (h : Pool packets packetFree queue free lists) (hnil : lists i = []) : queue i = .zero := by
  have hhead := (h.isQueue i).eq_nil_iff.mp hnil
  have htail := (h.isQueue i).tail
  have hbs := h.bytes i
  rw [hnil] at htail hbs
  cases hq : queue i with
  | mk head tail bytes =>
    rw [hq] at hhead htail hbs
    cases hhead
    cases htail
    cases hbs
    rfl

lemma freeFrom_pool {queue : ℕ → Queue} {free : List ℕ} {lists : ℕ → List ℕ} {m : ℕ}
    (hpool : Pool t.packets t.packetFree queue free lists) (hm : (lists i).length ≤ m) :
    ∃ free lists, Pool (Table.freeFrom m t (queue i).head).packets (Table.freeFrom m t (queue i).head).packetFree
      (update queue i .zero) free lists := by
  induction m generalizing t queue free lists with
  | zero =>
    have hzero := hpool.zero_of_nil (List.length_eq_zero_iff.mp (Nat.le_zero.mp hm))
    refine ⟨free, lists, ?_⟩
    rw [← hzero, update_eq_self]
    exact hpool
  | succ m ih =>
    cases hhead : (queue i).head with
    | none =>
      have hzero := hpool.zero_of_nil ((hpool.isQueue i).eq_nil_iff.mpr hhead)
      refine ⟨free, lists, ?_⟩
      rw [← hzero, update_eq_self]
      exact hpool
    | some p =>
      have hch := (hpool.isQueue i).chain
      rw [hhead] at hch
      obtain ⟨l, hl, -⟩ := hch.exists_cons
      have hdrop := hpool.drop hl
      have hlen : (update lists i l i).length ≤ m := by
        rw [update_self]
        rw [hl, List.length_cons] at hm
        omega
      obtain ⟨free, lists, hrest⟩ := ih (t := t.freePacket p) hdrop hlen
      rw [update_self, update_idem] at hrest
      exact ⟨free, lists, hrest⟩

/-- **A queue is emptied.** -/
theorem Inv.clearPackets (h : Inv t) (i : ℕ) : Inv (t.clearPackets i) := by
  obtain ⟨free, lists, hpool⟩ := h.pool
  obtain ⟨packets, packetFree, heq⟩ := freeFrom_eq t (t.queue i).head packetCapacity
  have hpool' := freeFrom_pool hpool (hpool.length_le i)
  rw [heq] at hpool'
  unfold Table.clearPackets
  rw [heq]
  refine { h with pool := hpool', cleared := ⟨fun k hk => ?_, h.cleared.pending, h.cleared.waiter, h.cleared.watches⟩ }
  by_cases hki : k = i
  · subst hki
    exact update_self ..
  · exact (update_of_ne hki ..).trans (h.cleared.queue k hk)

/-! ## Disposing of sockets -/

variable {t t' : Table} {i j l c b n : ℕ} {lists : ℕ → List ℕ} {stays : ℕ → Bool}

/-! ### Lists of sockets -/

lemma Inv.lt_of_mem (h : Inv t) (hw : Waiting t.state t.generation t.pending lists) (hc : c ∈ lists l) : c < capacity :=
  h.bound c (hw.settled l c hc).1.ne_free

lemma Inv.length_le (h : Inv t) (hw : Waiting t.state t.generation t.pending lists) (hl : t.state l ≠ .free) :
    (lists l).length ≤ capacity := by
  have hsub : List.Subperm (lists l) (List.range capacity) :=
    List.Nodup.subperm (hw.isQueue l hl).chain.nodup fun c hc => List.mem_range.mpr (h.lt_of_mem hw hc)
  have hle := hsub.length_le
  rwa [List.length_range] at hle

/-- **The walk of `net_socket_pending_remove` meets the socket**, and what is in front of it. -/
lemma seek_eq (previous : Option ℕ) {head : Option ℕ} {a d : List ℕ} {m : ℕ}
    (hch : IsChain (nextPending t.pending) head (a ++ c :: d))
    (hbd : ∀ x ∈ a ++ c :: d, x < capacity) (hca : c ∉ a) (hm : a.length < m) :
    t.seek c m previous head = some (a.getLast?.or previous) := by
  induction a generalizing head previous m with
  | nil =>
    obtain ⟨m, rfl⟩ := Nat.exists_eq_add_of_lt hm
    have hc : ¬capacity ≤ c := Nat.not_le_of_lt (hbd c (by simp))
    rw [hch.1]
    simp [Table.seek, hc]
  | cons x a ih =>
    obtain ⟨m, rfl⟩ : ∃ k, m = k + 1 := ⟨m - 1, by omega⟩
    have hx : ¬capacity ≤ x := Nat.not_le_of_lt (hbd x (by simp))
    have hxc : x ≠ c := fun heq => hca (by simp [heq])
    have hrest := ih (some x) hch.2 (fun y hy => hbd y (List.mem_cons_of_mem _ hy))
      (fun hmem => hca (List.mem_cons_of_mem _ hmem)) (by simpa using hm)
    rw [hch.1, Table.seek, if_neg hx, if_neg hxc, hrest]
    cases hlast : a.getLast? <;> simp [List.getLast?_cons, hlast]

lemma pendingRemove_eq (h : Inv t) (hw : Waiting t.state t.generation t.pending lists) (hl : t.state l ≠ .free) {a d : List ℕ}
    (hlist : lists l = a ++ c :: d) : t.pendingRemove l c = { t with pending := removed t.pending l c a.getLast? } := by
  have hch := (hw.isQueue l hl).chain
  have hlen := h.length_le hw hl
  rw [hlist] at hch hlen
  have hca : c ∉ a := fun hmem => (List.nodup_append.mp hch.nodup).2.2 _ hmem _ List.mem_cons_self rfl
  have hseek := seek_eq none (m := capacity + 1) hch (fun x hx => h.lt_of_mem hw (l := l) (hlist ▸ hx)) hca
    (by simp only [List.length_append, List.length_cons] at hlen; omega)
  rw [Option.or_none] at hseek
  unfold Table.pendingRemove
  rw [hseek]
  cases a.getLast? <;> rfl

lemma pendingPop_eq (h : Inv t) (hw : Waiting t.state t.generation t.pending lists) (hl : t.state l ≠ .free) {m : List ℕ}
    (hlist : lists l = c :: m) : t.pendingPop l = some (c, { t with pending := removed t.pending l c none }) := by
  have hqu := hw.isQueue l hl
  rw [hlist] at hqu
  have hc : ¬capacity ≤ c := Nat.not_le_of_lt (h.lt_of_mem hw (l := l) (by simp [hlist]))
  -- the last socket of the list is the one without a successor
  have htail : (if (t.pending c).next = none then none else (t.pending l).tail) =
      if (t.pending l).tail = some c then none else (t.pending l).tail := by
    have hnd := hqu.chain.nodup
    have hnext := hqu.chain.2.head
    rw [nextPending] at hnext
    rw [hnext, hqu.tail]
    cases m with
    | nil => simp
    | cons d m =>
      have hne : (c :: d :: m).getLast? ≠ some c := by
        rw [List.getLast?_cons_cons]
        exact fun heq => (List.nodup_cons.mp hnd).1 (List.mem_of_getLast? heq)
      rw [if_neg hne]
      simp
  unfold Table.pendingPop
  rw [hqu.chain.1]
  simp only [if_neg hc, removed, Table.setPending, update_self, update_idem, htail]

lemma pendingPop_eq_none (hw : Waiting t.state t.generation t.pending lists) (hl : t.state l ≠ .free) (hlist : lists l = []) :
    t.pendingPop l = none := by
  have hhead := (hw.isQueue l hl).eq_nil_iff.mp hlist
  unfold Table.pendingPop
  rw [hhead]

lemma Inv.of_pending (h : Inv t) {pending : ℕ → Pending} (hw : ∃ lists, Waiting t.state t.generation pending lists)
    (hfree : ∀ k, t.state k = .free → pending k = t.pending k) : Inv { t with pending } := by
  refine ⟨h.bound, h.pool, hw, h.peers, ⟨h.cleared.queue, fun k hk => ?_, h.cleared.waiter, h.cleared.watches⟩, h.handles,
    h.callbacks⟩
  show pending k = .zero ∨ pending k = .init
  rw [hfree k hk]
  exact h.cleared.pending k hk

lemma removed_other {pending : ℕ → Pending} {previous : Option ℕ} (k : ℕ) (hkl : k ≠ l) (hkc : k ≠ c) (hk : previous ≠ some k) :
    removed pending l c previous k = pending k := by
  unfold removed
  cases previous with
  | none => simp [hkl, hkc]
  | some y =>
    have hky : k ≠ y := fun heq => hk (by rw [heq])
    simp [hkl, hkc, hky]

/-- **A socket leaves the list in which it waits.** -/
theorem Inv.removed (h : Inv t) (hw : Waiting t.state t.generation t.pending lists) (hl : t.state l ≠ .free) {a d : List ℕ}
    (hlist : lists l = a ++ c :: d) : Inv { t with pending := removed t.pending l c a.getLast? } := by
  have hc : c ∈ lists l := by simp [hlist]
  refine h.of_pending ⟨_, hw.remove hl hlist⟩ fun k hk => removed_other k ?_ ?_ ?_
  · exact fun heq => hl (heq ▸ hk)
  · exact fun heq => (hw.settled l c hc).1.ne_free (heq ▸ hk)
  · intro heq
    have hmem : k ∈ lists l := by
      rw [hlist]
      exact List.mem_append_left _ (List.mem_of_getLast? heq)
    exact (hw.settled l k hmem).1.ne_free hk

/-! ### The end of a socket -/

structure Spared (i : ℕ) (t t' : Table) : Prop where
  state : t'.state i = t.state i
  pending : t'.pending i = t.pending i
  watches : ∀ w ∈ t'.watches, w ∈ t.watches

lemma Spared.trans {t₁ t₂ t₃ : Table} (h : Spared i t₁ t₂) (h' : Spared i t₂ t₃) : Spared i t₁ t₃ :=
  ⟨h'.state.trans h.state, h'.pending.trans h.pending, fun w hw => h.watches w (h'.watches w hw)⟩

lemma Roused.spared (h : Roused t t') (i : ℕ) : Spared i t t' := by
  obtain ⟨_, _, rfl, -, hwat⟩ := h
  exact ⟨rfl, rfl, hwat⟩

/-- A socket that nothing of the other sockets leads to any more -/
structure Cut (t : Table) (i : ℕ) : Prop where
  live : t.state i ≠ .free
  parent : (t.pending i).parent = none
  watches : ∀ w ∈ t.watches, w.2 ≠ i

lemma Cut.spared (h : Cut t i) (ht : Spared i t t') : Cut t' i :=
  ⟨ht.state ▸ h.live, ht.pending ▸ h.parent, fun w hw => h.watches w (ht.watches w hw)⟩

lemma Waiting.notMem_of_parent (hw : Waiting t.state t.generation t.pending lists) (h : (t.pending i).parent = none) (l : ℕ) :
    i ∉ lists l := by
  intro hmem
  rw [(hw.child l i hmem).1] at h
  cases h

lemma live_of_freed {k : ℕ} (hk : update t.state i .free k ≠ .free) : k ≠ i ∧ t.state k ≠ .free := by
  by_cases hki : k = i
  · rw [hki, update_self] at hk
    exact absurd rfl hk
  · rw [update_of_ne hki] at hk
    exact ⟨hki, hk⟩

lemma unpeer_eq (h : Inv t) (hi : t.state i ≠ .free) :
    ∃ peer waiter watches, t.unpeer i = { t with peer, waiter, watches } ∧
      Peers (update t.state i .free) t.generation (update peer i .zero) ∧
      (∀ j r, waiter j r = t.waiter j r ∨ waiter j r = .init) ∧ ∀ w ∈ watches, w ∈ t.watches := by
  have hlive := fun k => @live_of_freed t i k
  have hst : ∀ k, k ≠ i → update t.state i .free k = t.state k := fun k hk => update_of_ne hk ..
  cases hslot : (t.peer i).slot with
  | none =>
    have hnone : t.unpeer i = t := by
      unfold Table.unpeer Table.localPeer
      rw [hslot]
      rfl
    refine ⟨t.peer, t.waiter, t.watches, hnone, ⟨fun k j hk hj => ?_, fun k hk hnone => ?_, fun k hk => ?_⟩,
      fun _ _ => .inl rfl,
      fun _ hw => hw⟩
    · obtain ⟨hki, hk⟩ := hlive k hk
      rw [update_of_ne hki] at hj
      obtain ⟨hjk, hlj, hgen, hback⟩ := h.peers.mutual_ k j hk hj
      have hji : j ≠ i := by
        rintro rfl
        rw [hslot] at hback
        cases hback
      rw [hst j hji, update_of_ne hki, update_of_ne hji]
      exact ⟨hjk, hlj, hgen, hback⟩
    · have hki : k ≠ i := by
        rintro rfl
        rw [update_self] at hk
        cases hk
      rw [hst k hki] at hk
      rw [update_of_ne hki] at hnone ⊢
      exact h.peers.alone k hk hnone
    · have hki : k ≠ i := by
        rintro rfl
        rw [update_self] at hk
        simp [State.Unready] at hk
      rw [hst k hki] at hk
      rw [update_of_ne hki]
      exact h.peers.unready k hk
  | some j =>
    obtain ⟨hji, hlj, hgen, hback⟩ := h.peers.mutual_ i j hi hslot
    have hpeer : t.localPeer i = some j := by
      unfold Table.localPeer Table.fromSlot
      rw [hslot]
      have hnot : ¬(capacity ≤ j ∨ t.state j = .free ∨ t.generation j ≠ (t.peer i).generation) := by
        have hbd := h.bound j hlj
        rintro (hle | hfree | hne)
        · omega
        · exact hlj hfree
        · exact hne hgen.symm
      exact if_neg hnot
    obtain ⟨waiter, watches, heq, hwtr, hwat⟩ :=
      ((roused_wake (t.setPeer j ⟨none, 0, true⟩) j .reader).trans (roused_wake _ j .writer)).trans (roused_wake _ j .connector)
    refine ⟨update t.peer j ⟨none, 0, true⟩, waiter, watches, ?_, ⟨fun k m hk hm => ?_, fun k hk hnone => ?_, fun k hk => ?_⟩,
      hwtr, hwat⟩
    · unfold Table.unpeer
      rw [hpeer]
      exact heq
    · obtain ⟨hki, hk⟩ := hlive k hk
      rw [update_of_ne hki] at hm
      have hkj : k ≠ j := by
        rintro rfl
        rw [update_self] at hm
        cases hm
      rw [update_of_ne hkj] at hm
      obtain ⟨hmk, hlm, hgenm, hbac⟩ := h.peers.mutual_ k m hk hm
      have hmi : m ≠ i := by
        rintro rfl
        rw [hslot] at hbac
        exact hkj (Option.some.inj hbac).symm
      have hmj : m ≠ j := by
        rintro rfl
        rw [hback] at hbac
        exact hki (Option.some.inj hbac).symm
      rw [hst m hmi, update_of_ne hki, update_of_ne hkj, update_of_ne hmi, update_of_ne hmj]
      exact ⟨hmk, hlm, hgenm, hbac⟩
    · have hki : k ≠ i := by
        rintro rfl
        rw [update_self] at hk
        cases hk
      rw [hst k hki] at hk
      rw [update_of_ne hki] at hnone ⊢
      by_cases hkj : k = j
      · subst hkj
        rw [update_self]
      · rw [update_of_ne hkj] at hnone ⊢
        exact h.peers.alone k hk hnone
    · have hki : k ≠ i := by
        rintro rfl
        rw [update_self] at hk
        simp [State.Unready] at hk
      rw [hst k hki] at hk
      rw [update_of_ne hki]
      by_cases hkj : k = j
      · subst hkj
        rw [update_self]
      · rw [update_of_ne hkj]
        exact h.peers.unready k hk

lemma held_congr {block block' : Block} (hkind : block.kind = block'.kind) (harg : block.arg = block'.arg) :
    block.held = block'.held := by
  unfold Block.held
  rw [hkind, harg]

lemma held_of_arg (block : Block) : Block.held { block with arg := none } = none := by
  unfold Block.held
  exact ite_self none

/-- **A block is changed**, but neither its kind nor its listener; its argument may be cleared if it does not listen. -/
lemma Heirs.map {blocks : ℕ → Option Block} (h : Heirs blocks) {b : ℕ} {f : Block → Block}
    (hkind : ∀ block, (f block).kind = block.kind)
    (hlis : ∀ block, (f block).listener = block.listener)
    (harg : ∀ block, blocks b = some block → (f block).arg = block.arg ∨ (f block).arg = none ∧ block.kind ≠ .listen) :
    Heirs (update blocks b ((blocks b).map f)) := by
  have hparent : ∀ l parent, blocks l = some parent → parent.kind = .listen →
      ∃ parent', update blocks b ((blocks b).map f) l = some parent' ∧ parent'.kind = .listen ∧ parent'.arg = parent.arg := by
    intro l parent hp hpk
    by_cases hl : l = b
    · subst hl
      refine ⟨f parent, ?_, (hkind parent).trans hpk, ?_⟩
      · rw [update_self, hp]
        rfl
      · exact (harg parent hp).resolve_right fun hnone => hnone.2 hpk
    · exact ⟨parent, (update_of_ne hl ..).trans hp, hpk, rfl⟩
  intro k block l hk hl
  rcases Lib.update_cases hk with ⟨rfl, hk⟩ | ⟨-, hk⟩
  · obtain ⟨old, hold, rfl⟩ := Option.map_eq_some_iff.mp hk
    obtain ⟨parent, hp, hpk, hpa⟩ := h _ old l hold ((hlis old).symm.trans hl)
    obtain ⟨parent', hp', hpk', hpa'⟩ := hparent l parent hp hpk
    refine ⟨parent', hp', hpk', ?_⟩
    rw [hpa']
    rcases harg old hold with hsame | ⟨hnone, -⟩
    · rw [hsame]
      exact hpa
    · exact .inl hnone
  · obtain ⟨parent, hp, hpk, hpa⟩ := h k block l hk hl
    obtain ⟨parent', hp', hpk', hpa'⟩ := hparent l parent hp hpk
    exact ⟨parent', hp', hpk', hpa'.symm ▸ hpa⟩

lemma freeBlock_some {block : Block} {k : ℕ} (hk : (t.freeBlock b).blocks k = some block) :
    k ≠ b ∧ ∃ old, t.blocks k = some old ∧ block.kind = old.kind ∧ block.arg = old.arg ∧
      ∀ l, block.listener = some l → old.listener = some l ∧ l ≠ b := by
  unfold Table.freeBlock at hk
  dsimp only at hk
  split at hk
  · cases hk
  rename_i hkb
  obtain ⟨old, hold, rfl⟩ := Option.map_eq_some_iff.mp hk
  refine ⟨hkb, old, hold, ?_⟩
  split
  · exact ⟨rfl, rfl, nofun⟩
  · rename_i hne
    exact ⟨rfl, rfl, fun l hl => ⟨hl, fun heq => hne (heq ▸ hl)⟩⟩

lemma Heirs.freeBlock (h : Heirs t.blocks) (b : ℕ) : Heirs (t.freeBlock b).blocks := by
  intro k block l hk hl
  obtain ⟨-, old, hold, -, harg, hlis⟩ := freeBlock_some hk
  obtain ⟨hlis, hlb⟩ := hlis l hl
  obtain ⟨parent, hp, hpk, hpa⟩ := h k old l hold hlis
  refine ⟨if parent.listener = some b then { parent with listener := none } else parent, ?_, ?_, ?_⟩
  · show (if l = b then none else (t.blocks l).map _) = _
    rw [if_neg hlb, hp]
    rfl
  · split <;> exact hpk
  · rw [harg]
    split <;> exact hpa

/-- A block that is freed may lose its argument before. -/
lemma freeBlock_setArg (t : Table) (b : ℕ) (arg : Option (ℕ × ℕ)) : (t.setArg b arg).freeBlock b = t.freeBlock b := by
  unfold Table.freeBlock Table.setArg Table.setBlock
  congr 1
  funext k
  dsimp only
  split
  · rfl
  · rename_i hk
    rw [update_of_ne hk]

lemma setArg_held {block : Block} {k : ℕ} {arg : ℕ × ℕ} (hk : (t.setArg b none).blocks k = some block)
    (harg : block.held = some arg) :
    k ≠ b ∧ t.blocks k = some block := by
  unfold Table.setArg Table.setBlock at hk
  dsimp only at hk
  rcases Lib.update_cases hk with ⟨rfl, hk⟩ | ⟨hkb, hk⟩
  · obtain ⟨old, _, rfl⟩ := Option.map_eq_some_iff.mp hk
    rw [held_of_arg] at harg
    cases harg
  · exact ⟨hkb, hk⟩

lemma ne_listen (hb : t.listens b = false) {block : Block} (hblk : t.blocks b = some block) : block.kind ≠ .listen := by
  intro hkind
  unfold Table.listens at hb
  rw [hblk, Option.any_some, hkind] at hb
  cases hb

lemma Heirs.setArg (h : Heirs t.blocks) (hb : t.listens b = false) : Heirs (t.setArg b none).blocks :=
  h.map (fun _ => rfl) (fun _ => rfl) fun _ hblk => .inr ⟨rfl, ne_listen hb hblk⟩

lemma closeReceive_eq (t : Table) (b : ℕ) (both : Bool) : ∃ f : Block → Block, t.closeReceive b both = t.setBlock b
    ((t.blocks b).map f) ∧ ∀ block, (f block).kind = block.kind ∧ (f block).listener = block.listener ∧
    (f block).arg = block.arg := by
  refine ⟨_, rfl, fun block => ?_⟩
  split <;> exact ⟨rfl, rfl, rfl⟩

lemma Heirs.closeReceive (h : Heirs t.blocks) (b : ℕ) (both : Bool) : Heirs (t.closeReceive b both).blocks := by
  obtain ⟨f, heq, hf⟩ := closeReceive_eq t b both
  rw [heq]
  exact h.map (fun block => (hf block).1) (fun block => (hf block).2.1) fun block _ => .inl (hf block).2.2

lemma closeReceive_held {both : Bool} {block : Block} {k : ℕ} (hk : (t.closeReceive b both).blocks k = some block) :
    ∃ old, t.blocks k = some old ∧ block.held = old.held := by
  obtain ⟨f, heq, hf⟩ := closeReceive_eq t b both
  rw [heq] at hk
  rcases Lib.update_cases hk with ⟨rfl, hk⟩ | ⟨-, hk⟩
  · obtain ⟨old, hold, rfl⟩ := Option.map_eq_some_iff.mp hk
    exact ⟨old, hold, held_congr (hf old).1 (hf old).2.2⟩
  · exact ⟨block, hk, rfl⟩

lemma release_eq (h : Callbacks t.state t.kind t.lives t.pcb t.blocks) (stays : ℕ → Bool) (i : ℕ) :
    ∃ blocks, t.release stays i = { t with blocks } ∧ Heirs blocks ∧ ∀ b block k life, blocks b = some block →
      block.held = some (k, life) → k ≠ i ∧ ∃ old, t.blocks b = some old ∧ old.held = some (k, life) := by
  unfold Table.release
  cases hpcb : t.pcb i with
  | none =>
    refine ⟨t.blocks, rfl, h.heirs, fun b block k life hb harg => ⟨?_, block, hb, harg⟩⟩
    rintro rfl
    obtain ⟨-, -, hk⟩ := h.arg b block k life hb harg
    rw [hpcb] at hk
    cases hk
  | some b₀ =>
    have hoth : ∀ b block k life, b ≠ b₀ → t.blocks b = some block → block.held = some (k, life) → k ≠ i := by
      rintro b block k life hb hblk harg rfl
      obtain ⟨-, -, hk⟩ := h.arg b block k life hblk harg
      rw [hpcb] at hk
      exact hb (Option.some.inj hk).symm
    -- the block loses its argument, and lwIP keeps it or frees it
    have hkept : t.listens b₀ = false → ∃ blocks, (t.setArg b₀ none).closeReceive b₀ true = { t with blocks } ∧ Heirs blocks ∧
        ∀ b block k life, blocks b = some block → block.held = some (k, life) →
          k ≠ i ∧ ∃ old, t.blocks b = some old ∧ old.held = some (k, life) := by
      intro hlis
      refine ⟨_, rfl, (h.heirs.setArg hlis).closeReceive b₀ true, fun b block k life hb harg => ?_⟩
      obtain ⟨mid, hmid, hheld⟩ := closeReceive_held hb
      rw [hheld] at harg
      obtain ⟨hbb, hold⟩ := setArg_held hmid harg
      exact ⟨hoth b mid k life hbb hold harg, mid, hold, harg⟩
    have hfrd : ∃ blocks, (t.setArg b₀ none).freeBlock b₀ = { t with blocks } ∧ Heirs blocks ∧
        ∀ b block k life, blocks b = some block → block.held = some (k, life) →
          k ≠ i ∧ ∃ old, t.blocks b = some old ∧ old.held = some (k, life) := by
      rw [freeBlock_setArg]
      refine ⟨(t.freeBlock b₀).blocks, rfl, h.heirs.freeBlock b₀, fun b block k life hb harg => ?_⟩
      obtain ⟨hbb, old, hold, hkind, hargs, -⟩ := freeBlock_some hb
      rw [held_congr hkind hargs] at harg
      exact ⟨hoth b old k life hbb hold harg, old, hold, harg⟩
    dsimp only
    cases hprot : (t.kind i).protocol with
    | unspecified =>
      exact absurd hprot (h.kind i (by rw [hpcb]; exact Option.some_ne_none b₀))
    | udp => exact hfrd
    | icmp => exact hfrd
    | tcp =>
      dsimp only
      split
      · exact hfrd
      split
      · exact hfrd
      · rename_i hstay
        simp only [not_or, Bool.not_eq_true] at hstay
        exact hkept hstay.2.2

/-- **A slot is cleared** when nothing of the other sockets leads to it. -/
theorem Inv.finish (h : Inv t) (hcut : Cut t i) (hhead : (t.pending i).head = none) (stays : ℕ → Bool) :
    Inv (t.finish stays i) ∧ (t.finish stays i).state i = .free ∧ ∀ k, k ≠ i → Spared k t (t.finish stays i) := by
  obtain ⟨peer, waiter, watches, hunp, hpeers, hwtr, hwat⟩ := unpeer_eq h hcut.live
  have hcal : Callbacks (t.unpeer i).state (t.unpeer i).kind (t.unpeer i).lives (t.unpeer i).pcb (t.unpeer i).blocks := by
    rw [hunp]
    exact h.callbacks
  obtain ⟨blocks, hrel, hheirs, hblks⟩ := release_eq hcal stays i
  rw [hunp] at hrel hblks
  obtain ⟨free, lists, hpool⟩ := h.pool
  have hpool' := freeFrom_pool (t := { t with peer, waiter, watches, blocks }) hpool (hpool.length_le i)
  obtain ⟨packets, packetFree, hfrd⟩ := freeFrom_eq { t with peer, waiter, watches, blocks } (t.queue i).head packetCapacity
  rw [hfrd] at hpool'
  have heq : t.finish stays i =
      Table.blank { t with peer, waiter, watches, blocks, packets, packetFree, queue := update t.queue i .zero } i := by
    unfold Table.finish Table.clearPackets
    rw [hunp, hrel, hfrd]
    rfl
  have hlive := fun k => @live_of_freed t i k
  have hst : ∀ k, k ≠ i → update t.state i .free k = t.state k := fun k hk => update_of_ne hk ..
  rw [heq]
  refine ⟨⟨fun k hk => h.bound k (hlive k hk).2, ?_, ?_, hpeers,
    ⟨fun k hk => ?_, fun k hk => ?_, fun k r hk => ?_, fun w hw => ?_⟩,
    ⟨h.handles.generation, fun k hk => h.handles.used k (hlive k hk).2, fun x hx => ?_⟩,
    ⟨fun b block k life hb harg => ?_, hheirs, fun k hk => ?_⟩⟩, ?_, ?_⟩
  · unfold Table.blank
    dsimp only
    rw [update_idem]
    exact hpool'
  · obtain ⟨lists, hw⟩ := h.waiting
    exact ⟨lists, hw.blank (hw.notMem_of_parent hcut.parent) ((hw.isQueue i hcut.live).eq_nil_iff.mpr hhead) _⟩
  · show update (update t.queue i .zero) i .zero k = .zero
    rw [update_idem]
    by_cases hki : k = i
    · subst hki
      exact update_self ..
    · rw [update_of_ne hki]
      exact h.cleared.queue k (by rwa [← hst k hki])
  · show update t.pending i .zero k = .zero ∨ update t.pending i .zero k = .init
    by_cases hki : k = i
    · subst hki
      exact .inl (update_self ..)
    · rw [update_of_ne hki]
      exact h.cleared.pending k (by rwa [← hst k hki])
  · show update waiter i (fun _ => .zero) k r = .zero ∨ update waiter i (fun _ => .zero) k r = .init
    by_cases hki : k = i
    · subst hki
      rw [update_self]
      exact .inl rfl
    · rw [update_of_ne hki]
      rcases hwtr k r with hsame | hinit
      · rw [hsame]
        exact h.cleared.waiter k r (by rwa [← hst k hki])
      · exact .inr hinit
  · have hwi : w.2 ≠ i := hcut.watches w (hwat w hw)
    show update t.state i .free w.2 ≠ .free
    rw [hst _ hwi]
    exact h.cleared.watches w (hwat w hw)
  · obtain ⟨hslot, hpos, hle, hhd, hown⟩ := h.handles.issued x hx
    refine ⟨hslot, hpos, hle, hhd, fun hlife hk => ?_⟩
    obtain ⟨hki, hk⟩ := hlive _ hk
    show update t.owner i 0 x.slot = x.owner
    rw [update_of_ne hki]
    exact hown hlife hk
  · obtain ⟨hki, old, hold, harg⟩ := hblks b block k life hb harg
    obtain ⟨hk, hlife, hpcb⟩ := h.callbacks.arg b old k life hold harg
    refine ⟨?_, hlife, (update_of_ne hki ..).trans hpcb⟩
    show update t.state i .free k ≠ .free
    rwa [hst k hki]
  · have hki : k ≠ i := by
      rintro rfl
      exact hk (update_self ..)
    show (update t.kind i .zero k).protocol ≠ .unspecified
    rw [update_of_ne hki]
    exact h.callbacks.kind k fun hnone => hk ((update_of_ne hki ..).trans hnone)
  · exact update_self ..
  · intro k hk
    exact ⟨update_of_ne hk .., update_of_ne hk .., fun w hw => hwat w hw⟩

/-! ### `net_socket_dispose` -/

lemma dispose_leaf (h : Inv t) (hc : t.state c ≠ .free) (hpar : (t.pending c).parent = none) (hhead : (t.pending c).head = none)
    (stays : ℕ → Bool) (n : ℕ) :
    Inv (t.dispose stays (n + 1) c) ∧ ∀ k, k ≠ c → Spared k t (t.dispose stays (n + 1) c) := by
  have hrous := roused_wakeAll t c
  have hcut : Cut (t.wakeAll c) c :=
    ⟨(hrous.spared c).state ▸ hc, (hrous.spared c).pending ▸ hpar, wakeAll_watches t c⟩
  have hhead' : ((t.wakeAll c).pending c).head = none := (hrous.spared c).pending ▸ hhead
  have hunpar : (t.wakeAll c).unparent c = t.wakeAll c := by
    unfold Table.unparent
    rw [hcut.parent]
    rfl
  have hpop : (t.wakeAll c).pendingPop c = none := by
    unfold Table.pendingPop
    rw [hhead']
  have heq : t.dispose stays (n + 1) c = (t.wakeAll c).finish stays c := by
    rw [Table.dispose, if_neg hc, hunpar, Table.popAll, hpop]
  obtain ⟨hinv, -, hspar⟩ := (h.roused hrous).finish hcut hhead' stays
  rw [heq]
  exact ⟨hinv, fun k hk => (hrous.spared k).trans (hspar k hk)⟩

lemma popAll_spec (h : Inv t) (hcut : Cut t i) (hm : (t.pending i).count < n) (stays : ℕ → Bool) (depth : ℕ) :
    Inv (Table.popAll (Table.dispose stays (depth + 1)) n t i) ∧
      Cut (Table.popAll (Table.dispose stays (depth + 1)) n t i) i ∧
      ((Table.popAll (Table.dispose stays (depth + 1)) n t i).pending i).head = none := by
  induction n generalizing t with
  | zero => exact absurd hm (Nat.not_lt_zero _)
  | succ n ih =>
    obtain ⟨lists, hw⟩ := h.waiting
    cases hlist : lists i with
    | nil =>
      rw [Table.popAll, pendingPop_eq_none hw hcut.live hlist]
      exact ⟨h, hcut, (hw.isQueue i hcut.live).eq_nil_iff.mp hlist⟩
    | cons c m =>
      have hc : c ∈ lists i := by simp [hlist]
      have hci : c ≠ i := hw.ne hc
      have hlive : t.state c ≠ .free := (hw.settled i c hc).1.ne_free
      have hinv : Inv { t with pending := removed t.pending i c none } := h.removed (a := []) hw hcut.live hlist
      have happ := fun k => removed_apply (l := i) (c := c) t.pending none hci nofun nofun k
      have hchead : (t.pending c).head = none := (hw.isQueue c hlive).eq_nil_iff.mp (hw.settled i c hc).2
      obtain ⟨hinv', hspar⟩ := dispose_leaf (t := { t with pending := removed t.pending i c none }) hinv hlive
        (by simp [happ]) (by simp [happ, hci, hchead]) stays depth
      have hcut' : Cut { t with pending := removed t.pending i c none } i := by
        refine ⟨hcut.live, ?_, hcut.watches⟩
        simp [happ, hci.symm, hcut.parent]
      have hspar := hspar i hci.symm
      have hcnt : (t.pending i).count ≠ 0 := by
        rw [hw.count i hcut.live, hlist]
        simp
      rw [Table.popAll, pendingPop_eq h hw hcut.live hlist]
      refine ih hinv' (hcut'.spared hspar) ?_
      rw [hspar.pending]
      simp only [happ, if_true]
      omega

lemma unparent_spec (h : Inv t) (hi : t.state i ≠ .free) :
    Inv (t.unparent i) ∧ (t.unparent i).state = t.state ∧ (t.unparent i).watches = t.watches ∧
      ((t.unparent i).pending i).parent = none ∧ ((t.unparent i).pending i).count = (t.pending i).count := by
  obtain ⟨lists, hw⟩ := h.waiting
  cases hpar : (t.pending i).parent with
  | none =>
    have heq : t.unparent i = t := by
      unfold Table.unparent
      rw [hpar]
      rfl
    rw [heq]
    exact ⟨h, rfl, rfl, hpar, rfl⟩
  | some l =>
    have hmem := hw.mem_of_parent hi hpar
    have hl : t.state l ≠ .free := by
      intro hfree
      rw [hw.nil l hfree] at hmem
      cases hmem
    have hil : i ≠ l := hw.ne hmem
    have hslot : t.fromSlot (t.pending i).parent (t.pending i).parentGeneration = some l := by
      unfold Table.fromSlot
      rw [hpar]
      have hnot : ¬(capacity ≤ l ∨ t.state l = .free ∨ t.generation l ≠ (t.pending i).parentGeneration) := by
        have hbd := h.bound l hl
        rintro (hle | hfree | hne)
        · omega
        · exact hl hfree
        · exact hne (hw.child l i hmem).2.symm
      exact if_neg hnot
    obtain ⟨a, d, hlist⟩ := List.append_of_mem hmem
    have heq : t.unparent i = { t with pending := removed t.pending l i a.getLast? } := by
      unfold Table.unparent
      rw [hslot]
      exact pendingRemove_eq h hw hl hlist
    have hnd := (hw.isQueue l hl).chain.nodup
    rw [hlist] at hnd
    have hlast : ∀ k, a.getLast? = some k → k ∈ lists l ∧ k ≠ i := fun k hk =>
      ⟨hlist ▸ List.mem_append_left _ (List.mem_of_getLast? hk), fun heq =>
        (List.nodup_append.mp hnd).2.2 _ (List.mem_of_getLast? hk) _ List.mem_cons_self heq⟩
    have happ := removed_apply t.pending a.getLast? hil (fun heq => hw.ne (hlast l heq).1 rfl)
      (fun heq => (hlast i heq).2 rfl) i
    rw [heq]
    refine ⟨h.removed hw hl hlist, rfl, rfl, ?_, ?_⟩
    · simp [happ]
    · simp [happ, hil]

/-- **`net_socket_dispose` keeps the invariant.** -/
theorem Inv.dispose (h : Inv t) (stays : ℕ → Bool) (i : ℕ) : Inv (t.dispose stays capacity i) := by
  show Inv (t.dispose stays (30 + 1 + 1) i)
  rw [Table.dispose]
  split
  · exact h
  · rename_i hi
    have hrous := roused_wakeAll t i
    have hlive : (t.wakeAll i).state i ≠ .free := (hrous.spared i).state ▸ hi
    obtain ⟨hinv, hst, hwat, hpar, hcnt⟩ := unparent_spec (h.roused hrous) hlive
    have hcut : Cut ((t.wakeAll i).unparent i) i := by
      refine ⟨hst ▸ hlive, hpar, ?_⟩
      rw [hwat]
      exact wakeAll_watches t i
    have hsm : (((t.wakeAll i).unparent i).pending i).count < capacity + 1 := by
      obtain ⟨lists, hw⟩ := hinv.waiting
      rw [hw.count i hcut.live]
      exact Nat.lt_succ_of_le (hinv.length_le hw hcut.live)
    obtain ⟨hinv', hcut', hhead⟩ := popAll_spec hinv hcut hsm stays 30
    exact (hinv'.finish hcut' hhead stays).1

end PlantOS.Net.Slots

import Mathlib.Data.Int.ModEq
import PlantOS.Net.SlotLists

/-!
# The steps of the socket table

Every call and every callback keeps the invariant, but for the `net_socket_shutdown` that forgets a block which still
holds the socket.
-/

namespace PlantOS.Net.Slots

open Lib.Chain
open Function (update update_of_ne update_self)

variable {t t' : Table} {i j l c b n p : ℕ} {owner h : ℕ}

attribute [local simp] Table.setKind Table.setSettings Table.setState Table.setPeer Table.issue Table.pairEnd State.Unready

/-! ### What the lookups find -/

lemma find_spec (hi : t.find owner h = some i) :
    t.state i ≠ .free ∧ t.owner i = owner ∧ h % 64 = i + 1 ∧ t.generation i = h % 2 ^ 30 / 64 ∧ h / 2 ^ 30 = 1 ∧
    i < capacity := by
  unfold Table.find at hi
  dsimp only at hi
  split at hi
  · cases hi
  split at hi
  · cases hi
  rename_i hslot hused
  cases hi
  simp only [not_or, not_not] at hslot hused
  obtain ⟨htag, hzero, hle, -⟩ := hslot
  exact ⟨hused.1, hused.2.1, by omega, hused.2.2, htag, by omega⟩

lemma fromSlot_live {slot : Option ℕ} {generation : ℕ} (hi : t.fromSlot slot generation = some i) : t.state i ≠ .free := by
  unfold Table.fromSlot at hi
  cases slot with
  | none => cases hi
  | some j =>
    dsimp only at hi
    split at hi
    · cases hi
    · rename_i hnot
      cases hi
      exact fun hfree => hnot (.inr (.inl hfree))

lemma findLocalBound_spec {address : Address} {type : SocketType} (hi : t.findLocalBound address type = some i) :
    t.state i ≠ .free := by
  have hfnd := List.find?_some hi
  simp only [decide_eq_true_eq] at hfnd
  exact hfnd.1

lemma Inv.on (ht : Inv t) {f : ℕ → Table} (hf : ∀ i, t.find owner h = some i → t.state i ≠ .free → Inv (f i)) :
    Inv (t.on owner h f) := by
  unfold Table.on
  cases hi : t.find owner h with
  | none => exact ht
  | some i => exact hf i hi (find_spec hi).1

/-! ### Packets -/

lemma Inv.head (ht : Inv t) (hhead : (t.queue i).head = some p) :
    ∃ free lists l, Pool t.packets t.packetFree t.queue free lists ∧ lists i = p :: l := by
  obtain ⟨free, lists, hpool⟩ := ht.pool
  have hch := (hpool.isQueue i).chain
  rw [hhead] at hch
  obtain ⟨l, hl, -⟩ := hch.exists_cons
  exact ⟨free, lists, l, hpool, hl⟩

lemma Inv.of_packets (ht : Inv t) (hi : t.state i ≠ .free) {packets : ℕ → Packet} {packetFree : Option ℕ} {q : Queue}
    (hpool : ∃ free lists, Pool packets packetFree (update t.queue i q) free lists) :
    Inv { t with packets, packetFree, queue := update t.queue i q } := by
  refine { ht with pool := hpool, cleared := ⟨fun k hk => ?_, ht.cleared.pending, ht.cleared.waiter, ht.cleared.watches⟩ }
  exact (update_of_ne (fun heq : k = i => hi (heq ▸ hk)) ..).trans (ht.cleared.queue k hk)

lemma Inv.consume (ht : Inv t) (hi : t.state i ≠ .free) (hhead : (t.queue i).head = some p) {part : ℕ}
    (hpart : part ≤ (t.packets p).left) :
    Inv ((t.setPacket p { t.packets p with offset := (t.packets p).offset + part }).setQueue i
      { t.queue i with bytes := (t.queue i).bytes - part }) := by
  obtain ⟨free, lists, l, hpool, hl⟩ := ht.head hhead
  exact ht.of_packets hi ⟨free, lists, hpool.consume hl hpart⟩

lemma Inv.drop (ht : Inv t) (hi : t.state i ≠ .free) (hhead : (t.queue i).head = some p) (hleft : (t.packets p).left = 0) :
    Inv (t.dropPacket i p) := by
  obtain ⟨free, lists, l, hpool, hl⟩ := ht.head hhead
  have hdrop := hpool.drop hl
  rw [hleft] at hdrop
  exact ht.of_packets hi ⟨_, _, hdrop⟩

lemma Inv.wakeLocalWriter (ht : Inv t) (i : ℕ) : Inv (t.wakeLocalWriter i) := by
  unfold Table.wakeLocalWriter
  cases t.localPeer i with
  | none => exact ht
  | some j => exact ht.wake j .writer

lemma wakeLocalWriter_state (t : Table) (i : ℕ) : (t.wakeLocalWriter i).state = t.state := by
  unfold Table.wakeLocalWriter
  cases t.localPeer i with
  | none => rfl
  | some j =>
    obtain ⟨_, _, heq, -⟩ := roused_wake t j .writer
    dsimp only
    rw [heq]

lemma Inv.takePackets (ht : Inv t) (hi : t.state i ≠ .free) (copied : ℕ → Bool) (n length : ℕ) :
    Inv (Table.takePackets copied i n t length) := by
  induction n generalizing t length with
  | zero => exact ht
  | succ n ih =>
    rw [Table.takePackets]
    cases hhead : (t.queue i).head with
    | none => exact ht
    | some p =>
      dsimp only
      split
      · exact ht
      obtain ⟨free, lists, l, hpool, hl⟩ := ht.head hhead
      have hoff := hpool.offset i p (by simp [hl])
      have hmin : min ((t.packets p).total - (t.packets p).offset) length ≤ (t.packets p).left := Nat.min_le_left ..
      have hcons := ht.consume hi hhead hmin
      generalize min ((t.packets p).total - (t.packets p).offset) length = part at hmin hcons
      unfold Packet.left at hmin
      split
      · split
        · exact hcons
        · -- the whole packet of a stream has been received
          rename_i hrest
          have hleft : (((t.setPacket p { t.packets p with offset := (t.packets p).offset + part }).setQueue i
              { t.queue i with bytes := (t.queue i).bytes - part }).packets p).left = 0 := by
            simpa [Table.setPacket, Table.setQueue, Packet.left] using hrest
          have hdrop := hcons.drop (i := i) (p := p) hi (by simpa [Table.setQueue] using hhead) hleft
          exact ih (hdrop.wakeLocalWriter i) (by rw [wakeLocalWriter_state]; exact hi) _
      · -- what a datagram has left is thrown away
        have hcons' := hcons.consume (i := i) (p := p) hi (by simpa [Table.setQueue] using hhead) (Nat.le_refl _)
        have htot : (t.packets p).offset + part + ((t.packets p).total - ((t.packets p).offset + part)) = (t.packets p).total := by
          omega
        simp only [Table.setPacket, Table.setQueue, update_self, Function.update_idem, Packet.left, htot] at hcons' ⊢
        exact (hcons'.drop (i := i) (p := p) hi (by simpa using hhead) (by simp [Packet.left])).wakeLocalWriter i

/-! ### Slots -/

lemma nextGeneration_lifeGeneration (n : ℕ) : Table.nextGeneration (lifeGeneration n) = lifeGeneration (n + 1) := by
  unfold Table.nextGeneration lifeGeneration
  cases n with
  | zero => simp
  | succ m =>
    have hmod := Nat.mod_lt m (show 0 < generationMax by decide)
    have hadd : (m + 1) % generationMax = if m % generationMax + 1 = generationMax then 0 else m % generationMax + 1 := by
      rw [Nat.add_mod, show 1 % generationMax = 1 by decide]
      split
      case isTrue heq => rw [heq, Nat.mod_self]
      case isFalse hne => exact Nat.mod_eq_of_lt (by omega)
    rw [if_neg (Nat.succ_ne_zero m), if_neg (Nat.succ_ne_zero (m + 1)), Nat.add_sub_cancel, Nat.add_sub_cancel, hadd]
    split_ifs <;> omega

def Unheld (t : Table) (i : ℕ) : Prop := ∀ b block life, t.blocks b = some block → block.held ≠ some (i, life)

lemma reserve_spec (ht : t.reserve owner = some (i, t')) :
    t.state i = .free ∧ i < capacity ∧ t' = t.reserved i owner := by
  unfold Table.reserve at ht
  split at ht
  · cases ht
  · rename_i k hfind
    cases ht
    have hfree := List.find?_some hfind
    simp only [decide_eq_true_eq] at hfree
    exact ⟨hfree, List.mem_range.mp (List.mem_of_find?_eq_some hfind), rfl⟩

section Reserve

variable {state : ℕ → State} (hfree : state i = .free)

include hfree

lemma ne_of_live {k : ℕ} (hk : state k ≠ .free) : k ≠ i := fun heq => hk (heq ▸ hfree)

lemma Peers.reserve {generation : ℕ → ℕ} {peer : ℕ → Peer} (h : Peers state generation peer) (g : ℕ) :
    Peers (update state i .reserved) (update generation i g) (update peer i ⟨none, 0, false⟩) := by
  refine ⟨fun k j hk hj => ?_, fun k hk hnone => ?_, fun k hk => ?_⟩
  · have hki : k ≠ i := by
      rintro rfl
      simp at hj
    rw [update_of_ne hki] at hj hk
    obtain ⟨hjk, hlj, hgen, hback⟩ := h.mutual_ k j hk hj
    have hji := ne_of_live hfree hlj
    simp only [update_of_ne hki, update_of_ne hji]
    exact ⟨hjk, hlj, hgen, hback⟩
  · have hki : k ≠ i := by
      rintro rfl
      rw [update_self] at hk
      cases hk
    rw [update_of_ne hki] at hk hnone ⊢
    exact h.alone k hk hnone
  · by_cases hki : k = i
    · subst hki
      rw [update_self]
    · rw [update_of_ne hki] at hk ⊢
      exact h.unready k hk

omit hfree in
lemma ne_of_free {k : ℕ} (hk : update state i .reserved k = .free) : k ≠ i ∧ state k = .free := by
  have hki : k ≠ i := by
    rintro rfl
    rw [update_self] at hk
    cases hk
  exact ⟨hki, by rwa [update_of_ne hki] at hk⟩

lemma Cleared.reserve {queue : ℕ → Queue} {pending : ℕ → Pending} {waiter : ℕ → Role → Waiter} {watches : List (ℕ × ℕ)}
    (h : Cleared state queue pending waiter watches) : Cleared (update state i .reserved) (update queue i .zero)
      (update pending i .init) (update waiter i fun _ => .init) watches := by
  refine ⟨fun k hk => ?_, fun k hk => ?_, fun k r hk => ?_, fun w hw => ?_⟩
  · obtain ⟨hki, hk⟩ := ne_of_free hk
    rw [update_of_ne hki]
    exact h.queue k hk
  · obtain ⟨hki, hk⟩ := ne_of_free hk
    rw [update_of_ne hki]
    exact h.pending k hk
  · obtain ⟨hki, hk⟩ := ne_of_free hk
    rw [update_of_ne hki]
    exact h.waiter k r hk
  · have hlive := h.watches w hw
    rwa [update_of_ne (ne_of_live hfree hlive)]

lemma Handles.reserve {owner generation lives : ℕ → ℕ} {issued : List Issued}
    (h : Handles state owner generation lives issued) (o : ℕ) :
    Handles (update state i .reserved) (update owner i o)
      (update generation i (Table.nextGeneration (generation i))) (update lives i (lives i + 1)) issued := by
  refine ⟨fun k => ?_, fun k hk => ?_, fun x hx => ?_⟩
  · by_cases hki : k = i
    · subst hki
      rw [update_self, update_self, h.generation, nextGeneration_lifeGeneration]
    · rw [update_of_ne hki, update_of_ne hki]
      exact h.generation k
  · by_cases hki : k = i
    · subst hki
      rw [update_self]
      exact Nat.succ_pos _
    · rw [update_of_ne hki] at hk ⊢
      exact h.used k hk
  · obtain ⟨hslot, hpos, hle, hhd, hown⟩ := h.issued x hx
    by_cases hxi : x.slot = i
    · rw [hxi] at hle
      refine ⟨hslot, hpos, ?_, hhd, fun hlife _ => ?_⟩
      · rw [hxi, update_self]
        omega
      · rw [hxi, update_self] at hlife
        omega
    · simp only [update_of_ne hxi]
      exact ⟨hslot, hpos, hle, hhd, hown⟩

lemma Callbacks.reserve {kind : ℕ → Kind} {lives : ℕ → ℕ} {pcb : ℕ → Option ℕ} {blocks : ℕ → Option Block}
    (h : Callbacks state kind lives pcb blocks) : Callbacks (update state i .reserved) (update kind i .zero)
      (update lives i (lives i + 1)) (update pcb i none) blocks := by
  refine ⟨fun b block k life hb harg => ?_, h.heirs, fun k hk => ?_⟩
  · have harg := h.arg b block k life hb harg
    have hki := ne_of_live hfree harg.1
    simp only [update_of_ne hki]
    exact harg
  · have hki : k ≠ i := by
      rintro rfl
      exact hk (update_self ..)
    rw [update_of_ne hki] at hk ⊢
    exact h.kind k hk

end Reserve

/-- **A slot is reserved.** -/
theorem Inv.reserve (ht : Inv t) (hr : t.reserve owner = some (i, t')) : Inv t' ∧ Unheld t' i := by
  obtain ⟨hfree, hlt, rfl⟩ := reserve_spec hr
  have hunh : Unheld t i := fun b block life hb harg => (ht.callbacks.arg b block i life hb harg).1 hfree
  refine ⟨⟨fun k hk => ?_, ?_, ?_, ht.peers.reserve hfree _, ht.cleared.reserve hfree, ht.handles.reserve hfree _,
    ht.callbacks.reserve hfree⟩, hunh⟩
  · by_cases hki : k = i
    · exact hki ▸ hlt
    · exact ht.bound k fun heq => hk ((update_of_ne hki ..).trans heq)
  · have hzero : update t.queue i .zero = t.queue := by
      rw [← ht.cleared.queue i hfree]
      exact Function.update_eq_self i t.queue
    rw [Table.reserved, hzero]
    exact ht.pool
  · obtain ⟨lists, hw⟩ := ht.waiting
    exact ⟨lists, hw.reserve hfree _⟩

theorem Inv.issue (ht : Inv t) (hi : t.state i ≠ .free) : Inv (t.issue i) := by
  refine { ht with handles := ⟨ht.handles.generation, ht.handles.used, fun x hx => ?_⟩ }
  rcases List.mem_cons.mp hx with rfl | hx
  · refine ⟨ht.bound i hi, ht.handles.used i hi, Nat.le_refl _, ?_, fun _ _ => rfl⟩
    show 2 ^ 30 + t.generation i * 64 + (i + 1) = _
    rw [ht.handles.generation]
  · exact ht.handles.issued x hx

/-! ### Control blocks -/

theorem Inv.setKind (ht : Inv t) {x : Kind} (hx : x.protocol ≠ .unspecified ∨ t.pcb i = none) : Inv (t.setKind i x) := by
  refine { ht with callbacks := ⟨ht.callbacks.arg, ht.callbacks.heirs, fun k hk => ?_⟩ }
  show (update t.kind i x k).protocol ≠ .unspecified
  by_cases hki : k = i
  · subst hki
    rw [update_self]
    exact hx.resolve_right hk
  · rw [update_of_ne hki]
    exact ht.callbacks.kind k hk

theorem Inv.of_blocks (ht : Inv t) {blocks : ℕ → Option Block} (hheirs : Heirs blocks)
    (hblks : ∀ b block arg, blocks b = some block → block.held = some arg → ∃ old, t.blocks b = some old ∧
    old.held = some arg) :
    Inv { t with blocks } := by
  refine { ht with callbacks := ⟨fun b block k life hb harg => ?_, hheirs, ht.callbacks.kind⟩ }
  obtain ⟨old, hold, harg⟩ := hblks b block _ hb harg
  exact ht.callbacks.arg b old k life hold harg

lemma Inv.freeBlock (ht : Inv t) (b : ℕ) : Inv (t.freeBlock b) := by
  refine ht.of_blocks (ht.callbacks.heirs.freeBlock b) fun b' block arg hb harg => ?_
  obtain ⟨-, old, hold, hkind, hargs, -⟩ := freeBlock_some hb
  exact ⟨old, hold, held_congr hkind hargs ▸ harg⟩

/-- What does not change the kind, the listener and the argument of a block keeps the invariant. -/
lemma Inv.mapBlock (ht : Inv t) (b : ℕ) {f : Block → Block}
    (hf : ∀ block, (f block).kind = block.kind ∧ (f block).listener = block.listener ∧ (f block).arg = block.arg) :
    Inv (t.setBlock b ((t.blocks b).map f)) := by
  refine ht.of_blocks (ht.callbacks.heirs.map (fun block => (hf block).1) (fun block => (hf block).2.1)
    fun block _ => .inl (hf block).2.2) fun b' block arg hb harg => ?_
  rcases Lib.update_cases hb with ⟨rfl, hb⟩ | ⟨-, hb⟩
  · obtain ⟨old, hold, rfl⟩ := Option.map_eq_some_iff.mp hb
    exact ⟨old, hold, held_congr (hf old).1 (hf old).2.2 ▸ harg⟩
  · exact ⟨block, hb, harg⟩

lemma unheld_of_free (ht : Inv t) (hpcb : t.pcb i = some b) : Unheld (t.freeBlock b) i := by
  intro b' block life hb harg
  obtain ⟨hbb, old, hold, hkind, hargs, -⟩ := freeBlock_some hb
  rw [held_congr hkind hargs] at harg
  obtain ⟨-, -, hpcb'⟩ := ht.callbacks.arg b' old i life hold harg
  rw [hpcb] at hpcb'
  exact hbb (Option.some.inj hpcb').symm

lemma listens_of_unused (hb : t.blocks b = none) : t.listens b = false := by
  unfold Table.listens
  rw [hb]
  rfl

lemma unused_freeBlock (hb : t.blocks b = none) (k : ℕ) : (t.freeBlock k).blocks b = none := by
  unfold Table.freeBlock
  dsimp only
  rw [hb]
  exact ite_self none

/-- **A socket forgets its block** when the block does not hold it. -/
theorem Inv.forget (ht : Inv t) (hi : Unheld t i) : Inv (t.setPcb i none) := by
  refine { ht with callbacks := ⟨fun b block k life hb harg => ?_, ht.callbacks.heirs, fun k hk => ?_⟩ }
  · obtain ⟨hk, hlife, hpcb⟩ := ht.callbacks.arg b block k life hb harg
    have hki : k ≠ i := fun heq => hi b block life hb (heq ▸ harg)
    exact ⟨hk, hlife, (update_of_ne hki ..).trans hpcb⟩
  · have hki : k ≠ i := by
      rintro rfl
      exact hk (update_self ..)
    exact ht.callbacks.kind k fun hnone => hk ((update_of_ne hki ..).trans hnone)

/-- **A socket gets a block.** -/
theorem Inv.attach (ht : Inv t) (hi : t.state i ≠ .free) (hun : Unheld t i) (hkind : (t.kind i).protocol ≠ .unspecified)
    (hb : t.listens b = false) (kind : BlockKind) : Inv (t.attach i b kind) := by
  refine { ht with callbacks := ⟨fun b' block k life hb harg => ?_, fun b' block l hblk hl => ?_, fun k hk => ?_⟩ }
  · unfold Table.attach Table.setBlock Table.setPcb at hb ⊢
    dsimp only at hb ⊢
    rcases Lib.update_cases hb with ⟨rfl, ⟨⟩⟩ | ⟨-, hb⟩
    · have harg : some (i, t.lives i) = some (k, life) := (Option.ite_none_left_eq_some.mp harg).2
      cases harg
      exact ⟨hi, rfl, update_self ..⟩
    · obtain ⟨hk, hlife, hpcb⟩ := ht.callbacks.arg b' block k life hb harg
      have hki : k ≠ i := fun heq => hun b' block life hb (heq ▸ harg)
      exact ⟨hk, hlife, (update_of_ne hki ..).trans hpcb⟩
  · -- the new block has no listener, and it did not listen before
    rcases Lib.update_cases hblk with ⟨-, ⟨⟩⟩ | ⟨-, hblk⟩
    · cases hl
    · obtain ⟨parent, hp, hpk, hpa⟩ := ht.callbacks.heirs b' block l hblk hl
      have hlb : l ≠ b := fun heq => ne_listen hb (heq ▸ hp) hpk
      exact ⟨parent, (update_of_ne hlb ..).trans hp, hpk, hpa⟩
  · by_cases hki : k = i
    · exact hki ▸ hkind
    · exact ht.callbacks.kind k fun hnone => hk ((update_of_ne hki ..).trans hnone)

/-- **`net_socket_tcp_abort` keeps the invariant.** -/
theorem Inv.tcpAbort (ht : Inv t) (hi : t.state i ≠ .free) : Inv (t.tcpAbort i) := by
  have hrest : ∀ u : Table, Inv u → u.state i ≠ .free →
      Inv ((((u.setState i .tcpFailed).setPeer i { (u.setState i .tcpFailed).peer i with closed := true }).setSettings i
        { u.settings i with lastError := 104 }).wakeAll i) := by
    intro u hu hui
    refine Inv.roused ?_ (roused_wakeAll _ i)
    exact ((hu.fail hui).close i).setSettings i _
  unfold Table.tcpAbort
  cases hpcb : t.pcb i with
  | none => exact hrest t ht hi
  | some b =>
    have hfree : (t.clearCallbacks b).freeBlock b = t.freeBlock b := freeBlock_setArg t b none
    dsimp only
    rw [hfree]
    exact hrest _ ((ht.freeBlock b).forget (unheld_of_free ht hpcb)) hi

/-! ## The calls and the callbacks keep the invariant -/

open Function (update_apply update_eq_self)

variable {t t' : Table} {i j l c b n : ℕ} {owner h : ℕ} {stays : ℕ → Bool}

/-! ### Connections -/

lemma pendingPush_eq (t : Table) (l c : ℕ) :
    t.pendingPush l c = Table.wake { t with pending := pushed t.pending l c (t.generation l) } l .acceptor := by
  unfold Table.pendingPush pushed Table.setPending
  dsimp only
  generalize update t.pending c _ = pending
  cases (pending l).tail <;> rfl

/-- **A socket is put behind the others that wait for a listener.** -/
theorem Inv.pendingPush (ht : Inv t) (hl : t.state l = .tcpListening ∨ t.state l = .localListening) (hc : (t.state c).Settled)
    (hpar : (t.pending c).parent = none) (hhead : (t.pending c).head = none)
    (hroom : (t.pending l).count < (t.pending l).backlog) :
    Inv (t.pendingPush l c) := by
  obtain ⟨lists, hw⟩ := ht.waiting
  have hlive : t.state l ≠ .free := by
    rcases hl with hl | hl <;> rw [hl] <;> exact nofun
  have hlset : ¬(t.state l).Settled := by
    rcases hl with hl | hl <;> rw [hl] <;> simp [State.Settled]
  have hlread : ¬(t.state l).Unready := by
    rcases hl with hl | hl <;> rw [hl] <;> simp
  have hcl : c ≠ l := fun heq => hlset (heq ▸ hc)
  have hpush := hw.push hlive hlset hlread hc (hw.notMem_of_parent hpar) ((hw.isQueue c hc.ne_free).eq_nil_iff.mpr hhead) hroom
  rw [pendingPush_eq]
  refine Inv.wake (ht.of_pending ⟨_, hpush⟩ fun k hk => ?_) l .acceptor
  have hkl : k ≠ l := fun heq => hlive (heq ▸ hk)
  have hkc : k ≠ c := fun heq => hc.ne_free (heq ▸ hk)
  have htail : ∀ y, (t.pending l).tail = some y → y ∈ lists l := fun y hy =>
    List.mem_of_getLast? ((hw.isQueue l hlive).tail.symm.trans hy)
  have hk' : (t.pending l).tail ≠ some k := fun heq => (hw.settled l k (htail k heq)).1.ne_free hk
  rw [pushed_apply hcl (fun heq => hw.ne (htail l heq) rfl)]
  simp [hkl, hkc, hk']

/-- **A socket is accepted.** -/
theorem Inv.pendingPop (ht : Inv t) (hl : t.state l ≠ .free) (hpop : t.pendingPop l = some (c, t')) :
    Inv t' ∧ t'.state c ≠ .free := by
  obtain ⟨lists, hw⟩ := ht.waiting
  cases hlist : lists l with
  | nil =>
    rw [pendingPop_eq_none hw hl hlist] at hpop
    cases hpop
  | cons d m =>
    rw [pendingPop_eq ht hw hl hlist] at hpop
    cases hpop
    exact ⟨ht.removed (a := []) hw hl hlist, (hw.settled l c (by simp [hlist])).1.ne_free⟩

/-- **Two new sockets become the ends of a connection.** -/
theorem Inv.link (ht : Inv t) (state : ℕ → State) (peer : ℕ → Peer) (hij : i ≠ j) (hi : (t.state i).Unready)
    (hj : (t.state j).Unready)
    (hst : ∀ k, state k = if k = i ∨ k = j then .localConnected else t.state k)
    (hpi : (peer i).slot = some j ∧ (peer i).generation = t.generation j)
    (hpj : (peer j).slot = some i ∧ (peer j).generation = t.generation i)
    (hpeer : ∀ k, k ≠ i → k ≠ j → peer k = t.peer k) :
    Inv { t with state, peer } := by
  have hi' := hi.ne_free
  have hj' := hj.ne_free
  have hupd : state = update (update t.state i .localConnected) j .localConnected := by
    funext k
    rw [hst]
    by_cases hkj : k = j
    · subst hkj
      simp
    · by_cases hki : k = i
      · subst hki
        simp [hkj]
      · simp [hki, hkj]
  have hfree : ∀ k, state k = .free ↔ t.state k = .free := by
    intro k
    rw [hst]
    split
    case isTrue hor => rcases hor with rfl | rfl <;> simp [hi', hj']
    case isFalse => exact Iff.rfl
  obtain ⟨lists, hw⟩ := ht.waiting
  have hset : State.localConnected.Settled := .inr (.inl rfl)
  have hfst := hw.setState (i := i) (x := .localConnected) hi' nofun (fun hun => absurd hun hset.not_unready) (.inl hset)
  have hwtg := hfst.setState (i := j) (x := .localConnected) (by rwa [update_of_ne hij.symm]) nofun
    (fun hun => absurd hun hset.not_unready) (.inl hset)
  rw [← hupd] at hwtg
  have hnone := ht.peers.unready i hi
  have hnone' := ht.peers.unready j hj
  have hpeers : Peers state t.generation peer := by
    refine ⟨fun k m hk hm => ?_, fun k hk hslot => ?_, fun k hk => ?_⟩
    · by_cases hki : k = i
      · subst hki
        rw [hpi.1] at hm
        cases hm
        refine ⟨hij.symm, fun heq => hj' ((hfree j).mp heq), hpi.2, hpj.1⟩
      by_cases hkj : k = j
      · subst hkj
        rw [hpj.1] at hm
        cases hm
        exact ⟨hij, fun heq => hi' ((hfree i).mp heq), hpj.2, hpi.1⟩
      rw [hpeer k hki hkj] at hm ⊢
      obtain ⟨hmk, hlm, hgen, hback⟩ := ht.peers.mutual_ k m (fun heq => hk ((hfree k).mpr heq)) hm
      have hmi : m ≠ i := by
        rintro rfl
        rw [hnone] at hback
        cases hback
      have hmj : m ≠ j := by
        rintro rfl
        rw [hnone'] at hback
        cases hback
      rw [hpeer m hmi hmj]
      exact ⟨hmk, fun heq => hlm ((hfree m).mp heq), hgen, hback⟩
    · by_cases hki : k = i
      · subst hki
        rw [hpi.1] at hslot
        cases hslot
      by_cases hkj : k = j
      · subst hkj
        rw [hpj.1] at hslot
        cases hslot
      rw [hpeer k hki hkj] at hslot ⊢
      rw [hst, if_neg (not_or.mpr ⟨hki, hkj⟩)] at hk
      exact ht.peers.alone k hk hslot
    · have hkij : ¬(k = i ∨ k = j) := by
        intro hor
        rw [hst, if_pos hor] at hk
        exact hset.not_unready hk
      rw [hst, if_neg hkij] at hk
      obtain ⟨hki, hkj⟩ := not_or.mp hkij
      rw [hpeer k hki hkj]
      exact ht.peers.unready k hk
  exact ht.of_free state peer hfree ⟨lists, hwtg⟩ hpeers

/-! ### Creating sockets -/

lemma reserved_state (hr : t.reserve owner = some (i, t')) :
    t'.state i = .reserved ∧ (t'.pending i).parent = none ∧ (t'.pending i).head = none ∧ t'.pcb i = none ∧
      ∀ k, k ≠ i → t'.state k = t.state k ∧ t'.generation k = t.generation k ∧ t'.pending k = t.pending k := by
  obtain ⟨-, -, rfl⟩ := reserve_spec hr
  refine ⟨update_self .., ?_, ?_, update_self .., fun k hk => ⟨update_of_ne hk .., update_of_ne hk .., update_of_ne hk ..⟩⟩
  · show (update t.pending i .init i).parent = none
    rw [update_self]
    rfl
  · show (update t.pending i .init i).head = none
    rw [update_self]
    rfl

lemma Inv.ready (ht : Inv t) (hi : t.state i = .reserved) {x : State} (hx : x ≠ .free) (hloc : x ≠ .localConnected) :
    Inv (t.setState i x) := by
  have hun : (t.state i).Unready := .inl hi
  have hlive := hun.ne_free
  obtain ⟨lists, hw⟩ := ht.waiting
  refine ht.of_free _ t.peer (update_free hlive hx)
    ⟨lists, hw.setState hlive hx (fun _ => hw.unready i hun) (.inr hun.not_settled)⟩
    ⟨fun k j hk hj => ?_, fun k hk hnone => ?_, fun k hk => ?_⟩
  · obtain ⟨hjk, hlj, hrest⟩ := ht.peers.mutual_ k j (fun heq => hk ((update_free hlive hx k).mpr heq)) hj
    exact ⟨hjk, fun heq => hlj ((update_free hlive hx j).mp heq), hrest⟩
  · rcases Lib.update_cases hk with ⟨-, hk⟩ | ⟨-, hk⟩
    · exact absurd hk hloc
    · exact ht.peers.alone k hk hnone
  · by_cases hki : k = i
    · subst hki
      exact ht.peers.unready k hun
    · rw [update_of_ne hki] at hk
      exact ht.peers.unready k hk

/-- **A slot is free again** when there is no block for its socket. -/
lemma Inv.unreserve (ht : Inv t) (hr : t.reserve owner = some (i, t')) {kind : ℕ → Kind}
    (hkind : ∀ k, k ≠ i → kind k = t'.kind k)
    (settings : ℕ → Settings) :
    Inv { t' with state := update t'.state i .free, owner := update t'.owner i 0, kind, settings } := by
  obtain ⟨hinv, hun⟩ := ht.reserve hr
  obtain ⟨hst, hpar, hhead, hpcb₀, hoth⟩ := reserved_state hr
  obtain ⟨hfree, -, heq⟩ := reserve_spec hr
  have hlive : t'.state i ≠ .free := by
    rw [hst]
    exact nofun
  have hold : update t'.state i .free = t.state := by
    rw [heq, Table.reserved, Function.update_idem, ← hfree]
    exact update_eq_self i t.state
  have hne : ∀ k, t.state k ≠ .free → k ≠ i := fun k hk heq => hk (heq ▸ hfree)
  have hcol : t'.queue i = .zero ∧ t'.pending i = .init ∧ (∀ r, t'.waiter i r = .init) ∧ t'.watches = t.watches := by
    rw [heq]
    exact ⟨update_self .., update_self .., fun r => congrFun (update_self (f := t.waiter) ..) r, rfl⟩
  have hpeer : ∀ k, k ≠ i → t'.peer k = t.peer k := by
    rw [heq]
    exact fun k hk => update_of_ne hk ..
  obtain ⟨lists, hw⟩ := hinv.waiting
  have hwtg := hw.blank (hw.notMem_of_parent hpar) ((hw.isQueue i hlive).eq_nil_iff.mpr hhead) (t'.pending i)
  rw [update_eq_self] at hwtg
  have hpeers : Peers t.state t'.generation t'.peer := by
    refine ⟨fun k j hk hj => ?_, fun k hk hnone => ?_, fun k hk => ?_⟩
    · rw [hpeer k (hne k hk)] at hj ⊢
      obtain ⟨hjk, hlj, hgen, hback⟩ := ht.peers.mutual_ k j hk hj
      rw [hpeer j (hne j hlj), (hoth j (hne j hlj)).2.1]
      exact ⟨hjk, hlj, hgen, hback⟩
    · have hki : k ≠ i := hne k (by rw [hk]; exact nofun)
      rw [hpeer k hki] at hnone ⊢
      exact ht.peers.alone k hk hnone
    · have hki : k ≠ i := hne k fun hf => by
        rw [hf] at hk
        simp at hk
      rw [hpeer k hki]
      exact ht.peers.unready k hk
  have hclr : ∀ k, k ≠ i → t.state k = .free → t'.state k = .free := fun k hk hf => (hoth k hk).1.trans hf
  rw [← hold] at hne
  refine ⟨fun k hk => ht.bound k (hold ▸ hk), hinv.pool, ⟨lists, hwtg⟩, hold ▸ hpeers,
    ⟨fun k hk => ?_, fun k hk => ?_, fun k r hk => ?_, fun w hw => ?_⟩,
    ⟨hinv.handles.generation, fun k hk => ?_, fun x hx => ?_⟩,
    ⟨fun b block k life hb harg => ?_, hinv.callbacks.heirs, fun k hk => ?_⟩⟩
  · by_cases hki : k = i
    · exact hki ▸ hcol.1
    · exact hinv.cleared.queue k (hclr k hki (hold ▸ hk))
  · by_cases hki : k = i
    · exact .inr (hki ▸ hcol.2.1)
    · exact hinv.cleared.pending k (hclr k hki (hold ▸ hk))
  · by_cases hki : k = i
    · exact .inr (hki ▸ hcol.2.2.1 r)
    · exact hinv.cleared.waiter k r (hclr k hki (hold ▸ hk))
  · show update t'.state i .free w.2 ≠ .free
    rw [hold]
    exact ht.cleared.watches w (hcol.2.2.2 ▸ hw)
  · exact hinv.handles.used k ((update_of_ne (hne k hk) .. : update t'.state i .free k = t'.state k) ▸ hk)
  · obtain ⟨hslot, hpos, hle, hhd, hown⟩ := hinv.handles.issued x hx
    refine ⟨hslot, hpos, hle, hhd, fun hlife hk => ?_⟩
    have hxi := hne _ hk
    show update t'.owner i 0 x.slot = x.owner
    rw [update_of_ne hxi]
    exact hown hlife ((update_of_ne hxi .. : update t'.state i .free x.slot = t'.state x.slot) ▸ hk)
  · obtain ⟨hk, hlife, hpcb⟩ := hinv.callbacks.arg b block k life hb harg
    have hki : k ≠ i := fun heq => hun b block life hb (heq ▸ harg)
    refine ⟨?_, hlife, hpcb⟩
    show update t'.state i .free k ≠ .free
    rwa [update_of_ne hki]
  · have hki : k ≠ i := fun heq => hk (heq ▸ hpcb₀)
    show (kind k).protocol ≠ .unspecified
    rw [hkind k hki]
    exact hinv.callbacks.kind k hk

/-- **`net_socket_create` keeps the invariant.** -/
theorem Inv.create (ht : Inv t) (owner : ℕ) (domain : Domain) (type : SocketType) (protocol : Protocol) (up : Bool)
    (block : Option ℕ) (hnew : ∀ b ∈ block, t.Unused b) : Inv (t.create owner domain type protocol up block) := by
  unfold Table.create
  split
  · exact ht
  split
  · exact ht
  rename_i i u hr
  obtain ⟨hinv, hun⟩ := ht.reserve hr
  obtain ⟨hst, -, -, hpcb, -⟩ := reserved_state hr
  obtain ⟨-, -, heq⟩ := reserve_spec hr
  have hkind : Inv ((u.setKind i ⟨domain, type, protocol⟩).setSettings i
      { (u.setKind i ⟨domain, type, protocol⟩).settings i with address := domain.address }) :=
    (hinv.setKind (.inr hpcb)).setSettings i _
  dsimp only
  split
  · have hrdy := hkind.ready (i := i) (x := .localReady) hst nofun nofun
    refine hrdy.issue ?_
    rw [setState_self]
    exact nofun
  unfold Table.createInet
  dsimp only
  split
  · exact ht.unreserve hr (fun k hk => by simp [hk]) _
  rename_i b
  have hlis : u.listens b = false := listens_of_unused (by
    rw [heq]
    exact hnew b rfl)
  -- the socket gets its state and its block, whichever its type
  have hatt : ∀ (p : Protocol) (x : State) (kind : BlockKind), p ≠ .unspecified → x ≠ .free → x ≠ .localConnected →
      Inv ((((((u.setKind i ⟨domain, type, protocol⟩).setSettings i
        { (u.setKind i ⟨domain, type, protocol⟩).settings i with address := domain.address }).setKind i
          ⟨domain, type, p⟩).setState i x).attach i b kind).issue i) := by
    intro p x kind hp hx hloc
    have hrdy := (hkind.setKind (i := i) (x := ⟨domain, type, p⟩) (.inl hp)).ready (i := i) (x := x) hst hx hloc
    have hlive : ∀ v : Table, (v.setState i x).state i ≠ .free := fun v => by rwa [setState_self]
    have hattac := hrdy.attach (i := i) (hlive _) hun (by simp [hp]) hlis kind
    exact hattac.issue (hlive _)
  simp only [Table.setKind, Table.setSettings, update_self] at hatt ⊢
  cases type with
  | dgram => exact hatt .udp .inetUdp .udp nofun nofun nofun
  | stream => exact hatt .tcp .tcpReady .tcp nofun nofun nofun
  | raw => exact hatt .icmp .inetRaw .raw nofun nofun nofun
  | unspecified => exact hatt .icmp .inetRaw .raw nofun nofun nofun

/-- **`net_socket_pair` keeps the invariant.** -/
theorem Inv.pair (ht : Inv t) (stays : ℕ → Bool) (owner : ℕ) : Inv (t.pair stays owner) := by
  unfold Table.pair
  split
  · exact ht
  rename_i left u hleft
  obtain ⟨hinv, hun⟩ := ht.reserve hleft
  obtain ⟨hst, -, -, hpcb, -⟩ := reserved_state hleft
  split
  · exact hinv.dispose stays left
  rename_i right v hrig
  obtain ⟨hinv', hun'⟩ := hinv.reserve hrig
  obtain ⟨hst', -, -, hpcb', hoth⟩ := reserved_state hrig
  obtain ⟨hfree', -, heq⟩ := reserve_spec hrig
  have hne : left ≠ right := by
    rintro rfl
    rw [hfree'] at hst
    cases hst
  have hleft' : v.state left = .reserved := (hoth left hne).1.trans hst
  have hlef : v.pcb left = none := by
    rw [heq]
    exact (update_of_ne hne ..).trans hpcb
  have hkind : Inv (((((v.setKind left ⟨.local_, .stream, .unspecified⟩).setSettings left
      { v.settings left with address := .local_ [] }).setKind right ⟨.local_, .stream, .unspecified⟩).setSettings right
      { (v.setSettings left { v.settings left with address := .local_ [] }).settings right with address := .local_ [] })) :=
    (((hinv'.setKind (.inr hlef)).setSettings left _).setKind (.inr hpcb')).setSettings right _
  have hlink := hkind.link (i := left) (j := right)
    (update (update v.state left .localConnected) right .localConnected)
    (update (update v.peer left ⟨some right, v.generation right, (v.peer left).closed⟩) right
      ⟨some left, v.generation left, (update v.peer left ⟨some right, v.generation right, (v.peer left).closed⟩ right).closed⟩)
    hne (.inl hleft') (.inl hst') (fun k => by
      simp only [update_apply, Table.setKind, Table.setSettings]
      split_ifs <;> simp_all) (by simp [hne]) (by simp)
    fun k hk hk' => by simp [hk, hk']
  refine (Inv.issue (i := left) ?_ ?_).issue ?_
  · exact hlink
  · simp [hne]
  · simp

/-! ### Addresses and connections -/

lemma Inv.bindInet (ht : Inv t) (i port : ℕ) (answer : Option Address) : Inv (t.bindInet i port answer) := by
  unfold Table.bindInet
  split
  · split
    · exact ht
    · exact ht.setSettings i _
  · exact ht

lemma bindAny_eq (t : Table) (i : ℕ) (answer : Option Address) : ∃ settings,
  (t.bindAny i answer).1 = { t with settings } := by
  unfold Table.bindAny
  split
  · exact ⟨_, rfl⟩
  · unfold Table.bindInet
    split
    · split
      · exact ⟨_, rfl⟩
      · exact ⟨_, rfl⟩
    · exact ⟨_, rfl⟩

lemma Inv.of_settings (ht : Inv t) (settings : ℕ → Settings) : Inv { t with settings } :=
  { ht with }

lemma Inv.bind (ht : Inv t) (owner h : ℕ) (address : Address) (answer : Option Address) :
    Inv (t.bind owner h address answer) := by
  refine ht.on fun i _ _ => ?_
  split
  · exact ht
  split
  · split
    · exact ht
    · exact ht.setSettings i _
  split
  · exact ht.bindInet i _ answer
  · exact ht

/-- **`net_socket_connect_local_stream` keeps the invariant.** -/
theorem Inv.connectLocalStream (ht : Inv t) (hi : t.state i = .localReady) (address : Address) :
    Inv (t.connectLocalStream i address) := by
  unfold Table.connectLocalStream
  split
  · exact ht
  rename_i l hl
  dsimp only
  split
  · exact ht
  rename_i hlis
  simp only [not_or, not_not] at hlis
  obtain ⟨hlis, hroom⟩ := hlis
  split
  · exact ht
  rename_i c u hr
  obtain ⟨hinv, hun⟩ := ht.reserve hr
  obtain ⟨hst, hpar, hhead, hpcb, hoth⟩ := reserved_state hr
  obtain ⟨hfree, -, -⟩ := reserve_spec hr
  have hic : i ≠ c := by
    rintro rfl
    rw [hfree] at hi
    cases hi
  have hlc : l ≠ c := by
    rintro rfl
    rw [hfree] at hlis
    cases hlis
  have hil : i ≠ l := by
    rintro rfl
    rw [hi] at hlis
    cases hlis
  have hi' : u.state i = .localReady := (hoth i hic).1.trans hi
  have hl' : u.state l = .localListening := (hoth l hlc).1.trans hlis
  have hkind : ∀ settings, Inv { u.setKind c ⟨.local_, .stream, .unspecified⟩ with settings } := fun settings =>
    (hinv.setKind (.inr hpcb)).of_settings settings
  have hlink := fun settings => (hkind settings).link (i := i) (j := c)
    (update (update u.state c .localConnected) i .localConnected)
    (update (update u.peer i ⟨some c, u.generation c, false⟩) c ⟨some i, u.generation i, false⟩)
    hic (.inr (.inr hi')) (.inl hst) (fun k => by
      simp only [update_apply, Table.setKind]
      split_ifs <;> simp_all) (by simp [hic]) (by simp)
    fun k hk hk' => by simp [hk, hk']
  have hlstn : update (update u.state c .localConnected) i .localConnected l = .localListening := by
    simp [hl', hlc, hil.symm]
  have hchd : update (update u.state c .localConnected) i .localConnected c = .localConnected := by
    simp [hic.symm]
  have hcnt : (u.pending l).count < (u.pending l).backlog := by
    rw [(hoth l hlc).2.2]
    exact Nat.lt_of_not_le hroom
  exact Inv.pendingPush (hlink _) (.inr hlstn) (.inr (.inl hchd)) hpar hhead hcnt

lemma Inv.setConnected (ht : Inv t) (b : ℕ) :
    Inv (t.setBlock b ((t.blocks b).map fun block => { block with connected := true })) :=
  ht.mapBlock b fun _ => ⟨rfl, rfl, rfl⟩

lemma Inv.of_connecting (ht : Inv t) (connecting : List (ℕ × ℕ)) : Inv { t with connecting } :=
  { ht with }

/-- **`net_socket_connect` keeps the invariant.** -/
theorem Inv.connect (ht : Inv t) (owner h : ℕ) (address : Address) (answer : Option Address) (accepted : Bool) :
    Inv (t.connect owner h address answer accepted) := by
  refine ht.on fun i _ hi => ?_
  split
  · exact ht
  split
  · split
    · split
      · exact ht
      · exact ht.setSettings i _
    split
    · rename_i hrdy
      exact ht.connectLocalStream hrdy.2 address
    · exact ht
  obtain ⟨settings, hany⟩ := bindAny_eq t i answer
  have hinv : Inv (t.bindAny i answer).1 := hany ▸ ht.of_settings settings
  split
  · split
    · rename_i u heq
      have hu : Inv u := by rwa [heq] at hinv
      split
      · exact hu.setSettings i _
      · exact hu
    · rename_i u heq
      rwa [heq] at hinv
  split
  · split
    · exact ht.setSettings i _
    · exact ht
  split
  · rename_i hrdy
    split
    · rename_i u heq
      rw [heq] at hinv hany
      subst hany
      split
      · rename_i b hpcb
        have hset := (hinv.setConnected b).setSettings i { settings i with peer := address, lastError := 0 }
        have hun : (t.state i).Unready := .inr (.inl hrdy.2)
        have hst := hset.setState (i := i) (x := .tcpConnecting) hi nofun (by simp) (.inr hun.not_settled) nofun
        dsimp only
        split
        · exact hst
        · exact hst.of_connecting _
      · exact hinv
    · rename_i u heq
      rwa [heq] at hinv
  · exact ht

/-- **A pass of the loop in `net_socket_connect` keeps the invariant.** -/
theorem Inv.connectPass (ht : Inv t) (owner h : ℕ) (c : Table.Caller) : Inv (t.connectPass owner h c) := by
  unfold Table.connectPass
  split
  · exact ht.of_connecting _
  rename_i i hi
  have hlive := (find_spec hi).1
  split
  · exact ht.of_connecting _
  split
  · exact (ht.tcpAbort hlive).of_connecting _
  have hwait := ht.wait hlive .connector c
  split
  · rename_i u heq
    rw [heq] at hwait
    exact hwait.of_connecting _
  · rename_i u _ heq
    rwa [heq] at hwait

lemma Inv.setBacklog (ht : Inv t) (hi : (t.state i).Unready) (n : ℕ) :
    Inv (t.setPending i { t.pending i with backlog := n }) := by
  obtain ⟨lists, hw⟩ := ht.waiting
  refine ht.of_pending ⟨lists, hw.setBacklog (hw.unready i hi) n⟩ fun k hk => ?_
  exact update_of_ne (fun heq : k = i => hi.ne_free (heq ▸ hk)) ..

/-- **`net_socket_listen` keeps the invariant.** -/
theorem Inv.listen (ht : Inv t) (owner h backlog : ℕ) (answer : Option Address) (block : Option ℕ)
    (hnew : ∀ b ∈ block, t.Unused b) : Inv (t.listen owner h backlog answer block) := by
  unfold Table.listen
  split
  · exact ht
  refine ht.on fun i _ hi => ?_
  dsimp only
  split
  · exact ht
  split
  · split
    · exact ht
    · rename_i hrdy
      simp only [not_or, not_not] at hrdy
      have hun : (t.state i).Unready := .inr (.inr hrdy.1)
      exact (ht.setBacklog hun _).setState hi (by rintro ⟨⟩) (by simp) (.inr hun.not_settled)
        (by intros; contradiction)
  split
  · exact ht
  rename_i hrdy
  rw [not_not] at hrdy
  obtain ⟨settings, hany⟩ := bindAny_eq t i answer
  have hinv : Inv (t.bindAny i answer).1 := hany ▸ ht.of_settings settings
  split
  · rename_i u heq
    rw [heq] at hinv hany
    subst hany
    split
    · -- the first block is gone, and the socket listens with the new one
      rename_i old b hpcb
      have hfrd := hinv.freeBlock old
      have hun : Unheld _ i := unheld_of_free hinv hpcb
      have hkind := ht.callbacks.kind i (by rw [show t.pcb i = some old from hpcb]; exact Option.some_ne_none old)
      have hrdy : (t.state i).Unready := .inr (.inl hrdy)
      have hset := (hfrd.setBacklog hrdy (min backlog Table.maxBacklog)).setState (i := i)
        (x := .tcpListening) hi (by rintro ⟨⟩)
        (by simp) (.inr hrdy.not_settled) (by intros; contradiction)
      refine hset.attach ?_ hun hkind (listens_of_unused (unused_freeBlock (hnew b rfl) old)) .listen
      rw [setState_self]
      rintro ⟨⟩
    · exact hinv
  · rename_i u heq
    rwa [heq] at hinv

/-! ## Runs of the socket table -/

open Lib Lib.Chain

/-! ### Accepting and shutting down -/

/-- **A pass of `net_socket_accept` keeps the invariant.** -/
theorem Inv.accept (ht : Inv t) (owner h : ℕ) (c : Table.Caller) : Inv (t.accept owner h c) := by
  refine ht.on fun i _ hi => ?_
  split
  · exact ht
  split
  · rename_i child u hpop
    obtain ⟨hinv, hlive⟩ := ht.pendingPop hi hpop
    exact hinv.issue hlive
  split
  · exact ht
  · exact ht.wait hi .acceptor c

def Holds (t : Table) (b i : ℕ) : Prop := ∃ block ∈ t.blocks b, block.held.map Prod.fst = some i

/-- **The condition.** A socket is not shut down in both directions while lwIP keeps the block that holds it. -/
def Keeps (t : Table) : Event → Prop
  | .shutdown owner h shutRead shutWrite error stays =>
    shutRead = true → shutWrite = true → stays = true → error ≠ .other →
      ∀ i ∈ t.find owner h, (t.kind i).protocol = .tcp → ∀ b ∈ t.pcb i, ¬Holds t b i
  | _ => True

lemma unheld_of_not_holds (ht : Inv t) (hpcb : t.pcb i = some b) (hb : ¬Holds t b i) : Unheld t i := by
  intro b' block life hblk harg
  obtain ⟨-, -, hpcb'⟩ := ht.callbacks.arg b' block i life hblk harg
  rw [hpcb] at hpcb'
  cases hpcb'
  exact hb ⟨block, hblk, by rw [harg]; rfl⟩

lemma Inv.shutReading (ht : Inv t) (i : ℕ) : Inv (t.shutReading i) := ((ht.setSettings i _).clearPackets i).wake i .reader

lemma Inv.shutWriting (ht : Inv t) (i : ℕ) : Inv (t.shutWriting i) := by
  have hwok := (ht.setSettings i { t.settings i with shutdownWrite := true }).wake i .writer
  unfold Table.shutWriting
  dsimp only
  split
  · exact ((hwok.close _).wake _ .reader).wake _ .writer
  · exact hwok

lemma Inv.shutBlock (ht : Inv t) (hi : t.state i ≠ .free) {both stays : Bool}
    (hkps : both = true → stays = true → (t.kind i).protocol = .tcp → ∀ b ∈ t.pcb i, ¬Holds t b i) :
    Inv (t.shutBlock i both stays) := by
  unfold Table.shutBlock
  split
  · rename_i b htcp hpcb
    have hinv : Inv (if stays then t else t.freeBlock b) := by
      split
      · exact ht
      · exact ht.freeBlock b
    dsimp only
    by_cases hboth : both = true
    · rw [if_pos hboth]
      have hun : Unheld (if stays then t else t.freeBlock b) i := by
        split
        · rename_i hsty
          exact unheld_of_not_holds ht hpcb (hkps hboth hsty htcp b hpcb)
        · exact unheld_of_free ht hpcb
      have hlive : (if stays then t else t.freeBlock b).state i ≠ .free := by
        split <;> exact hi
      exact ((hinv.forget hun).fail hlive).close i
    · rw [if_neg hboth]
      exact hinv
  · exact ht

lemma Inv.closeReceive (ht : Inv t) (b : ℕ) (both : Bool) : Inv (t.closeReceive b both) := by
  obtain ⟨f, heq, hf⟩ := closeReceive_eq t b both
  rw [heq]
  exact ht.mapBlock b hf

lemma shutReceive_eq (ht : Inv t) (i : ℕ) (both : Bool) : ∃ blocks, t.shutReceive i both = { t with blocks } ∧
    Inv { t with blocks } ∧ ∀ b, Holds { t with blocks } b i → Holds t b i := by
  unfold Table.shutReceive
  split
  · rename_i b _ _
    refine ⟨_, rfl, ht.closeReceive b both, fun b' hb => ?_⟩
    obtain ⟨block, hblk, hheld⟩ := hb
    obtain ⟨old, hold, heq⟩ := closeReceive_held hblk
    exact ⟨old, hold, heq ▸ hheld⟩
  · exact ⟨t.blocks, rfl, ht, fun _ hb => hb⟩

/-- **`net_socket_shutdown` keeps the invariant**, under the condition. -/
theorem Inv.shutdown (ht : Inv t) {shutRead shutWrite : Bool} {error : LwipError} {stays : Bool}
    (hkps : Keeps t (.shutdown owner h shutRead shutWrite error stays)) :
    Inv (t.shutdown owner h shutRead shutWrite error stays) := by
  refine ht.on fun i hfind hi => ?_
  obtain ⟨blocks, heq, hinv, hholds⟩ : ∃ blocks, (if shutRead then t.shutReceive i shutWrite else t) = { t with blocks } ∧
      Inv { t with blocks } ∧ ∀ b, Holds { t with blocks } b i → Holds t b i := by
    split
    · exact shutReceive_eq ht i shutWrite
    · exact ⟨t.blocks, rfl, ht, fun _ hb => hb⟩
  dsimp only
  rw [heq]
  split
  · exact hinv
  rename_i href
  generalize hu : ({ t with blocks } : Table) = u at hinv hholds href ⊢
  have hblk : Inv (u.shutBlock i (shutRead && shutWrite) stays) := by
    refine hinv.shutBlock (hu ▸ hi) fun hboth hsty htcp b hpcb hb => ?_
    obtain ⟨hread, hwr⟩ := Bool.and_eq_true_iff.mp hboth
    subst hu
    refine hkps hread hwr hsty (fun herr => href ⟨htcp, ?_, herr⟩) i hfind htcp b hpcb (hholds b hb)
    rw [show t.pcb i = some b from hpcb]
    exact Option.some_ne_none b
  have hread : Inv (if shutRead then (u.shutBlock i (shutRead && shutWrite) stays).shutReading i
      else u.shutBlock i (shutRead && shutWrite) stays) := by
    split
    · exact hblk.shutReading i
    · exact hblk
  split
  · exact hread.shutWriting i
  · exact hread

lemma Inv.sendLocalStream (ht : Inv t) (owner h length : ℕ) (dontwait : Bool) (c : Table.Caller) :
    Inv (t.sendLocalStream owner h length dontwait c) := by
  refine ht.on fun i _ hi => ?_
  split
  · exact ht
  split
  · exact ht
  split
  · exact ht.wait hi .writer c
  · exact ht

lemma Inv.commitLocalStream (ht : Inv t) (owner h length : ℕ) : Inv (t.commitLocalStream owner h length) := by
  refine ht.on fun i _ _ => ?_
  split
  · exact ht
  rename_i j hj
  split
  · exact ht.enqueue (fromSlot_live hj) length
  · exact ht

lemma Inv.commitLocalDgram (ht : Inv t) (owner h length : ℕ) (address : Address) :
    Inv (t.commitLocalDgram owner h length address) := by
  refine ht.on fun _ _ _ => ?_
  split
  · exact ht
  rename_i j hj
  exact ht.enqueue (findLocalBound_spec hj) length

lemma Inv.recvfrom (ht : Inv t) (owner h length : ℕ) (dontwait : Bool) (copied : ℕ → Bool) (c : Table.Caller) :
    Inv (t.recvfrom owner h length dontwait copied c) := by
  refine ht.on fun i _ hi => ?_
  split
  · exact ht.clearPackets i
  split
  · exact ht
  split
  · exact ht.takePackets hi copied _ _
  split
  · exact ht
  split
  · exact ht
  · exact ht.wait hi .reader c

/-! ### Callbacks -/

lemma Inv.callback (ht : Inv t) {kind : BlockKind} {f : ℕ → Table} (hcall : t.callback b kind f = some t')
    (hkind : kind ≠ .half)
    (hf : ∀ i, t.state i ≠ .free → t.pcb i = some b → Inv (f i)) : Inv t' := by
  unfold Table.callback at hcall
  split at hcall
  · cases hcall
  rename_i block hb
  split at hcall
  · cases hcall
  rename_i hsame
  rw [not_not] at hsame
  split at hcall
  · cases hcall
    exact ht
  · rename_i i life harg
    cases hcall
    obtain ⟨hlive, -, hpcb⟩ := ht.callbacks.arg b block i life hb ((if_neg (hsame ▸ hkind)).trans harg)
    exact hf i hlive hpcb

lemma Inv.tcpReceive (ht : Inv t) (hi : t.state i ≠ .free) (packet : Option ℕ) (error : Bool) :
    Inv (t.tcpReceive i packet error) := by
  unfold Table.tcpReceive
  split
  · exact (((ht.close i).wake i .reader).wake i .writer).wake i .connector
  split
  · exact ht
  split
  · exact ((ht.fail hi).setSettings i _).roused (roused_wakeAll _ i)
  · exact ht.enqueue hi _

lemma Inv.tcpError (ht : Inv t) (hi : t.state i ≠ .free) (hpcb : t.pcb i = some b) (reset : Bool) :
    Inv ((t.freeBlock b).tcpError i reset) := by
  have hun := unheld_of_free ht hpcb
  have hfor := ((ht.freeBlock b).setSettings i
    { t.settings i with lastError := if reset ∧ t.state i = .tcpConnecting then 111 else 104 }).forget (i := i) hun
  exact ((hfor.fail hi).close i).roused (roused_wakeAll _ i)

lemma Inv.tcpConnected (ht : Inv t) (hi : t.state i ≠ .free) (hpcb : t.pcb i = some b) (error : Bool) (answer : Address) :
    Inv (t.tcpConnected i b error answer) := by
  unfold Table.tcpConnected
  split
  · exact ((ht.fail hi).setSettings i _).roused (roused_wakeAll _ i)
  · have hsame : t.setPcb i (some b) = t := by
      unfold Table.setPcb
      rw [← hpcb, Function.update_eq_self]
    rw [hsame]
    have hst := ht.setState (x := .tcpConnected) hi nofun (by simp) (.inl (.inl rfl)) nofun
    exact (hst.setSettings i _).wake i .connector

/-- **A connection from outside waits to be accepted.** -/
theorem Inv.tcpAccept (ht : Inv t) (i : ℕ) {block : Option ℕ} (hblk : ∀ b ∈ block, t.listens b = false) (error : Bool)
    (local_ peer : Address) : Inv (t.tcpAccept i block error local_ peer) := by
  unfold Table.tcpAccept
  split
  · exact ht
  rename_i n
  split
  · exact ht.freeBlock n
  rename_i hlist
  simp only [not_or, not_not] at hlist
  obtain ⟨-, hlist, hroom⟩ := hlist
  split
  · exact ht.freeBlock n
  rename_i c u hr
  obtain ⟨hinv, hun⟩ := ht.reserve hr
  obtain ⟨hst, hpar, hhead, hpcb, hoth⟩ := reserved_state hr
  obtain ⟨hfree, -, heq⟩ := reserve_spec hr
  have hic : i ≠ c := by
    rintro rfl
    rw [hfree] at hlist
    cases hlist
  have hkind := hinv.setKind (i := c) (x := ⟨.inet, .stream, .tcp⟩) (.inl nofun)
  have hrdy : (u.state c).Unready := .inl hst
  have hset := (hkind.setState (i := c) (x := .tcpConnected) hrdy.ne_free nofun (by simp) (.inl (.inl rfl))
    nofun).setSettings c { (u.setKind c ⟨.inet, .stream, .tcp⟩).settings c with address := local_, peer }
  have hchd : Function.update u.state c .tcpConnected c = .tcpConnected := Function.update_self ..
  have hlive : Function.update u.state c .tcpConnected c ≠ .free := by
    rw [hchd]
    exact nofun
  have hlis : u.listens n = false := by
    rw [heq]
    exact hblk n rfl
  have hatt := hset.attach (i := c) hlive hun (by simp) hlis .tcp
  have hlstn : Function.update u.state c .tcpConnected i = .tcpListening := by
    rw [Function.update_of_ne hic, (hoth i hic).1, hlist]
  have hcnt : (u.pending i).count < (u.pending i).backlog := by
    rw [(hoth i hic).2.2]
    exact Nat.lt_of_not_le hroom
  exact hatt.pendingPush (.inl hlstn) (.inl hchd) hpar hhead hcnt

/-- **A half-open block is made for a block that listens.** -/
lemma Inv.tcpSyn (ht : Inv t) {parent : Block} (hb : t.blocks b = some parent) (hkind : parent.kind = .listen)
    (hn : t.Unused n) :
    Inv (t.setBlock n (some ⟨.half, parent.arg, false, false, false, some b⟩)) := by
  have hne : ∀ k block, t.blocks k = some block → k ≠ n := by
    rintro k block hk rfl
    exact Option.some_ne_none block (hk.symm.trans hn)
  refine ht.of_blocks (fun k block l hk hl => ?_) fun k block arg hk harg => ?_
  · rcases Lib.update_cases hk with ⟨-, ⟨⟩⟩ | ⟨-, hk⟩
    · cases hl
      exact ⟨parent, (update_of_ne (hne b parent hb) ..).trans hb, hkind, .inr rfl⟩
    · obtain ⟨parent', hp, hrest⟩ := ht.callbacks.heirs k block l hk hl
      exact ⟨parent', (update_of_ne (hne l parent' hp) ..).trans hp, hrest⟩
  · rcases Lib.update_cases hk with ⟨-, ⟨⟩⟩ | ⟨-, hk⟩
    · cases harg
    · exact ⟨block, hk, harg⟩

lemma Inv.established (ht : Inv t) (hb : (t.blocks b).any (fun block => block.kind = .half) = true) (local_ peer : Address) :
    Inv (t.established b local_ peer) := by
  unfold Table.established
  split
  · exact ht.freeBlock b
  · refine ht.tcpAccept _ (fun b' hb' => ?_) false local_ peer
    cases hb'
    obtain ⟨block, hblk, hkind⟩ := (Option.any_eq_true ..).mp hb
    unfold Table.listens
    rw [hblk, Option.any_some, of_decide_eq_true hkind]
    rfl

lemma Inv.foldl {ι : Type*} {f : Table → ι → Table} (hf : ∀ t k, Inv t → Inv (f t k)) (l : List ι) (ht : Inv t) :
    Inv (l.foldl f t) := by
  induction l generalizing t with
  | nil => exact ht
  | cons k l ih => exact ih (hf t k ht)

lemma Inv.cancel (ht : Inv t) (i : ℕ) (r : Role) (tid generation : ℕ) : Inv (t.cancel i r tid generation) :=
  ht.roused (roused_cancel t i r tid generation)

lemma Inv.tick (ht : Inv t) (passed : ℕ → Bool) : Inv (t.tick passed) := by
  refine ht.foldl (fun u i hu => ?_) _
  split
  · exact hu
  · refine hu.foldl (fun v r hv => ?_) _
    split
    · exact hv.wake i r
    · exact hv

lemma Inv.cancelWaits (ht : Inv t) (tid generation : ℕ) : Inv (t.cancelWaits tid generation) := by
  refine ht.foldl (fun u i hu => ?_) _
  split
  · exact hu
  · exact (((hu.cancel i .reader tid generation).cancel i .writer tid generation).cancel i .connector tid generation).cancel i
      .acceptor tid generation

lemma Inv.taskCleanup (ht : Inv t) (stays : ℕ → Bool) (owner : ℕ) : Inv (t.taskCleanup stays owner) := by
  refine ht.foldl (fun u i hu => ?_) _
  split
  · exact hu.dispose stays i
  · exact hu

/-! ### Steps -/

/-- **Every step that meets the condition keeps the invariant.** -/
theorem Inv.step (ht : Inv t) {e : Event} (hkps : Keeps t e) (hstep : t.step e = some t') : Inv t' := by
  cases e with
  | create owner domain type protocol up block =>
    simp only [Table.step, Option.ite_none_right_eq_some, Option.some.injEq] at hstep
    exact hstep.2 ▸ ht.create owner domain type protocol up block hstep.1
  | pair stays owner => exact Option.some.inj hstep ▸ ht.pair stays owner
  | close stays owner h => exact Option.some.inj hstep ▸ ht.on fun i _ _ => ht.dispose stays i
  | bind owner h address answer => exact Option.some.inj hstep ▸ ht.bind owner h address answer
  | connect owner h address answer accepted => exact Option.some.inj hstep ▸ ht.connect owner h address answer accepted
  | connectPass owner h c =>
    simp only [Table.step, Option.ite_none_right_eq_some, Option.some.injEq] at hstep
    exact hstep.2 ▸ ht.connectPass owner h c
  | listen owner h backlog answer block =>
    simp only [Table.step, Option.ite_none_right_eq_some, Option.some.injEq] at hstep
    exact hstep.2 ▸ ht.listen owner h backlog answer block hstep.1
  | accept owner h c => exact Option.some.inj hstep ▸ ht.accept owner h c
  | shutdown owner h shutRead shutWrite error stays => exact Option.some.inj hstep ▸ ht.shutdown hkps
  | sendLocalStream owner h length dontwait c => exact Option.some.inj hstep ▸ ht.sendLocalStream owner h length dontwait c
  | commitLocalStream owner h length => exact Option.some.inj hstep ▸ ht.commitLocalStream owner h length
  | commitLocalDgram owner h length address => exact Option.some.inj hstep ▸ ht.commitLocalDgram owner h length address
  | sendTcp owner h c =>
    refine Option.some.inj hstep ▸ ht.on fun i _ hi => ?_
    split
    · exact ht
    · exact ht.wait hi .writer c
  | sendUdp owner h answer =>
    refine Option.some.inj hstep ▸ ht.on fun i _ _ => ?_
    split
    · obtain ⟨settings, heq⟩ := bindAny_eq t i answer
      exact heq ▸ ht.of_settings settings
    · exact ht
  | recvfrom owner h length dontwait copied c => exact Option.some.inj hstep ▸ ht.recvfrom owner h length dontwait copied c
  | setFlags owner h nonblocking => exact Option.some.inj hstep ▸ ht.on fun i _ _ => ht.setSettings i _
  | getname owner h answer =>
    refine Option.some.inj hstep ▸ ht.on fun i _ _ => ?_
    split
    · exact ht.setSettings i _
    · exact ht
  | poll owner h poller =>
    refine Option.some.inj hstep ▸ ht.on fun i _ hi => ?_
    refine { ht with cleared := ⟨ht.cleared.queue, ht.cleared.pending, ht.cleared.waiter, fun w hw => ?_⟩ }
    rcases List.mem_cons.mp hw with rfl | hw
    · exact hi
    · exact ht.cleared.watches w hw
  | leave poller =>
    exact Option.some.inj hstep ▸ ht.roused ⟨t.waiter, _, rfl, fun _ _ => .inl rfl, fun w hw => (List.mem_filter.mp hw).1⟩
  | resume i r tid generation => exact Option.some.inj hstep ▸ ht.cancel i r tid generation
  | tick passed => exact Option.some.inj hstep ▸ ht.tick passed
  | cancelWaits tid generation => exact Option.some.inj hstep ▸ ht.cancelWaits tid generation
  | taskCleanup stays owner => exact Option.some.inj hstep ▸ ht.taskCleanup stays owner
  | tcpReceive b packet error =>
    simp only [Table.step, Option.ite_none_right_eq_some] at hstep
    refine ht.callback hstep.2 nofun fun i hi _ => ?_
    exact (ht.tcpReceive hi packet error).mapBlock (f := fun block => { block with refused := _ }) b fun _ => ⟨rfl, rfl, rfl⟩
  | tcpSent b => exact ht.callback hstep nofun fun i _ _ => ht.wake i .writer
  | tcpError b reset => exact ht.callback hstep nofun fun i hi hpcb => ht.tcpError hi hpcb reset
  | tcpConnected b error answer =>
    simp only [Table.step, Option.ite_none_right_eq_some] at hstep
    exact ht.callback hstep.2 nofun fun i hi hpcb => ht.tcpConnected hi hpcb error answer
  | tcpSyn b new =>
    dsimp only [Table.step] at hstep
    split at hstep
    · rename_i hb
      rw [Option.ite_none_right_eq_some] at hstep
      exact Option.some.inj hstep.2 ▸ ht.tcpSyn hb rfl hstep.1
    · cases hstep
  | tcpNoMemory b => exact ht.callback hstep nofun fun _ _ _ => ht
  | tcpAccept b local_ peer =>
    simp only [Table.step, Option.ite_none_right_eq_some, Option.some.injEq] at hstep
    exact hstep.2 ▸ ht.established hstep.1 local_ peer
  | udpReceive b length => exact ht.callback hstep nofun fun i hi _ => ht.enqueue hi length
  | rawReceive b length cloned =>
    refine ht.callback hstep nofun fun i hi _ => ?_
    unfold Table.queueRawPacket
    split
    · exact ht.enqueue hi length
    · exact ht
  | lwipFree b =>
    simp only [Table.step, Option.ite_none_left_eq_some, Option.some.injEq] at hstep
    exact hstep.2 ▸ ht.freeBlock b

/-! ## What can be relied on in the socket table -/

variable {t t' : Table} {i j l c b n : ℕ} {owner h : ℕ}

lemma isChain_boot (n : ℕ) : IsChain (nextPacket Table.boot.packets) (some n) (List.range (n + 1)).reverse := by
  induction n with
  | zero => exact ⟨rfl, rfl⟩
  | succ n ih =>
    rw [List.range_succ, List.reverse_append]
    exact ⟨rfl, ih⟩

/-- **The invariant holds when no socket has been open.** -/
theorem inv_boot : Inv .boot := by
  have hfree : ∀ i, Table.boot.state i = .free := fun _ => rfl
  refine ⟨fun i hi => absurd (hfree i) hi, ⟨(List.range packetCapacity).reverse, fun _ => [], ?_⟩, ⟨fun _ => [], ?_⟩,
    ?_, ?_, ?_, ?_⟩
  · exact ⟨isChain_boot 63, fun _ => isQueue_nil, nofun, nofun, fun p => by simp, fun _ => rfl, nofun⟩
  · refine ⟨fun l hl => absurd (hfree l) hl, fun _ _ => rfl, fun l hl => absurd (hfree l) hl, fun _ => Nat.le_refl _,
      nofun, nofun,
      fun c hc => absurd (hfree c) hc, fun _ _ => rfl⟩
  · refine ⟨fun i _ hi => absurd (hfree i) hi, fun i hi => ?_, fun i hi => ?_⟩
    · rw [hfree] at hi
      cases hi
    · exact absurd (hfree i) hi.ne_free
  · exact ⟨fun _ _ => rfl, fun _ _ => .inl rfl, fun _ _ _ => .inl rfl, nofun⟩
  · exact ⟨fun _ => rfl, fun i hi => absurd (hfree i) hi, nofun⟩
  · exact ⟨nofun, nofun, fun _ hnone => absurd rfl hnone⟩

/-- **The invariant holds in every run whose steps meet the condition.** -/
theorem inv_of_guarded (ht : sys.Guarded Keeps t) : Inv t :=
  ht.invariant (P := Inv) (fun s (hs : s = .boot) => hs ▸ inv_boot) fun _ _ _ hinv hkps hstep => hinv.step hkps hstep

/-! ### Callbacks -/

/-- A block that holds a socket is the block of that socket, which is still the one for which the callbacks were set. -/
def Current (t : Table) (b i life : ℕ) : Prop := t.state i ≠ .free ∧ t.lives i = life ∧ t.pcb i = some b

/-- **Callbacks find the socket for which they were set**, in every run in which no socket forgets a block that holds
it. A half-open block has the argument of the block that listens while that is there, and only its callback gets it.
-/
theorem callbacks_find_their_socket (ht : sys.Guarded Keeps t) :
    (∀ b block i life, t.blocks b = some block → block.kind ≠ .half → block.arg = some (i, life) → Current t b i life) ∧
      (∀ b block l i life, t.blocks b = some block → block.listener = some l → block.arg = some (i, life) →
        t.listens l = true ∧ Current t l i life) ∧
      ∀ e i life, t.runsOn e = some (i, life) → ∃ c b, Table.eventBlock e = some c ∧ Current t b i life ∧
        (b = c.1 ∨ ∃ block, t.blocks c.1 = some block ∧ block.listener = some b) := by
  have hinv := inv_of_guarded ht
  have hown : ∀ b block i life, t.blocks b = some block → block.kind ≠ .half → block.arg = some (i, life) →
    Current t b i life :=
    fun b block i life hb hkind harg => hinv.callbacks.arg b block i life hb ((if_neg hkind).trans harg)
  have hheir : ∀ b block l i life, t.blocks b = some block → block.listener = some l → block.arg = some (i, life) →
      t.listens l = true ∧ Current t l i life := by
    intro b block l i life hb hl harg
    obtain ⟨parent, hp, hkind, hnone | hsame⟩ := hinv.callbacks.heirs b block l hb hl
    · rw [hnone] at harg
      cases harg
    · refine ⟨?_, hown l parent i life hp (by rw [hkind]; exact nofun) (hsame.symm.trans harg)⟩
      unfold Table.listens
      rw [hp, Option.any_some, hkind]
      rfl
  refine ⟨hown, hheir, fun e i life hruns => ?_⟩
  unfold Table.runsOn at hruns
  obtain ⟨⟨b, kind⟩, hc, hargs⟩ := Option.bind_eq_some_iff.mp hruns
  unfold Table.argument at hargs
  obtain ⟨block, hb, hargs⟩ := Option.bind_eq_some_iff.mp hargs
  obtain ⟨⟨hkind, hlis⟩, harg⟩ := Option.ite_none_right_eq_some.mp hargs
  by_cases hhalf : kind = .half
  · obtain ⟨l, hl⟩ := Option.ne_none_iff_exists'.mp (hlis hhalf)
    exact ⟨_, l, hc, (hheir b block l i life hb hl harg).2, .inr ⟨block, hb, hl⟩⟩
  · exact ⟨_, b, hc, hown b block i life hb (hkind ▸ hhalf) harg, .inl rfl⟩

/-- A socket listens, one connection is accepted, and another one is half-open. -/
def accepting : List Event :=
  [.create 1 .inet .stream .tcp true (some 0), .listen 1 1073741889 4 (some (.inet 2 2)) (some 1), .tcpSyn 1 2,
    .tcpAccept 2 (.inet 2 2) (.inet 1 1), .tcpSyn 1 3, .tcpReceive 2 (some 4) false]

lemma guarded_accepting : sys.Guarded Keeps (sys.replay .boot accepting) := by
  refine System.replay_guarded (.init rfl) fun s e he => ?_
  simp only [accepting, List.mem_cons, List.not_mem_nil, or_false] at he
  rcases he with rfl | rfl | rfl | rfl | rfl | rfl <;> trivial

theorem callbacks_find_their_socket_accepting : Current (sys.replay .boot accepting) 2 1 1 ∧
    Current (sys.replay .boot accepting) 1 0 1 := by
  have hboth := callbacks_find_their_socket guarded_accepting
  refine ⟨hboth.1 2 ⟨.tcp, some (1, 1), false, false, false, none⟩ 1 1 ?_ nofun rfl,
    (hboth.2.1 3 ⟨.half, some (0, 1), false, false, false, some 1⟩ 1 0 1 ?_ rfl rfl).2⟩ <;> decide +kernel

/-- lwIP gives a half-open block the argument of the block that listens, and the block is not that of the socket; it
keeps it when the socket is closed. -/
theorem half_open_block_holds_listener : ∃ t, sys.Reachable t ∧ ∃ b block i life, t.blocks b = some block ∧
    block.arg = some (i, life) ∧
    t.state i = .free ∧ t.pcb i ≠ some b := by
  refine ⟨sys.replay .boot (accepting ++ [.close (fun _ => true) 1 1073741889]), System.replay_reachable (.init rfl) _, 3,
    ⟨.half, some (0, 1), false, false, false, none⟩, 0, 1, ?_⟩
  decide +kernel

/-- A connection is made and shut down in both directions, lwIP keeps its block, and the socket is closed. -/
def forgotten : List Event :=
  [.create 1 .inet .stream .tcp true (some 0), .connect 1 1073741889 (.inet 1 1) (some (.inet 2 2)) true,
    .tcpConnected 0 false (.inet 2 2), .shutdown 1 1073741889 true true .ok true, .close (fun _ => true) 1 1073741889]

/-- **The condition is needed.** The connection is reset, and the next owner of the slot gets the callback. -/
theorem callback_finds_another_socket : ∃ t, sys.Reachable t ∧ ∃ e life, t.runsOn e = some (0, life) ∧ (t.step e).isSome ∧
    t.state 0 ≠ .free ∧ t.owner 0 = 2 ∧ t.lives 0 ≠ life ∧ t.pcb 0 ≠ some 0 := by
  refine ⟨sys.replay .boot (forgotten ++ [.create 2 .inet .stream .tcp true (some 1)]),
    System.replay_reachable (.init rfl) _, .tcpError 0 true, 1, ?_⟩
  decide +kernel

/-! ### The table -/

/-- **What holds of the table.** -/
structure Sound (t : Table) : Prop where
  /-- every packet is in the free list or in the queue of one socket that is used, and the queues know their bytes -/
  packets : ∃ free lists, Pool t.packets t.packetFree t.queue free lists ∧ ∀ i, t.state i = .free → lists i = []
  /-- who waits to be accepted is in the list of its parent, which ends with its tail -/
  pending : ∃ lists : ℕ → List ℕ, ∀ l, t.state l ≠ .free →
    IsQueue (nextPending t.pending) (t.pending l).head (t.pending l).tail (lists l) ∧ (lists l).Nodup ∧
      (t.pending l).count = (lists l).length ∧ (t.pending l).count ≤ (t.pending l).backlog ∧
      ∀ c ∈ lists l, t.state c ≠ .free ∧ (t.pending c).parent = some l ∧ (t.pending c).parentGeneration = t.generation l
  /-- peers point at each other, or one points nowhere and knows that its peer is closed -/
  peers : ∀ i, t.state i ≠ .free →
    (∀ j, (t.peer i).slot = some j →
      t.localPeer i = some j ∧ j ≠ i ∧ (t.peer j).slot = some i ∧ (t.peer j).generation = t.generation i) ∧
      (t.state i = .localConnected → (t.peer i).slot = none → (t.peer i).closed)
  /-- a free slot is as `net_socket_dispose` or a `net_socket_create` that has failed leaves it, and nobody watches it -/
  cleared : ∀ i, t.state i = .free → t.queue i = .zero ∧ (t.pending i = .zero ∨ t.pending i = .init) ∧
    (∀ r, t.waiter i r = .zero ∨ t.waiter i r = .init) ∧ ∀ w ∈ t.watches, w.2 ≠ i
  /-- a handle is accepted for the socket and the owner for which it was issued, unless the slot has been used 2^24
  times since, counting that use -/
  handles : ∀ x ∈ t.issued, t.lives x.slot + 1 - x.life < 2 ^ 24 → ∀ owner i, t.find owner x.handle = some i →
    i = x.slot ∧ t.lives i = x.life ∧ owner = x.owner

lemma lifeGeneration_inj {m n : ℕ} (hm : 0 < m) (hle : m ≤ n) (hlt : n < m + generationMax)
    (heq : lifeGeneration n = lifeGeneration m) : n = m := by
  unfold lifeGeneration at heq
  rw [if_neg (by omega), if_neg (by omega)] at heq
  have hmod : (n - 1) % generationMax = (m - 1) % generationMax := Nat.succ.inj heq
  have hdvd := (Nat.modEq_iff_dvd' (show m - 1 ≤ n - 1 by omega)).mp hmod.symm
  have hzero := Nat.eq_zero_of_dvd_of_lt hdvd (by omega)
  omega

lemma handle_parts {g slot : ℕ} (hg : g ≤ generationMax) (hslot : slot < capacity) :
    (2 ^ 30 + g * 64 + (slot + 1)) % 64 = slot + 1 ∧ (2 ^ 30 + g * 64 + (slot + 1)) % 2 ^ 30 / 64 = g := by
  have hg' : g ≤ 16777215 := hg
  have hslot' : slot < 32 := hslot
  constructor <;> omega

lemma lifeGeneration_le (n : ℕ) : lifeGeneration n ≤ generationMax := by
  unfold lifeGeneration
  split
  · exact Nat.zero_le _
  · exact Nat.mod_lt _ (by decide)

lemma Inv.find_issued (ht : Inv t) {x : Issued} (hx : x ∈ t.issued) (hliv : t.lives x.slot + 1 - x.life < 2 ^ 24)
    (hfind : t.find owner x.handle = some i) : i = x.slot ∧ t.lives i = x.life ∧ owner = x.owner := by
  obtain ⟨hslot, hpos, hle, hhd, hownr⟩ := ht.handles.issued x hx
  obtain ⟨hlive, hown, hidx, hgen, -, -⟩ := find_spec hfind
  obtain ⟨hlow, hhigh⟩ := handle_parts (lifeGeneration_le x.life) hslot
  rw [hhd] at hidx hgen
  have hi : i = x.slot := by omega
  subst hi
  rw [hhigh, ht.handles.generation] at hgen
  have hlife := lifeGeneration_inj hpos hle (by simp only [generationMax]; omega) hgen
  exact ⟨rfl, hlife, hown.symm.trans (hownr hlife.symm hlive)⟩

lemma Inv.sound (ht : Inv t) : Sound t := by
  obtain ⟨free, lists, hpool⟩ := ht.pool
  obtain ⟨waiting, hw⟩ := ht.waiting
  refine ⟨⟨free, lists, hpool, fun i hi => ?_⟩, ⟨waiting, fun l hl => ?_⟩, fun i hi => ⟨fun j hj => ?_, ht.peers.alone i⟩,
    fun i hi => ?_, fun x hx hliv owner i hfind => ht.find_issued hx hliv hfind⟩
  · refine (hpool.isQueue i).eq_nil_iff.mpr ?_
    rw [ht.cleared.queue i hi]
    rfl
  · refine ⟨hw.isQueue l hl, (hw.isQueue l hl).chain.nodup, hw.count l hl, ?_, fun c hc => ?_⟩
    · rw [hw.count l hl]
      exact hw.backlog l
    · exact ⟨(hw.settled l c hc).1.ne_free, hw.child l c hc⟩
  · obtain ⟨hji, hlive, hgen, hback⟩ := ht.peers.mutual_ i j hi hj
    obtain ⟨-, -, hgen', -⟩ := ht.peers.mutual_ j i hlive hback
    refine ⟨?_, hji, hback, hgen'⟩
    unfold Table.localPeer Table.fromSlot
    rw [hj]
    have hbd := ht.bound j hlive
    have hnot : ¬(capacity ≤ j ∨ t.state j = .free ∨ t.generation j ≠ (t.peer i).generation) := by
      rintro (hle | hfree | hne)
      · omega
      · exact hlive hfree
      · exact hne hgen.symm
    exact if_neg hnot
  · exact ⟨ht.cleared.queue i hi, ht.cleared.pending i hi, fun r => ht.cleared.waiter i r hi, fun w hw heq =>
      ht.cleared.watches w hw (heq ▸ hi)⟩

/-- **The table is sound in every run** in which no socket forgets a block that holds it. -/
theorem table_is_sound (ht : sys.Guarded Keeps t) : Sound t := (inv_of_guarded ht).sound

theorem table_is_sound_accepting : ∃ free lists, Pool (sys.replay .boot accepting).packets
    (sys.replay .boot accepting).packetFree
    (sys.replay .boot accepting).queue free lists ∧ ∀ i, (sys.replay .boot accepting).state i = .free → lists i = [] :=
  (table_is_sound guarded_accepting).packets

/-- 65 segments of one byte come for a connection, and lwIP keeps the last one. The connection is shut down for
writing and then in both directions, and the socket is closed. -/
def refused : List Event :=
  [.create 1 .inet .stream .tcp true (some 0), .connect 1 1073741889 (.inet 1 1) (some (.inet 2 2)) true,
    .tcpConnected 0 false (.inet 2 2)] ++ List.replicate 65 (.tcpReceive 0 (some 1) false) ++
  [.shutdown 1 1073741889 false true .ok true, .shutdown 1 1073741889 true true .ok true, .close (fun _ => true) 1 1073741889]

/-- What lwIP has kept is then put into the queue of a free slot. -/
theorem free_slot_gets_packet : ∃ t, sys.Reachable t ∧ ¬Sound t := by
  refine ⟨sys.replay .boot (refused ++ [.tcpReceive 0 (some 1) false]), System.replay_reachable (.init rfl) _, fun hsound => ?_⟩
  have hqueue := (hsound.cleared 0 (by decide +kernel)).1
  revert hqueue
  decide +kernel

end PlantOS.Net.Slots

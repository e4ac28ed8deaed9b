import PlantOS.Ipc.System

/-!
# Every message is received once, or discarded by an exit

The queues of all tasks together hold the messages that have been sent and neither received nor discarded,
each in one slot of the queue of the task that it is for; the sequence numbers of a queue put them into the
order in which they have been sent.
-/

namespace PlantOS.Ipc.State

open Function (update update_apply update_of_ne)
open List (mem_append mem_map mem_singleton)

open PlantOS.Sched (Registry RegistryEvent SameTask taskSlotInUse)
open IpcHeader (accepts)

/-! ### The invariant -/

structure Filed (s : State) (t : ℕ) (i : Fin maxIpcMessage) (l : Letter) : Prop where
  sent : s.sent[(s.message t i).ticket]? = some l
  reply : l.kernelReply = false
  receiver : l.receiver = (t, (s.slot t).generation)
  info : (s.message t i).info = ⟨l.sender.1, l.sender.2, l.type, l.id, l.bytes.length⟩
  data : match (s.message t i).data with
    | none => l.bytes = []
    | some p => l.bytes ≠ [] ∧ s.payload p = some l.bytes

lemma Filed.congr {s s' : State} {t : ℕ} {i : Fin maxIpcMessage} {l : Letter} (hl : s.Filed t i l)
    (hmsg : s'.message t i = s.message t i) (hsent : ∀ l, s.sent[(s.message t i).ticket]? = some l →
      s'.sent[(s.message t i).ticket]? = some l) (hslot : (s'.slot t).generation = (s.slot t).generation)
    (hpay : ∀ p, (s.message t i).data = some p → s'.payload p = s.payload p) : s'.Filed t i l := by
  refine ⟨hmsg ▸ hsent l hl.sent, hl.reply, hslot ▸ hl.receiver, hmsg ▸ hl.info, ?_⟩
  have hdata := hl.data
  rw [hmsg]
  cases hp : (s.message t i).data with
  | none =>
    rw [hp] at hdata
    exact hdata
  | some p =>
    rw [hp] at hdata
    exact ⟨hdata.1, (hpay p hp).trans hdata.2⟩

def Queued (s : State) (n : ℕ) : Prop := ∃ t i, (s.message t i).used = true ∧ (s.message t i).ticket = n

structure Sound (s : State) : Prop where
  registry : s.registry.Sound
  live : ∀ t i, (s.message t i).used = true → t < s.registry.kernel.slotCount ∧ (s.slot t).state ≠ .empty
  filed : ∀ t i, (s.message t i).used = true → ∃ l, s.Filed t i l
  ticket_inj : ∀ t i u j, (s.message t i).used = true → (s.message u j).used = true →
    (s.message t i).ticket = (s.message u j).ticket → t = u ∧ i = j
  data_inj : ∀ t i u j p, (s.message t i).used = true → (s.message u j).used = true →
    (s.message t i).data = some p → (s.message u j).data = some p → t = u ∧ i = j
  seq_lt : ∀ t i, (s.message t i).used = true → (s.message t i).seq < (s.header t).seq
  seq_lt_iff : ∀ t i j, (s.message t i).used = true → (s.message t j).used = true →
    ((s.message t i).seq < (s.message t j).seq ↔ (s.message t i).ticket < (s.message t j).ticket)
  count : ∀ t, (s.header t).count = (s.header t).slots.length
  settled : ∀ n l, s.sent[n]? = some l → l.kernelReply = false →
    s.Queued n ∨ n ∈ s.received.map Receipt.ticket ∨ n ∈ s.discarded.map Discard.ticket
  received_nodup : (s.received.map Receipt.ticket).Nodup
  discarded_nodup : (s.discarded.map Discard.ticket).Nodup
  disjoint : ∀ n ∈ s.received.map Receipt.ticket, n ∉ s.discarded.map Discard.ticket
  waiting : ∀ n, s.Queued n → n ∉ s.received.map Receipt.ticket ∧ n ∉ s.discarded.map Discard.ticket
  receipt : ∀ r ∈ s.received, ∃ l, s.sent[r.ticket]? = some l ∧ l.kernelReply = false ∧ r.receiver = l.receiver ∧
    r.info = ⟨l.sender.1, l.sender.2, l.type, l.id, l.bytes.length⟩ ∧ ∀ bytes, r.copied = some bytes → bytes = l.bytes
  discard : ∀ d ∈ s.discarded, ∃ l, s.sent[d.ticket]? = some l ∧ l.kernelReply = false ∧ d.task = l.receiver
  overtaken : ∀ r ∈ s.received, ∀ i, (s.message r.receiver.1 i).used = true →
    (s.message r.receiver.1 i).ticket < r.ticket → accepts r.fromFilter (s.message r.receiver.1 i).fromTid = false
  ordered : s.received.Pairwise fun r r' => r.receiver = r'.receiver → r'.ticket < r.ticket →
    accepts r.fromFilter r'.info.fromTid = false
  accepted : ∀ r ∈ s.received, accepts r.fromFilter r.info.fromTid = true
  addressed : ∀ l ∈ s.sent, l.Addressed

variable {s s' : State} {t : ℕ} {i : Fin maxIpcMessage}

namespace Sound

lemma ticket_lt (h : s.Sound) (hused : (s.message t i).used = true) : (s.message t i).ticket < s.sent.length := by
  obtain ⟨l, hl⟩ := h.filed t i hused
  exact (List.getElem?_eq_some_iff.mp hl.sent).1

lemma received_lt (h : s.Sound) {r : Receipt} (hr : r ∈ s.received) : r.ticket < s.sent.length := by
  obtain ⟨l, hl, -⟩ := h.receipt r hr
  exact (List.getElem?_eq_some_iff.mp hl).1

lemma discarded_lt (h : s.Sound) {d : Discard} (hd : d ∈ s.discarded) : d.ticket < s.sent.length := by
  obtain ⟨l, hl, -⟩ := h.discard d hd
  exact (List.getElem?_eq_some_iff.mp hl).1

lemma identity_eq (h : s.Sound) (ht : t < s.registry.kernel.slotCount) :
    s.identity t = (t, (s.slot t).generation) := by
  unfold identity slot
  rw [h.registry.tid t ht]

lemma addressed_append (h : s.Sound) {l : Letter} (hl : l.Addressed) : ∀ l' ∈ s.sent ++ [l], l'.Addressed := by
  intro l' hl'
  rcases List.mem_append.mp hl' with hold | hnew
  · exact h.addressed l' hold
  · exact List.mem_singleton.mp hnew ▸ hl

lemma addressed_letter (h : s.Sound) {t : ℕ} {args : SendArgs} (ht : args.toTid < s.registry.kernel.slotCount)
    (hgen : args.toGeneration ≠ 0 → (s.slot args.toTid).generation = args.toGeneration) :
    (s.letter t args).Addressed := by
  unfold Letter.Addressed letter
  rw [h.identity_eq ht]
  exact ⟨rfl, hgen⟩

lemma init (h : s.Init) : s.Sound := by
  have hunus : ∀ t i, (s.message t i).used ≠ true := by
    intro t i
    unfold message
    rw [h.header t]
    exact nofun
  have hqud : ∀ n, ¬s.Queued n := fun n ⟨t, i, hused, _⟩ => hunus t i hused
  refine ⟨.init h.registry, fun t i hu => absurd hu (hunus t i), fun t i hu => absurd hu (hunus t i),
    fun t i _ _ hu => absurd hu (hunus t i), fun t i _ _ _ hu => absurd hu (hunus t i),
    fun t i hu => absurd hu (hunus t i), fun t i _ hu => absurd hu (hunus t i), fun t => ?_, ?_, ?_, ?_, ?_,
    fun n hn => absurd hn (hqud n), ?_, ?_, ?_, ?_, ?_, ?_⟩
  · rw [h.header t]
    decide
  · simp [h.sent]
  · simp [h.received]
  · simp [h.discarded]
  · simp [h.received]
  · simp [h.received]
  · simp [h.discarded]
  · simp [h.received]
  · simp [h.received]
  · simp [h.received]
  · simp [h.sent]

end Sound

/-! ### Queues that are kept and queues that are emptied -/

/-- The queues of the tasks in `gone` are emptied, the other queues are kept. -/
structure Carries (s s' : State) (gone : ℕ → Prop) (discards : List Discard) : Prop where
  registry : s'.registry.Sound
  emptied : ∀ t, gone t → (s'.header t).messages = (fun _ => .free) ∧ (s'.header t).count = 0
  kept : ∀ t, ¬gone t → (s'.header t).messages = (s.header t).messages ∧
    (s'.header t).count = (s.header t).count ∧ (s'.header t).seq = (s.header t).seq
  task : ∀ t < s.registry.kernel.slotCount, ¬gone t → SameTask s.registry.kernel s'.registry.kernel t
  payload : ∀ t i p, ¬gone t → (s.message t i).used = true → (s.message t i).data = some p →
    s'.payload p = s.payload p
  sent : s'.sent = s.sent
  received : s'.received = s.received
  discarded : s'.discarded = s.discarded ++ discards
  mem : ∀ d, d ∈ discards ↔ ∃ t i, gone t ∧ (s.message t i).used = true ∧
    d = ⟨(s.message t i).ticket, (t, (s.slot t).generation)⟩
  nodup : (discards.map Discard.ticket).Nodup

variable {gone : ℕ → Prop} {discards : List Discard}

namespace Carries

lemma used (hc : Carries s s' gone discards) (hused : (s'.message t i).used = true) :
    ¬gone t ∧ s'.message t i = s.message t i := by
  by_cases hgone : gone t
  · unfold message at hused
    rw [(hc.emptied t hgone).1] at hused
    cases hused
  · refine ⟨hgone, ?_⟩
    unfold message
    rw [(hc.kept t hgone).1]

lemma message_eq (hc : Carries s s' gone discards) (hgone : ¬gone t) (i : Fin maxIpcMessage) :
    s'.message t i = s.message t i := by
  unfold message
  rw [(hc.kept t hgone).1]

lemma queued (hc : Carries s s' gone discards) {n : ℕ} (h : s'.Queued n) :
    ∃ t i, ¬gone t ∧ (s.message t i).used = true ∧ (s.message t i).ticket = n := by
  obtain ⟨t, i, hused, hn⟩ := h
  obtain ⟨hgone, heq⟩ := hc.used hused
  rw [heq] at hused hn
  exact ⟨t, i, hgone, hused, hn⟩

lemma mem_tickets (hc : Carries s s' gone discards) (n : ℕ) :
    n ∈ discards.map Discard.ticket ↔ ∃ t i, gone t ∧ (s.message t i).used = true ∧ (s.message t i).ticket = n := by
  rw [mem_map]
  constructor
  · rintro ⟨d, hd, rfl⟩
    obtain ⟨t, i, hgone, hused, rfl⟩ := (hc.mem d).mp hd
    exact ⟨t, i, hgone, hused, rfl⟩
  · rintro ⟨t, i, hgone, hused, rfl⟩
    exact ⟨_, (hc.mem _).mpr ⟨t, i, hgone, hused, rfl⟩, rfl⟩

end Carries

lemma Sound.carry (h : s.Sound) (hc : Carries s s' gone discards) : s'.Sound := by
  have hdis : ∀ n ∈ discards.map Discard.ticket, s.Queued n := by
    intro n hn
    obtain ⟨t, i, -, hused, htick⟩ := (hc.mem_tickets n).mp hn
    exact ⟨t, i, hused, htick⟩
  have hmap : s'.discarded.map Discard.ticket = s.discarded.map Discard.ticket ++ discards.map Discard.ticket := by
    rw [hc.discarded, List.map_append]
  refine ⟨hc.registry, ?_, ?_, ?_, ?_, ?_, ?_, fun t => ?_, ?_, ?_, ?_, ?_, ?_, ?_, ?_, ?_, ?_, ?_, hc.sent ▸ h.addressed⟩
  · intro t i hused
    obtain ⟨hgone, heq⟩ := hc.used hused
    rw [heq] at hused
    obtain ⟨hlt, hst⟩ := h.live t i hused
    have htsk := hc.task t hlt hgone
    exact ⟨htsk.lt, fun he => hst (htsk.empty.mp he)⟩
  · intro t i hused
    obtain ⟨hgone, heq⟩ := hc.used hused
    rw [heq] at hused
    obtain ⟨l, hl⟩ := h.filed t i hused
    have htsk := hc.task t (h.live t i hused).1 hgone
    exact ⟨l, hl.congr heq (fun _ hl => hc.sent ▸ hl) htsk.generation fun p hp => hc.payload t i p hgone hused hp⟩
  · intro t i u j hused hused' heq
    have hi := (hc.used hused).2
    have hj := (hc.used hused').2
    rw [hi] at hused heq
    rw [hj] at hused' heq
    exact h.ticket_inj t i u j hused hused' heq
  · intro t i u j p hused hused' hp hp'
    have hi := (hc.used hused).2
    have hj := (hc.used hused').2
    rw [hi] at hused hp
    rw [hj] at hused' hp'
    exact h.data_inj t i u j p hused hused' hp hp'
  · intro t i hused
    obtain ⟨hgone, heq⟩ := hc.used hused
    rw [heq] at hused ⊢
    rw [(hc.kept t hgone).2.2]
    exact h.seq_lt t i hused
  · intro t i j hused hused'
    have hi := (hc.used hused).2
    have hj := (hc.used hused').2
    rw [hi] at hused ⊢
    rw [hj] at hused' ⊢
    exact h.seq_lt_iff t i j hused hused'
  · by_cases hgone : gone t
    · obtain ⟨hmsgs, hcnt⟩ := hc.emptied t hgone
      rw [hcnt]
      unfold IpcHeader.slots
      rw [hmsgs]
      rfl
    · obtain ⟨hmsgs, hcnt, -⟩ := hc.kept t hgone
      rw [hcnt, h.count t]
      unfold IpcHeader.slots
      rw [hmsgs]
  · intro n l hl hrep
    rw [hc.sent] at hl
    rw [hc.received, hmap, mem_append]
    rcases h.settled n l hl hrep with ⟨t, i, hused, htick⟩ | hrecv | hdisc
    · by_cases hgone : gone t
      · exact .inr (.inr (.inr ((hc.mem_tickets n).mpr ⟨t, i, hgone, hused, htick⟩)))
      · refine .inl ⟨t, i, ?_⟩
        rw [hc.message_eq hgone]
        exact ⟨hused, htick⟩
    · exact .inr (.inl hrecv)
    · exact .inr (.inr (.inl hdisc))
  · rw [hc.received]
    exact h.received_nodup
  · rw [hmap, List.nodup_append]
    refine ⟨h.discarded_nodup, hc.nodup, fun n hn m hm => ?_⟩
    rintro rfl
    exact (h.waiting n (hdis n hm)).2 hn
  · intro n hn
    rw [hc.received] at hn
    rw [hmap, mem_append, not_or]
    exact ⟨h.disjoint n hn, fun hd => (h.waiting n (hdis n hd)).1 hn⟩
  · intro n hn
    obtain ⟨t, i, hgone, hused, htick⟩ := hc.queued hn
    have hwait := h.waiting n ⟨t, i, hused, htick⟩
    rw [hc.received, hmap, mem_append, not_or]
    refine ⟨hwait.1, hwait.2, fun hd => ?_⟩
    obtain ⟨u, j, hgone', hused', htick'⟩ := (hc.mem_tickets n).mp hd
    obtain ⟨rfl, -⟩ := h.ticket_inj t i u j hused hused' (htick.trans htick'.symm)
    exact hgone hgone'
  · intro r hr
    rw [hc.received] at hr
    rw [hc.sent]
    exact h.receipt r hr
  · intro d hd
    rw [hc.sent]
    rw [hc.discarded, mem_append] at hd
    rcases hd with hd | hd
    · exact h.discard d hd
    · obtain ⟨t, i, -, hused, rfl⟩ := (hc.mem d).mp hd
      obtain ⟨l, hl⟩ := h.filed t i hused
      exact ⟨l, hl.sent, hl.reply, hl.receiver.symm⟩
  · intro r hr i hused hlt
    rw [hc.received] at hr
    have hi := (hc.used hused).2
    rw [hi] at hused hlt ⊢
    exact h.overtaken r hr i hused hlt
  · rw [hc.received]
    exact h.ordered
  · rw [hc.received]
    exact h.accepted

/-! ### A message is put into a queue -/

lemma bytes_length {args : SendArgs} (h : args.size ≠ 0 → args.data.isSome = true) :
    args.bytes.length = args.size := by
  unfold SendArgs.bytes
  cases hdata : args.data with
  | none =>
    rw [hdata] at h
    by_contra hsize
    exact absurd (h fun hz => hsize (by simp [hz])) (by simp)
  | some data => simp

/-- A slot of a queue is filled with a message. -/
structure Fills (s s' : State) (t : ℕ) (i : Fin maxIpcMessage) (l : Letter) : Prop where
  registry : s'.registry = s.registry
  live : t < s.registry.kernel.slotCount ∧ (s.slot t).state ≠ .empty
  free : (s.message t i).used = false
  filed : s'.Filed t i l
  addressed : l.Addressed
  used : (s'.message t i).used = true
  ticket : (s'.message t i).ticket = s.sent.length
  seq : (s'.message t i).seq = (s.header t).seq
  other : ∀ u j, ¬(u = t ∧ j = i) → s'.message u j = s.message u j
  header : ∀ u, u ≠ t → s'.header u = s.header u
  messages : (s'.header t).messages = update (s.header t).messages i (s'.message t i)
  next : (s'.header t).seq = (s.header t).seq + 1
  count : (s'.header t).count = (s.header t).count + 1
  payload : ∀ p, s.payload p ≠ none → s'.payload p = s.payload p
  data : ∀ p, (s'.message t i).data = some p → s.payload p = none
  sent : s'.sent = s.sent ++ [l]
  received : s'.received = s.received
  discarded : s'.discarded = s.discarded

namespace Fills

variable {l : Letter}

lemma cases (hf : Fills s s' t i l) {u : ℕ} {j : Fin maxIpcMessage} (hused : (s'.message u j).used = true) :
    (u = t ∧ j = i) ∨ (s'.message u j = s.message u j ∧ (s.message u j).used = true) := by
  by_cases heq : u = t ∧ j = i
  · exact .inl heq
  · have hoth := hf.other u j heq
    rw [hoth] at hused
    exact .inr ⟨hoth, hused⟩

lemma kept (hf : Fills s s' t i l) {u : ℕ} {j : Fin maxIpcMessage} (hused : (s.message u j).used = true) :
    s'.message u j = s.message u j := by
  refine hf.other u j ?_
  rintro ⟨rfl, rfl⟩
  rw [hf.free] at hused
  cases hused

lemma get (hf : Fills s s' t i l) {n : ℕ} {l' : Letter} (h : s.sent[n]? = some l') : s'.sent[n]? = some l' := by
  rw [hf.sent, List.getElem?_append_left (List.getElem?_eq_some_iff.mp h).1, h]

end Fills

lemma Filed.payload_eq {l : Letter} (hl : s.Filed t i l) {p : ℕ} (hp : (s.message t i).data = some p) :
    s.payload p = some l.bytes := by
  have hdata := hl.data
  rw [hp] at hdata
  exact hdata.2

lemma Sound.fill (h : s.Sound) {l : Letter} (hf : Fills s s' t i l) : s'.Sound := by
  have hnew : ∀ u j, (s.message u j).used = true → (s.message u j).ticket < (s'.message t i).ticket := by
    intro u j hused
    rw [hf.ticket]
    exact h.ticket_lt hused
  have hpay : ∀ u j p, (s.message u j).used = true → (s.message u j).data = some p → s.payload p ≠ none := by
    intro u j p hused hp
    obtain ⟨l', hl'⟩ := h.filed u j hused
    rw [hl'.payload_eq hp]
    exact nofun
  refine ⟨?_, ?_, ?_, ?_, ?_, ?_, ?_, fun u => ?_, ?_, ?_, ?_, ?_, ?_, ?_, ?_, ?_, ?_, ?_,
    hf.sent ▸ h.addressed_append hf.addressed⟩
  · rw [hf.registry]
    exact h.registry
  · intro u j hused
    unfold slot
    rw [hf.registry]
    rcases hf.cases hused with ⟨rfl, rfl⟩ | ⟨-, hold⟩
    · exact hf.live
    · exact h.live u j hold
  · intro u j hused
    rcases hf.cases hused with ⟨rfl, rfl⟩ | ⟨heq, hold⟩
    · exact ⟨l, hf.filed⟩
    · obtain ⟨l', hl'⟩ := h.filed u j hold
      refine ⟨l', hl'.congr heq (fun _ hl => hf.get hl) ?_ fun p hp => hf.payload p (hpay u j p hold hp)⟩
      unfold slot
      rw [hf.registry]
  · intro u j v k hused hused' heq
    rcases hf.cases hused with ⟨rfl, rfl⟩ | ⟨hj, hold⟩
    · rcases hf.cases hused' with ⟨rfl, rfl⟩ | ⟨hk, hold'⟩
      · exact ⟨rfl, rfl⟩
      · have := hnew v k hold'
        rw [hk] at heq
        omega
    · rcases hf.cases hused' with ⟨rfl, rfl⟩ | ⟨hk, hold'⟩
      · have := hnew u j hold
        rw [hj] at heq
        omega
      · rw [hj, hk] at heq
        exact h.ticket_inj u j v k hold hold' heq
  · intro u j v k p hused hused' hp hp'
    rcases hf.cases hused with ⟨rfl, rfl⟩ | ⟨hj, hold⟩
    · rcases hf.cases hused' with ⟨rfl, rfl⟩ | ⟨hk, hold'⟩
      · exact ⟨rfl, rfl⟩
      · rw [hk] at hp'
        exact absurd (hf.data p hp) (hpay v k p hold' hp')
    · rcases hf.cases hused' with ⟨rfl, rfl⟩ | ⟨hk, hold'⟩
      · rw [hj] at hp
        exact absurd (hf.data p hp') (hpay u j p hold hp)
      · rw [hj] at hp
        rw [hk] at hp'
        exact h.data_inj u j v k p hold hold' hp hp'
  · intro u j hused
    rcases hf.cases hused with ⟨rfl, rfl⟩ | ⟨hj, hold⟩
    · rw [hf.seq, hf.next]
      omega
    · have hlt := h.seq_lt u j hold
      rw [hj]
      by_cases hu : u = t
      · subst hu
        rw [hf.next]
        omega
      · rw [hf.header u hu]
        exact hlt
  · intro u j k hused hused'
    rcases hf.cases hused with ⟨rfl, rfl⟩ | ⟨hj, hold⟩
    · rcases hf.cases hused' with ⟨-, rfl⟩ | ⟨hk, hold'⟩
      · simp
      · have hlt := h.seq_lt u k hold'
        have htick := hnew u k hold'
        rw [hk, hf.seq]
        omega
    · rcases hf.cases hused' with ⟨rfl, rfl⟩ | ⟨hk, hold'⟩
      · have hlt := h.seq_lt u j hold
        have htick := hnew u j hold
        rw [hj, hf.seq]
        omega
      · rw [hj, hk]
        exact h.seq_lt_iff u j k hold hold'
  · by_cases hu : u = t
    · subst hu
      rw [hf.count, h.count u]
      exact (IpcHeader.length_slots_fill hf.free hf.used hf.messages).symm
    · rw [hf.header u hu]
      exact h.count u
  · intro n l' hl' hrep
    rw [hf.sent] at hl'
    rw [hf.received, hf.discarded]
    rcases Nat.lt_or_ge n s.sent.length with hlt | hge
    · rw [List.getElem?_append_left hlt] at hl'
      rcases h.settled n l' hl' hrep with ⟨u, j, hused, htick⟩ | hsett
      · refine .inl ⟨u, j, ?_⟩
        rw [hf.kept hused]
        exact ⟨hused, htick⟩
      · exact .inr hsett
    · refine .inl ⟨t, i, hf.used, ?_⟩
      have hlt := (List.getElem?_eq_some_iff.mp hl').1
      rw [List.length_append, List.length_singleton] at hlt
      rw [hf.ticket]
      omega
  · rw [hf.received]
    exact h.received_nodup
  · rw [hf.discarded]
    exact h.discarded_nodup
  · rw [hf.received, hf.discarded]
    exact h.disjoint
  · rintro n ⟨u, j, hused, rfl⟩
    rw [hf.received, hf.discarded]
    rcases hf.cases hused with ⟨rfl, rfl⟩ | ⟨hj, hold⟩
    · rw [hf.ticket]
      constructor
      · intro hmem
        obtain ⟨r, hr, heq⟩ := mem_map.mp hmem
        have := h.received_lt hr
        omega
      · intro hmem
        obtain ⟨d, hd, heq⟩ := mem_map.mp hmem
        have := h.discarded_lt hd
        omega
    · rw [hj]
      exact h.waiting _ ⟨u, j, hold, rfl⟩
  · intro r hr
    rw [hf.received] at hr
    obtain ⟨l', hl', hrest⟩ := h.receipt r hr
    exact ⟨l', hf.get hl', hrest⟩
  · intro d hd
    rw [hf.discarded] at hd
    obtain ⟨l', hl', hrest⟩ := h.discard d hd
    exact ⟨l', hf.get hl', hrest⟩
  · intro r hr j hused hlt
    rw [hf.received] at hr
    rcases hf.cases hused with ⟨heq, rfl⟩ | ⟨hj, hold⟩
    · rw [heq, hf.ticket] at hlt
      have := h.received_lt hr
      omega
    · rw [hj] at hlt ⊢
      exact h.overtaken r hr j hold hlt
  · rw [hf.received]
    exact h.ordered
  · rw [hf.received]
    exact h.accepted

attribute [local simp] sendReturns enqueue dequeue setHeader IpcHeader.ipcDropMessage IpcMessage.free

lemma fills_enqueue (h : s.Sound) {args : SendArgs} {data : Option ℕ}
    (hlive : args.toTid < s.registry.kernel.slotCount ∧ (s.slot args.toTid).state ≠ .empty)
    (hfree : (s.message args.toTid i).used = false) (hrep : args.kernelReply = false)
    (hsome : args.size ≠ 0 → args.data.isSome = true)
    (hgen : args.toGeneration ≠ 0 → (s.slot args.toTid).generation = args.toGeneration)
    (hdata : match data with
      | none => args.size = 0
      | some p => args.size ≠ 0 ∧ s.payload p = none) :
    Fills s (s.sendReturns t args (.ok ()) (s.enqueue t args i data)) args.toTid i (s.letter t args) := by
  have hlen : (s.letter t args).bytes.length = args.size := bytes_length hsome
  have hmsg : ∀ u j, (s.sendReturns t args (.ok ()) (s.enqueue t args i data)).message u j =
      if u = args.toTid ∧ j = i then
        ⟨true, data, args.size, (s.slot t).tid, (s.slot t).generation, args.type, args.id,
          (s.header args.toTid).seq, s.sent.length⟩
      else s.message u j := by
    intro u j
    unfold sendReturns enqueue setHeader message
    by_cases hu : u = args.toTid
    · subst hu
      by_cases hj : j = i
      · simp [hj]
      · simp [hj]
    · simp [hu]
  have hself := hmsg args.toTid i
  rw [if_pos ⟨rfl, rfl⟩] at hself
  have hblk : ∀ p, (s.sendReturns t args (.ok ()) (s.enqueue t args i data)).payload p =
      if data = some p then some args.bytes else s.payload p := by
    intro p
    unfold sendReturns enqueue
    cases data with
    | none => simp
    | some q => simp [update_apply, eq_comm]
  refine
    { registry := rfl
      live := hlive
      free := hfree
      filed := ⟨?_, hrep, ?_, ?_, ?_⟩
      addressed := h.addressed_letter hlive.1 hgen
      used := by rw [hself]
      ticket := by rw [hself]
      seq := by rw [hself]
      other := fun u j hne => by rw [hmsg, if_neg hne]
      header := fun u hu => by simp [hu]
      messages := ?_
      next := by simp
      count := by simp
      payload := fun p hp => ?_
      data := fun p hp => ?_
      sent := rfl
      received := rfl
      discarded := rfl }
  · rw [hself]
    show (s.sent ++ [_])[s.sent.length]? = _
    simp
  · exact h.identity_eq hlive.1
  · rw [hself]
    simp only [IpcMessage.info, hlen]
    rfl
  · rw [hself]
    cases data with
    | none =>
      rw [List.eq_nil_iff_length_eq_zero, hlen]
      exact hdata
    | some p =>
      refine ⟨?_, ?_⟩
      · rw [Ne, List.eq_nil_iff_length_eq_zero, hlen]
        exact hdata.1
      · rw [hblk, if_pos rfl]
        rfl
  · rw [hself]
    simp
  · rw [hblk]
    split_ifs with hq
    · rw [hq] at hdata
      exact absurd hdata.2 hp
    · rfl
  · rw [hself] at hp
    dsimp only at hp
    rw [hp] at hdata
    exact hdata.2

/-! ### A message is taken out of a queue -/

/-- The oldest message that a filter lets through is taken out of its slot. -/
structure Takes (s s' : State) (t : ℕ) (i : Fin maxIpcMessage) (r : Receipt) : Prop where
  registry : s'.registry = s.registry
  used : (s.message t i).used = true
  accepts : accepts r.fromFilter (s.message t i).fromTid = true
  oldest : ∀ j, (s.message t j).used = true → IpcHeader.accepts r.fromFilter (s.message t j).fromTid = true →
    (s.message t i).seq ≤ (s.message t j).seq
  cleared : (s'.message t i).used = false
  other : ∀ u j, ¬(u = t ∧ j = i) → s'.message u j = s.message u j
  header : ∀ u, u ≠ t → s'.header u = s.header u
  messages : (s'.header t).messages = update (s.header t).messages i (s'.message t i)
  next : (s'.header t).seq = (s.header t).seq
  count : (s'.header t).count = (s.header t).count - 1
  payload : ∀ p, (s.message t i).data ≠ some p → s'.payload p = s.payload p
  sent : s'.sent = s.sent
  received : s'.received = s.received ++ [r]
  discarded : s'.discarded = s.discarded
  ticket : r.ticket = (s.message t i).ticket
  receiver : r.receiver = (t, (s.slot t).generation)
  info : r.info = (s.message t i).info
  copied : ∀ bytes, r.copied = some bytes → bytes = s.block (s.message t i).data

lemma Filed.block_eq {l : Letter} (hl : s.Filed t i l) : s.block (s.message t i).data = l.bytes := by
  unfold block
  cases hp : (s.message t i).data with
  | none =>
    have hdata := hl.data
    rw [hp] at hdata
    exact hdata.symm
  | some p => simp [hl.payload_eq hp]

namespace Takes

variable {r : Receipt}

lemma remains (ht : Takes s s' t i r) {u : ℕ} {j : Fin maxIpcMessage} (hused : (s'.message u j).used = true) :
    ¬(u = t ∧ j = i) ∧ s'.message u j = s.message u j ∧ (s.message u j).used = true := by
  have hne : ¬(u = t ∧ j = i) := by
    rintro ⟨rfl, rfl⟩
    rw [ht.cleared] at hused
    cases hused
  have hoth := ht.other u j hne
  rw [hoth] at hused
  exact ⟨hne, hoth, hused⟩

end Takes

lemma Sound.take (h : s.Sound) {r : Receipt} (ht : Takes s s' t i r) : s'.Sound := by
  obtain ⟨l, hl⟩ := h.filed t i ht.used
  have hqud : s.Queued r.ticket := ⟨t, i, ht.used, ht.ticket.symm⟩
  have hmap : s'.received.map Receipt.ticket = s.received.map Receipt.ticket ++ [r.ticket] := by
    rw [ht.received, List.map_append, List.map_singleton]
  refine ⟨?_, ?_, ?_, ?_, ?_, ?_, ?_, fun u => ?_, ?_, ?_, ?_, ?_, ?_, ?_, ?_, ?_, ?_, ?_, ht.sent ▸ h.addressed⟩
  · rw [ht.registry]
    exact h.registry
  · intro u j hused
    unfold slot
    rw [ht.registry]
    exact h.live u j (ht.remains hused).2.2
  · intro u j hused
    obtain ⟨hne, hj, hold⟩ := ht.remains hused
    obtain ⟨l', hl'⟩ := h.filed u j hold
    refine ⟨l', hl'.congr hj (fun _ hl => ht.sent ▸ hl) ?_ fun p hp => ht.payload p fun hp' => hne ?_⟩
    · unfold slot
      rw [ht.registry]
    · exact h.data_inj u j t i p hold ht.used hp hp'
  · intro u j v k hused hused' heq
    obtain ⟨-, hj, hold⟩ := ht.remains hused
    obtain ⟨-, hk, hold'⟩ := ht.remains hused'
    rw [hj, hk] at heq
    exact h.ticket_inj u j v k hold hold' heq
  · intro u j v k p hused hused' hp hp'
    obtain ⟨-, hj, hold⟩ := ht.remains hused
    obtain ⟨-, hk, hold'⟩ := ht.remains hused'
    rw [hj] at hp
    rw [hk] at hp'
    exact h.data_inj u j v k p hold hold' hp hp'
  · intro u j hused
    obtain ⟨-, hj, hold⟩ := ht.remains hused
    have hlt := h.seq_lt u j hold
    rw [hj]
    by_cases hu : u = t
    · subst hu
      rwa [ht.next]
    · rwa [ht.header u hu]
  · intro u j k hused hused'
    obtain ⟨-, hj, hold⟩ := ht.remains hused
    obtain ⟨-, hk, hold'⟩ := ht.remains hused'
    rw [hj, hk]
    exact h.seq_lt_iff u j k hold hold'
  · by_cases hu : u = t
    · subst hu
      have hlen := IpcHeader.length_slots_clear ht.used ht.cleared ht.messages
      rw [ht.count, h.count u]
      omega
    · rw [ht.header u hu]
      exact h.count u
  · intro n l' hl' hrep
    rw [ht.sent] at hl'
    rw [hmap, ht.discarded, mem_append, mem_singleton]
    rcases h.settled n l' hl' hrep with ⟨u, j, hused, htick⟩ | hrecv | hdisc
    · by_cases heq : u = t ∧ j = i
      · obtain ⟨rfl, rfl⟩ := heq
        exact .inr (.inl (.inr (htick.symm.trans ht.ticket.symm)))
      · refine .inl ⟨u, j, ?_⟩
        rw [ht.other u j heq]
        exact ⟨hused, htick⟩
    · exact .inr (.inl (.inl hrecv))
    · exact .inr (.inr hdisc)
  · rw [hmap, List.nodup_append]
    refine ⟨h.received_nodup, List.nodup_singleton _, fun n hn m hm => ?_⟩
    rw [mem_singleton.mp hm]
    rintro rfl
    exact (h.waiting _ hqud).1 hn
  · rw [ht.discarded]
    exact h.discarded_nodup
  · intro n hn
    rw [hmap, mem_append, mem_singleton] at hn
    rw [ht.discarded]
    rcases hn with hn | rfl
    · exact h.disjoint n hn
    · exact (h.waiting _ hqud).2
  · rintro n ⟨u, j, hused, rfl⟩
    obtain ⟨hne, hj, hold⟩ := ht.remains hused
    have hwait := h.waiting _ ⟨u, j, hold, rfl⟩
    rw [hmap, ht.discarded, mem_append, mem_singleton, not_or, hj]
    refine ⟨⟨hwait.1, fun heq => hne ?_⟩, hwait.2⟩
    exact h.ticket_inj u j t i hold ht.used (heq.trans ht.ticket)
  · intro r' hr'
    rw [ht.sent]
    rw [ht.received, mem_append, mem_singleton] at hr'
    rcases hr' with hr' | rfl
    · exact h.receipt r' hr'
    · refine ⟨l, ?_, hl.reply, ht.receiver.trans hl.receiver.symm, ht.info.trans hl.info, fun bytes hbs => ?_⟩
      · rw [ht.ticket]
        exact hl.sent
      · rw [ht.copied bytes hbs, hl.block_eq]
  · intro d hd
    rw [ht.discarded] at hd
    rw [ht.sent]
    exact h.discard d hd
  · intro r' hr' j hused hlt
    obtain ⟨-, hj, hold⟩ := ht.remains hused
    rw [hj] at hlt ⊢
    rw [ht.received, mem_append, mem_singleton] at hr'
    rcases hr' with hr' | rfl
    · exact h.overtaken r' hr' j hold hlt
    · -- the received message is the oldest that its filter lets through
      rw [ht.receiver] at hold hlt ⊢
      rw [ht.ticket] at hlt
      have hseq := (h.seq_lt_iff t j i hold ht.used).mpr hlt
      by_contra hacc
      have := ht.oldest j hold (by simpa using hacc)
      omega
  · rw [ht.received, List.pairwise_append]
    refine ⟨h.ordered, List.pairwise_singleton _ _, fun r' hr' r'' hr'' heq hlt => ?_⟩
    rw [mem_singleton.mp hr''] at heq hlt ⊢
    have hrec : r'.receiver.1 = t := by rw [heq, ht.receiver]
    have hover := h.overtaken r' hr' i
    rw [hrec, ← ht.ticket] at hover
    rw [ht.info]
    exact hover ht.used hlt
  · intro r' hr'
    rw [ht.received, mem_append, mem_singleton] at hr'
    rcases hr' with hr' | rfl
    · exact h.accepted r' hr'
    · rw [ht.info]
      exact ht.accepts

lemma takes_dequeue (h : s.Sound) {args : RecvArgs} (hfind : (s.header t).ipcFindOldest args.fromFilter = some i) :
    Takes s
      (s.recvReturns t args ⟨.ok (s.message t i).size, some (s.message t i).info,
        if args.buffer then some (s.block (s.message t i).data) else none⟩ (s.dequeue t i)) t i
      ⟨(s.message t i).ticket, s.identity t, args.fromFilter, (s.message t i).info,
        if args.buffer then some (s.block (s.message t i).data) else none⟩ := by
  obtain ⟨hused, hacc, holdes⟩ := IpcHeader.ipcFindOldest_some hfind
  have hret : ∀ r : RecvResult, r = ⟨.ok (s.message t i).size, some (s.message t i).info,
      if args.buffer then some (s.block (s.message t i).data) else none⟩ →
      s.recvReturns t args r (s.dequeue t i) =
        { s.dequeue t i with
          call := update (s.dequeue t i).call t none
          received := s.received ++ [⟨(s.message t i).ticket, s.identity t, args.fromFilter, (s.message t i).info,
            if args.buffer then some (s.block (s.message t i).data) else none⟩] } := by
    rintro _ rfl
    unfold recvReturns
    rw [hfind]
  rw [hret _ rfl]
  refine
    { registry := rfl
      used := hused
      accepts := hacc
      oldest := holdes
      cleared := by simp [message]
      other := fun u j hne => ?_
      header := fun u hu => by simp [hu]
      messages := by simp [message]
      next := by simp
      count := by simp
      payload := fun p hp => ?_
      sent := rfl
      received := rfl
      discarded := rfl
      ticket := rfl
      receiver := h.identity_eq (h.live t i hused).1
      info := rfl
      copied := fun bytes hbs => ?_ }
  · unfold message dequeue setHeader IpcHeader.ipcDropMessage
    by_cases hu : u = t
    · subst hu
      have hj : j ≠ i := fun hj => hne ⟨rfl, hj⟩
      simp [hj]
    · simp [hu]
  · show freeBlock s.payload (s.message t i).data p = s.payload p
    cases hdata : (s.message t i).data with
    | none => rfl
    | some q =>
      rw [hdata] at hp
      exact update_of_ne (fun heq => hp (congrArg some heq.symm)) _ _
  · dsimp only at hbs
    split_ifs at hbs
    exact (Option.some.inj hbs).symm

/-! ### A queue is discarded -/

lemma Sound.mem_discards (h : s.Sound) (d : Discard) :
    d ∈ s.discards t ↔ ∃ i, (s.message t i).used = true ∧
      d = ⟨(s.message t i).ticket, (t, (s.slot t).generation)⟩ := by
  unfold discards
  simp only [mem_map, IpcHeader.mem_slots]
  constructor
  · rintro ⟨i, hused, rfl⟩
    exact ⟨i, hused, by rw [h.identity_eq (h.live t i hused).1]⟩
  · rintro ⟨i, hused, rfl⟩
    exact ⟨i, hused, by rw [h.identity_eq (h.live t i hused).1]⟩

lemma Sound.nodup_discards (h : s.Sound) (t : ℕ) : ((s.discards t).map Discard.ticket).Nodup := by
  unfold discards
  rw [List.map_map]
  refine List.Nodup.map_on (fun i hi j hj heq => ?_) IpcHeader.slots_nodup
  exact (h.ticket_inj t i t j (IpcHeader.mem_slots.mp hi) (IpcHeader.mem_slots.mp hj) heq).2

lemma dropMessages_payload {ipc : IpcHeader} {payload : ℕ → Option (List UInt8)} {p : ℕ}
    (h : ∀ i, (ipc.messages i).used = true → (ipc.messages i).data ≠ some p) :
    (dropMessages ipc payload).2 p = payload p := by
  have hfold : ∀ (l : List (Fin maxIpcMessage)) (q : IpcHeader × (ℕ → Option (List UInt8))),
      (∀ i, (q.1.messages i).used = true → (q.1.messages i).data ≠ some p) →
      (l.foldl (fun q i => if (q.1.messages i).used then
        (q.1.ipcDropMessage i, freeBlock q.2 (q.1.messages i).data) else q) q).2 p = q.2 p := by
    intro l
    induction l with
    | nil => exact fun q _ => rfl
    | cons i l ih =>
      intro q hq
      rw [List.foldl_cons]
      by_cases hused : (q.1.messages i).used = true
      · rw [if_pos hused, ih]
        · cases hdata : (q.1.messages i).data with
          | none => rfl
          | some r => exact update_of_ne (fun heq => hq i hused (hdata.trans (congrArg some heq.symm))) _ _
        · intro j hj
          by_cases heq : j = i
          · subst heq
            simp at hj
          · simp only [IpcHeader.ipcDropMessage, update_of_ne heq] at hj ⊢
            exact hq j hj
      · rw [if_neg hused]
        exact ih q hq
  exact hfold _ _ h

lemma Sound.carries_cleanup (h : s.Sound) (t : ℕ) :
    Carries s
      { s.ipcTaskCleanup t with
        call := update s.call t none
        discarded := s.discarded ++ s.discards t } (· = t) (s.discards t) := by
  have hhdr : ∀ u, ((s.ipcTaskCleanup t).header u).messages = (update s.header t ipcHeaderInit u).messages ∧
      ((s.ipcTaskCleanup t).header u).count = (update s.header t ipcHeaderInit u).count ∧
      ((s.ipcTaskCleanup t).header u).seq = (update s.header t ipcHeaderInit u).seq := by
    intro u
    unfold ipcTaskCleanup setHeader
    dsimp only
    split <;> exact ⟨rfl, rfl, rfl⟩
  refine ⟨h.registry, ?_, ?_, fun u hu _ => Sched.sameTask_of_eq hu rfl, ?_, rfl, rfl, rfl, fun d => ?_,
    h.nodup_discards t⟩
  · rintro u rfl
    obtain ⟨hmsgs, hcnt, -⟩ := hhdr u
    rw [Function.update_self] at hmsgs hcnt
    exact ⟨hmsgs, hcnt⟩
  · intro u hu
    have heq := hhdr u
    rw [update_of_ne hu] at heq
    exact heq
  · intro u i p hu hused hp
    exact dropMessages_payload fun j hj hdata => hu (h.data_inj u i t j p hused hj hp hdata).1
  · rw [h.mem_discards]
    simp

variable {online : ℕ → Bool}

lemma Sound.carries_registry (h : s.Sound) {e : RegistryEvent} {registry : Registry}
    (hstep : s.registry.step online e = some registry) :
    Carries s
      { s with
        registry := registry
        header := fun t => if s.registry.resets e t then ipcHeaderInit else s.header t
        call := fun t => if s.registry.resets e t then none else s.call t
        discarded := s.discarded ++ s.released e } (fun t => s.registry.resets e t = true) (s.released e) := by
  have hmem : ∀ d, d ∈ s.released e ↔ ∃ t i, s.registry.resets e t = true ∧ (s.message t i).used = true ∧
        d = ⟨(s.message t i).ticket, (t, (s.slot t).generation)⟩ := by
    intro d
    have hrel : ∀ t i, s.registry.resets e t = true → (s.message t i).used = true → e = .release t := by
      intro t i hres hused
      obtain ⟨hlt, hst⟩ := h.live t i hused
      exact ((Registry.step_kept h.registry hstep hlt).2 hres).resolve_left hst
    cases e with
    | release t =>
      rw [released, h.mem_discards]
      simp [Registry.resets]
    | claim | grow | fork | write | writeCpu =>
      simp only [released, List.not_mem_nil, false_iff]
      rintro ⟨t, i, hres, hused, -⟩
      cases hrel t i hres hused
  refine ⟨h.registry.step hstep, ?_, ?_, ?_, fun _ _ _ _ _ _ => rfl, rfl, rfl, rfl, hmem, ?_⟩
  · intro t ht
    dsimp only
    rw [if_pos ht]
    exact ⟨rfl, rfl⟩
  · intro t ht
    dsimp only
    rw [if_neg ht]
    exact ⟨rfl, rfl, rfl⟩
  · intro t ht hnot
    exact (Registry.step_kept h.registry hstep ht).1 (by simpa using hnot)
  · cases e with
    | release t => exact h.nodup_discards t
    | claim | grow | fork | write | writeCpu => exact List.nodup_nil

lemma Sound.same (h : s.Sound) (hreg : s'.registry = s.registry)
    (hhdr : ∀ t, (s'.header t).messages = (s.header t).messages ∧ (s'.header t).count = (s.header t).count ∧
      (s'.header t).seq = (s.header t).seq)
    (hpay : s'.payload = s.payload) (hsent : s'.sent = s.sent) (hrecv : s'.received = s.received)
    (hdisc : s'.discarded = s.discarded) : s'.Sound := by
  have hcar : Carries s s' (fun _ => False) [] := by
    refine ⟨?_, fun _ hf => hf.elim, fun t _ => hhdr t, fun t ht _ => ?_, fun _ _ _ _ _ _ => by rw [hpay],
      hsent, hrecv, by simp [hdisc], by simp, List.nodup_nil⟩
    · rw [hreg]
      exact h.registry
    · rw [hreg]
      exact Sched.sameTask_of_eq ht rfl
  exact h.carry hcar

/-! ### Steps -/

lemma live_of_getTask {tid : ℕ} {task : Sched.Mtask} (h : s.getTask tid = some task) :
    tid < s.registry.kernel.slotCount ∧ (s.slot tid).state ≠ .empty ∧ task = s.slot tid := by
  unfold getTask at h
  split_ifs at h with huse
  refine ⟨huse.1, fun he => ?_, (Option.some.inj h).symm⟩
  have hinUse := huse.2
  unfold taskSlotInUse at hinUse
  rw [he] at hinUse
  simp at hinUse

lemma Sound.sendReturns_error (h : s.Sound) (t : ℕ) (args : SendArgs) (err : IpcError) :
    (s.sendReturns t args (.error err) s).Sound :=
  h.same rfl (fun _ => ⟨rfl, rfl, rfl⟩) rfl rfl rfl rfl

lemma Sound.recvReturns_error (h : s.Sound) (t : ℕ) (args : RecvArgs) (err : IpcError) (info : Option IpcMsgInfo)
    (copied : Option (List UInt8)) : (s.recvReturns t args ⟨.error err, info, copied⟩ s).Sound :=
  h.same rfl (fun _ => ⟨rfl, rfl, rfl⟩) rfl rfl rfl rfl

/-- A reply to the kernel is sent, but no message of a queue. -/
lemma Sound.sendReturns_reply (h : s.Sound) {args : SendArgs} (hrep : args.kernelReply = true)
    (haddr : (s.letter t args).Addressed) : (s.sendReturns t args (.ok ()) s).Sound := by
  let l : Letter := s.letter t args
  have hget : ∀ {n : ℕ} {l' : Letter}, s.sent[n]? = some l' → (s.sent ++ [l])[n]? = some l' := by
    intro n l' hn
    rw [List.getElem?_append_left (List.getElem?_eq_some_iff.mp hn).1, hn]
  refine ⟨h.registry, h.live, ?_, h.ticket_inj, h.data_inj, h.seq_lt, h.seq_lt_iff, h.count, ?_, h.received_nodup,
    h.discarded_nodup, h.disjoint, h.waiting, ?_, ?_, h.overtaken, h.ordered, h.accepted, h.addressed_append haddr⟩
  · intro u j hused
    obtain ⟨l', hl'⟩ := h.filed u j hused
    exact ⟨l', hl'.congr rfl (fun _ hl => hget hl) rfl fun _ _ => rfl⟩
  · intro n l' hl' hnot
    have hl' : (s.sent ++ [l])[n]? = some l' := hl'
    rcases Nat.lt_or_ge n s.sent.length with hlt | hge
    · rw [List.getElem?_append_left hlt] at hl'
      exact h.settled n l' hl' hnot
    · rw [List.getElem?_append_right hge, List.getElem?_singleton] at hl'
      split_ifs at hl'
      cases hl'
      exact absurd (hrep.symm.trans hnot) nofun
  · intro r hr
    obtain ⟨l', hl', hrest⟩ := h.receipt r hr
    exact ⟨l', hget hl', hrest⟩
  · intro d hd
    obtain ⟨l', hl', hrest⟩ := h.discard d hd
    exact ⟨l', hget hl', hrest⟩

lemma ipcSend_cases (s : State) (t : ℕ) (args : SendArgs) :
    (∃ err, s.ipcSend t args = (some (.error err), s)) ∨
      (s.ipcSend t args = (none, s) ∧ args.kernelReply = false ∧ (args.size ≠ 0 → args.data.isSome = true)) ∨
      ∃ header, s.ipcSend t args = (some (.ok ()), { s with header := header }) ∧ args.kernelReply = true ∧
        (args.toTid < s.registry.kernel.slotCount ∧ (s.slot args.toTid).generation = args.toGeneration) ∧
        ∀ u, (header u).messages = (s.header u).messages ∧ (header u).count = (s.header u).count ∧
          (header u).seq = (s.header u).seq := by
  unfold ipcSend
  split_ifs with hsize hdata hrep
  · exact .inl ⟨_, rfl⟩
  · exact .inl ⟨_, rfl⟩
  · cases htsk : s.getTask args.toTid with
    | none => exact .inl ⟨_, rfl⟩
    | some target =>
      obtain ⟨hlt, -, rfl⟩ := live_of_getTask htsk
      dsimp only
      split_ifs with hgone
      · exact .inl ⟨_, rfl⟩
      · refine .inr (.inr ?_)
        have hgen : (s.slot args.toTid).generation = args.toGeneration := not_not.mp (not_or.mp hgone).2
        cases (s.header args.toTid).rpc with
        | none => exact ⟨s.header, rfl, hrep, ⟨hlt, hgen⟩, fun _ => ⟨rfl, rfl, rfl⟩⟩
        | some call =>
          dsimp only
          split_ifs with hlate
          · exact ⟨s.header, rfl, hrep, ⟨hlt, hgen⟩, fun _ => ⟨rfl, rfl, rfl⟩⟩
          · refine ⟨_, rfl, hrep, ⟨hlt, hgen⟩, fun u => ?_⟩
            by_cases hu : u = args.toTid
            · subst hu
              simp
            · simp [hu]
  · refine .inr (.inl ⟨rfl, by simpa using hrep, fun hne => ?_⟩)
    by_contra hnone
    exact hdata ⟨hne, by simpa using hnone⟩

lemma ipcSendPass_cases (s : State) (t : ℕ) (args : SendArgs) (deadline : ℕ) (memory : Option ℕ) :
    (s.ipcSendPass t args deadline memory = (none, s)) ∨
      (∃ err, s.ipcSendPass t args deadline memory = (some (.error err), s)) ∨
      ∃ i data, s.ipcSendPass t args deadline memory = (some (.ok ()), s.enqueue t args i data) ∧
        (s.message args.toTid i).used = false ∧
        (args.toTid < s.registry.kernel.slotCount ∧ (s.slot args.toTid).state ≠ .empty) ∧
        (args.toGeneration ≠ 0 → (s.slot args.toTid).generation = args.toGeneration) ∧
        match data with
        | none => args.size = 0
        | some p => args.size ≠ 0 ∧ memory = some p := by
  unfold ipcSendPass
  cases htsk : s.getTask args.toTid with
  | none => exact .inr (.inl ⟨_, rfl⟩)
  | some target =>
    obtain ⟨hlt, hst, rfl⟩ := live_of_getTask htsk
    dsimp only
    by_cases hgone : (s.slot args.toTid).state = .died ∨
        (args.toGeneration ≠ 0 ∧ (s.slot args.toTid).generation ≠ args.toGeneration)
    · rw [if_pos hgone]
      exact .inr (.inl ⟨_, rfl⟩)
    · rw [if_neg hgone]
      have hgen : args.toGeneration ≠ 0 → (s.slot args.toTid).generation = args.toGeneration := fun hne =>
        not_not.mp fun hnot => hgone (.inr ⟨hne, hnot⟩)
      cases hfree : (s.header args.toTid).ipcFindFree with
      | none =>
        dsimp only
        split_ifs
        · exact .inr (.inl ⟨_, rfl⟩)
        · exact .inr (.inl ⟨_, rfl⟩)
        · exact .inl rfl
      | some i =>
        have hused := IpcHeader.ipcFindFree_some hfree
        dsimp only
        split_ifs with hsize
        · exact .inr (.inr ⟨i, none, rfl, hused, ⟨hlt, hst⟩, hgen, hsize⟩)
        · cases memory with
          | none => exact .inr (.inl ⟨_, rfl⟩)
          | some p => exact .inr (.inr ⟨i, some p, rfl, hused, ⟨hlt, hst⟩, hgen, hsize, rfl⟩)

lemma ipcRecvPass_cases (s : State) (t : ℕ) (args : RecvArgs) (deadline : ℕ) :
    (s.ipcRecvPass t args deadline = (none, s)) ∨
      (∃ err info copied, s.ipcRecvPass t args deadline = (some ⟨.error err, info, copied⟩, s)) ∨
      ∃ i, (s.header t).ipcFindOldest args.fromFilter = some i ∧
        s.ipcRecvPass t args deadline =
          (some ⟨.ok (s.message t i).size, some (s.message t i).info,
            if args.buffer then some (s.block (s.message t i).data) else none⟩, s.dequeue t i) := by
  unfold ipcRecvPass
  cases hfind : (s.header t).ipcFindOldest args.fromFilter with
  | none =>
    dsimp only
    split
    · exact .inr (.inl ⟨_, _, _, rfl⟩)
    · split
      · exact .inr (.inl ⟨_, _, _, rfl⟩)
      · exact .inl rfl
  | some i =>
    dsimp only
    split
    · exact .inr (.inl ⟨_, _, _, rfl⟩)
    · exact .inr (.inr ⟨i, rfl, rfl⟩)

/-- A call of `ipc_send` that is in its loop has passed the checks before it. -/
def CallsChecked (s : State) : Prop :=
  ∀ t args deadline, s.call t = some (.send args deadline) →
    args.kernelReply = false ∧ (args.size ≠ 0 → args.data.isSome = true)

lemma CallsChecked.set (h : s.CallsChecked) (t : ℕ) (call : Option Call)
    (hcall : ∀ args deadline, call = some (.send args deadline) →
      args.kernelReply = false ∧ (args.size ≠ 0 → args.data.isSome = true))
    (hs : s'.call = update s.call t call) : s'.CallsChecked := by
  intro u args deadline hc
  rw [hs, update_apply] at hc
  split_ifs at hc
  · exact hcall args deadline hc
  · exact h u args deadline hc

lemma CallsChecked.returns (h : s.CallsChecked) (t : ℕ) (hs : s'.call = update s.call t none) :
    s'.CallsChecked := h.set t none nofun hs

lemma sameQueues_rpc (s : State) (t : ℕ) (rpc : Option RpcPending) (u : ℕ) :
    ((s.setHeader t { s.header t with rpc := rpc }).header u).messages = (s.header u).messages ∧
      ((s.setHeader t { s.header t with rpc := rpc }).header u).count = (s.header u).count ∧
      ((s.setHeader t { s.header t with rpc := rpc }).header u).seq = (s.header u).seq := by
  unfold setHeader
  by_cases hu : u = t
  · subst hu
    simp
  · simp [hu]

/-- One step keeps both. -/
lemma Sound.step {e : IpcEvent} (h : s.Sound) (hcll : s.CallsChecked)
    (hs : s.step online e = some s') : s'.Sound ∧ s'.CallsChecked := by
  cases e with
  | registry e =>
    obtain ⟨registry, hstep, rfl⟩ := Option.map_eq_some_iff.mp hs
    refine ⟨h.carry (h.carries_registry hstep), ?_⟩
    intro u args deadline hcall
    dsimp only at hcall
    split at hcall
    · cases hcall
    · exact hcll u args deadline hcall
  | send t args =>
    simp only [State.step] at hs
    split at hs
    case isFalse => cases hs
    case isTrue =>
      rcases s.ipcSend_cases t args with ⟨err, heq⟩ | ⟨heq, hrep, hsome⟩ | ⟨header, heq, hrep, hto, hhdr⟩ <;>
        rw [heq] at hs <;> cases hs
      · exact ⟨h.sendReturns_error t args err, hcll.returns t rfl⟩
      · refine ⟨h.same rfl (fun _ => ⟨rfl, rfl, rfl⟩) rfl rfl rfl rfl,
          hcll.set t (some (.send args _)) (fun args' deadline hcall => ?_) rfl⟩
        cases hcall
        exact ⟨hrep, hsome⟩
      · have hsame : State.Sound { s with header := header } := h.same rfl hhdr rfl rfl rfl rfl
        exact ⟨hsame.sendReturns_reply hrep (hsame.addressed_letter hto.1 fun _ => hto.2), hcll.returns t rfl⟩
  | recv t args =>
    simp only [State.step] at hs
    split at hs
    case isFalse => cases hs
    case isTrue =>
      cases hs
      exact ⟨h.same rfl (fun _ => ⟨rfl, rfl, rfl⟩) rfl rfl rfl rfl, hcll.set t (some (.recv args _)) nofun rfl⟩
  | pass t memory =>
    simp only [State.step] at hs
    split at hs
    case isFalse => cases hs
    case isTrue hgrd =>
      cases hcall : s.call t with
      | none =>
        rw [hcall] at hs
        cases hs
      | some call =>
        rw [hcall] at hs
        cases call with
        | send args deadline =>
          obtain ⟨hrep, hsome⟩ := hcll t args deadline hcall
          dsimp only at hs
          rcases s.ipcSendPass_cases t args deadline memory with heq | ⟨err, heq⟩ | ⟨i, data, heq, hfree, hlive, hgen,
            hdata⟩ <;>
            rw [heq] at hs <;> cases hs
          · exact ⟨h, hcll⟩
          · exact ⟨h.sendReturns_error t args err, hcll.returns t rfl⟩
          · refine ⟨h.fill (fills_enqueue h hlive hfree hrep hsome hgen ?_), hcll.returns t rfl⟩
            cases data with
            | none => exact hdata
            | some p =>
              refine ⟨hdata.1, ?_⟩
              have hblk := hgrd.2
              rw [hdata.2] at hblk
              simpa using hblk
        | recv args deadline =>
          dsimp only at hs
          rcases s.ipcRecvPass_cases t args deadline with heq | ⟨err, info, copied, heq⟩ | ⟨i, hfind, heq⟩ <;>
            rw [heq] at hs <;> cases hs
          · exact ⟨h, hcll⟩
          · exact ⟨h.recvReturns_error t args err info copied, hcll.returns t rfl⟩
          · refine ⟨h.take (takes_dequeue h hfind), hcll.returns t ?_⟩
            unfold recvReturns
            rw [hfind]
            rfl
  | peek t fromFilter =>
    cases hs
    exact ⟨h, hcll⟩
  | cleanup t =>
    simp only [State.step] at hs
    split at hs
    case isFalse => cases hs
    case isTrue =>
      cases hs
      exact ⟨h.carry (h.carries_cleanup t), hcll.returns t rfl⟩
  | rpcBegin t server opcode reply timeoutMs =>
    simp only [State.step] at hs
    split at hs
    case isFalse => cases hs
    case isTrue =>
      cases hs
      exact ⟨h.same rfl (s.sameQueues_rpc t _) rfl rfl rfl rfl, hcll⟩
  | rpcEnd t =>
    cases hs
    exact ⟨h.same rfl (s.sameQueues_rpc t _) rfl rfl rfl rfl, hcll⟩
  | tick =>
    cases hs
    exact ⟨h.same rfl (fun _ => ⟨rfl, rfl, rfl⟩) rfl rfl rfl rfl, hcll⟩

lemma sound_of_reachable (hs : (ipcSystem online).Reachable s) : s.Sound := by
  have hboth : s.Sound ∧ s.CallsChecked := by
    refine Lib.System.Reachable.invariant (P := fun s => s.Sound ∧ s.CallsChecked) (fun s hi => ⟨.init hi, ?_⟩)
      (fun s e s' h hstep => h.1.step h.2 hstep) hs
    intro t args deadline hcall
    rw [State.Init.call hi t] at hcall
    cases hcall
  exact hboth.1

/-! ### Delivery -/

def Once (s : State) (n : ℕ) : Prop :=
  (s.Queued n ∧ n ∉ s.received.map Receipt.ticket ∧ n ∉ s.discarded.map Discard.ticket) ∨
    (¬s.Queued n ∧ (s.received.map Receipt.ticket).count n = 1 ∧ n ∉ s.discarded.map Discard.ticket) ∨
    (¬s.Queued n ∧ n ∉ s.received.map Receipt.ticket ∧ (s.discarded.map Discard.ticket).count n = 1)

/-- Every message that has been sent, among those that count, is in one place: it waits in one slot of the
queue of the task that it is for, or that task has received it as it was sent, or the exit of that task has
discarded it. -/
def Delivers (s : State) (counts : Letter → Prop) : Prop :=
  ∀ n l, s.sent[n]? = some l → counts l → s.Once n ∧ l.Addressed ∧
    (∀ t i, (s.message t i).used = true → (s.message t i).ticket = n → l.receiver = (t, (s.slot t).generation) ∧
      ∀ u j, (s.message u j).used = true → (s.message u j).ticket = n → u = t ∧ j = i) ∧
    (∀ r ∈ s.received, r.ticket = n → r.receiver = l.receiver ∧
      r.info = ⟨l.sender.1, l.sender.2, l.type, l.id, l.bytes.length⟩ ∧
      ∀ bytes, r.copied = some bytes → bytes = l.bytes) ∧
    ∀ d ∈ s.discarded, d.ticket = n → d.task = l.receiver

/-- A task receives the messages of a sender, and those that it asks for by one filter, in the order in which
they have been sent. -/
def InOrder (s : State) : Prop :=
  ∀ task : ℕ × ℕ,
    (∀ tid, (s.received.filter fun r => r.receiver = task ∧ r.info.fromTid = tid).Pairwise (·.ticket < ·.ticket)) ∧
    ∀ fromFilter, (s.received.filter fun r => r.receiver = task ∧ r.fromFilter = fromFilter).Pairwise
      (·.ticket < ·.ticket)

/-- Every message of some bytes in a queue has a block of its own that holds them. -/
def OwnPayloads (s : State) : Prop :=
  ∀ t i, (s.message t i).used = true → 0 < (s.message t i).size →
    ∃ p bytes, (s.message t i).data = some p ∧ s.payload p = some bytes ∧ bytes.length = (s.message t i).size ∧
      ∀ u j, (s.message u j).used = true → (s.message u j).data = some p → u = t ∧ j = i

lemma Sound.once (h : s.Sound) {n : ℕ} {l : Letter} (hl : s.sent[n]? = some l) (hrep : l.kernelReply = false) :
    s.Once n := by
  by_cases hqud : s.Queued n
  · exact .inl ⟨hqud, h.waiting n hqud⟩
  · rcases (h.settled n l hl hrep).resolve_left hqud with hrecv | hdisc
    · exact .inr (.inl ⟨hqud, List.count_eq_one_of_mem h.received_nodup hrecv, h.disjoint n hrecv⟩)
    · exact .inr (.inr ⟨hqud, fun hrecv => h.disjoint n hrecv hdisc,
        List.count_eq_one_of_mem h.discarded_nodup hdisc⟩)

lemma Sound.delivers (h : s.Sound) : s.Delivers fun l => l.kernelReply = false := by
  intro n l hl hrep
  refine ⟨h.once hl hrep, h.addressed l (List.mem_of_getElem? hl), ?_, ?_, ?_⟩
  · rintro t i hused rfl
    obtain ⟨l', hl'⟩ := h.filed t i hused
    obtain rfl := Option.some.inj (hl.symm.trans hl'.sent)
    exact ⟨hl'.receiver, fun u j hused' heq => h.ticket_inj u j t i hused' hused heq⟩
  · rintro r hr rfl
    obtain ⟨l', hl', -, hrest⟩ := h.receipt r hr
    obtain rfl := Option.some.inj (hl.symm.trans hl')
    exact hrest
  · rintro d hd rfl
    obtain ⟨l', hl', -, htsk⟩ := h.discard d hd
    obtain rfl := Option.some.inj (hl.symm.trans hl')
    exact htsk

lemma Sound.pairwise_received (h : s.Sound) {P : Receipt → Bool}
    (hP : ∀ r ∈ s.received, ∀ r' ∈ s.received, P r = true → P r' = true →
      r.receiver = r'.receiver ∧ accepts r.fromFilter r'.info.fromTid = true) :
    (s.received.filter P).Pairwise (·.ticket < ·.ticket) := by
  have hnd : s.received.Pairwise fun r r' => r.ticket ≠ r'.ticket := List.pairwise_map.mp h.received_nodup
  refine ((h.ordered.and hnd).filter P).imp_of_mem ?_
  intro r r' hr hr' ⟨hord, hne⟩
  rw [List.mem_filter] at hr hr'
  obtain ⟨hrec, hacc⟩ := hP r hr.1 r' hr'.1 hr.2 hr'.2
  by_contra hnot
  rw [hord hrec (by omega)] at hacc
  cases hacc

lemma Sound.inOrder (h : s.Sound) : s.InOrder := by
  intro task
  refine ⟨fun tid => h.pairwise_received fun r hr r' hr' hpr hpr' => ?_,
    fun fromFilter => h.pairwise_received fun r hr r' hr' hpr hpr' => ?_⟩
  · simp only [decide_eq_true_eq] at hpr hpr'
    refine ⟨hpr.1.trans hpr'.1.symm, ?_⟩
    rw [hpr'.2, ← hpr.2]
    exact h.accepted r hr
  · simp only [decide_eq_true_eq] at hpr hpr'
    refine ⟨hpr.1.trans hpr'.1.symm, ?_⟩
    rw [hpr.2, ← hpr'.2]
    exact h.accepted r' hr'

lemma Sound.ownPayloads (h : s.Sound) : s.OwnPayloads := by
  intro t i hused hsize
  obtain ⟨l, hl⟩ := h.filed t i hused
  have hlen : (s.message t i).size = l.bytes.length := congrArg IpcMsgInfo.size hl.info
  cases hp : (s.message t i).data with
  | none =>
    have hdata := hl.data
    rw [hp] at hdata
    rw [hlen, hdata] at hsize
    cases hsize
  | some p =>
    refine ⟨p, l.bytes, rfl, hl.payload_eq hp, hlen.symm, fun u j hused' hp' => ?_⟩
    exact h.data_inj u j t i p hused' hused hp' hp

/-- **Every message that is not the reply to a call of the kernel is received once by the task that it is for,
or discarded by its exit, and the messages come in the order in which they have been sent.** -/
theorem ipc_delivery {online : ℕ → Bool} (hs : (ipcSystem online).Reachable s) :
    s.Delivers (fun l => l.kernelReply = false) ∧ s.InOrder ∧
      (∀ t args deadline info copied,
        (s.ipcRecvPass t args deadline).1 = some ⟨.error .toobig, info, copied⟩ →
          (s.ipcRecvPass t args deadline).2 = s) ∧
      (∀ t, (s.header t).count = (s.header t).slots.length) ∧ s.OwnPayloads := by
  have h := sound_of_reachable hs
  refine ⟨h.delivers, h.inOrder, fun t args deadline info copied htoobig => ?_, h.count, h.ownPayloads⟩
  rcases s.ipcRecvPass_cases t args deadline with heq | ⟨err, info, copied, heq⟩ | ⟨i, -, heq⟩
  · rw [heq]
  · rw [heq]
  · rw [heq] at htoobig
    cases htoobig

/-! ### A message and a late reply -/

/-- The state behind the claim of the slot `t`. -/
def claimed (s : State) (t : ℕ) : State :=
  { s with
    registry := s.registry.record (s.registry.kernel.claimSlot t, some t)
    header := fun u => if s.registry.kernel.slotCount ≤ u || some t = some u then ipcHeaderInit else s.header u
    call := fun u => if s.registry.kernel.slotCount ≤ u || some t = some u then none else s.call u
    discarded := s.discarded ++ [] }

lemma step_claimed (memory : ℕ → Sched.GrowMemory) (h : s.registry.kernel.firstEmpty false = some t) :
    (ipcSystem online).step s (.registry (.claim false memory)) = some (s.claimed t) := by
  have hcl : s.registry.kernel.taskSlotClaim memory false = (s.registry.kernel.claimSlot t, some t) := by
    rw [Sched.Kernel.taskSlotClaim, h]
    rfl
  unfold ipcSystem
  simp only [State.step, Registry.step, Registry.resets, released, claimed, hcl, Option.map_some]

def boot : State where
  registry := Sched.noSlots
  header := fun _ => ipcHeaderInit
  payload := fun _ => none
  now := 0
  rpcNextId := rpcKernelCall
  call := fun _ => none
  sent := []
  received := []
  discarded := []

def started (s : State) (t : ℕ) : State :=
  (ipcSystem fun _ => true).replay s [.registry (.write t { s.slot t with state := .running })]

def twoTasks : State :=
  let s := (ipcSystem fun _ => true).replay boot [.registry (.grow ⟨true, true⟩)]
  (((s.claimed 1).started 1).claimed 2).started 2

lemma started_reachable (hs : (ipcSystem fun _ => true).Reachable s) (t : ℕ) :
    (ipcSystem fun _ => true).Reachable (s.started t) := Lib.System.replay_reachable hs _

lemma twoTasks_reachable : (ipcSystem fun _ => true).Reachable twoTasks := by
  have hboot : (ipcSystem fun _ => true).Reachable boot :=
    .init (show boot.Init from ⟨⟨rfl, rfl, rfl, fun _ => rfl⟩, fun _ => rfl, rfl, fun _ => rfl, rfl, rfl, rfl⟩)
  have hgrn := Lib.System.replay_reachable hboot [.registry (.grow ⟨true, true⟩)]
  have hone := hgrn.step trivial (step_claimed (t := 1) (fun _ => ⟨true, true⟩) rfl)
  have htwo := (started_reachable hone 1).step trivial
    (step_claimed (t := 2) (fun _ => ⟨true, true⟩) rfl)
  exact started_reachable htwo 2

def note (type id : ℕ) : SendArgs := ⟨2, 1, type, id, none, 0, false, 0⟩

/-- The task 2 receives what the task 1 has sent. -/
theorem ipc_delivery_note : ∃ s, (ipcSystem fun _ => true).Reachable s ∧ s.sent.length = 1 ∧
    s.received.map Receipt.ticket = [0] ∧ s.Delivers (fun l => l.kernelReply = false) := by
  have hs := Lib.System.replay_reachable twoTasks_reachable
    [.send 1 (note 7 0), .pass 1 none, .recv 2 ⟨true, 8, ipcAnyTid, false, 0⟩, .pass 2 none]
  exact ⟨_, hs, rfl, rfl, (ipc_delivery hs).1⟩

/-- A reply for which no call of the kernel waits is dropped, and `ipc_send` returns `IPC_OK`. -/
theorem late_reply_dropped : ∃ s, (ipcSystem fun _ => true).Reachable s ∧ ¬s.Delivers fun _ => True := by
  have hs := Lib.System.replay_reachable twoTasks_reachable [.send 1 (note rpcTypeReply rpcKernelCall)]
  refine ⟨_, hs, fun h => ?_⟩
  obtain ⟨⟨⟨t, i, hused, hticket⟩, -⟩ | ⟨-, hreceived, -⟩ | ⟨-, -, hdiscarded⟩, -⟩ := h 0 _ rfl trivial
  · obtain ⟨l, hl⟩ := (sound_of_reachable hs).filed t i hused
    have hsent := hl.sent
    rw [hticket] at hsent
    cases hsent
    cases hl.reply
  · cases hreceived
  · cases hdiscarded

end PlantOS.Ipc.State

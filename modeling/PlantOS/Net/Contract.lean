import PlantOS.Net.Streams

/-!
# Sends, receives and the other calls

What `net_socket_queue_local` and `net_socket_recvfrom` do to the streams, and that every step keeps the invariant.
-/

namespace PlantOS.Net

open Lib
open Function (update update_of_ne update_self)

variable {s s' : NetState} {i j t : ℕ}

/-! ### Sends -/

/-- What `net_socket_queue_local` has done -/
structure Queued (s s' : NetState) (i p : ℕ) (e : Accepted) : Prop where
  free : s.free = p :: s'.free
  socket : s'.sockets i = { s.sockets i with
    queue := (s.sockets i).queue ++ [p], queuedBytes := (s.sockets i).queuedBytes + e.data.length }
  others : ∀ k, k ≠ i → s'.sockets k = s.sockets k
  packets : s'.packets = update s.packets p ⟨e.data, 0⟩
  accepted : s'.accepted = s.accepted ++ [e]
  same : s'.foreign = s.foreign ∧ s'.pc = s.pc ∧ s'.lives = s.lives ∧ s'.calls = s.calls ∧ s'.partner = s.partner ∧
    s'.returned = s.returned ∧ s'.ended = s.ended ∧ s'.outcomes = s.outcomes

lemma queueLocal_queued {e : Accepted} (he : s.queueLocal i e = some s') : ∃ p, Queued s s' i p e := by
  unfold NetState.queueLocal at he
  dsimp only at he
  split at he
  · cases he
  · rename_i p free hfree
    split_ifs at he
    cases he
    exact ⟨p, hfree, update_self .., fun k hk => update_of_ne hk .., rfl, rfl, rfl, rfl, rfl, rfl, rfl, rfl, rfl,
      rfl⟩

lemma Queued.pool {p : ℕ} {e : Accepted} (hq : Queued s s' i p e) (h : Pool s) (hi : (s.sockets i).state ≠ .free)
    (hdata : e.data ≠ []) : Pool s' := by
  have hlist := h.free
  rw [hq.free] at hlist
  obtain ⟨hpfr, hlist⟩ := List.nodup_cons.mp hlist
  have hp : p ∈ s.free := by
    rw [hq.free]
    exact List.mem_cons_self
  have hsub : ∀ q ∈ s'.free, q ∈ s.free := fun q hmem => by
    rw [hq.free]
    exact .tail _ hmem
  have hqu : ∀ q k, q ∈ (s'.sockets k).queue ↔ q ∈ (s.sockets k).queue ∨ k = i ∧ q = p := by
    intro q k
    by_cases hk : k = i
    · rw [hk, hq.socket, List.mem_append, List.mem_singleton]
      exact or_congr_right ⟨fun heq => ⟨rfl, heq⟩, And.right⟩
    · rw [hq.others k hk]
      exact ⟨.inl, Or.rec id fun hcase => absurd hcase.1 hk⟩
  refine ⟨hlist, hq.same.1 ▸ h.foreign, fun k => ?_, fun q hmem => ?_, fun q hmem k => ?_, fun q hmem k => ?_,
    fun k l hne q hmem => ?_, fun k q hmem => ?_, fun k hk => ?_⟩
  · by_cases hk : k = i
    · rw [hk, hq.socket]
      refine List.nodup_append.mpr ⟨h.queue i, List.nodup_singleton p, fun q hold r hr heq => ?_⟩
      exact h.freeQueue p hp i (List.mem_singleton.mp hr ▸ heq ▸ hold)
    · rw [hq.others k hk]
      exact h.queue k
  · rw [hq.same.1]
    exact h.freeForeign q (hsub q hmem)
  · rw [hqu]
    rintro (hold | ⟨-, rfl⟩)
    · exact h.freeQueue q (hsub q hmem) k hold
    · exact hpfr hmem
  · rw [hq.same.1] at hmem
    rw [hqu]
    rintro (hold | ⟨-, rfl⟩)
    · exact h.foreignQueue q hmem k hold
    · exact h.freeForeign q hp hmem
  · rw [hqu] at hmem ⊢
    rintro (hold | ⟨hl, rfl⟩)
    · rcases hmem with hmem | ⟨-, rfl⟩
      · exact h.apart k l hne q hmem hold
      · exact h.freeQueue q hp l hold
    · rcases hmem with hmem | ⟨hk, -⟩
      · exact h.freeQueue q hp k hmem
      · exact hne (hk.trans hl.symm)
  · rw [hq.packets]
    by_cases hqp : q = p
    · rw [hqp, update_self]
      exact List.length_pos_of_ne_nil hdata
    · rw [update_of_ne hqp]
      refine h.left k q ?_
      rcases (hqu q k).mp hmem with hold | ⟨-, heq⟩
      · exact hold
      · exact absurd heq hqp
  · have hki : k ≠ i := fun heq => by
      rw [heq, hq.socket] at hk
      exact hi hk
    rw [hq.others k hki] at hk ⊢
    exact h.blank k hk

/-- **An accepted block is at the end of the stream**, and waits there. -/
lemma Inv.queueLocal (h : Inv s) {e : Accepted} (hi : (s.sockets i).state ≠ .free) (hdata : e.data ≠ [])
    (hrecv : e.receiver = (s.sockets i).life) (hpart : s.partner e.receiver = some e.sender)
    (hopen : (s.sockets i).peerClosed = false) (he : s.queueLocal i e = some s') : Inv s' := by
  obtain ⟨p, hq⟩ := queueLocal_queued he
  obtain ⟨-, -, hliv, -, hpar, hret, hend, -⟩ := hq.same
  have hp : p ∈ s.free := by
    rw [hq.free]
    exact List.mem_cons_self
  have hpkts : ∀ k, ∀ q ∈ (s.sockets k).queue, s'.packets q = s.packets q := fun k q hmem => by
    rw [hq.packets]
    exact update_of_ne (fun heq : q = p => h.pool.freeQueue p hp k (heq ▸ hmem)) ..
  have hsame : ∀ k, (s'.sockets k).core = (s.sockets k).core := by
    intro k
    by_cases hk : k = i
    · rw [hk, hq.socket]
      rfl
    · rw [hq.others k hk]
  refine ⟨hq.pool h.pool hi hdata, h.table.congr hsame hpar hliv, fun k hk hread => ?_, fun n => ?_, fun n hn => ?_,
    fun n hn => ?_, fun e' he' => ?_⟩
  · rw [hq.accepted, stream_append, hrecv, hret]
    by_cases hki : k = i
    · rw [hki, hq.socket] at hk hread ⊢
      dsimp only at hk hread ⊢
      rw [if_pos rfl, h.bytes.content i hk hread, List.append_assoc]
      congr 1
      unfold content
      rw [List.flatMap_append]
      refine congrArg₂ _ (content_congr (hpkts i)).symm ?_
      rw [List.flatMap_singleton, hq.packets, update_self]
      exact List.drop_zero.symm
    · rw [hq.others k hki] at hk hread ⊢
      rw [if_neg fun heq => hki (h.table.one k i hk hi heq.symm), List.append_nil, content_congr (hpkts k)]
      exact h.bytes.content k hk hread
  · rw [hret, hq.accepted, stream_append]
    exact (h.bytes.ahead n).trans (List.prefix_append ..)
  · rw [hend] at hn
    obtain ⟨hall, hlt, hcls⟩ := h.bytes.ended n hn
    rw [hliv]
    refine ⟨?_, hlt, fun k hk heq => ?_⟩
    · -- the receiver is not one that has seen its end
      have hne : e.receiver ≠ n := fun heq => by
        have hcls := hcls i hi (hrecv.symm.trans heq)
        rw [hopen] at hcls
        cases hcls
      rw [hret, hq.accepted, stream_append, if_neg hne, List.append_nil]
      exact hall
    · obtain ⟨hst, hlife, -, -, hpeer⟩ := core_eq (hsame k)
      rw [hpeer]
      exact hcls k (hst ▸ hk) (hlife ▸ heq)
  · rw [hliv] at hn
    have hne : e.receiver ≠ n := fun heq => by
      have hlt := h.table.life i hi
      rw [← hrecv, heq] at hlt
      exact absurd hn (Nat.not_le.mpr hlt)
    rw [hret, hq.accepted, stream_append, if_neg hne, List.append_nil]
    exact h.bytes.unborn n hn
  · rw [hpar]
    rw [hq.accepted] at he'
    rcases List.mem_append.mp he' with hold | hnew
    · exact h.bytes.partners e' hold
    · rw [List.mem_singleton.mp hnew]
      exact hpart

/-! ### Receives -/

lemma take_socket (s : NetState) (i length : ℕ) : (s.take i length).sockets i = { s.sockets i with
    queue := (drain s.packets (s.sockets i).queue length).queue
    queuedBytes := (s.sockets i).queuedBytes - (drain s.packets (s.sockets i).queue length).taken.length } :=
  update_self ..

lemma Pool.take (h : Pool s) (hi : (s.sockets i).state ≠ .free) (length : ℕ) : Pool (s.take i length) := by
  have hself := take_socket s i length
  have hoth : ∀ k, k ≠ i → (s.take i length).sockets k = s.sockets k := fun k hk => update_of_ne hk ..
  have hspl := drain_freed s.packets (s.sockets i).queue length
  have hnd := h.queue i
  rw [← hspl, List.nodup_append] at hnd
  obtain ⟨hfreedNodup, hrestNodup, hapar⟩ := hnd
  have hfrd : ∀ p ∈ (drain s.packets (s.sockets i).queue length).freed, p ∈ (s.sockets i).queue := fun p hp => by
    rw [← hspl]
    exact List.mem_append_left _ hp
  have hrest : ∀ k, ∀ p ∈ ((s.take i length).sockets k).queue, p ∈ (s.sockets k).queue ∧
      p ∉ (drain s.packets (s.sockets i).queue length).freed := by
    intro k p hp
    by_cases hk : k = i
    · rw [hk, hself] at hp
      refine ⟨?_, fun hmem => hapar p hmem p hp rfl⟩
      rw [hk, ← hspl]
      exact List.mem_append_right _ hp
    · rw [hoth k hk] at hp
      exact ⟨hp, fun hmem => h.apart k i hk p hp (hfrd p hmem)⟩
  have hfree : ∀ p, p ∈ (s.take i length).free ↔ p ∈ (drain s.packets (s.sockets i).queue length).freed ∨ p ∈ s.free :=
    fun p => by
    change p ∈ (drain s.packets (s.sockets i).queue length).freed.reverse ++ s.free ↔ _
    rw [List.mem_append, List.mem_reverse]
  refine ⟨?_, h.foreign, fun k => ?_, fun p hp => ?_, fun p hp k hk => ?_, fun p hp k hk => ?_, fun k l hne p hk hl => ?_,
    fun k p hp => ?_, fun k hk => ?_⟩
  · refine List.nodup_append.mpr ⟨List.nodup_reverse.mpr hfreedNodup, h.free, fun p hp q hq heq => ?_⟩
    exact h.freeQueue q hq i (heq ▸ hfrd p (List.mem_reverse.mp hp))
  · by_cases hk : k = i
    · rw [hk, hself]
      exact hrestNodup
    · rw [hoth k hk]
      exact h.queue k
  · exact ((hfree p).mp hp).elim (fun hmem hforn => h.foreignQueue p hforn i (hfrd p hmem)) (h.freeForeign p)
  · obtain ⟨hqu, hnot⟩ := hrest k p hk
    exact ((hfree p).mp hp).elim hnot fun hmem => h.freeQueue p hmem k hqu
  · exact h.foreignQueue p hp k (hrest k p hk).1
  · exact h.apart k l hne p (hrest k p hk).1 (hrest l p hl).1
  · change ((drain s.packets (s.sockets i).queue length).packets p).offset <
      ((drain s.packets (s.sockets i).queue length).packets p).data.length
    by_cases hk : k = i
    · rw [hk, hself] at hp
      exact drain_left s.packets (s.sockets i).queue length (h.queue i) (h.left i) p hp
    · rw [hoth k hk] at hp
      rw [drain_packets _ _ _ (h.apart k i hk p hp)]
      exact h.left k p hp
  · have hki : k ≠ i := fun heq => by
      rw [heq, hself] at hk
      exact hi hk
    rw [hoth k hki] at hk ⊢
    exact h.blank k hk

/-- **What a receive takes goes from the queue to its caller.** -/
lemma Inv.take (h : Inv s) (hi : (s.sockets i).state ≠ .free) (hread : (s.sockets i).shutdownRead = false) (length : ℕ) :
    Inv (s.take i length) := by
  have hself := take_socket s i length
  have hoth : ∀ k, k ≠ i → (s.take i length).sockets k = s.sockets k := fun k hk => update_of_ne hk ..
  have hret : (s.take i length).returned (s.sockets i).life =
      s.returned (s.sockets i).life ++ (drain s.packets (s.sockets i).queue length).taken := update_self ..
  have hreturnedOther : ∀ n, n ≠ (s.sockets i).life → (s.take i length).returned n = s.returned n := fun n hn =>
    update_of_ne hn ..
  have hcont := h.bytes.content i hi hread
  have hdrain := drain_content s.packets (s.sockets i).queue length (h.pool.queue i)
  rw [hdrain, ← List.append_assoc] at hcont
  have hsame : ∀ k, ((s.take i length).sockets k).core = (s.sockets k).core := by
    intro k
    by_cases hk : k = i
    · rw [hk, hself]
      rfl
    · rw [hoth k hk]
  refine ⟨h.pool.take hi length, h.table.congr hsame rfl rfl, fun k hk hshut => ?_, fun n => ?_, fun n hn => ?_, fun n hn => ?_,
    h.bytes.partners⟩
  · by_cases hki : k = i
    · rw [hki, hself]
      dsimp only
      rw [hret]
      exact hcont
    · rw [hoth k hki] at hk hshut ⊢
      rw [hreturnedOther _ fun heq => hki (h.table.one k i hk hi heq)]
      refine (h.bytes.content k hk hshut).trans (congrArg _ (content_congr fun p hp => ?_).symm)
      exact drain_packets _ _ _ (h.pool.apart k i hki p hp)
  · by_cases hn : n = (s.sockets i).life
    · rw [hn, hret]
      exact ⟨_, hcont.symm⟩
    · rw [hreturnedOther n hn]
      exact h.bytes.ahead n
  · obtain ⟨hall, hlt, hcls⟩ := h.bytes.ended n hn
    refine ⟨?_, hlt, fun k hk heq => ?_⟩
    · by_cases hni : n = (s.sockets i).life
      · -- all was taken before
        rw [hni] at hall ⊢
        rw [hret]
        have hnil : (drain s.packets (s.sockets i).queue length).taken = [] := by
          have hlen := congrArg List.length (hall.trans hcont)
          rw [List.length_append, List.length_append] at hlen
          exact List.eq_nil_of_length_eq_zero (by omega)
        rw [hnil, List.append_nil]
        exact hall
      · rw [hreturnedOther n hni]
        exact hall
    · obtain ⟨hst, hlife, -, -, hpeer⟩ := core_eq (hsame k)
      rw [hpeer]
      exact hcls k (hst ▸ hk) (hlife ▸ heq)
  · refine ⟨(h.bytes.unborn n hn).1, ?_⟩
    rw [hreturnedOther n fun heq => ?_]
    · exact (h.bytes.unborn n hn).2
    · exact absurd (h.table.life i hi) (Nat.not_lt.mpr (heq ▸ hn))

/-- **The end of a stream is seen** when the other end is closed and nothing waits. -/
lemma Inv.atEnd (h : Inv s) (hi : (s.sockets i).state ≠ .free) (hread : (s.sockets i).shutdownRead = false)
    (hqu : (s.sockets i).queue = []) (hcls : (s.sockets i).peerClosed = true) : Inv (s.atEnd i) := by
  have hcont := h.bytes.content i hi hread
  rw [hqu] at hcont
  refine ⟨h.pool.congr (fun _ => rfl) (fun _ => Or.inl) ⟨rfl, rfl, rfl⟩, h.table.congr (fun _ => rfl) rfl rfl, h.bytes.content,
    h.bytes.ahead, fun n hn => ?_, h.bytes.unborn, h.bytes.partners⟩
  rcases List.mem_cons.mp hn with rfl | hold
  · refine ⟨(hcont.trans (List.append_nil _)).symm, h.table.life i hi, fun k hk heq => ?_⟩
    rw [h.table.one k i hk hi heq]
    exact hcls
  · exact h.bytes.ended n hold

/-! ### The other calls -/

lemma find_live {owner : ℕ} {h : Handle} (he : s.find owner h = some i) : i < capacity ∧ (s.sockets i).state ≠ .free := by
  unfold NetState.find at he
  dsimp only at he
  rw [Option.ite_none_right_eq_some] at he
  obtain ⟨⟨hlt, -, hlive, -⟩, he⟩ := he
  cases he
  exact ⟨hlt, hlive⟩

lemma Inv.goto (h : Inv s) (t : ℕ) (pc : Pc) : Inv (s.goto t pc) := h.congr ⟨rfl, rfl, rfl, rfl, rfl, rfl, rfl, rfl, rfl⟩

lemma Inv.sent (h : Inv s) (t : ℕ) (c : Send) (result : Except NetError ℕ) : Inv (s.sent t c result) :=
  h.congr ⟨rfl, rfl, rfl, rfl, rfl, rfl, rfl, rfl, rfl⟩

lemma Inv.shutdown (h : Inv s) (i : ℕ) (shutRead shutWrite : Bool) (hi : (s.sockets i).state ≠ .free) :
    Inv (s.shutdown i shutRead shutWrite) := by
  have hread : Inv (if shutRead then (s.set i { s.sockets i with shutdownRead := true }).clear i else s) := by
    split_ifs
    · have hset : Inv (s.set i { s.sockets i with shutdownRead := true }) :=
        h.set ⟨.inl rfl, rfl, rfl, rfl, .inl rfl, id, .inl, nofun⟩ rfl
      refine hset.clear fun _ => ?_
      unfold NetState.set
      dsimp only
      rw [update_self]
    · exact h
  have hlive : ((if shutRead then (s.set i { s.sockets i with shutdownRead := true }).clear i else s).sockets i).state ≠ .free := by
    split_ifs
    · unfold NetState.clear NetState.set
      dsimp only
      rw [update_self, update_self]
      exact hi
    · exact hi
  unfold NetState.shutdown
  dsimp only
  generalize (if shutRead then (s.set i { s.sockets i with shutdownRead := true }).clear i else s) = s₁ at hread hlive ⊢
  split_ifs
  · have hwr : Inv (s₁.set i { s₁.sockets i with shutdownWrite := true }) :=
      hread.set ⟨.inl rfl, rfl, rfl, rfl, .inl rfl, id, .inl, id⟩ rfl
    split
    · rename_i j hj
      have hlive : ((s₁.set i { s₁.sockets i with shutdownWrite := true }).sockets i).state ≠ .free := by
        unfold NetState.set
        dsimp only
        rw [update_self]
        exact hlive
      obtain ⟨hlink, -⟩ := hwr.table.linked hlive hj
      exact hwr.set ⟨.inl rfl, rfl, rfl, rfl, .inl rfl, fun _ => rfl, fun _ => .inr hlink.other, id⟩ rfl
    · exact hwr
  · exact hread

lemma Inv.connect (h : Inv s) {l : ℕ} (hi : i < capacity) (hrdy : (s.sockets i).state = .ready)
    (he : s.connect i l = .ok s') : Inv s' := by
  unfold NetState.connect at he
  split_ifs at he
  split at he
  · cases he
  · rename_i child s₁ hresv
    cases he
    have hsin : Single s i := h.single hi (by rw [hrdy]; exact nofun) (by rw [hrdy]; exact nofun)
    obtain ⟨hne, hi₁⟩ := hsin.reserve hresv
    have hchd := h.fresh_single (by exact nofun) hresv
    have h₁ : Inv s₁ := by
      obtain ⟨-, hfree, rfl⟩ := reserve_cases hresv
      exact h.reserve hfree _
    exact ((h₁.link hne hi₁ hchd).setPending l _).setParent child _

lemma Inv.pair (h : Inv s) (owner : ℕ) : Inv (s.pair owner) := by
  unfold NetState.pair
  split
  · exact h
  · rename_i left s₁ hleft
    have h₁ : Inv s₁ := by
      obtain ⟨-, hfree, rfl⟩ := reserve_cases hleft
      exact h.reserve hfree _
    split
    · exact h₁.dispose _ _
    · rename_i right s₂ hrig
      have h₂ : Inv s₂ := by
        obtain ⟨-, hfree, rfl⟩ := reserve_cases hrig
        exact h₁.reserve hfree _
      obtain ⟨hne, hleft₂⟩ := (h.fresh_single (by exact nofun) hleft).reserve hrig
      exact h₂.link hne hleft₂ (h₁.fresh_single (by exact nofun) hrig)

lemma Inv.trySend (h : Inv s) (t : ℕ) (c : Send) (waits : Option NetError) (mallocOk : Bool) :
    Inv (s.trySend t c waits mallocOk) := by
  unfold NetState.trySend
  split
  · exact h.sent ..
  · split
    · exact h.sent ..
    · split_ifs
      · exact h.sent ..
      · exact h.sent ..
      · split
        · exact h.sent ..
        · exact h
      · exact h.goto ..
      · exact h.sent ..

lemma Inv.commitSend (h : Inv s) (t : ℕ) (c : Send) (hdata : c.data ≠ []) : Inv (s.commitSend t c) := by
  unfold NetState.commitSend
  split
  · exact h.sent ..
  · rename_i i hfind
    split
    · exact h.sent ..
    · rename_i j hj
      obtain ⟨hlink, -⟩ := h.table.linked (find_live hfind).2 hj
      by_cases hcls : (s.sockets j).peerClosed = true
      · rw [if_pos hcls]
        exact h.sent ..
      · rw [if_neg hcls]
        dsimp only
        split
        · rename_i s₁ hqu
          rw [Option.ite_none_right_eq_some] at hqu
          refine (h.queueLocal ?_ hdata rfl hlink.partner (Bool.eq_false_iff.mpr hcls) hqu.2).sent ..
          rw [hlink.other]
          exact nofun
        · split_ifs
          · exact h.sent ..
          · exact h.goto ..

lemma Inv.receive (h : Inv s) (t : ℕ) (c : Receive) (waits : Option NetError) : Inv (s.receive t c waits) := by
  unfold NetState.receive
  split
  · exact h.goto ..
  · rename_i i hfind
    have hi := (find_live hfind).2
    split_ifs with hread hlen hqu htk hcls
    · exact (h.clear fun _ => hread).goto ..
    · exact h.goto ..
    · exact absurd htk (drain_taken s.packets (h.pool.left i) hqu hlen)
    · exact (h.take hi (Bool.eq_false_iff.mpr hread) _).goto ..
    · exact (h.atEnd hi (Bool.eq_false_iff.mpr hread) (Decidable.not_not.mp hqu) hcls).goto ..
    · exact h.goto ..
    · split
      · exact h.goto ..
      · exact h

lemma Inv.on (h : Inv s) {owner : ℕ} {handle : Handle} {f : ℕ → NetState} (he : s.on owner handle f = some s')
    (hf : ∀ i, i < capacity → (s.sockets i).state ≠ .free → Inv (f i)) : Inv s' := by
  unfold NetState.on at he
  split at he
  · cases he
    exact h
  · rename_i i hfind
    split_ifs at he
    cases he
    exact hf i (find_live hfind).1 (find_live hfind).2

lemma Inv.foreign (h : Inv s) {free foreign : List ℕ} (hperm : (free ++ foreign).Perm (s.free ++ s.foreign)) :
    Inv { s with free, foreign } := by
  have hnd : (free ++ foreign).Nodup :=
    hperm.nodup_iff.mpr (List.nodup_append.mpr ⟨h.pool.free, h.pool.foreign,
    fun p hp q hq heq => h.pool.freeForeign p hp (heq ▸ hq)⟩)
  obtain ⟨hfree, hforn, hapar⟩ := List.nodup_append.mp hnd
  have hqu : ∀ p ∈ free ++ foreign, ∀ i, p ∉ (s.sockets i).queue := fun p hp i =>
    (List.mem_append.mp (hperm.mem_iff.mp hp)).elim (fun hmem => h.pool.freeQueue p hmem i) fun hmem =>
    h.pool.foreignQueue p hmem i
  exact ⟨⟨hfree, hforn, h.pool.queue, fun p hp hmem => hapar p hp p hmem rfl, fun p hp => hqu p (List.mem_append_left _ hp),
      fun p hp => hqu p (List.mem_append_right _ hp), h.pool.apart, h.pool.left, h.pool.blank⟩,
    h.table.congr (fun _ => rfl) rfl rfl,
    ⟨h.bytes.content, h.bytes.ahead, h.bytes.ended, h.bytes.unborn, h.bytes.partners⟩⟩

lemma sendto_cases {owner : ℕ} {handle : Handle} {data : List UInt8} {badArgs address dontwait : Bool}
    (he : s.sendto t owner handle data badArgs address dontwait = some s') : ∃ c : Send, c.id = s.calls ∧ c.data = data ∧
    ((∃ result, s' = { s with calls := s.calls + 1 }.sent t c result ∧
    ((∃ error, result = .error error) ∨ result = .ok 0 ∧ data = [])) ∨
      data ≠ [] ∧ s' = { s with calls := s.calls + 1 }.goto t (.send c)) := by
  unfold NetState.sendto at he
  dsimp only at he
  by_cases hbad : badArgs = true ∨ data.length > maxPayload
  · rw [if_pos hbad] at he
    cases he
    exact ⟨_, rfl, rfl, .inl ⟨_, rfl, .inl ⟨_, rfl⟩⟩⟩
  rw [if_neg hbad] at he
  split at he
  · cases he
    exact ⟨_, rfl, rfl, .inl ⟨_, rfl, .inl ⟨_, rfl⟩⟩⟩
  · split_ifs at he with _ _ hdata <;> cases he
    · exact ⟨_, rfl, rfl, .inl ⟨_, rfl, .inl ⟨_, rfl⟩⟩⟩
    · exact ⟨_, rfl, rfl, .inl ⟨_, rfl, .inr ⟨rfl, hdata⟩⟩⟩
    · exact ⟨_, rfl, rfl, .inl ⟨_, rfl, .inl ⟨_, rfl⟩⟩⟩
    · exact ⟨_, rfl, rfl, .inr ⟨hdata, rfl⟩⟩

lemma Inv.sendto (h : Inv s) {owner : ℕ} {handle : Handle} {data : List UInt8} {badArgs address dontwait : Bool}
    (he : s.sendto t owner handle data badArgs address dontwait = some s') : Inv s' := by
  have hcntd : Inv { s with calls := s.calls + 1 } := h.congr ⟨rfl, rfl, rfl, rfl, rfl, rfl, rfl, rfl, rfl⟩
  obtain ⟨c, -, -, ⟨result, rfl, -⟩ | ⟨-, rfl⟩⟩ := sendto_cases he
  · exact hcntd.sent ..
  · exact hcntd.goto ..

lemma Inv.step (h : Inv s) (hdata : ∀ t c, s.pc t = .copied c → c.data ≠ []) {e : Event} (he : s.step e = some s') :
    Inv s' := by
  cases e with
  | create owner local_ =>
    obtain ⟨⟨i, s₁⟩, hresv, rfl⟩ := Option.map_eq_some_iff.mp he
    obtain ⟨-, hfree, rfl⟩ := reserve_cases hresv
    exact h.reserve hfree _
  | listen owner handle bound backlog =>
    refine h.on he fun i _ _ => ?_
    split_ifs with hrdy
    · exact h.set ⟨.inr ⟨hrdy.1, rfl⟩, rfl, rfl, rfl, .inl rfl, id, .inl, id⟩ rfl
    · exact h
  | connect owner handle l =>
    refine h.on he fun i hi _ => ?_
    split_ifs with hrdy
    · split
      · exact h.connect hi hrdy ‹_›
      · exact h
    · exact h
  | accept owner handle =>
    refine h.on he fun i _ _ => ?_
    split_ifs
    · split
      · exact h.pop ..
      · exact h
    · exact h
  | pair owner =>
    cases he
    exact h.pair owner
  | close owner handle =>
    unfold NetState.step at he
    dsimp only at he
    split at he <;> cases he
    · exact h.dispose ..
    · exact h
  | shutdown owner handle shutRead shutWrite => exact h.on he fun i _ hi => h.shutdown i _ _ hi
  | setFlags owner handle nonblocking =>
    exact h.on he fun i _ _ => h.set ⟨.inl rfl, rfl, rfl, rfl, .inl rfl, id, .inl, id⟩ rfl
  | sendto t owner handle data badArgs address dontwait =>
    unfold NetState.step at he
    dsimp only at he
    split_ifs at he
    exact h.sendto he
  | recvfrom t c =>
    unfold NetState.step at he
    dsimp only at he
    split_ifs at he
    exact h.on he fun _ _ _ => h.goto ..
  | goOn t waits mallocOk =>
    unfold NetState.step NetState.goOn at he
    dsimp only at he
    split at he
    · cases he
    · cases he
      exact h.trySend ..
    · rename_i c hpc
      cases he
      exact h.commitSend t c (hdata t c hpc)
    · cases he
      exact h.receive ..
  | foreignTake =>
    unfold NetState.step at he
    dsimp only at he
    split at he
    · rename_i p free hfree
      cases he
      refine h.foreign ?_
      rw [hfree]
      exact List.perm_middle
    · cases he
  | foreignFree p =>
    unfold NetState.step at he
    dsimp only at he
    split_ifs at he with hp
    cases he
    refine h.foreign ?_
    exact (List.perm_middle.symm.trans ((List.perm_cons_erase hp).symm.append_left _))

/-! ## What two ends of a stream can rely on -/

/-! ### The calls -/

/-- A task is in a call of `net_socket_sendto` that waits for room or copies. -/
def Sending (s : NetState) (t : ℕ) (c : Send) : Prop := s.pc t = .send c ∨ s.pc t = .copied c

/-- A call that nobody but this task is in, and that has neither given bytes nor returned -/
structure Fresh (s : NetState) (t : ℕ) (c : Send) : Prop where
  lt : c.id < s.calls
  accepted : ∀ e ∈ s.accepted, e.call ≠ c.id
  outcomes : ∀ o ∈ s.outcomes, o.call ≠ c.id
  own : ∀ u d, u ≠ t → Sending s u d → d.id ≠ c.id

structure Calls (s : NetState) : Prop where
  sending : ∀ t c, Sending s t c → c.data ≠ [] ∧ Fresh s t c
  accepted : ∀ e ∈ s.accepted, e.call < s.calls ∧ ⟨e.call, e.data, .ok e.data.length⟩ ∈ s.outcomes
  nodup : (s.accepted.map Accepted.call).Nodup
  outcomes : ∀ o ∈ s.outcomes, o.call < s.calls ∧ ((∃ error, o.result = .error error) ∨ o.result = .ok o.data.length)
  once : (s.outcomes.map Outcome.call).Nodup
  given : ∀ o ∈ s.outcomes, ∀ n, o.result = .ok n → o.data ≠ [] → ∃ e ∈ s.accepted, e.call = o.call
  whole : ∀ o ∈ s.outcomes, ∀ e ∈ s.accepted, e.call = o.call → o.result = .ok o.data.length ∧ e.data = o.data

/-- A task that is not in a call of `net_socket_sendto`, or goes on with the one it is in -/
lemma Calls.goto (h : Calls s) {pc : Pc} (hpc : ∀ c, pc = .send c ∨ pc = .copied c → c.data ≠ [] ∧ Fresh s t c) :
    Calls (s.goto t pc) := by
  have hself : (s.goto t pc).pc t = pc := Function.update_self ..
  have hoth : ∀ u, u ≠ t → (s.goto t pc).pc u = s.pc u := fun u hu => Function.update_of_ne hu ..
  have hsend : ∀ u c, Sending (s.goto t pc) u c → c.data ≠ [] ∧ Fresh s u c := by
    intro u c hc
    unfold Sending at hc
    by_cases hu : u = t
    · rw [hu, hself] at hc
      rw [hu]
      exact hpc c hc
    · rw [hoth u hu] at hc
      exact h.sending u c hc
  refine { h with sending := fun u c hc => ?_ }
  obtain ⟨hdata, hfr⟩ := hsend u c hc
  refine ⟨hdata, hfr.lt, hfr.accepted, hfr.outcomes, fun v d hv hd heq => ?_⟩
  by_cases hvt : v = t
  · -- the task itself has this call, and another one too
    have hut : u ≠ t := fun hut => hv (hvt.trans hut.symm)
    unfold Sending at hc hd
    rw [hoth u hut] at hc
    rw [hvt, hself] at hd
    exact (hpc d hd).2.own u c hut hc heq.symm
  · unfold Sending at hd
    rw [hoth v hvt] at hd
    exact hfr.own v d hv hd heq

lemma Calls.sent (h : Calls s) {c : Send} {result : Except NetError ℕ} (hfr : Fresh s t c)
    (hres : (∃ error, result = .error error) ∨ result = .ok 0 ∧ c.data = []) : Calls (s.sent t c result) := by
  have hidle : Calls (s.goto t .idle) := h.goto fun c hc => nomatch hc
  refine ⟨fun u d hd => ?_, fun e he => ?_, h.nodup, fun o ho => ?_, ?_, fun o ho n hn hdata => ?_, fun o ho e he heq => ?_⟩
  · obtain ⟨hdata, hold⟩ := hidle.sending u d hd
    refine ⟨hdata, hold.lt, hold.accepted, fun o ho => ?_, hold.own⟩
    rcases List.mem_cons.mp ho with rfl | hmem
    · have hu : u ≠ t := fun hu => by
        have hself : (s.sent t c result).pc t = .idle := Function.update_self ..
        unfold Sending at hd
        rw [hu, hself] at hd
        rcases hd with hd | hd <;> cases hd
      have hd' : Sending s u d := by
        unfold Sending at hd ⊢
        rw [show (s.sent t c result).pc u = s.pc u from Function.update_of_ne hu ..] at hd
        exact hd
      exact (hfr.own u d hu hd').symm
    · exact hold.outcomes o hmem
  · obtain ⟨hlt, hmem⟩ := h.accepted e he
    exact ⟨hlt, .tail _ hmem⟩
  · rcases List.mem_cons.mp ho with rfl | hmem
    · refine ⟨hfr.lt, hres.imp id fun hzero => ?_⟩
      dsimp only
      rw [hzero.1, hzero.2]
      rfl
    · exact h.outcomes o hmem
  · refine List.nodup_cons.mpr ⟨fun hmem => ?_, h.once⟩
    obtain ⟨o, ho, heq⟩ := List.mem_map.mp hmem
    exact hfr.outcomes o ho heq
  · rcases List.mem_cons.mp ho with rfl | hmem
    · rcases hres with ⟨error, heq⟩ | ⟨-, hnil⟩
      · cases heq.symm.trans hn
      · exact absurd hnil hdata
    · exact h.given o hmem n hn hdata
  · rcases List.mem_cons.mp ho with rfl | hmem
    · exact absurd heq (hfr.accepted e he)
    · exact h.whole o hmem e he heq

lemma Calls.queued (h : Calls s) {c : Send} {e : Accepted} {p : ℕ} (hq : Queued s s' i p e) (hfr : Fresh s t c)
    (hcall : e.call = c.id) (hsame : e.data = c.data) : Calls (s'.sent t c (.ok c.data.length)) := by
  obtain ⟨-, hpc, -, hcll, -, -, -, houtc⟩ := hq.same
  have hpcs : ∀ u, (s'.sent t c (.ok c.data.length)).pc u = if u = t then .idle else s.pc u := by
    intro u
    rw [← hpc]
    exact Function.update_apply ..
  have hacc : (s'.sent t c (.ok c.data.length)).accepted = s.accepted ++ [e] := hq.accepted
  have hout : (s'.sent t c (.ok c.data.length)).outcomes = ⟨c.id, c.data, .ok c.data.length⟩ :: s.outcomes :=
    congrArg (List.cons _) houtc
  have hcnt : (s'.sent t c (.ok c.data.length)).calls = s.calls := hcll
  have hsend : ∀ u d, Sending (s'.sent t c (.ok c.data.length)) u d → u ≠ t ∧ Sending s u d := by
    intro u d hd
    unfold Sending at hd
    rw [hpcs] at hd
    by_cases hu : u = t
    · rw [if_pos hu] at hd
      rcases hd with hd | hd <;> cases hd
    · rw [if_neg hu] at hd
      exact ⟨hu, hd⟩
  refine ⟨fun u d hd => ?_, fun e' he' => ?_, ?_, fun o ho => ?_, ?_, fun o ho n hn hdata => ?_, fun o ho e' he' heq => ?_⟩
  · obtain ⟨hu, hd⟩ := hsend u d hd
    obtain ⟨hdata, hold⟩ := h.sending u d hd
    have hne : c.id ≠ d.id := (hfr.own u d hu hd).symm
    refine ⟨hdata, ⟨hcnt ▸ hold.lt, fun e' he' => ?_, fun o ho => ?_, fun v d' hv hd' => hold.own v d' hv (hsend v d' hd').2⟩⟩
    · rw [hacc] at he'
      rcases List.mem_append.mp he' with hmem | hmem
      · exact hold.accepted e' hmem
      · rw [List.mem_singleton.mp hmem, hcall]
        exact hne
    · rw [hout] at ho
      rcases List.mem_cons.mp ho with rfl | hmem
      · exact hne
      · exact hold.outcomes o hmem
  · rw [hacc] at he'
    rw [hcnt, hout]
    rcases List.mem_append.mp he' with hmem | hmem
    · obtain ⟨hlt, hmem⟩ := h.accepted e' hmem
      exact ⟨hlt, .tail _ hmem⟩
    · rw [List.mem_singleton.mp hmem, hcall, hsame]
      exact ⟨hfr.lt, List.mem_cons_self⟩
  · rw [hacc, List.map_append]
    refine List.nodup_append.mpr ⟨h.nodup, List.nodup_singleton _, fun n hn m hm heq => ?_⟩
    obtain ⟨e', he', rfl⟩ := List.mem_map.mp hn
    exact hfr.accepted e' he' (heq.trans ((List.mem_singleton.mp hm).trans hcall))
  · rw [hout] at ho
    rw [hcnt]
    rcases List.mem_cons.mp ho with rfl | hmem
    · exact ⟨hfr.lt, .inr rfl⟩
    · exact h.outcomes o hmem
  · rw [hout]
    refine List.nodup_cons.mpr ⟨fun hmem => ?_, h.once⟩
    obtain ⟨o, ho, heq⟩ := List.mem_map.mp hmem
    exact hfr.outcomes o ho heq
  · rw [hout] at ho
    rw [hacc]
    rcases List.mem_cons.mp ho with rfl | hmem
    · exact ⟨e, List.mem_append_right _ List.mem_cons_self, hcall⟩
    · obtain ⟨e', he', heq⟩ := h.given o hmem n hn hdata
      exact ⟨e', List.mem_append_left _ he', heq⟩
  · rw [hout] at ho
    rw [hacc] at he'
    rcases List.mem_append.mp he' with hmem' | hmem'
    · rcases List.mem_cons.mp ho with rfl | hmem
      · exact absurd heq (hfr.accepted e' hmem')
      · exact h.whole o hmem e' hmem' heq
    · rw [List.mem_singleton.mp hmem'] at heq ⊢
      rcases List.mem_cons.mp ho with rfl | hmem
      · exact ⟨rfl, hsame⟩
      · exact absurd (heq.symm.trans hcall) (hfr.outcomes o hmem)

lemma Calls.start (h : Calls s) (t : ℕ) {c : Send} (hc : c.id = s.calls) :
    Calls { s with calls := s.calls + 1 } ∧ Fresh { s with calls := s.calls + 1 } t c := by
  refine ⟨⟨fun u d hd => ?_, fun e he => ?_, h.nodup, fun o ho => ?_, h.once, h.given, h.whole⟩, ?_, fun e he => ?_,
    fun o ho => ?_,
    fun u d _ hd => ?_⟩
  · obtain ⟨hdata, hold⟩ := h.sending u d hd
    exact ⟨hdata, Nat.lt_succ_of_lt hold.lt, hold.accepted, hold.outcomes, hold.own⟩
  · obtain ⟨hlt, hmem⟩ := h.accepted e he
    exact ⟨Nat.lt_succ_of_lt hlt, hmem⟩
  · exact ⟨Nat.lt_succ_of_lt (h.outcomes o ho).1, (h.outcomes o ho).2⟩
  · rw [hc]
    exact Nat.lt_succ_self _
  · rw [hc]
    exact Nat.ne_of_lt (h.accepted e he).1
  · rw [hc]
    exact Nat.ne_of_lt (h.outcomes o ho).1
  · rw [hc]
    exact Nat.ne_of_lt (h.sending u d hd).2.lt

structure Kept (s s' : NetState) : Prop where
  pc : s'.pc = s.pc
  calls : s'.calls = s.calls
  accepted : s'.accepted = s.accepted
  outcomes : s'.outcomes = s.outcomes

lemma Kept.refl (s : NetState) : Kept s s := ⟨rfl, rfl, rfl, rfl⟩

lemma Kept.trans {s'' : NetState} (h : Kept s s') (h' : Kept s' s'') : Kept s s'' :=
  ⟨h'.pc.trans h.pc, h'.calls.trans h.calls, h'.accepted.trans h.accepted, h'.outcomes.trans h.outcomes⟩

lemma Kept.inv (h : Kept s s') (hs : Calls s) : Calls s' := by
  obtain ⟨sockets, packets, free, foreign, pc, lives, calls, partner, accepted, returned, ended, outcomes⟩ := s'
  obtain ⟨rfl, rfl, rfl, rfl⟩ := h
  exact { hs with sending := fun t c hc => ⟨(hs.sending t c hc).1, (hs.sending t c hc).2.lt,
    (hs.sending t c hc).2.accepted, (hs.sending t c hc).2.outcomes, (hs.sending t c hc).2.own⟩ }

lemma unparent_kept (s : NetState) (i : ℕ) : Kept s (s.unparent i) := by
  unfold NetState.unparent
  split
  · exact ⟨rfl, rfl, rfl, rfl⟩
  · exact Kept.refl s

lemma finish_kept (s : NetState) (i : ℕ) : Kept s (s.finish i) := by
  unfold NetState.finish NetState.unpeer
  split <;> exact ⟨rfl, rfl, rfl, rfl⟩

lemma dispose_kept (n : ℕ) (s : NetState) (i : ℕ) : Kept s (NetState.dispose n s i) := by
  induction n generalizing s i with
  | zero => exact Kept.refl s
  | succ n ih =>
    have hchn : ∀ (children : List ℕ) (s : NetState),
        Kept s (children.foldl (fun s child => NetState.dispose n (s.pop i child) child) s) := by
      intro children
      induction children with
      | nil => exact Kept.refl
      | cons child children ihc =>
        intro s
        exact (show Kept s (s.pop i child) from ⟨rfl, rfl, rfl, rfl⟩).trans ((ih _ _).trans (ihc _))
    unfold NetState.dispose
    split_ifs
    · exact Kept.refl s
    · exact (unparent_kept s i).trans ((hchn _ _).trans (finish_kept _ i))

lemma reserve_kept {owner : ℕ} {state : SocketState} (he : s.reserve owner state = some (i, s')) : Kept s s' := by
  obtain ⟨-, -, rfl⟩ := reserve_cases he
  exact ⟨rfl, rfl, rfl, rfl⟩

lemma connect_kept {l : ℕ} (he : s.connect i l = .ok s') : Kept s s' := by
  unfold NetState.connect at he
  split_ifs at he
  split at he
  · cases he
  · rename_i child s₁ hresv
    cases he
    exact (reserve_kept hresv).trans ⟨rfl, rfl, rfl, rfl⟩

lemma pair_kept (s : NetState) (owner : ℕ) : Kept s (s.pair owner) := by
  unfold NetState.pair
  split
  · exact Kept.refl s
  · rename_i left s₁ hleft
    split
    · exact (reserve_kept hleft).trans (dispose_kept ..)
    · rename_i right s₂ hrig
      exact (reserve_kept hleft).trans ((reserve_kept hrig).trans ⟨rfl, rfl, rfl, rfl⟩)

lemma shutdown_kept (s : NetState) (i : ℕ) (shutRead shutWrite : Bool) : Kept s (s.shutdown i shutRead shutWrite) := by
  have hread : Kept s (if shutRead then (s.set i { s.sockets i with shutdownRead := true }).clear i else s) := by
    split_ifs
    · exact ⟨rfl, rfl, rfl, rfl⟩
    · exact Kept.refl s
  unfold NetState.shutdown
  dsimp only
  generalize (if shutRead then (s.set i { s.sockets i with shutdownRead := true }).clear i else s) = s₁ at hread ⊢
  split_ifs
  · refine hread.trans ?_
    split <;> exact ⟨rfl, rfl, rfl, rfl⟩
  · exact hread

lemma on_kept {owner : ℕ} {handle : Handle} {f : ℕ → NetState} (he : s.on owner handle f = some s') (hf : ∀ i, Kept s (f i)) :
    Kept s s' := by
  unfold NetState.on at he
  split at he
  · cases he
    exact Kept.refl s
  · split_ifs at he
    cases he
    exact hf _

lemma Calls.trySend (h : Calls s) {c : Send} (hpc : s.pc t = .send c) (waits : Option NetError) (mallocOk : Bool) :
    Calls (s.trySend t c waits mallocOk) := by
  obtain ⟨hdata, hfr⟩ := h.sending t c (.inl hpc)
  unfold NetState.trySend
  split
  · exact h.sent hfr (.inl ⟨_, rfl⟩)
  · split
    · exact h.sent hfr (.inl ⟨_, rfl⟩)
    · split_ifs
      · exact h.sent hfr (.inl ⟨_, rfl⟩)
      · exact h.sent hfr (.inl ⟨_, rfl⟩)
      · split
        · exact h.sent hfr (.inl ⟨_, rfl⟩)
        · exact h
      · refine h.goto fun d hd => ?_
        rcases hd with hd | hd <;> cases hd
        exact ⟨hdata, hfr⟩
      · exact h.sent hfr (.inl ⟨_, rfl⟩)

lemma Calls.commitSend (h : Calls s) {c : Send} (hpc : s.pc t = .copied c) : Calls (s.commitSend t c) := by
  obtain ⟨hdata, hfr⟩ := h.sending t c (.inr hpc)
  unfold NetState.commitSend
  split
  · exact h.sent hfr (.inl ⟨_, rfl⟩)
  · split
    · exact h.sent hfr (.inl ⟨_, rfl⟩)
    · rename_i j _
      by_cases hcls : (s.sockets j).peerClosed = true
      · rw [if_pos hcls]
        exact h.sent hfr (.inl ⟨_, rfl⟩)
      · rw [if_neg hcls]
        dsimp only
        split
        · rename_i s₁ hqu
          rw [Option.ite_none_right_eq_some] at hqu
          obtain ⟨p, hq⟩ := queueLocal_queued hqu.2
          exact h.queued hq hfr rfl rfl
        · split_ifs
          · exact h.sent hfr (.inl ⟨_, rfl⟩)
          · refine h.goto fun d hd => ?_
            rcases hd with hd | hd <;> cases hd
            exact ⟨hdata, hfr⟩

lemma Calls.receive (h : Calls s) (t : ℕ) (c : Receive) (waits : Option NetError) : Calls (s.receive t c waits) := by
  have hidle : ∀ {s}, Calls s → Calls (s.goto t .idle) := fun h => h.goto fun c hc => by rcases hc with hc | hc <;> cases hc
  unfold NetState.receive
  split
  · exact hidle h
  · rename_i i hfind
    have hclr : Kept s (s.clear i) := ⟨rfl, rfl, rfl, rfl⟩
    have htake : Kept s (s.take i c.length) := ⟨rfl, rfl, rfl, rfl⟩
    have hend : ∀ s : NetState, Kept s (s.atEnd i) := fun s => ⟨rfl, rfl, rfl, rfl⟩
    split_ifs
    · exact hidle (hclr.inv h)
    · exact hidle h
    · exact hidle ((htake.trans (hend _)).inv h)
    · exact hidle (htake.inv h)
    · exact hidle ((hend s).inv h)
    · exact hidle h
    · split
      · exact hidle h
      · exact h

/-- **Every step keeps what the calls have given and returned.** -/
lemma Calls.step (h : Calls s) {e : Event} (he : s.step e = some s') : Calls s' := by
  cases e with
  | create owner local_ =>
    obtain ⟨⟨i, s₁⟩, hresv, rfl⟩ := Option.map_eq_some_iff.mp he
    exact (reserve_kept hresv).inv h
  | listen owner handle bound backlog =>
    refine (on_kept he fun i => ?_).inv h
    split_ifs
    · exact ⟨rfl, rfl, rfl, rfl⟩
    · exact Kept.refl s
  | connect owner handle l =>
    refine (on_kept he fun i => ?_).inv h
    split_ifs
    · split
      · exact connect_kept ‹_›
      · exact Kept.refl s
    · exact Kept.refl s
  | accept owner handle =>
    refine (on_kept he fun i => ?_).inv h
    split_ifs
    · split
      · exact ⟨rfl, rfl, rfl, rfl⟩
      · exact Kept.refl s
    · exact Kept.refl s
  | pair owner =>
    cases he
    exact (pair_kept s owner).inv h
  | close owner handle =>
    unfold NetState.step at he
    dsimp only at he
    split at he <;> cases he
    · exact (dispose_kept ..).inv h
    · exact h
  | shutdown owner handle shutRead shutWrite => exact (on_kept he fun i => shutdown_kept s i _ _).inv h
  | setFlags owner handle nonblocking => exact (on_kept he fun i => ⟨rfl, rfl, rfl, rfl⟩).inv h
  | sendto t owner handle data badArgs address dontwait =>
    unfold NetState.step at he
    dsimp only at he
    split_ifs at he
    obtain ⟨c, hid, hdata, hcase⟩ := sendto_cases he
    obtain ⟨hstrt, hfr⟩ := h.start t hid
    rcases hcase with ⟨result, rfl, hres⟩ | ⟨hne, rfl⟩
    · exact hstrt.sent hfr (hres.imp id fun hzero => ⟨hzero.1, hdata.trans hzero.2⟩)
    · refine hstrt.goto fun d hd => ?_
      rcases hd with hd | hd <;> cases hd
      exact ⟨hdata ▸ hne, hfr⟩
  | recvfrom t c =>
    unfold NetState.step at he
    dsimp only at he
    split_ifs at he
    unfold NetState.on at he
    split at he
    · cases he
      exact h
    · split_ifs at he
      cases he
      exact h.goto fun d hd => by rcases hd with hd | hd <;> cases hd
  | goOn t waits mallocOk =>
    unfold NetState.step NetState.goOn at he
    dsimp only at he
    split at he <;> cases he
    · exact h.trySend ‹_› ..
    · exact h.commitSend ‹_›
    · exact h.receive ..
  | foreignTake =>
    unfold NetState.step at he
    dsimp only at he
    split at he <;> cases he
    refine Kept.inv (?_ : Kept s _) h
    exact ⟨rfl, rfl, rfl, rfl⟩
  | foreignFree p =>
    unfold NetState.step at he
    dsimp only at he
    split_ifs at he
    cases he
    refine Kept.inv (?_ : Kept s _) h
    exact ⟨rfl, rfl, rfl, rfl⟩

/-! ### The streams -/

/-- The bytes that a socket has given to its peer, in the order in which they were accepted -/
def sentBy (accepted : List Accepted) (life : ℕ) : List UInt8 :=
    (accepted.filter fun e => e.sender = life).flatMap Accepted.data

/-- **What the ends of a connection can rely on.** What a socket has returned is the beginning of what its peer has
given. A call gives its bytes whole, or none of them. All that waits for a socket can be read, unless its reading is
shut down, and from the first byte on. A socket whose receive has returned 0 has returned all that its peer ever
gives. -/
structure Contract (s : NetState) : Prop where
  returned : ∀ n m, s.partner n = some m → s.returned n <+: sentBy s.accepted m
  single : ∀ n, s.partner n = none → s.returned n = []
  given : ∀ o ∈ s.outcomes, ∀ n, o.result = .ok n → n = o.data.length ∧
    (o.data ≠ [] → ∃ e ∈ s.accepted, e.call = o.call ∧ e.data = o.data)
  refused : ∀ o ∈ s.outcomes, ∀ error, o.result = .error error → ∀ e ∈ s.accepted, e.call ≠ o.call
  once : (s.accepted.map Accepted.call).Nodup ∧ (s.outcomes.map Outcome.call).Nodup
  answered : ∀ e ∈ s.accepted, ⟨e.call, e.data, .ok e.data.length⟩ ∈ s.outcomes
  waiting : ∀ i m, (s.sockets i).state ≠ .free → (s.sockets i).shutdownRead = false → s.partner (s.sockets i).life = some m →
    sentBy s.accepted m = s.returned (s.sockets i).life ++ content s.packets (s.sockets i).queue
  readable : ∀ i t c waits mallocOk s', (s.sockets i).shutdownRead = false → s.pc t = .receive c →
  s.find c.owner c.handle = some i →
    c.length ≠ 0 → content s.packets (s.sockets i).queue ≠ [] → s.step (.goOn t waits mallocOk) = some s' →
    s'.returned (s.sockets i).life = s.returned (s.sockets i).life ++ (content s.packets (s.sockets i).queue).take c.length ∧
      s'.pc t = .idle
  ended : ∀ n ∈ s.ended, ∀ m, s.partner n = some m → s.returned n = sentBy s.accepted m

lemma Inv.sentBy (h : Inv s) {n m : ℕ} (hpart : s.partner n = some m) : stream s.accepted n = sentBy s.accepted m := by
  unfold stream Net.sentBy
  congr 1
  refine List.filter_congr fun e he => decide_eq_decide.mpr ?_
  have hsen := h.bytes.partners e he
  have hrecv := h.table.mutual_ _ _ hsen
  constructor
  · rintro rfl
    exact Option.some.inj (hsen.symm.trans hpart)
  · rintro rfl
    exact Option.some.inj (hrecv.symm.trans (h.table.mutual_ _ _ hpart))

lemma Inv.stream_nil (h : Inv s) {n : ℕ} (hpart : s.partner n = none) : stream s.accepted n = [] := by
  refine List.flatMap_eq_nil_iff.mpr fun e he => ?_
  obtain ⟨hmem, hn⟩ := List.mem_filter.mp he
  have hsen := h.bytes.partners e hmem
  rw [of_decide_eq_true hn, hpart] at hsen
  cases hsen

lemma Inv.readable (h : Inv s) {c : Receive} {waits : Option NetError} {mallocOk : Bool}
    (hread : (s.sockets i).shutdownRead = false)
    (hpc : s.pc t = .receive c) (hfind : s.find c.owner c.handle = some i) (hlen : c.length ≠ 0)
    (hcont : content s.packets (s.sockets i).queue ≠ []) (he : s.step (.goOn t waits mallocOk) = some s') :
    s'.returned (s.sockets i).life = s.returned (s.sockets i).life ++ (content s.packets (s.sockets i).queue).take c.length ∧
      s'.pc t = .idle := by
  have hqu : (s.sockets i).queue ≠ [] := fun hnil => hcont (by rw [hnil]; rfl)
  unfold NetState.step NetState.goOn at he
  dsimp only at he
  rw [hpc] at he
  cases he
  unfold NetState.receive
  rw [hfind]
  dsimp only
  rw [if_neg (Bool.eq_false_iff.mp hread), if_neg hlen, if_pos hqu,
    if_neg (drain_taken s.packets (h.pool.left i) hqu hlen)]
  refine ⟨?_, Function.update_self ..⟩
  rw [← drain_taken_eq s.packets (s.sockets i).queue c.length (h.pool.queue i) (h.pool.left i)]
  exact Function.update_self ..

lemma reachable_inv (h : sys.Reachable s) : Inv s ∧ Calls s := by
  refine System.Reachable.invariant (P := fun s => Inv s ∧ Calls s) (fun s hs => ?_) (fun s e s' hinv he => ?_) h
  · obtain ⟨hsoc, hfree, hforn, hpc, hpart, haccep, hret, hended, houtc⟩ := hs
    have hfreeSocket : ∀ i, (s.sockets i).state = .free := fun i => by
      rw [hsoc i]
      rfl
    have hqu : ∀ i, (s.sockets i).queue = [] := fun i => by
      rw [hsoc i]
      rfl
    have hstr : ∀ n, stream s.accepted n = [] := fun n => by
      rw [haccep]
      rfl
    refine ⟨⟨⟨?_, ?_, fun i => ?_, fun p _ => ?_, fun p _ i => ?_, fun p _ i => ?_, fun i j _ p hp => ?_, fun i p hp => ?_,
        fun i _ => hqu i⟩, ⟨fun i hi => absurd (hfreeSocket i) hi, fun i _ hi => absurd (hfreeSocket i) hi,
        fun i _ _ hi => absurd (hfreeSocket i) hi, fun i hi => absurd (hfreeSocket i) hi, fun i hi => absurd (hfreeSocket i) hi,
        fun i _ => ?_, fun n _ => hpart n, fun n m hn => ?_⟩,
      ⟨fun i hi => absurd (hfreeSocket i) hi, fun n => ?_, fun n hn => ?_, fun n _ => ⟨hstr n, hret n⟩, fun e he => ?_⟩⟩, ?_⟩
    · rw [hfree]
      exact List.nodup_reverse.mpr List.nodup_range
    · rw [hforn]
      exact List.nodup_nil
    · rw [hqu i]
      exact List.nodup_nil
    · rw [hforn]
      exact List.not_mem_nil
    · rw [hqu i]
      exact List.not_mem_nil
    · rw [hqu i]
      exact List.not_mem_nil
    · rw [hqu i] at hp
      cases hp
    · rw [hqu i] at hp
      cases hp
    · rw [hsoc i]
      rfl
    · cases (hpart n).symm.trans hn
    · rw [hret n]
      exact List.nil_prefix
    · rw [hended] at hn
      cases hn
    · rw [haccep] at he
      cases he
    · have hnot : ∀ t c, ¬Sending s t c := fun t c hc => by
        unfold Sending at hc
        rw [hpc t] at hc
        rcases hc with hc | hc <;> cases hc
      refine ⟨fun t c hc => absurd hc (hnot t c), ?_, ?_, ?_, ?_, ?_, ?_⟩ <;> simp only [haccep, houtc] <;> simp
  · exact ⟨hinv.1.step (fun t c hpc => (hinv.2.sending t c (.inr hpc)).1) he, hinv.2.step he⟩

/-- **A connected stream keeps its bytes**, in every interleaving of the calls. -/
theorem stream_is_kept (h : sys.Reachable s) : Contract s := by
  obtain ⟨hinv, hcalls⟩ := reachable_inv h
  refine ⟨fun n m hpartner => ?_, fun n hpartner => ?_, fun o ho n hok => ?_, fun o ho error herror e he heq => ?_,
    ⟨hcalls.nodup, hcalls.once⟩, fun e he => (hcalls.accepted e he).2, fun i m hi hread hpartner => ?_,
    fun i t c waits mallocOk s' hread hpc hfind hlength hcontent he => hinv.readable hread hpc hfind hlength hcontent he,
    fun n hn m hpartner => ?_⟩
  · rw [← hinv.sentBy hpartner]
    exact hinv.bytes.ahead n
  · have hprefix := hinv.bytes.ahead n
    rw [hinv.stream_nil hpartner] at hprefix
    exact List.prefix_nil.mp hprefix
  · obtain ⟨-, ⟨error, herror⟩ | hlength⟩ := hcalls.outcomes o ho
    · cases herror.symm.trans hok
    · refine ⟨?_, fun hdata => ?_⟩
      · cases hlength.symm.trans hok
        rfl
      · obtain ⟨e, he, heq⟩ := hcalls.given o ho n hok hdata
        exact ⟨e, he, heq, (hcalls.whole o ho e he heq).2⟩
  · cases herror.symm.trans (hcalls.whole o ho e he heq).1
  · rw [← hinv.sentBy hpartner]
    exact hinv.bytes.content i hi hread
  · rw [← hinv.sentBy hpartner]
    exact (hinv.bytes.ended n hn).1

/-- The table after `net_socket_system_init` -/
def empty : NetState where
  sockets _ := .blank 0
  packets _ := ⟨[], 0⟩
  free := (List.range packetCapacity).reverse
  foreign := []
  pc _ := .idle
  lives := 0
  calls := 0
  partner _ := none
  accepted := []
  returned _ := []
  ended := []
  outcomes := []

lemma empty_init : sys.init empty := ⟨fun _ => rfl, rfl, rfl, fun _ => rfl, fun _ => rfl, rfl, fun _ => rfl, rfl, rfl⟩

/-- A pair of sockets; one end sends three bytes and shuts its writing down, the other reads two bytes, one byte and
the end. -/
def exchange : List Event := [.pair 5, .sendto 0 5 ⟨0, 1⟩ [1, 2, 3] false false false, .goOn 0 none true, .goOn 0 none true,
  .shutdown 5 ⟨0, 1⟩ false true, .recvfrom 1 ⟨5, ⟨1, 1⟩, 2, false⟩, .goOn 1 none true, .recvfrom 1 ⟨5, ⟨1, 1⟩, 2, false⟩,
  .goOn 1 none true, .recvfrom 1 ⟨5, ⟨1, 1⟩, 2, false⟩, .goOn 1 none true]

theorem stream_is_kept_exchange : ∃ s : NetState, s.returned 1 = [1, 2, 3] ∧ s.ended = [1] ∧ Contract s := by
  refine ⟨sys.after empty exchange, by decide +kernel, by decide +kernel, stream_is_kept ?_⟩
  exact System.after_guarded (.init empty_init) (by simp only [System.Meets, exchange, and_self])

end PlantOS.Net

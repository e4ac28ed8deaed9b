import PlantOS.Poll.Lists

/-!
# The contract of `io_poll`

In every run the lists are well formed, only calls that wait have something in them, and a task that is blocked in a
call is woken by every queue that it has asked about.
-/

namespace PlantOS.Poll

open Lib Lib.HeadedList PollState
open Function (update update_of_ne update_self)

variable {s s' : PollState} {W W' : Queue → List (ℕ × ℕ)} {T T' A A' : List ℕ} {t id : ℕ}

/-! ### The end of a call -/

lemma destroy_task (s : PollState) (id : ℕ) : (s.destroy id).task = s.task := detach_task s id

lemma destroy_record_self (s : PollState) (id : ℕ) : (s.destroy id).record id = none := update_self ..

lemma destroy_record_of_ne (s : PollState) {id x : ℕ} (hx : x ≠ id) : (s.destroy id).record x = s.record x := by
  unfold PollState.destroy
  dsimp only
  rw [update_of_ne hx, detach_record]

lemma leave_task (s : PollState) (t id : ℕ) (result : ℤ) (revents : List (BitVec 16)) :
    (s.leave t id result revents).task = update s.task t { s.task t with call := none } := by
  unfold PollState.leave PollState.answer PollState.setTask
  dsimp only
  rw [destroy_task]

/-- **A call returns**: its record is gone, with all that was linked of it. -/
theorem Lists.leave (h : Lists s W T A) (ho : Others s W T t id) (hwait : (s.task t).waiting = false) (result : ℤ)
    (revents : List (BitVec 16)) :
    Inv (s.leave t id result revents) (fun q => (W q).filter fun x => decide (x.1 ≠ id)) (T.erase id) (A.erase id) ∧
      ((s.leave t id result revents).task t).call = none := by
  have hcall : ((s.leave t id result revents).task t).call = none := by
    rw [leave_task, update_self]
  have hls : Lists (s.leave t id result revents) (fun q => (W q).filter fun x => decide (x.1 ≠ id)) (T.erase id)
      (A.erase id) := ((h.destroy id).congr (setTask_same _ t _)).congr (answer_same _ t _ _)
  refine ⟨⟨hls, ?_⟩, hcall⟩
  have hoths : Others (s.leave t id result revents) (fun q => (W q).filter fun x => decide (x.1 ≠ id)) (T.erase id) t id := by
    refine ho.mono (fun x hx => destroy_record_of_ne s hx) (fun u hu => ?_)
      (fun q x hx hne => List.mem_filter.mpr ⟨hx, decide_eq_true hne⟩) fun x hx hne => (List.mem_erase_of_ne hne).mpr hx
    rw [leave_task, update_of_ne hu]
  refine hoths.calls_left (destroy_record_self s id) hcall fun hb => ?_
  have hw : ((s.leave t id result revents).task t).waiting = (s.task t).waiting := by
    rw [leave_task, update_self]
  rw [hb.2.1, hwait] at hw
  cases hw

/-- The state after a call: the task has left it, or it is in it with the queues that it has asked about. -/
structure Called (s' : PollState) (t id : ℕ) (call : PollCall) (env : Env) : Prop where
  result : (s'.task t).call = none ∨
    (s'.task t).call = some ⟨id, some call, call.fds.map fun p => (p.test env).2⟩ ∧
      ∀ p ∈ call.fds, (p.test env).1 = 0

lemma Lists.pollLeave (h : Lists s W T A) (ho : Others s W T t id) (hwait : (s.task t).waiting = false) (call : PollCall)
    (env : Env) (result : ℤ) :
    ∃ W' T' A', Inv (s.pollLeave t id call env result) W' T' A' ∧ Called (s.pollLeave t id call env result) t id call env := by
  unfold PollState.pollLeave
  split
  · split
    · obtain ⟨hinv, hcall⟩ := h.leave ho hwait (-14) []
      exact ⟨_, _, _, hinv, ⟨.inl hcall⟩⟩
    · obtain ⟨hinv, hcall⟩ := h.leave ho hwait result (call.fds.map fun p => (p.test env).1)
      exact ⟨_, _, _, hinv, ⟨.inl hcall⟩⟩
  · obtain ⟨hinv, hcall⟩ := h.leave ho hwait result []
    exact ⟨_, _, _, hinv, ⟨.inl hcall⟩⟩

lemma fallBlocked_task (s : PollState) (t : ℕ) : (((s.fallBlocked t).task t).Stays ↔ (s.task t).Stays) ∧
    ((s.fallBlocked t).task t).call = (s.task t).call := by
  unfold PollState.fallBlocked
  rw [setTask_task_self]
  split <;> exact ⟨Iff.rfl, rfl⟩

/-! ### A pass -/

/-- A call in which the task tests its descriptors: nothing of its record is linked. -/
structure Testing (s : PollState) (W : Queue → List (ℕ × ℕ)) (T A : List ℕ) (t id : ℕ) (w : Waiter) : Prop where
  lists : Lists s W T A
  others : Others s W T t id
  record : s.record id = some w
  task : w.task = t
  stays : (s.task t).Stays
  waiting : (s.task t).waiting = false
  watches : ∀ q, ∀ x ∈ W q, x.1 ≠ id
  timers : id ∉ T

/-- **One pass of the loop of `io_poll`.** -/
theorem Testing.pollPass {w : Waiter} {call : PollCall} {env : Env} (h : Testing s W T A t id w)
    (hcnt : w.count = call.fds.length) (hfin : s.finds call env = true) :
    ∃ W' T' A', Inv (s.pollPass t id call env) W' T' A' ∧ Called (s.pollPass t id call env) t id call env := by
  have hind : (call.fds.zipIdx.map (·.2)).Nodup := by
    rw [List.zipIdx_map_snd]
    exact List.nodup_range' ..
  have husab : ∀ p ∈ call.fds, ∀ q, (p.test env).2 = some q → s.usable q = true := fun p hp q hq => by
    have hall := List.all_eq_true.mp hfin p hp
    rw [hq] at hall
    simpa using hall
  obtain ⟨W₁, hls, hwat⟩ := h.lists.watchAll h.record call.fds.zipIdx hind
    (fun p hp => hcnt ▸ List.snd_lt_of_mem_zipIdx hp) (fun p _ q hmem => h.watches q _ hmem rfl)
    fun p hp => husab p.1 (List.fst_mem_of_mem_zipIdx hp)
  unfold PollState.pollPass
  generalize call.fds.zipIdx.foldl (fun s p => s.ioPollWatch (p.1.test env).2 (id, p.2)) s = s₁ at hls hwat ⊢
  have hoths : Others s₁ W₁ T t id := h.others.mono (fun x _ => congrFun hwat.record x)
    (fun u _ => congrFun hwat.task u) (fun q x hx _ => (hwat.mem q x).mpr (.inl hx)) fun x hx _ => hx
  have hrec : s₁.record id = some w := by rw [hwat.record, h.record]
  have hwait : (s₁.task t).waiting = false := by rw [hwat.task, h.waiting]
  have hstay : (s₁.task t).Stays := by rw [hwat.task]; exact h.stays
  dsimp only
  split
  · exact hls.pollLeave hoths hwait call env _
  rename_i hwts
  rw [not_or] at hwts
  split
  · exact hls.pollLeave hoths hwait call env _
  have hzero : ∀ p ∈ call.fds, (p.test env).1 = 0 := fun p hp => by
    by_contra hne
    have hpos : 0 < call.fds.countP fun p => decide ((p.test env).1 ≠ 0) :=
      List.countP_pos_iff.mpr ⟨p, hp, decide_eq_true hne⟩
    exact hwts.1 hpos.ne'
  -- the record in the list of the deadlines, if it has one
  obtain ⟨s₂, T₂, hs₂, hls₂, hoths₂, hsame, hT₂⟩ : ∃ s₂ T₂,
      s₂ = (if s₁.deadline id ≠ uint64Max then s₁.timerInsert id else s₁) ∧ Lists s₂ W₁ T₂ A ∧ Others s₂ W₁ T₂ t id ∧
        (s₂.record = s₁.record ∧ s₂.task = s₁.task) ∧ (s₁.deadline id ≠ uint64Max → id ∈ T₂) := by
    have hdl : s₁.deadline id = w.deadline := by
      unfold PollState.deadline
      rw [hrec]
      rfl
    by_cases hd : s₁.deadline id ≠ uint64Max
    · obtain ⟨T₂, hins, hmem⟩ := hls.timerInsert h.timers hrec (hdl ▸ hd)
      exact ⟨_, T₂, (if_pos hd).symm, hins, hoths.mono (fun _ _ => rfl) (fun _ _ => rfl) (fun _ _ hx _ => hx)
        fun x hx _ => (hmem x).mpr (.inr hx), ⟨rfl, rfl⟩, fun _ => (hmem id).mpr (.inl rfl)⟩
    · exact ⟨_, T, (if_neg hd).symm, hls, hoths, ⟨rfl, rfl⟩, fun hne => absurd hne hd⟩
  rw [← hs₂]
  generalize hcall : (⟨id, some call, call.fds.map fun p => (p.test env).2⟩ : Call) = c
  have hcid : c.record = id := by rw [← hcall]
  have hself : (((s₂.setTask t fun task => { task with call := some c }).fallBlocked t).task t).Stays ∧
      (((s₂.setTask t fun task => { task with call := some c }).fallBlocked t).task t).call = some c := by
    obtain ⟨hl, hc⟩ := fallBlocked_task (s₂.setTask t fun task => { task with call := some c }) t
    rw [hl, hc, setTask_task_self]
    exact ⟨by rw [hsame.2]; exact hstay, rfl⟩
  refine ⟨W₁, T₂, A, ⟨(hls₂.congr (setTask_same _ _ _)).congr (fallBlocked_same _ _), ?_⟩,
    ⟨.inr ⟨hself.2.trans (by rw [← hcall]), hzero⟩⟩⟩
  have hoths₃ : Others ((s₂.setTask t fun task => { task with call := some c }).fallBlocked t) W₁ T₂ t id :=
    hoths₂.mono (fun _ _ => rfl) (fun u hu => (setTask_task_of_ne _ _ hu).trans (setTask_task_of_ne _ _ hu))
      (fun _ _ hx _ => hx) fun _ hx _ => hx
  refine hoths₃.calls (w := w) hcid hself.1 hself.2 ⟨?_, h.task, fun p hp => ?_⟩ fun _ => ⟨fun i q hq => ?_, fun _ hd => ?_⟩
  · change s₂.record c.record = some w
    rw [hcid, hsame.1, hrec]
  · rw [← hcall] at hp ⊢
    cases hp
    exact ⟨hcnt, List.length_map _⟩
  · rw [← hcall] at hq ⊢
    rw [List.getElem?_map, Option.map_eq_some_iff] at hq
    obtain ⟨p, hp, htest⟩ := hq
    exact (hwat.mem q _).mpr (.inr ⟨rfl, p, List.mk_mem_zipIdx_iff_getElem?.mpr hp, htest⟩)
  · rw [hcid] at hd ⊢
    refine hT₂ ?_
    have hsame' : ((s₂.setTask t fun task => { task with call := some c }).fallBlocked t).deadline id = s₁.deadline id := by
      unfold PollState.deadline
      change ((s₂.record id).map (·.deadline)).getD uint64Max = _
      rw [hsame.1]
    rwa [hsame'] at hd

/-! ### The calls -/

namespace Inv

variable (h : Inv s W T A)

include h

lemma answer (t : ℕ) (result : ℤ) (revents : List (BitVec 16)) : Inv (s.answer t result revents) W T A :=
  ⟨h.lists.congr (answer_same s t result revents), h.calls.congr rfl (fun _ => ⟨rfl, rfl, rfl⟩) fun _ hx => hx⟩

lemma testing (hstay : (s.task t).Stays) (hwait : (s.task t).waiting = false) (hidle : (s.task t).call = none)
    (hfree : s.record id = none) (count : ℕ) : Testing (s.create t id count) W T (id :: A) t id ⟨t, 0, count⟩ :=
  ⟨h.lists.create hfree t count,
    (h.calls.others_idle hidle hfree).mono (fun _ hx => update_of_ne hx ..) (fun _ _ => rfl) (fun _ _ hx _ => hx)
      fun _ hx _ => hx,
    update_self .., rfl, hstay, hwait, fun _ _ hx => h.lists.not_watched hfree hx, h.lists.not_timed hfree⟩

/-- **`io_poll`.** -/
theorem ioPoll (hstay : (s.task t).Stays) (hwait : (s.task t).waiting = false) (hidle : (s.task t).call = none)
    {call : PollCall} {accessible : Bool} {memory : Option ℕ} {env : Env} (hfr : s.fresh memory = true)
    (hfin : s.finds call env = true) :
    ∃ W' T' A', Inv (s.ioPoll t call accessible memory env) W' T' A' ∧
      ∃ id, Called (s.ioPoll t call accessible memory env) t id call env := by
  unfold PollState.ioPoll
  split
  · exact ⟨W, T, A, h.answer t _ _, 0, ⟨.inl hidle⟩⟩
  split
  · exact ⟨W, T, A, h.answer t _ _, 0, ⟨.inl hidle⟩⟩
  cases memory with
  | none => exact ⟨W, T, A, h.answer t _ _, 0, ⟨.inl hidle⟩⟩
  | some id =>
    have hfree : s.record id = none := by simpa [PollState.fresh] using hfr
    have htes := h.testing hstay hwait hidle hfree call.fds.length
    have hdl := htes.lists.setDeadline ⟨t, s.deadlineOf call.timeout, call.fds.length⟩
      htes.timers htes.record rfl
    have htes' : Testing { s.create t id call.fds.length with
        record := update (s.create t id call.fds.length).record id
          (some ⟨t, s.deadlineOf call.timeout, call.fds.length⟩) } W T (id :: A) t id
        ⟨t, s.deadlineOf call.timeout, call.fds.length⟩ :=
      ⟨hdl, htes.others.mono (fun _ hx => update_of_ne hx ..) (fun _ _ => rfl) (fun _ _ hx _ => hx)
        fun _ hx _ => hx, update_self .., rfl, hstay, hwait, htes.watches, htes.timers⟩
    obtain ⟨W', T', A', hinv, hcal⟩ := htes'.pollPass rfl hfin
    exact ⟨W', T', A', hinv, id, hcal⟩

/-- **`io_poll_wait`.** -/
theorem ioPollWait (hstay : (s.task t).Stays) (hwait : (s.task t).waiting = false) (hidle : (s.task t).call = none)
    {queue : Queue} {memory : Option ℕ} (hfr : s.fresh memory = true) (husab : s.usable queue = true) :
    ∃ W' T' A', Inv (s.ioPollWait t queue memory) W' T' A' := by
  unfold PollState.ioPollWait
  split
  · exact ⟨W, T, A, h.answer t _ _⟩
  cases memory with
  | none => exact ⟨W, T, A, h.answer t _ _⟩
  | some id =>
    have hfree : s.record id = none := by simpa [PollState.fresh] using hfr
    have htes := h.testing hstay hwait hidle hfree 1
    have hwatch := htes.lists.watchOne (x := (id, 0)) (w := ⟨t, 0, 1⟩)
      (fun q hmem => htes.watches q _ hmem rfl) husab htes.record Nat.one_pos
    dsimp only
    generalize hs₁ : (s.create t id 1).ioPollWatch (some queue) (id, 0) = s₁ at hwatch
    have hrec : s₁.record id = some ⟨t, 0, 1⟩ := by rw [← hs₁]; exact htes.record
    have htsk : s₁.task = s.task := by rw [← hs₁]; rfl
    have hself : (((s₁.setTask t fun task => { task with call := some ⟨id, none, [some queue]⟩ }).fallBlocked t).task t).Stays
        ∧ (((s₁.setTask t fun task => { task with call := some ⟨id, none, [some queue]⟩ }).fallBlocked t).task t).call =
          some ⟨id, none, [some queue]⟩ := by
      obtain ⟨hl, hc⟩ := fallBlocked_task (s₁.setTask t fun task => { task with call := some ⟨id, none, [some queue]⟩ }) t
      rw [hl, hc, setTask_task_self]
      exact ⟨by rw [htsk]; exact hstay, rfl⟩
    refine ⟨_, T, id :: A, (hwatch.congr (setTask_same _ _ _)).congr (fallBlocked_same _ _), ?_⟩
    have hoths : Others ((s₁.setTask t fun task => { task with call := some ⟨id, none, [some queue]⟩ }).fallBlocked t)
        (update W queue ((id, 0) :: W queue)) T t id := by
      refine htes.others.mono (fun x _ => ?_)
        (fun u hu => (setTask_task_of_ne _ _ hu).trans ((setTask_task_of_ne _ _ hu).trans (congrFun htsk u)))
        (fun q x hx _ => ?_) fun _ hx _ => hx
      · change s₁.record x = _
        rw [← hs₁]
        rfl
      · by_cases hq : q = queue
        · subst hq
          rw [update_self]
          exact List.mem_cons_of_mem _ hx
        · rwa [update_of_ne hq]
    refine hoths.calls (w := ⟨t, 0, 1⟩) rfl hself.1 hself.2 ⟨hrec, rfl, nofun⟩ fun _ => ⟨fun i q hq => ?_, nofun⟩
    cases i with
    | zero =>
      obtain rfl := Option.some.inj (Option.some.inj hq)
      rw [update_self]
      exact List.mem_cons_self
    | succ i => cases hq

/-- **The rest of a call.** -/
theorem resume (hstay : (s.task t).Stays) (hwait : (s.task t).waiting = false) {c : Call}
    (hc : (s.task t).call = some c) {env : Env} (hfin : c.poll.all fun poll => s.finds poll env) :
    ∃ W' T' A', Inv (s.resume t c env) W' T' A' ∧ ∀ poll, c.poll = some poll →
    Called (s.resume t c env) t c.record poll env := by
  have hoths := h.calls.others hc hstay.2
  obtain ⟨w, hw⟩ := h.calls.called t c hc hstay.2
  unfold PollState.resume
  cases hpoll : c.poll with
  | none =>
    obtain ⟨hinv, -⟩ := h.lists.leave hoths hwait (if (s.task t).interrupted then -4 else 0) []
    exact ⟨_, _, _, hinv, nofun⟩
  | some poll =>
    rw [hpoll] at hfin
    have htes : Testing (s.detach c.record) (fun q => (W q).filter fun x => decide (x.1 ≠ c.record)) (T.erase c.record) A t
        c.record w := by
      refine ⟨h.lists.detach c.record, hoths.mono (fun x _ => by rw [detach_record]) (fun u _ => by rw [detach_task])
        (fun q x hx hne => List.mem_filter.mpr ⟨hx, decide_eq_true hne⟩) fun x hx hne => (List.mem_erase_of_ne hne).mpr hx,
        by rw [detach_record]; exact hw.record, hw.task, by rw [detach_task]; exact hstay, by rw [detach_task]; exact hwait,
        fun q x hx => of_decide_eq_true (List.mem_filter.mp hx).2, (h.lists.timers.isList ()).nodup.not_mem_erase⟩
    have hfin' : (s.detach c.record).finds poll env = true := by
      unfold PollState.finds at hfin ⊢
      rw [detach_usable]
      exact hfin
    obtain ⟨W', T', A', hinv, hcal⟩ := htes.pollPass (hw.count poll hpoll).1 hfin'
    refine ⟨W', T', A', hinv, fun poll' heq => ?_⟩
    cases heq
    exact hcal

end Inv

/-! ### The end of a task -/

/-- The records of a task are gone, those of the other tasks are as they were. -/
structure Cancelled (s s' : PollState) (W W' : Queue → List (ℕ × ℕ)) (T T' : List ℕ) (t : ℕ) : Prop where
  other : ∀ x w, s.record x = some w → w.task ≠ t → s'.record x = some w
  old : ∀ x w, s'.record x = some w → s.record x = some w
  watches : ∀ q x w, s.record x.1 = some w → w.task ≠ t → x ∈ W q → x ∈ W' q
  timers : ∀ x w, s.record x = some w → w.task ≠ t → x ∈ T → x ∈ T'
  task : s'.task = s.task

/-- **The loop of `io_poll_cancel_task`.** -/
theorem Lists.cancelLoop (pre rest : List ℕ) {fuel : ℕ} (h : Lists s W T (pre ++ rest)) (hfuel : rest.length ≤ fuel)
    (hpre : ∀ x ∈ pre, ∀ w, s.record x = some w → w.task ≠ t) :
    ∃ W' T' A', Lists (PollState.cancelLoop t fuel rest.head? s) W' T' A' ∧
      Cancelled s (PollState.cancelLoop t fuel rest.head? s) W W' T T' t ∧
      ∀ x w, (PollState.cancelLoop t fuel rest.head? s).record x = some w → w.task ≠ t := by
  induction rest generalizing s W T pre fuel with
  | nil =>
    have hdone : PollState.cancelLoop t fuel ([] : List ℕ).head? s = s := by cases fuel <;> rfl
    rw [hdone]
    refine ⟨W, T, pre ++ [], h, ⟨fun _ _ hw _ => hw, fun _ _ hw => hw, fun _ _ _ _ _ hx => hx, fun _ _ _ _ hx => hx, rfl⟩,
      fun x w hw => hpre x ?_ w hw⟩
    have hmem := (h.record x).mpr (by rw [hw]; rfl)
    rwa [List.append_nil] at hmem
  | cons id rest ih =>
    cases fuel with
    | zero => cases hfuel
    | succ fuel =>
      have hnext : s.waiters.next id = rest.head? := (h.waiters.isList ()).next pre id rest rfl
      rw [List.head?_cons]
      unfold PollState.cancelLoop
      dsimp only
      rw [hnext]
      obtain ⟨w, hw⟩ := Option.isSome_iff_exists.mp ((h.record id).mp (by simp))
      have hfuel' : rest.length ≤ fuel := Nat.le_of_succ_le_succ hfuel
      rw [hw, Option.any_some]
      by_cases htsk : w.task = t
      · rw [if_pos (decide_eq_true htsk)]
        have hnd := (h.waiters.isList ()).nodup
        have hid : id ∉ pre := fun hmem => (List.nodup_append.mp hnd).2.2 id hmem id List.mem_cons_self rfl
        have hdest := h.destroy id
        rw [List.erase_append_right _ hid, List.erase_cons_head] at hdest
        have hrec : ∀ x v, (s.destroy id).record x = some v → s.record x = some v ∧ x ≠ id := fun x v hv => by
          by_cases hx : x = id
          · rw [hx, destroy_record_self] at hv
            cases hv
          · rw [destroy_record_of_ne s hx] at hv
            exact ⟨hv, hx⟩
        obtain ⟨W', T', A', hls, hcanc, hgone⟩ := ih pre hdest hfuel' fun x hx v hv => hpre x hx v (hrec x v hv).1
        have hne : ∀ x v, s.record x = some v → v.task ≠ t → x ≠ id := fun x v hv hvt hx => by
          rw [hx, hw] at hv
          exact hvt ((congrArg Waiter.task (Option.some.inj hv)).symm.trans htsk)
        have hsame : ∀ x v, s.record x = some v → v.task ≠ t → (s.destroy id).record x = some v := fun x v hv hvt => by
          rw [destroy_record_of_ne s (hne x v hv hvt), hv]
        refine ⟨W', T', A', hls, ⟨fun x v hv hvt => hcanc.other x v (hsame x v hv hvt) hvt,
          fun x v hv => (hrec x v (hcanc.old x v hv)).1, fun q x v hv hvt hx => ?_, fun x v hv hvt hx => ?_, ?_⟩, hgone⟩
        · exact hcanc.watches q x v (hsame x.1 v hv hvt) hvt
            (List.mem_filter.mpr ⟨hx, decide_eq_true (hne x.1 v hv hvt)⟩)
        · exact hcanc.timers x v (hsame x v hv hvt) hvt ((List.mem_erase_of_ne (hne x v hv hvt)).mpr hx)
        · rw [hcanc.task, destroy_task]
      · rw [if_neg (by simpa using htsk)]
        refine ih (pre ++ [id]) (by rwa [List.append_assoc, List.singleton_append]) hfuel' fun x hx v hv => ?_
        rcases List.mem_append.mp hx with hx | hx
        · exact hpre x hx v hv
        · obtain rfl := List.mem_singleton.mp hx
          rw [hw] at hv
          exact (congrArg Waiter.task (Option.some.inj hv)) ▸ htsk

/-- **The finish of a task begins**: it has no record any more. -/
theorem Inv.finishTask (h : Inv s W T A) (t : ℕ) : ∃ W' T' A', Inv (s.finishTask t) W' T' A' := by
  have hhead := (h.lists.waiters.isList ()).head
  obtain ⟨W', T', A', hls, hcanc, hgone⟩ := Lists.cancelLoop [] A (t := t) h.lists h.lists.length_le
    nofun
  rw [← hhead] at hls hcanc hgone
  unfold PollState.finishTask PollState.ioPollCancelTask
  generalize PollState.cancelLoop t s.records (s.waiters.head ()) s = s₁ at hls hcanc hgone
  refine ⟨W', T', A', hls.congr (setTask_same _ _ _), fun x w hw => ?_, fun u c hc hfin => ?_, fun u hu => ?_⟩
  · have hne := hgone x w hw
    rw [setTask_task_of_ne _ _ hne, hcanc.task]
    exact h.calls.owner x w (hcanc.old x w hw)
  · by_cases hu : u = t
    · rw [hu, setTask_task_self] at hfin
      cases hfin
    · rw [setTask_task_of_ne _ _ hu, hcanc.task] at hc hfin
      obtain ⟨w, hw, htsk, hcnt⟩ := h.calls.called u c hc hfin
      exact ⟨w, hcanc.other _ w hw (by rwa [htsk]), htsk, hcnt⟩
  · by_cases hut : u = t
    · have hfin := hu.1.2
      rw [hut, setTask_task_self] at hfin
      cases hfin
    · unfold Blocked at hu
      rw [setTask_task_of_ne _ _ hut, hcanc.task] at hu ⊢
      obtain ⟨c, hc, hsub⟩ := h.calls.blocked u hu
      obtain ⟨w, hw, htsk, -⟩ := h.calls.called u c hc hu.1.2
      have hne : w.task ≠ t := by rwa [htsk]
      refine ⟨c, hc, fun i q hq => hcanc.watches q _ w hw hne (hsub.watched i q hq), fun hp hd =>
        hcanc.timers _ w hw hne (hsub.timed hp ?_)⟩
      unfold PollState.deadline at hd ⊢
      rw [hw]
      change ((s₁.record c.record).map (·.deadline)).getD uint64Max ≠ _ at hd
      rwa [hcanc.other _ w hw hne] at hd

/-- **A task that has no record changes.** -/
lemma Inv.ended (h : Inv s W T A) (hnone : ∀ x w, s.record x = some w → w.task ≠ t) (f : Task → Task)
    (hcall : (f (s.task t)).call = none) (hwait : (f (s.task t)).waiting = false) : Inv (s.setTask t f) W T A := by
  refine ⟨h.lists.congr (setTask_same s t f), fun x w hw => ?_, fun u c hc hfin => ?_, fun u hu => ?_⟩
  · rw [setTask_task_of_ne _ _ (hnone x w hw)]
    exact h.calls.owner x w hw
  · by_cases hut : u = t
    · rw [hut, setTask_task_self, hcall] at hc
      cases hc
    · rw [setTask_task_of_ne _ _ hut] at hc hfin
      obtain ⟨w, hw, htsk, hcnt⟩ := h.calls.called u c hc hfin
      exact ⟨w, hw, htsk, hcnt⟩
  · unfold Blocked at hu
    by_cases hut : u = t
    · rw [hut, setTask_task_self, hwait] at hu
      cases hu.2.1
    · rw [setTask_task_of_ne _ _ hut] at hu ⊢
      obtain ⟨c, hc, hsub⟩ := h.calls.blocked u hu
      exact ⟨c, hc, hsub.watched, hsub.timed⟩

/-! ### Every run -/

/-- No task goes on in a call, or calls, that a `finish_task` is releasing. -/
def Spares (s : PollState) : PollEvent → Prop
  | .poll t _ _ _ _ | .wait t _ _ | .resume t _ => (s.task t).finishers = 0
  | _ => True

/-- The lists are well formed, and whatever is linked belongs to the record of a live task that is in a call and not being
finished. -/
structure WellFormed (s : PollState) (W : Queue → List (ℕ × ℕ)) (T A : List ℕ) : Prop where
  watches : IsLists s.watches W
  timers : IsLists s.timers fun _ => T
  waiters : IsLists s.waiters fun _ => A
  sorted : T.Pairwise fun x y => s.deadline x ≤ s.deadline y
  watch : ∀ q, ∀ x ∈ W q, s.usable q = true ∧ ∃ w, s.record x.1 = some w ∧ x.2 < w.count
  timed : ∀ id ∈ T, ∃ w, s.record id = some w ∧ w.deadline ≠ uint64Max
  listed : ∀ id, id ∈ A ↔ (s.record id).isSome = true
  owner : ∀ id w, s.record id = some w → (s.task w.task).Stays ∧ ∃ c, (s.task w.task).call = some c ∧ c.record = id
  /-- nothing is linked of a record that has been destroyed -/
  unlinked : ∀ id, s.record id = none →
    (∀ i, s.watches.prev (id, i) = none) ∧ s.timers.prev id = none ∧ s.waiters.prev id = none
  /-- a task whose call has returned or has been cancelled, or that has been finished, has no record -/
  left : ∀ t, (s.task t).call = none ∨ (s.task t).live = false ∨ (s.task t).finishers ≠ 0 → ∀ id w,
  s.record id = some w → w.task ≠ t
  /-- a task that is blocked in a call has a watch in every queue that it has asked about -/
  blocked : ∀ t, Blocked s t → ∃ c, (s.task t).call = some c ∧
    (∀ i q, c.asked[i]? = some (some q) → (c.record, i) ∈ W q) ∧
    ∀ p, c.poll = some p → c.asked.length = p.fds.length ∧ (s.deadline c.record ≠ uint64Max → c.record ∈ T)

lemma Inv.wellFormed (h : Inv s W T A) : WellFormed s W T A := by
  refine ⟨h.lists.watches, h.lists.timers, h.lists.waiters, h.lists.sorted,
    fun q x hx => ⟨h.lists.usable q x hx, h.lists.watch q x hx⟩, h.lists.timed, h.lists.record, h.calls.owner,
    fun id hid => ⟨fun i => ?_, ?_, ?_⟩, fun t ht id w hw heq => ?_, fun t ht => ?_⟩
  · exact h.lists.watches.prev_eq_none fun q hmem => h.lists.not_watched hid hmem rfl
  · exact h.lists.timers.prev_eq_none fun _ hmem => h.lists.not_timed hid hmem
  · refine h.lists.waiters.prev_eq_none fun _ hmem => ?_
    have hsome := (h.lists.record id).mp hmem
    rw [hid] at hsome
    cases hsome
  · obtain ⟨⟨hlive, hfin⟩, c, hc, -⟩ := h.calls.owner id w hw
    rw [heq] at hlive hfin hc
    rcases ht with hidle | hdead | hfin'
    · rw [hidle] at hc
      cases hc
    · rw [hdead] at hlive
      cases hlive
    · exact hfin' hfin
  · obtain ⟨c, hc, hsub⟩ := h.calls.blocked t ht
    obtain ⟨w, hw⟩ := h.calls.called t c hc ht.1.2
    exact ⟨c, hc, hsub.watched, fun p hp => ⟨(hw.count p hp).2, hsub.timed (by rw [hp]; rfl)⟩⟩

/-- What a step does to the tasks that wait -/
structure StepContract (s : PollState) (e : PollEvent) (s' : PollState) : Prop where
  /-- a wake makes every task runnable that is blocked and has asked about the queue, which then goes on with its call -/
  woken : ∀ q, e = .wake q ∨ e = .release q → ∀ t c, Blocked s t → (s.task t).call = some c → some q ∈ c.asked →
    (s'.task t).waiting = false ∧ (s'.task t).call = some c
  /-- a task that goes on with `io_poll` tests all its descriptors: it leaves, or none of them is ready -/
  tested : ∀ t env c poll, e = .resume t env → (s.task t).call = some c → c.poll = some poll →
    Called s' t c.record poll env
  /-- and so does a task that calls `io_poll` -/
  called : ∀ t call accessible memory env, e = .poll t call accessible memory env → ∃ id, Called s' t id call env

lemma Woken.contract (hwok : Woken s s') {q : Queue} (h : Inv s' W' T' A') (hemp : W' q = []) {c : Call}
    (hblk : Blocked s t) (hc : (s.task t).call = some c) (hask : some q ∈ c.asked) :
    (s'.task t).waiting = false ∧ (s'.task t).call = some c := by
  have hcall : (s'.task t).call = some c := (hwok.kept t).2.1.trans hc
  refine ⟨?_, hcall⟩
  by_contra hwait
  rw [Bool.not_eq_false] at hwait
  have hsame := hwok.waiting t hwait
  obtain ⟨c', hc', hsub⟩ := h.calls.blocked t (by unfold Blocked at hblk ⊢; rwa [hsame])
  rw [hcall] at hc'
  cases hc'
  obtain ⟨i, hi⟩ := List.mem_iff_getElem?.mp hask
  have hmem := hsub.watched i q hi
  rw [hemp] at hmem
  cases hmem

lemma StepContract.of_other {e : PollEvent} (hwake : ∀ q, e ≠ .wake q) (hrel : ∀ q, e ≠ .release q)
    (hres : ∀ t env, e ≠ .resume t env) (hpoll : ∀ t call accessible memory env, e ≠ .poll t call accessible memory env) :
    StepContract s e s' :=
  ⟨fun q he => (he.elim (hwake q) (hrel q)).elim, fun t env _ _ he => (hres t env he).elim,
    fun t call accessible memory env he => (hpoll t call accessible memory env he).elim⟩

namespace Inv

lemma of_initial (hs : s.initial) : Inv s (fun _ => []) [] [] := by
  obtain ⟨hidle, hnone, hwtrs, htmrs, hwatc, hprev, hprev', hprev''⟩ := hs
  have hemp : ∀ {η ν : Type} {L : Links η ν}, (∀ b, L.head b = none) → (∀ t, L.prev t = none) →
      IsLists L fun _ => [] := fun hheads hprevs =>
    ⟨fun b => ⟨List.nodup_nil, hheads b, fun a x c hl => by simp at hl, fun a x c hl => by simp at hl⟩,
      fun x => by simp [hprevs x]⟩
  refine ⟨⟨hemp hwatc hprev'', hemp (fun _ => htmrs) hprev', hemp (fun _ => hwtrs) hprev, fun x => ?_,
    fun x hx => ?_, nofun, nofun, nofun, List.Pairwise.nil⟩, fun x w hw => ?_, fun u c hc _ => ?_, fun u hu => ?_⟩
  · rw [hnone x]
    simp
  · rw [hnone x] at hx
    cases hx
  · rw [hnone x] at hw
    cases hw
  · rw [(hidle u).2] at hc
    cases hc
  · have hlive := hu.1.1
    rw [(hidle u).1] at hlive
    cases hlive

variable (h : Inv s W T A)

include h

lemma setTask (t : ℕ) (f : Task → Task) (hlive : (f (s.task t)).live = (s.task t).live)
    (hcall : (f (s.task t)).call = (s.task t).call) (hfin : (f (s.task t)).finishers = (s.task t).finishers)
    (hblk : (f (s.task t)).waiting = true → (f (s.task t)).ioReason = true →
      (s.task t).waiting = true ∧ (s.task t).ioReason = true) : Inv (s.setTask t f) W T A := by
  refine ⟨h.lists.congr (setTask_same s t f), h.calls.congr rfl (fun x => ?_) fun x hx => ?_⟩
  · by_cases hxt : x = t
    · rw [hxt, setTask_task_self]
      exact ⟨hlive, hcall, hfin⟩
    · rw [setTask_task_of_ne _ _ hxt]
      exact ⟨rfl, rfl, rfl⟩
  · unfold Blocked Task.Stays at hx
    by_cases hxt : x = t
    · rw [hxt, setTask_task_self, hlive, hfin] at hx
      rw [hxt]
      exact ⟨hx.1, hblk hx.2.1 hx.2.2⟩
    · rwa [setTask_task_of_ne _ _ hxt] at hx

lemma start {q : Queue} (hq : s.usable q = false) :
    Inv { s with
      usable := update s.usable q true
      watches := { s.watches with head := update s.watches.head q none } } W T A := by
  have hemp : W q = [] := List.eq_nil_iff_forall_not_mem.mpr fun x hx => by
    rw [h.lists.usable q x hx] at hq
    cases hq
  have hwatc : ({ s.watches with head := update s.watches.head q none } : Links Queue (ℕ × ℕ)) = s.watches := by
    have hhead := (h.lists.watches.isList q).head
    rw [hemp] at hhead
    rw [show (none : Option (ℕ × ℕ)) = s.watches.head q from hhead.symm, Function.update_eq_self]
  rw [hwatc]
  refine ⟨{ h.lists with usable := fun q' x hx => ?_ }, ⟨h.calls.owner, fun u c hc hfin => ?_, fun u hu => ?_⟩⟩
  · dsimp only
    by_cases heq : q' = q
    · rw [heq, update_self]
    · rw [update_of_ne heq]
      exact h.lists.usable q' x hx
  · obtain ⟨w, hw, htsk, hcnt⟩ := h.calls.called u c hc hfin
    exact ⟨w, hw, htsk, hcnt⟩
  · obtain ⟨c, hc, hsub⟩ := h.calls.blocked u hu
    exact ⟨c, hc, hsub.watched, hsub.timed⟩

/-- **Every step keeps the lists and the calls, and wakes and tests as it should.** -/
theorem step {e : PollEvent} (hspare : Spares s e) (he : s.step e = some s') :
    (∃ W' T' A', Inv s' W' T' A') ∧ StepContract s e s' := by
  cases e with
  | create t =>
    simp only [PollState.step, Option.ite_none_right_eq_some, Option.some.injEq, Bool.not_eq_true'] at he
    obtain ⟨hdead, rfl⟩ := he
    exact ⟨⟨W, T, A, h.ended (h.wellFormed.left t (.inr (.inl hdead))) _ rfl rfl⟩, .of_other nofun nofun nofun nofun⟩
  | start q =>
    simp only [PollState.step, Option.ite_none_right_eq_some, Option.some.injEq, Bool.not_eq_true'] at he
    obtain ⟨hq, rfl⟩ := he
    exact ⟨⟨W, T, A, h.start hq⟩, .of_other nofun nofun nofun nofun⟩
  | wake q =>
    simp only [PollState.step, Option.ite_none_right_eq_some, Option.some.injEq] at he
    obtain ⟨-, rfl⟩ := he
    obtain ⟨W', T', hinv, hemp, hwok⟩ := h.ioPollWake q
    refine ⟨⟨W', T', A, hinv⟩, ⟨fun q' hq' t c hb hc hask => ?_, nofun, nofun⟩⟩
    rcases hq' with heq | heq <;> cases heq
    exact hwok.contract hinv hemp hb hc hask
  | release q =>
    simp only [PollState.step, Option.ite_none_right_eq_some, Option.some.injEq] at he
    obtain ⟨-, rfl⟩ := he
    obtain ⟨W', T', hinv, hemp, hwok⟩ := h.ioPollWake q
    refine ⟨⟨W', T', A, { hinv.lists with usable := fun q' x hx => ?_ },
      ⟨hinv.calls.owner, fun u c hc hfin => ?_, fun u hu => ?_⟩⟩,
      ⟨fun q' hq' t c hb hc hask => ?_, nofun, nofun⟩⟩
    · dsimp only
      rw [update_of_ne, hinv.lists.usable q' x hx]
      rintro rfl
      rw [hemp] at hx
      cases hx
    · obtain ⟨w, hw, htsk, hcnt⟩ := hinv.calls.called u c hc hfin
      exact ⟨w, hw, htsk, hcnt⟩
    · obtain ⟨c, hc, hsub⟩ := hinv.calls.blocked u hu
      exact ⟨c, hc, hsub.watched, hsub.timed⟩
    · rcases hq' with heq | heq <;> cases heq
      exact hwok.contract hinv hemp hb hc hask
  | poll t call accessible memory env =>
    simp only [PollState.step, Option.ite_none_right_eq_some, Option.some.injEq, PollState.idle, Bool.and_eq_true,
      Bool.not_eq_true', Option.isNone_iff_eq_none] at he
    obtain ⟨⟨⟨⟨hlive, hwait⟩, hidle⟩, hfr, hfin⟩, rfl⟩ := he
    obtain ⟨W', T', A', hinv, hcal⟩ := h.ioPoll ⟨hlive, hspare⟩ hwait hidle hfr hfin
    refine ⟨⟨W', T', A', hinv⟩, ⟨fun q hq => hq.elim nofun nofun, nofun, ?_⟩⟩
    rintro _ _ _ _ _ ⟨rfl, rfl, rfl, rfl, rfl⟩
    exact hcal
  | wait t queue memory =>
    simp only [PollState.step, Option.ite_none_right_eq_some, Option.some.injEq, PollState.idle, Bool.and_eq_true,
      Bool.not_eq_true', Option.isNone_iff_eq_none] at he
    obtain ⟨⟨⟨⟨hlive, hwait⟩, hidle⟩, hfr, husab⟩, rfl⟩ := he
    exact ⟨h.ioPollWait ⟨hlive, hspare⟩ hwait hidle hfr husab, .of_other nofun nofun nofun nofun⟩
  | resume t env =>
    simp only [PollState.step, Option.ite_none_right_eq_some, Bool.not_eq_true'] at he
    obtain ⟨⟨hlive, hwait⟩, he⟩ := he
    split at he
    · cases he
    · rename_i c hc
      simp only [Option.ite_none_right_eq_some, Option.some.injEq] at he
      obtain ⟨hfin, rfl⟩ := he
      obtain ⟨W', T', A', hinv, hcal⟩ := h.resume ⟨hlive, hspare⟩ hwait hc hfin
      refine ⟨⟨W', T', A', hinv⟩, ⟨fun q hq => hq.elim nofun nofun, ?_, nofun⟩⟩
      rintro _ _ c' poll ⟨rfl, rfl⟩ hc' hpoll
      rw [hc] at hc'
      cases hc'
      exact hcal poll hpoll
  | clock now =>
    simp only [PollState.step, Option.ite_none_right_eq_some, Option.some.injEq] at he
    obtain ⟨-, rfl⟩ := he
    refine ⟨⟨W, T, A, ⟨h.lists.watches, h.lists.timers, h.lists.waiters, h.lists.record, h.lists.bound, h.lists.usable,
      h.lists.watch, h.lists.timed, h.lists.sorted⟩, h.calls.congr rfl (fun _ => ⟨rfl, rfl, rfl⟩) fun _ hx => hx⟩,
      .of_other nofun nofun nofun nofun⟩
  | tick =>
    cases he
    obtain ⟨W', T', hinv, -⟩ := Inv.tickLoop s.records h
    exact ⟨⟨W', T', A, hinv⟩, .of_other nofun nofun nofun nofun⟩
  | signal t =>
    cases he
    have hset := h.setTask t (fun task => { task with interrupted := true }) rfl rfl rfl fun hw hr => ⟨hw, hr⟩
    refine ⟨⟨W, T, A, ?_⟩, .of_other nofun nofun nofun nofun⟩
    split
    · exact hset.taskRun t
    · exact hset
  | mask t interrupted =>
    cases he
    exact ⟨⟨W, T, A, h.setTask t _ rfl rfl rfl fun hw hr => ⟨hw, hr⟩⟩, .of_other nofun nofun nofun nofun⟩
  | run t =>
    cases he
    exact ⟨⟨W, T, A, h.taskRun t⟩, .of_other nofun nofun nofun nofun⟩
  | block t =>
    simp only [PollState.step, Option.ite_none_right_eq_some, Option.some.injEq, PollState.idle, Bool.and_eq_true,
      Bool.not_eq_true'] at he
    obtain ⟨⟨⟨-, hwait⟩, -⟩, rfl⟩ := he
    refine ⟨⟨W, T, A, h.setTask t _ ?_ ?_ ?_ fun hw hr => ?_⟩, .of_other nofun nofun nofun nofun⟩
    · split <;> rfl
    · split <;> rfl
    · split <;> rfl
    · split at hw
      · rw [hwait] at hw
        cases hw
      · rename_i hrdy
        rw [if_neg hrdy] at hr
        cases hr
  | finish t =>
    simp only [PollState.step, Option.ite_none_right_eq_some, Option.some.injEq] at he
    obtain ⟨-, rfl⟩ := he
    exact ⟨h.finishTask t, .of_other nofun nofun nofun nofun⟩
  | finishEnd t =>
    simp only [PollState.step, Option.ite_none_right_eq_some, Option.some.injEq] at he
    obtain ⟨hfin, rfl⟩ := he
    exact ⟨⟨W, T, A, h.ended (h.wellFormed.left t (.inr (.inr hfin.ne'))) _ rfl rfl⟩,
      .of_other nofun nofun nofun nofun⟩
  | defer t =>
    simp only [PollState.step, Option.ite_none_right_eq_some, Option.some.injEq] at he
    obtain ⟨-, rfl⟩ := he
    exact ⟨⟨W, T, A, h.setTask t _ rfl rfl rfl fun _ hr => by cases hr⟩, .of_other nofun nofun nofun nofun⟩

end Inv

lemma guarded_inv (h : sys.Guarded Spares s) : ∃ W T A, Inv s W T A :=
  h.invariant (P := fun s => ∃ W T A, Inv s W T A) (fun _ hs => ⟨_, _, _, .of_initial hs⟩)
    fun _ _ _ ⟨_, _, _, hinv⟩ hspare he => (hinv.step hspare he).1

def quiet : PollState where
  task _ := ⟨false, false, false, false, false, none, 0⟩
  records := 0
  record _ := none
  waiters := ⟨fun _ => none, fun _ => none, fun _ => none⟩
  timers := ⟨fun _ => none, fun _ => none, fun _ => none⟩
  watches := ⟨fun _ => none, fun _ => none, fun _ => none⟩
  usable _ := false
  now := 0
  returned _ := none

lemma quiet_initial : quiet.initial :=
  ⟨fun _ => ⟨rfl, rfl⟩, fun _ => rfl, rfl, rfl, fun _ => rfl, fun _ => rfl, fun _ => rfl, fun _ => rfl⟩

/-- A task waits for the end of an empty pipe, which it asks about twice, and another one for the same pipe, which is
killed. -/
def polling : List PollEvent :=
  [.create 1, .create 2, .start (.readers 7),
    .poll 1 ⟨[⟨5, pollin⟩, ⟨5, pollin⟩], 1000, true⟩ true (some 3) ⟨fun _ => .pipe 7 true 0 true true, true⟩,
    .wait 2 (.readers 7) (some 4), .finish 2, .run 2, .finishEnd 2]

/-- A task waits for an empty pipe and is killed; the release sleeps, a key wakes the task, and it tests the pipe
again. -/
def wokenInRelease : List PollEvent :=
  [.create 1, .start (.readers 7),
    .poll 1 ⟨[⟨5, pollin⟩], -1, true⟩ true (some 3) ⟨fun _ => .pipe 7 true 0 true true, true⟩, .finish 1, .run 1,
    .resume 1 ⟨fun _ => .pipe 7 true 0 true true, true⟩]

end PlantOS.Poll

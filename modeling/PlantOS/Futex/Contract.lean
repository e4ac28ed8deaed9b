import PlantOS.Futex.Queues

/-!
# What futexes promise

The queues in every reachable state, what one wake does, and what any step may do to a task that waits.
-/

namespace PlantOS.Futex

open Lib.HeadedList FutexState
open Function (update_of_ne update_self)

variable {s s' : FutexState} {B : Fin futexBucketCount → List ℕ} {D : List ℕ} {t : ℕ}

/-! ### One wake -/

/-- What a wake of `value` waiters in `s` promises of the state and the number that it gives. -/
structure WakeContract (s : FutexState) (tgid address value now : ℕ) (result : FutexState × ℕ) : Prop where
  le : result.2 ≤ value
  count : ∃ ts : List ℕ, ts.Nodup ∧ ts.length = result.2 ∧
    ∀ t, t ∈ ts ↔ Queued s t ∧ ¬Queued result.1 t ∧ (result.1.waiter t).result = .ok
  released : ∀ t, Queued s t → ¬Queued result.1 t →
    ((s.task t).tgid = tgid ∧ (s.waiter t).address = address) ∧ (result.1.task t).waiting = false ∧
      (result.1.waiter t).result = if s.expired now t then .timedOut else .ok
  complete : result.2 < value → ∀ t, Queued s t → (s.task t).tgid = tgid → (s.waiter t).address = address →
    ¬Queued result.1 t
  others : ∀ t, ¬(Queued s t ∧ ¬Queued result.1 t) → result.1.task t = s.task t ∧ result.1.waiter t = s.waiter t

theorem Queues.wakeContract (h : Queues s B D) (tgid address value now : ℕ) :
    WakeContract s tgid address value now (s.futexWake tgid address value now) := by
  obtain ⟨hrel, hcnt, -⟩ := h.futexWake tgid address value now
  set ts := picks (s.matching tgid address) (s.expired now) value (B (bucketOf tgid address)) 0 with hts
  have hsub := picks_sublist (s.matching tgid address) (s.expired now) value
    (B (bucketOf tgid address)) 0
  obtain ⟨hle, hall⟩ := picks_count (s.matching tgid address) (s.expired now)
    (B (bucketOf tgid address)) 0 (Nat.zero_le value)
  rw [Nat.zero_add, ← hts] at hle hall
  have hqud : ∀ x, Queued s x ∧ ¬Queued (s.futexWake tgid address value now).1 x ↔ x ∈ ts := by
    intro x
    rw [hrel.queued]
    refine ⟨fun ⟨hx, hnot⟩ => ?_, fun hx => ⟨(h.queued_iff x).mpr ⟨_, hsub.subset hx⟩, fun hand => hand.2 hx⟩⟩
    by_contra hmem
    exact hnot ⟨hx, hmem⟩
  have hres : ∀ x ∈ ts, ((s.futexWake tgid address value now).1.waiter x).result = s.verdict now x := fun x hx => by
    rw [hrel.done x hx]
  refine ⟨hcnt ▸ hle, ⟨ts.filter (!s.expired now ·), ?_, hcnt.symm, fun x => ?_⟩, fun x hx hnot => ?_,
    fun hlt x hx htgid haddr => ?_, fun x hx => ?_⟩
  · exact (hsub.nodup (h.nodup _)).sublist List.filter_sublist
  · rw [List.mem_filter, ← and_assoc, hqud]
    refine and_congr_right fun hx => ?_
    rw [hres x hx]
    unfold FutexState.verdict
    cases s.expired now x <;> simp
  · have hmem : x ∈ ts := (hqud x).mp ⟨hx, hnot⟩
    have hmat : s.matching tgid address x = true := matching_of_picks hmem
    obtain ⟨b, hb⟩ := (h.queued_iff x).mp hx
    exact ⟨by simpa [FutexState.matching] using hmat, hrel.running x hmem (h.live b x hb).1, hres x hmem⟩
  · obtain ⟨b, hb⟩ := (h.queued_iff x).mp hx
    have hplac := h.placed b x hb
    rw [htgid, haddr] at hplac
    have hmem : x ∈ ts := hall (hcnt ▸ hlt) x (hplac ▸ hb) (by simp [FutexState.matching, htgid, haddr])
    exact ((hqud x).mpr hmem).2
  · have hmem : x ∉ ts := fun hmem => hx ((hqud x).mpr hmem)
    exact ⟨hrel.task x hmem, hrel.waiter x hmem⟩

/-! ### The invariant -/

/-- No task waits that a `finish_task` is releasing. -/
def Spares (s : FutexState) : FutexEvent → Prop
  | .operation t .wait _ _ _ _ => (s.task t).finishers = 0
  | _ => True

instance : ∀ s e, Decidable (Spares s e) := fun s e => by
  unfold Spares
  split <;> infer_instance

/-- The queues are in order, every blocked waiter is in them and none that is being finished, and only tasks in use
wait. -/
structure Inv (s : FutexState) : Prop where
  queues : ∃ B D, Queues s B D
  blocked : ∀ t, Blocked s t → Queued s t
  kept : ∀ t, Queued s t → (s.task t).finishers = 0
  live : ∀ t, (s.task t).inWait = true → (s.task t).live = true
  counted : ∀ t, (s.task t).live = true → t < s.slotCount

/-- The step has released the queued waiter, with the result that stands for it. -/
def ReleasedBy (s : FutexState) (e : FutexEvent) (s' : FutexState) (t : ℕ) : Prop :=
  match e with
  | .tick => (s.waiter t).deadlineNs ≤ s.now ∧ (s'.task t).waiting = false ∧ (s'.waiter t).result = .timedOut
  | .operation u operation request _ _ _ =>
    operation = .wake ∧ (s.task t).tgid = (s.task u).tgid ∧ (s.waiter t).address = request.address ∧
      (s'.task t).waiting = false ∧ (s'.waiter t).result = s.verdict s.now t
  | .resume u => u = t ∧ s'.returned t = some (.inl .interrupted)
  | .finish u => u = t
  | _ => False

/-- What a step may do to a task that waits: a queued waiter stays or is released as the step says, and one that has
been released keeps its result until the wait returns it. -/
structure StepContract (s : FutexState) (e : FutexEvent) (s' : FutexState) : Prop where
  queued : ∀ t, Queued s t → (Queued s' t ∧ s'.waiter t = s.waiter t) ∨ ¬Queued s' t ∧ ReleasedBy s e s' t
  released : ∀ t, (s.task t).inWait = true → ¬Queued s t →
    ((s'.task t).inWait = true ∧ ¬Queued s' t ∧ s'.waiter t = s.waiter t) ∨
      e = .resume t ∧ s'.returned t = some (.inl (s.waiter t).result) ∨ e = .finishEnd t

lemma StepContract.of_same {e : FutexEvent} (hbkts : s'.buckets = s.buckets) (hwtr : s'.waiter = s.waiter)
    (hwait : ∀ t, (s.task t).inWait = true → (s'.task t).inWait = true) : StepContract s e s' := by
  have hqud : ∀ t, Queued s' t ↔ Queued s t := fun t => by unfold Queued; rw [hbkts]
  exact ⟨fun t ht => .inl ⟨(hqud t).mpr ht, congrFun hwtr t⟩,
    fun t ht hnot => .inl ⟨hwait t ht, fun hq => hnot ((hqud t).mp hq), congrFun hwtr t⟩⟩

namespace Inv

variable (h : Inv s)

include h

lemma same (hbkts : s'.buckets = s.buckets) (hdls : s'.deadlines = s.deadlines)
    (hcnt : s.slotCount ≤ s'.slotCount) (hwtr : s'.waiter = s.waiter)
    (htsk : ∀ t, (s.task t).inWait = true → (s'.task t).live = true ∧ (s'.task t).inWait = true ∧
      (s'.task t).tgid = (s.task t).tgid ∧ (s'.task t).finishers = (s.task t).finishers)
    (hblk : ∀ t, Blocked s' t → Blocked s t) (hlive : ∀ t, (s'.task t).inWait = true → (s'.task t).live = true)
    (hcntd : ∀ t, (s'.task t).live = true → t < s'.slotCount) : Inv s' := by
  obtain ⟨B, D, hqus⟩ := h.queues
  have hqud : ∀ t, Queued s' t ↔ Queued s t := fun t => by
    unfold Queued
    rw [hbkts]
  refine ⟨⟨B, D, hqus.frame hbkts hdls hcnt (fun b t ht => ?_) fun _ t _ => congrFun hwtr t⟩,
    fun t ht => (hqud t).mpr (h.blocked t (hblk t ht)), fun t ht => ?_, hlive, hcntd⟩
  · obtain ⟨hl, hw, htgid, -⟩ := htsk t (hqus.live b t ht).2
    exact ⟨hl, hw, htgid⟩
  · have hold := (hqud t).mp ht
    obtain ⟨b, hb⟩ := (hqus.queued_iff t).mp hold
    exact (htsk t (hqus.live b t hb).2).2.2.2.trans (h.kept t hold)

theorem of_released {ts : List ℕ} {result : ℕ → Result} (hrel : Released s s' ts result)
    (hts : ∀ t ∈ ts, Queued s t) (hqus : ∃ B D, Queues s' B D) : Inv s' := by
  have hlive : ∀ t ∈ ts, (s.task t).live = true := fun t ht => by
    obtain ⟨B, D, hq⟩ := h.queues
    obtain ⟨b, hb⟩ := (hq.queued_iff t).mp (hts t ht)
    exact (hq.live b t hb).1
  refine ⟨hqus, fun t ht => ?_, fun t ht => ?_, fun t ht => ?_, fun t ht => ?_⟩
  · have hmem : t ∉ ts := fun hmem => by
      have hrun := hrel.running t hmem (hlive t hmem)
      rw [ht.2.1] at hrun
      cases hrun
    unfold Blocked at ht
    rw [hrel.task t hmem] at ht
    exact (hrel.queued t).mpr ⟨h.blocked t ht, hmem⟩
  · obtain ⟨hold, hmem⟩ := (hrel.queued t).mp ht
    rw [hrel.task t hmem]
    exact h.kept t hold
  · rw [(hrel.kept t).2.2] at ht
    exact (hrel.kept t).1.trans (h.live t ht)
  · rw [(hrel.kept t).1] at ht
    rw [hrel.slotCount]
    exact h.counted t ht

end Inv

lemma StepContract.of_released {e : FutexEvent} {ts : List ℕ} {result : ℕ → Result}
    (hrel : Released s s' ts result) (hts : ∀ t ∈ ts, Queued s t) (hby : ∀ t ∈ ts, ReleasedBy s e s' t) :
    StepContract s e s' := by
  refine ⟨fun t ht => ?_, fun t ht hnot => .inl ⟨?_, fun hq => hnot ((hrel.queued t).mp hq).1, ?_⟩⟩
  · by_cases hmem : t ∈ ts
    · exact .inr ⟨fun hq => ((hrel.queued t).mp hq).2 hmem, hby t hmem⟩
    · exact .inl ⟨(hrel.queued t).mpr ⟨ht, hmem⟩, hrel.waiter t hmem⟩
  · rw [(hrel.kept t).2.2]
    exact ht
  · exact hrel.waiter t fun hmem => hnot (hts t hmem)

/-! ### The steps -/

lemma setTask_self (s : FutexState) (t : ℕ) (f : Task → Task) : (s.setTask t f).task t = f (s.task t) :=
  update_self ..

lemma setTask_of_ne (s : FutexState) {t x : ℕ} (hx : x ≠ t) (f : Task → Task) : (s.setTask t f).task x = s.task x :=
  update_of_ne hx ..

namespace Inv

variable (h : Inv s)

include h

lemma setTask (t : ℕ) (f : Task → Task) (hlive : (f (s.task t)).live = (s.task t).live)
    (hwait : (f (s.task t)).inWait = (s.task t).inWait) (htgid : (f (s.task t)).tgid = (s.task t).tgid)
    (hfin : (f (s.task t)).finishers = (s.task t).finishers)
    (hblk : ¬((f (s.task t)).waiting = true ∧ (f (s.task t)).futexReason = true) ∨ Blocked s t) :
    Inv (s.setTask t f) ∧ ∀ e, StepContract s e (s.setTask t f) := by
  have hkept : ∀ x, ((s.setTask t f).task x).live = (s.task x).live ∧
      ((s.setTask t f).task x).inWait = (s.task x).inWait ∧ ((s.setTask t f).task x).tgid = (s.task x).tgid ∧
        ((s.setTask t f).task x).finishers = (s.task x).finishers := by
    intro x
    by_cases hx : x = t
    · subst hx
      rw [setTask_self]
      exact ⟨hlive, hwait, htgid, hfin⟩
    · rw [setTask_of_ne s hx]
      exact ⟨rfl, rfl, rfl, rfl⟩
  refine ⟨h.same rfl rfl le_rfl rfl (fun x hx => ?_) (fun x hx => ?_) (fun x hx => ?_) fun x hx => ?_,
    fun e => .of_same rfl rfl fun x hx => (hkept x).2.1.trans hx⟩
  · exact ⟨(hkept x).1.trans (h.live x hx), (hkept x).2.1.trans hx, (hkept x).2.2⟩
  · by_cases hxt : x = t
    · subst hxt
      unfold Blocked at hx
      rw [setTask_self] at hx
      exact hblk.resolve_left fun hnot => hnot ⟨hx.2.1, hx.2.2.1⟩
    · unfold Blocked at hx
      rwa [setTask_of_ne s hxt] at hx
  · exact (hkept x).1.trans (h.live x ((hkept x).2.1.symm.trans hx))
  · exact h.counted x ((hkept x).1.symm.trans hx)

lemma answer (t : ℕ) (a : Result ⊕ ℕ) : Inv (s.answer t a) :=
  h.same rfl rfl le_rfl rfl (fun x hx => ⟨h.live x hx, hx, rfl, rfl⟩) (fun _ hx => hx) h.live h.counted

lemma taskRun (t : ℕ) : Inv (s.taskRun t) ∧ ∀ e, StepContract s e (s.taskRun t) := by
  obtain ⟨hbkts, hdls, hcnt, hwtr, -, -⟩ := taskRun_links s t
  have hkept := taskRun_kept (t := t) s
  refine ⟨h.same hbkts hdls hcnt.ge hwtr (fun x hx => ?_) (fun x hx => (blocked_of_taskRun s hx).2)
    (fun x hx => ?_) fun x hx => ?_, fun e => .of_same hbkts hwtr fun x hx => (hkept x).2.2.1.trans hx⟩
  · exact ⟨(hkept x).1.trans (h.live x hx), (hkept x).2.2.1.trans hx, (hkept x).2.1, (hkept x).2.2.2⟩
  · exact (hkept x).1.trans (h.live x ((hkept x).2.2.1.symm.trans hx))
  · rw [hcnt]
    exact h.counted x ((hkept x).1.symm.trans hx)

lemma create (t tgid : ℕ) (hfree : (s.task t).live = false) :
    let s' := { s with slotCount := max s.slotCount (t + 1) }.setTask t fun task => ⟨true, tgid, false, false, false,
      false, task.finishers⟩
    Inv s' ∧ ∀ e, StepContract s e s' := by
  have hne : ∀ {x}, (s.task x).live = true → x ≠ t := fun hx heq => by
    rw [heq, hfree] at hx
    cases hx
  have hsame : ∀ {x}, x ≠ t → FutexState.task ({ s with slotCount := max s.slotCount (t + 1) }.setTask t
      fun task => ⟨true, tgid, false, false, false, false, task.finishers⟩) x = s.task x := fun hx => update_of_ne hx ..
  have hself : FutexState.task ({ s with slotCount := max s.slotCount (t + 1) }.setTask t
      fun task => ⟨true, tgid, false, false, false, false, task.finishers⟩) t =
        ⟨true, tgid, false, false, false, false, (s.task t).finishers⟩ :=
    update_self ..
  refine ⟨h.same rfl rfl (le_max_left ..) rfl (fun x hx => ?_) (fun x hx => ?_) (fun x hx => ?_) fun x hx => ?_,
    fun e => .of_same rfl rfl fun x hx => ?_⟩
  · rw [hsame (hne (h.live x hx))]
    exact ⟨h.live x hx, hx, rfl, rfl⟩
  · by_cases hxt : x = t
    · unfold Blocked at hx
      rw [hxt, hself] at hx
      cases hx.2.1
    · unfold Blocked at hx
      rwa [hsame hxt] at hx
  · by_cases hxt : x = t
    · rw [hxt, hself]
    · rw [hsame hxt] at hx ⊢
      exact h.live x hx
  · by_cases hxt : x = t
    · rw [hxt]
      exact le_max_right s.slotCount (t + 1)
    · rw [hsame hxt] at hx
      exact (h.counted x hx).trans_le (le_max_left ..)
  · rw [hsame (hne (h.live x hx))]
    exact hx

lemma leave (s' : FutexState) (t : ℕ) (hqus : ∀ {B D}, Queues s B D → Queues s' (fun b => (B b).erase t) (D.erase t))
    (hwtr : s'.waiter = s.waiter) (hcnt : s'.slotCount = s.slotCount) (htsk : ∀ x, x ≠ t → s'.task x = s.task x)
    (hin : (s'.task t).inWait = true → (s'.task t).live = true) (hblk : ¬Blocked s' t)
    (hlive : (s'.task t).live = true → (s.task t).live = true) :
    Inv s' ∧ (¬Queued s' t) ∧ ∀ x, x ≠ t → (Queued s' x ↔ Queued s x) ∧ s'.waiter x = s.waiter x ∧
      s'.task x = s.task x := by
  obtain ⟨B, D, hold⟩ := h.queues
  have hnew := hqus hold
  have hqud : ∀ x, x ≠ t → (Queued s' x ↔ Queued s x) := fun x hx => by
    rw [hnew.queued_iff, hold.queued_iff]
    exact exists_congr fun b => List.mem_erase_of_ne hx
  have hgone : ¬Queued s' t := fun hq => by
    obtain ⟨b, hb⟩ := (hnew.queued_iff t).mp hq
    exact hold.ne_of_mem_erase hb rfl
  refine ⟨⟨⟨_, _, hnew⟩, fun x hx => ?_, fun x hx => ?_, fun x hx => ?_, fun x hx => ?_⟩, hgone, fun x hx =>
    ⟨hqud x hx, congrFun hwtr x, htsk x hx⟩⟩
  · have hne : x ≠ t := fun heq => hblk (heq ▸ hx)
    unfold Blocked at hx
    rw [htsk x hne] at hx
    exact (hqud x hne).mpr (h.blocked x hx)
  · have hne : x ≠ t := fun heq => hgone (heq ▸ hx)
    rw [htsk x hne]
    exact h.kept x ((hqud x hne).mp hx)
  · by_cases hne : x = t
    · subst hne
      exact hin hx
    · rw [htsk x hne] at hx ⊢
      exact h.live x hx
  · rw [hcnt]
    by_cases hne : x = t
    · subst hne
      exact h.counted x (hlive hx)
    · rw [htsk x hne] at hx
      exact h.counted x hx

theorem resume {t : ℕ} (hwtg : (s.task t).waiting = false) :
    Inv (s.futexResume t) ∧ StepContract s (.resume t) (s.futexResume t) := by
  obtain ⟨B, D, hold⟩ := h.queues
  have htsk : ∀ x, x ≠ t → (s.futexResume t).task x = s.task x := fun x hx => update_of_ne hx ..
  have hself : (s.futexResume t).task t = { s.task t with inWait := false } := update_self ..
  have hret : (s.futexResume t).returned t = some (.inl (s.waiter t).result) := update_self ..
  obtain ⟨hinv, hgone, hoths⟩ := h.leave (s.futexResume t) t (fun hq => (hq.remove t).frame rfl rfl le_rfl
    (fun b x hx => by
      have hne := hq.ne_of_mem_erase hx
      rw [htsk x hne]
      exact ⟨(hq.live b x (List.mem_of_mem_erase hx)).1, (hq.live b x (List.mem_of_mem_erase hx)).2, rfl⟩)
    fun _ _ _ => rfl) rfl rfl htsk (fun hin => by rw [hself] at hin; cases hin)
    (fun hb => by
      have hbw := hb.2.1
      rw [hself] at hbw
      dsimp only at hbw
      rw [hwtg] at hbw
      cases hbw)
    (fun hl => by rwa [hself] at hl)
  refine ⟨hinv, fun x hx => ?_, fun x hx hnot => ?_⟩
  · by_cases hne : x = t
    · subst hne
      obtain ⟨b, hb⟩ := (hold.queued_iff x).mp hx
      exact .inr ⟨hgone, rfl, by rw [hret, hold.fresh b x hb]⟩
    · exact .inl ⟨(hoths x hne).1.mpr hx, (hoths x hne).2.1⟩
  · by_cases hne : x = t
    · subst hne
      exact .inr (.inl ⟨rfl, hret⟩)
    · refine .inl ⟨?_, fun hq => hnot ((hoths x hne).1.mp hq), (hoths x hne).2.1⟩
      rw [(hoths x hne).2.2]
      exact hx

end Inv

/-! ### The end of a task -/

lemma findTask_iff {b : Fin futexBucketCount} (pre : List ℕ) {rest : List ℕ} (hlist : IsList s.buckets b (pre ++ rest)) (t : ℕ)
    {fuel : ℕ} (hfuel : rest.length ≤ fuel) : s.findTask t fuel rest.head? = true ↔ t ∈ rest := by
  induction rest generalizing pre fuel with
  | nil => cases fuel <;> simp [FutexState.findTask]
  | cons x rest ih =>
    cases fuel with
    | zero => cases hfuel
    | succ fuel =>
    rw [List.head?_cons, FutexState.findTask, hlist.next pre x rest rfl, List.mem_cons]
    split
    · rename_i heq
      exact ⟨fun _ => .inl heq.symm, fun _ => rfl⟩
    · rename_i hne
      have hnext := ih (pre ++ [x]) (by rwa [List.append_assoc, List.singleton_append])
        (Nat.le_of_succ_le_succ hfuel)
      rw [hnext, or_iff_right fun heq => hne heq.symm]

theorem Queues.cancel (h : Queues s B D) (t : ℕ) :
    Queues (s.futexCancelTask t) (fun b => (B b).erase t) (D.erase t) ∧ (s.futexCancelTask t).task = s.task ∧
      (s.futexCancelTask t).waiter = s.waiter ∧ (s.futexCancelTask t).slotCount = s.slotCount := by
  unfold FutexState.futexCancelTask
  split
  · exact ⟨h.remove t, rfl, rfl, rfl⟩
  · rename_i hnone
    have hfree : ∀ b, t ∉ B b := fun b hb => by
      refine hnone (List.any_eq_true.mpr ⟨b, List.mem_finRange b, ?_⟩)
      rw [(h.buckets.isList b).head]
      exact (findTask_iff [] (h.buckets.isList b) t (h.length_le b)).mpr hb
    have hsame : (fun b => (B b).erase t) = B := funext fun b => List.erase_of_not_mem (hfree b)
    rw [hsame, List.erase_of_not_mem (h.not_mem_deadlines hfree)]
    exact ⟨h, rfl, rfl, rfl⟩

namespace Inv

variable (h : Inv s)

include h

theorem finish (t : ℕ) : Inv (s.finishTask t) ∧ StepContract s (.finish t) (s.finishTask t) := by
  obtain ⟨B, D, hold⟩ := h.queues
  obtain ⟨-, hcanc, hwtr, hcnt⟩ := hold.cancel t
  have htsk : ∀ x, x ≠ t → (s.finishTask t).task x = s.task x := fun x hx => by
    refine (update_of_ne hx ..).trans ?_
    rw [hcanc]
  have hself : (s.finishTask t).task t = { s.task t with finishers := (s.task t).finishers + 1 } := by
    refine (setTask_self _ t _).trans ?_
    rw [hcanc]
  obtain ⟨hinv, hgone, hoths⟩ := h.leave (s.finishTask t) t (fun {B D} hq => by
    refine (hq.cancel t).1.frame rfl rfl le_rfl (fun b x hx => ?_) fun _ _ _ => rfl
    have hne := hq.ne_of_mem_erase hx
    rw [htsk x hne, hcanc]
    exact ⟨(hq.live b x (List.mem_of_mem_erase hx)).1, (hq.live b x (List.mem_of_mem_erase hx)).2, rfl⟩)
    hwtr hcnt htsk (fun hin => by rw [hself] at hin ⊢; exact h.live t hin)
    (fun hb => by
      have hfin := hb.2.2.2
      rw [hself] at hfin
      cases hfin)
    (fun hl => by rwa [hself] at hl)
  refine ⟨hinv, fun x hx => ?_, fun x hx hnot => .inl ?_⟩
  · by_cases hne : x = t
    · subst hne
      exact .inr ⟨hgone, rfl⟩
    · exact .inl ⟨(hoths x hne).1.mpr hx, (hoths x hne).2.1⟩
  · by_cases hne : x = t
    · subst hne
      exact ⟨by rw [hself]; exact hx, hgone, congrFun hwtr x⟩
    · refine ⟨?_, fun hq => hnot ((hoths x hne).1.mp hq), (hoths x hne).2.1⟩
      rw [(hoths x hne).2.2]
      exact hx

/-- A task that is being finished is in no queue, so its end leaves them as they are. -/
theorem finishEnd {t : ℕ} (hfin : 0 < (s.task t).finishers) :
    Inv (s.finishTaskEnd t) ∧ StepContract s (.finishEnd t) (s.finishTaskEnd t) := by
  have hout : ¬Queued s t := fun hq => hfin.ne' (h.kept t hq)
  have htsk : ∀ x, x ≠ t → (s.finishTaskEnd t).task x = s.task x := fun x hx => setTask_of_ne s hx _
  have hself : ((s.finishTaskEnd t).task t).live = false ∧ ((s.finishTaskEnd t).task t).inWait = false := by
    unfold FutexState.finishTaskEnd
    rw [setTask_self]
    exact ⟨rfl, rfl⟩
  have hdead : ∀ {P : Prop}, ((s.finishTaskEnd t).task t).live = true → P := fun hl => by
    rw [hself.1] at hl
    cases hl
  obtain ⟨hinv, -, hoths⟩ := h.leave (s.finishTaskEnd t) t (fun {B D} hq => by
    have hfree : ∀ b, t ∉ B b := fun b hb => hout ((hq.queued_iff t).mpr ⟨b, hb⟩)
    rw [funext fun b => List.erase_of_not_mem (hfree b), List.erase_of_not_mem (hq.not_mem_deadlines hfree)]
    refine hq.frame rfl rfl le_rfl (fun b x hx => ?_) fun _ _ _ => rfl
    rw [htsk x fun heq => hfree b (heq ▸ hx)]
    exact ⟨(hq.live b x hx).1, (hq.live b x hx).2, rfl⟩)
    rfl rfl htsk (fun hin => by rw [hself.2] at hin; cases hin) (fun hb => hdead hb.1) hdead
  refine ⟨hinv, fun x hx => ?_, fun x hx hnot => ?_⟩
  · have hne : x ≠ t := fun heq => hout (heq ▸ hx)
    exact .inl ⟨(hoths x hne).1.mpr hx, rfl⟩
  · by_cases hne : x = t
    · subst hne
      exact .inr (.inr rfl)
    · refine .inl ⟨?_, fun hq => hnot ((hoths x hne).1.mp hq), rfl⟩
      rw [(hoths x hne).2.2]
      exact hx

theorem tick : Inv s.futexTick ∧ StepContract s .tick s.futexTick := by
  obtain ⟨B, D, hold⟩ := h.queues
  obtain ⟨hrel, hqus⟩ := hold.tickLoop hold.length_deadlines_le
  have hmem : ∀ t ∈ D.takeWhile fun t => decide ((s.waiter t).deadlineNs ≤ s.now),
      Queued s t ∧ (s.waiter t).deadlineNs ≤ s.now := fun t ht =>
    ⟨(hold.queued_iff t).mpr ((hold.timed t).mp ((List.takeWhile_sublist _).subset ht)).1,
      by simpa using List.mem_takeWhile_imp ht⟩
  have hlive : ∀ t, Queued s t → (s.task t).live = true := fun t ht => by
    obtain ⟨b, hb⟩ := (hold.queued_iff t).mp ht
    exact (hold.live b t hb).1
  refine ⟨h.of_released hrel (fun t ht => (hmem t ht).1) hqus,
    .of_released hrel (fun t ht => (hmem t ht).1) fun t ht => ⟨(hmem t ht).2, ?_, ?_⟩⟩
  · exact hrel.running t ht (hlive t (hmem t ht).1)
  · exact congrArg Waiter.result (hrel.done t ht)

theorem wake (tgid address value now : ℕ) :
    Inv (s.futexWake tgid address value now).1 ∧
      ∀ t request readable word pending, (s.task t).tgid = tgid → request.address = address → now = s.now →
        StepContract s (.operation t .wake request readable word pending) (s.futexWake tgid address value now).1 := by
  obtain ⟨B, D, hold⟩ := h.queues
  obtain ⟨hrel, -, hqus⟩ := hold.futexWake tgid address value now
  have hmem : ∀ x ∈ picks (s.matching tgid address) (s.expired now) value (B (bucketOf tgid address)) 0,
      x ∈ B (bucketOf tgid address) ∧ (s.task x).tgid = tgid ∧ (s.waiter x).address = address := fun x hx =>
    ⟨(picks_sublist _ _ _ _ 0).subset hx, by simpa [FutexState.matching] using matching_of_picks hx⟩
  have hts := fun x hx => (hold.queued_iff x).mpr ⟨_, (hmem x hx).1⟩
  refine ⟨h.of_released hrel hts hqus, fun t request readable word pending htgid haddr hnow =>
    .of_released hrel hts fun x hx => ⟨rfl, ?_, ?_, ?_, ?_⟩⟩
  · exact (hmem x hx).2.1.trans htgid.symm
  · exact (hmem x hx).2.2.trans haddr.symm
  · exact hrel.running x hx (hold.live _ x (hmem x hx).1).1
  · rw [hrel.done x hx, hnow]

end Inv

/-- What a wait promises when it blocks: the word had the value, and the waiter is in the queues. -/
def WaitContract (s' : FutexState) (t : ℕ) (request : Request) (word : ℕ) : Prop :=
  (s'.task t).inWait = true → word = request.value ∧ Queued s' t ∧ Blocked s' t ∧
    s'.waiter t = ⟨request.address, request.deadlineNs, .interrupted⟩

lemma StepContract.answer {u : ℕ} {operation : Operation} {request : Request} {readable : Bool} {word : ℕ}
    {pending : Bool} (h : StepContract s (.operation u operation request readable word pending) s') (t : ℕ)
    (a : Result ⊕ ℕ) : StepContract s (.operation u operation request readable word pending) (s'.answer t a) := by
  refine ⟨h.queued, fun x hx hnot => ?_⟩
  rcases h.released x hx hnot with hkept | ⟨he, -⟩ | he
  · exact .inl hkept
  · cases he
  · cases he

lemma WaitContract.of_idle {t : ℕ} {request : Request} {word : ℕ} (h : (s'.task t).inWait = false) :
    WaitContract s' t request word := fun hin => by
  rw [h] at hin
  cases hin

lemma waitRefused_none {request : Request} {word : ℕ} {pending : Bool} (h : s.waitRefused request word pending = none) :
    word = request.value := by
  unfold FutexState.waitRefused at h
  split at h
  · cases h
  · rename_i hsame
    exact not_not.mp hsame

namespace Inv

variable (h : Inv s)

include h

theorem wait {t : ℕ} (hlive : (s.task t).live = true) (hwtg : (s.task t).waiting = false)
    (hidle : (s.task t).inWait = false) (hfin : (s.task t).finishers = 0) (request : Request) (readable : Bool)
    (word : ℕ) (pending : Bool) :
    Inv (s.futexWait t request word pending) ∧
      StepContract s (.operation t .wait request readable word pending) (s.futexWait t request word pending) ∧
      WaitContract (s.futexWait t request word pending) t request word := by
  unfold FutexState.futexWait
  split
  · exact ⟨h.answer t _, (StepContract.of_same rfl rfl fun _ hx => hx).answer t _, WaitContract.of_idle hidle⟩
  rename_i href
  have hword := waitRefused_none href
  obtain ⟨B, D, hold⟩ := h.queues
  have hfree : ∀ b, t ∉ B b := fun b hb => by
    have hin := (hold.live b t hb).2
    rw [hidle] at hin
    cases hin
  have hnot : ¬Queued s t := fun hq => by
    obtain ⟨b, hb⟩ := (hold.queued_iff t).mp hq
    exact hfree b hb
  obtain ⟨D', hpub⟩ := hold.enqueue hfree request
  have hwtr : ∀ x, x ≠ t → (s.enqueue t request).waiter x = s.waiter x := fun x hx => by
    rw [hpub.waiter, update_of_ne hx]
  generalize s.enqueue t request = s₁ at hpub hwtr ⊢
  -- what holds of the other tasks whether or not the task blocks
  have hrest : ∀ {s₂ : FutexState} {e} {B₂ D₂}, Queues s₂ B₂ D₂ → (∀ x, x ≠ t → ((∃ b, x ∈ B₂ b) ↔ ∃ b, x ∈ B b)) →
      (∀ x, x ≠ t → s₂.task x = s.task x) → (∀ x, x ≠ t → s₂.waiter x = s.waiter x) →
      s₂.slotCount = s.slotCount → (s₂.task t).live = true → (s₂.task t).finishers = 0 →
      (Blocked s₂ t → Queued s₂ t) → Inv s₂ ∧ StepContract s e s₂ := by
    intro s₂ e B₂ D₂ hq₂ hmem htsk hw hcnt hlive₂ hfin₂ hblk
    have hqud : ∀ x, x ≠ t → (Queued s₂ x ↔ Queued s x) := fun x hx => by
      rw [hq₂.queued_iff, hold.queued_iff]
      exact hmem x hx
    have hoth : ∀ {x}, (s.task x).inWait = true → x ≠ t := fun hx heq => by
      rw [heq, hidle] at hx
      cases hx
    refine ⟨⟨⟨B₂, D₂, hq₂⟩, fun x hx => ?_, fun x hx => ?_, fun x hx => ?_, fun x hx => ?_⟩, fun x hx => ?_,
      fun x hx hn => ?_⟩
    · by_cases hne : x = t
      · exact hne ▸ hblk (hne ▸ hx)
      · unfold Blocked at hx
        rw [htsk x hne] at hx
        exact (hqud x hne).mpr (h.blocked x hx)
    · by_cases hne : x = t
      · rwa [hne]
      · rw [htsk x hne]
        exact h.kept x ((hqud x hne).mp hx)
    · by_cases hne : x = t
      · rwa [hne]
      · rw [htsk x hne] at hx ⊢
        exact h.live x hx
    · rw [hcnt]
      by_cases hne : x = t
      · exact hne ▸ h.counted t hlive
      · rw [htsk x hne] at hx
        exact h.counted x hx
    · have hne : x ≠ t := fun heq => hnot (heq ▸ hx)
      exact .inl ⟨(hqud x hne).mpr hx, hw x hne⟩
    · have hne := hoth hx
      exact .inl ⟨by rwa [htsk x hne], fun hq => hn ((hqud x hne).mp hq), hw x hne⟩
  dsimp only
  split
  · -- the task has been woken already, and takes its record back
    have hq₂ := hpub.withdrawn hold hfree fun task => { task with ready := false, futexReason := false }
    have hself : ((s₁.setTask t fun task => { task with ready := false, futexReason := false }).futexRemove t).task t =
        { s.task t with ready := false, futexReason := false } := by
      refine (update_self ..).trans ?_
      rw [hpub.task]
    obtain ⟨hinv, hcon⟩ := hrest (e := .operation t .wait request readable word pending) hq₂ (fun x _ => Iff.rfl)
      (fun x hx => (update_of_ne hx ..).trans (by rw [hpub.task])) hwtr hpub.slotCount
      (by rw [hself]; exact hlive) (by rw [hself]; exact hfin) fun hb => by
        have hbw := hb.2.1
        rw [hself] at hbw
        dsimp only at hbw
        rw [hwtg] at hbw
        cases hbw
    exact ⟨hinv.answer t _, hcon.answer t _, WaitContract.of_idle ((congrArg Task.inWait hself).trans hidle)⟩
  · have hq₂ := hpub.blocks hold hfree hlive (h.counted t hlive)
    have hself : (s₁.setTask t fun task => { task with waiting := true, futexReason := true, inWait := true }).task t =
        { s.task t with waiting := true, futexReason := true, inWait := true } := by
      refine (setTask_self s₁ t _).trans ?_
      rw [hpub.task]
    have hin : Queued (s₁.setTask t fun task => { task with waiting := true, futexReason := true, inWait := true }) t :=
      (hq₂.queued_iff t).mpr ⟨_, by rw [update_self]; exact List.mem_cons_self⟩
    obtain ⟨hinv, hcon⟩ := hrest (e := .operation t .wait request readable word pending) hq₂ (fun x hx =>
      exists_congr fun b => by
        by_cases hb : b = bucketOf (s.task t).tgid request.address
        · subst hb
          rw [update_self, List.mem_cons, or_iff_right hx]
        · rw [update_of_ne hb])
      (fun x hx => (setTask_of_ne s₁ hx _).trans (by rw [hpub.task])) hwtr hpub.slotCount
      (by rw [hself]; exact hlive) (by rw [hself]; exact hfin) fun _ => hin
    refine ⟨hinv, hcon, fun _ => ⟨hword, hin, ⟨?_, ?_, ?_, ?_⟩, ?_⟩⟩
    · rw [hself]
      exact hlive
    · rw [hself]
    · rw [hself]
    · rw [hself]
      exact hfin
    · change s₁.waiter t = _
      rw [hpub.waiter, update_self]

/-- **One call of `futex_operation`.** -/
theorem operation {t : ℕ} (hlive : (s.task t).live = true) (hwtg : (s.task t).waiting = false)
    (hidle : (s.task t).inWait = false) (operation : Operation)
    (hfin : operation = .wait → (s.task t).finishers = 0) (request : Request) (readable : Bool) (word : ℕ)
    (pending : Bool) :
    Inv (s.futexOperation t operation request readable word pending) ∧
      StepContract s (.operation t operation request readable word pending)
        (s.futexOperation t operation request readable word pending) ∧
      WaitContract (s.futexOperation t operation request readable word pending) t request word := by
  have hsame : ∀ a, Inv (s.answer t a) ∧ StepContract s (.operation t operation request readable word pending)
      (s.answer t a) ∧ WaitContract (s.answer t a) t request word := fun a =>
    ⟨h.answer t a, (StepContract.of_same rfl rfl fun _ hx => hx).answer t a, WaitContract.of_idle hidle⟩
  unfold FutexState.futexOperation
  split
  · exact hsame _
  rename_i hval
  split
  · exact hsame _
  split
  · rename_i hwake
    subst hwake
    obtain ⟨hinv, hcon⟩ := h.wake (s.task t).tgid request.address request.value s.now
    obtain ⟨B, D, hold⟩ := h.queues
    obtain ⟨hrel, -, -⟩ := hold.futexWake (s.task t).tgid request.address request.value s.now
    refine ⟨hinv.answer t _, (hcon t request readable word pending rfl rfl rfl).answer t _, WaitContract.of_idle ?_⟩
    exact (hrel.kept t).2.2.trans hidle
  · rename_i hwake
    cases operation with
    | wait => exact h.wait hlive hwtg hidle (hfin rfl) request readable word pending
    | wake => exact absurd rfl hwake
    | other => exact absurd (.inl rfl) hval

omit h in
lemma of_initial (hs : FutexState.sys.init s) : Inv s := by
  obtain ⟨hidle, hheads, hhead, hprevs, hprev⟩ := hs
  have hemp : ∀ {η : Type} {L : Links η ℕ}, (∀ b, L.head b = none) → (∀ t, L.prev t = none) →
      IsLists L fun _ => [] := fun hheads hprevs =>
    ⟨fun b => ⟨List.nodup_nil, hheads b, fun a x c hl => by simp at hl, fun a x c hl => by simp at hl⟩,
      fun x => by simp [hprevs x]⟩
  refine ⟨⟨fun _ => [], [], hemp hheads hprevs, hemp (fun _ => hhead) hprev, nofun, nofun, nofun, nofun,
    fun t => by simp, List.Pairwise.nil⟩, fun t ht => ?_, fun t ht => ?_, fun t ht => ?_, fun t ht => ?_⟩
  · have hlive := ht.1
    rw [(hidle t).1] at hlive
    cases hlive
  · unfold Queued at ht
    rw [hprevs t] at ht
    cases ht
  · rw [(hidle t).2] at ht
    cases ht
  · rw [(hidle t).1] at ht
    cases ht

omit h in
/-- **The invariant, and what a step may do, along every run.** -/
theorem step (h : Inv s) {e : FutexEvent} (hspare : Spares s e) (he : FutexState.sys.step s e = some s') :
    Inv s' ∧ StepContract s e s' := by
  cases e with
  | create t tgid =>
    obtain ⟨⟨-, hfree⟩, rfl⟩ := Option.ite_none_right_eq_some.mp he |>.imp_right Option.some.inj
    have hdead : (s.task t).live = false := by
      by_contra hlive
      have hlive : (s.task t).live = true := by simpa using hlive
      simp [hlive, h.counted t hlive] at hfree
    exact (h.create t tgid hdead).imp_right fun hstep => hstep _
  | operation t operation request readable word pending =>
    obtain ⟨⟨-, hlive, hwtg, hidle⟩, rfl⟩ := Option.ite_none_right_eq_some.mp he |>.imp_right Option.some.inj
    obtain ⟨hinv, hstep, -⟩ := h.operation hlive (by simpa using hwtg) (by simpa using hidle) operation
      (fun hwait => by subst hwait; exact hspare) request readable word pending
    exact ⟨hinv, hstep⟩
  | resume t =>
    obtain ⟨⟨-, -, hwtg⟩, rfl⟩ := Option.ite_none_right_eq_some.mp he |>.imp_right Option.some.inj
    exact h.resume (by simpa using hwtg)
  | clock now =>
    obtain ⟨-, rfl⟩ := Option.ite_none_right_eq_some.mp he |>.imp_right Option.some.inj
    exact ⟨h.same rfl rfl le_rfl rfl (fun t ht => ⟨h.live t ht, ht, rfl, rfl⟩) (fun _ ht => ht) h.live h.counted,
      .of_same rfl rfl fun _ ht => ht⟩
  | tick =>
    cases he
    exact h.tick
  | run t =>
    cases he
    exact (h.taskRun t).imp_right fun hstep => hstep _
  | block t =>
    obtain ⟨⟨-, hwtg, -⟩, rfl⟩ := Option.ite_none_right_eq_some.mp he |>.imp_right Option.some.inj
    refine (h.setTask t _ ?_ ?_ ?_ ?_ ?_).imp_right fun hstep => hstep _
    · split <;> rfl
    · split <;> rfl
    · split <;> rfl
    · split <;> rfl
    · refine .inl fun hboth => ?_
      have hidle : (s.task t).waiting = false := by simpa using hwtg
      split at hboth
      · have hw : (s.task t).waiting = true := hboth.1
        rw [hidle] at hw
        cases hw
      · cases hboth.2
  | finish t =>
    obtain ⟨-, rfl⟩ := Option.ite_none_right_eq_some.mp he |>.imp_right Option.some.inj
    exact h.finish t
  | finishEnd t =>
    obtain ⟨hfin, rfl⟩ := Option.ite_none_right_eq_some.mp he |>.imp_right Option.some.inj
    exact h.finishEnd hfin
  | defer t =>
    obtain ⟨-, rfl⟩ := Option.ite_none_right_eq_some.mp he |>.imp_right Option.some.inj
    exact (h.setTask t _ rfl rfl rfl rfl (.inl fun hboth => by cases hboth.2)).imp_right fun hstep => hstep _

omit h in
theorem guarded (hs : FutexState.sys.Guarded Spares s) : Inv s :=
  hs.invariant (fun _ => of_initial) fun _ _ _ h hspare he => (h.step hspare he).1

end Inv

/-! ### The contract -/

structure QueueContract (s : FutexState) (B : Fin futexBucketCount → List ℕ) (D : List ℕ) : Prop where
  buckets : IsLists s.buckets B
  deadlines : IsLists s.deadlines fun _ => D
  blocked : ∀ t, Blocked s t →
    (∃! b, t ∈ B b) ∧ (∀ b, (B b).count t ≤ 1) ∧ D.count t = if (s.waiter t).deadlineNs = uint64Max then 0 else 1
  sorted : D.Pairwise fun x y => (s.waiter x).deadlineNs ≤ (s.waiter y).deadlineNs
  waiting : ∀ t, (t ∈ D ∨ ∃ b, t ∈ B b) →
    (s.task t).live = true ∧ (s.task t).inWait = true ∧ (s.task t).finishers = 0

lemma Inv.queueContract (h : Inv s) : ∃ B D, QueueContract s B D := by
  obtain ⟨B, D, hq⟩ := h.queues
  refine ⟨B, D, hq.buckets, hq.deadlines, fun t ht => ?_, hq.sorted, fun t ht => ?_⟩
  · obtain ⟨b, hb⟩ := (hq.queued_iff t).mp (h.blocked t ht)
    refine ⟨⟨b, hb, fun b' hb' => hq.buckets.unique hb' hb⟩, fun b' => List.nodup_iff_count_le_one.mp (hq.nodup b') t, ?_⟩
    split
    · rename_i hinf
      exact List.count_eq_zero.mpr fun hmem => ((hq.timed t).mp hmem).2 hinf
    · rename_i hfin
      exact List.count_eq_one_of_mem hq.nodup_deadlines ((hq.timed t).mpr ⟨⟨b, hb⟩, hfin⟩)
  · have hin : ∃ b, t ∈ B b := ht.elim (fun hD => ((hq.timed t).mp hD).1) id
    obtain ⟨b, hb⟩ := hin
    exact ⟨(hq.live b t hb).1, (hq.live b t hb).2, h.kept t ((hq.queued_iff t).mpr ⟨b, hb⟩)⟩

/-- What a call of `futex_operation` does: a wait that blocks has found the word equal and is queued; a wake that is not
refused returns the number of the waiters that it has woken. -/
def CallContract (s : FutexState) (e : FutexEvent) (s' : FutexState) : Prop :=
  match e with
  | .operation t .wait request _ word _ => WaitContract s' t request word
  | .operation t .wake request _ _ _ =>
    (s' = s.answer t (.inl .invalid) ∨ s' = s.answer t (.inl .fault)) ∨
      ∃ k, s'.returned t = some (.inr k) ∧
        WakeContract s (s.task t).tgid request.address request.value s.now (s', k)
  | _ => True

lemma Inv.callContract (h : Inv s) {e : FutexEvent} (hspare : Spares s e) (he : FutexState.sys.step s e = some s') :
    CallContract s e s' := by
  unfold CallContract
  split
  · obtain ⟨⟨-, hlive, hwtg, hidle⟩, rfl⟩ := Option.ite_none_right_eq_some.mp he |>.imp_right Option.some.inj
    exact (h.operation hlive (by simpa using hwtg) (by simpa using hidle) _ (fun _ => hspare) _ _ _ _).2.2
  · rename_i t request readable word pending
    obtain ⟨-, rfl⟩ := Option.ite_none_right_eq_some.mp he |>.imp_right Option.some.inj
    unfold FutexState.futexOperation
    split
    · exact .inl (.inl rfl)
    split
    · exact .inl (.inr rfl)
    obtain ⟨B, D, hq⟩ := h.queues
    have hwake := hq.wakeContract (s.task t).tgid request.address request.value s.now
    rw [if_pos rfl]
    exact .inr ⟨_, update_self .., hwake.le, hwake.count, hwake.released, hwake.complete, hwake.others⟩
  · trivial

def start : FutexState where
  slotCount := 0
  task _ := ⟨false, 0, false, false, false, false, 0⟩
  waiter _ := ⟨0, 0, .ok⟩
  buckets := ⟨fun _ => none, fun _ => none, fun _ => none⟩
  deadlines := ⟨fun _ => none, fun _ => none, fun _ => none⟩
  now := 0
  returned _ := none

lemma start_initial : FutexState.sys.init start := by
  unfold FutexState.sys
  simp [FutexState.initial, start]

/-- Two threads of a group wait for a word, one of them with a deadline, a third one wakes one waiter, and the other is
finished. -/
def oneWoken : List FutexEvent :=
  [.create 0 7, .create 1 7, .create 2 7, .operation 0 .wait ⟨uint64Max, 4096, 5⟩ true 5 false,
    .operation 1 .wait ⟨100, 4096, 5⟩ true 5 false, .operation 2 .wake ⟨0, 4096, 1⟩ true 0 false, .finish 1, .finishEnd 1]

/-- A thread waits and is killed; the release sleeps, a signal wakes the thread, it waits again, and is ended. -/
def wokenInRelease : List FutexEvent :=
  [.create 0 7, .operation 0 .wait ⟨uint64Max, 4096, 5⟩ true 5 false, .finish 0, .run 0, .resume 0,
    .operation 0 .wait ⟨uint64Max, 4096, 5⟩ true 5 false, .finishEnd 0]

end PlantOS.Futex

import PlantOS.Ide.Hardware

/-!
# What the transfers promise

The runs in which no interrupt comes while the command of the active channel is executed, and no task gives up while its
channel still executes its command.
-/

namespace PlantOS.Ide

open Lib
open Function (update update_of_ne update_self)

variable {s s' : IdeState} {e : Event} {task : ℕ} {c : Call}

structure Inv (s : IdeState) : Prop where
  device : ∀ i < 4, (s.device i).Valid
  index : ∀ task c, s.call task = some c → c.device < 4
  inside : ∀ task c, s.call task = some c → c.pc.Inside = true → s.owner = some task
  owner : ∀ task, s.owner = some task → s.live task = true → ∃ c, s.call task = some c ∧ c.pc.Inside = true
  alive : ∀ task c, s.call task = some c → s.live task = true
  quiet : s.owner = none → s.controller.Quiet
  holds : ∀ task c, s.call task = some c → c.Holds s.controller (s.ready task) task (s.device c.device)
  honest : ∀ r ∈ s.results, r.success = true → r.job.Honest (s.device r.device) r.own r.ended r.data r.medium

/-- No interrupt comes before its time, and no task gives up before its command has ended. -/
def Timely (s : IdeState) : Event → Prop
  | .interrupt _ => ∀ x, s.controller.activeChannel = some x → (s.controller.channel x).dmaActive = true →
      (s.controller.channel x).running = none
  | .goOn task env => ∀ c, s.call task = some c → c.Patient (s.controller.channel (s.device c.device).channel) env
  | _ => True

def SparesOwner (s : IdeState) : Event → Prop
  | .kill task => s.owner ≠ some task
  | _ => True

structure Contract (s : IdeState) : Prop where
  /-- a success is that of the own command, which the own device has ended without an error; the caller has the addressed
  sectors, or the device has the caller's bytes -/
  honest : ∀ r ∈ s.results, r.success = true → r.job.Honest (s.device r.device) r.own r.ended r.data r.medium
  /-- a task is blocked only while its command is executed, or the interrupt of its end is to come -/
  waiter : ∀ task c command, s.call task = some c → c.pc = .blocked command →
    (s.controller.channel (s.device c.device).channel).running = none →
    (s.controller.channel (s.device c.device).channel).raised = true

structure StepContract (s : IdeState) (e : Event) (s' : IdeState) : Prop where
  /-- the software changes the table and the buffer of a channel only if the channel executes nothing -/
  table : ∀ x, (s'.controller.channel x).prdt = (s.controller.channel x).prdt ∧
    (s'.controller.channel x).buffer = (s.controller.channel x).buffer ∨ (s.controller.channel x).running = none ∨ e = .move x
  /-- a byte of a device changes only as one of a write to this place that its channel executes -/
  medium : ∀ x drive position, s'.controller.medium x drive position = s.controller.medium x drive position ∨
    ∃ command moved, (s.controller.channel x).running = some (.dma command moved) ∧ command.write = true ∧
      command.drive = drive ∧ position = command.lba * command.sectorBytes + moved ∧ moved < command.bytes
  /-- the next interrupt after the end of a command runs the task that is blocked for it -/
  waiter : ∀ line, e = .interrupt line → ∀ task c command, s.call task = some c → c.pc = .blocked command →
    ∃ c', s'.call task = some c' ∧ c'.pc = .checks command

/-! ### The lock -/

lemma Call.Holds.outside {k k' : Controller} {ready ready' : Bool} {device : Device} (h : c.Holds k ready task device)
    (houts : c.pc.Inside = false) : c.Holds k' ready' task device := by
  unfold Call.Holds at h ⊢
  cases hpc : c.pc with
  | locking blocked =>
    rw [hpc] at h
    exact h
  | _ =>
    rw [hpc] at houts
    cases houts

lemma Call.Holds.ready {k : Controller} {ready : Bool} {device : Device} (h : c.Holds k ready task device) :
    c.Holds k true task device := by
  unfold Call.Holds at h ⊢
  cases hpc : c.pc with
  | falls command =>
    rw [hpc] at h
    exact ⟨h.1, fun _ => rfl⟩
  | _ =>
    rw [hpc] at h
    exact h

lemma Inv.setPc (h : Inv s) (hcall : s.call task = some c) {pc : Pc} (hins : pc.Inside = c.pc.Inside)
    (hhol : Call.Holds { c with pc } s.controller (s.ready task) task (s.device c.device)) :
    Inv { s with call := update s.call task (some { c with pc }) } := by
  have hoth : ∀ t d, update s.call task (some { c with pc }) t = some d →
      t = task ∧ d = { c with pc } ∨ s.call t = some d := fun t d hd => by
    rcases update_cases hd with ⟨ht, hd⟩ | ⟨-, hd⟩
    · exact .inl ⟨ht, (Option.some.inj hd).symm⟩
    · exact .inr hd
  refine ⟨h.device, fun t d hd => ?_, fun t d hd hin => ?_, fun t ht hlive => ?_, fun t d hd => ?_, h.quiet, fun t d hd => ?_,
    h.honest⟩
  · rcases hoth t d hd with ⟨-, rfl⟩ | hold
    · exact h.index task c hcall
    · exact h.index t d hold
  · rcases hoth t d hd with ⟨rfl, rfl⟩ | hold
    · exact h.inside t c hcall (hins ▸ hin)
    · exact h.inside t d hold hin
  · obtain ⟨d, hd, hin⟩ := h.owner t ht hlive
    dsimp only
    by_cases heq : t = task
    · refine ⟨{ c with pc }, by rw [heq, update_self], hins.trans ?_⟩
      rw [heq] at hd
      cases hcall.symm.trans hd
      exact hin
    · exact ⟨d, by rw [update_of_ne heq]; exact hd, hin⟩
  · rcases hoth t d hd with ⟨rfl, -⟩ | hold
    · exact h.alive t c hcall
    · exact h.alive t d hold
  · rcases hoth t d hd with ⟨rfl, rfl⟩ | hold
    · exact hhol
    · exact h.holds t d hold

lemma Inv.taskRun (h : Inv s) (task : ℕ) : Inv (s.taskRun task) := by
  unfold IdeState.taskRun
  split
  · rename_i device job hcall
    exact h.setPc hcall rfl (h.holds task ⟨device, job, .locking true⟩ hcall)
  · rename_i device job command hcall
    exact h.setPc hcall rfl (h.holds task ⟨device, job, .blocked command⟩ hcall).1
  · refine { h with holds := fun t d hd => ?_ }
    dsimp only
    by_cases ht : t = task
    · rw [ht, update_self]
      exact (ht ▸ h.holds t d hd).ready
    · rw [update_of_ne ht]
      exact h.holds t d hd

lemma Inv.apply (h : Inv s) (hcall : s.call task = some c) (hown : s.owner = some task ∨ s.owner = none) {r : Step}
    (hr : r.Holds task (s.device c.device) c) (waiters : List ℕ) :
    Inv ({ s with owner := some task, waiters }.apply task c r) := by
  have houts : ∀ t ≠ task, ∀ d, s.call t = some d → d.pc.Inside = false := fun t ht d hd => by
    by_contra hin
    have hoth := h.inside t d hd ((Bool.not_eq_false _).mp hin)
    rcases hown with heq | heq
    · exact ht (Option.some.inj (hoth.symm.trans heq))
    · cases hoth.symm.trans heq
  have hhol : ∀ t ≠ task, ∀ d, s.call t = some d → ∀ ready, d.Holds r.controller ready t (s.device d.device) :=
    fun t ht d hd _ => (h.holds t d hd).outside (houts t ht d hd)
  unfold IdeState.apply
  dsimp only
  cases hnext : r.next with
  | stays pc =>
    unfold Step.Holds at hr
    rw [hnext] at hr
    dsimp only
    refine ⟨h.device, fun t d hd => ?_, fun t d hd hin => ?_, fun t ht _ => ?_, fun t d hd => ?_, nofun, fun t d hd => ?_,
      h.honest⟩
    all_goals dsimp only at *
    · rcases update_cases hd with ⟨-, ⟨⟩⟩ | ⟨-, hd⟩
      · exact h.index task c hcall
      · exact h.index t d hd
    · by_cases heq : t = task
      · rw [heq]
      · rw [update_of_ne heq] at hd
        exact absurd ((houts t heq d hd).symm.trans hin) (by decide)
    · cases ht
      exact ⟨{ c with pc }, update_self .., hr.2⟩
    · by_cases heq : t = task
      · rw [heq]
        exact h.alive task c hcall
      · rw [update_of_ne heq] at hd
        exact h.alive t d hd
    · rcases update_cases hd with ⟨heq, ⟨⟩⟩ | ⟨heq, hd⟩
      · rw [heq, update_self]
        exact hr.1
      · exact hhol t heq d hd _
  | returns success =>
    unfold Step.Holds at hr
    rw [hnext] at hr
    dsimp only
    obtain ⟨hqt, hhon⟩ := hr
    generalize hresul : Result.mk _ _ _ _ _ _ _ _ = result
    have hret : ∀ waiters, Inv { s with
        controller := r.controller, owner := none, waiters, ready := update s.ready task r.ready
        call := update s.call task none, commands := s.commands + 1, results := s.results ++ [result] } := fun waiters => by
      have hold : ∀ t d, update s.call task none t = some d → t ≠ task ∧ s.call t = some d := fun t d hd => by
        rcases update_cases hd with ⟨-, ⟨⟩⟩ | ⟨heq, hd⟩
        exact ⟨heq, hd⟩
      refine ⟨h.device, fun t d hd => h.index t d (hold t d hd).2, fun t d hd hin => ?_, nofun,
        fun t d hd => h.alive t d (hold t d hd).2, fun _ => hqt, fun t d hd => ?_, fun x hx hsucc => ?_⟩
      · exact absurd ((houts t (hold t d hd).1 d (hold t d hd).2).symm.trans hin) (by decide)
      · exact hhol t (hold t d hd).1 d (hold t d hd).2 _
      · rcases List.mem_append.mp hx with hmem | hmem
        · exact h.honest x hmem hsucc
        · rw [List.mem_singleton] at hmem
          rw [hmem, ← hresul] at hsucc ⊢
          exact hhon hsucc
    unfold IdeState.unlock
    dsimp only
    rw [if_pos rfl]
    split
    · exact hret _
    · exact (hret _).taskRun _

lemma Inv.setController (h : Inv s) {k : Controller} (hqt : s.controller.Quiet → k.Quiet)
    (hhol : ∀ t d, s.call t = some d → d.pc.Inside = true →
      d.Holds s.controller (s.ready t) t (s.device d.device) → d.Holds k (s.ready t) t (s.device d.device)) :
    Inv { s with controller := k } := by
  refine { h with quiet := fun hnone => hqt (h.quiet hnone), holds := fun t d hd => ?_ }
  by_cases hin : d.pc.Inside = true
  · exact hhol t d hd hin (h.holds t d hd)
  · exact (h.holds t d hd).outside ((Bool.not_eq_true _).mp hin)

/-! ### The interrupt -/

lemma taskRun_controller (s : IdeState) (task : ℕ) (k : Controller) :
    IdeState.taskRun { s with controller := k } task = { s.taskRun task with controller := k } := by
  unfold IdeState.taskRun
  dsimp only
  split <;> rfl

lemma taskRun_same (s : IdeState) (task : ℕ) : (s.taskRun task).controller = s.controller ∧
    (s.taskRun task).device = s.device ∧ (s.taskRun task).owner = s.owner := by
  unfold IdeState.taskRun
  split <;> exact ⟨rfl, rfl, rfl⟩

lemma taskRun_awake (s : IdeState) {task : ℕ} (hcall : (s.taskRun task).call task = some c) :
    (∀ command, c.pc ≠ .blocked command) ∧ (∀ command, c.pc = .falls command → (s.taskRun task).ready task = true) := by
  unfold IdeState.taskRun at hcall ⊢
  split at hcall
  · dsimp only at hcall
    rw [update_self] at hcall
    cases hcall
    exact ⟨nofun, nofun⟩
  · dsimp only at hcall
    rw [update_self] at hcall
    cases hcall
    exact ⟨nofun, nofun⟩
  · rename_i hblk
    refine ⟨fun command hpc => ?_, fun command _ => ?_⟩
    · obtain ⟨device, job, pc⟩ := c
      cases hpc
      exact hblk device job command hcall
    · exact update_self ..

lemma taskRun_blocked (s : IdeState) {task : ℕ} (hcall : s.call task = some c) {command : Command}
    (hpc : c.pc = .blocked command) : (s.taskRun task).call task = some { c with pc := .checks command } := by
  obtain ⟨device, job, pc⟩ := c
  cases hpc
  unfold IdeState.taskRun
  rw [hcall]
  exact update_self ..

lemma Inv.wake (h : Inv s) {x : Fin 2} (hact : s.controller.activeChannel = some x)
    (hnone : (s.controller.channel x).running = none) {k' : Controller} (hirq : s.controller.ideIrq = (k', some task))
    (line : Fin 2) : Inv (IdeState.taskRun { s with controller := k'.lower line } task) := by
  rw [taskRun_controller]
  obtain ⟨hctl, hdev, hownr⟩ := taskRun_same s task
  refine (h.taskRun task).setController ?_ fun t d hd hin hhol => ?_
  · rw [hctl]
    exact fun hqt => nomatch hact.symm.trans hqt.active
  · rw [hctl, hdev] at hhol
    rw [hdev]
    obtain ⟨command, hpc, hwts, hflt, rfl⟩ := hhol.inFlight hin hact
    obtain ⟨k₂, hirq', hact', hwts'⟩ := hwts.ideIrq hflt hnone
    cases hirq.symm.trans hirq'
    have hdone := hwts'.progress.resolve_left fun hf => nomatch hact'.symm.trans hf.active
    have hlow := hwts'.lower hdone line
    obtain ⟨hawak, hrdy⟩ := taskRun_awake s hd
    unfold Call.Holds
    rcases hpc with hpc | hpc | hpc
    · rw [hpc]
      exact hlow
    · rw [hpc]
      exact ⟨hlow, fun _ => hrdy command hpc⟩
    · exact absurd hpc (hawak command)

lemma Inv.interrupt (h : Inv s) (line : Fin 2) (htim : Timely s (.interrupt line))
    (he : s.step (.interrupt line) = some s') : Inv s' ∧
      ∀ task c command, s.call task = some c → c.pc = .blocked command →
        ∃ c', s'.call task = some c' ∧ c'.pc = .checks command := by
  simp only [IdeState.step, Option.some.injEq] at he
  subst he
  cases hact : s.controller.activeChannel with
  | none =>
    rw [ideIrq_none hact]
    refine ⟨h.setController (fun hqt => hqt.lower line) fun t d _ _ hd => hd.lower hact line, ?_⟩
    intro t d command hd hpc
    have hhol := h.holds t d hd
    unfold Call.Holds at hhol
    rw [hpc] at hhol
    rcases hhol.1.progress with hflt | hdone
    · cases hact.symm.trans hflt.active
    · cases hhol.2.symm.trans hdone.dmaDone
  | some x =>
    by_cases hins : ∃ t d, s.call t = some d ∧ d.pc.Inside = true
    · -- a task waits for the command
      obtain ⟨t, d, hd, hin⟩ := hins
      obtain ⟨command, -, hwts, hflt, rfl⟩ := (h.holds t d hd).inFlight hin hact
      have hnone := htim _ hact hflt.dmaActive
      obtain ⟨k', hirq, -, -⟩ := hwts.ideIrq hflt hnone
      rw [hirq]
      refine ⟨h.wake hact hnone hirq line, fun t' d' command' hd' hpc' => ?_⟩
      have heq : t' = t := by
        have hown := h.inside t' d' hd' (by rw [hpc']; rfl)
        exact Option.some.inj (hown.symm.trans (h.inside t d hd hin))
      subst heq
      exact ⟨{ d' with pc := .checks command' }, taskRun_blocked { s with controller := k'.lower line } hd' hpc', rfl⟩
    · -- the owner of the controller is dead
      have hset : ∀ k, Inv { s with controller := k } := fun k =>
        h.setController (fun hqt => nomatch hact.symm.trans hqt.active) fun t d hd hin _ =>
          absurd ⟨t, d, hd, hin⟩ hins
      refine ⟨?_, fun t' d' command' hd' hpc' => absurd ⟨t', d', hd', by rw [hpc']; rfl⟩ hins⟩
      split
      · exact (hset _).taskRun _
      · exact hset _

/-! ### One step -/

lemma Inv.enter (h : Inv s) {index : ℕ} {job : Job} (he : s.enter task index job = some s') : Inv s' := by
  unfold IdeState.enter at he
  rw [Option.ite_none_right_eq_some] at he
  obtain ⟨⟨hlive, hnone⟩, he⟩ := he
  rw [Option.isNone_iff_eq_none] at hnone
  split at he
  · rename_i success href
    cases he
    refine { h with honest := fun r hr hsucc => ?_ }
    rcases List.mem_append.mp hr with hold | hnew
    · exact h.honest r hold hsucc
    · rw [List.mem_singleton] at hnew
      subst hnew
      change success = true at hsucc
      subst hsucc
      split_ifs at href
      · unfold Job.refused at href
        cases job with
        | transfer write sectors lba data =>
          dsimp only at href
          split_ifs at href
          cases href
        | sync =>
          dsimp only at href
          split_ifs at href with _ hnot
          · cases href
          · exact .inl hnot
      · cases href
  · rename_i hacc
    cases he
    split_ifs at hacc with hidx
    have hoth : ∀ t d, update s.call task (some ⟨index, job, .locking false⟩) t = some d →
        t = task ∧ d = ⟨index, job, .locking false⟩ ∨ t ≠ task ∧ s.call t = some d := fun t d hd => by
      rcases update_cases hd with ⟨ht, hd⟩ | ⟨ht, hd⟩
      · exact .inl ⟨ht, (Option.some.inj hd).symm⟩
      · exact .inr ⟨ht, hd⟩
    refine ⟨h.device, fun t d hd => ?_, fun t d hd hin => ?_, fun t ht hl => ?_, fun t d hd => ?_, h.quiet, fun t d hd => ?_,
      h.honest⟩
    · rcases hoth t d hd with ⟨-, rfl⟩ | ⟨-, hold⟩
      · exact hidx
      · exact h.index t d hold
    · rcases hoth t d hd with ⟨-, rfl⟩ | ⟨-, hold⟩
      · cases hin
      · exact h.inside t d hold hin
    · obtain ⟨d, hd, hin⟩ := h.owner t ht hl
      have hne : t ≠ task := fun heq => by
        rw [heq, hnone] at hd
        cases hd
      exact ⟨d, (update_of_ne hne ..).trans hd, hin⟩
    · rcases hoth t d hd with ⟨rfl, -⟩ | ⟨-, hold⟩
      · exact hlive
      · exact h.alive t d hold
    · rcases hoth t d hd with ⟨rfl, rfl⟩ | ⟨-, hold⟩
      · exact hacc
      · exact h.holds t d hold

lemma Inv.lockWait (h : Inv s) (hcall : s.call task = some c) (houts : c.pc.Inside = false) : Inv (s.lockWait task c) := by
  have hmov : Inv { s with call := update s.call task (some { c with pc := .locking (!s.ready task) }) } :=
    h.setPc hcall houts.symm (by
    have hhol := h.holds task c hcall
    unfold Call.Holds at hhol ⊢
    cases hpc : c.pc with
    | locking blocked =>
      rw [hpc] at hhol
      exact hhol
    | _ =>
      rw [hpc] at houts
      cases houts)
  refine { hmov with holds := fun t d hd => ?_ }
  have hhol := hmov.holds t d hd
  unfold IdeState.lockWait
  dsimp only
  by_cases heq : t = task
  · subst heq
    cases (update_self ..).symm.trans hd
    exact hhol.outside rfl
  · rwa [update_of_ne heq]
lemma Inv.goOn (h : Inv s) {env : Env} (htim : Timely s (.goOn task env)) (he : s.step (.goOn task env) = some s') :
    Inv s' := by
  simp only [IdeState.step] at he
  split at he
  · cases he
  · cases he
  · cases he
  · rename_i c hlock hblk hcall
    split_ifs at he with hwts hins hshw hshw
    · -- another task is the owner
      cases he
      exact h.lockWait hcall (by simpa using hwts.1)
    · cases he
      have hown := h.inside task c hcall hins
      have hrd := round_holds (h.device _ (h.index task c hcall)) (h.holds task c hcall)
        (fun hout => absurd (hins.symm.trans hout) (by decide)) hshw (htim c hcall) s.commands
      have happ := h.apply hcall (.inl hown) hrd s.waiters
      rw [← hown] at happ
      exact happ
    · cases he
      have hfree : s.owner = none := by
        by_contra hsome
        exact hwts ⟨by simpa using hins, Option.isSome_iff_ne_none.mpr hsome⟩
      exact h.apply hcall (.inr hfree) (round_holds (h.device _ (h.index task c hcall)) (h.holds task c hcall)
        (fun _ => h.quiet hfree) hshw (htim c hcall) s.commands) _

lemma Inv.kill (h : Inv s) (he : s.step (.kill task) = some s') : Inv s' := by
  cases he
  have hold : ∀ t d, update s.call task none t = some d → t ≠ task ∧ s.call t = some d := fun t d hd => by
    rcases update_cases hd with ⟨-, ⟨⟩⟩ | ⟨heq, hd⟩
    exact ⟨heq, hd⟩
  refine ⟨h.device, fun t d hd => h.index t d (hold t d hd).2, fun t d hd hin => h.inside t d (hold t d hd).2 hin,
    fun t ht hl => ?_, fun t d hd => ?_, h.quiet, fun t d hd => h.holds t d (hold t d hd).2, h.honest⟩
  · have hne : t ≠ task := fun heq => by
      rw [heq] at hl
      exact absurd ((update_self ..).symm.trans hl) (by decide)
    obtain ⟨d, hd, hin⟩ := h.owner t ht ((update_of_ne hne ..).symm.trans hl)
    exact ⟨d, (update_of_ne hne ..).trans hd, hin⟩
  · exact (update_of_ne (hold t d hd).1 ..).trans (h.alive t d (hold t d hd).2)

/-- **What one step preserves.** -/
theorem Inv.step (h : Inv s) (htim : Timely s e) (he : s.step e = some s') : Inv s' := by
  cases e with
  | enter task drive job =>
    simp only [IdeState.step] at he
    exact h.enter he
  | goOn task env => exact h.goOn htim he
  | run task =>
    cases he
    exact h.taskRun task
  | interrupt line => exact (h.interrupt line htim he).1
  | kill task => exact h.kill he
  | move x =>
    obtain ⟨k', hk', rfl⟩ := Option.map_eq_some_iff.mp he
    exact h.setController (fun hqt => nomatch hqt.not_move.symm.trans hk') fun t d _ hin hd => hd.move hin hk'
  | finish x bmError ataError =>
    obtain ⟨k', hk', rfl⟩ := Option.map_eq_some_iff.mp he
    exact h.setController (fun hqt => nomatch hqt.not_finish.symm.trans hk') fun t d _ hin hd => hd.finish hin hk'

/-! ### The table, the buffer, and the devices -/

section Table

variable {k k' : Controller} {ready : Bool} {device : Device} {x : Fin 2}

def Controller.SameTable (k k' : Controller) (y : Fin 2) : Prop :=
  (k'.channel y).prdt = (k.channel y).prdt ∧ (k'.channel y).buffer = (k.channel y).buffer

lemma setChannel_sameTable {channel : Channel} (hprdt : channel.prdt = (k.channel x).prdt)
    (hbuf : channel.buffer = (k.channel x).buffer) (y : Fin 2) : k.SameTable (k.setChannel x channel) y := by
  unfold Controller.SameTable
  by_cases hy : y = x
  · rw [hy, setChannel_self]
    exact ⟨hprdt, hbuf⟩
  · rw [setChannel_of_ne k channel hy]
    exact ⟨rfl, rfl⟩

lemma issue_sameTable {data : Option (ℕ → UInt8)} {tableMapped : Bool} {command : Command} (hread : command.write = false)
    (y : Fin 2) : k.SameTable (k.issue ready task x data tableMapped command).controller y := by
  unfold Controller.issue
  dsimp only
  rw [hread]
  split_ifs
  · refine setChannel_sameTable ?_ ?_ y <;> rfl
  · refine setChannel_sameTable (k := k) (x := x) ?_ ?_ y <;> rfl

/-- **The code changes the table and the buffer of a channel only if the channel executes nothing.** -/
lemma round_table (h : c.Holds k ready task device) (hlock : c.pc.Inside = false → k.Quiet) (env : Env) (number : ℕ)
    (y : Fin 2) : k.SameTable (k.round ready task device c env number).controller y ∨ (k.channel y).running = none := by
  unfold Call.Holds at h
  unfold Controller.round
  cases hpc : c.pc with
  | locking blocked =>
    rw [hpc] at hlock
    exact .inr ((hlock rfl).running y)
  | idle =>
    rw [hpc] at h
    exact .inr (h.1.running y)
  | packet =>
    refine .inl ?_
    dsimp only
    unfold Controller.packetRound
    dsimp only
    split
    · exact ⟨rfl, rfl⟩
    · split
      · exact ⟨rfl, rfl⟩
      · rename_i command hdec
        refine issue_sameTable ?_ y
        unfold decodePacket packet at hdec
        cases hdec
        rfl
    · refine setChannel_sameTable ?_ ?_ y <;> rfl
  | checks command =>
    refine .inl ?_
    dsimp only
    unfold Controller.checksRound
    dsimp only
    split_ifs
    · refine setChannel_sameTable ?_ ?_ y <;> rfl
    · exact ⟨rfl, rfl⟩
  | falls command => exact .inl ⟨rfl, rfl⟩
  | blocked command => exact .inl ⟨rfl, rfl⟩
  | syncIdle control =>
    rw [hpc] at h
    exact .inr (h.1.running y)
  | syncFlush control flush =>
    refine .inl ?_
    dsimp only
    unfold Controller.syncFlushRound
    dsimp only
    split_ifs
    · refine setChannel_sameTable ?_ ?_ y <;> rfl
    · refine setChannel_sameTable ?_ ?_ y <;> rfl
    · exact ⟨rfl, rfl⟩

lemma issue_medium {data : Option (ℕ → UInt8)} {tableMapped : Bool} {command : Command} :
    (k.issue ready task x data tableMapped command).controller.medium = k.medium := by
  unfold Controller.issue
  dsimp only
  split_ifs <;> rfl

lemma round_medium (env : Env) (number : ℕ) : (k.round ready task device c env number).controller.medium = k.medium := by
  unfold Controller.round
  split
  · unfold Controller.first
    dsimp only
    split
    · split_ifs
      · rfl
      · split <;> rfl
    · rfl
  · unfold Controller.idleRound
    dsimp only
    split
    · rfl
    · split_ifs
      · rfl
      · split
        · rfl
        · exact issue_medium
    · rfl
  · unfold Controller.packetRound
    dsimp only
    split
    · rfl
    · split
      · rfl
      · exact issue_medium
    · rfl
  · unfold Controller.checksRound
    dsimp only
    split_ifs <;> rfl
  · rfl
  · rfl
  · unfold Controller.syncIdleRound
    dsimp only
    split <;> rfl
  · unfold Controller.syncFlushRound
    dsimp only
    split_ifs <;> rfl

lemma ideIrq_sameTable (k : Controller) (line y : Fin 2) :
    k.SameTable (k.ideIrq.1.lower line) y ∧ (k.ideIrq.1.lower line).medium = k.medium := by
  have hlo : ∀ k' : Controller, k'.SameTable (k'.lower line) y := fun k' => by
    unfold Controller.lower
    refine setChannel_sameTable ?_ ?_ y <;> rfl
  unfold Controller.ideIrq
  split
  · rename_i x _
    dsimp only
    split_ifs
    · have hset : k.SameTable (k.setChannel x { k.channel x with
          start := false, dmaFailed := (k.channel x).bmError || (k.channel x).ataError, bmError := false
          dmaActive := false, dmaDone := true }) y := by
        refine setChannel_sameTable ?_ ?_ y <;> rfl
      exact ⟨⟨(hlo _).1.trans hset.1, (hlo _).2.trans hset.2⟩, rfl⟩
    · exact ⟨hlo k, rfl⟩
  · exact ⟨hlo k, rfl⟩

end Table

lemma apply_controller (s : IdeState) (task : ℕ) (c : Call) (r : Step) : (s.apply task c r).controller = r.controller := by
  unfold IdeState.apply
  dsimp only
  split
  · rfl
  · unfold IdeState.unlock
    split_ifs
    · split
      · rfl
      · exact (taskRun_same _ _).1
    · rfl

lemma Inv.controller (h : Inv s) (he : s.step e = some s') : s'.controller = s.controller ∨
    (∃ task c env number ready, s.call task = some c ∧ c.Holds s.controller ready task (s.device c.device) ∧
      (c.pc.Inside = false → s.controller.Quiet) ∧
      s'.controller = (s.controller.round ready task (s.device c.device) c env number).controller) ∨
    (∃ line, s'.controller = s.controller.ideIrq.1.lower line) ∨
    (∃ x, e = .move x ∧ s.controller.move x = some s'.controller) ∨
    ∃ x bmError ataError, s.controller.finish x bmError ataError = some s'.controller := by
  cases e with
  | enter task drive job =>
    simp only [IdeState.step] at he
    unfold IdeState.enter at he
    rw [Option.ite_none_right_eq_some] at he
    refine .inl ?_
    split at he <;> (cases he.2; rfl)
  | goOn task env =>
    simp only [IdeState.step] at he
    split at he
    · cases he
    · cases he
    · cases he
    · rename_i c hlock hblk hcall
      split_ifs at he with hwts hins hshw hshw
      · cases he
        exact .inl rfl
      · cases he
        exact .inr (.inl ⟨task, c, env, s.commands, s.ready task, hcall, h.holds task c hcall,
          fun hout => absurd (hins.symm.trans hout) (by decide), apply_controller ..⟩)
      · cases he
        have hfree : s.owner = none := by
          by_contra hsome
          exact hwts ⟨by simpa using hins, Option.isSome_iff_ne_none.mpr hsome⟩
        exact .inr (.inl ⟨task, c, env, s.commands, s.ready task, hcall, h.holds task c hcall, fun _ => h.quiet hfree,
          apply_controller ..⟩)
  | run task =>
    cases he
    exact .inl (taskRun_same s task).1
  | interrupt line =>
    cases he
    refine .inr (.inr (.inl ⟨line, ?_⟩))
    dsimp only
    split
    · exact (taskRun_same _ _).1
    · rfl
  | kill task =>
    cases he
    exact .inl rfl
  | move x =>
    obtain ⟨k', hk', rfl⟩ := Option.map_eq_some_iff.mp he
    exact .inr (.inr (.inr (.inl ⟨x, rfl, hk'⟩)))
  | finish x bmError ataError =>
    obtain ⟨k', hk', rfl⟩ := Option.map_eq_some_iff.mp he
    exact .inr (.inr (.inr (.inr ⟨x, bmError, ataError, hk'⟩)))

lemma Inv.table (h : Inv s) (he : s.step e = some s') (y : Fin 2) : s.controller.SameTable s'.controller y ∨
    (s.controller.channel y).running = none ∨ e = .move y := by
  rcases h.controller he with hsame | ⟨task, c, env, number, ready, -, hhol, hlock, heq⟩ | ⟨line, heq⟩ | ⟨x, rfl, hmove⟩ |
    ⟨x, bmError, ataError, hfin⟩
  · rw [hsame]
    exact .inl ⟨rfl, rfl⟩
  · rw [heq]
    rcases round_table hhol hlock env number y with hsame | hnone
    · exact .inl hsame
    · exact .inr (.inl hnone)
  · rw [heq]
    exact .inl (ideIrq_sameTable _ line y).1
  · by_cases hy : y = x
    · exact .inr (.inr (by rw [hy]))
    · obtain ⟨command, moved, address, -, -, -, -, heq⟩ := move_eq hmove
      rw [heq]
      refine .inl ?_
      unfold Controller.SameTable
      split_ifs
      · exact (setChannel_of_ne s.controller _ hy) ▸ ⟨rfl, rfl⟩
      · rw [setChannel_of_ne _ _ hy]
        exact ⟨rfl, rfl⟩
  · refine .inl ?_
    rcases finish_eq hfin with ⟨_, _, -, -, heq⟩ | ⟨-, heq⟩ | ⟨_, -, -, heq⟩ <;>
      (rw [heq]; refine setChannel_sameTable ?_ ?_ y <;> rfl)

lemma Inv.medium (h : Inv s) (he : s.step e = some s') (x : Fin 2) (drive position : ℕ) :
    s'.controller.medium x drive position = s.controller.medium x drive position ∨
      ∃ command moved, (s.controller.channel x).running = some (.dma command moved) ∧ command.write = true ∧
        command.drive = drive ∧ position = command.lba * command.sectorBytes + moved ∧ moved < command.bytes := by
  rcases h.controller he with hsame | ⟨task, c, env, number, ready, -, -, -, heq⟩ | ⟨line, heq⟩ | ⟨y, -, hmove⟩ |
    ⟨y, bmError, ataError, hfin⟩
  · rw [hsame]
    exact .inl rfl
  · rw [heq, round_medium]
    exact .inl rfl
  · rw [heq, (ideIrq_sameTable _ line x).2]
    exact .inl rfl
  · obtain ⟨command, moved, address, hrun, -, hlt, -, heq⟩ := move_eq hmove
    rw [heq]
    split_ifs with hwr
    · by_cases hplc : x = y ∧ drive = command.drive ∧ position = command.lba * command.sectorBytes + moved
      · obtain ⟨rfl, rfl, rfl⟩ := hplc
        exact .inr ⟨command, moved, hrun, hwr, rfl, rfl, hlt⟩
      · refine .inl ?_
        dsimp only
        by_cases hx : x = y
        · subst hx
          rw [update_self]
          by_cases hdrv : drive = command.drive
          · subst hdrv
            rw [update_self, update_of_ne fun hpos => hplc ⟨rfl, rfl, hpos⟩]
          · rw [update_of_ne hdrv]
        · rw [update_of_ne hx]
    · exact .inl rfl
  · refine .inl ?_
    rcases finish_eq hfin with ⟨_, _, -, -, heq⟩ | ⟨-, heq⟩ | ⟨_, -, -, heq⟩ <;> (rw [heq]; rfl)

/-! ### The contract -/

lemma Inv.of_init (hs : sys.init s) : Inv s := by
  obtain ⟨hdev, hownr, hcall, hres, hact, hchan⟩ := hs
  have hnone : ∀ task c, s.call task ≠ some c := fun task c hc => nomatch (hcall task).symm.trans hc
  constructor
  · exact hdev
  · exact fun t d hd => absurd hd (hnone t d)
  · exact fun t d hd => absurd hd (hnone t d)
  · exact fun t ht => nomatch hownr.symm.trans ht
  · exact fun t d hd => absurd hd (hnone t d)
  · exact fun _ => ⟨hact, fun x => (hchan x).1, fun x => (hchan x).2⟩
  · exact fun t d hd => absurd hd (hnone t d)
  · intro r hr
    rw [hres] at hr
    cases hr

lemma guarded_inv (h : sys.Guarded Timely s) : Inv s :=
  h.invariant (fun _ => .of_init) fun _ _ _ hinv htim he => hinv.step htim he

lemma Inv.contract (h : Inv s) : Contract s := by
  refine ⟨h.honest, fun task c command hcall hpc hnone => ?_⟩
  have hhol := h.holds task c hcall
  unfold Call.Holds at hhol
  rw [hpc] at hhol
  obtain ⟨hwts, hnotd⟩ := hhol
  rcases hwts.progress with hflt | hdone
  · exact (hflt.command.resolve_left fun ⟨_, hruns, _⟩ => nomatch hnone.symm.trans hruns).1
  · cases hnotd.symm.trans hdone.dmaDone

lemma Inv.stepContract (h : Inv s) (htim : Timely s e) (he : s.step e = some s') : StepContract s e s' := by
  refine ⟨h.table he, h.medium he, ?_⟩
  rintro line rfl
  exact (h.interrupt line htim he).2

lemma taskRun_live (s : IdeState) (task : ℕ) : (s.taskRun task).live = s.live := by
  unfold IdeState.taskRun
  split <;> rfl

lemma unlock_owner (s : IdeState) (task : ℕ) : ((s.unlock task).owner = s.owner ∨ (s.unlock task).owner = none) ∧
    (s.unlock task).live = s.live := by
  unfold IdeState.unlock
  split_ifs
  · split
    · exact ⟨.inr rfl, rfl⟩
    · exact ⟨.inr (taskRun_same _ _).2.2, taskRun_live _ _⟩
  · exact ⟨.inl rfl, rfl⟩

lemma apply_owner (s : IdeState) (task : ℕ) (c : Call) (r : Step) :
    ((s.apply task c r).owner = s.owner ∨ (s.apply task c r).owner = none) ∧ (s.apply task c r).live = s.live := by
  unfold IdeState.apply
  dsimp only
  split
  · exact ⟨.inl rfl, rfl⟩
  · exact unlock_owner _ task

lemma owner_step (he : s.step e = some s') (hownr : s'.owner = some task) :
    (s.owner = some task ∨ ∃ c, s.call task = some c) ∧
      (s'.live = s.live ∨ s.owner = some task ∧ ∃ t, e = .kill t ∧ s'.live = update s.live t false) := by
  cases e with
  | enter t drive job =>
    simp only [IdeState.step] at he
    unfold IdeState.enter at he
    rw [Option.ite_none_right_eq_some] at he
    split at he <;> (cases he.2; exact ⟨.inl hownr, .inl rfl⟩)
  | goOn t env =>
    simp only [IdeState.step] at he
    split at he
    · cases he
    · cases he
    · cases he
    · rename_i c hlock hblk hcall
      split_ifs at he
      · cases he
        exact ⟨.inl hownr, .inl rfl⟩
      · cases he
        obtain ⟨hown, hlive⟩ := apply_owner s t c
          (s.controller.round (s.ready t) t (s.device c.device) c env s.commands)
        refine ⟨.inl ?_, .inl hlive⟩
        rcases hown with heq | heq
        · exact heq.symm.trans hownr
        · cases heq.symm.trans hownr
      · cases he
        obtain ⟨hown, hlive⟩ := apply_owner { s with owner := some t, waiters := s.waiters.erase t } t c
          (s.controller.round (s.ready t) t (s.device c.device) c env s.commands)
        refine ⟨.inr ⟨c, ?_⟩, .inl hlive⟩
        rcases hown with heq | heq
        · cases heq.symm.trans hownr
          exact hcall
        · cases heq.symm.trans hownr
  | run t =>
    cases he
    rw [(taskRun_same s t).2.2] at hownr
    exact ⟨.inl hownr, .inl (taskRun_live s t)⟩
  | interrupt line =>
    cases he
    split at hownr
    · rw [(taskRun_same _ _).2.2] at hownr
      exact ⟨.inl hownr, .inl (taskRun_live _ _)⟩
    · exact ⟨.inl hownr, .inl rfl⟩
  | kill t =>
    cases he
    exact ⟨.inl hownr, .inr ⟨hownr, t, rfl, rfl⟩⟩
  | move x =>
    obtain ⟨k', -, rfl⟩ := Option.map_eq_some_iff.mp he
    exact ⟨.inl hownr, .inl rfl⟩
  | finish x bmError ataError =>
    obtain ⟨k', -, rfl⟩ := Option.map_eq_some_iff.mp he
    exact ⟨.inl hownr, .inl rfl⟩

lemma owner_lives (h : sys.Guarded (fun s e => Timely s e ∧ SparesOwner s e) s) (hownr : s.owner = some task) :
    s.live task = true := by
  suffices hboth : Inv s ∧ ∀ task, s.owner = some task → s.live task = true from hboth.2 task hownr
  clear hownr
  induction h with
  | init hi => exact ⟨.of_init hi, fun task hown => nomatch hi.2.1.symm.trans hown⟩
  | @step s s' e _ hg he ih =>
    obtain ⟨hinv, hliv⟩ := ih
    refine ⟨hinv.step hg.1 he, fun task hown => ?_⟩
    obtain ⟨hbef, hlive⟩ := owner_step he hown
    have hlived : s.live task = true := by
      rcases hbef with hsame | ⟨c, hc⟩
      · exact hliv task hsame
      · exact hinv.alive task c hc
    rcases hlive with heq | ⟨hsame, t, rfl, heq⟩
    · rwa [heq]
    · have hne : task ≠ t := fun h => hg.2 (h ▸ hsame)
      rw [heq, update_of_ne hne]
      exact hlived

/-- **The transfers are honest**, and no channel is disturbed, in every run without an interrupt before its time and
without a task that gives up too early; the lock of the controller is never lost if no owner of it is terminated. -/
theorem transfers_are_honest (h : sys.Guarded Timely s) :
    (Contract s ∧ ∀ e s', Timely s e → s.step e = some s' → StepContract s e s') ∧
      (sys.Guarded (fun s e => Timely s e ∧ SparesOwner s e) s → ∀ task, s.owner = some task → s.live task = true) :=
  ⟨⟨(guarded_inv h).contract, fun _ _ htimely he => (guarded_inv h).stepContract htimely he⟩,
    fun hspares _ howner => owner_lives hspares howner⟩

/-! ### Runs of one disk -/

def newChannel : Channel where
  busMaster := true
  memory := true
  bufferAddress := 0x100000
  interruptDisable := false
  prdt := []
  buffer _ := 0
  dmaActive := false
  dmaDone := false
  dmaFailed := false
  dmaWaiter := none
  running := none
  start := false
  bmError := false
  ataError := false
  raised := false
  ended := none

def disk : Device := ⟨true, 0, 0, .ata, 0, 0x300, 0, 1000⟩

def fourDisks : IdeState where
  controller := ⟨fun _ => newChannel, none, fun _ _ _ => 7⟩
  device _ := disk
  owner := none
  waiters := []
  call _ := none
  ready _ := false
  live _ := true
  commands := 0
  results := []

lemma fourDisks_init : sys.init fourDisks :=
  ⟨fun _ _ => ⟨Nat.zero_lt_two, fun h => absurd h (show ¬0x300 &&& 0x200 = 0 by decide)⟩, rfl, fun _ => rfl, rfl, rfl,
  fun _ => ⟨rfl, rfl⟩⟩

def fast : Env := ⟨⟨false, false, false⟩, false, true, true⟩

def busy : Env := ⟨⟨false, true, false⟩, false, true, true⟩

/-- Task 1 reads sector 5 of the first disk, up to its first look at `dma_done`. -/
def reader : List Event := [.enter 1 67 (.transfer false 1 5 (some fun _ => 0)), .goOn 1 fast, .goOn 1 fast, .goOn 1 busy]

/-- The command fails: the task is run by the interrupt, and its call returns `false`. -/
theorem transfers_are_honest_failed : ∃ s, (s.results.map Result.success = [false] ∧ s.owner = none) ∧ Contract s := by
  have hmeets : sys.Meets Timely fourDisks (reader ++ [.goOn 1 busy, .finish 0 true false, .interrupt 0, .goOn 1 fast]) := by
    refine ⟨trivial, ?_, ?_, ?_, ?_, trivial, fun x hactive _ => ?_, ?_, trivial⟩
    · rintro c ⟨⟩
      exact ⟨nofun, nofun⟩
    · rintro c ⟨⟩
      exact ⟨nofun, nofun⟩
    · rintro c ⟨⟩
      exact ⟨nofun, nofun⟩
    · rintro c ⟨⟩
      exact ⟨nofun, nofun⟩
    · cases hactive
      rfl
    · rintro c ⟨⟩
      exact ⟨nofun, nofun⟩
  exact ⟨_, ⟨rfl, rfl⟩, (transfers_are_honest (System.after_guarded (.init fourDisks_init) hmeets)).1.1⟩

/-- **A spurious interrupt ends a read**: the call returns `true` while its command is still executed, and no byte has
come. A reader that dies leaves the lock of the controller to nobody. -/
theorem spurious_interrupt_ends_read :
    (∃ s, sys.Reachable s ∧ ∃ r ∈ s.results, r.success = true ∧ r.ended = none ∧
      r.job matches .transfer false _ _ _) ∧
    ∃ s, sys.Reachable s ∧ s.owner = some 1 ∧ s.live 1 = false := by
  refine ⟨⟨sys.replay fourDisks (reader ++ [.interrupt 1, .goOn 1 busy, .goOn 1 busy]),
    System.replay_reachable (.init fourDisks_init) _, _, List.mem_singleton.mpr rfl, rfl, rfl, rfl⟩,
    sys.replay fourDisks (reader ++ [.kill 1]), System.replay_reachable (.init fourDisks_init) _, rfl, rfl⟩

end PlantOS.Ide

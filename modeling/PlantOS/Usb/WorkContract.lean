import PlantOS.Usb.Work

/-!
# The steps of a work item

What a submitter, the service task, the end of a task and the storages do to the list keeps the invariant and the
references.
-/

namespace PlantOS.Usb.Service

open Lib State
open Function (update update_idem update_of_ne update_self)

variable {S : ℕ} {s s' : State}

structure Good (S : ℕ) (s : State) : Prop where
  inv : Inv S s
  counted : Counted none s
  fault : s.fault = false

/-! ### The parts of a step -/

lemma Inv.walk (h : Inv S s) : (s.list.any fun v => (s.works v).isNone) = false := by
  rw [List.any_eq_false]
  intro v hv
  have hsome := (h.mem v).mp hv
  cases hwork : s.works v with
  | none => simp [hwork] at hsome
  | some work => simp

lemma Counted.storage (hc : Counted none s) (h : Inv S s) {w : ℕ} {work : Work} (hwork : s.works w = some work) :
    ∃ n, s.references work.storage = some n := by
  have hw : w ∈ s.list := (h.mem w).mpr (by rw [hwork]; rfl)
  have hpos : 0 < s.list.countP fun v => (s.works v).any fun other => other.storage = work.storage :=
    List.countP_pos_iff.mpr ⟨w, hw, by simp [hwork]⟩
  have hrefs := hc.references work.storage
  rw [if_pos ⟨hc.refers w work hwork, by unfold users; omega⟩] at hrefs
  exact ⟨_, hrefs⟩

lemma Counted.setWork (hc : Counted none s) {w : ℕ} {work a : Work} (hwork : s.works w = some work)
    (hstor : a.storage = work.storage) (hlist : s'.list = s.list)
    (hwor : s'.works = update s.works w (some a)) (hatt : s'.attached = s.attached)
    (hcr : s'.storagesCreated = s.storagesCreated) (hrefs : s'.references = s.references)
    (hfrd : s'.freed = s.freed) : Counted none s' := by
  refine hc.congr hlist ?_ hatt hcr hrefs hfrd
  intro v
  rw [hwor]
  by_cases hv : v = w
  · rw [hv, update_self, hwork, Option.map_some, Option.map_some, hstor]
  · rw [update_of_ne hv]

lemma Counted.tasks (hc : Counted none s) (tasks : ℕ → Option Task) : Counted none { s with tasks := tasks } :=
  hc.congr rfl (fun _ => rfl) rfl rfl rfl rfl

lemma Good.resume (h : Good S s) {tid generation w : ℕ} {work : Work}
    (htsk : s.tasks tid = some ⟨generation, .submits w⟩) (hwork : s.works w = some work) (hdone : work.state = .done) :
    Good S (s.setPhase tid (.holds w)) := by
  have htas := setPhase_tasks htsk (.holds w) rfl
  refine ⟨?_, h.counted.congr rfl (fun _ => rfl) rfl rfl rfl rfl, h.fault⟩
  obtain ⟨other, hoth, htid⟩ := h.inv.relies tid _ htsk
  rw [hwork] at hoth
  cases hoth
  refine h.inv.keep (a := work) hwork rfl (Function.update_eq_self_iff.mpr hwork.symm).symm rfl rfl (fun _ _ => rfl)
    ((h.inv.counts w).live hwork).2.2 ?_ ?_ ?_
  · rw [htas]
    exact .phase htsk (h.inv.tid tid _ htsk) (.inr rfl) (.inr rfl)
  · have hgen : generation = work.generation := (h.inv.owner hwork htsk htid).1
    refine .inr ⟨htid ▸ h.inv.tid tid _ htsk, .holds w, ?_, .inr (.inr ⟨rfl, hdone⟩)⟩
    rw [htas, htid, update_self, hgen]
  · intro other task hoth hab
    rw [htas] at hoth
    rcases update_cases hoth with ⟨rfl, ⟨⟩⟩ | ⟨-, hoth⟩
    · exact ⟨work, hwork, htid⟩
    · exact h.inv.relies other task hoth

lemma Good.release (h : Good S s) {tid generation w : ℕ} (htsk : s.tasks tid = some ⟨generation, .holds w⟩) :
    Good S ((s.workRelease w).setPhase tid .idle) := by
  obtain ⟨work, hwork, htid⟩ := h.inv.relies tid _ htsk
  obtain ⟨hcntd, hflt, hlist, hwor, hcr, htas, hexec, hdest⟩ :=
    h.counted.workRelease hwork h.inv.nodup h.inv.mem
  have htsk' : (s.workRelease w).tasks tid = some ⟨generation, .holds w⟩ := by rw [htas, htsk]
  have hph := setPhase_tasks htsk' .idle rfl
  rw [htas] at hph
  refine ⟨?_, hcntd.congr rfl (fun _ => rfl) rfl rfl rfl rfl, hflt.trans h.fault⟩
  have hdone := h.inv.held hwork htsk htid
  refine h.inv.remove hwork hlist hwor hcr hexec hdest ?_ ?_
  · rw [hph]
    exact .phase htsk (h.inv.tid tid _ htsk) (.inr rfl) (.inl rfl)
  · intro other task hoth hab
    rw [hph] at hoth
    rcases update_cases hoth with ⟨rfl, ⟨⟩⟩ | ⟨hne, hoth⟩
    · cases hab
    · rcases h.inv.about hwork hoth hab with ⟨hsame, _⟩ | ⟨_, _, hact⟩
      · exact hne (hsame.trans htid)
      · rw [hdone] at hact
        cases hact

/-! ### Steps of the service task -/

lemma Good.start (h : Good S s) {generation w : ℕ} {work : Work} (htsk : s.tasks S = some ⟨generation, .idle⟩)
    (hwork : s.works w = some work) (hqud : work.state = .queued)
    (hwor : s'.works = update s.works w (some { work with state := .active }))
    (htas : s'.tasks = update s.tasks S (some ⟨generation, .serves w⟩))
    (hlist : s'.list = s.list) (hcr : s'.created = s.created) (hdest : s'.destroyed = s.destroyed)
    (hexec : s'.executed = State.count s.executed w) : Inv S s' := by
  have hS : s'.tasks S = some ⟨generation, .serves w⟩ := by rw [htas, update_self]
  have hcnt := ((h.inv.counts w).live hwork).2.2
  rw [if_pos hqud] at hcnt
  refine h.inv.keep (a := { work with state := .active }) hwork hlist hwor hcr hdest ?_ ?_ ?_ ?_ ?_
  · intro v hv
    rw [hexec, State.count, update_of_ne hv]
  · rw [hexec, State.count, update_self, hcnt]
    rfl
  · rw [htas]
    exact .phase htsk (h.inv.tid S _ htsk) (.inl rfl) (.inr rfl)
  · rcases h.inv.owned w work hwork with ⟨_, hact, _⟩ | ⟨hnone, phase, hownr, hcas⟩
    · rw [hqud] at hact
      cases hact
    · rcases hcas with ⟨hp, hne, _⟩ | ⟨_, _, hact⟩ | ⟨_, hdone⟩
      · refine .inr ⟨hnone, phase, ?_, .inl ⟨hp, hne, fun _ => ⟨generation, hS⟩⟩⟩
        rw [htas]
        exact (update_of_ne hne _ _).trans hownr
      · rw [hqud] at hact
        cases hact
      · rw [hqud] at hdone
        cases hdone
  · intro tid task hoth hab
    rw [htas] at hoth
    rcases update_cases hoth with ⟨rfl, ⟨⟩⟩ | ⟨hne, hoth⟩
    · exact ⟨rfl, _, by rw [hwor, update_self], rfl⟩
    · have hrely := h.inv.relies tid task hoth
      rcases h.inv.about hwork hoth hab with ⟨hsame, hserv⟩ | ⟨hS', _⟩
      · unfold Relies at hrely ⊢
        cases hph : task.phase with
        | idle | died | cancelled _ => trivial
        | serves v =>
          rw [hph] at hserv hab
          cases hab
          exact absurd rfl hserv
        | submits v | executes v | holds v =>
          rw [hph] at hab
          cases hab
          exact ⟨{ work with state := .active }, by rw [hwor, update_self], hsame.symm⟩
      · exact absurd hS' hne

lemma Inv.serves (h : Inv S s) {generation w : ℕ} (htsk : s.tasks S = some ⟨generation, .serves w⟩) :
    ∃ work, s.works w = some work ∧ work.state = .active := (h.relies S _ htsk).2

lemma Inv.finish (h : Inv S s) {generation w : ℕ} {work : Work} (htsk : s.tasks S = some ⟨generation, .serves w⟩)
    (hwork : s.works w = some work) (hact : work.state = .active) (hwts : work.tid ≠ noTask)
    (hwor : s'.works = update s.works w (some { work with state := .done }))
    (htas : s'.tasks = update s.tasks S (some ⟨generation, .idle⟩))
    (hlist : s'.list = s.list) (hcr : s'.created = s.created) (hdest : s'.destroyed = s.destroyed)
    (hexec : s'.executed = s.executed) : Inv S s' := by
  have hcnt := ((h.counts w).live hwork).2.2
  rw [hact, if_neg (by decide)] at hcnt
  refine h.keep (a := { work with state := .done }) hwork hlist hwor hcr hdest ?_ ?_ ?_ ?_ ?_
  · intro v _
    rw [hexec]
  · rw [hexec, hcnt]
    rfl
  · rw [htas]
    exact .phase htsk (h.tid S _ htsk) (.inr rfl) (.inl rfl)
  · rcases h.owned w work hwork with ⟨hnone, _⟩ | ⟨hnone, phase, hownr, hcas⟩
    · exact absurd hnone hwts
    · rcases hcas with ⟨hp, hne, _⟩ | ⟨hp, hsame, _⟩ | ⟨_, hdone⟩
      · refine .inr ⟨hnone, phase, ?_, .inl ⟨hp, hne, fun hcase => by cases hcase⟩⟩
        rw [htas]
        exact (update_of_ne hne _ _).trans hownr
      · rw [hsame, htsk] at hownr
        cases hownr
        cases hp
      · rw [hact] at hdone
        cases hdone
  · intro tid task hoth hab
    rw [htas] at hoth
    rcases update_cases hoth with ⟨rfl, ⟨⟩⟩ | ⟨hne, hoth⟩
    · cases hab
    · rcases h.about hwork hoth hab with ⟨hsame, hserv⟩ | ⟨hS', _⟩
      · unfold Relies
        cases hph : task.phase with
        | idle | died | cancelled _ => trivial
        | serves v =>
          rw [hph] at hserv hab
          cases hab
          exact absurd rfl hserv
        | submits v | executes v | holds v =>
          rw [hph] at hab
          cases hab
          exact ⟨{ work with state := .done }, by rw [hwor, update_self], hsame.symm⟩
      · exact absurd hS' hne

lemma Inv.alone (h : Inv S s) {w tid : ℕ} {work : Work} {task : Task} (hwork : s.works w = some work)
    (hnone : work.tid = noTask) (htsk : s.tasks tid = some task) (hab : task.phase.about = some w) : tid = S := by
  rcases h.about hwork htsk hab with ⟨hsame, _⟩ | ⟨hS, _⟩
  · exact absurd (hsame.trans hnone) (h.tid tid task htsk)
  · exact hS

lemma Good.finish (h : Good S s) {generation w : ℕ} (htsk : s.tasks S = some ⟨generation, .serves w⟩) :
    Good S (s.serviceFinish S w) := by
  obtain ⟨work, hwork, hact⟩ := h.inv.serves htsk
  have hset := setWork_eq hwork fun work => { work with state := .done }
  have hph := setPhase_tasks (s := s.setWork w fun work => { work with state := .done })
    (t := ⟨generation, .serves w⟩) (by rw [hset]; exact htsk) .idle rfl
  unfold State.serviceFinish
  rw [hwork]
  dsimp only
  generalize hs₁ : (s.setWork w fun work => { work with state := .done }).setPhase S .idle = s₁ at hph ⊢
  have hlist₁ : s₁.list = s.list := by rw [← hs₁, setPhase_list, hset]
  have hwor₁ : s₁.works = update s.works w (some { work with state := .done }) := by
    rw [← hs₁, setPhase_works, hset]
  have hcr₁ : s₁.created = s.created := by rw [← hs₁, setPhase_created, hset]
  have hexec₁ : s₁.executed = s.executed := by rw [← hs₁, setPhase_executed, hset]
  have hdest₁ : s₁.destroyed = s.destroyed := by rw [← hs₁, setPhase_destroyed, hset]
  have hflt₁ : s₁.fault = false := by rw [← hs₁, setPhase_fault, hset]; exact h.fault
  have htas₁ : s₁.tasks = update s.tasks S (some ⟨generation, .idle⟩) := by rw [hph, hset]
  have hcntd₁ : Counted none s₁ := by
    rw [← hs₁, hset]
    exact h.counted.setWork (a := { work with state := .done }) hwork rfl rfl rfl rfl rfl rfl rfl
  have hSnone : S ≠ noTask := h.inv.tid S _ htsk
  by_cases hnone : work.tid = noTask
  · -- the submitter has ended: the item is released here
    have hget : s₁.getTask work.tid = none := by
      unfold State.getTask
      rw [htas₁, hnone, update_of_ne (Ne.symm hSnone)]
      cases hfnd : s.tasks noTask with
      | none => rfl
      | some task => exact absurd rfl (h.inv.tid noTask task hfnd)
    rw [hget]
    have hmem₁ : ∀ v, v ∈ s₁.list ↔ (s₁.works v).isSome = true := by
      intro v
      rw [hlist₁, h.inv.mem v, hwor₁]
      by_cases hv : v = w
      · simp [hv, hwork]
      · simp [hv]
    obtain ⟨hcntd, hflt, hlist, hwor, hcr, htas, hexec, hdest⟩ :=
      hcntd₁.workRelease (w := w) (by rw [hwor₁, update_self]) (hlist₁ ▸ h.inv.nodup) hmem₁
    refine ⟨?_, hcntd, hflt.trans hflt₁⟩
    refine h.inv.remove hwork (hlist.trans (by rw [hlist₁])) ?_ (hcr.trans hcr₁) (hexec.trans hexec₁)
      (hdest.trans (by rw [hdest₁])) ?_ ?_
    · rw [hwor, hwor₁, update_idem]
    · rw [htas, htas₁]
      exact .phase htsk hSnone (.inr rfl) (.inl rfl)
    · intro other task hoth hab
      rw [htas, htas₁] at hoth
      rcases update_cases hoth with ⟨rfl, ⟨⟩⟩ | ⟨hne, hoth⟩
      · cases hab
      · exact hne (h.inv.alone hwork hnone hoth hab)
  · have hget : ∃ waiter, s₁.getTask work.tid = some waiter ∧ waiter.generation = work.generation := by
      rcases h.inv.owned w work hwork with ⟨hcase, _⟩ | ⟨_, phase, hownr, hcas⟩
      · exact absurd hcase hnone
      · by_cases hS : work.tid = S
        · rw [hS, htsk] at hownr
          cases hownr
          refine ⟨⟨work.generation, .idle⟩, ?_, rfl⟩
          unfold State.getTask
          rw [htas₁, hS, update_self]
        · refine ⟨⟨work.generation, phase⟩, ?_, rfl⟩
          unfold State.getTask
          rw [htas₁]
          exact (update_of_ne hS _ _).trans hownr
    obtain ⟨waiter, hwtr, hsame⟩ := hget
    rw [hwtr]
    dsimp only
    rw [if_pos hsame]
    exact ⟨h.inv.finish htsk hwork hact hnone hwor₁ htas₁ hlist₁ hcr₁ hdest₁ hexec₁, hcntd₁,
      hflt₁⟩

lemma Good.finishOwn (h : Good S s) {generation w : ℕ} (htsk : s.tasks S = some ⟨generation, .executes w⟩) :
    Good S ((s.setWork w fun work => { work with state := .done }).setPhase S (.holds w)) := by
  obtain ⟨work, hwork, htid⟩ := h.inv.relies S _ htsk
  have hact : work.state = .active ∧ generation = work.generation := by
    obtain ⟨hgen, ⟨hp, _⟩ | ⟨_, _, hact⟩ | ⟨hp, _⟩⟩ := h.inv.owner hwork htsk htid
    · cases hp
    · exact ⟨hact, hgen⟩
    · cases hp
  have hset := setWork_eq hwork fun work => { work with state := .done }
  have hph := setPhase_tasks (s := s.setWork w fun work => { work with state := .done })
    (t := ⟨generation, .executes w⟩) (by rw [hset]; exact htsk) (.holds w) rfl
  have hcnt := ((h.inv.counts w).live hwork).2.2
  rw [hact.1, if_neg (by decide)] at hcnt
  refine ⟨?_, ?_, ?_⟩
  · refine h.inv.keep (a := { work with state := .done }) hwork (by rw [setPhase_list, hset])
      (by rw [setPhase_works, hset]) (by rw [setPhase_created, hset]) (by rw [setPhase_destroyed, hset]) ?_ ?_ ?_ ?_ ?_
    · intro v _
      rw [setPhase_executed, hset]
    · rw [setPhase_executed, hset]
      exact hcnt
    · rw [hph, hset]
      exact .phase htsk (h.inv.tid S _ htsk) (.inr rfl) (.inr rfl)
    · refine .inr ⟨htid ▸ h.inv.tid S _ htsk, .holds w, ?_, .inr (.inr ⟨rfl, rfl⟩)⟩
      rw [hph, hset]
      dsimp only
      rw [htid, update_self, hact.2]
    · intro other task hoth hab
      rw [hph, hset] at hoth
      rcases update_cases hoth with ⟨rfl, ⟨⟩⟩ | ⟨hne, hoth⟩
      · refine ⟨{ work with state := .done }, ?_, htid⟩
        rw [setPhase_works, hset]
        exact update_self _ _ _
      · rcases h.inv.about hwork hoth hab with ⟨hsame, _⟩ | ⟨hS, _⟩
        · exact absurd (hsame.trans htid) hne
        · exact absurd hS hne
  · rw [hset]
    exact h.counted.setWork (a := { work with state := .done }) hwork rfl rfl rfl rfl rfl rfl rfl
  · rw [setPhase_fault, hset]
    exact h.fault

/-! ### A task ends -/

lemma cancelOne_other {tid generation w v : ℕ} (hv : v ≠ w) : (s.cancelOne tid generation w).works v = s.works v := by
  unfold State.cancelOne
  cases hwork : s.works w with
  | none => rfl
  | some work =>
    dsimp only
    by_cases hmat : work.tid = tid ∧ work.generation = generation
    swap
    · rw [if_neg hmat]
    rw [if_pos hmat, setWork_eq hwork]
    by_cases hst : work.state ≠ .active
    · rw [if_pos hst]
      unfold State.workRelease
      dsimp only
      rw [update_self]
      dsimp only
      rw [storageRelease_works]
      dsimp only
      rw [update_of_ne hv, update_of_ne hv]
    · rw [if_neg hst]
      exact update_of_ne hv _ _

lemma cancelLoop_pass {tid generation : ℕ} {l : List ℕ} (hl : ∀ v ∈ l, ∃ work, s.works v = some work ∧
    ¬(work.tid = tid ∧ work.generation = generation)) : State.cancelLoop tid generation l s = s := by
  induction l with
  | nil => rfl
  | cons v l ih =>
    obtain ⟨work, hwork, hoth⟩ := hl v List.mem_cons_self
    have hone : s.cancelOne tid generation v = s := by
      unfold State.cancelOne
      rw [hwork]
      exact if_neg hoth
    rw [State.cancelLoop, hone]
    exact ih fun u hu => hl u (List.mem_cons_of_mem v hu)

lemma cancelLoop_one {tid generation w : ℕ} {l : List ℕ} (hnd : l.Nodup) (hw : w ∈ l)
    (hl : ∀ v ∈ l, v ≠ w → ∃ work, s.works v = some work ∧ ¬(work.tid = tid ∧ work.generation = generation)) :
    State.cancelLoop tid generation l s = s.cancelOne tid generation w := by
  induction l with
  | nil => cases hw
  | cons v l ih =>
    rw [List.nodup_cons] at hnd
    rw [State.cancelLoop]
    by_cases hv : v = w
    · subst hv
      refine cancelLoop_pass fun u hu => ?_
      have hne : u ≠ v := fun heq => hnd.1 (heq ▸ hu)
      rw [cancelOne_other hne]
      exact hl u (List.mem_cons_of_mem v hu) hne
    · obtain ⟨work, hwork, hoth⟩ := hl v List.mem_cons_self hv
      have hone : s.cancelOne tid generation v = s := by
        unfold State.cancelOne
        rw [hwork]
        exact if_neg hoth
      rw [hone]
      rcases List.mem_cons.mp hw with heq | hw
      · exact absurd heq.symm hv
      · exact ih hnd.2 hw fun u hu => hl u (List.mem_cons_of_mem v hu)

lemma Inv.ownItem (h : Inv S s) {tid v : ℕ} {task : Task} {work : Work} (htsk : s.tasks tid = some task)
    (hwork : s.works v = some work) (hmat : work.tid = tid ∧ work.generation = task.generation) :
    task.phase.about = some v := by
  rcases (h.owner hwork htsk hmat.1).2 with ⟨hp, _⟩ | ⟨hp, _⟩ | ⟨hp, _⟩ <;> rw [hp] <;> rfl

lemma Good.dieWith (h : Good S s) {tid w : ℕ} {task : Task} {new : Option Task} (htid : tid ≠ S)
    (htsk : s.tasks tid = some task) (hab : task.phase.about = some w)
    (hnew : ∀ task, new = some task → task.phase.about = none) :
    Good S { s.usbCancelTask tid task.generation with
      tasks := update (s.usbCancelTask tid task.generation).tasks tid new } := by
  have hnone := h.inv.tid tid task htsk
  -- the task submitted the item
  have hitem : ∃ work, s.works w = some work ∧ work.tid = tid := by
    have hrely := h.inv.relies tid task htsk
    unfold Relies at hrely
    cases hph : task.phase with
    | idle | died | cancelled _ =>
      rw [hph] at hab
      cases hab
    | serves v =>
      rw [hph] at hrely
      exact absurd hrely.1 htid
    | submits v | executes v | holds v =>
      rw [hph] at hrely hab
      cases hab
      exact hrely
  obtain ⟨work, hwork, hown⟩ := hitem
  obtain ⟨hgen, hcas⟩ := h.inv.owner hwork htsk hown
  have hcanc : s.usbCancelTask tid task.generation = s.cancelOne tid task.generation w := by
    refine cancelLoop_one h.inv.nodup ((h.inv.mem w).mpr (by rw [hwork]; rfl)) ?_
    intro v hv hne
    obtain ⟨other, hoth⟩ := Option.isSome_iff_exists.mp ((h.inv.mem v).mp hv)
    refine ⟨other, hoth, fun hmat => hne ?_⟩
    have hsame := h.inv.ownItem htsk hoth hmat
    rw [hab] at hsame
    exact (Option.some.inj hsame).symm
  have htouc : Touches w s.tasks (update s.tasks tid new) := by
    refine Touches.update ?_ ?_
    · intro other hsame
      rw [htsk] at hsame
      cases hsame
      exact .inr hab
    · intro other hsame
      exact ⟨hnone, .inl (hnew other hsame)⟩
  have hset := setWork_eq hwork fun work => { work with tid := noTask }
  have hcntd₁ : Counted none (s.setWork w fun work => { work with tid := noTask }) := by
    rw [hset]
    exact h.counted.setWork (a := { work with tid := noTask }) hwork rfl rfl rfl rfl rfl rfl rfl
  rw [hcanc]
  unfold State.cancelOne
  rw [hwork]
  dsimp only
  rw [if_pos ⟨hown, hgen.symm⟩]
  by_cases hst : work.state ≠ .active
  · -- queued or done: nobody else is concerned with it
    rw [if_pos hst]
    have hmem₁ : ∀ v, v ∈ (s.setWork w fun work => { work with tid := noTask }).list ↔
        ((s.setWork w fun work => { work with tid := noTask }).works v).isSome = true := by
      intro v
      rw [hset]
      dsimp only
      rw [h.inv.mem v]
      by_cases hv : v = w
      · simp [hv, hwork]
      · simp [hv]
    obtain ⟨hcntd, hflt, hlist, hwor, hcr, htas, hexec, hdest⟩ :=
      hcntd₁.workRelease (w := w) (a := { work with tid := noTask })
        (by rw [hset]; exact update_self _ _ _) (by rw [hset]; exact h.inv.nodup) hmem₁
    generalize (s.setWork w fun work => { work with tid := noTask }).workRelease w = s₂ at *
    rw [hset] at hflt hlist hwor hcr htas hexec hdest
    refine ⟨?_, hcntd.tasks _, hflt.trans h.fault⟩
    refine h.inv.remove hwork hlist ?_ hcr hexec hdest ?_ ?_
    · dsimp only at hwor ⊢
      rw [hwor, update_idem]
    · dsimp only
      rw [htas]
      exact htouc
    · intro other task' hoth hab'
      dsimp only at hoth
      rw [htas] at hoth
      rcases update_cases hoth with ⟨-, hoth⟩ | ⟨hne, hoth⟩
      · rw [hnew task' hoth] at hab'
        cases hab'
      · rcases h.inv.about hwork hoth hab' with ⟨hsame, _⟩ | ⟨_, _, hact⟩
        · exact hne (hsame.trans hown)
        · exact hst hact
  · have hact := not_not.mp hst
    rw [if_neg hst, hset]
    have hser : Serving S s w := by
      rcases hcas with ⟨_, _, hserv⟩ | ⟨_, hsame, _⟩ | ⟨_, hdone⟩
      · exact hserv hact
      · exact absurd (hown ▸ hsame) htid
      · rw [hact] at hdone
        cases hdone
    have hcnt := ((h.inv.counts w).live hwork).2.2
    refine ⟨?_, ?_, h.fault⟩
    · refine h.inv.keep (a := { work with tid := noTask }) hwork rfl rfl rfl rfl (fun _ _ => rfl) hcnt htouc ?_ ?_
      · obtain ⟨generation, hS⟩ := hser
        exact .inl ⟨rfl, hact, generation, (update_of_ne (Ne.symm htid) _ _).trans hS⟩
      · intro other task' hoth hab'
        rcases update_cases hoth with ⟨-, hoth⟩ | ⟨hne, hoth⟩
        · rw [hnew task' hoth] at hab'
          cases hab'
        · rcases h.inv.about hwork hoth hab' with ⟨hsame, _⟩ | ⟨hS, hserv, _⟩
          · exact absurd (hsame.trans hown) hne
          · unfold Relies
            rw [hserv]
            exact ⟨hS, { work with tid := noTask }, update_self _ _ _, hact⟩
    · exact h.counted.setWork (a := { work with tid := noTask }) hwork rfl rfl rfl rfl rfl rfl rfl

lemma Good.dieWithout (h : Good S s) {tid : ℕ} {task : Task} {new : Option Task} (htsk : s.tasks tid = some task)
    (hab : task.phase.about = none) (hnew : ∀ task, new = some task → task.phase.about = none) :
    Good S { s.usbCancelTask tid task.generation with
      tasks := update (s.usbCancelTask tid task.generation).tasks tid new } := by
  have hcanc : s.usbCancelTask tid task.generation = s := by
    refine cancelLoop_pass fun v hv => ?_
    obtain ⟨work, hwork⟩ := Option.isSome_iff_exists.mp ((h.inv.mem v).mp hv)
    refine ⟨work, hwork, fun hmat => ?_⟩
    have hsame := h.inv.ownItem htsk hwork hmat
    rw [hab] at hsame
    cases hsame
  rw [hcanc]
  refine ⟨h.inv.tasks ?_ ?_, h.counted.tasks _, h.fault⟩
  · intro other hoth
    rw [htsk] at hoth
    exact Option.some.inj hoth ▸ hab
  · intro other hoth
    exact ⟨h.inv.tid tid task htsk, hnew other hoth⟩

/-- **`usb_cancel_task`** of a task that has nothing to do with its item any more -/
lemma Good.cancel (h : Good S s) {tid : ℕ} {task : Task} {phase : Phase} (htid : tid ≠ S) (htsk : s.tasks tid = some task)
    (hph : phase.about = none) :
    Good S { s.usbCancelTask tid task.generation with
      tasks := update (s.usbCancelTask tid task.generation).tasks tid (some { task with phase := phase }) } := by
  have hnew : ∀ new, some { task with phase := phase } = some new → new.phase.about = none := by
    rintro _ ⟨⟩
    exact hph
  cases hab : task.phase.about with
  | none => exact h.dieWithout htsk hab hnew
  | some w => exact h.dieWith htid htsk hab hnew

/-! ### A new item -/

lemma Inv.unborn (h : Inv S s) : s.works s.created = none ∧ s.executed s.created = 0 ∧ s.destroyed s.created = 0 ∧
    ∀ tid task, s.tasks tid = some task → task.phase.about ≠ some s.created := by
  have hnone : s.works s.created = none := by
    cases hwork : s.works s.created with
    | none => rfl
    | some work => exact absurd ((h.counts _).live hwork).1 (Nat.lt_irrefl _)
  obtain ⟨hdest, _, hexec⟩ := (h.counts s.created).gone hnone
  rw [if_neg (Nat.lt_irrefl _)] at hdest
  refine ⟨hnone, hexec (Nat.le_refl _), hdest, ?_⟩
  intro tid task htsk hab
  have hrely := h.relies tid task htsk
  unfold Relies at hrely
  cases hph : task.phase with
  | idle | died | cancelled _ =>
    rw [hph] at hab
    cases hab
  | submits v | executes v | holds v =>
    rw [hph] at hrely hab
    cases hab
    obtain ⟨work, hwork, _⟩ := hrely
    rw [hnone] at hwork
    cases hwork
  | serves v =>
    rw [hph] at hrely hab
    cases hab
    obtain ⟨_, work, hwork, _⟩ := hrely
    rw [hnone] at hwork
    cases hwork

/-- **An item is submitted** by a task that had none. -/
theorem Inv.create (h : Inv S s) {tid generation : ℕ} {a : Work} {phase : Phase}
    (htsk : s.tasks tid = some ⟨generation, .idle⟩) (hnew : a.tid = tid ∧ a.generation = generation)
    (hph : (phase = .submits s.created ∧ tid ≠ S ∧ a.state = .queued) ∨
      (phase = .executes s.created ∧ tid = S ∧ a.state = .active))
    (hlist : s'.list = s.list ++ [s.created]) (hwor : s'.works = update s.works s.created (some a))
    (hcr : s'.created = s.created + 1) (hdest : s'.destroyed = s.destroyed)
    (hexec : ∀ v, v ≠ s.created → s'.executed v = s.executed v)
    (hself : s'.executed s.created = if a.state = .queued then 0 else 1)
    (htas : s'.tasks = update s.tasks tid (some ⟨generation, phase⟩)) : Inv S s' := by
  obtain ⟨hnone, _, hzero, hnob⟩ := h.unborn
  have hab : phase.about = some s.created := by
    rcases hph with ⟨hp, _⟩ | ⟨hp, _⟩ <;> rw [hp] <;> rfl
  have hwork : s'.works s.created = some a := by rw [hwor, update_self]
  have hown : s'.tasks tid = some ⟨generation, phase⟩ := by rw [htas, update_self]
  have habs : s.created ∉ s.list := by
    rw [h.mem, hnone]
    exact Bool.false_ne_true
  refine h.change (w := s.created) ?_ ?_ ?_ ?_ ?_ ?_ ?_ ?_
  · rw [hlist]
    refine List.nodup_append.mpr ⟨h.nodup, List.pairwise_singleton _ _, ?_⟩
    rintro v hv u hu rfl
    exact habs (List.mem_singleton.mp hu ▸ hv)
  · intro v
    rw [hlist, hwor, List.mem_append, List.mem_singleton, h.mem v]
    by_cases hv : v = s.created
    · simp [hv]
    · simp [hv]
  · intro v hv
    rw [hwor]
    exact update_of_ne hv _ _
  · intro v hv hcnts
    unfold Counts at hcnts ⊢
    rw [hwor, update_of_ne hv, hcr, hdest, hexec v hv]
    cases hold : s.works v with
    | none =>
      rw [hold] at hcnts
      dsimp only at hcnts ⊢
      obtain ⟨hd, he, hlate⟩ := hcnts
      refine ⟨?_, he, fun hle => hlate (by omega)⟩
      rw [hd]
      split_ifs <;> omega
    | some work =>
      rw [hold] at hcnts
      dsimp only at hcnts ⊢
      exact ⟨by omega, hcnts.2⟩
  · exact Counts.of_live hwork (by omega) (by rw [hdest, hzero]) hself
  · intro work hsame
    rw [hwork] at hsame
    cases hsame
    refine .inr ⟨hnew.1 ▸ h.tid tid _ htsk, phase, by rw [hnew.1, hnew.2, hown], ?_⟩
    rcases hph with ⟨hp, hne, hqud⟩ | ⟨hp, hsame, hact⟩
    · refine .inl ⟨hp, hnew.1 ▸ hne, fun hact => ?_⟩
      rw [hqud] at hact
      cases hact
    · exact .inr (.inl ⟨hp, hnew.1.trans hsame, hact⟩)
  · rw [htas]
    exact .phase htsk (h.tid tid _ htsk) (.inl rfl) (.inr hab)
  · intro other task hoth hab'
    rw [htas] at hoth
    rcases update_cases hoth with ⟨rfl, ⟨⟩⟩ | ⟨-, hoth⟩
    · unfold Relies
      rcases hph with ⟨rfl, _⟩ | ⟨rfl, _⟩ <;> exact ⟨a, hwork, hnew.1⟩
    · exact absurd hab' (hnob other task hoth)

lemma Counted.attachedReference (hc : Counted none s) {storage : ℕ} (hatt : s.attached storage = true) :
    s.references storage = some (users s none storage) := by
  have hrefs := hc.references storage
  rwa [if_pos ⟨hc.known storage hatt, by unfold users; rw [hatt, Bool.toNat_true]; omega⟩] at hrefs

lemma Counted.create (hc : Counted none s) (hinv : Inv S s) {storage : ℕ} {a : Work}
    (hatt : s.attached storage = true) (hstor : a.storage = storage)
    (hlist : s'.list = s.list ++ [s.created]) (hwor : s'.works = update s.works s.created (some a))
    (hatt' : s'.attached = s.attached) (hcr : s'.storagesCreated = s.storagesCreated)
    (hrefs : s'.references =
      update s.references storage ((s.references storage).map (· + 1))) (hfrd : s'.freed = s.freed) :
    Counted none s' := by
  have hkn := hc.known storage hatt
  have hold := hc.attachedReference hatt
  have hcnt : ∀ other, (s.list.countP fun w => (s'.works w).any fun work => work.storage = other) =
      s.list.countP fun w => (s.works w).any fun work => work.storage = other := by
    intro other
    refine List.countP_congr fun v hv => ?_
    have hne : v ≠ s.created := by
      rintro rfl
      rw [hinv.mem, hinv.unborn.1] at hv
      cases hv
    rw [hwor, update_of_ne hne]
  have hus : ∀ other, users s' none other = users s none other + if other = storage then 1 else 0 := by
    intro other
    unfold users
    rw [hlist, List.countP_append, hcnt, hatt', List.countP_singleton, hwor, update_self]
    by_cases hsame : other = storage
    · simp [hsame, hstor]
      omega
    · have hne : ¬a.storage = other := fun heq => hsame (heq.symm.trans hstor)
      simp [hsame, hne]
  have hpos : users s none storage ≠ 0 := by
    unfold users
    rw [hatt, Bool.toNat_true]
    omega
  refine ⟨?_, ?_, ?_, ?_⟩
  · rw [hatt', hcr]
    exact hc.known
  · intro v work hwork
    rw [hcr]
    by_cases hv : v = s.created
    · rw [hv, hwor, update_self] at hwork
      cases hwork
      exact hstor ▸ hkn
    · rw [hwor, update_of_ne hv] at hwork
      exact hc.refers v work hwork
  · intro other
    rw [hrefs, hcr, hus]
    by_cases hsame : other = storage
    · rw [hsame, update_self, hold, if_pos rfl, if_pos ⟨hkn, Nat.succ_ne_zero _⟩]
      rfl
    · rw [update_of_ne hsame, if_neg hsame, Nat.add_zero]
      exact hc.references other
  · intro other
    rw [hfrd, hcr, hus]
    have hoth := hc.freed other
    by_cases hsame : other = storage
    · rw [hsame] at hoth ⊢
      rw [if_neg fun hcase => hpos hcase.2] at hoth
      rw [hoth, if_pos rfl, if_neg fun hcase => Nat.succ_ne_zero _ hcase.2]
    · rw [if_neg hsame, Nat.add_zero]
      exact hoth

lemma Good.submit (h : Good S s) {tid generation storage : ℕ} (htsk : s.tasks tid = some ⟨generation, .idle⟩)
    (hatt : s.attached storage = true) : Good S (s.submit S tid generation storage) := by
  obtain ⟨hnone, hexec, _, _⟩ := h.inv.unborn
  have hold := h.counted.attachedReference hatt
  have hflt : (s.fault || (s.references storage).isNone || s.list.any fun v => (s.works v).isNone) = false := by
    rw [h.fault, h.inv.walk, hold]
    rfl
  unfold State.submit
  dsimp only
  by_cases hS : tid = S
  · rw [if_pos hS]
    -- the service task executes the item itself
    rw [setWork_eq (a := ⟨tid, generation, .queued, storage⟩) (update_self _ _ _)]
    dsimp only
    rw [update_idem]
    have huse : ∀ t : State, t.works s.created = some ⟨tid, generation, .active, storage⟩ →
        t.references storage = some (users s none storage + 1) → t.use s.created = t := fun t ht hn => use_eq ht hn
    rw [huse _ (update_self _ _ _) (by
      dsimp only
      rw [update_self, hold]
      rfl)]
    have hph := fun t : State => fun ht : t.tasks tid = some ⟨generation, .idle⟩ =>
      setPhase_tasks ht (.executes s.created) rfl
    refine ⟨?_, ?_, hflt⟩
    · refine h.inv.create (a := ⟨tid, generation, .active, storage⟩) htsk ⟨rfl, rfl⟩ (.inr ⟨rfl, hS, rfl⟩) rfl rfl rfl rfl
        ?_ ?_ (hph _ htsk)
      · intro v hv
        exact update_of_ne hv _ _
      · show State.count s.executed s.created s.created = _
        rw [State.count, update_self, hexec]
        rfl
    · exact h.counted.create h.inv (a := ⟨tid, generation, .active, storage⟩) hatt rfl rfl rfl rfl rfl rfl rfl
  · rw [if_neg hS]
    refine ⟨?_, ?_, hflt⟩
    · refine h.inv.create (a := ⟨tid, generation, .queued, storage⟩) htsk ⟨rfl, rfl⟩ (.inl ⟨rfl, hS, rfl⟩) rfl rfl rfl rfl
        (fun _ _ => rfl) hexec ?_
      exact setPhase_tasks (t := ⟨generation, .idle⟩) htsk (.submits s.created) rfl
    · exact h.counted.create h.inv (a := ⟨tid, generation, .queued, storage⟩) hatt rfl rfl rfl rfl rfl rfl rfl

/-! ### Storages -/

lemma Counted.attach (hc : Counted none s) : Counted none s.attach := by
  have hfr : s.attached s.storagesCreated = false := by
    cases hatt : s.attached s.storagesCreated with
    | false => rfl
    | true => exact absurd (hc.known _ hatt) (Nat.lt_irrefl _)
  have hnob : (s.list.countP fun w => (s.works w).any fun work => work.storage = s.storagesCreated) = 0 := by
    rw [List.countP_eq_zero]
    intro w _ hw
    cases hwork : s.works w with
    | none =>
      rw [hwork] at hw
      cases hw
    | some work =>
      rw [hwork] at hw
      have hlt := hc.refers w work hwork
      exact absurd (of_decide_eq_true hw) (by omega)
  have hself : users s none s.storagesCreated = 0 := by
    unfold users
    rw [hfr, hnob]
    rfl
  have hus : ∀ other, users s.attach none other = if other = s.storagesCreated then 1 else users s none other := by
    intro other
    unfold users State.attach
    dsimp only
    by_cases hsame : other = s.storagesCreated
    · rw [hsame, update_self, hnob]
      simp
    · rw [update_of_ne hsame, if_neg hsame]
  refine ⟨?_, ?_, ?_, ?_⟩
  · intro other hatt
    unfold State.attach at hatt ⊢
    dsimp only at hatt ⊢
    by_cases hsame : other = s.storagesCreated
    · omega
    · rw [update_of_ne hsame] at hatt
      have := hc.known other hatt
      omega
  · intro w work hwork
    have := hc.refers w work hwork
    show work.storage < s.storagesCreated + 1
    omega
  · intro other
    rw [hus]
    have hcr : s.attach.storagesCreated = s.storagesCreated + 1 := rfl
    have hrefs : s.attach.references = update s.references s.storagesCreated (some 1) := rfl
    rw [hcr, hrefs]
    by_cases hsame : other = s.storagesCreated
    · simp [hsame]
    · rw [update_of_ne hsame, if_neg hsame, hc.references]
      by_cases hlt : other < s.storagesCreated
      · simp [hlt, Nat.lt_succ_of_lt hlt]
      · simp [hlt, show ¬other < s.storagesCreated + 1 by omega]
  · intro other
    rw [hus]
    have hcr : s.attach.storagesCreated = s.storagesCreated + 1 := rfl
    have hfrd : s.attach.freed = s.freed := rfl
    rw [hcr, hfrd, hc.freed]
    by_cases hsame : other = s.storagesCreated
    · rw [hsame, if_pos rfl]
      simp
    · rw [if_neg hsame]
      by_cases hlt : other < s.storagesCreated
      · simp [hlt, Nat.lt_succ_of_lt hlt]
      · simp [hlt, show ¬other < s.storagesCreated + 1 by omega]

lemma Good.detach (h : Good S s) {storage : ℕ} (hatt : s.attached storage = true) : Good S (s.detach storage) := by
  have hkn := h.counted.known storage hatt
  have howed : Counted (some storage) { s with attached := update s.attached storage false } := by
    have hus : ∀ other, users { s with attached := update s.attached storage false } (some storage) other =
        users s none other := by
      intro other
      unfold users
      dsimp only
      by_cases hsame : other = storage
      · rw [hsame, update_self, hatt, if_pos rfl, if_neg (by simp), Bool.toNat_true, Bool.toNat_false]
        omega
      · have hne : ¬some storage = some other := fun heq => hsame (Option.some.inj heq).symm
        rw [update_of_ne hsame, if_neg hne, if_neg (by simp)]
    refine ⟨?_, h.counted.refers, fun other => ?_, fun other => ?_⟩
    · intro other hoth
      dsimp only at hoth
      by_cases hsame : other = storage
      · exact hsame ▸ hkn
      · rw [update_of_ne hsame] at hoth
        exact h.counted.known other hoth
    · rw [hus]
      exact h.counted.references other
    · rw [hus]
      exact h.counted.freed other
  have hrel := howed.release hkn
  refine ⟨?_, hrel.1, hrel.2.trans h.fault⟩
  unfold State.detach
  refine ⟨?_, ?_, ?_, ?_, ?_, ?_⟩
  · rw [storageRelease_list]
    exact h.inv.nodup
  · rw [storageRelease_list, storageRelease_works]
    exact h.inv.mem
  · intro w
    have hcnts := h.inv.counts w
    unfold Counts at hcnts ⊢
    rw [storageRelease_works, storageRelease_created, storageRelease_executed, storageRelease_destroyed]
    exact hcnts
  · intro w work hwork
    rw [storageRelease_works] at hwork
    have howd := h.inv.owned w work hwork
    unfold Owned Serving at howd ⊢
    rw [storageRelease_tasks]
    exact howd
  · rw [storageRelease_tasks]
    exact h.inv.tid
  · intro tid task htsk
    rw [storageRelease_tasks] at htsk
    have hrely := h.inv.relies tid task htsk
    unfold Relies at hrely ⊢
    rw [storageRelease_works]
    exact hrely

/-! ## What becomes of a work item -/

/-! ### Runs -/

lemma good_init (hs : Init S s) : Good S s := by
  refine ⟨⟨?_, ?_, ?_, ?_, ?_, ?_⟩, ⟨?_, ?_, ?_, ?_⟩, hs.fault⟩
  · rw [hs.list]
    exact List.nodup_nil
  · intro w
    rw [hs.list, hs.works]
    simp
  · intro w
    unfold Counts
    rw [hs.works, hs.created, hs.destroyed, hs.executed]
    simp
  · intro w work hwork
    rw [hs.works] at hwork
    cases hwork
  · intro tid task htsk
    exact Nat.ne_of_lt (hs.others tid task htsk).1
  · intro tid task htsk
    unfold Relies
    rw [(hs.others tid task htsk).2]
    trivial
  · intro storage hatt
    rw [hs.attached] at hatt
    cases hatt
  · intro w work hwork
    rw [hs.works] at hwork
    cases hwork
  · intro storage
    rw [hs.references, hs.storagesCreated]
    simp
  · intro storage
    rw [hs.freed, hs.storagesCreated]
    simp

lemma Good.serve (h : Good S s) {generation : ℕ} (htsk : s.tasks S = some ⟨generation, .idle⟩) :
    Good S (s.serviceStart S) := by
  unfold State.serviceStart
  dsimp only
  have hflt : (s.fault || s.list.any fun v => (s.works v).isNone) = false := by
    rw [h.fault, h.inv.walk]
    rfl
  rw [hflt]
  cases hfst : s.firstQueued with
  | none =>
    have hsame : { s with fault := false } = s := by rw [← h.fault]
    dsimp only
    rw [hsame]
    exact h
  | some w =>
    have hfnd := List.find?_some hfst
    cases hwork : s.works w with
    | none =>
      rw [hwork] at hfnd
      cases hfnd
    | some work =>
      rw [hwork] at hfnd
      have hqud : work.state = .queued := of_decide_eq_true hfnd
      obtain ⟨n, hn⟩ := h.counted.storage h.inv hwork
      dsimp only
      rw [setWork_eq (s := { s with fault := false }) hwork]
      dsimp only
      have huse : ∀ t : State, t.works w = some { work with state := .active } → t.references = s.references →
          t.use w = t := fun t ht hrefs => use_eq ht (by rw [hrefs]; exact hn)
      rw [huse]
      · refine ⟨?_, ?_, rfl⟩
        · exact h.start htsk hwork hqud rfl (setPhase_tasks (t := ⟨generation, .idle⟩) htsk _ rfl) rfl rfl rfl rfl
        · exact h.counted.setWork (a := { work with state := .active }) hwork rfl rfl rfl rfl rfl rfl rfl
      · exact Function.update_self _ _ _
      · rfl

lemma Good.use (h : Good S s) {w : ℕ} {work : Work} (hwork : s.works w = some work) : Good S (s.use w) := by
  obtain ⟨n, hn⟩ := h.counted.storage h.inv hwork
  rw [use_eq hwork hn]
  exact h

/-- No task runs in its own code that another one finishes, and none is finished twice. -/
def Spares (s : State) : Event → Prop
  | .submit tid _ | .resume tid | .release tid | .kill tid | .exit tid | .exited tid _ =>
    (s.tasks tid).all (fun task => !task.phase.isCancelled) = true
  | _ => True

instance : ∀ s e, Decidable (Spares s e) := fun s e => by
  unfold Spares
  split <;> infer_instance

lemma here_of_not_cancelled {phase : Phase} (h : phase.isCancelled = false) : phase.here = phase := by
  cases phase with
  | cancelled _ => cases h
  | _ => rfl

lemma about_goOn (phase : Phase) : (phase.goOn .idle).about = none := by cases phase <;> rfl

lemma tasks_of_position {tid : ℕ} {phase : Phase}
    (hspare : (s.tasks tid).all (fun task => !task.phase.isCancelled) = true) (h : s.position tid = some phase) :
    ∃ generation, s.tasks tid = some ⟨generation, phase⟩ := by
  obtain ⟨task, htsk, rfl⟩ := Option.map_eq_some_iff.mp h
  rw [htsk, Option.all_some, Bool.not_eq_true'] at hspare
  refine ⟨task.generation, ?_⟩
  rw [here_of_not_cancelled hspare, htsk]

/-- The task is `DIED`, or its slot is free. -/
lemma Good.end (h : Good S s) {tid generation : ℕ} (zombie : Bool) {task : Task} (htsk : s.tasks tid = some task)
    (hab : task.phase.about = none) :
    Good S { s with tasks := update s.tasks tid (ended generation zombie) } := by
  refine ⟨h.inv.tasks (fun other hoth => ?_) fun new hnew => ⟨h.inv.tid tid task htsk, ?_⟩, h.counted.tasks _, h.fault⟩
  · rw [htsk] at hoth
    exact Option.some.inj hoth ▸ hab
  · unfold ended at hnew
    split at hnew
    · cases hnew
      rfl
    · cases hnew

/-- **Every step keeps what holds.** -/
theorem step_good {e : Event} (h : Good S s) (hspare : Spares s e) (hstep : step S s e = some s') : Good S s' := by
  unfold step at hstep
  cases e with
  | spawn tid generation =>
    dsimp only at hstep
    by_cases hfree : s.tasks tid = none ∧ tid < noTask
    · rw [if_pos hfree] at hstep
      cases hstep
      refine ⟨h.inv.tasks ?_ ?_, h.counted.tasks _, h.fault⟩
      · intro task htsk
        rw [hfree.1] at htsk
        cases htsk
      · intro task hnew
        cases hnew
        exact ⟨Nat.ne_of_lt hfree.2, rfl⟩
    · rw [if_neg hfree] at hstep
      cases hstep
  | reap tid =>
    dsimp only at hstep
    split at hstep
    · rename_i generation htsk
      cases hstep
      refine ⟨h.inv.tasks ?_ ?_, h.counted.tasks _, h.fault⟩
      · intro task hsame
        rw [htsk] at hsame
        cases hsame
        rfl
      · intro task hnew
        cases hnew
    · cases hstep
  | attach =>
    cases hstep
    refine ⟨⟨h.inv.nodup, h.inv.mem, h.inv.counts, h.inv.owned, h.inv.tid, h.inv.relies⟩, h.counted.attach, h.fault⟩
  | detach storage =>
    dsimp only at hstep
    by_cases hatt : s.attached storage = true
    · rw [if_pos hatt] at hstep
      cases hstep
      exact h.detach hatt
    · rw [if_neg hatt] at hstep
      cases hstep
  | submit tid storage =>
    dsimp only at hstep
    split at hstep
    · rename_i task htsk
      split at hstep
      · rename_i hcase
        cases hstep
        have hidle : s.position tid = some .idle := by
          unfold State.position
          rw [htsk, Option.map_some, hcase.1]
        obtain ⟨generation, htsk'⟩ := tasks_of_position hspare hidle
        obtain rfl : task = ⟨generation, .idle⟩ := Option.some.inj (htsk.symm.trans htsk')
        exact h.submit htsk hcase.2
      · cases hstep
    · cases hstep
  | resume tid =>
    dsimp only at hstep
    split at hstep
    · rename_i w hpos
      obtain ⟨generation, htsk⟩ := tasks_of_position hspare hpos
      obtain ⟨work, hwork, _⟩ := h.inv.relies tid _ htsk
      rw [hwork] at hstep
      cases hstep
      by_cases hdone : work.state = .done
      · rw [if_pos hdone]
        exact h.resume htsk hwork hdone
      · rw [if_neg hdone]
        exact h
    · cases hstep
  | release tid =>
    dsimp only at hstep
    split at hstep
    · rename_i w hpos
      cases hstep
      obtain ⟨generation, htsk⟩ := tasks_of_position hspare hpos
      exact h.release htsk
    · cases hstep
  | serve =>
    dsimp only at hstep
    split at hstep
    · rename_i generation htsk
      cases hstep
      exact h.serve htsk
    · cases hstep
  | work =>
    dsimp only at hstep
    split at hstep
    · rename_i generation w htsk
      cases hstep
      obtain ⟨work, hwork, _⟩ := h.inv.serves htsk
      exact h.use hwork
    · rename_i generation w htsk
      cases hstep
      obtain ⟨work, hwork, _⟩ := h.inv.relies S _ htsk
      exact h.use hwork
    · cases hstep
  | finish =>
    dsimp only at hstep
    split at hstep
    · rename_i generation w htsk
      cases hstep
      exact h.finish htsk
    · rename_i generation w htsk
      cases hstep
      exact h.finishOwn htsk
    · cases hstep
  | kill tid =>
    dsimp only at hstep
    split at hstep
    · cases hstep
    · rename_i task htsk
      split at hstep
      · cases hstep
      · rename_i hliv
        cases hstep
        exact h.cancel (fun hS => hliv (.inl hS)) htsk rfl
  | exit tid =>
    dsimp only at hstep
    split at hstep
    · cases hstep
    · rename_i task htsk
      split at hstep
      · cases hstep
      · rename_i hliv
        cases hstep
        exact h.cancel (fun hS => hliv (.inl hS)) htsk (about_goOn task.phase)
  | killed tid zombie =>
    dsimp only at hstep
    split at hstep
    · rename_i generation phase htsk
      cases hstep
      exact h.end zombie htsk rfl
    · cases hstep
  | exited tid zombie =>
    dsimp only at hstep
    split at hstep
    · rename_i task htsk
      split at hstep
      · rename_i hcase
        cases hstep
        have hidle : s.position tid = some .idle := by
          unfold State.position
          rw [htsk, Option.map_some, hcase.2]
        obtain ⟨generation, htsk'⟩ := tasks_of_position hspare hidle
        obtain rfl : task = ⟨generation, .idle⟩ := Option.some.inj (htsk.symm.trans htsk')
        exact h.end zombie htsk rfl
      · cases hstep
    · cases hstep

lemma guarded_good (hs : (system S).Guarded Spares s) : Good S s :=
  hs.invariant (P := Good S) (fun _ => good_init) fun _ _ _ h hspare hstep => step_good h hspare hstep

def bootState : State where
  list := []
  works _ := none
  created := 0
  tasks tid := if tid = 2 then some ⟨1, .idle⟩ else none
  references _ := none
  attached _ := false
  storagesCreated := 0
  executed _ := 0
  destroyed _ := 0
  freed _ := 0
  fault := false

lemma bootState_init : Init 2 bootState where
  service := ⟨by decide, 1, rfl⟩
  others := by
    intro tid task htsk
    unfold bootState at htsk
    dsimp only at htsk
    by_cases htid : tid = 2
    · rw [if_pos htid] at htsk
      cases htsk
      exact ⟨htid ▸ by decide, rfl⟩
    · rw [if_neg htid] at htsk
      cases htsk
  list := rfl
  works := rfl
  created := rfl
  references := rfl
  attached := rfl
  storagesCreated := rfl
  executed := rfl
  destroyed := rfl
  freed := rfl
  fault := rfl

/-- A task that is killed while its item is executed and the storage is detached -/
def orphan : List Event :=
  [.spawn 5 7, .attach, .submit 5 0, .serve, .kill 5, .detach 0, .work, .finish, .killed 5 true]

end PlantOS.Usb.Service

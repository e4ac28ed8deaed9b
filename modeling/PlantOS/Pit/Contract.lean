import PlantOS.Pit.Lists

/-!
# What can be relied on of the timers

As long as no expiry time passes the largest 32-bit number and the tick count does not come to the time of the
sentinel, the list holds the running timers, a timer fires once and in time, and `sleep` lasts as long as it is asked
to, if it finds a timer.
-/

namespace PlantOS.Pit

open Lib Lib.Chain TimerCtl
open Function (update update_eq_self update_of_ne update_self)

variable {s s' : State} {l l' : List TimerId} {t u : TimerId} {task : Tid} {c : Call} {d : TimerCtl} {out : List Expiry} {n : ℕ}

/-! ### What is promised -/

/-- **The contract.** The list has the running timers and the sentinel, each once; the loops over it end; a timer that
was armed fires once, at its tick; `sleep` of a task that nothing else wakes lasts at least as long as it was asked
to. -/
structure Sound (s : State) : Prop where
  terminates : s.fault = none
  list : ∃ l, IsChain s.ctl.link s.ctl.t0 (l ++ [sentinel]) ∧ (l ++ [sentinel]).Nodup ∧
    ∀ t, t ∈ l ++ [sentinel] ↔ (s.ctl.timers0 t).flags = .flagsUsing
  fires : ∀ t a, s.armed t = some a → 0 < a.timeout →
    a.fired = if a.start + a.timeout ≤ s.ticks then [a.start + a.timeout] else []
  stray : s.stray = []
  sleeps : ∀ r ∈ s.returned, r.disturbed = false → min ((r.ms + 9) / 10) uintMax ≤ r.duration

/-- When a step keeps the contract: no expiry time is beyond the 32-bit numbers, the count does not come to the time
of the sentinel, and there is a timer for a call of `sleep`. -/
def InTime (s : State) : Event → Prop
  | .settime (some _) timeout => s.ctl.count + timeout ≤ uintMax
  | .interrupt cpu => cpu = 0 → s.ctl.count + 1 < uintMax
  | .sleep task ms _ _ => sleepTicks ms = 0 ∨ task = nullTid ∨ ∃ t, (s.ctl.timers0 t).flags = .unused
  | .sleepArm task => ∀ c ∈ s.calls task, s.ctl.count + sleepTicks c.ms ≤ uintMax
  | _ => True

instance (s : State) (e : Event) : Decidable (InTime s e) := by
  unfold InTime
  split <;> infer_instance

/-! ### The invariant -/

/-- The timers `l` are running, and the others have fired if they were armed. -/
structure Timed (s : State) (l : List TimerId) : Prop where
  listed : Listed s.ctl l
  count : s.ctl.count = s.ticks
  pending : ∀ t ∈ l, ∃ a, s.armed t = some a ∧ a.fired = [] ∧ s.ctl.timeout t = a.start + a.timeout ∧
    (0 < a.timeout → s.ticks < a.start + a.timeout)
  done : ∀ t, t ∉ l → ∀ a, s.armed t = some a → 0 < a.timeout →
    a.fired = [a.start + a.timeout] ∧ a.start + a.timeout ≤ s.ticks

def Call.Awake (c : Call) : Prop := c.ready = true ∨ ∃ t, c.stage = .woken t

/-- A call of `sleep` has its timer to itself, and is woken by it. -/
structure CallOk (s : State) (task : Tid) (c : Call) : Prop where
  positive : 0 < sleepTicks c.ms
  start : c.start ≤ s.ticks
  spins : ∀ n, c.stage = .spinning n → n = c.start
  held : ∀ t, c.stage.timer = some t → s.sleeper t = some task ∧ t ≠ sentinel ∧ (s.ctl.timers0 t).waiter = some task ∧
    (s.ctl.timers0 t).flags ≠ .unused
  fresh : ∀ t, c.stage = .allocated t → s.armed t = none
  begun : ∀ t, c.stage.timer = some t → c.stage ≠ .allocated t →
    ∃ a, s.armed t = some a ∧ c.start ≤ a.start ∧ a.timeout = sleepTicks c.ms
  awake : ∀ t, c.stage.timer = some t → c.disturbed = false → c.Awake → ∃ a, s.armed t = some a ∧ a.fired ≠ []

/-- **The invariant.** -/
structure Consistent (s : State) : Prop where
  fault : s.fault = none
  timed : ∃ l, Timed s l
  stray : s.stray = []
  calls : ∀ task c, s.calls task = some c → CallOk s task c
  sleeper : ∀ t task, s.sleeper t = some task → ∃ c, s.calls task = some c ∧ c.stage.timer = some t
  returned : ∀ r ∈ s.returned, r.disturbed = false → min ((r.ms + 9) / 10) uintMax ≤ r.duration

lemma sleepTicks_eq (ms : ℕ) : sleepTicks ms = min ((ms + 9) / 10) uintMax := by
  unfold sleepTicks
  dsimp only
  split_ifs <;> simp only [uintMax] at * <;> omega

/-- **The invariant gives the contract.** -/
theorem Consistent.sound (h : Consistent s) : Sound s := by
  obtain ⟨l, hl⟩ := h.timed
  refine ⟨h.fault, ⟨l, hl.listed.chain, hl.listed.nodup, fun t => (hl.listed.running t).symm⟩, fun t a ha hpos => ?_, h.stray,
    h.returned⟩
  by_cases ht : t ∈ l
  · obtain ⟨b, hb, hfir, -, hlat⟩ := hl.pending t ht
    cases ha.symm.trans hb
    rw [hfir, if_neg (Nat.not_le.mpr (hlat hpos))]
  · obtain ⟨hfir, hle⟩ := hl.done t ht a ha hpos
    rw [hfir, if_pos hle]

/-! ### One timer -/

/-- **One timer is changed**: it is not running and not armed, or it has just been armed. -/
lemma Timed.change (h : Timed s l) (hl : Listed d l') (hfrm : Frame t s.ctl d) (hmem : ∀ u, u ≠ t → (u ∈ l' ↔ u ∈ l))
    {a : Option Arming} (ht : t ∉ l' ∧ a = none ∨ t ∈ l' ∧ ∃ n, a = some ⟨s.ticks, n, []⟩ ∧ d.timeout t = s.ctl.count + n) :
    Timed ({ s with ctl := d }.arm t a) l' := by
  refine ⟨hl, hfrm.count.trans h.count, fun u hu => ?_, fun u hu b hb hpos => ?_⟩
  · by_cases hut : u = t
    · subst hut
      rcases ht with ⟨hnot, -⟩ | ⟨-, n, rfl, htime⟩
      · exact absurd hu hnot
      · refine ⟨_, update_self .., rfl, by rw [← h.count]; exact htime, fun hpos => ?_⟩
        show s.ticks < s.ticks + n
        dsimp only at hpos
        omega
    · obtain ⟨b, hb, hfir, htime, hlat⟩ := h.pending u ((hmem u hut).mp hu)
      exact ⟨b, (update_of_ne hut ..).trans hb, hfir, (hfrm.timeout u hut).trans htime, hlat⟩
  · have hb : update s.armed t a u = some b := hb
    by_cases hut : u = t
    · subst hut
      rw [update_self] at hb
      rcases ht with ⟨-, rfl⟩ | ⟨hin, -⟩
      · cases hb
      · exact absurd hin hu
    · rw [update_of_ne hut] at hb
      exact h.done u (fun hin => hu ((hmem u hut).mpr hin)) b hb hpos

lemma Timed.keep (h : Timed s l) (hl : Listed d l) (hcnt : d.count = s.ctl.count) (htime : ∀ u, d.timeout u = s.ctl.timeout u) :
    Timed { s with ctl := d } l := by
  refine ⟨hl, hcnt.trans h.count, fun u hu => ?_, h.done⟩
  rw [show ({ s with ctl := d } : State).ctl.timeout u = s.ctl.timeout u from htime u]
  exact h.pending u hu

lemma Listed.relabel (h : Listed d l) (ht : t ≠ Pit.sentinel) {v : Timer} (hnext : v.next = (d.timers0 t).next)
    (htime : v.timeout = (d.timers0 t).timeout) (hfl : v.flags = (d.timers0 t).flags) :
    Listed (d.set t v) l ∧ ∀ u, (d.set t v).timeout u = d.timeout u := by
  have htim : ∀ u, (d.set t v).timeout u = d.timeout u := by
    intro u
    by_cases hu : u = t
    · subst hu
      simpa [TimerCtl.timeout] using htime
    · simp [TimerCtl.timeout, set_of_ne _ _ hu]
  have hlink : (d.set t v).link = d.link := by
    rw [set_link, hnext]
    exact update_eq_self ..
  refine ⟨⟨by rw [hlink]; exact h.chain, fun u => ?_, ?_, fun u hu => ?_, ?_, ?_, h.count⟩, htim⟩
  · rw [← h.running]
    by_cases hu : u = t
    · subst hu
      rw [set_self, hfl]
    · rw [set_of_ne _ _ hu]
  · exact h.sorted.imp fun {a b} hab => by rwa [htim, htim]
  · rw [htim]
    exact h.ahead u hu
  · rw [htim]
    exact h.sentinel
  · rw [set_of_ne _ _ ht.symm]
    exact h.waiter

/-! ### Calls that do not see the step -/

lemma CallOk.congr (h : CallOk s task c) (htks : s.ticks ≤ s'.ticks)
    (hheld : ∀ t, s.sleeper t = some task → s'.sleeper t = some task ∧ s'.armed t = s.armed t ∧
      (s'.ctl.timers0 t).waiter = (s.ctl.timers0 t).waiter ∧
      ((s.ctl.timers0 t).flags ≠ .unused → (s'.ctl.timers0 t).flags ≠ .unused)) : CallOk s' task c := by
  refine ⟨h.positive, h.start.trans htks, h.spins, fun t ht => ?_, fun t ht => ?_, fun t ht hne => ?_,
    fun t ht hd hawak => ?_⟩
  · obtain ⟨hslp, hne', hwtr, hfl⟩ := h.held t ht
    obtain ⟨h1, h2, h3, h4⟩ := hheld t hslp
    exact ⟨h1, hne', h3.trans hwtr, h4 hfl⟩
  · rw [(hheld t (h.held t (by rw [ht]; rfl)).1).2.1]
    exact h.fresh t ht
  · rw [(hheld t (h.held t ht).1).2.1]
    exact h.begun t ht hne
  · rw [(hheld t (h.held t ht).1).2.1]
    exact h.awake t ht hd hawak

lemma CallOk.frame (h : CallOk s task c) (hfrm : Frame t s.ctl d) (ht : s.sleeper t ≠ some task) (a : Option Arming) :
    CallOk ({ s with ctl := d }.arm t a) task c := by
  refine h.congr (le_refl _) fun u hu => ?_
  have hut : u ≠ t := fun heq => ht (heq ▸ hu)
  exact ⟨hu, update_of_ne hut .., hfrm.waiter u hut, fun hf => (hfrm.flags u hut).symm ▸ hf⟩

lemma Consistent.onTimer (h : Consistent s) (ht : s.sleeper t = none) (hfrm : Frame t s.ctl d) {a : Option Arming}
    (htmd : ∃ l, Timed ({ s with ctl := d }.arm t a) l) : Consistent ({ s with ctl := d }.arm t a) := by
  refine ⟨h.fault, htmd, h.stray, fun task c hc => ?_, h.sleeper, h.returned⟩
  exact (h.calls task c hc).frame hfrm (by rw [ht]; simp) a

lemma Consistent.sleeping (h : Consistent s) (hc : s.calls task = none) (t : TimerId) : s.sleeper t ≠ some task := by
  intro ht
  obtain ⟨c, hcall, -⟩ := h.sleeper t task ht
  rw [hc] at hcall
  cases hcall

lemma Consistent.alloc (h : Consistent s) (hs : step s .alloc = some s') : Consistent s' := by
  obtain ⟨l, hl⟩ := h.timed
  obtain ⟨halc, hcnt, htime, hsome, -, hoth⟩ := hl.listed.alloc
  rw [step, if_neg (by simp [h.fault])] at hs
  generalize timerAlloc s.ctl = w at halc hcnt htime hsome hoth hs
  obtain ⟨_ | t, d⟩ := w
  · cases hs
    refine ⟨h.fault, ⟨l, hl.keep halc hcnt htime⟩, h.stray, fun task c hc => ?_, h.sleeper, h.returned⟩
    refine (h.calls task c hc).congr (le_refl _) fun t ht => ?_
    have ht0 := hoth t (by simp)
    exact ⟨ht, rfl, congrArg Timer.waiter ht0, fun hf => by rw [show d.timers0 t = _ from ht0]; exact hf⟩
  · cases hs
    obtain ⟨hunus, hfl⟩ := hsome t rfl
    have hfree : s.sleeper t = none := by
      by_contra hne
      obtain ⟨task, htsk⟩ := Option.ne_none_iff_exists'.mp hne
      obtain ⟨c, hc, htmr⟩ := h.sleeper t task htsk
      exact ((h.calls task c hc).held t htmr).2.2.2 hunus
    have hnot : t ∉ l := by
      intro hmem
      have := (hl.listed.running t).mpr (List.mem_append_left _ hmem)
      rw [hunus] at this
      cases this
    have hfrm : Frame t s.ctl d :=
      ⟨hcnt, fun u _ => htime u, fun u hu => congrArg Timer.flags (hoth u (by simpa using hu.symm)),
        fun u hu => congrArg Timer.waiter (hoth u (by simpa using hu.symm))⟩
    exact h.onTimer hfree hfrm ⟨l, hl.change halc hfrm (fun _ _ => Iff.rfl) (.inl ⟨hnot, rfl⟩)⟩

lemma Consistent.label (h : Consistent s) (ht : s.Usable t) {v : Timer} (hnext : v.next = (s.ctl.timers0 t).next)
    (htime : v.timeout = (s.ctl.timers0 t).timeout) (hfl : v.flags = (s.ctl.timers0 t).flags) :
    Consistent { s with ctl := s.ctl.set t v } := by
  obtain ⟨l, hl⟩ := h.timed
  obtain ⟨hset, htim⟩ := hl.listed.relabel ht.1 hnext htime hfl
  refine ⟨h.fault, ⟨l, hl.keep hset rfl htim⟩, h.stray, fun task c hc => ?_, h.sleeper, h.returned⟩
  refine (h.calls task c hc).congr (le_refl _) fun u hu => ?_
  have hut : u ≠ t := by
    rintro rfl
    rw [ht.2] at hu
    cases hu
  exact ⟨hu, rfl, congrArg Timer.waiter (set_of_ne _ _ hut), fun hf => (congrArg Timer.flags (set_of_ne _ _ hut)).symm ▸ hf⟩

lemma Timed.settime (h : Timed s l) (ht : t ≠ sentinel) (hn : s.ctl.count + n ≤ uintMax) :
    ∃ d l', s.settime t n = { s with ctl := d }.arm t (some ⟨s.ticks, n, []⟩) ∧ Frame t s.ctl d ∧
      (d.timers0 t).waiter = (s.ctl.timers0 t).waiter ∧ (d.timers0 t).flags = .flagsUsing ∧
      Timed ({ s with ctl := d }.arm t (some ⟨s.ticks, n, []⟩)) l' := by
  obtain ⟨d, l', hset, hl', hmem, hfrm, htime, hwtr⟩ := h.listed.settime ht hn
  have hin : t ∈ l' := (hmem t).mpr (.inl rfl)
  refine ⟨d, l', ?_, hfrm, hwtr, (hl'.mem_iff ht).mp hin, h.change hl' hfrm (fun u hu => ?_) (.inr ⟨hin, n, rfl, htime⟩)⟩
  · rw [State.settime, timerSettime, hset]
  · rw [hmem]
    simp [hu]

lemma Consistent.drop (h : Consistent s) (ht : s.Usable t) (hd : d = (cancelTimer t s.ctl).2 ∨ d = freeTimer t s.ctl) :
    Consistent ({ s with ctl := d }.arm t none) := by
  obtain ⟨l, hl⟩ := h.timed
  have hnd := (List.nodup_append.mp hl.listed.nodup).1
  obtain ⟨hdl, hfrm⟩ : Listed d (l.erase t) ∧ Frame t s.ctl d := by
    rcases hd with rfl | rfl
    · obtain ⟨hcanc, hfrm, -⟩ := hl.listed.cancel ht.1
      exact ⟨hcanc, hfrm⟩
    · obtain ⟨hfree, hfrm, -⟩ := hl.listed.free ht.1
      exact ⟨hfree, hfrm⟩
  refine h.onTimer ht.2 hfrm ⟨l.erase t, hl.change hdl hfrm (fun u hu => ?_) (.inl ⟨?_, rfl⟩)⟩
  · rw [hnd.mem_erase_iff]
    simp [hu]
  · simp [hnd.mem_erase_iff]

lemma Consistent.cancelForTask (h : Consistent s) {taskTimer : Option TimerId}
    (hs : step s (.cancelForTask task taskTimer) = some s') : Consistent s' := by
  obtain ⟨l, hl⟩ := h.timed
  obtain ⟨l', hl', hcnt, hmem, hkept⟩ := hl.listed.cancelForTask task taskTimer
  rw [step, if_neg (by simp [h.fault])] at hs
  generalize timerCancelForTask task taskTimer s.ctl = d at hl' hcnt hkept hs
  cases hs
  refine ⟨h.fault, ⟨l', hl', hcnt.trans hl.count, fun t ht => ?_, fun t ht a ha hpos => ?_⟩, h.stray, fun task' c hc => ?_,
    fun t task' ht => ?_, h.returned⟩
  · obtain ⟨hin, hw⟩ := (hmem t).mp ht
    obtain ⟨a, ha, hfir, htime, hlat⟩ := hl.pending t hin
    exact ⟨a, (if_neg hw).trans ha, hfir, (hkept t hw).1.trans htime, hlat⟩
  · dsimp only at ha
    by_cases hw : (s.ctl.timers0 t).waiter = some task
    · rw [if_pos hw] at ha
      cases ha
    · rw [if_neg hw] at ha
      exact hl.done t (fun hin => ht ((hmem t).mpr ⟨hin, hw⟩)) a ha hpos
  · have hc : update s.calls task none task' = some c := hc
    have hne : task' ≠ task := by
      rintro rfl
      rw [update_self] at hc
      cases hc
    rw [update_of_ne hne] at hc
    have hok := h.calls task' c hc
    have hoth : ∀ t, c.stage.timer = some t → (s.ctl.timers0 t).waiter ≠ some task := by
      intro t ht
      rw [(hok.held t ht).2.2.1]
      exact fun heq => hne (Option.some.inj heq)
    refine ⟨hok.positive, hok.start, hok.spins, fun t ht => ?_, fun t ht => ?_, fun t ht hst => ?_, fun t ht hd hawak => ?_⟩
    · obtain ⟨hslp, hsent, hwtr, hfl⟩ := hok.held t ht
      obtain ⟨-, hf', hw'⟩ := hkept t (hoth t ht)
      refine ⟨(if_neg ?_).trans hslp, hsent, hw'.trans hwtr, hf'.symm ▸ hfl⟩
      rw [hslp]
      exact fun heq => hne (Option.some.inj heq)
    · exact (if_neg (hoth t (by rw [ht]; rfl))).trans (hok.fresh t ht)
    · obtain ⟨a, ha, hrest⟩ := hok.begun t ht hst
      exact ⟨a, (if_neg (hoth t ht)).trans ha, hrest⟩
    · obtain ⟨a, ha, hrest⟩ := hok.awake t ht hd hawak
      exact ⟨a, (if_neg (hoth t ht)).trans ha, hrest⟩
  · have hslp : (if s.sleeper t = some task then none else s.sleeper t) = some task' := ht
    split_ifs at hslp with htsk
    obtain ⟨c, hc, htmr⟩ := h.sleeper t task' hslp
    refine ⟨c, (update_of_ne ?_ ..).trans hc, htmr⟩
    rintro rfl
    exact htsk hslp

/-! ### The interrupt -/

@[simp] lemma run_ms (own : Bool) (c : Call) : (c.run own).ms = c.ms := by
  unfold Call.run
  dsimp only
  split <;> rfl

@[simp] lemma run_start (own : Bool) (c : Call) : (c.run own).start = c.start := by
  unfold Call.run
  dsimp only
  split <;> rfl

@[simp] lemma run_disturbed (own : Bool) (c : Call) : (c.run own).disturbed = (c.disturbed || !own) := by
  unfold Call.run
  dsimp only
  split <;> rfl

lemma run_stage (own : Bool) (c : Call) :
    (c.run own).stage = c.stage ∨ ∃ t, c.stage = .blocked t ∧ (c.run own).stage = .woken t := by
  unfold Call.run
  dsimp only
  split
  · exact .inr ⟨_, ‹_›, rfl⟩
  · exact .inl rfl

lemma hear_spec (task : Tid) (out : List Expiry) (c : Call) :
    (c.hear task out).ms = c.ms ∧ (c.hear task out).start = c.start ∧
      ((c.hear task out).stage = c.stage ∨ ∃ t, c.stage = .blocked t ∧ (c.hear task out).stage = .woken t) ∧
      ((c.hear task out).disturbed = false → c.disturbed = false) ∧
      ((c.hear task out).disturbed = false → (c.hear task out).Awake → c.Awake ∨ ∃ e ∈ out, c.stage.timer = some e.timer) := by
  induction out generalizing c with
  | nil => exact ⟨rfl, rfl, .inl rfl, id, fun _ hawak => .inl hawak⟩
  | cons e out ih =>
    rw [Call.hear, List.foldl_cons]
    split_ifs with hw
    · obtain ⟨h1, h2, h3, h4, h5⟩ := ih (c.run (c.stage.timer = some e.timer))
      rw [Call.hear] at h1 h2 h3 h4 h5
      rw [run_disturbed] at h4
      refine ⟨h1.trans (run_ms _ _), h2.trans (run_start _ _), ?_, fun hd => ?_, fun hd _ => .inr ⟨e, List.mem_cons_self, ?_⟩⟩
      · rcases run_stage (c.stage.timer = some e.timer) c with hstag | ⟨t, hblk, hwok⟩
        · rw [hstag] at h3
          exact h3
        · refine .inr ⟨t, hblk, ?_⟩
          rcases h3 with h3 | ⟨u, hu, -⟩
          · exact h3.trans hwok
          · rw [hwok] at hu
            cases hu
      · have hd := h4 hd
        simp only [Bool.or_eq_false_iff] at hd
        exact hd.1
      · have hd := h4 hd
        simp only [Bool.or_eq_false_iff, Bool.not_eq_false', decide_eq_true_eq] at hd
        exact hd.2
    · obtain ⟨h1, h2, h3, h4, h5⟩ := ih c
      refine ⟨h1, h2, h3, h4, fun hd hawak => (h5 hd hawak).imp_right ?_⟩
      rintro ⟨e', he', ht⟩
      exact ⟨e', List.mem_cons_of_mem _ he', ht⟩

lemma timer_of_stage {stage stage' : Stage} (h : stage' = stage ∨ ∃ t, stage = .blocked t ∧ stage' = .woken t) :
    stage'.timer = stage.timer ∧ (∀ t, stage' = .allocated t → stage = .allocated t) ∧
      (∀ t, stage = .allocated t → stage' = .allocated t) ∧ ∀ n, stage' = .spinning n → stage = .spinning n := by
  rcases h with rfl | ⟨t, rfl, rfl⟩
  · exact ⟨rfl, fun _ => id, fun _ => id, fun _ => id⟩
  · exact ⟨rfl, fun _ h => (by cases h), fun _ h => (by cases h), fun _ h => (by cases h)⟩

lemma Consistent.interrupt (h : Consistent s) {cpu : ℕ} (hg : InTime s (.interrupt cpu)) : Consistent (s.interrupt cpu) := by
  obtain ⟨l, hl⟩ := h.timed
  by_cases hcpu : cpu = 0
  swap
  · have hsame : s.interrupt cpu = s := by
      have hcll : ∀ task, (s.calls task).map (Call.hear task []) = s.calls task := by
        intro task
        cases s.calls task <;> rfl
      simp [State.interrupt, timerInterrupt, hcpu, State.expire, hcll]
    rwa [hsame]
  subst hcpu
  obtain ⟨d, htick, hl', hcnt, htmrs⟩ := hl.listed.tick (hg rfl)
  generalize hout : (l.filter fun t => s.ctl.timeout t ≤ s.ctl.count + 1).map s.ctl.expiry = out at htick
  have hs' : s.interrupt 0 = { s with ctl := d, ticks := s.ticks + 1 }.expire out := by
    rw [State.interrupt, htick]
    rfl
  have hfir : ∀ t, t ∈ out.map Expiry.timer ↔ t ∈ l ∧ s.ctl.timeout t ≤ s.ctl.count + 1 := by
    intro t
    rw [← hout]
    simp [TimerCtl.expiry]
  have hrest : ∀ t, t ∈ (l.filter fun t => s.ctl.count + 1 < s.ctl.timeout t) ↔ t ∈ l ∧
    s.ctl.count + 1 < s.ctl.timeout t := by simp
  have htim : ∀ t, d.timeout t = s.ctl.timeout t := by
    intro t
    show (d.timers0 t).timeout = (s.ctl.timers0 t).timeout
    rw [htmrs]
    split_ifs <;> rfl
  have hwtr : ∀ t, (d.timers0 t).waiter = (s.ctl.timers0 t).waiter := by
    intro t
    rw [htmrs]
    split_ifs <;> rfl
  have hfl : ∀ t, (s.ctl.timers0 t).flags ≠ .unused → (d.timers0 t).flags ≠ .unused := by
    intro t ht
    rw [htmrs]
    split_ifs
    · simp
    · exact ht
  rw [hs']
  generalize hs'' : ({ s with ctl := d, ticks := s.ticks + 1 } : State).expire out = s''
  -- what the step does to the arming of a timer
  have harmed : ∀ t, s''.armed t =
      if t ∈ out.map Expiry.timer then (s.armed t).map fun a => { a with fired := a.fired ++ [s.ticks + 1] } else s.armed t :=
    fun t => hs'' ▸ rfl
  have hcll : ∀ task, s''.calls task = (s.calls task).map (Call.hear task out) := fun task => hs'' ▸ rfl
  have htks : s''.ticks = s.ticks + 1 := hs'' ▸ rfl
  have hctl : s''.ctl = d := hs'' ▸ rfl
  refine ⟨hs'' ▸ h.fault, ⟨_, (by rw [hctl]; exact hl'), ?_, fun t ht => ?_, fun t ht a ha hpos => ?_⟩, ?_,
    fun task c hc => ?_, fun t task ht => ?_, hs'' ▸ h.returned⟩
  · rw [htks, ← hl.count, hctl]
    exact hcnt
  · obtain ⟨hin, hlat⟩ := (hrest t).mp ht
    obtain ⟨a, ha, hnone, htime, -⟩ := hl.pending t hin
    refine ⟨a, ?_, hnone, by rw [hctl]; exact (htim t).trans htime, fun _ => ?_⟩
    · rw [harmed, if_neg fun hf => absurd ((hfir t).mp hf).2 (Nat.not_le.mpr hlat)]
      exact ha
    · rw [htks, ← htime, ← hl.count]
      exact hlat
  · rw [harmed] at ha
    by_cases hf : t ∈ out.map Expiry.timer
    · -- the timer fires, and it is its time
      obtain ⟨hin, hle⟩ := (hfir t).mp hf
      obtain ⟨b, hb, hnone, htime, hlat⟩ := hl.pending t hin
      rw [if_pos hf, hb] at ha
      cases ha
      have hlt := hlat hpos
      have hcnt := hl.count
      have heq : s.ticks + 1 = b.start + b.timeout := by omega
      rw [htks]
      show b.fired ++ [s.ticks + 1] = [b.start + b.timeout] ∧ b.start + b.timeout ≤ s.ticks + 1
      rw [hnone, heq]
      exact ⟨rfl, le_refl _⟩
    · rw [if_neg hf] at ha
      have hnot : t ∉ l := by
        intro hin
        by_cases hle : s.ctl.timeout t ≤ s.ctl.count + 1
        · exact hf ((hfir t).mpr ⟨hin, hle⟩)
        · exact ht ((hrest t).mpr ⟨hin, Nat.lt_of_not_le hle⟩)
      obtain ⟨hfires, hle⟩ := hl.done t hnot a ha hpos
      exact ⟨hfires, by rw [htks]; omega⟩
  · rw [← hs'']
    show s.stray ++ _ = []
    rw [h.stray, List.nil_append, List.filter_eq_nil_iff]
    intro t ht
    obtain ⟨a, ha, -⟩ := hl.pending t ((hfir t).mp ht).1
    simp [ha]
  · rw [hcll] at hc
    obtain ⟨b, hb, rfl⟩ := Option.map_eq_some_iff.mp hc
    have hok := h.calls task b hb
    obtain ⟨hms, hstar, hstag, hdist, hawak⟩ := hear_spec task out b
    obtain ⟨htmr, hall, hall', hspin⟩ := timer_of_stage hstag
    refine ⟨by rw [hms]; exact hok.positive, by rw [hstar, htks]; exact hok.start.trans (Nat.le_succ _),
      fun n hn => by rw [hstar]; exact hok.spins n (hspin n hn), fun t ht => ?_, fun t ht => ?_, fun t ht hne => ?_,
      fun t ht hd haw => ?_⟩
    · rw [htmr] at ht
      obtain ⟨h1, h2, h3, h4⟩ := hok.held t ht
      rw [← hs'']
      exact ⟨h1, h2, (hwtr t).trans h3, hfl t h4⟩
    · rw [harmed, hok.fresh t (hall t ht)]
      split_ifs <;> rfl
    · rw [htmr] at ht
      obtain ⟨a, ha, hrest⟩ := hok.begun t ht fun heq => hne (hall' t heq)
      rw [hstar, hms, harmed, ha]
      split_ifs
      · exact ⟨_, rfl, hrest⟩
      · exact ⟨_, rfl, hrest⟩
    · rw [htmr] at ht
      rw [harmed]
      rcases hawak hd haw with haw | ⟨e, he, htime⟩
      · obtain ⟨a, ha, hfires⟩ := hok.awake t ht (hdist hd) haw
        rw [ha]
        split_ifs
        · exact ⟨_, rfl, by simp⟩
        · exact ⟨_, rfl, hfires⟩
      · have hf : t ∈ out.map Expiry.timer := by
          rw [ht] at htime
          rw [Option.some.inj htime]
          exact List.mem_map_of_mem he
        obtain ⟨a, ha, -⟩ := hl.pending t ((hfir t).mp hf).1
        rw [if_pos hf, ha]
        exact ⟨_, rfl, by simp⟩
  · rw [← hs''] at ht
    have ht : s.sleeper t = some task := ht
    obtain ⟨c, hc, htmr⟩ := h.sleeper t task ht
    obtain ⟨-, -, hstag, -⟩ := hear_spec task out c
    exact ⟨c.hear task out, by rw [hcll, hc]; rfl, (timer_of_stage hstag).1.trans htmr⟩

/-! ### Calls of `sleep` -/

lemma Consistent.setCall (h : Consistent s) (hok : CallOk s task c)
    (ht : ∀ t, s.sleeper t = some task → c.stage.timer = some t) :
    Consistent (s.setCall task (some c)) := by
  obtain ⟨l, hl⟩ := h.timed
  refine ⟨h.fault, ⟨l, hl.listed, hl.count, hl.pending, hl.done⟩, h.stray, fun task' c' hc => ?_, fun t task' hslp => ?_,
    h.returned⟩
  · have hc : update s.calls task (some c) task' = some c' := hc
    have hkeep {task'' : Tid} {c'' : Call} (hok : CallOk s task'' c'') : CallOk (s.setCall task (some c)) task'' c'' :=
      hok.congr (le_refl _) fun t hslp => ⟨hslp, rfl, rfl, id⟩
    rcases update_cases hc with ⟨rfl, ⟨⟩⟩ | ⟨-, hc⟩
    · exact hkeep hok
    · exact hkeep (h.calls task' c' hc)
  · by_cases hne : task' = task
    · subst hne
      exact ⟨c, update_self .., ht t hslp⟩
    · obtain ⟨c', hc', htmr⟩ := h.sleeper t task' hslp
      exact ⟨c', (update_of_ne hne ..).trans hc', htmr⟩

lemma Consistent.timer_of (h : Consistent s) (hc : s.calls task = some c) {t : TimerId} (ht : s.sleeper t = some task) :
    c.stage.timer = some t := by
  obtain ⟨c', hc', htmr⟩ := h.sleeper t task ht
  rw [hc] at hc'
  cases hc'
  exact htmr

lemma Consistent.wake (h : Consistent s) (hs : step s (.wake task) = some s') : Consistent s' := by
  rw [step, if_neg (by simp [h.fault])] at hs
  cases hs
  cases hc : s.calls task with
  | none =>
    have hsame : s.setCall task (Option.map (Call.run false) none) = s := by
      show { s with calls := update s.calls task none } = s
      rw [← hc, update_eq_self]
    rwa [hsame]
  | some c =>
    have hok := h.calls task c hc
    obtain ⟨htmr, hall', hall, hspin⟩ := timer_of_stage (run_stage false c)
    refine h.setCall ⟨by rw [run_ms]; exact hok.positive, by rw [run_start]; exact hok.start,
      fun n hn => by rw [run_start]; exact hok.spins n (hspin n hn), fun t ht => hok.held t (htmr ▸ ht),
      fun t ht => hok.fresh t (hall' t ht), fun t ht hne => ?_, fun t ht hd => ?_⟩ fun t ht =>
        by rw [htmr]; exact h.timer_of hc ht
    · rw [run_start, run_ms]
      exact hok.begun t (htmr ▸ ht) fun heq => hne (hall t heq)
    · rw [run_disturbed] at hd
      simp at hd

lemma Timed.sleepAlloc (h : Timed s l) {fifo : ℕ} (ha : sleepAlloc task fifo s.ctl = (some t, d)) :
    Listed d l ∧ Frame t s.ctl d ∧ t ∉ l ∧ t ≠ sentinel ∧ (s.ctl.timers0 t).flags = .unused ∧ (d.timers0 t).waiter = some task ∧
      (d.timers0 t).flags = .flagsAlloc := by
  obtain ⟨halc, hcnt, htime, hsome, -, hoth⟩ := h.listed.alloc
  unfold Pit.sleepAlloc at ha
  generalize timerAlloc s.ctl = w at halc hcnt htime hsome hoth ha
  obtain ⟨_ | u, e⟩ := w
  · cases ha
  cases ha
  obtain ⟨hunus, hfl⟩ := hsome t rfl
  have hfl : (e.timers0 t).flags = .flagsAlloc := hfl
  have hnot : t ∉ l ++ [sentinel] := by
    intro hmem
    rw [← h.listed.running, hunus] at hmem
    cases hmem
  have hfrm : Frame t s.ctl e :=
    ⟨hcnt, fun u _ => htime u, fun u hu => congrArg Timer.flags (hoth u (by simpa using hu.symm)),
      fun u hu => congrArg Timer.waiter (hoth u (by simpa using hu.symm))⟩
  have hne : t ≠ sentinel := fun heq => hnot (by simp [heq])
  have hinit := halc.set (t := t) (v := { e.timers0 t with fifo := some fifo, data := 1 }) hnot (by simp [hfl])
  refine ⟨hinit.set hnot ?_, (hfrm.trans (frame_set e t _)).trans (frame_set _ t _), fun hmem => hnot (by simp [hmem]),
    hne, hunus,
    by simp, ?_⟩
  · simp [timerInit, hfl]
  · simpa [timerInit] using hfl

lemma positive_of_ne {ms : ℕ} (h : sleepTicks ms ≠ 0) : 0 < sleepTicks ms := Nat.pos_of_ne_zero h

lemma Consistent.sleep (h : Consistent s) {ms fifo : ℕ} {ready : Bool} (hg : InTime s (.sleep task ms fifo ready))
    (hs : step s (.sleep task ms fifo ready) = some s') : Consistent s' := by
  obtain ⟨l, hl⟩ := h.timed
  rw [step, if_neg (by simp [h.fault])] at hs
  split_ifs at hs with hcall hzero hnull
  · cases hs
    refine ⟨h.fault, ⟨l, hl.listed, hl.count, hl.pending, hl.done⟩, h.stray, fun task c hc => ?_, h.sleeper, fun r hr hd => ?_⟩
    · exact (h.calls task c hc).congr (le_refl _) fun t ht => ⟨ht, rfl, rfl, id⟩
    · rcases List.mem_cons.mp hr with rfl | hr
      · show min ((ms + 9) / 10) uintMax ≤ 0
        rw [← sleepTicks_eq, hzero]
      · exact h.returned r hr hd
  · cases hs
    have hnone := not_not.mp hcall
    refine h.setCall ⟨positive_of_ne hzero, le_refl _, fun n hn => ?_, fun t ht => ?_, fun t ht => ?_, fun t ht => ?_,
      fun t ht => ?_⟩
      fun t ht => absurd ht (h.sleeping hnone t)
    · cases hn
      exact hl.count
    all_goals cases ht
  · have hnone := not_not.mp hcall
    have hfree : ∃ t, (s.ctl.timers0 t).flags = .unused := (hg.resolve_left hzero).resolve_left hnull
    cases ha : sleepAlloc task fifo s.ctl with
    | mk r d =>
    rw [ha] at hs
    cases r with
    | none =>
      obtain ⟨t, ht⟩ := hfree
      unfold Pit.sleepAlloc at ha
      obtain ⟨-, -, -, -, hall, -⟩ := hl.listed.alloc
      generalize timerAlloc s.ctl = w at hall ha
      obtain ⟨_ | u, e⟩ := w
      · exact absurd ht (hall rfl t)
      · cases ha
    | some t =>
      cases hs
      obtain ⟨hd, hfrm, hnot, hne, hunus, hwtr, hfl⟩ := hl.sleepAlloc ha
      have hfree : s.sleeper t = none := by
        by_contra hsome
        obtain ⟨task', htsk⟩ := Option.ne_none_iff_exists'.mp hsome
        obtain ⟨c, hc, htmr⟩ := h.sleeper t task' htsk
        exact ((h.calls task' c hc).held t htmr).2.2.2 hunus
      have htmd := hl.change (a := none) hd hfrm (fun _ _ => Iff.rfl) (.inl ⟨hnot, rfl⟩)
      refine ⟨h.fault, ⟨l, htmd.listed, htmd.count, htmd.pending, htmd.done⟩, h.stray, fun task' c hc => ?_,
        fun u task' hu => ?_, h.returned⟩
      · have hc : update s.calls task _ task' = some c := hc
        rcases update_cases hc with ⟨rfl, ⟨⟩⟩ | ⟨-, hc⟩
        · refine ⟨positive_of_ne hzero, le_refl _, fun n hn => (by cases hn), fun u hu => ?_, fun u hu => ?_,
            fun u hu hst => ?_,
            fun u hu hdist haw => ?_⟩
          · cases hu
            exact ⟨update_self .., hne, hwtr, fun hf => by rw [show (d.timers0 t).flags = .unused from hf] at hfl; cases hfl⟩
          · cases hu
            exact update_self ..
          · cases hu
            exact absurd rfl hst
          · rcases haw with haw | ⟨v, hv⟩
            · exact absurd (haw.symm.trans hdist) (by simp)
            · cases hv
        · refine (h.calls task' c hc).congr (le_refl _) fun u hu => ?_
          have hut : u ≠ t := by
            rintro rfl
            rw [hfree] at hu
            cases hu
          exact ⟨(update_of_ne hut ..).trans hu, update_of_ne hut .., hfrm.waiter u hut,
            fun hf => (hfrm.flags u hut).symm ▸ hf⟩
      · have hu : update s.sleeper t (some task) u = some task' := hu
        rcases update_cases hu with ⟨rfl, ⟨⟩⟩ | ⟨-, hu⟩
        · exact ⟨_, update_self .., rfl⟩
        · obtain ⟨c, hc, htmr⟩ := h.sleeper u task' hu
          refine ⟨c, (update_of_ne ?_ ..).trans hc, htmr⟩
          rintro rfl
          rw [hnone] at hc
          cases hc

lemma Consistent.sleepArm (h : Consistent s) (hg : InTime s (.sleepArm task)) (hs : step s (.sleepArm task) = some s') :
    Consistent s' := by
  obtain ⟨l, hl⟩ := h.timed
  rw [step, if_neg (by simp [h.fault])] at hs
  split at hs
  swap
  · cases hs
  rename_i ms start t ready disturbed hc
  cases hs
  have hok := h.calls task _ hc
  obtain ⟨hslp, hne, hwtr, -⟩ := hok.held t rfl
  obtain ⟨d, l', hset, hfrm, hw, hfl, htmd⟩ := hl.settime hne (hg _ hc)
  rw [hset]
  -- the timer belongs to this call only
  have hoths : ∀ task' c', s.calls task' = some c' → task' ≠ task →
      CallOk ({ s with ctl := d }.arm t (some ⟨s.ticks, sleepTicks ms, []⟩)) task' c' :=
    fun task' c' hc' hne' => (h.calls task' c' hc').frame hfrm (fun heq => hne' (Option.some.inj (heq.symm.trans hslp))) _
  refine ⟨h.fault, ⟨l', htmd.listed, htmd.count, htmd.pending, htmd.done⟩, h.stray, fun task' c' hc' => ?_,
    fun u task' hu => ?_, h.returned⟩
  · have hc' : update s.calls task _ task' = some c' := hc'
    rcases update_cases hc' with ⟨rfl, ⟨⟩⟩ | ⟨heq, hc'⟩
    · refine ⟨hok.positive, hok.start, fun n hn => (by cases hn), fun u hu => ?_, fun u hu => (by cases hu), fun u hu _ => ?_,
        fun u hu hdist haw => ?_⟩
      · cases hu
        exact ⟨hslp, hne, hw.trans hwtr, fun hf => by rw [show (d.timers0 t).flags = .unused from hf] at hfl; cases hfl⟩
      · cases hu
        exact ⟨_, update_self .., hok.start, rfl⟩
      · -- the call was not woken before its timer was armed
        rcases haw with haw | ⟨v, hv⟩
        · obtain ⟨a, ha, -⟩ := hok.awake t rfl hdist (.inl haw)
          rw [hok.fresh t rfl] at ha
          cases ha
        · cases hv
    · exact (hoths task' c' hc' heq).congr (le_refl _) fun u hu => ⟨hu, rfl, rfl, id⟩
  · by_cases heq : task' = task
    · subst heq
      exact ⟨_, update_self .., h.timer_of hc hu⟩
    · obtain ⟨c', hc', htmr⟩ := h.sleeper u task' hu
      exact ⟨c', (update_of_ne heq ..).trans hc', htmr⟩

lemma Consistent.sleepBlock (h : Consistent s) (hs : step s (.sleepBlock task) = some s') : Consistent s' := by
  rw [step, if_neg (by simp [h.fault])] at hs
  split at hs
  swap
  · cases hs
  rename_i ms start t ready disturbed hc
  cases hs
  have hok := h.calls task _ hc
  have htmr : (if ready then Stage.woken t else .blocked t).timer = some t := by cases ready <;> rfl
  refine h.setCall ⟨hok.positive, hok.start, fun n hn => ?_, fun u hu => ?_, fun u hu => ?_, fun u hu _ => ?_,
    fun u hu hdist haw => ?_⟩
    fun u hu => htmr.trans (h.timer_of hc hu)
  · cases ready <;> cases hn
  · exact hok.held u (htmr.symm.trans hu)
  · cases ready <;> cases hu
  · exact hok.begun u (htmr.symm.trans hu) (by simp)
  · refine hok.awake u (htmr.symm.trans hu) hdist (.inl ?_)
    cases ready with
    | true => rfl
    | false =>
      rcases haw with haw | ⟨v, hv⟩
      · exact haw
      · cases hv

lemma Consistent.leave (h : Consistent s) (armed : TimerId → Option Arming) (sleeper : TimerId → Option Tid) {r : Return}
    (hr : r.disturbed = false → min ((r.ms + 9) / 10) uintMax ≤ r.duration) (htmd : ∃ l,
    Timed { s with ctl := d, armed := armed } l)
    (hoths : ∀ u, s.sleeper u ≠ some task → armed u = s.armed u ∧ (d.timers0 u).waiter = (s.ctl.timers0 u).waiter ∧
      (d.timers0 u).flags = (s.ctl.timers0 u).flags)
    (hslp : ∀ u task', sleeper u = some task' ↔ task' ≠ task ∧ s.sleeper u = some task') :
    Consistent ((({ s with ctl := d, armed := armed, sleeper := sleeper } : State).setCall task none).leave r) := by
  obtain ⟨l, hl⟩ := htmd
  refine ⟨h.fault, ⟨l, hl.listed, hl.count, hl.pending, hl.done⟩, h.stray, fun task' c' hc' => ?_, fun u task' hu => ?_,
    fun r' hr' hd => ?_⟩
  · have hc' : update s.calls task none task' = some c' := hc'
    have hne : task' ≠ task := by
      rintro rfl
      rw [update_self] at hc'
      cases hc'
    rw [update_of_ne hne] at hc'
    refine (h.calls task' c' hc').congr (le_refl _) fun u hu => ?_
    obtain ⟨h1, h2, h3⟩ := hoths u fun heq => hne (Option.some.inj (hu.symm.trans heq))
    exact ⟨(hslp u task').mpr ⟨hne, hu⟩, h1, h2, fun hf => h3.symm ▸ hf⟩
  · obtain ⟨hne, hu⟩ := (hslp u task').mp hu
    obtain ⟨c', hc', htmr⟩ := h.sleeper u task' hu
    exact ⟨c', (update_of_ne hne ..).trans hc', htmr⟩
  · rcases List.mem_cons.mp hr' with rfl | hr'
    · exact hr hd
    · exact h.returned r' hr' hd

/-- **`sleep` returns**, after its ticks if nothing else woke its task. -/
lemma Consistent.sleepReturn (h : Consistent s) (hs : step s (.sleepReturn task) = some s') : Consistent s' := by
  obtain ⟨l, hl⟩ := h.timed
  rw [step, if_neg (by simp [h.fault])] at hs
  split at hs
  · rename_i ms start started ready disturbed hc
    split_ifs at hs with hwait
    cases hs
    have hok := h.calls task _ hc
    have hstrt : started = start := hok.spins started rfl
    have hstar : start ≤ s.ticks := hok.start
    have hlt : s.ctl.count < 0xffffffff := hl.listed.count
    have hcnt := hl.count
    have hnot : ∀ u, s.sleeper u ≠ some task := by
      intro u hu
      have := h.timer_of hc hu
      cases this
    refine h.leave s.armed s.sleeper (fun _ => ?_) ⟨l, hl⟩ (fun u _ => ⟨rfl, rfl, rfl⟩) fun u task' =>
      ⟨fun hu => ⟨fun heq => hnot u (heq ▸ hu), hu⟩, And.right⟩
    show min ((ms + 9) / 10) uintMax ≤ s.ticks - start
    rw [← sleepTicks_eq]
    rw [wrap] at hwait
    omega
  · rename_i ms start t ready disturbed hc
    cases hs
    have hok := h.calls task _ hc
    obtain ⟨hslp, hne, -, -⟩ := hok.held t rfl
    obtain ⟨hset, hsett⟩ := hl.listed.relabel (v := { s.ctl.timers0 t with waiter := none }) hne rfl rfl rfl
    obtain ⟨hfree, hfrm, -, -⟩ := hset.free hne
    have hfrm : Frame t s.ctl (sleepFree t s.ctl) := (frame_set s.ctl t _).trans hfrm
    have hnd := (List.nodup_append.mp hl.listed.nodup).1
    have htmd := hl.change (a := none) hfree hfrm (fun u hu => by rw [hnd.mem_erase_iff]; simp [hu])
      (.inl ⟨by simp [hnd.mem_erase_iff], rfl⟩)
    refine h.leave (s.arm t none).armed (s.setSleeper t none).sleeper (fun hdist => ?_) ⟨_,
      htmd⟩ (fun u hu => ?_) fun u task' => ?_
    · show min ((ms + 9) / 10) uintMax ≤ s.ticks - start
      rw [← sleepTicks_eq]
      obtain ⟨a, ha, hstar, htime⟩ := hok.begun t rfl (by simp)
      obtain ⟨b, hb, hfires⟩ := hok.awake t rfl hdist (.inr ⟨t, rfl⟩)
      cases ha.symm.trans hb
      have hpos := hok.positive
      -- the timer has fired, so it is not in the list any more
      have hnot : t ∉ l := by
        intro hin
        obtain ⟨b, hb, hnone, -⟩ := hl.pending t hin
        cases ha.symm.trans hb
        exact hfires hnone
      have hdone := (hl.done t hnot a ha (by rw [htime]; exact hpos)).2
      dsimp only at hstar htime
      omega
    · have hut : u ≠ t := fun heq => hu (heq ▸ hslp)
      exact ⟨update_of_ne hut .., hfrm.waiter u hut, hfrm.flags u hut⟩
    · show update s.sleeper t none u = some task' ↔ _
      by_cases hut : u = t
      · subst hut
        rw [update_self, hslp, Option.some.injEq]
        exact ⟨fun hf => (by cases hf), fun hf => absurd hf.2.symm hf.1⟩
      · rw [update_of_ne hut]
        refine ⟨fun hu => ⟨fun heq => hut ?_, hu⟩, And.right⟩
        rw [heq] at hu
        have := h.timer_of hc hu
        cases this
        rfl
  · cases hs

/-! ### Runs -/

lemma initPit_eq : initPit =
    { count := 0, next := uintMax, t0 := some sentinel,
      timers0 := update (fun _ => {}) sentinel { timeout := uintMax, flags := .flagsUsing } } := by
  have hfind : ((List.finRange maxTimer).find? fun _ => (({} : Timer).flags = .unused : Bool)) = some sentinel :=
    by decide +kernel
  unfold initPit timerAlloc
  dsimp only
  rw [hfind]
  simp [TimerCtl.set]

lemma consistent_boot : Consistent boot := by
  have hoth : ∀ u, u ≠ sentinel → initPit.timers0 u = {} := by
    intro u hu
    rw [initPit_eq]
    exact update_of_ne (f := fun _ => ({} : Timer)) hu _
  have hsent : initPit.timers0 sentinel = { timeout := uintMax, flags := .flagsUsing } := by
    rw [initPit_eq]
    exact update_self (f := fun _ => ({} : Timer)) sentinel _
  have ht0 : initPit.t0 = some sentinel := by rw [initPit_eq]
  have hcnt : initPit.count = 0 := by rw [initPit_eq]
  have hlst : Listed initPit [] := by
    refine ⟨⟨ht0, ?_⟩, fun u => ?_, List.pairwise_singleton _ _, by simp, ?_, ?_, ?_⟩
    · show (initPit.timers0 sentinel).next = none
      rw [hsent]
    · by_cases hu : u = sentinel
      · subst hu
        rw [hsent]
        simp
      · rw [hoth u hu]
        simp [hu]
    · show (initPit.timers0 sentinel).timeout = uintMax
      rw [hsent]
    · rw [hsent]
    · rw [hcnt]
      decide
  unfold boot
  generalize initPit = c at hlst hcnt
  refine ⟨rfl, ⟨[], hlst, hcnt, by simp, fun _ _ _ ha => ?_⟩, rfl, fun _ _ hc => ?_, fun _ _ ht => ?_, by simp⟩
  · cases ha
  · cases hc
  · cases ht

lemma Consistent.step (h : Consistent s) {e : Event} (hg : InTime s e) (hs : Pit.step s e = some s') : Consistent s' := by
  have hrun := hs
  rw [Pit.step.eq_def, if_neg (by simp [h.fault])] at hrun
  cases e with
  | alloc => exact h.alloc hs
  | wake task => exact h.wake hs
  | cancelForTask task taskTimer => exact h.cancelForTask hs
  | sleep task ms fifo ready => exact h.sleep hg hs
  | sleepArm task => exact h.sleepArm hg hs
  | sleepBlock task => exact h.sleepBlock hs
  | sleepReturn task => exact h.sleepReturn hs
  | interrupt cpu =>
    cases hrun
    exact h.interrupt hg
  | init t fifo data =>
    dsimp only at hrun
    split_ifs at hrun with ht
    cases hrun
    exact h.label ht rfl rfl rfl
  | setWaiter t w =>
    dsimp only at hrun
    split_ifs at hrun with ht
    cases hrun
    exact h.label ht rfl rfl rfl
  | settime timer timeout =>
    cases timer with
    | none =>
      cases hrun
      exact h
    | some t =>
      dsimp only at hrun
      split_ifs at hrun with ht
      obtain ⟨l, hl⟩ := h.timed
      obtain ⟨d, l', hset, hfrm, -, -, htmd⟩ := hl.settime ht.1 hg
      rw [hset] at hrun
      cases hrun
      exact h.onTimer ht.2 hfrm ⟨l', htmd⟩
  | cancel timer =>
    cases timer with
    | none =>
      cases hrun
      exact h
    | some t =>
      dsimp only at hrun
      split_ifs at hrun with ht
      cases hrun
      exact h.drop ht (.inl rfl)
  | free timer =>
    cases timer with
    | none =>
      cases hrun
      exact h
    | some t =>
      dsimp only at hrun
      split_ifs at hrun with ht
      cases hrun
      exact h.drop ht (.inr rfl)

/-- **The timers keep the time**, in every run whose steps are in time. -/
theorem timers_keep_time (hs : system.Guarded InTime s) : Sound s :=
  (hs.invariant (P := Consistent) (fun s (hi : s = boot) => hi ▸ consistent_boot) fun _ _ _ h hg he => h.step hg he).sound

/-- A run in time: a timer for two ticks, and a task that sleeps for 25 ms and is woken by its timer -/
def twoTimers : List Event :=
  [.alloc, .init 1 (some 100) 1, .settime (some 1) 2, .sleep 7 25 200 false, .sleepArm 7, .sleepBlock 7, .interrupt 0,
  .interrupt 0,
    .interrupt 0, .sleepReturn 7]

theorem twoTimers_keep_time :
    Sound (system.after boot twoTimers) ∧ (system.after boot twoTimers).armed 1 = some ⟨0, 2, [2]⟩ ∧
      (system.after boot twoTimers).returned = [⟨7, 25, 3, false⟩] :=
  ⟨timers_keep_time (System.after_guarded (.init rfl) (by decide +kernel)), by decide +kernel, by decide +kernel⟩

/-- The longest timeout, asked for at the first tick, is over at the second one. -/
theorem longest_timeout_fires_at_once : ¬ ∀ s, system.Reachable s → Sound s := by
  intro h
  have hs := h _ (System.replay_reachable (.init rfl) [.alloc, .interrupt 0, .settime (some 1) uintMax, .interrupt 0])
  have harmed : (system.replay boot [.alloc, .interrupt 0, .settime (some 1) uintMax, .interrupt 0]).armed 1 =
      some ⟨1, uintMax, [2]⟩ := by decide +kernel
  have hticks : (system.replay boot [.alloc, .interrupt 0, .settime (some 1) uintMax, .interrupt 0]).ticks = 2 :=
    by decide +kernel
  have hfires := hs.fires 1 _ harmed (by decide)
  rw [hticks] at hfires
  revert hfires
  decide

end PlantOS.Pit

import PlantOS.Pipe.Steps

/-!
# Blocked calls

A task that waits in `vfs_fd_io` waits in the queue of a pipe that has nothing for it.
-/

namespace PlantOS.Pipe.State

open Function (update update_of_ne update_self)


/-! ### What a task waits for -/

/-- `vfs_pipe_io` would answer `VFS_ERROR_AGAIN`. -/
def Stuck (handle : VfsHandle) (q : VfsPipe) (length : ℕ) (write : Bool) : Prop :=
  length ≠ 0 ∧
    if write then
      handle.write = true ∧ q.readOpen = true ∧ (vfsPipeCapacity - q.used = 0 ∨
        (length ≤ vfsPipeAtomic ∧ length > vfsPipeCapacity - q.used))
    else handle.read = true ∧ q.used = 0 ∧ q.writeOpen = true

def VfsPipe.queue (q : VfsPipe) (write : Bool) : List ℕ := if write then q.writers else q.readers

/-- The call waits in the queue of a pipe that has nothing for it. -/
structure Blocks (s : State) (t : ℕ) (io : Io) (h p : ℕ) (handle : VfsHandle) (q : VfsPipe) : Prop where
  pending : (s.task t).io = some io
  entry : ∃ c, (s.task t).context = some c ∧ s.vfsFdGet c io.descriptor = some h
  opened : s.handle h = some handle
  end_ : handle.pipe = some p
  found : s.pipe p = some q
  same : q.identity = io.identity
  queued : t ∈ VfsPipe.queue q io.write
  stuck : Stuck handle q io.length io.write

def Waits (s : State) : Prop :=
  ∀ t, (s.task t).waiting = true → ∃ io h p handle q, s.Blocks t io h p handle q

variable {s s' : State}
variable {handle : VfsHandle}
variable {c descriptor h length n p t u : ℕ}
variable {q q' : VfsPipe}
variable {source : ℕ → UInt8}

lemma vfsPipeIo_again_iff {write : Bool} :
    (s.vfsPipeIo handle p q source length write).1 = .error .again ↔ Stuck handle q length write := by
  unfold vfsPipeIo Stuck
  cases write with
  | true =>
    simp only [if_true, true_and]
    by_cases hw : handle.write = true
    · by_cases hl : length = 0
      · simp [hw, hl]
      · by_cases ho : q.readOpen = true
        · simp only [hw, hl, ho, Bool.not_true, Bool.false_eq_true, if_false, ne_eq, not_false_eq_true, true_and]
          by_cases hfull : vfsPipeCapacity - q.used = 0 ∨ (length ≤ vfsPipeAtomic ∧ length > vfsPipeCapacity - q.used)
          · simp only [if_pos hfull, iff_true_right hfull]
            simp
          · simp only [if_neg hfull, iff_false_right hfull]
            exact nofun
        · simp [hw, hl, ho]
    · simp [hw]
  | false =>
    simp only [Bool.false_eq_true, if_false, false_and, or_false]
    by_cases hr : handle.read = true
    · by_cases hl : length = 0
      · simp [hr, hl]
      · by_cases hu : q.used = 0
        · by_cases ho : q.writeOpen = true
          · simp [hr, hl, hu, ho]
          · simp [hr, hl, hu, ho]
        · simp [hr, hl, hu]
    · simp [hr]

/-! ### Steps that leave a blocked call alone -/

structure Keeps (s s' : State) (t : ℕ) : Prop where
  task : s'.task t = s.task t
  entry : ∀ c, (s.task t).context = some c → ∀ descriptor h,
    s.vfsFdGet c descriptor = some h → s'.vfsFdGet c descriptor = some h
  handle : ∀ h handle, s.handle h = some handle → ∃ handle', s'.handle h = some handle' ∧
    handle'.pipe = handle.pipe ∧ handle'.read = handle.read ∧ handle'.write = handle.write
  pipe : ∀ p q, s.pipe p = some q → ∃ q', s'.pipe p = some q' ∧ VfsPipe.bare q' = VfsPipe.bare q ∧
    ∀ write, t ∈ VfsPipe.queue q write → t ∈ VfsPipe.queue q' write

lemma Stuck.congr {handle' : VfsHandle} {write : Bool}
    (h : Stuck handle q length write) (hread : handle'.read = handle.read) (hwr : handle'.write = handle.write)
    (hq : VfsPipe.bare q' = VfsPipe.bare q) : Stuck handle' q' length write := by
  obtain ⟨-, -, hused, hreadOpen, hwriteOpen, -⟩ := VfsPipe.bare_eq hq
  unfold Stuck at h ⊢
  rwa [hread, hwr, hused, hreadOpen, hwriteOpen]

variable {io : Io}

lemma Blocks.keep (hb : s.Blocks t io h p handle q)
    (hk : Keeps s s' t) : ∃ handle' q', s'.Blocks t io h p handle' q' := by
  obtain ⟨handle', hhd, hend, hread, hwr⟩ := hk.handle h handle hb.opened
  obtain ⟨q', hq', hbare, hqu⟩ := hk.pipe p q hb.found
  obtain ⟨c, hctx, hent⟩ := hb.entry
  exact ⟨handle', q', by rw [hk.task]; exact hb.pending,
    ⟨c, by rw [hk.task]; exact hctx, hk.entry c hctx _ _ hent⟩, hhd, hend.trans hb.end_, hq',
    (VfsPipe.bare_eq hbare).1.trans hb.same, hqu _ hb.queued,
    hb.stuck.congr hread hwr hbare⟩

lemma Waits.keep (hw : s.Waits) (hkeep : ∀ t, (s'.task t).waiting = true → Keeps s s' t) : s'.Waits := by
  intro t ht
  have hk := hkeep t ht
  obtain ⟨io, h, p, handle, q, hb⟩ := hw t (hk.task ▸ ht)
  obtain ⟨handle', q', hb'⟩ := hb.keep hk
  exact ⟨io, h, p, handle', q', hb'⟩

lemma Keeps.of_eq (htsk : s'.task t = s.task t)
    (hent : ∀ c, (s.task t).context = some c → (s'.context c).entries = (s.context c).entries)
    (hhd : s'.handle = s.handle) (hpipe : s'.pipe = s.pipe) : Keeps s s' t := by
  refine ⟨htsk, fun c hc descriptor h hget => ?_, fun h handle hh => ?_, fun p q hq => ?_⟩
  · unfold vfsFdGet at hget ⊢
    rwa [hent c hc]
  · exact ⟨handle, hhd ▸ hh, rfl, rfl, rfl⟩
  · exact ⟨q, hpipe ▸ hq, rfl, fun _ h => h⟩

/-- Every task that waits waits for something that cannot go on, or in a queue of the pipe `p`. -/
def WaitsBut (s : State) (p : ℕ) : Prop :=
  ∀ t, (s.task t).waiting = true → (∃ write, t ∈ s.queue p write) ∨ ∃ io h p handle q, s.Blocks t io h p handle q

lemma Blocks.woken {woken : List ℕ}
    (hb : s.Blocks t io h p handle q) (hw : Woken s s' woken) (ht : t ∉ woken) :
    s'.Blocks t io h p handle
      { q with readers := q.readers.filter (· ∉ woken), writers := q.writers.filter (· ∉ woken) } := by
  obtain ⟨c, hctx, hent⟩ := hb.entry
  refine ⟨?_, ⟨c, ?_, ?_⟩, ?_, hb.end_, ?_, hb.same, ?_, hb.stuck⟩
  · rw [(hw.task t).1]
    exact hb.pending
  · rw [(hw.task t).2.1]
    exact hctx
  · unfold vfsFdGet
    rw [hw.context]
    exact hent
  · rw [hw.handle]
    exact hb.opened
  · rw [hw.pipe, hb.found]
    rfl
  · have hqud := hb.queued
    unfold VfsPipe.queue at hqud ⊢
    cases hwr : io.write with
    | true =>
      rw [hwr, if_pos rfl] at hqud
      rw [if_pos rfl, List.mem_filter]
      exact ⟨hqud, by simpa using ht⟩
    | false =>
      rw [hwr, if_neg (by simp)] at hqud
      rw [if_neg (by simp), List.mem_filter]
      exact ⟨hqud, by simpa using ht⟩

lemma Waits.woken {woken : List ℕ} (h : s.Waits) (hw : Woken s s' woken) : s'.Waits := by
  intro t ht
  obtain ⟨hwait, hnot⟩ := (hw.task t).2.2 ht
  obtain ⟨io, handle, p, hd, q, hb⟩ := h t hwait
  exact ⟨io, handle, p, hd, _, hb.woken hw hnot⟩

lemma Blocks.mem_queue
    (hb : s.Blocks t io h p handle q) : t ∈ s.queue p io.write := by
  have hqud := hb.queued
  unfold queue
  rw [hb.found]
  exact hqud

lemma WaitsBut.wakeBoth (h : s.WaitsBut p) : ∀ t, ((s.wakeBoth p).task t).waiting = true →
    ∃ io h p' handle q, (s.wakeBoth p).Blocks t io h p' handle q ∧ p' ≠ p := by
  obtain ⟨woken, hw, hall⟩ := s.wakeBoth_woken p
  intro t ht
  obtain ⟨hwait, hnot⟩ := (hw.task t).2.2 ht
  rcases h t hwait with ⟨write, hqu⟩ | ⟨io, handle, p', hd, q, hb⟩
  · exact absurd (hall write t hqu) hnot
  · refine ⟨io, handle, p', hd, _, hb.woken hw hnot, ?_⟩
    rintro rfl
    exact hnot (hall io.write t hb.mem_queue)

/-! ### Closing -/

lemma Blocks.setPipe_of_ne {v : ℕ} (hb : s.Blocks t io h p handle q)
    (hne : p ≠ v) (r : Option VfsPipe) : (s.setPipe v r).Blocks t io h p handle q :=
  { hb with found := by simpa only [setPipe, update_of_ne hne] using hb.found }

lemma Blocks.setHandle_of_ne
    (hb : s.Blocks t io h p handle q) (hne : h ≠ u) (r : Option VfsHandle) :
    (s.setHandle u r).Blocks t io h p handle q :=
  { hb with opened := by simpa only [setHandle, update_of_ne hne] using hb.opened }

lemma Waits.setPipe (hw : s.Waits) (hq : s.pipe p = some q) (hrdrs : q'.readers = q.readers)
    (hwtrs : q'.writers = q.writers) : (s.setPipe p (some q')).WaitsBut p := by
  intro t ht
  obtain ⟨io, h, p', handle, r, hb⟩ := hw t ht
  by_cases heq : p' = p
  · subst heq
    refine .inl ⟨io.write, ?_⟩
    have hqu := hb.mem_queue
    unfold queue at hqu ⊢
    rw [hq] at hqu
    simp only [State.setPipe, update_self]
    rwa [hrdrs, hwtrs]
  · exact .inr ⟨io, h, p', handle, r, hb.setPipe_of_ne heq _⟩

/-- **Closing a reference wakes everybody who waits for the other end.** -/
theorem Waits.vfsClose (hw : s.Waits) (hs : s.Sound (h :: extra)) : (s.vfsClose h).Waits := by
  obtain ⟨handle, hhd⟩ := hs.live h (by rw [List.count_cons_self]; omega)
  obtain ⟨-, hpos⟩ := hs.references h handle hhd
  unfold State.vfsClose
  rw [hhd]
  dsimp only
  rw [if_neg (by omega)]
  by_cases hmore : handle.references - 1 ≠ 0
  · rw [if_pos hmore]
    refine hw.keep fun t _ => ⟨rfl, fun _ _ _ _ hget => hget, fun u hd hu => ?_, fun p q hq =>
      ⟨q, hq, rfl, fun _ hmem => hmem⟩⟩
    by_cases heq : u = h
    · subst heq
      obtain rfl : handle = hd := Option.some.inj (hhd.symm.trans hu)
      exact ⟨_, update_self .., rfl, rfl, rfl⟩
    · exact ⟨hd, by simpa only [State.setHandle, update_of_ne heq] using hu, rfl, rfl, rfl⟩
  rw [if_neg hmore]
  cases hpipe : handle.pipe with
  | none =>
    intro t ht
    obtain ⟨io, u, p, hd, q, hb⟩ := hw t ht
    have hne : u ≠ h := by
      rintro rfl
      obtain rfl : handle = hd := Option.some.inj (hhd.symm.trans hb.opened)
      rw [hb.end_] at hpipe
      cases hpipe
    exact ⟨io, u, p, hd, q, hb.setHandle_of_ne hne none⟩
  | some p =>
    obtain ⟨-, q, hq, -⟩ := hs.ends h handle p hhd hpipe
    simp only [Option.bind_some, hq, Option.map_some]
    set q' := if handle.read then { q with readOpen := false } else { q with writeOpen := false } with hq'
    have hqus : q'.readers = q.readers ∧ q'.writers = q.writers := by
      rw [hq']
      split <;> exact ⟨rfl, rfl⟩
    have hbut : (s.setPipe p (some q')).WaitsBut p := hw.setPipe hq hqus.1 hqus.2
    obtain ⟨woken, hwok, -⟩ := (s.setPipe p (some q')).wakeBoth_woken p
    have hoth := hbut.wakeBoth
    show (State.setHandle (if _ then ((s.setPipe p (some q')).wakeBoth p).setPipe p none
      else (s.setPipe p (some q')).wakeBoth p) h none).Waits
    intro t ht
    have ht' : (((s.setPipe p (some q')).wakeBoth p).task t).waiting = true := by
      split at ht <;> exact ht
    obtain ⟨io, u, p', hd, r, hb, hne⟩ := hoth t ht'
    have hne' : u ≠ h := by
      rintro rfl
      have hopened := hb.opened
      rw [hwok.handle] at hopened
      obtain rfl : handle = hd := Option.some.inj (hhd.symm.trans hopened)
      exact hne (Option.some.inj (hb.end_.symm.trans hpipe))
    refine ⟨io, u, p', hd, r, ?_⟩
    split
    · exact (hb.setPipe_of_ne hne none).setHandle_of_ne hne' none
    · exact hb.setHandle_of_ne hne' none

lemma Waits.takeEntry (hw : s.Waits)
    (hget : s.vfsFdGet c descriptor = some h) (hhd : s.handle h = some handle) :
    let s' := s.setContext c { s.context c with entries := (s.context c).entries.set descriptor none }
    ∀ t, (s'.task t).waiting = true → (∃ p write, handle.pipe = some p ∧ t ∈ s'.queue p write) ∨
      ∃ io h p handle q, s'.Blocks t io h p handle q := by
  intro s' t ht
  obtain ⟨io, u, v, hd, q, hb⟩ := hw t ht
  obtain ⟨c', hctx, hent⟩ := hb.entry
  by_cases heq : c' = c ∧ io.descriptor = descriptor
  · -- the call was on this descriptor
    obtain ⟨rfl, rfl⟩ := heq
    obtain rfl : u = h := Option.some.inj (hent.symm.trans hget)
    obtain rfl : handle = hd := Option.some.inj (hhd.symm.trans hb.opened)
    exact .inl ⟨v, io.write, hb.end_, hb.mem_queue⟩
  · refine .inr ⟨io, u, v, hd, q, { hb with entry := ⟨c', hctx, ?_⟩ }⟩
    unfold vfsFdGet at hent ⊢
    by_cases hc : c' = c
    · subst hc
      have hne : descriptor ≠ io.descriptor := fun h => heq ⟨rfl, h.symm⟩
      simp only [s', State.setContext, update_self]
      rwa [List.getD_eq_getElem?_getD, List.getElem?_set_ne hne, ← List.getD_eq_getElem?_getD]
    · simpa only [s', State.setContext, update_of_ne hc] using hent

/-- **`vfs_fd_close` wakes everybody who waits on the descriptor.** -/
theorem Waits.vfsFdClose (hw : s.Waits) (hs : s.Sound extra) (hc : c ∈ s.contexts) :
    (s.vfsFdClose c descriptor).Waits := by
  unfold State.vfsFdClose
  split
  · exact hw
  case h_2 h hget =>
    have htake := hs.takeEntry hc hget
    obtain ⟨handle, hhd⟩ := htake.live h (by rw [List.count_cons_self]; omega)
    have hhd : s.handle h = some handle := hhd
    have hpipeOf : ∀ context, (s.setContext c context).pipeOf h = handle.pipe := by
      intro context
      unfold pipeOf
      show (s.handle h).bind VfsHandle.pipe = _
      rw [hhd, Option.bind_some]
    dsimp only
    rw [hpipeOf]
    cases hpipe : handle.pipe with
    | none =>
      dsimp only
      refine Waits.vfsClose (fun t ht => ?_) htake
      rcases hw.takeEntry hget hhd t ht with ⟨p, write, hsome, -⟩ | hb
      · rw [hpipe] at hsome
        cases hsome
      · exact hb
    | some p =>
      dsimp only
      have hbut : WaitsBut (s.setContext c _) p := fun t ht =>
        (hw.takeEntry hget hhd t ht).imp_left fun hst => by
          obtain ⟨v, write, hsome, hmem⟩ := hst
          obtain rfl : p = v := Option.some.inj (hpipe.symm.trans hsome)
          exact ⟨write, hmem⟩
      obtain ⟨woken, hwok, -⟩ := wakeBoth_woken (s.setContext c _) p
      refine Waits.vfsClose (fun t ht => ?_) (htake.woken hwok)
      obtain ⟨io, u, v, hd, q, hb, -⟩ := hbut.wakeBoth t ht
      exact ⟨io, u, v, hd, q, hb⟩

/-! ### Reading and writing -/

lemma Waits.move (hw : s.Waits) (hq : s.pipe p = some q) (hrdrs : q'.readers = q.readers)
    (hwtrs : q'.writers = q.writers) (hid : q'.identity = q.identity) (write : Bool)
    (hstk : ∀ handle length, Stuck handle q length write → Stuck handle q' length write) :
    ((s.setPipe p (some q')).ioPollWake p !write).Waits := by
  obtain ⟨woken, hwok, hall⟩ := ioPollWake_woken (s.setPipe p (some q')) p (!write)
  intro t ht
  obtain ⟨hwait, hnot⟩ := (hwok.task t).2.2 ht
  obtain ⟨io, h, v, handle, r, hb⟩ := hw t hwait
  by_cases heq : v = p
  · subst heq
    obtain rfl : q = r := Option.some.inj (hq.symm.trans hb.found)
    have hqu : ∀ w, VfsPipe.queue q' w = VfsPipe.queue q w := by
      intro w
      unfold VfsPipe.queue
      rw [hrdrs, hwtrs]
    have hwr : io.write = write := by
      by_contra hne
      refine hnot (hall t ?_)
      have hqud := hb.queued
      rw [← hqu, show io.write = !write by revert hne; cases io.write <;> cases write <;> simp] at hqud
      unfold queue
      simp only [State.setPipe, update_self]
      exact hqud
    have hb' : (s.setPipe v (some q')).Blocks t io h v handle q' :=
      { hb with
        found := by simp only [State.setPipe, update_self]
        same := hid.trans hb.same
        queued := by rw [hqu]; exact hb.queued
        stuck := by
          have hold := hb.stuck
          rw [hwr] at hold ⊢
          exact hstk handle io.length hold }
    exact ⟨io, h, v, handle, _, hb'.woken hwok hnot⟩
  · exact ⟨io, h, v, handle, _, (hb.setPipe_of_ne heq (some q')).woken hwok hnot⟩

lemma Waits.vfsPipeIo {write : Bool}
    {chunk : List UInt8} (hw : s.Waits) (hq : s.pipe p = some q)
    (h : s.vfsPipeIo handle p q source length write = (.ok n, chunk, s')) : s'.Waits := by
  rcases vfsPipeIo_ok h with ⟨-, -, rfl, -⟩ | ⟨rfl, hpos, hn, -, rfl⟩ | ⟨rfl, hpos, hn, -, rfl⟩
  · exact hw
  · refine hw.move hq ?_ ?_ ?_ true fun handle length hstk => ?_
    · rfl
    · rfl
    · rfl
    -- there is even less room
    obtain ⟨hlen, hwr, hopen, hfull⟩ := hstk
    refine ⟨hlen, hwr, hopen, ?_⟩
    dsimp only
    rcases hfull with hfull | ⟨hatom, hfull⟩
    · exact .inl (by omega)
    · exact .inr ⟨hatom, by omega⟩
  · refine hw.move hq ?_ ?_ ?_ false fun handle length hstk => ?_
    · rfl
    · rfl
    · rfl
    -- nobody waited for bytes that were there
    obtain ⟨-, -, hused, -⟩ := hstk
    omega

lemma Keeps.ioPollWatch (hq : s.pipe p = some q) (write : Bool) (task : Task) (hne : u ≠ t) :
    Keeps s ((s.ioPollWatch p q write t).setTask t task) u := by
  refine ⟨?_, fun _ _ _ _ hget => hget, fun _ hd hh => ⟨hd, hh, rfl, rfl, rfl⟩, fun v r hv => ?_⟩
  · simp only [State.setTask, State.ioPollWatch, State.setPipe, update_of_ne hne]
  · by_cases heq : v = p
    · subst heq
      obtain rfl : q = r := Option.some.inj (hq.symm.trans hv)
      simp only [State.setTask, State.ioPollWatch, State.setPipe, update_self]
      refine ⟨_, rfl, ?_, fun w hw => ?_⟩
      · cases write <;> rfl
      · unfold VfsPipe.queue at hw ⊢
        cases w <;> cases write <;> simp_all
    · simp only [State.setTask, State.ioPollWatch, State.setPipe, update_of_ne heq]
      exact ⟨r, hv, rfl, fun _ h => h⟩

theorem Waits.vfsFdIo {around : Around} (hw : s.Waits)
    (hctx : (s.task t).context = some c) : (s.vfsFdIo t c io source around).2.Waits := by
  unfold State.vfsFdIo
  split
  · exact hw
  case h_2 h handle hfnd =>
    obtain ⟨h', hget, hh⟩ := Option.bind_eq_some_iff.mp hfnd
    obtain ⟨handle', hhd, heq⟩ := Option.map_eq_some_iff.mp hh
    obtain ⟨rfl, rfl⟩ := Prod.mk.inj heq
    split
    · split
      · exact hw
      · exact hw
    case h_2 p q hpipe =>
      obtain ⟨p', hend, hp⟩ := Option.bind_eq_some_iff.mp hpipe
      obtain ⟨q', hq, heq⟩ := Option.map_eq_some_iff.mp hp
      obtain ⟨rfl, rfl⟩ := Prod.mk.inj heq
      split
      · exact hw
      split
      · exact hw
      split
      case h_1 n chunk s' hok =>
        have haft : s'.Waits := hw.vfsPipeIo hq hok
        exact haft.keep fun _ _ => .of_eq rfl (fun _ _ => rfl) rfl rfl
      case h_2 e chunk s' herr =>
        obtain rfl := vfsPipeIo_error herr
        split
        · exact hw
        case isFalse hagain =>
          rw [not_or, not_not] at hagain
          obtain ⟨rfl, -⟩ := hagain
          split
          · exact hw
          split
          · exact hw
          have hstk : Stuck handle' q' io.length io.write := vfsPipeIo_again_iff.mp (by rw [herr])
          set q'' := if io.write then { q' with writers := t :: q'.writers } else { q' with readers := t :: q'.readers }
            with hq''
          have hbare : VfsPipe.bare q'' = VfsPipe.bare q' := by
            rw [hq'']
            split <;> rfl
          intro u hu
          by_cases heq : u = t
          · -- the call itself
            subst heq
            refine ⟨{ io with identity := q'.identity }, h', p', handle', q'', ⟨?_, ⟨c, ?_, hget⟩, hhd, hend, ?_, ?_, ?_, ?_⟩⟩
            · simp [State.setTask]
            · simpa [State.setTask] using hctx
            · simp only [State.setTask, ioPollWatch, State.setPipe, update_self]
              rfl
            · exact (VfsPipe.bare_eq hbare).1
            · rw [hq'']
              unfold VfsPipe.queue
              cases io.write <;> simp
            · exact hstk.congr rfl rfl hbare
          · have hu' : (s'.task u).waiting = true := by
              simpa only [State.setTask, ioPollWatch, State.setPipe, update_of_ne heq] using hu
            obtain ⟨io', v, r, hd, k, hb⟩ := hw u hu'
            obtain ⟨hd', k', hb'⟩ := hb.keep (Keeps.ioPollWatch hq io.write _ heq)
            exact ⟨io', v, r, hd', k', hb'⟩

/-! ### Opening -/

lemma Keeps.extend {handles : ℕ → Option VfsHandle} {pipes : ℕ → Option VfsPipe} {entries : List (Option ℕ)}
    (hents : ∀ descriptor h, (s.context c).entries.getD descriptor none = some h →
      entries.getD descriptor none = some h)
    (hhd : ∀ h handle, s.handle h = some handle → handles h = some handle)
    (hpipe : ∀ p q, s.pipe p = some q → pipes p = some q) :
    Keeps s { s with
      pipe := pipes, handle := handles, identitySequence := n
      context := update s.context c { s.context c with entries := entries } } t := by
  refine ⟨rfl, fun d _ descriptor h hget => ?_, fun h handle hh => ⟨handle, hhd h handle hh, rfl, rfl, rfl⟩,
    fun p q hq => ⟨q, hpipe p q hq, rfl, fun _ hmem => hmem⟩⟩
  unfold vfsFdGet at hget ⊢
  split at hget
  · cases hget
  case isFalse hmin =>
    rw [if_neg hmin]
    dsimp only
    by_cases heq : d = c
    · subst heq
      rw [update_self]
      exact hents descriptor h hget
    · rwa [update_of_ne heq]

lemma Keeps.grow :
    Keeps s (s.setContext c { s.context c with entries := (s.context c).entries ++ List.replicate n none }) t :=
  Keeps.extend (fun descriptor h hent => by rwa [getD_append_none]) (fun _ _ h => h) fun _ _ h => h

lemma getD_set_of_none {entries : List (Option ℕ)} {d : ℕ} (entry : Option ℕ)
    (hnone : entries.getD descriptor none = none) (hent : entries.getD d none = some h) :
    (entries.set descriptor entry).getD d none = some h := by
  have hne : descriptor ≠ d := by
    rintro rfl
    rw [hnone] at hent
    cases hent
  rwa [List.getD_eq_getElem?_getD, List.getElem?_set_ne hne, ← List.getD_eq_getElem?_getD]

lemma update_of_fresh {β : Type} {f : ℕ → Option β} {a i : ℕ} {x y : β} (hfr : f a = none) (hi : f i = some x) :
    update f a (some y) i = some x := by
  have hne : i ≠ a := by
    rintro rfl
    rw [hfr] at hi
    cases hi
  rwa [update_of_ne hne]

lemma Keeps.vfsFdPipe {memory : PipeMemory} (hs : s.Sound extra) (hc : c ∈ s.contexts) (nonblock : Bool)
    (hfr : s.freshMemory memory = true) : Keeps s (s.vfsFdPipe c nonblock memory) t := by
  have hlen := (hs.table c hc).1
  unfold State.vfsFdPipe
  dsimp only
  cases hfst : vfsFdReserve (s.context c).entries 3 memory.readTable with
  | mk entries readFd =>
    obtain ⟨⟨n, rfl⟩, hreadFd⟩ := vfsFdReserve_spec hlen hlen hfst
    dsimp only
    split
    case h_2 => exact .grow
    case h_1 _ _ readFd reader hrdr =>
      obtain ⟨hmin, hlt, hnone⟩ := hreadFd readFd rfl
      cases hsec : vfsFdReserve ((s.context c).entries ++ List.replicate n none) (readFd + 1) memory.writeTable with
      | mk entries' writeFd =>
        obtain ⟨⟨m, rfl⟩, hwriteFd⟩ := vfsFdReserve_spec (by omega) (by rw [List.length_append]; omega) hsec
        dsimp only
        split
        case h_2 =>
          rw [List.append_assoc, ← List.replicate_add]
          exact .grow
        case h_1 _ _ _ writeFd writer p hwrit hp =>
          obtain ⟨hmin', hlt', hnone'⟩ := hwriteFd writeFd rfl
          simp only [freshMemory, hrdr, hwrit, hp, Option.bind_some, Option.isNone_some, Bool.false_or,
            Bool.and_eq_true, Option.isNone_iff_eq_none, decide_eq_true_eq, ne_eq, Option.some.injEq] at hfr
          obtain ⟨⟨⟨hfree, hfree'⟩, hne⟩, hfreeP⟩ := hfr
          refine Keeps.extend (fun descriptor h hent => ?_) (fun h handle hh => ?_) fun v q hq => ?_
          · refine getD_set_of_none _ ?_ (getD_set_of_none _ ?_ ?_)
            · rw [List.getD_eq_getElem?_getD, List.getElem?_set_ne (by omega), ← List.getD_eq_getElem?_getD]
              exact hnone'
            · rw [getD_append_none]
              exact hnone
            · rw [getD_append_none, getD_append_none]
              exact hent
          · refine update_of_fresh ?_ (update_of_fresh hfree hh)
            rwa [update_of_ne (Ne.symm hne)]
          · exact update_of_fresh hfreeP hq

lemma Keeps.vfsFdOpen (hs : s.Sound extra) (hc : c ∈ s.contexts) (hfree : s.handle h = none)
    (read write nonblock memory : Bool) : Keeps s (s.vfsFdOpen c h read write nonblock memory) t := by
  have hlen := (hs.table c hc).1
  unfold State.vfsFdOpen
  dsimp only
  split
  case h_1 entries _ hresv =>
    obtain ⟨⟨n, rfl⟩, -⟩ := vfsFdReserve_spec hlen hlen hresv
    exact .grow
  case h_2 entries descriptor hresv =>
    obtain ⟨⟨n, rfl⟩, hdesc⟩ := vfsFdReserve_spec hlen hlen hresv
    refine Keeps.extend (fun d u hent => ?_) (fun u hd hu => update_of_fresh hfree hu) fun _ _ h => h
    refine getD_set_of_none _ (hdesc descriptor rfl).2.2 ?_
    rwa [getD_append_none]

/-! ### Every step -/

lemma Keeps.trans {s'' : State} (h : Keeps s s' t) (h' : Keeps s' s'' t) : Keeps s s'' t := by
  refine ⟨h'.task.trans h.task, fun c hc d u hget => ?_, fun u hd hu => ?_, fun p q hq => ?_⟩
  · exact h'.entry c (by rw [h.task]; exact hc) d u (h.entry c hc d u hget)
  · obtain ⟨hd', hu', hpipe, hread, hwr⟩ := h.handle u hd hu
    obtain ⟨hd'', hu'', hpipe', hread', hwr'⟩ := h'.handle u hd' hu'
    exact ⟨hd'', hu'', hpipe'.trans hpipe, hread'.trans hread, hwr'.trans hwr⟩
  · obtain ⟨q', hq', hbare, hmem⟩ := h.pipe p q hq
    obtain ⟨q'', hq'', hbare', hmem'⟩ := h'.pipe p q' hq'
    exact ⟨q'', hq'', hbare'.trans hbare, fun w hw => hmem' w (hmem w hw)⟩

lemma Keeps.setHandles {handles : ℕ → Option VfsHandle}
    (hsame : ∀ h handle, s.handle h = some handle → ∃ handle', handles h = some handle' ∧
      handle'.pipe = handle.pipe ∧ handle'.read = handle.read ∧ handle'.write = handle.write) :
    Keeps s { s with handle := handles } t :=
  ⟨rfl, fun _ _ _ _ h => h, hsame, fun _ q hq => ⟨q, hq, rfl, fun _ h => h⟩⟩

lemma Keeps.detach (hne : t ≠ u) : Keeps s (s.detach u) t := by
  refine ⟨rfl, fun _ _ _ _ h => h, fun _ handle hh => ⟨handle, hh, rfl, rfl, rfl⟩, fun p q hq => ?_⟩
  refine ⟨{ q with readers := q.readers.filter (· ≠ u), writers := q.writers.filter (· ≠ u) }, ?_, rfl, fun w hw => ?_⟩
  · show (s.pipe p).map _ = _
    rw [hq]
    rfl
  · unfold VfsPipe.queue at hw ⊢
    cases w <;> simp_all

lemma not_waiting_of_notMem (hs : s.Sound extra) (ht : t ∉ s.tasks) : (s.task t).waiting ≠ true := by
  rw [(hs.gone t ht).2.2]
  exact nofun

lemma Sound.context_of_waiting (hs : s.Sound extra) (ht : (s.task t).waiting = true)
    (hctx : (s.task t).context = some c) : c ∈ s.contexts := by
  have hmem : t ∈ s.tasks := by
    by_contra hnot
    exact not_waiting_of_notMem hs hnot ht
  obtain ⟨c', hc, hctx'⟩ := hs.member t hmem
  obtain rfl : c = c' := Option.some.inj (hctx.symm.trans hctx')
  exact hc

lemma Waits.closeAll {handles : List ℕ} (hw : s.Waits) (hs : s.Sound (handles ++ extra)) :
    (handles.foldl State.vfsClose s).Waits := by
  induction handles generalizing s with
  | nil => exact hw
  | cons h handles ih => exact ih (hw.vfsClose hs) hs.vfsClose

lemma Keeps.newTask {contexts tasks : Finset ℕ} {task : Task} {context : VfsContext} (hne : t ≠ u)
    (hc : (s.task t).context ≠ some c ∨ context.entries = (s.context c).entries) :
    Keeps s { s with
      contexts := contexts, tasks := tasks
      context := update s.context c context
      task := update s.task u task } t := by
  refine .of_eq (update_of_ne hne ..) (fun d hd => ?_) rfl rfl
  · dsimp only
    by_cases heq : d = c
    · subst heq
      rw [update_self]
      exact hc.resolve_left fun h => h hd
    · rw [update_of_ne heq]

lemma Keeps.retainAll (handles : List ℕ) (t : ℕ) : Keeps s (handles.foldl vfsHandleRetain s) t := by
  rw [foldl_vfsHandleRetain]
  refine Keeps.setHandles fun h handle hh => ?_
  exact ⟨{ handle with references := handle.references + handles.count h }, by rw [hh, Option.map_some], rfl, rfl, rfl⟩

lemma Waits.vfsContextRelease (hw : s.Waits) (hs : s.Sound extra) (ht : t ∈ s.tasks)
    (hctx : (s.task t).context = some c) :
    (State.vfsContextRelease { s.detach t with
      tasks := s.tasks.erase t, task := update s.task t ⟨none, none, false, false⟩ } c).Waits := by
  have hgone : ∀ (contexts : Finset ℕ) (context : VfsContext), context.entries = (s.context c).entries →
      Waits { s.detach t with
        contexts := contexts, tasks := s.tasks.erase t
        context := update s.context c context
        task := update s.task t ⟨none, none, false, false⟩ } := by
    intro contexts context hents
    refine hw.keep fun u hu => ?_
    have hne : u ≠ t := by
      rintro rfl
      simp at hu
    exact (Keeps.detach hne).trans (Keeps.newTask hne (.inr hents))
  have hsame : ∀ contexts : Finset ℕ, Waits { s.detach t with
      contexts := contexts, tasks := s.tasks.erase t
      task := update s.task t ⟨none, none, false, false⟩ } := by
    intro contexts
    have hback := hgone contexts (s.context c) rfl
    rwa [Function.update_eq_self] at hback
  unfold State.vfsContextRelease
  dsimp only
  split
  · exact hsame s.contexts
  split
  · exact hgone _ _ rfl
  case isFalse _ hlast =>
    exact (hsame (s.contexts.erase c)).closeAll ((hs.detach t).lastUser ht hctx (not_not.mp hlast))

/-- **Every step keeps what blocked calls wait for.** -/
theorem Waits.step {event : PipeEvent} (hw : s.Waits) (hs : s.Sound []) (hstep : s.step event = some s') :
    s'.Waits := by
  cases event with
  | create t c =>
    simp only [State.step] at hstep
    split at hstep
    case isTrue h =>
      cases hstep
      refine hw.keep fun u hu => ?_
      have hne : u ≠ t := by
        rintro rfl
        simp at hu
      have hu' : (s.task u).waiting = true := by simpa only [update_of_ne hne] using hu
      exact .newTask hne (.inl fun hctx => h.2 (hs.context_of_waiting hu' hctx))
    · cases hstep
  | fork t u d =>
    simp only [State.step] at hstep
    split at hstep
    · cases hstep
    case h_2 c hruns =>
      split at hstep
      case isTrue h =>
        cases hstep
        unfold vfsContextFork
        rw [foldl_vfsHandleRetain]
        refine hw.keep fun v hv => ?_
        have hne : v ≠ u := by
          rintro rfl
          simp at hv
        have hv' : (s.task v).waiting = true := by simpa only [update_of_ne hne] using hv
        have hret := Keeps.retainAll (s := s) (heldBy (s.context c).entries) v
        rw [foldl_vfsHandleRetain] at hret
        exact hret.trans (Keeps.newTask hne (.inl fun hctx => h.2 (hs.context_of_waiting hv' hctx)))
      · cases hstep
  | thread t u =>
    simp only [State.step] at hstep
    split at hstep
    · cases hstep
    case h_2 c hruns =>
      split at hstep
      case isTrue h =>
        cases hstep
        refine hw.keep fun v hv => ?_
        have hne : v ≠ u := by
          rintro rfl
          simp at hv
        exact .newTask hne (.inr rfl)
      · cases hstep
  | exit t =>
    simp only [State.step] at hstep
    split at hstep
    case isTrue ht =>
      split at hstep
      · cases hstep
      case h_2 c hctx =>
        cases hstep
        exact hw.vfsContextRelease hs ht hctx
    · cases hstep
  | pipe t nonblock memory =>
    simp only [State.step] at hstep
    split at hstep
    case isTrue hfr =>
      obtain ⟨c, hruns, rfl⟩ := Option.map_eq_some_iff.mp hstep
      have hc := (mem_of_runs hs hruns).2.1
      exact hw.keep fun _ _ => .vfsFdPipe hs hc nonblock hfr
    · cases hstep
  | open_ t h read write nonblock memory =>
    simp only [State.step] at hstep
    split at hstep
    case isTrue hfree =>
      obtain ⟨c, hruns, rfl⟩ := Option.map_eq_some_iff.mp hstep
      have hc := (mem_of_runs hs hruns).2.1
      exact hw.keep fun _ _ => .vfsFdOpen hs hc (by simpa using hfree) read write nonblock memory
    · cases hstep
  | close t descriptor =>
    obtain ⟨c, hruns, rfl⟩ := Option.map_eq_some_iff.mp hstep
    exact hw.vfsFdClose hs (mem_of_runs hs hruns).2.1
  | setFlags t descriptor nonblock =>
    obtain ⟨c, hruns, rfl⟩ := Option.map_eq_some_iff.mp hstep
    unfold setStatusFlags
    split
    · exact hw
    case h_2 h hget =>
      refine hw.keep fun u _ => Keeps.setHandles fun k handle hk => ?_
      by_cases heq : k = h
      · subst heq
        exact ⟨{ handle with nonblock := nonblock }, by rw [update_self, hk, Option.map_some], rfl, rfl, rfl⟩
      · exact ⟨handle, by rwa [update_of_ne heq], rfl, rfl, rfl⟩
  | io t descriptor length write source around =>
    obtain ⟨c, hruns, rfl⟩ := Option.map_eq_some_iff.mp hstep
    exact hw.vfsFdIo (mem_of_runs hs hruns).2.2.1
  | resume t interrupted source around =>
    simp only [State.step] at hstep
    split at hstep
    case h_1 io c hio hctx =>
      split at hstep
      · cases hstep
      case isFalse hnot =>
        have hclr : ((s.detach t).setTask t { s.task t with io := none }).Waits := by
          refine hw.keep fun u hu => ?_
          have hne : u ≠ t := by
            rintro rfl
            simp only [State.setTask, update_self] at hu
            exact hnot hu
          exact (Keeps.detach hne).trans (.of_eq (update_of_ne hne ..) (fun _ _ => rfl) rfl rfl)
        split at hstep
        · cases hstep
          exact hclr
        · cases hstep
          exact hclr.vfsFdIo (by simpa [State.setTask] using hctx)
    · cases hstep
  | wake t =>
    cases hstep
    exact hw.woken (Woken.taskRun s t)

end PlantOS.Pipe.State

/-! ## What pipes promise -/

namespace PlantOS.Pipe

open Lib

/-- A pass of `vfs_fd_io` that a step makes: the state that it starts in, and its arguments. -/
structure Pass where
  state : State
  task : ℕ
  context : ℕ
  io : Io
  source : ℕ → UInt8
  around : State.Around

namespace Pass

variable (pass : Pass)

def result : Option (Except IoError ℕ) × State :=
  pass.state.vfsFdIo pass.task pass.context pass.io pass.source pass.around

def pipe : Option (ℕ × VfsPipe) :=
  (pass.state.vfsFdGet pass.context pass.io.descriptor).bind fun h =>
    (pass.state.pipeOf h).bind fun p => (pass.state.pipe p).map (p, ·)

end Pass

namespace State

def passOf (s : State) : PipeEvent → Option Pass
  | .io t descriptor length write source around =>
    (s.runs t).map fun c => ⟨s, t, c, ⟨descriptor, length, write, 0⟩, source, around⟩
  | .resume t false source around =>
    match (s.task t).io, (s.task t).context with
    | some io, some c =>
      if (s.task t).waiting then none
      else some ⟨(s.detach t).setTask t { s.task t with io := none }, t, c, io, source, around⟩
    | _, _ => none
  | _ => none

def NoWriter (s : State) (p : ℕ) : Prop :=
  ∀ c ∈ s.contexts, ∀ descriptor h handle, s.vfsFdGet c descriptor = some h → s.handle h = some handle →
    handle.pipe = some p → handle.write = false

/-- What a pass through the pipe `q` does to what has gone in and come out. -/
def Logged (pass : Pass) (q : VfsPipe) : Prop :=
  let log := pass.state.log q.identity
  match pass.result.1 with
  | some (.ok n) => ∃ chunk : List UInt8, chunk.length = n ∧
    pass.result.2.log = Function.update pass.state.log q.identity
      (if pass.io.write then { log with accepted := log.accepted ++ [chunk] }
        else { log with returned := log.returned ++ [chunk] }) ∧
    (pass.io.write = true → chunk = (List.range n).map pass.source)
  | _ => pass.result.2.log = pass.state.log

/-- What pipes promise, for reads of the lengths in `asked` as far as the end of the file is concerned. -/
structure Contract (s : State) (asked : ℕ → Prop) : Prop where
  in_order : ∀ identity, (s.log identity).returned.flatten <+: (s.log identity).accepted.flatten
  no_loss : ∀ p q, s.pipe p = some q → q.used ≤ vfsPipeCapacity ∧ (s.log q.identity).accepted.flatten =
    (s.log q.identity).returned.flatten ++ Ring.content vfsPipeCapacity q.data q.head q.used
  logged : ∀ event pass p q, s.passOf event = some pass → pass.pipe = some (p, q) → Logged pass q
  atomic : ∀ event pass p q n, s.passOf event = some pass → pass.pipe = some (p, q) → pass.io.write = true →
    pass.io.length ≤ vfsPipeAtomic → pass.result.1 = some (.ok n) → n = pass.io.length
  at_end : ∀ event pass p q, s.passOf event = some pass → pass.pipe = some (p, q) → pass.io.write = false →
    asked pass.io.length → pass.result.1 = some (.ok 0) → q.used = 0 ∧ pass.state.NoWriter p
  blocked : ∀ t, (s.task t).waiting = true → ∃ io h p handle q, s.Blocks t io h p handle q ∧
    ∀ source, (s.vfsPipeIo handle p q source io.length io.write).1 = .error .again

/-! ### Every pass -/

variable {s : State} {pass : Pass} {p n : ℕ} {q : VfsPipe}

lemma result_cases (hpipe : pass.pipe = some (p, q)) :
    ((∃ e, pass.result.1 = some (.error e)) ∧ pass.result.2 = pass.state) ∨
      (pass.result.1 = none ∧ pass.result.2.log = pass.state.log) ∨
      ∃ handle n chunk s', pass.state.vfsPipeIo handle p q pass.source pass.io.length pass.io.write =
          (.ok n, chunk, s') ∧ pass.result = (some (.ok n), s'.record q.identity pass.io.write
            (if pass.io.write then (List.range n).map pass.source else chunk)) := by
  obtain ⟨h, hget, hp⟩ := Option.bind_eq_some_iff.mp hpipe
  obtain ⟨p', hend, hp⟩ := Option.bind_eq_some_iff.mp hp
  obtain ⟨handle, hhan, hend⟩ := Option.bind_eq_some_iff.mp hend
  obtain ⟨q', hq, heq⟩ := Option.map_eq_some_iff.mp hp
  obtain ⟨rfl, rfl⟩ := Prod.mk.inj heq
  unfold Pass.result vfsFdIo
  simp only [hget, hhan, hend, hq, Option.bind_some, Option.map_some]
  split
  · exact .inl ⟨⟨_, rfl⟩, rfl⟩
  split
  · exact .inl ⟨⟨_, rfl⟩, rfl⟩
  split
  case h_1 n chunk s' hok => exact .inr (.inr ⟨handle, n, chunk, s', hok, rfl⟩)
  case h_2 e chunk s' herr =>
    obtain rfl := vfsPipeIo_error herr
    split
    · exact .inl ⟨⟨_, rfl⟩, rfl⟩
    split
    · exact .inl ⟨⟨_, rfl⟩, rfl⟩
    split
    · exact .inl ⟨⟨_, rfl⟩, rfl⟩
    · exact .inr (.inl ⟨rfl, rfl⟩)

lemma vfsPipeIo_log {handle : VfsHandle} {source : ℕ → UInt8} {length : ℕ} {write : Bool} {chunk : List UInt8}
    {s' : State} (h : s.vfsPipeIo handle p q source length write = (.ok n, chunk, s')) :
    s'.log = s.log ∧ (write = false → chunk.length = n) := by
  rcases vfsPipeIo_ok h with ⟨rfl, rfl, rfl, -⟩ | ⟨rfl, -, -, -, rfl⟩ | ⟨rfl, -, -, rfl, rfl⟩
  · exact ⟨rfl, fun _ => rfl⟩
  · obtain ⟨woken, hw, -⟩ := ioPollWake_woken (s.setPipe p _) p false
    exact ⟨hw.log, nofun⟩
  · obtain ⟨woken, hw, -⟩ := ioPollWake_woken (s.setPipe p _) p true
    refine ⟨hw.log, fun _ => ?_⟩
    unfold Ring.front
    simp

lemma pass_logged (hpipe : pass.pipe = some (p, q)) : Logged pass q := by
  unfold Logged
  rcases result_cases hpipe with ⟨⟨e, herr⟩, hst⟩ | ⟨hnone, hlog⟩ | ⟨handle, n, chunk, s', hok, hres⟩
  · rw [herr, hst]
  · rw [hnone]
    exact hlog
  · obtain ⟨hlog, hlen⟩ := vfsPipeIo_log hok
    rw [hres]
    refine ⟨if pass.io.write then (List.range n).map pass.source else chunk, ?_, ?_, fun hwr => by rw [if_pos hwr]⟩
    · cases hwr : pass.io.write with
      | true => simp
      | false => simpa using hlen hwr
    · show Function.update s'.log _ _ = _
      rw [hlog]

lemma pass_atomic (hpipe : pass.pipe = some (p, q)) (hwr : pass.io.write = true)
    (hlen : pass.io.length ≤ vfsPipeAtomic) (hok : pass.result.1 = some (.ok n)) : n = pass.io.length := by
  rcases result_cases hpipe with ⟨⟨e, herr⟩, -⟩ | ⟨hnone, -⟩ | ⟨handle, n', chunk, s', hok', hres⟩
  · rw [herr] at hok
    cases hok
  · rw [hnone] at hok
    cases hok
  · rw [hres] at hok
    obtain rfl : n' = n := by simpa using hok
    rcases vfsPipeIo_ok hok' with ⟨rfl, -, -, hzero | ⟨hread, -⟩⟩ | ⟨-, -, -, hall, -⟩ | ⟨hread, -⟩
    · exact hzero.symm
    · rw [hread] at hwr
      cases hwr
    · exact hall hlen
    · rw [hread] at hwr
      cases hwr

lemma pass_at_end {extra : List ℕ} (hs : pass.state.Sound extra) (hpipe : pass.pipe = some (p, q))
    (hlen : pass.io.length ≠ 0) (hok : pass.result.1 = some (.ok 0)) :
    q.used = 0 ∧ pass.state.NoWriter p := by
  have hq : pass.state.pipe p = some q := by
    obtain ⟨h, hget, hp⟩ := Option.bind_eq_some_iff.mp hpipe
    obtain ⟨p', hend, hp⟩ := Option.bind_eq_some_iff.mp hp
    obtain ⟨q', hq, heq⟩ := Option.map_eq_some_iff.mp hp
    obtain ⟨rfl, rfl⟩ := Prod.mk.inj heq
    exact hq
  rcases result_cases hpipe with ⟨⟨e, herr⟩, -⟩ | ⟨hnone, -⟩ | ⟨handle, n', chunk, s', hok', hres⟩
  · rw [herr] at hok
    cases hok
  · rw [hnone] at hok
    cases hok
  · rw [hres] at hok
    obtain rfl : n' = 0 := by simpa using hok
    rcases vfsPipeIo_ok hok' with ⟨-, -, -, hzero | ⟨-, hused, hopen⟩⟩ | ⟨-, hpos, -⟩ | ⟨-, hpos, -⟩
    · exact absurd hzero hlen
    · refine ⟨hused, fun c _ descriptor h hd _ hhd hend => ?_⟩
      obtain ⟨hwr, q', hq', hends⟩ := hs.ends h hd p hhd hend
      obtain rfl : q = q' := Option.some.inj (hq.symm.trans hq')
      rw [hwr]
      by_contra hnot
      have hreadFlag : hd.read = false := by simpa using hnot
      rw [hreadFlag, if_neg (by simp), hopen] at hends
      cases hends
    · exact absurd hpos (lt_irrefl 0)
    · exact absurd hpos (lt_irrefl 0)

lemma Sound.passOf {event : PipeEvent} (hs : s.Sound []) (hpass : s.passOf event = some pass) :
    pass.state.Sound [] := by
  cases event with
  | io t descriptor length write source around =>
    obtain ⟨c, -, rfl⟩ := Option.map_eq_some_iff.mp hpass
    exact hs
  | resume t interrupted source around =>
    cases interrupted with
    | true => cases hpass
    | false =>
      simp only [State.passOf] at hpass
      split at hpass
      case h_1 io c hio hctx =>
        split at hpass
        · cases hpass
        cases hpass
        have ht : t ∈ s.tasks := by
          by_contra hnot
          rw [(hs.gone t hnot).1] at hctx
          cases hctx
        exact (hs.detach t).setTask _ ht rfl
      · cases hpass
  | create | fork | thread | exit | pipe | open_ | close | setFlags | wake => cases hpass

lemma sound_and_waits (hs : pipeSystem.Reachable s) : s.Sound [] ∧ s.Waits := by
  refine Lib.System.Reachable.invariant (P := fun s => s.Sound [] ∧ s.Waits) (fun s hinit => ?_)
    (fun s event s' hinv hstep => ⟨hinv.1.step hstep, hinv.2.step hinv.1 hstep⟩) hs
  refine ⟨.init hinit, fun t ht => ?_⟩
  rw [hinit.task] at ht
  cases ht

/-- **The bytes that come out of a pipe are those that went in, in order and none twice, small writes are whole, a read
that asks for something returns 0 at the end of the file only, and no call waits without need.** -/
theorem pipe_contract (hs : pipeSystem.Reachable s) : s.Contract (· ≠ 0) := by
  obtain ⟨hsound, hwaits⟩ := sound_and_waits hs
  refine ⟨hsound.prefix_, fun p q hq => ?_, fun _ pass p q _ hpipe => pass_logged hpipe,
    fun _ pass p q n _ hpipe hwrite hlength hok => pass_atomic hpipe hwrite hlength hok,
    fun _ pass p q hpass hpipe _ hasked hok => pass_at_end (hsound.passOf hpass) hpipe hasked hok,
    fun t ht => ?_⟩
  · exact (hsound.ring p q hq).2
  · obtain ⟨io, h, p, handle, q, hb⟩ := hwaits t ht
    exact ⟨io, h, p, handle, q, hb, fun source => vfsPipeIo_again_iff.mpr hb.stuck⟩

def nothing : State where
  pipe := fun _ => none
  handle := fun _ => none
  context := fun _ => ⟨[], 0⟩
  contexts := ∅
  task := fun _ => ⟨none, none, false, false⟩
  tasks := ∅
  identitySequence := 0
  log := fun _ => ⟨[], []⟩

def quiet : Around := ⟨false, true, false, .ok 0⟩

def threeBytes : State :=
  pipeSystem.replay nothing
    [.create 0 0, .pipe 0 false ⟨true, some 0, true, some 1, some 0⟩, .io 0 4 3 true (fun _ => 7) quiet]

lemma threeBytes_reachable : pipeSystem.Reachable threeBytes :=
  Lib.System.replay_reachable
    (.init (show nothing.Init from ⟨fun _ => rfl, fun _ => rfl, rfl, rfl, fun _ => rfl, fun _ => rfl⟩)) _

/-- Two bytes are read, and one is left. -/
theorem pipe_contract_twoBytes : ∃ s, pipeSystem.Reachable s ∧ s.log 1 = ⟨[[7, 7, 7]], [[7, 7]]⟩ ∧
    s.Contract (· ≠ 0) := by
  have hs := Lib.System.replay_reachable threeBytes_reachable [.io 0 3 2 false (fun _ => 0) quiet]
  exact ⟨_, hs, rfl, pipe_contract hs⟩

/-- **A read of no bytes returns 0 though the pipe is not empty.** -/
theorem empty_read_returns_zero : ∃ s, pipeSystem.Reachable s ∧ ¬s.Contract fun _ => True := by
  refine ⟨threeBytes, threeBytes_reachable, fun h => ?_⟩
  obtain ⟨q, hq⟩ : ∃ q, threeBytes.pipe 0 = some q ∧ q.used = 3 := ⟨_, rfl, rfl⟩
  have hzero := (h.at_end (.io 0 3 0 false (fun _ => 0) quiet) ⟨threeBytes, 0, 0, ⟨3, 0, false, 0⟩, fun _ => 0, quiet⟩ 0 q
    rfl (by show Option.map _ (threeBytes.pipe 0) = _; rw [hq.1]; rfl) rfl trivial rfl).1
  rw [hq.2] at hzero
  cases hzero

end State

end PlantOS.Pipe

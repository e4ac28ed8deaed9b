import PlantOS.Libp.Thread

/-!
# Who frees a handle

In every run of creations, ends, joins and detaches of threads, each handle has the view that its phase calls for. From
this follow who frees it, that nobody else touches it afterwards, and what a join returns.
-/

namespace PlantOS.Libp.Thread

open Lib
open Function (update update_of_ne update_self)

variable {s s' : ThreadState} {h h' k k' tid : ℕ} {c : Call} {p : CallPhase}

/-! ### The views of a state -/

/-- A slot, if the thread of `h` is in it -/
def Slot.heldBy (slot : Slot) (h : ℕ) : Option Slot := if slot.inUse = true ∧ slot.thread = some h then some slot else none

def ThreadState.view (s : ThreadState) (h : ℕ) : View where
  handle := s.handle h
  attrDetached := s.attrDetached h
  creator := s.creator h
  thread := s.thread h
  task := s.task h
  slot := (s.slot (s.task h)).heldBy h
  value := s.value h
  holder := (s.claim h).bind fun k => (s.call k).map Call.phase
  freed := s.freed h

attribute [local simp] ThreadState.view ThreadState.touch ThreadState.setHandle ThreadState.setState ThreadState.setCreator
  ThreadState.setThread ThreadState.setSlot ThreadState.setCall ThreadState.setClaim ThreadState.free

structure Handle.Keeps (handle new : Handle) : Prop where
  published : new.published = true
  tid : new.tid = handle.tid
  generation : new.generation = handle.generation
  taken : handle.state.taken = true → new.state.taken = true

lemma Handle.Keeps.refl {handle : Handle} (h : handle.published = true) : handle.Keeps handle := ⟨h, rfl, rfl, id⟩

structure CallOk (s : ThreadState) (k : ℕ) (c : Call) : Prop where
  published : (s.handle c.handle).published = true
  claim : c.phase.claimed = true ↔ s.claim c.handle = some k
  request : ∀ r ∈ c.phase.request, r = ((s.handle c.handle).tid, (s.handle c.handle).generation)
  self : c.self = some c.handle → c.phase = .deadlock
  late : c.phase.late = true → (s.handle c.handle).state.taken = true
  granted : c.phase ≠ .joinRefused

structure Inv (s : ThreadState) : Prop where
  views : ∀ h, (s.view h).Ok
  calls : ∀ k c, s.call k = some c → CallOk s k c
  claims : ∀ h k, s.claim h = some k → ∃ c, s.call k = some c ∧ c.handle = h
  clean : s.touched = false

lemma Inv.not_claimed (hs : Inv s) (hk : s.call k = none) : s.claim h ≠ some k := fun hcl => by
  obtain ⟨c, hc, -⟩ := hs.claims h k hcl
  rw [hk] at hc
  cases hc

lemma Slot.heldBy_none {slot : Slot} (hslot : slot.inUse = false ∨ slot.thread ≠ some h) : slot.heldBy h = none := by
  unfold Slot.heldBy
  rw [if_neg]
  rintro ⟨huse, hthr⟩
  rcases hslot with hunus | hoth
  · rw [hunus] at huse
    cases huse
  · exact hoth hthr

lemma Slot.of_heldBy {slot slot' : Slot} (hslot : slot.heldBy h = some slot') :
    slot' = slot ∧ slot.inUse = true ∧ slot.thread = some h := by
  unfold Slot.heldBy at hslot
  split at hslot
  · next hheld => exact ⟨(Option.some.inj hslot).symm, hheld⟩
  · cases hslot

lemma heldBy_update {slot : ℕ → Slot} {new : Slot} (j : ℕ) (hold : (slot tid).inUse = false ∨ (slot tid).thread ≠ some h')
    (hnew : new.inUse = false ∨ new.thread ≠ some h') : (update slot tid new j).heldBy h' = (slot j).heldBy h' := by
  by_cases hj : j = tid
  · rw [hj, update_self, Slot.heldBy_none hold, Slot.heldBy_none hnew]
  · rw [update_of_ne hj]

lemma Inv.local (hs : Inv s) (h : ℕ) {v : View} (hcall : s'.call = s.call) (hcl : s'.claim = s.claim)
    (hoth : ∀ h' ≠ h, s'.view h' = s.view h') (hview : s'.view h = v) (hv : v.Ok)
    (hkept : (s.handle h).published = true → (s.handle h).Keeps v.handle) (hcln : s'.touched = false) : Inv s' where
  views h' := by
    by_cases heq : h' = h
    · rwa [heq, hview]
    · rw [hoth h' heq]
      exact hs.views h'
  calls k c hc := by
    rw [hcall] at hc
    have hok := hs.calls k c hc
    by_cases heq : c.handle = h
    · have hhd : s'.handle c.handle = v.handle := by rw [heq, ← hview]; rfl
      have hsame := hkept (heq ▸ hok.published)
      refine ⟨by rw [hhd]; exact hsame.published, by rw [hcl]; exact hok.claim, fun r hr => ?_, hok.self,
        fun hlate => ?_, hok.granted⟩
      · rw [hhd, hsame.tid, hsame.generation, ← heq]
        exact hok.request r hr
      · rw [hhd]
        exact hsame.taken (heq ▸ hok.late hlate)
    · have hhd : s'.handle c.handle = s.handle c.handle := congrArg View.handle (hoth c.handle heq)
      exact ⟨by rw [hhd]; exact hok.published, by rw [hcl]; exact hok.claim, by rw [hhd]; exact hok.request,
        hok.self, by rw [hhd]; exact hok.late, hok.granted⟩
  claims h' k' hk := by
    rw [hcl] at hk
    rw [hcall]
    exact hs.claims h' k' hk
  clean := hcln

lemma Inv.untouched (hs : Inv s) (hfrd : s.freed h = []) : (s.touch h).touched = false := by
  rw [ThreadState.touch, hs.clean, hfrd]
  rfl

lemma nextGeneration_ne (generation : ℕ) : nextGeneration generation ≠ 0 := by
  unfold nextGeneration
  split
  · exact Nat.one_ne_zero
  · assumption

/-! ### The creator -/

lemma Inv.allocate (hs : Inv s) (hc : s.creator h = .absent) (detached : Bool)
    (hstep : s.step (.allocate h detached) = some s') : Inv s' := by
  rw [ThreadState.step, if_pos hc] at hstep
  cases hstep
  refine hs.local h rfl rfl (fun h' hne => ?_) ?_ ((hs.views h).allocate hc detached) (fun hpub => ?_) hs.clean
  · simp [hne]
  · simp
  · have := (hs.views h).published.mp hpub
    simp [hc] at this

lemma Inv.create (hs : Inv s) {kernel : Option ℕ} (hstep : s.createStep h kernel = some s') : Inv s' := by
  have hv := hs.views h
  have hunp (hc : s.creator h ≠ .published) (hc' : s.creator h ≠ .returned) : (s.handle h).published = false :=
    Bool.eq_false_iff.mpr fun hpub => (hv.published.mp hpub).elim hc hc'
  unfold ThreadState.createStep at hstep
  split at hstep
  · next hc =>
    have hnot := hunp (by simp [hc]) (by simp [hc])
    have hfrd : s.freed h = [] := hv.freed_creator hnot (by simp [hc])
    split at hstep
    · cases hstep
      refine hs.local h rfl rfl (fun h' hne => ?_) ?_ (hv.create_fails hc) (fun h => ?_) (hs.untouched hfrd)
      · simp [hne]
      · simp
      · rw [hnot] at h
        cases h
    · next tid =>
      split at hstep
      · cases hstep
      · next huse =>
        cases hstep
        have hnew := @View.Ok.create _ hv hc tid ((s.slot tid).create h (!s.attrDetached h)) rfl rfl (nextGeneration_ne _)
        refine hs.local h rfl rfl (fun h' hne => ?_) ?_ hnew (fun h => ?_) hs.clean
        · have hkeep : (update s.slot tid ((s.slot tid).create h (!s.attrDetached h)) (s.task h')).heldBy h' = _ :=
            heldBy_update (s.task h') (.inl (by simpa using huse)) (.inr fun heq => hne (Option.some.inj heq).symm)
          simp [hne, hkeep]
        · simp [Slot.heldBy, Slot.create]
        · rw [hnot] at h
          cases h
  · next tid generation hc =>
    have hnot := hunp (by simp [hc]) (by simp [hc])
    cases hstep
    refine hs.local h rfl rfl (fun h' hne => ?_) ?_ (hv.store hc) (fun h => ?_)
      (hs.untouched (hv.freed_creator hnot (by simp [hc])))
    · simp [hne]
    · simp
    · rw [hnot] at h
      cases h
  · next hc =>
    have hnot := hunp (by simp [hc]) (by simp [hc])
    cases hstep
    refine hs.local h rfl rfl (fun h' hne => ?_) ?_ (hv.publish hc) (fun h => ?_)
      (hs.untouched (hv.freed_creator hnot (by simp [hc])))
    · simp [hne]
    · simp
    · rw [hnot] at h
      cases h
  · next hc =>
    cases hstep
    refine hs.local h rfl rfl (fun h' hne => ?_) ?_ (hv.create_returns hc) Handle.Keeps.refl hs.clean
    · simp [hne]
    · simp
  · cases hstep

/-! ### The thread -/

lemma heldBy_exit (slot : Slot) (h : ℕ) : slot.exit.heldBy h = View.exitSlot (slot.heldBy h) := by
  unfold Slot.exit Slot.heldBy View.exitSlot Slot.release
  by_cases hheld : slot.inUse = true ∧ slot.thread = some h <;> cases hjoin : slot.joinable <;> simp [hheld, hjoin]

lemma Inv.thread (hs : Inv s) {value : ℕ} (hstep : s.threadStep h value = some s') : Inv s' := by
  have hv := hs.views h
  unfold ThreadState.threadStep at hstep
  have hoth (phase : ThreadPhase) : ∀ h' ≠ h, ((s.touch h).setThread h phase).view h' = s.view h' := fun h' hne => by
    simp [hne]
  have hhere (phase : ThreadPhase) : ((s.touch h).setThread h phase).view h = { s.view h with thread := phase } := by
    simp
  split at hstep
  · next ht =>
    have hfrd : s.freed h = [] := hv.freed_thread (by simp [ht]) (by simp [ht]; rfl)
    cases hstep
    split
    · next hpub =>
      exact hs.local h rfl rfl (hoth .running) (hhere .running)
        (hv.move hpub nofun (by simp [ht]; rfl) (by simp [ht]; rfl)
          (by simp [ht]; rfl) (by simp [ht]; rfl))
        Handle.Keeps.refl (hs.untouched hfrd)
    · exact hs.local h rfl rfl (fun _ _ => rfl) rfl hv Handle.Keeps.refl (hs.untouched hfrd)
  · next ht =>
    have hfrd : s.freed h = [] := hv.freed_thread (by simp [ht]) (by simp [ht]; rfl)
    cases hstep
    refine hs.local h rfl rfl (fun h' hne => ?_) ?_ (hv.exit ht value) (fun h => ⟨h, rfl, rfl, id⟩) (hs.untouched hfrd)
    · simp [hne]
    · simp
  · next ht =>
    have hfrd : s.freed h = [] := hv.freed_thread (by simp [ht]) (by simp [ht]; rfl)
    cases hstep
    rw [if_neg (by rw [show (s.handle h).state.main = false from hv.plain.2]; simp)]
    exact hs.local h rfl rfl (hoth .checked) (hhere .checked)
      (hv.move (hv.published_of_running (by simp [ht]) (by simp [ht])) nofun
        (by simp [ht]; rfl) (by simp [ht]; rfl) (by simp [ht]; rfl)
        (by simp [ht]; rfl))
      Handle.Keeps.refl (hs.untouched hfrd)
  · next ht =>
    have hfrd : s.freed h = [] := hv.freed_thread (by simp [ht]) (by simp [ht]; rfl)
    cases hstep
    refine hs.local h rfl rfl (fun h' hne => ?_) ?_ (hv.mark ht) (fun h => ⟨h, rfl, rfl, id⟩) (hs.untouched hfrd)
    · simp [hne]
    · simp
  · next previous ht =>
    have hleav := hv.leave ht
    cases hstep
    split
    · next hfree =>
      rw [if_pos hfree] at hleav
      refine hs.local h rfl rfl (fun h' hne => ?_) ?_ hleav Handle.Keeps.refl ?_
      · simp [hne]
      · simp
      · refine hs.untouched (List.eq_nil_of_length_eq_zero ?_)
        have hle := hleav.freed_le
        rw [List.length_cons] at hle
        exact Nat.le_zero.mp (Nat.le_of_succ_le_succ hle)
    · next hkeep =>
      rw [if_neg hkeep] at hleav
      refine hs.local h rfl rfl (fun h' hne => ?_) ?_ hleav Handle.Keeps.refl hs.clean
      · simp [hne]
      · simp
  · next previous ht =>
    cases hstep
    refine hs.local h rfl rfl (fun h' hne => ?_) ?_ (hv.gone ht) Handle.Keeps.refl hs.clean
    · obtain ⟨slot, hslot, -⟩ := hv.alive (by simp [ht]) (by simp [ht]; rfl)
      obtain ⟨-, -, hthr⟩ := Slot.of_heldBy hslot
      have hnot : (s.slot (s.task h)).thread ≠ some h' := by
        rw [hthr]
        exact fun heq => hne (Option.some.inj heq).symm
      have hexit : (s.slot (s.task h)).exit.thread = (s.slot (s.task h)).thread := by
        unfold Slot.exit
        split <;> rfl
      have hkeep : (update s.slot (s.task h) (s.slot (s.task h)).exit (s.task h')).heldBy h' = _ :=
        heldBy_update (s.task h') (.inr hnot) (.inr (hexit ▸ hnot))
      simp [hne, hkeep]
    · simp [heldBy_exit]
  · cases hstep

/-! ### The calls -/

lemma Inv.holder_of_ne (hs : Inv s) (hc : s.call k = some c) (hne : h' ≠ c.handle) (call : Call) :
    ((s.claim h').bind fun j => (update s.call k (some call) j).map Call.phase) =
      (s.claim h').bind fun j => (s.call j).map Call.phase := by
  cases hcl : s.claim h' with
  | none => rfl
  | some j =>
    have hj : j ≠ k := fun heq => by
      obtain ⟨c', hc', hhd⟩ := hs.claims h' j hcl
      rw [heq, hc] at hc'
      exact hne (hhd.symm.trans (congrArg Call.handle (Option.some.inj hc').symm))
    rw [Option.bind_some, Option.bind_some, update_of_ne hj]

/-- A step of a call: it goes to the phase `p`, and the rest of the state is `s₁` then. -/
lemma Inv.advance (hs : Inv s) (hc : s.call k = some c) {s₁ : ThreadState} {v : View} (hcall : s₁.call = s.call)
    (hcls : ∀ h' ≠ c.handle, s₁.claim h' = s.claim h')
    (hcl : s₁.claim c.handle = s.claim c.handle ∨ (s.claim c.handle = none ∧ s₁.claim c.handle = some k))
    (hp : p.claimed = true ↔ s₁.claim c.handle = some k)
    (hoth : ∀ h' ≠ c.handle, { s₁.view h' with holder := none } = { s.view h' with holder := none })
    (hview : (s₁.setCall k { c with phase := p }).view c.handle = v) (hv : v.Ok)
    (hkept : (s.handle c.handle).Keeps v.handle) (hlate : p.late = true → v.handle.state.taken = true)
    (hreq : ∀ r ∈ p.request, r = ((s.handle c.handle).tid, (s.handle c.handle).generation))
    (hgran : p ≠ .joinRefused) (hself : c.self ≠ some c.handle) (hcln : s₁.touched = false) :
    Inv (s₁.setCall k { c with phase := p }) := by
  have hhd : (s₁.setCall k { c with phase := p }).handle c.handle = v.handle := by rw [← hview]; rfl
  have hhds : ∀ h' ≠ c.handle, s₁.handle h' = s.handle h' := fun h' hne => by
    have heq := congrArg View.handle (hoth h' hne)
    exact heq
  refine ⟨fun h' => ?_, fun j c' hc' => ?_, fun h' j hj => ?_, hcln⟩
  · by_cases heq : h' = c.handle
    · rwa [heq, hview]
    · have hsame : (s₁.setCall k { c with phase := p }).view h' = s.view h' := by
        have hhold := hs.holder_of_ne hc heq { c with phase := p }
        have hrest := hoth h' heq
        simp only [ThreadState.view, View.mk.injEq, true_and] at hrest
        simp only [ThreadState.view, ThreadState.setCall, hcall, hcls h' heq, hhold, View.mk.injEq, true_and]
        exact hrest
      rw [hsame]
      exact hs.views h'
  · have hc'' : update s₁.call k (some { c with phase := p }) j = some c' := hc'
    by_cases hjk : j = k
    · subst hjk
      rw [update_self] at hc''
      cases hc''
      refine ⟨?_, hp, fun r hr => ?_, fun h => absurd h hself, fun h => ?_, hgran⟩
      · show ((s₁.setCall j { c with phase := p }).handle c.handle).published = true
        rw [hhd]
        exact hkept.published
      · show r = (((s₁.setCall j { c with phase := p }).handle c.handle).tid, _)
        rw [hreq r hr, ← hkept.tid, ← hkept.generation, ← hhd]
      · show ((s₁.setCall j { c with phase := p }).handle c.handle).state.taken = true
        rw [hhd]
        exact hlate h
    · rw [update_of_ne hjk, hcall] at hc''
      have hok := hs.calls j c' hc''
      by_cases heq : c'.handle = c.handle
      · refine ⟨?_, ?_, fun r hr => ?_, hok.self, fun h => ?_, hok.granted⟩
        · rw [heq, hhd]
          exact hkept.published
        · rw [hok.claim, heq]
          rcases hcl with hsame | ⟨hnone, hsome⟩
          · rw [← hsame]
            rfl
          · rw [hnone]
            exact iff_of_false nofun fun h => hjk (Option.some.inj (h.symm.trans hsome))
        · rw [heq, hhd, hkept.tid, hkept.generation, ← heq]
          exact hok.request r hr
        · rw [heq, hhd]
          exact hkept.taken (heq ▸ hok.late h)
      · have hsame : (s₁.setCall k { c with phase := p }).handle c'.handle = s.handle c'.handle := hhds c'.handle heq
        refine ⟨by rw [hsame]; exact hok.published, ?_, by rw [hsame]; exact hok.request, hok.self,
          by rw [hsame]; exact hok.late, hok.granted⟩
        rw [hok.claim, ← hcls c'.handle heq]
        rfl
  · have hj' : s₁.claim h' = some j := hj
    show ∃ c', update s₁.call k (some { c with phase := p }) j = some c' ∧ c'.handle = h'
    by_cases hjk : j = k
    · refine ⟨_, by rw [hjk, update_self], ?_⟩
      by_contra hne
      rw [hcls h' (Ne.symm hne)] at hj'
      obtain ⟨c', hc', hhd'⟩ := hs.claims h' j hj'
      rw [hjk, hc] at hc'
      cases hc'
      exact hne hhd'
    · rw [update_of_ne hjk, hcall]
      refine hs.claims h' j ?_
      by_cases heq : h' = c.handle
      · rcases hcl with hsame | ⟨-, hsome⟩
        · rw [heq, ← hsame, ← heq]
          exact hj'
        · rw [heq, hsome] at hj'
          exact absurd (Option.some.inj hj').symm hjk
      · rw [← hcls h' heq]
        exact hj'

lemma touch_eq (hfrd : s.freed h = []) : s.touch h = s := by
  rw [ThreadState.touch, hfrd]
  simp

lemma view_of_unclaimed {call : Call} (hcl : s.claim h ≠ some k) : (s.setCall k call).view h = s.view h := by
  have hhold : ((s.claim h).bind fun j => (update s.call k (some call) j).map Call.phase) =
      (s.claim h).bind fun j => (s.call j).map Call.phase := by
    cases hj : s.claim h with
    | none => rfl
    | some j =>
      have hne : j ≠ k := fun heq => hcl (by rw [hj, heq])
      rw [Option.bind_some, Option.bind_some, update_of_ne hne]
  simp only [ThreadState.view, ThreadState.setCall, hhold]

lemma view_of_claimed {call : Call} (hcl : s.claim h = some k) :
    (s.setCall k call).view h = { s.view h with holder := some call.phase } := by
  simp [hcl]

lemma Inv.holder_eq (hs : Inv s) (hc : s.call k = some c) (hcld : c.phase.claimed = true) :
    s.claim c.handle = some k ∧ (s.view c.handle).holder = some c.phase := by
  have hcl := (hs.calls k c hc).claim.mp hcld
  refine ⟨hcl, ?_⟩
  simp [hcl, hc]

lemma Inv.call_before (hs : Inv s) (hc : s.call k = some c) (p : CallPhase) (hcld : c.phase.claimed = false)
    (hdead : c.phase ≠ .deadlock) (hp : p.claimed = false)
    (hreq : ∀ r ∈ p.request, r = ((s.handle c.handle).tid, (s.handle c.handle).generation))
    (hlate : p.late = true → (s.handle c.handle).state.taken = true) (hgran : p ≠ .joinRefused) :
    Inv (s.setCall k { c with phase := p }) := by
  have hok := hs.calls k c hc
  have hcl : s.claim c.handle ≠ some k := fun h => by
    rw [hok.claim.mpr h] at hcld
    cases hcld
  refine hs.advance hc rfl (fun _ _ => rfl) (.inl rfl) ?_ (fun _ _ => rfl) (view_of_unclaimed hcl) (hs.views c.handle)
    (Handle.Keeps.refl hok.published) hlate hreq hgran (fun h => hdead (hok.self h)) hs.clean
  rw [hp]
  exact iff_of_false nofun hcl

lemma Inv.call_after (hs : Inv s) (hc : s.call k = some c) (hcld : c.phase.claimed = true) (hp : p.claimed = true)
    {s₁ : ThreadState} {v : View} (hcall : s₁.call = s.call) (hcls : s₁.claim = s.claim)
    (hoth : ∀ h' ≠ c.handle, { s₁.view h' with holder := none } = { s.view h' with holder := none })
    (hview : { s₁.view c.handle with holder := some p } = v) (hv : v.Ok) (hhd : s₁.handle = s.handle)
    (hcln : s₁.touched = false) : Inv (s₁.setCall k { c with phase := p }) := by
  have hok := hs.calls k c hc
  obtain ⟨hcl, -⟩ := hs.holder_eq hc hcld
  have hvhan : v.handle = s.handle c.handle := by rw [← hview, ← hhd]; rfl
  have hhold : v.holder = some p := by rw [← hview]
  refine hs.advance hc hcall (fun _ _ => by rw [hcls]) (.inl (by rw [hcls])) ?_ hoth ?_ hv ?_ (fun h => ?_)
    (fun r hr => ?_) ?_ (fun h => ?_) hcln
  · rw [hp, hcls]
    exact iff_of_true rfl hcl
  · rw [view_of_claimed (by rw [hcls]; exact hcl)]
    exact hview
  · rw [hvhan]
    exact Handle.Keeps.refl hok.published
  · rw [CallPhase.late_of_claimed hp] at h
    cases h
  · rw [hv.request p hhold r hr, hvhan]
  · rintro rfl
    cases hp
  · rw [hok.self h] at hcld
    cases hcld

lemma Inv.claim_none (hs : Inv s) (hhold : (s.view h).holder = none) : s.claim h = none := by
  cases hj : s.claim h with
  | none => rfl
  | some j =>
    obtain ⟨c, hc, -⟩ := hs.claims h j hj
    simp [hj, hc] at hhold

lemma Inv.call_claims (hs : Inv s) (hc : s.call k = some c) (hdead : c.phase ≠ .deadlock) (hp : p.claimed = true)
    (state : Flags)
    (htk : (s.handle c.handle).state.taken = false)
    (hreq : ∀ r ∈ p.request, r = ((s.handle c.handle).tid, (s.handle c.handle).generation))
    (hv : View.Ok { s.view c.handle with handle := { s.handle c.handle with state }, holder := some p }) :
    Inv (((s.setState c.handle state).setClaim c.handle (some k)).setCall k { c with phase := p }) := by
  have hnone := hs.claim_none ((hs.views c.handle).unclaimed htk).2
  refine hs.advance hc rfl (fun h' hne => update_of_ne hne _ _) (.inr ⟨hnone, update_self ..⟩)
    (iff_of_true hp (update_self ..)) (fun h' hne => ?_) ?_ hv
    ⟨(hs.calls k c hc).published, rfl, rfl, fun h => by rw [htk] at h; cases h⟩
    (fun h => by rw [CallPhase.late_of_claimed hp] at h; cases h) hreq
    (fun h => by rw [h] at hp; cases hp) (fun h => hdead ((hs.calls k c hc).self h)) hs.clean
  · simp [hne]
  · simp

lemma Inv.slot_of_request (hs : Inv s) (hc : s.call k = some c) {tid generation : ℕ}
    (hcld : c.phase.claimed = true) (hreq : c.phase.request = some (tid, generation))
    (hask : c.phase.asked = false) (hreap : c.phase.reaped = false) : tid = s.task c.handle ∧
    (s.view c.handle).slot = some (s.slot tid) ∧
      (s.slot tid).inUse = true ∧ (s.slot tid).thread = some c.handle ∧ (s.slot tid).generation = generation ∧
      generation ≠ 0 ∧ (s.slot tid).joinable = true := by
  obtain ⟨-, hhold⟩ := hs.holder_eq hc hcld
  obtain ⟨htid, slot, hslot, hgen, hne, hjoin⟩ :=
    (hs.views c.handle).slot_of_request hhold hreq hask hreap
  obtain ⟨heq, huse, hthr⟩ := Slot.of_heldBy hslot
  rw [show s.task c.handle = tid from htid.symm] at heq huse hthr
  subst heq
  exact ⟨htid, hslot, huse, hthr, hgen, hne, hjoin⟩

lemma view_setSlot_of_ne (slot : Slot) (hthr : (s.slot tid).thread = some h) (hslot : slot.thread = some h)
    (hne : h' ≠ h) : (s.setSlot tid slot).view h' = s.view h' := by
  have hkeep : (update s.slot tid slot (s.task h')).heldBy h' = _ :=
    heldBy_update (s.task h') (.inr fun heq => hne (Option.some.inj (heq.symm.trans hthr)))
      (.inr fun heq => hne (Option.some.inj (heq.symm.trans hslot)))
  simp [hkeep]

lemma Inv.call_waits (hs : Inv s) (hc : s.call k = some c) {tid generation : ℕ}
    (hph : c.phase = .joinWaits tid generation) (hstep : s.callStep k c = some s') : Inv s' := by
  obtain ⟨htid, hslot, huse, hthr, hgen, hne, hjoin⟩ := hs.slot_of_request hc
    (by rw [hph]; rfl) (by rw [hph]; rfl) (by rw [hph]; rfl) (by rw [hph]; rfl)
  have hself : c.self ≠ some c.handle := fun h => by
    rw [(hs.calls k c hc).self h] at hph
    cases hph
  have hcan : (s.slot tid).canJoin c.self = true := by
    simp [Slot.canJoin, huse, hthr, hjoin, Ne.symm hself]
  unfold ThreadState.callStep at hstep
  rw [hph] at hstep
  dsimp only at hstep
  rw [Slot.wait, if_neg (by simp [hne, hcan, hgen])] at hstep
  by_cases hdied : (s.slot tid).died = true
  · obtain ⟨-, hhold⟩ := hs.holder_eq hc (by rw [hph]; rfl)
    rw [hph] at hhold
    rw [if_pos hdied] at hstep
    cases hstep
    refine hs.call_after hc (by rw [hph]; rfl) rfl rfl rfl (fun h' hne => ?_) ?_
      ((hs.views c.handle).join_returns hhold hslot hdied) rfl hs.clean
    · rw [view_setSlot_of_ne (s.slot tid).release hthr hthr hne]
    · simp [← htid, Slot.heldBy, Slot.release]
  · rw [if_neg hdied] at hstep
    cases hstep
    rwa [ThreadState.setSlot, Function.update_eq_self]

lemma Inv.call_asks (hs : Inv s) (hc : s.call k = some c) {tid generation : ℕ} {state : Flags}
    (hph : c.phase = .detachClaimed tid generation state) (hstep : s.callStep k c = some s') : Inv s' := by
  obtain ⟨htid, hslot, huse, hthr, hgen, hne, hjoin⟩ := hs.slot_of_request hc
    (by rw [hph]; rfl) (by rw [hph]; rfl) (by rw [hph]; rfl) (by rw [hph]; rfl)
  obtain ⟨-, hhold⟩ := hs.holder_eq hc (by rw [hph]; rfl)
  rw [hph] at hhold
  have hasks := (hs.views c.handle).detach_asks hhold hslot
  unfold ThreadState.callStep at hstep
  rw [hph] at hstep
  dsimp only at hstep
  rw [Slot.detach, if_neg (by simp [hne, huse, hthr, hgen, hjoin])] at hstep
  by_cases hdied : (s.slot tid).died = true
  · rw [if_pos hdied] at hstep hasks
    cases hstep
    refine hs.call_after hc (by rw [hph]; rfl) rfl rfl rfl (fun h' hne => ?_) ?_ hasks rfl hs.clean
    · dsimp only
      rw [view_setSlot_of_ne (Slot.release { s.slot tid with joinable := false }) hthr hthr hne]
    · simp [← htid, Slot.heldBy, Slot.release]
  · rw [if_neg hdied] at hstep hasks
    cases hstep
    refine hs.call_after hc (by rw [hph]; rfl) rfl rfl rfl (fun h' hne => ?_) ?_ hasks rfl hs.clean
    · dsimp only
      rw [view_setSlot_of_ne { s.slot tid with joinable := false } hthr hthr hne]
    · simp [← htid, Slot.heldBy, huse, hthr]

lemma Inv.call (hs : Inv s) (hc : s.call k = some c) (hint : c.phase.claimed = false → s.freed c.handle = [])
    (hstep : s.callStep k c = some s') : Inv s' := by
  have hok := hs.calls k c hc
  have hv := hs.views c.handle
  have hstep' := hstep
  unfold ThreadState.callStep at hstep
  dsimp only at hstep
  split at hstep
  · next hph =>
    rw [touch_eq (hint (by rw [hph]; rfl))] at hstep
    cases hstep
    exact hs.call_before hc (.joinLoaded (s.handle c.handle).state) (by rw [hph]; rfl) (by simp [hph]) rfl
      (by intros; contradiction) id (by rintro ⟨⟩)
  · next state hph =>
    have hfrd := hint (by rw [hph]; rfl)
    rw [touch_eq hfrd] at hstep
    split at hstep
    · next htk =>
      cases hstep
      exact hs.call_before hc .invalid (by rw [hph]; rfl) (by simp [hph]) rfl (by intros; contradiction)
        (fun _ => hok.late (by rw [hph]; exact htk)) (by rintro ⟨⟩)
    · next htk =>
      split at hstep
      · next hst =>
        subst hst
        cases hstep
        have hfree : (s.handle c.handle).state.taken = false := by simpa using htk
        exact hs.call_claims hc (by simp [hph]) rfl _ hfree (by intros; contradiction)
          (hv.claim_join hok.published hfree)
      · cases hstep
        exact hs.call_before hc (.joinLoaded (s.handle c.handle).state) (by rw [hph]; rfl)
          (by simp [hph]) rfl (by intros; contradiction)
          id (by rintro ⟨⟩)
  · next hph =>
    obtain ⟨hcl, hhold⟩ := hs.holder_eq hc (by rw [hph]; rfl)
    rw [hph] at hhold
    rw [touch_eq (hv.freed_holder hhold (by intros; contradiction) (by rintro _ ⟨⟩) (by simp))] at hstep
    cases hstep
    exact hs.call_after hc (by rw [hph]; rfl) rfl rfl rfl (fun _ _ => rfl) rfl (hv.join_waits hhold) rfl hs.clean
  · next tid generation hph => exact hs.call_waits hc hph hstep'
  · next hph => exact absurd hph hok.granted
  · next hph =>
    obtain ⟨hcl, hhold⟩ := hs.holder_eq hc (by rw [hph]; rfl)
    rw [hph] at hhold
    rw [touch_eq (hv.freed_holder hhold (by intros; contradiction) (by rintro _ ⟨⟩) (by simp))] at hstep
    cases hstep
    split
    · exact hs.call_after hc (by rw [hph]; rfl) rfl rfl rfl (fun _ _ => rfl) rfl
        (hv.join_read hhold (by simp)) rfl hs.clean
    · exact hs.call_after hc (by rw [hph]; rfl) rfl rfl rfl (fun _ _ => rfl) rfl
        (hv.join_read hhold (by intros; contradiction)) rfl hs.clean
  · next value hph =>
    obtain ⟨hcl, hhold⟩ := hs.holder_eq hc (by rw [hph]; rfl)
    rw [hph] at hhold
    have hfrd : s.freed c.handle = [] := hv.freed_holder hhold (by intros; contradiction) (by rintro _ ⟨⟩) (by simp)
    cases hstep
    rw [ThreadState.free, touch_eq hfrd]
    refine hs.call_after hc (by rw [hph]; rfl) rfl rfl rfl (fun h' hne => ?_) ?_ (hv.joined hhold) rfl hs.clean
    · simp [hne]
    · simp
  · next hph =>
    rw [touch_eq (hint (by rw [hph]; rfl))] at hstep
    cases hstep
    exact hs.call_before hc (.detachRequested (s.handle c.handle).tid (s.handle c.handle).generation)
      (by rw [hph]; rfl) (by simp [hph]) rfl (by simp [CallPhase.request]) (by intros; contradiction) (by rintro ⟨⟩)
  · next tid generation hph =>
    have hreq := hok.request
    rw [hph] at hreq
    rw [touch_eq (hint (by rw [hph]; rfl))] at hstep
    cases hstep
    exact hs.call_before hc (.detachLoaded tid generation (s.handle c.handle).state) (by rw [hph]; rfl)
      (by simp [hph]) rfl hreq id (by rintro ⟨⟩)
  · next tid generation state hph =>
    have hfrd := hint (by rw [hph]; rfl)
    have hreq := hok.request
    rw [hph] at hreq
    rw [touch_eq hfrd] at hstep
    split at hstep
    · next htk =>
      cases hstep
      exact hs.call_before hc .invalid (by rw [hph]; rfl) (by simp [hph]) rfl (by intros; contradiction)
        (fun _ => hok.late (by rw [hph]; exact htk)) (by rintro ⟨⟩)
    · next htk =>
      split at hstep
      · next hst =>
        subst hst
        cases hstep
        have hfree : (s.handle c.handle).state.taken = false := by simpa using htk
        have hr := Prod.mk.inj (hreq (tid, generation) rfl)
        refine hs.call_claims hc (by simp [hph]) rfl _ hfree hreq ?_
        rw [hr.1, hr.2]
        exact hv.claim_detach hok.published hfree
      · cases hstep
        exact hs.call_before hc (.detachLoaded tid generation (s.handle c.handle).state) (by rw [hph]; rfl)
          (by simp [hph]) rfl hreq id (by rintro ⟨⟩)
  · next tid generation state hph => exact hs.call_asks hc hph hstep'
  · next state success hph =>
    obtain ⟨hcl, hhold⟩ := hs.holder_eq hc (by rw [hph]; rfl)
    rw [hph] at hhold
    cases hstep
    have hret := hv.detach_returns hhold
    split
    · next hfin =>
      rw [if_pos hfin] at hret
      have hfrd : s.freed c.handle = [] := hv.freed_holder hhold (by rintro st ⟨⟩; exact hfin) (by rintro _ ⟨⟩) (by simp)
      rw [ThreadState.free, touch_eq hfrd]
      refine hs.call_after hc (by rw [hph]; rfl) rfl rfl rfl (fun h' hne => ?_) ?_ hret rfl hs.clean
      · simp [hne]
      · simp
    · next hunf =>
      rw [if_neg hunf] at hret
      exact hs.call_after hc (by rw [hph]; rfl) rfl rfl rfl (fun _ _ => rfl) rfl hret rfl hs.clean
  · cases hstep

/-! ### Runs -/

/-- A join or a detach is called for a thread that is joinable. -/
def UsesJoinable (s : ThreadState) : ThreadEvent → Prop
  | .join _ h _ _ => (s.handle h).published = true ∧ (s.handle h).state.taken = false ∧ s.freed h = []
  | .detach _ h => (s.handle h).published = true ∧ (s.handle h).state.taken = false ∧ s.freed h = []
  | _ => True

/-- A call that has not changed the flags yet does not come too late to look at them: the handle has not been freed. -/
def InTime (s : ThreadState) : ThreadEvent → Prop
  | .call k => ∀ c, s.call k = some c → c.phase.claimed = false → s.freed c.handle = []
  | _ => True

lemma Inv.begin (hs : Inv s) (hk : s.call k = none) (hpub : (s.handle c.handle).published = true)
    (hcld : c.phase.claimed = false) (hreq : c.phase.request = none) (hgran : c.phase ≠ .joinRefused)
    (hlate : c.phase.late = false) (hself : c.self = some c.handle → c.phase = .deadlock) : Inv (s.setCall k c) where
  views h := by
    rw [view_of_unclaimed (hs.not_claimed hk)]
    exact hs.views h
  calls j c' hc' := by
    have hc'' : update s.call k (some c) j = some c' := hc'
    rcases update_cases hc'' with ⟨rfl, ⟨⟩⟩ | ⟨-, hc''⟩
    · refine ⟨hpub, ?_, by rw [hreq]; nofun, hself, by rw [hlate]; nofun, hgran⟩
      rw [hcld]
      exact iff_of_false nofun (hs.not_claimed hk)
    · have hok := hs.calls j c' hc''
      exact { hok with }
  claims h j hj := by
    have hjk : j ≠ k := fun heq => hs.not_claimed hk (heq ▸ hj)
    show ∃ c', update s.call k (some c) j = some c' ∧ c'.handle = h
    rw [update_of_ne hjk]
    exact hs.claims h j hj
  clean := hs.clean

lemma Inv.other (hs : Inv s) {slot : Slot} (hold : (s.slot tid).inUse = false ∨ (s.slot tid).thread = none)
    (hnew : slot.thread = none) : Inv (s.setSlot tid slot) := by
  have hview (h' : ℕ) : (s.setSlot tid slot).view h' = s.view h' := by
    have hkeep : (update s.slot tid slot (s.task h')).heldBy h' = _ :=
      heldBy_update (s.task h') (hold.imp_right fun hnone => by simp [hnone]) (.inr (by simp [hnew]))
    simp [hkeep]
  exact hs.local 0 rfl rfl (fun h' _ => hview h') (hview 0) (hs.views 0) Handle.Keeps.refl hs.clean

lemma Inv.step (hs : Inv s) {e : ThreadEvent} (huses : UsesJoinable s e) (hint : InTime s e)
    (hstep : s.step e = some s') : Inv s' := by
  cases e with
  | allocate h detached =>
    by_cases hc : s.creator h = .absent
    · exact hs.allocate hc detached hstep
    · rw [ThreadState.step, if_neg hc] at hstep
      cases hstep
  | create h kernel => exact hs.create hstep
  | thread h value => exact hs.thread hstep
  | join k h self result =>
    by_cases hk : s.call k = none
    · rw [ThreadState.step, if_pos hk] at hstep
      cases hstep
      split
      · exact hs.begin hk huses.1 rfl rfl nofun rfl fun _ => rfl
      · next hself => exact hs.begin hk huses.1 rfl rfl nofun rfl fun h => absurd h hself
    · rw [ThreadState.step, if_neg hk] at hstep
      cases hstep
  | detach k h =>
    by_cases hk : s.call k = none
    · rw [ThreadState.step, if_pos hk] at hstep
      cases hstep
      exact hs.begin hk huses.1 rfl rfl nofun rfl nofun
    · rw [ThreadState.step, if_neg hk] at hstep
      cases hstep
  | call k =>
    obtain ⟨c, hc, hstep⟩ := Option.bind_eq_some_iff.mp hstep
    exact hs.call hc (hint c hc) hstep
  | other tid slot =>
    rw [ThreadState.step] at hstep
    split at hstep
    · next hfree =>
      cases hstep
      exact hs.other hfree.1 hfree.2
    · cases hstep

/-! ## The contract of a thread's handle -/

variable {s : ThreadState} {h k : ℕ} {c : Call} {p : CallPhase}

namespace CallPhase

def ended : CallPhase → Bool
  | .joined _ => true
  | .detached .. => true
  | .invalid => true
  | .deadlock => true
  | _ => false

def succeeded : CallPhase → Bool
  | .joined _ => true
  | .detached _ success => success
  | _ => false

end CallPhase

/-- A call for the handle that gets to look at it: `pthread_join` of a thread by itself does not. -/
def ThreadState.Asked (s : ThreadState) (h k : ℕ) (c : Call) : Prop :=
  s.call k = some c ∧ c.handle = h ∧ c.phase ≠ .deadlock

/-- **What holds for a handle.** -/
structure Owned (s : ThreadState) (h : ℕ) : Prop where
  once : (s.freed h).length ≤ 1
  /-- `pthread_create` frees the handle only when it fails. -/
  creator : .creator ∈ s.freed h → s.creator h = .failed
  /-- The joiner frees it, -/
  joiner : .joiner ∈ s.freed h → ∃ k c value, s.Asked h k c ∧ c.phase = .joined value
  /-- or the detacher of a thread that had finished, -/
  detacher : .detacher ∈ s.freed h → ∃ k c state success, s.Asked h k c ∧ c.phase = .detached state success ∧
    state.finished = true
  /-- or the thread, if it was detached when it finished. -/
  thread : .thread ∈ s.freed h → ∃ previous,
    (s.thread h = .leaving previous ∨ s.thread h = .gone previous) ∧ previous.detached = true
  /-- When the thread and all calls have ended, the handle has been freed if the thread was detached or a call was
  made. -/
  settled : (s.thread h).isGone = true → (∀ k c, s.Asked h k c → c.phase.ended = true) →
    ((s.freed h).length = 1 ↔ s.attrDetached h = true ∨ ∃ k c, s.Asked h k c)
  /-- One call succeeds -/
  succeeds : s.attrDetached h = false → (∀ k c, s.Asked h k c → c.phase.ended = true) → (∃ k c, s.Asked h k c) →
    ∃ k c, s.Asked h k c ∧ c.phase.succeeded = true
  /-- and no other one. -/
  unique : ∀ k c k' c', s.Asked h k c → s.Asked h k' c' → c.phase.succeeded = true → c'.phase.succeeded = true → k = k'
  /-- A join returns when the thread has ended, with what it has ended with. -/
  value : ∀ k c value, s.Asked h k c → c.phase = .joined value →
    (s.thread h).isGone = true ∧ ∀ x ∈ value, x = s.value h
  /-- The flags are those of calls that have not failed: a join that fails leaves the thread as joinable as it was. -/
  joining : (s.handle h).state.joining = true ↔ ∃ k c, s.Asked h k c ∧ c.phase.joins = true
  detached : (s.handle h).state.detached = true ↔
    s.attrDetached h = true ∨ ∃ k c, s.Asked h k c ∧ c.phase.captured.isSome = true

lemma Inv.holder_some (hs : Inv s) (hhold : (s.view h).holder = some p) :
    ∃ k c, s.claim h = some k ∧ s.Asked h k c ∧ c.phase = p := by
  cases hcl : s.claim h with
  | none => simp [hcl] at hhold
  | some k =>
    obtain ⟨c, hc, hhd⟩ := hs.claims h k hcl
    have hph : c.phase = p := by simpa [ThreadState.view, hcl, hc] using hhold
    refine ⟨k, c, rfl, ⟨hc, hhd, fun hdead => ?_⟩, hph⟩
    have hcld := (hs.calls k c hc).claim.mpr (hhd ▸ hcl)
    rw [hdead] at hcld
    cases hcld

lemma Inv.holder_of_asked (hs : Inv s) (hask : s.Asked h k c) (hcld : c.phase.claimed = true) :
    s.claim h = some k ∧ (s.view h).holder = some c.phase := by
  obtain ⟨hc, rfl, -⟩ := hask
  exact hs.holder_eq hc hcld

lemma claimed_of_succeeded (hp : p.succeeded = true) : p.claimed = true := by
  cases p <;> first | rfl | cases hp

lemma late_of_ended (hended : p.ended = true) (hcld : p.claimed = false) (hdead : p ≠ .deadlock) :
    p.late = true := by
  cases p <;> simp_all [CallPhase.ended, CallPhase.claimed, CallPhase.joins, CallPhase.captured, CallPhase.late]

lemma succeeded_of_ended (hcld : p.claimed = true) (hgran : p.granted = true) (hended : p.ended = true) :
    p.succeeded = true := by
  cases p <;> simp_all [CallPhase.ended, CallPhase.claimed, CallPhase.joins, CallPhase.captured, CallPhase.granted,
    CallPhase.succeeded]

lemma Inv.taken_of_ended (hs : Inv s) (hask : s.Asked h k c) (hended : c.phase.ended = true) :
    s.attrDetached h = true ∨ ∃ p, (s.view h).holder = some p := by
  cases hcld : c.phase.claimed with
  | true => exact .inr ⟨_, (hs.holder_of_asked hask hcld).2⟩
  | false =>
    obtain ⟨hc, rfl, hdead⟩ := hask
    by_contra hno
    rw [not_or, not_exists] at hno
    have hnone : (s.view c.handle).holder = none := Option.eq_none_iff_forall_ne_some.mpr hno.2
    have hv := hs.views c.handle
    have htk := (hs.calls k c hc).late (late_of_ended hended hcld hdead)
    have hattr : (s.view c.handle).attrDetached = false := Bool.eq_false_iff.mpr hno.1
    have hjoin := hv.joining
    have hdet := hv.detached
    rw [hnone] at hjoin hdet
    rw [Flags.taken, show (s.handle c.handle).state.external = false from hv.plain.1,
      show (s.handle c.handle).state.joining = _ from hjoin, show (s.handle c.handle).state.detached = _ from hdet,
      hattr] at htk
    cases htk

lemma View.Ok.freed_settled {v : View} (hv : v.Ok) (hgone : v.thread.isGone = true)
    (hended : ∀ p, v.holder = some p → p.ended = true) :
    v.freed.length = 1 ↔ v.attrDetached = true ∨ ∃ p, v.holder = some p := by
  obtain ⟨previous, hprev⟩ : ∃ previous, v.thread = .gone previous := by
    cases ht : v.thread <;> rw [ht] at hgone <;> first | exact ⟨_, rfl⟩ | cases hgone
  have hthr : v.thread ≠ .absent := by simp [hprev]
  obtain ⟨hext, hset, hattr⟩ := hv.previous previous (by rw [hprev]; rfl)
  have hhas : v.thread.hasFreed = previous.detached := by
    rw [hprev, ThreadPhase.hasFreed, hext]
    rfl
  rw [hv.freed, freer, if_neg (hv.present hthr), hhas]
  cases hdet : previous.detached with
  | true =>
    refine iff_of_true rfl ?_
    have hflag := hv.detached.symm.trans (hset hdet)
    rw [Bool.or_eq_true] at hflag
    refine hflag.imp id fun hany => ?_
    cases hhold : v.holder with
    | none => rw [hhold] at hany; cases hany
    | some p => exact ⟨p, rfl⟩
  | false =>
    rw [if_neg Bool.false_ne_true]
    cases hhold : v.holder with
    | none =>
      refine iff_of_false (by simp) ?_
      rintro (h | ⟨p, hp⟩)
      · rw [hattr h] at hdet
        cases hdet
      · cases hp
    | some p =>
      refine iff_of_true ?_ (.inr ⟨p, rfl⟩)
      have hcld := (hv.holder p hhold).1
      have hend := hended p hhold
      cases p with
      | joined value => rfl
      | detached state success =>
        have hfin := hv.captured _ hhold state rfl
        rw [hprev] at hfin
        simp only [ThreadPhase.previous, Option.any_some, hdet, Bool.not_false] at hfin
        simp [hfin]
      | invalid => cases hcld
      | deadlock => cases hcld
      | _ => cases hend

def View.Frees (v : View) : Freer → Prop
  | .creator => v.creator = .failed
  | .thread => v.thread.hasFreed = true
  | .joiner => ∃ value, v.holder = some (.joined value)
  | .detacher => ∃ state success, v.holder = some (.detached state success) ∧ state.finished = true

lemma View.frees_of_mem {v : View} {who : Freer} (h : who ∈ v.freer) : v.Frees who := by
  unfold View.freer at h
  split at h
  · next hc =>
    rw [List.mem_singleton.mp h]
    exact hc
  split at h
  · next ht =>
    rw [List.mem_singleton.mp h]
    exact ht
  split at h
  · next value hhold =>
    rw [List.mem_singleton.mp h]
    exact ⟨value, hhold⟩
  · next state success hhold =>
    split at h
    · next hfin =>
      rw [List.mem_singleton.mp h]
      exact ⟨state, success, hhold, hfin⟩
    · cases h
  · cases h

lemma Inv.owned (hs : Inv s) (h : ℕ) : Owned s h := by
  have hv := hs.views h
  have hfrd : s.freed h = (s.view h).freer := hv.freed
  have hasked_holder : (∃ p, (s.view h).holder = some p) → ∃ k c, s.Asked h k c := by
    rintro ⟨p, hp⟩
    obtain ⟨k, c, -, hask, -⟩ := hs.holder_some hp
    exact ⟨k, c, hask⟩
  have hholder_asked : (∀ k c, s.Asked h k c → c.phase.ended = true) → (∃ k c, s.Asked h k c) →
      s.attrDetached h = true ∨ ∃ p, (s.view h).holder = some p := by
    rintro hended ⟨k, c, hask⟩
    exact hs.taken_of_ended hask (hended k c hask)
  have hfrees {who : Freer} (hmem : who ∈ s.freed h) : (s.view h).Frees who := View.frees_of_mem (hfrd ▸ hmem)
  refine ⟨hv.freed_le, fun hmem => ?_, fun hmem => ?_, fun hmem => ?_, fun hmem => ?_, fun hgone hended => ?_,
    fun hattr hended hsome => ?_, fun k c k' c' hask hask' hp hp' => ?_, fun k c value hask hph => ?_, ?_, ?_⟩
  · exact hfrees hmem
  · obtain ⟨value, hhold⟩ := hfrees hmem
    obtain ⟨k, c, -, hask, hph⟩ := hs.holder_some hhold
    exact ⟨k, c, value, hask, hph⟩
  · obtain ⟨state, success, hhold, hfin⟩ := hfrees hmem
    obtain ⟨k, c, -, hask, hph⟩ := hs.holder_some hhold
    exact ⟨k, c, state, success, hask, hph, hfin⟩
  · have hhas : (s.thread h).hasFreed = true := hfrees hmem
    unfold ThreadPhase.hasFreed at hhas
    split at hhas
    · next previous ht => exact ⟨previous, .inl ht, (Bool.and_eq_true_iff.mp hhas).2⟩
    · next previous ht => exact ⟨previous, .inr ht, (Bool.and_eq_true_iff.mp hhas).2⟩
    · cases hhas
  · have hends : ∀ p, (s.view h).holder = some p → p.ended = true := fun p hp => by
      obtain ⟨k, c, -, hask, rfl⟩ := hs.holder_some hp
      exact hended k c hask
    refine (hv.freed_settled hgone hends).trans ⟨?_, ?_⟩
    · exact fun hor => hor.imp id hasked_holder
    · exact fun hor => hor.elim .inl (hholder_asked hended)
  · obtain ⟨p, hp⟩ := (hholder_asked hended hsome).resolve_left (by simp [hattr])
    obtain ⟨k, c, -, hask, rfl⟩ := hs.holder_some hp
    exact ⟨k, c, hask, succeeded_of_ended (hv.holder _ hp).1 (hv.holder _ hp).2 (hended k c hask)⟩
  · exact Option.some.inj ((hs.holder_of_asked hask (claimed_of_succeeded hp)).1.symm.trans
      (hs.holder_of_asked hask' (claimed_of_succeeded hp')).1)
  · obtain ⟨-, hhold⟩ := hs.holder_of_asked hask (by rw [hph]; rfl)
    rw [hph] at hhold
    exact ⟨hv.reaped _ hhold rfl, hv.read _ hhold⟩
  · rw [show (s.handle h).state.joining = _ from hv.joining, Option.any_eq_true]
    constructor
    · rintro ⟨p, hp, hjoins⟩
      obtain ⟨k, c, -, hask, rfl⟩ := hs.holder_some hp
      exact ⟨k, c, hask, hjoins⟩
    · rintro ⟨k, c, hask, hjoins⟩
      exact ⟨c.phase, (hs.holder_of_asked hask (by rw [CallPhase.claimed, hjoins]; rfl)).2, hjoins⟩
  · rw [show (s.handle h).state.detached = _ from hv.detached, Bool.or_eq_true, Option.any_eq_true]
    refine or_congr Iff.rfl ⟨?_, ?_⟩
    · rintro ⟨p, hp, hcapt⟩
      obtain ⟨k, c, -, hask, rfl⟩ := hs.holder_some hp
      exact ⟨k, c, hask, hcapt⟩
    · rintro ⟨k, c, hask, hcapt⟩
      exact ⟨c.phase, (hs.holder_of_asked hask (by rw [CallPhase.claimed, hcapt, Bool.or_true])).2, hcapt⟩

lemma Inv.init (hs : threadSystem.init s) : Inv s := by
  obtain ⟨hhd, hattr, hcreat, hthr, hslot, hcall, hcl, hfrd, htouc⟩ := hs
  refine ⟨fun h => ?_, fun k c hc => ?_, fun h k hk => ?_, htouc⟩
  rotate_left
  · rw [hcall] at hc
    cases hc
  · rw [hcl] at hk
    cases hk
  have hview : s.view h = ⟨Handle.zero, false, .absent, .absent, s.task h, none, s.value h, none, []⟩ := by
    rw [ThreadState.view, Slot.heldBy_none (.inr (by rw [hslot]; simp)), hhd, hattr, hcreat, hthr, hcl, hfrd]
    rfl
  rw [hview]
  constructor <;> simp [Handle.zero, ThreadPhase.previous, ThreadPhase.isGone, ThreadPhase.exited, View.freer,
    ThreadPhase.hasFreed]

/-- **In every run in which a join or a detach is called for a joinable thread and looks at the handle before it is freed,
nobody touches a freed handle, and every handle is owned as it should.** -/
theorem handles_owned (hs : threadSystem.Guarded (fun s e => UsesJoinable s e ∧ InTime s e) s) :
    s.touched = false ∧ ∀ h, Owned s h := by
  have hinv : Inv s := hs.invariant (fun s hinit => Inv.init hinit)
    fun s e s' hinv huses hstep => hinv.step huses.1 huses.2 hstep
  exact ⟨hinv.clean, hinv.owned⟩

instance (s : ThreadState) (e : ThreadEvent) : Decidable (UsesJoinable s e) := by
  cases e <;> unfold UsesJoinable <;> infer_instance

instance (s : ThreadState) (e : ThreadEvent) : Decidable (InTime s e) :=
  match e with
  | .call k =>
    match hk : s.call k with
    | none => isTrue fun c hc => by rw [hk] at hc; cases hc
    | some c =>
      if h : c.phase.claimed = false → s.freed c.handle = [] then isTrue fun c' hc => by rw [hk] at hc; cases hc; exact h
      else isFalse fun hall => h (hall c hk)
  | .allocate .. | .create .. | .thread .. | .join .. | .detach .. | .other .. => isTrue trivial

def idle : ThreadState where
  handle _ := Handle.zero
  attrDetached _ := false
  creator _ := .absent
  thread _ := .absent
  task _ := 0
  slot _ := ⟨false, 0, none, false, false⟩
  call _ := none
  value _ := 0
  claim _ := none
  freed _ := []
  touched := false

lemma idle_init : threadSystem.init idle := ⟨rfl, rfl, rfl, rfl, fun _ => rfl, rfl, rfl, rfl, rfl⟩

def starts : List ThreadEvent :=
  [.allocate 0 false, .create 0 (some 5), .create 0 none, .create 0 none, .create 0 none, .thread 0 0]

def ends : List ThreadEvent := List.replicate 5 (.thread 0 7)

/-- A join waits for a thread and frees its handle, a detach comes too late and fails. -/
theorem join_frees : ∃ s, s.freed 0 = [.joiner] ∧ (s.call 1).map Call.phase = some (.joined (some 7)) ∧
    (s.call 2).map Call.phase = some .invalid ∧ s.touched = false ∧ Owned s 0 := by
  have hs : threadSystem.Guarded (fun s e => UsesJoinable s e ∧ InTime s e)
      (threadSystem.after idle (starts ++ [.join 1 0 none true, .detach 2 0, .call 1, .call 1, .call 1, .call 1, .call 2,
        .call 2, .call 2] ++ ends ++ [.call 1, .call 1, .call 1])) :=
    System.after_guarded (.init idle_init) (by decide +kernel)
  exact ⟨_, by decide +kernel, by decide +kernel, by decide +kernel, (handles_owned hs).1, (handles_owned hs).2 0⟩

/-- **A detach is called for a joinable thread, and a join has freed the handle before the detach reads it.** -/
theorem late_detach_reads_freed : ∃ s, threadSystem.Guarded UsesJoinable s ∧ s.touched = true := by
  have hs : threadSystem.Guarded UsesJoinable (threadSystem.after idle (starts ++ [.join 1 0 none true, .detach 2 0] ++
      ends ++ List.replicate 6 (.call 1) ++ [.call 2])) :=
    System.after_guarded (.init idle_init) (by decide +kernel)
  exact ⟨_, hs, by decide +kernel⟩

end PlantOS.Libp.Thread

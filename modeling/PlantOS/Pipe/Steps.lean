import PlantOS.Pipe.Sound
import Mathlib.Data.List.GetD

/-!
# Every step keeps handles and pipes sound

Tables of descriptors, contexts and tasks that come and go, and the passes of `vfs_fd_io`.
-/

namespace PlantOS.Pipe.State

open PlantOS.Vfs (VfsError)
open Lib
open Option (map_eq_some_iff map_map map_some)
open Function (comp update update_of_ne update_self)

variable {s s' : State} {extra : List ℕ}

/-! ### Tables of descriptors -/

variable {c h length p t : ℕ}

lemma held_setContext (hc : c ∈ s.contexts) (context : VfsContext) (h : ℕ) :
    (s.setContext c context).held h + ((s.context c).entries.drop 3).count (some h) =
      s.held h + (context.entries.drop 3).count (some h) := by
  unfold held
  show ∑ d ∈ s.contexts, ((update s.context c context d).entries.drop 3).count (some h) + _ = _
  rw [← Finset.add_sum_erase _ _ hc, ← Finset.add_sum_erase s.contexts _ hc, update_self]
  have hrest : ∑ d ∈ s.contexts.erase c, ((update s.context c context d).entries.drop 3).count (some h) =
      ∑ d ∈ s.contexts.erase c, ((s.context d).entries.drop 3).count (some h) := by
    refine Finset.sum_congr rfl fun d hd => ?_
    rw [update_of_ne (Finset.ne_of_mem_erase hd)]
  rw [hrest]
  omega

lemma held_setContext_of_notMem (hc : c ∉ s.contexts) (context : VfsContext) (h : ℕ) :
    (s.setContext c context).held h = s.held h := by
  unfold held
  refine Finset.sum_congr rfl fun d hd => ?_
  have hne : d ≠ c := fun heq => hc (heq ▸ hd)
  show ((update s.context c context d).entries.drop 3).count (some h) = _
  rw [update_of_ne hne]

/-- Tables and tasks may change as long as the references add up. -/
lemma Sound.tables {extra' : List ℕ} {context : ℕ → VfsContext} {contexts tasks : Finset ℕ} {task : ℕ → Task}
    (hs : s.Sound extra)
    (htot : ∀ h, held { s with context, contexts } h + extra'.count h = s.held h + extra.count h)
    (htab : ∀ d ∈ contexts, 3 ≤ (context d).entries.length ∧
      (context d).references = users { s with tasks, task } d)
    (hmemb : ∀ t ∈ tasks, ∃ c ∈ contexts, (task t).context = some c)
    (hgone : ∀ t, t ∉ tasks → (task t).context = none ∧ (task t).io = none ∧ (task t).waiting = false) :
    ({ s with context, contexts, tasks, task } : State).Sound extra' :=
  { hs with
    references := fun h handle hh => (htot h).symm ▸ hs.references h handle hh
    live := fun h hh => hs.live h ((htot h) ▸ hh)
    table := htab, member := hmemb, gone := hgone }

lemma Sound.setContext {extra' : List ℕ} (context : VfsContext) (hs : s.Sound extra) (hc : c ∈ s.contexts)
    (hrefs : context.references = (s.context c).references) (hlen : 3 ≤ context.entries.length)
    (hcnt : ∀ h, (context.entries.drop 3).count (some h) + extra'.count h =
      ((s.context c).entries.drop 3).count (some h) + extra.count h) :
    (s.setContext c context).Sound extra' := by
  refine hs.tables (fun h => ?_) (fun d hd => ?_) hs.member hs.gone
  · have hheld := held_setContext hc context h
    have hcnt := hcnt h
    unfold State.setContext at hheld
    omega
  · by_cases heq : d = c
    · rw [heq, update_self]
      exact ⟨hlen, hrefs.trans (hs.table c hc).2⟩
    · rw [update_of_ne heq]
      exact hs.table d hd

lemma count_drop_set (entries : List (Option ℕ)) {descriptor : ℕ} (hmin : 3 ≤ descriptor)
    (hlt : descriptor < entries.length) (entry : Option ℕ) (h : ℕ) :
    ((entries.set descriptor entry).drop 3).count (some h) +
        (if entries.getD descriptor none = some h then 1 else 0) =
      (entries.drop 3).count (some h) + if entry = some h then 1 else 0 := by
  have hlt' : descriptor - 3 < (entries.drop 3).length := by
    rw [List.length_drop]
    omega
  have hget : (entries.drop 3)[descriptor - 3] = entries.getD descriptor none := by
    rw [List.getElem_drop, List.getD_eq_getElem _ _ hlt]
    congr 1
    omega
  rw [List.drop_set, if_neg (by omega), List.count_set hlt', hget]
  simp only [beq_iff_eq]
  by_cases hold : entries.getD descriptor none = some h
  · have hmem : some h ∈ entries.drop 3 := by
      rw [← hold, ← hget]
      exact List.getElem_mem hlt'
    have hpos := List.count_pos_iff.mpr hmem
    simp only [hold, if_true]
    omega
  · simp only [hold, if_false]
    omega

lemma vfsFdGet_eq_some {descriptor : ℕ} (hget : s.vfsFdGet c descriptor = some h) :
    3 ≤ descriptor ∧ descriptor < (s.context c).entries.length ∧
      (s.context c).entries.getD descriptor none = some h := by
  unfold vfsFdGet at hget
  split at hget
  · cases hget
  case isFalse hmin =>
    refine ⟨by omega, ?_, hget⟩
    by_contra hlen
    rw [List.getD_eq_default _ _ (by omega)] at hget
    cases hget

lemma Sound.takeEntry {descriptor : ℕ} (hs : s.Sound extra) (hc : c ∈ s.contexts)
    (hget : s.vfsFdGet c descriptor = some h) :
    (s.setContext c { s.context c with entries := (s.context c).entries.set descriptor none }).Sound (h :: extra) := by
  obtain ⟨hmin, hlt, hent⟩ := vfsFdGet_eq_some hget
  refine hs.setContext _ hc rfl ?_ fun u => ?_
  · rw [List.length_set]
    exact (hs.table c hc).1
  · have hcnt := count_drop_set _ hmin hlt none u
    rw [hent] at hcnt
    dsimp only
    by_cases heq : u = h
    · subst heq
      rw [List.count_cons_self]
      simp only [if_true, reduceCtorEq, if_false] at hcnt
      omega
    · rw [List.count_cons_of_ne (Ne.symm heq)]
      simp only [Option.some.injEq, Ne.symm heq, reduceCtorEq, if_false] at hcnt
      omega

/-- **`vfs_fd_reserve` gives an unused descriptor and keeps the others.** -/
lemma vfsFdReserve_spec {entries entries' : List (Option ℕ)} {minimum : ℕ} {memory : Bool} {result : Except VfsError ℕ}
    (hminim : minimum ≤ entries.length) (hlen : 3 ≤ entries.length)
    (h : vfsFdReserve entries minimum memory = (entries', result)) :
    (∃ n, entries' = entries ++ List.replicate n none) ∧
      ∀ descriptor, result = .ok descriptor → minimum ≤ descriptor ∧ descriptor < entries'.length ∧
        entries'.getD descriptor none = none := by
  unfold vfsFdReserve at h
  split at h
  case h_1 descriptor hfree =>
    obtain ⟨rfl, rfl⟩ := Prod.mk.inj h
    refine ⟨⟨0, by simp⟩, fun d hd => ?_⟩
    obtain rfl : descriptor = d := by simpa using hd
    unfold firstFree at hfree
    have hmem := List.mem_of_find?_eq_some hfree
    rw [List.mem_range'_1] at hmem
    have hnone := List.find?_some hfree
    refine ⟨hmem.1, by omega, by simpa using hnone⟩
  case h_2 hfree =>
    rw [if_neg (by omega)] at h
    split at h
    · obtain ⟨rfl, rfl⟩ := Prod.mk.inj h
      exact ⟨⟨0, by simp⟩, (by intros; contradiction)⟩
    split at h
    · obtain ⟨rfl, rfl⟩ := Prod.mk.inj h
      exact ⟨⟨0, by simp⟩, (by intros; contradiction)⟩
    obtain ⟨rfl, rfl⟩ := Prod.mk.inj h
    refine ⟨⟨_, rfl⟩, fun d hd => ?_⟩
    obtain rfl : entries.length = d := by simpa using hd
    refine ⟨hminim, ?_, ?_⟩
    · rw [List.length_append, List.length_replicate]
      omega
    · rw [List.getD_append_right _ _ _ _ le_rfl]
      simp

lemma count_drop_append {entries : List (Option ℕ)} (hlen : 3 ≤ entries.length) (n h : ℕ) :
    ((entries ++ List.replicate n none).drop 3).count (some h) = (entries.drop 3).count (some h) := by
  rw [List.drop_append_of_le_length hlen, List.count_append, List.count_replicate]
  simp

lemma getD_append_none (entries : List (Option ℕ)) (n descriptor : ℕ) :
    (entries ++ List.replicate n none).getD descriptor none = entries.getD descriptor none := by
  by_cases hlt : descriptor < entries.length
  · rw [List.getD_append _ _ _ _ hlt]
  · rw [List.getD_append_right _ _ _ _ (by omega), List.getD_eq_default _ _ (by omega : entries.length ≤ descriptor)]
    simp

/-! ### Opening -/

lemma Sound.newHandle (handle : VfsHandle) (hs : s.Sound extra) (hfree : s.handle h = none)
    (hone : handle.references = 1) (hend : ∀ p, handle.pipe = some p → handle.write = !handle.read ∧
      (∃ q, s.pipe p = some q ∧ (if handle.read then q.readOpen else q.writeOpen) = true) ∧
      ∀ u hd, s.handle u = some hd → hd.pipe = some p → hd.read ≠ handle.read) :
    (s.setHandle h (some handle)).Sound (h :: extra) := by
  have hzero : s.held h + extra.count h = 0 := by
    by_contra hne
    obtain ⟨hd, hhd⟩ := hs.live h (by omega)
    rw [hfree] at hhd
    cases hhd
  have hold : ∀ {u : ℕ} {hd : VfsHandle}, (s.setHandle h (some handle)).handle u = some hd →
      u = h ∧ handle = hd ∨ u ≠ h ∧ s.handle u = some hd := fun hu =>
    (update_cases hu).imp_left (.imp_right Option.some.inj)
  refine { hs with references := fun u hd hu => ?_, live := fun u hu => ?_, ends := fun u hd p hu hp => ?_, unique := ?_ }
  · show hd.references = s.held u + (h :: extra).count u ∧ 0 < hd.references
    rcases hold hu with ⟨rfl, rfl⟩ | ⟨hne, hu⟩
    · rw [List.count_cons_self]
      omega
    · rw [List.count_cons_of_ne (Ne.symm hne)]
      exact hs.references u hd hu
  · change 0 < s.held u + (h :: extra).count u at hu
    by_cases heq : u = h
    · subst heq
      exact ⟨handle, by simp [setHandle]⟩
    · rw [List.count_cons_of_ne (Ne.symm heq)] at hu
      simpa only [setHandle, update_of_ne heq] using hs.live u hu
  · rcases hold hu with ⟨rfl, rfl⟩ | ⟨hne, hu⟩
    · exact ⟨(hend p hp).1, (hend p hp).2.1⟩
    · exact hs.ends u hd p hu hp
  · intro u hd v hd' p hu hv hp hp' hread
    rcases hold hu with ⟨rfl, rfl⟩ | ⟨-, hu'⟩ <;> rcases hold hv with ⟨rfl, rfl⟩ | ⟨-, hv'⟩
    · rfl
    · exact absurd hread.symm ((hend p hp).2.2 v hd' hv' hp')
    · exact absurd hread ((hend p hp').2.2 u hd hu' hp)
    · exact hs.unique u hd v hd' p hu' hv' hp hp' hread

lemma Sound.newPipe (hs : s.Sound extra) (hfree : s.pipe p = none) :
    ({ s with
        pipe := update s.pipe p (some ⟨[], [], s.identitySequence + 1, 0, 0, true, true, fun _ => 0⟩)
        identitySequence := s.identitySequence + 1 } : State).Sound extra := by
  set new : VfsPipe := ⟨[], [], s.identitySequence + 1, 0, 0, true, true, fun _ => 0⟩ with hnew
  have hold : ∀ {v : ℕ} {r : VfsPipe}, update s.pipe p (some new) v = some r →
      v = p ∧ new = r ∨ s.pipe v = some r := fun hv =>
    (update_cases hv).imp (.imp_right Option.some.inj) And.right
  have hlt : ∀ {v : ℕ} {r : VfsPipe}, s.pipe v = some r → r.identity ≠ new.identity := by
    intro v r hr
    have hle := (hs.identity v r hr).2
    show r.identity ≠ s.identitySequence + 1
    omega
  have hlog : s.log (s.identitySequence + 1) = ⟨[], []⟩ := hs.unused _ (by omega)
  refine { hs with ends := fun u hd v hu hv => ?_, identity := fun v r hv => ?_, identity_inj := ?_,
                   unused := fun identity hlt => hs.unused identity (by dsimp only at hlt; omega),
                   ring := fun v r hv => ?_ }
  · obtain ⟨hwr, q, hq, hopen⟩ := hs.ends u hd v hu hv
    have hne : v ≠ p := by
      rintro rfl
      rw [hfree] at hq
      cases hq
    exact ⟨hwr, q, by simpa only [update_of_ne hne] using hq, hopen⟩
  · rcases hold hv with ⟨-, rfl⟩ | hv'
    · exact ⟨Nat.succ_pos _, le_rfl⟩
    · exact ⟨(hs.identity v r hv').1, (hs.identity v r hv').2.trans (Nat.le_succ _)⟩
  · intro v r v' r' hv hv' heq
    rcases hold hv with ⟨rfl, rfl⟩ | hr <;> rcases hold hv' with ⟨rfl, rfl⟩ | hr'
    · rfl
    · exact absurd heq.symm (hlt hr')
    · exact absurd heq (hlt hr)
    · exact hs.identity_inj v r v' r' hr hr' heq
  · rcases hold hv with ⟨-, rfl⟩ | hv
    · refine ⟨Nat.succ_pos _, Nat.zero_le _, ?_⟩
      show (s.log (s.identitySequence + 1)).accepted.flatten = (s.log (s.identitySequence + 1)).returned.flatten ++ []
      rw [hlog]
      rfl
    · exact hs.ring v r hv

/-- **`pipe` keeps the invariant.** -/
theorem Sound.vfsFdPipe {memory : PipeMemory} (hs : s.Sound extra) (hc : c ∈ s.contexts) (nonblock : Bool)
    (hfr : s.freshMemory memory = true) : (s.vfsFdPipe c nonblock memory).Sound extra := by
  have hlen := (hs.table c hc).1
  -- a table that has only grown
  have hgrn : ∀ entries' : List (Option ℕ), (∃ n, entries' = (s.context c).entries ++ List.replicate n none) →
      (s.setContext c { s.context c with entries := entries' }).Sound extra := by
    rintro _ ⟨n, rfl⟩
    refine hs.setContext _ hc rfl ?_ fun h => ?_
    · rw [List.length_append]
      omega
    · dsimp only
      rw [count_drop_append hlen]
  unfold State.vfsFdPipe
  dsimp only
  cases hfst : vfsFdReserve (s.context c).entries 3 memory.readTable with
  | mk entries readFd =>
    obtain ⟨⟨n, hents⟩, hreadFd⟩ := vfsFdReserve_spec hlen hlen hfst
    dsimp only
    split
    case h_2 => exact hgrn entries ⟨n, hents⟩
    case h_1 _ _ readFd reader hrdr =>
      obtain ⟨hmin, hlt, hnone⟩ := hreadFd readFd rfl
      cases hsec : vfsFdReserve entries (readFd + 1) memory.writeTable with
      | mk entries' writeFd =>
        obtain ⟨⟨m, hents'⟩, hwriteFd⟩ := vfsFdReserve_spec (by omega) (by omega) hsec
        have happ : entries' = (s.context c).entries ++ List.replicate (n + m) none := by
          rw [hents', hents, List.append_assoc, ← List.replicate_add]
        dsimp only
        split
        case h_2 => exact hgrn entries' ⟨_, happ⟩
        case h_1 _ _ _ writeFd writer p hwrit hp =>
          obtain ⟨hmin', hlt', hnone'⟩ := hwriteFd writeFd rfl
          simp only [freshMemory, hrdr, hwrit, hp, Option.bind_some, Option.isNone_some, Bool.false_or,
            Bool.and_eq_true, Option.isNone_iff_eq_none, decide_eq_true_eq, ne_eq, Option.some.injEq] at hfr
          obtain ⟨⟨⟨hfree, hfree'⟩, hne⟩, hfreeP⟩ := hfr
          have hnoEnd : ∀ u hd, s.handle u = some hd → hd.pipe ≠ some p := by
            intro u hd hu hpipe
            obtain ⟨-, q, hq, -⟩ := hs.ends u hd p hu hpipe
            rw [hfreeP] at hq
            cases hq
          have hread := (hs.newPipe hfreeP).newHandle (h := reader) ⟨some p, true, false, nonblock, 1⟩
            hfree rfl fun p' hp' => by
              obtain rfl : p = p' := by simpa using hp'
              exact ⟨rfl, ⟨_, update_self .., rfl⟩, fun u hd hu hpipe => absurd hpipe (hnoEnd u hd hu)⟩
          have hwr := hread.newHandle (h := writer) ⟨some p, false, true, nonblock, 1⟩
            (by simpa [setHandle, update_of_ne (Ne.symm hne)] using hfree') rfl fun p' hp' => by
              obtain rfl : p = p' := by simpa using hp'
              refine ⟨rfl, ⟨_, update_self .., rfl⟩, fun u hd hu hpipe => ?_⟩
              by_cases heq : u = reader
              · subst heq
                simp only [setHandle, update_self, Option.some.injEq] at hu
                subst hu
                rintro ⟨⟩
              · simp only [setHandle, update_of_ne heq] at hu
                exact absurd hpipe (hnoEnd u hd hu)
          refine hwr.setContext (c := c)
            { s.context c with entries := (entries'.set readFd (some reader)).set writeFd (some writer) } hc rfl ?_ fun h => ?_
          · rw [List.length_set, List.length_set]
            omega
          · have hlen' : readFd < entries'.length := by omega
            have hread' := count_drop_set _ hmin hlen' (some reader) h
            have hwr' := count_drop_set (entries'.set readFd (some reader)) (by omega : 3 ≤ writeFd)
              (by rwa [List.length_set]) (some writer) h
            have hone : entries'.getD readFd none = none := by
              rw [hents', getD_append_none]
              exact hnone
            have htwo : (entries'.set readFd (some reader)).getD writeFd none = none := by
              rw [List.getD_eq_getElem?_getD, List.getElem?_set_ne (by omega), ← List.getD_eq_getElem?_getD]
              exact hnone'
            rw [hone] at hread'
            rw [htwo] at hwr'
            rw [happ, count_drop_append hlen] at hread'
            show ((((entries'.set readFd (some reader)).set writeFd (some writer)).drop 3).count (some h)) + _ =
              (((s.context c).entries.drop 3).count (some h)) + _
            simp only [reduceCtorEq, if_false, Option.some.injEq] at hread' hwr'
            simp only [List.count_cons, beq_iff_eq]
            rw [happ] at hwr' ⊢
            omega

lemma Sound.vfsFdOpen (hs : s.Sound extra) (hc : c ∈ s.contexts) (hfree : s.handle h = none)
    (read write nonblock memory : Bool) : (s.vfsFdOpen c h read write nonblock memory).Sound extra := by
  have hlen := (hs.table c hc).1
  unfold State.vfsFdOpen
  dsimp only
  split
  case h_1 entries _ hresv =>
    obtain ⟨⟨n, rfl⟩, -⟩ := vfsFdReserve_spec hlen hlen hresv
    refine hs.setContext _ hc rfl ?_ fun u => ?_
    · rw [List.length_append]
      omega
    · dsimp only
      rw [count_drop_append hlen]
  case h_2 entries descriptor hresv =>
    obtain ⟨⟨n, rfl⟩, hdesc⟩ := vfsFdReserve_spec hlen hlen hresv
    obtain ⟨hmin, hlt, hnone⟩ := hdesc descriptor rfl
    have hnew := hs.newHandle ⟨none, read, write, nonblock, 1⟩ hfree rfl nofun
    refine hnew.setContext (c := c) { s.context c with
      entries := ((s.context c).entries ++ List.replicate n none).set descriptor (some h) } hc rfl ?_ fun u => ?_
    · rw [List.length_set]
      omega
    · have hcnt := count_drop_set _ hmin hlt (some h) u
      rw [hnone, count_drop_append hlen] at hcnt
      show ((((s.context c).entries ++ List.replicate n none).set descriptor (some h)).drop 3).count (some u) + _ =
        ((s.context c).entries.drop 3).count (some u) + _
      simp only [reduceCtorEq, if_false, Option.some.injEq] at hcnt
      simp only [List.count_cons, beq_iff_eq]
      omega

/-! ### Tasks and contexts -/

lemma count_reduceOption (l : List (Option ℕ)) (h : ℕ) : l.reduceOption.count h = l.count (some h) := by
  induction l with
  | nil => rfl
  | cons entry l ih =>
    cases entry with
    | none =>
      rw [List.reduceOption_cons_of_none, ih, List.count_cons_of_ne (by simp)]
    | some u =>
      rw [List.reduceOption_cons_of_some, List.count_cons, List.count_cons, ih]
      simp

lemma Sound.addContext {d : ℕ} (extra' : List ℕ) (entries : List (Option ℕ)) (hs : s.Sound extra) (hd : d ∉ s.contexts)
    (hlen : 3 ≤ entries.length)
    (hcnt : ∀ h, (entries.drop 3).count (some h) + extra'.count h = extra.count h) :
    ({ s with context := update s.context d ⟨entries, 0⟩, contexts := insert d s.contexts } : State).Sound
      extra' := by
  have hheld : ∀ h, held { s with context := update s.context d ⟨entries, 0⟩, contexts := insert d s.contexts } h +
      extra'.count h = s.held h + extra.count h := by
    intro h
    have hold := held_setContext_of_notMem hd ⟨entries, 0⟩ h
    have hnew := hcnt h
    unfold held at hold ⊢
    rw [Finset.sum_insert hd]
    simp only [State.setContext] at hold
    simp only [update_self, hold]
    omega
  have hnob : s.users d = 0 := by
    unfold users
    rw [Finset.card_eq_zero, Finset.filter_eq_empty_iff]
    intro t ht hctx
    obtain ⟨c, hc, hctx'⟩ := hs.member t ht
    rw [hctx, Option.some.injEq] at hctx'
    exact hd (hctx' ▸ hc)
  refine hs.tables hheld (fun c hc => ?_) (fun t ht => ?_) hs.gone
  · by_cases heq : c = d
    · rw [heq, update_self]
      exact ⟨hlen, hnob.symm⟩
    · rw [update_of_ne heq]
      exact hs.table c (Finset.mem_of_mem_insert_of_ne hc heq)
  · obtain ⟨c, hc, hctx⟩ := hs.member t ht
    exact ⟨c, Finset.mem_insert_of_mem hc, hctx⟩

lemma Sound.eraseContext (hs : s.Sound extra) (hc : c ∈ s.contexts) (hnob : s.users c = 0) :
    ({ s with contexts := s.contexts.erase c } : State).Sound (heldBy (s.context c).entries ++ extra) := by
  have hheld : ∀ h, held { s with contexts := s.contexts.erase c } h + (heldBy (s.context c).entries ++ extra).count h =
      s.held h + extra.count h := by
    intro h
    unfold held heldBy
    rw [List.count_append, count_reduceOption, ← Finset.sum_erase_add _ _ hc]
    dsimp only
    omega
  refine hs.tables hheld (fun d hd => hs.table d (Finset.mem_of_mem_erase hd)) (fun t ht => ?_) hs.gone
  obtain ⟨d, hd, hctx⟩ := hs.member t ht
  refine ⟨d, Finset.mem_erase.mpr ⟨?_, hd⟩, hctx⟩
  rintro rfl
  unfold users at hnob
  rw [Finset.card_eq_zero, Finset.filter_eq_empty_iff] at hnob
  exact hnob ht hctx

lemma Sound.setContext_of_notMem (hs : s.Sound extra) (hc : c ∉ s.contexts) (context : VfsContext) :
    (s.setContext c context).Sound extra := by
  refine hs.tables (fun h => congrArg (· + _) (held_setContext_of_notMem hc context h)) (fun d hd => ?_) hs.member hs.gone
  have hne : d ≠ c := fun heq => hc (heq ▸ hd)
  rw [update_of_ne hne]
  exact hs.table d hd

lemma Sound.setUsers {tasks : Finset ℕ} {task : ℕ → Task} {references : ℕ} (hs : s.Sound extra) (hc : c ∈ s.contexts)
    (hus : references = users { s with tasks := tasks, task := task } c)
    (hoth : ∀ d, d ≠ c → users { s with tasks := tasks, task := task } d = s.users d)
    (hmemb : ∀ t ∈ tasks, (task t).context = some c ∨ t ∈ s.tasks ∧ (task t).context = (s.task t).context)
    (hgone : ∀ t, t ∉ tasks → (task t).context = none ∧ (task t).io = none ∧ (task t).waiting = false) :
    ({ s.setContext c { s.context c with references := references } with tasks := tasks, task := task } : State).Sound
      extra := by
  have hheld : ∀ h, (s.setContext c { s.context c with references := references }).held h = s.held h := by
    intro h
    exact Nat.add_right_cancel (held_setContext hc { s.context c with references := references } h)
  refine hs.tables (fun h => congrArg (· + _) (hheld h)) (fun d hd => ?_) (fun t ht => ?_) hgone
  · by_cases heq : d = c
    · rw [heq]
      dsimp only [State.setContext]
      rw [update_self]
      exact ⟨(hs.table c hc).1, hus⟩
    · dsimp only [State.setContext]
      rw [update_of_ne heq, hoth d heq]
      exact hs.table d hd
  · rcases hmemb t ht with hctx | ⟨hmem, hctx⟩
    · exact ⟨c, hc, hctx⟩
    · obtain ⟨d, hd, hctx'⟩ := hs.member t hmem
      exact ⟨d, hd, hctx.trans hctx'⟩

lemma Sound.addTask (hs : s.Sound extra) (ht : t ∉ s.tasks) (hc : c ∈ s.contexts) :
    ({ s.setContext c { s.context c with references := (s.context c).references + 1 } with
        tasks := insert t s.tasks
        task := update s.task t ⟨some c, none, false, false⟩ } : State).Sound extra := by
  have hfilt : ∀ d, users { s with
      tasks := insert t s.tasks, task := update s.task t ⟨some c, none, false, false⟩ } d =
      s.users d + if c = d then 1 else 0 := by
    intro d
    unfold users
    dsimp only
    have hrest : (s.tasks.filter fun u => (update s.task t ⟨some c, none, false, false⟩ u).context = some d) =
        s.tasks.filter fun u => (s.task u).context = some d := by
      refine Finset.filter_congr fun u hu => ?_
      have hne : u ≠ t := fun heq => ht (heq ▸ hu)
      rw [update_of_ne hne]
    rw [Finset.filter_insert, hrest]
    by_cases heq : c = d
    · rw [if_pos (by rw [update_self, heq]), if_pos heq, Finset.card_insert_of_notMem]
      exact fun hmem => ht (Finset.mem_of_mem_filter _ hmem)
    · rw [if_neg (by rw [update_self]; simpa using heq), if_neg heq]
      rfl
  refine hs.setUsers hc ?_ (fun d hd => ?_) (fun u hu => ?_) fun u hu => ?_
  · rw [hfilt, if_pos rfl, (hs.table c hc).2]
  · rw [hfilt, if_neg (Ne.symm hd), Nat.add_zero]
  · by_cases heq : u = t
    · subst heq
      rw [update_self]
      exact .inl rfl
    · rw [update_of_ne heq]
      exact .inr ⟨Finset.mem_of_mem_insert_of_ne hu heq, rfl⟩
  · rw [Finset.mem_insert, not_or] at hu
    rw [update_of_ne hu.1]
    exact hs.gone u hu.2

lemma Sound.dropTask (hs : s.Sound extra) (ht : t ∈ s.tasks) (hctx : (s.task t).context = some c) :
    ({ s.setContext c { s.context c with references := (s.context c).references - 1 } with
        tasks := s.tasks.erase t
        task := update s.task t ⟨none, none, false, false⟩ } : State).Sound extra := by
  obtain ⟨c', hc, hctx'⟩ := hs.member t ht
  obtain rfl : c = c' := Option.some.inj (hctx.symm.trans hctx')
  have hfilt : ∀ d, users { s with
      tasks := s.tasks.erase t, task := update s.task t ⟨none, none, false, false⟩ } d +
      (if c = d then 1 else 0) = s.users d := by
    intro d
    unfold users
    dsimp only
    have hrest : ((s.tasks.erase t).filter fun u =>
        (update s.task t ⟨none, none, false, false⟩ u).context = some d) =
        (s.tasks.filter fun u => (s.task u).context = some d).erase t := by
      ext u
      simp only [Finset.mem_filter, Finset.mem_erase]
      constructor
      · rintro ⟨⟨hne, hu⟩, heq⟩
        rw [update_of_ne hne] at heq
        exact ⟨hne, hu, heq⟩
      · rintro ⟨hne, hu, heq⟩
        rw [update_of_ne hne]
        exact ⟨⟨hne, hu⟩, heq⟩
    rw [hrest]
    by_cases heq : c = d
    · have hmem : t ∈ s.tasks.filter fun u => (s.task u).context = some d :=
        Finset.mem_filter.mpr ⟨ht, hctx.trans (congrArg some heq)⟩
      rw [if_pos heq, Finset.card_erase_add_one hmem]
    · rw [if_neg heq, Finset.erase_eq_of_notMem]
      · rfl
      · intro hmem
        have := (Finset.mem_filter.mp hmem).2
        rw [hctx, Option.some.injEq] at this
        exact heq this
  refine hs.setUsers hc ?_ (fun d hd => ?_) (fun u hu => ?_) fun u hu => ?_
  · have hcard := hfilt c
    rw [if_pos rfl] at hcard
    rw [(hs.table c hc).2]
    omega
  · have hcard := hfilt d
    rwa [if_neg (Ne.symm hd), Nat.add_zero] at hcard
  · have hne := Finset.ne_of_mem_erase hu
    rw [update_of_ne hne]
    exact .inr ⟨Finset.mem_of_mem_erase hu, rfl⟩
  · by_cases heq : u = t
    · subst heq
      rw [update_self]
      exact ⟨rfl, rfl, rfl⟩
    · rw [update_of_ne heq]
      exact hs.gone u fun hmem => hu (Finset.mem_erase.mpr ⟨heq, hmem⟩)

lemma foldl_vfsHandleRetain (handles : List ℕ) (s : State) :
    handles.foldl vfsHandleRetain s =
      { s with handle := fun h => (s.handle h).map fun handle =>
          { handle with references := handle.references + handles.count h } } := by
  induction handles generalizing s with
  | nil => simp
  | cons u handles ih =>
    rw [List.foldl_cons, ih]
    unfold vfsHandleRetain
    congr 1
    funext h
    dsimp only
    by_cases heq : h = u
    · subst heq
      rw [update_self, List.count_cons_self, map_map]
      congr 1
      funext handle
      simp only [comp, Nat.add_assoc, Nat.add_comm 1]
    · rw [update_of_ne heq, List.count_cons_of_ne (Ne.symm heq)]

lemma Sound.retainAll (handles : List ℕ) (hs : s.Sound extra) (hlive : ∀ h ∈ handles, 0 < s.held h) :
    (handles.foldl vfsHandleRetain s).Sound (handles ++ extra) := by
  rw [foldl_vfsHandleRetain]
  refine hs.sameEnds (fun h handle hh => ?_) (fun h handle hh => ?_) fun h hh => ?_
  · obtain ⟨handle', hh', rfl⟩ := map_eq_some_iff.mp hh
    exact ⟨handle', hh', rfl, rfl, rfl⟩
  · obtain ⟨handle', hh', rfl⟩ := map_eq_some_iff.mp hh
    obtain ⟨hcnt, hpos⟩ := hs.references h handle' hh'
    rw [List.count_append]
    dsimp only
    omega
  · have hpos : 0 < s.held h + extra.count h := by
      rw [List.count_append] at hh
      by_cases hmem : h ∈ handles
      · have := hlive h hmem
        omega
      · rw [List.count_eq_zero_of_not_mem hmem] at hh
        omega
    obtain ⟨handle, hhan⟩ := hs.live h hpos
    exact ⟨_, by rw [hhan, map_some]⟩

lemma held_pos (hc : c ∈ s.contexts) (hmem : some h ∈ (s.context c).entries.drop 3) : 0 < s.held h := by
  unfold held
  rw [← Finset.add_sum_erase _ _ hc]
  exact Nat.add_pos_left (List.count_pos_iff.mpr hmem) _

lemma Sound.lastUser (hs : s.Sound extra) (ht : t ∈ s.tasks) (hctx : (s.task t).context = some c)
    (hlast : (s.context c).references - 1 = 0) :
    ({ s with
        contexts := s.contexts.erase c, tasks := s.tasks.erase t
        task := update s.task t ⟨none, none, false, false⟩ } : State).Sound
      (heldBy (s.context c).entries ++ extra) := by
  obtain ⟨c', hc, hctx'⟩ := hs.member t ht
  obtain rfl : c = c' := Option.some.inj (hctx.symm.trans hctx')
  have hdrop := hs.dropTask ht hctx
  have hnob := (hdrop.table c hc).2
  rw [show ((s.setContext c { s.context c with references := (s.context c).references - 1 }).context c).references =
    (s.context c).references - 1 by simp [State.setContext], hlast] at hnob
  have hers := hdrop.eraseContext hc hnob.symm
  have hback := hers.setContext_of_notMem (c := c) (Finset.notMem_erase c s.contexts) (s.context c)
  simpa [State.setContext] using hback

lemma Sound.closeAll {handles : List ℕ} (hs : s.Sound (handles ++ extra)) :
    (handles.foldl State.vfsClose s).Sound extra := by
  induction handles generalizing s with
  | nil => exact hs
  | cons h handles ih => exact ih hs.vfsClose

/-- **`vfs_context_release` of a task that ends keeps the invariant.** -/
theorem Sound.vfsContextRelease (hs : s.Sound extra) (ht : t ∈ s.tasks)
    (hctx : (s.task t).context = some c) :
    (State.vfsContextRelease
      { s with tasks := s.tasks.erase t, task := update s.task t ⟨none, none, false, false⟩ } c).Sound
      extra := by
  obtain ⟨c', hc, hctx'⟩ := hs.member t ht
  obtain rfl : c = c' := Option.some.inj (hctx.symm.trans hctx')
  have hpos : (s.context c).references ≠ 0 := by
    rw [(hs.table c hc).2]
    unfold users
    exact Finset.card_ne_zero_of_mem (Finset.mem_filter.mpr ⟨ht, hctx⟩)
  unfold State.vfsContextRelease
  dsimp only
  rw [if_neg hpos]
  by_cases hmore : (s.context c).references - 1 ≠ 0
  · rw [if_pos hmore]
    exact hs.dropTask ht hctx
  · rw [if_neg hmore]
    exact (hs.lastUser ht hctx (not_not.mp hmore)).closeAll

/-! ### Reading and writing -/

variable {q : VfsPipe}

lemma Sound.move {q' : VfsPipe} (log : Log) (hs : s.Sound extra) (hq : s.pipe p = some q)
    (hiden : q'.identity = q.identity) (hread : q'.readOpen = q.readOpen) (hwr : q'.writeOpen = q.writeOpen)
    (hhead : q'.head < vfsPipeCapacity) (hused : q'.used ≤ vfsPipeCapacity)
    (hlog : log.accepted.flatten = log.returned.flatten ++ Ring.content vfsPipeCapacity q'.data q'.head q'.used) :
    ({ s.setPipe p (some q') with log := update s.log q.identity log } : State).Sound extra := by
  have hold : ∀ {v : ℕ} {r : VfsPipe}, (s.setPipe p (some q')).pipe v = some r →
      v = p ∧ q' = r ∨ v ≠ p ∧ s.pipe v = some r := fun hv =>
    (update_cases hv).imp_left (.imp_right Option.some.inj)
  have hsame : ∀ {v : ℕ} {r : VfsPipe}, (s.setPipe p (some q')).pipe v = some r →
      ∃ r', s.pipe v = some r' ∧ r.identity = r'.identity := by
    intro v r hv
    rcases hold hv with ⟨rfl, rfl⟩ | ⟨-, hv⟩
    · exact ⟨q, hq, hiden⟩
    · exact ⟨r, hv, rfl⟩
  refine { hs with ends := fun u hd v hu hv => ?_, identity := fun v r hv => ?_, identity_inj := ?_,
                   unused := fun identity hlt => ?_, ring := fun v r hv => ?_, prefix_ := fun identity => ?_ }
  · obtain ⟨hends, r, hr, hopen⟩ := hs.ends u hd v hu hv
    refine ⟨hends, ?_⟩
    by_cases heq : v = p
    · subst heq
      obtain rfl : q = r := Option.some.inj (hq.symm.trans hr)
      exact ⟨q', by simp [setPipe], by rwa [hread, hwr]⟩
    · exact ⟨r, by simpa only [setPipe, update_of_ne heq] using hr, hopen⟩
  · obtain ⟨r', hr', hid⟩ := hsame hv
    rw [hid]
    exact hs.identity v r' hr'
  · intro v r v' r' hv hv' heq
    obtain ⟨r₁, hr₁, hid⟩ := hsame hv
    obtain ⟨r₂, hr₂, hid'⟩ := hsame hv'
    exact hs.identity_inj v r₁ v' r₂ hr₁ hr₂ (hid.symm.trans (heq.trans hid'))
  · have hle := (hs.identity p q hq).2
    change s.identitySequence < identity at hlt
    have hne : identity ≠ q.identity := by omega
    show update s.log q.identity log identity = _
    rw [update_of_ne hne]
    exact hs.unused identity hlt
  · show r.head < vfsPipeCapacity ∧ r.used ≤ vfsPipeCapacity ∧
      (update s.log q.identity log r.identity).accepted.flatten =
        (update s.log q.identity log r.identity).returned.flatten ++ _
    rcases hold hv with ⟨rfl, rfl⟩ | ⟨hne, hv⟩
    · rw [hiden, update_self]
      exact ⟨hhead, hused, hlog⟩
    · have hne' : r.identity ≠ q.identity := fun heq => hne (hs.identity_inj v r p q hv hq heq)
      rw [update_of_ne hne']
      exact hs.ring v r hv
  · show (update s.log q.identity log identity).returned.flatten <+:
      (update s.log q.identity log identity).accepted.flatten
    by_cases heq : identity = q.identity
    · subst heq
      rw [update_self, hlog]
      exact List.prefix_append _ _
    · rw [update_of_ne heq]
      exact hs.prefix_ identity

lemma Woken.record {woken : List ℕ} (hw : Woken s s' woken) (identity : ℕ) (write : Bool) (chunk : List UInt8) :
    Woken (s.record identity write chunk) (s'.record identity write chunk) woken := by
  refine { hw with log := ?_ }
  unfold State.record
  rw [hw.log]

lemma Sound.recordNil (hs : s.Sound extra) (hq : s.pipe p = some q) (write : Bool) :
    (s.record q.identity write []).Sound extra := by
  obtain ⟨hhead, hused, hlog⟩ := hs.ring p q hq
  have hmove := hs.move (if write then { s.log q.identity with accepted := (s.log q.identity).accepted ++ [[]] }
    else { s.log q.identity with returned := (s.log q.identity).returned ++ [[]] }) hq rfl rfl rfl hhead hused (by
      cases write <;> simpa using hlog)
  rwa [setPipe, ← hq, Function.update_eq_self] at hmove

variable {source : ℕ → UInt8}

lemma vfsPipeIo_ok {handle : VfsHandle} {n : ℕ} {write : Bool}
    {chunk : List UInt8} (h : s.vfsPipeIo handle p q source length write = (.ok n, chunk, s')) :
    (n = 0 ∧ chunk = [] ∧ s' = s ∧ (length = 0 ∨ write = false ∧ q.used = 0 ∧ q.writeOpen = false)) ∨
      (write = true ∧ 0 < n ∧ n = min length (vfsPipeCapacity - q.used) ∧ (length ≤ vfsPipeAtomic → n = length) ∧
        s' = (s.setPipe p (some { q with
          data := Ring.push vfsPipeCapacity q.data q.head q.used source n, used := q.used + n })).ioPollWake p false) ∨
      (write = false ∧ 0 < n ∧ n = min length q.used ∧ chunk = Ring.front vfsPipeCapacity q.data q.head n ∧
        s' = (s.setPipe p (some { q with
          head := (q.head + n) % vfsPipeCapacity, used := q.used - n })).ioPollWake p true) := by
  unfold State.vfsPipeIo at h
  by_cases hflag : (if write then handle.write else handle.read) = true
  swap
  · rw [if_pos (by simpa using hflag)] at h
    cases h
  rw [if_neg (by simpa using hflag)] at h
  by_cases hzero : length = 0
  · rw [if_pos hzero] at h
    obtain ⟨h₁, h₂, h₃⟩ := Prod.mk.inj h |>.imp_right Prod.mk.inj
    exact .inl ⟨(Except.ok.inj h₁).symm, h₂.symm, h₃.symm, .inl hzero⟩
  rw [if_neg hzero] at h
  cases write with
  | true =>
    simp only [true_and, if_true, Bool.not_true, Bool.false_eq_true, false_and, if_false] at h
    split at h
    · cases h
    split at h
    · cases h
    case isFalse hroom =>
      obtain ⟨h₁, -, h₃⟩ := Prod.mk.inj h |>.imp_right Prod.mk.inj
      have hn : n = min length (vfsPipeCapacity - q.used) := (Except.ok.inj h₁).symm
      rw [not_or, not_and, not_lt] at hroom
      refine .inr (.inl ⟨rfl, by omega, hn, fun hle => ?_, by rw [← h₃, hn]⟩)
      have := hroom.2 hle
      omega
  | false =>
    simp only [Bool.false_eq_true, false_and, if_false, or_false, Bool.not_false, true_and] at h
    split at h
    · split at h
      · obtain ⟨h₁, h₂, h₃⟩ := Prod.mk.inj h |>.imp_right Prod.mk.inj
        refine .inl ⟨(Except.ok.inj h₁).symm, h₂.symm, h₃.symm, .inr ⟨rfl, ‹_›, by simpa using ‹(!q.writeOpen) = true›⟩⟩
      · cases h
    case isFalse hsome =>
      obtain ⟨h₁, h₂, h₃⟩ := Prod.mk.inj h |>.imp_right Prod.mk.inj
      have hn : n = min length q.used := (Except.ok.inj h₁).symm
      exact .inr (.inr ⟨rfl, by omega, hn, by rw [← h₂, hn], by rw [← h₃, hn]⟩)

lemma vfsPipeIo_error {handle : VfsHandle} {write : Bool}
    {chunk : List UInt8} {e : VfsError} (h : s.vfsPipeIo handle p q source length write = (.error e, chunk, s')) :
    s' = s := by
  have hst : ∀ {result : Except VfsError ℕ}, (result, ([] : List UInt8), s) = (.error e, chunk, s') → s' = s :=
    fun heq => (Prod.mk.inj (Prod.mk.inj heq).2).2.symm
  unfold State.vfsPipeIo at h
  by_cases hflag : (!(if write then handle.write else handle.read)) = true
  · rw [if_pos hflag] at h
    exact hst h
  rw [if_neg hflag] at h
  by_cases hzero : length = 0
  · rw [if_pos hzero] at h
    cases h
  rw [if_neg hzero] at h
  by_cases hpipe : write = true ∧ (!q.readOpen) = true
  · rw [if_pos hpipe] at h
    exact hst h
  rw [if_neg hpipe] at h
  dsimp only at h
  cases write with
  | true =>
    simp only [if_true] at h
    split at h
    · exact hst h
    · cases h
  | false =>
    simp only [Bool.false_eq_true, if_false] at h
    split at h
    · exact hst h
    · cases h

/-- **A pass through a pipe keeps the invariant.** -/
theorem Sound.vfsPipeIo {handle : VfsHandle} {n : ℕ} {write : Bool}
    {chunk : List UInt8} (hs : s.Sound extra) (hq : s.pipe p = some q)
    (h : s.vfsPipeIo handle p q source length write = (.ok n, chunk, s')) :
    (s'.record q.identity write (if write then (List.range n).map source else chunk)).Sound extra := by
  obtain ⟨hhead, hused, hlog⟩ := hs.ring p q hq
  rcases vfsPipeIo_ok h with ⟨rfl, rfl, rfl, -⟩ | ⟨rfl, hpos, hn, -, rfl⟩ | ⟨rfl, hpos, hn, rfl, rfl⟩
  · cases write <;> exact hs.recordNil hq _
  · obtain ⟨woken, hw, -⟩ := ioPollWake_woken (s.setPipe p (some { q with
      data := Ring.push vfsPipeCapacity q.data q.head q.used source n, used := q.used + n })) p false
    refine Sound.woken ?_ (hw.record q.identity true _)
    rw [if_pos rfl]
    refine hs.move { s.log q.identity with
      accepted := (s.log q.identity).accepted ++ [(List.range n).map source] } hq rfl rfl rfl hhead ?_ ?_
    · dsimp only
      omega
    · dsimp only
      rw [Ring.content_push hhead (by omega), List.flatten_append, hlog]
      simp
  · obtain ⟨woken, hw, -⟩ := ioPollWake_woken (s.setPipe p (some { q with
      head := (q.head + n) % vfsPipeCapacity, used := q.used - n })) p true
    refine Sound.woken ?_ (hw.record q.identity false _)
    rw [if_neg (by simp)]
    refine hs.move { s.log q.identity with
      returned := (s.log q.identity).returned ++ [Ring.front vfsPipeCapacity q.data q.head n] } hq rfl rfl rfl ?_ ?_ ?_
    · exact Nat.mod_lt _ (by decide)
    · dsimp only
      omega
    · dsimp only
      rw [Ring.content_pop, List.flatten_append, hlog, Ring.front_eq hhead (by omega) hused]
      simp

lemma Sound.detach (hs : s.Sound extra) (t : ℕ) : (s.detach t).Sound extra := by
  refine hs.queues fun p => ?_
  rw [map_map]
  rfl

lemma Sound.ioPollWatch (hs : s.Sound extra) (hq : s.pipe p = some q) (write : Bool) (t : ℕ) :
    (s.ioPollWatch p q write t).Sound extra := by
  refine hs.queues fun v => ?_
  by_cases heq : v = p
  · subst heq
    rw [update_self, hq, map_some, map_some]
    cases write <;> rfl
  · rw [update_of_ne heq]

lemma Sound.setTask (task : Task) (hs : s.Sound extra) (ht : t ∈ s.tasks)
    (hctx : task.context = (s.task t).context) : (s.setTask t task).Sound extra := by
  refine hs.setTasks _ (fun u => ?_) fun u hu => ?_
  · by_cases heq : u = t
    · subst heq
      rw [update_self, hctx]
    · rw [update_of_ne heq]
  · have hne : u ≠ t := fun heq => hu (heq ▸ ht)
    rw [update_of_ne hne]
    exact ⟨(hs.gone u hu).2.1, (hs.gone u hu).2.2⟩

/-- **A pass of `vfs_fd_io` keeps the invariant.** -/
theorem Sound.vfsFdIo {io : Io} {around : Around} (hs : s.Sound extra)
    (ht : t ∈ s.tasks) : (s.vfsFdIo t c io source around).2.Sound extra := by
  unfold State.vfsFdIo
  split
  · exact hs
  case h_2 h handle hfnd =>
    split
    · split
      · exact hs
      · exact hs
    case h_2 p q hpipe =>
      obtain ⟨p', -, hp⟩ := Option.bind_eq_some_iff.mp hpipe
      obtain ⟨q', hq, heq⟩ := map_eq_some_iff.mp hp
      obtain ⟨rfl, rfl⟩ := Prod.mk.inj heq
      split
      · exact hs
      split
      · exact hs
      split
      case h_1 n chunk s' hok => exact hs.vfsPipeIo hq hok
      case h_2 e chunk s' herr =>
        obtain rfl := vfsPipeIo_error herr
        split
        · exact hs
        split
        · exact hs
        split
        · exact hs
        · exact (hs.ioPollWatch hq io.write t).setTask _ ht rfl

lemma Sound.vfsFdClose (hs : s.Sound extra) (hc : c ∈ s.contexts) (descriptor : ℕ) :
    (s.vfsFdClose c descriptor).Sound extra := by
  unfold State.vfsFdClose
  split
  · exact hs
  case h_2 h hget =>
    have htake := hs.takeEntry hc hget
    dsimp only
    refine Sound.vfsClose ?_
    split
    · exact htake
    case h_2 p hpipe =>
      obtain ⟨woken, hw, -⟩ := wakeBoth_woken (s.setContext c _) p
      exact htake.woken hw

lemma Sound.setStatusFlags (hs : s.Sound extra) (c descriptor : ℕ) (nonblock : Bool) :
    (s.setStatusFlags c descriptor nonblock).Sound extra := by
  unfold State.setStatusFlags
  split
  · exact hs
  case h_2 h hget =>
    have hold : ∀ {u : ℕ} {hd : VfsHandle},
        update s.handle h ((s.handle h).map ({ · with nonblock := nonblock })) u = some hd →
        ∃ hd', s.handle u = some hd' ∧ hd.pipe = hd'.pipe ∧ hd.read = hd'.read ∧ hd.write = hd'.write ∧
          hd.references = hd'.references := by
      intro u hd hu
      rcases update_cases hu with ⟨rfl, hu⟩ | ⟨-, hu⟩
      · obtain ⟨hd', hhd', rfl⟩ := map_eq_some_iff.mp hu
        exact ⟨hd', hhd', rfl, rfl, rfl, rfl⟩
      · exact ⟨hd, hu, rfl, rfl, rfl, rfl⟩
    refine hs.sameEnds (fun u hd hu => ?_) (fun u hd hu => ?_) fun u hu => ?_
    · obtain ⟨hd', hu', hpipe, hread, hwr, -⟩ := hold hu
      exact ⟨hd', hu', hpipe, hread, hwr⟩
    · obtain ⟨hd', hu', -, -, -, hrefs⟩ := hold hu
      rw [hrefs]
      exact hs.references u hd' hu'
    · obtain ⟨hd, hhd⟩ := hs.live u hu
      by_cases heq : u = h
      · subst heq
        exact ⟨_, by rw [update_self, hhd, map_some]⟩
      · exact ⟨hd, by rwa [update_of_ne heq]⟩

lemma Sound.fork {d u : ℕ} (hs : s.Sound extra) (hc : c ∈ s.contexts) (hd : d ∉ s.contexts) (hu : u ∉ s.tasks) :
    ({ s.vfsContextFork c d with
        tasks := insert u (s.vfsContextFork c d).tasks
        task := update (s.vfsContextFork c d).task u ⟨some d, none, false, false⟩ } : State).Sound extra := by
  have hret := hs.retainAll (heldBy (s.context c).entries) fun h hh => by
    unfold heldBy at hh
    exact held_pos hc (List.reduceOption_mem_iff.mp hh)
  rw [foldl_vfsHandleRetain] at hret
  have hadd := hret.addContext (d := d) extra (s.context c).entries hd (hs.table c hc).1
    fun h => by
      unfold heldBy
      rw [List.count_append, count_reduceOption]
  have htsk := hadd.addTask (t := u) (c := d) hu (Finset.mem_insert_self ..)
  unfold vfsContextFork
  rw [foldl_vfsHandleRetain]
  simpa [State.setContext] using htsk

lemma mem_of_runs (hs : s.Sound extra) (hruns : s.runs t = some c) :
    t ∈ s.tasks ∧ c ∈ s.contexts ∧ (s.task t).context = some c ∧ (s.task t).io = none ∧
      (s.task t).waiting = false := by
  unfold runs at hruns
  split at hruns
  case isTrue h =>
    obtain ⟨ht, hio, hwait⟩ := h
    obtain ⟨c', hc, hctx⟩ := hs.member t ht
    obtain rfl : c = c' := Option.some.inj (hruns.symm.trans hctx)
    exact ⟨ht, hc, hruns, by simpa using hio, by simpa using hwait⟩
  · cases hruns

lemma Sound.init (hinit : s.Init) : s.Sound [] := by
  have hheld : ∀ h, s.held h = 0 := by
    intro h
    unfold held
    rw [hinit.contexts, Finset.sum_empty]
  refine ⟨fun h handle hh => ?_, fun h hh => ?_, fun h handle p hh => ?_, fun h handle _ _ p hh => ?_,
    fun p q hq => ?_, fun p q _ _ hq => ?_, fun identity _ => hinit.log identity, fun p q hq => ?_,
    fun identity => ?_, fun c hc => ?_, fun t ht => ?_, fun t _ => ?_⟩
  · rw [hinit.handle] at hh
    cases hh
  · rw [hheld] at hh
    exact absurd hh (by simp)
  · rw [hinit.handle] at hh
    cases hh
  · rw [hinit.handle] at hh
    cases hh
  · rw [hinit.pipe] at hq
    cases hq
  · rw [hinit.pipe] at hq
    cases hq
  · rw [hinit.pipe] at hq
    cases hq
  · rw [hinit.log]
  · rw [hinit.contexts] at hc
    cases hc
  · rw [hinit.tasks] at ht
    cases ht
  · rw [hinit.task]
    exact ⟨rfl, rfl, rfl⟩

/-- **Every step keeps the invariant.** -/
theorem Sound.step {event : PipeEvent} (hs : s.Sound []) (hstep : s.step event = some s') : s'.Sound [] := by
  cases event with
  | create t c =>
    simp only [State.step] at hstep
    split at hstep
    case isTrue h =>
      cases hstep
      have hadd := hs.addContext [] (List.replicate vfsInitialFdCapacity none) h.2 (by decide)
        fun u => by simp [List.count_replicate]
      have htsk := hadd.addTask (t := t) (c := c) h.1 (Finset.mem_insert_self ..)
      simpa [State.setContext] using htsk
    · cases hstep
  | fork t u d =>
    simp only [State.step] at hstep
    split at hstep
    · cases hstep
    case h_2 c hruns =>
      split at hstep
      case isTrue h =>
        cases hstep
        exact hs.fork (mem_of_runs hs hruns).2.1 h.2 h.1
      · cases hstep
  | thread t u =>
    simp only [State.step] at hstep
    split at hstep
    · cases hstep
    case h_2 c hruns =>
      split at hstep
      case isTrue h =>
        cases hstep
        exact hs.addTask h (mem_of_runs hs hruns).2.1
      · cases hstep
  | exit t =>
    simp only [State.step] at hstep
    split at hstep
    case isTrue ht =>
      split at hstep
      · cases hstep
      case h_2 c hctx =>
        cases hstep
        exact (hs.detach t).vfsContextRelease ht hctx
    · cases hstep
  | pipe t nonblock memory =>
    simp only [State.step] at hstep
    split at hstep
    case isTrue hfr =>
      obtain ⟨c, hruns, rfl⟩ := map_eq_some_iff.mp hstep
      exact hs.vfsFdPipe (mem_of_runs hs hruns).2.1 nonblock hfr
    · cases hstep
  | open_ t h read write nonblock memory =>
    simp only [State.step] at hstep
    split at hstep
    case isTrue hfree =>
      obtain ⟨c, hruns, rfl⟩ := map_eq_some_iff.mp hstep
      exact hs.vfsFdOpen (mem_of_runs hs hruns).2.1 (by simpa using hfree) read write nonblock memory
    · cases hstep
  | close t descriptor =>
    obtain ⟨c, hruns, rfl⟩ := map_eq_some_iff.mp hstep
    exact hs.vfsFdClose (mem_of_runs hs hruns).2.1 descriptor
  | setFlags t descriptor nonblock =>
    obtain ⟨c, hruns, rfl⟩ := map_eq_some_iff.mp hstep
    exact hs.setStatusFlags c descriptor nonblock
  | io t descriptor length write source around =>
    obtain ⟨c, hruns, rfl⟩ := map_eq_some_iff.mp hstep
    exact hs.vfsFdIo (mem_of_runs hs hruns).1
  | resume t interrupted source around =>
    simp only [State.step] at hstep
    split at hstep
    case h_1 io c hio hctx =>
      split at hstep
      · cases hstep
      have ht : t ∈ s.tasks := by
        by_contra hnot
        rw [(hs.gone t hnot).1] at hctx
        cases hctx
      have hclr := (hs.detach t).setTask { s.task t with io := none } ht rfl
      split at hstep
      · cases hstep
        exact hclr
      · cases hstep
        exact hclr.vfsFdIo ht
    · cases hstep
  | wake t =>
    cases hstep
    exact hs.woken (Woken.taskRun s t)

end PlantOS.Pipe.State

import Brookesia.AppStore.RefreshState

/-! # Every refresh ends once

Every step keeps the invariant, in the runs in which a result that is accepted belongs to the refresh in progress, the result of a
submission comes before the answer to its request is handled, and the watchdog does not end a refresh whose answer has come (`Own`). -/

namespace Brookesia.AppStore

open Transition List Option

namespace Refresh

variable {s t : Refresh}

/-! ### The ends -/

/-- A refresh is in progress, and nothing of it is set that its end would leave behind. -/
structure Free (s : Refresh) : Prop where
  numbered : s.Numbered
  goes : s.inProgress = true
  still : s.Still

/-- Nothing is under way for the refresh in progress. -/
structure Ready (s : Refresh) : Prop extends Free s where
  checks : s.ownChecks = []
  submissions : s.ownSubmissions = []

theorem Kept.watchdog (h : s.Kept) (id : ℕ) : ({ s with watchdog := id } : Refresh).Kept :=
  ⟨h.numbered.same rfl rfl rfl rfl (fun hs => hs) (Subset.refl _) (Subset.refl _) rfl rfl,
    h.chained.agree ⟨rfl, rfl, rfl, rfl, rfl, rfl, rfl, rfl, fun _ => rfl, fun _ => rfl, fun _ => rfl, Subset.refl _⟩
      (fun _ _ _ hansr => hansr) (fun _ _ htim => htim) (fun _ htim => htim) fun _ htim => htim⟩

theorem Free.finish (h : s.Free) (how : RefreshEnd) : (s.finish how).Kept := by
  have hn := h.numbered
  obtain ⟨hctx, hpos⟩ := hn.context h.goes
  have hfin : (s.finish how).finished = s.finished ++ [s.refreshes - 1] := map_append
  refine ⟨⟨?_, fun n hlt => ?_, fun hgoes => ?_, fun n hmem => ?_, fun hgoes => ?_, fun _ => rfl, hn.checks, hn.submissions,
    hn.accepted, hn.positive, hn.ids, hn.own⟩, .idle rfl ?_ rfl⟩
  · rw [hfin]
    refine nodup_append.mpr ⟨hn.once, nodup_singleton _, fun n hmem m hm heq => ?_⟩
    rw [mem_singleton.mp hm] at heq
    have hcur := hn.current h.goes n hmem
    omega
  · rw [hfin]
    rcases hn.each n hlt with hmem | ⟨hcur, -⟩
    · exact .inl (mem_append_left _ hmem)
    · refine .inl (mem_append_right _ (mem_singleton.mpr ?_))
      omega
  · cases hgoes
  · rw [hfin] at hmem
    rcases mem_append.mp hmem with hold | hlast
    · exact hn.past n hold
    · rw [mem_singleton.mp hlast]
      exact Nat.pred_lt_of_lt hpos
  · cases hgoes
  · have hstill := h.still
    exact ⟨hstill.pending, hstill.result, hstill.waiting, hstill.sync, hstill.close⟩

theorem Free.finishError (h : s.Free) (message : String) : (s.finishError message).Kept :=
  (h.finish (.error message)).watchdog 0

theorem Free.finishSuccess (h : s.Free) : s.finishSuccess.Kept := (h.finish .success).watchdog 0

theorem Free.requestId (h : s.Free) (id : ℕ) : ({ s with requestId := id } : Refresh).Free := by
  have hstill := h.still
  exact ⟨h.numbered.same rfl rfl rfl rfl (fun hs => hs) (Subset.refl _) (Subset.refl _) rfl rfl, h.goes,
    ⟨hstill.pending, hstill.result, hstill.waiting, hstill.sync, hstill.close⟩⟩

/-! ### The requests -/

theorem Ready.startRemoteRefreshRequest (h : s.Ready) (w : World) : (s.startRemoteRefreshRequest w).Kept := by
  unfold Refresh.startRemoteRefreshRequest
  split
  · exact h.toFree.finishError _
  · split
    · exact h.toFree.finishError _
    · split
      · have hn := h.numbered
        have hpos := (hn.context h.goes).2
        have hlast : s.refreshes - 1 + 1 = s.refreshes := Nat.succ_pred_eq_of_pos hpos
        have hstill := h.still
        refine ⟨⟨hn.once, hn.each, hn.current, hn.past, hn.context, hn.startup, hn.checks, fun submission hmem => ?_,
          fun submission hmem id hacc => ?_, hn.positive, hn.ids, hn.own⟩,
          .submits { generation := s.asyncGeneration, refresh := s.refreshes - 1 } h.goes
            ⟨hstill.pending, hstill.result, hstill.waiting, hstill.sync, hstill.close⟩ rfl h.checks ?_ rfl
            fun id hnone => absurd hnone (some_ne_none id).symm⟩
        · rcases mem_append.mp hmem with hold | hnew
          · exact hn.submissions submission hold
          · rw [mem_singleton.mp hnew]
            exact Nat.pred_lt_of_lt hpos
        · rcases mem_append.mp hmem with hold | hnew
          · exact hn.accepted submission hold id hacc
          · rw [mem_singleton.mp hnew] at hacc
            exact absurd hacc (some_ne_none id).symm
        · refine (filter_append ..).trans ?_
          rw [show List.filter _ s.submissions = [] from h.submissions, nil_append]
          refine filter_eq_self.mpr fun submission hmem => ?_
          rw [mem_singleton.mp hmem]
          exact decide_eq_true hlast
      · exact (h.toFree.requestId 0).finishError _

theorem Ready.submitNetworkCheck (h : s.Ready) (hid : s.requestId = 0) {purpose : NetworkCheckPurpose}
    (hpurp : purpose ≠ .startupCache) (w : World) : (s.submitNetworkCheck purpose w).Kept := by
  unfold Refresh.submitNetworkCheck
  split
  · have hn := h.numbered
    have hpos := (hn.context h.goes).2
    have hlast : s.refreshes - 1 + 1 = s.refreshes := Nat.succ_pred_eq_of_pos hpos
    have hstill := h.still
    refine ⟨⟨hn.once, hn.each, hn.current, hn.past, hn.context, hn.startup, fun check hmem hoth => ?_, hn.submissions,
      hn.accepted, hn.positive, hn.ids, hn.own⟩,
      .checks { purpose := purpose, generation := s.asyncGeneration, refresh := s.refreshes - 1 } h.goes
        ⟨hstill.pending, hstill.result, hstill.waiting, hstill.sync, hstill.close⟩ hid ?_ h.submissions rfl⟩
    · rcases mem_append.mp hmem with hold | hnew
      · exact hn.checks check hold hoth
      · rw [mem_singleton.mp hnew]
        exact Nat.pred_lt_of_lt hpos
    · refine (filter_append ..).trans ?_
      rw [show List.filter _ s.checks = [] from h.checks, nil_append]
      refine filter_eq_self.mpr fun check hmem => ?_
      rw [mem_singleton.mp hmem]
      exact decide_eq_true ⟨hpurp, hlast⟩
  · exact h.toFree.finishError _

theorem Kept.beginRefresh (h : s.Kept) (hidle : s.inProgress = false) (hctx : s.context = true)
    (hstartup : s.startupLoading = false) : s.beginRefresh.Ready := by
  have hn := h.numbered
  have hstill : s.Still := by
    cases h.chained with
    | idle _ hstill => exact hstill
    | checks _ hgoes => exact absurd (hidle.symm.trans hgoes) Bool.false_ne_true
    | submits _ hgoes => exact absurd (hidle.symm.trans hgoes) Bool.false_ne_true
    | requests hgoes => exact absurd (hidle.symm.trans hgoes) Bool.false_ne_true
    | answered _ hgoes => exact absurd (hidle.symm.trans hgoes) Bool.false_ne_true
    | syncs hgoes => exact absurd (hidle.symm.trans hgoes) Bool.false_ne_true
    | closes hgoes => exact absurd (hidle.symm.trans hgoes) Bool.false_ne_true
  refine ⟨⟨⟨hn.once, fun n hlt => ?_, fun _ n hmem heq => ?_, fun n hmem => Nat.lt_succ_of_lt (hn.past n hmem),
    fun _ => ⟨hctx, Nat.succ_pos _⟩, fun hs => ?_, fun check hmem hpurp => Nat.lt_succ_of_lt (hn.checks check hmem hpurp),
    fun submission hmem => Nat.lt_succ_of_lt (hn.submissions submission hmem), hn.accepted, hn.positive, hn.ids, hn.own⟩, rfl,
    ⟨hstill.pending, hstill.result, hstill.waiting, hstill.sync, hstill.close⟩⟩, ?_, ?_⟩
  · have hlt : n < s.refreshes + 1 := hlt
    rcases Nat.lt_succ_iff_lt_or_eq.mp hlt with hbef | rfl
    · rcases hn.each n hbef with hmem | ⟨-, hgoes⟩
      · exact .inl hmem
      · rw [hidle] at hgoes
        cases hgoes
    · exact .inr ⟨rfl, rfl⟩
  · have hlt := hn.past n hmem
    have heq : n + 1 = s.refreshes + 1 := heq
    omega
  · rw [show s.startupLoading = true from hs] at hstartup
    cases hstartup
  · refine filter_eq_nil_iff.mpr fun check hmem hown => ?_
    obtain ⟨hpurp, heq⟩ := of_decide_eq_true hown
    have hlt := hn.checks check hmem hpurp
    have heq : check.refresh + 1 = s.refreshes + 1 := heq
    omega
  · refine filter_eq_nil_iff.mpr fun submission hmem hown => ?_
    have heq : submission.refresh + 1 = s.refreshes + 1 := of_decide_eq_true hown
    have hlt := hn.submissions submission hmem
    omega

theorem Kept.startupDone (h : s.Kept) : ({ s with startupLoading := false } : Refresh).Kept :=
  ⟨h.numbered.same rfl rfl rfl rfl (fun hs => absurd hs Bool.false_ne_true) (Subset.refl _) (Subset.refl _) rfl rfl,
    h.chained.agree ⟨rfl, rfl, rfl, rfl, rfl, rfl, rfl, rfl, fun _ => rfl, fun _ => rfl, fun _ => rfl, Subset.refl _⟩
      (fun _ _ _ hansr => hansr) (fun _ _ htim => htim) (fun _ htim => htim) fun _ htim => htim⟩

theorem Kept.startRemoteRefresh (h : s.Kept) (hctx : s.context = true) (w : World) : (s.startRemoteRefresh w).Kept := by
  unfold Refresh.startRemoteRefresh
  dsimp only
  split
  · exact h.startupDone
  · next hidle =>
    have hrdy := h.startupDone.beginRefresh (Bool.eq_false_iff.mpr hidle) hctx rfl
    exact hrdy.submitNetworkCheck rfl NetworkCheckPurpose.noConfusion w

theorem Kept.startupRefresh (h : s.Kept) (hctx : s.context = true) (hstartup : s.startupLoading = true) (w : World) :
    (s.startupRefresh w).Kept := by
  unfold Refresh.startupRefresh
  dsimp only
  split
  · exact h.startupDone
  · have hrdy := h.startupDone.beginRefresh (h.numbered.startup hstartup) hctx rfl
    exact hrdy.submitNetworkCheck rfl NetworkCheckPurpose.noConfusion w

theorem Kept.startupCached (h : s.Kept) (w : World) : (s.startupCached w).Kept := by
  unfold Refresh.startupCached
  dsimp only
  split
  · have hn := h.numbered
    have hchk : ({ s with
        startupLoading := false
        checks := s.checks ++ [{ purpose := .startupCache, generation := s.asyncGeneration, refresh := s.refreshes - 1 }] }
          : Refresh).ownChecks = s.ownChecks := by
      refine (filter_append ..).trans ?_
      rw [filter_singleton]
      exact append_nil _
    refine ⟨⟨hn.once, hn.each, hn.current, hn.past, hn.context, fun hs => absurd hs Bool.false_ne_true, fun check hmem hpurp => ?_,
      hn.submissions, hn.accepted, hn.positive, hn.ids, hn.own⟩,
      h.chained.agree ⟨rfl, rfl, rfl, rfl, rfl, rfl, rfl, rfl, fun _ => rfl, fun _ => hchk, fun _ => rfl, Subset.refl _⟩
        (fun _ _ _ hansr => hansr) (fun _ _ htim => htim) (fun _ htim => htim) fun _ htim => htim⟩
    rcases mem_append.mp hmem with hold | hnew
    · exact hn.checks check hold hpurp
    · rw [mem_singleton.mp hnew] at hpurp
      exact absurd rfl hpurp
  · exact h.startupDone

/-! ### The network checks -/

variable {check : NetworkCheck} {submission : Submission}

theorem Kept.of_ownCheck (h : s.Kept) (hgoes : s.inProgress = true) (hmem : check ∈ s.ownChecks) :
    s.Still ∧ s.ownChecks = [check] ∧ s.ownSubmissions = [] ∧ check.generation = s.asyncGeneration := by
  cases h.chained with
  | idle hidle =>
    rw [hidle] at hgoes
    cases hgoes
  | checks other _ hstill _ hchk hsubs hgen =>
    rw [hchk] at hmem
    rw [mem_singleton.mp hmem]
    exact ⟨hstill, hchk, hsubs, hgen⟩
  | submits _ _ _ _ hchk => exact absurd (hchk ▸ hmem) not_mem_nil
  | requests _ _ _ hchk => exact absurd (hchk ▸ hmem) not_mem_nil
  | answered _ _ _ _ _ _ _ _ _ hchk => exact absurd (hchk ▸ hmem) not_mem_nil
  | syncs _ _ _ _ _ _ _ hchk => exact absurd (hchk ▸ hmem) not_mem_nil
  | closes _ _ _ _ _ _ _ hchk => exact absurd (hchk ▸ hmem) not_mem_nil

theorem Kept.of_ownSubmission (h : s.Kept) (hgoes : s.inProgress = true) (hmem : submission ∈ s.ownSubmissions) :
    s.Still ∧ s.requestId = 0 ∧ s.ownChecks = [] ∧ s.ownSubmissions = [submission] ∧
      submission.generation = s.asyncGeneration ∧ ∀ id, submission.accepted = some id → s.Answerable id := by
  cases h.chained with
  | idle hidle =>
    rw [hidle] at hgoes
    cases hgoes
  | submits other _ hstill hid hchk hsubs hgen hacc =>
    rw [hsubs] at hmem
    rw [mem_singleton.mp hmem]
    exact ⟨hstill, hid, hchk, hsubs, hgen, hacc⟩
  | checks _ _ _ _ _ hsubs => exact absurd (hsubs ▸ hmem) not_mem_nil
  | requests _ _ _ _ hsubs => exact absurd (hsubs ▸ hmem) not_mem_nil
  | answered _ _ _ _ _ _ _ _ _ _ hsubs => exact absurd (hsubs ▸ hmem) not_mem_nil
  | syncs _ _ _ _ _ _ _ _ hsubs => exact absurd (hsubs ▸ hmem) not_mem_nil
  | closes _ _ _ _ _ _ _ _ hsubs => exact absurd (hsubs ▸ hmem) not_mem_nil

theorem Kept.ownChecks_accepts (h : s.Kept) (hgoes : s.inProgress = true) (hmem : check ∈ s.ownChecks) :
    s.Accepts check.generation :=
  ⟨(h.numbered.context hgoes).1, (h.of_ownCheck hgoes hmem).2.2.2⟩

theorem Kept.ownSubmissions_accepts (h : s.Kept) (hgoes : s.inProgress = true)
    (hmem : submission ∈ s.ownSubmissions) : s.Accepts submission.generation :=
  ⟨(h.numbered.context hgoes).1, (h.of_ownSubmission hgoes hmem).2.2.2.2.1⟩

theorem Kept.eraseCheck (h : s.Kept) (hnot : s.inProgress = true → check ∉ s.ownChecks) (ready : Bool) :
    ({ s with checks := s.checks.erase check, networkReady := ready } : Refresh).Kept := by
  have hchk : s.inProgress = true →
      ({ s with checks := s.checks.erase check, networkReady := ready } : Refresh).ownChecks = s.ownChecks := by
    intro hgoes
    refine erase_filter.symm.trans ?_
    exact erase_of_not_mem (hnot hgoes)
  exact ⟨h.numbered.same rfl rfl rfl rfl (fun hs => hs) (fun _ hmem => mem_of_mem_erase hmem) (Subset.refl _) rfl rfl,
    h.chained.agree ⟨rfl, rfl, rfl, rfl, rfl, rfl, rfl, rfl, fun _ => rfl, hchk, fun _ => rfl, Subset.refl _⟩
      (fun _ _ _ hansr => hansr) (fun _ _ htim => htim) (fun _ htim => htim) fun _ htim => htim⟩

theorem Kept.checked (h : s.Kept) (hgoes : s.inProgress = true) (hmem : check ∈ s.ownChecks) (ready : Bool) :
    ({ s with checks := s.checks.erase check, networkReady := ready } : Refresh).Ready := by
  have hn : ({ s with checks := s.checks.erase check, networkReady := ready } : Refresh).Numbered :=
    h.numbered.same rfl rfl rfl rfl (fun hs => hs) (fun _ hmem => mem_of_mem_erase hmem) (Subset.refl _) rfl rfl
  obtain ⟨hstill, hchk, hsubs, -⟩ := h.of_ownCheck hgoes hmem
  refine ⟨⟨hn, hgoes, ⟨hstill.pending, hstill.result, hstill.waiting, hstill.sync, hstill.close⟩⟩, ?_, hsubs⟩
  refine erase_filter.symm.trans ?_
  rw [show List.filter _ s.checks = [check] from hchk, erase_cons_head]

theorem Kept.handleNetworkCheck (h : s.Kept) (hmem : check ∈ s.checks)
    (hown : s.Accepts check.generation → check.purpose ≠ .startupCache → s.inProgress = true ∧ check.refresh + 1 = s.refreshes)
    (ready : Bool) (w : World) : (({ s with checks := s.checks.erase check } : Refresh).handleNetworkCheck check ready w).Kept := by
  have hcache : check.purpose = .startupCache → check ∉ s.ownChecks := by
    intro hpurp hmem
    exact (of_decide_eq_true (mem_filter.mp hmem).2).1 hpurp
  unfold Refresh.handleNetworkCheck
  split
  · next hstale => exact h.eraseCheck (fun hgoes hown => hstale (h.ownChecks_accepts hgoes hown)) s.networkReady
  · next haccs =>
    have haccs : s.Accepts check.generation := not_not.mp haccs
    split
    · split
      · next hpurp => exact h.eraseCheck (fun _ => hcache hpurp) true
      · next hpurp =>
        obtain ⟨hgoes, hrefr⟩ := hown haccs hpurp
        have hcheck : check ∈ s.ownChecks := mem_filter.mpr ⟨hmem, decide_eq_true ⟨hpurp, hrefr⟩⟩
        exact (h.checked hgoes hcheck true).startRemoteRefreshRequest w
    · split
      · next hpurp => exact h.eraseCheck (fun _ => hcache hpurp) false
      · next hpurp =>
        obtain ⟨hgoes, hrefr⟩ := hown haccs hpurp
        have hcheck : check ∈ s.ownChecks := mem_filter.mpr ⟨hmem, decide_eq_true ⟨hpurp, hrefr⟩⟩
        exact (h.checked hgoes hcheck false).toFree.finish .networkUnavailable

/-! ### The submissions -/

theorem Kept.eraseSubmission (h : s.Kept) (hnot : s.inProgress = true → submission ∉ s.ownSubmissions) :
    ({ s with submissions := s.submissions.erase submission } : Refresh).Kept := by
  have hsubs : s.inProgress = true →
      ({ s with submissions := s.submissions.erase submission } : Refresh).ownSubmissions = s.ownSubmissions := by
    intro hgoes
    refine erase_filter.symm.trans ?_
    exact erase_of_not_mem (hnot hgoes)
  exact ⟨h.numbered.same rfl rfl rfl rfl (fun hs => hs) (Subset.refl _) (fun _ hmem => mem_of_mem_erase hmem) rfl rfl,
    h.chained.agree ⟨rfl, rfl, rfl, rfl, rfl, rfl, rfl, rfl, fun _ => rfl, fun _ => rfl, hsubs, Subset.refl _⟩
      (fun _ _ _ hansr => hansr) (fun _ _ htim => htim) (fun _ htim => htim) fun _ htim => htim⟩

theorem Kept.submissionDone (h : s.Kept) (hgoes : s.inProgress = true)
    (hmem : submission ∈ s.ownSubmissions) : s.requestId = 0 ∧
      ({ s with submissions := s.submissions.erase submission } : Refresh).Ready ∧
      ∀ id, submission.accepted = some id → s.Answerable id ∧ 0 < id ∧ { id := id, refresh := s.refreshes - 1 } ∈ s.submitted := by
  have hn : ({ s with submissions := s.submissions.erase submission } : Refresh).Numbered :=
    h.numbered.same rfl rfl rfl rfl (fun hs => hs) (Subset.refl _) (fun _ hmem => mem_of_mem_erase hmem) rfl rfl
  obtain ⟨hstill, hid, hchk, hsubs, -, hacc⟩ := h.of_ownSubmission hgoes hmem
  obtain ⟨hsubmission, hrefr⟩ := mem_filter.mp hmem
  have hlast : submission.refresh = s.refreshes - 1 := by
    have heq : submission.refresh + 1 = s.refreshes := of_decide_eq_true hrefr
    omega
  refine ⟨hid, ⟨⟨hn, hgoes, ⟨hstill.pending, hstill.result, hstill.waiting, hstill.sync, hstill.close⟩⟩, hchk, ?_⟩,
    fun id hsome => ⟨hacc id hsome, ?_, ?_⟩⟩
  · refine erase_filter.symm.trans ?_
    rw [show List.filter _ s.submissions = [submission] from hsubs, erase_cons_head]
  · exact h.numbered.positive _ (h.numbered.accepted submission hsubmission id hsome)
  · rw [← hlast]
    exact h.numbered.accepted submission hsubmission id hsome

theorem Ready.beginTimeSyncWait (h : s.Ready) (w : World) : (s.beginTimeSyncWait w).Kept := by
  have hn := h.numbered
  have hstill := h.still
  unfold Refresh.beginTimeSyncWait
  dsimp only
  rw [if_neg (not_not.mpr hstill.sync)]
  split
  · refine ⟨hn.same rfl rfl rfl rfl (fun hs => hs) (Subset.refl _) (Subset.refl _) rfl rfl,
      .syncs h.goes hstill.pending hstill.result rfl rfl ?_ rfl h.checks h.submissions⟩
    exact mem_append_right _ (mem_singleton_self _)
  · have hfree : ({ s with closeTimer := 0, requestId := 0, timeSyncWaiting := false } : Refresh).Free :=
      ⟨hn.same rfl rfl rfl rfl (fun hs => hs) (Subset.refl _) (Subset.refl _) rfl rfl, h.goes,
        ⟨hstill.pending, hstill.result, rfl, hstill.sync, rfl⟩⟩
    exact hfree.finishError _

theorem Ready.submitAccepted (h : s.Ready) (hid : s.requestId = 0) {id : ℕ} (hpos : 0 < id) (hansr : s.Answerable id)
    (hsub : { id := id, refresh := s.refreshes - 1 } ∈ s.submitted) (w : World) : (s.submitAccepted id w).Kept := by
  have hn := h.numbered
  have hstill := h.still
  have hnone : ¬ (s.inProgress = false ∨ s.requestId ≠ 0) := by
    rw [h.goes, hid]
    exact fun hc => hc.elim (fun hf => Bool.false_ne_true hf.symm) fun hf => hf rfl
  have hchained : ∀ t : Refresh, t.Numbered → t.inProgress = true → t.Still → t.requestId = id → t.ownChecks = [] →
      t.ownSubmissions = [] → t.refreshes = s.refreshes → t.submitted = s.submitted → t.Answerable id → t.Kept := by
    intro t htn hgoes ht htid hchk hsubs hrefs hsame hta
    refine ⟨htn, .requests hgoes ht (htid ▸ Nat.pos_iff_ne_zero.mp hpos) hchk hsubs ?_ (htid ▸ hta)⟩
    rw [htid, hrefs, hsame]
    exact hsub
  unfold Refresh.submitAccepted
  rw [if_neg hnone]
  dsimp only
  split
  · exact hchained _ (hn.same rfl rfl rfl rfl (fun hs => hs) (Subset.refl _) (Subset.refl _) rfl rfl) h.goes
      ⟨hstill.pending, hstill.result, hstill.waiting, hstill.sync, hstill.close⟩ rfl h.checks h.submissions rfl rfl hansr
  · exact hchained _ (hn.same rfl rfl rfl rfl (fun hs => hs) (Subset.refl _) (Subset.refl _) rfl rfl) h.goes
      ⟨hstill.pending, hstill.result, hstill.waiting, hstill.sync, hstill.close⟩ rfl h.checks h.submissions rfl rfl hansr

theorem Kept.handleSubmitResult (h : s.Kept) (hmem : submission ∈ s.submissions)
    (hown : s.Accepts submission.generation → (submission.accepted ≠ none ∧ (s.inProgress = false ∨ s.requestId ≠ 0)) ∨
      (s.inProgress = true ∧ submission.refresh + 1 = s.refreshes)) (message : String) (w : World) :
    (({ s with submissions := s.submissions.erase submission } : Refresh).handleSubmitResult submission message w).Kept := by
  -- where a request is under way, no submission is
  have hbusy : s.inProgress = false ∨ s.requestId ≠ 0 → s.inProgress = true → submission ∉ s.ownSubmissions := by
    rintro (hidle | hid) hgoes hsub
    · rw [hidle] at hgoes
      cases hgoes
    · exact hid (h.submissionDone hgoes hsub).1
  unfold Refresh.handleSubmitResult
  split
  · next hstale => exact h.eraseSubmission fun hgoes hsub => hstale (h.ownSubmissions_accepts hgoes hsub)
  · next haccs =>
    have haccs : s.Accepts submission.generation := not_not.mp haccs
    by_cases hlate : submission.accepted ≠ none ∧ (s.inProgress = false ∨ s.requestId ≠ 0)
    · obtain ⟨id, hid⟩ := ne_none_iff_exists'.mp hlate.1
      rw [hid]
      dsimp only
      unfold Refresh.submitAccepted
      rw [if_pos hlate.2]
      exact h.eraseSubmission (hbusy hlate.2)
    · obtain ⟨hgoes, hrefr⟩ := (hown haccs).resolve_left hlate
      have hsub : submission ∈ s.ownSubmissions := mem_filter.mpr ⟨hmem, decide_eq_true hrefr⟩
      obtain ⟨hid, hrdy, hacc⟩ := h.submissionDone hgoes hsub
      cases hsome : submission.accepted with
      | some id =>
        obtain ⟨hansr, hpos, hsubmitted⟩ := hacc id hsome
        exact hrdy.submitAccepted hid hpos hansr hsubmitted w
      | none =>
        unfold Refresh.submitFailed
        dsimp only
        split
        · exact hrdy.beginTimeSyncWait w
        · exact hrdy.toFree.finishError _

/-! ### The HTTP service -/

theorem Kept.accept (h : s.Kept) {id : ℕ} (hmem : submission ∈ s.submissions)
    (hpos : 0 < id) (hnew : ∀ request ∈ s.submitted, request.id < id) :
    ({ s with
        submissions := s.submissions.erase submission ++ [{ submission with accepted := some id }]
        running := s.running ++ [{ id := id, refresh := submission.refresh }]
        submitted := s.submitted ++ [{ id := id, refresh := submission.refresh }] } : Refresh).Kept := by
  have hn := h.numbered
  have hanswerable : ∀ other, s.Answerable other → ({ s with
        submissions := s.submissions.erase submission ++ [{ submission with accepted := some id }]
        running := s.running ++ [{ id := id, refresh := submission.refresh }]
        submitted := s.submitted ++ [{ id := id, refresh := submission.refresh }] } : Refresh).Answerable other := by
    rintro other (⟨request, hreq, heq⟩ | hevent)
    · exact .inl ⟨request, mem_append_left _ hreq, heq⟩
    · exact .inr hevent
  have hnumd : ({ s with
        submissions := s.submissions.erase submission ++ [{ submission with accepted := some id }]
        running := s.running ++ [{ id := id, refresh := submission.refresh }]
        submitted := s.submitted ++ [{ id := id, refresh := submission.refresh }] } : Refresh).Numbered := by
    refine ⟨hn.once, hn.each, hn.current, hn.past, hn.context, hn.startup, hn.checks, fun other hoth => ?_,
      fun other hoth id' hid' => ?_, fun request hreq => ?_, ?_, fun request hreq => mem_append_left _ (hn.own request hreq)⟩
    · rcases mem_append.mp hoth with hold | hlast
      · exact hn.submissions other (mem_of_mem_erase hold)
      · rw [mem_singleton.mp hlast]
        exact hn.submissions submission hmem
    · rcases mem_append.mp hoth with hold | hlast
      · exact mem_append_left _ (hn.accepted other (mem_of_mem_erase hold) id' hid')
      · rw [mem_singleton.mp hlast] at hid' ⊢
        obtain rfl : id = id' := some.inj hid'
        exact mem_append_right _ (mem_singleton_self _)
    · rcases mem_append.mp hreq with hold | hlast
      · exact hn.positive request hold
      · rw [mem_singleton.mp hlast]
        exact hpos
    · rw [map_append]
      refine nodup_append.mpr ⟨hn.ids, nodup_singleton _, fun other hoth last hlast heq => ?_⟩
      obtain ⟨request, hreq, rfl⟩ := List.mem_map.mp hoth
      rw [mem_singleton.mp hlast] at heq
      exact absurd heq (Nat.ne_of_lt (hnew request hreq))
  by_cases hown : submission.refresh + 1 = s.refreshes ∧ s.inProgress = true
  · obtain ⟨hrefr, hgoes⟩ := hown
    have hsub : submission ∈ s.ownSubmissions := mem_filter.mpr ⟨hmem, decide_eq_true hrefr⟩
    obtain ⟨hid, hrdy, -⟩ := h.submissionDone hgoes hsub
    have hstill := hrdy.still
    refine ⟨hnumd, .submits { submission with accepted := some id } hgoes
      ⟨hstill.pending, hstill.result, hstill.waiting, hstill.sync, hstill.close⟩ hid hrdy.checks ?_
      (h.ownSubmissions_accepts hgoes hsub).2 fun other hoth => ?_⟩
    · refine (filter_append ..).trans ?_
      rw [show List.filter _ (s.submissions.erase submission) = [] from hrdy.submissions, nil_append]
      refine filter_eq_self.mpr fun other hoth => ?_
      rw [mem_singleton.mp hoth]
      exact decide_eq_true hrefr
    · obtain rfl : id = other := some.inj hoth
      exact .inl ⟨_, mem_append_right _ (mem_singleton_self _), rfl⟩
  · have hsame : s.inProgress = true → List.filter (fun submission => submission.refresh + 1 = s.refreshes)
        (s.submissions.erase submission ++ [{ submission with accepted := some id }]) = s.ownSubmissions := by
      intro hgoes
      have hoth : ¬ submission.refresh + 1 = s.refreshes := fun hrefr => hown ⟨hrefr, hgoes⟩
      rw [filter_append, ← erase_filter]
      have hlast : List.filter (fun submission => decide (submission.refresh + 1 = s.refreshes))
          [{ submission with accepted := some id }] = [] := by
        refine filter_eq_nil_iff.mpr fun last hlast hrefr => hoth ?_
        rw [mem_singleton.mp hlast] at hrefr
        exact of_decide_eq_true hrefr
      rw [hlast, append_nil]
      refine erase_of_not_mem fun hsub => hoth ?_
      exact of_decide_eq_true (mem_filter.mp hsub).2
    exact ⟨hnumd, h.chained.agree ⟨rfl, rfl, rfl, rfl, rfl, rfl, rfl, rfl, fun _ => rfl, fun _ => rfl, hsame,
      subset_append_left _ _⟩ (fun _ other _ hansr => hanswerable other hansr) (fun _ _ htim => htim)
      (fun _ htim => htim) fun _ htim => htim⟩

theorem Kept.answer (h : s.Kept) {request : IndexRequest} (answer : RefreshAnswer) : ({ s with
        running := s.running.erase request
        events := if s.context then s.events ++ [{ id := request.id, answer := answer }] else s.events } : Refresh).Kept := by
  refine ⟨h.numbered.same rfl rfl rfl rfl (fun hs => hs) (Subset.refl _) (Subset.refl _) rfl rfl,
    h.chained.agree ⟨rfl, rfl, rfl, rfl, rfl, rfl, rfl, rfl, fun _ => rfl, fun _ => rfl, fun _ => rfl, Subset.refl _⟩
      (fun hgoes id _ hansr => ?_) (fun _ _ htim => htim) (fun _ htim => htim) fun _ htim => htim⟩
  have hctx := (h.numbered.context hgoes).1
  rcases hansr with ⟨other, hoth, heq⟩ | ⟨event, hevent, heq⟩
  · by_cases hsame : other = request
    · refine .inr ⟨{ id := request.id, answer := answer }, ?_, hsame ▸ heq⟩
      dsimp only
      rw [if_pos hctx]
      exact mem_append_right _ (mem_singleton_self _)
    · exact .inl ⟨other, (mem_erase_of_ne hsame).mpr hoth, heq⟩
  · refine .inr ⟨event, ?_, heq⟩
    dsimp only
    rw [if_pos hctx]
    exact mem_append_left _ hevent

/-! ### The results -/

/-- An answer is kept for the refresh in progress, and its timer is not set any more. -/
structure Read (s : Refresh) (pending : PendingRefreshResult) : Prop where
  numbered : s.Numbered
  goes : s.inProgress = true
  kept : s.pendingResult = some pending
  result : s.resultTimer = 0
  waiting : s.timeSyncWaiting = false
  sync : s.timeSyncTimer = 0
  close : s.closeTimer = 0
  submitted : { id := pending.request, refresh := s.refreshes - 1 } ∈ s.submitted

theorem Free.refreshCompleted (h : s.Free) (response : Option HttpResponse) (w : World) : (s.refreshCompleted response w).Kept := by
  unfold Refresh.refreshCompleted
  split
  · exact h.finishError _
  · split
    · exact h.finishError _
    · split
      · exact h.finishError _
      · split
        · exact h.finishError _
        · exact h.finishSuccess

theorem Free.refreshFailed (h : s.Free) (response : Option HttpResponse) : (s.refreshFailed response).Kept := by
  unfold Refresh.refreshFailed
  split
  · split
    · exact h.finishError _
    · exact h.finishError _
  · exact h.finishError _

theorem Read.processPendingResult {pending : PendingRefreshResult} (h : s.Read pending) (w : World) :
    (s.processPendingResult w).Kept := by
  have hn := h.numbered
  have hfree : ({ s with
      pendingResult := none, watchdog := 0, requestId := 0
      processed := s.processed ++ [{ id := pending.request, refresh := s.refreshes - 1 }] } : Refresh).Free := by
    refine ⟨⟨hn.once, hn.each, hn.current, hn.past, hn.context, hn.startup, hn.checks, hn.submissions, hn.accepted, hn.positive,
      hn.ids, fun request hreq => ?_⟩, h.goes, ⟨rfl, h.result, h.waiting, h.sync, h.close⟩⟩
    rcases mem_append.mp hreq with hold | hlast
    · exact hn.own request hold
    · rw [mem_singleton.mp hlast]
      exact h.submitted
  unfold Refresh.processPendingResult
  rw [h.kept]
  dsimp only
  split
  · exact hfree.refreshCompleted _ w
  · exact hfree.refreshFailed _
  · exact hfree.finishError _

theorem Kept.scheduleResult (h : s.Kept) {event : HttpEvent} (hid : s.requestId ≠ 0) (hevent : event.id = s.requestId)
    (hgoes : s.inProgress = true) {rest : List HttpEvent} (w : World) :
    (({ s with events := rest } : Refresh).scheduleResult event w).Kept := by
  have hn : ∀ t : Refresh, t.ended = s.ended → t.refreshes = s.refreshes → t.inProgress = s.inProgress → t.context = s.context →
      t.startupLoading = s.startupLoading → t.checks = s.checks → t.submissions = s.submissions → t.submitted = s.submitted →
      t.processed = s.processed → t.Numbered := fun t he hr hg hc hs hch hsub hsu hp =>
    h.numbered.same he hr hg hc (fun hx => hs ▸ hx) (hch ▸ Subset.refl _) (hsub ▸ Subset.refl _) hsu hp
  have hfacts : s.timeSyncWaiting = false ∧ s.timeSyncTimer = 0 ∧ s.closeTimer = 0 ∧ s.ownChecks = [] ∧ s.ownSubmissions = [] ∧
      { id := s.requestId, refresh := s.refreshes - 1 } ∈ s.submitted := by
    cases h.chained with
    | idle _ _ hzero => exact absurd hzero hid
    | checks _ _ _ hzero => exact absurd hzero hid
    | submits _ _ _ hzero => exact absurd hzero hid
    | requests _ hstill _ hchk hsubs hsubmitted =>
      exact ⟨hstill.waiting, hstill.sync, hstill.close, hchk, hsubs, hsubmitted⟩
    | answered _ _ _ _ _ hwait hsync hclose _ hchk hsubs hsubmitted =>
      exact ⟨hwait, hsync, hclose, hchk, hsubs, hsubmitted⟩
    | syncs _ _ _ hzero => exact absurd hzero hid
    | closes _ _ _ hzero => exact absurd hzero hid
  obtain ⟨hwait, hsync, hclose, hchk, hsubs, hsubmitted⟩ := hfacts
  unfold Refresh.scheduleResult
  dsimp only
  split
  · refine ⟨hn _ rfl rfl rfl rfl rfl rfl rfl rfl rfl, .answered { answer := event.answer, request := event.id } hgoes rfl hid hevent
      hwait hsync hclose ?_ hchk hsubs hsubmitted⟩
    exact mem_append_right _ (mem_singleton_self _)
  · have hread : ({ s with
        events := rest, resultTimer := 0
        pendingResult := some { answer := event.answer, request := event.id } } : Refresh).Read
          { answer := event.answer, request := event.id } := by
      refine ⟨hn _ rfl rfl rfl rfl rfl rfl rfl rfl rfl, hgoes, rfl, rfl, hwait, hsync, hclose, ?_⟩
      dsimp only
      rw [hevent]
      exact hsubmitted
    exact hread.processPendingResult w

theorem Kept.handleEvent (h : s.Kept) {event : HttpEvent} {rest : List HttpEvent} (hevs : s.events = event :: rest)
    (hown : s.inProgress = true → ∀ submission ∈ s.submissions, submission.refresh + 1 = s.refreshes →
      submission.accepted ≠ some event.id) (w : World) :
    (({ s with events := rest } : Refresh).handleEvent event w).Kept := by
  unfold Refresh.handleEvent
  split
  · next hmine =>
    have hgoes : s.inProgress = true := by
      cases h.chained with
      | idle _ _ hzero => exact absurd hzero hmine.1
      | checks _ hgoes => exact hgoes
      | submits _ hgoes => exact hgoes
      | requests hgoes => exact hgoes
      | answered _ hgoes => exact hgoes
      | syncs hgoes => exact hgoes
      | closes hgoes => exact hgoes
    exact h.scheduleResult hmine.1 hmine.2 hgoes w
  · next hoth =>
    refine ⟨h.numbered.same rfl rfl rfl rfl (fun hs => hs) (Subset.refl _) (Subset.refl _) rfl rfl,
      h.chained.agree ⟨rfl, rfl, rfl, rfl, rfl, rfl, rfl, rfl, fun _ => rfl, fun _ => rfl, fun _ => rfl, Subset.refl _⟩
        (fun hgoes id hid hansr => ?_) (fun _ _ htim => htim) (fun _ htim => htim) fun _ htim => htim⟩
    have hne : event.id ≠ id := by
      intro heq
      rcases hid with ⟨hreq, hpos⟩ | ⟨submission, hsub, hsome⟩
      · exact hoth ⟨hpos, heq.trans hreq⟩
      · obtain ⟨hmem, hlatest⟩ := mem_filter.mp hsub
        exact hown hgoes submission hmem (of_decide_eq_true hlatest) (heq ▸ hsome)
    rcases hansr with hrun | ⟨late, hlate, heq⟩
    · exact .inl hrun
    · rw [hevs] at hlate
      rcases mem_cons.mp hlate with rfl | hmem
      · exact absurd heq hne
      · exact .inr ⟨late, hmem, heq⟩

end Refresh

end Brookesia.AppStore

import Brookesia.AppStore.RefreshEnds

/-! # Every refresh ends once, with its own answer

The timers, the end of the App Store, and from them the runs. -/

namespace Brookesia.AppStore

open Transition List Option

namespace Refresh

variable {s t : Refresh} {timer : Timer}

/-! ### The timers -/

theorem Kept.answered (h : s.Kept) (hid : s.resultTimer ≠ 0) : ∃ pending, ({ s with resultTimer := 0 } : Refresh).Read pending := by
  cases h.chained with
  | answered pending hgoes hpend hrequestId hreq hwait hsync hclose _ _ _ hsub =>
    refine ⟨pending, h.numbered.same rfl rfl rfl rfl (fun hs => hs) (Subset.refl _) (Subset.refl _) rfl rfl, hgoes,
      hpend, rfl, hwait, hsync, hclose, ?_⟩
    rw [hreq]
    exact hsub
  | idle _ hstill => exact absurd hstill.result hid
  | checks _ _ hstill => exact absurd hstill.result hid
  | submits _ _ hstill => exact absurd hstill.result hid
  | requests _ hstill => exact absurd hstill.result hid
  | syncs _ _ hzero => exact absurd hzero hid
  | closes _ _ hzero => exact absurd hzero hid

theorem Kept.syncing (h : s.Kept) (hwaits : s.timeSyncTimer ≠ 0 ∨ s.timeSyncWaiting = true) :
    s.timeSyncWaiting = true ∧ s.closeTimer = 0 ∧
      ({ s with timeSyncTimer := 0, timeSyncWaiting := false } : Refresh).Ready := by
  have hnot : s.timeSyncTimer = 0 → s.timeSyncWaiting = false → False := by
    intro hzero hfalse
    rcases hwaits with hid | htrue
    · exact hid hzero
    · exact Bool.false_ne_true (hfalse.symm.trans htrue)
  cases h.chained with
  | syncs hgoes hpend hres hid hwait htim hclose hchk hsubs =>
    exact ⟨hwait, hclose,
      ⟨⟨h.numbered.same rfl rfl rfl rfl (fun hs => hs) (Subset.refl _) (Subset.refl _) rfl rfl, hgoes,
        ⟨hpend, hres, rfl, rfl, hclose⟩⟩, hchk, hsubs⟩⟩
  | idle _ hstill => exact (hnot hstill.sync hstill.waiting).elim
  | checks _ _ hstill => exact (hnot hstill.sync hstill.waiting).elim
  | submits _ _ hstill => exact (hnot hstill.sync hstill.waiting).elim
  | requests _ hstill => exact (hnot hstill.sync hstill.waiting).elim
  | answered _ _ _ _ _ hwait hsync => exact (hnot hsync hwait).elim
  | closes _ _ _ _ hwait hsync => exact (hnot hsync hwait).elim

theorem Kept.closing (h : s.Kept) (hid : s.closeTimer ≠ 0) : ({ s with closeTimer := 0 } : Refresh).Ready := by
  cases h.chained with
  | closes hgoes hpend hres _ hwait hsync _ hchk hsubs =>
    exact ⟨⟨h.numbered.same rfl rfl rfl rfl (fun hs => hs) (Subset.refl _) (Subset.refl _) rfl rfl, hgoes,
      ⟨hpend, hres, hwait, hsync, rfl⟩⟩, hchk, hsubs⟩
  | idle _ hstill => exact absurd hstill.close hid
  | checks _ _ hstill => exact absurd hstill.close hid
  | submits _ _ hstill => exact absurd hstill.close hid
  | requests _ hstill => exact absurd hstill.close hid
  | answered _ _ _ _ _ _ _ hclose => exact absurd hclose hid
  | syncs _ _ _ _ _ _ hclose => exact absurd hclose hid

theorem Kept.requesting (h : s.Kept) (hid : s.requestId ≠ 0) (hpend : s.pendingResult = none) : s.Free := by
  cases h.chained with
  | requests hgoes hstill => exact ⟨h.numbered, hgoes, hstill⟩
  | answered _ _ hsome => exact absurd (hpend.symm.trans hsome).symm (some_ne_none _)
  | idle _ _ hzero => exact absurd hzero hid
  | checks _ _ _ hzero => exact absurd hzero hid
  | submits _ _ _ hzero => exact absurd hzero hid
  | syncs _ _ _ hzero => exact absurd hzero hid
  | closes _ _ _ hzero => exact absurd hzero hid

theorem Kept.eraseTimer (h : s.Kept) (hres : timer ≠ { name := .refreshResult, id := s.resultTimer })
    (hsync : timer ≠ { name := .timeSyncTimeout, id := s.timeSyncTimer })
    (hclose : timer ≠ { name := .timeSyncSuccessClose, id := s.closeTimer }) :
    ({ s with timers := s.timers.erase timer } : Refresh).Kept :=
  ⟨h.numbered.same rfl rfl rfl rfl (fun hs => hs) (Subset.refl _) (Subset.refl _) rfl rfl,
    h.chained.agree ⟨rfl, rfl, rfl, rfl, rfl, rfl, rfl, rfl, fun _ => rfl, fun _ => rfl, fun _ => rfl, Subset.refl _⟩
      (fun _ _ _ hansr => hansr) (fun _ _ hmem => (mem_erase_of_ne hres.symm).mpr hmem)
      (fun _ hmem => (mem_erase_of_ne hsync.symm).mpr hmem) fun _ hmem => (mem_erase_of_ne hclose.symm).mpr hmem⟩

theorem Ready.timers (h : s.Ready) (timers : List Timer) : ({ s with timers := timers } : Refresh).Ready := by
  have hstill := h.still
  exact ⟨⟨h.numbered.same rfl rfl rfl rfl (fun hs => hs) (Subset.refl _) (Subset.refl _) rfl rfl, h.goes,
    ⟨hstill.pending, hstill.result, hstill.waiting, hstill.sync, hstill.close⟩⟩, h.checks, h.submissions⟩

theorem Ready.timeSyncClose (h : s.Ready) (w : World) : (s.timeSyncClose w).Kept := by
  unfold Refresh.timeSyncClose
  split
  · next hidle =>
    have hgoes := h.goes
    rw [hidle] at hgoes
    cases hgoes
  · exact h.startRemoteRefreshRequest w

theorem Kept.timeSyncSuccess (h : s.Kept) (w : World) : (s.timeSyncSuccess w).Kept := by
  unfold Refresh.timeSyncSuccess
  split
  · exact h
  · next hwait =>
    obtain ⟨-, hclose, hrdy⟩ := h.syncing (.inr (Bool.not_eq_false _ ▸ hwait))
    have hstill := hrdy.still
    dsimp only
    rw [if_neg (not_not.mpr hclose)]
    split
    · have hid : s.requestId = 0 := by
        cases h.chained with
        | syncs _ _ _ hid => exact hid
        | idle _ _ hid => exact hid
        | checks _ _ _ hid => exact hid
        | submits _ _ _ hid => exact hid
        | closes _ _ _ hid => exact hid
        | requests _ hstill' => exact absurd hstill'.waiting hwait
        | answered _ _ _ _ _ hfalse => exact absurd hfalse hwait
      exact ⟨hrdy.numbered.same rfl rfl rfl rfl (fun hs => hs) (Subset.refl _) (Subset.refl _) rfl rfl,
        .closes hrdy.goes hstill.pending hstill.result hid rfl rfl (mem_append_right _ (mem_singleton_self _))
          hrdy.checks hrdy.submissions⟩
    · exact hrdy.timeSyncClose w

theorem Kept.onTimer (h : s.Kept) (hid : timer.id ≠ 0)
    (hown : timer = { name := .refreshRequestTimeout, id := s.watchdog } → s.pendingResult = none) (w : World) :
    (({ s with timers := s.timers.erase timer } : Refresh).onTimer timer w).Kept := by
  obtain ⟨name, id⟩ := timer
  have hid : id ≠ 0 := hid
  have hstale : ∀ other : Timer, (other.name = name → other.id ≠ id) → { name := name, id := id } ≠ other := by
    rintro other hoth rfl
    exact hoth rfl rfl
  unfold Refresh.onTimer
  cases name with
  | timeSyncTimeout =>
    dsimp only
    split
    · next hne =>
      exact h.eraseTimer (hstale _ TimerName.noConfusion) (hstale _ fun _ => Ne.symm hne) (hstale _ TimerName.noConfusion)
    · next heq =>
      have heq : id = s.timeSyncTimer := not_not.mp heq
      obtain ⟨hwait, -, hrdy⟩ := h.syncing (.inl (heq ▸ hid))
      unfold Refresh.timeSyncTimedOut
      dsimp only
      rw [if_neg (fun hf => Bool.false_ne_true (hf.symm.trans hwait))]
      exact (hrdy.timers (s.timers.erase _)).toFree.finish .timeSyncTimeout
  | timeSyncSuccessClose =>
    dsimp only
    split
    · next hne =>
      exact h.eraseTimer (hstale _ TimerName.noConfusion) (hstale _ TimerName.noConfusion) (hstale _ fun _ => Ne.symm hne)
    · next heq =>
      have heq : id = s.closeTimer := not_not.mp heq
      exact ((h.closing (heq ▸ hid)).timers (s.timers.erase _)).timeSyncClose w
  | refreshResult =>
    dsimp only
    split
    · next hne =>
      exact h.eraseTimer (hstale _ fun _ => Ne.symm hne) (hstale _ TimerName.noConfusion) (hstale _ TimerName.noConfusion)
    · next heq =>
      have heq : id = s.resultTimer := not_not.mp heq
      obtain ⟨pending, hread⟩ := h.answered (heq ▸ hid)
      have hread : ({ s with timers := s.timers.erase { name := .refreshResult, id := id }, resultTimer := 0 } : Refresh).Read
          pending :=
        ⟨hread.numbered.same rfl rfl rfl rfl (fun hs => hs) (Subset.refl _) (Subset.refl _) rfl rfl, hread.goes, hread.kept,
          rfl, hread.waiting, hread.sync, hread.close, hread.submitted⟩
      exact hread.processPendingResult w
  | refreshRequestTimeout =>
    have hers := h.eraseTimer (hstale { name := .refreshResult, id := s.resultTimer } TimerName.noConfusion)
      (hstale { name := .timeSyncTimeout, id := s.timeSyncTimer } TimerName.noConfusion)
      (hstale { name := .timeSyncSuccessClose, id := s.closeTimer } TimerName.noConfusion)
    dsimp only
    split
    · exact hers
    · next heq =>
      have heq : id = s.watchdog := not_not.mp heq
      have hkept := hers.watchdog 0
      unfold Refresh.requestTimeout
      split
      · exact hkept
      · next hreq => exact (hkept.requesting hreq (hown (heq ▸ rfl))).finishError _

/-! ### The end of the App Store -/

theorem Kept.cancel (h : s.Kept) : s.cancel.Kept := by
  have hn : ({ s with
      watchdog := 0, resultTimer := 0, pendingResult := none, timeSyncTimer := 0, closeTimer := 0, timeSyncWaiting := false
      requestId := 0 } : Refresh).Numbered :=
    h.numbered.same rfl rfl rfl rfl (fun hs => hs) (Subset.refl _) (Subset.refl _) rfl rfl
  unfold Refresh.cancel
  by_cases hgoes : s.inProgress = true
  · rw [if_pos hgoes]
    have hfree : ({ s with
      watchdog := 0, resultTimer := 0, pendingResult := none, timeSyncTimer := 0, closeTimer := 0, timeSyncWaiting := false
      requestId := 0 } : Refresh).Free := ⟨hn, hgoes, ⟨rfl, rfl, rfl, rfl, rfl⟩⟩
    exact hfree.finish .canceled
  · rw [if_neg hgoes]
    have hidle : s.inProgress = false := Bool.eq_false_iff.mpr hgoes
    exact ⟨h.numbered.same rfl rfl hidle.symm rfl (fun hs => hs) (Subset.refl _) (Subset.refl _) rfl rfl,
      .idle rfl ⟨rfl, rfl, rfl, rfl, rfl⟩ rfl⟩

theorem Kept.onStop (h : s.Kept) : ({ s.cancel with
    context := false, startupLoading := false, asyncGeneration := s.asyncGeneration + 1, events := [] } : Refresh).Kept := by
  have hn := h.cancel.numbered
  exact ⟨⟨hn.once, hn.each, hn.current, hn.past, fun hgoes => absurd hgoes Bool.false_ne_true,
    fun hs => absurd hs Bool.false_ne_true, hn.checks, hn.submissions, hn.accepted, hn.positive, hn.ids, hn.own⟩,
    .idle rfl ⟨rfl, rfl, rfl, rfl, rfl⟩ rfl⟩

theorem Kept.onStart (h : s.Kept) (hctx : s.context = false) : ({ s with
    context := true, networkReady := true, startupLoading := true, asyncGeneration := s.asyncGeneration + 1 } : Refresh).Kept := by
  have hn := h.numbered
  have hidle : s.inProgress = false := by
    refine Bool.eq_false_iff.mpr fun hgoes => ?_
    exact Bool.false_ne_true (hctx.symm.trans (hn.context hgoes).1)
  have hnot : ∀ p : Prop, s.inProgress = true → p := fun p hgoes => absurd (hidle.symm.trans hgoes) Bool.false_ne_true
  exact ⟨⟨hn.once, hn.each, hn.current, hn.past, hnot _, fun _ => hidle, hn.checks, hn.submissions, hn.accepted, hn.positive,
    hn.ids, hn.own⟩,
    h.chained.agree ⟨rfl, rfl, rfl, rfl, rfl, rfl, rfl, rfl, hnot _, hnot _, hnot _, Subset.refl _⟩
      (fun _ _ _ hansr => hansr) (fun _ _ htim => htim) (fun _ htim => htim) fun _ htim => htim⟩

/-! ### Runs -/

theorem kept_init : ({} : Refresh).Kept := by
  refine ⟨⟨nodup_nil, fun n hn => absurd hn (Nat.not_lt_zero n), fun h => absurd h Bool.false_ne_true,
    fun n hn => absurd hn not_mem_nil, fun h => absurd h Bool.false_ne_true, fun h => absurd h Bool.false_ne_true,
    fun check hmem => absurd hmem not_mem_nil, fun submission hmem => absurd hmem not_mem_nil,
    fun submission hmem => absurd hmem not_mem_nil, fun request hmem => absurd hmem not_mem_nil, nodup_nil,
    fun request hmem => absurd hmem not_mem_nil⟩, .idle rfl ⟨rfl, rfl, rfl, rfl, rfl⟩ rfl⟩

theorem kept_inductive : refreshMachine.Inductive Own Kept where
  init s h := by
    obtain rfl : s = {} := h
    exact kept_init
  step s label next h hown hst := by
    have hst : s.step label = some next := hst
    unfold Refresh.step at hst
    cases label with
    | onStart =>
      obtain ⟨hctx, rfl⟩ := of_guard hst
      exact h.onStart hctx
    | onStop =>
      obtain ⟨-, rfl⟩ := of_guard hst
      exact h.onStop
    | start w =>
      obtain ⟨hctx, rfl⟩ := of_guard hst
      exact h.startRemoteRefresh hctx w
    | startup w =>
      obtain ⟨⟨hctx, hstartup⟩, rfl⟩ := of_guard hst
      exact h.startupRefresh hctx hstartup w
    | startupCached w =>
      obtain ⟨-, rfl⟩ := of_guard hst
      exact h.startupCached w
    | cancel =>
      obtain ⟨-, rfl⟩ := of_guard hst
      exact h.cancel
    | networkCheck check ready w =>
      obtain ⟨hmem, rfl⟩ := of_guard hst
      exact h.handleNetworkCheck hmem hown ready w
    | accept submission id =>
      obtain ⟨⟨hmem, -, hpos, hnew⟩, rfl⟩ := of_guard hst
      exact h.accept hmem hpos hnew
    | submitResult submission message w =>
      obtain ⟨hmem, rfl⟩ := of_guard hst
      exact h.handleSubmitResult hmem hown message w
    | answer request answer =>
      obtain ⟨-, rfl⟩ := of_guard hst
      exact h.answer answer
    | event w =>
      cases hevs : s.events with
      | nil =>
        rw [hevs] at hst
        cases hst
      | cons event rest =>
        rw [hevs] at hst
        cases hst
        refine h.handleEvent hevs (hown event ?_) w
        rw [hevs]
        exact rfl
    | timeSynced w =>
      obtain ⟨-, rfl⟩ := of_guard hst
      exact h.timeSyncSuccess w
    | timer timer w =>
      obtain ⟨⟨-, -, hid⟩, rfl⟩ := of_guard hst
      exact h.onTimer hid hown w

/-- In the runs in which the results that are accepted belong to the refresh in progress, and the watchdog does not fire between
an answer and its handling, every refresh ends once and with its own answer, and waits for something until then. -/
theorem ends_once {s : Refresh} (h : refreshMachine.Reach Own s) : s.Ends := (kept_inductive.reach h).ends

def syncedRun : List Label :=
  [.onStart, .start {}, .networkCheck { purpose := .manualRemoteRefresh, generation := 1, refresh := 0 } true {},
    .submitResult { generation := 1, refresh := 0 } "state(TimeSyncing)" {}, .timeSynced {},
    .timer { name := .timeSyncSuccessClose, id := 2 } {}, .accept { generation := 1, refresh := 0 } 1,
    .submitResult { generation := 1, refresh := 0, accepted := some 1 } "" {},
    .answer { id := 1, refresh := 0 } (.completed (some { body := "[]" })), .event {},
    .timer { name := .refreshResult, id := 4 } {}]

theorem ends_once_syncedRun :
    ∃ s : Refresh, s.Ends ∧ s.ended = [(0, .success)] ∧ s.processed = [{ id := 1, refresh := 0 }] := by
  obtain ⟨s, hs, hfacts⟩ := map_eq_some_iff.mp (by decide +kernel :
    (refreshMachine.execWhen Own {} syncedRun).map (fun s => (s.ended, s.processed)) =
      some ([(0, .success)], [{ id := 1, refresh := 0 }]))
  exact ⟨s, ends_once (.execWhen (.init rfl) hs), Prod.mk.inj hfacts⟩

/-- The watchdog ends the first refresh between the answer and its timer, and then the user starts the second one. -/
def timedOutRun : List Label :=
  [.onStart, .start {}, .networkCheck { purpose := .manualRemoteRefresh, generation := 1, refresh := 0 } true {},
    .accept { generation := 1, refresh := 0 } 1, .submitResult { generation := 1, refresh := 0, accepted := some 1 } "" {},
    .answer { id := 1, refresh := 0 } (.completed (some { body := "[]" })), .event {},
    .timer { name := .refreshRequestTimeout, id := 1 } {}, .start {}, .timer { name := .refreshResult, id := 2 } {}]

/-- The answer to the request of the first refresh is read for the second one. -/
theorem ends_once_timedOutRun : ¬ ∀ s, refreshMachine.Reachable s → s.Ends := by
  intro hall
  obtain ⟨s, hs, hfacts⟩ := map_eq_some_iff.mp (by decide +kernel :
    (refreshMachine.exec {} timedOutRun).map (fun s => (s.processed, s.submitted)) =
      some ([{ id := 1, refresh := 1 }], [{ id := 1, refresh := 0 }]))
  obtain ⟨hprocessed, hsub⟩ := Prod.mk.inj hfacts
  have hown := (hall s (.exec (.init rfl) hs)).own { id := 1, refresh := 1 }
  rw [hprocessed, hsub] at hown
  have hsame := mem_singleton.mp (hown (mem_singleton_self _))
  exact absurd (congrArg IndexRequest.refresh hsame) Nat.one_ne_zero

end Refresh

end Brookesia.AppStore

import Brookesia.AppStore.Refresh

/-! # What a refresh has done

`Ends` is what the claims about refreshes come to: each ends once, with an answer to a request of its own, and waits for something
until then. `Kept` is the invariant: a refresh in progress is in one of the states of `Chained`, and nothing else is under way for it. -/

namespace Brookesia.AppStore

open Transition List

namespace Refresh

def finished (s : Refresh) : List ℕ := s.ended.map Prod.fst

/-- The HTTP service runs the request, or its terminal event has not been handled. -/
def Answerable (s : Refresh) (id : ℕ) : Prop := (∃ request ∈ s.running, request.id = id) ∨ ∃ event ∈ s.events, event.id = id

/-- The check, the submission, the request or the timer that the latest refresh waits for. -/
inductive Waits (s : Refresh) : Prop
  | networkCheck (check : NetworkCheck) : check ∈ s.checks → check.purpose ≠ .startupCache → check.refresh + 1 = s.refreshes →
      s.Accepts check.generation → Waits s
  | submission (submission : Submission) : submission ∈ s.submissions → submission.refresh + 1 = s.refreshes →
      s.Accepts submission.generation → Waits s
  | request : s.requestId ≠ 0 → { id := s.requestId, refresh := s.refreshes - 1 } ∈ s.submitted → s.Answerable s.requestId → Waits s
  | result : { name := .refreshResult, id := s.resultTimer } ∈ s.timers → s.pendingResult ≠ none → Waits s
  | timeSync : s.timeSyncWaiting = true → { name := .timeSyncTimeout, id := s.timeSyncTimer } ∈ s.timers → Waits s
  | timeSyncClose : { name := .timeSyncSuccessClose, id := s.closeTimer } ∈ s.timers → Waits s

structure Ends (s : Refresh) : Prop where
  once : s.finished.Nodup
  each : ∀ n < s.refreshes, n ∈ s.finished ↔ ¬ (n + 1 = s.refreshes ∧ s.inProgress = true)
  own : ∀ request ∈ s.processed, request ∈ s.submitted
  ids : (s.submitted.map IndexRequest.id).Nodup
  waits : s.inProgress = true → s.Waits

def Own (s : Refresh) : Label → Prop
  | .networkCheck check _ _ =>
    s.Accepts check.generation → check.purpose ≠ .startupCache → s.inProgress = true ∧ check.refresh + 1 = s.refreshes
  | .submitResult submission _ _ =>
    s.Accepts submission.generation → (submission.accepted ≠ none ∧ (s.inProgress = false ∨ s.requestId ≠ 0)) ∨
        (s.inProgress = true ∧ submission.refresh + 1 = s.refreshes)
  | .event _ => ∀ event ∈ s.events.head?, s.inProgress = true → ∀ submission ∈ s.submissions,
    submission.refresh + 1 = s.refreshes → submission.accepted ≠ some event.id
  | .timer timer _ => timer = { name := .refreshRequestTimeout, id := s.watchdog } → s.pendingResult = none
  | _ => True

instance (s : Refresh) (label : Label) : Decidable (s.Own label) :=
  match label with
  | .networkCheck _ _ _ => inferInstanceAs (Decidable (_ → _))
  | .submitResult _ _ _ => inferInstanceAs (Decidable (_ → _))
  | .event _ => inferInstanceAs (Decidable (∀ _ ∈ _, _))
  | .timer _ _ => inferInstanceAs (Decidable (_ → _))
  | .onStart | .onStop | .start _ | .startup _ | .startupCached _ | .cancel | .accept _ _ | .answer _ _ | .timeSynced _ =>
    inferInstanceAs (Decidable True)

/-! ### The invariant -/

/-- The refreshes and their numbers, and what has the number of a refresh. -/
structure Numbered (s : Refresh) : Prop where
  once : s.finished.Nodup
  each : ∀ n < s.refreshes, n ∈ s.finished ∨ (n + 1 = s.refreshes ∧ s.inProgress = true)
  current : s.inProgress = true → ∀ n ∈ s.finished, n + 1 ≠ s.refreshes
  past : ∀ n ∈ s.finished, n < s.refreshes
  context : s.inProgress = true → s.context = true ∧ 0 < s.refreshes
  startup : s.startupLoading = true → s.inProgress = false
  checks : ∀ check ∈ s.checks, check.purpose ≠ .startupCache → check.refresh < s.refreshes
  submissions : ∀ submission ∈ s.submissions, submission.refresh < s.refreshes
  accepted : ∀ submission ∈ s.submissions, ∀ id, submission.accepted = some id →
    { id := id, refresh := submission.refresh } ∈ s.submitted
  positive : ∀ request ∈ s.submitted, 0 < request.id
  ids : (s.submitted.map IndexRequest.id).Nodup
  own : ∀ request ∈ s.processed, request ∈ s.submitted

/-- The checks and the submissions of the latest refresh. -/
def ownChecks (s : Refresh) : List NetworkCheck :=
  s.checks.filter fun check => check.purpose ≠ .startupCache ∧ check.refresh + 1 = s.refreshes

def ownSubmissions (s : Refresh) : List Submission :=
  s.submissions.filter fun submission => submission.refresh + 1 = s.refreshes

/-- No answer is kept, and the time is not waited for. -/
structure Still (s : Refresh) : Prop where
  pending : s.pendingResult = none
  result : s.resultTimer = 0
  waiting : s.timeSyncWaiting = false
  sync : s.timeSyncTimer = 0
  close : s.closeTimer = 0

/-- What the refresh in progress waits for; nothing else is under way for it. -/
inductive Chained (s : Refresh) : Prop
  | idle : s.inProgress = false → s.Still → s.requestId = 0 → Chained s
  | checks (check : NetworkCheck) : s.inProgress = true → s.Still → s.requestId = 0 → s.ownChecks = [check] →
      s.ownSubmissions = [] → check.generation = s.asyncGeneration → Chained s
  | submits (submission : Submission) : s.inProgress = true → s.Still → s.requestId = 0 → s.ownChecks = [] →
      s.ownSubmissions = [submission] → submission.generation = s.asyncGeneration →
      (∀ id, submission.accepted = some id → s.Answerable id) → Chained s
  | requests : s.inProgress = true → s.Still → s.requestId ≠ 0 → s.ownChecks = [] → s.ownSubmissions = [] →
      { id := s.requestId, refresh := s.refreshes - 1 } ∈ s.submitted → s.Answerable s.requestId → Chained s
  | answered (pending : PendingRefreshResult) : s.inProgress = true → s.pendingResult = some pending → s.requestId ≠ 0 →
      pending.request = s.requestId → s.timeSyncWaiting = false → s.timeSyncTimer = 0 → s.closeTimer = 0 →
      { name := .refreshResult, id := s.resultTimer } ∈ s.timers → s.ownChecks = [] → s.ownSubmissions = [] →
      { id := s.requestId, refresh := s.refreshes - 1 } ∈ s.submitted → Chained s
  | syncs : s.inProgress = true → s.pendingResult = none → s.resultTimer = 0 → s.requestId = 0 → s.timeSyncWaiting = true →
      { name := .timeSyncTimeout, id := s.timeSyncTimer } ∈ s.timers → s.closeTimer = 0 → s.ownChecks = [] →
      s.ownSubmissions = [] → Chained s
  | closes : s.inProgress = true → s.pendingResult = none → s.resultTimer = 0 → s.requestId = 0 → s.timeSyncWaiting = false →
      s.timeSyncTimer = 0 → { name := .timeSyncSuccessClose, id := s.closeTimer } ∈ s.timers → s.ownChecks = [] →
      s.ownSubmissions = [] → Chained s

structure Kept (s : Refresh) : Prop where
  numbered : s.Numbered
  chained : s.Chained

variable {s t : Refresh}

theorem Kept.waits (h : s.Kept) (hgoes : s.inProgress = true) : s.Waits := by
  have hctx := (h.numbered.context hgoes).1
  cases h.chained with
  | idle hidle =>
    rw [hidle] at hgoes
    cases hgoes
  | checks check _ _ _ hchk _ hgen =>
    have hmem : check ∈ s.ownChecks := hchk ▸ mem_singleton_self _
    obtain ⟨hcheck, hown⟩ := mem_filter.mp hmem
    obtain ⟨hpurp, hrefr⟩ := of_decide_eq_true hown
    exact .networkCheck check hcheck hpurp hrefr ⟨hctx, hgen⟩
  | submits submission _ _ _ _ hsubs hgen =>
    have hmem : submission ∈ s.ownSubmissions := hsubs ▸ mem_singleton_self _
    obtain ⟨hsubmission, hown⟩ := mem_filter.mp hmem
    exact .submission submission hsubmission (of_decide_eq_true hown) ⟨hctx, hgen⟩
  | requests _ _ hid _ _ hsub hanswerable => exact .request hid hsub hanswerable
  | answered pending _ hpend _ _ _ _ _ htim => exact .result htim (hpend ▸ Option.some_ne_none pending)
  | syncs _ _ _ _ hwait htim => exact .timeSync hwait htim
  | closes _ _ _ _ _ _ htim => exact .timeSyncClose htim

theorem Kept.ends (h : s.Kept) : s.Ends := by
  refine ⟨h.numbered.once, fun n hn => ⟨fun hmem hcur => ?_, fun hnot => ?_⟩, h.numbered.own, h.numbered.ids, h.waits⟩
  · exact h.numbered.current hcur.2 n hmem hcur.1
  · exact (h.numbered.each n hn).resolve_right hnot

/-! ### Changes around the refresh -/

theorem Numbered.same (h : s.Numbered) (hended : t.ended = s.ended) (hrefs : t.refreshes = s.refreshes)
    (hgoes : t.inProgress = s.inProgress) (hctx : t.context = s.context)
    (hstartup : t.startupLoading = true → s.startupLoading = true) (hchk : t.checks ⊆ s.checks)
    (hsubs : t.submissions ⊆ s.submissions) (hsub : t.submitted = s.submitted)
    (hprocessed : t.processed = s.processed) : t.Numbered := by
  have hfin : t.finished = s.finished := congrArg (List.map Prod.fst) hended
  refine ⟨?_, ?_, ?_, ?_, ?_, fun hs => ?_, fun check hcheck => ?_, fun submission hmem => ?_, fun submission hmem => ?_, ?_, ?_, ?_⟩
  · rw [hfin]
    exact h.once
  · rw [hfin, hrefs, hgoes]
    exact h.each
  · rw [hfin, hrefs, hgoes]
    exact h.current
  · rw [hfin, hrefs]
    exact h.past
  · rw [hgoes, hctx, hrefs]
    exact h.context
  · rw [hgoes]
    exact h.startup (hstartup hs)
  · rw [hrefs]
    exact h.checks check (hchk hcheck)
  · rw [hrefs]
    exact h.submissions submission (hsubs hmem)
  · rw [hsub]
    exact h.accepted submission (hsubs hmem)
  · rw [hsub]
    exact h.positive
  · rw [hsub]
    exact h.ids
  · rw [hsub, hprocessed]
    exact h.own

/-- The two states differ in nothing that the refresh in progress depends on. -/
structure Agrees (t s : Refresh) : Prop where
  goes : t.inProgress = s.inProgress
  requestId : t.requestId = s.requestId
  pending : t.pendingResult = s.pendingResult
  result : t.resultTimer = s.resultTimer
  waiting : t.timeSyncWaiting = s.timeSyncWaiting
  sync : t.timeSyncTimer = s.timeSyncTimer
  close : t.closeTimer = s.closeTimer
  refreshes : t.refreshes = s.refreshes
  generation : s.inProgress = true → t.asyncGeneration = s.asyncGeneration
  checks : s.inProgress = true → t.ownChecks = s.ownChecks
  submissions : s.inProgress = true → t.ownSubmissions = s.ownSubmissions
  submitted : s.submitted ⊆ t.submitted

theorem Still.agree (h : s.Still) (ha : Agrees t s) : t.Still :=
  ⟨ha.pending.trans h.pending, ha.result.trans h.result, ha.waiting.trans h.waiting, ha.sync.trans h.sync, ha.close.trans h.close⟩

/-- The refresh in progress goes on where it is, if its request can be answered and its timers are set as before. -/
theorem Chained.agree (h : s.Chained) (ha : Agrees t s)
    (hanswerable : s.inProgress = true → ∀ id, (id = s.requestId ∧ s.requestId ≠ 0) ∨ (∃ submission ∈ s.ownSubmissions, submission.accepted = some id) →
      s.Answerable id → t.Answerable id)
    (hres : ∀ pending, s.pendingResult = some pending → { name := .refreshResult, id := s.resultTimer } ∈ s.timers →
      { name := .refreshResult, id := s.resultTimer } ∈ t.timers)
    (hsync : s.timeSyncWaiting = true → { name := .timeSyncTimeout, id := s.timeSyncTimer } ∈ s.timers →
      { name := .timeSyncTimeout, id := s.timeSyncTimer } ∈ t.timers)
    (hclose : s.timeSyncWaiting = false → { name := .timeSyncSuccessClose, id := s.closeTimer } ∈ s.timers →
      { name := .timeSyncSuccessClose, id := s.closeTimer } ∈ t.timers) : t.Chained := by
  cases h with
  | idle hidle hstill hid => exact .idle (ha.goes.trans hidle) (hstill.agree ha) (ha.requestId.trans hid)
  | checks check hgoes hstill hid hchk hsubs hgen =>
    exact .checks check (ha.goes.trans hgoes) (hstill.agree ha) (ha.requestId.trans hid) ((ha.checks hgoes).trans hchk)
      ((ha.submissions hgoes).trans hsubs) (hgen.trans (ha.generation hgoes).symm)
  | submits submission hgoes hstill hid hchk hsubs hgen hacc =>
    refine .submits submission (ha.goes.trans hgoes) (hstill.agree ha) (ha.requestId.trans hid) ((ha.checks hgoes).trans hchk)
      ((ha.submissions hgoes).trans hsubs) (hgen.trans (ha.generation hgoes).symm) fun id hsome => ?_
    refine hanswerable hgoes id (.inr ⟨submission, ?_, hsome⟩) (hacc id hsome)
    rw [hsubs]
    exact mem_singleton_self _
  | requests hgoes hstill hid hchk hsubs hsub hansr =>
    refine .requests (ha.goes.trans hgoes) (hstill.agree ha) (ha.requestId ▸ hid) ((ha.checks hgoes).trans hchk)
      ((ha.submissions hgoes).trans hsubs) ?_ ?_
    · rw [ha.requestId, ha.refreshes]
      exact ha.submitted hsub
    · rw [ha.requestId]
      exact hanswerable hgoes _ (.inl ⟨rfl, hid⟩) hansr
  | answered pending hgoes hpend hid hreq hwait hsync' hclose' htim hchk hsubs hsub =>
    refine .answered pending (ha.goes.trans hgoes) (ha.pending.trans hpend) (ha.requestId ▸ hid)
      (hreq.trans ha.requestId.symm) (ha.waiting.trans hwait) (ha.sync.trans hsync') (ha.close.trans hclose') ?_
      ((ha.checks hgoes).trans hchk) ((ha.submissions hgoes).trans hsubs) ?_
    · rw [ha.result]
      exact hres pending hpend htim
    · rw [ha.requestId, ha.refreshes]
      exact ha.submitted hsub
  | syncs hgoes hpend hres' hid hwait htim hclose' hchk hsubs =>
    refine .syncs (ha.goes.trans hgoes) (ha.pending.trans hpend) (ha.result.trans hres') (ha.requestId.trans hid)
      (ha.waiting.trans hwait) ?_ (ha.close.trans hclose') ((ha.checks hgoes).trans hchk)
      ((ha.submissions hgoes).trans hsubs)
    rw [ha.sync]
    exact hsync hwait htim
  | closes hgoes hpend hres' hid hwait hsync' htim hchk hsubs =>
    refine .closes (ha.goes.trans hgoes) (ha.pending.trans hpend) (ha.result.trans hres') (ha.requestId.trans hid)
      (ha.waiting.trans hwait) (ha.sync.trans hsync') ?_ ((ha.checks hgoes).trans hchk)
      ((ha.submissions hgoes).trans hsubs)
    rw [ha.close]
    exact hclose hwait htim

end Refresh

end Brookesia.AppStore

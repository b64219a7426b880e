import Brookesia.Audio.Playback

/-! # The playback follows the HAL and serves its queue

Once no task is pending, `play_state_` is what the HAL has reported last, and no request waits behind an idle HAL; the requests
of the queue are begun in their order (`Follows`). This holds in the runs in which a report that `on_playback_event` drops brings
nothing new, and no playlist ends without its queue being looked at (`Steady`). -/

namespace Brookesia.Audio

open Transition List Option

namespace AudioPlayback

def reports (s : AudioPlayback) : List AudioPlayState := s.posted.filterMap PlaybackTask.state?

/-- `play_state_` after all of them. -/
def settles (s : AudioPlayback) : AudioPlayState := s.reports.getLast?.getD s.playState

/-- The queue will be looked at when a task with `Idle` runs. -/
def AwaitsIdle (s : AudioPlayback) : Prop := s.reported ≠ .idle ∨ .idle ∈ s.reports

instance (s : AudioPlayback) : Decidable s.AwaitsIdle := inferInstanceAs (Decidable (_ ∨ _))

def waiting (s : AudioPlayback) : List ℕ := s.queue.map PlaybackRequest.number

structure Follows (s : AudioPlayback) : Prop where
  settled : s.posted = [] → s.playState = s.reported
  served : s.posted = [] → s.delayed = [] → s.reported = .idle → s.playlist.phase = .inactive → s.queue = []
  order : (s.begun ++ s.waiting).Pairwise (· < ·)
  kept : (s.begun ++ s.waiting ++ s.removed).Perm (List.range s.submitted)

/-- The playlist ends although the queue is not looked at. -/
def Strands (s : AudioPlayback) : Prop := s.queue ≠ [] ∧ ¬ s.AwaitsIdle

instance (s : AudioPlayback) : Decidable s.Strands := inferInstanceAs (Decidable (_ ∧ _))

def Fails (s : AudioPlayback) (halPlays : Bool) : PlaybackTask → Prop
  | .report _ => False
  | .doPlay _ _ sessionId _ _ => s.playlist.sessionId = sessionId ∧ (s.iface && halPlays) = false

instance (s : AudioPlayback) (halPlays : Bool) (task : PlaybackTask) : Decidable (s.Fails halPlays task) :=
  match task with
  | .report _ => inferInstanceAs (Decidable False)
  | .doPlay _ _ _ _ _ => inferInstanceAs (Decidable (_ ∧ _))

/-- The steps that keep the playback in step with the HAL. -/
def Steady (s : AudioPlayback) : PlaybackLabel → Prop
  | .report state => s.Drops state → s.settles = state
  | .stop => ¬ s.Strands
  | .run halPlays _ => ∀ task ∈ s.posted.head?, s.Fails halPlays task → ¬ s.Strands
  | _ => True

instance (s : AudioPlayback) (label : PlaybackLabel) : Decidable (s.Steady label) :=
  match label with
  | .report _ => inferInstanceAs (Decidable (_ → _))
  | .stop => inferInstanceAs (Decidable (¬_))
  | .run _ _ => inferInstanceAs (Decidable (∀ _ ∈ _, _))
  | .play .. | .pause .. | .resume .. | .onStop | .expire _ => inferInstanceAs (Decidable True)

/-- What holds of the reports and of the queue, whatever the playlist does. -/
structure Queued (s : AudioPlayback) : Prop where
  last : s.settles = s.reported
  processing : s.queue ≠ [] → s.isProcessingQueue = true
  interrupt : s.stopForPendingInterrupt = true → s.pendingInterruptRequest.isSome = true
  order : (s.begun ++ s.waiting).Pairwise (· < ·)
  kept : (s.begun ++ s.waiting ++ s.removed).Perm (List.range s.submitted)
  delayed : ∀ entry ∈ s.delayed, entry.1.state? = none

/-- The invariant: a queue that waits has a playlist before it, or an `Idle` to come. -/
structure Served (s : AudioPlayback) : Prop extends Queued s where
  served : s.queue ≠ [] → s.playlist.phase ≠ .inactive ∨ s.AwaitsIdle

/-- The playlist and its tasks may have changed, and nothing else. -/
structure Frame (s t : AudioPlayback) : Prop where
  reports : t.reports = s.reports
  playState : t.playState = s.playState
  reported : t.reported = s.reported
  queue : t.queue = s.queue
  processing : t.isProcessingQueue = s.isProcessingQueue
  stop : t.stopForPendingInterrupt = s.stopForPendingInterrupt
  request : t.pendingInterruptRequest = s.pendingInterruptRequest
  begun : t.begun = s.begun
  removed : t.removed = s.removed
  submitted : t.submitted = s.submitted
  delayed : (∀ entry ∈ s.delayed, entry.1.state? = none) → ∀ entry ∈ t.delayed, entry.1.state? = none

variable {s t u : AudioPlayback}

theorem Frame.refl (s : AudioPlayback) : Frame s s :=
  ⟨rfl, rfl, rfl, rfl, rfl, rfl, rfl, rfl, rfl, rfl, id⟩

theorem Frame.trans (h : Frame s t) (h' : Frame t u) : Frame s u :=
  ⟨h'.reports.trans h.reports, h'.playState.trans h.playState, h'.reported.trans h.reported, h'.queue.trans h.queue,
    h'.processing.trans h.processing, h'.stop.trans h.stop, h'.request.trans h.request, h'.begun.trans h.begun,
    h'.removed.trans h.removed, h'.submitted.trans h.submitted, h'.delayed ∘ h.delayed⟩

theorem Frame.awaitsIdle (h : Frame s t) (ha : s.AwaitsIdle) : t.AwaitsIdle := by
  unfold AwaitsIdle
  rw [h.reported, h.reports]
  exact ha

theorem Queued.frame (h : s.Queued) (f : Frame s t) : t.Queued := by
  have hwait : t.waiting = s.waiting := congrArg (List.map PlaybackRequest.number) f.queue
  refine ⟨?_, ?_, ?_, ?_, ?_, f.delayed h.delayed⟩
  · rw [settles, f.reports, f.playState, f.reported]
    exact h.last
  · rw [f.queue, f.processing]
    exact h.processing
  · rw [f.stop, f.request]
    exact h.interrupt
  · rw [f.begun, hwait]
    exact h.order
  · rw [f.begun, hwait, f.removed, f.submitted]
    exact h.kept

theorem Served.frame (h : s.Served) (f : Frame s t) (hph : s.playlist.phase ≠ .inactive → t.playlist.phase ≠ .inactive) :
    t.Served := by
  refine ⟨h.toQueued.frame f, fun hq => ?_⟩
  rw [f.queue] at hq
  exact (h.served hq).imp hph f.awaitsIdle

theorem Queued.active (h : s.Queued) (hph : s.playlist.phase ≠ .inactive) : s.Served :=
  ⟨h, fun _ => .inl hph⟩

/-! ### What changes the playlist alone -/

theorem reports_append_doPlay (s : AudioPlayback) (id : ℕ) (url : String) (sessionId index currentLoop : ℕ) :
    (s.posted ++ [PlaybackTask.doPlay id url sessionId index currentLoop]).filterMap PlaybackTask.state? = s.reports := by
  rw [filterMap_append]
  exact append_nil _

theorem reports_cancelTask (s : AudioPlayback) (id : ℕ) : (s.cancelTask id).reports = s.reports := by
  unfold reports cancelTask
  rw [filterMap_filter]
  refine filterMap_congr fun task _ => ?_
  cases task with
  | report state => rfl
  | doPlay task => by_cases h : task = id <;> simp [PlaybackTask.HasId, PlaybackTask.state?, h]

theorem frame_cancelTask (s : AudioPlayback) (id : ℕ) : Frame s (s.cancelTask id) :=
  ⟨reports_cancelTask s id, rfl, rfl, rfl, rfl, rfl, rfl, rfl, rfl, rfl, fun h entry hent =>
    h entry (mem_filter.mp hent).1⟩

theorem frame_cancelPlaylistScheduledTask (s : AudioPlayback) : Frame s s.cancelPlaylistScheduledTask := by
  have hfr : Frame s ({ s with playlist := { s.playlist with scheduledTaskId := 0 } }.setPhase .inactive) :=
    ⟨rfl, rfl, rfl, rfl, rfl, rfl, rfl, rfl, rfl, rfl, id⟩
  unfold cancelPlaylistScheduledTask
  dsimp only
  split
  · exact hfr.trans (frame_cancelTask _ _)
  · exact hfr

theorem frame_suspendTask (s : AudioPlayback) (id : ℕ) (suspended : Bool) : Frame s (s.suspendTask id suspended) := by
  refine ⟨rfl, rfl, rfl, rfl, rfl, rfl, rfl, rfl, rfl, rfl, fun h entry hent => ?_⟩
  obtain ⟨other, hoth, rfl⟩ := List.mem_map.mp hent
  split
  · exact h other hoth
  · exact h other hoth

theorem frame_suspendPlaylistScheduledTask (s : AudioPlayback) (nowMs : ℤ) :
    Frame s (s.suspendPlaylistScheduledTask nowMs) ∧
      (s.suspendPlaylistScheduledTask nowMs).playlist.phase = s.playlist.phase := by
  unfold suspendPlaylistScheduledTask
  dsimp only
  split
  · split
    · exact ⟨⟨rfl, rfl, rfl, rfl, rfl, rfl, rfl, rfl, rfl, rfl, (frame_suspendTask s _ _).delayed⟩, rfl⟩
    · exact ⟨frame_suspendTask _ _ _, rfl⟩
  · split
    · exact ⟨⟨rfl, rfl, rfl, rfl, rfl, rfl, rfl, rfl, rfl, rfl, id⟩, rfl⟩
    · exact ⟨.refl s, rfl⟩

theorem frame_resumePlaylistScheduledTask (s : AudioPlayback) (nowMs : ℤ) :
    Frame s (s.resumePlaylistScheduledTask nowMs) ∧
      (s.resumePlaylistScheduledTask nowMs).playlist.phase = s.playlist.phase := by
  unfold resumePlaylistScheduledTask
  dsimp only
  split
  · split
    · exact ⟨⟨rfl, rfl, rfl, rfl, rfl, rfl, rfl, rfl, rfl, rfl, (frame_suspendTask s _ _).delayed⟩, rfl⟩
    · exact ⟨frame_suspendTask _ _ _, rfl⟩
  · split
    · exact ⟨⟨rfl, rfl, rfl, rfl, rfl, rfl, rfl, rfl, rfl, rfl, id⟩, rfl⟩
    · exact ⟨.refl s, rfl⟩

theorem frame_postTask (s : AudioPlayback) (id : ℕ) (url : String) (sessionId index currentLoop delayMs : ℕ) :
    Frame s (s.postTask (.doPlay id url sessionId index currentLoop) delayMs) ∧
      (s.postTask (.doPlay id url sessionId index currentLoop) delayMs).playlist = s.playlist := by
  unfold postTask
  split
  · refine ⟨⟨rfl, rfl, rfl, rfl, rfl, rfl, rfl, rfl, rfl, rfl, fun h entry hent => ?_⟩, rfl⟩
    rcases mem_append.mp hent with hold | hnew
    · exact h entry hold
    · rw [mem_singleton.mp hnew]
      rfl
  · exact ⟨⟨reports_append_doPlay s _ _ _ _ _, rfl, rfl, rfl, rfl, rfl, rfl, rfl, rfl, rfl, fun h => h⟩, rfl⟩

theorem frame_playPlaylistUrlAtIndex (s : AudioPlayback) (index : ℕ) :
    Frame s (s.playPlaylistUrlAtIndex index) ∧ (s.playPlaylistUrlAtIndex index).playlist.phase = s.playlist.phase := by
  unfold playPlaylistUrlAtIndex
  split
  · exact ⟨.refl s, rfl⟩
  · next url _ =>
    obtain ⟨hfr, hplaylist⟩ := frame_postTask s.takeTaskId (s.lastTaskId + 1) url s.playlist.sessionId index
      s.playlist.currentLoop (s.urlDelayMs index)
    have htake : Frame s s.takeTaskId := ⟨rfl, rfl, rfl, rfl, rfl, rfl, rfl, rfl, rfl, rfl, id⟩
    exact ⟨htake.trans hfr, (congrArg PlaylistState.phase hplaylist).trans rfl⟩

theorem frame_startPlaylist (s : AudioPlayback) (urls : List String) (config : AudioPlayUrlConfig) (allow : Bool) :
    Frame s (s.startPlaylist urls config allow) ∧ (s.startPlaylist urls config allow).playlist.phase = .waitingToStart := by
  obtain ⟨hfr, hph⟩ := frame_playPlaylistUrlAtIndex (s.newPlaylist urls config allow) 0
  have hnew : Frame s (s.newPlaylist urls config allow) := ⟨rfl, rfl, rfl, rfl, rfl, rfl, rfl, rfl, rfl, rfl, id⟩
  exact ⟨hnew.trans hfr, hph⟩

theorem Queued.startPlaylist (h : s.Queued) (urls : List String) (config : AudioPlayUrlConfig) (allow : Bool) :
    (s.startPlaylist urls config allow).Served := by
  obtain ⟨hfr, hph⟩ := frame_startPlaylist s urls config allow
  refine (h.frame hfr).active ?_
  rw [hph]
  exact PlaylistPhase.noConfusion

theorem frame_publishState (s : AudioPlayback) (phase : PlaylistPhase) (firstUrl : Bool) (state : AudioPlayState) :
    Frame s (s.publishState phase firstUrl state) ∧
      (s.publishState phase firstUrl state).playlist.phase = s.playlist.phase := by
  unfold publishState
  split
  · exact ⟨⟨rfl, rfl, rfl, rfl, rfl, rfl, rfl, rfl, rfl, rfl, id⟩, rfl⟩
  · split <;> exact ⟨⟨rfl, rfl, rfl, rfl, rfl, rfl, rfl, rfl, rfl, rfl, id⟩, rfl⟩
  · split
    · exact ⟨⟨rfl, rfl, rfl, rfl, rfl, rfl, rfl, rfl, rfl, rfl, id⟩, rfl⟩
    · split <;> exact ⟨⟨rfl, rfl, rfl, rfl, rfl, rfl, rfl, rfl, rfl, rfl, id⟩, rfl⟩
    · exact ⟨.refl s, rfl⟩
    · exact ⟨.refl s, rfl⟩

/-- What `do_play` leaves, if the HAL refuses the item and if it does not. -/
theorem frame_doPlay (s : AudioPlayback) (sessionId index currentLoop : ℕ) (halPlays : Bool) (nowMs : ℤ) :
    Frame s (s.doPlay sessionId index currentLoop halPlays nowMs) := by
  unfold doPlay
  split
  · exact .refl s
  · split <;> exact ⟨rfl, rfl, rfl, rfl, rfl, rfl, rfl, rfl, rfl, rfl, id⟩

theorem doPlay_phase {sessionId : ℕ} (index currentLoop : ℕ) {halPlays : Bool} (nowMs : ℤ)
    (hplays : s.playlist.sessionId = sessionId → (s.iface && halPlays) = true) :
    (s.doPlay sessionId index currentLoop halPlays nowMs).playlist.phase = s.playlist.phase ∨
      (s.doPlay sessionId index currentLoop halPlays nowMs).playlist.phase = .startingItem := by
  unfold doPlay
  split
  · exact .inl rfl
  · next hsess =>
    rw [if_pos (hplays (not_not.mp hsess))]
    exact .inr rfl

/-! ### The queue is looked at -/

theorem Queued.clearPendingInterruptPlayback (h : s.Queued) : s.clearPendingInterruptPlayback.Queued :=
  ⟨h.last, h.processing, fun hp => absurd hp Bool.false_ne_true, h.order, h.kept, h.delayed⟩

theorem Queued.processPlaybackQueue (h : s.Queued) (hph : s.playlist.phase = .inactive) : s.processPlaybackQueue.Served := by
  unfold AudioPlayback.processPlaybackQueue
  rw [if_neg (not_not.mpr hph)]
  split
  · next hque => exact ⟨⟨h.last, fun hq => absurd hque hq, h.interrupt, h.order, h.kept, h.delayed⟩, fun hq => absurd hque hq⟩
  · next request rest hque =>
    have hwait : s.begun ++ s.waiting = (s.begun ++ [request.number]) ++ rest.map PlaybackRequest.number := by
      rw [waiting, hque, append_assoc]
      rfl
    refine Queued.startPlaylist ?_ _ _ _
    refine ⟨h.last, fun _ => rfl, h.interrupt, ?_, ?_, h.delayed⟩
    · exact hwait ▸ h.order
    · exact hwait ▸ h.kept

theorem Queued.ended (h : s.Queued) (hph : s.playlist.phase = .inactive) :
    (if s.isProcessingQueue then s.processPlaybackQueue else s).Served := by
  split
  · exact h.processPlaybackQueue hph
  · next hidle => exact ⟨h, fun hq => absurd (h.processing hq) hidle⟩

theorem Queued.playPlaylistUrlAtIndex (h : s.Queued) (hph : s.playlist.phase ≠ .inactive) (index : ℕ) :
    (s.playPlaylistUrlAtIndex index).Served := by
  obtain ⟨hfr, hsame⟩ := frame_playPlaylistUrlAtIndex s index
  exact (h.frame hfr).active (hsame ▸ hph)

theorem Queued.advancePlaylist (h : s.Queued) (hph : s.playlist.phase = .playingCurrentItem) (nowMs : ℤ) :
    (s.advancePlaylist nowMs).Served := by
  unfold AudioPlayback.advancePlaylist
  rw [if_neg (not_not.mpr hph)]
  dsimp only
  split
  · refine Queued.playPlaylistUrlAtIndex ?_ PlaylistPhase.noConfusion _
    exact h.frame ⟨rfl, rfl, rfl, rfl, rfl, rfl, rfl, rfl, rfl, rfl, id⟩
  · split
    · refine Queued.playPlaylistUrlAtIndex ?_ PlaylistPhase.noConfusion _
      exact h.frame ⟨rfl, rfl, rfl, rfl, rfl, rfl, rfl, rfl, rfl, rfl, id⟩
    · refine Queued.ended ?_ rfl
      exact h.frame ⟨rfl, rfl, rfl, rfl, rfl, rfl, rfl, rfl, rfl, rfl, id⟩

theorem Queued.startPendingInterrupt (h : s.Queued) (hstop : s.stopForPendingInterrupt = true) :
    s.startPendingInterruptPlaybackAfterIdle.Served := by
  unfold startPendingInterruptPlaybackAfterIdle
  split
  · next hnone =>
    have hsome := h.interrupt hstop
    rw [hnone] at hsome
    cases hsome
  · dsimp only
    split
    · refine Queued.startPlaylist ?_ _ _ _
      exact h.clearPendingInterruptPlayback.frame ⟨rfl, rfl, rfl, rfl, rfl, rfl, rfl, rfl, rfl, rfl, id⟩
    · exact h.clearPendingInterruptPlayback.startPlaylist _ _ _

/-! ### The tasks -/

variable {rest : List PlaybackTask} {state : AudioPlayState}

theorem Queued.report (h : s.Queued) (hpost : s.posted = .report state :: rest) :
    ({ s with posted := rest, playState := state, pauseRequested := false } : AudioPlayback).Queued := by
  refine ⟨?_, h.processing, h.interrupt, h.order, h.kept, h.delayed⟩
  have hlast := h.last
  unfold settles reports at hlast ⊢
  rw [hpost, filterMap_cons_some (rfl : PlaybackTask.state? (.report state) = some state), List.getLast?_cons] at hlast
  exact hlast

theorem awaitsIdle_tail {task : PlaybackTask} (hpost : s.posted = task :: rest)
    (hidle : task ≠ .report .idle) (ha : s.AwaitsIdle) : ({ s with posted := rest } : AudioPlayback).AwaitsIdle := by
  refine ha.imp id fun hmem => ?_
  obtain ⟨other, hoth, hstate⟩ := mem_filterMap.mp hmem
  rw [hpost] at hoth
  rcases mem_cons.mp hoth with rfl | hrest
  · cases other with
    | report state =>
      rw [some.inj hstate] at hidle
      exact absurd rfl hidle
    | doPlay => cases hstate
  · exact mem_filterMap.mpr ⟨other, hrest, hstate⟩

theorem Queued.atIdle (h : s.Queued) {phase : PlaylistPhase} (hph : s.playlist.phase = phase) (nowMs : ℤ) :
    (if phase = .playingCurrentItem then s.advancePlaylist nowMs
      else if s.playlist.phase = .inactive ∧ s.isProcessingQueue = true then s.processPlaybackQueue else s).Served := by
  subst hph
  split
  · next hplaying => exact h.advancePlaylist hplaying nowMs
  · split
    · next hinactive => exact h.processPlaybackQueue hinactive.1
    · next hact =>
      by_cases hnone : s.playlist.phase = .inactive
      · exact ⟨h, fun hne => absurd ⟨hnone, h.processing hne⟩ hact⟩
      · exact h.active hnone

theorem Served.publishState (h : s.Served) (phase : PlaylistPhase) (firstUrl : Bool) (state : AudioPlayState) :
    (s.publishState phase firstUrl state).Served := by
  obtain ⟨hfr, hsame⟩ := frame_publishState s phase firstUrl state
  exact h.frame hfr fun hp => hsame.symm ▸ hp

theorem Served.setPhase (h : s.Served) : (s.setPhase .playingCurrentItem).Served :=
  h.frame ⟨rfl, rfl, rfl, rfl, rfl, rfl, rfl, rfl, rfl, rfl, id⟩ fun _ => PlaylistPhase.noConfusion

theorem Served.onReport (h : s.Served) (hpost : s.posted = .report state :: rest) (nowMs : ℤ) :
    (({ s with posted := rest } : AudioPlayback).onReport state nowMs).Served := by
  have hq := h.toQueued.report hpost
  have hserved : state ≠ .idle →
      ({ s with posted := rest, playState := state, pauseRequested := false } : AudioPlayback).Served := fun hstate =>
    ⟨hq, fun hne => (h.served hne).imp id (awaitsIdle_tail hpost fun heq => hstate (PlaybackTask.report.inj heq))⟩
  unfold AudioPlayback.onReport
  dsimp only
  split
  · next hpsd =>
    refine hserved ?_
    rw [hpsd.1]
    exact AudioPlayState.noConfusion
  · split
    · next hidle => exact hq.startPendingInterrupt hidle.2
    · by_cases hstate : state = .idle
      · subst hstate
        have hnot : ¬ (AudioPlayState.idle = .playing ∧
            (s.playlist.phase = .waitingToStart ∨ s.playlist.phase = .startingItem)) := fun hc => AudioPlayState.noConfusion hc.1
        rw [if_neg hnot, if_neg (not_not.mpr rfl)]
        obtain ⟨hfr, hsame⟩ := frame_publishState
          { s with posted := rest, playState := .idle, pauseRequested := false } s.playlist.phase
          (decide (s.playlist.currentUrlIndex = 0)) .idle
        exact (hq.frame hfr).atIdle hsame nowMs
      · rw [if_pos (show state ≠ .idle from hstate)]
        split
        · exact (hserved hstate).setPhase.publishState _ _ _
        · exact (hserved hstate).publishState _ _ _

theorem Served.doPlay (h : s.Served) {sessionId index currentLoop : ℕ} {halPlays : Bool}
    (hfails : s.playlist.sessionId = sessionId → (s.iface && halPlays) = false → ¬ s.Strands) (nowMs : ℤ) :
    (s.doPlay sessionId index currentLoop halPlays nowMs).Served := by
  have hfr := frame_doPlay s sessionId index currentLoop halPlays nowMs
  refine ⟨h.toQueued.frame hfr, fun hne => ?_⟩
  rw [hfr.queue] at hne
  by_cases hplays : s.playlist.sessionId = sessionId → (s.iface && halPlays) = true
  · rcases doPlay_phase index currentLoop nowMs hplays with hsame | hstarting
    · rw [hsame]
      exact (h.served hne).imp id hfr.awaitsIdle
    · rw [hstarting]
      exact .inl PlaylistPhase.noConfusion
  · obtain ⟨hsess, href⟩ := Classical.not_imp.mp hplays
    have hstrands := hfails hsess (Bool.eq_false_iff.mpr href)
    exact .inr (hfr.awaitsIdle (not_not.mp fun ha => hstrands ⟨hne, ha⟩))

theorem Served.take (h : s.Served) {task : PlaybackTask} (hpost : s.posted = task :: rest)
    (hnone : task.state? = none) : ({ s with posted := rest } : AudioPlayback).Served := by
  have hreps : ({ s with posted := rest } : AudioPlayback).reports = s.reports := by
    unfold reports
    rw [hpost, filterMap_cons_none hnone]
  exact h.frame ⟨hreps, rfl, rfl, rfl, rfl, rfl, rfl, rfl, rfl, rfl, id⟩ id

/-! ### The calls -/

theorem Served.onPlaybackEvent (h : s.Served) (hdrops : s.Drops state → s.settles = state) :
    (s.onPlaybackEvent state).Served := by
  unfold AudioPlayback.onPlaybackEvent
  dsimp only
  split
  · next hd =>
    have hsame : s.reported = state := h.last.symm.trans (hdrops hd)
    subst hsame
    exact h
  · have hreps : ({ s with reported := state, posted := s.posted ++ [.report state] } : AudioPlayback).reports =
        s.reports ++ [state] := by
      unfold reports
      rw [filterMap_append]
      rfl
    refine ⟨⟨?_, h.processing, h.interrupt, h.order, h.kept, h.delayed⟩, fun _ => .inr ?_⟩
    · rw [settles, hreps, List.getLast?_append]
      rfl
    · by_cases hidle : state = .idle
      · refine .inr ?_
        rw [hreps, hidle]
        exact mem_append_right _ (mem_singleton_self _)
      · exact .inl hidle

theorem Served.clear (h : s.Served) :
    ({ s with queue := [], removed := s.removed ++ s.waiting, isProcessingQueue := false } : AudioPlayback).Queued := by
  refine ⟨h.last, fun hq => absurd rfl hq, h.interrupt, ?_, ?_, h.delayed⟩
  · exact (append_nil s.begun).symm ▸ (pairwise_append.mp h.order).1
  · refine Perm.trans ?_ h.kept
    refine perm_iff_count.mpr fun number => ?_
    simp only [waiting, map_nil, append_nil, count_append]
    omega

theorem Queued.cancelPlaylistScheduledTask (h : s.Queued) : s.cancelPlaylistScheduledTask.Queued :=
  h.frame (frame_cancelPlaylistScheduledTask s)

theorem Queued.empty (h : s.Queued) (hque : s.queue = []) : s.Served :=
  ⟨h, fun hne => absurd hque hne⟩

theorem Served.submitInterruptPlaybackRequest (h : s.Served) (request : PlaybackRequest) (halStops : Bool) :
    (s.submitInterruptPlaybackRequest request halStops).Served := by
  have hclr := h.clear.clearPendingInterruptPlayback
  have hque := (frame_cancelPlaylistScheduledTask
    (AudioPlayback.clearPendingInterruptPlayback { s with queue := [], removed := s.removed ++ s.waiting, isProcessingQueue := false })).queue
  have hcanc := hclr.cancelPlaylistScheduledTask
  unfold AudioPlayback.submitInterruptPlaybackRequest
  dsimp only
  split
  · split
    · refine Queued.empty ⟨hcanc.last, hcanc.processing, fun _ => rfl, hcanc.order, hcanc.kept, hcanc.delayed⟩ hque
    · refine Queued.empty (Queued.clearPendingInterruptPlayback ?_) hque
      exact ⟨hcanc.last, hcanc.processing, fun _ => rfl, hcanc.order, hcanc.kept, hcanc.delayed⟩
  · exact hcanc.startPlaylist _ _ _

theorem Served.push (h : s.Served) (urls : List String) (config : AudioPlayUrlConfig) : ({ s with
        queue := s.queue ++ [{ urls := urls, config := config, number := s.submitted }]
        submitted := s.submitted + 1, isProcessingQueue := true } : AudioPlayback).Queued := by
  have hwait : s.begun ++ List.map PlaybackRequest.number
      (s.queue ++ [{ urls := urls, config := config, number := s.submitted }]) = (s.begun ++ s.waiting) ++ [s.submitted] := by
    rw [map_append, append_assoc]
    rfl
  have hbelow : ∀ number ∈ s.begun ++ s.waiting, number < s.submitted := fun number hnum =>
    mem_range.mp (h.kept.subset (mem_append_left _ hnum))
  refine ⟨h.last, fun _ => rfl, h.interrupt, ?_, ?_, h.delayed⟩
  · rw [waiting, hwait]
    refine pairwise_append.mpr ⟨h.order, pairwise_singleton _ _, fun number hnum other hoth => ?_⟩
    rw [mem_singleton.mp hoth]
    exact hbelow number hnum
  · rw [waiting, hwait, range_succ]
    refine Perm.trans ?_ (h.kept.append_right [s.submitted])
    refine perm_iff_count.mpr fun number => ?_
    simp only [count_append]
    omega

theorem Served.submitPlaybackRequest (h : s.Served) (urls : List String) (config : AudioPlayUrlConfig) (halStops : Bool) :
    (s.submitPlaybackRequest urls config halStops).Served := by
  unfold AudioPlayback.submitPlaybackRequest
  split
  · exact h.submitInterruptPlaybackRequest _ _
  · have hpush := h.push urls config
    dsimp only
    split
    · next hidle => exact hpush.processPlaybackQueue hidle.2
    · next hbusy =>
      by_cases hph : s.playlist.phase = .inactive
      · have hstate : s.playState ≠ .idle := fun hidle => hbusy ⟨hidle, hph⟩
        refine ⟨hpush, fun _ => .inr ?_⟩
        by_cases hreported : s.reported = .idle
        · have hlast := h.last
          rw [hreported, settles] at hlast
          refine .inr ?_
          cases hreps : s.reports.getLast? with
          | none =>
            rw [hreps] at hlast
            exact absurd hlast hstate
          | some state =>
            rw [hreps] at hlast
            obtain rfl : state = .idle := hlast
            exact mem_of_getLast? hreps
        · exact .inl hreported
      · exact hpush.active hph

theorem Served.functionPause (h : s.Served) (halPauses : Bool) (nowMs : ℤ) : (s.functionPause halPauses nowMs).Served := by
  unfold AudioPlayback.functionPause
  split
  · obtain ⟨hfr, hsame⟩ := frame_suspendPlaylistScheduledTask { s with pauseRequested := true } nowMs
    have hpsd : ({ s with pauseRequested := true } : AudioPlayback).Served :=
      h.frame ⟨rfl, rfl, rfl, rfl, rfl, rfl, rfl, rfl, rfl, rfl, id⟩ id
    exact hpsd.frame hfr fun hp => hsame.symm ▸ hp
  · exact h.frame ⟨rfl, rfl, rfl, rfl, rfl, rfl, rfl, rfl, rfl, rfl, id⟩ id

theorem Served.functionResume (h : s.Served) (halResumes : Bool) (nowMs : ℤ) : (s.functionResume halResumes nowMs).Served := by
  unfold AudioPlayback.functionResume
  dsimp only
  split
  · split
    · obtain ⟨hfr, hsame⟩ := frame_resumePlaylistScheduledTask { s with pauseRequested := false } nowMs
      have hresumed : ({ s with pauseRequested := false } : AudioPlayback).Served :=
        h.frame ⟨rfl, rfl, rfl, rfl, rfl, rfl, rfl, rfl, rfl, rfl, id⟩ id
      exact hresumed.frame hfr fun hp => hsame.symm ▸ hp
    · next hstop =>
      obtain ⟨hfr, hsame⟩ :=
        frame_resumePlaylistScheduledTask { s with pauseRequested := false, pendingInterruptRequest := none } nowMs
      have hresumed : ({ s with pauseRequested := false, pendingInterruptRequest := none } : AudioPlayback).Served :=
        ⟨⟨h.last, h.processing, fun hp => absurd hp hstop, h.order, h.kept, h.delayed⟩, h.served⟩
      exact hresumed.frame hfr fun hp => hsame.symm ▸ hp
  · exact h.frame ⟨rfl, rfl, rfl, rfl, rfl, rfl, rfl, rfl, rfl, rfl, id⟩ id

theorem Served.functionStop (h : s.Served) (hstrands : ¬ s.Strands) : s.functionStop.Served := by
  have hpsd : Frame s { s with pauseRequested := false } := ⟨rfl, rfl, rfl, rfl, rfl, rfl, rfl, rfl, rfl, rfl, id⟩
  have hstop := (h.toQueued.frame hpsd).clearPendingInterruptPlayback
  have hfr := frame_cancelPlaylistScheduledTask (AudioPlayback.clearPendingInterruptPlayback { s with pauseRequested := false })
  refine ⟨hstop.cancelPlaylistScheduledTask, fun hne => .inr ?_⟩
  have hne : s.queue ≠ [] := hfr.queue ▸ hne
  exact hfr.awaitsIdle (not_not.mp fun ha => hstrands ⟨hne, ha⟩)

theorem Served.onStop (h : s.Served) : s.onStop.Served := by
  have hpsd : Frame { s with queue := [], removed := s.removed ++ s.waiting, isProcessingQueue := false }
      { s with queue := [], removed := s.removed ++ s.waiting, isProcessingQueue := false, pauseRequested := false } :=
    ⟨rfl, rfl, rfl, rfl, rfl, rfl, rfl, rfl, rfl, rfl, id⟩
  have hclr := (h.clear.frame hpsd).clearPendingInterruptPlayback
  have hque := (frame_cancelPlaylistScheduledTask (AudioPlayback.clearPendingInterruptPlayback
    { s with queue := [], removed := s.removed ++ s.waiting, isProcessingQueue := false, pauseRequested := false })).queue
  have hcanc := hclr.cancelPlaylistScheduledTask
  exact Queued.empty ⟨hcanc.last, hcanc.processing, hcanc.interrupt, hcanc.order, hcanc.kept, hcanc.delayed⟩ hque

theorem Served.expire (h : s.Served) {entry : PlaybackTask × Bool} (hent : entry ∈ s.delayed) :
    ({ s with delayed := s.delayed.erase entry, posted := s.posted ++ [entry.1] } : AudioPlayback).Served := by
  have hreps : (s.posted ++ [entry.1]).filterMap PlaybackTask.state? = s.reports := by
    rw [filterMap_append, filterMap_cons_none (h.delayed entry hent)]
    exact append_nil _
  exact h.frame ⟨hreps, rfl, rfl, rfl, rfl, rfl, rfl, rfl, rfl, rfl, fun hd other hoth =>
    hd other (mem_of_mem_erase hoth)⟩ id

theorem Served.follows (h : s.Served) : s.Follows := by
  have hreps : s.posted = [] → s.reports = [] := fun hpost => by rw [reports, hpost, filterMap_nil]
  refine ⟨fun hpost => ?_, fun hpost _ hidle hph => ?_, h.order, h.kept⟩
  · have hlast := h.last
    rw [settles, hreps hpost] at hlast
    exact hlast
  · by_contra hne
    rcases h.served hne with hact | hreported | hmem
    · exact hact hph
    · exact hreported hidle
    · rw [hreps hpost] at hmem
      exact not_mem_nil hmem

end AudioPlayback

open AudioPlayback

theorem served_inductive : playbackMachine.Inductive Steady Served := by
  refine ⟨?_, ?_⟩
  · rintro s rfl
    refine Queued.empty ⟨rfl, fun hne => absurd rfl hne, fun hp => absurd hp Bool.false_ne_true, Pairwise.nil,
      Perm.refl _, fun entry hent => absurd hent not_mem_nil⟩ rfl
  · intro s label s' h hc hst
    have hst : s.step label = some s' := hst
    cases label with
    | play urls config halStops =>
      cases hst
      unfold AudioPlayback.functionPlayList
      split
      · exact h
      · exact h.submitPlaybackRequest urls config halStops
    | pause halPauses nowMs => exact some.inj hst ▸ h.functionPause halPauses nowMs
    | resume halResumes nowMs => exact some.inj hst ▸ h.functionResume halResumes nowMs
    | stop => exact some.inj hst ▸ h.functionStop hc
    | onStop => exact some.inj hst ▸ h.onStop
    | report state => exact some.inj hst ▸ h.onPlaybackEvent hc
    | expire task =>
      obtain ⟨hent, rfl⟩ := of_guard hst
      exact h.expire hent
    | run halPlays nowMs =>
      have hc : ∀ task ∈ s.posted.head?, s.Fails halPlays task → ¬ s.Strands := hc
      unfold AudioPlayback.step at hst
      dsimp only at hst
      split at hst
      · cases hst
      · next task rest hpost =>
        cases hst
        cases task with
        | report state => exact h.onReport hpost nowMs
        | doPlay id url sessionId index currentLoop =>
          rw [hpost] at hc
          have htaken := h.take hpost rfl
          have hreps : ({ s with posted := rest } : AudioPlayback).reports = s.reports := by
            unfold reports
            rw [hpost, filterMap_cons_none rfl]
          refine htaken.doPlay (fun hsess href => ?_) nowMs
          have hstrands := hc _ rfl ⟨hsess, href⟩
          unfold Strands AwaitsIdle at hstrands ⊢
          rw [hreps]
          exact hstrands

/-- In a steady run the playback follows the HAL and serves its queue. -/
theorem playback_follows (s : AudioPlayback) (h : playbackMachine.Reach Steady s) : s.Follows :=
  (served_inductive.reach h).follows

/-- Two queued requests, the second while the first is playing; then an interrupting one, which takes a third one from the queue. -/
def queuedRun : List PlaybackLabel :=
  [.play ["a"] { interrupt := false } true, .run true 0, .report .playing, .run true 0, .play ["b", "c"] { interrupt := false } true,
    .report .idle, .run true 100, .run true 100, .report .playing, .run true 100, .play ["d"] { interrupt := false } true,
    .play ["e"] { delayMs := 20 } true, .report .idle, .run true 200, .expire (.doPlay 3 "e" 3 0 0), .run true 220]

theorem playback_follows_queuedRun : ∃ s : AudioPlayback, s.Follows ∧ s.begun = [0, 1] ∧ s.removed = [2] := by
  obtain ⟨s, hs, hfacts⟩ := map_eq_some_iff.mp (by decide +kernel :
    (playbackMachine.execWhen Steady {} queuedRun).map (fun s => (s.begun, s.removed)) = some ([0, 1], [2]))
  have hpair := hfacts
  exact ⟨s, playback_follows s (.execWhen (.init rfl) hs), congrArg Prod.fst hpair, congrArg Prod.snd hpair⟩

/-- A short item: the HAL reports its end before the task of its beginning has run. -/
def shortItemRun : List PlaybackLabel :=
  [.play ["a"] { interrupt := false } true, .run true 0, .report .playing, .report .idle, .run true 0]

/-- The `Idle` is dropped, and `play_state_` stays at `Playing`. -/
theorem playback_follows_shortItemRun : ¬ ∀ s, playbackMachine.Reachable s → s.Follows := by
  intro hall
  obtain ⟨s, hs, hfacts⟩ := map_eq_some_iff.mp (by decide +kernel :
    (playbackMachine.exec {} shortItemRun).map (fun s => (s.posted, s.playState, s.reported)) =
      some ([], .playing, .idle))
  have hthree := hfacts
  have hpost : s.posted = [] := congrArg Prod.fst hthree
  have hstates := congrArg Prod.snd hthree
  have hsett := (hall s (.exec (.init rfl) hs)).settled hpost
  rw [show s.playState = .playing from congrArg Prod.fst hstates, show s.reported = .idle from congrArg Prod.snd hstates] at hsett
  cases hsett

end Brookesia.Audio

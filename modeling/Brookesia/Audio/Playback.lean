import Brookesia.Transition.Machine

/-! # Audio playback

The functions of `AudioPlayback` and its tasks run one after another on the call group: `posted` is what is queued there, and
`delayed` the tasks of `post_delayed` whose time has not come. `on_playback_event` is called by the HAL at any time; it reads the
state as it is then and posts a task.

`reported` is the last state that the HAL has reported. The requests that go to the queue are numbered; `begun` and `removed`
are those that were taken from it to be started, and those that an interrupting request or the stop of the service took. -/

namespace Brookesia.Audio

open Transition

inductive AudioPlayState
  | idle | playing | paused
deriving DecidableEq

inductive PlaylistPhase
  | inactive | waitingToStart | startingItem | playingCurrentItem
deriving DecidableEq

structure AudioPlayUrlConfig where
  interrupt : Bool := true
  delayMs : ℕ := 0
  loopCount : ℕ := 0
  loopIntervalMs : ℕ := 0
  timeoutMs : ℕ := 0
deriving DecidableEq

structure PlaybackRequest where
  urls : List String
  config : AudioPlayUrlConfig
  number : ℕ := 0
deriving DecidableEq

/-- A task of the call group. Nobody has the id of a task that `on_playback_event` has posted. -/
inductive PlaybackTask
  | report (state : AudioPlayState)
  | doPlay (id : ℕ) (url : String) (sessionId index currentLoop : ℕ)
deriving DecidableEq

structure PlaylistState where
  urls : List String := []
  config : AudioPlayUrlConfig := {}
  currentUrlIndex : ℕ := 0
  currentLoop : ℕ := 0
  totalLoops : ℕ := 0
  sessionId : ℕ := 0
  phase : PlaylistPhase := .inactive
  allowGapIdleBeforeStart : Bool := false
  gapIdlePublishedBeforeStart : Bool := false
  startTimeMs : ℤ := 0
  pauseStartMs : ℤ := 0
  pausedDurationMs : ℤ := 0
  scheduledTaskId : ℕ := 0
deriving DecidableEq

structure AudioPlayback where
  iface : Bool := true
  playState : AudioPlayState := .idle
  queue : List PlaybackRequest := []
  isProcessingQueue : Bool := false
  pauseRequested : Bool := false
  stopForPendingInterrupt : Bool := false
  pendingInterruptRequest : Option PlaybackRequest := none
  playlist : PlaylistState := {}
  playlistSessionCounter : ℕ := 0
  posted : List PlaybackTask := []
  delayed : List (PlaybackTask × Bool) := []
  lastTaskId : ℕ := 0
  published : List AudioPlayState := []
  reported : AudioPlayState := .idle
  submitted : ℕ := 0
  begun : List ℕ := []
  removed : List ℕ := []

namespace PlaybackTask

def state? : PlaybackTask → Option AudioPlayState
  | report state => some state
  | doPlay .. => none

/-- A task that `cancel`, `suspend` and `resume` find by its id. -/
def HasId (id : ℕ) : PlaybackTask → Prop
  | report _ => False
  | doPlay task .. => task = id

instance (id : ℕ) (task : PlaybackTask) : Decidable (task.HasId id) :=
  match task with
  | report _ => inferInstanceAs (Decidable False)
  | doPlay _ .. => inferInstanceAs (Decidable (_ = _))

end PlaybackTask

namespace AudioPlayback

def setPhase (s : AudioPlayback) (phase : PlaylistPhase) : AudioPlayback :=
  { s with
    playlist := { s.playlist with phase := phase, allowGapIdleBeforeStart := false, gapIdlePublishedBeforeStart := false } }

def publish (s : AudioPlayback) (state : AudioPlayState) : AudioPlayback :=
  { s with published := s.published ++ [state] }

/-- `TaskScheduler::cancel`. -/
def cancelTask (s : AudioPlayback) (id : ℕ) : AudioPlayback :=
  { s with
    posted := s.posted.filter fun task => ¬ task.HasId id
    delayed := s.delayed.filter fun entry => ¬ entry.1.HasId id }

/-- `TaskScheduler::suspend` and `resume`, which a delayed task alone supports. -/
def suspendTask (s : AudioPlayback) (id : ℕ) (suspended : Bool) : AudioPlayback :=
  { s with delayed := s.delayed.map fun entry => if entry.1.HasId id then (entry.1, suspended) else entry }

def cancelPlaylistScheduledTask (s : AudioPlayback) : AudioPlayback :=
  let taskId := s.playlist.scheduledTaskId
  let s := { s with playlist := { s.playlist with scheduledTaskId := 0 } }.setPhase .inactive
  if taskId ≠ 0 then s.cancelTask taskId else s

def suspendPlaylistScheduledTask (s : AudioPlayback) (nowMs : ℤ) : AudioPlayback :=
  let taskId := s.playlist.scheduledTaskId
  let s :=
    if s.playlist.phase ≠ .inactive ∧ s.playlist.pauseStartMs = 0 then
      { s with playlist := { s.playlist with pauseStartMs := nowMs } }
    else s
  if taskId ≠ 0 then s.suspendTask taskId true else s

def resumePlaylistScheduledTask (s : AudioPlayback) (nowMs : ℤ) : AudioPlayback :=
  let taskId := s.playlist.scheduledTaskId
  let s :=
    if s.playlist.phase ≠ .inactive ∧ s.playlist.pauseStartMs ≠ 0 then
      { s with
        playlist :=
          { s.playlist with
            pausedDurationMs := s.playlist.pausedDurationMs + (nowMs - s.playlist.pauseStartMs), pauseStartMs := 0 } }
    else s
  if taskId ≠ 0 then s.suspendTask taskId false else s

/-- The delay before the url at `index` is played. -/
def urlDelayMs (s : AudioPlayback) (index : ℕ) : ℕ :=
  if index = 0 then (if s.playlist.currentLoop = 0 then s.playlist.config.delayMs else s.playlist.config.loopIntervalMs) else 0

/-- `post`, or `post_delayed`. -/
def postTask (s : AudioPlayback) (task : PlaybackTask) (delayMs : ℕ) : AudioPlayback :=
  if 0 < delayMs then { s with delayed := s.delayed ++ [(task, false)] } else { s with posted := s.posted ++ [task] }

/-- The scheduler gives out an id, which the playlist keeps. -/
def takeTaskId (s : AudioPlayback) : AudioPlayback :=
  { s with
    lastTaskId := s.lastTaskId + 1
    playlist := { s.playlist with scheduledTaskId := s.lastTaskId + 1 } }

def playPlaylistUrlAtIndex (s : AudioPlayback) (index : ℕ) : AudioPlayback :=
  match s.playlist.urls[index]? with
  | none => s
  | some url =>
    s.takeTaskId.postTask
      (.doPlay (s.lastTaskId + 1) url s.playlist.sessionId index s.playlist.currentLoop) (s.urlDelayMs index)

/-- `do_play`, up to the call of the HAL. -/
def startItem (s : AudioPlayback) (index currentLoop : ℕ) (nowMs : ℤ) : AudioPlayback :=
  { s with
    playlist :=
      { s.playlist with
        startTimeMs := if index = 0 ∧ currentLoop = 0 then nowMs else s.playlist.startTimeMs
        scheduledTaskId := 0
        phase := .startingItem } }

/-- `do_play`, the task of `play_playlist_url_at_index`. -/
def doPlay (s : AudioPlayback) (sessionId index currentLoop : ℕ) (halPlays : Bool) (nowMs : ℤ) : AudioPlayback :=
  if s.playlist.sessionId ≠ sessionId then s
  else if s.iface && halPlays then s.startItem index currentLoop nowMs
  else (s.startItem index currentLoop nowMs).setPhase .inactive

/-- The fields that `start_playlist` sets. -/
def newPlaylist (s : AudioPlayback) (urls : List String) (config : AudioPlayUrlConfig) (allowGapIdleBeforeStart : Bool) :
    AudioPlayback :=
  let sessionId := (s.playlistSessionCounter + 1) % 2 ^ 32
  { s with
    playlistSessionCounter := sessionId
    playlist :=
      { urls := urls, config := config, currentUrlIndex := 0, currentLoop := 0
        totalLoops := if config.loopCount = 0 then 1 else config.loopCount
        phase := .waitingToStart, allowGapIdleBeforeStart := allowGapIdleBeforeStart
        sessionId := sessionId } }

def startPlaylist (s : AudioPlayback) (urls : List String) (config : AudioPlayUrlConfig) (allowGapIdleBeforeStart : Bool) :
    AudioPlayback :=
  (s.newPlaylist urls config allowGapIdleBeforeStart).playPlaylistUrlAtIndex 0

def clearPendingInterruptPlayback (s : AudioPlayback) : AudioPlayback :=
  { s with pendingInterruptRequest := none, stopForPendingInterrupt := false }

def startPendingInterruptPlaybackAfterIdle (s : AudioPlayback) : AudioPlayback :=
  match s.pendingInterruptRequest with
  | none => s.clearPendingInterruptPlayback
  | some request =>
    let s := s.clearPendingInterruptPlayback
    let s := if 0 < request.config.delayMs then s.publish .idle else s
    s.startPlaylist request.urls request.config false

def processPlaybackQueue (s : AudioPlayback) : AudioPlayback :=
  if s.playlist.phase ≠ .inactive then s
  else
    match s.queue with
    | [] => { s with isProcessingQueue := false }
    | request :: rest =>
      { s with queue := rest, isProcessingQueue := true, begun := s.begun ++ [request.number] }.startPlaylist
        request.urls request.config false

/-- Whether the time of the playlist is over when a loop ends. -/
def playlistTimedOut (s : AudioPlayback) (nowMs : ℤ) : Bool :=
  0 < s.playlist.config.timeoutMs &&
    decide ((s.playlist.config.timeoutMs : ℤ) ≤ nowMs - s.playlist.startTimeMs - s.playlist.pausedDurationMs)

def advancePlaylist (s : AudioPlayback) (nowMs : ℤ) : AudioPlayback :=
  if s.playlist.phase ≠ .playingCurrentItem then s
  else
    let s := { s with playlist := { s.playlist with currentUrlIndex := s.playlist.currentUrlIndex + 1 } }
    if s.playlist.currentUrlIndex < s.playlist.urls.length then
      (s.setPhase .waitingToStart).playPlaylistUrlAtIndex s.playlist.currentUrlIndex
    else
      let s := { s with playlist := { s.playlist with currentLoop := (s.playlist.currentLoop + 1) % 2 ^ 32 } }
      if s.playlistTimedOut nowMs = false ∧
          (s.playlist.totalLoops = 2 ^ 32 - 1 ∨ s.playlist.currentLoop < s.playlist.totalLoops) then
        ({ s with playlist := { s.playlist with currentUrlIndex := 0 } }.publish .idle |>.setPhase
          .waitingToStart).playPlaylistUrlAtIndex 0
      else
        let s := { s with playlist := { s.playlist with phase := .inactive } }.publish .idle
        if s.isProcessingQueue then s.processPlaybackQueue else s

/-- What `on_playback_event` drops. -/
def Drops (s : AudioPlayback) (state : AudioPlayState) : Prop :=
  state = s.playState ∧ ¬ (state = .playing ∧ (s.playlist.phase = .waitingToStart ∨ s.playlist.phase = .startingItem)) ∧
    ¬ (state = .idle ∧ s.stopForPendingInterrupt = true ∧ s.pendingInterruptRequest.isSome = true)

instance (s : AudioPlayback) (state : AudioPlayState) : Decidable (s.Drops state) := inferInstanceAs (Decidable (_ ∧ _))

def onPlaybackEvent (s : AudioPlayback) (state : AudioPlayState) : AudioPlayback :=
  let s' := { s with reported := state }
  if s.Drops state then s' else { s' with posted := s.posted ++ [.report state] }

/-- `should_publish_event` of the task, and the gap idle that it marks. -/
def publishState (s : AudioPlayback) (phase : PlaylistPhase) (firstUrl : Bool) (state : AudioPlayState) : AudioPlayback :=
  match state with
  | .paused => s.publish .paused
  | .playing => if firstUrl then s.publish .playing else s
  | .idle =>
    match phase with
    | .inactive => s.publish .idle
    | .waitingToStart =>
      if s.playlist.allowGapIdleBeforeStart && !s.playlist.gapIdlePublishedBeforeStart then
        { s with playlist := { s.playlist with gapIdlePublishedBeforeStart := true } }.publish .idle
      else s
    | .startingItem | .playingCurrentItem => s

/-- The task of `on_playback_event`. -/
def onReport (s : AudioPlayback) (state : AudioPlayState) (nowMs : ℤ) : AudioPlayback :=
  let phase := s.playlist.phase
  let firstUrl := decide (s.playlist.currentUrlIndex = 0)
  let s := { s with playState := state, pauseRequested := false }
  if state = .paused ∧ s.stopForPendingInterrupt = true then s
  else if state = .idle ∧ s.stopForPendingInterrupt = true then s.startPendingInterruptPlaybackAfterIdle
  else
    let s :=
      if state = .playing ∧ (phase = .waitingToStart ∨ phase = .startingItem) then s.setPhase .playingCurrentItem else s
    let s := s.publishState phase firstUrl state
    if state ≠ .idle then s
    else if phase = .playingCurrentItem then s.advancePlaylist nowMs
    else if s.playlist.phase = .inactive ∧ s.isProcessingQueue = true then s.processPlaybackQueue
    else s

def submitInterruptPlaybackRequest (s : AudioPlayback) (request : PlaybackRequest) (halStops : Bool) : AudioPlayback :=
  let shouldStopPausedPlayback := s.playState = .paused ∨ s.pauseRequested = true
  let allowGapIdleBeforeStart := decide (s.playState ≠ .idle ∧ 0 < request.config.delayMs)
  let s := { s with queue := [], removed := s.removed ++ s.queue.map PlaybackRequest.number, isProcessingQueue := false }
  let s := s.clearPendingInterruptPlayback.cancelPlaylistScheduledTask
  if shouldStopPausedPlayback then
    let s := { s with pendingInterruptRequest := some request, stopForPendingInterrupt := true, pauseRequested := false }
    if s.iface && halStops then s else s.clearPendingInterruptPlayback
  else s.startPlaylist request.urls request.config allowGapIdleBeforeStart

def submitPlaybackRequest (s : AudioPlayback) (urls : List String) (config : AudioPlayUrlConfig) (halStops : Bool) : AudioPlayback :=
  if config.interrupt then s.submitInterruptPlaybackRequest { urls := urls, config := config } halStops
  else
    let s :=
      { s with
        queue := s.queue ++ [{ urls := urls, config := config, number := s.submitted }]
        submitted := s.submitted + 1, isProcessingQueue := true }
    if s.playState = .idle ∧ s.playlist.phase = .inactive then s.processPlaybackQueue else s

/-- `function_play` with one url, and `function_play_list`, which refuses an empty list. -/
def functionPlayList (s : AudioPlayback) (urls : List String) (config : AudioPlayUrlConfig) (halStops : Bool) : AudioPlayback :=
  if urls.isEmpty then s else s.submitPlaybackRequest urls config halStops

def functionPause (s : AudioPlayback) (halPauses : Bool) (nowMs : ℤ) : AudioPlayback :=
  if s.iface && halPauses then { s with pauseRequested := true }.suspendPlaylistScheduledTask nowMs
  else { s with pauseRequested := false }

def functionResume (s : AudioPlayback) (halResumes : Bool) (nowMs : ℤ) : AudioPlayback :=
  let s := { s with pauseRequested := false }
  if s.iface && halResumes then
    (if s.stopForPendingInterrupt then s else { s with pendingInterruptRequest := none }).resumePlaylistScheduledTask nowMs
  else s

/-- `function_stop`. What the HAL answers decides only what is returned. -/
def functionStop (s : AudioPlayback) : AudioPlayback :=
  { s with pauseRequested := false }.clearPendingInterruptPlayback.cancelPlaylistScheduledTask

def onStop (s : AudioPlayback) : AudioPlayback :=
  let s := { s with queue := [], removed := s.removed ++ s.queue.map PlaybackRequest.number, isProcessingQueue := false }
  { { s with pauseRequested := false }.clearPendingInterruptPlayback.cancelPlaylistScheduledTask with iface := false }

def runTask (s : AudioPlayback) (task : PlaybackTask) (halPlays : Bool) (nowMs : ℤ) : AudioPlayback :=
  match task with
  | .report state => s.onReport state nowMs
  | .doPlay _ _ sessionId index currentLoop => s.doPlay sessionId index currentLoop halPlays nowMs

inductive PlaybackLabel
  | play (urls : List String) (config : AudioPlayUrlConfig) (halStops : Bool)
  | pause (halPauses : Bool) (nowMs : ℤ)
  | resume (halResumes : Bool) (nowMs : ℤ)
  | stop
  | onStop
  | report (state : AudioPlayState)
  | expire (task : PlaybackTask)
  | run (halPlays : Bool) (nowMs : ℤ)
deriving DecidableEq

def step (s : AudioPlayback) : PlaybackLabel → Option AudioPlayback
  | .play urls config halStops => some (s.functionPlayList urls config halStops)
  | .pause halPauses nowMs => some (s.functionPause halPauses nowMs)
  | .resume halResumes nowMs => some (s.functionResume halResumes nowMs)
  | .stop => some s.functionStop
  | .onStop => some s.onStop
  | .report state => some (s.onPlaybackEvent state)
  | .expire task =>
    if (task, false) ∈ s.delayed then
      some { s with delayed := s.delayed.erase (task, false), posted := s.posted ++ [task] }
    else none
  | .run halPlays nowMs =>
    match s.posted with
    | [] => none
    | task :: rest => some ({ s with posted := rest }.runTask task halPlays nowMs)

end AudioPlayback

def playbackMachine : Machine AudioPlayback AudioPlayback.PlaybackLabel where
  init s := s = {}
  step := AudioPlayback.step

end Brookesia.Audio

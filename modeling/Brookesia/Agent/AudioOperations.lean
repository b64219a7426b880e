import Brookesia.Transition.Machine

/-! # The audio operations of an agent

An agent starts its decoder and its encoder when it is started or resumed, and stops them when it is stopped or suspended. Guards undo
what was started if a later part fails.

* `startAudio`: the part that `do_start` and `do_resume` have in common.
* `AudioFollows`: the operations are those of an agent that is started and not suspended.
* `audio_follows`: they are in every run of calls as the callers make them. -/

namespace Brookesia.Agent.AudioOperations

open Transition Option

structure Base where
  isDecoderStarted : Bool := false
  audioPlaybackOperation : Bool := false
  isEncoderStarted : Bool := false
  encoderDataReadyConnected : Bool := false
  afeEventHappenedConnected : Bool := false
  isSuspended : Bool := false
  deriving DecidableEq

/-- What the capture operation answers. -/
structure CaptureAnswers where
  isAvailable : Bool := true
  connectsData : Bool := true
  connectsAfeEvent : Bool := true
  starts : Bool := true
  deriving DecidableEq

/-- What the parts of a start answer; `hook` is `on_startup` or `on_resume`. -/
structure StartAnswers where
  opensPlayback : Bool := true
  capture : CaptureAnswers := {}
  hook : Bool := true
  deriving DecidableEq

def startAudioDecoder (opensPlayback : Bool) (s : Base) : Bool × Base :=
  if s.isDecoderStarted then (true, s)
  else if !opensPlayback then (false, s)
  else (true, { s with audioPlaybackOperation := true, isDecoderStarted := true })

def stopAudioDecoder (s : Base) : Base := { s with audioPlaybackOperation := false, isDecoderStarted := false }

def disconnectConnections (s : Base) : Base :=
  { s with afeEventHappenedConnected := false, encoderDataReadyConnected := false }

def startAudioEncoder (enableAfe : Bool) (capture : CaptureAnswers) (s : Base) : Bool × Base :=
  if s.isEncoderStarted then (true, s)
  else if !capture.isAvailable then (false, s)
  else if !capture.connectsData then (false, { s with encoderDataReadyConnected := false })
  else
    let connected := { s with
      encoderDataReadyConnected := true
      afeEventHappenedConnected := if enableAfe then capture.connectsAfeEvent else s.afeEventHappenedConnected }
    if enableAfe && !capture.connectsAfeEvent then (false, disconnectConnections connected)
    else if !capture.starts then (false, disconnectConnections connected)
    else (true, { connected with isEncoderStarted := true })

def stopAudioEncoder (s : Base) : Base :=
  if !s.isEncoderStarted then s else { disconnectConnections s with isEncoderStarted := false }

/-- The decoder, the encoder and the hook in turn, each under the guards of those before it. -/
def startAudio (enableAfe : Bool) (answers : StartAnswers) (s : Base) : Bool × Base :=
  let decoder := startAudioDecoder answers.opensPlayback s
  if !decoder.1 then (false, decoder.2)
  else
    let encoder := startAudioEncoder enableAfe answers.capture decoder.2
    if !encoder.1 then (false, stopAudioDecoder encoder.2)
    else if !answers.hook then (false, stopAudioDecoder (stopAudioEncoder encoder.2))
    else (true, encoder.2)

def doStart (enableAfe : Bool) (answers : StartAnswers) (s : Base) : Bool × Base := startAudio enableAfe answers s

def doStop (s : Base) : Base := { stopAudioDecoder (stopAudioEncoder s) with isSuspended := false }

def doSleep (onSleep : Bool) (s : Base) : Bool × Base := (onSleep, s)

def doWakeup (onWakeup : Bool) (s : Base) : Bool × Base := (!s.isSuspended && onWakeup, s)

def doResume (enableAfe : Bool) (answers : StartAnswers) (s : Base) : Bool × Base :=
  if !s.isSuspended then (true, s)
  else
    let started := startAudio enableAfe answers s
    if !started.1 then started else (true, { started.2 with isSuspended := false })

/-- `isReady`: the event `Started` is ready and no stop runs. -/
def doSuspend (enableAfe isReady onSuspend : Bool) (resume : StartAnswers) (s : Base) : Bool × Base :=
  if s.isSuspended then (true, s)
  else if !isReady then (true, s)
  else if !onSuspend then (false, (doResume enableAfe resume { s with isSuspended := true }).2)
  else (true, stopAudioDecoder (stopAudioEncoder { s with isSuspended := true }))

/-! ### Runs -/

/-- The agent, and whether the last start that succeeded has not been followed by a stop. -/
structure State where
  base : Base := {}
  isStarted : Bool := false
  deriving DecidableEq

inductive Call
  | start (answers : StartAnswers)
  | stop
  | sleep (onSleep : Bool)
  | wakeup (onWakeup : Bool)
  | suspend (isReady onSuspend : Bool) (resume : StartAnswers)
  | resume (answers : StartAnswers)
  deriving DecidableEq

def step (enableAfe : Bool) (s : State) : Call → Option State
  | .start answers => some ⟨(doStart enableAfe answers s.base).2, s.isStarted || (doStart enableAfe answers s.base).1⟩
  | .stop => some ⟨doStop s.base, false⟩
  | .sleep onSleep => some { s with base := (doSleep onSleep s.base).2 }
  | .wakeup onWakeup => some { s with base := (doWakeup onWakeup s.base).2 }
  | .suspend isReady onSuspend resume => some { s with base := (doSuspend enableAfe isReady onSuspend resume s.base).2 }
  | .resume answers => some { s with base := (doResume enableAfe answers s.base).2 }

def machine (enableAfe : Bool) : Machine State Call where
  init s := s = {}
  step := step enableAfe

/-- Both operations are started if the agent is started and not suspended, and otherwise both are stopped; the connections are those of
the encoder, without that for AFE events if these are not processed. -/
structure AudioFollows (enableAfe : Bool) (s : State) : Prop where
  decoder : s.base.isDecoderStarted = (s.isStarted && !s.base.isSuspended)
  encoder : s.base.isEncoderStarted = (s.isStarted && !s.base.isSuspended)
  data : s.base.encoderDataReadyConnected = s.base.isEncoderStarted
  afe : s.base.afeEventHappenedConnected = (enableAfe && s.base.isEncoderStarted)

def CaptureAnswers.accepts (enableAfe : Bool) (capture : CaptureAnswers) : Bool :=
  capture.isAvailable && capture.connectsData && (!enableAfe || capture.connectsAfeEvent) && capture.starts

/-- A started agent is started again only if its hook accepts or, while it is suspended, if some part refuses; and it is only a started
agent whose event `Started` is ready. -/
def Orderly (enableAfe : Bool) (s : State) : Call → Prop
  | .start answers => s.isStarted = true →
    if s.base.isSuspended then (answers.opensPlayback && answers.capture.accepts enableAfe && answers.hook) = false
    else answers.hook = true
  | .suspend isReady _ _ => isReady = true → s.isStarted = true
  | .stop | .sleep _ | .wakeup _ | .resume _ => True

instance (enableAfe : Bool) (s : State) (call : Call) : Decidable (Orderly enableAfe s call) :=
  match call with
  | .start _ => inferInstanceAs (Decidable (_ → _))
  | .suspend _ _ _ => inferInstanceAs (Decidable (_ → _))
  | .stop | .sleep _ | .wakeup _ | .resume _ => isTrue trivial

/-! ### One call -/

def setAudio (enableAfe started isSuspended : Bool) : Base where
  isDecoderStarted := started
  audioPlaybackOperation := started
  isEncoderStarted := started
  encoderDataReadyConnected := started
  afeEventHappenedConnected := enableAfe && started
  isSuspended := isSuspended

variable {enableAfe started isSuspended : Bool}

/-- A start ends with both operations started or both stopped. -/
theorem startAudio_setAudio (answers : StartAnswers) :
    startAudio enableAfe answers (setAudio enableAfe started isSuspended) =
      if (started || answers.opensPlayback && answers.capture.accepts enableAfe) && answers.hook then
        (true, setAudio enableAfe true isSuspended)
      else (false, setAudio enableAfe false isSuspended) := by
  obtain ⟨opensPlayback, ⟨isAvailable, connectsData, connectsAfeEvent, starts⟩, hook⟩ := answers
  cases started with
  | true => cases hook <;> cases enableAfe <;> rfl
  | false =>
    cases opensPlayback with
    | false => rfl
    | true => cases enableAfe <;> cases isAvailable <;> cases connectsData <;> cases connectsAfeEvent <;> cases starts <;>
        cases hook <;> rfl

theorem stopAudio_setAudio : stopAudioDecoder (stopAudioEncoder (setAudio enableAfe started isSuspended)) =
    setAudio enableAfe false isSuspended := by
  cases started with
  | true => cases enableAfe <;> rfl
  | false => cases enableAfe <;> rfl

theorem doResume_setAudio (answers : StartAnswers) : doResume enableAfe answers (setAudio enableAfe started true) =
    if (started || answers.opensPlayback && answers.capture.accepts enableAfe) && answers.hook then
      (true, setAudio enableAfe true false)
    else (false, setAudio enableAfe false true) := by
  have hstart : startAudio enableAfe answers (setAudio enableAfe started true) = _ := startAudio_setAudio answers
  unfold doResume
  rw [hstart]
  by_cases hstarts : ((started || answers.opensPlayback && answers.capture.accepts enableAfe) && answers.hook) = true
  · rw [if_pos hstarts, if_pos hstarts]
    rfl
  · rw [if_neg hstarts, if_neg hstarts]
    rfl

/-- The agent is stopped, started, or started and suspended. -/
def Inv (enableAfe : Bool) (s : State) : Prop :=
  (∃ started, s = ⟨setAudio enableAfe started false, started⟩) ∨ s = ⟨setAudio enableAfe false true, true⟩

theorem Inv.audioFollows {s : State} (h : Inv enableAfe s) : AudioFollows enableAfe s := by
  rcases h with ⟨started, rfl⟩ | rfl
  · exact ⟨(Bool.and_true started).symm, (Bool.and_true started).symm, rfl, rfl⟩
  · exact ⟨rfl, rfl, rfl, rfl⟩

theorem Inv.start {s : State} (h : Inv enableAfe s) {answers : StartAnswers} (horderly : Orderly enableAfe s (.start answers)) :
    Inv enableAfe ⟨(doStart enableAfe answers s.base).2, s.isStarted || (doStart enableAfe answers s.base).1⟩ := by
  unfold Orderly at horderly
  unfold doStart
  rcases h with ⟨started, rfl⟩ | rfl
  · rw [startAudio_setAudio]
    split_ifs with hstarts
    · exact Or.inl ⟨true, by rw [Bool.or_true]⟩
    · cases started with
      | false => exact Or.inl ⟨false, rfl⟩
      | true => exact absurd (horderly rfl) hstarts
  · have href : (answers.opensPlayback && answers.capture.accepts enableAfe && answers.hook) = false := horderly rfl
    rw [startAudio_setAudio, Bool.false_or, href]
    exact Or.inr rfl

theorem Inv.stop {s : State} (h : Inv enableAfe s) : Inv enableAfe ⟨doStop s.base, false⟩ := by
  have hstop : ∀ started isSuspended, doStop (setAudio enableAfe started isSuspended) = setAudio enableAfe false false := by
    intro started isSuspended
    unfold doStop
    rw [stopAudio_setAudio]
    rfl
  rcases h with ⟨started, rfl⟩ | rfl
  · exact Or.inl ⟨false, congrArg (State.mk · false) (hstop _ _)⟩
  · exact Or.inl ⟨false, congrArg (State.mk · false) (hstop _ _)⟩

theorem Inv.suspend {s : State} (h : Inv enableAfe s) {isReady onSuspend : Bool} {resume : StartAnswers}
    (horderly : Orderly enableAfe s (.suspend isReady onSuspend resume)) :
    Inv enableAfe { s with base := (doSuspend enableAfe isReady onSuspend resume s.base).2 } := by
  unfold Orderly at horderly
  rcases h with ⟨started, rfl⟩ | rfl
  · cases isReady with
    | false => exact Or.inl ⟨started, rfl⟩
    | true =>
      obtain rfl : started = true := horderly rfl
      cases onSuspend with
      | true => exact Or.inr (congrArg (State.mk · true) stopAudio_setAudio)
      | false =>
        have hresume : doResume enableAfe resume (setAudio enableAfe true true) = _ := doResume_setAudio resume
        show Inv enableAfe ⟨(doResume enableAfe resume (setAudio enableAfe true true)).2, true⟩
        rw [hresume]
        split_ifs
        · exact Or.inl ⟨true, rfl⟩
        · exact Or.inr rfl
  · exact Or.inr rfl

theorem Inv.resume {s : State} (h : Inv enableAfe s) (answers : StartAnswers) :
    Inv enableAfe { s with base := (doResume enableAfe answers s.base).2 } := by
  rcases h with ⟨started, rfl⟩ | rfl
  · exact Or.inl ⟨started, rfl⟩
  · rw [doResume_setAudio]
    split_ifs
    · exact Or.inl ⟨true, rfl⟩
    · exact Or.inr rfl

theorem machine_inductive (enableAfe : Bool) : (machine enableAfe).Inductive (Orderly enableAfe) (Inv enableAfe) := by
  constructor
  · rintro s rfl
    exact Or.inl ⟨false, by cases enableAfe <;> rfl⟩
  · intro s call s' h horderly hst
    have hst : step enableAfe s call = some s' := hst
    cases call <;> obtain rfl := some.inj hst
    · exact h.start horderly
    · exact h.stop
    · exact h
    · exact h
    · exact h.suspend horderly
    · exact h.resume _

/-- In every run of orderly calls the audio operations are those of the state of the agent. -/
theorem audio_follows {s : State} (hs : (machine enableAfe).Reach (Orderly enableAfe) s) : AudioFollows enableAfe s :=
  ((machine_inductive enableAfe).reach hs).audioFollows

/-- A suspension that fails, a resume that fails, and one that succeeds. -/
theorem audio_follows_resumedRun : ∃ s, s.base.isEncoderStarted = true ∧ (machine true).Reach (Orderly true) s ∧
    AudioFollows true s := by
  have hrun : ((machine true).execWhen (Orderly true) {} [.start {}, .suspend true false { hook := false }, .resume { hook := false },
      .resume {}]).map (·.base.isEncoderStarted) = some true := by decide +kernel
  obtain ⟨s, hs, hencoder⟩ := map_eq_some_iff.mp hrun
  have hreach := Machine.Reach.execWhen (.init rfl) hs
  exact ⟨s, hencoder, hreach, audio_follows hreach⟩

/-- A second start whose hook refuses stops the operations of the agent that goes on. -/
theorem secondStart_not_follows : ¬ ∀ s, (machine true).Reachable s → AudioFollows true s := by
  intro h
  have hrun : ((machine true).exec {} [.start {}, .start { hook := false }]).map
      (fun s => (s.isStarted, s.base.isSuspended, s.base.isDecoderStarted)) = some (true, false, false) := by decide +kernel
  obtain ⟨s, hs, hfacts⟩ := map_eq_some_iff.mp hrun
  have hdec := (h s (.exec (.init rfl) hs)).decoder
  obtain ⟨hstd, hfacts⟩ := Prod.mk.inj hfacts
  obtain ⟨hsusp, hstop⟩ := Prod.mk.inj hfacts
  rw [hstd, hsusp, hstop] at hdec
  exact absurd hdec (by decide)

end Brookesia.Agent.AudioOperations

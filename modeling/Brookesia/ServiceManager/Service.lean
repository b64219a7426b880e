import Brookesia.Transition.Machine

/-! # A service

`ServiceBase` as far as the manager uses it: `init`, `deinit`, `start` and `stop`, each of which takes
`state_mutex` and calls the service's own code. A call is followed from one access to the state of
the service to the next; `stop` gives the mutex back before it stops the scheduler, and `deinit` takes
it again after that. -/

namespace Brookesia.ServiceManager.Service

open List

abbrev ServiceName := String

abbrev ServiceId := ℕ

structure Attributes where
  name : ServiceName
  bindable : Bool := true
  dependencies : List ServiceName := []
  deriving DecidableEq

abbrev Catalog := ServiceId → Attributes

structure ServiceBase where
  isInitialized : Bool := false
  isRunning : Bool := false
  /-- `state_mutex` is held. -/
  locked : Bool := false
  deriving DecidableEq

/-- Where a call is: about to take the mutex, in the service's own code, or past it. -/
inductive CallStage
  | initializing
  | onInit
  | starting
  | onStart
  | stopping
  | onStop
  /-- `stop` has given the mutex back and stops the scheduler. -/
  | draining
  | deinitializing
  | deinitStopping
  | relocking
  | onDeinit
  deriving DecidableEq

inductive CallNext
  | goes (c : CallStage)
  | returns (ok : Bool)
  deriving DecidableEq

/-- The next step of a call, `none` while another call has the mutex; `ok` is what the service's own
code makes of it. -/
def callStep (b : ServiceBase) (ok : Bool) : CallStage → Option (ServiceBase × CallNext)
  | .initializing =>
    if b.locked then none
    else if b.isInitialized then some (b, .returns true)
    else if ok then some ({ b with locked := true, isInitialized := true }, .goes .onInit)
    else some (b, .returns false)
  | .onInit => some ({ b with locked := false, isInitialized := ok }, .returns ok)
  | .starting =>
    if b.locked then none
    else if b.isRunning then some (b, .returns true)
    else if b.isInitialized then some ({ b with locked := true, isRunning := true }, .goes .onStart)
    else some (b, .returns false)
  -- a start that fails stops what it has started
  | .onStart => some ({ b with locked := false, isRunning := ok }, .returns ok)
  | .stopping =>
    if b.locked then none
    else if b.isRunning then some ({ b with locked := true }, .goes .onStop)
    else some (b, .returns true)
  | .onStop => some ({ b with locked := false, isRunning := false }, .goes .draining)
  | .draining => some (b, .returns true)
  | .deinitializing =>
    if b.locked then none
    else if b.isInitialized then
      some ({ b with locked := true }, .goes (if b.isRunning then .deinitStopping else .onDeinit))
    else some (b, .returns true)
  | .deinitStopping => some ({ b with locked := false, isRunning := false }, .goes .relocking)
  | .relocking => if b.locked then none else some ({ b with locked := true }, .goes .onDeinit)
  | .onDeinit => some ({ b with locked := false, isInitialized := false }, .returns true)

theorem callStep_ne {b b' : ServiceBase} {ok : Bool} {c c' : CallStage}
    (h : callStep b ok c = some (b', .goes c')) : c ≠ c' := by
  rintro rfl
  cases c <;> simp only [callStep] at h <;> repeat' first | cases h | split at h

/-! ### What the manager calls -/

/-- A call of `start` or `stop`, and its return. -/
inductive Event
  | start
  | started (ok : Bool)
  | stop
  | stopped
  deriving DecidableEq

/-- What a service is doing between its calls. -/
inductive Phase
  | idle
  | starting
  | running
  | stopping
  deriving DecidableEq

/-- One call at a time: `start` of an idle service, which is idle again if that fails, and `stop` of a
running one. -/
def Phase.next : Phase → Event → Option Phase
  | .idle, .start => some .starting
  | .starting, .started ok => some (if ok then .running else .idle)
  | .running, .stop => some .stopping
  | .stopping, .stopped => some .idle
  | _, _ => none

/-- Where the calls have led, `none` if two of them overlap or one is out of order. -/
def phaseOf (log : List Event) : Option Phase := log.foldlM Phase.next .idle

theorem phaseOf_concat {log : List Event} {e : Event} {q : Phase} :
    phaseOf (log ++ [e]) = some q ↔ ∃ p, phaseOf log = some p ∧ p.next e = some q := by
  simp [phaseOf, foldlM_append, Option.bind_eq_some_iff]

def Event.isCall : Event → Bool
  | .start | .stop => true
  | _ => false

def Event.takesEffect : Event → Bool
  | .started true | .stop => true
  | _ => false

/-- Calls in order stop what they have started, and start what they have stopped. -/
theorem phaseOf_alternate {log : List Event} : ∀ {q : Phase}, phaseOf log = some q →
    (log.filter Event.takesEffect).IsChain (· ≠ ·) ∧
      (q = .running ↔ (log.filter Event.takesEffect).getLast? = some (.started true)) := by
  induction log using List.reverseRecOn with
  | nil => intro q h; cases h; simp
  | append_singleton log e ih =>
    intro q h
    obtain ⟨p, hp, hnext⟩ := phaseOf_concat.mp h
    obtain ⟨hchain, hlast⟩ := ih hp
    rw [filter_append]
    generalize log.filter Event.takesEffect = l at hchain hlast ⊢
    cases p <;> cases e <;> simp only [Phase.next, reduceCtorEq, Option.some.injEq] at hnext <;>
      subst hnext
    case starting.started ok =>
      cases ok with
      | true =>
        refine ⟨isChain_append.mpr ⟨hchain, .singleton _, ?_⟩,
          by simp [Event.takesEffect]⟩
        intro x hx y hy
        cases hy
        rintro rfl
        cases hlast.mpr hx
      | false =>
        exact ⟨by simpa [Event.takesEffect] using hchain, by simpa [Event.takesEffect] using hlast⟩
    case running.stop =>
      refine ⟨isChain_append.mpr ⟨hchain, .singleton _, ?_⟩,
        by simp [Event.takesEffect]⟩
      intro x hx y hy
      cases hy
      rintro rfl
      rw [hlast.mp rfl] at hx
      cases hx
    all_goals
      exact ⟨by simpa [Event.takesEffect] using hchain, by simpa [Event.takesEffect] using hlast⟩

theorem phaseOf_running {log : List Event} (h : phaseOf log = some .running) : log.getLast? = some (.started true) := by
  induction log using List.reverseRecOn with
  | nil => cases h
  | append_singleton log e ih =>
    obtain ⟨p, -, hnext⟩ := phaseOf_concat.mp h
    cases p <;> cases e <;> simp [Phase.next] at hnext
    · simp [hnext]

end Brookesia.ServiceManager.Service

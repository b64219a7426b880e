import Brookesia.ServiceManager.SyncCalls

/-! # A batch and its single calls

`call_functions_sync` against `call_function_sync` for one call after another. A batch posts one task,
also from a task of its own call group, for which it then waits in vain; it reserves no worker for the
task, waits once for all of its calls, looks all functions up before it runs the first, and names a
batch in the text of an exception. -/

namespace Brookesia.ServiceManager.Sync

open List

variable {σ π δ : Type*} {svc : Service σ π δ} {scheduler : Scheduler}

def callOneByOne (svc : Service σ π δ) (scheduler : Scheduler) (timeoutMs : ℕ) :
    List (FunctionCall π) → World σ π → List (FunctionCallResult δ) × World σ π
  | [], w => ([], w)
  | call :: calls, w =>
    let r := callFunctionSync svc scheduler timeoutMs call w
    let rest := if r.1.success then callOneByOne svc scheduler timeoutMs calls r.2 else ([], r.2)
    (makeCallResult call.name r.1 :: rest.1, rest.2)

/-- No call of another client is run between two calls of the batch. -/
def Undisturbed (events : List (Event π)) : Prop :=
  ∀ before call after, events = before ++ .other call :: after →
    before.filterMap Event.own? = [] ∨ after.filterMap Event.own? = []

/-- The batch does what its calls do one after another. -/
structure BatchIsSingles (svc : Service σ π δ) (scheduler : Scheduler) (timeoutMs : ℕ) (calls : List (FunctionCall π))
    (w : World σ π) : Prop where
  results : (callFunctionsSync svc scheduler timeoutMs calls w).1.results = (callOneByOne svc scheduler timeoutMs calls w).1
  success : (callFunctionsSync svc scheduler timeoutMs calls w).1.success =
    (callOneByOne svc scheduler timeoutMs calls w).1.all fun r => r.success
  ran : (callFunctionsSync svc scheduler timeoutMs calls w).2.ran = (callOneByOne svc scheduler timeoutMs calls w).2.ran
  undisturbed : ∀ events,
    Observes (inGroup svc scheduler calls) (callFunctionsSync svc scheduler timeoutMs calls w).2.ran events → Undisturbed events
  onTime : (callFunctionsSync svc scheduler timeoutMs calls w).2.late = []

/-- All functions are there and none throws; where one requires the scheduler, the caller is not in the
call group, leaves a worker for the task, and waits long enough for all calls and what is before them;
where none does, at most one call is run, or the caller is in the call group. -/
structure Condition (svc : Service σ π δ) (scheduler : Scheduler) (timeoutMs : ℕ) (calls : List (FunctionCall π))
    (w : World σ π) : Prop where
  found : ∀ call ∈ calls, (svc.getSchema call.name).isSome = true
  returns : ∀ r ∈ runCalls svc calls w.state, ∃ result, r.2.outcome = .returns result
  posted : requireScheduler svc calls = some true → scheduler.reaches = true ∧
    max w.now w.busyUntil + duration (runCalls svc calls w.state) < w.now + timeoutMs
  direct : requireScheduler svc calls = some false →
    scheduler.isCurrentThreadInGroup = true ∨ (runCalls svc calls w.state).length ≤ 1

/-! ### Looking up -/

variable {calls : List (FunctionCall π)} {require : Bool} {timeoutMs : ℕ} {w : World σ π}

theorem requireScheduler_eq_none :
    requireScheduler svc calls = none ↔ ∃ call ∈ calls, svc.getSchema call.name = none := by
  induction calls with
  | nil => simp [requireScheduler]
  | cons call calls ih =>
    cases hschema : svc.getSchema call.name with
    | none => simp [requireScheduler, hschema]
    | some schema =>
      cases hrest : requireScheduler svc calls with
      | none => simpa [requireScheduler, hschema, hrest] using ih.mp hrest
      | some require =>
        have hnot : ¬ ∃ call ∈ calls, svc.getSchema call.name = none := fun hex => by
          rw [ih.mpr hex] at hrest
          cases hrest
        simpa [requireScheduler, hschema, hrest] using hnot

theorem requireScheduler_cons {call : FunctionCall π} (h : requireScheduler svc (call :: calls) = some require) :
    ∃ schema rest, svc.getSchema call.name = some schema ∧ requireScheduler svc calls = some rest ∧
      require = (schema.requireScheduler || rest) := by
  cases hschema : svc.getSchema call.name with
  | none => simp [requireScheduler, hschema] at h
  | some schema =>
    cases hrest : requireScheduler svc calls with
    | none => simp [requireScheduler, hschema, hrest] at h
    | some rest =>
      refine ⟨schema, rest, rfl, rfl, ?_⟩
      simpa [requireScheduler, hschema, hrest] using h.symm

theorem runCalls_ne_nil (h : calls ≠ []) (state : σ) : runCalls svc calls state ≠ [] := by
  cases calls with
  | nil => exact absurd rfl h
  | cons call calls => exact cons_ne_nil _ _

theorem ne_nil_of_requires (h : requireScheduler svc calls = some true) : calls ≠ [] := by
  rintro rfl
  cases h

/-! ### Single calls -/

theorem Scheduler.tryAcquire_of_reaches (h : scheduler.reaches = true) : scheduler.tryAcquireWorkerWaitSlot = true := by
  have hslots := scheduler.slots
  unfold Scheduler.reaches at h
  obtain ⟨-, h⟩ := Bool.and_eq_true_iff.mp h
  have hroom := of_decide_eq_true h
  unfold Scheduler.tryAcquireWorkerWaitSlot
  split
  · next hworker =>
    rw [if_pos hworker] at hroom
    rw [if_neg (by omega)]
    exact decide_eq_true (by omega)
  · rfl

theorem Scheduler.not_inGroup_of_reaches (h : scheduler.reaches = true) : scheduler.isCurrentThreadInGroup = false := by
  unfold Scheduler.reaches at h
  obtain ⟨h, -⟩ := Bool.and_eq_true_iff.mp h
  simpa using h

/-- A single call that is run, by whom and whenever. -/
structure RunsSingle (svc : Service σ π δ) (call : FunctionCall π) (w : World σ π)
    (r : FunctionResult δ × World σ π) : Prop where
  result : r.1 = callResult svc call.name (svc.call call w.state).outcome
  state : r.2.state = (svc.call call w.state).state
  ran : r.2.ran = w.ran ++ [call]
  now : w.now ≤ r.2.now
  /-- The call group is not delayed by more than the call takes. -/
  busy : max r.2.now r.2.busyUntil ≤ max w.now w.busyUntil + (svc.call call w.state).duration

theorem runsSingle_runHere (call : FunctionCall π) (w : World σ π) : RunsSingle svc call w (runHere svc call w) where
  result := rfl
  state := rfl
  ran := rfl
  now := Nat.le_add_right _ _
  busy := by
    change max (w.now + (svc.call call w.state).duration) w.busyUntil ≤ _
    omega

/-- A call whose function is there is run, if it is on time where it requires the scheduler. -/
theorem runsSingle_callFunctionSync {call : FunctionCall π} {schema : FunctionSchema} (timeoutMs : ℕ) (w : World σ π)
    (hschema : svc.getSchema call.name = some schema)
    (hrdy : schema.requireScheduler = true → scheduler.reaches = true ∧
      max w.now w.busyUntil + (svc.call call w.state).duration < w.now + timeoutMs) :
    RunsSingle svc call w (callFunctionSync svc scheduler timeoutMs call w) := by
  unfold callFunctionSync
  rw [hschema]
  dsimp only
  cases hrequ : schema.requireScheduler with
  | false =>
    rw [Bool.false_and, Bool.false_and, if_neg Bool.false_ne_true, if_neg Bool.false_ne_true, Bool.not_false, if_pos rfl]
    exact runsSingle_runHere call w
  | true =>
    obtain ⟨hrch, htime⟩ := hrdy hrequ
    have hpos : timeoutMs ≠ 0 := by omega
    rw [Scheduler.not_inGroup_of_reaches hrch, Scheduler.tryAcquire_of_reaches hrch, if_neg hpos, Bool.and_false,
      if_neg Bool.false_ne_true, Bool.not_true, Bool.and_false, if_neg Bool.false_ne_true, if_neg Bool.false_ne_true]
    unfold runPosted
    dsimp only
    rw [if_pos ⟨hrch, htime⟩]
    refine ⟨rfl, rfl, rfl, ?_, ?_⟩
    · change w.now ≤ max w.now w.busyUntil + (svc.call call w.state).duration
      omega
    · change max (max w.now w.busyUntil + _) (max w.now w.busyUntil + _) ≤ _
      omega

theorem callResult_success (name : String) (outcome : Outcome δ) : (callResult svc name outcome).success = outcome.success := by
  cases outcome <;> rfl

def singleResults (svc : Service σ π δ) (runs : List (FunctionCall π × Run σ δ)) : List (FunctionCallResult δ) :=
  runs.map fun r => makeCallResult r.1.name (callResult svc r.1.name r.2.outcome)

/-- The single calls run what the loop of a batch runs, if they are on time. -/
theorem callOneByOne_runs (timeoutMs time : ℕ) (calls : List (FunctionCall π)) (w : World σ π)
    (hfnd : requireScheduler svc calls = some require) (htime : max w.now w.busyUntil ≤ time)
    (hrdy : require = true → scheduler.reaches = true ∧ time + duration (runCalls svc calls w.state) < w.now + timeoutMs) :
    (callOneByOne svc scheduler timeoutMs calls w).1 = singleResults svc (runCalls svc calls w.state) ∧
      (callOneByOne svc scheduler timeoutMs calls w).2.ran = w.ran ++ (runCalls svc calls w.state).map (·.1) := by
  induction calls generalizing w time require with
  | nil => exact ⟨rfl, (append_nil _).symm⟩
  | cons call calls ih =>
    obtain ⟨schema, rest, hschema, hrest, rfl⟩ := requireScheduler_cons hfnd
    have hduration : (svc.call call w.state).duration ≤ duration (runCalls svc (call :: calls) w.state) := by
      simp only [runCalls, duration, map_cons, sum_cons]
      omega
    have hrun : RunsSingle svc call w (callFunctionSync svc scheduler timeoutMs call w) := by
      refine runsSingle_callFunctionSync timeoutMs w hschema fun hrequ => ?_
      obtain ⟨hrch, hdone⟩ := hrdy (by rw [hrequ, Bool.true_or])
      exact ⟨hrch, by omega⟩
    unfold callOneByOne runCalls
    dsimp only
    rw [hrun.result, callResult_success]
    cases hsuccess : (svc.call call w.state).outcome.success with
    | false =>
      rw [if_neg Bool.false_ne_true, if_neg Bool.false_ne_true]
      exact ⟨rfl, hrun.ran⟩
    | true =>
      rw [if_pos rfl, if_pos rfl]
      have htotal : duration (runCalls svc (call :: calls) w.state) =
          (svc.call call w.state).duration + duration (runCalls svc calls (svc.call call w.state).state) := by
        simp [runCalls, duration, hsuccess]
      have hbusy : max (callFunctionSync svc scheduler timeoutMs call w).2.now
          (callFunctionSync svc scheduler timeoutMs call w).2.busyUntil ≤ time + (svc.call call w.state).duration := by
        have hbusy := hrun.busy
        omega
      obtain ⟨hresults, hran⟩ := ih _ _ hrest hbusy fun hrequ => by
        obtain ⟨hrch, hdone⟩ := hrdy (by rw [hrequ, Bool.or_true])
        refine ⟨hrch, ?_⟩
        have hnow := hrun.now
        rw [hrun.state]
        omega
      rw [hrun.state] at hresults hran
      refine ⟨congrArg (makeCallResult call.name _ :: ·) hresults, ?_⟩
      rw [hran, hrun.ran, append_assoc]
      rfl

/-! ### The batch -/

theorem duration_split (deadline : ℕ) {runs : List (FunctionCall π × Run σ δ)} (hne : runs ≠ []) {time : ℕ}
    (hlate : ¬ time + duration runs < deadline) : (doneBefore deadline time runs).2 ≠ [] := by
  induction runs generalizing time with
  | nil => exact absurd rfl hne
  | cons r runs ih =>
    unfold doneBefore
    split
    · next hdone =>
      by_cases hnil : runs = []
      · subst hnil
        refine absurd ?_ hlate
        simpa [duration] using hdone
      · refine ih hnil ?_
        simp only [duration, map_cons, sum_cons] at hlate ⊢
        omega
    · exact cons_ne_nil _ _

theorem callFunctionsSync_runs (timeoutMs : ℕ) (hfnd : requireScheduler svc calls = some require)
    (hrdy : require = true → scheduler.reaches = true ∧
      max w.now w.busyUntil + duration (runCalls svc calls w.state) < w.now + timeoutMs) :
    (callFunctionsSync svc scheduler timeoutMs calls w).1 = batchResult svc (runCalls svc calls w.state) ∧
      (callFunctionsSync svc scheduler timeoutMs calls w).2.ran = w.ran ++ (runCalls svc calls w.state).map (·.1) ∧
      (callFunctionsSync svc scheduler timeoutMs calls w).2.late = w.late := by
  unfold callFunctionsSync
  rw [hfnd]
  cases require with
  | false => exact ⟨rfl, rfl, rfl⟩
  | true =>
    dsimp only
    rw [if_pos (hrdy rfl)]
    exact ⟨rfl, rfl, rfl⟩

theorem callFunctionsSync_late (hrequ : requireScheduler svc calls = some true)
    (hnot : ¬ (scheduler.reaches = true ∧ max w.now w.busyUntil + duration (runCalls svc calls w.state) < w.now + timeoutMs)) :
    (callFunctionsSync svc scheduler timeoutMs calls w).2.late ≠ [] := by
  have hruns : runCalls svc calls w.state ≠ [] := runCalls_ne_nil (ne_nil_of_requires hrequ) w.state
  unfold callFunctionsSync
  rw [hrequ]
  dsimp only
  rw [if_neg hnot]
  dsimp only
  refine append_ne_nil_of_right_ne_nil _ fun hnil => ?_
  have hnil := map_eq_nil_iff.mp hnil
  split at hnil
  · next hrch => exact duration_split _ hruns (fun htime => hnot ⟨hrch, htime⟩) hnil
  · exact hruns hnil

theorem length_ne_of_throws (name : String) (what : String) :
    (errorPrefix svc.name name ++ (": detected exception: " ++ what)).length ≠
      (errorPrefix svc.name "batch" ++ (": function '" ++ (name ++ ("' detected exception: " ++ what)))).length := by
  simp only [errorPrefix, String.length_append]
  have h1 : ": detected exception: ".length = 22 := by decide
  have h2 : ": function '".length = 12 := by decide
  have h3 : "' detected exception: ".length = 22 := by decide
  have h4 : "batch".length = 5 := by decide
  omega

theorem batchCallResult_eq_iff (name : String) (outcome : Outcome δ) :
    batchCallResult svc name outcome = makeCallResult name (callResult svc name outcome) ↔
      ∃ result, outcome = .returns result := by
  cases outcome with
  | returns result => exact ⟨fun _ => ⟨result, rfl⟩, fun _ => rfl⟩
  | throws what =>
    constructor
    · intro heq
      have htext := congrArg (fun r : FunctionCallResult δ => r.errorMessage.length) heq
      exact absurd htext.symm (length_ne_of_throws name what)
    · rintro ⟨result, heq⟩
      cases heq

/-! ### Other clients -/

@[simp] theorem filterMap_cons_own (call : FunctionCall π) (events : List (Event π)) :
    (.own call :: events).filterMap Event.own? = call :: events.filterMap Event.own? := rfl

@[simp] theorem filterMap_cons_other (call : FunctionCall π) (events : List (Event π)) :
    (.other call :: events).filterMap Event.own? = events.filterMap Event.own? := rfl

theorem filterMap_own (calls : List (FunctionCall π)) : (calls.map Event.own).filterMap Event.own? = calls := by
  induction calls with
  | nil => rfl
  | cons call calls ih => rw [map_cons, filterMap_cons_own, ih]

theorem filterMap_other (calls : List (FunctionCall π)) : (calls.map Event.other).filterMap Event.own? = [] := by
  induction calls with
  | nil => rfl
  | cons call calls ih => rw [map_cons, filterMap_cons_other, ih]

theorem undisturbed_of_inGroup {earlier ran later : List (FunctionCall π)} :
    Undisturbed (earlier.map .other ++ ran.map .own ++ later.map .other) := by
  have hnone : ∀ {calls : List (FunctionCall π)} {events rest : List (Event π)}, calls.map Event.other = events ++ rest →
      events.filterMap Event.own? = [] ∧ rest.filterMap Event.own? = [] := by
    intro calls events rest heq
    have hemp := filterMap_other calls
    rw [heq, filterMap_append] at hemp
    exact append_eq_nil_iff.mp hemp
  intro before call after heq
  rw [append_assoc] at heq
  obtain ⟨a, hbef, hrest⟩ | ⟨a, hearlier, -⟩ := append_eq_append_iff.mp heq
  · right
    obtain ⟨b, -, hlater⟩ | ⟨b, hran, hlater⟩ := append_eq_append_iff.mp hrest
    · obtain ⟨-, hafter⟩ := hnone hlater
      rwa [filterMap_cons_other] at hafter
    · cases b with
      | nil =>
        have hafter := (hnone (show later.map Event.other = [.other call] ++ after from hlater.symm)).2
        exact hafter
      | cons event b =>
        have hoth : .other call ∈ ran.map Event.own := by
          rw [hran, (cons.inj hlater).1]
          exact mem_append_right _ mem_cons_self
        obtain ⟨own, -, heq⟩ := mem_map.mp hoth
        cases heq
  · exact .inl (hnone hearlier).1

theorem undisturbed_iff (inGroup : Bool) (ran : List (FunctionCall π)) :
    (∀ events, Observes inGroup ran events → Undisturbed events) ↔ inGroup = true ∨ ran.length ≤ 1 := by
  unfold Observes
  cases inGroup with
  | true =>
    refine ⟨fun _ => .inl rfl, fun _ events hevs => ?_⟩
    obtain ⟨earlier, later, rfl⟩ := hevs
    exact undisturbed_of_inGroup
  | false =>
    simp only [Bool.false_eq_true, if_false, false_or]
    constructor
    · intro hall
      by_contra hlong
      obtain ⟨a, b, rest, rfl⟩ : ∃ a b rest, ran = a :: b :: rest := by
        cases ran with
        | nil => exact absurd (Nat.zero_le 1) hlong
        | cons a ran =>
          cases ran with
          | nil => exact absurd (Nat.le_refl 1) hlong
          | cons b rest => exact ⟨a, b, rest, rfl⟩
      have hmixed : (Event.own a :: .other a :: .own b :: rest.map Event.own).filterMap Event.own? = a :: b :: rest := by
        rw [filterMap_cons_own, filterMap_cons_other, filterMap_cons_own, filterMap_own]
      obtain hnil | hnil := hall _ hmixed [.own a] a (.own b :: rest.map Event.own) rfl
      · cases hnil
      · cases hnil
    · rintro hshort events rfl before call after rfl
      rw [filterMap_append, filterMap_cons_other, length_append] at hshort
      by_contra hboth
      push Not at hboth
      have hbef := length_pos_iff.mpr hboth.1
      have hafter := length_pos_iff.mpr hboth.2
      omega

/-! ### Functions that are not there -/

theorem ne_of_head {a b : String} (h : a.toList.head? ≠ b.toList.head?) : a ≠ b := by
  rintro rfl
  exact h rfl

/-- The call is run; or it is not, and says so in a text of its own. -/
def RunsOrTells (call : FunctionCall π) (w : World σ π) (r : FunctionResult δ × World σ π) : Prop :=
  r.2.ran = w.ran ++ [call] ∨ r.2.ran = w.ran ∧ r.1.errorMessage ≠ "Failed to call functions asynchronously"

theorem runsOrTells_runPosted (timeoutMs : ℕ) (call : FunctionCall π) (w : World σ π) :
    RunsOrTells call w (runPosted svc scheduler timeoutMs call w) := by
  unfold runPosted
  dsimp only
  split
  · exact .inl rfl
  · exact .inr ⟨rfl, ne_of_head (by simp)⟩

theorem runsOrTells_callFunctionSync (svc : Service σ π δ) (scheduler : Scheduler) (timeoutMs : ℕ) (call : FunctionCall π)
    (w : World σ π) : RunsOrTells call w (callFunctionSync svc scheduler timeoutMs call w) := by
  unfold callFunctionSync
  split
  · have hne : "Function not found" ≠ "Failed to call functions asynchronously" := by decide
    exact .inr ⟨rfl, hne⟩
  · dsimp only
    split
    · exact .inl rfl
    · split
      · exact .inr ⟨rfl, ne_of_head (by simp [errorPrefix])⟩
      · split
        · exact .inl rfl
        · exact runsOrTells_runPosted _ call w

theorem prefix_callOneByOne (timeoutMs : ℕ) (calls : List (FunctionCall π)) (w : World σ π) :
    w.ran <+: (callOneByOne svc scheduler timeoutMs calls w).2.ran := by
  induction calls generalizing w with
  | nil => exact prefix_rfl
  | cons call calls ih =>
    have hfst : w.ran <+: (callFunctionSync svc scheduler timeoutMs call w).2.ran := by
      obtain hran | ⟨hran, -⟩ := runsOrTells_callFunctionSync svc scheduler timeoutMs call w
      · rw [hran]
        exact prefix_append _ _
      · exact ⟨[], by rw [append_nil, hran]⟩
    unfold callOneByOne
    dsimp only
    split
    · exact hfst.trans (ih _)
    · exact hfst

/-- Single calls that run nothing do not fail with the text of the batch. -/
theorem callOneByOne_ne (hne : calls ≠ []) (hran : (callOneByOne svc scheduler timeoutMs calls w).2.ran = w.ran) :
    (callOneByOne svc scheduler timeoutMs calls w).1 ≠
      (batchError "Failed to call functions asynchronously" : FunctionBatchResult δ).results := by
  cases calls with
  | nil => exact absurd rfl hne
  | cons call calls =>
    intro heq
    have htext : (callFunctionSync svc scheduler timeoutMs call w).1.errorMessage = "Failed to call functions asynchronously" :=
      congrArg FunctionCallResult.errorMessage (cons.inj heq).1
    obtain hfst | ⟨-, htells⟩ := runsOrTells_callFunctionSync svc scheduler timeoutMs call w
    · have hmore : w.ran ++ [call] <+: (callOneByOne svc scheduler timeoutMs (call :: calls) w).2.ran := by
        rw [← hfst]
        unfold callOneByOne
        dsimp only
        split
        · exact prefix_callOneByOne timeoutMs calls _
        · exact prefix_rfl
      rw [hran] at hmore
      have hlen := hmore.length_le
      rw [length_append, length_singleton] at hlen
      omega
    · exact htells htext

/-! ### The whole -/

theorem all_success (runs : List (FunctionCall π × Run σ δ)) :
    (runs.all fun r => r.2.outcome.success) = (singleResults svc runs).all fun r => r.success := by
  induction runs with
  | nil => rfl
  | cons r runs ih =>
    unfold singleResults at ih ⊢
    rw [all_cons, map_cons, all_cons, ih]
    congr 1
    exact (callResult_success r.1.name r.2.outcome).symm

theorem batchResult_eq_iff (svc : Service σ π δ) (runs : List (FunctionCall π × Run σ δ)) :
    (batchResult svc runs).results = singleResults svc runs ↔ ∀ r ∈ runs, ∃ result, r.2.outcome = .returns result := by
  unfold batchResult singleResults
  rw [map_inj_left]
  exact forall₂_congr fun r _ => batchCallResult_eq_iff r.1.name r.2.outcome

/-- With all functions found and the caller waiting long enough, both sides make the same runs. -/
theorem batchIsSingles_iff (hran : w.ran = []) (hlate : w.late = []) (hfnd : requireScheduler svc calls = some require)
    (hrdy : require = true → scheduler.reaches = true ∧
      max w.now w.busyUntil + duration (runCalls svc calls w.state) < w.now + timeoutMs) :
    BatchIsSingles svc scheduler timeoutMs calls w ↔
      (∀ r ∈ runCalls svc calls w.state, ∃ result, r.2.outcome = .returns result) ∧
        (inGroup svc scheduler calls = true ∨ (runCalls svc calls w.state).length ≤ 1) := by
  obtain ⟨hbatch, hbatchRan, hbatchLate⟩ := callFunctionsSync_runs timeoutMs hfnd hrdy
  obtain ⟨hsingles, hsinglesRan⟩ := callOneByOne_runs timeoutMs _ calls w hfnd (Nat.le_refl _) hrdy
  have hown : (callFunctionsSync svc scheduler timeoutMs calls w).2.ran = (runCalls svc calls w.state).map (·.1) := by
    rw [hbatchRan, hran, nil_append]
  have hundisturbed := undisturbed_iff (inGroup svc scheduler calls) ((runCalls svc calls w.state).map (·.1))
  rw [length_map] at hundisturbed
  constructor
  · intro h
    refine ⟨(batchResult_eq_iff svc _).mp ?_, hundisturbed.mp ?_⟩
    · rw [← hbatch, h.results, hsingles]
    · exact hown ▸ h.undisturbed
  · rintro ⟨hrets, hclients⟩
    refine ⟨?_, ?_, hbatchRan.trans hsinglesRan.symm, ?_, hbatchLate.trans hlate⟩
    · rw [hbatch, hsingles]
      exact (batchResult_eq_iff svc _).mpr hrets
    · rw [hbatch, hsingles]
      exact all_success _
    · rw [hown]
      exact hundisturbed.mpr hclients

/-- **A batch does what its calls do one after another** under the condition and not otherwise. -/
theorem batch_isSingles (svc : Service σ π δ) (scheduler : Scheduler) (timeoutMs : ℕ) (calls : List (FunctionCall π))
    (state : σ) (now busyUntil : ℕ) :
    BatchIsSingles svc scheduler timeoutMs calls { state := state, now := now, busyUntil := busyUntil } ↔
      Condition svc scheduler timeoutMs calls { state := state, now := now, busyUntil := busyUntil } := by
  generalize hw : ({ state := state, now := now, busyUntil := busyUntil } : World σ π) = w
  have hran : w.ran = [] := hw ▸ rfl
  have hlate : w.late = [] := hw ▸ rfl
  cases hrequ : requireScheduler svc calls with
  | none =>
    obtain ⟨call, hmem, hschema⟩ := requireScheduler_eq_none.mp hrequ
    constructor
    · intro h
      have hbatch : callFunctionsSync svc scheduler timeoutMs calls w =
          (batchError "Failed to call functions asynchronously", w) := by
        unfold callFunctionsSync
        rw [hrequ]
      have hsame : (callOneByOne svc scheduler timeoutMs calls w).2.ran = w.ran := by rw [← h.ran, hbatch]
      refine absurd ?_ (callOneByOne_ne (ne_nil_of_mem hmem) hsame)
      rw [← h.results, hbatch]
    · intro h
      have hfnd := h.found call hmem
      rw [hschema] at hfnd
      cases hfnd
  | some require =>
    have hfnd : ∀ call ∈ calls, (svc.getSchema call.name).isSome = true := by
      intro call hmem
      by_contra hnone
      have hnot := requireScheduler_eq_none.mpr ⟨call, hmem, Option.not_isSome_iff_eq_none.mp hnone⟩
      rw [hrequ] at hnot
      cases hnot
    cases require with
    | false =>
      have hgroup : inGroup svc scheduler calls = scheduler.isCurrentThreadInGroup := by
        unfold inGroup
        rw [hrequ]
        rfl
      rw [batchIsSingles_iff hran hlate hrequ fun heq => absurd heq Bool.false_ne_true, hgroup]
      constructor
      · rintro ⟨hrets, hclients⟩
        refine ⟨hfnd, hrets, fun heq => ?_, fun _ => hclients⟩
        rw [hrequ] at heq
        cases heq
      · exact fun h => ⟨h.returns, h.direct hrequ⟩
    | true =>
      have hgroup : inGroup svc scheduler calls = true := by
        unfold inGroup
        rw [hrequ]
        rfl
      by_cases hrdy : scheduler.reaches = true ∧
          max w.now w.busyUntil + duration (runCalls svc calls w.state) < w.now + timeoutMs
      · rw [batchIsSingles_iff hran hlate hrequ fun _ => hrdy]
        constructor
        · rintro ⟨hrets, -⟩
          refine ⟨hfnd, hrets, fun _ => hrdy, fun heq => ?_⟩
          rw [hrequ] at heq
          cases heq
        · exact fun h => ⟨h.returns, .inl hgroup⟩
      · constructor
        · exact fun h => absurd h.onTime (callFunctionsSync_late hrequ hrdy)
        · exact fun h => absurd (h.posted hrequ) hrdy

/-- One function, which requires the scheduler and takes 3 ms. -/
def lamp : Service Bool Unit Unit where
  name := "Lamp"
  getSchema := fun name => if name = "Toggle" then some ⟨true, none⟩ else none
  call := fun _ state => ⟨.returns { success := true }, !state, 3⟩
  defaultTimeoutMs := 500

/-- The caller is a function of the service, run in its call group; there are four workers. -/
def nested : Scheduler := ⟨.callGroup, 4, 0, 0, Nat.le_refl 0⟩

/-- The single call is run at once; the batch is run after its caller has given up. -/
theorem nested_runsLate : ¬ ∀ (svc : Service Bool Unit Unit) (scheduler : Scheduler) (timeoutMs : ℕ)
    (calls : List (FunctionCall Unit)) (w : World Bool Unit),
    (∀ r ∈ runCalls svc calls w.state, r.2.duration < timeoutMs) → BatchIsSingles svc scheduler timeoutMs calls w := by
  intro hall
  have hshort : ∀ r ∈ runCalls lamp [⟨"Toggle", ()⟩] false, r.2.duration < 500 := by
    intro r hr
    rw [mem_singleton.mp hr]
    decide
  have honTime := (hall lamp nested 500 [⟨"Toggle", ()⟩] ⟨false, 0, 0, [], []⟩ hshort).onTime
  exact absurd honTime (cons_ne_nil _ _)

end Brookesia.ServiceManager.Sync

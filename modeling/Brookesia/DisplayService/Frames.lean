import Brookesia.DisplayService.Service

/-! # Frames

A stored frame is in one place: it is the pending frame of an output, a render task or a call has it, or its callback
has been made (`places`). No step loses or doubles one (`Kept` for the sections), so a callback is made once at most,
and once when nothing is under way and no frame is pending. That no pending frame waits for ever is about the flags:
`render_scheduled` is set where there is a render task, except where `on_stop` cancels the task of an output
whose frame is gone already. -/

namespace Brookesia.DisplayService

open Transition List Option

def OutputContext.pendingIds (output : OutputContext) : List FrameId :=
  output.pendingFrame.toList.map AsyncFrame.frameId

def Work.frameIds : Work → List FrameId
  | .completeAsyncFrame frame _ => [frame.frameId]
  | _ => []

def Phase.frameIds : Phase → List FrameId
  | .drawing frame => [frame.frameId]
  | .drawn frame _ => [frame.frameId]
  | .completing frame _ => [frame.frameId]
  | _ => []

/-- The frame that `inflight_frame_id` may name. -/
def Phase.inflight : Phase → Option FrameId
  | .drawing frame => some frame.frameId
  | .drawn frame _ => some frame.frameId
  | _ => none

namespace State

variable (s : State)

def places : List FrameId :=
  s.display.outputs.flatMap OutputContext.pendingIds ++ s.tasks.flatMap (·.phase.frameIds) ++
    s.calls.flatten.flatMap Work.frameIds ++ s.completed.map Prod.fst

def HasTask (id : OutputId) : Prop :=
  ∃ task ∈ s.tasks, task.output = id

def Idle : Prop :=
  s.tasks = [] ∧ ∀ call ∈ s.calls, call = []

/-- Callbacks are made once at most, for stored frames, and for every queued one when nothing is under way; and, but
within `on_stop`, a pending frame has the flag and the flag has a task. -/
def Completes : Prop :=
  (s.completed.map Prod.fst).Nodup ∧
  (∀ id ∈ s.completed.map Prod.fst, id ∈ s.stored) ∧
  (s.service ≠ .stopping → (∀ output ∈ s.display.outputs,
      (output.pendingFrame.isSome → output.renderScheduled = true ∧ s.HasTask output.id) ∧
      (output.renderScheduled = true → s.HasTask output.id)) ∧
    (s.Idle → ∀ id ∈ s.queued, id ∈ s.completed.map Prod.fst))

end State

/-- `on_stop` cancels no render task whose flag it leaves set: where a flag is set when it drops the frames, the frame
is there to drop and no other is being drawn, or a task for the output is still running or has been posted since. -/
def LeavesNoFlag (s : State) : Label → Prop
  | .dropFrames => ∀ output ∈ s.display.outputs, output.renderScheduled = true →
      output.pendingFrame.isSome ∧ output.inflightFrameId = 0 ∨ s.HasTask output.id
  | _ => True

variable {s s' : State} {d : Display} {outcome : Display × List Work} {output old : OutputContext} {id : ℕ}

/-! ### Sections -/

theorem frameIds_completeAll (frames : List AsyncFrame) (result : PresentResult) :
    (completeAll frames result).flatMap Work.frameIds = frames.map AsyncFrame.frameId := by
  unfold completeAll
  rw [flatMap_map]
  exact map_eq_flatMap.symm

theorem dropPendingOf_frames (output : OutputContext) (source : SourceId) (id : FrameId) :
    (output.dropPendingOf source).pendingIds.count id + ((output.pendingOf source).map AsyncFrame.frameId).count id =
      output.pendingIds.count id := by
  unfold OutputContext.pendingIds OutputContext.dropPendingOf OutputContext.pendingOf
  cases output.pendingFrame with
  | none => rfl
  | some frame =>
    by_cases hsrc : frame.sourceId = source
    · simp [Option.filter, hsrc]
    · simp [Option.filter, hsrc]

/-- The output `old` after a call: its flag stays, and so may its frame. -/
structure Less (output old : OutputContext) : Prop where
  id : output.id = old.id
  scheduled : output.renderScheduled = old.renderScheduled
  inflight : output.inflightFrameId = old.inflightFrameId
  pending : output.pendingFrame.isSome → old.pendingFrame.isSome

theorem Less.refl (output : OutputContext) : Less output output :=
  ⟨rfl, rfl, rfl, fun h => h⟩

theorem Less.clearActive (output : OutputContext) (source : SourceId) : Less (output.clearActive source) output :=
  ⟨rfl, rfl, rfl, fun h => h⟩

theorem Less.dropPendingOf (h : Less output old) (source : SourceId) : Less (output.dropPendingOf source) old := by
  refine ⟨h.id, h.scheduled, h.inflight, fun hsome => h.pending ?_⟩
  obtain ⟨frame, hfr⟩ := isSome_iff_exists.mp hsome
  exact isSome_iff_exists.mpr ⟨frame, (filter_eq_some_iff.mp hfr).1⟩

theorem Less.activate (output : OutputContext) (next : SourceId) : Less (output.activate next) output := by
  have hact : Less { output with activeSourceId := next } output := ⟨rfl, rfl, rfl, fun h => h⟩
  unfold OutputContext.activate
  split
  · exact hact.dropPendingOf _
  · exact hact

/-- What a call other than a submission does to frames and flags. -/
structure Keeps (d : Display) (outcome : Display × List Work) : Prop where
  frameId : outcome.1.nextFrameId = d.nextFrameId
  outputs : ∀ output ∈ outcome.1.outputs, (∃ old ∈ d.outputs, Less output old) ∨
    output.renderScheduled = false ∧ output.pendingFrame = none ∧ output.inflightFrameId = 0
  frames : ∀ id, (outcome.1.outputs.flatMap OutputContext.pendingIds).count id +
    (outcome.2.flatMap Work.frameIds).count id = (d.outputs.flatMap OutputContext.pendingIds).count id

theorem Keeps.same (hframeId : outcome.1.nextFrameId = d.nextFrameId) (houts : outcome.1.outputs = d.outputs)
    (hwork : outcome.2.flatMap Work.frameIds = []) : Keeps d outcome := by
  refine ⟨hframeId, ?_, ?_⟩
  · rw [houts]
    exact fun output hout => .inl ⟨output, hout, .refl output⟩
  · intro id
    rw [houts, hwork]
    rfl

theorem Keeps.set (hd : d.WellFormed) (hold : old ∈ d.outputs) (hless : Less output old)
    (hframeId : outcome.1.nextFrameId = d.nextFrameId)
    (houts : outcome.1.outputs = replace OutputContext.id output d.outputs)
    (hfrs : ∀ id, output.pendingIds.count id + (outcome.2.flatMap Work.frameIds).count id = old.pendingIds.count id) :
    Keeps d outcome := by
  refine ⟨hframeId, ?_, ?_⟩
  · rw [houts]
    intro o ho
    rcases mem_replace ho with rfl | ⟨ho, -⟩
    · exact .inl ⟨old, hold, hless⟩
    · exact .inl ⟨o, ho, .refl o⟩
  · intro id
    have hcnt := count_flatMap_replace hd.outputIds hold hless.id.symm (p := OutputContext.pendingIds) id
    have hone := hfrs id
    rw [houts]
    omega

theorem registerOutput_keeps (d : Display) (name : String) : Keeps d (d.registerOutput name) := by
  unfold Display.registerOutput
  split
  · exact .same rfl rfl rfl
  · refine ⟨rfl, ?_, ?_⟩
    · intro o ho
      rcases mem_append.mp ho with ho | ho
      · exact .inl ⟨o, ho, .refl o⟩
      · rw [mem_singleton.mp ho]
        exact .inr ⟨rfl, rfl, rfl⟩
    · intro id
      show ((d.outputs ++ _).flatMap OutputContext.pendingIds).count id + 0 = _
      rw [flatMap_append]
      exact congrArg (List.count id) (append_nil _)

theorem unregisterOutput_keeps (hd : d.WellFormed) (id : OutputId) : Keeps d (d.unregisterOutput id) := by
  unfold Display.unregisterOutput
  split
  · exact .same rfl rfl rfl
  next output hfind =>
    split
    · obtain ⟨hmem, hid⟩ := Display.output?_mem hfind
      refine ⟨rfl, fun o ho => .inl ⟨o, (mem_filter.mp ho).1, .refl o⟩, fun frame => ?_⟩
      have hcnt := count_flatMap_filter hd.outputIds hmem hid (p := OutputContext.pendingIds) frame
      rw [flatMap_append, flatMap_append, flatMap_append, frameIds_completeAll]
      have hact : (if (d.source? output.activeSourceId).isSome then [Work.emitActiveSourceChanged output.name ""] else
          []).flatMap Work.frameIds = [] := by split <;> rfl
      have hrevoked : ((d.revokedSources output).map (.emitSourceStateChanged · output.name .revoked)).flatMap
          Work.frameIds = [] := by
        rw [flatMap_map]
        exact flatMap_eq_nil_iff.mpr fun _ _ => rfl
      rw [hact, hrevoked]
      simpa [Work.frameIds, OutputContext.pendingIds] using hcnt
    · exact .same rfl rfl rfl

theorem registerSource_keeps (d : Display) (name : String) : Keeps d (d.registerSource name) := by
  unfold Display.registerSource
  split
  · exact .same rfl rfl rfl
  · exact .same rfl rfl rfl

theorem unregisterSource_keeps (d : Display) (id : SourceId) : Keeps d (d.unregisterSource id) := by
  unfold Display.unregisterSource
  split
  · exact .same rfl rfl rfl
  next source hfind =>
    refine ⟨rfl, ?_, fun frame => ?_⟩
    · intro o ho
      obtain ⟨old, hold, rfl⟩ := List.mem_map.mp ho
      exact .inl ⟨old, hold, (Less.clearActive old id).dropPendingOf id⟩
    · have hcnt := @count_flatMap_map _ _ d.outputs _ (fun o => (o.clearActive id).dropPendingOf id)
        OutputContext.pendingIds (fun o => (o.pendingOf id).map AsyncFrame.frameId) frame
        fun o _ => dropPendingOf_frames (o.clearActive id) id frame
      rw [flatMap_append, flatMap_append, frameIds_completeAll, map_flatMap]
      have hclr : ∀ names : List String, (names.flatMap fun name =>
          [Work.emitActiveSourceChanged name "", .emitSourceStateChanged source.name name .revoked]).flatMap
            Work.frameIds = [] := by
        intro names
        rw [flatMap_assoc]
        exact flatMap_eq_nil_iff.mpr fun _ _ => rfl
      rw [hclr]
      exact hcnt

theorem requestOutput_keeps (d : Display) (id : SourceId) (name : String) : Keeps d (d.requestOutput id name) := by
  unfold Display.requestOutput
  split
  · exact .same rfl rfl rfl
  · exact .same rfl rfl rfl

theorem releaseOutput_keeps (hd : d.WellFormed) (id : SourceId) (name : String) : Keeps d (d.releaseOutput id name) := by
  unfold Display.releaseOutput
  split
  next source output hsrc hout =>
    refine .set hd (Display.findOutput_mem hout) ((Less.clearActive output id).dropPendingOf id) rfl rfl fun frame => ?_
    have hact : (if output.activeSourceId = id then [Work.emitActiveSourceChanged output.name ""] else []).flatMap
        Work.frameIds = [] := by split <;> rfl
    rw [flatMap_append, flatMap_append, frameIds_completeAll, hact]
    exact dropPendingOf_frames (output.clearActive id) id frame
  · exact .same rfl rfl rfl

theorem activate_keeps (hd : d.WellFormed) (hout : output ∈ d.outputs) (previous next : Option SourceContext) :
    Keeps d (d.activate output previous next) := by
  have hstates : ∀ (sources : Option SourceContext) (state : SourceState),
      (sources.toList.map (.emitSourceStateChanged ·.name output.name state)).flatMap Work.frameIds = [] := by
    intro sources state
    rw [flatMap_map]
    exact flatMap_eq_nil_iff.mpr fun _ _ => rfl
  refine .set hd hout (Less.activate output _) (by cases next <;> rfl) (d.activate_outputs output previous next) fun frame => ?_
  unfold Display.activate OutputContext.activate
  dsimp only
  split
  · simp only [flatMap_append, hstates, frameIds_completeAll, nil_append]
    exact dropPendingOf_frames _ _ frame
  · simp only [flatMap_append, hstates, nil_append]
    rfl

theorem setActiveSource_keeps (hd : d.WellFormed) (outputName sourceName : String) :
    Keeps d (d.setActiveSource outputName sourceName) := by
  unfold Display.setActiveSource
  split
  · exact .same rfl rfl rfl
  next output hout =>
    have hmem := Display.findOutput_mem hout
    dsimp only
    split
    · exact activate_keeps hd hmem _ none
    · split
      · exact .same rfl rfl rfl
      next next _ => exact activate_keeps hd hmem _ (some next)

/-! ### The invariant -/

/-- An output and its tasks. -/
structure OutputOk (output : OutputContext) (tasks : List RenderTask) (service : ServiceState) : Prop where
  scheduled : output.pendingFrame.isSome → output.renderScheduled = true
  task : service ≠ .stopping → output.renderScheduled = true → ∃ task ∈ tasks, task.output = output.id
  inflight : output.inflightFrameId ≠ 0 →
    ∃ task ∈ tasks, task.output = output.id ∧ task.phase.inflight = some output.inflightFrameId

structure Inv (s : State) : Prop where
  wellFormed : s.display.WellFormed
  frameIdNew : s.display.nextFrameId ≠ 0
  output : ∀ output ∈ s.display.outputs, OutputOk output s.tasks s.service
  places : ∀ id, s.places.count id = s.stored.count id
  stored : s.stored.Nodup
  storedIds : ∀ id ∈ s.stored, id ≠ 0 ∧ id < s.display.nextFrameId
  queued : ∀ id ∈ s.queued, id ∈ s.stored

theorem Inv.completes (h : Inv s) : s.Completes := by
  have hcnt : ∀ id, (s.completed.map Prod.fst).count id ≤ s.stored.count id := by
    intro id
    rw [← h.places id]
    unfold State.places
    rw [count_append]
    omega
  have hone := nodup_iff_count_le_one.mp h.stored
  refine ⟨nodup_iff_count_le_one.mpr fun id => (hcnt id).trans (hone id), fun id hid => ?_, fun hserv => ⟨?_, ?_⟩⟩
  · exact count_pos_iff.mp ((count_pos_iff.mpr hid).trans_le (hcnt id))
  · intro output hout
    obtain ⟨hsched, htask, -⟩ := h.output output hout
    exact ⟨fun hpend => ⟨hsched hpend, htask hserv (hsched hpend)⟩, htask hserv⟩
  · intro hidle id hid
    obtain ⟨htks, hcs⟩ := hidle
    have hpend : s.display.outputs.flatMap OutputContext.pendingIds = [] := by
      refine flatMap_eq_nil_iff.mpr fun output hout => ?_
      obtain ⟨hsched, htask, -⟩ := h.output output hout
      have hnone : output.pendingFrame = none := by
        by_contra hsome
        obtain ⟨task, hmem, -⟩ := htask hserv (hsched (isSome_iff_ne_none.mpr hsome))
        rw [htks] at hmem
        cases hmem
      unfold OutputContext.pendingIds
      rw [hnone]
      rfl
    have hwork : s.calls.flatten = [] := flatten_eq_nil_iff.mpr hcs
    have hpls := h.places id
    unfold State.places at hpls
    rw [hpend, htks, hwork] at hpls
    refine count_pos_iff.mp ?_
    rw [show (s.completed.map Prod.fst).count id = s.stored.count id from hpls]
    exact count_pos_iff.mpr (h.queued id hid)

/-! ### Calls -/

theorem count_places (s : State) (id : FrameId) :
    s.places.count id = (s.display.outputs.flatMap OutputContext.pendingIds).count id +
      (s.tasks.flatMap (·.phase.frameIds)).count id + (s.calls.flatten.flatMap Work.frameIds).count id +
      (s.completed.map Prod.fst).count id := by
  unfold State.places
  rw [count_append, count_append, count_append]

theorem count_calls (calls : List (List Work)) (call : List Work) (id : FrameId) :
    ((calls ++ [call]).flatten.flatMap Work.frameIds).count id =
      (calls.flatten.flatMap Work.frameIds).count id + (call.flatMap Work.frameIds).count id := by
  rw [flatten_append, flatten_singleton, flatMap_append, count_append]

theorem OutputOk.less {tasks : List RenderTask} {service : ServiceState} (h : OutputOk old tasks service)
    (hless : Less output old) : OutputOk output tasks service := by
  obtain ⟨hid, hsched, hinf, hpend⟩ := hless
  refine ⟨?_, ?_, ?_⟩
  · rw [hsched]
    exact fun hsome => h.scheduled (hpend hsome)
  · rw [hsched, hid]
    exact h.task
  · rw [hinf, hid]
    exact h.inflight

theorem OutputOk.quiet {tasks : List RenderTask} {service : ServiceState} (hsched : output.renderScheduled = false)
    (hpend : output.pendingFrame = none) (hinf : output.inflightFrameId = 0) : OutputOk output tasks service := by
  refine ⟨?_, ?_, ?_⟩
  · rw [hpend]
    exact fun hsome => by cases hsome
  · rw [hsched]
    exact fun _ htrue => by cases htrue
  · exact fun hne => absurd hinf hne

theorem Inv.call (h : Inv s) (hkeeps : Keeps s.display outcome) (hwell : outcome.1.WellFormed) : Inv (s.call outcome) := by
  refine ⟨hwell, ?_, ?_, ?_, h.stored, ?_, h.queued⟩
  · show outcome.1.nextFrameId ≠ 0
    rw [hkeeps.frameId]
    exact h.frameIdNew
  · intro output hout
    rcases hkeeps.outputs output hout with ⟨old, hold, hless⟩ | ⟨hsched, hpend, hinf⟩
    · exact (h.output old hold).less hless
    · exact .quiet hsched hpend hinf
  · intro id
    have hpls := h.places id
    have hfrs := hkeeps.frames id
    have hcs := count_calls s.calls outcome.2 id
    rw [count_places] at hpls ⊢
    show (outcome.1.outputs.flatMap OutputContext.pendingIds).count id + (s.tasks.flatMap (·.phase.frameIds)).count id +
      ((s.calls ++ [outcome.2]).flatten.flatMap Work.frameIds).count id + (s.completed.map Prod.fst).count id =
        s.stored.count id
    omega
  · show ∀ id ∈ s.stored, id ≠ 0 ∧ id < outcome.1.nextFrameId
    rw [hkeeps.frameId]
    exact h.storedIds

theorem submit_rejected {state : PresentSubmitState} (hstate : state ≠ .queued) :
    s.submit { display := s.display, state := state } = s.call (s.display, []) := by
  unfold State.submit State.call
  simp [hstate]

theorem OutputOk.tasks {tasks more : List RenderTask} {service : ServiceState} (h : OutputOk output tasks service)
    (hsub : tasks ⊆ more) : OutputOk output more service := by
  refine ⟨h.scheduled, fun hserv hsched => ?_, fun hne => ?_⟩
  · obtain ⟨task, hmem, hid⟩ := h.task hserv hsched
    exact ⟨task, hsub hmem, hid⟩
  · obtain ⟨task, hmem, hid⟩ := h.inflight hne
    exact ⟨task, hsub hmem, hid⟩

theorem Inv.store (h : Inv s) (submission : Submission) (hold : old ∈ s.display.outputs) (hid : output.id = old.id)
    (hname : output.name = old.name) (hact : output.activeSourceId = old.activeSourceId)
    (hdisp : submission.display = { s.display with nextFrameId := s.display.nextFrameId + 1 }.setOutput output)
    (hfr : submission.frame.toList.map AsyncFrame.frameId = [s.display.nextFrameId])
    (hok : OutputOk output (s.submit submission).tasks s.service)
    (hfrs : ∀ id, output.pendingIds.count id + (submission.work.flatMap Work.frameIds).count id =
      old.pendingIds.count id + [s.display.nextFrameId].count id) : Inv (s.submit submission) := by
  have hnew : s.display.nextFrameId ∉ s.stored := fun hmem => Nat.lt_irrefl _ (h.storedIds _ hmem).2
  have hsto : (s.submit submission).stored = s.stored ++ [s.display.nextFrameId] := by
    show s.stored ++ _ = _
    rw [hfr]
  refine ⟨?_, ?_, ?_, ?_, ?_, ?_, ?_⟩
  · show submission.display.WellFormed
    rw [hdisp]
    exact h.wellFormed.store hold hid hname hact
  · show submission.display.nextFrameId ≠ 0
    rw [hdisp]
    exact Nat.succ_ne_zero _
  · show ∀ output ∈ submission.display.outputs, _
    rw [hdisp]
    intro o ho
    rcases mem_replace ho with rfl | ⟨ho, -⟩
    · exact hok
    · exact (h.output o ho).tasks (subset_append_left _ _)
  · intro id
    have hpls := h.places id
    have hone := hfrs id
    have hcs := count_calls s.calls submission.work id
    have hcnt := count_flatMap_replace h.wellFormed.outputIds hold hid.symm (p := OutputContext.pendingIds) id
    have hpost : ((submission.posted.toList.map fun output => ({ output := output } : RenderTask)).flatMap
        (·.phase.frameIds)).count id = 0 := by
      rw [flatMap_map]
      cases submission.posted <;> rfl
    rw [hsto, count_places, count_append]
    rw [count_places] at hpls
    show (submission.display.outputs.flatMap OutputContext.pendingIds).count id +
      ((s.tasks ++ submission.posted.toList.map fun output => ({ output := output } : RenderTask)).flatMap
        (·.phase.frameIds)).count id +
      ((s.calls ++ [submission.work]).flatten.flatMap Work.frameIds).count id + (s.completed.map Prod.fst).count id = _
    rw [hdisp, flatMap_append, count_append, hpost]
    show ((replace OutputContext.id output s.display.outputs).flatMap OutputContext.pendingIds).count id + _ + _ + _ = _
    omega
  · rw [hsto]
    exact nodup_append.mpr ⟨h.stored, nodup_singleton _, fun id hid id' hid' heq =>
      hnew (by rw [← mem_singleton.mp hid', ← heq]; exact hid)⟩
  · rw [hsto]
    show ∀ id ∈ s.stored ++ [s.display.nextFrameId], id ≠ 0 ∧ id < submission.display.nextFrameId
    rw [hdisp]
    intro id hid
    rcases mem_append.mp hid with hid | hid
    · exact ⟨(h.storedIds id hid).1, (h.storedIds id hid).2.trans (Nat.lt_succ_self _)⟩
    · rw [mem_singleton.mp hid]
      exact ⟨h.frameIdNew, Nat.lt_succ_self _⟩
  · rw [hsto]
    show ∀ id ∈ (if submission.state = .queued then _ else s.queued), _
    rw [hfr]
    intro id hid
    split at hid
    · rcases mem_append.mp hid with hid | hid
      · exact mem_append_left _ (h.queued id hid)
      · exact mem_append_right _ hid
    · exact mem_append_left _ (h.queued id hid)

theorem Inv.presentFrameAsync (h : Inv s) (id : SourceId) (name : String) (valid posts : Bool) :
    Inv (s.submit (s.display.presentFrameAsync id name valid posts)) := by
  have hrej : ∀ state : PresentSubmitState, state ≠ .queued →
      Inv (s.submit { display := s.display, state := state }) := by
    intro state hstate
    rw [submit_rejected hstate]
    exact h.call (.same rfl rfl rfl) h.wellFormed
  unfold Display.presentFrameAsync
  split
  next source old hsrc hold =>
    have hmem := Display.findOutput_mem hold
    have hok := h.output old hmem
    dsimp only
    split
    · exact hrej _ (by decide)
    · split
      · exact hrej _ (by decide)
      · split
        next hsched =>
          refine @Inv.store s { old with pendingFrame := some _ } old h _ hmem rfl rfl rfl rfl rfl ?_ fun frame => ?_
          · have hold := hok.tasks (subset_append_left s.tasks [])
            exact ⟨fun _ => hsched, hold.task, hold.inflight⟩
          · rw [frameIds_completeAll]
            exact Nat.add_comm _ _
        next hsched =>
          split
          · refine @Inv.store s { old with pendingFrame := some _, renderScheduled := true } old h _ hmem rfl rfl rfl rfl
              rfl ?_ fun frame => ?_
            · refine ⟨fun _ => rfl, fun _ _ => ?_, (hok.tasks (subset_append_left s.tasks _)).inflight⟩
              exact ⟨{ output := old.id }, mem_append_right _ (mem_singleton_self _), rfl⟩
            · rw [frameIds_completeAll]
              exact Nat.add_comm _ _
          · refine @Inv.store s { old with pendingFrame := none } old h _ hmem rfl rfl rfl rfl rfl ?_ fun frame => ?_
            · have hold := hok.tasks (subset_append_left s.tasks [])
              exact ⟨(fun hsome => by cases hsome), hold.task, hold.inflight⟩
            · rw [flatMap_append, frameIds_completeAll, frameIds_completeAll, count_append]
              show 0 + (old.pendingIds.count frame + _) = _
              rw [Nat.zero_add]
              rfl
  · exact hrej _ (by decide)

/-! ### The render task -/

theorem Inv.advance (h : Inv s) (hwell : s'.display.WellFormed)
    (hframeId : s'.display.nextFrameId = s.display.nextFrameId)
    (hout : ∀ output ∈ s'.display.outputs, OutputOk output s'.tasks s'.service)
    (hpls : ∀ id, s'.places.count id = s.places.count id) (hsto : s'.stored = s.stored)
    (hqd : s'.queued = s.queued) : Inv s' := by
  refine ⟨hwell, ?_, hout, ?_, ?_, ?_, ?_⟩
  · rw [hframeId]
    exact h.frameIdNew
  · intro id
    rw [hpls, hsto]
    exact h.places id
  · rw [hsto]
    exact h.stored
  · rw [hsto, hframeId]
    exact h.storedIds
  · rw [hsto, hqd]
    exact h.queued

theorem count_completed (s : State) (frame : AsyncFrame) (result : PresentResult) (id : FrameId) :
    (s.completeAsyncFrame frame result).places.count id = s.places.count id + [frame.frameId].count id := by
  have happend : (s.completeAsyncFrame frame result).places = s.places ++ [frame.frameId] := by
    unfold State.places State.completeAsyncFrame
    rw [map_append, ← append_assoc]
    rfl
  rw [happend, count_append]

theorem Inv.work {k : ℕ} {work : Work} {calls : List (List Work)} (h : Inv s)
    (hk : takeHead s.calls k = some (work, calls)) : Inv ({ s with calls := calls }.doWork work) := by
  obtain ⟨after, hbef, hafter⟩ := takeHead_flatten hk
  have hcnt : ∀ id, (s.calls.flatten.flatMap Work.frameIds).count id =
      (calls.flatten.flatMap Work.frameIds).count id + work.frameIds.count id := by
    intro id
    rw [hbef, hafter, flatMap_append, flatMap_append, flatMap_cons, count_append, count_append, count_append]
    omega
  have hevent : work.frameIds = [] → ∀ listener, Inv { s with calls := calls, listener := listener } := by
    intro hnone listener
    refine h.advance h.wellFormed rfl h.output (fun id => ?_) rfl rfl
    have hone := hcnt id
    rw [hnone] at hone
    rw [count_places, count_places, hone]
    rfl
  cases work with
  | completeAsyncFrame frame result =>
    refine h.advance h.wellFormed rfl h.output (fun id => ?_) rfl rfl
    have hone := hcnt id
    have hcompleted := count_completed { s with calls := calls } frame result id
    have hrest := count_places { s with calls := calls } id
    have hall := count_places s id
    rw [hone] at hall
    refine hcompleted.trans ?_
    rw [hrest, hall]
    simp only [Work.frameIds]
    omega
  | emitActiveSourceChanged output source => exact hevent rfl _
  | emitSourceStateChanged source output state => exact hevent rfl _
  | emitOutputRegistered output => exact hevent rfl _
  | emitOutputUnregistered output => exact hevent rfl _

/-- The output of a running task is still there, or no output has its id. -/
theorem output?_other (hd : d.WellFormed) (hnone : d.output? id = none) (hout : output ∈ d.outputs) : id ≠ output.id := by
  rintro rfl
  rw [hd.output? hout] at hnone
  cases hnone

theorem count_setOutput (hd : d.WellFormed) (hfind : d.output? id = some old) (output : OutputContext)
    (hid : output.id = old.id) (frame : FrameId) :
    ((d.setOutput output).outputs.flatMap OutputContext.pendingIds).count frame + old.pendingIds.count frame =
      (d.outputs.flatMap OutputContext.pendingIds).count frame + output.pendingIds.count frame :=
  count_flatMap_replace hd.outputIds (Display.output?_mem hfind).1 hid.symm frame

section tasks

variable {k : ℕ} {task new : RenderTask} (hk : s.tasks[k]? = some task)
include hk

/-- The `k`-th task goes on: what it holds goes to where it goes to. -/
theorem count_tasks_set (id : FrameId) :
    ((s.tasks.set k new).flatMap (·.phase.frameIds)).count id + task.phase.frameIds.count id =
      (s.tasks.flatMap (·.phase.frameIds)).count id + new.phase.frameIds.count id := by
  obtain ⟨before, after, hsplit, -, hset⟩ := split_at hk
  rw [hset, hsplit]
  simp only [flatMap_append, flatMap_cons, count_append]
  omega

theorem count_tasks_erase (id : FrameId) :
    ((s.tasks.eraseIdx k).flatMap (·.phase.frameIds)).count id + task.phase.frameIds.count id =
      (s.tasks.flatMap (·.phase.frameIds)).count id := by
  obtain ⟨before, after, hsplit, herase, -⟩ := split_at hk
  rw [herase, hsplit]
  simp only [flatMap_append, flatMap_cons, count_append]
  omega

theorem mem_tasks_set {other : RenderTask} (hoth : other ∈ s.tasks) : other = task ∨ other ∈ s.tasks.set k new := by
  obtain ⟨before, after, hsplit, -, hset⟩ := split_at hk
  rw [hsplit] at hoth
  rw [hset]
  rcases mem_append.mp hoth with hoth | hoth
  · exact .inr (mem_append_left _ hoth)
  · rcases mem_cons.mp hoth with rfl | hoth
    · exact .inl rfl
    · exact .inr (mem_append_right _ (mem_cons_of_mem _ hoth))

theorem mem_tasks_erase {other : RenderTask} (hoth : other ∈ s.tasks) : other = task ∨ other ∈ s.tasks.eraseIdx k := by
  obtain ⟨before, after, hsplit, herase, -⟩ := split_at hk
  rw [hsplit] at hoth
  rw [herase]
  rcases mem_append.mp hoth with hoth | hoth
  · exact .inr (mem_append_left _ hoth)
  · rcases mem_cons.mp hoth with rfl | hoth
    · exact .inl rfl
    · exact .inr (mem_append_right _ hoth)

theorem new_mem_tasks : new ∈ s.tasks.set k new := by
  obtain ⟨before, after, -, -, hset⟩ := split_at hk
  rw [hset]
  exact mem_append_right _ mem_cons_self

theorem OutputOk.set {service : ServiceState} (h : OutputOk output s.tasks service) (hout : new.output = task.output)
    (hinf : task.output = output.id → output.inflightFrameId ≠ 0 →
      task.phase.inflight = some output.inflightFrameId → new.phase.inflight = some output.inflightFrameId) :
    OutputOk output (s.tasks.set k new) service := by
  refine ⟨h.scheduled, fun hserv hsched => ?_, fun hne => ?_⟩
  · obtain ⟨other, hmem, hid⟩ := h.task hserv hsched
    rcases mem_tasks_set hk hmem with rfl | hmem
    · exact ⟨new, new_mem_tasks hk, hout.trans hid⟩
    · exact ⟨other, hmem, hid⟩
  · obtain ⟨other, hmem, hid, hph⟩ := h.inflight hne
    rcases mem_tasks_set hk hmem with rfl | hmem
    · exact ⟨new, new_mem_tasks hk, hout.trans hid, hinf hid hne hph⟩
    · exact ⟨other, hmem, hid, hph⟩

/-- A task that holds nothing ends: it was of another output, or the flag of its output is cleared. -/
theorem OutputOk.erase {service : ServiceState} (h : OutputOk output s.tasks service) (hph : task.phase.inflight = none)
    (hoth : task.output = output.id → output.renderScheduled = false) :
    OutputOk output (s.tasks.eraseIdx k) service := by
  refine ⟨h.scheduled, fun hserv hsched => ?_, fun hne => ?_⟩
  · obtain ⟨other, hmem, hid⟩ := h.task hserv hsched
    rcases mem_tasks_erase hk hmem with rfl | hmem
    · rw [hoth hid] at hsched
      cases hsched
    · exact ⟨other, hmem, hid⟩
  · obtain ⟨other, hmem, hid, hsome⟩ := h.inflight hne
    rcases mem_tasks_erase hk hmem with rfl | hmem
    · rw [hph] at hsome
      cases hsome
    · exact ⟨other, hmem, hid, hsome⟩

theorem Inv.setPhase (h : Inv s) (phase : Phase) (hfrs : phase.frameIds = task.phase.frameIds)
    (hinf : phase.inflight = task.phase.inflight) : Inv (s.setPhase k task phase) := by
  refine h.advance h.wellFormed rfl (fun output hout => ?_) (fun id => ?_) rfl rfl
  · exact (h.output output hout).set hk rfl fun _ _ hsome => hinf.trans hsome
  · have hcnt := @count_tasks_set _ _ _ { task with phase := phase } hk id
    rw [count_places, count_places]
    show _ + ((s.tasks.set k { task with phase := phase }).flatMap (·.phase.frameIds)).count id + _ + _ = _
    rw [show ({ task with phase := phase } : RenderTask).phase.frameIds = task.phase.frameIds from hfrs] at hcnt
    show (s.display.outputs.flatMap OutputContext.pendingIds).count id + _ + (s.calls.flatten.flatMap Work.frameIds).count id +
      (s.completed.map Prod.fst).count id = _
    omega

theorem Inv.takeFrame (h : Inv s) (hph : task.phase = .looking) : Inv (s.takeFrame k task) := by
  have hnone : task.phase.inflight = none := by
    rw [hph]
    rfl
  have hfrs : task.phase.frameIds = [] := by
    rw [hph]
    rfl
  have hers : ∀ id, ((s.tasks.eraseIdx k).flatMap (·.phase.frameIds)).count id =
      (s.tasks.flatMap (·.phase.frameIds)).count id := by
    intro id
    have hcnt := count_tasks_erase hk id
    rw [hfrs] at hcnt
    exact hcnt
  unfold State.takeFrame
  split
  next hfind =>
    refine h.advance h.wellFormed rfl (fun output hout => ?_) (fun id => ?_) rfl rfl
    · exact (h.output output hout).erase hk hnone fun heq => absurd heq (output?_other h.wellFormed hfind hout)
    · rw [count_places, count_places, ← hers]
  next old hfind =>
    obtain ⟨hold, hid⟩ := Display.output?_mem hfind
    split
    next hpend =>
      refine h.advance (h.wellFormed.setOutput hold rfl rfl (h.wellFormed.active old hold)) rfl (fun output hout => ?_)
        (fun id => ?_) rfl rfl
      · rcases mem_replace hout with rfl | ⟨hout, hne⟩
        · have hok := h.output old hold
          refine OutputOk.erase hk ⟨?_, (fun _ hsched => by cases hsched), hok.inflight⟩ hnone fun _ => rfl
          intro hsome
          rw [show old.pendingFrame = none from hpend] at hsome
          cases hsome
        · exact (h.output output hout).erase hk hnone fun heq => absurd (heq.symm.trans hid.symm) hne
      · have hcnt := count_setOutput h.wellFormed hfind { old with renderScheduled := false } rfl id
        have hsame : ({ old with renderScheduled := false } : OutputContext).pendingIds = old.pendingIds := rfl
        rw [hsame] at hcnt
        rw [count_places, count_places, hers, Nat.add_right_cancel hcnt]
    next frame hpend =>
      refine h.advance (h.wellFormed.setOutput hold rfl rfl (h.wellFormed.active old hold)) rfl (fun output hout => ?_)
        (fun id => ?_) rfl rfl
      · rcases mem_replace hout with rfl | ⟨hout, hne⟩
        · have hok := h.output old hold
          refine ⟨(fun hsome => by cases hsome), ?_, fun _ => ?_⟩
          · have hset : OutputOk old (s.tasks.set k { task with phase := .drawing frame }) s.service := by
              refine hok.set hk rfl fun _ _ hsome => ?_
              rw [hnone] at hsome
              cases hsome
            exact hset.task
          · exact ⟨{ task with phase := .drawing frame }, new_mem_tasks hk, hid.symm, rfl⟩
        · refine (h.output output hout).set hk rfl fun _ _ hsome => ?_
          rw [hnone] at hsome
          cases hsome
      · have hcnt := count_setOutput h.wellFormed hfind
          { old with pendingFrame := none, inflightFrameId := frame.frameId } rfl id
        have htks := @count_tasks_set _ _ _ { task with phase := .drawing frame } hk id
        have hthere : old.pendingIds = [frame.frameId] := by
          unfold OutputContext.pendingIds
          rw [hpend]
          rfl
        have hgone : ({ old with pendingFrame := none, inflightFrameId := frame.frameId } : OutputContext).pendingIds = [] :=
          rfl
        have hheld : ({ task with phase := .drawing frame } : RenderTask).phase.frameIds = [frame.frameId] := rfl
        rw [hfrs, hheld, count_nil] at htks
        rw [hthere, hgone, count_nil] at hcnt
        have hpls := count_places s id
        rw [count_places]
        dsimp only [State.setPhase]
        omega

theorem Inv.clear {frame : AsyncFrame} {result : PresentResult} (h : Inv s) (hph : task.phase = .drawn frame result) :
    Inv ({ s with display := s.clearInflight task.output frame }.setPhase k task (.completing frame result)) := by
  have hinf : task.phase.inflight = some frame.frameId := by
    rw [hph]
    rfl
  have hpls : ∀ display : Display, (∀ id, (display.outputs.flatMap OutputContext.pendingIds).count id =
      (s.display.outputs.flatMap OutputContext.pendingIds).count id) → ∀ id,
      ({ s with display := display }.setPhase k task (.completing frame result)).places.count id = s.places.count id := by
    intro display hpend id
    have htks := @count_tasks_set _ _ _ { task with phase := .completing frame result } hk id
    rw [hph] at htks
    rw [count_places, count_places]
    simp only [State.setPhase, Phase.frameIds] at htks ⊢
    rw [hpend, Nat.add_right_cancel htks]
  unfold State.clearInflight
  split
  next hfind =>
    refine h.advance h.wellFormed rfl (fun output hout => ?_) (hpls _ fun _ => rfl) rfl rfl
    exact (h.output output hout).set hk rfl fun heq => absurd heq (output?_other h.wellFormed hfind hout)
  next old hfind =>
    obtain ⟨hold, hid⟩ := Display.output?_mem hfind
    split
    next hsame =>
      refine h.advance (h.wellFormed.setOutput hold rfl rfl (h.wellFormed.active old hold)) rfl (fun output hout => ?_)
        (hpls _ fun id => ?_) rfl rfl
      · rcases mem_replace hout with rfl | ⟨hout, hne⟩
        · have hok := h.output old hold
          refine OutputOk.set hk ⟨hok.scheduled, hok.task, fun hne => absurd rfl hne⟩ rfl fun _ hne => absurd rfl hne
        · exact (h.output output hout).set hk rfl fun heq => absurd (heq.symm.trans hid.symm) hne
      · exact Nat.add_right_cancel (count_setOutput h.wellFormed hfind { old with inflightFrameId := 0 } rfl id)
    next hoth =>
      refine h.advance h.wellFormed rfl (fun output hout => ?_) (hpls _ fun _ => rfl) rfl rfl
      refine (h.output output hout).set hk rfl fun heq _ hsome => ?_
      obtain rfl := eq_of_key h.wellFormed.outputIds hout hold (heq.symm.trans hid.symm)
      rw [hinf] at hsome
      exact absurd (some.inj hsome).symm hoth

theorem Inv.complete {frame : AsyncFrame} {result : PresentResult} (h : Inv s)
    (hph : task.phase = .completing frame result) :
    Inv ((s.setPhase k task .looking).completeAsyncFrame frame result) := by
  have hinf : task.phase.inflight = none := by
    rw [hph]
    rfl
  refine h.advance h.wellFormed rfl (fun output hout => ?_) (fun id => ?_) rfl rfl
  · refine (h.output output hout).set hk rfl fun _ _ hsome => ?_
    rw [hinf] at hsome
    cases hsome
  · have htks := @count_tasks_set _ _ _ { task with phase := .looking } hk id
    have hheld : task.phase.frameIds = [frame.frameId] := by
      rw [hph]
      rfl
    have hgone : ({ task with phase := .looking } : RenderTask).phase.frameIds = [] := rfl
    rw [hheld, hgone, count_nil] at htks
    have hpls := count_places s id
    rw [count_completed, count_places]
    dsimp only [State.setPhase]
    omega

end tasks

/-! ### Stop and start -/

theorem Inv.cancelTasks (h : Inv s) :
    Inv { s with service := .stopping, tasks := s.tasks.filter (·.phase != .posted) } := by
  refine h.advance h.wellFormed rfl (fun output hout => ?_) (fun id => ?_) rfl rfl
  · have hok := h.output output hout
    refine ⟨hok.scheduled, fun hserv => absurd rfl hserv, fun hne => ?_⟩
    obtain ⟨task, hmem, hid, hsome⟩ := hok.inflight hne
    refine ⟨task, mem_filter.mpr ⟨hmem, bne_iff_ne.mpr fun hpost => ?_⟩, hid, hsome⟩
    rw [hpost] at hsome
    cases hsome
  · have hfiltered : (s.tasks.filter (·.phase != .posted)).flatMap (·.phase.frameIds) =
        s.tasks.flatMap (·.phase.frameIds) := by
      induction s.tasks with
      | nil => rfl
      | cons task tasks ih =>
        by_cases hpost : task.phase = .posted
        · rw [filter_cons_of_neg (by simpa using hpost), flatMap_cons, hpost, ih]
          rfl
        · rw [filter_cons_of_pos (by simpa using hpost), flatMap_cons, flatMap_cons, ih]
    rw [count_places, count_places, hfiltered]

theorem Inv.start (h : Inv s) (hserv : s.service = .stopped) : Inv { s with service := .running } := by
  refine h.advance h.wellFormed rfl (fun output hout => ?_) (fun _ => rfl) rfl rfl
  have hok := h.output output hout
  refine ⟨hok.scheduled, fun _ => hok.task ?_, hok.inflight⟩
  rw [hserv]
  decide

theorem mem_dropPendingFrames (h : output ∈ d.dropPendingFrames.1.outputs) :
    ∃ old ∈ d.outputs, output = if old.pendingFrame.isSome then
      { old with pendingFrame := none, renderScheduled := old.renderScheduled && old.inflightFrameId != 0 } else old := by
  obtain ⟨old, hold, heq⟩ := List.mem_map.mp h
  exact ⟨old, hold, heq.symm⟩

theorem Display.WellFormed.dropPendingFrames (hd : d.WellFormed) : d.dropPendingFrames.1.WellFormed := by
  have hids : d.dropPendingFrames.1.outputs.map OutputContext.id = d.outputs.map OutputContext.id := by
    unfold Display.dropPendingFrames
    rw [List.map_map]
    refine map_congr_left fun o _ => ?_
    show OutputContext.id (if o.pendingFrame.isSome then _ else o) = o.id
    split <;> rfl
  have hnms : d.dropPendingFrames.1.outputs.map OutputContext.name = d.outputs.map OutputContext.name := by
    unfold Display.dropPendingFrames
    rw [List.map_map]
    refine map_congr_left fun o _ => ?_
    show OutputContext.name (if o.pendingFrame.isSome then _ else o) = o.name
    split <;> rfl
  refine { hd with outputIds := ?_, outputNames := ?_, outputsNew := ?_, outputsNamed := ?_, active := ?_ }
  · rw [hids]
    exact hd.outputIds
  · rw [hnms]
    exact hd.outputNames
  · intro output hout
    obtain ⟨old, hold, rfl⟩ := mem_dropPendingFrames hout
    split
    · exact hd.outputsNew old hold
    · exact hd.outputsNew old hold
  · intro output hout
    obtain ⟨old, hold, rfl⟩ := mem_dropPendingFrames hout
    split
    · exact hd.outputsNamed old hold
    · exact hd.outputsNamed old hold
  · intro output hout
    obtain ⟨old, hold, rfl⟩ := mem_dropPendingFrames hout
    split
    · exact hd.active old hold
    · exact hd.active old hold

theorem dropPendingFrames_count (d : Display) (id : FrameId) :
    (d.dropPendingFrames.1.outputs.flatMap OutputContext.pendingIds).count id +
      ((completeAll d.dropPendingFrames.2 .error).flatMap Work.frameIds).count id =
        (d.outputs.flatMap OutputContext.pendingIds).count id := by
  rw [frameIds_completeAll]
  unfold Display.dropPendingFrames
  rw [map_flatMap]
  refine count_flatMap_map fun o _ => ?_
  show (OutputContext.pendingIds (if o.pendingFrame.isSome then _ else o)).count id + o.pendingIds.count id = _
  split
  · exact Nat.zero_add _
  next hnone =>
    have hemp : o.pendingIds = [] := by
      unfold OutputContext.pendingIds
      rw [not_isSome_iff_eq_none.mp hnone]
      rfl
    rw [hemp]
    rfl

theorem Inv.dropFrames (h : Inv s) (hc : LeavesNoFlag s .dropFrames) :
    Inv { s.call (s.display.dropPendingFrames.1, completeAll s.display.dropPendingFrames.2 .error) with
      service := .stopped } := by
  refine h.advance h.wellFormed.dropPendingFrames rfl (fun output hout => ?_) (fun id => ?_) rfl rfl
  · obtain ⟨old, hold, rfl⟩ := mem_dropPendingFrames hout
    have hok := h.output old hold
    split
    · refine ⟨(fun hsome => by cases hsome), fun _ hsched => ?_, hok.inflight⟩
      have hinf : old.inflightFrameId ≠ 0 := bne_iff_ne.mp (Bool.and_eq_true_iff.mp hsched).2
      obtain ⟨task, hmem, hid, -⟩ := hok.inflight hinf
      exact ⟨task, hmem, hid⟩
    next hnone =>
      refine ⟨hok.scheduled, fun _ hsched => ?_, hok.inflight⟩
      rcases hc old hold hsched with ⟨hsome, -⟩ | htask
      · exact absurd hsome hnone
      · exact htask
  · have hcnt := dropPendingFrames_count s.display id
    have hcs := count_calls s.calls (completeAll s.display.dropPendingFrames.2 .error) id
    have hpls := count_places s id
    rw [count_places]
    dsimp only [State.call]
    omega

theorem inv_inductive : machine.Inductive LeavesNoFlag Inv where
  init s hs := by
    obtain ⟨hfresh, heq⟩ := hs
    have hidle := hfresh.idle
    rw [heq]
    refine ⟨hfresh.wellFormed, hfresh.frameIdNew, ?_, ?_, nodup_nil, (fun _ hmem => by cases hmem),
      fun _ hmem => by cases hmem⟩
    · intro output hout
      obtain ⟨-, hpend, hsched, hinf⟩ := hidle output hout
      exact .quiet hsched hpend hinf
    · intro id
      have hnone : s.display.outputs.flatMap OutputContext.pendingIds = [] := by
        refine flatMap_eq_nil_iff.mpr fun output hout => ?_
        unfold OutputContext.pendingIds
        rw [(hidle output hout).2.1]
        rfl
      rw [count_places]
      dsimp only
      rw [hnone]
      rfl
  step s label s' h hc hst := by
    have hst : step s label = some s' := hst
    have hd := h.wellFormed
    cases label with
    | registerOutput name => exact some.inj hst ▸ h.call (registerOutput_keeps _ name) (hd.registerOutput name)
    | unregisterOutput id => exact some.inj hst ▸ h.call (unregisterOutput_keeps hd id) (hd.unregisterOutput id)
    | registerSource name => exact some.inj hst ▸ h.call (registerSource_keeps _ name) (hd.registerSource name)
    | unregisterSource id => exact some.inj hst ▸ h.call (unregisterSource_keeps _ id) (hd.unregisterSource id)
    | requestOutput id name => exact some.inj hst ▸ h.call (requestOutput_keeps _ id name) (hd.requestOutput id name)
    | releaseOutput id name => exact some.inj hst ▸ h.call (releaseOutput_keeps hd id name) (hd.releaseOutput id name)
    | setActiveSource output source =>
      exact some.inj hst ▸ h.call (setActiveSource_keeps hd output source) (hd.setActiveSource output source)
    | presentFrameAsync id name valid posts => exact some.inj hst ▸ h.presentFrameAsync id name valid posts
    | work k =>
      obtain ⟨⟨work, calls⟩, hk, rfl⟩ := map_eq_some_iff.mp hst
      exact h.work hk
    | begin k =>
      have hst : s.begin k = some s' := hst
      unfold State.begin at hst
      split at hst
      next output hk =>
        cases hst
        exact h.setPhase hk .looking rfl rfl
      · cases hst
    | look k =>
      have hst : s.look k = some s' := hst
      unfold State.look at hst
      split at hst
      next output hk =>
        cases hst
        exact h.takeFrame hk rfl
      · cases hst
    | draw k result =>
      have hst : s.draw k result = some s' := hst
      unfold State.draw at hst
      split at hst
      next output frame hk =>
        cases hst
        exact h.setPhase hk (.drawn frame _) rfl rfl
      · cases hst
    | clear k =>
      have hst : s.clear k = some s' := hst
      unfold State.clear at hst
      split at hst
      next output frame result hk =>
        cases hst
        exact h.clear hk rfl
      · cases hst
    | complete k =>
      have hst : s.complete k = some s' := hst
      unfold State.complete at hst
      split at hst
      next output frame result hk =>
        cases hst
        exact h.complete hk rfl
      · cases hst
    | cancelTasks =>
      obtain ⟨-, rfl⟩ := of_guard hst
      exact h.cancelTasks
    | dropFrames =>
      obtain ⟨-, rfl⟩ := of_guard hst
      exact h.dropFrames hc
    | start =>
      obtain ⟨hserv, rfl⟩ := of_guard hst
      exact h.start hserv

theorem dropFrames_leaves (hc : ¬ LeavesNoFlag s .dropFrames) (hst : step s .dropFrames = some s') : ¬ s'.Completes := by
  obtain ⟨-, rfl⟩ := of_guard hst
  simp only [LeavesNoFlag, not_forall, not_or] at hc
  obtain ⟨output, hout, hsched, hnot, htask⟩ := hc
  intro hcompletes
  have hflags := (hcompletes.2.2 (by simp)).1
  have hmem := List.mem_map_of_mem (f := fun o : OutputContext => if o.pendingFrame.isSome then
    { o with pendingFrame := none, renderScheduled := o.renderScheduled && o.inflightFrameId != 0 } else o) hout
  have hflag := (hflags _ hmem).2
  by_cases hsome : output.pendingFrame.isSome
  · have hinf : (output.inflightFrameId != 0) = true := bne_iff_ne.mpr fun hzero => hnot ⟨hsome, hzero⟩
    rw [if_pos hsome] at hflag
    refine htask (hflag ?_)
    show (output.renderScheduled && output.inflightFrameId != 0) = true
    rw [hsched, hinf]
    rfl
  · rw [if_neg hsome] at hflag
    exact htask (hflag hsched)

/-- **Every queued frame is completed once, and every flag has its task, in a run if and only if `on_stop` leaves no flag
without its task.** -/
theorem frames_complete (labels : List Label) (s : State) (hs : machine.init s) :
    machine.Always State.Completes s labels ↔ machine.Keeps LeavesNoFlag s labels := by
  refine inv_inductive.exact (fun _ h => h.completes) ?_ labels s (inv_inductive.init s hs)
  intro s label s' _ hc hst
  have hst : step s label = some s' := hst
  cases label with
  | dropFrames => exact dropFrames_leaves hc hst
  | _ => exact absurd trivial hc

def oneSource : Display where
  outputs := [{ id := 1, name := "Output0", dynamicOutput := false }]
  sources := [{ id := 1, name := "video" }]
  nextOutputId := 2
  nextSourceId := 2

theorem oneSource_fresh : oneSource.Fresh := by
  refine ⟨⟨?_, ?_, ?_, ?_, ?_, ?_, ?_, ?_, ?_, ?_, ?_⟩, ?_, ?_⟩ <;> decide

theorem frames_complete_oneSource :
    machine.Always State.Completes { display := oneSource } [.setActiveSource "Output0" "video"] ↔
      machine.Keeps LeavesNoFlag { display := oneSource } [.setActiveSource "Output0" "video"] :=
  frames_complete _ _ ⟨oneSource_fresh, rfl⟩

/-- The frame is dropped while its task is posted, and then `on_stop` cancels the task. -/
def releasedRun : List Label :=
  [.setActiveSource "Output0" "video", .presentFrameAsync 1 "Output0" true true, .releaseOutput 1 "Output0", .cancelTasks,
    .dropFrames]

theorem frames_complete_releasedRun : ¬ machine.Always State.Completes { display := oneSource } releasedRun := by
  intro halw
  obtain ⟨s, hs, hfacts⟩ := map_eq_some_iff.mp (by decide +kernel :
    (machine.exec { display := oneSource } releasedRun).map (fun s =>
      (s.service, s.tasks, s.display.outputs.map fun output => (output.id, output.renderScheduled))) =
        some (.stopped, [], [(1, true)]))
  obtain ⟨hserv, hfacts⟩ := Prod.mk.inj hfacts
  obtain ⟨htks, houts⟩ := Prod.mk.inj hfacts
  have hcompletes := halw.exec hs
  obtain ⟨hflags, -⟩ := hcompletes.2.2 (by rw [hserv]; decide)
  have hmem : (1, true) ∈ s.display.outputs.map fun output => (output.id, output.renderScheduled) := by
    rw [houts]
    exact mem_singleton_self _
  obtain ⟨output, hout, heq⟩ := List.mem_map.mp hmem
  obtain ⟨task, htask, -⟩ := (hflags output hout).2 (Prod.mk.inj heq).2
  rw [htks] at htask
  cases htask

end Brookesia.DisplayService

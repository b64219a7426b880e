import Brookesia.DisplayService.Base

/-! # What the sections do

`WellFormed`: different ids and names, and active sources that are registered. `Keeps`: what a call other than a
submission does to the frames and to the flags of the render tasks. One lemma of each for each section. -/

namespace Brookesia.DisplayService

open Transition List

structure Display.WellFormed (d : Display) : Prop where
  outputIds : (d.outputs.map OutputContext.id).Nodup
  outputNames : (d.outputs.map OutputContext.name).Nodup
  outputsNew : ∀ output ∈ d.outputs, output.id < d.nextOutputId
  outputsNamed : ∀ output ∈ d.outputs, output.name ≠ ""
  sourceIds : (d.sources.map SourceContext.id).Nodup
  sourceNames : (d.sources.map SourceContext.name).Nodup
  sourcesNew : ∀ source ∈ d.sources, source.id < d.nextSourceId
  sourcesValid : ∀ source ∈ d.sources, source.id ≠ INVALID_SOURCE_ID
  sourcesNamed : ∀ source ∈ d.sources, source.name ≠ ""
  sourceIdNew : d.nextSourceId ≠ INVALID_SOURCE_ID
  active : ∀ output ∈ d.outputs, output.activeSourceId ≠ INVALID_SOURCE_ID →
    ∃ source ∈ d.sources, source.id = output.activeSourceId

variable {d : Display} {output : OutputContext} {source : SourceContext} {id : ℕ} {name : String}

theorem clearActive_active (h : (output.clearActive id).activeSourceId ≠ INVALID_SOURCE_ID) :
    output.activeSourceId ≠ id ∧ (output.clearActive id).activeSourceId = output.activeSourceId := by
  unfold OutputContext.clearActive at h ⊢
  dsimp only at h ⊢
  split at h
  · exact absurd rfl h
  next hne => exact ⟨hne, if_neg hne⟩

@[simp] theorem activate_id (output : OutputContext) (next : SourceId) : (output.activate next).id = output.id := by
  unfold OutputContext.activate
  split <;> rfl

@[simp] theorem activate_name (output : OutputContext) (next : SourceId) : (output.activate next).name = output.name := by
  unfold OutputContext.activate
  split <;> rfl

@[simp] theorem activate_active (output : OutputContext) (next : SourceId) :
    (output.activate next).activeSourceId = next := by
  unfold OutputContext.activate
  split <;> rfl

namespace Display

/-! ### Lookups -/

theorem output?_mem (h : d.output? id = some output) : output ∈ d.outputs ∧ output.id = id :=
  find?_key_mem h

theorem source?_mem (h : d.source? id = some source) : source ∈ d.sources ∧ source.id = id :=
  find?_key_mem h

theorem findOutput_mem (h : d.findOutput name = some output) : output ∈ d.outputs := by
  unfold findOutput at h
  split at h
  · exact mem_of_mem_head? h
  · exact (find?_key_mem h).1

theorem findSource_mem (h : d.findSource name = some source) : source ∈ d.sources ∧ source.name = name := by
  unfold findSource at h
  split at h
  · cases h
  · exact find?_key_mem h

theorem WellFormed.output? (hd : d.WellFormed) (h : output ∈ d.outputs) : d.output? output.id = some output :=
  find?_key hd.outputIds h rfl

theorem WellFormed.source? (hd : d.WellFormed) (h : source ∈ d.sources) : d.source? source.id = some source :=
  find?_key hd.sourceIds h rfl

/-! ### Well-formedness -/

theorem WellFormed.outputRegistry (hd : d.WellFormed) :
    Registry OutputContext.id OutputContext.name d.nextOutputId d.outputs :=
  ⟨hd.outputIds, hd.outputNames, hd.outputsNew, hd.outputsNamed⟩

theorem WellFormed.sourceRegistry (hd : d.WellFormed) :
    Registry SourceContext.id SourceContext.name d.nextSourceId d.sources :=
  ⟨hd.sourceIds, hd.sourceNames, hd.sourcesNew, hd.sourcesNamed⟩

theorem WellFormed.setOutput (hd : d.WellFormed) {old : OutputContext} (hold : old ∈ d.outputs) (hid : output.id = old.id)
    (hname : output.name = old.name)
    (hact : output.activeSourceId ≠ INVALID_SOURCE_ID → ∃ source ∈ d.sources, source.id = output.activeSourceId) :
    (d.setOutput output).WellFormed := by
  obtain ⟨hids, hnms, hnew, hnamed⟩ := hd.outputRegistry.replace hold hid hname
  refine { hd with outputIds := hids, outputNames := hnms, outputsNew := hnew, outputsNamed := hnamed, active := ?_ }
  intro o ho
  rcases mem_replace ho with rfl | ⟨ho, -⟩
  · exact hact
  · exact hd.active o ho

theorem WellFormed.setSource (hd : d.WellFormed) {old : SourceContext} (hold : old ∈ d.sources) (hid : source.id = old.id)
    (hname : source.name = old.name) : (d.setSource source).WellFormed := by
  obtain ⟨hids, hnms, hnew, hnamed⟩ := hd.sourceRegistry.replace hold hid hname
  refine { hd with
    sourceIds := hids, sourceNames := hnms, sourcesNew := hnew, sourcesNamed := hnamed, sourcesValid := ?_, active := ?_ }
  · intro s hs
    rcases mem_replace hs with rfl | ⟨hs, -⟩
    · exact hid ▸ hd.sourcesValid old hold
    · exact hd.sourcesValid s hs
  · intro o ho hne
    obtain ⟨s, hs, heq⟩ := hd.active o ho hne
    by_cases hkey : s.id = source.id
    · exact ⟨source, mem_replace_self hs hkey, hkey.symm.trans heq⟩
    · exact ⟨s, mem_replace_other hs hkey, heq⟩

theorem WellFormed.registerOutput (hd : d.WellFormed) (name : String) : (d.registerOutput name).1.WellFormed := by
  unfold Display.registerOutput
  split
  · exact hd
  next hnew =>
    obtain ⟨hname, hnone⟩ := not_or.mp hnew
    obtain ⟨hids, hnms, hnew, hnamed⟩ := hd.outputRegistry.append
      (x := { id := d.nextOutputId, name := name, dynamicOutput := true }) rfl hname hnone
    refine { hd with outputIds := hids, outputNames := hnms, outputsNew := hnew, outputsNamed := hnamed, active := ?_ }
    intro o ho hne
    rcases mem_append.mp ho with ho | ho
    · exact hd.active o ho hne
    · rw [mem_singleton.mp ho] at hne
      exact absurd rfl hne

theorem WellFormed.unregisterOutput (hd : d.WellFormed) (id : OutputId) : (d.unregisterOutput id).1.WellFormed := by
  unfold Display.unregisterOutput
  split
  · exact hd
  next output hfind =>
    split
    · have hsub : (d.outputs.filter (·.id != id)).Sublist d.outputs := filter_sublist
      obtain ⟨hids, hnms, hnew, hnamed⟩ := hd.outputRegistry.sublist hsub
      obtain ⟨hsourceIds, hsourceNames, hsourceNew, hsourceNamed⟩ := hd.sourceRegistry.map
        (f := fun source => { source with requestedOutputs := source.requestedOutputs.erase output.name })
        (fun _ => rfl) fun _ => rfl
      refine ⟨hids, hnms, hnew, hnamed, hsourceIds, hsourceNames, hsourceNew, ?_, hsourceNamed, hd.sourceIdNew, ?_⟩
      · exact forall_mem_map.mpr hd.sourcesValid
      · intro o ho hne
        obtain ⟨s, hs, heq⟩ := hd.active o (hsub.mem ho) hne
        exact ⟨_, mem_map_of_mem hs, heq⟩
    · exact hd

theorem WellFormed.registerSource (hd : d.WellFormed) (name : String) : (d.registerSource name).1.WellFormed := by
  unfold Display.registerSource
  split
  · exact hd
  next hnew =>
    obtain ⟨hname, hnone⟩ := not_or.mp hnew
    obtain ⟨hids, hnms, hnew, hnamed⟩ := hd.sourceRegistry.append (x := { id := d.nextSourceId, name := name }) rfl hname hnone
    refine { hd with
      sourceIds := hids, sourceNames := hnms, sourcesNew := hnew, sourcesNamed := hnamed, sourcesValid := ?_
      sourceIdNew := Nat.succ_ne_zero _, active := ?_ }
    · intro s hs
      rcases mem_append.mp hs with hs | hs
      · exact hd.sourcesValid s hs
      · rw [mem_singleton.mp hs]
        exact hd.sourceIdNew
    · intro o ho hne
      obtain ⟨s, hs, heq⟩ := hd.active o ho hne
      exact ⟨s, mem_append_left _ hs, heq⟩

theorem WellFormed.unregisterSource (hd : d.WellFormed) (id : SourceId) : (d.unregisterSource id).1.WellFormed := by
  unfold Display.unregisterSource
  split
  · exact hd
  next source hfind =>
    have hsub : (d.sources.filter (·.id != id)).Sublist d.sources := filter_sublist
    obtain ⟨hids, hnms, hnew, hnamed⟩ := hd.sourceRegistry.sublist hsub
    obtain ⟨houtputIds, houtputNames, houtputsNew, houtputsNamed⟩ := hd.outputRegistry.map
      (f := fun o => (o.clearActive id).dropPendingOf id) (fun _ => rfl) fun _ => rfl
    refine ⟨houtputIds, houtputNames, houtputsNew, houtputsNamed, hids, hnms, hnew,
      fun s hs => hd.sourcesValid s (hsub.mem hs), hnamed, hd.sourceIdNew, forall_mem_map.mpr ?_⟩
    intro old hold hne
    obtain ⟨hoth, hsame⟩ := clearActive_active hne
    obtain ⟨s, hs, heq⟩ := hd.active old hold (hsame ▸ hne)
    refine ⟨s, mem_filter.mpr ⟨hs, bne_iff_ne.mpr ?_⟩, heq.trans hsame.symm⟩
    rw [heq]
    exact hoth

theorem WellFormed.requestOutput (hd : d.WellFormed) (id : SourceId) (name : String) :
    (d.requestOutput id name).1.WellFormed := by
  unfold Display.requestOutput
  split
  next source output hsrc _ => exact hd.setSource (source?_mem hsrc).1 rfl rfl
  · exact hd

theorem WellFormed.releaseOutput (hd : d.WellFormed) (id : SourceId) (name : String) :
    (d.releaseOutput id name).1.WellFormed := by
  unfold Display.releaseOutput
  split
  next source output hsrc hout =>
    have hd' : (d.setSource { source with requestedOutputs := source.requestedOutputs.erase output.name }).WellFormed :=
      hd.setSource (source?_mem hsrc).1 rfl rfl
    have hmem := findOutput_mem hout
    refine hd'.setOutput hmem rfl rfl fun hne => ?_
    obtain ⟨-, hsame⟩ := clearActive_active hne
    obtain ⟨s, hs, heq⟩ := hd'.active output hmem (hsame ▸ hne)
    exact ⟨s, hs, heq.trans hsame.symm⟩
  · exact hd

theorem activate_outputs (d : Display) (output : OutputContext) (previous next : Option SourceContext) :
    (d.activate output previous next).1.outputs =
      replace OutputContext.id (output.activate ((next.map SourceContext.id).getD INVALID_SOURCE_ID)) d.outputs := by
  cases next <;> rfl

theorem WellFormed.activate (hd : d.WellFormed) (hout : output ∈ d.outputs) (previous next : Option SourceContext)
    (hnext : ∀ source ∈ next, source ∈ d.sources) : (d.activate output previous next).1.WellFormed := by
  cases next with
  | none => exact hd.setOutput hout (by simp) (by simp) fun hne => absurd (by simp) hne
  | some source =>
    have hmem := hnext source rfl
    have hd' : (d.setSource { source with requestedOutputs := insert output.name source.requestedOutputs }).WellFormed :=
      hd.setSource hmem rfl rfl
    exact hd'.setOutput hout (by simp) (by simp) fun _ => ⟨_, mem_replace_self hmem rfl, by simp⟩

theorem WellFormed.setActiveSource (hd : d.WellFormed) (outputName sourceName : String) :
    (d.setActiveSource outputName sourceName).1.WellFormed := by
  unfold Display.setActiveSource
  split
  · exact hd
  next output hout =>
    dsimp only
    split
    · exact hd.activate (findOutput_mem hout) _ none (by simp)
    · split
      · exact hd
      next next hnext =>
        refine hd.activate (findOutput_mem hout) _ (some next) ?_
        intro source hsrc
        cases hsrc
        exact (findSource_mem hnext).1

theorem WellFormed.store (hd : d.WellFormed) (hout : output ∈ d.outputs) {stored : OutputContext}
    (hid : stored.id = output.id) (hname : stored.name = output.name) (hact : stored.activeSourceId = output.activeSourceId) :
    ({ d with nextFrameId := d.nextFrameId + 1 }.setOutput stored).WellFormed := by
  have hallocated : ({ d with nextFrameId := d.nextFrameId + 1 } : Display).WellFormed := { hd with }
  refine hallocated.setOutput hout hid hname ?_
  rw [hact]
  exact hd.active output hout

theorem WellFormed.presentFrameAsync (hd : d.WellFormed) (id : SourceId) (name : String) (valid posts : Bool) :
    (d.presentFrameAsync id name valid posts).display.WellFormed := by
  unfold Display.presentFrameAsync
  split
  next source output _ hout =>
    have hmem := findOutput_mem hout
    dsimp only
    split
    · exact hd
    · split
      · exact hd
      · split
        · exact hd.store hmem rfl rfl rfl
        · split
          · exact hd.store hmem rfl rfl rfl
          · exact hd.store hmem rfl rfl rfl
  · exact hd

end Display

end Brookesia.DisplayService

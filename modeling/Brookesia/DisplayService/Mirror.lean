import Brookesia.DisplayService.Operation

/-! # What an operation knows of its outputs

If all updates that are due were made in the order of the sections, `requested_outputs_` would be what the display
holds, and the operation unavailable where it should be: the invariant (`Inv.opened`), which each section keeps where
its call matches. Closing needs no condition: from `on_close` on a call is there that will unregister the source,
or the source is gone, and then no call brings anything of it back (`Absent`). -/

namespace Brookesia.DisplayService.Operation

open Transition List Option

def Call.isClosing : Call → Bool
  | .onClose => true
  | .releaseAll _ => true
  | _ => false

/-- The outputs that the operation holds to be requested, and whether it is unavailable, or will be. -/
abbrev Known : Type :=
  Finset String × Bool

def State.known (s : State) : Known :=
  (s.requestedOutputs, s.unavailable || decide (Call.setUnavailable ∈ s.calls))

def deliver (known : Known) : Update → Known
  | .insert name => (insert name known.1, known.2)
  | .erase name => (known.1.erase name, known.2)
  | .handleOutputUnregistered name => (known.1.erase name, known.2 || decide (name ∈ known.1))

variable {s s' : State} {d d' : Display} {id : SourceId} {name : String} {output : OutputContext} {source : SourceContext}
  {call : Call} {k : ℕ}

theorem decide_mem_insert {name other : String} (hne : name ≠ other) (names : Finset String) :
    decide (name ∈ insert other names) = decide (name ∈ names) :=
  decide_eq_decide.mpr (Finset.mem_insert.trans (or_iff_right hne))

theorem decide_mem_erase {name other : String} (hne : name ≠ other) (names : Finset String) :
    decide (name ∈ names.erase other) = decide (name ∈ names) :=
  decide_eq_decide.mpr (Finset.mem_erase.trans (and_iff_right hne))

theorem deliver_independent {u v : Update} (hne : v.name ≠ u.name) : Independent deliver u v := by
  intro known
  cases u with
  | insert name =>
    cases v with
    | insert other => exact Prod.ext (Finset.insert_comm other name known.1) rfl
    | erase other => exact Prod.ext (Finset.erase_insert_of_ne (Ne.symm hne)) rfl
    | handleOutputUnregistered other =>
      have hne : other ≠ name := hne
      exact Prod.ext (Finset.erase_insert_of_ne hne.symm) (congrArg (known.2 || ·) (decide_mem_insert hne known.1))
  | erase name =>
    cases v with
    | insert other => exact Prod.ext (Finset.erase_insert_of_ne hne).symm rfl
    | erase other => exact Prod.ext Finset.erase_right_comm rfl
    | handleOutputUnregistered other =>
      have hne : other ≠ name := hne
      exact Prod.ext Finset.erase_right_comm (congrArg (known.2 || ·) (decide_mem_erase hne known.1))
  | handleOutputUnregistered name =>
    cases v with
    | insert other =>
      have hne : other ≠ name := hne
      refine Prod.ext (Finset.erase_insert_of_ne hne).symm ?_
      exact (congrArg (known.2 || ·) (decide_mem_insert hne.symm known.1)).symm
    | erase other =>
      have hne : other ≠ name := hne
      refine Prod.ext Finset.erase_right_comm ?_
      exact (congrArg (known.2 || ·) (decide_mem_erase hne.symm known.1)).symm
    | handleOutputUnregistered other =>
      have hne : other ≠ name := hne
      refine Prod.ext Finset.erase_right_comm ?_
      show (known.2 || decide (name ∈ known.1) || decide (other ∈ known.1.erase name)) =
        (known.2 || decide (other ∈ known.1) || decide (name ∈ known.1.erase other))
      rw [decide_mem_erase hne, decide_mem_erase hne.symm, Bool.or_right_comm]

/-! ### What the sections do to the requested outputs -/

theorem requestedBy_same (h : d'.sources = d.sources) : requestedBy d' id = requestedBy d id := by
  unfold requestedBy Display.source?
  rw [h]

theorem requestedBy_setSource (hd : d.WellFormed) (hsrc : source ∈ d.sources) (names : Finset String) :
    requestedBy (d.setSource { source with requestedOutputs := names }) id =
      if source.id = id then some names else requestedBy d id := by
  unfold requestedBy Display.source?
  split
  next hid =>
    have hfind := @find?_replace_self _ _ _ SourceContext.id d.sources { source with requestedOutputs := names } source
      hd.sourceIds hsrc rfl
    rw [← hid]
    exact congrArg (Option.map SourceContext.requestedOutputs) hfind
  next hne =>
    exact congrArg (Option.map SourceContext.requestedOutputs) (find?_replace_other hne)

theorem requestOutput_requestedBy (hd : d.WellFormed) (hsrc : d.source? id = some source)
    (hout : d.findOutput name = some output) :
    requestedBy (d.requestOutput id name).1 id = (requestedBy d id).map (insert output.name) := by
  obtain ⟨hmem, hid⟩ := Display.source?_mem hsrc
  unfold Display.requestOutput
  rw [hsrc, hout]
  refine (requestedBy_setSource hd hmem _).trans ?_
  rw [if_pos hid]
  unfold requestedBy
  rw [hsrc]
  rfl

theorem releaseOutput_requestedBy (hd : d.WellFormed) (hsrc : d.source? id = some source)
    (hout : d.findOutput name = some output) :
    requestedBy (d.releaseOutput id name).1 id = (requestedBy d id).map (·.erase output.name) := by
  obtain ⟨hmem, hid⟩ := Display.source?_mem hsrc
  unfold Display.releaseOutput
  rw [hsrc, hout]
  refine (requestedBy_setSource hd hmem _).trans ?_
  rw [if_pos hid]
  unfold requestedBy
  rw [hsrc]
  rfl

theorem activate_requestedBy (hd : d.WellFormed) {previous next : Option SourceContext}
    (hnext : ∀ source ∈ next, source ∈ d.sources) (h : ∀ names ∈ requestedBy d id, output.name ∈ names) :
    requestedBy (d.activate output previous next).1 id = requestedBy d id := by
  cases next with
  | none => rfl
  | some next =>
    have hmem := hnext next rfl
    refine (requestedBy_setSource hd hmem _).trans ?_
    split
    next hid =>
      have hreqd : requestedBy d id = some next.requestedOutputs := by
        unfold requestedBy
        rw [← hid, hd.source? hmem]
        rfl
      rw [hreqd, Finset.insert_eq_of_mem (h _ hreqd)]
    · rfl

theorem setActiveSource_requestedBy (hd : d.WellFormed) {outputName sourceName : String}
    (h : ∀ output ∈ d.findOutput outputName, ∀ names ∈ requestedBy d id, output.name ∈ names) :
    requestedBy (d.setActiveSource outputName sourceName).1 id = requestedBy d id := by
  unfold Display.setActiveSource
  split
  · rfl
  next output hout =>
    have hin := h output hout
    dsimp only
    split
    · exact activate_requestedBy hd (fun source hsrc => by cases hsrc) hin
    · split
      · rfl
      next next hnext =>
        refine activate_requestedBy hd (fun source hsrc => ?_) hin
        cases hsrc
        exact (Display.findSource_mem hnext).1

theorem presentFrameAsync_sources (d : Display) (id : SourceId) (name : String) (valid posts : Bool) :
    (d.presentFrameAsync id name valid posts).display.sources = d.sources := by
  unfold Display.presentFrameAsync
  split
  · dsimp only
    split
    · rfl
    · split
      · rfl
      · split
        · rfl
        · split <;> rfl
  · rfl

theorem unregisterOutput_requestedBy {outputId : OutputId} (hfind : d.output? outputId = some output)
    (hdynamic : output.dynamicOutput = true) :
    requestedBy (d.unregisterOutput outputId).1 id = (requestedBy d id).map (·.erase output.name) := by
  unfold Display.unregisterOutput
  rw [hfind]
  dsimp only
  rw [if_pos hdynamic]
  unfold requestedBy Display.source?
  dsimp only
  rw [List.find?_map, Option.map_map, Option.map_map]
  rfl

/-! ### What the sections do once the source is gone -/

theorem Absent.source? (h : Absent d id) : d.source? id = none := by
  cases hfind : d.source? id with
  | none => rfl
  | some source =>
    obtain ⟨hmem, hid⟩ := Display.source?_mem hfind
    exact absurd hid (h.source source hmem)

theorem Absent.requestOutput (h : Absent d id) (name : String) : Absent (d.requestOutput id name).1 id := by
  unfold Display.requestOutput
  rw [h.source?]
  exact h

theorem Absent.releaseOutput (h : Absent d id) (name : String) : Absent (d.releaseOutput id name).1 id := by
  unfold Display.releaseOutput
  rw [h.source?]
  exact h

theorem Absent.presentFrameAsync (h : Absent d id) (name : String) (valid posts : Bool) :
    Absent (d.presentFrameAsync id name valid posts).display id := by
  unfold Display.presentFrameAsync
  rw [h.source?]
  exact h

theorem Absent.activate (h : Absent d id) (hvalid : id ≠ INVALID_SOURCE_ID) (hout : output ∈ d.outputs)
    {previous next : Option SourceContext} (hnext : ∀ source ∈ next, source ∈ d.sources) :
    Absent (d.activate output previous next).1 id := by
  have houts := d.activate_outputs output previous next
  refine ⟨?_, ?_, ?_⟩
  · cases next with
    | none => exact h.source
    | some next =>
      intro source hsrc
      rcases mem_replace hsrc with rfl | ⟨hsrc, -⟩
      · exact h.source next (hnext next rfl)
      · exact h.source source hsrc
  · rw [houts]
    intro o ho
    rcases mem_replace ho with rfl | ⟨ho, -⟩
    · rw [activate_active]
      cases next with
      | none => exact hvalid.symm
      | some next => exact h.source next (hnext next rfl)
    · exact h.active o ho
  · rw [houts]
    intro o ho frame hfr
    rcases mem_replace ho with rfl | ⟨ho, -⟩
    · refine h.pending output hout frame ?_
      unfold OutputContext.activate at hfr
      split at hfr
      · exact (filter_eq_some_iff.mp hfr).1
      · exact hfr
    · exact h.pending o ho frame hfr

theorem Absent.setActiveSource (h : Absent d id) (hvalid : id ≠ INVALID_SOURCE_ID) (outputName sourceName : String) :
    Absent (d.setActiveSource outputName sourceName).1 id := by
  unfold Display.setActiveSource
  split
  · exact h
  next output hout =>
    have hmem := Display.findOutput_mem hout
    dsimp only
    split
    · exact h.activate hvalid hmem fun source hsrc => by cases hsrc
    · split
      · exact h
      next next hnext =>
        refine h.activate hvalid hmem fun source hsrc => ?_
        cases hsrc
        exact (Display.findSource_mem hnext).1

theorem Absent.unregisterOutput (h : Absent d id) (outputId : OutputId) : Absent (d.unregisterOutput outputId).1 id := by
  unfold Display.unregisterOutput
  split
  · exact h
  · split
    · refine ⟨fun source hsrc => ?_, fun o ho => ?_, fun o ho => ?_⟩
      · obtain ⟨old, hold, rfl⟩ := List.mem_map.mp hsrc
        exact h.source old hold
      · exact h.active o (mem_filter.mp ho).1
      · exact h.pending o (mem_filter.mp ho).1
    · exact h

theorem unregisterSource_absent (hvalid : id ≠ INVALID_SOURCE_ID) (hsrc : (d.source? id).isSome) :
    Absent (d.unregisterSource id).1 id := by
  obtain ⟨source, hfind⟩ := isSome_iff_exists.mp hsrc
  unfold Display.unregisterSource
  rw [hfind]
  refine ⟨fun s hs => bne_iff_ne.mp (mem_filter.mp hs).2, fun o ho => ?_, fun o ho frame hfr => ?_⟩
  · obtain ⟨old, -, rfl⟩ := List.mem_map.mp ho
    show (if old.activeSourceId = id then INVALID_SOURCE_ID else old.activeSourceId) ≠ id
    split
    · exact hvalid.symm
    next hne => exact hne
  · obtain ⟨old, -, rfl⟩ := List.mem_map.mp ho
    exact bne_iff_ne.mp (filter_eq_some_iff.mp hfr).2

/-! ### The invariant -/

structure Inv (s : State) : Prop where
  wellFormed : s.display.WellFormed
  valid : s.sourceId ≠ INVALID_SOURCE_ID
  registered : s.sourceId ∈ s.display.sources.map SourceContext.id ∨ Absent s.display s.sourceId
  closing : ∀ call ∈ s.calls, call.isClosing = true → s.closed = true
  closed : s.closed = true → (∃ call ∈ s.calls, call.isClosing = true) ∨ Absent s.display s.sourceId
  opened : s.closed = false → ∃ names, requestedBy s.display s.sourceId = some names ∧
    s.updates.flatten.foldl deliver s.known = (names, s.unregistered)

theorem Inv.mirrors (h : Inv s) : s.Mirrors := by
  intro hcs hupds
  refine ⟨fun hcl => ?_, fun hcl => ?_⟩
  · obtain ⟨names, hreqd, hknown⟩ := h.opened hcl
    rw [flatten_eq_nil_iff.mpr hupds] at hknown
    obtain ⟨hnms, hunav⟩ := Prod.mk.inj hknown
    rw [hcs] at hunav
    exact ⟨hnms ▸ hreqd, (Bool.or_false _).symm.trans hunav⟩
  · rcases h.closed hcl with ⟨call, hmem, -⟩ | habs
    · rw [hcs] at hmem
      cases hmem
    · exact habs

def SameIds (d d' : Display) : Prop :=
  d'.sources.map SourceContext.id = d.sources.map SourceContext.id

theorem requestOutput_ids (d : Display) (id : SourceId) (name : String) : SameIds d (d.requestOutput id name).1 := by
  unfold Display.requestOutput
  split
  · exact keys_replace
  · exact rfl

theorem releaseOutput_ids (d : Display) (id : SourceId) (name : String) : SameIds d (d.releaseOutput id name).1 := by
  unfold Display.releaseOutput
  split
  · exact keys_replace
  · exact rfl

theorem activate_ids (d : Display) (output : OutputContext) (previous next : Option SourceContext) :
    SameIds d (d.activate output previous next).1 := by
  cases next with
  | none => exact rfl
  | some next => exact keys_replace

theorem setActiveSource_ids (d : Display) (outputName sourceName : String) :
    SameIds d (d.setActiveSource outputName sourceName).1 := by
  unfold Display.setActiveSource
  split
  · exact rfl
  · dsimp only
    split
    · exact activate_ids ..
    · split
      · exact rfl
      · exact activate_ids ..

theorem unregisterOutput_ids (d : Display) (id : OutputId) : SameIds d (d.unregisterOutput id).1 := by
  unfold Display.unregisterOutput
  split
  · exact rfl
  · split
    · exact List.map_map
    · exact rfl

/-! ### Steps -/

theorem Inv.start (h : Inv s) (hclosing : call.isClosing = false) (hne : Call.setUnavailable ≠ call) : Inv (s.start call) := by
  unfold State.start
  split
  · refine ⟨h.wellFormed, h.valid, h.registered, fun other hmem hoth => ?_, fun hcl => ?_, fun hcl => ?_⟩
    · rcases mem_append.mp hmem with hmem | hmem
      · exact h.closing other hmem hoth
      · rw [mem_singleton.mp hmem, hclosing] at hoth
        cases hoth
    · refine (h.closed hcl).imp_left fun ⟨other, hmem, hoth⟩ => ?_
      exact ⟨other, mem_append_left _ hmem, hoth⟩
    · have hsame : ({ s with calls := s.calls ++ [call] } : State).known = s.known := by
        unfold State.known
        have hiff : Call.setUnavailable ∈ s.calls ++ [call] ↔ Call.setUnavailable ∈ s.calls := by
          rw [mem_append, mem_singleton]
          exact or_iff_left hne
        rw [decide_eq_decide.mpr hiff]
      rw [hsame]
      exact h.opened hcl
  · exact h

theorem Inv.proceed (h : Inv s) (hk : s.calls[k]? = some call) (hclosing : call.isClosing = false)
    (hne : Call.setUnavailable ≠ call) (updates : List (List Update)) (hd : d'.WellFormed) (hids : SameIds s.display d')
    (habs : Absent s.display s.sourceId → Absent d' s.sourceId)
    (hopened : s.closed = false → ∀ names, requestedBy s.display s.sourceId = some names →
      s.updates.flatten.foldl deliver s.known = (names, s.unregistered) → ∃ names',
        requestedBy d' s.sourceId = some names' ∧ updates.flatten.foldl deliver s.known = (names', s.unregistered)) :
    Inv { s with calls := s.calls.eraseIdx k, display := d', updates := updates } := by
  have hids : d'.sources.map SourceContext.id = s.display.sources.map SourceContext.id := hids
  refine ⟨hd, h.valid, ?_, fun other hmem => ?_, fun hcl => ?_, fun hcl => ?_⟩
  · show s.sourceId ∈ d'.sources.map SourceContext.id ∨ Absent d' s.sourceId
    rw [hids]
    exact h.registered.imp_right habs
  · exact h.closing other (mem_of_mem_eraseIdx hmem)
  · refine (h.closed hcl).imp (fun ⟨other, hmem, hoth⟩ => ⟨other, ?_, hoth⟩) habs
    refine (mem_eraseIdx_of_ne hk ?_).mpr hmem
    rintro rfl
    rw [hoth] at hclosing
    cases hclosing
  · have hsame : ({ s with calls := s.calls.eraseIdx k, display := d', updates := updates } : State).known = s.known := by
      unfold State.known
      rw [decide_eq_decide.mpr (mem_eraseIdx_of_ne hk hne)]
    obtain ⟨names, hreqd, hknown⟩ := h.opened hcl
    rw [hsame]
    exact hopened hcl names hreqd hknown

/-- The section of `request_output` or `release_output`: `change` is what it does to the requested outputs. -/
theorem Inv.pass {outcome : Display × List Work} {update : Update} (h : Inv s) (change : Finset String → Finset String)
    (hk : s.calls[k]? = some call) (hclosing : call.isClosing = false) (hne : Call.setUnavailable ≠ call)
    (hd : outcome.1.WellFormed) (hids : SameIds s.display outcome.1)
    (habs : Absent s.display s.sourceId → Absent outcome.1 s.sourceId)
    (hnone : s.display.findOutput name = none → outcome.1 = s.display)
    (hsome : s.closed = false → ∀ source output, s.display.source? s.sourceId = some source →
      s.display.findOutput name = some output →
        requestedBy outcome.1 s.sourceId = (requestedBy s.display s.sourceId).map change ∧
          ∀ known : Known, deliver known update = (change known.1, known.2)) :
    Inv ({ s with calls := s.calls.eraseIdx k }.pass outcome name update) := by
  refine h.proceed hk hclosing hne _ hd hids habs fun hcl names hreqd hknown => ?_
  obtain ⟨source, hsrc, -⟩ := map_eq_some_iff.mp hreqd
  cases hfind : s.display.findOutput name with
  | none =>
    refine ⟨names, ?_, ?_⟩
    · rw [hnone hfind]
      exact hreqd
    · rw [if_neg (by rintro ⟨-, hsome⟩; cases hsome)]
      exact hknown
  | some output =>
    obtain ⟨hch, hdeliver⟩ := hsome hcl source output hsrc hfind
    refine ⟨change names, ?_, ?_⟩
    · rw [hch, hreqd]
      rfl
    · rw [if_pos ⟨isSome_iff_exists.mpr ⟨source, hsrc⟩, rfl⟩, deliver_append, hknown]
      exact hdeliver _

theorem Inv.setUnavailable (h : Inv s) (hk : s.calls[k]? = some .setUnavailable) :
    Inv { s with calls := s.calls.eraseIdx k, unavailable := s.unavailable || !s.closed } := by
  have hmem : Call.setUnavailable ∈ s.calls := mem_of_getElem? hk
  refine ⟨h.wellFormed, h.valid, h.registered, fun other hoth => ?_, fun hcl => ?_, fun hcl => ?_⟩
  · exact h.closing other (mem_of_mem_eraseIdx hoth)
  · refine (h.closed hcl).imp_left fun ⟨other, hoth, hclosing⟩ => ⟨other, ?_, hclosing⟩
    refine (mem_eraseIdx_of_ne hk ?_).mpr hoth
    rintro rfl
    cases hclosing
  · have hcl : s.closed = false := hcl
    have hsame : ({ s with calls := s.calls.eraseIdx k, unavailable := s.unavailable || !s.closed } : State).known =
        s.known := by
      unfold State.known
      rw [decide_eq_true hmem, hcl]
      simp
    rw [hsame]
    exact h.opened hcl

theorem Inv.setClosing {next : Call} (h : Inv s) (hk : s.calls[k]? = some call) (hclosing : call.isClosing = true)
    (hnext : next.isClosing = true) (requested : Finset String) (hd : d'.WellFormed)
    (hreg : s.sourceId ∈ d'.sources.map SourceContext.id ∨ Absent d' s.sourceId) :
    Inv { s with calls := s.calls.set k next, requestedOutputs := requested, display := d' } := by
  have hcl : s.closed = true := h.closing call (mem_of_getElem? hk) hclosing
  obtain ⟨before, after, -, -, hset⟩ := split_at hk
  refine ⟨hd, h.valid, hreg, fun _ _ _ => hcl, fun _ => .inl ⟨next, ?_, hnext⟩, fun hopen => ?_⟩
  · show next ∈ s.calls.set k next
    rw [hset]
    exact mem_append_right _ mem_cons_self
  · exact absurd (hcl.symm.trans hopen) (by decide)

theorem Inv.unregisterSource {names : Finset String} (h : Inv s) (hk : s.calls[k]? = some (.releaseAll names)) :
    Inv { s with calls := s.calls.eraseIdx k, display := (s.display.unregisterSource s.sourceId).1 } := by
  have hcl : s.closed = true := h.closing _ (mem_of_getElem? hk) rfl
  have habs : Absent (s.display.unregisterSource s.sourceId).1 s.sourceId := by
    rcases h.registered with hmem | habs
    · obtain ⟨source, hsrc, hid⟩ := List.mem_map.mp hmem
      refine unregisterSource_absent h.valid ?_
      rw [← hid, h.wellFormed.source? hsrc]
      rfl
    · unfold Display.unregisterSource
      rw [habs.source?]
      exact habs
  refine ⟨h.wellFormed.unregisterSource s.sourceId, h.valid, .inr habs, fun _ _ _ => hcl, fun _ => .inr habs,
    fun hopen => ?_⟩
  exact absurd (hcl.symm.trans hopen) (by decide)

theorem Inv.releaseNext (h : Inv s) (hst : s.releaseNext k name = some s') : Inv s' := by
  unfold State.releaseNext at hst
  split at hst
  next names hk =>
    obtain ⟨-, rfl⟩ := of_guard hst
    refine h.setClosing hk rfl rfl s.requestedOutputs (h.wellFormed.releaseOutput s.sourceId name) ?_
    have hids : (s.display.releaseOutput s.sourceId name).1.sources.map SourceContext.id =
        s.display.sources.map SourceContext.id := releaseOutput_ids ..
    rw [hids]
    exact h.registered.imp_right (·.releaseOutput name)
  · cases hst

theorem Inv.close (h : Inv s) : Inv { s with closed := true, calls := s.calls ++ [.onClose] } :=
  ⟨h.wellFormed, h.valid, h.registered, fun _ _ _ => rfl,
    fun _ => .inl ⟨.onClose, mem_append_right _ (mem_singleton_self _), rfl⟩, fun hopen => by cases hopen⟩

theorem Inv.unregisterOutput (h : Inv s) (id : OutputId) : Inv (s.unregisterOutput id) := by
  unfold State.unregisterOutput
  split
  · exact h
  next output hfind =>
    split
    next hdynamic =>
      have hids : (s.display.unregisterOutput id).1.sources.map SourceContext.id =
          s.display.sources.map SourceContext.id := unregisterOutput_ids ..
      refine ⟨h.wellFormed.unregisterOutput id, h.valid, ?_, h.closing, fun hcl => ?_, fun hcl => ?_⟩
      · show s.sourceId ∈ (s.display.unregisterOutput id).1.sources.map SourceContext.id ∨ _
        rw [hids]
        exact h.registered.imp_right (·.unregisterOutput id)
      · exact (h.closed hcl).imp_right (·.unregisterOutput id)
      · obtain ⟨names, hreqd, hknown⟩ := h.opened hcl
        refine ⟨names.erase output.name, ?_, ?_⟩
        · show requestedBy (s.display.unregisterOutput id).1 s.sourceId = _
          rw [unregisterOutput_requestedBy hfind hdynamic, hreqd]
          rfl
        · show (s.updates ++ [[Update.handleOutputUnregistered output.name]]).flatten.foldl deliver s.known = _
          rw [deliver_append, hknown, hreqd]
          refine Prod.ext rfl ?_
          show (s.unregistered || decide (output.name ∈ names)) = (s.unregistered || decide (∃ x ∈ some names, output.name ∈ x))
          simp
    · exact h

theorem update_known (s : State) (update : Update) : (s.update update).known = deliver s.known update := by
  cases update with
  | insert name => rfl
  | erase name => rfl
  | handleOutputUnregistered name =>
    refine Prod.ext rfl ?_
    show (s.unavailable || decide (Call.setUnavailable ∈
      if name ∈ s.requestedOutputs then s.calls ++ [.setUnavailable] else s.calls)) =
        (s.unavailable || decide (Call.setUnavailable ∈ s.calls) || decide (name ∈ s.requestedOutputs))
    split
    next hmem => simp [hmem]
    next hmem => simp [hmem]

/-- Of the calls an update may add one only, which is not the closing one. -/
theorem update_calls (s : State) (update : Update) :
    (s.update update).calls = s.calls ∨ (s.update update).calls = s.calls ++ [.setUnavailable] := by
  cases update with
  | insert name => exact .inl rfl
  | erase name => exact .inl rfl
  | handleOutputUnregistered name =>
    show (if name ∈ s.requestedOutputs then _ else _) = _ ∨ (if name ∈ s.requestedOutputs then _ else _) = _
    split
    · exact .inr rfl
    · exact .inl rfl

theorem update_frame (s : State) (update : Update) :
    (s.update update).display = s.display ∧ (s.update update).sourceId = s.sourceId ∧
      (s.update update).closed = s.closed ∧ (s.update update).updates = s.updates ∧
        (s.update update).unregistered = s.unregistered := by
  cases update <;> exact ⟨rfl, rfl, rfl, rfl, rfl⟩

theorem Inv.deliver {update : Update} {updates : List (List Update)} (h : Inv s) (hc : Follows s (.deliver k))
    (hk : takeHead s.updates k = some (update, updates)) : Inv ({ s with updates := updates }.update update) := by
  obtain ⟨hdisp, hid, hsame, hupds, hunregistered⟩ := update_frame { s with updates := updates } update
  have hcs := update_calls { s with updates := updates } update
  refine ⟨?_, ?_, ?_, fun call hmem hclosing => ?_, fun hcl => ?_, fun hcl => ?_⟩
  · rw [hdisp]
    exact h.wellFormed
  · rw [hid]
    exact h.valid
  · rw [hdisp, hid]
    exact h.registered
  · rw [hsame]
    rcases hcs with heq | heq
    · rw [heq] at hmem
      exact h.closing call hmem hclosing
    · rw [heq] at hmem
      rcases mem_append.mp hmem with hmem | hmem
      · exact h.closing call hmem hclosing
      · rw [mem_singleton.mp hmem] at hclosing
        cases hclosing
  · rw [hsame] at hcl
    rw [hdisp, hid]
    refine (h.closed hcl).imp_left fun ⟨call, hmem, hclosing⟩ => ⟨call, ?_, hclosing⟩
    rcases hcs with heq | heq
    · rw [heq]
      exact hmem
    · rw [heq]
      exact mem_append_left _ hmem
  · rw [hsame] at hcl
    have hcl : s.closed = false := hcl
    rw [hdisp, hid, hupds, hunregistered, update_known]
    have hearly : ∀ other ∈ earlier s.updates k, Independent Operation.deliver update other := by
      intro other hoth
      refine deliver_independent ((hc hcl).2 k (by simp [Label.delivered?]) (update, updates) ?_ other hoth)
      rw [hk]
      exact mem_singleton_self _
    show ∃ names, _ ∧ updates.flatten.foldl Operation.deliver (Operation.deliver s.known update) = (names, s.unregistered)
    rw [deliver_early hk hearly]
    exact h.opened hcl

theorem Inv.advance (h : Inv s) (hc : Follows s (.advance k)) (hst : s.advance k = some s') : Inv s' := by
  have hmat : s.closed = false → ∀ call, s.calls[k]? = some call → call.Matches s := by
    intro hcl call hk
    refine (hc hcl).1 k (by simp [Label.advanced?]) call ?_
    rw [hk]
    exact mem_singleton_self _
  have hd := h.wellFormed
  unfold State.advance at hst
  split at hst
  next name hk =>
    cases hst
    refine h.pass (insert name) hk rfl (by simp) (hd.requestOutput _ name) (requestOutput_ids ..) (·.requestOutput name) ?_ ?_
    · intro hnone
      unfold Display.requestOutput
      rw [hnone]
      cases s.display.source? s.sourceId <;> rfl
    · intro hcl source output hsrc hout
      have hname : output.name = name := hmat hcl _ hk output (by rw [hout]; exact mem_singleton_self _)
      rw [requestOutput_requestedBy hd hsrc hout, hname]
      exact ⟨rfl, fun _ => rfl⟩
  next name hk =>
    cases hst
    refine h.pass (·.erase name) hk rfl (by simp) (hd.releaseOutput _ name) (releaseOutput_ids ..) (·.releaseOutput name)
      ?_ ?_
    · intro hnone
      unfold Display.releaseOutput
      rw [hnone]
      cases s.display.source? s.sourceId <;> rfl
    · intro hcl source output hsrc hout
      have hname : output.name = name := hmat hcl _ hk output (by rw [hout]; exact mem_singleton_self _)
      rw [releaseOutput_requestedBy hd hsrc hout, hname]
      exact ⟨rfl, fun _ => rfl⟩
  next name hk =>
    cases hst
    refine h.proceed hk rfl (by simp) _ (hd.setActiveSource name _) (setActiveSource_ids ..)
      (·.setActiveSource h.valid name _) fun hcl names hreqd hknown => ⟨names, ?_, hknown⟩
    rw [setActiveSource_requestedBy hd, hreqd]
    intro output hout names hnms
    exact hmat hcl _ hk output (mem_toList.mpr hout) names (mem_toList.mpr hnms)
  next name valid posts hk =>
    cases hst
    refine h.proceed hk rfl (by simp) _ (hd.presentFrameAsync _ name valid posts) ?_
      (·.presentFrameAsync name valid posts) fun hcl names hreqd hknown => ⟨names, ?_, hknown⟩
    · unfold SameIds
      rw [presentFrameAsync_sources]
    · rw [requestedBy_same (presentFrameAsync_sources ..), hreqd]
  next hk =>
    cases hst
    exact h.setUnavailable hk
  next hk =>
    cases hst
    exact h.setClosing hk rfl rfl ∅ hd h.registered
  next names hk =>
    obtain ⟨-, rfl⟩ := of_guard hst
    exact h.unregisterSource hk
  · cases hst

/-! ### Runs -/

theorem inv_inductive : machine.Inductive Follows Inv where
  init s hs := by
    obtain ⟨hwell, ⟨source, hsrc, hid, hnone⟩, hfresh⟩ := hs
    have hcs : s.calls = [] := by rw [hfresh]
    have hcl : s.closed = false := by rw [hfresh]
    refine ⟨hwell, ?_, .inl ?_, ?_, fun hc => ?_, fun _ => ⟨∅, ?_, ?_⟩⟩
    · rw [← hid]
      exact hwell.sourcesValid source hsrc
    · rw [← hid]
      exact List.mem_map_of_mem hsrc
    · rw [hcs]
      exact fun _ hmem => by cases hmem
    · exact absurd (hc.symm.trans hcl) (by decide)
    · unfold requestedBy
      rw [← hid, hwell.source? hsrc, map_some, hnone]
    · rw [hfresh]
      rfl
  step s label s' h hc hst := by
    have hst : step s label = some s' := hst
    cases label with
    | requestOutput name => exact some.inj hst ▸ h.start rfl (by simp)
    | releaseOutput name => exact some.inj hst ▸ h.start rfl (by simp)
    | setActiveSource name => exact some.inj hst ▸ h.start rfl (by simp)
    | presentFrameAsync name valid posts => exact some.inj hst ▸ h.start rfl (by simp)
    | close =>
      unfold step at hst
      dsimp only at hst
      split at hst
      · exact some.inj hst ▸ h
      · exact some.inj hst ▸ h.close
    | unregisterOutput id => exact some.inj hst ▸ h.unregisterOutput id
    | advance k => exact h.advance hc hst
    | releaseNext k name => exact h.releaseNext hst
    | deliver k =>
      obtain ⟨⟨update, updates⟩, hk, rfl⟩ := map_eq_some_iff.mp hst
      exact h.deliver hc hk

/-- **An operation mirrors the display** in every run whose calls name the outputs, activate the source on requested
ones only, and note what they have done in the order of the sections. -/
theorem operation_mirrors (h : machine.Reach Follows s) : s.Mirrors :=
  (inv_inductive.reach h).mirrors

def opened : State where
  display :=
    { outputs := [{ id := 1, name := "Output0", dynamicOutput := true }]
      sources := [{ id := 1, name := "video" }]
      nextOutputId := 2
      nextSourceId := 2 }
  sourceId := 1
  sourceName := "video"

theorem opened_init : opened.Opened := by
  refine ⟨⟨?_, ?_, ?_, ?_, ?_, ?_, ?_, ?_, ?_, ?_, ?_⟩, ⟨{ id := 1, name := "video" }, ?_, rfl, rfl⟩, rfl⟩ <;> decide

/-- The output is requested, unregistered by others, and the operation is closed. -/
def revokedRun : List Label :=
  [.requestOutput "Output0", .advance 0, .deliver 0, .unregisterOutput 1, .deliver 1, .advance 0, .close, .advance 0,
    .advance 0]

theorem operation_mirrors_revokedRun : ∃ s, machine.execWhen Follows opened revokedRun = some s ∧ s.Mirrors := by
  obtain ⟨s, hs⟩ := isSome_iff_exists.mp
    (by decide +kernel : (machine.execWhen Follows opened revokedRun).isSome = true)
  exact ⟨s, hs, operation_mirrors (.execWhen (.init opened_init) hs)⟩

def unnamedRun : List Label :=
  [.requestOutput "", .advance 0, .deliver 0]

theorem operation_mirrors_unnamedRun : ¬ machine.Always State.Mirrors opened unnamedRun := by
  intro halw
  obtain ⟨s, hs, hfacts⟩ := map_eq_some_iff.mp (by decide +kernel : (machine.exec opened unnamedRun).map (fun s =>
      ((s.calls, s.updates, s.closed), requestedBy s.display s.sourceId, s.requestedOutputs)) =
        some (([], [[]], false), some {"Output0"}, {""}))
  obtain ⟨hret, hnms⟩ := Prod.mk.inj hfacts
  obtain ⟨hcs, hret⟩ := Prod.mk.inj hret
  obtain ⟨hupds, hcl⟩ := Prod.mk.inj hret
  obtain ⟨hdisp, hreqd⟩ := Prod.mk.inj hnms
  have hmirrors := (halw.exec hs hcs (by rw [hupds]; simp)).1 hcl
  rw [hdisp, hreqd] at hmirrors
  exact absurd hmirrors.1 (by decide)

end Brookesia.DisplayService.Operation

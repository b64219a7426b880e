import Brookesia.DisplayService.Service

/-! # Events

Every section decides about the events that tell of it, but they are emitted later. If all that is still to be
emitted were emitted in the order of the sections, the listener would know the truth: that is the invariant, and a call
on its own keeps it (`Truth` for the sections). It survives the emission of an event that no earlier one about
the same output is still due before (`InOrder`). -/

namespace Brookesia.DisplayService

open Transition List Option
open Function (update update_of_ne update_self)

def Work.output : Work → Option String
  | .emitActiveSourceChanged output _ => some output
  | .emitSourceStateChanged _ output _ => if output = "" then none else some output
  | _ => none

/-- One of these four calls, or what a call does after its section. -/
def Label.ofSources : Label → Bool
  | .setActiveSource _ _ => true
  | .releaseOutput _ _ => true
  | .unregisterSource _ => true
  | .unregisterOutput _ => true
  | .work _ => true
  | _ => false

def Label.work? : Label → Option ℕ
  | .work k => some k
  | _ => none

/-- No earlier call has still to emit an event about the output of this one. -/
def InOrder (s : State) (label : Label) : Prop :=
  ∀ k ∈ label.work?.toList, ∀ due ∈ (takeHead s.calls k).toList, ∀ work ∈ earlier s.calls k,
    due.1.output = none ∨ work.output ≠ due.1.output

instance (s : State) (label : Label) : Decidable (InOrder s label) := inferInstanceAs (Decidable (∀ _ ∈ _, _))

/-- The last `ActiveSourceChanged` of an output names its active source, or none; and the sources whose last
`SourceStateChanged` on it is `Granted` are those that are active on it. -/
structure Listener.Knows (listener : Listener) (d : Display) (output : OutputContext) : Prop where
  none : output.activeSourceId = INVALID_SOURCE_ID → listener.active output.name = ""
  active : ∀ source ∈ d.sources, output.activeSourceId = source.id → listener.active output.name = source.name
  granted : ∀ source ∈ d.sources,
    listener.state output.name source.name = some .granted ↔ output.activeSourceId = source.id

def Listener.Truth (listener : Listener) (d : Display) : Prop :=
  ∀ output ∈ d.outputs, listener.Knows d output

def State.TellsTruth (s : State) : Prop :=
  (∀ call ∈ s.calls, call = []) → s.listener.Truth s.display

variable {s s' : State} {d d' : Display} {listener : Listener} {output old : OutputContext} {source : SourceContext}
  {work : Work} {works : List Work} {name : String} {id : ℕ}

/-! ### The listener -/

theorem output_empty (source : String) (state : SourceState) : (Work.emitSourceStateChanged source "" state).output = none :=
  rfl

theorem output_state (source : String) (state : SourceState) (h : name ≠ "") :
    (Work.emitSourceStateChanged source name state).output = some name :=
  if_neg h

theorem hear_of_none (h : work.output = none) : listener.hear work = listener := by
  cases work with
  | emitActiveSourceChanged output source => cases h
  | emitSourceStateChanged source output state =>
    by_cases hemp : output = ""
    · exact if_pos hemp
    · rw [output_state source state hemp] at h
      cases h
  | emitOutputRegistered output => rfl
  | emitOutputUnregistered output => rfl
  | completeAsyncFrame frame result => rfl

theorem hear_state (source output : String) (state : SourceState) (h : output ≠ "") :
    listener.hear (.emitSourceStateChanged source output state) =
      { listener with
        state := update listener.state output (update (listener.state output) source (some state)) } :=
  if_neg h

theorem hear_other (h : work.output ≠ some name) :
    (listener.hear work).active name = listener.active name ∧ (listener.hear work).state name = listener.state name := by
  cases work with
  | emitActiveSourceChanged output source =>
    refine ⟨update_of_ne ?_ _ _, rfl⟩
    rintro rfl
    exact h rfl
  | emitSourceStateChanged source output state =>
    by_cases hemp : output = ""
    · rw [hemp, hear_of_none (output_empty source state)]
      exact ⟨rfl, rfl⟩
    · rw [hear_state _ _ _ hemp]
      refine ⟨rfl, update_of_ne ?_ _ _⟩
      rintro rfl
      exact h (output_state source state hemp)
  | emitOutputRegistered output => exact ⟨rfl, rfl⟩
  | emitOutputUnregistered output => exact ⟨rfl, rfl⟩
  | completeAsyncFrame frame result => exact ⟨rfl, rfl⟩

theorem hear_others (h : ∀ work ∈ works, work.output ≠ some name) :
    (works.foldl Listener.hear listener).active name = listener.active name ∧
      (works.foldl Listener.hear listener).state name = listener.state name := by
  induction works generalizing listener with
  | nil => exact ⟨rfl, rfl⟩
  | cons work works ih =>
    obtain ⟨hact, hstate⟩ := @hear_other listener work name (h work mem_cons_self)
    obtain ⟨hact', hstate'⟩ := @ih (listener.hear work) fun w hw => h w (mem_cons_of_mem _ hw)
    exact ⟨hact'.trans hact, hstate'.trans hstate⟩

theorem hear_completeAll (frames : List AsyncFrame) (result : PresentResult) :
    (completeAll frames result).foldl Listener.hear listener = listener := by
  induction frames with
  | nil => rfl
  | cons frame frames ih => exact ih

theorem hear_independent {other : Work} (h : work.output = none ∨ other.output ≠ work.output) :
    Independent Listener.hear work other := by
  intro listener
  by_cases hwork : work.output = none
  · rw [hear_of_none hwork, hear_of_none hwork]
  by_cases hoth : other.output = none
  · rw [hear_of_none hoth, hear_of_none hoth]
  have hne := h.resolve_left hwork
  cases work with
  | emitActiveSourceChanged output source =>
    cases other with
    | emitActiveSourceChanged output' source' =>
      have houts : output ≠ output' := fun heq => hne (congrArg some heq.symm)
      simp only [Listener.hear, Function.update_comm houts]
    | emitSourceStateChanged source' output' state' =>
      by_cases hemp : output' = ""
      · exact absurd (hemp ▸ output_empty source' state') hoth
      · rw [hear_state _ _ _ hemp, hear_state _ _ _ hemp]
        rfl
    | _ => exact absurd rfl hoth
  | emitSourceStateChanged source output state =>
    by_cases hemp : output = ""
    · exact absurd (hemp ▸ output_empty source state) hwork
    cases other with
    | emitActiveSourceChanged output' source' =>
      rw [hear_state _ _ _ hemp, hear_state _ _ _ hemp]
      rfl
    | emitSourceStateChanged source' output' state' =>
      by_cases hemp' : output' = ""
      · exact absurd (hemp' ▸ output_empty source' state') hoth
      · have houts : output ≠ output' := by
          rintro rfl
          exact hne (by rw [output_state _ _ hemp, output_state _ _ hemp])
        rw [hear_state _ _ _ hemp, hear_state _ _ _ hemp', hear_state _ _ _ hemp', hear_state _ _ _ hemp]
        simp only [update_of_ne houts, update_of_ne houts.symm, Function.update_comm houts]
    | _ => exact absurd rfl hoth
  | _ => exact absurd rfl hwork

/-! ### Sections -/

def SameSources (d d' : Display) : Prop :=
  ∀ source ∈ d'.sources, ∃ old ∈ d.sources, source.id = old.id ∧ source.name = old.name

theorem SameSources.refl (d : Display) : SameSources d d :=
  fun source hsrc => ⟨source, hsrc, rfl, rfl⟩

theorem sameSources_setSource (hold : source ∈ d.sources) (requested : Finset String) :
    SameSources d (d.setSource { source with requestedOutputs := requested }) := by
  intro s hs
  rcases mem_replace hs with rfl | ⟨hs, -⟩
  · exact ⟨source, hold, rfl, rfl⟩
  · exact ⟨s, hs, rfl, rfl⟩

theorem Listener.Knows.same {listener' : Listener} (h : listener.Knows d old) (hsrcs : SameSources d d')
    (hname : output.name = old.name) (hact : output.activeSourceId = old.activeSourceId)
    (hheard : listener'.active old.name = listener.active old.name ∧ listener'.state old.name = listener.state old.name) :
    listener'.Knows d' output := by
  refine ⟨?_, fun source hsrc => ?_, fun source hsrc => ?_⟩
  · rw [hname, hact, hheard.1]
    exact h.none
  · obtain ⟨s, hs, hid, hsame⟩ := hsrcs source hsrc
    rw [hname, hact, hheard.1, hid, hsame]
    exact h.active s hs
  · obtain ⟨s, hs, hid, hsame⟩ := hsrcs source hsrc
    rw [hname, hact, hheard.2, hid, hsame]
    exact h.granted s hs

theorem Listener.Truth.set (h : listener.Truth d) (hd : d.WellFormed) (hold : old ∈ d.outputs) (hsrcs : SameSources d d')
    (hid : output.id = old.id) (houts : d'.outputs = replace OutputContext.id output d.outputs)
    (habout : ∀ work ∈ works, work.output = none ∨ work.output = some old.name)
    (hknows : (works.foldl Listener.hear listener).Knows d' output) :
    (works.foldl Listener.hear listener).Truth d' := by
  intro o ho
  rw [houts] at ho
  rcases mem_replace ho with rfl | ⟨ho, hne⟩
  · exact hknows
  · refine (h o ho).same hsrcs rfl rfl (hear_others fun work hwork heq => ?_)
    rcases habout work hwork with hnone | hsome
    · rw [hnone] at heq
      cases heq
    · have hsame : o = old := eq_of_key hd.outputNames ho hold (some.inj (heq.symm.trans hsome))
      exact hne (by rw [hsame, hid])

/-- What is emitted first when another source becomes active: no other source is `Granted` after it. -/
theorem dummy_state (h : listener.Knows d output) (hd : d.WellFormed) (hname : output.name ≠ "") {nextId : SourceId}
    (hsrc : source ∈ d.sources) (hne : nextId ≠ source.id) :
    ((if output.leaves nextId then
      (d.source? output.activeSourceId).toList.map (.emitSourceStateChanged ·.name output.name .dummy) else
        []).foldl Listener.hear listener).state output.name source.name ≠ some .granted := by
  by_cases hact : output.activeSourceId = source.id
  · have hleaves : output.leaves nextId = true := by
      refine Bool.and_eq_true_iff.mpr ⟨bne_iff_ne.mpr ?_, bne_iff_ne.mpr fun heq => hne (heq.symm.trans hact)⟩
      rw [hact]
      exact hd.sourcesValid source hsrc
    rw [if_pos hleaves, hact, hd.source? hsrc]
    show (listener.hear (.emitSourceStateChanged source.name output.name .dummy)).state output.name source.name ≠ _
    rw [hear_state _ _ _ hname]
    dsimp only
    rw [update_self, update_self]
    decide
  · have hnot : listener.state output.name source.name ≠ some .granted := fun hgrant =>
      hact ((h.granted source hsrc).mp hgrant)
    split
    · cases hprevious : d.source? output.activeSourceId with
      | none => exact hnot
      | some previous =>
        obtain ⟨hmem, hid⟩ := Display.source?_mem hprevious
        have hoth : source.name ≠ previous.name := by
          intro heq
          rw [eq_of_key hd.sourceNames hsrc hmem heq] at hact
          exact hact hid.symm
        show (listener.hear (.emitSourceStateChanged previous.name output.name .dummy)).state output.name source.name ≠ _
        rw [hear_state _ _ _ hname]
        dsimp only
        rw [update_self, update_of_ne hoth]
        exact hnot
    · exact hnot

theorem output_completeAll {frames : List AsyncFrame} {result : PresentResult} (h : work ∈ completeAll frames result) :
    work.output = none := by
  obtain ⟨frame, -, rfl⟩ := List.mem_map.mp h
  rfl

theorem activate_about (hname : output.name ≠ "") {previous next : Option SourceContext}
    (h : work ∈ (d.activate output previous next).2) : work.output = none ∨ work.output = some output.name := by
  unfold Display.activate at h
  dsimp only at h
  rcases mem_append.mp h with h | h
  · rcases mem_append.mp h with h | h
    · rcases mem_append.mp h with h | h
      · split at h
        · obtain ⟨source, -, rfl⟩ := List.mem_map.mp h
          exact .inr (output_state _ _ hname)
        · cases h
      · obtain ⟨source, -, rfl⟩ := List.mem_map.mp h
        exact .inr (output_state _ _ hname)
    · rw [mem_singleton.mp h]
      exact .inr rfl
  · split at h
    · exact .inl (output_completeAll h)
    · cases h

theorem activate_truth (h : listener.Truth d) (hd : d.WellFormed) (hout : output ∈ d.outputs)
    {next : Option SourceContext} (hnext : ∀ source ∈ next, source ∈ d.sources) :
    ((d.activate output (d.source? output.activeSourceId) next).2.foldl Listener.hear listener).Truth
      (d.activate output (d.source? output.activeSourceId) next).1 := by
  have hname := hd.outputsNamed output hout
  have hsrcs : SameSources d (d.activate output (d.source? output.activeSourceId) next).1 := by
    cases next with
    | none => exact .refl d
    | some source => exact sameSources_setSource (hnext source rfl) _
  refine h.set hd hout hsrcs (activate_id output _) (d.activate_outputs output _ next) (fun work => activate_about hname) ?_
  unfold Display.activate
  dsimp only
  have hlast : ∀ listener : Listener, (if output.leaves ((next.map SourceContext.id).getD INVALID_SOURCE_ID) then
        completeAll (output.pendingOf output.activeSourceId) .droppedNotActive else []).foldl Listener.hear listener =
          listener := by
    intro listener
    split
    · exact hear_completeAll _ _
    · rfl
  rw [foldl_append, foldl_append, foldl_append, hlast]
  have hdummy := fun source (hsrc : source ∈ d.sources) => @dummy_state d listener output source (h output hout) hd hname
    ((next.map SourceContext.id).getD INVALID_SOURCE_ID) hsrc
  generalize List.foldl Listener.hear listener (if output.leaves ((next.map SourceContext.id).getD INVALID_SOURCE_ID) then
    _ else _) = after at hdummy ⊢
  cases next with
  | none =>
    refine ⟨?_, fun source hsrc hid => ?_, fun source hsrc => ?_⟩
    · rw [activate_name]
      exact fun _ => update_self ..
    · rw [activate_active] at hid
      exact absurd hid.symm (hd.sourcesValid source hsrc)
    · rw [activate_name, activate_active]
      refine iff_of_false (hdummy source hsrc ?_) ?_
      · exact (hd.sourcesValid source hsrc).symm
      · exact (hd.sourcesValid source hsrc).symm
  | some next =>
    have hmem := hnext next rfl
    show ((after.hear (.emitSourceStateChanged next.name output.name .granted)).hear
      (.emitActiveSourceChanged output.name next.name)).Knows _ (output.activate next.id)
    rw [hear_state _ _ _ hname]
    refine ⟨fun hid => ?_, fun source hsrc hid => ?_, fun source hsrc => ?_⟩
    · rw [activate_active] at hid
      exact absurd hid (hd.sourcesValid next hmem)
    · obtain ⟨old, hold, hsame, hsourceName⟩ := hsrcs source hsrc
      rw [activate_active, hsame] at hid
      rw [activate_name, hsourceName, ← eq_of_key hd.sourceIds hmem hold hid]
      exact update_self ..
    · obtain ⟨old, hold, hsame, hsourceName⟩ := hsrcs source hsrc
      rw [activate_name, activate_active, hsame, hsourceName]
      show update after.state output.name (update (after.state output.name) next.name (some .granted))
        output.name old.name = _ ↔ _
      rw [update_self]
      by_cases hid : next.id = old.id
      · rw [← eq_of_key hd.sourceIds hmem hold hid, update_self]
        exact iff_of_true rfl rfl
      · have hoth : old.name ≠ next.name := fun heq => hid (by rw [eq_of_key hd.sourceNames hold hmem heq])
        rw [update_of_ne hoth]
        exact iff_of_false (hdummy old hold hid) hid

theorem setActiveSource_truth (h : listener.Truth d) (hd : d.WellFormed) (outputName sourceName : String) :
    ((d.setActiveSource outputName sourceName).2.foldl Listener.hear listener).Truth
      (d.setActiveSource outputName sourceName).1 := by
  unfold Display.setActiveSource
  split
  · exact h
  next output hout =>
    have hmem := Display.findOutput_mem hout
    dsimp only
    split
    · refine activate_truth h hd hmem fun source hsrc => ?_
      cases hsrc
    · split
      · exact h
      next next hnext =>
        refine activate_truth h hd hmem fun source hsrc => ?_
        cases hsrc
        exact (Display.findSource_mem hnext).1

/-- A source that is `Revoked` is not active, and the others stay what they are. -/
theorem revoked_granted (h : listener.Knows d output) (hd : d.WellFormed) (hsrc : source ∈ d.sources)
    {other : SourceContext} (hoth : other ∈ d.sources) :
    update (listener.state output.name) source.name (some .revoked) other.name = some .granted ↔
      (output.clearActive source.id).activeSourceId = other.id := by
  unfold OutputContext.clearActive
  dsimp only
  by_cases hsame : other = source
  · rw [hsame, update_self]
    refine iff_of_false (by decide) ?_
    split
    · exact (hd.sourcesValid source hsrc).symm
    next hne => exact hne
  · have hname : other.name ≠ source.name := fun heq => hsame (eq_of_key hd.sourceNames hoth hsrc heq)
    have hid : source.id ≠ other.id := fun heq => hsame (eq_of_key hd.sourceIds hoth hsrc heq.symm)
    rw [update_of_ne hname, h.granted other hoth]
    split
    next hact =>
      rw [hact]
      exact iff_of_false hid (hd.sourcesValid other hoth).symm
    · exact .rfl

theorem releaseOutput_truth (h : listener.Truth d) (hd : d.WellFormed) (id : SourceId) (name : String) :
    ((d.releaseOutput id name).2.foldl Listener.hear listener).Truth (d.releaseOutput id name).1 := by
  unfold Display.releaseOutput
  split
  next source output hsrc hout =>
    obtain ⟨hsourceMem, rfl⟩ := Display.source?_mem hsrc
    have hmem := Display.findOutput_mem hout
    have hname := hd.outputsNamed output hmem
    have hknows := h output hmem
    have hsrcs := sameSources_setSource hsourceMem (source.requestedOutputs.erase output.name)
    have hid : ((output.clearActive source.id).dropPendingOf source.id).id = output.id := rfl
    refine h.set hd hmem hsrcs hid rfl (fun work hwork => ?_) ?_
    · rcases mem_append.mp hwork with hwork | hwork
      · rcases mem_append.mp hwork with hwork | hwork
        · split at hwork
          · rw [mem_singleton.mp hwork]
            exact .inr rfl
          · cases hwork
        · rw [mem_singleton.mp hwork]
          exact .inr (output_state _ _ hname)
      · exact .inl (output_completeAll hwork)
    rw [foldl_append, foldl_append, hear_completeAll]
    have hgrant : ∀ old ∈ d.sources, update (listener.state output.name) source.name (some .revoked) old.name =
        some .granted ↔ (output.clearActive source.id).activeSourceId = old.id :=
      fun old hold => revoked_granted hknows hd hsourceMem hold
    by_cases hact : output.activeSourceId = source.id
    · rw [if_pos hact]
      show ((listener.hear (.emitActiveSourceChanged output.name "")).hear
        (.emitSourceStateChanged source.name output.name .revoked)).Knows _ _
      rw [hear_state _ _ _ hname]
      have hclr : (output.clearActive source.id).activeSourceId = INVALID_SOURCE_ID := if_pos hact
      refine ⟨fun _ => update_self .., fun s hs hid => ?_, fun s hs => ?_⟩
      · obtain ⟨old, hold, hsame, -⟩ := hsrcs s hs
        rw [hsame] at hid
        exact absurd (hid.symm.trans hclr) (hd.sourcesValid old hold)
      · obtain ⟨old, hold, hsame, hsourceName⟩ := hsrcs s hs
        rw [hsame, hsourceName]
        refine Iff.trans (.of_eq ?_) (hgrant old hold)
        exact congrArg (fun state : String → Option SourceState => state old.name = some .granted) (update_self ..)
    · rw [if_neg hact]
      show (listener.hear (.emitSourceStateChanged source.name output.name .revoked)).Knows _ _
      rw [hear_state _ _ _ hname]
      have hclr : (output.clearActive source.id).activeSourceId = output.activeSourceId := if_neg hact
      refine ⟨fun hnone => hknows.none (hclr.symm.trans hnone), fun s hs hid => ?_, fun s hs => ?_⟩
      · obtain ⟨old, hold, hsame, hsourceName⟩ := hsrcs s hs
        rw [hsame] at hid
        rw [hsourceName]
        exact hknows.active old hold (hclr.symm.trans hid)
      · obtain ⟨old, hold, hsame, hsourceName⟩ := hsrcs s hs
        rw [hsame, hsourceName]
        refine Iff.trans (.of_eq ?_) (hgrant old hold)
        exact congrArg (fun state : String → Option SourceState => state old.name = some .granted) (update_self ..)
  · exact h

theorem unregisterOutput_truth (h : listener.Truth d) (hd : d.WellFormed) (id : OutputId) :
    ((d.unregisterOutput id).2.foldl Listener.hear listener).Truth (d.unregisterOutput id).1 := by
  unfold Display.unregisterOutput
  split
  · exact h
  next output hfind =>
    obtain ⟨hmem, hid⟩ := Display.output?_mem hfind
    have hname := hd.outputsNamed output hmem
    split
    · intro o ho
      obtain ⟨ho, hne⟩ := mem_filter.mp ho
      refine (h o ho).same ?_ rfl rfl (hear_others fun work hwork heq => ?_)
      · intro s hs
        obtain ⟨old, hold, rfl⟩ := List.mem_map.mp hs
        exact ⟨old, hold, rfl, rfl⟩
      · have hoth : output.name ≠ o.name := by
          intro hsame
          rw [← eq_of_key hd.outputNames hmem ho hsame] at hne
          exact bne_iff_ne.mp hne hid
        have habout : work.output = none ∨ work.output = some output.name := by
          rcases mem_append.mp hwork with hwork | hwork
          · rcases mem_append.mp hwork with hwork | hwork
            · rcases mem_append.mp hwork with hwork | hwork
              · split at hwork
                · rw [mem_singleton.mp hwork]
                  exact .inr rfl
                · cases hwork
              · obtain ⟨source, -, rfl⟩ := List.mem_map.mp hwork
                exact .inr (output_state _ _ hname)
            · exact .inl (output_completeAll hwork)
          · rw [mem_singleton.mp hwork]
            exact .inl rfl
        rcases habout with hnone | hsome
        · rw [hnone] at heq
          cases heq
        · exact hoth (some.inj (hsome.symm.trans heq))
    · exact h

theorem hear_cleared (source : String) {names : List String} (hnms : ∀ name ∈ names, name ≠ "") :
    let after := (names.flatMap fun name =>
      [.emitActiveSourceChanged name "", .emitSourceStateChanged source name .revoked]).foldl Listener.hear listener
    (∀ name ∈ names, after.active name = "") ∧ (∀ name ∉ names, after.active name = listener.active name) ∧
      (∀ name, ∀ other ≠ source, after.state name other = listener.state name other) ∧
      (∀ name ∉ names, after.state name = listener.state name) := by
  induction names generalizing listener with
  | nil => exact ⟨(fun _ hmem => by cases hmem), fun _ _ => rfl, fun _ _ _ => rfl, fun _ _ => rfl⟩
  | cons first names ih =>
    obtain ⟨h1, h2, h3, h4⟩ := @ih ((listener.hear (.emitActiveSourceChanged first "")).hear
      (.emitSourceStateChanged source first .revoked)) fun name hmem => hnms name (mem_cons_of_mem _ hmem)
    have hfst := hnms first mem_cons_self
    rw [hear_state _ _ _ hfst] at h1 h2 h3 h4
    rw [flatMap_cons, foldl_append]
    show (_ ∧ _ ∧ _ ∧ _ : Prop)
    rw [foldl_cons, foldl_cons, foldl_nil, hear_state _ _ _ hfst]
    refine ⟨fun name hmem => ?_, fun name hmem => ?_, fun name other hne => ?_, fun name hmem => ?_⟩
    · by_cases hin : name ∈ names
      · exact h1 name hin
      · obtain rfl := (mem_cons.mp hmem).resolve_right hin
        exact (h2 name hin).trans (update_self ..)
    · obtain ⟨hne, hnot⟩ := not_or.mp (mem_cons.not.mp hmem)
      exact (h2 name hnot).trans (update_of_ne hne ..)
    · refine (h3 name other hne).trans ?_
      show update listener.state first (update (listener.state first) source (some .revoked)) name other = _
      by_cases hsame : name = first
      · rw [hsame, update_self, update_of_ne hne]
      · rw [update_of_ne hsame]
    · obtain ⟨hne, hnot⟩ := not_or.mp (mem_cons.not.mp hmem)
      exact (h4 name hnot).trans (update_of_ne hne ..)

theorem unregisterSource_truth (h : listener.Truth d) (hd : d.WellFormed) (id : SourceId) :
    ((d.unregisterSource id).2.foldl Listener.hear listener).Truth (d.unregisterSource id).1 := by
  unfold Display.unregisterSource
  split
  · exact h
  next source hfind =>
    obtain ⟨hmem, rfl⟩ := Display.source?_mem hfind
    dsimp only
    rw [foldl_append, foldl_append, hear_completeAll, foldl_cons, foldl_nil,
      hear_of_none (output_empty source.name .revoked)]
    have hnms : ∀ name ∈ (d.outputs.filter (·.activeSourceId == source.id)).map OutputContext.name, name ≠ "" := by
      intro name hname
      obtain ⟨o, ho, rfl⟩ := List.mem_map.mp hname
      exact hd.outputsNamed o (mem_filter.mp ho).1
    obtain ⟨h1, h2, h3, h4⟩ := @hear_cleared listener source.name _ hnms
    intro o ho
    obtain ⟨old, hold, rfl⟩ := List.mem_map.mp ho
    have hknows := h old hold
    by_cases hact : old.activeSourceId = source.id
    · have hclr : (old.clearActive source.id).activeSourceId = INVALID_SOURCE_ID := if_pos hact
      refine ⟨fun _ => h1 old.name ?_, fun s hs hid => ?_, fun s hs => ?_⟩
      · exact List.mem_map_of_mem (mem_filter.mpr ⟨hold, beq_iff_eq.mpr hact⟩)
      · exact absurd (hid.symm.trans hclr) (hd.sourcesValid s (mem_filter.mp hs).1)
      · obtain ⟨hs, hne⟩ := mem_filter.mp hs
        have hid : s.id ≠ source.id := bne_iff_ne.mp hne
        have hoth : s.name ≠ source.name := fun heq => hid (by rw [eq_of_key hd.sourceNames hs hmem heq])
        have hstate := h3 old.name s.name hoth
        have hgrant : listener.state old.name s.name = some .granted ↔ old.activeSourceId = s.id := hknows.granted s hs
        rw [← hstate, hact] at hgrant
        refine hgrant.trans (iff_of_false hid.symm fun heq => ?_)
        exact hd.sourcesValid s hs (heq.symm.trans hclr)
    · have hclr : (old.clearActive source.id).activeSourceId = old.activeSourceId := if_neg hact
      have hnot : old.name ∉ (d.outputs.filter (·.activeSourceId == source.id)).map OutputContext.name := by
        intro hin
        obtain ⟨o, ho, hsame⟩ := List.mem_map.mp hin
        obtain ⟨ho, heq⟩ := mem_filter.mp ho
        rw [eq_of_key hd.outputNames ho hold hsame] at heq
        exact hact (beq_iff_eq.mp heq)
      refine hknows.same ?_ rfl hclr ⟨h2 old.name hnot, h4 old.name hnot⟩
      intro s hs
      exact ⟨s, (mem_filter.mp hs).1, rfl, rfl⟩

/-! ### Runs -/

/-- What the listener will know when everything that is due has been emitted in the order of the sections. -/
structure Announced (s : State) : Prop where
  wellFormed : s.display.WellFormed
  truth : (s.calls.flatten.foldl Listener.hear s.listener).Truth s.display

theorem Announced.call {outcome : Display × List Work} (hwell : outcome.1.WellFormed)
    (htruth : (outcome.2.foldl Listener.hear (s.calls.flatten.foldl Listener.hear s.listener)).Truth outcome.1) :
    Announced (s.call outcome) := by
  refine ⟨hwell, ?_⟩
  show ((s.calls ++ [outcome.2]).flatten.foldl Listener.hear s.listener).Truth outcome.1
  rw [deliver_append]
  exact htruth

theorem doWork_display (s : State) (work : Work) : (s.doWork work).display = s.display := by
  cases work <;> rfl

theorem doWork_calls (s : State) (work : Work) : (s.doWork work).calls = s.calls := by
  cases work <;> rfl

theorem doWork_listener (s : State) (work : Work) : (s.doWork work).listener = s.listener.hear work := by
  cases work <;> rfl

theorem Announced.doWork {k : ℕ} {calls : List (List Work)} (h : Announced s) (hk : takeHead s.calls k = some (work, calls))
    (hc : InOrder s (.work k)) : Announced ({ s with calls := calls }.doWork work) := by
  have hearly : ∀ other ∈ earlier s.calls k, Independent Listener.hear work other :=
    fun other hoth => hear_independent (hc k (by simp [Label.work?]) (work, calls) (by simp [hk]) other hoth)
  refine ⟨?_, ?_⟩
  · rw [doWork_display]
    exact h.wellFormed
  · rw [doWork_display, doWork_calls, doWork_listener, deliver_early hk hearly]
    exact h.truth

theorem announced_inductive : machine.Inductive (fun s label => label.ofSources ∧ InOrder s label) Announced where
  init s hs := by
    obtain ⟨hfresh, heq⟩ := hs
    refine ⟨hfresh.wellFormed, fun output hout => ?_⟩
    rw [heq]
    obtain ⟨hact, -⟩ := hfresh.idle output hout
    refine ⟨fun _ => rfl, fun source hsrc hid => ?_, fun source hsrc => ?_⟩
    · exact absurd (hid.symm.trans hact) (hfresh.wellFormed.sourcesValid source hsrc)
    · refine iff_of_false (by simp) fun hid => ?_
      exact hfresh.wellFormed.sourcesValid source hsrc (hid.symm.trans hact)
  step s label s' h hc hst := by
    have hst : step s label = some s' := hst
    obtain ⟨hlabel, horder⟩ := hc
    have hd := h.wellFormed
    cases label with
    | setActiveSource output source =>
      exact some.inj hst ▸ .call (hd.setActiveSource output source) (setActiveSource_truth h.truth hd output source)
    | releaseOutput id name =>
      exact some.inj hst ▸ .call (hd.releaseOutput id name) (releaseOutput_truth h.truth hd id name)
    | unregisterSource id =>
      exact some.inj hst ▸ .call (hd.unregisterSource id) (unregisterSource_truth h.truth hd id)
    | unregisterOutput id =>
      exact some.inj hst ▸ .call (hd.unregisterOutput id) (unregisterOutput_truth h.truth hd id)
    | work k =>
      obtain ⟨⟨work, calls⟩, hk, rfl⟩ := map_eq_some_iff.mp hst
      exact h.doWork hk horder
    | _ => exact absurd hlabel Bool.false_ne_true

theorem Announced.tellsTruth (h : Announced s) : s.TellsTruth := by
  intro hret
  have htruth := h.truth
  rw [flatten_eq_nil_iff.mpr hret] at htruth
  exact htruth

/-- **The last events tell the truth** in every run that emits the events about each output in the order of the
sections. -/
theorem events_tellTruth (h : machine.Reach (fun s label => label.ofSources ∧ InOrder s label) s) : s.TellsTruth :=
  (announced_inductive.reach h).tellsTruth

def twoSources : Display where
  outputs := [{ id := 1, name := "Output0", dynamicOutput := false }]
  sources := [{ id := 1, name := "video" }, { id := 2, name := "lvgl" }]
  nextOutputId := 2
  nextSourceId := 3

theorem twoSources_fresh : twoSources.Fresh := by
  refine ⟨⟨?_, ?_, ?_, ?_, ?_, ?_, ?_, ?_, ?_, ?_, ?_⟩, ?_, ?_⟩ <;> decide

def orderlyRun : List Label :=
  [.setActiveSource "Output0" "video", .work 0, .work 0, .setActiveSource "Output0" "lvgl", .work 1, .work 1, .work 1]

theorem events_tellTruth_orderlyRun :
    ∃ s, machine.execWhen (fun s label => label.ofSources ∧ InOrder s label) { display := twoSources } orderlyRun = some s ∧
      s.TellsTruth := by
  obtain ⟨s, hs⟩ := isSome_iff_exists.mp
    (by decide +kernel : (machine.execWhen (fun s label => label.ofSources ∧ InOrder s label) { display := twoSources }
      orderlyRun).isSome = true)
  exact ⟨s, hs, events_tellTruth (.execWhen (.init ⟨twoSources_fresh, rfl⟩) hs)⟩

def overtakenRun : List Label :=
  [.setActiveSource "Output0" "video", .setActiveSource "Output0" "lvgl", .work 1, .work 1, .work 1, .work 0, .work 0]

theorem events_tellTruth_overtakenRun : ¬ machine.Always State.TellsTruth { display := twoSources } overtakenRun := by
  intro halw
  obtain ⟨s, hs, hfacts⟩ := map_eq_some_iff.mp (by decide +kernel :
    (machine.exec { display := twoSources } overtakenRun).map (fun s =>
      (s.calls, s.display, s.listener.active "Output0")) =
        some ([[], []], ((twoSources.setActiveSource "Output0" "video").1.setActiveSource "Output0" "lvgl").1, "video"))
  obtain ⟨hcs, hfacts⟩ := Prod.mk.inj hfacts
  obtain ⟨hdisp, hheard⟩ := Prod.mk.inj hfacts
  have htruth := halw.exec hs (by rw [hcs]; simp)
  have hknows := htruth { id := 1, name := "Output0", dynamicOutput := false, activeSourceId := 2 }
    (by rw [hdisp]; decide +kernel)
  have hact := hknows.active { id := 2, name := "lvgl", requestedOutputs := {"Output0"} }
    (by rw [hdisp]; decide +kernel) rfl
  exact absurd (hheard.symm.trans hact) (by decide)

end Brookesia.DisplayService

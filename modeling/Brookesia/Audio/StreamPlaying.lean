import Brookesia.Audio.StreamAccounting

/-! # What the decoder plays

The chunks of a stream are fed in the order in which they were accepted, in every run. A chunk goes to a HAL decoder that is
started for its source with the configuration of its stream in every run in which a stream that is played is only opened
again with its own configuration, and the HAL decoder is not started for a source while a chunk of another is in the air
(`Orderly`). -/

namespace Brookesia.Audio

open Transition List Option

namespace AudioDecoder

def ofStream (key : StreamKey) (chunks : List Chunk) : List Chunk :=
  chunks.filter (·.key == key)

structure Plays (s : AudioDecoder) : Prop where
  suited : s.mixed = false
  order : ∀ key, (ofStream key s.fed).Sublist (ofStream key s.accepted)

variable {s s' : AudioDecoder} {key : StreamKey} {chunk : Chunk}

theorem ofStream_append (key : StreamKey) (l m : List Chunk) :
    ofStream key (l ++ m) = ofStream key l ++ ofStream key m :=
  filter_append l m

theorem ofStream_self (h : chunk.key = key) : ofStream key [chunk] = [chunk] := by
  unfold ofStream
  simp [h]

theorem ofStream_other (h : chunk.key ≠ key) : ofStream key [chunk] = [] := by
  unfold ofStream
  simp [h]

/-! ### Order -/

/-- What has been fed, what is in the air and what is queued of a stream, in this order, is part of what it has accepted. -/
structure Ordered (s : AudioDecoder) : Prop where
  queues : ∀ stream ∈ s.streams, ∀ chunk ∈ stream.queue, chunk.key = stream.key
  taken : ∀ key, (ofStream key (s.fed ++ s.flight.toList)).Sublist (ofStream key s.accepted)
  order : ∀ stream ∈ s.streams,
    (ofStream stream.key (s.fed ++ s.flight.toList) ++ stream.queue).Sublist (ofStream stream.key s.accepted)

theorem Ordered.thin (h : s.Ordered) (hfed : s'.fed = s.fed) (hfli : s'.flight = s.flight)
    (hacc : s'.accepted = s.accepted)
    (hstreams : ∀ stream ∈ s'.streams, stream.queue = [] ∨ ∃ old ∈ s.streams, old.key = stream.key ∧ old.queue = stream.queue) :
    s'.Ordered := by
  refine ⟨fun stream hstrm => ?_, fun key => ?_, fun stream hstrm => ?_⟩
  · rcases hstreams stream hstrm with hemp | ⟨old, hold, hkey, hque⟩
    · rw [hemp]
      exact fun chunk hchunk => absurd hchunk not_mem_nil
    · rw [← hkey, ← hque]
      exact h.queues old hold
  · rw [hfed, hfli, hacc]
    exact h.taken key
  · rw [hfed, hfli, hacc]
    rcases hstreams stream hstrm with hemp | ⟨old, hold, hkey, hque⟩
    · rw [hemp, append_nil]
      exact h.taken stream.key
    · rw [← hkey, ← hque]
      exact h.order old hold

theorem Ordered.same (h : s.Ordered) (hfed : s'.fed = s.fed) (hfli : s'.flight = s.flight)
    (hacc : s'.accepted = s.accepted) (hstreams : s'.streams = s.streams) : s'.Ordered :=
  h.thin hfed hfli hacc fun stream hstrm => .inr ⟨stream, hstreams ▸ hstrm, rfl, rfl⟩

theorem Ordered.ensureHalDecoder (h : s.Ordered) (key : StreamKey) (starts : Bool) :
    (s.ensureHalDecoder key starts).2.Ordered := by
  obtain ⟨halDecoder, activeHalKey, heq⟩ := s.ensureHalDecoder_display key starts
  rw [heq]
  exact h.same rfl rfl rfl rfl

theorem Ordered.deactivate (h : s.Ordered) (p : OutputContext → Bool) : (s.deactivate p).Ordered := by
  obtain ⟨halDecoder, activeHalKey, outputs, heq⟩ := s.deactivate_display p
  rw [heq]
  exact h.same rfl rfl rfl rfl

theorem Ordered.eraseStreams (h : s.Ordered) (p : StreamContext → Bool) : (s.eraseStreams p).Ordered :=
  h.thin rfl rfl rfl fun stream hstrm => .inr ⟨stream, mem_of_mem_filter hstrm, rfl, rfl⟩

theorem Ordered.enqueue (h : s.Ordered) {stream : StreamContext} (hmem : stream ∈ s.streams)
    (hkey : stream.key = chunk.key) : (s.enqueue stream chunk).Ordered := by
  have hacc : ∀ key, ofStream key (s.enqueue stream chunk).accepted =
      ofStream key s.accepted ++ ofStream key [chunk] := fun key => ofStream_append key s.accepted [chunk]
  refine ⟨fun other hoth => ?_, fun key => ?_, fun other hoth => ?_⟩
  · rcases mem_replace hoth with rfl | ⟨hoth, -⟩
    · refine forall_mem_append.mpr ⟨h.queues stream hmem, forall_mem_singleton.mpr hkey.symm⟩
    · exact h.queues other hoth
  · rw [hacc]
    exact (h.taken key).trans (sublist_append_left _ _)
  · rw [hacc]
    rcases mem_replace hoth with rfl | ⟨hoth, -⟩
    · rw [ofStream_self hkey.symm, ← append_assoc]
      exact (h.order stream hmem).append (Sublist.refl _)
    · exact (h.order other hoth).trans (sublist_append_left _ _)

theorem Ordered.tryWrite (h : s.Ordered) (chunk : Chunk) (waits : Bool) : (s.tryWrite chunk waits).Ordered := by
  unfold AudioDecoder.tryWrite
  split
  · exact h.same rfl rfl rfl rfl
  · rename_i stream hstrm
    obtain ⟨hmem, hkey, -⟩ := streamFor_eq_ok hstrm
    split_ifs
    · exact h.enqueue hmem hkey
    · exact h.same rfl rfl rfl rfl
    · exact h.same rfl rfl rfl rfl

theorem Ordered.take (h : s.Ordered) (hst : s.take = some s') : s'.Ordered := by
  unfold AudioDecoder.take at hst
  split at hst
  · rename_i stream hfli hnext
    split at hst
    · cases hst
    · rename_i chunk rest hque
      cases hst
      have hmem := nextStream_mem hnext
      have hkey : chunk.key = stream.key := h.queues stream hmem chunk (hque ▸ mem_cons_self)
      have horder := h.order stream hmem
      have htaken := h.taken
      rw [hfli, toList_none, append_nil] at horder
      simp only [hfli, toList_none, append_nil] at htaken
      rw [hque, ← singleton_append, ← append_assoc] at horder
      refine ⟨fun other hoth => ?_, fun key => ?_, fun other hoth => ?_⟩
      · rcases mem_replace hoth with rfl | ⟨hoth, -⟩
        · exact fun other hoth => h.queues stream hmem other (hque ▸ mem_cons_of_mem _ hoth)
        · exact h.queues other hoth
      · show (ofStream key (s.fed ++ [chunk])).Sublist (ofStream key s.accepted)
        rw [ofStream_append]
        by_cases heq : chunk.key = key
        · subst heq
          rw [ofStream_self rfl, hkey]
          exact (sublist_append_left _ _).trans horder
        · rw [ofStream_other heq, append_nil]
          exact htaken key
      · show (ofStream other.key (s.fed ++ [chunk]) ++ other.queue).Sublist (ofStream other.key s.accepted)
        rw [ofStream_append]
        rcases mem_replace hoth with rfl | ⟨hoth, hne⟩
        · rw [ofStream_self hkey]
          exact horder
        · have hold := h.order other hoth
          rw [hfli, toList_none, append_nil] at hold
          have hoth : chunk.key ≠ other.key := fun heq => hne (heq.symm.trans hkey)
          rw [ofStream_other hoth, append_nil]
          exact hold
  · cases hst

theorem Ordered.feed (h : s.Ordered) {takes : Bool} (hst : s.feed takes = some s') : s'.Ordered := by
  unfold AudioDecoder.feed at hst
  split at hst
  · cases hst
  · rename_i chunk hfli
    have htaken := h.taken
    have horder := h.order
    simp only [hfli, toList_some] at htaken horder
    dsimp only at hst
    split at hst
    · -- it is dropped
      cases hst
      have hfed : ∀ key, (ofStream key s.fed).Sublist (ofStream key (s.fed ++ [chunk])) := fun key =>
        (sublist_append_left _ _).filter _
      refine ⟨h.queues, fun key => ?_, fun stream hstrm => ?_⟩
      · show (ofStream key (s.fed ++ [])).Sublist (ofStream key s.accepted)
        rw [append_nil]
        exact (hfed key).trans (htaken key)
      · show (ofStream stream.key (s.fed ++ []) ++ stream.queue).Sublist (ofStream stream.key s.accepted)
        rw [append_nil]
        exact ((hfed stream.key).append (Sublist.refl _)).trans (horder stream hstrm)
    · cases hst
      refine ⟨h.queues, fun key => ?_, fun stream hstrm => ?_⟩
      · show (ofStream key (s.fed ++ [chunk] ++ [])).Sublist (ofStream key s.accepted)
        rw [append_nil]
        exact htaken key
      · show (ofStream stream.key (s.fed ++ [chunk] ++ []) ++ stream.queue).Sublist (ofStream stream.key s.accepted)
        rw [append_nil]
        exact horder stream hstrm

theorem ordered_step {label : Label} (h : s.Ordered) (hst : s.step label = some s') : s'.Ordered := by
  cases label with
  | onStart =>
    have hst : s.onStart = some s' := hst
    unfold AudioDecoder.onStart at hst
    split at hst
    · cases hst
    · cases hst
      exact h.same rfl rfl rfl rfl
  | onStop =>
    cases hst
    have hstop : s.stopHalDecoder.Ordered := h.same rfl rfl rfl rfl
    exact (hstop.eraseStreams fun _ => true).same rfl rfl rfl rfl
  | registerSource id name =>
    cases hst
    unfold registerSource
    split_ifs
    all_goals exact h.same rfl rfl rfl rfl
  | unregisterSource sourceId =>
    cases hst
    unfold unregisterSource
    split
    · exact h
    · exact ((h.deactivate _).eraseStreams _).same rfl rfl rfl rfl
  | requestOutput key =>
    cases hst
    unfold requestOutput
    split
    · exact h.same rfl rfl rfl rfl
    · exact h
  | releaseOutput key =>
    cases hst
    unfold releaseOutput
    split
    · exact ((h.deactivate _).eraseStreams _).same rfl rfl rfl rfl
    · exact h
  | setActiveSource outputName sourceName starts =>
    cases hst
    unfold setActiveSource
    split
    · split_ifs
      · exact h
      · exact h
      · refine Ordered.ensureHalDecoder ?_ _ _
        refine h.thin rfl rfl rfl fun stream hstrm => .inl ?_
        obtain ⟨old, -, rfl⟩ := List.mem_map.mp hstrm
        rfl
    · exact h
  | openStream key config starts =>
    cases hst
    unfold openStream
    split
    · split
      · exact h
      · have hopened : (s.putStream key config).Ordered := by
          refine h.thin rfl rfl rfl fun stream hstrm => ?_
          rcases mem_append.mp hstrm with hold | hnew
          · exact .inr ⟨stream, mem_of_mem_filter hold, rfl, rfl⟩
          · exact .inl (mem_singleton.mp hnew ▸ rfl)
        dsimp only
        split
        · exact hopened.ensureHalDecoder _ _
        · exact hopened
    · exact h
  | closeStream key =>
    cases hst
    unfold closeStream
    split
    · dsimp only
      split
      · have hstop : s.stopHalDecoder.Ordered := h.same rfl rfl rfl rfl
        exact hstop.eraseStreams _
      · exact h.eraseStreams _
    · exact h
  | write key size borrowed waits =>
    cases hst
    have hcald : Ordered { s with calls := s.calls + 1 } := h.same rfl rfl rfl rfl
    unfold AudioDecoder.write
    dsimp only
    split
    · exact hcald.same rfl rfl rfl rfl
    · exact hcald.tryWrite _ _
  | wake i timedOut =>
    obtain ⟨chunk, hchunk, rfl⟩ := map_eq_some_iff.mp (show s.wake i timedOut = some s' from hst)
    have hawake : Ordered { s with waiting := s.waiting.eraseIdx i } := h.same rfl rfl rfl rfl
    exact hawake.tryWrite _ _
  | take => exact h.take hst
  | feed takes => exact h.feed hst
  | halEnds =>
    cases hst
    exact h.same rfl rfl rfl rfl

/-! ### The HAL decoder -/

/-- There is one output, and all chunks are of streams of it. -/
structure Tidy (s : AudioDecoder) : Prop where
  outputs : s.outputs = [] ∨ ∃ output, s.outputs = [output] ∧ output.name = DECODER_OUTPUT_NAME
  keys : (s.streams.map StreamContext.key).Nodup
  named : ∀ stream ∈ s.streams, stream.key.outputName = DECODER_OUTPUT_NAME
  flying : ∀ chunk, s.flight = some chunk → chunk.key.outputName = DECODER_OUTPUT_NAME
  suited : s.mixed = false

/-- The HAL decoder is started for the stream that is played, and what is in the air is of this stream. -/
structure Tuned (s : AudioDecoder) : Prop extends s.Tidy where
  off : s.decoderIface = false → s.halDecoder = none
  active : s.halDecoder.isSome → s.isSourceActive s.activeHalKey
  config : s.halDecoder.isSome → ∃ stream ∈ s.streams, stream.key = s.activeHalKey ∧
    s.halDecoder = some stream.config.toAudioDecoderDynamicConfig
  own : s.halDecoder.isSome → ∀ chunk, s.flight = some chunk → chunk.key = s.activeHalKey

theorem Tidy.tuned (h : s.Tidy) (hoff : s.halDecoder = none) : s.Tuned := by
  have hnot : ¬ s.halDecoder.isSome := by
    rw [hoff]
    exact Bool.false_ne_true
  exact ⟨h, fun _ => hoff, fun hon => absurd hon hnot, fun hon => absurd hon hnot, fun hon => absurd hon hnot⟩

theorem Tidy.findOutput (h : s.Tidy) {outputName : String} {output : OutputContext}
    (hfind : s.findOutput outputName = some output) :
    outputName = DECODER_OUTPUT_NAME ∧ s.outputs = [output] := by
  unfold AudioDecoder.findOutput at hfind
  obtain ⟨hmem, hname⟩ := find?_key_mem hfind
  rcases h.outputs with hemp | ⟨single, hsgl, hdec⟩
  · rw [hemp] at hmem
    cases hmem
  · rw [hsgl, mem_singleton] at hmem
    subst hmem
    exact ⟨hname.symm.trans hdec, hsgl⟩

theorem Tidy.isSourceActive (h : s.Tidy) (hact : s.isSourceActive key = true) :
    s.outputs = [⟨DECODER_OUTPUT_NAME, key.sourceId⟩] ∧ key.outputName = DECODER_OUTPUT_NAME := by
  unfold AudioDecoder.isSourceActive at hact
  split at hact
  · cases hact
  · rename_i output hfind
    obtain ⟨hname, houts⟩ := h.findOutput hfind
    rcases h.outputs with hemp | ⟨single, hsgl, hdec⟩
    · rw [hemp] at houts
      cases houts
    · rw [houts, cons.injEq] at hsgl
      rw [houts]
      refine ⟨?_, hname⟩
      obtain ⟨name, activeSourceId⟩ := output
      rw [← hsgl.1] at hdec
      rw [show name = DECODER_OUTPUT_NAME from hdec, show activeSourceId = key.sourceId from beq_iff_eq.mp hact]

theorem Tidy.active_unique (h : s.Tidy) {key' : StreamKey} (hact : s.isSourceActive key = true)
    (hact' : s.isSourceActive key' = true) : key = key' := by
  obtain ⟨houts, hname⟩ := h.isSourceActive hact
  obtain ⟨houts', hname'⟩ := h.isSourceActive hact'
  rw [houts, cons.injEq, OutputContext.mk.injEq] at houts'
  obtain ⟨sourceId, outputName⟩ := key
  obtain ⟨sourceId', outputName'⟩ := key'
  rw [StreamKey.mk.injEq]
  exact ⟨houts'.1.2, hname.trans hname'.symm⟩

theorem Tidy.findStream (h : s.Tidy) {stream : StreamContext} (hmem : stream ∈ s.streams) :
    s.findStream stream.key = some stream := by
  unfold AudioDecoder.findStream
  exact find?_key h.keys hmem rfl

theorem Tidy.eraseStreams (h : s.Tidy) (p : StreamContext → Bool) : (s.eraseStreams p).Tidy :=
  ⟨h.outputs, h.keys.sublist (filter_sublist.map _),
    fun stream hstrm => h.named stream (mem_of_mem_filter hstrm), h.flying, h.suited⟩

theorem Tuned.eraseStreams (h : s.Tuned) {p : StreamContext → Bool}
    (hp : s.halDecoder.isSome → ∀ stream : StreamContext, stream.key = s.activeHalKey → p stream = false) :
    (s.eraseStreams p).Tuned := by
  refine ⟨h.toTidy.eraseStreams p, h.off, h.active, fun hon => ?_, h.own⟩
  obtain ⟨stream, hstrm, hkey, hcfg⟩ := h.config hon
  refine ⟨stream, mem_filter.mpr ⟨hstrm, ?_⟩, hkey, hcfg⟩
  rw [hp hon stream hkey]
  rfl

theorem Tidy.deactivate (h : s.Tidy) (p : OutputContext → Bool) : (s.deactivate p).Tidy := by
  unfold AudioDecoder.deactivate
  split
  · refine ⟨?_, h.keys, h.named, h.flying, h.suited⟩
    rcases h.outputs with hemp | ⟨output, hout, hname⟩
    · refine .inl ?_
      show s.outputs.map _ = []
      rw [hemp, map_nil]
    · refine .inr ⟨_, by show s.outputs.map _ = _; rw [hout, map_singleton], ?_⟩
      split
      · exact hname
      · exact hname
  · exact h

theorem Tuned.deactivate (h : s.Tuned) {p : OutputContext → Bool} {q : StreamContext → Bool}
    (hpq : ∀ stream : StreamContext, q stream = true → p ⟨stream.key.outputName, stream.key.sourceId⟩ = true) :
    ((s.deactivate p).eraseStreams q).Tuned := by
  by_cases hany : s.outputs.any p
  · refine ((h.toTidy.deactivate p).eraseStreams q).tuned ?_
    unfold AudioDecoder.deactivate
    rw [if_pos hany]
    rfl
  · have hsame : s.deactivate p = s := by
      unfold AudioDecoder.deactivate
      rw [if_neg hany]
    rw [hsame]
    refine h.eraseStreams fun hon stream hkey => Bool.eq_false_iff.mpr fun hq => hany ?_
    obtain ⟨houts, hname⟩ := h.isSourceActive (h.active hon)
    have hp := hpq stream hq
    rw [hkey, hname] at hp
    rw [houts, any_cons, hp, Bool.true_or]

theorem Tuned.ensureHalDecoder (h : s.Tuned) {starts : Bool} (hact : s.isSourceActive key = true)
    (hfli : starts = true → ∀ chunk, s.flight = some chunk → chunk.key.sourceId = key.sourceId) :
    (s.ensureHalDecoder key starts).2.Tuned := by
  unfold AudioDecoder.ensureHalDecoder
  split
  · exact h
  · rename_i stream hfind
    unfold AudioDecoder.findStream at hfind
    obtain ⟨hmem, hkey⟩ := find?_key_mem hfind
    split_ifs with hopened hsame hiface hstarts
    · exact h
    · exact h
    · exact h
    · refine ⟨⟨h.outputs, h.keys, h.named, h.flying, h.suited⟩, fun hoff => absurd hoff hiface, fun _ => hact,
        fun _ => ⟨stream, hmem, hkey, rfl⟩, fun _ chunk hchunk => ?_⟩
      have hsrc := hfli hstarts chunk hchunk
      have hname := (h.flying chunk hchunk).trans (h.isSourceActive hact).2.symm
      show chunk.key = key
      obtain ⟨sourceId, outputName⟩ := key
      rw [← show chunk.key.sourceId = sourceId from hsrc, ← show chunk.key.outputName = outputName from hname]
    · exact Tidy.tuned ⟨h.outputs, h.keys, h.named, h.flying, h.suited⟩ rfl

/-- The condition: a stream that is played is opened again with its own configuration only, and the HAL decoder is not
started for a source while a chunk of another is in the air. -/
def Orderly (s : AudioDecoder) : Label → Prop
  | .openStream key config starts => s.isSourceActive key = true →
    (s.halDecoder.isSome → s.halDecoder = some config.toAudioDecoderDynamicConfig) ∧
      (starts = true → ∀ chunk ∈ s.flight, chunk.key.sourceId = key.sourceId)
  | .setActiveSource outputName sourceName starts => starts = true → ∀ source ∈ s.findSourceByName sourceName,
    s.isSourceActive ⟨source.id, outputName⟩ = false → (s.findStream ⟨source.id, outputName⟩).isSome →
      ∀ chunk ∈ s.flight, chunk.key.sourceId = source.id
  | _ => True

theorem Tuned.same (h : s.Tuned) (houts : s'.outputs = s.outputs) (hstreams : s'.streams = s.streams)
    (hfli : s'.flight = s.flight) (hmixed : s'.mixed = s.mixed) (hiface : s'.decoderIface = s.decoderIface)
    (hhal : s'.halDecoder = s.halDecoder) (hkey : s'.activeHalKey = s.activeHalKey) : s'.Tuned := by
  have hact : ∀ key, s'.isSourceActive key = s.isSourceActive key := by
    intro key
    unfold AudioDecoder.isSourceActive AudioDecoder.findOutput
    rw [houts]
  refine ⟨⟨houts ▸ h.outputs, hstreams ▸ h.keys, hstreams ▸ h.named, hfli ▸ h.flying, hmixed ▸ h.suited⟩, ?_, ?_, ?_, ?_⟩
  · rw [hiface, hhal]
    exact h.off
  · rw [hhal, hkey, hact]
    exact h.active
  · rw [hhal, hkey, hstreams]
    exact h.config
  · rw [hhal, hkey, hfli]
    exact h.own

theorem Tidy.activate (h : s.Tidy) (outputName : String) (sourceId : SourceId) : (s.activate outputName sourceId).Tidy := by
  refine ⟨?_, ?_, fun stream hstrm => ?_, h.flying, h.suited⟩
  · rcases h.outputs with hemp | ⟨output, hout, hname⟩
    · refine .inl ?_
      show s.outputs.map _ = []
      rw [hemp, map_nil]
    · refine .inr ⟨_, by show s.outputs.map _ = _; rw [hout, map_singleton], ?_⟩
      split
      · exact hname
      · exact hname
  · show ((s.streams.map StreamContext.cleared).map StreamContext.key).Nodup
    rw [List.map_map]
    exact h.keys
  · obtain ⟨old, hold, rfl⟩ := List.mem_map.mp hstrm
    exact h.named old hold

theorem Tidy.activate_active (h : s.Tidy) {outputName : String} {output : OutputContext}
    (hfind : s.findOutput outputName = some output) (sourceId : SourceId) :
    (s.activate outputName sourceId).isSourceActive ⟨sourceId, outputName⟩ = true := by
  obtain ⟨-, houts⟩ := h.findOutput hfind
  unfold AudioDecoder.findOutput at hfind
  have hname := (find?_key_mem hfind).2
  have hmap : (s.activate outputName sourceId).outputs = [{ output with activeSourceId := sourceId }] := by
    unfold AudioDecoder.activate
    dsimp only
    rw [houts, map_singleton, if_pos hname]
  unfold AudioDecoder.isSourceActive AudioDecoder.findOutput
  rw [hmap]
  simp [hname]

theorem Tuned.setActiveSource (h : s.Tuned) {outputName sourceName : String} {starts : Bool}
    (hc : Orderly s (.setActiveSource outputName sourceName starts)) :
    (s.setActiveSource outputName sourceName starts).Tuned := by
  unfold AudioDecoder.setActiveSource
  split
  · rename_i output source hout hsrc
    split_ifs with hreqd hsame
    · exact h
    · exact h
    · have htuned : (s.activate outputName source.id).Tuned := (h.toTidy.activate outputName source.id).tuned rfl
      by_cases hopened : (s.findStream ⟨source.id, outputName⟩).isSome
      · refine htuned.ensureHalDecoder (h.toTidy.activate_active hout source.id) fun hstarts chunk hchunk => ?_
        refine hc hstarts source hsrc ?_ hopened chunk hchunk
        unfold AudioDecoder.isSourceActive
        rw [hout]
        exact beq_eq_false_iff_ne.mpr hsame
      · -- there is nothing to start the HAL decoder for
        have hnone : (s.activate outputName source.id).findStream ⟨source.id, outputName⟩ = none := by
          have hnone := not_isSome_iff_eq_none.mp hopened
          unfold AudioDecoder.findStream at hnone ⊢
          show (s.streams.map StreamContext.cleared).find? _ = none
          rw [List.find?_map, map_eq_none_iff]
          exact hnone
        have hstays : ((s.activate outputName source.id).ensureHalDecoder ⟨source.id, outputName⟩ starts).2 =
            s.activate outputName source.id := by
          unfold AudioDecoder.ensureHalDecoder
          rw [hnone]
        rw [hstays]
        exact htuned
  · exact h

theorem Tidy.putStream (h : s.Tidy) (hname : key.outputName = DECODER_OUTPUT_NAME) (config : AudioStreamConfig) :
    (s.putStream key config).Tidy := by
  have hers := h.eraseStreams (·.key == key)
  refine ⟨h.outputs, ?_, forall_mem_append.mpr ⟨hers.named, forall_mem_singleton.mpr hname⟩, h.flying, h.suited⟩
  unfold AudioDecoder.putStream
  dsimp only
  rw [map_append, nodup_append]
  refine ⟨hers.keys, nodup_singleton _, fun k hk k' hk' heq => ?_⟩
  rw [map_singleton, mem_singleton] at hk'
  obtain ⟨stream, hstrm, rfl⟩ := List.mem_map.mp hk
  have hoth := (mem_filter.mp hstrm).2
  simp [heq.trans hk'] at hoth

theorem withDefault_config (config : AudioStreamConfig) :
    config.withDefault.toAudioDecoderDynamicConfig = config.toAudioDecoderDynamicConfig := by
  unfold AudioStreamConfig.withDefault
  split
  · rfl
  · rfl

theorem Tuned.openStream (h : s.Tuned) {config : AudioStreamConfig} {starts : Bool}
    (hc : Orderly s (.openStream key config starts)) : (s.openStream key config starts).Tuned := by
  unfold AudioDecoder.openStream
  split
  · rename_i source output hsrc hout
    have hname : key.outputName = DECODER_OUTPUT_NAME := (h.toTidy.findOutput hout).1
    have hput : (s.putStream key config).Tuned := by
      refine ⟨h.toTidy.putStream hname config, h.off, h.active, fun hon => ?_, h.own⟩
      by_cases hkey : s.activeHalKey = key
      · -- the stream that is played has the configuration that it had
        have hcfg := (hc (hkey ▸ h.active hon)).1 hon
        refine ⟨_, mem_append_right _ (mem_singleton.mpr rfl), hkey.symm, ?_⟩
        rw [withDefault_config]
        exact hcfg
      · obtain ⟨stream, hstrm, hold, hcfg⟩ := h.config hon
        refine ⟨stream, mem_append_left _ (mem_filter.mpr ⟨hstrm, ?_⟩), hold, hcfg⟩
        simp [hold, hkey]
    dsimp only
    split_ifs with hreqd hact
    · exact h
    · exact hput.ensureHalDecoder hact fun hstarts chunk hchunk => (hc hact).2 hstarts chunk hchunk
    · exact hput
  · exact h

theorem Tuned.closeStream (h : s.Tuned) (key : StreamKey) : (s.closeStream key).Tuned := by
  unfold AudioDecoder.closeStream
  split
  · dsimp only
    split_ifs with hact
    · have hstop : s.stopHalDecoder.Tidy := ⟨h.outputs, h.keys, h.named, h.flying, h.suited⟩
      exact (hstop.eraseStreams _).tuned rfl
    · refine h.eraseStreams fun hon stream hkey => beq_eq_false_iff_ne.mpr fun heq => hact ?_
      rw [← heq, hkey]
      exact h.active hon
  · exact h

theorem Tuned.setQueue (h : s.Tuned) {stream stream' : StreamContext} (hmem : stream ∈ s.streams)
    (hkey : stream'.key = stream.key) (hcfg : stream'.config = stream.config) {flight : Option Chunk}
    (hfli : ∀ chunk, flight = some chunk → chunk.key.outputName = DECODER_OUTPUT_NAME ∧
      (s.halDecoder.isSome → chunk.key = s.activeHalKey)) :
    Tuned { s with streams := replace StreamContext.key stream' s.streams, flight := flight } := by
  refine ⟨⟨h.outputs, ?_, fun other hoth => ?_, fun chunk hchunk => (hfli chunk hchunk).1, h.suited⟩, h.off, h.active,
    fun hon => ?_, fun hon chunk hchunk => (hfli chunk hchunk).2 hon⟩
  · show ((replace StreamContext.key stream' s.streams).map StreamContext.key).Nodup
    rw [keys_replace]
    exact h.keys
  · rcases mem_replace hoth with rfl | ⟨hoth, -⟩
    · rw [hkey]
      exact h.named stream hmem
    · exact h.named other hoth
  · obtain ⟨played, hplay, hact, hsame⟩ := h.config hon
    by_cases heq : played.key = stream'.key
    · refine ⟨stream', mem_replace_self hplay heq, heq.symm.trans hact, ?_⟩
      rw [hcfg, ← eq_of_key h.keys hplay hmem (heq.trans hkey)]
      exact hsame
    · exact ⟨played, mem_replace_other hplay heq, hact, hsame⟩

theorem Tuned.tryWrite (h : s.Tuned) (chunk : Chunk) (waits : Bool) : (s.tryWrite chunk waits).Tuned := by
  unfold AudioDecoder.tryWrite
  split
  · exact h.same rfl rfl rfl rfl rfl rfl rfl
  · rename_i stream hstrm
    split_ifs
    · have hset := @Tuned.setQueue _ h stream { stream with
        queue := stream.queue ++ [chunk], queuedBytes := stream.queuedBytes + chunk.size } (streamFor_eq_ok hstrm).1 rfl rfl _
        fun flying hflying => ⟨h.flying flying hflying, fun hon => h.own hon flying hflying⟩
      exact hset.same rfl rfl rfl rfl rfl rfl rfl
    · exact h.same rfl rfl rfl rfl rfl rfl rfl
    · exact h.same rfl rfl rfl rfl rfl rfl rfl

theorem nextStream_active (h : s.Tidy) {stream : StreamContext} (hnext : s.nextStream = some stream) :
    s.isSourceActive stream.key = true := by
  unfold nextStream at hnext
  obtain ⟨output, hout, hfnd⟩ := exists_of_findSome?_eq_some hnext
  split at hfnd
  · cases hfnd
  · obtain ⟨source, hsrc, hfilt⟩ := bind_eq_some_iff.mp hfnd
    obtain ⟨hfind, -⟩ := filter_eq_some_iff.mp hfilt
    unfold AudioDecoder.findStream at hfind
    have hkey := (find?_key_mem hfind).2
    have hid := (findSourceById_mem hsrc).2
    rcases h.outputs with hemp | ⟨single, hsgl, hname⟩
    · rw [hemp] at hout
      cases hout
    · rw [hsgl, mem_singleton] at hout
      subst hout
      unfold AudioDecoder.isSourceActive AudioDecoder.findOutput
      rw [hsgl, hkey]
      simp [hid]

theorem Tuned.take (h : s.Tuned) (hord : s.Ordered) (hst : s.take = some s') : s'.Tuned := by
  unfold AudioDecoder.take at hst
  split at hst
  · rename_i stream hfli hnext
    split at hst
    · cases hst
    · rename_i chunk rest hque
      cases hst
      have hmem := nextStream_mem hnext
      have hkey : chunk.key = stream.key := hord.queues stream hmem chunk (hque ▸ mem_cons_self)
      refine @Tuned.setQueue _ h stream { stream with
        queue := rest, queuedBytes := stream.queuedBytes - chunk.size } hmem rfl rfl _ fun other hoth => ?_
      cases hoth
      rw [hkey]
      exact ⟨h.named stream hmem, fun hon => h.toTidy.active_unique (nextStream_active h.toTidy hnext) (h.active hon)⟩
  · cases hst

theorem Tuned.suits (h : s.Tuned) (hon : s.halDecoder.isSome) (hfli : s.flight = some chunk) : s.suits chunk = true := by
  obtain ⟨stream, hstrm, hkey, hcfg⟩ := h.config hon
  have hown := h.own hon chunk hfli
  have hfind := h.toTidy.findStream hstrm
  unfold AudioDecoder.suits
  rw [hown, ← hkey, hfind, hcfg]
  simp [hkey]

theorem Tuned.feed (h : s.Tuned) {takes : Bool} (hst : s.feed takes = some s') : s'.Tuned := by
  have hland : Tuned { s with flight := none } :=
    ⟨⟨h.outputs, h.keys, h.named, fun _ hchunk => absurd hchunk (some_ne_none _).symm, h.suited⟩, h.off, h.active,
      h.config, fun _ _ hchunk => absurd hchunk (some_ne_none _).symm⟩
  unfold AudioDecoder.feed at hst
  split at hst
  · cases hst
  · rename_i chunk hfli
    dsimp only at hst
    split at hst
    · cases hst
      exact hland.same rfl rfl rfl rfl rfl rfl rfl
    · rename_i hon
      cases hst
      have hsome : s.halDecoder.isSome := by
        rw [isSome_iff_ne_none]
        intro hnone
        exact hon (.inr (by rw [hnone]; rfl))
      refine hland.same rfl rfl rfl ?_ rfl rfl rfl
      show (s.mixed || !s.suits chunk) = s.mixed
      rw [h.suits hsome hfli]
      simp

theorem tuned_step {label : Label} (h : s.Tuned) (hord : s.Ordered) (hc : Orderly s label)
    (hst : s.step label = some s') : s'.Tuned := by
  cases label with
  | onStart =>
    have hst : s.onStart = some s' := hst
    unfold AudioDecoder.onStart at hst
    split at hst
    · cases hst
    · rename_i hiface
      cases hst
      refine Tidy.tuned ⟨.inr ⟨_, rfl, rfl⟩, h.keys, h.named, h.flying, h.suited⟩ ?_
      exact h.off (Bool.eq_false_iff.mpr hiface)
  | onStop =>
    cases hst
    have hers := h.toTidy.eraseStreams fun _ => true
    exact Tidy.tuned ⟨.inl rfl, hers.keys, hers.named, h.flying, h.suited⟩ rfl
  | registerSource id name =>
    cases hst
    unfold registerSource
    split_ifs
    all_goals exact h.same rfl rfl rfl rfl rfl rfl rfl
  | unregisterSource sourceId =>
    cases hst
    unfold unregisterSource
    split
    · exact h
    · have hinactive := @Tuned.deactivate _ h (·.activeSourceId == sourceId) (·.key.sourceId == sourceId)
        fun stream hq => hq
      exact hinactive.same rfl rfl rfl rfl rfl rfl rfl
  | requestOutput key =>
    cases hst
    unfold requestOutput
    split
    · exact h.same rfl rfl rfl rfl rfl rfl rfl
    · exact h
  | releaseOutput key =>
    cases hst
    unfold releaseOutput
    split
    · have hinactive := @Tuned.deactivate _ h
        (fun output => output.name == key.outputName && output.activeSourceId == key.sourceId) (·.key == key)
        fun stream hq => by
          rw [beq_iff_eq] at hq
          simp [hq]
      exact hinactive.same rfl rfl rfl rfl rfl rfl rfl
    · exact h
  | setActiveSource outputName sourceName starts => exact some.inj hst ▸ h.setActiveSource hc
  | openStream key config starts => exact some.inj hst ▸ h.openStream hc
  | closeStream key => exact some.inj hst ▸ h.closeStream key
  | write key size borrowed waits =>
    cases hst
    have hcald : Tuned { s with calls := s.calls + 1 } := h.same rfl rfl rfl rfl rfl rfl rfl
    unfold AudioDecoder.write
    dsimp only
    split
    · exact hcald.same rfl rfl rfl rfl rfl rfl rfl
    · exact hcald.tryWrite _ _
  | wake i timedOut =>
    have hst : s.wake i timedOut = some s' := hst
    obtain ⟨chunk, hchunk, rfl⟩ := map_eq_some_iff.mp hst
    have hawake : Tuned { s with waiting := s.waiting.eraseIdx i } := h.same rfl rfl rfl rfl rfl rfl rfl
    exact hawake.tryWrite _ _
  | take => exact h.take hord hst
  | feed takes => exact h.feed hst
  | halEnds =>
    cases hst
    exact Tidy.tuned ⟨h.outputs, h.keys, h.named, h.flying, h.suited⟩ rfl

end AudioDecoder

open AudioDecoder

instance (s : AudioDecoder) : DecidablePred (Orderly s)
  | .openStream _ _ _ => inferInstanceAs (Decidable (_ → _))
  | .setActiveSource _ _ _ => inferInstanceAs (Decidable (_ → _))
  | .onStart | .onStop | .registerSource _ _ | .unregisterSource _ | .requestOutput _ | .releaseOutput _ | .closeStream _
  | .write _ _ _ _ | .wake _ _ | .take | .feed _ | .halEnds => inferInstanceAs (Decidable True)

theorem tuned_inductive : decoderMachine.Inductive Orderly fun s => s.Ordered ∧ s.Tuned := by
  refine ⟨?_, ?_⟩
  · rintro s rfl
    refine ⟨⟨fun _ h => absurd h not_mem_nil, fun _ => Sublist.refl _, fun _ h => absurd h not_mem_nil⟩,
      Tidy.tuned ⟨.inl rfl, nodup_nil, fun _ h => absurd h not_mem_nil,
        fun _ h => absurd h (some_ne_none _).symm, rfl⟩ rfl⟩
  · intro s label s' h hc hst
    exact ⟨ordered_step h.1 hst, tuned_step h.2 h.1 hc hst⟩

/-- In every orderly run. -/
theorem chunks_played {s : AudioDecoder} (h : decoderMachine.Reach Orderly s) : s.Plays := by
  obtain ⟨hord, htuned⟩ := tuned_inductive.reach h
  refine ⟨htuned.suited, fun key => ?_⟩
  have hsub : (ofStream key s.fed).Sublist (ofStream key (s.fed ++ s.flight.toList)) :=
    (sublist_append_left _ _).filter _
  exact hsub.trans (hord.taken key)

/-! ### Three runs -/

def exampleConfig : AudioStreamConfig where
  type := .pcm
  general := ⟨2, 16, 44100, 20⟩
  queueSizeBytes := 4096

/-- Two sources with open streams; the first is active and has written. -/
def twoSources : List Label :=
  [.onStart, .registerSource 0 "music", .registerSource 0 "speech", .requestOutput ⟨1, "Speaker0"⟩,
    .requestOutput ⟨2, "Speaker0"⟩, .openStream ⟨1, "Speaker0"⟩ exampleConfig true,
    .openStream ⟨2, "Speaker0"⟩ { exampleConfig with type := .opus } true, .setActiveSource "Speaker0" "music" true,
    .write ⟨1, "Speaker0"⟩ 1024 true false]

def turnsRun : List Label :=
  twoSources ++ [.take, .feed true, .openStream ⟨1, "Speaker0"⟩ exampleConfig true, .setActiveSource "Speaker0" "speech" true,
    .write ⟨2, "Speaker0"⟩ 4096 false false, .write ⟨2, "Speaker0"⟩ 1 false true, .take, .wake 0 false, .feed true, .take,
    .closeStream ⟨2, "Speaker0"⟩, .feed true]

theorem chunks_played_turnsRun :
    ∃ s, decoderMachine.Reach Orderly s ∧ s.fed.map (·.key.sourceId) = [1, 2] ∧ s.Plays := by
  have hinit : decoderMachine.init {} := rfl
  obtain ⟨s, hs, hfacts⟩ := map_eq_some_iff.mp (by decide +kernel :
    (decoderMachine.execWhen Orderly {} turnsRun).map (fun s => s.fed.map (·.key.sourceId)) = some [1, 2])
  have hreach : decoderMachine.Reach Orderly s := .execWhen (.init hinit) hs
  exact ⟨s, hreach, hfacts, chunks_played hreach⟩

theorem not_plays_of_mixed {run : List Label} (hmixed : (decoderMachine.exec {} run).map AudioDecoder.mixed = some true) :
    ¬ decoderMachine.Always Plays {} run := by
  intro halw
  obtain ⟨s, hs, hs'⟩ := map_eq_some_iff.mp hmixed
  have hsuited := (halw.exec hs).suited
  rw [hs'] at hsuited
  cases hsuited

/-- The active source changes while a chunk is in the air. -/
def switchRun : List Label :=
  twoSources ++ [.take, .setActiveSource "Speaker0" "speech" true, .feed true]

/-- The stream that is played is opened again with another configuration. -/
def reopenRun : List Label :=
  twoSources ++ [.openStream ⟨1, "Speaker0"⟩ { exampleConfig with type := .g711a } true,
    .write ⟨1, "Speaker0"⟩ 1024 true false, .take, .feed true]

/-- The first plays the chunk of one source as that of another, the second with a configuration that is not its own. -/
theorem chunks_played_switchRun :
    ¬ decoderMachine.Always Plays {} switchRun ∧ ¬ decoderMachine.Always Plays {} reopenRun :=
  ⟨not_plays_of_mixed (by decide +kernel), not_plays_of_mixed (by decide +kernel)⟩

end Brookesia.Audio

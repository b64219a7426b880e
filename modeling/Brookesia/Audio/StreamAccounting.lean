import Brookesia.Audio.Decoder
import Brookesia.Transition.Counting

/-! # The accounts of the streams

In a run of the decoder every stream counts the bytes of its queue, every borrowed buffer that is accepted is held until its
callback is called once, a write that is not accepted leaves nothing behind, and the sources have ids and names of their own
(`Accounted`), if and only if `register_source` never gives out an id that a caller has chosen before (`FreshId`). -/

namespace Brookesia.Audio

open Transition List Option

def lentCalls (chunks : List Chunk) : List ℕ :=
  (chunks.filter (·.borrowed)).map Chunk.call

theorem lentCalls_append (l m : List Chunk) : lentCalls (l ++ m) = lentCalls l ++ lentCalls m := by
  unfold lentCalls
  rw [filter_append, map_append]

theorem lentCalls_perm {l m : List Chunk} (h : l.Perm m) : (lentCalls l).Perm (lentCalls m) :=
  (h.filter _).map _

theorem lentCalls_sublist (l : List Chunk) : (lentCalls l).Sublist (l.map Chunk.call) :=
  filter_sublist.map _

namespace AudioDecoder

/-- The chunks that are queued, and the one that the task has taken. -/
def chunks (s : AudioDecoder) : List Chunk :=
  s.streams.flatMap StreamContext.queue ++ s.flight.toList

/-- The writes that have returned something else than `Written`. -/
def rejected (s : AudioDecoder) : List ℕ :=
  (s.returned.filter fun entry => entry.2 != .written).map Prod.fst

structure Accounted (s : AudioDecoder) : Prop where
  bytes : ∀ stream ∈ s.streams, stream.queuedBytes = (stream.queue.map Chunk.size).sum ∧
    stream.queuedBytes ≤ stream.config.queueSizeBytes
  ids : (s.sources.map SourceContext.id).Nodup
  names : (s.sources.map SourceContext.name).Nodup
  filed : s.misfiled = false
  lent : ∀ call ∈ lentCalls s.accepted, (s.released.map Prod.fst).count call + (lentCalls s.chunks).count call = 1
  returned : ∀ entry ∈ s.released, entry.1 ∈ lentCalls s.accepted
  behind : ∀ call ∈ s.rejected, ∀ chunk ∈ s.chunks, chunk.call ≠ call

def settled (s : AudioDecoder) : List ℕ :=
  s.accepted.map Chunk.call ++ s.rejected ++ s.waiting.map Chunk.call

/-- The accounts. -/
structure Kept (s : AudioDecoder) : Prop where
  keys : (s.streams.map StreamContext.key).Nodup
  bytes : ∀ stream ∈ s.streams, stream.queuedBytes = (stream.queue.map Chunk.size).sum ∧
    stream.queuedBytes ≤ stream.config.queueSizeBytes
  ids : (s.sources.map SourceContext.id).Nodup
  names : (s.sources.map SourceContext.name).Nodup
  filed : s.misfiled = false
  balance : (s.released.map Prod.fst ++ lentCalls s.chunks).Perm (lentCalls s.accepted)
  held : s.chunks ⊆ s.accepted
  calls : s.settled.Nodup
  below : ∀ call ∈ s.settled, call < s.calls

variable {s s' : AudioDecoder}

theorem Kept.accounted (h : s.Kept) : s.Accounted := by
  obtain ⟨hacc, -, hapart⟩ := nodup_append.mp (nodup_append.mp h.calls).1
  refine ⟨h.bytes, h.ids, h.names, h.filed, fun call hcall => ?_, fun entry hent => ?_, fun call hcall chunk hchunk => ?_⟩
  · rw [← count_append, h.balance.count_eq]
    exact count_eq_one_of_mem (hacc.sublist (lentCalls_sublist _)) hcall
  · exact h.balance.subset (mem_append_left _ (List.mem_map_of_mem hent))
  · exact hapart chunk.call (List.mem_map_of_mem (h.held hchunk)) call hcall

/-! ### What is not in the accounts -/

theorem Kept.display (h : s.Kept) (halDecoder : Option AudioDecoderDynamicConfig) (activeHalKey : StreamKey)
    (outputs : List OutputContext) (decoderIface : Bool) :
    Kept { s with
      halDecoder := halDecoder, activeHalKey := activeHalKey, outputs := outputs, decoderIface := decoderIface } :=
  ⟨h.keys, h.bytes, h.ids, h.names, h.filed, h.balance, h.held, h.calls, h.below⟩

theorem Kept.sources (h : s.Kept) {sources : List SourceContext} (hids : (sources.map SourceContext.id).Nodup)
    (hnms : (sources.map SourceContext.name).Nodup) (nextSourceId : SourceId) :
    Kept { s with sources := sources, nextSourceId := nextSourceId } :=
  ⟨h.keys, h.bytes, hids, hnms, h.filed, h.balance, h.held, h.calls, h.below⟩

/-- `ensure_hal_decoder_for_active_stream_locked` only touches the HAL decoder. -/
theorem ensureHalDecoder_display (s : AudioDecoder) (key : StreamKey) (starts : Bool) :
    ∃ halDecoder activeHalKey, (s.ensureHalDecoder key starts).2 =
      { s with halDecoder := halDecoder, activeHalKey := activeHalKey } := by
  unfold ensureHalDecoder
  split
  · exact ⟨_, _, rfl⟩
  · split_ifs
    all_goals exact ⟨_, _, rfl⟩

theorem deactivate_display (s : AudioDecoder) (p : OutputContext → Bool) :
    ∃ halDecoder activeHalKey outputs, s.deactivate p =
      { s with halDecoder := halDecoder, activeHalKey := activeHalKey, outputs := outputs } := by
  unfold deactivate
  split
  · exact ⟨_, _, _, rfl⟩
  · exact ⟨_, _, _, rfl⟩

theorem Kept.ensureHalDecoder (h : s.Kept) (key : StreamKey) (starts : Bool) : (s.ensureHalDecoder key starts).2.Kept := by
  obtain ⟨halDecoder, activeHalKey, heq⟩ := s.ensureHalDecoder_display key starts
  rw [heq]
  exact h.display _ _ _ _

theorem Kept.deactivate (h : s.Kept) (p : OutputContext → Bool) : (s.deactivate p).Kept := by
  obtain ⟨halDecoder, activeHalKey, outputs, heq⟩ := s.deactivate_display p
  rw [heq]
  exact h.display _ _ _ _

theorem Kept.setSource (h : s.Kept) {source source' : SourceContext} (hmem : source ∈ s.sources)
    (hid : source.id = source'.id) (hname : source.name = source'.name) : (s.setSource source').Kept := by
  refine h.sources ?_ ?_ s.nextSourceId
  · rw [keys_replace]
    exact h.ids
  · rw [map_replace fun other hoth heq => ?_]
    · exact h.names
    · rw [← hname]
      exact congrArg SourceContext.name (eq_of_key h.ids hoth hmem (heq.trans hid.symm))

/-! ### Chunks that are dropped -/

theorem Kept.drop (h : s.Kept) {streams : List StreamContext} {flight : Option Chunk}
    (hkeys : (streams.map StreamContext.key).Nodup)
    (hbytes : ∀ stream ∈ streams, stream.queuedBytes = (stream.queue.map Chunk.size).sum ∧
      stream.queuedBytes ≤ stream.config.queueSizeBytes) {dropped : List Chunk}
    (hperm : s.chunks.Perm (dropped ++ (streams.flatMap StreamContext.queue ++ flight.toList)))
    (result : AudioWriteResult) :
    Kept ({ s with streams := streams, flight := flight }.release dropped result) := by
  refine ⟨hkeys, hbytes, h.ids, h.names, h.filed, ?_, fun chunk hchunk => ?_, h.calls, h.below⟩
  · have hrel : (({ s with streams := streams, flight := flight }.release dropped result).released.map Prod.fst) =
        s.released.map Prod.fst ++ lentCalls dropped := by
      unfold release lentCalls
      rw [map_append, List.map_map]
      rfl
    rw [hrel, append_assoc]
    refine Perm.trans (Perm.append_left _ ?_) h.balance
    rw [← lentCalls_append]
    exact lentCalls_perm hperm.symm
  · exact h.held (hperm.symm.subset (mem_append_right _ hchunk))

theorem flatMap_filter_perm (streams : List StreamContext) (p : StreamContext → Bool) :
    (streams.flatMap StreamContext.queue).Perm ((streams.filter p).flatMap StreamContext.queue ++
      (streams.filter fun stream => !p stream).flatMap StreamContext.queue) := by
  rw [← flatMap_append]
  exact (filter_append_perm p streams).symm.flatMap_right _

theorem Kept.eraseStreams (h : s.Kept) (p : StreamContext → Bool) : (s.eraseStreams p).Kept := by
  refine h.drop (h.keys.sublist (filter_sublist.map _))
    (fun stream hstrm => h.bytes stream (mem_of_mem_filter hstrm)) ?_ _
  rw [← append_assoc]
  exact (flatMap_filter_perm s.streams p).append_right _

theorem Kept.clearAllQueues (h : s.Kept) : s.clearAllQueues.Kept := by
  refine h.drop ?_ (fun stream hstrm => ?_) ?_ _
  · rw [List.map_map]
    exact h.keys
  · obtain ⟨old, -, rfl⟩ := List.mem_map.mp hstrm
    exact ⟨rfl, Nat.zero_le _⟩
  · have hemp : (s.streams.map StreamContext.cleared).flatMap StreamContext.queue = [] := by
      rw [flatMap_eq_nil_iff]
      intro stream hstrm
      obtain ⟨old, -, rfl⟩ := List.mem_map.mp hstrm
      rfl
    rw [hemp]
    exact Perm.refl _

/-! ### Writes -/

theorem settled_perm {a b c a' b' c' : List ℕ} {x : ℕ}
    (h : ∀ y, a'.count y + b'.count y + c'.count y = a.count y + b.count y + c.count y + [x].count y) :
    (a' ++ b' ++ c').Perm (x :: (a ++ b ++ c)) := by
  refine perm_iff_count.mpr fun y => ?_
  have hy := h y
  rw [count_append, count_append, ← singleton_append, count_append, count_append, count_append]
  omega

theorem Kept.settle (h : s.Kept) {call : ℕ} (hfresh : call ∉ s.settled) (hlt : call < s.calls)
    (hsett : s'.settled.Perm (call :: s.settled)) (hcs : s'.calls = s.calls) :
    s'.settled.Nodup ∧ ∀ call' ∈ s'.settled, call' < s'.calls := by
  refine ⟨hsett.nodup_iff.mpr (nodup_cons.mpr ⟨hfresh, h.calls⟩), fun call' hcall' => ?_⟩
  rw [hcs]
  rcases mem_cons.mp (hsett.subset hcall') with rfl | hcall'
  · exact hlt
  · exact h.below call' hcall'

section Writes

variable {chunk : Chunk}

theorem Kept.finish (h : s.Kept) (hfresh : chunk.call ∉ s.settled) (hlt : chunk.call < s.calls)
    {result : AudioWriteResult} (hres : result ≠ .written) : (s.finish chunk result).Kept := by
  have hrej : (s.finish chunk result).rejected = s.rejected ++ [chunk.call] := by
    unfold rejected AudioDecoder.finish
    have hkept : (chunk.call, result).2 != .written := bne_iff_ne.mpr hres
    rw [filter_append, map_append]
    simp only [filter_cons, hkept, if_true, filter_nil, map_singleton]
  have hsett : ((s.finish chunk result).settled).Perm (chunk.call :: s.settled) := by
    show (s.accepted.map Chunk.call ++ (s.finish chunk result).rejected ++ s.waiting.map Chunk.call).Perm _
    rw [hrej]
    refine settled_perm fun y => ?_
    rw [count_append]
    omega
  obtain ⟨hcs, hbelow⟩ := h.settle hfresh hlt hsett rfl
  exact ⟨h.keys, h.bytes, h.ids, h.names, h.filed, h.balance, h.held, hcs, hbelow⟩

theorem Kept.sleep (h : s.Kept) (hfresh : chunk.call ∉ s.settled) (hlt : chunk.call < s.calls) :
    Kept { s with waiting := s.waiting ++ [chunk] } := by
  have hsett : (settled { s with waiting := s.waiting ++ [chunk] }).Perm (chunk.call :: s.settled) := by
    refine settled_perm fun y => ?_
    rw [map_append, count_append]
    exact (Nat.add_assoc _ _ _).symm
  obtain ⟨hcs, hbelow⟩ := h.settle hfresh hlt hsett rfl
  exact ⟨h.keys, h.bytes, h.ids, h.names, h.filed, h.balance, h.held, hcs, hbelow⟩

theorem streamFor_eq_ok {stream : StreamContext} (hstrm : s.streamFor chunk = .ok stream) :
    stream ∈ s.streams ∧ stream.key = chunk.key ∧ chunk.size ≤ stream.config.queueSizeBytes := by
  unfold streamFor at hstrm
  split at hstrm
  · cases hstrm
  · split at hstrm
    · cases hstrm
    · split at hstrm
      · cases hstrm
      · rename_i found hfind
        split_ifs at hstrm with hopened hsize
        cases hstrm
        unfold findStream at hfind
        obtain ⟨hmem, hkey⟩ := find?_key_mem hfind
        exact ⟨hmem, hkey, not_lt.mp hsize⟩

theorem streamFor_eq_error {result : AudioWriteResult} (hres : s.streamFor chunk = .error result) :
    result ≠ .written := by
  unfold streamFor at hres
  split at hres
  · cases hres
    decide
  · split at hres
    · cases hres
      decide
    · split at hres
      · cases hres
        decide
      · split_ifs at hres
        · cases hres
          decide
        · cases hres
          decide

theorem Kept.enqueue (h : s.Kept) (hfresh : chunk.call ∉ s.settled) (hlt : chunk.call < s.calls)
    {stream : StreamContext} (hmem : stream ∈ s.streams)
    (hroom : stream.queuedBytes + chunk.size ≤ stream.config.queueSizeBytes) : (s.enqueue stream chunk).Kept := by
  have hrej : (s.enqueue stream chunk).rejected = s.rejected := by
    unfold rejected AudioDecoder.enqueue AudioDecoder.finish
    rw [filter_append, filter_cons_of_neg (by simp), filter_nil, append_nil]
  have hsett : ((s.enqueue stream chunk).settled).Perm (chunk.call :: s.settled) := by
    show ((s.accepted ++ [chunk]).map Chunk.call ++ (s.enqueue stream chunk).rejected ++ s.waiting.map Chunk.call).Perm _
    rw [hrej]
    refine settled_perm fun y => ?_
    rw [map_append, count_append, map_singleton]
    omega
  have hchunks : (s.enqueue stream chunk).chunks.Perm (chunk :: s.chunks) := by
    refine perm_iff_count.mpr fun other => ?_
    have hreplace := count_flatMap_replace (x := { stream with
      queue := stream.queue ++ [chunk], queuedBytes := stream.queuedBytes + chunk.size }) h.keys hmem rfl
      (p := StreamContext.queue) other
    rw [count_append] at hreplace
    show List.count other ((replace StreamContext.key _ s.streams).flatMap StreamContext.queue ++ s.flight.toList) =
      List.count other ([chunk] ++ (s.streams.flatMap StreamContext.queue ++ s.flight.toList))
    rw [count_append, count_append, count_append]
    omega
  obtain ⟨hcs, hbelow⟩ := h.settle hfresh hlt hsett rfl
  refine ⟨?_, fun other hoth => ?_, h.ids, h.names, h.filed, ?_, fun other hoth => ?_, hcs, hbelow⟩
  · show ((replace StreamContext.key _ s.streams).map StreamContext.key).Nodup
    rw [keys_replace]
    exact h.keys
  · rcases mem_replace hoth with rfl | ⟨hoth, -⟩
    · refine ⟨?_, hroom⟩
      rw [map_append, sum_append, ← (h.bytes stream hmem).1]
      rfl
    · exact h.bytes other hoth
  · have hgrown : (lentCalls (s.enqueue stream chunk).accepted).Perm (lentCalls [chunk] ++ lentCalls s.accepted) := by
      rw [← lentCalls_append]
      exact lentCalls_perm (perm_append_singleton chunk s.accepted)
    have hheld : (lentCalls (s.enqueue stream chunk).chunks).Perm (lentCalls [chunk] ++ lentCalls s.chunks) := by
      rw [← lentCalls_append]
      exact lentCalls_perm hchunks
    refine Perm.trans ?_ hgrown.symm
    refine Perm.trans (hheld.append_left _) ?_
    exact (perm_append_comm_assoc _ _ _).trans (h.balance.append_left _)
  · rcases mem_cons.mp (hchunks.subset hoth) with rfl | hoth
    · exact mem_append_right _ (mem_singleton.mpr rfl)
    · exact mem_append_left _ (h.held hoth)

theorem Kept.tryWrite (h : s.Kept) (hfresh : chunk.call ∉ s.settled) (hlt : chunk.call < s.calls) (waits : Bool) :
    (s.tryWrite chunk waits).Kept := by
  unfold AudioDecoder.tryWrite
  split
  · rename_i result hres
    exact h.finish hfresh hlt (streamFor_eq_error hres)
  · rename_i stream hstrm
    split_ifs with hroom hwaits
    · exact h.enqueue hfresh hlt (streamFor_eq_ok hstrm).1 hroom
    · exact h.sleep hfresh hlt
    · exact h.finish hfresh hlt (by decide)

theorem Kept.write (h : s.Kept) (key : StreamKey) (size : ℕ) (borrowed waits : Bool) :
    (s.write key size borrowed waits).Kept := by
  have hcald : Kept { s with calls := s.calls + 1 } :=
    ⟨h.keys, h.bytes, h.ids, h.names, h.filed, h.balance, h.held, h.calls,
      fun call hcall => (h.below call hcall).trans (Nat.lt_succ_self _)⟩
  have hfresh : s.calls ∉ settled { s with calls := s.calls + 1 } :=
    fun hcall => absurd (h.below s.calls hcall) (lt_irrefl _)
  unfold AudioDecoder.write
  dsimp only
  split
  · exact hcald.finish hfresh (Nat.lt_succ_self _) (by decide)
  · exact hcald.tryWrite hfresh (Nat.lt_succ_self _) waits

theorem Kept.wake (h : s.Kept) {i : ℕ} {timedOut : Bool} (hst : s.wake i timedOut = some s') : s'.Kept := by
  obtain ⟨chunk, hchunk, rfl⟩ := map_eq_some_iff.mp hst
  obtain ⟨before, after, hsplit, herase, -⟩ := split_at hchunk
  have hsett : s.settled.Perm (chunk.call :: settled { s with waiting := s.waiting.eraseIdx i }) := by
    refine settled_perm fun y => ?_
    show (s.accepted.map Chunk.call).count y + s.rejected.count y + (s.waiting.map Chunk.call).count y =
      (s.accepted.map Chunk.call).count y + s.rejected.count y + ((s.waiting.eraseIdx i).map Chunk.call).count y + _
    rw [herase, hsplit, map_append, map_append, count_append, count_append, map_cons, count_cons, count_singleton]
    omega
  have hnd := nodup_cons.mp (hsett.nodup_iff.mp h.calls)
  have hawake : Kept { s with waiting := s.waiting.eraseIdx i } :=
    ⟨h.keys, h.bytes, h.ids, h.names, h.filed, h.balance, h.held, hnd.2,
      fun call hcall => h.below call (hsett.symm.subset (mem_cons_of_mem _ hcall))⟩
  exact hawake.tryWrite hnd.1 (h.below chunk.call (hsett.symm.subset mem_cons_self)) _

end Writes

/-! ### The other calls -/

theorem findSourceById_mem {id : SourceId} {source : SourceContext} (hfind : s.findSourceById id = some source) :
    source ∈ s.sources ∧ source.id = id := by
  unfold findSourceById at hfind
  exact find?_key_mem hfind

theorem findSourceById_none {id : SourceId} (hfind : s.findSourceById id = none) : id ∉ s.sources.map SourceContext.id := by
  unfold findSourceById at hfind
  intro hmem
  obtain ⟨source, hsrc, hid⟩ := List.mem_map.mp hmem
  exact find?_key_none hfind source hsrc hid

theorem findSourceByName_none {name : String} (hfind : s.findSourceByName name = none) :
    name ∉ s.sources.map SourceContext.name := by
  unfold findSourceByName at hfind
  intro hmem
  obtain ⟨source, hsrc, hname⟩ := List.mem_map.mp hmem
  exact find?_key_none hfind source hsrc hname

theorem Kept.append (h : s.Kept) {source : SourceContext} (hid : source.id ∉ s.sources.map SourceContext.id)
    (hname : source.name ∉ s.sources.map SourceContext.name) (nextSourceId : SourceId) :
    Kept { s with sources := s.sources ++ [source], nextSourceId := nextSourceId } := by
  have hnd : ∀ {κ : Type} {key : SourceContext → κ}, (s.sources.map key).Nodup → key source ∉ s.sources.map key →
      ((s.sources ++ [source]).map key).Nodup := by
    intro κ key hold hnew
    rw [map_append, nodup_append]
    refine ⟨hold, nodup_singleton _, fun k hk k' hk' heq => hnew ?_⟩
    rw [map_singleton, mem_singleton] at hk'
    rwa [← hk', ← heq]
  exact h.sources (hnd h.ids hid) (hnd h.names hname) nextSourceId

/-- The condition: the counter does not give out an id that a source has. -/
def FreshId (s : AudioDecoder) : Label → Prop
  | .registerSource id name =>
    id = 0 → name ≠ "" → s.findSourceByName name = none → s.findSourceById s.nextSourceId = none
  | _ => True

theorem Kept.registerSource (h : s.Kept) {id : SourceId} {name : String} (hfresh : FreshId s (.registerSource id name)) :
    (s.registerSource id name).2.Kept := by
  unfold AudioDecoder.registerSource
  split_ifs with hemp hnamed hzero htaken htaken
  · exact h
  · exact h
  · have hnone := hfresh hzero hemp (not_isSome_iff_eq_none.mp hnamed)
    rw [hnone] at htaken
    cases htaken
  · exact h.append (findSourceById_none (not_isSome_iff_eq_none.mp htaken))
      (findSourceByName_none (not_isSome_iff_eq_none.mp hnamed)) _
  · exact h
  · exact h.append (findSourceById_none (not_isSome_iff_eq_none.mp htaken))
      (findSourceByName_none (not_isSome_iff_eq_none.mp hnamed)) _

theorem Kept.unregisterSource (h : s.Kept) (sourceId : SourceId) : (s.unregisterSource sourceId).Kept := by
  unfold AudioDecoder.unregisterSource
  split
  · exact h
  · have hers := (h.deactivate (·.activeSourceId == sourceId)).eraseStreams (·.key.sourceId == sourceId)
    exact hers.sources (h.ids.sublist (filter_sublist.map _)) (h.names.sublist (filter_sublist.map _)) _

theorem Kept.requestOutput (h : s.Kept) (key : StreamKey) : (s.requestOutput key).Kept := by
  unfold AudioDecoder.requestOutput
  split
  · rename_i source output hsrc hout
    exact h.setSource (findSourceById_mem hsrc).1 rfl rfl
  · exact h

theorem Kept.releaseOutput (h : s.Kept) (key : StreamKey) : (s.releaseOutput key).Kept := by
  unfold AudioDecoder.releaseOutput
  split
  · rename_i source output hsrc hout
    have hers := (h.deactivate fun output => output.name == key.outputName && output.activeSourceId == key.sourceId).eraseStreams
      (·.key == key)
    refine @Kept.setSource _ hers source _ ?_ rfl rfl
    obtain ⟨halDecoder, activeHalKey, outputs, heq⟩ :=
      s.deactivate_display fun output => output.name == key.outputName && output.activeSourceId == key.sourceId
    rw [heq]
    exact (findSourceById_mem hsrc).1
  · exact h

theorem Kept.setActiveSource (h : s.Kept) (outputName sourceName : String) (starts : Bool) :
    (s.setActiveSource outputName sourceName starts).Kept := by
  unfold AudioDecoder.setActiveSource
  split
  · split_ifs
    · exact h
    · exact h
    · have hstop : s.stopHalDecoder.Kept := h.display _ _ _ _
      exact Kept.ensureHalDecoder (hstop.clearAllQueues.display _ _ _ _) _ _
  · exact h

theorem Kept.putStream (h : s.Kept) (key : StreamKey) (config : AudioStreamConfig) : (s.putStream key config).Kept := by
  have hers := h.eraseStreams (·.key == key)
  have hgone : key ∉ (s.eraseStreams (·.key == key)).streams.map StreamContext.key := by
    intro hmem
    obtain ⟨stream, hstrm, hkey⟩ := List.mem_map.mp hmem
    have hoth := (mem_filter.mp hstrm).2
    simp [hkey] at hoth
  have hchunks : (s.putStream key config).chunks = (s.eraseStreams (·.key == key)).chunks := by
    unfold chunks AudioDecoder.putStream
    dsimp only
    rw [flatMap_append]
    exact congrArg (· ++ _) (append_nil _)
  refine ⟨?_, ?_, hers.ids, hers.names, hers.filed, ?_, ?_, hers.calls, hers.below⟩
  · unfold AudioDecoder.putStream
    dsimp only
    rw [map_append, nodup_append]
    refine ⟨hers.keys, nodup_singleton _, fun k hk k' hk' heq => hgone ?_⟩
    rw [map_singleton, mem_singleton] at hk'
    have hkey : k = key := heq.trans hk'
    exact hkey ▸ hk
  · exact forall_mem_append.mpr ⟨hers.bytes, forall_mem_singleton.mpr ⟨rfl, Nat.zero_le _⟩⟩
  · rw [hchunks]
    exact hers.balance
  · rw [hchunks]
    exact hers.held

theorem Kept.openStream (h : s.Kept) (key : StreamKey) (config : AudioStreamConfig) (starts : Bool) :
    (s.openStream key config starts).Kept := by
  unfold AudioDecoder.openStream
  split
  · dsimp only
    split_ifs
    · exact h
    · exact (h.putStream key config).ensureHalDecoder _ _
    · exact h.putStream key config
  · exact h

theorem Kept.closeStream (h : s.Kept) (key : StreamKey) : (s.closeStream key).Kept := by
  unfold AudioDecoder.closeStream
  split
  · dsimp only
    split
    · exact Kept.eraseStreams (h.display _ _ _ _) _
    · exact h.eraseStreams _
  · exact h

theorem nextStream_mem {stream : StreamContext} (hnext : s.nextStream = some stream) : stream ∈ s.streams := by
  unfold nextStream at hnext
  obtain ⟨output, -, hout⟩ := exists_of_findSome?_eq_some hnext
  split at hout
  · cases hout
  · obtain ⟨source, -, hfilt⟩ := bind_eq_some_iff.mp hout
    obtain ⟨hfind, -⟩ := filter_eq_some_iff.mp hfilt
    exact mem_of_find?_eq_some hfind

theorem Kept.take (h : s.Kept) (hst : s.take = some s') : s'.Kept := by
  unfold AudioDecoder.take at hst
  split at hst
  · rename_i stream hfli hnext
    split at hst
    · cases hst
    · rename_i chunk rest hque
      cases hst
      have hmem := nextStream_mem hnext
      obtain ⟨hsum, hlimit⟩ := h.bytes stream hmem
      rw [hque, map_cons, sum_cons] at hsum
      have hchunks : s.chunks.Perm (chunks { s with
          streams := replace StreamContext.key
            { stream with queue := rest, queuedBytes := stream.queuedBytes - chunk.size } s.streams
          flight := some chunk }) := by
        refine perm_iff_count.mpr fun other => ?_
        have hreplace := count_flatMap_replace (x := { stream with
          queue := rest, queuedBytes := stream.queuedBytes - chunk.size }) h.keys hmem rfl (p := StreamContext.queue) other
        rw [hque, ← singleton_append, count_append] at hreplace
        show List.count other (s.streams.flatMap StreamContext.queue ++ s.flight.toList) =
          List.count other ((replace StreamContext.key _ s.streams).flatMap StreamContext.queue ++ [chunk])
        rw [hfli, count_append, count_append, toList_none, count_nil]
        dsimp only at hreplace
        omega
      refine ⟨?_, fun other hoth => ?_, h.ids, h.names, h.filed, ?_, ?_, h.calls, h.below⟩
      · show ((replace StreamContext.key _ s.streams).map StreamContext.key).Nodup
        rw [keys_replace]
        exact h.keys
      · rcases mem_replace hoth with rfl | ⟨hoth, -⟩
        · refine ⟨?_, (Nat.sub_le _ _).trans hlimit⟩
          show stream.queuedBytes - chunk.size = (rest.map Chunk.size).sum
          omega
        · exact h.bytes other hoth
      · exact ((lentCalls_perm hchunks.symm).append_left _).trans h.balance
      · exact fun other hoth => h.held (hchunks.symm.subset hoth)
  · cases hst

theorem Kept.feed (h : s.Kept) {takes : Bool} (hst : s.feed takes = some s') : s'.Kept := by
  unfold AudioDecoder.feed at hst
  split at hst
  · cases hst
  · rename_i chunk hfli
    have hperm : s.chunks.Perm ([chunk] ++ (s.streams.flatMap StreamContext.queue ++ (none : Option Chunk).toList)) := by
      unfold chunks
      rw [hfli, toList_none, append_nil]
      exact perm_append_comm
    have hland := fun result => h.drop h.keys h.bytes hperm result
    dsimp only at hst
    split at hst
    · cases hst
      exact hland _
    · cases hst
      have hfed := hland (if takes then .written else .error)
      exact ⟨hfed.keys, hfed.bytes, hfed.ids, hfed.names, hfed.filed, hfed.balance, hfed.held, hfed.calls, hfed.below⟩

theorem Kept.onStop (h : s.Kept) : s.onStop.Kept := by
  have hstop : s.stopHalDecoder.Kept := h.display _ _ _ _
  have hers := (hstop.eraseStreams fun _ => true).display none ⟨0, ""⟩ [] false
  exact @Kept.sources _ hers [] nodup_nil nodup_nil _

end AudioDecoder

open AudioDecoder

theorem kept_inductive : decoderMachine.Inductive FreshId Kept := by
  refine ⟨?_, ?_⟩
  · rintro s rfl
    exact ⟨nodup_nil, fun _ h => absurd h not_mem_nil, nodup_nil, nodup_nil, rfl, Perm.refl _,
      Subset.refl _, nodup_nil, fun _ h => absurd h not_mem_nil⟩
  · intro s label s' h hc hst
    have hst : s.step label = some s' := hst
    cases label with
    | onStart =>
      have hst : s.onStart = some s' := hst
      unfold AudioDecoder.onStart at hst
      split at hst
      · cases hst
      · cases hst
        exact h.display _ _ _ _
    | onStop => exact some.inj hst ▸ h.onStop
    | registerSource id name => exact some.inj hst ▸ h.registerSource hc
    | unregisterSource sourceId => exact some.inj hst ▸ h.unregisterSource sourceId
    | requestOutput key => exact some.inj hst ▸ h.requestOutput key
    | releaseOutput key => exact some.inj hst ▸ h.releaseOutput key
    | setActiveSource outputName sourceName starts =>
      exact some.inj hst ▸ h.setActiveSource outputName sourceName starts
    | openStream key config starts => exact some.inj hst ▸ h.openStream key config starts
    | closeStream key => exact some.inj hst ▸ h.closeStream key
    | write key size borrowed waits => exact some.inj hst ▸ h.write key size borrowed waits
    | wake i timedOut => exact h.wake hst
    | take => exact h.take hst
    | feed takes => exact h.feed hst
    | halEnds => exact some.inj hst ▸ h.display _ _ _ _

theorem not_accounted_of_taken {s s' : AudioDecoder} {label : Label} (hc : ¬ FreshId s label)
    (hst : decoderMachine.step s label = some s') : ¬ s'.Accounted := by
  cases label with
  | registerSource id name =>
    unfold FreshId at hc
    simp only [Classical.not_imp] at hc
    obtain ⟨hzero, hname, hnone, htaken⟩ := hc
    cases hst
    intro haccounted
    have hfiled := haccounted.filed
    unfold AudioDecoder.registerSource at hfiled
    rw [if_neg hname, hnone, if_neg (by simp), if_pos hzero, if_pos (isSome_iff_ne_none.mpr htaken)] at hfiled
    cases hfiled
  | _ => exact absurd trivial hc

/-- Which runs keep the accounts in all of their states. -/
theorem streams_accounted (labels : List Label) :
    decoderMachine.Always Accounted {} labels ↔ decoderMachine.Keeps FreshId {} labels :=
  kept_inductive.exact (fun _ => Kept.accounted) (fun _ _ _ _ => not_accounted_of_taken) labels {}
    (kept_inductive.init {} rfl)

/-- A caller has chosen the id that the counter gives out next. -/
def chosenIdRun : List Label :=
  [.registerSource 1 "music", .registerSource 0 "speech"]

/-- The second call returns the id of the first source. -/
theorem streams_accounted_chosenIdRun : ¬ decoderMachine.Always Accounted {} chosenIdRun := by
  intro halw
  obtain ⟨s, hs⟩ := isSome_iff_exists.mp (by decide : (decoderMachine.exec {} chosenIdRun).isSome = true)
  have hfacts : (decoderMachine.exec {} chosenIdRun).map AudioDecoder.misfiled = some true := by decide
  rw [hs] at hfacts
  have hfiled := (halw.exec hs).filed
  rw [some.inj hfacts] at hfiled
  cases hfiled

end Brookesia.Audio

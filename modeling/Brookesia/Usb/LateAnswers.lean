import Brookesia.Usb.HostTransfer

/-! # Late answers

What the device does with the frames of a transfer, the last of them more than once, and what is on its
way then. -/

namespace Brookesia.Usb.HostTransfer

open Transition List
open Filesystem.Path Data.Json Protocol Port
open HostProtocol Codec
open Buffers Chunks
open Impl

variable {env : Env} {job : Job} {d : Impl} {chunk more : List RxByte}
  {pieces : List (List RxByte × BinaryFrame)}

/-! ### Frames in parts -/

/-- A condition on what is left to handle and on the device. -/
structure KeptByFrames (env : Env) (Q : List BinaryFrame → Impl → Prop) : Prop where
  parser : ∀ left d r, Q left d → Q left { d with frameParser := r }
  busy : ∀ f left d, Q (f :: left) d → d.transfer ≠ none
  handle : ∀ f left d, Q (f :: left) d → Q left (handleFrame env d f)
  frameParser : ∀ f left d, Q (f :: left) d → (handleFrame env d f).frameParser = d.frameParser
  answers : ∀ f left d, Q (f :: left) d → (responses (handleFrame env d f)).length ≤ (responses d).length + 2

theorem KeptByFrames.process {Q : List BinaryFrame → Impl → Prop} (hQ : KeptByFrames env Q)
    (hpieces : Pieces env.maxFramePayload pieces) (h : Q (pieces.map (·.2)) d)
    (hbytes : d.frameParser ++ more = bytesOf pieces) :
    ∃ left, Pieces env.maxFramePayload left ∧ Q (left.map (·.2)) (processFrames env d) ∧
      (processFrames env d).frameParser ++ more = bytesOf left ∧
      next env.maxFramePayload (processFrames env d).frameParser = .ok none ∧
      (processFrames env d).frameParser.length + (responses (processFrames env d)).length ≤
        d.frameParser.length + (responses d).length := by
  induction pieces generalizing d with
  | nil =>
    obtain ⟨hfp, -⟩ := append_eq_nil_iff.mp hbytes
    have hnext : next env.maxFramePayload d.frameParser = .ok none := next_of_short (by rw [hfp]; decide)
    rw [processFrames_none hnext]
    exact ⟨[], hpieces, h, hbytes, hnext, le_rfl⟩
  | cons piece pieces ih =>
    have htr := hQ.busy _ _ _ h
    have hpiece := hpieces piece mem_cons_self
    have hall : next env.maxFramePayload (d.frameParser ++ more) = .ok (some (piece.2, bytesOf pieces)) := by
      rw [hbytes]
      exact next_append_some hpiece
    cases hnext : next env.maxFramePayload d.frameParser with
    | error e =>
      rw [next_append_error hnext] at hall
      cases hall
    | ok found =>
      cases found with
      | none =>
        rw [processFrames_none hnext]
        exact ⟨piece :: pieces, hpieces, h, hbytes, hnext, le_rfl⟩
      | some fr =>
        obtain ⟨frame, rest⟩ := fr
        rw [next_append_some hnext] at hall
        obtain ⟨rfl, hrest⟩ := Prod.mk.inj (Option.some.inj (Except.ok.inj hall))
        obtain ⟨first, hsplit, hlen, -, -⟩ := next_some_split hnext
        have hpar : Q (piece.2 :: pieces.map (·.2)) { d with frameParser := rest } := hQ.parser _ _ rest h
        have hfp : (handleFrame env { d with frameParser := rest } piece.2).frameParser = rest :=
          hQ.frameParser _ _ _ hpar
        have hcnt : (responses (handleFrame env { d with frameParser := rest } piece.2)).length ≤
            (responses d).length + 2 := hQ.answers _ _ _ hpar
        rw [processFrames_some htr hnext]
        obtain ⟨left, hleft, hQleft, hbytes', hnone, hle⟩ := ih
          (fun p hp => hpieces p (mem_cons_of_mem _ hp)) (hQ.handle _ _ _ hpar)
          (by rw [hfp]; exact hrest)
        refine ⟨left, hleft, hQleft, hbytes', hnone, hle.trans ?_⟩
        rw [hfp, hsplit, length_append]
        unfold frameHeaderSize at hlen
        omega

theorem KeptByFrames.arrive {Q : List BinaryFrame → Impl → Prop} (hQ : KeptByFrames env Q)
    (hpieces : Pieces env.maxFramePayload pieces) (h : Q (pieces.map (·.2)) d) (hrx : d.rxBuffer = [])
    (hchunk : chunk ≠ []) (hbytes : d.frameParser ++ (chunk ++ more) = bytesOf pieces) :
    ∃ left, Pieces env.maxFramePayload left ∧ Q (left.map (·.2)) (deliver env d chunk) ∧
      (deliver env d chunk).frameParser ++ more = bytesOf left ∧
      next env.maxFramePayload (deliver env d chunk).frameParser = .ok none ∧
      (deliver env d chunk).frameParser.length + (responses (deliver env d chunk)).length ≤
        d.frameParser.length + chunk.length + (responses d).length := by
  cases pieces with
  | nil =>
    obtain ⟨-, hemp⟩ := append_eq_nil_iff.mp hbytes
    exact absurd (append_eq_nil_iff.mp hemp).1 hchunk
  | cons piece pieces =>
    have htr := hQ.busy _ _ _ h
    have habort : d.frameParser = [] → abortLine env chunk = none := by
      intro hfp
      rw [hfp, nil_append] at hbytes
      have hnext : next env.maxFramePayload (chunk ++ more) = .ok (some (piece.2, bytesOf pieces)) := by
        rw [hbytes]
        exact next_append_some (hpieces piece mem_cons_self)
      cases hline : abortLine env chunk with
      | none => rfl
      | some found =>
        obtain ⟨line, rest, command⟩ := found
        have hmore := @abortLine_append env chunk more line rest command hline
        rw [abortLine_of_next hnext] at hmore
        cases hmore
    rw [deliver_frames htr hrx habort]
    rw [← append_assoc] at hbytes
    have hall := hQ.process hpieces (hQ.parser _ _ (d.frameParser ++ chunk) h) hbytes
    obtain ⟨left, hleft, hQleft, hbytes', hnone, hle⟩ := hall
    refine ⟨left, hleft, hQleft, hbytes', hnone, hle.trans ?_⟩
    rw [length_append]
    rfl

/-! ### The frames of a file -/

variable (env job)

def parts : List Bytes := filePayloads env.maxFramePayload job.content

def dataFrame (i : ℕ) : BinaryFrame := ⟨.data, 1, job.requestId, UInt32.ofNat i, (parts env job).getD i []⟩

def endFrame : BinaryFrame := ⟨.endOfData, 1, job.requestId, UInt32.ofNat (parts env job).length, []⟩

/-- What is assumed of the device and of the file. -/
structure Fits : Prop where
  healthy : Healthy env
  framePayload : 0 < env.maxFramePayload
  length : job.content.length < 2 ^ 32
  requestId : job.requestId < 2 ^ 32
  payload : env.maxFramePayload ≤ maxFramePayload ∨ job.content.length ≤ maxFramePayload

variable {env job}

theorem Fits.parts_flatten (h : Fits env job) : (parts env job).flatten = job.content :=
  filePayloads_flatten h.framePayload

theorem Fits.parts_length (h : Fits env job) : (parts env job).length < 2 ^ 32 :=
  lt_of_le_of_lt readPayloads_length h.length

theorem parts_getElem {i : ℕ} (hi : i < (parts env job).length) : (parts env job).getD i [] = (parts env job)[i] :=
  getD_eq_getElem _ _ hi

theorem Fits.part {i : ℕ} (h : Fits env job) (hi : i < (parts env job).length) :
    (parts env job).getD i [] ≠ [] ∧ ((parts env job).getD i []).length ≤ env.maxFramePayload ∧
      ((parts env job).getD i []).length ≤ maxFramePayload := by
  rw [parts_getElem hi]
  obtain ⟨hne, hfr, hcontent⟩ := mem_readPayloads (getElem_mem hi)
  refine ⟨hne, hfr, ?_⟩
  rcases h.payload with hp | hp
  · exact hfr.trans hp
  · exact hcontent.trans hp

theorem eq_of_sent {frame : BinaryFrame} {t : FrameType} {requestId i : ℕ} {payload : Bytes}
    (h : sent frame = ⟨t, requestId, i, payload, 1⟩) : frame = ⟨t, 1, requestId, UInt32.ofNat i, payload⟩ := by
  obtain ⟨type, version, id, sequence, data⟩ := frame
  simp only [sent, HostFrame.mk.injEq] at h
  obtain ⟨rfl, hid, hsequence, rfl, hversion⟩ := h
  have hseq : sequence = UInt32.ofNat i := by
    rw [← UInt32.ofNat_toNat (x := sequence)]
    congr 1
    exact_mod_cast hsequence
  have hver : version = 1 := by
    apply UInt8.toNat_inj.mp
    show version.toNat = 1
    exact_mod_cast hversion
  have hidentifier : id = requestId := by exact_mod_cast hid
  rw [hseq, hver, hidentifier]

/-- A frame that the host writes is a piece for the parser of the device. -/
theorem encoded {t : FrameType} {requestId i : ℕ} {payload : Bytes} (hid : requestId < 2 ^ 32) (hi : i < 2 ^ 32)
    (hmax : payload.length ≤ maxFramePayload) (hfr : payload.length ≤ env.maxFramePayload)
    (hkind : t = .data ∨ payload = []) :
    ∃ bytes, encodeFrame ⟨t, requestId, i, payload, 1⟩ = .ok bytes ∧ bytes.length ≤ frameHeaderSize + env.maxFramePayload ∧
      next env.maxFramePayload (bytes.map (⟨·, true⟩)) =
        .ok (some (⟨t, 1, requestId, UInt32.ofNat i, payload⟩, [])) := by
  have hok := (@encodeFrame_eq_ok ⟨t, requestId, i, payload, 1⟩
    (layout (UInt8.ofNat 1) (frameTypeNumber t) requestId i payload)).mpr
      ⟨1, requestId, i, rfl, by decide, hid, hi, hmax, hkind, rfl⟩
  generalize hbytes : layout (UInt8.ofNat 1) (frameTypeNumber t) requestId i payload = bytes at hok
  have hvals : values (bytes.map (⟨·, true⟩)) = bytes := by
    unfold values
    rw [map_map]
    exact map_id bytes
  refine ⟨bytes, hok, ?_, ?_⟩
  · rw [← hbytes]
    unfold layout
    simp only [length_append, fields_length, u32Le, length_cons, length_nil, frameHeaderSize]
    omega
  · rw [← hvals] at hok
    obtain ⟨frame, hnext, hfr'⟩ := next_encodeFrame hok rfl hfr
    rw [hnext, eq_of_sent hfr']

/-! ### The device during the transfer -/

variable (env job)

/-- The device expects the frame with this number, and has those before it. -/
structure At (d : Impl) (i : ℕ) : Prop where
  transfer : ∃ t, d.transfer = some t ∧ t.requestId = job.requestId ∧ t.expectedSequence = UInt32.ofNat i ∧
    t.receivedSize = ((parts env job).take i).flatten.length ∧ t.data = ((parts env job).take i).flatten ∧
    t.expectedSize = job.content.length ∧ t.expectedSha256 = env.sha256 job.content
  files : Files.Inv env d
  rxBuffer : d.rxBuffer = []

/-- The transfer is over, and the file is committed. -/
structure Over (d : Impl) : Prop where
  transfer : d.transfer = none
  committed : Committed job d
  rxBuffer : d.rxBuffer = []

variable {env job}

theorem responses_append {outputs outputs' : List Output} :
    (outputs ++ outputs').filterMap responseOf = outputs.filterMap responseOf ++ outputs'.filterMap responseOf :=
  filterMap_append

theorem At.parser {i : ℕ} (h : At env job d i) (r : List RxByte) : At env job { d with frameParser := r } i :=
  ⟨h.transfer, h.files.of_view rfl, h.rxBuffer⟩

theorem Over.parser (h : Over job d) (r : List RxByte) : Over job { d with frameParser := r } :=
  ⟨h.transfer, h.committed, h.rxBuffer⟩

theorem At.busy {i : ℕ} (h : At env job d i) : d.transfer ≠ none := by
  obtain ⟨t, ht, -⟩ := h.transfer
  rw [ht]
  exact Option.some_ne_none t

theorem At.handled {i k : ℕ} {f : BinaryFrame} (h : At env job d i)
    (ht : ∃ t, (handleFrame env d f).transfer = some t ∧ t.requestId = job.requestId ∧
      t.expectedSequence = UInt32.ofNat k ∧ t.receivedSize = ((parts env job).take k).flatten.length ∧
      t.data = ((parts env job).take k).flatten ∧ t.expectedSize = job.content.length ∧
      t.expectedSha256 = env.sha256 job.content) : At env job (handleFrame env d f) k :=
  ⟨ht, h.files.handleFrame f, handleFrame_rxBuffer h.rxBuffer f⟩

/-- What a frame does with the device, as far as the transfer sees it. -/
structure Answers (env : Env) (d : Impl) (f : BinaryFrame) (rs : List Response) : Prop where
  responses : responses (handleFrame env d f) = responses d ++ rs
  frameParser : (handleFrame env d f).frameParser = d.frameParser

theorem At.again {i j : ℕ} (h : At env job d i) (hfits : Fits env job) (hi : i ≤ (parts env job).length) (hj : j < i) :
    At env job (handleFrame env d (dataFrame env job j)) i ∧
      Answers env d (dataFrame env job j) [.ack job.requestId (UInt32.ofNat j)] := by
  have hparts := hfits.parts_length
  obtain ⟨t, ht, hid, hseq, hrest⟩ := h.transfer
  have hfr : handleFrame env d (dataFrame env job j) =
      (d.recordFrame (dataFrame env job j)).send [.response (.ack job.requestId (UInt32.ofNat j))] := by
    have hlt : UInt32.ofNat j < UInt32.ofNat i := by
      rw [UInt32.lt_iff_toNat_lt, UInt32.toNat_ofNat', UInt32.toNat_ofNat', Nat.mod_eq_of_lt (by omega),
        Nat.mod_eq_of_lt (by omega)]
      exact hj
    rw [handleFrame_eq ht]
    unfold handleTransferFrame dataFrame
    dsimp only
    rw [if_neg (not_not.mpr hid.symm), if_neg (by decide), hseq, if_pos hlt]
  refine ⟨h.handled ⟨t, ?_, hid, hseq, hrest⟩, ?_, ?_⟩
  · rw [hfr]
    exact ht
  · rw [hfr]
    exact responses_append
  · rw [hfr]
    rfl

theorem At.data {i : ℕ} (h : At env job d i) (hfits : Fits env job) (hi : i < (parts env job).length) :
    At env job (handleFrame env d (dataFrame env job i)) (i + 1) ∧ ∃ received total, Answers env d (dataFrame env job i)
        [.ack job.requestId (UInt32.ofNat i), .progress job.requestId received total] := by
  obtain ⟨t, ht, hid, hseq, hsize, hdata, hexpd, hsha⟩ := h.transfer
  have hne := (hfits.part hi).1
  have htake : ((parts env job).take (i + 1)).flatten =
      ((parts env job).take i).flatten ++ (parts env job).getD i [] := by
    rw [take_succ_eq_append_getElem hi, flatten_append, parts_getElem hi, flatten_singleton]
  have hfit : t.receivedSize + ((parts env job).getD i []).length ≤ t.expectedSize := by
    have hall := congrArg List.length hfits.parts_flatten
    have hsplit : (parts env job).flatten =
        ((parts env job).take (i + 1)).flatten ++ ((parts env job).drop (i + 1)).flatten := by
      rw [← flatten_append, take_append_drop]
    rw [hsplit, htake, length_append, length_append] at hall
    rw [hsize, hexpd]
    omega
  have hfr : handleFrame env d (dataFrame env job i) = acceptData ((d.recordFrame (dataFrame env job i)).record
        [.write t.temporaryPath ((parts env job).getD i [])]) t (dataFrame env job i) := by
    rw [handleFrame_eq ht]
    unfold handleTransferFrame handleData countData dataFrame
    dsimp only
    rw [if_neg (not_not.mpr hid.symm), if_neg (by decide), hseq, if_neg (UInt32.lt_irrefl _),
      if_neg (not_not.mpr rfl), if_pos rfl, if_neg hne, hfits.healthy.writeFile]
    dsimp only
    rw [hfits.healthy.sha256Updates, if_neg (by simp), if_neg (by rintro ⟨-, hgt⟩; omega), if_neg hne]
  generalize hpart : (parts env job).getD i [] = part at htake hfit hfr
  have htr : (handleFrame env d (dataFrame env job i)).transfer =
      some { t with
        receivedSize := t.receivedSize + part.length
        data := t.data ++ part
        expectedSequence := t.expectedSequence + 1 } := by
    rw [hfr, ← hpart]
    rfl
  refine ⟨h.handled ⟨_, htr, hid, ?_, ?_, ?_, hexpd, hsha⟩, ?_⟩
  · show t.expectedSequence + 1 = _
    rw [hseq, UInt32.ofNat_add]
    rfl
  · show t.receivedSize + part.length = _
    rw [hsize, htake, length_append]
  · show t.data ++ part = _
    rw [hdata, htake]
  · refine ⟨t.receivedSize + part.length, t.expectedSize, ?_, ?_⟩
    · rw [hfr, ← hid, ← hpart]
      show (((d.outputs ++ [_]) ++ [_]) ++ [_]).filterMap responseOf = _
      rw [responses_append, responses_append, responses_append, append_assoc, append_assoc, hid]
      rfl
    · rw [hfr]
      rfl

theorem At.full (h : At env job d (parts env job).length) (hfits : Fits env job) :
    ∃ t, d.transfer = some t ∧ t.requestId = job.requestId ∧
      t.expectedSequence = UInt32.ofNat (parts env job).length ∧ t.receivedSize = t.expectedSize ∧
      t.data = job.content ∧ env.sha256 t.data = t.expectedSha256 := by
  obtain ⟨t, ht, hid, hseq, hsize, hdata, hexpd, hsha⟩ := h.transfer
  rw [take_length, hfits.parts_flatten] at hsize hdata
  exact ⟨t, ht, hid, hseq, hsize.trans hexpd.symm, hdata, by rw [hdata, hsha]⟩

theorem At.finish (h : At env job d (parts env job).length) (hfits : Fits env job) :
    Over job (handleFrame env d (endFrame env job)) ∧
      ∃ size sha256, Answers env d (endFrame env job) [.done job.requestId size sha256] := by
  obtain ⟨t, ht, hid, hseq, hsize, hdata, hsha⟩ := h.full hfits
  obtain ⟨bridge, hbridge, hok⟩ := hfits.healthy.bridge ((d.recordFrame (endFrame env job)).startHandling t).handled
  have hfr : handleFrame env d (endFrame env job) =
      completeTransfer env (((d.recordFrame (endFrame env job)).startHandling t).record
        [.callBridge (transferArtifact env t) t.destination]) t := by
    rw [handleFrame_eq ht]
    unfold handleTransferFrame finishTransfer callBridge giveToBridge
    rw [hbridge]
    dsimp only
    have hend : (endFrame env job).requestId = t.requestId := hid.symm
    have htype : (endFrame env job).type = .endOfData := rfl
    have hnum : (endFrame env job).sequence = t.expectedSequence := hseq.symm
    rw [hok, if_neg (not_not.mpr hend), htype, if_neg (by decide), hnum, if_neg (UInt32.lt_irrefl _),
      if_neg (not_not.mpr rfl), if_neg (by decide), if_neg (not_not.mpr rfl), if_neg (not_not.mpr hsize),
      hfits.healthy.sha256Finishes, if_neg (by decide), if_neg (not_not.mpr hsha)]
  have hdisk := (h.files.receiving t ht).1.disk
  refine ⟨⟨?_, ?_, handleFrame_rxBuffer h.rxBuffer _⟩, t.expectedSize, env.sha256 t.data, ?_, ?_⟩
  · rw [hfr]
    rfl
  · refine ⟨(d.trace ++ [.frame (endFrame env job)]) ++ [.close t.temporaryPath], [.remove t.temporaryPath],
      transferArtifact env t, t.destination, ?_, hid, ?_⟩
    · rw [hfr]
      show (((d.trace ++ [_]) ++ [_]) ++ [_]) ++ [_] = _
      rw [append_assoc _ [_] [_]]
      rfl
    · rw [Files.disk_append, Files.disk_append, show Files.disk d.trace = _ from hdisk, hdata]
      rfl
  · rw [hfr, ← hid]
    show (((d.outputs ++ [_]) ++ [_]) ++ [_] ++ [_]).filterMap responseOf = _
    rw [responses_append, responses_append, responses_append, responses_append]
    show ((((responses d ++ []) ++ []) ++ [_]) ++ []) = _
    simp only [append_nil]
  · rw [hfr]
    rfl

/-! ### Responses that are not read yet -/

def isAck : Response → Bool
  | .ack .. => true
  | _ => false

/-- Acknowledgements of one data frame, so many of them, and progress. -/
structure Unread (requestId i acks : ℕ) (rs : List Response) : Prop where
  only : ∀ r ∈ rs, r = .ack requestId (UInt32.ofNat i) ∨ ∃ received total, r = .progress requestId received total
  acks : rs.countP isAck = acks

variable {requestId i acks : ℕ} {rs : List Response} {r : Response}

theorem unread_nil : Unread requestId i 0 [] := ⟨fun _ h => absurd h (not_mem_nil), rfl⟩

theorem Unread.of_none (h : Unread requestId i 0 rs) (k : ℕ) : Unread requestId k 0 rs := by
  refine ⟨fun r hr => ?_, h.acks⟩
  rcases h.only r hr with rfl | hprog
  · have hno := countP_eq_zero.mp h.acks _ hr
    exact absurd rfl hno
  · exact .inr hprog

theorem Unread.ack (h : Unread requestId i acks rs) :
    Unread requestId i (acks + 1) (rs ++ [.ack requestId (UInt32.ofNat i)]) := by
  refine ⟨fun r hr => ?_, ?_⟩
  · rcases mem_append.mp hr with hr | hr
    · exact h.only r hr
    · exact .inl (mem_singleton.mp hr)
  · rw [countP_append, h.acks]
    rfl

theorem Unread.progress (h : Unread requestId i acks rs) (received total : ℕ) :
    Unread requestId i acks (rs ++ [.progress requestId received total]) := by
  refine ⟨fun r hr => ?_, ?_⟩
  · rcases mem_append.mp hr with hr | hr
    · exact h.only r hr
    · exact .inr ⟨received, total, mem_singleton.mp hr⟩
  · rw [countP_append, h.acks]
    rfl

theorem Unread.head (h : Unread requestId i acks (r :: rs)) :
    (r = .ack requestId (UInt32.ofNat i) ∧ ∃ left, acks = left + 1 ∧ Unread requestId i left rs) ∨
      ((∃ received total, r = .progress requestId received total) ∧ Unread requestId i acks rs) := by
  have htail : ∀ r' ∈ rs, r' = .ack requestId (UInt32.ofNat i) ∨
      ∃ received total, r' = .progress requestId received total :=
    fun r' hr' => h.only r' (mem_cons_of_mem _ hr')
  have hcnt := h.acks
  rw [countP_cons] at hcnt
  rcases h.only r mem_cons_self with rfl | ⟨received, total, rfl⟩
  · exact .inl ⟨rfl, rs.countP isAck, hcnt.symm, htail, rfl⟩
  · exact .inr ⟨⟨received, total, rfl⟩, htail, hcnt⟩

/-! ### The stages of a transfer -/

variable (env job)

/-- What is on its way, in each phase of the host: frames that the device has not handled, and responses
that the host has not read. `seen` are those that it has read. -/
def Stage (seen : List Response) : Phase → List BinaryFrame → Impl → Prop
  | .waitReady, left, d =>
    left = [] ∧ At env job d 0 ∧ responses d = seen ++ [.ready job.requestId env.maxFramePayload]
  | .waitAck i attempt, left, d =>
    i < (parts env job).length ∧ attempt ≤ 2 ∧ (attempt = 0 ∨ i + 1 = (parts env job).length) ∧
      ∃ copies acks rs, copies + acks = attempt + 1 ∧ left = List.replicate copies (dataFrame env job i) ∧
        At env job d (if acks = 0 then i else i + 1) ∧ responses d = seen ++ rs ∧ Unread job.requestId i acks rs
  | .waitDone, left, d =>
    (∃ copies acks rs, (copies = 0 ∨ 0 < (parts env job).length) ∧
      left = List.replicate copies (dataFrame env job ((parts env job).length - 1)) ++ [endFrame env job] ∧
      At env job d (parts env job).length ∧ responses d = seen ++ rs ∧
      Unread job.requestId ((parts env job).length - 1) acks rs) ∨
    left = [] ∧ Over job d ∧ ∃ acks rs size sha256, responses d = seen ++ (rs ++ [.done job.requestId size sha256]) ∧
      Unread job.requestId ((parts env job).length - 1) acks rs
  | .finished, left, d => left = [] ∧ Over job d
  | .raised _, _, _ => False

variable {env job} {seen : List Response} {phase : Phase} {left : List BinaryFrame} {f : BinaryFrame}

theorem Stage.rxBuffer (h : Stage env job seen phase left d) : d.rxBuffer = [] := by
  cases phase with
  | waitReady => exact h.2.1.rxBuffer
  | waitAck i attempt =>
    obtain ⟨-, -, -, copies, acks, rs, -, -, hat, -⟩ := h
    exact hat.rxBuffer
  | waitDone =>
    rcases h with ⟨copies, acks, rs, -, -, hat, -⟩ | ⟨-, hover, -⟩
    · exact hat.rxBuffer
    · exact hover.rxBuffer
  | finished => exact h.2.rxBuffer
  | raised message => exact absurd h id

theorem Stage.parser (h : Stage env job seen phase left d) (bytes : List RxByte) :
    Stage env job seen phase left { d with frameParser := bytes } := by
  cases phase with
  | waitReady => exact ⟨h.1, h.2.1.parser bytes, h.2.2⟩
  | waitAck i attempt =>
    obtain ⟨hi, hatt, hlast, copies, acks, rs, hcnt, hleft, hat, hrs⟩ := h
    exact ⟨hi, hatt, hlast, copies, acks, rs, hcnt, hleft, hat.parser bytes, hrs⟩
  | waitDone =>
    rcases h with ⟨copies, acks, rs, hcops, hleft, hat, hrs⟩ | ⟨hleft, hover, hrs⟩
    · exact .inl ⟨copies, acks, rs, hcops, hleft, hat.parser bytes, hrs⟩
    · exact .inr ⟨hleft, hover.parser bytes, hrs⟩
  | finished => exact ⟨h.1, h.2.parser bytes⟩
  | raised message => exact h

theorem Stage.frame (h : Stage env job seen phase (f :: left) d) (hfits : Fits env job) :
    Stage env job seen phase left (handleFrame env d f) ∧ d.transfer ≠ none ∧
      ∃ rs, rs.length ≤ 2 ∧ Answers env d f rs := by
  cases phase with
  | waitReady => exact absurd h.1 (cons_ne_nil _ _)
  | waitAck i attempt =>
    obtain ⟨hi, hatt, hlast, copies, acks, rs, hcnt, hleft, hat, hrs, hunr⟩ := h
    cases copies with
    | zero => exact absurd hleft (cons_ne_nil _ _)
    | succ copies =>
      rw [replicate_succ] at hleft
      obtain ⟨rfl, rfl⟩ := cons.inj hleft
      by_cases hacks : acks = 0
      · rw [hacks, if_pos rfl] at hat
        rw [hacks] at hunr
        obtain ⟨hnew, received, total, hansw⟩ := hat.data hfits hi
        refine ⟨⟨hi, hatt, hlast, copies, 1, _, by omega, rfl, hnew, ?_,
          hunr.ack.progress received total⟩, hat.busy, _, by simp, hansw⟩
        rw [hansw.responses, hrs, append_assoc, append_assoc]
        rfl
      · rw [if_neg hacks] at hat
        obtain ⟨hsame, hansw⟩ := hat.again hfits hi (Nat.lt_succ_self i)
        refine ⟨⟨hi, hatt, hlast, copies, acks + 1, _, by omega, rfl, ?_, ?_, hunr.ack⟩, hat.busy, _,
          by simp, hansw⟩
        · rw [if_neg (Nat.succ_ne_zero acks)]
          exact hsame
        · rw [hansw.responses, hrs, append_assoc]
  | waitDone =>
    rcases h with ⟨copies, acks, rs, hcops, hleft, hat, hrs, hunr⟩ | ⟨hleft, -⟩
    · cases copies with
      | zero =>
        rw [replicate_zero, nil_append] at hleft
        obtain ⟨rfl, rfl⟩ := cons.inj hleft
        obtain ⟨hover, size, sha256, hansw⟩ := hat.finish hfits
        refine ⟨.inr ⟨rfl, hover, acks, rs, size, sha256, ?_, hunr⟩, hat.busy, _, by simp, hansw⟩
        rw [hansw.responses, hrs, append_assoc]
      | succ copies =>
        rw [replicate_succ, cons_append] at hleft
        obtain ⟨rfl, rfl⟩ := cons.inj hleft
        have hpos : 0 < (parts env job).length := hcops.resolve_left (Nat.succ_ne_zero copies)
        obtain ⟨hsame, hansw⟩ := hat.again hfits le_rfl (Nat.sub_lt hpos Nat.one_pos)
        refine ⟨.inl ⟨copies, acks + 1, _, .inr hpos, rfl, hsame, ?_, hunr.ack⟩, hat.busy, _, by simp, hansw⟩
        rw [hansw.responses, hrs, append_assoc]
    · exact absurd hleft (cons_ne_nil _ _)
  | finished => exact absurd h.1 (cons_ne_nil _ _)
  | raised message => exact absurd h id

theorem stage_kept (hfits : Fits env job) (seen : List Response) (phase : Phase) :
    KeptByFrames env (Stage env job seen phase) where
  parser _ _ bytes h := h.parser bytes
  busy _ _ _ h := (h.frame hfits).2.1
  handle _ _ _ h := (h.frame hfits).1
  frameParser _ _ _ h := by
    obtain ⟨-, -, rs, -, hansw⟩ := h.frame hfits
    exact hansw.frameParser
  answers _ _ _ h := by
    obtain ⟨-, -, rs, hlen, hansw⟩ := h.frame hfits
    rw [hansw.responses, length_append]
    omega

end Brookesia.Usb.HostTransfer

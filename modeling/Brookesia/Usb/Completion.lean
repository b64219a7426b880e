import Brookesia.Usb.LateAnswers

/-! # The end of a transfer

If only the last data frame is written again, every run of a transfer comes to its end, with the done
response and the whole file. -/

namespace Brookesia.Usb.HostTransfer

open Transition List
open Filesystem.Path Data.Json Protocol Port
open HostProtocol Codec
open Impl

variable {env : Env} {job : Job} {d : Impl} {net net' : Net} {pieces : List (List RxByte × BinaryFrame)}
  {seen rs : List Response}

/-! ### The start -/

theorem openTransfer_accepted {transfer : Transfer} (ht : d.transfer = none)
    (h : (openTransfer env d transfer).transfer.isSome = true) :
    (openTransfer env d transfer).transfer = some { transfer with isOpen := true } ∧
      responses (openTransfer env d transfer) = responses d ++ [.ready transfer.requestId env.maxFramePayload] ∧
      (openTransfer env d transfer).frameParser = [] ∧ (openTransfer env d transfer).rxBuffer = d.rxBuffer := by
  have hnone : d.transfer.isSome ≠ true := by
    rw [ht]
    decide
  revert h
  unfold openTransfer
  split
  · exact fun h => absurd h hnone
  split
  · exact fun h => absurd h hnone
  split
  · exact fun h => absurd h hnone
  · refine fun _ => ⟨rfl, ?_, rfl, rfl⟩
    show (((d.outputs ++ [_]) ++ [_]) ++ [_]).filterMap responseOf = _
    rw [responses_append, responses_append, responses_append]
    show ((responses d ++ [_]) ++ []) ++ [] = _
    rw [append_nil, append_nil]

theorem beginTransfer_accepted {command : HostCommand} {params : JsonObject} {requestId size : ℕ} {sha256 : Bytes}
    (ht : d.transfer = none) (h : (beginTransfer env d requestId command params).transfer.isSome = true)
    (hsize : getUnsigned params "size" = some size) (hsha : getString params "sha256" = some sha256) :
    size ≤ env.maxTransferSize ∧
      ∃ t : Transfer, t.requestId = requestId ∧ t.expectedSequence = 0 ∧ t.receivedSize = 0 ∧ t.data = [] ∧
        t.expectedSize = size ∧ t.expectedSha256 = lowerCopy sha256 ∧
        beginTransfer env d requestId command params = openTransfer env d t := by
  have hnone : d.transfer.isSome ≠ true := by
    rw [ht]
    decide
  revert h
  unfold beginTransfer
  rw [if_neg hnone, hsize, hsha]
  dsimp only
  split
  · exact fun h => absurd h hnone
  split
  · exact fun h => absurd h hnone
  next hle =>
  split
  · exact fun h => absurd h hnone
  · exact fun _ => ⟨not_lt.mp hle, _, rfl, rfl, rfl, rfl, rfl, rfl, rfl⟩

/-! ### What is on its way -/

variable (env job)

/-- The frames `pieces` are on their way to the device, and the host has read `seen`. -/
structure OnWay (net : Net) (pieces : List (List RxByte × BinaryFrame)) (seen : List Response) : Prop where
  read : seen.length = net.read
  frames : Pieces env.maxFramePayload pieces
  bytes : net.device.frameParser ++ net.toDevice = bytesOf pieces
  stage : Stage env job seen net.host (pieces.map (·.2)) net.device
  parser : next env.maxFramePayload net.device.frameParser = .ok none
  frameSize : net.host ≠ .waitReady → net.frameSize = env.maxFramePayload

def Inv (net : Net) : Prop := ∃ pieces seen, OnWay env job net pieces seen

variable {env job}

theorem Accepted.fits (h : Accepted job env net) (hheal : Healthy env) (hconfigured : Configured env)
    (hpay : env.maxFramePayload ≤ maxFramePayload ∨ job.content.length ≤ maxFramePayload) : Fits env job := by
  obtain ⟨d, command, params, sha256, -, ht, -, -, hdev, hsome, hsize, hsha, -, -⟩ := h.device
  rw [hdev] at hsome
  obtain ⟨hle, -⟩ := beginTransfer_accepted ht hsome hsize hsha
  have hmax := hconfigured.transferSize
  have hid := h.requestId
  unfold uint32Max at hid
  exact ⟨hheal, hconfigured.framePayload, by omega, by omega, hpay⟩

theorem Accepted.inv (h : Accepted job env net) : Inv env job net := by
  obtain ⟨d, command, params, sha256, hreach, ht, hrx, -, hdev, hsome, hsize, hsha, hdigest, hread⟩ := h.device
  have hfiles : Files.Inv env net.device := by
    rw [hdev]
    exact Files.beginTransfer_inv ((Files.inv_inductive env).reach hreach) _ _ _
  rw [hdev] at hsome
  obtain ⟨-, t, hid, hseq, hreceived, hdata, hexpd, hexpectedSha, hopen⟩ :=
    beginTransfer_accepted ht hsome hsize hsha
  rw [hopen] at hdev hsome
  obtain ⟨htr, hresponses, hfp, hrx'⟩ := openTransfer_accepted ht hsome
  rw [← hdev] at htr hresponses hfp hrx'
  have hat : At env job net.device 0 :=
    ⟨⟨_, htr, hid, hseq, hreceived, hdata, hexpd, hexpectedSha.trans hdigest⟩, hfiles, hrx'.trans hrx⟩
  refine ⟨[], responses d, hread.symm, fun _ hp => absurd hp not_mem_nil, ?_, ?_, ?_, ?_⟩
  · rw [hfp, h.toDevice]
    rfl
  · rw [h.host]
    exact ⟨rfl, hat, by rw [hresponses, hid]⟩
  · rw [hfp]
    exact next_of_short (by decide)
  · exact fun hne => absurd h.host hne

/-! ### The host writes -/

variable {i attempt : ℕ} {bytes : List RxByte} {frame : BinaryFrame} {phase : Phase} {r : Response}

/-- The bytes of one frame are written, and nothing else changes but the phase of the host. -/
structure Writes (env : Env) (net : Net) (phase : Phase) (frame : BinaryFrame) (net' : Net) (bytes : List RxByte) :
    Prop where
  net : net' = { net with host := phase, toDevice := net.toDevice ++ bytes }
  length : bytes.length ≤ frameHeaderSize + env.maxFramePayload
  frame : next env.maxFramePayload bytes = .ok (some (frame, []))

theorem write_ok {hostFrame : HostFrame} {encoded : Bytes} (h : encodeFrame hostFrame = .ok encoded) :
    write net hostFrame phase =
      { net with host := phase, toDevice := net.toDevice ++ encoded.map (⟨·, true⟩) } := by
  unfold write
  rw [h]

theorem writeData_writes (hfits : Fits env job) (hi : i < (parts env job).length) :
    ∃ bytes, Writes env net (.waitAck i attempt) (dataFrame env job i)
      (writeData job net i attempt ((parts env job).getD i [])) bytes := by
  have hcnt := hfits.parts_length
  obtain ⟨-, hfr, hmax⟩ := hfits.part hi
  obtain ⟨bytes, hok, hlen, hnext⟩ := @encoded env .data job.requestId i _ hfits.requestId (by omega) hmax hfr
    (.inl rfl)
  exact ⟨bytes.map (⟨·, true⟩), write_ok hok, by rw [length_map]; exact hlen, hnext⟩

theorem payloads_eq (hsize : net.frameSize = env.maxFramePayload) : payloads job net = parts env job := by
  unfold payloads parts
  rw [hsize]

theorem writeNext_data (hfits : Fits env job) (hsize : net.frameSize = env.maxFramePayload)
    (hi : i < (parts env job).length) :
    ∃ bytes, Writes env net (.waitAck i 0) (dataFrame env job i) (writeNext job net i) bytes := by
  have hpay : (parts env job)[i]? = some ((parts env job).getD i []) := by
    rw [parts_getElem hi]
    exact List.getElem?_eq_getElem hi
  have heq : writeNext job net i = writeData job net i 0 ((parts env job).getD i []) := by
    unfold writeNext
    rw [payloads_eq hsize, hpay]
  rw [heq]
  exact writeData_writes hfits hi

theorem writeNext_none (h : (payloads job net)[i]? = none) :
    writeNext job net i = write net ⟨.endOfData, job.requestId, i, [], 1⟩ .waitDone := by
  unfold writeNext
  rw [h]

theorem writeNext_end (hfits : Fits env job) (hsize : net.frameSize = env.maxFramePayload) :
    ∃ bytes, Writes env net .waitDone (endFrame env job) (writeNext job net (parts env job).length) bytes := by
  have hemp : ∀ limit, ([] : Bytes).length ≤ limit := fun limit => by simp
  obtain ⟨bytes, hok, hlen, hnext⟩ := @encoded env .endOfData job.requestId (parts env job).length []
    hfits.requestId hfits.parts_length (hemp _) (hemp _) (.inr rfl)
  have hnone : (payloads job net)[(parts env job).length]? = none := by
    rw [payloads_eq hsize]
    exact List.getElem?_eq_none le_rfl
  refine ⟨bytes.map (⟨·, true⟩), ?_, by rw [length_map]; exact hlen, hnext⟩
  rw [writeNext_none hnone]
  exact write_ok hok

theorem OnWay.hasRead (h : OnWay env job net pieces seen) (r : Response)
    (hstg : Stage env job (seen ++ [r]) phase (pieces.map (·.2)) net.device)
    (hph : phase ≠ .waitReady → net.frameSize = env.maxFramePayload) :
    OnWay env job { net with host := phase, read := net.read + 1 } pieces (seen ++ [r]) :=
  ⟨by rw [length_append, h.read]; rfl, h.frames, h.bytes, hstg, h.parser, hph⟩

/-! ### The work that is left -/

def rounds (count : ℕ) : Phase → ℕ
  | .waitReady => 3 * count + 1
  | .waitAck sequence attempt => 3 * (count - sequence - 1) + (3 - attempt)
  | .waitDone => 0
  | .finished => 0
  | .raised _ => 0

variable (env job) in
def work (net : Net) : ℕ :=
  (2 * (frameHeaderSize + env.maxFramePayload) + 1) * rounds (parts env job).length net.host +
    2 * net.toDevice.length + net.device.frameParser.length + ((responses net.device).length - net.read)

theorem work_write {frameSize read : ℕ} (hread : net.read ≤ read)
    (hw : Writes env { net with frameSize := frameSize, read := read } phase frame net' bytes)
    (hrounds : rounds (parts env job).length phase < rounds (parts env job).length net.host) :
    work env job net' < work env job net := by
  have hlen := hw.length
  rw [hw.net]
  unfold work
  dsimp only
  rw [length_append]
  have hmul := Nat.mul_le_mul_left (2 * (frameHeaderSize + env.maxFramePayload) + 1) hrounds
  rw [Nat.succ_eq_add_one, Nat.mul_add_one] at hmul
  omega

theorem work_read (hread : net.read < (responses net.device).length)
    (hrounds : rounds (parts env job).length phase ≤ rounds (parts env job).length net.host) :
    work env job { net with host := phase, read := net.read + 1 } < work env job net := by
  unfold work
  dsimp only
  have hmul := Nat.mul_le_mul_left (2 * (frameHeaderSize + env.maxFramePayload) + 1) hrounds
  omega

/-! ### What a step keeps -/

variable (env job) in
/-- What every step does: the transfer is nearer to its end. -/
def Nearer (net net' : Net) : Prop := Inv env job net' ∧ work env job net' < work env job net

theorem Stage.seen_le {left : List BinaryFrame} (h : Stage env job seen phase left d) (hph : phase ≠ .finished) :
    seen.length ≤ (responses d).length := by
  cases phase with
  | waitReady =>
    rw [h.2.2, length_append]
    omega
  | waitAck i attempt =>
    obtain ⟨-, -, -, copies, acks, rs, -, -, -, hrs, -⟩ := h
    rw [hrs, length_append]
    omega
  | waitDone =>
    rcases h with ⟨copies, acks, rs, -, -, -, hrs, -⟩ | ⟨-, -, acks, rs, size, sha256, hrs, -⟩
    · rw [hrs, length_append]
      omega
    · rw [hrs, length_append]
      omega
  | finished => exact absurd rfl hph
  | raised message => exact absurd h id

theorem OnWay.toDevice (h : OnWay env job net pieces seen) (hhost : net.host = .finished) : net.toDevice = [] := by
  have hstg := h.stage
  rw [hhost] at hstg
  have hbytes := h.bytes
  rw [map_eq_nil_iff.mp hstg.1] at hbytes
  exact (append_eq_nil_iff.mp hbytes).2

theorem OnWay.write {frameSize read : ℕ} {seen' : List Response} (h : OnWay env job net pieces seen)
    (hsize : frameSize = env.maxFramePayload) (hseen : seen'.length = read) (hle : net.read ≤ read)
    (hw : Writes env { net with frameSize := frameSize, read := read } phase frame net' bytes)
    (hrounds : rounds (parts env job).length phase < rounds (parts env job).length net.host)
    (hstg : Stage env job seen' phase (pieces.map (·.2) ++ [frame]) net.device) : Nearer env job net net' := by
  refine ⟨⟨pieces ++ [(bytes, frame)], seen', ?_⟩, work_write hle hw hrounds⟩
  rw [hw.net]
  refine ⟨hseen, ?_, ?_, ?_, h.parser, fun _ => hsize⟩
  · intro piece hp
    rcases mem_append.mp hp with hp | hp
    · exact h.frames piece hp
    · rw [mem_singleton.mp hp]
      exact hw.frame
  · unfold bytesOf
    rw [map_append, flatten_append, ← append_assoc]
    show net.device.frameParser ++ net.toDevice ++ bytes = bytesOf pieces ++ _
    rw [h.bytes]
    simp
  · rw [map_append]
    exact hstg

theorem OnWay.deliver (h : OnWay env job net pieces seen) (hfits : Fits env job) {count : ℕ} (hpos : 0 < count)
    (hle : count ≤ net.toDevice.length) :
    Nearer env job net
      { net with
        device := Impl.deliver env net.device (net.toDevice.take count)
        toDevice := net.toDevice.drop count } := by
  have hchunk : net.toDevice.take count ≠ [] := by
    rw [ne_eq, take_eq_nil_iff, not_or, ← length_eq_zero_iff]
    omega
  have hbytes : net.device.frameParser ++ (net.toDevice.take count ++ net.toDevice.drop count) = bytesOf pieces := by
    rw [take_append_drop]
    exact h.bytes
  obtain ⟨left, hleft, hstg, hrest, hnone, hlen⟩ :=
    (stage_kept hfits seen net.host).arrive h.frames h.stage h.stage.rxBuffer hchunk hbytes
  refine ⟨⟨left, seen, h.read, hleft, hrest, hstg, hnone, h.frameSize⟩, ?_⟩
  have hhost : net.host ≠ .finished := by
    intro hhost
    rw [h.toDevice hhost, length_nil] at hle
    omega
  have hread := h.stage.seen_le hhost
  have hread' := hstg.seen_le hhost
  rw [h.read] at hread hread'
  rw [length_take, Nat.min_eq_left hle] at hlen
  unfold work
  dsimp only
  rw [length_drop]
  omega

theorem OnWay.drop (h : OnWay env job net pieces seen) (hph : net.host ≠ .waitReady)
    (hlen : net.read < (responses net.device).length)
    (htakes : takes job.requestId (operations net.host) r = false)
    (hstg : Stage env job (seen ++ [r]) net.host (pieces.map (·.2)) net.device) :
    Nearer env job net (onRead job { net with read := net.read + 1 } r) := by
  have heq : onRead job { net with read := net.read + 1 } r = { net with host := net.host, read := net.read + 1 } := by
    unfold onRead
    rw [if_neg (by rw [htakes]; decide)]
  rw [heq]
  exact ⟨⟨pieces, _, h.hasRead r hstg fun _ => h.frameSize hph⟩, work_read hlen le_rfl⟩

theorem takes_progress {operations : List String} {received total : ℕ} (h : "progress" ∉ operations) :
    takes job.requestId operations (.progress job.requestId received total) = false :=
  decide_eq_false fun hmem => h hmem.2

theorem OnWay.ready (h : OnWay env job net pieces seen) (hfits : Fits env job) (hhost : net.host = .waitReady)
    (hr : (responses net.device)[net.read]? = some r) :
    Nearer env job net (onRead job { net with read := net.read + 1 } r) := by
  have hstg := h.stage
  rw [hhost] at hstg
  obtain ⟨hleft, hat, hrs⟩ := hstg
  rw [hrs, ← h.read, List.getElem?_concat_length] at hr
  cases hr
  have heq : onRead job { net with read := net.read + 1 } (.ready job.requestId env.maxFramePayload) =
      writeNext job { net with frameSize := env.maxFramePayload, read := net.read + 1 } 0 := by
    unfold onRead onResponse takes
    rw [hhost, if_pos (by simp [requestIdOf, op, operations])]
  rw [heq]
  have hseen : (seen ++ [Response.ready job.requestId env.maxFramePayload]).length = net.read + 1 := by
    rw [length_append, h.read]
    rfl
  have hall : responses net.device = (seen ++ [.ready job.requestId env.maxFramePayload]) ++ [] := by
    rw [hrs, append_nil]
  by_cases hemp : (parts env job).length = 0
  · obtain ⟨bytes, hw⟩ := @writeNext_end env job { net with frameSize := env.maxFramePayload, read := net.read + 1 }
      hfits rfl
    rw [hemp] at hw
    refine h.write rfl hseen (Nat.le_succ _) hw ?_ ?_
    · rw [hhost]
      exact Nat.succ_pos _
    · rw [hleft]
      refine .inl ⟨0, 0, [], .inl rfl, rfl, ?_, hall, unread_nil⟩
      rw [hemp]
      exact hat
  · have hpos : 0 < (parts env job).length := Nat.pos_of_ne_zero hemp
    obtain ⟨bytes, hw⟩ := @writeNext_data env job { net with frameSize := env.maxFramePayload, read := net.read + 1 } 0
      hfits rfl hpos
    refine h.write rfl hseen (Nat.le_succ _) hw ?_ ?_
    · simp only [hhost, rounds]
      omega
    · rw [hleft]
      exact ⟨hpos, Nat.zero_le _, .inl rfl, 1, 0, [], rfl, rfl, hat, hall, unread_nil⟩

theorem OnWay.ack (h : OnWay env job net pieces seen) (hfits : Fits env job) (hhost : net.host = .waitAck i attempt)
    (hr : (responses net.device)[net.read]? = some r) :
    Nearer env job net (onRead job { net with read := net.read + 1 } r) := by
  have hcnt := hfits.parts_length
  have hstg := h.stage
  rw [hhost] at hstg
  obtain ⟨hi, hatt, hlast, copies, acks, rs, hcops, hleft, hat, hrs, hunr⟩ := hstg
  have hsize := h.frameSize (by rw [hhost]; exact Phase.noConfusion)
  have hlength := (List.getElem?_eq_some_iff.mp hr).1
  rw [hrs, ← h.read, List.getElem?_append_right le_rfl, Nat.sub_self] at hr
  cases rs with
  | nil => cases hr
  | cons first rs =>
  obtain rfl : first = r := Option.some.inj hr
  have hall : responses net.device = (seen ++ [first]) ++ rs := by
    rw [hrs, append_assoc]
    rfl
  have hseen : (seen ++ [first]).length = net.read + 1 := by
    rw [length_append, h.read]
    rfl
  rcases hunr.head with ⟨rfl, acksLeft, hacks, hunr'⟩ | ⟨⟨received, total, rfl⟩, hunr'⟩
  · have hseq : (UInt32.ofNat i).toNat = i := by
      rw [UInt32.toNat_ofNat', Nat.mod_eq_of_lt (by omega)]
    have heq : onRead job { net with read := net.read + 1 } (.ack job.requestId (UInt32.ofNat i)) =
        writeNext job { net with frameSize := net.frameSize, read := net.read + 1 } (i + 1) := by
      unfold onRead onResponse takes
      rw [hhost, if_pos (by simp [requestIdOf, op, operations])]
      dsimp only
      rw [hseq, if_neg (not_not.mpr rfl)]
    rw [heq]
    rw [if_neg (by omega)] at hat
    by_cases hmore : i + 1 < (parts env job).length
    · have hzero : attempt = 0 := hlast.resolve_right (by omega)
      obtain ⟨bytes, hw⟩ := @writeNext_data env job { net with frameSize := net.frameSize, read := net.read + 1 } (i + 1)
        hfits hsize hmore
      refine h.write hsize hseen (Nat.le_succ _) hw ?_ ?_
      · simp only [hhost, rounds]
        omega
      · have hnone : copies = 0 ∧ acksLeft = 0 := by omega
        rw [hleft, hnone.1]
        rw [hnone.2] at hunr'
        exact ⟨hmore, Nat.zero_le _, .inl rfl, 1, 0, rs, rfl, rfl, hat, hall, hunr'.of_none (i + 1)⟩
    · have hlen : (parts env job).length = i + 1 := by omega
      obtain ⟨bytes, hw⟩ := @writeNext_end env job { net with frameSize := net.frameSize, read := net.read + 1 }
        hfits hsize
      rw [hlen] at hw
      refine h.write hsize hseen (Nat.le_succ _) hw ?_ ?_
      · simp only [hhost, rounds]
        omega
      · rw [hleft]
        refine .inl ⟨copies, acksLeft, rs, .inr (by omega), ?_, ?_, hall, ?_⟩
        · rw [hlen]
          rfl
        · rw [hlen]
          exact hat
        · rw [hlen]
          exact hunr'
  · refine h.drop (by rw [hhost]; exact Phase.noConfusion) hlength ?_ ?_
    · rw [hhost]
      exact takes_progress (show "progress" ∉ ["ack", "error"] by decide)
    · rw [hhost]
      exact ⟨hi, hatt, hlast, copies, acks, rs, hcops, hleft, hat, hall, hunr'⟩

theorem Unread.skip {acks : ℕ} (h : Unread job.requestId i acks (r :: rs)) :
    ∃ acks', Unread job.requestId i acks' rs ∧ takes job.requestId ["done", "error"] r = false := by
  rcases h.head with ⟨rfl, acksLeft, -, h'⟩ | ⟨⟨received, total, rfl⟩, h'⟩
  · exact ⟨acksLeft, h', decide_eq_false fun hmem => absurd hmem.2 (show "ack" ∉ ["done", "error"] by decide)⟩
  · exact ⟨acks, h', takes_progress (by decide)⟩

theorem OnWay.done (h : OnWay env job net pieces seen) (hhost : net.host = .waitDone)
    (hr : (responses net.device)[net.read]? = some r) :
    Nearer env job net (onRead job { net with read := net.read + 1 } r) := by
  have hph : net.host ≠ .waitReady := by
    rw [hhost]
    exact Phase.noConfusion
  have hlen := (List.getElem?_eq_some_iff.mp hr).1
  have hstg := h.stage
  rw [hhost] at hstg
  rcases hstg with ⟨copies, acks, rs, hcops, hleft, hat, hrs, hunr⟩ |
    ⟨hleft, hover, acks, rs, size, sha256, hrs, hunr⟩
  · rw [hrs, ← h.read, List.getElem?_append_right le_rfl, Nat.sub_self] at hr
    cases rs with
    | nil => cases hr
    | cons first rs =>
    obtain rfl : first = r := Option.some.inj hr
    have hall : responses net.device = (seen ++ [first]) ++ rs := by
      rw [hrs, append_assoc]
      rfl
    obtain ⟨acks', hunr', htakes⟩ := hunr.skip
    refine h.drop hph hlen (by rw [hhost]; exact htakes) ?_
    rw [hhost]
    exact .inl ⟨copies, acks', rs, hcops, hleft, hat, hall, hunr'⟩
  · rw [hrs, ← h.read, List.getElem?_append_right le_rfl, Nat.sub_self] at hr
    cases rs with
    | nil =>
      obtain rfl : Response.done job.requestId size sha256 = r := Option.some.inj hr
      have heq : onRead job { net with read := net.read + 1 } (.done job.requestId size sha256) =
          { net with host := .finished, read := net.read + 1 } := by
        unfold onRead onResponse takes
        rw [hhost, if_pos (by simp [requestIdOf, op, operations])]
      rw [heq]
      refine ⟨⟨pieces, _, h.hasRead (.done job.requestId size sha256) ⟨hleft, hover⟩ fun _ => h.frameSize hph⟩, work_read hlen ?_⟩
      exact Nat.zero_le _
    | cons first rs =>
    obtain rfl : first = r := Option.some.inj hr
    have hall : responses net.device = (seen ++ [first]) ++ (rs ++ [.done job.requestId size sha256]) := by
      rw [hrs, append_assoc]
      rfl
    obtain ⟨acks', hunr', htakes⟩ := hunr.skip
    refine h.drop hph hlen (by rw [hhost]; exact htakes) ?_
    rw [hhost]
    exact .inr ⟨hleft, hover, acks', rs, size, sha256, hall, hunr'⟩

theorem OnWay.timeout (h : OnWay env job net pieces seen) (hfits : Fits env job)
    (hlate : mayBeLate net.host = true) (hlast : writesLast (payloads job net).length net.host = true) :
    Nearer env job net (onTimeout job net) := by
  cases hhost : net.host with
  | waitAck i attempt =>
    have hstg := h.stage
    rw [hhost] at hstg hlate hlast
    have hsize := h.frameSize (by rw [hhost]; exact Phase.noConfusion)
    have hle : attempt < 2 := of_decide_eq_true hlate
    have hlen : i + 1 = (parts env job).length := by
      rw [← payloads_eq hsize]
      exact of_decide_eq_true hlast
    obtain ⟨hi, -, -, copies, acks, rs, hcops, hleft, hat, hrs, hunr⟩ := hstg
    have heq : onTimeout job net = writeData job net i (attempt + 1) ((parts env job).getD i []) := by
      unfold onTimeout
      rw [hhost]
      dsimp only
      rw [if_neg (by omega), payloads_eq hsize]
    obtain ⟨bytes, hw⟩ := @writeData_writes env job net i (attempt + 1) hfits hi
    rw [heq]
    refine @OnWay.write env job net _ pieces seen bytes _ _ net.frameSize net.read seen h hsize h.read le_rfl hw ?_ ?_
    · simp only [hhost, rounds]
      omega
    · refine ⟨hi, hle, .inr hlen, copies + 1, acks, rs, by omega, ?_, hat, hrs, hunr⟩
      rw [hleft, replicate_succ']
  | waitReady => rw [hhost] at hlate; cases hlate
  | waitDone => rw [hhost] at hlate; cases hlate
  | finished => rw [hhost] at hlate; cases hlate
  | raised message => rw [hhost] at hlate; cases hlate

/-! ### Runs -/

/-- The answers are late as in `LateTwice`, and only the last data frame is written again. -/
def Condition (job : Job) (net : Net) (a : Action) : Prop := LateTwice net a ∧ OnlyLastAgain job net a

instance (net : Net) (a : Action) : Decidable (Condition job net a) := inferInstanceAs (Decidable (_ ∧ _))

theorem waiting_cases (h : waiting net = true) :
    net.host = .waitReady ∨ (∃ i attempt, net.host = .waitAck i attempt) ∨ net.host = .waitDone := by
  unfold waiting at h
  cases hhost : net.host with
  | waitReady => exact .inl rfl
  | waitAck i attempt => exact .inr (.inl ⟨i, attempt, rfl⟩)
  | waitDone => exact .inr (.inr rfl)
  | finished => rw [hhost] at h; cases h
  | raised message => rw [hhost] at h; cases h

theorem step_nearer (hfits : Fits env job) {a : Action} (h : Inv env job net) (hc : Condition job net a)
    (hst : (machine job env).step net a = some net') : Nearer env job net net' := by
  obtain ⟨pieces, seen, hway⟩ := h
  cases a with
  | deliver count =>
    obtain ⟨⟨hpos, hle⟩, rfl⟩ := of_guard hst
    exact hway.deliver hfits hpos hle
  | read =>
    have hst : step job env net .read = some net' := hst
    unfold step at hst
    dsimp only at hst
    cases hr : (responses net.device)[net.read]? with
    | none => rw [hr] at hst; cases hst
    | some r =>
      rw [hr] at hst
      obtain ⟨hwait, rfl⟩ := of_guard hst
      rcases waiting_cases hwait with hhost | ⟨i, attempt, hhost⟩ | hhost
      · exact hway.ready hfits hhost hr
      · exact hway.ack hfits hhost hr
      · exact hway.done hhost hr
  | timeout =>
    obtain ⟨-, rfl⟩ := of_guard hst
    exact hway.timeout hfits (hc.1 rfl) (hc.2 rfl)

theorem inv_inductive (hfits : Fits env job) : (machine job env).Inductive (Condition job) (Inv env job) where
  init _ h := h.inv
  step _ _ _ h hc hst := (step_nearer hfits h hc hst).1

/-! ### The end -/

theorem exists_response (h : OnWay env job net pieces seen) (hrs : responses net.device = seen ++ rs) (hne : rs ≠ []) :
    ∃ r, (responses net.device)[net.read]? = some r := by
  obtain ⟨r, rest, rfl⟩ := exists_cons_of_ne_nil hne
  refine ⟨r, ?_⟩
  rw [hrs, ← h.read, List.getElem?_append_right le_rfl, Nat.sub_self]
  rfl

theorem OnWay.allHandled (h : OnWay env job net pieces seen) (hemp : net.toDevice = []) : pieces = [] := by
  cases pieces with
  | nil => rfl
  | cons piece pieces =>
    have hbytes := h.bytes
    have hnext : next env.maxFramePayload (bytesOf (piece :: pieces)) = .ok (some (piece.2, bytesOf pieces)) :=
      next_append_some (h.frames piece mem_cons_self)
    rw [hemp, append_nil] at hbytes
    rw [← hbytes, h.parser] at hnext
    cases hnext

theorem Stage.answered (h : Stage env job seen phase [] d) (hph : phase ≠ .finished) :
    (∃ rs, rs ≠ [] ∧ responses d = seen ++ rs) ∧ operations phase ≠ [] := by
  cases phase with
  | waitReady => exact ⟨⟨_, cons_ne_nil _ _, h.2.2⟩, cons_ne_nil _ _⟩
  | waitAck i attempt =>
    obtain ⟨-, -, -, copies, acks, rs, hcops, hleft, -, hrs, hunr⟩ := h
    have hzero : copies = 0 := by
      have hlen := congrArg List.length hleft
      rw [length_nil, length_replicate] at hlen
      omega
    refine ⟨⟨rs, ?_, hrs⟩, cons_ne_nil _ _⟩
    rintro rfl
    have hacks : 0 = acks := hunr.acks
    omega
  | waitDone =>
    refine ⟨?_, cons_ne_nil _ _⟩
    rcases h with ⟨copies, acks, rs, -, hleft, -⟩ | ⟨-, -, acks, rs, size, sha256, hrs, -⟩
    · exact absurd hleft.symm (append_ne_nil_of_right_ne_nil _ (cons_ne_nil _ _))
    · exact ⟨_, append_ne_nil_of_right_ne_nil _ (cons_ne_nil _ _), hrs⟩
  | finished => exact absurd rfl hph
  | raised message => exact absurd h id

theorem Inv.goesOn (h : Inv env job net) (hhost : net.host ≠ .finished) :
    ∃ a, a ≠ .timeout ∧ ((machine job env).step net a).isSome = true := by
  obtain ⟨pieces, seen, hway⟩ := h
  by_cases hemp : net.toDevice = []
  · have hstg := hway.stage
    rw [hway.allHandled hemp] at hstg
    obtain ⟨⟨rs, hne, hrs⟩, hops⟩ := hstg.answered hhost
    obtain ⟨r, hr⟩ := exists_response hway hrs hne
    refine ⟨.read, Action.noConfusion, ?_⟩
    have hwait : waiting net = true := decide_eq_true hops
    show (step job env net .read).isSome = true
    unfold step
    dsimp only
    rw [hr]
    dsimp only
    rw [if_pos hwait]
    rfl
  · refine ⟨.deliver net.toDevice.length, Action.noConfusion, ?_⟩
    show (if 0 < net.toDevice.length ∧ net.toDevice.length ≤ net.toDevice.length then some _ else none).isSome = true
    rw [if_pos ⟨length_pos_iff.mpr hemp, le_rfl⟩]
    rfl

theorem Inv.device (h : Inv env job net) : net.device.transfer.isSome = true ∨ Committed job net.device := by
  obtain ⟨pieces, seen, hway⟩ := h
  have hstg := hway.stage
  cases hhost : net.host with
  | waitReady =>
    rw [hhost] at hstg
    exact .inl (Option.isSome_iff_ne_none.mpr hstg.2.1.busy)
  | waitAck i attempt =>
    rw [hhost] at hstg
    obtain ⟨-, -, -, copies, acks, rs, -, -, hat, -⟩ := hstg
    exact .inl (Option.isSome_iff_ne_none.mpr hat.busy)
  | waitDone =>
    rw [hhost] at hstg
    rcases hstg with ⟨copies, acks, rs, -, -, hat, -⟩ | ⟨-, hover, -⟩
    · exact .inl (Option.isSome_iff_ne_none.mpr hat.busy)
    · exact .inr hover.committed
  | finished =>
    rw [hhost] at hstg
    exact .inr hstg.2.committed
  | raised message =>
    rw [hhost] at hstg
    exact absurd hstg id

/-- The transfer comes to its end, with the done response and the whole file, and neither side gives up. -/
structure Completes (job : Job) (env : Env) (net : Net) : Prop where
  host : ∀ message, net.host ≠ .raised message
  device : net.device.transfer.isSome = true ∨ Committed job net.device
  finished : net.host = .finished → Committed job net.device
  /-- Without another timeout something happens, as long as the host has not finished. -/
  goesOn : net.host ≠ .finished → ∃ a, a ≠ .timeout ∧ ((machine job env).step net a).isSome = true
  bounded : ∃ bound, ∀ as, ((machine job env).execWhen (Condition job) net as).isSome = true → as.length ≤ bound

theorem Reach.fits (h : (machine job env).Reach (Condition job) net) (hheal : Healthy env)
    (hconfigured : Configured env)
    (hpay : env.maxFramePayload ≤ maxFramePayload ∨ job.content.length ≤ maxFramePayload) : Fits env job := by
  induction h with
  | init hinit => exact hinit.fits hheal hconfigured hpay
  | step _ _ _ ih => exact ih

open Brookesia.Usb.Chunking Brookesia.Usb.Files in
/-- `packageDevice`, with short frames, and with the digest of a file of two frames. -/
def shortFrames : Env :=
  { packageDevice with
    maxFramePayload := 64
    sha256 := fun data =>
      if data = List.replicate 65 97 then text "635361c48bb9eab14198e76ea8ab7f1a41685d6ad62aa9146d301d4f17eb0ae0"
      else packageDevice.sha256 data }

open Brookesia.Usb.Chunking in
def greeted : Impl := Impl.deliver shortFrames ready (asLine helloLine)

def members (job : Job) : JsonObject :=
  [(text "version", .int 1), (text "request_id", .int job.requestId), (text "op", .string (text "install_bpk")),
    (text "size", .int job.content.length), (text "sha256", .string (shortFrames.sha256 job.content))]

def started (job : Job) : Net where
  host := .waitReady
  frameSize := 0
  device := beginTransfer shortFrames greeted job.requestId .installBpk (members job)
  toDevice := []
  read := 1

/-- The only data frame is written three times, and then all its answers come. -/
def lateRun : List Action :=
  [.read, .timeout, .deliver 30, .timeout, .deliver 48, .read, .read, .read, .deliver 24, .read, .read]

end Brookesia.Usb.HostTransfer

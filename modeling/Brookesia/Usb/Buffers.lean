import Brookesia.Usb.Port

/-! # The buffers of the USB control port

What commands and frames do with the two buffers: they do not look at them, and leave them as they are or
clear them. -/

namespace Brookesia.Usb.Buffers

open Filesystem.Path Data.Json Protocol Port List Option
open Impl

variable {env : Env} {s : Impl}

/-! ### Commands and the receive buffer -/

theorem openTransfer_rxBuffer (t : Transfer) (r : List RxByte) :
    openTransfer env { s with rxBuffer := r } t = { openTransfer env s t with rxBuffer := r } := by
  unfold openTransfer
  dsimp only
  cases env.createDirectories s.handled <;> cases env.openFile s.handled <;>
    cases env.sha256Starts s.handled <;> rfl

theorem beginTransfer_rxBuffer (requestId : ℕ) (command : HostCommand) (params : JsonObject) (r : List RxByte) :
    beginTransfer env { s with rxBuffer := r } requestId command params =
      { beginTransfer env s requestId command params with rxBuffer := r } := by
  have hcheck : checkDestination env { s with rxBuffer := r } params = checkDestination env s params := rfl
  unfold beginTransfer
  rw [hcheck]
  dsimp only
  cases s.transfer.isSome
  case true => rfl
  cases getUnsigned params "size" with
  | none => rfl
  | some size =>
  cases getString params "sha256" with
  | none => rfl
  | some sha256 =>
  dsimp only
  cases isHexSha256 sha256
  case false => rfl
  by_cases hsize : size > env.maxTransferSize
  · simp only [hsize]
    rfl
  cases (if command = .putFile then checkDestination env s params else .ok []) with
  | error e => simp only [hsize]; rfl
  | ok destination => 
    simp only [hsize]
    exact openTransfer_rxBuffer _ _

theorem handleServiceCall_rxBuffer (requestId : ℕ) (command : JsonObject) (r : List RxByte) :
    handleServiceCall env { s with rxBuffer := r } requestId command =
      ({ (handleServiceCall env s requestId command).1 with rxBuffer := r },
        (handleServiceCall env s requestId command).2) := by
  unfold handleServiceCall
  dsimp only
  split
  · next service function args _ _ _ =>
    by_cases hself : service = text "Usb"
    · simp only [hself]
      rfl
    · simp only [hself]
      cases env.serviceCallBridge s.handled <;> rfl
  · rfl

/-- A function that does not look at the receive buffer, and leaves it. -/
def Leaves (f : Impl → Impl × Bool) (s : Impl) : Prop :=
  ∀ r, f { s with rxBuffer := r } = ({ (f s).1 with rxBuffer := r }, (f s).2)

/-- A function that does not look at the receive buffer, and clears it. -/
def Clears (f : Impl → Impl × Bool) (s : Impl) : Prop :=
  ∀ r, f { s with rxBuffer := r } = ({ (f s).1 with rxBuffer := [] }, (f s).2)

def LeavesOrClears (f : Impl → Impl × Bool) (s : Impl) : Prop := Leaves f s ∨ Clears f s

theorem LeavesOrClears.ite {p : Impl → Prop} [DecidablePred p] {f g : Impl → Impl × Bool}
    (hp : ∀ r, p { s with rxBuffer := r } ↔ p s) (hf : LeavesOrClears f s) (hg : LeavesOrClears g s) :
    LeavesOrClears (fun s => if p s then f s else g s) s := by
  by_cases hs : p s
  · refine hf.imp (fun h r => ?_) fun h r => ?_
    · simp only [if_pos hs, if_pos ((hp r).mpr hs), h r]
    · simp only [if_pos hs, if_pos ((hp r).mpr hs), h r]
  · refine hg.imp (fun h r => ?_) fun h r => ?_
    · simp only [if_neg hs, if_neg fun hr => hs ((hp r).mp hr), h r]
    · simp only [if_neg hs, if_neg fun hr => hs ((hp r).mp hr), h r]

theorem sendError_leaves (requestId : ℕ) (code message : String) (b : Bool) :
    LeavesOrClears (fun s => (s.sendError requestId code message, b)) s := .inl fun _ => rfl

theorem handleAbort_rxBuffer (requestId : ℕ) : LeavesOrClears (fun s => handleAbort s requestId) s := by
  obtain ⟨status, transferStatus, requestIds, rxBuffer, frameParser, transfer, outputs, handled, trace⟩ := s
  unfold handleAbort abortTransfer abortTransferInternal
  cases transfer with
  | none =>
    refine .inl fun r => ?_
    by_cases hid : requestId = 0
    · simp only [if_pos hid]
    · simp only [if_neg hid]
      rfl
  | some t =>
    by_cases hid : requestId ≠ 0 ∧ requestId ≠ t.requestId
    · refine .inl fun r => ?_
      simp only [if_pos hid]
      rfl
    · refine .inr fun r => ?_
      simp only [if_neg hid]
      rfl

theorem handleGoodbye_rxBuffer (requestId : ℕ) : Clears (fun s => handleGoodbye s requestId) s := by
  obtain ⟨status, transferStatus, requestIds, rxBuffer, frameParser, transfer, outputs, handled, trace⟩ := s
  intro r
  cases transfer <;> rfl

theorem runCommand_rxBuffer (requestId : ℕ) (op : Bytes) (command : JsonObject) :
    LeavesOrClears (fun s => runCommand env s requestId op command) s := by
  unfold runCommand handleHello
  refine .ite (fun _ => Iff.rfl) (.ite (fun _ => Iff.rfl) (sendError_leaves ..) (.inl fun _ => rfl)) ?_
  refine .ite (fun _ => Iff.rfl) (handleAbort_rxBuffer requestId) ?_
  refine .ite (fun _ => Iff.rfl) (sendError_leaves ..) ?_
  refine .ite (fun _ => Iff.rfl) (.inl fun _ => rfl) ?_
  refine .ite (fun _ => Iff.rfl) (.inr (handleGoodbye_rxBuffer requestId)) ?_
  refine .ite (fun _ => Iff.rfl) (.inl (handleServiceCall_rxBuffer requestId command)) ?_
  refine .ite (fun _ => Iff.rfl) (.inl fun r => ?_) (sendError_leaves ..)
  unfold handleTransfer
  simp only [beginTransfer_rxBuffer]

theorem handleCommand_rxBuffer (command : JsonObject) : LeavesOrClears (fun s => handleCommand env s command) s := by
  unfold handleCommand
  cases getUnsigned command "request_id" with
  | none => exact sendError_leaves ..
  | some requestId =>
  refine .ite (fun _ => Iff.rfl) (sendError_leaves ..) ?_
  cases getString command "op" with
  | none => exact sendError_leaves ..
  | some op =>
  refine .ite (fun _ => Iff.rfl) (sendError_leaves ..) (.ite (fun _ => Iff.rfl) (sendError_leaves ..) ?_)
  exact runCommand_rxBuffer requestId op command
    (s := { s with requestIds := if op = text "abort" then s.requestIds else requestId :: s.requestIds })

/-! ### What is handled, and the frame parser -/

/-- The command is handled, and nothing else. -/
structure HandlesNothing (s t : Impl) : Prop where
  handled : t.handled = s.handled
  frameParser : s.frameParser = [] → t.frameParser = []

theorem openTransfer_handlesNothing (t : Transfer) : HandlesNothing s (openTransfer env s t) := by
  unfold openTransfer
  split
  · exact ⟨rfl, id⟩
  split
  · exact ⟨rfl, id⟩
  split
  · exact ⟨rfl, id⟩
  · exact ⟨rfl, fun _ => rfl⟩

theorem beginTransfer_handlesNothing (requestId : ℕ) (command : HostCommand) (params : JsonObject) :
    HandlesNothing s (beginTransfer env s requestId command params) := by
  unfold beginTransfer
  split
  · exact ⟨rfl, id⟩
  split
  · split
    · exact ⟨rfl, id⟩
    split
    · exact ⟨rfl, id⟩
    split
    · exact ⟨rfl, id⟩
    · exact openTransfer_handlesNothing _
  · exact ⟨rfl, id⟩

theorem handleServiceCall_handlesNothing (requestId : ℕ) (command : JsonObject) :
    HandlesNothing s (handleServiceCall env s requestId command).1 := by
  unfold handleServiceCall
  split
  · split
    · exact ⟨rfl, id⟩
    split <;> exact ⟨rfl, id⟩
  · exact ⟨rfl, id⟩

theorem abortTransferInternal_handlesNothing (requestId : ℕ) (reason : String) (notifyHost : Bool) :
    HandlesNothing s (s.abortTransferInternal requestId reason notifyHost).2 := by
  unfold abortTransferInternal
  split
  · exact ⟨rfl, id⟩
  split
  · exact ⟨rfl, id⟩
  · cases notifyHost <;> exact ⟨rfl, fun _ => rfl⟩

theorem handleAbort_handlesNothing (requestId : ℕ) : HandlesNothing s (s.handleAbort requestId).1 := by
  have h := abortTransferInternal_handlesNothing (s := s) requestId "aborted" true
  unfold handleAbort abortTransfer
  split
  · next t ht => rw [ht] at h; exact h
  · next t ht => rw [ht] at h; exact ⟨h.handled, h.frameParser⟩

theorem runCommand_handlesNothing (requestId : ℕ) (op : Bytes) (command : JsonObject) :
    HandlesNothing s (runCommand env s requestId op command).1 := by
  unfold runCommand handleHello
  split
  · split <;> exact ⟨rfl, id⟩
  split
  · exact handleAbort_handlesNothing requestId
  split
  · exact ⟨rfl, id⟩
  split
  · exact ⟨rfl, id⟩
  split
  · exact ⟨(abortTransferInternal_handlesNothing (s := s) 0 _ false).handled, fun _ => rfl⟩
  split
  · exact handleServiceCall_handlesNothing requestId command
  split
  · exact beginTransfer_handlesNothing requestId _ command
  · exact ⟨rfl, id⟩

theorem handleCommand_handlesNothing (command : JsonObject) : HandlesNothing s (handleCommand env s command).1 := by
  unfold handleCommand
  split
  · exact ⟨rfl, id⟩
  split
  · exact ⟨rfl, id⟩
  split
  · exact ⟨rfl, id⟩
  split
  · exact ⟨rfl, id⟩
  split
  · exact ⟨rfl, id⟩
  · have h := @runCommand_handlesNothing env
    exact ⟨(h _ _ _).handled, fun hp => (h _ _ _).frameParser hp⟩

/-! ### Frames and the frame parser -/

/-- A function that does not look at the frame parser: it leaves it, or ends the transfer and clears it. -/
structure FrameEffect (f : Impl → Impl) (s : Impl) : Prop where
  handled : (f s).handled = s.handled
  rxBuffer : s.rxBuffer = [] → (f s).rxBuffer = []
  frameParser : (∀ r, f { s with frameParser := r } = { f s with frameParser := r }) ∨
    (f s).transfer = none ∧ (f s).frameParser = [] ∧ ∀ r, f { s with frameParser := r } = f s

theorem FrameEffect.leaves {f : Impl → Impl} (hh : (f s).handled = s.handled) (hr : (f s).rxBuffer = s.rxBuffer)
    (hp : ∀ r, f { s with frameParser := r } = { f s with frameParser := r }) : FrameEffect f s :=
  ⟨hh, fun h => hr.trans h, .inl hp⟩

theorem FrameEffect.of_eq {f g : Impl → Impl}
    (h : ∀ r, f { s with frameParser := r } = g { s with frameParser := r }) (hg : FrameEffect g s) :
    FrameEffect f s := by
  have hs : f s = g s := h s.frameParser
  refine ⟨hs ▸ hg.handled, hs ▸ hg.rxBuffer, ?_⟩
  rw [hs]
  exact hg.frameParser.imp (fun hp r => (h r).trans (hp r)) fun hp => ⟨hp.1, hp.2.1, fun r => (h r).trans (hp.2.2 r)⟩

theorem FrameEffect.ite {p : Impl → Prop} [DecidablePred p] {f g : Impl → Impl}
    (hp : ∀ r, p { s with frameParser := r } ↔ p s) (hf : FrameEffect f s)
    (hg : ¬ p s → FrameEffect g s) : FrameEffect (fun s => if p s then f s else g s) s := by
  by_cases hs : p s
  · exact .of_eq (fun r => if_pos ((hp r).mpr hs)) hf
  · exact .of_eq (fun r => if_neg fun hr => hs ((hp r).mp hr)) (hg hs)

theorem failTransfer_effect (code message : String) : FrameEffect (fun s => s.failTransfer code message) s := by
  obtain ⟨status, transferStatus, requestIds, rxBuffer, frameParser, transfer, outputs, handled, trace⟩ := s
  cases transfer with
  | none => exact ⟨rfl, fun _ => rfl, .inr ⟨rfl, rfl, fun _ => rfl⟩⟩
  | some t => exact ⟨rfl, fun _ => rfl, .inr ⟨rfl, rfl, fun _ => rfl⟩⟩

theorem failTransfer_transfer (code message : String) : (s.failTransfer code message).transfer = none := by
  unfold failTransfer
  split <;> rfl

theorem failTransfer_clears (code message : String) :
    (s.failTransfer code message).rxBuffer = [] ∧ (s.failTransfer code message).frameParser = [] := by
  unfold failTransfer
  split <;> exact ⟨rfl, rfl⟩

theorem failTransfer_frameParser (code message : String) (r : List RxByte) :
    { s with frameParser := r }.failTransfer code message = s.failTransfer code message := by
  obtain ⟨status, transferStatus, requestIds, rxBuffer, frameParser, transfer, outputs, handled, trace⟩ := s
  cases transfer <;> rfl

theorem FrameEffect.record {f : Impl → Impl} (events : List Event) (h : FrameEffect f (s.record events)) :
    FrameEffect (fun s => f (s.record events)) s := ⟨h.handled, h.rxBuffer, h.frameParser⟩

theorem FrameEffect.startHandling {f : Impl → Impl} {transfer : Transfer}
    (h : FrameEffect f (s.startHandling transfer)) : FrameEffect (fun s => f (s.startHandling transfer)) s :=
  ⟨h.handled, h.rxBuffer, h.frameParser⟩

theorem countData_effect (transfer : Transfer) (frame : BinaryFrame) :
    FrameEffect (fun s => countData env s transfer frame) s := by
  unfold countData
  refine .ite (fun _ => Iff.rfl) (failTransfer_effect ..) fun _ => ?_
  exact .ite (fun _ => Iff.rfl) (failTransfer_effect ..) fun _ => .leaves rfl rfl fun _ => rfl

theorem handleData_effect (transfer : Transfer) (frame : BinaryFrame) :
    FrameEffect (fun s => handleData env s transfer frame) s := by
  unfold handleData
  cases hw : (if frame.payload = [] then Except.ok () else env.writeFile s.handled) with
  | error e =>
    refine .of_eq (fun r => ?_) (failTransfer_effect "storage_full" e)
    dsimp only
    rw [hw]
  | ok _ =>
    refine .of_eq (fun r => ?_) (FrameEffect.record
      (if frame.payload = [] then [] else [.write transfer.temporaryPath frame.payload])
      (@countData_effect env _ transfer frame))
    dsimp only
    rw [hw]

theorem completeTransfer_effect (transfer : Transfer) :
    FrameEffect (fun s => completeTransfer env s transfer) s := .leaves rfl rfl fun _ => rfl

theorem giveToBridge_effect (transfer : Transfer) : FrameEffect (fun s => giveToBridge env s transfer) s := by
  unfold giveToBridge
  cases hb : env.bridge s.handled with
  | none =>
    refine .of_eq (fun r => ?_) (failTransfer_effect "install_failed" "system host command bridge is not registered")
    dsimp only
    rw [hb]
  | some bridge =>
  have hcall := fun f hf => FrameEffect.record (s := s) (f := f)
    [.callBridge (transferArtifact env transfer) transfer.destination] hf
  cases hr : bridge (transferArtifact env transfer) transfer.destination transfer.data with
  | error e =>
    refine .of_eq (fun r => ?_) (hcall _ (failTransfer_effect "install_failed" e))
    dsimp only
    rw [hb]
    dsimp only
    rw [hr]
  | ok _ =>
    refine .of_eq (fun r => ?_) (hcall _ (@completeTransfer_effect env _ transfer))
    dsimp only
    rw [hb]
    dsimp only
    rw [hr]

theorem callBridge_effect (transfer : Transfer) : FrameEffect (fun s => callBridge env s transfer) s :=
  FrameEffect.startHandling (giveToBridge_effect transfer)

theorem finishTransfer_effect (transfer : Transfer) (frame : BinaryFrame) :
    FrameEffect (fun s => finishTransfer env s transfer frame) s := by
  unfold finishTransfer
  refine .ite (fun _ => Iff.rfl) (failTransfer_effect ..) fun _ => ?_
  refine .ite (fun _ => Iff.rfl) (failTransfer_effect ..) fun _ => ?_
  refine .ite (fun _ => Iff.rfl) (failTransfer_effect ..) fun _ => ?_
  exact .ite (fun _ => Iff.rfl) (failTransfer_effect ..) fun _ => callBridge_effect transfer

theorem abortActiveTransfer_effect (transfer : Transfer) (reason : String) (notifyHost : Bool) :
    FrameEffect (fun s => abortActiveTransfer s transfer reason notifyHost) s := by
  cases notifyHost <;> exact ⟨rfl, fun _ => rfl, .inr ⟨rfl, rfl, fun _ => rfl⟩⟩

theorem abortTransferInternal_effect {transfer : Transfer} (ht : s.transfer = some transfer) (reason : String) :
    FrameEffect (fun s => (s.abortTransferInternal transfer.requestId reason true).2) s := by
  refine .of_eq (fun r => ?_) (abortActiveTransfer_effect transfer reason true)
  have hid : ¬ (transfer.requestId ≠ 0 ∧ transfer.requestId ≠ transfer.requestId) := fun h => h.2 rfl
  unfold abortTransferInternal
  dsimp only
  rw [ht]
  dsimp only
  rw [if_neg hid]

theorem handleTransferFrame_effect {transfer : Transfer} (ht : s.transfer = some transfer) (frame : BinaryFrame) :
    FrameEffect (fun s => handleTransferFrame env s transfer frame) s := by
  unfold handleTransferFrame
  refine .ite (fun _ => Iff.rfl) (.leaves rfl rfl fun _ => rfl) fun hid => ?_
  rw [not_not.mp hid]
  refine .ite (fun _ => Iff.rfl) (abortTransferInternal_effect ht _) fun _ => ?_
  refine .ite (fun _ => Iff.rfl) (.leaves rfl rfl fun _ => rfl) fun _ => ?_
  refine .ite (fun _ => Iff.rfl) (failTransfer_effect ..) fun _ => ?_
  exact .ite (fun _ => Iff.rfl) (handleData_effect transfer frame) fun _ => finishTransfer_effect transfer frame

theorem handleFrame_eq {transfer : Transfer} (ht : s.transfer = some transfer) (frame : BinaryFrame) :
    handleFrame env s frame = handleTransferFrame env (s.recordFrame frame) transfer frame := by
  unfold handleFrame
  rw [ht]

theorem handleFrame_handled (frame : BinaryFrame) :
    (handleFrame env s frame).handled = s.handled ++ [.frame frame] := by
  unfold handleFrame
  split
  · rfl
  · next transfer ht => exact (handleTransferFrame_effect (s := s.recordFrame frame) ht frame).handled

theorem handleFrame_rxBuffer (hrx : s.rxBuffer = []) (frame : BinaryFrame) :
    (handleFrame env s frame).rxBuffer = [] := by
  unfold handleFrame
  split
  · exact hrx
  · next transfer ht => exact (handleTransferFrame_effect (s := s.recordFrame frame) ht frame).rxBuffer hrx

/-- The frame parser is left, or cleared at the end of the transfer. -/
theorem handleFrame_frameParser {transfer : Transfer} (ht : s.transfer = some transfer) (frame : BinaryFrame) :
    (∀ r, handleFrame env { s with frameParser := r } frame =
      { handleFrame env s frame with frameParser := r }) ∨
    (handleFrame env s frame).transfer = none ∧ (handleFrame env s frame).frameParser = [] ∧
      ∀ r, handleFrame env { s with frameParser := r } frame = handleFrame env s frame := by
  have h := (@handleTransferFrame_effect env (s.recordFrame frame) transfer ht frame).frameParser
  rw [handleFrame_eq ht]
  exact h.imp (fun h r => (handleFrame_eq (s := { s with frameParser := r }) ht frame).trans (h r)) fun h =>
    ⟨h.1, h.2.1, fun r => (handleFrame_eq (s := { s with frameParser := r }) ht frame).trans (h.2.2 r)⟩

/-! ### Lines -/

theorem takeLine_rxBuffer (line : List RxByte) :
    (∀ r, takeLine env { s with rxBuffer := r } line = { takeLine env s line with rxBuffer := r }) ∨
      ∀ r, takeLine env { s with rxBuffer := r } line = { takeLine env s line with rxBuffer := [] } := by
  unfold takeLine
  cases hparse : parseCommandLine env (trimmed (values line)) with
  | error e =>
    refine .inl fun r => ?_
    dsimp only
    split <;> rfl
  | ok command =>
    have hcmd : LeavesOrClears (fun s => handleCommand env s command) s := handleCommand_rxBuffer command
    rcases hcmd with h | h
    · refine .inl fun r => ?_
      have := h r
      dsimp only at this ⊢
      rw [this]
    · refine .inr fun r => ?_
      have := h r
      dsimp only at this ⊢
      rw [this]

theorem takeLine_handled (line : List RxByte) :
    ∃ accepted, (takeLine env s line).handled = s.handled ++ [.line line accepted] := by
  unfold takeLine
  cases parseCommandLine env (trimmed (values line)) with
  | error e =>
    refine ⟨false, ?_⟩
    dsimp only
    split <;> rfl
  | ok command => exact ⟨_, congrArg (· ++ _) (handleCommand_handlesNothing command).handled⟩

theorem takeLine_frameParser (h : s.frameParser = []) (line : List RxByte) :
    (takeLine env s line).frameParser = [] := by
  unfold takeLine
  cases parseCommandLine env (trimmed (values line)) with
  | error e =>
    dsimp only
    split <;> exact h
  | ok command => exact (handleCommand_handlesNothing command).frameParser h

variable {bytes more line rest : List RxByte}

theorem splitLine_some (h : splitLine bytes = some (line, rest)) :
    ∃ newline : RxByte, newline.value = 10 ∧ bytes = line ++ newline :: rest := by
  induction bytes generalizing line with
  | nil => cases h
  | cons b bytes ih =>
    unfold splitLine at h
    split_ifs at h with hb
    · cases h
      exact ⟨b, hb, rfl⟩
    · cases hsplit : splitLine bytes with
      | none => rw [hsplit] at h; cases h
      | some lr =>
        rw [hsplit] at h
        cases h
        obtain ⟨newline, hnl, rfl⟩ := ih hsplit
        exact ⟨newline, hnl, rfl⟩

theorem splitLine_append_some (h : splitLine bytes = some (line, rest)) :
    splitLine (bytes ++ more) = some (line, rest ++ more) := by
  induction bytes generalizing line with
  | nil => cases h
  | cons b bytes ih =>
    rw [cons_append]
    unfold splitLine at h ⊢
    split_ifs at h ⊢ with hb
    · cases h
      rfl
    · cases hsplit : splitLine bytes with
      | none => rw [hsplit] at h; cases h
      | some lr =>
        rw [hsplit] at h
        cases h
        rw [ih hsplit]
        rfl

theorem splitLine_append_cases (h : splitLine (bytes ++ more) = some (line, rest)) :
    splitLine bytes = none ∨ ∃ left, splitLine bytes = some (line, left) ∧ rest = left ++ more := by
  cases hbytes : splitLine bytes with
  | none => exact .inl rfl
  | some found =>
    rw [splitLine_append_some hbytes] at h
    cases h
    exact .inr ⟨found.2, rfl, rfl⟩

theorem splitLine_none_of_append (h : splitLine (bytes ++ more) = none) : splitLine bytes = none := by
  match hbytes : splitLine bytes with
  | none => rfl
  | some (line, rest) => rw [splitLine_append_some hbytes] at h; cases h

theorem splitLine_none_iff : splitLine bytes = none ↔ ∀ b ∈ bytes, b.value ≠ 10 := by
  induction bytes with
  | nil => simp [splitLine]
  | cons b bytes ih =>
    unfold splitLine
    split_ifs with hb
    · simp [hb]
    · rw [map_eq_none_iff, ih, forall_mem_cons]
      exact ⟨fun h => ⟨hb, h⟩, fun h => h.2⟩

theorem splitLine_line (h : splitLine bytes = some (line, rest)) : splitLine line = none := by
  induction bytes generalizing line rest with
  | nil => cases h
  | cons b bytes ih =>
    unfold splitLine at h
    split_ifs at h with hb
    · simp only [some.injEq, Prod.mk.injEq] at h
      rw [← h.1]
      rfl
    · cases hsplit : splitLine bytes with
      | none => rw [hsplit] at h; cases h
      | some lr =>
        rw [hsplit] at h
        simp only [map_some, some.injEq, Prod.mk.injEq] at h
        rw [← h.1, splitLine_none_iff, forall_mem_cons]
        exact ⟨hb, splitLine_none_iff.mp (ih hsplit)⟩

theorem splitLine_of_line {newline : RxByte} (hline : splitLine line = none) (hnl : newline.value = 10) :
    splitLine (line ++ newline :: rest) = some (line, rest) := by
  induction line with
  | nil =>
    show splitLine (newline :: rest) = _
    unfold splitLine
    rw [if_pos hnl]
  | cons b line ih =>
    rw [splitLine_none_iff, forall_mem_cons] at hline
    rw [cons_append]
    unfold splitLine
    rw [if_neg hline.1, ih (splitLine_none_iff.mpr hline.2)]
    rfl

theorem splitLine_length (h : splitLine bytes = some (line, rest)) : rest.length < bytes.length := by
  obtain ⟨newline, _, rfl⟩ := splitLine_some h
  rw [length_append, length_cons]
  omega

theorem abortLine_append {command : JsonObject} (h : abortLine env bytes = some (line, rest, command)) :
    abortLine env (bytes ++ more) = some (line, rest ++ more, command) := by
  cases bytes with
  | nil => cases h
  | cons b bytes =>
  unfold abortLine at h ⊢
  by_cases hb : (b :: bytes).head?.map (·.value) ≠ some 123
  · rw [if_pos hb] at h
    cases h
  have hb' : ¬ ((b :: bytes) ++ more).head?.map (·.value) ≠ some 123 := hb
  rw [if_neg hb] at h
  rw [if_neg hb']
  cases hsplit : splitLine (b :: bytes) with
  | none => rw [hsplit] at h; cases h
  | some lr =>
  obtain ⟨l, r⟩ := lr
  rw [hsplit] at h
  rw [splitLine_append_some hsplit]
  dsimp only at h ⊢
  by_cases hlen : l.length ≤ commandBufferLimit
  · rw [if_pos hlen] at h ⊢
    cases hparse : parseCommandLine env (values l) with
    | error e => rw [hparse] at h; cases h
    | ok c =>
      rw [hparse] at h
      dsimp only at h ⊢
      split_ifs at h ⊢
      simp only [some.injEq, Prod.mk.injEq] at h ⊢
      obtain ⟨rfl, rfl, rfl⟩ := h
      exact ⟨rfl, rfl, rfl⟩
  · rw [if_neg hlen] at h
    cases h

theorem abortLine_none_of_append (h : abortLine env (bytes ++ more) = none) : abortLine env bytes = none := by
  match hbytes : abortLine env bytes with
  | none => rfl
  | some (line, rest, command) => rw [abortLine_append hbytes] at h; cases h

theorem abortLine_head {b : RxByte} {command : JsonObject}
    (h : abortLine env (b :: bytes) = some (line, rest, command)) : b.value = 123 := by
  by_contra hb
  unfold abortLine at h
  rw [if_pos (by simpa using hb)] at h
  cases h

theorem abortLine_of_next {frame : BinaryFrame} (h : next env.maxFramePayload bytes = .ok (some (frame, rest))) :
    abortLine env bytes = none := by
  unfold abortLine
  rw [next_some_head h, if_pos (by decide)]

end Brookesia.Usb.Buffers

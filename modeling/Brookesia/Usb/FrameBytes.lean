import Brookesia.Transition.Machine
import Brookesia.Usb.Chunking

/-! # The bytes of frames

Whether a byte that the host has sent in a frame can become part of a command.

A run receives chunks of any bytes, each marked as the host has sent it; between them the port can be told
to abort, the connection can be lost, times can be over and the queue can be full. -/

namespace Brookesia.Usb.FrameBytes

open Transition List Option
open Filesystem.Path Data.Json Protocol Port
open Buffers Chunking
open Impl

inductive Action
  | receive (chunk : List RxByte)
  | queueFull
  | connection (connected : Bool)
  | transferTimeout
  | sessionTimeout
  | abortTransfer (requestId : ℕ)

def step (env : Env) (s : Impl) : Action → Option Impl
  | .receive chunk => some (deliver env s chunk)
  | .queueFull => some s.queueFull
  | .connection connected => some (s.updateConnectionState connected)
  | .transferTimeout => some s.transferTimeout
  | .sessionTimeout => some s.sessionTimeout
  | .abortTransfer requestId => some (s.abortTransfer requestId).2

/-- A port that has received nothing. -/
structure Init (s : Impl) : Prop where
  rxBuffer : s.rxBuffer = []
  frameParser : s.frameParser = []
  transfer : s.transfer = none
  handled : s.handled = []

def machine (env : Env) : Machine Impl Action where
  init := Init
  step := step env

def OfLines (bytes : List RxByte) : Prop := ∀ b ∈ bytes, b.ofFrame = false

instance (bytes : List RxByte) : Decidable (OfLines bytes) := by unfold OfLines; infer_instance

/-- The abort line that the port sees in a chunk during a transfer. -/
def abortLineIn (env : Env) (s : Impl) (chunk : List RxByte) : Option (List RxByte × List RxByte × JsonObject) :=
  if s.frameParser = [] then abortLine env (s.rxBuffer ++ chunk) else none

/-- The bytes of frames come while there is a transfer, and do not look like an abort line. -/
def FramesInTransfer (env : Env) (s : Impl) : Action → Prop
  | .receive chunk =>
    if s.transfer.isNone then OfLines chunk else ∀ found ∈ abortLineIn env s chunk, OfLines found.1
  | _ => True

instance (env : Env) (s : Impl) (a : Action) : Decidable (FramesInTransfer env s a) := by
  cases a <;> unfold FramesInTransfer <;> infer_instance

def CommandsOfLines (handled : History) : Prop := ∀ line, .line line true ∈ handled → OfLines line

structure Inv (s : Impl) : Prop where
  commands : CommandsOfLines s.handled
  rxBuffer : s.transfer = none → OfLines s.rxBuffer

variable {env : Env} {s t : Impl} {bytes line rest : List RxByte}

/-! ### Bytes of lines -/

theorem OfLines.append (h : OfLines bytes) (hrest : OfLines rest) : OfLines (bytes ++ rest) :=
  forall_mem_append.mpr ⟨h, hrest⟩

theorem OfLines.split (h : OfLines bytes) (hsplit : splitLine bytes = some (line, rest)) :
    OfLines line ∧ OfLines rest := by
  obtain ⟨newline, _, rfl⟩ := splitLine_some hsplit
  obtain ⟨hline, hrest⟩ := forall_mem_append.mp h
  exact ⟨hline, (forall_mem_cons.mp hrest).2⟩

theorem CommandsOfLines.add_line {handled : History} {accepted : Bool} (h : CommandsOfLines handled)
    (hline : OfLines line) : CommandsOfLines (handled ++ [.line line accepted]) := by
  intro l hl
  rcases mem_append.mp hl with hl | hl
  · exact h l hl
  · simp only [mem_singleton, Handled.line.injEq] at hl
    rw [hl.1]
    exact hline

theorem CommandsOfLines.add_frame {handled : History} {f : BinaryFrame} (h : CommandsOfLines handled) :
    CommandsOfLines (handled ++ [.frame f]) := by
  intro l hl
  rcases mem_append.mp hl with hl | hl
  · exact h l hl
  · simp at hl

/-! ### Outside of transfers -/

theorem textLoop_inv : ∀ (n : ℕ) {s : Impl}, CommandsOfLines s.handled → OfLines s.rxBuffer → Inv (textLoop env n s)
  | 0, _, hcmds, hrx => ⟨hcmds, fun _ => hrx⟩
  | n + 1, s, hcmds, hrx => by
    unfold textLoop
    cases hsplit : splitLine s.rxBuffer with
    | none =>
      dsimp only
      split_ifs
      · exact ⟨hcmds, fun _ => forall_mem_nil _⟩
      · exact ⟨hcmds, fun _ => forall_mem_nil _⟩
      · exact ⟨hcmds, fun _ => hrx⟩
    | some lr =>
      obtain ⟨line, rest⟩ := lr
      obtain ⟨hline, hrest⟩ := hrx.split hsplit
      obtain ⟨accepted, hhandled⟩ := @takeLine_handled env { s with rxBuffer := rest } line
      have hcmds' : CommandsOfLines (takeLine env { s with rxBuffer := rest } line).handled := by
        rw [hhandled]
        exact hcmds.add_line hline
      have hrx' : OfLines (takeLine env { s with rxBuffer := rest } line).rxBuffer := by
        rcases @takeLine_rxBuffer env s line with hl | hl
        · rw [hl]
          exact hrest
        · rw [hl]
          exact forall_mem_nil _
      dsimp only
      split_ifs
      · exact ⟨hcmds', fun _ => forall_mem_nil _⟩
      · exact textLoop_inv n hcmds' hrx'

/-! ### In transfers -/

theorem frameLoop_inv : ∀ (n : ℕ) {s : Impl}, CommandsOfLines s.handled → s.rxBuffer = [] → Inv (frameLoop env n s)
  | 0, _, hcmds, hrx => ⟨hcmds, fun _ => hrx ▸ forall_mem_nil _⟩
  | n + 1, s, hcmds, hrx => by
    have hs : Inv s := ⟨hcmds, fun _ => hrx ▸ forall_mem_nil _⟩
    unfold frameLoop
    split_ifs
    · exact hs
    split
    · next e _ =>
      refine ⟨?_, fun _ => ?_⟩
      · exact (failTransfer_effect (s := s) "bad_frame" e).handled ▸ hcmds
      · exact (failTransfer_clears (s := s) "bad_frame" e).1 ▸ forall_mem_nil _
    · exact hs
    · next frame rest _ =>
      refine frameLoop_inv n ?_ (@handleFrame_rxBuffer env { s with frameParser := rest } hrx frame)
      rw [handleFrame_handled]
      exact hcmds.add_frame

/-- Where a command ends a transfer, the receive buffer is cleared. -/
def EndsCleared (s t : Impl) : Prop := t.transfer = s.transfer ∨ t.rxBuffer = []

theorem abortTransferInternal_endsCleared (requestId : ℕ) (reason : String) (notifyHost : Bool) :
    EndsCleared s (s.abortTransferInternal requestId reason notifyHost).2 := by
  unfold abortTransferInternal
  split
  · exact .inl rfl
  split
  · exact .inl rfl
  · cases notifyHost <;> exact .inr rfl

theorem handleAbort_endsCleared (requestId : ℕ) : EndsCleared s (s.handleAbort requestId).1 := by
  have h := abortTransferInternal_endsCleared (s := s) requestId "aborted" true
  unfold handleAbort abortTransfer
  split
  · next t ht => rw [ht] at h; exact h
  · next t ht => rw [ht] at h; exact h

theorem handleTransfer_busy (htr : s.transfer ≠ none) (requestId : ℕ) (op : Bytes) (command : JsonObject) :
    (handleTransfer env s requestId op command).1.transfer = s.transfer := by
  unfold handleTransfer beginTransfer
  rw [if_pos (by simpa [isSome_iff_ne_none] using htr)]
  rfl

theorem handleServiceCall_transfer (requestId : ℕ) (command : JsonObject) :
    (handleServiceCall env s requestId command).1.transfer = s.transfer := by
  unfold handleServiceCall
  split
  · split
    · rfl
    split <;> rfl
  · rfl

theorem runCommand_endsCleared (htr : s.transfer ≠ none) (requestId : ℕ) (op : Bytes)
    (command : JsonObject) : EndsCleared s (runCommand env s requestId op command).1 := by
  unfold runCommand
  split_ifs
  · unfold handleHello
    split <;> exact .inl rfl
  · exact handleAbort_endsCleared requestId
  · exact .inl rfl
  · exact .inl rfl
  · exact .inr rfl
  · exact .inl (handleServiceCall_transfer requestId command)
  · exact .inl (handleTransfer_busy htr requestId op command)
  · exact .inl rfl

theorem handleCommand_endsCleared (htr : s.transfer ≠ none) (command : JsonObject) :
    EndsCleared s (handleCommand env s command).1 := by
  unfold handleCommand
  split
  · exact .inl rfl
  split
  · exact .inl rfl
  split
  · exact .inl rfl
  split
  · exact .inl rfl
  split
  · exact .inl rfl
  · next requestId _ _ _ op _ _ _ =>
    exact @runCommand_endsCleared env
      { s with requestIds := if op = text "abort" then s.requestIds else requestId :: s.requestIds }
      htr requestId op command

theorem EndsCleared.rxBuffer (h : EndsCleared s t) (htr : s.transfer ≠ none) (ht : t.transfer = none) :
    OfLines t.rxBuffer := by
  rcases h with h | h
  · exact absurd (h.symm.trans ht) htr
  · rw [h]
    exact forall_mem_nil _

theorem takeAbort_inv (hcmds : CommandsOfLines s.handled) (htr : s.transfer ≠ none)
    (hline : OfLines line) (command : JsonObject) : Inv (takeAbort env s line rest command) := by
  refine ⟨?_, fun ht => ?_⟩
  · have hhandled := (@handleCommand_handlesNothing env { s with rxBuffer := rest } command).handled
    unfold takeAbort
    dsimp only
    rw [hhandled]
    exact hcmds.add_line hline
  · exact (@handleCommand_endsCleared env { s with rxBuffer := rest } htr command).rxBuffer htr ht

theorem takeFrames_inv (hcmds : CommandsOfLines s.handled) : Inv (takeFrames env s) :=
  frameLoop_inv (s := { s with frameParser := s.frameParser ++ s.rxBuffer, rxBuffer := [] }) _ hcmds rfl

/-! ### Actions -/

theorem Inv.deliver (h : Inv s) {chunk : List RxByte} (hc : FramesInTransfer env s (.receive chunk)) :
    Inv (deliver env s chunk) := by
  unfold Impl.deliver processRxBuffer
  dsimp only
  cases htr : s.transfer with
  | none =>
    have hchunk : OfLines chunk := by
      simpa [FramesInTransfer, htr] using hc
    exact textLoop_inv (s := { s with rxBuffer := s.rxBuffer ++ chunk, transfer := none }) _ h.commands
      ((h.rxBuffer htr).append hchunk)
  | some transfer =>
    have hfnd : ∀ found ∈ abortLineIn env s chunk, OfLines found.1 := by
      simpa only [FramesInTransfer, htr, isNone_some, Bool.false_eq_true, if_false] using hc
    unfold abortLineIn at hfnd
    rw [if_pos (by rfl)]
    split
    · next l r command habort =>
      exact takeAbort_inv (s := { s with rxBuffer := s.rxBuffer ++ chunk, transfer := some transfer })
        h.commands (by simp) (hfnd _ habort) command
    · exact takeFrames_inv (s := { s with rxBuffer := s.rxBuffer ++ chunk, transfer := some transfer }) h.commands

theorem Inv.of_cleared (h : Inv s) (hhandled : t.handled = s.handled) (hrx : t.rxBuffer = []) : Inv t :=
  ⟨hhandled ▸ h.commands, fun _ => hrx ▸ forall_mem_nil _⟩

theorem Inv.endSession (h : CommandsOfLines s.handled) : Inv s.endSession :=
  ⟨h, fun _ => forall_mem_nil _⟩

theorem Inv.failTransfer (h : Inv s) (code message : String) : Inv (s.failTransfer code message) :=
  h.of_cleared (failTransfer_effect code message).handled (failTransfer_clears code message).1

theorem Inv.abortTransferInternal (h : Inv s) (requestId : ℕ) (reason : String) (notifyHost : Bool) :
    Inv (s.abortTransferInternal requestId reason notifyHost).2 := by
  have hhandled := (abortTransferInternal_handlesNothing (s := s) requestId reason notifyHost).handled
  unfold Impl.abortTransferInternal at hhandled ⊢
  split
  · exact h
  split
  · exact h
  · cases notifyHost <;> exact h.of_cleared rfl rfl

theorem Inv.setConnected (h : Inv s) (connected : Bool) : Inv (s.setConnected connected) := by
  unfold Impl.setConnected
  split_ifs <;> exact ⟨h.commands, h.rxBuffer⟩

theorem Inv.updateConnectionState (h : Inv s) (connected : Bool) : Inv (s.updateConnectionState connected) := by
  unfold Impl.updateConnectionState
  split_ifs
  · exact Inv.endSession ((h.setConnected connected).abortTransferInternal 0 _ _).commands
  · exact h.setConnected connected

theorem Init.inv (h : Init s) : Inv s := by
  refine ⟨?_, fun _ => h.rxBuffer ▸ forall_mem_nil _⟩
  rw [h.handled]
  intro line hline
  cases hline

theorem inv_inductive : (machine env).Inductive (FramesInTransfer env) Inv where
  init _ hs := hs.inv
  step s a s' h hc hst := by
    simp only [machine] at hst
    cases a with
    | receive chunk =>
      cases hst
      exact h.deliver hc
    | queueFull =>
      cases hst
      unfold Impl.queueFull
      split_ifs
      · exact h.failTransfer _ _
      · exact h
    | connection connected =>
      cases hst
      exact h.updateConnectionState connected
    | transferTimeout =>
      cases hst
      unfold Impl.transferTimeout
      split_ifs
      · exact Inv.endSession (h.failTransfer _ _).commands
      · exact h
    | sessionTimeout =>
      cases hst
      unfold Impl.sessionTimeout
      split_ifs
      · exact Inv.endSession (h.failTransfer _ _).commands
      · exact Inv.endSession h.commands
      · exact h
    | abortTransfer requestId =>
      cases hst
      exact h.abortTransferInternal requestId _ _

/-- While the bytes of frames come during transfers, none of them is part of a command. -/
theorem commands_ofLines {s : Impl} (h : (machine env).Reach (FramesInTransfer env) s) :
    ∀ line, .line line true ∈ s.handled → ∀ b ∈ line, b.ofFrame = false :=
  (inv_inductive.reach h).commands

/-! ### A payload that is a command -/

def statusLine : Bytes := text "\x7b\"version\":1,\"request_id\":3,\"op\":\"status\"\x7d"

/-- The line that starts the transfer of a package of 43 bytes. -/
def packageLine : Bytes :=
  text "\x7b\"version\":1,\"request_id\":2,\"op\":\"install_bpk\",\"size\":43,\"sha256\":\"" ++ emptySha256 ++
    text "\"\x7d"

def header : Bytes :=
  [66, 85, 1, 1, 2, 0, 0, 0, 0, 0, 0, 0, 43, 0, 0, 0, 224, 82, 63, 63, 169, 141, 148, 140]

def payload : Bytes := statusLine ++ [10]

/-- `device`, with the two lines above as JSON. -/
def deviceWithStatus : Env :=
  { device with
    parse := fun line =>
      if line = statusLine then
        .ok (.object [(text "version", .int 1), (text "request_id", .int 3), (text "op", .string (text "status"))])
      else if line = packageLine then
        .ok (.object [(text "version", .int 1), (text "request_id", .int 2),
          (text "op", .string (text "install_bpk")), (text "size", .int 43), (text "sha256", .string emptySha256)])
      else device.parse line }

/-- A session and a transfer, up to the header of its first frame. -/
def framedRun (header : Bytes) : List Action :=
  [.receive (asLine helloLine), .receive (asLine packageLine), .receive (asFrame header)]

theorem init_ready : (machine deviceWithStatus).init ready := ⟨rfl, rfl, rfl, rfl⟩

set_option maxRecDepth 10000 in
theorem commands_ofLines_framedRun :
    ∃ s, (machine deviceWithStatus).Reach (FramesInTransfer deviceWithStatus) s ∧ s.transfer.isSome ∧
      ∀ line, .line line true ∈ s.handled → ∀ b ∈ line, b.ofFrame = false := by
  obtain ⟨s, hs, htr⟩ := map_eq_some_iff.mp (by decide +kernel :
    ((machine deviceWithStatus).execWhen (FramesInTransfer deviceWithStatus) ready
      (framedRun header ++ [.receive (asFrame payload)])).map (·.transfer.isSome) = some true)
  have h := Machine.Reach.execWhen (.init init_ready) hs
  exact ⟨s, h, by simpa using htr, commands_ofLines h⟩

def brokenHeader : Bytes :=
  [66, 85, 1, 1, 2, 0, 0, 0, 1, 0, 0, 0, 43, 0, 0, 0, 224, 82, 63, 63, 169, 141, 148, 140]

set_option maxRecDepth 10000 in
/-- The transfer fails at the header, and the payload that comes behind it is a command. -/
theorem payload_is_command : ∃ s, (machine deviceWithStatus).Reachable s ∧
      ∃ line, .line line true ∈ s.handled ∧ line ≠ [] ∧ ∀ b ∈ line, b.ofFrame = true := by
  obtain ⟨s, hs, hacc⟩ := map_eq_some_iff.mp (by decide +kernel : ((machine deviceWithStatus).exec ready
      (framedRun brokenHeader ++ [.receive (asFrame payload)])).map
        (fun s => decide (.line (asFrame statusLine) true ∈ s.handled)) = some true)
  refine ⟨s, .exec (.init init_ready) hs, asFrame statusLine, ?_, ?_, ?_⟩
  · simpa using hacc
  all_goals decide +kernel

end Brookesia.Usb.FrameBytes

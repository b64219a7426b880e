import Brookesia.Usb.Protocol

/-! # The frames as the host writes them

`brookesia_usb.protocol`. The numbers of a Python frame have no bound; `struct.pack` refuses those that do
not fit. -/

namespace Brookesia.Usb.HostProtocol

open List

open Filesystem.Path (Bytes)
open Protocol (FrameType frameMagic)

def maxFramePayload : ℕ := 16 * 1024

structure HostFrame where
  frameType : FrameType
  requestId : ℤ
  sequence : ℤ
  payload : Bytes
  version : ℤ
  deriving DecidableEq

/-- `int(frame_type)`. -/
def frameTypeNumber : FrameType → UInt8
  | .data => 1
  | .endOfData => 2
  | .cancel => 3

def crcRound (value : ℕ) : ℕ := (value >>> 1) ^^^ (if value &&& 1 ≠ 0 then 0xEDB88320 else 0)

/-- `(~value) & 0xFFFFFFFF` of an unbounded number. -/
def invert32 (value : ℕ) : ℕ := ((-(value : ℤ) - 1) % 2 ^ 32).toNat

def crc32 (data : Bytes) : ℕ :=
  invert32 (data.foldl (fun value byte => Nat.iterate crcRound 8 (value ^^^ byte.toNat)) 0xFFFFFFFF)

/-- The format `B`. -/
def packU8 (value : ℤ) : Except String Bytes :=
  if 0 ≤ value ∧ value < 2 ^ 8 then .ok [UInt8.ofNat value.toNat]
  else .error "ubyte format requires 0 <= number <= 255"

def u32Le (value : ℕ) : Bytes :=
  [UInt8.ofNat value, UInt8.ofNat (value / 2 ^ 8), UInt8.ofNat (value / 2 ^ 16), UInt8.ofNat (value / 2 ^ 24)]

/-- The format `<I`. -/
def packU32 (value : ℤ) : Except String Bytes :=
  if 0 ≤ value ∧ value < 2 ^ 32 then .ok (u32Le value.toNat) else .error "argument out of range"

/-- `FRAME_FIELDS.pack`. -/
def packFields (frame : HostFrame) : Except String Bytes := do
  let version ← packU8 frame.version
  let requestId ← packU32 frame.requestId
  let sequence ← packU32 frame.sequence
  let length ← packU32 frame.payload.length
  let payloadCrc ← packU32 (crc32 frame.payload)
  return frameMagic ++ version ++ [frameTypeNumber frame.frameType] ++ requestId ++ sequence ++ length ++ payloadCrc

def encodeFrame (frame : HostFrame) : Except String Bytes :=
  if frame.payload.length > maxFramePayload then .error "frame payload is too large"
  else if frame.frameType ≠ .data ∧ frame.payload ≠ [] then .error "control frames cannot contain a payload"
  else do
    let header ← packFields frame
    let headerCrc ← packU32 (crc32 header)
    return header ++ headerCrc ++ frame.payload

/-- What the loop of `iter_file_frames` reads, in at most so many turns. -/
def readPayloads (frameSize : ℕ) : ℕ → Bytes → List Bytes
  | 0, _ => []
  | turns + 1, content =>
    if content.take frameSize = [] then []
    else content.take frameSize :: readPayloads frameSize turns (content.drop frameSize)

/-- The payloads of a file. Each turn takes a byte at least. -/
def filePayloads (frameSize : ℕ) (content : Bytes) : List Bytes := readPayloads frameSize content.length content

variable {frameSize : ℕ} {content : Bytes}

theorem readPayloads_flatten (hsize : 0 < frameSize) {turns : ℕ} (hturns : content.length ≤ turns) :
    (readPayloads frameSize turns content).flatten = content := by
  induction turns generalizing content with
  | zero => exact (length_eq_zero_iff.mp (Nat.le_zero.mp hturns)).symm
  | succ turns ih =>
    unfold readPayloads
    split_ifs with hemp
    · rcases take_eq_nil_iff.mp hemp with h | h
      · omega
      · rw [h]
        rfl
    · rw [flatten_cons, ih, take_append_drop]
      rw [length_drop]
      omega

theorem filePayloads_flatten (hsize : 0 < frameSize) : (filePayloads frameSize content).flatten = content :=
  readPayloads_flatten hsize le_rfl

theorem readPayloads_length {turns : ℕ} : (readPayloads frameSize turns content).length ≤ turns := by
  induction turns generalizing content with
  | zero => exact Nat.le_refl 0
  | succ turns ih =>
    unfold readPayloads
    split_ifs
    · exact Nat.zero_le _
    · exact Nat.succ_le_succ ih

theorem mem_readPayloads {turns : ℕ} {payload : Bytes} (h : payload ∈ readPayloads frameSize turns content) :
    payload ≠ [] ∧ payload.length ≤ frameSize ∧ payload.length ≤ content.length := by
  induction turns generalizing content with
  | zero => cases h
  | succ turns ih =>
    unfold readPayloads at h
    split_ifs at h with hemp
    · cases h
    · rcases mem_cons.mp h with rfl | h
      · refine ⟨hemp, ?_, ?_⟩ <;> rw [length_take] <;> omega
      · obtain ⟨hne, hle, hlen⟩ := ih h
        rw [length_drop] at hlen
        exact ⟨hne, hle, by omega⟩

end Brookesia.Usb.HostProtocol

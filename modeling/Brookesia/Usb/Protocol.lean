import Brookesia.Filesystem.Path

/-! # The frames of the USB control port

`FrameParser` and the functions under it. The bytes of the stream are `RxByte`: each carries whether the
host has sent it as part of a frame. The device does not see this: no function of the source looks at it. -/

namespace Brookesia.Usb.Protocol

open List

open Filesystem.Path (Bytes)

structure RxByte where
  value : UInt8
  ofFrame : Bool
  deriving DecidableEq

def values (bytes : List RxByte) : Bytes := bytes.map (·.value)

inductive FrameType
  | data
  | endOfData
  | cancel
  deriving DecidableEq

structure BinaryFrame where
  type : FrameType
  version : UInt8
  requestId : ℕ
  sequence : UInt32
  payload : Bytes
  deriving DecidableEq

def frameMagic : Bytes := [66, 85]

def headerWithoutCrcSize : ℕ := 20

def frameHeaderSize : ℕ := 24

def protocolVersion : ℕ := 1

def readU32Le (data : Bytes) : UInt32 :=
  (data.getD 0 0).toUInt32 ||| ((data.getD 1 0).toUInt32 <<< 8) ||| ((data.getD 2 0).toUInt32 <<< 16) |||
    ((data.getD 3 0).toUInt32 <<< 24)

def crcRound (crc : UInt32) : UInt32 := (crc >>> 1) ^^^ (0xEDB88320 &&& (0 - (crc &&& 1)))

def crc32 (data : Bytes) : UInt32 :=
  ~~~ data.foldl (fun crc value => Nat.iterate crcRound 8 (crc ^^^ value.toUInt32)) 0xFFFFFFFF

def frameType : UInt8 → Option FrameType
  | 1 => some .data
  | 2 => some .endOfData
  | 3 => some .cancel
  | _ => none

def payloadLength (header : Bytes) : ℕ := (readU32Le (header.drop 12)).toNat

def frameSize (header : Bytes) : ℕ := frameHeaderSize + payloadLength header

/-- What is wrong with a header, of the things that are tested before the payload is there. -/
def headerError (maxPayload : ℕ) (header : Bytes) : Option String :=
  if header.take 2 ≠ frameMagic then some "bad frame magic"
  else if (header.getD 2 0).toNat ≠ protocolVersion then some "unsupported frame version"
  else if payloadLength header > maxPayload then some "frame payload is too large"
  else if readU32Le (header.drop headerWithoutCrcSize) ≠ crc32 (header.take headerWithoutCrcSize) then
    some "bad frame header crc"
  else none

def readFrame (frame : Bytes) : Except String BinaryFrame :=
  if readU32Le (frame.drop 16) ≠ crc32 (frame.drop frameHeaderSize) then .error "bad frame payload crc"
  else
    match frameType (frame.getD 3 0) with
    | none => .error "unsupported frame type"
    | some type =>
      if type ≠ .data ∧ payloadLength frame ≠ 0 then
        .error "control frame must not contain a payload"
      else
        .ok
          { type
            version := frame.getD 2 0
            requestId := (readU32Le (frame.drop 4)).toNat
            sequence := readU32Le (frame.drop 8)
            payload := frame.drop frameHeaderSize }

def takeFrame (size : ℕ) (buffer : List RxByte) : Except String (Option (BinaryFrame × List RxByte)) :=
  if buffer.length < size then .ok none
  else
    match readFrame ((values buffer).take size) with
    | .error error => .error error
    | .ok frame => .ok (some (frame, buffer.drop size))

/-- `FrameParser::next`: a frame and what is left of the buffer, nothing where bytes are missing, or an
error. -/
def next (maxPayload : ℕ) (buffer : List RxByte) : Except String (Option (BinaryFrame × List RxByte)) :=
  if buffer.length < frameHeaderSize then .ok none
  else
    match headerError maxPayload ((values buffer).take frameHeaderSize) with
    | some error => .error error
    | none => takeFrame (frameSize ((values buffer).take frameHeaderSize)) buffer

/-! ### More bytes -/

variable {maxPayload : ℕ} {buffer more rest : List RxByte}

theorem values_append : values (buffer ++ more) = values buffer ++ values more := map_append

theorem length_values : (values buffer).length = buffer.length := length_map _

theorem take_values_append {n : ℕ} (h : n ≤ buffer.length) :
    (values (buffer ++ more)).take n = (values buffer).take n := by
  rw [values_append, take_append_of_le_length]
  rwa [length_values]

theorem takeFrame_append {size : ℕ} {r : Except String (Option (BinaryFrame × List RxByte))}
    (h : takeFrame size buffer = r) (hr : r ≠ .ok none) :
    takeFrame size (buffer ++ more) = r.map (Option.map fun fr => (fr.1, fr.2 ++ more)) := by
  subst h
  unfold takeFrame at *
  by_cases hsize : buffer.length < size
  · rw [if_pos hsize] at hr
    exact absurd rfl hr
  rw [if_neg hsize, length_append, if_neg (by omega), take_values_append (by omega),
    drop_append_of_le_length (by omega)]
  cases readFrame ((values buffer).take size) with
  | error e => rfl
  | ok frame => rfl

theorem next_append {r : Except String (Option (BinaryFrame × List RxByte))}
    (h : next maxPayload buffer = r) (hr : r ≠ .ok none) :
    next maxPayload (buffer ++ more) = r.map (Option.map fun fr => (fr.1, fr.2 ++ more)) := by
  subst h
  unfold next at *
  by_cases hlen : buffer.length < frameHeaderSize
  · rw [if_pos hlen] at hr
    exact absurd rfl hr
  rw [if_neg hlen] at hr ⊢
  rw [length_append, if_neg (by omega), take_values_append (by omega)]
  cases he : headerError maxPayload ((values buffer).take frameHeaderSize) with
  | some e => rfl
  | none =>
    rw [he] at hr
    exact takeFrame_append rfl hr

theorem next_append_error {error : String} (h : next maxPayload buffer = .error error) :
    next maxPayload (buffer ++ more) = .error error := next_append h (by simp)

theorem next_append_some {frame : BinaryFrame} (h : next maxPayload buffer = .ok (some (frame, rest))) :
    next maxPayload (buffer ++ more) = .ok (some (frame, rest ++ more)) := next_append h (by simp)

/-- Where bytes are missing, they are missing from every part that came before. -/
theorem next_none_of_append (h : next maxPayload (buffer ++ more) = .ok none) :
    next maxPayload buffer = .ok none := by
  match hbuf : next maxPayload buffer with
  | .error e => rw [next_append_error hbuf] at h; cases h
  | .ok (some (frame, rest)) => rw [next_append_some hbuf] at h; cases h
  | .ok none => rfl

/-- The first frame of a stream is in what came before or was begun there. -/
theorem next_append_cases {frame : BinaryFrame} (h : next maxPayload (buffer ++ more) = .ok (some (frame, rest))) :
    next maxPayload buffer = .ok none ∨
      ∃ left, next maxPayload buffer = .ok (some (frame, left)) ∧ rest = left ++ more := by
  match hbuf : next maxPayload buffer with
  | .error e => rw [next_append_error hbuf] at h; cases h
  | .ok none => exact .inl rfl
  | .ok (some (_, left)) =>
    rw [next_append_some hbuf] at h
    cases h
    exact .inr ⟨left, rfl, rfl⟩

theorem next_of_short (h : buffer.length < frameHeaderSize) : next maxPayload buffer = .ok none := by
  unfold next
  rw [if_pos h]

theorem next_some_split {frame : BinaryFrame} (h : next maxPayload buffer = .ok (some (frame, rest))) :
    ∃ bytes, buffer = bytes ++ rest ∧ frameHeaderSize ≤ bytes.length ∧
      (values bytes).take 2 = frameMagic ∧ next maxPayload bytes = .ok (some (frame, [])) := by
  unfold next at h
  by_cases hlen : buffer.length < frameHeaderSize
  · rw [if_pos hlen] at h
    cases h
  rw [if_neg hlen] at h
  have hfr : frameHeaderSize ≤ frameSize ((values buffer).take frameHeaderSize) := Nat.le_add_right _ _
  generalize hsize : frameSize ((values buffer).take frameHeaderSize) = size at h hfr
  split at h
  · cases h
  next he =>
  unfold takeFrame at h
  by_cases hshort : buffer.length < size
  · rw [if_pos hshort] at h
    cases h
  rw [if_neg hshort] at h
  split at h
  · cases h
  next hread =>
  simp only [Except.ok.injEq, Option.some.injEq, Prod.mk.injEq] at h
  have hlength : (buffer.take size).length = size := by
    rw [length_take]
    omega
  have hhead : (values (buffer.take size)).take frameHeaderSize = (values buffer).take frameHeaderSize := by
    unfold values
    rw [map_take, take_take, Nat.min_eq_left hfr]
  refine ⟨buffer.take size, ?_, by omega, ?_, ?_⟩
  · rw [← h.2, take_append_drop]
  · have hmagic : ((values buffer).take frameHeaderSize).take 2 = frameMagic := by
      unfold headerError at he
      by_contra hne
      rw [if_pos hne] at he
      cases he
    rw [← hhead, take_take, Nat.min_eq_left (by decide)] at hmagic
    exact hmagic
  · unfold next takeFrame
    rw [hlength, if_neg (by omega), hhead, he, hsize]
    dsimp only
    rw [if_neg (by omega)]
    have hvals : (values (buffer.take size)).take size = (values buffer).take size := by
      unfold values
      rw [map_take, take_take, Nat.min_self]
    rw [hvals, hread, drop_eq_nil_of_le hlength.le, h.1]

theorem next_some_head {frame : BinaryFrame} (h : next maxPayload buffer = .ok (some (frame, rest))) :
    buffer.head?.map (·.value) = some 66 := by
  obtain ⟨bytes, rfl, _, hmagic, _⟩ := next_some_split h
  cases bytes with
  | nil => cases hmagic
  | cons b bytes =>
    have := congrArg List.head? hmagic
    simpa [values, frameMagic] using this

theorem next_some_length {frame : BinaryFrame} (h : next maxPayload buffer = .ok (some (frame, rest))) :
    rest.length < buffer.length := by
  obtain ⟨bytes, rfl, hbytes, _, _⟩ := next_some_split h
  rw [length_append]
  unfold frameHeaderSize at hbytes
  omega

end Brookesia.Usb.Protocol

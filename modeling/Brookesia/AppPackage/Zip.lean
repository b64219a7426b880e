import Brookesia.Data.Json

/-! # Package archives

The ZIP reader of app packages. The installer and the release verifier each have a copy of it, the same
statement by statement; this is the one model of both. -/

namespace Brookesia.AppPackage.Zip

open Filesystem.Path Data.Json

abbrev Digest := List.Vector UInt8 32

/-- What the package code takes from other libraries; each call may fail with a text. -/
structure Libraries where
  /-- zlib, for raw deflate data of a given uncompressed size. -/
  inflateRawDeflate : Bytes → ℕ → Except Bytes Bytes
  parseJson : Bytes → Option JsonValue
  sha256 : Bytes → Except Bytes Digest
  /-- A public key, from its PEM text: the check of an RSA-PSS signature of a SHA-256 value. -/
  parsePublicKey : Bytes → Except Bytes (Digest → Bytes → Except Bytes Unit)

structure ZipEntry where
  name : Bytes
  compressionMethod : ℕ
  compressedSize : ℕ
  uncompressedSize : ℕ
  localHeaderOffset : ℕ
  isDirectory : Bool
  deriving DecidableEq

def checkRange (offset size totalSize : ℕ) : Bool := offset ≤ totalSize && size ≤ totalSize - offset

def readU16Le (data : Bytes) (offset : ℕ) : ℕ :=
  (data.getD offset 0).toNat + 2 ^ 8 * (data.getD (offset + 1) 0).toNat

def readU32Le (data : Bytes) (offset : ℕ) : ℕ :=
  readU16Le data offset + 2 ^ 16 * readU16Le data (offset + 2)

def slice (data : Bytes) (offset size : ℕ) : Bytes := (data.drop offset).take size

def zipEocdSignature : ℕ := 0x06054b50
def zipCentralFileSignature : ℕ := 0x02014b50
def zipLocalFileSignature : ℕ := 0x04034b50
def zipMethodStore : ℕ := 0
def zipMethodDeflate : ℕ := 8

/-- The loop of `find_eocd_offset`, which goes down. -/
def findEocdFrom (zipData : Bytes) (minOffset : ℕ) : ℕ → Option ℕ
  | 0 => if minOffset = 0 ∧ readU32Le zipData 0 = zipEocdSignature then some 0 else none
  | offset + 1 =>
    if offset + 1 < minOffset ∨ !checkRange (offset + 1) 4 zipData.length then none
    else if readU32Le zipData (offset + 1) = zipEocdSignature then some (offset + 1)
    else findEocdFrom zipData minOffset offset

def findEocdOffset (zipData : Bytes) : Option ℕ :=
  if zipData.length < 22 then none
  else findEocdFrom zipData (zipData.length - (22 + 0xFFFF)) (zipData.length - 22)

/-- The loop of `parse_central_directory`, for the entries that are left. -/
def parseEntries (zipData : Bytes) : ℕ → ℕ → Except Bytes (List ZipEntry)
  | 0, _ => .ok []
  | count + 1, cursor => do
    if !checkRange cursor 46 zipData.length then
      .error (text "Invalid ZIP central directory header")
    if readU32Le zipData cursor ≠ zipCentralFileSignature then
      .error (text "Invalid ZIP central directory signature")
    let fileNameLen := readU16Le zipData (cursor + 28)
    let extraLen := readU16Le zipData (cursor + 30)
    let commentLen := readU16Le zipData (cursor + 32)
    if !checkRange (cursor + 46) fileNameLen zipData.length then
      .error (text "Invalid ZIP file name range")
    let name := slice zipData (cursor + 46) fileNameLen
    let entry : ZipEntry := {
      name := name
      compressionMethod := readU16Le zipData (cursor + 10)
      compressedSize := readU32Le zipData (cursor + 20)
      uncompressedSize := readU32Le zipData (cursor + 24)
      localHeaderOffset := readU32Le zipData (cursor + 42)
      isDirectory := name.getLast? = some separator }
    let advance := 46 + fileNameLen + extraLen + commentLen
    if !checkRange cursor advance zipData.length then
      .error (text "Invalid ZIP central directory entry size")
    let entries ← parseEntries zipData count (cursor + advance)
    return entry :: entries

def parseCentralDirectory (zipData : Bytes) : Except Bytes (List ZipEntry) :=
  match findEocdOffset zipData with
  | none => .error (text "ZIP end of central directory not found")
  | some eocd =>
    if !checkRange eocd 22 zipData.length then .error (text "Invalid ZIP EOCD size")
    else if !checkRange (readU32Le zipData (eocd + 16)) (readU32Le zipData (eocd + 12)) zipData.length
    then .error (text "Invalid ZIP central directory range")
    else parseEntries zipData (readU16Le zipData (eocd + 10)) (readU32Le zipData (eocd + 16))

def extractZipEntry (libs : Libraries) (zipData : Bytes) (entry : ZipEntry) : Except Bytes Bytes :=
  let localHeader := entry.localHeaderOffset
  if !checkRange localHeader 30 zipData.length then
    .error (text "Invalid ZIP local file header range")
  else if readU32Le zipData localHeader ≠ zipLocalFileSignature then
    .error (text "Invalid ZIP local file signature")
  else
    let dataOffset :=
      localHeader + 30 + readU16Le zipData (localHeader + 26) + readU16Le zipData (localHeader + 28)
    if !checkRange dataOffset entry.compressedSize zipData.length then
      .error (text "Invalid ZIP compressed data range")
    else
      let compressedData := slice zipData dataOffset entry.compressedSize
      if entry.compressionMethod = zipMethodStore then .ok compressedData
      else if entry.compressionMethod = zipMethodDeflate then
        libs.inflateRawDeflate compressedData entry.uncompressedSize
      else
        .error (text "Unsupported ZIP compression method: " ++ text (toString entry.compressionMethod))

def findZipEntry (entries : List ZipEntry) (name : Bytes) : Option ZipEntry :=
  entries.find? fun e => !e.isDirectory && e.name = name

/-! ### Writing an archive -/

def littleEndian : ℕ → ℕ → Bytes
  | 0, _ => []
  | width + 1, value => UInt8.ofNat (value % 256) :: littleEndian width (value / 256)

def zeros (n : ℕ) : Bytes := List.replicate n 0

def localRecord (m : Bytes × Bytes) : Bytes :=
  littleEndian 4 zipLocalFileSignature ++ zeros 14 ++ littleEndian 4 m.2.length ++
    littleEndian 4 m.2.length ++ littleEndian 2 m.1.length ++ zeros 2 ++ m.1 ++ m.2

def centralRecords : ℕ → List (Bytes × Bytes) → Bytes
  | _, [] => []
  | offset, m :: ms =>
    littleEndian 4 zipCentralFileSignature ++ zeros 16 ++ littleEndian 4 m.2.length ++
      littleEndian 4 m.2.length ++ littleEndian 2 m.1.length ++ zeros 12 ++ littleEndian 4 offset ++
      m.1 ++ centralRecords (offset + (localRecord m).length) ms

/-- The archive that stores some members without compression. -/
def storedArchive (ms : List (Bytes × Bytes)) : Bytes :=
  let records := ms.flatMap localRecord
  let central := centralRecords 0 ms
  records ++ central ++ littleEndian 4 zipEocdSignature ++ zeros 6 ++ littleEndian 2 ms.length ++
    littleEndian 4 central.length ++ littleEndian 4 records.length ++ zeros 2

end Brookesia.AppPackage.Zip

import StaticSite.Archive.Entry

/-! # The bytes of an archive

An archive is stored in the ZIP format: for each entry a header and its data, then a directory that
repeats the headers with the places of the entries, then the place of the directory. Data is in
blocks of the DEFLATE format that keep it as it is. Numbers have their lowest byte first.
-/

namespace StaticSite.Archive

/-- A number in some bytes, the lowest one first. -/
def littleEndian : Nat → Nat → List UInt8
  | 0, _ => []
  | width + 1, n => UInt8.ofNat n :: littleEndian width (n / 256)

/-- A number has as many bytes as it is given. -/
@[simp] theorem length_littleEndian (width n : Nat) : (littleEndian width n).length = width := by
  induction width generalizing n with
  | zero => rfl
  | succ width ih => simp [littleEndian, ih]

/-- Divides by the checksum's polynomial, bit by bit. -/
def checksumBits : Nat → UInt32 → UInt32
  | 0, remainder => remainder
  | bits + 1, remainder =>
      checksumBits bits
        (if remainder &&& 1 = 1 then (remainder >>> 1) ^^^ 0xedb88320 else remainder >>> 1)

/-- The checksum of bytes. -/
def checksum (bytes : List UInt8) : UInt32 :=
  (bytes.foldl (fun remainder byte => checksumBits 8 (remainder ^^^ byte.toUInt32)) 0xffffffff)
    ^^^ 0xffffffff

/-- The most bytes that one block keeps. -/
def blockLimit : Nat := 65535

/-- A block that keeps bytes: whether it is the last one, their number, that number with its bits
turned over, and the bytes. -/
def block (last : Bool) (bytes : List UInt8) : List UInt8 :=
  (if last then 1 else 0) :: littleEndian 2 bytes.length ++
    littleEndian 2 (blockLimit - bytes.length) ++ bytes

/-- Data in blocks. -/
def blocks (bytes : List UInt8) : List UInt8 :=
  if bytes.length ≤ blockLimit then block true bytes
  else block false (bytes.take blockLimit) ++ blocks (bytes.drop blockLimit)
termination_by bytes.length
decreasing_by
  simp only [List.length_drop, blockLimit] at *
  omega

/-- The bytes of a text. -/
def bytesOf (t : Text) : List UInt8 := (String.ofList t).toUTF8.toList

/-- The moment of every entry as two numbers: seconds by twos, minutes and hours, and the day, the
month and the years since 1980. -/
def momentField : List UInt8 :=
  match entryDate with
  | [year, month, day, hour, minute, second] =>
      littleEndian 2 (second / 2 + 32 * minute + 2048 * hour) ++
        littleEndian 2 (day + 32 * month + 512 * (year - 1980))
  | _ => []

/-- The part of a header that an entry has in both places: the version that reads it, whether its
name is more than ASCII, the way it is compressed, its moment, its checksum and its sizes. -/
def commonHeader (e : Entry) : List UInt8 :=
  let content := bytesOf e.content
  let name := bytesOf e.path
  littleEndian 2 20 ++ littleEndian 2 (if name.all (· < 128) then 0 else 0x800) ++
    littleEndian 2 8 ++ momentField ++ littleEndian 4 (checksum content).toNat ++
    littleEndian 4 (blocks content).length ++ littleEndian 4 content.length ++
    littleEndian 2 name.length ++ littleEndian 2 0

/-- An entry with its header. -/
def entryBytes (e : Entry) : List UInt8 :=
  littleEndian 4 0x04034b50 ++ commonHeader e ++ bytesOf e.path ++ blocks (bytesOf e.content)

/-- An entry in the directory: who made it, its header, and the place of the entry. -/
def directoryBytes (offset : Nat) (e : Entry) : List UInt8 :=
  littleEndian 4 0x02014b50 ++ littleEndian 2 (20 + 256 * 3) ++ commonHeader e ++
    littleEndian 2 0 ++ littleEndian 2 0 ++ littleEndian 2 0 ++
    littleEndian 4 (entryMode * 65536) ++ littleEndian 4 offset ++ bytesOf e.path

/-- The directory of entries that start at an offset. -/
def directory (offset : Nat) : List Entry → List UInt8
  | [] => []
  | e :: rest => directoryBytes offset e ++ directory (offset + (entryBytes e).length) rest

/-- The bytes of an archive. -/
def bytes (entries : List Entry) : List UInt8 :=
  let data := entries.flatMap entryBytes
  let index := directory 0 entries
  data ++ index ++ littleEndian 4 0x06054b50 ++ littleEndian 2 0 ++ littleEndian 2 0 ++
    littleEndian 2 entries.length ++ littleEndian 2 entries.length ++
    littleEndian 4 index.length ++ littleEndian 4 data.length ++ littleEndian 2 0

end StaticSite.Archive

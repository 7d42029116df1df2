import ClassLowering.Files.Checksum
import ClassLowering.Text.CodePage437
import ClassLowering.Text.Utf8

/-! # Archives

An archive is read from its end: a closing record tells where the directory of entries lies, and
each entry of the directory tells where its own record lies, with the content behind it. Bytes in
front of the first record are allowed; all places shift by their number.

Numbers that do not fit into 32 bits have other places. A locator in front of the closing record
leads to a wide closing record, which then counts instead. An entry of the directory has a field of
wide numbers, which are there for those of its own numbers that have all bits set.

`Archive.entries?` reads the directory, and fails if a record is not where it should be.
`ArchiveEntry.open?` goes to the record of an entry, and `ArchiveEntry.content?` takes the content,
which has to be stored as it is and to agree with its checksum. -/

namespace ClassLowering

/-- The number that little-endian bytes stand for. -/
def littleEndian (bytes : List UInt8) : Nat :=
  bytes.foldr (fun byte number => byte.toNat + 256 * number) 0

/-- The bytes of an archive. -/
structure Archive where
  bytes : List UInt8

/-- What the directory of an archive says of an entry. -/
structure ArchiveEntry where
  name : String
  isEncrypted : Bool
  /-- How the content is packed; zero if it is stored as it is. -/
  method : Nat
  checksum : UInt32
  /-- The number of bytes of the content. -/
  size : Nat
  /-- The number of bytes that the content takes in the archive. -/
  packedSize : Nat
  /-- Where the record of the entry lies. -/
  place : Nat
  deriving DecidableEq, Repr

namespace ArchiveEntry

/-- A number, or the wide one at the start of some bytes if all its 32 bits are set; and the bytes
behind. -/
def widen? (number : Nat) (bytes : List UInt8) : Option (Nat × List UInt8) :=
  if number ≠ 0xFFFFFFFF then some (number, bytes)
  else if 8 ≤ bytes.length then some (littleEndian (bytes.take 8), bytes.drop 8)
  else none

/-- A number that is widened takes bytes from the front only. -/
theorem length_widen? {number wide : Nat} {bytes left : List UInt8}
    (widened : widen? number bytes = some (wide, left)) : left.length ≤ bytes.length := by
  unfold widen? at widened
  repeat' split at widened
  all_goals grind

/-- An entry with the numbers of a wide field, as far as there are bytes for them, and the bytes
behind them if there were. -/
def widenAll (entry : ArchiveEntry) (bytes : List UInt8) :
    ArchiveEntry × Option (List UInt8) :=
  match widen? entry.size bytes with
  | none => (entry, none)
  | some (size, bytes) =>
    match widen? entry.packedSize bytes with
    | none => ({ entry with size }, none)
    | some (packedSize, bytes) =>
      match widen? entry.place bytes with
      | none => ({ entry with size, packedSize }, none)
      | some (place, bytes) => ({ entry with size, packedSize, place }, some bytes)

/-- Widening all numbers of an entry takes bytes from the front only. -/
theorem length_widenAll {entry wide : ArchiveEntry} {bytes left : List UInt8}
    (widened : entry.widenAll bytes = (wide, some left)) : left.length ≤ bytes.length := by
  unfold widenAll at widened
  repeat' split at widened
  all_goals grind [→ length_widen?]

/-- An entry with what its extra fields say: each has a kind, a length and that many bytes. A field
of wide numbers takes the bytes that it needs, whatever its length. Fields end where one is cut
short. -/
def extend (entry : ArchiveEntry) (fields : List UInt8) : ArchiveEntry :=
  match fields with
  | kind :: kind' :: length :: length' :: bytes =>
    let length := littleEndian [length, length']
    if littleEndian [kind, kind'] = 1 then
      match _widened : entry.widenAll bytes with
      | (entry, none) => entry
      | (entry, some left) => entry.extend (left.drop (length - (bytes.length - left.length)))
    else entry.extend (bytes.drop length)
  | _ => entry
termination_by fields.length
decreasing_by
  · have := length_widenAll _widened
    simp only [List.length_drop, List.length_cons]
    omega
  · simp only [List.length_drop, List.length_cons]
    omega

end ArchiveEntry

namespace Archive

/-- The bytes at a place. -/
def slice? (archive : Archive) (place length : Nat) : Option (List UInt8) :=
  let part := (archive.bytes.drop place).take length
  if part.length = length then some part else none

/-- The number at a place. -/
def number? (archive : Archive) (place length : Nat) : Option Nat :=
  (archive.slice? place length).map littleEndian

/-- The first four bytes of a closing record. -/
def closingSignature : List UInt8 := [0x50, 0x4B, 0x05, 0x06]

/-- The first four bytes of a locator. -/
def locatorSignature : List UInt8 := [0x50, 0x4B, 0x06, 0x07]

/-- The first four bytes of a wide closing record. -/
def wideClosingSignature : List UInt8 := [0x50, 0x4B, 0x06, 0x06]

/-- The first four bytes of an entry of the directory. -/
def directorySignature : List UInt8 := [0x50, 0x4B, 0x01, 0x02]

/-- The first four bytes of the record of an entry. -/
def recordSignature : List UInt8 := [0x50, 0x4B, 0x03, 0x04]

/-- The place of the last closing record that can have its comment, of at most 65535 bytes, behind
it. `suffix` is what lies from `place` on. -/
def closingPlace? (suffix : List UInt8) (place : Nat) : Option Nat :=
  match suffix with
  | [] => none
  | _ :: rest =>
    match closingPlace? rest (place + 1) with
    | some found => some found
    | none =>
      if suffix.take 4 = closingSignature ∧ 22 ≤ suffix.length ∧ suffix.length ≤ 22 + 65535 then
        some place
      else none

/-- Reads an entry of the directory at a place; gives the place behind it too. All places of
records are shifted. -/
def directoryEntry? (archive : Archive) (shift place : Nat) : Option (ArchiveEntry × Nat) := do
  guard ((← archive.slice? place 4) = directorySignature)
  let flags ← archive.number? (place + 8) 2
  let method ← archive.number? (place + 10) 2
  let checksum ← archive.number? (place + 16) 4
  let packedSize ← archive.number? (place + 20) 4
  let size ← archive.number? (place + 24) 4
  let nameLength ← archive.number? (place + 28) 2
  let extraLength ← archive.number? (place + 30) 2
  let commentLength ← archive.number? (place + 32) 2
  let record ← archive.number? (place + 42) 4
  let name ← archive.slice? (place + 46) nameLength
  let extra ← archive.slice? (place + 46 + nameLength) extraLength
  discard (archive.slice? (place + 46 + nameLength + extraLength) commentLength)
  let entry : ArchiveEntry := {
    name := if flags.testBit 11 then Utf8.decodeLossy name else CodePage437.decode name
    isEncrypted := flags.testBit 0
    method
    checksum := checksum.toUInt32
    size
    packedSize
    place := record }
  let entry := entry.extend extra
  return ({ entry with place := entry.place + shift },
    place + 46 + nameLength + extraLength + commentLength)

/-- Reads entries of the directory one after the other. -/
def directoryEntries? (archive : Archive) (shift : Nat) :
    (count place : Nat) → Option (List ArchiveEntry)
  | 0, _ => some []
  | count + 1, place => do
    let (entry, next) ← archive.directoryEntry? shift place
    let others ← archive.directoryEntries? shift count next
    return entry :: others

/-- Where the directory of an archive lies. -/
structure Directory where
  place : Nat
  count : Nat
  /-- The number of bytes in front of the archive. -/
  shift : Nat

/-- The closing record of an archive. -/
structure Closing where
  place : Nat
  part : Nat
  directoryPart : Nat
  count : Nat
  directorySize : Nat
  directoryPlace : Nat
  commentLength : Nat

/-- Reads the closing record. -/
def closing? (archive : Archive) : Option Closing := do
  let place ← closingPlace? archive.bytes 0
  let part ← archive.number? (place + 4) 2
  let directoryPart ← archive.number? (place + 6) 2
  let count ← archive.number? (place + 8) 2
  let directorySize ← archive.number? (place + 12) 4
  let directoryPlace ← archive.number? (place + 16) 4
  let commentLength ← archive.number? (place + 20) 2
  discard (archive.slice? (place + 22) commentLength)
  guard (part = directoryPart)
  return { place, part, directoryPart, count, directorySize, directoryPlace, commentLength }

/-- The directory that the closing record tells of, which ends right in front of it. -/
def Closing.directory? (closing : Closing) : Option Directory := do
  guard (closing.directorySize + closing.directoryPlace ≤ closing.place)
  return {
    place := closing.place - closing.directorySize
    count := closing.count
    shift := closing.place - closing.directorySize - closing.directoryPlace }

/-- The place of the locator, if there is one: its end is as far from the end of the archive as a
closing record and its comment take. -/
def locatorPlace? (archive : Archive) (closing : Closing) : Option Nat := do
  let behind := 20 + 22 + closing.commentLength
  guard (behind ≤ archive.bytes.length)
  let place := archive.bytes.length - behind
  guard ((← archive.slice? place 4) = locatorSignature)
  return place

/-- The first place of a signature up to a last one. `suffix` is what lies from `place` on. -/
def firstPlace? (signature suffix : List UInt8) (place last : Nat) : Option Nat :=
  match suffix with
  | [] => none
  | _ :: rest =>
    if last < place then none
    else if suffix.take 4 = signature then some place
    else firstPlace? signature rest (place + 1) last

/-- Places in a file lie below this. -/
def placeLimit : Nat := 0x8000000000000000

/-- The directory that the wide closing record tells of. A locator says where that record should
be; bytes in front of the archive move it further on. -/
def wideDirectory? (archive : Archive) (closing : Closing) (locator : Nat) :
    Option Directory := do
  let directoryPart ← archive.number? (locator + 4) 4
  let expected ← archive.number? (locator + 8) 8
  guard (closing.part = directoryPart ∧ 60 ≤ closing.place)
  let wide ← firstPlace? wideClosingSignature (archive.bytes.drop expected) expected
    (closing.place - 60)
  let part ← archive.number? (wide + 16) 4
  let directoryPart ← archive.number? (wide + 20) 4
  let count ← archive.number? (wide + 32) 8
  let directoryPlace ← archive.number? (wide + 48) 8
  guard (part = directoryPart)
  let shift := wide - expected
  guard (directoryPlace + shift < placeLimit)
  return { place := directoryPlace + shift, count, shift }

/-- Reads the directory of an archive that is in one part. -/
def entries? (archive : Archive) : Option (List ArchiveEntry) := do
  let closing ← archive.closing?
  let directory ← match archive.locatorPlace? closing with
    | some locator => archive.wideDirectory? closing locator
    | none => closing.directory?
  archive.directoryEntries? directory.shift directory.count directory.place

end Archive

namespace ArchiveEntry

/-- Whether the way an entry is packed is known: stored, or one of two ways to compress. -/
def isKnown (entry : ArchiveEntry) : Bool := entry.method ∈ [0, 8, 12]

/-- The place of the content of an entry that is known and not encrypted. -/
def open? (entry : ArchiveEntry) (archive : Archive) : Option Nat := do
  guard (entry.isKnown ∧ ¬ entry.isEncrypted)
  guard ((← archive.slice? entry.place 4) = Archive.recordSignature)
  let nameLength ← archive.number? (entry.place + 26) 2
  let extraLength ← archive.number? (entry.place + 28) 2
  return entry.place + 30 + nameLength + extraLength

/-- The stored content at a place, if it agrees with the checksum. -/
def content? (entry : ArchiveEntry) (archive : Archive) (place : Nat) : Option (List UInt8) := do
  let content := (archive.bytes.drop place).take entry.packedSize
  guard (entry.method = 0 ∧ Checksum.ofBytes content = entry.checksum)
  return content

end ArchiveEntry

end ClassLowering

import Tabular.Snapshot.Encoding
import Tabular.Table.Integrity

/-! # Reading snapshots

Bytes are read from the front as far as the table goes; what follows it is not looked at. The table
is accepted only if it obeys the rules for tables.
-/

namespace Tabular.Snapshot

/-- A reader of bytes from the front. -/
abbrev Reader := StateT (List UInt8) (Except SnapshotError)

namespace Reader

/-- The next byte, which has to exist. -/
def byte : Reader UInt8 := do
  match ← get with
  | b :: rest =>
    set rest
    return b
  | [] => throw .endOfBytes

/-- A number of so many bytes. -/
def number : (size : Nat) → Reader Nat
  | 0 => return 0
  | size + 1 => do
    let low ← byte
    let high ← number size
    return low.toNat + 256 * high

/-- The number of one of so many alternatives. -/
def tag (alternatives : Nat) : Reader Nat := do
  let n ← number 4
  if n < alternatives then return n else throw (.invalidTag n alternatives)

/-- A 64-bit number. -/
def word : Reader Nat := number 8

/-- A truth value. -/
def bool : Reader Bool := do
  match ← number 1 with
  | 0 => return false
  | 1 => return true
  | n => throw (.invalidBool n)

/-- A text with its length in bytes. -/
def text : Reader String := do
  let length ← word
  let bytes ← get
  if bytes.length < length then throw .endOfText
  set (bytes.drop length)
  match Text.ofBytes (bytes.take length) with
  | .ok s => return s
  | .error e => throw (.invalidText e)

/-- So many items. -/
def many {α : Type} (item : Reader α) : Nat → Reader (List α)
  | 0 => return []
  | n + 1 => do
    let a ← item
    let rest ← many item n
    return a :: rest

/-- A list with its length. -/
def list {α : Type} (item : Reader α) : Reader (List α) := do many item (← word)

/-- A 64-bit integer. -/
def integer : Reader Int64 := do return (UInt64.ofNat (← word)).toInt64

/-- A value with its kind. -/
def value : Reader Value := do
  match ← tag 5 with
  | 0 => return .null
  | 1 => return .boolean (← bool)
  | 2 => return .integer (← integer)
  | 3 => return .float ⟨UInt64.ofNat (← word)⟩
  | _ => return .text (← text)

/-- An index key with its kind. -/
def key : Reader Key := do
  match ← tag 5 with
  | 0 => return .null
  | 1 => return .boolean (← bool)
  | 2 => return .integer (← integer)
  | 3 => return .float (UInt64.ofNat (← word))
  | _ => return .text (← text)

/-- The type of a column. -/
def dataType : Reader DataType := do
  match ← tag 4 with
  | 0 => return .integer
  | 1 => return .text
  | 2 => return .boolean
  | _ => return .float

/-- A column. -/
def column : Reader Column := do
  let name ← text
  let type ← dataType
  let primaryKey ← bool
  let unique ← bool
  let nullable ← bool
  return { name, dataType := type, primaryKey, unique, nullable }

/-- A key of an index with its positions. -/
def entry : Reader (Key × List Nat) := do
  let k ← key
  return (k, ← list word)

/-- An index and the name it is filed under. -/
def index : Reader (String × Index) := do
  let filed ← text
  let name ← text
  let column ← text
  return (filed, { name, column, entries := .ofList (← list entry) })

/-- A table. -/
def table : Reader Table := do
  let name ← text
  let columns ← list column
  let rows ← list (list value)
  return { name, columns, rows, indexes := .ofList (← list index) }

/-- A table after the version of its format, which has to be the known one. -/
def versioned : Reader Table := do
  let n ← number 4
  if n ≠ version then throw (.unsupportedVersion n)
  table

end Reader

/-- The table that a snapshot holds. -/
def decode (bytes : List UInt8) : Except Error Table := do
  let t ← (Reader.versioned.run' bytes).mapError .snapshot
  t.check.mapError (.inconsistentSnapshot t.name)
  return t

end Tabular.Snapshot

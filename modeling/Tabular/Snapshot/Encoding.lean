import Tabular.Snapshot.Utf8
import Tabular.Table

/-! # Writing snapshots

A snapshot is a table as a row of bytes. Numbers have a fixed width and start with their lowest
byte; texts and lists start with their length, alternatives with their number. The entries of an
index come in no particular order, which may be another one each time.
-/

namespace Tabular.Snapshot

/-- The version of the format. -/
def version : Nat := 1

/-- The lowest bytes of a number, the lowest first. -/
def number : (size : Nat) → Nat → List UInt8
  | 0, _ => []
  | size + 1, n => UInt8.ofNat n :: number size (n / 256)

/-- The number of an alternative. -/
def tag (n : Nat) : List UInt8 := number 4 n

/-- A 64-bit number. -/
def word (n : Nat) : List UInt8 := number 8 n

/-- A truth value. -/
def bool (b : Bool) : List UInt8 := number 1 b.toNat

/-- A text with its length in bytes. -/
def text (s : String) : List UInt8 := word (Text.bytes s).length ++ Text.bytes s

/-- A list with its length. -/
def list {α : Type} (item : α → List UInt8) (items : List α) : List UInt8 :=
  word items.length ++ items.flatMap item

/-- A value with its kind. -/
def value : Value → List UInt8
  | .null => tag 0
  | .boolean b => tag 1 ++ bool b
  | .integer i => tag 2 ++ word i.toUInt64.toNat
  | .float x => tag 3 ++ word x.bits.toNat
  | .text s => tag 4 ++ text s

/-- An index key with its kind. -/
def key : Key → List UInt8
  | .null => tag 0
  | .boolean b => tag 1 ++ bool b
  | .integer i => tag 2 ++ word i.toUInt64.toNat
  | .float bits => tag 3 ++ word bits.toNat
  | .text s => tag 4 ++ text s

/-- The number of a type. -/
def typeNumber : DataType → Nat
  | .integer => 0
  | .text => 1
  | .boolean => 2
  | .float => 3

/-- A column. -/
def column (c : Column) : List UInt8 :=
  text c.name ++ tag (typeNumber c.dataType) ++ bool c.primaryKey ++ bool c.unique ++ bool c.nullable

/-- A key of an index with its positions. -/
def entry (e : Key × List Nat) : List UInt8 := key e.1 ++ list word e.2

/-- An index with its entries in the given order. -/
def indexWith (name column : String) (entries : List (Key × List Nat)) : List UInt8 :=
  text name ++ text column ++ list entry entries

/-- An order in which to write the entries of each index. -/
abbrev Order := String × Index → List (Key × List Nat)

/-- An index under the name it is filed under, its entries written in an order. -/
def indexIn (order : Order) (e : String × Index) : List UInt8 :=
  text e.1 ++ indexWith e.2.name e.2.column (order e)

def tableIn (order : Order) (t : Table) : List UInt8 :=
  text t.name ++ list column t.columns ++ list (list value) t.rows ++
    list (indexIn order) t.indexes.toList

/-- The snapshot of a table, the entries of its indexes written in an order. -/
def encodeIn (order : Order) (t : Table) : List UInt8 := tag version ++ tableIn order t

/-- An order that lists every entry once. -/
structure Arrangement where
  order : Order
  listed : ∀ e, (order e).Perm e.2.entries.toList

/-- The entries in the order of their keys. -/
def Arrangement.byKey : Arrangement := ⟨fun e => e.2.entries.toList, fun _ => .refl _⟩

/-- The snapshot of a table, the entries of its indexes in the order of their keys. -/
def encode (t : Table) : List UInt8 := encodeIn Arrangement.byKey.order t

/-- The arrangements of the snapshots to come, one for each. -/
abbrev Arrangements := Nat → Arrangement

/-- The arrangements after the next snapshot. -/
def Arrangements.rest (coming : Arrangements) : Arrangements := fun n => coming (n + 1)

/-- The next snapshot, which is one of a table. -/
def Arrangements.snapshot (coming : Arrangements) (t : Table) : List UInt8 :=
  encodeIn (coming 0).order t

end Tabular.Snapshot

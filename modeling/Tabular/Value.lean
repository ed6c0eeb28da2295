import Tabular.Binary64.Text

/-! # Values

A value is what a cell of a table, a literal in a statement and a bound parameter hold.
-/

namespace Tabular

/-- The types a column can have. -/
inductive DataType where
  | integer
  | text
  | boolean
  | float
  deriving DecidableEq, Repr

/-- The name of a type, as messages show it. -/
def DataType.name : DataType → String
  | .integer => "INTEGER"
  | .text => "TEXT"
  | .boolean => "BOOLEAN"
  | .float => "FLOAT"

/-- The value of a cell. Equality of values is identity, floats being compared by their bits;
    `Value.sqlEq` is the equality of the language. -/
inductive Value where
  /-- No value. -/
  | null
  | boolean (b : Bool)
  | integer (i : Int64)
  | float (x : Binary64)
  | text (s : String)
  deriving DecidableEq, Repr

namespace Value

/-- The type of a value, which null does not have. -/
def dataType? : Value → Option DataType
  | .null => none
  | .boolean _ => some .boolean
  | .integer _ => some .integer
  | .float _ => some .float
  | .text _ => some .text

/-- Whether a value is a float that stands for no number. -/
def isNaN : Value → Bool
  | .float x => x.isNaN
  | _ => false

/-- The equality by which conditions and joins compare cells. An integer equals a float that is
    exactly that integer, null equals only null, and what is no number equals nothing. -/
def sqlEq : Value → Value → Bool
  | .null, .null => true
  | .boolean a, .boolean b => a == b
  | .integer a, .integer b => a == b
  | .float a, .float b => a.numEq b
  | .text a, .text b => a == b
  | .integer i, .float x => x.integral? == some i
  | .float x, .integer i => x.integral? == some i
  | _, _ => false

/-- The text of a value, as results show it. -/
def display : Value → String
  | .null => "NULL"
  | .boolean b => if b then "TRUE" else "FALSE"
  | .integer i => toString i.toInt
  | .float x => x.text
  | .text s => s

/-- The text of a value, as messages quote it. -/
def quoted : Value → String
  | .text s => "'" ++ s ++ "'"
  | v => v.display

end Value

end Tabular

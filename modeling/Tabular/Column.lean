import Tabular.Binary64.Rounding
import Tabular.Error

/-! # Columns

A column says which values its cells accept and in which form they are stored.
-/

namespace Tabular

/-- The definition of a column. -/
structure Column where
  name : String
  dataType : DataType
  primaryKey : Bool
  unique : Bool
  nullable : Bool
  deriving DecidableEq, Repr

namespace Column

/-- Whether no two cells may hold equal values. This goes for primary keys without saying. -/
def isUnique (c : Column) : Bool := c.primaryKey || c.unique

/-- Whether a cell may be null. In a primary key it may not, whatever is declared. -/
def acceptsNull (c : Column) : Bool := c.nullable && !c.primaryKey

/-- The form in which the column stores a value, if it accepts it. A float column stores an integer
    as the nearest float; otherwise the type has to be the declared one. -/
def stored (c : Column) (v : Value) : Except Error Value :=
  match c.dataType, v with
  | _, .null => if c.acceptsNull then .ok .null else .error (.nullViolation c.name)
  | .float, .integer i => .ok (.float (.ofInt64 i))
  | type, v =>
    if v.dataType? = some type then .ok v else .error (.typeMismatch c.name type v)

/-- Accepts a cell only in the form in which the column stores it. -/
def check (c : Column) (v : Value) : Except Error Unit := do
  let stored ← c.stored v
  if stored ≠ v then throw (.typeMismatch c.name c.dataType v)

end Column

end Tabular

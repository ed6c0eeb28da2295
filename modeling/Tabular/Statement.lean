import Tabular.SortedMap
import Tabular.Value

/-! # Statements

The statements of the language as written, with parameters still open.
-/

namespace Tabular

/-- What stands where a value is wanted: a literal, or a parameter numbered from zero in the order
    of the text. -/
inductive Operand where
  | literal (v : Value)
  | parameter (number : Nat)
  deriving DecidableEq, Repr

/-- Whether an operand is a parameter. -/
def Operand.isParameter : Operand → Bool
  | .literal _ => false
  | .parameter _ => true

/-- The condition that the cell of a column equals a value. -/
structure Condition (α : Type) where
  column : String
  value : α
  deriving DecidableEq, Repr

/-- The definition of a column in a statement. -/
structure ColumnSpec where
  name : String
  dataType : DataType
  /-- Whether null is allowed, if the definition says so. -/
  nullable : Option Bool
  primaryKey : Bool
  unique : Bool
  deriving DecidableEq, Repr

/-- The two kinds of join. -/
inductive JoinKind where
  | inner
  /-- Rows of the first table stay even if nothing matches them. -/
  | left
  deriving DecidableEq, Repr

/-- The join of a second table on the equality of two columns. -/
structure JoinSpec where
  table : String
  kind : JoinKind
  left : String
  right : String
  deriving DecidableEq, Repr

/-- A statement. -/
inductive Statement where
  | createTable (name : String) (columns : List ColumnSpec)
  | createIndex (name table column : String)
  | insert (table : String) (columns : Option (List String)) (values : List Operand)
  /-- A query; no columns stand for all of them. -/
  | select (columns : List String) (table : String) (join : Option JoinSpec)
    (filter : Option (Condition Operand)) (limit : Option Nat)
  | update (table : String) (assignments : SortedMap String Operand)
    (filter : Option (Condition Operand))
  | delete (table : String) (filter : Option (Condition Operand))
  deriving DecidableEq

namespace Statement

/-- The places of a statement where a value is wanted. -/
def operands : Statement → List Operand
  | .createTable .. | .createIndex .. => []
  | .insert _ _ values => values
  | .select _ _ _ filter _ | .delete _ filter => filter.toList.map (·.value)
  | .update _ assignments filter => assignments.values ++ filter.toList.map (·.value)

/-- The number of parameters that a statement needs. -/
def parameterCount (s : Statement) : Nat := s.operands.countP (·.isParameter)

end Statement

end Tabular

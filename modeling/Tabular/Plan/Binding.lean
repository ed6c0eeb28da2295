import Tabular.Plan

/-! # Planning statements

A statement becomes a plan by giving its parameters values. A parameter is replaced as a value, never
as text, so no value can change what a statement means.
-/

namespace Tabular

/-- The value that an operand stands for. -/
def Operand.bind (params : List Value) : Operand → Except Error Value
  | .literal v => .ok v
  | .parameter number =>
    match params[number]? with
    | some v => .ok v
    | none => .error (.missingParameters (number + 1) params.length)

/-- A condition with the value that its operand stands for. -/
def Condition.bind (params : List Value) (c : Condition Operand) :
    Except Error (Condition Value) := do
  return { column := c.column, value := ← c.value.bind params }

/-- The column that a definition describes. Null is allowed unless the definition says otherwise. -/
def ColumnSpec.column (spec : ColumnSpec) : Column :=
  { name := spec.name
    dataType := spec.dataType
    primaryKey := spec.primaryKey
    unique := spec.unique
    nullable := spec.nullable.getD true }

namespace Plan

/-- The rows that a query starts from. Without a join the condition goes into the scan, which can
    use an index; with one it is tested on the joined rows. -/
def source (table : String) (condition : Option (Condition Value)) : Option JoinSpec → Plan
  | none => .scan table condition
  | some spec =>
    let joined := .join (.scan table none) (.scan spec.table none) (spec.left, spec.right)
      (spec.kind = .left)
    condition.elim joined joined.filter

/-- The query for chosen columns and a number of rows, either of which may be left open. -/
def query (source : Plan) (columns : List String) (count : Option Nat) : Plan :=
  let projected := if columns = [] then source else source.project columns
  count.elim projected projected.limit

end Plan

namespace Statement

/-- The plan of a statement, given the values of its parameters. -/
def bind (params : List Value) : Statement → Except Error Plan
  | .createTable name columns => return .createTable (.new name (columns.map (·.column)))
  | .createIndex name table column => return .createIndex name table column
  | .insert table columns values =>
    return .insert table (columns.getD []) (← values.mapM (·.bind params))
  | .select columns table join condition count => do
    let condition ← condition.mapM (·.bind params)
    return (Plan.source table condition join).query columns count
  | .update table assignments condition => do
    let condition ← condition.mapM (·.bind params)
    return .update table condition (← assignments.mapM (·.bind params))
  | .delete table condition => return .delete table (← condition.mapM (·.bind params))

/-- The plan of a statement, once there is a value for each of its parameters. Values beyond those
    are not used. -/
def plan (params : List Value) (s : Statement) : Except Error Plan := do
  if params.length < s.parameterCount then
    throw (.missingParameters s.parameterCount params.length)
  s.bind params

end Statement

end Tabular

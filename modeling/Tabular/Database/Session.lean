import Tabular.Database.Execution
import Tabular.Plan.Binding
import Tabular.Statement.Parser

/-! # Running statements

A text is read, planned with the values of its parameters, and carried out.
-/

namespace Tabular

/-- The plan of the statement that a text is, given the values of its parameters. -/
def Plan.ofText (text : String) (params : List Value) : Except Error Plan := do
  let statement ← (Statement.parse text).mapError .parse
  statement.plan params

namespace Database

variable {σ : Type} [Store σ]

/-- Carries out the statement that a text is. -/
def execute (text : String) (params : List Value) : Action (Database σ) Outcome := do
  let plan ← Plan.ofText text params
  plan.execute

/-- Carries out the statement that a text is and says what to show for it. Nothing makes it fail. -/
def run (db : Database σ) (text : String) (params : List Value) : Output × Database σ :=
  match execute text params db with
  | .ok outcome db => (.ofResult (.ok outcome), db)
  | .error e db => (.ofResult (.error e), db)

end Database

end Tabular

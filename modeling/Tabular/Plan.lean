import Tabular.Table
import Tabular.Statement

/-! # Plans

A plan says what is to be done, step by step, with every parameter replaced by its value.
-/

namespace Tabular

/-- What is to be done. Queries are built from scans of tables; any plan can stand below a query,
    but only a query gives it rows. -/
inductive Plan where
  | createTable (schema : Table)
  | createIndex (name table column : String)
  /-- Adds a row; no columns stand for all of them in order. -/
  | insert (table : String) (columns : List String) (values : List Value)
  /-- The rows of a table, or those of them that satisfy a condition. -/
  | scan (table : String) (filter : Option (Condition Value))
  /-- The pairs of rows of two queries that are equal in two columns, and with `outer` the rows of
      the first query that are in no pair. -/
  | join (left right : Plan) (on : String × String) (outer : Bool)
  /-- The rows of a query that satisfy a condition. -/
  | filter (source : Plan) (condition : Condition Value)
  /-- Some columns of a query, in the given order. -/
  | project (source : Plan) (columns : List String)
  /-- The first rows of a query. -/
  | limit (source : Plan) (count : Nat)
  | update (table : String) (filter : Option (Condition Value))
    (assignments : SortedMap String Value)
  | delete (table : String) (filter : Option (Condition Value))
  deriving DecidableEq

end Tabular

import Tabular.Table

/-! # Catalogs

A catalog holds tables under their names and, apart from them, a list of the names in the order in
which they were registered. It is up to its users to keep the two in step.
-/

namespace Tabular

/-- Tables under their names, and the names in the order of registration. -/
structure Catalog where
  tables : SortedMap String Table
  names : List String
  deriving DecidableEq

namespace Catalog

/-- The catalog without tables. -/
def empty : Catalog := ⟨∅, []⟩

instance : EmptyCollection Catalog := ⟨empty⟩

/-- The table of a name. -/
def get? (c : Catalog) (name : String) : Option Table := c.tables.get? name

/-- Adds a name to the list. -/
def enlist (c : Catalog) (name : String) : Catalog := { c with names := c.names ++ [name] }

/-- Puts a table under a name, in the place of the one it had. -/
def set (c : Catalog) (name : String) (t : Table) : Catalog :=
  { c with tables := c.tables.insert name t }

/-- Registers a table under a name, which is added to the list if it had no table. -/
def put (c : Catalog) (name : String) (t : Table) : Catalog :=
  if (c.get? name).isSome then c.set name t else (c.enlist name).set name t

theorem put_of_isSome {c : Catalog} {name : String} (h : (c.get? name).isSome) (t : Table) :
    c.put name t = c.set name t :=
  if_pos h

theorem put_of_missing {c : Catalog} {name : String} (h : c.get? name = none) (t : Table) :
    c.put name t = (c.enlist name).set name t :=
  if_neg (by simp [h])

/-- Registering a table is putting it into the map, whether or not its name is added to the list. -/
theorem tables_put (c : Catalog) (name : String) (t : Table) :
    (c.put name t).tables = c.tables.insert name t := by
  rw [put]
  split <;> rfl

@[simp] theorem get?_put_self (c : Catalog) (name : String) (t : Table) :
    (c.put name t).get? name = some t := by
  rw [get?, tables_put, SortedMap.get?_insert_self]

theorem get?_put_of_ne (c : Catalog) {name other : String} (t : Table) (h : other ≠ name) :
    (c.put name t).get? other = c.get? other := by
  rw [get?, tables_put, SortedMap.get?_insert_of_ne _ _ h, get?]

/-- A name that has a table stays in its place, and a new one comes last. -/
theorem names_put (c : Catalog) (name : String) (t : Table) :
    (c.put name t).names = if (c.get? name).isSome then c.names else c.names ++ [name] := by
  rw [put]
  split <;> rfl

end Catalog

end Tabular

import Tabular.Snapshot.Decoding
import Tabular.Store

/-! # Snapshots in memory

Snapshots are kept under the names of their tables and listed in the order of those names.
-/

namespace Tabular

/-- Snapshots by the names of their tables. -/
structure MemoryStore where
  snapshots : SortedMap String (List UInt8)
  /-- How the entries of indexes come in the snapshots that are still to be written. -/
  coming : Snapshot.Arrangements

namespace MemoryStore

/-- The store without snapshots. -/
def empty : MemoryStore := ⟨∅, fun _ => .byKey⟩

/-- The store with the snapshot of a table, in the place of the one it had. -/
def keep (s : MemoryStore) (t : Table) : MemoryStore :=
  ⟨s.snapshots.insert t.name (s.coming.snapshot t), s.coming.rest⟩

instance : Store MemoryStore where
  save t := modify (·.keep t)
  loadAll s := s.snapshots.values.mapM Snapshot.decode

theorem save_apply (s : MemoryStore) (t : Table) :
    Store.save t s = .ok ⟨⟩ (s.keep t) := rfl

theorem get?_keep_of_ne (s : MemoryStore) {t : Table} {name : String} (other : name ≠ t.name) :
    (s.keep t).snapshots.get? name = s.snapshots.get? name :=
  SortedMap.get?_insert_of_ne _ _ other

end MemoryStore

end Tabular

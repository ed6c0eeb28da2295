import Tabular.Proofs.Fallible
import Tabular.Proofs.SortedMaps
import Tabular.Proofs.Texts
import Tabular.Store.Directory

/-! # What a directory holds

The snapshots of a directory are its files with the extension, each for the table that the rest of
its name tells. All of them are read in the order of their names. The first that is no snapshot of
its table is reported, and then nothing is read at all.
-/

namespace Tabular.Directory

variable {d : Directory} {file stem bytes : List UInt8}

/-! ## Names of files -/

theorem stem?_eq_some_iff : stem? file = some stem ↔ stem ≠ [] ∧ file = stem ++ extension := by
  rw [stem?]
  constructor
  · intro found
    split at found
    · rename_i ends
      obtain ⟨positive, ends⟩ := ends
      cases found
      constructor
      · intro empty
        have none := congrArg List.length empty
        rw [List.length_take, List.length_nil] at none
        omega
      · conv_lhs => rw [← List.take_append_drop (file.length - extension.length) file]
        rw [ends]
    · cases found
  · rintro ⟨named, rfl⟩
    have size : (stem ++ extension).length - extension.length = stem.length := by
      rw [List.length_append, Nat.add_sub_cancel]
    have positive : 0 < stem.length := List.length_pos_iff.mpr named
    simp only [size, List.drop_left, List.take_left, positive, and_self, if_true]

theorem fileName_inj {name other : String} (h : fileName name = fileName other) : name = other :=
  Text.bytes_inj (List.append_cancel_right h)

/-- The path of a file is shown as it is where the path of the directory is a text. -/
theorem pathOf_fileName {path : String} (text : d.path = Text.bytes path) (named : d.path ≠ [])
    (noSlash : d.path.getLast? ≠ some Path.separator) (table : String) :
    d.pathOf (fileName table) = path ++ "/" ++ table ++ ".db" := by
  have whole : Path.join d.path (fileName table) = Text.bytes (path ++ "/" ++ table ++ ".db") := by
    rw [Path.join_eq named noSlash, text, fileName, extension]
    simp only [Text.bytes_append, List.append_assoc]
    rfl
  rw [pathOf, whole, Text.lossy_bytes]

theorem file?_eq_some_iff :
    d.file? file = some bytes ↔ d.entries.get? file = some (.file bytes) := by
  rw [file?]
  split
  · rename_i found
    rw [found]
    simp
  · rename_i other
    exact iff_of_false nofun fun found => other bytes found

theorem file?_keep_self (d : Directory) (t : Table) :
    (d.keep t).file? (fileName t.name) = some (d.coming.snapshot t) :=
  file?_eq_some_iff.mpr (SortedMap.get?_insert_self ..)

theorem get?_keep_of_ne (d : Directory) {t : Table} (other : file ≠ fileName t.name) :
    (d.keep t).entries.get? file = d.entries.get? file :=
  SortedMap.get?_insert_of_ne _ _ other

theorem file?_keep_of_ne (d : Directory) {t : Table} (other : file ≠ fileName t.name) :
    (d.keep t).file? file = d.file? file := by
  rw [file?, d.get?_keep_of_ne other, file?]

/-! ## Snapshots -/

/-- The bytes of an entry and the name of the table that they are for, if the entry is a
    snapshot. -/
def snapshot? : List UInt8 × DirectoryEntry → Option (List UInt8 × List UInt8)
  | (file, .file bytes) => (stem? file).map fun stem => (stem, bytes)
  | (_, .directory) => none

/-- The snapshots of a directory, in the order of their file names. -/
def snapshots (d : Directory) : List (List UInt8 × List UInt8) :=
  d.entries.toList.filterMap snapshot?

theorem snapshot?_eq_some_iff {e : List UInt8 × DirectoryEntry} :
    snapshot? e = some (stem, bytes) ↔ stem ≠ [] ∧ e = (stem ++ extension, .file bytes) := by
  obtain ⟨file, entry⟩ := e
  cases entry with
  | directory => simp [snapshot?]
  | file content =>
      simp only [snapshot?, Option.map_eq_some_iff, stem?_eq_some_iff, Prod.mk.injEq,
        DirectoryEntry.file.injEq]
      constructor
      · rintro ⟨other, ⟨named, rfl⟩, rfl, rfl⟩
        exact ⟨named, rfl, rfl⟩
      · rintro ⟨named, rfl, rfl⟩
        exact ⟨stem, ⟨named, rfl⟩, rfl, rfl⟩

theorem mem_snapshots_iff :
    (stem, bytes) ∈ d.snapshots ↔ stem ≠ [] ∧ d.file? (stem ++ extension) = some bytes := by
  simp only [snapshots, List.mem_filterMap, snapshot?_eq_some_iff, file?_eq_some_iff,
    ← SortedMap.mem_toList_iff]
  constructor
  · rintro ⟨e, member, named, rfl⟩
    exact ⟨named, member⟩
  · rintro ⟨named, member⟩
    exact ⟨_, member, named, rfl⟩

theorem sorted_snapshots (d : Directory) :
    d.snapshots.Pairwise fun a b => a.1 ++ extension < b.1 ++ extension := by
  apply List.pairwise_filterMap.mpr
  apply d.entries.sorted.imp
  intro e e' below a here b there
  obtain ⟨-, rfl⟩ := snapshot?_eq_some_iff.mp here
  obtain ⟨-, rfl⟩ := snapshot?_eq_some_iff.mp there
  exact Text.compare_bytes_iff.mp below

theorem nodup_stems (d : Directory) : (d.snapshots.map (·.1)).Nodup := by
  apply List.pairwise_map.mpr
  apply d.sorted_snapshots.imp
  intro a b below same
  rw [same] at below
  exact List.lt_irrefl _ below

/-- The bytes for a table that are a snapshot of it. -/
def Intact (snapshot : List UInt8 × List UInt8) (t : Table) : Prop :=
  Snapshot.decode snapshot.2 = .ok t ∧ Text.bytes t.name = snapshot.1

/-- Why bytes for a table are no snapshot of it. -/
inductive Flaw : List UInt8 × List UInt8 → Error → Prop
  | unreadable {stem bytes : List UInt8} {e : Error} (h : Snapshot.decode bytes = .error e) :
    Flaw (stem, bytes) e
  | foreign {stem bytes : List UInt8} {t : Table} (h : Snapshot.decode bytes = .ok t)
    (other : Text.bytes t.name ≠ stem) : Flaw (stem, bytes) (.foreignSnapshot t.name)

theorem loadFile_eq : d.loadFile file stem bytes = match Snapshot.decode bytes with
    | .error e => .error (.cannotLoad (d.pathOf file) e)
    | .ok t => if Text.bytes t.name = stem then .ok t
      else .error (.cannotLoad (d.pathOf file) (.foreignSnapshot t.name)) := by
  rw [loadFile]
  cases Snapshot.decode bytes with
  | error e => rfl
  | ok t =>
      by_cases same : Text.bytes t.name = stem
      · simp only [Fallible.ok_bind, same, ne_eq, not_true_eq_false, if_false, if_true]
        rfl
      · simp only [Fallible.ok_bind, same, ne_eq, not_false_eq_true, if_false, if_true]
        rfl

theorem loadFile_eq_ok_iff {t : Table} :
    d.loadFile file stem bytes = .ok t ↔ Intact (stem, bytes) t := by
  rw [loadFile_eq, Intact]
  cases Snapshot.decode bytes with
  | error e => simp
  | ok read => grind

theorem loadFile_eq_error_iff {e : Error} : d.loadFile file stem bytes = .error e ↔
    ∃ cause, Flaw (stem, bytes) cause ∧ e = .cannotLoad (d.pathOf file) cause := by
  rw [loadFile_eq]
  constructor
  · intro failed
    cases decoded : Snapshot.decode bytes with
    | error cause =>
        rw [decoded] at failed
        cases failed
        exact ⟨cause, .unreadable decoded, rfl⟩
    | ok t =>
        simp only [decoded] at failed
        split at failed
        · cases failed
        · rename_i other
          cases failed
          exact ⟨_, .foreign decoded other, rfl⟩
  · rintro ⟨cause, flaw, rfl⟩
    cases flaw with
    | unreadable decoded => rw [decoded]
    | foreign decoded other => simp only [decoded, other, if_false]

theorem loadAll_eq (d : Directory) : Store.loadAll d =
    d.snapshots.mapM fun snapshot => d.loadFile (snapshot.1 ++ extension) snapshot.1 snapshot.2 := by
  apply Fallible.mapM_filterMap
  intro e
  obtain ⟨file, entry⟩ := e
  cases entry with
  | directory => rfl
  | file bytes =>
      rw [loadEntry, snapshot?]
      cases stem : stem? file with
      | none => rfl
      | some name =>
          obtain ⟨-, rfl⟩ := stem?_eq_some_iff.mp stem
          rfl

theorem loadAll_eq_ok_iff {tables : List Table} :
    Store.loadAll d = .ok tables ↔ List.Forall₂ Intact d.snapshots tables := by
  rw [loadAll_eq, Fallible.mapM_eq_ok_iff]
  simp only [loadFile_eq_ok_iff]

/-- The first flaw is reported. -/
theorem loadAll_eq_error_iff {e : Error} : Store.loadAll d = .error e ↔
    ∃ before snapshot after cause, d.snapshots = before ++ snapshot :: after ∧
      (∀ other ∈ before, ∃ t, Intact other t) ∧ Flaw snapshot cause ∧
      e = .cannotLoad (d.pathOf (snapshot.1 ++ extension)) cause := by
  rw [loadAll_eq, Fallible.mapM_eq_error_iff]
  simp only [loadFile_eq_ok_iff, loadFile_eq_error_iff, exists_and_left]

theorem Flaw.not_intact {snapshot : List UInt8 × List UInt8} {cause : Error}
    (flaw : Flaw snapshot cause) (t : Table) : ¬Intact snapshot t := by
  rintro ⟨decoded, same⟩
  cases flaw with
  | unreadable h => cases h.symm.trans decoded
  | foreign h other =>
      cases h.symm.trans decoded
      exact other same

theorem nodup_names_of_intact {tables : List Table}
    (intact : List.Forall₂ Intact d.snapshots tables) : (tables.map (·.name)).Nodup := by
  have stems : (tables.map (·.name)).map Text.bytes = d.snapshots.map (·.1) := by
    generalize d.snapshots = files at intact
    induction intact with
    | nil => rfl
    | cons here _ ih => rw [List.map_cons, List.map_cons, List.map_cons, here.2, ih]
  apply List.Nodup.of_map Text.bytes
  rw [stems]
  exact d.nodup_stems

end Tabular.Directory

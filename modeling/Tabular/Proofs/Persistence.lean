import Tabular.Proofs.Reachability
import Tabular.Proofs.Snapshots

/-! # Stores that keep what they take

A store keeps tables if it gives back, under each name, the last table of that name that was
written. Snapshots in memory and in a directory are kept, in whatever order the entries of indexes
come in each, as long as tables have names and their snapshots fit the address space.
-/

namespace Tabular

/-- A table whose snapshot can be read back. Its length is that of bytes in memory. -/
structure Table.Storable (t : Table) : Prop extends t.Sound where
  named : t.name ≠ ""
  fits : Snapshot.Fits (Snapshot.encode t)

/-- The indexes of a sound table record no positions but those of its rows. -/
theorem Table.Sound.lt_of_recorded {t : Table} (sound : t.Sound) {e : String × Index}
    (member : e ∈ t.indexes.toList) {entry : Key × List Nat} (filed : entry ∈ e.2.entries.toList)
    {i : Nat} (recorded : i ∈ entry.2) : i < t.rows.length := by
  have made := Table.withRows_current_iff.mp sound.current e member
  have found := SortedMap.mem_toList_iff.mp (show (entry.1, entry.2) ∈ _ from filed)
  rw [← made, Table.refiled, Index.get?_of] at found
  have position : i ∈ Row.positions (fun v => v.key = entry.1) (t.position e.2.column) t.rows := by
    split at found
    · cases found
    · rw [Option.some.inj found]
      exact recorded
  exact Row.lt_of_mem_positions position

/-- Every row takes a byte at least. -/
theorem Snapshot.length_rows_le (t : Table) : t.rows.length ≤ (encode t).length := by
  have rows : t.rows.length ≤ (t.rows.flatMap (list value)).length := by
    refine count_le_flatMap fun row _ => ?_
    rw [list, word, List.length_append, length_number]
    omega
  rw [encode, encodeIn, tableIn, list, list]
  simp only [List.length_append]
  omega

/-- In whatever order the entries of its indexes were written, the table is read back. -/
theorem Table.Storable.decode_eq {t : Table} (storable : t.Storable) {bytes : List UInt8}
    (snapshot : Snapshot.Of t bytes) : Snapshot.decode bytes = .ok t := by
  apply snapshot.decode_eq (Table.check_eq_ok_iff.mpr storable.toValid) storable.fits
  intro e member entry filed i recorded
  have below := storable.lt_of_recorded member filed recorded
  exact Nat.lt_of_lt_of_le below ((Snapshot.length_rows_le t).trans storable.fits.le)

/-- A store that keeps what it takes. -/
class DurableStore (σ : Type) [Store σ] extends LawfulStore σ where
  /-- Whether the snapshots of a store are those of some tables, given by their names. -/
  Keeps : σ → (String → Option Table) → Prop
  keeps_none {store : σ} (empty : Store.loadAll store = .ok []) : Keeps store fun _ => none
  loadAll_of_keeps {store : σ} {kept : String → Option Table} (h : Keeps store kept) :
    ∃ tables, Store.loadAll store = .ok tables ∧ (tables.map (·.name)).Nodup ∧
      ∀ name t, kept name = some t ↔ t ∈ tables ∧ t.name = name
  keeps_save {store : σ} {kept : String → Option Table} (h : Keeps store kept) {t : Table}
    (storable : t.Storable) (accepted : refusal? store t.name = none) :
    Keeps (Action.after (Store.save t) store) fun name =>
      if name = t.name then some t else kept name

export DurableStore (Keeps)

/-- Tables that are found under their own names and can be read back. -/
structure Recorded (kept : String → Option Table) : Prop where
  named : ∀ name t, kept name = some t → t.name = name
  storable : ∀ name t, kept name = some t → t.Storable

theorem Recorded.none : Recorded fun _ => none := ⟨fun _ _ => nofun, fun _ _ => nofun⟩

theorem Recorded.write {kept : String → Option Table} (recorded : Recorded kept) {t : Table}
    (storable : t.Storable) : Recorded fun name => if name = t.name then some t else kept name := by
  constructor
  · intro name u found
    split at found
    · cases found
      exact Eq.symm ‹_›
    · exact recorded.named name u found
  · intro name u found
    split at found
    · cases found
      exact storable
    · exact recorded.storable name u found

/-! ## Snapshots under labels -/

/-- Labelled bytes that are the snapshots of some tables, given by their names. The label of each is
    made from the name of its table. -/
structure Labelled {κ : Type} (label : String → κ) (files : List (κ × List UInt8))
    (kept : String → Option Table) : Prop extends Recorded kept where
  written : ∀ name t, kept name = some t →
    ∃ bytes, (label name, bytes) ∈ files ∧ Snapshot.Of t bytes
  read : ∀ e ∈ files, ∃ name t, label name = e.1 ∧ kept name = some t ∧ Snapshot.Of t e.2

namespace Labelled

variable {κ : Type} {label : String → κ} {files : List (κ × List UInt8)}
  {kept : String → Option Table}

theorem none : Labelled label [] fun _ => none :=
  ⟨Recorded.none, fun _ _ => nofun, fun _ => nofun⟩

/-- A reader that accepts whatever is a snapshot under its label reads the tables that are kept. -/
theorem loaded (h : Labelled label files kept) {load : κ × List UInt8 → Except Error Table}
    (accepts : ∀ e t, Snapshot.decode e.2 = .ok t → label t.name = e.1 → load e = .ok t) :
    ∃ tables, files.mapM load = .ok tables ∧
      tables.map (fun t => label t.name) = files.map (·.1) ∧
      ∀ name t, kept name = some t ↔ t ∈ tables ∧ t.name = name := by
  have : Nonempty Table := ⟨⟨"", [], [], ∅⟩⟩
  have each : ∀ e ∈ files, ∃ t, load e = .ok t ∧ label t.name = e.1 ∧ kept t.name = some t ∧
      Snapshot.decode e.2 = .ok t := by
    intro e member
    obtain ⟨name, t, same, found, snapshot⟩ := h.read e member
    obtain rfl := h.named name t found
    have decoded := (h.storable _ t found).decode_eq snapshot
    exact ⟨t, accepts e t decoded same, same, found, decoded⟩
  choose! table loads labels found decoded using each
  refine ⟨files.map table, Fallible.mapM_eq_ok_map loads, ?_, fun name t => ?_⟩
  · rw [List.map_map]
    exact List.map_congr_left labels
  · rw [List.mem_map]
    constructor
    · intro known
      obtain ⟨bytes, member, snapshot⟩ := h.written name t known
      have same := decoded _ member
      rw [(h.storable name t known).decode_eq snapshot] at same
      exact ⟨⟨_, member, (Except.ok.inj same).symm⟩, h.named name t known⟩
    · rintro ⟨⟨e, member, rfl⟩, rfl⟩
      exact found e member

/-- One snapshot is written and the others stay. -/
theorem write (h : Labelled label files kept) (injective : Function.Injective label) {t : Table}
    (storable : t.Storable) {bytes : List UInt8} (snapshot : Snapshot.Of t bytes)
    {after : List (κ × List UInt8)} (changed : ∀ e, e ∈ after ↔
      e = (label t.name, bytes) ∨ e.1 ≠ label t.name ∧ e ∈ files) :
    Labelled label after fun name => if name = t.name then some t else kept name := by
  refine ⟨h.toRecorded.write storable, ?_, ?_⟩
  · intro name u found
    by_cases same : name = t.name
    · rw [if_pos same] at found
      cases found
      exact ⟨bytes, (changed _).mpr (.inl (by rw [same])), snapshot⟩
    · rw [if_neg same] at found
      obtain ⟨old, member, snapshot⟩ := h.written name u found
      exact ⟨old, (changed _).mpr (.inr ⟨injective.ne same, member⟩), snapshot⟩
  · intro e member
    rcases (changed e).mp member with rfl | ⟨other, old⟩
    · exact ⟨t.name, t, rfl, if_pos rfl, snapshot⟩
    · obtain ⟨name, u, labelled, found, snapshot⟩ := h.read e old
      have different : name ≠ t.name := by
        rintro rfl
        exact other labelled.symm
      exact ⟨name, u, labelled, (if_neg different).trans found, snapshot⟩

end Labelled

/-! ## Snapshots in memory -/

namespace MemoryStore

/-- The snapshots of a store are those of tables given by their names. -/
abbrev Holds (s : MemoryStore) (kept : String → Option Table) : Prop :=
  Labelled id s.snapshots.toList kept

variable {s : MemoryStore} {kept : String → Option Table}

theorem loadAll_eq (s : MemoryStore) :
    Store.loadAll s = s.snapshots.toList.mapM fun e => Snapshot.decode e.2 :=
  List.mapM_map

theorem loadAll_of_empty (s : MemoryStore) (empty : s.snapshots = ∅) :
    Store.loadAll s = .ok [] := by
  rw [loadAll_eq, empty]
  rfl

theorem holds_none (empty : Store.loadAll s = .ok []) : s.Holds fun _ => none := by
  rw [loadAll_eq] at empty
  rw [Holds, List.forall₂_nil_right_iff.mp (Fallible.mapM_eq_ok_iff.mp empty)]
  exact .none

theorem Holds.loadAll (h : s.Holds kept) : ∃ tables, Store.loadAll s = .ok tables ∧
    tables.map (·.name) = s.snapshots.keys ∧
    ∀ name t, kept name = some t ↔ t ∈ tables ∧ t.name = name := by
  rw [loadAll_eq]
  exact Labelled.loaded h fun e t decoded _ => decoded

theorem Holds.keep (h : s.Holds kept) {t : Table} (storable : t.Storable) :
    (s.keep t).Holds fun name => if name = t.name then some t else kept name :=
  Labelled.write h Function.injective_id storable (Snapshot.of_snapshot s.coming t) fun _ =>
    SortedMap.mem_toList_insert_iff

end MemoryStore

instance : DurableStore MemoryStore where
  Keeps := MemoryStore.Holds
  keeps_none := MemoryStore.holds_none
  loadAll_of_keeps {s kept} h := by
    obtain ⟨tables, loaded, names, same⟩ := MemoryStore.Holds.loadAll h
    refine ⟨tables, loaded, ?_, same⟩
    rw [names]
    exact s.snapshots.nodup_keys
  keeps_save h _ storable _ := MemoryStore.Holds.keep h storable

/-! ## Snapshots in a directory -/

namespace Directory

/-- The snapshots of a directory are those of tables given by their names. -/
abbrev Holds (d : Directory) (kept : String → Option Table) : Prop :=
  Labelled Text.bytes d.snapshots kept

variable {d : Directory} {kept : String → Option Table}

theorem loadAll_of_empty (d : Directory) (empty : d.entries = ∅) : Store.loadAll d = .ok [] := by
  rw [loadAll_eq, snapshots, empty]
  rfl

theorem holds_none (empty : Store.loadAll d = .ok []) : d.Holds fun _ => none := by
  rw [Holds, List.forall₂_nil_right_iff.mp (loadAll_eq_ok_iff.mp empty)]
  exact .none

theorem Holds.loadAll (h : d.Holds kept) : ∃ tables, Store.loadAll d = .ok tables ∧
    tables.map (fun t => Text.bytes t.name) = d.snapshots.map (·.1) ∧
    ∀ name t, kept name = some t ↔ t ∈ tables ∧ t.name = name := by
  rw [loadAll_eq]
  exact Labelled.loaded h fun e t decoded same => loadFile_eq_ok_iff.mpr ⟨decoded, same⟩

theorem mem_snapshots_keep_iff {t : Table} (named : t.name ≠ "") {e : List UInt8 × List UInt8} :
    e ∈ (d.keep t).snapshots ↔ e = (Text.bytes t.name, d.coming.snapshot t) ∨
      e.1 ≠ Text.bytes t.name ∧ e ∈ d.snapshots := by
  obtain ⟨stem, bytes⟩ := e
  rw [mem_snapshots_iff, mem_snapshots_iff]
  by_cases same : stem = Text.bytes t.name
  · subst same
    have file : (d.keep t).file? (Text.bytes t.name ++ extension) = some (d.coming.snapshot t) :=
      d.file?_keep_self t
    have stem : Text.bytes t.name ≠ [] := mt Text.bytes_eq_nil_iff.mp named
    rw [file, and_iff_right stem, Option.some_inj]
    constructor
    · rintro rfl
      exact .inl rfl
    · rintro (same | ⟨other, -⟩)
      · exact (Prod.mk.inj same).2.symm
      · exact absurd rfl other
  · have other : stem ++ extension ≠ fileName t.name :=
      fun file => same (List.append_cancel_right file)
    rw [d.file?_keep_of_ne other]
    simp [same]

theorem Holds.keep (h : d.Holds kept) {t : Table} (storable : t.Storable) :
    (d.keep t).Holds fun name => if name = t.name then some t else kept name :=
  Labelled.write h (fun _ _ => Text.bytes_inj) storable (Snapshot.of_snapshot d.coming t) fun _ =>
    mem_snapshots_keep_iff storable.named

theorem after_save {t : Table} (accepted : refusal? d t.name = none) :
    Action.after (Store.save t) d = d.keep t := by
  have accepted : d.refusalOf t.name = none := accepted
  rw [Action.after, save_apply, accepted]

end Directory

instance : DurableStore Directory where
  Keeps := Directory.Holds
  keeps_none := Directory.holds_none
  loadAll_of_keeps {d kept} h := by
    obtain ⟨tables, loaded, labels, same⟩ := Directory.Holds.loadAll h
    refine ⟨tables, loaded, List.Nodup.of_map Text.bytes ?_, same⟩
    rw [List.map_map, Function.comp_def, labels]
    exact d.nodup_stems
  keeps_save h _ storable accepted := by
    rw [Directory.after_save accepted]
    exact Directory.Holds.keep h storable

end Tabular

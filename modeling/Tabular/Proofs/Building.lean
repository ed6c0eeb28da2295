import Mathlib.Data.List.Perm.Basic
import Tabular.Proofs.Upkeep

/-! # Tables built row by row

The rules for stored tables admit exactly what adding rows can build: a table without indexes obeys
them if and only if its rows, added one after another to a table without rows, give that table. The
order of the rows does not matter.
-/

namespace Tabular.Table

variable {t : Table}

theorem withRows_of_bare (bare : t.indexes = ∅) (rows : List Row) :
    t.withRows rows = { t with rows } := by
  rw [withRows, bare]
  rfl

/-- Rows in stored form are stored as they are. -/
theorem storedRow_of_stored {row : Row} (wide : row.length = t.columns.length)
    (stored : ∀ e ∈ t.columns.zip row, e.1.stored e.2 = .ok e.2) : t.storedRow row = .ok row := by
  rw [storedRow, if_neg (not_not.mpr wide)]
  have cells : ((t.columns.zip row).mapM fun e => e.1.stored e.2) =
      .ok ((t.columns.zip row).map Prod.snd) := Fallible.mapM_eq_ok_map stored
  rw [List.map_snd_zip (Nat.le_of_eq wide)] at cells
  exact cells

/-- A row that can stand at the end of a table can be added there, and stays as it is. -/
theorem insertion_eq_ok {row : Row} (valid : Valid { t with rows := t.rows ++ [row] }) :
    t.insertion row = .ok (t.rows ++ [row]) := by
  have last : row ∈ t.rows ++ [row] := List.mem_append_right _ (List.mem_singleton_self row)
  have wide : row.length = t.columns.length := valid.widths row last
  have accepted : t.storedRow row = .ok row := storedRow_of_stored wide (valid.stored row last)
  have widths : ∀ old ∈ t.rows, old.length = t.columns.length := fun old member =>
    valid.widths old (List.mem_append_left _ member)
  have fresh : t.checkNew row = .ok () := by
    refine (checkNew_eq_ok_iff widths wide).mpr fun e place unique old member => ?_
    have apart := valid.unique e place unique
    rw [cells_append, List.pairwise_append] at apart
    exact apart.2.2 _ (List.mem_map_of_mem member) _ (List.mem_singleton_self _)
  rw [insertion, accepted, Fallible.ok_bind, fresh]
  rfl

theorem insert_of_bare (sound : t.Sound) (bare : t.indexes = ∅) (row : Row) :
    insert row t = match t.insertion row with
      | .ok rows => .ok t.rows.length { t with rows }
      | .error e => .error e t := by
  rw [insert_apply sound]
  cases t.insertion row with
  | error e => rfl
  | ok rows => exact congrArg _ (withRows_of_bare bare rows)

/-- Rows that can stand at the end of a table can be added one after another. -/
theorem mapM_insert_of_valid {rows : List Row} (sound : t.Sound) (bare : t.indexes = ∅)
    (valid : Valid { t with rows := t.rows ++ rows }) :
    ∃ positions, rows.mapM insert t = .ok positions { t with rows := t.rows ++ rows } := by
  induction rows generalizing t with
  | nil => exact ⟨[], by rw [List.append_nil]; rfl⟩
  | cons row rest ih =>
      have split : t.rows ++ row :: rest = t.rows ++ [row] ++ rest := by
        rw [List.append_assoc, List.singleton_append]
      rw [split] at valid ⊢
      have front : Valid { t with rows := t.rows ++ [row] } :=
        valid.sublist (List.sublist_append_left ..)
      have made := insertion_eq_ok front
      have next : Sound { t with rows := t.rows ++ [row] } := by
        rw [← withRows_of_bare bare]
        exact sound_withRows front
      obtain ⟨positions, later⟩ := ih next bare valid
      refine ⟨t.rows.length :: positions, ?_⟩
      simp only [List.mapM_cons, Action.bind_apply, insert_of_bare sound bare, made, later]
      rfl

/-- Adding rows one after another changes nothing but the rows and keeps to the rules. -/
theorem sound_of_mapM_insert {rows : List Row} (sound : t.Sound) (bare : t.indexes = ∅)
    {positions : List Nat} {built : Table} (h : rows.mapM insert t = .ok positions built) :
    built.Sound ∧ built = { t with rows := built.rows } := by
  induction rows generalizing t positions with
  | nil =>
      cases h
      exact ⟨sound, rfl⟩
  | cons row rest ih =>
      simp only [List.mapM_cons, Action.bind_apply, insert_of_bare sound bare] at h
      cases made : t.insertion row with
      | error e =>
          rw [made] at h
          cases h
      | ok rows =>
          have next : Sound { t with rows } := by
            rw [← withRows_of_bare bare]
            exact sound_withRows (valid_insertion sound.toValid made)
          rw [made] at h
          simp only at h
          split at h
          · rename_i later
            cases h
            have ⟨final, same⟩ := ih next bare later
            exact ⟨final, same⟩
          · cases h

theorem Valid.perm {rows : List Row} (valid : t.Valid) (perm : rows.Perm t.rows) :
    Valid { t with rows } := by
  refine ⟨valid.columns, valid.names, fun row member => valid.widths row (perm.mem_iff.mp member),
    fun row member => valid.stored row (perm.mem_iff.mp member), fun e place unique => ?_,
    valid.filed⟩
  exact ((perm.map _).pairwise_iff Value.Apart.symm).mpr (valid.unique e place unique)

/-- The rules for stored tables admit what adding rows can build, and admit rows in any order. -/
theorem check_eq_ok_iff_built (schema : t.checkSchema = .ok ()) (bare : t.indexes = ∅) :
    (t.check = .ok () ↔ ∃ positions built,
      t.rows.mapM insert (.new t.name t.columns) = .ok positions built ∧ built.rows = t.rows) ∧
    ∀ rows : List Row, rows.Perm t.rows →
      (t.check = .ok () ↔ check { t with rows } = .ok ()) := by
  have empty : Sound (.new t.name t.columns) := sound_new schema rfl rfl
  have whole : t = { new t.name t.columns with rows := t.rows } := by
    rw [new, ← bare]
  simp only [check_eq_ok_iff]
  refine ⟨⟨fun valid => ?_, ?_⟩, fun rows perm =>
    ⟨fun valid => valid.perm perm, fun valid => Valid.perm (t := { t with rows }) valid perm.symm⟩⟩
  · rw [whole] at valid
    obtain ⟨positions, built⟩ := mapM_insert_of_valid empty rfl (List.nil_append t.rows ▸ valid)
    exact ⟨positions, _, built, rfl⟩
  · rintro ⟨positions, built, added, same⟩
    obtain ⟨sound, other⟩ := sound_of_mapM_insert empty rfl added
    rw [whole, ← same, ← other]
    exact sound.toValid

theorem undefined_floats_built :
    let t : Table := ⟨"t", [⟨"a", .float, false, true, true⟩],
      [[.float ⟨0x7ff8000000000000⟩], [.null], [.float ⟨0x8000000000000000⟩], [.null],
        [.float ⟨0x7ff8000000000000⟩]], ∅⟩
    t.check = .ok () ∧ (∃ positions built,
      t.rows.mapM insert (.new t.name t.columns) = .ok positions built ∧ built.rows = t.rows) ∧
    check { t with rows := t.rows.reverse } = .ok () := by
  intro t
  have schema : t.checkSchema = .ok () := by decide +kernel
  have checked : t.check = .ok () := by decide +kernel
  obtain ⟨built, anyOrder⟩ := check_eq_ok_iff_built schema rfl
  exact ⟨checked, built.mp checked, (anyOrder _ t.rows.reverse_perm).mp checked⟩

end Tabular.Table

import Tabular.Proofs.Filing
import Tabular.Proofs.Meaning

/-! # What a growing index finds

An index that is built from rows and then told of further values finds, for any value, the positions
of the values equal to it, in order. Keys take the place of comparisons in that, and comparisons of
numbers are of what their patterns stand for.
-/

namespace Tabular.Index

/-- The index after values are recorded at positions, one after the other. -/
def addAll (index : Index) (records : List (Nat × Value)) : Index :=
  records.foldl (fun index e => index.add e.2 e.1) index

/-- What a column holds at a position: the cell of the row there, or what was recorded since. -/
inductive Holds (position : Nat) (rows : List Row) (records : List (Nat × Value)) :
    Nat → Value → Prop where
  | cell {i : Nat} {row : Row} {v : Value} : rows[i]? = some row → row[position]? = some v →
      Holds position rows records i v
  | record {i : Nat} {v : Value} : (i, v) ∈ records → Holds position rows records i v

theorem lookup_add (index : Index) (w v : Value) (position : Nat) :
    (index.add w position).lookup v =
      index.lookup v ++ if w.sqlEq v then [position] else [] := by
  rw [lookup, lookup]
  cases undefined : v.isNaN with
  | true => simp [Value.sqlEq_of_isNaN undefined]
  | false =>
      rw [get?_add]
      simp only [Value.sqlEq_iff_of_number undefined]
      by_cases same : v.key = w.key
      · simp [same]
      · simp [same, Ne.symm same]

/-- Each record adds its position to what is found for the values equal to its own. -/
theorem lookup_addAll (index : Index) (records : List (Nat × Value)) (v : Value) :
    (index.addAll records).lookup v =
      index.lookup v ++ (records.filter fun e => e.2.sqlEq v).map (·.1) := by
  induction records generalizing index with
  | nil => simp [addAll]
  | cons e rest ih =>
      rw [addAll, List.foldl_cons]
      refine (ih (index.add e.2 e.1)).trans ?_
      rw [lookup_add, List.append_assoc]
      cases equal : e.2.sqlEq v <;> simp [equal]

section

variable {name column : String} {position : Nat} {rows : List Row} {records : List (Nat × Value)}

theorem mem_lookup_addAll (wide : ∀ row ∈ rows, position < row.length) (v : Value) (i : Nat) :
    i ∈ ((of name column position rows).addAll records).lookup v ↔
      ∃ w, Holds position rows records i w ∧ w.sqlEq v = true := by
  rw [lookup_addAll, lookup_of, List.mem_append, Row.mem_positions]
  constructor
  · rintro (⟨row, here, equal⟩ | later)
    · have below := wide row (List.mem_of_getElem? here)
      rw [Row.value_eq_getElem below] at equal
      exact ⟨_, .cell here (List.getElem?_eq_getElem below), equal⟩
    · obtain ⟨⟨j, w⟩, member, rfl⟩ := List.mem_map.mp later
      obtain ⟨member, equal⟩ := List.mem_filter.mp member
      exact ⟨w, .record member, equal⟩
  · rintro ⟨w, held, equal⟩
    cases held with
    | cell here cell =>
        obtain ⟨below, rfl⟩ := List.getElem?_eq_some_iff.mp cell
        exact .inl ⟨_, here, by rwa [Row.value_eq_getElem below]⟩
    | record member =>
        exact .inr (List.mem_map.mpr ⟨(i, w), List.mem_filter.mpr ⟨member, equal⟩, rfl⟩)

theorem sorted_lookup_addAll (ascending : (records.map (·.1)).Pairwise (· < ·))
    (beyond : ∀ e ∈ records, rows.length ≤ e.1) (v : Value) :
    (((of name column position rows).addAll records).lookup v).Pairwise (· < ·) := by
  rw [lookup_addAll, lookup_of]
  refine List.pairwise_append.mpr ⟨Row.positions_sorted .., ?_, fun i early j late => ?_⟩
  · exact ascending.sublist (List.filter_sublist.map _)
  · obtain ⟨e, member, rfl⟩ := List.mem_map.mp late
    exact (Row.lt_of_mem_positions early).trans_le (beyond e (List.mem_filter.mp member).1)

end

/-- Values are equal if both are comparable and they have one key, and numbers are equal if they
    stand for the same number. So equality is symmetric, transitive and, but for what is no number,
    reflexive, and an index built from rows and extended past the last of them finds exactly the
    positions of the values equal to the one that is looked for, in order. -/
theorem equal_values_found :
    (∀ a b : Value, a.sqlEq b = true ↔ a.isNaN = false ∧ b.isNaN = false ∧ a.key = b.key) ∧
    (∀ x y : Binary64, (Value.float x).sqlEq (.float y) = true ↔
      x.meaning = y.meaning ∧ x.meaning ≠ .undefined) ∧
    (∀ (i : Int64) (x : Binary64), (Value.integer i).sqlEq (.float x) = true ↔
      x.meaning = .rational i.toInt) ∧
    (∀ a b : Value, a.sqlEq b = b.sqlEq a) ∧
    (∀ a b c : Value, a.sqlEq b = true → b.sqlEq c = true → a.sqlEq c = true) ∧
    (∀ a : Value, a.sqlEq a = true ↔ a.isNaN = false) ∧
    ∀ (name column : String) (position : Nat) (rows : List Row) (records : List (Nat × Value)),
      (∀ row ∈ rows, position < row.length) → (records.map (·.1)).Pairwise (· < ·) →
      (∀ e ∈ records, rows.length ≤ e.1) →
      ∃ index, build name column position rows = .ok index ∧ ∀ v : Value,
        ((index.addAll records).lookup v).Pairwise (· < ·) ∧
        ∀ i, i ∈ (index.addAll records).lookup v ↔
          ∃ w, Holds position rows records i w ∧ w.sqlEq v = true := by
  refine ⟨fun _ _ => Value.sqlEq_iff_key, fun _ _ => Binary64.numEq_iff_meaning, fun i x => ?_,
    Value.sqlEq_comm, fun _ _ _ => Value.sqlEq_trans, fun a => ?_, ?_⟩
  · rw [Value.sqlEq, beq_iff_eq]
    exact Binary64.integral?_eq_some_iff_meaning
  · exact ⟨fun same => (Value.sqlEq_iff_key.mp same).1, Value.sqlEq_self⟩
  · intro name column position rows records wide ascending beyond
    refine ⟨of name column position rows, build_eq_ok wide, fun v => ⟨?_, ?_⟩⟩
    · exact sorted_lookup_addAll ascending beyond v
    · exact mem_lookup_addAll wide v

/-- Both zeros and the integer are found together, `2 ^ 53 + 1` is not found under `2 ^ 53`, and
    what is no number is never found. -/
theorem zeros_found_together :
    let undefined : Value := .float ⟨0x7ff8000000000000⟩
    let rows : List Row :=
      [[.float ⟨0x4340000000000000⟩], [.float ⟨0x8000000000000000⟩], [undefined]]
    let records : List (Nat × Value) :=
      [(4, .integer 0), (7, undefined), (9, .integer 9007199254740993)]
    (∀ row ∈ rows, 0 < row.length) ∧ (records.map (·.1)).Pairwise (· < ·) ∧
    (∀ e ∈ records, rows.length ≤ e.1) ∧
    ∃ index, build "i" "a" 0 rows = .ok index ∧
      (index.addAll records).lookup (.float ⟨0⟩) = [1, 4] ∧
      (index.addAll records).lookup (.integer 9007199254740992) = [0] ∧
      (index.addAll records).lookup undefined = [] ∧
      ∃ w, Holds 0 rows records 4 w ∧ w.sqlEq (.float ⟨0⟩) = true := by
  intro undefined rows records
  have wide : ∀ row ∈ rows, 0 < row.length := by decide
  have ascending : (records.map (·.1)).Pairwise (· < ·) := by decide
  have beyond : ∀ e ∈ records, rows.length ≤ e.1 := by decide
  obtain ⟨-, -, -, -, -, -, finds⟩ := equal_values_found
  obtain ⟨index, built, found⟩ := finds "i" "a" 0 rows records wide ascending beyond
  have known : index = of "i" "a" 0 rows := Except.ok.inj (built.symm.trans (build_eq_ok wide))
  have zeros : (index.addAll records).lookup (.float ⟨0⟩) = [1, 4] := by
    rw [known]
    decide +kernel
  refine ⟨wide, ascending, beyond, index, built, zeros, ?_, ?_, ?_⟩
  · rw [known]
    decide +kernel
  · rw [known]
    decide +kernel
  · exact ((found (.float ⟨0⟩)).2 4).mp (by simp [zeros])

end Tabular.Index

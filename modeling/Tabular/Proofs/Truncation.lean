import Tabular.Proofs.Snapshots

/-! # Snapshots that are cut off

A reader looks at no bytes but those that it takes. Bytes added at the end change neither what it has
read nor a fault that it has found; only a want of bytes can be made good. A whole snapshot is taken
to its last byte, so what is left of it when it is cut off anywhere ends too early.
-/

namespace Tabular

/-- The bytes end before all that is announced has been read. -/
def SnapshotError.IsEnd : SnapshotError → Prop
  | .endOfBytes | .endOfText => True
  | _ => False

namespace Snapshot

variable {α β : Type}

/-- A reader that bytes added at the end bring to no other result, unless there were too few. -/
def Steady (r : Reader α) : Prop :=
  ∀ bytes more, match r bytes with
    | .ok (a, rest) => r (bytes ++ more) = .ok (a, rest ++ more)
    | .error e => e.IsEnd ∨ r (bytes ++ more) = .error e

theorem bind_apply (r : Reader α) (f : α → Reader β) (bytes : List UInt8) :
    (r >>= f) bytes = match r bytes with
      | .ok (a, rest) => f a rest
      | .error e => .error e := by
  change (r bytes >>= fun e => f e.1 e.2) = _
  cases r bytes <;> rfl

/-! ## Steps -/

theorem steady_pure (a : α) : Steady (pure a) := fun _ _ => rfl

theorem steady_throw (e : SnapshotError) : Steady (throw e : Reader α) := fun _ _ => .inr rfl

theorem Steady.bind {r : Reader α} {f : α → Reader β} (first : Steady r)
    (next : ∀ a, Steady (f a)) : Steady (r >>= f) := by
  intro bytes more
  have start := first bytes more
  simp only [bind_apply]
  cases read : r bytes with
  | error e =>
      simp only [read] at start ⊢
      rcases start with ended | same
      · exact .inl ended
      · right
        simp only [same]
  | ok taken =>
      obtain ⟨a, rest⟩ := taken
      simp only [read] at start ⊢
      simp only [start]
      exact next a rest more

theorem Steady.map {r : Reader α} (steady : Steady r) (f : α → β) :
    Steady (do return f (← r)) :=
  steady.bind fun a => steady_pure (f a)

/-! ## Numbers, texts and lists -/

theorem steady_byte : Steady Reader.byte := by
  intro bytes more
  cases bytes with
  | nil => exact .inl trivial
  | cons b rest => rfl

theorem steady_number (size : Nat) : Steady (Reader.number size) := by
  induction size with
  | zero => exact steady_pure 0
  | succ size ih => exact steady_byte.bind fun low => ih.map fun high => low.toNat + 256 * high

theorem steady_word : Steady Reader.word := steady_number 8

theorem steady_tag (alternatives : Nat) : Steady (Reader.tag alternatives) := by
  apply (steady_number 4).bind
  intro n
  split
  · exact steady_pure n
  · exact steady_throw _

theorem steady_bool : Steady Reader.bool := by
  apply (steady_number 1).bind
  intro n
  split
  · exact steady_pure false
  · exact steady_pure true
  · exact steady_throw _

/-- The only step that looks at all bytes: it asks how many are left. -/
theorem steady_text : Steady Reader.text := by
  apply steady_word.bind
  intro length bytes more
  simp only [get_bind_apply]
  by_cases short : bytes.length < length
  · simp only [short, if_true]
    exact .inl trivial
  · have enough : ¬(bytes ++ more).length < length := by
      simp only [List.length_append]
      omega
    have inside : length ≤ bytes.length := by omega
    simp only [short, enough, if_false, set_bind_apply, List.take_append_of_le_length inside,
      List.drop_append_of_le_length inside]
    cases Text.ofBytes (bytes.take length) with
    | ok s => rfl
    | error e => exact .inr rfl

theorem steady_many {r : Reader α} (steady : Steady r) (count : Nat) :
    Steady (Reader.many r count) := by
  induction count with
  | zero => exact steady_pure []
  | succ count ih => exact steady.bind fun a => ih.map fun rest => a :: rest

theorem steady_list {r : Reader α} (steady : Steady r) : Steady (Reader.list r) :=
  steady_word.bind (steady_many steady)

/-! ## Tables and their parts -/

theorem steady_integer : Steady Reader.integer := steady_word.map fun n => (UInt64.ofNat n).toInt64

theorem steady_value : Steady Reader.value := by
  apply (steady_tag 5).bind
  intro kind
  split
  · exact steady_pure Value.null
  · exact steady_bool.map Value.boolean
  · exact steady_integer.map Value.integer
  · exact steady_word.map fun n => Value.float ⟨UInt64.ofNat n⟩
  · exact steady_text.map Value.text

theorem steady_key : Steady Reader.key := by
  apply (steady_tag 5).bind
  intro kind
  split
  · exact steady_pure Key.null
  · exact steady_bool.map Key.boolean
  · exact steady_integer.map Key.integer
  · exact steady_word.map fun n => Key.float (UInt64.ofNat n)
  · exact steady_text.map Key.text

theorem steady_dataType : Steady Reader.dataType := by
  apply (steady_tag 4).bind
  intro kind
  split
  all_goals exact steady_pure _

theorem steady_column : Steady Reader.column := by
  apply steady_text.bind
  intro name
  apply steady_dataType.bind
  intro dataType
  apply steady_bool.bind
  intro primaryKey
  apply steady_bool.bind
  intro unique
  exact steady_bool.map fun nullable =>
    ({ name, dataType, primaryKey, unique, nullable } : Column)

theorem steady_entry : Steady Reader.entry :=
  steady_key.bind fun k => (steady_list steady_word).map fun positions => (k, positions)

theorem steady_index : Steady Reader.index := by
  apply steady_text.bind
  intro filed
  apply steady_text.bind
  intro name
  apply steady_text.bind
  intro column
  exact (steady_list steady_entry).map fun entries =>
    (filed, ({ name, column, entries := .ofList entries } : Index))

theorem steady_table : Steady Reader.table := by
  apply steady_text.bind
  intro name
  apply (steady_list steady_column).bind
  intro columns
  apply (steady_list (steady_list steady_value)).bind
  intro rows
  exact (steady_list steady_index).map fun indexes =>
    ({ name, columns, rows, indexes := .ofList indexes } : Table)

theorem steady_versioned : Steady Reader.versioned := by
  apply (steady_number 4).bind
  intro n
  split
  · exact (steady_throw _).bind fun _ => steady_table
  · exact steady_table

/-! ## What is left of a snapshot -/

/-- A steady reader that takes bytes to the last one finds too few if any are missing at the end. -/
theorem Steady.isEnd_of_cut {r : Reader α} (steady : Steady r) {whole bytes : List UInt8} {a : α}
    (taken : r whole = .ok (a, [])) (cut : bytes <+: whole) (short : bytes ≠ whole) :
    ∃ e, e.IsEnd ∧ r bytes = .error e := by
  obtain ⟨missing, rfl⟩ := cut
  have more := steady bytes missing
  cases read : r bytes with
  | error e =>
      simp only [read, taken] at more
      rcases more with ended | same
      · exact ⟨e, ended, rfl⟩
      · cases same
  | ok early =>
      obtain ⟨b, rest⟩ := early
      simp only [read, taken] at more
      obtain ⟨-, left⟩ := Prod.mk.inj (Except.ok.inj more)
      have none : missing = [] := (List.append_eq_nil_iff.mp left.symm).2
      simp [none] at short

/-- A snapshot that is cut off anywhere, even before its first byte, is refused because it ends too
    early. -/
theorem decode_cut_off {order : Order} {t : Table} (small : Small (tableNumbers t))
    (listed : ∀ e ∈ t.indexes.toList, (order e).Perm e.2.entries.toList) {bytes : List UInt8}
    (cut : bytes <+: encodeIn order t) (short : bytes ≠ encodeIn order t) :
    decode bytes = .error (.snapshot .endOfBytes) ∨
      decode bytes = .error (.snapshot .endOfText) := by
  have taken : Reader.versioned (encodeIn order t) = .ok (t, []) := by
    simpa using recovers_versioned small listed []
  obtain ⟨e, ended, read⟩ := steady_versioned.isEnd_of_cut taken cut short
  have refused : decode bytes = .error (.snapshot e) := by
    have run : Reader.versioned.run' bytes = .error e := by
      change (·.1) <$> Reader.versioned bytes = _
      simp only [read, Fallible.map_error]
    simp only [decode, run]
    rfl
  cases e with
  | endOfBytes => exact .inl refused
  | endOfText => exact .inr refused
  | invalidText | invalidBool | invalidTag | unsupportedVersion => exact ended.elim

/-- The cut goes through the name of the index, and at last nothing is left. -/
theorem cut_off_within_index :
    let index : Index := ⟨"by a", "a", .ofList [(.integer 1, [0]), (.null, [1])]⟩
    let t : Table := ⟨"t", [⟨"a", .integer, false, false, true⟩], [[.integer 1], [.null]],
      .ofList [("a", index)]⟩
    let order : Order := fun e => e.2.entries.toList.reverse
    let bytes := (encodeIn order t).take 104
    decode bytes = .error (.snapshot .endOfText) ∧
      (decode [] = .error (.snapshot .endOfBytes) ∨ decode [] = .error (.snapshot .endOfText)) := by
  intro index t order bytes
  have small : Small (tableNumbers t) := by decide +kernel
  have listed : ∀ e ∈ t.indexes.toList, (order e).Perm e.2.entries.toList :=
    fun e _ => List.reverse_perm e.2.entries.toList
  have short : bytes ≠ encodeIn order t := by decide +kernel
  have other : decode bytes ≠ .error (.snapshot .endOfBytes) := by decide +kernel
  constructor
  · exact (decode_cut_off small listed (List.take_prefix 104 _) short).resolve_left other
  · exact decode_cut_off small listed List.nil_prefix (by decide +kernel)

end Snapshot

end Tabular

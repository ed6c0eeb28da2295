import Mathlib.Algebra.Group.Nat.Defs
import Mathlib.Data.List.Basic
import Tabular.Proofs.Fallible
import Tabular.Proofs.SortedMaps
import Tabular.Proofs.Texts
import Tabular.Snapshot.Decoding

/-! # Snapshots can be read back

Each reader takes from the front exactly the bytes that its writer puts there, as long as 64 bits hold
every length and every position. A table that obeys the rules is therefore read back as it was, in
whatever order the entries of its indexes were written, and any other table is refused.
-/

namespace Tabular.Snapshot

/-! ## Lengths and positions -/

/-- 64 bits hold each of some numbers. -/
abbrev Small (numbers : List Nat) : Prop := ∀ n ∈ numbers, n < UInt64.size

theorem Small.left {numbers others : List Nat} (small : Small (numbers ++ others)) :
    Small numbers :=
  fun n member => small n (List.mem_append_left _ member)

theorem Small.right {numbers others : List Nat} (small : Small (numbers ++ others)) :
    Small others :=
  fun n member => small n (List.mem_append_right _ member)

theorem Small.append {numbers others : List Nat} (small : Small numbers)
    (small' : Small others) : Small (numbers ++ others) :=
  List.forall_mem_append.mpr ⟨small, small'⟩

/-- The length of a text in bytes. -/
def textNumbers (s : String) : List Nat := [(Text.bytes s).length]

/-- The length of a list and the numbers of its items. -/
def listNumbers {α : Type} (numbers : α → List Nat) (items : List α) : List Nat :=
  items.length :: items.flatMap numbers

def valueNumbers : Value → List Nat
  | .text s => textNumbers s
  | _ => []

def keyNumbers : Key → List Nat
  | .text s => textNumbers s
  | _ => []

def entryNumbers (e : Key × List Nat) : List Nat :=
  keyNumbers e.1 ++ listNumbers (fun position => [position]) e.2

def indexNumbers (e : String × Index) : List Nat :=
  textNumbers e.1 ++ (textNumbers e.2.name ++ (textNumbers e.2.column ++
    listNumbers entryNumbers e.2.entries.toList))

/-- The lengths of all texts and lists of a table and the positions in its indexes. -/
def tableNumbers (t : Table) : List Nat :=
  textNumbers t.name ++ (listNumbers (fun c => textNumbers c.name) t.columns ++
    (listNumbers (listNumbers valueNumbers) t.rows ++
      listNumbers indexNumbers t.indexes.toList))

theorem Small.length {α : Type} {numbers : α → List Nat} {items : List α}
    (small : Small (listNumbers numbers items)) : items.length < UInt64.size :=
  small _ List.mem_cons_self

theorem Small.item {α : Type} {numbers : α → List Nat} {items : List α}
    (small : Small (listNumbers numbers items)) {a : α} (member : a ∈ items) :
    Small (numbers a) :=
  fun n h => small n (List.mem_cons_of_mem _ (List.mem_flatMap.mpr ⟨a, member, h⟩))

theorem Small.perm {α : Type} {numbers : α → List Nat} {items others : List α}
    (same : others.Perm items) (small : Small (listNumbers numbers items)) :
    Small (listNumbers numbers others) := by
  intro n member
  rw [listNumbers, same.length_eq] at member
  refine small n ?_
  exact ((same.flatMap_right numbers).cons _).mem_iff.mp member

/-! ## Readers and writers -/

/-- A reader gives a value for some bytes and leaves what follows them. -/
def Recovers {α : Type} (r : Reader α) (bytes : List UInt8) (a : α) : Prop :=
  ∀ rest, r (bytes ++ rest) = .ok (a, rest)

variable {α β : Type}

theorem recovers_pure (a : α) : Recovers (pure a) [] a := fun _ => rfl

theorem Recovers.bind {r : Reader α} {bytes : List UInt8} {a : α} (first : Recovers r bytes a)
    {f : α → Reader β} {bytes' : List UInt8} {b : β} (second : Recovers (f a) bytes' b) :
    Recovers (r >>= f) (bytes ++ bytes') b := by
  intro rest
  rw [List.append_assoc]
  change (r (bytes ++ (bytes' ++ rest)) >>= fun e => f e.1 e.2) = _
  rw [first, Fallible.ok_bind]
  exact second rest

theorem Recovers.map {r : Reader α} {bytes : List UInt8} {a : α} (first : Recovers r bytes a)
    (f : α → β) : Recovers (do return f (← r)) bytes (f a) := by
  have last := first.bind (f := fun a => pure (f a)) (recovers_pure (f a))
  rwa [List.append_nil] at last

theorem get_bind_apply (f : List UInt8 → Reader α) (bytes : List UInt8) :
    (get >>= f) bytes = f bytes bytes := rfl

theorem set_bind_apply (rest : List UInt8) (f : PUnit → Reader α) (bytes : List UInt8) :
    (set rest >>= f) bytes = f ⟨⟩ rest := rfl

/-! ## Numbers, texts and lists -/

theorem recovers_byte (b : UInt8) : Recovers Reader.byte [b] b := fun _ => rfl

theorem recovers_number {size n : Nat} (h : n < 256 ^ size) :
    Recovers (Reader.number size) (number size n) n := by
  induction size generalizing n with
  | zero =>
      have zero : n = 0 := by simpa using h
      rw [zero]
      exact recovers_pure 0
  | succ size ih =>
      have high : n / 256 < 256 ^ size := by
        rw [Nat.div_lt_iff_lt_mul (by decide), ← Nat.pow_succ]
        exact h
      have whole : (UInt8.ofNat n).toNat + 256 * (n / 256) = n := by
        rw [UInt8.toNat_ofNat']
        omega
      have read := (recovers_byte (UInt8.ofNat n)).bind
        (f := fun low => do return low.toNat + 256 * (← Reader.number size))
        ((ih high).map fun high => (UInt8.ofNat n).toNat + 256 * high)
      rw [whole] at read
      exact read

theorem recovers_word {n : Nat} (h : n < UInt64.size) : Recovers Reader.word (word n) n :=
  recovers_number (h.trans_le (by decide))

theorem recovers_tag {n alternatives : Nat} (h : n < alternatives) (small : n < 256 ^ 4) :
    Recovers (Reader.tag alternatives) (tag n) n := by
  have checked : Recovers (if n < alternatives then pure n else throw (.invalidTag n alternatives))
      [] n := by
    rw [if_pos h]
    exact recovers_pure n
  have read := (recovers_number small).bind
    (f := fun n => if n < alternatives then pure n else throw (.invalidTag n alternatives)) checked
  rwa [List.append_nil] at read

theorem recovers_bool (b : Bool) : Recovers Reader.bool (bool b) b := by
  cases b with
  | false => exact fun _ => rfl
  | true => exact fun _ => rfl

theorem recovers_text {s : String} (small : Small (textNumbers s)) :
    Recovers Reader.text (text s) s := by
  rw [Reader.text, text]
  refine (recovers_word (small _ List.mem_cons_self)).bind fun rest => ?_
  have enough : ¬(Text.bytes s ++ rest).length < (Text.bytes s).length := by
    rw [List.length_append]
    omega
  simp only [get_bind_apply, enough, if_false, set_bind_apply, List.take_left, List.drop_left,
    Text.ofBytes_bytes]
  rfl

theorem recovers_many {r : Reader α} {item : α → List UInt8} {items : List α}
    (each : ∀ a ∈ items, Recovers r (item a) a) :
    Recovers (Reader.many r items.length) (items.flatMap item) items := by
  induction items with
  | nil => exact recovers_pure []
  | cons head rest ih =>
      obtain ⟨here, others⟩ := List.forall_mem_cons.mp each
      exact here.bind ((ih others).map (head :: ·))

/-- A list is read back if each item is. -/
theorem recovers_list {r : Reader α} {item : α → List UInt8} {numbers : α → List Nat}
    {items : List α} (small : Small (listNumbers numbers items))
    (each : ∀ a ∈ items, Small (numbers a) → Recovers r (item a) a) :
    Recovers (Reader.list r) (list item items) items :=
  (recovers_word small.length).bind
    (recovers_many fun a member => each a member (small.item member))

/-! ## Values, columns and rows -/

theorem recovers_integer (i : Int64) : Recovers Reader.integer (word i.toUInt64.toNat) i := by
  have read := (recovers_word (UInt64.toNat_lt i.toUInt64)).map fun n => (UInt64.ofNat n).toInt64
  rwa [UInt64.ofNat_toNat, Int64.toInt64_toUInt64] at read

theorem recovers_value {v : Value} (small : Small (valueNumbers v)) :
    Recovers Reader.value (value v) v := by
  cases v with
  | null => exact (recovers_tag (by decide) (by decide)).bind (recovers_pure Value.null)
  | boolean b =>
      exact (recovers_tag (by decide) (by decide)).bind ((recovers_bool b).map Value.boolean)
  | integer i =>
      exact (recovers_tag (by decide) (by decide)).bind ((recovers_integer i).map Value.integer)
  | float x =>
      have bits := (recovers_word (UInt64.toNat_lt x.bits)).map fun n =>
        Value.float ⟨UInt64.ofNat n⟩
      rw [UInt64.ofNat_toNat] at bits
      exact (recovers_tag (by decide) (by decide)).bind bits
  | text s =>
      exact (recovers_tag (by decide) (by decide)).bind ((recovers_text small).map Value.text)

theorem recovers_key {k : Key} (small : Small (keyNumbers k)) : Recovers Reader.key (key k) k := by
  cases k with
  | null => exact (recovers_tag (by decide) (by decide)).bind (recovers_pure Key.null)
  | boolean b =>
      exact (recovers_tag (by decide) (by decide)).bind ((recovers_bool b).map Key.boolean)
  | integer i =>
      exact (recovers_tag (by decide) (by decide)).bind ((recovers_integer i).map Key.integer)
  | float pattern =>
      have bits := (recovers_word (UInt64.toNat_lt pattern)).map fun n => Key.float (UInt64.ofNat n)
      rw [UInt64.ofNat_toNat] at bits
      exact (recovers_tag (by decide) (by decide)).bind bits
  | text s =>
      exact (recovers_tag (by decide) (by decide)).bind ((recovers_text small).map Key.text)

theorem recovers_dataType (type : DataType) :
    Recovers Reader.dataType (tag (typeNumber type)) type := by
  cases type with
  | integer | text | boolean | float => exact fun _ => rfl

theorem recovers_column {c : Column} (small : Small (textNumbers c.name)) :
    Recovers Reader.column (column c) c := by
  rw [column, List.append_assoc, List.append_assoc, List.append_assoc]
  exact (recovers_text small).bind ((recovers_dataType c.dataType).bind
    ((recovers_bool c.primaryKey).bind ((recovers_bool c.unique).bind
      ((recovers_bool c.nullable).map fun nullable => { c with nullable }))))

theorem recovers_rows {rows : List Row}
    (small : Small (listNumbers (listNumbers valueNumbers) rows)) :
    Recovers (Reader.list (Reader.list Reader.value)) (list (list value) rows) rows :=
  recovers_list small fun _ _ small => recovers_list small fun _ _ small => recovers_value small

/-! ## Indexes, whose entries may come in any order -/

theorem recovers_entry {e : Key × List Nat} (small : Small (entryNumbers e)) :
    Recovers Reader.entry (entry e) e := by
  refine (recovers_key small.left).bind (Recovers.map ?_ fun positions => (e.1, positions))
  refine recovers_list small.right fun i _ small => recovers_word ?_
  exact small i List.mem_cons_self

theorem recovers_index {order : Order} {e : String × Index} (small : Small (indexNumbers e))
    (listed : (order e).Perm e.2.entries.toList) : Recovers Reader.index (indexIn order e) e := by
  rw [indexIn, indexWith, List.append_assoc]
  have entries : Recovers (Reader.list Reader.entry) (list entry (order e)) (order e) :=
    recovers_list (Small.perm listed small.right.right.right) fun _ _ small => recovers_entry small
  have last := entries.map fun entries =>
    (e.1, ({ name := e.2.name, column := e.2.column, entries := .ofList entries } : Index))
  rw [SortedMap.ofList_perm listed] at last
  rw [Reader.index]
  refine (recovers_text small.left).bind ?_
  refine (recovers_text small.right.left).bind ?_
  exact (recovers_text small.right.right.left).bind last

/-! ## Tables -/

variable {order : Order} {t : Table}

theorem recovers_table (small : Small (tableNumbers t))
    (listed : ∀ e ∈ t.indexes.toList, (order e).Perm e.2.entries.toList) :
    Recovers Reader.table (tableIn order t) t := by
  rw [tableIn, List.append_assoc, List.append_assoc]
  have indexes : Recovers (Reader.list Reader.index) (list (indexIn order) t.indexes.toList)
      t.indexes.toList :=
    recovers_list small.right.right.right fun e member small =>
      recovers_index small (listed e member)
  have last := indexes.map fun indexes =>
    ({ name := t.name, columns := t.columns, rows := t.rows, indexes := .ofList indexes } : Table)
  rw [SortedMap.ofList_toList] at last
  rw [Reader.table]
  refine (recovers_text small.left).bind ?_
  refine (recovers_list small.right.left fun _ _ small => recovers_column small).bind ?_
  exact (recovers_rows small.right.right.left).bind last

theorem recovers_versioned (small : Small (tableNumbers t))
    (listed : ∀ e ∈ t.indexes.toList, (order e).Perm e.2.entries.toList) :
    Recovers Reader.versioned (encodeIn order t) t := by
  refine (recovers_number (by decide)).bind ?_
  exact recovers_table small listed

/-- What is read back is checked. -/
theorem decode_eq_check (small : Small (tableNumbers t))
    (listed : ∀ e ∈ t.indexes.toList, (order e).Perm e.2.entries.toList) (rest : List UInt8) :
    decode (encodeIn order t ++ rest) =
      (t.check.mapError (.inconsistentSnapshot t.name) >>= fun _ => .ok t) := by
  have run : Reader.versioned.run' (encodeIn order t ++ rest) = .ok t := by
    change (·.1) <$> Reader.versioned (encodeIn order t ++ rest) = _
    rw [recovers_versioned small listed rest]
    rfl
  rw [decode, run]
  rfl

/-! ## Bytes in memory -/

/-- Whether there can be so many bytes in memory. -/
def Fits (bytes : List UInt8) : Prop := bytes.length < UInt64.size

instance (bytes : List UInt8) : Decidable (Fits bytes) := Nat.decLt bytes.length UInt64.size

theorem Fits.mono {bytes part : List UInt8} (fits : Fits bytes) (h : part.length ≤ bytes.length) :
    Fits part :=
  Nat.lt_of_le_of_lt h fits

theorem Fits.left {bytes rest : List UInt8} (fits : Fits (bytes ++ rest)) : Fits bytes :=
  fits.mono (by rw [List.length_append]; omega)

theorem Fits.right {bytes rest : List UInt8} (fits : Fits (bytes ++ rest)) : Fits rest :=
  fits.mono (by rw [List.length_append]; omega)

theorem length_number (size n : Nat) : (number size n).length = size := by
  induction size generalizing n with
  | zero => rfl
  | succ size ih => rw [number, List.length_cons, ih]

theorem length_le_flatMap {item : α → List UInt8} {items : List α} {a : α} (h : a ∈ items) :
    (item a).length ≤ (items.flatMap item).length := by
  obtain ⟨before, after, rfl⟩ := List.append_of_mem h
  rw [List.flatMap_append, List.flatMap_cons, List.length_append, List.length_append]
  omega

theorem count_le_flatMap {item : α → List UInt8} {items : List α}
    (positive : ∀ a ∈ items, 0 < (item a).length) : items.length ≤ (items.flatMap item).length := by
  induction items with
  | nil => exact Nat.le_refl 0
  | cons head rest ih =>
      obtain ⟨here, others⟩ := List.forall_mem_cons.mp positive
      have := ih others
      rw [List.flatMap_cons, List.length_append, List.length_cons]
      omega

theorem Fits.text {s : String} (fits : Fits (text s)) : Small (textNumbers s) := by
  intro n member
  obtain rfl := List.mem_singleton.mp member
  exact fits.right

/-- A list that is in memory has a short length if no item is written without bytes. -/
theorem Fits.list {item : α → List UInt8} {numbers : α → List Nat} {items : List α}
    (fits : Fits (list item items)) (positive : ∀ a ∈ items, 0 < (item a).length)
    (each : ∀ a ∈ items, Fits (item a) → Small (numbers a)) :
    Small (listNumbers numbers items) := by
  refine List.forall_mem_cons.mpr ⟨?_, ?_⟩
  · exact Nat.lt_of_le_of_lt (count_le_flatMap positive) fits.right
  · intro n member
    obtain ⟨a, listed, member⟩ := List.mem_flatMap.mp member
    exact each a listed (fits.right.mono (length_le_flatMap listed)) n member

theorem Fits.value {v : Value} (fits : Fits (value v)) : Small (valueNumbers v) := by
  cases v with
  | text s => exact Fits.text fits.right
  | _ => exact nofun

theorem Fits.key {k : Key} (fits : Fits (key k)) : Small (keyNumbers k) := by
  cases k with
  | text s => exact Fits.text fits.right
  | _ => exact nofun

theorem positive_list (item : α → List UInt8) (items : List α) :
    0 < (Snapshot.list item items).length := by
  rw [Snapshot.list, word, List.length_append, length_number]
  omega

theorem positive_value (v : Value) : 0 < (Snapshot.value v).length := by
  cases v <;> simp [Snapshot.value, tag, number]

theorem Fits.entry {e : Key × List Nat} (fits : Fits (entry e)) (small : Small e.2) :
    Small (entryNumbers e) := by
  refine (Fits.key fits.left).append (Fits.list fits.right (fun i _ => ?_) fun i member _ => ?_)
  · rw [word, length_number]
    omega
  · exact List.forall_mem_singleton.mpr (small i member)

theorem Fits.index {e : String × Index} (fits : Fits (indexIn Arrangement.byKey.order e))
    (small : ∀ entry ∈ e.2.entries.toList, Small entry.2) : Small (indexNumbers e) := by
  rw [indexIn, indexWith, List.append_assoc] at fits
  refine (Fits.text fits.left).append ((Fits.text fits.right.left).append
    ((Fits.text fits.right.right.left).append ?_))
  refine Fits.list fits.right.right.right (fun entry _ => ?_) fun entry member fits =>
    Fits.entry fits (small entry member)
  rw [Snapshot.entry, List.length_append]
  have := positive_list word entry.2
  omega

theorem positive_text (s : String) : 0 < (Snapshot.text s).length := by
  rw [Snapshot.text, word, List.length_append, length_number]
  omega

theorem Fits.table {t : Table} (fits : Fits (encode t))
    (small : ∀ e ∈ t.indexes.toList, ∀ entry ∈ e.2.entries.toList, Small entry.2) :
    Small (tableNumbers t) := by
  have fits := fits.right
  rw [tableIn, List.append_assoc, List.append_assoc] at fits
  have columns : Small (listNumbers (fun c => textNumbers c.name) t.columns) := by
    refine Fits.list fits.right.left (fun c _ => ?_) fun c _ fits => ?_
    · rw [column]
      simp only [List.length_append]
      have := positive_text c.name
      omega
    · exact Fits.text fits.left.left.left.left
  have rows : Small (listNumbers (listNumbers valueNumbers) t.rows) :=
    Fits.list fits.right.right.left (fun row _ => positive_list Snapshot.value row) fun row _ fits =>
      Fits.list fits (fun v _ => positive_value v) fun v _ fits => fits.value
  refine (Fits.text fits.left).append (columns.append (rows.append ?_))
  refine Fits.list fits.right.right.right (fun e _ => ?_) fun e member fits =>
    Fits.index fits (small e member)
  rw [indexIn, List.length_append]
  have := positive_text e.1
  omega

/-! ## Any arrangement -/

/-- Bytes that are a snapshot of a table, in whatever arrangement it was written. -/
def Of (t : Table) (bytes : List UInt8) : Prop :=
  ∃ arrangement : Arrangement, bytes = encodeIn arrangement.order t

theorem of_snapshot (coming : Arrangements) (t : Table) : Of t (coming.snapshot t) :=
  ⟨coming 0, rfl⟩

theorem length_indexIn (a b : Arrangement) (e : String × Index) :
    (indexIn a.order e).length = (indexIn b.order e).length := by
  have same : (a.order e).Perm (b.order e) := (a.listed e).trans (b.listed e).symm
  simp only [indexIn, indexWith, list, word, List.length_append, length_number,
    (same.flatMap_right entry).length_eq]

/-- Every arrangement takes equally many bytes. -/
theorem Of.length_eq {t : Table} {bytes : List UInt8} (h : Of t bytes) :
    bytes.length = (encode t).length := by
  obtain ⟨arrangement, rfl⟩ := h
  simp only [encode, encodeIn, tableIn, list, List.length_append, List.length_flatMap,
    length_indexIn arrangement .byKey]

/-- A snapshot of a table that obeys the rules holds that table. -/
theorem Of.decode_eq {t : Table} {bytes : List UInt8} (h : Of t bytes) (checked : t.check = .ok ())
    (fits : Fits (encode t)) (small : ∀ e ∈ t.indexes.toList, ∀ entry ∈ e.2.entries.toList,
      ∀ i ∈ entry.2, i < UInt64.size) : decode bytes = .ok t := by
  obtain ⟨arrangement, rfl⟩ := h
  have read := decode_eq_check (fits.table small) (fun e _ => arrangement.listed e) []
  rw [checked, List.append_nil] at read
  exact read

end Tabular.Snapshot

namespace Tabular

/-- An error within the program, not in how it is used. Its wording says so. -/
def Error.IsInternal (e : Error) : Prop := "internal error ".toList <+: e.message.toList

theorem Error.isInternal_inconsistentSnapshot (table : String) (cause : Error) :
    (inconsistentSnapshot table cause).IsInternal := by
  have wording : (inconsistentSnapshot table cause).message =
      "internal error inconsistent snapshot of table " ++ table ++ ": " ++ cause.message := rfl
  have opening : "internal error ".toList <+:
      "internal error inconsistent snapshot of table ".toList := by decide +kernel
  rw [IsInternal, wording, String.toList_append, String.toList_append, String.toList_append,
    List.append_assoc, List.append_assoc]
  exact opening.trans (List.prefix_append _ _)

namespace Snapshot

/-- A snapshot holds the table that it was made of, whatever follows it and in whatever order the
    entries of indexes stand in it. It is refused if that table breaks the rules. -/
theorem decode_encodeIn {order : Order} {t : Table} (small : Small (tableNumbers t))
    (listed : ∀ e ∈ t.indexes.toList, (order e).Perm e.2.entries.toList) (rest : List UInt8) :
    (t.check = .ok () → decode (encodeIn order t ++ rest) = .ok t) ∧
      ∀ e, t.check = .error e → decode (encodeIn order t ++ rest) =
        .error (.inconsistentSnapshot t.name e) ∧ (Error.inconsistentSnapshot t.name e).IsInternal := by
  rw [decode_eq_check small listed rest]
  constructor
  · intro checked
    rw [checked]
    rfl
  · intro e broken
    rw [broken]
    exact ⟨rfl, Error.isInternal_inconsistentSnapshot t.name e⟩

/-- The entries of an index are written from the last to the first. -/
theorem decode_reversed_entries :
    let index : Index := ⟨"i", "a", .ofList [(.integer 1, [0, 2]), (.null, [1])]⟩
    let t : Table := ⟨"t", [⟨"a", .integer, false, false, true⟩],
      [[.integer 1], [.null], [.integer 1]], .ofList [("a", index)]⟩
    let order : Order := fun e => e.2.entries.toList.reverse
    let misfiled : Table := { t with indexes := .ofList [("b", index)] }
    decode (encodeIn order t ++ [7]) = .ok t ∧
      decode (encodeIn order misfiled) =
        .error (.inconsistentSnapshot "t" (.misfiledIndex "i" "b" "a")) := by
  intro index t order misfiled
  have small : Small (tableNumbers t) := by decide +kernel
  have small' : Small (tableNumbers misfiled) := by decide +kernel
  have reversed (e : String × Index) : (order e).Perm e.2.entries.toList := List.reverse_perm _
  have checked : t.check = .ok () := by decide +kernel
  have broken : misfiled.check = .error (.misfiledIndex "i" "b" "a") := by decide +kernel
  have refused := (decode_encodeIn small' (fun e _ => reversed e) []).2 _ broken
  rw [List.append_nil] at refused
  exact ⟨(decode_encodeIn small (fun e _ => reversed e) [7]).1 checked, refused.1⟩

end Snapshot

end Tabular

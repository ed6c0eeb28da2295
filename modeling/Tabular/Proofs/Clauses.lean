import Tabular.Proofs.Reading

/-! # What readers of clauses take

The parts of statements: definitions of columns, values, conditions, joins and limits.
-/

namespace Tabular.Parser

open Grammar

/-! ## Columns -/

theorem reads_ident : Reads ident Name fun _ => False where
  sound h := ⟨_, _, ident_eq_ok.mp h, .name⟩
  complete failure := by
    rintro ⟨⟩ -
    rfl

theorem reads_dataType : Reads dataType TypeName (· = .openParen) where
  sound {c c' type} h := by
    rw [dataType, next_bind_eq_ok] at h
    obtain ⟨token, c₁, rfl, h⟩ := h
    split at h
    any_goals
      obtain ⟨rfl, rfl⟩ := pure_eq_ok.mp h
      exact ⟨[_], _, rfl, .keyword rfl⟩
    · rw [skip_bind_eq_ok] at h
      rcases h with ⟨c₂, rfl, h⟩ | ⟨-, h⟩
      · rw [if_pos rfl, next_bind_eq_ok] at h
        obtain ⟨size, c₃, rfl, h⟩ := h
        split at h
        · simp only [expect_bind_eq_ok, pure_eq_ok] at h
          obtain ⟨c₄, rfl, rfl, rfl⟩ := h
          exact ⟨[_, _, _, _], _, rfl, .sized⟩
        · cases h
      · obtain ⟨rfl, rfl⟩ := pure_eq_ok.mp h
        exact ⟨[_], _, rfl, .keyword rfl⟩
    · cases h
  complete {n n' tokens rest type} failure h apart := by
    cases h with
    | @keyword n k _ known =>
        by_cases varchar : k = .varchar
        · subst varchar
          cases known
          rw [dataType, List.singleton_append, next_bind_cons]
          exact skip_bind_of_apart apart _
        · cases k <;> cases known
          all_goals first | rfl | exact absurd rfl varchar
    | sized => rfl

/-- What a constraint changes in a column. -/
def constrained (spec : ColumnSpec) : Constraint → ColumnSpec
  | .primaryKey => { spec with primaryKey := true }
  | .unique => { spec with unique := true }
  | .nullable allowed => { spec with nullable := some allowed }

/-- The next token is a keyword. -/
abbrev IsKeyword (token : Token) : Prop := ∃ k, token = .keyword k

theorem constraint_sound {spec spec' : ColumnSpec} {again : Bool} {c c' : Cursor}
    (h : constraint spec c = .ok ((spec', again), c')) :
    (again = true ∧ ∃ k, spec' = constrained spec k ∧
      c = ⟨k.tokens ++ c'.tokens, c'.failure, c'.parameters⟩) ∨
    again = false ∧ spec' = spec ∧ c = c' := by
  obtain ⟨tokens, failure, n⟩ := c
  cases tokens with
  | nil =>
      cases h
      exact .inr ⟨rfl, rfl, rfl⟩
  | cons head rest =>
      cases head with
      | keyword k =>
          cases k with
          | null =>
              cases h
              exact .inl ⟨rfl, .nullable true, rfl, rfl⟩
          | not =>
              change (expect (.keyword .null) >>= fun _ => pure _) _ = _ at h
              simp only [expect_bind_eq_ok, pure_eq_ok] at h
              obtain ⟨c₁, same, h, rfl⟩ := h
              cases h
              cases same
              exact .inl ⟨rfl, .nullable false, rfl, rfl⟩
          | primary =>
              change (expect (.keyword .key) >>= fun _ => pure _) _ = _ at h
              simp only [expect_bind_eq_ok, pure_eq_ok] at h
              obtain ⟨c₁, same, h, rfl⟩ := h
              cases h
              cases same
              exact .inl ⟨rfl, .primaryKey, rfl, rfl⟩
          | unique =>
              cases h
              exact .inl ⟨rfl, .unique, rfl, rfl⟩
          | _ => cases h
      | _ =>
          cases h
          exact .inr ⟨rfl, rfl, rfl⟩

theorem constraint_complete (spec : ColumnSpec) (k : Constraint) (rest : List Token)
    (failure : Option LexicalError) (n : Nat) :
    constraint spec ⟨k.tokens ++ rest, failure, n⟩ =
      .ok ((constrained spec k, true), ⟨rest, failure, n⟩) := by
  cases k with
  | primaryKey | unique => rfl
  | nullable allowed => cases allowed <;> rfl

theorem constraint_of_apart (spec : ColumnSpec) {rest : List Token} (apart : Apart IsKeyword rest)
    (failure : Option LexicalError) (n : Nat) :
    constraint spec ⟨rest, failure, n⟩ = .ok ((spec, false), ⟨rest, failure, n⟩) := by
  cases rest with
  | nil => rfl
  | cons head rest =>
      cases head with
      | keyword k => exact absurd ⟨k, rfl⟩ (apart_cons.mp apart)
      | _ => rfl

theorem constraint_progress {spec spec' : ColumnSpec} {c c' : Cursor}
    (h : constraint spec c = .ok ((spec', true), c')) : c'.tokens.length < c.tokens.length := by
  obtain ⟨-, k, -, rfl⟩ | ⟨same, -⟩ := constraint_sound h
  · cases k with
    | primaryKey | unique =>
        simp only [Constraint.tokens, List.length_append, List.length_cons]
        omega
    | nullable allowed =>
        cases allowed <;> simp only [Constraint.tokens, List.length_append, List.length_cons] <;>
          omega
  · cases same

theorem constraints_sound {spec spec' : ColumnSpec} {c c' : Cursor}
    (h : iterate constraint spec c = .ok (spec', c')) : ∃ constraints : List Constraint,
      c = ⟨constraints.flatMap Constraint.tokens ++ c'.tokens, c'.failure, c'.parameters⟩ ∧
      spec' = constraints.foldl constrained spec := by
  induction size : c.tokens.length using Nat.strongRecOn generalizing spec c with
  | ind size ih =>
  subst size
  rw [iterate_eq fun _ _ _ _ => constraint_progress, bind_eq_ok] at h
  obtain ⟨⟨spec₁, again⟩, c₁, taken, h⟩ := h
  cases again with
  | true =>
      obtain ⟨constraints, rfl, rfl⟩ := ih _ (constraint_progress taken) h rfl
      obtain ⟨-, k, rfl, rfl⟩ | ⟨same, -⟩ := constraint_sound taken
      · exact ⟨k :: constraints, by simp, rfl⟩
      · cases same
  | false =>
      obtain ⟨rfl, rfl⟩ := pure_eq_ok.mp h
      obtain ⟨same, -⟩ | ⟨-, rfl, rfl⟩ := constraint_sound taken
      · cases same
      · exact ⟨[], rfl, rfl⟩

theorem constraints_complete (constraints : List Constraint) (spec : ColumnSpec)
    {rest : List Token} (apart : Apart IsKeyword rest) (failure : Option LexicalError) (n : Nat) :
    iterate constraint spec ⟨constraints.flatMap Constraint.tokens ++ rest, failure, n⟩ =
      .ok (constraints.foldl constrained spec, ⟨rest, failure, n⟩) := by
  induction constraints generalizing spec with
  | nil =>
      rw [iterate_eq fun _ _ _ _ => constraint_progress]
      exact bind_of_ok (constraint_of_apart spec apart failure n) _
  | cons k constraints ih =>
      rw [iterate_eq fun _ _ _ _ => constraint_progress, List.flatMap_cons, List.append_assoc]
      exact (bind_of_ok (constraint_complete spec k _ failure n) _).trans (ih (constrained spec k))

theorem foldl_constrained (constraints : List Constraint) (spec : ColumnSpec) :
    constraints.foldl constrained spec = { spec with
      nullable := (constraints.filterMap Constraint.nullability?).getLast?.or spec.nullable
      primaryKey := spec.primaryKey || .primaryKey ∈ constraints
      unique := spec.unique || .unique ∈ constraints } := by
  induction constraints generalizing spec with
  | nil => simp
  | cons k constraints ih =>
      rw [List.foldl_cons, ih]
      cases k with
      | primaryKey => simp [constrained, Constraint.nullability?]
      | unique => simp [constrained, Constraint.nullability?]
      | nullable allowed =>
          simp only [constrained, List.filterMap_cons, Constraint.nullability?,
            List.getLast?_cons, List.mem_cons]
          cases (constraints.filterMap Constraint.nullability?).getLast? <;> simp

theorem foldl_constrained_columnSpec (name : String) (type : DataType)
    (constraints : List Constraint) :
    constraints.foldl constrained
        { name, dataType := type, nullable := none, primaryKey := false, unique := false } =
      Grammar.columnSpec name type constraints := by
  rw [foldl_constrained]
  simp [Grammar.columnSpec]

theorem apart_constraints (constraints : List Constraint) {rest : List Token}
    (apart : Apart (· = .openParen) rest) :
    Apart (· = .openParen) (constraints.flatMap Constraint.tokens ++ rest) := by
  cases constraints with
  | nil => exact apart
  | cons k constraints =>
      cases k with
      | primaryKey | unique => exact apart_cons.mpr nofun
      | nullable allowed => cases allowed <;> exact apart_cons.mpr nofun

theorem reads_columnSpec :
    Reads columnSpec Definition fun token => token = .openParen ∨ IsKeyword token where
  sound {c c' spec} h := by
    rw [columnSpec, ident_bind_eq_ok] at h
    obtain ⟨name, c₁, rfl, h⟩ := h
    replace h := reads_dataType.of_bind h
    obtain ⟨tokens, n, type, c₂, rfl, typed, h⟩ := h
    replace h := constraints_sound h
    obtain ⟨constraints, rfl, rfl⟩ := h
    refine ⟨.ident name :: (tokens ++ constraints.flatMap Constraint.tokens), n, ?_, ?_⟩
    · rw [List.cons_append, List.append_assoc]
    · rw [foldl_constrained_columnSpec]
      exact .column constraints typed
  complete {n n' tokens rest spec} failure h apart := by
    cases h with
    | @column n n' name tokens type constraints typed =>
        have keyword : Apart IsKeyword rest := apart.mono fun _ => .inr
        have apart := apart_constraints constraints (apart.mono fun _ => .inl)
        rw [List.cons_append, List.append_assoc]
        rw [columnSpec, ident_bind_cons, reads_dataType.bind failure typed apart,
          constraints_complete constraints _ keyword, foldl_constrained_columnSpec]

/-! ## Values and conditions -/

theorem integer_eq_ok {negative : Bool} {digits : List Char} {i : Int64} :
    integer negative digits = .ok i ↔ i.toInt =
      if negative then -(Binary64.digitsValue digits : Int) else Binary64.digitsValue digits := by
  rw [integer]
  generalize (if negative then -(Binary64.digitsValue digits : Int)
    else Binary64.digitsValue digits) = value
  have most : Int64.maxValue.toInt = 2 ^ 63 - 1 := by decide
  have least : Int64.minValue.toInt = -2 ^ 63 := by decide
  have below := i.toInt_lt
  have above := i.le_toInt
  split
  · exact iff_of_false nofun (by omega)
  · split
    · exact iff_of_false nofun (by omega)
    · constructor
      · intro h
        cases h
        exact Int64.toInt_ofInt_of_le (by omega) (by omega)
      · intro h
        rw [← h, Int64.ofInt_toInt]
        rfl

theorem numeral_eq_ok {negative : Bool} {n : Numeral} {v : Value} :
    numeral negative n = .ok v ↔ Literal negative n v := by
  obtain ⟨whole, fraction⟩ := n
  cases fraction with
  | none =>
      change (integer negative whole >>= fun i => .ok (Value.integer i)) = _ ↔ _
      rw [Fallible.bind_eq_ok]
      constructor
      · rintro ⟨i, value, h⟩
        cases h
        exact .integer (integer_eq_ok.mp value)
      · rintro ⟨value⟩
        exact ⟨_, integer_eq_ok.mpr value, rfl⟩
  | some fraction =>
      constructor
      · intro h
        cases h
        exact .float
      · rintro ⟨⟩
        rfl

theorem reads_operand : Reads operand Place fun _ => False where
  sound {c c' o} h := by
    rw [operand, next_bind_eq_ok] at h
    obtain ⟨token, c₁, rfl, h⟩ := h
    split at h
    · simp only [lift_bind_eq_ok, numeral_eq_ok, pure_eq_ok] at h
      obtain ⟨v, literal, rfl, rfl⟩ := h
      exact ⟨[_], _, rfl, .number literal⟩
    · rw [next_bind_eq_ok] at h
      obtain ⟨second, c₂, rfl, h⟩ := h
      split at h
      · simp only [lift_bind_eq_ok, numeral_eq_ok, pure_eq_ok] at h
        obtain ⟨v, literal, rfl, rfl⟩ := h
        exact ⟨[_, _], _, rfl, .negative literal⟩
      · cases h
    · obtain ⟨rfl, rfl⟩ := pure_eq_ok.mp h
      exact ⟨[_], _, rfl, .text⟩
    · obtain ⟨rfl, rfl⟩ := pure_eq_ok.mp h
      exact ⟨[_], _, rfl, .true_⟩
    · obtain ⟨rfl, rfl⟩ := pure_eq_ok.mp h
      exact ⟨[_], _, rfl, .false_⟩
    · obtain ⟨rfl, rfl⟩ := pure_eq_ok.mp h
      exact ⟨[_], _, rfl, .null⟩
    · cases h
      exact ⟨[_], _, rfl, .parameter⟩
    · cases h
  complete failure h _ := by
    cases h with
    | number literal =>
        rw [operand, List.singleton_append, next_bind_cons]
        exact lift_bind_of_ok (numeral_eq_ok.mpr literal) _ _
    | negative literal =>
        rw [operand, List.cons_append, next_bind_cons, List.singleton_append]
        dsimp only
        rw [next_bind_cons]
        exact lift_bind_of_ok (numeral_eq_ok.mpr literal) _ _
    | text | true_ | false_ | null | parameter => rfl

theorem reads_equation : Reads equation Equation fun _ => False where
  sound {c c' condition} h := by
    simp only [equation, ident_bind_eq_ok, expect_bind_eq_ok] at h
    obtain ⟨column, c₁, rfl, c₂, rfl, h⟩ := h
    replace h := reads_operand.of_bind h
    obtain ⟨tokens, n, value, c₃, rfl, place, h⟩ := h
    obtain ⟨rfl, rfl⟩ := pure_eq_ok.mp h
    exact ⟨_ :: _ :: tokens, n, rfl, .equation place⟩
  complete failure h apart := by
    cases h with
    | equation place =>
        rw [equation, List.cons_append, ident_bind_cons, List.cons_append, expect_bind_cons]
        exact reads_operand.bind failure place apart _

theorem reads_filter : Reads filter Filter (· = .keyword .where_) where
  sound {c c' found} h := by
    rw [filter, skip_bind_eq_ok] at h
    obtain ⟨c₁, rfl, h⟩ | ⟨-, h⟩ := h
    · rw [if_pos rfl] at h
      replace h := reads_equation.of_bind h
      obtain ⟨tokens, n, condition, c₂, rfl, equation, h⟩ := h
      obtain ⟨rfl, rfl⟩ := pure_eq_ok.mp h
      exact ⟨_ :: tokens, n, rfl, .where_ equation⟩
    · obtain ⟨rfl, rfl⟩ := pure_eq_ok.mp h
      exact ⟨[], _, rfl, .none⟩
  complete failure h apart := by
    cases h with
    | none => exact skip_bind_of_apart apart _
    | where_ equation =>
        rw [filter, List.cons_append, skip_bind_cons]
        exact reads_equation.bind failure equation (apart_never _) _

theorem apart_filter {n n' : Nat} {tokens rest : List Token} {filter : Option (Condition Operand)}
    (filtered : Filter n tokens filter n') {stop : Token → Prop}
    (other : ¬stop (.keyword .where_)) (apart : Apart stop rest) :
    Apart stop (tokens ++ rest) := by
  cases filtered with
  | none => exact apart
  | where_ => exact apart_cons.mpr other

/-! ## Parts of queries -/

theorem joinKind_sound {c c' : Cursor} {found : Option JoinKind}
    (h : joinKind c = .ok (found, c')) : found = none ∧ c = c' ∨
      ∃ words kind, found = some kind ∧ JoinWords words kind ∧
        c = ⟨words ++ c'.tokens, c'.failure, c'.parameters⟩ := by
  rw [joinKind, skip_bind_eq_ok] at h
  obtain ⟨c₁, rfl, h⟩ | ⟨-, h⟩ := h
  · obtain ⟨rfl, rfl⟩ := pure_eq_ok.mp h
    exact .inr ⟨_, _, rfl, .plain, rfl⟩
  · rw [if_neg nofun, skip_bind_eq_ok] at h
    obtain ⟨c₁, rfl, h⟩ | ⟨-, h⟩ := h
    · simp only [↓reduceIte, expect_bind_eq_ok, pure_eq_ok] at h
      obtain ⟨c₂, rfl, rfl, rfl⟩ := h
      exact .inr ⟨_, _, rfl, .inner, rfl⟩
    · rw [if_neg nofun, skip_bind_eq_ok] at h
      obtain ⟨c₁, rfl, h⟩ | ⟨-, h⟩ := h
      · simp only [↓reduceIte, skip_bind_eq_ok, expect_bind_eq_ok, pure_eq_ok] at h
        obtain ⟨c₂, rfl, c₃, rfl, rfl, rfl⟩ | ⟨-, c₂, rfl, rfl, rfl⟩ := h
        · exact .inr ⟨_, _, rfl, .leftOuter, rfl⟩
        · exact .inr ⟨_, _, rfl, .left, rfl⟩
      · obtain ⟨rfl, rfl⟩ := pure_eq_ok.mp h
        exact .inl ⟨rfl, rfl⟩

/-- A join begins with one of these tokens. -/
def OpensJoin (token : Token) : Prop :=
  token = .keyword .join ∨ token = .keyword .inner ∨ token = .keyword .left

theorem joinKind_of_apart {c : Cursor} (apart : Apart OpensJoin c.tokens) :
    joinKind c = .ok (none, c) := by
  rw [joinKind, skip_bind_of_apart (apart.mono fun _ => .inl), if_neg nofun,
    skip_bind_of_apart (apart.mono fun _ same => .inr (.inl same)), if_neg nofun,
    skip_bind_of_apart (apart.mono fun _ same => .inr (.inr same))]
  rfl

theorem reads_joinSpec : Reads joinSpec Join OpensJoin where
  sound {c c' found} h := by
    rw [joinSpec, bind_eq_ok] at h
    obtain ⟨kind?, c₁, first, h⟩ := h
    obtain ⟨rfl, rfl⟩ | ⟨words, kind, rfl, spelled, rfl⟩ := joinKind_sound first
    · obtain ⟨rfl, rfl⟩ := pure_eq_ok.mp h
      exact ⟨[], _, rfl, .none⟩
    · dsimp only at h
      simp only [ident_bind_eq_ok, expect_bind_eq_ok, pure_eq_ok] at h
      obtain ⟨table, c₂, rfl, c₃, rfl, left, c₄, rfl, c₅, rfl, right, c₆, rfl, rfl, rfl⟩ := h
      exact ⟨words ++ [_, _, _, _, _], _, by rw [List.append_assoc]; rfl, .join spelled⟩
  complete failure h apart := by
    cases h with
    | none => exact bind_of_ok (joinKind_of_apart apart) _
    | join spelled => cases spelled <;> rfl

theorem reads_limit : Reads limit Limit (· = .keyword .limit) where
  sound {c c' found} h := by
    rw [limit, skip_bind_eq_ok] at h
    obtain ⟨c₁, rfl, h⟩ | ⟨-, h⟩ := h
    · rw [if_pos rfl, next_bind_eq_ok] at h
      obtain ⟨token, c₂, rfl, h⟩ := h
      split at h
      · dsimp only at h
        split at h
        · rename_i fits
          obtain ⟨rfl, rfl⟩ := pure_eq_ok.mp h
          exact ⟨[_, _], _, rfl, .limit fits⟩
        · cases h
      · cases h
    · obtain ⟨rfl, rfl⟩ := pure_eq_ok.mp h
      exact ⟨[], _, rfl, .none⟩
  complete failure h apart := by
    cases h with
    | none => exact skip_bind_of_apart apart _
    | limit fits =>
        rw [limit, List.cons_append, skip_bind_cons, if_pos rfl, List.singleton_append,
          next_bind_cons]
        dsimp only
        rw [if_pos fits]
        rfl

theorem apart_limit {n n' : Nat} {tokens rest : List Token} {count : Option Nat}
    (limited : Limit n tokens count n') {stop : Token → Prop} (other : ¬stop (.keyword .limit))
    (apart : Apart stop rest) : Apart stop (tokens ++ rest) := by
  cases limited with
  | none => exact apart
  | limit => exact apart_cons.mpr other

end Tabular.Parser

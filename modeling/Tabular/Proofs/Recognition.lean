import Tabular.Proofs.Clauses
import Tabular.Proofs.Lexemes

/-! # Statements are what the grammar derives -/

namespace Tabular

namespace Parser

open Grammar

variable {α : Type}

/-! ## Queries -/

/-- The columns of a query. -/
def selection : Parser (List String) := do
  if ← skip .asterisk then pure [] else commaSeparated fun _ => ident

theorem select_eq : select = (do
    let columns ← selection
    expect (.keyword .from_)
    let table ← ident
    let join ← joinSpec
    let condition ← filter
    let count ← limit
    return .select columns table join condition count) := by
  rw [select, selection, bind_assoc]
  congr 1
  funext all
  cases all <;> rfl

theorem reads_selection : Reads selection Selection (· = .comma) where
  sound {c c' names} h := by
    rw [selection, skip_bind_eq_ok] at h
    obtain ⟨c₁, rfl, h⟩ | ⟨-, h⟩ := h
    · obtain ⟨rfl, rfl⟩ := pure_eq_ok.mp h
      exact ⟨[_], _, rfl, .all⟩
    · replace h := (readsItems_plain reads_ident not_false).commaSeparated.sound h
      obtain ⟨tokens, n, rfl, listed, -⟩ := h
      exact ⟨tokens, n, rfl, .columns listed⟩
  complete {n n' tokens rest names} failure h apart := by
    cases h with
    | all => rfl
    | columns listed =>
        have name : Apart (· = .asterisk) (tokens ++ rest) := by
          cases listed with
          | one item | more item =>
              cases item
              exact apart_cons.mpr nofun
        rw [selection, skip_bind_of_apart name]
        exact (readsItems_plain reads_ident not_false).commaSeparated.complete failure
          ⟨listed, trivial⟩ (apart.mono fun _ => (or_false _).mp)

/-- A statement goes on with any token but a semicolon. -/
abbrev GoesOn (token : Token) : Prop := token ≠ .semicolon

theorem OpensJoin.ne_semicolon {token : Token} (h : OpensJoin token) : GoesOn token := by
  obtain rfl | rfl | rfl := h <;> exact nofun

theorem reads_select : Reads select (fun n tokens => Sentence n (.keyword .select :: tokens))
    GoesOn where
  sound {c c' s} h := by
    rw [select_eq] at h
    replace h := reads_selection.of_bind h
    obtain ⟨selection, n, columns, c₁, rfl, selected, h⟩ := h
    simp only [expect_bind_eq_ok, ident_bind_eq_ok] at h
    obtain ⟨c₂, rfl, table, c₃, rfl, h⟩ := h
    replace h := reads_joinSpec.of_bind h
    obtain ⟨joining, m, join, c₄, rfl, joined, h⟩ := h
    replace h := reads_filter.of_bind h
    obtain ⟨filtering, m₂, filter, c₅, rfl, filtered, h⟩ := h
    replace h := reads_limit.of_bind h
    obtain ⟨limiting, m₃, count, c₆, rfl, limited, h⟩ := h
    obtain ⟨rfl, rfl⟩ := pure_eq_ok.mp h
    refine ⟨_, n, ?_, .select selected joined filtered limited⟩
    simp only [List.append_assoc, List.cons_append]
  complete {n n' tokens rest s} failure h apart := by
    cases h with
    | select selected joined filtered limited =>
        have apart₃ : Apart (· = .keyword .limit) rest := apart.mono fun _ same => same ▸ nofun
        have apart₂ : Apart (· = .keyword .where_) _ :=
          apart_limit limited nofun (apart.mono fun _ same => same ▸ nofun)
        have apart₁ : Apart OpensJoin _ := apart_filter filtered nofun
          (apart_limit limited nofun (apart.mono fun _ => OpensJoin.ne_semicolon))
        simp only [List.cons_append, List.append_assoc]
        rw [select_eq, reads_selection.bind failure selected, expect_bind_cons, ident_bind_cons,
          reads_joinSpec.bind failure joined apart₁, reads_filter.bind failure filtered apart₂,
          reads_limit.bind failure limited apart₃]
        · rfl
        · exact apart_cons.mpr nofun

/-! ## Changes -/

/-- The columns of a new table. -/
theorem reads_columnSpecs (name : String) :
    ReadsItems (fun before => do
        let column ← columnSpec
        if before.any (·.name = column.name) then throw (.repeatedColumn column.name name)
        return column)
      Definition (fun before column => column.name ∉ before.map (·.name))
      (fun columns => (columns.map (·.name)).Nodup)
      fun token => token = .openParen ∨ IsKeyword token := by
  refine readsItems_different (fun before => ?_) nofun
  have := reads_unless reads_columnSpec (fun column => before.any (·.name = column.name))
    fun column => .repeatedColumn column.name name
  simpa using this

theorem reads_createTable : Reads createTable
    (fun n tokens => Sentence n (.keyword .create :: .keyword .table :: tokens)) GoesOn where
  sound {c c' s} h := by
    simp only [createTable, ident_bind_eq_ok, expect_bind_eq_ok] at h
    obtain ⟨name, c₁, rfl, c₂, rfl, h⟩ := h
    replace h := (reads_columnSpecs name).commaSeparated.of_bind h
    obtain ⟨tokens, n, columns, c₃, rfl, ⟨defined, different⟩, h⟩ := h
    simp only [expect_bind_eq_ok, pure_eq_ok] at h
    obtain ⟨c₄, rfl, rfl, rfl⟩ := h
    refine ⟨_, n, ?_, .createTable defined different⟩
    simp
  complete failure h _ := by
    cases h with
    | createTable defined different =>
        simp only [List.cons_append, List.append_assoc]
        rw [createTable, ident_bind_cons, expect_bind_cons,
          (reads_columnSpecs _).commaSeparated.bind failure ⟨defined, different⟩]
        · rfl
        · exact apart_cons.mpr nofun

theorem reads_createIndex : Reads createIndex
    (fun n tokens => Sentence n (.keyword .create :: .keyword .index :: tokens)) GoesOn where
  sound {c c' s} h := by
    simp only [createIndex, ident_bind_eq_ok, expect_bind_eq_ok, pure_eq_ok] at h
    obtain ⟨name, c₁, rfl, c₂, rfl, table, c₃, rfl, c₄, rfl, column, c₅, rfl, c₆, rfl, rfl, rfl⟩ := h
    exact ⟨[_, _, _, _, _, _], _, rfl, .createIndex⟩
  complete failure h _ := by
    cases h with
    | createIndex => rfl

/-- The columns that a row is given for. -/
def listing : Parser (Option (List String)) := do
  if ← skip .openParen then
    some <$> untilClosed fun before => do
      let column ← ident
      if column ∈ before then throw (.repeatedInsertColumn column)
      return column
  else
    pure none

theorem insert_eq : insert = (do
    expect (.keyword .into)
    let table ← ident
    let columns ← listing
    expect (.keyword .values)
    expect .openParen
    let values ← untilClosed fun _ => operand
    return .insert table columns values) := by
  rw [insert]
  congr 1
  funext _
  congr 1
  funext table
  rw [listing, bind_assoc]
  congr 1
  funext listed
  cases listed <;> rfl

theorem readsItems_names :
    ReadsItems (fun before => do
        let column ← ident
        if column ∈ before then throw (.repeatedInsertColumn column)
        return column)
      Name (fun before column => column ∉ before.map id) (fun columns => (columns.map id).Nodup)
      fun _ => False := by
  refine readsItems_different (fun before => ?_) not_false
  simpa using reads_unless reads_ident (· ∈ before) .repeatedInsertColumn

theorem reads_listing : Reads listing Listing (· = .openParen) where
  sound {c c' columns} h := by
    rw [listing, skip_bind_eq_ok] at h
    obtain ⟨c₁, rfl, h⟩ | ⟨-, h⟩ := h
    · rw [if_pos rfl, map_eq_pure_bind] at h
      replace h := (readsItems_names.untilClosed not_false).of_bind h
      obtain ⟨_, n, names, c₂, rfl, ⟨tokens, rfl, listed, different⟩, h⟩ := h
      obtain ⟨rfl, rfl⟩ := pure_eq_ok.mp h
      rw [List.map_id] at different
      exact ⟨_ :: (tokens ++ [.closeParen]), n, rfl, .columns listed different⟩
    · obtain ⟨rfl, rfl⟩ := pure_eq_ok.mp h
      exact ⟨[], _, rfl, .none⟩
  complete failure h apart := by
    cases h with
    | none => exact skip_bind_of_apart apart _
    | @columns _ _ _ names listed different =>
        rw [← List.map_id names] at different
        rw [listing, List.cons_append, skip_bind_cons, if_pos rfl, map_eq_pure_bind]
        exact (readsItems_names.untilClosed not_false).bind failure ⟨_, rfl, listed, different⟩
          (apart_never _) _

theorem reads_insert : Reads insert (fun n tokens => Sentence n (.keyword .insert :: tokens))
    GoesOn where
  sound {c c' s} h := by
    simp only [insert_eq, expect_bind_eq_ok, ident_bind_eq_ok] at h
    obtain ⟨c₁, rfl, table, c₂, rfl, h⟩ := h
    replace h := reads_listing.of_bind h
    obtain ⟨listing, n, columns, c₃, rfl, listed, h⟩ := h
    simp only [expect_bind_eq_ok] at h
    obtain ⟨c₄, rfl, c₅, rfl, h⟩ := h
    replace h := ((readsItems_plain reads_operand not_false).untilClosed not_false).of_bind h
    obtain ⟨_, m, values, c₆, rfl, ⟨tokens, rfl, places, -⟩, h⟩ := h
    obtain ⟨rfl, rfl⟩ := pure_eq_ok.mp h
    refine ⟨_, n, ?_, .insert listed places⟩
    simp
  complete failure h _ := by
    cases h with
    | @insert _ _ _ _ listing _ _ _ listed places =>
        simp only [List.cons_append, List.append_assoc listing]
        rw [insert_eq, expect_bind_cons, ident_bind_cons, reads_listing.bind failure listed,
          expect_bind_cons, expect_bind_cons]
        · exact ((readsItems_plain reads_operand not_false).untilClosed not_false).bind failure
            ⟨_, rfl, places, trivial⟩ (apart_never _) _
        · exact apart_cons.mpr nofun

/-- The changes of an update. -/
theorem readsItems_assignments :
    ReadsItems (fun before => do
        let assignment ← equation
        if before.any (·.column = assignment.column) then
          throw (.repeatedAssignment assignment.column)
        return assignment)
      Equation (fun before a => a.column ∉ before.map (·.column))
      (fun assignments => (assignments.map (·.column)).Nodup) fun _ => False := by
  refine readsItems_different (fun before => ?_) not_false
  have := reads_unless reads_equation (fun a => before.any (·.column = a.column))
    fun a => .repeatedAssignment a.column
  simpa using this

theorem reads_update : Reads update (fun n tokens => Sentence n (.keyword .update :: tokens))
    GoesOn where
  sound {c c' s} h := by
    simp only [update, expect_bind_eq_ok, ident_bind_eq_ok] at h
    obtain ⟨table, c₁, rfl, c₂, rfl, h⟩ := h
    replace h := readsItems_assignments.commaSeparated.of_bind h
    obtain ⟨tokens, n, assignments, c₃, rfl, ⟨assigned, different⟩, h⟩ := h
    replace h := reads_filter.of_bind h
    obtain ⟨filtering, m, filter, c₄, rfl, filtered, h⟩ := h
    obtain ⟨rfl, rfl⟩ := pure_eq_ok.mp h
    refine ⟨_, n, ?_, .update assigned different filtered⟩
    simp
  complete failure h apart := by
    cases h with
    | update assigned different filtered =>
        have apart₁ : Apart (fun token => token = .comma ∨ False) _ :=
          apart_filter filtered nofun (apart.mono fun _ same => (or_false _).mp same ▸ nofun)
        simp only [List.cons_append, List.append_assoc]
        rw [update, ident_bind_cons, expect_bind_cons, readsItems_assignments.commaSeparated.bind
          failure ⟨assigned, different⟩ apart₁]
        exact reads_filter.bind failure filtered (apart.mono fun _ same => same ▸ nofun) _

theorem reads_delete : Reads delete (fun n tokens => Sentence n (.keyword .delete :: tokens))
    GoesOn where
  sound {c c' s} h := by
    simp only [delete, expect_bind_eq_ok, ident_bind_eq_ok] at h
    obtain ⟨c₁, rfl, table, c₂, rfl, h⟩ := h
    replace h := reads_filter.of_bind h
    obtain ⟨filtering, n, filter, c₃, rfl, filtered, h⟩ := h
    obtain ⟨rfl, rfl⟩ := pure_eq_ok.mp h
    exact ⟨_ :: _ :: filtering, n, rfl, .delete filtered⟩
  complete failure h apart := by
    cases h with
    | delete filtered =>
        rw [delete, List.cons_append, expect_bind_cons, List.cons_append, ident_bind_cons]
        exact reads_filter.bind failure filtered (apart.mono fun _ same => same ▸ nofun) _

/-! ## Whole statements -/

/-- A reader of what follows a word reads the word and what follows. -/
theorem Reads.cons {p : Parser α} {phrase : Phrase α} {stop : Token → Prop} {head : Token}
    (reads : Reads p (fun n tokens => phrase n (head :: tokens)) stop) {c c' : Cursor} {a : α}
    (h : p c = .ok (a, c')) : ∃ tokens n,
      Cursor.mk (head :: c.tokens) c.failure c.parameters = ⟨tokens ++ c'.tokens, c'.failure, n⟩ ∧
      phrase n tokens a c'.parameters := by
  obtain ⟨tokens, n, rfl, phrase⟩ := reads.sound h
  exact ⟨head :: tokens, n, rfl, phrase⟩

theorem reads_statement : Reads statement Sentence GoesOn where
  sound {c c' s} h := by
    rw [statement, next_bind_eq_ok] at h
    obtain ⟨first, c₁, rfl, h⟩ := h
    split at h
    · rw [next_bind_eq_ok] at h
      obtain ⟨second, c₂, rfl, h⟩ := h
      split at h
      · replace h := reads_createTable.sound h
        obtain ⟨tokens, n, rfl, sentence⟩ := h
        exact ⟨_ :: _ :: tokens, n, rfl, sentence⟩
      · replace h := reads_createIndex.sound h
        obtain ⟨tokens, n, rfl, sentence⟩ := h
        exact ⟨_ :: _ :: tokens, n, rfl, sentence⟩
      · cases h
    · exact reads_select.cons h
    · exact reads_insert.cons h
    · exact reads_update.cons h
    · exact reads_delete.cons h
    · cases h
  complete failure h apart := by
    cases id h with
    | createTable => exact reads_createTable.complete failure h apart
    | createIndex => exact reads_createIndex.complete failure h apart
    | select => exact reads_select.complete failure h apart
    | insert => exact reads_insert.complete failure h apart
    | update => exact reads_update.complete failure h apart
    | delete => exact reads_delete.complete failure h apart

theorem finish_eq_ok {c c' : Cursor} {u : Unit} :
    finish c = .ok (u, c') ↔ c = c' ∧ c.tokens = [] ∧ c.failure = none := by
  obtain ⟨tokens, failure, n⟩ := c
  cases tokens with
  | nil =>
      cases failure with
      | none =>
          change Except.ok ((), _) = _ ↔ _
          simp
      | some e => exact iff_of_false nofun nofun
  | cons head rest => exact iff_of_false nofun nofun

theorem finish_bind_eq_ok {f : Unit → Parser α} {c : Cursor} {result : α × Cursor} :
    (finish >>= f) c = .ok result ↔
      c.tokens = [] ∧ c.failure = none ∧ f () c = .ok result := by
  simp only [bind_eq_ok, finish_eq_ok]
  constructor
  · rintro ⟨_, c, ⟨rfl, ended, fine⟩, h⟩
    exact ⟨ended, fine, h⟩
  · rintro ⟨ended, fine, h⟩
    exact ⟨(), c, ⟨rfl, ended, fine⟩, h⟩

theorem complete_eq_ok {tokens : List Token} {failure : Option LexicalError} {s : Statement} :
    (∃ c, complete ⟨tokens, failure, 0⟩ = .ok (s, c)) ↔ failure = none ∧ Derives tokens s := by
  constructor
  · rintro ⟨c, h⟩
    rw [complete] at h
    replace h := reads_statement.of_bind h
    obtain ⟨sentence, n, s, c₁, same, derived, h⟩ := h
    cases same
    rw [skip_bind_eq_ok] at h
    obtain ⟨c₂, rfl, h⟩ | ⟨-, h⟩ := h
    · rw [finish_bind_eq_ok] at h
      obtain ⟨ended, fine, h⟩ := h
      obtain ⟨rfl, rfl⟩ := pure_eq_ok.mp h
      rw [ended]
      exact ⟨fine, .closed derived⟩
    · rw [finish_bind_eq_ok] at h
      obtain ⟨ended, fine, h⟩ := h
      obtain ⟨rfl, rfl⟩ := pure_eq_ok.mp h
      rw [ended, List.append_nil]
      exact ⟨fine, .plain derived⟩
  · rintro ⟨rfl, derived⟩
    cases derived with
    | @plain _ _ n sentence =>
        refine ⟨⟨[], none, n⟩, ?_⟩
        rw [complete, ← List.append_nil tokens, reads_statement.bind none sentence apart_nil]
        rfl
    | @closed _ _ n sentence =>
        refine ⟨⟨[], none, n⟩, ?_⟩
        rw [complete, reads_statement.bind none sentence (apart_cons.mpr (not_not.mpr rfl))]
        rfl

end Parser

theorem Statement.ofTokens_eq_ok_iff {stream : TokenStream} {s : Statement} :
    ofTokens stream = .ok s ↔ stream.failure = none ∧ Grammar.Derives stream.tokens s := by
  rw [← Parser.complete_eq_ok]
  change (·.1) <$> Parser.complete ⟨stream.tokens, stream.failure, 0⟩ = .ok s ↔ _
  cases Parser.complete ⟨stream.tokens, stream.failure, 0⟩ with
  | error e => simp
  | ok result =>
      obtain ⟨s', c⟩ := result
      simp

/-- A text is a statement if it is a way to write down tokens that the grammar derives it from. -/
theorem Statement.parse_eq_ok_iff {text : String} {s : Statement} :
    parse text = .ok s ↔ ∃ tokens, Renders tokens text.toList ∧ Grammar.Derives tokens s := by
  rw [parse, ofTokens_eq_ok_iff]
  constructor
  · rintro ⟨fine, derived⟩
    refine ⟨_, ?_, derived⟩
    rw [← TokenStream.ofText_eq_iff_renders, ← fine]
  · rintro ⟨tokens, renders, derived⟩
    rw [TokenStream.ofText_eq_iff_renders.mpr renders]
    exact ⟨rfl, derived⟩

/-- A text is a statement if and only if it falls into tokens without a fault and the grammar
    derives the statement from all of them. -/
theorem Statement.parse_eq_ok_iff_derives {text : String} {s : Statement} :
    parse text = .ok s ↔
      ∃ tokens, TokenStream.ofText text = ⟨tokens, none⟩ ∧ Grammar.Derives tokens s := by
  rw [parse, ofTokens_eq_ok_iff]
  constructor
  · rintro ⟨fine, derived⟩
    exact ⟨_, by rw [← fine], derived⟩
  · rintro ⟨tokens, same, derived⟩
    rw [same]
    exact ⟨rfl, derived⟩

end Tabular

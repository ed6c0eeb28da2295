import Tabular.Proofs.Recognition

/-! # Faults are not hidden

A fault that ends the tokens of a text may be passed over where an optional part could come. A reader
that does so asks for a token later on, and then the fault comes to light. So a text with a fault is
refused for the fault, or for tokens before it that no text begins with.
-/

namespace Tabular

/-- A reason that lies in the tokens and not in how a text is split. -/
def ParseError.IsSyntactic : ParseError → Prop
  | .lexical _ => False
  | _ => True

namespace Parser

open Grammar

variable {α β : Type}

/-! ## Reading up to a fault -/

/-- What comes of tokens that a fault ends, next to what comes of the same tokens with others in the
    place of the fault. -/
inductive Foresees (e : LexicalError) (more : List Token) (failure : Option LexicalError) :
    Except ParseError (α × Cursor) → Except ParseError (α × Cursor) → Prop
  /-- The fault has been met. -/
  | met {other} : Foresees e more failure (.error (.lexical e)) other
  /-- Whatever follows, the tokens before the fault are refused. -/
  | hopeless {found found'} (syntactic : found.IsSyntactic) :
    Foresees e more failure (.error found) (.error found')
  /-- What has been read does not depend on the fault. -/
  | unseen {a rest n} :
    Foresees e more failure (.ok (a, ⟨rest, some e, n⟩)) (.ok (a, ⟨rest ++ more, failure, n⟩))
  /-- The fault has been taken for the lack of an optional part. -/
  | passed {a n other} : Foresees e more failure (.ok (a, ⟨[], some e, n⟩)) other

theorem Foresees.of_error {e : LexicalError} {more : List Token} {failure : Option LexicalError}
    {found : ParseError} {other : Except ParseError (α × Cursor)}
    (h : Foresees e more failure (.error found) other) :
    found = .lexical e ∨ found.IsSyntactic ∧ ∃ found', other = .error found' := by
  cases h with
  | met => exact .inl rfl
  | hopeless syntactic => exact .inr ⟨syntactic, _, rfl⟩

/-- A reader that gives no answer of its own on tokens that others could mend. -/
def Honest (p : Parser α) : Prop :=
  ∀ e more failure tokens n,
    Foresees e more failure (p ⟨tokens, some e, n⟩) (p ⟨tokens ++ more, failure, n⟩)

/-- A reader that meets the fault or passes it if there are no tokens before it. -/
def Patient (p : Parser α) : Prop :=
  ∀ e n, p ⟨[], some e, n⟩ = .error (.lexical e) ∨ ∃ a n', p ⟨[], some e, n⟩ = .ok (a, ⟨[], some e, n'⟩)

/-- A reader that may stand before or after a fault. -/
structure Careful (p : Parser α) : Prop where
  honest : Honest p
  patient : Patient p

theorem bind_apply (p : Parser α) (f : α → Parser β) (c : Cursor) :
    (p >>= f) c = match p c with
      | .ok (a, c') => f a c'
      | .error found => .error found := by
  change (p c >>= fun e => f e.1 e.2) = _
  cases p c <;> rfl

theorem honest_throw {found : ParseError} (syntactic : found.IsSyntactic) :
    Honest (throw found : Parser α) :=
  fun _ _ _ _ _ => .hopeless syntactic

theorem honest_throw_bind {found : ParseError} (syntactic : found.IsSyntactic)
    (f : α → Parser β) : Honest ((throw found : Parser α) >>= f) :=
  fun _ _ _ _ _ => .hopeless syntactic

theorem careful_pure (a : α) : Careful (pure a : Parser α) where
  honest _ _ _ _ _ := .unseen
  patient _ n := .inr ⟨a, n, rfl⟩

theorem Careful.bind {p : Parser α} {f : α → Parser β} (first : Careful p)
    (second : ∀ a, Careful (f a)) : Careful (p >>= f) where
  honest e more failure tokens n := by
    have start := first.honest e more failure tokens n
    rw [bind_apply, bind_apply]
    generalize p ⟨tokens, some e, n⟩ = short at start
    generalize p ⟨tokens ++ more, failure, n⟩ = long at start
    cases start with
    | met => exact .met
    | hopeless syntactic => exact .hopeless syntactic
    | unseen => exact (second _).honest _ _ _ _ _
    | @passed a n' =>
        -- The second part stands right before the fault, whatever the first would have read.
        dsimp only
        obtain same | ⟨b, n', same⟩ := (second a).patient e n'
        · rw [same]
          exact .met
        · rw [same]
          exact .passed
  patient e n := by
    rw [bind_apply]
    obtain same | ⟨a, n', same⟩ := first.patient e n
    · exact .inl (by rw [same])
    · rw [same]
      exact (second a).patient e n'

/-! ## Tokens -/

theorem careful_next_bind {f : Token → Parser β} (each : ∀ token, Honest (f token)) :
    Careful (next >>= f) where
  honest e more failure tokens n := by
    cases tokens with
    | nil => exact .met
    | cons head rest => exact each head e more failure rest n
  patient _ _ := .inl rfl

theorem careful_ident_bind {f : String → Parser β} (each : ∀ name, Honest (f name)) :
    Careful (ident >>= f) := by
  rw [ident, bind_assoc]
  apply careful_next_bind
  intro token
  cases token with
  | ident name => exact each name
  | _ => exact honest_throw_bind (by trivial) _

theorem careful_ident : Careful ident := by
  rw [← bind_pure ident]
  exact careful_ident_bind fun name => (careful_pure name).honest

theorem careful_expect_bind {token : Token} {f : Unit → Parser β} (then_ : Honest (f ())) :
    Careful (expect token >>= f) := by
  rw [expect, bind_assoc]
  apply careful_next_bind
  intro found
  split
  · exact honest_throw_bind (by trivial) _
  · exact then_

/-- If a token is taken, the fault is not met yet; so only what is done without one has to be
    patient. -/
theorem careful_takeMap?_bind {accept : Token → Option α} {f : Option α → Parser β}
    (missing : Careful (f none)) (present : ∀ a, Honest (f (some a))) :
    Careful (takeMap? accept >>= f) where
  honest e more failure tokens n := by
    cases tokens with
    | nil =>
        change Foresees e more failure (f none ⟨[], some e, n⟩) _
        obtain same | ⟨b, n', same⟩ := missing.patient e n
        · rw [same]
          exact .met
        · rw [same]
          exact .passed
    | cons head rest =>
        simp only [takeMap?, bind_assoc, List.cons_append, get_bind]
        cases accept head with
        | none => exact missing.honest e more failure (head :: rest) n
        | some a => exact present a e more failure rest n
  patient := missing.patient

theorem careful_skip_bind {token : Token} {f : Bool → Parser β} (missing : Careful (f false))
    (present : Honest (f true)) : Careful (skip token >>= f) := by
  rw [skip, bind_assoc]
  exact careful_takeMap?_bind missing fun _ => present

theorem careful_skip (token : Token) : Careful (skip token) := by
  rw [← bind_pure (skip token)]
  exact careful_skip_bind (careful_pure false) (careful_pure true).honest

theorem careful_finish : Careful finish where
  honest e more failure tokens n := by
    cases tokens with
    | nil => exact .met
    | cons head rest => exact .hopeless trivial
  patient _ _ := .inl rfl

theorem honest_lift_bind {x : Except ParseError α} {f : α → Parser β}
    (syntactic : ∀ found, x = .error found → found.IsSyntactic) (each : ∀ a, Honest (f a)) :
    Honest ((liftM x : Parser α) >>= f) := by
  cases x with
  | error found => exact fun _ _ _ _ _ => .hopeless (syntactic found rfl)
  | ok a => exact each a

/-! ## Lists -/

theorem Careful.patient_iterate {step : α → Parser (α × Bool)} (careful : ∀ a, Careful (step a))
    (progress : ∀ a c a' c', step a c = .ok ((a', true), c') →
      c'.tokens.length < c.tokens.length) (a : α) : Patient (iterate step a) := by
  intro e n
  rw [iterate_eq progress, bind_apply]
  obtain same | ⟨⟨a', again⟩, n', same⟩ := (careful a).patient e n
  · exact .inl (by rw [same])
  · rw [same]
    cases again with
    | false => exact .inr ⟨a', n', rfl⟩
    | true => exact absurd (progress _ _ _ _ same) (Nat.lt_irrefl 0)

theorem Careful.iterate {step : α → Parser (α × Bool)} (careful : ∀ a, Careful (step a))
    (progress : ∀ a c a' c', step a c = .ok ((a', true), c') →
      c'.tokens.length < c.tokens.length) (a : α) : Careful (iterate step a) where
  honest e more failure tokens n := by
    -- A step that asks for another one has taken a token, so the induction is on the tokens left.
    induction size : tokens.length using Nat.strongRecOn generalizing a tokens n with
    | ind size ih =>
    subst size
    rw [iterate_eq progress, iterate_eq progress, bind_apply, bind_apply]
    have start := (careful a).honest e more failure tokens n
    generalize taken : step a ⟨tokens, some e, n⟩ = short at start
    generalize step a ⟨tokens ++ more, failure, n⟩ = long at start
    cases start with
    | met => exact .met
    | hopeless syntactic => exact .hopeless syntactic
    | @unseen result rest n' =>
        obtain ⟨a', again⟩ := result
        cases again with
        | false => exact .unseen
        | true => exact ih _ (progress _ _ _ _ taken) a' rest n' rfl
    | @passed result n' =>
        obtain ⟨a', again⟩ := result
        cases again with
        | false => exact .passed
        | true =>
            dsimp only
            obtain same | ⟨b, n', same⟩ := patient_iterate careful progress a' e n'
            · rw [if_pos rfl, same]
              exact .met
            · rw [if_pos rfl, same]
              exact .passed
  patient := patient_iterate careful progress a

variable {item : List α → Parser α} {Item : Phrase α} {new : List α → α → Prop}
  {good : List α → Prop} {stop stop' : Token → Prop} {more : Parser Bool} {last : List Token}

theorem careful_list (reads : ReadsItems item Item new good stop)
    (separates : Separates more last stop') (items : ∀ before, Careful (item before))
    (commas : Careful more) : Careful (Parser.iterate (listStep item more) []) := by
  apply Careful.iterate _ fun _ _ _ _ => reads.progress separates
  intro before
  apply (items before).bind
  intro a
  exact commas.bind fun _ => careful_pure _

theorem careful_commaSeparated (reads : ReadsItems item Item new good stop)
    (items : ∀ before, Careful (item before)) : Careful (commaSeparated item) :=
  careful_list reads separates_skip items (careful_skip .comma)

theorem careful_untilClosed (reads : ReadsItems item Item new good stop)
    (items : ∀ before, Careful (item before)) : Careful (untilClosed item) := by
  rw [untilClosed_eq]
  apply careful_list reads separates_commaOrClose items
  apply careful_next_bind
  intro token
  cases token with
  | closeParen | comma => exact (careful_pure _).honest
  | _ => exact honest_throw (by trivial)

/-- What is refused for its name is refused whatever follows the name. -/
theorem careful_unless {p : Parser α} {name : α → String} (careful : Careful p)
    (named : ∀ {c a c'}, p c = .ok (a, c') → c.tokens.head? = some (.ident (name a)))
    (refused : α → Prop) [DecidablePred refused]
    (byName : ∀ {a b}, name a = name b → refused a → refused b) {e : α → ParseError}
    (syntactic : ∀ a, (e a).IsSyntactic) :
    Careful (do
      let a ← p
      if refused a then throw (e a)
      return a) where
  honest fault more failure tokens n := by
    have start := careful.honest fault more failure tokens n
    rw [bind_apply, bind_apply]
    generalize taken : p ⟨tokens, some fault, n⟩ = short at start
    generalize taken' : p ⟨tokens ++ more, failure, n⟩ = long at start
    cases start with
    | met => exact .met
    | hopeless syntactic => exact .hopeless syntactic
    | @unseen a rest n' =>
        dsimp only
        split
        · exact .hopeless (syntactic a)
        · exact .unseen
    | @passed a n' =>
        dsimp only
        split
        · -- The item may read on beyond the fault, but its name is the token that it begins with.
          rename_i refuses
          cases long with
          | error found => exact .hopeless (syntactic a)
          | ok result =>
              obtain ⟨b, c'⟩ := result
              have same : some (Token.ident (name a)) = some (.ident (name b)) := by
                rw [← named taken', List.head?_append, named taken, Option.some_or]
              have refuses : refused b := byName (by simpa using same) refuses
              dsimp only
              rw [if_pos refuses]
              exact .hopeless (syntactic a)
        · exact .passed
  patient fault n := by
    obtain same | ⟨a, n', same⟩ := careful.patient fault n
    · exact .inl (by rw [bind_apply, same])
    · exact absurd (named same) nofun

/-! ## Clauses -/

theorem careful_dataType : Careful dataType := by
  apply careful_next_bind
  intro token
  split
  any_goals exact (careful_pure _).honest
  · refine (careful_skip_bind ?_ ?_).honest
    · exact careful_pure _
    · refine (careful_next_bind fun size => ?_).honest
      split
      · refine (careful_expect_bind ?_).honest
        exact (careful_pure _).honest
      · exact honest_throw_bind (by trivial) _
  · exact honest_throw (by trivial)

theorem careful_constraint (spec : ColumnSpec) : Careful (constraint spec) := by
  refine careful_takeMap?_bind ?_ fun k => ?_
  · exact careful_pure _
  · cases k with
    | null | unique => exact (careful_pure _).honest
    | not | primary =>
        refine (careful_expect_bind ?_).honest
        exact (careful_pure _).honest
    | _ => exact honest_throw (by trivial)

theorem careful_columnSpec : Careful columnSpec := by
  apply careful_ident_bind
  intro name
  apply Careful.honest
  apply careful_dataType.bind
  intro type
  exact Careful.iterate careful_constraint (fun _ _ _ _ => constraint_progress) _

theorem head?_of_columnSpec {c c' : Cursor} {spec : ColumnSpec}
    (h : columnSpec c = .ok (spec, c')) : c.tokens.head? = some (.ident spec.name) := by
  obtain ⟨tokens, n, rfl, defined⟩ := reads_columnSpec.sound h
  cases defined with
  | column => rfl

theorem syntactic_of_integer {negative : Bool} {digits : List Char} {found : ParseError}
    (h : integer negative digits = .error found) : found.IsSyntactic := by
  rw [integer] at h
  generalize (if negative then -(Binary64.digitsValue digits : Int)
    else Binary64.digitsValue digits) = value at h
  split at h
  · cases h
    trivial
  · split at h
    · cases h
      trivial
    · cases h

theorem syntactic_of_numeral {negative : Bool} {n : Numeral} {found : ParseError}
    (h : numeral negative n = .error found) : found.IsSyntactic := by
  obtain ⟨whole, fraction⟩ := n
  cases fraction with
  | none =>
      change (integer negative whole >>= fun i => .ok (Value.integer i)) = _ at h
      cases read : integer negative whole with
      | error found' =>
          rw [read] at h
          cases h
          exact syntactic_of_integer read
      | ok i =>
          rw [read] at h
          cases h
  | some fraction => cases h

theorem honest_literal (negative : Bool) (n : Numeral) :
    Honest (do return Operand.literal (← numeral negative n)) :=
  honest_lift_bind (fun _ => syntactic_of_numeral) fun _ => (careful_pure _).honest

theorem careful_operand : Careful operand := by
  apply careful_next_bind
  intro token
  split
  · exact honest_literal _ _
  · apply Careful.honest
    apply careful_next_bind
    intro second
    split
    · exact honest_literal _ _
    · exact honest_throw (by trivial)
  any_goals exact (careful_pure _).honest
  · exact fun _ _ _ _ _ => .unseen
  · exact honest_throw (by trivial)

theorem careful_equation : Careful equation := by
  apply careful_ident_bind
  intro column
  apply Careful.honest
  apply careful_expect_bind
  apply Careful.honest
  exact careful_operand.bind fun _ => careful_pure _

theorem head?_of_equation {c c' : Cursor} {condition : Condition Operand}
    (h : equation c = .ok (condition, c')) :
    c.tokens.head? = some (.ident condition.column) := by
  obtain ⟨tokens, n, rfl, equation⟩ := reads_equation.sound h
  cases equation with
  | equation => rfl

theorem careful_filter : Careful filter := by
  refine careful_skip_bind ?_ ?_
  · exact careful_pure _
  · exact (careful_equation.bind fun _ => careful_pure _).honest

theorem careful_joinKind : Careful joinKind := by
  have joined (kind : JoinKind) :
      Careful (do expect (.keyword .join); return some kind : Parser (Option JoinKind)) := by
    refine careful_expect_bind ?_
    exact (careful_pure _).honest
  refine careful_skip_bind (careful_skip_bind (careful_skip_bind ?_ ?_) ?_) ?_
  · exact careful_pure _
  · exact ((careful_skip _).bind fun _ => joined .left).honest
  · exact (joined .inner).honest
  · exact (careful_pure _).honest

theorem careful_joinSpec : Careful joinSpec := by
  apply careful_joinKind.bind
  intro kind?
  cases kind? with
  | none => exact careful_pure _
  | some kind =>
      refine careful_ident_bind fun table => ?_
      refine (careful_expect_bind ?_).honest
      refine (careful_ident_bind fun left => ?_).honest
      refine (careful_expect_bind ?_).honest
      refine (careful_ident_bind fun right => ?_).honest
      exact (careful_pure _).honest

theorem careful_limit : Careful limit := by
  refine careful_skip_bind ?_ ?_
  · exact careful_pure _
  · refine (careful_next_bind fun token => ?_).honest
    split
    · dsimp only
      split
      · exact (careful_pure _).honest
      · exact honest_throw (by trivial)
    · exact honest_throw (by trivial)

/-! ## Statements -/

theorem careful_selection : Careful selection := by
  refine careful_skip_bind ?_ ?_
  · exact careful_commaSeparated (readsItems_plain reads_ident not_false) fun _ => careful_ident
  · exact (careful_pure _).honest

theorem careful_select : Careful select := by
  rw [select_eq]
  refine careful_selection.bind fun columns => ?_
  refine careful_expect_bind ?_
  refine (careful_ident_bind fun table => ?_).honest
  apply Careful.honest
  refine careful_joinSpec.bind fun join => ?_
  refine careful_filter.bind fun condition => ?_
  exact careful_limit.bind fun count => careful_pure _

theorem careful_createTable : Careful createTable := by
  refine careful_ident_bind fun name => ?_
  refine (careful_expect_bind ?_).honest
  apply Careful.honest
  apply (careful_commaSeparated (reads_columnSpecs name) fun before => ?_).bind
  · intro columns
    refine careful_expect_bind ?_
    exact (careful_pure _).honest
  · exact careful_unless careful_columnSpec head?_of_columnSpec _ (by rintro a b same; simp [same])
      fun _ => trivial

theorem careful_createIndex : Careful createIndex := by
  refine careful_ident_bind fun name => ?_
  refine (careful_expect_bind ?_).honest
  refine (careful_ident_bind fun table => ?_).honest
  refine (careful_expect_bind ?_).honest
  refine (careful_ident_bind fun column => ?_).honest
  refine (careful_expect_bind ?_).honest
  exact (careful_pure _).honest

theorem head?_of_ident {c c' : Cursor} {name : String} (h : ident c = .ok (name, c')) :
    c.tokens.head? = some (.ident name) := by
  rw [ident_eq_ok.mp h]
  rfl

theorem careful_listing : Careful listing := by
  refine careful_skip_bind ?_ ?_
  · exact careful_pure _
  · rw [if_pos rfl, map_eq_pure_bind]
    apply Careful.honest
    apply (careful_untilClosed readsItems_names fun before => ?_).bind fun names => careful_pure _
    exact careful_unless careful_ident head?_of_ident _ (by rintro a b rfl; exact id)
      fun _ => trivial

theorem careful_insert : Careful insert := by
  rw [insert_eq]
  refine careful_expect_bind ?_
  refine (careful_ident_bind fun table => ?_).honest
  apply Careful.honest
  refine careful_listing.bind fun columns => ?_
  refine careful_expect_bind ?_
  refine (careful_expect_bind ?_).honest
  apply Careful.honest
  apply Careful.bind _ fun values => careful_pure _
  exact careful_untilClosed (readsItems_plain reads_operand not_false) fun _ => careful_operand

theorem careful_update : Careful update := by
  refine careful_ident_bind fun table => ?_
  refine (careful_expect_bind ?_).honest
  apply Careful.honest
  apply (careful_commaSeparated readsItems_assignments fun before => ?_).bind
  · intro assignments
    exact careful_filter.bind fun condition => careful_pure _
  · exact careful_unless careful_equation head?_of_equation _ (by rintro a b same; simp [same])
      fun _ => trivial

theorem careful_delete : Careful delete := by
  refine careful_expect_bind ?_
  refine (careful_ident_bind fun table => ?_).honest
  exact (careful_filter.bind fun condition => careful_pure _).honest

theorem careful_statement : Careful statement := by
  apply careful_next_bind
  intro first
  split
  · apply Careful.honest
    apply careful_next_bind
    intro second
    split
    · exact careful_createTable.honest
    · exact careful_createIndex.honest
    · exact honest_throw (by trivial)
  · exact careful_select.honest
  · exact careful_insert.honest
  · exact careful_update.honest
  · exact careful_delete.honest
  · exact honest_throw (by trivial)

theorem careful_complete : Careful complete := by
  refine careful_statement.bind fun s => ?_
  refine (careful_skip .semicolon).bind fun _ => ?_
  exact careful_finish.bind fun _ => careful_pure _

end Parser

namespace Statement

theorem parse_eq (text : String) : parse text = (·.1) <$> Parser.complete
    ⟨(TokenStream.ofText text).tokens, (TokenStream.ofText text).failure, 0⟩ := rfl

/-- A fault in a text is reported, unless the tokens before it are at fault themselves: then no text
    with these tokens at its head is a statement. -/
theorem parse_of_fault {text : String} {tokens : List Token} {e : LexicalError}
    (split : TokenStream.ofText text = ⟨tokens, some e⟩) :
    ∃ found, parse text = .error found ∧ (found = .lexical e ∨ found.IsSyntactic ∧
      ∀ text' s, tokens <+: (TokenStream.ofText text').tokens → parse text' ≠ .ok s) := by
  have foresees more failure := Parser.careful_complete.honest e more failure tokens 0
  cases ended : Parser.complete ⟨tokens, some e, 0⟩ with
  | ok result => exact absurd (Parser.complete_eq_ok.mp ⟨result.2, ended⟩).1 nofun
  | error found =>
      rw [ended] at foresees
      refine ⟨found, by rw [parse_eq, split, ended]; rfl, ?_⟩
      obtain met | ⟨syntactic, -⟩ := (foresees [] none).of_error
      · exact .inl met
      · refine .inr ⟨syntactic, ?_⟩
        rintro text' s ⟨more, same⟩ parsed
        obtain rfl | ⟨-, found', refused⟩ :=
          (foresees more (TokenStream.ofText text').failure).of_error
        · exact syntactic
        · rw [parse_eq, ← same, refused] at parsed
          cases parsed

/-- The sign at the end is passed over where a constraint could stand; the repeated name is refused
    first, whatever follows it. -/
theorem parse_of_hidden_fault :
    let text := "CREATE TABLE t (a INT, a TEXT #"
    let tokens : List Token := [.keyword .create, .keyword .table, .ident "t", .openParen,
      .ident "a", .keyword .int, .comma, .ident "a", .keyword .text]
    TokenStream.ofText text = ⟨tokens, some (.unexpectedCharacter '#' 30)⟩ ∧
      parse text = .error (.repeatedColumn "a" "t") ∧
      ∀ text' s, tokens <+: (TokenStream.ofText text').tokens → parse text' ≠ .ok s := by
  intro text tokens
  have split : TokenStream.ofText text = ⟨tokens, some (.unexpectedCharacter '#' 30)⟩ := by
    decide +kernel
  have refused : parse text = .error (.repeatedColumn "a" "t") := by decide +kernel
  refine ⟨split, refused, ?_⟩
  obtain ⟨found, refused', met | ⟨-, hopeless⟩⟩ := parse_of_fault split
  · rw [refused, met] at refused'
    cases refused'
  · exact hopeless

end Statement

end Tabular

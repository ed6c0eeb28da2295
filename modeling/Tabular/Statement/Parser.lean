import Tabular.ParseError
import Tabular.Statement
import Tabular.Binary64.Rounding

/-! # Reading statements

A text is a statement if its tokens follow the grammar and are used up, a semicolon at the end being
allowed. A fault in splitting the text counts only where a token is asked for in vain; optional parts
that are not there are passed over.
-/

namespace Tabular

/-- What is left to read. -/
structure Cursor where
  tokens : List Token
  /-- The fault that ended the tokens, if one did. -/
  failure : Option LexicalError
  /-- The number of parameters read so far. -/
  parameters : Nat

/-- A reader of a part of a statement. -/
abbrev Parser := StateT Cursor (Except ParseError)

namespace Parser

/-- Takes the next token, which has to exist. -/
def next : Parser Token := do
  let cursor ← get
  match cursor.tokens with
  | token :: rest =>
    set { cursor with tokens := rest }
    return token
  | [] => throw (cursor.failure.elim .endOfInput .lexical)

/-- Takes the next token if it exists and a function accepts it. -/
def takeMap? {α : Type} (accept : Token → Option α) : Parser (Option α) := do
  let cursor ← get
  match cursor.tokens with
  | token :: rest =>
    match accept token with
    | some a =>
      set { cursor with tokens := rest }
      return some a
    | none => return none
  | [] => return none

/-- Takes the next token if it is the given one, and says whether it was. -/
def skip (token : Token) : Parser Bool := do
  let found ← takeMap? fun t => if t = token then some () else none
  return found.isSome

/-- Takes the next token, which has to be the given one. -/
def expect (token : Token) : Parser Unit := do
  let found ← next
  if found ≠ token then throw (.expectedToken token found)

/-- Takes the next token, which has to be a name. -/
def ident : Parser String := do
  match ← next with
  | .ident name => return name
  | found => throw (.expectedIdent found)

/-- Succeeds only where the text ends. -/
def finish : Parser Unit := do
  let cursor ← get
  match cursor.tokens, cursor.failure with
  | found :: _, _ => throw (.unexpectedToken found)
  | [], some e => throw (.lexical e)
  | [], none => return ()

/-- Repeats a step a number of times at most, as long as it asks for another one. -/
def iterateFor {α : Type} (step : α → Parser (α × Bool)) : Nat → α → Parser α
  | 0, a => return a
  | n + 1, a => do
    let (a, more) ← step a
    if more then iterateFor step n a else return a

/-- Repeats a step as long as it asks for another one. Only a step that has taken a token may do so,
    hence the tokens left bound the number of steps. -/
def iterate {α : Type} (step : α → Parser (α × Bool)) (a : α) : Parser α := do
  let cursor ← get
  iterateFor step (cursor.tokens.length + 1) a

/-- One or more items with commas between them. An item may depend on those before it. -/
def commaSeparated {α : Type} (item : List α → Parser α) : Parser (List α) :=
  iterate (fun items => do
    let a ← item items
    return (items ++ [a], ← skip .comma)) []

/-- One or more items with commas between them, up to a closing parenthesis. -/
def untilClosed {α : Type} (item : List α → Parser α) : Parser (List α) :=
  iterate (fun items => do
    let a ← item items
    match ← next with
    | .closeParen => return (items ++ [a], false)
    | .comma => return (items ++ [a], true)
    | found => throw (.unexpectedToken found)) []

/-- The type of a column. The length of a `VARCHAR` means nothing. -/
def dataType : Parser DataType := do
  match ← next with
  | .keyword .int | .keyword .integer => return .integer
  | .keyword .bool | .keyword .boolean => return .boolean
  | .keyword .float | .keyword .double | .keyword .real => return .float
  | .keyword .string | .keyword .text => return .text
  | .keyword .varchar =>
    if ← skip .openParen then
      match ← next with
      | .number _ => expect .closeParen
      | found => throw (.unexpectedToken found)
    return .text
  | found => throw (.unexpectedToken found)

/-- Reads a constraint into the definition of a column, if a keyword comes next. -/
def constraint (column : ColumnSpec) : Parser (ColumnSpec × Bool) := do
  match ← takeMap? fun | .keyword k => some k | _ => none with
  | none => return (column, false)
  | some .null => return ({ column with nullable := some true }, true)
  | some .not =>
    expect (.keyword .null)
    return ({ column with nullable := some false }, true)
  | some .primary =>
    expect (.keyword .key)
    return ({ column with primaryKey := true }, true)
  | some .unique => return ({ column with unique := true }, true)
  | some found => throw (.unexpectedKeyword found)

/-- The definition of a column: name, type and constraints. -/
def columnSpec : Parser ColumnSpec := do
  let name ← ident
  let type ← dataType
  iterate constraint
    { name, dataType := type, nullable := none, primaryKey := false, unique := false }

/-- The rest of `CREATE TABLE`. -/
def createTable : Parser Statement := do
  let name ← ident
  expect .openParen
  let columns ← commaSeparated fun before => do
    let column ← columnSpec
    if before.any (·.name = column.name) then throw (.repeatedColumn column.name name)
    return column
  expect .closeParen
  return .createTable name columns

/-- The rest of `CREATE INDEX`. -/
def createIndex : Parser Statement := do
  let name ← ident
  expect (.keyword .on)
  let table ← ident
  expect .openParen
  let column ← ident
  expect .closeParen
  return .createIndex name table column

/-- A whole number that has to be a 64-bit integer. -/
def integer (negative : Bool) (digits : List Char) : Except ParseError Int64 :=
  let value : Int := Binary64.digitsValue digits
  let value := if negative then -value else value
  if Int64.maxValue.toInt < value then throw .numberTooLarge
  else if value < Int64.minValue.toInt then throw .numberTooSmall
  else return Int64.ofInt value

/-- The value of a numeral: an integer, or a float if it has a point. -/
def numeral (negative : Bool) (n : Numeral) : Except ParseError Value :=
  match n.fraction with
  | none => return .integer (← integer negative n.whole)
  | some fraction => return .float (.ofDecimal negative n.whole fraction)

/-- A literal or a parameter. -/
def operand : Parser Operand := do
  match ← next with
  | .number n => return .literal (← numeral false n)
  | .minus =>
    match ← next with
    | .number n => return .literal (← numeral true n)
    | found => throw (.expectedNumber found)
  | .string text => return .literal (.text text)
  | .keyword .true_ => return .literal (.boolean true)
  | .keyword .false_ => return .literal (.boolean false)
  | .keyword .null => return .literal .null
  | .placeholder =>
    modifyGet fun cursor =>
      (.parameter cursor.parameters, { cursor with parameters := cursor.parameters + 1 })
  | found => throw (.unexpectedOperand found)

/-- A column, an equals sign and an operand. -/
def equation : Parser (Condition Operand) := do
  let column ← ident
  expect .equal
  return { column, value := ← operand }

/-- The condition after `WHERE`, if there is one. -/
def filter : Parser (Option (Condition Operand)) := do
  if ← skip (.keyword .where_) then return some (← equation) else return none

/-- The kind of the join that comes next, if one does. -/
def joinKind : Parser (Option JoinKind) := do
  if ← skip (.keyword .join) then
    return some .inner
  else if ← skip (.keyword .inner) then
    expect (.keyword .join)
    return some .inner
  else if ← skip (.keyword .left) then
    let _ ← skip (.keyword .outer)
    expect (.keyword .join)
    return some .left
  else
    return none

/-- A join, if there is one. -/
def joinSpec : Parser (Option JoinSpec) := do
  match ← joinKind with
  | none => return none
  | some kind =>
    let table ← ident
    expect (.keyword .on)
    let left ← ident
    expect .equal
    let right ← ident
    return some { table, kind, left, right }

/-- The number after `LIMIT`, if there is one. It has to fit 64 bits. -/
def limit : Parser (Option Nat) := do
  if ← skip (.keyword .limit) then
    match ← next with
    | .number ⟨digits, none⟩ =>
      let count := Binary64.digitsValue digits
      if count < UInt64.size then return some count else throw .numberTooLarge
    | found => throw (.expectedRowCount found)
  else
    return none

/-- The rest of `SELECT`. -/
def select : Parser Statement := do
  let columns ← if ← skip .asterisk then pure [] else commaSeparated fun _ => ident
  expect (.keyword .from_)
  let table ← ident
  let join ← joinSpec
  let condition ← filter
  let count ← limit
  return .select columns table join condition count

/-- The rest of `INSERT`. -/
def insert : Parser Statement := do
  expect (.keyword .into)
  let table ← ident
  let columns ← if ← skip .openParen then
      some <$> untilClosed fun before => do
        let column ← ident
        if column ∈ before then throw (.repeatedInsertColumn column)
        return column
    else
      pure none
  expect (.keyword .values)
  expect .openParen
  let values ← untilClosed fun _ => operand
  return .insert table columns values

/-- The rest of `UPDATE`. -/
def update : Parser Statement := do
  let table ← ident
  expect (.keyword .set)
  let assignments ← commaSeparated fun before => do
    let assignment ← equation
    if before.any (·.column = assignment.column) then
      throw (.repeatedAssignment assignment.column)
    return assignment
  let condition ← filter
  return .update table (.ofList (assignments.map fun a => (a.column, a.value))) condition

/-- The rest of `DELETE`. -/
def delete : Parser Statement := do
  expect (.keyword .from_)
  let table ← ident
  let condition ← filter
  return .delete table condition

/-- A statement without what may follow it. -/
def statement : Parser Statement := do
  match ← next with
  | .keyword .create =>
    match ← next with
    | .keyword .table => createTable
    | .keyword .index => createIndex
    | found => throw (.unexpectedToken found)
  | .keyword .select => select
  | .keyword .insert => insert
  | .keyword .update => update
  | .keyword .delete => delete
  | found => throw (.unexpectedToken found)

/-- A statement and its end. -/
def complete : Parser Statement := do
  let s ← statement
  let _ ← skip .semicolon
  finish
  return s

end Parser

/-- The statement that a stream of tokens makes up. -/
def Statement.ofTokens (stream : TokenStream) : Except ParseError Statement :=
  Parser.complete.run' ⟨stream.tokens, stream.failure, 0⟩

/-- The statement that a text is. -/
def Statement.parse (text : String) : Except ParseError Statement :=
  ofTokens (.ofText text)

end Tabular

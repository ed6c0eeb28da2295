import Tabular.Binary64.Rounding
import Tabular.Statement
import Tabular.Token

/-! # The grammar of statements

The rules say which tokens make up which statement, and nothing about reading tokens one after
another. Parameters are numbered along the text: a phrase relates its tokens and its meaning to the
number of parameters before it and to that up to its end.
-/

namespace Tabular.Grammar

/-- A kind of phrase with meanings in a type. -/
abbrev Phrase (α : Type) := Nat → List Token → α → Nat → Prop

/-! ## Names and lists -/

inductive Name : Phrase String
  | name {n name} : Name n [.ident name] name n

/-- One or more phrases with commas between them. -/
inductive Separated {α : Type} (Item : Phrase α) : Phrase (List α)
  | one {n n' tokens a} (item : Item n tokens a n') : Separated Item n tokens [a] n'
  | more {n m n' tokens rest a others} (item : Item n tokens a m)
      (tail : Separated Item m rest others n') :
    Separated Item n (tokens ++ .comma :: rest) (a :: others) n'

/-! ## Columns -/

/-- The type that a keyword stands for. -/
def typeOf? : Keyword → Option DataType
  | .int | .integer => some .integer
  | .bool | .boolean => some .boolean
  | .float | .double | .real => some .float
  | .string | .text | .varchar => some .text
  | _ => none

inductive TypeName : Phrase DataType
  | keyword {n k type} (known : typeOf? k = some type) : TypeName n [.keyword k] type n
  /-- The length may be any number. -/
  | sized {n size} :
    TypeName n [.keyword .varchar, .openParen, .number size, .closeParen] .text n

/-- What may follow the type of a column. -/
inductive Constraint where
  | primaryKey
  | unique
  | nullable (allowed : Bool)
  deriving DecidableEq

namespace Constraint

def tokens : Constraint → List Token
  | primaryKey => [.keyword .primary, .keyword .key]
  | unique => [.keyword .unique]
  | nullable true => [.keyword .null]
  | nullable false => [.keyword .not, .keyword .null]

/-- What a constraint says about null, if anything. -/
def nullability? : Constraint → Option Bool
  | nullable allowed => some allowed
  | _ => none

end Constraint

/-- The column that constraints describe. They come in any order and any number; of those about null
    the last counts. -/
def columnSpec (name : String) (type : DataType) (constraints : List Constraint) : ColumnSpec :=
  { name
    dataType := type
    nullable := (constraints.filterMap Constraint.nullability?).getLast?
    primaryKey := .primaryKey ∈ constraints
    unique := .unique ∈ constraints }

inductive Definition : Phrase ColumnSpec
  | column {n n' name tokens type} (constraints : List Constraint)
      (typed : TypeName n tokens type n') :
    Definition n (.ident name :: (tokens ++ constraints.flatMap Constraint.tokens))
      (columnSpec name type constraints) n'

/-! ## Values and conditions -/

/-- The value of a numeral with a sign. Without a point it is an integer that 64 bits hold. -/
inductive Literal (negative : Bool) : Numeral → Value → Prop
  | integer {digits} {i : Int64} (value : i.toInt =
      if negative then -(Binary64.digitsValue digits : Int) else Binary64.digitsValue digits) :
    Literal negative ⟨digits, none⟩ (.integer i)
  | float {whole fraction} :
    Literal negative ⟨whole, some fraction⟩ (.float (.ofDecimal negative whole fraction))

/-- A place where a value is wanted. -/
inductive Place : Phrase Operand
  | number {n numeral v} (literal : Literal false numeral v) :
    Place n [.number numeral] (.literal v) n
  | negative {n numeral v} (literal : Literal true numeral v) :
    Place n [.minus, .number numeral] (.literal v) n
  | text {n text} : Place n [.string text] (.literal (.text text)) n
  | true_ {n} : Place n [.keyword .true_] (.literal (.boolean true)) n
  | false_ {n} : Place n [.keyword .false_] (.literal (.boolean false)) n
  | null {n} : Place n [.keyword .null] (.literal .null) n
  | parameter {n} : Place n [.placeholder] (.parameter n) (n + 1)

inductive Equation : Phrase (Condition Operand)
  | equation {n n' column tokens value} (place : Place n tokens value n') :
    Equation n (.ident column :: .equal :: tokens) ⟨column, value⟩ n'

inductive Filter : Phrase (Option (Condition Operand))
  | none {n} : Filter n [] none n
  | where_ {n n' tokens condition} (equation : Equation n tokens condition n') :
    Filter n (.keyword .where_ :: tokens) (some condition) n'

/-! ## Parts of queries -/

inductive JoinWords : List Token → JoinKind → Prop
  | plain : JoinWords [.keyword .join] .inner
  | inner : JoinWords [.keyword .inner, .keyword .join] .inner
  | left : JoinWords [.keyword .left, .keyword .join] .left
  | leftOuter : JoinWords [.keyword .left, .keyword .outer, .keyword .join] .left

inductive Join : Phrase (Option JoinSpec)
  | none {n} : Join n [] none n
  | join {n words kind table left right} (spelled : JoinWords words kind) :
    Join n (words ++ [.ident table, .keyword .on, .ident left, .equal, .ident right])
      (some { table, kind, left, right }) n

/-- The number of rows has no point and fits 64 bits. -/
inductive Limit : Phrase (Option Nat)
  | none {n} : Limit n [] none n
  | limit {n digits} (fits : Binary64.digitsValue digits < UInt64.size) :
    Limit n [.keyword .limit, .number ⟨digits, none⟩] (some (Binary64.digitsValue digits)) n

inductive Selection : Phrase (List String)
  | all {n} : Selection n [.asterisk] [] n
  | columns {n n' tokens names} (listed : Separated Name n tokens names n') :
    Selection n tokens names n'

/-! ## Statements -/

/-- The columns that a row is given for, all of them different. -/
inductive Listing : Phrase (Option (List String))
  | none {n} : Listing n [] none n
  | columns {n n' tokens names} (listed : Separated Name n tokens names n')
      (different : names.Nodup) :
    Listing n (.openParen :: (tokens ++ [.closeParen])) (some names) n'

inductive Sentence : Phrase Statement
  | createTable {n n' name tokens columns} (defined : Separated Definition n tokens columns n')
      (different : (columns.map (·.name)).Nodup) :
    Sentence n (.keyword .create :: .keyword .table :: .ident name :: .openParen ::
      (tokens ++ [.closeParen])) (.createTable name columns) n'
  | createIndex {n name table column} :
    Sentence n [.keyword .create, .keyword .index, .ident name, .keyword .on, .ident table,
      .openParen, .ident column, .closeParen] (.createIndex name table column) n
  | insert {n m n' table listing columns tokens values} (listed : Listing n listing columns m)
      (places : Separated Place m tokens values n') :
    Sentence n (.keyword .insert :: .keyword .into :: .ident table :: (listing ++
      .keyword .values :: .openParen :: (tokens ++ [.closeParen]))) (.insert table columns values) n'
  | select {n m₁ m₂ m₃ n' selection columns table joining join filtering filter limiting count}
      (selected : Selection n selection columns m₁) (joined : Join m₁ joining join m₂)
      (filtered : Filter m₂ filtering filter m₃) (limited : Limit m₃ limiting count n') :
    Sentence n (.keyword .select :: (selection ++ .keyword .from_ :: .ident table ::
      (joining ++ (filtering ++ limiting)))) (.select columns table join filter count) n'
  | update {n m n' table tokens assignments filtering filter}
      (assigned : Separated Equation n tokens assignments m)
      (different : (assignments.map (·.column)).Nodup) (filtered : Filter m filtering filter n') :
    Sentence n (.keyword .update :: .ident table :: .keyword .set :: (tokens ++ filtering))
      (.update table (.ofList (assignments.map fun a => (a.column, a.value))) filter) n'
  | delete {n n' table filtering filter} (filtered : Filter n filtering filter n') :
    Sentence n (.keyword .delete :: .keyword .from_ :: .ident table :: filtering)
      (.delete table filter) n'

/-- The statement that tokens make up. A semicolon may stand at the end. -/
inductive Derives : List Token → Statement → Prop
  | plain {tokens s n} (sentence : Sentence 0 tokens s n) : Derives tokens s
  | closed {tokens s n} (sentence : Sentence 0 tokens s n) : Derives (tokens ++ [.semicolon]) s

end Tabular.Grammar

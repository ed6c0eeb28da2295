import Tabular.Character.Basic

/-! # Tokens

The words, literals and signs that a statement is made of.
-/

namespace Tabular

/-- The reserved words of the language. -/
inductive Keyword where
  | create
  | table
  | index
  | on
  | int
  | integer
  | boolean
  | bool
  | string
  | text
  | varchar
  | float
  | double
  | real
  | select
  | from_
  | insert
  | into
  | values
  | update
  | set
  | delete
  | where_
  | limit
  | join
  | inner
  | left
  | outer
  | true_
  | false_
  | not
  | null
  | primary
  | key
  | unique
  deriving DecidableEq, Repr

namespace Keyword

/-- The spelling of a keyword in capitals. -/
def spelling : Keyword → String
  | create => "CREATE"
  | table => "TABLE"
  | index => "INDEX"
  | on => "ON"
  | int => "INT"
  | integer => "INTEGER"
  | boolean => "BOOLEAN"
  | bool => "BOOL"
  | string => "STRING"
  | text => "TEXT"
  | varchar => "VARCHAR"
  | float => "FLOAT"
  | double => "DOUBLE"
  | real => "REAL"
  | select => "SELECT"
  | from_ => "FROM"
  | insert => "INSERT"
  | into => "INTO"
  | values => "VALUES"
  | update => "UPDATE"
  | set => "SET"
  | delete => "DELETE"
  | where_ => "WHERE"
  | limit => "LIMIT"
  | join => "JOIN"
  | inner => "INNER"
  | left => "LEFT"
  | outer => "OUTER"
  | true_ => "TRUE"
  | false_ => "FALSE"
  | not => "NOT"
  | null => "NULL"
  | primary => "PRIMARY"
  | key => "KEY"
  | unique => "UNIQUE"

/-- Every keyword. -/
def all : List Keyword :=
  [create, table, index, on, int, integer, boolean, bool, string, text, varchar, float, double,
   real, select, from_, insert, into, values, update, set, delete, where_, limit, join, inner, left,
   outer, true_, false_, not, null, primary, key, unique]

theorem mem_all (k : Keyword) : k ∈ all := by
  cases k <;> decide

/-- The keyword that a word spells in some mixture of cases, if it spells one. -/
def ofWord? (word : List Char) : Option Keyword :=
  let capitals := Character.capitalize word
  all.find? fun k => k.spelling.toList == capitals

theorem spelling_injective {k k' : Keyword} (h : k.spelling.toList = k'.spelling.toList) :
    k = k' := by
  have all_different : ∀ k ∈ all, ∀ k' ∈ all, k.spelling.toList = k'.spelling.toList → k = k' := by
    decide +kernel
  exact all_different k (mem_all k) k' (mem_all k') h

theorem spelling_of_ofWord? {word : List Char} {k : Keyword} (h : ofWord? word = some k) :
    k.spelling.toList = Character.capitalize word := by
  have found := List.find?_some h
  exact beq_iff_eq.1 found

/-- A word is a keyword if and only if its capitals spell it. -/
theorem ofWord?_eq_some_iff {word : List Char} {k : Keyword} :
    ofWord? word = some k ↔ k.spelling.toList = Character.capitalize word := by
  refine ⟨spelling_of_ofWord?, fun h => ?_⟩
  obtain ⟨found, hf⟩ : ∃ found, ofWord? word = some found :=
    Option.isSome_iff_exists.1 (List.find?_isSome.2 ⟨k, mem_all k, beq_iff_eq.2 h⟩)
  rw [hf, spelling_injective ((spelling_of_ofWord? hf).trans h.symm)]

end Keyword

/-- An unsigned number as it is written. -/
structure Numeral where
  /-- The digits before the point. -/
  whole : List Char
  /-- The digits after the point, where there is a point. -/
  fraction : Option (List Char)
  deriving DecidableEq, Repr

/-- The spelling of a numeral. -/
def Numeral.spelling (n : Numeral) : List Char :=
  n.whole ++ n.fraction.elim [] ('.' :: ·)

/-- The pieces that a text falls into. -/
inductive Token where
  | keyword (k : Keyword)
  /-- The name of a table, a column or an index. -/
  | ident (name : String)
  /-- A string literal, without its quotes. -/
  | string (text : String)
  | number (n : Numeral)
  /-- The sign `?`, which stands for a parameter. -/
  | placeholder
  | openParen
  | closeParen
  | comma
  | semicolon
  | asterisk
  | minus
  | equal
  deriving DecidableEq, Repr

/-- The text of a token, as messages show it. -/
def Token.display : Token → String
  | .keyword k => k.spelling
  | .ident name => name
  | .string text => "'" ++ text ++ "'"
  | .number n => String.ofList n.spelling
  | .placeholder => "?"
  | .openParen => "("
  | .closeParen => ")"
  | .comma => ","
  | .semicolon => ";"
  | .asterisk => "*"
  | .minus => "-"
  | .equal => "="

end Tabular

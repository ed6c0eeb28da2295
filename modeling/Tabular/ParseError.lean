import Tabular.Token.Lexer

/-! # Reasons for refusing a text

A text is no statement for a lexical reason, because its tokens do not fit together, because it names
a column twice or because a number in it is out of range.
-/

namespace Tabular

/-- Why a text is not a statement. -/
inductive ParseError where
  | lexical (e : LexicalError)
  | endOfInput
  | unexpectedToken (found : Token)
  /-- A keyword where only a column constraint may stand. -/
  | unexpectedKeyword (found : Keyword)
  | expectedIdent (found : Token)
  | expectedToken (expected found : Token)
  /-- A token where a value has to stand. -/
  | unexpectedOperand (found : Token)
  | expectedNumber (found : Token)
  | expectedRowCount (found : Token)
  | repeatedColumn (column table : String)
  | repeatedInsertColumn (column : String)
  | repeatedAssignment (column : String)
  | numberTooLarge
  | numberTooSmall
  deriving DecidableEq, Repr

/-- The wording of a reason, as messages show it. -/
def ParseError.message : ParseError → String
  | .lexical e => e.message
  | .endOfInput => "[Parser] Unexpected end of input"
  | .unexpectedToken found => "[Parser] Unexpected token " ++ found.display
  | .unexpectedKeyword found => "[Parser] Unexpected keyword " ++ found.spelling
  | .expectedIdent found => "[Parser] Expected ident, got token " ++ found.display
  | .expectedToken expected found =>
    "[Parser] Expected token " ++ expected.display ++ ", got " ++ found.display
  | .unexpectedOperand found => "[Parser] Unexpected expression token " ++ found.display
  | .expectedNumber found => "[Parser] Expected number after -, got " ++ found.display
  | .expectedRowCount found => "[Parser] Expected row count after LIMIT, got " ++ found.display
  | .repeatedColumn column table =>
    "[Parser] Duplicate column " ++ column ++ " in table " ++ table
  | .repeatedInsertColumn column => "[Parser] Duplicate column " ++ column ++ " in insert"
  | .repeatedAssignment column => "[Parser] Duplicate column " ++ column ++ " for update"
  | .numberTooLarge => "number too large to fit in target type"
  | .numberTooSmall => "number too small to fit in target type"

end Tabular

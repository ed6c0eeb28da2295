import Tabular.Proofs.Splitting

/-! # Tokens written down with blanks between them

Splitting undoes writing: tokens written down one after another, keywords in any mixture of cases and
blanks between any two of them, are the tokens that the text falls into.
-/

namespace Tabular

/-! ## Capitals -/

namespace Character

variable {c : Char} {word : List Char}

theorem isLower_iff : c.isLower ↔ 'a'.val ≤ c.val ∧ c.val ≤ 'z'.val := by
  change (decide (c.val ≥ 'a'.val) && decide (c.val ≤ 'z'.val)) = true ↔ _
  simp

theorem toNat_of_isAlpha (h : c.isAlpha) :
    0x41 ≤ c.toNat ∧ c.toNat ≤ 0x5A ∨ 0x61 ≤ c.toNat ∧ c.toNat ≤ 0x7A := by
  rcases (Bool.or_eq_true ..).mp h with upper | lower
  · exact .inl (of_decide_eq_true upper)
  · exact .inr (isLower_iff.mp lower)

theorem isAlpha_of_isUpper_toUpper (h : c.toUpper.isUpper) : c.isAlpha := by
  apply (Bool.or_eq_true ..).mpr
  by_cases lower : c.isLower
  · exact .inr lower
  · have same : c.toUpper = c := dif_neg (mt isLower_iff.mpr lower)
    exact .inl (same ▸ h)

theorem isAlphabetic_of_isAlpha (h : c.isAlpha) : isAlphabetic c := by
  rw [isAlphabetic, inRanges, List.any_eq_true]
  obtain ⟨low, high⟩ | ⟨low, high⟩ := toNat_of_isAlpha h
  · refine ⟨(0x41, 0x5A), .head _, ?_⟩
    simp [CodeRange.contains, low, high]
  · refine ⟨(0x61, 0x7A), .tail _ (.head _), ?_⟩
    simp [CodeRange.contains, low, high]

/-- A letter of the basic alphabet has no other capital than its own. -/
theorem capitals_of_isAlpha (h : c.isAlpha) : capitals c = [c.toUpper] := by
  have native : foreignCapitals.lookup c = none := by
    have foreign : ∀ entry ∈ foreignCapitals, 0x7A < entry.1.toNat := by decide
    rw [List.lookup_eq_none_iff]
    intro entry member
    have above := foreign entry member
    have below := toNat_of_isAlpha h
    rw [bne_iff_ne]
    rintro rfl
    omega
  rw [capitals, native]

theorem capitalize_of_isAlpha (h : ∀ c ∈ word, c.isAlpha) :
    capitalize word = word.map Char.toUpper := by
  induction word with
  | nil => rfl
  | cons c word ih =>
      obtain ⟨here, later⟩ := List.forall_mem_cons.mp h
      have rest := ih later
      rw [capitalize] at rest ⊢
      rw [List.flatMap_cons, capitals_of_isAlpha here, rest, List.map_cons,
        List.singleton_append]

end Character

theorem Keyword.isUpper_spelling (k : Keyword) :
    k.spelling.toList ≠ [] ∧ ∀ c ∈ k.spelling.toList, c.isUpper := by
  have every : ∀ k ∈ all, k.spelling.toList ≠ [] ∧ k.spelling.toList.all Char.isUpper := by
    decide +kernel
  obtain ⟨some, upper⟩ := every k k.mem_all
  exact ⟨some, List.all_eq_true.mp upper⟩

namespace Token

theorem Word.of_isAlphabetic {word : List Char} (some : word ≠ [])
    (letters : ∀ c ∈ word, Character.isAlphabetic c) : Word word := by
  cases word with
  | nil => exact absurd rfl some
  | cons c word =>
      obtain ⟨here, later⟩ := List.forall_mem_cons.mp letters
      refine .word ?_ fun d member => ?_
      · simp [startsWord, here]
      · simp [continuesWord, Character.isAlphanumeric, later d member]

/-! ## Tokens and how they are written -/

/-- A token that a text can hold: a name is a word that is no keyword, and a number is made of
    digits. -/
def WellFormed : Token → Prop
  | .ident name =>
    Word name.toList ∧ ∀ k : Keyword, Character.capitalize name.toList ≠ k.spelling.toList
  | .number n => n.IsDigits
  | _ => True

/-- How a token may be written. The letters of a keyword may be capitals or not. -/
inductive Written : Token → List Char → Prop
  | keyword {k word} (letters : word.map Char.toUpper = k.spelling.toList) :
    Written (.keyword k) word
  | ident {name : String} : Written (.ident name) name.toList
  | string {text : String} : Written (.string text) (quote text.toList)
  | number {n : Numeral} : Written (.number n) n.spelling
  | sign {token c} (stands : token.sign? = some c) : Written token [c]

theorem lexeme_keyword {k : Keyword} {word : List Char}
    (letters : word.map Char.toUpper = k.spelling.toList) : Lexeme (.keyword k) word := by
  obtain ⟨some, upper⟩ := k.isUpper_spelling
  rw [← letters] at some upper
  have alpha (c : Char) (member : c ∈ word) : c.isAlpha :=
    Character.isAlpha_of_isUpper_toUpper (upper _ (List.mem_map_of_mem member))
  apply Lexeme.keyword
  · apply Word.of_isAlphabetic
    · rintro rfl
      exact some rfl
    · intro c member
      exact Character.isAlphabetic_of_isAlpha (alpha c member)
  · rw [Character.capitalize_of_isAlpha alpha, letters]

theorem Written.lexeme {token : Token} {word : List Char} (written : token.Written word)
    (wellFormed : token.WellFormed) : token.Lexeme word := by
  cases written with
  | keyword letters => exact lexeme_keyword letters
  | ident => exact .ident wellFormed.1 wellFormed.2
  | string => exact .string
  | number => exact .number wellFormed
  | sign stands => exact .sign stands

end Token

/-! ## Texts -/

/-- The ways to write tokens down with at least one blank between any two of them. -/
inductive Spaced : List Token → List Char → Prop
  | nil {blanks} (blank : ∀ c ∈ blanks, Character.isBlank c) : Spaced [] blanks
  | last {token before word after} (blank : ∀ c ∈ before, Character.isBlank c)
      (written : token.Written word) (blank' : ∀ c ∈ after, Character.isBlank c) :
    Spaced [token] (before ++ (word ++ after))
  | cons {token tokens before word c rest} (blank : ∀ c ∈ before, Character.isBlank c)
      (written : token.Written word) (gap : Character.isBlank c) (tail : Spaced tokens rest) :
    Spaced (token :: tokens) (before ++ (word ++ c :: rest))

theorem Spaced.renders {tokens : List Token} {text : List Char} (h : Spaced tokens text)
    (wellFormed : ∀ token ∈ tokens, token.WellFormed) : Renders tokens text := by
  induction h with
  | nil blank => exact .nil blank
  | @last token _ _ after blank written blank' =>
      have lexeme := written.lexeme (wellFormed token List.mem_cons_self)
      have ends : token.EndsAt after :=
        token.endsAt_blank fun c head => blank' c (List.mem_of_mem_head? head)
      exact .cons blank (Token.spells_iff_lexeme.mpr lexeme) ends (.nil blank')
  | @cons token _ _ _ c rest blank written gap _ ih =>
      obtain ⟨here, later⟩ := List.forall_mem_cons.mp wellFormed
      have ends : token.EndsAt (c :: rest) := token.endsAt_blank (by rintro _ ⟨⟩; exact gap)
      have spells := Token.spells_iff_lexeme.mpr (written.lexeme here)
      exact .cons blank spells ends ((ih later).blank gap)

/-- Tokens written down with blanks between them are the tokens of the text. -/
theorem TokenStream.ofText_of_spaced {tokens : List Token} {text : String}
    (wellFormed : ∀ token ∈ tokens, token.WellFormed) (spaced : Spaced tokens text.toList) :
    ofText text = ⟨tokens, none⟩ :=
  ofText_eq_iff_renders.mpr (spaced.renders wellFormed)

/-- Quotes at both ends of a string, a keyword inside it and a point at the end of a number. -/
theorem TokenStream.ofText_of_widely_spaced :
    let tokens := [.keyword .select, .ident "größe_1", .string "' FROM '", .number ⟨['1'], some []⟩,
      .minus]
    let text := "\u2003sElecT größe_1\n\u00A0''' FROM ''' 1.\t-"
    (∀ token ∈ tokens, token.WellFormed) ∧ Spaced tokens text.toList ∧
      ofText text = ⟨tokens, none⟩ := by
  intro tokens text
  have name : Token.WellFormed (.ident "größe_1") := by
    have letters : "größe_1".toList = 'g' :: ['r', 'ö', 'ß', 'e', '_', '1'] := by decide +kernel
    have other : ∀ k ∈ Keyword.all,
        Character.capitalize "größe_1".toList ≠ k.spelling.toList := by decide +kernel
    refine ⟨?_, fun k => other k k.mem_all⟩
    rw [letters]
    exact .word (by decide +kernel) (List.all_eq_true.mp (by decide +kernel))
  have number : Numeral.IsDigits ⟨['1'], some []⟩ := ⟨nofun, by simp, by simp⟩
  have wellFormed : ∀ token ∈ tokens, token.WellFormed := by
    simp only [tokens, List.forall_mem_cons]
    exact ⟨trivial, name, trivial, number, trivial, nofun⟩
  have split : text.toList = ['\u2003'] ++ ("sElecT".toList ++ ' ' ::
      ([] ++ ("größe_1".toList ++ '\n' ::
        (['\u00A0'] ++ (Token.quote "' FROM '".toList ++ ' ' ::
          ([] ++ (Numeral.spelling ⟨['1'], some []⟩ ++ '\t' ::
            ([] ++ (['-'] ++ []))))))))) := by decide +kernel
  have spaced : Spaced tokens text.toList := by
    rw [split]
    apply Spaced.cons (List.forall_mem_singleton.mpr rfl) (.keyword (by decide +kernel)) rfl
    apply Spaced.cons (List.forall_mem_nil _) .ident rfl
    apply Spaced.cons (List.forall_mem_singleton.mpr rfl) .string rfl
    apply Spaced.cons (List.forall_mem_nil _) .number rfl
    exact .last (List.forall_mem_nil _) (.sign rfl) (List.forall_mem_nil _)
  exact ⟨wellFormed, spaced, ofText_of_spaced wellFormed spaced⟩

end Tabular

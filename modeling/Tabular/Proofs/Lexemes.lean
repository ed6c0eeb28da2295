import Tabular.Token.Lexer

/-! # The spellings of tokens

A token is at the head of a text exactly if one of its spellings is and the next character does not
belong to the token. So a text falls into tokens just as it is put together from their spellings
with blanks between them.
-/

namespace Tabular

/-! ## Kinds of characters -/

namespace Character

theorem le_of_inRanges {low : Nat} {ranges : List CodeRange} {c : Char}
    (above : ∀ range ∈ ranges, low ≤ range.1) (h : inRanges ranges c) : low ≤ c.toNat := by
  obtain ⟨range, member, within⟩ := List.any_eq_true.mp h
  simp only [CodeRange.contains, Bool.and_eq_true, decide_eq_true_eq] at within
  have := above range member
  omega

theorem not_inRanges {ranges others : List CodeRange} {c : Char}
    (apart : ∀ range ∈ ranges, ∀ other ∈ others, range.2 < other.1 ∨ other.2 < range.1)
    (h : inRanges ranges c) : inRanges others c = false := by
  rw [Bool.eq_false_iff]
  intro h'
  obtain ⟨range, member, within⟩ := List.any_eq_true.mp h
  obtain ⟨other, member', within'⟩ := List.any_eq_true.mp h'
  simp only [CodeRange.contains, Bool.and_eq_true, decide_eq_true_eq] at within within'
  have := apart range member other member'
  omega

theorem le_of_isAlphabetic {c : Char} (h : isAlphabetic c) : 0x41 ≤ c.toNat := by
  apply le_of_inRanges _ h
  decide +kernel

theorem le_of_isNumeric {c : Char} (h : isNumeric c) : 0x30 ≤ c.toNat := by
  apply le_of_inRanges _ h
  decide +kernel

theorem not_isBlank_of_isAlphabetic {c : Char} (h : isAlphabetic c) : isBlank c = false := by
  apply not_inRanges _ h
  decide +kernel

theorem not_isBlank_of_isNumeric {c : Char} (h : isNumeric c) : isBlank c = false := by
  apply not_inRanges _ h
  decide +kernel

theorem not_isBlank_of_isDigit {c : Char} (h : c.isDigit) : isBlank c = false := by
  have digits : inRanges [(0x30, 0x39)] c := by
    simp only [Char.isDigit, Bool.and_eq_true, decide_eq_true_eq, ge_iff_le,
      UInt32.le_iff_toNat_le] at h
    simpa [inRanges, CodeRange.contains] using h
  apply not_inRanges _ digits
  decide +kernel

end Character

namespace Token

/-- No character of a word is below the digits. -/
theorem le_of_continuesWord {c : Char} (h : continuesWord c) : 0x30 ≤ c.toNat := by
  simp only [continuesWord, Character.isAlphanumeric, Bool.or_eq_true, beq_iff_eq] at h
  obtain rfl | h | h := h
  · decide
  · have := Character.le_of_isAlphabetic h
    omega
  · exact Character.le_of_isNumeric h

theorem le_of_startsWord {c : Char} (h : startsWord c) : 0x41 ≤ c.toNat := by
  simp only [startsWord, Bool.or_eq_true, beq_iff_eq] at h
  obtain rfl | h := h
  · decide
  · exact Character.le_of_isAlphabetic h

theorem not_startsWord {c : Char} (h : c.toNat < 0x41) : startsWord c = false := by
  rw [Bool.eq_false_iff]
  intro starts
  have := le_of_startsWord starts
  omega

theorem not_isBlank_of_startsWord {c : Char} (h : startsWord c) : Character.isBlank c = false := by
  simp only [startsWord, Bool.or_eq_true, beq_iff_eq] at h
  obtain rfl | h := h
  · decide
  · exact Character.not_isBlank_of_isAlphabetic h

theorem not_continuesWord_of_isBlank {c : Char} (blank : Character.isBlank c) :
    continuesWord c = false := by
  rw [Bool.eq_false_iff]
  intro continues
  simp only [continuesWord, Character.isAlphanumeric, Bool.or_eq_true, beq_iff_eq] at continues
  obtain rfl | alphabetic | numeric := continues
  · cases blank
  · rw [Character.not_isBlank_of_isAlphabetic alphabetic] at blank
    cases blank
  · rw [Character.not_isBlank_of_isNumeric numeric] at blank
    cases blank

theorem not_isDigit_of_startsWord {c : Char} (h : startsWord c) : c.isDigit = false := by
  have := le_of_startsWord h
  rw [Bool.eq_false_iff]
  intro digit
  simp only [Char.isDigit, Bool.and_eq_true, decide_eq_true_eq, UInt32.le_iff_toNat_le] at digit
  have := digit.2
  change c.toNat ≤ 57 at this
  omega

/-! ## Spellings -/

/-- The contents of a string with every quote written twice. -/
def doubled (text : List Char) : List Char :=
  text.flatMap fun c => if c = '\'' then ['\'', '\''] else [c]

/-- A string between quotes. -/
def quote (text : List Char) : List Char := '\'' :: (doubled text ++ ['\''])

end Token

/-- A numeral is made of digits. -/
structure Numeral.IsDigits (n : Numeral) : Prop where
  some_whole : n.whole ≠ []
  whole : ∀ c ∈ n.whole, c.isDigit
  fraction : ∀ digits ∈ n.fraction, ∀ c ∈ digits, c.isDigit

theorem Numeral.IsDigits.spelling_eq_cons {n : Numeral} (digits : n.IsDigits) :
    ∃ c cs, n.spelling = c :: cs ∧ c.isDigit := by
  obtain ⟨c, cs, same⟩ := List.exists_cons_of_ne_nil digits.some_whole
  have digit : c.isDigit := digits.whole c (same ▸ List.mem_cons_self)
  rw [spelling, same]
  exact ⟨c, _, rfl, digit⟩

namespace Token

/-- The spellings of a token. -/
inductive Spells : Token → List Char → Prop
  | word {c cs} (starts : startsWord c) (continues : ∀ d ∈ cs, continuesWord d) :
    Spells (ofWord (c :: cs)) (c :: cs)
  | string {text} : Spells (.string (String.ofList text)) (quote text)
  | number {n : Numeral} (digits : n.IsDigits) : Spells (.number n) n.spelling
  | sign {c token} (stands : ofSign? c = some token) : Spells token [c]

/-- Whether a character right after a token belongs to the token. -/
def takes : Token → Char → Bool
  | .keyword _, c | .ident _, c => continuesWord c
  | .string _, c => c == '\''
  | .number ⟨_, none⟩, c => c == '.' || c.isDigit
  | .number ⟨_, some _⟩, c => c.isDigit
  | _, _ => false

/-- A token ends where a text begins. -/
def EndsAt (token : Token) (rest : List Char) : Prop := ∀ c ∈ rest.head?, token.takes c = false

theorem takes_ofWord (word : List Char) (c : Char) : (ofWord word).takes c = continuesWord c := by
  rw [ofWord]
  cases Keyword.ofWord? word <;> rfl

theorem takes_sign {c d : Char} {token : Token} (h : ofSign? c = some token) :
    token.takes d = false := by
  unfold ofSign? at h
  split at h <;> cases h <;> rfl

/-- What a test lets through at the head of a text, and the rest. -/
theorem split_eq_iff {p : Char → Bool} {cs taken rest : List Char} :
    cs.takeWhile p = taken ∧ cs.dropWhile p = rest ↔
      cs = taken ++ rest ∧ (∀ c ∈ taken, p c) ∧ ∀ c ∈ rest.head?, p c = false := by
  constructor
  · rintro ⟨rfl, rfl⟩
    refine ⟨List.takeWhile_append_dropWhile.symm, List.all_eq_true.mp List.all_takeWhile, ?_⟩
    intro c head
    have := List.head?_dropWhile_not p cs
    rw [Option.mem_def.mp head] at this
    simpa using this
  · rintro ⟨rfl, passes, stops⟩
    rw [List.takeWhile_append_of_pos passes, List.dropWhile_append_of_pos passes]
    cases rest with
    | nil => simp
    | cons c rest => simp [stops c rfl]

theorem doubled_quote (text : List Char) :
    doubled ('\'' :: text) = '\'' :: '\'' :: doubled text := rfl

theorem doubled_cons {c : Char} (h : c ≠ '\'') (text : List Char) :
    doubled (c :: text) = c :: doubled text := by
  rw [doubled, List.flatMap_cons, if_neg h]
  rfl

theorem splitString?_of_doubled (text : List Char) {rest : List Char}
    (ends : ∀ c ∈ rest.head?, c ≠ '\'') :
    splitString? (doubled text ++ '\'' :: rest) = some (text, rest) := by
  induction text with
  | nil =>
      cases rest with
      | nil => rfl
      | cons c rest =>
          change splitString? ('\'' :: c :: rest) = _
          rw [splitString?, if_pos rfl]
          intro _ _ same
          cases same
          exact ends _ rfl rfl
  | cons c text ih =>
      by_cases inner : c = '\''
      · subst inner
        rw [doubled_quote, List.cons_append, List.cons_append, splitString?, ih]
        rfl
      · rw [doubled_cons inner, List.cons_append, splitString?, if_neg inner, ih]
        · rfl
        · intro _ same
          exact absurd same inner

theorem splitString?_eq_some_iff {cs text rest : List Char} :
    splitString? cs = some (text, rest) ↔
      cs = doubled text ++ '\'' :: rest ∧ ∀ c ∈ rest.head?, c ≠ '\'' := by
  constructor
  · intro h
    fun_induction splitString? cs generalizing text rest with
    | case1 => cases h
    | case2 cs ih =>
        obtain ⟨⟨text, rest⟩, later, same⟩ := Option.map_eq_some_iff.mp h
        cases same
        obtain ⟨rfl, ends⟩ := ih later
        exact ⟨rfl, ends⟩
    | case3 cs single =>
        cases h
        refine ⟨rfl, ?_⟩
        intro c head same
        subst same
        cases cs with
        | nil => cases head
        | cons d cs =>
            cases head
            exact single cs rfl rfl
    | case4 c cs _ other ih =>
        obtain ⟨⟨text, rest⟩, later, same⟩ := Option.map_eq_some_iff.mp h
        cases same
        obtain ⟨rfl, ends⟩ := ih later
        exact ⟨by rw [doubled_cons other, List.cons_append], ends⟩
  · rintro ⟨rfl, ends⟩
    exact splitString?_of_doubled text ends

theorem exists_split (p : Char → Bool) (cs : List Char) :
    ∃ taken rest, cs.takeWhile p = taken ∧ cs.dropWhile p = rest ∧ cs = taken ++ rest ∧
      (∀ c ∈ taken, p c) ∧ ∀ c ∈ rest.head?, p c = false :=
  ⟨_, _, rfl, rfl, split_eq_iff.mp ⟨rfl, rfl⟩⟩

theorem exists_of_dropWhile {p : Char → Bool} {cs rest : List Char}
    (dropped : cs.dropWhile p = rest) :
    ∃ taken, cs = taken ++ rest ∧ (∀ c ∈ taken, p c) ∧ ∀ c ∈ rest.head?, p c = false := by
  subst dropped
  obtain ⟨taken, rest, -, rfl, split⟩ := exists_split p cs
  exact ⟨taken, split⟩

theorem splitNumeral_sound {cs rest : List Char} {n : Numeral} (h : splitNumeral cs = (n, rest)) :
    cs = n.spelling ++ rest ∧ (∀ c ∈ n.whole, c.isDigit) ∧
      (∀ digits ∈ n.fraction, ∀ c ∈ digits, c.isDigit) ∧ EndsAt (.number n) rest := by
  obtain ⟨digits, after, taken, dropped, same, whole, stops⟩ := exists_split Char.isDigit cs
  rw [splitNumeral, taken, dropped] at h
  subst same
  split at h
  · rename_i after
    obtain ⟨digits', after', taken, dropped, same, fraction, ends⟩ :=
      exists_split Char.isDigit after
    rw [taken, dropped] at h
    cases h
    refine ⟨?_, whole, ?_, ends⟩
    · simp [Numeral.spelling, same]
    · rintro _ ⟨⟩
      exact fraction
  · rename_i plain
    cases h
    refine ⟨?_, whole, nofun, ?_⟩
    · simp [Numeral.spelling]
    · intro c head
      have point : c ≠ '.' := by
        rintro rfl
        obtain ⟨tail, rfl⟩ := List.head?_eq_some_iff.mp head
        exact plain tail rfl
      simpa [takes, point] using stops c head

theorem whole_splitNumeral (cs : List Char) :
    (splitNumeral cs).1.whole = cs.takeWhile Char.isDigit := by
  rw [splitNumeral]
  split <;> rfl

theorem splitNumeral_of_digits {n : Numeral} {rest : List Char} (whole : ∀ c ∈ n.whole, c.isDigit)
    (fraction : ∀ digits ∈ n.fraction, ∀ c ∈ digits, c.isDigit) (ends : EndsAt (.number n) rest) :
    splitNumeral (n.spelling ++ rest) = (n, rest) := by
  obtain ⟨digits, fraction?⟩ := n
  cases fraction? with
  | none =>
      have stops : ∀ c ∈ rest.head?, c.isDigit = false := by
        intro c head
        have := ends c head
        simp only [takes, Bool.or_eq_false_iff] at this
        exact this.2
      obtain ⟨taken, dropped⟩ := split_eq_iff.mpr ⟨rfl, whole, stops⟩
      simp only [splitNumeral, Numeral.spelling, Option.elim, List.append_nil] at taken dropped ⊢
      rw [taken, dropped]
      split
      · exact absurd (ends '.' rfl) nofun
      · rfl
  | some after =>
      obtain ⟨taken, dropped⟩ := split_eq_iff.mpr
        ⟨rfl, whole, (fun _ head => by cases head; decide :
          ∀ c ∈ ('.' :: (after ++ rest)).head?, c.isDigit = false)⟩
      obtain ⟨taken', dropped'⟩ := split_eq_iff.mpr ⟨rfl, fraction after rfl, ends⟩
      simp only [splitNumeral, Numeral.spelling, Option.elim, List.append_assoc, List.cons_append]
      simp only at taken dropped
      rw [taken, dropped]
      simp only [taken', dropped']

theorem ofSign?_eq_some {c : Char} {token : Token} (h : ofSign? c = some token) :
    c ≠ '\'' ∧ c.isDigit = false ∧ startsWord c = false ∧ Character.isBlank c = false := by
  unfold ofSign? at h
  split at h
  any_goals exact ⟨nofun, rfl, not_startsWord (Nat.le_of_ble_eq_true rfl), rfl⟩
  cases h

theorem split?_sound {cs rest : List Char} {token : Token} (h : split? cs = some (token, rest)) :
    ∃ lexeme, Spells token lexeme ∧ cs = lexeme ++ rest ∧ EndsAt token rest := by
  cases cs with
  | nil => cases h
  | cons c cs =>
      rw [split?] at h
      split at h
      · rename_i opens
        subst opens
        obtain ⟨⟨text, rest⟩, string, same⟩ := Option.map_eq_some_iff.mp h
        cases same
        obtain ⟨rfl, ends⟩ := splitString?_eq_some_iff.mp string
        refine ⟨quote text, .string, ?_, ?_⟩
        · rw [quote, List.cons_append, List.append_assoc]
          rfl
        · intro c head
          exact beq_eq_false_iff_ne.mpr (ends c head)
      · split at h
        · rename_i digit
          cases found : splitNumeral (c :: cs) with
          | mk n after =>
              rw [found] at h
              cases h
              obtain ⟨same, whole, fraction, ends⟩ := splitNumeral_sound found
              refine ⟨_, .number ⟨?_, whole, fraction⟩, same, ends⟩
              have := whole_splitNumeral (c :: cs)
              rw [found, List.takeWhile_cons_of_pos digit] at this
              exact this ▸ List.cons_ne_nil _ _
        · split at h
          · rename_i starts
            obtain ⟨tail, after, taken, dropped, rfl, continues, ends⟩ :=
              exists_split continuesWord cs
            rw [taken, dropped] at h
            cases h
            refine ⟨_, .word starts continues, rfl, ?_⟩
            intro d head
            rw [takes_ofWord]
            exact ends d head
          · obtain ⟨sign, stands, same⟩ := Option.map_eq_some_iff.mp h
            cases same
            exact ⟨[c], .sign stands, rfl, fun d _ => takes_sign stands⟩

theorem Spells.split? {token : Token} {lexeme rest : List Char} (spells : token.Spells lexeme)
    (ends : token.EndsAt rest) : Token.split? (lexeme ++ rest) = some (token, rest) := by
  cases spells with
  | @word c cs starts continues =>
      have quoted : c ≠ '\'' := by
        rintro rfl
        exact absurd (le_of_startsWord starts) nofun
      have ends : ∀ d ∈ rest.head?, continuesWord d = false := by
        intro d head
        rw [← takes_ofWord (c :: cs)]
        exact ends d head
      obtain ⟨taken, dropped⟩ := split_eq_iff.mpr ⟨rfl, continues, ends⟩
      rw [List.cons_append, Token.split?, if_neg quoted,
        if_neg (by simp [not_isDigit_of_startsWord starts]), if_pos starts, taken, dropped]
  | @string text =>
      have ends : ∀ d ∈ rest.head?, d ≠ '\'' := fun d head => beq_eq_false_iff_ne.mp (ends d head)
      rw [quote, List.cons_append, List.append_assoc, Token.split?, if_pos rfl,
        List.singleton_append, splitString?_of_doubled text ends]
      rfl
  | @number n digits =>
      obtain ⟨c, tail, same, digit⟩ := digits.spelling_eq_cons
      have quoted : c ≠ '\'' := by
        rintro rfl
        cases digit
      have split := splitNumeral_of_digits digits.whole digits.fraction ends
      rw [same, List.cons_append] at split ⊢
      rw [Token.split?, if_neg quoted, if_pos digit, split]
  | @sign c token stands =>
      obtain ⟨quoted, digit, word, -⟩ := ofSign?_eq_some stands
      simp [Token.split?, quoted, digit, word, stands]

/-- A text begins with a token if it begins with a spelling of the token that what follows does not
    go on. -/
theorem split?_eq_some_iff {cs rest : List Char} {token : Token} : split? cs = some (token, rest) ↔
    ∃ lexeme, Spells token lexeme ∧ cs = lexeme ++ rest ∧ EndsAt token rest := by
  constructor
  · exact split?_sound
  · rintro ⟨lexeme, spells, rfl, ends⟩
    exact spells.split? ends

theorem Spells.not_blank {token : Token} {lexeme : List Char} (h : Spells token lexeme) :
    ∃ c cs, lexeme = c :: cs ∧ Character.isBlank c = false := by
  cases h with
  | word starts _ => exact ⟨_, _, rfl, not_isBlank_of_startsWord starts⟩
  | string => exact ⟨_, _, rfl, rfl⟩
  | number digits =>
      obtain ⟨c, tail, same, digit⟩ := digits.spelling_eq_cons
      exact ⟨c, tail, same, Character.not_isBlank_of_isDigit digit⟩
  | sign stands => exact ⟨_, _, rfl, (ofSign?_eq_some stands).2.2.2⟩

end Token

/-! ## Texts -/

/-- The ways to write tokens down one after another. -/
inductive Renders : List Token → List Char → Prop
  | nil {blanks} (blank : ∀ c ∈ blanks, Character.isBlank c) : Renders [] blanks
  | cons {token tokens blanks lexeme rest} (blank : ∀ c ∈ blanks, Character.isBlank c)
      (spells : token.Spells lexeme) (ends : token.EndsAt rest) (tail : Renders tokens rest) :
    Renders (token :: tokens) (blanks ++ (lexeme ++ rest))

namespace TokenStream

theorem ofSuffix_of_blank {length : Nat} {text : List Char}
    (blank : ∀ c ∈ text, Character.isBlank c) : ofSuffix length text = ⟨[], none⟩ := by
  have nothing : text.dropWhile Character.isBlank = [] :=
    (Token.split_eq_iff.mpr ⟨(List.append_nil text).symm, blank, nofun⟩).2
  rw [ofSuffix]
  split
  · rfl
  · rename_i dropped
    rw [nothing] at dropped
    cases dropped

theorem ofSuffix_of_blanks {length : Nat} {blanks rest : List Char} {c : Char}
    (blank : ∀ c ∈ blanks, Character.isBlank c) (shown : Character.isBlank c = false) :
    ofSuffix length (blanks ++ c :: rest) = match Token.split? (c :: rest) with
      | none => ⟨[], some (.ofHead c (length - (c :: rest).length))⟩
      | some (token, after) => (ofSuffix length after).cons token := by
  have dropped : (blanks ++ c :: rest).dropWhile Character.isBlank = c :: rest :=
    (Token.split_eq_iff.mpr ⟨rfl, blank, by rintro _ ⟨⟩; exact shown⟩).2
  rw [ofSuffix]
  split
  · rename_i nothing
    rw [dropped] at nothing
    cases nothing
  · rename_i found
    rw [dropped] at found
    cases found
    -- The two matches differ in the equation that termination needs.
    split <;> rename_i found <;> rw [found]

theorem ofSuffix_of_token {length : Nat} {blanks lexeme rest : List Char} {token : Token}
    (blank : ∀ c ∈ blanks, Character.isBlank c) (spells : token.Spells lexeme)
    (ends : token.EndsAt rest) :
    ofSuffix length (blanks ++ (lexeme ++ rest)) = (ofSuffix length rest).cons token := by
  have split := spells.split? ends
  obtain ⟨c, cs, rfl, shown⟩ := spells.not_blank
  rw [List.cons_append] at split ⊢
  rw [ofSuffix_of_blanks blank shown, split]

/-- A text falls into tokens without a fault exactly if it writes them down. -/
theorem ofSuffix_eq_iff_renders {length : Nat} {text : List Char} {tokens : List Token} :
    ofSuffix length text = ⟨tokens, none⟩ ↔ Renders tokens text := by
  constructor
  · intro h
    fun_induction ofSuffix length text generalizing tokens with
    | case1 text dropped =>
        cases h
        obtain ⟨blanks, rfl, blank, -⟩ := Token.exists_of_dropWhile dropped
        rw [List.append_nil]
        exact .nil blank
    | case2 text c rest some none => cases h
    | case3 text c rest dropped token rest' split ih =>
        obtain ⟨blanks, rfl, blank, -⟩ := Token.exists_of_dropWhile dropped
        obtain ⟨lexeme, spells, same, ends⟩ := Token.split?_eq_some_iff.mp split
        rw [same]
        cases later : ofSuffix length rest' with
        | mk tokens failure =>
            rw [later] at h
            cases h
            exact .cons blank spells ends (ih later)
  · intro h
    induction h with
    | nil blank => exact ofSuffix_of_blank blank
    | cons blank spells ends tail ih =>
        rw [ofSuffix_of_token blank spells ends, ih]
        rfl

theorem ofText_eq_iff_renders {text : String} {tokens : List Token} :
    ofText text = ⟨tokens, none⟩ ↔ Renders tokens text.toList :=
  ofSuffix_eq_iff_renders

end TokenStream

/-! ## Tokens between blanks -/

/-- Whether a text is a word for a keyword. -/
def Keyword.isSpelledBy (k : Keyword) : List Char → Bool
  | [] => false
  | c :: cs => Token.startsWord c && cs.all Token.continuesWord && ofWord? (c :: cs) == some k

theorem Token.Spells.keyword (k : Keyword) : Spells (.keyword k) k.spelling.toList := by
  have all_spelled : ∀ k ∈ Keyword.all, k.isSpelledBy k.spelling.toList := by decide +kernel
  have spelled := all_spelled k k.mem_all
  cases letters : k.spelling.toList with
  | nil =>
      rw [letters] at spelled
      cases spelled
  | cons c cs =>
      rw [letters] at spelled
      simp only [Keyword.isSpelledBy, Bool.and_eq_true, List.all_eq_true, beq_iff_eq] at spelled
      obtain ⟨⟨starts, continues⟩, found⟩ := spelled
      have word : ofWord (c :: cs) = .keyword k := by
        rw [ofWord, found]
        rfl
      rw [← word]
      exact .word starts continues

theorem Renders.blank {c : Char} {tokens : List Token} {text : List Char}
    (blank : Character.isBlank c) (h : Renders tokens text) : Renders tokens (c :: text) := by
  cases h with
  | nil blanks => exact .nil (List.forall_mem_cons.mpr ⟨blank, blanks⟩)
  | cons blanks spells ends tail =>
      exact .cons (List.forall_mem_cons.mpr ⟨blank, blanks⟩) spells ends tail

theorem Renders.append_blanks {tokens : List Token} {blanks rest : List Char}
    (blank : ∀ c ∈ blanks, Character.isBlank c)
    (h : Renders tokens rest) : Renders tokens (blanks ++ rest) := by
  induction blanks with
  | nil => exact h
  | cons c blanks ih =>
      obtain ⟨head, blank⟩ := List.forall_mem_cons.mp blank
      exact (ih blank).blank head

theorem Renders.token {token : Token} {tokens : List Token} {lexeme rest : List Char}
    (spells : token.Spells lexeme) (ends : token.EndsAt rest) (tail : Renders tokens rest) :
    Renders (token :: tokens) (lexeme ++ rest) :=
  .cons (List.forall_mem_nil _) spells ends tail

/-- A blank belongs to no token before it. -/
theorem Token.not_takes_blank (token : Token) {c : Char} (blank : Character.isBlank c) :
    token.takes c = false := by
  have word := not_continuesWord_of_isBlank blank
  have digit : c.isDigit = false := by
    rw [Bool.eq_false_iff]
    intro digit
    rw [Character.not_isBlank_of_isDigit digit] at blank
    cases blank
  have point : c ≠ '.' := by
    rintro rfl
    cases blank
  have quoted : c ≠ '\'' := by
    rintro rfl
    cases blank
  cases token with
  | keyword | ident => exact word
  | string => exact beq_eq_false_iff_ne.mpr quoted
  | number n =>
      obtain ⟨whole, fraction⟩ := n
      cases fraction with
      | none => simp [takes, digit, point]
      | some => exact digit
  | _ => rfl

theorem Token.endsAt_blank (token : Token) {rest : List Char}
    (blank : ∀ c ∈ rest.head?, Character.isBlank c) : token.EndsAt rest :=
  fun c head => token.not_takes_blank (blank c head)

theorem Token.endsAt_space (token : Token) (rest : List Char) : token.EndsAt (' ' :: rest) := by
  apply token.endsAt_blank
  rintro _ ⟨⟩
  rfl

theorem Renders.before_space {token : Token} {lexeme : List Char} {tokens : List Token}
    {text : List Char} (spells : token.Spells lexeme) (rest : Renders tokens text) :
    Renders (token :: tokens) (lexeme ++ ' ' :: text) :=
  .token spells (token.endsAt_space text) (rest.blank rfl)

end Tabular

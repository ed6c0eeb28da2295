import Tabular.Plan.Binding
import Tabular.Proofs.Fallible
import Tabular.Proofs.Literals
import Tabular.Proofs.Numbering
import Tabular.Proofs.Recognition

/-! # Parameters are literals

To give a statement its parameters is to write them into its text: the text with literals in place
of the placeholders is a statement without parameters and has the same plan.
-/

namespace Tabular

/-! ## Statements with other operands -/

/-- The condition with another value. -/
def Condition.map {α β : Type} (f : α → β) (c : Condition α) : Condition β :=
  { column := c.column, value := f c.value }

theorem Condition.ofList_map (f : Operand → Operand) (conditions : List (Condition Operand)) :
    SortedMap.ofList ((conditions.map (map f)).map fun c => (c.column, c.value)) =
      (SortedMap.ofList (conditions.map fun c => (c.column, c.value))).mapValues f := by
  rw [← SortedMap.ofList_map, List.map_map, List.map_map]
  rfl

/-- The literal that a parameter stands for. -/
def Operand.fill (value : Nat → Value) : Operand → Operand
  | .literal v => .literal v
  | .parameter number => .literal (value number)

namespace Statement

/-- The statement with other operands in the places of its own. -/
def mapOperands (f : Operand → Operand) : Statement → Statement
  | .createTable name columns => .createTable name columns
  | .createIndex name table column => .createIndex name table column
  | .insert table columns values => .insert table columns (values.map f)
  | .select columns table join filter limit =>
    .select columns table join (filter.map (.map f)) limit
  | .update table assignments filter =>
    .update table (assignments.mapValues f) (filter.map (.map f))
  | .delete table filter => .delete table (filter.map (.map f))

theorem operands_mapOperands (f : Operand → Operand) (s : Statement) :
    (s.mapOperands f).operands = s.operands.map f := by
  have conditions (filter : Option (Condition Operand)) :
      (filter.map (Condition.map f)).toList.map (·.value) = (filter.toList.map (·.value)).map f := by
    cases filter <;> rfl
  cases s with
  | createTable | createIndex | insert => rfl
  | select | delete => exact conditions _
  | update table assignments filter =>
      rw [mapOperands, operands, operands, conditions, List.map_append]
      congr 1
      simp only [SortedMap.values, SortedMap.toList_mapValues, List.map_map, Function.comp_def]

theorem parameterCount_fill (value : Nat → Value) (s : Statement) :
    (s.mapOperands (.fill value)).parameterCount = 0 := by
  rw [parameterCount, operands_mapOperands, List.countP_eq_zero]
  intro o member
  obtain ⟨o, -, rfl⟩ := List.mem_map.mp member
  cases o <;> exact nofun

/-- Conditions with operands that are bound alike. -/
theorem mapM_conditions {f : Operand → Operand} {given params : List Value}
    {filter : Option (Condition Operand)}
    (alike : ∀ o ∈ filter.toList.map (·.value), (f o).bind given = o.bind params) :
    (filter.map (Condition.map f)).mapM (Condition.bind given) =
      filter.mapM (Condition.bind params) := by
  cases filter with
  | none => rfl
  | some condition =>
      have bound : (f condition.value).bind given = condition.value.bind params :=
        alike _ (by simp)
      have same : (condition.map f).bind given = condition.bind params := by
        rw [Condition.bind, Condition.bind, Condition.map, bound]
      change (some <$> (condition.map f).bind given) = some <$> condition.bind params
      rw [same]

/-- Operands that are bound alike make the same plan. -/
theorem bind_mapOperands {f : Operand → Operand} {given params : List Value} {s : Statement}
    (alike : ∀ o ∈ s.operands, (f o).bind given = o.bind params) :
    (s.mapOperands f).bind given = s.bind params := by
  cases s with
  | createTable | createIndex => rfl
  | insert table columns values =>
      have bound : (values.map f).mapM (Operand.bind given) = values.mapM (Operand.bind params) :=
        Fallible.mapM_map_congr alike
      rw [mapOperands, bind, bind, bound]
  | select columns table join filter limit =>
      rw [mapOperands, bind, bind, mapM_conditions alike]
  | update table assignments filter =>
      rw [operands, List.forall_mem_append] at alike
      obtain ⟨assigned, filtered⟩ := alike
      have entries : (assignments.mapValues f).mapM (Operand.bind given) =
          assignments.mapM (Operand.bind params) := by
        rw [SortedMap.mapM, SortedMap.mapM, SortedMap.toList_mapValues]
        rw [Fallible.mapM_map_congr]
        intro e member
        rw [assigned e.2 (List.mem_map.mpr ⟨e, member, rfl⟩)]
      rw [mapOperands, bind, bind, mapM_conditions filtered, entries]
  | delete table filter =>
      rw [mapOperands, bind, bind, mapM_conditions alike]

theorem plan_fill {value : Nat → Value} {params : List Value} {s : Statement}
    (enough : s.parameterCount ≤ params.length)
    (given : ∀ number, .parameter number ∈ s.operands → params[number]? = some (value number)) :
    (s.mapOperands (.fill value)).plan [] = s.plan params := by
  have bound : (s.mapOperands (.fill value)).bind [] = s.bind params := by
    apply bind_mapOperands
    intro o member
    cases o with
    | literal v => rfl
    | parameter number => rw [Operand.fill, Operand.bind, Operand.bind, given number member]
  rw [plan, plan, parameterCount_fill, if_neg (Nat.not_lt_zero _), if_neg (by omega), bound]

end Statement

/-! ## Tokens of statements -/

namespace Grammar

/-- Tokens with others in the places of the placeholders, which are numbered. -/
def fill (literal : Nat → List Token) : Nat → List Token → List Token
  | _, [] => []
  | n, .placeholder :: rest => literal n ++ fill literal (n + 1) rest
  | n, token :: rest => token :: fill literal n rest

variable {α : Type} {literal : Nat → List Token} {value : Nat → Value} {n n' : Nat}
  {tokens : List Token}

theorem fill_cons {token : Token} (other : token ≠ .placeholder) (rest : List Token) :
    fill literal n (token :: rest) = token :: fill literal n rest := by
  cases token with
  | placeholder => exact absurd rfl other
  | _ => rfl

theorem fill_append (rest : List Token) : fill literal n (tokens ++ rest) =
    fill literal n tokens ++ fill literal (n + tokens.count .placeholder) rest := by
  induction tokens generalizing n with
  | nil => rfl
  | cons token tokens ih =>
      by_cases placeholder : token = .placeholder
      · subst placeholder
        rw [List.cons_append, fill, ih, fill, List.count_cons_self, List.append_assoc]
        congr 3
        omega
      · rw [List.cons_append, fill_cons placeholder, ih, fill_cons placeholder,
          List.count_cons_of_ne placeholder, List.cons_append]

theorem fill_plain (plain : .placeholder ∉ tokens) : fill literal n tokens = tokens := by
  induction tokens with
  | nil => rfl
  | cons token tokens ih =>
      obtain ⟨other, plain⟩ := not_or.mp (List.mem_cons.not.mp plain)
      rw [fill_cons (Ne.symm other), ih plain]

theorem Numbered.fill_eq (h : Numbered n tokens [] n') : fill literal n tokens = tokens :=
  fill_plain h.not_mem

/-! ## Phrases without parameters -/

theorem Name.anywhere {name : String} (h : Name n tokens name n') (m : Nat) :
    Name m tokens name m := by
  cases h
  exact .name

theorem TypeName.anywhere {type : DataType} (h : TypeName n tokens type n') (m : Nat) :
    TypeName m tokens type m := by
  cases h with
  | keyword known => exact .keyword known
  | sized => exact .sized

theorem Definition.anywhere {spec : ColumnSpec} (h : Definition n tokens spec n') (m : Nat) :
    Definition m tokens spec m := by
  cases h with
  | column constraints typed => exact .column constraints (typed.anywhere m)

theorem Separated.anywhere {Item : Phrase α} {items : List α}
    (listed : Separated Item n tokens items n') (m : Nat)
    (item : ∀ n tokens a n', Item n tokens a n' → Item m tokens a m) :
    Separated Item m tokens items m := by
  induction listed with
  | one phrase => exact .one (item _ _ _ _ phrase)
  | more phrase _ ih => exact .more (item _ _ _ _ phrase) ih

theorem Join.anywhere {join : Option JoinSpec} (h : Join n tokens join n') (m : Nat) :
    Join m tokens join m := by
  cases h with
  | none => exact .none
  | join spelled => exact .join spelled

theorem Limit.anywhere {count : Option Nat} (h : Limit n tokens count n') (m : Nat) :
    Limit m tokens count m := by
  cases h with
  | none => exact .none
  | limit fits => exact .limit fits

theorem Selection.anywhere {columns : List String} (h : Selection n tokens columns n') (m : Nat) :
    Selection m tokens columns m := by
  cases h with
  | all => exact .all
  | columns listed => exact .columns (listed.anywhere m fun _ _ _ _ h => h.anywhere m)

theorem Listing.anywhere {columns : Option (List String)} (h : Listing n tokens columns n')
    (m : Nat) : Listing m tokens columns m := by
  cases h with
  | none => exact .none
  | columns listed different =>
      exact .columns (listed.anywhere m fun _ _ _ _ h => h.anywhere m) different

/-! ## Phrases with literals for parameters -/

/-- Tokens that are literals wherever they stand. -/
def Literals (literal : Nat → List Token) (value : Nat → Value) : Prop :=
  ∀ number n, Place n (literal number) (.literal (value number)) n

theorem Separated.fill {Item : Phrase α} {f : α → α} {values : α → List Operand} {items : List α}
    (listed : Separated Item n tokens items n') (m : Nat)
    (numbered : ∀ n tokens a n', Item n tokens a n' → Numbered n tokens (values a) n')
    (item : ∀ n tokens a n', Item n tokens a n' → Item m (fill literal n tokens) (f a) m) :
    Separated Item m (fill literal n tokens) (items.map f) m := by
  induction listed with
  | one phrase => exact .one (item _ _ _ _ phrase)
  | more phrase _ ih =>
      rw [fill_append, ← (numbered _ _ _ _ phrase).counted]
      exact .more (item _ _ _ _ phrase) ih

variable (literals : Literals literal value)

include literals

theorem Place.fill {o : Operand} (h : Place n tokens o n') (m : Nat) :
    Place m (fill literal n tokens) (o.fill value) m := by
  cases h with
  | parameter =>
      rw [Grammar.fill, Grammar.fill, List.append_nil]
      exact literals n m
  | number known => exact .number known
  | negative known => exact .negative known
  | text => exact .text
  | true_ => exact .true_
  | false_ => exact .false_
  | null => exact .null

theorem Equation.fill {condition : Condition Operand} (h : Equation n tokens condition n')
    (m : Nat) : Equation m (fill literal n tokens) (condition.map (.fill value)) m := by
  cases h with
  | equation place => exact .equation (place.fill literals m)

theorem Filter.fill {filter : Option (Condition Operand)} (h : Filter n tokens filter n')
    (m : Nat) :
    Filter m (fill literal n tokens) (filter.map (Condition.map (.fill value))) m := by
  cases h with
  | none => exact .none
  | where_ equation => exact .where_ (equation.fill literals m)

theorem Sentence.fill {s : Statement} (h : Sentence n tokens s n') (m : Nat) :
    Sentence m (fill literal n tokens) (s.mapOperands (.fill value)) m := by
  cases id h with
  | createTable defined different =>
      rw [h.numbered.fill_eq]
      exact .createTable (defined.anywhere m fun _ _ _ _ h => h.anywhere m) different
  | createIndex =>
      rw [h.numbered.fill_eq]
      exact .createIndex
  | insert listed places =>
      have filled := places.fill m (fun _ _ _ _ => Place.numbered)
        fun _ _ _ _ place => place.fill literals m
      simp only [Grammar.fill, fill_append, ← listed.numbered.counted, listed.numbered.fill_eq]
      exact .insert (listed.anywhere m) filled
  | select selected joined filtered limited =>
      simp only [Grammar.fill, fill_append, ← selected.numbered.counted, selected.numbered.fill_eq,
        ← joined.numbered.counted, joined.numbered.fill_eq, ← filtered.numbered.counted,
        limited.numbered.fill_eq]
      exact .select (selected.anywhere m) (joined.anywhere m) (filtered.fill literals m)
        (limited.anywhere m)
  | @update _ _ _ _ _ assignments _ _ assigned different filtered =>
      have filled := assigned.fill m (fun _ _ _ _ => Equation.numbered)
        fun _ _ _ _ equation => equation.fill literals m
      have counted := (assigned.numbered fun _ _ _ _ => Equation.numbered).counted
      simp only [Grammar.fill, fill_append, ← counted, Statement.mapOperands,
        ← Condition.ofList_map]
      refine .update filled ?_ (filtered.fill literals m)
      rwa [List.map_map]
  | delete filtered => exact .delete (filtered.fill literals m)

theorem Derives.fill {s : Statement} (h : Derives tokens s) :
    Derives (Grammar.fill literal 0 tokens) (s.mapOperands (.fill value)) := by
  cases h with
  | plain sentence => exact .plain (sentence.fill literals 0)
  | closed sentence =>
      rw [fill_append]
      exact .closed (sentence.fill literals 0)

end Grammar

/-! ## Texts with literals for parameters -/

/-- A text with spellings in the places of its placeholders, which are numbered, and blanks around
    each of them. -/
def substitute (spelling : Nat → List Char) (n : Nat) (text : List Char) : List Char :=
  let blanks := text.takeWhile Character.isBlank
  match _hb : text.dropWhile Character.isBlank with
  | [] => blanks
  | c :: rest =>
    match _hs : Token.split? (c :: rest) with
    | none => blanks ++ c :: rest
    | some (.placeholder, rest') =>
      blanks ++ ' ' :: (spelling n ++ ' ' :: substitute spelling (n + 1) rest')
    | some (_, rest') =>
      let lexeme := (c :: rest).take ((c :: rest).length - rest'.length)
      blanks ++ (lexeme ++ substitute spelling n rest')
termination_by text.length
decreasing_by
  all_goals
    have h := Token.length_dropWhile_le Character.isBlank text
    have := Token.length_split? _hs
    rw [_hb] at h
    omega

variable {spelling : Nat → List Char} {n : Nat} {blanks lexeme rest : List Char} {token : Token}

theorem substitute_of_blank (blank : ∀ c ∈ blanks, Character.isBlank c) :
    substitute spelling n blanks = blanks := by
  obtain ⟨taken, nothing⟩ := Token.split_eq_iff.mpr ⟨(List.append_nil blanks).symm, blank, nofun⟩
  rw [substitute, taken]
  split
  · rfl
  · rename_i dropped
    rw [nothing] at dropped
    cases dropped

theorem substitute_of_token (blank : ∀ c ∈ blanks, Character.isBlank c)
    (spells : token.Spells lexeme) (ends : token.EndsAt rest) :
    substitute spelling n (blanks ++ (lexeme ++ rest)) =
      blanks ++ if token = .placeholder
        then ' ' :: (spelling n ++ ' ' :: substitute spelling (n + 1) rest)
        else lexeme ++ substitute spelling n rest := by
  have split := Token.split?_eq_some_iff.mpr ⟨lexeme, spells, rfl, ends⟩
  obtain ⟨c, cs, rfl, some⟩ := spells.not_blank
  obtain ⟨taken, dropped⟩ : (blanks ++ (c :: cs ++ rest)).takeWhile Character.isBlank = blanks ∧
      (blanks ++ (c :: cs ++ rest)).dropWhile Character.isBlank = c :: (cs ++ rest) :=
    Token.split_eq_iff.mpr ⟨rfl, blank, by rintro _ ⟨⟩; exact some⟩
  rw [List.cons_append] at split
  rw [substitute, taken]
  split
  · rename_i nothing
    rw [dropped] at nothing
    cases nothing
  · rename_i found
    rw [dropped] at found
    cases found
    split
    · rename_i none
      rw [none] at split
      cases split
    · rename_i found
      rw [found] at split
      cases split
      rw [if_pos rfl]
    · rename_i other found
      rw [found] at split
      cases split
      have cut : (c :: (cs ++ rest)).take ((c :: (cs ++ rest)).length - rest.length) = c :: cs := by
        rw [← List.cons_append, List.length_append, Nat.add_sub_cancel, List.take_left]
      rw [if_neg other, cut]

theorem Renders.endsAt_substitute {tokens : List Token} (renders : Renders tokens rest)
    (ends : token.EndsAt rest) : token.EndsAt (substitute spelling n rest) := by
  cases renders with
  | nil blank => rwa [substitute_of_blank blank]
  | @cons token' _ blanks lexeme _ blank spells ends' tail =>
      rw [substitute_of_token blank spells ends']
      cases blanks with
      | cons c blanks => exact ends
      | nil =>
          split
          · exact token.endsAt_space _
          · obtain ⟨c, cs, rfl, -⟩ := spells.not_blank
            exact ends

theorem Renders.substitute {value : Nat → Value} {tokens : List Token} {text : List Char}
    (h : Renders tokens text)
    (spelled : ∀ number, n ≤ number → number < n + tokens.count .placeholder →
      (value number).spelling? = some (spelling number)) :
    Renders (Grammar.fill (fun number => (value number).tokens) n tokens)
      (substitute spelling n text) := by
  induction h generalizing n with
  | nil blank =>
      rw [substitute_of_blank blank]
      exact .nil blank
  | @cons token tokens blanks lexeme rest blank spells ends tail ih =>
      rw [substitute_of_token blank spells ends]
      by_cases placeholder : token = .placeholder
      · subst placeholder
        rw [List.count_cons_self] at spelled
        rw [if_pos rfl, Grammar.fill]
        have here := spelled n (by omega) (by omega)
        have later := ih (n := n + 1) fun number above below =>
          spelled number (by omega) (by omega)
        have spaced : Renders _ (' ' :: _) := (Renders.spelling here later).blank rfl
        exact spaced.append_blanks blank
      · rw [List.count_cons_of_ne placeholder] at spelled
        rw [if_neg placeholder, Grammar.fill_cons placeholder]
        exact .cons blank spells (tail.endsAt_substitute ends) (ih spelled)

/-- A text with literals in the places of its placeholders. -/
def withLiterals (spellings : List (List Char)) (text : String) : String :=
  String.ofList (substitute (fun number => spellings.getD number []) 0 text.toList)

theorem Value.spelling?_getD {params : List Value} {spellings : List (List Char)}
    (spelled : params.mapM spelling? = some spellings) {number : Nat}
    (below : number < params.length) :
    (params.getD number .null).spelling? = some (spellings.getD number []) := by
  induction params generalizing spellings number with
  | nil => cases below
  | cons v params ih =>
      rw [List.mapM_cons] at spelled
      simp only [Option.bind_eq_bind, Option.bind_eq_some_iff] at spelled
      obtain ⟨first, here, others, later, same⟩ := spelled
      cases same
      cases number with
      | zero => exact here
      | succ number => exact ih later (Nat.lt_of_succ_lt_succ below)

/-- Parameters are literals: no text in a parameter can change what a statement means. -/
theorem Statement.plan_withLiterals {text : String} {s : Statement} {params : List Value}
    {spellings : List (List Char)} (parsed : parse text = .ok s)
    (enough : params.length = s.parameterCount)
    (spelled : params.mapM Value.spelling? = some spellings) :
    ∃ s', parse (withLiterals spellings text) = .ok s' ∧ s'.parameterCount = 0 ∧
      s'.plan [] = s.plan params := by
  obtain ⟨tokens, renders, derived⟩ := parse_eq_ok_iff.mp parsed
  have counted := parameterCount_eq derived
  obtain ⟨value, given⟩ : ∃ value : Nat → Value, ∀ number, value number = params.getD number .null :=
    ⟨_, fun _ => rfl⟩
  have spells (number : Nat) (below : number < params.length) :
      (value number).spelling? = some (spellings.getD number []) := by
    rw [given]
    exact Value.spelling?_getD spelled below
  have literals : Grammar.Literals (fun number => (value number).tokens) value := by
    intro number n
    by_cases below : number < params.length
    · exact Value.place_of_spelling? (spells number below) n
    · have beyond : value number = .null := by simp [given, below]
      dsimp only
      rw [beyond]
      exact .null
  have filled := Renders.substitute renders (n := 0) fun number _ below =>
    spells number (by omega)
  refine ⟨s.mapOperands (.fill value), ?_, parameterCount_fill value s, plan_fill (by omega) ?_⟩
  · apply parse_eq_ok_iff.mpr
    rw [withLiterals, String.toList_ofList]
    exact ⟨_, filled, derived.fill literals⟩
  · intro number member
    have below := lt_of_mem_operands derived member
    rw [← enough] at below
    simp [given, below]

/-- Quotes, signs and words in a parameter stay inside the literal. -/
theorem Statement.plan_with_quoted_parameter :
    let text := "UPDATE t SET b = ?, a = ? WHERE c = '?'"
    let params := [.text "' WHERE c = ?", .integer Int64.minValue]
    let filled := "UPDATE t SET b =  ''' WHERE c = ?' , a =  -9223372036854775808  WHERE c = '?'"
    ∃ s s', parse text = .ok s ∧ parse filled = .ok s' ∧ s'.parameterCount = 0 ∧
      s'.plan [] = s.plan params := by
  intro text params filled
  let s : Statement := .update "t" (.ofList [("b", .parameter 0), ("a", .parameter 1)])
    (some ⟨"c", .literal (.text "?")⟩)
  have parsed : parse text = .ok s := by decide +kernel
  have spelled : params.mapM Value.spelling? =
      some ["''' WHERE c = ?'".toList, "-9223372036854775808".toList] := by decide +kernel
  have written : withLiterals ["''' WHERE c = ?'".toList, "-9223372036854775808".toList] text =
      filled := by decide +kernel
  have enough : params.length = s.parameterCount := by decide +kernel
  obtain ⟨s', parsed', none, same⟩ := plan_withLiterals parsed enough spelled
  rw [written] at parsed'
  exact ⟨s, s', parsed, parsed', none, same⟩

end Tabular

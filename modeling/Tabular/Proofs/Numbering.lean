import Tabular.Proofs.Grammar
import Tabular.Proofs.SortedMaps

/-! # The numbers of parameters

The parameters of a statement are numbered from zero in the order of the text, each placeholder
taking the next number.
-/

namespace Tabular

/-- The number of a parameter. -/
def Operand.number? : Operand → Option Nat
  | .literal _ => none
  | .parameter number => some number

namespace Grammar

/-- Each placeholder among the tokens is one of the operands, and their numbers are the next ones. -/
structure Numbered (n : Nat) (tokens : List Token) (operands : List Operand) (n' : Nat) : Prop where
  counted : n' = n + tokens.count .placeholder
  numbers : (operands.filterMap Operand.number?).Perm
    (List.range' n (tokens.count .placeholder))

variable {α : Type} {n m n' : Nat} {tokens tokens' : List Token} {operands operands' : List Operand}

theorem Numbered.plain (none : .placeholder ∉ tokens) : Numbered n tokens [] n := by
  have := List.count_eq_zero.mpr none
  constructor <;> simp [this]

/-- Tokens of a part without operands hold no placeholder. -/
theorem Numbered.not_mem (h : Numbered n tokens [] n') : .placeholder ∉ tokens := by
  rw [← List.count_eq_zero]
  simpa using h.numbers.length_eq.symm

theorem Numbered.unmoved (h : Numbered n tokens [] n') : n' = n := by
  rw [h.counted, List.count_eq_zero.mpr h.not_mem, Nat.add_zero]

theorem Numbered.append (first : Numbered n tokens operands m)
    (second : Numbered m tokens' operands' n') :
    Numbered n (tokens ++ tokens') (operands ++ operands') n' := by
  obtain ⟨rfl, numbers⟩ := first
  obtain ⟨rfl, numbers'⟩ := second
  constructor
  · rw [List.count_append]
    omega
  · rw [List.count_append, List.filterMap_append, ← List.range'_append_1]
    exact numbers.append numbers'

theorem Numbered.cons {token : Token} (other : token ≠ .placeholder)
    (h : Numbered n tokens operands n') : Numbered n (token :: tokens) operands n' := by
  have head : .placeholder ∉ [token] := by simpa using other.symm
  exact append (plain head) h

theorem Numbered.concat {token : Token} (other : token ≠ .placeholder)
    (h : Numbered n tokens operands n') : Numbered n (tokens ++ [token]) operands n' := by
  have last : .placeholder ∉ [token] := by simpa using other.symm
  have := append h (plain last)
  rwa [List.append_nil] at this

theorem Numbered.perm (same : operands'.Perm operands) (h : Numbered n tokens operands n') :
    Numbered n tokens operands' n' :=
  ⟨h.counted, (same.filterMap _).trans h.numbers⟩

theorem Separated.numbered {Item : Phrase α} {values : α → List Operand} {items : List α}
    (listed : Separated Item n tokens items n')
    (item : ∀ n tokens a n', Item n tokens a n' → Numbered n tokens (values a) n') :
    Numbered n tokens (items.flatMap values) n' := by
  induction listed with
  | one phrase => simpa using item _ _ _ _ phrase
  | more phrase _ ih => exact (item _ _ _ _ phrase).append (.cons nofun ih)

theorem Separated.unnumbered {Item : Phrase α} {items : List α}
    (listed : Separated Item n tokens items n')
    (item : ∀ n tokens a n', Item n tokens a n' → Numbered n tokens [] n') :
    Numbered n tokens [] n' := by
  have := listed.numbered item
  rwa [List.flatMap_eq_nil_iff.mpr fun _ _ => rfl] at this

theorem Name.numbered {name : String} (h : Name n tokens name n') : Numbered n tokens [] n' := by
  cases h
  exact .plain nofun


theorem TypeName.numbered {type : DataType} (h : TypeName n tokens type n') :
    Numbered n tokens [] n' := by
  cases h <;> exact .plain nofun

theorem Constraint.not_mem_tokens (constraints : List Constraint) :
    .placeholder ∉ constraints.flatMap Constraint.tokens := by
  intro member
  obtain ⟨k, -, member⟩ := List.mem_flatMap.mp member
  cases k with
  | primaryKey | unique => simp [tokens] at member
  | nullable allowed => cases allowed <;> simp [tokens] at member

theorem Definition.numbered {spec : ColumnSpec} (h : Definition n tokens spec n') :
    Numbered n tokens [] n' := by
  cases h with
  | column constraints typed =>
      exact .cons nofun (typed.numbered.append (.plain (Constraint.not_mem_tokens constraints)))

theorem Place.numbered {o : Operand} (h : Place n tokens o n') : Numbered n tokens [o] n' := by
  cases h <;> exact ⟨rfl, .refl _⟩

theorem Equation.numbered {condition : Condition Operand} (h : Equation n tokens condition n') :
    Numbered n tokens [condition.value] n' := by
  cases h with
  | equation place => exact .cons nofun (.cons nofun place.numbered)

theorem Filter.numbered {filter : Option (Condition Operand)} (h : Filter n tokens filter n') :
    Numbered n tokens (filter.toList.map (·.value)) n' := by
  cases h with
  | none => exact .plain nofun
  | where_ equation => exact .cons nofun equation.numbered

theorem Join.numbered {join : Option JoinSpec} (h : Join n tokens join n') :
    Numbered n tokens [] n' := by
  cases h with
  | none => exact .plain nofun
  | join spelled => cases spelled <;> exact .plain (by simp)

theorem Limit.numbered {count : Option Nat} (h : Limit n tokens count n') :
    Numbered n tokens [] n' := by
  cases h <;> exact .plain (by simp)

theorem Selection.numbered {columns : List String} (h : Selection n tokens columns n') :
    Numbered n tokens [] n' := by
  cases h with
  | all => exact .plain (by simp)
  | columns listed => exact listed.unnumbered fun _ _ _ _ => Name.numbered

theorem Listing.numbered {columns : Option (List String)} (h : Listing n tokens columns n') :
    Numbered n tokens [] n' := by
  cases h with
  | none => exact .plain nofun
  | columns listed =>
      have names := listed.unnumbered fun _ _ _ _ => Name.numbered
      exact .cons nofun (names.concat nofun)

theorem Sentence.numbered {s : Statement} (h : Sentence n tokens s n') :
    Numbered n tokens s.operands n' := by
  cases h with
  | createTable defined =>
      have columns := defined.unnumbered fun _ _ _ _ => Definition.numbered
      exact .cons nofun (.cons nofun (.cons nofun (.cons nofun (.concat nofun columns))))
  | createIndex => exact .plain (by simp)
  | insert listed places =>
      have values : Numbered _ _ _ n' := places.numbered fun _ _ _ _ => Place.numbered
      rw [List.flatMap_singleton'] at values
      exact .cons nofun (.cons nofun (.cons nofun (listed.numbered.append
        (.cons nofun (.cons nofun (.concat nofun values))))))
  | select selected joined filtered limited =>
      have parts := joined.numbered.append (filtered.numbered.append limited.numbered)
      rw [List.append_nil] at parts
      exact .cons nofun (selected.numbered.append (.cons nofun (.cons nofun parts)))
  | @update _ _ _ _ _ assignments _ filter assigned different filtered =>
      have values := assigned.numbered fun _ _ _ _ => Equation.numbered
      rw [← List.map_eq_flatMap] at values
      refine .cons nofun (.cons nofun (.cons nofun ((values.append filtered.numbered).perm ?_)))
      apply List.Perm.append_right
      have keys : ((assignments.map fun a => (a.column, a.value)).map (·.1)).Nodup := by
        rwa [List.map_map]
      have entries := (SortedMap.perm_toList_ofList keys).map (·.2)
      rwa [List.map_map] at entries
  | delete filtered => exact .cons nofun (.cons nofun (.cons nofun filtered.numbered))

theorem Derives.numbered {s : Statement} (h : Derives tokens s) :
    ∃ n, Numbered 0 tokens s.operands n := by
  cases h with
  | plain sentence => exact ⟨_, sentence.numbered⟩
  | closed sentence => exact ⟨_, sentence.numbered.concat nofun⟩

end Grammar

theorem Operand.isSome_number? (o : Operand) : o.number?.isSome = o.isParameter := by
  cases o <;> rfl

namespace Statement

variable {tokens : List Token} {s : Statement}

/-- A statement has as many parameters as its text has placeholders. -/
theorem parameterCount_eq (h : Grammar.Derives tokens s) :
    s.parameterCount = tokens.count .placeholder := by
  obtain ⟨n, numbered⟩ := h.numbered
  have lengths := numbered.numbers.length_eq
  rw [List.length_filterMap_eq_countP, List.length_range'] at lengths
  simp only [Operand.isSome_number?] at lengths
  exact lengths

theorem lt_of_mem_operands (h : Grammar.Derives tokens s) {number : Nat}
    (member : .parameter number ∈ s.operands) : number < s.parameterCount := by
  obtain ⟨n, numbered⟩ := h.numbered
  have : number ∈ s.operands.filterMap Operand.number? :=
    List.mem_filterMap.mpr ⟨_, member, rfl⟩
  rw [numbered.numbers.mem_iff, List.mem_range'_1] at this
  rw [parameterCount_eq h]
  omega

end Statement

end Tabular

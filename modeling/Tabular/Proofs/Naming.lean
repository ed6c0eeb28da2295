import Tabular.Proofs.Effects
import Tabular.Proofs.Recognition

/-! # Names in statements

A name in a statement is a word of the text. So every table that a statement creates has a name, and
one without signs or blanks.
-/

namespace Tabular

/-- A name is a word. -/
def IsWord (name : String) : Prop := name ≠ "" ∧ ∀ c ∈ name.toList, Token.continuesWord c

theorem Token.continuesWord_of_startsWord {c : Char} (h : startsWord c) : continuesWord c := by
  simp only [startsWord, continuesWord, Character.isAlphanumeric, Bool.or_eq_true] at h ⊢
  exact h.imp_right .inl

theorem Token.Spells.isWord {name : String} {lexeme : List Char}
    (h : Spells (.ident name) lexeme) : IsWord name := by
  generalize same : Token.ident name = token at h
  cases h with
  | @word c cs starts continues =>
      rw [ofWord] at same
      cases found : Keyword.ofWord? (c :: cs) with
      | some k =>
          rw [found] at same
          cases same
      | none =>
          rw [found] at same
          cases same
          refine ⟨?_, ?_⟩
          · intro empty
            have := congrArg String.toList empty
            rw [String.toList_ofList] at this
            cases this
          · rw [String.toList_ofList]
            exact List.forall_mem_cons.mpr ⟨continuesWord_of_startsWord starts, continues⟩
  | string | number => cases same
  | sign stands =>
      subst same
      unfold ofSign? at stands
      split at stands <;> cases stands

theorem Renders.isWord {tokens : List Token} {text : List Char} {name : String}
    (h : Renders tokens text) (member : .ident name ∈ tokens) : IsWord name := by
  induction h with
  | nil => cases member
  | cons _ spells _ _ ih =>
      obtain same | later := List.mem_cons.mp member
      · rw [← same] at spells
        exact spells.isWord
      · exact ih later

theorem Grammar.Sentence.ident_mem {n n' : Nat} {tokens : List Token} {name : String}
    {columns : List ColumnSpec} (h : Sentence n tokens (.createTable name columns) n') :
    .ident name ∈ tokens := by
  cases h with
  | createTable => simp

theorem Grammar.Derives.ident_mem {tokens : List Token} {name : String}
    {columns : List ColumnSpec} (h : Derives tokens (.createTable name columns)) :
    .ident name ∈ tokens := by
  cases h with
  | plain sentence => exact sentence.ident_mem
  | closed sentence => exact List.mem_append_left _ sentence.ident_mem

/-- The name of a table that a text creates is a word of the text. -/
theorem Statement.isWord_of_parse {text name : String} {columns : List ColumnSpec}
    (h : parse text = .ok (.createTable name columns)) : IsWord name := by
  obtain ⟨tokens, renders, derived⟩ := parse_eq_ok_iff.mp h
  exact renders.isWord derived.ident_mem

theorem Plan.isWord_of_text {text : String} {params : List Value} {schema : Table}
    (h : ofText text params = .ok (.createTable schema)) : IsWord schema.name := by
  obtain ⟨statement, parsed, planned⟩ := Fallible.bind_eq_ok.mp h
  rw [Statement.plan] at planned
  split at planned
  · cases planned
  · obtain ⟨name, columns, rfl⟩ := (createTable_iff_of_bind planned).mpr ⟨schema, rfl⟩
    cases planned
    exact Statement.isWord_of_parse (Fallible.mapError_eq_ok.mp parsed)

theorem Catalog.isWord_of_created {c : Catalog} (sound : c.Sound) {text : String}
    {params : List Value} {outcome : Outcome} {t : Table}
    (h : c.effect text params = .ok (.created outcome t)) : IsWord t.name := by
  obtain ⟨plan, read, made⟩ := Fallible.bind_eq_ok.mp h
  rcases plan.effect_cases sound made with ⟨_, same, -⟩ | ⟨_, _, same, -⟩ | ⟨schema, rfl, same, -⟩
  · cases same
  · cases same
  · cases same
    exact Plan.isWord_of_text read

end Tabular

import Tabular.Proofs.Substitution

/-! # Values in their places

Each placeholder of a text stands in a place of the statement and is numbered by the placeholders
before it. A plan holds in the same place the parameter of that number, and it needs as many
parameters as there are placeholders.
-/

namespace Tabular

/-- A place where a value is wanted. -/
inductive Slot where
  /-- A value of a new row, by its number. -/
  | value (number : Nat)
  /-- The new value of a column. -/
  | assignment (column : String)
  /-- The value that a column is compared with. -/
  | condition (column : String)
  deriving DecidableEq

/-- The tokens of a statement before a place in it. -/
inductive Slot.Follows : Slot → List Token → Prop
  | first {before} : Follows (.value 0) (before ++ [.keyword .values, .openParen])
  | next {before item number} (previous : Follows (.value number) before) (single : .comma ∉ item) :
    Follows (.value (number + 1)) (before ++ (item ++ [.comma]))
  | assignment {before separator column}
      (separates : separator = .keyword .set ∨ separator = .comma) :
    Follows (.assignment column) (before ++ [separator, .ident column, .equal])
  | condition {before column} :
    Follows (.condition column) (before ++ [.keyword .where_, .ident column, .equal])

/-- The value of a condition on a column, if there is one. -/
def Condition.on? {α : Type} (column : String) (condition : Option (Condition α)) : Option α :=
  match condition with
  | some c => if c.column = column then some c.value else none
  | none => none

/-- The operand in a place of a statement. -/
def Statement.operand? : Statement → Slot → Option Operand
  | .insert _ _ values, .value number => values[number]?
  | .update _ assignments _, .assignment column => assignments.get? column
  | .select _ _ _ filter _, .condition column | .update _ _ filter, .condition column
  | .delete _ filter, .condition column => Condition.on? column filter
  | _, _ => none

/-- The value in a place of a plan. A query has at most one condition, at its root or below. -/
def Plan.value? : Plan → Slot → Option Value
  | .insert _ _ values, .value number => values[number]?
  | .update _ _ assignments, .assignment column => assignments.get? column
  | .scan _ condition, .condition column | .update _ condition _, .condition column
  | .delete _ condition, .condition column => Condition.on? column condition
  | .filter _ condition, .condition column => Condition.on? column (some condition)
  | .project source _, slot | .limit source _, slot => source.value? slot
  | _, _ => none

theorem Statement.operand?_assigned {table : String} {assignments : List (Condition Operand)}
    {filter : Option (Condition Operand)} {a : Condition Operand}
    (different : (assignments.map (·.column)).Nodup) (member : a ∈ assignments) :
    (Statement.update table (.ofList (assignments.map fun a => (a.column, a.value))) filter).operand?
      (.assignment a.column) = some a.value := by
  have keys : ((assignments.map fun a => (a.column, a.value)).map (·.1)).Nodup := by
    rwa [List.map_map]
  exact SortedMap.get?_ofList_of_mem keys (List.mem_map.mpr ⟨a, member, rfl⟩)

/-! ## Placeholders among tokens -/

namespace Grammar

variable {α : Type} {n n' : Nat} {tokens before after left right : List Token}

/-- A placeholder in one of two parts. -/
theorem split_either (same : left ++ right = before ++ .placeholder :: after) :
    (∃ after', left = before ++ .placeholder :: after') ∨
      ∃ before', before = left ++ before' ∧ right = before' ++ .placeholder :: after := by
  obtain ⟨before', rfl, rfl⟩ | ⟨after', rfl, later⟩ := List.append_eq_append_iff.mp same
  · exact .inr ⟨before', rfl, rfl⟩
  · cases after' with
    | nil => exact .inr ⟨[], by simp, later.symm⟩
    | cons head after' =>
        cases later
        exact .inl ⟨after', rfl⟩

theorem split_right (left : List Token) (plain : .placeholder ∉ left)
    (same : left ++ right = before ++ .placeholder :: after) :
    ∃ before', before = left ++ before' ∧ right = before' ++ .placeholder :: after := by
  refine (split_either same).resolve_left ?_
  rintro ⟨after', rfl⟩
  simp at plain

theorem split_left (plain : .placeholder ∉ right)
    (same : left ++ right = before ++ .placeholder :: after) :
    ∃ after', left = before ++ .placeholder :: after' := by
  refine (split_either same).resolve_right ?_
  rintro ⟨before', -, rfl⟩
  simp at plain

theorem Place.of_split {o : Operand} (h : Place n tokens o n')
    (same : tokens = before ++ .placeholder :: after) :
    before = [] ∧ o = .parameter n := by
  cases h with
  | parameter =>
      cases before with
      | nil => exact ⟨rfl, rfl⟩
      | cons head before => simp at same
  | _ =>
      have member := congrArg (Token.placeholder ∈ ·) same
      simp at member

theorem Place.comma_not_mem {o : Operand} (h : Place n tokens o n') : .comma ∉ tokens := by
  cases h <;> simp

theorem Equation.of_split {condition : Condition Operand} (h : Equation n tokens condition n')
    (same : tokens = before ++ .placeholder :: after) :
    before = [.ident condition.column, .equal] ∧ condition.value = .parameter n := by
  cases h with
  | @equation _ _ column tokens value place =>
      obtain ⟨before', rfl, rfl⟩ :=
        split_right [.ident column, .equal] (by simp) same
      obtain ⟨rfl, rfl⟩ := place.of_split rfl
      exact ⟨rfl, rfl⟩

/-- In a list, a placeholder stands in an item. What holds of the tokens before the list and is kept
    from one item to the next one holds of those before the item. -/
theorem Separated.of_split {Item : Phrase α} {values : α → List Operand} {items : List α}
    (listed : Separated Item n tokens items n') (Before : Nat → List Token → Prop)
    (numbered : ∀ n tokens a n', Item n tokens a n' → Numbered n tokens (values a) n')
    (step : ∀ number before n tokens a n', Before number before → Item n tokens a n' →
      Before (number + 1) (before ++ (tokens ++ [.comma])))
    (number : Nat) {start : List Token} (starts : Before number start)
    (same : tokens = before ++ .placeholder :: after) :
    ∃ i lead inner m m' a after', Before (number + i) lead ∧ start ++ before = lead ++ inner ∧
      n + before.count .placeholder = m + inner.count .placeholder ∧ items[i]? = some a ∧
      Item m (inner ++ .placeholder :: after') a m' := by
  induction listed generalizing number start before with
  | @one n n' tokens a phrase =>
      subst same
      exact ⟨0, start, before, n, n', a, after, starts, rfl, rfl, rfl, phrase⟩
  | @more n m n' tokens rest a others phrase tail ih =>
      obtain ⟨after', rfl⟩ | ⟨before', rfl, later⟩ := split_either same
      · exact ⟨0, start, before, n, m, a, after', starts, rfl, rfl, rfl, phrase⟩
      · -- The placeholder is beyond the comma after the first item.
        cases before' with
        | nil => cases later
        | cons head before' =>
            obtain ⟨rfl, rfl⟩ := List.cons_eq_cons.mp later
            obtain ⟨i, lead, inner, m₁, m', b, after', holds, split, counted, found, item⟩ :=
              ih (number + 1) (step _ _ _ _ _ _ starts phrase) rfl
            refine ⟨i + 1, lead, inner, m₁, m', b, after', ?_, ?_, ?_, found, item⟩
            · rwa [Nat.add_assoc, Nat.add_comm 1] at holds
            · rw [← split]
              simp
            · have counts := (numbered _ _ _ _ phrase).counted
              have comma : Token.comma ≠ .placeholder := nofun
              rw [List.count_append, List.count_cons_of_ne comma]
              omega

/-- The tokens of a row up to one of its placeholders. -/
theorem values_of_split {values : List Operand} (places : Separated Place n tokens values n')
    (start : List Token) (same : tokens = before ++ .placeholder :: after) :
    ∃ number, (Slot.value number).Follows (start ++ [.keyword .values, .openParen] ++ before) ∧
      values[number]? = some (.parameter (n + before.count .placeholder)) := by
  obtain ⟨i, lead, inner, m, m', o, after', holds, split, counted, found, place⟩ :=
    places.of_split (fun number => (Slot.value number).Follows) (fun _ _ _ _ => Place.numbered)
      (fun _ _ _ _ _ _ previous place => .next previous place.comma_not_mem) 0
      (@Slot.Follows.first start) same
  obtain ⟨rfl, rfl⟩ := place.of_split rfl
  rw [List.append_nil] at split
  rw [split, counted]
  exact ⟨0 + i, holds, by rwa [Nat.zero_add]⟩

/-- A change of an update may come next. -/
def OpensAssignment (tokens : List Token) : Prop :=
  ∃ start separator, tokens = start ++ [separator] ∧
    (separator = .keyword .set ∨ separator = .comma)

theorem assignments_of_split {assignments : List (Condition Operand)}
    (assigned : Separated Equation n tokens assignments n') {start : List Token}
    (opens : OpensAssignment start) (same : tokens = before ++ .placeholder :: after) :
    ∃ column, (Slot.assignment column).Follows (start ++ before) ∧
      ⟨column, .parameter (n + before.count .placeholder)⟩ ∈ assignments := by
  obtain ⟨i, lead, inner, m, m', a, after', ⟨start', separator, rfl, separates⟩, split, counted,
      found, equation⟩ :=
    assigned.of_split (fun _ => OpensAssignment) (fun _ _ _ _ => Equation.numbered)
      (fun _ before _ tokens _ _ _ _ => ⟨before ++ tokens, .comma, by simp, .inr rfl⟩) 0 opens same
  obtain ⟨rfl, filled⟩ := equation.of_split rfl
  refine ⟨a.column, ?_, ?_⟩
  · rw [split, List.append_assoc]
    exact .assignment separates
  · have value : a = ⟨a.column, .parameter (n + before.count .placeholder)⟩ := by
      rw [counted, List.count_eq_zero.mpr (by simp), Nat.add_zero, ← filled]
    rw [← value]
    exact List.mem_of_getElem? found

theorem Filter.of_split {filter : Option (Condition Operand)} (h : Filter n tokens filter n')
    (start : List Token) (same : tokens = before ++ .placeholder :: after) :
    ∃ column, (Slot.condition column).Follows (start ++ before) ∧
      Condition.on? column filter = some (.parameter (n + before.count .placeholder)) := by
  cases h with
  | none => simp at same
  | @where_ _ _ tokens condition equation =>
      obtain ⟨before', rfl, rfl⟩ :=
        split_right [.keyword .where_] (by simp) same
      obtain ⟨rfl, filled⟩ := equation.of_split rfl
      refine ⟨condition.column, .condition, ?_⟩
      rw [Condition.on?, if_pos rfl, filled]
      simp

theorem Sentence.of_split {s : Statement} (h : Sentence n tokens s n')
    (same : tokens = before ++ .placeholder :: after) :
    ∃ slot : Slot, slot.Follows before ∧
      s.operand? slot = some (.parameter (n + before.count .placeholder)) := by
  -- The parts without operands hold no placeholders, so they are passed one after another.
  cases id h with
  | createTable | createIndex =>
      exact absurd (by simp [same]) h.numbered.not_mem
  | @insert _ _ _ table listing columns tokens values listed places =>
      have plain := listed.numbered.not_mem
      have absent := List.count_eq_zero.mpr plain
      obtain rfl := listed.numbered.unmoved
      obtain ⟨before₁, rfl, same₁⟩ :=
        split_right [.keyword .insert, .keyword .into, .ident table] (by simp) same
      obtain ⟨before₂, rfl, same₂⟩ := split_right _ plain same₁
      obtain ⟨before₃, rfl, same₃⟩ :=
        split_right [.keyword .values, .openParen] (by simp) same₂
      obtain ⟨after', same₄⟩ := split_left (by simp) same₃
      obtain ⟨number, follows, found⟩ := values_of_split places
        ([.keyword .insert, .keyword .into, .ident table] ++ listing) same₄
      refine ⟨.value number, by simpa using follows, ?_⟩
      simpa [Statement.operand?, absent] using found
  | @select _ _ _ _ _ selection columns table joining join filtering filter limiting count
      selected joined filtered limited =>
      have plain := selected.numbered.not_mem
      have plain' := joined.numbered.not_mem
      have absent := List.count_eq_zero.mpr plain
      have absent' := List.count_eq_zero.mpr plain'
      obtain rfl := selected.numbered.unmoved
      obtain rfl := joined.numbered.unmoved
      obtain ⟨before₁, rfl, same₁⟩ :=
        split_right [.keyword .select] (by simp) same
      obtain ⟨before₂, rfl, same₂⟩ := split_right _ plain same₁
      obtain ⟨before₃, rfl, same₃⟩ :=
        split_right [.keyword .from_, .ident table] (by simp) same₂
      obtain ⟨before₄, rfl, same₄⟩ := split_right _ plain' same₃
      obtain ⟨after', same₅⟩ := split_left limited.numbered.not_mem same₄
      obtain ⟨column, follows, found⟩ := filtered.of_split
        ([.keyword .select] ++ selection ++ [.keyword .from_, .ident table] ++ joining) same₅
      refine ⟨.condition column, by simpa using follows, ?_⟩
      simpa [Statement.operand?, absent, absent'] using found
  | @update _ m _ table tokens assignments filtering filter assigned different filtered =>
      obtain ⟨before₁, rfl, same₁⟩ :=
        split_right [.keyword .update, .ident table, .keyword .set] (by simp) same
      have opens : OpensAssignment [.keyword .update, .ident table, .keyword .set] :=
        ⟨[.keyword .update, .ident table], _, rfl, .inl rfl⟩
      obtain ⟨after', split⟩ | ⟨before₂, rfl, same₂⟩ := split_either same₁
      · obtain ⟨column, follows, member⟩ := assignments_of_split assigned opens split
        refine ⟨.assignment column, follows, ?_⟩
        simpa using Statement.operand?_assigned different member
      · obtain ⟨column, follows, found⟩ := filtered.of_split
          ([.keyword .update, .ident table, .keyword .set] ++ tokens) same₂
        have counted := (assigned.numbered fun _ _ _ _ => Equation.numbered).counted
        refine ⟨.condition column, by simpa using follows, ?_⟩
        simpa [Statement.operand?, counted, Nat.add_assoc] using found
  | @delete _ _ table filtering filter filtered =>
      obtain ⟨before₁, rfl, same₁⟩ :=
        split_right [.keyword .delete, .keyword .from_, .ident table] (by simp) same
      obtain ⟨column, follows, found⟩ := filtered.of_split
        [.keyword .delete, .keyword .from_, .ident table] same₁
      exact ⟨.condition column, follows, by simpa [Statement.operand?] using found⟩

/-- The placeholder after some tokens is an operand of the statement, in the place that they lead to
    and with the number of placeholders among them. -/
theorem Derives.of_split {s : Statement} (h : Derives tokens s)
    (same : tokens = before ++ .placeholder :: after) :
    ∃ slot : Slot, slot.Follows before ∧
      s.operand? slot = some (.parameter (before.count .placeholder)) := by
  cases h with
  | plain sentence => simpa using sentence.of_split same
  | closed sentence =>
      obtain ⟨after', same⟩ := split_left (by simp) same
      simpa using sentence.of_split same

end Grammar

/-! ## Values for operands -/

/-- The value of an operand, given enough parameters. -/
def Operand.value (params : List Value) : Operand → Value
  | .literal v => v
  | .parameter number => params.getD number .null

theorem Operand.bind_eq_ok {params : List Value} {o : Operand}
    (given : ∀ number, o = .parameter number → number < params.length) :
    o.bind params = .ok (o.value params) := by
  cases o with
  | literal v => rfl
  | parameter number =>
      have below := given number rfl
      simp [Operand.bind, value, below]

namespace Statement

/-- The plan of a statement with a value for each operand. -/
def resolve (value : Operand → Value) : Statement → Plan
  | .createTable name columns => .createTable (.new name (columns.map (·.column)))
  | .createIndex name table column => .createIndex name table column
  | .insert table columns values => .insert table (columns.getD []) (values.map value)
  | .select columns table join filter count =>
    (Plan.source table (filter.map (.map value)) join).query columns count
  | .update table assignments filter =>
    .update table (filter.map (.map value)) (assignments.mapValues value)
  | .delete table filter => .delete table (filter.map (.map value))

variable {params : List Value} {value : Operand → Value} {s : Statement}

theorem mapM_filter {filter : Option (Condition Operand)}
    (bound : ∀ o ∈ filter.toList.map (·.value), o.bind params = .ok (value o)) :
    filter.mapM (Condition.bind params) = .ok (filter.map (.map value)) := by
  cases filter with
  | none => rfl
  | some condition =>
      have here := bound condition.value (by simp)
      rw [Option.mapM_some, Condition.bind, here]
      rfl

theorem bind_eq_resolve (bound : ∀ o ∈ s.operands, o.bind params = .ok (value o)) :
    s.bind params = .ok (s.resolve value) := by
  cases s with
  | createTable | createIndex => rfl
  | insert table columns values =>
      have read : values.mapM (Operand.bind params) = .ok (values.map value) :=
        Fallible.mapM_eq_ok_map bound
      rw [bind, read]
      rfl
  | select columns table join filter count =>
      rw [bind, mapM_filter bound]
      rfl
  | update table assignments filter =>
      rw [operands, List.forall_mem_append] at bound
      obtain ⟨assigned, filtered⟩ := bound
      have entries : assignments.mapM (Operand.bind params) = .ok (assignments.mapValues value) := by
        have read : assignments.toList.mapM (fun e => do return (e.1, ← e.2.bind params)) =
            .ok (assignments.mapValues value).toList := by
          apply Fallible.mapM_eq_ok_map
          intro e member
          rw [assigned e.2 (List.mem_map.mpr ⟨e, member, rfl⟩)]
          rfl
        rw [SortedMap.mapM, read, Fallible.ok_bind, SortedMap.ofList_toList]
        rfl
      rw [bind, mapM_filter filtered]
      simp only [Fallible.ok_bind, entries]
      rfl
  | delete table filter =>
      rw [bind, mapM_filter bound]
      rfl

theorem bound_of_mapM_filter {filter : Option (Condition Operand)}
    {condition : Option (Condition Value)} (h : filter.mapM (Condition.bind params) = .ok condition) :
    ∀ o ∈ filter.toList.map (·.value), ∃ v, o.bind params = .ok v := by
  cases filter with
  | none => nofun
  | some f =>
      intro o member
      obtain ⟨c, read, -⟩ := Fallible.map_eq_ok.mp h
      obtain ⟨v, bound, -⟩ := Fallible.bind_eq_ok.mp read
      obtain rfl : o = f.value := by simpa using member
      exact ⟨v, bound⟩

theorem bound_of_bind {plan : Plan} (h : s.bind params = .ok plan) :
    ∀ o ∈ s.operands, ∃ v, o.bind params = .ok v := by
  cases s with
  | createTable | createIndex => nofun
  | insert table columns values =>
      obtain ⟨_, read, -⟩ := Fallible.bind_eq_ok.mp h
      intro o member
      obtain ⟨v, -, bound⟩ := Fallible.mem_of_mapM_eq_ok read o member
      exact ⟨v, bound⟩
  | select columns table join filter count =>
      obtain ⟨_, read, -⟩ := Fallible.bind_eq_ok.mp h
      exact bound_of_mapM_filter read
  | update table assignments filter =>
      obtain ⟨_, read, h⟩ := Fallible.bind_eq_ok.mp h
      obtain ⟨_, assigned, -⟩ := Fallible.bind_eq_ok.mp h
      obtain ⟨_, entries, -⟩ := Fallible.bind_eq_ok.mp assigned
      refine List.forall_mem_append.mpr ⟨fun o member => ?_, bound_of_mapM_filter read⟩
      obtain ⟨e, entry, rfl⟩ := List.mem_map.mp member
      obtain ⟨_, -, bound⟩ := Fallible.mem_of_mapM_eq_ok entries e entry
      obtain ⟨v, bound, -⟩ := Fallible.bind_eq_ok.mp bound
      exact ⟨v, bound⟩
  | delete table filter =>
      obtain ⟨_, read, -⟩ := Fallible.bind_eq_ok.mp h
      exact bound_of_mapM_filter read

end Statement

/-! ## Places of a plan -/

theorem Condition.on?_map {α β : Type} (f : α → β) (column : String)
    (condition : Option (Condition α)) :
    on? column (condition.map (.map f)) = (on? column condition).map f := by
  cases condition with
  | none => rfl
  | some c =>
      simp only [Option.map_some, on?, map]
      split <;> rfl

namespace Plan

theorem value?_query (source : Plan) (columns : List String) (count : Option Nat) (slot : Slot) :
    (source.query columns count).value? slot = source.value? slot := by
  have projected : (if columns = [] then source else source.project columns).value? slot =
      source.value? slot := by
    split <;> rfl
  cases count with
  | none => exact projected
  | some n => exact projected

theorem value?_source (table : String) (condition : Option (Condition Value))
    (join : Option JoinSpec) (slot : Slot) : (source table condition join).value? slot =
      match slot with
      | .condition column => Condition.on? column condition
      | _ => none := by
  cases join with
  | none => cases slot <;> rfl
  | some spec => cases condition <;> cases slot <;> rfl

end Plan

namespace Statement

variable {tokens : List Token} {params : List Value} {s : Statement}

theorem value?_resolve (s : Statement) (value : Operand → Value) (slot : Slot) :
    (s.resolve value).value? slot = (s.operand? slot).map value := by
  cases s with
  | createTable | createIndex => rfl
  | insert table columns values =>
      cases slot with
      | value number => exact List.getElem?_map
      | assignment | condition => rfl
  | select columns table join filter count =>
      rw [resolve, Plan.value?_query, Plan.value?_source]
      cases slot with
      | condition column => exact Condition.on?_map value column filter
      | value | assignment => rfl
  | update table assignments filter =>
      cases slot with
      | value number => rfl
      | assignment column => exact SortedMap.get?_mapValues value assignments column
      | condition column => exact Condition.on?_map value column filter
  | delete table filter =>
      cases slot with
      | condition column => exact Condition.on?_map value column filter
      | value | assignment => rfl

/-- Each place of a plan holds what stands in that place of the statement: the literal, or the
    parameter of the number. -/
structure Fills (s : Statement) (params : List Value) (plan : Plan) : Prop where
  literal {slot : Slot} {v : Value} : s.operand? slot = some (.literal v) → plan.value? slot = some v
  parameter {slot : Slot} {number : Nat} : s.operand? slot = some (.parameter number) →
    plan.value? slot = params[number]?
  empty {slot : Slot} : s.operand? slot = none → plan.value? slot = none

theorem mem_operands_of_on? {column : String} {filter : Option (Condition Operand)} {o : Operand}
    (h : Condition.on? column filter = some o) : o ∈ filter.toList.map (·.value) := by
  cases filter with
  | none => cases h
  | some condition =>
      obtain ⟨-, same⟩ := Option.ite_none_right_eq_some.mp h
      cases same
      exact List.mem_singleton_self _

theorem mem_operands_of_operand? {slot : Slot} {o : Operand} (h : s.operand? slot = some o) :
    o ∈ s.operands := by
  cases s with
  | createTable | createIndex => cases h
  | insert table columns values =>
      cases slot with
      | value number => exact List.mem_of_getElem? h
      | assignment | condition => cases h
  | select columns table join filter count =>
      cases slot with
      | condition column => exact mem_operands_of_on? h
      | value | assignment => cases h
  | update table assignments filter =>
      cases slot with
      | value number => cases h
      | assignment column =>
          have entry : (column, o) ∈ assignments.toList := SortedMap.mem_toList_iff.mpr h
          exact List.mem_append_left _ (List.mem_map.mpr ⟨_, entry, rfl⟩)
      | condition column => exact List.mem_append_right _ (mem_operands_of_on? h)
  | delete table filter =>
      cases slot with
      | condition column => exact mem_operands_of_on? h
      | value | assignment => cases h

theorem fills_resolve (given : ∀ number, .parameter number ∈ s.operands → number < params.length) :
    s.Fills params (s.resolve (Operand.value params)) where
  literal h := by rw [value?_resolve, h]; rfl
  parameter {slot number} h := by
    have below := given number (mem_operands_of_operand? h)
    simp [value?_resolve, h, Operand.value, below]
  empty h := by rw [value?_resolve, h]; rfl

/-- Enough values are bound, and values beyond those needed are not used. -/
theorem bind_append (given : ∀ number, .parameter number ∈ s.operands → number < params.length)
    (more : List Value) : s.bind (params ++ more) = .ok (s.resolve (Operand.value params)) := by
  apply bind_eq_resolve
  intro o member
  cases o with
  | literal v => rfl
  | parameter number =>
      have below := given number member
      simp [Operand.bind, Operand.value, below, List.getElem?_append_left]

/-- Without enough values there is a parameter that has none. -/
theorem bind_eq_error (missing : .parameter params.length ∈ s.operands) :
    ∃ e, s.bind params = .error e := by
  cases bound : s.bind params with
  | error e => exact ⟨e, rfl⟩
  | ok plan =>
      obtain ⟨v, read⟩ := bound_of_bind bound _ missing
      simp [Operand.bind] at read

/-- A statement has as many parameters as its text has placeholders, numbered in the order of the
    text. It is planned, with or without the check on their number, exactly if there are that many
    values; the plan has each in its place, and further values do not matter. -/
theorem parameters_in_place {text : String} (parsed : parse text = .ok s) (params : List Value) :
    let tokens := (TokenStream.ofText text).tokens
    let count := tokens.count .placeholder
    s.parameterCount = count ∧
      (s.operands.filterMap Operand.number?).Perm (List.range count) ∧
      (∀ before after, tokens = before ++ .placeholder :: after → ∃ slot : Slot,
        slot.Follows before ∧
          s.operand? slot = some (.parameter (before.count .placeholder))) ∧
      (count ≤ params.length → ∃ plan, s.plan params = .ok plan ∧ s.bind params = .ok plan ∧
        s.Fills params plan ∧ ∀ more, s.plan (params ++ more) = .ok plan) ∧
      (params.length < count →
        s.plan params = .error (.missingParameters count params.length) ∧
          ∃ e, s.bind params = .error e) := by
  intro tokens count
  obtain ⟨tokens', split, derived⟩ := parse_eq_ok_iff_derives.mp parsed
  obtain rfl : tokens = tokens' := by simp [tokens, split]
  have counted : s.parameterCount = count := parameterCount_eq derived
  have numbered : (s.operands.filterMap Operand.number?).Perm (List.range count) := by
    obtain ⟨n, numbered⟩ := derived.numbered
    rw [List.range_eq_range']
    exact numbered.numbers
  refine ⟨counted, numbered, fun before after => derived.of_split, fun enough => ?_, fun few => ?_⟩
  · have given (number : Nat) (member : .parameter number ∈ s.operands) :
        number < params.length :=
      Nat.lt_of_lt_of_le (lt_of_mem_operands derived member) (counted ▸ enough)
    have bound := bind_append given
    have exactly := bound []
    rw [List.append_nil] at exactly
    refine ⟨_, ?_, exactly, fills_resolve given, fun more => ?_⟩
    · rw [plan, if_neg (by omega)]
      exact exactly
    · rw [plan, if_neg (by rw [List.length_append]; omega)]
      exact bound more
  · have missing : params.length ∈ s.operands.filterMap Operand.number? :=
      numbered.mem_iff.mpr (List.mem_range.mpr few)
    obtain ⟨o, member, number⟩ := List.mem_filterMap.mp missing
    constructor
    · rw [plan, if_pos (by omega), counted]
      rfl
    · cases o with
      | literal v => cases number
      | parameter n =>
          cases number
          exact bind_eq_error member

/-- The first placeholder is for a column that comes later in the order of names, and the condition
    is bound before the assignments. -/
theorem assigned_against_the_order :
    let text := "UPDATE t SET b = ?, a = ? WHERE c = ?"
    let params := [.float ⟨0x7ff8000000000000⟩, .text "?", .null, .boolean true]
    ∃ s plan, parse text = .ok s ∧ s.plan params = .ok plan ∧
      plan.value? (.assignment "b") = params[0]? ∧ plan.value? (.assignment "a") = params[1]? ∧
      plan.value? (.condition "c") = params[2]? := by
  intro text params
  let s : Statement := .update "t" (.ofList [("b", .parameter 0), ("a", .parameter 1)])
    (some ⟨"c", .parameter 2⟩)
  have parsed : parse text = .ok s := by decide +kernel
  obtain ⟨counted, -, -, success, -⟩ := parameters_in_place parsed params
  have enough : s.parameterCount ≤ params.length := by decide +kernel
  obtain ⟨plan, planned, -, fills, -⟩ := success (counted ▸ enough)
  exact ⟨s, plan, parsed, planned, fills.parameter (by decide +kernel),
    fills.parameter (by decide +kernel), fills.parameter (by decide +kernel)⟩

end Statement

end Tabular

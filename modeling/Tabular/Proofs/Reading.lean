import Mathlib.Data.List.Induction
import Tabular.Proofs.Fallible
import Tabular.Proofs.Grammar
import Tabular.Statement.Parser

/-! # What readers take

A reader reads a kind of phrase if it succeeds on the tokens of such a phrase and on nothing else.
Phrases with an open end are read as far as they go, so what follows must not be part of them.
-/

namespace Tabular.Parser

open Grammar

variable {α β : Type}

/-! ## Single tokens -/

theorem bind_eq_ok {p : Parser α} {f : α → Parser β} {c : Cursor} {result : β × Cursor} :
    (p >>= f) c = .ok result ↔ ∃ a c', p c = .ok (a, c') ∧ f a c' = .ok result := by
  change (p c >>= fun e => f e.1 e.2) = _ ↔ _
  rw [Fallible.bind_eq_ok]
  exact ⟨fun ⟨⟨a, c'⟩, first, second⟩ => ⟨a, c', first, second⟩,
    fun ⟨a, c', first, second⟩ => ⟨(a, c'), first, second⟩⟩

theorem bind_of_ok {p : Parser α} {c c' : Cursor} {a : α} (h : p c = .ok (a, c'))
    (f : α → Parser β) : (p >>= f) c = f a c' := by
  change (p c >>= fun e => f e.1 e.2) = _
  rw [h, Fallible.ok_bind]

theorem pure_eq_ok {a b : α} {c c' : Cursor} :
    (pure a : Parser α) c = .ok (b, c') ↔ a = b ∧ c = c' := by
  change Except.ok (a, c) = Except.ok (b, c') ↔ _
  simp

theorem next_eq_ok {c c' : Cursor} {token : Token} :
    next c = .ok (token, c') ↔ c = ⟨token :: c'.tokens, c'.failure, c'.parameters⟩ := by
  obtain ⟨tokens, failure, n⟩ := c
  obtain ⟨tokens', failure', n'⟩ := c'
  cases tokens with
  | nil => exact iff_of_false nofun (by simp)
  | cons head rest =>
      change Except.ok (head, Cursor.mk rest failure n) = _ ↔ _
      simp [and_assoc]

theorem ident_eq_ok {c c' : Cursor} {name : String} :
    ident c = .ok (name, c') ↔ c = ⟨.ident name :: c'.tokens, c'.failure, c'.parameters⟩ := by
  rw [ident, bind_eq_ok]
  constructor
  · rintro ⟨token, c₁, read, h⟩
    rw [next_eq_ok.mp read]
    split at h
    · obtain ⟨rfl, rfl⟩ := pure_eq_ok.mp h
      rfl
    · cases h
  · intro h
    exact ⟨_, c', next_eq_ok.mpr h, rfl⟩

theorem expect_eq_ok {c c' : Cursor} {token : Token} {u : Unit} :
    expect token c = .ok (u, c') ↔ c = ⟨token :: c'.tokens, c'.failure, c'.parameters⟩ := by
  rw [expect, bind_eq_ok]
  constructor
  · rintro ⟨found, c₁, read, h⟩
    rw [next_eq_ok.mp read]
    split at h
    · cases h
    · rename_i same
      obtain ⟨-, rfl⟩ := pure_eq_ok.mp h
      rw [not_not.mp same]
  · intro h
    refine ⟨token, c', next_eq_ok.mpr h, ?_⟩
    rw [if_neg (not_not.mpr rfl)]
    rfl

/-- No token of a kind comes next. -/
def Apart (stop : Token → Prop) (tokens : List Token) : Prop := ∀ token ∈ tokens.head?, ¬stop token

theorem apart_nil {stop : Token → Prop} : Apart stop [] := nofun

theorem apart_cons {stop : Token → Prop} {token : Token} {rest : List Token} :
    Apart stop (token :: rest) ↔ ¬stop token := by
  simp [Apart]

theorem apart_never (tokens : List Token) : Apart (fun _ => False) tokens := fun _ _ => not_false

theorem Apart.mono {stop stop' : Token → Prop} {tokens : List Token}
    (h : ∀ token, stop token → stop' token) (apart : Apart stop' tokens) : Apart stop tokens :=
  fun token member stops => apart token member (h token stops)

theorem get_bind (f : Cursor → Parser α) (c : Cursor) : (get >>= f) c = f c c := rfl

theorem takeMap?_eq_ok {accept : Token → Option α} {c c' : Cursor} {found : Option α} :
    takeMap? accept c = .ok (found, c') ↔
      (∃ token a, found = some a ∧ accept token = some a ∧
        c = ⟨token :: c'.tokens, c'.failure, c'.parameters⟩) ∨
      found = none ∧ c = c' ∧ Apart (fun token => accept token ≠ none) c.tokens := by
  obtain ⟨tokens, failure, n⟩ := c
  rw [takeMap?, get_bind]
  cases tokens with
  | nil =>
      change Except.ok (none, Cursor.mk [] failure n) = _ ↔ _
      simp [apart_nil, eq_comm]
  | cons head rest =>
      rw [apart_cons]
      cases decided : accept head with
      | none =>
          simp only [decided, pure_eq_ok]
          constructor
          · rintro ⟨rfl, rfl⟩
            exact .inr ⟨rfl, rfl, not_not.mpr rfl⟩
          · rintro (⟨token, a, rfl, accepted, same⟩ | ⟨rfl, rfl, -⟩)
            · cases same
              rw [decided] at accepted
              cases accepted
            · exact ⟨rfl, rfl⟩
      | some a =>
          simp only [decided]
          change Except.ok (some a, Cursor.mk rest failure n) = _ ↔ _
          constructor
          · intro h
            cases h
            exact .inl ⟨head, a, rfl, decided, rfl⟩
          · rintro (⟨token, b, rfl, accepted, same⟩ | ⟨-, -, refused⟩)
            · cases same
              rw [decided] at accepted
              cases accepted
              rfl
            · exact absurd nofun refused

theorem skip_eq_ok {token : Token} {c c' : Cursor} {found : Bool} :
    skip token c = .ok (found, c') ↔
      found = true ∧ c = ⟨token :: c'.tokens, c'.failure, c'.parameters⟩ ∨
      found = false ∧ c = c' ∧ Apart (· = token) c.tokens := by
  have same : (fun t => (if t = token then some () else none) ≠ none) = (· = token) := by
    funext t
    simp
  rw [skip, bind_eq_ok]
  simp only [takeMap?_eq_ok, same]
  constructor
  · rintro ⟨_, c₁, ⟨t, a, rfl, accepted, rfl⟩ | ⟨rfl, rfl, apart⟩, h⟩
    · obtain ⟨rfl, rfl⟩ := pure_eq_ok.mp h
      have same : t = token := by by_contra other; simp [other] at accepted
      exact .inl ⟨rfl, by rw [same]⟩
    · obtain ⟨rfl, rfl⟩ := pure_eq_ok.mp h
      exact .inr ⟨rfl, rfl, apart⟩
  · rintro (⟨rfl, rfl⟩ | ⟨rfl, rfl, apart⟩)
    · exact ⟨some (), c', .inl ⟨token, (), rfl, if_pos rfl, rfl⟩, rfl⟩
    · exact ⟨none, c, .inr ⟨rfl, rfl, apart⟩, rfl⟩

/-! ## Tokens in sequence -/

theorem next_bind_eq_ok {f : Token → Parser α} {c : Cursor} {result : α × Cursor} :
    (next >>= f) c = .ok result ↔
      ∃ token c', c = ⟨token :: c'.tokens, c'.failure, c'.parameters⟩ ∧ f token c' = .ok result := by
  simp only [bind_eq_ok, next_eq_ok]

theorem ident_bind_eq_ok {f : String → Parser α} {c : Cursor} {result : α × Cursor} :
    (ident >>= f) c = .ok result ↔ ∃ name c',
      c = ⟨.ident name :: c'.tokens, c'.failure, c'.parameters⟩ ∧ f name c' = .ok result := by
  simp only [bind_eq_ok, ident_eq_ok]

theorem expect_bind_eq_ok {token : Token} {f : Unit → Parser α} {c : Cursor}
    {result : α × Cursor} : (expect token >>= f) c = .ok result ↔
      ∃ c', c = ⟨token :: c'.tokens, c'.failure, c'.parameters⟩ ∧ f () c' = .ok result := by
  simp only [bind_eq_ok, expect_eq_ok]
  exact ⟨fun ⟨_, c', h⟩ => ⟨c', h⟩, fun ⟨c', h⟩ => ⟨(), c', h⟩⟩

theorem skip_bind_eq_ok {token : Token} {f : Bool → Parser α} {c : Cursor} {result : α × Cursor} :
    (skip token >>= f) c = .ok result ↔
      (∃ c', c = ⟨token :: c'.tokens, c'.failure, c'.parameters⟩ ∧ f true c' = .ok result) ∨
      Apart (· = token) c.tokens ∧ f false c = .ok result := by
  simp only [bind_eq_ok, skip_eq_ok]
  constructor
  · rintro ⟨_, c', ⟨rfl, rfl⟩ | ⟨rfl, rfl, apart⟩, h⟩
    · exact .inl ⟨c', rfl, h⟩
    · exact .inr ⟨apart, h⟩
  · rintro (⟨c', rfl, h⟩ | ⟨apart, h⟩)
    · exact ⟨true, c', .inl ⟨rfl, rfl⟩, h⟩
    · exact ⟨false, c, .inr ⟨rfl, rfl, apart⟩, h⟩

theorem lift_bind_eq_ok {x : Except ParseError α} {f : α → Parser β} {c : Cursor}
    {result : β × Cursor} :
    ((liftM x : Parser α) >>= f) c = .ok result ↔ ∃ a, x = .ok a ∧ f a c = .ok result := by
  cases x with
  | error e => exact iff_of_false nofun fun ⟨_, h, _⟩ => nomatch h
  | ok a =>
      change f a c = .ok result ↔ _
      simp

theorem next_bind_cons (f : Token → Parser α) (token : Token) (rest : List Token)
    (failure : Option LexicalError) (n : Nat) :
    (next >>= f) ⟨token :: rest, failure, n⟩ = f token ⟨rest, failure, n⟩ := rfl

theorem ident_bind_cons (f : String → Parser α) (name : String) (rest : List Token)
    (failure : Option LexicalError) (n : Nat) :
    (ident >>= f) ⟨.ident name :: rest, failure, n⟩ = f name ⟨rest, failure, n⟩ := rfl

theorem expect_bind_cons (token : Token) (f : Unit → Parser α) (rest : List Token)
    (failure : Option LexicalError) (n : Nat) :
    (expect token >>= f) ⟨token :: rest, failure, n⟩ = f () ⟨rest, failure, n⟩ := by
  have taken : expect token ⟨token :: rest, failure, n⟩ = .ok ((), ⟨rest, failure, n⟩) :=
    expect_eq_ok.mpr rfl
  exact bind_of_ok taken f

theorem skip_bind_cons (token : Token) (f : Bool → Parser α) (rest : List Token)
    (failure : Option LexicalError) (n : Nat) :
    (skip token >>= f) ⟨token :: rest, failure, n⟩ = f true ⟨rest, failure, n⟩ := by
  have taken : skip token ⟨token :: rest, failure, n⟩ = .ok (true, ⟨rest, failure, n⟩) :=
    skip_eq_ok.mpr (.inl ⟨rfl, rfl⟩)
  exact bind_of_ok taken f

theorem skip_bind_of_apart {token : Token} {c : Cursor} (apart : Apart (· = token) c.tokens)
    (f : Bool → Parser α) : (skip token >>= f) c = f false c :=
  bind_of_ok (skip_eq_ok.mpr (.inr ⟨rfl, rfl, apart⟩)) f

theorem lift_bind_of_ok {x : Except ParseError α} {a : α} (h : x = .ok a) (f : α → Parser β)
    (c : Cursor) : ((liftM x : Parser α) >>= f) c = f a c := by
  rw [h]
  rfl

/-! ## Phrases -/

/-- A reader takes the tokens of a phrase, as long as no token of some kind follows, and gives its
    meaning. -/
structure Reads (p : Parser α) (phrase : Phrase α) (stop : Token → Prop) : Prop where
  sound {c c' : Cursor} {a : α} : p c = .ok (a, c') →
    ∃ tokens n, c = ⟨tokens ++ c'.tokens, c'.failure, n⟩ ∧ phrase n tokens a c'.parameters
  complete {n n' : Nat} {tokens rest : List Token} {a : α} (failure : Option LexicalError) :
    phrase n tokens a n' → Apart stop rest →
      p ⟨tokens ++ rest, failure, n⟩ = .ok (a, ⟨rest, failure, n'⟩)

variable {p : Parser α} {phrase : Phrase α} {stop : Token → Prop}

theorem Reads.of_bind (reads : Reads p phrase stop) {f : α → Parser β} {c : Cursor}
    {result : β × Cursor}
    (h : (p >>= f) c = .ok result) : ∃ tokens n a c', c = ⟨tokens ++ c'.tokens, c'.failure, n⟩ ∧
      phrase n tokens a c'.parameters ∧ f a c' = .ok result := by
  obtain ⟨a, c', first, h⟩ := bind_eq_ok.mp h
  obtain ⟨tokens, n, same, phrase⟩ := reads.sound first
  exact ⟨tokens, n, a, c', same, phrase, h⟩

theorem Reads.bind (reads : Reads p phrase stop) {n n' : Nat} {tokens rest : List Token} {a : α}
    (failure : Option LexicalError) (h : phrase n tokens a n') (apart : Apart stop rest)
    (f : α → Parser β) : (p >>= f) ⟨tokens ++ rest, failure, n⟩ = f a ⟨rest, failure, n'⟩ :=
  bind_of_ok (reads.complete failure h apart) f

theorem reads_unless (reads : Reads p phrase stop) (refused : α → Prop) [DecidablePred refused]
    (e : α → ParseError) :
    Reads (do
        let a ← p
        if refused a then throw (e a)
        return a)
      (fun n tokens a n' => phrase n tokens a n' ∧ ¬refused a) stop where
  sound {c c' a} h := by
    replace h := reads.of_bind h
    obtain ⟨tokens, n, a, c₁, rfl, phrase, h⟩ := h
    split at h
    · cases h
    · rename_i allowed
      obtain ⟨rfl, rfl⟩ := pure_eq_ok.mp h
      exact ⟨tokens, n, rfl, phrase, allowed⟩
  complete failure := by
    rintro ⟨phrase, allowed⟩ apart
    rw [reads.bind failure phrase apart, if_neg allowed]
    rfl

/-! ## Repetition -/

theorem iterateFor_congr {step : α → Parser (α × Bool)}
    (progress : ∀ a c a' c', step a c = .ok ((a', true), c') →
      c'.tokens.length < c.tokens.length) {k l : Nat} {a : α} {c : Cursor}
    (enough : c.tokens.length < k) (enough' : c.tokens.length < l) :
    iterateFor step k a c = iterateFor step l a c := by
  induction k generalizing l a c with
  | zero => omega
  | succ k ih =>
      obtain ⟨l, rfl⟩ := Nat.exists_eq_add_one_of_ne_zero (Nat.ne_of_gt (Nat.zero_lt_of_lt enough'))
      rw [iterateFor, iterateFor]
      cases taken : step a c with
      | error e =>
          change (step a c >>= _) = (step a c >>= _)
          rw [taken]
          rfl
      | ok result =>
          obtain ⟨⟨a', more⟩, c'⟩ := result
          rw [bind_of_ok taken, bind_of_ok taken]
          cases more with
          | false => rfl
          | true =>
              have := progress a c a' c' taken
              exact ih (by omega) (by omega)

/-- Repeating a step is taking it once and then repeating it if it asks for that. -/
theorem iterate_eq {step : α → Parser (α × Bool)}
    (progress : ∀ a c a' c', step a c = .ok ((a', true), c') →
      c'.tokens.length < c.tokens.length) (a : α) (c : Cursor) :
    iterate step a c = (do
      let (a', more) ← step a
      if more then iterate step a' else return a') c := by
  change iterateFor step (c.tokens.length + 1) a c = _
  rw [iterateFor]
  cases taken : step a c with
  | error e =>
      change (step a c >>= _) = (step a c >>= _)
      rw [taken]
      rfl
  | ok result =>
      obtain ⟨⟨a', more⟩, c'⟩ := result
      rw [bind_of_ok taken, bind_of_ok taken]
      cases more with
      | false => rfl
      | true => exact iterateFor_congr progress (progress a c a' c' taken) (Nat.lt_succ_self _)

/-! ## Lists -/

/-- A reader that says whether a comma comes next, and that takes what ends a list if not. -/
structure Separates (more : Parser Bool) (last : List Token) (stop : Token → Prop) : Prop where
  again {c c' : Cursor} :
    more c = .ok (true, c') ↔ c = ⟨.comma :: c'.tokens, c'.failure, c'.parameters⟩
  ended {c c' : Cursor} : more c = .ok (false, c') →
    c = ⟨last ++ c'.tokens, c'.failure, c'.parameters⟩
  ends {n : Nat} {rest : List Token} (failure : Option LexicalError) : Apart stop rest →
    more ⟨last ++ rest, failure, n⟩ = .ok (false, ⟨rest, failure, n⟩)

theorem Separates.mono {more : Parser Bool} {last : List Token} {stop stop' : Token → Prop}
    (separates : Separates more last stop) (h : ∀ token, stop token → stop' token) :
    Separates more last stop' where
  again := separates.again
  ended := separates.ended
  ends failure apart := separates.ends failure (apart.mono h)

theorem separates_skip : Separates (skip .comma) [] (· = .comma) where
  again {c c'} := by simp [skip_eq_ok]
  ended h := by
    obtain ⟨same, -⟩ | ⟨-, rfl, -⟩ := skip_eq_ok.mp h
    · cases same
    · rfl
  ends failure apart := skip_eq_ok.mpr (.inr ⟨rfl, rfl, apart⟩)

/-- Takes a comma or a closing parenthesis and says whether it was a comma. -/
def commaOrClose : Parser Bool := do
  match ← next with
  | .closeParen => return false
  | .comma => return true
  | found => throw (.unexpectedToken found)

theorem separates_commaOrClose : Separates commaOrClose [.closeParen] fun _ => False where
  again {c c'} := by
    rw [commaOrClose, bind_eq_ok]
    constructor
    · rintro ⟨token, c₁, read, h⟩
      rw [next_eq_ok.mp read]
      split at h
      · cases (pure_eq_ok.mp h).1
      · obtain ⟨-, rfl⟩ := pure_eq_ok.mp h
        rfl
      · cases h
    · intro h
      exact ⟨_, c', next_eq_ok.mpr h, rfl⟩
  ended {c c'} h := by
    obtain ⟨token, c₁, read, h⟩ := bind_eq_ok.mp h
    rw [next_eq_ok.mp read]
    split at h
    · obtain ⟨-, rfl⟩ := pure_eq_ok.mp h
      rfl
    · cases (pure_eq_ok.mp h).1
    · cases h
  ends _ _ := rfl

/-- One more item of a list, and whether another one follows. -/
def listStep (item : List α → Parser α) (more : Parser Bool) (items : List α) :
    Parser (List α × Bool) := do
  let a ← item items
  return (items ++ [a], ← more)

theorem commaSeparated_eq (item : List α → Parser α) :
    commaSeparated item = iterate (listStep item (skip .comma)) [] := rfl

theorem untilClosed_eq (item : List α → Parser α) :
    untilClosed item = iterate (listStep item commaOrClose) [] := by
  rw [untilClosed]
  congr 1
  funext items
  rw [listStep]
  congr 1
  funext a
  rw [commaOrClose, bind_assoc]
  congr 1
  funext token
  cases token <;> rfl

/-- Readers of the items of a list, each of which may depend on those before it. -/
structure ReadsItems (item : List α → Parser α) (Item : Phrase α) (new : List α → α → Prop)
    (good : List α → Prop) (stop : Token → Prop) : Prop where
  item (before : List α) :
    Reads (item before) (fun n tokens a n' => Item n tokens a n' ∧ new before a) stop
  nil : good []
  one_more {before : List α} {a : α} : good (before ++ [a]) ↔ good before ∧ new before a
  comma : ¬stop .comma

variable {item : List α → Parser α} {Item : Phrase α} {new : List α → α → Prop}
  {good : List α → Prop} {stop' : Token → Prop} {more : Parser Bool} {last : List Token}

theorem listStep_eq_ok {before items : List α} {again : Bool} {c c' : Cursor} :
    listStep item more before c = .ok ((items, again), c') ↔ ∃ a c₁, item before c = .ok (a, c₁) ∧
      more c₁ = .ok (again, c') ∧ before ++ [a] = items := by
  simp only [listStep, bind_eq_ok, pure_eq_ok, Prod.mk.injEq]
  constructor
  · rintro ⟨a, c₁, first, again', c₂, second, ⟨rfl, rfl⟩, rfl⟩
    exact ⟨a, c₁, first, second, rfl⟩
  · rintro ⟨a, c₁, first, second, rfl⟩
    exact ⟨a, c₁, first, again, c', second, ⟨rfl, rfl⟩, rfl⟩

/-- A list goes on only after a comma. -/
theorem ReadsItems.progress (reads : ReadsItems item Item new good stop)
    (separates : Separates more last stop') {before items : List α} {c c' : Cursor}
    (h : listStep item more before c = .ok ((items, true), c')) :
    c'.tokens.length < c.tokens.length := by
  obtain ⟨a, c₁, first, second, -⟩ := listStep_eq_ok.mp h
  obtain ⟨tokens, n, rfl, -⟩ := (reads.item before).sound first
  rw [separates.again.mp second]
  simp only [List.length_append, List.length_cons]
  omega

theorem ReadsItems.iterate_eq (reads : ReadsItems item Item new good stop)
    (separates : Separates more last stop') (before : List α) (c : Cursor) :
    iterate (listStep item more) before c = (do
      let (items, again) ← listStep item more before
      if again then iterate (listStep item more) items else return items) c :=
  Parser.iterate_eq (fun _ _ _ _ => reads.progress separates) before c

theorem ReadsItems.good_of_append (reads : ReadsItems item Item new good stop)
    {before after : List α} (h : good (before ++ after)) : good before := by
  induction after using List.reverseRecOn with
  | nil => simpa using h
  | append_singleton after a ih =>
      rw [← List.append_assoc] at h
      exact ih (reads.one_more.mp h).1

theorem ReadsItems.sound (reads : ReadsItems item Item new good stop)
    (separates : Separates more last stop') {before items : List α} (fine : good before)
    {c c' : Cursor} (h : iterate (listStep item more) before c = .ok (items, c')) :
    ∃ tokens n others, c = ⟨tokens ++ (last ++ c'.tokens), c'.failure, n⟩ ∧
      items = before ++ others ∧ Separated Item n tokens others c'.parameters ∧ good items := by
  induction size : c.tokens.length using Nat.strongRecOn generalizing before c with
  | ind size ih =>
  subst size
  rw [reads.iterate_eq separates] at h
  obtain ⟨⟨items₁, again⟩, c₁, taken, later⟩ := bind_eq_ok.mp h
  obtain ⟨a, c₂, first, second, rfl⟩ := listStep_eq_ok.mp taken
  obtain ⟨tokens, n, rfl, phrase, fresh⟩ := (reads.item before).sound first
  have fine : good (before ++ [a]) := reads.one_more.mpr ⟨fine, fresh⟩
  cases again with
  | false =>
      obtain ⟨rfl, rfl⟩ := pure_eq_ok.mp later
      obtain rfl := separates.ended second
      exact ⟨tokens, n, [a], rfl, rfl, .one phrase, fine⟩
  | true =>
      have smaller := reads.progress separates taken
      obtain rfl := separates.again.mp second
      obtain ⟨rest, m, others, rfl, rfl, tail, fine⟩ := ih _ smaller fine later rfl
      refine ⟨tokens ++ .comma :: rest, n, a :: others, ?_, ?_, .more phrase tail, fine⟩
      · simp only [List.append_assoc, List.cons_append]
      · rw [List.append_assoc, List.singleton_append]

theorem ReadsItems.complete (reads : ReadsItems item Item new good stop)
    (separates : Separates more last stop')
    (closes : ∀ rest, Apart stop' rest → Apart stop (last ++ rest)) {before others : List α}
    {n n' : Nat} {tokens rest : List Token} (failure : Option LexicalError)
    (listed : Separated Item n tokens others n') (fine : good (before ++ others))
    (apart : Apart stop' rest) :
    iterate (listStep item more) before ⟨tokens ++ (last ++ rest), failure, n⟩ =
      .ok (before ++ others, ⟨rest, failure, n'⟩) := by
  induction listed generalizing before with
  | @one n n' tokens a phrase =>
      have fresh := (reads.one_more.mp fine).2
      have first := (reads.item before).complete failure ⟨phrase, fresh⟩ (closes rest apart)
      have taken := listStep_eq_ok.mpr ⟨a, _, first, separates.ends failure apart, rfl⟩
      rw [reads.iterate_eq separates, bind_of_ok taken]
      rfl
  | @more n m n' tokens later a others phrase tail ih =>
      have split : before ++ a :: others = before ++ [a] ++ others := by simp
      rw [split] at fine ⊢
      have fresh := (reads.one_more.mp (reads.good_of_append fine)).2
      have apart' : Apart stop (.comma :: (later ++ (last ++ rest))) := apart_cons.mpr reads.comma
      have first := (reads.item before).complete failure ⟨phrase, fresh⟩ apart'
      have again : more ⟨.comma :: (later ++ (last ++ rest)), failure, m⟩ =
          .ok (true, ⟨later ++ (last ++ rest), failure, m⟩) := separates.again.mpr rfl
      have taken := listStep_eq_ok.mpr ⟨a, _, first, again, rfl⟩
      rw [reads.iterate_eq separates, List.append_assoc, List.cons_append,
        bind_of_ok taken]
      exact ih fine

theorem ReadsItems.reads (reads : ReadsItems item Item new good stop)
    (separates : Separates more last stop')
    (closes : ∀ rest, Apart stop' rest → Apart stop (last ++ rest)) :
    Reads (iterate (listStep item more) []) (fun n tokens items n' => ∃ listed,
      tokens = listed ++ last ∧ Separated Item n listed items n' ∧ good items) stop' where
  sound h := by
    obtain ⟨tokens, n, others, rfl, rfl, listed, fine⟩ := reads.sound separates reads.nil h
    exact ⟨tokens ++ last, n, by rw [List.append_assoc], tokens, rfl, listed, fine⟩
  complete {n n' _ rest items} failure := by
    rintro ⟨tokens, rfl, listed, fine⟩ apart
    rw [List.append_assoc, ← List.nil_append items]
    exact reads.complete separates closes failure listed fine apart

theorem readsItems_plain {p : Parser α} (reads : Reads p Item stop) (comma : ¬stop .comma) :
    ReadsItems (fun _ => p) Item (fun _ _ => True) (fun _ => True) stop where
  item _ := by simpa only [and_true] using reads
  nil := trivial
  one_more := by simp
  comma := comma

/-- Items that differ in a key. -/
theorem readsItems_different {key : α → String} (reads : ∀ before, Reads (item before)
      (fun n tokens a n' => Item n tokens a n' ∧ key a ∉ before.map key) stop)
    (comma : ¬stop .comma) :
    ReadsItems item Item (fun before a => key a ∉ before.map key)
      (fun items => (items.map key).Nodup) stop where
  item := reads
  nil := List.nodup_nil
  one_more {before a} := by
    simp [List.nodup_append]
  comma := comma

theorem ReadsItems.commaSeparated (reads : ReadsItems item Item new good stop) :
    Reads (commaSeparated item)
      (fun n tokens items n' => Separated Item n tokens items n' ∧ good items)
      fun token => token = .comma ∨ stop token := by
  have separates : Separates (skip .comma) [] fun token => token = .comma ∨ stop token :=
    separates_skip.mono fun _ => .inl
  simpa [commaSeparated_eq] using reads.reads separates fun _ apart => apart.mono fun _ => .inr

theorem ReadsItems.untilClosed (reads : ReadsItems item Item new good stop)
    (close : ¬stop .closeParen) :
    Reads (untilClosed item)
      (fun n tokens items n' => ∃ listed, tokens = listed ++ [.closeParen] ∧
        Separated Item n listed items n' ∧ good items)
      fun _ => False := by
  rw [untilClosed_eq]
  exact reads.reads separates_commaOrClose fun _ _ => apart_cons.mpr close

end Tabular.Parser

import Mathlib.Data.List.Forall2
import Tabular.Store

/-! # Computations that may fail

A computation goes through its parts in order and stops at the first that fails. Where no part can
fail, a loop over a list is the pure function on the list.
-/

namespace Tabular

namespace Fallible

variable {ε α β : Type}

@[simp] theorem ok_bind (a : α) (f : α → Except ε β) : (Except.ok a >>= f) = f a := rfl

@[simp] theorem error_bind (e : ε) (f : α → Except ε β) :
    (Except.error e >>= f) = Except.error e := rfl

@[simp] theorem map_ok (f : α → β) (a : α) : f <$> (Except.ok a : Except ε α) = .ok (f a) := rfl

@[simp] theorem map_error (f : α → β) (e : ε) :
    f <$> (Except.error e : Except ε α) = .error e := rfl

theorem bind_eq_ok {x : Except ε α} {f : α → Except ε β} {b : β} :
    x >>= f = .ok b ↔ ∃ a, x = .ok a ∧ f a = .ok b := by
  cases x with
  | error e => simp
  | ok a => simp

theorem then_eq_ok {x : Except ε Unit} {f : Unit → Except ε β} {b : β} :
    x >>= f = .ok b ↔ x = .ok () ∧ f () = .ok b := by
  cases x with
  | error e => simp
  | ok a => simp

theorem map_eq_ok {f : α → β} {x : Except ε α} {b : β} :
    f <$> x = .ok b ↔ ∃ a, x = .ok a ∧ f a = b := by
  cases x <;> simp

theorem mapError_eq_ok {ε' : Type} {x : Except ε α} {f : ε → ε'} {a : α} :
    x.mapError f = .ok a ↔ x = .ok a := by
  cases x <;> simp [Except.mapError]

theorem mapM_eq_ok_map {f : α → Except ε β} {g : α → β} {items : List α}
    (h : ∀ a ∈ items, f a = .ok (g a)) : items.mapM f = .ok (items.map g) := by
  induction items with
  | nil => rfl
  | cons head rest ih =>
      rw [List.mapM_cons, h head List.mem_cons_self,
        ih fun a ha => h a (List.mem_cons_of_mem _ ha)]
      rfl

theorem mapM_map_congr {γ : Type} {f : α → β} {g : β → Except ε γ} {h : α → Except ε γ}
    {items : List α} (same : ∀ a ∈ items, g (f a) = h a) :
    (items.map f).mapM g = items.mapM h := by
  induction items with
  | nil => rfl
  | cons head rest ih =>
      rw [List.map_cons, List.mapM_cons, List.mapM_cons, same head List.mem_cons_self,
        ih fun a member => same a (List.mem_cons_of_mem _ member)]

theorem mapM_eq_ok_iff {f : α → Except ε β} {items : List α} {results : List β} :
    items.mapM f = .ok results ↔ List.Forall₂ (fun a b => f a = .ok b) items results := by
  induction items generalizing results with
  | nil => simp [List.mapM_nil, pure, Except.pure, eq_comm]
  | cons head rest ih =>
      simp only [List.mapM_cons, bind_eq_ok, List.forall₂_cons_left_iff, ← ih]
      constructor
      · rintro ⟨b, hb, bs, hbs, same⟩
        cases same
        exact ⟨b, bs, hb, hbs, rfl⟩
      · rintro ⟨b, bs, hb, hbs, rfl⟩
        exact ⟨b, hb, bs, hbs, rfl⟩

theorem exists_of_mapM_eq_ok {f : α → Except ε β} {items : List α} {results : List β}
    (h : items.mapM f = .ok results) : ∀ b ∈ results, ∃ a ∈ items, f a = .ok b := by
  intro b member
  obtain ⟨i, below, rfl⟩ := List.mem_iff_getElem.mp member
  have same := mapM_eq_ok_iff.mp h
  have below' : i < items.length := same.length_eq ▸ below
  exact ⟨items[i], List.getElem_mem below', same.get below' below⟩

theorem mem_of_mapM_eq_ok {f : α → Except ε β} {items : List α} {results : List β}
    (h : items.mapM f = .ok results) : ∀ a ∈ items, ∃ b ∈ results, f a = .ok b := by
  intro a member
  obtain ⟨i, below, rfl⟩ := List.mem_iff_getElem.mp member
  have same := mapM_eq_ok_iff.mp h
  have below' : i < results.length := same.length_eq ▸ below
  exact ⟨results[i], List.getElem_mem below', same.get below below'⟩

theorem exists_mapM_eq_ok_iff {f : α → Except ε β} {items : List α} :
    (∃ results, items.mapM f = .ok results) ↔ ∀ a ∈ items, ∃ b, f a = .ok b := by
  constructor
  · rintro ⟨results, h⟩ a member
    obtain ⟨b, -, here⟩ := mem_of_mapM_eq_ok h a member
    exact ⟨b, here⟩
  · intro each
    induction items with
    | nil => exact ⟨[], rfl⟩
    | cons head rest ih =>
        obtain ⟨⟨b, here⟩, later⟩ := List.forall_mem_cons.mp each
        obtain ⟨results, all⟩ := ih later
        refine ⟨b :: results, ?_⟩
        rw [List.mapM_cons, here, all]
        rfl

theorem mapM_eq_error_iff {f : α → Except ε β} {items : List α} {e : ε} :
    items.mapM f = .error e ↔ ∃ before a after, items = before ++ a :: after ∧
      (∀ b ∈ before, ∃ result, f b = .ok result) ∧ f a = .error e := by
  constructor
  · intro failed
    induction items with
    | nil => cases failed
    | cons head rest ih =>
        rw [List.mapM_cons] at failed
        cases here : f head with
        | error e' =>
            rw [here] at failed
            cases failed
            exact ⟨[], head, rest, rfl, nofun, here⟩
        | ok result =>
            have later : rest.mapM f = .error e := by
              rw [here, ok_bind] at failed
              cases ended : rest.mapM f with
              | error e' =>
                  rw [ended] at failed
                  exact failed
              | ok results =>
                  rw [ended] at failed
                  cases failed
            obtain ⟨before, a, after, rfl, fine, flawed⟩ := ih later
            exact ⟨head :: before, a, after, rfl,
              List.forall_mem_cons.mpr ⟨⟨result, here⟩, fine⟩, flawed⟩
  · rintro ⟨before, a, after, rfl, fine, flawed⟩
    obtain ⟨results, read⟩ := exists_mapM_eq_ok_iff.mpr fine
    rw [List.mapM_append, read, ok_bind, List.mapM_cons, flawed]
    rfl

/-- Parts that are left out may as well be dropped before. -/
theorem mapM_filterMap {γ : Type} {f : α → Except ε (Option γ)} {g : α → Option β}
    {h : β → Except ε γ} (same : ∀ a, f a = (g a).mapM h) (items : List α) :
    (do return (← items.mapM f).filterMap id) = (items.filterMap g).mapM h := by
  induction items with
  | nil => rfl
  | cons head rest ih =>
      rw [List.mapM_cons, same head]
      cases kept : g head with
      | none =>
          rw [List.filterMap_cons_none kept, ← ih]
          cases rest.mapM f <;> rfl
      | some b =>
          rw [List.filterMap_cons_some kept, List.mapM_cons, ← ih, Option.mapM_some]
          cases h b with
          | error e => rfl
          | ok c => cases rest.mapM f <;> rfl

theorem filterM_eq_ok_filter {f : α → Except ε Bool} {p : α → Bool} {items : List α}
    (h : ∀ a ∈ items, f a = .ok (p a)) : items.filterM f = .ok (items.filter p) := by
  have loop : ∀ kept, items.filterAuxM f kept = .ok ((items.filter p).reverse ++ kept) := by
    induction items with
    | nil => intro kept; rfl
    | cons head rest ih =>
        intro kept
        rw [List.filterAuxM, h head List.mem_cons_self, ok_bind,
          ih fun a ha => h a (List.mem_cons_of_mem _ ha)]
        cases hp : p head <;> simp [hp]
  rw [List.filterM, loop, ok_bind, List.append_nil, List.reverse_reverse]
  rfl

theorem anyM_eq_ok_any {f : α → Except ε Bool} {p : α → Bool} {items : List α}
    (h : ∀ a ∈ items, f a = .ok (p a)) : items.anyM f = .ok (items.any p) := by
  induction items with
  | nil => rfl
  | cons head rest ih =>
      rw [List.anyM_cons, h head List.mem_cons_self, ok_bind, List.any_cons]
      cases p head with
      | true => rfl
      | false => exact ih fun a ha => h a (List.mem_cons_of_mem _ ha)

theorem foldlM_eq_ok_foldl {f : β → α → Except ε β} {g : β → α → β} {items : List α}
    (h : ∀ b, ∀ a ∈ items, f b a = .ok (g b a)) (b : β) :
    items.foldlM f b = .ok (items.foldl g b) := by
  induction items generalizing b with
  | nil => rfl
  | cons head rest ih =>
      rw [List.foldlM_cons, h b head List.mem_cons_self, ok_bind, List.foldl_cons,
        ih fun b a ha => h b a (List.mem_cons_of_mem _ ha)]

theorem forM_eq_ok_iff {f : α → Except ε Unit} {items : List α} :
    items.forM f = .ok () ↔ ∀ a ∈ items, f a = .ok () := by
  induction items with
  | nil => simp [pure, Except.pure]
  | cons head rest ih =>
      rw [List.forall_mem_cons, ← ih, List.forM_eq_forM, List.forM_cons]
      cases f head <;> simp

end Fallible

/-! ## Steps on a state -/

namespace Action

variable {σ τ α β : Type}

theorem bind_apply (x : Action σ α) (f : α → Action σ β) (s : σ) :
    (x >>= f) s = match x s with
      | .ok a s => f a s
      | .error e s => .error e s := by
  cases h : x s <;> simp only [bind, EStateM.bind, h]

theorem pure_apply (a : α) (s : σ) : (pure a : Action σ α) s = .ok a s := rfl

theorem get_apply (s : σ) : (get : Action σ σ) s = .ok s s := rfl

theorem set_apply (s s' : σ) : (set s' : Action σ PUnit) s = .ok ⟨⟩ s' := rfl

theorem modify_apply (f : σ → σ) (s : σ) : (modify f : Action σ PUnit) s = .ok ⟨⟩ (f s) := rfl

/-- What may fail without a state leaves every state as it is. -/
theorem lift_apply (x : Except Error α) (s : σ) :
    (liftM x : Action σ α) s = match x with
      | .ok a => .ok a s
      | .error e => .error e s := by
  cases x <;> rfl

theorem mapM_lift_apply (f : α → Except Error β) (items : List α) (s : σ) :
    (items.mapM fun a => (liftM (f a) : EStateM Error σ β)) s =
      (liftM (items.mapM f) : Action σ _) s := by
  induction items with
  | nil => rfl
  | cons head rest ih =>
      rw [List.mapM_cons, List.mapM_cons, bind_apply, lift_apply]
      cases f head with
      | error e => rfl
      | ok b =>
          simp only [Fallible.ok_bind, bind_apply]
          rw [ih]
          cases rest.mapM f <;> rfl

/-- A loop whose steps go from one state of a family to another. -/
theorem forM_apply {f : α → Action σ PUnit} (state : τ → σ) {next : τ → α → τ} {items : List α}
    (step : ∀ a ∈ items, ∀ x, f a (state x) = .ok ⟨⟩ (state (next x a))) (x : τ) :
    items.forM f (state x) = .ok ⟨⟩ (state (items.foldl next x)) := by
  induction items generalizing x with
  | nil => rfl
  | cons head rest ih =>
      rw [List.forM_eq_forM, List.forM_cons, bind_apply, step head List.mem_cons_self]
      exact ih (fun a member => step a (List.mem_cons_of_mem _ member)) (next x head)

/-- The result of a step on a state. -/
def result (x : Action σ α) (s : σ) : Except Error α :=
  match x s with
  | .ok a _ => .ok a
  | .error e _ => .error e

/-- The state that a step leaves behind, whether it fails or not. -/
def after (x : Action σ α) (s : σ) : σ :=
  match x s with
  | .ok _ s' => s'
  | .error _ s' => s'

theorem eq_ok_of_result {x : Action σ α} {s : σ} {a : α} (h : x.result s = .ok a) :
    x s = .ok a (x.after s) := by
  unfold result at h
  unfold after
  cases ended : x s <;> simp_all

end Action

end Tabular

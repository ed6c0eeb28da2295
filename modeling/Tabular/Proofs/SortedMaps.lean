import Mathlib.Data.List.Sort
import Tabular.SortedMap

/-! # Maps are their look-ups

Two maps that answer every key alike are the same map. Going through the entries of a map and giving
each key a new value changes the values in their places.
-/

namespace Tabular.SortedMap

variable {κ : Type} [Ord κ] {β γ δ : Type}

/-- The map with another value under each key. -/
def mapValues (f : β → γ) (m : SortedMap κ β) : SortedMap κ γ :=
  ⟨m.toList.map fun e => (e.1, f e.2), List.pairwise_map.mpr m.sorted⟩

@[simp] theorem toList_mapValues (f : β → γ) (m : SortedMap κ β) :
    (m.mapValues f).toList = m.toList.map fun e => (e.1, f e.2) := rfl

theorem mapValues_mapValues (f : β → γ) (g : γ → δ) (m : SortedMap κ β) :
    (m.mapValues f).mapValues g = m.mapValues fun v => g (f v) := by
  apply SortedMap.ext
  simp only [toList_mapValues, List.map_map, Function.comp_def]

theorem mapValues_fixed {f : β → β} {m : SortedMap κ β} (h : ∀ e ∈ m.toList, f e.2 = e.2) :
    m.mapValues f = m := by
  apply SortedMap.ext
  conv_rhs => rw [← List.map_id m.toList]
  exact List.map_congr_left fun e he => by rw [h e he]; rfl

theorem eq_of_mapValues_fixed {f : β → β} {m : SortedMap κ β} (h : m.mapValues f = m) :
    ∀ e ∈ m.toList, f e.2 = e.2 := by
  intro e he
  have lists : m.toList.map (fun e => (e.1, f e.2)) = m.toList.map id := by
    rw [List.map_id]
    exact congrArg SortedMap.toList h
  exact congrArg Prod.snd (List.map_inj_left.mp lists e he)

theorem lookup_map_snd (f : β → γ) (k : κ) (entries : List (κ × β)) :
    lookup k (entries.map fun e => (e.1, f e.2)) = (lookup k entries).map f := by
  induction entries with
  | nil => rfl
  | cons head rest ih =>
      simp only [List.map_cons, lookup]
      split
      · rfl
      · exact ih

@[simp] theorem get?_mapValues (f : β → γ) (m : SortedMap κ β) (k : κ) :
    (m.mapValues f).get? k = (m.get? k).map f := lookup_map_snd f k m.toList

variable [Std.TransOrd κ] [Std.LawfulEqOrd κ]

omit [Std.LawfulEqOrd κ] in
theorem not_below_itself (k : κ) : compare k k ≠ .lt := by
  have same : compare k k = .eq := Std.ReflCmp.compare_self
  rw [same]
  decide

/-- An entry of a map is what its key is looked up to. -/
theorem mem_toList_iff {m : SortedMap κ β} {k : κ} {v : β} :
    (k, v) ∈ m.toList ↔ m.get? k = some v := by
  obtain ⟨entries, sorted⟩ := m
  simp only [get?]
  induction entries with
  | nil => simp [lookup]
  | cons head rest ih =>
      obtain ⟨k', v'⟩ := head
      obtain ⟨above, tail⟩ := List.pairwise_cons.mp sorted
      simp only [lookup, List.mem_cons, Prod.mk.injEq, ih tail]
      split
      · rename_i same
        have same := Std.LawfulEqOrd.eq_of_compare same
        subst same
        constructor
        · rintro (⟨-, rfl⟩ | found)
          · rfl
          · exact absurd (above (k, v) ((ih tail).mpr found)) (not_below_itself k)
        · intro found
          cases found
          exact .inl ⟨rfl, rfl⟩
      · rename_i other
        constructor
        · rintro (⟨rfl, -⟩ | found)
          · exact absurd Std.ReflCmp.compare_self other
          · exact found
        · exact .inr

omit [Std.LawfulEqOrd κ] in
theorem nodup_keys (m : SortedMap κ β) : m.keys.Nodup := by
  refine List.pairwise_map.mpr (m.sorted.imp fun {a b} below same => ?_)
  rw [same] at below
  exact not_below_itself b.1 below

omit [Std.LawfulEqOrd κ] in
theorem nodup_toList (m : SortedMap κ β) : m.toList.Nodup := m.nodup_keys.of_map

omit [Std.LawfulEqOrd κ] in
theorem eq_of_perm {m n : SortedMap κ β} (h : m.toList.Perm n.toList) : m = n := by
  apply SortedMap.ext
  refine h.eq_of_pairwise (fun a b _ _ ab ba => ?_) m.sorted n.sorted
  rw [Std.OrientedCmp.gt_of_lt ab] at ba
  cases ba

theorem ext_get? {m n : SortedMap κ β} (h : ∀ k, m.get? k = n.get? k) : m = n := by
  apply eq_of_perm
  refine (List.perm_ext_iff_of_nodup m.nodup_toList n.nodup_toList).mpr ?_
  intro ⟨k, v⟩
  rw [mem_toList_iff, mem_toList_iff, h]

omit [Std.TransOrd κ] [Std.LawfulEqOrd κ] in
theorem lookup_of_above {k : κ} {entries : List (κ × β)}
    (h : ∀ e ∈ entries, compare k e.1 = .lt) : lookup k entries = none := by
  induction entries with
  | nil => rfl
  | cons head rest ih =>
      rw [lookup, if_neg (by rw [h head List.mem_cons_self]; decide)]
      exact ih fun e he => h e (List.mem_cons_of_mem _ he)

theorem get?_foldl_insert (f : β → γ) (k : κ) (entries : List (κ × β)) (m : SortedMap κ γ)
    (sorted : entries.Pairwise fun a b => compare a.1 b.1 = .lt) :
    (entries.foldl (fun m e => m.insert e.1 (f e.2)) m).get? k =
      ((lookup k entries).map f).or (m.get? k) := by
  induction entries generalizing m with
  | nil => rfl
  | cons head rest ih =>
      obtain ⟨k', v'⟩ := head
      obtain ⟨above, tail⟩ := List.pairwise_cons.mp sorted
      rw [List.foldl_cons, ih _ tail, lookup]
      by_cases same : k = k'
      · subst same
        rw [lookup_of_above above]
        simp [Std.ReflCmp.compare_self ]
      · rw [if_neg fun eq => same (Std.LawfulEqOrd.eq_of_compare eq),
          get?_insert_of_ne _ _ same]

theorem mem_toList_insert_iff {m : SortedMap κ β} {k : κ} {v : β} {e : κ × β} :
    e ∈ (m.insert k v).toList ↔ e = (k, v) ∨ e.1 ≠ k ∧ e ∈ m.toList := by
  obtain ⟨k', v'⟩ := e
  rw [mem_toList_iff, mem_toList_iff]
  by_cases same : k' = k
  · subst same
    simp [eq_comm]
  · simp [get?_insert_of_ne _ _ same, same]

theorem insert_of_get? {m : SortedMap κ β} {k : κ} {v : β} (h : m.get? k = some v) :
    m.insert k v = m := by
  apply ext_get?
  intro k'
  by_cases same : k' = k
  · rw [same, get?_insert_self, h]
  · rw [get?_insert_of_ne _ _ same]

/-- Writing a new value under every key in turn changes each value in its place. -/
theorem foldl_insert_toList (f : β → β) (m : SortedMap κ β) :
    m.toList.foldl (fun n e => n.insert e.1 (f e.2)) m = m.mapValues f := by
  apply ext_get?
  intro k
  rw [get?_foldl_insert f k m.toList m m.sorted, get?_mapValues, get?]
  cases lookup k m.toList <;> rfl

/-! ## Maps of lists -/

omit [Std.TransOrd κ] [Std.LawfulEqOrd κ] in
theorem insertEntry_map (f : β → γ) (k : κ) (v : β) (entries : List (κ × β)) :
    insertEntry k (f v) (entries.map fun e => (e.1, f e.2)) =
      (insertEntry k v entries).map fun e => (e.1, f e.2) := by
  induction entries with
  | nil => rfl
  | cons head rest ih =>
      simp only [List.map_cons, insertEntry]
      cases compare k head.1 with
      | lt | eq => rfl
      | gt => simp only [ih, List.map_cons]

omit [Std.LawfulEqOrd κ] in
theorem mapValues_insert (f : β → γ) (m : SortedMap κ β) (k : κ) (v : β) :
    (m.insert k v).mapValues f = (m.mapValues f).insert k (f v) :=
  SortedMap.ext (insertEntry_map f k v m.toList).symm

omit [Std.LawfulEqOrd κ] in
theorem foldl_insert_map (f : β → γ) (entries : List (κ × β)) (m : SortedMap κ β) :
    (entries.map fun e => (e.1, f e.2)).foldl (fun n e => n.insert e.1 e.2) (m.mapValues f) =
      (entries.foldl (fun n e => n.insert e.1 e.2) m).mapValues f := by
  induction entries generalizing m with
  | nil => rfl
  | cons head rest ih =>
      rw [List.map_cons, List.foldl_cons, List.foldl_cons, ← mapValues_insert]
      exact ih (m.insert head.1 head.2)

omit [Std.LawfulEqOrd κ] in
theorem ofList_map (f : β → γ) (entries : List (κ × β)) :
    ofList (entries.map fun e => (e.1, f e.2)) = (ofList entries).mapValues f :=
  foldl_insert_map f entries ∅

omit [Std.TransOrd κ] in
theorem perm_insertEntry {k : κ} {v : β} {entries : List (κ × β)}
    (new : k ∉ entries.map (·.1)) : (insertEntry k v entries).Perm ((k, v) :: entries) := by
  induction entries with
  | nil => exact .refl _
  | cons head rest ih =>
      rw [List.map_cons, List.mem_cons, not_or] at new
      obtain ⟨other, later⟩ := new
      rw [insertEntry]
      split
      · exact .refl _
      · rename_i same
        exact absurd (Std.LawfulEqOrd.eq_of_compare same) other
      · exact ((ih later).cons head).trans (.swap ..)

theorem perm_foldl_insert {entries : List (κ × β)} {m : SortedMap κ β}
    (different : ((entries ++ m.toList).map (·.1)).Nodup) :
    (entries.foldl (fun n e => n.insert e.1 e.2) m).toList.Perm (entries ++ m.toList) := by
  induction entries generalizing m with
  | nil => exact .refl _
  | cons head rest ih =>
      rw [List.cons_append, List.map_cons, List.nodup_cons] at different
      obtain ⟨new, different⟩ := different
      have put : (m.insert head.1 head.2).toList.Perm (head :: m.toList) := by
        apply perm_insertEntry
        intro known
        apply new
        rw [List.map_append]
        exact List.mem_append_right _ known
      have moved : (rest ++ (m.insert head.1 head.2).toList).Perm (head :: (rest ++ m.toList)) :=
        (put.append_left rest).trans List.perm_middle
      refine (ih ?_).trans moved
      rw [(moved.map (·.1)).nodup_iff]
      exact List.nodup_cons.mpr ⟨new, different⟩

/-- The entries of a list with different keys are those of its map. -/
theorem perm_toList_ofList {entries : List (κ × β)} (different : (entries.map (·.1)).Nodup) :
    (ofList entries).toList.Perm entries := by
  rw [← List.append_nil entries] at different
  have := perm_foldl_insert (m := ∅) different
  rwa [toList_empty, List.append_nil] at this

theorem get?_ofList_of_mem {entries : List (κ × β)} {k : κ} {v : β}
    (different : (entries.map (·.1)).Nodup) (member : (k, v) ∈ entries) :
    (ofList entries).get? k = some v := by
  rw [← mem_toList_iff, (perm_toList_ofList different).mem_iff]
  exact member

/-- The entries of a map make it up in any order. -/
theorem ofList_perm {entries : List (κ × β)} {m : SortedMap κ β} (h : entries.Perm m.toList) :
    ofList entries = m := by
  apply eq_of_perm
  refine (perm_toList_ofList ?_).trans h
  rw [(h.map (·.1)).nodup_iff]
  refine List.pairwise_map.mpr (m.sorted.imp fun {a b} below same => ?_)
  rw [same] at below
  exact not_below_itself b.1 below

end Tabular.SortedMap

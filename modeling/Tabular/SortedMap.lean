/-! # Maps kept in key order

The entries of a map stand in increasing order of their keys, one entry for each key. Listing a
map is therefore deterministic, and two maps with the same entries are the same value.
-/

namespace Tabular

/-- A finite map whose entries are listed in increasing order of their keys. -/
structure SortedMap (κ : Type) [Ord κ] (β : Type) where
  /-- The entries, each key above the one before it. -/
  toList : List (κ × β)
  sorted : toList.Pairwise fun a b => compare a.1 b.1 = .lt

namespace SortedMap

variable {κ : Type} [Ord κ] {β γ : Type}

@[ext] theorem ext {m n : SortedMap κ β} (h : m.toList = n.toList) : m = n := by
  cases m; cases n; cases h; rfl

instance [DecidableEq κ] [DecidableEq β] : DecidableEq (SortedMap κ β) := fun m n =>
  decidable_of_iff (m.toList = n.toList) ⟨ext, fun h => h ▸ rfl⟩

/-- The map without entries. -/
def empty : SortedMap κ β := ⟨[], .nil⟩

instance : EmptyCollection (SortedMap κ β) := ⟨empty⟩

instance : Inhabited (SortedMap κ β) := ⟨empty⟩

/-- The keys, in increasing order. -/
def keys (m : SortedMap κ β) : List κ := m.toList.map (·.1)

/-- The values, in the order of their keys. -/
def values (m : SortedMap κ β) : List β := m.toList.map (·.2)

/-- The number of keys. -/
def size (m : SortedMap κ β) : Nat := m.toList.length

/-- The value that a list of entries gives first for a key. -/
def lookup (k : κ) : List (κ × β) → Option β
  | [] => none
  | (k', v) :: rest => if compare k k' = .eq then some v else lookup k rest

/-- The value under a key. -/
def get? (m : SortedMap κ β) (k : κ) : Option β := lookup k m.toList

/-- Whether a key has a value. -/
def contains (m : SortedMap κ β) (k : κ) : Bool := (m.get? k).isSome

/-- Puts an entry in its place, over the entry of the same key if there is one. -/
def insertEntry (k : κ) (v : β) : List (κ × β) → List (κ × β)
  | [] => [(k, v)]
  | (k', v') :: rest =>
    match compare k k' with
    | .lt => (k, v) :: (k', v') :: rest
    | .eq => (k, v) :: rest
    | .gt => (k', v') :: insertEntry k v rest

theorem mem_insertEntry {k : κ} {v : β} {e : κ × β} {entries : List (κ × β)}
    (h : e ∈ insertEntry k v entries) : e = (k, v) ∨ e ∈ entries := by
  induction entries with
  | nil => simpa [insertEntry] using h
  | cons head rest ih =>
    obtain ⟨k', v'⟩ := head
    unfold insertEntry at h
    split at h
    · simpa using h
    · rcases List.mem_cons.1 h with rfl | h
      · exact .inl rfl
      · exact .inr (List.mem_cons_of_mem _ h)
    · rcases List.mem_cons.1 h with rfl | h
      · exact .inr List.mem_cons_self
      · exact (ih h).imp_right (List.mem_cons_of_mem _)

theorem pairwise_insertEntry [Std.TransOrd κ] {k : κ} {v : β} {entries : List (κ × β)}
    (h : entries.Pairwise fun a b => compare a.1 b.1 = .lt) :
    (insertEntry k v entries).Pairwise fun a b => compare a.1 b.1 = .lt := by
  induction entries with
  | nil => simp [insertEntry]
  | cons head rest ih =>
    obtain ⟨k', v'⟩ := head
    have ⟨below, tail⟩ := List.pairwise_cons.1 h
    unfold insertEntry
    split
    · rename_i lt
      refine List.pairwise_cons.2 ⟨fun e he => ?_, h⟩
      rcases List.mem_cons.1 he with rfl | he
      · exact lt
      · exact Std.TransCmp.lt_trans lt (below e he)
    · rename_i eq
      refine List.pairwise_cons.2 ⟨fun e he => ?_, tail⟩
      exact (Std.TransCmp.congr_left eq).trans (below e he)
    · rename_i gt
      refine List.pairwise_cons.2 ⟨fun e he => ?_, ih tail⟩
      rcases mem_insertEntry he with rfl | he
      · exact Std.OrientedCmp.lt_of_gt gt
      · exact below e he

/-- Gives a key a value, over the one it had. -/
def insert [Std.TransOrd κ] (m : SortedMap κ β) (k : κ) (v : β) : SortedMap κ β :=
  ⟨insertEntry k v m.toList, pairwise_insertEntry m.sorted⟩

/-- Takes a key out of the map. -/
def erase (m : SortedMap κ β) (k : κ) : SortedMap κ β :=
  ⟨m.toList.filter fun e => compare k e.1 ≠ .eq, m.sorted.filter _⟩

/-- The map of a list of entries; of two entries with one key the later counts. -/
def ofList [Std.TransOrd κ] (entries : List (κ × β)) : SortedMap κ β :=
  entries.foldl (fun m e => m.insert e.1 e.2) empty

/-- Changes every value in key order, giving up at the first that cannot be changed. -/
def mapM [Std.TransOrd κ] {m : Type → Type} [Monad m] (f : β → m γ) (map : SortedMap κ β) :
    m (SortedMap κ γ) := do
  return ofList (← map.toList.mapM fun e => do return (e.1, ← f e.2))

/-! ## What the operations do -/

@[simp] theorem toList_empty : (∅ : SortedMap κ β).toList = [] := rfl

@[simp] theorem get?_empty (k : κ) : (∅ : SortedMap κ β).get? k = none := rfl

theorem lookup_insertEntry [Std.TransOrd κ] (k k' : κ) (v : β) (entries : List (κ × β)) :
    lookup k' (insertEntry k v entries) =
      if compare k' k = .eq then some v else lookup k' entries := by
  induction entries with
  | nil => rfl
  | cons head rest ih =>
    obtain ⟨other, w⟩ := head
    unfold insertEntry
    split
    · rfl
    · rename_i eq
      simp only [lookup, Std.TransCmp.congr_right eq]
      split <;> rfl
    · rename_i gt
      simp only [lookup, ih]
      split
      · rename_i same
        rw [if_neg]
        intro eq
        rw [Std.TransCmp.congr_left (Std.OrientedCmp.eq_symm eq), same] at gt
        exact absurd gt (by decide)
      · rfl

/-- A new entry is found under its key and hides no other. -/
theorem get?_insert [Std.TransOrd κ] (m : SortedMap κ β) (k k' : κ) (v : β) :
    (m.insert k v).get? k' = if compare k' k = .eq then some v else m.get? k' :=
  lookup_insertEntry k k' v m.toList

@[simp] theorem get?_insert_self [Std.TransOrd κ] (m : SortedMap κ β) (k : κ) (v : β) :
    (m.insert k v).get? k = some v := by
  rw [get?_insert, if_pos Std.ReflCmp.compare_self]

theorem get?_insert_of_ne [Std.TransOrd κ] [Std.LawfulEqOrd κ] (m : SortedMap κ β) {k k' : κ}
    (v : β) (h : k' ≠ k) : (m.insert k v).get? k' = m.get? k' := by
  rw [get?_insert, if_neg fun eq => h (Std.LawfulEqOrd.eq_of_compare eq)]

theorem insertEntry_of_above {k : κ} {v : β} {entries : List (κ × β)} [Std.TransOrd κ]
    (h : ∀ e ∈ entries, compare e.1 k = .lt) : insertEntry k v entries = entries ++ [(k, v)] := by
  induction entries with
  | nil => rfl
  | cons head rest ih =>
    obtain ⟨other, w⟩ := head
    have gt := Std.OrientedCmp.gt_of_lt (h _ List.mem_cons_self)
    simp only [insertEntry, gt, ih fun e he => h e (List.mem_cons_of_mem _ he), List.cons_append]

theorem toList_foldl_insert [Std.TransOrd κ] (m : SortedMap κ β) (entries : List (κ × β))
    (h : (m.toList ++ entries).Pairwise fun a b => compare a.1 b.1 = .lt) :
    (entries.foldl (fun m e => m.insert e.1 e.2) m).toList = m.toList ++ entries := by
  induction entries generalizing m with
  | nil => simp
  | cons e rest ih =>
    have step : (m.insert e.1 e.2).toList = m.toList ++ [e] :=
      insertEntry_of_above fun a ha => (List.pairwise_append.1 h).2.2 a ha e List.mem_cons_self
    rw [List.foldl_cons, ih, step, List.append_assoc, List.singleton_append]
    rwa [step, List.append_assoc, List.singleton_append]

/-- A list of entries in order is the listing of its map. -/
theorem toList_ofList [Std.TransOrd κ] {entries : List (κ × β)}
    (h : entries.Pairwise fun a b => compare a.1 b.1 = .lt) : (ofList entries).toList = entries :=
  toList_foldl_insert ∅ entries h

/-- A map is made up by its entries. -/
@[simp] theorem ofList_toList [Std.TransOrd κ] (m : SortedMap κ β) : ofList m.toList = m :=
  ext (toList_ofList m.sorted)

end SortedMap

end Tabular

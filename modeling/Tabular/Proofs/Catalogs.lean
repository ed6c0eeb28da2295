import Mathlib.Data.List.Basic
import Tabular.Catalog
import Tabular.Proofs.Upkeep

/-! # Catalogs of sound tables

A catalog is sound if the names in its list are those that have a table, none of them registered
twice, every table stands under its own name, and every table is sound. Registering a sound table
under its name keeps a catalog sound.
-/

namespace Tabular.Catalog

theorem get?_put (c : Catalog) (name other : String) (t : Table) :
    (c.put name t).get? other = if other = name then some t else c.get? other := by
  by_cases same : other = name
  · rw [same, get?_put_self, if_pos rfl]
  · rw [get?_put_of_ne c t same, if_neg same]

theorem get?_foldl_put_of_not_mem (f : Table → Table) {tables : List Table} (c : Catalog)
    {name : String} (h : name ∉ tables.map (·.name)) :
    (tables.foldl (fun c t => c.put t.name (f t)) c).get? name = c.get? name := by
  induction tables generalizing c with
  | nil => rfl
  | cons head rest ih =>
      obtain ⟨other, others⟩ := not_or.mp (mt List.mem_cons.mpr h)
      rw [List.foldl_cons, ih _ others, get?_put_of_ne c _ other]

/-- After tables of different names have been put in place, each is found under its name. -/
theorem get?_foldl_put {tables : List Table} (different : (tables.map (·.name)).Nodup)
    (f : Table → Table) (c : Catalog) {t : Table} (member : t ∈ tables) :
    (tables.foldl (fun c t => c.put t.name (f t)) c).get? t.name = some (f t) := by
  induction tables generalizing c with
  | nil => cases member
  | cons head rest ih =>
      obtain ⟨new, different⟩ := List.nodup_cons.mp different
      rw [List.foldl_cons]
      rcases List.mem_cons.mp member with rfl | later
      · rw [get?_foldl_put_of_not_mem f _ new, get?_put_self]
      · exact ih different _ later

/-- Names without a table come behind all others, in the order in which tables are put. -/
theorem names_foldl_put {tables : List Table} (different : (tables.map (·.name)).Nodup)
    (f : Table → Table) (c : Catalog) :
    (tables.foldl (fun c t => c.put t.name (f t)) c).names =
      c.names ++ (tables.map (·.name)).filter fun name => (c.get? name).isNone := by
  induction tables generalizing c with
  | nil => simp
  | cons head rest ih =>
      obtain ⟨once, different⟩ := List.nodup_cons.mp different
      have later : (rest.map (·.name)).filter
            (fun name => ((c.put head.name (f head)).get? name).isNone) =
          (rest.map (·.name)).filter fun name => (c.get? name).isNone := by
        apply List.filter_congr
        rintro name member
        have other : name ≠ head.name := by
          rintro rfl
          exact once member
        rw [get?_put_of_ne c _ other]
      rw [List.foldl_cons, ih different, later, names_put, List.map_cons]
      cases old : c.get? head.name with
      | some t => simp [old]
      | none => simp [old]

/-- Putting back the table that a name has changes nothing. -/
theorem put_of_get? {c : Catalog} {name : String} {t : Table} (h : c.get? name = some t) :
    c.put name t = c := by
  have old : (c.get? name).isSome := by simp [h]
  have same : c.tables.insert name t = c.tables := SortedMap.insert_of_get? h
  rw [put_of_isSome old, set, same]

theorem foldl_put_of_get? {f : Table → Table} {tables : List Table} {c : Catalog}
    (found : ∀ t ∈ tables, c.get? t.name = some (f t)) :
    tables.foldl (fun c t => c.put t.name (f t)) c = c := by
  induction tables with
  | nil => rfl
  | cons head rest ih =>
      obtain ⟨here, later⟩ := List.forall_mem_cons.mp found
      rw [List.foldl_cons, put_of_get? here, ih later]

/-- The catalog with every table changed in the same way. -/
def map (f : Table → Table) (c : Catalog) : Catalog := ⟨c.tables.mapValues f, c.names⟩

theorem names_map (f : Table → Table) (c : Catalog) : (c.map f).names = c.names := rfl

theorem get?_map (f : Table → Table) (c : Catalog) (name : String) :
    (c.map f).get? name = (c.get? name).map f :=
  SortedMap.get?_mapValues f c.tables name

theorem map_put (f : Table → Table) (c : Catalog) (name : String) (t : Table) :
    (c.put name t).map f = (c.map f).put name (f t) := by
  rw [put, put, get?_map, Option.isSome_map]
  split <;> simp [map, set, enlist, SortedMap.mapValues_insert]

/-- A catalog of sound tables under their own names, which are the names in its list, none of them
    listed twice. -/
structure Sound (c : Catalog) : Prop where
  names : c.names.Nodup
  listed : ∀ name, name ∈ c.names ↔ ∃ t, c.get? name = some t
  filed : ∀ name t, c.get? name = some t → t.name = name
  tables : ∀ name t, c.get? name = some t → t.Sound

theorem sound_empty : Sound ∅ where
  names := List.nodup_nil
  listed _ := iff_of_false List.not_mem_nil nofun
  filed _ _ h := nomatch h
  tables _ _ h := nomatch h

namespace Sound

variable {c : Catalog}

theorem mem_names_iff (sound : c.Sound) {name : String} : name ∈ c.names ↔ (c.get? name).isSome :=
  (sound.listed name).trans Option.isSome_iff_exists.symm

/-- The step on the names is taken exactly when the step on the tables adds a key. -/
theorem mem_names_put (sound : c.Sound) {name other : String} {t : Table} :
    other ∈ (c.put name t).names ↔ other = name ∨ other ∈ c.names := by
  rw [names_put]
  split
  · rename_i old
    refine ⟨.inr, ?_⟩
    rintro (rfl | member)
    · exact sound.mem_names_iff.mpr old
    · exact member
  · rw [List.mem_append, List.mem_singleton, or_comm]

theorem nodup_names_put (sound : c.Sound) (name : String) (t : Table) :
    (c.put name t).names.Nodup := by
  rw [names_put]
  split
  · exact sound.names
  · rename_i new
    rw [List.nodup_append]
    refine ⟨sound.names, List.nodup_singleton name, ?_⟩
    rintro other old _ added rfl
    rw [List.mem_singleton.mp added, sound.mem_names_iff] at old
    exact new old

theorem put (sound : c.Sound) {t : Table} (table : t.Sound) : (c.put t.name t).Sound := by
  refine ⟨sound.nodup_names_put t.name t, ?_, ?_, ?_⟩
  · intro name
    rw [sound.mem_names_put, sound.listed, get?_put]
    by_cases same : name = t.name <;> simp [same]
  · intro name u found
    rw [get?_put] at found
    split at found
    · rename_i same
      cases found
      exact same.symm
    · exact sound.filed name u found
  · intro name u found
    rw [get?_put] at found
    split at found
    · cases found
      exact table
    · exact sound.tables name u found

end Sound

end Tabular.Catalog

import Tabular.Proofs.Directories
import Tabular.Store.Memory

/-! # What databases rely on in a store

A store decides by the name of a table whether it can write a snapshot, writing does not change that
for any name, and what cannot be written leaves the store as it was. What is read back has passed
the rules for stored tables.
-/

namespace Tabular

/-- A store on which a database can rely. -/
class LawfulStore (σ : Type) [Store σ] where
  /-- Why the snapshot of a table of a name cannot be written, if it cannot. -/
  refusal? : σ → String → Option Error
  save_refused {store : σ} {t : Table} {e : Error} (refused : refusal? store t.name = some e) :
    Store.save t store = .error e store
  save_accepted {store : σ} {t : Table} (accepted : refusal? store t.name = none) :
    ∃ store', Store.save t store = .ok ⟨⟩ store' ∧ refusal? store' = refusal? store
  check_of_loadAll {store : σ} {tables : List Table} (loaded : Store.loadAll store = .ok tables) :
    ∀ t ∈ tables, t.check = .ok ()

export LawfulStore (refusal?)

theorem Snapshot.check_of_decode {bytes : List UInt8} {t : Table}
    (h : Snapshot.decode bytes = .ok t) : t.check = .ok () := by
  obtain ⟨read, -, h⟩ := Fallible.bind_eq_ok.mp h
  obtain ⟨checked, h⟩ := Fallible.then_eq_ok.mp h
  cases h
  exact Fallible.mapError_eq_ok.mp checked

instance : LawfulStore MemoryStore where
  refusal? _ _ := none
  save_refused refused := nomatch refused
  save_accepted _ := ⟨_, MemoryStore.save_apply .., rfl⟩
  check_of_loadAll loaded t member := by
    obtain ⟨bytes, -, decoded⟩ := Fallible.exists_of_mapM_eq_ok loaded t member
    exact Snapshot.check_of_decode decoded

namespace Directory

/-- Why a file for the snapshot of a table cannot be written. -/
def refusalOf (d : Directory) (name : String) : Option Error :=
  if '/' ∈ name.toList then some .noSuchDirectory
  else if d.entries.get? (fileName name) = some .directory then some .isDirectory
  else none

theorem save_apply (d : Directory) (t : Table) :
    Store.save t d = match d.refusalOf t.name with
      | some e => .error e d
      | none => .ok ⟨⟩ (d.keep t) := by
  simp only [Store.save, refusalOf]
  by_cases slash : '/' ∈ t.name.toList
  · rw [if_pos slash, if_pos slash]
    rfl
  · simp only [slash, if_false, Action.bind_apply, Action.get_apply]
    by_cases occupied : d.entries.get? (fileName t.name) = some .directory
    · simp only [occupied, if_true]
      rfl
    · simp only [occupied, if_false]
      rfl

theorem refusalOf_keep {d : Directory} {t : Table} (accepted : d.refusalOf t.name = none) :
    (d.keep t).refusalOf = d.refusalOf := by
  have free : d.entries.get? (fileName t.name) ≠ some .directory := by
    intro occupied
    rw [refusalOf, occupied] at accepted
    split at accepted
    · cases accepted
    · cases accepted
  have file : (d.keep t).entries.get? (fileName t.name) ≠ some .directory := by
    rw [file?_eq_some_iff.mp (d.file?_keep_self t)]
    simp
  funext other
  rw [refusalOf, refusalOf]
  by_cases same : fileName other = fileName t.name
  · rw [same, if_neg free, if_neg file]
  · rw [d.get?_keep_of_ne same]

end Directory

instance : LawfulStore Directory where
  refusal? := Directory.refusalOf
  save_refused refused := by rw [Directory.save_apply, refused]
  save_accepted accepted :=
    ⟨_, by rw [Directory.save_apply, accepted], Directory.refusalOf_keep accepted⟩
  check_of_loadAll loaded t member := by
    rw [Directory.loadAll_eq] at loaded
    obtain ⟨snapshot, -, read⟩ := Fallible.exists_of_mapM_eq_ok loaded t member
    exact Snapshot.check_of_decode (Directory.loadFile_eq_ok_iff.mp read).1

namespace Refusable

variable {σ : Type} [Store σ]

theorem save_apply (s : Refusable σ) (t : Table) :
    Store.save t s = if s.refusing then .error .saveRefused s else
      match Store.save t s.store with
      | .ok a store => .ok a { s with store }
      | .error e store => .error e { s with store } := by
  obtain ⟨store, refusing⟩ := s
  simp only [Store.save, Action.bind_apply, Action.get_apply]
  cases refusing with
  | true => rfl
  | false =>
      simp only [Bool.false_eq_true, if_false, Action.on]
      cases Store.save t store <;> rfl

end Refusable

instance {σ : Type} [Store σ] [LawfulStore σ] : LawfulStore (Refusable σ) where
  refusal? s name := if s.refusing then some .saveRefused else refusal? s.store name
  save_refused {s t e} refused := by
    rw [Refusable.save_apply]
    by_cases refusing : s.refusing = true
    · rw [if_pos refusing] at refused ⊢
      cases refused
      rfl
    · rw [if_neg refusing] at refused ⊢
      rw [LawfulStore.save_refused refused]
  save_accepted {s t} accepted := by
    rw [Refusable.save_apply]
    by_cases refusing : s.refusing = true
    · rw [if_pos refusing] at accepted
      cases accepted
    · rw [if_neg refusing] at accepted ⊢
      obtain ⟨store', saved, same⟩ := LawfulStore.save_accepted accepted
      rw [saved]
      exact ⟨_, rfl, by rw [same]⟩
  check_of_loadAll {s tables} loaded := by
    have inner : Store.loadAll s.store = .ok tables := loaded
    exact LawfulStore.check_of_loadAll inner

namespace Refusable

variable {σ : Type} [Store σ] [LawfulStore σ] {s : Refusable σ}

theorem refusal?_eq_none_iff {name : String} :
    refusal? s name = none ↔ s.refusing = false ∧ refusal? s.store name = none := by
  change (if s.refusing then some .saveRefused else refusal? s.store name) = none ↔ _
  cases s.refusing <;> simp

theorem after_save {t : Table} (accepted : refusal? s t.name = none) :
    Action.after (Store.save t) s = { s with store := Action.after (Store.save t) s.store } := by
  rw [Action.after, save_apply, (refusal?_eq_none_iff.mp accepted).1, Action.after]
  cases Store.save t s.store <;> rfl

end Refusable

end Tabular

import Tabular.Proofs.Agreement
import Tabular.Proofs.Naming
import Tabular.Proofs.Persistence
import Tabular.Proofs.Watching

/-! # What is saved can be loaded

The tables that a store gives back are at every moment those that are registered, each as it was
right after its most recent successful save. A table that has been saved after its last change is
given back as it is, so a database that is opened anew goes on as the old one would.
-/

namespace Tabular

/-- Everything that a request can do: nothing is saved and nothing changes, or a table is saved and
    registered, or a table cannot be saved and is registered only if it was known before. -/
theorem Database.serve_cases {σ : Type} [Store σ] [LawfulStore σ] {db : Database (Refusable σ)}
    (sound : db.catalog.Sound) (r : Request) :
    ((db.told r.refusing).attempts r.text r.params = [] ∧ db.serve r = db.told r.refusing) ∨
    (∃ t, (db.told r.refusing).attempts r.text r.params = [(t.name, none)] ∧
      t.Sound ∧ (t.name ∈ db.tableNames ∨ t.name ≠ "") ∧
      refusal? db.store.store t.name = none ∧
      db.serve r = ⟨⟨Action.after (Store.save t) db.store.store, r.refusing⟩,
        db.catalog.put t.name t⟩) ∨
    ∃ t e, (db.told r.refusing).attempts r.text r.params = [(t.name, some e)] ∧
      (db.serve r = db.told r.refusing ∨ t.name ∈ db.tableNames ∧
        db.serve r = ⟨(db.told r.refusing).store, db.catalog.put t.name t⟩) := by
  have told : (db.told r.refusing).catalog.Sound := sound
  rw [attempts_eq told, serve, Action.after, execute_eq told]
  cases reached : (db.told r.refusing).catalog.effect r.text r.params with
  | error e => exact .inl ⟨rfl, rfl⟩
  | ok effect =>
      have tables := Catalog.effect_sound told reached
      cases effect with
      | answered outcome => exact .inl ⟨rfl, rfl⟩
      | changed outcome t =>
          obtain ⟨table, old⟩ := tables
          simp only [Effect.perform_changed]
          cases decided : refusal? (db.told r.refusing).store t.name with
          | some e => exact .inr (.inr ⟨t, e, rfl, .inr ⟨old, rfl⟩⟩)
          | none =>
              rw [Refusable.after_save decided]
              have accepted := (Refusable.refusal?_eq_none_iff.mp decided).2
              exact .inr (.inl ⟨t, rfl, table, .inl old, accepted, rfl⟩)
      | created outcome t =>
          simp only [Effect.perform_created]
          cases decided : refusal? (db.told r.refusing).store t.name with
          | some e => exact .inr (.inr ⟨t, e, rfl, .inl rfl⟩)
          | none =>
              have named : t.name ≠ "" := (Catalog.isWord_of_created told reached).1
              rw [Refusable.after_save decided]
              have accepted := (Refusable.refusal?_eq_none_iff.mp decided).2
              exact .inr (.inl ⟨t, rfl, tables.1, .inr named, accepted, rfl⟩)

/-! ## An account of saving -/

/-- A database with an account of what has been saved. -/
structure Ledger (σ : Type) where
  db : Database (Refusable σ)
  /-- The tables as they were right after each successful save, the latest first. -/
  saved : List (String × Table)
  /-- The tables that could not be saved and have neither changed nor been saved since. -/
  failed : List String

namespace Ledger

variable {σ : Type} [Store σ]

theorem lookup_cons_eq (name other : String) (t : Table) (rest : List (String × Table)) :
    ((other, t) :: rest).lookup name = if name = other then some t else rest.lookup name := by
  rw [List.lookup_cons]
  by_cases same : name = other
  · rw [if_pos same, beq_iff_eq.mpr same]
  · rw [if_neg same, beq_eq_false_iff_ne.mpr same]

/-- The account at the beginning. -/
def opened (db : Database (Refusable σ)) : Ledger σ := ⟨db, [], []⟩

/-- The table of a name as it was right after its most recent successful save. -/
def kept (l : Ledger σ) (name : String) : Option Table := l.saved.lookup name

/-- The account after a request. -/
def next (l : Ledger σ) (r : Request) : Ledger σ :=
  let db := l.db.serve r
  let attempts := (l.db.told r.refusing).attempts r.text r.params
  { db
    saved := attempts.filterMap (fun e =>
      if e.2 = none then (db.table? e.1).map (e.1, ·) else none) ++ l.saved
    failed := (attempts.filter (·.2 ≠ none)).map (·.1) ++ l.failed.filter fun name =>
      db.table? name = l.db.table? name ∧ (name, none) ∉ attempts }

/-- The account after requests one after another. -/
def after (l : Ledger σ) (requests : List Request) : Ledger σ := requests.foldl next l

theorem db_after (l : Ledger σ) (requests : List Request) :
    (l.after requests).db = l.db.serveAll requests := by
  induction requests generalizing l with
  | nil => rfl
  | cons head rest ih => exact ih (l.next head)

theorem saved_subset_after (l : Ledger σ) (requests : List Request) :
    l.saved ⊆ (l.after requests).saved := by
  induction requests generalizing l with
  | nil => exact List.Subset.refl _
  | cons head rest ih => exact List.Subset.trans (List.subset_append_right _ _) (ih (l.next head))

theorem mem_failed_next {l : Ledger σ} {r : Request} {name : String} :
    name ∈ (l.next r).failed ↔
      (∃ e, (name, some e) ∈ (l.db.told r.refusing).attempts r.text r.params) ∨
      name ∈ l.failed ∧ (l.db.serve r).table? name = l.db.table? name ∧
        (name, none) ∉ (l.db.told r.refusing).attempts r.text r.params := by
  simp only [next, List.mem_append, List.mem_map, List.mem_filter, decide_eq_true_eq]
  apply or_congr_left
  constructor
  · rintro ⟨⟨name, ending⟩, ⟨member, failed⟩, rfl⟩
    obtain ⟨e, rfl⟩ := Option.ne_none_iff_exists'.mp failed
    exact ⟨e, member⟩
  · rintro ⟨e, member⟩
    exact ⟨(name, some e), ⟨member, nofun⟩, rfl⟩

/-- A request that attempts to save nothing, or fails to save, adds nothing to what is saved. -/
theorem saved_next_of_unsaved {l : Ledger σ} {r : Request}
    (h : ∀ name, (name, none) ∉ (l.db.told r.refusing).attempts r.text r.params) :
    (l.next r).saved = l.saved := by
  simp only [next]
  apply List.append_left_eq_self.mpr
  apply List.filterMap_eq_nil_iff.mpr
  rintro ⟨name, ending⟩ member
  cases ending with
  | some e => rfl
  | none => exact absurd member (h name)

variable [DurableStore σ] {l : Ledger σ}

/-- What holds at every moment of a run: the store keeps what is noted down as saved, that is a
    table for each registered name, and the registered one unless saving it has failed. -/
structure Faithful (l : Ledger σ) : Prop where
  sound : l.db.catalog.Sound
  named : ∀ name ∈ l.db.tableNames, name ≠ ""
  keeps : Keeps l.db.store.store l.kept
  registered : ∀ name, name ∈ l.db.tableNames ↔ ∃ t, l.kept name = some t
  current : ∀ name, name ∉ l.failed → l.kept name = l.db.table? name

theorem faithful_opened {store : Refusable σ} (empty : Store.loadAll store = .ok []) :
    (opened (Database.new store)).Faithful where
  sound := Catalog.sound_empty
  named _ member := nomatch member
  keeps := DurableStore.keeps_none empty
  registered _ := iff_of_false List.not_mem_nil nofun
  current _ _ := rfl

theorem Faithful.next_saved (faithful : l.Faithful) {r : Request} {t : Table}
    (attempts : (l.db.told r.refusing).attempts r.text r.params = [(t.name, none)])
    (table : t.Sound) (known : t.name ∈ l.db.tableNames ∨ t.name ≠ "")
    (accepted : refusal? l.db.store.store t.name = none)
    (served : l.db.serve r = ⟨⟨Action.after (Store.save t) l.db.store.store, r.refusing⟩,
      l.db.catalog.put t.name t⟩)
    (fits : Snapshot.Fits (Snapshot.encode t)) : (l.next r).Faithful := by
  have named : t.name ≠ "" := known.elim (faithful.named t.name) id
  have found : ∀ name, (l.db.serve r).table? name =
      if name = t.name then some t else l.db.table? name := by
    intro name
    rw [served]
    exact Catalog.get?_put ..
  have saved : (l.next r).saved = (t.name, t) :: l.saved := by
    simp [next, attempts, found]
  have kept : (l.next r).kept = fun name => if name = t.name then some t else l.kept name := by
    funext name
    rw [Ledger.kept, saved]
    exact lookup_cons_eq name t.name t l.saved
  have db : (l.next r).db = l.db.serve r := rfl
  have names : ∀ name, name ∈ (l.db.serve r).tableNames ↔ name = t.name ∨
      name ∈ l.db.tableNames := by
    intro name
    rw [served]
    exact faithful.sound.mem_names_put
  refine ⟨?_, ?_, ?_, ?_, ?_⟩
  · rw [db, served]
    exact faithful.sound.put table
  · intro name member
    rcases (names name).mp member with rfl | old
    · exact named
    · exact faithful.named name old
  · rw [db, served, kept]
    exact DurableStore.keeps_save faithful.keeps ⟨table, named, fits⟩ accepted
  · intro name
    rw [db, names, kept, faithful.registered]
    by_cases same : name = t.name
    · simp [same]
    · simp [same]
  · intro name fine
    rw [db, found, congrFun kept name]
    by_cases same : name = t.name
    · rw [if_pos same, if_pos same]
    · rw [if_neg same, if_neg same]
      apply faithful.current
      intro failed
      apply fine
      rw [mem_failed_next, attempts, found, if_neg same]
      refine .inr ⟨failed, rfl, ?_⟩
      simp [same]

/-- A request that saves nothing keeps the account faithful, as long as it changes no table but one
    that it fails to save. -/
theorem Faithful.next_unsaved (faithful : l.Faithful) {r : Request}
    (unsaved : ∀ name, (name, none) ∉ (l.db.told r.refusing).attempts r.text r.params)
    (store : (l.db.serve r).store.store = l.db.store.store)
    (names : ∀ name, name ∈ (l.db.serve r).tableNames ↔ name ∈ l.db.tableNames)
    (others : ∀ name, (∀ e, (name, some e) ∉ (l.db.told r.refusing).attempts r.text r.params) →
      (l.db.serve r).table? name = l.db.table? name) : (l.next r).Faithful := by
  have db : (l.next r).db = l.db.serve r := rfl
  have kept : (l.next r).kept = l.kept := by
    funext name
    unfold Ledger.kept
    rw [saved_next_of_unsaved unsaved]
  refine ⟨?_, ?_, ?_, ?_, ?_⟩
  · have told : (l.db.told r.refusing).catalog.Sound := faithful.sound
    exact Database.sound_execute told r.text r.params
  · intro name member
    exact faithful.named name ((names name).mp member)
  · rw [db, store, kept]
    exact faithful.keeps
  · intro name
    rw [db, names, kept]
    exact faithful.registered name
  · intro name fine
    rw [mem_failed_next] at fine
    obtain ⟨succeeded, unchanged⟩ := not_or.mp fine
    have same := others name (not_exists.mp succeeded)
    rw [db, kept, same]
    apply faithful.current
    intro failed
    exact unchanged ⟨failed, same, unsaved name⟩

theorem Faithful.next_refused (faithful : l.Faithful) {r : Request} {t : Table} {e : Error}
    (attempts : (l.db.told r.refusing).attempts r.text r.params = [(t.name, some e)])
    (served : l.db.serve r = l.db.told r.refusing ∨ t.name ∈ l.db.tableNames ∧
      l.db.serve r = ⟨(l.db.told r.refusing).store, l.db.catalog.put t.name t⟩) :
    (l.next r).Faithful := by
  apply faithful.next_unsaved
  · intro name
    rw [attempts]
    simp
  · rcases served with same | ⟨-, same⟩
    · exact congrArg (·.store.store) same
    · exact congrArg (·.store.store) same
  · intro name
    rcases served with same | ⟨old, same⟩
    · rw [same]
      rfl
    · rw [same]
      refine faithful.sound.mem_names_put.trans (or_iff_right_of_imp ?_)
      rintro rfl
      exact old
  · intro name others
    have other : name ≠ t.name := by
      rintro rfl
      rw [attempts] at others
      exact others e List.mem_cons_self
    rcases served with same | ⟨-, same⟩
    · rw [same]
      rfl
    · rw [same]
      exact Catalog.get?_put_of_ne _ _ other

theorem Faithful.next (faithful : l.Faithful) {r : Request}
    (fits : ∀ e ∈ (l.next r).saved, Snapshot.Fits (Snapshot.encode e.2)) :
    (l.next r).Faithful := by
  rcases Database.serve_cases faithful.sound r with ⟨attempts, idle⟩ |
    ⟨t, attempts, table, known, accepted, served⟩ | ⟨t, e, attempts, served⟩
  · refine faithful.next_unsaved ?_ ?_ ?_ ?_
    · rw [attempts]
      exact fun name => List.not_mem_nil
    · exact congrArg (·.store.store) idle
    · exact fun name => iff_of_eq (congrArg (fun db => name ∈ db.tableNames) idle)
    · exact fun name _ => congrArg (fun db => db.table? name) idle
  · have written : (t.name, t) ∈ (l.next r).saved := by
      simp [Ledger.next, attempts, served, Database.table?]
    have fits : Snapshot.Fits (Snapshot.encode t) := fits (t.name, t) written
    exact faithful.next_saved attempts table known accepted served fits
  · exact faithful.next_refused attempts served

theorem Faithful.after (faithful : l.Faithful) {requests : List Request}
    (fits : ∀ e ∈ (l.after requests).saved, Snapshot.Fits (Snapshot.encode e.2)) :
    (l.after requests).Faithful := by
  induction requests generalizing l with
  | nil => exact faithful
  | cons head rest ih =>
      have past := (l.next head).saved_subset_after rest
      exact ih (faithful.next fun e member => fits e (past member)) fits

/-- Where no save has failed, what is saved is what is in use. -/
theorem Faithful.kept_eq (faithful : l.Faithful) (fine : ∀ name ∈ l.db.tableNames, name ∉ l.failed)
    (name : String) : l.kept name = l.db.table? name := by
  by_cases known : name ∈ l.db.tableNames
  · exact faithful.current name (fine name known)
  · have unsaved : l.kept name = none := by
      apply Option.eq_none_iff_forall_not_mem.mpr
      intro t kept
      exact known ((faithful.registered name).mpr ⟨t, kept⟩)
    have missing : l.db.table? name = none := by
      apply Option.eq_none_iff_forall_not_mem.mpr
      intro t found
      exact known ((faithful.sound.listed name).mpr ⟨t, found⟩)
    rw [unsaved, missing]

end Ledger

namespace Database

variable {σ : Type} [Store σ] [DurableStore σ]

/-- Whatever is saved on a store that was empty can be loaded, at every moment of a run. The lengths
    of the snapshots are those of bytes in memory. -/
theorem durable_of_empty {store : Refusable σ} {db : Database (Refusable σ)}
    (empty : Store.loadAll store = .ok []) (opened : open? store = .ok db)
    (requests : List Request)
    (fits : ∀ e ∈ ((Ledger.opened db).after requests).saved,
      Snapshot.Fits (Snapshot.encode e.2)) :
    let l := (Ledger.opened db).after requests
    l.db = db.serveAll requests ∧
    (∃ tables, Store.loadAll l.db.store = .ok tables ∧ (tables.map (·.name)).Nodup ∧
      (∀ name, name ∈ tables.map (·.name) ↔ name ∈ l.db.tableNames) ∧
      ∀ t ∈ tables, l.kept t.name = some t) ∧
    (∀ name, name ∉ l.failed → l.kept name = l.db.table? name) ∧
    ((∀ name ∈ l.db.tableNames, name ∉ l.failed) → ∃ db', open? l.db.store = .ok db' ∧
      db'.tableNames.Perm l.db.tableNames ∧ ∀ later, db'.answers later = l.db.answers later) := by
  intro l
  have new : db = Database.new store := by
    rw [open?, load_apply] at opened
    simp only [Database.new, empty] at opened
    exact (Except.ok.inj opened).symm
  subst new
  have faithful : l.Faithful := (Ledger.faithful_opened empty).after fits
  obtain ⟨tables, loaded, different, same⟩ := DurableStore.loadAll_of_keeps faithful.keeps
  have listed : ∀ t, t ∈ tables ↔ l.kept t.name = some t := by
    intro t
    rw [same, and_iff_left rfl]
  refine ⟨Ledger.db_after _ _, ⟨tables, loaded, different, ?_, fun t => (listed t).mp⟩,
    faithful.current, fun fine => ?_⟩
  · intro name
    rw [faithful.registered, List.mem_map]
    simp only [same]
  · simp only [faithful.kept_eq fine] at listed
    obtain ⟨db', reopened, agrees⟩ := agrees_open faithful.sound loaded different listed
    exact ⟨db', reopened, agrees.names, agrees.answers⟩

/-- The index is written from its last key to its first. -/
theorem durable_after_refused_insert :
    let reversed : Snapshot.Arrangement :=
      ⟨fun e => e.2.entries.toList.reverse, fun _ => List.reverse_perm _⟩
    let db : Database (Refusable MemoryStore) := new ⟨⟨∅, fun _ => reversed⟩, false⟩
    let requests : List Request := [⟨"CREATE TABLE t (a FLOAT)", [], false⟩,
      ⟨"CREATE INDEX i ON t (a)", [], false⟩, ⟨"INSERT INTO t VALUES (1)", [], true⟩,
      ⟨"INSERT INTO t VALUES (2)", [], false⟩]
    let query : Request := ⟨"SELECT * FROM t WHERE a = 1", [], false⟩
    ∃ db', open? (db.serveAll requests).store = .ok db' ∧
      db'.answers [query] = [.ok (.selected ⟨["a"], [[.float (.ofInt64 1)]]⟩)] := by
  intro reversed db requests query
  have opened : open? db.store = .ok db := rfl
  have fits : ∀ e ∈ ((Ledger.opened db).after requests).saved,
      Snapshot.Fits (Snapshot.encode e.2) := by decide +kernel
  have fine : ∀ name ∈ ((Ledger.opened db).after requests).db.tableNames,
      name ∉ ((Ledger.opened db).after requests).failed := by decide +kernel
  obtain ⟨run, -, -, reopened⟩ := durable_of_empty rfl opened requests fits
  obtain ⟨db', same, -, answers⟩ := reopened fine
  rw [run] at same answers
  refine ⟨db', same, (answers [query]).trans ?_⟩
  decide +kernel

end Database

end Tabular

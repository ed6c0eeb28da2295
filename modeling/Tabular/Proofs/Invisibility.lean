import Tabular.Proofs.Requests

/-! # Indexes cannot be seen

Statements do the same on a database and on the one without its indexes: they give the same answers
and leave the same tables behind, apart from the indexes. Statements that make indexes can therefore
be put anywhere among others without changing what those answer.
-/

namespace Tabular

/-- A table without its indexes. -/
def Table.bare (t : Table) : Table := { t with indexes := ∅ }

/-- A catalog whose tables have no indexes. -/
def Catalog.bare (c : Catalog) : Catalog := c.map Table.bare

/-- An effect whose table has no indexes. -/
def Effect.bare : Effect → Effect
  | .answered outcome => .answered outcome
  | .changed outcome t => .changed outcome t.bare
  | .created outcome t => .created outcome t.bare

/-- A database whose tables have no indexes. -/
def Database.bare {σ : Type} (db : Database σ) : Database σ := { db with catalog := db.catalog.bare }

namespace Table

variable {t : Table}

theorem sound_bare (sound : t.Sound) : t.bare.Sound where
  toValid := ⟨sound.columns, sound.names, sound.widths, sound.stored, sound.unique, nofun⟩
  current := rfl

theorem read_bare (sound : t.Sound) (condition : Option (Condition Value)) :
    t.bare.read condition = t.read condition := by
  cases condition with
  | none => rfl
  | some condition =>
      rw [read, read, find_eq (sound_bare sound), find_eq sound]
      rfl

end Table

namespace Catalog

variable {c : Catalog}

theorem sound_bare (sound : c.Sound) : c.bare.Sound := by
  refine ⟨sound.names, ?_, ?_, ?_⟩
  · intro name
    rw [bare, names_map, sound.mem_names_iff, get?_map, ← Option.isSome_iff_exists,
      Option.isSome_map]
  · intro name t found
    rw [bare, get?_map] at found
    obtain ⟨u, old, rfl⟩ := Option.map_eq_some_iff.mp found
    exact sound.filed name u old
  · intro name t found
    rw [bare, get?_map] at found
    obtain ⟨u, old, rfl⟩ := Option.map_eq_some_iff.mp found
    exact Table.sound_bare (sound.tables name u old)

theorem bare_bare (c : Catalog) : c.bare.bare = c.bare := by
  simp only [bare, map, SortedMap.mapValues_mapValues]
  rfl

theorem table_bare (c : Catalog) (name : String) : c.bare.table name = Table.bare <$> c.table name := by
  rw [table, table, bare, get?_map]
  cases c.get? name <;> rfl

end Catalog

namespace Plan

variable {c : Catalog}

theorem rows_bare (sound : c.Sound) (plan : Plan) : plan.rows c.bare = plan.rows c := by
  induction plan with
  | createTable | createIndex | insert | update | delete => rfl
  | scan table condition =>
      rw [rows, rows, Catalog.table_bare]
      cases found : c.table table with
      | error e => rfl
      | ok t => exact Table.read_bare (sound.tables table t (Catalog.table_eq_ok found)) condition
  | join left right on outer ihl ihr => rw [rows, rows, ihl, ihr]
  | filter source condition ih => rw [rows, rows, ih]
  | project source columns ih => rw [rows, rows, ih]
  | limit source count ih => rw [rows, rows, ih]

theorem counted_bare (outcome : Nat → Outcome) (t : Table) (result : Nat × List Row) :
    (Effect.counted outcome t.bare result).bare = (Effect.counted outcome t result).bare := by
  unfold Effect.counted
  split
  · rfl
  · rfl

/-- Without indexes a plan comes to the same, apart from the indexes of the table it writes. -/
theorem effect_bare (sound : c.Sound) (plan : Plan) :
    Effect.bare <$> plan.effect c.bare = Effect.bare <$> plan.effect c := by
  cases plan with
  | scan | join | filter | project | limit =>
      simp only [effect, rows_bare sound]
  | createTable schema =>
      rw [effect, effect, Catalog.bare, Catalog.get?_map, Option.isSome_map]
  | createIndex name table column =>
      rw [effect, effect, Catalog.table_bare]
      cases c.table table with
      | error e => rfl
      | ok t =>
          have position : t.bare.columnPosition column = t.columnPosition column := rfl
          simp only [Fallible.map_ok, Fallible.ok_bind, Table.indexing, position]
          cases t.columnPosition column <;> rfl
  | insert table columns values =>
      rw [effect, effect, Catalog.table_bare]
      cases c.table table with
      | error e => rfl
      | ok t =>
          have rows : t.bare.given columns values >>= t.bare.insertion =
              t.given columns values >>= t.insertion := rfl
          simp only [Fallible.map_ok, Fallible.ok_bind, rows]
          cases t.given columns values >>= t.insertion <;> rfl
  | update table condition assignments =>
      rw [effect, effect, Catalog.table_bare]
      cases c.table table with
      | error e => rfl
      | ok t =>
          have rows : t.bare.revision condition assignments =
              t.revision condition assignments := rfl
          simp only [Fallible.map_ok, Fallible.ok_bind, rows]
          cases t.revision condition assignments with
          | error e => rfl
          | ok result => exact congrArg Except.ok (counted_bare .updated t result)
  | delete table condition =>
      rw [effect, effect, Catalog.table_bare]
      cases c.table table with
      | error e => rfl
      | ok t =>
          have rows : t.bare.removal condition = t.removal condition := rfl
          simp only [Fallible.map_ok, Fallible.ok_bind, rows]
          cases t.removal condition with
          | error e => rfl
          | ok result => exact congrArg Except.ok (counted_bare .deleted t result)

end Plan

theorem Catalog.effect_bare {c : Catalog} (sound : c.Sound) (text : String) (params : List Value) :
    Effect.bare <$> c.bare.effect text params = Effect.bare <$> c.effect text params := by
  rw [effect, effect]
  cases Plan.ofText text params with
  | error e => rfl
  | ok plan => exact plan.effect_bare sound

namespace Database

/-- Two databases whose tables differ in nothing but their indexes. -/
structure Alike {σ τ : Type} (db : Database σ) (db' : Database τ) : Prop where
  left : db.catalog.Sound
  right : db'.catalog.Sound
  catalogs : db.catalog.bare = db'.catalog.bare

variable {σ : Type} {db db' : Database σ}

theorem alike_bare (sound : db.catalog.Sound) : db.Alike db.bare :=
  ⟨sound, Catalog.sound_bare sound, (Catalog.bare_bare db.catalog).symm⟩

theorem Alike.effect (alike : db.Alike db') (text : String) (params : List Value) :
    Effect.bare <$> db.catalog.effect text params =
      Effect.bare <$> db'.catalog.effect text params := by
  rw [← Catalog.effect_bare alike.left, alike.catalogs, Catalog.effect_bare alike.right]

theorem Alike.put (alike : db.Alike db') {t t' : Table} (same : t.bare = t'.bare) :
    (db.catalog.put t.name t).bare = (db'.catalog.put t'.name t').bare := by
  have named : t.name = t'.name := congrArg (·.name) same
  rw [Catalog.bare, Catalog.bare, Catalog.map_put, Catalog.map_put, named, same]
  exact congrArg (·.put t'.name t'.bare) alike.catalogs

variable [Store σ] [LawfulStore σ]

theorem Alike.perform (alike : db.Alike db') (stores : refusal? db.store = refusal? db'.store)
    {effect effect' : Effect} (same : effect.bare = effect'.bare) :
    Action.result effect.perform db = Action.result effect'.perform db' ∧
      (Action.after effect.perform db).catalog.bare =
        (Action.after effect'.perform db').catalog.bare := by
  cases effect with
  | answered outcome =>
      cases effect' with
      | changed | created => cases same
      | answered outcome' =>
          cases same
          exact ⟨rfl, alike.catalogs⟩
  | changed outcome t =>
      cases effect' with
      | answered | created => cases same
      | changed outcome' t' =>
          obtain ⟨rfl, tables⟩ := Effect.changed.inj same
          have named : t.name = t'.name := congrArg (·.name) tables
          have catalogs := alike.put tables
          simp only [Action.result, Action.after, Effect.perform_changed, stores, named]
          cases refusal? db'.store t'.name with
          | some e => exact ⟨rfl, named ▸ catalogs⟩
          | none => exact ⟨rfl, named ▸ catalogs⟩
  | created outcome t =>
      cases effect' with
      | answered | changed => cases same
      | created outcome' t' =>
          obtain ⟨rfl, tables⟩ := Effect.created.inj same
          have named : t.name = t'.name := congrArg (·.name) tables
          have catalogs := alike.put tables
          simp only [Action.result, Action.after, Effect.perform_created, stores, named]
          cases refusal? db'.store t'.name with
          | some e => exact ⟨rfl, alike.catalogs⟩
          | none => exact ⟨rfl, named ▸ catalogs⟩

/-- Databases that differ in nothing but indexes give the same answer, and nothing but indexes is
    different afterwards. -/
theorem Alike.execute (alike : db.Alike db') (stores : refusal? db.store = refusal? db'.store)
    (text : String) (params : List Value) :
    Action.result (execute text params) db = Action.result (execute text params) db' ∧
      (Action.after (execute text params) db).Alike (Action.after (execute text params) db') := by
  have effects := alike.effect text params
  have both : Action.result (Database.execute text params) db =
        Action.result (Database.execute text params) db' ∧
      (Action.after (Database.execute text params) db).catalog.bare =
        (Action.after (Database.execute text params) db').catalog.bare := by
    simp only [Action.result, Action.after, execute_eq alike.left, execute_eq alike.right]
    cases reached : db.catalog.effect text params with
    | error e =>
        cases reached' : db'.catalog.effect text params with
        | error e' =>
            rw [reached, reached'] at effects
            cases effects
            exact ⟨rfl, alike.catalogs⟩
        | ok effect' =>
            rw [reached, reached'] at effects
            cases effects
    | ok effect =>
        cases reached' : db'.catalog.effect text params with
        | error e' =>
            rw [reached, reached'] at effects
            cases effects
        | ok effect' =>
            rw [reached, reached'] at effects
            exact alike.perform stores (Except.ok.inj effects)
  exact ⟨both.1, sound_execute alike.left text params, sound_execute alike.right text params, both.2⟩

end Database

/-! ## Runs with more indexes -/

/-- Whether a request is to make an index. -/
def Request.MakesIndex (r : Request) : Prop :=
  ∃ name table column, Statement.parse r.text = .ok (.createIndex name table column)

namespace Database

variable {σ : Type} [Store σ] {db db' : Database (Refusable σ)}

/-- The answers to those requests of a run that are marked. -/
def answersTo (db : Database (Refusable σ)) : List (Request × Bool) → List (Except Error Outcome)
  | [] => []
  | (r, marked) :: rest =>
    let later := (db.serve r).answersTo rest
    if marked then db.answer r :: later else later

variable [LawfulStore σ]

theorem Alike.serve (alike : db.Alike db')
    (stores : refusal? db.store.store = refusal? db'.store.store) (r : Request) :
    db.answer r = db'.answer r ∧ (db.serve r).Alike (db'.serve r) := by
  have told : (db.told r.refusing).Alike (db'.told r.refusing) :=
    ⟨alike.left, alike.right, alike.catalogs⟩
  refine told.execute ?_ r.text r.params
  funext name
  exact congrArg (fun refused => if r.refusing then some .saveRefused else refused name) stores

theorem bare_serve_of_makesIndex (sound : db.catalog.Sound) {r : Request} (h : r.MakesIndex) :
    (db.serve r).catalog.bare = db.catalog.bare := by
  obtain ⟨name, table, column, parsed⟩ := h
  have plan : Plan.ofText r.text r.params = .ok (.createIndex name table column) := by
    rw [Plan.ofText, parsed]
    rfl
  have told : (db.told r.refusing).catalog.Sound := sound
  rw [serve, Action.after, execute_eq told, Catalog.effect, plan]
  cases reached : Plan.effect (db.told r.refusing).catalog (.createIndex name table column) with
  | error e => simp only [Fallible.ok_bind, reached]; rfl
  | ok effect =>
      obtain ⟨t, known, rest⟩ := Fallible.bind_eq_ok.mp reached
      obtain ⟨t', made, same⟩ := Fallible.bind_eq_ok.mp rest
      cases same
      have found : db.catalog.get? table = some t := Catalog.table_eq_ok known
      have tables : t'.bare = t.bare := by
        obtain ⟨position, -, written⟩ := Fallible.bind_eq_ok.mp made
        cases written
        rfl
      have put : (db.catalog.put t'.name t').bare = db.catalog.bare := by
        rw [Table.indexing_name made, sound.filed table t found, Catalog.bare, Catalog.map_put, tables]
        exact Catalog.put_of_get? (by rw [Catalog.get?_map, found]; rfl)
      simp only [Fallible.ok_bind, reached, Effect.perform_changed]
      cases refusal? (db.told r.refusing).store t'.name with
      | some e => exact put
      | none => exact put

/-- Requests that make indexes can be put anywhere in a run. -/
theorem Alike.answersTo {script : List (Request × Bool)}
    (more : ∀ e ∈ script, e.2 = false → e.1.MakesIndex) (alike : db.Alike db')
    (stores : refusal? db.store.store = refusal? db'.store.store) :
    db.answersTo script = db'.answers ((script.filter (·.2)).map (·.1)) := by
  induction script generalizing db db' with
  | nil => rfl
  | cons head rest ih =>
      obtain ⟨r, marked⟩ := head
      obtain ⟨here, others⟩ := List.forall_mem_cons.mp more
      have kept := refusal?_serve alike.left r
      cases marked with
      | false =>
          have bare := bare_serve_of_makesIndex alike.left (here rfl)
          have told : (db.told r.refusing).catalog.Sound := alike.left
          have after : (db.serve r).Alike db' :=
            ⟨sound_execute told r.text r.params, alike.right, bare.trans alike.catalogs⟩
          exact ih others after (kept.trans stores)
      | true =>
          obtain ⟨same, after⟩ := alike.serve stores r
          have kept' := refusal?_serve alike.right r
          have later := ih others after ((kept.trans stores).trans kept'.symm)
          simp only [Database.answersTo, if_true, List.filter_cons, List.map_cons, answers]
          rw [same, later]

/-- No answer depends on indexes, and no run depends on when indexes are made. -/
theorem indexes_invisible (h : db.Reachable) :
    (∀ text params,
      Action.result (execute text params) db = Action.result (execute text params) db.bare ∧
      (Action.after (execute text params) db).bare.catalog =
        (Action.after (execute text params) db.bare).bare.catalog) ∧
    ∀ script : List (Request × Bool), (∀ e ∈ script, e.2 = false → e.1.MakesIndex) →
      db.answersTo script = db.answers ((script.filter (·.2)).map (·.1)) := by
  refine ⟨fun text params => ?_, fun script more => ?_⟩
  · obtain ⟨same, after⟩ := (alike_bare h.sound).execute rfl text params
    exact ⟨same, after.catalogs⟩
  · exact Alike.answersTo more ⟨h.sound, h.sound, rfl⟩ rfl

theorem index_invisible_to_query :
    let db := (new (Refusable.mk MemoryStore.empty false)).afterAll
      [("CREATE TABLE t (a FLOAT)", []), ("INSERT INTO t VALUES (1)", [])]
    let index := Request.mk "CREATE INDEX i ON t(a)" [] false
    let query := Request.mk "SELECT * FROM t WHERE a = 1" [] false
    db.answersTo [(index, false), (query, true)] =
      [.ok (.selected ⟨["a"], [[.float (.ofInt64 1)]]⟩)] := by
  intro db index query
  have opened : open? (Refusable.mk MemoryStore.empty false) = .ok (new ⟨.empty, false⟩) := rfl
  have reachable : db.Reachable := (Reachable.opened opened).afterAll _
  have makes : index.MakesIndex := ⟨"i", "t", "a", by decide +kernel⟩
  have more : ∀ e ∈ [(index, false), (query, true)], e.2 = false → e.1.MakesIndex := by
    intro e member unmarked
    rcases List.mem_cons.mp member with rfl | member
    · exact makes
    · rw [List.mem_singleton.mp member] at unmarked
      cases unmarked
  refine ((indexes_invisible reachable).2 _ more).trans ?_
  have answered : db.answers [query] = [.ok (.selected ⟨["a"], [[.float (.ofInt64 1)]]⟩)] := by
    decide +kernel
  exact answered

end Database

end Tabular

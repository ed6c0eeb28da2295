import Tabular.Proofs.Agreement
import Tabular.Proofs.Naming
import Tabular.Proofs.Persistence

/-! # Snapshots in memory and in a directory

Where the snapshots of a database are kept does not show in its replies. The names of tables are
words, so each of them names a file, and since no sign of a word comes before the dot of the
extension, the files stand in the order of their tables.
-/

namespace Tabular

/-! ## The order of files -/

theorem lt_of_append_lt {c : Char} {rest as bs : List Char} (above : ∀ a ∈ as, c < a)
    (h : as ++ c :: rest < bs ++ c :: rest) : as < bs := by
  induction as generalizing bs with
  | nil =>
      cases bs with
      | nil => exact absurd h (List.lt_irrefl _)
      | cons b bs => exact List.nil_lt_cons b bs
  | cons a as ih =>
      obtain ⟨here, above⟩ := List.forall_mem_cons.mp above
      cases bs with
      | nil =>
          -- the longer list goes on above the sign that follows the shorter one
          rcases List.cons_lt_cons_iff.mp h with before | ⟨rfl, -⟩
          · exact absurd before (Char.lt_asymm here)
          · exact absurd here (Char.lt_irrefl a)
      | cons b bs =>
          rcases List.cons_lt_cons_iff.mp h with before | ⟨same, h⟩
          · exact List.cons_lt_cons_iff.mpr (.inl before)
          · exact List.cons_lt_cons_iff.mpr (.inr ⟨same, ih above h⟩)

/-- The file of a word comes before another only if the word does. -/
theorem IsWord.lt_of_fileName {name other : String} (word : IsWord name)
    (h : Directory.fileName name < Directory.fileName other) : compare name other = .lt := by
  have above : ∀ c ∈ name.toList, '.' < c := by
    intro c member
    have := Token.le_of_continuesWord (word.2 c member)
    exact Nat.lt_of_lt_of_le (by decide : '.'.toNat < 0x30) this
  rw [Directory.fileName, Directory.fileName, Directory.extension, ← Text.bytes_append,
    ← Text.bytes_append] at h
  have texts : (name ++ ".db").toList < (other ++ ".db").toList :=
    String.lt_iff.mp (Text.lt_of_bytes_lt h)
  rw [String.toList_append, String.toList_append] at texts
  have dot : ".db".toList = '.' :: ['d', 'b'] := rfl
  rw [dot] at texts
  exact compareOfLessAndEq_eq_lt.mpr (lt_of_append_lt above texts)

variable {kept : String → Option Table}

/-- A directory gives back the tables that memory gives back, in the same order. -/
theorem loadAll_eq {d : Directory} {s : MemoryStore} (filed : d.Holds kept) (stored : s.Holds kept)
    (words : ∀ name t, kept name = some t → IsWord name) :
    Store.loadAll d = Store.loadAll s := by
  obtain ⟨files, read, stems, listed⟩ := filed.loadAll
  obtain ⟨tables, loaded, names, listed'⟩ := stored.loadAll
  have inFiles : files.Pairwise fun t u => compare t.name u.name = .lt := by
    have sorted : (d.snapshots.map (·.1)).Pairwise fun a b =>
        a ++ Directory.extension < b ++ Directory.extension :=
      List.pairwise_map.mpr d.sorted_snapshots
    rw [← stems] at sorted
    refine (List.pairwise_map.mp sorted).imp_of_mem fun {t u} member _ below => ?_
    exact (words t.name t ((listed t.name t).mpr ⟨member, rfl⟩)).lt_of_fileName below
  have inMemory : tables.Pairwise fun t u => compare t.name u.name = .lt := by
    have sorted : s.snapshots.keys.Pairwise fun a b => compare a b = .lt :=
      List.pairwise_map.mpr s.snapshots.sorted
    rw [← names] at sorted
    exact List.pairwise_map.mp sorted
  rw [read, loaded]
  refine congrArg Except.ok (List.Perm.eq_of_pairwise (fun t u _ _ before after => ?_)
    inFiles inMemory ?_)
  · rw [Std.OrientedCmp.gt_of_lt before] at after
    cases after
  · have different {items : List Table}
        (sorted : items.Pairwise fun t u => compare t.name u.name = .lt) : items.Nodup :=
      sorted.imp fun {t u} below (same : t = u) =>
        SortedMap.not_below_itself u.name (same ▸ below)
    refine (List.perm_ext_iff_of_nodup (different inFiles) (different inMemory)).mpr fun t => ?_
    rw [← and_iff_left (a := t ∈ files) rfl, ← listed t.name t, listed' t.name t,
      and_iff_left rfl]

/-! ## Conversations -/

/-- What can be asked of a database. -/
inductive Step where
  | execute (text : String) (params : List Value)
  | listTables
  | getTable (name : String)
  /-- The database is given up, and one is opened on its store. -/
  | reopen

/-- What a database says to a step. -/
inductive Reply where
  | executed (result : Except Error Outcome)
  | tableNames (names : List String)
  | table (t : Option Table)
  | reopened (result : Except Error Unit)
  deriving DecidableEq

namespace Database

section

variable {σ : Type} [Store σ]

/-- The reply to a step and the database after it, which stays in use if it cannot be opened
    again. -/
def respond (db : Database σ) : Step → Reply × Database σ
  | .execute text params =>
    (.executed (Action.result (execute text params) db), Action.after (execute text params) db)
  | .listTables => (.tableNames db.tableNames, db)
  | .getTable name => (.table (db.table? name), db)
  | .reopen =>
    match open? db.store with
    | .ok db' => (.reopened (.ok ⟨⟩), db')
    | .error e => (.reopened (.error e), db)

/-- The replies to steps one after another. -/
def replies (db : Database σ) : List Step → List Reply
  | [] => []
  | step :: rest => (db.respond step).1 :: (db.respond step).2.replies rest

/-- The database after steps one after another. -/
def afterSteps (db : Database σ) (steps : List Step) : Database σ :=
  steps.foldl (fun db step => (db.respond step).2) db

/-- Whether the snapshot of every table can be in memory. -/
def Fits (db : Database σ) : Prop :=
  ∀ name ∈ db.tableNames, ∀ t ∈ db.table? name, Snapshot.Fits (Snapshot.encode t)

instance (db : Database σ) : Decidable db.Fits :=
  inferInstanceAs (Decidable (∀ name ∈ db.tableNames, ∀ t ∈ db.table? name, _))

omit [Store σ] in
theorem Fits.put {store : σ} {c : Catalog} (sound : c.Sound) {t : Table}
    (fits : Fits ⟨store, c.put t.name t⟩) : Snapshot.Fits (Snapshot.encode t) :=
  fits t.name (sound.mem_names_put.mpr (.inl rfl)) t (Catalog.get?_put_self ..)

end

/-- Two databases that know the same tables in the same order, each table a word that the directory
    can take, and have all of them saved. -/
structure Mirrors (disk : Database Directory) (memory : Database MemoryStore) : Prop where
  catalog : disk.catalog = memory.catalog
  sound : memory.catalog.Sound
  words : ∀ name ∈ memory.tableNames, IsWord name
  writable : ∀ name, IsWord name → refusal? disk.store name = none
  filed : disk.store.Holds memory.catalog.get?
  stored : memory.store.Holds memory.catalog.get?

theorem mirrors_new {directory : Directory} {memory : MemoryStore}
    (noEntries : directory.entries = ∅) (noSnapshots : memory.snapshots = ∅) :
    Mirrors (new directory) (new memory) where
  catalog := rfl
  sound := Catalog.sound_empty
  words _ member := nomatch member
  writable name word := by
    have slash : '/' ∉ name.toList := fun slash =>
      absurd (Token.le_of_continuesWord (word.2 _ slash)) (by decide)
    have free : directory.entries.get? (Directory.fileName name) ≠ some .directory := by
      simp [noEntries]
    change directory.refusalOf name = none
    rw [Directory.refusalOf, if_neg slash, if_neg free]
  filed := Directory.holds_none (directory.loadAll_of_empty noEntries)
  stored := MemoryStore.holds_none (memory.loadAll_of_empty noSnapshots)

namespace Mirrors

variable {disk : Database Directory} {memory : Database MemoryStore}

theorem save (mirrors : Mirrors disk memory) {t : Table} (storable : t.Storable)
    (word : IsWord t.name) :
    Mirrors ⟨Action.after (Store.save t) disk.store, disk.catalog.put t.name t⟩
      ⟨Action.after (Store.save t) memory.store, memory.catalog.put t.name t⟩ := by
  have found : (memory.catalog.put t.name t).get? =
      fun name => if name = t.name then some t else memory.catalog.get? name := by
    funext name
    exact Catalog.get?_put ..
  refine ⟨?_, ?_, ?_, ?_, ?_, ?_⟩
  · rw [mirrors.catalog]
  · exact mirrors.sound.put storable.toSound
  · intro name member
    rcases mirrors.sound.mem_names_put.mp member with rfl | old
    · exact word
    · exact mirrors.words name old
  · intro name other
    rw [LawfulStore.refusal?_after]
    exact mirrors.writable name other
  · rw [found, Directory.after_save (mirrors.writable t.name word)]
    exact mirrors.filed.keep storable
  · rw [found]
    exact mirrors.stored.keep storable

theorem perform (mirrors : Mirrors disk memory) {effect : Effect}
    (tables : effect.Sound memory.catalog)
    (created : ∀ outcome t, effect = .created outcome t → IsWord t.name)
    (fits : (Action.after effect.perform memory).Fits) :
    Action.result effect.perform disk = Action.result effect.perform memory ∧
      Mirrors (Action.after effect.perform disk) (Action.after effect.perform memory) := by
  cases effect with
  | answered outcome => exact ⟨rfl, mirrors⟩
  | changed outcome t =>
      have word := mirrors.words t.name tables.2
      have taken : refusal? memory.store t.name = none := rfl
      simp only [Action.result, Action.after, Effect.perform_changed,
        mirrors.writable t.name word, taken] at fits ⊢
      exact ⟨trivial, mirrors.save ⟨tables.1, word.1, fits.put mirrors.sound⟩ word⟩
  | created outcome t =>
      have word := created outcome t rfl
      have taken : refusal? memory.store t.name = none := rfl
      simp only [Action.result, Action.after, Effect.perform_created,
        mirrors.writable t.name word, taken] at fits ⊢
      exact ⟨trivial, mirrors.save ⟨tables.1, word.1, fits.put mirrors.sound⟩ word⟩

theorem execute (mirrors : Mirrors disk memory) {text : String} {params : List Value}
    (fits : (Action.after (execute text params) memory).Fits) :
    Action.result (execute text params) disk = Action.result (execute text params) memory ∧
      Mirrors (Action.after (execute text params) disk)
        (Action.after (execute text params) memory) := by
  have sound : disk.catalog.Sound := mirrors.catalog ▸ mirrors.sound
  simp only [Action.result, Action.after, execute_eq sound, execute_eq mirrors.sound,
    mirrors.catalog] at fits ⊢
  cases reached : memory.catalog.effect text params with
  | error e => exact ⟨rfl, mirrors⟩
  | ok effect =>
      rw [reached] at fits
      refine mirrors.perform (Catalog.effect_sound mirrors.sound reached) ?_ fits
      rintro outcome t rfl
      exact Catalog.isWord_of_created mirrors.sound reached

/-- Databases that are opened again know the tables that were in use, now in the order of the
    stores. -/
theorem reopen (mirrors : Mirrors disk memory) :
    ∃ catalog, open? disk.store = .ok ⟨disk.store, catalog⟩ ∧
      open? memory.store = .ok ⟨memory.store, catalog⟩ ∧
      Mirrors ⟨disk.store, catalog⟩ ⟨memory.store, catalog⟩ := by
  have named : ∀ name t, memory.catalog.get? name = some t → IsWord name :=
    fun name t found => mirrors.words name ((mirrors.sound.listed name).mpr ⟨t, found⟩)
  have kept : Keeps memory.store memory.catalog.get? := mirrors.stored
  obtain ⟨tables, loaded, different, listed⟩ := DurableStore.loadAll_of_keeps kept
  have read := (loadAll_eq mirrors.filed mirrors.stored named).trans loaded
  have listed : ∀ t, t ∈ tables ↔ memory.table? t.name = some t := by
    intro t
    rw [table?, listed, and_iff_left rfl]
  obtain ⟨⟨store, catalog⟩, opened, agrees⟩ := agrees_open mirrors.sound loaded different listed
  -- `agrees_open` gives the tables, but the order of both catalogs is that of the fold
  have opened' := open?_of_loadAll loaded
  rw [opened'] at opened
  cases opened
  have found : (tables.foldl (fun c t => Catalog.put c t.name (t.withRows t.rows)) ∅).get? =
      memory.catalog.get? := funext agrees.tables
  refine ⟨_, open?_of_loadAll read, opened', rfl, agrees.left, ?_, mirrors.writable, ?_, ?_⟩
  · intro name member
    exact mirrors.words name (agrees.names.mem_iff.mp member)
  · rw [found]
    exact mirrors.filed
  · rw [found]
    exact mirrors.stored

/-- No step tells one database from the other, and both can always be opened again. -/
theorem respond (mirrors : Mirrors disk memory) (step : Step)
    (fits : (memory.respond step).2.Fits) :
    (disk.respond step).1 = (memory.respond step).1 ∧
      (∀ e, (memory.respond step).1 ≠ .reopened (.error e)) ∧
      Mirrors (disk.respond step).2 (memory.respond step).2 := by
  cases step with
  | execute text params =>
      obtain ⟨same, after⟩ := mirrors.execute fits
      exact ⟨congrArg Reply.executed same, nofun, after⟩
  | listTables =>
      have same := congrArg (fun c : Catalog => Reply.tableNames c.names) mirrors.catalog
      exact ⟨same, nofun, mirrors⟩
  | getTable name =>
      have same := congrArg (fun c : Catalog => Reply.table (c.get? name)) mirrors.catalog
      exact ⟨same, nofun, mirrors⟩
  | reopen =>
      obtain ⟨catalog, onDisk, inMemory, after⟩ := mirrors.reopen
      simp only [Database.respond, onDisk, inMemory]
      exact ⟨trivial, nofun, after⟩

theorem replies (mirrors : Mirrors disk memory) {steps : List Step}
    (fits : ∀ past ∈ steps.inits, (memory.afterSteps past).Fits) :
    disk.replies steps = memory.replies steps ∧
      ∀ e, .reopened (.error e) ∉ memory.replies steps := by
  induction steps generalizing disk memory with
  | nil => exact ⟨rfl, fun e => List.not_mem_nil⟩
  | cons step rest ih =>
      have later : ∀ past ∈ rest.inits, ((memory.respond step).2.afterSteps past).Fits := by
        intro past member
        exact fits (step :: past) (List.mem_cons_of_mem _ (List.mem_map_of_mem member))
      have start : [] ∈ rest.inits := by cases rest <;> exact List.mem_cons_self
      obtain ⟨same, opens, after⟩ := mirrors.respond step (later [] start)
      obtain ⟨sames, reopens⟩ := ih after later
      refine ⟨congrArg₂ List.cons same sames, fun e member => ?_⟩
      rcases List.mem_cons.mp member with here | later
      · exact opens e here.symm
      · exact reopens e later

end Mirrors

/-- A database that starts on an empty directory gives the replies of one that starts in memory, and
    both can be opened again at any time, in whatever order either store writes the entries of an
    index. The lengths of the snapshots are those of bytes in memory. -/
theorem replies_eq_of_empty {directory : Directory} {memory : MemoryStore}
    (noEntries : directory.entries = ∅) (noSnapshots : memory.snapshots = ∅) (steps : List Step)
    (fits : ∀ past ∈ steps.inits, ((new memory).afterSteps past).Fits) :
    open? directory = .ok (new directory) ∧ open? memory = .ok (new memory) ∧
      (new directory).replies steps = (new memory).replies steps ∧
      ∀ e, .reopened (.error e) ∉ (new memory).replies steps := by
  refine ⟨?_, ?_, (mirrors_new noEntries noSnapshots).replies fits⟩
  · rw [open?_of_loadAll (directory.loadAll_of_empty noEntries)]
    rfl
  · rw [open?_of_loadAll (memory.loadAll_of_empty noSnapshots)]
    rfl

/-- The directory writes the entries of the index from the last to the first, so that the two stores
    hold other bytes. -/
theorem reopened_in_order_of_names :
    let reversed : Snapshot.Arrangement :=
      ⟨fun e => e.2.entries.toList.reverse, fun _ => List.reverse_perm _⟩
    let directory : Directory := ⟨Text.bytes "data", ∅, fun _ => reversed⟩
    let steps : List Step := [.execute "CREATE TABLE a_b (x FLOAT)" [],
      .execute "CREATE TABLE a (x TEXT)" [], .execute "INSERT INTO a_b VALUES (1)" [],
      .execute "INSERT INTO a_b VALUES (2)" [], .execute "CREATE INDEX i ON a_b (x)" [],
      .listTables, .reopen, .listTables, .execute "SELECT * FROM a_b WHERE x = 2" [],
      .getTable "b"]
    (new directory).replies steps =
        [.executed (.ok (.tableCreated "a_b")), .executed (.ok (.tableCreated "a")),
          .executed (.ok .rowInserted), .executed (.ok .rowInserted),
          .executed (.ok (.indexCreated "i" "a_b" "x")), .tableNames ["a_b", "a"],
          .reopened (.ok ⟨⟩), .tableNames ["a", "a_b"],
          .executed (.ok (.selected ⟨["x"], [[.float (.ofInt64 2)]]⟩)), .table none] ∧
      ((new directory).afterSteps steps).store.read? "a_b.db" ≠
        ((new MemoryStore.empty).afterSteps steps).store.snapshots.get? "a_b" := by
  intro reversed directory steps
  have fits : ∀ past ∈ steps.inits, ((new MemoryStore.empty).afterSteps past).Fits := by
    decide +kernel
  obtain ⟨-, -, same, -⟩ :=
    replies_eq_of_empty (rfl : directory.entries = ∅) (rfl : MemoryStore.empty.snapshots = ∅) steps
      fits
  refine ⟨same.trans ?_, ?_⟩
  · decide +kernel
  · decide +kernel

end Database

end Tabular

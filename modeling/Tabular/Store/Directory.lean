import Tabular.Config
import Tabular.Snapshot.Decoding
import Tabular.Store

/-! # Snapshots in a directory

The snapshot of a table is kept in a file of the table's name with the extension `db`. Files with
other extensions, files whose name is nothing but the extension, and directories are left alone.
Paths and the names of files are bytes, not all of which are texts.
-/

namespace Tabular

/-- What a name in a directory stands for. -/
inductive DirectoryEntry where
  | file (bytes : List UInt8)
  | directory
  deriving DecidableEq

/-- A directory: its path, and its entries in the order of their names. -/
structure Directory where
  path : List UInt8
  entries : SortedMap (List UInt8) DirectoryEntry
  /-- How the entries of indexes come in the snapshots that are still to be written. -/
  coming : Snapshot.Arrangements

namespace Directory

/-- A directory without entries. -/
def empty (path : String) : Directory := ⟨Text.bytes path, ∅, fun _ => .byKey⟩

/-- What the name of a snapshot ends in. -/
def extension : List UInt8 := Text.bytes ".db"

/-- The name of the file for the snapshot of a table. -/
def fileName (table : String) : List UInt8 := Text.bytes table ++ extension

/-- The part of a file name before the extension, if the file is a snapshot. -/
def stem? (name : List UInt8) : Option (List UInt8) :=
  let size := name.length - extension.length
  if 0 < size ∧ name.drop size = extension then some (name.take size) else none

/-- The bytes of a file. -/
def file? (d : Directory) (name : List UInt8) : Option (List UInt8) :=
  match d.entries.get? name with
  | some (.file bytes) => some bytes
  | _ => none

/-- The path of a file, as messages show it. -/
def pathOf (d : Directory) (name : List UInt8) : String := Text.lossy (Path.join d.path name)

/-- The table in the file of a name, which has to be the name of the table with the extension. -/
def loadFile (d : Directory) (name stem bytes : List UInt8) : Except Error Table :=
  let named : Except Error Table := do
    let t ← Snapshot.decode bytes
    if Text.bytes t.name ≠ stem then throw (.foreignSnapshot t.name)
    return t
  named.mapError (.cannotLoad (d.pathOf name))

/-- The table of an entry, if the entry is a snapshot. -/
def loadEntry (d : Directory) : List UInt8 × DirectoryEntry → Except Error (Option Table)
  | (name, .file bytes) => (stem? name).mapM fun stem => d.loadFile name stem bytes
  | (_, .directory) => return none

/-- The directory with the snapshot of a table, in the place of the one it had. -/
def keep (d : Directory) (t : Table) : Directory :=
  { d with
    entries := d.entries.insert (fileName t.name) (.file (d.coming.snapshot t))
    coming := d.coming.rest }

/-- A snapshot is written to a temporary file, which is renamed once all of its bytes are on the disk
    and removed if it cannot be. The entry of the snapshot therefore changes at once or not at all,
    and no other entry is left behind: in all, one entry is put in its place. -/
instance : Store Directory where
  save t := do
    if '/' ∈ t.name.toList then throw .noSuchDirectory
    let d ← get
    if d.entries.get? (fileName t.name) = some .directory then throw .isDirectory
    set (d.keep t)
  loadAll d := do
    let tables ← d.entries.toList.mapM d.loadEntry
    return tables.filterMap id

/-! ## Work on entries named by texts -/

/-- The names of all entries, in order. -/
def names (d : Directory) : List String := d.entries.keys.map Text.lossy

/-- The bytes of a file. -/
def read? (d : Directory) (name : String) : Option (List UInt8) := d.file? (Text.bytes name)

/-- Puts an entry in the place of the one that had its name. -/
def put (d : Directory) (name : String) (entry : DirectoryEntry) : Directory :=
  { d with entries := d.entries.insert (Text.bytes name) entry }

/-- Writes a file, over the one that had its name. -/
def write (d : Directory) (name : String) (bytes : List UInt8) : Directory :=
  d.put name (.file bytes)

/-- Changes the bytes of a file, if it exists. -/
def edit (d : Directory) (name : String) (f : List UInt8 → List UInt8) : Directory :=
  (d.read? name).elim d fun bytes => d.write name (f bytes)

/-- Writes bytes over those of a file from an offset on; a gap before them is filled with zeros. -/
def patch (d : Directory) (name : String) (offset : Nat) (bytes : List UInt8) : Directory :=
  d.edit name fun old =>
    (old.take offset).rightpad offset 0 ++ bytes ++ old.drop (offset + bytes.length)

/-- Gives a file a length, by cutting it off or filling it up with zeros. -/
def truncate (d : Directory) (name : String) (length : Nat) : Directory :=
  d.edit name fun old => (old.take length).rightpad length 0

/-- Writes bytes at the end of a file. -/
def append (d : Directory) (name : String) (bytes : List UInt8) : Directory :=
  d.edit name (· ++ bytes)

/-- Takes an entry away. -/
def remove (d : Directory) (name : String) : Directory :=
  { d with entries := d.entries.erase (Text.bytes name) }

/-- Copies an entry over the one of another name. -/
def copy (d : Directory) (name target : String) : Directory :=
  (d.entries.get? (Text.bytes name)).elim d fun entry => d.put target entry

/-- Gives an entry another name, over the entry that had it. -/
def rename (d : Directory) (name target : String) : Directory :=
  if name = target then d else (d.copy name target).remove name

/-- Makes a directory in the directory. -/
def makeDirectory (d : Directory) (name : String) : Directory :=
  d.put name .directory

end Directory

end Tabular

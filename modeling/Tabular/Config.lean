/-! # Configuration

The only choice to be made is the directory in which the snapshots of a database are kept. A
snapshot is found by the path of the directory and the name of its file.
-/

namespace Tabular

/-- The configuration of a database. -/
structure Config where
  /-- The directory of the snapshots. -/
  dataDirectory : String
  deriving DecidableEq, Repr

namespace Config

/-- The configuration without any choice made. -/
def standard : Config := ⟨"./data"⟩

/-- The configuration for the directory that the environment gives. No directory and an empty one
    leave the choice open. -/
def ofEnvironment : Option String → Config
  | some directory => if directory = "" then standard else ⟨directory⟩
  | none => standard

end Config

namespace Path

/-- The slash. -/
def separator : UInt8 := 0x2F

/-- The path of a file in a directory. A slash comes between them unless the path of the directory
    ends in one or is empty. -/
def join (directory file : List UInt8) : List UInt8 :=
  match directory.getLast? with
  | none => file
  | some last =>
    if last = separator then directory ++ file else directory ++ separator :: file

theorem join_eq {directory : List UInt8} (named : directory ≠ [])
    (noSlash : directory.getLast? ≠ some separator) (file : List UInt8) :
    join directory file = directory ++ separator :: file := by
  rw [join]
  cases ends : directory.getLast? with
  | none => exact absurd (List.getLast?_eq_none_iff.mp ends) named
  | some last =>
      have other : last ≠ separator := fun same => noSlash (same ▸ ends)
      exact if_neg other

/-- A slash at the end of a path is not doubled. -/
theorem join_append_separator (directory file : List UInt8) :
    join (directory ++ [separator]) file = directory ++ separator :: file := by
  simp [join]

end Path

end Tabular

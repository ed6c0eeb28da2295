/-! # Reasons for refusing a snapshot

Bytes are no snapshot if they end too early or if something in them is not of the form that it has
to have.
-/

namespace Tabular

/-- Why bytes are not the UTF-8 form of a text. The text up to byte `validUpTo` is in order. -/
inductive Utf8Error where
  /-- The next `length` bytes can be no character, whatever follows. -/
  | invalid (length validUpTo : Nat)
  /-- The bytes end within a character. -/
  | incomplete (validUpTo : Nat)
  deriving DecidableEq, Repr

/-- The wording of a reason, as messages show it. -/
def Utf8Error.message : Utf8Error → String
  | .invalid length validUpTo =>
    "invalid utf-8 sequence of " ++ toString length ++ " bytes from index " ++ toString validUpTo
  | .incomplete validUpTo =>
    "incomplete utf-8 byte sequence from index " ++ toString validUpTo

/-- Why bytes are not a snapshot. -/
inductive SnapshotError where
  /-- The bytes end within a number, a tag, a length or a truth value. -/
  | endOfBytes
  /-- A text is longer than the bytes that are left. -/
  | endOfText
  | invalidText (e : Utf8Error)
  /-- A truth value is neither zero nor one. -/
  | invalidBool (byte : Nat)
  /-- A tag is not below the number of alternatives. -/
  | invalidTag (tag alternatives : Nat)
  | unsupportedVersion (version : Nat)
  deriving DecidableEq, Repr

/-- The wording of a reason, as messages show it. -/
def SnapshotError.message : SnapshotError → String
  | .endOfBytes => "io error: unexpected end of file"
  | .endOfText => "io error: "
  | .invalidText e => "string is not valid utf8: " ++ e.message
  | .invalidBool byte =>
    "invalid u8 while decoding bool, expected 0 or 1, found " ++ toString byte
  | .invalidTag tag alternatives =>
    "invalid value: integer `" ++ toString tag ++ "`, expected variant index 0 <= i < " ++
      toString alternatives
  | .unsupportedVersion version => "unsupported snapshot version " ++ toString version

end Tabular

import Tabular.Snapshot.Error

/-! # Texts as bytes

Texts are stored in UTF-8. Bytes that are not the UTF-8 form of a text are refused with the place
where they go wrong. In the name of a file such bytes are allowed, and messages show a replacement
character for them.
-/

namespace Tabular

/-- The UTF-8 form of a text. -/
def Text.bytes (text : String) : List UInt8 := text.toByteArray.data.toList

namespace Utf8Error

/-- The number of bytes of a character by its first byte, if that is the first byte of one. -/
def width? (first : UInt8) : Option Nat :=
  if first < 0x80 then some 1
  else if first < 0xC2 then none
  else if first < 0xE0 then some 2
  else if first < 0xF0 then some 3
  else if first < 0xF5 then some 4
  else none

/-- Whether a byte may follow the first byte of a character at a distance. The second byte is
    restricted further after some first bytes, which leaves out overlong forms, surrogates and what
    is beyond the last code point. -/
def follows (first : UInt8) (distance : Nat) (b : UInt8) : Bool :=
  if distance = 1 then
    match first with
    | 0xE0 => 0xA0 ≤ b && b ≤ 0xBF
    | 0xED => 0x80 ≤ b && b ≤ 0x9F
    | 0xF0 => 0x90 ≤ b && b ≤ 0xBF
    | 0xF4 => 0x80 ≤ b && b ≤ 0x8F
    | _ => 0x80 ≤ b && b ≤ 0xBF
  else
    0x80 ≤ b && b ≤ 0xBF

/-- A character of which some bytes have been read. -/
structure Partial where
  first : UInt8
  /-- The number of bytes read. -/
  size : Nat
  /-- The number of bytes to come. -/
  missing : Nat

/-- The first fault in bytes that follow `start` bytes in order and those of a partial character.
    Bytes without a fault count as ending within a character. -/
def find (start : Nat) : Option Partial → List UInt8 → Utf8Error
  | _, [] => .incomplete start
  | none, b :: rest =>
    match width? b with
    | none => .invalid 1 start
    | some 1 => find (start + 1) none rest
    | some width => find start (some ⟨b, 1, width - 1⟩) rest
  | some p, b :: rest =>
    if follows p.first p.size b then
      if p.missing ≤ 1 then find (start + p.size + 1) none rest
      else find start (some ⟨p.first, p.size + 1, p.missing - 1⟩) rest
    else
      .invalid p.size start

end Utf8Error

/-- The text of which bytes are the UTF-8 form. -/
def Text.ofBytes (bytes : List UInt8) : Except Utf8Error String :=
  match String.fromUTF8? ⟨⟨bytes⟩⟩ with
  | some text => .ok text
  | none => .error (.find 0 none bytes)

/-- The text of the first bytes, as long as they are the UTF-8 form of one. -/
def Text.ofFirst (size : Nat) (bytes : List UInt8) : String :=
  match Text.ofBytes (bytes.take size) with
  | .ok text => text
  | .error _ => ""

/-- Bytes as a text, with a replacement character for each run of bytes that can be no character. -/
def Text.lossy : List UInt8 → String
  | [] => ""
  | b :: rest =>
    match Text.ofBytes (b :: rest) with
    | .ok text => text
    | .error (.incomplete start) => Text.ofFirst start (b :: rest) ++ "\uFFFD"
    | .error (.invalid length start) =>
      Text.ofFirst start (b :: rest) ++ "\uFFFD" ++ lossy (rest.drop (start + length - 1))
termination_by bytes => bytes.length
decreasing_by
  rw [List.length_drop, List.length_cons]
  omega

end Tabular

/-! # Characters

Words of the language are recognised in any mixture of cases, by comparing upper cases, and blank
characters separate them. Large sets of characters are written down as ranges of code points.
-/

namespace Tabular

/-- The code points from the first number to the second, both included. -/
abbrev CodeRange := Nat × Nat

/-- Whether a code point lies in a range. -/
def CodeRange.contains (range : CodeRange) (code : Nat) : Bool :=
  range.1 ≤ code && code ≤ range.2

namespace Character

/-- Whether a character lies in one of the ranges. -/
def inRanges (ranges : List CodeRange) (c : Char) : Bool :=
  ranges.any (·.contains c.toNat)

/-- The blank code points: those with the Unicode property White_Space. -/
def blankRanges : List CodeRange :=
  [(0x9, 0xD), (0x20, 0x20), (0x85, 0x85), (0xA0, 0xA0), (0x1680, 0x1680), (0x2000, 0x200A),
   (0x2028, 0x2029), (0x202F, 0x202F), (0x205F, 0x205F), (0x3000, 0x3000)]

/-- Whether a character is blank. -/
def isBlank (c : Char) : Bool := inRanges blankRanges c

/-- The characters outside the basic alphabet whose upper case is made of the letters A to Z alone:
    the dotless i, the long s, the sharp s and the Latin ligatures. -/
def foreignCapitals : List (Char × String) :=
  [('\u0131', "I"), ('\u017F', "S"), ('\u00DF', "SS"), ('\uFB00', "FF"), ('\uFB01', "FI"),
   ('\uFB02', "FL"), ('\uFB03', "FFI"), ('\uFB04', "FFL"), ('\uFB05', "ST"), ('\uFB06', "ST")]

/-- The upper case of a character where that is made of the letters A to Z alone, and the character
    itself otherwise. -/
def capitals (c : Char) : List Char :=
  match foreignCapitals.lookup c with
  | some letters => letters.toList
  | none => [c.toUpper]

/-- A text with every character in upper case, as far as the letters A to Z go. -/
def capitalize (text : List Char) : List Char := text.flatMap capitals

end Character

end Tabular

import Tabular.Value

/-! # Index keys

Values that are equal in the language share one key, so that an index finds what a scan finds.
Keys are ordered by kind and then by content, which gives an index one listing.
-/

namespace Tabular

/-- What an index files a value under. -/
inductive Key where
  | null
  | boolean (b : Bool)
  | integer (i : Int64)
  /-- The pattern of a float that is not a 64-bit integer. -/
  | float (bits : UInt64)
  | text (s : String)
  deriving DecidableEq, Repr

namespace Key

/-- The place of a kind of key among the others. -/
def rank : Key → Nat
  | .null => 0
  | .boolean _ => 1
  | .integer _ => 2
  | .float _ => 3
  | .text _ => 4

/-- What a key holds, as a number. -/
def number : Key → Int
  | .boolean b => b.toNat
  | .integer i => i.toInt
  | .float bits => bits.toNat
  | _ => 0

/-- What a key holds, as a text. -/
def content : Key → String
  | .text s => s
  | _ => ""

instance : Ord Key :=
  ⟨compareLex (compareOn rank) (compareLex (compareOn number) (compareOn content))⟩

instance : Std.TransOrd Key :=
  inferInstanceAs (Std.TransCmp
    (compareLex (compareOn rank) (compareLex (compareOn number) (compareOn content))))

theorem eq_of_parts {a b : Key} (hr : a.rank = b.rank) (hn : a.number = b.number)
    (hc : a.content = b.content) : a = b := by
  cases a <;> cases b <;> simp_all [rank, number, content]
  · rename_i a b
    revert hn; cases a <;> cases b <;> decide
  · exact Int64.toInt_inj.1 hn
  · exact UInt64.toNat_inj.1 (by omega)

instance : Std.LawfulEqOrd Key where
  eq_of_compare {a b} h := by
    obtain ⟨hr, h⟩ := Ordering.then_eq_eq.1 h
    obtain ⟨hn, hc⟩ := Ordering.then_eq_eq.1 h
    exact eq_of_parts (Std.LawfulEqOrd.eq_of_compare hr) (Std.LawfulEqOrd.eq_of_compare hn)
      (Std.LawfulEqOrd.eq_of_compare hc)

end Key

/-- The key of a value. A float that is a 64-bit integer has the key of that integer. -/
def Value.key : Value → Key
  | .null => .null
  | .boolean b => .boolean b
  | .integer i => .integer i
  | .float x => x.integral?.elim (.float x.bits) .integer
  | .text s => .text s

end Tabular

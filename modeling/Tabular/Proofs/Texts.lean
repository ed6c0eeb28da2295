import Mathlib.Data.List.Basic
import Mathlib.Data.List.Lex
import Tabular.Snapshot.Utf8

/-! # Texts and their bytes

The bytes of a text tell which text it is, are shown as that text, and order texts as their
characters do.
-/

namespace Tabular.Text

theorem ofBytes_bytes (s : String) : ofBytes (bytes s) = .ok s := by
  have same : (⟨⟨bytes s⟩⟩ : ByteArray) = s.toByteArray := rfl
  have valid : (⟨⟨bytes s⟩⟩ : ByteArray).IsValidUTF8 := by
    rw [same]
    exact s.isValidUTF8
  rw [ofBytes, String.fromUTF8?, dif_pos valid]
  rfl

theorem bytes_inj {s t : String} (h : bytes s = bytes t) : s = t := by
  have read := ofBytes_bytes s
  rw [h, ofBytes_bytes] at read
  exact (Except.ok.inj read).symm

theorem bytes_eq_nil_iff {s : String} : bytes s = [] ↔ s = "" :=
  ⟨fun none => bytes_inj none, fun empty => by rw [empty]; rfl⟩

theorem bytes_append (s t : String) : bytes (s ++ t) = bytes s ++ bytes t := by
  simp [bytes]

/-- The bytes of a text are shown as they are. -/
theorem lossy_bytes (s : String) : lossy (bytes s) = s := by
  cases all : bytes s with
  | nil => rw [lossy, bytes_eq_nil_iff.mp all]
  | cons b rest => rw [lossy, ← all, ofBytes_bytes]

/-! ## The order of texts -/

theorem bytes_eq (text : String) : bytes text = text.toList.flatMap String.utf8EncodeChar := by
  rw [bytes, ← String.utf8Encode_toList, List.utf8Encode, List.data_toByteArray,
    List.toList_toArray]

theorem ofNat_lt_iff {m n : Nat} (left : m < 256) (right : n < 256) :
    UInt8.ofNat m < UInt8.ofNat n ↔ m < n := by
  rw [UInt8.lt_iff_toNat_lt, UInt8.toNat_ofNat', UInt8.toNat_ofNat', Nat.mod_eq_of_lt left,
    Nat.mod_eq_of_lt right]

theorem ofNat_inj {m n : Nat} (left : m < 256) (right : n < 256) :
    UInt8.ofNat m = UInt8.ofNat n ↔ m = n := by
  rw [← UInt8.toNat_inj, UInt8.toNat_ofNat', UInt8.toNat_ofNat', Nat.mod_eq_of_lt left,
    Nat.mod_eq_of_lt right]

/-- The first byte of a character grows with the number of its bytes. Characters with equally many
    bytes are told apart by these as by digits. -/
theorem encodeChar_append_lt {c d : Char} (below : c < d) (x y : List UInt8) :
    String.utf8EncodeChar c ++ x < String.utf8EncodeChar d ++ y := by
  have below : c.val.toNat < d.val.toNat := below
  have last : d.val.toNat < 0x110000 := by
    have valid := d.valid
    simp only [UInt32.isValidChar, Nat.isValidChar] at valid
    omega
  have third (k : Nat) : k / 4096 = k / 64 / 64 := by omega
  have fourth (k : Nat) : k / 262144 = k / 64 / 64 / 64 := by omega
  simp only [String.utf8EncodeChar]
  generalize c.val.toNat = m at *
  generalize d.val.toNat = n at *
  -- one case for each number of bytes of the one and of the other
  split_ifs <;>
    simp (disch := omega) only [List.cons_append, List.nil_append, List.cons_lt_cons_iff,
      ofNat_lt_iff, ofNat_inj, third, fourth] <;>
    omega

theorem flatMap_encodeChar_lt {cs ds : List Char} (below : cs < ds) :
    cs.flatMap String.utf8EncodeChar < ds.flatMap String.utf8EncodeChar := by
  induction below with
  | nil =>
      rename_i d ds
      rw [List.flatMap_nil, List.flatMap_cons]
      cases first : String.utf8EncodeChar d with
      | nil => exact absurd first String.utf8EncodeChar_ne_nil
      | cons b rest => exact .nil
  | rel below => exact encodeChar_append_lt below ..
  | cons later ih =>
      rw [List.flatMap_cons, List.flatMap_cons]
      exact List.append_left_lt ih

theorem bytes_lt_of_lt {a b : String} (below : a < b) : bytes a < bytes b := by
  rw [bytes_eq, bytes_eq]
  exact flatMap_encodeChar_lt (String.lt_iff.mp below)

/-- Texts stand in the order of their bytes. -/
theorem lt_of_bytes_lt {a b : String} (below : bytes a < bytes b) : a < b := by
  cases order : compare a b with
  | lt => exact compareOfLessAndEq_eq_lt.mp order
  | eq =>
      rw [Std.LawfulEqOrd.eq_of_compare order] at below
      exact absurd below (List.lt_irrefl _)
  | gt =>
      have above : compare b a = .lt := Std.OrientedCmp.lt_of_gt order
      exact absurd (bytes_lt_of_lt (compareOfLessAndEq_eq_lt.mp above)) (List.lt_asymm below)

/-- Maps list their keys in the order in which lists of bytes stand anyway. -/
theorem compare_bytes_iff {a b : List UInt8} : compare a b = .lt ↔ a < b := by
  induction a generalizing b with
  | nil => cases b <;> simp
  | cons x xs ih =>
      cases b with
      | nil => simp
      | cons y ys =>
          have first : compare x y = .lt ↔ x < y := compareOfLessAndEq_eq_lt
          rw [List.compare_cons_cons, List.cons_lt_cons_iff, Ordering.then_eq_lt, first, ih,
            Std.LawfulEqOrd.compare_eq_iff_eq]

end Tabular.Text

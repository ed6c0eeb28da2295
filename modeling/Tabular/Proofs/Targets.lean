import Mathlib.Data.List.Basic
import Tabular.Table.Change

/-! # Rows at some positions

The positions of the rows that a change concerns stand in ascending order. That is why halving finds
every one of them, and why counting the rows while some are taken out takes out these and no others.
-/

namespace Tabular

/-! ## Halving -/

theorem le_getElem_of_ascending {numbers : List Nat} (ascending : numbers.Pairwise (· < ·))
    {i j : Nat} (below : i ≤ j) (inside : j < numbers.length) : numbers[i] ≤ numbers[j] := by
  rcases Nat.lt_or_eq_of_le below with before | rfl
  · exact Nat.le_of_lt (List.pairwise_iff_getElem.mp ascending i j _ inside before)
  · exact Nat.le_refl _

/-- A number below one in the middle is none of those behind the middle. -/
theorem mem_take_iff_of_lt {numbers : List Nat} (ascending : numbers.Pairwise (· < ·))
    {middle size n : Nat} (inside : middle < numbers.length) (early : middle ≤ size)
    (below : n < numbers[middle]) : n ∈ numbers.take size ↔ n ∈ numbers := by
  refine ⟨List.mem_of_mem_take, fun member => ?_⟩
  obtain ⟨i, here, rfl⟩ := List.mem_iff_getElem.mp member
  have first : i < middle := by
    by_contra late
    have := le_getElem_of_ascending ascending (Nat.le_of_not_lt late) here
    omega
  exact List.mem_take_iff_getElem.mpr ⟨i, by omega, rfl⟩

/-- A number not below one in the middle is none of those before the middle. -/
theorem mem_drop_iff_of_le {numbers : List Nat} (ascending : numbers.Pairwise (· < ·))
    {middle n : Nat} (inside : middle < numbers.length) (above : numbers[middle] ≤ n) :
    n ∈ numbers.drop middle ↔ n ∈ numbers := by
  refine ⟨List.mem_of_mem_drop, fun member => ?_⟩
  obtain ⟨i, here, rfl⟩ := List.mem_iff_getElem.mp member
  have later : middle ≤ i := by
    by_contra early
    have := List.pairwise_iff_getElem.mp ascending i middle here inside (Nat.lt_of_not_le early)
    omega
  refine List.mem_drop_iff_getElem.mpr ⟨i - middle, by omega, ?_⟩
  simp only [Nat.add_sub_cancel' later]

/-- Among numbers in ascending order halving finds each of them, and nothing else. -/
theorem bisect_iff {n : Nat} {numbers : List Nat} (ascending : numbers.Pairwise (· < ·)) :
    bisect n numbers = true ↔ n ∈ numbers := by
  induction numbers using bisect.induct n with
  | case1 numbers half short =>
      have one : numbers.length < 2 := by omega
      rw [bisect, dif_pos short, decide_eq_true_iff]
      match numbers, one with
      | [], _ => simp
      | [m], _ => simp [eq_comm]
  | case2 numbers half long below ih =>
      have inside : half < numbers.length := by omega
      rw [bisect, dif_neg long, if_pos below, ih (ascending.sublist (List.take_sublist ..))]
      exact mem_take_iff_of_lt ascending inside (by omega) below
  | case3 numbers half long above ih =>
      have inside : half < numbers.length := by omega
      rw [bisect, dif_neg long, if_neg above, ih (ascending.sublist (List.drop_sublist ..))]
      exact mem_drop_iff_of_le ascending inside (Nat.le_of_not_lt above)

/-- Where the order is broken a number can be missed. -/
example : bisect 2 [2, 1] = false := by decide +kernel

namespace Table

/-! ## Counting -/

/-- Whatever the positions are, the rows that stay do so in their order. -/
theorem retain_sublist (targets : List Nat) (i : Nat) (rows : List Row) :
    (retain targets i rows).Sublist rows := by
  induction rows generalizing i with
  | nil => exact .slnil
  | cons row rest ih =>
      rw [retain]
      split
      · exact (ih _).cons row
      · exact (ih _).cons_cons row

/-- Of the rows, numbered from `i` on, those whose number is no target stay. -/
theorem retain_eq_filter {targets : List Nat} (ascending : targets.Pairwise (· < ·)) (i : Nat)
    (rows : List Row) :
    retain targets i rows = ((rows.zipIdx i).filter fun e => e.2 ∉ targets).map Prod.fst := by
  induction rows generalizing i with
  | nil => rfl
  | cons row rest ih =>
      rw [retain, List.zipIdx_cons]
      by_cases target : i ∈ targets
      · rw [if_pos ((bisect_iff ascending).mpr target), ih, List.filter_cons_of_neg (by simpa)]
      · rw [if_neg (mt (bisect_iff ascending).mp target), ih, List.filter_cons_of_pos (by simpa),
          List.map_cons]

theorem remainingRows_eq (t : Table) {targets : List Nat} (ascending : targets.Pairwise (· < ·)) :
    t.remainingRows targets = (t.rows.zipIdx.filter fun e => e.2 ∉ targets).map Prod.fst :=
  retain_eq_filter ascending 0 t.rows

theorem remainingRows_sublist (t : Table) (targets : List Nat) :
    (t.remainingRows targets).Sublist t.rows :=
  retain_sublist targets 0 t.rows

theorem remainingRows_nil (t : Table) : t.remainingRows [] = t.rows := by
  rw [remainingRows_eq t .nil]
  simp

end Table

end Tabular

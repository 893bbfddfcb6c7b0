import Mathlib.Algebra.BigOperators.Intervals
import Mathlib.Algebra.Order.BigOperators.Group.Finset
import Mathlib.Order.Lattice.Nat

namespace KernelModules.Data

open Function Finset

/-! # Totals of a table

The sum and the maximum over the entries of a table, when one entry is replaced.
-/

section Totals

variable {α : Type} {count place : Nat} (give : Nat → α → Nat) (tbl : Nat → α) (entry : α)

def giveOthers (place : Nat) (give : Nat → α → Nat) : Nat → α → Nat :=
  fun index entry => if index = place then 0 else give index entry

theorem giveOthers_update (idx : Nat) : giveOthers place give idx (update tbl place entry idx) =
      giveOthers place give idx (tbl idx) := by
  unfold giveOthers
  by_cases same : idx = place
  · rw [if_pos same, if_pos same]
  · rw [if_neg same, if_neg same, update_of_ne same]

section

variable (within : place < count)
include within

theorem sum_others : ∑ idx ∈ range count, give idx (tbl idx) =
      ∑ idx ∈ range count, giveOthers place give idx (tbl idx) + give place (tbl place) := by
  have mem : place ∈ range count := mem_range.mpr within
  rw [← sum_erase_add _ _ mem, ← sum_erase_add (range count) (fun idx => giveOthers place give idx (tbl idx)) mem]
  have here : giveOthers place give place (tbl place) = 0 := if_pos rfl
  rw [here]
  congr 1
  apply sum_congr rfl
  intro idx among
  exact (if_neg (ne_of_mem_erase among)).symm

theorem sup_others : (range count).sup (fun idx => give idx (tbl idx)) =
      max ((range count).sup fun idx => giveOthers place give idx (tbl idx)) (give place (tbl place)) := by
  apply le_antisymm
  · apply Finset.sup_le
    intro idx among
    by_cases same : idx = place
    · rw [same]
      exact le_max_right _ _
    · apply le_max_of_le_left
      have here : giveOthers place give idx (tbl idx) = give idx (tbl idx) := if_neg same
      rw [← here]
      exact le_sup (f := fun idx => giveOthers place give idx (tbl idx)) among
  · apply max_le
    · apply Finset.sup_le
      intro idx among
      unfold giveOthers
      split
      · exact Nat.zero_le _
      · exact le_sup (f := fun idx => give idx (tbl idx)) among
    · exact le_sup (f := fun idx => give idx (tbl idx)) (mem_range.mpr within)

theorem sum_update : ∑ idx ∈ range count, give idx (update tbl place entry idx) =
      ∑ idx ∈ range count, giveOthers place give idx (tbl idx) + give place entry := by
  rw [sum_others give _ within, update_self]
  congr 1
  apply sum_congr rfl
  intro idx _
  exact giveOthers_update give tbl entry idx

theorem sup_update : (range count).sup (fun idx => give idx (update tbl place entry idx)) =
      max ((range count).sup fun idx => giveOthers place give idx (tbl idx)) (give place entry) := by
  rw [sup_others give _ within, update_self]
  congr 1
  apply sup_congr rfl
  intro idx _
  exact giveOthers_update give tbl entry idx

end

end Totals

end KernelModules.Data

import Mathlib.Data.List.Perm.Basic
import Mathlib.Data.List.Nodup
import Mathlib.Data.List.Count

namespace KernelModules.Data

universe u v

/-! # What owners hold of a stock

Every thing of the stock is held by one of the owners, once.
-/

structure Holding {κ : Type u} {α : Type v} (owners : List κ) (held : κ → List α)
    (stock : List α) : Prop where
  owners_nodup : owners.Nodup
  all : (owners.flatMap held).Perm stock
  once : stock.Nodup

variable {κ : Type u} {α : Type v} {owners : List κ} {held : κ → List α} {stock : List α}

namespace Holding

open List

section

variable (holding : Holding owners held stock)
include holding

theorem mem_iff : element ∈ stock ↔ ∃ owner ∈ owners, element ∈ held owner := by
  rw [← holding.all.mem_iff, mem_flatMap]

theorem mem (member : owner ∈ owners) (holds : element ∈ held owner) : element ∈ stock :=
  holding.mem_iff.mpr ⟨owner, member, holds⟩

theorem held_nodup : (owners.flatMap held).Nodup :=
  holding.all.nodup_iff.mpr holding.once

theorem perm (same : owners.Perm others) : Holding others held stock :=
  ⟨same.nodup_iff.mp holding.owners_nodup, (same.symm.flatMap_right held).trans holding.all, holding.once⟩

theorem congr (same : ∀ owner ∈ owners, (held owner).Perm (later owner)) : Holding owners later stock :=
  ⟨holding.owners_nodup, (List.Perm.flatMap_left owners same).symm.trans holding.all, holding.once⟩

end

theorem split [DecidableEq κ] (mem : owner ∈ owners) :
    (owners.flatMap held).Perm (held owner ++ (owners.erase owner).flatMap held) :=
  (perm_cons_erase mem).flatMap_right held

theorem gain [DecidableEq κ] (holding : Holding owners held stock) (member : owner ∈ owners)
    (gets : (later owner).Perm (element :: held owner))
    (same : ∀ other, other ≠ owner → later other = held other) (new : element ∉ stock) :
    Holding owners later (element :: stock) := by
  have rest : (owners.erase owner).flatMap later = (owners.erase owner).flatMap held := by
    apply flatMap_congr
    intro other elsewhere
    apply same
    rintro rfl
    exact (List.Nodup.not_mem_erase holding.owners_nodup) elsewhere
  have all : (owners.flatMap later).Perm (element :: owners.flatMap held) := by
    calc (owners.flatMap later).Perm (later owner ++ (owners.erase owner).flatMap later) := split member
      _ = later owner ++ (owners.erase owner).flatMap held := by rw [rest]
      List.Perm _ ((element :: held owner) ++ (owners.erase owner).flatMap held) :=
        gets.append_right _
      List.Perm _ (element :: owners.flatMap held) := (split member).symm.cons element
  exact ⟨holding.owners_nodup, all.trans (holding.all.cons element), nodup_cons.mpr ⟨new, holding.once⟩⟩

theorem lose [DecidableEq κ] [DecidableEq α] (holding : Holding owners held stock)
    (member : owner ∈ owners) (gives : (held owner).Perm (element :: later owner))
    (same : ∀ other, other ≠ owner → later other = held other) : Holding owners later (stock.erase element) := by
  have rest : (owners.erase owner).flatMap later = (owners.erase owner).flatMap held := by
    apply flatMap_congr
    intro other elsewhere
    apply same
    rintro rfl
    exact (List.Nodup.not_mem_erase holding.owners_nodup) elsewhere
  have all : stock.Perm (element :: owners.flatMap later) := by
    calc stock.Perm (owners.flatMap held) := holding.all.symm
      List.Perm _ (held owner ++ (owners.erase owner).flatMap held) := split member
      List.Perm _ ((element :: later owner) ++ (owners.erase owner).flatMap held) :=
        gives.append_right _
      _ = element :: (later owner ++ (owners.erase owner).flatMap later) := by
        rw [rest, cons_append]
      List.Perm _ (element :: owners.flatMap later) := (split member).symm.cons element
  have left : (stock.erase element).Perm (owners.flatMap later) := by
    refine (all.erase element).trans ?_
    rw [erase_cons_head]
  exact ⟨holding.owners_nodup, left.symm, holding.once.erase element⟩

theorem flatMap_append_perm : (owners.flatMap fun owner => gone owner ++ later owner).Perm
    (owners.flatMap gone ++ owners.flatMap later) := by
  induction owners with
  | nil => exact .refl _
  | cons owner rest ih =>
    simp only [flatMap_cons, append_assoc]
    refine List.Perm.append_left _ ((ih.append_left _).trans ?_)
    rw [← append_assoc, ← append_assoc]
    exact perm_append_comm.append_right _

theorem append_diff_self [DecidableEq α] {back : List α} : (front ++ back).diff front = back := by
  induction front with
  | nil => exact diff_nil _
  | cons element rest ih =>
    rw [diff_cons, cons_append, erase_cons_head]
    exact ih

theorem giveBack [DecidableEq α] (holding : Holding owners held stock)
    (parts : ∀ owner ∈ owners, (held owner).Perm (gone owner ++ later owner)) :
    Holding owners later (stock.diff (owners.flatMap gone)) := by
  have all : (owners.flatMap gone ++ owners.flatMap later).Perm stock :=
    flatMap_append_perm.symm.trans (holding.congr parts).all
  have left : (stock.diff (owners.flatMap gone)).Perm (owners.flatMap later) := by
    refine (all.symm.diff_right _).trans ?_
    rw [append_diff_self]
  exact ⟨holding.owners_nodup, left.symm, left.nodup_iff.mpr (nodup_append.mp (all.nodup_iff.mpr holding.once)).2.1⟩

theorem join (holding : Holding owners held stock) (new : owner ∉ owners)
    (nothing : held owner = []) : Holding (owner :: owners) held stock :=
  ⟨nodup_cons.mpr ⟨new, holding.owners_nodup⟩, by
    rw [flatMap_cons, nothing]
    exact holding.all, holding.once⟩

theorem leave (holding : Holding (owner :: owners) held stock) (nothing : held owner = []) :
    Holding owners held stock := by
  have all := holding.all
  rw [flatMap_cons, nothing] at all
  exact ⟨(nodup_cons.mp holding.owners_nodup).2, all, holding.once⟩

theorem leave_all (holding : Holding (others ++ owners) held stock)
    (nothing : ∀ owner ∈ others, held owner = []) : Holding owners held stock := by
  induction others with
  | nil => exact holding
  | cons owner rest ih =>
    rw [forall_mem_cons] at nothing
    exact ih (holding.leave nothing.1) nothing.2

end Holding

open Function

/-! ## Counters that count their holders

A counter for each thing, and the list of those who hold it.
-/

def Tally {α : Type u} [DecidableEq α] (count : α → Nat) (holders : List α) : Prop :=
  ∀ thing, count thing = holders.count thing

variable {α : Type u} [DecidableEq α] {thing : α}

namespace Tally

theorem perm {others : List α} (tally : Tally count holders) (same : others.Perm holders) : Tally count others :=
  fun thing => (tally thing).trans (same.count_eq thing).symm

theorem hold (tally : Tally count holders) : Tally (update count thing (count thing + 1)) (thing :: holders) := by
  intro other
  by_cases same : other = thing
  · rw [same, update_self, List.count_cons_self, tally]
  · rw [update_of_ne same, List.count_cons_of_ne (Ne.symm same), tally]

theorem drop (tally : Tally count (thing :: holders)) : Tally (update count thing (count thing - 1)) holders := by
  intro other
  by_cases same : other = thing
  · rw [same, update_self, tally, List.count_cons_self, Nat.add_sub_cancel]
  · rw [update_of_ne same, tally, List.count_cons_of_ne (Ne.symm same)]

theorem last (tally : Tally count (thing :: holders)) (one : count thing = 1) : thing ∉ holders := by
  rw [tally, List.count_cons_self] at one
  exact List.count_eq_zero.mp (Nat.succ.inj one)

end Tally

end KernelModules.Data

import Mathlib.Data.List.Basic

namespace KernelModules.Data

open List Function

universe u v

/-! # A stock spread over lists

Every element is in one of several lists, once, or is held.
-/

structure Placed {ι : Type u} {α : Type v} (stock : α → Prop) (lists : ι → List α)
    (held : Option α) : Prop where
  nodup : ∀ place, (lists place).Nodup
  apart : ∀ {place other element}, element ∈ lists place → element ∈ lists other → place = other
  all : ∀ element, stock element ↔ held = some element ∨ ∃ place, element ∈ lists place
  free : ∀ {element place}, held = some element → element ∉ lists place

variable {ι : Type u} {α : Type v} [DecidableEq ι] [DecidableEq α] {stock : α → Prop}

namespace Placed

omit [DecidableEq ι] in
theorem take (placed : Placed stock lists none) (member : element ∈ lists place) :
    Placed stock (fun other => (lists other).erase element) (some element) := by
  constructor
  · exact fun other => (placed.nodup other).erase element
  · exact fun left right => placed.apart (mem_of_mem_erase left) (mem_of_mem_erase right)
  · intro other
    rw [placed.all other]
    constructor
    · rintro (absent | ⟨home, inside⟩)
      · cases absent
      · by_cases same : other = element
        · exact .inl (by rw [same])
        · exact .inr ⟨home, (mem_erase_of_ne same).mpr inside⟩
    · rintro (same | ⟨home, inside⟩)
      · cases same
        exact .inr ⟨place, member⟩
      · exact .inr ⟨home, mem_of_mem_erase inside⟩
  · rintro other home same inside
    cases same
    exact (placed.nodup home).not_mem_erase inside

omit [DecidableEq ι] in
theorem erase_elsewhere (placed : Placed stock lists none) (mem : element ∈ lists place)
    (elsewhere : other ≠ place) : (lists other).erase element = lists other :=
  erase_of_not_mem fun inside => elsewhere (placed.apart inside mem)

omit [DecidableEq α] in
theorem put {place : ι} (placed : Placed stock lists (some element)) (perm : list.Perm (element :: lists place)) :
    Placed stock (update lists place list) none := by
  have inList : ∀ {other home}, other ∈ update lists place list home →
      other = element ∧ home = place ∨ other ∈ lists home := by
    intro other home inside
    by_cases here : home = place
    · subst here
      rw [update_self] at inside
      rcases mem_cons.mp (perm.mem_iff.mp inside) with same | inside
      · exact .inl ⟨same, rfl⟩
      · exact .inr inside
    · rw [update_of_ne here] at inside
      exact .inr inside
  constructor
  · intro home
    by_cases here : home = place
    · subst here
      rw [update_self, perm.nodup_iff]
      exact nodup_cons.mpr ⟨placed.free rfl, placed.nodup home⟩
    · rw [update_of_ne here]
      exact placed.nodup home
  · intro home other node left right
    rcases inList left with ⟨same, rfl⟩ | inLeft <;> rcases inList right with ⟨same', rfl⟩ | inRight
    · rfl
    · exact absurd inRight (placed.free (by rw [same]))
    · exact absurd inLeft (placed.free (by rw [same']))
    · exact placed.apart inLeft inRight
  · intro other
    rw [placed.all other]
    constructor
    · rintro (same | ⟨home, inside⟩)
      · cases same
        exact .inr ⟨place, by rw [update_self, perm.mem_iff]; exact mem_cons_self ..⟩
      · refine .inr ⟨home, ?_⟩
        by_cases here : home = place
        · subst here
          rw [update_self, perm.mem_iff]
          exact mem_cons_of_mem _ inside
        · rw [update_of_ne here]
          exact inside
    · rintro (absent | ⟨home, inside⟩)
      · cases absent
      · rcases inList inside with ⟨rfl, _⟩ | inside
        · exact .inl rfl
        · exact .inr ⟨home, inside⟩
  · intro other home absent
    cases absent

end Placed

/-- A set and a flag that stand for a list of owners with marks: every owner once, and at most one mark. -/
structure Booked [DecidableEq α] (owners : List (α × Bool)) (booked : α → Prop) (flag : Bool) : Prop where
  once : (owners.map Prod.fst).Nodup
  exact : ∀ owner, booked owner ↔ owner ∈ owners.map Prod.fst
  flagged : flag = true ↔ ∃ entry ∈ owners, entry.2 = true
  one : (owners.filter Prod.snd).length ≤ 1

namespace Booked

variable {owners : List (α × Bool)} {booked : α → Prop} {flag : Bool}

section

variable (holds : Booked owners booked flag)
include holds

theorem perm (same : owners.Perm others) : Booked others booked flag := by
  constructor
  · exact (same.map Prod.fst).nodup_iff.mp holds.once
  · exact fun owner => (holds.exact owner).trans (same.map Prod.fst).mem_iff
  · rw [holds.flagged]
    exact ⟨fun ⟨entry, mem, marked⟩ => ⟨entry, same.mem_iff.mp mem, marked⟩,
      fun ⟨entry, mem, marked⟩ => ⟨entry, same.mem_iff.mpr mem, marked⟩⟩
  · rw [← (same.filter Prod.snd).length_eq]
    exact holds.one

theorem congr (same : ∀ owner, other owner ↔ booked owner) : Booked owners other flag :=
  { holds with exact := fun owner => (same owner).trans (holds.exact owner) }

theorem add (free : ¬booked owner) (single : mark = true → flag = false) :
    Booked ((owner, mark) :: owners) (fun other => other = owner ∨ booked other) (flag || mark) := by
  constructor
  · rw [map_cons, nodup_cons]
    exact ⟨fun mem => free ((holds.exact owner).mpr mem), holds.once⟩
  · intro other
    rw [holds.exact, map_cons, mem_cons]
  · rw [Bool.or_eq_true, holds.flagged]
    simp only [mem_cons, exists_eq_or_imp]
    exact or_comm
  · cases mark with
    | false => exact holds.one
    | true =>
      have none : ∀ entry ∈ owners, ¬entry.2 = true := fun entry mem marked => by
        have set := holds.flagged.mpr ⟨entry, mem, marked⟩
        rw [single rfl] at set
        cases set
      rw [filter_cons_of_pos rfl, filter_eq_nil_iff.mpr none]
      exact Nat.le_refl 1

end

theorem release (holds : Booked ((owner, mark) :: owners) booked flag) :
    Booked owners (fun other => other ≠ owner ∧ booked other) (flag && !mark) := by
  have once := holds.once
  rw [map_cons, nodup_cons] at once
  constructor
  · exact once.2
  · intro other
    rw [holds.exact, map_cons, mem_cons]
    constructor
    · rintro ⟨apart, same | mem⟩
      · exact absurd same apart
      · exact mem
    · exact fun mem => ⟨fun same => once.1 (same ▸ mem), .inr mem⟩
  · rw [Bool.and_eq_true, holds.flagged]
    have one := holds.one
    cases mark with
    | false =>
      simp
    | true =>
      rw [filter_cons_of_pos rfl, length_cons] at one
      have empty : (owners.filter Prod.snd).length = 0 := by omega
      have none := filter_eq_nil_iff.mp (eq_nil_of_length_eq_zero empty)
      constructor
      · exact fun both => absurd both.2 (by decide)
      · exact fun ⟨entry, mem, marked⟩ => absurd marked (none entry mem)
  · have one := holds.one
    cases mark with
    | false => exact one
    | true =>
      rw [filter_cons_of_pos rfl, length_cons] at one
      omega

end Booked

end KernelModules.Data

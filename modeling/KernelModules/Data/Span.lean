import Mathlib.Data.List.Sort

namespace KernelModules.Data

open List

/-! # Spans of numbers

A span has a first and a last number.  A window taken out of it leaves a part below and a part above.
-/

structure Span where
  start : Nat
  last : Nat
deriving DecidableEq

namespace Span

variable {span other window : Span} {place : Nat}

def Covers (span : Span) (place : Nat) : Prop := span.start ≤ place ∧ place ≤ span.last

instance (span : Span) (place : Nat) : Decidable (span.Covers place) := inferInstanceAs (Decidable (_ ∧ _))

def Overlaps (span other : Span) : Prop := span.start ≤ other.last ∧ other.start ≤ span.last

instance (span other : Span) : Decidable (span.Overlaps other) := inferInstanceAs (Decidable (_ ∧ _))

def Apart (span other : Span) : Prop := span.last < other.start ∨ other.last < span.start

instance (span other : Span) : Decidable (span.Apart other) := inferInstanceAs (Decidable (_ ∨ _))

def Within (span window : Span) : Prop := window.start ≤ span.start ∧ span.last ≤ window.last

instance (span window : Span) : Decidable (span.Within window) := inferInstanceAs (Decidable (_ ∧ _))

theorem not_overlaps : ¬span.Overlaps other ↔ span.Apart other := by
  unfold Overlaps Apart
  omega

theorem Apart.symm (apart : span.Apart other) : other.Apart span := Or.symm apart

theorem Apart.not_covers (apart : span.Apart other) (covers : span.Covers place) : ¬other.Covers place := by
  unfold Apart Covers at *
  omega

theorem Apart.sub {inner : Span} (apart : span.Apart other) (inside : inner.Within span) : inner.Apart other := by
  unfold Apart Within at *
  omega

theorem Apart.irrefl (proper : span.start ≤ span.last) : ¬span.Apart span := by
  unfold Apart
  omega

def below (span window : Span) : Span := { span with last := window.start - 1 }

def above (span window : Span) : Span := { span with start := window.last + 1 }

def carve (window span : Span) : List Span :=
  (if span.start < window.start then [span.below window] else []) ++
    if window.last < span.last then [span.above window] else []

theorem mem_carve : other ∈ carve window span ↔ span.start < window.start ∧ other = span.below window ∨
    window.last < span.last ∧ other = span.above window := by
  unfold carve
  rw [mem_append]
  refine or_congr ?_ ?_
  · split
    · rename_i lower
      rw [mem_singleton, and_iff_right lower]
    · rename_i inside
      exact ⟨fun mem => absurd mem not_mem_nil, fun both => absurd both.1 inside⟩
  · split
    · rename_i higher
      rw [mem_singleton, and_iff_right higher]
    · rename_i inside
      exact ⟨fun mem => absurd mem not_mem_nil, fun both => absurd both.1 inside⟩

theorem exists_carve_covers (overlap : span.Overlaps window) :
    (∃ part ∈ carve window span, part.Covers place) ↔ span.Covers place ∧ ¬window.Covers place := by
  unfold Overlaps at overlap
  constructor
  · rintro ⟨part, mem, covers⟩
    obtain ⟨lower, rfl⟩ | ⟨higher, rfl⟩ := mem_carve.mp mem
    · unfold Covers below at *
      dsimp only at covers
      omega
    · unfold Covers above at *
      dsimp only at covers
      omega
  · rintro ⟨covers, outside⟩
    by_cases lower : place < window.start
    · refine ⟨_, mem_carve.mpr (.inl ⟨lt_of_le_of_lt covers.1 lower, rfl⟩), covers.1, ?_⟩
      exact Nat.le_sub_one_of_lt lower
    · have higher : window.last < place := not_le.mp fun low => outside ⟨not_lt.mp lower, low⟩
      exact ⟨_, mem_carve.mpr (.inr ⟨lt_of_lt_of_le higher covers.2, rfl⟩), higher, covers.2⟩

theorem carve_within (overlap : span.Overlaps window) (mem : other ∈ carve window span) : other.Within span := by
  unfold Overlaps at overlap
  obtain ⟨lower, rfl⟩ | ⟨higher, rfl⟩ := mem_carve.mp mem <;> unfold Within
  · unfold below
    dsimp only
    omega
  · unfold above
    dsimp only
    omega

theorem carve_proper (mem : other ∈ carve window span) : other.start ≤ other.last := by
  obtain ⟨lower, rfl⟩ | ⟨higher, rfl⟩ := mem_carve.mp mem
  · exact Nat.le_sub_one_of_lt lower
  · exact higher

theorem carve_pairwise (proper : window.start ≤ window.last) : (carve window span).Pairwise Apart := by
  unfold carve
  split <;> split
  · refine pairwise_pair.mpr (.inl ?_)
    unfold below above
    dsimp only
    omega
  · exact pairwise_singleton ..
  · exact pairwise_singleton ..
  · exact .nil

theorem carve_apart (mem : other ∈ carve window span) : other.Apart window := by
  obtain ⟨lower, rfl⟩ | ⟨higher, rfl⟩ := mem_carve.mp mem
  · exact .inl (by unfold below; dsimp only; omega)
  · exact .inr (Nat.lt_succ_self _)

end Span

end KernelModules.Data

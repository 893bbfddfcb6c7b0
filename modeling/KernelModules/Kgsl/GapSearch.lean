import KernelModules.Kgsl.PageTable
import Mathlib.Order.Bounds.Defs

namespace KernelModules.Kgsl

open Nat hiding bit size
open List KgslIommuAddrEntry

/-! # The search for a gap

`_get_unmapped_area` returns the lowest aligned place of the window where the request overlaps no entry.
-/

variable {value alignment place exponent bottom top size start : Nat}
  {entries passed : List KgslIommuAddrEntry} {entry : KgslIommuAddrEntry}

theorem u64_of_lt (small : value < 18446744073709551616) : u64 value = value :=
  mod_eq_of_lt small

theorem and_complement (small : value < 18446744073709551616) (power : exponent < 64) :
    value &&& (18446744073709551615 - (2 ^ exponent - 1)) = value / 2 ^ exponent * 2 ^ exponent := by
  have mask : 18446744073709551615 - (2 ^ exponent - 1) = 2 ^ 64 - (2 ^ exponent - 1 + 1) := by omega
  have fits : 2 ^ exponent - 1 < 2 ^ 64 := by
    have := Nat.pow_lt_pow_right (a := 2) (by decide) power
    omega
  rw [mask]
  apply eq_of_testBit_eq
  intro bit
  rw [testBit_and, testBit_two_pow_sub_succ fits, testBit_mul_two_pow, testBit_div_two_pow]
  by_cases low : bit < exponent
  · simp [low, not_le.mpr low]
  have shifted : bit - exponent + exponent = bit := by omega
  by_cases high : bit < 64
  · simp [low, high, shifted, Nat.le_of_not_lt low]
  · have outside : value.testBit bit = false :=
      Nat.testBit_lt_two_pow (lt_of_lt_of_le small (Nat.pow_le_pow_right (n := 2) (by decide) (Nat.le_of_not_lt high)))
    simp [low, high, shifted, outside]

section

variable (power : exponent < 64) (room : value + 2 ^ exponent ≤ 18446744073709551616)
include power room

theorem alignU64_isLeast : IsLeast {place | 2 ^ exponent ∣ place ∧ value ≤ place} (alignU64 value (2 ^ exponent)) := by
  have pos : 0 < 2 ^ exponent := Nat.two_pow_pos exponent
  have rounded : alignU64 value (2 ^ exponent) = (value + (2 ^ exponent - 1)) / 2 ^ exponent * 2 ^ exponent := by
    unfold alignU64
    rw [u64_of_lt (by omega), and_complement (by omega) power]
  rw [rounded]
  refine ⟨⟨dvd_mul_left _ _, ?_⟩, ?_⟩
  · have split := div_add_mod (value + (2 ^ exponent - 1)) (2 ^ exponent)
    rw [mul_comm] at split
    omega
  · rintro place ⟨⟨count, rfl⟩, higher⟩
    rw [mul_comm (2 ^ exponent)]
    apply Nat.mul_le_mul_right
    apply le_of_lt_succ
    rw [div_lt_iff_lt_mul pos, succ_mul, mul_comm count]
    omega

theorem alignU64_lt : alignU64 value (2 ^ exponent) < value + 2 ^ exponent := by
  have split := div_add_mod (value + (2 ^ exponent - 1)) (2 ^ exponent)
  have multiple : alignU64 value (2 ^ exponent) ≤ 2 ^ exponent * ((value + (2 ^ exponent - 1)) / 2 ^ exponent) :=
    (alignU64_isLeast power room).2 ⟨dvd_mul_right _ _, by omega⟩
  omega

end

def KgslIommuAddrEntry.stop (entry : KgslIommuAddrEntry) : Nat := entry.base + entry.size

def Ordered (entries : List KgslIommuAddrEntry) : Prop :=
  entries.Pairwise fun one other => one.stop ≤ other.base

/-- No range of the list overlaps `size` bytes at `place`. -/
def Free (entries : List KgslIommuAddrEntry) (place size : Nat) : Prop :=
  ∀ entry ∈ entries, place + size ≤ entry.base ∨ entry.stop ≤ place

/-- A place for `size` bytes in the window, aligned, that no range overlaps. -/
structure Fits (entries : List KgslIommuAddrEntry) (bottom top size alignment place : Nat) : Prop where
  aligned : alignment ∣ place
  above : bottom ≤ place
  within : place + size ≤ top
  free : Free entries place size

def Addressed (entries : List KgslIommuAddrEntry) : Prop :=
  ∀ entry ∈ entries, entry.stop ≤ 281474976710656

theorem KgslIommuAddrEntry.limit_eq (addressed : entry.stop ≤ 281474976710656) : entry.limit = entry.stop := by
  unfold stop at addressed
  exact u64_of_lt (by omega)

/-- What the search needs of the arguments: a power of two up to a gigabyte, a size whose sums do
not wrap, a window of 48-bit addresses. -/
structure Regular (top size alignment : Nat) : Prop where
  power : ∃ exponent ≤ 30, alignment = 2 ^ exponent
  size_small : size < 9223372036854775808
  top_small : top ≤ 281474976710656

namespace Regular

variable (regular : Regular top size alignment)
include regular

theorem align_least (value : Nat) (small : value ≤ 281474976710656) :
    IsLeast {place | alignment ∣ place ∧ value ≤ place} (alignU64 value alignment) ∧
      alignU64 value alignment < value + 1073741825 := by
  obtain ⟨exponent, most, rfl⟩ := regular.power
  have gigabyte : 2 ^ exponent ≤ 1073741824 := Nat.pow_le_pow_right (n := 2) (by decide) most
  have lt : alignU64 value (2 ^ exponent) < value + 2 ^ exponent := alignU64_lt (by omega) (by omega)
  exact ⟨alignU64_isLeast (by omega) (by omega), by omega⟩

theorem sum_eq (small : start ≤ 1125899906842624) : u64 (start + size) = start + size :=
  u64_of_lt (by have := regular.size_small; omega)

theorem searchGaps_fits (ordered : Ordered (passed ++ entries)) (addressed : Addressed entries)
    (behind : ∀ entry ∈ passed, entry.stop ≤ start) (aligned : alignment ∣ start)
    (low : bottom ≤ start) (small : start ≤ 562949953421312)
    (found : searchGaps bottom top size alignment entries start = place)
    (placed : place ≠ Errno.nomem.value) : Fits (passed ++ entries) bottom top size alignment place := by
  induction entries generalizing passed start with
  | nil =>
    unfold searchGaps at found
    rw [regular.sum_eq (by omega)] at found
    split at found
    · subst found
      refine ⟨aligned, low, by assumption, ?_⟩
      intro entry mem
      exact .inr (behind entry (by simpa using mem))
    · exact absurd found.symm placed
  | cons entry rest ih =>
    have here : entry.stop ≤ 281474976710656 := addressed entry mem_cons_self
    have order := pairwise_append.mp ordered
    have after := (pairwise_cons.mp order.2.1).1
    have rounded := regular.align_least _ here
    -- A place before this entry is before all that follow.
    have free (before : start + size ≤ entry.base) : Free (passed ++ entry :: rest) start size := by
      intro other mem
      rcases mem_append.mp mem with mem | mem
      · exact .inr (behind other mem)
      · rcases mem_cons.mp mem with rfl | mem
        · exact .inl before
        · have := after other mem
          unfold stop at this
          exact .inl (by omega)
    have moved {start : Nat} (past : entry.stop ≤ start) : ∀ other ∈ passed ++ [entry], other.stop ≤ start := by
      intro other mem
      rcases mem_append.mp mem with mem | mem
      · have := order.2.2 other mem entry mem_cons_self
        unfold stop at this past ⊢
        omega
      · cases mem_singleton.mp mem
        exact past
    unfold searchGaps at found
    rw [limit_eq here, regular.sum_eq (by omega)] at found
    have goOn {next : Nat} (past : entry.stop ≤ next) (multiple : alignment ∣ next)
        (lower : bottom ≤ next) (bounded : next ≤ 562949953421312)
        (found : searchGaps bottom top size alignment rest next = place) :
        Fits (passed ++ entry :: rest) bottom top size alignment place := by
      rw [append_cons]
      exact ih (by simpa [Ordered] using ordered) (fun other mem => addressed other (mem_cons_of_mem _ mem))
        (moved past) multiple lower bounded found
    split at found
    · split at found
      · have past := rounded.1.1.2
        exact goOn past rounded.1.1.1 (by omega) (by omega) found
      · exact goOn (by omega) aligned low small found
    · split at found
      · split at found
        · subst found
          exact ⟨aligned, low, by assumption, free (by omega)⟩
        · exact absurd found.symm placed
      · split at found
        · subst found
          exact ⟨aligned, low, by omega, free (by omega)⟩
        · split at found
          · exact absurd found.symm placed
          · have past := rounded.1.1.2
            have begins : entry.base ≤ entry.stop := le_add_right _ _
            exact goOn past rounded.1.1.1 (by omega) (by omega) found

theorem searchGaps_least (addressed : Addressed entries) (pos : 0 < size)
    (fits : Fits entries bottom top size alignment place) (reach : start ≤ place) :
    searchGaps bottom top size alignment entries start ≤ place := by
  have topSmall := regular.top_small
  have lt := fits.within
  induction entries generalizing start with
  | nil =>
    unfold searchGaps
    rw [regular.sum_eq (by omega), if_pos (by omega)]
    exact reach
  | cons entry rest ih =>
    have here : entry.stop ≤ 281474976710656 := addressed entry mem_cons_self
    have rounded := (regular.align_least _ here).1.2
    have later : Fits rest bottom top size alignment place :=
      { fits with free := fun other mem => fits.free other (mem_cons_of_mem _ mem) }
    have above := fits.above
    have goOn {next : Nat} (reach : next ≤ place) :=
      ih (fun other mem => addressed other (mem_cons_of_mem _ mem)) later reach
    unfold searchGaps
    rw [limit_eq here, regular.sum_eq (by omega)]
    rcases fits.free entry mem_cons_self with before | behind
    · rw [if_neg (by omega)]
      split
      · rw [if_pos (by omega)]
        exact reach
      · rw [if_pos (by omega)]
        exact reach
    · have step := rounded ⟨fits.aligned, behind⟩
      split
      · split
        · exact goOn step
        · exact goOn reach
      split
      · rw [if_pos (by omega)]
        exact reach
      · split
        · exact reach
        · rw [if_neg (by omega)]
          exact goOn step

theorem search_spec (ordered : Ordered entries) (addressed : Addressed entries) (pos : 0 < size)
    (small : bottom ≤ 281474976710656) (found : searchGaps (alignU64 bottom alignment) top size alignment entries
      (alignU64 bottom alignment) = start) :
    (start ≠ Errno.nomem.value → Fits entries bottom top size alignment start) ∧
      ∀ place, Fits entries bottom top size alignment place → start ≤ place := by
  have rounded := regular.align_least _ small
  constructor
  · intro placed
    have fits := @searchGaps_fits _ _ _ _ _ _ _ [] regular ordered addressed (fun _ absent => by cases absent)
      rounded.1.1.1 le_rfl (by omega) found placed
    have raised := rounded.1.1.2
    have above := fits.above
    exact { fits with above := by omega }
  · intro place fits
    have reach := rounded.1.2 ⟨fits.aligned, fits.above⟩
    rw [← found]
    exact regular.searchGaps_least addressed pos { fits with above := reach } reach

end Regular

end KernelModules.Kgsl

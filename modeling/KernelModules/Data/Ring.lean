import Mathlib.Data.Nat.ModEq

namespace KernelModules.Data

open Nat hiding ne_of_lt
open List Function

/-! # Rings

Counters that never wrap have their remainder as place.  A queue in a ring is filled at its tail and emptied at its
head; what left last can be put back.
-/

section Positions

variable {slots : Nat}

theorem ring_place_injective (ordered : low ≤ high) (close : high < low + slots)
    (same : low % slots = high % slots) : low = high := by
  have divides : slots ∣ high - low := (modEq_iff_dvd' ordered).mp same
  have small := eq_zero_of_dvd_of_lt divides (by omega)
  omega

theorem ring_place_ne (above : low < high) (close : high < low + slots) : low % slots ≠ high % slots := fun same =>
  absurd (ring_place_injective (le_of_lt above) close same) (ne_of_lt above)

theorem ring_place_succ {count : Nat} (pos : 0 < slots) :
    (count + 1) % slots = if count % slots + 1 ≥ slots then 0 else count % slots + 1 := by
  have bound := mod_lt count pos
  split
  · have full : count % slots + 1 = slots := by omega
    rw [← mod_add_mod, full, mod_self]
  · rw [← mod_add_mod, mod_eq_of_lt (by omega)]

theorem ring_free (ordered : low ≤ high) (close : high < low + slots) :
    (if low % slots ≤ high % slots then slots - (high % slots - low % slots)
      else low % slots - high % slots) = slots - (high - low) := by
  have pos : 0 < slots := by omega
  have lowBound := mod_lt low pos
  have lowParts := div_add_mod low slots
  have highParts := Nat.div_add_mod high slots
  obtain ⟨turns, turned⟩ := Nat.exists_eq_add_of_le (Nat.div_le_div_right (c := slots) ordered)
  have product : slots * (high / slots) = slots * (low / slots) + slots * turns := by
    rw [turned, mul_add]
  cases turns with
  | zero => split <;> omega
  | succ more =>
    cases more with
    | zero => split <;> omega
    | succ many =>
      have large : slots * (many + 1 + 1) = slots * many + slots + slots := by
        rw [mul_succ, mul_succ]
      omega

end Positions

section Queue

variable {α : Type} {slots : Nat → Option α} {size head tail : Nat} {items : List α}

/-- The ring holds `items` in order, the first at `head` and the next free place being `tail`. -/
structure RingQueue (slots : Nat → Option α) (size head tail : Nat) (items : List α) : Prop where
  head_lt : head < size
  tail_eq : tail = (head + items.length) % size
  short : items.length < size
  held : ∀ index, index < items.length → slots ((head + index) % size) = items[index]?

theorem ring_place_zero (inside : head < size) : (head + 0) % size = head := mod_eq_of_lt inside

theorem ring_place_next (size head idx : Nat) : (head + (idx + 1)) % size = ((head + 1) % size + idx) % size := by
  rw [mod_add_mod, add_assoc, add_comm 1]

namespace RingQueue

theorem nil (inside : head < size) : RingQueue slots size head head [] where
  head_lt := inside
  tail_eq := (ring_place_zero inside).symm
  short := by
    rw [length_nil]
    omega
  held _ below := absurd below (not_lt_zero _)

theorem front (queue : RingQueue slots size head tail (item :: items)) : slots head = some item := by
  have held := queue.held 0 (succ_pos _)
  rwa [ring_place_zero queue.head_lt] at held

theorem pop (queue : RingQueue slots size head tail (item :: items)) :
    RingQueue slots size ((head + 1) % size) tail items where
  head_lt := mod_lt _ (zero_lt_of_lt queue.head_lt)
  tail_eq := by
    rw [queue.tail_eq, length_cons, ring_place_next]
  short := lt_of_succ_lt queue.short
  held idx below := by
    rw [← ring_place_next]
    exact queue.held (idx + 1) (succ_lt_succ below)

theorem cons (inside : head < size) (first : slots head = some item) (room : items.length + 1 < size)
    (queue : RingQueue slots size ((head + 1) % size) tail items) :
    RingQueue slots size head tail (item :: items) where
  head_lt := inside
  tail_eq := by
    rw [queue.tail_eq]
    exact (ring_place_next size head items.length).symm
  short := room
  held
    | 0, _ => by
        rw [ring_place_zero inside]
        exact first
    | idx + 1, lt => by
        rw [ring_place_next]
        exact queue.held idx (lt_of_succ_lt_succ lt)

theorem update (queue : RingQueue slots size head tail items)
    (free : ∀ idx, idx < items.length → (head + idx) % size ≠ place) (value : Option α) :
    RingQueue (update slots place value) size head tail items where
  head_lt := queue.head_lt
  tail_eq := queue.tail_eq
  short := queue.short
  held idx below := by
    rw [update_of_ne (free idx below)]
    exact queue.held idx below

theorem push (queue : RingQueue slots size head tail items) (room : items.length + 1 < size) :
    RingQueue (Function.update slots tail (some item)) size head ((tail + 1) % size) (items ++ [item]) where
  head_lt := queue.head_lt
  tail_eq := by
    rw [queue.tail_eq, mod_add_mod, List.length_append, List.length_singleton, add_assoc]
  short := by
    rw [List.length_append]
    exact room
  held idx below := by
    rw [List.length_append, List.length_singleton] at below
    by_cases last : idx = items.length
    · rw [last, ← queue.tail_eq, Function.update_self, List.getElem?_append_right (le_rfl),
        Nat.sub_self, List.getElem?_cons_zero]
    have inside : idx < items.length := by omega
    have apart : (head + idx) % size ≠ tail := by
      rw [queue.tail_eq]
      exact ring_place_ne (by omega) (by omega)
    rw [Function.update_of_ne apart, List.getElem?_append_left inside]
    exact queue.held idx inside

theorem previous_lt (inside : head < size) : (if head = 0 then size - 1 else head - 1) < size := by
  split <;> omega

theorem previous_next (inside : head < size) : ((if head = 0 then size - 1 else head - 1) + 1) % size = head := by
  split
  · rename_i first
    rw [Nat.sub_add_cancel (by omega), Nat.mod_self, first]
  · rw [Nat.sub_add_cancel (by omega), Nat.mod_eq_of_lt inside]

section

variable (queue : RingQueue slots size head tail items)
include queue

theorem previous_free (room : items.length + 1 < size) (lt : idx < items.length) :
    (head + idx) % size ≠ if head = 0 then size - 1 else head - 1 := by
  have inside := previous_lt queue.head_lt
  have later := ring_place_next size (if head = 0 then size - 1 else head - 1) idx
  rw [previous_next queue.head_lt] at later
  rw [← later]
  generalize (if head = 0 then size - 1 else head - 1) = prev at inside
  have apart : prev % size ≠ (prev + (idx + 1)) % size :=
    ring_place_ne (by omega) (by omega)
  rw [mod_eq_of_lt inside] at apart
  exact apart.symm

theorem putBack (room : items.length + 1 < size) :
    RingQueue (Function.update slots (if head = 0 then size - 1 else head - 1) (some item)) size
      (if head = 0 then size - 1 else head - 1) tail (item :: items) := by
  refine .cons (previous_lt queue.head_lt) (Function.update_self ..) room ?_
  rw [previous_next queue.head_lt]
  exact queue.update (fun _ lt => queue.previous_free room lt) _

theorem empty_iff : head = tail ↔ items = [] := by
  rw [queue.tail_eq]
  refine ⟨fun same => eq_nil_of_length_eq_zero ?_, fun empty => ?_⟩
  · have short := queue.short
    have inside := queue.head_lt
    by_contra filled
    have apart : head % size ≠ (head + items.length) % size := ring_place_ne (by omega) (by omega)
    rw [mod_eq_of_lt inside] at apart
    exact apart same
  · rw [empty, length_nil, ring_place_zero queue.head_lt]

theorem distance : (tail + size - head) % size = items.length := by
  have inside := queue.head_lt
  have short := queue.short
  rw [queue.tail_eq]
  by_cases turned : head + items.length < size
  · rw [mod_eq_of_lt turned, show head + items.length + size - head = items.length + size by omega,
      add_mod_right, mod_eq_of_lt short]
  · have after : (head + items.length) % size = head + items.length - size := by
      rw [mod_eq_sub_mod (by omega), mod_eq_of_lt (by omega)]
    rw [after, show head + items.length - size + size - head = items.length by omega, mod_eq_of_lt short]

end

end RingQueue

end Queue

end KernelModules.Data

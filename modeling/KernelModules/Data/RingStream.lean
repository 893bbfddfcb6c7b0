import KernelModules.Data.ByteMemory
import KernelModules.Data.Ring

namespace KernelModules.Data

open ByteMemory List

/-! # A ring that holds the end of a stream

Byte number `pos` of a stream is kept at place `pos % slots`.  A run of bytes up to the end of the ring is copied in
two parts.
-/

/-- `memcpy` of `count` bytes, from `first` of the source to `address`. -/
def ByteMemory.copy (memory source : ByteMemory) (address first count : Nat) : ByteMemory :=
  fun place =>
    if address ≤ place ∧ place < address + count then source (first + (place - address))
    else memory place

/-- The first `count` bytes of the source go into the ring, from `place` on. -/
def ByteMemory.ringWrite (memory source : ByteMemory) (slots place count : Nat) : ByteMemory :=
  if place + count < slots then memory.copy source place 0 count
  else (memory.copy source place 0 (slots - place)).copy source 0 (slots - place)
      (count - (slots - place))

/-- `count` bytes of the ring, from `place` on, go to the front of a buffer. -/
def ByteMemory.ringRead (buffer memory : ByteMemory) (slots place count : Nat) : ByteMemory :=
  if place + count < slots then buffer.copy memory 0 place count
  else (buffer.copy memory 0 place (slots - place)).copy memory (slots - place) 0
      (count - (slots - place))

/-- The ring holds the bytes of a stream from `low` on. -/
def RingHolds (memory : ByteMemory) (slots start : Nat) (stream : List (BitVec 8)) (low : Nat) : Prop :=
  ∀ pos byte, low ≤ pos → stream[pos]? = some byte → memory ((start + pos) % slots) = byte

section Copies

variable {memory source buf : ByteMemory} {addr first count place slots offset other : Nat}

theorem ByteMemory.copy_inside (inside : offset < count) :
    memory.copy source addr first count (addr + offset) = source (first + offset) := by
  unfold copy
  rw [if_pos (by omega), Nat.add_sub_cancel_left]

theorem ByteMemory.copy_outside (outside : place < addr ∨ addr + count ≤ place) :
    memory.copy source addr first count place = memory place := by
  unfold copy
  rw [if_neg (by omega)]

theorem ring_offset (inside : place < slots) (short : offset ≤ slots) : (place + offset) % slots =
      if place + offset < slots then place + offset else place + offset - slots := by
  split
  · rename_i before
    exact Nat.mod_eq_of_lt before
  · rw [Nat.mod_eq_sub_mod (by omega), Nat.mod_eq_of_lt (by omega)]

section

variable (within : place < slots) (fits : count ≤ slots)
include within fits

theorem ByteMemory.ringWrite_inside (inside : offset < count) :
    memory.ringWrite source slots place count ((place + offset) % slots) = source offset := by
  unfold ringWrite
  rw [ring_offset within (by omega)]
  split
  · rw [if_pos (by omega), copy_inside inside, zero_add]
  · split
    · rw [copy_outside (by omega), copy_inside (by omega), zero_add]
    · have back : place + offset - slots = 0 + (offset - (slots - place)) := by omega
      rw [back, copy_inside (by omega)]
      exact congrArg source (by omega)

theorem ByteMemory.ringWrite_other (range : other < slots)
    (apart : ∀ offset, offset < count → other ≠ (place + offset) % slots) :
    memory.ringWrite source slots place count other = memory other := by
  have outside : other < place ∨ place + count ≤ other := by
    by_contra inside
    have here := apart (other - place) (by omega)
    rw [ring_offset within (by omega), if_pos (by omega)] at here
    omega
  unfold ringWrite
  split
  · exact copy_outside outside
  have behind : place + count - slots ≤ other := by
    by_contra inside
    have here := apart (slots - place + other) (by omega)
    rw [ring_offset within (by omega), if_neg (by omega)] at here
    omega
  rw [copy_outside (by omega), copy_outside (by omega)]

theorem ByteMemory.ringRead_inside (inside : offset < count) :
    buf.ringRead memory slots place count offset = memory ((place + offset) % slots) := by
  unfold ringRead
  rw [ring_offset within (by omega)]
  split
  · rw [if_pos (by omega), ← zero_add offset, copy_inside inside, zero_add]
  · split
    · rw [copy_outside (by omega), ← zero_add offset, copy_inside (by omega), zero_add]
    · have back : offset = slots - place + (offset - (slots - place)) := by omega
      rw [back, copy_inside (by omega)]
      exact congrArg memory (by omega)

end

end Copies

section Streams

variable {memory source : ByteMemory} {slots start low count : Nat}
  {stream : List (BitVec 8)}

theorem RingHolds.write (holds : RingHolds memory slots start stream low) (positive : 0 < slots)
    (behind : low ≤ stream.length) (room : stream.length + count ≤ low + slots) :
    RingHolds (memory.ringWrite source slots ((start + stream.length) % slots) count) slots start
      (stream ++ (List.range count).map source) low := by
  intro pos byte kept found
  have within := Nat.mod_lt (start + stream.length) positive
  have fits : count ≤ slots := by omega
  by_cases old : pos < stream.length
  · rw [List.getElem?_append_left old] at found
    rw [ringWrite_other within fits (Nat.mod_lt _ positive)]
    · exact holds pos byte kept found
    · intro offset inside
      rw [Nat.mod_add_mod]
      exact ring_place_ne (by omega) (by omega)
  · rw [List.getElem?_append_right (Nat.le_of_not_lt old), List.getElem?_map] at found
    obtain ⟨offset, mem, rfl⟩ := Option.map_eq_some_iff.mp found
    obtain ⟨inside, value⟩ := List.getElem?_eq_some_iff.mp mem
    rw [length_range] at inside
    rw [getElem_range] at value
    have here : start + pos = start + stream.length + offset := by omega
    rw [here, ← Nat.mod_add_mod (start + stream.length) slots offset, ringWrite_inside within fits (by omega)]

theorem RingHolds.read (buf : ByteMemory) (holds : RingHolds memory slots start stream low) (pos : 0 < slots)
    (there : low + count ≤ stream.length) (fits : count ≤ slots) :
    (List.range count).map (buf.ringRead memory slots ((start + low) % slots) count) =
      (stream.drop low).take count := by
  have within := Nat.mod_lt (start + low) pos
  apply ext_getElem
  · rw [length_map, length_range, length_take, length_drop]
    omega
  · intro offset inside _
    rw [length_map, length_range] at inside
    rw [getElem_map, getElem_range, getElem_take, getElem_drop,
      ringRead_inside within fits inside, Nat.mod_add_mod, add_assoc]
    exact holds (low + offset) _ (by omega) (getElem?_eq_getElem (by omega))

theorem RingHolds.advance (holds : RingHolds memory slots start stream low) (ahead : low ≤ later) :
    RingHolds memory slots start stream later :=
  fun pos byte kept found => holds pos byte (le_trans ahead kept) found

end Streams

end KernelModules.Data

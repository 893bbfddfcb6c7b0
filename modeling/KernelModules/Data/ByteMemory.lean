import Mathlib.Data.List.Basic
import Mathlib.Tactic.Ring

namespace KernelModules.Data

/-! # Little-endian memory

Memory is a function from byte addresses.  A load reads bytes as one number, and a store cuts its value.
-/

abbrev ByteMemory := Nat → BitVec 8

/-- The number held by `count` bytes, least significant byte first. -/
def ByteMemory.load (memory : ByteMemory) (address : Nat) : Nat → Nat
  | 0 => 0
  | count + 1 => (memory address).toNat + 256 * memory.load (address + 1) count

def ByteMemory.store (memory : ByteMemory) (address count value : Nat) : ByteMemory :=
  fun place =>
    if address ≤ place ∧ place < address + count then BitVec.ofNat 8 (value / 256 ^ (place - address))
    else memory place

section Accesses

variable {memory : ByteMemory}

theorem ByteMemory.load_congr {other : ByteMemory}
    (same : ∀ byte, byte < count → memory (addr + byte) = other (elsewhere + byte)) :
    memory.load addr count = other.load elsewhere count := by
  induction count generalizing addr elsewhere with
  | zero => rfl
  | succ count ih =>
    have first : memory addr = other elsewhere := same 0 (Nat.succ_pos _)
    have rest : memory.load (addr + 1) count = other.load (elsewhere + 1) count := by
      apply ih
      intro byte inside
      rw [add_assoc, add_assoc, add_comm 1]
      exact same (byte + 1) (by omega)
    simp [ByteMemory.load, first, rest]

theorem ByteMemory.store_outside (outside : place < addr ∨ addr + count ≤ place) :
    memory.store addr count value place = memory place := by
  unfold ByteMemory.store
  rw [if_neg]
  omega

theorem ByteMemory.load_store_outside (outside : place + size ≤ addr ∨ addr + count ≤ place) :
    (memory.store addr count value).load place size = memory.load place size := by
  apply ByteMemory.load_congr
  intro byte inside
  apply ByteMemory.store_outside
  omega

theorem ByteMemory.load_store_part (inside : skipped + count ≤ size) :
    (memory.store addr size value).load (addr + skipped) count = value / 256 ^ skipped % 256 ^ count := by
  induction count generalizing skipped with
  | zero => simp only [ByteMemory.load, Nat.pow_zero, Nat.mod_one]
  | succ count ih =>
    have rest : (memory.store addr size value).load (addr + (skipped + 1)) count =
        value / 256 ^ (skipped + 1) % 256 ^ count := ih (by omega)
    have first : (memory.store addr size value (addr + skipped)).toNat = value / 256 ^ skipped % 256 := by
      unfold ByteMemory.store
      rw [if_pos (by omega), Nat.add_sub_cancel_left, BitVec.toNat_ofNat]
    have shifted : value / 256 ^ (skipped + 1) = value / 256 ^ skipped / 256 := by
      rw [Nat.div_div_eq_div_mul, Nat.pow_succ]
    calc
      _ = value / 256 ^ skipped % 256 + 256 * (value / 256 ^ (skipped + 1) % 256 ^ count) := by
        rw [ByteMemory.load, first, add_assoc, rest]
      _ = value / 256 ^ skipped % (256 * 256 ^ count) := by
        rw [shifted, Nat.mod_mul]
      _ = _ := by rw [Nat.pow_succ, mul_comm]

theorem ByteMemory.load_store (inside : count ≤ size) :
    (memory.store addr size value).load addr count = value % 256 ^ count := by
  have whole : (memory.store addr size value).load (addr + 0) count =
      value / 256 ^ 0 % 256 ^ count := ByteMemory.load_store_part (by omega)
  rwa [Nat.pow_zero, Nat.div_one] at whole

end Accesses

structure ByteStore where
  offset : Nat
  count : Nat
  value : Nat

def ByteStore.apply (base : Nat) (memory : ByteMemory) (store : ByteStore) : ByteMemory :=
  memory.store (base + store.offset) store.count store.value

def ByteMemory.storeAll (memory : ByteMemory) (base : Nat) (stores : List ByteStore) : ByteMemory :=
  stores.foldl (ByteStore.apply base) memory

@[simp] theorem ByteMemory.storeAll_nil {memory : ByteMemory} : memory.storeAll base [] = memory := rfl

@[simp] theorem ByteMemory.storeAll_cons (store : ByteStore) :
    memory.storeAll base (store :: stores) = (store.apply base memory).storeAll base stores :=
  rfl

/-! ## Moving bytes

A move reads all its bytes before it writes one, so the two runs may overlap.
-/

def ByteMemory.move (memory : ByteMemory) (dst src count : Nat) : ByteMemory :=
  fun place =>
    if dst ≤ place ∧ place < dst + count then memory (src + (place - dst)) else memory place

def ByteMemory.set (memory : ByteMemory) (address : Nat) (byte : BitVec 8) : ByteMemory :=
  fun place => if place = address then byte else memory place

section Moves

variable {memory : ByteMemory}

theorem ByteMemory.move_inside (inside : offset < count) :
    memory.move dst src count (dst + offset) = memory (src + offset) := by
  unfold ByteMemory.move
  rw [if_pos (by omega), Nat.add_sub_cancel_left]

theorem ByteMemory.move_outside (outside : place < dst ∨ dst + count ≤ place) :
    memory.move dst src count place = memory place := by
  unfold ByteMemory.move
  rw [if_neg (by omega)]

@[simp] theorem ByteMemory.set_here : memory.set addr byte addr = byte :=
  if_pos rfl

theorem ByteMemory.set_other (apart : place ≠ addr) : memory.set addr byte place = memory place :=
  if_neg apart

end Moves

/-! ## Runs of bytes

A block of memory is read and written as the list of its bytes.
-/

def ByteMemory.writeBytes (memory : ByteMemory) (address : Nat) (bytes : List (BitVec 8)) : ByteMemory :=
  fun place =>
    if address ≤ place ∧ place < address + bytes.length then bytes.getD (place - address) 0
    else memory place

def ByteMemory.readBytes (memory : ByteMemory) (address count : Nat) : List (BitVec 8) :=
  (List.range count).map fun offset => memory (address + offset)

section Blocks

variable {memory : ByteMemory} {addr place count : Nat}

@[simp] theorem ByteMemory.length_readBytes : (memory.readBytes addr count).length = count := by
  simp [readBytes]

theorem ByteMemory.readBytes_add : memory.readBytes addr (count + more) =
      memory.readBytes addr count ++ memory.readBytes (addr + count) more := by
  simp [readBytes, List.range_add, add_assoc]

theorem ByteMemory.readBytes_congr {other : ByteMemory}
    (same : ∀ place, addr ≤ place → place < addr + count → memory place = other place) :
    memory.readBytes addr count = other.readBytes addr count := by
  apply List.map_congr_left
  intro off inside
  have lt := List.mem_range.mp inside
  exact same _ (Nat.le_add_right _ _) (Nat.add_lt_add_left lt _)

theorem ByteMemory.writeBytes_outside (outside : place < addr ∨ addr + bytes.length ≤ place) :
    memory.writeBytes addr bytes place = memory place := by
  unfold writeBytes
  rw [if_neg (by omega)]

theorem ByteMemory.readBytes_writeBytes : (memory.writeBytes addr bytes).readBytes addr bytes.length = bytes := by
  apply List.ext_getElem
  · exact length_readBytes
  · intro off _ inside
    simp [readBytes, writeBytes, inside]

end Blocks

end KernelModules.Data

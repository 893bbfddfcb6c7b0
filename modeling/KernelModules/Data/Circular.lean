import Mathlib.Data.BitVec

namespace KernelModules.Data

/-! # Circular comparison

Counters of a fixed width that wrap are compared by their difference, which orders what they count as long as that
differs by less than half of the range.
-/

def circularGte {width : Nat} (half : Nat) (first second : BitVec width) : Bool :=
  decide ((first - second).toNat ≤ half)

/-- The difference of two counters: negative where it is more than half of the range. -/
def circularDelta {width : Nat} (half : Nat) (first second : BitVec width) : Int :=
  if half < (first - second).toNat then (first - second).toNat - 2 * half
  else (first - second).toNat

def Near (half first second : Nat) : Prop := first < second + half ∧ second < first + half

def Ahead {width : Nat} (half : Nat) (base value : BitVec width) : Prop :=
  (value - base).toNat < half

section Window

variable {width : Nat}

theorem Ahead.gte {second : BitVec width} (ahead : Ahead half base first) (other : Ahead half base second)
    (range : 2 ^ width = 2 * half) :
    circularGte half first second = decide ((second - base).toNat ≤ (first - base).toNat) := by
  unfold Ahead at ahead other
  have distance : first - second = (first - base) - (second - base) :=
    (sub_sub_sub_cancel_right first second base).symm
  unfold circularGte
  rw [distance, BitVec.toNat_sub, range]
  apply decide_eq_decide.mpr
  by_cases ordered : (second - base).toNat ≤ (first - base).toNat
  · have reduced : (2 * half - (second - base).toNat + (first - base).toNat) % (2 * half) =
        (first - base).toNat - (second - base).toNat := by
      have split : 2 * half - (second - base).toNat + (first - base).toNat =
          (first - base).toNat - (second - base).toNat + 2 * half := by omega
      rw [split, Nat.add_mod_right, Nat.mod_eq_of_lt (by omega)]
    omega
  · rw [Nat.mod_eq_of_lt (by omega)]
    omega

end Window

section Counting

variable {width half first second : Nat}

theorem Near.symm (near : Near half first second) : Near half second first := ⟨near.2, near.1⟩

theorem Near.self (pos : 0 < half) : Near half first first := ⟨by omega, by omega⟩

section

variable (near : Near half first second) (range : 2 ^ width = 2 * half)
include near range

theorem Near.delta : (BitVec.ofNat width first - BitVec.ofNat width second).toNat =
      if second ≤ first then first - second else 2 * half - (second - first) := by
  obtain ⟨ahead, behind⟩ := near
  rw [BitVec.toNat_sub, BitVec.toNat_ofNat, BitVec.toNat_ofNat, range]
  have lt : second % (2 * half) < 2 * half := Nat.mod_lt _ (by omega)
  have split : 2 * half * (second / (2 * half)) + second % (2 * half) = second := Nat.div_add_mod ..
  have forward : (2 * half - second % (2 * half) + first % (2 * half)) % (2 * half) =
      (2 * half + first - second % (2 * half)) % (2 * half) := by
    rw [Nat.add_mod_mod]
    congr 1
    omega
  rw [forward]
  have reduced : ∀ rest, rest < 2 * half → first + 2 * half = second + rest →
      (2 * half + first - second % (2 * half)) % (2 * half) = rest := by
    intro rest small sum
    have multiple : 2 * half + first - second % (2 * half) = rest + 2 * half * (second / (2 * half)) := by omega
    rw [multiple, Nat.add_mul_mod_self_left, Nat.mod_eq_of_lt small]
  split_ifs with ordered
  · have multiple : 2 * half + first - second % (2 * half) =
        first - second + 2 * half * (second / (2 * half) + 1) := by
      rw [Nat.mul_succ]
      omega
    rw [multiple, Nat.add_mul_mod_self_left, Nat.mod_eq_of_lt (by omega)]
  · exact reduced _ (by omega) (by omega)

theorem Near.gte : circularGte half (BitVec.ofNat width first) (BitVec.ofNat width second) =
      decide (second ≤ first) := by
  obtain ⟨ahead, behind⟩ := id near
  unfold circularGte
  rw [near.delta range]
  apply decide_eq_decide.mpr
  split_ifs with ordered
  · exact ⟨fun _ => ordered, fun _ => by omega⟩
  · exact ⟨fun small => absurd small (by omega), fun less => absurd less ordered⟩

theorem Near.difference : circularDelta half (BitVec.ofNat width first) (BitVec.ofNat width second) =
      (first : Int) - second := by
  obtain ⟨ahead, behind⟩ := id near
  unfold circularDelta
  rw [near.delta range]
  split_ifs <;> omega

end

end Counting

end KernelModules.Data

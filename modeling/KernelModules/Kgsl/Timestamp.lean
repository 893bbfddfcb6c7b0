import Mathlib.Algebra.Order.Group.Int

namespace KernelModules.Kgsl

/-! # Timestamps

The low word of a counter that only grows.  Two compare as the counters do, less than half the range apart.
-/

def u32 (value : Nat) : Nat := value % 4294967296

def kgslTimestampWindow : Nat := 2147483648

def timestampCmp (a b : Nat) : Int :=
  if a = b then 0
  else if b < a ∧ a - b < kgslTimestampWindow then 1
  else let a := u32 (a + kgslTimestampWindow)
    let b := u32 (b + kgslTimestampWindow)
    if b < a ∧ a - b ≤ kgslTimestampWindow then 1 else -1

def Near (one other : Nat) : Prop :=
  one < other + kgslTimestampWindow ∧ other < one + kgslTimestampWindow

instance (one other : Nat) : Decidable (Near one other) := inferInstanceAs (Decidable (_ ∧ _))

theorem Near.refl : Near one one := by
  unfold Near kgslTimestampWindow
  omega

theorem timestampCmp_near (near : Near one other) :
    timestampCmp (u32 one) (u32 other) = if one = other then 0 else if other < one then 1 else -1 := by
  unfold Near kgslTimestampWindow at near
  unfold timestampCmp u32 kgslTimestampWindow
  dsimp only
  split_ifs <;> first | rfl | omega

theorem timestampCmp_nonpos (near : Near one other) : timestampCmp (u32 one) (u32 other) ≤ 0 ↔ one ≤ other := by
  rw [timestampCmp_near near]
  split_ifs <;> omega

theorem timestampCmp_nonneg (near : Near one other) : 0 ≤ timestampCmp (u32 one) (u32 other) ↔ other ≤ one := by
  rw [timestampCmp_near near]
  split_ifs <;> omega

theorem timestampCmp_eq_zero : timestampCmp a b = 0 ↔ a = b := by
  unfold timestampCmp
  dsimp only
  split_ifs <;> simp_all

end KernelModules.Kgsl

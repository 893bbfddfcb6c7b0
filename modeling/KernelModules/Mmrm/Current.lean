import KernelModules.Mmrm.Table
import Mathlib.Algebra.Order.Ring.Nat

namespace KernelModules.Mmrm

open BitVec

/-! # Current tables

`mmrm_sw_update_curr` in the 64-bit fixed point of `mmrm_fixedpoint.h`, with 16 bits behind the point.
-/

/-- `MMRM_VDD_LEVEL_NOM`. -/
def vddLevelNom : Nat := 3

/-- `FP(Q16_INT(q), Q16_FRAC(q), 100)`, where the hundredths are cut. -/
def fpOfQ16 (q : BitVec 32) : BitVec 64 :=
  (q >>> 16).setWidth 64 <<< 16 + (((((q &&& 0xFFFF) * 100) >>> 16) <<< 16) / 100).setWidth 64

def fpMult (a b : BitVec 64) : BitVec 64 := (a * b) >>> 16

def fpDiv (a b : BitVec 64) : BitVec 64 := (a <<< 16) / b

def fpRound (a : BitVec 64) : BitVec 64 :=
  a >>> 16 + if (0xFFFF / 2 : BitVec 64) ≤ a &&& 0xFFFF then 1 else 0

/-- What the tables are made from: the nominal power of the clock, its rates, and the factors of the
voltage corners. -/
structure PowerData where
  nomDynPwr : BitVec 32
  nomLeakPwr : BitVec 32
  freq : Nat → BitVec 64
  scalingFactorDyn : Nat → BitVec 32
  scalingFactorLeak : Nat → BitVec 32
  voltFactor : Nat → BitVec 32

structure PowerTables where
  dynPwr : Nat → BitVec 32
  leakPwr : Nat → BitVec 32
  currentMa : Nat → Nat → BitVec 32

namespace PowerData

variable (power : PowerData)

def dynPwr (i : Nat) : BitVec 64 :=
  fpMult (fpDiv (fpMult (fpOfQ16 power.nomDynPwr) (power.freq i)) (power.freq vddLevelNom))
    (fpOfQ16 (power.scalingFactorDyn i))

def leakPwr (i : Nat) : BitVec 64 :=
  fpMult (fpOfQ16 power.nomLeakPwr) (fpOfQ16 (power.scalingFactorLeak i))

/-- `mmrm_sw_update_curr`. -/
def updateCurr : PowerTables where
  dynPwr := fun i => (fpRound (power.dynPwr i)).setWidth 32
  leakPwr := fun i => (fpRound (power.leakPwr i)).setWidth 32
  currentMa := fun i j =>
    (fpRound (fpDiv (power.dynPwr i + power.leakPwr i) (fpOfQ16 (power.voltFactor j)))).setWidth 32

def scaledPwr (i : Nat) : Nat :=
  (fpOfQ16 power.nomDynPwr).toNat * (power.freq i).toNat / 65536 * 65536 /
    (power.freq vddLevelNom).toNat

def exactDyn (i : Nat) : Nat :=
  power.scaledPwr i * (fpOfQ16 (power.scalingFactorDyn i)).toNat / 65536

def exactLeak (i : Nat) : Nat :=
  (fpOfQ16 power.nomLeakPwr).toNat * (fpOfQ16 (power.scalingFactorLeak i)).toNat / 65536

def exactPwr (i : Nat) : Nat := power.exactDyn i + power.exactLeak i

def exactCurrent (i j : Nat) : Nat :=
  (power.exactPwr i * 65536 / (fpOfQ16 (power.voltFactor j)).toNat + 32769) / 65536

/-- The products, shifts and sums for the level `i`; the rest are quotients of them. -/
def intermediates (i : Nat) : List Nat :=
  [(fpOfQ16 power.nomDynPwr).toNat * (power.freq i).toNat,
    (fpOfQ16 power.nomDynPwr).toNat * (power.freq i).toNat / 65536 * 65536,
    power.scaledPwr i * (fpOfQ16 (power.scalingFactorDyn i)).toNat,
    (fpOfQ16 power.nomLeakPwr).toNat * (fpOfQ16 (power.scalingFactorLeak i)).toNat,
    power.exactPwr i, power.exactPwr i * 65536]

def OverflowFree : Prop := ∀ i < vddLevelMax, ∀ value ∈ power.intermediates i, value < 2 ^ 64

/-- Rates below 2^32 that do not fall with the level, a nominal rate and voltages. -/
structure Valid : Prop where
  bounded : ∀ i < vddLevelMax, (power.freq i).toNat < 2 ^ 32
  ascending : ∀ i k, i ≤ k → k < vddLevelMax → (power.freq i).toNat ≤ (power.freq k).toNat
  nominal : power.freq vddLevelNom ≠ 0
  voltage : ∀ j < vddLevelMax, fpOfQ16 (power.voltFactor j) ≠ 0

structure FactorsAscend : Prop where
  dyn : ∀ i k, i ≤ k → k < vddLevelMax → (power.scalingFactorDyn i).toNat ≤ (power.scalingFactorDyn k).toNat
  leak : ∀ i k, i ≤ k → k < vddLevelMax → (power.scalingFactorLeak i).toNat ≤ (power.scalingFactorLeak k).toNat

structure Monotone : Prop where
  level : ∀ i k j, i ≤ k → k < vddLevelMax → j < vddLevelMax →
    (power.updateCurr.currentMa i j).toNat ≤ (power.updateCurr.currentMa k j).toNat
  voltage : ∀ i j l, i < vddLevelMax → j < vddLevelMax → l < vddLevelMax →
    (power.voltFactor j).toNat ≤ (power.voltFactor l).toNat →
    (power.updateCurr.currentMa i l).toNat ≤ (power.updateCurr.currentMa i j).toNat

end PowerData

theorem fpOfQ16_toNat (q : BitVec 32) : (fpOfQ16 q).toNat =
    q.toNat / 65536 * 65536 + q.toNat % 65536 * 100 / 65536 * 65536 / 100 := by
  have low : (q &&& 0xFFFF).toNat = q.toNat % 65536 := by
    exact Nat.and_two_pow_sub_one_eq_mod _ 16
  simp only [fpOfQ16, toNat_add, toNat_shiftLeft, toNat_setWidth,
    toNat_ushiftRight, toNat_udiv, toNat_mul, low, Nat.shiftLeft_eq,
    Nat.shiftRight_eq_div_pow, show (100 : BitVec 32).toNat = 100 from rfl, Nat.reducePow]
  simp (disch := omega) only [Nat.mod_eq_of_lt]

theorem fpOfQ16_lt (q : BitVec 32) : (fpOfQ16 q).toNat < 2 ^ 32 := by
  rw [fpOfQ16_toNat]
  omega

theorem fpOfQ16_mono (less : q.toNat ≤ r.toNat) : (fpOfQ16 q).toNat ≤ (fpOfQ16 r).toNat := by
  rw [fpOfQ16_toNat, fpOfQ16_toNat]
  omega

theorem fpMult_toNat (fits : a.toNat * b.toNat < 2 ^ 64) : (fpMult a b).toNat = a.toNat * b.toNat / 65536 := by
  rw [fpMult, toNat_ushiftRight, toNat_mul, Nat.mod_eq_of_lt fits, Nat.shiftRight_eq_div_pow]

theorem fpDiv_toNat (fits : a.toNat * 65536 < 2 ^ 64) : (fpDiv a b).toNat = a.toNat * 65536 / b.toNat := by
  rw [fpDiv, toNat_udiv, toNat_shiftLeft, Nat.shiftLeft_eq, Nat.mod_eq_of_lt fits]

theorem fpRound_toNat (a : BitVec 64) : (fpRound a).toNat = (a.toNat + 32769) / 65536 := by
  have low : (a &&& 0xFFFF).toNat = a.toNat % 65536 := by
    exact Nat.and_two_pow_sub_one_eq_mod _ 16
  have half : (0xFFFF / 2 : BitVec 64) ≤ a &&& 0xFFFF ↔ 32767 ≤ a.toNat % 65536 := by
    rw [le_def, low]
    rfl
  rw [fpRound, toNat_add, toNat_ushiftRight]
  split
  · have up := half.mp ‹_›
    rw [show (1 : BitVec 64).toNat = 1 from rfl]
    omega
  · have down : ¬ 32767 ≤ a.toNat % 65536 := fun reaches => absurd (half.mpr reaches) ‹_›
    rw [show (0 : BitVec 64).toNat = 0 from rfl]
    omega

section Tables

variable {power : PowerData} {i j : Nat}

theorem PowerData.Valid.dyn_fits (valid : power.Valid) (level : i < vddLevelMax) :
    (fpOfQ16 power.nomDynPwr).toNat * (power.freq i).toNat < 2 ^ 64 :=
  calc
    _ < 2 ^ 32 * 2 ^ 32 := Nat.mul_lt_mul'' (fpOfQ16_lt _) (valid.bounded i level)

theorem PowerData.leak_fits (power : PowerData) (i : Nat) :
    (fpOfQ16 power.nomLeakPwr).toNat * (fpOfQ16 (power.scalingFactorLeak i)).toNat < 2 ^ 64 :=
  calc
    _ < 2 ^ 32 * 2 ^ 32 := Nat.mul_lt_mul'' (fpOfQ16_lt _) (fpOfQ16_lt _)

theorem PowerData.Valid.overflowFree_iff (valid : power.Valid) :
    power.OverflowFree ↔ ∀ i < vddLevelMax, power.exactPwr i < 2 ^ 48 := by
  constructor
  · intro free i level
    have := free i level (power.exactPwr i * 65536) (by simp [intermediates])
    omega
  · intro small i level
    have dyn := valid.dyn_fits level
    have leak := power.leak_fits i
    have total := small i level
    have part : power.exactDyn i < 2 ^ 48 := by
      unfold exactPwr at total
      omega
    unfold exactDyn at part
    simp only [intermediates, List.mem_cons, List.not_mem_nil, or_false, forall_eq_or_imp, forall_eq]
    omega

/-- The machine words are the exact numbers where the power fits 48 bits. -/
theorem PowerData.Valid.currentMa_eq (valid : power.Valid) (level : i < vddLevelMax)
    (small : power.exactPwr i < 2 ^ 48) (fits : power.exactCurrent i j < 2 ^ 32) :
    (power.updateCurr.currentMa i j).toNat = power.exactCurrent i j := by
  have dyn := valid.dyn_fits level
  have scaled : (fpDiv (fpMult (fpOfQ16 power.nomDynPwr) (power.freq i))
      (power.freq vddLevelNom)).toNat = power.scaledPwr i := by
    rw [fpDiv_toNat (by rw [fpMult_toNat dyn]; omega), fpMult_toNat dyn, scaledPwr]
  have lt : power.exactDyn i < 2 ^ 48 := by
    unfold exactPwr at small
    omega
  have dynPwr : (power.dynPwr i).toNat = power.exactDyn i := by
    unfold exactDyn at lt
    rw [PowerData.dynPwr, fpMult_toNat (by rw [scaled]; omega), scaled, exactDyn]
  have leakPwr : (power.leakPwr i).toNat = power.exactLeak i := fpMult_toNat (power.leak_fits i)
  have sum : (power.dynPwr i + power.leakPwr i).toNat = power.exactPwr i := by
    rw [toNat_add, dynPwr, leakPwr]
    exact Nat.mod_eq_of_lt (by unfold exactPwr at small; omega)
  have whole : (fpRound (fpDiv (power.dynPwr i + power.leakPwr i)
      (fpOfQ16 (power.voltFactor j)))).toNat = power.exactCurrent i j := by
    rw [fpRound_toNat, fpDiv_toNat (by omega), sum, exactCurrent]
  simp only [updateCurr, toNat_setWidth, whole]
  exact Nat.mod_eq_of_lt fits

theorem PowerData.Valid.exactPwr_mono (valid : power.Valid) (ascend : power.FactorsAscend) (less : i ≤ k)
    (level : k < vddLevelMax) : power.exactPwr i ≤ power.exactPwr k := by
  have rate := valid.ascending i k less level
  have dyn := fpOfQ16_mono (ascend.dyn i k less level)
  have leak := fpOfQ16_mono (ascend.leak i k less level)
  unfold exactPwr exactDyn exactLeak scaledPwr
  gcongr

theorem PowerData.exactCurrent_le (less : power.exactPwr i ≤ power.exactPwr k)
    (pos : 0 < (fpOfQ16 (power.voltFactor l)).toNat)
    (volt : (fpOfQ16 (power.voltFactor l)).toNat ≤ (fpOfQ16 (power.voltFactor j)).toNat) :
    power.exactCurrent i j ≤ power.exactCurrent k l := by
  have quotient := Nat.div_le_div (Nat.mul_le_mul_right 65536 less) volt (Nat.ne_of_gt pos)
  exact Nat.div_le_div_right (Nat.add_le_add_right quotient _)

/-- Nothing overflows if and only if the power of every level is below 2^32 mW, and then currents below 2^32 mA are
monotone. -/
theorem update_curr_monotone {power : PowerData} (valid : power.Valid) :
    (power.OverflowFree ↔ ∀ i < vddLevelMax, power.exactPwr i < 2 ^ 48) ∧
      (power.OverflowFree → power.FactorsAscend →
        (∀ i < vddLevelMax, ∀ j < vddLevelMax, power.exactCurrent i j < 2 ^ 32) → power.Monotone) := by
  refine ⟨valid.overflowFree_iff, fun free ascend fits => ?_⟩
  have small := valid.overflowFree_iff.mp free
  have positive (j : Nat) (level : j < vddLevelMax) : 0 < (fpOfQ16 (power.voltFactor j)).toNat := by
    have := valid.voltage j level
    exact pos_of_ne_zero fun zero => this (BitVec.eq_of_toNat_eq zero)
  constructor
  · intro i k j less top level
    have within := lt_of_le_of_lt less top
    rw [valid.currentMa_eq within (small i within) (fits i within j level),
      valid.currentMa_eq top (small k top) (fits k top j level)]
    exact PowerData.exactCurrent_le (valid.exactPwr_mono ascend less top) (positive j level)
      le_rfl
  · intro i j l within level other less
    rw [valid.currentMa_eq within (small i within) (fits i within l other),
      valid.currentMa_eq within (small i within) (fits i within j level)]
    exact PowerData.exactCurrent_le le_rfl (positive j level) (fpOfQ16_mono less)

def flatPower (pwr factor : BitVec 32) : PowerData where
  nomDynPwr := pwr
  nomLeakPwr := pwr
  freq := fun _ => 19200000
  scalingFactorDyn := fun _ => factor
  scalingFactorLeak := fun _ => factor
  voltFactor := fun _ => 65536

theorem flatPower_valid (pwr factor : BitVec 32) : (flatPower pwr factor).Valid where
  bounded := fun _ _ => (by decide : (19200000 : BitVec 64).toNat < 2 ^ 32)
  ascending := fun _ _ _ _ => le_rfl
  nominal := (by decide : (19200000 : BitVec 64) ≠ 0)
  voltage := fun _ _ => (by decide : fpOfQ16 65536 ≠ 0)

theorem update_curr_monotone_flat : (flatPower 6553600 65536).Monotone := by
  obtain ⟨free, monotone⟩ := update_curr_monotone (flatPower_valid 6553600 65536)
  have pwr (i : Nat) : (flatPower 6553600 65536).exactPwr i = 13107200 := by
    show (flatPower 6553600 65536).exactPwr 0 = _
    decide +kernel
  refine monotone (free.mpr fun i _ => by rw [pwr]; decide)
    ⟨fun _ _ _ _ => le_rfl, fun _ _ _ _ => le_rfl⟩ fun i _ j _ => ?_
  show (flatPower 6553600 65536).exactCurrent 0 0 < _
  decide +kernel

/-- The greatest power with the greatest factors. -/
theorem update_curr_overflows : ¬ ∀ power : PowerData, power.Valid → power.OverflowFree := by
  intro always
  have free := always _ (flatPower_valid 0xFFFFFFFF 0xFFFFFFFF)
  exact absurd ((flatPower_valid _ _).overflowFree_iff.mp free 0 (by decide)) (by decide +kernel)

end Tables

end KernelModules.Mmrm

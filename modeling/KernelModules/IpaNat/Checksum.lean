import KernelModules.IpaNat.Rule
import Mathlib.Data.Int.ModEq

namespace KernelModules.IpaNat

open BitVec hiding cons_append
open List

/-! # Checksum deltas

Sums of 16-bit words in ones' complement, where 0 and 65535 both stand for zero.
-/

/-- One step of a checksum: an addition and the carry around the end. -/
def addWord (cksum : BitVec 32) (word : BitVec 16) : BitVec 32 := foldCarry (cksum + word.setWidth 32)

def onesSum (words : List (BitVec 16)) : BitVec 32 := words.foldl addWord 0

def wordSum (words : List (BitVec 16)) : Nat := (words.map BitVec.toNat).sum

def addrWords (addr : BitVec 32) : List (BitVec 16) := [addr.setWidth 16, (addr >>> 16).setWidth 16]

def SameOnes (first second : Nat) : Prop := first = second ∨ first = 0 ∧ second = 65535 ∨ first = 65535 ∧ second = 0

/-- The delta for new words in the place of old ones. -/
structure Delta (delta : BitVec 16) (new old : List (BitVec 16)) : Prop where
  chain : delta.setWidth 32 = onesSum (new ++ old.map (~~~ ·))
  /-- No step loses a carry, and its value has 16 bits. -/
  carries : ∀ done word rest, new ++ old.map (~~~ ·) = done ++ word :: rest →
    (onesSum done + word.setWidth 32).toNat = (onesSum done).toNat + word.toNat ∧
      (onesSum (done ++ [word])).toNat < 65536
  congruent : (delta.toNat : Int) ≡ wordSum new - wordSum old [ZMOD 65535]
  update : ∀ rest before after : List (BitVec 16), before.Perm (old ++ rest) → after.Perm (new ++ rest) →
    SameOnes (addWord (onesSum before) delta).toNat (onesSum after).toNat

section Deltas

variable {cksum : BitVec 32} {word delta : BitVec 16} {words new old : List (BitVec 16)}

theorem foldCarry_toNat (small : cksum.toNat < 131072) : (foldCarry cksum).toNat =
    if 65536 ≤ cksum.toNat then cksum.toNat - 65535 else cksum.toNat := by
  have low : (cksum &&& 0x0000FFFF).toNat = cksum.toNat % 65536 := Nat.and_two_pow_sub_one_eq_mod _ 16
  have high : cksum >>> 16 = 0 ↔ cksum.toNat < 65536 := by
    rw [← toNat_inj, toNat_ushiftRight, Nat.shiftRight_eq_div_pow]
    simp
  unfold foldCarry
  by_cases fits : cksum.toNat < 65536
  · rw [if_neg (by simpa using high.mpr fits), if_neg (by omega)]
  · rw [if_pos (by simpa using high.not.mpr fits), if_pos (by omega), toNat_add, low]
    simp
    omega

theorem addWord_toNat (small : cksum.toNat < 65536) :
    (cksum + word.setWidth 32).toNat = cksum.toNat + word.toNat ∧ (addWord cksum word).toNat < 65536 ∧
      (addWord cksum word).toNat % 65535 = (cksum.toNat + word.toNat) % 65535 := by
  have whole : (cksum + word.setWidth 32).toNat = cksum.toNat + word.toNat := by
    rw [toNat_add, toNat_setWidth]
    omega
  rw [addWord, foldCarry_toNat (by omega), whole]
  refine ⟨rfl, ?_, ?_⟩
  · split <;> omega
  · split <;> omega

theorem foldl_addWord (words : List (BitVec 16)) (small : cksum.toNat < 65536) :
    (words.foldl addWord cksum).toNat < 65536 ∧
      (words.foldl addWord cksum).toNat % 65535 = (cksum.toNat + wordSum words) % 65535 := by
  induction words generalizing cksum with
  | nil => exact ⟨small, rfl⟩
  | cons word rest ih =>
    obtain ⟨-, fits, added⟩ := addWord_toNat small
    obtain ⟨bound, sum⟩ := ih fits
    refine ⟨bound, ?_⟩
    simp only [foldl_cons, wordSum, map_cons, sum_cons] at sum ⊢
    omega

theorem onesSum_toNat (words : List (BitVec 16)) :
    (onesSum words).toNat < 65536 ∧ (onesSum words).toNat % 65535 = wordSum words % 65535 := by
  simpa [onesSum] using @foldl_addWord 0 words (by decide)

theorem wordSum_perm (same : words.Perm new) : wordSum words = wordSum new := (same.map _).sum_nat

theorem wordSum_append : wordSum (new ++ old) = wordSum new + wordSum old := by
  simp [wordSum]

theorem wordSum_not : ∃ zeros, wordSum (old.map (~~~ ·)) + wordSum old = 65535 * zeros := by
  induction old with
  | nil => exact ⟨0, rfl⟩
  | cons word rest ih =>
    obtain ⟨zeros, sum⟩ := ih
    refine ⟨zeros + 1, ?_⟩
    simp only [wordSum, map_cons, sum_cons, toNat_not] at sum ⊢
    omega

/-- A chain over the new words and the complements of the old ones is the delta. -/
theorem Delta.of_chain (chain : delta = (onesSum (new ++ old.map (~~~ ·))).setWidth 16) : Delta delta new old := by
  have value : delta.toNat = (onesSum (new ++ old.map (~~~ ·))).toNat := by
    rw [chain, toNat_setWidth, Nat.mod_eq_of_lt (onesSum_toNat _).1]
  obtain ⟨zeros, complement⟩ := @wordSum_not old
  have residue : (delta.toNat + wordSum old) % 65535 = wordSum new % 65535 := by
    have sum := (onesSum_toNat (new ++ old.map (~~~ ·))).2
    rw [wordSum_append] at sum
    omega
  refine ⟨?_, fun done word rest split => ?_, ?_, fun rest before after was is => ?_⟩
  · apply eq_of_toNat_eq
    rw [toNat_setWidth, value, Nat.mod_eq_of_lt (isLt _)]
  · obtain ⟨whole, fits, -⟩ := addWord_toNat (onesSum_toNat done).1
    exact ⟨whole, by simpa [onesSum] using fits⟩
  · unfold Int.ModEq
    omega
  · obtain ⟨small, sum⟩ := onesSum_toNat before
    obtain ⟨-, fits, added⟩ := @addWord_toNat _ delta small
    obtain ⟨smallAfter, sumAfter⟩ := onesSum_toNat after
    rw [wordSum_perm was, wordSum_append] at sum
    rw [wordSum_perm is, wordSum_append] at sumAfter
    unfold SameOnes
    omega

theorem setWidth_low (addr : BitVec 32) : (addr.setWidth 16).setWidth 32 = addr &&& 0xFFFF := by
  apply eq_of_toNat_eq
  exact (Nat.and_two_pow_sub_one_eq_mod _ 16).symm

theorem high_low (addr : BitVec 32) : addr >>> 16 &&& (0xFFFF : BitVec 32) = addr >>> 16 := by
  rw [← setWidth_low]
  apply eq_of_toNat_eq
  simp [Nat.shiftRight_eq_div_pow]
  omega

theorem addrWords_not (addr : BitVec 32) : (addrWords addr).map (~~~ ·) = addrWords (~~~ addr) := by
  have low : ~~~ (addr.setWidth 16) = (~~~ addr).setWidth 16 := by
    apply eq_of_getLsbD_eq
    intro bit small
    simp [small]
  have high : ~~~ ((addr >>> 16).setWidth 16) = (~~~ addr >>> 16).setWidth 16 := by
    apply eq_of_getLsbD_eq
    intro bit small
    simp [small]
    omega
  rw [addrWords, map_cons, map_cons, low, high]
  rfl

theorem addWord_zero (word : BitVec 16) : addWord 0 word = word.setWidth 32 := by
  have start : (0 : BitVec 32) + word.setWidth 32 = word.setWidth 32 := BitVec.zero_add _
  apply eq_of_toNat_eq
  rw [addWord, start, foldCarry_toNat (by simp; omega), if_neg (by simp; omega)]

end Deltas

theorem checksum_deltas (pubIpAddr privIpAddr : BitVec 32) (pubPort privPort : BitVec 16) :
    Delta (ipaNatiCalcIpCksum pubIpAddr privIpAddr) (addrWords pubIpAddr) (addrWords privIpAddr) ∧
    Delta (ipaNatiCalcTcpUdpCksum pubIpAddr pubPort privIpAddr privPort) (addrWords pubIpAddr ++ [pubPort])
      (addrWords privIpAddr ++ [privPort]) := by
  constructor
  · apply Delta.of_chain
    rw [addrWords_not]
    simp only [onesSum, addrWords, List.cons_append, List.nil_append, List.foldl_cons, List.foldl_nil,
      addWord_zero]
    simp only [addWord, setWidth_low, high_low]
    rfl
  · apply Delta.of_chain
    rw [List.map_append, addrWords_not]
    simp only [onesSum, addrWords, List.cons_append, List.nil_append, List.foldl_cons, List.foldl_nil,
      addWord_zero, List.map_cons, List.map_nil]
    simp only [addWord, setWidth_low, high_low]
    rfl

end KernelModules.IpaNat

import KernelModules.Data.Ring
import KernelModules.HwFence.Queue
import Mathlib.Tactic.NormNum

namespace KernelModules.HwFence

open Data BitVec

/-! # Indices of a ring of payloads

Where the factor of the queue divides a payload, the index of every place survives the way into the header and back.
-/

/-- The queue has no translation to speak of, or one that keeps whole payloads apart. -/
def MsmHwFenceQueue.AcceptsIndices (queue : MsmHwFenceQueue) : Prop :=
  queue.rdWrIdxFactor = 0 ∨ queue.rdWrIdxFactor.toNat ∣ 16

instance (queue : MsmHwFenceQueue) : Decidable queue.AcceptsIndices :=
  inferInstanceAs (Decidable (_ ∨ _))

/-- A queue of `entries` payloads that reads and writes share. -/
structure RingQueue (queue : MsmHwFenceQueue) (entries : Nat) : Prop where
  positive : 0 < entries
  size : queue.qSizeBytes.toNat = payloadSize * entries
  accepts : queue.AcceptsIndices
  sharedIndex : queue.skipWrIdx = false

def placeIdx (place : Nat) : BitVec 32 := BitVec.ofNat 32 (16 * place)

def headerIdx (queue : MsmHwFenceQueue) (place : Nat) : BitVec 32 :=
  if requiresIdxTranslation queue then idxTranslateDefaultToCustom queue (placeIdx place)
  else placeIdx place

section Indices

variable {queue : MsmHwFenceQueue} {entries : Nat}

section

variable (ring : RingQueue queue entries)
include ring

theorem RingQueue.qSizeU32 : queue.qSizeU32.toNat = 16 * entries := by
  have size := ring.size
  unfold MsmHwFenceQueue.qSizeU32
  have four : (4 : BitVec 32).toNat = 4 := rfl
  unfold payloadSize at size
  rw [toNat_udiv, four]
  omega

theorem RingQueue.small : 64 * entries < 2 ^ 32 := by
  have size := ring.size
  unfold payloadSize at size
  omega

theorem RingQueue.placeIdx_toNat (inside : place < entries) : (placeIdx place).toNat = 16 * place := by
  have small := ring.small
  unfold placeIdx
  rw [toNat_ofNat, Nat.mod_eq_of_lt (by omega)]

theorem RingQueue.placeIdx_injective (inside : place < entries) (otherInside : other < entries)
    (same : placeIdx place = placeIdx other) : place = other := by
  have numbers := congrArg BitVec.toNat same
  rw [ring.placeIdx_toNat inside, ring.placeIdx_toNat otherInside] at numbers
  omega

theorem RingQueue.translate (inside : place < entries) : (if requiresIdxTranslation queue then
        idxTranslateCustomToDefault queue (headerIdx queue place) else headerIdx queue place) = placeIdx place := by
  unfold headerIdx
  split
  · rename_i required
    have ne : queue.rdWrIdxFactor ≠ 0 := by
      intro zero
      simp [requiresIdxTranslation, zero] at required
    have divides : queue.rdWrIdxFactor.toNat ∣ 16 := ring.accepts.resolve_left ne
    have back : idxTranslateDefaultToCustom queue (placeIdx place) - queue.rdWrIdxStart =
        placeIdx place / queue.rdWrIdxFactor := add_sub_cancel _ _
    unfold idxTranslateCustomToDefault
    rw [back]
    apply eq_of_toNat_eq
    have whole : queue.rdWrIdxFactor.toNat ∣ (placeIdx place).toNat := by
      rw [ring.placeIdx_toNat inside]
      exact Nat.dvd_mul_right_of_dvd divides place
    rw [toNat_mul, toNat_udiv, Nat.div_mul_cancel whole, Nat.mod_eq_of_lt (isLt _)]
  · rfl

theorem RingQueue.translateIndexes (readInside : readPlace < entries) (writeInside : writePlace < entries) :
    translateQueueIndexesCustomToDefault queue (headerIdx queue readPlace)
      (headerIdx queue writePlace) = (placeIdx readPlace, placeIdx writePlace) := by
  have readBack := ring.translate readInside
  have writeBack := ring.translate writeInside
  unfold translateQueueIndexesCustomToDefault
  split at readBack
  · rename_i required
    rw [if_pos required] at writeBack ⊢
    rw [readBack, writeBack]
  · rename_i free
    rw [if_neg free] at writeBack ⊢
    rw [readBack, writeBack]

theorem RingQueue.indexAfter_place (count : Nat) :
    indexAfter queue (placeIdx (count % entries)) = headerIdx queue ((count + 1) % entries) := by
  have small := ring.small
  have inside := Nat.mod_lt count ring.positive
  have next : (placeIdx (count % entries) + payloadSizeU32).toNat = 16 * (count % entries) + 16 := by
    rw [toNat_add, ring.placeIdx_toNat inside]
    have sixteen : payloadSizeU32.toNat = 16 := rfl
    omega
  have wrapped : (if placeIdx (count % entries) + payloadSizeU32 ≥ queue.qSizeU32 then 0
      else placeIdx (count % entries) + payloadSizeU32) = placeIdx ((count + 1) % entries) := by
    rw [ring_place_succ ring.positive]
    by_cases last : count % entries + 1 ≥ entries
    · rw [if_pos last, if_pos]
      · rfl
      · rw [ge_iff_le, BitVec.le_def, ring.qSizeU32]
        omega
    rw [if_neg last, if_neg]
    · apply eq_of_toNat_eq
      rw [ring.placeIdx_toNat (by omega)]
      omega
    · rw [ge_iff_le, le_def, ring.qSizeU32]
      omega
  unfold indexAfter headerIdx
  rw [wrapped]

theorem RingQueue.noRoom_iff (ordered : low ≤ high) (close : high < low + entries) :
    queueFreeU32 queue (placeIdx (low % entries)) (placeIdx (high % entries)) ≤ payloadSizeU32 ↔
      high - low + 1 = entries := by
  have lowPlace := ring.placeIdx_toNat (Nat.mod_lt low ring.positive)
  have highPlace := ring.placeIdx_toNat (Nat.mod_lt high ring.positive)
  have size := ring.qSizeU32
  have free : (queueFreeU32 queue (placeIdx (low % entries)) (placeIdx (high % entries))).toNat =
      16 * (entries - (high - low)) := by
    have places := ring_free ordered close
    unfold queueFreeU32
    split at places
    · rw [if_pos (by rw [le_def]; omega), toNat_sub, toNat_sub]
      omega
    · rw [if_neg (by rw [le_def]; omega), toNat_sub]
      omega
  have sixteen : payloadSizeU32.toNat = 16 := rfl
  rw [le_def]
  omega

end

end Indices

end KernelModules.HwFence

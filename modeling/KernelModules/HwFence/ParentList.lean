import KernelModules.HwFence.FindFence

namespace KernelModules.HwFence

open Data List MsmHwFence HwFenceDriverData

/-! # Parent lists of children

While a fence array is attached, the hash of its join fence stands behind the parents that a child had before.
-/

def MsmHwFence.parents (fence : MsmHwFence) : List (BitVec 64) :=
  fence.parentList.toList.take fence.parentsCnt.toNat

section Clearing

variable {hash : BitVec 64} {count : Nat}

theorem clearParents_frame (hash : BitVec 64) (j : Nat) (fence : MsmHwFence) :
    (clearParents hash j fence).flags = fence.flags ∧
      (clearParents hash j fence).pendingChildCnt = fence.pendingChildCnt := by
  induction j generalizing fence with
  | zero => exact ⟨rfl, rfl⟩
  | succ j ih =>
    unfold clearParents
    split
    · exact ih _
    · exact ih _

theorem clearParents_absent (absent : ∀ idx, idx < count →
    fence.parentList.toList[idx]? ≠ some hash) : clearParents hash count fence = fence := by
  induction count with
  | zero => rfl
  | succ count ih =>
    unfold clearParents
    rw [if_neg (absent count (Nat.lt_succ_self _))]
    exact ih fun idx lt => absent idx (Nat.lt_succ_of_lt lt)

theorem clearParents_tail (counted : fence.parentsCnt.toNat = own + count)
    (mem : ∀ idx, own ≤ idx → idx < own + count → fence.parentList.toList[idx]? = some hash)
    (absent : ∀ idx, idx < own → fence.parentList.toList[idx]? ≠ some hash) :
    (clearParents hash (own + count) fence).parentsCnt.toNat = own ∧
      (clearParents hash (own + count) fence).parentList.toList.take own = fence.parentList.toList.take own := by
  induction count generalizing fence with
  | zero =>
    rw [add_zero] at counted ⊢
    rw [clearParents_absent absent]
    exact ⟨counted, rfl⟩
  | succ count ih =>
    have last := mem (own + count) (by omega) (by omega)
    rw [← add_assoc, clearParents, if_pos last]
    have ne : fence.parentsCnt ≠ 0 := by
      intro zero
      rw [zero] at counted
      have none : (0 : BitVec 32).toNat = 0 := rfl
      omega
    have one : (1 : BitVec 32).toNat = 1 := rfl
    generalize shorter : { fence with
      parentList := fence.parentList.setIfInBounds (own + count) hwFenceInvalidParentFence
      parentsCnt := if fence.parentsCnt ≠ 0 then fence.parentsCnt - 1 else 0 } = next
    have nextCount : next.parentsCnt.toNat = own + count := by
      rw [← shorter]
      rw [if_pos ne, BitVec.toNat_sub]
      omega
    have nextList : next.parentList.toList = fence.parentList.toList.set (own + count) hwFenceInvalidParentFence := by
      rw [← shorter]
      exact Vector.toList_setIfInBounds
    have kept : ∀ idx, idx < own + count →
        next.parentList.toList[idx]? = fence.parentList.toList[idx]? := by
      intro idx lt
      rw [nextList, getElem?_set_ne (by omega)]
    obtain ⟨cleared, list⟩ := ih nextCount (fun idx low lt => (kept idx lt).trans (mem idx low (by omega)))
      (fun idx lt => by rw [kept idx (by omega)]; exact absent idx lt)
    refine ⟨cleared, list.trans ?_⟩
    rw [nextList, take_set_of_le (by omega)]

end Clearing

structure SameFences (before after : HwFenceDriverData) : Prop where
  entries : after.hwFenceTableEntries = before.hwFenceTableEntries
  same : ∀ slot, (after.hwFencesTbl slot).SameFence (before.hwFencesTbl slot)
  flags : ∀ slot, (after.hwFencesTbl slot).flags = (before.hwFencesTbl slot).flags

/-- The hash is in the list of every slot as often as in `attached`, behind the parents of `before`; signaled fences
keep their lists. -/
structure Listing (before after : HwFenceDriverData) (hash : BitVec 64) (attached : List Nat) :
    Prop extends SameFences before after where
  parentsCnt : ∀ slot, (before.hwFencesTbl slot).signaled = false → (after.hwFencesTbl slot).parentsCnt.toNat =
      (before.hwFencesTbl slot).parentsCnt.toNat + attached.count slot
  parents : ∀ slot, (before.hwFencesTbl slot).signaled = false → (after.hwFencesTbl slot).parents =
      (before.hwFencesTbl slot).parents ++ .replicate (attached.count slot) hash
  settled : ∀ slot, (before.hwFencesTbl slot).signaled = true →
    (after.hwFencesTbl slot).parentsCnt = (before.hwFencesTbl slot).parentsCnt ∧
      (after.hwFencesTbl slot).parentList = (before.hwFencesTbl slot).parentList

/-- A waiting fence has room for one more parent, and no fence names the hash where the cleanup looks. -/
def MsmHwFence.ReadyFor (fence : MsmHwFence) (hash : BitVec 64) : Prop :=
  (fence.signaled = false → fence.parentsCnt.toNat < msmHwFenceMaxJoinParents) ∧
    ∀ index, index < fence.firstParent → fence.parentList.toList[index]? ≠ some hash

section Attaching

variable {before drvData : HwFenceDriverData} {hash : BitVec 64}

theorem SameFences.rfl : SameFences drvData drvData :=
  ⟨Eq.refl _, fun _ => .rfl, fun _ => Eq.refl _⟩

theorem SameFences.trans {next} (first : SameFences before drvData) (second : SameFences drvData next) :
    SameFences before next where
  entries := second.entries.trans first.entries
  same := fun slot => by
    obtain ⟨valid, ctx, seqno, allocator⟩ := first.same slot
    obtain ⟨nextValid, nextContext, nextSeqno, nextAllocator⟩ := second.same slot
    exact ⟨nextValid.trans valid, nextContext.trans ctx, nextSeqno.trans seqno, nextAllocator.trans allocator⟩
  flags := fun slot => (second.flags slot).trans (first.flags slot)

theorem SameFences.signaled (same : SameFences before drvData) (slot : Nat) :
    (drvData.hwFencesTbl slot).signaled = (before.hwFencesTbl slot).signaled := by
  unfold MsmHwFence.signaled
  rw [same.flags]

theorem SameFences.put (same : fence.SameFence (drvData.hwFencesTbl slot))
    (flags : fence.flags = (drvData.hwFencesTbl slot).flags) : SameFences drvData (drvData.put slot fence) where
  entries := Eq.refl _
  same := fun other => by
    by_cases here : other = slot
    · rw [here, put_slot]
      exact same
    · rw [put_other here]
      exact .rfl
  flags := fun other => by
    by_cases here : other = slot
    · rw [here, put_slot]
      exact flags
    · rw [put_other here]

section

variable (same : SameFences before drvData) (ctx seqno : BitVec 64)
include same ctx seqno

theorem SameFences.probed (step : Nat) : drvData.probe ctx seqno step = before.probe ctx seqno step ∧
      hwFenceMatch (drvData.probed ctx seqno step) ctx seqno =
        hwFenceMatch (before.probed ctx seqno step) ctx seqno := by
  have entries : drvData.entries = before.entries := congrArg BitVec.toNat same.entries
  have place : drvData.probe ctx seqno step = before.probe ctx seqno step := by
    unfold probe hashStart
    rw [entries]
  refine ⟨place, ?_⟩
  unfold HwFenceDriverData.probed
  rw [place]
  exact (same.same _).matches

theorem SameFences.foundStep : HwFence.foundStep drvData ctx seqno .findFence =
      HwFence.foundStep before ctx seqno .findFence := by
  have entries : drvData.entries = before.entries := congrArg BitVec.toNat same.entries
  have verdicts : lookupVerdict drvData ctx seqno .findFence = lookupVerdict before ctx seqno .findFence := by
    funext step
    rw [lookupVerdict_find, lookupVerdict_find, (same.probed ctx seqno step).2]
  unfold HwFence.foundStep
  rw [entries, verdicts]

theorem SameFences.find : msmHwFenceFind drvData ctx seqno = msmHwFenceFind before ctx seqno := by
  have scanned := same.foundStep ctx seqno
  cases found : HwFence.foundStep before ctx seqno .findFence with
  | none => rw [find_missed found, find_missed (scanned.trans found)]
  | some step =>
    rw [find_found found, find_found (scanned.trans found), (same.probed ctx seqno step).1]

end

theorem Listing.start : Listing drvData drvData hash [] where
  toSameFences := .rfl
  parentsCnt := fun _ _ => Eq.refl _
  parents := fun _ _ => (append_nil _).symm
  settled := fun _ _ => ⟨Eq.refl _, Eq.refl _⟩

theorem Listing.keep (listing : Listing before drvData hash attached) (slot : Nat) (fence : MsmHwFence)
    (same : fence.SameFence (drvData.hwFencesTbl slot)) (flags : fence.flags = (drvData.hwFencesTbl slot).flags)
    (count : fence.parentsCnt = (drvData.hwFencesTbl slot).parentsCnt)
    (list : fence.parentList = (drvData.hwFencesTbl slot).parentList) :
    Listing before (drvData.put slot fence) hash attached := by
  have fields : ∀ other, ((drvData.put slot fence).hwFencesTbl other).parentsCnt =
      (drvData.hwFencesTbl other).parentsCnt ∧ ((drvData.put slot fence).hwFencesTbl other).parentList =
          (drvData.hwFencesTbl other).parentList := by
    intro other
    by_cases here : other = slot
    · rw [here, put_slot]
      exact ⟨count, list⟩
    · rw [put_other here]
      exact ⟨Eq.refl _, Eq.refl _⟩
  exact {
    toSameFences := listing.toSameFences.trans (.put same flags)
    parentsCnt := fun other waits => by rw [(fields other).1]; exact listing.parentsCnt other waits
    parents := fun other waits => by
      unfold MsmHwFence.parents
      rw [(fields other).1, (fields other).2]
      exact listing.parents other waits
    settled := fun other signaled => by
      rw [(fields other).1, (fields other).2]
      exact listing.settled other signaled }

theorem Listing.enter (listing : Listing before drvData hash attached)
    (waits : (before.hwFencesTbl slot).signaled = false)
    (room : (drvData.hwFencesTbl slot).parentsCnt.toNat + 1 < msmHwFenceMaxJoinParents) :
    Listing before (drvData.put slot { drvData.hwFencesTbl slot with
      parentsCnt := (drvData.hwFencesTbl slot).parentsCnt + 1
      parentList := (drvData.hwFencesTbl slot).parentList.setIfInBounds
        ((drvData.hwFencesTbl slot).parentsCnt + 1 - 1).toNat hash }) hash
      (attached ++ [slot]) := by
  unfold msmHwFenceMaxJoinParents at room
  have one : (1 : BitVec 32).toNat = 1 := rfl
  have back : (drvData.hwFencesTbl slot).parentsCnt + 1 - 1 = (drvData.hwFencesTbl slot).parentsCnt :=
    BitVec.add_sub_cancel _ _
  rw [back]
  generalize entered : MsmHwFence.mk _ _ _ _ _ _ _ _ _ _ _ _ = fence
  have count : fence.parentsCnt.toNat = (drvData.hwFencesTbl slot).parentsCnt.toNat + 1 := by
    rw [← entered, BitVec.toNat_add, one, Nat.mod_eq_of_lt (by omega)]
  have parents : fence.parents = (drvData.hwFencesTbl slot).parents ++ [hash] := by
    have size : (drvData.hwFencesTbl slot).parentList.toList.length = 3 :=
      Vector.length_toList
    unfold MsmHwFence.parents
    rw [count, ← entered, Vector.toList_setIfInBounds, take_add_one,
      take_set_of_le le_rfl, getElem?_set_self (by omega)]
    rfl
  have same : fence.SameFence (drvData.hwFencesTbl slot) := by
    rw [← entered]
    exact ⟨rfl, rfl, rfl, rfl⟩
  have flags : fence.flags = (drvData.hwFencesTbl slot).flags := by rw [← entered]
  exact {
    toSameFences := listing.toSameFences.trans (.put same flags)
    parentsCnt := fun other otherWaits => by
      rw [count_append]
      by_cases here : other = slot
      · rw [here, put_slot, count, listing.parentsCnt slot waits, count_singleton_self]
        omega
      · rw [put_other here, listing.parentsCnt other otherWaits,
          count_singleton, if_neg (by simpa using Ne.symm here), add_zero]
    parents := fun other otherWaits => by
      rw [count_append]
      by_cases here : other = slot
      · rw [here, put_slot, parents, listing.parents slot waits, count_singleton_self, append_assoc, replicate_succ']
      · rw [put_other here, listing.parents other otherWaits,
          count_singleton, if_neg (by simpa using Ne.symm here), add_zero]
    settled := fun other signaled => by
      have apart : other ≠ slot := by
        rintro rfl
        rw [waits] at signaled
        cases signaled
      rw [put_other apart]
      exact listing.settled other signaled }

section

variable {fence : MsmHwFence} (small : fence.parentsCnt.toNat < msmHwFenceMaxJoinParents)
include small

theorem MsmHwFence.firstParent_small : fence.firstParent = fence.parentsCnt.toNat := by
  unfold msmHwFenceMaxJoinParents at small
  have num : fence.parentsCnt.toInt = fence.parentsCnt.toNat := by
    rw [BitVec.toInt_eq_toNat_of_lt (by omega)]
  unfold firstParent msmHwFenceMaxJoinParents
  omega

theorem MsmHwFence.parents_length : fence.parents.length = fence.parentsCnt.toNat := by
  have size : fence.parentList.toList.length = 3 := Vector.length_toList
  unfold msmHwFenceMaxJoinParents at small
  unfold parents
  rw [length_take]
  omega

end

theorem MsmHwFence.parents_getElem? {fence : MsmHwFence} (lt : index < fence.parentsCnt.toNat) :
    fence.parents[index]? = fence.parentList.toList[index]? := by
  unfold parents
  rw [getElem?_take_of_lt lt]

theorem clearParents_entered {fence old : MsmHwFence} (small : fence.parentsCnt.toNat < msmHwFenceMaxJoinParents)
    (counted : fence.parentsCnt.toNat = old.parentsCnt.toNat + entered)
    (mem : fence.parents = old.parents ++ .replicate entered hash)
    (absent : ∀ idx, idx < old.firstParent → old.parentList.toList[idx]? ≠ some hash) :
    (clearParents hash fence.firstParent fence).parentsCnt.toNat = old.parentsCnt.toNat ∧
      (clearParents hash fence.firstParent fence).parents = old.parents := by
  have oldSmall : old.parentsCnt.toNat < msmHwFenceMaxJoinParents := by omega
  have oldLength := parents_length oldSmall
  rw [firstParent_small oldSmall] at absent
  have entries : ∀ idx, idx < fence.parentsCnt.toNat → fence.parentList.toList[idx]? =
      (old.parents ++ List.replicate entered hash)[idx]? := by
    intro idx lt
    rw [← mem, parents_getElem? lt]
  obtain ⟨count, list⟩ := clearParents_tail counted (fun idx low high => by
      rw [entries idx (by omega), getElem?_append_right (by omega), getElem?_replicate, if_pos (by omega)])
    (fun idx lt => by
      rw [entries idx (by omega), getElem?_append_left (by omega), parents_getElem? lt]
      exact absent idx lt)
  rw [firstParent_small small, counted]
  refine ⟨count, ?_⟩
  have front := congrArg (List.take old.parentsCnt.toNat) mem
  unfold parents at front ⊢
  rw [count, list]
  rw [take_take, Nat.min_eq_left (by omega)] at front
  rw [front]
  have whole := parents_length oldSmall
  unfold parents at whole
  rw [take_append_of_le_length (by omega), take_take, Nat.min_self]

theorem Listing.clear {attached : List Nat} {slot : Nat} (listing : Listing before drvData hash attached)
    (ready : (before.hwFencesTbl slot).ReadyFor hash) (small : (before.hwFencesTbl slot).signaled = false →
      (drvData.hwFencesTbl slot).parentsCnt.toNat < msmHwFenceMaxJoinParents) :
    Listing before (drvData.put slot (clearParents hash
      (drvData.hwFencesTbl slot).firstParent (drvData.hwFencesTbl slot))) hash (attached.filter (· ≠ slot)) := by
  obtain ⟨flags, -⟩ := clearParents_frame hash (drvData.hwFencesTbl slot).firstParent (drvData.hwFencesTbl slot)
  have same := clearParents_sameFence hash (drvData.hwFencesTbl slot).firstParent (drvData.hwFencesTbl slot)
  have others : ∀ other, other ≠ slot → (attached.filter (· ≠ slot)).count other = attached.count other := by
    intro other apart
    rw [count_filter (by simpa using apart)]
  have none : (attached.filter (· ≠ slot)).count slot = 0 := by
    rw [count_eq_zero]
    simp
  cases signaled : (before.hwFencesTbl slot).signaled with
  | true =>
    obtain ⟨count, list⟩ := listing.settled slot signaled
    have unchanged : clearParents hash (drvData.hwFencesTbl slot).firstParent
        (drvData.hwFencesTbl slot) = drvData.hwFencesTbl slot := by
      apply clearParents_absent
      intro idx lt
      unfold firstParent at lt
      rw [count] at lt
      rw [list]
      exact ready.2 idx lt
    rw [unchanged]
    have kept : Listing before (drvData.put slot (drvData.hwFencesTbl slot)) hash attached :=
      listing.keep slot _ .rfl rfl rfl rfl
    exact {
      toSameFences := kept.toSameFences
      parentsCnt := fun other waits => by
        rw [others other (by rintro rfl; rw [signaled] at waits; cases waits)]
        exact kept.parentsCnt other waits
      parents := fun other waits => by
        rw [others other (by rintro rfl; rw [signaled] at waits; cases waits)]
        exact kept.parents other waits
      settled := kept.settled }
  | false =>
    obtain ⟨count, parents⟩ := clearParents_entered (small signaled)
      (listing.parentsCnt slot signaled) (listing.parents slot signaled) ready.2
    exact {
      toSameFences := listing.toSameFences.trans (.put same flags)
      parentsCnt := fun other waits => by
        by_cases here : other = slot
        · rw [here, put_slot, count, none, add_zero]
        · rw [put_other here, others other here]
          exact listing.parentsCnt other waits
      parents := fun other waits => by
        by_cases here : other = slot
        · rw [here, put_slot, parents, none]
          exact (append_nil _).symm
        · rw [put_other here, others other here]
          exact listing.parents other waits
      settled := fun other otherSignaled => by
        have apart : other ≠ slot := by
          rintro rfl
          rw [signaled] at otherSignaled
          cases otherSignaled
        rw [put_other apart]
        exact listing.settled other otherSignaled }

end Attaching

end KernelModules.HwFence

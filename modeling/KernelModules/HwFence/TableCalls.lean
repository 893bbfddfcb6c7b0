import KernelModules.Data.Probing
import KernelModules.HwFence.FenceTable
import KernelModules.Data.Run

namespace KernelModules.HwFence

open BitVec hiding hash
open Data

/-! # What a lookup does

A lookup probes the slots of its key in order, up to the first that its compare function takes; a creation gives up
at its own key.
-/

def hashStart (drvData : HwFenceDriverData) (context seqno : BitVec 64) : Nat :=
  (4969 * seqno * (context + (context - 1)) + 907 * context : BitVec 64).toNat % drvData.entries

def HwFenceDriverData.probe (drvData : HwFenceDriverData) (context seqno : BitVec 64)
    (step : Nat) : Nat :=
  probeSlot drvData.entries (hashStart drvData context seqno) step

def HwFenceDriverData.probed (drvData : HwFenceDriverData) (context seqno : BitVec 64)
    (step : Nat) : MsmHwFence :=
  drvData.hwFencesTbl (drvData.probe context seqno step)

def lookupVerdict (drvData : HwFenceDriverData) (context seqno : BitVec 64) (opCode : LookupOp)
    (step : Nat) : Option Bool :=
  let fence := drvData.probed context seqno step
  if opCode.compareFnc fence context seqno then some true
  else if opCode.creates && hwFenceMatch fence context seqno then some false
  else none

def foundStep (drvData : HwFenceDriverData) (context seqno : BitVec 64) (opCode : LookupOp) : Option Nat :=
  scan (lookupVerdict drvData context seqno opCode) drvData.entries 0

section Lookups

variable {drvData : HwFenceDriverData} {ctx seqno hash : BitVec 64} {left step : Nat}

theorem HwFenceDriverData.entries_lt : drvData.entries < 2 ^ 32 := isLt _

theorem HwFenceDriverData.probe_lt (pos : 0 < drvData.entries) (ctx seqno : BitVec 64) (step : Nat) :
    drvData.probe ctx seqno step < drvData.entries :=
  probeSlot_lt pos

theorem HwFenceDriverData.probe_toNat (pos : 0 < drvData.entries) (ctx seqno : BitVec 64)
    (step : Nat) : (BitVec.ofNat 64 (drvData.probe ctx seqno step)).toNat = drvData.probe ctx seqno step := by
  have inside := drvData.probe_lt pos ctx seqno step
  have small := drvData.entries_lt
  rw [toNat_ofNat, Nat.mod_eq_of_lt (by omega)]

theorem calculateHash_probe (inside : step < drvData.entries)
    (before : step ≠ 0 → hash = BitVec.ofNat 64 (drvData.probe ctx seqno (step - 1))) :
    calculateHash drvData.hwFenceTableEntries ctx seqno step hash =
      some (BitVec.ofNat 64 (drvData.probe ctx seqno step)) := by
  have size : (drvData.hwFenceTableEntries.setWidth 64).toNat = drvData.entries := by
    rw [toNat_setWidth]
    exact Nat.mod_eq_of_lt (by omega)
  have bounded : drvData.probe ctx seqno step < 2 ^ 64 := by
    have bound := drvData.probe_lt (Nat.zero_lt_of_lt inside) ctx seqno step
    omega
  unfold calculateHash
  by_cases first : step = 0
  · rw [first]
    refine congrArg some (eq_of_toNat_eq ?_)
    rw [first] at bounded
    rw [toNat_umod, size, toNat_ofNat, Nat.mod_eq_of_lt bounded]
    unfold HwFenceDriverData.probe probeSlot hashStart
    rw [add_zero, Nat.mod_mod]
  · rw [if_neg first, if_neg (by omega), before first]
    refine congrArg some (eq_of_toNat_eq ?_)
    have prev := drvData.probe_lt (Nat.zero_lt_of_lt inside) ctx seqno (step - 1)
    have one : (1 : BitVec 64).toNat = 1 := rfl
    rw [toNat_umod, size, toNat_add, toNat_ofNat, toNat_ofNat, one,
      Nat.mod_eq_of_lt bounded, Nat.mod_eq_of_lt (a := drvData.probe ctx seqno (step - 1))
        (by omega), Nat.mod_eq_of_lt (a := _ + 1) (by omega)]
    unfold HwFenceDriverData.probe
    rw [probeSlot_succ, Nat.sub_add_cancel (by omega)]

theorem getHwFence_probe (pos : 0 < drvData.entries) :
    getHwFence drvData (BitVec.ofNat 64 (drvData.probe ctx seqno step)) = some (drvData.probe ctx seqno step) := by
  have num := drvData.probe_toNat pos ctx seqno step
  have inside := drvData.probe_lt pos ctx seqno step
  unfold getHwFence
  rw [num, if_neg (by omega)]

theorem hwFenceLookupLoop_succ (inside : step < drvData.entries)
    (before : step ≠ 0 → hash = BitVec.ofNat 64 (drvData.probe ctx seqno (step - 1))) :
    hwFenceLookupLoop drvData ctx seqno opCode (left + 1) step hash =
      match lookupVerdict drvData ctx seqno opCode step with
      | some true => ⟨true, BitVec.ofNat 64 (drvData.probe ctx seqno step),
          drvData.put (drvData.probe ctx seqno step)
            (opCode.processFnc (drvData.probed ctx seqno step) ctx seqno)⟩
      | some false => ⟨false, BitVec.ofNat 64 (drvData.probe ctx seqno step), drvData⟩
      | none => hwFenceLookupLoop drvData ctx seqno opCode left (step + 1)
          (BitVec.ofNat 64 (drvData.probe ctx seqno step)) := by
  have hashed := calculateHash_probe inside before
  have slotted : getHwFence drvData (BitVec.ofNat 64 (drvData.probe ctx seqno step)) =
      some (drvData.probe ctx seqno step) := getHwFence_probe (Nat.zero_lt_of_lt inside)
  have sameKey : (opCode.creates && seqno == (drvData.probed ctx seqno step).seqId &&
      ctx == (drvData.probed ctx seqno step).ctxId) =
        (opCode.creates && hwFenceMatch (drvData.probed ctx seqno step) ctx seqno) := by
    unfold hwFenceMatch
    rw [Bool.and_assoc, Bool.and_comm (seqno == _), BEq.comm (a := ctx), BEq.comm (a := seqno)]
  rw [hwFenceLookupLoop]
  unfold lookupVerdict
  simp only [hashed, slotted]
  change (if opCode.compareFnc (drvData.probed ctx seqno step) ctx seqno then _
    else if opCode.creates && seqno == (drvData.probed ctx seqno step).seqId &&
      ctx == (drvData.probed ctx seqno step).ctxId then _ else _) = _
  rw [sameKey]
  split
  · rfl
  · split <;> rfl

section

variable (steps : step + left = drvData.entries)
  (before : step ≠ 0 → hash = BitVec.ofNat 64 (drvData.probe ctx seqno (step - 1)))
include steps before

theorem hwFenceLookupLoop_found (scanned : scan (lookupVerdict drvData ctx seqno opCode) left step = some found) :
    hwFenceLookupLoop drvData ctx seqno opCode left step hash =
      ⟨true, BitVec.ofNat 64 (drvData.probe ctx seqno found), drvData.put (drvData.probe ctx seqno found)
          (opCode.processFnc (drvData.probed ctx seqno found) ctx seqno)⟩ := by
  induction left generalizing step hash with
  | zero => cases scanned
  | succ left ih =>
    rw [hwFenceLookupLoop_succ (by omega) before]
    unfold scan at scanned
    cases verdict : lookupVerdict drvData ctx seqno opCode step with
    | none =>
      rw [verdict] at scanned
      exact ih (by omega) (fun _ => by rw [Nat.add_sub_cancel]) scanned
    | some success =>
      rw [verdict] at scanned
      cases success with
      | true =>
        cases scanned
        rfl
      | false => cases scanned

theorem hwFenceLookupLoop_missed (scanned : scan (lookupVerdict drvData ctx seqno opCode) left step = none) :
    ∃ last, hwFenceLookupLoop drvData ctx seqno opCode left step hash = ⟨false, last, drvData⟩ := by
  induction left generalizing step hash with
  | zero => exact ⟨hash, rfl⟩
  | succ left ih =>
    rw [hwFenceLookupLoop_succ (by omega) before]
    unfold scan at scanned
    cases verdict : lookupVerdict drvData ctx seqno opCode step with
    | none =>
      rw [verdict] at scanned
      exact ih (by omega) (fun _ => by rw [Nat.add_sub_cancel]) scanned
    | some success =>
      rw [verdict] at scanned
      cases success with
      | true => cases scanned
      | false => exact ⟨_, rfl⟩

end

theorem lookup_found (scanned : foundStep drvData ctx seqno opCode = some found) :
    hwFenceLookupAndProcess drvData ctx seqno opCode =
      ⟨true, BitVec.ofNat 64 (drvData.probe ctx seqno found), drvData.put (drvData.probe ctx seqno found)
          (opCode.processFnc (drvData.probed ctx seqno found) ctx seqno)⟩ :=
  hwFenceLookupLoop_found (zero_add _) (absurd rfl) scanned

theorem lookup_missed (scanned : foundStep drvData ctx seqno opCode = none) :
    ∃ last, hwFenceLookupAndProcess drvData ctx seqno opCode = ⟨false, last, drvData⟩ :=
  hwFenceLookupLoop_missed (zero_add _) (absurd rfl) scanned

theorem foundStep_eq_some_iff : foundStep drvData ctx seqno opCode = some found ↔ found < drvData.entries ∧
      lookupVerdict drvData ctx seqno opCode found = some true ∧ ∀ earlier, earlier < found →
        lookupVerdict drvData ctx seqno opCode earlier = none := by
  unfold foundStep
  rw [scan_eq_some_iff]
  constructor
  · rintro ⟨-, inside, success, before⟩
    exact ⟨by omega, success, fun earlier => before earlier (Nat.zero_le _)⟩
  · rintro ⟨inside, success, before⟩
    exact ⟨Nat.zero_le _, by omega, success, fun earlier _ => before earlier⟩

end Lookups

open HwFence

inductive TableCall where
  | create (clientId : BitVec 32) (context seqno : BitVec 64)
  | destroy (context seqno : BitVec 64)
  | destroyWithHash (clientId : BitVec 32) (hash : BitVec 64)
  | processFenceArray (client : WaitClient) (array : DmaFenceArray) (clientData : BitVec 64)
  | registerWaitClient (client : WaitClient) (context seqno clientData : BitVec 64)

def TableCall.perform (drvData : HwFenceDriverData) : TableCall → Option HwFenceDriverData
  | .create clientId context seqno =>
    some (hwFenceCreate drvData clientId context seqno).drvData
  | .destroy context seqno => some (hwFenceDestroy drvData context seqno).2
  | .destroyWithHash clientId hash => some (hwFenceDestroyWithHash drvData clientId hash).2
  | .processFenceArray client array clientData =>
    (hwFenceProcessFenceArray drvData client array clientData).map WaitAnswer.drvData
  | .registerWaitClient client context seqno clientData =>
    some (hwFenceRegisterWaitClient drvData client context seqno clientData).drvData

def HwFenceDriverData.initial (tableEntries : BitVec 32) : HwFenceDriverData :=
  ⟨tableEntries, fun _ => .zero⟩

def MsmHwFence.SameFence (fence other : MsmHwFence) : Prop :=
  fence.valid = other.valid ∧ fence.ctxId = other.ctxId ∧ fence.seqId = other.seqId ∧
    fence.fenceAllocator = other.fenceAllocator

structure Kept (property : HwFenceDriverData → Prop) : Prop where
  changed : ∀ drvData slot fence, property drvData →
    fence.SameFence (drvData.hwFencesTbl slot) → property (drvData.put slot fence)
  destroyed : ∀ drvData context seqno, property drvData → property (hwFenceCleanup drvData context seqno).2

section Rules

variable {property : HwFenceDriverData → Prop} {drvData : HwFenceDriverData}

theorem MsmHwFence.SameFence.rfl {fence : MsmHwFence} : fence.SameFence fence :=
  ⟨Eq.refl _, Eq.refl _, Eq.refl _, Eq.refl _⟩

theorem clearParents_sameFence (hashJoinFence : BitVec 64) (j : Nat) (fence : MsmHwFence) :
    (clearParents hashJoinFence j fence).SameFence fence := by
  induction j generalizing fence with
  | zero => exact .rfl
  | succ j ih =>
    unfold clearParents
    split
    · exact ih _
    · exact ih _

section

variable (kept : Kept property)
include kept

theorem Kept.cleanupChild (hashJoinFence : BitVec 64) (childFence : Option DmaFence)
    (before : property drvData) : property (HwFence.cleanupChild drvData hashJoinFence childFence) := by
  unfold HwFence.cleanupChild
  split
  · exact before
  · split
    · exact before
    · exact kept.changed _ _ _ before (clearParents_sameFence _ _ _)

theorem Kept.cleanupChildren (before : property drvData)
    (cleaned : cleanupChildren array hashJoinFence idx drvData = some after) : property after := by
  induction idx generalizing drvData with
  | zero =>
    obtain ⟨childFence, -, rfl⟩ := Option.map_eq_some_iff.mp cleaned
    exact kept.cleanupChild hashJoinFence childFence before
  | succ idx ih =>
    obtain ⟨childFence, -, rest⟩ := Option.bind_eq_some_iff.mp cleaned
    exact ih (kept.cleanupChild hashJoinFence childFence before) rest

theorem Kept.cleanupJoinAndChildFences (before : property drvData)
    (cleaned : cleanupJoinAndChildFences drvData idx array hashJoinFence = some after) : property after := by
  obtain ⟨children, swept, rfl⟩ := Option.map_eq_some_iff.mp cleaned
  apply kept.destroyed
  split at swept
  · cases swept
    exact before
  · exact kept.cleanupChildren before swept

theorem Kept.attachChild (hashJoinFence : BitVec 64) (child : DmaFence)
    (before : property drvData) : property (HwFence.attachChild drvData hashJoinFence child).2 := by
  unfold HwFence.attachChild
  split
  · exact before
  split
  · exact before
  split
  · exact before
  dsimp only
  split
  · exact kept.changed _ _ _ before ⟨rfl, rfl, rfl, rfl⟩
  · split
    · exact kept.changed _ _ _ before ⟨rfl, rfl, rfl, rfl⟩
    · exact kept.changed _ _ _ before ⟨rfl, rfl, rfl, rfl⟩

theorem Kept.attachChildren (array : DmaFenceArray) (hashJoinFence : BitVec 64) (left idx : Nat)
    (signalJoinFence : Bool) (before : property drvData) :
    match HwFence.attachChildren array hashJoinFence left idx signalJoinFence drvData with
    | .undefined => True
    | .failed _ after => property after
    | .done _ after => property after := by
  induction left generalizing idx signalJoinFence drvData with
  | zero => exact before
  | succ left ih =>
    unfold HwFence.attachChildren
    cases array.fenceAt idx with
    | none => trivial
    | some ptr =>
      cases ptr with
      | none => trivial
      | some child =>
        have attached := kept.attachChild hashJoinFence child before
        dsimp only
        cases out : HwFence.attachChild drvData hashJoinFence child with
        | mk last next =>
          rw [out] at attached
          cases last with
          | none => exact attached
          | some last => exact ih _ _ attached

end

theorem storeClientData_sameFence (fence : MsmHwFence) (client : WaitClient)
    (clientData : BitVec 64) : (fence.storeClientData client clientData).SameFence fence := by
  unfold MsmHwFence.storeClientData
  split
  · split <;> exact .rfl
  · exact .rfl

section

variable (kept : Kept property) (before : property drvData)
include kept before

theorem Kept.finishFenceArray {hash : BitVec 64}
    (finished : HwFence.finishFenceArray drvData client array clientData hash signalJoinFence =
      some answer) : property answer.drvData := by
  have stored := kept.changed drvData hash.toNat _ before (storeClientData_sameFence _ client clientData)
  unfold HwFence.finishFenceArray at finished
  split at finished
  · cases finished
    exact kept.destroyed _ _ _ stored
  · split at finished
    · obtain ⟨cleaned, swept, rfl⟩ := Option.map_eq_some_iff.mp finished
      exact kept.cleanupJoinAndChildFences stored swept
    · cases finished
      exact stored

theorem Kept.processFenceArray (joined : property (hwFenceLookupAndProcess drvData array.context array.seqno
      (.createJoin hwFenceJoinFenceClientId array.numFences)).drvData)
    (processed : hwFenceProcessFenceArray drvData client array clientData = some answer) : property answer.drvData := by
  unfold hwFenceProcessFenceArray at processed
  generalize hwFenceLookupAndProcess drvData array.context array.seqno
    (.createJoin hwFenceJoinFenceClientId array.numFences) = lookup at joined processed
  split at processed
  · cases processed
    exact before
  · dsimp only at processed
    split at processed
    · cases processed
      exact joined
    · have waiting := kept.changed lookup.drvData lookup.hash.toNat
        ((lookup.drvData.hwFencesTbl lookup.hash.toNat).addWaitClient client) joined
        ⟨rfl, rfl, rfl, rfl⟩
      have attached := kept.attachChildren array lookup.hash array.numFences.toNat 0 false waiting
      split at processed
      · cases processed
      · rename_i idx next failed
        rw [failed] at attached
        obtain ⟨cleaned, swept, rfl⟩ := Option.map_eq_some_iff.mp processed
        exact kept.cleanupJoinAndChildFences attached swept
      · rename_i signalJoinFence next done
        rw [done] at attached
        exact kept.finishFenceArray attached processed

theorem Kept.registerWaitClient : property (hwFenceRegisterWaitClient drvData client ctx seqno clientData).drvData := by
  unfold hwFenceRegisterWaitClient
  split
  · exact before
  split
  · exact before
  · rename_i hash _
    apply kept.changed _ _ _ before
    have same := storeClientData_sameFence ((drvData.hwFencesTbl hash.toNat).addWaitClient client) client clientData
    exact same

theorem Kept.destroyWithHash {hash : BitVec 64} : property (hwFenceDestroyWithHash drvData clientId hash).2 := by
  unfold hwFenceDestroyWithHash
  split
  · exact before
  · dsimp only
    split
    · exact before
    · exact kept.destroyed _ _ _ before

end

end Rules

end KernelModules.HwFence

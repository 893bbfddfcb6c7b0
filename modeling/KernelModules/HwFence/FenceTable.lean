import KernelModules.HwFence.Queue

namespace KernelModules.HwFence

/-! # The table of hardware fences

One table shared with the fence controller holds all fences.  A fence has the slot its key hashes to, or the next
free one.  Calls run one after another, so locks, times and the debug counter are left out.
-/

def msmHwFenceMaxJoinParents : Nat := 3

def hwFenceInvalidParentFence : BitVec 64 := BitVec.allOnes 64

def hwFenceJoinFenceClientId : BitVec 32 := BitVec.allOnes 32

def msmHwFenceFlagSignal : BitVec 64 := 1

structure MsmHwFence where
  valid : Bool
  error : BitVec 32
  ctxId : BitVec 64
  seqId : BitVec 64
  waitClientMask : BitVec 64
  fenceAllocator : BitVec 32
  fenceSignalClient : BitVec 32
  flags : BitVec 64
  parentList : Vector (BitVec 64) msmHwFenceMaxJoinParents
  parentsCnt : BitVec 32
  pendingChildCnt : BitVec 32
  clientData : Vector (BitVec 64) 5

def MsmHwFence.zero : MsmHwFence where
  valid := false
  error := 0
  ctxId := 0
  seqId := 0
  waitClientMask := 0
  fenceAllocator := 0
  fenceSignalClient := 0
  flags := 0
  parentList := .replicate _ 0
  parentsCnt := 0
  pendingChildCnt := 0
  clientData := .replicate _ 0

def MsmHwFence.signaled (fence : MsmHwFence) : Bool := fence.flags &&& msmHwFenceFlagSignal != 0

/-- What the table functions use of `struct hw_fence_driver_data`. -/
structure HwFenceDriverData where
  hwFenceTableEntries : BitVec 32
  hwFencesTbl : Nat → MsmHwFence

def HwFenceDriverData.entries (drvData : HwFenceDriverData) : Nat :=
  drvData.hwFenceTableEntries.toNat

def HwFenceDriverData.put (drvData : HwFenceDriverData) (slot : Nat) (fence : MsmHwFence) : HwFenceDriverData :=
  { drvData with
    hwFencesTbl := fun index => if index = slot then fence else drvData.hwFencesTbl index }

/-- `_calculate_hash`: nothing where it fails. -/
def calculateHash (tableTotalEntries : BitVec 32) (context seqno : BitVec 64) (step : Nat)
    (hash : BitVec 64) : Option (BitVec 64) :=
  let mSize := tableTotalEntries.setWidth 64
  if step = 0 then let aMultiplier : BitVec 64 := 4969
    let cMultiplier : BitVec 64 := 907
    let bMultiplier := context + (context - 1)
    some ((aMultiplier * seqno * bMultiplier + cMultiplier * context) % mSize)
  else if step ≥ mSize.toNat then none
  else some ((hash + 1) % mSize)

/-- `_get_hw_fence`: the slot of a hash. -/
def getHwFence (drvData : HwFenceDriverData) (hash : BitVec 64) : Option Nat :=
  if hash.toNat ≥ drvData.entries then none else some hash.toNat

def isHwFenceFree (fence : MsmHwFence) : Bool := !fence.valid

/-- `_hw_fence_match`: the valid field plays no part. -/
def hwFenceMatch (fence : MsmHwFence) (context seqno : BitVec 64) : Bool :=
  fence.ctxId == context && fence.seqId == seqno

/-- `_cleanup_hw_fence`: clears everything but the valid field. -/
def cleanupHwFence (fence : MsmHwFence) : MsmHwFence :=
  { MsmHwFence.zero with
    valid := fence.valid
    parentList := .replicate _ hwFenceInvalidParentFence }

def reserveHwFence (fence : MsmHwFence) (clientId : BitVec 32) (context seqno : BitVec 64) : MsmHwFence :=
  { cleanupHwFence fence with
    valid := true
    ctxId := context
    seqId := seqno
    flags := 0
    fenceAllocator := clientId }

def unreserveHwFence (fence : MsmHwFence) : MsmHwFence :=
  { cleanupHwFence fence with valid := false }

def reserveJoinFence (fence : MsmHwFence) (clientId : BitVec 32) (context seqno : BitVec 64)
    (pendingChildCnt : BitVec 32) : MsmHwFence :=
  { cleanupHwFence fence with
    valid := true
    ctxId := context
    seqId := seqno
    fenceAllocator := clientId
    pendingChildCnt := pendingChildCnt }

/-- `enum hw_fence_lookup_ops`, with what its operations are given. -/
inductive LookupOp where
  | create (clientId : BitVec 32)
  | destroy
  | createJoin (clientId pendingChildCnt : BitVec 32)
  | findFence

def LookupOp.creates : LookupOp → Bool
  | .create _ => true
  | .createJoin _ _ => true
  | _ => false

/-- `compare_fnc` of an operation. -/
def LookupOp.compareFnc (opCode : LookupOp) (fence : MsmHwFence) (context seqno : BitVec 64) : Bool :=
  if opCode.creates then isHwFenceFree fence else hwFenceMatch fence context seqno

/-- `process_fnc` of an operation. -/
def LookupOp.processFnc (opCode : LookupOp) (fence : MsmHwFence) (context seqno : BitVec 64) : MsmHwFence :=
  match opCode with
  | .create clientId => reserveHwFence fence clientId context seqno
  | .destroy => unreserveHwFence fence
  | .createJoin clientId pendingChildCnt =>
    reserveJoinFence fence clientId context seqno pendingChildCnt
  | .findFence => fence

structure Lookup where
  found : Bool
  hash : BitVec 64
  drvData : HwFenceDriverData

/-- The loop of `_hw_fence_lookup_and_process`, with `left` steps to go. -/
def hwFenceLookupLoop (drvData : HwFenceDriverData) (context seqno : BitVec 64)
    (opCode : LookupOp) : Nat → Nat → BitVec 64 → Lookup
  | 0, _, hash => ⟨false, hash, drvData⟩
  | left + 1, step, hash =>
    match calculateHash drvData.hwFenceTableEntries context seqno step hash with
    | none => ⟨false, hash, drvData⟩
    | some hash =>
      match getHwFence drvData hash with
      | none => ⟨false, hash, drvData⟩
      | some slot =>
        let fence := drvData.hwFencesTbl slot
        if opCode.compareFnc fence context seqno then
          ⟨true, hash, drvData.put slot (opCode.processFnc fence context seqno)⟩
        -- a context and sequence number are created once
        else if opCode.creates && seqno == fence.seqId && context == fence.ctxId then ⟨false, hash, drvData⟩
        else hwFenceLookupLoop drvData context seqno opCode left (step + 1) hash

def hwFenceLookupAndProcess (drvData : HwFenceDriverData) (context seqno : BitVec 64)
    (opCode : LookupOp) : Lookup :=
  hwFenceLookupLoop drvData context seqno opCode drvData.entries 0 (BitVec.allOnes 64)

structure FenceAnswer where
  ret : Int
  hash : BitVec 64
  drvData : HwFenceDriverData

def hwFenceCreate (drvData : HwFenceDriverData) (clientId : BitVec 32) (context seqno : BitVec 64) : FenceAnswer :=
  let lookup := hwFenceLookupAndProcess drvData context seqno (.create clientId)
  ⟨if lookup.found then 0 else eInval, lookup.hash, lookup.drvData⟩

def hwFenceCleanup (drvData : HwFenceDriverData) (context seqno : BitVec 64) : Int × HwFenceDriverData :=
  let lookup := hwFenceLookupAndProcess drvData context seqno .destroy
  (if lookup.found then 0 else eInval, lookup.drvData)

def hwFenceDestroy (drvData : HwFenceDriverData) (context seqno : BitVec 64) : Int × HwFenceDriverData :=
  let outcome := hwFenceCleanup drvData context seqno
  (if outcome.1 ≠ 0 then eInval else 0, outcome.2)

def hwFenceDestroyWithHash (drvData : HwFenceDriverData) (clientId : BitVec 32)
    (hash : BitVec 64) : Int × HwFenceDriverData :=
  match getHwFence drvData hash with
  | none => (eInval, drvData)
  | some slot =>
    let fence := drvData.hwFencesTbl slot
    if fence.fenceAllocator ≠ clientId then (eInval, drvData)
    else let outcome := hwFenceCleanup drvData fence.ctxId fence.seqId
      (if outcome.1 ≠ 0 then eInval else 0, outcome.2)

/-- `msm_hw_fence_find`: the hash of the fence, where it finds one. -/
def msmHwFenceFind (drvData : HwFenceDriverData) (context seqno : BitVec 64) : Option (BitVec 64) :=
  let lookup := hwFenceLookupAndProcess drvData context seqno .findFence
  if lookup.found then some lookup.hash else none

/-! # Fence arrays

A fence array gets a join fence in the table, whose hash is entered in the parent list of every child that is not
signaled.
-/

/-- What the table functions use of a client.  `dataId` is its `hw_fence_get_client_data_id`,
where it has one. -/
structure WaitClient where
  clientId : BitVec 32
  dataId : Option (Fin 5)

/-- What the table functions use of `struct dma_fence`: `isArray` is `to_dma_fence_array`, and
`enabled` the bit `MSM_HW_FENCE_FLAG_ENABLED_BIT`. -/
structure DmaFence where
  context : BitVec 64
  seqno : BitVec 64
  isArray : Bool
  enabled : Bool

/-- `struct dma_fence_array`.  The fences are null or memory for some pointers, the first `numFences` of which
count. -/
structure DmaFenceArray where
  context : BitVec 64
  seqno : BitVec 64
  numFences : BitVec 32
  fences : Option (List (Option DmaFence))

/-- Read `array->fences[idx]`; nothing where that leaves the memory. -/
def DmaFenceArray.fenceAt (array : DmaFenceArray) (idx : Nat) : Option (Option DmaFence) :=
  array.fences.bind (·[idx]?)

structure WaitAnswer where
  ret : Int
  hash : BitVec 64
  signaled : Bool
  drvData : HwFenceDriverData

/-- `BIT(client_id)` of a mask. -/
def clientBit (clientId : BitVec 32) : BitVec 64 := 1 <<< clientId.toNat

def MsmHwFence.addWaitClient (fence : MsmHwFence) (client : WaitClient) : MsmHwFence :=
  { fence with waitClientMask := fence.waitClientMask ||| clientBit client.clientId }

def MsmHwFence.storeClientData (fence : MsmHwFence) (client : WaitClient)
    (clientData : BitVec 64) : MsmHwFence :=
  match client.dataId with
  | some dataId =>
    if clientData ≠ 0 then { fence with clientData := fence.clientData.set dataId clientData }
    else fence
  | none => fence

def hwFenceRegisterWaitClient (drvData : HwFenceDriverData) (client : WaitClient)
    (context seqno clientData : BitVec 64) : WaitAnswer :=
  if clientData ≠ 0 ∧ client.dataId = none then ⟨eInval, 0, false, drvData⟩
  else match msmHwFenceFind drvData context seqno with
    | none => ⟨eInval, 0, false, drvData⟩
    | some hash =>
      let fence := drvData.hwFencesTbl hash.toNat
      ⟨0, hash, fence.signaled, drvData.put hash.toNat
        ((fence.addWaitClient client).storeClientData client clientData)⟩

/-- The loop over one child's parents in `_cleanup_join_and_child_fences`. -/
def clearParents (hashJoinFence : BitVec 64) : Nat → MsmHwFence → MsmHwFence
  | 0, fence => fence
  | j + 1, fence =>
    clearParents hashJoinFence j <|
      if fence.parentList.toList[j]? = some hashJoinFence then { fence with
          parentList := fence.parentList.setIfInBounds j hwFenceInvalidParentFence
          parentsCnt := if fence.parentsCnt ≠ 0 then fence.parentsCnt - 1 else 0 }
      else fence

/-- The number of parents the loop starts from: `int j`, reset to the maximum. -/
def MsmHwFence.firstParent (fence : MsmHwFence) : Nat :=
  min fence.parentsCnt.toInt.toNat msmHwFenceMaxJoinParents

/-- One round of the loop over the fences in `_cleanup_join_and_child_fences`. -/
def cleanupChild (drvData : HwFenceDriverData) (hashJoinFence : BitVec 64) : Option DmaFence → HwFenceDriverData
  | none => drvData
  | some child =>
    match msmHwFenceFind drvData child.context child.seqno with
    | none => drvData
    | some hash =>
      let fence := drvData.hwFencesTbl hash.toNat
      drvData.put hash.toNat (clearParents hashJoinFence fence.firstParent fence)

/-- The loop in `_cleanup_join_and_child_fences`, from `idx` down; nothing where it reads outside the fences. -/
def cleanupChildren (array : DmaFenceArray) (hashJoinFence : BitVec 64) :
    Nat → HwFenceDriverData → Option HwFenceDriverData
  | 0, drvData => (array.fenceAt 0).map (cleanupChild drvData hashJoinFence)
  | idx + 1, drvData => do
      let childFence ← array.fenceAt (idx + 1)
      cleanupChildren array hashJoinFence idx (cleanupChild drvData hashJoinFence childFence)

def cleanupJoinAndChildFences (drvData : HwFenceDriverData) (iteration : Nat)
    (array : DmaFenceArray) (hashJoinFence : BitVec 64) : Option HwFenceDriverData :=
  let swept :=
    if array.fences.isNone then some drvData
    else cleanupChildren array hashJoinFence iteration drvData
  swept.map fun cleaned => (hwFenceCleanup cleaned array.context array.seqno).2

/-- One round of the loop of `hw_fence_process_fence_array`: nothing on an error, or whether no child is left to
wait for. -/
def attachChild (drvData : HwFenceDriverData) (hashJoinFence : BitVec 64) (child : DmaFence) :
    Option Bool × HwFenceDriverData :=
  if child.isArray then (none, drvData)
  else if !child.enabled then (none, drvData)
  else match msmHwFenceFind drvData child.context child.seqno with
    | none => (none, drvData)
    | some hash =>
      let fence := drvData.hwFencesTbl hash.toNat
      if fence.signaled then let joinFence := drvData.hwFencesTbl hashJoinFence.toNat
        let counted := { joinFence with
          error := joinFence.error ||| fence.error
          pendingChildCnt := joinFence.pendingChildCnt - 1 }
        (some (counted.pendingChildCnt = 0), drvData.put hashJoinFence.toNat counted)
      else let parentsCnt := fence.parentsCnt + 1
        if parentsCnt.toNat ≥ msmHwFenceMaxJoinParents ∨ parentsCnt < 1 then
          (none, drvData.put hash.toNat { fence with parentsCnt := parentsCnt - 1 })
        else (some false, drvData.put hash.toNat { fence with
            parentsCnt := parentsCnt
            parentList :=
              fence.parentList.setIfInBounds (parentsCnt - 1).toNat hashJoinFence })

inductive Attached where
  | undefined
  | failed (idx : Nat) (drvData : HwFenceDriverData)
  | done (signalJoinFence : Bool) (drvData : HwFenceDriverData)

/-- The loop of `hw_fence_process_fence_array` from index `idx` on, with `left` fences to go. -/
def attachChildren (array : DmaFenceArray) (hashJoinFence : BitVec 64) :
    Nat → Nat → Bool → HwFenceDriverData → Attached
  | 0, _, signalJoinFence, drvData => .done signalJoinFence drvData
  | left + 1, idx, signalJoinFence, drvData =>
    match array.fenceAt idx with
    | some (some child) =>
      match attachChild drvData hashJoinFence child with
      | (none, drvData) => .failed idx drvData
      | (some last, drvData) =>
        attachChildren array hashJoinFence left (idx + 1) (signalJoinFence || last) drvData
    -- the pointer is read outside its memory, or a null pointer is followed
    | _ => .undefined

/-- The end of `hw_fence_process_fence_array`, once all fences of the array are attached. -/
def finishFenceArray (drvData : HwFenceDriverData) (client : WaitClient) (array : DmaFenceArray)
    (clientData hash : BitVec 64) (signalJoinFence : Bool) : Option WaitAnswer :=
  let stored := drvData.put hash.toNat
    ((drvData.hwFencesTbl hash.toNat).storeClientData client clientData)
  if signalJoinFence then some ⟨0, hash, true, (hwFenceCleanup stored array.context array.seqno).2⟩
  else if array.numFences = 0 then (cleanupJoinAndChildFences stored 0 array hash).map fun cleaned =>
      ⟨eInval, hash, false, cleaned⟩
  else some ⟨0, hash, false, stored⟩

/-- `hw_fence_process_fence_array`: nothing where the call leaves the memory of its array. -/
def hwFenceProcessFenceArray (drvData : HwFenceDriverData) (client : WaitClient)
    (array : DmaFenceArray) (clientData : BitVec 64) : Option WaitAnswer :=
  if clientData ≠ 0 ∧ client.dataId = none then some ⟨eInval, 0, false, drvData⟩
  else
    let lookup := hwFenceLookupAndProcess drvData array.context array.seqno
      (.createJoin hwFenceJoinFenceClientId array.numFences)
    if !lookup.found then some ⟨eInval, lookup.hash, false, lookup.drvData⟩
    else let joinFence := lookup.drvData.hwFencesTbl lookup.hash.toNat
      let waiting := lookup.drvData.put lookup.hash.toNat (joinFence.addWaitClient client)
      match attachChildren array lookup.hash array.numFences.toNat 0 false waiting with
      | .undefined => none
      | .failed idx attached =>
        (cleanupJoinAndChildFences attached idx array lookup.hash).map fun cleaned =>
          ⟨eInval, lookup.hash, false, cleaned⟩
      | .done signalJoinFence attached =>
        finishFenceArray attached client array clientData lookup.hash signalJoinFence

end KernelModules.HwFence

import KernelModules.Mmrm.Table
import KernelModules.Data.Run
import KernelModules.Data.Indexed

namespace KernelModules.Mmrm

open Data

/-! # Calls of the clients

Registering a client, setting its rate and deregistering it; under the manager's lock a call is one step.
-/

/-- `struct mmrm_clk_client_desc` and the other arguments, with the power data of the clock and whether there is
memory. -/
structure RegisterCall where
  clkSrcId : BitVec 32
  clk : Option Clock
  hwDrvInstances : Nat
  numPwrStates : Nat
  priHigh : Bool
  notifier : Bool
  currentMa : (Nat → BitVec 64) → Nat → Nat → BitVec 32
  clientAllocated : Bool
  votesAllocated : Bool
  allowMultipleRegister : Bool

/-- `MAX_HW_DRV_INSTANCES` and `MAX_POWER_STATES`. -/
def maxHwDrvInstances : Nat := 6
def maxPowerStates : Nat := 5

def ClientTblEntry.unclaimed (entry : ClientTblEntry) : ClientTblEntry :=
  { entry with client := false, clk := none, priHigh := false, notifier := false }

def RegisterCall.claim (call : RegisterCall) (entry : ClientTblEntry) : ClientTblEntry :=
  { entry with
    client := true, clk := call.clk, priHigh := call.priHigh, notifier := call.notifier
    refCount := 1 }

def RegisterCall.claimCrm (call : RegisterCall) (entry : ClientTblEntry) : ClientTblEntry :=
  if 0 < call.hwDrvInstances ∧ 0 < call.numPwrStates then { entry with
      isCrmClient := true
      maxRateIdx := 0
      hwDrvInstances := call.hwDrvInstances
      numPwrStates := call.numPwrStates
      crmClientTbl := List.replicate (call.hwDrvInstances * call.numPwrStates + 1) 0 }
  else entry

/-- `mmrm_sw_update_freq` and `mmrm_sw_update_curr`. -/
def RegisterCall.scale (call : RegisterCall) (vddCorner : Nat → Int) (entry : ClientTblEntry) : ClientTblEntry :=
  let freq := match entry.clk with
    | none => fun _ => 0
    | some clk => updateFreq vddCorner clk
  { entry with freq := freq, currentMa := call.currentMa freq }

def ClkMgrInfo.findSrcId (sinfo : ClkMgrInfo) (clkSrcId : BitVec 32) : Nat :=
  ((List.range sinfo.totClkClients).find? fun id =>
    decide (clkSrcId = (sinfo.clkClientTbl id).clkSrcId)).getD sinfo.totClkClients

/-- `mmrm_sw_clk_client_register`, with the client that it returns. -/
def clkClientRegister (sinfo : ClkMgrInfo) (call : RegisterCall) : ClkMgrInfo × Option Nat :=
  let id := sinfo.findSrcId call.clkSrcId
  let entry := sinfo.clkClientTbl id
  -- the number of enabled clients stays zero
  if sinfo.totClkClients = 0 then (sinfo, none)
  else if id = sinfo.totClkClients then (sinfo, none)
  else if entry.client then if call.allowMultipleRegister then
      (sinfo.put id { entry with refCount := entry.refCount + 1 }, some id)
    else (sinfo, none)
  else if !call.clientAllocated then (sinfo.put id entry.unclaimed, none)
  else if maxHwDrvInstances < call.hwDrvInstances ∨ maxPowerStates < call.numPwrStates then
    (sinfo.put id (call.claim entry).unclaimed, none)
  else if 0 < call.hwDrvInstances ∧ 0 < call.numPwrStates ∧ !call.votesAllocated then
    (sinfo.put id { (call.claim entry).unclaimed with crmClientTbl := [] }, none)
  else (sinfo.put id (call.scale sinfo.vddCorner (call.claimCrm (call.claim entry))), some id)

def ClientTblEntry.released (entry : ClientTblEntry) : ClientTblEntry :=
  { entry.unclaimed with
    vddLevel := 0
    clkRate := 0
    isCrmClient := false
    maxRateIdx := 0
    hwDrvInstances := 0
    numPwrStates := 0
    crmClientTbl := [] }

/-- `mmrm_sw_clk_client_deregister`. -/
def clkClientDeregister (sinfo : ClkMgrInfo) (id : Nat) : ClkMgrInfo × Int :=
  if sinfo.totClkClients ≤ id then (sinfo, eInval)
  else let entry := sinfo.clkClientTbl id
    let counted := { entry with refCount := entry.refCount - 1 }
    (sinfo.put id (if counted.refCount = 0 then counted.released else counted), 0)

/-- The arguments of `mmrm_sw_clk_client_setval`, and what the system answers. -/
structure SetvalCall where
  id : Nat
  data : ClientData
  clkVal : BitVec 64
  enableThrottle : Bool
  answers : Nat → ThrottleAnswer
  rateSet : Int

def SetvalCall.maxRate (call : SetvalCall) (entry : ClientTblEntry) : BitVec 64 × Nat :=
  if entry.isCrmClient then let max := getMaxCrmRate entry call.data call.clkVal
    (max.1.setWidth 64, max.2)
  else (call.clkVal, 0)

inductive Prepared where
  | rejected
  | sameRate
  | request (reqLevel : Nat)

/-- The start of `mmrm_sw_clk_client_setval`. -/
def SetvalCall.prepare (call : SetvalCall) (sinfo : ClkMgrInfo) : Prepared :=
  let entry := sinfo.clkClientTbl call.id
  if sinfo.totClkClients ≤ call.id then .rejected
  else match entry.clk with
    | none => .rejected
    | some clk =>
      if entry.isCrmClient ∧
          (entry.hwDrvInstances ≤ call.data.crmDrvIdx ∨ entry.numPwrStates ≤ call.data.pwrSt) then
        .rejected
      else if entry.clkRate = call.clkVal ∧ entry.numHwBlocks = call.data.numHwBlocks ∧ !entry.isCrmClient then
        .sameRate
      else if call.clkVal = 0 then .request 0
      else match getReqLevel sinfo.vddCorner clk (call.maxRate entry).1 with
        | .error _ => .rejected
        | .ok reqLevel =>
          if vddLevelMax ≤ reqLevel then .rejected
          else if 1 ≤ call.data.numHwBlocks.toNat ∧ call.data.numHwBlocks.toNat ≤ entry.maxNumHwBlocks.toNat then
            .request reqLevel
          else .rejected

def SetvalCall.peakRequest (call : SetvalCall) (sinfo : ClkMgrInfo) (reqLevel : Nat) : PeakRequest where
  id := call.id
  reqLevel := reqLevel
  clkVal := (call.maxRate (sinfo.clkClientTbl call.id)).1.setWidth 32
  numHwBlocks := call.data.numHwBlocks

def SetvalCall.record (call : SetvalCall) (maxRate : BitVec 64 × Nat) (reqLevel : Nat)
    (entry : ClientTblEntry) : ClientTblEntry :=
  { entry with
    clkRate := maxRate.1
    maxRateIdx := if entry.isCrmClient then maxRate.2 else entry.maxRateIdx
    crmClientTbl :=
      if entry.isCrmClient then entry.crmClientTbl.set (crmVoteIdx entry call.data) call.clkVal
      else entry.crmClientTbl
    vddLevel := reqLevel
    reserve := call.data.reserveOnly
    numHwBlocks := call.data.numHwBlocks }

def SetvalCall.setRateRc (call : SetvalCall) : Int := if call.rateSet ≠ 0 then eInval else 0

/-- `mmrm_sw_clk_client_setval`. -/
def clkClientSetval (sinfo : ClkMgrInfo) (call : SetvalCall) : ClkMgrInfo × Int :=
  let entry := sinfo.clkClientTbl call.id
  match call.prepare sinfo with
  | .rejected => (sinfo, eInval)
  | .sameRate =>
    if entry.reserve = call.data.reserveOnly then (sinfo, 0)
    else (sinfo.put call.id { entry with reserve := call.data.reserveOnly },
        if call.data.reserveOnly then 0 else call.setRateRc)
  | .request reqLevel =>
    let maxRate := call.maxRate entry
    let (checked, rc) := checkPeakCurrent call.enableThrottle call.answers sinfo
      (call.peakRequest sinfo reqLevel)
    if rc ≠ 0 then (checked, rc)
    else (checked.put call.id (call.record maxRate reqLevel (checked.clkClientTbl call.id)),
        if call.data.reserveOnly ∧ !entry.isCrmClient then 0 else call.setRateRc)

/-- `mmrm_init_sw_clk_mgr`: the clients to throttle are looked up, and one that is not there gets the first entry. -/
def initSwClkMgr (vddCorner : Nat → Int) (threshold : BitVec 32)
    (nomClkSet : List (BitVec 32 × BitVec 32)) (clsidThresholdClients : List (BitVec 32)) : ClkMgrInfo where
  vddCorner := vddCorner
  clkClientTbl := fun id => {
    client := false
    clk := none
    priHigh := false
    notifier := false
    clkSrcId := ((nomClkSet[id]?).getD (0, 0)).1
    maxNumHwBlocks := ((nomClkSet[id]?).getD (0, 0)).2
    freq := fun _ => 0
    currentMa := fun _ _ => 0
    clkRate := 0
    vddLevel := 0
    reserve := false
    refCount := 0
    numHwBlocks := 0
    isCrmClient := false
    hwDrvInstances := 0
    numPwrStates := 0
    maxRateIdx := 0
    crmClientTbl := [] }
  totClkClients := nomClkSet.length
  throttleTblEntryIds := clsidThresholdClients.map fun clkSrcId =>
    ((List.range nomClkSet.length).find? fun id =>
      decide (((nomClkSet[id]?).getD (0, 0)).1 = clkSrcId)).getD 0
  threshold := threshold
  aggregVal := 0
  aggregLevel := 0
  throttledClients := []

inductive MmrmCall where
  | register (call : RegisterCall)
  | setval (call : SetvalCall)
  | deregister (id : Nat)

def MmrmCall.perform (sinfo : ClkMgrInfo) : MmrmCall → ClkMgrInfo
  | .register call => (clkClientRegister sinfo call).1
  | .setval call => (clkClientSetval sinfo call).1
  | .deregister id => (clkClientDeregister sinfo id).1

@[simp] theorem MmrmCall.perform_register (sinfo : ClkMgrInfo) (call : RegisterCall) :
    (MmrmCall.register call).perform sinfo = (clkClientRegister sinfo call).1 := rfl

@[simp] theorem MmrmCall.perform_setval (sinfo : ClkMgrInfo) (call : SetvalCall) :
    (MmrmCall.setval call).perform sinfo = (clkClientSetval sinfo call).1 := rfl

@[simp] theorem MmrmCall.perform_deregister (sinfo : ClkMgrInfo) (id : Nat) :
    (MmrmCall.deregister id).perform sinfo = (clkClientDeregister sinfo id).1 := rfl

def Throughout (property : ClkMgrInfo → MmrmCall → Prop) : ClkMgrInfo → List MmrmCall → Prop
  | _, [] => True
  | sinfo, call :: rest =>
    property sinfo call ∧ Throughout property (call.perform sinfo) rest

/-! # What the aggregate stands for

The level that the clients need together, their current there, and the calls that keep the peak data exact.
-/

def ClientTblEntry.needed (entry : ClientTblEntry) : Nat :=
  if entry.isActive then entry.vddLevel else 0

def ClientTblEntry.load (entry : ClientTblEntry) (level : Nat) : Nat :=
  if entry.isActive then (entry.currentMa entry.vddLevel level).toNat * entry.numHwBlocks.toNat
  else 0

def ClkMgrInfo.highestLevel (sinfo : ClkMgrInfo) : Nat :=
  (Finset.range sinfo.totClkClients).sup fun id => (sinfo.clkClientTbl id).needed

def ClkMgrInfo.totalCurrent (sinfo : ClkMgrInfo) (level : Nat) : Nat :=
  ∑ id ∈ Finset.range sinfo.totClkClients, (sinfo.clkClientTbl id).load level

structure ClkMgrInfo.Exact (sinfo : ClkMgrInfo) : Prop where
  level : sinfo.aggregLevel = sinfo.highestLevel
  val : sinfo.aggregVal.toNat = sinfo.totalCurrent sinfo.highestLevel
  required : ∀ id < sinfo.totClkClients, (sinfo.clkClientTbl id).isActive = true →
    ∃ clk, (sinfo.clkClientTbl id).clk = some clk ∧
      getReqLevel sinfo.vddCorner clk (sinfo.clkClientTbl id).clkRate = .ok (sinfo.clkClientTbl id).vddLevel

def ClkMgrInfo.othersLevel (sinfo : ClkMgrInfo) (id : Nat) : Nat :=
  (Finset.range sinfo.totClkClients).sup fun other =>
    giveOthers id (fun _ entry => entry.needed) other (sinfo.clkClientTbl other)

def ClkMgrInfo.othersCurrent (sinfo : ClkMgrInfo) (id level : Nat) : Nat :=
  ∑ other ∈ Finset.range sinfo.totClkClients,
    giveOthers id (fun _ entry => entry.load level) other (sinfo.clkClientTbl other)

def ClkMgrInfo.Above (sinfo : ClkMgrInfo) (id reqLevel other : Nat) : Prop :=
  other < sinfo.totClkClients ∧ other ≠ id ∧ (sinfo.clkClientTbl other).isActive = true ∧
    reqLevel < (sinfo.clkClientTbl other).vddLevel

def ClkMgrInfo.LastHighest (sinfo : ClkMgrInfo) (id reqLevel : Nat) : Prop :=
  ∀ last, sinfo.Above id reqLevel last → (∀ later, last < later → ¬ sinfo.Above id reqLevel later) →
      (sinfo.clkClientTbl last).vddLevel = sinfo.othersLevel id

/-- The client that `throttleLoop` throttles. -/
def throttleChoice (sinfo : ClkMgrInfo) (answers : Nat → ThrottleAnswer) (deltaCur : BitVec 32) :
    Nat → List Nat → Int → Option Nat
  | _, [], _ => none
  | i, id :: ids, rc =>
    if worthThrottling sinfo id deltaCur then let notified := notifierRc (sinfo.clkClientTbl id) (answers i) rc
      let rateSet := throttleRateRc (sinfo.clkClientTbl id) (answers i) notified
      if notified ≠ 0 then throttleChoice sinfo answers deltaCur (i + 1) ids notified
      else if rateSet ≠ 0 then throttleChoice sinfo answers deltaCur (i + 1) ids rateSet
      else if (answers i).allocated then some id else none
    else throttleChoice sinfo answers deltaCur (i + 1) ids rc

section Requests

variable (sinfo : ClkMgrInfo) (call : SetvalCall) (reqLevel : Nat)

def SetvalCall.newRate : BitVec 64 := (call.maxRate (sinfo.clkClientTbl call.id)).1

def SetvalCall.neededLevel : Nat := max reqLevel (sinfo.othersLevel call.id)

def SetvalCall.newLoad (level : Nat) : Nat :=
  if call.newRate sinfo ≠ 0 then
    ((sinfo.clkClientTbl call.id).currentMa reqLevel level).toNat * call.data.numHwBlocks.toNat
  else 0

def SetvalCall.neededCurrent : Nat :=
  sinfo.othersCurrent call.id (call.neededLevel sinfo reqLevel) +
    call.newLoad sinfo reqLevel (call.neededLevel sinfo reqLevel)

/-- The request does not fit below the threshold, and its client may have others throttled. -/
def SetvalCall.MayThrottle : Prop :=
  sinfo.threshold.toNat ≤ call.neededCurrent sinfo reqLevel ∧ 0 < call.neededCurrent sinfo reqLevel ∧
    (sinfo.clkClientTbl call.id).priHigh = true ∧ call.enableThrottle = true

/-- The delta that the throttling is compared with: zero where the level of the rail changes. -/
def SetvalCall.delta : BitVec 32 :=
  if call.neededLevel sinfo reqLevel ≠ sinfo.aggregLevel then 0
  else (call.peakRequest sinfo reqLevel).newCur sinfo sinfo.aggregLevel -
    (call.peakRequest sinfo reqLevel).oldCur sinfo

def SetvalCall.throttles : Option Nat :=
  throttleChoice sinfo call.answers (call.delta sinfo reqLevel) 0 sinfo.throttleTblEntryIds 0

/-- It is another client, its lowest rate is one of the lowest level, its blocks at the new level save what one
saves at the old one, and that level is needed without it. -/
structure ThrottlesExactly (id : Nat) : Prop where
  other : id ≠ call.id
  lowest : (sinfo.clkClientTbl id).freq vddLevelLowSvs ≠ 0
  required : ∀ clk, (sinfo.clkClientTbl id).clk = some clk →
    getReqLevel sinfo.vddCorner clk ((sinfo.clkClientTbl id).freq vddLevelLowSvs) = .ok vddLevelLowSvs
  saved : (sinfo.clkClientTbl id).load (call.neededLevel sinfo reqLevel) =
    (sinfo.clkClientTbl id).throttled.load (call.neededLevel sinfo reqLevel) +
      (nowCurMa sinfo id - minCurMa sinfo id).toNat
  level : call.neededLevel (sinfo.put id (sinfo.clkClientTbl id).throttled) reqLevel =
    call.neededLevel sinfo reqLevel

/-- The low half of a rate is not zero, a vote of zero leaves no rate of a higher level, the scan finds the highest
level, the current is below 2^31 mA, and throttling counts exactly. -/
structure SetvalCall.Steady : Prop where
  whole : call.clkVal ≠ 0 → (call.clkVal.setWidth 32 : BitVec 32) ≠ 0
  zeroVote : call.clkVal = 0 → call.newRate sinfo ≠ 0 → ∀ clk, (sinfo.clkClientTbl call.id).clk = some clk →
      getReqLevel sinfo.vddCorner clk (call.newRate sinfo) = .ok 0
  scan : reqLevel < sinfo.aggregLevel → sinfo.othersLevel call.id < sinfo.aggregLevel →
    sinfo.LastHighest call.id reqLevel
  current : call.neededCurrent sinfo reqLevel < 2147483648
  throttle : call.MayThrottle sinfo reqLevel → ∀ id, call.throttles sinfo reqLevel = some id →
    ThrottlesExactly sinfo call reqLevel id

end Requests

/-- Deregistering the last reference follows where the client needs no current and no level that the others do not
need. -/
def MmrmCall.Steady (sinfo : ClkMgrInfo) : MmrmCall → Prop
  | .register _ => True
  | .setval call => ∀ reqLevel, call.prepare sinfo = .request reqLevel → call.Steady sinfo reqLevel
  | .deregister id =>
    id < sinfo.totClkClients → (sinfo.clkClientTbl id).refCount ≤ 1 →
      (sinfo.clkClientTbl id).load sinfo.aggregLevel = 0 ∧ sinfo.othersLevel id = sinfo.aggregLevel

end KernelModules.Mmrm

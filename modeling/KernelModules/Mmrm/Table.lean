import Mathlib.Data.BitVec
import Mathlib.Data.List.Range

namespace KernelModules.Mmrm

/-! # Clock clients

The table of the clock clients and what is looked up in it.
-/

/-- The number of `enum mmrm_sw_vdd_levels`. -/
def vddLevelMax : Nat := 5

/-- `MMRM_VDD_LEVEL_LOW_SVS`. -/
def vddLevelLowSvs : Nat := 0

/-- `MMRM_VDD_LEVEL_TURBO`. -/
def vddLevelTurbo : Nat := 4

def eInval : Int := -22
def eNomem : Int := -12

/-- What the clock framework tells of a clock: `clk_round_rate` and `qcom_clk_get_voltage`. -/
structure Clock where
  roundRate : BitVec 64 → BitVec 64
  getVoltage : BitVec 64 → Int

/-- `struct mmrm_sw_clk_client_tbl_entry`.  An entry is registered when it has a client. -/
structure ClientTblEntry where
  client : Bool
  clk : Option Clock
  priHigh : Bool
  notifier : Bool
  clkSrcId : BitVec 32
  maxNumHwBlocks : BitVec 32
  freq : Nat → BitVec 64
  currentMa : Nat → Nat → BitVec 32
  clkRate : BitVec 64
  vddLevel : Nat
  reserve : Bool
  refCount : Nat
  numHwBlocks : BitVec 32
  isCrmClient : Bool
  hwDrvInstances : Nat
  numPwrStates : Nat
  maxRateIdx : Nat
  crmClientTbl : List (BitVec 64)

/-- `struct mmrm_sw_throttled_clients_data`. -/
structure ThrottledClient where
  tableId : Nat
  deltaCuMa : BitVec 32
  prevVddLevel : Nat

/-- `struct mmrm_sw_clk_mgr_info`, with the voltage corners of the levels. -/
structure ClkMgrInfo where
  vddCorner : Nat → Int
  clkClientTbl : Nat → ClientTblEntry
  totClkClients : Nat
  throttleTblEntryIds : List Nat
  threshold : BitVec 32
  aggregVal : BitVec 32
  aggregLevel : Nat
  throttledClients : List ThrottledClient

def ClkMgrInfo.entries (sinfo : ClkMgrInfo) : List ClientTblEntry :=
  (List.range sinfo.totClkClients).map sinfo.clkClientTbl

def ClkMgrInfo.put (sinfo : ClkMgrInfo) (id : Nat) (entry : ClientTblEntry) : ClkMgrInfo :=
  { sinfo with clkClientTbl := Function.update sinfo.clkClientTbl id entry }

def ClientTblEntry.isActive (entry : ClientTblEntry) : Bool :=
  entry.clk.isSome && decide (entry.clkRate ≠ 0)

def clkRateStep : Int := 1000000

/-- The level whose corner is `voltageCorner`, or `vddLevelMax`. -/
def matchVddLevel (vddCorner : Nat → Int) (voltageCorner : Int) : Nat :=
  ((List.range vddLevelMax).find? fun level => decide (voltageCorner = vddCorner level)).getD
    vddLevelMax

/-- The steps of `mmrm_sw_update_freq`: at most `left` from the rate `clkVal` on. -/
def updateFreqLoop (vddCorner : Nat → Int) (clk : Clock) (clkValMax : Int) :
    Nat → Int → Int → (Nat → BitVec 64) → Nat → BitVec 64
  | 0, _, _, freq => freq
  | left + 1, clkVal, clkValMin, freq =>
    if clkValMax ≤ clkVal then freq
    else let clkValRound := clk.roundRate (BitVec.ofInt 64 clkVal)
      if clkValRound.toInt ≤ clkValMin then
        updateFreqLoop vddCorner clk clkValMax left (clkVal + clkRateStep) clkValMin freq
      else let voltageCorner := clk.getVoltage clkValRound
        if voltageCorner < 0 ∨ vddCorner vddLevelTurbo < voltageCorner then freq
        else let level := matchVddLevel vddCorner (max voltageCorner (vddCorner vddLevelLowSvs))
          updateFreqLoop vddCorner clk clkValMax left (clkVal + clkRateStep) clkValRound.toInt
            fun other => if level ≤ other ∧ other < vddLevelMax then clkValRound else freq other

/-- `mmrm_sw_update_freq`: the highest rate of every level. -/
def updateFreq (vddCorner : Nat → Int) (clk : Clock) : Nat → BitVec 64 :=
  let clkValMin := clk.roundRate 1
  let clkValMax := (clk.roundRate (-1)).toInt
  updateFreqLoop vddCorner clk clkValMax (clkValMax - clkValMin.toInt).toNat clkValMin.toInt
    clkValMin.toInt fun _ => clkValMin

/-- `mmrm_sw_get_req_level`. -/
def getReqLevel (vddCorner : Nat → Int) (clk : Clock) (clkVal : BitVec 64) : Except Int Nat :=
  let voltageCorner := clk.getVoltage (clk.roundRate clkVal)
  if voltageCorner < 0 ∨ vddCorner vddLevelTurbo < voltageCorner then .error voltageCorner
  else if voltageCorner < vddCorner vddLevelLowSvs then .ok vddLevelLowSvs
  else let level := matchVddLevel vddCorner voltageCorner
    if level = vddLevelMax then .error eInval else .ok level

/-- `struct mmrm_client_data`. -/
structure ClientData where
  reserveOnly : Bool
  numHwBlocks : BitVec 32
  crmDrvIdx : Nat
  pwrSt : Nat
  crmSwDrv : Bool

def crmVoteIdx (entry : ClientTblEntry) (data : ClientData) : Nat :=
  if data.crmSwDrv then entry.crmClientTbl.length - 1
  else entry.numPwrStates * data.crmDrvIdx + data.pwrSt

/-- The scan of the votes other than the old maximum, from the place `idx` on. -/
def maxOtherVote (maxRateIdx : Nat) : Nat → List (BitVec 64) → BitVec 32 × Nat → BitVec 32 × Nat
  | _, [], best => best
  | idx, vote :: votes, best =>
    if idx ≠ maxRateIdx ∧ best.1.toNat < vote.toNat then
      maxOtherVote maxRateIdx (idx + 1) votes (vote.setWidth 32, idx)
    else maxOtherVote maxRateIdx (idx + 1) votes best

/-- `mmrm_sw_get_max_crm_rate`: the rate in 32 bits, and the place of the vote for it. -/
def getMaxCrmRate (entry : ClientTblEntry) (data : ClientData) (newClkVal : BitVec 64) : BitVec 32 × Nat :=
  let crmMaxRate : BitVec 32 := entry.clkRate.setWidth 32
  let newValIdx := crmVoteIdx entry data
  if crmMaxRate.toNat < newClkVal.toNat then (newClkVal.setWidth 32, newValIdx)
  else if newValIdx = entry.maxRateIdx then
    let best := maxOtherVote entry.maxRateIdx 0 entry.crmClientTbl (0, entry.maxRateIdx)
    if best.1.toNat ≤ newClkVal.toNat then (newClkVal.setWidth 32, entry.maxRateIdx) else best
  else (crmMaxRate, entry.maxRateIdx)

/-- What the scan of `mmrm_sw_check_req_level` finds: a client at the aggregated level, or the
last one in between. -/
inductive LevelScan where
  | atAggregLevel
  | passed (nextMaxLevel : Option Nat)

def scanLevels (clkSrcId : BitVec 32) (reqLevel aggregLevel : Nat) : List ClientTblEntry → Option Nat → LevelScan
  | [], nextMaxLevel => .passed nextMaxLevel
  | entry :: rest, nextMaxLevel =>
    if !entry.isActive || decide (entry.clkSrcId = clkSrcId) then
      scanLevels clkSrcId reqLevel aggregLevel rest nextMaxLevel
    else if entry.vddLevel = aggregLevel then .atAggregLevel
    else if entry.vddLevel < aggregLevel ∧ reqLevel < entry.vddLevel then
      scanLevels clkSrcId reqLevel aggregLevel rest (some entry.vddLevel)
    else scanLevels clkSrcId reqLevel aggregLevel rest nextMaxLevel

/-- `mmrm_sw_check_req_level`. -/
def checkReqLevel (sinfo : ClkMgrInfo) (clkSrcId : BitVec 32) (reqLevel : Nat) : Except Int Nat :=
  if vddLevelMax ≤ reqLevel then .error eInval
  else if reqLevel < sinfo.aggregLevel then
    match scanLevels clkSrcId reqLevel sinfo.aggregLevel sinfo.entries none with
    | .atAggregLevel => .ok sinfo.aggregLevel
    | .passed (some nextMaxLevel) =>
      .ok (if reqLevel < nextMaxLevel then nextMaxLevel else reqLevel)
    | .passed none => .ok reqLevel
  else .ok reqLevel

def ClientTblEntry.curAt (entry : ClientTblEntry) (level : Nat) : BitVec 32 :=
  entry.currentMa entry.vddLevel level * entry.numHwBlocks

/-- `mmrm_sw_calculate_total_current`, without the entry `newId`. -/
def calculateTotalCurrent (sinfo : ClkMgrInfo) (reqLevel newId : Nat) : Except Int (BitVec 32) :=
  if vddLevelMax ≤ reqLevel then .error eInval
  else .ok ((List.range sinfo.totClkClients).foldl (fun sumCur id =>
      if !(sinfo.clkClientTbl id).isActive || decide (id = newId) then sumCur
      else sumCur + (sinfo.clkClientTbl id).curAt reqLevel) 0)

/-! ## Peak current

Checking a request against the threshold, throttling a client of low priority and reinstating the throttled ones.
-/

/-- What a throttled client and the system answer: the notifier callback, `clk_set_rate`, and whether there is
memory. -/
structure ThrottleAnswer where
  notified : Int
  rateSet : Int
  allocated : Bool

/-- What `mmrm_sw_throttle_low_priority_client` leaves. -/
structure Throttling where
  sinfo : ClkMgrInfo
  deltaCur : BitVec 32
  rc : Int

def ClientTblEntry.throttled (entry : ClientTblEntry) : ClientTblEntry :=
  { entry with
    clkRate := entry.freq vddLevelLowSvs
    vddLevel := vddLevelLowSvs
    reserve := false }

def nowCurMa (sinfo : ClkMgrInfo) (id : Nat) : BitVec 32 :=
  (sinfo.clkClientTbl id).currentMa (sinfo.clkClientTbl id).vddLevel sinfo.aggregLevel

def minCurMa (sinfo : ClkMgrInfo) (id : Nat) : BitVec 32 :=
  (sinfo.clkClientTbl id).currentMa vddLevelLowSvs sinfo.aggregLevel

def worthThrottling (sinfo : ClkMgrInfo) (id : Nat) (deltaCur : BitVec 32) : Bool :=
  decide ((minCurMa sinfo id).toNat < (nowCurMa sinfo id).toNat) &&
    decide (deltaCur.toNat < (nowCurMa sinfo id - minCurMa sinfo id).toNat)

def notifierRc (entry : ClientTblEntry) (answer : ThrottleAnswer) (rc : Int) : Int :=
  if entry.notifier then answer.notified else rc

def throttleRateRc (entry : ClientTblEntry) (answer : ThrottleAnswer) (rc : Int) : Int :=
  if entry.reserve then rc else answer.rateSet

/-- `mmrm_sw_throttle_low_priority_client` from the place `i` of the throttle list on. -/
def throttleLoop (sinfo : ClkMgrInfo) (answers : Nat → ThrottleAnswer) (deltaCur : BitVec 32) :
    Nat → List Nat → Int → Throttling
  | _, [], rc => { sinfo := sinfo, deltaCur := deltaCur, rc := rc }
  | i, id :: ids, rc =>
    let entry := sinfo.clkClientTbl id
    if worthThrottling sinfo id deltaCur then let notified := notifierRc entry (answers i) rc
      if notified ≠ 0 then throttleLoop sinfo answers deltaCur (i + 1) ids notified
      else let rateSet := throttleRateRc entry (answers i) notified
        if rateSet ≠ 0 then throttleLoop sinfo answers deltaCur (i + 1) ids rateSet
        else let deltaCuMa := nowCurMa sinfo id - minCurMa sinfo id
          if !(answers i).allocated then { sinfo := sinfo, deltaCur := deltaCur - deltaCuMa, rc := eNomem }
          else
            { sinfo := { sinfo.put id entry.throttled with
                throttledClients := sinfo.throttledClients ++
                  [{ tableId := i, deltaCuMa := deltaCuMa, prevVddLevel := entry.vddLevel }] }
              deltaCur := deltaCur - deltaCuMa
              rc := 0 }
    else throttleLoop sinfo answers deltaCur (i + 1) ids rc

/-- `mmrm_sw_throttle_low_priority_client`. -/
def throttleLowPriorityClient (sinfo : ClkMgrInfo) (answers : Nat → ThrottleAnswer)
    (deltaCur : BitVec 32) : Throttling :=
  throttleLoop sinfo answers deltaCur 0 sinfo.throttleTblEntryIds 0

/-- `mmrm_reinstate_throttled_client`: a client that fits again is only told so. -/
def reinstateThrottledClient (sinfo : ClkMgrInfo) : ClkMgrInfo :=
  { sinfo with
    throttledClients := sinfo.throttledClients.filter fun client =>
      decide (sinfo.threshold.toNat < (sinfo.aggregVal + client.deltaCuMa).toNat) }

structure PeakRequest where
  id : Nat
  reqLevel : Nat
  clkVal : BitVec 32
  numHwBlocks : BitVec 32

def PeakRequest.newCur (request : PeakRequest) (sinfo : ClkMgrInfo) (adjLevel : Nat) : BitVec 32 :=
  if request.clkVal ≠ 0 then
    (sinfo.clkClientTbl request.id).currentMa request.reqLevel adjLevel * request.numHwBlocks
  else 0

def PeakRequest.oldCur (request : PeakRequest) (sinfo : ClkMgrInfo) : BitVec 32 :=
  if (sinfo.clkClientTbl request.id).clkRate ≠ 0 then (sinfo.clkClientTbl request.id).curAt sinfo.aggregLevel
  else 0

def peakAndDelta (sinfo : ClkMgrInfo) (request : PeakRequest) (adjLevel : Nat) :
    Except Int (BitVec 32 × BitVec 32) :=
  let newCur := request.newCur sinfo adjLevel
  if adjLevel ≠ sinfo.aggregLevel then match calculateTotalCurrent sinfo adjLevel request.id with
    | .error rc => .error rc
    | .ok peakCur => .ok (peakCur + newCur, 0)
  else .ok (sinfo.aggregVal, newCur - request.oldCur sinfo)

def updatePeakData (sinfo : ClkMgrInfo) (aggregVal : BitVec 32) (adjLevel : Nat) : ClkMgrInfo :=
  reinstateThrottledClient { sinfo with aggregVal := aggregVal, aggregLevel := adjLevel }

/-- `mmrm_sw_check_peak_current`. -/
def checkPeakCurrent (enableThrottle : Bool) (answers : Nat → ThrottleAnswer)
    (sinfo : ClkMgrInfo) (request : PeakRequest) : ClkMgrInfo × Int :=
  let entry := sinfo.clkClientTbl request.id
  match checkReqLevel sinfo entry.clkSrcId request.reqLevel with
  | .error rc => (sinfo, rc)
  | .ok adjLevel =>
    match peakAndDelta sinfo request adjLevel with
    | .error rc => (sinfo, rc)
    | .ok (peakCur, deltaCur) =>
      if (peakCur + deltaCur).toInt ≤ 0 then ({ sinfo with aggregVal := 0, aggregLevel := adjLevel }, 0)
      -- the sum is compared as an unsigned number
      else if sinfo.threshold.toNat ≤ (peakCur + deltaCur).toNat then if entry.priHigh && enableThrottle then
          let throttling := throttleLowPriorityClient sinfo answers deltaCur
          if throttling.rc ≠ 0 then (throttling.sinfo, throttling.rc)
          else (updatePeakData throttling.sinfo (peakCur + throttling.deltaCur) adjLevel, 0)
        else (sinfo, eInval)
      else (updatePeakData sinfo (peakCur + deltaCur) adjLevel, 0)

end KernelModules.Mmrm

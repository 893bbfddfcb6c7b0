import KernelModules.Data.Circular
import Mathlib.Tactic.Ring

namespace KernelModules.MgmtRx

open Data

/-! # Management frames and snapshots

A frame has a packet counter of its link and a timestamp that all links share.  A snapshot keeps both of the latest
frame a stage has seen.
-/

/-- `MGMT_RX_REO_PKT_CTR_HALF_RANGE`. -/
def pktCtrHalfRange : Nat := 32768

/-- `MGMT_RX_REO_GLOBAL_TS_HALF_RANGE`. -/
def globalTsHalfRange : Nat := 2147483648

/-- `mgmt_rx_reo_compare_pkt_ctrs_gte`. -/
def comparePktCtrsGte (ctr1 ctr2 : BitVec 16) : Bool := circularGte pktCtrHalfRange ctr1 ctr2

/-- `mgmt_rx_reo_subtract_pkt_ctrs`. -/
def subtractPktCtrs (ctr1 ctr2 : BitVec 16) : Int := circularDelta pktCtrHalfRange ctr1 ctr2

/-- `mgmt_rx_reo_compare_global_timestamps_gte`. -/
def compareGlobalTimestampsGte (ts1 ts2 : BitVec 32) : Bool := circularGte globalTsHalfRange ts1 ts2

def maxMloLinks : Nat := 6

/-- The errors of `QDF_STATUS` that the functions return, and a failed assertion, which stops
the kernel. -/
inductive ReoError where
  | eInval
  | eFailure
  | eNomem
  | assertFailed

/-- `struct mgmt_rx_reo_params`. -/
structure ReoParams where
  valid : Bool
  linkId : Nat
  mgmtPktCtr : BitVec 16
  globalTimestamp : BitVec 32
  startTimestamp : BitVec 32
  endTimestamp : BitVec 32

/-- `struct mgmt_rx_reo_snapshot_params`. -/
structure SnapshotParams where
  valid : Bool
  mgmtPktCtr : BitVec 16
  globalTimestamp : BitVec 32
deriving DecidableEq

/-- `enum mgmt_rx_reo_frame_descriptor_type`. -/
inductive FrameDescriptorType where
  | hostConsumedFrame
  | fwConsumedFrame
  | errorFrame
deriving DecidableEq

/-- `enum mgmt_rx_reo_ingress_drop_reason`, as far as it is used. -/
inductive IngressDropReason where
  | invalid
  | invalidReoParams
  | outOfOrderPktCtr
  | duplicatePktCtr
  | snapshotSanityFailure

/-- `enum mgmt_rx_reo_list_type`. -/
inductive ListType where
  | ingress
  | egress
  | invalid
deriving DecidableEq

/-- `struct mgmt_rx_reo_wait_count`. -/
structure WaitCount where
  perLinkCount : Nat → Nat
  totalCount : Nat

def WaitCount.sum (waitCount : WaitCount) : Nat :=
  ((List.range maxMloLinks).map waitCount.perLinkCount).sum

/-- `struct mgmt_rx_reo_frame_descriptor`. -/
structure FrameDescriptor where
  type : FrameDescriptorType
  /-- `frame_type` is `IEEE80211_FC0_TYPE_MGT`. -/
  isMgt : Bool
  reoRequired : Bool
  reoParams : ReoParams
  waitCount : WaitCount
  pktCtrDelta : Int
  isStale : Bool
  isParallelRx : Bool
  queuedList : ListType
  drop : Bool
  dropReason : IngressDropReason

/-- What `wlan_mgmt_rx_reo_algo_entry` gets for a frame or an event. -/
def FrameDescriptor.start (type : FrameDescriptorType) (isMgt reoRequired : Bool)
    (reoParams : ReoParams) : FrameDescriptor where
  type := type
  isMgt := isMgt
  reoRequired := reoRequired
  reoParams := reoParams
  waitCount := { perLinkCount := fun _ => 0, totalCount := 0 }
  pktCtrDelta := 0
  isStale := false
  isParallelRx := false
  queuedList := .invalid
  drop := false
  dropReason := .invalid

/-- `check_frame_sanity`: a zero duration is only reported. -/
def checkFrameSanity (desc : FrameDescriptor) : Except ReoError FrameDescriptor :=
  if desc.reoParams.valid then .ok desc else .error .eFailure

/-- `handle_out_of_order_pkt_ctr` with `WLAN_MGMT_RX_REO_ERROR_HANDLING`. -/
def handleOutOfOrderPktCtr (desc : FrameDescriptor) (hostSs : SnapshotParams) : FrameDescriptor :=
  { desc with
    drop := true
    dropReason :=
      if desc.reoParams.mgmtPktCtr = hostSs.mgmtPktCtr then .duplicatePktCtr else .outOfOrderPktCtr }

def snapshotOf (reoParams : ReoParams) : SnapshotParams :=
  { valid := true
    mgmtPktCtr := reoParams.mgmtPktCtr
    globalTimestamp := reoParams.globalTimestamp }

/-- `wlan_mgmt_rx_reo_update_host_snapshot`.  A delta above the threshold, if there is one,
triggers self recovery. -/
def updateHostSnapshot (pktCtrDeltaThresh : BitVec 16) (hostSs : SnapshotParams)
    (desc : FrameDescriptor) : Except ReoError (SnapshotParams × FrameDescriptor) :=
  if !desc.reoParams.valid then .error .eFailure
  else if !hostSs.valid then .ok (snapshotOf desc.reoParams, { desc with pktCtrDelta := 1 })
  else let checked :=
      if comparePktCtrsGte hostSs.mgmtPktCtr desc.reoParams.mgmtPktCtr then handleOutOfOrderPktCtr desc hostSs
      else desc
    let pktCtrDelta := subtractPktCtrs desc.reoParams.mgmtPktCtr hostSs.mgmtPktCtr
    -- a dropped frame goes on here as well
    if pktCtrDelta ≠ 1 ∧ pktCtrDeltaThresh ≠ 0 ∧ (pktCtrDeltaThresh.toNat : Int) < pktCtrDelta then .error .eFailure
    else .ok (snapshotOf desc.reoParams, { checked with pktCtrDelta := pktCtrDelta })

/-! # Wait counts

How many frames of every other link a frame waits for, from the snapshots of hardware, firmware and host.
-/

structure SharedSnapshots where
  macHw : SnapshotParams
  fwConsumed : SnapshotParams
  fwForwarded : SnapshotParams

/-- The first snapshot is at least as late as the second one, by timestamp and by counter. -/
def SnapshotParams.covers (later earlier : SnapshotParams) : Bool :=
  compareGlobalTimestampsGte later.globalTimestamp earlier.globalTimestamp &&
    comparePktCtrsGte later.mgmtPktCtr earlier.mgmtPktCtr

def SnapshotParams.agrees (first second : SnapshotParams) : Bool :=
  compareGlobalTimestampsGte first.globalTimestamp second.globalTimestamp ==
    comparePktCtrsGte first.mgmtPktCtr second.mgmtPktCtr

/-- A firmware snapshot stays valid if the hardware is not behind it and it agrees with the
snapshot of the host. -/
def invalidateFwSnapshot (macHwSs hostSs fwSs : SnapshotParams) : SnapshotParams :=
  if fwSs.valid && (!macHwSs.covers fwSs || (hostSs.valid && !hostSs.agrees fwSs)) then { fwSs with valid := false }
  else fwSs

/-- `mgmt_rx_reo_invalidate_stale_snapshots`. -/
def invalidateStaleSnapshots (shared : SharedSnapshots) (hostSs : SnapshotParams) :
    SharedSnapshots × SnapshotParams :=
  if !shared.macHw.valid then (shared, hostSs)
  else let host :=
      if hostSs.valid && !shared.macHw.covers hostSs then { hostSs with valid := false } else hostSs
    ({ shared with
        fwForwarded := invalidateFwSnapshot shared.macHw host shared.fwForwarded
        fwConsumed := invalidateFwSnapshot shared.macHw host shared.fwConsumed }, host)

/-- `mgmt_rx_reo_snapshots_check_sanity`. -/
def snapshotsCheckSanity (shared : SharedSnapshots) (hostSs : SnapshotParams) : Bool :=
  let macHw := shared.macHw
  let fwForwarded := shared.fwForwarded
  let fwConsumed := shared.fwConsumed
  if !macHw.valid then !fwForwarded.valid && !fwConsumed.valid && !hostSs.valid
  else if !fwForwarded.valid && !fwConsumed.valid then !hostSs.valid
  else (!fwForwarded.valid || macHw.covers fwForwarded) &&
    (!fwConsumed.valid || macHw.covers fwConsumed) &&
    (!hostSs.valid ||
      (macHw.covers hostSs &&
      (!(fwForwarded.valid && !fwConsumed.valid) || fwForwarded.covers hostSs) &&
      (!(fwConsumed.valid && !fwForwarded.valid) || fwConsumed.covers hostSs) &&
      (!(fwForwarded.valid && fwConsumed.valid) ||
        ((compareGlobalTimestampsGte fwConsumed.globalTimestamp hostSs.globalTimestamp ||
          compareGlobalTimestampsGte fwForwarded.globalTimestamp hostSs.globalTimestamp) &&
        (comparePktCtrsGte fwConsumed.mgmtPktCtr hostSs.mgmtPktCtr ||
          comparePktCtrsGte fwForwarded.mgmtPktCtr hostSs.mgmtPktCtr)))))

/-- `qdf_assert_always` of a count that must not be negative. -/
def assertCount (framesPending : Int) : Except ReoError Int :=
  if 0 ≤ framesPending then .ok framesPending else .error .assertFailed

/-- The estimate where the last frame of the hardware is not older than the incoming frame. -/
def pendingBelowMacHw (shared : SharedSnapshots) (hostSs : SnapshotParams) (globalTs : BitVec 32)
    (framesPending : Int) : Except ReoError Int := do
  let fwConsumed := shared.fwConsumed
  let fwForwarded := shared.fwForwarded
  let consumedPending ←
    if fwConsumed.valid && compareGlobalTimestampsGte fwConsumed.globalTimestamp globalTs then do
      let pending ← assertCount (subtractPktCtrs fwConsumed.mgmtPktCtr hostSs.mgmtPktCtr - 1)
      -- what comes behind the last forwarded frame was consumed
      if fwForwarded.valid && !compareGlobalTimestampsGte fwForwarded.globalTimestamp globalTs then
        .ok (max 0 (subtractPktCtrs fwForwarded.mgmtPktCtr hostSs.mgmtPktCtr))
      else .ok pending
    else .ok framesPending
  if fwForwarded.valid && compareGlobalTimestampsGte fwForwarded.globalTimestamp globalTs then do
    let deltaFwdHost ← assertCount (subtractPktCtrs fwForwarded.mgmtPktCtr hostSs.mgmtPktCtr - 1)
    assertCount (min consumedPending deltaFwdHost)
  else .ok consumedPending

def uintMax : Nat := 4294967295

def linkPending (shared : SharedSnapshots) (hostSs : SnapshotParams) (sameLink : Bool)
    (globalTs : BitVec 32) : Except ReoError Nat :=
  if sameLink then .ok 0
  else if !shared.macHw.valid then .ok 0
  else if !hostSs.valid then .ok uintMax
  else let framesPending := subtractPktCtrs shared.macHw.mgmtPktCtr hostSs.mgmtPktCtr
    if framesPending = 0 then .ok 0
    else if compareGlobalTimestampsGte hostSs.globalTimestamp globalTs then .ok 0
    else do
      let pending ← assertCount framesPending
      let below ←
        if pending ≠ 0 ∧ compareGlobalTimestampsGte shared.macHw.globalTimestamp globalTs then do
          let before ← assertCount (pending - 1)
          pendingBelowMacHw shared hostSs globalTs before
        else .ok pending
      let asserted ← assertCount below
      .ok asserted.toNat

inductive LinkReading where
  | invalidLink
  | absent
  | failed
  | snapshots (shared : SharedSnapshots)

def LinkReading.isInvalidLink : LinkReading → Bool
  | .invalidLink => true
  | _ => false

/-- The round of `wlan_mgmt_rx_reo_algo_calculate_wait_count` for one link; the host's snapshot is invalidated in
place. -/
def linkRound (reading : LinkReading) (hostSs : SnapshotParams) (sameLink : Bool)
    (globalTs : BitVec 32) : SnapshotParams × Except ReoError Nat :=
  match reading with
  | .invalidLink => (hostSs, .ok 0)
  | .absent => (hostSs, .ok 0)
  | .failed => (hostSs, .error .eFailure)
  | .snapshots shared =>
    let (current, host) := invalidateStaleSnapshots shared hostSs
    if snapshotsCheckSanity current host then (host, linkPending current host sameLink globalTs)
    else (host, .error .eInval)

/-- The rounds for the links from `link` on, `left` of them. -/
def waitCountRounds (readings : Nat → LinkReading) (inLink : Nat) (globalTs : BitVec 32) :
    Nat → Nat → (Nat → SnapshotParams) → WaitCount → (Nat → SnapshotParams) × Except ReoError WaitCount
  | _, 0, hosts, waitCount => (hosts, .ok waitCount)
  | link, left + 1, hosts, waitCount =>
    let (host, pending) := linkRound (readings link) (hosts link) (decide (link = inLink)) globalTs
    let hosts := Function.update hosts link host
    match pending with
    | .error status => (hosts, .error status)
    | .ok count =>
      waitCountRounds readings inLink globalTs (link + 1) left hosts
        { perLinkCount := Function.update waitCount.perLinkCount link count
          totalCount := waitCount.totalCount + count }

/-- `wlan_mgmt_rx_reo_algo_calculate_wait_count`. -/
def calculateWaitCount (readings : Nat → LinkReading) (hosts : Nat → SnapshotParams)
    (desc : FrameDescriptor) : (Nat → SnapshotParams) × Except ReoError FrameDescriptor :=
  if maxMloLinks ≤ desc.reoParams.linkId || (readings desc.reoParams.linkId).isInvalidLink then
    (hosts, .error .eInval)
  else
    let (invalidated, counted) := waitCountRounds readings desc.reoParams.linkId
      desc.reoParams.globalTimestamp 0 maxMloLinks hosts desc.waitCount
    (invalidated, counted.map fun waitCount => { desc with waitCount := waitCount })

end KernelModules.MgmtRx

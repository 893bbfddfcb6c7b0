import KernelModules.MgmtRx.WaitCount

namespace KernelModules.MgmtRx

open Data

/-! # Ingress and egress list

Frames wait in the ingress list, sorted by timestamp, and move to the egress list in prefixes.  What only logs read
is left out.
-/

structure EntryStatus where
  waitForFrameOnOtherLinks : Bool
  agedOut : Bool
  olderThanLatestAgedOutFrame : Bool
  ingressListOverflow : Bool
  olderThanReadyToDeliverFrames : Bool
  egressListOverflow : Bool

/-- `struct mgmt_rx_reo_list_entry`. -/
structure ListEntry where
  reoParams : ReoParams
  waitCount : WaitCount
  status : EntryStatus
  isParallelRx : Bool
  ingressListInsertionTs : BitVec 64

/-- `struct mgmt_rx_reo_frame_info`. -/
structure FrameInfo where
  valid : Bool
  reoParams : ReoParams

def ListEntry.globalTs (entry : ListEntry) : BitVec 32 := entry.reoParams.globalTimestamp

/-- `mgmt_rx_reo_is_entry_ready_to_send_up`. -/
def isEntryReadyToSendUp (entry : ListEntry) : Bool :=
  entry.status.ingressListOverflow || entry.status.egressListOverflow ||
    !entry.status.waitForFrameOnOtherLinks || entry.status.agedOut ||
    entry.status.olderThanLatestAgedOutFrame || entry.status.olderThanReadyToDeliverFrames

def ListEntry.setWaitCount (entry : ListEntry) (waitCount : WaitCount) : ListEntry :=
  { entry with
    waitCount := waitCount
    status := { entry.status with
      waitForFrameOnOtherLinks :=
        entry.status.waitForFrameOnOtherLinks && decide (waitCount.totalCount ≠ 0) } }

def WaitCount.lower (waitCount : WaitCount) (link count : Nat) : WaitCount :=
  { perLinkCount := Function.update waitCount.perLinkCount link count
    totalCount := waitCount.totalCount - (waitCount.perLinkCount link - count) }

/-- The round of `mgmt_rx_reo_update_wait_count` for one link. -/
def updateWaitCountLink (newFrame oldFrame : WaitCount) (link : Nat) : WaitCount :=
  if oldFrame.perLinkCount link ≠ 0 then
    oldFrame.lower link (min (oldFrame.perLinkCount link) (newFrame.perLinkCount link))
  else oldFrame

/-- `mgmt_rx_reo_update_wait_count`. -/
def updateWaitCount (oldFrame newFrame : WaitCount) : WaitCount :=
  (List.range maxMloLinks).foldl (updateWaitCountLink newFrame) oldFrame

/-- The frames that `mgmt_rx_reo_prepare_list_entry` is called for. -/
def FrameDescriptor.isReordered (desc : FrameDescriptor) : Bool :=
  decide (desc.type = .hostConsumedFrame) && desc.reoRequired

/-- `mgmt_rx_reo_prepare_list_entry` once the entry is allocated. -/
def prepareListEntry (desc : FrameDescriptor) : ListEntry where
  reoParams := desc.reoParams
  waitCount := desc.waitCount
  status := {
    waitForFrameOnOtherLinks := decide (desc.waitCount.totalCount ≠ 0)
    agedOut := false
    olderThanLatestAgedOutFrame := false
    ingressListOverflow := false
    olderThanReadyToDeliverFrames := false
    egressListOverflow := false }
  isParallelRx := false
  ingressListInsertionTs := 0

/-- `mgmt_rx_reo_is_stale_frame`. -/
def isStaleFrame (lastDelivered : FrameInfo) (desc : FrameDescriptor) : FrameDescriptor :=
  let plain := { desc with isStale := false, isParallelRx := false }
  if !desc.reoRequired then plain
  else if !lastDelivered.valid then plain
  else if compareGlobalTimestampsGte lastDelivered.reoParams.startTimestamp
        desc.reoParams.startTimestamp &&
      compareGlobalTimestampsGte desc.reoParams.endTimestamp
        lastDelivered.reoParams.endTimestamp then
    { plain with isParallelRx := true }
  else { plain with
      isStale := !compareGlobalTimestampsGte desc.reoParams.startTimestamp
        lastDelivered.reoParams.startTimestamp }

/-- The entries that a frame with the timestamp `ts` comes after. -/
def notAfter (ts : BitVec 32) (entry : ListEntry) : Bool :=
  compareGlobalTimestampsGte ts entry.globalTs

/-- Set a flag in the first `count` entries. -/
def markFirst (mark : ListEntry → ListEntry) (count : Nat) (entries : List ListEntry) : List ListEntry :=
  (entries.take count).map mark ++ entries.drop count

def markEgressOverflow (entry : ListEntry) : ListEntry :=
  { entry with status := { entry.status with egressListOverflow := true } }

def markIngressOverflow (entry : ListEntry) : ListEntry :=
  { entry with status := { entry.status with ingressListOverflow := true } }

/-- `mgmt_rx_reo_handle_egress_overflow` where the list has overflowed. -/
def handleEgressOverflow (maxListSize : Nat) (egress : List ListEntry) : List ListEntry :=
  if maxListSize < egress.length then markFirst markEgressOverflow (egress.length - maxListSize) egress
  else egress

/-- What `mgmt_rx_reo_update_egress_list` leaves. -/
structure EgressUpdate where
  egress : List ListEntry
  desc : FrameDescriptor
  new : Option ListEntry
  isQueued : Bool

def insertEgress (maxListSize : Nat) (egress : List ListEntry) (desc : FrameDescriptor)
    (new : ListEntry) : Except ReoError EgressUpdate :=
  let ts := desc.reoParams.globalTimestamp
  match egress.dropWhile (notAfter ts) with
  | [] => .error .eFailure
  | leastGreater :: newer =>
    let counted := new.setWaitCount (updateWaitCount new.waitCount leastGreater.waitCount)
    let inserted := { counted with
      isParallelRx := desc.isParallelRx
      status := { counted.status with olderThanReadyToDeliverFrames := true } }
    .ok {
      egress := handleEgressOverflow maxListSize
        (egress.takeWhile (notAfter ts) ++ inserted :: leastGreater :: newer)
      desc := { desc with waitCount := counted.waitCount, queuedList := .egress }
      new := some inserted
      isQueued := true }

/-- `mgmt_rx_reo_update_egress_list`. -/
def updateEgressList (maxListSize : Nat) (egress : List ListEntry) (lastReleased : FrameInfo)
    (desc : FrameDescriptor) (new : Option ListEntry) : Except ReoError EgressUpdate :=
  let ts := desc.reoParams.globalTimestamp
  let checked := isStaleFrame lastReleased desc
  let kept : EgressUpdate := { egress := egress, desc := checked, new := new, isQueued := false }
  if desc.isReordered ≠ new.isSome then .error .eInval
  else if checked.isStale then if (egress.takeWhile (notAfter ts)).all ListEntry.isParallelRx then .ok kept
    else .error .assertFailed
  else match new, egress.getLast? with
    | some new, some last =>
      if compareGlobalTimestampsGte ts last.globalTs then .ok kept
      else insertEgress maxListSize egress checked new
    | _, _ => .ok kept

def lowerNewer (desc : FrameDescriptor) (entry : ListEntry) : ListEntry :=
  let link := desc.reoParams.linkId
  if entry.waitCount.perLinkCount link ≠ 0 then entry.setWaitCount (entry.waitCount.lower link
      (entry.waitCount.perLinkCount link - (BitVec.ofInt 16 desc.pktCtrDelta).toNat))
  else entry

def lowerOlder (desc : FrameDescriptor) (entry : ListEntry) : ListEntry :=
  entry.setWaitCount (updateWaitCount entry.waitCount desc.waitCount)

/-- What `mgmt_rx_reo_update_ingress_list` leaves. -/
structure IngressUpdate where
  ingress : List ListEntry
  desc : FrameDescriptor
  isQueued : Bool

def ingressEntry (desc : FrameDescriptor) (now : BitVec 64) (new : ListEntry)
    (leastGreater : Option ListEntry) : ListEntry :=
  let counted :=
    match leastGreater with
    | some greater => new.setWaitCount (updateWaitCount new.waitCount greater.waitCount)
    | none => new
  { counted with ingressListInsertionTs := now, isParallelRx := desc.isParallelRx }

/-- `mgmt_rx_reo_update_ingress_list`. -/
def updateIngressList (ingress : List ListEntry) (desc : FrameDescriptor) (new : Option ListEntry)
    (now : BitVec 64) : Except ReoError IngressUpdate :=
  let ts := desc.reoParams.globalTimestamp
  let older := ingress.takeWhile (notAfter ts)
  let newer := ingress.dropWhile (notAfter ts)
  if desc.isReordered ≠ new.isSome then .error .eInval
  else if desc.isStale && !older.all ListEntry.isParallelRx then .error .assertFailed
  else let lowered := older.map (lowerOlder desc)
    match new with
    | some new =>
      if !desc.isStale && desc.queuedList ≠ .egress then let inserted := ingressEntry desc now new newer.head?
        .ok {
          ingress := lowered ++ inserted :: newer.map (lowerNewer desc)
          desc := { desc with waitCount := inserted.waitCount, queuedList := .ingress }
          isQueued := true }
      else .ok { ingress := lowered ++ newer.map (lowerNewer desc), desc := desc, isQueued := false }
    | none =>
      .ok { ingress := lowered ++ newer.map (lowerNewer desc), desc := desc, isQueued := false }

/-- `mgmt_rx_reo_check_sanity_list`. -/
def checkSanityList : List ListEntry → Bool
  | previous :: current :: rest =>
    compareGlobalTimestampsGte current.globalTs previous.globalTs &&
      checkSanityList (current :: rest)
  | _ => true

/-- What `mgmt_rx_reo_update_lists` leaves: a frame can be queued although an error is
returned. -/
structure ListsUpdate where
  ingress : List ListEntry
  egress : List ListEntry
  isQueued : Bool
  status : Option ReoError

def prepareIfReordered (allocated : Bool) (desc : FrameDescriptor) : Except ReoError (Option ListEntry) :=
  if desc.isReordered then if allocated then .ok (some (prepareListEntry desc)) else .error .eFailure
  else .ok none

/-- The part of `mgmt_rx_reo_update_lists` after the egress list is unlocked. -/
def updateListsIngress (ingress : List ListEntry) (now : BitVec 64) (update : EgressUpdate) : ListsUpdate :=
  match updateIngressList ingress update.desc update.new now with
  | .error status =>
    { ingress := ingress, egress := update.egress, isQueued := update.isQueued, status := some status }
  | .ok queued =>
    { ingress := queued.ingress
      egress := update.egress
      isQueued := update.isQueued || queued.isQueued
      status := if checkSanityList queued.ingress then none else some .eInval }

/-- `mgmt_rx_reo_update_lists` where nothing comes between its two parts. -/
def updateLists (maxEgressSize : Nat) (ingress egress : List ListEntry) (lastReleased : FrameInfo)
    (allocated : Bool) (now : BitVec 64) (desc : FrameDescriptor) : ListsUpdate :=
  match prepareIfReordered allocated desc with
  | .error status =>
    { ingress := ingress, egress := egress, isQueued := false, status := some status }
  | .ok new =>
    match updateEgressList maxEgressSize egress lastReleased desc new with
    | .error status =>
      { ingress := ingress, egress := egress, isQueued := false, status := some status }
    | .ok update =>
      if checkSanityList update.egress then updateListsIngress ingress now update
      else { ingress := ingress, egress := update.egress, isQueued := update.isQueued, status := some .eInval }

/-- What a frame finds besides the host's snapshots: the shared snapshots, the lists, and whether moving and
releasing succeeds. -/
structure Surroundings where
  pktCtrDeltaThresh : BitVec 16
  readings : Nat → LinkReading
  maxEgressSize : Nat
  ingress : List ListEntry
  egress : List ListEntry
  lastReleased : FrameInfo
  allocated : Bool
  now : BitVec 64
  released : Option ReoError

/-- What `wlan_mgmt_rx_reo_algo_entry` leaves: the snapshots, the status and whether the frame is
queued. -/
structure EntryResult where
  hosts : Nat → SnapshotParams
  status : Option ReoError
  isQueued : Bool

def algoEntryQueue (around : Surroundings) (hosts : Nat → SnapshotParams) (desc : FrameDescriptor) : EntryResult :=
  match calculateWaitCount around.readings hosts desc with
  | (invalidated, .error status) =>
    { hosts := invalidated, status := some status, isQueued := false }
  | (invalidated, .ok counted) =>
    let update := updateLists around.maxEgressSize around.ingress around.egress
      around.lastReleased around.allocated around.now counted
    { hosts := invalidated
      status := update.status.orElse fun _ => around.released
      isQueued := update.isQueued }

/-- `wlan_mgmt_rx_reo_algo_entry`.  A frame that is dropped leaves with success. -/
def algoEntry (around : Surroundings) (hosts : Nat → SnapshotParams) (desc : FrameDescriptor) : EntryResult :=
  if !desc.isMgt then { hosts := hosts, status := some .eInval, isQueued := false }
  else match checkFrameSanity desc with
    | .error status => { hosts := hosts, status := some status, isQueued := false }
    | .ok desc =>
      match updateHostSnapshot around.pktCtrDeltaThresh (hosts desc.reoParams.linkId) desc with
      | .error status => { hosts := hosts, status := some status, isQueued := false }
      | .ok (hostSs, updated) =>
        let hosts := Function.update hosts desc.reoParams.linkId hostSs
        if updated.drop then { hosts := hosts, status := none, isQueued := false }
        else algoEntryQueue around hosts updated

inductive BufferUse where
  /-- `tgt_mgmt_txrx_process_rx_frame`: the frame goes to the upper layer. -/
  | handedUp
  | queued
  | freed
deriving DecidableEq

/-- `tgt_mgmt_rx_reo_frame_handler` with the feature enabled, for a frame of the link in its
parameters. -/
def frameHandler (around : Surroundings) (hosts : Nat → SnapshotParams) (isMgt reoRequired : Bool)
    (reoParams : ReoParams) : (Nat → SnapshotParams) × BufferUse :=
  if !isMgt || !reoRequired then
    let result := algoEntry around hosts (.start .hostConsumedFrame isMgt false reoParams)
    match result.status with
    | some _ => (result.hosts, .freed)
    | none => if result.isQueued then (result.hosts, .queued) else (result.hosts, .handedUp)
  else let result := algoEntry around hosts (.start .hostConsumedFrame isMgt true reoParams)
    if result.isQueued then (result.hosts, .queued) else (result.hosts, .freed)

/-- `tgt_mgmt_rx_reo_fw_consumed_event_handler` and `tgt_mgmt_rx_reo_host_drop_handler`: there is
no buffer. -/
def eventHandler (around : Surroundings) (hosts : Nat → SnapshotParams)
    (type : FrameDescriptorType) (reoRequired : Bool) (reoParams : ReoParams) : Nat → SnapshotParams :=
  (algoEntry around hosts (.start type true reoRequired reoParams)).hosts

end KernelModules.MgmtRx

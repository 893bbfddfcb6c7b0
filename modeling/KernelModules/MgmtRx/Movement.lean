import KernelModules.MgmtRx.Lists
import KernelModules.Data.Run

namespace KernelModules.MgmtRx

open Data

/-! # Movement and release

Every part of a function that holds a lock is one step; the ingress lock is held on between the two parts of an
update or of a movement, and the release lock around a delivery.
-/

structure ReoConfig where
  maxIngressSize : Nat
  maxEgressSize : Nat
  listEntryTimeoutUs : BitVec 64
  pktCtrDeltaThresh : BitVec 16

/-- A context with the release lock: the links it may deliver, and the entry it took, with whether it is delivered. -/
structure Releasing where
  links : Nat → Bool
  sending : Option (ListEntry × Bool)

/-- An entry when it was released, with the frame that was the last released one before. -/
structure Release where
  entry : ListEntry
  last : FrameInfo

/-- `struct mgmt_rx_reo_context` with the host's snapshots, and where the contexts are; what was released and sent
is for the proofs. -/
structure ReoContext where
  hosts : Nat → SnapshotParams
  ingress : List ListEntry
  egress : List ListEntry
  lastReleased : FrameInfo
  inserting : Option EgressUpdate
  moving : Option (List ListEntry)
  releasing : Option Releasing
  released : List Release
  sent : List (ListEntry × Bool)
  crashed : Bool

/-- `qdf_mem_zero` of a frame info. -/
def FrameInfo.zero : FrameInfo where
  valid := false
  reoParams := {
    valid := false
    linkId := 0
    mgmtPktCtr := 0
    globalTimestamp := 0
    startTimestamp := 0
    endTimestamp := 0 }

def ReoContext.init : ReoContext where
  hosts := fun _ => { valid := false, mgmtPktCtr := 0, globalTimestamp := 0 }
  ingress := []
  egress := []
  lastReleased := .zero
  inserting := none
  moving := none
  releasing := none
  released := []
  sent := []
  crashed := false

def ReoContext.ingressFree (context : ReoContext) : Bool :=
  context.inserting.isNone && context.moving.isNone

section Steps

variable (config : ReoConfig)

/-- The part of `mgmt_rx_reo_update_lists` under both locks. -/
def ReoContext.updateEgress (context : ReoContext) (allocated : Bool) (desc : FrameDescriptor) : ReoContext :=
  match prepareIfReordered allocated desc with
  | .error _ => context
  | .ok new =>
    match updateEgressList config.maxEgressSize context.egress context.lastReleased desc new with
    | .error .assertFailed => { context with crashed := true }
    | .error _ => context
    | .ok update =>
      if checkSanityList update.egress then { context with egress := update.egress, inserting := some update }
      else { context with egress := update.egress }

/-- `wlan_mgmt_rx_reo_algo_entry` up to the egress list; a failed assertion ends the run. -/
def ReoContext.algoEntry (context : ReoContext) (readings : Nat → LinkReading)
    (desc : FrameDescriptor) (allocated : Bool) : Option ReoContext :=
  if !desc.isMgt then some context
  else match checkFrameSanity desc with
    | .error _ => some context
    | .ok desc =>
      match updateHostSnapshot config.pktCtrDeltaThresh (context.hosts desc.reoParams.linkId)
        desc with
      | .error _ => some context
      | .ok (hostSs, updated) =>
        let hosts := Function.update context.hosts desc.reoParams.linkId hostSs
        if updated.drop then some { context with hosts := hosts }
        else match calculateWaitCount readings hosts updated with
          | (_, .error .assertFailed) => none
          | (invalidated, .error _) => some { context with hosts := invalidated }
          | (invalidated, .ok counted) =>
            some ({ context with hosts := invalidated }.updateEgress config allocated counted)

/-- The part of `mgmt_rx_reo_update_lists` after the egress list is unlocked. -/
def ReoContext.updateIngress (context : ReoContext) (update : EgressUpdate) (now : BitVec 64) : ReoContext :=
  match updateIngressList context.ingress update.desc update.new now with
  | .error .assertFailed => { context with crashed := true }
  | .error _ => { context with inserting := none }
  | .ok queued => { context with ingress := queued.ingress, inserting := none }

def overflowMarked (ingress : List ListEntry) : List ListEntry :=
  markFirst markIngressOverflow (ingress.length - config.maxIngressSize) ingress

/-- The first part of `mgmt_rx_reo_move_entries_ingress_to_egress_list`: the ready entries are split off.  Where
their number does not fit in 16 bits, they are lost. -/
def ReoContext.move (context : ReoContext) : ReoContext :=
  let marked := overflowMarked config context.ingress
  let ready := marked.takeWhile isEntryReadyToSendUp
  let numFrames := ready.length % 65536
  if numFrames = 0 then { context with ingress := marked }
  else let rest := marked.dropWhile isEntryReadyToSendUp
    if numFrames ≠ ready.length then { context with ingress := rest }
    else { context with ingress := rest, moving := some ready }

/-- The part of `mgmt_rx_reo_move_entries_ingress_to_egress_list` under both locks. -/
def ReoContext.join (context : ReoContext) (ready : List ListEntry) : ReoContext :=
  { context with
    egress := handleEgressOverflow config.maxEgressSize (context.egress ++ ready)
    moving := none }

def markAgedOut (entry : ListEntry) : ListEntry :=
  { entry with status := { entry.status with agedOut := true } }

def markOlderThanLatestAgedOut (entry : ListEntry) : ListEntry :=
  { entry with status := { entry.status with olderThanLatestAgedOutFrame := true } }

def ReoConfig.expired (config : ReoConfig) (curTs : BitVec 64) (entry : ListEntry) : Bool :=
  decide (config.listEntryTimeoutUs.toNat ≤ (curTs - entry.ingressListInsertionTs).toNat)

/-- `mgmt_rx_reo_ageout_entries_ingress_list`: the expired entries, and those before the last of them. -/
def ageoutEntries (curTs : BitVec 64) : List ListEntry → List ListEntry
  | [] => []
  | entry :: rest =>
    let aged := if config.expired curTs entry then markAgedOut entry else entry
    (if rest.any (config.expired curTs) then markOlderThanLatestAgedOut aged else aged) :: ageoutEntries curTs rest

def ReoContext.takesOver (context : ReoContext) (entry : ListEntry) : Bool :=
  !context.lastReleased.valid ||
    compareGlobalTimestampsGte entry.globalTs context.lastReleased.reoParams.globalTimestamp

def ReoContext.release (context : ReoContext) (links : Nat → Bool) (first : ListEntry)
    (rest : List ListEntry) (deliver : Bool) : ReoContext :=
  if context.takesOver first || first.isParallelRx then { context with
      egress := rest
      lastReleased :=
        if context.takesOver first then { valid := true, reoParams := first.reoParams }
        else context.lastReleased
      releasing := some { links := links, sending := some (first, deliver) }
      released := context.released ++ [{ entry := first, last := context.lastReleased }] }
  else { context with crashed := true }

/-- The round of `mgmt_rx_reo_release_egress_list_entries` under the egress lock, with whether the scheduler is
enabled. -/
def ReoContext.releaseRound (context : ReoContext) (links : Nat → Bool) (scheduler : Bool) : ReoContext :=
  match context.egress with
  | [] => { context with releasing := none }
  | first :: rest =>
    let defer := scheduler && !links first.reoParams.linkId
    if !isEntryReadyToSendUp first then { context with releasing := none }
    else if defer && !first.status.egressListOverflow then { context with releasing := none }
    else context.release links first rest (!defer || !first.status.egressListOverflow)

inductive ReoAction where
  | entry (readings : Nat → LinkReading) (type : FrameDescriptorType) (isMgt reoRequired : Bool)
      (reoParams : ReoParams) (allocated : Bool)
  | updateIngress (now : BitVec 64)
  | move
  | join
  | ageout (curTs : BitVec 64)
  | startRelease (links : Nat → Bool)
  | releaseRound (scheduler : Bool)
  | sendUp (succeeds : Bool)
  | inactivityTimeout

def reoStep (context : ReoContext) (action : ReoAction) : Option ReoContext :=
  if context.crashed then none
  else match action with
    | .entry readings type isMgt reoRequired reoParams allocated =>
      if context.ingressFree then
        context.algoEntry config readings (.start type isMgt reoRequired reoParams) allocated
      else none
    | .updateIngress now =>
      context.inserting.map fun update => context.updateIngress update now
    | .move => if context.ingressFree then some (context.move config) else none
    | .join => context.moving.map (context.join config)
    | .ageout curTs =>
      if context.ingressFree then some { context with ingress := ageoutEntries config curTs context.ingress }
      else none
    | .startRelease links =>
      if context.releasing.isNone then some { context with releasing := some { links := links, sending := none } }
      else none
    | .releaseRound scheduler =>
      match context.releasing with
      | some { links, sending := none } => some (context.releaseRound links scheduler)
      | _ => none
    | .sendUp succeeds =>
      match context.releasing with
      | some { links, sending := some entry } =>
        some { context with
          sent := context.sent ++ [entry]
          releasing := if succeeds then some { links := links, sending := none } else none }
      | _ => none
    | .inactivityTimeout => some { context with lastReleased := .zero }

end Steps

def ReoContext.stamps (context : ReoContext) : List (BitVec 32) :=
  (context.egress ++ context.moving.getD [] ++ context.ingress).map ListEntry.globalTs ++
    if context.lastReleased.valid then [context.lastReleased.reoParams.globalTimestamp] else []

def alive (stamps : List (BitVec 32)) : Bool :=
  stamps.any fun base => stamps.all fun stamp =>
    decide ((stamp - base).toNat < globalTsHalfRange)

def ReoAction.alive (context : ReoContext) : ReoAction → Bool
  | .entry _ _ _ _ reoParams _ =>
    decide (reoParams.startTimestamp = reoParams.globalTimestamp) &&
      MgmtRx.alive (reoParams.globalTimestamp :: context.stamps)
  | _ => true

end KernelModules.MgmtRx

import KernelModules.Data.Ring
import KernelModules.Data.Run
import KernelModules.Kgsl.Timestamp

namespace KernelModules.Hwsched

open Data KernelModules.Kgsl

/-! # The draw queue of a context

Threads put batches of draw objects into the ring; the dispatcher takes them out, retires what needs no hardware and
hands the rest over.  A function is what runs under the context's lock.
-/

def adrenoContextDrawqueueSize : Nat := 128

def contextDrawqueueSize : Nat := adrenoContextDrawqueueSize - 1

def hwschedMaxIbs : Nat := 2000

/-- `(HFI_MAX_MSG_SIZE - sizeof(struct hfi_submit_cmd)) / sizeof(struct hfi_issue_ib)` -/
def hwschedMaxDispatchNumibs : Nat := (1024 - 32) / 12

def drawqueueNext (place size : Nat) : Nat := (place + 1) % size

inductive DrawobjType where
  | cmdobj
  | markerobj
  | syncobj
  | bindobj
  | timelineobj
deriving DecidableEq

/-- What is fixed of a draw object once it is submitted; `address` tells objects apart. -/
structure Drawobj where
  address : Nat
  type : DrawobjType
  numibs : Nat
  /-- `KGSL_DRAWOBJ_MARKER` is among its flags. -/
  marker : Bool
  /-- `KGSL_SYNCOBJ_HW` is among its flags. -/
  hw : Bool
  /-- It has a `profiling_buf_entry`. -/
  profiling : Bool
deriving DecidableEq

structure DrawobjState where
  timestamp : Nat
  markerTimestamp : Nat
  skip : Bool
  markerExpired : Bool
  bindStarted : Bool
  requeueCnt : Nat
deriving DecidableEq

structure Drawqueue where
  drawqueue : Nat → Option Drawobj
  drawqueueHead : Nat
  drawqueueTail : Nat
  queued : Nat

/-- `adreno_context`, with the memstore word and the draw objects that its functions reach. -/
structure Drawctxt extends Drawqueue where
  timestamp : Nat
  queuedTimestamp : Nat
  userGeneratedTs : Bool
  eoptimestamp : Nat
  objs : Nat → DrawobjState

structure Surroundings where
  /-- `kgsl_drawobj_events_pending` -/
  eventsPending : Drawobj → Bool
  /-- `KGSL_BINDOBJ_STATE_DONE` -/
  bindDone : Drawobj → Bool
  /-- `ADRENO_HWSCHED_HW_FENCE` -/
  hwFence : Bool
  /-- `hwsched->big_cmdobj` is set. -/
  bigCmdobj : Bool

namespace Drawqueue

def pop (queue : Drawqueue) : Drawqueue :=
  { queue with
    drawqueueHead := drawqueueNext queue.drawqueueHead adrenoContextDrawqueueSize
    queued := queue.queued - 1 }

def push (queue : Drawqueue) (drawobj : Drawobj) : Drawqueue :=
  { queue with
    drawqueue := Function.update queue.drawqueue queue.drawqueueTail (some drawobj)
    drawqueueTail := (queue.drawqueueTail + 1) % adrenoContextDrawqueueSize
    queued := queue.queued + 1 }

def putBack (queue : Drawqueue) (drawobj : Drawobj) : Drawqueue :=
  let prev := if queue.drawqueueHead = 0 then adrenoContextDrawqueueSize - 1
    else queue.drawqueueHead - 1
  { queue with
    drawqueue := Function.update queue.drawqueue prev (some drawobj)
    queued := queue.queued + 1
    drawqueueHead := prev }

def contents (queue : Drawqueue) : List (Option Drawobj) :=
  (List.range queue.queued).map fun index =>
    queue.drawqueue ((queue.drawqueueHead + index) % adrenoContextDrawqueueSize)

end Drawqueue

namespace Drawctxt

variable (ctx : Drawctxt) (drawobj : Drawobj)

/-- `_check_context_queue` of a context that is valid -/
def checkContextQueue (count : Nat) : Bool := decide (ctx.queued + count < contextDrawqueueSize)

def popDrawobj : Drawctxt := { ctx with toDrawqueue := ctx.toDrawqueue.pop }

def queueDrawobj : Drawctxt := { ctx with toDrawqueue := ctx.toDrawqueue.push drawobj }

def setObj (state : DrawobjState) : Drawctxt :=
  { ctx with objs := Function.update ctx.objs drawobj.address state }

def obj : DrawobjState := ctx.objs drawobj.address

/-- `kgsl_check_timestamp` -/
def checkTimestamp (timestamp : Nat) : Bool := decide (0 ≤ timestampCmp ctx.eoptimestamp timestamp)

def retireTimestampOnly : Drawctxt := { ctx with eoptimestamp := (ctx.obj drawobj).timestamp }

def markerExpired : Bool := drawobj.marker && ctx.checkTimestamp (ctx.obj drawobj).markerTimestamp

/-- `hwsched_dispatcher_requeue_drawobj` for a context that is neither detached nor invalid -/
def requeueDrawobj : Drawctxt :=
  let ctx := { ctx with toDrawqueue := ctx.toDrawqueue.putBack drawobj }
  if drawobj.type = .cmdobj then
    ctx.setObj drawobj { ctx.obj drawobj with requeueCnt := (ctx.obj drawobj).requeueCnt + 1 }
  else ctx

end Drawctxt

inductive Retire where
  | gone
  | send
  | again
  | noSpace
deriving DecidableEq

namespace Drawctxt

variable (around : Surroundings) (ctx : Drawctxt) (drawobj : Drawobj)

def retireSyncobj : Drawctxt × Retire :=
  if around.eventsPending drawobj = false then (ctx.popDrawobj, .gone)
  else if around.hwFence && drawobj.hw then (ctx, .send)
  else (ctx, .again)

def retireMarkerobj : Drawctxt × Retire :=
  if ctx.markerExpired drawobj then let ctx := ctx.setObj drawobj { ctx.obj drawobj with markerExpired := true }
    if around.hwFence then (ctx.retireTimestampOnly drawobj, .send)
    else (ctx.popDrawobj.retireTimestampOnly drawobj, .gone)
  else (ctx, if (ctx.obj drawobj).skip then .send else .again)

def retireTimelineobj : Drawctxt × Retire := (ctx.popDrawobj, .gone)

def retireBindobj : Drawctxt × Retire :=
  if around.bindDone drawobj then (ctx.popDrawobj.retireTimestampOnly drawobj, .gone)
  else (ctx.setObj drawobj { ctx.obj drawobj with bindStarted := true }, .again)

def retire : Drawctxt × Retire :=
  match drawobj.type with
  | .cmdobj =>
    if drawobj.numibs > hwschedMaxDispatchNumibs && around.bigCmdobj then (ctx, .noSpace)
    else (ctx, .send)
  | .syncobj => ctx.retireSyncobj around drawobj
  | .markerobj => ctx.retireMarkerobj around drawobj
  | .bindobj => ctx.retireBindobj around drawobj
  | .timelineobj => ctx.retireTimelineobj

end Drawctxt

/-- What `_process_drawqueue_get_next_drawobj` answers. -/
inductive NextDrawobj where
  | null
  | drawobj (drawobj : Drawobj)
  | again
  | noSpace
  | endless

structure Processed where
  ctx : Drawctxt
  retired : List Drawobj
  next : NextDrawobj

namespace Drawctxt

variable (around : Surroundings)

def processFrom : Nat → Nat → Drawctxt → Processed
  | 0, _, ctx => ⟨ctx, [], .endless⟩
  | fuel + 1, place, ctx =>
    if place = ctx.drawqueueTail then ⟨ctx, [], .null⟩
    else match ctx.drawqueue place with
      | none => ⟨ctx, [], .null⟩
      | some drawobj =>
        match ctx.retire around drawobj with
        | (ctx, .send) => ⟨ctx, [], .drawobj drawobj⟩
        | (ctx, .again) => ⟨ctx, [], .again⟩
        | (ctx, .noSpace) => ⟨ctx, [], .noSpace⟩
        | (ctx, .gone) =>
          let rest := processFrom fuel (drawqueueNext place adrenoContextDrawqueueSize) ctx
          { rest with retired := drawobj :: rest.retired }

def processDrawqueueGetNextDrawobj (ctx : Drawctxt) : Processed :=
  if ctx.drawqueueHead = ctx.drawqueueTail then ⟨ctx, [], .null⟩
  else ctx.processFrom around adrenoContextDrawqueueSize ctx.drawqueueHead

end Drawctxt

inductive Queueing where
  | queued
  | retired
  /-- `-ERANGE` -/
  | refused

namespace Drawctxt

variable (ctx : Drawctxt) (drawobj : Drawobj) (userTs : Nat)

def getTimestamp : Option Drawctxt :=
  if ctx.userGeneratedTs then if 0 ≤ timestampCmp ctx.timestamp userTs then none
    else let ctx := { ctx with timestamp := userTs }
      some (ctx.setObj drawobj { ctx.obj drawobj with timestamp := userTs })
  else let timestamp := u32 (ctx.timestamp + 1)
    let ctx := { ctx with timestamp := timestamp }
    some (ctx.setObj drawobj { ctx.obj drawobj with timestamp := timestamp })

def forceMarker : Drawctxt :=
  if drawobj.type = .markerobj then ctx.setObj drawobj { ctx.obj drawobj with skip := true } else ctx

/-- The markers from `place` to the tail have to go through the hardware. -/
def forceMarkers : Nat → Nat → Drawctxt → Drawctxt
  | 0, _, ctx => ctx
  | fuel + 1, place, ctx =>
    if place = ctx.drawqueueTail then ctx
    else let ctx := match ctx.drawqueue place with
        | some drawobj => ctx.forceMarker drawobj
        | none => ctx
      forceMarkers fuel (drawqueueNext place adrenoContextDrawqueueSize) ctx

def queueCmdobj : Drawctxt × Queueing :=
  match ctx.getTimestamp drawobj userTs with
  | none => (ctx, .refused)
  | some ctx =>
    let ctx := forceMarkers adrenoContextDrawqueueSize ctx.drawqueueHead ctx
    let ctx := { ctx with queuedTimestamp := (ctx.obj drawobj).timestamp }
    (ctx.queueDrawobj drawobj, .queued)

def queueSyncobj : Drawctxt × Queueing :=
  let ctx := ctx.setObj drawobj { ctx.obj drawobj with timestamp := 0 }
  (ctx.queueDrawobj drawobj, .queued)

def queueMarkerobj : Drawctxt × Queueing :=
  match ctx.getTimestamp drawobj userTs with
  | none => (ctx, .refused)
  | some ctx =>
    if ctx.queued = 0 && ctx.checkTimestamp ctx.queuedTimestamp then (ctx.retireTimestampOnly drawobj, .retired)
    else
      let ctx := ctx.setObj drawobj
        { ctx.obj drawobj with markerTimestamp := ctx.queuedTimestamp }
      let ctx := { ctx with queuedTimestamp := (ctx.obj drawobj).timestamp }
      (ctx.queueDrawobj drawobj, .queued)

def queueBindobj : Drawctxt × Queueing :=
  match ctx.getTimestamp drawobj userTs with
  | none => (ctx, .refused)
  | some ctx =>
    let ctx := { ctx with queuedTimestamp := (ctx.obj drawobj).timestamp }
    (ctx.queueDrawobj drawobj, .queued)

def queueTimelineobj : Drawctxt × Queueing :=
  let ctx := ctx.setObj drawobj { ctx.obj drawobj with timestamp := 0 }
  (ctx.queueDrawobj drawobj, .queued)

def queueObj : Drawctxt × Queueing :=
  match drawobj.type with
  | .markerobj => ctx.queueMarkerobj drawobj userTs
  | .cmdobj => ctx.queueCmdobj drawobj userTs
  | .syncobj => ctx.queueSyncobj drawobj
  | .bindobj => ctx.queueBindobj drawobj userTs
  | .timelineobj => ctx.queueTimelineobj drawobj

def queueObjs : Drawctxt → List Drawobj → Drawctxt × Queueing
  | ctx, [] => (ctx, .queued)
  | ctx, drawobj :: rest =>
    match ctx.queueObj drawobj userTs with
    | (ctx, .queued) => queueObjs ctx rest
    | other => other

end Drawctxt

def DrawobjType.timestamped : DrawobjType → Bool
  | .cmdobj | .markerobj | .bindobj => true
  | .syncobj | .timelineobj => false

/-- The draw objects of one call, as the four ioctls build it: what has a timestamp comes last. -/
structure Batch where
  objects : List Drawobj
  userTs : Nat
  formed : ∀ drawobj ∈ objects.dropLast, drawobj.type.timestamped = false

namespace Batch

variable (batch : Batch)

def count : Nat := batch.objects.length

/-- The checks of `adreno_hwsched_queue_cmds` that need no lock -/
def admissible : Bool :=
  decide (batch.count ≠ 0 ∧ batch.count ≤ contextDrawqueueSize - 1) &&
    batch.objects.all fun drawobj =>
      drawobj.type ≠ .cmdobj || decide (drawobj.numibs ≤ hwschedMaxIbs)

/-- There is only one object, of type `SYNCOBJ_TYPE`. -/
def lone : Bool := decide (batch.objects.map Drawobj.type = [.syncobj])

end Batch

/-- What `adreno_hwsched_queue_cmds` does under the lock once there is room. -/
def Drawctxt.queueBatch (ctx : Drawctxt) (batch : Batch) : Drawctxt × Queueing :=
  if !batch.lone && ctx.userGeneratedTs && decide (0 ≤ timestampCmp ctx.timestamp batch.userTs) then (ctx, .refused)
  else ctx.queueObjs batch.userTs batch.objects

/-- Where a thread stands in `adreno_hwsched_queue_cmds`. -/
inductive Phase where
  | idle
  /-- In `wait_event_interruptible_timeout`, without the lock. -/
  | asleep (batch : Batch)
  /-- `_check_context_queue` has found room; the lock is not taken yet. -/
  | awake (batch : Batch)

structure QueueState where
  ctx : Drawctxt
  hand : Option Drawobj
  thread : Nat → Phase
  accepted : List Drawobj
  left : List Drawobj

inductive QueueAction where
  | queueCmds (thread : Nat) (batch : Batch)
  | roomSeen (thread : Nat)
  | giveUp (thread : Nat)
  | resume (thread : Nat)
  /-- The part of `hwsched_sendcmds` that holds the lock. -/
  | next (around : Surroundings)
  /-- `hwsched_sendcmd` succeeds. -/
  | submitted
  /-- `hwsched_sendcmd` fails. -/
  | requeue
  | retired (eoptimestamp : Nat)

namespace QueueState

def setThread (state : QueueState) (thread : Nat) (phase : Phase) : QueueState :=
  { state with thread := Function.update state.thread thread phase }

def queueBatch (state : QueueState) (batch : Batch) : QueueState :=
  match state.ctx.queueBatch batch with
  | (ctx, .queued) => { state with ctx := ctx, accepted := state.accepted ++ batch.objects }
  | (ctx, _) => { state with ctx := ctx }

def queueCmds (state : QueueState) (thread : Nat) (batch : Batch) : QueueState :=
  if batch.admissible then if state.ctx.queued + batch.count > contextDrawqueueSize - 1 then
      state.setThread thread (.asleep batch)
    else state.queueBatch batch
  else state

def next (state : QueueState) (around : Surroundings) : QueueState :=
  let processed := state.ctx.processDrawqueueGetNextDrawobj around
  let state := { state with ctx := processed.ctx, left := state.left ++ processed.retired }
  match processed.next with
  | .drawobj drawobj => { state with ctx := state.ctx.popDrawobj, hand := some drawobj }
  | _ => state

def step (state : QueueState) : QueueAction → Option QueueState
  | .queueCmds thread batch =>
    match state.thread thread with
    | .idle => some (state.queueCmds thread batch)
    | _ => none
  | .roomSeen thread =>
    match state.thread thread with
    | .asleep batch =>
      if state.ctx.checkContextQueue batch.count then some (state.setThread thread (.awake batch))
      else none
    | _ => none
  | .giveUp thread =>
    match state.thread thread with
    | .asleep _ => some (state.setThread thread .idle)
    | _ => none
  | .resume thread =>
    match state.thread thread with
    | .awake batch => some ((state.queueBatch batch).setThread thread .idle)
    | _ => none
  | .next around =>
    match state.hand with
    | none => some (state.next around)
    | some _ => none
  | .submitted =>
    match state.hand with
    | some drawobj => some { state with hand := none, left := state.left ++ [drawobj] }
    | none => none
  | .requeue =>
    match state.hand with
    | some drawobj => some { state with ctx := state.ctx.requeueDrawobj drawobj, hand := none }
    | none => none
  | .retired eoptimestamp => some { state with ctx := { state.ctx with eoptimestamp := eoptimestamp } }

def init (userGeneratedTs : Bool) (objs : Nat → DrawobjState) : QueueState where
  ctx := {
    drawqueue := fun _ => none
    drawqueueHead := 0
    drawqueueTail := 0
    queued := 0
    timestamp := 0
    queuedTimestamp := 0
    userGeneratedTs := userGeneratedTs
    eoptimestamp := 0
    objs := objs }
  hand := none
  thread := fun _ => .idle
  accepted := []
  left := []

end QueueState

end KernelModules.Hwsched

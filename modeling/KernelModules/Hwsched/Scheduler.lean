import KernelModules.Hwsched.Drawqueue

namespace KernelModules.Hwsched

open Data KernelModules.Kgsl Function

/-! # The scheduler

One thread walks the lists of jobs and sends objects to the hardware, which stay on a list until they are
retired.  Threads that submit, detach or invalidate come in between.
-/

def enoent : Int := -2

def eagain : Int := -11

def enomem : Int := -12

def ebusy : Int := -16

def enospc : Int := -28

/-- `adreno_hwsched`; the votes for power and the references are counted beside it. -/
structure AdrenoHwsched where
  inflight : Nat
  /-- `ADRENO_HWSCHED_POWER` -/
  power : Bool
  /-- `ADRENO_HWSCHED_ACTIVE` -/
  active : Bool
  bigCmdobj : Option Drawobj
  cmdList : List Drawobj
  votes : Int
  /-- The references that are held because the object was sent, taken minus dropped. -/
  held : Drawobj → Int

/-- How the calls that `hwsched_sendcmd` makes answer -/
structure SendAnswers where
  allocFails : Bool
  /-- `_abort_submission` -/
  abort : Bool
  activeCountGet : Int
  submitDrawobj : Int

structure Looks where
  /-- The timestamp of the object, or of its sync object, has been reached. -/
  reached : Drawobj → Bool
  eventsPending : Drawobj → Bool
  isBad : Drawobj → Bool
  /-- The profiling buffer has a kernel mapping. -/
  mapped : Drawobj → Bool

namespace AdrenoHwsched

variable (hw : AdrenoHwsched) (drawobj : Drawobj)

def take : AdrenoHwsched := { hw with held := update hw.held drawobj (hw.held drawobj + 1) }

def drop : AdrenoHwsched := { hw with held := update hw.held drawobj (hw.held drawobj - 1) }

def enter (activeCountGet : Int) : AdrenoHwsched × Int :=
  let hw := { hw with inflight := hw.inflight + 1 }
  if hw.inflight == 1 && !hw.power then
    if activeCountGet ≠ 0 then ({ hw with inflight := hw.inflight - 1 }, activeCountGet)
    else ({ hw with votes := hw.votes + 1, power := true }, 0)
  else (hw, 0)

def leave : AdrenoHwsched :=
  let hw := if hw.inflight = 1 then { hw with votes := hw.votes - 1, power := false } else hw
  { hw with inflight := hw.inflight - 1 }

def oversized : Bool := drawobj.type = .cmdobj && decide (drawobj.numibs > hwschedMaxDispatchNumibs)

/-- The hardware took the object.  `CMDOBJ_MARKER_EXPIRED` is looked for in command objects only, and
only markers have it. -/
def accept : AdrenoHwsched :=
  let hw := if hw.inflight = 1 then { hw with active := true } else hw
  let hw := if oversized drawobj then { hw.take drawobj with bigCmdobj := some drawobj } else hw
  let hw := hw.take drawobj
  { hw with cmdList := hw.cmdList ++ [drawobj] }

/-- `hwsched_sendcmd`, with its return value -/
def sendcmd (answers : SendAnswers) (detached : Bool) : AdrenoHwsched × Int :=
  if answers.allocFails then (hw, enomem)
  else if answers.abort then (hw, ebusy)
  else if detached then (hw, enoent)
  else let (hw, ret) := hw.enter answers.activeCountGet
    if ret ≠ 0 then (hw, ret)
    else if answers.submitDrawobj ≠ 0 then (hw.leave, answers.submitDrawobj)
    else (hw.accept drawobj, 0)

variable (looks : Looks)

/-- `adreno_hwsched_retire_cmdobj` -/
def retireCmdobj : AdrenoHwsched :=
  if drawobj.profiling && !looks.mapped drawobj then hw
  else let hw := if hw.bigCmdobj = some drawobj then { hw with bigCmdobj := none }.drop drawobj else hw
    hw.drop drawobj

def drawobjRetired : AdrenoHwsched × Bool :=
  if looks.reached drawobj = false then (hw, false)
  else if drawobj.type = .syncobj then (hw.drop drawobj, true)
  else (hw.retireCmdobj drawobj looks, true)

def drawobjReplay : AdrenoHwsched × Bool :=
  if drawobj.type = .syncobj then if looks.eventsPending drawobj then (hw, true) else (hw.drop drawobj, false)
  else if looks.reached drawobj || looks.isBad drawobj then (hw.retireCmdobj drawobj looks, false)
  else (hw, true)

/-- A walk over the objects that were sent; those that `retires` takes away leave the list. -/
def walkList (retires : AdrenoHwsched → Drawobj → AdrenoHwsched × Bool) :
    List Drawobj → AdrenoHwsched → AdrenoHwsched × List Drawobj
  | [], hw => (hw, [])
  | drawobj :: rest, hw =>
    match retires hw drawobj with
    | (hw, true) => walkList retires rest { hw with inflight := hw.inflight - 1 }
    | (hw, false) =>
      let later := walkList retires rest hw
      (later.1, drawobj :: later.2)

def retireDrawobjList : AdrenoHwsched :=
  let walked := walkList (fun hw drawobj => hw.drawobjRetired drawobj looks) hw.cmdList hw
  { walked.1 with cmdList := walked.2 }

/-- `adreno_hwsched_replay`; whether the objects are accepted again is not looked at. -/
def replay : AdrenoHwsched :=
  let walked := walkList (fun hw drawobj =>
    let replayed := hw.drawobjReplay drawobj looks
    (replayed.1, !replayed.2)) hw.cmdList hw
  { walked.1 with cmdList := walked.2 }

def powerDown : AdrenoHwsched :=
  let hw := { hw with active := false }
  if hw.power then { hw with votes := hw.votes - 1, power := false } else hw

end AdrenoHwsched

structure KgslContext where
  drawctxt : Drawctxt
  detached : Bool
  invalid : Bool
  priority : Nat

def KgslContext.isBad (context : KgslContext) : Bool := context.detached || context.invalid

/-- Where a walk over the jobs of one priority stands: the contexts considered, and the jobs left. -/
structure Walk where
  id : Nat
  seen : List Nat
  jobs : List Nat

inductive Dispatcher where
  | idle
  | walking (walk : Walk)
  /-- In `hwsched_sendcmds`, with so many objects sent -/
  | sending (walk : Walk) (context count : Nat)
  | holding (walk : Walk) (context count : Nat) (drawobj : Drawobj)
  /-- `hwsched_sendcmds` has returned. -/
  | finishing (walk : Walk) (context : Nat) (ret : Int)

structure SchedState where
  hw : AdrenoHwsched
  context : Nat → KgslContext
  /-- `hwsched->jobs` and `hwsched->requeue`, the last job added first -/
  jobs : Nat → List Nat
  requeue : Nat → List Nat
  dispatcher : Dispatcher

inductive SchedAction where
  | queueCmds (context : Nat) (batch : Batch)
  /-- `hwsched_queue_context` -/
  | queueContext (context : Nat)
  | detach (context : Nat)
  | invalidate (context : Nat)
  | complete (context eoptimestamp : Nat)
  | takeJobs (id : Nat)
  | nextJob
  /-- The part of `hwsched_sendcmds` that holds the lock of the context. -/
  | next (around : Surroundings)
  | sendcmd (answers : SendAnswers)
  | finish
  | retire (looks : Looks)
  | replay (looks : Looks)
  | powerDown

namespace SchedState

def setContext (state : SchedState) (id : Nat) (context : KgslContext) : SchedState :=
  { state with context := update state.context id context }

def setDrawctxt (state : SchedState) (id : Nat) (drawctxt : Drawctxt) : SchedState :=
  state.setContext id { state.context id with drawctxt := drawctxt }

def addJob (state : SchedState) (context : Nat) : SchedState :=
  let priority := (state.context context).priority
  { state with jobs := update state.jobs priority (context :: state.jobs priority) }

def queueCmds (state : SchedState) (id : Nat) (batch : Batch) : SchedState :=
  let context := state.context id
  if batch.admissible && !context.isBad then match context.drawctxt.queueBatch batch with
    | (drawctxt, .queued) => (state.setDrawctxt id drawctxt).addJob id
    | (drawctxt, _) => state.setDrawctxt id drawctxt
  else state

def nextJob (state : SchedState) (walk : Walk) : SchedState :=
  match walk.jobs with
  | [] => { state with dispatcher := .idle }
  | context :: rest =>
    let walk := { walk with jobs := rest }
    if (state.context context).isBad || walk.seen.contains context then { state with dispatcher := .walking walk }
    else { state with dispatcher := .sending { walk with seen := context :: walk.seen } context 0 }

def next (state : SchedState) (walk : Walk) (id count : Nat) (around : Surroundings) : SchedState :=
  let around := { around with bigCmdobj := state.hw.bigCmdobj.isSome }
  let processed := (state.context id).drawctxt.processDrawqueueGetNextDrawobj around
  let state := state.setDrawctxt id processed.ctx
  match processed.next with
  | .drawobj drawobj =>
    { state.setDrawctxt id processed.ctx.popDrawobj with
      dispatcher := .holding walk id count drawobj }
  | .again => { state with dispatcher := .finishing walk id eagain }
  | .noSpace => { state with dispatcher := .finishing walk id enospc }
  | _ => { state with dispatcher := .finishing walk id count }

def sendcmd (state : SchedState) (walk : Walk) (id count : Nat) (drawobj : Drawobj)
    (answers : SendAnswers) : SchedState :=
  let context := state.context id
  let (hw, ret) := state.hw.sendcmd drawobj answers context.detached
  let state := { state with hw := hw }
  if ret = 0 then { state with dispatcher := .sending walk id (count + 1) }
  else if ret = enoent then { state with dispatcher := .finishing walk id enoent }
  else if context.isBad then { state with dispatcher := .finishing walk id enoent }
  else { state.setDrawctxt id (context.drawctxt.requeueDrawobj drawobj) with
      dispatcher := .finishing walk id ret }

def finish (state : SchedState) (walk : Walk) (context : Nat) (ret : Int) : SchedState :=
  let state := { state with dispatcher := .walking walk }
  if ret = 0 ∨ ret = enoent then state
  else if ret = enospc then
    { state with requeue := update state.requeue walk.id (context :: state.requeue walk.id) }
  else { state with jobs := update state.jobs walk.id (context :: state.jobs walk.id) }

def step (state : SchedState) : SchedAction → Option SchedState
  | .queueCmds context batch => some (state.queueCmds context batch)
  | .queueContext context =>
    some (if (state.context context).detached then state else state.addJob context)
  | .detach context => some (state.setContext context { state.context context with detached := true })
  | .invalidate context => some (state.setContext context { state.context context with invalid := true })
  | .complete context eoptimestamp =>
    some (state.setDrawctxt context { (state.context context).drawctxt with eoptimestamp := eoptimestamp })
  | .takeJobs id =>
    match state.dispatcher with
    | .idle =>
      some { state with
        requeue := update state.requeue id []
        jobs := update state.jobs id []
        dispatcher := .walking ⟨id, [], (state.requeue id).reverse ++ (state.jobs id).reverse⟩ }
    | _ => none
  | .nextJob =>
    match state.dispatcher with
    | .walking walk => some (state.nextJob walk)
    | _ => none
  | .next around =>
    match state.dispatcher with
    | .sending walk context count => some (state.next walk context count around)
    | _ => none
  | .sendcmd answers =>
    match state.dispatcher with
    | .holding walk context count drawobj =>
      -- the hardware layer answers so only for a detached context
      if answers.submitDrawobj = enoent && !(state.context context).detached then none
      else some (state.sendcmd walk context count drawobj answers)
    | _ => none
  | .finish =>
    match state.dispatcher with
    | .finishing walk context ret => some (state.finish walk context ret)
    | _ => none
  | .retire looks => some { state with hw := state.hw.retireDrawobjList looks }
  | .replay looks => some { state with hw := state.hw.replay looks }
  | .powerDown => if state.hw.inflight = 0 then some { state with hw := state.hw.powerDown } else none

def init (priority : Nat → Nat) (userGeneratedTs : Nat → Bool) (objs : Nat → DrawobjState) : SchedState where
  hw := {
    inflight := 0
    power := false
    active := false
    bigCmdobj := none
    cmdList := []
    votes := 0
    held := fun _ => 0 }
  context id := {
    drawctxt := (QueueState.init (userGeneratedTs id) objs).ctx
    detached := false
    invalid := false
    priority := priority id }
  jobs _ := []
  requeue _ := []
  dispatcher := .idle

end SchedState

end KernelModules.Hwsched

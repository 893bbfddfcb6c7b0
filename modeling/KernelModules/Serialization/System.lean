import KernelModules.Data.Run
import KernelModules.Serialization.Queue

namespace KernelModules.Serialization

open Data

/-! # Threads in the serialization module

A thread is the stack of its functions, each stopped where it does not hold `pdev_queue_lock`.  A callback may enter
any function again.
-/

inductive Frame where
  | request (cmd : WlanSerializationCommand) (vdev : Nat)
  /-- `wlan_serialization_activate_cmd` up to the end of the callback. -/
  | activating (node : Nat)
  | activated (node : Nat) (failed : Bool)
  | dequeue (cmd : WlanSerializationCommand) (activeCmd : Bool)
  | timeout (cmd : WlanSerializationCommand)
  | timedOut (cmd : WlanSerializationCommand)
  | released
  | move (vdev : Option Nat) (blockingCmdRemoved : Bool)
  | moveOn (vdevQueueLookup : Bool)
  | cancel (request : CancelRequest) (isActive : Bool)
  | cancelCallback (request : CancelRequest) (isActive : Bool) (pnode : Option Nat)
      (qsize vdev : Nat) (isBlocking : Bool)
  | cancelled
deriving DecidableEq

def Frame.inCallback : Frame → Bool
  | .activating _ => true
  | .timedOut _ => true
  | .released => true
  | .cancelCallback .. => true
  | _ => false

def cancelSection (request : CancelRequest) (isActive : Bool) (outcome : Option CancelOutcome) :
    Option (PdevQueue × List Frame) :=
  match outcome with
  | none => none
  | some (.done queue) => some (queue, if isActive then [.cancelled] else [])
  | some (.callback queue pnode qsize vdev isBlocking) =>
    some (queue, [.cancelCallback request isActive pnode qsize vdev isBlocking])

def dequeueSection (queue : PdevQueue) (cmd : WlanSerializationCommand) (activeCmd : Bool) :
    PdevQueue × List Frame :=
  match queue.dequeueCmd cmd activeCmd with
  | (queue, none) => (queue, [])
  | (queue, some (vdev, blockingCmdRemoved)) =>
    (queue, if activeCmd then [.move vdev blockingCmdRemoved, .released] else [.released])

def moveFrames (queue : PdevQueue) (which : SerQueue) : PdevQueue × List Frame :=
  match queue.moveSection which with
  | (queue, none) => (queue, [])
  | (queue, some node) => (queue, [.activating node, .moveOn (which ≠ .pdev .pending)])

/-- The next section of a function; `fine` is the outcome of what it called: that the timer is started and the
callback succeeds, or that the timer is found. -/
def runFrame (queue : PdevQueue) (frame : Frame) (fine : Bool) : Option (PdevQueue × List Frame) :=
  match frame with
  | .request cmd vdev =>
    let (queue, _, activate) := queue.enqueueCmd cmd vdev
    some (queue, activate.toList.map .activating)
  | .activating node =>
    some (queue.setInUse node fun bits =>
      { bits with markedForActivation := false, isActive := true }, [.activated node !fine])
  | .activated node failed =>
    if failed ∨ (queue.nodes node).cmdInUse.activeMarkedForRemoval then
      some (dequeueSection queue (queue.nodes node).cmd true)
    else if (queue.nodes node).cmdInUse.activeMarkedForCancel then let request : CancelRequest :=
        ⟨some (queue.nodes node).cmd, false, none, (queue.nodes node).cmd.cmdType, false⟩
      cancelSection request true
        (queue.cancelLoop request true fine (queue.pdevList .active).count none none)
    else some (queue, [])
  | .dequeue cmd activeCmd => some (dequeueSection queue cmd activeCmd)
  | .timeout cmd =>
    match cmd.vdev with
    | none => some (queue, [])
    | some vdev =>
      some (queue, if (queue.findCmd (.vdev true vdev) cmd).isSome then [.timedOut cmd] else [])
  | .timedOut cmd => some (dequeueSection queue cmd true)
  | .released => some (queue, [])
  | .move vdev blockingCmdRemoved =>
    some (moveFrames queue (queue.moveLookup vdev blockingCmdRemoved))
  | .moveOn vdevQueueLookup =>
    if vdevQueueLookup ∨ queue.blockingCmdActive then some (queue, [])
    else some (moveFrames queue (.pdev .pending))
  | .cancel request isActive =>
    cancelSection request isActive
      (queue.cancelLoop request isActive fine (queue.pdevList (.of isActive)).count none none)
  | .cancelCallback request isActive pnode qsize vdev isBlocking =>
    let queue := queue.cancelled isActive vdev isBlocking
    cancelSection request isActive
      (if request.vdev = none ∧ ¬request.pdev then some (.done queue)
        else queue.cancelLoop request isActive fine qsize pnode pnode)
  | .cancelled =>
    some (queue, if (queue.pdevList .active).nodes = [] ∧ ¬queue.anyVdevCmdActive then [.move none false]
      else [])

inductive SerOp where
  | request (cmd : WlanSerializationCommand) (vdev : Nat)
  | removeCmd (cmd : WlanSerializationCommand)
  | cancelRequest (request : CancelRequest) (activeQueue pendingQueue : Bool)
  | activeTimeout (cmd : WlanSerializationCommand)

def SerOp.frames : SerOp → List Frame
  | .request cmd vdev => [.request cmd vdev]
  | .removeCmd cmd => [.dequeue cmd true]
  | .cancelRequest cancelled activeQueue pendingQueue =>
    (if activeQueue then [.cancel cancelled true] else []) ++
      (if pendingQueue then [.cancel cancelled false] else [])
  | .activeTimeout cmd => [.timeout cmd]

structure SerPdev where
  vdevs : List Nat
  maxActiveCmds : Nat
  maxPendingCmds : Nat
  maxVdevPendingCmds : Nat → Nat
  /-- `WLAN_SER_MAX_ACTIVE_CMDS` is the number of vdevs that a pdev may have. -/
  few : vdevs.length ≤ maxActiveCmds

def SerPdev.poolSize (pdev : SerPdev) : Nat :=
  pdev.maxActiveCmds + pdev.maxPendingCmds

def SerOp.WellFormed (pdev : SerPdev) : SerOp → Prop
  | .request cmd vdev => cmd.vdev = some vdev ∧ vdev ∈ pdev.vdevs
  | _ => True

instance {pdev : SerPdev} (action) : Decidable (SerOp.WellFormed pdev action) := by
  cases action <;> dsimp only [SerOp.WellFormed] <;> infer_instance

structure SerSystem where
  queue : PdevQueue
  threads : List (List Frame)

inductive SerEvent where
  | call (op : SerOp)
  | run (fine : Bool)

structure SerAction where
  thread : Nat
  event : SerEvent

def mayCall : List Frame → Bool
  | [] => true
  | frame :: _ => frame.inCallback

def serStep (pdev : SerPdev) (system : SerSystem) (action : SerAction) : Option SerSystem :=
  match system.threads[action.thread]? with
  | none => none
  | some stack =>
    match action.event with
    | .call op =>
      if mayCall stack ∧ op.WellFormed pdev then
        some { system with threads := system.threads.set action.thread (op.frames ++ stack) }
      else none
    | .run fine =>
      match stack with
      | [] => none
      | frame :: later =>
        (runFrame system.queue frame fine).map fun after =>
          { queue := after.1, threads := system.threads.set action.thread (after.2 ++ later) }

/-- After `wlan_serialization_pdev_create_handler`. -/
def PdevQueue.init (pdev : SerPdev) : PdevQueue :=
  { nodes := fun _ => ⟨.zeroed, .zero⟩
    pdevList := fun
      | .cmdPool => ⟨List.range pdev.poolSize, pdev.poolSize, pdev.poolSize⟩
      | .active => ⟨[], 0, pdev.maxActiveCmds⟩
      | .pending => ⟨[], 0, pdev.maxPendingCmds⟩
    vdevList := fun isActive vdev =>
      ⟨[], 0, if isActive then 1 else pdev.maxVdevPendingCmds vdev⟩
    vdevActiveCmdBitmap := ∅
    blockingCmdActive := false
    blockingCmdWaiting := 0
    queueDisable := ∅ }

def SerSystem.init (pdev : SerPdev) (threads : Nat) : SerSystem :=
  { queue := .init pdev, threads := List.replicate threads [] }

end KernelModules.Serialization

import Mathlib.Data.Finset.Basic

namespace KernelModules.Serialization

/-! # The non-scan command queues of a pdev (`wlan_serialization`)

Timers and history are left out: that a timer is not started or found is an outcome of the step that asks for it.
-/

structure WlanSerializationCommand where
  /-- `NULL` in a command that was cleared. -/
  vdev : Option Nat
  cmdId : Nat
  cmdType : Nat
  isBlocking : Bool
  isHighPriority : Bool
  queueDisable : Bool
deriving DecidableEq

def WlanSerializationCommand.zeroed : WlanSerializationCommand :=
  ⟨none, 0, 0, false, false, false⟩

/-- The bits of `cmd_in_use`. -/
structure CmdInUse where
  markedForActivation : Bool
  isActive : Bool
  activeMarkedForCancel : Bool
  activeMarkedForRemoval : Bool
  markedForMovement : Bool

def CmdInUse.zero : CmdInUse :=
  ⟨false, false, false, false, false⟩

structure WlanSerializationCommandList where
  cmd : WlanSerializationCommand
  cmdInUse : CmdInUse

/-- `count` is kept beside the links; no list gets near the end of a `u32`. -/
structure QdfList where
  nodes : List Nat
  count : Nat
  maxSize : Nat

/-- The lists linked through `pdev_node`. -/
inductive PdevList where
  | cmdPool
  | active
  | pending
deriving DecidableEq

def PdevList.of (isActive : Bool) : PdevList :=
  if isActive then .active else .pending

inductive SerQueue where
  | pdev (list : PdevList)
  | vdev (isActive : Bool) (vdev : Nat)
deriving DecidableEq

/-- `list_del` takes the node out of the list that it is in, whichever that is. -/
def QdfList.unlink (list : QdfList) (named : Bool) (node : Nat) : QdfList :=
  { list with
    nodes := list.nodes.erase node, count := if named then list.count - 1 else list.count }

inductive SerStatus where
  | pending
  | active
  | deniedListFull
  | deniedUnspecified
  | queueDisabled
deriving DecidableEq

inductive RemoveStatus where
  | failure
  | pending
  | success (cmdList : Nat)

/-- What to cancel; `NULL` and `WLAN_SER_CMD_ATTR_NONE` are `none` and `false`. -/
structure CancelRequest where
  cmd : Option WlanSerializationCommand
  pdev : Bool
  vdev : Option Nat
  cmdType : Nat
  nonblock : Bool
deriving DecidableEq

structure PdevQueue where
  nodes : Nat → WlanSerializationCommandList
  pdevList : PdevList → QdfList
  vdevList : Bool → Nat → QdfList
  vdevActiveCmdBitmap : Finset Nat
  blockingCmdActive : Bool
  blockingCmdWaiting : Nat
  queueDisable : Finset Nat

inductive CancelOutcome where
  | done (queue : PdevQueue)
  | callback (queue : PdevQueue) (pnode : Option Nat) (qsize vdev : Nat) (isBlocking : Bool)

namespace PdevQueue

def list (queue : PdevQueue) : SerQueue → QdfList
  | .pdev list => queue.pdevList list
  | .vdev isActive vdev => queue.vdevList isActive vdev

def setList (queue : PdevQueue) (which : SerQueue) (list : QdfList) : PdevQueue :=
  match which with
  | .pdev place => { queue with pdevList := Function.update queue.pdevList place list }
  | .vdev isActive vdev =>
    { queue with
      vdevList := Function.update queue.vdevList isActive
        (Function.update (queue.vdevList isActive) vdev list) }

def insertFront (queue : PdevQueue) (which : SerQueue) (node : Nat) : PdevQueue :=
  queue.setList which
    { queue.list which with
      nodes := node :: (queue.list which).nodes, count := (queue.list which).count + 1 }

def insertBack (queue : PdevQueue) (which : SerQueue) (node : Nat) : PdevQueue :=
  queue.setList which
    { queue.list which with
      nodes := (queue.list which).nodes ++ [node], count := (queue.list which).count + 1 }

/-- `qdf_list_remove_node` on a list that is not empty. -/
def removeNode (queue : PdevQueue) (which : SerQueue) (node : Nat) : PdevQueue :=
  match which with
  | .pdev place =>
    { queue with
      pdevList := fun list => QdfList.unlink (queue.pdevList list) (list = place) node }
  | .vdev isActive vdev =>
    { queue with
      vdevList := fun other owner =>
        QdfList.unlink (queue.vdevList other owner) (other = isActive ∧ owner = vdev) node }

def setCmd (queue : PdevQueue) (node : Nat) (cmd : WlanSerializationCommand) : PdevQueue :=
  { queue with nodes := Function.update queue.nodes node { queue.nodes node with cmd } }

def setInUse (queue : PdevQueue) (node : Nat) (change : CmdInUse → CmdInUse) : PdevQueue :=
  { queue with
    nodes := Function.update queue.nodes node
      { queue.nodes node with cmdInUse := change (queue.nodes node).cmdInUse } }

/-- `wlan_serialization_match_cmd_id_type` and `wlan_serialization_match_cmd_vdev`. -/
def matchCmd (queue : PdevQueue) (cmd : WlanSerializationCommand) (node : Nat) : Bool :=
  (queue.nodes node).cmd.cmdId = cmd.cmdId ∧ (queue.nodes node).cmd.cmdType = cmd.cmdType ∧
    (queue.nodes node).cmd.vdev = cmd.vdev

/-- `wlan_serialization_find_cmd` by id, type and vdev. -/
def findCmd (queue : PdevQueue) (which : SerQueue) (cmd : WlanSerializationCommand) : Option Nat :=
  (queue.list which).nodes.find? (queue.matchCmd cmd)

def anyVdevCmdActive (queue : PdevQueue) : Bool :=
  queue.vdevActiveCmdBitmap ≠ ∅

def releaseCmd (queue : PdevQueue) (node : Nat) : PdevQueue :=
  ((queue.setCmd node .zeroed).setInUse node fun _ => .zero).insertBack (.pdev .cmdPool) node

def addCmdToQueue (queue : PdevQueue) (which : SerQueue) (node : Nat) (isActive : Bool) : PdevQueue × SerStatus :=
  if (queue.list which).count = (queue.list which).maxSize then (queue, .deniedListFull)
  else (if (queue.nodes node).cmd.isHighPriority then queue.insertFront which node
      else queue.insertBack which node, if isActive then .active else .pending)

def addCmdToVdevQueue (queue : PdevQueue) (node vdev : Nat) (isActive : Bool) : PdevQueue × SerStatus :=
  let (after, status) := queue.addCmdToQueue (.vdev isActive vdev) node isActive
  (if (queue.nodes node).cmd.queueDisable then { after with queueDisable := insert vdev after.queueDisable }
    else after, status)

def removeCmdFromQueue (queue : PdevQueue) (which : SerQueue) (cmd : WlanSerializationCommand) :
    PdevQueue × RemoveStatus :=
  match queue.findCmd which cmd with
  | none => (queue, .failure)
  | some node =>
    if (queue.nodes node).cmdInUse.markedForActivation then
      (queue.setInUse node fun bits => { bits with activeMarkedForRemoval := true }, .pending)
    else (queue.removeNode which node, .success node)

/-- `vdev` is that of the node's command. -/
def addNonScanCmd (queue : PdevQueue) (node vdev : Nat) (isActive : Bool) : PdevQueue × SerStatus :=
  match queue.addCmdToVdevQueue node vdev isActive with
  | (queue, .deniedListFull) => (queue, .deniedListFull)
  | (queue, vdevStatus) =>
    match queue.addCmdToQueue (.pdev (.of isActive)) node isActive with
    | (queue, .deniedListFull) =>
      ((queue.removeCmdFromQueue (.vdev isActive vdev) (queue.nodes node).cmd).1, .deniedListFull)
    | (queue, _) =>
      if isActive then ({ queue with
            vdevActiveCmdBitmap := insert vdev queue.vdevActiveCmdBitmap
            blockingCmdActive := queue.blockingCmdActive || (queue.nodes node).cmd.isBlocking },
          vdevStatus)
      else (queue, vdevStatus)

def removeNonScanCmd (queue : PdevQueue) (cmd : WlanSerializationCommand) (vdev : Nat)
    (isActive : Bool) : PdevQueue × RemoveStatus :=
  match queue.removeCmdFromQueue (.vdev isActive vdev) cmd with
  | (queue, .success _) =>
    match queue.removeCmdFromQueue (.pdev (.of isActive)) cmd with
    | (queue, .success node) =>
      if isActive then ({ queue with
            blockingCmdActive := queue.blockingCmdActive && !(queue.nodes node).cmd.isBlocking
            vdevActiveCmdBitmap := queue.vdevActiveCmdBitmap.erase vdev },
          .success node)
      else (queue, .success node)
    | (queue, _) => (queue, .failure)
  | other => other

def isActiveNonScanCmdAllowed (queue : PdevQueue) (cmd : WlanSerializationCommand) (vdev : Nat) :
    PdevQueue × Bool :=
  if cmd.isBlocking then if queue.anyVdevCmdActive then
      ({ queue with blockingCmdWaiting := (queue.blockingCmdWaiting + 1) % 65536 }, false)
    else (queue, true)
  -- the count is read into a `u8` here
  else if queue.blockingCmdActive ∨ queue.blockingCmdWaiting % 256 ≠ 0 then (queue, false)
  else (queue, vdev ∉ queue.vdevActiveCmdBitmap)

def isActiveCmdAllowed (queue : PdevQueue) (cmd : WlanSerializationCommand) (vdev : Nat) : PdevQueue × Bool :=
  let (queue, allowed) := queue.isActiveNonScanCmdAllowed cmd vdev
  (queue, allowed && (queue.vdevList false vdev).nodes.isEmpty)

/-- The critical section of `wlan_serialization_enqueue_cmd`; the node is one to activate. -/
def enqueueCmd (queue : PdevQueue) (cmd : WlanSerializationCommand) (vdev : Nat) :
    PdevQueue × SerStatus × Option Nat :=
  if vdev ∈ queue.queueDisable then (queue, .queueDisabled, none)
  else let (queue, activeQueue) := queue.isActiveCmdAllowed cmd vdev
    if (queue.findCmd (.vdev activeQueue vdev) cmd).isSome then (queue, .deniedUnspecified, none)
    else match (queue.pdevList .cmdPool).nodes with
      | [] => (queue, .deniedListFull, none)
      | node :: _ =>
        match ((queue.removeNode (.pdev .cmdPool) node).setCmd node cmd).addNonScanCmd node vdev
            activeQueue with
        | (queue, .active) =>
          (queue.setInUse node fun bits => { bits with markedForActivation := true }, .active, some node)
        | (queue, .pending) => (queue, .pending, none)
        | (queue, status) => (queue.releaseCmd node, status, none)

/-- The critical section of `wlan_serialization_dequeue_cmd`: the vdev of the command, and whether a blocking one
stopped being active. -/
def dequeueCmd (queue : PdevQueue) (cmd : WlanSerializationCommand) (activeCmd : Bool) :
    PdevQueue × Option (Option Nat × Bool) :=
  match cmd.vdev with
  | none => (queue, none)
  | some vdev =>
    match queue.removeNonScanCmd cmd vdev activeCmd with
    | (queue, .success node) =>
      (queue.releaseCmd node, some ((queue.nodes node).cmd.vdev, activeCmd && (queue.nodes node).cmd.isBlocking))
    | (queue, _) => (queue, none)

/-- The element behind `node`. -/
def listNext : List Nat → Nat → Option Nat
  | [], _ => none
  | first :: later, node => if first = node then later.head? else listNext later node

def vdevCmdActive (queue : PdevQueue) (node : Nat) : Bool :=
  (queue.nodes node).cmd.vdev.any (· ∈ queue.vdevActiveCmdBitmap)

def moveLookup (queue : PdevQueue) (vdev : Option Nat) (blockingCmdRemoved : Bool) : SerQueue :=
  match vdev with
  | some vdev =>
    if ¬blockingCmdRemoved ∧ queue.blockingCmdWaiting = 0 then .vdev false vdev
    else .pdev .pending
  | none => .pdev .pending

/-- The loop up to the command that is to be moved; `qsize` is what is left of it behind this
round. -/
def moveLoop (which : SerQueue) : Nat → Nat → PdevQueue → PdevQueue × Option Nat
  | qsize, node, queue =>
    match which with
    | .vdev _ _ =>
      if queue.vdevCmdActive node ∨ (queue.nodes node).cmdInUse.markedForMovement then (queue, none)
      else (queue, some node)
    | .pdev _ =>
      if (queue.nodes node).cmd.isBlocking ∧ queue.anyVdevCmdActive then (queue, none)
      else match qsize with
        | 0 =>
          if queue.vdevCmdActive node then
            (queue.setInUse node fun bits => { bits with markedForMovement := false }, none)
          else (queue, some node)
        | qsize + 1 =>
          match listNext (queue.list which).nodes node with
          | none => (queue, none)
          | some next =>
            let marked :=
              queue.setInUse next fun bits => { bits with markedForMovement := true }
            if queue.vdevCmdActive node then moveLoop which qsize next
                (marked.setInUse node fun bits => { bits with markedForMovement := false })
            else (marked, some node)

def movePick (queue : PdevQueue) (which : SerQueue) : PdevQueue × Option Nat :=
  match (queue.list which).count, (queue.list which).nodes with
  | qsize + 1, node :: _ => moveLoop which qsize node queue
  | _, _ => (queue, none)

/-- The node as `wlan_ser_remove_non_scan_cmd` finds it again by its command. -/
def moveFind (queue : PdevQueue) (which : SerQueue) : Option Nat :=
  match queue.movePick which with
  | (_, none) => none
  | (picked, some node) =>
    match (queue.nodes node).cmd.vdev with
    | none => none
    | some vdev => picked.findCmd (.vdev false vdev) (queue.nodes node).cmd

def movePicked (queue : PdevQueue) (node : Nat) : PdevQueue × Option Nat :=
  match (queue.nodes node).cmd.vdev with
  | none => (queue, none)
  | some vdev =>
    match queue.removeNonScanCmd (queue.nodes node).cmd vdev false with
    | (queue, .success cmdList) =>
      match queue.addNonScanCmd cmdList vdev true with
      | (queue, .active) =>
        let queue :=
          queue.setInUse cmdList fun bits => { bits with markedForActivation := true }
        if (queue.nodes cmdList).cmd.isBlocking then
          ({ queue with blockingCmdWaiting := (queue.blockingCmdWaiting + 65535) % 65536 }, some cmdList)
        else (queue, some cmdList)
      | (queue, _) => (queue.insertBack (.pdev .cmdPool) cmdList, none)
    | (queue, _) => (queue, none)

/-- One critical section of `wlan_ser_move_non_scan_pending_to_active`. -/
def moveSection (queue : PdevQueue) (which : SerQueue) : PdevQueue × Option Nat :=
  match queue.movePick which with
  | (queue, none) => (queue, none)
  | (queue, some node) => queue.movePicked node

def wlanSerCmdNonscan : Nat := 1

/-- The comparisons that `continue` with the next node; there is one pdev. -/
def cancelSkips (queue : PdevQueue) (request : CancelRequest) (node : Nat) : Bool :=
  request.cmd.any (fun cmd => !queue.matchCmd cmd node) ||
    request.vdev.any (fun vdev => (queue.nodes node).cmd.vdev ≠ some vdev) ||
    (request.vdev.isSome && decide (wlanSerCmdNonscan < request.cmdType ∧
      (queue.nodes node).cmd.cmdType ≠ request.cmdType)) ||
    (request.nonblock && (queue.nodes node).cmd.isBlocking)

/-- `wlan_serialization_get_cmd_from_queue`: the node behind `nnode`, in its list.  Inside, `none` is the end;
outside, it is the head of another list, read as a command. -/
def getCmdFromQueue (queue : PdevQueue) (place : PdevList) (nnode : Option Nat) : Option (Option Nat) :=
  match nnode with
  | none => some (queue.pdevList place).nodes.head?
  | some node =>
    match [PdevList.cmdPool, .active, .pending].find? fun list =>
        node ∈ (queue.pdevList list).nodes with
    | none => some (some node)
    | some home =>
      match listNext (queue.pdevList home).nodes node with
      | some next => some (some next)
      | none => if home = place then some none else none

/-- The loop of `wlan_ser_cancel_non_scan_cmd`; `none` reads what is no command. -/
def cancelLoop (request : CancelRequest) (isActive timerFound : Bool) :
    Nat → Option Nat → Option Nat → PdevQueue → Option CancelOutcome
  | 0, _, _, queue => some (.done queue)
  | qsize + 1, pnode, nnode, queue =>
    if (queue.pdevList (.of isActive)).nodes = [] then some (.done queue)
    else match queue.getCmdFromQueue (.of isActive) nnode with
      | none => none
      | some none => some (.done queue)
      | some (some node) =>
        if queue.cancelSkips request node then
          cancelLoop request isActive timerFound qsize (some node) (some node) queue
        else if request.pdev ∧ (queue.nodes node).cmd.vdev = none then none
        else if isActive ∧ (queue.nodes node).cmdInUse.markedForActivation then
          cancelLoop request isActive timerFound qsize pnode (some node)
            (queue.setInUse node fun bits => { bits with activeMarkedForCancel := true })
        else if isActive ∧ ¬timerFound then some (.done queue)
        else match (queue.nodes node).cmd.vdev with
          | none => none
          | some vdev =>
            let removed := queue.removeNode (.pdev (.of isActive)) node
            if (removed.vdevList isActive vdev).nodes = [] then some (.done removed)
            else some (.callback
                ((removed.removeNode (.vdev isActive vdev) node).releaseCmd node) pnode qsize
                vdev (queue.nodes node).cmd.isBlocking)

def cancelled (queue : PdevQueue) (isActive : Bool) (vdev : Nat) (isBlocking : Bool) : PdevQueue :=
  if isActive then { queue with
      blockingCmdActive := queue.blockingCmdActive && !isBlocking
      vdevActiveCmdBitmap := queue.vdevActiveCmdBitmap.erase vdev }
  else if isBlocking then { queue with blockingCmdWaiting := (queue.blockingCmdWaiting + 65535) % 65536 }
  else queue

end PdevQueue

end KernelModules.Serialization

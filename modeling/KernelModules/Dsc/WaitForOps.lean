import KernelModules.Dsc.Moves

namespace KernelModules.Dsc

/-! # Threads inside `wait_for_ops`

A thread that waits for operations takes the lock only to look at one counter.  Its
place in the three functions is a stack of frames, and every step executes one critical
section, one wait or one loop step of the frame on top.
-/

inductive WaitFrame where
  /-- Entry of `dsc_driver_wait_for_ops`, `dsc_psoc_wait_for_ops` or
  `dsc_vdev_wait_for_ops`. -/
  | enter (node : Node)
  /-- One half of `__dsc_vdev_wait_for_uptree_ops`, which does not go down the tree. -/
  | uptree (node : Node)
  /-- Inside `qdf_wait_single_event`. -/
  | wait (node : Node)
  /-- In the loop over the children, with the child the cursor is at. -/
  | forEach (node : Node) (cursor : Option Node)
deriving DecidableEq

/-- A thread that called `wait_for_ops`; it has returned when no frame is left.  `held`
is history: the transition of `node` was active at the call, and no `trans_stop` of
`node` came since. -/
structure Waiter where
  node : Node
  frames : List WaitFrame
  held : Bool
deriving DecidableEq

structure WaitSystem where
  tree : DscTree := {}
  waiters : Nat → Option Waiter := fun _ => none

inductive WaitAction where
  | call (action : Action)
  | waitForOps (thread : Nat) (node : Node)
  | waitForUptreeOps (thread psoc vdev : Nat)
  | advance (thread : Nat)

def dscWaitCheck (tree : DscTree) (node : Node) : Bool × DscTree :=
  if 0 < (tree.ops node).count then (true, tree.setOps node { tree.ops node with event := false })
  else (false, tree)

def dscWaitForOpsCheck (tree : DscTree) : Node → Bool × DscTree
  | .driver => dscWaitCheck (dscAssert tree (!dscDriverCanOp tree) .cannotOp) .driver
  | node => dscWaitCheck tree node

/-- The children that `qdf_list_for_each` still visits after the cursor. -/
def laterChildren (tree : DscTree) (node : Node) : Option Node → List Node
  | none => tree.children node
  | some cursor => ((tree.children node).dropWhile (· != cursor)).tail

/-- One step of a waiting thread; `none` while its event is not set. -/
def waitStep (tree : DscTree) : List WaitFrame → Option (DscTree × List WaitFrame)
  | [] => none
  | .enter node :: rest =>
    match dscWaitForOpsCheck tree node with
    | (true, tree) => some (tree, .wait node :: .forEach node none :: rest)
    | (false, tree) => some (tree, .forEach node none :: rest)
  | .uptree node :: rest =>
    match dscWaitCheck tree node with
    | (true, tree) => some (tree, .wait node :: rest)
    | (false, tree) => some (tree, rest)
  | .wait node :: rest => if (tree.ops node).event then some (tree, rest) else none
  | .forEach node cursor :: rest =>
    match laterChildren tree node cursor with
    | [] => some (tree, rest)
    | child :: _ => some (tree, .enter child :: .forEach node (some child) :: rest)

namespace WaitSystem

def free (system : WaitSystem) (thread : Nat) : Prop :=
  ∀ waiter ∈ system.waiters thread, waiter.frames = []

instance (system : WaitSystem) (thread : Nat) : Decidable (system.free thread) :=
  inferInstanceAs (Decidable (∀ waiter ∈ system.waiters thread, waiter.frames = []))

def setWaiter (system : WaitSystem) (thread : Nat) (waiter : Waiter) : WaitSystem :=
  { system with waiters := Function.update system.waiters thread (some waiter) }

end WaitSystem

def Waiter.after (action : Action) (waiter : Waiter) : Waiter :=
  { waiter with held := waiter.held && action != .transStop waiter.node }

def waitSystemStep (system : WaitSystem) : WaitAction → Option WaitSystem
  | .call action =>
    (step system.tree action).map fun tree =>
      { tree, waiters := fun thread => (system.waiters thread).map (Waiter.after action) }
  | .waitForOps thread node =>
    if system.free thread ∧ system.tree.Attached node then some (system.setWaiter thread
        { node, frames := [.enter node], held := system.tree.Active node })
    else none
  | .waitForUptreeOps thread psoc vdev =>
    if system.free thread ∧ system.tree.Attached (.vdev psoc vdev) then some (system.setWaiter thread
        { node := .vdev psoc vdev, frames := [.uptree (.psoc psoc), .uptree .driver], held := false })
    else none
  | .advance thread =>
    match system.waiters thread with
    | none => none
    | some waiter =>
      (waitStep system.tree waiter.frames).map fun (tree, frames) =>
        { tree, waiters :=
            Function.update system.waiters thread (some { waiter with frames }) }

/-- `op_stop` ends an operation that was admitted, and nodes are not destroyed under the
threads that walk the lists. -/
def OpsBalanced (system : WaitSystem) : WaitAction → Prop
  | .call (.opStop node _) => (system.tree.ops node).count ≠ 0
  | .call (.destroyPsoc _) => False
  | .call (.destroyVdev _ _) => False
  | _ => True

instance (system : WaitSystem) : (action : WaitAction) → Decidable (OpsBalanced system action)
  | .call (.opStop node _) => inferInstanceAs (Decidable ((system.tree.ops node).count ≠ 0))
  | .call (.destroyPsoc _) | .call (.destroyVdev _ _) => .isFalse id
  | .call (.transStart ..) | .call (.transStartWait ..) | .call (.transStop ..)
  | .call (.opStart ..) | .call (.createPsoc ..) | .call (.createVdev ..) | .call (.flush ..)
  | .waitForOps .. | .waitForUptreeOps .. | .advance .. => .isTrue trivial

end KernelModules.Dsc

import Mathlib.Logic.Function.Iterate

namespace KernelModules.Dsc

/-! # The dsc tree and its transition containers

Nodes are addressed by their path, and the tree is a store from addresses to the fields of the C structures;
children keep the order in which they were attached.  A function here is one critical section of the driver's lock.
-/

inductive QdfStatus where
  | success
  | eInval
  | eAgain
  | eBusy
  | eAborted
  | eNomem

inductive Node where
  | driver
  | psoc (psoc : Nat)
  | vdev (psoc vdev : Nat)
deriving DecidableEq

/-- `struct dsc_tran`.  The ticket counts the transitions queued before it.  Its `abort` and `event` are the two
ways of leaving recorded in the log. -/
structure DscTran where
  ticket : Nat
  desc : String

structure DscTrans where
  activeDesc : Option String := none
  queue : List DscTran := []

/-- `struct dsc_ops`.  `event` is the latch of the `qdf_event_t`. -/
structure DscOps where
  count : UInt32 := 0
  event : Bool := false

/-- The conditions `dsc_assert` checks. -/
inductive DscAssert where
  | argument
  | transStart
  | transStop
  | opsRemove
  | opsDeinit
  | cannotOp
  | noChildren

inductive Event where
  | queued (node : Node) (ticket : Nat)
  | started (node : Node)
  | triggered (node : Node) (ticket : Nat)
  | stopped (node : Node)
  | aborted (node : Node) (ticket : Nat)
  | admitted (node : Node)
deriving DecidableEq

/-- The driver structure with everything below it; `tickets`, `log` and `failedAsserts` are history. -/
structure DscTree where
  psocs : List Nat := []
  vdevs : Nat → List Nat := fun _ => []
  trans : Node → DscTrans := fun _ => {}
  ops : Node → DscOps := fun _ => {}
  tickets : Nat := 0
  log : List Event := []
  failedAsserts : List DscAssert := []

namespace DscTree

@[simp] def setTrans (tree : DscTree) (node : Node) (trans : DscTrans) : DscTree :=
  { tree with trans := Function.update tree.trans node trans }

@[simp] def setOps (tree : DscTree) (node : Node) (ops : DscOps) : DscTree :=
  { tree with ops := Function.update tree.ops node ops }

@[simp] def note (tree : DscTree) (event : Event) : DscTree :=
  { tree with log := tree.log ++ [event] }

def Attached (tree : DscTree) : Node → Prop
  | .driver => True
  | .psoc psoc => psoc ∈ tree.psocs
  | .vdev psoc vdev => psoc ∈ tree.psocs ∧ vdev ∈ tree.vdevs psoc

instance (tree : DscTree) (node : Node) : Decidable (tree.Attached node) := by
  cases node <;> dsimp only [Attached] <;> infer_instance

def children (tree : DscTree) : Node → List Node
  | .driver => tree.psocs.map .psoc
  | .psoc psoc => (tree.vdevs psoc).map (.vdev psoc)
  | .vdev _ _ => []

end DscTree

/-- `below.Below above`: a proper descendant. -/
inductive Node.Below : Node → Node → Prop where
  | psocDriver (psoc : Nat) : Below (.psoc psoc) .driver
  | vdevDriver (psoc vdev : Nat) : Below (.vdev psoc vdev) .driver
  | vdevPsoc (psoc vdev : Nat) : Below (.vdev psoc vdev) (.psoc psoc)

def Node.Related (node other : Node) : Prop :=
  node = other ∨ node.Below other ∨ other.Below node

/-- `dsc_assert`: a failed assertion is reported and execution goes on. -/
@[simp] def dscAssert (tree : DscTree) (cond : Bool) (site : DscAssert) : DscTree :=
  { tree with
    failedAsserts := if cond then tree.failedAsserts else tree.failedAsserts ++ [site] }

/-- `__dsc_ops_insert`.  Debug builds allocate a record for the operation. -/
def dscOpsInsert (tree : DscTree) (node : Node) (allocated : Bool) : QdfStatus × DscTree :=
  if !allocated then (.eNomem, tree)
  else (.success, (tree.setOps node
      { tree.ops node with count := (tree.ops node).count + 1 }).note (.admitted node))

/-- `__dsc_ops_remove`, with the `qdf_event_set` of its three callers when the last operation left. -/
def dscOpsRemove (tree : DscTree) (node : Node) : DscTree :=
  let count := (tree.ops node).count - 1
  (dscAssert tree (0 < (tree.ops node).count) .opsRemove).setOps node
    { count, event := (tree.ops node).event || count == 0 }

def dscTransActive (trans : DscTrans) : Bool :=
  trans.activeDesc.isSome

def dscTransQueued (trans : DscTrans) : Bool :=
  !trans.queue.isEmpty

def dscTransActiveOrQueued (trans : DscTrans) : Bool :=
  dscTransActive trans || dscTransQueued trans

def dscTransStart (tree : DscTree) (node : Node) (desc : String) : DscTree :=
  (dscAssert tree (!dscTransActive (tree.trans node)) .transStart).setTrans node
    { tree.trans node with activeDesc := some desc }

def dscTransStop (tree : DscTree) (node : Node) : DscTree :=
  ((dscAssert tree (dscTransActive (tree.trans node)) .transStop).setTrans node
    { tree.trans node with activeDesc := none }).note (.stopped node)

def dscTransQueue (tree : DscTree) (node : Node) (desc : String) : DscTree :=
  let tran : DscTran := { ticket := tree.tickets, desc }
  { (tree.setTrans node
      { tree.trans node with queue := (tree.trans node).queue ++ [tran] }).note
      (.queued node tran.ticket) with
    tickets := tree.tickets + 1 }

def dscTransDequeue (tree : DscTree) (node : Node) : Option (DscTran × DscTree) :=
  match (tree.trans node).queue with
  | [] => none
  | tran :: rest => some (tran, tree.setTrans node { tree.trans node with queue := rest })

def dscTransAbort (tree : DscTree) (node : Node) : Bool × DscTree :=
  match dscTransDequeue tree node with
  | none => (false, tree)
  | some (tran, tree) => (true, tree.note (.aborted node tran.ticket))

/-- The loop `while (__dsc_trans_abort(trans));` of the destroy functions: one iteration for each waiter. -/
def dscTransFlush (tree : DscTree) (node : Node) : DscTree :=
  (fun flushing => (dscTransAbort flushing node).2)^[(tree.trans node).queue.length] tree

def dscTransTrigger (tree : DscTree) (node : Node) : Bool × DscTree :=
  match dscTransDequeue tree node with
  | none => (false, tree)
  | some (tran, tree) =>
    (true, (dscTransStart tree node tran.desc).note (.triggered node tran.ticket))

end KernelModules.Dsc

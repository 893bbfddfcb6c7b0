import KernelModules.Dsc.Tree

namespace KernelModules.Dsc

/-! # The driver node (`wlan_dsc_driver.c`)

A missing description or function name is the null pointer the entry points assert against.  Functions in `_wait`
answer `none` while they block.
-/

def dscDriverTransActiveDownTree (tree : DscTree) : Bool :=
  tree.psocs.any fun psoc =>
    dscTransActive (tree.trans (.psoc psoc)) ||
      (tree.vdevs psoc).any fun vdev => dscTransActive (tree.trans (.vdev psoc vdev))

def dscDriverCanTrans (tree : DscTree) : Bool :=
  !dscTransActiveOrQueued (tree.trans .driver) && !dscDriverTransActiveDownTree tree

def dscDriverCanOp (tree : DscTree) : Bool :=
  dscDriverCanTrans tree

def dscDriverCanTrigger (tree : DscTree) : Bool :=
  !dscTransActive (tree.trans .driver) && !dscDriverTransActiveDownTree tree

def dscDriverTransStartNolock (tree : DscTree) (desc : String) : QdfStatus × DscTree :=
  if !dscDriverCanTrans tree then (.eAgain, tree)
  else (.success, (dscTransStart tree .driver desc).note (.started .driver))

def dscDriverTransStart (tree : DscTree) : Option String → QdfStatus × DscTree
  | none => (.eInval, dscAssert tree false .argument)
  | some desc => dscDriverTransStartNolock tree desc

def dscDriverTransStartWait (tree : DscTree) : Option String → Option QdfStatus × DscTree
  | none => (some .eInval, dscAssert tree false .argument)
  | some desc =>
    match dscDriverTransStartNolock tree desc with
    | (.success, started) => (some .success, started)
    | _ => (none, dscTransQueue tree .driver desc)

def dscDriverTransTriggerChecked (tree : DscTree) : Bool × DscTree :=
  if !dscTransQueued (tree.trans .driver) then (false, tree)
  -- handled, but don't trigger; we need to wait for more children
  else if !dscDriverCanTrigger tree then (true, tree)
  else dscTransTrigger tree .driver

def dscDriverTriggerTrans (tree : DscTree) : DscTree :=
  match dscTransTrigger tree .driver with
  | (true, tree) => tree
  | (false, tree) =>
    tree.psocs.foldl (fun tree psoc =>
      match dscTransTrigger tree (.psoc psoc) with
      | (true, tree) => tree
      | (false, tree) =>
        (tree.vdevs psoc).foldl (fun tree vdev =>
          (dscTransTrigger tree (.vdev psoc vdev)).2) tree) tree

def dscDriverTransStop (tree : DscTree) : DscTree :=
  dscDriverTriggerTrans (dscTransStop tree .driver)

def dscDriverOpStart (tree : DscTree) (allocated : Bool) : Option String → QdfStatus × DscTree
  | none => (.eInval, dscAssert tree false .argument)
  | some _ =>
    if !dscDriverCanOp tree then (.eAgain, tree)
    else dscOpsInsert tree .driver allocated

def dscDriverOpStop (tree : DscTree) : Option String → DscTree
  | none => dscAssert tree false .argument
  | some _ => dscOpsRemove tree .driver

def dscPsocTransActiveDownTree (tree : DscTree) (psoc : Nat) : Bool :=
  (tree.vdevs psoc).any fun vdev => dscTransActive (tree.trans (.vdev psoc vdev))

def dscPsocCanTrans (tree : DscTree) (psoc : Nat) : QdfStatus :=
  if dscTransActiveOrQueued (tree.trans .driver) then .eInval
  else if dscTransActiveOrQueued (tree.trans (.psoc psoc)) ||
      dscPsocTransActiveDownTree tree psoc then .eAgain
  else .success

def dscPsocCanOp (tree : DscTree) (psoc : Nat) : QdfStatus :=
  dscPsocCanTrans tree psoc

def dscPsocCanTrigger (tree : DscTree) (psoc : Nat) : Bool :=
  !dscTransActiveOrQueued (tree.trans .driver) &&
    !dscTransActive (tree.trans (.psoc psoc)) &&
    !dscPsocTransActiveDownTree tree psoc

def dscPsocTransStartNolock (tree : DscTree) (psoc : Nat) (desc : String) : QdfStatus × DscTree :=
  match dscPsocCanTrans tree psoc with
  | .success =>
    (.success, (dscTransStart tree (.psoc psoc) desc).note (.started (.psoc psoc)))
  | status => (status, tree)

def dscPsocTransStart (tree : DscTree) (psoc : Nat) : Option String → QdfStatus × DscTree
  | none => (.eInval, dscAssert tree false .argument)
  | some desc => dscPsocTransStartNolock tree psoc desc

def dscPsocTransStartWait (tree : DscTree) (psoc : Nat) : Option String → Option QdfStatus × DscTree
  | none => (some .eInval, dscAssert tree false .argument)
  | some desc =>
    match dscPsocTransStartNolock tree psoc desc with
    | (.success, started) => (some .success, started)
    | (.eInval, tree) => (some .eInval, tree)
    | _ => (none, dscTransQueue tree (.psoc psoc) desc)

def dscPsocTransTriggerChecked (tree : DscTree) (psoc : Nat) : Bool × DscTree :=
  if (tree.trans (.psoc psoc)).queue.isEmpty then (false, tree)
  -- handled, but don't trigger; we need to wait for more children
  else if !dscPsocCanTrigger tree psoc then (true, tree)
  else dscTransTrigger tree (.psoc psoc)

def dscPsocTriggerTrans (tree : DscTree) (psoc : Nat) : DscTree :=
  match dscDriverTransTriggerChecked tree with
  | (true, tree) => tree
  | (false, tree) =>
    match dscTransTrigger tree (.psoc psoc) with
    | (true, tree) => tree
    | (false, tree) =>
      (tree.vdevs psoc).foldl (fun tree vdev =>
        (dscTransTrigger tree (.vdev psoc vdev)).2) tree

def dscPsocTransStop (tree : DscTree) (psoc : Nat) : DscTree :=
  dscPsocTriggerTrans (dscTransStop tree (.psoc psoc)) psoc

def dscPsocOpStart (tree : DscTree) (psoc : Nat) (allocated : Bool) : Option String → QdfStatus × DscTree
  | none => (.eInval, dscAssert tree false .argument)
  | some _ =>
    match dscPsocCanOp tree psoc with
    | .success => dscOpsInsert tree (.psoc psoc) allocated
    | status => (status, tree)

def dscPsocOpStop (tree : DscTree) (psoc : Nat) : Option String → DscTree
  | none => dscAssert tree false .argument
  | some _ => dscOpsRemove tree (.psoc psoc)

def dscPsocCreate (tree : DscTree) (psoc : Nat) (allocated : Bool) : QdfStatus × DscTree :=
  if !allocated then (.eNomem, tree)
  else (.success, { (tree.setTrans (.psoc psoc) {}).setOps (.psoc psoc) {} with
        psocs := tree.psocs ++ [psoc]
        vdevs := Function.update tree.vdevs psoc [] })

def dscPsocDestroy (tree : DscTree) (psoc : Nat) : DscTree :=
  let flushed := dscTransFlush (dscAssert tree (tree.vdevs psoc).isEmpty .noChildren) (.psoc psoc)
  { ((dscAssert flushed ((flushed.ops (.psoc psoc)).count == 0) .opsDeinit).setTrans
      (.psoc psoc) {}).setOps (.psoc psoc) {} with
    psocs := flushed.psocs.erase psoc }

/-- What `qdf_is_recovering` and `qdf_is_driver_unloading` answer during one call. -/
structure Platform where
  recovering : Bool := false
  unloading : Bool := false
deriving DecidableEq

def dscVdevCanTrans (tree : DscTree) (platform : Platform) (psoc vdev : Nat) : QdfStatus :=
  if dscTransActiveOrQueued (tree.trans .driver) then .eInval
  else if platform.recovering then .eInval
  else if dscTransActiveOrQueued (tree.trans (.psoc psoc)) then
    -- psoc idle shutdown waits in the queue, except on the way to unload
    if platform.unloading then .eInval else .eBusy
  else if dscTransActiveOrQueued (tree.trans (.vdev psoc vdev)) then .eBusy
  else .success

def dscVdevCanOp (tree : DscTree) (platform : Platform) (psoc vdev : Nat) : QdfStatus :=
  dscVdevCanTrans tree platform psoc vdev

def dscVdevTransStartNolock (tree : DscTree) (platform : Platform) (psoc vdev : Nat)
    (desc : String) : QdfStatus × DscTree :=
  match dscVdevCanTrans tree platform psoc vdev with
  | .success =>
    (.success, (dscTransStart tree (.vdev psoc vdev) desc).note (.started (.vdev psoc vdev)))
  | status => (status, tree)

def dscVdevTransStart (tree : DscTree) (platform : Platform) (psoc vdev : Nat) : Option String → QdfStatus × DscTree
  | none => (.eInval, dscAssert tree false .argument)
  | some desc => dscVdevTransStartNolock tree platform psoc vdev desc

def dscVdevTransStartWait (tree : DscTree) (platform : Platform) (psoc vdev : Nat) :
    Option String → Option QdfStatus × DscTree
  | none => (some .eInval, dscAssert tree false .argument)
  | some desc =>
    match dscVdevTransStartNolock tree platform psoc vdev desc with
    | (.success, started) => (some .success, started)
    | (.eInval, tree) => (some .eInval, tree)
    | _ => (none, dscTransQueue tree (.vdev psoc vdev) desc)

def dscVdevTriggerTrans (tree : DscTree) (psoc vdev : Nat) : DscTree :=
  match dscDriverTransTriggerChecked tree with
  | (true, tree) => tree
  | (false, tree) =>
    match dscPsocTransTriggerChecked tree psoc with
    | (true, tree) => tree
    | (false, tree) => (dscTransTrigger tree (.vdev psoc vdev)).2

def dscVdevTransStop (tree : DscTree) (psoc vdev : Nat) : DscTree :=
  dscVdevTriggerTrans (dscTransStop tree (.vdev psoc vdev)) psoc vdev

def dscVdevOpStart (tree : DscTree) (platform : Platform) (psoc vdev : Nat)
    (allocated : Bool) : Option String → QdfStatus × DscTree
  | none => (.eInval, dscAssert tree false .argument)
  | some _ =>
    match dscVdevCanOp tree platform psoc vdev with
    | .success => dscOpsInsert tree (.vdev psoc vdev) allocated
    | status => (status, tree)

def dscVdevOpStop (tree : DscTree) (psoc vdev : Nat) : Option String → DscTree
  | none => dscAssert tree false .argument
  | some _ => dscOpsRemove tree (.vdev psoc vdev)

def dscVdevCreate (tree : DscTree) (psoc vdev : Nat) (allocated : Bool) : QdfStatus × DscTree :=
  if !allocated then (.eNomem, tree)
  else (.success, { (tree.setTrans (.vdev psoc vdev) {}).setOps (.vdev psoc vdev) {} with
        vdevs := Function.update tree.vdevs psoc (tree.vdevs psoc ++ [vdev]) })

def dscVdevDestroy (tree : DscTree) (psoc vdev : Nat) : DscTree :=
  let flushed := dscTransFlush tree (.vdev psoc vdev)
  { ((dscAssert flushed ((flushed.ops (.vdev psoc vdev)).count == 0) .opsDeinit).setTrans
      (.vdev psoc vdev) {}).setOps (.vdev psoc vdev) {} with
    vdevs := Function.update flushed.vdevs psoc ((flushed.vdevs psoc).erase vdev) }

/-! # Threads calling into the tree

The driver lock makes each call one step.  Calls name existing nodes, a created node gets an unused address, and a
destroyed psoc has no vdevs left.
-/

inductive Action where
  | transStart (node : Node) (desc : Option String) (platform : Platform)
  | transStartWait (node : Node) (desc : Option String) (platform : Platform)
  | transStop (node : Node)
  | opStart (node : Node) (func : Option String) (platform : Platform) (allocated : Bool)
  | opStop (node : Node) (func : Option String)
  | createPsoc (psoc : Nat) (allocated : Bool)
  | createVdev (psoc vdev : Nat) (allocated : Bool)
  /-- One iteration of the flush loop of a destroy function, which runs without the lock.
  The driver itself lasts as long as the run. -/
  | flush (node : Node)
  | destroyPsoc (psoc : Nat)
  | destroyVdev (psoc vdev : Nat)
deriving DecidableEq

def transStart (tree : DscTree) (platform : Platform) (desc : Option String) : Node → QdfStatus × DscTree
  | .driver => dscDriverTransStart tree desc
  | .psoc psoc => dscPsocTransStart tree psoc desc
  | .vdev psoc vdev => dscVdevTransStart tree platform psoc vdev desc

def transStartWait (tree : DscTree) (platform : Platform) (desc : Option String) : Node → Option QdfStatus × DscTree
  | .driver => dscDriverTransStartWait tree desc
  | .psoc psoc => dscPsocTransStartWait tree psoc desc
  | .vdev psoc vdev => dscVdevTransStartWait tree platform psoc vdev desc

def transStop (tree : DscTree) : Node → DscTree
  | .driver => dscDriverTransStop tree
  | .psoc psoc => dscPsocTransStop tree psoc
  | .vdev psoc vdev => dscVdevTransStop tree psoc vdev

def opStart (tree : DscTree) (platform : Platform) (allocated : Bool) (func : Option String) :
    Node → QdfStatus × DscTree
  | .driver => dscDriverOpStart tree allocated func
  | .psoc psoc => dscPsocOpStart tree psoc allocated func
  | .vdev psoc vdev => dscVdevOpStart tree platform psoc vdev allocated func

def opStop (tree : DscTree) (func : Option String) : Node → DscTree
  | .driver => dscDriverOpStop tree func
  | .psoc psoc => dscPsocOpStop tree psoc func
  | .vdev psoc vdev => dscVdevOpStop tree psoc vdev func

def step (tree : DscTree) : Action → Option DscTree
  | .transStart node desc platform =>
    if tree.Attached node then some (transStart tree platform desc node).2 else none
  | .transStartWait node desc platform =>
    if tree.Attached node then some (transStartWait tree platform desc node).2 else none
  | .transStop node => if tree.Attached node then some (transStop tree node) else none
  | .opStart node func platform allocated =>
    if tree.Attached node then some (opStart tree platform allocated func node).2 else none
  | .opStop node func =>
    if tree.Attached node then some (opStop tree func node) else none
  | .createPsoc psoc allocated =>
    if psoc ∈ tree.psocs then none else some (dscPsocCreate tree psoc allocated).2
  | .createVdev psoc vdev allocated =>
    if psoc ∈ tree.psocs ∧ vdev ∉ tree.vdevs psoc then some (dscVdevCreate tree psoc vdev allocated).2
    else none
  | .flush node =>
    if tree.Attached node ∧ node ≠ .driver then some (dscTransAbort tree node).2 else none
  | .destroyPsoc psoc =>
    if psoc ∈ tree.psocs ∧ tree.vdevs psoc = [] then some (dscPsocDestroy tree psoc)
    else none
  | .destroyVdev psoc vdev =>
    if psoc ∈ tree.psocs ∧ vdev ∈ tree.vdevs psoc then some (dscVdevDestroy tree psoc vdev)
    else none

/-- A driver as `dsc_driver_create` leaves it. -/
def created : DscTree := {}

end KernelModules.Dsc

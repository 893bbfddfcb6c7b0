import KernelModules.Data.Run
import Mathlib.Data.BitVec
import Mathlib.Data.List.Range

namespace KernelModules.Synx

open Function

/-! # Global table

The entries that all cores share, the bitmap that allocates them, and how one is signaled.  Every call runs as a
whole.
-/

def synxGlobalMaxObjs : Nat := 4096

def synxGlobalMaxParents : Nat := 4

def synxStateActive : Nat := 1

def synxStateSignaledSuccess : Nat := 2

def synxStateSignaledSsr : Nat := 6

def synxStateSignaledMax : Nat := 64

inductive SynxError where
  | invalid
  | nomem
  | noent
  | already

inductive SynxCoreId where
  | apss
  | nsp
  | eva
  | iris
  | icp

def SynxCoreId.toNat : SynxCoreId → Nat
  | .apss => 0
  | .nsp => 1
  | .eva => 2
  | .iris => 3
  | .icp => 4

def SynxCoreId.bit (core : SynxCoreId) : BitVec 16 := 1#16 <<< core.toNat

structure SynxGlobalCoredata where
  status : Nat
  handle : Nat
  refcount : BitVec 16
  numChild : BitVec 16
  subscribers : BitVec 16
  waiters : BitVec 16
  parents : List Nat

/-- An entry after `memset`. -/
def SynxGlobalCoredata.zero : SynxGlobalCoredata where
  status := 0
  handle := 0
  refcount := 0
  numChild := 0
  subscribers := 0
  waiters := 0
  parents := List.replicate synxGlobalMaxParents 0

/-- The test of `synx_global_get_status`: a status is set and no child is pending. -/
def SynxGlobalCoredata.completed (entry : SynxGlobalCoredata) : Bool :=
  decide (entry.status ≠ synxStateActive) && decide (entry.numChild = 0)

/-- `struct synx_shared_mem`; the log of the entries when they were cleared is for the proofs. -/
structure SynxSharedMem where
  bitmap : Nat → Bool
  table : Nat → SynxGlobalCoredata
  cleared : Nat → List SynxGlobalCoredata

def SynxSharedMem.put (mem : SynxSharedMem) (idx : Nat) (entry : SynxGlobalCoredata) : SynxSharedMem :=
  { mem with table := Function.update mem.table idx entry }

/-- `memset` of an entry. -/
def SynxSharedMem.memset (mem : SynxSharedMem) (idx : Nat) (entry : SynxGlobalCoredata) : SynxSharedMem :=
  { mem with
    table := Function.update mem.table idx .zero
    cleared := Function.update mem.cleared idx (mem.cleared idx ++ [entry]) }

/-- `ipclite_global_test_and_clear_bit`. -/
def SynxSharedMem.clearBit (mem : SynxSharedMem) (idx : Nat) : SynxSharedMem :=
  { mem with bitmap := Function.update mem.bitmap idx false }

/-- `synx_global_mem_init` and `synx_gmem_init`: the zero index is taken. -/
def SynxSharedMem.init : SynxSharedMem where
  bitmap := fun idx => decide (idx = 0)
  table := fun _ => .zero
  cleared := fun _ => []

def synxIsValidIdx (idx : Nat) : Bool := decide (idx < synxGlobalMaxObjs)

/-- `synx_global_alloc_index`: the first index whose bit is clear. -/
def synxGlobalAllocIndex (mem : SynxSharedMem) : Option (SynxSharedMem × Nat) :=
  ((List.range synxGlobalMaxObjs).find? fun idx => !mem.bitmap idx).map fun idx =>
    ({ mem with bitmap := Function.update mem.bitmap idx true }, idx)

/-- `synx_encode_handle` for a global handle of this core. -/
def synxEncodeHandle (idx : Nat) : Nat := 1048576 + idx

def synxGlobalInitCoredata (mem : SynxSharedMem) (idx : Nat) : SynxSharedMem × Option SynxError :=
  let entry := mem.table idx
  if entry.status ≠ 0 ∨ entry.refcount ≠ 0 ∨ entry.subscribers ≠ 0 ∨ entry.handle ≠ 0 ∨
      entry.parents.headD 0 ≠ 0 then (mem, some .invalid)
  else (mem.put idx { SynxGlobalCoredata.zero with
      status := synxStateActive
      refcount := 1
      subscribers := SynxCoreId.apss.bit
      handle := synxEncodeHandle idx }, none)

/-- `synx_alloc_global_handle`: an index is allocated with its entry. -/
def synxAllocGlobalHandle (mem : SynxSharedMem) : SynxSharedMem × Except SynxError Nat :=
  match synxGlobalAllocIndex mem with
  | none => (mem, .error .nomem)
  | some (allocated, idx) =>
    match synxGlobalInitCoredata allocated idx with
    | (inited, some error) => (inited, .error error)
    | (inited, none) => (inited, .ok idx)

def SynxSharedMem.dropRef (mem : SynxSharedMem) (idx : Nat) (entry : SynxGlobalCoredata) : SynxSharedMem :=
  let dropped := { entry with refcount := entry.refcount - 1 }
  if dropped.refcount = 0 then (mem.memset idx dropped).clearBit idx else mem.put idx dropped

def SynxGlobalCoredata.childStatus (entry : SynxGlobalCoredata) (status : Nat) : Nat :=
  if entry.status = synxStateActive ∨
      (synxStateSignaledSuccess < status ∧ status ≤ synxStateSignaledMax) then status
  else entry.status

/-- The part of `synx_global_update_status_core` under the lock, with the parents to notify. -/
def synxGlobalUpdateEntry (mem : SynxSharedMem) (idx status : Nat) : SynxSharedMem × List Nat :=
  let entry := mem.table idx
  if entry.numChild ≠ 0 then let notified := { entry with
      numChild := entry.numChild - 1
      status := entry.childStatus status }
    if notified.numChild = 0 then (mem.dropRef idx { notified with waiters := 0 }, entry.parents)
    else (mem.put idx notified, [])
  else (mem.put idx { entry with status := status, waiters := 0 }, entry.parents)

/-- `synx_global_update_status_core`, as deep as `depth` allows: an entry notifies its parents. -/
def synxGlobalUpdateStatusCore (status : Nat) : Nat → SynxSharedMem → Nat → Option SynxSharedMem
  | 0, _, _ => none
  | depth + 1, mem, idx =>
    let (updated, parents) := synxGlobalUpdateEntry mem idx status
    parents.foldlM (fun mem parent =>
      if parent = 0 then some mem else synxGlobalUpdateStatusCore status depth mem parent) updated

def updateDepth : Nat := synxGlobalMaxObjs + 2

/-- For a composite entry `rc` is still what the lock has returned. -/
def synxGlobalUpdateStatus (mem : SynxSharedMem) (idx status : Nat) : Option (SynxSharedMem × Option SynxError) :=
  if !synxIsValidIdx idx || decide (status ≤ synxStateActive) then some (mem, some .invalid)
  else if (mem.table idx).numChild ≠ 0 then some (mem, none)
  else if (mem.table idx).status ≠ synxStateActive then some (mem, some .already)
  else (synxGlobalUpdateStatusCore status updateDepth mem idx).map fun mem => (mem, none)

def synxGlobalGetRef (mem : SynxSharedMem) (idx : Nat) : SynxSharedMem × Option SynxError :=
  if !synxIsValidIdx idx then (mem, some .invalid)
  else let entry := mem.table idx
    if entry.handle ≠ 0 ∧ entry.refcount ≠ 0 then (mem.put idx { entry with refcount := entry.refcount + 1 }, none)
    else (mem, some .noent)

def synxGlobalPutRef (mem : SynxSharedMem) (idx : Nat) : SynxSharedMem :=
  if !synxIsValidIdx idx then mem else mem.dropRef idx (mem.table idx)

def synxGlobalSetSubscribedCore (mem : SynxSharedMem) (idx : Nat) (core : SynxCoreId) : SynxSharedMem :=
  if !synxIsValidIdx idx then mem
  else mem.put idx { mem.table idx with subscribers := (mem.table idx).subscribers ||| core.bit }

def synxGlobalClearSubscribedCore (mem : SynxSharedMem) (idx : Nat) (core : SynxCoreId) : SynxSharedMem :=
  if !synxIsValidIdx idx then mem
  else mem.put idx { mem.table idx with subscribers := (mem.table idx).subscribers &&& ~~~core.bit }

def synxGlobalTestStatusSetWait (mem : SynxSharedMem) (idx : Nat) (core : SynxCoreId) : SynxSharedMem :=
  if !synxIsValidIdx idx then mem
  else let entry := mem.table idx
    if entry.status = synxStateActive ∨ entry.numChild ≠ 0 then
      mem.put idx { entry with waiters := entry.waiters ||| core.bit }
    else mem

open Data

/-! # Calls on the global table

Merging entries to a composite one, recovering from the crash of a core, and histories of calls.
-/

def mergedStatus (parentStatus : Nat) (child : SynxGlobalCoredata) : Nat :=
  if child.status = synxStateActive then parentStatus
  else if synxStateSignaledSuccess < child.status ∧ child.status ≤ synxStateSignaledMax then child.status
  else if parentStatus = synxStateActive then child.status
  else parentStatus

/-- How often a child is counted: once while it is active, and once while children of its own
are pending. -/
def countedChild (child : SynxGlobalCoredata) : Nat :=
  (if child.status = synxStateActive then 1 else 0) +
    if child.status ≠ synxStateActive ∧ child.numChild ≠ 0 then 1 else 0

/-- What the loop of `synx_global_merge` leaves. -/
structure Marking where
  mem : SynxSharedMem
  numChild : Nat
  parentStatus : Nat
  failed : Bool
  rc : Option SynxError

def SynxGlobalCoredata.withParent (entry : SynxGlobalCoredata) (pIdx : Nat) : SynxGlobalCoredata :=
  { entry with parents := entry.parents.replace 0 pIdx }

/-- The loop of `synx_global_merge`: the composite goes in a free place of the parents of every child.  Taking a
lock overwrites `rc` with success. -/
def markChildren (pIdx : Nat) : List Nat → SynxSharedMem → Nat → Nat → Option SynxError → Marking
  | [], mem, numChild, parentStatus, _ =>
    { mem := mem, numChild := numChild, parentStatus := parentStatus, failed := false, rc := none }
  | idx :: rest, mem, numChild, parentStatus, rc =>
    if !synxIsValidIdx idx then
      { mem := mem, numChild := numChild, parentStatus := parentStatus, failed := true, rc := rc }
    else let entry := mem.table idx
      let marked := mem.put idx (entry.withParent pIdx)
      let counted := numChild + countedChild entry
      let status := mergedStatus parentStatus entry
      if 0 ∈ entry.parents then markChildren pIdx rest marked counted status none
      else { mem := marked, numChild := counted, parentStatus := status, failed := true, rc := some .nomem }

def SynxGlobalCoredata.withoutParent (entry : SynxGlobalCoredata) (pIdx : Nat) : SynxGlobalCoredata :=
  { entry with parents := entry.parents.replace pIdx 0 }

/-- The error path of `synx_global_merge`: as many entries as were counted, from the start of the list, the last
first. -/
def unmarkChildren (pIdx : Nat) (idxs : List Nat) (mem : SynxSharedMem) : SynxSharedMem :=
  idxs.reverse.foldl (fun mem idx => mem.put idx ((mem.table idx).withoutParent pIdx)) mem

def synxGlobalMerge (mem : SynxSharedMem) (idxList : List Nat) (pIdx : Nat) : SynxSharedMem × Option SynxError :=
  if !synxIsValidIdx pIdx then (mem, some .invalid)
  else if idxList = [] then (mem, none)
  else let marking := markChildren pIdx idxList mem 0 synxStateActive (some .invalid)
    if marking.failed then (unmarkChildren pIdx (idxList.take marking.numChild) marking.mem, marking.rc)
    else let entry := marking.mem.table pIdx
      let numChild := entry.numChild + BitVec.ofNat 16 marking.numChild
      (marking.mem.put pIdx { entry with
        numChild := numChild
        refcount := if numChild ≠ 0 then entry.refcount + 1 else entry.refcount
        status := marking.parentStatus }, none)

/-- What `synx_global_recover` does with an entry: the reference is dropped; one that is cleared keeps its bit until
the end, and one that stays active is signaled. -/
def recoverEntry (core : SynxCoreId) (mem : SynxSharedMem) (idx : Nat) : Option (SynxSharedMem × Bool) :=
  let entry := mem.table idx
  if entry.refcount ≠ 0 ∧ entry.subscribers &&& core.bit ≠ 0 then let dropped := { entry with
      subscribers := entry.subscribers &&& ~~~core.bit
      refcount := entry.refcount - 1 }
    if dropped.refcount = 0 then some (mem.memset idx dropped, true)
    else if dropped.status = synxStateActive then
      (synxGlobalUpdateStatus (mem.put idx dropped) idx synxStateSignaledSsr).map fun updated =>
        (updated.1, false)
    else some (mem.put idx dropped, false)
  else some (mem, false)

/-- The loop of `synx_global_recover` over the allocated indices, with those to clear. -/
def recoverLoop (core : SynxCoreId) : List Nat → SynxSharedMem → List Nat → Option (SynxSharedMem × List Nat)
  | [], mem, clearIdx => some (mem, clearIdx)
  | idx :: rest, mem, clearIdx =>
    if mem.bitmap idx then (recoverEntry core mem idx).bind fun recovered =>
        recoverLoop core rest recovered.1
          (if recovered.2 then clearIdx ++ [idx] else clearIdx)
    else recoverLoop core rest mem clearIdx

def synxGlobalRecover (mem : SynxSharedMem) (core : SynxCoreId) : Option SynxSharedMem :=
  (recoverLoop core (List.range' 1 (synxGlobalMaxObjs - 1)) mem []).map fun recovered =>
    recovered.2.foldl SynxSharedMem.clearBit recovered.1

inductive GlobalCall where
  | create
  | merge (idxList : List Nat) (pIdx : Nat)
  | updateStatus (idx status : Nat)
  | getRef (idx : Nat)
  | putRef (idx : Nat)
  | recover (core : SynxCoreId)
  | setSubscribedCore (idx : Nat) (core : SynxCoreId)
  | clearSubscribedCore (idx : Nat) (core : SynxCoreId)
  | testStatusSetWait (idx : Nat) (core : SynxCoreId)

structure Incarnation where
  index : Nat
  life : Nat
deriving DecidableEq

def SynxSharedMem.incarnation (mem : SynxSharedMem) (idx : Nat) : Incarnation :=
  { index := idx, life := (mem.cleared idx).length }

/-- The table with the constituents that successful merges gave every index, and the references
that clients hold. -/
structure SynxHistory where
  mem : SynxSharedMem
  members : Nat → List Incarnation
  holders : Nat → Nat

def SynxHistory.init : SynxHistory where
  mem := .init
  members := fun _ => []
  holders := fun _ => 0

/-- The indices whose reference of a core `synx_global_recover` drops. -/
def SynxSharedMem.subscribed (mem : SynxSharedMem) (core : SynxCoreId) (idx : Nat) : Bool :=
  decide (0 < idx) && decide (idx < synxGlobalMaxObjs) && mem.bitmap idx &&
    decide ((mem.table idx).refcount ≠ 0) &&
    decide ((mem.table idx).subscribers &&& core.bit ≠ 0)

def synxStep (history : SynxHistory) : GlobalCall → Option SynxHistory
  | .create =>
    match synxAllocGlobalHandle history.mem with
    | (mem, .ok idx) =>
      some {
        mem := mem
        members := Function.update history.members idx []
        holders := Function.update history.holders idx 1 }
    | (mem, .error _) => some { history with mem := mem }
  | .merge idxList pIdx =>
    match synxGlobalMerge history.mem idxList pIdx with
    | (mem, none) =>
      some { history with
        mem := mem
        members := Function.update history.members pIdx
          (history.members pIdx ++ idxList.map history.mem.incarnation) }
    | (mem, some _) => some { history with mem := mem }
  | .updateStatus idx status =>
    (synxGlobalUpdateStatus history.mem idx status).map fun updated =>
      { history with mem := updated.1 }
  | .getRef idx =>
    match synxGlobalGetRef history.mem idx with
    | (mem, none) =>
      some { history with
        mem := mem
        holders := Function.update history.holders idx (history.holders idx + 1) }
    | (mem, some _) => some { history with mem := mem }
  | .putRef idx =>
    some { history with
      mem := synxGlobalPutRef history.mem idx
      holders := Function.update history.holders idx (history.holders idx - 1) }
  | .recover core =>
    (synxGlobalRecover history.mem core).map fun mem =>
      { history with
        mem := mem
        holders := fun idx =>
          if history.mem.subscribed core idx then history.holders idx - 1
          else history.holders idx }
  | .setSubscribedCore idx core =>
    some { history with mem := synxGlobalSetSubscribedCore history.mem idx core }
  | .clearSubscribedCore idx core =>
    some { history with mem := synxGlobalClearSubscribedCore history.mem idx core }
  | .testStatusSetWait idx core =>
    some { history with mem := synxGlobalTestStatusSetWait history.mem idx core }

end KernelModules.Synx

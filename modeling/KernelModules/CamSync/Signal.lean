import KernelModules.CamSync.Table

namespace KernelModules.CamSync

open SyncTable

/-! # Signalling, destroying and creating objects

Each section under a row lock is a definition of its own; the calls take the locks and run the sections.
-/

namespace SyncTable

/-- `cam_sync_util_dispatch_signaled_cb`: user payloads wait until a client has the device
open. -/
def dispatchSignaledCb (table : SyncTable) (syncObj : Nat) (status : SyncState)
    (eventCause : BitVec 32) : SyncTable :=
  let row := table.rows syncObj
  if row.state = .invalid then table
  else let payloads := if table.camSyncEventq then row.userPayloadList else []
    { table.modify syncObj (·.dispatched table.camSyncEventq) with
      dispatched := table.dispatched ++ row.callbackList.map (.callback · syncObj status) ++
        payloads.map (.event · syncObj status eventCause) }

/-- The section of `cam_sync_signal_parent_util` on one parent. -/
def signalParent (status : SyncState) (eventCause : BitVec 32) (parent : Nat)
    (table : SyncTable) : SyncTable :=
  let counted := table.modify parent fun row => { row with remaining := row.remaining - 1 }
  match SyncState.updateParentState status (counted.rows parent).state with
  | none => counted
  | some state =>
    let updated := counted.modify parent ({ · with state })
    if (updated.rows parent).remaining = 0 then updated.dispatchSignaledCb parent state eventCause
    else updated

/-- `list_splice_init` on the parents of an object. -/
def spliceParents (syncObj : Nat) (table : SyncTable) : SyncTable :=
  table.modify syncObj ({ · with parentsList := [] })

/-- The first section of `cam_sync_deinit_object`; the nodes left in the two lists are those with an id below 1. -/
def beginDestroy (idx : Nat) (table : SyncTable) : SyncTable :=
  table.modify idx fun row =>
    { row with
      state := .invalid, childrenList := row.childrenList.filter (· == 0),
      parentsList := row.parentsList.filter (· == 0) }

/-- The section of `cam_sync_deinit_object` on a child of the object `idx`. -/
def unlinkParent (idx child : Nat) (table : SyncTable) : SyncTable :=
  if (table.rows child).state = .invalid then table
  else table.modify child (·.cleanupParent idx)

/-- The section of `cam_sync_deinit_object` on a parent of the object `idx`. -/
def unlinkChild (idx parent : Nat) (table : SyncTable) : SyncTable :=
  if (table.rows parent).state = .invalid then table
  else table.modify parent (·.cleanupChild idx)

/-- The last section of `cam_sync_deinit_object`. -/
def finishDestroy (idx : Nat) (table : SyncTable) : SyncTable :=
  (table.modify idx fun _ => .cleared).clearBit idx

section Rows

variable {tbl : SyncTable}

@[simp] theorem dispatchSignaledCb_rows : (tbl.dispatchSignaledCb idx status eventCause).rows =
      (tbl.modify idx (·.dispatched tbl.camSyncEventq)).rows := by
  unfold dispatchSignaledCb SyncTableRow.dispatched modify
  dsimp only
  split
  · exact (Function.update_eq_self idx tbl.rows).symm
  · rfl

@[simp] theorem dispatchSignaledCb_frame : (tbl.dispatchSignaledCb idx status eventCause).bitmap = tbl.bitmap ∧
    (tbl.dispatchSignaledCb idx status eventCause).camSyncEventq = tbl.camSyncEventq ∧
    (tbl.dispatchSignaledCb idx status eventCause).nodes = tbl.nodes := by
  unfold dispatchSignaledCb
  dsimp only
  split <;> exact ⟨rfl, rfl, rfl⟩

theorem signalParent_rows {status : SyncState} : (tbl.signalParent status eventCause idx).rows other =
      if other = idx then (tbl.rows idx).childSignaled status tbl.camSyncEventq else tbl.rows other := by
  unfold signalParent SyncTableRow.childSignaled
  simp only [modify_rows_same]
  cases SyncState.updateParentState status (tbl.rows idx).state with
  | none => exact modify_rows
  | some state =>
    dsimp only
    by_cases finished : (tbl.rows idx).remaining - 1 = 0
    · rw [if_pos finished, dispatchSignaledCb_rows, modify_rows, modify_rows_same, modify_rows_same]
      split
      · rfl
      · rename_i apart
        rw [modify_rows_other apart, modify_rows_other apart]
    · rw [if_neg finished, modify_rows, modify_rows_same]
      split
      · rfl
      · rename_i apart
        rw [modify_rows_other apart]

@[simp] theorem signalParent_frame : (tbl.signalParent status eventCause idx).bitmap = tbl.bitmap ∧
    (tbl.signalParent status eventCause idx).camSyncEventq = tbl.camSyncEventq ∧
    (tbl.signalParent status eventCause idx).nodes = tbl.nodes := by
  unfold signalParent
  dsimp only
  split
  · exact ⟨rfl, rfl, rfl⟩
  · split <;> simp

theorem unlinkParent_rows : (tbl.unlinkParent idx child).rows other = if other = child then
        if (tbl.rows child).state = .invalid then tbl.rows child else (tbl.rows child).cleanupParent idx
      else tbl.rows other := by
  unfold unlinkParent
  split
  · split
    · rename_i here
      rw [here]
    · rfl
  · exact modify_rows

theorem unlinkChild_rows : (tbl.unlinkChild idx parent).rows other = if other = parent then
        if (tbl.rows parent).state = .invalid then tbl.rows parent else (tbl.rows parent).cleanupChild idx
      else tbl.rows other := by
  unfold unlinkChild
  split
  · split
    · rename_i here
      rw [here]
    · rfl
  · exact modify_rows

theorem unlinkParent_frame : (tbl.unlinkParent idx child).bitmap = tbl.bitmap ∧
      (tbl.unlinkParent idx child).camSyncEventq = tbl.camSyncEventq ∧
      (tbl.unlinkParent idx child).dispatched = tbl.dispatched ∧ (tbl.unlinkParent idx child).nodes = tbl.nodes := by
  unfold unlinkParent
  split <;> exact ⟨rfl, rfl, rfl, rfl⟩

theorem unlinkChild_frame : (tbl.unlinkChild idx parent).bitmap = tbl.bitmap ∧
      (tbl.unlinkChild idx parent).camSyncEventq = tbl.camSyncEventq ∧
      (tbl.unlinkChild idx parent).dispatched = tbl.dispatched ∧ (tbl.unlinkChild idx parent).nodes = tbl.nodes := by
  unfold unlinkChild
  split <;> exact ⟨rfl, rfl, rfl, rfl⟩

end Rows

end SyncTable

def camSyncObject (syncObj : Int) : Option Nat :=
  if syncObj ≥ camSyncMaxObjs ∨ syncObj ≤ 0 then none else some syncObj.toNat

def camSyncSignalValidateUtil (row : SyncTableRow) (status : BitVec 32) : Except Errno SyncState :=
  if row.state = .invalid then .error .einval
  else if row.type = .group then .error .einval
  else if row.state ≠ .active then .error .ealready
  else match SyncState.ofStatus status with
    | none => .error .einval
    | some state => .ok state

def camSyncSignalParentUtil (status : SyncState) (eventCause : BitVec 32) (parents : List Nat)
    (dev : SyncDevice) : Option SyncDevice :=
  dev.eachRow (signalParent status eventCause) parents

/-- `cam_sync_signal`; the lock of the object is released around the signal of its synx
object. -/
def camSyncSignal (syncObj : Int) (status eventCause : BitVec 32) (dev : SyncDevice) :
    Option (Except Errno Unit × SyncDevice) :=
  match camSyncObject syncObj with
  | none => some (.error .einval, dev)
  | some idx =>
    (dev.spinLock idx).bind fun dev =>
      match camSyncSignalValidateUtil (dev.row idx) status with
      | .error code => some (.error code, dev.spinUnlock idx)
      | .ok state =>
        let dev := dev.run (·.modify idx fun row => { row with refCnt := row.refCnt - 1 })
        if (dev.row idx).refCnt ≠ 0 then some (.ok (), dev.spinUnlock idx)
        else let dev := dev.run (·.modify idx ({ · with state }))
          let relocked := if (dev.row idx).synxObj then (dev.spinUnlock idx).spinLock idx else some dev
          relocked.bind fun dev =>
            let dev := dev.run (dispatchSignaledCb · idx state eventCause)
            let parents := (dev.row idx).parentsList
            let dev := (dev.run (spliceParents idx)).spinUnlock idx
            (camSyncSignalParentUtil state eventCause parents dev).map (.ok (), ·)

/-- `cam_sync_deinit_object`, as `cam_sync_destroy` calls it. -/
def camSyncDestroy (syncObj : Int) (dev : SyncDevice) : Option (Except Errno Unit × SyncDevice) :=
  match camSyncObject syncObj with
  | none => some (.error .einval, dev)
  | some idx =>
    (dev.spinLock idx).bind fun dev =>
      if (dev.row idx).state = .invalid then some (.error .einval, dev.spinUnlock idx)
      else let children := (dev.row idx).childrenList.filter (· != 0)
        let parents := (dev.row idx).parentsList.filter (· != 0)
        (SyncDevice.eachRow (unlinkParent idx) children
            ((dev.run (beginDestroy idx)).spinUnlock idx)).bind fun dev =>
          (SyncDevice.eachRow (unlinkChild idx) parents dev).bind fun dev =>
            (dev.spinLock idx).map fun dev =>
              (.ok (), (dev.run (finishDestroy idx)).spinUnlock idx)

/-- `cam_sync_create_util`, for an object with or without a synx object. -/
def camSyncCreateUtil (synxObj : Bool) (dev : SyncDevice) : Option (Except Errno Nat × SyncDevice) :=
  match dev.syncTable.findFirstZeroBit with
  | none => some (.error .enomem, dev)
  | some idx =>
    ((dev.run (·.setBit idx)).spinLock idx).map fun dev =>
      if idx = 0 then (.error .einval, (dev.run (·.clearBit idx)).spinUnlock idx)
      else let dev := dev.run (·.modify idx (·.camSyncInitRow idx .indv))
        let dev := dev.run (·.modify idx fun row => { row with synxObj := synxObj || row.synxObj })
        (.ok idx, dev.spinUnlock idx)

def camSyncGetObjRef (syncObj : Int) (dev : SyncDevice) : Option (Except Errno Unit × SyncDevice) :=
  match camSyncObject syncObj with
  | none => some (.error .einval, dev)
  | some idx =>
    (dev.spinLock idx).map fun dev =>
      if (dev.row idx).state ≠ .active then (.error .einval, dev.spinUnlock idx)
      else (.ok (), (dev.run (·.modify idx fun row =>
          { row with refCnt := row.refCnt + 1 })).spinUnlock idx)

def camSyncCheckValid (syncObj : Int) (dev : SyncDevice) : Option (Except Errno Unit × SyncDevice) :=
  match camSyncObject syncObj with
  | none => some (.error .einval, dev)
  | some idx =>
    (dev.spinLock idx).map fun dev =>
      if dev.syncTable.bitmap idx = false then (.error .einval, dev.spinUnlock idx)
      else if (dev.row idx).state = .invalid then (.error .einval, dev.spinUnlock idx)
      else (.ok (), dev.spinUnlock idx)

end KernelModules.CamSync

import Mathlib.Data.List.Basic

namespace KernelModules.CamSync

open Function

/-! # The table of sync objects and its row locks

An object is named by the index of its row.  What the row locks protect is one record, apart from the locks.
-/

def camSyncMaxObjs : Nat := 2048

inductive Errno where
  | einval
  | enomem
  | ealready
  | enoent
deriving DecidableEq

/-- `CAM_SYNC_TYPE_INDV` and `CAM_SYNC_TYPE_GROUP`. -/
inductive SyncType where
  | indv
  | group
deriving DecidableEq

inductive SyncState where
  | invalid
  | active
  | signaledSuccess
  | signaledError
  | signaledCancel
deriving DecidableEq

namespace SyncState

/-- The state that a status of `cam_sync_signal` stands for, where it is one of the three. -/
def ofStatus (status : BitVec 32) : Option SyncState :=
  if status = 2 then some .signaledSuccess
  else if status = 3 then some .signaledError
  else if status = 4 then some .signaledCancel
  else none

def signaled : SyncState → Bool
  | .invalid | .active => false
  | .signaledSuccess | .signaledError | .signaledCancel => true

def failed : SyncState → Bool
  | .invalid | .active | .signaledSuccess => false
  | .signaledError | .signaledCancel => true

/-- `cam_sync_util_update_parent_state`: `none` is its `-EINVAL`. -/
def updateParentState (newState : SyncState) : SyncState → Option SyncState
  | .active | .signaledSuccess => some newState
  | .signaledError => some .signaledError
  | .signaledCancel => some .signaledCancel
  | .invalid => none

end SyncState

structure SyncCallbackInfo where
  node : Nat
  callbackFunc : Nat
  cbData : Nat
deriving DecidableEq

structure SyncUserPayload where
  node : Nat
  payloadData : BitVec 64 × BitVec 64
deriving DecidableEq

/-- A kernel callback that is called or queued, and a user payload that goes to the event queue of the video device. -/
inductive Dispatch where
  | callback (info : SyncCallbackInfo) (syncObj : Nat) (status : SyncState)
  | event (payload : SyncUserPayload) (syncObj : Nat) (status : SyncState)
      (eventCause : BitVec 32)
deriving DecidableEq

inductive Notification where
  | callback (info : SyncCallbackInfo)
  | payload (payload : SyncUserPayload)
deriving DecidableEq

namespace Notification

def node : Notification → Nat
  | .callback info => info.node
  | .payload registered => registered.node

end Notification

namespace Dispatch

def notification : Dispatch → Notification
  | .callback info _ _ => .callback info
  | .event payload _ _ _ => .payload payload

def syncObj : Dispatch → Nat
  | .callback _ syncObj _ => syncObj
  | .event _ syncObj _ _ => syncObj

def status : Dispatch → SyncState
  | .callback _ _ status => status
  | .event _ _ status _ => status

end Dispatch

structure SyncTableRow where
  type : SyncType
  syncId : Nat
  parentsList : List Nat
  childrenList : List Nat
  state : SyncState
  remaining : BitVec 32
  refCnt : BitVec 32
  /-- Whether `complete_all` was called on the completion of the row. -/
  signaled : Bool
  callbackList : List SyncCallbackInfo
  userPayloadList : List SyncUserPayload
  /-- The bit `CAM_GENERIC_FENCE_TYPE_SYNX_OBJ` of `ext_fence_mask`. -/
  synxObj : Bool

namespace SyncTableRow

/-- A row after `memset`, with its lists initialised. -/
def cleared : SyncTableRow :=
  { type := .indv, syncId := 0, parentsList := [], childrenList := [], state := .invalid,
    remaining := 0, refCnt := 0, signaled := false, callbackList := [], userPayloadList := [], synxObj := false }

/-- `cam_sync_init_row`; the mask of external fences is not among what it sets. -/
def camSyncInitRow (row : SyncTableRow) (idx : Nat) (type : SyncType) : SyncTableRow :=
  { row with
    type, syncId := idx, parentsList := [], childrenList := [], state := .active,
    remaining := 0, refCnt := 0, signaled := false, callbackList := [], userPayloadList := [] }

/-- What `cam_sync_util_dispatch_signaled_cb` does to the row it is called on. -/
def dispatched (row : SyncTableRow) (camSyncEventq : Bool) : SyncTableRow :=
  if row.state = .invalid then row
  else { row with
      callbackList := [], signaled := true, userPayloadList := if camSyncEventq then [] else row.userPayloadList }

def objectSignaled (row : SyncTableRow) (status : SyncState) (camSyncEventq : Bool) : SyncTableRow :=
  { ({ row with refCnt := row.refCnt - 1, state := status } : SyncTableRow).dispatched
      camSyncEventq with parentsList := [] }

/-- What `cam_sync_signal_parent_util` does to the row of a parent. -/
def childSignaled (row : SyncTableRow) (status : SyncState) (camSyncEventq : Bool) : SyncTableRow :=
  let counted := { row with remaining := row.remaining - 1 }
  match SyncState.updateParentState status row.state with
  | none => counted
  | some state =>
    let updated := { counted with state }
    if updated.remaining = 0 then updated.dispatched camSyncEventq else updated

def waiting (row : SyncTableRow) : List Notification :=
  row.callbackList.map .callback ++ row.userPayloadList.map .payload

/-- `cam_sync_util_cleanup_parents_list` with `SYNC_LIST_CLEAN_ONE`. -/
def cleanupParent (row : SyncTableRow) (syncObj : Nat) : SyncTableRow :=
  { row with parentsList := row.parentsList.erase syncObj }

/-- `cam_sync_util_cleanup_children_list` with `SYNC_LIST_CLEAN_ONE`. -/
def cleanupChild (row : SyncTableRow) (syncObj : Nat) : SyncTableRow :=
  { row with childrenList := row.childrenList.erase syncObj }

end SyncTableRow

/-- What the row locks protect, the bitmap of the rows in use, and what has been dispatched. -/
structure SyncTable where
  rows : Nat → SyncTableRow
  bitmap : Nat → Bool
  camSyncEventq : Bool
  dispatched : List Dispatch
  /-- How many nodes were allocated for registrations; the next one has this number. -/
  nodes : Nat

namespace SyncTable

def modify (table : SyncTable) (idx : Nat) (change : SyncTableRow → SyncTableRow) : SyncTable :=
  { table with rows := update table.rows idx (change (table.rows idx)) }

def setBit (table : SyncTable) (idx : Nat) : SyncTable :=
  { table with bitmap := update table.bitmap idx true }

def clearBit (table : SyncTable) (idx : Nat) : SyncTable :=
  { table with bitmap := update table.bitmap idx false }

/-- The table after `cam_sync_probe`, which gives row 0 to nobody. -/
def probed : SyncTable :=
  { rows := fun _ => .cleared, bitmap := fun idx => idx == 0, camSyncEventq := false, dispatched := [], nodes := 0 }

/-- `find_first_zero_bit` from `idx` on, over `count` bits. -/
def findZeroBit (bitmap : Nat → Bool) : Nat → Nat → Option Nat
  | _, 0 => none
  | idx, count + 1 => if bitmap idx then findZeroBit bitmap (idx + 1) count else some idx

def findFirstZeroBit (table : SyncTable) : Option Nat :=
  findZeroBit table.bitmap 0 camSyncMaxObjs

end SyncTable

structure SyncDevice where
  syncTable : SyncTable
  rowSpinlocks : Nat → Bool

namespace SyncDevice

/-- `none` is a caller that spins for ever: nobody is left to release a lock that is held when a call begins. -/
def spinLock (dev : SyncDevice) (idx : Nat) : Option SyncDevice :=
  if dev.rowSpinlocks idx then none
  else some { dev with rowSpinlocks := update dev.rowSpinlocks idx true }

def spinUnlock (dev : SyncDevice) (idx : Nat) : SyncDevice :=
  { dev with rowSpinlocks := update dev.rowSpinlocks idx false }

def row (dev : SyncDevice) (idx : Nat) : SyncTableRow := dev.syncTable.rows idx

def run (dev : SyncDevice) (critical : SyncTable → SyncTable) : SyncDevice :=
  { dev with syncTable := critical dev.syncTable }

def eachRow (critical : Nat → SyncTable → SyncTable) : List Nat → SyncDevice → Option SyncDevice
  | [], dev => some dev
  | idx :: rest, dev =>
    (dev.spinLock idx).bind fun locked =>
      eachRow critical rest ((locked.run (critical idx)).spinUnlock idx)

def probed : SyncDevice := { syncTable := .probed, rowSpinlocks := fun _ => false }

end SyncDevice

section Laws

variable {table : SyncTable} {dev after : SyncDevice} {idx : Nat}

namespace SyncTable

@[simp] theorem modify_rows_same : (table.modify idx change).rows idx = change (table.rows idx) := by
  simp [modify]

@[simp] theorem modify_rows_other (apart : other ≠ idx) :
    (table.modify idx change).rows other = table.rows other := by
  simp [modify, apart]

theorem foldl_rows (critical : Nat → SyncTable → SyncTable) (change : SyncTableRow → SyncTableRow) {rows : List Nat}
    (onRow : ∀ idx table other, table.camSyncEventq = eventq → (critical idx table).rows other =
      if other = idx then change (table.rows idx) else table.rows other)
    (keeps : ∀ idx table, (critical idx table).camSyncEventq = table.camSyncEventq) (nodup : rows.Nodup)
    (opened : table.camSyncEventq = eventq) : (rows.foldl (fun table idx => critical idx table) table).rows other =
      if other ∈ rows then change (table.rows other) else table.rows other := by
  induction rows generalizing table with
  | nil => rfl
  | cons idx rest ih =>
    obtain ⟨fresh, distinctRest⟩ := List.nodup_cons.mp nodup
    rw [List.foldl_cons, ih distinctRest ((keeps idx table).trans opened), onRow _ _ _ opened]
    rcases eq_or_ne other idx with rfl | apart
    · rw [if_neg fresh, if_pos rfl, if_pos List.mem_cons_self]
    · simp [apart]

theorem foldl_keeps (critical : Nat → SyncTable → SyncTable) {rows : List Nat} (part : SyncTable → α)
    (keeps : ∀ idx table, part (critical idx table) = part table) :
    part (rows.foldl (fun table idx => critical idx table) table) = part table := by
  induction rows generalizing table with
  | nil => rfl
  | cons idx rest ih => exact ih.trans (keeps idx table)

theorem modify_rows : (table.modify idx change).rows other =
      if other = idx then change (table.rows idx) else table.rows other := by
  split
  · rename_i same
    rw [same, modify_rows_same]
  · rename_i apart
    exact modify_rows_other apart

@[simp] theorem modify_bitmap : (table.modify idx change).bitmap = table.bitmap := rfl

@[simp] theorem modify_dispatched : (table.modify idx change).dispatched = table.dispatched := rfl

@[simp] theorem modify_camSyncEventq : (table.modify idx change).camSyncEventq = table.camSyncEventq := rfl

@[simp] theorem modify_nodes : (table.modify idx change).nodes = table.nodes := rfl

@[simp] theorem setBit_rows : (table.setBit idx).rows = table.rows := rfl

theorem setBit_bitmap : (table.setBit idx).bitmap = update table.bitmap idx true := rfl

@[simp] theorem clearBit_rows : (table.clearBit idx).rows = table.rows := rfl

theorem findZeroBit_clear {bitmap : Nat → Bool} (found : findZeroBit bitmap start count = some idx) :
    bitmap idx = false ∧ start ≤ idx ∧ idx < start + count := by
  induction count generalizing start with
  | zero => cases found
  | succ count ih =>
    rw [findZeroBit] at found
    split at found
    · obtain ⟨clear, lower, upper⟩ := ih found
      exact ⟨clear, by omega, by omega⟩
    · rename_i clear
      cases found
      exact ⟨by simpa using clear, Nat.le_refl _, by omega⟩

theorem findFirstZeroBit_clear (found : table.findFirstZeroBit = some idx) :
    table.bitmap idx = false ∧ idx < camSyncMaxObjs := by
  obtain ⟨clear, _, upper⟩ := findZeroBit_clear found
  exact ⟨clear, by simpa using upper⟩

end SyncTable

namespace SyncDevice

theorem spinLock_eq_some (locked : dev.spinLock idx = some after) : dev.rowSpinlocks idx = false ∧
      after = { dev with rowSpinlocks := update dev.rowSpinlocks idx true } := by
  unfold spinLock at locked
  split at locked
  · cases locked
  · rename_i free
    exact ⟨by simpa using free, (Option.some.inj locked).symm⟩

theorem spinLock_free (free : dev.rowSpinlocks idx = false) : dev.spinLock idx =
      some { dev with rowSpinlocks := update dev.rowSpinlocks idx true } := by
  unfold spinLock
  rw [if_neg (by simp [free])]

theorem spinUnlock_taken (free : dev.rowSpinlocks idx = false) : SyncDevice.spinUnlock
        { syncTable := table', rowSpinlocks := update dev.rowSpinlocks idx true } idx =
      { dev with syncTable := table' } := by
  unfold spinUnlock
  rw [update_idem, ← free, update_eq_self]

theorem eachRow_eq (critical : Nat → SyncTable → SyncTable) (rows : List Nat) (dev : SyncDevice) :
    eachRow critical rows dev = if ∀ idx ∈ rows, dev.rowSpinlocks idx = false then
        some (dev.run fun table => rows.foldl (fun table idx => critical idx table) table) else none := by
  induction rows generalizing dev with
  | nil => rfl
  | cons idx rest ih =>
    rw [eachRow]
    by_cases free : dev.rowSpinlocks idx = false
    · rw [spinLock_free free, Option.bind_some, run, spinUnlock_taken free, ih]
      simp only [List.forall_mem_cons, free, true_and]
      rfl
    · rw [if_neg fun all => free (all idx List.mem_cons_self)]
      unfold spinLock
      rw [if_pos (by simpa using free)]
      rfl

theorem eachRow_eq_some (done : eachRow critical rows dev = some after) :
    after = dev.run fun table => rows.foldl (fun table idx => critical idx table) table := by
  rw [eachRow_eq] at done
  split at done
  · exact (Option.some.inj done).symm
  · cases done

end SyncDevice

end Laws

end KernelModules.CamSync

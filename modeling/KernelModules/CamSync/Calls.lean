import KernelModules.CamSync.Signal
import KernelModules.Data.Run

namespace KernelModules.CamSync

/-! # Merging objects into a group

The group is built child by child, each under its own lock, with the lock of the group held all along.
-/

/-- `cam_common_util_remove_duplicate_arr` answers with the number of ids it keeps. -/
def camCommonUtilRemoveDuplicateArr (arr : List Int) : Nat :=
  (arr.foldl (fun kept id => if id ∈ kept then kept else kept ++ [id]) []).length

/-- What `kzalloc` answers for the child_info and the parent_info of a position of the array. -/
structure LinkAllocs where
  childInfo : Nat → Bool
  parentInfo : Nat → Bool

/-- One round of the loop of `cam_sync_init_group_object`. -/
def linkChild (idx child : Nat) (childInfo parentInfo : Bool) (dev : SyncDevice) :
    Option (Except Errno Unit × SyncDevice) :=
  (dev.spinLock child).map fun dev =>
    let childRow := dev.row child
    if childRow.type = .group ∨ childRow.state = .invalid then (.error .einval, dev.spinUnlock child)
    else if childRow.state = .signaledError ∨ childRow.state = .signaledCancel then
      (.ok (), (dev.run (·.modify idx ({ · with state := childRow.state }))).spinUnlock child)
    else if childRow.state ≠ .active then (.ok (), dev.spinUnlock child)
    else let dev := dev.run (·.modify idx fun row => { row with remaining := row.remaining + 1 })
      if !childInfo then (.error .enomem, dev.spinUnlock child)
      else let dev := dev.run (·.modify idx fun row =>
          { row with childrenList := row.childrenList ++ [child] })
        if !parentInfo then (.error .enomem, dev.spinUnlock child)
        else (.ok (), (dev.run (·.modify child fun row =>
            { row with parentsList := row.parentsList ++ [idx] })).spinUnlock child)

/-- The loop of `cam_sync_init_group_object` from position `i` on, with the position that it stopped at. -/
def linkChildren (idx : Nat) (allocs : LinkAllocs) :
    Nat → List Nat → SyncDevice → Option (Except Errno Unit × Nat × SyncDevice)
  | i, [], dev => some (.ok (), i, dev)
  | i, child :: rest, dev =>
    (linkChild idx child (allocs.childInfo i) (allocs.parentInfo i) dev).bind fun
      | (.error code, dev) => some (.error code, i, dev)
      | (.ok (), dev) => linkChildren idx allocs (i + 1) rest dev

def SyncTableRow.concludeGroup (row : SyncTableRow) : SyncTableRow :=
  if row.remaining = 0 then { row with
      state := if row.state ≠ .signaledError ∧ row.state ≠ .signaledCancel then .signaledSuccess
        else row.state
      signaled := true }
  else row

def camSyncInitGroupObject (idx : Nat) (syncObjs : List Nat) (allocs : LinkAllocs)
    (dev : SyncDevice) : Option (Except Errno Unit × SyncDevice) :=
  (linkChildren idx allocs 0 syncObjs
      (dev.run (·.modify idx (·.camSyncInitRow idx .group)))).bind fun
    | (.ok (), _, dev) => some (.ok (), dev.run (·.modify idx (·.concludeGroup)))
    | (.error code, i, dev) =>
      (SyncDevice.eachRow (fun child table => table.modify child (·.cleanupParent idx))
          (syncObjs.take i).reverse (dev.run (·.modify idx ({ · with state := .invalid })))).map
        fun dev => (.error code, dev.run (·.modify idx ({ · with childrenList := [] })))

/-- The validation loop of `cam_sync_merge`. -/
def camSyncCheckAll : List Int → SyncDevice → Option (Except Errno Unit × SyncDevice)
  | [], dev => some (.ok (), dev)
  | syncObj :: rest, dev =>
    (camSyncCheckValid syncObj dev).bind fun
      | (.error code, dev) => some (.error code, dev)
      | (.ok (), dev) => camSyncCheckAll rest dev

def destroyAll : List Int → SyncDevice → Option SyncDevice
  | [], dev => some dev
  | syncObj :: rest, dev => (camSyncDestroy syncObj dev).bind fun (_, dev) => destroyAll rest dev

/-- `cam_sync_merge`. Other threads destroy the objects `checked` once the ids are validated, and `reserved` once
the bit of the new group is set; what the call does not get to, they do when it has returned. -/
def camSyncMerge (syncObj : List Int) (allocs : LinkAllocs) (checked reserved : List Int)
    (dev : SyncDevice) : Option (Except Errno Nat × SyncDevice) :=
  let refuse (code : Errno) (others : List Int) (dev : SyncDevice) :=
    (destroyAll others dev).map fun dev => (.error code, dev)
  if syncObj.length ≤ 1 then refuse .einval (checked ++ reserved) dev
  else if camCommonUtilRemoveDuplicateArr syncObj ≠ syncObj.length then refuse .einval (checked ++ reserved) dev
  else (camSyncCheckAll syncObj dev).bind fun
      | (.error code, dev) => refuse code (checked ++ reserved) dev
      | (.ok (), dev) =>
        (destroyAll checked dev).bind fun dev =>
          match dev.syncTable.findFirstZeroBit with
          | none => refuse .enomem reserved dev
          | some idx =>
            (destroyAll reserved (dev.run (·.setBit idx))).bind fun dev =>
              (dev.spinLock idx).bind fun dev =>
                (camSyncInitGroupObject idx (syncObj.map Int.toNat) allocs dev).map fun
                  -- the lock of the row is left held here
                  | (.error _, dev) => (.error .einval, dev.run (·.clearBit idx))
                  | (.ok (), dev) => (.ok idx, dev.spinUnlock idx)

/-! # Registering to be told

A kernel callback or a user payload waits on the row of its object, or is dispatched at once where the row is
signaled already.
-/

open SyncTable

namespace SyncTable

/-- `list_add_tail` on the callbacks of an object. -/
def addCallback (idx : Nat) (info : SyncCallbackInfo) (table : SyncTable) : SyncTable :=
  table.modify idx fun row => { row with callbackList := row.callbackList ++ [info] }

/-- `list_add_tail` on the user payloads of an object. -/
def addUserPayload (idx : Nat) (payload : SyncUserPayload) (table : SyncTable) : SyncTable :=
  table.modify idx fun row => { row with userPayloadList := row.userPayloadList ++ [payload] }

def log (dispatch : Dispatch) (table : SyncTable) : SyncTable :=
  { table with dispatched := table.dispatched ++ [dispatch] }

def takeNode (table : SyncTable) : SyncTable := { table with nodes := table.nodes + 1 }

end SyncTable

def camSyncCommonRegPayloadEvent : BitVec 32 := 5

/-- `cam_sync_register_callback`; `syncCb` is whether `kzalloc` finds room, and a callback function of 0 is null. -/
def camSyncRegisterCallback (cbFunc userdata : Nat) (syncObj : Int) (syncCb : Bool)
    (dev : SyncDevice) : Option (Except Errno Unit × SyncDevice) :=
  match camSyncObject syncObj with
  | none => some (.error .einval, dev)
  | some idx =>
    if cbFunc = 0 then some (.error .einval, dev)
    else (dev.spinLock idx).map fun dev =>
      let row := dev.row idx
      if row.state = .invalid then (.error .einval, dev.spinUnlock idx)
      else if !syncCb then (.error .enomem, dev.spinUnlock idx)
      else let info : SyncCallbackInfo :=
          { node := dev.syncTable.nodes, callbackFunc := cbFunc, cbData := userdata }
        let dev := dev.run takeNode
        if row.state.signaled ∧ row.remaining = 0 then
          (.ok (), (dev.run (log (.callback info idx row.state))).spinUnlock idx)
        else (.ok (), (dev.run (addCallback idx info)).spinUnlock idx)

/-- `cam_sync_deregister_callback` takes away every registration of the function with the data. -/
def camSyncDeregisterCallback (cbFunc userdata : Nat) (syncObj : Int) (dev : SyncDevice) :
    Option (Except Errno Unit × SyncDevice) :=
  match camSyncObject syncObj with
  | none => some (.error .einval, dev)
  | some idx =>
    (dev.spinLock idx).map fun dev =>
      let row := dev.row idx
      if row.state = .invalid then (.error .einval, dev.spinUnlock idx)
      else let matching (info : SyncCallbackInfo) : Bool :=
          info.callbackFunc == cbFunc && info.cbData == userdata
        let kept := row.callbackList.filter fun info => !matching info
        (if row.callbackList.any matching then .ok () else .error .enoent,
          (dev.run (·.modify idx ({ · with callbackList := kept }))).spinUnlock idx)

/-- `cam_sync_handle_register_user_payload`, on the arguments it copies; `userPayload` is whether `kzalloc` finds
room. -/
def camSyncHandleRegisterUserPayload (payload : BitVec 64 × BitVec 64) (syncObj : Int)
    (userPayload : Bool) (dev : SyncDevice) : Option (Except Errno Unit × SyncDevice) :=
  match camSyncObject syncObj with
  | none => some (.error .einval, dev)
  | some idx =>
    if !userPayload then some (.error .enomem, dev)
    else (dev.spinLock idx).map fun dev =>
      let row := dev.row idx
      let userPayloadKernel : SyncUserPayload :=
        { node := dev.syncTable.nodes, payloadData := payload }
      let taken := dev.run takeNode
      if row.state = .invalid then (.error .einval, dev.spinUnlock idx)
      else if row.state.signaled then (.ok (), (taken.run (log (.event userPayloadKernel idx row.state
          camSyncCommonRegPayloadEvent))).spinUnlock idx)
      else if row.userPayloadList.any (·.payloadData == payload) then (.error .ealready, dev.spinUnlock idx)
      else (.ok (), (taken.run (addUserPayload idx userPayloadKernel)).spinUnlock idx)

def camSyncHandleDeregisterUserPayload (payload : BitVec 64 × BitVec 64) (syncObj : Int)
    (dev : SyncDevice) : Option (Except Errno Unit × SyncDevice) :=
  match camSyncObject syncObj with
  | none => some (.error .einval, dev)
  | some idx =>
    (dev.spinLock idx).map fun dev =>
      let row := dev.row idx
      if row.state = .invalid then (.error .einval, dev.spinUnlock idx)
      else let kept := row.userPayloadList.filter fun info => !(info.payloadData == payload)
        (.ok (), (dev.run (·.modify idx ({ · with userPayloadList := kept }))).spinUnlock idx)

/-- `cam_sync_put_obj_ref`, which takes no lock. -/
def camSyncPutObjRef (syncObj : Int) (dev : SyncDevice) : Except Errno Unit × SyncDevice :=
  match camSyncObject syncObj with
  | none => (.error .einval, dev)
  | some idx => (.ok (), dev.run (·.modify idx fun row => { row with refCnt := row.refCnt - 1 }))

open Data SyncTable Option SyncDevice

/-! # Histories of calls, and what one call can do

Calls run one after another.  A call that returns is one of a few functions on the table, with the row locks as they
were, but for a merge that fails once it has taken a row.
-/

inductive SyncCall where
  | create (synxObj : Bool)
  | merge (syncObj : List Int) (allocs : LinkAllocs) (checked reserved : List Int)
  | getObjRef (syncObj : Int)
  | putObjRef (syncObj : Int)
  | signal (syncObj : Int) (status eventCause : BitVec 32)
  | destroy (syncObj : Int)
  | registerCallback (cbFunc userdata : Nat) (syncObj : Int) (syncCb : Bool)
  | deregisterCallback (cbFunc userdata : Nat) (syncObj : Int)
  | registerUserPayload (payload : BitVec 64 × BitVec 64) (syncObj : Int)
      (userPayload : Bool)
  | deregisterUserPayload (payload : BitVec 64 × BitVec 64) (syncObj : Int)
  /-- `cam_sync_open`, or the end of `cam_sync_close`, whose signals and destructions are calls of
  their own. -/
  | eventq (opened : Bool)

def syncStep (dev : SyncDevice) : SyncCall → Option SyncDevice
  | .create synxObj => (camSyncCreateUtil synxObj dev).map (·.2)
  | .merge syncObj allocs checked reserved =>
    (camSyncMerge syncObj allocs checked reserved dev).map (·.2)
  | .getObjRef syncObj => (camSyncGetObjRef syncObj dev).map (·.2)
  | .putObjRef syncObj => some (camSyncPutObjRef syncObj dev).2
  | .signal syncObj status eventCause => (camSyncSignal syncObj status eventCause dev).map (·.2)
  | .destroy syncObj => (camSyncDestroy syncObj dev).map (·.2)
  | .registerCallback cbFunc userdata syncObj syncCb =>
    (camSyncRegisterCallback cbFunc userdata syncObj syncCb dev).map (·.2)
  | .deregisterCallback cbFunc userdata syncObj =>
    (camSyncDeregisterCallback cbFunc userdata syncObj dev).map (·.2)
  | .registerUserPayload payload syncObj userPayload =>
    (camSyncHandleRegisterUserPayload payload syncObj userPayload dev).map (·.2)
  | .deregisterUserPayload payload syncObj =>
    (camSyncHandleDeregisterUserPayload payload syncObj dev).map (·.2)
  | .eventq opened => some (dev.run fun table => { table with camSyncEventq := opened })

namespace SyncTable

def enterSignal (idx : Nat) (state : SyncState) (table : SyncTable) : SyncTable :=
  (table.modify idx fun row => { row with refCnt := row.refCnt - 1 }).modify idx ({ · with state })

def signalObject (idx : Nat) (state : SyncState) (eventCause : BitVec 32) (table : SyncTable) : SyncTable :=
  let told := (table.enterSignal idx state).dispatchSignaledCb idx state eventCause
  (told.rows idx).parentsList.foldl (fun table parent => table.signalParent state eventCause parent)
    (told.spliceParents idx)

def destroyObject (idx : Nat) (table : SyncTable) : SyncTable :=
  let children := (table.rows idx).childrenList.filter (· != 0)
  let parents := (table.rows idx).parentsList.filter (· != 0)
  let unlinked := children.foldl (fun table child => table.unlinkParent idx child)
    (table.beginDestroy idx)
  (parents.foldl (fun table parent => table.unlinkChild idx parent) unlinked).finishDestroy idx

def createObject (idx : Nat) (synxObj : Bool) (table : SyncTable) : SyncTable :=
  ((table.setBit idx).modify idx (·.camSyncInitRow idx .indv)).modify idx fun row =>
    { row with synxObj := synxObj || row.synxObj }

end SyncTable

section Cases

variable {dev : SyncDevice} {syncObj : Int} {status eventCause : BitVec 32} {idx : Nat} {synxObj : Bool}

theorem camSyncObject_eq_some (named : camSyncObject syncObj = some idx) :
    syncObj = idx ∧ idx ≠ 0 ∧ idx < camSyncMaxObjs := by
  unfold camSyncObject at named
  split at named
  · cases named
  · cases named
    omega

theorem camSyncSignalValidateUtil_ok {row : SyncTableRow} (valid : camSyncSignalValidateUtil row status = .ok state) :
    row.state = .active ∧ row.type = .indv ∧ SyncState.ofStatus status = some state := by
  unfold camSyncSignalValidateUtil at valid
  split at valid
  · cases valid
  split at valid
  · cases valid
  rename_i individual
  split at valid
  · cases valid
  rename_i active
  split at valid
  · cases valid
  rename_i known
  cases valid
  refine ⟨by simpa using active, ?_, known⟩
  cases type : row.type with
  | indv => rfl
  | group => exact absurd type individual

inductive SignalEffect (dev : SyncDevice) (syncObj : Int) : SyncDevice → Prop where
  | refused : SignalEffect dev syncObj dev
  | deferred {idx : Nat} (named : camSyncObject syncObj = some idx)
      (active : (dev.row idx).state = .active) : SignalEffect dev syncObj
        (dev.run (·.modify idx fun row => { row with refCnt := row.refCnt - 1 }))
  | signaled {idx : Nat} {status : BitVec 32} {state : SyncState} (eventCause : BitVec 32)
      (named : camSyncObject syncObj = some idx)
      (active : (dev.row idx).state = .active) (individual : (dev.row idx).type = .indv)
      (last : (dev.row idx).refCnt = 1) (known : SyncState.ofStatus status = some state) :
      SignalEffect dev syncObj (dev.run (signalObject idx state eventCause))

theorem named_cases {body : Nat → Option (Except Errno Unit × SyncDevice)}
    (done : Option.map (·.2) (match camSyncObject syncObj with
      | none => some (.error .einval, dev)
      | some idx => body idx) = some after) : (camSyncObject syncObj = none ∧ after = dev) ∨
    ∃ idx code, camSyncObject syncObj = some idx ∧ body idx = some (code, after) := by
  obtain ⟨⟨code, result⟩, ret, rfl⟩ := map_eq_some_iff.mp done
  split at ret
  · rename_i unnamed
    cases ret
    exact .inl ⟨unnamed, rfl⟩
  · rename_i idx named
    exact .inr ⟨idx, code, named, ret⟩

theorem camSyncSignal_effect (done : syncStep dev (.signal syncObj status eventCause) = some after) :
    SignalEffect dev syncObj after := by
  obtain ⟨_, rfl⟩ | ⟨idx, code, named, ret⟩ := named_cases done
  · exact .refused
  · obtain ⟨locked, taken, rest⟩ := bind_eq_some_iff.mp ret
    obtain ⟨free, rfl⟩ := spinLock_eq_some taken
    dsimp only at rest
    split at rest
    · rw [spinUnlock_taken free] at rest
      cases rest
      exact .refused
    rename_i state valid
    obtain ⟨active, individual, known⟩ := camSyncSignalValidateUtil_ok valid
    split at rest
    · rw [run, spinUnlock_taken free] at rest
      cases rest
      exact .deferred named active
    rename_i last
    have counted : (dev.row idx).refCnt = 1 := by
      simp only [row, run, modify_rows_same, ne_eq, Decidable.not_not] at last
      change (dev.syncTable.rows idx).refCnt = 1
      bv_omega
    obtain ⟨relocked, again, rest⟩ := bind_eq_some_iff.mp rest
    have kept : relocked =
        { syncTable := ((dev.syncTable.modify idx fun row =>
            { row with refCnt := row.refCnt - 1 }).modify idx ({ · with state })),
          rowSpinlocks := Function.update dev.rowSpinlocks idx true } := by
      split at again
      · simp only [run] at again
        rw [spinUnlock_taken free] at again
        exact (spinLock_eq_some again).2
      · exact (some.inj again).symm
    obtain ⟨signaled, looped, final⟩ := map_eq_some_iff.mp rest
    rw [kept] at looped
    simp only [run] at looped
    rw [spinUnlock_taken free] at looped
    have ended := eachRow_eq_some looped
    rw [← (Prod.mk.inj final).2, ended]
    exact .signaled eventCause named active individual counted known

inductive DestroyEffect (dev : SyncDevice) : SyncDevice → Prop where
  | refused : DestroyEffect dev dev
  | destroyed {idx : Nat} (live : (dev.row idx).state ≠ .invalid) : DestroyEffect dev (dev.run (destroyObject idx))

inductive CreateEffect (dev : SyncDevice) (synxObj : Bool) : SyncDevice → Prop where
  | refused : CreateEffect dev synxObj dev
  | created {idx : Nat} (free : dev.syncTable.findFirstZeroBit = some idx) (named : idx ≠ 0) :
      CreateEffect dev synxObj (dev.run (createObject idx synxObj))

theorem camSyncCreateUtil_effect (done : syncStep dev (.create synxObj) = some after) :
    CreateEffect dev synxObj after := by
  obtain ⟨⟨code, result⟩, ret, rfl⟩ := map_eq_some_iff.mp done
  unfold camSyncCreateUtil at ret
  cases found : dev.syncTable.findFirstZeroBit with
  | none =>
    rw [found] at ret
    cases ret
    exact .refused
  | some idx =>
    rw [found] at ret
    obtain ⟨locked, taken, final⟩ := map_eq_some_iff.mp ret
    obtain ⟨free, rfl⟩ := spinLock_eq_some taken
    simp only [run] at free final
    split at final
    · rw [spinUnlock_taken free] at final
      have clear := (findFirstZeroBit_clear found).1
      have same : (dev.syncTable.setBit idx).clearBit idx = dev.syncTable := by
        unfold setBit clearBit
        rw [Function.update_idem, ← clear, Function.update_eq_self]
      rw [same] at final
      rw [← (Prod.mk.inj final).2]
      exact .refused
    · rename_i named
      rw [spinUnlock_taken free] at final
      rw [← (Prod.mk.inj final).2]
      exact .created found named

theorem camSyncCreateUtil_created (found : dev.syncTable.findFirstZeroBit = some idx)
    (named : idx ≠ 0) (free : dev.rowSpinlocks idx = false) :
    syncStep dev (.create synxObj) = some (dev.run (createObject idx synxObj)) := by
  unfold syncStep camSyncCreateUtil
  rw [found]
  dsimp only
  rw [spinLock_free (by exact free), map_some, if_neg named]
  simp only [run]
  rw [spinUnlock_taken free]
  rfl

end Cases

end KernelModules.CamSync

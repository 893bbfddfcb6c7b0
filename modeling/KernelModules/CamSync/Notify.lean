import KernelModules.CamSync.GroupBook

namespace KernelModules.CamSync

open Data

/-! # Who is to be told what

A book beside the device records the registrations, and for every group its children in the order of their signals.
-/

def SyncTable.occurrences (table : SyncTable) (what : Notification) : Nat :=
  (table.dispatched.map Dispatch.notification).count what

/-- A registration that was accepted, until it is deregistered or its object is destroyed. -/
structure Registration where
  what : Notification
  syncObj : Nat
  withdrawn : Bool
deriving DecidableEq

/-- The children that are not signaled yet, the number of those destroyed before, and the statuses of all others in
order. -/
structure GroupRecord where
  awaiting : List Nat
  lost : Nat
  outcomes : List SyncState

namespace GroupRecord

def complete (record : GroupRecord) : Bool := record.awaiting.isEmpty && record.lost == 0

def firstFailure (record : GroupRecord) : Option SyncState :=
  record.outcomes.find? SyncState.failed

def status (record : GroupRecord) : SyncState := record.firstFailure.getD .signaledSuccess

def signal (record : GroupRecord) (child : Nat) (status : SyncState) : GroupRecord :=
  if child ∈ record.awaiting then { record with
      awaiting := record.awaiting.erase child, outcomes := record.outcomes ++ [status] }
  else record

def lose (record : GroupRecord) (child : Nat) : GroupRecord :=
  if child ∈ record.awaiting then { record with awaiting := record.awaiting.erase child, lost := record.lost + 1 }
  else record

end GroupRecord

structure NotifyBook where
  registrations : List Registration
  signals : List (Nat × SyncState)
  groups : Nat → GroupRecord

namespace NotifyBook

def initial : NotifyBook :=
  { registrations := [], signals := [], groups := fun _ => ⟨[], 0, []⟩ }

def forget (book : NotifyBook) (idx : Nat) : NotifyBook :=
  { book with signals := book.signals.filter fun signal => signal.1 != idx }

/-- The statuses of those of the objects that are signaled, in the order of their signals. -/
def outcomes (book : NotifyBook) (syncObjs : List Nat) : List SyncState :=
  (book.signals.filter fun signal => signal.1 ∈ syncObjs).map (·.2)

def newGroup (book : NotifyBook) (table : SyncTable) (syncObjs : List Nat) : GroupRecord :=
  { awaiting := syncObjs.filter table.pending, lost := 0, outcomes := book.outcomes syncObjs }

def withdraw (book : NotifyBook) (those : Registration → Bool) : NotifyBook :=
  { book with
    registrations := book.registrations.map fun registration =>
      if those registration then { registration with withdrawn := true } else registration }

/-- The registrations of the notifications `gone` on an object are withdrawn. -/
def deregister (book : NotifyBook) (gone : Notification → Bool) (syncObj : Int) : NotifyBook :=
  match camSyncObject syncObj with
  | none => book
  | some idx => book.withdraw fun registration =>
    registration.syncObj == idx && gone registration.what

def register (book : NotifyBook) (what : Notification) (syncObj : Nat) : NotifyBook :=
  { book with
    registrations := book.registrations ++ [{ what, syncObj, withdrawn := false }] }

def signal (book : NotifyBook) (idx : Nat) (status : SyncState) : NotifyBook :=
  { book with
    signals := book.signals ++ [(idx, status)]
    groups := fun group => (book.groups group).signal idx status }

def destroy (book : NotifyBook) (idx : Nat) : NotifyBook :=
  { (book.forget idx).withdraw (·.syncObj == idx) with
    groups := fun group => (book.groups group).lose idx }

/-- The book after a call that took the device from `before` to `after`. -/
def record (book : NotifyBook) (before after : SyncDevice) : SyncCall → NotifyBook
  | .create _ =>
    match before.syncTable.findFirstZeroBit with
    | none => book
    | some idx => book.forget idx
  | .merge syncObj _ _ _ =>
    match before.syncTable.findFirstZeroBit with
    | none => book
    | some idx =>
      if after.syncTable.bitmap idx then { book.forget idx with
          groups := Function.update book.groups idx
            (book.newGroup before.syncTable (syncObj.map Int.toNat)) }
      else book
  | .signal syncObj _ _ =>
    match camSyncObject syncObj with
    | none => book
    | some idx =>
      if (before.row idx).state = .active ∧ (after.row idx).state ≠ .active then
        book.signal idx (after.row idx).state
      else book
  | .destroy syncObj =>
    match camSyncObject syncObj with
    | none => book
    | some idx => if (before.row idx).state = .invalid then book else book.destroy idx
  | .registerCallback cbFunc userdata syncObj _ =>
    if after.syncTable.nodes = before.syncTable.nodes then book
    else book.register (.callback ⟨before.syncTable.nodes, cbFunc, userdata⟩) syncObj.toNat
  | .registerUserPayload payload syncObj _ =>
    if after.syncTable.nodes = before.syncTable.nodes then book
    else book.register (.payload ⟨before.syncTable.nodes, payload⟩) syncObj.toNat
  | .deregisterCallback cbFunc userdata syncObj =>
    book.deregister (Notification.isCallback cbFunc userdata) syncObj
  | .deregisterUserPayload payload syncObj =>
    book.deregister (Notification.isPayload payload) syncObj
  | .getObjRef _ | .putObjRef _ | .eventq _ => book

def Done (book : NotifyBook) (table : SyncTable) (idx : Nat) : Prop :=
  match (table.rows idx).type with
  | .indv => (table.rows idx).state.signaled = true
  | .group => (book.groups idx).complete = true

instance (book : NotifyBook) (table : SyncTable) (idx : Nat) : Decidable (book.Done table idx) := by
  unfold Done
  cases (table.rows idx).type <;> infer_instance

def finalStatus (book : NotifyBook) (table : SyncTable) (idx : Nat) : SyncState :=
  match (table.rows idx).type with
  | .indv => (table.rows idx).state
  | .group => (book.groups idx).status

end NotifyBook

structure NotifyState where
  dev : SyncDevice
  book : NotifyBook

def notifyStep (state : NotifyState) (call : SyncCall) : Option NotifyState :=
  (syncStep state.dev call).map fun after =>
    { dev := after, book := state.book.record state.dev after call }

def NotifyState.opened : NotifyState :=
  { dev := SyncDevice.probed.run fun table => { table with camSyncEventq := true }, book := .initial }

/-- No registration is dispatched twice, and one that is not withdrawn just when its object is done, with its
status. -/
structure Delivered (state : NotifyState) : Prop where
  atMostOnce : ∀ registration ∈ state.book.registrations, state.dev.syncTable.occurrences registration.what ≤ 1
  due : ∀ registration ∈ state.book.registrations, registration.withdrawn = false →
    (state.dev.syncTable.occurrences registration.what = 1 ↔
      state.book.Done state.dev.syncTable registration.syncObj)
  status : ∀ registration ∈ state.book.registrations, registration.withdrawn = false →
    ∀ dispatch ∈ state.dev.syncTable.dispatched, dispatch.notification = registration.what →
      dispatch.syncObj = registration.syncObj ∧
        dispatch.status = state.book.finalStatus state.dev.syncTable registration.syncObj

/-- A user payload is not registered on a group that has a status while children of it are pending, and among the
failed children of a new group the one listed last has the status of the one that failed first. -/
def NotifyCall (state : NotifyState) : SyncCall → Prop
  | .merge syncObj _ checked reserved => checked = [] ∧ reserved = [] ∧ ((syncObj.map Int.toNat).reverse.find?
          fun child => (state.dev.row child).state.failed).map (fun child =>
            (state.dev.row child).state) =
        (state.book.outcomes (syncObj.map Int.toNat)).find? SyncState.failed
  | .registerUserPayload _ syncObj _ => ∀ idx, camSyncObject syncObj = some idx →
      (state.dev.row idx).state.signaled = true → (state.dev.row idx).remaining = 0
  | .eventq _ => False
  | _ => True

instance (state : NotifyState) (call : SyncCall) : Decidable (NotifyCall state call) := by
  cases call with
  | registerUserPayload payload syncObj userPayload =>
    exact inferInstanceAs (Decidable (∀ idx ∈ camSyncObject syncObj,
      (state.dev.row idx).state.signaled = true → (state.dev.row idx).remaining = 0))
  | _ => unfold NotifyCall; infer_instance

end KernelModules.CamSync

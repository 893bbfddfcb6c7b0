import Mathlib.Algebra.Order.BigOperators.Group.List
import Mathlib.Algebra.Order.Group.Int
import Mathlib.Algebra.Ring.Int.Defs
import KernelModules.Data.Run

namespace KernelModules.Kgsl

open Bool hiding not_and
open Data Function

/-! # Sync objects

A sync object waits for events of three kinds.  A thread makes it, callbacks come in, and another thread destroys
it, each cut at its bit operations.  A reference is counted with its event.
-/

inductive SyncpointType where
  | timestamp
  | fence
  | timeline
deriving DecidableEq

inductive SyncpointStage where
  | unused
  | created
  | marked
  /-- There will be no callback: the sync point is already signaled, or it is in error. -/
  | refused (signaled : Bool)
  | cleared (signaled : Bool)
  | dropped
  | registered
  | settled

inductive SyncCallback where
  | none
  | armed
  | fired
  /-- It has cleared the event, and looks whether others are pending. -/
  | checking
  /-- `drawobj_sync_timeline_fence_work` has been queued. -/
  | working
  | finished
deriving DecidableEq

/-- Where the cancellation of an event by `syncobj_destroy` stands. -/
inductive SyncCancel where
  | none
  | begun
  | finished
deriving DecidableEq

/-- `kgsl_drawobj_sync_event`, with its bit of `pending` and the references that are held for it. -/
structure SyncEvent where
  type : SyncpointType
  stage : SyncpointStage
  pending : Bool
  callback : SyncCallback
  cancel : SyncCancel
  signaled : Bool
  /-- `handle` is set. -/
  handle : Bool
  drawobjRefs : Int
  contextRefs : Int
  fenceRefs : Int

inductive SyncCreator where
  | idle
  | adding (id : Nat)
  | failed
  | done
deriving DecidableEq

/-- Where `syncobj_destroy` stands. -/
inductive SyncDestroyer where
  | none
  | clearing (id : Nat)
  | cancelling (id : Nat)
  | finished
deriving DecidableEq

inductive Clearer where
  | callback
  | creator

/-- `kgsl_drawobj_sync` -/
structure SyncObject where
  numsyncs : Nat
  event : Nat → SyncEvent
  creator : SyncCreator
  destroyer : SyncDestroyer
  ownRef : Int
  /-- `syncobj_destroy_object` has run. -/
  freed : Bool
  /-- The calls of `drawctxt_sched` -/
  scheds : Nat
  /-- From when the last pending event of a live object is cleared until the dispatcher has the context or another
  event is marked pending. -/
  due : Option Clearer

inductive SyncAction where
  | addSyncpoint (type : SyncpointType) (signaled : Bool)
  | addFails
  /-- `set_bit` -/
  | mark
  /-- `kgsl_add_event`, `kgsl_sync_fence_async_wait` or `dma_fence_add_callback` -/
  | register (ok retired : Bool)
  | settle
  /-- `clear_bit` -/
  | clear
  | drop
  | finish
  | signal (id : Nat)
  /-- `test_and_clear_bit` in `drawobj_sync_expire` -/
  | expire (id : Nat)
  | check (id : Nat)
  | work (id : Nat)
  | destroy
  /-- `test_and_clear_bit` in `syncobj_destroy`, or what comes after its loop -/
  | destroyNext
  | cancel

def SyncEvent.unused : SyncEvent where
  type := .timestamp
  stage := .unused
  pending := false
  callback := .none
  cancel := .none
  signaled := false
  handle := false
  drawobjRefs := 0
  contextRefs := 0
  fenceRefs := 0

namespace SyncEvent

/-- The sync point has been allocated a slot of `synclist`. -/
def create (type : SyncpointType) (signaled : Bool) : SyncEvent :=
  { unused with
    type := type
    stage := .created
    signaled := signaled
    drawobjRefs := 1
    contextRefs := if type = .timestamp then 1 else 0
    fenceRefs := if type = .timeline then 1 else 0 }

variable (event : SyncEvent)

def mark : SyncEvent := { event with pending := true, stage := .marked }

/-- `kgsl_add_event` may queue the callback at once. -/
def addEvent (ok retired : Bool) : SyncEvent :=
  if ok then { event with callback := if retired then .fired else .armed, stage := .registered }
  else { event with stage := .refused false }

def fenceAsyncWait (ok : Bool) : SyncEvent :=
  if ok then
    -- sync_file_get_fence
    let event := { event with fenceRefs := event.fenceRefs + 1 }
    if event.signaled then { event with fenceRefs := event.fenceRefs - 1, stage := .refused true }
    else { event with callback := .armed, stage := .registered }
  else { event with stage := .refused false }

def fenceAddCallback : SyncEvent :=
  let event := { event with fenceRefs := event.fenceRefs + 1 }
  if event.signaled then { event with stage := .refused true }
  else { event with callback := .armed, stage := .registered }

def register (ok retired : Bool) : SyncEvent :=
  match event.type with
  | .timestamp => event.addEvent ok retired
  | .fence => event.fenceAsyncWait ok
  | .timeline => event.fenceAddCallback

def settle : SyncEvent :=
  match event.type with
  | .timestamp => { event with stage := .settled }
  | .fence => { event with handle := true, stage := .settled }
  | .timeline => { event with fenceRefs := event.fenceRefs - 1, stage := .settled }

def clear (signaled : Bool) : SyncEvent := { event with pending := false, stage := .cleared signaled }

def drop (signaled : Bool) : SyncEvent :=
  match event.type with
  | .timestamp =>
    { event with
      drawobjRefs := event.drawobjRefs - 1
      contextRefs := event.contextRefs - 1
      stage := .dropped }
  | .fence => { event with drawobjRefs := event.drawobjRefs - 1, stage := .dropped }
  | .timeline =>
    let event := if signaled then { event with fenceRefs := event.fenceRefs - 1 } else event
    { event with
      fenceRefs := event.fenceRefs - 1
      drawobjRefs := event.drawobjRefs - 1
      stage := .dropped }

/-- A sync point that is already signaled is no error, but for a timestamp, where there is none such. -/
def dropFails (signaled : Bool) : Bool := event.type = .timestamp || !signaled

def signal : SyncEvent :=
  { event with
    signaled := true
    callback := if event.callback = .armed then .fired else event.callback }

def lose : SyncEvent :=
  match event.type with
  | .timestamp => { event with drawobjRefs := event.drawobjRefs - 1, callback := .finished }
  | _ => { event with callback := .finished }

def conclude : SyncEvent :=
  match event.type with
  | .timestamp =>
    { event with
      contextRefs := event.contextRefs - 1
      drawobjRefs := event.drawobjRefs - 1
      callback := .finished }
  | .fence => { event with drawobjRefs := event.drawobjRefs - 1, callback := .finished }
  | .timeline => { event with callback := .working }

def work : SyncEvent :=
  { event with
    fenceRefs := event.fenceRefs - 1
    drawobjRefs := event.drawobjRefs - 1
    callback := .finished }

def locked : Bool := event.type ≠ .timestamp && (event.callback = .fired || event.callback = .checking)

/-- `kgsl_cancel_event` has the callback run, `dma_fence_remove_callback` removes it. -/
def cancelCallback : SyncEvent :=
  match event.type with
  | .timestamp =>
    { event with
      callback := if event.callback = .armed then .fired else event.callback
      contextRefs := event.contextRefs - 1
      cancel := .finished }
  | .fence =>
    { event with
      callback := if event.callback = .armed then .finished else event.callback
      drawobjRefs := event.drawobjRefs - 1
      cancel := .finished }
  | .timeline =>
    { event with
      callback := if event.callback = .armed then .finished else event.callback
      fenceRefs := event.fenceRefs - 1
      drawobjRefs := event.drawobjRefs - 1
      cancel := .finished }

/-- What `syncobj_destroy_object` does with the event. -/
def free : SyncEvent :=
  if event.type = .fence && event.handle then { event with fenceRefs := event.fenceRefs - 1 } else event

end SyncEvent

namespace SyncObject

variable (object : SyncObject)

def setEvent (id : Nat) (event : SyncEvent) : SyncObject :=
  { object with event := Function.update object.event id event }

/-- `kgsl_drawobj_events_pending` -/
def eventsPending : Bool := (List.range object.numsyncs).any fun id => (object.event id).pending

def refcount : Int :=
  object.ownRef + ((List.range object.numsyncs).map fun id => (object.event id).drawobjRefs).sum

/-- The end of `kgsl_drawobj_put` -/
def released : SyncObject :=
  if object.refcount = 0 then { object with event := fun id => (object.event id).free, freed := true }
  else object

/-- `drawctxt_sched` -/
def sched : SyncObject := { object with scheds := object.scheds + 1, due := none }

def live : Bool := object.destroyer = .none

/-- An event has been cleared; if it was the last of a live object, the dispatcher is to hear of it. -/
def noteCleared (clearer : Clearer) : SyncObject :=
  if object.live && !object.eventsPending then { object with due := some clearer } else object

def destroyNext (id : Nat) : SyncObject :=
  if id < object.numsyncs then if (object.event id).pending then
      { object.setEvent id { object.event id with pending := false, cancel := .begun } with
        destroyer := .cancelling id }
    else { object with destroyer := .clearing (id + 1) }
  else let object := if object.eventsPending then object.sched else object
    released { object with ownRef := object.ownRef - 1, destroyer := .finished }

def step (object : SyncObject) : SyncAction → Option SyncObject
  | .addSyncpoint type signaled =>
    match object.creator with
    | .idle =>
      some { object.setEvent object.numsyncs (.create type signaled) with
        numsyncs := object.numsyncs + 1
        creator := .adding object.numsyncs }
    | _ => none
  | .addFails =>
    match object.creator with
    | .idle => some { object with creator := .failed }
    | _ => none
  | .mark =>
    match object.creator with
    | .adding id =>
      match (object.event id).stage with
      | .created => some { object.setEvent id (object.event id).mark with due := none }
      | _ => none
    | _ => none
  | .register ok retired =>
    match object.creator with
    | .adding id =>
      match (object.event id).stage with
      | .marked => some (object.setEvent id ((object.event id).register ok retired))
      | _ => none
    | _ => none
  | .settle =>
    match object.creator with
    | .adding id =>
      match (object.event id).stage with
      | .registered => some { object.setEvent id (object.event id).settle with creator := .idle }
      | _ => none
    | _ => none
  | .clear =>
    match object.creator with
    | .adding id =>
      match (object.event id).stage with
      | .refused signaled =>
        some ((object.setEvent id ((object.event id).clear signaled)).noteCleared .creator)
      | _ => none
    | _ => none
  | .drop =>
    match object.creator with
    | .adding id =>
      match (object.event id).stage with
      | .cleared signaled =>
        some (released { object.setEvent id ((object.event id).drop signaled) with
          creator := if (object.event id).dropFails signaled then .failed else .idle })
      | _ => none
    | _ => none
  | .finish =>
    match object.creator with
    | .idle => some { object with creator := .done }
    | _ => none
  | .signal id => some (object.setEvent id (object.event id).signal)
  | .expire id =>
    if (object.event id).callback = .fired then if (object.event id).pending then some ((object.setEvent id
          { object.event id with pending := false, callback := .checking }).noteCleared .callback)
      else some (released (object.setEvent id (object.event id).lose))
    else none
  | .check id =>
    if (object.event id).callback = .checking then
      let after := if object.eventsPending then object else object.sched
      some (released (after.setEvent id (object.event id).conclude))
    else none
  | .work id =>
    if (object.event id).callback = .working then some (released (object.setEvent id (object.event id).work))
    else none
  | .destroy =>
    match object.creator, object.destroyer with
    | .failed, .none | .done, .none => some { object with destroyer := .clearing 0, due := none }
    | _, _ => none
  | .destroyNext =>
    match object.destroyer with
    | .clearing id => some (object.destroyNext id)
    | _ => none
  | .cancel =>
    match object.destroyer with
    | .cancelling id =>
      if (object.event id).locked then none
      else some (released { object.setEvent id (object.event id).cancelCallback with
          destroyer := .clearing (id + 1) })
    | _ => none

/-- `kgsl_drawobj_sync_create` -/
def init : SyncObject where
  numsyncs := 0
  event _ := .unused
  creator := .idle
  destroyer := .none
  ownRef := 1
  freed := false
  scheds := 0
  due := none

end SyncObject

open SyncObject (eventsPending init live noteCleared released sched setEvent step)

def SyncpointStage.building : SyncpointStage → Bool
  | .created | .marked | .refused _ | .cleared _ | .registered => true
  | .unused | .dropped | .settled => false

open SyncpointStage (building)

namespace SyncEvent

def awaited (event : SyncEvent) : Bool :=
  event.pending || event.callback = .checking || event.cancel = .begun

structure Bare (event : SyncEvent) (pending : Bool) : Prop where
  pending : event.pending = pending
  callback : event.callback = .none
  cancel : event.cancel = .none
  handle : event.handle = false

/-- An event with a callback: it is taken by the callback or by a cancellation, never by both. -/
structure Contended (event : SyncEvent) : Prop where
  callback : event.callback ≠ .none
  pending : event.pending = true → (event.callback = .armed ∨ event.callback = .fired) ∧ event.cancel = .none
  cancel : event.cancel ≠ .none → event.callback ≠ .checking ∧ event.callback ≠ .working
  removed : event.type ≠ .timestamp → event.callback = .armed ∨ event.callback = .fired →
    event.pending = true ∨ event.cancel = .begun
  working : event.callback = .working → event.type = .timeline

def Staged (event : SyncEvent) : Prop :=
  match event.stage with
  | .unused | .created | .dropped => event.Bare false
  | .marked => event.Bare true
  | .refused signaled => event.Bare true ∧ (event.type = .timeline → signaled = true)
  | .cleared signaled => event.Bare false ∧ (event.type = .timeline → signaled = true)
  | .registered => event.Contended ∧ event.handle = false
  | .settled => event.Contended ∧ event.handle = decide (event.type = .fence)

/-- The draw object references that are held until the callback of the event is through -/
def drawobjAwaited (event : SyncEvent) : Int :=
  match event.type with
  | .timestamp =>
    if event.callback = .armed ∨ event.callback = .fired ∨ event.callback = .checking then 1 else 0
  | .fence => if event.awaited then 1 else 0
  | .timeline => if event.awaited ∨ event.callback = .working then 1 else 0

def contextAwaited (event : SyncEvent) : Int :=
  if event.type = .timestamp ∧ event.awaited then 1 else 0

def fenceAwaited (event : SyncEvent) : Int :=
  if event.type = .timeline ∧ (event.awaited ∨ event.callback = .working) then 1 else 0

def drawobjHeld (event : SyncEvent) : Int :=
  match event.stage with
  | .unused | .dropped => 0
  | .created | .marked | .refused _ | .cleared _ => 1
  | .registered | .settled => event.drawobjAwaited

def contextHeld (event : SyncEvent) : Int :=
  match event.stage with
  | .unused | .dropped => 0
  | .created | .marked | .refused _ | .cleared _ => if event.type = .timestamp then 1 else 0
  | .registered | .settled => event.contextAwaited

def fenceHeld (event : SyncEvent) (freed : Bool) : Int :=
  match event.stage with
  | .unused | .dropped => 0
  | .created | .marked => if event.type = .timeline then 1 else 0
  | .refused _ | .cleared _ => if event.type = .timeline then 2 else 0
  | .registered => event.fenceAwaited + if event.type = .timestamp then 0 else 1
  | .settled => event.fenceAwaited + if event.type = .fence ∧ freed = false then 1 else 0

structure Sound (event : SyncEvent) (freed : Bool) : Prop where
  staged : event.Staged
  drawobj : event.drawobjRefs = event.drawobjHeld
  context : event.contextRefs = event.contextHeld
  fence : event.fenceRefs = event.fenceHeld freed

section Sound

variable {event : SyncEvent} {freed : Bool}

theorem Sound.create (type : SyncpointType) (signaled : Bool) : (create type signaled).Sound freed := by
  cases type <;> constructor <;>
    simp [SyncEvent.create, Staged, drawobjHeld, contextHeld, fenceHeld, unused] <;> constructor <;> rfl

section

variable (sound : event.Sound freed)
include sound

theorem Sound.mark (stage : event.stage = .created) : event.mark.Sound freed := by
  obtain ⟨staged, obj, ctx, fence⟩ := sound
  simp only [Staged, drawobjHeld, contextHeld, fenceHeld, stage] at staged obj ctx fence
  obtain ⟨-, cb, cancel, handle⟩ := staged
  exact ⟨⟨rfl, cb, cancel, handle⟩, obj, ctx, fence⟩

theorem Sound.register (stage : event.stage = .marked) (ok retired : Bool) :
    (event.register ok retired).Sound freed := by
  obtain ⟨staged, obj, ctx, fence⟩ := sound
  simp only [Staged, drawobjHeld, contextHeld, fenceHeld, stage] at staged obj ctx fence
  obtain ⟨pending, callback, cancel, handle⟩ := staged
  have refused (signaled : Bool) (timeline : event.type = .timeline → signaled = true)
      (refs : Int) (held : refs = if event.type = .timeline then 2 else 0) :
      { event with fenceRefs := refs, stage := .refused signaled }.Sound freed :=
    ⟨⟨⟨pending, callback, cancel, handle⟩, timeline⟩, obj, ctx, held⟩
  have reg (reached : SyncCallback) (known : reached = .armed ∨ reached = .fired) (refs : Int)
      (held : refs = if event.type = .timestamp then 0 else if event.type = .timeline then 2 else 1) :
      { event with callback := reached, fenceRefs := refs, stage := .registered }.Sound freed := by
    refine ⟨⟨⟨?_, fun _ => ⟨known, cancel⟩, ?_, fun _ _ => .inl pending, ?_⟩, handle⟩, ?_, ?_, ?_⟩
    · rintro rfl; simp at known
    · simp [cancel]
    · rintro rfl; simp at known
    · cases type : event.type <;> simp_all [drawobjHeld, drawobjAwaited, awaited]
      rcases known with rfl | rfl <;> simp
    · cases type : event.type <;> simp_all [contextHeld, contextAwaited, awaited]
    · cases type : event.type <;> simp_all [fenceHeld, fenceAwaited, awaited]
  unfold SyncEvent.register
  split
  case h_1 type =>
    unfold addEvent
    split
    · refine reg _ ?_ _ ?_
      · cases retired <;> simp
      · simp [fence, type]
    · refine refused _ ?_ _ ?_ <;> simp [fence, type]
  case h_2 type =>
    unfold fenceAsyncWait
    split
    · dsimp only
      split
      · refine refused _ ?_ _ ?_ <;> simp [fence, type]
      · refine reg _ (.inl rfl) _ ?_
        simp [fence, type]
    · refine refused _ ?_ _ ?_ <;> simp [fence, type]
  case h_3 type =>
    unfold fenceAddCallback
    dsimp only
    split
    · refine refused _ ?_ _ ?_ <;> simp [fence, type]
    · refine reg _ (.inl rfl) _ ?_
      simp [fence, type]

theorem Sound.settle (stage : event.stage = .registered) (held : freed = false) : event.settle.Sound freed := by
  obtain ⟨staged, obj, ctx, fence⟩ := sound
  simp only [Staged, drawobjHeld, contextHeld, fenceHeld, stage] at staged obj ctx fence
  obtain ⟨⟨known, pending, cancel, removed, working⟩, handle⟩ := staged
  unfold SyncEvent.settle
  split <;> rename_i type <;>
    refine ⟨⟨⟨known, pending, cancel, removed, working⟩, by simp [handle, type]⟩, obj, ctx, ?_⟩ <;>
    simp [fenceHeld, fence, type, held, fenceAwaited, awaited]

theorem Sound.clear {signaled : Bool} (stage : event.stage = .refused signaled) :
    (event.clear signaled).Sound freed := by
  obtain ⟨staged, obj, ctx, fence⟩ := sound
  simp only [Staged, drawobjHeld, contextHeld, fenceHeld, stage] at staged obj ctx fence
  obtain ⟨⟨-, cb, cancel, handle⟩, timeline⟩ := staged
  exact ⟨⟨⟨rfl, cb, cancel, handle⟩, timeline⟩, obj, ctx, fence⟩

theorem Sound.drop {signaled : Bool} (stage : event.stage = .cleared signaled) : (event.drop signaled).Sound freed := by
  obtain ⟨staged, obj, ctx, fence⟩ := sound
  simp only [Staged, drawobjHeld, contextHeld, fenceHeld, stage] at staged obj ctx fence
  obtain ⟨bare, timeline⟩ := staged
  have dropped (drawobjRefs contextRefs fenceRefs : Int) (obj : drawobjRefs = 0)
      (ctx : contextRefs = 0) (fence : fenceRefs = 0) :
      { event with drawobjRefs, contextRefs, fenceRefs, stage := .dropped }.Sound freed :=
    ⟨{ bare with }, obj, ctx, fence⟩
  unfold SyncEvent.drop
  split <;> rename_i type
  · refine dropped _ _ _ ?_ ?_ ?_ <;> simp [obj, ctx, fence, type]
  · refine dropped _ _ _ ?_ ?_ ?_ <;> simp [obj, ctx, fence, type]
  · rw [if_pos (timeline type)]
    refine dropped _ _ _ ?_ ?_ ?_ <;> simp [obj, ctx, fence, type]

theorem Sound.contended (cb : event.callback ≠ .none) :
    event.Contended ∧ (event.stage = .registered ∧ event.handle = false ∨
      event.stage = .settled ∧ event.handle = decide (event.type = .fence)) := by
  have staged := sound.staged
  cases stage : event.stage <;> simp only [Staged, stage] at staged
  case registered => exact ⟨staged.1, .inl ⟨rfl, staged.2⟩⟩
  case settled => exact ⟨staged.1, .inr ⟨rfl, staged.2⟩⟩
  case refused | cleared => exact absurd staged.1.callback cb
  all_goals exact absurd staged.callback cb

theorem Sound.advance {after : SyncEvent} (cb : event.callback ≠ .none)
    (type : after.type = event.type) (stage : after.stage = event.stage)
    (handle : after.handle = event.handle) (contended : after.Contended)
    (obj : after.drawobjRefs - event.drawobjRefs = after.drawobjAwaited - event.drawobjAwaited)
    (ctx : after.contextRefs - event.contextRefs = after.contextAwaited - event.contextAwaited)
    (fence : after.fenceRefs - event.fenceRefs = after.fenceAwaited - event.fenceAwaited) : after.Sound freed := by
  have reg := (sound.contended cb).2
  obtain ⟨-, drawobjWas, contextWas, fenceWas⟩ := sound
  rcases reg with ⟨known, handleKnown⟩ | ⟨known, handleKnown⟩ <;>
    simp only [drawobjHeld, contextHeld, fenceHeld, known] at drawobjWas contextWas fenceWas <;>
    constructor <;> simp only [Staged, drawobjHeld, contextHeld, fenceHeld, stage, known, type]
  · exact ⟨contended, handle.trans handleKnown⟩
  · omega
  · omega
  · omega
  · exact ⟨contended, handle.trans handleKnown⟩
  · omega
  · omega
  · omega

theorem Sound.expire (callback : event.callback = .fired) (pending : event.pending = true) :
    { event with pending := false, callback := .checking }.Sound freed := by
  have known : event.callback ≠ .none := by simp [callback]
  have cancel := ((sound.contended known).1.pending pending).2
  refine sound.advance known rfl rfl rfl ⟨?_, ?_, ?_, ?_, ?_⟩ ?_ ?_ ?_ <;>
    simp [drawobjAwaited, contextAwaited, fenceAwaited, awaited, callback, pending, cancel]

theorem Sound.lose (cb : event.callback = .fired) (pending : event.pending = false) : event.lose.Sound freed := by
  have known : event.callback ≠ .none := by simp [cb]
  unfold SyncEvent.lose
  split
  case h_1 type =>
    refine sound.advance known rfl rfl rfl ⟨?_, ?_, ?_, ?_, ?_⟩ ?_ ?_ ?_ <;>
      simp [drawobjAwaited, contextAwaited, fenceAwaited, awaited, cb, pending, type]
  case h_2 =>
    refine sound.advance known rfl rfl rfl ⟨?_, ?_, ?_, ?_, ?_⟩ ?_ ?_ ?_ <;> cases type : event.type <;>
      simp_all [drawobjAwaited, contextAwaited, fenceAwaited, awaited]

theorem Sound.conclude (cb : event.callback = .checking) : event.conclude.Sound freed := by
  have known : event.callback ≠ .none := by simp [cb]
  have contended := (sound.contended known).1
  have pending : event.pending = false :=
    eq_false_iff.mpr fun pending => by simpa [cb] using (contended.pending pending).1
  have cancel : event.cancel = .none :=
    Decidable.byContradiction fun cancel => (contended.cancel cancel).1 cb
  unfold SyncEvent.conclude
  split <;> rename_i type <;> refine sound.advance known rfl rfl rfl ⟨?_, ?_, ?_, ?_, ?_⟩ ?_ ?_ ?_ <;>
    simp [drawobjAwaited, contextAwaited, fenceAwaited, awaited, cb, pending, cancel, type]

theorem Sound.work (cb : event.callback = .working) : event.work.Sound freed := by
  have known : event.callback ≠ .none := by simp [cb]
  have contended := (sound.contended known).1
  have pending : event.pending = false :=
    eq_false_iff.mpr fun pending => by simpa [cb] using (contended.pending pending).1
  have cancel : event.cancel = .none :=
    Decidable.byContradiction fun cancel => (contended.cancel cancel).2 cb
  have type := contended.working cb
  refine sound.advance known rfl rfl rfl ⟨?_, ?_, ?_, ?_, ?_⟩ ?_ ?_ ?_ <;>
    simp [SyncEvent.work, drawobjAwaited, contextAwaited, fenceAwaited, awaited, cb, pending, cancel, type]

theorem Sound.begin (settled : event.stage.building = false) (pending : event.pending = true) :
    { event with pending := false, cancel := .begun }.Sound freed := by
  have known : event.callback ≠ .none := by
    have staged := sound.staged
    cases stage : event.stage <;> simp only [Staged, stage] at staged <;>
      simp only [stage, building, reduceCtorEq] at settled
    case settled => exact staged.1.callback
    all_goals simp [staged.pending] at pending
  have contended := (sound.contended known).1
  have working : event.callback ≠ .working := by
    rcases (contended.pending pending).1 with armed | fired <;> simp [*]
  have checking : event.callback ≠ .checking := by
    rcases (contended.pending pending).1 with armed | fired <;> simp [*]
  refine sound.advance known rfl rfl rfl ⟨known, ?_, ?_, ?_, ?_⟩ ?_ ?_ ?_ <;>
    simp [drawobjAwaited, contextAwaited, fenceAwaited, awaited, pending, working, checking]

theorem Sound.cancelCallback (begun : event.cancel = .begun) (unlocked : event.locked = false) :
    event.cancelCallback.Sound freed := by
  have known : event.callback ≠ .none := by
    have staged := sound.staged
    cases stage : event.stage <;> simp only [Staged, stage] at staged
    case registered | settled => exact staged.1.callback
    case refused | cleared => simp [staged.1.cancel] at begun
    all_goals simp [staged.cancel] at begun
  have contended := (sound.contended known).1
  obtain ⟨checking, working⟩ := contended.cancel (by simp [begun])
  have pending : event.pending = false :=
    eq_false_iff.mpr fun pending => by simpa [begun] using (contended.pending pending).2
  unfold SyncEvent.cancelCallback
  by_cases armed : event.callback = .armed
  · split <;> rename_i type <;> refine sound.advance known rfl rfl rfl ⟨?_, ?_, ?_, ?_, ?_⟩ ?_ ?_ ?_ <;>
      simp [drawobjAwaited, contextAwaited, fenceAwaited, awaited, pending, begun, armed, type]
  · simp only [if_neg armed]
    split <;> rename_i type <;> simp only [locked, type] at unlocked <;>
      refine sound.advance known rfl rfl rfl ⟨known, ?_, ?_, ?_, ?_⟩ ?_ ?_ ?_ <;>
      simp_all [drawobjAwaited, contextAwaited, fenceAwaited, awaited]

theorem Sound.signal : event.signal.Sound freed := by
  by_cases armed : event.callback = .armed
  · have known : event.callback ≠ .none := by simp [armed]
    obtain ⟨-, pending, -, removed, -⟩ := (sound.contended known).1
    unfold SyncEvent.signal
    refine sound.advance known rfl rfl rfl ⟨?_, ?_, ?_, ?_, ?_⟩ ?_ ?_ ?_ <;>
      simp_all [drawobjAwaited, contextAwaited, fenceAwaited, awaited]
  unfold SyncEvent.signal
  rw [if_neg armed]
  obtain ⟨staged, obj, ctx, fence⟩ := sound
  refine ⟨?_, obj, ctx, fence⟩
  cases stage : event.stage <;> simp only [Staged, stage] at staged ⊢
  case registered | settled =>
    exact ⟨⟨staged.1.callback, staged.1.pending, staged.1.cancel, staged.1.removed, staged.1.working⟩, staged.2⟩
  case refused | cleared =>
    exact ⟨⟨staged.1.pending, staged.1.callback, staged.1.cancel, staged.1.handle⟩, staged.2⟩
  all_goals exact { staged with }

end

theorem Sound.free (sound : event.Sound false) : event.free.Sound true := by
  obtain ⟨staged, obj, ctx, fence⟩ := sound
  unfold SyncEvent.free
  split
  case isTrue kept =>
    rw [and_eq_true, decide_eq_true_eq] at kept
    obtain ⟨type, handle⟩ := kept
    have stage : event.stage = .settled := by
      cases stage : event.stage <;> simp only [Staged, stage] at staged
      case settled => rfl
      case registered => simp [staged.2] at handle
      case refused | cleared => simp [staged.1.handle] at handle
      all_goals simp [staged.handle] at handle
    simp only [Staged, stage] at staged
    obtain ⟨⟨known, pending, cancel, removed, working⟩, -⟩ := staged
    refine ⟨?_, obj, ctx, ?_⟩
    · simp only [Staged, stage]
      exact ⟨⟨known, pending, cancel, removed, working⟩, by simp [handle, type]⟩
    · simp only [fenceHeld, stage] at fence ⊢
      simp [fence, fenceAwaited, type]
  case isFalse kept =>
    refine ⟨staged, obj, ctx, ?_⟩
    rw [fence]
    cases stage : event.stage <;> simp only [fenceHeld, stage]
    simp only [Staged, stage] at staged
    have type : event.type ≠ .fence := fun type => kept (by simp [staged.2, type])
    simp [type]

theorem Sound.nonneg (sound : event.Sound freed) :
    0 ≤ event.drawobjRefs ∧ 0 ≤ event.contextRefs ∧ 0 ≤ event.fenceRefs := by
  obtain ⟨-, obj, ctx, fence⟩ := sound
  rw [obj, ctx, fence]
  refine ⟨?_, ?_, ?_⟩
  · unfold drawobjHeld drawobjAwaited
    split <;> first | omega | split <;> omega
  · unfold contextHeld contextAwaited
    split <;> omega
  · unfold fenceHeld fenceAwaited
    split <;> omega

def quiet (event : SyncEvent) : Bool := event.callback = .none || event.callback = .finished

theorem Sound.quiet (sound : event.Sound freed) (put : event.drawobjRefs = 0) : event.quiet = true := by
  by_cases known : event.callback = .none
  · simp [SyncEvent.quiet, known]
  obtain ⟨⟨-, pending, cancel, removed, working⟩, reg⟩ := sound.contended known
  have obj : event.drawobjAwaited = 0 := by
    rw [← put, sound.drawobj]
    rcases reg with ⟨stage, -⟩ | ⟨stage, -⟩ <;> simp only [drawobjHeld, stage]
  cases cb : event.callback <;> cases type : event.type <;>
    simp_all [SyncEvent.quiet, drawobjAwaited, awaited]

theorem Sound.put (sound : event.Sound true) (settled : event.stage.building = false)
    (cancel : event.cancel ≠ .begun) (obj : event.drawobjRefs = 0) : event.contextRefs = 0 ∧ event.fenceRefs = 0 := by
  have quiet := sound.quiet obj
  rw [sound.context, sound.fence]
  cases stage : event.stage <;> simp only [stage, building, reduceCtorEq] at settled <;>
    simp [contextHeld, fenceHeld, stage]
  have staged := sound.staged
  simp only [Staged, stage] at staged
  have cb : event.callback = .finished := by
    simpa [SyncEvent.quiet, staged.1.callback] using quiet
  have pending : event.pending = false :=
    eq_false_iff.mpr fun pending => by simpa [cb] using (staged.1.pending pending).1
  simp [contextAwaited, fenceAwaited, awaited, pending, cb, cancel]

theorem Sound.of_pending (sound : event.Sound freed) (pending : event.pending = true) : event.cancel = .none ∧
      (event.callback = .none ∨ event.callback = .armed ∨ event.callback = .fired) := by
  have staged := sound.staged
  by_cases known : event.callback = .none
  · refine ⟨?_, .inl known⟩
    cases stage : event.stage <;> simp only [Staged, stage] at staged
    case registered | settled => exact absurd known staged.1.callback
    case refused | cleared => exact staged.1.cancel
    all_goals exact staged.cancel
  · obtain ⟨cb, cancel⟩ := (sound.contended known).1.pending pending
    exact ⟨cancel, .inr cb⟩

theorem Sound.put_of_quiet (sound : event.Sound freed) (quiet : event.quiet = true)
    (settled : event.stage.building = false) (cancel : event.cancel ≠ .begun) : event.drawobjRefs = 0 := by
  rw [sound.drawobj]
  cases stage : event.stage <;> simp only [stage, building, reduceCtorEq] at settled <;>
    simp [drawobjHeld, stage]
  have staged := sound.staged
  simp only [Staged, stage] at staged
  have cb : event.callback = .finished := by
    simpa [SyncEvent.quiet, staged.1.callback] using quiet
  have pending : event.pending = false :=
    eq_false_iff.mpr fun pending => by simpa [cb] using (staged.1.pending pending).1
  cases type : event.type <;> simp [drawobjAwaited, awaited, cb, pending, cancel, type]

end Sound

section

variable (event : SyncEvent)
include event

@[simp] theorem free_frame : event.free.stage = event.stage ∧ event.free.pending = event.pending ∧
    event.free.callback = event.callback ∧ event.free.cancel = event.cancel ∧
    event.free.drawobjRefs = event.drawobjRefs := by
  unfold SyncEvent.free
  split <;> exact ⟨rfl, rfl, rfl, rfl, rfl⟩

end

end SyncEvent

/-- The events that `syncobj_destroy` has dealt with -/
def SyncDestroyer.past : SyncDestroyer → Nat → Bool
  | .none, _ => false
  | .clearing next, id => id < next
  | .cancelling next, id => id ≤ next
  | .finished, _ => true

open SyncDestroyer (past)

namespace SyncObject

structure Orderly (object : SyncObject) : Prop where
  sound : ∀ id, (object.event id).Sound object.freed
  fresh : ∀ id, object.numsyncs ≤ id → (object.event id).stage = .unused
  building : ∀ id, (object.event id).stage.building = true → object.creator = .adding id
  ended : object.destroyer ≠ .none → object.creator = .failed ∨ object.creator = .done
  owned : object.ownRef = if object.destroyer = .finished then 0 else 1
  begun : ∀ id, (object.event id).cancel = .begun ↔ object.destroyer = .cancelling id
  swept : ∀ id, object.destroyer.past id = true → (object.event id).pending = false
  due : object.due ≠ none → object.destroyer = .none ∧ ∀ id, (object.event id).pending = false
  dueCallback : object.due = some .callback → ∃ id, (object.event id).callback = .checking

structure Kept (object : SyncObject) : Prop extends object.Orderly where
  counted : object.freed = true ↔ object.refcount = 0

section Kept

variable {object : SyncObject}

theorem noteCleared_frame : (object.noteCleared clearer).freed = object.freed ∧
    (object.noteCleared clearer).destroyer = object.destroyer ∧
    (object.noteCleared clearer).numsyncs = object.numsyncs ∧ (object.noteCleared clearer).event = object.event := by
  unfold noteCleared
  split <;> exact ⟨rfl, rfl, rfl, rfl⟩

theorem refcount_eq_zero (own : 0 ≤ object.ownRef) (nonneg : ∀ id, 0 ≤ (object.event id).drawobjRefs) :
    object.refcount = 0 ↔ object.ownRef = 0 ∧ ∀ id < object.numsyncs, (object.event id).drawobjRefs = 0 := by
  have each : ∀ refs ∈ (List.range object.numsyncs).map fun id => (object.event id).drawobjRefs, 0 ≤ refs := by
    intro refs mem
    obtain ⟨id, -, rfl⟩ := List.mem_map.mp mem
    exact nonneg id
  have sum := List.sum_nonneg each
  unfold refcount
  constructor
  · intro zero
    refine ⟨by omega, fun id known => ?_⟩
    have := List.single_le_sum each _ (List.mem_map_of_mem (List.mem_range.mpr known))
    have := nonneg id
    omega
  · rintro ⟨own, put⟩
    rw [own, zero_add]
    refine List.sum_eq_zero fun refs mem => ?_
    obtain ⟨id, known, rfl⟩ := List.mem_map.mp mem
    exact put id (List.mem_range.mp known)

section

variable (orderly : object.Orderly)
include orderly

theorem Orderly.nonneg (id : Nat) : 0 ≤ (object.event id).drawobjRefs :=
  (orderly.sound id).nonneg.1

theorem Orderly.own : 0 ≤ object.ownRef := by
  rw [orderly.owned]
  split <;> omega

theorem Orderly.released (held : object.freed = false) : object.released.Kept := by
  unfold SyncObject.released
  split
  case isTrue zero =>
    obtain ⟨sound, fresh, building, ended, owned, begun, swept, due, dueCallback⟩ := orderly
    rw [held] at sound
    refine ⟨⟨fun id => (sound id).free, ?_, ?_, ended, owned, ?_, ?_, ?_, ?_⟩, ?_⟩
    · simpa using fresh
    · simpa using building
    · simpa using begun
    · simpa using swept
    · simpa using due
    · simpa using dueCallback
    · simpa [refcount] using zero
  case isFalse ne => exact ⟨orderly, by simp [held, ne]⟩

theorem Orderly.kept (held : object.freed = false) (used : object.destroyer ≠ .finished ∨
      ∃ id < object.numsyncs, (object.event id).drawobjRefs ≠ 0) : object.Kept := by
  refine ⟨orderly, ?_⟩
  rw [refcount_eq_zero orderly.own orderly.nonneg, orderly.owned, held]
  rcases used with used | ⟨id, known, used⟩
  · simp [used]
  · simp only [false_eq_true, false_iff, not_and]
    exact fun _ put => used (put id known)

theorem Orderly.unused {id : Nat} (fresh : object.numsyncs ≤ id) :
    (object.event id).Bare false ∧ (object.event id).drawobjRefs = 0 := by
  have sound := orderly.sound id
  have stage := orderly.fresh id fresh
  refine ⟨?_, ?_⟩
  · simpa [SyncEvent.Staged, stage] using sound.staged
  · rw [sound.drawobj, SyncEvent.drawobjHeld, stage]

end

theorem Kept.put (kept : object.Kept) (freed : object.freed = true) :
    object.destroyer = .finished ∧ ∀ id, (object.event id).drawobjRefs = 0 := by
  have zero := kept.counted.mp freed
  rw [refcount_eq_zero kept.own kept.nonneg, kept.owned] at zero
  obtain ⟨own, put⟩ := zero
  refine ⟨by_contra fun ended => by simp [ended] at own, fun id => ?_⟩
  by_cases known : id < object.numsyncs
  · exact put id known
  · exact (kept.unused (by omega)).2

theorem Kept.held_of_destroyer (kept : object.Kept) (destroyer : object.destroyer ≠ .finished) : object.freed = false :=
  eq_false_iff.mpr fun freed => destroyer (kept.put freed).1

theorem Kept.held_of_callback (kept : object.Kept) (id : Nat)
    (running : (object.event id).quiet = false) : object.freed = false :=
  eq_false_iff.mpr fun freed => by
    rw [(kept.sound id).quiet ((kept.put freed).2 id)] at running
    cases running

section

variable (orderly : object.Orderly)
include orderly

theorem Orderly.known (id : Nat) (stage : (object.event id).stage ≠ .unused) : id < object.numsyncs := by
  by_contra fresh
  exact stage (orderly.fresh id (by omega))

theorem Orderly.adding {id : Nat} (creator : object.creator = .adding id) : object.destroyer = .none := by
  by_contra destroyer
  rcases orderly.ended destroyer with ended | ended <;> simp [creator] at ended

theorem Orderly.not_building (destroyer : object.destroyer ≠ .none) (id : Nat) :
    (object.event id).stage.building = false := by
  rcases orderly.ended destroyer with ended | ended <;>
    exact eq_false_iff.mpr fun built => by simpa [ended] using orderly.building id built

theorem Orderly.eventsPending : object.eventsPending = false ↔ ∀ id, (object.event id).pending = false := by
  simp only [SyncObject.eventsPending, List.any_eq_false, List.mem_range, not_eq_true]
  refine ⟨fun clear id => ?_, fun clear id _ => clear id⟩
  by_cases known : id < object.numsyncs
  · exact clear id known
  · exact (orderly.unused (by omega)).1.pending

end

theorem every_update (holds : Nat → SyncEvent → Prop) {id : Nat} (here : holds id after)
    (others : ∀ other, holds other (object.event other)) (other : Nat) :
    holds other (update object.event id after other) :=
  (forall_update_iff object.event holds).mpr ⟨here, fun other _ => others other⟩ other

theorem setEvent_checking {id : Nat} (checking : (object.event other).callback = .checking)
    (still : other = id → after.callback = .checking) :
    ((object.setEvent id after).event other).callback = .checking := by
  by_cases same : other = id
  · subst same; simpa [setEvent] using still rfl
  · simpa [setEvent, same] using checking

section

variable (orderly : object.Orderly)
include orderly

theorem Orderly.setEvent {id : Nat} (sound : after.Sound object.freed)
    (stage : after.stage = (object.event id).stage) (cancel : after.cancel = (object.event id).cancel)
    (pending : after.pending = true → (object.event id).pending = true)
    (due : object.due = some .callback → (object.event id).callback = .checking →
      after.callback = .checking) : (object.setEvent id after).Orderly := by
  obtain ⟨sounds, fresh, building, ended, owned, begun, swept, clear, dueCallback⟩ := orderly
  have cleared : (object.event id).pending = false → after.pending = false := by
    cases taken : after.pending <;> simp_all
  refine ⟨?_, ?_, ?_, ended, owned, ?_, ?_, ?_, ?_⟩
  · exact every_update (fun _ event => event.Sound object.freed) sound sounds
  · exact every_update (fun other event => object.numsyncs ≤ other → event.stage = .unused) (stage ▸ fresh id) fresh
  · exact every_update (fun other event => event.stage.building = true → object.creator = .adding other) (stage ▸ building id) building
  · exact every_update (fun other event => event.cancel = .begun ↔ object.destroyer = .cancelling other) (cancel ▸ begun id) begun
  · exact every_update (fun other event => object.destroyer.past other = true → event.pending = false) (fun past => cleared (swept id past)) swept
  · intro expected
    exact ⟨(clear expected).1, every_update (fun _ event => event.pending = false) (cleared ((clear expected).2 id)) (clear expected).2⟩
  · intro expected
    obtain ⟨other, checking⟩ := dueCallback expected
    exact ⟨other, setEvent_checking checking fun same => due expected (same ▸ checking)⟩

theorem Orderly.setAdded {id : Nat} (creator : object.creator = .adding id) (known : id < object.numsyncs)
    (sound : after.Sound object.freed) (building : after.stage.building = true → next = .adding id)
    (cancel : after.cancel ≠ .begun) (due : object.due ≠ none → after.pending = false)
    (cb : (object.event id).callback = .checking → after.callback = .checking) :
    { object.setEvent id after with creator := next }.Orderly := by
  have live := orderly.adding creator
  obtain ⟨sounds, fresh, buildings, -, owned, begun, swept, clear, dueCallback⟩ := orderly
  refine ⟨?_, ?_, ?_, absurd live, owned, ?_, ?_, ?_, ?_⟩
  · exact every_update (fun _ event => event.Sound object.freed) sound sounds
  · exact every_update (fun other event => object.numsyncs ≤ other → event.stage = .unused) (fun beyond => absurd known (not_lt.mpr beyond)) fresh
  · refine (forall_update_iff object.event fun other event =>
      event.stage.building = true → next = .adding other).mpr ⟨building, fun other apart built => ?_⟩
    have adding := buildings other built
    rw [creator] at adding
    cases adding
    exact absurd rfl apart
  · refine every_update (fun other event => event.cancel = .begun ↔ object.destroyer = .cancelling other) ?_ begun
    simp [live, cancel]
  · intro other past
    simp [SyncObject.setEvent, live, SyncDestroyer.past] at past
  · intro expected
    exact ⟨live, every_update (fun _ event => event.pending = false) (due expected) (clear expected).2⟩
  · intro expected
    obtain ⟨other, checking⟩ := dueCallback expected
    exact ⟨other, setEvent_checking checking fun same => cb (same ▸ checking)⟩

theorem Orderly.withoutDue : { object with due := none }.Orderly :=
  { orderly with due := by simp, dueCallback := by simp }

theorem Orderly.sched : object.sched.Orderly :=
  { orderly with due := by simp [SyncObject.sched], dueCallback := by simp [SyncObject.sched] }

theorem Orderly.noteCleared (cb : clearer = .callback → ∃ id, (object.event id).callback = .checking) :
    (object.noteCleared clearer).Orderly := by
  unfold SyncObject.noteCleared
  split
  case isTrue last =>
    rw [and_eq_true, not_eq_true', orderly.eventsPending] at last
    obtain ⟨live, clear⟩ := last
    refine { orderly with due := fun _ => ⟨by simpa [SyncObject.live] using live, clear⟩, dueCallback := ?_ }
    simpa using cb
  case isFalse => exact orderly

theorem Orderly.idle (creator : object.creator = .idle) : object.destroyer = .none := by
  by_contra destroyer
  rcases orderly.ended destroyer with ended | ended <;> simp [creator] at ended

theorem Orderly.setCreator (creator : object.creator = .idle) : { object with creator := next }.Orderly := by
  refine { orderly with building := fun id built => ?_, ended := fun ended => ?_ }
  · have adding := orderly.building id built
    simp [creator] at adding
  · exact absurd (orderly.idle creator) ended

theorem Orderly.addSyncpoint (creator : object.creator = .idle) (type : SyncpointType)
    (signaled : Bool) : { object.setEvent object.numsyncs (.create type signaled) with
      numsyncs := object.numsyncs + 1
      creator := .adding object.numsyncs }.Orderly := by
  have live := orderly.idle creator
  obtain ⟨bare, -⟩ := orderly.unused le_rfl
  obtain ⟨sounds, fresh, buildings, -, owned, begun, swept, clear, dueCallback⟩ := orderly
  refine ⟨?_, ?_, ?_, absurd live, owned, ?_, ?_, ?_, ?_⟩
  · exact every_update (fun _ event => event.Sound object.freed) (.create type signaled) sounds
  · exact (forall_update_iff object.event fun other event =>
      object.numsyncs + 1 ≤ other → event.stage = .unused).mpr
      ⟨fun beyond => absurd beyond (by omega), fun other _ beyond => fresh other (by omega)⟩
  · refine (forall_update_iff object.event fun other event => event.stage.building = true →
      SyncCreator.adding object.numsyncs = .adding other).mpr ⟨fun _ => rfl, fun other _ built => ?_⟩
    have adding := buildings other built
    simp [creator] at adding
  · refine every_update (fun other event => event.cancel = .begun ↔ object.destroyer = .cancelling other) ?_ begun
    simp [live, SyncEvent.create, SyncEvent.unused]
  · intro other past
    simp [SyncObject.setEvent, live, SyncDestroyer.past] at past
  · intro expected
    exact ⟨live, every_update (fun _ event => event.pending = false) rfl (clear expected).2⟩
  · intro expected
    obtain ⟨other, checking⟩ := dueCallback expected
    refine ⟨other, setEvent_checking checking ?_⟩
    rintro rfl
    simp [bare.callback] at checking

theorem Orderly.setDestroyer {id : Nat} (destroyer : object.destroyer ≠ .none)
    (unfinished : object.destroyer ≠ .finished) (goingOn : next ≠ .finished)
    (sound : after.Sound object.freed) (stage : after.stage = (object.event id).stage)
    (cleared : after.pending = false) (begun : after.cancel = .begun ↔ next = .cancelling id)
    (others : ∀ other, other ≠ id → (object.destroyer = .cancelling other ↔ next = .cancelling other))
    (past : ∀ other, other ≠ id → next.past other = true → object.destroyer.past other = true) :
    { object.setEvent id after with destroyer := next }.Orderly := by
  obtain ⟨sounds, fresh, building, ended, owned, begunIff, swept, due, dueCallback⟩ := orderly
  refine ⟨?_, ?_, ?_, fun _ => ended destroyer, ?_, ?_, ?_, ?_, ?_⟩
  · exact every_update (fun _ event => event.Sound object.freed) sound sounds
  · exact every_update (fun other event => object.numsyncs ≤ other → event.stage = .unused) (stage ▸ fresh id) fresh
  · exact every_update (fun other event => event.stage.building = true → object.creator = .adding other) (stage ▸ building id) building
  · rw [if_neg unfinished] at owned
    rw [if_neg goingOn]
    exact owned
  · exact (forall_update_iff object.event fun other event =>
      event.cancel = .begun ↔ next = .cancelling other).mpr
      ⟨begun, fun other apart => (begunIff other).trans (others other apart)⟩
  · exact (forall_update_iff object.event fun other event =>
      next.past other = true → event.pending = false).mpr
      ⟨fun _ => cleared, fun other apart reached => swept other (past other apart reached)⟩
  · exact fun expected => absurd (due expected).1 destroyer
  · exact fun expected => absurd (due (by simp [show object.due = _ from expected])).1 destroyer

end

section

variable (kept : object.Kept)
include kept

theorem Kept.signal (id : Nat) : (object.setEvent id (object.event id).signal).Kept := by
  have orderly := kept.toOrderly.setEvent (kept.sound id).signal rfl rfl (fun pending => pending)
    fun _ checking => by simp [SyncEvent.signal, checking]
  refine ⟨orderly, ?_⟩
  have same : (object.setEvent id (object.event id).signal).refcount = object.refcount := by
    have refs : ((List.range object.numsyncs).map fun other =>
        ((object.setEvent id (object.event id).signal).event other).drawobjRefs) =
        (List.range object.numsyncs).map fun other => (object.event other).drawobjRefs := by
      refine List.map_congr_left fun other _ => ?_
      by_cases same : other = id
      · subst same; simp [setEvent, SyncEvent.signal]
      · simp [setEvent, same]
    exact congrArg (fun refs => object.ownRef + refs.sum) refs
  rw [same]
  exact kept.counted

theorem Kept.expire {id : Nat} (callback : (object.event id).callback = .fired)
    (pending : (object.event id).pending = true) : ((object.setEvent id
      { object.event id with pending := false, callback := .checking }).noteCleared .callback).Kept := by
  have held := kept.held_of_callback id (by simp [SyncEvent.quiet, callback])
  have known := kept.toOrderly.known id fun stage => by
    have staged := (kept.sound id).staged
    simp only [SyncEvent.Staged, stage] at staged
    simp [staged.callback] at callback
  have sound := (kept.sound id).expire callback pending
  have used : ((object.setEvent id
      { object.event id with pending := false, callback := .checking }).event id).drawobjRefs ≠ 0 := by
    simp only [setEvent, update_self]
    exact fun put => by simpa [SyncEvent.quiet] using sound.quiet put
  have orderly : (noteCleared (object.setEvent id
      { object.event id with pending := false, callback := .checking }) .callback).Orderly :=
    (kept.toOrderly.setEvent sound rfl rfl (by simp) (by simp)).noteCleared fun _ => ⟨id, by simp [setEvent]⟩
  refine orderly.kept ?_ (.inr ⟨id, ?_⟩)
  · rw [noteCleared_frame.1]; exact held
  · rw [noteCleared_frame.2.2.1, noteCleared_frame.2.2.2]; exact ⟨known, used⟩

theorem Kept.lose {id : Nat} (cb : (object.event id).callback = .fired)
    (pending : (object.event id).pending = false) : (released (object.setEvent id (object.event id).lose)).Kept := by
  have held := kept.held_of_callback id (by simp [SyncEvent.quiet, cb])
  refine (kept.toOrderly.setEvent ((kept.sound id).lose cb pending) ?_ ?_ ?_ ?_).released held
  · unfold SyncEvent.lose; split <;> rfl
  · unfold SyncEvent.lose; split <;> rfl
  · unfold SyncEvent.lose; split <;> exact fun pending => pending
  · simp [cb]

theorem Kept.check {id : Nat} (cb : (object.event id).callback = .checking) :
    (released ((if object.eventsPending then object else object.sched).setEvent id
      (object.event id).conclude)).Kept := by
  have held := kept.held_of_callback id (by simp [SyncEvent.quiet, cb])
  have stage : (object.event id).conclude.stage = (object.event id).stage := by
    unfold SyncEvent.conclude; split <;> rfl
  have cancel : (object.event id).conclude.cancel = (object.event id).cancel := by
    unfold SyncEvent.conclude; split <;> rfl
  have pending : (object.event id).conclude.pending = true → (object.event id).pending = true := by
    unfold SyncEvent.conclude; split <;> exact fun pending => pending
  have sound := (kept.sound id).conclude cb
  split
  case isTrue some =>
    refine (kept.toOrderly.setEvent sound stage cancel pending fun due => ?_).released held
    rw [kept.toOrderly.eventsPending.mpr (kept.due (by simp [due])).2] at some
    cases some
  case isFalse =>
    exact (kept.toOrderly.sched.setEvent sound stage cancel pending nofun).released held

theorem Kept.work {id : Nat} (cb : (object.event id).callback = .working) :
    (released (object.setEvent id (object.event id).work)).Kept := by
  have held := kept.held_of_callback id (by simp [SyncEvent.quiet, cb])
  exact (kept.toOrderly.setEvent ((kept.sound id).work cb) rfl rfl (fun pending => pending)
    (by simp [cb])).released held

theorem Kept.destroyNext {id : Nat} (destroyer : object.destroyer = .clearing id) : (object.destroyNext id).Kept := by
  have held := kept.held_of_destroyer (by simp [destroyer])
  unfold SyncObject.destroyNext
  split
  case isTrue known =>
    have stage := kept.toOrderly.not_building (by simp [destroyer]) id
    split
    case isTrue pending =>
      refine (kept.toOrderly.setDestroyer (by simp [destroyer]) (by simp [destroyer]) (by simp)
        ((kept.sound id).begin stage pending) rfl rfl (by simp) ?_ ?_).kept held (.inl (by simp))
      · simp [destroyer, eq_comm]
      · simp only [destroyer, past, decide_eq_true_eq]
        exact fun other apart reached => by omega
    case isFalse pending =>
      have clear : (object.event id).pending = false := eq_false_iff.mpr pending
      refine Orderly.kept ⟨kept.sound, kept.fresh, kept.building, fun _ => kept.ended (by simp [destroyer]),
        ?_, ?_, ?_, ?_, ?_⟩ held (.inl (by simp))
      · simpa [destroyer] using kept.owned
      · simpa [destroyer] using kept.begun
      · simp only [past, decide_eq_true_eq]
        intro other reached
        by_cases same : other = id
        · exact same ▸ clear
        · exact kept.swept other (by simp [destroyer, past]; omega)
      · exact fun expected => absurd (kept.due expected).1 (by simp [destroyer])
      · exact fun expected => absurd (kept.due (by simp [show object.due = _ from expected])).1 (by simp [destroyer])
  case isFalse unknown =>
    have clear : ∀ other, (object.event other).pending = false := by
      intro other
      by_cases reached : other < id
      · exact kept.swept other (by simp [destroyer, past, reached])
      · exact (kept.unused (by omega)).1.pending
    rw [if_neg (by simp [kept.toOrderly.eventsPending.mpr clear])]
    refine Orderly.released ⟨kept.sound, kept.fresh, kept.building,
      fun _ => kept.ended (by simp [destroyer]), ?_, ?_, fun other _ => clear other, ?_, ?_⟩ held
    · have owned := kept.owned
      simp only [destroyer, reduceCtorEq, if_false] at owned
      simp [owned]
    · simpa [destroyer] using kept.begun
    · exact fun expected => absurd (kept.due expected).1 (by simp [destroyer])
    · exact fun expected => absurd (kept.due (by simp [show object.due = _ from expected])).1 (by simp [destroyer])

theorem Kept.cancel {id : Nat} (destroyer : object.destroyer = .cancelling id)
    (unlocked : (object.event id).locked = false) :
    (released { object.setEvent id (object.event id).cancelCallback with
      destroyer := .clearing (id + 1) }).Kept := by
  have held := kept.held_of_destroyer (by simp [destroyer])
  have begun := (kept.begun id).mpr destroyer
  have pending := kept.swept id (by simp [destroyer, past])
  refine (kept.toOrderly.setDestroyer (by simp [destroyer]) (by simp [destroyer]) (by simp)
    ((kept.sound id).cancelCallback begun unlocked) ?_ ?_ ?_ ?_ ?_).released held
  · unfold SyncEvent.cancelCallback; split <;> rfl
  · unfold SyncEvent.cancelCallback; split <;> exact pending
  · unfold SyncEvent.cancelCallback; split <;> simp
  · intro other apart
    simp [destroyer, apart.symm]
  · simp only [destroyer, past, decide_eq_true_eq]
    exact fun other apart reached => by omega

end

section

variable {id : Nat} (kept : object.Kept) (creator : object.creator = .adding id)
include kept creator

theorem Kept.building_added (reached : (object.event id).stage = stage) (used : stage ≠ .unused) :
    id < object.numsyncs ∧ object.freed = false ∧ object.destroyer ≠ .finished ∧ (object.event id).Staged := by
  have live := kept.toOrderly.adding creator
  exact ⟨kept.toOrderly.known id (reached ▸ used), kept.held_of_destroyer (by simp [live]), by simp [live],
    (kept.sound id).staged⟩

theorem Kept.mark (stage : (object.event id).stage = .created) :
    { object.setEvent id (object.event id).mark with due := none }.Kept := by
  obtain ⟨known, held, live, bare⟩ := kept.building_added creator stage (by simp)
  simp only [SyncEvent.Staged, stage] at bare
  exact (kept.toOrderly.withoutDue.setAdded creator known ((kept.sound id).mark stage)
    (fun _ => creator) (by simp [SyncEvent.mark, bare.cancel]) nofun
    (by simp [bare.callback])).kept held (.inl live)

theorem Kept.register (stage : (object.event id).stage = .marked) (ok retired : Bool) :
    (object.setEvent id ((object.event id).register ok retired)).Kept := by
  obtain ⟨known, held, live, bare⟩ := kept.building_added creator stage (by simp)
  simp only [SyncEvent.Staged, stage] at bare
  have cancel : ((object.event id).register ok retired).cancel = (object.event id).cancel := by
    simp only [SyncEvent.register, SyncEvent.addEvent, SyncEvent.fenceAsyncWait, SyncEvent.fenceAddCallback]
    split <;> split <;> first | rfl | split <;> rfl
  have orderly : (object.setEvent id ((object.event id).register ok retired)).Orderly :=
    kept.toOrderly.setAdded creator known ((kept.sound id).register stage ok retired)
      (fun _ => creator) (by simp [cancel, bare.cancel]) (fun due => by
        have clear := (kept.due due).2 id
        simp [bare.pending] at clear) (by simp [bare.callback])
  exact orderly.kept held (.inl live)

theorem Kept.settle (stage : (object.event id).stage = .registered) :
    { object.setEvent id (object.event id).settle with creator := .idle }.Kept := by
  obtain ⟨known, held, live, -⟩ := kept.building_added creator stage (by simp)
  have stays : (object.event id).settle.stage = .settled ∧ (object.event id).settle.cancel = (object.event id).cancel ∧
      (object.event id).settle.pending = (object.event id).pending ∧
      (object.event id).settle.callback = (object.event id).callback := by
    unfold SyncEvent.settle; split <;> exact ⟨rfl, rfl, rfl, rfl⟩
  obtain ⟨settled, cancel, pending, cb⟩ := stays
  refine (kept.toOrderly.setAdded creator known ((kept.sound id).settle stage held) ?_ ?_ ?_ ?_).kept held (.inl live)
  · simp [settled, building]
  · rw [cancel, Ne, kept.begun id, kept.toOrderly.adding creator]
    simp
  · rw [pending]
    exact fun due => (kept.due due).2 id
  · rw [cb]
    exact fun checking => checking

theorem Kept.clear (stage : (object.event id).stage = .refused signaled) :
    ((object.setEvent id ((object.event id).clear signaled)).noteCleared .creator).Kept := by
  obtain ⟨known, held, live, bare⟩ := kept.building_added creator stage (by simp)
  simp only [SyncEvent.Staged, stage] at bare
  have orderly : (object.setEvent id ((object.event id).clear signaled)).Orderly :=
    kept.toOrderly.setAdded creator known ((kept.sound id).clear stage) (fun _ => creator)
      (by simp [SyncEvent.clear, bare.1.cancel]) (fun _ => rfl) (by simp [bare.1.callback])
  have noted : (noteCleared (object.setEvent id ((object.event id).clear signaled)) .creator).Orderly :=
    orderly.noteCleared nofun
  refine noted.kept ?_ (.inl ?_)
  · rw [noteCleared_frame.1]; exact held
  · rw [noteCleared_frame.2.1]; exact live

theorem Kept.drop (stage : (object.event id).stage = .cleared signaled) (next : SyncCreator) :
    (released { object.setEvent id ((object.event id).drop signaled) with creator := next }).Kept := by
  obtain ⟨known, held, live, bare⟩ := kept.building_added creator stage (by simp)
  simp only [SyncEvent.Staged, stage] at bare
  have stays : ((object.event id).drop signaled).stage = .dropped ∧
      ((object.event id).drop signaled).cancel = (object.event id).cancel ∧
      ((object.event id).drop signaled).pending = (object.event id).pending := by
    unfold SyncEvent.drop
    split
    · exact ⟨rfl, rfl, rfl⟩
    · exact ⟨rfl, rfl, rfl⟩
    · split <;> exact ⟨rfl, rfl, rfl⟩
  obtain ⟨dropped, cancel, pending⟩ := stays
  refine (kept.toOrderly.setAdded creator known ((kept.sound id).drop stage) ?_ ?_ ?_ ?_).released held
  · simp [dropped, building]
  · simp [cancel, bare.1.cancel]
  · rw [pending]
    exact fun _ => bare.1.pending
  · simp [bare.1.callback]

end

theorem Kept.destroy (kept : object.Kept) (creator : object.creator = .failed ∨ object.creator = .done)
    (destroyer : object.destroyer = .none) : { object with destroyer := .clearing 0, due := none }.Kept := by
  refine Orderly.kept ⟨kept.sound, kept.fresh, kept.building, fun _ => creator, ?_, ?_, ?_, by simp,
    by simp⟩ (kept.held_of_destroyer (by simp [destroyer])) (.inl (by simp))
  · simpa [destroyer] using kept.owned
  · simpa [destroyer] using kept.begun
  · simp [past]

theorem Kept.step (kept : object.Kept) (taken : object.step action = some next) : next.Kept := by
  cases action with
  | addSyncpoint type signaled =>
    rw [SyncObject.step] at taken
    split at taken
    · rename_i creator
      cases taken
      have live := kept.toOrderly.idle creator
      exact (kept.toOrderly.addSyncpoint creator type signaled).kept
        (kept.held_of_destroyer (by simp [live])) (.inl (by simp [SyncObject.setEvent, live]))
    · cases taken
  | addFails | finish =>
    rw [SyncObject.step] at taken
    split at taken
    · rename_i creator
      cases taken
      have live := kept.toOrderly.idle creator
      exact (kept.toOrderly.setCreator creator).kept (kept.held_of_destroyer (by simp [live])) (.inl (by simp [live]))
    · cases taken
  | mark | register ok retired | settle | clear | drop =>
    rw [SyncObject.step] at taken
    split at taken
    · rename_i creator
      split at taken
      · rename_i stage
        cases taken
        first
          | exact kept.mark creator stage
          | exact kept.register creator stage _ _
          | exact kept.settle creator stage
          | exact kept.clear creator stage
          | exact kept.drop creator stage _
      · cases taken
    · cases taken
  | signal id => cases taken; exact kept.signal id
  | expire id =>
    rw [SyncObject.step] at taken
    split at taken
    · rename_i cb
      split at taken
      · rename_i pending
        cases taken
        exact kept.expire cb pending
      · rename_i pending
        cases taken
        exact kept.lose cb (eq_false_iff.mpr pending)
    · cases taken
  | check id =>
    rw [SyncObject.step] at taken
    split at taken
    · rename_i cb
      cases taken
      exact kept.check cb
    · cases taken
  | work id =>
    rw [SyncObject.step] at taken
    split at taken
    · rename_i cb
      cases taken
      exact kept.work cb
    · cases taken
  | destroy =>
    rw [SyncObject.step] at taken
    split at taken
    · rename_i creator destroyer
      cases taken
      exact kept.destroy (.inl creator) destroyer
    · rename_i creator destroyer
      cases taken
      exact kept.destroy (.inr creator) destroyer
    · cases taken
  | destroyNext =>
    rw [SyncObject.step] at taken
    split at taken
    · rename_i destroyer
      cases taken
      exact kept.destroyNext destroyer
    · cases taken
  | cancel =>
    rw [SyncObject.step] at taken
    split at taken
    · rename_i destroyer
      split at taken
      · cases taken
      · rename_i unlocked
        cases taken
        exact kept.cancel destroyer (eq_false_iff.mpr unlocked)
    · cases taken

theorem Kept.init : init.Kept := by
  refine Orderly.kept ⟨fun id => ⟨⟨rfl, rfl, rfl, rfl⟩, rfl, rfl, rfl⟩, fun _ _ => rfl, ?_, ?_, rfl, ?_, ?_,
    ?_, ?_⟩ rfl (.inl nofun)
  · exact fun _ built => by simp [SyncObject.init, SyncEvent.unused, building] at built
  · simp [SyncObject.init]
  · simp [SyncObject.init, SyncEvent.unused]
  · simp [SyncObject.init, past]
  · simp [SyncObject.init]
  · simp [SyncObject.init]

theorem Kept.of_reachable (reached : Reachable SyncObject.step (fun _ _ => True) SyncObject.init object) :
    object.Kept :=
  reached.invariant Kept .init fun _ _ _ kept _ taken => kept.step taken

theorem Kept.freed_put (kept : object.Kept) (freed : object.freed = true) (id : Nat) :
    (object.event id).drawobjRefs = 0 ∧ (object.event id).contextRefs = 0 ∧
      (object.event id).fenceRefs = 0 ∧ (object.event id).quiet = true := by
  obtain ⟨finished, put⟩ := kept.put freed
  have stage := kept.toOrderly.not_building (by simp [finished]) id
  have cancel : (object.event id).cancel ≠ .begun := by
    rw [Ne, kept.begun id, finished]
    simp
  have sound := kept.sound id
  rw [freed] at sound
  obtain ⟨ctx, fence⟩ := sound.put stage cancel (put id)
  exact ⟨put id, ctx, fence, sound.quiet (put id)⟩

theorem Kept.freed_of_quiet (kept : object.Kept) (finished : object.destroyer = .finished)
    (quiet : ∀ id, (object.event id).quiet = true) : object.freed = true := by
  rw [kept.counted, refcount_eq_zero kept.own kept.nonneg, kept.owned, if_pos finished]
  refine ⟨rfl, fun id _ => (kept.sound id).put_of_quiet (quiet id)
    (kept.toOrderly.not_building (by simp [finished]) id) ?_⟩
  rw [Ne, kept.begun id, finished]
  simp

theorem released_eventsPending : object.released.eventsPending = object.eventsPending := by
  unfold released
  split
  · simp [eventsPending]
  · rfl

theorem released_due : object.released.due = object.due := by
  unfold released; split <;> rfl

theorem released_scheds : object.released.scheds = object.scheds := by
  unfold released; split <;> rfl

theorem due_of_expire {id : Nat} (taken : object.step (.expire id) = some next) (live : object.live = true)
    (pending : object.eventsPending = true) (clear : next.eventsPending = false) : next.due = some .callback := by
  rw [step] at taken
  split at taken
  · split at taken
    · cases taken
      unfold noteCleared at clear ⊢
      split at clear
      · rename_i last
        rw [if_pos last]
      · rename_i last
        simp only [and_eq_true, not_eq_true', not_and] at last
        exact absurd clear (last live)
    · cases taken
      rw [released_eventsPending] at clear
      have stays : (object.event id).lose.pending = (object.event id).pending := by
        unfold SyncEvent.lose; split <;> rfl
      have same : (object.setEvent id (object.event id).lose).eventsPending = object.eventsPending := by
        refine List.any_congr rfl fun other => ?_
        by_cases same : other = id
        · subst same; simpa [setEvent] using stays
        · simp [setEvent, same]
      rw [same, pending] at clear
      cases clear
  · cases taken

theorem Kept.sched_of_check (kept : object.Kept) (due : object.due = some .callback) :
    ∃ id next, object.step (.check id) = some next ∧ next.scheds = object.scheds + 1 := by
  obtain ⟨id, checking⟩ := kept.dueCallback due
  have clear := kept.toOrderly.eventsPending.mpr (kept.due (by simp [due])).2
  refine ⟨id, released (object.sched.setEvent id (object.event id).conclude), ?_, ?_⟩
  · simp [SyncObject.step, checking, clear]
  · rw [released_scheds]
    rfl

theorem Kept.due_step (kept : object.Kept) (due : object.due = some .callback)
    (taken : object.step action = some next) :
    next.due = some .callback ∨ next.scheds = object.scheds + 1 ∨ action = .mark ∨ action = .destroy := by
  obtain ⟨live, clear⟩ := kept.due (by simp [due])
  cases action with
  | mark => exact .inr (.inr (.inl rfl))
  | destroy => exact .inr (.inr (.inr rfl))
  | check id =>
    rw [SyncObject.step] at taken
    split at taken
    · cases taken
      rw [released_scheds, if_neg (by simp [kept.toOrderly.eventsPending.mpr clear])]
      exact .inr (.inl rfl)
    · cases taken
  | signal id => cases taken; exact .inl due
  | addSyncpoint | addFails | finish =>
    rw [SyncObject.step] at taken
    split at taken <;> cases taken
    exact .inl due
  | settle | register =>
    rw [SyncObject.step] at taken
    split at taken
    · split at taken <;> cases taken
      exact .inl due
    · cases taken
  | clear =>
    rw [SyncObject.step] at taken
    split at taken
    · rename_i id _
      split at taken
      · rename_i stage
        have staged := (kept.sound id).staged
        simp only [SyncEvent.Staged, stage] at staged
        have pending := staged.1.pending
        rw [clear id] at pending
        cases pending
      · cases taken
    · cases taken
  | expire id =>
    rw [SyncObject.step] at taken
    split at taken
    · rw [if_neg (by simp [clear id])] at taken
      cases taken
      exact .inl (released_due.trans due)
    · cases taken
  | drop =>
    rw [SyncObject.step] at taken
    split at taken
    · split at taken <;> cases taken
      exact .inl (released_due.trans due)
    · cases taken
  | work id =>
    rw [SyncObject.step] at taken
    split at taken <;> cases taken
    exact .inl (released_due.trans due)
  | destroyNext | cancel =>
    rw [SyncObject.step] at taken
    simp only [live] at taken
    cases taken

end Kept

/-- For every sync object, in whatever order callbacks, cancellations and destruction come: what is put for an event
has been taken for it; nothing is held when the object is freed, which it is once `syncobj_destroy` and the
callbacks are through; a pending event is one whose callback has neither run nor been cancelled; and a callback that
clears the last one of a live object hands the context to the dispatcher, unless another event is added or the
object destroyed. -/
theorem references_balanced {object : SyncObject} (reached : Reachable step (fun _ _ => True) init object) :
    (∀ id, 0 ≤ (object.event id).drawobjRefs ∧ 0 ≤ (object.event id).contextRefs ∧
      0 ≤ (object.event id).fenceRefs) ∧
    (object.freed = true → ∀ id, (object.event id).drawobjRefs = 0 ∧ (object.event id).contextRefs = 0 ∧
      (object.event id).fenceRefs = 0 ∧ (object.event id).quiet = true) ∧
    (object.destroyer = .finished → (∀ id, (object.event id).quiet = true) → object.freed = true) ∧
    (∀ id, (object.event id).pending = true → (object.event id).cancel = .none ∧
      ((object.event id).callback = .none ∨ (object.event id).callback = .armed ∨
        (object.event id).callback = .fired)) ∧
    (∀ id next, object.step (.expire id) = some next → object.live = true →
      object.eventsPending = true → next.eventsPending = false → next.due = some .callback) ∧
    (object.due = some .callback →
      (∃ id next, object.step (.check id) = some next ∧ next.scheds = object.scheds + 1) ∧
      ∀ action next, object.step action = some next → next.due = some .callback ∨
        next.scheds = object.scheds + 1 ∨ action = .mark ∨ action = .destroy) := by
  have kept := Kept.of_reachable reached
  refine ⟨fun id => (kept.sound id).nonneg, kept.freed_put, kept.freed_of_quiet,
    fun id pending => (kept.sound id).of_pending pending,
    fun id next taken live pending clear => due_of_expire taken live pending clear,
    fun due => ⟨kept.sched_of_check due, fun action next taken => kept.due_step due taken⟩⟩

def mixedRun : List SyncAction :=
  [.addSyncpoint .timestamp false, .mark, .register true false, .settle,
    .addSyncpoint .fence false, .mark, .register true false, .settle,
    .addSyncpoint .timeline true, .mark, .register true false, .clear, .drop, .finish,
    .signal 0, .expire 0, .destroy, .destroyNext, .check 0, .destroyNext, .cancel, .destroyNext, .destroyNext]

theorem references_balanced_mixed : ∃ object, runActions step (fun _ _ => True) init mixedRun = some object ∧
      object.freed = true ∧ ∀ id, (object.event id).drawobjRefs = 0 ∧ (object.event id).contextRefs = 0 ∧
        (object.event id).fenceRefs = 0 ∧ (object.event id).quiet = true :=
  ran_to (·.freed = true) rfl fun _ run freed => ⟨freed, (references_balanced (Reachable.start.run run)).2.1 freed⟩

/-- A fence that is signaled already is cleared by the thread that adds it: no callback is to come, and the
dispatcher has not been told. -/
theorem signaled_fence_untold : ∃ before after final, runActions step (fun _ _ => True) init
        [.addSyncpoint .fence true, .mark, .register true false] = some before ∧
      before.eventsPending = true ∧ before.step .clear = some after ∧ after.live = true ∧
      after.eventsPending = false ∧
      runActions step (fun _ _ => True) after [.drop, .finish] = some final ∧ final.live = true ∧
      (∀ id, (final.event id).callback = .none) ∧ final.scheds = 0 := by
  refine ⟨_, _, _, rfl, rfl, rfl, rfl, rfl, rfl, rfl, fun id => ?_, rfl⟩
  cases id <;> rfl

end SyncObject

end KernelModules.Kgsl

import Mathlib.Data.List.Count
import KernelModules.Smcinvoke.Handles

namespace KernelModules.Smcinvoke

open Nat
open List hiding after count
open Data Option Function

/-! # The life of a memory object

Each section under `g_smcinvoke_lock` is one step; it is dropped while the bridge is made, and while the buffer of
an unlisted object is given back.
-/

/-- `struct smcinvoke_mem_obj`, and what the DMA buffer that it is about has seen -/
structure MemObject where
  memRegionId : Nat
  memMapObjId : Nat
  memRegnRefCnt : Nat
  memMapObjRefCnt : Nat
  /-- The pointers are set; an unmap leaves them. -/
  bufAttach : Bool
  sgt : Bool
  pAddr : Nat
  freed : Bool
  /-- How often the buffer is attached and mapped, less how often it is unmapped and detached -/
  attached : Int
  mapped : Int
  /-- How often it has been put -/
  puts : Nat

def MemObject.unmap (memObj : MemObject) : MemObject :=
  { memObj with
    pAddr := 0
    mapped := if memObj.sgt then memObj.mapped - 1 else memObj.mapped
    attached := if memObj.bufAttach then memObj.attached - 1 else memObj.attached }

def MemObject.fresh (memRegionId : Nat) : MemObject :=
  ⟨memRegionId, 0, 1, 0, false, false, 0, false, 0, 0, 0⟩

/-- A reference that TrustZone holds, the object that it was handed out for and whether it is one to the
region -/
structure MemReference where
  isMemRgnObj : Bool
  handle : Nat
  address : Nat
deriving DecidableEq

inductive MemFault where
  | usedAfterFree (address : Nat)
  /-- `kref_put` of a count that is 0 -/
  | underflow (address : Nat)

structure MemSystem where
  objects : Nat → MemObject
  allocated : Nat
  /-- `g_mem_objs` -/
  memObjs : List Nat
  importing : List Nat
  bridging : List Nat
  disposing : List Nat
  references : List MemReference
  lastMemRgnId : Nat
  lastMemMapObjId : Nat
  faults : List MemFault

/-- How far a mapping gets before the bridge; the address is that of the first and only segment. -/
inductive MapOutcome where
  | attachFails
  | mapFails
  | notContiguous
  | mapped (pAddr : Nat)

inductive MemAction where
  /-- A descriptor of a DMA buffer is passed; `async` if what is mapped may be told through the side channel. -/
  | importDmaBuf (async : Bool)
  | mapImported (address : Nat) (outcome : MapOutcome)
  | mapRequest (handle : Nat) (outcome : MapOutcome)
  /-- The lock is taken again behind `smcinvoke_create_bridge`. -/
  | bridged (address : Nat) (created : Bool)
  | release (handle : Nat)
  | dispose (address : Nat)

namespace MemSystem

def init : MemSystem := ⟨fun _ => .fresh 0, 0, [], [], [], [], [], 0, 0, []⟩

def change (system : MemSystem) (address : Nat) (edit : MemObject → MemObject) : MemSystem :=
  { system with objects := Function.update system.objects address (edit (system.objects address)) }

def findMemObjLocked (system : MemSystem) (memObjId : Nat) (isMemRgnObj : Bool) : Option Nat :=
  system.memObjs.find? fun address =>
    if isMemRgnObj then (system.objects address).memRegionId = memObjId
    else (system.objects address).memMapObjId = memObjId

def nextMemRegionObjIdLocked (system : MemSystem) : Option Nat :=
  nextUnused (fun id => (system.findMemObjLocked id true).isSome) 65536
    (if system.lastMemRgnId = maxLocalObjId then 0 else system.lastMemRgnId)

def nextMemMapObjIdLocked (system : MemSystem) : Option Nat :=
  nextUnused (fun id => (system.findMemObjLocked id false).isSome) 65536
    (if system.lastMemMapObjId = maxLocalObjId then 0 else system.lastMemMapObjId)

/-- The part of `free_mem_obj_locked` before the lock is dropped -/
def freeMemObjLocked (system : MemSystem) (address : Nat) : MemSystem :=
  { system.change address fun memObj => { memObj with freed := true } with
    memObjs := system.memObjs.erase address
    disposing := system.disposing ++ [address] }

def delMemRegnObjLocked (system : MemSystem) (address : Nat) : MemSystem :=
  if (system.objects address).memMapObjRefCnt = 0 then system.freeMemObjLocked address else system

def delMemMapObjLocked (system : MemSystem) (address : Nat) : MemSystem :=
  let unmapped := system.change address .unmap
  if (unmapped.objects address).memRegnRefCnt = 0 then unmapped.freeMemObjLocked address else unmapped

def touch (system : MemSystem) (address : Nat) : MemSystem :=
  if (system.objects address).freed then { system with faults := .usedAfterFree address :: system.faults }
  else system

/-- `kref_put` of `mem_regn_ref_cnt` -/
def putRegion (system : MemSystem) (address : Nat) : MemSystem :=
  let system := system.touch address
  match (system.objects address).memRegnRefCnt with
  | 0 => { system with faults := .underflow address :: system.faults }
  | count + 1 =>
    let less := system.change address fun memObj => { memObj with memRegnRefCnt := count }
    if count = 0 then less.delMemRegnObjLocked address else less

/-- `kref_put` of `mem_map_obj_ref_cnt` -/
def putMapObj (system : MemSystem) (address : Nat) : MemSystem :=
  let system := system.touch address
  match (system.objects address).memMapObjRefCnt with
  | 0 => { system with faults := .underflow address :: system.faults }
  | count + 1 =>
    let less := system.change address fun memObj => { memObj with memMapObjRefCnt := count }
    if count = 0 then less.delMemMapObjLocked address else less

/-- `smcinvoke_map_mem_region_locked` of an object without an address, up to where the bridge is made -/
def mapMemRegionLocked (system : MemSystem) (address : Nat) (outcome : MapOutcome) : MemSystem :=
  let counted := system.change address fun memObj => { memObj with memMapObjRefCnt := 1 }
  match outcome with
  | .attachFails => counted.putMapObj address
  | .mapFails =>
    (counted.change address fun memObj =>
      { memObj with bufAttach := true, attached := memObj.attached + 1 }).putMapObj address
  | .notContiguous =>
    (counted.change address fun memObj =>
      { memObj with
        bufAttach := true, attached := memObj.attached + 1
        sgt := true, mapped := memObj.mapped + 1 }).putMapObj address
  | .mapped pAddr =>
    let mapped := counted.change address fun memObj =>
      { memObj with
        bufAttach := true, attached := memObj.attached + 1
        sgt := true, mapped := memObj.mapped + 1
        pAddr := pAddr }
    if pAddr = 0 then mapped.putMapObj address
    else { mapped.change address fun memObj => { memObj with memMapObjRefCnt := 2 } with
        bridging := address :: mapped.bridging }

def handOutMap (system : MemSystem) (address : Nat) : MemSystem :=
  { system with
    references := ⟨false, tzhandleMakeLocal memMapSrvrId (system.objects address).memMapObjId, address⟩ ::
      system.references }

/-- The rest of `smcinvoke_map_mem_region_locked` -/
def bridgedLocked (system : MemSystem) (address : Nat) (created : Bool) : Option MemSystem :=
  let put := system.putMapObj address
  if created then let seen := put.touch address
    match seen.findMemObjLocked (seen.objects address).memRegionId true with
    | none => some seen
    | some _ =>
      seen.nextMemMapObjIdLocked.map fun id =>
        ({ seen with lastMemMapObjId := id }.change address fun memObj =>
          { memObj with memMapObjId := id }).handOutMap address
  else some (put.putMapObj address)

/-- `create_mem_obj` with the id that is handed out -/
def createMemObj (system : MemSystem) (id : Nat) (async : Bool) : MemSystem :=
  { system.change system.allocated fun _ => .fresh id with
    allocated := system.allocated + 1
    memObjs := system.memObjs ++ [system.allocated]
    importing := if async then system.allocated :: system.importing else system.importing
    lastMemRgnId := id
    references := ⟨true, tzhandleMakeLocal memRgnSrvrId id, system.allocated⟩ :: system.references }

def step (system : MemSystem) : MemAction → Option MemSystem
  | .importDmaBuf async => system.nextMemRegionObjIdLocked.map (system.createMemObj · async)
  | .mapImported address outcome =>
    if address ∈ system.importing then
      let seen := { system with importing := system.importing.erase address }.touch address
      -- mapped meanwhile: told to TrustZone without a reference
      if (seen.objects address).pAddr ≠ 0 then some (seen.handOutMap address)
      else some (seen.mapMemRegionLocked address outcome)
    else none
  | .mapRequest handle outcome =>
    match system.findMemObjLocked (tzhandleGetObjid handle) true with
    | none => some system
    | some address =>
      if (system.objects address).pAddr = 0 then some (system.mapMemRegionLocked address outcome)
      else some ((system.change address fun memObj =>
          { memObj with memMapObjRefCnt := memObj.memMapObjRefCnt + 1 }).handOutMap address)
  | .bridged address created =>
    if address ∈ system.bridging then
      { system with bridging := system.bridging.erase address }.bridgedLocked address created
    else none
  | .release handle =>
    if tzhandleIsMemObj handle then
      match system.findMemObjLocked (tzhandleGetObjid handle) (tzhandleIsMemRgnObj handle) with
      | none => some system
      | some address =>
        let given := { system with
          references := system.references.erase ⟨tzhandleIsMemRgnObj handle, handle, address⟩ }
        some (if tzhandleIsMemRgnObj handle then given.putRegion address else given.putMapObj address)
    else some system
  | .dispose address =>
    if address ∈ system.disposing then
      some ({ system with disposing := system.disposing.erase address }.change address fun memObj =>
        { memObj with puts := memObj.puts + 1 })
    else none

end MemSystem

structure MemView where
  object : MemObject
  listed : Nat
  bridging : Nat
  disposing : Nat
  regionOut : Nat
  mapOut : Nat

namespace MemView

/-- On the list, and counted as often as it is referred to; a bridge that is being made counts twice. -/
structure Alive (view : MemView) : Prop where
  freed : view.object.freed = false
  listed : view.listed = 1
  disposing : view.disposing = 0
  puts : view.object.puts = 0
  region : view.object.memRegnRefCnt = view.regionOut
  map : view.object.memMapObjRefCnt = view.mapOut + 2 * view.bridging
  once : view.bridging = 0 ∨ view.bridging = 1 ∧ view.mapOut = 0
  kept : view.object.memRegnRefCnt ≠ 0 ∨ view.object.memMapObjRefCnt ≠ 0
  address : view.object.pAddr = 0 ↔ view.object.memMapObjRefCnt = 0
  attached : view.object.attached = if view.object.memMapObjRefCnt = 0 then 0 else 1
  mapped : view.object.mapped = if view.object.memMapObjRefCnt = 0 then 0 else 1
  pointers : view.object.memMapObjRefCnt ≠ 0 → view.object.bufAttach = true ∧ view.object.sgt = true

structure Dead (view : MemView) : Prop where
  freed : view.object.freed = true
  listed : view.listed = 0
  bridging : view.bridging = 0
  regionOut : view.regionOut = 0
  mapOut : view.mapOut = 0
  attached : view.object.attached = 0
  mapped : view.object.mapped = 0
  puts : view.object.puts + view.disposing = 1

structure Unborn (view : MemView) : Prop where
  listed : view.listed = 0
  bridging : view.bridging = 0
  disposing : view.disposing = 0
  regionOut : view.regionOut = 0
  mapOut : view.mapOut = 0

def edit (view : MemView) (change : MemObject → MemObject) : MemView :=
  { view with object := change view.object }

def free (view : MemView) : MemView :=
  { view.edit fun memObj => { memObj with freed := true } with
    listed := view.listed - 1, disposing := view.disposing + 1 }

/-- `kref_put` of a region count of `count + 1` -/
def putRegion (view : MemView) (count : Nat) : MemView :=
  let less := view.edit fun memObj => { memObj with memRegnRefCnt := count }
  if count = 0 ∧ view.object.memMapObjRefCnt = 0 then less.free else less

/-- `kref_put` of a count of mappings of `count + 1` -/
def putMapObj (view : MemView) (count : Nat) : MemView :=
  let less := view.edit fun memObj => { memObj with memMapObjRefCnt := count }
  if count = 0 then let unmapped := less.edit .unmap
    if view.object.memRegnRefCnt = 0 then unmapped.free else unmapped
  else less

structure Ending (view : MemView) : Prop where
  freed : view.object.freed = false
  listed : view.listed = 1
  disposing : view.disposing = 0
  puts : view.object.puts = 0
  region : view.object.memRegnRefCnt = view.regionOut
  bridging : view.bridging = 0
  mapOut : view.mapOut = 0
  attached : view.object.attached = if view.object.bufAttach then 1 else 0
  mapped : view.object.mapped = if view.object.sgt then 1 else 0

variable {view : MemView} {count : Nat}

theorem Ending.putMapObj (ending : view.Ending) :
    view.regionOut ≠ 0 ∧ (view.putMapObj 0).Alive ∧ (view.putMapObj 0).object.memMapObjRefCnt = 0 ∨
      view.regionOut = 0 ∧ (view.putMapObj 0).Dead := by
  have attached : (if view.object.bufAttach = true then view.object.attached - 1
      else view.object.attached) = 0 := by
    rw [ending.attached]
    split <;> rfl
  have mapped : (if view.object.sgt = true then view.object.mapped - 1 else view.object.mapped) = 0 := by
    rw [ending.mapped]
    split <;> rfl
  unfold MemView.putMapObj
  rw [if_pos rfl, ending.region]
  by_cases gone : view.regionOut = 0
  · rw [if_pos gone]
    refine .inr ⟨gone, rfl, ?_, ending.bridging, gone, ending.mapOut, attached, mapped, ?_⟩
    · change view.listed - 1 = 0
      rw [ending.listed]
    · change view.object.puts + (view.disposing + 1) = 1
      rw [ending.puts, ending.disposing]
  · rw [if_neg gone]
    refine .inl ⟨gone, ⟨ending.freed, ending.listed, ending.disposing, ending.puts, ending.region, ?_,
      .inl ending.bridging, .inl ?_, iff_of_true rfl rfl, attached, mapped, absurd rfl⟩, rfl⟩
    · change 0 = view.mapOut + 2 * view.bridging
      rw [ending.mapOut, ending.bridging]
    · change view.object.memRegnRefCnt ≠ 0
      rw [ending.region]
      exact gone

theorem Alive.releaseRegion (alive : view.Alive) : ({ view with regionOut := count }.putRegion count).Alive ∨
      ({ view with regionOut := count }.putRegion count).Dead := by
  unfold MemView.putRegion
  by_cases gone : count = 0 ∧ view.object.memMapObjRefCnt = 0
  · rw [if_pos gone]
    have map := alive.map
    have attached := alive.attached
    have mapped := alive.mapped
    rw [if_pos gone.2] at attached mapped
    refine .inr ⟨rfl, ?_, ?_, gone.1, ?_, attached, mapped, ?_⟩
    · change view.listed - 1 = 0
      rw [alive.listed]
    · change view.bridging = 0
      omega
    · change view.mapOut = 0
      omega
    · change view.object.puts + (view.disposing + 1) = 1
      rw [alive.puts, alive.disposing]
  · rw [if_neg gone]
    refine .inl { alive with region := rfl, kept := ?_ }
    change count ≠ 0 ∨ view.object.memMapObjRefCnt ≠ 0
    omega

theorem Alive.ending {bridging mapOut : Nat} (alive : view.Alive)
    (mapped : view.object.memMapObjRefCnt ≠ 0) (noBridge : bridging = 0) (noMap : mapOut = 0) :
    { view with bridging := bridging, mapOut := mapOut }.Ending := by
  have pointers := alive.pointers mapped
  refine { alive with bridging := noBridge, mapOut := noMap, attached := ?_, mapped := ?_ }
  · rw [alive.attached, pointers.1, if_neg mapped, if_pos rfl]
  · rw [alive.mapped, pointers.2, if_neg mapped, if_pos rfl]

theorem Alive.releaseMap (alive : view.Alive) (held : view.mapOut = count + 1) :
    view.object.memMapObjRefCnt = count + 1 ∧ (({ view with mapOut := count }.putMapObj count).Alive ∨
        ({ view with mapOut := count }.putMapObj count).Dead) := by
  have once := alive.once
  have none : view.bridging = 0 := by omega
  have map : view.object.memMapObjRefCnt = count + 1 := by
    rw [alive.map, held, none]
  refine ⟨map, ?_⟩
  by_cases last : count = 0
  · subst last
    have ending := alive.ending (by omega) none rfl
    rcases ending.putMapObj with ⟨-, alive, -⟩ | ⟨-, dead⟩
    · exact .inl alive
    · exact .inr dead
  have pointers := alive.pointers (by omega)
  have address := alive.address
  have attached := alive.attached
  have mapped := alive.mapped
  rw [if_neg (by omega)] at attached mapped
  unfold MemView.putMapObj
  rw [if_neg last]
  refine .inl ⟨alive.freed, alive.listed, alive.disposing, alive.puts, alive.region, ?_, .inl none, .inr last,
    ?_, ?_, ?_, fun _ => pointers⟩
  · change count = count + 2 * view.bridging
    omega
  · change view.object.pAddr = 0 ↔ count = 0
    omega
  · change view.object.attached = if count = 0 then 0 else 1
    rw [if_neg last]
    exact attached
  · change view.object.mapped = if count = 0 then 0 else 1
    rw [if_neg last]
    exact mapped

end MemView

namespace MemSystem

def view (system : MemSystem) (address : Nat) : MemView where
  object := system.objects address
  listed := system.memObjs.count address
  bridging := system.bridging.count address
  disposing := system.disposing.count address
  regionOut := system.references.countP fun reference =>
    reference.isMemRgnObj && reference.address = address
  mapOut := system.references.countP fun reference =>
    !reference.isMemRgnObj && reference.address = address

structure Kept (system : MemSystem) : Prop where
  born : ∀ address, address < system.allocated → (system.view address).Alive ∨ (system.view address).Dead
  unborn : ∀ address, system.allocated ≤ address → (system.view address).Unborn
  importing : ∀ address ∈ system.importing, address < system.allocated
  faults : system.faults = []

structure Changes (system after : MemSystem) (address : Nat) (view : MemView) : Prop where
  here : after.view address = view
  others : ∀ other, other ≠ address → after.view other = system.view other
  allocated : after.allocated = system.allocated
  importing : after.importing = system.importing
  faults : after.faults = system.faults

variable {system after last : MemSystem} {address count : Nat} {view : MemView}
  {edit : MemObject → MemObject}

theorem Changes.trans (first : Changes system after address between)
    (second : Changes after last address view) : Changes system last address view :=
  ⟨second.here, fun other apart => (second.others other apart).trans (first.others other apart),
    second.allocated.trans first.allocated, second.importing.trans first.importing,
    second.faults.trans first.faults⟩

theorem Changes.kept (changes : Changes system after address view) (kept : system.Kept)
    (small : address < system.allocated) (fine : view.Alive ∨ view.Dead) : after.Kept := by
  refine ⟨fun other lt => ?_, fun other above => ?_, ?_, changes.faults.trans kept.faults⟩
  · rw [changes.allocated] at lt
    by_cases same : other = address
    · rw [same, changes.here]
      exact fine
    · rw [changes.others other same]
      exact kept.born other lt
  · rw [changes.allocated] at above
    rw [changes.others other (ne_of_gt (lt_of_lt_of_le small above))]
    exact kept.unborn other above
  · rw [changes.importing, changes.allocated]
    exact kept.importing

theorem changes_change : Changes system (system.change address edit) address ((system.view address).edit edit) := by
  refine ⟨?_, fun other apart => ?_, rfl, rfl, rfl⟩
  · unfold MemSystem.view MemSystem.change MemView.edit
    dsimp only
    rw [update_self]
  · unfold MemSystem.view MemSystem.change
    dsimp only
    rw [update_of_ne apart]

theorem changes_free : Changes system (system.freeMemObjLocked address) address (system.view address).free := by
  refine ⟨?_, fun other apart => ?_, rfl, rfl, rfl⟩
  · unfold MemSystem.view MemSystem.freeMemObjLocked MemSystem.change MemView.free MemView.edit
    simp
  · unfold MemSystem.view MemSystem.freeMemObjLocked MemSystem.change
    simp [update_of_ne apart, count_erase_of_ne apart, apart.symm]

section

variable (alive : (system.objects address).freed = false)
include alive

theorem touch_eq : system.touch address = system := by
  unfold MemSystem.touch
  rw [alive, if_neg (by decide)]

theorem changes_putRegion (counted : (system.objects address).memRegnRefCnt = count + 1) :
    Changes system (system.putRegion address) address ((system.view address).putRegion count) := by
  have less := @changes_change system address fun memObj => { memObj with memRegnRefCnt := count }
  unfold MemSystem.putRegion MemView.putRegion
  rw [touch_eq alive]
  dsimp only
  rw [counted]
  dsimp only
  by_cases last : count = 0
  · rw [if_pos last]
    unfold MemSystem.delMemRegnObjLocked
    have same : ((system.change address fun memObj => { memObj with memRegnRefCnt := count }).objects
        address).memMapObjRefCnt = (system.view address).object.memMapObjRefCnt :=
      congrArg (fun view => view.object.memMapObjRefCnt) less.here
    rw [same]
    by_cases unmapped : (system.view address).object.memMapObjRefCnt = 0
    · rw [if_pos unmapped, if_pos ⟨last, unmapped⟩, ← less.here]
      exact less.trans changes_free
    · rw [if_neg unmapped, if_neg fun both => unmapped both.2]
      exact less
  · rw [if_neg last, if_neg fun both => last both.1]
    exact less

theorem changes_putMapObj (counted : (system.objects address).memMapObjRefCnt = count + 1) :
    Changes system (system.putMapObj address) address ((system.view address).putMapObj count) := by
  have less := @changes_change system address fun memObj => { memObj with memMapObjRefCnt := count }
  unfold MemSystem.putMapObj MemView.putMapObj
  rw [touch_eq alive]
  dsimp only
  rw [counted]
  dsimp only
  by_cases last : count = 0
  · rw [if_pos last, if_pos last]
    unfold MemSystem.delMemMapObjLocked
    have unmapped := less.trans (@changes_change
      (system.change address fun memObj => { memObj with memMapObjRefCnt := count }) address .unmap)
    rw [less.here] at unmapped
    have same : (((system.change address fun memObj => { memObj with memMapObjRefCnt := count }).change address
        .unmap).objects address).memRegnRefCnt = (system.view address).object.memRegnRefCnt :=
      congrArg (fun view => view.object.memRegnRefCnt) unmapped.here
    dsimp only
    rw [same]
    by_cases gone : (system.view address).object.memRegnRefCnt = 0
    · rw [if_pos gone, if_pos gone, ← unmapped.here]
      exact unmapped.trans changes_free
    · rw [if_neg gone, if_neg gone]
      exact unmapped
  · rw [if_neg last, if_neg last]
    exact less

end

theorem change_change :
    (system.change address edit).change address more = system.change address fun memObj => more (edit memObj) := by
  unfold MemSystem.change
  dsimp only
  rw [update_self, update_idem]

theorem changes_bridging : Changes system { system with bridging := address :: system.bridging } address
    { system.view address with bridging := (system.view address).bridging + 1 } := by
  refine ⟨by simp [MemSystem.view], fun other apart => ?_, rfl, rfl, rfl⟩
  simp [MemSystem.view, count_cons_of_ne apart.symm]

theorem changes_failedMap (alive : (system.view address).Alive)
    (unmapped : (system.view address).object.memMapObjRefCnt = 0)
    (counted : (edit (system.objects address)).memMapObjRefCnt = 1)
    (ending : ((system.view address).edit edit).Ending) :
    ∃ view, Changes system ((system.change address edit).putMapObj address) address view ∧ view.Alive ∧
      view.object.memMapObjRefCnt = 0 := by
  have edited := @changes_change system address edit
  have freed : ((system.change address edit).objects address).freed = false := by
    unfold MemSystem.change
    dsimp only
    rw [update_self]
    exact ending.freed
  have one : ((system.change address edit).objects address).memMapObjRefCnt = 0 + 1 := by
    unfold MemSystem.change
    dsimp only
    rw [update_self]
    exact counted
  have put := edited.trans (changes_putMapObj freed one)
  rw [edited.here] at put
  have some : (system.view address).regionOut ≠ 0 := by
    rw [← alive.region]
    exact alive.kept.resolve_right fun mapped => mapped unmapped
  rcases ending.putMapObj with ⟨-, left, zero⟩ | ⟨gone, -⟩
  · exact ⟨_, put, left, zero⟩
  · exact absurd gone some

end MemSystem

open MemSystem (change createMemObj handOutMap init step view)

def MapOutcome.Clean (outcome : MapOutcome) (memObj : MemObject) : Prop :=
  match outcome with
  | .attachFails => memObj.bufAttach = false ∧ memObj.sgt = false
  | .mapFails => memObj.sgt = false
  | .notContiguous | .mapped _ => True

def MapOutcome.fails : MapOutcome → Bool
  | .attachFails | .mapFails | .notContiguous => true
  | .mapped pAddr => pAddr = 0

namespace MemSystem

variable {system : MemSystem} {address : Nat} {outcome : MapOutcome}

theorem changes_mapMemRegionLocked (alive : (system.view address).Alive)
    (noAddress : (system.objects address).pAddr = 0) (clean : outcome.Clean (system.objects address)) :
    ∃ view, Changes system (system.mapMemRegionLocked address outcome) address view ∧ view.Alive ∧
      (outcome.fails = true → view.object.memMapObjRefCnt = 0) := by
  have unmapped : (system.view address).object.memMapObjRefCnt = 0 := alive.address.mp noAddress
  have map := alive.map
  have noBridge : (system.view address).bridging = 0 := by omega
  have noMap : (system.view address).mapOut = 0 := by omega
  have attached : (system.objects address).attached = 0 := by
    have attached := alive.attached
    rw [if_pos unmapped] at attached
    exact attached
  have mapped : (system.objects address).mapped = 0 := by
    have mapped := alive.mapped
    rw [if_pos unmapped] at mapped
    exact mapped
  have twice : ∀ {times : Int}, times = 0 → times + 1 = 1 := fun none => by rw [none, Int.zero_add]
  -- nothing is attached or mapped but what the attempt has attached and mapped itself
  have failing : ∀ edit : MemObject → MemObject, (edit (system.objects address)).memMapObjRefCnt = 1 →
      ((system.view address).edit edit).Ending →
      ∃ view, Changes system ((system.change address edit).putMapObj address) address view ∧ view.Alive ∧
        (outcome.fails = true → view.object.memMapObjRefCnt = 0) := by
    intro edit counted ending
    obtain ⟨view, changes, left, zero⟩ := changes_failedMap alive unmapped counted ending
    exact ⟨view, changes, left, fun _ => zero⟩
  unfold MemSystem.mapMemRegionLocked
  cases outcome with
  | attachFails =>
    refine failing _ rfl { alive with bridging := noBridge, mapOut := noMap, attached := ?_, mapped := ?_ }
    · change (system.objects address).attached = if (system.objects address).bufAttach = true then 1 else 0
      rw [attached, clean.1]
      rfl
    · change (system.objects address).mapped = if (system.objects address).sgt = true then 1 else 0
      rw [mapped, clean.2]
      rfl
  | mapFails =>
    dsimp only
    rw [change_change]
    refine failing _ rfl { alive with bridging := noBridge, mapOut := noMap, attached := twice attached, mapped := ?_ }
    change (system.objects address).mapped = if (system.objects address).sgt = true then 1 else 0
    rw [mapped, clean]
    rfl
  | notContiguous =>
    dsimp only
    rw [change_change]
    exact failing _ rfl { alive with
        bridging := noBridge, mapOut := noMap, attached := twice attached, mapped := twice mapped }
  | mapped pAddr =>
    dsimp only
    rw [change_change]
    by_cases null : pAddr = 0
    · rw [if_pos null]
      exact failing _ rfl { alive with
          bridging := noBridge, mapOut := noMap, attached := twice attached, mapped := twice mapped }
    rw [if_neg null, change_change]
    have edited := @changes_change system address fun memObj => { memObj with
      memMapObjRefCnt := 2, bufAttach := true, attached := memObj.attached + 1
      sgt := true, mapped := memObj.mapped + 1
      pAddr := pAddr }
    refine ⟨_, edited.trans changes_bridging, ?_, fun fails => absurd (of_decide_eq_true fails) null⟩
    rw [edited.here]
    refine ⟨alive.freed, alive.listed, alive.disposing, alive.puts, alive.region, ?_, .inr ⟨?_, noMap⟩,
      .inr nofun, iff_of_false null nofun, twice attached, twice mapped, fun _ => ⟨rfl, rfl⟩⟩
    · change 2 = (system.view address).mapOut + 2 * ((system.view address).bridging + 1)
      rw [noMap, noBridge]
    · change (system.view address).bridging + 1 = 1
      rw [noBridge]

/-- TrustZone gives back what it has, by the handle of that object.  One mapping is asked for at a time, and a
failed attempt would undo nothing left of an earlier one.  Until it is mapped, an imported object is not given back
or mapped otherwise. -/
def Fine (system : MemSystem) : MemAction → Prop
  | .importDmaBuf _ => True
  | .mapImported address outcome =>
    (system.objects address).freed = false ∧ (system.objects address).pAddr = 0 ∧
      outcome.Clean (system.objects address)
  | .mapRequest handle outcome =>
    ∀ address, system.findMemObjLocked (tzhandleGetObjid handle) true = some address → address ∉ system.bridging ∧
        ((system.objects address).pAddr = 0 → outcome.Clean (system.objects address))
  | .bridged _ _ => True
  | .release handle =>
    tzhandleIsMemObj handle = true → ∀ address,
      system.findMemObjLocked (tzhandleGetObjid handle) (tzhandleIsMemRgnObj handle) = some address →
      ⟨tzhandleIsMemRgnObj handle, handle, address⟩ ∈ system.references
  | .dispose _ => True

instance {memObj : MemObject} (outcome : MapOutcome) : Decidable (outcome.Clean memObj) := by
  cases outcome <;> dsimp only [MapOutcome.Clean] <;> infer_instance

instance (system : MemSystem) (action : MemAction) : Decidable (system.Fine action) := by
  cases action <;> dsimp only [Fine] <;> infer_instance

theorem changes_disposing (system : MemSystem) (address : Nat) :
    Changes system { system with disposing := system.disposing.erase address } address
      { system.view address with disposing := (system.view address).disposing - 1 } := by
  refine ⟨by simp [view], fun other apart => ?_, rfl, rfl, rfl⟩
  simp [view, count_erase_of_ne apart]

theorem changes_bridging_erase (system : MemSystem) (address : Nat) :
    Changes system { system with bridging := system.bridging.erase address } address
      { system.view address with bridging := (system.view address).bridging - 1 } := by
  refine ⟨by simp [view], fun other apart => ?_, rfl, rfl, rfl⟩
  simp [view, count_erase_of_ne apart]

theorem changes_region (system : MemSystem) (held : ⟨true, handle, address⟩ ∈ system.references) :
    Changes system { system with references := system.references.erase ⟨true, handle, address⟩ } address
      { system.view address with regionOut := (system.view address).regionOut - 1 } := by
  refine ⟨by simp [view, countP_erase, held], fun other apart => ?_, rfl, rfl, rfl⟩
  simp [view, countP_erase, apart.symm]

theorem changes_map (system : MemSystem) (held : ⟨false, handle, address⟩ ∈ system.references) :
    Changes system { system with references := system.references.erase ⟨false, handle, address⟩ } address
      { system.view address with mapOut := (system.view address).mapOut - 1 } := by
  refine ⟨by simp [view, countP_erase, held], fun other apart => ?_, rfl, rfl, rfl⟩
  simp [view, countP_erase, apart.symm]

theorem changes_handOutMap (system : MemSystem) (address : Nat) : Changes system (system.handOutMap address) address
      { system.view address with mapOut := (system.view address).mapOut + 1 } := by
  refine ⟨by simp [view, handOutMap], fun other apart => ?_, rfl, rfl, rfl⟩
  simp [view, handOutMap, apart.symm]

namespace Kept

variable {memObjId handle : Nat} {isMemRgnObj : Bool}

section

variable (kept : system.Kept)
include kept

theorem small (some : ¬(system.view address).Unborn) : address < system.allocated :=
  Nat.lt_of_not_le fun large => some (kept.unborn address large)

theorem alive (small : address < system.allocated) (some : ¬(system.view address).Dead) : (system.view address).Alive :=
  (kept.born address small).resolve_right some

theorem alive_of_ne (mem : (system.view address).listed ≠ 0) :
    address < system.allocated ∧ (system.view address).Alive :=
  have small := kept.small fun unborn => mem unborn.listed
  ⟨small, kept.alive small fun dead => mem dead.listed⟩

theorem found (found : system.findMemObjLocked memObjId isMemRgnObj = some address) :
    address < system.allocated ∧ (system.view address).Alive :=
  kept.alive_of_ne (ne_of_gt (count_pos_iff.mpr (mem_of_find?_eq_some found)))

theorem mapMemRegionLocked (small : address < system.allocated)
    (alive : (system.view address).Alive) (noAddress : (system.objects address).pAddr = 0)
    (clean : outcome.Clean (system.objects address)) :
    (system.mapMemRegionLocked address outcome).Kept ∧ (outcome.fails = true →
      ((system.mapMemRegionLocked address outcome).view address).Alive ∧
        ((system.mapMemRegionLocked address outcome).objects address).memMapObjRefCnt = 0) := by
  obtain ⟨view, changes, left, fails⟩ := changes_mapMemRegionLocked alive noAddress clean
  refine ⟨changes.kept kept small (.inl left), fun failing => ?_⟩
  have here := changes.here
  refine ⟨here ▸ left, ?_⟩
  have zero := fails failing
  rw [← here] at zero
  exact zero

theorem createMemObj {id : Nat} : (system.createMemObj id async).Kept := by
  have unborn := kept.unborn system.allocated le_rfl
  have here : (system.createMemObj id async).view system.allocated = ⟨.fresh id, 1, 0, 0, 1, 0⟩ := by
    unfold MemSystem.view MemSystem.createMemObj MemSystem.change
    have listed : system.memObjs.count system.allocated = 0 := unborn.listed
    have bridging : system.bridging.count system.allocated = 0 := unborn.bridging
    have disposing : system.disposing.count system.allocated = 0 := unborn.disposing
    have regionOut : system.references.countP (fun reference =>
      reference.isMemRgnObj && reference.address = system.allocated) = 0 := unborn.regionOut
    have mapOut : system.references.countP (fun reference =>
      !reference.isMemRgnObj && reference.address = system.allocated) = 0 := unborn.mapOut
    simp [listed, bridging, disposing, regionOut, mapOut]
  have others : ∀ other, other ≠ system.allocated → (system.createMemObj id async).view other = system.view other := by
    intro other apart
    unfold MemSystem.view MemSystem.createMemObj MemSystem.change
    simp [apart, apart.symm]
  have next : (system.createMemObj id async).allocated = system.allocated + 1 := rfl
  refine ⟨fun other lt => ?_, fun other above => ?_, fun other mem => ?_, kept.faults⟩
  · by_cases same : other = system.allocated
    · rw [same, here]
      exact .inl ⟨rfl, rfl, rfl, rfl, rfl, rfl, .inl rfl, .inl nofun, iff_of_true rfl rfl, rfl, rfl,
        (absurd rfl)⟩
    · rw [others other same]
      exact kept.born other (by omega)
  · rw [others other (by omega)]
    exact kept.unborn other (by omega)
  · change other ∈ (if async then system.allocated :: system.importing else system.importing) at mem
    split at mem
    · rcases mem_cons.mp mem with rfl | earlier
      · exact lt_succ_self _
      · exact lt_succ_of_lt (kept.importing other earlier)
    · exact lt_succ_of_lt (kept.importing other mem)

theorem dispose (mem : address ∈ system.disposing) :
    Kept ({ system with disposing := system.disposing.erase address }.change address fun memObj =>
      { memObj with puts := memObj.puts + 1 }) := by
  have listed := count_pos_iff.mpr mem
  have small := kept.small fun unborn => ne_of_gt listed unborn.disposing
  have dead := (kept.born address small).resolve_left fun alive => ne_of_gt listed alive.disposing
  have changes := (changes_disposing system address).trans
    (@changes_change { system with disposing := system.disposing.erase address } address fun memObj =>
      { memObj with puts := memObj.puts + 1 })
  rw [(changes_disposing system address).here] at changes
  refine changes.kept kept small (.inr { dead with puts := ?_ })
  have puts := dead.puts
  change 0 < (system.view address).disposing at listed
  change (system.view address).object.puts + 1 + ((system.view address).disposing - 1) = 1
  omega

theorem releaseRegion (alive : (system.view address).Alive) (small : address < system.allocated)
    (held : ⟨true, handle, address⟩ ∈ system.references) :
    ({ system with references := system.references.erase ⟨true, handle, address⟩ }.putRegion address).Kept := by
  have given := changes_region system held
  obtain ⟨count, out⟩ : ∃ count, (system.view address).regionOut = count + 1 :=
    exists_eq_add_one.mpr (countP_pos_iff.mpr ⟨_, held, by simp⟩)
  rw [out] at given
  have counted : (system.objects address).memRegnRefCnt = count + 1 := alive.region.trans out
  have put := given.trans (@changes_putRegion
    { system with references := system.references.erase ⟨true, handle, address⟩ } address count alive.freed counted)
  rw [given.here] at put
  exact put.kept kept small alive.releaseRegion

theorem releaseMap (alive : (system.view address).Alive) (small : address < system.allocated)
    (held : ⟨false, handle, address⟩ ∈ system.references) :
    ({ system with references := system.references.erase ⟨false, handle, address⟩ }.putMapObj address).Kept := by
  have given := changes_map system held
  obtain ⟨count, out⟩ : ∃ count, (system.view address).mapOut = count + 1 :=
    exists_eq_add_one.mpr (countP_pos_iff.mpr ⟨_, held, by simp⟩)
  rw [out] at given
  obtain ⟨counted, fine⟩ := alive.releaseMap out
  have put := given.trans (@changes_putMapObj
    { system with references := system.references.erase ⟨false, handle, address⟩ } address count alive.freed
    counted)
  rw [given.here] at put
  exact put.kept kept small fine

theorem bridged {created : Bool} (mem : address ∈ system.bridging)
    (taken : { system with bridging := system.bridging.erase address }.bridgedLocked address created =
      some after) : after.Kept ∧ (created = false → (after.view address).Alive →
      (after.objects address).memMapObjRefCnt = 0) := by
  have counted := count_pos_iff.mpr mem
  have small := kept.small fun unborn => ne_of_gt counted unborn.bridging
  have alive := kept.alive small fun dead => ne_of_gt counted dead.bridging
  obtain ⟨one, noMap⟩ := alive.once.resolve_left (ne_of_gt counted)
  have two : (system.objects address).memMapObjRefCnt = 1 + 1 := by
    have map := alive.map
    rw [one, noMap] at map
    exact map
  -- the reference that was taken for the bridge goes
  have erased := changes_bridging_erase system address
  have put := erased.trans (@changes_putMapObj { system with bridging := system.bridging.erase address } address 1
    alive.freed two)
  rw [erased.here, one] at put
  unfold MemSystem.bridgedLocked at taken
  dsimp only at taken
  generalize { system with bridging := system.bridging.erase address }.putMapObj address = less at put taken
  have mapped : (system.view address).object.memMapObjRefCnt ≠ 0 := by
    change (system.objects address).memMapObjRefCnt ≠ 0
    omega
  have ending := alive.ending mapped (rfl : 0 = 0) noMap
  have here : less.view address = { system.view address with bridging := 0 }.edit fun memObj =>
      { memObj with memMapObjRefCnt := 1 } := put.here
  have freed : (less.objects address).freed = false := by
    change (less.view address).object.freed = false
    rw [here]
    exact alive.freed
  cases created with
  | false =>
    rw [if_neg (by decide), some.injEq] at taken
    subst taken
    have again := put.trans (@changes_putMapObj less address 0 freed (by
      change (less.view address).object.memMapObjRefCnt = 1
      rw [here]
      rfl))
    rw [here] at again
    have last : ({ system.view address with bridging := 0 }.edit fun memObj =>
        { memObj with memMapObjRefCnt := 1 }).Ending :=
      { ending with bridging := rfl, mapOut := noMap }
    rcases last.putMapObj with ⟨-, left, zero⟩ | ⟨-, dead⟩
    · refine ⟨again.kept kept small (.inl left), fun _ _ => ?_⟩
      rw [← again.here] at zero
      exact zero
    · refine ⟨again.kept kept small (.inr dead), fun _ left => ?_⟩
      rw [again.here] at left
      have freed := left.freed
      rw [dead.freed] at freed
      cases freed
  | true =>
    refine ⟨?_, nofun⟩
    rw [touch_eq freed] at taken
    have listed : (less.findMemObjLocked (less.objects address).memRegionId true).isSome := by
      unfold MemSystem.findMemObjLocked
      rw [find?_isSome]
      refine ⟨address, count_pos_iff.mp ?_, by simp⟩
      change 0 < (less.view address).listed
      rw [here]
      exact lt_of_lt_of_eq one_pos alive.listed.symm
    obtain ⟨other, found⟩ := isSome_iff_exists.mp listed
    rw [found] at taken
    obtain ⟨id, -, rfl⟩ := map_eq_some_iff.mp taken
    have edited : Changes less ({ less with lastMemMapObjId := id }.change address fun memObj =>
        { memObj with memMapObjId := id }) address ((less.view address).edit fun memObj =>
          { memObj with memMapObjId := id }) := by
      have changed := @changes_change { less with lastMemMapObjId := id } address fun memObj =>
        { memObj with memMapObjId := id }
      exact ⟨changed.here, changed.others, rfl, rfl, rfl⟩
    have out := (put.trans edited).trans (changes_handOutMap _ address)
    rw [edited.here, here] at out
    have address := alive.address
    have attached := alive.attached
    have mapping := alive.mapped
    rw [if_neg mapped] at attached mapping
    refine out.kept kept small (.inl ⟨alive.freed, alive.listed, alive.disposing, alive.puts, alive.region,
      ?_, .inl rfl, .inr nofun, iff_of_false (fun null => mapped (address.mp null)) nofun, attached, mapping,
      fun _ => alive.pointers mapped⟩)
    change 1 = (system.view _).mapOut + 1 + 2 * 0
    rw [noMap]

theorem mapAgain (small : address < system.allocated) (alive : (system.view address).Alive)
    (mapped : (system.objects address).pAddr ≠ 0) (idle : address ∉ system.bridging) :
    ((system.change address fun memObj =>
      { memObj with memMapObjRefCnt := memObj.memMapObjRefCnt + 1 }).handOutMap address).Kept := by
  have edited := @changes_change system address fun memObj =>
    { memObj with memMapObjRefCnt := memObj.memMapObjRefCnt + 1 }
  have out := edited.trans (changes_handOutMap _ address)
  rw [edited.here] at out
  have counted : (system.view address).object.memMapObjRefCnt ≠ 0 := fun none => mapped (alive.address.mpr none)
  have noBridge : (system.view address).bridging = 0 := count_eq_zero.mpr idle
  have map := alive.map
  have attached := alive.attached
  have mapping := alive.mapped
  rw [if_neg counted] at attached mapping
  refine out.kept kept small (.inl ⟨alive.freed, alive.listed, alive.disposing, alive.puts, alive.region, ?_,
    .inl noBridge, .inr nofun, iff_of_false mapped nofun, attached, mapping, fun _ => alive.pointers counted⟩)
  change (system.view address).object.memMapObjRefCnt + 1 =
    (system.view address).mapOut + 1 + 2 * (system.view address).bridging
  omega

end

theorem init : init.Kept :=
  ⟨nofun, fun _ _ => ⟨rfl, rfl, rfl, rfl, rfl⟩, nofun, rfl⟩

end Kept

def FailsOn (system : MemSystem) (address : Nat) : MemAction → Prop
  | .mapImported other outcome => other = address ∧ outcome.fails = true
  | .mapRequest handle outcome =>
    system.findMemObjLocked (tzhandleGetObjid handle) true = some address ∧
      (system.objects address).pAddr = 0 ∧ outcome.fails = true
  | .bridged other created => other = address ∧ created = false
  | .importDmaBuf _ | .release _ | .dispose _ => False

theorem Kept.step (kept : system.Kept) (fine : system.Fine action) (taken : system.step action = some after) :
    after.Kept ∧ ∀ address, system.FailsOn address action → (after.view address).Alive →
      (after.objects address).memMapObjRefCnt = 0 := by
  cases action with
  | importDmaBuf async =>
    obtain ⟨id, -, rfl⟩ := map_eq_some_iff.mp taken
    exact ⟨kept.createMemObj, fun _ fails => False.elim fails⟩
  | mapImported address outcome =>
    obtain ⟨alive, noAddress, clean⟩ := fine
    rw [MemSystem.step] at taken
    split at taken
    · rename_i mem
      have small := kept.importing address mem
      have erased : Kept { system with importing := system.importing.erase address } :=
        { kept with importing := fun other lt => kept.importing other (mem_of_mem_erase lt) }
      have living := kept.alive small fun dead => Bool.false_ne_true (alive.symm.trans dead.freed)
      have untouched : { system with importing := system.importing.erase address }.touch address =
          { system with importing := system.importing.erase address } := touch_eq alive
      rw [untouched, if_neg fun some => some noAddress, some.injEq] at taken
      subst taken
      obtain ⟨mapped, failing⟩ := erased.mapMemRegionLocked small living noAddress clean
      refine ⟨mapped, fun other fails _ => ?_⟩
      rw [← fails.1]
      exact (failing fails.2).2
    · cases taken
  | mapRequest handle outcome =>
    rw [MemSystem.step] at taken
    split at taken
    · rename_i missing
      cases taken
      exact ⟨kept, fun other fails => absurd (missing.symm.trans fails.1) (some_ne_none other).symm⟩
    · rename_i address found
      obtain ⟨idle, clean⟩ := fine address found
      obtain ⟨small, alive⟩ := kept.found found
      split at taken
      · rename_i noAddress
        cases taken
        obtain ⟨mapped, failing⟩ := kept.mapMemRegionLocked small alive noAddress (clean noAddress)
        refine ⟨mapped, fun other fails _ => ?_⟩
        have same : address = other := some.inj (found.symm.trans fails.1)
        rw [← same]
        exact (failing fails.2.2).2
      · rename_i mapped
        cases taken
        refine ⟨kept.mapAgain small alive mapped idle, fun other fails => absurd fails.2.1 ?_⟩
        have same : address = other := some.inj (found.symm.trans fails.1)
        rw [← same]
        exact mapped
  | bridged address created =>
    rw [MemSystem.step] at taken
    split at taken
    · rename_i mem
      obtain ⟨left, failing⟩ := kept.bridged mem taken
      refine ⟨left, fun other fails alive => ?_⟩
      rw [← fails.1] at alive ⊢
      exact failing fails.2 alive
    · cases taken
  | release handle =>
    refine ⟨?_, fun _ fails => False.elim fails⟩
    rw [MemSystem.step] at taken
    split at taken
    · rename_i memObj
      split at taken
      · cases taken
        exact kept
      · rename_i address found
        have held := fine memObj address found
        obtain ⟨small, alive⟩ := kept.found found
        cases isMemRgnObj : tzhandleIsMemRgnObj handle with
        | true =>
          rw [isMemRgnObj] at held taken
          rw [some.injEq] at taken
          subst taken
          exact kept.releaseRegion alive small held
        | false =>
          rw [isMemRgnObj] at held taken
          rw [some.injEq] at taken
          subst taken
          exact kept.releaseMap alive small held
    · cases taken
      exact kept
  | dispose address =>
    refine ⟨?_, fun _ fails => False.elim fails⟩
    rw [MemSystem.step] at taken
    split at taken
    · rename_i mem
      cases taken
      exact kept.dispose mem
    · cases taken

/-- TrustZone has a reference to the object, or is to get one when the bridge is there. -/
def Held (system : MemSystem) (address : Nat) : Prop :=
  (∃ reference ∈ system.references, reference.address = address) ∨ address ∈ system.bridging

def Mapped (system : MemSystem) (address : Nat) : Prop :=
  (∃ reference ∈ system.references, reference.isMemRgnObj = false ∧ reference.address = address) ∨
    address ∈ system.bridging

structure Exact (system : MemSystem) : Prop where
  noFault : system.faults = []
  held : ∀ address, address ∈ system.memObjs ↔ system.Held address
  regionCount : ∀ address ∈ system.memObjs, (system.objects address).memRegnRefCnt =
    system.references.countP fun reference => reference.isMemRgnObj && reference.address = address
  mapCount : ∀ address ∈ system.memObjs, (system.objects address).memMapObjRefCnt =
    (system.references.countP fun reference => !reference.isMemRgnObj && reference.address = address) +
      2 * system.bridging.count address
  live : ∀ address ∈ system.memObjs, (system.objects address).freed = false ∧ (system.objects address).puts = 0
  mappedOnce : ∀ address ∈ system.memObjs, system.Mapped address →
    (system.objects address).attached = 1 ∧ (system.objects address).mapped = 1
  unmapped : ∀ address ∈ system.memObjs, ¬system.Mapped address →
    (system.objects address).attached = 0 ∧ (system.objects address).mapped = 0
  gone : ∀ address, address < system.allocated → address ∉ system.memObjs →
    (system.objects address).freed = true ∧ (system.objects address).attached = 0 ∧
      (system.objects address).mapped = 0
  /-- The buffer of an object that is gone has been put, or is put by the step that is still to come. -/
  putOnce : ∀ address, address < system.allocated → address ∉ system.memObjs →
    (system.objects address).puts + system.disposing.count address = 1

structure UnmappedRegion (system : MemSystem) (address : Nat) : Prop where
  listed : address ∈ system.memObjs
  live : (system.objects address).freed = false
  noAddress : (system.objects address).pAddr = 0
  detached : (system.objects address).attached = 0
  unmapped : (system.objects address).mapped = 0

theorem regionOut_ne_zero : (system.view address).regionOut ≠ 0 ↔
    ∃ reference ∈ system.references, reference.isMemRgnObj = true ∧ reference.address = address := by
  unfold view
  simp

theorem mapOut_ne_zero : (system.view address).mapOut ≠ 0 ↔
    ∃ reference ∈ system.references, reference.isMemRgnObj = false ∧ reference.address = address := by
  unfold view
  simp

theorem bridging_ne_zero : (system.view address).bridging ≠ 0 ↔ address ∈ system.bridging :=
  Nat.ne_zero_iff_zero_lt.trans count_pos_iff

theorem listed_ne_zero : (system.view address).listed ≠ 0 ↔ address ∈ system.memObjs :=
  Nat.ne_zero_iff_zero_lt.trans count_pos_iff

theorem held_iff : system.Held address ↔ (system.view address).regionOut ≠ 0 ∨
    (system.view address).mapOut ≠ 0 ∨ (system.view address).bridging ≠ 0 := by
  rw [regionOut_ne_zero, mapOut_ne_zero, bridging_ne_zero]
  constructor
  · rintro (⟨reference, mem, here⟩ | bridging)
    · cases kind : reference.isMemRgnObj with
      | true => exact .inl ⟨reference, mem, kind, here⟩
      | false => exact .inr (.inl ⟨reference, mem, kind, here⟩)
    · exact .inr (.inr bridging)
  · rintro (⟨reference, mem, -, here⟩ | ⟨reference, mem, -, here⟩ | bridging)
    · exact .inl ⟨reference, mem, here⟩
    · exact .inl ⟨reference, mem, here⟩
    · exact .inr bridging

theorem mapped_iff (alive : (system.view address).Alive) :
    system.Mapped address ↔ (system.view address).object.memMapObjRefCnt ≠ 0 := by
  have map := alive.map
  rw [Mapped, ← mapOut_ne_zero, ← bridging_ne_zero]
  omega

theorem Kept.exact (kept : system.Kept) : system.Exact := by
  have living : ∀ address ∈ system.memObjs, (system.view address).Alive := fun address mem =>
    (kept.alive_of_ne (listed_ne_zero.mpr mem)).2
  have dead : ∀ address, address < system.allocated → address ∉ system.memObjs → (system.view address).Dead := by
    intro address small missing
    rcases kept.born address small with alive | dead
    · refine absurd (listed_ne_zero.mp ?_) missing
      rw [alive.listed]
      decide
    · exact dead
  refine
    { noFault := kept.faults
      held := fun address => ?_
      regionCount := fun address mem => (living address mem).region
      mapCount := fun address mem => (living address mem).map
      live := fun address mem => ⟨(living address mem).freed, (living address mem).puts⟩
      mappedOnce := fun address mem mapped => ?_
      unmapped := fun address mem unmapped => ?_
      gone := fun address small missing =>
        ⟨(dead address small missing).freed, (dead address small missing).attached,
          (dead address small missing).mapped⟩
      putOnce := fun address small missing => (dead address small missing).puts }
  · rw [held_iff, ← listed_ne_zero]
    by_cases small : address < system.allocated
    · rcases kept.born address small with alive | dead
      · have counted := alive.kept
        rw [alive.region, alive.map] at counted
        rw [alive.listed]
        omega
      · rw [dead.listed, dead.regionOut, dead.mapOut, dead.bridging]
        decide
    · have unborn := kept.unborn address (Nat.le_of_not_lt small)
      rw [unborn.listed, unborn.regionOut, unborn.mapOut, unborn.bridging]
      decide
  · have alive := living address mem
    have counted := (mapped_iff alive).mp mapped
    have attached := alive.attached
    have mapping := alive.mapped
    rw [if_neg counted] at attached mapping
    exact ⟨attached, mapping⟩
  · have alive := living address mem
    have none := not_not.mp (mt (mapped_iff alive).mpr unmapped)
    have attached := alive.attached
    have mapping := alive.mapped
    rw [if_pos none] at attached mapping
    exact ⟨attached, mapping⟩

theorem Kept.unmappedRegion (kept : system.Kept)
    (region : ∃ reference ∈ system.references, reference.isMemRgnObj = true ∧ reference.address = address)
    (unmapped : (system.view address).Alive → (system.objects address).memMapObjRefCnt = 0) :
    system.UnmappedRegion address := by
  have out := regionOut_ne_zero.mpr region
  have alive : (system.view address).Alive := by
    by_cases small : address < system.allocated
    · exact (kept.born address small).resolve_right fun dead => out dead.regionOut
    · exact absurd (kept.unborn address (Nat.le_of_not_lt small)).regionOut out
  have none : (system.view address).object.memMapObjRefCnt = 0 := unmapped alive
  have attached := alive.attached
  have mapped := alive.mapped
  rw [if_pos none] at attached mapped
  refine ⟨listed_ne_zero.mp ?_, alive.freed, alive.address.mpr none, attached, mapped⟩
  rw [alive.listed]
  decide

end MemSystem

/-- In a run whose steps are all fine, every object is on the list exactly as long as it is referred to. -/
theorem memObjs_exact {system : MemSystem} (reached : Reachable MemSystem.step MemSystem.Fine .init system) :
    system.Exact ∧ ∀ action after address, system.Fine action → system.step action = some after →
      system.FailsOn address action →
      (∃ reference ∈ after.references, reference.isMemRgnObj = true ∧ reference.address = address) →
      after.UnmappedRegion address := by
  have kept : system.Kept := reached.invariant MemSystem.Kept .init
    fun _ _ _ kept fine taken => (kept.step fine taken).1
  refine ⟨kept.exact, fun action after address fine taken fails region => ?_⟩
  obtain ⟨left, unmapped⟩ := kept.step fine taken
  exact left.unmappedRegion region (unmapped address fails)

theorem memObjs_exact_once : ∃ system, Reachable MemSystem.step MemSystem.Fine .init system ∧ system.allocated = 1 ∧
      system.memObjs = [] ∧ (system.objects 0).puts = 1 ∧ system.Exact :=
  reaches [.importDmaBuf false, .mapRequest 2147549185 (.mapped 4096), .bridged 0 true, .release 2147549185,
    .release 2147549186, .dispose 0]
    (fun system => system.allocated = 1 ∧ system.memObjs = [] ∧ (system.objects 0).puts = 1) (by decide +kernel)
    fun _ reached ⟨one, empty, put⟩ => ⟨one, empty, put, (memObjs_exact reached).1⟩

/-- An attempt that fails at once unmaps the buffer by the pointers that an earlier mapping has left. -/
theorem mapping_undone_twice :
    ∃ system, Reachable MemSystem.step (fun _ _ => True) .init system ∧ 0 ∈ system.memObjs ∧
      (system.objects 0).mapped = -1 ∧ ¬system.Exact := by
  refine reaches [.importDmaBuf false, .mapRequest 2147549185 (.mapped 4096), .bridged 0 true, .release 2147549186,
    .mapRequest 2147549185 .attachFails] (fun system => 0 ∈ system.memObjs ∧ (system.objects 0).mapped = -1)
    (by decide +kernel) fun system _ ⟨member, negative⟩ => ⟨member, negative, fun exact => ?_⟩
  by_cases mapped : system.Mapped 0
  · exact absurd ((exact.mappedOnce 0 member mapped).2.symm.trans negative) (by decide)
  · exact absurd ((exact.unmapped 0 member mapped).2.symm.trans negative) (by decide)

end KernelModules.Smcinvoke

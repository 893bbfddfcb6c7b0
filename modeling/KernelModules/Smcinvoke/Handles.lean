import Mathlib.Data.List.Pairwise
import KernelModules.Data.Run
import KernelModules.Smcinvoke.Messages

namespace KernelModules.Smcinvoke

open List hiding after count elem lookup
open Data Option

/-! # Handles and the ids in them

A callback server, a memory region and a mapping each get an id, which TrustZone knows it by.
-/

def krnlSrvrId : Nat := 0

def memRgnSrvrId : Nat := 1

def memMapSrvrId : Nat := 2

def cbobjServerIdStart : Nat := 16

def cbobjServerIdEnd : Nat := 65535

def maxLocalObjId : Nat := 32767

def tzhandleGetServer (handle : Nat) : Nat := handle % 65536

def tzhandleMakeLocal (server object : Nat) : Nat := u32 ((32768 ||| object) * 65536 ||| server)

def tzhandleIsLocal (handle : Nat) : Bool := handle / 2147483648 % 2 = 1

def tzhandleIsKernelObj (handle : Nat) : Bool :=
  tzhandleIsLocal handle && tzhandleGetServer handle = krnlSrvrId

def tzhandleIsMemRgnObj (handle : Nat) : Bool :=
  tzhandleIsLocal handle && tzhandleGetServer handle = memRgnSrvrId

def tzhandleIsMemMapObj (handle : Nat) : Bool :=
  tzhandleIsLocal handle && tzhandleGetServer handle = memMapSrvrId

def tzhandleIsMemObj (handle : Nat) : Bool := tzhandleIsMemRgnObj handle || tzhandleIsMemMapObj handle

def tzhandleIsCbObj (handle : Nat) : Bool :=
  tzhandleIsLocal handle && decide (cbobjServerIdStart ≤ tzhandleGetServer handle)

/-- What of `struct smcinvoke_mem_obj` identifies it and keeps it -/
structure MemRefs where
  memRegionId : Nat
  memMapObjId : Nat
  memRegnRefCnt : Nat
  memMapObjRefCnt : Nat
deriving DecidableEq

structure HandleTable where
  /-- The ids of `g_cb_servers` -/
  cbServers : List Nat
  /-- `g_mem_objs` -/
  memObjs : List MemRefs
  lastCbServerId : Nat
  lastMemRgnId : Nat
  lastMemMapObjId : Nat

/-- The ids are `uint16_t`.  A search through all of them that ends nowhere goes on for ever. -/
def nextUnused (inUse : Nat → Bool) : Nat → Nat → Option Nat
  | 0, _ => none
  | fuel + 1, last =>
    let next := (last + 1) % 65536
    if inUse next then nextUnused inUse fuel next else some next

namespace HandleTable

variable (table : HandleTable)

def init : HandleTable := ⟨[], [], cbobjServerIdStart, 0, 0⟩

def findCbServerLocked (serverId : Nat) : Option Nat := table.cbServers.find? (· = serverId)

def matchMemObj (memObjId : Nat) (isMemRgnObj : Bool) (memObj : MemRefs) : Bool :=
  isMemRgnObj && memObj.memRegionId = memObjId || !isMemRgnObj && memObj.memMapObjId = memObjId

def findMemObjLocked (memObjId : Nat) (isMemRgnObj : Bool) : Option MemRefs :=
  table.memObjs.find? (matchMemObj memObjId isMemRgnObj)

def nextCbServerIdLocked : Option Nat :=
  nextUnused (fun id => (table.findCbServerLocked id).isSome) 65536
    (if table.lastCbServerId = cbobjServerIdEnd then cbobjServerIdStart else table.lastCbServerId)

def nextMemRegionObjIdLocked : Option Nat :=
  nextUnused (fun id => (table.findMemObjLocked id true).isSome) 65536
    (if table.lastMemRgnId = maxLocalObjId then 0 else table.lastMemRgnId)

def nextMemMapObjIdLocked : Option Nat :=
  nextUnused (fun id => (table.findMemObjLocked id false).isSome) 65536
    (if table.lastMemMapObjId = maxLocalObjId then 0 else table.lastMemMapObjId)

end HandleTable

def changeFirst {α : Type} (which : α → Bool) (change : α → α) : List α → List α
  | [] => []
  | first :: rest => if which first then change first :: rest else first :: changeFirst which change rest

inductive HandleOp where
  | createServer
  | destroyServer (serverId : Nat)
  | createMemObj
  | mapMemRegion (handle : Nat)
  | releaseMemObj (handle : Nat)

def MemRefs.live (memObj : MemRefs) : Bool := memObj.memRegnRefCnt ≠ 0 || memObj.memMapObjRefCnt ≠ 0

namespace HandleTable

def step (table : HandleTable) : HandleOp → Option HandleTable
  | .createServer =>
    table.nextCbServerIdLocked.map fun id =>
      { table with cbServers := id :: table.cbServers, lastCbServerId := id }
  | .destroyServer serverId =>
    (table.findCbServerLocked serverId).map fun id =>
      { table with cbServers := table.cbServers.erase id }
  | .createMemObj =>
    table.nextMemRegionObjIdLocked.map fun id =>
      { table with memObjs := table.memObjs ++ [⟨id, 0, 1, 0⟩], lastMemRgnId := id }
  | .mapMemRegion handle =>
    match table.findMemObjLocked (tzhandleGetObjid handle) true with
    | none => some table
    | some memObj =>
      if memObj.memMapObjRefCnt = 0 then table.nextMemMapObjIdLocked.map fun id =>
          { table with
            memObjs := changeFirst (matchMemObj (tzhandleGetObjid handle) true)
              (fun memObj => { memObj with memMapObjId := id, memMapObjRefCnt := 1 }) table.memObjs
            lastMemMapObjId := id }
      else some { table with
          memObjs := changeFirst (matchMemObj (tzhandleGetObjid handle) true)
            (fun memObj => { memObj with memMapObjRefCnt := memObj.memMapObjRefCnt + 1 })
            table.memObjs }
  | .releaseMemObj handle =>
    let isMemRgnObj := tzhandleIsMemRgnObj handle
    match table.findMemObjLocked (tzhandleGetObjid handle) isMemRgnObj with
    | none => some table
    | some memObj =>
      if (if isMemRgnObj then memObj.memRegnRefCnt else memObj.memMapObjRefCnt) = 0 then none
      else some { table with
          memObjs := (changeFirst (matchMemObj (tzhandleGetObjid handle) isMemRgnObj)
            (fun memObj =>
              if isMemRgnObj then { memObj with memRegnRefCnt := memObj.memRegnRefCnt - 1 }
              else { memObj with memMapObjRefCnt := memObj.memMapObjRefCnt - 1 })
            table.memObjs).filter MemRefs.live }

end HandleTable

open HandleTable (init step)

section Encoding

variable {server object : Nat}

section

variable (serverSmall : server < 65536) (objectSmall : object < 32768)
include serverSmall objectSmall

theorem tzhandleMakeLocal_eq : tzhandleMakeLocal server object = 2147483648 + object * 65536 + server := by
  have inner : 2 ^ 15 * 1 + object = 2 ^ 15 * 1 ||| object :=
    Nat.two_pow_add_eq_or_of_lt (i := 15) objectSmall 1
  have outer : 2 ^ 16 * (32768 + object) + server = 2 ^ 16 * (32768 + object) ||| server :=
    Nat.two_pow_add_eq_or_of_lt (i := 16) serverSmall (32768 + object)
  calc
    _ = u32 (2 ^ 16 * (2 ^ 15 * 1 ||| object) ||| server) := by
      rw [mul_comm (2 ^ 16)]
      rfl
    _ = u32 (2 ^ 16 * (32768 + object) + server) := by
      rw [← inner]
      exact congrArg u32 outer.symm
    _ = _ := by
      unfold u32
      omega

theorem tzhandleGetServer_makeLocal : tzhandleGetServer (tzhandleMakeLocal server object) = server := by
  rw [tzhandleMakeLocal_eq serverSmall objectSmall]
  unfold tzhandleGetServer
  omega

theorem tzhandleGetObjid_makeLocal : tzhandleGetObjid (tzhandleMakeLocal server object) = object := by
  rw [tzhandleMakeLocal_eq serverSmall objectSmall]
  unfold tzhandleGetObjid
  omega

theorem tzhandleIsLocal_makeLocal : tzhandleIsLocal (tzhandleMakeLocal server object) = true := by
  rw [tzhandleMakeLocal_eq serverSmall objectSmall]
  unfold tzhandleIsLocal
  rw [decide_eq_true_iff]
  omega

end

end Encoding

/-- There is an unused id behind the last one, before the search gets past the limit. -/
def UnusedBehind (inUse : Nat → Bool) (last limit : Nat) : Prop :=
  ∃ id, last < id ∧ id ≤ limit ∧ inUse id = false

def Issues (next : Option Nat) (inUse : Nat → Bool) (low high : Nat) : Prop :=
  ∃ id, next = some id ∧ low ≤ id ∧ id ≤ high ∧ inUse id = false

section Search

variable {inUse : Nat → Bool} {fuel last limit low : Nat}

theorem nextUnused_some (unused : UnusedBehind inUse last limit) (small : limit ≤ 65535)
    (enough : limit ≤ fuel + last) :
    ∃ id, nextUnused inUse fuel last = some id ∧ last < id ∧ id ≤ limit ∧ inUse id = false := by
  obtain ⟨found, above, lt, free⟩ := unused
  induction fuel generalizing last with
  | zero => omega
  | succ fuel ih =>
    have next : (last + 1) % 65536 = last + 1 := Nat.mod_eq_of_lt (by omega)
    rw [nextUnused, next]
    cases used : inUse (last + 1) with
    | false => exact ⟨last + 1, if_neg (by decide), by omega, by omega, used⟩
    | true =>
      have later : found ≠ last + 1 := fun same => by
        rw [same, used] at free
        cases free
      obtain ⟨id, run, behind, rest⟩ := @ih (last + 1) (by omega) (by omega)
      exact ⟨id, by rw [if_pos rfl, run], by omega, rest⟩

theorem nextUnused_past (used : ∀ id, last < id → id ≤ limit → inUse id = true) (small : limit ≤ 65535)
    (free : inUse ((limit + 1) % 65536) = false) (before : last ≤ limit) (enough : limit < fuel + last) :
    nextUnused inUse fuel last = some ((limit + 1) % 65536) := by
  induction fuel generalizing last with
  | zero => omega
  | succ fuel ih =>
    rw [nextUnused]
    by_cases ends : last = limit
    · rw [ends, free, if_neg (by decide)]
    · have next : (last + 1) % 65536 = last + 1 := Nat.mod_eq_of_lt (by omega)
      rw [next, used (last + 1) (by omega) (by omega)]
      exact ih (fun id above => used id (by omega)) (by omega) (by omega)

theorem nextUnused_first (free : inUse ((last + 1) % 65536) = false) :
    nextUnused inUse (fuel + 1) last = some ((last + 1) % 65536) := by
  rw [nextUnused, free, if_neg (by decide)]

theorem issues_iff (small : limit ≤ 65535) (before : last ≤ limit) (lower : low ≤ last + 1)
    (free : inUse ((limit + 1) % 65536) = false) (outside : (limit + 1) % 65536 < low ∨ limit < 65535) :
    Issues (nextUnused inUse 65536 last) inUse low limit ↔ UnusedBehind inUse last limit := by
  constructor
  · rintro ⟨id, run, above, below, -⟩
    by_contra none
    have used : ∀ id, last < id → id ≤ limit → inUse id = true := fun id behind lt =>
      Bool.eq_true_of_not_eq_false fun unused => none ⟨id, behind, lt, unused⟩
    rw [nextUnused_past used small free before (by omega), some.injEq] at run
    omega
  · intro unused
    obtain ⟨id, run, above, below, free⟩ := @nextUnused_some inUse 65536 last limit unused small (by omega)
    exact ⟨id, run, by omega, below, free⟩

end Search

section Changes

variable {α : Type}

theorem mem_changeFirst (mem : elem ∈ changeFirst which change list) :
    elem ∈ list ∨ ∃ found, list.find? which = some found ∧ elem = change found := by
  induction list with
  | nil => cases mem
  | cons first rest ih =>
    rw [changeFirst] at mem
    cases here : which first with
    | true =>
      rw [here] at mem
      rcases mem_cons.mp mem with same | later
      · exact .inr ⟨first, find?_cons_of_pos here, same⟩
      · exact .inl (mem_cons_of_mem _ later)
    | false =>
      rw [here] at mem
      rw [find?_cons_of_neg (by rw [here]; decide)]
      rcases mem_cons.mp mem with same | later
      · exact .inl (same ▸ mem_cons_self ..)
      · rcases ih later with old | new
        · exact .inl (mem_cons_of_mem _ old)
        · exact .inr new

theorem pairwise_changeFirst {which : α → Bool} (pairwise : list.Pairwise related)
    (kept : ∀ found other, list.find? which = some found → other ∈ list →
      (related found other → related (change found) other) ∧ (related other found → related other (change found))) :
    (changeFirst which change list).Pairwise related := by
  induction list with
  | nil => exact .nil
  | cons first rest ih =>
    obtain ⟨ahead, later⟩ := pairwise_cons.mp pairwise
    rw [changeFirst]
    cases here : which first with
    | true =>
      rw [if_pos rfl, pairwise_cons]
      exact ⟨fun other inside => (kept first other (find?_cons_of_pos here)
        (mem_cons_of_mem _ inside)).1 (ahead other inside), later⟩
    | false =>
      rw [if_neg (by decide), pairwise_cons]
      rw [find?_cons_of_neg (by rw [here]; decide)] at kept
      refine ⟨fun other inside => ?_, ih later fun found other is inside =>
        kept found other is (mem_cons_of_mem _ inside)⟩
      rcases mem_changeFirst inside with old | ⟨found, is, rfl⟩
      · exact ahead other old
      · exact (kept found first is (mem_cons_self ..)).2 (ahead found (mem_of_find?_eq_some is))

theorem find?_eq_some_of_unique {list : List α} (mem : element ∈ list) (found : which element = true)
    (unique : ∀ other ∈ list, which other = true → other = element) : list.find? which = some element := by
  cases search : list.find? which with
  | none =>
    have absent := find?_eq_none.mp search element mem
    exact absurd found absent
  | some other =>
    rw [unique other (mem_of_find?_eq_some search) (find?_some search)]

end Changes

/-- A live object, with the callback objects of a server told apart by the ids that the server gives them -/
inductive LiveObject where
  | memRegion (memObj : MemRefs)
  | memMap (memObj : MemRefs)
  | callback (serverId objectId : Nat)

inductive HandleKind where
  | kernelObj
  | memRegion
  | memMap
  | callback (serverId : Nat)

def handleKind (handle : Nat) : Option HandleKind :=
  if tzhandleIsKernelObj handle then some .kernelObj
  else if tzhandleIsMemRgnObj handle then some .memRegion
  else if tzhandleIsMemMapObj handle then some .memMap
  else if tzhandleIsCbObj handle then some (.callback (tzhandleGetServer handle))
  else none

namespace LiveObject

def handle : LiveObject → Nat
  | .memRegion memObj => tzhandleMakeLocal memRgnSrvrId memObj.memRegionId
  | .memMap memObj => tzhandleMakeLocal memMapSrvrId memObj.memMapObjId
  | .callback serverId objectId => tzhandleMakeLocal serverId objectId

def kind : LiveObject → HandleKind
  | .memRegion _ => .memRegion
  | .memMap _ => .memMap
  | .callback serverId _ => .callback serverId

def objectId : LiveObject → Nat
  | .memRegion memObj => memObj.memRegionId
  | .memMap memObj => memObj.memMapObjId
  | .callback _ objectId => objectId

def server : LiveObject → Nat
  | .memRegion _ => memRgnSrvrId
  | .memMap _ => memMapSrvrId
  | .callback serverId _ => serverId

def InRange : LiveObject → Prop
  | .memRegion memObj => 1 ≤ memObj.memRegionId ∧ memObj.memRegionId ≤ maxLocalObjId
  | .memMap memObj => 1 ≤ memObj.memMapObjId ∧ memObj.memMapObjId ≤ maxLocalObjId
  | .callback serverId _ => cbobjServerIdStart ≤ serverId ∧ serverId ≤ cbobjServerIdEnd

end LiveObject

namespace HandleTable

def Live (table : HandleTable) : LiveObject → Prop
  | .memRegion memObj => memObj ∈ table.memObjs ∧ memObj.memRegnRefCnt ≠ 0
  | .memMap memObj => memObj ∈ table.memObjs ∧ memObj.memMapObjRefCnt ≠ 0
  | .callback serverId objectId => serverId ∈ table.cbServers ∧ objectId ≤ maxLocalObjId

/-- As `release_tzhandle_locked` looks it up -/
def lookup (table : HandleTable) (handle : Nat) : Option LiveObject :=
  if tzhandleIsMemObj handle then
    (table.findMemObjLocked (tzhandleGetObjid handle) (tzhandleIsMemRgnObj handle)).map
      (if tzhandleIsMemRgnObj handle then .memRegion else .memMap)
  else if tzhandleIsCbObj handle then
    (table.findCbServerLocked (tzhandleGetServer handle)).map (.callback · (tzhandleGetObjid handle))
  else none

structure Identifies (table : HandleTable) : Prop where
  inRange : ∀ object, table.Live object → object.InRange
  decoded : ∀ object, table.Live object →
    handleKind object.handle = some object.kind ∧ tzhandleGetObjid object.handle = object.objectId
  distinct : ∀ object other, table.Live object → table.Live other → object.handle = other.handle → object = other
  found : ∀ object, table.Live object → table.lookup object.handle = some object

def cbServerInUse (table : HandleTable) (id : Nat) : Bool := (table.findCbServerLocked id).isSome

def memObjInUse (table : HandleTable) (isMemRgnObj : Bool) (id : Nat) : Bool :=
  (table.findMemObjLocked id isMemRgnObj).isSome

def RoomyMap (table : HandleTable) : Prop :=
  UnusedBehind (table.memObjInUse false)
    (if table.lastMemMapObjId = maxLocalObjId then 0 else table.lastMemMapObjId) maxLocalObjId

/-- The search for the id that the step needs, if it needs one, does not get past the last id of the range. -/
def Roomy (table : HandleTable) : HandleOp → Prop
  | .createServer =>
    UnusedBehind table.cbServerInUse
      (if table.lastCbServerId = cbobjServerIdEnd then cbobjServerIdStart else table.lastCbServerId)
      cbobjServerIdEnd
  | .createMemObj =>
    UnusedBehind (table.memObjInUse true)
      (if table.lastMemRgnId = maxLocalObjId then 0 else table.lastMemRgnId) maxLocalObjId
  | .mapMemRegion handle =>
    ∀ memObj, table.findMemObjLocked (tzhandleGetObjid handle) true = some memObj →
      memObj.memMapObjRefCnt = 0 → table.RoomyMap
  | .destroyServer _ => True
  | .releaseMemObj _ => True

end HandleTable

structure MemRefs.Sound (memObj : MemRefs) : Prop where
  region : 1 ≤ memObj.memRegionId ∧ memObj.memRegionId ≤ maxLocalObjId
  map : memObj.memMapObjId ≤ maxLocalObjId
  mapped : memObj.memMapObjRefCnt ≠ 0 → memObj.memMapObjId ≠ 0

def MemRefs.Apart (memObj other : MemRefs) : Prop :=
  memObj.memRegionId ≠ other.memRegionId ∧ (memObj.memMapObjId = other.memMapObjId → memObj.memMapObjId = 0)

instance : Std.Symm MemRefs.Apart :=
  ⟨fun _ _ apart => ⟨fun same => apart.1 same.symm, fun same => same.trans (apart.2 same.symm)⟩⟩

structure HandleTable.Sound (table : HandleTable) : Prop where
  servers : ∀ id ∈ table.cbServers, cbobjServerIdStart ≤ id ∧ id ≤ cbobjServerIdEnd
  serversNodup : table.cbServers.Nodup
  memObjs : ∀ memObj ∈ table.memObjs, memObj.Sound
  apart : table.memObjs.Pairwise MemRefs.Apart
  lastServer : cbobjServerIdStart ≤ table.lastCbServerId ∧ table.lastCbServerId ≤ cbobjServerIdEnd
  lastRegion : table.lastMemRgnId ≤ maxLocalObjId
  lastMap : table.lastMemMapObjId ≤ maxLocalObjId

namespace HandleTable

variable {table after : HandleTable} {id : Nat} {isMemRgnObj : Bool} {memObj : MemRefs}

theorem cbServerInUse_iff : table.cbServerInUse id = true ↔ id ∈ table.cbServers := by
  unfold cbServerInUse findCbServerLocked
  simp

theorem memObjInUse_false : table.memObjInUse isMemRgnObj id = false ↔
    ∀ memObj ∈ table.memObjs, matchMemObj id isMemRgnObj memObj = false := by
  unfold memObjInUse findMemObjLocked
  simp

theorem matchMemObj_region : matchMemObj id true memObj = true ↔ memObj.memRegionId = id := by
  simp [matchMemObj]

theorem matchMemObj_map : matchMemObj id false memObj = true ↔ memObj.memMapObjId = id := by
  simp [matchMemObj]

namespace Sound

theorem server_past (sound : table.Sound) : table.cbServerInUse 0 = false := by
  apply Bool.eq_false_iff.mpr
  rw [ne_eq, cbServerInUse_iff]
  intro mem
  exact absurd (sound.servers 0 mem).1 (by decide)

theorem memObj_past (sound : table.Sound) : table.memObjInUse isMemRgnObj 32768 = false := by
  rw [memObjInUse_false]
  intro memObj mem
  have kept := sound.memObjs memObj mem
  apply Bool.eq_false_iff.mpr
  cases isMemRgnObj with
  | true =>
    rw [ne_eq, matchMemObj_region]
    intro same
    have lt := kept.region.2
    rw [same] at lt
    exact absurd lt (by decide)
  | false =>
    rw [ne_eq, matchMemObj_map]
    intro same
    have lt := kept.map
    rw [same] at lt
    exact absurd lt (by decide)

theorem init : Sound .init :=
  ⟨nofun, .nil, nofun, .nil, by decide, by decide, by decide⟩

theorem issuesServer (sound : table.Sound) :
    Issues table.nextCbServerIdLocked table.cbServerInUse cbobjServerIdStart cbobjServerIdEnd ↔
      table.Roomy .createServer := by
  obtain ⟨lower, upper⟩ : 16 ≤ table.lastCbServerId ∧ table.lastCbServerId ≤ 65535 := sound.lastServer
  have before : (if table.lastCbServerId = 65535 then 16 else table.lastCbServerId) ≤ 65535 := by
    split <;> omega
  have behind : 16 ≤ (if table.lastCbServerId = 65535 then 16 else table.lastCbServerId) + 1 := by
    split <;> omega
  exact issues_iff (by decide) before behind sound.server_past (.inl (by decide))

theorem issuesRegion (sound : table.Sound) :
    Issues table.nextMemRegionObjIdLocked (table.memObjInUse true) 1 maxLocalObjId ↔ table.Roomy .createMemObj := by
  have last : table.lastMemRgnId ≤ 32767 := sound.lastRegion
  have before : (if table.lastMemRgnId = 32767 then 0 else table.lastMemRgnId) ≤ 32767 := by
    split <;> omega
  exact issues_iff (by decide) before (Nat.le_add_left ..) sound.memObj_past (.inr (by decide))

theorem issuesMap (sound : table.Sound) :
    Issues table.nextMemMapObjIdLocked (table.memObjInUse false) 1 maxLocalObjId ↔ table.RoomyMap := by
  have last : table.lastMemMapObjId ≤ 32767 := sound.lastMap
  have before : (if table.lastMemMapObjId = 32767 then 0 else table.lastMemMapObjId) ≤ 32767 := by
    split <;> omega
  exact issues_iff (by decide) before (Nat.le_add_left ..) sound.memObj_past (.inr (by decide))

section

variable (sound : table.Sound)
include sound

theorem change {change : MemRefs → MemRefs} {lastMemMapObjId : Nat}
    (kept : ∀ memObj, table.findMemObjLocked objectId isMemRgnObj = some memObj →
      (change memObj).memRegionId = memObj.memRegionId ∧ (change memObj).Sound ∧
        ((change memObj).memMapObjId = memObj.memMapObjId ∨
          ∀ other ∈ table.memObjs, other.memMapObjId ≠ (change memObj).memMapObjId))
    (last : lastMemMapObjId ≤ maxLocalObjId) : Sound { table with
      memObjs := changeFirst (matchMemObj objectId isMemRgnObj) change table.memObjs
      lastMemMapObjId := lastMemMapObjId } := by
  refine { sound with memObjs := fun memObj mem => ?_, apart := ?_, lastMap := last }
  · rcases mem_changeFirst mem with old | ⟨found, is, rfl⟩
    · exact sound.memObjs memObj old
    · exact (kept found is).2.1
  · apply pairwise_changeFirst sound.apart
    intro found other is inside
    obtain ⟨region, -, map⟩ := kept found is
    unfold MemRefs.Apart
    rw [region]
    rcases map with same | fresh
    · rw [same]
      exact ⟨id, id⟩
    · exact ⟨fun apart => ⟨apart.1, fun same => absurd same.symm (fresh other inside)⟩,
        fun apart => ⟨apart.1, fun same => absurd same (fresh other inside)⟩⟩

theorem filter (keep : MemRefs → Bool) : Sound { table with memObjs := table.memObjs.filter keep } :=
  { sound with
      memObjs := fun memObj mem => sound.memObjs memObj (mem_of_mem_filter mem), apart := sound.apart.filter keep }

theorem addServer (lower : cbobjServerIdStart ≤ id) (upper : id ≤ cbobjServerIdEnd)
    (unused : table.cbServerInUse id = false) :
    Sound { table with cbServers := id :: table.cbServers, lastCbServerId := id } := by
  refine ⟨fun server mem => ?_, ?_, sound.memObjs, sound.apart, ⟨lower, upper⟩, sound.lastRegion, sound.lastMap⟩
  · rcases mem_cons.mp mem with same | old
    · rw [same]
      exact ⟨lower, upper⟩
    · exact sound.servers server old
  · refine nodup_cons.mpr ⟨fun mem => ?_, sound.serversNodup⟩
    rw [cbServerInUse_iff.mpr mem] at unused
    cases unused

theorem addMemObj (lower : 1 ≤ id) (upper : id ≤ maxLocalObjId) (unused : table.memObjInUse true id = false) :
    Sound { table with memObjs := table.memObjs ++ [⟨id, 0, 1, 0⟩], lastMemRgnId := id } := by
  refine { sound with memObjs := fun memObj mem => ?_, apart := ?_, lastRegion := upper }
  · rcases mem_append.mp mem with old | new
    · exact sound.memObjs memObj old
    · rw [mem_singleton.mp new]
      exact ⟨⟨lower, upper⟩, Nat.zero_le _, absurd rfl⟩
  · refine pairwise_append.mpr ⟨sound.apart, pairwise_singleton .., fun memObj old other new => ?_⟩
    rw [mem_singleton.mp new]
    refine ⟨fun same => ?_, fun same => same⟩
    have absent := memObjInUse_false.mp unused memObj old
    rw [matchMemObj_region.mpr same] at absent
    cases absent

theorem step {op : HandleOp} (roomy : table.Roomy op) (taken : table.step op = some after) : after.Sound := by
  cases op with
  | createServer =>
    obtain ⟨id, issued, lower, upper, unused⟩ := sound.issuesServer.mpr roomy
    rw [HandleTable.step, issued, map_some, some.injEq] at taken
    subst taken
    exact sound.addServer lower upper unused
  | destroyServer serverId =>
    obtain ⟨id, -, rfl⟩ := map_eq_some_iff.mp taken
    exact { sound with
        servers := fun server mem => sound.servers server (mem_of_mem_erase mem),
        serversNodup := sound.serversNodup.erase id }
  | createMemObj =>
    obtain ⟨id, issued, lower, upper, unused⟩ := sound.issuesRegion.mpr roomy
    rw [HandleTable.step, issued, map_some, some.injEq] at taken
    subst taken
    exact sound.addMemObj lower upper unused
  | mapMemRegion handle =>
    rw [HandleTable.step] at taken
    cases found : table.findMemObjLocked (tzhandleGetObjid handle) true with
    | none =>
      rw [found] at taken
      cases taken
      exact sound
    | some memObj =>
      rw [found] at taken
      dsimp only at taken
      have memSound := sound.memObjs memObj (mem_of_find?_eq_some found)
      by_cases unmapped : memObj.memMapObjRefCnt = 0
      · obtain ⟨id, issued, lower, upper, unused⟩ := sound.issuesMap.mpr (roomy memObj found unmapped)
        rw [if_pos unmapped, issued, map_some, some.injEq] at taken
        subst taken
        refine sound.change (fun other is => ?_) upper
        rw [found, some.injEq] at is
        subst is
        refine ⟨rfl, ⟨memSound.region, upper, fun _ => Nat.ne_of_gt lower⟩, .inr fun other inside same => ?_⟩
        have absent := memObjInUse_false.mp unused other inside
        rw [matchMemObj_map.mpr same] at absent
        cases absent
      · rw [if_neg unmapped, some.injEq] at taken
        subst taken
        refine sound.change (fun other is => ?_) sound.lastMap
        rw [found, some.injEq] at is
        subst is
        exact ⟨rfl, ⟨memSound.region, memSound.map, fun _ => memSound.mapped unmapped⟩, .inl rfl⟩
  | releaseMemObj handle =>
    rw [HandleTable.step] at taken
    cases found : table.findMemObjLocked (tzhandleGetObjid handle) (tzhandleIsMemRgnObj handle) with
    | none =>
      rw [found] at taken
      cases taken
      exact sound
    | some memObj =>
      rw [found] at taken
      dsimp only at taken
      have memSound := sound.memObjs memObj (mem_of_find?_eq_some found)
      by_cases none : (if tzhandleIsMemRgnObj handle = true then memObj.memRegnRefCnt
          else memObj.memMapObjRefCnt) = 0
      · rw [if_pos none] at taken
        cases taken
      rw [if_neg none, some.injEq] at taken
      subst taken
      refine filter (sound.change (fun other is => ?_) sound.lastMap) MemRefs.live
      rw [found, some.injEq] at is
      subst is
      cases isRegion : tzhandleIsMemRgnObj handle with
      | true => exact ⟨rfl, { memSound with }, .inl rfl⟩
      | false =>
        rw [isRegion] at none
        exact ⟨rfl, ⟨memSound.region, memSound.map, fun _ => memSound.mapped none⟩, .inl rfl⟩

end

theorem find_region (sound : table.Sound) (mem : memObj ∈ table.memObjs) :
    table.findMemObjLocked memObj.memRegionId true = some memObj := by
  refine find?_eq_some_of_unique mem (matchMemObj_region.mpr rfl) fun other inside same => ?_
  rw [matchMemObj_region] at same
  by_contra different
  exact (sound.apart.forall inside mem different).1 same

theorem find_map (sound : table.Sound) (mem : memObj ∈ table.memObjs) (ne : memObj.memMapObjId ≠ 0) :
    table.findMemObjLocked memObj.memMapObjId false = some memObj := by
  refine find?_eq_some_of_unique mem (matchMemObj_map.mpr rfl) fun other inside same => ?_
  rw [matchMemObj_map] at same
  by_contra different
  apply ne
  rw [← same]
  exact (sound.apart.forall inside mem different).2 same

theorem find_server (mem : id ∈ table.cbServers) : table.findCbServerLocked id = some id :=
  find?_eq_some_of_unique mem (decide_eq_true rfl) fun _ _ same => of_decide_eq_true same

section

variable {object : LiveObject} (sound : table.Sound) (live : table.Live object)
include sound live

theorem inRange : object.InRange := by
  cases object with
  | memRegion memObj => exact (sound.memObjs memObj live.1).region
  | memMap memObj =>
    have kept := sound.memObjs memObj live.1
    exact ⟨pos_of_ne_zero (kept.mapped live.2), kept.map⟩
  | callback serverId objectId => exact sound.servers serverId live.1

theorem handle_parts :
    tzhandleGetServer object.handle = object.server ∧ tzhandleGetObjid object.handle = object.objectId ∧
      tzhandleIsLocal object.handle = true := by
  have small : object.server < 65536 ∧ object.objectId < 32768 := by
    cases object with
    | memRegion memObj =>
      exact ⟨(by decide : memRgnSrvrId < 65536), Nat.lt_succ_of_le (sound.inRange live).2⟩
    | memMap memObj => exact ⟨(by decide : memMapSrvrId < 65536), Nat.lt_succ_of_le (sound.inRange live).2⟩
    | callback serverId objectId =>
      exact ⟨Nat.lt_succ_of_le (sound.inRange live).2, Nat.lt_succ_of_le live.2⟩
  have handle : object.handle = tzhandleMakeLocal object.server object.objectId := by
    cases object <;> rfl
  rw [handle]
  exact ⟨tzhandleGetServer_makeLocal small.1 small.2, tzhandleGetObjid_makeLocal small.1 small.2,
    tzhandleIsLocal_makeLocal small.1 small.2⟩

theorem decoded : handleKind object.handle = some object.kind ∧ tzhandleGetObjid object.handle = object.objectId := by
  obtain ⟨server, objid, isLocal⟩ := sound.handle_parts live
  refine ⟨?_, objid⟩
  unfold handleKind tzhandleIsKernelObj tzhandleIsMemRgnObj tzhandleIsMemMapObj tzhandleIsCbObj
  rw [server, isLocal]
  cases object with
  | memRegion memObj => rfl
  | memMap memObj => rfl
  | callback serverId objectId =>
    have range : 16 ≤ serverId := (sound.inRange live).1
    change (if (true && decide (serverId = 0)) = true then _ else if (true && decide (serverId = 1)) = true
      then _ else if (true && decide (serverId = 2)) = true then _ else
      if (true && decide (16 ≤ serverId)) = true then _ else _) = _
    rw [decide_eq_false (by omega), decide_eq_false (by omega), decide_eq_false (by omega), decide_eq_true range]
    rfl

theorem found : table.lookup object.handle = some object := by
  obtain ⟨server, objid, isLocal⟩ := sound.handle_parts live
  unfold lookup tzhandleIsMemObj tzhandleIsMemRgnObj tzhandleIsMemMapObj tzhandleIsCbObj
  rw [server, objid, isLocal]
  cases object with
  | memRegion memObj =>
    change (table.findMemObjLocked memObj.memRegionId true).map LiveObject.memRegion = _
    rw [sound.find_region live.1]
    rfl
  | memMap memObj =>
    have range := sound.inRange live
    change (table.findMemObjLocked memObj.memMapObjId false).map LiveObject.memMap = _
    rw [sound.find_map live.1 (Nat.ne_of_gt range.1)]
    rfl
  | callback serverId objectId =>
    have range : 16 ≤ serverId := (sound.inRange live).1
    change (if ((true && decide (serverId = 1)) || (true && decide (serverId = 2))) = true then _ else
      if (true && decide (16 ≤ serverId)) = true then
        (table.findCbServerLocked serverId).map (LiveObject.callback · objectId) else none) = _
    rw [decide_eq_false (by omega), decide_eq_false (by omega), decide_eq_true range, find_server live.1]
    rfl

end

theorem identifies (sound : table.Sound) : table.Identifies := by
  refine ⟨fun _ => sound.inRange, fun _ => sound.decoded, fun object other live otherLive same => ?_,
    fun _ => sound.found⟩
  have found := sound.found live
  rw [same, sound.found otherLive, some.injEq] at found
  exact found.symm

end Sound

end HandleTable

/-- In every state that steps with room lead to, handles identify the live objects, and the next search ends in the
range exactly if it has room. -/
theorem handles_identify {table : HandleTable}
    (reached : Reachable HandleTable.step HandleTable.Roomy .init table) : table.Identifies ∧
      (Issues table.nextCbServerIdLocked table.cbServerInUse cbobjServerIdStart cbobjServerIdEnd ↔
        table.Roomy .createServer) ∧
      (Issues table.nextMemRegionObjIdLocked (table.memObjInUse true) 1 maxLocalObjId ↔ table.Roomy .createMemObj) ∧
      (Issues table.nextMemMapObjIdLocked (table.memObjInUse false) 1 maxLocalObjId ↔ table.RoomyMap) := by
  have sound := reached.invariant HandleTable.Sound .init fun _ _ _ sound roomy taken => sound.step roomy taken
  exact ⟨sound.identifies, sound.issuesServer, sound.issuesRegion, sound.issuesMap⟩

theorem handles_identify_each :
    ∃ table, Reachable HandleTable.step HandleTable.Roomy .init table ∧ table.cbServers = [17] ∧
      table.memObjs = [⟨1, 1, 1, 1⟩] ∧ table.Identifies := by
  have roomServer : HandleTable.init.Roomy .createServer := ⟨17, by decide, by decide, rfl⟩
  have server : HandleTable.init.step .createServer = some ⟨[17], [], 17, 0, 0⟩ := rfl
  have roomRegion : HandleTable.Roomy ⟨[17], [], 17, 0, 0⟩ .createMemObj := ⟨1, by decide, by decide, rfl⟩
  have region : HandleTable.step ⟨[17], [], 17, 0, 0⟩ .createMemObj = some ⟨[17], [⟨1, 0, 1, 0⟩], 17, 1, 0⟩ := rfl
  have roomMap : HandleTable.Roomy ⟨[17], [⟨1, 0, 1, 0⟩], 17, 1, 0⟩ (.mapMemRegion 2147549185) :=
    fun _ _ _ => ⟨1, by decide, by decide, rfl⟩
  have map : HandleTable.step ⟨[17], [⟨1, 0, 1, 0⟩], 17, 1, 0⟩ (.mapMemRegion 2147549185) =
      some ⟨[17], [⟨1, 1, 1, 1⟩], 17, 1, 1⟩ := rfl
  have mapped := Reachable.next (.next (.next .start roomServer server) roomRegion region) roomMap map
  exact ⟨_, mapped, rfl, rfl, (handles_identify mapped).1⟩

section History

variable {table : HandleTable} {kept : List Nat} {memObjs : List MemRefs} {last lastRegion lastMap : Nat}

theorem createServer_next (lt : last < cbobjServerIdEnd) (unused : last + 1 ∉ kept) :
    step ⟨kept, memObjs, last, lastRegion, lastMap⟩ .createServer =
      some ⟨(last + 1) :: kept, memObjs, last + 1, lastRegion, lastMap⟩ := by
  have next : (last + 1) % 65536 = last + 1 := Nat.mod_eq_of_lt (Nat.succ_lt_succ lt)
  have free : (HandleTable.mk kept memObjs last lastRegion lastMap).cbServerInUse (last + 1) = false :=
    Bool.eq_false_iff.mpr fun used => unused (HandleTable.cbServerInUse_iff.mp used)
  have issued : (HandleTable.mk kept memObjs last lastRegion lastMap).nextCbServerIdLocked = some (last + 1) := by
    have start : (if last = cbobjServerIdEnd then cbobjServerIdStart else last) = last :=
      if_neg (ne_of_lt lt)
    change nextUnused (HandleTable.mk kept memObjs last lastRegion lastMap).cbServerInUse 65536
      (if last = cbobjServerIdEnd then cbobjServerIdStart else last) = _
    rw [start, ← next]
    exact nextUnused_first (by rw [next]; exact free)
  rw [step, issued]
  rfl

theorem servers_pass {count : Nat} (reached : Reachable step (fun _ _ => True) .init
      ⟨kept, memObjs, last, lastRegion, lastMap⟩) (unused : ∀ id, last < id → id ≤ last + count → id ∉ kept)
    (below : last + count ≤ cbobjServerIdEnd) :
    Reachable step (fun _ _ => True) .init ⟨kept, memObjs, last + count, lastRegion, lastMap⟩ := by
  induction count with
  | zero => exact reached
  | succ count ih =>
    have before := ih (fun id above lt => unused id above (by omega)) (by omega)
    have created := Reachable.next before trivial
      (createServer_next (by omega) (unused (last + count + 1) (by omega) (by omega)))
    have gone : step ⟨(last + count + 1) :: kept, memObjs, last + count + 1, lastRegion, lastMap⟩
        (.destroyServer (last + count + 1)) = some ⟨kept, memObjs, last + (count + 1), lastRegion, lastMap⟩ := by
      rw [step, HandleTable.Sound.find_server (mem_cons_self ..), map_some, erase_cons_head]
      rfl
    exact .next created trivial gone

/-- A server has the last id when the search comes to the end of the ids again: the next one gets the id of the
kernel's object. -/
theorem server_zero : ∃ table after, Reachable HandleTable.step (fun _ _ => True) .init table ∧
      table.cbServers = [65535] ∧ table.step .createServer = some after ∧ 0 ∈ after.cbServers ∧
      ¬after.Identifies := by
  have passed := @servers_pass [] [] 16 0 0 65518 .start (fun _ _ _ => List.not_mem_nil) (by decide)
  have last := Reachable.next passed trivial (@createServer_next [] [] 65534 0 0 (by decide) List.not_mem_nil)
  have again : HandleTable.step ⟨[65535], [], 65535, 0, 0⟩ .createServer = some ⟨[17, 65535], [], 17, 0, 0⟩ := rfl
  have gone : HandleTable.step ⟨[17, 65535], [], 17, 0, 0⟩ (.destroyServer 17) = some ⟨[65535], [], 17, 0, 0⟩ := rfl
  have turned := @servers_pass [65535] [] 17 0 0 65517 (.next (.next last trivial again) trivial gone)
    (fun id _ within member => by rw [List.mem_singleton] at member; omega) (by decide)
  have zero : HandleTable.step ⟨[65535], [], 65534, 0, 0⟩ .createServer = some ⟨[0, 65535], [], 0, 0, 0⟩ := rfl
  refine ⟨_, _, turned, rfl, zero, List.mem_cons_self .., fun identifies => ?_⟩
  have range := identifies.inRange (.callback 0 0) ⟨List.mem_cons_self .., Nat.zero_le _⟩
  exact absurd range.1 (by decide)

end History

end KernelModules.Smcinvoke

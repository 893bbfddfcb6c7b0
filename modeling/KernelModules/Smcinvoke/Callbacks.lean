import KernelModules.Data.RingStream
import KernelModules.Smcinvoke.Messages

namespace KernelModules.Smcinvoke

open Data

/-! # Callback requests

A request is copied, shown to the user who serves it, and given back with the reply and, behind its buffers, what
TrustZone should know of new memory objects.
-/

section MarshalIn

/-- What `marshal_in_tzcb_req` meets outside of the message -/
structure Server where
  bufLen : Nat
  uhandle : Nat → Option Int
  copyFails : Nat → Bool

structure Shown where
  events : List Event
  ret : Int
  /-- `user_req_buf_offset` -/
  userOffset : Nat

variable (memory : ByteMemory) (length : Nat) (server : Server)

def inBuffersShown : List Nat → Nat → Shown
  | [], userOffset => ⟨[], 0, userOffset⟩
  | index :: rest, userOffset =>
    let userOffset := sizeAlign userOffset smcinvokeArgsAlignSize
    let size := tzcbSize memory index
    let offset := tzcbOffset memory index
    let header := [.read (tzcbArg index + 4) 4, .read (tzcbArg index) 4]
    if offset > length ∨ size > sizeSub length offset ∨ userOffset > server.bufLen ∨
        size > sizeSub server.bufLen userOffset then
      ⟨header, einval, userOffset⟩
    else let copy := [.bound (decide (offset ≤ length)), .bound (decide (userOffset ≤ server.bufLen)),
        .read offset size]
      if server.copyFails index then ⟨header ++ copy, efault, userOffset⟩
      else let later := inBuffersShown rest (userOffset + size)
        { later with events := header ++ copy ++ later.events }

def outBuffersShown : List Nat → Nat → Shown
  | [], userOffset => ⟨[], 0, userOffset⟩
  | index :: rest, userOffset =>
    let userOffset := sizeAlign userOffset smcinvokeArgsAlignSize
    let size := tzcbSize memory index
    let header := [.read (tzcbArg index + 4) 4]
    if userOffset > server.bufLen ∨ size > sizeSub server.bufLen userOffset then ⟨header, einval, userOffset⟩
    else if server.copyFails index then ⟨header, efault, userOffset⟩
    else let later := outBuffersShown rest (userOffset + size)
      { later with events := header ++ .bound (decide (userOffset ≤ server.bufLen)) :: later.events }

def objectsShown : List Nat → Nat → Shown
  | [], userOffset => ⟨[], 0, userOffset⟩
  | index :: rest, userOffset =>
    let header := [.read (tzcbArg index) 4]
    match server.uhandle (tzcbHandle memory index) with
    | none => ⟨header, einval, userOffset⟩
    | some _ =>
      if server.copyFails index then ⟨header, efault, userOffset⟩
      else let later := objectsShown rest userOffset
        { later with events := header ++ later.events }

def Shown.andThen (shown : Shown) (next : Nat → Shown) : Shown :=
  if shown.ret ≠ 0 then shown
  else let later := next shown.userOffset
    { later with events := shown.events ++ later.events }

/-- `length` is `cb_txn->cb_req_bytes`; 24 is the size of `union smcinvoke_arg`. -/
def marshalInTzcbReq : Shown :=
  let counts := tzcbHdrCounts memory
  let userOffset := 24 * objectCountsTotal counts
  if tzcbBufOffset memory > length then ⟨[.read 12 4], einval, userOffset⟩
  else match server.uhandle (tzcbHdrTzhandle memory) with
    | none => ⟨[.read 12 4, .read 4 4], einval, userOffset⟩
    | some _ =>
      let loops := ((inBuffersShown memory length server
          (List.range' 0 (objectCountsNumBi counts)) userOffset).andThen
        (outBuffersShown memory server
          (List.range' (objectCountsIndexBo counts) (objectCountsNumBo counts)))).andThen
        (objectsShown memory server (List.range' (objectCountsIndexOi counts) (objectCountsNumOi counts)))
      { loops with events := [.read 12 4, .read 4 4, .read 8 4] ++ loops.events }

end MarshalIn

section SideChannel

variable (start bufSize : Nat)

/-- The sizes of `struct smcinvoke_mem_obj_msg` and of `struct smcinvoke_mem_obj_info` -/
def memObjMsgSize : Nat := 16

def memObjInfoSize : Nat := 32

def smcinvokeAsyncVersion : Nat := 65538

def smcinvokeAsyncOpMemoryObject : Nat := 3

/-- `TZHANDLE_MAKE_LOCAL(MEM_RGN_SRVR_ID, object)` -/
def tzhandleMakeRegion (object : Nat) : Nat := u32 ((32768 ||| object) * 65536 ||| 1)

structure Side where
  events : List Event
  memory : ByteMemory
  count : Nat

def addInfos : List MemObj → Nat → ByteMemory → Side
  | [], index, memory => ⟨[], memory, index⟩
  | memObj :: rest, index, memory =>
    let used := memObjMsgSize + memObjInfoSize * index
    if used + memObjInfoSize > bufSize then ⟨[], memory, index⟩
    else let place := start + used
      let memory := ((((memory.store place 4 (tzhandleMakeRegion memObj.memRegionId)).store
        (place + 4) 4 (tzhandleMakeMap memObj.memMapObjId)).store
        (place + 8) 8 memObj.pAddr).store (place + 16) 8 memObj.pAddrLen).store
        (place + 24) 4 smcinvokeMemPermRw
      let later := addInfos rest (index + 1) memory
      { later with events := [.write place 4, .write (place + 4) 4, .write (place + 8) 8,
          .write (place + 16) 8, .write (place + 24) 4] ++ later.events }

/-- `add_mem_obj_info_to_async_side_channel_locked`, at `start` of the message -/
def addMemObjInfoToAsyncSideChannel (pending : List MemObj) (memory : ByteMemory) : Side :=
  if pending = [] ∨ bufSize < memObjMsgSize + memObjInfoSize then ⟨[], memory, 0⟩
  else let memory := ((memory.store start 4 smcinvokeAsyncVersion).store
      (start + 4) 4 smcinvokeAsyncOpMemoryObject).store (start + 8) 4 0
    let infos := addInfos start bufSize pending 0 memory
    { infos with
      events := [.write start 4, .write (start + 4) 4, .write (start + 8) 4] ++ infos.events ++
        [.write (start + 8) 4]
      memory := infos.memory.store (start + 8) 4 infos.count }

end SideChannel

section MarshalOut

structure Reply where
  result : Nat
  argFails : Nat → Bool
  size : Nat → Nat
  data : Nat → ByteMemory
  dataFails : Nat → Bool
  tzhandle : Nat → Except Int Nat

structure AsyncChannel where
  memObjAsyncSupport : Bool
  /-- `g_max_cb_buf_size` -/
  maxCbBufSize : Nat
  /-- The new memory objects that TrustZone has not been told of -/
  pending : List MemObj

structure Returned where
  events : List Event
  ret : Int
  memory : ByteMemory
  furthest : Furthest

variable (reply : Reply)

/-- The loop over the output buffers.  The counts are read anew in every turn, and there are never
more than 30 buffers. -/
def outBuffersReturned : Nat → Nat → ByteMemory → Furthest → Returned
  | 0, _, memory, furthest => ⟨[], 0, memory, furthest⟩
  | fuel + 1, index, memory, furthest =>
    if index < objectCountsIndexOi (tzcbHdrCounts memory) then
      if reply.argFails index then ⟨[], efault, memory, furthest⟩
      else if reply.size index > tzcbSize memory index then
        ⟨[.read (tzcbArg index + 4) 4], einval, memory, furthest⟩
      else let start := tzcbOffset memory index
        let memory := memory.copy (reply.data index) start 0 (reply.size index)
        let copy := [.read (tzcbArg index + 4) 4, .read (tzcbArg index) 4, .write start (reply.size index)]
        if reply.dataFails index then ⟨copy, efault, memory, furthest⟩
        else let later := outBuffersReturned fuel (index + 1) memory (furthest.update memory index)
          { later with events := copy ++ furthest.reads memory index ++ later.events }
    else ⟨[], 0, memory, furthest⟩

def objectsReturned : Nat → Nat → ByteMemory → List Event × Int × ByteMemory
  | 0, _, memory => ([], 0, memory)
  | fuel + 1, index, memory =>
    if index < objectCountsTotal (tzcbHdrCounts memory) then if reply.argFails index then ([], efault, memory)
      else match reply.tzhandle index with
        | .error ret => ([], ret, memory)
        | .ok handle =>
          let later := objectsReturned fuel (index + 1) (memory.store (tzcbArg index) 4 handle)
          (.write (tzcbArg index) 4 :: later.1, later.2)
    else ([], 0, memory)

/-- What the reply changes in the message, up to the label `out` -/
def Returned.ofReply (memory : ByteMemory) : Returned :=
  if reply.result ≠ 0 then ⟨[], 0, memory, .none⟩
  else let counts := tzcbHdrCounts memory
    let bis := List.range' 0 (objectCountsNumBi counts)
    let buffers := outBuffersReturned reply 31 (objectCountsIndexBo counts) memory
      (scanFurthest memory bis .none)
    let reads := scanReads memory bis .none
    if buffers.ret ≠ 0 then { buffers with events := reads ++ buffers.events }
    else
      let objects := objectsReturned reply 61 (objectCountsIndexOo (tzcbHdrCounts buffers.memory))
        buffers.memory
      ⟨reads ++ buffers.events ++ objects.1, objects.2.1, objects.2.2, buffers.furthest⟩

def sideOffset (tzBufOffset : Nat) (furthest : Furthest) : Nat :=
  u32 (sizeAlign
    (if furthest.maxOffset ≠ 0 then u32 (furthest.maxOffset + furthest.bufferSizeMaxOffset)
      else u32 tzBufOffset) smcinvokeArgsAlignSize)

def AsyncChannel.fill (async : AsyncChannel) (tzBufOffset : Nat) (furthest : Furthest)
    (memory : ByteMemory) : Side :=
  if async.memObjAsyncSupport then let offset := sideOffset tzBufOffset furthest
    let sum := .bound (decide (furthest.maxOffset + furthest.bufferSizeMaxOffset + 7 < 4294967296))
    if offset > async.maxCbBufSize then ⟨[sum], memory, 0⟩
    else let side := addMemObjInfoToAsyncSideChannel offset (async.maxCbBufSize - offset) async.pending memory
      { side with events := sum :: side.events }
  else ⟨[], memory, 0⟩

def marshalOutTzcbReq (async : AsyncChannel) (memory : ByteMemory) : Answer :=
  let tzBufOffset := tzcbBufOffset memory
  let returned := Returned.ofReply reply (memory.store 0 4 reply.result)
  let counts := tzcbHdrCounts returned.memory
  let handles := (List.range' (objectCountsIndexOi counts) (objectCountsNumOi counts)).map
    fun index => .read (tzcbArg index) 4
  let side := async.fill tzBufOffset returned.furthest returned.memory
  ⟨[.read 4 4, .write 0 4] ++ returned.events ++ handles ++ side.events, returned.ret, side.memory⟩

end MarshalOut

end KernelModules.Smcinvoke

import KernelModules.Data.ByteMemory

namespace KernelModules.Smcinvoke

open Data List

/-! # Messages from TrustZone

A message is a header, a table of arguments and buffers.  Each routine returns, with its answer, its accesses to the
shared buffer and how its bounds came out.
-/

def objectCountsNumBi (counts : Nat) : Nat := counts % 16

def objectCountsNumBo (counts : Nat) : Nat := counts / 16 % 16

def objectCountsNumOi (counts : Nat) : Nat := counts / 256 % 16

def objectCountsNumOo (counts : Nat) : Nat := counts / 4096 % 16

def objectCountsIndexBo (counts : Nat) : Nat := objectCountsNumBi counts

def objectCountsIndexOi (counts : Nat) : Nat := objectCountsIndexBo counts + objectCountsNumBo counts

def objectCountsIndexOo (counts : Nat) : Nat := objectCountsIndexOi counts + objectCountsNumOi counts

def objectCountsTotal (counts : Nat) : Nat := objectCountsIndexOo counts + objectCountsNumOo counts

def objectCountsPack (inBufs outBufs inObjs outObjs : Nat) : Nat :=
  inBufs + outBufs * 16 + inObjs * 256 + outObjs * 4096

def u32 (value : Nat) : Nat := value % 4294967296

/-- A difference of two `uint32_t` -/
def u32Sub (value less : Nat) : Nat :=
  if less ≤ value then value - less else value + 4294967296 - less

/-- A difference of two `size_t` -/
def sizeSub (value less : Nat) : Nat :=
  if less ≤ value then value - less else value + 18446744073709551616 - less

def sizeMax : Nat := 18446744073709551615

def sizeAdd (value more : Nat) : Nat := if more > sizeMax - value then sizeMax else value + more

def padSize (value unit : Nat) : Nat := (18446744073709551616 - value) % 18446744073709551616 % unit

def sizeAlign (value unit : Nat) : Nat := sizeAdd value (padSize value unit)

def smcinvokeArgsAlignSize : Nat := 8

def objectOk : Int := 0

def objectErrorInvalid : Int := 2

def objectErrorBadobj : Int := -92

def objectOpRelease : Nat := 65535

def einval : Int := -22

def efault : Int := -14

/-- What a routine does with the shared buffer, and with the bounds that it takes from a message. -/
inductive Event where
  | read (start count : Nat)
  | write (start count : Nat)
  /-- The routine goes by a difference or a sum, which came out as it does for integers or not. -/
  | bound (exact : Bool)
  | deliver (supplied count : Nat)
deriving DecidableEq

def Event.Confined (length : Nat) : Event → Prop
  | .read start count => start + count ≤ length
  | .write start count => start + count ≤ length
  | .bound exact => exact = true
  | .deliver supplied count => count ≤ supplied

def Confined (length : Nat) (events : List Event) : Prop := ∀ event ∈ events, event.Confined length

/-- `struct smcinvoke_tzcb_req` begins with a result, a handle, an operation and the counts. -/
def tzcbHdrCounts (memory : ByteMemory) : Nat := memory.load 12 4

def tzcbHdrTzhandle (memory : ByteMemory) : Nat := memory.load 4 4

def tzcbArg (index : Nat) : Nat := 16 + 8 * index

def tzcbOffset (memory : ByteMemory) (index : Nat) : Nat := memory.load (tzcbArg index) 4

def tzcbSize (memory : ByteMemory) (index : Nat) : Nat := memory.load (tzcbArg index + 4) 4

def tzcbHandle (memory : ByteMemory) (index : Nat) : Nat := memory.load (tzcbArg index) 4

def tzcbBufOffset (memory : ByteMemory) : Nat := 4 + 12 + 8 * objectCountsTotal (tzcbHdrCounts memory)

section MapMemRegion

structure MemObj where
  memRegionId : Nat
  memMapObjId : Nat
  pAddr : Nat
  pAddrLen : Nat

def tzhandleGetObjid (handle : Nat) : Nat := handle / 65536 % 32768

/-- `TZHANDLE_MAKE_LOCAL(MEM_MAP_SRVR_ID, object)` -/
def tzhandleMakeMap (object : Nat) : Nat := u32 ((32768 ||| object) * 65536 ||| 2)

def smcinvokeMemPermRw : Nat := 6

structure Answer where
  events : List Event
  ret : Int
  memory : ByteMemory

variable (memory : ByteMemory) (bufLen : Nat) (memObjs : List MemObj)
  (mapRegion : MemObj → Except Int MemObj)

/-- The memory object that a request is for, mapped; `mapRegion` is `smcinvoke_map_mem_region_locked`. -/
def requestedMemObj : Except Int MemObj :=
  match memObjs.find? fun memObj => memObj.memRegionId = tzhandleGetObjid (tzcbHandle memory 1) with
  | none => .error objectErrorBadobj
  | some memObj => if memObj.pAddr = 0 then mapRegion memObj else .ok memObj

def smcinvokeProcessMapMemRegionReq : Answer :=
  let counts := tzcbHdrCounts memory
  if counts ≠ objectCountsPack 0 1 1 1 then ⟨[.read 12 4], objectErrorInvalid, memory⟩
  else let offset := tzcbOffset memory 0
    let header := [.read 12 4, .read (tzcbArg 0) 4, .read (tzcbArg 0 + 4) 4]
    if sizeSub bufLen offset < tzcbSize memory 0 then ⟨header, objectErrorInvalid, memory⟩
    else let looked := header ++ [.bound (decide (offset ≤ bufLen)), .read (tzcbArg 1) 4]
      match requestedMemObj memory memObjs mapRegion with
      | .error ret => ⟨looked, ret, memory⟩
      | .ok memObj =>
        ⟨looked ++ [.write offset 8, .write (offset + 8) 8, .write (offset + 16) 4, .write (tzcbArg 2) 4],
          objectOk, (((memory.store offset 8 memObj.pAddr).store (offset + 8) 8 memObj.pAddrLen).store
            (offset + 16) 4 smcinvokeMemPermRw).store
            (tzcbArg 2) 4 (tzhandleMakeMap memObj.memMapObjId)⟩

end MapMemRegion

section Furthest

structure Furthest where
  maxOffset : Nat
  bufferSizeMaxOffset : Nat

def Furthest.none : Furthest := ⟨0, 0⟩

variable (memory : ByteMemory)

def Furthest.update (furthest : Furthest) (index : Nat) : Furthest :=
  if tzcbOffset memory index > furthest.maxOffset then ⟨tzcbOffset memory index, tzcbSize memory index⟩
  else furthest

def Furthest.reads (furthest : Furthest) (index : Nat) : List Event :=
  if tzcbOffset memory index > furthest.maxOffset then [.read (tzcbArg index) 4, .read (tzcbArg index + 4) 4]
  else [.read (tzcbArg index) 4]

def scanFurthest : List Nat → Furthest → Furthest
  | [], furthest => furthest
  | index :: rest, furthest => scanFurthest rest (furthest.update memory index)

def scanReads : List Nat → Furthest → List Event
  | [], _ => []
  | index :: rest, furthest => furthest.reads memory index ++ scanReads rest (furthest.update memory index)

end Furthest

section Piggyback

/-- A piggybacked message that starts at `start`: what is read of it and which handles are released. -/
structure Piggyback where
  events : List Event
  released : List Nat

variable (memory : ByteMemory) (bufLen maxCbBufSize : Nat)

def processPiggybackData (start bufSize : Nat) : Piggyback :=
  let version := memory.load start 4
  if version = 0 then ⟨[.read start 4], []⟩
  else let op := memory.load (start + 4) 4
    let counts := memory.load (start + 8) 4
    let header := [.read start 4, .read (start + 8) 4]
    let clear := [.write start bufSize]
    if counts = 0 then ⟨header ++ clear, []⟩
    else if op ≠ objectOpRelease then ⟨header ++ [.read (start + 4) 4] ++ clear, []⟩
    else ⟨header ++ [.read (start + 4) 4] ++
          (List.range counts).map (fun index => .read (start + 12 + 4 * index) 4) ++ clear,
        (List.range counts).map fun index => memory.load (start + 12 + 4 * index) 4⟩

def piggybackOffset : Nat :=
  let counts := tzcbHdrCounts memory
  let furthest := scanFurthest memory (List.range' (objectCountsIndexBo counts) (objectCountsNumBo counts))
    (scanFurthest memory (List.range' 0 (objectCountsNumBi counts)) .none)
  sizeAlign
    (if furthest.maxOffset ≠ 0 then u32 (furthest.maxOffset + furthest.bufferSizeMaxOffset)
      else tzcbBufOffset memory) smcinvokeArgsAlignSize

def processPiggybackCbData : Piggyback :=
  if bufLen < tzcbOffset memory 0 then ⟨[.read (tzcbArg 0) 4], []⟩
  else let header := [.read (tzcbArg 0) 4, .bound (decide (tzcbOffset memory 0 ≤ bufLen)), .read (tzcbArg 0 + 4) 4]
    if sizeSub bufLen (tzcbOffset memory 0) < tzcbSize memory 0 then ⟨header, []⟩
    else
    let counts := tzcbHdrCounts memory
    let bis := List.range' 0 (objectCountsNumBi counts)
    let bos := List.range' (objectCountsIndexBo counts) (objectCountsNumBo counts)
    let inner := scanFurthest memory bis .none
    let furthest := scanFurthest memory bos inner
    let start := piggybackOffset memory
    let side := processPiggybackData memory start (sizeSub maxCbBufSize start)
    ⟨header ++ [.read 12 4] ++
        scanReads memory bis .none ++ scanReads memory bos inner ++
        [.bound (decide (furthest.maxOffset + furthest.bufferSizeMaxOffset < 4294967296)),
          .bound (decide (start ≤ maxCbBufSize))] ++ side.events,
      side.released⟩

end Piggyback

section MarshalOutInvoke

def invokeArg (index : Nat) : Nat := 12 + 8 * index

def invokeOffset (memory : ByteMemory) (index : Nat) : Nat := memory.load (invokeArg index) 4

def invokeSize (memory : ByteMemory) (index : Nat) : Nat := memory.load (invokeArg index + 4) 4

structure InvokeArg where
  size : Nat
  fd : Int

structure InvokeAnswer where
  events : List Event
  ret : Int
  args : Nat → InvokeArg

variable (memory : ByteMemory) (bufSize : Nat) (supplied : Nat → Nat) (copyFails : Nat → Bool)
  (uhandle : Nat → Except Int Int)

/-- The loop over the output buffers; `bufSize` is a `uint32_t`. -/
def invokeBuffers : List Nat → (Nat → InvokeArg) → InvokeAnswer
  | [], args => ⟨[], 0, args⟩
  | index :: rest, args =>
    let size := invokeSize memory index
    let offset := invokeOffset memory index
    let args := Function.update args index { args index with size := size }
    let header := [.read (invokeArg index + 4) 4, .read (invokeArg index) 4]
    if u32Sub bufSize offset < size ∨ offset > bufSize then ⟨header, einval, args⟩
    else let copy := [.bound (decide (offset ≤ bufSize)), .read offset size, .deliver (supplied index) size]
      if copyFails index then ⟨header ++ copy, einval, args⟩
      else let later := invokeBuffers rest args
        { later with events := header ++ copy ++ later.events }

def invokeObjects : List Nat → (Nat → InvokeArg) → InvokeAnswer
  | [], args => ⟨[], 0, args⟩
  | index :: rest, args =>
    match uhandle (memory.load (invokeArg index) 4) with
    | .error ret =>
      ⟨[.read (invokeArg index) 4], ret, Function.update args index { args index with fd := -1 }⟩
    | .ok fd =>
      let later := invokeObjects rest (Function.update args index { args index with fd := fd })
      { later with events := .read (invokeArg index) 4 :: later.events }

/-- `args` is null when the request has no arguments; `bufLen` is cut to a `uint32_t`. -/
def marshalOutInvokeReq (bufLen counts : Nat) (args : Option (Nat → InvokeArg)) : InvokeAnswer :=
  let bufSize := u32 bufLen
  if 12 + objectCountsTotal counts * 8 > bufSize then ⟨[], einval, args.getD fun _ => ⟨0, -1⟩⟩
  else match args with
    | none => ⟨[], 0, fun _ => ⟨0, -1⟩⟩
    | some args =>
      let buffers := invokeBuffers memory bufSize supplied copyFails
        (List.range' (objectCountsIndexBo counts) (objectCountsNumBo counts)) args
      if buffers.ret ≠ 0 then buffers
      else
        let objects := invokeObjects memory uhandle
          (List.range' (objectCountsIndexOo counts) (objectCountsNumOo counts)) buffers.args
        { objects with events := buffers.events ++ objects.events }

end MarshalOutInvoke

end KernelModules.Smcinvoke

import KernelModules.Data.ByteMemory

namespace KernelModules.HwFence

open Data

/-! # Client queues

A ring of payloads shared with the fence controller, with indices in a header that are stored as offsets from
`rd_wr_idx_start` in units of `rd_wr_idx_factor` dwords.
-/

/-- `sizeof(struct msm_hw_fence_queue_payload)`. -/
def payloadSize : Nat := 64

def hwFencePayloadType1 : BitVec 16 := 1

/-- `HW_FENCE_PAYLOAD_REV(major, minor)`. -/
def hwFencePayloadRev (major minor : BitVec 16) : BitVec 16 := major <<< 8 ||| (minor &&& 0xFF)

structure QueueMessage where
  size : BitVec 32
  type : BitVec 16
  version : BitVec 16
  ctxtId : BitVec 64
  seqno : BitVec 64
  hash : BitVec 64
  flags : BitVec 64
  clientData : BitVec 64
  error : BitVec 32
  timestampLo : BitVec 32
  timestampHi : BitVec 32
deriving DecidableEq

/-- `struct msm_hw_fence_queue_payload`.  No write stores the last field. -/
structure MsmHwFenceQueuePayload extends QueueMessage where
  reserve : BitVec 32

/-- The payload that the bytes from `address` on spell. -/
def MsmHwFenceQueuePayload.ofBytes (memory : ByteMemory) (address : Nat) : MsmHwFenceQueuePayload where
  size := BitVec.ofNat 32 (memory.load (address + 0) 4)
  type := BitVec.ofNat 16 (memory.load (address + 4) 2)
  version := BitVec.ofNat 16 (memory.load (address + 6) 2)
  ctxtId := BitVec.ofNat 64 (memory.load (address + 8) 8)
  seqno := BitVec.ofNat 64 (memory.load (address + 16) 8)
  hash := BitVec.ofNat 64 (memory.load (address + 24) 8)
  flags := BitVec.ofNat 64 (memory.load (address + 32) 8)
  clientData := BitVec.ofNat 64 (memory.load (address + 40) 8)
  error := BitVec.ofNat 32 (memory.load (address + 48) 4)
  timestampLo := BitVec.ofNat 32 (memory.load (address + 52) 4)
  timestampHi := BitVec.ofNat 32 (memory.load (address + 56) 4)
  reserve := BitVec.ofNat 32 (memory.load (address + 60) 4)

/-- The fields of `struct msm_hw_fence_hfi_queue_header` that reads and writes use. -/
structure MsmHwFenceHfiQueueHeader where
  readIndex : BitVec 32
  writeIndex : BitVec 32
  txWm : BitVec 32

/-- `struct msm_hw_fence_queue`, with the memory its pointers lead to. -/
structure MsmHwFenceQueue where
  vaQueue : ByteMemory
  qSizeBytes : BitVec 32
  vaHeader : Option MsmHwFenceHfiQueueHeader
  rdWrIdxStart : BitVec 32
  rdWrIdxFactor : BitVec 32
  skipWrIdx : Bool

def requiresIdxTranslation (queue : MsmHwFenceQueue) : Bool :=
  queue.rdWrIdxFactor != 0 && (queue.rdWrIdxStart != 0 || 1 < queue.rdWrIdxFactor)

def idxTranslateCustomToDefault (queue : MsmHwFenceQueue) (idx : BitVec 32) : BitVec 32 :=
  (idx - queue.rdWrIdxStart) * queue.rdWrIdxFactor

def idxTranslateDefaultToCustom (queue : MsmHwFenceQueue) (idx : BitVec 32) : BitVec 32 :=
  idx / queue.rdWrIdxFactor + queue.rdWrIdxStart

def translateQueueIndexesCustomToDefault (queue : MsmHwFenceQueue)
    (readIdx writeIdx : BitVec 32) : BitVec 32 × BitVec 32 :=
  if requiresIdxTranslation queue then
    (idxTranslateCustomToDefault queue readIdx, idxTranslateCustomToDefault queue writeIdx)
  else (readIdx, writeIdx)

def MsmHwFenceQueue.qSizeU32 (queue : MsmHwFenceQueue) : BitVec 32 := queue.qSizeBytes / 4

def payloadSizeU32 : BitVec 32 := BitVec.ofNat 32 payloadSize / 4

/-- The index after the payload at `idx`, in the space of the header. -/
def indexAfter (queue : MsmHwFenceQueue) (idx : BitVec 32) : BitVec 32 :=
  let toIdx := if idx + payloadSizeU32 ≥ queue.qSizeU32 then 0 else idx + payloadSizeU32
  if requiresIdxTranslation queue then idxTranslateDefaultToCustom queue toIdx else toIdx

def queueFreeU32 (queue : MsmHwFenceQueue) (readIdx writeIdx : BitVec 32) : BitVec 32 :=
  if readIdx ≤ writeIdx then queue.qSizeU32 - (writeIdx - readIdx) else readIdx - writeIdx

def eInval : Int := -22

/-- `hw_fence_read_queue_helper`: the result, the payload it copied out, and the queue. -/
def hwFenceReadQueueHelper (queue : MsmHwFenceQueue) : Int × Option MsmHwFenceQueuePayload × MsmHwFenceQueue :=
  match queue.vaHeader with
  | none => (eInval, none, queue)
  | some header =>
    let (readIdx, writeIdx) :=
      translateQueueIndexesCustomToDefault queue header.readIndex header.writeIndex
    if readIdx = writeIdx then (eInval, none, queue)
    else let payload := MsmHwFenceQueuePayload.ofBytes queue.vaQueue (4 * readIdx.toNat)
      let toReadIdx := indexAfter queue readIdx
      (if toReadIdx = writeIdx then 0 else 1, some payload,
        { queue with vaHeader := some { header with readIndex := toReadIdx } })

/-- The index word that writes use: `skip_wr_idx` leaves the write index to others. -/
def MsmHwFenceQueue.writeIndexWord (queue : MsmHwFenceQueue)
    (header : MsmHwFenceHfiQueueHeader) : BitVec 32 :=
  if queue.skipWrIdx then header.txWm else header.writeIndex

def MsmHwFenceQueue.setWriteIndexWord (queue : MsmHwFenceQueue)
    (header : MsmHwFenceHfiQueueHeader) (idx : BitVec 32) : MsmHwFenceHfiQueueHeader :=
  if queue.skipWrIdx then { header with txWm := idx } else { header with writeIndex := idx }

structure UpdateCall where
  ctxtId : BitVec 64
  seqno : BitVec 64
  hash : BitVec 64
  flags : BitVec 64
  clientData : BitVec 64
  error : BitVec 32
  qtime : BitVec 64

def UpdateCall.message (call : UpdateCall) : QueueMessage where
  size := BitVec.ofNat 32 payloadSize
  type := hwFencePayloadType1
  version := hwFencePayloadRev 1 0
  ctxtId := call.ctxtId
  seqno := call.seqno
  hash := call.hash
  flags := call.flags
  clientData := call.clientData
  error := call.error
  timestampLo := call.qtime.setWidth 32
  timestampHi := (call.qtime >>> 32).setWidth 32

/-- The stores of a write, in order; the size is stored as eight bytes, over the type and the version. -/
def UpdateCall.stores (call : UpdateCall) : List ByteStore :=
  [⟨0, 8, payloadSize⟩, ⟨4, 2, hwFencePayloadType1.toNat⟩,
    ⟨6, 2, (hwFencePayloadRev 1 0).toNat⟩, ⟨8, 8, call.ctxtId.toNat⟩, ⟨16, 8, call.seqno.toNat⟩,
    ⟨24, 8, call.hash.toNat⟩, ⟨32, 8, call.flags.toNat⟩, ⟨40, 8, call.clientData.toNat⟩,
    ⟨48, 4, call.error.toNat⟩, ⟨52, 4, (call.qtime.setWidth 32).toNat⟩,
    ⟨56, 4, ((call.qtime >>> 32).setWidth 32).toNat⟩]

/-- `struct msm_hw_fence_client`, as far as its queues go. -/
structure MsmHwFenceClient where
  clientId : BitVec 32
  queues : List MsmHwFenceQueue
  queuesNum : Nat

/-- `_lock_client_queue`: only the Rx queue is locked. -/
def lockClientQueue (queueType : Nat) : Bool := queueType = 1

/-- The checks of `hw_fence_update_queue` before it reads the indices: the queue and its
header, or nothing where the call is refused. -/
def updateQueueParams (clientLockTblCnt : BitVec 32) (client : MsmHwFenceClient)
    (queueType : Nat) : Option (MsmHwFenceQueue × MsmHwFenceHfiQueueHeader) :=
  if queueType ≥ client.queuesNum then none
  else match client.queues[queueType]? with
    | none => none
    | some queue =>
      match queue.vaHeader with
      | none => none
      | some header =>
        if lockClientQueue queueType && client.clientId - 1 ≥ clientLockTblCnt then none
        else some (queue, header)

def hwFenceUpdateQueue (clientLockTblCnt : BitVec 32) (client : MsmHwFenceClient)
    (call : UpdateCall) (queueType : Nat) : Int × MsmHwFenceClient :=
  match updateQueueParams clientLockTblCnt client queueType with
  | none => (eInval, client)
  | some (queue, header) =>
    let (readIdx, writeIdx) := translateQueueIndexesCustomToDefault queue header.readIndex
      (queue.writeIndexWord header)
    if queueFreeU32 queue readIdx writeIdx ≤ payloadSizeU32 then (eInval, client)
    else let toWriteIdx := indexAfter queue writeIdx
      let queue := { queue with
        vaQueue := queue.vaQueue.storeAll (4 * writeIdx.toNat) call.stores
        vaHeader := some (queue.setWriteIndexWord header toWriteIdx) }
      (0, { client with queues := client.queues.set queueType queue })

theorem MsmHwFenceQueuePayload.ofBytes_congr
    (same : ∀ byte, byte < payloadSize → mem (addr + byte) = other (elsewhere + byte)) :
    ofBytes mem addr = ofBytes other elsewhere := by
  have field : ∀ off count, off + count ≤ payloadSize →
      mem.load (addr + off) count = other.load (elsewhere + off) count := by
    intro off count inside
    apply ByteMemory.load_congr
    intro byte lt
    rw [add_assoc, add_assoc]
    exact same (off + byte) (by omega)
  unfold ofBytes
  rw [field 0 4 (by decide), field 4 2 (by decide), field 6 2 (by decide), field 8 8 (by decide),
    field 16 8 (by decide), field 24 8 (by decide), field 32 8 (by decide),
    field 40 8 (by decide), field 48 4 (by decide), field 52 4 (by decide),
    field 56 4 (by decide), field 60 4 (by decide)]

theorem UpdateCall.stores_message {mem : ByteMemory} (call : UpdateCall) :
    (MsmHwFenceQueuePayload.ofBytes (mem.storeAll address call.stores) address).toQueueMessage = call.message := by
  unfold MsmHwFenceQueuePayload.ofBytes UpdateCall.stores
  simp (disch := omega) only [ByteMemory.storeAll_cons, ByteMemory.storeAll_nil, ByteStore.apply,
    ByteMemory.load_store_outside, ByteMemory.load_store]
  have word : ∀ value : BitVec 32, BitVec.ofNat 32 (value.toNat % 256 ^ 4) = value := by
    intro value
    rw [Nat.mod_eq_of_lt (by exact value.isLt), BitVec.ofNat_toNat, BitVec.setWidth_eq]
  have double : ∀ value : BitVec 64, BitVec.ofNat 64 (value.toNat % 256 ^ 8) = value := by
    intro value
    rw [Nat.mod_eq_of_lt (by exact value.isLt), BitVec.ofNat_toNat, BitVec.setWidth_eq]
  simp only [word, double]
  rfl

theorem UpdateCall.stores_within (call : UpdateCall) :
    ∀ store ∈ call.stores, store.offset + store.count ≤ payloadSize := by
  simp [UpdateCall.stores, payloadSize]

end KernelModules.HwFence

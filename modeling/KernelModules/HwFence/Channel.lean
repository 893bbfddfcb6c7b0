import KernelModules.Data.Run
import KernelModules.HwFence.RingIndex
import Mathlib.Data.List.GetD

namespace KernelModules.HwFence

open List hiding after count
open Data
open MsmHwFenceQueuePayload hiding mk

/-! # Reads and writes that overlap

Each access of the writer and the reader to the shared memory is a step.  Writes of one queue follow one another: a
Tx queue has one client, and an Rx queue is written under a lock.
-/

/-- What the two sides have done; `seen` is the number of payloads pending when a side looked at the other's index. -/
inductive Event where
  | addressed (idx : BitVec 32)
  | accepted (seen : Nat) (message : QueueMessage)
  | refused (seen : Nat)
  | returned (payload : MsmHwFenceQueuePayload)
  | nothingToRead (seen : Nat)

def Event.acceptedMessage : Event → Option QueueMessage
  | .accepted _ message => some message
  | _ => none

def Event.returnedPayload : Event → Option MsmHwFenceQueuePayload
  | .returned payload => some payload
  | _ => none

/-- How far a call of `hw_fence_update_queue` has come. -/
inductive Writer where
  | idle
  | entered (call : UpdateCall)
  | sampled (call : UpdateCall) (readIndex : BitVec 32) (seen : Nat)
  | storing (call : UpdateCall) (seen : Nat) (writeIdx : BitVec 32) (rest : List ByteStore)

/-- How far a call of `hw_fence_read_queue_helper` has come. -/
inductive Reader where
  | idle
  | entered
  | sampled (readIndex : BitVec 32)
  | copying (readIdx : BitVec 32) (copied : List (BitVec 8))

structure Channel where
  queue : MsmHwFenceQueue
  header : MsmHwFenceHfiQueueHeader
  writer : Writer
  reader : Reader
  log : List Event

def Channel.accepted (channel : Channel) : List QueueMessage :=
  channel.log.filterMap Event.acceptedMessage

def Channel.returned (channel : Channel) : List MsmHwFenceQueuePayload :=
  channel.log.filterMap Event.returnedPayload

def Channel.pending (channel : Channel) : Nat :=
  channel.accepted.length - channel.returned.length

inductive Action where
  | beginWrite (call : UpdateCall)
  | write
  | beginRead
  | read

def Channel.writeStep (channel : Channel) : Option Channel :=
  match channel.writer with
  | .idle => none
  | .entered call =>
    some { channel with writer := .sampled call channel.header.readIndex channel.pending }
  | .sampled call readIndex seen =>
    let (readIdx, writeIdx) := translateQueueIndexesCustomToDefault channel.queue readIndex
      (channel.queue.writeIndexWord channel.header)
    if queueFreeU32 channel.queue readIdx writeIdx ≤ payloadSizeU32 then
      some { channel with writer := .idle, log := channel.log ++ [.refused seen] }
    else some { channel with
        writer := .storing call seen writeIdx call.stores
        log := channel.log ++ [.addressed writeIdx] }
  | .storing call seen writeIdx (store :: rest) =>
    some { channel with
      queue := { channel.queue with
        vaQueue := store.apply (4 * writeIdx.toNat) channel.queue.vaQueue }
      writer := .storing call seen writeIdx rest }
  | .storing call seen writeIdx [] =>
    some { channel with
      header := channel.queue.setWriteIndexWord channel.header (indexAfter channel.queue writeIdx)
      writer := .idle
      log := channel.log ++ [.accepted seen call.message] }

def Channel.readStep (channel : Channel) : Option Channel :=
  match channel.reader with
  | .idle => none
  | .entered => some { channel with reader := .sampled channel.header.readIndex }
  | .sampled readIndex =>
    let (readIdx, writeIdx) := translateQueueIndexesCustomToDefault channel.queue readIndex
      channel.header.writeIndex
    if readIdx = writeIdx then some { channel with
        reader := .idle, log := channel.log ++ [.nothingToRead channel.pending] }
    else some { channel with
        reader := .copying readIdx [], log := channel.log ++ [.addressed readIdx] }
  | .copying readIdx copied =>
    if copied.length < payloadSize then let byte := channel.queue.vaQueue (4 * readIdx.toNat + copied.length)
      some { channel with reader := .copying readIdx (copied ++ [byte]) }
    else some { channel with
        header := { channel.header with readIndex := indexAfter channel.queue readIdx }
        reader := .idle
        log := channel.log ++ [.returned (MsmHwFenceQueuePayload.ofBytes (fun place => copied.getD place 0) 0)] }

def Channel.step (channel : Channel) : Action → Option Channel
  | .beginWrite call =>
    match channel.writer with
    | .idle => some { channel with writer := .entered call }
    | _ => none
  | .write => channel.writeStep
  | .beginRead =>
    match channel.reader with
    | .idle => some { channel with reader := .entered }
    | _ => none
  | .read => channel.readStep

open Channel (readStep step writeStep)

def Channel.empty (queue : MsmHwFenceQueue) (place : Nat) (txWm : BitVec 32) : Channel where
  queue := queue
  header := ⟨headerIdx queue place, headerIdx queue place, txWm⟩
  writer := .idle
  reader := .idle
  log := []

def Channel.whole (channel : Channel) : MsmHwFenceQueue :=
  { channel.queue with vaHeader := some channel.header }

section Alone

variable {chan : Channel} {call : UpdateCall} {seen : Nat} {readIndex readIdx writeIdx : BitVec 32}

theorem step_beginWrite (idle : chan.writer = .idle) :
    chan.step (.beginWrite call) = some { chan with writer := .entered call } := by
  simp [step, idle]

theorem writeStep_entered (writer : chan.writer = .entered call) : chan.step .write = some { chan with
      writer := .sampled call chan.header.readIndex chan.pending } := by
  simp [step, writeStep, writer]

section

variable (writer : chan.writer = .sampled call readIndex seen)
  (indices : translateQueueIndexesCustomToDefault chan.queue readIndex (chan.queue.writeIndexWord chan.header) = (readIdx, writeIdx))
include writer indices

theorem writeStep_refused (noRoom : queueFreeU32 chan.queue readIdx writeIdx ≤ payloadSizeU32) :
    chan.step .write = some { chan with
      writer := .idle, log := chan.log ++ [.refused seen] } := by
  simp [step, writeStep, writer, indices, if_pos noRoom]

theorem writeStep_addressed (hasRoom : ¬ queueFreeU32 chan.queue readIdx writeIdx ≤ payloadSizeU32) :
    chan.step .write = some { chan with
      writer := .storing call seen writeIdx call.stores
      log := chan.log ++ [.addressed writeIdx] } := by
  simp [step, writeStep, writer, indices, if_neg hasRoom]

end

theorem writeStep_store (writer : chan.writer = .storing call seen writeIdx (store :: stores)) :
    chan.step .write = some { chan with
      queue := { chan.queue with
        vaQueue := store.apply (4 * writeIdx.toNat) chan.queue.vaQueue }
      writer := .storing call seen writeIdx stores } := by
  simp [step, writeStep, writer]

theorem writeStep_publish (writer : chan.writer = .storing call seen writeIdx []) :
    chan.step .write = some { chan with
      header := chan.queue.setWriteIndexWord chan.header (indexAfter chan.queue writeIdx)
      writer := .idle
      log := chan.log ++ [.accepted seen call.message] } := by
  simp [step, writeStep, writer]

def Channel.written (channel : Channel) (call : UpdateCall) (seen : Nat) (writeIdx : BitVec 32)
    (stores : List ByteStore) : Channel :=
  { channel with
    queue := { channel.queue with
      vaQueue := channel.queue.vaQueue.storeAll (4 * writeIdx.toNat) stores }
    header := channel.queue.setWriteIndexWord channel.header (indexAfter channel.queue writeIdx)
    writer := .idle
    log := channel.log ++ [.accepted seen call.message] }

theorem runActions_stores (writer : chan.writer = .storing call seen writeIdx stores) :
    runActions step (fun _ _ => True) chan (replicate (stores.length + 1) Action.write) =
      some (chan.written call seen writeIdx stores) := by
  induction stores generalizing chan with
  | nil =>
    rw [replicate_succ, runActions_taken trivial (writeStep_publish writer)]
    rfl
  | cons store rest ih =>
    rw [length_cons, replicate_succ, runActions_taken trivial (writeStep_store writer), ih rfl]
    rfl

/-- The accesses of a write that nothing interrupts amount to `hw_fence_update_queue`. -/
def Channel.Updates (channel : Channel) (clientLockTblCnt : BitVec 32) (client : MsmHwFenceClient)
    (call : UpdateCall) (queueType : Nat) : Prop :=
  ∃ steps after, runActions step (fun _ _ => True) channel
      (.beginWrite call :: replicate steps Action.write) = some after ∧
    after.writer = .idle ∧ after.reader = channel.reader ∧
    (hwFenceUpdateQueue clientLockTblCnt client call queueType = (eInval, client) ∧
        after.log = channel.log ++ [.refused channel.pending] ∧ after.whole = channel.whole ∨
      hwFenceUpdateQueue clientLockTblCnt client call queueType =
          (0, { client with queues := client.queues.set queueType after.whole }) ∧
        ∃ idx, after.log = channel.log ++ [.addressed idx, .accepted channel.pending call.message])

theorem hwFenceUpdateQueue_alone (call : UpdateCall) (idle : chan.writer = .idle)
    (params : updateQueueParams clientLockTblCnt client queueType = some (chan.whole, chan.header)) :
    chan.Updates clientLockTblCnt client call queueType := by
  have word : chan.whole.writeIndexWord chan.header = chan.queue.writeIndexWord chan.header := rfl
  have translated : translateQueueIndexesCustomToDefault chan.whole =
      translateQueueIndexesCustomToDefault chan.queue := rfl
  have free : queueFreeU32 chan.whole = queueFreeU32 chan.queue := rfl
  generalize sampling : Channel.mk chan.queue chan.header
    (.sampled call chan.header.readIndex chan.pending) chan.reader chan.log = sampled
  have begun : ∀ steps, runActions step (fun _ _ => True) chan
      (.beginWrite call :: replicate (steps + 1) Action.write) =
      runActions step (fun _ _ => True) sampled (replicate steps Action.write) := by
    intro steps
    rw [runActions_taken trivial (step_beginWrite idle), ← sampling]
    rfl
  have writer : sampled.writer = .sampled call chan.header.readIndex chan.pending := sampling ▸ rfl
  subst sampling
  cases indices : translateQueueIndexesCustomToDefault chan.queue chan.header.readIndex
    (chan.queue.writeIndexWord chan.header) with
  | mk readIdx writeIdx =>
    by_cases noRoom : queueFreeU32 chan.queue readIdx writeIdx ≤ payloadSizeU32
    · have refused := writeStep_refused writer indices noRoom
      have ran := (begun (0 + 1)).trans (runActions_taken trivial refused)
      refine ⟨0 + 1 + 1, _, ran, rfl, rfl, .inl ⟨?_, rfl, rfl⟩⟩
      simp [hwFenceUpdateQueue, params, word, translated, indices, free, if_pos noRoom]
    · have addressed := writeStep_addressed writer indices noRoom
      have ran := (begun (call.stores.length + 1 + 1)).trans
        ((runActions_taken trivial addressed).trans (runActions_stores rfl))
      refine ⟨_, _, ran, rfl, rfl, .inr ⟨?_, writeIdx, append_assoc _ _ _⟩⟩
      simp only [hwFenceUpdateQueue, params, word, translated, indices, free, if_neg noRoom]
      rfl

theorem step_beginRead (idle : chan.reader = .idle) :
    chan.step .beginRead = some { chan with reader := .entered } := by
  simp [step, idle]

theorem readStep_entered (reader : chan.reader = .entered) :
    chan.step .read = some { chan with reader := .sampled chan.header.readIndex } := by
  simp [step, readStep, reader]

section

variable (reader : chan.reader = .sampled readIndex)
  (indices : translateQueueIndexesCustomToDefault chan.queue readIndex chan.header.writeIndex = (readIdx, writeIdx))
include reader indices

theorem readStep_empty (empty : readIdx = writeIdx) : chan.step .read = some { chan with
      reader := .idle, log := chan.log ++ [.nothingToRead chan.pending] } := by
  simp [step, readStep, reader, indices, if_pos empty]

theorem readStep_addressed (filled : readIdx ≠ writeIdx) : chan.step .read = some { chan with
      reader := .copying readIdx [], log := chan.log ++ [.addressed readIdx] } := by
  simp [step, readStep, reader, indices, if_neg filled]

end

def copiedBytes (memory : ByteMemory) (address count : Nat) : List (BitVec 8) :=
  (List.range count).map fun byte => memory (address + byte)

theorem readStep_copy (unfinished : count < payloadSize) (reader : chan.reader = .copying readIdx
      (copiedBytes chan.queue.vaQueue (4 * readIdx.toNat) count)) :
    chan.step .read = some { chan with
      reader := .copying readIdx (copiedBytes chan.queue.vaQueue (4 * readIdx.toNat) (count + 1)) } := by
  have copied : (copiedBytes chan.queue.vaQueue (4 * readIdx.toNat) count).length = count := by
    unfold copiedBytes
    rw [length_map, length_range]
  simp only [step, readStep, reader, copied, if_pos unfinished]
  unfold copiedBytes
  rw [range_succ, map_append]
  rfl

def Channel.readOut (channel : Channel) (readIdx : BitVec 32) : Channel :=
  { channel with
    header := { channel.header with readIndex := indexAfter channel.queue readIdx }
    reader := .idle
    log := channel.log ++ [.returned
      (MsmHwFenceQueuePayload.ofBytes channel.queue.vaQueue (4 * readIdx.toNat))] }

theorem readStep_publish (reader : chan.reader = .copying readIdx
      (copiedBytes chan.queue.vaQueue (4 * readIdx.toNat) payloadSize)) :
    chan.step .read = some (chan.readOut readIdx) := by
  have copied : (copiedBytes chan.queue.vaQueue (4 * readIdx.toNat) payloadSize).length = payloadSize := by
    unfold copiedBytes
    rw [length_map, length_range]
  have payload : ofBytes (fun place =>
      (copiedBytes chan.queue.vaQueue (4 * readIdx.toNat) payloadSize).getD place 0) 0 =
      ofBytes chan.queue.vaQueue (4 * readIdx.toNat) := by
    apply ofBytes_congr
    intro byte inside
    rw [zero_add, getD_eq_getElem _ _ (by rw [copied]; exact inside)]
    unfold copiedBytes
    rw [getElem_map, getElem_range]
  simp only [step, readStep, reader, copied, if_neg (lt_irrefl _), payload]
  rfl

theorem runActions_copies (left : Nat) (short : count + left = payloadSize)
    (reader : chan.reader = .copying readIdx (copiedBytes chan.queue.vaQueue (4 * readIdx.toNat) count)) :
    runActions step (fun _ _ => True) chan (replicate (left + 1) Action.read) = some (chan.readOut readIdx) := by
  induction left generalizing chan count with
  | zero =>
    obtain rfl : count = payloadSize := by omega
    exact runActions_taken trivial (readStep_publish reader)
  | succ left ih =>
    rw [replicate_succ, runActions_taken trivial (readStep_copy (by omega) reader)]
    exact ih (by omega) rfl

/-- The accesses of a read that nothing interrupts amount to `hw_fence_read_queue_helper`. -/
def Channel.Reads (channel : Channel) : Prop :=
  ∃ steps after, runActions step (fun _ _ => True) channel (.beginRead :: replicate steps Action.read) = some after ∧
    after.reader = .idle ∧ after.writer = channel.writer ∧
    (hwFenceReadQueueHelper channel.whole = (eInval, none, channel.whole) ∧
        after.log = channel.log ++ [.nothingToRead channel.pending] ∧ after.whole = channel.whole ∨
      ∃ ret payload idx, hwFenceReadQueueHelper channel.whole = (ret, some payload, after.whole) ∧
        after.log = channel.log ++ [.addressed idx, .returned payload])

theorem hwFenceReadQueueHelper_alone (idle : chan.reader = .idle) : chan.Reads := by
  have translated : translateQueueIndexesCustomToDefault chan.whole =
      translateQueueIndexesCustomToDefault chan.queue := rfl
  have header : chan.whole.vaHeader = some chan.header := rfl
  generalize sampling : Channel.mk chan.queue chan.header chan.writer
    (.sampled chan.header.readIndex) chan.log = sampled
  have begun : ∀ steps, runActions step (fun _ _ => True) chan (.beginRead :: replicate (steps + 1) Action.read) =
      runActions step (fun _ _ => True) sampled (replicate steps Action.read) := by
    intro steps
    rw [runActions_taken trivial (step_beginRead idle), replicate_succ,
      runActions_taken trivial (readStep_entered rfl), ← sampling]
  have reader : sampled.reader = .sampled chan.header.readIndex := sampling ▸ rfl
  subst sampling
  cases indices : translateQueueIndexesCustomToDefault chan.queue chan.header.readIndex chan.header.writeIndex with
  | mk readIdx writeIdx =>
    by_cases empty : readIdx = writeIdx
    · have ran := (begun (0 + 1)).trans (runActions_taken trivial (readStep_empty reader indices empty))
      refine ⟨0 + 1 + 1, _, ran, rfl, rfl, .inl ⟨?_, rfl, rfl⟩⟩
      simp [hwFenceReadQueueHelper, header, translated, indices, if_pos empty]
    · have addressed := readStep_addressed reader indices empty
      have ran := (begun (payloadSize + 1 + 1)).trans ((runActions_taken trivial addressed).trans
          (runActions_copies payloadSize (zero_add _) rfl))
      refine ⟨_, _, ran, rfl, rfl, .inr ⟨if indexAfter chan.queue readIdx = writeIdx then 0 else 1,
        .ofBytes chan.queue.vaQueue (4 * readIdx.toNat), readIdx, ?_, append_assoc _ _ _⟩⟩
      simp only [hwFenceReadQueueHelper, header, translated, indices, if_neg empty]
      rfl

end Alone

end KernelModules.HwFence

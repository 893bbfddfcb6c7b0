import KernelModules.Data.Run
import KernelModules.Vidc.HfiQueue

namespace KernelModules.Vidc

open Nat
open BitVec hiding mul_add not_or
open Data ByteMemory List MsmVidcIfaceQInfo

/-! # An interface queue is first in, first out

The ring holds the stream of the bytes of all accepted packets, from the first that was not returned.
-/

/-- A packet whose first word is its size in bytes: whole words, not none and not too many. -/
structure ValidPacket (packet : ByteMemory) : Prop where
  whole : 4 ∣ (word packet 0).toNat
  nonempty : 0 < (word packet 0).toNat
  small : word packet 0 ≤ vidcIfaceqVarHugePktSize

instance (packet : ByteMemory) : Decidable (ValidPacket packet) :=
  decidable_of_iff (4 ∣ (word packet 0).toNat ∧ 0 < (word packet 0).toNat ∧
    word packet 0 ≤ vidcIfaceqVarHugePktSize)
    ⟨fun ⟨whole, nonempty, small⟩ => ⟨whole, nonempty, small⟩,
      fun valid => ⟨valid.whole, valid.nonempty, valid.small⟩⟩

def packetBytes (packet : ByteMemory) : List (BitVec 8) :=
  (List.range (word packet 0).toNat).map packet

def packetWords (packet : ByteMemory) : Nat := (word packet 0).toNat / 4

/-- A queue, with the packets that writes have accepted and those that reads have returned. -/
structure IfaceQueue where
  qinfo : MsmVidcIfaceQInfo
  accepted : List (List (BitVec 8))
  returned : List (List (BitVec 8))

inductive Action where
  | write (packet : ByteMemory)
  | read (buffer : ByteMemory)

def ifaceStep (queue : IfaceQueue) : Action → Option IfaceQueue
  | .write packet =>
    match writeQueue queue.qinfo packet false with
    | (.ok (), _, qinfo) =>
      some { queue with qinfo, accepted := queue.accepted ++ [packetBytes packet] }
    | (.error _, _, qinfo) => some { queue with qinfo }
  | .read buffer =>
    match readQueue queue.qinfo buffer 0 with
    | (.ok (), packet, _, qinfo) =>
      some { queue with qinfo, returned := queue.returned ++ [packetBytes packet] }
    | (.error _, _, _, qinfo) => some { queue with qinfo }

def PacketAction (_queue : IfaceQueue) : Action → Prop
  | .write packet => ValidPacket packet
  | .read _ => True

instance (queue : IfaceQueue) (action : Action) : Decidable (PacketAction queue action) := by
  cases action <;> unfold PacketAction <;> infer_instance

namespace MsmVidcIfaceQInfo

def words (qinfo : MsmVidcIfaceQInfo) : Nat := (qinfo.qArray.memSize >>> 2).toNat

def ring (qinfo : MsmVidcIfaceQInfo) : Option (BitVec 32 × BitVec 32) × MsmVidcMemAddr :=
  (qinfo.qHdr.map fun queue => (queue.qhdrReadIdx, queue.qhdrWriteIdx), qinfo.qArray)

structure Empty (qinfo : MsmVidcIfaceQInfo) : Prop where
  allocated : qinfo.qArray.alignVirtualAddr.isSome = true
  present : ∃ queue, qinfo.qHdr = some queue ∧ queue.qhdrReadIdx = queue.qhdrWriteIdx ∧
    (qinfo.words ≠ 0 → queue.qhdrReadIdx.toNat < qinfo.words)

end MsmVidcIfaceQInfo

namespace IfaceQueue

def pending (queue : IfaceQueue) : List (List (BitVec 8)) :=
  queue.accepted.drop queue.returned.length

def freeWords (queue : IfaceQueue) : Nat :=
  queue.qinfo.words - (queue.pending.map (·.length / 4)).sum

structure Fifo (queue : IfaceQueue) : Prop where
  inOrder : queue.returned <+: queue.accepted
  inside : queue.qinfo.words ≠ 0 → ∃ header, queue.qinfo.qHdr = some header ∧
    header.qhdrReadIdx.toNat < queue.qinfo.words ∧ header.qhdrWriteIdx.toNat < queue.qinfo.words
  rejected : ∀ packet flag, ValidPacket packet → ((writeQueue queue.qinfo packet flag).1.isOk = false ↔
      queue.freeWords ≤ packetWords packet)
  rejectedSame : ∀ packet flag, (writeQueue queue.qinfo packet flag).1.isOk = false →
    (writeQueue queue.qinfo packet flag).2.2.ring = queue.qinfo.ring
  empty : ∀ buffer txReq, (readQueue queue.qinfo buffer txReq).1.isOk = false ↔ queue.pending = []
  emptySame : ∀ buffer txReq, (readQueue queue.qinfo buffer txReq).1.isOk = false →
    (readQueue queue.qinfo buffer txReq).2.2.2.ring = queue.qinfo.ring
  oldest : ∀ buffer txReq first rest, queue.pending = first :: rest →
    packetBytes (readQueue queue.qinfo buffer txReq).2.1 = first

structure Ringed (start : Nat) (queue : IfaceQueue) (header : HfiQueueHeader)
    (array : ByteMemory) : Prop where
  present : queue.qinfo.qHdr = some header
  allocated : queue.qinfo.qArray.alignVirtualAddr = some array
  packets : ∀ bytes ∈ queue.accepted, ∃ packet, ValidPacket packet ∧ bytes = packetBytes packet
  inOrder : queue.returned = queue.accepted.take queue.returned.length
  readIdx : header.qhdrReadIdx.toNat = (start + queue.returned.flatten.length / 4) % queue.qinfo.words
  writeIdx : header.qhdrWriteIdx.toNat = (start + queue.accepted.flatten.length / 4) % queue.qinfo.words
  room : queue.accepted.flatten.length = queue.returned.flatten.length ∨
    queue.accepted.flatten.length < queue.returned.flatten.length + 4 * queue.qinfo.words
  holds : RingHolds array (4 * queue.qinfo.words) (4 * start) queue.accepted.flatten
    queue.returned.flatten.length

end IfaceQueue

theorem packetBytes_length : (packetBytes packet).length = (word packet 0).toNat := by
  simp [packetBytes]

theorem ValidPacket.words (valid : ValidPacket packet) :
    (word packet 0 >>> 2).toNat = packetWords packet ∧ 0 < packetWords packet ∧
      4 * packetWords packet = (word packet 0).toNat := by
  obtain ⟨count, whole⟩ := valid.whole
  have nonempty := valid.nonempty
  unfold packetWords
  rw [toNat_ushiftRight]
  omega

theorem packetBytes_congr (same : ∀ byte, byte < (word packet 0).toNat → buf byte = packet byte)
    (whole : 4 ≤ (word packet 0).toNat) : packetBytes buf = packetBytes packet := by
  have size : word buf 0 = word packet 0 := by
    unfold word
    refine congrArg _ (load_congr fun byte inside => ?_)
    exact same (0 + byte) (by omega)
  unfold packetBytes
  rw [size]
  exact map_congr_left fun byte mem => same byte (mem_range.mp mem)

section Words

variable {idx count words : BitVec 32}

section

variable (inside : idx.toNat < words.toNat) (fits : count.toNat ≤ words.toNat)
  (small : 4 * words.toNat < 2 ^ 32)
include inside fits small

theorem ring_words : (idx <<< 2).toNat = 4 * idx.toNat ∧ (count <<< 2).toNat = 4 * count.toNat ∧
      (idx + count).toNat = idx.toNat + count.toNat := by
  simp only [toNat_shiftLeft, toNat_add, Nat.shiftLeft_eq]
  omega

theorem ring_parts (reaches : words.toNat ≤ idx.toNat + count.toNat) :
    ((count - (idx + count - words)) <<< 2).toNat = 4 * words.toNat - 4 * idx.toNat ∧
      ((idx + count - words) <<< 2).toNat = 4 * count.toNat - (4 * words.toNat - 4 * idx.toNat) ∧
      (idx + count - words).toNat = idx.toNat + count.toNat - words.toNat := by
  have sum : (idx + count).toNat = idx.toNat + count.toNat := (ring_words inside fits small).2.2
  have past : (idx + count - words).toNat = idx.toNat + count.toNat - words.toNat := by
    rw [toNat_sub]
    omega
  have front : (count - (idx + count - words)).toNat = words.toNat - idx.toNat := by
    rw [toNat_sub]
    omega
  refine ⟨?_, ?_, past⟩
  · rw [toNat_shiftLeft]
    omega
  · rw [toNat_shiftLeft]
    omega

end

end Words

theorem writeQueue_rejected_ring {after : MsmVidcIfaceQInfo} {set : Bool}
    (done : writeQueue qinfo packet flag = (result, set, after)) (rejected : result.isOk = false) :
    after.ring = qinfo.ring := by
  unfold writeQueue at done
  split at done
  · cases done
    rfl
  split at done
  · cases done
    rfl
  rename_i queue here
  dsimp only at done
  split at done
  · cases done
    rfl
  split at done
  · cases done
    unfold ring
    rw [here]
    rfl
  split at done
  · cases done
    unfold ring
    rw [here]
    rfl
  split at done
  · cases done
    cases rejected
  · cases done
    cases rejected

section Rings

variable {start : Nat} {queue : IfaceQueue} {header : HfiQueueHeader} {array : ByteMemory}

theorem flatten_whole {packets : List (List (BitVec 8))} (whole : ∀ bytes ∈ packets, 4 ∣ bytes.length) :
    4 ∣ packets.flatten.length ∧ (packets.map (·.length / 4)).sum = packets.flatten.length / 4 := by
  induction packets with
  | nil => exact ⟨dvd_zero 4, rfl⟩
  | cons bytes rest ih =>
    rw [forall_mem_cons] at whole
    obtain ⟨⟨others, sizes⟩, sum⟩ := ih whole.2
    rw [flatten_cons, length_append, map_cons, sum_cons]
    omega

namespace IfaceQueue.Ringed

section

variable (ringed : queue.Ringed start header array)
include ringed

theorem whole : ∀ bytes ∈ queue.accepted, 4 ∣ bytes.length := by
  intro bytes mem
  obtain ⟨pkt, valid, rfl⟩ := ringed.packets bytes mem
  rw [packetBytes_length]
  exact valid.whole

theorem split : queue.accepted = queue.returned ++ queue.pending := by
  have parts := take_append_drop queue.returned.length queue.accepted
  rw [← ringed.inOrder] at parts
  exact parts.symm

theorem lengths : 4 * (queue.accepted.flatten.length / 4) = queue.accepted.flatten.length ∧
      4 * (queue.returned.flatten.length / 4) = queue.returned.flatten.length ∧
      queue.accepted.flatten.length / 4 = queue.returned.flatten.length / 4 +
        (queue.pending.map (·.length / 4)).sum := by
  have whole := ringed.whole
  rw [ringed.split] at whole
  have ret := flatten_whole fun bytes mem => whole bytes (mem_append_left _ mem)
  have pending := flatten_whole fun bytes mem => whole bytes (mem_append_right _ mem)
  have sum : queue.accepted.flatten.length = queue.returned.flatten.length + queue.pending.flatten.length := by
    rw [← length_append, ← flatten_append, ← ringed.split]
  omega

theorem room_words : (queue.pending.map (·.length / 4)).sum = 0 ∨
      (queue.pending.map (·.length / 4)).sum < queue.qinfo.words := by
  have lengths := ringed.lengths
  rcases ringed.room with same | less
  · omega
  · omega

end

theorem words_small : 4 * queue.qinfo.words ≤ queue.qinfo.qArray.memSize.toNat := by
  unfold words
  rw [toNat_ushiftRight]
  omega

theorem emptySpace (ringed : queue.Ringed start header array) (pos : 0 < queue.qinfo.words) :
    (Vidc.emptySpace (queue.qinfo.qArray.memSize >>> 2) header.qhdrReadIdx
      header.qhdrWriteIdx).toNat = queue.freeWords := by
  have lengths := ringed.lengths
  have room := ringed.room_words
  have close : start + queue.accepted.flatten.length / 4 <
      start + queue.returned.flatten.length / 4 + queue.qinfo.words := by omega
  have free := ring_free (by omega) close
  rw [← ringed.readIdx, ← ringed.writeIdx] at free
  have total : (queue.qinfo.qArray.memSize >>> 2).toNat = queue.qinfo.words := rfl
  unfold IfaceQueue.freeWords Vidc.emptySpace
  simp only [ge_iff_le, le_def]
  split at free
  · rename_i behind
    rw [if_pos behind]
    bv_omega
  · rename_i ahead
    rw [if_neg ahead]
    bv_omega

theorem place_eq {words : Nat} (index : idx = (start + total / 4) % words) (whole : 4 * (total / 4) = total) :
    4 * idx = (4 * start + total) % (4 * words) := by
  rw [index, ← mul_mod_mul_left, mul_add, whole]

section

variable (ringed : queue.Ringed start header array)
include ringed

theorem write_rejected (valid : ValidPacket pkt) (full : queue.freeWords ≤ packetWords pkt) :
    (writeQueue queue.qinfo pkt flag).1.isOk = false := by
  obtain ⟨size, pos, _⟩ := valid.words
  unfold writeQueue
  rw [ringed.allocated, ringed.present]
  dsimp only
  split
  · rfl
  rename_i fits
  have room : packetWords pkt ≤ queue.qinfo.words := by
    have lt := BitVec.not_lt.mp (not_or.mp fits).2
    rw [le_def, size] at lt
    exact lt
  have space := ringed.emptySpace (by omega)
  rw [if_pos]
  · rfl
  · rw [le_def, space, size]
    exact full

theorem write_accepted (valid : ValidPacket pkt) (room : packetWords pkt < queue.freeWords) :
    ∃ idx : BitVec 32, idx.toNat = (header.qhdrWriteIdx.toNat + packetWords pkt) % queue.qinfo.words ∧
      writeQueue queue.qinfo pkt flag = (.ok (), true,
        { qHdr := some { header with qhdrTxReq := 0, qhdrWriteIdx := idx }
          qArray :=
            { memSize := queue.qinfo.qArray.memSize
              alignVirtualAddr := some (array.ringWrite pkt (4 * queue.qinfo.words)
                (4 * header.qhdrWriteIdx.toNat) (word pkt 0).toNat) } }) := by
  obtain ⟨size, pos, bytes⟩ := valid.words
  have free : queue.freeWords ≤ queue.qinfo.words := sub_le _ _
  have space := ringed.emptySpace (by omega)
  have inside : header.qhdrWriteIdx.toNat < queue.qinfo.words := by
    rw [ringed.writeIdx]
    exact mod_lt _ (by omega)
  have small : 4 * queue.qinfo.words ≤ queue.qinfo.qArray.memSize.toNat := words_small
  have bound : 4 * queue.qinfo.words < 2 ^ 32 :=
    lt_of_le_of_lt small queue.qinfo.qArray.memSize.isLt
  have total : (queue.qinfo.qArray.memSize >>> 2).toNat = queue.qinfo.words := rfl
  have fits : (word pkt 0 >>> 2).toNat ≤ queue.qinfo.words := by omega
  obtain ⟨addr, len, next⟩ := ring_words inside fits bound
  have place := ring_offset inside (le_of_lt (lt_of_lt_of_le room free))
  have accepted : ¬ (word pkt 0 >>> 2 = 0 ∨ word pkt 0 >>> 2 > queue.qinfo.qArray.memSize >>> 2) := by
    rintro (none | large)
    · rw [none] at size
      exact absurd size.symm (ne_of_gt pos)
    · rw [gt_iff_lt, lt_def] at large
      omega
  unfold writeQueue ringWrite
  rw [ringed.allocated, ringed.present]
  dsimp only
  rw [if_neg accepted, if_neg (by rw [le_def]; omega), if_neg (by omega)]
  by_cases before : header.qhdrWriteIdx.toNat + packetWords pkt < queue.qinfo.words
  · refine ⟨header.qhdrWriteIdx + word pkt 0 >>> 2, ?_, ?_⟩
    · rw [place, if_pos before, next, size]
    · rw [if_pos (by rw [lt_def, next, size]; exact before), if_pos (by omega), addr, len, size, bytes]
  obtain ⟨first, second, past⟩ := ring_parts inside fits bound (by omega)
  refine ⟨header.qhdrWriteIdx + word pkt 0 >>> 2 - queue.qinfo.qArray.memSize >>> 2, ?_, ?_⟩
  · rw [place, if_neg before, past, size]
    rfl
  · rw [if_neg (by rw [lt_def, next, size]; exact before), if_neg (by omega), addr,
      first, second, size, bytes]
    rfl

theorem returned_le : queue.returned.length ≤ queue.accepted.length := by
  have lengths := congrArg List.length ringed.inOrder
  rw [length_take] at lengths
  omega

theorem inside (pos : 0 < queue.qinfo.words) : header.qhdrReadIdx.toNat < queue.qinfo.words ∧
      header.qhdrWriteIdx.toNat < queue.qinfo.words := by
  rw [ringed.readIdx, ringed.writeIdx]
  exact ⟨mod_lt _ pos, mod_lt _ pos⟩

theorem written (valid : ValidPacket packet) (room : packetWords packet < queue.freeWords)
    (next : idx.toNat = (header.qhdrWriteIdx.toNat + packetWords packet) % queue.qinfo.words) :
    IfaceQueue.Ringed start
      { queue with
        qinfo :=
          { qHdr := some { header with qhdrTxReq := 0, qhdrWriteIdx := idx }
            qArray :=
              { memSize := queue.qinfo.qArray.memSize
                alignVirtualAddr := some (array.ringWrite packet (4 * queue.qinfo.words)
                  (4 * header.qhdrWriteIdx.toNat) (word packet 0).toNat) } }
        accepted := queue.accepted ++ [packetBytes packet] }
      { header with qhdrTxReq := 0, qhdrWriteIdx := idx }
      (array.ringWrite packet (4 * queue.qinfo.words) (4 * header.qhdrWriteIdx.toNat)
        (word packet 0).toNat) := by
  obtain ⟨_, pos, bytes⟩ := valid.words
  obtain ⟨high, low, sum⟩ := ringed.lengths
  have len : (queue.accepted ++ [packetBytes packet]).flatten.length =
      queue.accepted.flatten.length + (word packet 0).toNat := by
    rw [flatten_append, length_append, flatten_singleton, packetBytes_length]
  have space : queue.accepted.flatten.length + (word packet 0).toNat <
      queue.returned.flatten.length + 4 * queue.qinfo.words := by
    unfold IfaceQueue.freeWords at room
    omega
  constructor
  case present => rfl
  case allocated => rfl
  case packets =>
    intro found mem
    rcases mem_append.mp mem with old | new
    · exact ringed.packets found old
    · exact ⟨packet, valid, mem_singleton.mp new⟩
  case inOrder =>
    rw [take_append_of_le_length ringed.returned_le]
    exact ringed.inOrder
  case readIdx => exact ringed.readIdx
  case writeIdx =>
    have words : (queue.accepted.flatten.length + (word packet 0).toNat) / 4 =
        queue.accepted.flatten.length / 4 + packetWords packet := by omega
    rw [next, len, words, ringed.writeIdx, mod_add_mod, add_assoc]
    rfl
  case room =>
    rw [len]
    exact .inr space
  case holds =>
    have place := place_eq ringed.writeIdx high
    rw [flatten_append, flatten_singleton, place]
    refine ringed.holds.write ?_ ?_ (le_of_lt space)
    · omega
    · omega

theorem read_empty (none : queue.pending = []) : readQueue queue.qinfo buf txReq = (.error .enodata, buf, 0,
      { queue.qinfo with qHdr := some { header with
          qhdrRxReq := if header.qhdrType &&& hfiQIdCtrlToHostMsgQ ≠ 0 then 1 else 0 } }) := by
  have same : header.qhdrReadIdx = header.qhdrWriteIdx := by
    apply eq_of_toNat_eq
    have sum := ringed.lengths.2.2
    rw [none, map_nil, sum_nil, add_zero] at sum
    rw [ringed.readIdx, ringed.writeIdx, sum]
  unfold readQueue
  rw [ringed.allocated, ringed.present]
  dsimp only
  rw [if_pos same]

theorem read_oldest (some : queue.pending = first :: rest) : ∃ (idx : BitVec 32) (pkt : ByteMemory),
      idx.toNat = (header.qhdrReadIdx.toNat + first.length / 4) % queue.qinfo.words ∧
      packetBytes pkt = first ∧ readQueue queue.qinfo buf txReq = (.ok (), pkt,
        if header.qhdrTxReq = 1 then 1 else 0, { queue.qinfo with qHdr := .some { header with
            qhdrRxReq := if header.qhdrType &&& hfiQIdCtrlToHostMsgQ ≠ 0 then 1 else 0
            qhdrReadIdx := idx } }) := by
  have mem : first ∈ queue.accepted := by
    rw [ringed.split, some]
    exact mem_append_right _ mem_cons_self
  obtain ⟨oldest, valid, rfl⟩ := ringed.packets first mem
  obtain ⟨size, pos, bytes⟩ := valid.words
  obtain ⟨high, low, sum⟩ := ringed.lengths
  rw [some, map_cons, sum_cons, packetBytes_length] at sum
  have room := ringed.room_words
  rw [some, map_cons, sum_cons, packetBytes_length] at room
  obtain ⟨inside, _⟩ := ringed.inside (by omega)
  have place := place_eq ringed.readIdx low
  -- the bytes of the pkt are those of the ring from the read index on
  have stream : (queue.accepted.flatten.drop queue.returned.flatten.length).take
      (word oldest 0).toNat = packetBytes oldest := by
    rw [ringed.split, flatten_append, drop_left, some, flatten_cons, ← packetBytes_length, take_left]
  have there : queue.returned.flatten.length + (word oldest 0).toNat ≤ queue.accepted.flatten.length := by omega
  have read := ringed.holds.read buf (by omega) there (by omega)
  rw [← place, stream] at read
  have copied (byte : Nat) (lt : byte < (word oldest 0).toNat) :
      buf.ringRead array (4 * queue.qinfo.words) (4 * header.qhdrReadIdx.toNat)
        (word oldest 0).toNat byte = oldest byte :=
    map_inj_left.mp read byte (mem_range.mpr lt)
  have firstWord : word array (4 * header.qhdrReadIdx.toNat) = word oldest 0 := by
    refine congrArg _ (load_congr fun byte lt => ?_)
    have here := copied byte (by omega)
    rw [ringRead_inside (by omega) (by omega) (by omega), mod_eq_of_lt (by omega)] at here
    rw [here, zero_add]
  have small : 4 * queue.qinfo.words ≤ queue.qinfo.qArray.memSize.toNat := words_small
  have bound : 4 * queue.qinfo.words < 2 ^ 32 :=
    lt_of_le_of_lt small queue.qinfo.qArray.memSize.isLt
  have total : (queue.qinfo.qArray.memSize >>> 2).toNat = queue.qinfo.words := rfl
  have fits : (word oldest 0 >>> 2).toNat ≤ queue.qinfo.words := by omega
  obtain ⟨addr, len, next⟩ := ring_words inside fits bound
  have off := ring_offset inside (by omega : packetWords oldest ≤ queue.qinfo.words)
  have pending : header.qhdrReadIdx ≠ header.qhdrWriteIdx := by
    intro same
    have places := congrArg BitVec.toNat same
    rw [ringed.readIdx, ringed.writeIdx] at places
    have equal := ring_place_injective (by omega) (by omega) places
    omega
  have ne : word oldest 0 >>> 2 ≠ 0 := by
    intro zero
    rw [zero] at size
    exact absurd size.symm (ne_of_gt pos)
  have accepted : (word oldest 0 >>> 2) <<< 2 ≤ vidcIfaceqVarHugePktSize ∧
      header.qhdrReadIdx ≤ queue.qinfo.qArray.memSize >>> 2 := by
    have huge := valid.small
    rw [le_def] at huge ⊢
    rw [len, size, bytes]
    exact ⟨huge, le_def.mpr (le_of_lt inside)⟩
  have spelled : packetBytes (buf.ringRead array (4 * queue.qinfo.words)
      (4 * header.qhdrReadIdx.toNat) (word oldest 0).toNat) = packetBytes oldest :=
    packetBytes_congr copied (by omega)
  unfold readQueue
  rw [ringed.allocated, ringed.present, packetBytes_length, ← bytes, Nat.mul_div_cancel_left _ (by decide)]
  dsimp only
  rw [if_neg pending, addr, if_neg (by omega), firstWord, if_neg ne, if_pos accepted]
  unfold ringRead at spelled
  by_cases before : header.qhdrReadIdx.toNat + packetWords oldest < queue.qinfo.words
  · rw [if_pos (by omega)] at spelled
    refine ⟨header.qhdrReadIdx + word oldest 0 >>> 2, _, ?_, spelled, ?_⟩
    · rw [off, if_pos before, next, size]
    · rw [if_pos (by rw [lt_def, next, size]; exact before), len, size, bytes]
  obtain ⟨front, second, past⟩ := ring_parts inside fits bound (by omega)
  rw [if_neg (by omega)] at spelled
  refine ⟨header.qhdrReadIdx + word oldest 0 >>> 2 - queue.qinfo.qArray.memSize >>> 2, _, ?_, spelled, ?_⟩
  · rw [off, if_neg before, past, size]
    rfl
  · rw [if_neg (by rw [lt_def, next, size]; exact before), front, second, size, bytes]
    rfl

theorem read (some : queue.pending = first :: rest)
    (next : idx.toNat = (header.qhdrReadIdx.toNat + first.length / 4) % queue.qinfo.words) : IfaceQueue.Ringed start
      { queue with
        qinfo := { queue.qinfo with
          qHdr := .some { header with qhdrRxReq := rxReq, qhdrReadIdx := idx } }
        returned := queue.returned ++ [first] }
      { header with qhdrRxReq := rxReq, qhdrReadIdx := idx } array := by
  have split := ringed.split
  rw [some] at split
  have size : 4 ∣ first.length := by
    refine ringed.whole first ?_
    rw [split]
    exact mem_append_right _ mem_cons_self
  have len : (queue.returned ++ [first]).flatten.length = queue.returned.flatten.length + first.length := by
    rw [flatten_append, length_append, flatten_singleton]
  have room := ringed.room
  refine { ringed with present := ?present, inOrder := ?inOrder, readIdx := ?readIdx, room := ?room, holds := ?holds }
  case present => rfl
  case inOrder =>
    rw [split, length_append, take_length_add_append]
    rfl
  case readIdx =>
    have words : (queue.returned.flatten.length + first.length) / 4 =
        queue.returned.flatten.length / 4 + first.length / 4 := by omega
    rw [next, len, words, ringed.readIdx, mod_add_mod, add_assoc]
    rfl
  case room =>
    dsimp only [words] at room ⊢
    omega
  case holds =>
    rw [len]
    exact ringed.holds.advance (le_add_right _ _)

theorem same_ring {qinfo : MsmVidcIfaceQInfo} (same : qinfo.ring = queue.qinfo.ring) :
    ∃ header, IfaceQueue.Ringed start { queue with qinfo } header array := by
  obtain ⟨indices, arrays⟩ := Prod.mk.inj same
  rw [ringed.present] at indices
  obtain ⟨other, here, pair⟩ := Option.map_eq_some_iff.mp indices
  obtain ⟨readIdx, writeIdx⟩ := Prod.mk.inj pair
  have words : qinfo.words = queue.qinfo.words := by
    unfold words
    rw [arrays]
  refine ⟨other, here, ?_, ringed.packets, ringed.inOrder, ?_, ?_, ?_, ?_⟩
  · rw [arrays]
    exact ringed.allocated
  · rw [readIdx, words]
    exact ringed.readIdx
  · rw [writeIdx, words]
    exact ringed.writeIdx
  · rw [words]
    exact ringed.room
  · rw [words]
    exact ringed.holds

theorem fifo : queue.Fifo where
  inOrder := ⟨queue.pending, ringed.split.symm⟩
  inside := fun pos =>
    ⟨header, ringed.present, ringed.inside (pos_of_ne_zero pos)⟩
  rejected := by
    intro pkt flag valid
    constructor
    · intro rejected
      by_contra room
      obtain ⟨idx, _, ok⟩ := ringed.write_accepted valid (Nat.lt_of_not_le room)
      rw [ok] at rejected
      cases rejected
    · exact ringed.write_rejected valid
  rejectedSame := fun pkt flag => writeQueue_rejected_ring rfl
  empty := by
    intro buf txReq
    cases pending : queue.pending with
    | nil =>
      rw [ringed.read_empty pending]
      exact ⟨fun _ => rfl, fun _ => rfl⟩
    | cons first rest =>
      obtain ⟨idx, pkt, _, _, done⟩ := ringed.read_oldest pending
      rw [done]
      exact ⟨Bool.noConfusion, fun none => absurd none (cons_ne_nil _ _)⟩
  emptySame := by
    intro buf txReq rejected
    cases pending : queue.pending with
    | nil =>
      rw [ringed.read_empty pending]
      unfold ring
      rw [ringed.present]
      rfl
    | cons first rest =>
      obtain ⟨idx, pkt, _, _, done⟩ := ringed.read_oldest pending
      rw [done] at rejected
      cases rejected
  oldest := by
    intro buf txReq first rest pending
    obtain ⟨idx, pkt, _, spelled, done⟩ := ringed.read_oldest pending
    rw [done]
    exact spelled

end

end IfaceQueue.Ringed

end Rings

section Runs

variable {queue : IfaceQueue}

theorem ifaceStep_ringed {after : IfaceQueue} (ringed : queue.Ringed start header array)
    (allowed : PacketAction queue action) (taken : ifaceStep queue action = some after) :
    ∃ header array, after.Ringed start header array := by
  cases action with
  | write packet =>
    have valid : ValidPacket packet := allowed
    unfold ifaceStep at taken
    by_cases room : packetWords packet < queue.freeWords
    · obtain ⟨idx, next, accepted⟩ := ringed.write_accepted valid room
      dsimp only at taken
      rw [accepted] at taken
      cases taken
      exact ⟨_, _, ringed.written valid room next⟩
    have rejected : (writeQueue queue.qinfo packet false).1.isOk = false :=
      ringed.write_rejected valid (Nat.le_of_not_lt room)
    cases done : writeQueue queue.qinfo packet false with
    | mk result rest =>
      rw [done] at rejected
      dsimp only at taken
      rw [done] at taken
      cases result with
      | ok => cases rejected
      | error code =>
        cases taken
        obtain ⟨header, kept⟩ :=
          ringed.same_ring (writeQueue_rejected_ring done rejected)
        exact ⟨header, array, kept⟩
  | read buf =>
    unfold ifaceStep at taken
    cases pending : queue.pending with
    | nil =>
      have same := ringed.fifo.emptySame buf 0
      dsimp only at taken
      rw [ringed.read_empty pending] at taken same
      cases taken
      obtain ⟨header, kept⟩ := ringed.same_ring (same rfl)
      exact ⟨header, array, kept⟩
    | cons first rest =>
      obtain ⟨idx, packet, next, spelled, done⟩ := ringed.read_oldest pending
      dsimp only at taken
      rw [done] at taken
      cases taken
      rw [spelled]
      exact ⟨_, array, ringed.read pending next⟩

theorem MsmVidcIfaceQInfo.Empty.ringed (empty : qinfo.Empty) :
    ∃ start header array, IfaceQueue.Ringed start { qinfo, accepted := [], returned := [] } header array := by
  obtain ⟨array, alloc⟩ := Option.isSome_iff_exists.mp empty.allocated
  obtain ⟨header, here, same, inside⟩ := empty.present
  have nothing : ([] : List (List (BitVec 8))).flatten.length / 4 = 0 := rfl
  have place : header.qhdrReadIdx.toNat = (header.qhdrReadIdx.toNat +
      ([] : List (List (BitVec 8))).flatten.length / 4) % qinfo.words := by
    rw [nothing]
    rcases Nat.eq_zero_or_pos qinfo.words with none | positive
    · rw [none, Nat.mod_zero, add_zero]
    · exact (mod_eq_of_lt (inside (ne_of_gt positive))).symm
  refine ⟨header.qhdrReadIdx.toNat, header, array, here, alloc, ?_, rfl, place, ?_, .inl rfl, ?_⟩
  · exact fun _ mem => absurd mem not_mem_nil
  · rw [← same]
    exact place
  · exact fun pos byte _ found => by cases found

/-- A queue of any size returns the packets it accepted, in order; it rejects one just when the free words do not
exceed its own. -/
theorem iface_queue_fifo {qinfo : MsmVidcIfaceQInfo} (empty : qinfo.Empty)
    (reached : Reachable ifaceStep PacketAction { qinfo, accepted := [], returned := [] } queue) : queue.Fifo := by
  obtain ⟨start, header, array, ringed⟩ := empty.ringed
  have kept : ∃ header array, queue.Ringed start header array := by
    refine reached.invariant (fun queue => ∃ header array, queue.Ringed start header array)
      ⟨header, array, ringed⟩ ?_
    rintro before action after ⟨header, array, ringed⟩ allowed taken
    exact ifaceStep_ringed ringed allowed taken
  obtain ⟨header, array, ringed⟩ := kept
  exact ringed.fifo

theorem iface_queue_split_run : (runActions ifaceStep PacketAction
      { qinfo := ⟨some ⟨1, 0, 0, 3, 3⟩, ⟨some fun _ => 0, 16⟩⟩, accepted := [], returned := [] }
      [.write fun place => [8, 0, 0, 0, 1, 2, 3, 4].getD place 0,
        .write fun place => [8, 0, 0, 0, 5, 6, 7, 8].getD place 0,
        .read fun _ => 0]).map (fun queue => decide (queue.accepted = queue.returned ∧
          queue.returned = [[8, 0, 0, 0, 1, 2, 3, 4]])) = some true := by
  decide +kernel

theorem iface_queue_fifo_split : ∃ queue : IfaceQueue,
    queue.returned = [[8, 0, 0, 0, 1, 2, 3, 4]] ∧ queue.Fifo := by
  obtain ⟨queue, ran, facts⟩ := Option.map_eq_some_iff.mp iface_queue_split_run
  have empty : MsmVidcIfaceQInfo.Empty ⟨some ⟨1, 0, 0, 3, 3⟩, ⟨some fun _ => 0, 16⟩⟩ :=
    ⟨rfl, _, rfl, rfl, by decide⟩
  exact ⟨queue, (of_decide_eq_true facts).2, iface_queue_fifo empty (Reachable.start.run ran)⟩

end Runs

end KernelModules.Vidc

import KernelModules.Rmnet.Wire
import KernelModules.Rmnet.Partition

namespace KernelModules.Rmnet

open RmnetMapV5CoalHeader List

/-! # Segmentation of a coalesced `sk_buff` (`rmnet_map_segment_coal_skb`)

An `sk_buff` with page fragments takes the path over descriptors, so the data here are linear.  Checksums are left
out.
-/

structure RmnetMapCoalMetadata where
  ipLen : Nat
  transLen : Nat
  dataOffset : Nat
  dataLen : Nat
  ipProto : Nat
  transProto : Nat
  pktId : Nat
  pktCount : Nat

/-- A new `sk_buff`: the headers as copied, and the fields as they are then set in them. -/
structure SegmentSkb where
  ipHeader : List UInt8
  transHeader : List UInt8
  payload : List UInt8
  ipId : Nat
  tcpSeq : Nat
  tcpFlags : Nat
  partialCsum : Bool
  /-- `gso_size` and `gso_segs`, where there is more than one packet. -/
  dataLen : Nat
  pktCount : Nat

structure MapSegmenting where
  coalMeta : RmnetMapCoalMetadata
  list : List SegmentSkb
  allocs : List Bool

/-- The new `sk_buff`; the transport header is read where it was copied to, before the payload. -/
def segmentSkb (data : List UInt8) (coalMeta : RmnetMapCoalMetadata) (csumValid : Bool) : SegmentSkb :=
  let dlen := coalMeta.dataLen * coalMeta.pktCount
  let hlen := coalMeta.ipLen + coalMeta.transLen
  let payload := (data.drop (hlen + coalMeta.dataOffset)).take dlen
  let transHeader := (data.drop coalMeta.ipLen).take coalMeta.transLen
  let th := transHeader ++ payload
  let iph := data.take coalMeta.ipLen ++ th
  { ipHeader := data.take coalMeta.ipLen
    transHeader, payload
    ipId := if coalMeta.ipProto = 4 then (be16At iph 4 + coalMeta.pktId) % 65536 else 0
    tcpSeq :=
      if coalMeta.transProto = ipprotoTcp then
        (be16At th 4 * 65536 + be16At th 6 + coalMeta.dataOffset) % 4294967296
      else 0
    tcpFlags :=
      if coalMeta.transProto = ipprotoTcp then
        if finOrPsh (be16At th 12) ∧ hlen + coalMeta.dataOffset + dlen < data.length then clearFinPsh (be16At th 12)
        else be16At th 12
      else 0
    partialCsum := csumValid || decide (coalMeta.transProto = ipprotoUdp ∧ coalMeta.ipProto = 4 ∧ be16At th 6 = 0)
    dataLen := coalMeta.dataLen
    pktCount := coalMeta.pktCount }

/-- `__rmnet_map_segment_coal_skb`. -/
def rmnetMapSegmentData (data : List UInt8) (state : MapSegmenting) (pktId : Nat)
    (csumValid : Bool) : MapSegmenting :=
  if state.allocs.headD true then
    { coalMeta := { state.coalMeta with
        dataOffset :=
          (state.coalMeta.dataOffset + state.coalMeta.dataLen * state.coalMeta.pktCount) % 65536
        pktId := (pktId + 1) % 256
        pktCount := 0 }
      list := state.list ++ [segmentSkb data state.coalMeta csumValid]
      allocs := state.allocs.drop 1 }
  else { state with allocs := state.allocs.drop 1 }

/-- The loops of `rmnet_map_segment_coal_skb`. -/
def mapSegmenter (data : List UInt8) : Segmenter MapSegmenting :=
  { segs := fun state => state.coalMeta.pktCount
    setSegs := fun state pktCount => { state with coalMeta := { state.coalMeta with pktCount } }
    wrap := 256
    setPktLen := fun state pktLen =>
      { state with
        coalMeta := { state.coalMeta with
          dataLen := payloadSize pktLen (state.coalMeta.ipLen + state.coalMeta.transLen) } }
    segment := rmnetMapSegmentData data }

/-- The kernel's `skb_header_pointer`. -/
def skbHeaderPointer (data : List UInt8) (off len : Nat) : Option (List UInt8) :=
  if off + len ≤ data.length then some ((data.drop off).take len) else none

/-- From `trans_proto` on. -/
def mapTransHeader (data : List UInt8) (ipProto ipLen transProto : Nat) (gro : Bool) :
    Option (RmnetMapCoalMetadata × Bool × Bool) :=
  let started : RmnetMapCoalMetadata :=
    { ipLen, transLen := 8, dataOffset := 0, dataLen := 0, ipProto, transProto, pktId := 0
      pktCount := 0 }
  if transProto = ipprotoTcp then some ({ started with transLen := byteAt data (ipLen + 12) / 16 * 4 }, gro, false)
  else if transProto = ipprotoUdp then some (started, gro, decide (ipProto = 4 ∧ be16At data (ipLen + 6) = 0))
  else none

/-- The headers behind the coalescing header; a return is `none`, and an error of `ipv6_skip_exthdr` leaves a
header's number as protocol. -/
def mapCoalHeaders (data : List UInt8) (groHw : Bool) : Option (RmnetMapCoalMetadata × Bool × Bool) :=
  if byteAt data 0 / 16 = 4 then
    mapTransHeader data 4 (byteAt data 0 % 16 * 4) (byteAt data 9) (groHw && byteAt data 0 % 16 == 5)
  else if byteAt data 0 / 16 = 6 then
    match skipExthdr (skbHeaderPointer data) (data.length + 1) 40 (byteAt data 6) 0 false with
    | none => none
    | some (ipLen, protocol, fragOff, _) =>
      if fragOff ≠ 0 then none
      else mapTransHeader data 6 (ipLen % 65536) protocol
          (groHw && decide (ipLen % 65536 ≤ 40))
  else none

def wholeSkb (data : List UInt8) (coalMeta : RmnetMapCoalMetadata) (pair : RmnetMapV5NlPair) : SegmentSkb :=
  { ipHeader := data.take coalMeta.ipLen
    transHeader := (data.drop coalMeta.ipLen).take coalMeta.transLen
    payload := data.drop (coalMeta.ipLen + coalMeta.transLen)
    ipId := be16At data 4
    tcpSeq := be16At data (coalMeta.ipLen + 4) * 65536 + be16At data (coalMeta.ipLen + 6)
    tcpFlags := be16At data (coalMeta.ipLen + 12)
    partialCsum := decide (1 < pair.numPackets)
    dataLen := payloadSize pair.pktLen (coalMeta.ipLen + coalMeta.transLen)
    pktCount := pair.numPackets }

def rmnetMapSegmentCoalSkb (skb : List UInt8) (groHw : Bool) (nloErrMask : Nat)
    (allocs : List Bool) : List SegmentSkb :=
  let coalHdr := ofBytes
    ((skb.drop rmnetMapHeaderSize).take rmnetMapV5CoalHeaderSize)
  let data := skb.drop (rmnetMapHeaderSize + rmnetMapV5CoalHeaderSize)
  match mapCoalHeaders data groHw with
  | none => []
  | some (coalMeta, gro, zeroCsum) =>
    if rmnetMapV5CsumBuggy coalHdr ∧ ¬zeroCsum then [wholeSkb data coalMeta (coalHdr.nlPairs.headD ⟨0, 0, 0⟩)]
    else if gro ∧ coalHdr.numNlos = 1 ∧ coalHdr.csumValid then
      [wholeSkb data coalMeta (coalHdr.nlPairs.headD ⟨0, 0, 0⟩)]
    else ((mapSegmenter data).nlos gro coalHdr.nlos nloErrMask ⟨coalMeta, [], allocs⟩).list

def SegmentSkb.wire (skb : SegmentSkb) : WireSegment :=
  { packets := skb.pktCount, payload := skb.payload.length, ipId := skb.ipId, tcpSeq := skb.tcpSeq
    tcpFlags := skb.tcpFlags }

/-- The identity of the frame whose headers and payload are `data`. -/
def frameIdentity (data : List UInt8) (ipProto ipLen transProto transLen : Nat) : FrameIdentity :=
  { ipv4 := decide (ipProto = 4)
    tcp := decide (transProto = ipprotoTcp)
    ipId := be16At data 4
    tcpSeq := be16At data (ipLen + 4) * 65536 + be16At data (ipLen + 6)
    tcpFlags := be16At data (ipLen + 12)
    payload := data.length - (ipLen + transLen) }

def MapHolds (start : RmnetMapCoalMetadata) (state : MapSegmenting)
    (size held offset pktId : Nat) : Prop :=
  state.coalMeta = { start with dataLen := size, pktCount := held, dataOffset := offset, pktId } ∧
    ∀ outcome ∈ state.allocs, outcome = true

variable {start : RmnetMapCoalMetadata} {totalPkt : Nat}

theorem be16At_append (lt : place + 1 < front.length) : be16At (front ++ back) place = be16At front place := by
  unfold be16At byteAt
  simp only [getD_eq_getElem?_getD]
  rw [getElem?_append_left (by omega), getElem?_append_left lt]

section

variable (ip : start.ipProto = 4 → 20 ≤ start.ipLen)
  (tcp : start.transProto = ipprotoTcp → 20 ≤ start.transLen)
include ip tcp

theorem segmentSkb_onWire {csumValid : Bool} (alike : ∀ pkt ∈ run, pkt.size = size)
    (inside : start.ipLen + start.transLen + off + payloadOf run ≤ data.length) :
    Emission.OnWire (frameIdentity data start.ipProto start.ipLen start.transProto start.transLen)
      ⟨⟨run, totalPkt, csumValid⟩, first, off, pktId⟩
      (segmentSkb data { start with dataLen := size, pktCount := run.length, dataOffset := off, pktId }
        csumValid).wire := by
  have dlen := payloadOf_same alike
  have ipBytes : (data.take start.ipLen).length = start.ipLen := by
    rw [length_take]
    omega
  have transBytes : ((data.drop start.ipLen).take start.transLen).length = start.transLen := by
    rw [length_take, length_drop]
    omega
  have th : ∀ {place back}, place + 1 < start.transLen →
      be16At ((data.drop start.ipLen).take start.transLen ++ back) place = be16At data (start.ipLen + place) := by
    intro place back lt
    rw [be16At_append (by rw [transBytes]; exact lt), be16At_part lt]
  constructor
  · rfl
  · change ((data.drop (start.ipLen + start.transLen + off)).take (size * run.length)).length = _
    rw [length_take, length_drop]
    dsimp only
    omega
  · intro four
    have proto : start.ipProto = 4 := of_decide_eq_true four
    have read : be16At (data.take start.ipLen) 4 = be16At data 4 := by
      have part := @be16At_part 4 start.ipLen 0 data (by omega)
      exact part
    unfold SegmentSkb.wire segmentSkb frameIdentity
    dsimp only
    rw [if_pos proto, be16At_append (by omega), read]
  · intro isTcp
    have proto : start.transProto = ipprotoTcp := of_decide_eq_true isTcp
    unfold SegmentSkb.wire segmentSkb frameIdentity
    dsimp only
    rw [if_pos proto, th (by omega), th (by omega)]
  · intro isTcp
    have proto : start.transProto = ipprotoTcp := of_decide_eq_true isTcp
    have ends : start.ipLen + start.transLen + off + size * run.length < data.length ↔
        off + payloadOf run < data.length - (start.ipLen + start.transLen) := by
      omega
    unfold SegmentSkb.wire segmentSkb frameIdentity
    dsimp only
    rw [if_pos proto, th (by omega)]
    simp [ends]

theorem mapSegmenter_lawful {data : List UInt8} (hdr : start.ipLen + start.transLen ≤ data.length)
    (short : data.length < 65536) : (mapSegmenter data).Lawful (start.ipLen + start.transLen)
      (data.length - (start.ipLen + start.transLen)) MapSegmenting.list (MapHolds start)
      fun emission seg => Emission.OnWire
        (frameIdentity data start.ipProto start.ipLen start.transProto start.transLen) emission seg.wire := by
  constructor
  · exact le_refl 256
  · intro state size held off pktId holds
    change state.coalMeta.pktCount = held
    rw [holds.1]
  · intro state size held off pktId count holds
    refine ⟨⟨?_, holds.2⟩, rfl⟩
    change { state.coalMeta with pktCount := count } = _
    rw [holds.1]
  · intro state size off pktId pktLen holds
    refine ⟨⟨?_, holds.2⟩, rfl⟩
    change { state.coalMeta with
      dataLen := payloadSize pktLen (state.coalMeta.ipLen + state.coalMeta.transLen) } = _
    rw [holds.1]
  · intro state size off pktId run totalPkt csumValid first holds alike inside
    have dlen := payloadOf_same alike
    have succeed : state.allocs.headD true = true := by
      cases allocs : state.allocs with
      | nil => rfl
      | cons out later => exact holds.2 out (by rw [allocs]; exact mem_cons_self ..)
    have segmented : (mapSegmenter data).segment state (totalPkt % 256) csumValid =
        rmnetMapSegmentData data state (totalPkt % 256) csumValid := rfl
    rw [segmented]
    unfold rmnetMapSegmentData
    rw [if_pos succeed, holds.1]
    refine ⟨⟨?_, fun out mem => holds.2 out (mem_of_mem_drop mem)⟩, _, rfl, ?_⟩
    · have moved : (off + size * run.length) % 65536 = off + payloadOf run := by
        rw [← dlen]
        exact Nat.mod_eq_of_lt (by omega)
      have num : (totalPkt % 256 + 1) % 256 = (totalPkt + 1) % 256 := by omega
      rw [moved, num]
    · exact segmentSkb_onWire ip tcp alike (by omega)

end

def mapCoalHeader (skb : List UInt8) : RmnetMapV5CoalHeader :=
  .ofBytes ((skb.drop rmnetMapHeaderSize).take rmnetMapV5CoalHeaderSize)

/-- `rmnet_map_data_check_coal_header`: the checksum error mask; `-EINVAL` is `none`. -/
def rmnetMapDataCheckCoalHeader (skb : List UInt8) : Option Nat :=
  let coalHdr := mapCoalHeader skb
  if coalHdr.numNlos = 0 ∨ rmnetMapV5MaxNlos < coalHdr.numNlos then none
  else checkNlPairs coalHdr.nlPairs 0 0 0

def packetCount (pairs : List RmnetMapV5NlPair) : Nat := (pairs.map (·.numPackets)).sum

def Segmenter.packetsMet {σ : Type} (ops : Segmenter σ) (gro : Bool) : Nat → Segmenting σ → List (Segmenting σ)
  | 0, _ => []
  | count + 1, locals => locals :: ops.packetsMet gro count (ops.packet gro locals)

def Segmenter.nlosMet {σ : Type} (ops : Segmenter σ) (gro : Bool) :
    List RmnetMapV5NlPair → Segmenting σ → List (Segmenting σ)
  | [], _ => []
  | pair :: later, locals =>
    ops.packetsMet gro pair.numPackets
      { locals with state := ops.setPktLen locals.state pair.pktLen } ++
      ops.nlosMet gro later (ops.nlo gro locals pair)

structure RmnetMapV5CoalHeader.Bounded (coalHdr : RmnetMapV5CoalHeader) (nloErrMask : Nat) : Prop where
  packets : packetCount coalHdr.nlPairs ≤ rmnetMapV5MaxPackets
  met : ∀ {σ : Type} (ops : Segmenter σ) (gro : Bool) (state : σ) (index : Nat) (locals : Segmenting σ),
    (ops.nlosMet gro coalHdr.nlos ⟨state, nloErrMask, 0⟩)[index]? = some locals →
      index < rmnetMapV5MaxPackets ∧ locals.totalPkt = index ∧
        (locals.nloErrMask % 2 == 1) = nloErrMask.testBit index

/-- Either the counts are too few for a carry out of the eight bits of `pkts`, or the loop stops at one of
them, or `num_nlos` is refused. -/
def RmnetMapV5CoalHeader.Noticed (coalHdr : RmnetMapV5CoalHeader) : Prop :=
  coalHdr.numNlos = 0 ∨ rmnetMapV5MaxNlos < coalHdr.numNlos ∨ packetCount coalHdr.nlPairs < 256 ∨
    ∃ count, rmnetMapV5MaxPackets < packetCount (coalHdr.nlPairs.take count) % 256

section Bounds

variable {pairs : List RmnetMapV5NlPair} {coalHdr : RmnetMapV5CoalHeader} {count index mask nlo pkts : Nat}

@[simp] theorem packetCount_nil : packetCount [] = 0 := rfl

@[simp] theorem packetCount_cons : packetCount (pair :: pairs) = pair.numPackets + packetCount pairs := by
  simp [packetCount]

theorem packetCount_take_le : packetCount (pairs.take count) ≤ packetCount pairs := by
  induction pairs generalizing count with
  | nil => simp
  | cons pair later ih =>
    cases count with
    | zero => simp
    | succ count =>
      have rest := @ih count
      simp only [take_succ_cons, packetCount_cons]
      omega

theorem checkNlPairs_accepts (small : pkts ≤ rmnetMapV5MaxPackets) :
    (∃ result, checkNlPairs pairs nlo mask pkts = some result) ↔
      ∀ count, (pkts + packetCount (pairs.take count)) % 256 ≤ rmnetMapV5MaxPackets := by
  induction pairs generalizing nlo mask pkts with
  | nil =>
    refine ⟨fun _ count => ?_, fun _ => ⟨mask, rfl⟩⟩
    simp only [take_nil, packetCount_nil]
    omega
  | cons pair later ih =>
    unfold checkNlPairs
    split
    case isTrue many =>
      refine ⟨fun found => absurd found (by simp), fun accepts => ?_⟩
      have first := accepts 1
      simp only [take_succ_cons, take_zero, packetCount_cons, packetCount_nil] at first
      omega
    case isFalse within =>
      refine (ih (Nat.le_of_not_lt within)).trans ?_
      refine ⟨fun accepts count => ?_, fun accepts count => ?_⟩
      · cases count with
        | zero =>
          simp only [take_zero, packetCount_nil]
          omega
        | succ count =>
          have rest := accepts count
          simp only [take_succ_cons, packetCount_cons]
          omega
      · have rest := accepts (count + 1)
        simp only [take_succ_cons, packetCount_cons] at rest
        omega

variable {σ : Type} {ops : Segmenter σ} {locals met : Segmenting σ} {gro : Bool} {totalPkt : Nat}

theorem packetsMet_getElem? (found : (ops.packetsMet gro count locals)[index]? = some met) :
    index < count ∧ met = { ops.packets gro index locals with } := by
  induction count generalizing locals index with
  | zero => cases found
  | succ count ih =>
    cases index with
    | zero => cases found; exact ⟨by omega, rfl⟩
    | succ index =>
      obtain ⟨inside, same⟩ := ih found
      exact ⟨by omega, same⟩

theorem length_packetsMet : (ops.packetsMet gro count locals).length = count := by
  induction count generalizing locals with
  | zero => rfl
  | succ count ih => rw [Segmenter.packetsMet, length_cons, ih]

theorem nlosMet_getElem? (told : locals.totalPkt = totalPkt % 256)
    (found : (ops.nlosMet gro pairs locals)[index]? = some met) :
    index < packetCount pairs ∧ met.totalPkt = (totalPkt + index) % 256 ∧
      met.nloErrMask = locals.nloErrMask / 2 ^ index := by
  induction pairs generalizing locals index totalPkt with
  | nil => cases found
  | cons pair later ih =>
    rw [Segmenter.nlosMet] at found
    rw [packetCount_cons]
    by_cases here : index < pair.numPackets
    · rw [getElem?_append_left (by rw [length_packetsMet]; exact here)] at found
      obtain ⟨-, rfl⟩ := packetsMet_getElem? found
      obtain ⟨mask, number⟩ := @packets_rest _ ops
        { locals with state := ops.setPktLen locals.state pair.pktLen } gro totalPkt index
      exact ⟨by omega, number told, mask⟩
    rw [getElem?_append_right (by rw [length_packetsMet]; omega), length_packetsMet] at found
    obtain ⟨mask, number⟩ := @packets_rest _ ops
      { locals with state := ops.setPktLen locals.state pair.pktLen } gro totalPkt pair.numPackets
    have next : (ops.nlo gro locals pair).totalPkt = (totalPkt + pair.numPackets) % 256 := number told
    have left : (ops.nlo gro locals pair).nloErrMask = locals.nloErrMask / 2 ^ pair.numPackets := mask
    obtain ⟨inside, counted, moved⟩ := ih next found
    refine ⟨by omega, ?_, ?_⟩
    · omega
    · rw [moved, left, Nat.div_div_eq_div_mul, ← pow_add]
      congr 2
      omega

theorem RmnetMapV5CoalHeader.bounded_of_packets (few : packetCount coalHdr.nlPairs ≤ rmnetMapV5MaxPackets) :
    coalHdr.Bounded mask := by
  have limit : rmnetMapV5MaxPackets = 48 := rfl
  refine ⟨few, fun ops gro state index locals found => ?_⟩
  obtain ⟨inside, counted, moved⟩ := @nlosMet_getElem? _ _ _ ops ⟨state, mask, 0⟩ _ _ 0 rfl found
  have taken : packetCount coalHdr.nlos ≤ packetCount coalHdr.nlPairs := packetCount_take_le
  refine ⟨by omega, by omega, ?_⟩
  rw [moved, Nat.testBit_eq_decide_div_mod_eq]
  rfl

theorem RmnetMapV5CoalHeader.bounded_iff : (∀ nloErrMask, ¬(coalHdr.numNlos = 0 ∨ rmnetMapV5MaxNlos < coalHdr.numNlos) →
      checkNlPairs coalHdr.nlPairs 0 0 0 = some nloErrMask → coalHdr.Bounded nloErrMask) ↔ coalHdr.Noticed := by
  have limit : rmnetMapV5MaxPackets = 48 := rfl
  have accepts := @checkNlPairs_accepts coalHdr.nlPairs 0 0 0 (Nat.zero_le _)
  simp only [Nat.zero_add] at accepts
  constructor
  · intro bounded
    by_contra unnoticed
    simp only [RmnetMapV5CoalHeader.Noticed, not_or, not_exists, Nat.not_lt] at unnoticed
    obtain ⟨zero, many, carried, shown⟩ := unnoticed
    obtain ⟨nloErrMask, ok⟩ := accepts.mpr shown
    have few := (bounded nloErrMask (by omega) ok).packets
    omega
  · intro noticed nloErrMask nlos ok
    have shown := accepts.mp ⟨nloErrMask, ok⟩
    apply bounded_of_packets
    rcases noticed with zero | many | few | ⟨count, found⟩
    · exact absurd (.inl zero) nlos
    · exact absurd (.inr many) nlos
    · have all := shown coalHdr.nlPairs.length
      rw [take_length] at all
      omega
    · exact absurd (shown count) (by omega)

end Bounds

/-- A header that either check accepts has at most `RMNET_MAP_V5_MAX_PACKETS` packets, each with its own bit and
count, exactly if no carry out of `pkts` hides the excess. -/
theorem checkCoalHeader_bounded_iff (pages : Pages) (fragDesc : RmnetFragDescriptor) (skb : List UInt8) :
    ((∀ header nloErrMask,
        rmnetFragHeaderPtr pages fragDesc rmnetMapHeaderSize rmnetMapV5CoalHeaderSize = some header →
        rmnetFragDataCheckCoalHeader pages fragDesc = some nloErrMask → (ofBytes header).Bounded nloErrMask) ↔
      ∀ header, rmnetFragHeaderPtr pages fragDesc rmnetMapHeaderSize rmnetMapV5CoalHeaderSize = some header →
        (ofBytes header).Noticed) ∧
    ((∀ nloErrMask, rmnetMapDataCheckCoalHeader skb = some nloErrMask →
        (mapCoalHeader skb).Bounded nloErrMask) ↔ (mapCoalHeader skb).Noticed) := by
  constructor
  · unfold rmnetFragDataCheckCoalHeader
    cases read : rmnetFragHeaderPtr pages fragDesc rmnetMapHeaderSize rmnetMapV5CoalHeaderSize with
    | none => simp
    | some header =>
      simp only [Option.some.injEq, forall_eq', ← bounded_iff, Option.ite_none_left_eq_some, and_imp]
      constructor
      · exact fun bounded nloErrMask nlos accepted => bounded header nloErrMask rfl nlos accepted
      · rintro bounded _ nloErrMask rfl nlos accepted
        exact bounded nloErrMask nlos accepted
  · rw [← bounded_iff]
    simp [rmnetMapDataCheckCoalHeader]

def carriedBytes : List UInt8 :=
  [5, 0, 0, 0, 6, 32, 0, 0, 0, 40, 0, 1, 0, 41, 0, 255] ++ List.replicate 16 0

/-- The counts come to 256, which `pkts` takes for none: both checks accept the header. -/
theorem carried_header_accepted : rmnetFragDataCheckCoalHeader (fun _ place => carriedBytes.getD place 0)
        ((RmnetFragDescriptor.zeroed 0 0).append [⟨0, 0, 32⟩]) = some 0 ∧
      rmnetMapDataCheckCoalHeader carriedBytes = some 0 ∧
      packetCount (mapCoalHeader carriedBytes).nlPairs = 256 := by
  decide +kernel

end KernelModules.Rmnet

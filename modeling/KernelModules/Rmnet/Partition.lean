import KernelModules.Rmnet.SegmentSteps

namespace KernelModules.Rmnet

open Data RmnetFragDescriptor List

def coalHdrOf (pages : Pages) (desc : RmnetFragDescriptor) : RmnetMapV5CoalHeader :=
  .ofBytes (((desc.bytes pages).drop rmnetMapHeaderSize).take rmnetMapV5CoalHeaderSize)

def pulledDesc (desc : RmnetFragDescriptor) : RmnetFragDescriptor :=
  desc.withFrags
    (pullLoop desc.frags (rmnetMapHeaderSize + rmnetMapV5CoalHeaderSize) desc.len).1

structure Received (pages : Pages) (format : IngressDataFormat) (desc : RmnetFragDescriptor) : Prop where
  framed : frameSize format (desc.bytes pages) = some desc.len
  fresh : ∃ number ticket frags dev priority, desc = { (zeroed number ticket).append frags with dev, priority }

/-- A frame that passes the header check, has readable headers and consistent lengths. -/
structure ConsistentFrame (pages : Pages) (format : IngressDataFormat) (desc : RmnetFragDescriptor)
    (mask : Nat) (base : RmnetFragDescriptor) (gro zeroCsum : Bool) : Prop where
  received : Received pages format desc
  accepted : rmnetFragDataCheckCoalHeader pages desc = some mask
  parsed : coalHeaders pages (pulledDesc desc) = some (base, gro, zeroCsum)
  lengths : ∀ pair ∈ (coalHdrOf pages desc).nlos, base.hlen ≤ pair.pktLen
  total : base.hlen + ((coalHdrOf pages desc).nlos.map fun pair =>
    pair.numPackets * (pair.pktLen - base.hlen)).sum = base.len

def SlowPath (coalHdr : RmnetMapV5CoalHeader) (gro zeroCsum : Bool) : Prop :=
  ¬(rmnetMapV5CsumBuggy coalHdr ∧ ¬zeroCsum) ∧ ¬(gro ∧ coalHdr.numNlos = 1 ∧ coalHdr.csumValid)

variable {pages : Pages} {format : IngressDataFormat} {desc base : RmnetFragDescriptor}
  {gro zeroCsum : Bool} {pool : RmnetFragDescriptorPool} {list segs : List RmnetFragDescriptor}
  {bytes : List UInt8} {mask place pktId : Nat}

theorem byteAt_lt : byteAt bytes place < 256 :=
  UInt8.toNat_lt _

theorem be16At_lt : be16At bytes place < 65536 := by
  have high := @byteAt_lt bytes place
  have low := @byteAt_lt bytes (place + 1)
  unfold be16At
  omega

theorem nlos_bounds (mem : pair ∈ (RmnetMapV5CoalHeader.ofBytes bytes).nlos) :
    pair.pktLen < 65536 ∧ pair.numPackets < 256 := by
  obtain ⟨idx, _, rfl⟩ := mem_map.mp (mem_of_mem_take mem)
  exact ⟨be16At_lt, byteAt_lt⟩

theorem coalTransHeader_some (parsed : coalTransHeader pages given groIn = some (base, gro, zeroCsum)) :
    gro = groIn ∧ (∃ transLen, base = { given with transLen, hdrsValid := true }) ∧
      (given.transProto = ipprotoTcp ∧ given.ipLen + 20 ≤ given.len ∧ zeroCsum = false ∨
        given.transProto = ipprotoUdp ∧ given.ipLen + 8 ≤ given.len ∧
          zeroCsum = decide (given.ipProto = 4 ∧ be16At (given.bytes pages) (given.ipLen + 6) = 0)) := by
  unfold coalTransHeader at parsed
  by_cases tcp : given.transProto = ipprotoTcp
  · rw [if_pos tcp, rmnetFragHeaderPtr_eq] at parsed
    by_cases inside : given.ipLen + 20 ≤ given.len
    · rw [if_pos inside] at parsed
      cases parsed
      exact ⟨rfl, ⟨_, rfl⟩, .inl ⟨tcp, inside, rfl⟩⟩
    · rw [if_neg inside] at parsed
      cases parsed
  · rw [if_neg tcp] at parsed
    by_cases udp : given.transProto = ipprotoUdp
    · rw [if_pos udp, rmnetFragHeaderPtr_eq] at parsed
      by_cases inside : given.ipLen + 8 ≤ given.len
      · rw [if_pos inside] at parsed
        dsimp only at parsed
        rw [be16At_part (by decide)] at parsed
        cases parsed
        exact ⟨rfl, ⟨_, rfl⟩, .inr ⟨udp, inside, rfl⟩⟩
      · rw [if_neg inside] at parsed
        cases parsed
    · rw [if_neg udp] at parsed
      cases parsed

theorem coalHeaders_some (parsed : coalHeaders pages pulled = some (base, gro, zeroCsum)) :
    (∃ ipProto ipLen transProto transLen,
      base = { pulled with ipProto, ipLen, transProto, transLen, hdrsValid := true }) ∧
    (pulled.ipIdSet = false → pulled.tcpFlagsSet = false → CoalReady pages base zeroCsum) ∧ 20 ≤ pulled.len := by
  have spread : ∀ {ipProto ipLen transProto : Nat} {groIn : Bool}, (ipProto = 4 → 20 ≤ pulled.len) →
      20 ≤ pulled.len → coalTransHeader pages { pulled with ipProto, ipLen, transProto } groIn =
        some (base, gro, zeroCsum) →
      (∃ ipProto ipLen transProto transLen,
        base = { pulled with ipProto, ipLen, transProto, transLen, hdrsValid := true }) ∧
      (pulled.ipIdSet = false → pulled.tcpFlagsSet = false → CoalReady pages base zeroCsum) ∧ 20 ≤ pulled.len := by
    intro ipProto ipLen transProto groIn four room trans
    obtain ⟨_, ⟨transLen, rfl⟩, kind⟩ := coalTransHeader_some trans
    refine ⟨⟨_, _, _, _, rfl⟩, fun idUnset flagsUnset => ?_, room⟩
    rcases kind with ⟨tcp, inside, zero⟩ | ⟨udp, inside, zero⟩
    · have other : ¬transProto = ipprotoUdp := fun udp => by
        rw [show transProto = ipprotoTcp from tcp] at udp
        exact absurd udp (by decide)
      refine ⟨four, fun _ => inside, fun udp => absurd udp other, .inl tcp, ?_, ⟨idUnset, flagsUnset⟩⟩
      rw [zero]
      exact (decide_eq_false fun all => other all.1).symm
    · have other : ¬transProto = ipprotoTcp := fun tcp => by
        rw [show transProto = ipprotoUdp from udp] at tcp
        exact absurd tcp (by decide)
      refine ⟨four, fun tcp => absurd tcp other, fun _ => inside, .inr udp, ?_, ⟨idUnset, flagsUnset⟩⟩
      have named : transProto = ipprotoUdp := udp
      rw [zero]
      simp only [named, true_and]
      rfl
  unfold coalHeaders at parsed
  cases head : rmnetFragDataPtr pulled with
  | none =>
    rw [head] at parsed
    cases parsed
  | some frag =>
    rw [head] at parsed
    dsimp only at parsed
    by_cases four : (pages frag.source frag.start).toNat / 16 = 4
    · rw [if_pos four, rmnetFragHeaderPtr_eq] at parsed
      by_cases inside : 0 + 20 ≤ pulled.len
      · rw [if_pos inside] at parsed
        exact spread (fun _ => by omega) (by omega) parsed
      · rw [if_neg inside] at parsed
        cases parsed
    · rw [if_neg four] at parsed
      by_cases six : (pages frag.source frag.start).toNat / 16 = 6
      · rw [if_pos six, rmnetFragHeaderPtr_eq] at parsed
        by_cases inside : 0 + 40 ≤ pulled.len
        · rw [if_pos inside] at parsed
          dsimp only at parsed
          cases skipped : rmnetFragIpv6SkipExthdr pages pulled 40
              (byteAt (((pulled.bytes pages).drop 0).take 40) 6) with
          | none =>
            rw [skipped] at parsed
            cases parsed
          | some found =>
            obtain ⟨ipLen, protocol, fragOff, fragHdr⟩ := found
            rw [skipped] at parsed
            dsimp only at parsed
            by_cases fragmented : fragOff ≠ 0
            · rw [if_pos fragmented] at parsed
              cases parsed
            · rw [if_neg fragmented] at parsed
              exact spread (fun same => absurd same (by decide)) (by omega) parsed
        · rw [if_neg inside] at parsed
          cases parsed
      · rw [if_neg six] at parsed
        cases parsed

theorem Received.len_le (received : Received pages format desc) : desc.len ≤ 65535 + 32 := by
  have framed := received.framed
  have word := @be16At_lt (desc.bytes pages) 2
  have type := @v5HeaderSize_le (byteAt (desc.bytes pages) rmnetMapHeaderSize)
  unfold frameSize RmnetMapHeader.ofBytes rmnetMapHeaderSize rmnetMapDlCsumTrailerSize at framed
  dsimp only at framed
  unfold rmnetMapHeaderSize at type
  split at framed
  · cases framed
  · split at framed
    · have size := Option.some.inj framed
      omega
    · split at framed
      · have size := Option.some.inj framed
        omega
      · have size := Option.some.inj framed
        omega

theorem bytes_pulledDesc : (pulledDesc desc).bytes pages = (desc.bytes pages).drop 32 := by
  unfold pulledDesc
  rw [bytes_withFrags, contents_pullLoop]
  rfl

theorem len_pulledDesc : (pulledDesc desc).len = desc.len - 32 := by
  have len := congrArg List.length (@bytes_pulledDesc (fun _ _ => 0) desc)
  rw [length_bytes, length_drop, length_bytes] at len
  exact len

theorem cursor_self {count : Nat} (gsoSegs : base.gsoSegs = count) (dataOffset : base.dataOffset = offset)
    (pkt : base.pktId = pktId) : base = base.cursor base.gsoSize count offset pktId := by
  subst gsoSegs dataOffset pkt
  rfl

structure FrameFacts (pages : Pages) (desc base : RmnetFragDescriptor) (mask : Nat)
    (zeroCsum : Bool) : Prop where
  ready : CoalReady pages base zeroCsum
  cursor : base = base.cursor base.gsoSize 0 0 0
  seqUnset : base.tcpSeqSet = false
  bytes : base.bytes pages = (desc.bytes pages).drop 32
  len : base.len = desc.len - 32
  long : 32 < desc.len
  short : base.len ≤ 65535
  payload : base.hlen + payloadOf (framePackets base.hlen (coalHdrOf pages desc).nlos 0 mask).flatten = base.len

theorem ConsistentFrame.facts (frame : ConsistentFrame pages format desc mask base gro zeroCsum) :
    FrameFacts pages desc base mask zeroCsum := by
  obtain ⟨⟨ipProto, ipLen, transProto, transLen, same⟩, ready, room⟩ := coalHeaders_some frame.parsed
  obtain ⟨num, ticket, frags, dev, priority, fresh⟩ := frame.received.fresh
  rw [len_pulledDesc] at room
  have limit := frame.received.len_le
  have unset : desc.ipIdSet = false ∧ desc.tcpFlagsSet = false ∧ desc.gsoSegs = 0 ∧
      desc.dataOffset = 0 ∧ desc.pktId = 0 ∧ desc.tcpSeqSet = false := by
    rw [fresh]
    exact ⟨rfl, rfl, rfl, rfl, rfl, rfl⟩
  obtain ⟨idUnset, flagsUnset, gsoSegs, dataOffset, pktId, seqUnset⟩ := unset
  have len : base.len = desc.len - 32 := by
    rw [same]
    exact len_pulledDesc
  constructor
  · exact ready idUnset flagsUnset
  · have start : base.gsoSegs = 0 ∧ base.dataOffset = 0 ∧ base.pktId = 0 := by
      rw [same]
      exact ⟨gsoSegs, dataOffset, pktId⟩
    exact cursor_self start.1 start.2.1 start.2.2
  · rw [same]
    exact seqUnset
  · rw [same]
    exact bytes_pulledDesc
  · exact len
  · omega
  · omega
  · rw [payload_framePackets frame.lengths fun pair mem => (nlos_bounds mem).1]
    exact frame.total

theorem payload_frameCalls : callsPayload (frameCalls gro nlos totalPkt) = payloadOf nlos.flatten := by
  rw [callsPayload_eq, frameCalls_packets]

def slowCalls (pages : Pages) (desc base : RmnetFragDescriptor) (mask : Nat) (gro : Bool) : List SegmentCall :=
  frameCalls gro (framePackets base.hlen (coalHdrOf pages desc).nlos 0 mask) 0

theorem segmentCoalData_slow (frame : ConsistentFrame pages format desc mask base gro zeroCsum)
    (slow : SlowPath (coalHdrOf pages desc) gro zeroCsum) (succeed : pool.AllocsSucceed) :
    ∃ last after segs, rmnetFragSegmentCoalData pages desc mask pool list = (last, after, list ++ segs) ∧
      List.Forall₂ (CarriesSegment pages base zeroCsum)
        (emissions 0 0 0 (slowCalls pages desc base mask gro)) segs := by
  have facts := frame.facts
  have paid := facts.payload
  have short := facts.short
  have parsed := frame.parsed
  unfold pulledDesc at parsed
  obtain ⟨first, pulled⟩ := @rmnetFragPull_eq pool desc (rmnetMapHeaderSize + rmnetMapV5CoalHeaderSize) facts.long
  rw [← @payload_frameCalls gro _ 0] at paid
  have lawful := fragSegmenter_lawful facts.ready (by omega) (by omega)
  obtain ⟨gsoSize, emitted⟩ := @nlos_emitted _ _ _ _ _ _ _ _ ⟨⟨base, pool, list⟩, mask, 0⟩ gro
    (coalHdrOf pages desc).nlos 0 0 0 0 0 lawful ⟨_, facts.cursor, succeed⟩ rfl
    (fun pair mem => (nlos_bounds mem).2) (by dsimp only; omega)
  obtain ⟨segs, listed, carried⟩ := emitted.segs
  generalize done : ((coalHdrOf pages desc).nlos.foldl ((fragSegmenter pages).nlo gro)
    ⟨⟨base, pool, list⟩, mask, 0⟩).state = state at listed
  refine ⟨state.coalDesc, state.pool, segs, ?_, carried⟩
  unfold rmnetFragSegmentCoalData
  have enough : rmnetMapHeaderSize + rmnetMapV5CoalHeaderSize ≤ desc.len := le_of_lt facts.long
  rw [rmnetFragCopyData_eq, if_pos enough]
  rw [pulled]
  dsimp only
  rw [parsed]
  dsimp only
  have notBuggy := slow.1
  have notFast := slow.2
  unfold coalHdrOf at notBuggy notFast done
  unfold Segmenter.nlos
  rw [if_neg notBuggy, if_neg notFast, done, listed]

theorem payload_segs (hdr : base.hlen ≤ base.len)
    (carried : List.Forall₂ (CarriesSegment pages base zeroCsum) (emissions first offset pktId calls) segs) :
    (segs.flatMap fun seg => (seg.bytes pages).drop base.hlen) =
      ((base.bytes pages).drop (base.hlen + offset)).take (callsPayload calls) := by
  induction calls generalizing first offset pktId segs with
  | nil =>
    cases carried
    simp
  | cons call later ih =>
    cases carried with
    | cons one rest =>
      have len : ((base.bytes pages).take base.hlen).length = base.hlen := by
        rw [length_take, length_bytes]
        omega
      rw [flatMap_cons, ih rest, one.bytes, drop_append, len, Nat.sub_self,
        drop_eq_nil_of_le (Nat.le_of_eq len), nil_append, callsPayload_cons,
        take_add, drop_drop, drop_zero, Nat.add_assoc]

structure RunSegment (pages : Pages) (base : RmnetFragDescriptor) (run : List CoalPacket)
    (seg : RmnetFragDescriptor) : Prop where
  header : (seg.bytes pages).take base.hlen = (base.bytes pages).take base.hlen
  payload : ((seg.bytes pages).drop base.hlen).length = payloadOf run
  nonempty : run ≠ []
  oneNlo : ∀ packet ∈ run, ∀ other ∈ run, packet.nlo = other.nlo
  gsoSize : ∀ packet ∈ run, packet.size = seg.gsoSize
  gsoSegs : seg.gsoSegs = run.length
  bad : ∀ packet ∈ run, packet.csumErr = true → run = [packet] ∧
    seg.csumValid = decide (base.transProto = ipprotoUdp ∧ base.ipProto = 4 ∧
      be16At (base.bytes pages) (base.ipLen + 6) = 0)
  good : (∀ packet ∈ run, packet.csumErr = false) → seg.csumValid = true

theorem CarriesSegment.runSegment (ready : CoalReady pages base zeroCsum) (proper : ProperCall emission.call)
    (inside : base.hlen + emission.offset + payloadOf emission.call.run ≤ base.len)
    (carries : CarriesSegment pages base zeroCsum emission seg) : RunSegment pages base emission.call.run seg := by
  have len : ((base.bytes pages).take base.hlen).length = base.hlen := by
    rw [length_take, length_bytes]
    omega
  constructor
  · rw [carries.bytes, take_append_of_le_length (Nat.le_of_eq len.symm), take_take, Nat.min_self]
  · rw [carries.bytes, drop_append, len, drop_eq_nil_of_le (Nat.le_of_eq len),
      Nat.sub_self, nil_append, drop_zero, length_take, length_drop, length_bytes]
    omega
  · exact proper.nonempty
  · exact fun pkt mem other otherMember => (proper.oneNlo pkt mem other otherMember).1
  · exact carries.gsoSize
  · exact carries.gsoSegs
  · intro pkt mem err
    rcases proper.marked with ⟨_, clean⟩ | ⟨marked, alone, single, _⟩
    · rw [clean pkt mem] at err
      cases err
    · rw [single] at mem ⊢
      rw [mem_singleton.mp mem, carries.csumValid, marked, ready.zero]
      exact ⟨rfl, Bool.false_or _⟩
  · intro clean
    rw [carries.csumValid]
    rcases proper.marked with ⟨marked, _⟩ | ⟨_, alone, single, err⟩
    · rw [marked]
      rfl
    · rw [clean alone (by rw [single]; exact mem_singleton.mpr rfl)] at err
      cases err

theorem runs_segments (ready : CoalReady pages base zeroCsum) (proper : ∀ call ∈ calls, ProperCall call)
    (inside : base.hlen + offset + callsPayload calls ≤ base.len)
    (carried : List.Forall₂ (CarriesSegment pages base zeroCsum) (emissions first offset pktId calls)
      segs) : List.Forall₂ (RunSegment pages base) (calls.map SegmentCall.run) segs := by
  induction calls generalizing first offset pktId segs with
  | nil =>
    cases carried
    exact .nil
  | cons call later ih =>
    rw [callsPayload_cons] at inside
    cases carried with
    | cons one rest =>
      refine .cons (one.runSegment ready (proper call (mem_cons_self ..)) ?_) (ih ?_ ?_ rest)
      · dsimp only
        omega
      · exact fun other mem => proper other (mem_cons_of_mem _ mem)
      · omega

/-- The slow path cuts the payload into segments of consecutive packets of one NLO: every byte once, a packet with a
checksum error alone and marked. -/
theorem segment_partition (frame : ConsistentFrame pages format desc mask base gro zeroCsum)
    (slow : SlowPath (coalHdrOf pages desc) gro zeroCsum) (succeed : pool.AllocsSucceed) :
    ∃ last after segs runs, rmnetFragSegmentCoalData pages desc mask pool list = (last, after, list ++ segs) ∧
      (segs.flatMap fun seg => (seg.bytes pages).drop base.hlen) = (desc.bytes pages).drop (32 + base.hlen) ∧
      runs.flatten = (framePackets base.hlen (coalHdrOf pages desc).nlos 0 mask).flatten ∧
      List.Forall₂ (RunSegment pages base) runs segs ∧
      ∀ index packet, runs.flatten[index]? = some packet → packet.csumErr = mask.testBit index := by
  have facts := frame.facts
  have paid := facts.payload
  obtain ⟨last, after, segs, run, carried⟩ := segmentCoalData_slow frame slow succeed
  have payload : callsPayload (slowCalls pages desc base mask gro) =
      payloadOf (framePackets base.hlen (coalHdrOf pages desc).nlos 0 mask).flatten :=
    payload_frameCalls
  have packets : ((slowCalls pages desc base mask gro).map SegmentCall.run).flatten =
      (framePackets base.hlen (coalHdrOf pages desc).nlos 0 mask).flatten := by
    exact frameCalls_packets
  refine ⟨last, after, segs, (slowCalls pages desc base mask gro).map SegmentCall.run, run, ?_, packets, ?_, ?_⟩
  · rw [payload_segs (by omega) carried, facts.bytes, drop_drop]
    apply take_of_length_le
    have total := facts.len
    rw [length_drop, length_bytes]
    omega
  · apply runs_segments facts.ready _ _ carried
    · exact fun call member => frameCalls_proper (fun packets inside => framePackets_alike inside) member
    · omega
  · intro index packet found
    rw [packets] at found
    exact framePackets_csumErr found

def udpFrameBytes : List UInt8 :=
  [0x40, 0, 0, 30] ++ [2, 0x10, 0, 0, 0, 29, 2, 2] ++ List.replicate 20 0 ++
    [0x45, 0, 0, 30, 0, 7, 0, 0, 64, 17, 0, 0, 1, 2, 3, 4, 5, 6, 7, 8] ++ [0, 1, 0, 2, 0, 10, 0, 5] ++ [21, 22]

def udpFramePages : Pages := fun _ place => udpFrameBytes.getD place 0

def udpFrame : RmnetFragDescriptor :=
  { (zeroed 0 0).append [⟨0, 0, 40⟩, ⟨0, 40, 22⟩] with
    dev := ⟨true, true⟩ }

def udpBase : RmnetFragDescriptor :=
  { pulledDesc udpFrame with
    ipProto := 4, ipLen := 20, transProto := 17, transLen := 8, hdrsValid := true }

theorem udpFrame_consistent :
    ConsistentFrame udpFramePages ⟨false, true, false, false, false⟩ udpFrame 2 udpBase true false := by
  refine ⟨⟨by decide +kernel, 0, 0, [⟨0, 0, 40⟩, ⟨0, 40, 22⟩], ⟨true, true⟩, 0, rfl⟩,
    by decide +kernel, by decide +kernel, by decide +kernel, by decide +kernel⟩

theorem segment_partition_udp :
    ∃ last after segs runs, rmnetFragSegmentCoalData udpFramePages udpFrame 2 ⟨[1, 2], 3, [], 1⟩ [] =
        (last, after, segs) ∧
      (segs.flatMap fun seg => (seg.bytes udpFramePages).drop udpBase.hlen) =
        (udpFrame.bytes udpFramePages).drop 60 ∧
      List.Forall₂ (RunSegment udpFramePages udpBase) runs segs := by
  obtain ⟨last, after, segs, runs, run, payload, _, segments, _⟩ :=
    @segment_partition udpFramePages ⟨false, true, false, false, false⟩ udpFrame udpBase true false
      ⟨[1, 2], 3, [], 1⟩ [] 2 udpFrame_consistent ⟨by decide +kernel, by decide +kernel⟩
      (fun outcome member => by cases member)
  exact ⟨last, after, segs, runs, run, payload, segments⟩

end KernelModules.Rmnet

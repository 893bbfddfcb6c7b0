import KernelModules.Rmnet.SkbSegment

namespace KernelModules.Rmnet

open Data List RmnetFragDescriptor SegmentSkb

/-- What `rmnet_alloc_skb` puts on the wire for a descriptor with the headers of `base`. -/
def wireOf (pages : Pages) (base seg : RmnetFragDescriptor) : WireSegment :=
  { packets := seg.gsoSegs
    payload := ((seg.bytes pages).drop base.hlen).length
    ipId := if seg.ipIdSet then seg.ipId else be16At (seg.bytes pages) 4
    tcpSeq :=
      if seg.tcpSeqSet then seg.tcpSeq
      else be16At (seg.bytes pages) (base.ipLen + 4) * 65536 + be16At (seg.bytes pages) (base.ipLen + 6)
    tcpFlags :=
      if seg.tcpFlagsSet then seg.tcpFlags else be16At (seg.bytes pages) (base.ipLen + 12) }

/-- The frame that `base` holds, its headers read. -/
def identityOf (pages : Pages) (base : RmnetFragDescriptor) : FrameIdentity :=
  frameIdentity (base.bytes pages) base.ipProto base.ipLen base.transProto base.transLen

structure WholeHeaders (pages : Pages) (desc base : RmnetFragDescriptor) : Prop where
  frags : ∀ frag ∈ desc.frags, 0 < frag.length
  ipv4 : base.ipProto = 4 → 20 ≤ base.ipLen
  ipv6 : base.ipProto = 6 → ∃ protocol fragHdr,
    rmnetFragIpv6SkipExthdr pages (pulledDesc desc) 40 (byteAt ((pulledDesc desc).bytes pages) 6) =
      some (base.ipLen, protocol, 0, fragHdr)
  tcp : base.transProto = ipprotoTcp → 20 ≤ base.transLen

structure SameIdentity (frame : FrameIdentity) (wire other : WireSegment) : Prop where
  packets : wire.packets = other.packets
  payload : wire.payload = other.payload
  ipId : frame.ipv4 → wire.ipId = other.ipId
  tcpSeq : frame.tcp → wire.tcpSeq = other.tcpSeq
  tcpFlags : frame.tcp → wire.tcpFlags = other.tcpFlags

/-- Without GRO the `pkt_id`s fit into a byte; with GRO nothing comes behind a gathered run, so no good packet is
followed by a bad one or another NLO. -/
def PktIdsFollow (gro : Bool) (packets : List CoalPacket) : Prop :=
  if gro then packets.IsChain KeepsGathering else packets.length ≤ 256

instance {gro : Bool} {packets : List CoalPacket} : Decidable (PktIdsFollow gro packets) :=
  inferInstanceAs (Decidable (if gro then packets.IsChain KeepsGathering else packets.length ≤ 256))

variable {pages : Pages} {format : IngressDataFormat} {desc base pulled : RmnetFragDescriptor}
  {gro zeroCsum groHw : Bool} {pool : RmnetFragDescriptorPool} {frame : FrameIdentity}
  {emission : Emission} {seg : RmnetFragDescriptor} {calls : List SegmentCall}
  {pairs : List RmnetMapV5NlPair} {frags : List SkbFrag} {data : List UInt8}
  {mask nlo first offset pktId totalPkt hlen fuel size len : Nat}

theorem pullLoop_nonempty (nonempty : ∀ frag ∈ frags, 0 < frag.length) :
    ∀ frag ∈ (pullLoop frags size len).1, 0 < frag.length := by
  induction frags generalizing size len with
  | nil => exact nonempty
  | cons frag later ih =>
    unfold pullLoop
    by_cases done : size = 0
    · rw [if_pos done]
      exact nonempty
    rw [if_neg done]
    by_cases whole : frag.length ≤ size
    · rw [if_pos whole]
      exact ih fun other mem => nonempty other (mem_cons_of_mem _ mem)
    rw [if_neg whole]
    intro other mem
    rcases mem_cons.mp mem with rfl | mem
    · rw [Extent.length_piece]
      omega
    · exact nonempty other (mem_cons_of_mem _ mem)

theorem version_eq (head : rmnetFragDataPtr pulled = some frag) (nonempty : 0 < frag.length) :
    (pages frag.source frag.start).toNat = byteAt (pulled.bytes pages) 0 := by
  unfold rmnetFragDataPtr at head
  unfold bytes byteAt
  cases frags : pulled.frags with
  | nil =>
    rw [frags] at head
    cases head
  | cons first later =>
    rw [frags] at head
    cases head
    obtain ⟨page, start, len⟩ := frag
    cases len with
    | zero => cases nonempty
    | succ len =>
      rw [Extent.contents_cons, getD_eq_getElem?_getD,
        getElem?_append_left (by rw [Extent.length_read]; exact nonempty)]
      simp [Extent.read]

theorem headerPtr_reader : rmnetFragHeaderPtr pages pulled = skbHeaderPointer (pulled.bytes pages) := by
  funext off len
  rw [rmnetFragHeaderPtr_eq]
  unfold skbHeaderPointer
  rw [length_bytes]

theorem skipExthdr_fragHdr {ipLen : Nat} {fragHdr : Bool}
    (found : skipExthdr headerPtr fuel start nexthdr fragOff fragHdr = some (ipLen, protocol, 0, true)) :
    fragHdr = true ∧ start ≤ ipLen ∨ start + 8 ≤ ipLen := by
  induction fuel generalizing start nexthdr fragOff fragHdr with
  | zero => cases found
  | succ fuel ih =>
    unfold skipExthdr at found
    by_cases ends : ¬ipv6ExtHdr nexthdr
    · rw [if_pos ends] at found
      cases found
      exact .inl ⟨rfl, le_rfl⟩
    rw [if_neg ends] at found
    by_cases none : nexthdr = nexthdrNone
    · rw [if_pos none] at found
      cases found
    rw [if_neg none] at found
    cases read : headerPtr start 2 with
    | none =>
      rw [read] at found
      cases found
    | some hp =>
      rw [read] at found
      dsimp only at found
      by_cases fragment : nexthdr = nexthdrFragment
      · rw [if_pos fragment] at found
        cases offRead : headerPtr (start + 2) 2 with
        | none =>
          rw [offRead] at found
          cases found
        | some fp =>
          rw [offRead] at found
          dsimp only at found
          by_cases later : be16At fp 0 / 8 ≠ 0
          · rw [if_pos later, Option.some.injEq, Prod.mk.injEq, Prod.mk.injEq, Prod.mk.injEq] at found
            omega
          · rw [if_neg later] at found
            rcases ih found with ⟨_, behind⟩ | behind
            · exact .inr behind
            · exact .inr (by omega)
      · rw [if_neg fragment] at found
        by_cases auth : nexthdr = nexthdrAuth
        · rw [if_pos auth] at found
          rcases ih found with ⟨was, behind⟩ | behind
          · exact .inl ⟨was, by omega⟩
          · exact .inr (by omega)
        · rw [if_neg auth] at found
          rcases ih found with ⟨was, behind⟩ | behind
          · exact .inl ⟨was, by omega⟩
          · exact .inr (by omega)

theorem mapTransHeader_eq (parsed : coalTransHeader pages given groIn = some (base, gro, zeroCsum)) :
    mapTransHeader (given.bytes pages) given.ipProto given.ipLen given.transProto groIn =
      some (⟨base.ipLen, base.transLen, 0, 0, base.ipProto, base.transProto, 0, 0⟩, gro, zeroCsum) := by
  unfold coalTransHeader at parsed
  unfold mapTransHeader
  by_cases tcp : given.transProto = ipprotoTcp
  · rw [if_pos tcp, rmnetFragHeaderPtr_eq] at parsed
    rw [if_pos tcp]
    by_cases inside : given.ipLen + 20 ≤ given.len
    · rw [if_pos inside] at parsed
      dsimp only at parsed
      rw [byteAt_take (by decide), byteAt_drop] at parsed
      cases parsed
      rfl
    · rw [if_neg inside] at parsed
      cases parsed
  · rw [if_neg tcp] at parsed ⊢
    by_cases udp : given.transProto = ipprotoUdp
    · rw [if_pos udp, rmnetFragHeaderPtr_eq] at parsed
      rw [if_pos udp]
      by_cases inside : given.ipLen + 8 ≤ given.len
      · rw [if_pos inside] at parsed
        dsimp only at parsed
        rw [be16At_part (by decide)] at parsed
        cases parsed
        rfl
      · rw [if_neg inside] at parsed
        cases parsed
    · rw [if_neg udp] at parsed
      cases parsed

theorem mapCoalHeaders_eq (whole : WholeHeaders pages desc base)
    (parsed : coalHeaders pages (pulledDesc desc) = some (base, gro, zeroCsum)) :
    mapCoalHeaders ((pulledDesc desc).bytes pages) desc.dev.groHw =
      some (⟨base.ipLen, base.transLen, 0, 0, base.ipProto, base.transProto, 0, 0⟩, gro, zeroCsum) := by
  have pos : ∀ frag ∈ (pulledDesc desc).frags, 0 < frag.length :=
    pullLoop_nonempty whole.frags
  have six := whole.ipv6
  have dev : (pulledDesc desc).dev = desc.dev := rfl
  unfold coalHeaders at parsed
  unfold mapCoalHeaders
  generalize pulledDesc desc = pulled at *
  rw [← dev]
  cases head : rmnetFragDataPtr pulled with
  | none =>
    rw [head] at parsed
    cases parsed
  | some frag =>
    rw [head] at parsed
    dsimp only at parsed
    rw [version_eq head (pos frag (mem_of_mem_head? head))] at parsed
    by_cases version4 : byteAt (pulled.bytes pages) 0 / 16 = 4
    · rw [if_pos version4, rmnetFragHeaderPtr_eq] at parsed
      rw [if_pos version4]
      by_cases inside : 0 + 20 ≤ pulled.len
      · rw [if_pos inside] at parsed
        dsimp only at parsed
        rw [byteAt_take (by decide), byteAt_take (by decide)] at parsed
        exact mapTransHeader_eq parsed
      · rw [if_neg inside] at parsed
        cases parsed
    · rw [if_neg version4] at parsed ⊢
      by_cases version6 : byteAt (pulled.bytes pages) 0 / 16 = 6
      · rw [if_pos version6, rmnetFragHeaderPtr_eq] at parsed
        rw [if_pos version6]
        by_cases inside : 0 + 40 ≤ pulled.len
        · rw [if_pos inside, drop_zero] at parsed
          dsimp only at parsed
          rw [byteAt_take (by decide)] at parsed
          unfold rmnetFragIpv6SkipExthdr at parsed six
          rw [← headerPtr_reader, length_bytes]
          cases skipped : skipExthdr (rmnetFragHeaderPtr pages pulled) (pulled.len + 1) 40
              (byteAt (pulled.bytes pages) 6) 0 false with
          | none =>
            rw [skipped] at parsed
            cases parsed
          | some found =>
            obtain ⟨ipLen, protocol, fragOff, fragHdr⟩ := found
            rw [skipped] at parsed six
            dsimp only at parsed ⊢
            by_cases fragmented : fragOff ≠ 0
            · rw [if_pos fragmented] at parsed
              cases parsed
            rw [if_neg fragmented] at parsed ⊢
            obtain ⟨_, ⟨transLen, same⟩, _⟩ := coalTransHeader_some parsed
            obtain ⟨otherProtocol, otherHdr, told⟩ := six (by rw [same])
            have exact : ipLen = ipLen % 65536 := by
              have len : base.ipLen = ipLen % 65536 := by rw [same]
              rw [← len]
              cases told
              rfl
            have agree : (pulled.dev.groHw && !fragHdr && decide (ipLen % 65536 ≤ 40)) =
                (pulled.dev.groHw && decide (ipLen % 65536 ≤ 40)) := by
              cases fragHdr with
              | false => simp
              | true =>
                rw [show fragOff = 0 by omega] at skipped
                have long := skipExthdr_fragHdr skipped
                have small : ¬ipLen % 65536 ≤ 40 := by
                  rcases long with ⟨absent, _⟩ | long
                  · cases absent
                  · omega
                simp [small]
            rw [agree] at parsed
            exact mapTransHeader_eq parsed
        · rw [if_neg inside] at parsed
          cases parsed
      · rw [if_neg version6] at parsed
        cases parsed

theorem CarriesSegment.onWire (tcp : base.transProto = ipprotoTcp → 20 ≤ base.transLen)
    (inside : base.hlen + emission.offset + payloadOf emission.call.run ≤ base.len)
    (carries : CarriesSegment pages base zeroCsum emission seg) :
    emission.OnWire (identityOf pages base) (wireOf pages base seg) := by
  have bytesLength := @length_bytes pages base
  have hdr : ((base.bytes pages).take base.hlen).length = base.hlen := by
    rw [length_take]
    omega
  have limit : base.hlen + emission.offset + payloadOf emission.call.run < base.len ↔
      emission.offset + payloadOf emission.call.run < (base.bytes pages).length - base.hlen := by
    omega
  constructor
  · exact carries.gsoSegs
  · change ((seg.bytes pages).drop base.hlen).length = _
    rw [carries.bytes, drop_append, hdr, Nat.sub_self, drop_zero,
      drop_eq_nil_of_le (Nat.le_of_eq hdr), nil_append, length_take, length_drop]
    omega
  · intro four
    have proto : base.ipProto = 4 := of_decide_eq_true four
    have set : seg.ipIdSet = true := by
      rw [carries.ipId.1]
      exact decide_eq_true proto
    change (if seg.ipIdSet then seg.ipId else _) = _
    rw [if_pos set]
    exact carries.ipId.2 proto
  · intro isTcp
    obtain ⟨set, value⟩ := carries.tcpSeq (of_decide_eq_true isTcp)
    change (if seg.tcpSeqSet then seg.tcpSeq else _) = _
    rw [if_pos set]
    exact value
  · intro isTcp
    have proto : base.transProto = ipprotoTcp := of_decide_eq_true isTcp
    have unread : be16At (seg.bytes pages) (base.ipLen + 12) = frameFlags pages base := by
      have part := @be16At_part (base.ipLen + 12) base.hlen 0 (base.bytes pages) (by unfold hlen; omega)
      rw [drop_zero, Nat.zero_add] at part
      rw [carries.bytes, be16At_append (by rw [hdr]; unfold hlen; omega), part]
      rfl
    change (if seg.tcpFlagsSet then seg.tcpFlags else be16At (seg.bytes pages) (base.ipLen + 12)) =
      if finOrPsh (frameFlags pages base) ∧ emission.offset + payloadOf emission.call.run <
        (base.bytes pages).length - base.hlen then clearFinPsh (frameFlags pages base)
      else frameFlags pages base
    rw [unread]
    obtain ⟨set, value⟩ := carries.tcpFlags
    by_cases clears : finOrPsh (frameFlags pages base) ∧
        base.hlen + emission.offset + payloadOf emission.call.run < base.len
    · rw [decide_eq_true ⟨proto, clears⟩] at set
      rw [if_pos set, if_pos ⟨clears.1, limit.mp clears.2⟩, value set]
    · rw [decide_eq_false fun all => clears all.2] at set
      rw [if_neg (by rw [set]; decide), if_neg fun both => clears ⟨both.1, limit.mpr both.2⟩]

theorem Emission.OnWire.same {wire : WireSegment} (onWire : emission.OnWire frame wire)
    (otherOnWire : emission.OnWire frame other) : SameIdentity frame wire other := by
  constructor
  · rw [onWire.packets, otherOnWire.packets]
  · rw [onWire.payload, otherOnWire.payload]
  · exact fun four => by rw [onWire.ipId four, otherOnWire.ipId four]
  · exact fun tcp => by rw [onWire.tcpSeq tcp, otherOnWire.tcpSeq tcp]
  · exact fun tcp => by rw [onWire.tcpFlags tcp, otherOnWire.tcpFlags tcp]

theorem framePackets_nlo (mem : packet ∈ (framePackets hlen pairs nlo mask).flatten) : nlo ≤ packet.nlo := by
  induction pairs generalizing nlo mask with
  | nil => cases mem
  | cons pair later ih =>
    rcases mem_append.mp mem with mem | mem
    · exact le_of_eq (nloPackets_size mem).1.symm
    · exact Nat.le_of_succ_le (ih mem)

theorem frameCalls_nil (proper : ∀ call ∈ frameCalls gro nlos totalPkt, ProperCall call) :
    frameCalls gro nlos totalPkt = [] ↔ nlos.flatten = [] := by
  rw [← @frameCalls_packets gro nlos totalPkt]
  generalize frameCalls gro nlos totalPkt = calls at *
  cases calls with
  | nil => exact ⟨fun _ => rfl, fun _ => rfl⟩
  | cons call later =>
    refine ⟨fun absent => (by cases absent), fun empty => ?_⟩
    rw [callsPackets_cons, append_eq_nil_iff] at empty
    exact absurd empty.1 (proper call (mem_cons_self ..)).nonempty

theorem onlyLastGood_frameCalls : OnlyLastGood (frameCalls true (framePackets hlen pairs nlo mask) totalPkt) ↔
      List.IsChain KeepsGathering (framePackets hlen pairs nlo mask).flatten := by
  induction pairs generalizing nlo mask totalPkt with
  | nil => exact ⟨fun _ => .nil, fun _ call mem => absurd mem (by simp [frameCalls, framePackets])⟩
  | cons pair later ih =>
    refine @onlyLastGood_nloCalls _ [] _ _ totalPkt nlo ih ?_ ?_ (by simp) ?_
    · exact frameCalls_nil fun call mem =>
        frameCalls_proper (fun packets inside => framePackets_alike inside) mem
    · intro pkt mem
      exact (nloPackets_size mem).1
    · intro pkt mem
      have later := framePackets_nlo mem
      omega

theorem length_framePackets (counts : ∀ pair ∈ pairs, pair.numPackets < 256) :
    (framePackets hlen pairs nlo mask).flatten.length ≤ 255 * pairs.length := by
  induction pairs generalizing nlo mask with
  | nil => exact le_refl 0
  | cons pair later ih =>
    have one := counts pair (mem_cons_self ..)
    have rest := @ih (mask / 2 ^ pair.numPackets) (nlo + 1) fun other mem => counts other (mem_cons_of_mem _ mem)
    rw [framePackets, flatten_cons, length_append, length_nloPackets, length_cons]
    omega

theorem checkNlPairs_lt (bytes : ∀ pair ∈ pairs, pair.csumErrorBitmap < 256) (small : mask < 2 ^ (8 * nlo))
    (checked : checkNlPairs pairs nlo mask pkts = some result) : result < 2 ^ (8 * (nlo + pairs.length)) := by
  induction pairs generalizing nlo mask pkts with
  | nil =>
    cases checked
    exact small
  | cons pair later ih =>
    unfold checkNlPairs at checked
    split at checked
    · cases checked
    · rw [length_cons, show nlo + (later.length + 1) = nlo + 1 + later.length by omega]
      apply ih (fun other mem => bytes other (mem_cons_of_mem _ mem)) _ checked
      · have byte := bytes pair (mem_cons_self ..)
        apply Nat.or_lt_two_pow
        · exact lt_of_lt_of_le small (Nat.pow_le_pow_right (by decide) (by omega))
        · rw [Nat.shiftLeft_eq, show 8 * (nlo + 1) = 8 + 8 * nlo by omega, pow_add]
          exact Nat.mul_lt_mul_of_pos_right byte (Nat.pow_pos (by decide))

theorem length_nlos : (coalHdrOf pages desc).nlos.length ≤ 6 := by
  unfold RmnetMapV5CoalHeader.nlos
  rw [length_take]
  exact Nat.min_le_right _ _

theorem bitmap_lt {bytes : List UInt8} (mem : pair ∈ (RmnetMapV5CoalHeader.ofBytes bytes).nlPairs) :
    pair.csumErrorBitmap < 256 := by
  obtain ⟨idx, _, rfl⟩ := mem_map.mp mem
  exact byteAt_lt

theorem checkCoalHeader_lt (ok : rmnetFragDataCheckCoalHeader pages desc = some mask) : mask < 2 ^ 48 := by
  unfold rmnetFragDataCheckCoalHeader at ok
  cases read : rmnetFragHeaderPtr pages desc rmnetMapHeaderSize rmnetMapV5CoalHeaderSize with
  | none =>
    rw [read] at ok
    cases ok
  | some header =>
    rw [read] at ok
    dsimp only at ok
    split at ok
    · cases ok
    · have bound := checkNlPairs_lt (fun pair mem => bitmap_lt mem) (by decide) ok
      exact bound

theorem packets_lt : (framePackets base.hlen (coalHdrOf pages desc).nlos 0 mask).flatten.length < 65536 := by
  have few := @length_framePackets (coalHdrOf pages desc).nlos mask 0 base.hlen fun pair mem => (nlos_bounds mem).2
  have nlos := @length_nlos pages desc
  omega

theorem pktIdsRight_slowCalls (frame : ConsistentFrame pages format desc mask base gro zeroCsum) :
    PktIdsRight 0 0 (slowCalls pages desc base mask gro) ↔
      PktIdsFollow gro (framePackets base.hlen (coalHdrOf pages desc).nlos 0 mask).flatten := by
  unfold slowCalls PktIdsFollow
  have told := @told_frameCalls 0 gro (framePackets base.hlen (coalHdrOf pages desc).nlos 0 mask)
  cases gro with
  | false =>
    rw [pktIdsRight_single told, frameCalls_packets, if_neg (by decide)]
    omega
  | true =>
    rw [← @onlyLastGood_frameCalls _ _ 0]
    apply pktIdsRight_gathered told
    · intro idx pkt found err
      rw [frameCalls_packets] at found
      rw [framePackets_csumErr found] at err
      by_contra late
      have small : mask < 2 ^ (0 + idx) := lt_of_lt_of_le (checkCoalHeader_lt frame.accepted)
        (Nat.pow_le_pow_right (by decide) (by omega))
      rw [zero_add] at small
      rw [Nat.testBit_lt_two_pow small] at err
      cases err
    · exact fun call mem => frameCalls_proper (fun packets inside => framePackets_alike inside) mem

theorem onWire_segs (tcp : base.transProto = ipprotoTcp → 20 ≤ base.transLen)
    (inside : base.hlen + offset + callsPayload calls ≤ base.len)
    (carried : List.Forall₂ (CarriesSegment pages base zeroCsum) (emissions first offset pktId calls) segs) :
    List.Forall₂ (Emission.OnWire (identityOf pages base)) (emissions first offset pktId calls)
      (segs.map (wireOf pages base)) := by
  induction calls generalizing first offset pktId segs with
  | nil =>
    cases carried
    exact .nil
  | cons call later ih =>
    rw [callsPayload_cons] at inside
    cases carried with
    | cons one rest =>
      refine .cons (one.onWire tcp ?_) (ih ?_ rest)
      · dsimp only
        omega
      · omega

/-- The metadata that `rmnet_map_segment_coal_skb` reads from the headers of `base`. -/
def mapMeta (base : RmnetFragDescriptor) : RmnetMapCoalMetadata :=
  ⟨base.ipLen, base.transLen, 0, 0, base.ipProto, base.transProto, 0, 0⟩

theorem mapSegmentCoalSkb_eq (whole : WholeHeaders pages desc base)
    (frame : ConsistentFrame pages format desc mask base gro zeroCsum) :
    rmnetMapSegmentCoalSkb (desc.bytes pages) desc.dev.groHw mask allocs =
      if rmnetMapV5CsumBuggy (coalHdrOf pages desc) ∧ ¬zeroCsum then
        [wholeSkb (base.bytes pages) (mapMeta base) ((coalHdrOf pages desc).nlPairs.headD ⟨0, 0, 0⟩)]
      else if gro ∧ (coalHdrOf pages desc).numNlos = 1 ∧ (coalHdrOf pages desc).csumValid then
        [wholeSkb (base.bytes pages) (mapMeta base) ((coalHdrOf pages desc).nlPairs.headD ⟨0, 0, 0⟩)]
      else ((mapSegmenter (base.bytes pages)).nlos gro (coalHdrOf pages desc).nlos mask
          ⟨mapMeta base, [], allocs⟩).list := by
  have headers := mapCoalHeaders_eq whole frame.parsed
  rw [bytes_pulledDesc] at headers
  unfold rmnetMapSegmentCoalSkb
  rw [frame.facts.bytes]
  dsimp only
  rw [show rmnetMapHeaderSize + rmnetMapV5CoalHeaderSize = 32 from rfl, headers]
  rfl

theorem wholeFrame_wire {csumValid : Bool} (facts : FrameFacts pages desc base mask zeroCsum) :
    wireOf pages base (wholeFrame base (coalHdrOf pages desc) csumValid) =
      (wholeSkb (base.bytes pages) (mapMeta base) ((coalHdrOf pages desc).nlPairs.headD ⟨0, 0, 0⟩)).wire := by
  obtain ⟨idUnset, flagsUnset⟩ := facts.ready.unset
  have seqUnset := facts.seqUnset
  unfold wholeFrame
  rw [idUnset, flagsUnset, seqUnset]
  rfl

theorem wholeSkb_kept : IdentitiesKept (identityOf pages base) 0 0
      [(wholeSkb (base.bytes pages) (mapMeta base) pair).wire] := by
  refine ⟨⟨fun _ => ?_, fun _ => ?_, fun _ _ => ?_⟩, trivial⟩
  · have word := @be16At_lt (base.bytes pages) 4
    change be16At (base.bytes pages) 4 = (be16At (base.bytes pages) 4 + 0) % 65536
    rw [add_zero, Nat.mod_eq_of_lt word]
  · have high := @be16At_lt (base.bytes pages) (base.ipLen + 4)
    have low := @be16At_lt (base.bytes pages) (base.ipLen + 6)
    change be16At (base.bytes pages) (base.ipLen + 4) * 65536 + be16At (base.bytes pages) (base.ipLen + 6) =
      (be16At (base.bytes pages) (base.ipLen + 4) * 65536 + be16At (base.bytes pages) (base.ipLen + 6) + 0) % 4294967296
    omega
  · change (base.bytes pages).length - (base.ipLen + base.transLen) ≤
      0 + ((base.bytes pages).drop (base.ipLen + base.transLen)).length
    rw [length_drop, zero_add]

theorem segmentCoalData_whole (whole : WholeHeaders pages desc base)
    (frame : ConsistentFrame pages format desc mask base gro zeroCsum)
    (fast : ¬SlowPath (coalHdrOf pages desc) gro zeroCsum) : ∃ last after csumValid,
      rmnetFragSegmentCoalData pages desc mask pool [] =
        (last, after, [wholeFrame base (coalHdrOf pages desc) csumValid]) ∧
      rmnetMapSegmentCoalSkb (desc.bytes pages) desc.dev.groHw mask allocs =
        [wholeSkb (base.bytes pages) (mapMeta base) ((coalHdrOf pages desc).nlPairs.headD ⟨0, 0, 0⟩)] := by
  have facts := frame.facts
  have parsed := frame.parsed
  have enough : rmnetMapHeaderSize + rmnetMapV5CoalHeaderSize ≤ desc.len := le_of_lt facts.long
  obtain ⟨first, pulled⟩ := @rmnetFragPull_eq pool desc (rmnetMapHeaderSize + rmnetMapV5CoalHeaderSize) facts.long
  rw [mapSegmentCoalSkb_eq whole frame]
  unfold pulledDesc at parsed
  unfold rmnetFragSegmentCoalData
  rw [rmnetFragCopyData_eq, if_pos enough]
  rw [pulled]
  dsimp only
  rw [parsed]
  change ∃ last after csumValid, (if rmnetMapV5CsumBuggy (coalHdrOf pages desc) ∧ ¬zeroCsum then _ else _) =
      (last, after, [wholeFrame base (coalHdrOf pages desc) csumValid]) ∧ _
  by_cases buggy : rmnetMapV5CsumBuggy (coalHdrOf pages desc) ∧ ¬zeroCsum
  · rw [if_pos buggy, if_pos buggy]
    exact ⟨_, _, _, rfl, rfl⟩
  rw [if_neg buggy, if_neg buggy]
  have taken : gro ∧ (coalHdrOf pages desc).numNlos = 1 ∧ (coalHdrOf pages desc).csumValid := by
    by_contra none
    exact fast ⟨buggy, none⟩
  rw [if_pos taken]
  refine ⟨_, _, _, if_pos taken, rfl⟩

theorem slow_onWire (whole : WholeHeaders pages desc base)
    (frame : ConsistentFrame pages format desc mask base gro zeroCsum)
    (slow : SlowPath (coalHdrOf pages desc) gro zeroCsum) (succeed : pool.AllocsSucceed)
    (skbsSucceed : ∀ out ∈ allocs, out = true) :
    ∃ last after segs, rmnetFragSegmentCoalData pages desc mask pool [] = (last, after, segs) ∧
      List.Forall₂ (Emission.OnWire (identityOf pages base))
        (emissions 0 0 0 (slowCalls pages desc base mask gro)) (segs.map (wireOf pages base)) ∧
      List.Forall₂ (Emission.OnWire (identityOf pages base)) (emissions 0 0 0 (slowCalls pages desc base mask gro))
        ((rmnetMapSegmentCoalSkb (desc.bytes pages) desc.dev.groHw mask allocs).map wire) := by
  have facts := frame.facts
  have paid := facts.payload
  have short := facts.short
  rw [← @payload_frameCalls gro _ 0] at paid
  obtain ⟨last, after, segs, run, carried⟩ := @segmentCoalData_slow _ _ _ _ _ _ _ [] _ frame slow succeed
  have len := @length_bytes pages base
  refine ⟨last, after, segs, run, onWire_segs whole.tcp ?_ carried, ?_⟩
  · unfold slowCalls
    omega
  · rw [mapSegmentCoalSkb_eq whole frame, if_neg slow.1, if_neg slow.2, forall₂_map_right_iff]
    have hdr : base.hlen = (mapMeta base).ipLen + (mapMeta base).transLen := rfl
    have lawful := @mapSegmenter_lawful (mapMeta base) whole.ipv4 whole.tcp (base.bytes pages) (by omega) (by omega)
    rw [← hdr] at lawful
    obtain ⟨size, emitted⟩ := @nlos_emitted _ _ _ _ _ _ _ _ ⟨⟨mapMeta base, [], allocs⟩, mask, 0⟩
      gro (coalHdrOf pages desc).nlos 0 0 0 0 0 lawful ⟨0, rfl, skbsSucceed⟩ rfl
      (fun pair mem => (nlos_bounds mem).2) (by dsimp only; omega)
    obtain ⟨skbs, listed, shown⟩ := emitted.segs
    unfold Segmenter.nlos
    rw [listed]
    exact shown

theorem Forall₂.same (onWire : List.Forall₂ (Emission.OnWire frame) emitted wires)
    (otherOnWire : List.Forall₂ (Emission.OnWire frame) emitted others) :
    List.Forall₂ (SameIdentity frame) wires others := by
  induction onWire generalizing others with
  | nil =>
    cases otherOnWire
    exact .nil
  | cons one rest ih =>
    cases otherOnWire with
    | cons other later => exact .cons (one.same other) (ih later)

/-- Both implementations give the segments the same identities, those of the packets exactly where the `pkt_id`s
follow them. -/
theorem identities_iff {allocs : List Bool} (whole : WholeHeaders pages desc base)
    (frame : ConsistentFrame pages format desc mask base gro zeroCsum)
    (succeed : pool.AllocsSucceed) (skbsSucceed : ∀ outcome ∈ allocs, outcome = true) :
    ∃ last after segs skbs, rmnetFragSegmentCoalData pages desc mask pool [] = (last, after, segs) ∧
      rmnetMapSegmentCoalSkb (desc.bytes pages) desc.dev.groHw mask allocs = skbs ∧
      List.Forall₂ (SameIdentity (identityOf pages base)) (segs.map (wireOf pages base)) (skbs.map wire) ∧
      (IdentitiesKept (identityOf pages base) 0 0 (segs.map (wireOf pages base)) ∧
          IdentitiesKept (identityOf pages base) 0 0 (skbs.map wire) ↔
        (SlowPath (coalHdrOf pages desc) gro zeroCsum → base.ipProto = 4 →
          PktIdsFollow gro (framePackets base.hlen (coalHdrOf pages desc).nlos 0 mask).flatten)) := by
  by_cases slow : SlowPath (coalHdrOf pages desc) gro zeroCsum
  · obtain ⟨last, after, segs, run, onWire, otherOnWire⟩ :=
      slow_onWire whole frame slow succeed skbsSucceed
    have few : 0 + (callsPackets (slowCalls pages desc base mask gro)).length < 65536 := by
      unfold slowCalls
      rw [frameCalls_packets, zero_add]
      exact packets_lt
    refine ⟨last, after, segs, _, run, rfl, Forall₂.same onWire otherOnWire, ?_⟩
    rw [identitiesKept_iff few (by decide) onWire, identitiesKept_iff few (by decide) otherOnWire,
      and_self, pktIdsRight_slowCalls frame]
    have four : (identityOf pages base).ipv4 = true ↔ base.ipProto = 4 := decide_eq_true_iff
    rw [four]
    exact ⟨fun right _ => right, fun right => right slow⟩
  · have one : ∃ last after csumValid, rmnetFragSegmentCoalData pages desc mask pool [] =
          (last, after, [wholeFrame base (coalHdrOf pages desc) csumValid]) ∧
        rmnetMapSegmentCoalSkb (desc.bytes pages) desc.dev.groHw mask allocs =
          [wholeSkb (base.bytes pages) (mapMeta base)
            ((coalHdrOf pages desc).nlPairs.headD ⟨0, 0, 0⟩)] :=
      segmentCoalData_whole whole frame slow
    obtain ⟨last, after, csumValid, run, mapRun⟩ := one
    have wire := @wholeFrame_wire _ _ _ _ _ csumValid frame.facts
    refine ⟨last, after, _, _, run, mapRun, ?_, ?_⟩
    · rw [map_singleton, wire]
      exact .cons ⟨rfl, rfl, fun _ => rfl, fun _ => rfl, fun _ => rfl⟩ .nil
    · rw [map_singleton, wire]
      exact ⟨fun _ taken => absurd taken slow, fun _ => ⟨wholeSkb_kept, wholeSkb_kept⟩⟩

/-- One NLO of three UDP packets with a byte each; the mask of checksum errors is `bitmap`. -/
def threeBytes (bitmap : UInt8) : List UInt8 :=
  [0x40, 0, 0, 31] ++ [2, 0x10, 0, 0, 0, 29, bitmap, 3] ++ List.replicate 20 0 ++
    [0x45, 0, 0, 31, 0, 7, 0, 0, 64, 17, 0, 0, 1, 2, 3, 4, 5, 6, 7, 8] ++ [0, 1, 0, 2, 0, 11, 0, 5] ++ [21, 22, 23]

def threePages (bitmap : UInt8) : Pages := fun _ place => (threeBytes bitmap).getD place 0

def threeFrame : RmnetFragDescriptor :=
  { (zeroed 0 0).append [⟨0, 0, 63⟩] with dev := ⟨true, true⟩ }

def threeBase : RmnetFragDescriptor :=
  { pulledDesc threeFrame with
    ipProto := 4, ipLen := 20, transProto := 17, transLen := 8, hdrsValid := true }

theorem threeFrame_whole (bitmap : UInt8) : WholeHeaders (threePages bitmap) threeFrame threeBase :=
  ⟨by decide, by decide, fun six => absurd six (by decide), fun tcp => absurd tcp (by decide)⟩

theorem identities_iff_three : ∃ last after segs skbs,
      rmnetFragSegmentCoalData (threePages 1) threeFrame 1 ⟨[1, 2], 3, [], 1⟩ [] = (last, after, segs) ∧
      rmnetMapSegmentCoalSkb (threeFrame.bytes (threePages 1)) true 1 [] = skbs ∧
      IdentitiesKept (identityOf (threePages 1) threeBase) 0 0 (segs.map (wireOf (threePages 1) threeBase)) ∧
      IdentitiesKept (identityOf (threePages 1) threeBase) 0 0 (skbs.map wire) := by
  have frame : ConsistentFrame (threePages 1) ⟨false, true, false, false, false⟩ threeFrame 1 threeBase
      true false :=
    ⟨⟨by decide +kernel, 0, 0, [⟨0, 0, 63⟩], ⟨true, true⟩, 0, rfl⟩, by decide +kernel,
      by decide +kernel, by decide +kernel, by decide +kernel⟩
  obtain ⟨last, after, segs, skbs, run, mapRun, _, kept⟩ :=
    identities_iff (threeFrame_whole 1) frame
      (fun outcome (member : outcome ∈ (⟨[1, 2], 3, [], 1⟩ : RmnetFragDescriptorPool).allocs) =>
        by cases member)
      (fun outcome (member : outcome ∈ []) => by cases member)
  exact ⟨last, after, segs, skbs, run, mapRun, kept.mpr fun _ _ => by decide +kernel⟩

/-- Between two good packets, a bad one gets the identification of the third, in both implementations. -/
theorem identities_lost_behind_run :
    ConsistentFrame (threePages 2) ⟨false, true, false, false, false⟩ threeFrame 2 threeBase true false ∧
      WholeHeaders (threePages 2) threeFrame threeBase ∧ ¬IdentitiesKept (identityOf (threePages 2) threeBase) 0 0
        ((rmnetFragSegmentCoalData (threePages 2) threeFrame 2 ⟨[1, 2], 3, [], 1⟩ []).2.2.map
          (wireOf (threePages 2) threeBase)) ∧
      ¬IdentitiesKept (identityOf (threePages 2) threeBase) 0 0
        ((rmnetMapSegmentCoalSkb (threeFrame.bytes (threePages 2)) true 2 []).map
          wire) := by
  refine ⟨⟨⟨by decide +kernel, 0, 0, [⟨0, 0, 63⟩], ⟨true, true⟩, 0, rfl⟩, by decide +kernel,
    by decide +kernel, by decide +kernel, by decide +kernel⟩, threeFrame_whole 2, ?_, ?_⟩
  · exact fun kept => absurd (kept.2.1.ipId rfl) (by decide +kernel)
  · exact fun kept => absurd (kept.2.1.ipId rfl) (by decide +kernel)

end KernelModules.Rmnet

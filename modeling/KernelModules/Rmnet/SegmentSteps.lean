import KernelModules.Rmnet.Segment

namespace KernelModules.Rmnet

open Data RmnetFragDescriptor

namespace RmnetFragDescriptor

def cursor (base : RmnetFragDescriptor) (gsoSize gsoSegs dataOffset pktId : Nat) : RmnetFragDescriptor :=
  { base with gsoSize, gsoSegs, dataOffset, pktId }

def hlen (base : RmnetFragDescriptor) : Nat :=
  base.ipLen + base.transLen

end RmnetFragDescriptor

/-- A descriptor whose headers were read: the reads that segmenting makes succeed again. -/
structure CoalReady (pages : Pages) (base : RmnetFragDescriptor) (zeroCsum : Bool) : Prop where
  ip : base.ipProto = 4 → 20 ≤ base.len
  tcp : base.transProto = ipprotoTcp → base.ipLen + 20 ≤ base.len
  udp : base.transProto = ipprotoUdp → base.ipLen + 8 ≤ base.len
  trans : base.transProto = ipprotoTcp ∨ base.transProto = ipprotoUdp
  zero : zeroCsum = decide (base.transProto = ipprotoUdp ∧ base.ipProto = 4 ∧
    be16At (base.bytes pages) (base.ipLen + 6) = 0)
  unset : base.ipIdSet = false ∧ base.tcpFlagsSet = false

/-- `th->seq` of the frame. -/
def frameSeq (pages : Pages) (base : RmnetFragDescriptor) : Nat :=
  be16At (base.bytes pages) (base.ipLen + 4) * 65536 + be16At (base.bytes pages) (base.ipLen + 6)

def frameFlags (pages : Pages) (base : RmnetFragDescriptor) : Nat :=
  be16At (base.bytes pages) (base.ipLen + 12)

/-- `seg` is the segment that the emission stands for. -/
structure CarriesSegment (pages : Pages) (base : RmnetFragDescriptor) (zeroCsum : Bool)
    (emission : Emission) (seg : RmnetFragDescriptor) : Prop where
  bytes : seg.bytes pages = (base.bytes pages).take base.hlen ++
    ((base.bytes pages).drop (base.hlen + emission.offset)).take (payloadOf emission.call.run)
  gsoSize : ∀ packet ∈ emission.call.run, packet.size = seg.gsoSize
  gsoSegs : seg.gsoSegs = emission.call.run.length
  csumValid : seg.csumValid = (emission.call.csumValid || zeroCsum)
  ipId : seg.ipIdSet = decide (base.ipProto = 4) ∧ (base.ipProto = 4 →
    seg.ipId = (be16At (base.bytes pages) 4 + emission.pktId) % 65536)
  tcpSeq : base.transProto = ipprotoTcp → seg.tcpSeqSet = true ∧
    seg.tcpSeq = (frameSeq pages base + emission.offset) % 4294967296
  tcpFlags : seg.tcpFlagsSet = decide (base.transProto = ipprotoTcp ∧ finOrPsh (frameFlags pages base) ∧
      base.hlen + emission.offset + payloadOf emission.call.run < base.len) ∧
    (seg.tcpFlagsSet → seg.tcpFlags = clearFinPsh (frameFlags pages base))

variable {pages : Pages} {base desc src : RmnetFragDescriptor} {zeroCsum csumValid : Bool}
  {pool : RmnetFragDescriptorPool} {list : List RmnetFragDescriptor} {run : List CoalPacket}
  {size offset pktId totalPkt first off len : Nat}

theorem addFragsFrom_succeeds (succeed : pool.AllocsSucceed) (inside : off + len ≤ src.len) :
    ∃ count, rmnetFragDescriptorAddFragsFrom desc pool src off len =
      (some (desc.append (carve src.frags off len)), pool.consumed count) := by
  obtain ⟨count, ⟨_, added⟩ | ⟨_, fails⟩⟩ := @addFragsFrom_cases pool desc off len src
  · exact ⟨count, added⟩
  · exact absurd ⟨succeed, inside⟩ fails

theorem be16At_part {bytes : List UInt8} (lt : place + 1 < count) :
    be16At ((bytes.drop start).take count) place = be16At bytes (start + place) := by
  unfold be16At
  rw [byteAt_take (by omega), byteAt_take lt, byteAt_drop, byteAt_drop, add_assoc]

theorem headerPtr_read (inside : off + len ≤ desc.len) :
    rmnetFragHeaderPtr pages desc off len = some (((desc.bytes pages).drop off).take len) := by
  rw [rmnetFragHeaderPtr_eq, if_pos inside]

def tcpStamped (pages : Pages) (coalDesc newDesc : RmnetFragDescriptor) (limit : Nat) : RmnetFragDescriptor :=
  let stamped := { newDesc with
    tcpSeqSet := true
    tcpSeq := (frameSeq pages coalDesc + coalDesc.dataOffset) % 4294967296 }
  if finOrPsh (frameFlags pages coalDesc) ∧ limit < coalDesc.len then
    { stamped with tcpFlagsSet := true, tcpFlags := clearFinPsh (frameFlags pages coalDesc) }
  else stamped

theorem segmentTransport_tcp (tcp : src.transProto = ipprotoTcp)
    (inside : src.ipLen + 20 ≤ src.len) : segmentTransport pages src desc off len csumValid =
      some (tcpStamped pages src desc (off + len), csumValid) := by
  unfold segmentTransport tcpStamped frameFlags
  rw [if_pos tcp, headerPtr_read inside]
  dsimp only
  rw [be16At_part (by decide), be16At_part (by decide), be16At_part (by decide)]
  split <;> rfl

theorem segmentTransport_udp (udp : src.transProto = ipprotoUdp) (inside : src.ipLen + 8 ≤ src.len) :
    segmentTransport pages src desc off len csumValid = some (desc, csumValid || decide (src.ipProto = 4 ∧
        be16At (src.bytes pages) (src.ipLen + 6) = 0)) := by
  have other : src.transProto ≠ ipprotoTcp := by
    rw [udp]
    decide
  unfold segmentTransport
  rw [if_neg other, if_pos udp, headerPtr_read inside]
  dsimp only
  rw [be16At_part (by decide)]

theorem segmentIp_carries (inside : src.ipProto = 4 → 20 ≤ src.len) :
    ∃ newDesc, segmentIp pages src desc = some newDesc ∧
      (∃ ipIdSet ipId, newDesc = { desc with ipIdSet, ipId }) ∧
      (desc.ipIdSet = false → newDesc.ipIdSet = decide (src.ipProto = 4)) ∧ (src.ipProto = 4 →
        newDesc.ipId = (be16At (src.bytes pages) 4 + src.pktId) % 65536) := by
  unfold segmentIp
  by_cases four : src.ipProto = 4
  · rw [if_pos four, headerPtr_read (by exact inside four)]
    dsimp only
    rw [be16At_part (by decide)]
    exact ⟨_, rfl, ⟨_, _, rfl⟩, fun _ => (decide_eq_true four).symm, fun _ => rfl⟩
  · rw [if_neg four]
    refine ⟨desc, rfl, ⟨_, _, rfl⟩, fun unset => ?_, fun other => absurd other four⟩
    rw [unset, decide_eq_false four]

theorem tcpStamped_eq : ∃ tcpFlagsSet tcpFlags, tcpStamped pages src desc len = { desc with
      tcpSeqSet := true
      tcpSeq := (frameSeq pages src + src.dataOffset) % 4294967296
      tcpFlagsSet, tcpFlags } ∧
    (desc.tcpFlagsSet = false → tcpFlagsSet = decide (finOrPsh (frameFlags pages src) ∧ len < src.len) ∧
      (tcpFlagsSet → tcpFlags = clearFinPsh (frameFlags pages src))) := by
  unfold tcpStamped
  by_cases clears : finOrPsh (frameFlags pages src) ∧ len < src.len
  · rw [if_pos clears]
    exact ⟨true, _, rfl, fun _ => ⟨(decide_eq_true clears).symm, fun _ => rfl⟩⟩
  · rw [if_neg clears]
    refine ⟨desc.tcpFlagsSet, desc.tcpFlags, rfl, fun unset => ⟨?_, fun set => ?_⟩⟩
    · rw [unset, decide_eq_false clears]
    · rw [unset] at set
      cases set

theorem segmentData_eq (got : rmnetGetFragDescriptor pool = (some taken, afterGet))
    (head : rmnetFragDescriptorAddFragsFrom (copiedDesc taken src) afterGet src 0
      (src.ipLen + src.transLen) = (some headed, afterHead))
    (data : rmnetFragDescriptorAddFragsFrom headed afterHead src
      (src.ipLen + src.transLen + src.dataOffset) (src.gsoSize * src.gsoSegs) =
        (some filled, after)) (transport : segmentTransport pages src filled
      (src.ipLen + src.transLen + src.dataOffset) (src.gsoSize * src.gsoSegs)
        csumValid = some (carried, valid)) (ip : segmentIp pages src carried = some newDesc) :
    rmnetFragSegmentData pages src pool list pktId csumValid = ({ src with
          dataOffset := (src.dataOffset + src.gsoSize * src.gsoSegs) % 65536
          pktId := (pktId + 1) % 256
          gsoSegs := 0 },
        after, list ++ [{ newDesc with csumValid := valid }]) := by
  unfold rmnetFragSegmentData
  rw [got]
  dsimp only
  rw [head]
  dsimp only
  rw [data]
  dsimp only
  rw [transport]
  dsimp only
  rw [ip]

theorem segmentTransport_carries (ready : CoalReady pages base zeroCsum)
    (same : ∃ gsoSize gsoSegs, src = base.cursor gsoSize gsoSegs offset pktId)
    (unset : desc.tcpFlagsSet = false) : ∃ carried, segmentTransport pages src desc off len csumValid =
        some (carried, csumValid || zeroCsum) ∧
      (∃ tcpSeqSet tcpSeq tcpFlagsSet tcpFlags, carried = { desc with tcpSeqSet, tcpSeq, tcpFlagsSet, tcpFlags }) ∧
      (base.transProto = ipprotoTcp → carried.tcpSeqSet = true ∧
        carried.tcpSeq = (frameSeq pages base + offset) % 4294967296) ∧
      carried.tcpFlagsSet = decide (base.transProto = ipprotoTcp ∧
        finOrPsh (frameFlags pages base) ∧ off + len < base.len) ∧
      (carried.tcpFlagsSet → carried.tcpFlags = clearFinPsh (frameFlags pages base)) := by
  obtain ⟨gsoSize, gsoSegs, rfl⟩ := same
  rcases ready.trans with tcp | udp
  · have valid : zeroCsum = false := by
      rw [ready.zero, tcp]
      rfl
    obtain ⟨tcpFlagsSet, tcpFlags, stamped, flags⟩ := @tcpStamped_eq pages desc
      (base.cursor gsoSize gsoSegs offset pktId) (off + len)
    obtain ⟨set, cleared⟩ := flags unset
    refine ⟨_, ?_, ⟨_, _, _, _, stamped⟩, ?_, ?_, ?_⟩
    · rw [valid, Bool.or_false]
      exact segmentTransport_tcp tcp (ready.tcp tcp)
    · intro _
      rw [stamped]
      exact ⟨rfl, rfl⟩
    · rw [stamped]
      simp only [tcp, true_and]
      exact set
    · rw [stamped]
      exact cleared
  · have other : ¬base.transProto = ipprotoTcp := by
      rw [udp]
      decide
    refine ⟨desc, ?_, ⟨_, _, _, _, rfl⟩, fun tcp => absurd tcp other, ?_, ?_⟩
    · rw [@segmentTransport_udp pages desc (base.cursor gsoSize gsoSegs offset pktId) csumValid
        off len udp (ready.udp udp), ready.zero]
      simp only [udp, true_and]
      rfl
    · rw [unset, decide_eq_false fun both => other both.1]
    · intro set
      rw [unset] at set
      cases set

theorem segmentData_fills (succeed : pool.AllocsSucceed)
    (whole : src.ipLen + src.transLen + src.dataOffset + len ≤ src.len) :
    ∃ taken afterGet headed afterHead filled after, rmnetGetFragDescriptor pool = (some taken, afterGet) ∧
      rmnetFragDescriptorAddFragsFrom (copiedDesc taken src) afterGet src 0
        (src.ipLen + src.transLen) = (some headed, afterHead) ∧ rmnetFragDescriptorAddFragsFrom headed afterHead src
        (src.ipLen + src.transLen + src.dataOffset) len = (some filled, after) ∧
      after.AllocsSucceed ∧ filled.bytes pages = (src.bytes pages).take src.hlen ++
        ((src.bytes pages).drop (src.hlen + src.dataOffset)).take len ∧
      filled.gsoSize = src.gsoSize ∧ filled.gsoSegs = src.gsoSegs ∧
      filled.ipIdSet = src.ipIdSet ∧ filled.tcpFlagsSet = src.tcpFlagsSet := by
  obtain ⟨num, ticket, afterGet, got, getSucceed⟩ := getFragDescriptor_succeeds succeed
  obtain ⟨head, headed⟩ := @addFragsFrom_succeeds (copiedDesc (.zeroed num ticket) src) src
    afterGet 0 (src.ipLen + src.transLen) getSucceed (by omega)
  obtain ⟨tail, filled⟩ := @addFragsFrom_succeeds ((copiedDesc (.zeroed num ticket) src).append
      (carve src.frags 0 (src.ipLen + src.transLen))) src (afterGet.consumed head)
    (src.ipLen + src.transLen + src.dataOffset) len (getSucceed.consumed head) whole
  refine ⟨_, _, _, _, _, _, got, headed, filled, (getSucceed.consumed head).consumed tail, ?_, rfl, rfl, rfl, rfl⟩
  rw [bytes_append, bytes_append, contents_carve, contents_carve]
  rfl

theorem segmentData_emits (ready : CoalReady pages base zeroCsum) (succeed : pool.AllocsSucceed)
    (alike : ∀ pkt ∈ run, pkt.size = size) (inside : base.hlen + offset + payloadOf run ≤ base.len)
    (small : offset + payloadOf run < 65536) :
    ∃ seg after, rmnetFragSegmentData pages (base.cursor size run.length offset pktId) pool list
        (totalPkt % 256) csumValid =
      (base.cursor size 0 (offset + payloadOf run) ((totalPkt + 1) % 256), after, list ++ [seg]) ∧ after.AllocsSucceed ∧
      CarriesSegment pages base zeroCsum ⟨⟨run, totalPkt, csumValid⟩, first, offset, pktId⟩ seg := by
  have dlen := payloadOf_same alike
  rw [dlen] at inside small
  obtain ⟨taken, afterGet, headed, afterHead, filled, after, got, head, data, afterSucceed, bytes,
      gsoSize, gsoSegs, ipIdSet, tcpFlagsSet⟩ :=
    @segmentData_fills pages (base.cursor size run.length offset pktId) pool (size * run.length) succeed inside
  obtain ⟨carried, transport, ⟨tcpSeqSet, tcpSeq, flagsSet, tcpFlags, kept⟩, seq, set, flags⟩ :=
    @segmentTransport_carries pages base filled (base.cursor size run.length offset pktId) zeroCsum
      csumValid offset pktId (base.ipLen + base.transLen + offset) (size * run.length) ready
      ⟨_, _, rfl⟩ (tcpFlagsSet.trans ready.unset.2)
  obtain ⟨newDesc, ip, ⟨idSet, ipId, same⟩, identified, identity⟩ :=
    @segmentIp_carries pages carried (base.cursor size run.length offset pktId) ready.ip
  have result := @segmentData_eq pages _ csumValid pool list (totalPkt % 256) _ _ _ _ _ _ _ _ _
    got head data transport ip
  have moved : (offset + size * run.length) % 65536 = offset + size * run.length :=
    Nat.mod_eq_of_lt small
  have num : (totalPkt % 256 + 1) % 256 = (totalPkt + 1) % 256 := by omega
  refine ⟨{ newDesc with csumValid := csumValid || zeroCsum }, after, result.trans ?_, afterSucceed, ?_⟩
  · unfold cursor
    rw [dlen, moved, num]
  · subst same
    have unset : carried.ipIdSet = false := by
      rw [kept]
      exact ipIdSet.trans ready.unset.1
    constructor
    · rw [dlen]
      rw [kept]
      exact bytes
    · intro pkt mem
      rw [kept]
      exact (alike pkt mem).trans gsoSize.symm
    · rw [kept]
      exact gsoSegs
    · rfl
    · exact ⟨identified unset, identity⟩
    · exact seq
    · rw [dlen]
      exact ⟨set, flags⟩

def FragHolds (base : RmnetFragDescriptor) (state : FragSegmenting)
    (size held offset pktId : Nat) : Prop :=
  state.coalDesc = base.cursor size held offset pktId ∧ state.pool.AllocsSucceed

theorem fragSegmenter_lawful (ready : CoalReady pages base zeroCsum) (hdr : base.hlen ≤ base.len)
    (short : base.len < 65536) : (fragSegmenter pages).Lawful base.hlen (base.len - base.hlen) FragSegmenting.list
      (FragHolds base) (CarriesSegment pages base zeroCsum) := by
  constructor
  · exact (by decide : 256 ≤ 65536)
  · intro state size held offset pktId holds
    change state.coalDesc.gsoSegs = held
    rw [holds.1]
    rfl
  · intro state size held offset pktId count holds
    refine ⟨⟨?_, holds.2⟩, rfl⟩
    change { state.coalDesc with gsoSegs := count } = _
    rw [holds.1]
    rfl
  · intro state size offset pktId pktLen holds
    refine ⟨⟨?_, holds.2⟩, rfl⟩
    change { state.coalDesc with
      gsoSize := payloadSize pktLen (state.coalDesc.ipLen + state.coalDesc.transLen) } = _
    rw [holds.1]
    rfl
  · intro state size offset pktId run totalPkt csumValid first holds alike inside
    obtain ⟨seg, after, result, succeed, carries⟩ := @segmentData_emits pages base zeroCsum
      csumValid state.pool state.list run size offset pktId totalPkt first ready holds.2 alike
      (by omega) (by omega)
    have segmented : (fragSegmenter pages).segment state (totalPkt % 256) csumValid =
        ⟨base.cursor size 0 (offset + payloadOf run) ((totalPkt + 1) % 256), after, state.list ++ [seg]⟩ := by
      unfold fragSegmenter
      dsimp only
      rw [holds.1, result]
    rw [segmented]
    exact ⟨⟨rfl, succeed⟩, seg, rfl, carries⟩

end KernelModules.Rmnet

import KernelModules.Rmnet.LinearParse

namespace KernelModules.Rmnet

open RmnetMapHeader List

/-! # Uplink frames and the walk that takes them apart -/

/-- `csumInfo` is what the checksum header says behind its type. -/
structure EgressSkb where
  data : List UInt8
  tailroom : Nat
  muxId : UInt8
  csumInfo : UInt8

/-- The flags of `port->data_format` that decide on the headers of a packet -/
structure EgressFormat where
  mapCksumv5 : Bool
  priority : Bool

def rmnetMapNoPadBytes : Nat := 0

/-- The header that `rmnet_map_v5_checksum_uplink_packet` puts in front of a packet that is not to be segmented;
its `header_type` is 2.  Priority asks for one as well. -/
def rmnetMapV5ChecksumUplinkPacket (format : EgressFormat) (skb : EgressSkb) : List UInt8 :=
  if format.mapCksumv5 ∨ format.priority then [4, skb.csumInfo, 0, 0] else []

/-- `ALIGN(map_datalen, 4) - map_datalen`, where there is padding -/
def mapPadding (pad mapDatalen : Nat) : Nat :=
  if pad = rmnetMapNoPadBytes then 0 else (4 - mapDatalen % 4) % 4

/-- `rmnet_map_add_map_header`, and the channel that is filled in behind it; the first `hdrlen` bytes of `data`
are the checksum header. -/
def rmnetMapAddMapHeader (format : EgressFormat) (hdrlen pad tailroom : Nat) (muxId : UInt8) (data : List UInt8) :
    Option (List UInt8) :=
  let mapDatalen := data.length - hdrlen
  let nextHdr := format.mapCksumv5.toNat * 64
  if pad = rmnetMapNoPadBytes then
    some ([.ofNat nextHdr, muxId, .ofNat (mapDatalen / 256), .ofNat mapDatalen] ++ data)
  else
    let padding := mapPadding pad mapDatalen
    let pktLen := mapDatalen + padding
    if tailroom < padding then none
    else some ([.ofNat (padding + nextHdr), muxId, .ofNat (pktLen / 256), .ofNat pktLen] ++ data ++
      replicate padding 0)

/-- The frame of a packet; `rmnet_map_egress_handler` asks for no padding. -/
def egressFrame (format : EgressFormat) (pad : Nat) (skb : EgressSkb) : Option (List UInt8) :=
  let csumHeader := rmnetMapV5ChecksumUplinkPacket format skb
  rmnetMapAddMapHeader format csumHeader.length pad skb.tailroom skb.muxId (csumHeader ++ skb.data)

/-- The channel of a frame, and its packet without the padding. -/
def readBack (format : EgressFormat) (frame : List UInt8) : Nat × List UInt8 :=
  let maph := ofBytes frame
  (maph.muxId, (frame.drop (if format.mapCksumv5 ∨ format.priority then 8 else 4)).take (maph.pktLen - maph.padLen))

/-- What the receiving side has to be set to -/
def uplinkFormat (format : EgressFormat) : IngressDataFormat :=
  ⟨false, format.mapCksumv5 || format.priority, false, false, false⟩

def frameBytes (format : EgressFormat) (padding : Nat) (skb : EgressSkb) : List UInt8 :=
  let pktLen := skb.data.length + padding
  [.ofNat (padding + format.mapCksumv5.toNat * 64), skb.muxId, .ofNat (pktLen / 256), .ofNat pktLen] ++
    rmnetMapV5ChecksumUplinkPacket format skb ++ skb.data ++ replicate padding 0

variable {format : EgressFormat} {skbs : List EgressSkb} {frames : List (List UInt8)} {pad padding : Nat}

theorem egressFrame_bytes (built : egressFrame format pad skb = some frame) :
    frame = frameBytes format (mapPadding pad skb.data.length) skb := by
  unfold egressFrame rmnetMapAddMapHeader at built
  simp only [length_append, Nat.add_sub_cancel_left] at built
  split at built
  · rename_i none
    cases built
    simp [frameBytes, mapPadding, none]
  · split at built
    · cases built
    · cases built
      simp [frameBytes]

theorem frameBytes_read (nonempty : skb.data ≠ []) (few : padding < 4)
    (short : skb.data.length + padding < 65536) (rest : List UInt8) :
    frameSize (uplinkFormat format) (frameBytes format padding skb ++ rest) =
        some (frameBytes format padding skb).length ∧
      readBack format (frameBytes format padding skb) = (skb.muxId.toNat, skb.data) := by
  have both : (skb.data.length + padding) / 256 % 256 * 256 + (skb.data.length + padding) % 256 =
      skb.data.length + padding := by omega
  have bits : padding % 256 % 64 = padding ∧ (padding + 64) % 256 % 64 = padding ∧
      padding % 256 / 128 % 2 = 0 ∧ (padding + 64) % 256 / 128 % 2 = 0 := by omega
  obtain ⟨cksumv5, priority⟩ := format
  cases cksumv5 <;> cases priority <;>
    simp [frameSize, readBack, ofBytes, be16At, byteAt, rmnetMapHeaderSize, uplinkFormat, frameBytes,
      rmnetMapV5ChecksumUplinkPacket, both, bits, nonempty, v5HeaderSize, rmnetMapHeaderTypeCoalescing,
      rmnetMapHeaderTypeCsumOffload, rmnetMapV5CsumHeaderSize]

theorem egress_frames
    
    (sizes : ∀ skb ∈ skbs, skb.data ≠ [] ∧ skb.data.length + mapPadding pad skb.data.length < 65536)
    (built : skbs.mapM (egressFrame format pad) = some frames) :
    linearFrames (uplinkFormat format) frames.flatten = frames ∧
      frames.map (readBack format) = skbs.map fun skb => (skb.muxId.toNat, skb.data) := by
  induction skbs generalizing frames with
  | nil =>
    cases built
    exact ⟨linearFrames_nil fun size found => absurd (frameSize_gt found).2 (by decide), rfl⟩
  | cons skb later ih =>
    simp only [mapM_cons, Option.bind_eq_bind, Option.bind_eq_some_iff, Option.pure_def, Option.some.injEq] at built
    obtain ⟨frame, first, others, rest, rfl⟩ := built
    obtain ⟨frames, read⟩ := ih (fun skb member => sizes skb (mem_cons_of_mem _ member)) rest
    obtain ⟨nonempty, short⟩ := sizes skb mem_cons_self
    have few : mapPadding pad skb.data.length < 4 := by
      unfold mapPadding
      split <;> omega
    obtain ⟨size, back⟩ := @frameBytes_read format _ skb nonempty few short others.flatten
    rw [← egressFrame_bytes first] at size back
    rw [flatten_cons, linearFrames_cons size (by simp [egressFrame_bytes first, frameBytes]), take_left, drop_left,
      frames, map_cons, map_cons, read, back]
    exact ⟨rfl, rfl⟩

/-- Frames one behind another are walked apart into the same frames, however they are spread over pages, and each
gives its channel and its packet back. -/
theorem egress_round_trip {pages : Pages} {received : SkBuff} {list : List RmnetFragDescriptor}
    {pool : RmnetFragDescriptorPool} {fuel : Nat}
    (sizes : ∀ skb ∈ skbs, skb.data ≠ [] ∧ skb.data.length + mapPadding pad skb.data.length < 65536)
    (built : skbs.mapM (egressFrame format pad) = some frames) (paged : received.Paged)
    (sent : received.bytes pages = frames.flatten) (succeed : pool.AllocsSucceed)
    (enough : received.frags.length + received.len < fuel) :
    ∃ descs after, rmnetFragDeaggregate pages (uplinkFormat format) fuel received list pool =
        some (list ++ descs, after) ∧
      descs.map (RmnetFragDescriptor.bytes pages) = frames ∧
      frames.map (readBack format) = skbs.map fun skb => (skb.muxId.toNat, skb.data) := by
  obtain ⟨same, read⟩ := egress_frames sizes built
  obtain ⟨⟨descs, after, run, walked, -⟩, -⟩ :=
    @deaggregate_linear pages (uplinkFormat format) received pool list fuel paged succeed enough
  rw [sent, same] at walked
  exact ⟨descs, after, run, walked, read⟩

def twoSkbs : List EgressSkb := [⟨[69, 0, 1], 0, 3, 128⟩, ⟨[96, 7, 7, 7], 0, 5, 0⟩]

/-- The two frames on a page of 13 bytes and one of 10 -/
def egressPages : Pages := fun page place =>
  ((twoSkbs.filterMap (egressFrame ⟨true, false⟩ rmnetMapNoPadBytes)).flatten).getD (13 * page + place) 0

theorem egress_round_trip_two :
    let received : SkBuff := ⟨⟨[], [⟨0, 0, 13⟩, ⟨1, 0, 10⟩]⟩, 0, []⟩
    ∃ descs after, rmnetFragDeaggregate egressPages (uplinkFormat ⟨true, false⟩) 26 received [] ⟨[0, 1], 2, [], 0⟩ =
        some (descs, after) ∧
      (descs.map (RmnetFragDescriptor.bytes egressPages)).map (readBack ⟨true, false⟩) =
        [(3, [69, 0, 1]), (5, [96, 7, 7, 7])] := by
  intro received
  obtain ⟨descs, after, run, walked, read⟩ := @egress_round_trip ⟨true, false⟩ twoSkbs
    (twoSkbs.filterMap (egressFrame ⟨true, false⟩ rmnetMapNoPadBytes)) rmnetMapNoPadBytes egressPages received []
    ⟨[0, 1], 2, [], 0⟩ 26 (by decide) rfl ⟨rfl, rfl⟩ (by decide) (fun outcome member => by cases member) (by decide)
  exact ⟨descs, after, run, by rw [walked, read]; rfl⟩

end KernelModules.Rmnet

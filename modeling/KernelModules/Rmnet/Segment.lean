import KernelModules.Rmnet.SegmentLoop

namespace KernelModules.Rmnet

open Data

def clearFinPsh (flags : Nat) : Nat :=
  flags &&& 0xFFF6

def finOrPsh (flags : Nat) : Bool :=
  flags &&& 9 != 0

/-- The transport part of the metadata update: the new descriptor and `csum_valid`. -/
def segmentTransport (pages : Pages) (coalDesc newDesc : RmnetFragDescriptor) (offset dlen : Nat)
    (csumValid : Bool) : Option (RmnetFragDescriptor × Bool) :=
  if coalDesc.transProto = ipprotoTcp then match rmnetFragHeaderPtr pages coalDesc coalDesc.ipLen 20 with
    | none => none
    | some th =>
      let newDesc :=
        { newDesc with
          tcpSeqSet := true
          tcpSeq := (be16At th 4 * 65536 + be16At th 6 + coalDesc.dataOffset) % 4294967296 }
      if finOrPsh (be16At th 12) ∧ offset + dlen < coalDesc.len then
        some ({ newDesc with tcpFlagsSet := true, tcpFlags := clearFinPsh (be16At th 12) }, csumValid)
      else some (newDesc, csumValid)
  else if coalDesc.transProto = ipprotoUdp then match rmnetFragHeaderPtr pages coalDesc coalDesc.ipLen 8 with
    | none => none
    | some uh => some (newDesc, csumValid || decide (coalDesc.ipProto = 4 ∧ be16At uh 6 = 0))
  else some (newDesc, csumValid)

def segmentIp (pages : Pages) (coalDesc newDesc : RmnetFragDescriptor) : Option RmnetFragDescriptor :=
  if coalDesc.ipProto = 4 then match rmnetFragHeaderPtr pages coalDesc 0 20 with
    | none => none
    | some iph =>
      some { newDesc with ipIdSet := true, ipId := (be16At iph 4 + coalDesc.pktId) % 65536 }
  else some newDesc

/-- `memcpy` of the coalesced descriptor, without its fragments. -/
def copiedDesc (taken coalDesc : RmnetFragDescriptor) : RmnetFragDescriptor :=
  { coalDesc with
    number := taken.number, ticket := taken.ticket, frags := [], len := 0, len_eq := noFrags_len }

/-- `__rmnet_frag_segment_data`: the coalesced descriptor after it, the pool and the list. -/
def rmnetFragSegmentData (pages : Pages) (coalDesc : RmnetFragDescriptor)
    (pool : RmnetFragDescriptorPool) (list : List RmnetFragDescriptor) (pktId : Nat)
    (csumValid : Bool) : RmnetFragDescriptor × RmnetFragDescriptorPool × List RmnetFragDescriptor :=
  let dlen := coalDesc.gsoSize * coalDesc.gsoSegs
  let hlen := coalDesc.ipLen + coalDesc.transLen
  let offset := hlen + coalDesc.dataOffset
  match rmnetGetFragDescriptor pool with
  | (none, pool) => (coalDesc, pool, list)
  | (some taken, pool) =>
    match rmnetFragDescriptorAddFragsFrom (copiedDesc taken coalDesc) pool coalDesc 0 hlen with
    | (none, pool) => (coalDesc, rmnetRecycleFragDescriptor taken pool, list)
    | (some headed, pool) =>
      match rmnetFragDescriptorAddFragsFrom headed pool coalDesc offset dlen with
      | (none, pool) => (coalDesc, rmnetRecycleFragDescriptor taken pool, list)
      | (some filled, pool) =>
        match segmentTransport pages coalDesc filled offset dlen csumValid with
        | none => (coalDesc, rmnetRecycleFragDescriptor taken pool, list)
        | some (carried, csumValid) =>
          match segmentIp pages coalDesc carried with
          | none => (coalDesc, rmnetRecycleFragDescriptor taken pool, list)
          | some newDesc =>
            ({ coalDesc with
                dataOffset := (coalDesc.dataOffset + dlen) % 65536
                pktId := (pktId + 1) % 256
                gsoSegs := 0 },
              pool, list ++ [{ newDesc with csumValid }])

structure FragSegmenting where
  coalDesc : RmnetFragDescriptor
  pool : RmnetFragDescriptorPool
  list : List RmnetFragDescriptor

/-- The loops of `rmnet_frag_segment_coal_data`. -/
def fragSegmenter (pages : Pages) : Segmenter FragSegmenting :=
  { segs := fun state => state.coalDesc.gsoSegs
    setSegs := fun state gsoSegs => { state with coalDesc := { state.coalDesc with gsoSegs } }
    wrap := 65536
    setPktLen := fun state pktLen =>
      { state with
        coalDesc := { state.coalDesc with
          gsoSize := payloadSize pktLen (state.coalDesc.ipLen + state.coalDesc.transLen) } }
    segment := fun state totalPkt csumValid =>
      let after := rmnetFragSegmentData pages state.coalDesc state.pool state.list totalPkt csumValid
      { coalDesc := after.1, pool := after.2.1, list := after.2.2 } }

def wordSum : List UInt8 → Nat
  | [] => 0
  | [last] => last.toNat * 256
  | first :: second :: later => first.toNat * 256 + second.toNat + wordSum later

def foldCarries (sum : Nat) : Nat :=
  if sum = 0 then 0 else (sum - 1) % 65535 + 1

/-- `!csum_fold(sum)`. -/
def csumFoldZero (sum : Nat) : Bool :=
  foldCarries sum == 65535

def rmnetFragValidateCsum (pages : Pages) (fragDesc : RmnetFragDescriptor) : Bool :=
  match rmnetFragDataPtr fragDesc with
  | none => false
  | some first =>
    let datagramLen := fragDesc.len - fragDesc.ipLen
    let addresses :=
      if fragDesc.ipProto = 4 then (first.piece 12 8).read pages else (first.piece 8 32).read pages
    let pseudo := wordSum addresses + datagramLen + fragDesc.transProto
    csumFoldZero (foldCarries pseudo + wordSum ((first.piece fragDesc.ipLen datagramLen).read pages))

def wholeFrame (coalDesc : RmnetFragDescriptor) (coalHdr : RmnetMapV5CoalHeader)
    (csumValid : Bool) : RmnetFragDescriptor :=
  let pair := coalHdr.nlPairs.headD ⟨0, 0, 0⟩
  { coalDesc with
    csumValid
    gsoSize := payloadSize pair.pktLen (coalDesc.ipLen + coalDesc.transLen)
    gsoSegs := pair.numPackets }

def rmnetFragSegmentCoalData (pages : Pages) (coalDesc : RmnetFragDescriptor) (nloErrMask : Nat)
    (pool : RmnetFragDescriptorPool) (list : List RmnetFragDescriptor) :
    RmnetFragDescriptor × RmnetFragDescriptorPool × List RmnetFragDescriptor :=
  match rmnetFragCopyData pages coalDesc rmnetMapHeaderSize rmnetMapV5CoalHeaderSize with
  | none => (coalDesc, pool, list)
  | some header =>
    match rmnetFragPull coalDesc pool (rmnetMapHeaderSize + rmnetMapV5CoalHeaderSize) with
    | (none, coalDesc, pool) => (coalDesc, pool, list)
    | (some _, pulled, pool) =>
      match coalHeaders pages pulled with
      | none => (pulled, pool, list)
      | some (coalDesc, gro, zeroCsum) =>
        let coalHdr := RmnetMapV5CoalHeader.ofBytes header
        if rmnetMapV5CsumBuggy coalHdr ∧ ¬zeroCsum then
          let whole := wholeFrame coalDesc coalHdr
            (coalDesc.csumValid || rmnetFragValidateCsum pages coalDesc)
          (whole, pool, list ++ [whole])
        else if gro ∧ coalHdr.numNlos = 1 ∧ coalHdr.csumValid then let whole := wholeFrame coalDesc coalHdr true
          (whole, pool, list ++ [whole])
        else
          let done := (fragSegmenter pages).nlos gro coalHdr.nlos nloErrMask
            { coalDesc, pool, list }
          (done.coalDesc, done.pool, done.list)

end KernelModules.Rmnet

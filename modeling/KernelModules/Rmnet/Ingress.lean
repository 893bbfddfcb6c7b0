import KernelModules.Rmnet.Segment

namespace KernelModules.Rmnet

open Data

/-! # The ingress handler (`rmnet_frag_ingress_handler`)

Who owns a descriptor is what counts.  MAP commands act on other state, and a delivered skb is modelled up to the
headers that `rmnet_alloc_skb` rewrites.
-/

def maxSkbFrags : Nat := 17

def addSkbFrags : List SkbFrag → List (List SkbFrag) → List SkbFrag → RmnetFragDescriptorPool →
    List (List SkbFrag) × RmnetFragDescriptorPool
  | [], parts, current, pool => (parts ++ [current], pool)
  | frag :: later, parts, current, pool =>
    if current.length < maxSkbFrags then addSkbFrags later parts (current ++ [frag]) pool
    else match pool.alloc with
      | (true, pool) => addSkbFrags later (parts ++ [current]) [frag] pool
      | (false, pool) => (parts ++ [current], pool)

def skbOf (priority : Nat) (linear : List UInt8) (parts : List (List SkbFrag)) : SkBuff :=
  { linear
    frags := parts.headD []
    priority
    fragList := parts.tail.map fun frags => ⟨[], frags⟩ }

def rmnetAllocSkb (pages : Pages) (fragDesc : RmnetFragDescriptor) (pool : RmnetFragDescriptorPool) :
    Option SkBuff × RmnetFragDescriptor × RmnetFragDescriptorPool :=
  match pool.alloc with
  | (false, pool) => (none, fragDesc, pool)
  | (true, pool) =>
    if fragDesc.hdrsValid then let hdrLen := (fragDesc.ipLen + fragDesc.transLen) % 65536
      let header := (rmnetFragCopyData pages fragDesc 0 hdrLen).getD (List.replicate hdrLen 0)
      if hdrLen = fragDesc.len then (some (skbOf fragDesc.priority header []), fragDesc, pool)
      else match rmnetFragPull fragDesc pool hdrLen with
        | (none, fragDesc, pool) => (none, fragDesc, pool)
        | (some _, fragDesc, pool) =>
          let (parts, pool) := addSkbFrags fragDesc.frags [] [] pool
          (some (skbOf fragDesc.priority header parts), fragDesc, pool)
    else let (parts, pool) := addSkbFrags fragDesc.frags [] [] pool
      (some (skbOf fragDesc.priority [] parts), fragDesc, pool)

structure Ingress where
  pool : RmnetFragDescriptorPool
  delivered : List (Nat × SkBuff)
  perf : List RmnetFragDescriptor

def rmnetFragDeliver (pages : Pages) (ingress : Ingress) (fragDesc : RmnetFragDescriptor) : Ingress :=
  match rmnetAllocSkb pages fragDesc ingress.pool with
  | (skb, left, pool) =>
    { ingress with
      pool := rmnetRecycleFragDescriptor left pool
      delivered := ingress.delivered ++ (skb.map (fragDesc.ticket, ·)).toList }

inductive CsumCheck where
  | invalid
  | bad
  | good

def headerPlace : List SkbFrag → Nat → Nat → Option SkbFrag
  | [], _, _ => none
  | frag :: later, off, len =>
    if off < frag.length then if off + len ≤ frag.length then some (frag.piece off len) else none
    else headerPlace later (off - frag.length) len

def sumFragsLoop (pages : Pages) : List SkbFrag → Nat → Nat → Nat
  | [], _, _ => 0
  | frag :: later, off, len =>
    if len = 0 then 0
    else if off < frag.length then wordSum ((frag.piece off (min len (frag.length - off))).read pages) +
        sumFragsLoop pages later 0 (len - min len (frag.length - off))
    else sumFragsLoop pages later (off - frag.length) len

def checksumTransport (pages : Pages) (fragDesc : RmnetFragDescriptor) (offset csumLen pseudo : Nat) : CsumCheck :=
  let sum := csumFoldZero (foldCarries pseudo + sumFragsLoop pages fragDesc.frags offset csumLen)
  if fragDesc.transProto = ipprotoTcp then if sum then .good else .bad
  else if fragDesc.transProto = ipprotoUdp then match rmnetFragHeaderPtr pages fragDesc offset 8 with
    | none => .invalid
    | some uh =>
      if be16At uh 6 = 0 then if fragDesc.ipProto = 4 then .good else .bad
      else if sum then .good else .bad
  else .invalid

def rmnetFragChecksumPkt (pages : Pages) (fragDesc : RmnetFragDescriptor) : CsumCheck × RmnetFragDescriptor :=
  let offset := rmnetMapHeaderSize + rmnetMapV5CsumHeaderSize
  match rmnetFragHeaderPtr pages fragDesc offset 1 with
  | none => (.invalid, fragDesc)
  | some version =>
    if byteAt version 0 / 16 = 4 then let ipLen := byteAt version 0 % 16 * 4
      let fragDesc := { fragDesc with ipLen }
      match rmnetFragHeaderPtr pages fragDesc offset ipLen with
      | none => (.invalid, fragDesc)
      | some copied =>
        -- a header shorter than its fields is read on behind its end
        let iph :=
          match headerPlace fragDesc.frags offset ipLen with
          | some place => (place.piece 0 (max ipLen 20)).read pages
          | none => copied
        if be16At iph 6 % 16384 ≠ 0 ∨ fragDesc.len - offset < be16At iph 2 then (.invalid, fragDesc)
        else if ¬csumFoldZero (wordSum iph) then (.bad, fragDesc)
        else let csumLen := (be16At iph 2 + 65536 - ipLen) % 65536
          let fragDesc := { fragDesc with ipProto := 4, transProto := byteAt iph 9 }
          let pseudo := wordSum ((iph.drop 12).take 8) + csumLen + byteAt iph 9
          (checksumTransport pages fragDesc (offset + ipLen) csumLen pseudo, fragDesc)
    else if byteAt version 0 / 16 = 6 then match rmnetFragHeaderPtr pages fragDesc offset 40 with
      | none => (.invalid, fragDesc)
      | some ip6h =>
        let fragDesc := { fragDesc with ipProto := 6 }
        match rmnetFragIpv6SkipExthdr pages fragDesc (offset + 40) (byteAt ip6h 6) with
        | none => (.invalid, fragDesc)
        | some (ipLen, protocol, fragOff, _) =>
          if fragOff ≠ 0 then (.invalid, fragDesc)
          else let csumLen := be16At ip6h 4
            let fragDesc := { fragDesc with ipLen := ipLen % 65536 }
            if fragDesc.len - offset < csumLen + ipLen % 65536 then (.invalid, fragDesc)
            else let fragDesc := { fragDesc with transProto := protocol }
              let pseudo := wordSum ((ip6h.drop 8).take 32) + csumLen + protocol
              (checksumTransport pages fragDesc (offset + ipLen % 65536) csumLen pseudo, fragDesc)
    else (.invalid, fragDesc)

def csumOffload (pages : Pages) (fragDesc : RmnetFragDescriptor) (validRequired : Bool) : RmnetFragDescriptor :=
  if ¬fragDesc.dev.rxcsum then fragDesc
  else if validRequired then { fragDesc with csumValid := true }
  else match rmnetFragChecksumPkt pages fragDesc with
    | (.good, fragDesc) => { fragDesc with csumValid := true }
    | (_, fragDesc) => fragDesc

/-- Pulls a header off and trims the padding; NULL is `none`. -/
def pullAndTrim (fragDesc : RmnetFragDescriptor) (pool : RmnetFragDescriptorPool) (header len : Nat) :
    Option RmnetFragDescriptor × RmnetFragDescriptor × RmnetFragDescriptorPool :=
  match rmnetFragPull fragDesc pool header with
  | (none, fragDesc, pool) => (none, fragDesc, pool)
  | (some _, fragDesc, pool) =>
    match rmnetFragTrim fragDesc pool len with
    | (none, fragDesc, pool) => (none, fragDesc, pool)
    | (some _, fragDesc, pool) => (some fragDesc, fragDesc, pool)

/-- The list; `-EINVAL` is `none`. -/
def rmnetFragProcessNextHdrPacket (pages : Pages) (fragDesc : RmnetFragDescriptor)
    (pool : RmnetFragDescriptorPool) (len : Nat) :
    Option (List RmnetFragDescriptor) × RmnetFragDescriptor × RmnetFragDescriptorPool :=
  match rmnetFragHeaderPtr pages fragDesc rmnetMapHeaderSize rmnetMapV5CsumHeaderSize with
  | none => (none, fragDesc, pool)
  | some csumHdr =>
    if byteAt csumHdr 0 / 2 = rmnetMapHeaderTypeCoalescing then
      match rmnetFragDataCheckCoalHeader pages fragDesc with
      | none => (none, fragDesc, pool)
      | some nloErrMask =>
        match rmnetFragSegmentCoalData pages fragDesc nloErrMask pool [] with
        | (fragDesc, pool, list) =>
          if list.head?.map (·.number) ≠ some fragDesc.number then
            (some list, fragDesc, rmnetRecycleFragDescriptor fragDesc pool)
          else (some list, fragDesc, pool)
    else if byteAt csumHdr 0 / 2 = rmnetMapHeaderTypeCsumOffload then
      match pullAndTrim (csumOffload pages fragDesc (byteAt csumHdr 1 / 128 % 2 == 1)) pool
        (rmnetMapHeaderSize + rmnetMapV5CsumHeaderSize) len with
      | (none, fragDesc, pool) => (none, fragDesc, pool)
      | (some kept, fragDesc, pool) => (some [kept], fragDesc, pool)
    else (none, fragDesc, pool)

structure RmnetIngressPort where
  dataFormat : IngressDataFormat
  endpoints : Nat → Option NetDevice
  /-- Whether `rmnet_perf_desc_entry` is set. -/
  perfHook : Bool

def rmnetMaxLogicalEp : Nat := 255

/-- `LL` traffic passes by the perf hook. -/
def lowLatencyPriority : Nat := 0xda1a

def passSegs (pages : Pages) (port : RmnetIngressPort) (skipPerf : Bool) (ingress : Ingress)
    (segs : List RmnetFragDescriptor) : Ingress :=
  if ¬skipPerf ∧ port.perfHook then { ingress with perf := ingress.perf ++ segs }
  else segs.foldl (rmnetFragDeliver pages) ingress

/-- `__rmnet_frag_ingress_handler` -/
def ingressOne (pages : Pages) (port : RmnetIngressPort) (ingress : Ingress)
    (fragDesc : RmnetFragDescriptor) : Ingress :=
  let recycled (fragDesc : RmnetFragDescriptor) (pool : RmnetFragDescriptorPool) : Ingress :=
    { ingress with pool := rmnetRecycleFragDescriptor fragDesc pool }
  match rmnetFragHeaderPtr pages fragDesc 0 rmnetMapHeaderSize with
  | none => recycled fragDesc ingress.pool
  | some header =>
    let qmap := RmnetMapHeader.ofBytes header
    let len := (qmap.pktLen + 65536 - qmap.padLen) % 65536
    if qmap.cdBit ∨ rmnetMaxLogicalEp ≤ qmap.muxId then recycled fragDesc ingress.pool
    else match port.endpoints qmap.muxId with
      | none => recycled fragDesc ingress.pool
      | some dev =>
        let skipPerf := decide (fragDesc.priority = lowLatencyPriority)
        if qmap.nextHdr ∧ (port.dataFormat.coalesce ∨ port.dataFormat.mapCksumv5) then
          match rmnetFragProcessNextHdrPacket pages { fragDesc with dev } ingress.pool len with
          | (none, fragDesc, pool) => recycled fragDesc pool
          | (some segs, _, pool) => passSegs pages port skipPerf { ingress with pool } segs
        else match pullAndTrim { fragDesc with dev } ingress.pool rmnetMapHeaderSize len with
          | (none, _, pool) => { ingress with pool }
          | (some kept, _, pool) => passSegs pages port skipPerf { ingress with pool } [kept]

/-- The buffers that the handler goes through, given the priorities of those on the `frag_list`. -/
def SkBuff.chain (skb : SkBuff) (priorities : Nat → Nat) : List SkBuff :=
  skb :: skb.fragList.mapIdx fun place part =>
    { toSkbPart := part, priority := priorities place, fragList := [] }

def ingressSkb (pages : Pages) (port : RmnetIngressPort) (fuel : Nat) (ingress : Ingress) (skb : SkBuff) :
    Option Ingress :=
  match rmnetFragDeaggregate pages port.dataFormat fuel skb [] ingress.pool with
  | none => none
  | some (list, pool) => some (list.foldl (ingressOne pages port) { ingress with pool })

def ingressChain (pages : Pages) (port : RmnetIngressPort) (fuel : Nat) : List SkBuff → Ingress → Option Ingress
  | [], ingress => some ingress
  | skb :: later, ingress =>
    match ingressSkb pages port fuel ingress skb with
    | none => none
    | some ingress => ingressChain pages port fuel later ingress

end KernelModules.Rmnet

import KernelModules.Rmnet.LinearParse

namespace KernelModules.Rmnet

structure RmnetMapV5NlPair where
  pktLen : Nat
  csumErrorBitmap : Nat
  numPackets : Nat

structure RmnetMapV5CoalHeader where
  numNlos : Nat
  csumValid : Bool
  closeType : Nat
  closeValue : Nat
  nlPairs : List RmnetMapV5NlPair

def rmnetMapV5MaxNlos : Nat := 6
def rmnetMapV5MaxPackets : Nat := 48

def RmnetMapV5CoalHeader.ofBytes (bytes : List UInt8) : RmnetMapV5CoalHeader :=
  { numNlos := byteAt bytes 1 / 16 % 8
    csumValid := byteAt bytes 1 / 128 % 2 == 1
    closeType := byteAt bytes 2 % 16
    closeValue := byteAt bytes 2 / 16
    nlPairs := (List.range rmnetMapV5MaxNlos).map fun nlo =>
      { pktLen := be16At bytes (4 + 4 * nlo)
        csumErrorBitmap := byteAt bytes (6 + 4 * nlo)
        numPackets := byteAt bytes (7 + 4 * nlo) } }

def RmnetMapV5CoalHeader.nlos (coalHdr : RmnetMapV5CoalHeader) : List RmnetMapV5NlPair :=
  coalHdr.nlPairs.take coalHdr.numNlos

def rmnetMapCoalCloseHw : Nat := 3
def rmnetMapCoalCloseCoal : Nat := 4
def rmnetMapCoalCloseHwPkt : Nat := 1
def rmnetMapCoalCloseHwByte : Nat := 2
def rmnetMapCoalCloseHwTime : Nat := 3

def rmnetMapV5CsumBuggy (coalHdr : RmnetMapV5CoalHeader) : Bool :=
  if coalHdr.numNlos ≠ 1 ∨ coalHdr.nlPairs.head?.map (·.numPackets) ≠ some 1 then false
  else if coalHdr.closeType = rmnetMapCoalCloseCoal then true
  else if coalHdr.closeType = rmnetMapCoalCloseHw then
    coalHdr.closeValue = rmnetMapCoalCloseHwPkt ∨ coalHdr.closeValue = rmnetMapCoalCloseHwByte ∨
      coalHdr.closeValue = rmnetMapCoalCloseHwTime
  else false

/-- All six pairs are looked at; `pkts` is a `u8`. -/
def checkNlPairs : List RmnetMapV5NlPair → Nat → Nat → Nat → Option Nat
  | [], _, mask, _ => some mask
  | pair :: later, nlo, mask, pkts =>
    if rmnetMapV5MaxPackets < (pkts + pair.numPackets) % 256 then none
    else checkNlPairs later (nlo + 1) (mask ||| pair.csumErrorBitmap <<< (8 * nlo))
        ((pkts + pair.numPackets) % 256)

/-- The checksum error mask; `-EINVAL` is `none`. -/
def rmnetFragDataCheckCoalHeader (pages : Pages) (fragDesc : RmnetFragDescriptor) : Option Nat :=
  match rmnetFragHeaderPtr pages fragDesc rmnetMapHeaderSize rmnetMapV5CoalHeaderSize with
  | none => none
  | some header =>
    let coalHdr := RmnetMapV5CoalHeader.ofBytes header
    if coalHdr.numNlos = 0 ∨ rmnetMapV5MaxNlos < coalHdr.numNlos then none
    else checkNlPairs coalHdr.nlPairs 0 0 0

def ipprotoTcp : Nat := 6
def ipprotoUdp : Nat := 17
def nexthdrFragment : Nat := 44
def nexthdrAuth : Nat := 51
def nexthdrNone : Nat := 59

def ipv6ExtHdr (nexthdr : Nat) : Bool :=
  nexthdr ∈ [0, 43, nexthdrFragment, nexthdrAuth, nexthdrNone, 60]

/-- The loop of `rmnet_frag_ipv6_skip_exthdr`, that of the kernel's `ipv6_skip_exthdr`: where the headers end, the
protocol, `frag_off` and whether there is a fragment header; an error is `none`. -/
def skipExthdr (headerPtr : Nat → Nat → Option (List UInt8)) :
    Nat → Nat → Nat → Nat → Bool → Option (Nat × Nat × Nat × Bool)
  | 0, _, _, _, _ => none
  | fuel + 1, start, nexthdr, fragOff, fragHdr =>
    if ¬ipv6ExtHdr nexthdr then some (start, nexthdr, fragOff, fragHdr)
    else if nexthdr = nexthdrNone then none
    else match headerPtr start 2 with
      | none => none
      | some hp =>
        if nexthdr = nexthdrFragment then match headerPtr (start + 2) 2 with
          | none => none
          | some fp =>
            if be16At fp 0 / 8 ≠ 0 then some (start, nexthdr, be16At fp 0, true)
            else skipExthdr headerPtr fuel (start + 8) (byteAt hp 0) (be16At fp 0) true
        else if nexthdr = nexthdrAuth then
          skipExthdr headerPtr fuel (start + (byteAt hp 1 + 2) * 4) (byteAt hp 0) fragOff
            fragHdr
        else skipExthdr headerPtr fuel (start + (byteAt hp 1 + 1) * 8) (byteAt hp 0) fragOff
            fragHdr

def rmnetFragIpv6SkipExthdr (pages : Pages) (fragDesc : RmnetFragDescriptor)
    (start nexthdr : Nat) : Option (Nat × Nat × Nat × Bool) :=
  skipExthdr (rmnetFragHeaderPtr pages fragDesc) (fragDesc.len + 1) start nexthdr 0 false

/-- From `trans_proto` on: the descriptor with its lengths, `gro` and `zero_csum`. -/
def coalTransHeader (pages : Pages) (coalDesc : RmnetFragDescriptor) (gro : Bool) :
    Option (RmnetFragDescriptor × Bool × Bool) :=
  if coalDesc.transProto = ipprotoTcp then match rmnetFragHeaderPtr pages coalDesc coalDesc.ipLen 20 with
    | none => none
    | some th =>
      some ({ coalDesc with transLen := byteAt th 12 / 16 * 4, hdrsValid := true }, gro, false)
  else if coalDesc.transProto = ipprotoUdp then match rmnetFragHeaderPtr pages coalDesc coalDesc.ipLen 8 with
    | none => none
    | some uh =>
      some ({ coalDesc with transLen := 8, hdrsValid := true }, gro,
        decide (coalDesc.ipProto = 4 ∧ be16At uh 6 = 0))
  else none

/-- From `version` to `hdrs_valid`; a return in between is `none`. -/
def coalHeaders (pages : Pages) (coalDesc : RmnetFragDescriptor) : Option (RmnetFragDescriptor × Bool × Bool) :=
  match rmnetFragDataPtr coalDesc with
  | none => none
  | some first =>
    let version := (pages first.source first.start).toNat / 16
    if version = 4 then match rmnetFragHeaderPtr pages coalDesc 0 20 with
      | none => none
      | some iph =>
        coalTransHeader pages
          { coalDesc with
            ipProto := 4, ipLen := byteAt iph 0 % 16 * 4, transProto := byteAt iph 9 }
          (coalDesc.dev.groHw && byteAt iph 0 % 16 == 5)
    else if version = 6 then match rmnetFragHeaderPtr pages coalDesc 0 40 with
      | none => none
      | some ip6h =>
        match rmnetFragIpv6SkipExthdr pages coalDesc 40 (byteAt ip6h 6) with
        | none => none
        | some (ipLen, protocol, fragOff, fragHdr) =>
          if fragOff ≠ 0 then none
          else coalTransHeader pages
              { coalDesc with
                ipProto := 6, ipLen := ipLen % 65536, transProto := protocol }
              (coalDesc.dev.groHw && !fragHdr && decide (ipLen % 65536 ≤ 40))
    else none

end KernelModules.Rmnet

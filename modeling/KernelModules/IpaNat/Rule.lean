import KernelModules.IpaNat.Table

namespace KernelModules.IpaNat

/-- `ipa_nat_ipv4_rule`, what a client asks for. -/
structure IpaNatIpv4Rule where
  targetIp : BitVec 32
  privateIp : BitVec 32
  targetPort : BitVec 16
  privatePort : BitVec 16
  publicPort : BitVec 16
  protocol : BitVec 8
  pdnIndex : BitVec 8
  redirect : BitVec 8
  enable : BitVec 8
  timeStamp : BitVec 32
  ucActivationIndex : BitVec 16
  s : Bool
  ucp : Bool
  dstOnly : Bool
  srcOnly : Bool
deriving DecidableEq

/-- `struct ipa_nat_rule`, a record of the NAT table. -/
structure IpaNatRule where
  privateIp : BitVec 32
  targetIp : BitVec 32
  nextIndex : Nat
  publicPort : BitVec 16
  privatePort : BitVec 16
  targetPort : BitVec 16
  ipChksum : BitVec 16
  ucActivationIndex : BitVec 13
  s : Bool
  redirect : Bool
  enable : Bool
  timeStamp : BitVec 24
  protocol : BitVec 8
  prevIndex : Nat
  indxTblEntry : Nat
  dstOnly : Bool
  srcOnly : Bool
  ucp : Bool
  pdnIndex : BitVec 4
  tcpUdpChksum : BitVec 16

structure IpaNatIndxTblRule where
  tblEntry : Nat
  nextIndex : Nat

def IpaNatRule.empty : IpaNatRule :=
  { privateIp := 0, targetIp := 0, nextIndex := 0, publicPort := 0, privatePort := 0
    targetPort := 0, ipChksum := 0, ucActivationIndex := 0, s := false, redirect := false
    enable := false, timeStamp := 0, protocol := 0, prevIndex := 0, indxTblEntry := 0
    dstOnly := false, srcOnly := false, ucp := false, pdnIndex := 0, tcpUdpChksum := 0 }

def ipaNatRuleFlagFieldOffset : Nat := 18
def ipaNatRuleNextFieldOffset : Nat := 8
def ipaNatRuleProtoFieldOffset : Nat := 22
def ipaNatIndexRuleNextFieldOffset : Nat := 2
def ipaNatIndexRuleNatIndexFieldOffset : Nat := 0

def ipaNatInvalidProtoFieldValue : Nat := 0xFF00
def ipahalNatInvalidProtocol : BitVec 8 := 0xFF

def ipaMaxPdnNum : Nat := 16
def ipprotoTcp : BitVec 8 := 6
def ipprotoUdp : BitVec 8 := 17

/-- `ipa_nat_flags`, the 16-bit flag word of a rule. -/
structure IpaNatFlags where
  ucActivationIndex : BitVec 13
  s : Bool
  redirect : Bool
  enable : Bool

def IpaNatFlags.toNat (flags : IpaNatFlags) : Nat :=
  flags.ucActivationIndex.toNat + flags.s.toNat * 2 ^ 13 + flags.redirect.toNat * 2 ^ 14 +
    flags.enable.toNat * 2 ^ 15

def IpaNatFlags.ofNat (data : Nat) : IpaNatFlags :=
  ⟨BitVec.ofNat 13 data, data / 2 ^ 13 % 2 == 1, data / 2 ^ 14 % 2 == 1, data / 2 ^ 15 % 2 == 1⟩

theorem IpaNatFlags.ofNat_toNat (flags : IpaNatFlags) : IpaNatFlags.ofNat flags.toNat = flags := by
  obtain ⟨index, s, redirect, enable⟩ := flags
  have low : BitVec.ofNat 13 (IpaNatFlags.toNat ⟨index, s, redirect, enable⟩) = index := by
    apply BitVec.eq_of_toNat_eq
    cases s <;> cases redirect <;> cases enable <;> simp [toNat] <;> omega
  unfold IpaNatFlags.ofNat
  rw [low]
  cases s <;> cases redirect <;> cases enable <;> simp [toNat] <;> omega

def foldCarry (cksum : BitVec 32) : BitVec 32 :=
  if cksum >>> 16 ≠ 0 then (cksum &&& 0x0000FFFF) + 1 else cksum

def ipaNatiCalcIpCksum (pubIpAddr privIpAddr : BitVec 32) : BitVec 16 :=
  let cksum := pubIpAddr &&& 0xFFFF
  let cksum := foldCarry (cksum + pubIpAddr >>> 16)
  let privIpAddr := ~~~ privIpAddr
  let cksum := foldCarry (cksum + (privIpAddr &&& 0xFFFF))
  let cksum := foldCarry (cksum + privIpAddr >>> 16)
  cksum.setWidth 16

def ipaNatiCalcTcpUdpCksum (pubIpAddr : BitVec 32) (pubPort : BitVec 16)
    (privIpAddr : BitVec 32) (privPort : BitVec 16) : BitVec 16 :=
  let cksum := pubIpAddr &&& 0xFFFF
  let cksum := foldCarry (cksum + pubIpAddr >>> 16)
  let cksum := foldCarry (cksum + pubPort.setWidth 32)
  let privIpAddr := ~~~ privIpAddr
  let cksum := foldCarry (cksum + (privIpAddr &&& 0xFFFF))
  let cksum := foldCarry (cksum + privIpAddr >>> 16)
  let privPort := ~~~ privPort
  let cksum := foldCarry (cksum + privPort.setWidth 32)
  cksum.setWidth 16

/-- What the driver reads besides its tables: the public addresses, and whether the version is at least
`IPA_HW_v4_0`. -/
structure Environment where
  pdns : Nat → BitVec 32
  hashesPublicIp : Bool

section NatRecords

def tableEntryIsValid (rule : IpaNatRule) : Bool := rule.enable

def tableEntryGetNextIndex (rule : IpaNatRule) : Nat := rule.nextIndex

def tableEntryGetPrevIndex (rule : IpaNatRule) : Nat := rule.prevIndex

def tableEntrySetPrevIndex (rule : IpaNatRule) (prevIndex : Nat) : IpaNatRule :=
  { rule with prevIndex := prevIndex }

variable (env : Environment)

def tableEntryCopyFromUser (natEntry : IpaNatRule) (userRule : IpaNatIpv4Rule) : IpaNatRule :=
  let pubIpAddr := env.pdns userRule.pdnIndex.toNat
  { natEntry with
    privateIp := userRule.privateIp
    privatePort := userRule.privatePort
    protocol := userRule.protocol
    publicPort := userRule.publicPort
    targetIp := userRule.targetIp
    targetPort := userRule.targetPort
    pdnIndex := userRule.pdnIndex.setWidth 4
    ucActivationIndex := userRule.ucActivationIndex.setWidth 13
    s := userRule.s
    ucp := userRule.ucp
    dstOnly := userRule.dstOnly
    srcOnly := userRule.srcOnly
    ipChksum := ipaNatiCalcIpCksum pubIpAddr userRule.privateIp
    tcpUdpChksum :=
      if userRule.protocol = ipprotoTcp ∨ userRule.protocol = ipprotoUdp then
        ipaNatiCalcTcpUdpCksum pubIpAddr userRule.publicPort userRule.privateIp
          userRule.privatePort
      else natEntry.tcpUdpChksum }

def tableEntryHeadInsert (entry : IpaNatRule) (userData : IpaNatIpv4Rule) : IpaNatRule × Nat :=
  let natEntry := tableEntryCopyFromUser env entry userData
  let flags : IpaNatFlags := ⟨natEntry.ucActivationIndex, natEntry.s, false, true⟩
  (natEntry, flags.toNat)

def tableEntryTailInsert (entry : IpaNatRule) (userData : IpaNatIpv4Rule) : IpaNatRule :=
  { tableEntryCopyFromUser env entry userData with enable := true }

/-- A 16-bit write at a byte offset of a rule; the protocol is the upper byte of its word, below it the top of the
time stamp. -/
def IpaNatRule.dmaWrite (rule : IpaNatRule) (field data : Nat) : IpaNatRule :=
  if field = ipaNatRuleFlagFieldOffset then let flags := IpaNatFlags.ofNat data
    { rule with ucActivationIndex := flags.ucActivationIndex, s := flags.s
                redirect := flags.redirect, enable := flags.enable }
  else if field = ipaNatRuleNextFieldOffset then { rule with nextIndex := data }
  else if field = ipaNatRuleProtoFieldOffset then
    { rule with timeStamp := BitVec.ofNat 8 data ++ rule.timeStamp.setWidth 16
                protocol := BitVec.ofNat 8 (data / 2 ^ 8) }
  else rule

def entryInterface : IpaTableEntryInterface IpaNatRule IpaNatIpv4Rule where
  entrySize := 32
  empty := .empty
  entryDmaWrite := IpaNatRule.dmaWrite
  dmaHelp
    | .updateHead => ⟨ipaNatRuleFlagFieldOffset, .natBaseTbl, .natExpnTbl⟩
    | .updateEntry => ⟨ipaNatRuleNextFieldOffset, .natBaseTbl, .natExpnTbl⟩
    | .deleteHead => ⟨ipaNatRuleProtoFieldOffset, .natBaseTbl, .natExpnTbl⟩
  entryIsValid := tableEntryIsValid
  entryGetNextIndex := tableEntryGetNextIndex
  entryGetPrevIndex entry _ _ _ := tableEntryGetPrevIndex entry
  entrySetPrevIndex entry _ prevIndex previous _ :=
    (tableEntrySetPrevIndex entry prevIndex, previous)
  entryHeadInsert := tableEntryHeadInsert env
  entryTailInsert := tableEntryTailInsert env
  entryGetDeleteHeadDmaCommandData _ _ := ipaNatInvalidProtoFieldValue

end NatRecords

def IpaNatIndxTblRule.dmaWrite (rule : IpaNatIndxTblRule) (field data : Nat) : IpaNatIndxTblRule :=
  if field = ipaNatIndexRuleNatIndexFieldOffset then { rule with tblEntry := data }
  else if field = ipaNatIndexRuleNextFieldOffset then { rule with nextIndex := data }
  else rule

def indexTableEntryIsValid (rule : IpaNatIndxTblRule) : Bool := rule.tblEntry != 0

def indexTableEntryGetNextIndex (rule : IpaNatIndxTblRule) : Nat := rule.nextIndex

def indexTableEntryGetPrevIndex (entryIndex : Nat) (previous : Nat → Nat)
    (baseTableSize : Nat) : Nat :=
  if baseTableSize ≤ entryIndex then previous (entryIndex - baseTableSize) else 0

def indexTableEntrySetPrevIndex (entryIndex prevIndex : Nat) (previous : Nat → Nat)
    (baseTableSize : Nat) : Nat → Nat :=
  if baseTableSize ≤ entryIndex then Function.update previous (entryIndex - baseTableSize) prevIndex
  else previous

def indexEntryInterface : IpaTableEntryInterface IpaNatIndxTblRule Nat where
  entrySize := 4
  empty := ⟨0, 0⟩
  entryDmaWrite := IpaNatIndxTblRule.dmaWrite
  dmaHelp
    | .updateHead => ⟨ipaNatIndexRuleNatIndexFieldOffset, .natIndxTbl, .natIndexExpnTbl⟩
    | .updateEntry => ⟨ipaNatIndexRuleNextFieldOffset, .natIndxTbl, .natIndexExpnTbl⟩
    | .deleteHead => ⟨ipaNatIndexRuleNatIndexFieldOffset, .natIndxTbl, .natIndexExpnTbl⟩
  entryIsValid := indexTableEntryIsValid
  entryGetNextIndex := indexTableEntryGetNextIndex
  entryGetPrevIndex _ entryIndex previous baseTableSize :=
    indexTableEntryGetPrevIndex entryIndex previous baseTableSize
  entrySetPrevIndex entry entryIndex prevIndex previous baseTableSize :=
    (entry, indexTableEntrySetPrevIndex entryIndex prevIndex previous baseTableSize)
  entryHeadInsert entry tblEntry := (entry, tblEntry)
  entryTailInsert entry tblEntry := { entry with tblEntry := tblEntry }
  entryGetDeleteHeadDmaCommandData _ nextEntry := nextEntry.tblEntry

/-- The part of a hash that the table is indexed by; zero stands for the last record. -/
def maskHash (hash : BitVec 16) (size : Nat) : Nat :=
  if hash.toNat &&& size = 0 then size else hash.toNat &&& size

def dstHash (env : Environment) (publicIp trgtIp : BitVec 32)
    (trgtPort publicPort : BitVec 16) (proto : BitVec 8) (size : Nat) : Nat :=
  let hash := trgtIp.setWidth 16 ^^^ (trgtIp >>> 16).setWidth 16 ^^^ trgtPort ^^^ publicPort ^^^
    proto.setWidth 16
  let hash :=
    if env.hashesPublicIp then hash ^^^ (publicIp.setWidth 16 ^^^ (publicIp >>> 16).setWidth 16)
    else hash
  maskHash hash size

def srcHash (privIp : BitVec 32) (privPort : BitVec 16) (trgtIp : BitVec 32)
    (trgtPort : BitVec 16) (proto : BitVec 8) (size : Nat) : Nat :=
  let hash := privIp.setWidth 16 ^^^ (privIp >>> 16).setWidth 16 ^^^ privPort ^^^
    trgtIp.setWidth 16 ^^^ (trgtIp >>> 16).setWidth 16 ^^^ trgtPort ^^^ proto.setWidth 16
  maskHash hash size

end KernelModules.IpaNat

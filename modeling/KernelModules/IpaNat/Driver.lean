import KernelModules.IpaNat.Rule

namespace KernelModules.IpaNat

/-! # Adding and deleting rules (`ipa_NATI_*` of `ipa_nat_drvi.c`)

The kernel takes a DMA command as a whole or refuses it; `dmaOk` says which.  Locking `nat_mutex` never fails here,
and the table handle is valid.
-/

structure IpaNatIp4TableCache where
  table : IpaTable IpaNatRule
  indexTable : IpaTable IpaNatIndxTblRule

/-- One table and `Hash_token`, which counts up and is only used modulo a power of two. -/
structure IpaNatDriver where
  cache : IpaNatIp4TableCache
  hashToken : Nat

def initialHashToken : Nat := 69

/-- `ipa_nati_create_table`, where memory is allocated. -/
def ipaNatiCreateTable (numberOfEntries : Nat) (nmi : Ipa3NatMemIn) : Option IpaNatIp4TableCache :=
  match ipaTableCalculateEntriesNum numberOfEntries nmi with
  | none => none
  | some (tableEntries, expnTableEntries) => some
      { table := ⟨nmi, tableEntries, expnTableEntries, fun _ => .empty, 0, 0, false, fun _ => 0⟩
        indexTable :=
          ⟨nmi, tableEntries, expnTableEntries, fun _ => ⟨0, 0⟩, 0, 0, true, fun _ => 0⟩ }

def tokenIndex (hash hashToken tableEntries : Nat) : Nat :=
  let index := (hash + hashToken) % 2 ^ 16 &&& (tableEntries - 1)
  if index = 0 then tableEntries - 1 else index

section Calls

variable (env : Environment)

def IpaNatIp4TableCache.dmaWrite (cache : IpaNatIp4TableCache) (one : IpaIocNatDmaOne) : IpaNatIp4TableCache :=
  ⟨cache.table.dmaWrite (entryInterface env) one, cache.indexTable.dmaWrite indexEntryInterface one⟩

def ipaNatiPostIpv4DmaCmd (cache : IpaNatIp4TableCache) (cmd : List IpaIocNatDmaOne)
    (dmaOk : Bool) : Int × IpaNatIp4TableCache :=
  if dmaOk then (0, cmd.foldl (·.dmaWrite env) cache) else (-eio, cache)

def clientDstHash (rule : IpaNatIpv4Rule) (tableEntries : Nat) : Nat :=
  dstHash env (env.pdns rule.pdnIndex.toNat) rule.targetIp rule.targetPort
    rule.publicPort rule.protocol (tableEntries - 1)

def clientSrcHash (rule : IpaNatIpv4Rule) (tableEntries : Nat) : Nat :=
  srcHash rule.privateIp rule.privatePort rule.targetIp rule.targetPort rule.protocol
    (tableEntries - 1)

/-- Where the record of a new rule goes, or behind which it goes: its hash, or elsewhere if
the hash is not to find it. -/
def natStart (driver : IpaNatDriver) (clntRule : IpaNatIpv4Rule) : Nat :=
  let tableEntries := driver.cache.table.tableEntries
  let hash := clientDstHash env clntRule tableEntries
  if clntRule.srcOnly then tokenIndex hash driver.hashToken tableEntries else hash

def tokenAfterNat (driver : IpaNatDriver) (clntRule : IpaNatIpv4Rule) : Nat :=
  if clntRule.srcOnly then driver.hashToken + 1 else driver.hashToken

def indexStart (driver : IpaNatDriver) (clntRule : IpaNatIpv4Rule) : Nat :=
  let tableEntries := driver.cache.table.tableEntries
  let hash := clientSrcHash clntRule tableEntries
  if clntRule.dstOnly then tokenIndex hash (tokenAfterNat driver clntRule) tableEntries else hash

def tokenAfterIndex (driver : IpaNatDriver) (clntRule : IpaNatIpv4Rule) : Nat :=
  if clntRule.dstOnly then tokenAfterNat driver clntRule + 1 else tokenAfterNat driver clntRule

def driverFields (clntRule : IpaNatIpv4Rule) (newIndexTblEntryIndex : Nat) (rule : IpaNatRule) : IpaNatRule :=
  { rule with
    indxTblEntry := newIndexTblEntryIndex
    redirect := clntRule.redirect.getLsbD 0
    enable := clntRule.enable.getLsbD 0
    timeStamp := clntRule.timeStamp.setWidth 24 }

structure AddResult where
  ret : Int
  ruleHdl : Nat
  driver : IpaNatDriver

/-- `ipa_NATI_add_ipv4_rule`; `none` when it never returns. -/
def ipaNatiAddIpv4Rule (driver : IpaNatDriver) (clntRule : IpaNatIpv4Rule) (dmaOk : Bool) : Option AddResult :=
  if clntRule.protocol = ipahalNatInvalidProtocol then some ⟨-einval, 0, driver⟩
  else if ipaMaxPdnNum ≤ clntRule.pdnIndex.toNat ∨
      env.pdns clntRule.pdnIndex.toNat = 0 then some ⟨-einval, 0, driver⟩
  else let hashToken := tokenAfterNat driver clntRule
    match ipaTableAddEntry (entryInterface env) driver.cache.table
        (natStart env driver clntRule) clntRule [] with
    | none => none
    | some (.error ret) => some ⟨ret, 0, ⟨driver.cache, hashToken⟩⟩
    | some (.ok ⟨table, newEntryIndex, cmd⟩) =>
      let newEntryHandle := makeEntryHdl table newEntryIndex
      let hashToken := tokenAfterIndex driver clntRule
      match ipaTableAddEntry indexEntryInterface driver.cache.indexTable
          (indexStart driver clntRule) newEntryIndex cmd with
      | none => none
      | some (.error ret) =>
        let table := ipaTableEraseEntry (entryInterface env) table newEntryIndex
        some ⟨ret, 0, ⟨⟨table, driver.cache.indexTable⟩, hashToken⟩⟩
      | some (.ok ⟨indexTable, newIndexTblEntryIndex, cmd⟩) =>
        let erased (cache : IpaNatIp4TableCache) : IpaNatIp4TableCache :=
          ⟨ipaTableEraseEntry (entryInterface env) cache.table newEntryIndex,
            ipaTableEraseEntry indexEntryInterface cache.indexTable newIndexTblEntryIndex⟩
        match ipaTableGetEntryByIndex table newEntryIndex with
        | none => some ⟨-eperm, 0, ⟨erased ⟨table, indexTable⟩, hashToken⟩⟩
        | some record =>
          let rule := driverFields clntRule newIndexTblEntryIndex (table.slots record)
          let table := table.put record rule
          let (ret, cache) :=
            ipaNatiPostIpv4DmaCmd env ⟨table, indexTable⟩ cmd dmaOk
          if ret ≠ 0 then some ⟨ret, 0, ⟨erased cache, hashToken⟩⟩
          else some ⟨0, newEntryHandle, ⟨cache, hashToken⟩⟩

def ipaNatiCopySecondIndexEntryToHead (cache : IpaNatIp4TableCache)
    (iterator : IpaTableIterator) (cmd : List IpaIocNatDmaOne) : IpaNatIp4TableCache × List IpaIocNatDmaOne :=
  let indexTableRule := cache.indexTable.slots iterator.nextIndex
  let cmd := ipaTableAddDmaCmd indexEntryInterface cache.indexTable .updateEntry
    iterator.currIndex indexTableRule.nextIndex cmd
  let rule := { cache.table.slots indexTableRule.tblEntry with indxTblEntry := iterator.currIndex }
  ({ cache with table := cache.table.put indexTableRule.tblEntry rule }, cmd)

def clearMetaPrevIndex (indexTable : IpaTable IpaNatIndxTblRule) (index : Nat) : IpaTable IpaNatIndxTblRule :=
  if indexTable.tableEntries ≤ index then let expnIndex := index - indexTable.tableEntries
    { indexTable with metaPrevIndex := Function.update indexTable.metaPrevIndex expnIndex 0 }
  else indexTable

/-- The end of `ipa_NATI_del_ipv4_rule`, from the deletion command of the NAT table on. -/
def delIpv4RulePosting (cache : IpaNatIp4TableCache)
    (tableIterator indexTableIterator : IpaTableIterator) (cmd : List IpaIocNatDmaOne)
    (dmaOk : Bool) : Int × IpaNatIp4TableCache :=
  let cmd := ipaTableCreateDeleteCommand (entryInterface env) cache.table tableIterator cmd
  let (ret, cache) := ipaNatiPostIpv4DmaCmd env cache cmd dmaOk
  if ret ≠ 0 then (ret, cache)
  else let table :=
      if ipaTableIteratorIsHeadWithTail tableIterator then cache.table
      else let isPrevEmpty := tableIterator.prevIndex != 0 &&
          (cache.table.slots tableIterator.prevIndex).protocol == ipahalNatInvalidProtocol
        ipaTableDeleteEntry (entryInterface env) cache.table tableIterator isPrevEmpty
    let indexTable :=
      ipaTableDeleteEntry indexEntryInterface cache.indexTable indexTableIterator false
    (0, ⟨table, clearMetaPrevIndex indexTable indexTableIterator.currIndex⟩)

def ipaNatiDelIpv4Rule (cache : IpaNatIp4TableCache) (ruleHdl : Nat) (dmaOk : Bool) : Int × IpaNatIp4TableCache :=
  match ipaTableGetEntry cache.table ruleHdl with
  | .error ret => (ret, cache)
  | .ok index =>
  match ipaTableIteratorInit (entryInterface env) cache.table index with
  | .error ret => (ret, cache)
  | .ok tableIterator =>
  match ipaTableGetEntryByIndex cache.indexTable (cache.table.slots index).indxTblEntry with
  | none => (-eperm, cache)
  | some index =>
  match ipaTableIteratorInit indexEntryInterface cache.indexTable index with
  | .error ret => (ret, cache)
  | .ok indexTableIterator =>
    let cmd :=
      ipaTableCreateDeleteCommand indexEntryInterface cache.indexTable indexTableIterator []
    if ipaTableIteratorIsHeadWithTail indexTableIterator then
      let (cache, cmd) := ipaNatiCopySecondIndexEntryToHead cache indexTableIterator cmd
      -- the record to delete is the one after the head
      match ipaTableIteratorNext indexEntryInterface cache.indexTable indexTableIterator with
      | .error ret => (ret, cache)
      | .ok indexTableIterator =>
        delIpv4RulePosting env cache tableIterator indexTableIterator cmd dmaOk
    else delIpv4RulePosting env cache tableIterator indexTableIterator cmd dmaOk

def ipaNatiClearIpv4Tbl (cache : IpaNatIp4TableCache) : IpaNatIp4TableCache :=
  ⟨{ ipaTableReset (entryInterface env) cache.table with
      curTblCnt := 0, curExpnTblCnt := 0 },
    { ipaTableReset indexEntryInterface cache.indexTable with
      curTblCnt := 0, curExpnTblCnt := 0 }⟩

def ipaNatiQueryTimestamp (cache : IpaNatIp4TableCache) (ruleHdl : Nat) : Except Int (BitVec 24) :=
  match ipaTableGetEntry cache.table ruleHdl with
  | .error ret => .error ret
  | .ok index => .ok (cache.table.slots index).timeStamp

end Calls

end KernelModules.IpaNat

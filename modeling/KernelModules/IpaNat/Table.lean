import Mathlib.Data.Nat.Log
import Mathlib.Tactic.NormNum

namespace KernelModules.IpaNat

/-! # Table dimensions (`ipa_table_calculate_entries_num`)

A product of an entry count and a percentage, which is a `float`, is rounded to 24 bits, ties to even, before it is
truncated.
-/

inductive Ipa3NatMemIn where
  | ddr
  | sram

def Ipa3NatMemIn.toNat : Ipa3NatMemIn → Nat
  | .ddr => 0
  | .sram => 1

def ipaTableMaxEntries : Nat := 5120

/-- A positive `float`: `mantissa / 2 ^ scale`. -/
structure Single where
  mantissa : Nat
  scale : Nat

def ipaBaseTablePercentage : Single := ⟨13421773, 24⟩
def ipaExpansionTablePercentage : Single := ⟨13421773, 26⟩
def ipaBaseTablePcnt4Sram : Single := ⟨8388608, 23⟩
def ipaExpansionTablePcnt4Sram : Single := ⟨14428406, 25⟩

def roundSingle (number : Nat) : Nat :=
  let unit := 2 ^ (Nat.log2 number - 23)
  let quotient := number / unit
  let rest := number % unit
  if unit < 2 * rest ∨ (unit = 2 * rest ∧ quotient % 2 = 1) then (quotient + 1) * unit
  else quotient * unit

/-- `(uint16_t)(entries * percentage)`. -/
def Single.portion (percentage : Single) (entries : Nat) : Nat :=
  roundSingle (entries * percentage.mantissa) / 2 ^ percentage.scale

/-- The loop of `Get2PowerTightUpperBound` on `tmp`, `prev` and `curr`; a `uint16_t` is
down to one after 15 shifts. -/
def get2PowerLoop : Nat → Nat → Nat → Nat → Nat × Nat
  | 0, _, prev, curr => (prev, curr)
  | shifts + 1, tmp, prev, curr =>
    if tmp = 1 then (prev, curr) else get2PowerLoop shifts (tmp / 2) curr (curr * 2)

def get2PowerTightUpperBound (num : Nat) : Nat :=
  if num = 0 then 2
  else let (prev, curr) := get2PowerLoop 15 num 0 2
    if num = prev then prev else curr

def getEvenTightUpperBound (num : Nat) : Nat :=
  if num = 0 then 2 else if num % 2 = 1 then num + 1 else num

def Ipa3NatMemIn.btp : Ipa3NatMemIn → Single
  | .sram => ipaBaseTablePcnt4Sram
  | .ddr => ipaBaseTablePercentage

def Ipa3NatMemIn.etp : Ipa3NatMemIn → Single
  | .sram => ipaExpansionTablePcnt4Sram
  | .ddr => ipaExpansionTablePercentage

/-- Base and expansion entries, or `-EINVAL`. -/
def ipaTableCalculateEntriesNum (numberOfEntries : Nat) (nmi : Ipa3NatMemIn) : Option (Nat × Nat) :=
  if ipaTableMaxEntries < numberOfEntries then none
  else let tableEntries := get2PowerTightUpperBound (nmi.btp.portion numberOfEntries)
    let expnTableEntries := getEvenTightUpperBound (nmi.etp.portion numberOfEntries)
    if ipaTableMaxEntries < tableEntries + expnTableEntries then none
    else some (tableEntries, expnTableEntries)

structure Geometry (tableEntries expnTableEntries : Nat) : Prop where
  power : ∃ exponent, tableEntries = 2 ^ (exponent + 1)
  base : tableEntries ≤ 4096
  expnPositive : 0 < expnTableEntries
  expn : expnTableEntries ≤ 4096

theorem get2PowerLoop_power (shifts tmp exponent : Nat) (known : prev = 0 ∨ ∃ earlier, prev = 2 ^ (earlier + 1)) :
    ∃ last, (get2PowerLoop shifts tmp prev (2 ^ (exponent + 1))).2 = 2 ^ (last + 1) ∧
      ((get2PowerLoop shifts tmp prev (2 ^ (exponent + 1))).1 = 0 ∨
        ∃ earlier, (get2PowerLoop shifts tmp prev (2 ^ (exponent + 1))).1 = 2 ^ (earlier + 1)) := by
  induction shifts generalizing tmp prev exponent with
  | zero => exact ⟨exponent, rfl, known⟩
  | succ shifts ih =>
    unfold get2PowerLoop
    split
    · exact ⟨exponent, rfl, known⟩
    · exact ih _ _ (.inr ⟨exponent, rfl⟩)

theorem get2PowerTightUpperBound_power (num : Nat) : ∃ exponent, get2PowerTightUpperBound num = 2 ^ (exponent + 1) := by
  unfold get2PowerTightUpperBound
  split
  · exact ⟨0, rfl⟩
  rename_i pos
  have known : (0 : Nat) = 0 ∨ ∃ earlier, (0 : Nat) = 2 ^ (earlier + 1) := .inl rfl
  obtain ⟨last, curr, prev⟩ := get2PowerLoop_power 15 num 0 known
  simp only
  split
  · rename_i same
    exact prev.resolve_left fun zero => pos (same.trans zero)
  · exact ⟨last, curr⟩

theorem roundSingle_le (pos : 0 < number) : roundSingle number * 2 ^ 23 ≤ number * (2 ^ 23 + 1) := by
  have log : 2 ^ Nat.log2 number ≤ number := Nat.log2_self_le (by omega)
  have unitSmall : 2 ^ (Nat.log2 number - 23) * 2 ^ 23 ≤ number ∨ 2 ^ (Nat.log2 number - 23) = 1 := by
    by_cases long : 23 ≤ Nat.log2 number
    · rw [← pow_add, Nat.sub_add_cancel long]
      exact .inl log
    · rw [Nat.sub_eq_zero_of_le (by omega)]
      exact .inr rfl
  have whole := Nat.div_add_mod number (2 ^ (Nat.log2 number - 23))
  have small := Nat.mod_lt number (Nat.two_pow_pos (Nat.log2 number - 23))
  have round : roundSingle number ≤ number + 2 ^ (Nat.log2 number - 23) ∧
      (2 ^ (Nat.log2 number - 23) = 1 → roundSingle number = number) := by
    unfold roundSingle
    generalize 2 ^ (Nat.log2 number - 23) = unit at *
    have swap := mul_comm unit (number / unit)
    dsimp only
    split
    · rw [Nat.add_mul]
      omega
    · omega
  rcases unitSmall with tiny | one
  · calc roundSingle number * 2 ^ 23 ≤ (number + 2 ^ (Nat.log2 number - 23)) * 2 ^ 23 := Nat.mul_le_mul_right _ round.1
      _ = number * 2 ^ 23 + 2 ^ (Nat.log2 number - 23) * 2 ^ 23 := Nat.add_mul _ _ _
      _ ≤ number * 2 ^ 23 + number := Nat.add_le_add_left tiny _
      _ = number * (2 ^ 23 + 1) := by rw [mul_add, mul_one]
  · exact Nat.mul_le_mul (le_of_eq (round.2 one)) (Nat.le_succ _)

theorem portion_le {percentage : Single} (small : entries ≤ ipaTableMaxEntries)
    (bounded : ipaTableMaxEntries * percentage.mantissa * (2 ^ 23 + 1) <
      (bound + 1) * 2 ^ percentage.scale * 2 ^ 23) : percentage.portion entries ≤ bound := by
  unfold Single.portion
  rw [← Nat.lt_succ_iff, Nat.div_lt_iff_lt_mul (Nat.two_pow_pos _)]
  rcases Nat.eq_zero_or_pos (entries * percentage.mantissa) with zero | some
  · rw [zero]
    exact Nat.mul_pos (Nat.succ_pos _) (Nat.two_pow_pos _)
  · have rounding := roundSingle_le some
    have product := Nat.mul_le_mul_right percentage.mantissa small
    have scaled := Nat.mul_le_mul_right (2 ^ 23 + 1) product
    exact Nat.lt_of_mul_lt_mul_right (lt_of_le_of_lt (le_trans rounding scaled) bounded)

theorem getEvenTightUpperBound_bounds (num : Nat) :
    0 < getEvenTightUpperBound num ∧ getEvenTightUpperBound num ≤ num + 2 := by
  unfold getEvenTightUpperBound
  repeat' split
  all_goals omega

theorem ipaTableCalculateEntriesNum_geometry
    (ok : ipaTableCalculateEntriesNum entries nmi = some (tableEntries, expnTableEntries)) :
    Geometry tableEntries expnTableEntries := by
  unfold ipaTableCalculateEntriesNum at ok
  split at ok
  · cases ok
  rename_i small
  rw [not_lt] at small
  simp only at ok
  split at ok
  · cases ok
  rename_i total
  cases ok
  obtain ⟨exponent, power⟩ := get2PowerTightUpperBound_power (nmi.btp.portion entries)
  refine ⟨⟨exponent, power⟩, ?_, (getEvenTightUpperBound_bounds _).1, ?_⟩
  · rw [power] at total ⊢
    have short : exponent + 1 < 13 := by
      by_contra long
      have large := Nat.pow_le_pow_right (n := 2) (by omega) (not_lt.mp long)
      unfold ipaTableMaxEntries at total
      omega
    exact Nat.pow_le_pow_right (n := 2) (by omega) (Nat.lt_succ_iff.mp short)
  · refine le_trans (getEvenTightUpperBound_bounds _).2 ?_
    have portion : nmi.etp.portion entries ≤ 2203 := by
      cases nmi
      · exact portion_le small (by decide)
      · exact portion_le small (by decide)
    omega

example : ipaTableCalculateEntriesNum 1 .ddr = some (2, 2) := by decide

/-! # Tables of chained records (`ipa_table.c`)

A table is its base records followed by its expansion records.  A pointer to a record is its index over both, zero
is null, and a function of a record and its index takes the index.
-/

def einval : Int := 22
def eperm : Int := 1
def eio : Int := 5

inductive IpaTableDmaType where
  | natBaseTbl
  | natExpnTbl
  | natIndxTbl
  | natIndexExpnTbl
deriving DecidableEq

inductive DmaHelpType where
  | updateHead
  | updateEntry
  | deleteHead

structure IpaTableDmaCmdHelper where
  offset : Nat
  tableType : IpaTableDmaType
  expnTableType : IpaTableDmaType

structure IpaIocNatDmaOne where
  baseAddr : IpaTableDmaType
  offset : Nat
  data : Nat

/-- A record of all zero bytes is `empty`, and `entryDmaWrite` is a 16-bit write at a byte offset.  The previous
index is in the record or in the table's array, so its functions take that array and the number of base records too. -/
structure IpaTableEntryInterface (Entry User : Type) where
  entrySize : Nat
  empty : Entry
  entryDmaWrite : Entry → Nat → Nat → Entry
  dmaHelp : DmaHelpType → IpaTableDmaCmdHelper
  entryIsValid : Entry → Bool
  entryGetNextIndex : Entry → Nat
  entryGetPrevIndex : Entry → Nat → (Nat → Nat) → Nat → Nat
  entrySetPrevIndex : Entry → Nat → Nat → (Nat → Nat) → Nat → Entry × (Nat → Nat)
  entryHeadInsert : Entry → User → Entry × Nat
  entryTailInsert : Entry → User → Entry
  entryGetDeleteHeadDmaCommandData : Entry → Entry → Nat

@[ext]
structure IpaTable (Entry : Type) where
  nmi : Ipa3NatMemIn
  tableEntries : Nat
  expnTableEntries : Nat
  slots : Nat → Entry
  curTblCnt : Nat
  curExpnTblCnt : Nat
  hasMeta : Bool
  metaPrevIndex : Nat → Nat

def IpaTable.totTblEnts {Entry : Type} (table : IpaTable Entry) : Nat :=
  table.tableEntries + table.expnTableEntries

def IpaTable.put {Entry : Type} (table : IpaTable Entry) (index : Nat) (entry : Entry) : IpaTable Entry :=
  { table with slots := Function.update table.slots index entry }

section Handles

variable {Entry : Type}

/-- `MakeEntryHdl`: memory in bit 15, index in bits 12 to 1, expansion in bit 0. -/
def makeEntryHdl (table : IpaTable Entry) (tblEntry : Nat) : Nat :=
  let entryHdl :=
    if table.tableEntries ≤ tblEntry then (tblEntry - table.tableEntries) <<< 1 ||| 1
    else tblEntry <<< 1
  (entryHdl ||| table.nmi.toNat <<< 15) % 2 ^ 16

/-- The index that `BREAK_RULE_HDL` gets out of a handle. -/
def breakRuleHdl (table : IpaTable Entry) (ruleHdl : Nat) : Nat :=
  (ruleHdl >>> 1 &&& 0xFFF) + if ruleHdl &&& 1 = 1 then table.tableEntries else 0

def ipaTableGetEntry (table : IpaTable Entry) (entryHandle : Nat) : Except Int Nat :=
  let recIndex := breakRuleHdl table entryHandle
  if table.totTblEnts ≤ recIndex then .error (-einval) else .ok recIndex

/-- `ipa_table_get_entry_by_index`: null for index zero and beyond the table. -/
def ipaTableGetEntryByIndex (table : IpaTable Entry) (recIndex : Nat) : Option Nat :=
  if recIndex = 0 ∨ table.totTblEnts ≤ recIndex then none else some recIndex

end Handles

section Operations

variable {Entry User : Type} (iface : IpaTableEntryInterface Entry User)

/-- `ipa_table_add_dma_cmd`, which posts nothing for an index beyond the table. -/
def ipaTableAddDmaCmd (table : IpaTable Entry) (helpType : DmaHelpType) (recIndex data : Nat)
    (cmd : List IpaIocNatDmaOne) : List IpaIocNatDmaOne :=
  let helper := iface.dmaHelp helpType
  if table.totTblEnts ≤ recIndex then cmd
  else if table.tableEntries ≤ recIndex then cmd ++ [⟨helper.expnTableType,
      helper.offset + (recIndex - table.tableEntries) * iface.entrySize, data⟩]
  else cmd ++ [⟨helper.tableType, helper.offset + recIndex * iface.entrySize, data⟩]

def IpaTable.writeField (table : IpaTable Entry) (index field data : Nat) : IpaTable Entry :=
  table.put index (iface.entryDmaWrite (table.slots index) field data)

def IpaTable.dmaWrite (table : IpaTable Entry) (one : IpaIocNatDmaOne) : IpaTable Entry :=
  let helper := iface.dmaHelp .updateHead
  let record := one.offset / iface.entrySize
  let field := one.offset % iface.entrySize
  if one.baseAddr = helper.tableType then table.writeField iface record field one.data
  else if one.baseAddr = helper.expnTableType then
    table.writeField iface (table.tableEntries + record) field one.data
  else table

inductive When2Callback where
  | whenSlotEmpty
  | whenSlotFilled
deriving DecidableEq

/-- The loop of `ipa_table_walk` over the indices still to visit, which are handed to the callback with handle and
record; `none` where it never returns. -/
def ipaTableWalkLoop {Arb : Type} (table : IpaTable Entry) (when2cb : When2Callback)
    (walkCb : Nat → Entry → Nat → Arb → Option (Int × Arb)) : List Nat → Arb → Option (Int × Arb)
  | [], arb => some (0, arb)
  | i :: rest, arb =>
    let filled := iface.entryIsValid (table.slots i)
    if filled = (when2cb == .whenSlotFilled) then match walkCb (makeEntryHdl table i) (table.slots i) i arb with
      | none => none
      | some (ret, arb) =>
        if ret ≠ 0 then some (ret, arb) else ipaTableWalkLoop table when2cb walkCb rest arb
    else ipaTableWalkLoop table when2cb walkCb rest arb

def ipaTableWalk {Arb : Type} (table : IpaTable Entry) (startIndex : Nat)
    (when2cb : When2Callback) (walkCb : Nat → Entry → Nat → Arb → Option (Int × Arb))
    (arb : Arb) : Option (Int × Arb) :=
  if table.totTblEnts ≤ startIndex then some (-einval, arb)
  else ipaTableWalkLoop iface table when2cb walkCb
    (List.range' startIndex (table.totTblEnts - startIndex)) arb

def mtSlot (_ruleHdl : Nat) (_record : Entry) (recordIndex : Nat) (arb : Unit) : Option (Int × Unit) :=
  some (recordIndex, arb)

def findExpnTblFreeEntry (table : IpaTable Entry) : Except Int Nat :=
  match ipaTableWalk iface table table.tableEntries .whenSlotEmpty mtSlot () with
  | some (ret, _) => if 0 < ret then .ok ret.toNat else .error (-1)
  | none => .error (-1)

structure IpaTableIterator where
  prevIndex : Nat
  currIndex : Nat
  nextIndex : Nat

def ipaTableIteratorInit (table : IpaTable Entry) (currIndex : Nat) : Except Int IpaTableIterator :=
  let entry := table.slots currIndex
  if iface.entryIsValid entry = false then .error (-einval)
  else let prevIndex :=
      iface.entryGetPrevIndex entry currIndex table.metaPrevIndex table.tableEntries
    let nextIndex := iface.entryGetNextIndex entry
    if prevIndex ≠ 0 ∧ ipaTableGetEntryByIndex table prevIndex = none then .error (-eperm)
    else if nextIndex ≠ 0 ∧ ipaTableGetEntryByIndex table nextIndex = none then .error (-eperm)
    else .ok ⟨prevIndex, currIndex, nextIndex⟩

def ipaTableIteratorNext (table : IpaTable Entry) (iterator : IpaTableIterator) : Except Int IpaTableIterator :=
  let nextIndex := iface.entryGetNextIndex (table.slots iterator.nextIndex)
  if nextIndex ≠ 0 ∧ ipaTableGetEntryByIndex table nextIndex = none then .error (-eperm)
  else .ok ⟨iterator.currIndex, iterator.nextIndex, nextIndex⟩

def ipaTableIteratorIsHeadWithTail (iterator : IpaTableIterator) : Bool :=
  iterator.nextIndex ≠ 0 ∧ iterator.prevIndex = 0

/-- `ipa_table_iterator_end`: the last record from `prevIndex` on, or `none` while it still runs after `fuel`
rounds. -/
def ipaTableIteratorEnd (table : IpaTable Entry) : Nat → Nat → Option (Except Int Nat)
  | 0, _ => none
  | rounds + 1, prevIndex =>
    let nextIndex := iface.entryGetNextIndex (table.slots prevIndex)
    if nextIndex = 0 then some (.ok prevIndex)
    else if nextIndex = prevIndex then some (.error (-1))
    else ipaTableIteratorEnd table rounds nextIndex

structure Insertion (Entry : Type) where
  table : IpaTable Entry
  recIndex : Nat
  cmd : List IpaIocNatDmaOne

def insertHead (table : IpaTable Entry) (recIndex : Nat) (userData : User)
    (cmd : List IpaIocNatDmaOne) : Insertion Entry :=
  let (entry, enableData) := iface.entryHeadInsert (table.slots recIndex) userData
  { table := { table.put recIndex entry with curTblCnt := table.curTblCnt + 1 }
    recIndex := recIndex
    cmd := ipaTableAddDmaCmd iface table .updateHead recIndex enableData cmd }

/-- `InsertTail` from the copying of the data on, with both records found. -/
def insertAfter (table : IpaTable Entry) (prevIndex currIndex : Nat) (userData : User)
    (cmd : List IpaIocNatDmaOne) : Insertion Entry :=
  let (entry, enableData) :=
    if table.hasMeta then (iface.entryTailInsert (table.slots currIndex) userData, 0)
    else iface.entryHeadInsert (table.slots currIndex) userData
  let (entry, metaPrevIndex) := iface.entrySetPrevIndex entry currIndex prevIndex
    table.metaPrevIndex table.tableEntries
  let cmd :=
    if table.hasMeta then cmd
    else ipaTableAddDmaCmd iface table .updateHead currIndex enableData cmd
  { table := { table.put currIndex entry with
      metaPrevIndex := metaPrevIndex, curExpnTblCnt := table.curExpnTblCnt + 1 }
    recIndex := currIndex
    cmd := ipaTableAddDmaCmd iface table .updateEntry prevIndex currIndex cmd }

/-- `ipa_table_iterator_end` needs no more rounds than there are records: a longer walk never ends. -/
def insertTail (table : IpaTable Entry) (recIndex : Nat) (userData : User)
    (cmd : List IpaIocNatDmaOne) : Option (Except Int (Insertion Entry)) :=
  match ipaTableIteratorEnd iface table table.totTblEnts recIndex with
  | none => none
  | some (.error ret) => some (.error ret)
  | some (.ok prevIndex) =>
    match findExpnTblFreeEntry iface table with
    | .error ret => some (.error ret)
    | .ok currIndex => some (.ok (insertAfter iface table prevIndex currIndex userData cmd))

/-- `ipa_table_add_entry`; an error leaves table and command as they were. -/
def ipaTableAddEntry (table : IpaTable Entry) (recIndex : Nat) (userData : User)
    (cmd : List IpaIocNatDmaOne) : Option (Except Int (Insertion Entry)) :=
  if iface.entryIsValid (table.slots recIndex) then insertTail iface table recIndex userData cmd
  else some (.ok (insertHead iface table recIndex userData cmd))

def ipaTableCreateDeleteCommand (table : IpaTable Entry) (iterator : IpaTableIterator)
    (cmd : List IpaIocNatDmaOne) : List IpaIocNatDmaOne :=
  if iterator.prevIndex = 0 then if iterator.nextIndex ≠ 0 then
      ipaTableAddDmaCmd iface table .deleteHead iterator.currIndex
        (iface.entryGetDeleteHeadDmaCommandData (table.slots iterator.currIndex)
          (table.slots iterator.nextIndex)) cmd
    else ipaTableAddDmaCmd iface table .updateHead iterator.currIndex 0 cmd
  else ipaTableAddDmaCmd iface table .updateEntry iterator.prevIndex iterator.nextIndex cmd

def ipaTableEraseEntry (table : IpaTable Entry) (index : Nat) : IpaTable Entry :=
  let erased := table.put index iface.empty
  if index < table.tableEntries then { erased with curTblCnt := table.curTblCnt - 1 }
  else { erased with curExpnTblCnt := table.curExpnTblCnt - 1 }

/-- The call of `entry_set_prev_index` on a record of the table. -/
def IpaTable.setPrevIndex (table : IpaTable Entry) (index prevIndex : Nat) : IpaTable Entry :=
  let (entry, metaPrevIndex) := iface.entrySetPrevIndex (table.slots index) index prevIndex
    table.metaPrevIndex table.tableEntries
  { table.put index entry with metaPrevIndex := metaPrevIndex }

def ipaTableDeleteEntry (table : IpaTable Entry) (iterator : IpaTableIterator)
    (isPrevEmpty : Bool) : IpaTable Entry :=
  let table :=
    if iterator.nextIndex ≠ 0 then table.setPrevIndex iface iterator.nextIndex iterator.prevIndex
    else if isPrevEmpty ∧ iterator.prevIndex ≠ 0 then
      -- the dead node before the last record of a tail
      { table.put iterator.prevIndex iface.empty with curTblCnt := table.curTblCnt - 1 }
    else table
  ipaTableEraseEntry iface table iterator.currIndex

def ipaTableReset (table : IpaTable Entry) : IpaTable Entry :=
  { table with slots := fun index =>
      if index < table.totTblEnts then iface.empty else table.slots index }

end Operations

end KernelModules.IpaNat

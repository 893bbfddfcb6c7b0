import KernelModules.IpaNat.Chains
import KernelModules.IpaNat.Driver

namespace KernelModules.IpaNat

open Data

/-! # What every history leaves true of the two tables

`Sound` survives every call with every handle: records form chains, index records point to live rules that point
back, and a dead rule heads a tail.  `Indexed`, that each live rule has an index record, does not survive a stale
handle.
-/

def IpaNatRule.payload (rule : IpaNatRule) : IpaNatRule := { rule with nextIndex := 0, prevIndex := 0 }

def IpaNatRule.live (rule : IpaNatRule) : Bool :=
  rule.enable && rule.protocol != ipahalNatInvalidProtocol

def IpaNatRule.dead (rule : IpaNatRule) : Bool :=
  rule.enable && rule.protocol == ipahalNatInvalidProtocol

theorem IpaNatRule.payload_live {rule other : IpaNatRule} (same : rule.payload = other.payload) :
    rule.enable = other.enable ∧ rule.live = other.live ∧ rule.dead = other.dead ∧
      rule.indxTblEntry = other.indxTblEntry := by
  have enable : rule.payload.enable = other.payload.enable := by rw [same]
  have protocol : rule.payload.protocol = other.payload.protocol := by rw [same]
  have idx : rule.payload.indxTblEntry = other.payload.indxTblEntry := by rw [same]
  simp only [payload] at enable protocol idx
  exact ⟨enable, by simp [live, enable, protocol], by simp [dead, enable, protocol], idx⟩

theorem entryInterface_lawful (env : Environment) : (entryInterface env).Lawful IpaNatRule.payload where
  offset help := by
    cases help <;> simp [entryInterface, ipaNatRuleFlagFieldOffset, ipaNatRuleNextFieldOffset,
      ipaNatRuleProtoFieldOffset]
  tableType help := by cases help <;> rfl
  expnTableType help := by cases help <;> rfl
  typesDiffer := by simp [entryInterface]
  emptyInvalid := rfl
  emptyNext := rfl
  writeNext _ _ := rfl
  writeNextValid _ _ := rfl
  writeNextPrev _ _ _ _ _ := rfl
  writeNextPayload _ _ := rfl
  setPrevValid _ _ _ _ _ := rfl
  setPrevNext _ _ _ _ _ := rfl
  setPrevPayload _ _ _ _ _ := rfl
  setPrev _ _ _ _ _ _ := rfl
  setPrevOther _ _ _ _ _ _ _ _ := rfl

theorem indexEntryInterface_lawful : indexEntryInterface.Lawful IpaNatIndxTblRule.tblEntry where
  offset help := by
    cases help <;> simp [indexEntryInterface, ipaNatIndexRuleNextFieldOffset, ipaNatIndexRuleNatIndexFieldOffset]
  tableType help := by cases help <;> rfl
  expnTableType help := by cases help <;> rfl
  typesDiffer := by simp [indexEntryInterface]
  emptyInvalid := rfl
  emptyNext := rfl
  writeNext _ _ := rfl
  writeNextValid _ _ := rfl
  writeNextPrev _ _ _ _ _ := rfl
  writeNextPayload _ _ := rfl
  setPrevValid _ _ _ _ _ := rfl
  setPrevNext _ _ _ _ _ := rfl
  setPrevPayload _ _ _ _ _ := rfl
  setPrev entry index prev previous base high := by
    simp [indexEntryInterface, indexTableEntryGetPrevIndex, indexTableEntrySetPrevIndex, high]
  setPrevOther entry other index otherIndex prev previous base apart := by
    simp only [indexEntryInterface, indexTableEntryGetPrevIndex, indexTableEntrySetPrevIndex]
    split
    · split
      · rw [Function.update_of_ne]
        omega
      · rfl
    · rfl

structure Sound (env : Environment) (cache : IpaNatIp4TableCache)
    (head indexHead : Nat → Nat) : Prop where
  geometry : Geometry cache.table.tableEntries cache.table.expnTableEntries
  sameBase : cache.indexTable.tableEntries = cache.table.tableEntries
  sameExpn : cache.indexTable.expnTableEntries = cache.table.expnTableEntries
  withoutMeta : cache.table.hasMeta = false
  withMeta : cache.indexTable.hasMeta = true
  chained : ∃ rank, Chained (entryInterface env) cache.table head rank
  indexChained : ∃ rank, Chained indexEntryInterface cache.indexTable indexHead rank
  points : ∀ index, (cache.indexTable.slots index).tblEntry ≠ 0 →
    (cache.table.slots (cache.indexTable.slots index).tblEntry).live = true ∧
      (cache.table.slots (cache.indexTable.slots index).tblEntry).indxTblEntry = index
  dead : ∀ index, (cache.table.slots index).dead = true →
    index < cache.table.tableEntries ∧ (cache.table.slots index).nextIndex ≠ 0

def Indexed (cache : IpaNatIp4TableCache) : Prop :=
  ∀ index, (cache.table.slots index).live = true → (cache.table.slots index).indxTblEntry ≠ 0 ∧
      (cache.indexTable.slots (cache.table.slots index).indxTblEntry).tblEntry = index

theorem Geometry.two_le (geometry : Geometry tableEntries expnTableEntries) : 2 ≤ tableEntries := by
  obtain ⟨exponent, power⟩ := geometry.power
  have pos := Nat.two_pow_pos exponent
  omega

section Empty

variable {Entry User Payload : Type}

theorem Chained.blankTable {iface : IpaTableEntryInterface Entry User}
    (lawful : iface.Lawful payload) (blank : tbl.slots = fun _ => iface.empty)
    (base : tbl.curTblCnt = 0) (expn : tbl.curExpnTblCnt = 0) (head rank : Nat → Nat) : Chained iface tbl head rank := by
  have free (idx : Nat) : (tbl.links iface).valid idx = false := by
    simp [IpaTable.links, blank, lawful.emptyInvalid]
  have never {idx : Nat} (taken : (tbl.links iface).valid idx = true) : False := by
    rw [free] at taken
    cases taken
  have none (first limit : Nat) : occupied (tbl.links iface).valid first limit = 0 := by
    rw [occupied, Finset.card_eq_zero, Finset.filter_eq_empty_iff]
    exact fun _ _ taken => never taken
  exact ⟨⟨fun _ taken => (never taken).elim, fun _ taken => (never taken).elim,
    fun _ taken => (never taken).elim, fun _ taken => (never taken).elim⟩,
    fun idx _ => by rw [blank], by rw [base, none], by rw [expn, none]⟩

end Empty

theorem Sound.of_blank (cache : IpaNatIp4TableCache)
    (geometry : Geometry cache.table.tableEntries cache.table.expnTableEntries)
    (sameBase : cache.indexTable.tableEntries = cache.table.tableEntries)
    (sameExpn : cache.indexTable.expnTableEntries = cache.table.expnTableEntries)
    (withoutMeta : cache.table.hasMeta = false) (withMeta : cache.indexTable.hasMeta = true)
    (blank : cache.table.slots = fun _ => .empty) (indexBlank : cache.indexTable.slots = fun _ => ⟨0, 0⟩)
    (counts : cache.table.curTblCnt = 0 ∧ cache.table.curExpnTblCnt = 0 ∧
      cache.indexTable.curTblCnt = 0 ∧ cache.indexTable.curExpnTblCnt = 0) (head indexHead : Nat → Nat) : Sound env cache head indexHead ∧ Indexed cache := by
  refine ⟨⟨geometry, sameBase, sameExpn, withoutMeta, withMeta, ⟨id, ?_⟩, ⟨id, ?_⟩,
    fun idx points => ?_, fun idx dead => ?_⟩, fun idx live => ?_⟩
  · exact .blankTable (entryInterface_lawful env) blank counts.1 counts.2.1 _ _
  · exact .blankTable indexEntryInterface_lawful indexBlank counts.2.2.1 counts.2.2.2 _ _
  · rw [indexBlank] at points
    exact absurd rfl points
  · rw [blank] at dead
    cases dead
  · rw [blank] at live
    cases live

end KernelModules.IpaNat

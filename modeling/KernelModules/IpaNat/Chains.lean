import KernelModules.Data.SlotChain
import KernelModules.IpaNat.Table

namespace KernelModules.IpaNat

open Data Function IpaTable

/-! # A table as an array of chains

Where an insertion goes, what appending a record and taking one out do to the chains, and what they never touch.
-/

section Tables

variable {Entry User Payload : Type} {iface : IpaTableEntryInterface Entry User}

/-- Writes of a next or previous index are read back, and keep `payload` and everything else. -/
structure IpaTableEntryInterface.Lawful (iface : IpaTableEntryInterface Entry User)
    (payload : Entry → Payload) : Prop where
  offset : ∀ help, (iface.dmaHelp help).offset < iface.entrySize
  tableType : ∀ help, (iface.dmaHelp help).tableType = (iface.dmaHelp .updateHead).tableType
  expnTableType : ∀ help, (iface.dmaHelp help).expnTableType = (iface.dmaHelp .updateHead).expnTableType
  typesDiffer : (iface.dmaHelp .updateHead).expnTableType ≠ (iface.dmaHelp .updateHead).tableType
  emptyInvalid : iface.entryIsValid iface.empty = false
  emptyNext : iface.entryGetNextIndex iface.empty = 0
  writeNext : ∀ entry next, iface.entryGetNextIndex
    (iface.entryDmaWrite entry (iface.dmaHelp .updateEntry).offset next) = next
  writeNextValid : ∀ entry next, iface.entryIsValid
    (iface.entryDmaWrite entry (iface.dmaHelp .updateEntry).offset next) = iface.entryIsValid entry
  writeNextPrev : ∀ entry next index previous base, iface.entryGetPrevIndex
    (iface.entryDmaWrite entry (iface.dmaHelp .updateEntry).offset next) index previous
      base = iface.entryGetPrevIndex entry index previous base
  writeNextPayload : ∀ entry next,
    payload (iface.entryDmaWrite entry (iface.dmaHelp .updateEntry).offset next) = payload entry
  setPrevValid : ∀ entry index prev previous base, iface.entryIsValid
    (iface.entrySetPrevIndex entry index prev previous base).1 = iface.entryIsValid entry
  setPrevNext : ∀ entry index prev previous base, iface.entryGetNextIndex
    (iface.entrySetPrevIndex entry index prev previous base).1 = iface.entryGetNextIndex entry
  setPrevPayload : ∀ entry index prev previous base,
    payload (iface.entrySetPrevIndex entry index prev previous base).1 = payload entry
  setPrev : ∀ entry index prev previous base, base ≤ index → iface.entryGetPrevIndex
    (iface.entrySetPrevIndex entry index prev previous base).1 index
    (iface.entrySetPrevIndex entry index prev previous base).2 base = prev
  setPrevOther : ∀ entry other index otherIndex prev previous base, otherIndex ≠ index →
    iface.entryGetPrevIndex other otherIndex
      (iface.entrySetPrevIndex entry index prev previous base).2 base =
        iface.entryGetPrevIndex other otherIndex previous base

def IpaTable.links (iface : IpaTableEntryInterface Entry User) (table : IpaTable Entry) : Links where
  valid index := iface.entryIsValid (table.slots index)
  next index := iface.entryGetNextIndex (table.slots index)
  prev index := iface.entryGetPrevIndex (table.slots index) index table.metaPrevIndex
    table.tableEntries

def IpaTable.setNextIndex (iface : IpaTableEntryInterface Entry User)
    (table : IpaTable Entry) (index next : Nat) : IpaTable Entry :=
  table.writeField iface index (iface.dmaHelp .updateEntry).offset next

def IpaTable.counted (table : IpaTable Entry) (index : Nat) : IpaTable Entry :=
  if index < table.tableEntries then { table with curTblCnt := table.curTblCnt + 1 }
  else { table with curExpnTblCnt := table.curExpnTblCnt + 1 }

/-- A record in a free slot, at the end of the chain of `last`, or on its own. -/
def IpaTable.append (iface : IpaTableEntryInterface Entry User) (table : IpaTable Entry)
    (slot last : Nat) (entry : Entry) : IpaTable Entry :=
  let filled := (table.put slot entry).counted slot
  if last = 0 then filled
  else (filled.setPrevIndex iface slot last).setNextIndex iface last slot

/-- `prev` and `next` made neighbours; zero is none. -/
def IpaTable.bypass (iface : IpaTableEntryInterface Entry User) (table : IpaTable Entry)
    (prev next : Nat) : IpaTable Entry :=
  let forward := if prev = 0 then table else table.setNextIndex iface prev next
  if next = 0 then forward else forward.setPrevIndex iface next prev

def IpaTable.unlink (iface : IpaTableEntryInterface Entry User) (table : IpaTable Entry)
    (slot : Nat) : IpaTable Entry :=
  ipaTableEraseEntry iface
    (table.bypass iface ((table.links iface).prev slot)
      ((table.links iface).next slot)) slot

structure Chained (iface : IpaTableEntryInterface Entry User) (table : IpaTable Entry)
    (head rank : Nat → Nat) : Prop where
  linked : Linked table.tableEntries table.totTblEnts (table.links iface) head rank
  blank : ∀ slot, (table.links iface).valid slot = false → table.slots slot = iface.empty
  baseCount : table.curTblCnt = occupied (table.links iface).valid 0 table.tableEntries
  expnCount : table.curExpnTblCnt = occupied (table.links iface).valid table.tableEntries table.totTblEnts

variable {payload : Entry → Payload} {table : IpaTable Entry} {slot last index : Nat}
  {head rank : Nat → Nat}

@[simp]
theorem IpaTable.put_fields : (table.put index entry).slots = update table.slots index entry ∧
      (table.put index entry).tableEntries = table.tableEntries ∧
      (table.put index entry).expnTableEntries = table.expnTableEntries ∧
      (table.put index entry).nmi = table.nmi ∧ (table.put index entry).hasMeta = table.hasMeta ∧
      (table.put index entry).metaPrevIndex = table.metaPrevIndex ∧
      (table.put index entry).curTblCnt = table.curTblCnt ∧
      (table.put index entry).curExpnTblCnt = table.curExpnTblCnt :=
  ⟨rfl, rfl, rfl, rfl, rfl, rfl, rfl, rfl⟩

theorem links_setNextIndex (lawful : iface.Lawful payload) (next : Nat) :
    (table.setNextIndex iface index next).links iface = { table.links iface with
        next := update (table.links iface).next index next } := by
  have valid (other : Nat) : iface.entryIsValid ((table.setNextIndex iface index next).slots other) =
        iface.entryIsValid (table.slots other) := by
    simp only [setNextIndex, writeField, put, update_apply]
    split
    · rename_i same
      rw [lawful.writeNextValid, same]
    · rfl
  have follows (other : Nat) : iface.entryGetNextIndex ((table.setNextIndex iface index next).slots other) =
        update (table.links iface).next index next other := by
    simp only [setNextIndex, writeField, put, update_apply]
    split
    · exact lawful.writeNext _ _
    · rfl
  have precedes (other : Nat) : iface.entryGetPrevIndex ((table.setNextIndex iface index next).slots other) other
        table.metaPrevIndex table.tableEntries = (table.links iface).prev other := by
    simp only [setNextIndex, writeField, put, update_apply]
    split
    · rename_i same
      rw [lawful.writeNextPrev, same, links]
    · rfl
  simp only [links, valid]
  exact congrArg₂ (Links.mk _) (funext follows) (funext precedes)

theorem links_setPrevIndex (lawful : iface.Lawful payload) (prev : Nat)
    (high : table.tableEntries ≤ index) : (table.setPrevIndex iface index prev).links iface =
      { table.links iface with
        prev := update (table.links iface).prev index prev } := by
  have valid (other : Nat) : iface.entryIsValid ((table.setPrevIndex iface index prev).slots other) =
        iface.entryIsValid (table.slots other) := by
    simp only [setPrevIndex, put, update_apply]
    split
    · rename_i same
      rw [lawful.setPrevValid, same]
    · rfl
  have follows (other : Nat) : iface.entryGetNextIndex ((table.setPrevIndex iface index prev).slots other) =
        iface.entryGetNextIndex (table.slots other) := by
    simp only [setPrevIndex, put, update_apply]
    split
    · rename_i same
      rw [lawful.setPrevNext, same]
    · rfl
  have precedes (other : Nat) : iface.entryGetPrevIndex ((table.setPrevIndex iface index prev).slots other) other
        (table.setPrevIndex iface index prev).metaPrevIndex table.tableEntries =
          update (table.links iface).prev index prev other := by
    simp only [setPrevIndex, put, update_apply]
    split
    · rename_i same
      rw [same]
      exact lawful.setPrev _ _ _ _ _ high
    · rename_i apart
      exact lawful.setPrevOther _ _ _ _ _ _ _ apart
  simp only [links, valid, follows]
  exact congrArg (Links.mk _ _) (funext precedes)

@[simp]
theorem IpaTable.setNextIndex_tableEntries (next : Nat) :
    (table.setNextIndex iface index next).tableEntries = table.tableEntries := rfl

@[simp]
theorem IpaTable.setPrevIndex_tableEntries (prev : Nat) :
    (table.setPrevIndex iface index prev).tableEntries = table.tableEntries := rfl

theorem setNextIndex_payload (lawful : iface.Lawful payload) (next : Nat) :
    payload ((table.setNextIndex iface index next).slots other) = payload (table.slots other) := by
  simp only [setNextIndex, writeField, put, update_apply]
  split
  · rename_i same
    rw [lawful.writeNextPayload, same]
  · rfl

theorem setPrevIndex_payload (lawful : iface.Lawful payload) (prev : Nat) :
    payload ((table.setPrevIndex iface index prev).slots other) = payload (table.slots other) := by
  simp only [setPrevIndex, put, update_apply]
  split
  · rename_i same
    rw [lawful.setPrevPayload, same]
  · rfl

@[simp]
theorem IpaTable.counted_links : (table.counted index).links iface = table.links iface := by
  unfold counted
  split <;> rfl

@[simp]
theorem IpaTable.counted_fields : (table.counted index).slots = table.slots ∧
      (table.counted index).tableEntries = table.tableEntries ∧
      (table.counted index).expnTableEntries = table.expnTableEntries ∧
      (table.counted index).nmi = table.nmi ∧ (table.counted index).hasMeta = table.hasMeta ∧
      (table.counted index).metaPrevIndex = table.metaPrevIndex := by
  unfold counted
  split <;> simp

@[simp]
theorem IpaTable.append_fields (iface : IpaTableEntryInterface Entry User)
    (table : IpaTable Entry) (slot last : Nat) (entry : Entry) :
    (table.append iface slot last entry).tableEntries = table.tableEntries ∧
      (table.append iface slot last entry).expnTableEntries = table.expnTableEntries ∧
      (table.append iface slot last entry).nmi = table.nmi ∧
      (table.append iface slot last entry).hasMeta = table.hasMeta := by
  unfold append
  split <;> simp [setPrevIndex, setNextIndex, writeField, put]

@[simp]
theorem IpaTable.append_totTblEnts : (table.append iface slot last entry).totTblEnts = table.totTblEnts := by
  simp [totTblEnts]

theorem IpaTable.counted_counts : (table.counted index).curTblCnt =
        table.curTblCnt + (if index < table.tableEntries then 1 else 0) ∧
      (table.counted index).curExpnTblCnt = table.curExpnTblCnt + (if index < table.tableEntries then 0 else 1) := by
  unfold counted
  split <;> exact ⟨rfl, rfl⟩

theorem IpaTable.append_counts : (table.append iface slot last entry).curTblCnt =
        table.curTblCnt + (if slot < table.tableEntries then 1 else 0) ∧
      (table.append iface slot last entry).curExpnTblCnt =
        table.curExpnTblCnt + (if slot < table.tableEntries then 0 else 1) := by
  unfold append
  split <;> exact (table.put slot entry).counted_counts

theorem append_slots_other (notSlot : other ≠ slot) (notLast : last ≠ 0 → other ≠ last) :
    (table.append iface slot last entry).slots other = table.slots other := by
  unfold append
  split
  · simp [notSlot]
  · rename_i old
    simp [setPrevIndex, setNextIndex, writeField, put, notSlot, notLast old]

theorem append_payload (lawful : iface.Lawful payload) (notSlot : other ≠ slot) :
    payload ((table.append iface slot last entry).slots other) = payload (table.slots other) := by
  unfold append
  split
  · simp [notSlot]
  · rw [setNextIndex_payload lawful, setPrevIndex_payload lawful]
    simp [notSlot]

theorem append_payload_slot (lawful : iface.Lawful payload) :
    payload ((table.append iface slot last entry).slots slot) = payload entry := by
  unfold append
  split
  · simp
  · rw [setNextIndex_payload lawful, setPrevIndex_payload lawful]
    simp

/-- Where a new record goes: its base slot, or an expansion slot after the last record of the chain there. -/
structure Placed (iface : IpaTableEntryInterface Entry User) (table : IpaTable Entry)
    (head : Nat → Nat) (start slot last : Nat) : Prop where
  free : (table.links iface).valid slot = false
  nonzero : slot ≠ 0
  bounded : slot < table.totTblEnts
  alone : last = 0 → slot = start ∧ slot < table.tableEntries
  after : last ≠ 0 → table.tableEntries ≤ slot ∧ (table.links iface).valid last = true ∧
    (table.links iface).next last = 0 ∧ head last = start

theorem links_fill (table : IpaTable Entry) (slot : Nat) (valid : iface.entryIsValid entry = true)
    (ends : iface.entryGetNextIndex entry = 0) : let filled := (table.put slot entry).links iface
    (∀ other, filled.valid other = ((table.links iface).valid other || other == slot)) ∧
      filled.next slot = 0 ∧ ∀ other, other ≠ slot → filled.next other = (table.links iface).next other ∧
        filled.prev other = (table.links iface).prev other := by
  refine ⟨fun other => ?_, ?_, fun other apart => ?_⟩
  · by_cases same : other = slot
    · simp [links, same, valid]
    · simp [links, same]
  · simp [links, ends]
  · simp [links, apart]

theorem Placed.inserted (lawful : iface.Lawful payload) (nothing : (table.links iface).valid 0 = false)
    (placed : Placed iface table head start slot last) (valid : iface.entryIsValid entry = true)
    (ends : iface.entryGetNextIndex entry = 0)
    (alone : last = 0 → iface.entryGetPrevIndex entry slot table.metaPrevIndex table.tableEntries = 0) :
    Links.Inserted (table.links iface) ((table.append iface slot last entry).links iface) slot last := by
  obtain ⟨filledValid, filledNext, filledOther⟩ :=
    links_fill table slot valid ends
  by_cases new : last = 0
  · have links : (table.append iface slot last entry).links iface = (table.put slot entry).links iface := by
      rw [append, if_pos new, counted_links]
    rw [links]
    refine ⟨filledValid, filledNext, ?_, fun other taken apart => ?_, fun other _ apart => (filledOther other apart).2⟩
    · simpa [IpaTable.links, new] using alone new
    · rw [(filledOther other apart).1, if_neg]
      intro zero
      rw [zero, new, nothing] at taken
      cases taken
  · obtain ⟨high, lastValid, -, -⟩ := placed.after new
    have notLast : slot ≠ last := by
      intro same
      rw [← same, placed.free] at lastValid
      cases lastValid
    rw [append, if_neg new, links_setNextIndex lawful, links_setPrevIndex lawful _ (by simpa using high), counted_links]
    refine ⟨filledValid, ?_, update_self .., fun other _ apart => ?_, fun other _ apart => ?_⟩
    · exact (update_of_ne notLast _ _).trans filledNext
    · simp only [update_apply]
      split
      · rfl
      · exact (filledOther other apart).1
    · exact (update_of_ne apart _ _).trans (filledOther other apart).2

theorem Chained.nothing (chained : Chained iface table head rank) : (table.links iface).valid 0 = false := by
  cases taken : (table.links iface).valid 0 with
  | false => rfl
  | true => exact absurd rfl (chained.linked.inRange 0 taken).1

theorem Chained.append (lawful : iface.Lawful payload) (chained : Chained iface table head rank)
    (placed : Placed iface table head start slot last) (valid : iface.entryIsValid entry = true)
    (ends : iface.entryGetNextIndex entry = 0)
    (alone : last = 0 → iface.entryGetPrevIndex entry slot table.metaPrevIndex table.tableEntries = 0) :
    ∃ rank, Chained iface (table.append iface slot last entry) (update head slot start) rank := by
  have inserted := placed.inserted lawful chained.nothing valid ends alone
  have linked := chained.linked.insert inserted placed.free placed.nonzero placed.bounded (by
    split
    · rename_i new
      exact (placed.alone new).2
    · rename_i old
      obtain ⟨high, lastValid, lastEnds, -⟩ := placed.after old
      exact ⟨high, lastValid, lastEnds⟩)
  have heads : (if last = 0 then slot else head last) = start := by
    split
    · rename_i new
      exact (placed.alone new).1
    · rename_i old
      exact (placed.after old).2.2.2
  rw [heads] at linked
  have counts (first limit : Nat) :=
    occupied_insert first limit inserted.valid placed.free
  have bounded := placed.bounded
  refine ⟨_, ⟨by simpa using linked, fun other free => ?_, ?_, ?_⟩⟩
  · rw [inserted.valid, Bool.or_eq_false_iff, beq_eq_false_iff_ne] at free
    rw [append_slots_other free.2, chained.blank other free.1]
    intro old isLast
    have lastValid := (placed.after old).2.1
    rw [← isLast, free.1] at lastValid
    cases lastValid
  · rw [counts, append_counts.1, chained.baseCount]
    simp
  · rw [(append_fields _ _ _ _ _).1, append_totTblEnts, counts, append_counts.2, chained.expnCount]
    split <;> split <;> omega

theorem links_erase (iface : IpaTableEntryInterface Entry User) (table : IpaTable Entry) (slot : Nat) :
    (∀ other, ((ipaTableEraseEntry iface table slot).links iface).valid other =
      if other = slot then iface.entryIsValid iface.empty else (table.links iface).valid other) ∧
    ∀ other, other ≠ slot → ((ipaTableEraseEntry iface table slot).links iface).next other =
        (table.links iface).next other ∧
      ((ipaTableEraseEntry iface table slot).links iface).prev other = (table.links iface).prev other := by
  unfold ipaTableEraseEntry
  split
  all_goals
    refine ⟨fun other => ?_, fun other apart => ?_⟩
    · simp only [links, put, update_apply]
      split <;> rfl
    · simp [links, apart]

@[simp]
theorem ipaTableEraseEntry_fields : (ipaTableEraseEntry iface table slot).tableEntries = table.tableEntries ∧
      (ipaTableEraseEntry iface table slot).expnTableEntries = table.expnTableEntries ∧
      (ipaTableEraseEntry iface table slot).nmi = table.nmi ∧
      (ipaTableEraseEntry iface table slot).hasMeta = table.hasMeta ∧
      (ipaTableEraseEntry iface table slot).metaPrevIndex = table.metaPrevIndex ∧
      (ipaTableEraseEntry iface table slot).slots = update table.slots slot iface.empty := by
  unfold ipaTableEraseEntry
  split <;> simp

theorem ipaTableEraseEntry_counts : (ipaTableEraseEntry iface table slot).curTblCnt =
        table.curTblCnt - (if slot < table.tableEntries then 1 else 0) ∧
      (ipaTableEraseEntry iface table slot).curExpnTblCnt =
        table.curExpnTblCnt - (if slot < table.tableEntries then 0 else 1) := by
  unfold ipaTableEraseEntry
  split <;> exact ⟨rfl, rfl⟩

@[simp]
theorem IpaTable.bypass_fields (prev next : Nat) : (table.bypass iface prev next).tableEntries = table.tableEntries ∧
      (table.bypass iface prev next).expnTableEntries = table.expnTableEntries ∧
      (table.bypass iface prev next).nmi = table.nmi ∧ (table.bypass iface prev next).hasMeta = table.hasMeta ∧
      (table.bypass iface prev next).curTblCnt = table.curTblCnt ∧
      (table.bypass iface prev next).curExpnTblCnt = table.curExpnTblCnt := by
  unfold bypass
  split <;> split <;> simp [setPrevIndex, setNextIndex, writeField, put]

theorem bypass_payload (lawful : iface.Lawful payload) (prev next : Nat) :
    payload ((table.bypass iface prev next).slots other) = payload (table.slots other) := by
  have forward : payload ((if prev = 0 then table
      else table.setNextIndex iface prev next).slots other) = payload (table.slots other) := by
    split
    · rfl
    · exact setNextIndex_payload lawful _
  by_cases more : next = 0
  · rw [bypass, if_pos more]
    exact forward
  · rw [bypass, if_neg more]
    exact (setPrevIndex_payload lawful _).trans forward

theorem bypass_slots_other (notPrev : prev ≠ 0 → other ≠ prev) (notNext : next ≠ 0 → other ≠ next) :
    (table.bypass iface prev next).slots other = table.slots other := by
  have forward : (if prev = 0 then table
      else table.setNextIndex iface prev next).slots other = table.slots other := by
    split
    · rfl
    · rename_i some
      exact update_of_ne (notPrev some) _ _
  by_cases more : next = 0
  · rw [bypass, if_pos more]
    exact forward
  · rw [bypass, if_neg more]
    exact (update_of_ne (notNext more) _ _).trans forward

theorem links_bypass (lawful : iface.Lawful payload) (prev : Nat) (high : next ≠ 0 → table.tableEntries ≤ next) :
    let around := (table.bypass iface prev next).links iface
    around.valid = (table.links iface).valid ∧ (∀ other, around.next other =
        if prev ≠ 0 ∧ other = prev then next else (table.links iface).next other) ∧
      ∀ other, around.prev other = if next ≠ 0 ∧ other = next then prev else (table.links iface).prev other := by
  by_cases some : prev = 0
  · by_cases more : next = 0
    · simp [bypass, some, more]
    · rw [bypass, if_pos some, if_neg more, links_setPrevIndex lawful _ (high more)]
      simp [some, more, update_apply]
  by_cases more : next = 0
  · rw [bypass, if_neg some, if_pos more, links_setNextIndex lawful]
    simp [some, more, update_apply]
  · rw [bypass, if_neg some, if_neg more,
      links_setPrevIndex lawful _ (by simpa using high more), links_setNextIndex lawful]
    simp [some, more, update_apply]

@[simp]
theorem IpaTable.unlink_fields : (table.unlink iface slot).tableEntries = table.tableEntries ∧
      (table.unlink iface slot).expnTableEntries = table.expnTableEntries ∧
      (table.unlink iface slot).nmi = table.nmi ∧ (table.unlink iface slot).hasMeta = table.hasMeta := by
  simp [unlink]

@[simp]
theorem IpaTable.unlink_totTblEnts : (table.unlink iface slot).totTblEnts = table.totTblEnts := by
  simp [totTblEnts]

theorem IpaTable.unlink_counts : (table.unlink iface slot).curTblCnt =
        table.curTblCnt - (if slot < table.tableEntries then 1 else 0) ∧ (table.unlink iface slot).curExpnTblCnt =
        table.curExpnTblCnt - (if slot < table.tableEntries then 0 else 1) := by
  simp [unlink, ipaTableEraseEntry_counts]

theorem unlink_slot : (table.unlink iface slot).slots slot = iface.empty := by
  simp [unlink]

theorem unlink_payload (lawful : iface.Lawful payload) (apart : other ≠ slot) :
    payload ((table.unlink iface slot).slots other) = payload (table.slots other) := by
  simp [unlink, apart, bypass_payload lawful]

theorem unlink_slots_other (notSlot : other ≠ slot)
    (notPrev : (table.links iface).prev slot ≠ 0 → other ≠ (table.links iface).prev slot)
    (notNext : (table.links iface).next slot ≠ 0 → other ≠ (table.links iface).next slot) :
    (table.unlink iface slot).slots other = table.slots other := by
  simp [unlink, notSlot, bypass_slots_other notPrev notNext]

section

variable (lawful : iface.Lawful payload) (chained : Chained iface table head rank)
  (taken : (table.links iface).valid slot = true)
include lawful chained taken

theorem Chained.removed : Links.Removed (table.links iface) ((table.unlink iface slot).links iface) slot := by
  have high (more : (table.links iface).next slot ≠ 0) :=
    (chained.linked.forward slot taken more).2.1
  obtain ⟨valid, next, prev⟩ :=
    links_bypass lawful ((table.links iface).prev slot) high
  obtain ⟨erasedValid, erasedOther⟩ := links_erase iface
    (table.bypass iface ((table.links iface).prev slot) ((table.links iface).next slot))
    slot
  have ne {other : Nat} (taken : (table.links iface).valid other = true) : other ≠ 0 :=
    (chained.linked.inRange other taken).1
  refine ⟨fun other => ?_, fun other otherTaken apart => ?_, fun other otherTaken apart => ?_⟩
  · rw [unlink, erasedValid, valid, lawful.emptyInvalid]
    by_cases same : other = slot
    · simp [same]
    · simp [same]
  · rw [unlink]
    grind
  · rw [unlink]
    grind

theorem Chained.unlink (notHeadWithTail : table.tableEntries ≤ slot ∨ (table.links iface).next slot = 0) :
    Chained iface (table.unlink iface slot) head rank := by
  have removed := chained.removed lawful taken
  have linked := chained.linked.remove removed taken notHeadWithTail
  have counts (first limit : Nat) :=
    occupied_remove first limit removed.valid taken
  have bounded := (chained.linked.inRange slot taken).2
  refine ⟨by simpa using linked, fun other free => ?_, ?_, ?_⟩
  · by_cases same : other = slot
    · rw [same, unlink_slot]
    have otherFree : (table.links iface).valid other = false := by
      simpa [removed.valid, same] using free
    rw [unlink_slots_other same, chained.blank other otherFree]
    · intro some isPrev
      rcases lt_or_ge slot table.tableEntries with low | high
      · exact some (chained.linked.first slot taken low).1
      · have prevTaken := (chained.linked.back slot taken high).1
        rw [← isPrev, otherFree] at prevTaken
        cases prevTaken
    · intro more isNext
      have nextTaken := (chained.linked.forward slot taken more).1
      rw [← isNext, otherFree] at nextTaken
      cases nextTaken
  · rw [unlink_counts.1, chained.baseCount, counts]
    simp
  · rw [unlink_fields.1, unlink_totTblEnts, unlink_counts.2, chained.expnCount, counts]
    have same : (if slot < table.tableEntries then 0 else 1) =
        if table.tableEntries ≤ slot ∧ slot < table.totTblEnts then 1 else 0 := by
      split <;> split <;> omega
    rw [same, Nat.add_sub_cancel]

end

theorem Chained.congr (chained : Chained iface table head rank) (base : after.tableEntries = table.tableEntries)
    (expn : after.expnTableEntries = table.expnTableEntries) (baseCount : after.curTblCnt = table.curTblCnt)
    (expnCount : after.curExpnTblCnt = table.curExpnTblCnt)
    (valid : (after.links iface).valid = (table.links iface).valid)
    (next : ∀ other, (table.links iface).valid other = true →
      (after.links iface).next other = (table.links iface).next other)
    (prev : ∀ other, (table.links iface).valid other = true →
      (after.links iface).prev other = (table.links iface).prev other)
    (blank : ∀ other, (table.links iface).valid other = false →
      after.slots other = table.slots other) : Chained iface after head rank := by
  have total : after.totTblEnts = table.totTblEnts := by
    rw [totTblEnts, base, expn, totTblEnts]
  refine ⟨?_, fun other free => ?_, ?_, ?_⟩
  · rw [base, total]
    exact chained.linked.congr (fun other => by rw [valid]) next prev
  · rw [valid] at free
    rw [blank other free, chained.blank other free]
  · rw [baseCount, chained.baseCount, valid, base]
  · rw [expnCount, chained.expnCount, valid, base, total]

theorem links_put (valid : iface.entryIsValid entry = (table.links iface).valid slot)
    (next : iface.entryGetNextIndex entry = (table.links iface).next slot)
    (prev : iface.entryGetPrevIndex entry slot table.metaPrevIndex table.tableEntries =
      (table.links iface).prev slot) : (table.put slot entry).links iface = table.links iface := by
  have same (other : Nat) : (update table.slots slot entry other = table.slots other) ∨
        other = slot ∧ update table.slots slot entry other = entry := by
    by_cases here : other = slot
    · exact .inr ⟨here, by rw [here, update_self]⟩
    · exact .inl (update_of_ne here _ _)
  simp only [links, Links.mk.injEq, put_fields] at valid next prev ⊢
  refine ⟨funext fun other => ?_, funext fun other => ?_, funext fun other => ?_⟩
  all_goals
    rcases same other with kept | ⟨here, written⟩
    · rw [kept]
    · rw [written, here]
      assumption

theorem Chained.put (chained : Chained iface table head rank) (taken : (table.links iface).valid slot = true)
    (links : (table.put slot entry).links iface = table.links iface) :
    Chained iface (table.put slot entry) head rank := by
  refine chained.congr rfl rfl rfl rfl (by rw [links]) (fun other _ => by rw [links])
    (fun other _ => by rw [links]) fun other free => ?_
  have apart : other ≠ slot := by
    intro same
    rw [same, taken] at free
    cases free
  simp [apart]

theorem Chained.erase (lawful : iface.Lawful payload) (chained : Chained iface table head rank)
    (taken : (table.links iface).valid slot = true)
    (first : (table.links iface).prev slot = 0) (ends : (table.links iface).next slot = 0) :
    Chained iface (ipaTableEraseEntry iface table slot) head rank := by
  have alone := chained.unlink lawful taken (.inr ends)
  rw [IpaTable.unlink, first, ends] at alone
  exact alone

theorem ipaTableIteratorEnd_of_chain (linked : Linked table.tableEntries table.totTblEnts (table.links iface) head rank)
    (walked : ChainFrom (table.links iface).next slot chain)
    (taken : (table.links iface).valid slot = true) (enough : chain.length ≤ rounds) :
    ∃ last, ipaTableIteratorEnd iface table rounds slot = some (.ok last) ∧
      (table.links iface).valid last = true ∧ (table.links iface).next last = 0 ∧ head last = head slot := by
  induction walked generalizing rounds with
  | last ends =>
    obtain ⟨rounds, rfl⟩ := Nat.exists_eq_add_of_le' enough
    refine ⟨_, ?_, taken, ends, rfl⟩
    exact if_pos ends
  | @cons slot rest more tail ih =>
    cases rounds with
    | zero => cases enough
    | succ rounds =>
      have sameHead := (linked.next_rank taken more).1
      have apart := linked.next_ne taken more
      obtain ⟨last, found, lastTaken, ends, lastHead⟩ :=
        ih (linked.forward slot taken more).1 (Nat.le_of_succ_le_succ enough)
      refine ⟨last, ?_, lastTaken, ends, lastHead.trans sameHead⟩
      rw [ipaTableIteratorEnd]
      simp only [links] at more apart found
      rw [if_neg more, if_neg apart, found]

theorem Chained.iteratorEnd (chained : Chained iface table head rank) (taken : (table.links iface).valid slot = true) :
    ∃ last, ipaTableIteratorEnd iface table table.totTblEnts slot = some (.ok last) ∧
      (table.links iface).valid last = true ∧ (table.links iface).next last = 0 ∧ head last = head slot := by
  obtain ⟨chain, walked, short, -⟩ := chained.linked.chain taken
  have small := chained.linked.ahead_lt taken
  exact ipaTableIteratorEnd_of_chain chained.linked walked taken (by omega)

theorem ipaTableWalkLoop_mtSlot (iface : IpaTableEntryInterface Entry User)
    (table : IpaTable Entry) (indices : List Nat) (pos : ∀ index ∈ indices, index ≠ 0) :
    (∃ free ∈ indices, (table.links iface).valid free = false ∧
      ipaTableWalkLoop iface table .whenSlotEmpty mtSlot indices () = some ((free : Int), ())) ∨
    ((∀ index ∈ indices, (table.links iface).valid index = true) ∧
      ipaTableWalkLoop iface table .whenSlotEmpty mtSlot indices () = some (0, ())) := by
  induction indices with
  | nil => exact .inr ⟨by simp, rfl⟩
  | cons index rest ih =>
    have some := pos index List.mem_cons_self
    cases taken : (table.links iface).valid index with
    | false =>
      refine .inl ⟨index, List.mem_cons_self, taken, ?_⟩
      simp only [links] at taken
      simp [ipaTableWalkLoop, taken, mtSlot, some]
    | true =>
      have skip : ipaTableWalkLoop iface table .whenSlotEmpty mtSlot (index :: rest) () =
          ipaTableWalkLoop iface table .whenSlotEmpty mtSlot rest () := by
        simp only [links] at taken
        simp [ipaTableWalkLoop, taken]
      rw [skip]
      rcases ih fun other mem => pos other (List.mem_cons_of_mem _ mem) with
        ⟨free, mem, isFree, found⟩ | ⟨full, none⟩
      · exact .inl ⟨free, List.mem_cons_of_mem _ mem, isFree, found⟩
      · refine .inr ⟨fun other mem => ?_, none⟩
        rcases List.mem_cons.mp mem with here | later
        · rw [here, taken]
        · exact full other later

theorem findExpnTblFreeEntry_cases (iface : IpaTableEntryInterface Entry User)
    (base : 0 < table.tableEntries) : (∃ free, findExpnTblFreeEntry iface table = .ok free ∧
      (table.links iface).valid free = false ∧ table.tableEntries ≤ free ∧ free < table.totTblEnts) ∨
    (findExpnTblFreeEntry iface table = .error (-1) ∧
      ∀ index, table.tableEntries ≤ index → index < table.totTblEnts → (table.links iface).valid index = true) := by
  by_cases room : table.totTblEnts ≤ table.tableEntries
  · refine .inr ⟨?_, fun index high low => ?_⟩
    · simp [findExpnTblFreeEntry, ipaTableWalk, room, einval]
    · omega
  have members (index : Nat) : index ∈ List.range' table.tableEntries
      (table.totTblEnts - table.tableEntries) ↔ table.tableEntries ≤ index ∧ index < table.totTblEnts := by
    rw [List.mem_range'_1]
    omega
  rcases ipaTableWalkLoop_mtSlot iface table _
    (fun index mem => Nat.ne_of_gt (lt_of_lt_of_le base ((members index).mp mem).1)) with
    ⟨free, mem, isFree, found⟩ | ⟨full, none⟩
  · have range := (members free).mp mem
    have pos : free ≠ 0 := by omega
    refine .inl ⟨free, ?_, isFree, range.1, range.2⟩
    simp [findExpnTblFreeEntry, ipaTableWalk, room, found, pos]
  · refine .inr ⟨?_, fun index high low => full index ((members index).mpr ⟨high, low⟩)⟩
    simp [findExpnTblFreeEntry, ipaTableWalk, room, none]

theorem ipaTableGetEntryByIndex_some (ne : index ≠ 0) (bounded : index < table.totTblEnts) :
    ipaTableGetEntryByIndex table index = some index := by
  simp [ipaTableGetEntryByIndex, ne, bounded]

section

variable (chained : Chained iface table head rank)
  (taken : (table.links iface).valid slot = true)
include chained taken

theorem Chained.prev_taken (some : (table.links iface).prev slot ≠ 0) : table.tableEntries ≤ slot ∧
      (table.links iface).valid ((table.links iface).prev slot) = true ∧
      (table.links iface).next ((table.links iface).prev slot) = slot := by
  rcases lt_or_ge slot table.tableEntries with low | high
  · exact absurd (chained.linked.first slot taken low).1 some
  · have back := chained.linked.back slot taken high
    exact ⟨high, back.1, back.2.1⟩

theorem Chained.iteratorInit : ipaTableIteratorInit iface table slot =
      .ok ⟨(table.links iface).prev slot, slot, (table.links iface).next slot⟩ := by
  have prevFound : (table.links iface).prev slot ≠ 0 →
      ipaTableGetEntryByIndex table ((table.links iface).prev slot) ≠ none := by
    intro some
    have range := chained.linked.inRange _ (chained.prev_taken taken some).2.1
    simp [ipaTableGetEntryByIndex_some range.1 range.2]
  have nextFound : (table.links iface).next slot ≠ 0 →
      ipaTableGetEntryByIndex table ((table.links iface).next slot) ≠ none := by
    intro more
    have range := chained.linked.inRange _ (chained.linked.forward slot taken more).1
    simp [ipaTableGetEntryByIndex_some range.1 range.2]
  simp only [links] at taken prevFound nextFound ⊢
  rw [ipaTableIteratorInit]
  simp only [taken, Bool.true_eq_false, if_false]
  rw [if_neg fun missing => prevFound missing.1 missing.2, if_neg fun missing => nextFound missing.1 missing.2]

theorem Chained.iteratorNext (more : (table.links iface).next slot ≠ 0) (prev : Nat) :
    ipaTableIteratorNext iface table ⟨prev, slot, (table.links iface).next slot⟩ =
      .ok ⟨slot, (table.links iface).next slot, (table.links iface).next ((table.links iface).next slot)⟩ := by
  have nextTaken := (chained.linked.forward slot taken more).1
  have found : (table.links iface).next ((table.links iface).next slot) ≠ 0 → ipaTableGetEntryByIndex table
        ((table.links iface).next ((table.links iface).next slot)) ≠ none := by
    intro further
    have range := chained.linked.inRange _ (chained.linked.forward _ nextTaken further).1
    simp [ipaTableGetEntryByIndex_some range.1 range.2]
  exact if_neg fun missing => found missing.1 missing.2

end

def insertion (iface : IpaTableEntryInterface Entry User) (table : IpaTable Entry)
    (slot last : Nat) (userData : User) (cmd : List IpaIocNatDmaOne) : Insertion Entry :=
  if last = 0 then insertHead iface table slot userData cmd
  else insertAfter iface table last slot userData cmd

theorem Chained.addEntry (chained : Chained iface table head rank) (ne : start ≠ 0)
    (low : start < table.tableEntries) (userData : User) (cmd : List IpaIocNatDmaOne) :
    (∃ slot last, Placed iface table head start slot last ∧ ipaTableAddEntry iface table start userData cmd =
        some (.ok (insertion iface table slot last userData cmd))) ∨
    ((table.links iface).valid start = true ∧ (∀ index, table.tableEntries ≤ index → index < table.totTblEnts →
        (table.links iface).valid index = true) ∧
      ipaTableAddEntry iface table start userData cmd = some (.error (-1))) := by
  cases taken : (table.links iface).valid start with
  | false =>
    refine .inl ⟨start, 0, ⟨taken, ne, ?_, fun _ => ⟨rfl, low⟩, absurd rfl⟩, ?_⟩
    · exact lt_of_lt_of_le low (Nat.le_add_right _ _)
    · simp only [links] at taken
      simp [ipaTableAddEntry, taken, insertion]
  | true =>
    obtain ⟨last, ended, lastTaken, ends, lastHead⟩ := chained.iteratorEnd taken
    have entered : iface.entryIsValid (table.slots start) = true := taken
    rcases findExpnTblFreeEntry_cases iface (Nat.zero_lt_of_lt low) with
      ⟨free, found, isFree, high, bounded⟩ | ⟨none, full⟩
    · have some := (chained.linked.inRange last lastTaken).1
      have heads := lastHead.trans (chained.linked.first start taken low).2
      refine .inl ⟨free, last, ⟨isFree, by omega, bounded, fun zero => absurd zero some,
        fun _ => ⟨high, lastTaken, ends, heads⟩⟩, ?_⟩
      simp [ipaTableAddEntry, insertTail, entered, ended, found, insertion, some]
    · refine .inr ⟨rfl, full, ?_⟩
      simp [ipaTableAddEntry, insertTail, entered, ended, none]

theorem insertion_recIndex (iface : IpaTableEntryInterface Entry User)
    (table : IpaTable Entry) (slot last : Nat) (userData : User) (cmd : List IpaIocNatDmaOne) :
    (insertion iface table slot last userData cmd).recIndex = slot := by
  unfold insertion
  split <;> rfl

@[simp]
theorem insertion_fields (userData : User) (cmd : List IpaIocNatDmaOne) :
    (insertion iface table slot last userData cmd).table.tableEntries = table.tableEntries ∧
      (insertion iface table slot last userData cmd).table.expnTableEntries = table.expnTableEntries ∧
      (insertion iface table slot last userData cmd).table.nmi = table.nmi := by
  unfold insertion
  split <;> exact ⟨rfl, rfl, rfl⟩

theorem ipaTableEraseEntry_put : ipaTableEraseEntry iface (table.put slot entry) slot =
      ipaTableEraseEntry iface table slot := by
  unfold ipaTableEraseEntry
  simp [put]

theorem Placed.insertion_erased (placed : Placed iface table head start slot last)
    (blank : table.slots slot = iface.empty) (userData : User) (cmd : List IpaIocNatDmaOne) :
    ipaTableEraseEntry iface (insertion iface table slot last userData cmd).table slot = { table with
        metaPrevIndex := (insertion iface table slot last userData cmd).table.metaPrevIndex } := by
  have restored : update table.slots slot iface.empty = table.slots := by
    rw [← blank, update_eq_self]
  by_cases new : last = 0
  · have low := (placed.alone new).2
    ext
    all_goals simp [insertion, insertHead, new, ipaTableEraseEntry_counts, low, restored]
  · have high := not_lt.mpr (placed.after new).1
    ext
    all_goals simp [insertion, insertAfter, new, ipaTableEraseEntry_counts, high, restored]

theorem insertion_prev_other (lawful : iface.Lawful payload) (apart : other ≠ slot)
    (userData : User) (cmd : List IpaIocNatDmaOne) : iface.entryGetPrevIndex entry other
      (insertion iface table slot last userData cmd).table.metaPrevIndex table.tableEntries =
        iface.entryGetPrevIndex entry other table.metaPrevIndex table.tableEntries := by
  unfold insertion
  split
  · rfl
  · exact lawful.setPrevOther _ _ _ _ _ _ _ apart

/-- The one write that `ipa_table_add_dma_cmd` adds. -/
def dmaOne (iface : IpaTableEntryInterface Entry User) (table : IpaTable Entry)
    (help : DmaHelpType) (index data : Nat) : IpaIocNatDmaOne :=
  let helper := iface.dmaHelp help
  if table.tableEntries ≤ index then
    ⟨helper.expnTableType, helper.offset + (index - table.tableEntries) * iface.entrySize, data⟩
  else ⟨helper.tableType, helper.offset + index * iface.entrySize, data⟩

theorem ipaTableAddDmaCmd_bounded (bounded : index < table.totTblEnts) (help : DmaHelpType)
    (data : Nat) (cmd : List IpaIocNatDmaOne) : ipaTableAddDmaCmd iface table help index data cmd =
      cmd ++ [dmaOne iface table help index data] := by
  unfold ipaTableAddDmaCmd dmaOne
  simp only [not_le.mpr bounded, if_false]
  split <;> rfl

theorem dmaWrite_dmaOne (lawful : iface.Lawful payload) {before : IpaTable Entry}
    (same : before.tableEntries = table.tableEntries) (help : DmaHelpType) (data : Nat) :
    before.dmaWrite iface (dmaOne iface table help index data) =
      before.writeField iface index (iface.dmaHelp help).offset data := by
  have small := lawful.offset help
  have field (record : Nat) : ((iface.dmaHelp help).offset + record * iface.entrySize) % iface.entrySize =
        (iface.dmaHelp help).offset := by
    rw [Nat.add_mul_mod_self_right, Nat.mod_eq_of_lt small]
  have record (record : Nat) : ((iface.dmaHelp help).offset + record * iface.entrySize) / iface.entrySize = record := by
    rw [Nat.add_mul_div_right _ _ (by omega), Nat.div_eq_of_lt small, zero_add]
  unfold dmaOne
  split
  · rename_i high
    simp [dmaWrite, lawful.expnTableType help, lawful.typesDiffer, field, record, same, Nat.add_sub_cancel' high]
  · simp [dmaWrite, lawful.tableType help, field, record]

def postedBy (iface : IpaTableEntryInterface Entry User) (one : IpaIocNatDmaOne) : Prop :=
  one.baseAddr = (iface.dmaHelp .updateHead).tableType ∨ one.baseAddr = (iface.dmaHelp .updateHead).expnTableType

theorem dmaOne_postedBy (lawful : iface.Lawful payload) (help : DmaHelpType) (data : Nat) :
    postedBy iface (dmaOne iface table help index data) := by
  unfold dmaOne
  split
  · exact .inr (lawful.expnTableType help)
  · exact .inl (lawful.tableType help)

theorem dmaWrite_foreign (foreign : ¬ postedBy iface one) : table.dmaWrite iface one = table := by
  obtain ⟨base, expn⟩ := not_or.mp foreign
  simp [dmaWrite, base, expn]

def insertionCmd (iface : IpaTableEntryInterface Entry User) (table : IpaTable Entry)
    (slot last : Nat) (userData : User) : List IpaIocNatDmaOne :=
  let enable := dmaOne iface table .updateHead slot
    (iface.entryHeadInsert (table.slots slot) userData).2
  if last = 0 then [enable]
  else if table.hasMeta then [dmaOne iface table .updateEntry last slot]
  else [enable, dmaOne iface table .updateEntry last slot]

theorem insertion_cmd (placed : Placed iface table head start slot last)
    (lastBounded : last < table.totTblEnts) (userData : User) (cmd : List IpaIocNatDmaOne) :
    (insertion iface table slot last userData cmd).cmd = cmd ++ insertionCmd iface table slot last userData := by
  unfold insertion insertionCmd
  split
  · exact ipaTableAddDmaCmd_bounded placed.bounded _ _ _
  rw [insertAfter]
  cases table.hasMeta with
  | true => exact ipaTableAddDmaCmd_bounded lastBounded _ _ _
  | false =>
    simp only [Bool.false_eq_true, if_false]
    rw [ipaTableAddDmaCmd_bounded placed.bounded, ipaTableAddDmaCmd_bounded lastBounded, List.append_assoc]
    rfl

theorem insertionCmd_postedBy (lawful : iface.Lawful payload) (userData : User) :
    ∀ one ∈ insertionCmd iface table slot last userData, postedBy iface one := by
  unfold insertionCmd
  split
  · simp [dmaOne_postedBy lawful]
  · split <;> simp [dmaOne_postedBy lawful]

def deleteOne (iface : IpaTableEntryInterface Entry User) (table : IpaTable Entry)
    (slot : Nat) : IpaIocNatDmaOne :=
  let prev := (table.links iface).prev slot
  let next := (table.links iface).next slot
  if prev = 0 then if next ≠ 0 then dmaOne iface table .deleteHead slot
        (iface.entryGetDeleteHeadDmaCommandData (table.slots slot) (table.slots next))
    else dmaOne iface table .updateHead slot 0
  else dmaOne iface table .updateEntry prev next

theorem Chained.createDeleteCommand (chained : Chained iface table head rank)
    (taken : (table.links iface).valid slot = true) (cmd : List IpaIocNatDmaOne) :
    ipaTableCreateDeleteCommand iface table ⟨(table.links iface).prev slot, slot, (table.links iface).next slot⟩ cmd =
      cmd ++ [deleteOne iface table slot] := by
  have bounded := (chained.linked.inRange slot taken).2
  unfold ipaTableCreateDeleteCommand deleteOne
  dsimp only
  split
  · split
    · exact ipaTableAddDmaCmd_bounded bounded _ _ _
    · exact ipaTableAddDmaCmd_bounded bounded _ _ _
  · rename_i some
    have prevTaken := (chained.prev_taken taken some).2.1
    exact ipaTableAddDmaCmd_bounded (chained.linked.inRange _ prevTaken).2 _ _ _

theorem deleteOne_postedBy (lawful : iface.Lawful payload) : postedBy iface (deleteOne iface table slot) := by
  unfold deleteOne
  dsimp only
  split
  · split
    · exact dmaOne_postedBy lawful _ _
    · exact dmaOne_postedBy lawful _ _
  · exact dmaOne_postedBy lawful _ _

/-- The write and the deletion after it take a record out of its chain, and a dead predecessor when nothing follows. -/
theorem Chained.deleteEntry (lawful : iface.Lawful payload) (chained : Chained iface table head rank)
    (taken : (table.links iface).valid slot = true) (notHeadWithTail : (table.links iface).prev slot ≠ 0 ∨
      (table.links iface).next slot = 0) (isPrevEmpty : Bool)
    (low : isPrevEmpty = true → (table.links iface).prev slot < table.tableEntries) :
    ipaTableDeleteEntry iface (table.dmaWrite iface (deleteOne iface table slot))
        ⟨(table.links iface).prev slot, slot, (table.links iface).next slot⟩ isPrevEmpty =
      if isPrevEmpty = true ∧ (table.links iface).prev slot ≠ 0 ∧ (table.links iface).next slot = 0 then
        ipaTableEraseEntry iface (table.unlink iface slot) ((table.links iface).prev slot)
      else table.unlink iface slot := by
  by_cases some : (table.links iface).prev slot = 0
  · have ends := notHeadWithTail.resolve_left (fun notZero => notZero some)
    have write : table.dmaWrite iface (deleteOne iface table slot) =
        table.writeField iface slot (iface.dmaHelp .updateHead).offset 0 := by
      rw [deleteOne, if_pos some, if_neg (fun more => more ends), dmaWrite_dmaOne lawful rfl]
    rw [write]
    simp [ipaTableDeleteEntry, IpaTable.unlink, IpaTable.bypass, some, ends, IpaTable.writeField,
      ipaTableEraseEntry_put]
  · have write : table.dmaWrite iface (deleteOne iface table slot) =
        table.setNextIndex iface ((table.links iface).prev slot) ((table.links iface).next slot) := by
      rw [deleteOne, if_neg some, dmaWrite_dmaOne lawful rfl, setNextIndex]
    rw [write]
    by_cases ends : (table.links iface).next slot = 0
    · cases isPrevEmpty with
      | false => simp [ipaTableDeleteEntry, IpaTable.unlink, IpaTable.bypass, some, ends]
      | true =>
        -- the code erases the two records in the other order
        have base := low rfl
        have high := not_lt.mpr (chained.prev_taken taken some).1
        have apart : (table.links iface).prev slot ≠ slot := by
          intro same
          rw [same] at base
          exact high base
        simp only [ipaTableDeleteEntry, IpaTable.unlink, IpaTable.bypass, some, ends, if_false,
          if_true, ne_eq, not_true_eq_false, not_false_eq_true, and_self]
        ext
        all_goals simp [ipaTableEraseEntry_counts, base, high]
        rw [update_comm apart]
    · simp [ipaTableDeleteEntry, IpaTable.unlink, IpaTable.bypass, some, ends]

end Tables

end KernelModules.IpaNat

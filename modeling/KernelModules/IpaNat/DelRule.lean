import KernelModules.IpaNat.AddRule

namespace KernelModules.IpaNat

open Data IpaNatIp4TableCache

/-! # What deleting a rule does

On sound tables a call refuses, or takes one record out of each table.  The head of a NAT chain with a tail stays as
a dead record; that of an index chain takes over its second record.
-/

def IpaNatRule.buried (rule : IpaNatRule) : IpaNatRule :=
  rule.dmaWrite ipaNatRuleProtoFieldOffset ipaNatInvalidProtoFieldValue

def natDeleted (env : Environment) (table : IpaTable IpaNatRule) (slot : Nat) : IpaTable IpaNatRule :=
  let rule := table.slots slot
  let prevRule := table.slots rule.prevIndex
  if rule.prevIndex = 0 ∧ rule.nextIndex ≠ 0 then table.put slot rule.buried
  else if prevRule.protocol = ipahalNatInvalidProtocol ∧ rule.prevIndex ≠ 0 ∧ rule.nextIndex = 0 then
    ipaTableEraseEntry (entryInterface env)
      (table.unlink (entryInterface env) slot) rule.prevIndex
  else table.unlink (entryInterface env) slot

def IpaNatIp4TableCache.indexPrev (cache : IpaNatIp4TableCache) (index : Nat) : Nat :=
  indexTableEntryGetPrevIndex index cache.indexTable.metaPrevIndex cache.indexTable.tableEntries

def IpaNatIp4TableCache.indexHeadWithTail (cache : IpaNatIp4TableCache) (index : Nat) : Prop :=
  cache.indexPrev index = 0 ∧ (cache.indexTable.slots index).nextIndex ≠ 0

instance (cache : IpaNatIp4TableCache) (index : Nat) : Decidable (cache.indexHeadWithTail index) :=
  inferInstanceAs (Decidable (_ ∧ _))

/-- The NAT table with the rule of the second index record pointing to the head it moves to. -/
def IpaNatIp4TableCache.repointed (cache : IpaNatIp4TableCache) (index : Nat) : IpaTable IpaNatRule :=
  if cache.indexHeadWithTail index then
    let second := cache.indexTable.slots (cache.indexTable.slots index).nextIndex
    cache.table.put second.tblEntry
      { cache.table.slots second.tblEntry with indxTblEntry := index }
  else cache.table

def IpaNatIp4TableCache.indexMoved (cache : IpaNatIp4TableCache) (index : Nat) : IpaTable IpaNatIndxTblRule :=
  let rule := cache.indexTable.slots index
  cache.indexTable.put index
    { rule with tblEntry := (cache.indexTable.slots rule.nextIndex).tblEntry }

def IpaNatIp4TableCache.indexDeleted (cache : IpaNatIp4TableCache) (index : Nat) : IpaTable IpaNatIndxTblRule :=
  if cache.indexHeadWithTail index then let next := (cache.indexTable.slots index).nextIndex
    clearMetaPrevIndex ((cache.indexMoved index).unlink indexEntryInterface next) next
  else clearMetaPrevIndex (cache.indexTable.unlink indexEntryInterface index) index

def IpaNatIp4TableCache.deleted (env : Environment) (cache : IpaNatIp4TableCache)
    (slot : Nat) : IpaNatIp4TableCache :=
  let index := (cache.table.slots slot).indxTblEntry
  ⟨natDeleted env (cache.repointed index) slot, cache.indexDeleted index⟩

/-- All that a call of `ipa_NATI_del_ipv4_rule` can do to the slot its handle breaks down to. -/
inductive DelRun (env : Environment) (cache : IpaNatIp4TableCache) (slot : Nat) :
    Bool → Int × IpaNatIp4TableCache → Prop where
  | outOfRange {dmaOk : Bool} (beyond : cache.table.totTblEnts ≤ slot) :
      DelRun env cache slot dmaOk (-einval, cache)
  | notEnabled {dmaOk : Bool} (disabled : (cache.table.slots slot).enable = false) :
      DelRun env cache slot dmaOk (-einval, cache)
  | noIndex {dmaOk : Bool} (bounded : slot < cache.table.totTblEnts)
      (enabled : (cache.table.slots slot).enable = true)
      (missing : (cache.table.slots slot).indxTblEntry = 0 ∨
        cache.table.totTblEnts ≤ (cache.table.slots slot).indxTblEntry) :
      DelRun env cache slot dmaOk (-eperm, cache)
  | indexFree {dmaOk : Bool} (bounded : slot < cache.table.totTblEnts)
      (enabled : (cache.table.slots slot).enable = true)
      (free : (cache.indexTable.slots (cache.table.slots slot).indxTblEntry).tblEntry = 0) :
      DelRun env cache slot dmaOk (-einval, cache)
  | notPosted (enabled : (cache.table.slots slot).enable = true)
      (taken : (cache.indexTable.slots (cache.table.slots slot).indxTblEntry).tblEntry ≠ 0) :
      DelRun env cache slot false
        (-eio, ⟨cache.repointed (cache.table.slots slot).indxTblEntry, cache.indexTable⟩)
  | deleted (enabled : (cache.table.slots slot).enable = true)
      (taken : (cache.indexTable.slots (cache.table.slots slot).indxTblEntry).tblEntry ≠ 0) :
      DelRun env cache slot true (0, cache.deleted env slot)

section Posting

variable {cache : IpaNatIp4TableCache} {indexHead : Nat → Nat} {index : Nat}

theorem Sound.indexTot (sound : Sound env cache head indexHead) :
    cache.indexTable.totTblEnts = cache.table.totTblEnts := by
  rw [IpaTable.totTblEnts, sound.sameBase, sound.sameExpn, IpaTable.totTblEnts]

theorem natDelete_posted {tbl : IpaTable IpaNatRule}
    (chained : Chained (entryInterface env) tbl head rank) (taken : (tbl.slots slot).enable = true)
    (deadLow : ∀ other, (tbl.slots other).dead = true → other < tbl.tableEntries) :
    let iterator : IpaTableIterator :=
      ⟨(tbl.slots slot).prevIndex, slot, (tbl.slots slot).nextIndex⟩
    let written := tbl.dmaWrite (entryInterface env) (deleteOne (entryInterface env) tbl slot)
    (if ipaTableIteratorIsHeadWithTail iterator then written
      else ipaTableDeleteEntry (entryInterface env) written iterator (iterator.prevIndex != 0 &&
          (written.slots iterator.prevIndex).protocol == ipahalNatInvalidProtocol)) =
      natDeleted env tbl slot := by
  have lawful := entryInterface_lawful env
  intro iterator written
  by_cases headWithTail : (tbl.slots slot).prevIndex = 0 ∧ (tbl.slots slot).nextIndex ≠ 0
  · have holds : ipaTableIteratorIsHeadWithTail iterator = true := by
      simp [ipaTableIteratorIsHeadWithTail, iterator, headWithTail]
    have links : (tbl.links (entryInterface env)).prev slot = 0 ∧
        (tbl.links (entryInterface env)).next slot ≠ 0 := headWithTail
    rw [if_pos holds, natDeleted, if_pos headWithTail]
    simp only [written]
    rw [deleteOne, if_pos links.1, if_pos links.2, dmaWrite_dmaOne lawful rfl]
    rfl
  · have holds : ipaTableIteratorIsHeadWithTail iterator = false := by
      simp only [ipaTableIteratorIsHeadWithTail, iterator, decide_eq_false_iff_not]
      exact fun both => headWithTail ⟨both.2, both.1⟩
    have links : (tbl.links (entryInterface env)).prev slot ≠ 0 ∨ (tbl.links (entryInterface env)).next slot = 0 := by
      by_cases first : (tbl.slots slot).prevIndex = 0
      · exact .inr (Classical.not_not.mp fun more => headWithTail ⟨first, more⟩)
      · exact .inl first
    rw [holds, natDeleted, if_neg headWithTail]
    have kept (some : (tbl.slots slot).prevIndex ≠ 0) : (written.slots (tbl.slots slot).prevIndex).protocol =
          (tbl.slots (tbl.slots slot).prevIndex).protocol := by
      have write : written = tbl.setNextIndex (entryInterface env)
          (tbl.slots slot).prevIndex (tbl.slots slot).nextIndex := by
        have notFirst : (tbl.links (entryInterface env)).prev slot ≠ 0 := some
        simp only [written]
        rw [deleteOne, if_neg notFirst, dmaWrite_dmaOne lawful rfl]
        rfl
      have payload : ((written.slots (tbl.slots slot).prevIndex).payload).protocol =
          ((tbl.slots (tbl.slots slot).prevIndex).payload).protocol := by
        rw [write, setNextIndex_payload lawful]
      exact payload
    have dead : (iterator.prevIndex != 0 &&
        (written.slots iterator.prevIndex).protocol == ipahalNatInvalidProtocol) = true ↔
        (tbl.slots slot).prevIndex ≠ 0 ∧
          (tbl.slots (tbl.slots slot).prevIndex).protocol = ipahalNatInvalidProtocol := by
      rw [Bool.and_eq_true, bne_iff_ne, beq_iff_eq]
      exact and_congr_right fun some => by rw [kept some]
    have unlinked := chained.deleteEntry lawful taken links (iterator.prevIndex != 0 &&
      (written.slots iterator.prevIndex).protocol == ipahalNatInvalidProtocol) fun empty => by
        obtain ⟨some, protocol⟩ := dead.mp empty
        have prevTaken : (tbl.slots (tbl.slots slot).prevIndex).enable = true :=
          (chained.prev_taken taken some).2.1
        have isDead : (tbl.slots (tbl.slots slot).prevIndex).dead = true := by
          simp [IpaNatRule.dead, prevTaken, protocol]
        exact deadLow _ isDead
    have same (some : Prop) : (iterator.prevIndex != 0 &&
        (written.slots iterator.prevIndex).protocol == ipahalNatInvalidProtocol) = true ∧
          (tbl.slots slot).prevIndex ≠ 0 ∧ some ↔
        (tbl.slots (tbl.slots slot).prevIndex).protocol = ipahalNatInvalidProtocol ∧
          (tbl.slots slot).prevIndex ≠ 0 ∧ some :=
      (and_congr_left' dead).trans ⟨fun all => ⟨all.1.2, all.2⟩, fun all => ⟨⟨all.2.1, all.1⟩, all.2⟩⟩
    exact unlinked.trans (if_congr (same _) rfl rfl)

theorem indexTable_valid {tbl : IpaTable IpaNatIndxTblRule} :
    (tbl.links indexEntryInterface).valid index = true ↔ (tbl.slots index).tblEntry ≠ 0 := by
  simp [IpaTable.links, indexEntryInterface, indexTableEntryIsValid]

section

variable {rank : Nat → Nat} (chained : Chained indexEntryInterface cache.indexTable indexHead rank)
  (taken : (cache.indexTable.slots index).tblEntry ≠ 0)
include chained taken

theorem indexMoved_links (headWithTail : cache.indexHeadWithTail index) :
    (cache.indexMoved index).links indexEntryInterface = cache.indexTable.links indexEntryInterface := by
  have valid := indexTable_valid.mpr taken
  have nextValid := (chained.linked.forward index valid headWithTail.2).1
  refine links_put ?_ rfl rfl
  rw [valid]
  exact bne_iff_ne.mpr (indexTable_valid.mp nextValid)

theorem indexDelete_posted (notHeadWithTail : ¬ cache.indexHeadWithTail index) : let iterator : IpaTableIterator :=
      ⟨cache.indexPrev index, index, (cache.indexTable.slots index).nextIndex⟩
    let written := cache.indexTable.dmaWrite indexEntryInterface (deleteOne indexEntryInterface cache.indexTable index)
    ipaTableDeleteEntry indexEntryInterface written iterator false =
      cache.indexTable.unlink indexEntryInterface index := by
  have links : (cache.indexTable.links indexEntryInterface).prev index ≠ 0 ∨
      (cache.indexTable.links indexEntryInterface).next index = 0 := by
    by_cases first : cache.indexPrev index = 0
    · exact .inr (Classical.not_not.mp fun more => notHeadWithTail ⟨first, more⟩)
    · exact .inl first
  exact (chained.deleteEntry indexEntryInterface_lawful (indexTable_valid.mpr taken) links false
    (fun never => absurd never Bool.false_ne_true)).trans (if_neg fun never => Bool.false_ne_true never.1)

theorem indexMove_posted (headWithTail : cache.indexHeadWithTail index) :
    let next := (cache.indexTable.slots index).nextIndex
    let further := (cache.indexTable.slots next).nextIndex
    let written := (cache.indexTable.dmaWrite indexEntryInterface
      (deleteOne indexEntryInterface cache.indexTable index)).dmaWrite indexEntryInterface
        (dmaOne indexEntryInterface cache.indexTable .updateEntry index further)
    ipaTableDeleteEntry indexEntryInterface written ⟨index, next, further⟩ false =
      (cache.indexMoved index).unlink indexEntryInterface next := by
  intro next further written
  have valid := indexTable_valid.mpr taken
  have ne := (chained.linked.inRange index valid).1
  obtain ⟨nextValid, -, back⟩ := chained.linked.forward index valid headWithTail.2
  have links := indexMoved_links chained taken headWithTail
  have movedChained : Chained indexEntryInterface (cache.indexMoved index) indexHead rank :=
    chained.put valid links
  have first : cache.indexTable.dmaWrite indexEntryInterface
      (deleteOne indexEntryInterface cache.indexTable index) = cache.indexMoved index := by
    have prev : (cache.indexTable.links indexEntryInterface).prev index = 0 := headWithTail.1
    have more : (cache.indexTable.links indexEntryInterface).next index ≠ 0 := headWithTail.2
    rw [deleteOne, if_pos prev, if_pos more, dmaWrite_dmaOne indexEntryInterface_lawful rfl]
    rfl
  have movedPrev : ((cache.indexMoved index).links indexEntryInterface).prev next = index := by
    exact back
  have movedNext : ((cache.indexMoved index).links indexEntryInterface).next next = further := by
    rw [links]
    rfl
  have one : dmaOne indexEntryInterface cache.indexTable .updateEntry index further =
      deleteOne indexEntryInterface (cache.indexMoved index) next := by
    rw [deleteOne, movedPrev, if_neg ne, movedNext]
    rfl
  have movedValid : ((cache.indexMoved index).links indexEntryInterface).valid next = true := by
    rw [links]
    exact nextValid
  have inTail : ((cache.indexMoved index).links indexEntryInterface).prev next ≠ 0 ∨
      ((cache.indexMoved index).links indexEntryInterface).next next = 0 := by
    rw [movedPrev]
    exact .inl ne
  have unlinked := movedChained.deleteEntry indexEntryInterface_lawful movedValid inTail false
    (fun never => absurd never Bool.false_ne_true)
  rw [movedPrev, movedNext] at unlinked
  simp only [written]
  rw [first, one]
  exact unlinked.trans (if_neg fun never => Bool.false_ne_true never.1)

end

theorem delIpv4RulePosting_run (cache : IpaNatIp4TableCache) (slot : Nat) {rank : Nat → Nat}
    (chained : Chained (entryInterface env) cache.table head rank) (taken : (cache.table.slots slot).enable = true)
    (deadLow : ∀ other, (cache.table.slots other).dead = true → other < cache.table.tableEntries)
    (indexIterator : IpaTableIterator) (posted : ∀ one ∈ cmd, postedBy indexEntryInterface one)
    (dmaOk : Bool) : delIpv4RulePosting env cache
        ⟨(cache.table.slots slot).prevIndex, slot, (cache.table.slots slot).nextIndex⟩ indexIterator cmd dmaOk =
      if dmaOk then (0, ⟨natDeleted env cache.table slot, clearMetaPrevIndex (ipaTableDeleteEntry indexEntryInterface
            (cmd.foldl (·.dmaWrite indexEntryInterface) cache.indexTable) indexIterator false)
          indexIterator.currIndex⟩) else (-eio, cache) := by
  have command := chained.createDeleteCommand taken cmd
  have natPosted : ∀ one ∈ [deleteOne (entryInterface env) cache.table slot], postedBy (entryInterface env) one := by
    intro one mem
    rw [List.mem_singleton.mp mem]
    exact deleteOne_postedBy (entryInterface_lawful env)
  unfold delIpv4RulePosting
  rw [show ipaTableCreateDeleteCommand (entryInterface env) cache.table
    ⟨(cache.table.slots slot).prevIndex, slot, (cache.table.slots slot).nextIndex⟩ cmd = _ from
      command]
  cases dmaOk with
  | false =>
    have refused : -eio ≠ 0 := by decide
    simp [ipaNatiPostIpv4DmaCmd, refused]
  | true =>
    simp only [ipaNatiPostIpv4DmaCmd, if_true, ne_eq, not_true_eq_false, if_false]
    rw [List.foldl_append, foldl_index _ posted, foldl_nat _ natPosted]
    exact congrArg (fun tbl => ((0 : Int), mk tbl _)) (natDelete_posted chained taken deadLow)

end Posting

section Repointing

variable {cache : IpaNatIp4TableCache}

theorem repointed_slots (cache : IpaNatIp4TableCache) (index other : Nat) :
    ∃ indxTblEntry, (cache.repointed index).slots other =
    { cache.table.slots other with indxTblEntry := indxTblEntry } := by
  unfold repointed
  split
  · by_cases same : other = (cache.indexTable.slots (cache.indexTable.slots index).nextIndex).tblEntry
    · rw [same]
      exact ⟨index, by simp⟩
    · exact ⟨(cache.table.slots other).indxTblEntry, by simp [same]⟩
  · exact ⟨(cache.table.slots other).indxTblEntry, rfl⟩

@[simp]
theorem repointed_fields : (cache.repointed index).tableEntries = cache.table.tableEntries ∧
      (cache.repointed index).expnTableEntries = cache.table.expnTableEntries ∧
      (cache.repointed index).nmi = cache.table.nmi ∧ (cache.repointed index).hasMeta = cache.table.hasMeta := by
  unfold repointed
  split <;> simp

theorem Sound.repointed_chained (sound : Sound env cache head indexHead)
    (taken : (cache.indexTable.slots index).tblEntry ≠ 0) {rank : Nat → Nat}
    (chained : Chained (entryInterface env) cache.table head rank) :
    Chained (entryInterface env) (cache.repointed index) head rank := by
  unfold repointed
  split
  · rename_i headWithTail
    obtain ⟨indexRank, indexChained⟩ := sound.indexChained
    have next := (indexChained.linked.forward index (indexTable_valid.mpr taken) headWithTail.2).1
    have live := (sound.points _ (indexTable_valid.mp next)).1
    refine chained.put ?_ (links_put rfl rfl rfl)
    exact (Bool.and_eq_true _ _ ▸ live).1
  · exact chained

theorem repointed_dead : ((cache.repointed index).slots other).dead = (cache.table.slots other).dead := by
  obtain ⟨indxTblEntry, same⟩ := repointed_slots cache index other
  rw [same]
  rfl

end Repointing

section Runs

variable {env : Environment} {cache : IpaNatIp4TableCache} {head indexHead : Nat → Nat}
  {slot index : Nat}

section

variable (sound : Sound env cache head indexHead)
  (enabled : (cache.table.slots slot).enable = true)
  (named : (cache.table.slots slot).indxTblEntry = index)
  (taken : (cache.indexTable.slots index).tblEntry ≠ 0)
include sound enabled named taken

theorem delRun_moved (headWithTail : cache.indexHeadWithTail index) (dmaOk : Bool) :
    let next := (cache.indexTable.slots index).nextIndex
    let further := (cache.indexTable.slots next).nextIndex
    DelRun env cache slot dmaOk (delIpv4RulePosting env ⟨cache.repointed index, cache.indexTable⟩
        ⟨(cache.table.slots slot).prevIndex, slot, (cache.table.slots slot).nextIndex⟩
        ⟨index, next, further⟩
        [deleteOne indexEntryInterface cache.indexTable index,
          dmaOne indexEntryInterface cache.indexTable .updateEntry index further] dmaOk) := by
  intro next further
  obtain ⟨rank, chained⟩ := sound.chained
  obtain ⟨indexRank, indexChained⟩ := sound.indexChained
  have posted : ∀ one ∈ [deleteOne indexEntryInterface cache.indexTable index,
      dmaOne indexEntryInterface cache.indexTable .updateEntry index further],
      postedBy indexEntryInterface one := by
    simp [deleteOne_postedBy indexEntryInterface_lawful, dmaOne_postedBy indexEntryInterface_lawful]
  obtain ⟨indxTblEntry, same⟩ := repointed_slots cache index slot
  have run := delIpv4RulePosting_run ⟨cache.repointed index, cache.indexTable⟩ slot
    (sound.repointed_chained taken chained) (by simp [same, enabled])
    (fun other dead => by
      rw [repointed_dead] at dead
      simpa using (sound.dead other dead).1)
    ⟨index, next, further⟩ posted dmaOk
  simp only [same] at run
  rw [run]
  rw [← named] at taken
  cases dmaOk with
  | false =>
    have refused : DelRun env cache slot false _ := .notPosted enabled taken
    rw [named] at refused
    exact refused
  | true =>
    have moved := indexMove_posted indexChained (named ▸ taken) headWithTail
    have deleted : DelRun env cache slot true _ := .deleted enabled taken
    rw [IpaNatIp4TableCache.deleted, named, IpaNatIp4TableCache.indexDeleted, if_pos headWithTail] at deleted
    dsimp only at deleted moved
    rw [← moved] at deleted
    exact deleted

theorem delRun_unlinked (notHeadWithTail : ¬ cache.indexHeadWithTail index) (dmaOk : Bool) :
    DelRun env cache slot dmaOk (delIpv4RulePosting env cache
        ⟨(cache.table.slots slot).prevIndex, slot, (cache.table.slots slot).nextIndex⟩
        ⟨cache.indexPrev index, index, (cache.indexTable.slots index).nextIndex⟩
        [deleteOne indexEntryInterface cache.indexTable index] dmaOk) := by
  obtain ⟨rank, chained⟩ := sound.chained
  obtain ⟨indexRank, indexChained⟩ := sound.indexChained
  have posted : ∀ one ∈ [deleteOne indexEntryInterface cache.indexTable index], postedBy indexEntryInterface one := by
    simp [deleteOne_postedBy indexEntryInterface_lawful]
  have kept : cache.repointed index = cache.table := if_neg notHeadWithTail
  rw [delIpv4RulePosting_run cache slot chained enabled (fun other dead => (sound.dead other dead).1)
    ⟨cache.indexPrev index, index, (cache.indexTable.slots index).nextIndex⟩ posted dmaOk]
  rw [← named] at taken
  cases dmaOk with
  | false =>
    have refused : DelRun env cache slot false _ := .notPosted enabled taken
    rw [named, kept] at refused
    exact refused
  | true =>
    have unlinked := indexDelete_posted indexChained (named ▸ taken) notHeadWithTail
    have deleted : DelRun env cache slot true _ := .deleted enabled taken
    rw [IpaNatIp4TableCache.deleted, named, kept, IpaNatIp4TableCache.indexDeleted,
      if_neg notHeadWithTail, ← unlinked] at deleted
    exact deleted

end

theorem ipaNatiDelIpv4Rule_run (sound : Sound env cache head indexHead)
    (ruleHdl : Nat) (dmaOk : Bool) : DelRun env cache (breakRuleHdl cache.table ruleHdl) dmaOk
      (ipaNatiDelIpv4Rule env cache ruleHdl dmaOk) := by
  obtain ⟨rank, chained⟩ := sound.chained
  obtain ⟨indexRank, indexChained⟩ := sound.indexChained
  generalize broken : breakRuleHdl cache.table ruleHdl = slot
  unfold ipaNatiDelIpv4Rule ipaTableGetEntry
  rw [broken]
  by_cases beyond : cache.table.totTblEnts ≤ slot
  · simp only [beyond, if_true]
    exact .outOfRange beyond
  simp only [beyond, if_false]
  have bounded := not_le.mp beyond
  cases enabled : (cache.table.slots slot).enable with
  | false =>
    have disabled : (entryInterface env).entryIsValid (cache.table.slots slot) = false :=
      enabled
    simp only [ipaTableIteratorInit, disabled, if_true]
    exact .notEnabled enabled
  | true =>
    have valid : (cache.table.links (entryInterface env)).valid slot = true := enabled
    rw [chained.iteratorInit valid]
    generalize named : (cache.table.slots slot).indxTblEntry = index
    by_cases missing : index = 0 ∨ cache.indexTable.totTblEnts ≤ index
    · simp only [ipaTableGetEntryByIndex, missing, if_true]
      rw [sound.indexTot, ← named] at missing
      exact .noIndex bounded enabled missing
    simp only [ipaTableGetEntryByIndex, missing, if_false]
    by_cases free : (cache.indexTable.slots index).tblEntry = 0
    · have invalid : indexEntryInterface.entryIsValid (cache.indexTable.slots index) = false := by
        simp [indexEntryInterface, indexTableEntryIsValid, free]
      simp only [ipaTableIteratorInit, invalid, if_true]
      rw [← named] at free
      exact .indexFree bounded enabled free
    have indexValid := indexTable_valid.mpr free
    rw [indexChained.iteratorInit indexValid]
    simp only [indexChained.createDeleteCommand indexValid, List.nil_append]
    by_cases headWithTail : cache.indexHeadWithTail index
    · have moves : ipaTableIteratorIsHeadWithTail ⟨(cache.indexTable.links indexEntryInterface).prev index, index,
            (cache.indexTable.links indexEntryInterface).next index⟩ = true := by
        simp only [ipaTableIteratorIsHeadWithTail, decide_eq_true_eq]
        exact ⟨headWithTail.2, headWithTail.1⟩
      rw [if_pos moves, ipaNatiCopySecondIndexEntryToHead, ipaTableAddDmaCmd_bounded
        (indexChained.linked.inRange index indexValid).2]
      rw [indexChained.iteratorNext indexValid headWithTail.2]
      have run := delRun_moved sound enabled named free headWithTail dmaOk
      rw [repointed, if_pos headWithTail] at run
      exact run
    · have stays : ipaTableIteratorIsHeadWithTail ⟨(cache.indexTable.links indexEntryInterface).prev index, index,
            (cache.indexTable.links indexEntryInterface).next index⟩ = false := by
        simp only [ipaTableIteratorIsHeadWithTail, decide_eq_false_iff_not]
        exact fun both => headWithTail ⟨both.2, both.1⟩
      rw [stays]
      exact delRun_unlinked sound enabled named free headWithTail dmaOk

end Runs

end KernelModules.IpaNat

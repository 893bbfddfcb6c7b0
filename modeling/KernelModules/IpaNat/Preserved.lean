import KernelModules.IpaNat.DelRule

namespace KernelModules.IpaNat

open Data IpaNatRule Function IpaTable IpaNatIp4TableCache Bool

/-! # Every call keeps the tables sound

What a deletion leaves of the NAT records and of the index records; soundness after every call follows.
-/

variable {env : Environment} {cache : IpaNatIp4TableCache} {head indexHead : Nat → Nat}

section NatDeletion

variable {tbl : IpaTable IpaNatRule} {rank : Nat → Nat} {slot : Nat}

theorem natDeleted_live (live : ((natDeleted env tbl slot).slots other).live = true) : other ≠ slot ∧
      ((natDeleted env tbl slot).slots other).payload = (tbl.slots other).payload := by
  have lawful := entryInterface_lawful env
  have unlinked (live : ((tbl.unlink (entryInterface env) slot).slots other).live = true) :
      other ≠ slot ∧ ((tbl.unlink (entryInterface env) slot).slots other).payload = (tbl.slots other).payload := by
    have apart : other ≠ slot := by
      intro same
      rw [same, unlink_slot] at live
      cases live
    exact ⟨apart, unlink_payload lawful apart⟩
  unfold natDeleted at live ⊢
  dsimp only at live ⊢
  split at live
  · rename_i headWithTail
    rw [if_pos headWithTail]
    by_cases same : other = slot
    · rw [same] at live
      simp [IpaNatRule.live, IpaNatRule.buried, IpaNatRule.dmaWrite, ipaNatRuleProtoFieldOffset,
        ipaNatRuleFlagFieldOffset, ipaNatRuleNextFieldOffset, ipaNatInvalidProtoFieldValue,
        ipahalNatInvalidProtocol] at live
    · exact ⟨same, by simp [same]⟩
  · rename_i notHeadWithTail
    rw [if_neg notHeadWithTail]
    split at live
    · rename_i alone
      rw [if_pos alone]
      by_cases same : other = (tbl.slots slot).prevIndex
      · rw [same] at live
        simp [entryInterface, IpaNatRule.live, IpaNatRule.empty] at live
      · simp only [ipaTableEraseEntry_fields, update_of_ne same] at live ⊢
        exact unlinked live
    · rename_i notAlone
      rw [if_neg notAlone]
      exact unlinked live

theorem natDeleted_kept (apart : other ≠ slot) (live : (tbl.slots other).live = true) :
    ((natDeleted env tbl slot).slots other).payload = (tbl.slots other).payload := by
  have unlinked : ((tbl.unlink (entryInterface env) slot).slots other).payload =
      (tbl.slots other).payload := unlink_payload (entryInterface_lawful env) apart
  unfold natDeleted
  dsimp only
  split
  · simp [apart]
  split
  · rename_i alone
    have notPrev : other ≠ (tbl.slots slot).prevIndex := by
      intro same
      rw [same] at live
      simp [IpaNatRule.live, alone.1] at live
    simp only [ipaTableEraseEntry_fields, update_of_ne notPrev]
    exact unlinked
  · exact unlinked

theorem natDeleted_fields (env : Environment) (tbl : IpaTable IpaNatRule) (slot : Nat) :
    (natDeleted env tbl slot).tableEntries = tbl.tableEntries ∧
      (natDeleted env tbl slot).expnTableEntries = tbl.expnTableEntries ∧
      (natDeleted env tbl slot).nmi = tbl.nmi ∧ (natDeleted env tbl slot).hasMeta = tbl.hasMeta := by
  unfold natDeleted
  dsimp only
  split
  · simp
  · split <;> simp

section

variable (chained : Chained (entryInterface env) tbl head rank)
  (taken : (tbl.slots slot).enable = true)
include chained taken

theorem natDeleted_chained (deadLow : ∀ other, (tbl.slots other).dead = true → other < tbl.tableEntries) :
    Chained (entryInterface env) (natDeleted env tbl slot) head rank := by
  have lawful := entryInterface_lawful env
  unfold natDeleted
  dsimp only
  split
  · exact chained.put taken (links_put rfl rfl rfl)
  rename_i notHeadWithTail
  have place : tbl.tableEntries ≤ slot ∨ (tbl.links (entryInterface env)).next slot = 0 := by
    by_cases first : (tbl.slots slot).prevIndex = 0
    · exact .inr (Classical.not_not.mp fun more => notHeadWithTail ⟨first, more⟩)
    · exact .inl (chained.prev_taken taken first).1
  have unlinked := chained.unlink lawful taken place
  split
  · rename_i alone
    -- the dead head before the last record of its tail
    obtain ⟨high, prevTaken, back⟩ := chained.prev_taken taken alone.2.1
    have prevDead : (tbl.slots (tbl.slots slot).prevIndex).dead = true := by
      have enabled : (tbl.slots (tbl.slots slot).prevIndex).enable = true := prevTaken
      simp [dead, enabled, alone.1]
    have low := deadLow _ prevDead
    have removed := chained.removed lawful taken
    have apart : (tbl.slots slot).prevIndex ≠ slot := by omega
    have stillTaken : ((tbl.unlink (entryInterface env) slot).links
        (entryInterface env)).valid (tbl.slots slot).prevIndex = true := by
      rw [removed.valid]
      exact and_eq_true_iff.mpr ⟨prevTaken, bne_iff_ne.mpr apart⟩
    have first := (unlinked.linked.first _ stillTaken (by simpa using low)).1
    have ends : ((tbl.unlink (entryInterface env) slot).links
        (entryInterface env)).next (tbl.slots slot).prevIndex = 0 :=
      (removed.next _ prevTaken apart).trans ((if_pos rfl).trans alone.2.2)
    exact unlinked.erase lawful stillTaken first ends
  · exact unlinked

theorem natDeleted_dead (heads : ∀ other, (tbl.slots other).dead = true →
      other < tbl.tableEntries ∧ (tbl.slots other).nextIndex ≠ 0)
    (dead : ((natDeleted env tbl slot).slots other).dead = true) : other < tbl.tableEntries ∧
      ((natDeleted env tbl slot).slots other).nextIndex ≠ 0 := by
  have lawful := entryInterface_lawful env
  have removed := chained.removed lawful taken
  -- a dead record after the slot was taken out of its chain, if the slot left no dead head alone
  have unlinked (dead : ((tbl.unlink (entryInterface env) slot).slots other).dead = true)
      (notAlone : (tbl.slots other).dead = true → other = (tbl.slots slot).prevIndex →
        (tbl.slots slot).nextIndex ≠ 0) : other < tbl.tableEntries ∧
        ((tbl.unlink (entryInterface env) slot).slots other).nextIndex ≠ 0 := by
    have apart : other ≠ slot := by
      intro same
      rw [same, unlink_slot] at dead
      cases dead
    have payload : ((tbl.unlink (entryInterface env) slot).slots other).payload =
        (tbl.slots other).payload := unlink_payload lawful apart
    rw [(IpaNatRule.payload_live payload).2.2.1] at dead
    have valid : (tbl.links (entryInterface env)).valid other = true := by
      exact (and_eq_true_iff.mp dead).1
    obtain ⟨low, more⟩ := heads other dead
    have next : ((tbl.unlink (entryInterface env) slot).slots other).nextIndex =
        if other = (tbl.slots slot).prevIndex then (tbl.slots slot).nextIndex
        else (tbl.slots other).nextIndex := removed.next other valid apart
    rw [next]
    refine ⟨low, ?_⟩
    split
    · rename_i isPrev
      exact notAlone dead isPrev
    · exact more
  unfold natDeleted at dead ⊢
  dsimp only at dead ⊢
  split at dead
  · rename_i headWithTail
    rw [if_pos headWithTail]
    by_cases same : other = slot
    · refine ⟨?_, ?_⟩
      · rw [same]
        rcases lt_or_ge slot tbl.tableEntries with low | high
        · exact low
        · have prevTaken := (chained.linked.back slot taken high).1
          exact absurd headWithTail.1 (chained.linked.inRange _ prevTaken).1
      · rw [same]
        simpa [IpaNatRule.buried, IpaNatRule.dmaWrite, ipaNatRuleProtoFieldOffset,
          ipaNatRuleFlagFieldOffset, ipaNatRuleNextFieldOffset] using headWithTail.2
    · simp only [IpaTable.put_fields, update_of_ne same] at dead ⊢
      exact heads other dead
  · rename_i notHeadWithTail
    rw [if_neg notHeadWithTail]
    split at dead
    · rename_i alone
      rw [if_pos alone]
      by_cases same : other = (tbl.slots slot).prevIndex
      · rw [same] at dead
        simp [entryInterface, IpaNatRule.dead, IpaNatRule.empty] at dead
      · simp only [ipaTableEraseEntry_fields, update_of_ne same] at dead ⊢
        exact unlinked dead fun _ isPrev => absurd isPrev same
    · rename_i notAlone
      rw [if_neg notAlone]
      refine unlinked dead fun prevDead isPrev ends => ?_
      obtain ⟨enabled, protocol⟩ := and_eq_true_iff.mp prevDead
      have valid : (tbl.links (entryInterface env)).valid other = true := enabled
      have some := (chained.linked.inRange other valid).1
      rw [isPrev] at protocol some
      exact notAlone ⟨beq_iff_eq.mp protocol, some, ends⟩

end

end NatDeletion

section IndexDeletion

variable {indexRank : Nat → Nat} {index : Nat}

@[simp]
theorem clearMetaPrevIndex_fields (indexTable : IpaTable IpaNatIndxTblRule) (index : Nat) :
    (clearMetaPrevIndex indexTable index).slots = indexTable.slots ∧
      (clearMetaPrevIndex indexTable index).tableEntries = indexTable.tableEntries ∧
      (clearMetaPrevIndex indexTable index).expnTableEntries = indexTable.expnTableEntries ∧
      (clearMetaPrevIndex indexTable index).nmi = indexTable.nmi ∧
      (clearMetaPrevIndex indexTable index).hasMeta = indexTable.hasMeta ∧
      (clearMetaPrevIndex indexTable index).curTblCnt = indexTable.curTblCnt ∧
      (clearMetaPrevIndex indexTable index).curExpnTblCnt = indexTable.curExpnTblCnt := by
  unfold clearMetaPrevIndex
  split <;> simp

theorem Chained.clearMeta {indexTable : IpaTable IpaNatIndxTblRule}
    (chained : Chained indexEntryInterface indexTable indexHead indexRank)
    (free : (indexTable.slots index).tblEntry = 0) :
    Chained indexEntryInterface (clearMetaPrevIndex indexTable index) indexHead indexRank := by
  have fields := clearMetaPrevIndex_fields indexTable index
  refine chained.congr fields.2.1 fields.2.2.1 fields.2.2.2.2.2.1 fields.2.2.2.2.2.2 ?_
    (fun other _ => ?_) (fun other taken => ?_) (fun other _ => by rw [fields.1])
  · simp [links]
  · simp [links]
  · have apart : other ≠ index := fun same => indexTable_valid.mp taken (same ▸ free)
    simp only [links, indexEntryInterface, indexTableEntryGetPrevIndex, fields.2.1]
    split
    · unfold clearMetaPrevIndex
      split
      · exact update_of_ne (by omega) _ _
      · rfl
    · rfl

section

variable (chained : Chained indexEntryInterface cache.indexTable indexHead indexRank)
  (taken : (cache.indexTable.slots index).tblEntry ≠ 0)
include chained taken

theorem indexMoved_chained (headWithTail : cache.indexHeadWithTail index) :
    Chained indexEntryInterface (cache.indexMoved index) indexHead indexRank :=
  chained.put (indexTable_valid.mpr taken) (indexMoved_links chained taken headWithTail)

theorem indexDeleted_chained : Chained indexEntryInterface (cache.indexDeleted index) indexHead indexRank := by
  have valid := indexTable_valid.mpr taken
  unfold indexDeleted
  split
  · rename_i headWithTail
    obtain ⟨nextTaken, high, -⟩ := chained.linked.forward index valid headWithTail.2
    have links := indexMoved_links chained taken headWithTail
    have moved := indexMoved_chained chained taken headWithTail
    refine (moved.unlink indexEntryInterface_lawful ?_ (.inl ?_)).clearMeta ?_
    · rw [links]
      exact nextTaken
    · exact high
    · rw [unlink_slot]
      rfl
  · rename_i notHeadWithTail
    refine (chained.unlink indexEntryInterface_lawful valid ?_).clearMeta ?_
    · by_cases first : cache.indexPrev index = 0
      · exact .inr (Classical.not_not.mp fun more => notHeadWithTail ⟨first, more⟩)
      · exact .inl (chained.prev_taken valid first).1
    · rw [unlink_slot]
      rfl

end

@[simp]
theorem indexDeleted_fields (cache : IpaNatIp4TableCache) (index : Nat) :
    (cache.indexDeleted index).tableEntries = cache.indexTable.tableEntries ∧
      (cache.indexDeleted index).expnTableEntries = cache.indexTable.expnTableEntries ∧
      (cache.indexDeleted index).nmi = cache.indexTable.nmi ∧
      (cache.indexDeleted index).hasMeta = cache.indexTable.hasMeta := by
  unfold indexDeleted indexMoved
  split <;> simp

theorem indexDeleted_tblEntry (cache : IpaNatIp4TableCache) (index other : Nat) :
    ((cache.indexDeleted index).slots other).tblEntry = if cache.indexHeadWithTail index then
        if other = (cache.indexTable.slots index).nextIndex then 0
        else if other = index then (cache.indexTable.slots (cache.indexTable.slots index).nextIndex).tblEntry
        else (cache.indexTable.slots other).tblEntry
      else if other = index then 0 else (cache.indexTable.slots other).tblEntry := by
  unfold indexDeleted
  split
  · simp only [clearMetaPrevIndex_fields]
    split
    · rename_i removed
      rw [removed, unlink_slot]
      rfl
    rename_i apart
    rw [unlink_payload indexEntryInterface_lawful apart]
    unfold indexMoved
    split
    · rename_i same
      simp [same]
    · rename_i notHead
      simp [notHead]
  · simp only [clearMetaPrevIndex_fields]
    split
    · rename_i same
      rw [same, unlink_slot]
      rfl
    · rename_i apart
      rw [unlink_payload indexEntryInterface_lawful apart]

end IndexDeletion

theorem repointed_payload (cache : IpaNatIp4TableCache) (index other : Nat) :
    ((cache.repointed index).slots other).live = (cache.table.slots other).live ∧
      ((cache.repointed index).slots other).indxTblEntry = if cache.indexHeadWithTail index ∧ other =
            (cache.indexTable.slots (cache.indexTable.slots index).nextIndex).tblEntry then index
        else (cache.table.slots other).indxTblEntry := by
  refine ⟨?_, ?_⟩
  · obtain ⟨indxTblEntry, same⟩ := repointed_slots cache index other
    rw [same]
    rfl
  · unfold repointed
    by_cases headWithTail : cache.indexHeadWithTail index
    · by_cases same : other = (cache.indexTable.slots (cache.indexTable.slots index).nextIndex).tblEntry
      · simp [headWithTail, same]
      · simp [headWithTail, same]
    · simp [headWithTail]

theorem deleted_live : ((cache.deleted env slot).table.slots other).live = true ↔
      other ≠ slot ∧ (cache.table.slots other).live = true := by
  constructor
  · intro live
    obtain ⟨apart, payload⟩ := natDeleted_live live
    have same := (payload_live payload).2.1
    refine ⟨apart, ?_⟩
    rw [← (repointed_payload cache (cache.table.slots slot).indxTblEntry other).1, ← same]
    exact live
  · intro both
    have stays := (repointed_payload cache (cache.table.slots slot).indxTblEntry other).1.trans both.2
    exact (payload_live (natDeleted_kept both.1 stays)).2.1.trans stays

theorem deleted_indxTblEntry (apart : other ≠ slot) (live : (cache.table.slots other).live = true) :
    let index := (cache.table.slots slot).indxTblEntry
    ((cache.deleted env slot).table.slots other).indxTblEntry = if cache.indexHeadWithTail index ∧ other =
          (cache.indexTable.slots (cache.indexTable.slots index).nextIndex).tblEntry then index
      else (cache.table.slots other).indxTblEntry := by
  have repointed := repointed_payload cache (cache.table.slots slot).indxTblEntry other
  have stays := repointed.1.trans live
  exact (payload_live (natDeleted_kept apart stays)).2.2.2.trans repointed.2

theorem Sound.deleted (sound : Sound env cache head indexHead) (enabled : (cache.table.slots slot).enable = true)
    (taken : (cache.indexTable.slots (cache.table.slots slot).indxTblEntry).tblEntry ≠ 0) :
    Sound env (cache.deleted env slot) head indexHead := by
  obtain ⟨rank, chained⟩ := sound.chained
  obtain ⟨indexRank, indexChained⟩ := sound.indexChained
  have repointedChained := sound.repointed_chained taken chained
  have stillEnabled : ((cache.repointed (cache.table.slots slot).indxTblEntry).slots slot).enable = true := by
    obtain ⟨indxTblEntry, same⟩ := repointed_slots cache (cache.table.slots slot).indxTblEntry slot
    rw [same]
    exact enabled
  have heads (other : Nat) (dead : ((cache.repointed (cache.table.slots slot).indxTblEntry).slots other).dead = true) :
      other < (cache.repointed (cache.table.slots slot).indxTblEntry).tableEntries ∧
        ((cache.repointed (cache.table.slots slot).indxTblEntry).slots other).nextIndex ≠ 0 := by
    rw [repointed_dead] at dead
    obtain ⟨indxTblEntry, same⟩ := repointed_slots cache (cache.table.slots slot).indxTblEntry other
    rw [same, repointed_fields.1]
    exact sound.dead other dead
  have fields := natDeleted_fields env (cache.repointed (cache.table.slots slot).indxTblEntry) slot
  rw [repointed_fields.1, repointed_fields.2.1, repointed_fields.2.2.2]
    at fields
  have indexFields := indexDeleted_fields cache (cache.table.slots slot).indxTblEntry
  refine ⟨?_, ?_, ?_, ?_, ?_, ⟨rank, ?_⟩, ⟨indexRank, ?_⟩, fun index points => ?_, fun other dead => ?_⟩
  · rw [IpaNatIp4TableCache.deleted, fields.1, fields.2.1]
    exact sound.geometry
  · exact indexFields.1.trans (sound.sameBase.trans fields.1.symm)
  · exact indexFields.2.1.trans (sound.sameExpn.trans fields.2.1.symm)
  · exact fields.2.2.2.trans sound.withoutMeta
  · exact indexFields.2.2.2.trans sound.withMeta
  · exact natDeleted_chained repointedChained stillEnabled fun other dead => (heads other dead).1
  · exact indexDeleted_chained indexChained taken
  · -- the rule of an index record is another one than the deleted rule, for it points elsewhere
    obtain ⟨rule, entry, live, apart, back⟩ :
        ∃ rule, ((cache.deleted env slot).indexTable.slots index).tblEntry = rule ∧
          (cache.table.slots rule).live = true ∧ rule ≠ slot ∧
          ((cache.deleted env slot).table.slots rule).indxTblEntry = index := by
      refine ⟨_, rfl, ?_⟩
      have entry := indexDeleted_tblEntry cache (cache.table.slots slot).indxTblEntry index
      change ((cache.deleted env slot).indexTable.slots index).tblEntry = _ at entry
      rw [entry] at points ⊢
      by_cases headWithTail : cache.indexHeadWithTail (cache.table.slots slot).indxTblEntry
      · simp only [headWithTail, if_true] at points ⊢
        have valid := indexTable_valid.mpr taken
        have nextTaken := indexTable_valid.mp (indexChained.linked.forward _ valid headWithTail.2).1
        obtain ⟨nextLive, nextBack⟩ := sound.points _ nextTaken
        have nextDifferent : (cache.indexTable.slots
            (cache.table.slots slot).indxTblEntry).nextIndex ≠ (cache.table.slots slot).indxTblEntry :=
          indexChained.linked.next_ne valid headWithTail.2
        have notNext : index ≠ (cache.indexTable.slots (cache.table.slots slot).indxTblEntry).nextIndex := by
          intro same
          rw [if_pos same] at points
          exact points rfl
        rw [if_neg notNext] at points ⊢
        by_cases isHead : index = (cache.table.slots slot).indxTblEntry
        · rw [if_pos isHead]
          have notSlot : (cache.indexTable.slots (cache.indexTable.slots
              (cache.table.slots slot).indxTblEntry).nextIndex).tblEntry ≠ slot := by
            intro same
            have back : (cache.table.slots (cache.indexTable.slots (cache.indexTable.slots
              (cache.table.slots slot).indxTblEntry).nextIndex).tblEntry).indxTblEntry = _ := nextBack
            rw [same] at back
            exact nextDifferent back.symm
          refine ⟨nextLive, notSlot, ?_⟩
          rw [deleted_indxTblEntry notSlot nextLive, if_pos ⟨headWithTail, rfl⟩, isHead]
        · rw [if_neg isHead] at points ⊢
          obtain ⟨live, back⟩ := sound.points index points
          have notSlot : (cache.indexTable.slots index).tblEntry ≠ slot := by
            intro same
            rw [same] at back
            exact isHead back.symm
          refine ⟨live, notSlot, ?_⟩
          rw [deleted_indxTblEntry notSlot live, if_neg]
          · exact back
          · intro both
            have rules : (cache.table.slots (cache.indexTable.slots index).tblEntry).indxTblEntry =
              (cache.table.slots (cache.indexTable.slots (cache.indexTable.slots
                (cache.table.slots slot).indxTblEntry).nextIndex).tblEntry).indxTblEntry := by
              rw [both.2]
            exact notNext (back.symm.trans (rules.trans nextBack))
      · simp only [headWithTail, if_false] at points ⊢
        have apart : index ≠ (cache.table.slots slot).indxTblEntry := by
          intro same
          rw [if_pos same] at points
          exact points rfl
        rw [if_neg apart] at points ⊢
        obtain ⟨live, back⟩ := sound.points index points
        have notSlot : (cache.indexTable.slots index).tblEntry ≠ slot := by
          intro same
          rw [same] at back
          exact apart back.symm
        refine ⟨live, notSlot, ?_⟩
        rw [deleted_indxTblEntry notSlot live, if_neg fun both => headWithTail both.1]
        exact back
    rw [entry]
    exact ⟨deleted_live.mpr ⟨apart, live⟩, back⟩
  · have found := natDeleted_dead repointedChained stillEnabled heads dead
    exact ⟨found.1.trans_eq (repointed_fields.1.trans fields.1.symm), found.2⟩

theorem Indexed.deleted (sound : Sound env cache head indexHead) (indexed : Indexed cache)
    (live : (cache.table.slots slot).live = true) : Indexed (cache.deleted env slot) := by
  obtain ⟨indexRank, indexChained⟩ := sound.indexChained
  obtain ⟨ne, own⟩ := indexed slot live
  have taken : (cache.indexTable.slots (cache.table.slots slot).indxTblEntry).tblEntry ≠ 0 := by
    obtain ⟨rank, chained⟩ := sound.chained
    have valid : (cache.table.links (entryInterface env)).valid slot = true :=
      (and_eq_true_iff.mp live).1
    rw [own]
    exact (chained.linked.inRange slot valid).1
  intro other otherLive
  obtain ⟨apart, wasLive⟩ := deleted_live.mp otherLive
  obtain ⟨otherNonzero, otherOwn⟩ := indexed other wasLive
  have entries := indexDeleted_tblEntry cache (cache.table.slots slot).indxTblEntry
  change ∀ index, ((cache.deleted env slot).indexTable.slots index).tblEntry = _ at entries
  rw [deleted_indxTblEntry apart wasLive]
  by_cases moved : cache.indexHeadWithTail (cache.table.slots slot).indxTblEntry ∧
      other = (cache.indexTable.slots (cache.indexTable.slots (cache.table.slots slot).indxTblEntry).nextIndex).tblEntry
  · have nextDifferent : (cache.indexTable.slots
        (cache.table.slots slot).indxTblEntry).nextIndex ≠ (cache.table.slots slot).indxTblEntry :=
      indexChained.linked.next_ne (indexTable_valid.mpr taken) moved.1.2
    rw [if_pos moved, entries, if_pos moved.1, if_neg nextDifferent.symm, if_pos rfl]
    exact ⟨ne, moved.2.symm⟩
  have notOwn : (cache.table.slots other).indxTblEntry ≠ (cache.table.slots slot).indxTblEntry := by
    intro same
    rw [same, own] at otherOwn
    exact apart otherOwn.symm
  rw [if_neg moved, entries]
  refine ⟨otherNonzero, ?_⟩
  split
  · rename_i headWithTail
    rw [if_neg, otherOwn]
    intro isNext
    rw [isNext] at otherOwn
    exact moved ⟨headWithTail, otherOwn.symm⟩
  · exact otherOwn

theorem natRecord_live (index : Nat) (good : ¬ BadArguments env clntRule) :
    (natRecord env clntRule index).live = true := by
  have protocol : clntRule.protocol ≠ ipahalNatInvalidProtocol := fun bad => good (.inl bad)
  simp [natRecord, live, tableEntryCopyFromUser, protocol]

section Storing

variable {indexStart : Nat}

theorem stored_payload (env : Environment) (cache : IpaNatIp4TableCache)
    (clntRule : IpaNatIpv4Rule) (slot last index lastIndex other : Nat) :
    ((cache.stored env clntRule slot last index lastIndex).table.slots other).payload =
      if other = slot then (natRecord env clntRule index).payload else (cache.table.slots other).payload := by
  split
  · rename_i same
    rw [same]
    exact append_payload_slot (entryInterface_lawful env)
  · rename_i apart
    exact append_payload (entryInterface_lawful env) apart

theorem stored_tblEntry (env : Environment) (cache : IpaNatIp4TableCache)
    (clntRule : IpaNatIpv4Rule) (slot last index lastIndex other : Nat) :
    ((cache.stored env clntRule slot last index lastIndex).indexTable.slots other).tblEntry =
      if other = index then slot else (cache.indexTable.slots other).tblEntry := by
  split
  · rename_i same
    rw [same]
    exact append_payload_slot indexEntryInterface_lawful
  · rename_i apart
    exact append_payload indexEntryInterface_lawful apart

theorem Placed.free_rule (placed : Placed (entryInterface env) cache.table head start slot last)
    (taken : (cache.table.slots other).enable = true) : other ≠ slot := by
  intro same
  have free : (cache.table.slots slot).enable = false := placed.free
  rw [same, free] at taken
  cases taken

theorem Sound.stored (sound : Sound env cache head indexHead) (good : ¬ BadArguments env clntRule)
    (placed : Placed (entryInterface env) cache.table head start slot last)
    (indexPlaced : Placed indexEntryInterface cache.indexTable indexHead indexStart index lastIndex) :
    Sound env (cache.stored env clntRule slot last index lastIndex)
      (update head slot start) (update indexHead index indexStart) := by
  obtain ⟨rank, chained⟩ := sound.chained
  obtain ⟨indexRank, indexChained⟩ := sound.indexChained
  have lawful := entryInterface_lawful env
  have rules := stored_payload env cache clntRule slot last index lastIndex
  have fields := IpaTable.append_fields (entryInterface env) cache.table slot last (natRecord env clntRule index)
  have indexFields := IpaTable.append_fields indexEntryInterface cache.indexTable index lastIndex ⟨slot, 0⟩
  have enabled : (entryInterface env).entryIsValid (natRecord env clntRule index) = true := rfl
  have inserted := placed.inserted lawful chained.nothing enabled rfl (fun _ => rfl)
  refine ⟨?_, ?_, ?_, ?_, ?_, ?_, ?_, fun entry points => ?_, fun other dead => ?_⟩
  · rw [IpaNatIp4TableCache.stored, fields.1, fields.2.1]
    exact sound.geometry
  · exact indexFields.1.trans (sound.sameBase.trans fields.1.symm)
  · exact indexFields.2.1.trans (sound.sameExpn.trans fields.2.1.symm)
  · exact fields.2.2.2.trans sound.withoutMeta
  · exact indexFields.2.2.2.trans sound.withMeta
  · exact chained.append lawful placed enabled rfl (fun _ => rfl)
  · refine indexChained.append indexEntryInterface_lawful indexPlaced (bne_iff_ne.mpr placed.nonzero) rfl fun new => ?_
    exact if_neg (not_le.mpr (indexPlaced.alone new).2)
  · rw [stored_tblEntry] at points ⊢
    split at points
    · rename_i same
      have payload := IpaNatRule.payload_live ((rules slot).trans (if_pos rfl))
      rw [if_pos same, payload.2.1, payload.2.2.2, same]
      exact ⟨natRecord_live index good, rfl⟩
    · rename_i apart
      obtain ⟨live, back⟩ := sound.points entry points
      have notSlot := placed.free_rule (and_eq_true_iff.mp live).1
      have payload := IpaNatRule.payload_live ((rules _).trans (if_neg notSlot))
      rw [if_neg apart, payload.2.1, payload.2.2.2]
      exact ⟨live, back⟩
  · have apart : other ≠ slot := by
      intro same
      have payload := IpaNatRule.payload_live ((rules slot).trans (if_pos rfl))
      have live := natRecord_live index good
      simp_all [IpaNatRule.live, IpaNatRule.dead]
    have payload := IpaNatRule.payload_live ((rules other).trans (if_neg apart))
    rw [payload.2.2.1] at dead
    obtain ⟨low, more⟩ := sound.dead other dead
    have next : ((cache.stored env clntRule slot last index lastIndex).table.slots
        other).nextIndex = if other = last then slot else (cache.table.slots other).nextIndex :=
      inserted.next other (and_eq_true_iff.mp dead).1 apart
    rw [next]
    refine ⟨low.trans_eq fields.1.symm, ?_⟩
    split
    · exact placed.nonzero
    · exact more

theorem Indexed.stored (indexed : Indexed cache) (chained : ∃ rank, Chained (entryInterface env) cache.table head rank)
    (indexPlaced : Placed indexEntryInterface cache.indexTable indexHead indexStart index lastIndex) :
    Indexed (cache.stored env clntRule slot last index lastIndex) := by
  obtain ⟨rank, chained⟩ := chained
  have rules := stored_payload env cache clntRule slot last index lastIndex
  intro other live
  by_cases same : other = slot
  · have payload := payload_live ((rules slot).trans (if_pos rfl))
    rw [same, payload.2.2.2, stored_tblEntry]
    exact ⟨indexPlaced.nonzero, if_pos rfl⟩
  have payload := payload_live ((rules other).trans (if_neg same))
  rw [payload.2.1] at live
  rw [payload.2.2.2, stored_tblEntry]
  obtain ⟨ne, own⟩ := indexed other live
  refine ⟨ne, ?_⟩
  rw [if_neg, own]
  intro reused
  have valid : (cache.table.links (entryInterface env)).valid other = true :=
    (and_eq_true_iff.mp live).1
  have some := (chained.linked.inRange other valid).1
  have free := indexPlaced.free
  rw [← reused] at free
  rw [← own] at some
  exact false_ne_true (free.symm.trans (indexTable_valid.mpr some))

theorem Sound.takenBack (sound : Sound env cache head indexHead)
    (indexPlaced : Placed indexEntryInterface cache.indexTable indexHead indexStart index lastIndex) :
    Sound env (cache.takenBack slot index lastIndex) head indexHead := by
  obtain ⟨indexRank, indexChained⟩ := sound.indexChained
  refine { sound with indexChained := ⟨indexRank, ?_⟩ }
  refine indexChained.congr rfl rfl rfl rfl rfl (fun _ _ => rfl) (fun other taken => ?_) (fun _ _ => rfl)
  have apart : other ≠ index := by
    intro same
    have free := indexPlaced.free
    rw [← same, taken] at free
    cases free
  change indexEntryInterface.entryGetPrevIndex (cache.indexTable.slots other) other _ cache.indexTable.tableEntries = _
  exact insertion_prev_other indexEntryInterface_lawful apart slot []

end Storing

theorem reset_slots {tbl : IpaTable Entry} (chained : Chained iface tbl head rank) :
    (ipaTableReset iface tbl).slots = fun _ => iface.empty := by
  funext index
  unfold ipaTableReset
  dsimp only
  split
  · rfl
  · rename_i beyond
    refine chained.blank index ?_
    cases taken : (tbl.links iface).valid index with
    | false => rfl
    | true => exact absurd (chained.linked.inRange index taken).2 beyond

theorem Sound.cleared (sound : Sound env cache head indexHead) :
    Sound env (ipaNatiClearIpv4Tbl env cache) head indexHead ∧ Indexed (ipaNatiClearIpv4Tbl env cache) := by
  obtain ⟨rank, chained⟩ := sound.chained
  obtain ⟨indexRank, indexChained⟩ := sound.indexChained
  exact Sound.of_blank (ipaNatiClearIpv4Tbl env cache) sound.geometry sound.sameBase
    sound.sameExpn sound.withoutMeta sound.withMeta (reset_slots chained) (reset_slots indexChained)
    ⟨rfl, rfl, rfl, rfl⟩ head indexHead

theorem Sound.created {nmi : Ipa3NatMemIn} (created : ipaNatiCreateTable numberOfEntries nmi = some cache) :
    Sound env cache head indexHead ∧ Indexed cache := by
  unfold ipaNatiCreateTable at created
  split at created
  · cases created
  · rename_i ok
    cases created
    exact Sound.of_blank _ (ipaTableCalculateEntriesNum_geometry ok) rfl rfl rfl rfl rfl rfl
      ⟨rfl, rfl, rfl, rfl⟩ head indexHead

end KernelModules.IpaNat

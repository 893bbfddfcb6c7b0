import KernelModules.IpaNat.Faithful

namespace KernelModules.IpaNat

open Data IpaNatRule

def FoundFromDst (cache : IpaNatIp4TableCache) (start slot : Nat) : Prop :=
  (cache.table.slots start).enable = true ∧ Reaches (fun index => (cache.table.slots index).nextIndex) start slot ∧
    (cache.table.slots slot).live = true

def FoundFromSrc (cache : IpaNatIp4TableCache) (start slot : Nat) : Prop :=
  (cache.indexTable.slots start).tblEntry ≠ 0 ∧
    ∃ index, Reaches (fun index => (cache.indexTable.slots index).nextIndex) start index ∧
      (cache.indexTable.slots index).tblEntry = slot

structure Keeps (clntRule : IpaNatIpv4Rule) (record : IpaNatRule) : Prop where
  live : record.live = true
  privateIp : record.privateIp = clntRule.privateIp
  targetIp : record.targetIp = clntRule.targetIp
  privatePort : record.privatePort = clntRule.privatePort
  targetPort : record.targetPort = clntRule.targetPort
  publicPort : record.publicPort = clntRule.publicPort
  protocol : record.protocol = clntRule.protocol
  pdnIndex : record.pdnIndex.toNat = clntRule.pdnIndex.toNat
  ucActivationIndex : record.ucActivationIndex.toNat = clntRule.ucActivationIndex.toNat % 2 ^ 13
  s : record.s = clntRule.s
  ucp : record.ucp = clntRule.ucp
  dstOnly : record.dstOnly = clntRule.dstOnly
  srcOnly : record.srcOnly = clntRule.srcOnly

section Lookups

variable {env : Environment} {cache : IpaNatIp4TableCache} {head indexHead : Nat → Nat}
  {held : Nat × IpaNatIpv4Rule} {slot : Nat}

section

variable (sound : Sound env cache head indexHead)
include sound

theorem Sound.foundFromDst_iff (low : start < cache.table.tableEntries) :
    FoundFromDst cache start slot ↔ (cache.table.slots slot).live = true ∧ head slot = start := by
  obtain ⟨rank, chained⟩ := sound.chained
  constructor
  · rintro ⟨enabled, reaches, live⟩
    exact ⟨live, (chained.linked.reaches_iff (Bool.and_eq_true_iff.mp live).1 low enabled).mp reaches⟩
  · rintro ⟨live, headed⟩
    obtain ⟨enabled, -, reaches⟩ := chained.linked.from_head (Bool.and_eq_true_iff.mp live).1
    rw [headed] at enabled reaches
    exact ⟨enabled, reaches, live⟩

theorem Sound.named (found : FoundFromSrc cache start slot) : (cache.table.slots slot).live = true ∧
      (cache.indexTable.links indexEntryInterface).valid (cache.table.slots slot).indxTblEntry = true ∧
      Reaches (cache.indexTable.links indexEntryInterface).next start (cache.table.slots slot).indxTblEntry := by
  obtain ⟨indexRank, indexChained⟩ := sound.indexChained
  obtain ⟨taken, idx, reaches, names⟩ := found
  have valid := (indexChained.linked.reaches_head (indexTable_valid.mpr taken) reaches).1
  have points := sound.points idx (indexTable_valid.mp valid)
  rw [names] at points
  rw [points.2]
  exact ⟨points.1, valid, reaches⟩

theorem Sound.foundFromSrc_iff (indexed : Indexed cache) (low : start < cache.table.tableEntries) :
    FoundFromSrc cache start slot ↔ (cache.table.slots slot).live = true ∧
      indexHead (cache.table.slots slot).indxTblEntry = start := by
  obtain ⟨indexRank, indexChained⟩ := sound.indexChained
  have indexLow : start < cache.indexTable.tableEntries := by rw [sound.sameBase]; exact low
  constructor
  · intro found
    obtain ⟨live, valid, reaches⟩ := sound.named found
    have startTaken := indexTable_valid.mpr found.1
    exact ⟨live, (indexChained.linked.reaches_iff valid indexLow startTaken).mp reaches⟩
  · rintro ⟨live, headed⟩
    obtain ⟨ne, own⟩ := indexed slot live
    have valid : (cache.indexTable.links indexEntryInterface).valid (cache.table.slots slot).indxTblEntry = true := by
      rw [indexTable_valid, own]
      exact (sound.live_bounds live).1
    obtain ⟨startTaken, -, reaches⟩ := indexChained.linked.from_head valid
    rw [headed] at startTaken reaches
    exact ⟨indexTable_valid.mp startTaken, _, reaches, own⟩

end

theorem Keeps.of_content (live : record.live = true) (good : ¬ BadArguments env clntRule)
    (content : record.content = (natRecord env clntRule 0).content) : Keeps clntRule record where
  live := live
  privateIp := congrArg IpaNatRule.privateIp content
  targetIp := congrArg IpaNatRule.targetIp content
  privatePort := congrArg IpaNatRule.privatePort content
  targetPort := congrArg IpaNatRule.targetPort content
  publicPort := congrArg IpaNatRule.publicPort content
  protocol := congrArg IpaNatRule.protocol content
  pdnIndex := by
    have small : clntRule.pdnIndex.toNat < 2 ^ 4 :=
      not_le.mp fun large => good (.inr (.inl large))
    have field : record.pdnIndex = clntRule.pdnIndex.setWidth 4 :=
      congrArg IpaNatRule.pdnIndex content
    rw [field, BitVec.toNat_setWidth, Nat.mod_eq_of_lt small]
  ucActivationIndex := by
    have field : record.ucActivationIndex = clntRule.ucActivationIndex.setWidth 13 :=
      congrArg IpaNatRule.ucActivationIndex content
    rw [field, BitVec.toNat_setWidth]
  s := congrArg IpaNatRule.s content
  ucp := congrArg IpaNatRule.ucp content
  dstOnly := congrArg IpaNatRule.dstOnly content
  srcOnly := congrArg IpaNatRule.srcOnly content

section

variable (sound : Sound env cache head indexHead) (indexed : Indexed cache)
  (stored : Stored env cache head indexHead held slot)
include sound indexed stored

theorem Stored.found : (held.2.srcOnly = false →
        FoundFromDst cache (clientDstHash env held.2 cache.table.tableEntries) slot) ∧
      (held.2.dstOnly = false → FoundFromSrc cache (clientSrcHash held.2 cache.table.tableEntries) slot) := by
  have two := sound.geometry.two_le
  refine ⟨fun hashed => ?_, fun hashed => ?_⟩
  · exact (sound.foundFromDst_iff (maskHash_bounds two).2).mpr ⟨stored.live, stored.start hashed⟩
  · exact (sound.foundFromSrc_iff indexed (maskHash_bounds two).2).mpr ⟨stored.live, stored.indexStart hashed⟩

theorem Stored.deleted_found : (∀ start, ¬ FoundFromDst (cache.deleted env slot) start slot ∧
        ¬ FoundFromSrc (cache.deleted env slot) start slot) ∧
      ∀ start other, start < cache.table.tableEntries → other ≠ slot →
        (FoundFromDst (cache.deleted env slot) start other ↔ FoundFromDst cache start other) ∧
          (FoundFromSrc (cache.deleted env slot) start other ↔ FoundFromSrc cache start other) := by
  have bounds := sound.live_bounds stored.live
  have taken : (cache.indexTable.slots (cache.table.slots slot).indxTblEntry).tblEntry ≠ 0 := by
    rw [(indexed slot stored.live).2]
    exact bounds.1
  have after := sound.deleted (Bool.and_eq_true_iff.mp stored.live).1 taken
  have afterIndexed := indexed.deleted sound stored.live
  have fields := deleted_fields env cache slot
  refine ⟨fun start => ⟨fun found => ?_, fun found => ?_⟩, fun start other low apart => ?_⟩
  · exact (deleted_live.mp found.2.2).1 rfl
  · exact (deleted_live.mp (after.named found).1).1 rfl
  · have afterLow : start < (cache.deleted env slot).table.tableEntries := by
      rw [fields.1]
      exact low
    have survives : ((cache.deleted env slot).table.slots other).live = true ↔
        (cache.table.slots other).live = true := by
      rw [deleted_live]
      exact and_iff_right apart
    rw [after.foundFromDst_iff afterLow, sound.foundFromDst_iff low,
      after.foundFromSrc_iff afterIndexed afterLow, sound.foundFromSrc_iff indexed low, survives]
    refine ⟨Iff.rfl, and_congr_right fun live => ?_⟩
    rw [deleted_indexHead sound indexed stored.live apart live]

end

end Lookups

/-- After any history under the contract: handles in use differ; an add returns, with a new handle if it succeeds; a
handle names the record of its rule, found from the rule's hashes; and deleting it takes that rule alone. -/
theorem handles_map_to_rules (env : Environment) (numberOfEntries : Nat)
    (nmi : Ipa3NatMemIn) (cache : IpaNatIp4TableCache)
    (created : ipaNatiCreateTable numberOfEntries nmi = some cache) (session : Session)
    (reached : Reachable (Session.step env) Contract (.created cache) session) : let tables := session.driver.cache
    (session.live.map Prod.fst).Nodup ∧ (∀ clntRule, ∃ answer driver,
        perform env session.driver (.addRule clntRule true) = some (answer, driver) ∧
          (answer.ret = 0 → answer.value ≠ 0 ∧ ¬ session.holds answer.value)) ∧
      (∀ held ∈ session.live, Keeps held.2 (tables.table.slots (breakRuleHdl tables.table held.1)) ∧
          (held.2.srcOnly = false → FoundFromDst tables (clientDstHash env held.2 tables.table.tableEntries)
              (breakRuleHdl tables.table held.1)) ∧
          (held.2.dstOnly = false → FoundFromSrc tables (clientSrcHash held.2 tables.table.tableEntries)
              (breakRuleHdl tables.table held.1))) ∧
      ∀ held ∈ session.live, ∃ driver, perform env session.driver (.delRule held.1 true) = some (⟨0, 0⟩, driver) ∧
          (∀ start, ¬ FoundFromDst driver.cache start (breakRuleHdl tables.table held.1) ∧
            ¬ FoundFromSrc driver.cache start (breakRuleHdl tables.table held.1)) ∧
          ∀ another ∈ session.live, another.1 ≠ held.1 → let slot := breakRuleHdl tables.table another.1
            breakRuleHdl driver.cache.table another.1 = slot ∧
              (driver.cache.table.slots slot).content = (tables.table.slots slot).content ∧
              Keeps another.2 (driver.cache.table.slots slot) ∧ ∀ start, start < tables.table.tableEntries →
                (FoundFromDst driver.cache start slot ↔ FoundFromDst tables start slot) ∧
                (FoundFromSrc driver.cache start slot ↔ FoundFromSrc tables start slot) := by
  obtain ⟨head, indexHead, faithful⟩ := history_faithful created reached
  have sound := faithful.sound
  refine ⟨faithful.distinct, fun clntRule => ?_, fun held member => ?_, fun held member => ?_⟩
  · obtain ⟨result, returned, run⟩ := ipaNatiAddIpv4Rule_run sound clntRule true
    refine ⟨_, _, by rw [perform, returned]; rfl, fun succeeded => ?_⟩
    cases run with
    | badArguments => cases succeeded
    | natFull => cases succeeded
    | indexFull => cases succeeded
    | stored good placed indexPlaced =>
      exact ⟨makeEntryHdl_ne_zero sound.geometry placed.bounded placed.nonzero, faithful.fresh placed⟩
  · obtain ⟨slot, stored⟩ := faithful.stored held member
    rw [stored.decodes sound]
    exact ⟨.of_content stored.live stored.good stored.content, stored.found sound faithful.indexed⟩
  · obtain ⟨slot, stored⟩ := faithful.stored held member
    have deletes := stored.deletes sound faithful.indexed
    have found := stored.deleted_found sound faithful.indexed
    have fields := deleted_fields env session.driver.cache slot
    refine ⟨_, by rw [perform, deletes], ?_, fun another older different => ?_⟩
    · rw [stored.decodes sound]
      exact found.1
    · obtain ⟨other, otherStored⟩ := faithful.stored another older
      have apart : other ≠ slot := by
        intro same
        rw [same] at otherStored
        exact different (otherStored.handle.trans stored.handle.symm)
      have decodes : breakRuleHdl (session.driver.cache.deleted env slot).table another.1 = other := by
        rw [breakRuleHdl, fields.1]
        exact otherStored.decodes sound
      rw [otherStored.decodes sound]
      have content : ((session.driver.cache.deleted env slot).table.slots other).content =
          (session.driver.cache.table.slots other).content :=
        deleted_content apart otherStored.live
      refine ⟨decodes, content, ?_, fun start low => found.2 start other low apart⟩
      exact .of_content (deleted_live.mpr ⟨apart, otherStored.live⟩) otherStored.good
        (content.trans otherStored.content)

theorem handles_map_to_rules_collision :
    ∃ session, runActions (Session.step plainEnvironment) Contract (.created smallestCache)
        [.addRule (plainRule 1) true, .addRule (plainRule 2) true, .delRule 2 true] = some session ∧
      FoundFromDst session.driver.cache 1 2 ∧ FoundFromSrc session.driver.cache 1 2 := by
  refine ran_to (fun session => session.live = [(1, plainRule 2)] ∧ session.driver.cache.table.tableEntries = 2)
    (by decide) fun session ran ⟨live, two⟩ => ?_
  have found := (handles_map_to_rules plainEnvironment 1 .ddr smallestCache smallestCache_created
    session (.run .start ran)).2.2.1 (1, plainRule 2) (by rw [live]; exact List.mem_cons_self)
  simp only [two, breakRuleHdl] at found
  exact ⟨found.2.1 rfl, found.2.2 rfl⟩

/-- An activation index of 14 bits loses its top one. -/
theorem activation_index_cut :
    ∃ session, runActions (Session.step plainEnvironment) Contract (.created smallestCache)
        [.addRule { plainRule 1 with ucActivationIndex := 8192 } true] = some session ∧
      ∃ held ∈ session.live, (session.driver.cache.table.slots (breakRuleHdl session.driver.cache.table
          held.1)).ucActivationIndex.toNat ≠ held.2.ucActivationIndex.toNat :=
  ran_to _ (by decide) fun _ _ cut => cut

end KernelModules.IpaNat

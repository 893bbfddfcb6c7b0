import KernelModules.IpaNat.Faithful

namespace KernelModules.IpaNat

open Data

section Tables

variable {Entry User : Type}

def BaseChain (iface : IpaTableEntryInterface Entry User) (table : IpaTable Entry)
    (chain : List Nat) : Prop :=
  ∃ start, start < table.tableEntries ∧ (table.links iface).valid start = true ∧
    ChainFrom (table.links iface).next start chain

structure WellFormed (iface : IpaTableEntryInterface Entry User) (table : IpaTable Entry) : Prop where
  slotZero : (table.links iface).valid 0 = false
  bounded : ∀ slot, (table.links iface).valid slot = true → slot < table.totTblEnts
  onOneChain : ∀ slot, (table.links iface).valid slot = true → ∃! chain, BaseChain iface table chain ∧ slot ∈ chain
  acyclic : ∀ chain, BaseChain iface table chain →
    chain.Nodup ∧ ∀ slot ∈ chain, (table.links iface).valid slot = true
  prevOfNext : ∀ slot, (table.links iface).valid slot = true → (table.links iface).next slot ≠ 0 →
      table.tableEntries ≤ (table.links iface).next slot ∧
        (table.links iface).prev ((table.links iface).next slot) = slot
  headPrev : ∀ slot, (table.links iface).valid slot = true → slot < table.tableEntries →
    (table.links iface).prev slot = 0
  nextOfPrev : ∀ slot, (table.links iface).valid slot = true → table.tableEntries ≤ slot →
    (table.links iface).valid ((table.links iface).prev slot) = true ∧
      (table.links iface).next ((table.links iface).prev slot) = slot
  baseCount : table.curTblCnt = occupied (table.links iface).valid 0 table.tableEntries
  expnCount : table.curExpnTblCnt = occupied (table.links iface).valid table.tableEntries table.totTblEnts

theorem Chained.onOneChain (chained : Chained iface tbl head rank)
    (taken : (tbl.links iface).valid slot = true) : ∃! chain, BaseChain iface tbl chain ∧ slot ∈ chain := by
  obtain ⟨headTaken, low, reaches⟩ := chained.linked.from_head taken
  obtain ⟨chain, walked, -, -⟩ := chained.linked.chain headTaken
  refine ⟨chain, ⟨⟨head slot, low, headTaken, walked⟩, walked.mem_iff.mpr reaches⟩, ?_⟩
  rintro other ⟨⟨start, startLow, startTaken, otherWalked⟩, mem⟩
  have headed := (chained.linked.reaches_iff taken startLow startTaken).mp (otherWalked.mem_iff.mp mem)
  rw [← headed] at otherWalked
  exact otherWalked.unique walked

theorem Chained.wellFormed (chained : Chained iface table head rank) : WellFormed iface table := by
  have linked := chained.linked
  refine ⟨?_, fun slot taken => (linked.inRange slot taken).2, fun _ => chained.onOneChain, ?_,
    fun slot taken more => ?_, fun slot taken low => (linked.first slot taken low).1,
    fun slot taken high => ?_, chained.baseCount, chained.expnCount⟩
  · cases taken : (table.links iface).valid 0 with
    | false => rfl
    | true => exact absurd rfl (linked.inRange 0 taken).1
  · rintro chain ⟨start, -, taken, walked⟩
    exact ⟨(linked.chain_nodup taken walked).1, fun slot mem =>
      (linked.reaches_head taken (walked.mem_iff.mp mem)).1⟩
  · obtain ⟨-, high, back⟩ := linked.forward slot taken more
    exact ⟨high, back⟩
  · obtain ⟨prevTaken, next, -, -⟩ := linked.back slot taken high
    exact ⟨prevTaken, next⟩

end Tables

def IpaNatIp4TableCache.liveRules (cache : IpaNatIp4TableCache) : Set Nat :=
  { slot | (cache.table.slots slot).live = true }

def IpaNatIp4TableCache.indexRecords (cache : IpaNatIp4TableCache) : Set Nat :=
  { index | (cache.indexTable.links indexEntryInterface).valid index = true }

theorem Indexed.paired (sound : Sound env cache head indexHead) (indexed : Indexed cache) :
    Set.InvOn (fun idx => (cache.indexTable.slots idx).tblEntry)
        (fun slot => (cache.table.slots slot).indxTblEntry) cache.liveRules cache.indexRecords ∧
      Set.BijOn (fun slot => (cache.table.slots slot).indxTblEntry) cache.liveRules cache.indexRecords := by
  have inverse : Set.InvOn (fun idx => (cache.indexTable.slots idx).tblEntry)
      (fun slot => (cache.table.slots slot).indxTblEntry) cache.liveRules cache.indexRecords :=
    ⟨fun slot live => (indexed slot live).2, fun idx taken => (sound.points idx (indexTable_valid.mp taken)).2⟩
  refine ⟨inverse, inverse.bijOn (fun slot live => ?_) fun idx taken => ?_⟩
  · refine indexTable_valid.mpr ?_
    rw [(indexed slot live).2]
    exact (sound.live_bounds live).1
  · exact (sound.points idx (indexTable_valid.mp taken)).1

/-- After any history under the contract both tables are well formed, rules and index records are paired, a dead
rule heads a tail, and every further call returns. -/
theorem tables_well_formed (env : Environment) (numberOfEntries : Nat)
    (nmi : Ipa3NatMemIn) (cache : IpaNatIp4TableCache)
    (created : ipaNatiCreateTable numberOfEntries nmi = some cache) (session : Session)
    (reached : Reachable (Session.step env) Contract (.created cache) session) : let tables := session.driver.cache
    WellFormed (entryInterface env) tables.table ∧ WellFormed indexEntryInterface tables.indexTable ∧
      Set.InvOn (fun index => (tables.indexTable.slots index).tblEntry)
        (fun slot => (tables.table.slots slot).indxTblEntry) tables.liveRules
        tables.indexRecords ∧
      Set.BijOn (fun slot => (tables.table.slots slot).indxTblEntry) tables.liveRules
        tables.indexRecords ∧
      (∀ slot, (tables.table.slots slot).dead = true →
        slot < tables.table.tableEntries ∧ (tables.table.slots slot).nextIndex ≠ 0) ∧
      ∀ call, ∃ after, session.step env call = some after := by
  obtain ⟨head, indexHead, faithful⟩ := history_faithful created reached
  obtain ⟨rank, chained⟩ := faithful.sound.chained
  obtain ⟨indexRank, indexChained⟩ := faithful.sound.indexChained
  obtain ⟨inverse, bijection⟩ := faithful.indexed.paired faithful.sound
  exact ⟨chained.wellFormed, indexChained.wellFormed, inverse, bijection, faithful.sound.dead,
    faithful.sound.returns⟩

theorem tables_well_formed_collision :
    ∃ session, runActions (Session.step plainEnvironment) Contract (.created smallestCache)
        [.addRule (plainRule 1) true, .addRule (plainRule 2) true, .delRule 2 true] = some session ∧
      (session.driver.cache.table.slots 1).dead = true ∧ (session.driver.cache.table.slots 1).nextIndex ≠ 0 :=
  ran_to (fun session => (session.driver.cache.table.slots 1).dead = true) (by decide) fun session ran dead =>
    ⟨dead, ((tables_well_formed plainEnvironment 1 .ddr smallestCache smallestCache_created session
      (.run .start ran)).2.2.2.2.1 1 dead).2⟩

end KernelModules.IpaNat

import KernelModules.IpaNat.Session

namespace KernelModules.IpaNat

open Data List Function IpaNatRule Bool

/-! # The tables keep the rules of the handles in use

Every handle names the slot with its rule, which hangs on the chains of its hashes, and no other rule is live: kept
by every call that posts its commands and deletes only handles in use.
-/

def IpaNatRule.content (rule : IpaNatRule) : IpaNatRule := { rule.payload with indxTblEntry := 0 }

theorem IpaNatRule.payload_content {rule other : IpaNatRule}
    (same : rule.payload = other.payload) : rule.content = other.content := by
  rw [content, content, same]

structure Stored (env : Environment) (cache : IpaNatIp4TableCache)
    (head indexHead : Nat → Nat) (held : Nat × IpaNatIpv4Rule) (slot : Nat) : Prop where
  live : (cache.table.slots slot).live = true
  good : ¬ BadArguments env held.2
  handle : held.1 = makeEntryHdl cache.table slot
  content : (cache.table.slots slot).content = (natRecord env held.2 0).content
  start : held.2.srcOnly = false → head slot = clientDstHash env held.2 cache.table.tableEntries
  indexStart : held.2.dstOnly = false →
    indexHead (cache.table.slots slot).indxTblEntry = clientSrcHash held.2 cache.table.tableEntries

structure Faithful (env : Environment) (session : Session)
    (head indexHead : Nat → Nat) : Prop where
  sound : Sound env session.driver.cache head indexHead
  indexed : Indexed session.driver.cache
  distinct : (session.live.map Prod.fst).Nodup
  stored : ∀ held ∈ session.live, ∃ slot, Stored env session.driver.cache head indexHead held slot
  complete : ∀ slot, (session.driver.cache.table.slots slot).live = true →
    session.holds (makeEntryHdl session.driver.cache.table slot)

section Slots

variable {env : Environment} {cache : IpaNatIp4TableCache} {head indexHead : Nat → Nat}

section

variable (sound : Sound env cache head indexHead)
include sound

theorem Sound.live_bounds (live : (cache.table.slots slot).live = true) : slot ≠ 0 ∧ slot < cache.table.totTblEnts := by
  obtain ⟨rank, chained⟩ := sound.chained
  exact chained.linked.inRange slot (and_eq_true_iff.mp live).1

theorem Stored.decodes (stored : Stored env cache head indexHead held slot) :
    breakRuleHdl cache.table held.1 = slot := by
  rw [stored.handle]
  exact breakRuleHdl_makeEntryHdl sound.geometry (sound.live_bounds stored.live).2

theorem Faithful.blank (indexed : Indexed cache) (blank : ∀ slot, cache.table.slots slot = .empty)
    (hashToken : Nat) : Faithful env ⟨⟨cache, hashToken⟩, []⟩ head indexHead := by
  refine ⟨sound, indexed, nodup_nil, ?_, fun slot live => ?_⟩
  · intro held mem
    cases mem
  · rw [blank] at live
    cases live

end

theorem Faithful.created (created : ipaNatiCreateTable numberOfEntries nmi = some cache) :
    Faithful env (.created cache) id id := by
  obtain ⟨sound, indexed⟩ := Sound.created created
  refine .blank sound indexed (fun slot => ?_) initialHashToken
  unfold ipaNatiCreateTable at created
  split at created
  · cases created
  · cases created
    rfl

end Slots

section Adding

variable {live : List (Nat × IpaNatIpv4Rule)} {head : Nat → Nat}

theorem Faithful.fresh (faithful : Faithful env ⟨drv, live⟩ head indexHead)
    (placed : Placed (entryInterface env) drv.cache.table head start slot last) :
    makeEntryHdl drv.cache.table slot ∉ live.map Prod.fst := by
  intro known
  obtain ⟨held, mem, same⟩ := mem_map.mp known
  obtain ⟨other, stored⟩ := faithful.stored held mem
  have decoded := stored.decodes faithful.sound
  rw [same] at decoded
  have again := breakRuleHdl_makeEntryHdl faithful.sound.geometry placed.bounded
  rw [again] at decoded
  exact placed.free_rule (and_eq_true_iff.mp stored.live).1 decoded.symm

theorem Faithful.add {slot : Nat} (faithful : Faithful env ⟨drv, live⟩ head indexHead)
    (good : ¬ BadArguments env clntRule) (placed : Placed (entryInterface env) drv.cache.table head
      (natStart env drv clntRule) slot last) (indexPlaced : Placed indexEntryInterface drv.cache.indexTable indexHead
      (indexStart drv clntRule) index lastIndex) (hashToken : Nat) :
    Faithful env ⟨⟨drv.cache.stored env clntRule slot last index lastIndex, hashToken⟩,
        (makeEntryHdl drv.cache.table slot, clntRule) :: live⟩ (update head slot (natStart env drv clntRule))
      (update indexHead index (indexStart drv clntRule)) := by
  have rules := stored_payload env drv.cache clntRule slot last index lastIndex
  have fields := IpaTable.append_fields (entryInterface env) drv.cache.table slot last (natRecord env clntRule index)
  have handles (other : Nat) : makeEntryHdl (drv.cache.stored env clntRule slot last
      index lastIndex).table other = makeEntryHdl drv.cache.table other :=
    makeEntryHdl_congr fields.1 fields.2.2.1
  have new := (rules slot).trans (if_pos rfl)
  refine ⟨faithful.sound.stored good placed indexPlaced, faithful.indexed.stored faithful.sound.chained indexPlaced,
    nodup_cons.mpr ⟨faithful.fresh placed, faithful.distinct⟩, fun held mem => ?_, fun other taken => ?_⟩
  · rcases mem_cons.mp mem with here | older
    · refine ⟨slot, ?_, ?_, ?_, ?_, fun hashed => ?_, fun hashed => ?_⟩
      · exact (payload_live new).2.1.trans (natRecord_live index good)
      · rw [here]
        exact good
      · rw [here, handles]
      · rw [here]
        exact (payload_content new).trans rfl
      · rw [here] at hashed ⊢
        simp only [update_self, natStart]
        rw [if_neg (by rw [hashed]; exact false_ne_true)]
        exact congrArg (clientDstHash env clntRule) fields.1.symm
      · have indexIs : ((drv.cache.stored env clntRule slot last index
            lastIndex).table.slots slot).indxTblEntry = index := (payload_live new).2.2.2
        rw [here] at hashed ⊢
        simp only [indexIs, update_self, indexStart]
        rw [if_neg (by rw [hashed]; exact false_ne_true)]
        exact congrArg (clientSrcHash clntRule) fields.1.symm
    · obtain ⟨other, stored⟩ := faithful.stored held older
      have apart := placed.free_rule (and_eq_true_iff.mp stored.live).1
      have old := (rules other).trans (if_neg apart)
      have payload := payload_live old
      refine ⟨other, payload.2.1.trans stored.live, stored.good, stored.handle.trans (handles other).symm,
        (payload_content old).trans stored.content, fun hashed => ?_, fun hashed => ?_⟩
      · rw [update_of_ne apart, stored.start hashed]
        exact congrArg (clientDstHash env held.2) fields.1.symm
      · have indexDifferent : (drv.cache.table.slots other).indxTblEntry ≠ index := by
          intro same
          obtain ⟨-, own⟩ := faithful.indexed other stored.live
          have free := indexPlaced.free
          rw [← same] at free
          have some := (faithful.sound.live_bounds stored.live).1
          rw [← own] at some
          exact false_ne_true (free.symm.trans (indexTable_valid.mpr some))
        rw [payload.2.2.2, update_of_ne indexDifferent, stored.indexStart hashed]
        exact congrArg (clientSrcHash held.2) fields.1.symm
  · rw [handles]
    by_cases same : other = slot
    · rw [same]
      exact mem_cons_self
    · have old := payload_live ((rules other).trans (if_neg same))
      exact mem_cons_of_mem _ (faithful.complete other (old.2.1.symm.trans taken))

end Adding

section Deleting

variable {cache : IpaNatIp4TableCache} {head : Nat → Nat}

theorem deleted_fields (env : Environment) (cache : IpaNatIp4TableCache) (slot : Nat) :
    (cache.deleted env slot).table.tableEntries = cache.table.tableEntries ∧
      (cache.deleted env slot).table.nmi = cache.table.nmi := by
  have fields := natDeleted_fields env (cache.repointed (cache.table.slots slot).indxTblEntry) slot
  have repointed := @repointed_fields cache (cache.table.slots slot).indxTblEntry
  exact ⟨fields.1.trans repointed.1, fields.2.2.1.trans repointed.2.2.1⟩

theorem deleted_content (apart : other ≠ slot) (live : (cache.table.slots other).live = true) :
    ((cache.deleted env slot).table.slots other).content = (cache.table.slots other).content := by
  obtain ⟨indxTblEntry, same⟩ := repointed_slots cache (cache.table.slots slot).indxTblEntry other
  have stays := (repointed_payload cache (cache.table.slots slot).indxTblEntry other).1.trans live
  have kept : ((cache.deleted env slot).table.slots other).content =
      ((cache.repointed (cache.table.slots slot).indxTblEntry).slots other).content :=
    payload_content (natDeleted_kept apart stays)
  rw [same] at kept
  exact kept

theorem deleted_indexHead (sound : Sound env cache head indexHead)
    (indexed : Indexed cache) (live : (cache.table.slots slot).live = true)
    (apart : other ≠ slot) (otherLive : (cache.table.slots other).live = true) :
    indexHead ((cache.deleted env slot).table.slots other).indxTblEntry =
      indexHead (cache.table.slots other).indxTblEntry := by
  rw [deleted_indxTblEntry apart otherLive]
  split
  · rename_i moved
    obtain ⟨indexRank, indexChained⟩ := sound.indexChained
    obtain ⟨ne, own⟩ := indexed slot live
    have some := (sound.live_bounds live).1
    rw [← own] at some
    have valid := indexTable_valid.mpr some
    have next := indexChained.linked.next_rank valid moved.1.2
    have nextTaken := (indexChained.linked.forward _ valid moved.1.2).1
    have otherNext : (cache.table.slots other).indxTblEntry =
        (cache.indexTable.slots (cache.table.slots slot).indxTblEntry).nextIndex := by
      rw [moved.2]
      exact (sound.points _ (indexTable_valid.mp nextTaken)).2
    rw [otherNext]
    exact next.1.symm
  · rfl

theorem Stored.deletes (sound : Sound env cache head indexHead) (indexed : Indexed cache)
    (stored : Stored env cache head indexHead held slot) :
    ipaNatiDelIpv4Rule env cache held.1 true = (0, cache.deleted env slot) := by
  have run := ipaNatiDelIpv4Rule_run sound held.1 true
  obtain ⟨indexRank, indexChained⟩ := sound.indexChained
  obtain ⟨ne, own⟩ := indexed slot stored.live
  have bounds := sound.live_bounds stored.live
  have taken : (cache.indexTable.slots (cache.table.slots slot).indxTblEntry).tblEntry ≠ 0 := by
    rw [own]
    exact bounds.1
  rw [stored.decodes sound] at run
  generalize ipaNatiDelIpv4Rule env cache held.1 true = outcome at run
  cases run with
  | outOfRange beyond => exact absurd bounds.2 (not_lt.mpr beyond)
  | notEnabled disabled =>
    rw [(and_eq_true_iff.mp stored.live).1] at disabled
    cases disabled
  | noIndex _ _ missing =>
    rcases missing with zero | beyond
    · exact absurd zero ne
    · have inRange := (indexChained.linked.inRange _ (indexTable_valid.mpr taken)).2
      rw [sound.indexTot] at inRange
      exact absurd inRange (not_lt.mpr beyond)
  | indexFree _ _ free => exact absurd free taken
  | deleted => rfl

theorem Faithful.delete {live : List (Nat × IpaNatIpv4Rule)}
    (faithful : Faithful env ⟨⟨cache, hashToken⟩, live⟩ head indexHead)
    (stored : Stored env cache head indexHead held slot) : Faithful env ⟨⟨cache.deleted env slot, hashToken⟩,
      live.filter fun another => another.1 ≠ held.1⟩ head indexHead := by
  have taken : (cache.indexTable.slots (cache.table.slots slot).indxTblEntry).tblEntry ≠ 0 := by
    rw [(faithful.indexed slot stored.live).2]
    exact (faithful.sound.live_bounds stored.live).1
  have fields := deleted_fields env cache slot
  have handles (other : Nat) : makeEntryHdl (cache.deleted env slot).table other =
      makeEntryHdl cache.table other := makeEntryHdl_congr fields.1 fields.2
  refine ⟨faithful.sound.deleted (and_eq_true_iff.mp stored.live).1 taken,
    faithful.indexed.deleted faithful.sound stored.live, ?_, fun another kept => ?_, fun other taken => ?_⟩
  · exact faithful.distinct.sublist (filter_sublist.map _)
  · obtain ⟨older, different⟩ := mem_filter.mp kept
    obtain ⟨other, otherStored⟩ := faithful.stored another older
    have apart : other ≠ slot := by
      intro same
      rw [same] at otherStored
      rw [otherStored.handle, stored.handle] at different
      simp at different
    refine ⟨other, deleted_live.mpr ⟨apart, otherStored.live⟩, otherStored.good,
      otherStored.handle.trans (handles other).symm,
      (deleted_content apart otherStored.live).trans otherStored.content, fun hashed => ?_, fun hashed => ?_⟩
    · rw [otherStored.start hashed]
      exact congrArg (clientDstHash env another.2) fields.1.symm
    · have same := deleted_indexHead faithful.sound faithful.indexed stored.live apart otherStored.live
      rw [same, otherStored.indexStart hashed]
      exact congrArg (clientSrcHash another.2) fields.1.symm
  · obtain ⟨apart, before⟩ := deleted_live.mp taken
    obtain ⟨another, older, same⟩ := mem_map.mp (faithful.complete other before)
    rw [handles]
    refine mem_map.mpr ⟨another, mem_filter.mpr ⟨older, ?_⟩, same⟩
    rw [decide_eq_true_eq, same, stored.handle]
    intro equal
    have decoded := breakRuleHdl_makeEntryHdl faithful.sound.geometry (faithful.sound.live_bounds before).2
    rw [equal, breakRuleHdl_makeEntryHdl faithful.sound.geometry (faithful.sound.live_bounds stored.live).2] at decoded
    exact apart decoded.symm

end Deleting

section Histories

variable {env : Environment} {session : Session} {head indexHead : Nat → Nat}

section

variable (faithful : Faithful env session head indexHead)
include faithful

theorem Faithful.advance (hashToken : Nat) :
    Faithful env ⟨⟨session.driver.cache, hashToken⟩, session.live⟩ head indexHead :=
  { faithful with }

theorem Faithful.clear : Faithful env ⟨⟨ipaNatiClearIpv4Tbl env session.driver.cache, session.driver.hashToken⟩, []⟩
      head indexHead := by
  obtain ⟨sound, indexed⟩ := faithful.sound.cleared
  obtain ⟨rank, chained⟩ := faithful.sound.chained
  refine .blank sound indexed (fun slot => ?_) _
  exact congrFun (reset_slots chained) slot

theorem Faithful.step {after : Session} (contract : Contract session call)
    (taken : session.step env call = some after) : ∃ head indexHead, Faithful env after head indexHead := by
  obtain ⟨⟨cache, hashToken⟩, live⟩ := session
  unfold Session.step at taken
  cases call with
  | addRule clntRule dmaOk =>
    obtain ⟨result, ret, run⟩ := ipaNatiAddIpv4Rule_run faithful.sound clntRule dmaOk
    simp only [perform, ret, Option.map_some, Option.some.injEq] at taken
    rw [← taken]
    cases run with
    | badArguments => exact ⟨_, _, faithful⟩
    | natFull | indexFull => exact ⟨_, _, faithful.advance _⟩
    | notPosted => cases contract
    | stored good placed indexPlaced => exact ⟨_, _, faithful.add good placed indexPlaced _⟩
  | delRule ruleHdl dmaOk =>
    obtain ⟨posted, known⟩ := contract
    obtain ⟨held, mem, same⟩ := mem_map.mp known
    obtain ⟨slot, stored⟩ := faithful.stored held mem
    have deletes := stored.deletes faithful.sound faithful.indexed
    rw [same] at deletes
    simp only [perform, posted, deletes, Option.map_some, Option.some.injEq] at taken
    rw [← taken, ← same]
    exact ⟨_, _, faithful.delete stored⟩
  | queryTimestamp ruleHdl =>
    have unchanged : after = ⟨⟨cache, hashToken⟩, live⟩ := by
      unfold perform at taken
      dsimp only at taken
      split at taken <;> simpa [heldAfter] using taken.symm
    rw [unchanged]
    exact ⟨_, _, faithful⟩
  | clear =>
    cases taken
    exact ⟨_, _, faithful.clear⟩

end

theorem history_faithful (created : ipaNatiCreateTable numberOfEntries nmi = some cache)
    (reached : Reachable (Session.step env) Contract (.created cache) session) :
    ∃ head indexHead, Faithful env session head indexHead := by
  refine reached.invariant (fun session => ∃ head indexHead, Faithful env session head indexHead)
    ⟨_, _, .created created⟩ ?_
  intro before call after invariant contract taken
  obtain ⟨head, indexHead, faithful⟩ := invariant
  exact faithful.step contract taken

end Histories

end KernelModules.IpaNat

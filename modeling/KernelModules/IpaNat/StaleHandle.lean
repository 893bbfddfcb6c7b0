import KernelModules.IpaNat.Representation
import KernelModules.IpaNat.Refinement

namespace KernelModules.IpaNat

open Data IpaNatIp4TableCache

/-! # Deleting through a handle that is not in use

The one guard of `ipa_NATI_del_ipv4_rule` is that its records are occupied, as the head of a chain is also when its
rule is deleted.
-/

section Guards

variable {Entry User : Type}

def IpaTable.hasOrEnds (table : IpaTable Entry) (index : Nat) : Prop :=
  index = 0 ∨ index < table.totTblEnts

def Opens (iface : IpaTableEntryInterface Entry User) (table : IpaTable Entry)
    (index : Nat) : Prop :=
  (table.links iface).valid index = true ∧ table.hasOrEnds ((table.links iface).prev index) ∧
    table.hasOrEnds ((table.links iface).next index)

variable {table : IpaTable Entry}

theorem missing_iff : (index ≠ 0 ∧ ipaTableGetEntryByIndex table index = none) ↔ ¬ table.hasOrEnds index := by
  unfold ipaTableGetEntryByIndex IpaTable.hasOrEnds
  split
  · simp only [and_true]
    omega
  · simp only [reduceCtorEq, and_false, false_iff]
    omega

theorem ipaTableIteratorInit_opens {iface : IpaTableEntryInterface Entry User}
    (opens : Opens iface table idx) : ipaTableIteratorInit iface table idx =
      .ok ⟨(table.links iface).prev idx, idx, (table.links iface).next idx⟩ := by
  obtain ⟨valid, before, behind⟩ := opens
  have prevFound := mt missing_iff.mp (not_not.mpr before)
  have nextFound := mt missing_iff.mp (not_not.mpr behind)
  have filled : iface.entryIsValid (table.slots idx) ≠ false := by
    rw [ne_eq, Bool.not_eq_false]
    exact valid
  unfold ipaTableIteratorInit
  rw [if_neg filled, if_neg (by exact prevFound), if_neg (by exact nextFound)]
  rfl

theorem ipaTableIteratorInit_fails (closed : ¬ Opens iface table idx) :
    ∃ ret, ipaTableIteratorInit iface table idx = .error ret ∧ ret ≠ 0 := by
  unfold ipaTableIteratorInit
  dsimp only
  split
  · exact ⟨_, rfl, by decide⟩
  rename_i filled
  split
  · exact ⟨_, rfl, by decide⟩
  rename_i prevFound
  split
  · exact ⟨_, rfl, by decide⟩
  · rename_i nextFound
    refine absurd ⟨?_, not_not.mp (mt missing_iff.mpr prevFound), not_not.mp (mt missing_iff.mpr nextFound)⟩ closed
    exact (Bool.not_eq_false _).mp filled

theorem ipaTableIteratorNext_cases (iface : IpaTableEntryInterface Entry User)
    (table : IpaTable Entry) (iterator : IpaTableIterator) :
    (table.hasOrEnds (iface.entryGetNextIndex (table.slots iterator.nextIndex)) ∧
        ∃ following, ipaTableIteratorNext iface table iterator = .ok following) ∨
      (¬ table.hasOrEnds (iface.entryGetNextIndex (table.slots iterator.nextIndex)) ∧
        ∃ ret, ipaTableIteratorNext iface table iterator = .error ret ∧ ret ≠ 0) := by
  unfold ipaTableIteratorNext
  dsimp only
  split
  · rename_i missing
    exact .inr ⟨missing_iff.mp missing, _, rfl, by decide⟩
  · rename_i here
    exact .inl ⟨not_not.mp (mt missing_iff.mpr here), _, rfl⟩

theorem Chained.opens (chained : Chained iface table head rank)
    (taken : (table.links iface).valid index = true) : Opens iface table index := by
  refine ⟨taken, ?_, ?_⟩
  · by_cases first : (table.links iface).prev index = 0
    · exact .inl first
    · have before := (chained.prev_taken taken first).2.1
      exact .inr (chained.linked.inRange _ before).2
  · by_cases ends : (table.links iface).next index = 0
    · exact .inl ends
    · have behind := (chained.linked.forward index taken ends).1
      exact .inr (chained.linked.inRange _ behind).2

end Guards

def IpaNatIp4TableCache.repointsNothing (cache : IpaNatIp4TableCache) (index : Nat) : Prop :=
  cache.indexHeadWithTail index → (cache.table.slots (cache.indexTable.slots
      (cache.indexTable.slots index).nextIndex).tblEntry).indxTblEntry = index

def IpaNatIp4TableCache.secondOpens (cache : IpaNatIp4TableCache) (index : Nat) : Prop :=
  cache.indexHeadWithTail index → cache.indexTable.hasOrEnds
    (cache.indexTable.slots (cache.indexTable.slots index).nextIndex).nextIndex

def Refused (env : Environment) (cache : IpaNatIp4TableCache) (slot : Nat)
    (dmaOk : Bool) : Prop :=
  let index := (cache.table.slots slot).indxTblEntry
  cache.table.totTblEnts ≤ slot ∨ ¬ Opens (entryInterface env) cache.table slot ∨
    index = 0 ∨ cache.indexTable.totTblEnts ≤ index ∨ ¬ Opens indexEntryInterface cache.indexTable index ∨
    ((dmaOk = false ∨ ¬ cache.secondOpens index) ∧ cache.repointsNothing index)

section Deletions

variable {env : Environment} {cache : IpaNatIp4TableCache}

theorem repointed_iff : cache.repointed index = cache.table ↔ cache.repointsNothing index := by
  unfold repointed
  split
  · rename_i headWithTail
    constructor
    · intro same _
      have slots := congrFun (congrArg IpaTable.slots same) (cache.indexTable.slots
        (cache.indexTable.slots index).nextIndex).tblEntry
      simp only [IpaTable.put, Function.update_self] at slots
      rw [← slots]
    · intro names
      have kept (rule : IpaNatRule) (same : rule.indxTblEntry = index) :
          { rule with indxTblEntry := index } = rule := by rw [← same]
      simp [kept _ (names headWithTail), IpaTable.put]
  · rename_i alone
    exact iff_of_true rfl fun headWithTail => absurd headWithTail alone

theorem posting_refused_iff (iterator indexIterator : IpaTableIterator) (cmd : List IpaIocNatDmaOne) :
    let out := delIpv4RulePosting env cache iterator indexIterator cmd dmaOk
    (out.1 ≠ 0 ∧ out.2 = before) ↔ dmaOk = false ∧ cache = before := by
  unfold delIpv4RulePosting ipaNatiPostIpv4DmaCmd
  cases dmaOk with
  | false => simp [eio]
  | true => simp

theorem copied_to_head (iterator : IpaTableIterator) (cmd : List IpaIocNatDmaOne)
    (headWithTail : cache.indexHeadWithTail iterator.currIndex)
    (next : iterator.nextIndex = (cache.indexTable.slots iterator.currIndex).nextIndex) :
    (ipaNatiCopySecondIndexEntryToHead cache iterator cmd).1 =
      ⟨cache.repointed iterator.currIndex, cache.indexTable⟩ := by
  rw [ipaNatiCopySecondIndexEntryToHead, repointed, if_pos headWithTail, next]

theorem opened_refused_iff (natIterator : IpaTableIterator) (cmd : List IpaIocNatDmaOne) :
    let iterator : IpaTableIterator :=
      ⟨cache.indexPrev index, index, (cache.indexTable.slots index).nextIndex⟩
    let out :=
      if ipaTableIteratorIsHeadWithTail iterator then
        let (cache, cmd) := ipaNatiCopySecondIndexEntryToHead cache iterator cmd
        match ipaTableIteratorNext indexEntryInterface cache.indexTable iterator with
        | .error ret => (ret, cache)
        | .ok iterator => delIpv4RulePosting env cache natIterator iterator cmd dmaOk
      else delIpv4RulePosting env cache natIterator iterator cmd dmaOk
    (out.1 ≠ 0 ∧ out.2 = cache) ↔ (dmaOk = false ∨ ¬ cache.secondOpens index) ∧ cache.repointsNothing index := by
  intro iterator out
  by_cases headWithTail : cache.indexHeadWithTail index
  · have moves : ipaTableIteratorIsHeadWithTail iterator = true :=
      decide_eq_true ⟨headWithTail.2, headWithTail.1⟩
    have copied := copied_to_head iterator cmd headWithTail rfl
    have unchanged : (⟨cache.repointed index, cache.indexTable⟩ : IpaNatIp4TableCache) = cache ↔
        cache.repointsNothing index := by
      rw [← repointed_iff]
      exact ⟨congrArg table, fun all => by rw [all]⟩
    simp only [out, moves, if_true, copied]
    rcases ipaTableIteratorNext_cases indexEntryInterface cache.indexTable iterator with
      ⟨opens, following, stepped⟩ | ⟨closed, ret, stepped, failed⟩
    · have secondOpens : cache.secondOpens index := fun _ => opens
      simp only [stepped, secondOpens, not_true_eq_false, or_false]
      exact (posting_refused_iff natIterator following _).trans (and_congr_right' unchanged)
    · have secondCloses : ¬ cache.secondOpens index := fun opens => closed (opens headWithTail)
      simp only [stepped, secondCloses, not_false_eq_true, or_true, true_and]
      exact (and_iff_right failed).trans unchanged
  · have stays : ipaTableIteratorIsHeadWithTail iterator = false :=
      decide_eq_false fun both => headWithTail ⟨both.2, both.1⟩
    have opens : cache.secondOpens index := fun holds => absurd holds headWithTail
    have nothing : cache.repointsNothing index := fun holds => absurd holds headWithTail
    simp only [out, stays, Bool.false_eq_true, if_false, opens, nothing, not_true_eq_false, or_false, and_true]
    exact (posting_refused_iff natIterator iterator cmd).trans (and_iff_left rfl)

theorem delete_refused_iff (env : Environment) (cache : IpaNatIp4TableCache)
    (ruleHdl : Nat) (dmaOk : Bool) : let out := ipaNatiDelIpv4Rule env cache ruleHdl dmaOk
    (out.1 ≠ 0 ∧ out.2 = cache) ↔ Refused env cache (breakRuleHdl cache.table ruleHdl) dmaOk := by
  intro out
  have refused : (-einval : Int) ≠ 0 := by decide
  have unknown : (-eperm : Int) ≠ 0 := by decide
  generalize named : out = result
  simp only [out] at named
  unfold ipaNatiDelIpv4Rule ipaTableGetEntry at named
  unfold Refused
  generalize breakRuleHdl cache.table ruleHdl = slot at named ⊢
  by_cases beyond : cache.table.totTblEnts ≤ slot
  · rw [if_pos beyond] at named
    rw [← named]
    exact iff_of_true ⟨refused, rfl⟩ (.inl beyond)
  rw [if_neg beyond] at named
  by_cases opens : Opens (entryInterface env) cache.table slot
  swap
  · obtain ⟨ret, fails, failed⟩ := ipaTableIteratorInit_fails opens
    simp only [fails] at named
    rw [← named]
    exact iff_of_true ⟨failed, rfl⟩ (.inr (.inl opens))
  simp only [ipaTableIteratorInit_opens opens] at named
  generalize (cache.table.slots slot).indxTblEntry = index at named ⊢
  by_cases missing : index = 0 ∨ cache.indexTable.totTblEnts ≤ index
  · have absent : ipaTableGetEntryByIndex cache.indexTable index = none := if_pos missing
    simp only [absent] at named
    rw [← named]
    exact iff_of_true ⟨unknown, rfl⟩ (.inr (.inr (or_assoc.mp (.inl missing))))
  have here : ipaTableGetEntryByIndex cache.indexTable index = some index := if_neg missing
  simp only [here] at named
  by_cases indexOpens : Opens indexEntryInterface cache.indexTable index
  swap
  · obtain ⟨ret, fails, failed⟩ := ipaTableIteratorInit_fails indexOpens
    simp only [fails] at named
    rw [← named]
    exact iff_of_true ⟨failed, rfl⟩ (.inr (.inr (.inr (.inr (.inl indexOpens)))))
  simp only [ipaTableIteratorInit_opens indexOpens] at named
  rw [not_or] at missing
  simp only [beyond, opens, missing, indexOpens, not_true_eq_false, false_or]
  rw [← named]
  exact opened_refused_iff _ _

section

variable {head indexHead : Nat → Nat} (sound : Sound env cache head indexHead)
include sound

theorem Sound.repointsNothing_iff (taken : (cache.indexTable.slots index).tblEntry ≠ 0) :
    cache.repointsNothing index ↔ ¬ cache.indexHeadWithTail index := by
  obtain ⟨indexRank, indexChained⟩ := sound.indexChained
  have valid := indexTable_valid.mpr taken
  constructor
  · intro nothing headWithTail
    have second := (indexChained.linked.forward index valid headWithTail.2).1
    have names := (sound.points _ (indexTable_valid.mp second)).2
    exact indexChained.linked.next_ne valid headWithTail.2 (names.symm.trans (nothing headWithTail))
  · exact fun alone headWithTail => absurd headWithTail alone

theorem Sound.refused_iff : Refused env cache slot dmaOk ↔ (cache.table.slots slot).enable = false ∨
        (cache.indexTable.slots (cache.table.slots slot).indxTblEntry).tblEntry = 0 ∨
        (dmaOk = false ∧ ¬ cache.indexHeadWithTail (cache.table.slots slot).indxTblEntry) := by
  obtain ⟨rank, chained⟩ := sound.chained
  obtain ⟨indexRank, indexChained⟩ := sound.indexChained
  unfold Refused
  dsimp only
  generalize (cache.table.slots slot).indxTblEntry = index
  cases enabled : (cache.table.slots slot).enable with
  | false =>
    have closed : ¬ Opens (entryInterface env) cache.table slot := fun opens =>
      Bool.false_ne_true (enabled.symm.trans opens.1)
    exact iff_of_true (.inr (.inl closed)) (.inl rfl)
  | true =>
  have opens : Opens (entryInterface env) cache.table slot := chained.opens enabled
  have bounded := (chained.linked.inRange slot enabled).2
  by_cases free : (cache.indexTable.slots index).tblEntry = 0
  · have closed : ¬ Opens indexEntryInterface cache.indexTable index := fun opens =>
      indexTable_valid.mp opens.1 free
    exact iff_of_true (.inr (.inr (.inr (.inr (.inl closed))))) (.inr (.inl free))
  have taken := indexTable_valid.mpr free
  have indexBounds := indexChained.linked.inRange index taken
  have secondOpens : cache.secondOpens index := fun headWithTail =>
    (indexChained.opens (indexChained.linked.forward index taken headWithTail.2).1).2.2
  have repoints := sound.repointsNothing_iff free
  rw [repoints]
  simp [not_le.mpr bounded, opens, indexBounds.1, not_le.mpr indexBounds.2, indexChained.opens taken, secondOpens, free]

end

end Deletions

def Guarded (env : Environment) (session : Session) (call : Call) : Prop :=
  Contract session call ∨ ∃ ruleHdl dmaOk, call = .delRule ruleHdl dmaOk ∧ Refused env session.driver.cache
      (breakRuleHdl session.driver.cache.table ruleHdl) dmaOk

theorem Faithful.guarded (faithful : Faithful env session head indexHead)
    (guarded : Guarded env session call) (taken : session.step env call = some after) :
    ∃ head indexHead, Faithful env after head indexHead := by
  rcases guarded with contract | ⟨ruleHdl, dmaOk, deletes, refused⟩
  · exact faithful.step contract taken
  · obtain ⟨failed, unchanged⟩ := (delete_refused_iff env _ ruleHdl dmaOk).mpr refused
    simp only [deletes, Session.step, perform, unchanged, heldAfter, failed, ne_eq,
      not_false_eq_true, if_true, Option.map_some, Option.some.injEq] at taken
    rw [← taken]
    exact ⟨_, _, faithful⟩

/-- A handle not in use is refused without a trace exactly under `Refused`, after any history.  Where the history
keeps to that, so do the handles in use, and what counts is whether the two records are occupied. -/
theorem stale_delete_refused_iff (env : Environment) (numberOfEntries : Nat)
    (nmi : Ipa3NatMemIn) (cache : IpaNatIp4TableCache)
    (created : ipaNatiCreateTable numberOfEntries nmi = some cache) (session : Session) :
    (Reachable (Session.step env) (fun _ _ => True) (.created cache) session →
      ∀ ruleHdl dmaOk, ¬ session.holds ruleHdl →
        let outcome := ipaNatiDelIpv4Rule env session.driver.cache ruleHdl dmaOk
        (outcome.1 ≠ 0 ∧ outcome.2 = session.driver.cache) ↔ Refused env session.driver.cache
            (breakRuleHdl session.driver.cache.table ruleHdl) dmaOk) ∧
    (Reachable (Session.step env) (Guarded env) (.created cache) session → let tables := session.driver.cache
      (∀ held ∈ session.live, let slot := breakRuleHdl tables.table held.1
        Keeps held.2 (tables.table.slots slot) ∧
          (tables.indexTable.slots (tables.table.slots slot).indxTblEntry).tblEntry = slot) ∧
      ∀ ruleHdl dmaOk, ¬ session.holds ruleHdl → let rule := tables.table.slots (breakRuleHdl tables.table ruleHdl)
        let outcome := ipaNatiDelIpv4Rule env tables ruleHdl dmaOk
        (outcome.1 ≠ 0 ∧ outcome.2 = tables) ↔
          rule.enable = false ∨ (tables.indexTable.slots rule.indxTblEntry).tblEntry = 0 ∨
            (dmaOk = false ∧ ¬ tables.indexHeadWithTail rule.indxTblEntry)) := by
  refine ⟨fun _ ruleHdl dmaOk _ => delete_refused_iff env _ ruleHdl dmaOk, fun reached => ?_⟩
  obtain ⟨head, indexHead, faithful⟩ := reached.invariant
    (fun session => ∃ head indexHead, Faithful env session head indexHead)
    ⟨_, _, .created created⟩ fun before call after invariant guarded taken => by
      obtain ⟨head, indexHead, faithful⟩ := invariant
      exact faithful.guarded guarded taken
  refine ⟨fun held member => ?_, fun ruleHdl dmaOk _ => ?_⟩
  · obtain ⟨slot, stored⟩ := faithful.stored held member
    rw [stored.decodes faithful.sound]
    exact ⟨.of_content stored.live stored.good stored.content, (faithful.indexed slot stored.live).2⟩
  · exact (delete_refused_iff env _ ruleHdl dmaOk).trans faithful.sound.refused_iff

/-- Two rules collide, and the handle of the first is deleted twice, which takes away the index record of the other. -/
theorem deleted_twice : ∃ session, runActions (Session.step plainEnvironment) (fun _ _ => True)
        (.created smallestCache) [.addRule (plainRule 1) true, .addRule (plainRule 2) true, .delRule 2 true] =
          some session ∧
      ¬ session.holds 2 ∧ session.holds 1 ∧
      let outcome := ipaNatiDelIpv4Rule plainEnvironment session.driver.cache 2 true
      outcome.1 = 0 ∧ (session.driver.cache.indexTable.slots 1).tblEntry = 2 ∧
        (outcome.2.indexTable.slots 1).tblEntry = 0 :=
  ran_to _ (by decide) fun _ _ twice => twice

/-- Two rules collide, and the one in the expansion table is deleted: its handle is refused, and the other keeps its
rule. -/
theorem stale_delete_refused_collision : ∃ session, runActions (Session.step plainEnvironment) Contract
        (.created smallestCache) [.addRule (plainRule 1) true, .addRule (plainRule 2) true, .delRule 1 true] =
          some session ∧
      session.live = [(2, plainRule 1)] ∧
      Keeps (plainRule 1) (session.driver.cache.table.slots (breakRuleHdl session.driver.cache.table 2)) ∧
      let outcome := ipaNatiDelIpv4Rule plainEnvironment session.driver.cache 1 true
      outcome.1 ≠ 0 ∧ outcome.2 = session.driver.cache := by
  refine ran_to (fun session => session.live = [(2, plainRule 1)] ∧ ¬ session.holds 1 ∧
    (session.driver.cache.table.slots (breakRuleHdl session.driver.cache.table 1)).enable = false)
    (by decide) fun session ran ⟨live, stale, free⟩ => ?_
  have kept := (stale_delete_refused_iff plainEnvironment 1 .ddr smallestCache smallestCache_created
    session).2 ((Reachable.run .start ran).weaken fun _ _ => .inl)
  have held : (2, plainRule 1) ∈ session.live := by rw [live]; exact List.mem_cons_self
  exact ⟨live, (kept.1 _ held).1, (kept.2 1 true stale).mpr (.inl free)⟩

end KernelModules.IpaNat

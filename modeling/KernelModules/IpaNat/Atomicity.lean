import KernelModules.IpaNat.Agreement

namespace KernelModules.IpaNat

open Nat Data Session Option

/-! # What a failed call leaves behind

A refused deletion may leave a rule pointing to an index record it did not move to, and a failed add a hash token.
-/

structure Untouched (before after : IpaNatIp4TableCache) : Prop where
  table : after.table = before.table
  indexTable : after.indexTable = { before.indexTable with metaPrevIndex := after.indexTable.metaPrevIndex }
  previous : ∀ index, before.indexTable.tableEntries ≤ index → (before.indexTable.slots index).tblEntry ≠ 0 →
      after.indexTable.metaPrevIndex (index - before.indexTable.tableEntries) =
        before.indexTable.metaPrevIndex (index - before.indexTable.tableEntries)

def MovesNothing (driver : IpaNatDriver) : Call → Prop
  | .delRule ruleHdl dmaOk => dmaOk = true ∨ ¬ driver.cache.indexHeadWithTail
      (driver.cache.table.slots (breakRuleHdl driver.cache.table ruleHdl)).indxTblEntry
  | _ => True

instance (driver : IpaNatDriver) : (call : Call) → Decidable (MovesNothing driver call)
  | .addRule _ _ => inferInstanceAs (Decidable True)
  | .delRule _ _ => inferInstanceAs (Decidable (_ ∨ ¬ _))
  | .queryTimestamp _ => inferInstanceAs (Decidable True)
  | .clear => inferInstanceAs (Decidable True)

def TakesNoToken (env : Environment) (driver : IpaNatDriver) : Call → Prop
  | .addRule clntRule _ =>
    BadArguments env clntRule ∨ (clntRule.srcOnly = false ∧ (clntRule.dstOnly = false ∨
        Full (entryInterface env) driver.cache.table
          (natStart env driver clntRule))) ∨
      driver.cache.table.tableEntries = 2
  | _ => True

theorem Sound.unmoved (alone : ¬ cache.indexHeadWithTail idx) :
    (⟨cache.repointed idx, cache.indexTable⟩ : IpaNatIp4TableCache) = cache := by
  have nothing : cache.repointed idx = cache.table := if_neg alone
  rw [nothing]

theorem Sound.step {session : Session} (sound : Sound env session.driver.cache head indexHead)
    (permitted : MovesNothing session.driver call) (taken : session.step env call = some after) :
    ∃ head indexHead, Sound env after.driver.cache head indexHead := by
  unfold Session.step at taken
  cases call with
  | addRule clntRule dmaOk =>
    obtain ⟨result, ret, run⟩ := ipaNatiAddIpv4Rule_run sound clntRule dmaOk
    simp only [perform, ret, map_some, some.injEq] at taken
    rw [← taken]
    cases run with
    | badArguments => exact ⟨_, _, sound⟩
    | natFull => exact ⟨_, _, sound⟩
    | indexFull => exact ⟨_, _, sound⟩
    | notPosted _ _ indexPlaced => exact ⟨_, _, sound.takenBack indexPlaced⟩
    | stored good placed indexPlaced => exact ⟨_, _, sound.stored good placed indexPlaced⟩
  | delRule ruleHdl dmaOk =>
    have run := ipaNatiDelIpv4Rule_run sound ruleHdl dmaOk
    simp only [perform, map_some, some.injEq] at taken
    rw [← taken]
    generalize ipaNatiDelIpv4Rule env session.driver.cache ruleHdl dmaOk = outcome at run
    cases run with
    | outOfRange => exact ⟨_, _, sound⟩
    | notEnabled => exact ⟨_, _, sound⟩
    | noIndex => exact ⟨_, _, sound⟩
    | indexFree => exact ⟨_, _, sound⟩
    | notPosted =>
      have alone := permitted.resolve_left Bool.false_ne_true
      rw [Sound.unmoved alone]
      exact ⟨_, _, sound⟩
    | deleted enabled occupied => exact ⟨_, _, sound.deleted enabled occupied⟩
  | queryTimestamp ruleHdl =>
    have unchanged : after.driver = session.driver := by
      simp only [perform] at taken
      split at taken <;> (cases taken; rfl)
    rw [unchanged]
    exact ⟨_, _, sound⟩
  | clear =>
    cases taken
    exact ⟨_, _, sound.cleared.1⟩

theorem Untouched.rfl : Untouched cache cache := ⟨Eq.refl _, Eq.refl _, fun _ _ _ => Eq.refl _⟩

theorem Sound.agrees {driver : IpaNatDriver} (sound : Sound env driver.cache head indexHead)
    (untouched : Untouched driver.cache after.cache)
    (tokens : after.hashToken = driver.hashToken ∨ driver.cache.table.tableEntries = 2) : Agrees driver after :=
  ⟨untouched.table, sound.geometry.two_le, sound.sameBase, sound.withMeta,
    ⟨_, untouched.indexTable, untouched.previous⟩, tokens⟩

theorem takenBack_untouched {indexStart : Nat}
    (indexPlaced : Placed indexEntryInterface cache.indexTable indexHead indexStart index lastIndex) :
    Untouched cache (cache.takenBack slot index lastIndex) := by
  refine ⟨Eq.refl _, Eq.refl _, fun other high taken => ?_⟩
  have apart : other ≠ index := by
    intro same
    have free := indexPlaced.free
    rw [← same, indexTable_valid.mpr taken] at free
    cases free
  have kept : indexEntryInterface.entryGetPrevIndex ⟨0, 0⟩ other
      (insertion indexEntryInterface cache.indexTable index lastIndex slot []).table.metaPrevIndex
        cache.indexTable.tableEntries = _ :=
    insertion_prev_other indexEntryInterface_lawful apart slot []
  simp only [indexEntryInterface, indexTableEntryGetPrevIndex, if_pos high] at kept
  exact kept

theorem Sound.headWithTail_taken (sound : Sound env cache head indexHead)
    (headWithTail : cache.indexHeadWithTail idx) : (cache.indexTable.slots idx).tblEntry ≠ 0 := by
  obtain ⟨indexRank, indexChained⟩ := sound.indexChained
  intro free
  have blank : (cache.indexTable.slots idx) = ⟨0, 0⟩ := by
    refine indexChained.blank idx ?_
    cases taken : (cache.indexTable.links indexEntryInterface).valid idx with
    | false => rfl
    | true => exact absurd free (indexTable_valid.mp taken)
  exact headWithTail.2 (by rw [blank])

theorem placed_not_full (placed : Placed iface table head start slot last) (full : Full iface table start) : False := by
  have free := placed.free
  by_cases new : last = 0
  · rw [(placed.alone new).1, full.1] at free
    cases free
  · rw [full.2 slot (placed.after new).1 placed.bounded] at free
    cases free

theorem tokenIndex_mod {hash : Nat} (power : tableEntries = 2 ^ exponent) (bound : exponent ≤ 16) :
    tokenIndex hash token tableEntries = if (hash + token) % tableEntries = 0 then tableEntries - 1
      else (hash + token) % tableEntries := by
  have masked : (hash + token) % 2 ^ 16 &&& (tableEntries - 1) = (hash + token) % tableEntries := by
    rw [power, and_two_pow_sub_one_eq_mod, mod_mod_of_dvd _ (pow_dvd_pow 2 bound)]
  rw [tokenIndex, masked]

theorem token_matters {tableEntries : Nat} (hashToken : Nat)
    (power : ∃ exponent, tableEntries = 2 ^ (exponent + 1)) (more : tableEntries ≠ 2)
    (bound : tableEntries ≤ 4096) (some : taken = 1 ∨ taken = 2) : ∃ hash, hash ≠ 0 ∧ hash < tableEntries ∧
      tokenIndex hash (hashToken + taken) tableEntries ≠ tokenIndex hash hashToken tableEntries := by
  obtain ⟨exponent, power⟩ := power
  have four : 4 ≤ tableEntries := by
    cases exponent with
    | zero => exact absurd power more
    | succ larger =>
      have pos := Nat.two_pow_pos larger
      omega
  have small : exponent + 1 ≤ 16 := by
    by_contra large
    have huge := Nat.pow_le_pow_right (n := 2) (by omega) (Nat.le_of_not_le large)
    omega
  have rest := mod_lt hashToken (lt_of_lt_of_le (by omega) four)
  have sum (hash : Nat) : (hash + hashToken) % tableEntries = (hash + hashToken % tableEntries) % tableEntries := by
    rw [add_mod, add_mod hash (hashToken % tableEntries), mod_mod]
  have later (hash : Nat) : (hash + (hashToken + taken)) % tableEntries =
      (hash + taken + hashToken % tableEntries) % tableEntries := by
    rw [← sum, add_assoc, add_comm taken hashToken]
  simp only [tokenIndex_mod power small, later, sum]
  generalize hashToken % tableEntries = start at rest ⊢
  have wrap (num : Nat) : (tableEntries + num) % tableEntries = num % tableEntries :=
    add_mod_left tableEntries num
  by_cases low : start ≤ 1
  · refine ⟨1, by omega, by omega, ?_⟩
    rw [mod_eq_of_lt (a := 1 + start) (by omega)]
    by_cases wraps : 1 + taken + start = tableEntries
    · rw [wraps, mod_self]
      split <;> split <;> omega
    · rw [mod_eq_of_lt (by omega)]
      split <;> split <;> omega
  · refine ⟨tableEntries + 1 - start, by omega, by omega, ?_⟩
    have first : tableEntries + 1 - start + start = tableEntries + 1 := by omega
    have second : tableEntries + 1 - start + taken + start = tableEntries + (1 + taken) := by omega
    rw [first, second, wrap, wrap, mod_eq_of_lt (a := 1) (by omega), mod_eq_of_lt (by omega)]
    split <;> split <;> omega

theorem clientDstHash_any (env : Environment) (clntRule : IpaNatIpv4Rule) {hash : Nat}
    (power : ∃ exponent, tableEntries = 2 ^ (exponent + 1)) (bound : tableEntries ≤ 4096)
    (ne : hash ≠ 0) (small : hash < tableEntries) :
    ∃ targetPort, clientDstHash env { clntRule with targetPort := targetPort } tableEntries = hash := by
  have others : ∃ rest : BitVec 16, ∀ targetPort : BitVec 16,
      clientDstHash env { clntRule with targetPort := targetPort } tableEntries =
        maskHash (rest ^^^ targetPort) (tableEntries - 1) := by
    unfold clientDstHash dstHash
    cases env.hashesPublicIp with
    | true =>
      refine ⟨clntRule.targetIp.setWidth 16 ^^^ (clntRule.targetIp >>> 16).setWidth 16 ^^^
        clntRule.publicPort ^^^ clntRule.protocol.setWidth 16 ^^^
        ((env.pdns clntRule.pdnIndex.toNat).setWidth 16 ^^^
          (env.pdns clntRule.pdnIndex.toNat >>> 16).setWidth 16), fun targetPort => ?_⟩
      simp only [if_true]
      ac_rfl
    | false =>
      refine ⟨clntRule.targetIp.setWidth 16 ^^^ (clntRule.targetIp >>> 16).setWidth 16 ^^^
        clntRule.publicPort ^^^ clntRule.protocol.setWidth 16, fun targetPort => ?_⟩
      simp only [Bool.false_eq_true, if_false]
      ac_rfl
  obtain ⟨rest, others⟩ := others
  obtain ⟨exponent, power⟩ := power
  have masked : (BitVec.ofNat 16 hash).toNat &&& (tableEntries - 1) = hash := by
    have word : hash % 2 ^ 16 = hash := mod_eq_of_lt (by omega)
    rw [BitVec.toNat_ofNat, word, power, and_two_pow_sub_one_eq_mod, ← power, mod_eq_of_lt small]
  refine ⟨rest ^^^ BitVec.ofNat 16 hash, ?_⟩
  rw [others, ← BitVec.xor_assoc, BitVec.xor_self, BitVec.zero_xor, maskHash, masked, if_neg ne]

section Witnesses

variable {driver : IpaNatDriver}

theorem Sound.answers_cleared (sound : Sound env driver.cache head indexHead)
    (good : ¬ BadArguments env clntRule) (srcOnly : clntRule.srcOnly = true) :
    answers env driver [.clear, .addRule clntRule true] = [some ⟨0, 0⟩, some ⟨0, makeEntryHdl driver.cache.table
        (tokenIndex (clientDstHash env clntRule driver.cache.table.tableEntries)
          driver.hashToken driver.cache.table.tableEntries)⟩] := by
  obtain ⟨rank, chained⟩ := sound.chained
  obtain ⟨indexRank, indexChained⟩ := sound.indexChained
  have blank := reset_slots chained
  have indexBlank := reset_slots indexChained
  generalize cleared : ipaNatiClearIpv4Tbl env driver.cache = cache
  have empty : cache.table.slots = fun _ => .empty := by rw [← cleared]; exact blank
  have indexEmpty : cache.indexTable.slots = fun _ => ⟨0, 0⟩ := by rw [← cleared]; exact indexBlank
  have soundCleared := sound.cleared.1
  rw [cleared] at soundCleared
  have natFree (slot : Nat) : (cache.table.links (entryInterface env)).valid slot = false := by
    simp only [IpaTable.links, empty]
    rfl
  have indexFree (slot : Nat) : (cache.indexTable.links indexEntryInterface).valid slot = false := by
    simp only [IpaTable.links, indexEmpty]
    rfl
  have sameTable : cache.table.tableEntries = driver.cache.table.tableEntries ∧
      cache.table.nmi = driver.cache.table.nmi := by
    rw [← cleared]
    exact ⟨rfl, rfl⟩
  have sound : Sound env (IpaNatDriver.cache ⟨cache, driver.hashToken⟩) head indexHead :=
    soundCleared
  obtain ⟨result, ret, run⟩ := ipaNatiAddIpv4Rule_run sound clntRule true
  simp only [answers, perform, cleared, ret, map_some]
  cases run with
  | badArguments bad => exact absurd bad good
  | natFull _ full => exact absurd (full.1.symm.trans (natFree _)) Bool.true_eq_false.mp
  | indexFull _ _ full => exact absurd (full.1.symm.trans (indexFree _)) Bool.true_eq_false.mp
  | stored _ placed _ =>
    rename_i slot last _ _ _ _
    have new : last = 0 := Classical.byContradiction fun older =>
      Bool.true_eq_false.mp ((placed.after older).2.1.symm.trans (natFree last))
    have start : slot = tokenIndex (clientDstHash env clntRule
        driver.cache.table.tableEntries) driver.hashToken driver.cache.table.tableEntries := by
      rw [(placed.alone new).1, natStart, if_pos srcOnly, ← sameTable.1]
    rw [start, makeEntryHdl_congr sameTable.1 sameTable.2]

theorem Sound.token_seen (sound : Sound env driver.cache head indexHead)
    (otherSound : Sound env other.cache otherHead otherIndexHead)
    (base : other.cache.table.tableEntries = driver.cache.table.tableEntries)
    (nmi : other.cache.table.nmi = driver.cache.table.nmi)
    (more : driver.cache.table.tableEntries ≠ 2) (good : ¬ BadArguments env clntRule)
    (taken : other.hashToken = driver.hashToken + 1 ∨ other.hashToken = driver.hashToken + 2) :
    ∃ calls, answers env other calls ≠ answers env driver calls := by
  have geometry := sound.geometry
  obtain ⟨taken, some, token⟩ : ∃ taken, (taken = 1 ∨ taken = 2) ∧ other.hashToken = driver.hashToken + taken := by
    rcases taken with one | two
    · exact ⟨1, .inl rfl, one⟩
    · exact ⟨2, .inr rfl, two⟩
  obtain ⟨hash, ne, small, apart⟩ :=
    token_matters driver.hashToken geometry.power more geometry.base some
  let picky : IpaNatIpv4Rule := { clntRule with srcOnly := true }
  obtain ⟨targetPort, hashed⟩ := clientDstHash_any env picky geometry.power geometry.base ne small
  have pickyGood : ¬ BadArguments env { picky with targetPort := targetPort } := good
  refine ⟨[.clear, .addRule { picky with targetPort := targetPort } true], ?_⟩
  rw [sound.answers_cleared pickyGood rfl, otherSound.answers_cleared pickyGood rfl,
    makeEntryHdl_congr base nmi, base, hashed, token]
  intro same
  have bounded (token : Nat) : tokenIndex hash token driver.cache.table.tableEntries < driver.cache.table.totTblEnts :=
    lt_of_lt_of_le (tokenIndex_bounds geometry.two_le).2 (le_add_right _ _)
  have handles : makeEntryHdl driver.cache.table (tokenIndex hash (driver.hashToken + taken)
      driver.cache.table.tableEntries) = makeEntryHdl driver.cache.table
        (tokenIndex hash driver.hashToken driver.cache.table.tableEntries) := by
    simpa using same
  have decoded := breakRuleHdl_makeEntryHdl geometry (bounded (driver.hashToken + taken))
  rw [handles, breakRuleHdl_makeEntryHdl geometry (bounded driver.hashToken)] at decoded
  exact apart decoded.symm

end Witnesses

section Failures

variable {env : Environment} {driver after : IpaNatDriver} {head indexHead : Nat → Nat}

def Traceless (env : Environment) (driver after : IpaNatDriver) : Prop :=
  Untouched driver.cache after.cache ∧ ∀ calls, answers env after calls = answers env driver calls

section

variable (sound : Sound env driver.cache head indexHead)
include sound

theorem Sound.traceless (untouched : Untouched driver.cache after.cache)
    (tokens : after.hashToken = driver.hashToken ∨ driver.cache.table.tableEntries = 2) : Traceless env driver after :=
  ⟨untouched, (sound.agrees untouched tokens).answers⟩

theorem Sound.failed_add_iff (after : IpaNatDriver) (untouched : Untouched driver.cache after.cache)
    (stillSound : Sound env after.cache head indexHead) (good : ¬ BadArguments env clntRule)
    (tokens : after.hashToken = driver.hashToken ∨ after.hashToken = driver.hashToken + 1 ∨
      after.hashToken = driver.hashToken + 2) : Traceless env driver after ↔
      after.hashToken = driver.hashToken ∨ driver.cache.table.tableEntries = 2 := by
  refine ⟨fun traceless => ?_, sound.traceless untouched⟩
  by_contra seen
  obtain ⟨other, more⟩ := not_or.mp seen
  obtain ⟨calls, differ⟩ := sound.token_seen stillSound (by rw [untouched.table])
    (by rw [untouched.table]) more good (tokens.resolve_left other)
  exact differ (traceless.2 calls)

theorem Sound.failed_add (dmaOk : Bool) (returned : perform env driver (.addRule clntRule dmaOk) = some (answer, after))
    (failed : answer.ret ≠ 0) : Traceless env driver after ↔ TakesNoToken env driver (.addRule clntRule dmaOk) := by
  obtain ⟨result, added, run⟩ := ipaNatiAddIpv4Rule_run sound clntRule dmaOk
  simp only [perform, added, map_some, some.injEq, Prod.mk.injEq] at returned
  obtain ⟨answered, rfl⟩ := returned
  have natToken : tokenAfterNat driver clntRule = driver.hashToken + if clntRule.srcOnly = true then 1 else 0 := by
    unfold tokenAfterNat
    split <;> rfl
  have indexToken : tokenAfterIndex driver clntRule =
      tokenAfterNat driver clntRule + if clntRule.dstOnly = true then 1 else 0 := by
    unfold tokenAfterIndex
    split <;> rfl
  unfold TakesNoToken
  cases run with
  | badArguments bad =>
    exact iff_of_true (sound.traceless .rfl (.inl rfl)) (.inl bad)
  | natFull good full =>
    refine (sound.failed_add_iff ⟨driver.cache, tokenAfterNat driver clntRule⟩ .rfl sound good ?_).trans ?_
    · rw [natToken]
      cases clntRule.srcOnly <;> simp
    · rw [natToken]
      cases srcOnly : clntRule.srcOnly <;> simp [srcOnly, good, full]
  | indexFull good placed full =>
    have notFull : ¬ Full (entryInterface env) driver.cache.table
        (natStart env driver clntRule) := placed_not_full placed
    refine (sound.failed_add_iff ⟨driver.cache, tokenAfterIndex driver clntRule⟩ .rfl sound good ?_).trans ?_
    · rw [indexToken, natToken]
      cases clntRule.srcOnly <;> cases clntRule.dstOnly <;> simp
    · rw [indexToken, natToken]
      cases srcOnly : clntRule.srcOnly <;> cases dstOnly : clntRule.dstOnly <;>
        simp [srcOnly, dstOnly, good, notFull, add_assoc]
  | notPosted good placed indexPlaced =>
    have notFull : ¬ Full (entryInterface env) driver.cache.table
        (natStart env driver clntRule) := placed_not_full placed
    refine (sound.failed_add_iff ⟨_, tokenAfterIndex driver clntRule⟩
      (takenBack_untouched indexPlaced) (sound.takenBack indexPlaced) good ?_).trans ?_
    · rw [indexToken, natToken]
      cases clntRule.srcOnly <;> cases clntRule.dstOnly <;> simp
    · rw [indexToken, natToken]
      cases srcOnly : clntRule.srcOnly <;> cases dstOnly : clntRule.dstOnly <;>
        simp [srcOnly, dstOnly, good, notFull, add_assoc]
  | stored =>
    rw [← answered] at failed
    exact absurd rfl failed

theorem Sound.failed_delete (ruleHdl : Nat) (dmaOk : Bool)
    (failed : (ipaNatiDelIpv4Rule env driver.cache ruleHdl dmaOk).1 ≠ 0) : Traceless env driver
        ⟨(ipaNatiDelIpv4Rule env driver.cache ruleHdl dmaOk).2, driver.hashToken⟩ ↔
      MovesNothing driver (.delRule ruleHdl dmaOk) := by
  have run := ipaNatiDelIpv4Rule_run sound ruleHdl dmaOk
  obtain ⟨rank, chained⟩ := sound.chained
  obtain ⟨indexRank, indexChained⟩ := sound.indexChained
  unfold MovesNothing
  dsimp only
  generalize breakRuleHdl driver.cache.table ruleHdl = slot at run ⊢
  -- an idx of no rule heads no tail
  have indexFree (free : (driver.cache.indexTable.slots (driver.cache.table.slots slot).indxTblEntry).tblEntry = 0) :
      ¬ driver.cache.indexHeadWithTail (driver.cache.table.slots slot).indxTblEntry :=
    fun headWithTail => sound.headWithTail_taken headWithTail free
  have disabled (free : (driver.cache.table.slots slot).enable = false) :
      ¬ driver.cache.indexHeadWithTail (driver.cache.table.slots slot).indxTblEntry := by
    have blank : driver.cache.table.slots slot = .empty := chained.blank slot free
    refine indexFree (Classical.byContradiction fun taken => ?_)
    rw [blank] at taken
    exact (indexChained.linked.inRange 0 (indexTable_valid.mpr taken)).1 rfl
  have same : Traceless env driver driver := sound.traceless .rfl (.inl rfl)
  generalize ipaNatiDelIpv4Rule env driver.cache ruleHdl dmaOk = outcome at run failed ⊢
  cases run with
  | outOfRange beyond =>
    refine iff_of_true same (.inr (disabled ?_))
    cases enabled : (driver.cache.table.slots slot).enable with
    | false => rfl
    | true => exact absurd (chained.linked.inRange slot enabled).2 (not_lt.mpr beyond)
  | notEnabled free => exact iff_of_true same (.inr (disabled free))
  | noIndex _ _ missing =>
    refine iff_of_true same (.inr fun headWithTail => ?_)
    have taken := indexTable_valid.mpr (sound.headWithTail_taken headWithTail)
    have bounds := indexChained.linked.inRange _ taken
    rw [sound.indexTot] at bounds
    rcases missing with zero | beyond
    · exact bounds.1 zero
    · exact absurd bounds.2 (not_lt.mpr beyond)
  | indexFree _ _ free => exact iff_of_true same (.inr (indexFree free))
  | notPosted _ taken =>
    rw [← sound.repointsNothing_iff taken, ← repointed_iff]
    constructor
    · intro traceless
      exact .inr traceless.1.table
    · intro unmoved
      have kept := unmoved.resolve_left Bool.false_ne_true
      rw [kept]
      exact same
  | deleted => exact absurd rfl failed

end

end Failures

def Harmless (env : Environment) (driver : IpaNatDriver) (call : Call) : Prop :=
  TakesNoToken env driver call ∧ MovesNothing driver call

/-- After any history without a refused deletion that moved an index record, a failed call leaves the tables and
every later answer as they were exactly when it is harmless. -/
theorem failed_call_traceless_iff (env : Environment) (numberOfEntries : Nat)
    (nmi : Ipa3NatMemIn) (cache : IpaNatIp4TableCache)
    (created : ipaNatiCreateTable numberOfEntries nmi = some cache) (session : Session)
    (reached : Reachable (step env) (fun session => MovesNothing session.driver) (.created cache) session)
    (call : Call) (answer : Answer) (after : IpaNatDriver)
    (returned : perform env session.driver call = some (answer, after)) (failed : answer.ret ≠ 0) :
    (Untouched session.driver.cache after.cache ∧
        ∀ calls, answers env after calls = answers env session.driver calls) ↔
      Harmless env session.driver call := by
  obtain ⟨head, indexHead, sound⟩ := reached.invariant
    (fun session => ∃ head indexHead, Sound env session.driver.cache head indexHead)
    ⟨id, id, (Sound.created created).1⟩ fun before call after invariant permitted taken => by
      obtain ⟨head, indexHead, sound⟩ := invariant
      exact sound.step permitted taken
  cases call with
  | addRule clntRule dmaOk =>
    exact (sound.failed_add dmaOk returned failed).trans (and_iff_left trivial).symm
  | delRule ruleHdl dmaOk =>
    obtain ⟨rfl, rfl⟩ := returned
    exact (sound.failed_delete ruleHdl dmaOk failed).trans (and_iff_right trivial).symm
  | queryTimestamp ruleHdl =>
    have same : after = session.driver := by
      simp only [perform] at returned
      split at returned <;> (cases returned; rfl)
    rw [same]
    exact iff_of_true (sound.traceless .rfl (.inl rfl)) ⟨trivial, trivial⟩
  | clear =>
    simp only [perform, Option.some.injEq, Prod.mk.injEq] at returned
    rw [← returned.1] at failed
    exact absurd rfl failed

/-- A refused deletion moves the rule that shares an index chain. -/
theorem refused_delete_moves : ∃ session, runActions (step plainEnvironment) (fun _ _ => True)
        (.created smallestCache) [.addRule (plainRule 1) true, .addRule (plainRule 2) true] = some session ∧
      let outcome := ipaNatiDelIpv4Rule plainEnvironment session.driver.cache 2 false
      outcome.1 ≠ 0 ∧ (session.driver.cache.table.slots 2).indxTblEntry = 2 ∧
        (outcome.2.table.slots 2).indxTblEntry = 1 :=
  ran_to _ (by decide) fun _ _ moved => moved

theorem failed_call_traceless_second : ∃ session, runActions (step plainEnvironment)
        (fun session => MovesNothing session.driver) (.created smallestCache) [.addRule (plainRule 1) true, .addRule (plainRule 2) true] =
          some session ∧
      ∃ answer after, perform plainEnvironment session.driver (.delRule 1 false) =
          some (answer, after) ∧ answer.ret ≠ 0 ∧
        ∀ calls, answers plainEnvironment after calls = answers plainEnvironment session.driver calls := by
  refine ran_to (fun session => (ipaNatiDelIpv4Rule plainEnvironment session.driver.cache 1 false).1 ≠ 0 ∧
    ¬ session.driver.cache.indexHeadWithTail (session.driver.cache.table.slots
      (breakRuleHdl session.driver.cache.table 1)).indxTblEntry) (by decide) fun session ran ⟨failed, alone⟩ => ?_
  have harmless : Harmless plainEnvironment session.driver (.delRule 1 false) :=
    ⟨trivial, .inr alone⟩
  have traceless := (failed_call_traceless_iff plainEnvironment 1 .ddr smallestCache
    smallestCache_created session (.run .start ran) (.delRule 1 false)
    ⟨(ipaNatiDelIpv4Rule plainEnvironment session.driver.cache 1 false).1, 0⟩ _ rfl failed).mpr
      harmless
  exact ⟨_, _, rfl, failed, traceless.2⟩

end KernelModules.IpaNat

import KernelModules.IpaRouting.Keeping

namespace KernelModules.IpaRouting

open Data Function List

/-! # Adding rules

A rule that is added keeps the books, and so does one that is given up before its table has counted it.
-/

namespace RtState

variable {cfg : RtConfig} {env : RtEnv} {s after : RtState} {ip : IpaIpType} {name : List Char}
  {tbl entry place idx id ruleId : Nat} {rules : List Nat} {new : RtEntry} {rule : RtRule}
  {hdr procCtx : Option Nat} {user : Bool}

def UsedAt (s : RtState) (tbl : Nat) : Prop :=
  s.isDflt tbl = false → (s.tbls tbl).rules = [] → (s.tbls tbl).refCnt ≠ 0

def Used (s : RtState) : Prop := ∀ tbl ∈ s.listed, s.UsedAt tbl

theorem UsedAt.congr (used : s.UsedAt tbl) (same : after.tbls tbl = s.tbls tbl) : after.UsedAt tbl := by
  unfold UsedAt isDflt
  rw [same]
  exact used

theorem UsedAt.of_rules (some : (s.tbls tbl).rules ≠ []) : s.UsedAt tbl :=
  fun _ empty => absurd empty some

def placed (s : RtState) (tbl entry : Nat) (rules : List Nat) (new : RtEntry) : RtState :=
  { s.setEntry entry new with live := entry :: s.live }.setTbl tbl { s.tbls tbl with rules }

theorem placed_tbl : (s.placed tbl entry rules new).tbls tbl = { s.tbls tbl with rules } :=
  update_self _ _ _

theorem placed_entry : (s.placed tbl entry rules new).entries entry = new := update_self _ _ _

structure Finished (cfg : RtConfig) (s after : RtState) (tbl : Nat) : Prop where
  kept : after.Kept cfg
  sets : after.sets = s.sets
  others : ∀ other, other ≠ tbl → after.tbls other = s.tbls other
  mine : after.tbls tbl = s.tbls tbl ∨ (after.tbls tbl).rules ≠ []
  room : (s.tbls tbl).ruleCnt < ipaRuleCntMax → (after.tbls tbl).rules ≠ []

theorem Kept.finish_full (kept : s.Kept cfg) (dead : entry ∉ s.live)
    (back : rules.erase entry = (s.tbls tbl).rules) (full : ¬(s.tbls tbl).ruleCnt < ipaRuleCntMax) :
    Finished cfg s ((s.placed tbl entry rules new).finishRtRuleAdd env tbl entry).1 tbl := by
  have given : ((s.placed tbl entry rules new).finishRtRuleAdd env tbl entry).1 = s.setEntry entry new := by
    unfold finishRtRuleAdd
    rw [placed_tbl, if_neg full]
    unfold dropEntry
    rw [placed_tbl]
    dsimp only
    rw [back]
    unfold placed setTbl setEntry
    rw [update_idem, update_eq_self, erase_cons_head]
  rw [given]
  exact ⟨kept.setDead dead, rfl, fun _ _ => rfl, .inl rfl, fun room => absurd room full⟩

section

variable (kept : s.Kept cfg) (listed : tbl ∈ s.listed) (dead : entry ∉ s.live)
  (more : rules.Perm (entry :: (s.tbls tbl).rules))
include kept listed dead more

theorem Kept.finish_granted (room : (s.tbls tbl).ruleCnt < ipaRuleCntMax)
    (granted : env.entryId = some id) (unknown : s.idFree id) (home : new.tbl = tbl) (points : s.Points new) :
    Finished cfg s ((s.placed tbl entry rules new).finishRtRuleAdd env tbl entry).1 tbl := by
  have given : ((s.placed tbl entry rules new).finishRtRuleAdd env tbl entry).1 = { s with
        tbls := update s.tbls tbl
          { s.tbls tbl with rules, ruleCnt := (s.tbls tbl).ruleCnt + 1 }
        entries := update s.entries entry { new with id }
        live := entry :: s.live
        idr := (id, .rtRule entry) :: s.idr
        hdrRefCnt := fun ref => s.hdrRefCnt ref + if new.target = some ref then 1 else 0 } := by
    unfold finishRtRuleAdd
    rw [placed_tbl, if_pos room]
    have target : ∀ table, ((s.placed tbl entry rules new).setTbl tbl table).hdrOf entry = new.target :=
      fun _ => congrArg RtEntry.target (update_self _ _ _)
    dsimp only
    rw [granted, holdHdrOf_eq]
    rw [target]
    unfold setTbl setEntry
    dsimp only
    rw [placed_entry]
    unfold placed setTbl setEntry
    rw [update_idem, update_idem]
  have nonempty : rules ≠ [] := by
    rintro rfl
    exact absurd more.length_eq (by simp)
  have filled : (update s.tbls tbl
      { s.tbls tbl with rules, ruleCnt := (s.tbls tbl).ruleCnt + 1 } tbl).rules ≠ [] := by
    rw [update_self]
    exact nonempty
  rw [given]
  refine ⟨?_, rfl, fun other apart => update_of_ne apart _ _, .inr filled, fun _ => filled⟩
  · refine kept.gain listed dead unknown rfl rfl (fun other apart => ?_)
      ⟨rules, more, update_self _ _ _⟩ ?_ ?_ (fun other apart => ?_) rfl rfl rfl rfl
      (fun ref => ?_) ?_
    · exact update_of_ne apart _ _
    · dsimp only
      rw [update_self, home]
    · dsimp only
      rw [update_self]
    · exact update_of_ne apart _ _
    · have target : (update s.entries entry { new with id } entry).target = new.target := by
        rw [update_self]
        rfl
      simp only [hdrOf, target]
    · dsimp only
      rw [update_self]
      exact { points with }

theorem Kept.finish (back : rules.erase entry = (s.tbls tbl).rules)
    (handle : (s.tbls tbl).ruleCnt < ipaRuleCntMax → env.entryId.isSome)
    (unknown : env.entryId.all s.idFree) (home : new.tbl = tbl) (points : s.Points new) :
    Finished cfg s ((s.placed tbl entry rules new).finishRtRuleAdd env tbl entry).1 tbl := by
  by_cases room : (s.tbls tbl).ruleCnt < ipaRuleCntMax
  · obtain ⟨id, granted⟩ := Option.isSome_iff_exists.mp (handle room)
    rw [granted] at unknown
    exact kept.finish_granted listed dead more room granted unknown home points
  · exact kept.finish_full dead back room

end

theorem Finished.listed (finished : Finished cfg s after tbl) : after.listed = s.listed := by
  rw [RtState.listed, finished.sets, RtState.listed]

theorem Finished.used (finished : Finished cfg s after tbl) (used : ∀ other ∈ s.listed,
      other ≠ tbl ∨ ¬(s.tbls tbl).ruleCnt < ipaRuleCntMax → s.UsedAt other) : after.Used := by
  intro other listed
  rw [finished.listed] at listed
  by_cases here : other = tbl
  · subst here
    by_cases room : (s.tbls other).ruleCnt < ipaRuleCntMax
    · exact .of_rules (finished.room room)
    · obtain same | filled := finished.mine
      · exact (used other listed (.inr room)).congr same
      · exact .of_rules filled
  · exact (used other listed (.inl here)).congr (finished.others other here)

def entryGranted (env : RtEnv) (ruleId : Nat) : Bool :=
  env.entryAddr.isSome && (ruleId ≠ 0 || env.ruleId)

theorem createRtEntry_none (failed : s.createRtEntry env rule tbl hdr procCtx ruleId user = none) :
    entryGranted env ruleId = false := by
  unfold createRtEntry at failed
  unfold entryGranted
  split at failed
  · rename_i none
    rw [none]
    rfl
  · split at failed
    · rename_i refused
      have never : env.ruleId = false := by simpa using refused.2
      simp [refused.1, never]
    · cases failed

section

variable {made : RtState}
  (created : s.createRtEntry env rule tbl hdr procCtx ruleId user = some (made, entry))
include created

theorem createRtEntry_some : entryGranted env ruleId = true ∧ env.entryAddr = some entry ∧ ∀ rules,
      made.setTbl tbl { made.tbls tbl with rules } = s.placed tbl entry rules
        { rule, tbl, hdr, procCtx, ipacmInstalled := user, id := 0 } := by
  unfold createRtEntry at created
  split at created
  · cases created
  · rename_i granted
    split at created
    · cases created
    · rename_i allowed
      cases created
      refine ⟨?_, granted, fun _ => rfl⟩
      unfold entryGranted
      rw [granted]
      by_cases given : ruleId = 0
      · simpa [given] using allowed
      · simp [given]

theorem createRtEntry_tbls : made.tbls = s.tbls := by
  unfold createRtEntry at created
  split at created
  · cases created
  · split at created
    · cases created
    · cases created
      rfl

end

theorem atRear_perm (atRear : Bool) :
    (if atRear = true then rules ++ [entry] else entry :: rules).Perm (entry :: rules) := by
  split
  · exact perm_append_singleton entry rules
  · exact .refl _

theorem atRear_erase (atRear : Bool) (new : entry ∉ rules) :
    (if atRear = true then rules ++ [entry] else entry :: rules).erase entry = rules := by
  split
  · rw [erase_append_right [entry] new, erase_cons_head, append_nil]
  · rw [erase_cons_head]

theorem findRtTbl_listed (found : s.findRtTbl ip name = some tbl) : tbl ∈ (s.sets ip).headRtTblList := by
  unfold findRtTbl at found
  split at found
  · cases found
  · exact mem_of_find?_eq_some found

theorem freeRtIdx_free (free : s.freeRtIdx ip = some idx) : (s.sets ip).rtIdxBitmap idx = false := by
  have unset := List.find?_some free
  rwa [Bool.not_eq_true'] at unset

def withTbl (cfg : RtConfig) (s : RtState) (ip : IpaIpType) (name : List Char) (tbl idx id : Nat) : RtState :=
  (s.setTbl tbl
    { name := name.take (ipaResourceNameMax - 1), ip, idx, ruleCnt := 0, refCnt := 0, rules := []
      inSys := cfg.inSys ip, id }).listRtTbl ip tbl idx id

theorem withTbl_listed : (s.withTbl cfg ip name tbl idx id).listed.Perm (tbl :: s.listed) :=
  listRtTbl_listed

theorem withTbl_self : (s.withTbl cfg ip name tbl idx id).tbls tbl =
    { name := name.take (ipaResourceNameMax - 1), ip, idx, ruleCnt := 0, refCnt := 0, rules := []
      inSys := cfg.inSys ip, id } := update_self _ _ _

theorem withTbl_of_ne (apart : other ≠ tbl) :
    (s.withTbl cfg ip name tbl idx id).tbls other = s.tbls other := update_of_ne apart _ _

theorem withTbl_idFree (unknown : other.all s.idFree) (apart : some id ≠ other) :
    other.all (s.withTbl cfg ip name tbl idx id).idFree := by
  cases other with
  | none => rfl
  | some other =>
    have before : other ∉ s.idr.map Prod.fst := of_decide_eq_true unknown
    refine decide_eq_true ?_
    show other ∉ id :: s.idr.map Prod.fst
    rw [mem_cons, not_or]
    refine ⟨?_, before⟩
    rintro rfl
    exact apart rfl

def TblGranted (cfg : RtConfig) (env : RtEnv) (ip : IpaIpType) (s : RtState) : Prop :=
  env.tblAddr.isSome → ∀ idx, s.freeRtIdx ip = some idx → idx ≤ maxTblIndx cfg ip ∧ env.tblId.isSome

theorem addRtTbl_new (absent : s.findRtTbl ip name = none) (granted : TblGranted cfg env ip s) :
    s.addRtTbl cfg env ip name = (s, none) ∨
      ∃ tbl idx id, env.tblAddr = some tbl ∧ s.freeRtIdx ip = some idx ∧ env.tblId = some id ∧
        s.addRtTbl cfg env ip name = (s.withTbl cfg ip name tbl idx id, some tbl) := by
  unfold addRtTbl
  rw [absent]
  cases addr : env.tblAddr with
  | none => exact .inl rfl
  | some tbl =>
    cases free : s.freeRtIdx ip with
    | none => exact .inl rfl
    | some idx =>
      obtain ⟨small, handle⟩ := granted (by rw [addr]; rfl) idx free
      obtain ⟨id, given⟩ := Option.isSome_iff_exists.mp handle
      refine .inr ⟨tbl, idx, id, rfl, rfl, given, ?_⟩
      dsimp only
      rw [if_neg (Nat.not_lt.mpr small), given]
      rfl

def AddGranted (cfg : RtConfig) (env : RtEnv) (ip : IpaIpType) (name : List Char) (ruleId : Nat)
    (s : RtState) : Prop :=
  match s.findRtTbl ip name with
  | some tbl =>
    ¬(s.isDflt tbl ∧ 0 < (s.tbls tbl).ruleCnt) → entryGranted env ruleId →
      (s.tbls tbl).ruleCnt < ipaRuleCntMax → env.entryId.isSome
  | none =>
    TblGranted cfg env ip s ∧ (name.take (ipaResourceNameMax - 1) ≠ ipaDfltRtTblName → entryGranted env ruleId) ∧
      (entryGranted env ruleId → env.entryId.isSome)

theorem Kept.addTo (kept : s.Kept cfg) (listed : tbl ∈ s.listed)
    (created : s.createRtEntry env rule tbl hdr procCtx ruleId user = some (after, entry))
    (fresh : env.entryAddr.all fun entry => entry ∉ s.live) (unknown : env.entryId.all s.idFree)
    (handle : (s.tbls tbl).ruleCnt < ipaRuleCntMax → env.entryId.isSome)
    (points : s.Points { rule, tbl, hdr, procCtx, ipacmInstalled := user, id := 0 })
    (more : rules.Perm (entry :: (s.tbls tbl).rules))
    (back : entry ∉ (s.tbls tbl).rules → rules.erase entry = (s.tbls tbl).rules) : Finished cfg s
      ((after.setTbl tbl { after.tbls tbl with rules }).finishRtRuleAdd env tbl entry).1 tbl := by
  obtain ⟨_, addr, placing⟩ := createRtEntry_some created
  rw [addr] at fresh
  have dead : entry ∉ s.live := of_decide_eq_true fresh
  rw [placing]
  exact kept.finish listed dead more (back fun mem => dead (kept.tbls.holding.mem listed mem)) handle unknown rfl points

theorem grantable_iff : s.grantable env = true ↔ env.tblAddr.all (fun tbl => tbl ∉ s.listed ∧ tbl ∉ s.reaped) = true ∧
      env.entryAddr.all (fun entry => entry ∉ s.live) = true ∧ env.tblId.all s.idFree = true ∧
      env.entryId.all s.idFree = true ∧ (env.tblId = none ∨ env.tblId ≠ env.entryId) := by
  unfold grantable
  simp [and_assoc]

theorem Kept.addRtRule (kept : s.Kept cfg) (used : s.Used) (grantable : s.grantable env)
    (granted : (s.validateHndls cfg env rule).isSome → validateRuleId cfg ruleId →
      AddGranted cfg env ip name ruleId s) : (s.addRtRule cfg env ip name rule atRear ruleId user).1.Kept cfg ∧
      (s.addRtRule cfg env ip name rule atRear ruleId user).1.Used := by
  obtain ⟨tblFresh, entryFresh, tblUnknown, unknown, apart⟩ := grantable_iff.mp grantable
  unfold RtState.addRtRule
  cases valid : s.validateHndls cfg env rule with
  | none => exact ⟨kept, used⟩
  | some target =>
    obtain ⟨hdr, procCtx⟩ := target
    have points (tbl : Nat) : s.Points { rule, tbl, hdr, procCtx, ipacmInstalled := user, id := 0 } :=
      validateHndls_points kept.handles valid rfl rfl rfl
    dsimp only
    cases validId : validateRuleId cfg ruleId with
    | false => exact ⟨kept, used⟩
    | true =>
      have granted := granted (by rw [valid]; rfl) validId
      unfold AddGranted at granted
      rw [if_neg (by simp)]
      cases found : s.findRtTbl ip name with
      | some tbl =>
        rw [found] at granted
        have listed : tbl ∈ s.listed := mem_listed.mpr ⟨ip, findRtTbl_listed found⟩
        have there : s.addRtTbl cfg env ip name = (s, some tbl) := by
          unfold addRtTbl
          rw [found]
        rw [there]
        dsimp only
        split
        · exact ⟨kept, used⟩
        rename_i allowed
        cases created : s.createRtEntry env rule tbl hdr procCtx ruleId user with
        | none => exact ⟨kept, used⟩
        | some made =>
          have handle := granted allowed (createRtEntry_some created).1
          have finished := kept.addTo listed created entryFresh unknown handle (points tbl)
            (atRear_perm atRear) (atRear_erase atRear)
          dsimp only
          rw [createRtEntry_tbls created] at finished ⊢
          exact ⟨finished.kept, finished.used fun other listed _ => used other listed⟩
      | none =>
        rw [found] at granted
        obtain ⟨tblGranted, entry, handle⟩ := granted
        obtain none | ⟨tbl, idx, id, addr, free, given, new⟩ := addRtTbl_new found tblGranted
        · rw [none]
          exact ⟨kept, used⟩
        rw [addr] at tblFresh
        rw [given] at tblUnknown apart
        obtain ⟨unlisted, unreaped⟩ := of_decide_eq_true tblFresh
        have kept : (s.withTbl cfg ip name tbl idx id).Kept cfg :=
          kept.listRtTbl unlisted unreaped (freeRtIdx_free free) tblUnknown rfl rfl rfl rfl rfl
        have listed : tbl ∈ (s.withTbl cfg ip name tbl idx id).listed :=
          withTbl_listed.mem_iff.mpr mem_cons_self
        have used (other : Nat) (mem : other ∈ (s.withTbl cfg ip name tbl idx id).listed)
            (old : other ≠ tbl) : (s.withTbl cfg ip name tbl idx id).UsedAt other :=
          (used other (mem_of_ne_of_mem old (withTbl_listed.mem_iff.mp mem))).congr (withTbl_of_ne old)
        have room : ((s.withTbl cfg ip name tbl idx id).tbls tbl).ruleCnt < ipaRuleCntMax := by
          rw [withTbl_self]
          exact Nat.zero_lt_succ 511
        have empty : ¬((s.withTbl cfg ip name tbl idx id).isDflt tbl ∧
            0 < ((s.withTbl cfg ip name tbl idx id).tbls tbl).ruleCnt) := by
          rw [withTbl_self]
          exact fun refused => absurd refused.2 (Nat.lt_irrefl 0)
        rw [new]
        dsimp only
        rw [if_neg empty]
        cases created : (s.withTbl cfg ip name tbl idx id).createRtEntry env rule tbl hdr procCtx ruleId user with
        | none =>
          refine ⟨kept, fun other mem => ?_⟩
          by_cases old : other = tbl
          · intro notDflt _
            have none := createRtEntry_none created
            have always := entry (by
              rw [isDflt, old, withTbl_self] at notDflt
              exact of_decide_eq_false notDflt)
            rw [none] at always
            cases always
          · exact used other mem old
        | some made =>
          have unknown : env.entryId.all (s.withTbl cfg ip name tbl idx id).idFree :=
            withTbl_idFree unknown (apart.resolve_left (Option.some_ne_none id))
          have finished := kept.addTo listed created entryFresh unknown
            (fun _ => handle (createRtEntry_some created).1) ⟨(points tbl).hdr,
              (points tbl).procCtx, (points tbl).one⟩ (atRear_perm atRear) (atRear_erase atRear)
          dsimp only
          rw [createRtEntry_tbls created] at finished ⊢
          exact ⟨finished.kept, finished.used fun other mem old =>
            used other mem (old.resolve_right (not_not.mpr room))⟩

theorem insertAfter_perm (mem : place ∈ rules) : (insertAfter place entry rules).Perm (entry :: rules) := by
  induction rules with
  | nil => exact absurd mem not_mem_nil
  | cons first rest ih =>
    unfold insertAfter
    split
    · exact .swap entry first rest
    · rename_i apart
      have later := ih (mem_of_ne_of_mem (Ne.symm apart) mem)
      exact (later.cons first).trans (.swap entry first rest)

theorem insertAfter_erase (mem : place ∈ rules) (new : entry ∉ rules) :
    (insertAfter place entry rules).erase entry = rules := by
  induction rules with
  | nil => exact absurd mem not_mem_nil
  | cons first rest ih =>
    rw [mem_cons, not_or] at new
    have other : ¬(first == entry) = true := fun same => new.1 (eq_of_beq same).symm
    unfold insertAfter
    split
    · rw [erase_cons_tail other, erase_cons_head]
    · rename_i apart
      rw [erase_cons_tail other, ih (mem_of_ne_of_mem (Ne.symm apart) mem) new.2]

def AfterGranted (cfg : RtConfig) (env : RtEnv) (ip : IpaIpType) (name : List Char) (rule : RtRule)
    (addAfterHdl : Nat) (s : RtState) : Prop :=
  ∀ tbl place, s.findRtTbl ip name = some tbl → s.idFind addAfterHdl = some (.rtRule place) →
    ¬((s.tbls tbl).ruleCnt = 0 ∨ (s.entries place).tbl ≠ tbl ∨ s.isDflt tbl) →
      (s.validateHndls cfg env rule).isSome → entryGranted env 0 →
        (s.tbls tbl).ruleCnt < ipaRuleCntMax → env.entryId.isSome

theorem Kept.addRtRuleAfter (kept : s.Kept cfg) (used : s.Used) (grantable : s.grantable env)
    (granted : AfterGranted cfg env ip name rule addAfterHdl s) :
    (s.addRtRuleAfter cfg env ip name rule addAfterHdl).1.Kept cfg ∧
      (s.addRtRuleAfter cfg env ip name rule addAfterHdl).1.Used := by
  obtain ⟨_, entryFresh, _, unknown, _⟩ := grantable_iff.mp grantable
  unfold RtState.addRtRuleAfter
  split
  · rename_i tbl place found known
    split
    · exact ⟨kept, used⟩
    rename_i allowed
    have granted := granted tbl place found known allowed
    have listed : tbl ∈ s.listed := mem_listed.mpr ⟨ip, findRtTbl_listed found⟩
    have live : place ∈ s.live := (Named.of_find kept.handles known).1
    have home : (s.entries place).tbl = tbl := by
      by_contra elsewhere
      exact allowed (.inr (.inl elsewhere))
    have mem : place ∈ (s.tbls tbl).rules := home ▸ (kept.tbls.live live).2
    split
    · exact ⟨kept, used⟩
    rename_i hdr procCtx valid
    split
    · exact ⟨kept, used⟩
    rename_i made entry created
    have handle := granted (by rw [valid]; rfl) (createRtEntry_some created).1
    have finished := kept.addTo listed created entryFresh unknown handle
      (validateHndls_points kept.handles valid rfl rfl rfl) (insertAfter_perm mem)
      (insertAfter_erase mem)
    rw [createRtEntry_tbls created] at finished ⊢
    exact ⟨finished.kept, finished.used fun other mem _ => used other mem⟩
  · exact ⟨kept, used⟩

end RtState

end KernelModules.IpaRouting

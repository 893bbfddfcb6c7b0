import KernelModules.IpaRouting.Deleting

namespace KernelModules.IpaRouting

open KernelModules.Data List

/-! # Resets

A reset takes rules from all tables of a family, and then the tables.
-/

namespace RtState

variable {cfg : RtConfig} {s after : RtState} {ip : IpaIpType} {userOnly tblUser user : Bool}
  {tbl entry : Nat} {rest : List Nat} {fltDrops : Nat → Nat}

theorem withoutRefOf_listDelRule : (s.listDelRule tbl entry).withoutRefOf entry =
    (s.withoutRefOf entry).listDelRule tbl entry := by
  have same : (s.listDelRule tbl entry).hdrOf entry = s.hdrOf entry := rfl
  unfold withoutRefOf
  rw [same]
  cases s.hdrOf entry <;> rfl

theorem Kept.resetRule (kept : s.Kept cfg) (listed : tbl ∈ s.listed) (mem : entry ∈ (s.tbls tbl).rules) :
    (((s.forgetDeletedHdr entry).listDelRule tbl entry).releaseHdrOf entry).freeRule entry =
      s.withoutRule tbl entry := by
  have points := kept.hdrs.points entry (kept.tbls.holding.mem listed mem)
  have handles : (s.listDelRule tbl entry).Handles := by
    refine kept.handles.congr rfl (fun _ => Iff.rfl) rfl rfl (fun other _ => ?_) (fun _ _ => rfl) rfl
    by_cases here : other = tbl
    · subst here
      rw [listDelRule_self]
    · rw [listDelRule_of_ne here]
  have still : (s.listDelRule tbl entry).Points ((s.listDelRule tbl entry).entries entry) :=
    points_congr points rfl rfl
  rw [points.forgetDeletedHdr kept.handles, handles.releaseHdrOf still, withoutRefOf_listDelRule]
  rfl

def Taken (s : RtState) (userOnly : Bool) (entry : Nat) : Prop :=
  userOnly = false ∨ (s.entries entry).ipacmInstalled = true

structure RulesReset (cfg : RtConfig) (ip : IpaIpType) (userOnly : Bool) (tbl : Nat) (rest : List Nat)
    (s after : RtState) (tblUser user : Bool) : Prop where
  kept : after.Kept cfg
  sets : after.sets = s.sets
  entries : after.entries = s.entries
  others : ∀ other, other ≠ tbl → after.tbls other = s.tbls other
  same : { after.tbls tbl with rules := [], ruleCnt := 0 } = { s.tbls tbl with rules := [], ruleCnt := 0 }
  user : user = (tblUser || rest.any fun entry => (s.entries entry).ipacmInstalled)
  rules : (s.tbls tbl).idx ≠ cfg.appsRtIndexLo ip → ∀ entry, entry ∈ (after.tbls tbl).rules ↔
      entry ∈ (s.tbls tbl).rules ∧ ¬(entry ∈ rest ∧ s.Taken userOnly entry)
  last : (s.tbls tbl).idx = cfg.appsRtIndexLo ip → (s.tbls tbl).rules ≠ [] → (after.tbls tbl).rules ≠ []

theorem RulesReset.keep (reset : RulesReset cfg ip userOnly tbl rest s after
      (tblUser || (s.entries entry).ipacmInstalled) user)
    (stays : (s.tbls tbl).idx = cfg.appsRtIndexLo ip ∨ ¬s.Taken userOnly entry) :
    RulesReset cfg ip userOnly tbl (entry :: rest) s after tblUser user := by
  refine { reset with user := ?_, rules := fun other known => ?_ }
  · rw [reset.user, any_cons, Bool.or_assoc]
  · rw [reset.rules other, mem_cons]
    refine and_congr_right fun _ => not_congr ⟨fun taken => ⟨.inr taken.1, taken.2⟩, fun taken => ?_⟩
    refine ⟨taken.1.resolve_left ?_, taken.2⟩
    rintro rfl
    exact (stays.resolve_left other) taken.2

theorem RulesReset.lose (reset : RulesReset cfg ip userOnly tbl rest (s.withoutRule tbl entry) after
      (tblUser || (s.entries entry).ipacmInstalled) user)
    (once : (s.tbls tbl).rules.Nodup) (taken : s.Taken userOnly entry)
    (more : (s.tbls tbl).idx = cfg.appsRtIndexLo ip → (s.tbls tbl).rules.erase entry ≠ []) :
    RulesReset cfg ip userOnly tbl (entry :: rest) s after tblUser user := by
  have sameTaken (other : Nat) : (s.withoutRule tbl entry).Taken userOnly other ↔ s.Taken userOnly other := by
    unfold Taken
    rw [withoutRule_entries]
  have idx : ((s.withoutRule tbl entry).tbls tbl).idx = (s.tbls tbl).idx := by rw [withoutRule_self]
  have rules : ((s.withoutRule tbl entry).tbls tbl).rules = (s.tbls tbl).rules.erase entry := by
    rw [withoutRule_self]
  refine ⟨reset.kept, reset.sets.trans withoutRule_sets, reset.entries.trans withoutRule_entries, ?_, ?_, ?_, ?_, ?_⟩
  · exact fun other apart => (reset.others other apart).trans (withoutRule_of_ne apart)
  · rw [reset.same, withoutRule_self]
  · rw [reset.user, withoutRule_entries, any_cons, Bool.or_assoc]
  · intro other known
    rw [reset.rules (idx.trans_ne other), rules, once.mem_erase_iff, sameTaken, mem_cons]
    constructor
    · rintro ⟨⟨apart, mem⟩, kept⟩
      refine ⟨mem, fun gone => kept ⟨gone.1.resolve_left apart, gone.2⟩⟩
    · rintro ⟨mem, kept⟩
      refine ⟨⟨?_, mem⟩, fun gone => kept ⟨.inr gone.1, gone.2⟩⟩
      rintro rfl
      exact kept ⟨.inl rfl, taken⟩
  · intro first _
    refine reset.last (idx.trans first) ?_
    rw [rules]
    exact more first

theorem Kept.resetRules (kept : s.Kept cfg) (listed : tbl ∈ s.listed)
    (members : ∀ entry ∈ rest, entry ∈ (s.tbls tbl).rules) (once : rest.Nodup) :
    ∃ after user, resetRules cfg ip userOnly tbl rest s tblUser = (after, some user) ∧
      RulesReset cfg ip userOnly tbl rest s after tblUser user := by
  induction rest generalizing s tblUser with
  | nil =>
    refine ⟨s, tblUser, rfl, kept, rfl, rfl, fun _ _ => rfl, rfl, ?_, fun _ entry => ?_, fun _ => id⟩
    · rw [any_nil, Bool.or_false]
    · simp
  | cons entry rest ih =>
    obtain ⟨mem, members⟩ := forall_mem_cons.mp members
    obtain ⟨new, once⟩ := nodup_cons.mp once
    have live : entry ∈ s.live := kept.tbls.holding.mem listed mem
    have rulesOnce := kept.tbls.rules_nodup listed
    unfold RtState.resetRules
    rw [kept.handles.idFind_rule live, if_neg (by simp)]
    dsimp only
    split
    · rename_i last
      obtain ⟨after, user, result, reset⟩ := ih kept listed members once
      exact ⟨after, user, result, reset.keep (.inl last.1)⟩
    split
    · rename_i taken
      rw [kept.resetRule listed mem]
      have fewer (other : Nat) (there : other ∈ rest) : other ∈ ((s.withoutRule tbl entry).tbls tbl).rules := by
        rw [withoutRule_self]
        refine (mem_erase_of_ne ?_).mpr (members other there)
        rintro rfl
        exact new there
      obtain ⟨after, user, result, reset⟩ := ih (kept.withoutRule listed mem) (by rwa [withoutRule_listed]) fewer once
      refine ⟨after, user, result, reset.lose rulesOnce ?_ fun first => ?_⟩
      · rwa [Bool.not_eq_true'] at taken
      · have count := kept.tbls.ruleCnt tbl listed
        have left := length_erase_of_mem mem
        have some := length_pos_of_mem mem
        intro empty
        rw [empty, length_nil] at left
        omega
    · rename_i stays
      obtain ⟨after, user, result, reset⟩ := ih kept listed members once
      refine ⟨after, user, result, reset.keep (.inr ?_)⟩
      rwa [Bool.not_eq_true'] at stays

def Uniform (s : RtState) (cfg : RtConfig) (ip : IpaIpType) (userOnly : Bool) (tbl : Nat) : Prop :=
  userOnly = true → (s.tbls tbl).idx ≠ cfg.appsRtIndexLo ip → ∀ one ∈ (s.tbls tbl).rules,
    ∀ other ∈ (s.tbls tbl).rules, (s.entries one).ipacmInstalled = (s.entries other).ipacmInstalled

section

variable (reset : RulesReset cfg ip userOnly tbl (s.tbls tbl).rules s after false user)
include reset

theorem RulesReset.emptied (uniform : s.Uniform cfg ip userOnly tbl)
    (other : (s.tbls tbl).idx ≠ cfg.appsRtIndexLo ip) (goes : userOnly = false ∨ user = true) :
    (after.tbls tbl).rules = [] := by
  refine eq_nil_iff_forall_not_mem.mpr fun entry left => ?_
  obtain ⟨mem, stays⟩ := (reset.rules other entry).mp left
  refine stays ⟨mem, ?_⟩
  cases userOnly with
  | false => exact .inl rfl
  | true =>
    have users := goes.resolve_left (by simp)
    rw [reset.user, Bool.false_or, any_eq_true] at users
    obtain ⟨one, there, installed⟩ := users
    exact .inr ((uniform rfl other entry mem one there).trans installed)

theorem RulesReset.unchanged (stays : ¬((s.tbls tbl).idx ≠ cfg.appsRtIndexLo ip ∧ (userOnly = false ∨ user = true)))
    (empty : (after.tbls tbl).rules = []) : (s.tbls tbl).rules = [] := by
  by_cases first : (s.tbls tbl).idx = cfg.appsRtIndexLo ip
  · by_contra some
    exact reset.last first some empty
  have neither := not_or.mp fun goes => stays ⟨first, goes⟩
  refine eq_nil_iff_forall_not_mem.mpr fun entry mem => ?_
  have left := (reset.rules first entry).mpr ⟨mem, fun gone => ?_⟩
  · rw [empty] at left
    exact not_mem_nil left
  · have installed := gone.2.resolve_left neither.1
    refine neither.2 ?_
    rw [reset.user, Bool.false_or, any_eq_true]
    exact ⟨entry, mem, installed⟩

end

def Going (s : RtState) (cfg : RtConfig) (ip : IpaIpType) (userOnly : Bool) (tbl : Nat) : Prop :=
  (s.tbls tbl).idx ≠ cfg.appsRtIndexLo ip ∧ userOnly = false

theorem Kept.resetTbls (kept : s.Kept cfg) (listed : ∀ tbl ∈ rest, tbl ∈ (s.sets ip).headRtTblList)
    (once : rest.Nodup) (uniform : ∀ tbl ∈ rest, s.Uniform cfg ip userOnly tbl)
    (used : ∀ tbl ∈ s.listed, s.UsedAt tbl ∨ tbl ∈ rest ∧ s.Going cfg ip userOnly tbl) :
    (resetTbls cfg ip userOnly rest s).1.Kept cfg ∧ (resetTbls cfg ip userOnly rest s).1.Used := by
  induction rest generalizing s with
  | nil =>
    refine ⟨kept, fun tbl mem => (used tbl mem).resolve_right ?_⟩
    exact fun going => absurd going.1 not_mem_nil
  | cons tbl rest ih =>
    obtain ⟨mine, listed⟩ := forall_mem_cons.mp listed
    obtain ⟨new, once⟩ := nodup_cons.mp once
    obtain ⟨mineUniform, uniform⟩ := forall_mem_cons.mp uniform
    have mem : tbl ∈ s.listed := mem_listed.mpr ⟨ip, mine⟩
    have loop : ∃ after user, RtState.resetRules cfg ip userOnly tbl (s.tbls tbl).rules s false = (after, some user) ∧
          RulesReset cfg ip userOnly tbl (s.tbls tbl).rules s after false user :=
      kept.resetRules mem (fun _ => id) (kept.tbls.rules_nodup mem)
    obtain ⟨after, user, result, reset⟩ := loop
    have still : tbl ∈ after.listed := by
      rwa [RtState.listed, reset.sets]
    have idx : (after.tbls tbl).idx = (s.tbls tbl).idx := congrArg (·.idx) reset.same
    have name : (after.tbls tbl).name = (s.tbls tbl).name := congrArg (·.name) reset.same
    have refCnt : (after.tbls tbl).refCnt = (s.tbls tbl).refCnt := congrArg (·.refCnt) reset.same
    have otherUniform (other : Nat) (there : other ∈ rest) (later : RtState)
        (tbls : later.tbls other = after.tbls other) (entries : later.entries = after.entries) :
        later.Uniform cfg ip userOnly other := by
      have apart : other ≠ tbl := by
        rintro rfl
        exact new there
      unfold Uniform
      rw [tbls, entries, reset.others other apart, reset.entries]
      exact uniform other there
    have otherUsed (other : Nat) (there : other ∈ s.listed) (apart : other ≠ tbl) (later : RtState)
        (tbls : later.tbls other = after.tbls other) :
        later.UsedAt other ∨ other ∈ rest ∧ later.Going cfg ip userOnly other := by
      have same := tbls.trans (reset.others other apart)
      obtain used | ⟨going, goes⟩ := used other there
      · exact .inl (used.congr same)
      · refine .inr ⟨mem_of_ne_of_mem apart going, ?_⟩
        unfold Going
        rw [same]
        exact goes
    unfold RtState.resetTbls
    rw [result]
    dsimp only
    rw [reset.kept.handles.idFind_tbl still, if_neg (by simp), idx]
    split
    · rename_i goes
      rw [Bool.not_eq_true'] at goes
      have empty := reset.emptied mineUniform goes.1 goes.2
      have head : tbl ∈ (after.sets ip).headRtTblList := by rwa [reset.sets]
      have unlisted := reset.kept.unlisted head empty
      refine ih unlisted.kept (fun other there => ?_) once (fun other there => ?_) fun other left => ?_
      · show other ∈ ((after.unlistRtTbl ip tbl).sets ip).headRtTblList
        unfold unlistRtTbl setSet
        dsimp only
        rw [Function.update_self, reset.sets]
        refine (mem_erase_of_ne ?_).mpr (listed other there)
        rintro rfl
        exact new there
      · exact otherUniform other there _ rfl rfl
      · obtain ⟨there, apart⟩ := (unlisted.mem_iff reset.kept.tbls.holding.owners_nodup).mp left
        rw [RtState.listed, reset.sets] at there
        exact otherUsed other there apart _ rfl
    · rename_i stays
      rw [Bool.not_eq_true'] at stays
      refine ih reset.kept (fun other there => ?_) once (fun other there => ?_) fun other there => ?_
      · rw [reset.sets]
        exact listed other there
      · exact otherUniform other there after rfl rfl
      · rw [RtState.listed, reset.sets] at there
        by_cases apart : other = tbl
        · subst apart
          left
          intro notDflt empty
          rw [refCnt]
          have before := (used other mem).resolve_right fun going =>
            stays ⟨going.2.1, .inl going.2.2⟩
          refine before ?_ (reset.unchanged stays empty)
          rw [isDflt, ← name]
          exact notDflt
        · exact otherUsed other there apart after rfl

/-- A reset keeps the books if it takes whole tables, and filtering rules hold no last references of tables that
stay. -/
structure ResetWhole (cfg : RtConfig) (ip : IpaIpType) (userOnly : Bool) (fltDrops : Nat → Nat)
    (s : RtState) : Prop where
  uniform : ∀ tbl ∈ (s.sets ip).headRtTblList, s.Uniform cfg ip userOnly tbl
  referenced : ∀ tbl ∈ s.listed, s.isDflt tbl = false → (s.tbls tbl).rules = [] →
    fltDrops tbl < (s.tbls tbl).refCnt ∨ tbl ∈ (s.sets ip).headRtTblList ∧ s.Going cfg ip userOnly tbl

theorem Kept.resetRt (kept : s.Kept cfg) (whole : ResetWhole cfg ip userOnly fltDrops s) :
    (s.resetRt cfg ip userOnly fltDrops).1.Kept cfg ∧ (s.resetRt cfg ip userOnly fltDrops).1.Used := by
  have dropped : { s with tbls := fun tbl =>
      { s.tbls tbl with refCnt := (s.tbls tbl).refCnt - fltDrops tbl } }.Kept cfg :=
    kept.congr rfl rfl (fun _ => rfl) (fun _ _ => rfl) rfl rfl rfl rfl rfl
  refine dropped.resetTbls (fun _ => id) (dropped.tbls.sets ip).listed_nodup whole.uniform ?_
  intro tbl mem
  by_cases going : tbl ∈ (s.sets ip).headRtTblList ∧ s.Going cfg ip userOnly tbl
  · exact .inr going
  · left
    intro notDflt empty
    have more := (whole.referenced tbl mem notDflt empty).resolve_right going
    exact Nat.sub_ne_zero_of_lt more

end RtState

end KernelModules.IpaRouting

import KernelModules.Mmrm.Requests

namespace KernelModules.Mmrm

open Data ClkMgrInfo ClientTblEntry SetvalCall

structure ClkMgrInfo.Kept (sinfo : ClkMgrInfo) : Prop where
  tidy : sinfo.Tidy
  exact : sinfo.Exact

section Replacing

variable {sinfo : ClkMgrInfo} {id : Nat}

@[simp] theorem ClkMgrInfo.put_totClkClients : (sinfo.put id entry).totClkClients = sinfo.totClkClients := rfl

@[simp] theorem ClkMgrInfo.put_here : (sinfo.put id entry).clkClientTbl id = entry :=
  Function.update_self ..

theorem ClkMgrInfo.put_other (apart : other ≠ id) :
    (sinfo.put id entry).clkClientTbl other = sinfo.clkClientTbl other :=
  Function.update_of_ne apart ..

theorem ClkMgrInfo.put_findSrcId (same : entry.clkSrcId = (sinfo.clkClientTbl id).clkSrcId) :
    (sinfo.put id entry).findSrcId = sinfo.findSrcId := by
  have all : ∀ other, ((sinfo.put id entry).clkClientTbl other).clkSrcId = (sinfo.clkClientTbl other).clkSrcId := by
    intro other
    by_cases here : other = id
    · rw [here, put_here, same]
    · rw [put_other here]
  unfold findSrcId
  simp [all, put_totClkClients]

theorem ClkMgrInfo.Tidy.put (tidy : sinfo.Tidy) (same : entry.clkSrcId = (sinfo.clkClientTbl id).clkSrcId)
    (idle : entry.clkRate = 0 → entry.vddLevel = 0) (clocked : entry.clkRate ≠ 0 → entry.clk.isSome = true)
    (registered : entry.clk.isSome = true → entry.client = true) (level : entry.vddLevel < vddLevelMax)
    (found : entry.client = true →
      id < sinfo.totClkClients ∧ sinfo.findSrcId (sinfo.clkClientTbl id).clkSrcId = id) :
    (sinfo.put id entry).Tidy where
  idle other := by
    by_cases here : other = id
    · rw [here, put_here]
      exact idle
    · rw [put_other here]
      exact tidy.idle other
  clocked other := by
    by_cases here : other = id
    · rw [here, put_here]
      exact clocked
    · rw [put_other here]
      exact tidy.clocked other
  registered other := by
    by_cases here : other = id
    · rw [here, put_here]
      exact registered
    · rw [put_other here]
      exact tidy.registered other
  levels other := by
    by_cases here : other = id
    · rw [here, put_here]
      exact level
    · rw [put_other here]
      exact tidy.levels other
  found other := by
    rw [put_findSrcId same]
    by_cases here : other = id
    · rw [here, put_here, same]
      exact found
    · rw [put_other here]
      exact tidy.found other

theorem ClkMgrInfo.put_highestLevel (lt : id < sinfo.totClkClients) :
    (sinfo.put id entry).highestLevel = max (sinfo.othersLevel id) entry.needed :=
  sup_update (fun _ entry => needed entry) sinfo.clkClientTbl entry lt

theorem ClkMgrInfo.put_totalCurrent (lt : id < sinfo.totClkClients) (level : Nat) :
    (sinfo.put id entry).totalCurrent level = sinfo.othersCurrent id level + entry.load level :=
  sum_update (fun _ entry => load entry level) sinfo.clkClientTbl entry lt

theorem ClkMgrInfo.Exact.put (exact : sinfo.Exact) (lt : id < sinfo.totClkClients)
    (active : entry.isActive = (sinfo.clkClientTbl id).isActive)
    (alike : entry.isActive = true → entry.clk = (sinfo.clkClientTbl id).clk ∧
      entry.clkRate = (sinfo.clkClientTbl id).clkRate ∧ entry.vddLevel = (sinfo.clkClientTbl id).vddLevel ∧
      entry.currentMa = (sinfo.clkClientTbl id).currentMa ∧
      entry.numHwBlocks = (sinfo.clkClientTbl id).numHwBlocks) : (sinfo.put id entry).Exact := by
  have needed : entry.needed = (sinfo.clkClientTbl id).needed := by
    unfold needed
    rw [← active]
    split
    · exact (alike ‹_›).2.2.1
    · rfl
  have load : ∀ level, entry.load level = (sinfo.clkClientTbl id).load level := by
    intro level
    unfold load
    rw [← active]
    split
    · rename_i here
      obtain ⟨-, -, vddLevel, currentMa, numHwBlocks⟩ := alike here
      rw [vddLevel, currentMa, numHwBlocks]
    · rfl
  have highest : (sinfo.put id entry).highestLevel = sinfo.highestLevel := by
    rw [put_highestLevel lt, highestLevel_eq lt, needed]
  refine ⟨exact.level.trans highest.symm, ?_, ?_⟩
  · rw [highest, put_totalCurrent lt, load, ← totalCurrent_eq lt]
    exact exact.val
  · intro other inside
    by_cases here : other = id
    · subst here
      rw [put_here]
      intro taking
      obtain ⟨clk, clkRate, vddLevel, -⟩ := alike taking
      rw [clk, clkRate, vddLevel]
      exact exact.required other inside (active.symm.trans taking)
    · rw [put_other here]
      exact exact.required other inside

end Replacing

section Calls

variable {sinfo : ClkMgrInfo}

theorem vddLevelMax_pos : 0 < vddLevelMax := by decide

theorem ClientTblEntry.inactive_of_rate {entry : ClientTblEntry} (rate : entry.clkRate = 0) :
    entry.isActive = false := by
  unfold isActive
  rw [decide_eq_false (not_not.mpr rate), Bool.and_false]

theorem ClkMgrInfo.Kept.put_unrated (kept : sinfo.Kept) {id : Nat}
    (found : id < sinfo.totClkClients ∧ sinfo.findSrcId (sinfo.clkClientTbl id).clkSrcId = id)
    (unrated : (sinfo.clkClientTbl id).clkRate = 0) (kind : entry.clkSrcId = (sinfo.clkClientTbl id).clkSrcId ∧
      entry.clkRate = (sinfo.clkClientTbl id).clkRate ∧ entry.vddLevel = (sinfo.clkClientTbl id).vddLevel)
    (reg : entry.clk.isSome = true → entry.client = true) : (sinfo.put id entry).Kept := by
  obtain ⟨srcId, clkRate, vddLevel⟩ := kind
  have rate := clkRate.trans unrated
  have level := vddLevel.trans (kept.tidy.idle id unrated)
  constructor
  · exact kept.tidy.put srcId (fun _ => level) (absurd rate) reg
      (by rw [level]; decide) fun _ => found
  · have inactive := inactive_of_rate rate
    refine kept.exact.put found.1 ?_ fun active => ?_
    · rw [inactive, inactive_of_rate unrated]
    · rw [inactive] at active
      cases active

theorem RegisterCall.claimed_fields (call : RegisterCall) (vddCorner : Nat → Int) (entry : ClientTblEntry) :
    (call.scale vddCorner (call.claimCrm (call.claim entry))).clkSrcId = entry.clkSrcId ∧
      (call.scale vddCorner (call.claimCrm (call.claim entry))).clkRate = entry.clkRate ∧
      (call.scale vddCorner (call.claimCrm (call.claim entry))).vddLevel = entry.vddLevel ∧
      (call.scale vddCorner (call.claimCrm (call.claim entry))).client = true := by
  unfold RegisterCall.claimCrm
  split
  · exact ⟨rfl, rfl, rfl, rfl⟩
  · exact ⟨rfl, rfl, rfl, rfl⟩

theorem ClkMgrInfo.findSrcId_found {clkSrcId : BitVec 32} (found : sinfo.findSrcId clkSrcId ≠ sinfo.totClkClients) :
    sinfo.findSrcId clkSrcId < sinfo.totClkClients ∧
      (sinfo.clkClientTbl (sinfo.findSrcId clkSrcId)).clkSrcId = clkSrcId := by
  unfold findSrcId at found ⊢
  cases search : (List.range sinfo.totClkClients).find? fun id =>
      decide (clkSrcId = (sinfo.clkClientTbl id).clkSrcId) with
  | none =>
    rw [search] at found
    exact absurd rfl found
  | some id =>
    have same := List.find?_some search
    exact ⟨List.mem_range.mp (List.mem_of_find?_eq_some search), (of_decide_eq_true same).symm⟩

theorem ClkMgrInfo.Kept.register (kept : sinfo.Kept) (call : RegisterCall) : (clkClientRegister sinfo call).1.Kept := by
  unfold clkClientRegister
  dsimp only
  split
  · exact kept
  split
  · exact kept
  rename_i found
  obtain ⟨lt, same⟩ := findSrcId_found found
  have first : sinfo.findSrcId call.clkSrcId < sinfo.totClkClients ∧
      sinfo.findSrcId (sinfo.clkClientTbl (sinfo.findSrcId call.clkSrcId)).clkSrcId =
        sinfo.findSrcId call.clkSrcId := ⟨lt, by rw [same]⟩
  split
  · split
    · refine ⟨kept.tidy.put rfl (kept.tidy.idle _) (kept.tidy.clocked _) (kept.tidy.registered _)
        (kept.tidy.levels _) fun _ => first, ?_⟩
      exact kept.exact.put lt rfl fun _ => ⟨rfl, rfl, rfl, rfl, rfl⟩
    · exact kept
  rename_i free
  have unrated : (sinfo.clkClientTbl (sinfo.findSrcId call.clkSrcId)).clkRate = 0 := by
    by_contra rate
    exact free (kept.tidy.registered _ (kept.tidy.clocked _ rate))
  split
  · exact kept.put_unrated first unrated ⟨rfl, rfl, rfl⟩ fun clocked => by cases clocked
  split
  · exact kept.put_unrated first unrated ⟨rfl, rfl, rfl⟩ fun clocked => by cases clocked
  split
  · exact kept.put_unrated first unrated ⟨rfl, rfl, rfl⟩ fun clocked => by cases clocked
  · obtain ⟨srcId, clkRate, vddLevel, client⟩ := call.claimed_fields sinfo.vddCorner
      (sinfo.clkClientTbl (sinfo.findSrcId call.clkSrcId))
    exact kept.put_unrated first unrated ⟨srcId, clkRate, vddLevel⟩ fun _ => client

theorem ClkMgrInfo.Kept.deregister (kept : sinfo.Kept) {id : Nat}
    (steady : (MmrmCall.deregister id).Steady sinfo) : (clkClientDeregister sinfo id).1.Kept := by
  unfold clkClientDeregister
  split
  · exact kept
  rename_i inside
  have lt : id < sinfo.totClkClients := Nat.lt_of_not_le inside
  dsimp only
  split
  · obtain ⟨unloaded, level⟩ := steady lt (by omega)
    constructor
    · exact kept.tidy.put rfl (fun _ => rfl) (absurd rfl) (fun clocked => by cases clocked)
        vddLevelMax_pos fun client => by cases client
    · have highest : ∀ entry : ClientTblEntry, entry.needed = 0 →
          (sinfo.put id entry).highestLevel = sinfo.aggregLevel := by
        intro entry needed
        rw [put_highestLevel lt, needed, level, Nat.max_zero]
      refine ⟨(highest _ rfl).symm, ?_, ?_⟩
      · rw [highest _ rfl, put_totalCurrent lt]
        have total := kept.exact.val
        rw [← kept.exact.level, totalCurrent_eq lt, unloaded] at total
        exact total
      · intro other inside
        by_cases here : other = id
        · rw [here, put_here]
          intro active
          cases active
        · rw [put_other here]
          exact kept.exact.required other inside
  · refine ⟨kept.tidy.put rfl (kept.tidy.idle _) (kept.tidy.clocked _) (kept.tidy.registered _)
      (kept.tidy.levels _) (kept.tidy.found _), ?_⟩
    exact kept.exact.put lt rfl fun _ => ⟨rfl, rfl, rfl, rfl, rfl⟩

end Calls

section Setval

variable {sinfo : ClkMgrInfo} {call : SetvalCall} {reqLevel : Nat}

structure SetvalCall.Requests (call : SetvalCall) (sinfo : ClkMgrInfo) (reqLevel : Nat) : Prop where
  clocked : (sinfo.clkClientTbl call.id).clk.isSome = true
  valid : reqLevel < vddLevelMax
  zero : call.clkVal = 0 → reqLevel = 0
  level : call.clkVal ≠ 0 → ∀ clk, (sinfo.clkClientTbl call.id).clk = some clk →
    getReqLevel sinfo.vddCorner clk (call.newRate sinfo) = .ok reqLevel

theorem SetvalCall.prepare_request (prep : call.prepare sinfo = .request reqLevel) : call.Requests sinfo reqLevel := by
  unfold prepare at prep
  dsimp only at prep
  split at prep
  · cases prep
  cases clock : (sinfo.clkClientTbl call.id).clk with
  | none =>
    rw [clock] at prep
    cases prep
  | some clk =>
    rw [clock] at prep
    dsimp only at prep
    split at prep
    · cases prep
    split at prep
    · cases prep
    split at prep
    · rename_i zero
      cases prep
      exact ⟨by rw [clock]; rfl, vddLevelMax_pos, fun _ => rfl, absurd zero⟩
    · rename_i rate
      cases required : getReqLevel sinfo.vddCorner clk (call.maxRate (sinfo.clkClientTbl call.id)).1 with
      | error rc =>
        rw [required] at prep
        cases prep
      | ok level =>
        rw [required] at prep
        dsimp only at prep
        split at prep
        · cases prep
        rename_i valid
        split at prep
        · cases prep
          refine ⟨by rw [clock]; rfl, Nat.lt_of_not_le valid, fun zero => absurd zero rate, fun _ other same => ?_⟩
          rw [clock] at same
          cases same
          exact required
        · cases prep

theorem getMaxCrmRate_eq_zero {data : ClientData} {clkVal : BitVec 64}
    (whole : clkVal ≠ 0 → (clkVal.setWidth 32 : BitVec 32) ≠ 0)
    (zero : (getMaxCrmRate entry data clkVal).1 = 0) : clkVal = 0 := by
  have cut : (clkVal.setWidth 32 : BitVec 32) = 0 → clkVal = 0 := by
    intro zero
    by_contra rate
    exact whole rate zero
  unfold getMaxCrmRate at zero
  dsimp only at zero
  split at zero
  · exact cut zero
  rename_i lower
  split at zero
  · split at zero
    · exact cut zero
    · rename_i higher
      rw [zero] at higher
      exact absurd (Nat.zero_le _) higher
  · dsimp only at zero
    rw [zero] at lower
    have none : clkVal.toNat = 0 := Nat.eq_zero_of_not_pos lower
    exact BitVec.eq_of_toNat_eq none

theorem SetvalCall.clkVal_eq_zero (whole : call.clkVal ≠ 0 → (call.clkVal.setWidth 32 : BitVec 32) ≠ 0)
    (zero : call.newRate sinfo = 0) : call.clkVal = 0 := by
  have cut := (cut_eq_zero sinfo 0 whole).mpr zero
  unfold peakRequest maxRate at cut
  split at cut
  · rw [BitVec.setWidth_setWidth_of_le _ (by decide)] at cut
    exact getMaxCrmRate_eq_zero whole cut
  · by_contra rate
    exact whole rate cut

theorem SetvalCall.record_fields (requests : call.Requests sinfo reqLevel)
    (whole : call.clkVal ≠ 0 → (call.clkVal.setWidth 32 : BitVec 32) ≠ 0) :
    (call.record (call.maxRate (sinfo.clkClientTbl call.id)) reqLevel (sinfo.clkClientTbl call.id)).needed = reqLevel ∧
      ∀ level, (call.record (call.maxRate (sinfo.clkClientTbl call.id)) reqLevel
        (sinfo.clkClientTbl call.id)).load level = call.newLoad sinfo reqLevel level := by
  have active : (call.record (call.maxRate (sinfo.clkClientTbl call.id)) reqLevel
      (sinfo.clkClientTbl call.id)).isActive = decide (call.newRate sinfo ≠ 0) := by
    unfold isActive
    rw [show (call.record (call.maxRate (sinfo.clkClientTbl call.id)) reqLevel
      (sinfo.clkClientTbl call.id)).clk.isSome = true from requests.clocked]
    rfl
  constructor
  · unfold needed
    rw [active]
    split
    · rfl
    · rename_i idle
      rw [decide_eq_true_eq, not_not] at idle
      exact (requests.zero (clkVal_eq_zero whole idle)).symm
  · intro level
    unfold load newLoad
    rw [active]
    by_cases idle : call.newRate sinfo = 0
    · rw [if_neg (by simp [idle]), if_neg (by simp [idle])]
    · rw [if_pos (decide_eq_true idle), if_pos idle]
      rfl

theorem SetvalCall.Requests.required (requests : call.Requests sinfo reqLevel)
    (steady : call.Steady sinfo reqLevel) (rate : call.newRate sinfo ≠ 0) :
    ∃ clk, (sinfo.clkClientTbl call.id).clk = some clk ∧
      getReqLevel sinfo.vddCorner clk (call.newRate sinfo) = .ok reqLevel := by
  obtain ⟨clk, clock⟩ := Option.isSome_iff_exists.mp requests.clocked
  refine ⟨clk, clock, ?_⟩
  by_cases zero : call.clkVal = 0
  · rw [requests.zero zero]
    exact steady.zeroVote zero rate clk clock
  · exact requests.level zero clk clock

/-- A request is recorded in a table where the others need the level that it was checked for. -/
theorem ClkMgrInfo.Tidy.recorded {checked : ClkMgrInfo} (tidy : checked.Tidy)
    (requests : call.Requests sinfo reqLevel) (steady : call.Steady sinfo reqLevel)
    (corner : checked.vddCorner = sinfo.vddCorner) (entry : checked.clkClientTbl call.id = sinfo.clkClientTbl call.id)
    (required : ∀ id < checked.totClkClients, (checked.clkClientTbl id).isActive = true →
      ∃ clk, (checked.clkClientTbl id).clk = some clk ∧
        getReqLevel checked.vddCorner clk (checked.clkClientTbl id).clkRate = .ok (checked.clkClientTbl id).vddLevel)
    (level : checked.aggregLevel = max reqLevel (checked.othersLevel call.id))
    (val : checked.aggregVal.toNat = checked.othersCurrent call.id checked.aggregLevel +
      call.newLoad sinfo reqLevel checked.aggregLevel) :
    (checked.put call.id (call.record (call.maxRate (sinfo.clkClientTbl call.id)) reqLevel
      (checked.clkClientTbl call.id))).Kept := by
  obtain ⟨needed, load⟩ := record_fields requests steady.whole
  have reg := tidy.registered call.id (by rw [entry]; exact requests.clocked)
  have found := tidy.found call.id reg
  rw [entry]
  constructor
  · refine tidy.put (by rw [entry]; rfl) (fun zero => ?_) (fun _ => requests.clocked) (fun _ => ?_)
      requests.valid fun _ => found
    · exact requests.zero (clkVal_eq_zero steady.whole zero)
    · rw [entry] at reg
      exact reg
  · refine ⟨?_, ?_, ?_⟩
    · rw [put_highestLevel found.1, needed, max_comm]
      exact level
    · rw [put_highestLevel found.1, needed, put_totalCurrent found.1, load, max_comm, ← level]
      exact val
    · intro other inside
      by_cases here : other = call.id
      · subst here
        rw [put_here]
        intro active
        have rate : call.newRate sinfo ≠ 0 := by
          intro zero
          rw [inactive_of_rate zero] at active
          cases active
        obtain ⟨clk, clock, same⟩ := requests.required steady rate
        refine ⟨clk, clock, ?_⟩
        rw [show (checked.put call.id _).vddCorner = sinfo.vddCorner from corner]
        exact same
      · rw [put_other here]
        exact required other inside

end Setval

section Throttled

variable {sinfo checked : ClkMgrInfo} {call : SetvalCall} {reqLevel id : Nat}

theorem ClkMgrInfo.Tidy.congr (tidy : sinfo.Tidy) (tbl : checked.clkClientTbl = sinfo.clkClientTbl)
    (count : checked.totClkClients = sinfo.totClkClients) : checked.Tidy := by
  have findSrcId : checked.findSrcId = sinfo.findSrcId := by
    unfold findSrcId
    rw [tbl, count]
  obtain ⟨idle, clocked, reg, levels, found⟩ := tidy
  rw [← tbl] at idle clocked reg levels found
  rw [← count, ← findSrcId] at found
  exact ⟨idle, clocked, reg, levels, found⟩

section

variable (tbl : checked.clkClientTbl = sinfo.clkClientTbl)
  (count : checked.totClkClients = sinfo.totClkClients)
include tbl count

theorem ClkMgrInfo.othersLevel_congr : checked.othersLevel = sinfo.othersLevel := by
  unfold othersLevel
  rw [tbl, count]

theorem ClkMgrInfo.othersCurrent_congr : checked.othersCurrent = sinfo.othersCurrent := by
  unfold othersCurrent
  rw [tbl, count]

end

theorem ClkMgrInfo.Tidy.worth_rated (tidy : sinfo.Tidy) (worth : worthThrottling sinfo id deltaCur = true) :
    (sinfo.clkClientTbl id).clkRate ≠ 0 := by
  intro idle
  have lowest : nowCurMa sinfo id = minCurMa sinfo id := by
    unfold nowCurMa
    rw [tidy.idle id idle]
    rfl
  unfold worthThrottling at worth
  rw [lowest] at worth
  simp at worth

theorem ClkMgrInfo.Tidy.throttled (tidy : sinfo.Tidy) (rated : (sinfo.clkClientTbl id).clkRate ≠ 0) :
    (sinfo.put id (sinfo.clkClientTbl id).throttled).Tidy := by
  have clocked := tidy.clocked id rated
  have reg := tidy.registered id clocked
  exact tidy.put rfl (fun _ => rfl) (fun _ => clocked) (fun _ => reg) vddLevelMax_pos fun _ => tidy.found id reg

section

variable (exactly : ThrottlesExactly sinfo call reqLevel id)
include exactly

theorem ThrottlesExactly.othersCurrent (lt : id < sinfo.totClkClients) :
    sinfo.othersCurrent call.id (call.neededLevel sinfo reqLevel) =
      (sinfo.put id (sinfo.clkClientTbl id).throttled).othersCurrent call.id
        (call.neededLevel sinfo reqLevel) + (nowCurMa sinfo id - minCurMa sinfo id).toNat := by
  have before := sum_others (giveOthers call.id fun _ entry =>
    load entry (call.neededLevel sinfo reqLevel)) sinfo.clkClientTbl lt
  have after := sum_update (giveOthers call.id fun _ entry =>
    load entry (call.neededLevel sinfo reqLevel)) sinfo.clkClientTbl
    (sinfo.clkClientTbl id).throttled lt
  have others : ∀ entry, giveOthers call.id (fun _ entry =>
      load entry (call.neededLevel sinfo reqLevel)) id entry =
        entry.load (call.neededLevel sinfo reqLevel) := fun entry => if_neg exactly.other
  rw [others] at before after
  have saved := exactly.saved
  calc sinfo.othersCurrent call.id (call.neededLevel sinfo reqLevel)
    _ = _ + (sinfo.clkClientTbl id).load (call.neededLevel sinfo reqLevel) := before
    _ = _ + (sinfo.clkClientTbl id).throttled.load (call.neededLevel sinfo reqLevel) +
        (nowCurMa sinfo id - minCurMa sinfo id).toNat := by rw [saved, add_assoc]
    _ = _ := congrArg (· + (nowCurMa sinfo id - minCurMa sinfo id).toNat) after.symm

theorem ThrottlesExactly.newLoad : call.newLoad (sinfo.put id (sinfo.clkClientTbl id).throttled) reqLevel =
      call.newLoad sinfo reqLevel := by
  unfold SetvalCall.newLoad SetvalCall.newRate
  rw [ClkMgrInfo.put_other exactly.other.symm]

theorem ThrottlesExactly.neededCurrent (lt : id < sinfo.totClkClients) : call.neededCurrent sinfo reqLevel =
      call.neededCurrent (sinfo.put id (sinfo.clkClientTbl id).throttled) reqLevel +
        (nowCurMa sinfo id - minCurMa sinfo id).toNat := by
  have saved := exactly.othersCurrent lt
  unfold SetvalCall.neededCurrent
  rw [exactly.level, exactly.newLoad]
  omega

theorem ThrottlesExactly.aggregVal (lt : id < sinfo.totClkClients)
    (small : call.neededCurrent sinfo reqLevel < 2147483648) :
    (BitVec.ofNat 32 (call.neededCurrent sinfo reqLevel) - sinfo.savedCurMa (some id)).toNat =
      call.neededCurrent (sinfo.put id (sinfo.clkClientTbl id).throttled) reqLevel := by
  have needed := exactly.neededCurrent lt
  rw [show sinfo.savedCurMa (some id) = nowCurMa sinfo id - minCurMa sinfo id from rfl,
    BitVec.toNat_sub_of_le, BitVec.toNat_ofNat]
  · omega
  · rw [BitVec.le_def, BitVec.toNat_ofNat]
    omega

theorem ThrottlesExactly.allRequired (tidy : sinfo.Tidy) (exact : sinfo.Exact)
    (rated : (sinfo.clkClientTbl id).clkRate ≠ 0) {other : Nat} (lt : other < sinfo.totClkClients)
    (active : ((sinfo.put id (sinfo.clkClientTbl id).throttled).clkClientTbl other).isActive = true) :
    ∃ clk, ((sinfo.put id (sinfo.clkClientTbl id).throttled).clkClientTbl other).clk = some clk ∧
      getReqLevel sinfo.vddCorner clk ((sinfo.put id (sinfo.clkClientTbl id).throttled).clkClientTbl other).clkRate =
        .ok ((sinfo.put id (sinfo.clkClientTbl id).throttled).clkClientTbl other).vddLevel := by
  by_cases here : other = id
  · subst here
    rw [put_here]
    obtain ⟨clk, clock⟩ := Option.isSome_iff_exists.mp (tidy.clocked other rated)
    exact ⟨clk, clock, exactly.required clk clock⟩
  · rw [put_other here] at active ⊢
    exact exact.required other lt active

end

theorem SetvalCall.Accepted.kept {throttled : Option Nat} (kept : sinfo.Kept)
    (requests : call.Requests sinfo reqLevel) (steady : call.Steady sinfo reqLevel)
    (ok : call.Accepted sinfo reqLevel throttled checked)
    (worth : ∀ id, throttled = some id → (sinfo.clkClientTbl id).clkRate ≠ 0) :
    (checked.put call.id (call.record (call.maxRate (sinfo.clkClientTbl call.id)) reqLevel
      (checked.clkClientTbl call.id))).Kept := by
  obtain ⟨⟨tbl, corner, count, -⟩, val, level, fits⟩ := ok
  have small := steady.current
  cases throttled with
  | none =>
    have othersLevel := othersLevel_congr tbl count
    have othersCurrent := othersCurrent_congr tbl count
    refine (kept.tidy.congr tbl count).recorded requests steady corner (congrFun tbl _) ?_ ?_ ?_
    · rw [tbl, count, corner]
      exact kept.exact.required
    · rw [level, othersLevel]
      rfl
    · rw [val, level, othersCurrent, show sinfo.savedCurMa none = 0#32 from rfl, BitVec.sub_zero,
        BitVec.toNat_ofNat, Nat.mod_eq_of_lt (by omega)]
      rfl
  | some id =>
    have rated := worth id rfl
    have exactly : ThrottlesExactly sinfo call reqLevel id := by
      rcases fits with ⟨may, chosen, -⟩ | ⟨none, -⟩
      · exact steady.throttle may id chosen.symm
      · cases none
    have reg := kept.tidy.registered id (kept.tidy.clocked id rated)
    have lt := (kept.tidy.found id reg).1
    have place : (sinfo.put id (sinfo.clkClientTbl id).throttled).clkClientTbl = sinfo.afterThrottling (some id) := rfl
    rw [← place] at tbl
    have othersLevel := othersLevel_congr tbl count
    have othersCurrent := othersCurrent_congr tbl count
    refine ((kept.tidy.throttled rated).congr tbl count).recorded requests steady corner ?_ ?_ ?_ ?_
    · rw [tbl, put_other exactly.other.symm]
    · rw [tbl, count, corner]
      exact fun other inside => exactly.allRequired kept.tidy kept.exact rated inside
    · rw [level, othersLevel]
      exact exactly.level.symm
    · rw [val, exactly.aggregVal lt small, level, othersCurrent, ← exactly.newLoad, ← exactly.level]
      rfl

end Throttled

section Runs

variable {sinfo : ClkMgrInfo}

theorem SetvalCall.prepare_within {call : SetvalCall} (prep : call.prepare sinfo ≠ .rejected) :
    call.id < sinfo.totClkClients := by
  by_contra outside
  apply prep
  exact if_pos (Nat.le_of_not_lt outside)

section

variable {call : SetvalCall} (kept : sinfo.Kept) (steady : (MmrmCall.setval call).Steady sinfo)
include kept steady

theorem clkClientSetval_outcome : (clkClientSetval sinfo call).1 = sinfo ∨
      call.id < sinfo.totClkClients ∧ (∃ reserve, (clkClientSetval sinfo call).1 =
        sinfo.put call.id { sinfo.clkClientTbl call.id with reserve := reserve }) ∨
      ∃ reqLevel throttled checked, call.prepare sinfo = .request reqLevel ∧
        call.Accepted sinfo reqLevel throttled checked ∧ (clkClientSetval sinfo call).1 = checked.put call.id
          (call.record (call.maxRate (sinfo.clkClientTbl call.id)) reqLevel (checked.clkClientTbl call.id)) := by
  unfold clkClientSetval
  cases prep : call.prepare sinfo with
  | rejected => exact .inl rfl
  | sameRate =>
    dsimp only
    split
    · exact .inl rfl
    · refine .inr (.inl ⟨prepare_within fun rejected => ?_, _, rfl⟩)
      rw [prep] at rejected
      cases rejected
  | request reqLevel =>
    have requests := prepare_request prep
    have reg := kept.tidy.registered call.id requests.clocked
    dsimp only
    rcases checkPeakCurrent_outcome kept.tidy kept.exact reg requests.valid
        (steady reqLevel prep) with ⟨failed, same⟩ | ⟨success, throttled, ok⟩
    · rw [if_pos failed]
      exact .inl same
    · rw [if_neg (not_not.mpr success)]
      exact .inr (.inr ⟨reqLevel, throttled, _, rfl, ok, rfl⟩)

theorem ClkMgrInfo.Kept.setval : (clkClientSetval sinfo call).1.Kept := by
  rcases clkClientSetval_outcome kept steady with
    same | ⟨lt, reserve, changed⟩ | ⟨reqLevel, throttled, checked, prep, ok, recorded⟩
  · rw [same]
    exact kept
  · rw [changed]
    exact ⟨kept.tidy.put rfl (kept.tidy.idle _) (kept.tidy.clocked _) (kept.tidy.registered _)
        (kept.tidy.levels _) (kept.tidy.found _),
      kept.exact.put lt rfl fun _ => ⟨rfl, rfl, rfl, rfl, rfl⟩⟩
  rw [recorded]
  refine ok.kept kept (prepare_request prep) (steady reqLevel prep) ?_
  intro id chosen
  rcases ok.fits with ⟨-, throttles, -⟩ | ⟨none, -⟩
  · rw [chosen] at throttles
    exact kept.tidy.worth_rated ((throttleLoop_spec ..).1 id throttles.symm)
  · rw [chosen] at none
    cases none

end

theorem MmrmCall.Steady.kept (kept : sinfo.Kept) {call : MmrmCall} (steady : call.Steady sinfo) :
    (call.perform sinfo).Kept := by
  cases call with
  | register call => exact kept.register call
  | setval call => exact kept.setval steady
  | deregister id => exact kept.deregister steady

theorem initSwClkMgr_kept (vddCorner : Nat → Int) (threshold : BitVec 32)
    (nomClkSet : List (BitVec 32 × BitVec 32)) (clsids : List (BitVec 32)) :
    (initSwClkMgr vddCorner threshold nomClkSet clsids).Kept where
  tidy := {
    idle := fun _ _ => rfl
    clocked := fun _ rate => absurd rfl rate
    registered := fun _ clocked => by cases clocked
    levels := fun _ => vddLevelMax_pos
    found := fun _ client => by cases client }
  exact := {
    level := by
      apply Eq.symm
      apply Nat.eq_zero_of_le_zero
      exact Finset.sup_le fun _ _ => le_refl 0
    val := by
      apply Eq.symm
      exact Finset.sum_eq_zero fun _ _ => rfl
    required := fun _ _ active => by cases active }

/-- In every run of calls that the peak data follows, it is exact after every call. -/
theorem aggregate_exact {vddCorner : Nat → Int} {threshold : BitVec 32}
    {nomClkSet : List (BitVec 32 × BitVec 32)} {clsids : List (BitVec 32)} {calls : List MmrmCall}
    (steady : Throughout (fun sinfo call => call.Steady sinfo)
      (initSwClkMgr vddCorner threshold nomClkSet clsids) calls) :
    Throughout (fun sinfo call => (call.perform sinfo).Exact)
      (initSwClkMgr vddCorner threshold nomClkSet clsids) calls := by
  have general : ∀ sinfo : ClkMgrInfo, sinfo.Kept → Throughout (fun sinfo call => call.Steady sinfo) sinfo calls →
        Throughout (fun sinfo call => (call.perform sinfo).Exact) sinfo calls := by
    clear steady
    induction calls with
    | nil => exact fun _ _ _ => trivial
    | cons call rest ih =>
      rintro sinfo kept ⟨here, later⟩
      have next := here.kept kept
      exact ⟨next.exact, ih _ next later⟩
  exact general _ (initSwClkMgr_kept ..) steady

def corners (level : Nat) : Int := [64, 128, 192, 256, 384].getD level 0

def threeRates : Clock where
  roundRate := fun rate => if rate.toNat ≤ 100 then 100 else if rate.toNat ≤ 300 then 300 else 400
  getVoltage := fun rate => if rate.toNat ≤ 100 then 128 else if rate.toNat ≤ 300 then 256 else 384

def registration (clkSrcId : BitVec 32) (priHigh : Bool) : MmrmCall :=
  .register {
    clkSrcId := clkSrcId
    clk := some threeRates
    hwDrvInstances := 0
    numPwrStates := 0
    priHigh := priHigh
    notifier := false
    currentMa := fun _ level _ => BitVec.ofNat 32 (10 * (level + 1))
    clientAllocated := true
    votesAllocated := true
    allowMultipleRegister := false }

def rateRequest (id : Nat) (clkVal : BitVec 64) : SetvalCall where
  id := id
  data := { reserveOnly := false, numHwBlocks := 1, crmDrvIdx := 0, pwrSt := 0, crmSwDrv := false }
  clkVal := clkVal
  enableThrottle := true
  answers := fun _ => { notified := 0, rateSet := 0, allocated := true }
  rateSet := 0

theorem first_steady (priHigh : Bool) : (rateRequest 0 300).Steady ((registration 1 priHigh).perform
        (initSwClkMgr corners 100 [(1, 4)] [])) 3 ∧ ¬ (rateRequest 0 300).MayThrottle ((registration 1 priHigh).perform
        (initSwClkMgr corners 100 [(1, 4)] [])) 3 := by
  have low : ¬ (rateRequest 0 300).MayThrottle ((registration 1 priHigh).perform
      (initSwClkMgr corners 100 [(1, 4)] [])) 3 := by
    intro may
    exact absurd may.1 (by cases priHigh <;> decide +kernel)
  exact ⟨{
    whole := fun _ => by decide
    zeroVote := fun zero => absurd zero (by decide)
    scan := fun lower => absurd lower (by cases priHigh <;> decide +kernel)
    current := by cases priHigh <;> decide +kernel
    throttle := fun may => absurd may low }, low⟩

theorem aggregate_exact_first : Throughout (fun sinfo call => (call.perform sinfo).Exact)
      (initSwClkMgr corners 100 [(1, 4)] []) [registration 1 false, .setval (rateRequest 0 300)] := by
  refine aggregate_exact ⟨trivial, fun reqLevel prepared => ?_, trivial⟩
  cases prepared
  exact (first_steady false).1

/-- Clients at the levels TURBO, NOM and SVS, of which the first one stops. -/
theorem aggregate_level_missed : ¬ ∀ vddCorner threshold nomClkSet clsids calls,
      Throughout (fun sinfo call => (call.perform sinfo).Exact)
        (initSwClkMgr vddCorner threshold nomClkSet clsids) calls := by
  intro always
  obtain ⟨-, -, -, -, -, -, last, -⟩ := always corners 1000 [(1, 4), (2, 4), (3, 4)] []
    [registration 1 false, registration 2 false, registration 3 false,
      .setval (rateRequest 0 400), .setval (rateRequest 1 300), .setval (rateRequest 2 100),
      .setval (rateRequest 0 0)]
  exact absurd last.level (by decide +kernel)

end Runs

end KernelModules.Mmrm

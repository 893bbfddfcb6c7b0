import KernelModules.Mmrm.Calls

namespace KernelModules.Mmrm

open BitVec hiding and_assoc not_not
open Data List

/-- Only registered clients with a clock have a rate, one without needs the lowest level, and a registered client is
the first entry with its identifier. -/
structure ClkMgrInfo.Tidy (sinfo : ClkMgrInfo) : Prop where
  idle : ∀ id, (sinfo.clkClientTbl id).clkRate = 0 → (sinfo.clkClientTbl id).vddLevel = 0
  clocked : ∀ id, (sinfo.clkClientTbl id).clkRate ≠ 0 → (sinfo.clkClientTbl id).clk.isSome = true
  registered : ∀ id, (sinfo.clkClientTbl id).clk.isSome = true → (sinfo.clkClientTbl id).client = true
  levels : ∀ id, (sinfo.clkClientTbl id).vddLevel < vddLevelMax
  found : ∀ id, (sinfo.clkClientTbl id).client = true →
    id < sinfo.totClkClients ∧ sinfo.findSrcId (sinfo.clkClientTbl id).clkSrcId = id

open ClkMgrInfo hiding threshold

theorem eInval_ne_zero : eInval ≠ 0 := by decide

section Tidy

variable {sinfo : ClkMgrInfo}

theorem ClkMgrInfo.Tidy.active_iff (tidy : sinfo.Tidy) (id : Nat) :
    (sinfo.clkClientTbl id).isActive = true ↔ (sinfo.clkClientTbl id).clkRate ≠ 0 := by
  unfold ClientTblEntry.isActive
  constructor
  · intro active
    simp at active
    exact active.2
  · intro rate
    rw [tidy.clocked id rate]
    exact decide_eq_true rate

theorem ClkMgrInfo.Tidy.own_srcId (tidy : sinfo.Tidy) {id : Nat}
    (reg : (sinfo.clkClientTbl id).client = true) (active : (sinfo.clkClientTbl other).isActive = true) :
    (sinfo.clkClientTbl other).clkSrcId = (sinfo.clkClientTbl id).clkSrcId ↔ other = id := by
  constructor
  · intro same
    have first := (tidy.found id reg).2
    have clocked := tidy.clocked other ((tidy.active_iff other).mp active)
    have second := (tidy.found other (tidy.registered other clocked)).2
    rw [← second, ← first, same]
  · intro same
    rw [same]

end Tidy

section Scan

variable {sinfo : ClkMgrInfo} {id reqLevel : Nat}

def ClkMgrInfo.atAggreg (sinfo : ClkMgrInfo) (id other : Nat) : Bool :=
  decide (other ≠ id) && (sinfo.clkClientTbl other).isActive &&
    decide ((sinfo.clkClientTbl other).vddLevel = sinfo.aggregLevel)

def ClkMgrInfo.between (sinfo : ClkMgrInfo) (id reqLevel other : Nat) : Bool :=
  decide (other ≠ id) && (sinfo.clkClientTbl other).isActive &&
    decide (reqLevel < (sinfo.clkClientTbl other).vddLevel) &&
    decide ((sinfo.clkClientTbl other).vddLevel < sinfo.aggregLevel)

theorem scanLevels_eq (tidy : sinfo.Tidy) (reg : (sinfo.clkClientTbl id).client = true)
    (reqLevel : Nat) (ids : List Nat) (next : Option Nat) :
    scanLevels (sinfo.clkClientTbl id).clkSrcId reqLevel sinfo.aggregLevel (ids.map sinfo.clkClientTbl) next =
      if ids.any (sinfo.atAggreg id) then .atAggregLevel else
        .passed (((ids.filter (sinfo.between id reqLevel)).getLast?.map fun other =>
          (sinfo.clkClientTbl other).vddLevel).or next) := by
  induction ids generalizing next with
  | nil => simp [scanLevels]
  | cons here rest ih =>
    rw [map_cons, any_cons, filter_cons]
    unfold scanLevels
    rw [ih, ih]
    cases active : (sinfo.clkClientTbl here).isActive with
    | false => simp [atAggreg, between, active]
    | true =>
      have own := tidy.own_srcId reg active
      by_cases same : here = id
      · simp [atAggreg, between, same]
      by_cases top : (sinfo.clkClientTbl here).vddLevel = sinfo.aggregLevel
      · simp [atAggreg, active, own, same, top]
      have passes : sinfo.atAggreg id here = false := by
        simp [atAggreg, top]
      have inside : sinfo.between id reqLevel here = decide ((sinfo.clkClientTbl here).vddLevel < sinfo.aggregLevel ∧
            reqLevel < (sinfo.clkClientTbl here).vddLevel) := by
        simp [between, same, active, Bool.and_comm]
      have counted : (!true || decide ((sinfo.clkClientTbl here).clkSrcId =
          (sinfo.clkClientTbl id).clkSrcId)) = false := by
        simp [own, same]
      rw [counted, if_neg (by decide), if_neg top, passes, Bool.false_or, inside]
      split
      · rename_i chosen
        rw [if_pos (decide_eq_true chosen), getLast?_cons]
        cases last : (rest.filter (sinfo.between id reqLevel)).getLast? <;> rfl
      · rename_i skipped
        rw [decide_eq_false skipped, if_neg Bool.false_ne_true]

theorem ClkMgrInfo.othersLevel_le : sinfo.othersLevel id ≤ bound ↔
      ∀ other < sinfo.totClkClients, other ≠ id → (sinfo.clkClientTbl other).isActive = true →
        (sinfo.clkClientTbl other).vddLevel ≤ bound := by
  unfold othersLevel giveOthers ClientTblEntry.needed
  rw [Finset.sup_le_iff]
  constructor
  · intro all other lt apart active
    have here := all other (Finset.mem_range.mpr lt)
    dsimp only at here
    rw [if_neg apart, if_pos active] at here
    exact here
  · intro all other among
    split
    · exact Nat.zero_le _
    · rename_i apart
      dsimp only
      split
      · exact all other (Finset.mem_range.mp among) apart ‹_›
      · exact Nat.zero_le _

theorem ClkMgrInfo.othersLevel_attained (pos : 0 < sinfo.othersLevel id) :
    ∃ other < sinfo.totClkClients, other ≠ id ∧ (sinfo.clkClientTbl other).isActive = true ∧
      (sinfo.clkClientTbl other).vddLevel = sinfo.othersLevel id := by
  by_contra none
  have lower : sinfo.othersLevel id ≤ sinfo.othersLevel id - 1 := by
    apply othersLevel_le.mpr
    intro other lt apart active
    have most := othersLevel_le.mp (le_refl (sinfo.othersLevel id)) other lt apart active
    have differs : (sinfo.clkClientTbl other).vddLevel ≠ sinfo.othersLevel id :=
      fun same => none ⟨other, lt, apart, active, same⟩
    omega
  omega

theorem ClkMgrInfo.highestLevel_eq (lt : id < sinfo.totClkClients) :
    sinfo.highestLevel = max (sinfo.othersLevel id) (sinfo.clkClientTbl id).needed :=
  sup_others (fun _ entry => ClientTblEntry.needed entry) sinfo.clkClientTbl lt

theorem ClkMgrInfo.totalCurrent_eq (lt : id < sinfo.totClkClients) (level : Nat) :
    sinfo.totalCurrent level = sinfo.othersCurrent id level + (sinfo.clkClientTbl id).load level :=
  sum_others (fun _ entry => ClientTblEntry.load entry level) sinfo.clkClientTbl lt

theorem checkReqLevel_needed (tidy : sinfo.Tidy) (reg : (sinfo.clkClientTbl id).client = true)
    (level : sinfo.aggregLevel = sinfo.highestLevel) (valid : reqLevel < vddLevelMax)
    (scan : reqLevel < sinfo.aggregLevel → sinfo.othersLevel id < sinfo.aggregLevel → sinfo.LastHighest id reqLevel) :
    checkReqLevel sinfo (sinfo.clkClientTbl id).clkSrcId reqLevel = .ok (max reqLevel (sinfo.othersLevel id)) := by
  have lt := (tidy.found id reg).1
  have below : sinfo.othersLevel id ≤ sinfo.aggregLevel := by
    rw [level, highestLevel_eq lt]
    exact le_max_left _ _
  unfold checkReqLevel
  rw [if_neg (Nat.not_le_of_lt valid)]
  split
  · rename_i lower
    have scanned := scanLevels_eq tidy reg reqLevel (List.range sinfo.totClkClients) none
    unfold entries
    rw [scanned]
    by_cases top : (List.range sinfo.totClkClients).any (sinfo.atAggreg id) = true
    · rw [if_pos top]
      obtain ⟨other, among, counted⟩ := any_eq_true.mp top
      obtain ⟨apart, active, same⟩ : other ≠ id ∧ (sinfo.clkClientTbl other).isActive = true ∧
          (sinfo.clkClientTbl other).vddLevel = sinfo.aggregLevel := by
        simpa [atAggreg, and_assoc] using counted
      have most := othersLevel_le.mp (le_refl (sinfo.othersLevel id)) other (mem_range.mp among) apart active
      rw [max_eq_right (by omega)]
      exact congrArg Except.ok (by omega : sinfo.aggregLevel = sinfo.othersLevel id)
    · rw [if_neg top]
      have short : sinfo.othersLevel id < sinfo.aggregLevel := by
        apply lt_of_le_of_ne below
        intro same
        obtain ⟨other, lt, apart, active, attained⟩ :=
          othersLevel_attained (by omega : 0 < sinfo.othersLevel id)
        apply top
        apply any_eq_true.mpr
        exact ⟨other, mem_range.mpr lt, by
          simp [atAggreg, apart, active, attained, same]⟩
      have between_iff : ∀ other, other < sinfo.totClkClients →
          (sinfo.between id reqLevel other = true ↔ sinfo.Above id reqLevel other) := by
        intro other lt
        unfold between
        simp only [Bool.and_eq_true, decide_eq_true_eq]
        constructor
        · rintro ⟨⟨⟨apart, active⟩, above⟩, -⟩
          exact ⟨lt, apart, active, above⟩
        · rintro ⟨-, apart, active, above⟩
          have most := othersLevel_le.mp (le_refl (sinfo.othersLevel id)) other lt apart active
          exact ⟨⟨⟨apart, active⟩, above⟩, by omega⟩
      have listed_iff : ∀ other, other ∈ (List.range sinfo.totClkClients).filter
          (sinfo.between id reqLevel) ↔ sinfo.Above id reqLevel other := by
        intro other
        rw [mem_filter, mem_range]
        constructor
        · rintro ⟨lt, inside⟩
          exact (between_iff other lt).mp inside
        · intro above
          exact ⟨above.1, (between_iff other above.1).mpr above⟩
      cases found : ((List.range sinfo.totClkClients).filter (sinfo.between id reqLevel)).getLast? with
      | none =>
        have empty := getLast?_eq_none_iff.mp found
        have low : sinfo.othersLevel id ≤ reqLevel := by
          apply othersLevel_le.mpr
          intro other lt apart active
          by_contra above
          have mem := (listed_iff other).mpr ⟨lt, apart, active, by omega⟩
          rw [empty] at mem
          cases mem
        rw [max_eq_left low]
        rfl
      | some last =>
        obtain ⟨front, split⟩ := getLast?_eq_some_iff.mp found
        have above : sinfo.Above id reqLevel last := by
          apply (listed_iff last).mp
          rw [split]
          simp
        have highest := scan lower short last above fun later after more => by
          have mem := (listed_iff later).mpr more
          have ordered := (pairwise_lt_range (n := sinfo.totClkClients)).filter (sinfo.between id reqLevel)
          rw [split] at ordered mem
          rcases mem_append.mp mem with before | here
          · have less := (pairwise_append.mp ordered).2.2 later before last (mem_singleton_self last)
            omega
          · have same := mem_singleton.mp here
            omega
        have higher := above.2.2.2
        rw [max_eq_right (by omega)]
        exact (congrArg Except.ok (if_pos higher)).trans (congrArg Except.ok highest)
  · rw [max_eq_left (by omega)]

end Scan

theorem ClientTblEntry.curAt_eq {entry : ClientTblEntry} (active : entry.isActive = true)
    (level : Nat) : entry.curAt level = BitVec.ofNat 32 (entry.load level) := by
  unfold ClientTblEntry.curAt ClientTblEntry.load
  rw [if_pos active]
  apply eq_of_toNat_eq
  rw [toNat_mul, toNat_ofNat]

theorem ClientTblEntry.load_inactive {entry : ClientTblEntry} (inactive : entry.isActive = false)
    (level : Nat) : entry.load level = 0 := by
  unfold ClientTblEntry.load
  rw [inactive]
  rfl

theorem calculateTotalCurrent_others {id : Nat} (valid : level < vddLevelMax) :
    calculateTotalCurrent sinfo level id = .ok (BitVec.ofNat 32 (sinfo.othersCurrent id level)) := by
  unfold calculateTotalCurrent othersCurrent
  rw [if_neg (Nat.not_le_of_lt valid)]
  apply congrArg Except.ok
  induction sinfo.totClkClients with
  | zero => rfl
  | succ count ih =>
    rw [range_succ, foldl_append, foldl_cons, foldl_nil, ih, Finset.sum_range_succ]
    unfold giveOthers
    dsimp only
    cases active : (sinfo.clkClientTbl count).isActive with
    | false =>
      rw [ClientTblEntry.load_inactive active]
      simp
    | true =>
      by_cases same : count = id
      · simp [same]
      · rw [if_neg (by simp [same]), if_neg same, ClientTblEntry.curAt_eq active, ofNat_add]

section Peak

variable {call : SetvalCall}

theorem SetvalCall.cut_eq_zero (sinfo : ClkMgrInfo) (reqLevel : Nat)
    (whole : call.clkVal ≠ 0 → (call.clkVal.setWidth 32 : BitVec 32) ≠ 0) :
    (call.peakRequest sinfo reqLevel).clkVal = 0 ↔ call.newRate sinfo = 0 := by
  unfold SetvalCall.peakRequest SetvalCall.newRate SetvalCall.maxRate
  cases (sinfo.clkClientTbl call.id).isCrmClient with
  | false =>
    constructor
    · intro cut
      by_contra rate
      exact whole rate cut
    · intro rate
      rw [rate]
      rfl
  | true =>
    simp only [if_true]
    constructor
    · intro cut
      rw [setWidth_setWidth_of_le _ (by decide), setWidth_eq] at cut
      rw [cut]
      rfl
    · intro rate
      rw [rate]
      rfl

theorem SetvalCall.neededLevel_lt (tidy : sinfo.Tidy) (valid : reqLevel < vddLevelMax) :
    call.neededLevel sinfo reqLevel < vddLevelMax := by
  apply max_lt valid
  apply Nat.lt_of_le_pred (by decide)
  apply othersLevel_le.mpr
  intro other _ _ _
  exact Nat.le_pred_of_lt (tidy.levels other)

theorem SetvalCall.newCur_eq (sinfo : ClkMgrInfo) (reqLevel : Nat)
    (whole : call.clkVal ≠ 0 → (call.clkVal.setWidth 32 : BitVec 32) ≠ 0) (level : Nat) :
    (call.peakRequest sinfo reqLevel).newCur sinfo level = BitVec.ofNat 32 (call.newLoad sinfo reqLevel level) := by
  have cut := SetvalCall.cut_eq_zero sinfo reqLevel whole
  unfold PeakRequest.newCur SetvalCall.newLoad
  by_cases zero : call.newRate sinfo = 0
  · rw [if_neg (not_not.mpr (cut.mpr zero)), if_neg (not_not.mpr zero)]
    rfl
  · rw [if_pos (fun no => zero (cut.mp no)), if_pos zero]
    apply eq_of_toNat_eq
    rfl

theorem SetvalCall.oldCur_eq (tidy : sinfo.Tidy) : (call.peakRequest sinfo reqLevel).oldCur sinfo =
      BitVec.ofNat 32 ((sinfo.clkClientTbl call.id).load sinfo.aggregLevel) := by
  have active := tidy.active_iff call.id
  by_cases idle : (sinfo.clkClientTbl call.id).clkRate = 0
  · have inactive : (sinfo.clkClientTbl call.id).isActive = false := by
      cases known : (sinfo.clkClientTbl call.id).isActive with
      | false => rfl
      | true => exact absurd idle (active.mp known)
    rw [ClientTblEntry.load_inactive inactive]
    exact if_neg (not_not.mpr idle)
  · rw [← ClientTblEntry.curAt_eq (active.mpr idle)]
    exact if_pos idle

theorem peakAndDelta_needed (tidy : sinfo.Tidy) (exact : sinfo.Exact)
    (lt : call.id < sinfo.totClkClients) (valid : reqLevel < vddLevelMax)
    (whole : call.clkVal ≠ 0 → (call.clkVal.setWidth 32 : BitVec 32) ≠ 0) :
    ∃ peakCur, peakAndDelta sinfo (call.peakRequest sinfo reqLevel)
        (call.neededLevel sinfo reqLevel) = .ok (peakCur, call.delta sinfo reqLevel) ∧
      peakCur + call.delta sinfo reqLevel = BitVec.ofNat 32 (call.neededCurrent sinfo reqLevel) := by
  have newCur := SetvalCall.newCur_eq sinfo reqLevel whole (call.neededLevel sinfo reqLevel)
  unfold peakAndDelta SetvalCall.delta
  rw [newCur]
  split
  · rw [calculateTotalCurrent_others (SetvalCall.neededLevel_lt tidy valid)]
    refine ⟨_, rfl, ?_⟩
    rw [SetvalCall.neededCurrent, BitVec.ofNat_add]
    exact add_zero _
  rename_i same
  rw [not_not] at same
  have total := exact.val
  rw [← exact.level, totalCurrent_eq lt] at total
  rw [same] at newCur ⊢
  rw [← newCur]
  refine ⟨_, rfl, ?_⟩
  rw [SetvalCall.neededCurrent, same, SetvalCall.oldCur_eq tidy]
  bv_omega

end Peak

def ClkMgrInfo.afterThrottling (sinfo : ClkMgrInfo) : Option Nat → Nat → ClientTblEntry
  | none => sinfo.clkClientTbl
  | some id => Function.update sinfo.clkClientTbl id (sinfo.clkClientTbl id).throttled

def ClkMgrInfo.savedCurMa (sinfo : ClkMgrInfo) : Option Nat → BitVec 32
  | none => 0
  | some id => nowCurMa sinfo id - minCurMa sinfo id

structure ClkMgrInfo.OnlyThrottles (sinfo : ClkMgrInfo) (choice : Option Nat)
    (after : ClkMgrInfo) : Prop where
  table : after.clkClientTbl = sinfo.afterThrottling choice
  corner : after.vddCorner = sinfo.vddCorner
  count : after.totClkClients = sinfo.totClkClients
  threshold : after.threshold = sinfo.threshold

structure Throttling.Follows (sinfo : ClkMgrInfo) (deltaCur : BitVec 32) (choice : Option Nat)
    (throttling : Throttling) : Prop where
  delta : throttling.deltaCur = deltaCur - sinfo.savedCurMa choice
  only : sinfo.OnlyThrottles choice throttling.sinfo

theorem throttleLoop_spec (sinfo : ClkMgrInfo) (answers : Nat → ThrottleAnswer)
    (deltaCur : BitVec 32) (ids : List Nat) (i : Nat) (rc : Int) :
    (∀ id, throttleChoice sinfo answers deltaCur i ids rc = some id → worthThrottling sinfo id deltaCur = true) ∧
      ((throttleLoop sinfo answers deltaCur i ids rc).rc ≠ 0 →
        (throttleLoop sinfo answers deltaCur i ids rc).sinfo = sinfo) ∧
      ((throttleLoop sinfo answers deltaCur i ids rc).rc = 0 →
        (throttleLoop sinfo answers deltaCur i ids rc).Follows sinfo deltaCur
          (throttleChoice sinfo answers deltaCur i ids rc)) := by
  induction ids generalizing i rc with
  | nil =>
    refine ⟨fun _ chosen => (by cases chosen), fun _ => rfl, fun _ => ⟨?_, ⟨rfl, rfl, rfl, rfl⟩⟩⟩
    exact (sub_zero deltaCur).symm
  | cons id ids ih =>
    unfold throttleLoop throttleChoice
    dsimp only
    split
    · rename_i worth
      split
      · exact ih _ _
      split
      · exact ih _ _
      cases mem : (answers i).allocated with
      | false =>
        refine ⟨fun _ chosen => (by cases chosen), fun _ => rfl, fun success => ?_⟩
        have failure : eNomem = 0 := success
        cases failure
      | true =>
        refine ⟨fun other chosen => ?_, absurd rfl, fun _ => ⟨rfl, ⟨rfl, rfl, rfl, rfl⟩⟩⟩
        cases chosen
        exact worth
    · exact ih _ _

section Outcome

variable {sinfo : ClkMgrInfo} {call : SetvalCall} {reqLevel : Nat}

structure SetvalCall.Accepted (call : SetvalCall) (sinfo : ClkMgrInfo) (reqLevel : Nat)
    (throttled : Option Nat) (checked : ClkMgrInfo) : Prop where
  only : sinfo.OnlyThrottles throttled checked
  val : checked.aggregVal = BitVec.ofNat 32 (call.neededCurrent sinfo reqLevel) - sinfo.savedCurMa throttled
  level : checked.aggregLevel = call.neededLevel sinfo reqLevel
  fits : call.MayThrottle sinfo reqLevel ∧ throttled = call.throttles sinfo reqLevel ∧
      (throttleLowPriorityClient sinfo call.answers (call.delta sinfo reqLevel)).rc = 0 ∨
    throttled = none ∧ (call.neededCurrent sinfo reqLevel = 0 ∨
      call.neededCurrent sinfo reqLevel < sinfo.threshold.toNat)

theorem checkPeakCurrent_outcome (tidy : sinfo.Tidy) (exact : sinfo.Exact)
    (reg : (sinfo.clkClientTbl call.id).client = true) (valid : reqLevel < vddLevelMax)
    (steady : call.Steady sinfo reqLevel) : ((checkPeakCurrent call.enableThrottle call.answers sinfo
          (call.peakRequest sinfo reqLevel)).2 ≠ 0 ∧
        (checkPeakCurrent call.enableThrottle call.answers sinfo (call.peakRequest sinfo reqLevel)).1 = sinfo) ∨
      ((checkPeakCurrent call.enableThrottle call.answers sinfo (call.peakRequest sinfo reqLevel)).2 = 0 ∧
        ∃ throttled, call.Accepted sinfo reqLevel throttled (checkPeakCurrent call.enableThrottle call.answers sinfo
            (call.peakRequest sinfo reqLevel)).1) := by
  have level := checkReqLevel_needed tidy reg exact.level valid steady.scan
  obtain ⟨peakCur, peak, sum⟩ :=
    peakAndDelta_needed tidy exact (tidy.found _ reg).1 valid steady.whole
  have small := steady.current
  have toNat : (peakCur + call.delta sinfo reqLevel).toNat = call.neededCurrent sinfo reqLevel := by
    rw [sum, BitVec.toNat_ofNat, Nat.mod_eq_of_lt (by omega)]
  have toInt : (peakCur + call.delta sinfo reqLevel).toInt = call.neededCurrent sinfo reqLevel := by
    rw [toInt_eq_toNat_of_lt (by omega), toNat]
  have needed : max reqLevel (sinfo.othersLevel call.id) = call.neededLevel sinfo reqLevel := rfl
  unfold checkPeakCurrent
  dsimp only
  rw [show (call.peakRequest sinfo reqLevel).id = call.id from rfl,
    show (call.peakRequest sinfo reqLevel).reqLevel = reqLevel from rfl, level, needed]
  dsimp only
  rw [peak]
  dsimp only
  rw [toNat]
  split
  · have zero : call.neededCurrent sinfo reqLevel = 0 := by omega
    refine .inr ⟨rfl, none, ⟨rfl, rfl, rfl, rfl⟩, ?_, rfl, .inr ⟨rfl, .inl zero⟩⟩
    rw [zero]
    exact (sub_zero 0#32).symm
  split
  · rename_i reaches
    split
    · rename_i may
      obtain ⟨pri, enabled⟩ := Bool.and_eq_true_iff.mp may
      obtain ⟨-, failure, success⟩ := throttleLoop_spec sinfo call.answers
        (call.delta sinfo reqLevel) sinfo.throttleTblEntryIds 0 0
      split
      · rename_i failed
        exact .inl ⟨failed, failure failed⟩
      rename_i succeeded
      obtain ⟨delta, only⟩ := success (not_not.mp succeeded)
      refine .inr ⟨rfl, call.throttles sinfo reqLevel, { only with }, ?_, rfl,
        .inl ⟨⟨reaches, by omega, pri, enabled⟩, rfl, not_not.mp succeeded⟩⟩
      rw [← sum]
      have saved : (throttleLowPriorityClient sinfo call.answers (call.delta sinfo reqLevel)).deltaCur =
          call.delta sinfo reqLevel - sinfo.savedCurMa (call.throttles sinfo reqLevel) := delta
      show peakCur + _ = _
      rw [saved, add_sub_assoc]
    · exact .inl ⟨eInval_ne_zero, rfl⟩
  · refine .inr ⟨rfl, none, ⟨rfl, rfl, rfl, rfl⟩, ?_, rfl, .inr ⟨rfl, .inr (by omega)⟩⟩
    rw [← sum]
    exact (sub_zero _).symm

end Outcome

end KernelModules.Mmrm

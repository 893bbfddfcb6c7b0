import KernelModules.Mmrm.Aggregate

namespace KernelModules.Mmrm

open Data

/-! # Rates that fail and votes for rates

A rate that the clock framework refuses has been recorded before, and so have the votes of a CRM client.
-/

theorem checkPeakCurrent_effect (enableThrottle : Bool) (answers : Nat → ThrottleAnswer)
    (sinfo : ClkMgrInfo) (req : PeakRequest) : ((checkPeakCurrent enableThrottle answers sinfo req).2 ≠ 0 →
        (checkPeakCurrent enableThrottle answers sinfo req).1 = sinfo) ∧
      ∃ choice, sinfo.OnlyThrottles choice (checkPeakCurrent enableThrottle answers sinfo req).1 ∧
        ∀ id, choice = some id → ∃ delta, worthThrottling sinfo id delta = true := by
  have same : sinfo.OnlyThrottles none sinfo := ⟨rfl, rfl, rfl, rfl⟩
  unfold checkPeakCurrent
  dsimp only
  split
  · exact ⟨fun _ => rfl, none, same, by simp⟩
  split
  · exact ⟨fun _ => rfl, none, same, by simp⟩
  split
  · exact ⟨absurd rfl, none, ⟨rfl, rfl, rfl, rfl⟩, by simp⟩
  split
  · split
    · obtain ⟨worth, failure, success⟩ := throttleLoop_spec sinfo answers _ sinfo.throttleTblEntryIds 0 0
      split
      · rename_i failed
        have unchanged := failure failed
        refine ⟨fun _ => unchanged, none, ?_, by simp⟩
        show sinfo.OnlyThrottles none (throttleLoop ..).sinfo
        rw [unchanged]
        exact same
      · rename_i succeeded
        obtain ⟨-, only⟩ := success (not_not.mp succeeded)
        exact ⟨absurd rfl, _,
          { only with }, fun id chosen => ⟨_, worth id chosen⟩⟩
    · exact ⟨fun _ => rfl, none, same, by simp⟩
  · exact ⟨absurd rfl, none, ⟨rfl, rfl, rfl, rfl⟩, by simp⟩

section Atomic

/-- The state of the requesting client and of the rail that a failed request leaves alone. -/
structure SetvalCall.Unchanged (call : SetvalCall) (before after : ClkMgrInfo) : Prop where
  clkRate : (after.clkClientTbl call.id).clkRate = (before.clkClientTbl call.id).clkRate
  vddLevel : (after.clkClientTbl call.id).vddLevel = (before.clkClientTbl call.id).vddLevel
  numHwBlocks : (after.clkClientTbl call.id).numHwBlocks = (before.clkClientTbl call.id).numHwBlocks
  reserve : (after.clkClientTbl call.id).reserve = (before.clkClientTbl call.id).reserve
  votes : (after.clkClientTbl call.id).crmClientTbl = (before.clkClientTbl call.id).crmClientTbl
  maxRateIdx : (after.clkClientTbl call.id).maxRateIdx = (before.clkClientTbl call.id).maxRateIdx
  aggregVal : after.aggregVal = before.aggregVal
  aggregLevel : after.aggregLevel = before.aggregLevel

def SetvalCall.Atomic (call : SetvalCall) (sinfo : ClkMgrInfo) : Prop :=
  (clkClientSetval sinfo call).2 ≠ 0 → call.Unchanged sinfo (clkClientSetval sinfo call).1

/-- The request passes every check and asks the clock framework for the rate. -/
def SetvalCall.SetsRate (call : SetvalCall) (sinfo : ClkMgrInfo) : Prop :=
  match call.prepare sinfo with
  | .rejected => False
  | .sameRate => (sinfo.clkClientTbl call.id).reserve = true ∧ call.data.reserveOnly = false
  | .request reqLevel =>
    (checkPeakCurrent call.enableThrottle call.answers sinfo (call.peakRequest sinfo reqLevel)).2 = 0 ∧
      ¬ (call.data.reserveOnly ∧ !(sinfo.clkClientTbl call.id).isCrmClient)

variable {sinfo : ClkMgrInfo} {call : SetvalCall}

theorem SetvalCall.atomic_of (holds : call.SetsRate sinfo → call.rateSet = 0) : call.Atomic sinfo := by
  have whole : call.Unchanged sinfo sinfo := ⟨rfl, rfl, rfl, rfl, rfl, rfl, rfl, rfl⟩
  unfold Atomic SetsRate clkClientSetval at *
  cases prep : call.prepare sinfo with
  | rejected => exact fun _ => whole
  | sameRate =>
    rw [prep] at holds
    dsimp only at holds ⊢
    split
    · exact fun _ => whole
    · cases only : call.data.reserveOnly with
      | true => simp
      | false =>
        rename_i differs
        rw [only] at differs holds
        simp [setRateRc, holds ⟨Bool.eq_true_of_not_eq_false differs, rfl⟩]
  | request reqLevel =>
    rw [prep] at holds
    dsimp only at holds ⊢
    split
    · rename_i failed
      rw [(checkPeakCurrent_effect ..).1 failed]
      exact fun _ => whole
    · rename_i passed
      split
      · exact absurd rfl
      · rename_i sets
        simp [setRateRc, holds ⟨not_not.mp passed, sets⟩]

theorem SetvalCall.rateSet_of_atomic (plain : (sinfo.clkClientTbl call.id).isCrmClient = false)
    (atomic : call.Atomic sinfo) (sets : call.SetsRate sinfo) : call.rateSet = 0 := by
  by_contra refused
  have rc : call.setRateRc = eInval := if_pos refused
  unfold Atomic SetsRate clkClientSetval at *
  cases prep : call.prepare sinfo with
  | rejected =>
    rw [prep] at sets
    exact sets
  | sameRate =>
    rw [prep] at sets atomic
    obtain ⟨reserve, only⟩ := sets
    simp only [reserve, only, rc] at atomic
    have kept := (atomic eInval_ne_zero).reserve
    simp [reserve] at kept
  | request reqLevel =>
    rw [prep] at sets atomic
    obtain ⟨passed, sets⟩ := sets
    simp only [passed, if_neg sets, rc] at atomic
    obtain ⟨clkRate, -, numHwBlocks, -⟩ := atomic eInval_ne_zero
    have rate : call.clkVal = (sinfo.clkClientTbl call.id).clkRate := by
      simpa [record, maxRate, plain] using clkRate
    have blocks : call.data.numHwBlocks = (sinfo.clkClientTbl call.id).numHwBlocks := by
      simpa [record] using numHwBlocks
    unfold prepare at prep
    dsimp only at prep
    split at prep
    · cases prep
    split at prep
    · cases prep
    · simp [plain, rate, blocks] at prep

/-- A call that asks for no rate, or for one that the clock framework accepts. -/
def MmrmCall.RateAccepted (sinfo : ClkMgrInfo) (call : MmrmCall) : Prop :=
  ∀ setval, call = .setval setval → setval.SetsRate sinfo → setval.rateSet = 0

def MmrmCall.Atomic (sinfo : ClkMgrInfo) (call : MmrmCall) : Prop :=
  ∀ setval, call = .setval setval → setval.Atomic sinfo

def MmrmCall.NoCrm (sinfo : ClkMgrInfo) (call : MmrmCall) : Prop :=
  ∀ setval, call = .setval setval → (sinfo.clkClientTbl setval.id).isCrmClient = false

theorem Throughout.imp (step : ∀ sinfo call, first sinfo call → second sinfo call → third sinfo call)
    (holds : Throughout first sinfo calls) (too : Throughout second sinfo calls) : Throughout third sinfo calls := by
  induction calls generalizing sinfo with
  | nil => trivial
  | cons call rest ih => exact ⟨step _ _ holds.1 too.1, ih holds.2 too.2⟩

/-- In a run whose rates are all accepted every call is atomic, and without CRM clients only in such a run. -/
theorem setval_atomic_iff (sinfo : ClkMgrInfo) (calls : List MmrmCall) :
    (Throughout (fun sinfo call => call.RateAccepted sinfo) sinfo calls →
        Throughout (fun sinfo call => call.Atomic sinfo) sinfo calls) ∧
      (Throughout (fun sinfo call => call.NoCrm sinfo) sinfo calls →
        Throughout (fun sinfo call => call.Atomic sinfo) sinfo calls →
          Throughout (fun sinfo call => call.RateAccepted sinfo) sinfo calls) := by
  refine ⟨fun accepted => accepted.imp (fun sinfo call settled _ setval same => ?_) accepted,
    fun plain atomic => plain.imp (fun sinfo call noCrm holds setval same => ?_) atomic⟩
  · exact SetvalCall.atomic_of (settled setval same)
  · exact SetvalCall.rateSet_of_atomic (noCrm setval same) (holds setval same)

/-- A rate that the clock framework refuses stays recorded. -/
theorem refused_rate_recorded : ¬ ∀ vddCorner threshold nomClkSet clsids calls,
      Throughout (fun sinfo call => call.Atomic sinfo)
        (initSwClkMgr vddCorner threshold nomClkSet clsids) calls := by
  intro always
  obtain ⟨-, last, -⟩ := always corners 100 [(1, 4)] []
    [registration 1 true, .setval { rateRequest 0 300 with rateSet := -5 }]
  exact absurd (last _ rfl (by decide +kernel)).clkRate (by decide +kernel)

end Atomic

open MmrmCall (perform setval)

open SetvalCall (maxRate record)

section Votes

/-- The rate of a CRM client is the highest vote, which stands at `maxRateIdx`. -/
structure ClientTblEntry.RateOfVotes (entry : ClientTblEntry) : Prop where
  highest : ∀ vote ∈ entry.crmClientTbl, vote.toNat ≤ entry.clkRate.toNat
  attained : entry.crmClientTbl[entry.maxRateIdx]? = some entry.clkRate

structure ClientTblEntry.Voting (entry : ClientTblEntry) : Prop where
  crm : entry.isCrmClient = true
  size : entry.crmClientTbl.length = entry.hwDrvInstances * entry.numPwrStates + 1
  small : entry.clkRate.toNat < 4294967296
  rate : entry.RateOfVotes

theorem maxOtherVote_spec (maxRateIdx : Nat) (votes : List (BitVec 64))
    (small : ∀ vote ∈ votes, vote.toNat < 4294967296) (idx : Nat) (best : BitVec 32 × Nat) :
    best.1.toNat ≤ (maxOtherVote maxRateIdx idx votes best).1.toNat ∧
      (∀ place vote, votes[place]? = some vote → idx + place ≠ maxRateIdx →
        vote.toNat ≤ (maxOtherVote maxRateIdx idx votes best).1.toNat) ∧
      (maxOtherVote maxRateIdx idx votes best = best ∨ ∃ place, idx + place ≠ maxRateIdx ∧
          votes[place]? = some ((maxOtherVote maxRateIdx idx votes best).1.setWidth 64) ∧
          (maxOtherVote maxRateIdx idx votes best).2 = idx + place) := by
  induction votes generalizing idx best with
  | nil => simp [maxOtherVote]
  | cons vote votes ih =>
    have fits : vote.toNat < 4294967296 := small vote (by simp)
    have later := ih fun other among => small other (by simp [among])
    unfold maxOtherVote
    split
    · rename_i higher
      have low : (vote.setWidth 32 : BitVec 32).toNat = vote.toNat := by simp; omega
      obtain ⟨least, most, place⟩ := later (idx + 1) (vote.setWidth 32, idx)
      simp only [low] at least
      refine ⟨by omega, fun at_ other found apart => ?_, .inr ?_⟩
      · cases at_ with
        | zero =>
          cases found
          exact least
        | succ at_ => exact most at_ other found (by omega)
      · rcases place with same | ⟨place, apart, found, idx'⟩
        · refine ⟨0, by simpa using higher.1, ?_, by simp [same]⟩
          rw [same]
          simp only [List.getElem?_cons_zero, Option.some.injEq]
          apply BitVec.eq_of_toNat_eq
          simp
          omega
        · exact ⟨place + 1, by omega, found, by omega⟩
    · obtain ⟨least, most, place⟩ := later (idx + 1) best
      refine ⟨least, fun at_ other found apart => ?_, ?_⟩
      · cases at_ with
        | zero =>
          cases found
          omega
        | succ at_ => exact most at_ other found (by omega)
      · rcases place with same | ⟨place, apart, found, idx'⟩
        · exact .inl same
        · exact .inr ⟨place + 1, by omega, found, by omega⟩

theorem toNat_setWidth_32 {rate : BitVec 64} (small : rate.toNat < 4294967296) :
    (rate.setWidth 32 : BitVec 32).toNat = rate.toNat := by
  simp
  omega

theorem setWidth_32_64 (small : rate.toNat < 4294967296) :
    ((rate.setWidth 32 : BitVec 32).setWidth 64 : BitVec 64) = rate := by
  apply BitVec.eq_of_toNat_eq
  simp
  omega

variable {entry : ClientTblEntry} {data : ClientData}

theorem ClientTblEntry.Voting.voteIdx_lt (voting : entry.Voting) (instance_ : data.crmDrvIdx < entry.hwDrvInstances)
    (state : data.pwrSt < entry.numPwrStates) : crmVoteIdx entry data < entry.crmClientTbl.length := by
  have size := voting.size
  unfold crmVoteIdx
  split
  · omega
  · have row : entry.numPwrStates * (data.crmDrvIdx + 1) ≤
        entry.numPwrStates * entry.hwDrvInstances := Nat.mul_le_mul_left _ instance_
    rw [mul_comm entry.hwDrvInstances] at size
    rw [Nat.mul_succ] at row
    omega

theorem getMaxCrmRate_votes (voting : entry.Voting) {clkVal : BitVec 64} (small : clkVal.toNat < 4294967296)
    (lt : crmVoteIdx entry data < entry.crmClientTbl.length) :
    (∀ vote ∈ entry.crmClientTbl.set (crmVoteIdx entry data) clkVal,
        vote.toNat ≤ (getMaxCrmRate entry data clkVal).1.toNat) ∧
      (entry.crmClientTbl.set (crmVoteIdx entry data) clkVal)[(getMaxCrmRate entry data clkVal).2]? =
        some ((getMaxCrmRate entry data clkVal).1.setWidth 64) := by
  obtain ⟨-, -, fits, highest, attained⟩ := voting
  have all : ∀ vote ∈ entry.crmClientTbl, vote.toNat < 4294967296 := fun vote among =>
    Nat.lt_of_le_of_lt (highest vote among) fits
  have placed (place : Nat) : (entry.crmClientTbl.set (crmVoteIdx entry data) clkVal)[place]? =
      if crmVoteIdx entry data = place then some clkVal else entry.crmClientTbl[place]? := by
    rw [List.getElem?_set]
    split
    · simp
    · rfl
  have bounded {bound : Nat} (new : clkVal.toNat ≤ bound)
      (others : ∀ place vote, entry.crmClientTbl[place]? = some vote →
        crmVoteIdx entry data ≠ place → vote.toNat ≤ bound) :
      ∀ vote ∈ entry.crmClientTbl.set (crmVoteIdx entry data) clkVal, vote.toNat ≤ bound := by
    intro vote among
    obtain ⟨place, found⟩ := List.mem_iff_getElem?.mp among
    rw [placed] at found
    split at found
    · cases found
      exact new
    · exact others place vote found ‹_›
  have old {place : Nat} {vote : BitVec 64} (found : entry.crmClientTbl[place]? = some vote) :
      vote.toNat ≤ entry.clkRate.toNat := highest vote (List.mem_iff_getElem?.mpr ⟨_, found⟩)
  unfold getMaxCrmRate
  dsimp only
  rw [toNat_setWidth_32 fits]
  split
  · rw [toNat_setWidth_32 small, setWidth_32_64 small, placed, if_pos rfl]
    exact ⟨bounded (le_rfl) fun _ _ found _ => by have := old found; omega, rfl⟩
  split
  · rename_i lower own
    obtain ⟨-, most, place⟩ :=
      maxOtherVote_spec entry.maxRateIdx entry.crmClientTbl all 0 (0, entry.maxRateIdx)
    simp only [Nat.zero_add] at most place
    split
    · rw [toNat_setWidth_32 small, setWidth_32_64 small, placed, if_pos own]
      refine ⟨bounded (le_rfl) fun place vote found apart => ?_, rfl⟩
      have below := most place vote found fun same => apart (own.trans same.symm)
      omega
    · rename_i above
      refine ⟨bounded (by omega) fun place vote found apart =>
        most place vote found fun same => apart (own.trans same.symm), ?_⟩
      rcases place with same | ⟨place, apart, found, idx⟩
      · rw [same] at above
        exact absurd (Nat.zero_le _) above
      · rw [idx, placed, if_neg fun same => apart (same.symm.trans own)]
        exact found
  · rename_i lower other
    rw [toNat_setWidth_32 fits, setWidth_32_64 fits, placed, if_neg other]
    exact ⟨bounded (by omega) fun _ _ found _ => old found, attained⟩

theorem ClientTblEntry.Voting.recorded (voting : entry.Voting) {call : SetvalCall}
    (small : call.clkVal.toNat < 4294967296)
    (lt : crmVoteIdx entry call.data < entry.crmClientTbl.length) (reqLevel : Nat) :
    (call.record (call.maxRate entry) reqLevel entry).Voting := by
  obtain ⟨highest, attained⟩ := getMaxCrmRate_votes voting small lt
  have size := voting.size
  have wide (rate : BitVec 32) : (rate.setWidth 64 : BitVec 64).toNat = rate.toNat := by
    simp
    omega
  constructor
  · exact voting.crm
  · simpa [record, voting.crm] using size
  · simp only [record, maxRate, voting.crm, if_true, wide]
    exact BitVec.isLt _
  · constructor
    · simpa [record, maxRate, voting.crm, wide] using highest
    · simpa [record, maxRate, voting.crm] using attained

end Votes

section Registration

variable {sinfo : ClkMgrInfo} {id : Nat}

def ClkMgrInfo.Unclaimed (sinfo : ClkMgrInfo) : Prop :=
  ∀ id, (sinfo.clkClientTbl id).client = false → (sinfo.clkClientTbl id).clk = none ∧
    (sinfo.clkClientTbl id).clkRate = 0 ∧ (sinfo.clkClientTbl id).vddLevel = 0

theorem ClkMgrInfo.Unclaimed.put (unclaimed : sinfo.Unclaimed)
    (idle : entry.client = false → entry.clk = none ∧ entry.clkRate = 0 ∧ entry.vddLevel = 0) :
    (sinfo.put id entry).Unclaimed := by
  intro other
  by_cases here : other = id
  · rw [here, put_here]
    exact idle
  · rw [put_other here]
    exact unclaimed other

theorem ClkMgrInfo.Unclaimed.throttles (unclaimed : sinfo.Unclaimed) (only : sinfo.OnlyThrottles choice after)
    (worth : ∀ id, choice = some id → ∃ delta, worthThrottling sinfo id delta = true) : after.Unclaimed := by
  intro id
  rw [only.table]
  cases choice with
  | none => exact unclaimed id
  | some throttled =>
    obtain ⟨delta, saves⟩ := worth throttled rfl
    have put : (sinfo.put throttled (sinfo.clkClientTbl throttled).throttled).Unclaimed := by
      refine unclaimed.put fun client => ?_
      have level := (unclaimed throttled client).2.2
      unfold worthThrottling nowCurMa minCurMa at saves
      rw [level] at saves
      simp [vddLevelLowSvs] at saves
    exact put id

theorem MmrmCall.unclaimed (unclaimed : sinfo.Unclaimed) (call : MmrmCall) : (call.perform sinfo).Unclaimed := by
  cases call with
  | register call =>
    rw [perform_register]
    unfold clkClientRegister
    dsimp only
    split
    · exact unclaimed
    split
    · exact unclaimed
    split
    · split
      · exact unclaimed.put (unclaimed _)
      · exact unclaimed
    · rename_i free
      have idle := (unclaimed _ (Bool.eq_false_of_not_eq_true free)).2
      repeat' split
      · exact unclaimed.put fun _ => ⟨rfl, idle⟩
      · exact unclaimed.put fun _ => ⟨rfl, idle⟩
      · exact unclaimed.put fun _ => ⟨rfl, idle⟩
      · exact unclaimed.put fun client => by simp [(call.claimed_fields ..).2.2.2] at client
  | deregister id =>
    rw [perform_deregister]
    unfold clkClientDeregister
    split
    · exact unclaimed
    · refine unclaimed.put ?_
      split
      · exact fun _ => ⟨rfl, rfl, rfl⟩
      · exact unclaimed id
  | setval call =>
    rw [perform_setval]
    unfold clkClientSetval
    cases prep : call.prepare sinfo with
    | rejected => exact unclaimed
    | sameRate =>
      dsimp only
      split
      · exact unclaimed
      · exact unclaimed.put (unclaimed _)
    | request reqLevel =>
      obtain ⟨-, choice, only, worth⟩ := checkPeakCurrent_effect call.enableThrottle call.answers
        sinfo (call.peakRequest sinfo reqLevel)
      have checked := unclaimed.throttles only worth
      dsimp only
      split
      · exact checked
      · refine checked.put fun client => ?_
        have clocked := (SetvalCall.prepare_request prep).clocked
        have claimed : (sinfo.clkClientTbl call.id).client = false := by
          rw [← client, record, only.table]
          cases choice with
          | none => rfl
          | some throttled => by_cases same : call.id = throttled <;>
              simp [ClkMgrInfo.afterThrottling, Function.update_apply, same, ClientTblEntry.throttled]
        rw [(unclaimed _ claimed).1] at clocked
        cases clocked

theorem unclaimed_run (unclaimed : sinfo.Unclaimed) (calls : List MmrmCall) :
    (calls.foldl perform sinfo).Unclaimed := by
  induction calls generalizing sinfo with
  | nil => exact unclaimed
  | cons call rest ih => exact ih (call.unclaimed unclaimed)

theorem SetvalCall.record_checked {call : SetvalCall} (only : sinfo.OnlyThrottles choice checked)
    (maxRate : BitVec 64 × Nat) (reqLevel : Nat) : call.record maxRate reqLevel (checked.clkClientTbl call.id) =
      call.record maxRate reqLevel (sinfo.clkClientTbl call.id) := by
  rw [only.table]
  cases choice with
  | none => rfl
  | some throttled =>
    by_cases same : call.id = throttled
    · rw [same, ClkMgrInfo.afterThrottling, Function.update_self]
      rfl
    · rw [ClkMgrInfo.afterThrottling, Function.update_of_ne same]

theorem SetvalCall.prepare_votes {call : SetvalCall} (crm : (sinfo.clkClientTbl call.id).isCrmClient = true)
    (prep : call.prepare sinfo = .request reqLevel) :
    call.data.crmDrvIdx < (sinfo.clkClientTbl call.id).hwDrvInstances ∧
      call.data.pwrSt < (sinfo.clkClientTbl call.id).numPwrStates := by
  unfold prepare at prep
  dsimp only at prep
  split at prep
  · cases prep
  split at prep
  · cases prep
  split at prep
  · cases prep
  · rename_i valid
    simpa [crm] using valid

theorem clkClientSetval_voting {call : SetvalCall}
    (voting : (sinfo.clkClientTbl call.id).Voting) (small : call.clkVal.toNat < 4294967296) :
    ((clkClientSetval sinfo call).1.clkClientTbl call.id).Voting := by
  unfold clkClientSetval
  cases prep : call.prepare sinfo with
  | rejected => exact voting
  | sameRate =>
    dsimp only
    split
    · exact voting
    · rw [ClkMgrInfo.put_here]
      exact ⟨voting.crm, voting.size, voting.small, voting.rate.highest, voting.rate.attained⟩
  | request reqLevel =>
    obtain ⟨failure, choice, only, -⟩ := checkPeakCurrent_effect call.enableThrottle call.answers
      sinfo (call.peakRequest sinfo reqLevel)
    obtain ⟨instance_, state⟩ := SetvalCall.prepare_votes voting.crm prep
    dsimp only
    split
    · rename_i failed
      rw [failure failed]
      exact voting
    · rw [ClkMgrInfo.put_here, SetvalCall.record_checked only]
      exact voting.recorded small (voting.voteIdx_lt instance_ state) reqLevel

theorem clkClientRegister_voting (unclaimed : sinfo.Unclaimed)
    (free : (sinfo.clkClientTbl id).client = false) (crm : 0 < call.hwDrvInstances ∧ 0 < call.numPwrStates)
    (ret : (clkClientRegister sinfo call).2 = some id) : ((clkClientRegister sinfo call).1.clkClientTbl id).Voting := by
  unfold clkClientRegister at ret ⊢
  dsimp only at ret ⊢
  split at ret
  · cases ret
  split at ret
  · cases ret
  split at ret
  · rename_i claimed
    split at ret
    · cases ret
      rw [free] at claimed
      cases claimed
    · cases ret
  split at ret
  · cases ret
  split at ret
  · cases ret
  split at ret
  · cases ret
  · rename_i some_ place unclaimed_ alloc limits votes
    cases ret
    rw [if_neg some_, if_neg place, if_neg unclaimed_, if_neg alloc, if_neg limits, if_neg votes, ClkMgrInfo.put_here]
    have rate := (unclaimed _ free).2.1
    unfold RegisterCall.scale RegisterCall.claimCrm
    rw [if_pos crm]
    refine ⟨rfl, by simp, ?_, ?_, ?_⟩ <;> simp [RegisterCall.claim, rate]

/-- A CRM client that is registered in any reached state has the rate of its votes after each request. -/
theorem crm_rate_of_votes {vddCorner : Nat → Int} {threshold : BitVec 32}
    {nomClkSet : List (BitVec 32 × BitVec 32)} {clsids : List (BitVec 32)}
    {earlier : List MmrmCall} {sinfo : ClkMgrInfo} (reached : sinfo = earlier.foldl MmrmCall.perform
      (initSwClkMgr vddCorner threshold nomClkSet clsids))
    {call : RegisterCall} {id : Nat} (free : (sinfo.clkClientTbl id).client = false)
    (crm : 0 < call.hwDrvInstances ∧ 0 < call.numPwrStates)
    (returned : (clkClientRegister sinfo call).2 = some id) {votes : List SetvalCall}
    (own : ∀ vote ∈ votes, vote.id = id ∧ vote.clkVal.toNat < 4294967296) :
    (((votes.map MmrmCall.setval).foldl MmrmCall.perform
      (clkClientRegister sinfo call).1).clkClientTbl id).RateOfVotes := by
  have unclaimed : sinfo.Unclaimed := by
    rw [reached]
    exact unclaimed_run (fun _ _ => ⟨rfl, rfl, rfl⟩) earlier
  have start := clkClientRegister_voting unclaimed free crm returned
  suffices voting : ∀ before : ClkMgrInfo, (before.clkClientTbl id).Voting →
      (((votes.map MmrmCall.setval).foldl MmrmCall.perform before).clkClientTbl id).Voting from
    (voting _ start).rate
  induction votes with
  | nil => exact fun _ voting => voting
  | cons vote rest ih =>
    intro before voting
    obtain ⟨same, small⟩ := own vote (by simp)
    subst same
    exact ih (fun other among => own other (by simp [among])) _
      (clkClientSetval_voting voting small)

def crmRegistration : RegisterCall where
  clkSrcId := 1
  clk := some threeRates
  hwDrvInstances := 2
  numPwrStates := 2
  priHigh := false
  notifier := false
  currentMa := fun _ level _ => BitVec.ofNat 32 (10 * (level + 1))
  clientAllocated := true
  votesAllocated := true
  allowMultipleRegister := false

theorem crm_rate_of_votes_lowered :
    ((([rateRequest 0 300, rateRequest 0 100].map MmrmCall.setval).foldl MmrmCall.perform
      (clkClientRegister (initSwClkMgr corners 100 [(1, 4)] []) crmRegistration).1).clkClientTbl 0).RateOfVotes :=
  crm_rate_of_votes (show _ = List.foldl MmrmCall.perform (initSwClkMgr corners 100 [(1, 4)] []) []
    from rfl) rfl (by decide) (by decide +kernel) (by decide)

end Registration

end KernelModules.Mmrm

import KernelModules.MgmtRx.Counts

namespace KernelModules.MgmtRx

open Data WaitCount

/-- The timestamps differ by less than half of their range. -/
def WithinHalf (first second : BitVec 32) : Prop :=
  (first - second).toNat < globalTsHalfRange ∨ (second - first).toNat < globalTsHalfRange

/-- The timestamps that are compared for a link: that of the frame, and those of valid snapshots. -/
def comparedTimestamps (shared : SharedSnapshots) (hostSs : SnapshotParams) (globalTs : BitVec 32) :
    List (BitVec 32) :=
  globalTs :: ([shared.fwForwarded, shared.fwConsumed, shared.macHw, hostSs].filter (·.valid)).map
    (·.globalTimestamp)

def LinkReading.Near (reading : LinkReading) (hostSs : SnapshotParams) (globalTs : BitVec 32) : Prop :=
  ∀ shared, reading = .snapshots shared → ∀ first ∈ comparedTimestamps shared hostSs globalTs,
    ∀ second ∈ comparedTimestamps shared hostSs globalTs, WithinHalf first second

/-- What is counted for a link is at most what the hardware is ahead of the host; without a snapshot it is nothing
or the largest number. -/
def LinkReading.Bounds (reading : LinkReading) (hostSs : SnapshotParams) (count : Nat) : Prop :=
  match reading with
  | .snapshots shared =>
    if hostSs.valid then count ≤ (shared.macHw.mgmtPktCtr - hostSs.mgmtPktCtr).toNat
    else count = 0 ∨ count = uintMax
  | _ => count = 0

/-- An error from before the count, or a count within its bounds. -/
def LinkReading.Settles (reading : LinkReading) : SnapshotParams × Except ReoError Nat → Prop
  | (hostSs, .ok count) => reading.Bounds hostSs count
  | (_, .error status) => status ≠ .assertFailed

/-- A firmware snapshot that is left valid. -/
structure SnapshotParams.Usable (macHwSs hostSs fwSs : SnapshotParams) (globalTs : BitVec 32) : Prop where
  covered : macHwSs.covers fwSs = true
  agrees : hostSs.valid = true → hostSs.agrees fwSs = true
  nearFrame : WithinHalf fwSs.globalTimestamp globalTs
  nearHost : hostSs.valid = true → WithinHalf fwSs.globalTimestamp hostSs.globalTimestamp

variable {macHwSs hostSs fwSs : SnapshotParams} {shared : SharedSnapshots} {framesPending limit : Int}

theorem compareGlobalTimestampsGte_iff :
    compareGlobalTimestampsGte first second = true ↔ (first - second).toNat ≤ 2147483648 :=
  decide_eq_true_iff

theorem comparePktCtrsGte_iff : comparePktCtrsGte first second = true ↔ (first - second).toNat ≤ 32768 :=
  decide_eq_true_iff

theorem covers_iff : macHwSs.covers hostSs = true ↔
    (macHwSs.globalTimestamp - hostSs.globalTimestamp).toNat ≤ 2147483648 ∧
      (macHwSs.mgmtPktCtr - hostSs.mgmtPktCtr).toNat ≤ 32768 := by
  rw [SnapshotParams.covers, Bool.and_eq_true, compareGlobalTimestampsGte_iff, comparePktCtrsGte_iff]

theorem subtractPktCtrs_of_le (ahead : (first - second).toNat ≤ 32768) :
    subtractPktCtrs first second = (first - second).toNat := if_neg (Nat.not_lt.mpr ahead)

theorem assertCount_ok (pos : 0 ≤ framesPending) : assertCount framesPending = .ok framesPending := if_pos pos

/-- Where the host is older than the frame and the firmware is not, the host is behind the firmware. -/
theorem behind_of_older {mac host fw frame : BitVec 32} (hostOld : ¬ (host - frame).toNat ≤ 2147483648)
    (macNew : (mac - frame).toNat ≤ 2147483648) (fwNew : (fw - frame).toNat ≤ 2147483648)
    (macHost : (mac - host).toNat ≤ 2147483648) (macFw : (mac - fw).toNat ≤ 2147483648)
    (nearFrame : WithinHalf fw frame) (nearHost : WithinHalf fw host) : ¬ (host - fw).toNat ≤ 2147483648 := by
  have fwFrame : (fw - frame).toNat ≠ 2147483648 := by
    unfold WithinHalf globalTsHalfRange at nearFrame
    bv_omega
  have fwHost : (fw - host).toNat ≠ 2147483648 := by
    unfold WithinHalf globalTsHalfRange at nearHost
    bv_omega
  clear nearFrame nearHost
  rw [← sub_sub_sub_cancel_right mac _ frame] at macHost macFw
  rw [← sub_sub_sub_cancel_right _ _ frame] at fwHost ⊢
  generalize host - frame = host, mac - frame = mac, fw - frame = fw at *
  bv_omega

/-- The host is behind the snapshot if it is older than the frame and the firmware is not, and the counters agree. -/
theorem SnapshotParams.Usable.delta (usable : macHwSs.Usable hostSs fwSs globalTs) (valid : hostSs.valid = true)
    (macHost : macHwSs.covers hostSs = true) (apart : subtractPktCtrs macHwSs.mgmtPktCtr hostSs.mgmtPktCtr ≠ 0)
    (hostOld : ¬ compareGlobalTimestampsGte hostSs.globalTimestamp globalTs = true)
    (macNew : compareGlobalTimestampsGte macHwSs.globalTimestamp globalTs = true) :
    subtractPktCtrs fwSs.mgmtPktCtr hostSs.mgmtPktCtr ≤ subtractPktCtrs macHwSs.mgmtPktCtr hostSs.mgmtPktCtr ∧
      (compareGlobalTimestampsGte fwSs.globalTimestamp globalTs = true →
        1 ≤ subtractPktCtrs fwSs.mgmtPktCtr hostSs.mgmtPktCtr) := by
  obtain ⟨covered, agrees, nearFrame, nearHost⟩ := usable
  rw [covers_iff] at macHost covered
  constructor
  · rw [subtractPktCtrs_of_le macHost.2] at apart ⊢
    by_cases ahead : (fwSs.mgmtPktCtr - hostSs.mgmtPktCtr).toNat ≤ 32768
    · rw [subtractPktCtrs_of_le ahead]
      bv_omega
    · have split : subtractPktCtrs fwSs.mgmtPktCtr hostSs.mgmtPktCtr =
          (fwSs.mgmtPktCtr - hostSs.mgmtPktCtr).toNat - 65536 := if_pos (Nat.lt_of_not_le ahead)
      omega
  · intro fwNew
    rw [compareGlobalTimestampsGte_iff] at hostOld macNew fwNew
    have earlier : ¬ compareGlobalTimestampsGte hostSs.globalTimestamp fwSs.globalTimestamp = true :=
      compareGlobalTimestampsGte_iff.not.mpr
        (behind_of_older hostOld macNew fwNew macHost.1 covered.1 nearFrame (nearHost valid))
    clear macHost covered hostOld macNew fwNew apart
    have behind : ¬ comparePktCtrsGte hostSs.mgmtPktCtr fwSs.mgmtPktCtr = true := by
      simpa [SnapshotParams.agrees, earlier] using agrees valid
    rw [comparePktCtrsGte_iff] at behind
    rw [subtractPktCtrs_of_le (by bv_omega)]
    bv_omega

section

variable (deltas : ∀ fwSs ∈ [shared.fwForwarded, shared.fwConsumed], fwSs.valid = true →
    subtractPktCtrs fwSs.mgmtPktCtr hostSs.mgmtPktCtr ≤ limit ∧
      (compareGlobalTimestampsGte fwSs.globalTimestamp globalTs = true →
        1 ≤ subtractPktCtrs fwSs.mgmtPktCtr hostSs.mgmtPktCtr))
  (pos : 0 ≤ framesPending) (le : framesPending ≤ limit)
include deltas pos le

theorem forwardedPending_ok :
    ∃ pending, (if shared.fwForwarded.valid &&
        compareGlobalTimestampsGte shared.fwForwarded.globalTimestamp globalTs then do
      let deltaFwdHost ← assertCount (subtractPktCtrs shared.fwForwarded.mgmtPktCtr hostSs.mgmtPktCtr - 1)
      assertCount (min framesPending deltaFwdHost)
    else .ok framesPending) = .ok pending ∧ 0 ≤ pending ∧ pending ≤ limit := by
  split
  · rename_i new
    rw [Bool.and_eq_true] at new
    have ahead := (deltas shared.fwForwarded (by simp) new.1).2 new.2
    rw [assertCount_ok (by omega)]
    exact ⟨_, assertCount_ok (by omega), by omega, by omega⟩
  · exact ⟨_, rfl, pos, le⟩

theorem pendingBelowMacHw_ok : ∃ pending,
    pendingBelowMacHw shared hostSs globalTs framesPending = .ok pending ∧ 0 ≤ pending ∧ pending ≤ limit := by
  unfold pendingBelowMacHw
  dsimp only
  split
  · rename_i new
    rw [Bool.and_eq_true] at new
    obtain ⟨most, ahead⟩ := deltas shared.fwConsumed (by simp) new.1
    have pos := ahead new.2
    rw [assertCount_ok (by omega)]
    dsimp only [bind, Except.bind]
    split
    · rename_i old
      rw [Bool.and_eq_true] at old
      have most := (deltas shared.fwForwarded (by simp) old.1).1
      exact forwardedPending_ok deltas (Int.le_max_left ..) (Int.max_le.mpr ⟨by omega, most⟩)
    · exact forwardedPending_ok deltas (by omega) (by omega)
  · exact forwardedPending_ok deltas pos le

end

theorem linkPending_bounded (sameLink : Bool)
    (covers : shared.macHw.valid = true → hostSs.valid = true → shared.macHw.covers hostSs = true)
    (usable : shared.macHw.valid = true → ∀ fwSs ∈ [shared.fwForwarded, shared.fwConsumed], fwSs.valid = true →
      shared.macHw.Usable hostSs fwSs globalTs) : ∃ count, linkPending shared hostSs sameLink globalTs = .ok count ∧
      LinkReading.Bounds (.snapshots shared) hostSs count := by
  have nothing : LinkReading.Bounds (.snapshots shared) hostSs 0 := by
    simp [LinkReading.Bounds]
  unfold linkPending
  split
  · exact ⟨0, rfl, nothing⟩
  split
  · exact ⟨0, rfl, nothing⟩
  rename_i present
  replace present : shared.macHw.valid = true := by simpa using present
  split
  · rename_i invalid
    exact ⟨uintMax, rfl, by simp at invalid; simp [LinkReading.Bounds, invalid]⟩
  rename_i valid
  replace valid : hostSs.valid = true := by simpa using valid
  dsimp only
  split
  · exact ⟨0, rfl, nothing⟩
  rename_i apart
  split
  · exact ⟨0, rfl, nothing⟩
  rename_i hostOld
  have macHost := covers present valid
  have ahead := subtractPktCtrs_of_le (covers_iff.mp macHost).2
  have bounded : ∀ below : Int, 0 ≤ below → below ≤ subtractPktCtrs shared.macHw.mgmtPktCtr hostSs.mgmtPktCtr →
        LinkReading.Bounds (.snapshots shared) hostSs below.toNat := by
    intro below pos le
    simp only [LinkReading.Bounds, valid, if_true]
    omega
  rw [assertCount_ok (by omega)]
  dsimp only [bind, Except.bind]
  split
  · rename_i new
    rw [assertCount_ok (by omega)]
    obtain ⟨pending, found, pos, le⟩ := pendingBelowMacHw_ok (fun fwSs mem fwValid =>
        (usable present fwSs mem fwValid).delta valid macHost apart hostOld new.2)
      (show 0 ≤ subtractPktCtrs shared.macHw.mgmtPktCtr hostSs.mgmtPktCtr - 1 by omega) (by omega)
    dsimp only
    rw [found]
    dsimp only
    rw [assertCount_ok pos]
    exact ⟨_, rfl, bounded _ pos le⟩
  · rw [assertCount_ok (by omega)]
    exact ⟨_, rfl, bounded _ (by omega) (Int.le_refl _)⟩

theorem invalidateFwSnapshot_usable (valid : (invalidateFwSnapshot macHwSs hostSs fwSs).valid = true)
    (nearFrame : fwSs.valid = true → WithinHalf fwSs.globalTimestamp globalTs)
    (nearHost : fwSs.valid = true → hostSs.valid = true → WithinHalf fwSs.globalTimestamp hostSs.globalTimestamp) :
    macHwSs.Usable hostSs (invalidateFwSnapshot macHwSs hostSs fwSs) globalTs := by
  unfold invalidateFwSnapshot at valid ⊢
  split at valid
  · cases valid
  · rename_i fresh
    rw [if_neg fresh]
    simp only [valid, Bool.true_and, Bool.or_eq_true, Bool.not_eq_true', Bool.and_eq_true, not_or, not_and,
      Bool.not_eq_false] at fresh
    exact ⟨fresh.1, fresh.2, nearFrame valid, nearHost valid⟩

theorem invalidateStaleSnapshots_usable (near : (LinkReading.snapshots shared).Near hostSs globalTs) :
    ∃ current host, invalidateStaleSnapshots shared hostSs = (current, host) ∧ current.macHw = shared.macHw ∧
      (current.macHw.valid = true → host.valid = true → current.macHw.covers host = true) ∧
      (current.macHw.valid = true → ∀ fwSs ∈ [current.fwForwarded, current.fwConsumed], fwSs.valid = true →
        current.macHw.Usable host fwSs globalTs) := by
  have near := near shared rfl
  unfold invalidateStaleSnapshots
  split
  · rename_i absent
    simp at absent
    exact ⟨_, _, rfl, rfl, by simp [absent], by simp [absent]⟩
  dsimp only
  refine ⟨_, _, rfl, rfl, fun _ valid => ?_, fun _ fwSs mem valid => ?_⟩
  · split at valid
    · cases valid
    · rename_i fresh
      rw [if_neg fresh]
      simpa [valid] using fresh
  · have compared : ∀ ss ∈ [shared.fwForwarded, shared.fwConsumed, shared.macHw, hostSs], ss.valid = true →
        ss.globalTimestamp ∈ comparedTimestamps shared hostSs globalTs := fun ss mem valid =>
      List.mem_cons_of_mem _ (List.mem_map_of_mem (List.mem_filter.mpr ⟨mem, valid⟩))
    have usable : ∀ fwSs ∈ [shared.fwForwarded, shared.fwConsumed, shared.macHw, hostSs],
        ∀ host : SnapshotParams, (host.valid = true → host = hostSs) →
          (invalidateFwSnapshot shared.macHw host fwSs).valid = true →
            shared.macHw.Usable host (invalidateFwSnapshot shared.macHw host fwSs) globalTs := by
      intro fwSs mem host same valid
      refine invalidateFwSnapshot_usable valid
        (fun fwValid => near _ (compared fwSs mem fwValid) _ List.mem_cons_self) fun fwValid hostValid => ?_
      have kept := same hostValid
      rw [kept] at hostValid ⊢
      exact near _ (compared fwSs mem fwValid) _ (compared hostSs (by simp) hostValid)
    simp only [List.mem_cons, List.not_mem_nil, or_false] at mem
    rcases mem with rfl | rfl
    · exact usable _ (by simp) _ (by split <;> simp) valid
    · exact usable _ (by simp) _ (by split <;> simp) valid

theorem linkRound_settles (reading : LinkReading) (sameLink : Bool) (near : reading.Near hostSs globalTs) :
    reading.Settles (linkRound reading hostSs sameLink globalTs) := by
  cases reading with
  | invalidLink => rfl
  | absent => rfl
  | failed => exact ReoError.noConfusion
  | snapshots shared =>
    obtain ⟨current, host, invalidated, mac, covers, usable⟩ := invalidateStaleSnapshots_usable near
    obtain ⟨count, counted, bounds⟩ := linkPending_bounded sameLink covers usable
    unfold linkRound
    dsimp only
    rw [invalidated]
    dsimp only
    split
    · rw [counted]
      simpa only [LinkReading.Settles, LinkReading.Bounds, mac] using bounds
    · exact ReoError.noConfusion

theorem waitCountRounds_settles {readings : Nat → LinkReading} {hosts : Nat → SnapshotParams} {waitCount : WaitCount}
    (near : ∀ other, link ≤ other → other < link + left → (readings other).Near (hosts other) globalTs)
    (before : ∀ other < link, (readings other).Bounds (hosts other) (waitCount.perLinkCount other))
    (called : waitCountRounds readings inLink globalTs link left hosts waitCount = (invalidated, result)) :
    (∀ counted, result = .ok counted → ∀ other < link + left,
      (readings other).Bounds (invalidated other) (counted.perLinkCount other)) ∧ result ≠ .error .assertFailed := by
  induction left generalizing link hosts waitCount with
  | zero =>
    cases called
    exact ⟨fun counted same => by cases same; exact before, fun failed => by cases failed⟩
  | succ left ih =>
    have round := linkRound_settles (readings link) (decide (link = inLink)) (near link (Nat.le_refl _) (by omega))
    rw [waitCountRounds] at called
    dsimp only at called
    generalize linkRound (readings link) (hosts link) (decide (link = inLink)) globalTs = ended at round called
    obtain ⟨host, pending⟩ := ended
    cases pending with
    | error status =>
      cases called
      exact ⟨fun counted same => (by cases same), fun same => round (Except.error.inj same)⟩
    | ok count =>
      rw [show link + (left + 1) = link + 1 + left by omega]
      refine ih (fun other later lt => ?_) (fun other lt => ?_) called
      · rw [Function.update_of_ne (by omega)]
        exact near other (by omega) (by omega)
      · by_cases here : other = link
        · subst here
          simpa only [Function.update_self, LinkReading.Settles] using round
        · simpa only [Function.update_of_ne here] using before other (by omega)

/-- No assertion fails: the round of a link, and the whole, end with an error or with a count within bounds, for any
counters. -/
theorem calculateWaitCount_bounded (readings : Nat → LinkReading) (hosts : Nat → SnapshotParams)
    (desc : FrameDescriptor)
    (near : ∀ link < maxMloLinks, (readings link).Near (hosts link) desc.reoParams.globalTimestamp) :
    (∀ link < maxMloLinks, (readings link).Settles (linkRound (readings link) (hosts link)
      (decide (link = desc.reoParams.linkId)) desc.reoParams.globalTimestamp)) ∧
    (∀ counted, (calculateWaitCount readings hosts desc).2 = .ok counted → ∀ link < maxMloLinks,
      (readings link).Bounds ((calculateWaitCount readings hosts desc).1 link)
        (counted.waitCount.perLinkCount link)) ∧
    (calculateWaitCount readings hosts desc).2 ≠ .error .assertFailed := by
  refine ⟨fun link lt => linkRound_settles _ _ (near link lt), ?_⟩
  generalize called : calculateWaitCount readings hosts desc = outcome
  unfold calculateWaitCount at called
  split at called
  · cases called
    exact ⟨fun counted same => (by cases same), fun failed => by cases failed⟩
  · cases ended : waitCountRounds readings desc.reoParams.linkId desc.reoParams.globalTimestamp 0 maxMloLinks
      hosts desc.waitCount with
    | mk left counts =>
    obtain ⟨bounds, asserts⟩ := waitCountRounds_settles (fun link _ lt => near link (by omega))
      (fun _ lt => by omega) ended
    rw [ended] at called
    cases called
    cases counts with
    | error status =>
      exact ⟨fun counted same => (by cases same), fun same => asserts (congrArg _ (Except.error.inj same))⟩
    | ok waitCount =>
      refine ⟨fun counted same link lt => ?_, fun failed => by cases failed⟩
      cases same
      exact bounds waitCount rfl link (by omega)

theorem calculateWaitCount_bounded_two :
    (calculateWaitCount (fun _ => .snapshots ⟨⟨true, 3, 30⟩, ⟨true, 2, 20⟩, ⟨false, 0, 0⟩⟩)
      (fun _ => ⟨true, 0, 10⟩) (.start .hostConsumedFrame true true ⟨true, 0, 4, 15, 15, 15⟩)).2 ≠
        .error .assertFailed :=
  (calculateWaitCount_bounded _ _ _ (fun _ _ shared same => by
    cases same
    simp [comparedTimestamps, WithinHalf, globalTsHalfRange, FrameDescriptor.start])).2.2

end KernelModules.MgmtRx

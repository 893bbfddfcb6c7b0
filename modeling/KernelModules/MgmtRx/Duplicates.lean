import KernelModules.MgmtRx.Lists

namespace KernelModules.MgmtRx

open Data Function

/-! # Duplicates and late frames

A run takes frames and events of any links.  Their counters are cut from counts, which tell what was accepted.
-/

inductive ArrivalKind where
  | frame (isMgt : Bool)
  | event (type : FrameDescriptorType)

structure Arrival where
  kind : ArrivalKind
  reoRequired : Bool
  reoParams : ReoParams
  count : Nat
  around : Surroundings

structure LinkState where
  hosts : Nat → SnapshotParams
  accepted : Nat → List Nat

open LinkState hiding accepted hosts mk

def LinkState.start : LinkState where
  hosts := fun _ => { valid := false, mgmtPktCtr := 0, globalTimestamp := 0 }
  accepted := fun _ => []

def Arrival.link (arrival : Arrival) : Nat := arrival.reoParams.linkId

def Arrival.isMgt (arrival : Arrival) : Bool :=
  match arrival.kind with
  | .frame isMgt => isMgt
  | .event _ => true

def Arrival.desc (arrival : Arrival) : FrameDescriptor :=
  match arrival.kind with
  | .frame isMgt => .start .hostConsumedFrame isMgt (isMgt && arrival.reoRequired) arrival.reoParams
  | .event type => .start type true arrival.reoRequired arrival.reoParams

def Arrival.hosts (arrival : Arrival) (hosts : Nat → SnapshotParams) : Nat → SnapshotParams :=
  match arrival.kind with
  | .frame isMgt =>
    (frameHandler arrival.around hosts isMgt arrival.reoRequired arrival.reoParams).1
  | .event type => eventHandler arrival.around hosts type arrival.reoRequired arrival.reoParams

def Arrival.use (arrival : Arrival) (hosts : Nat → SnapshotParams) : Option BufferUse :=
  match arrival.kind with
  | .frame isMgt =>
    some (frameHandler arrival.around hosts isMgt arrival.reoRequired arrival.reoParams).2
  | .event _ => none

def Arrival.accepted (arrival : Arrival) (hosts : Nat → SnapshotParams) : Bool :=
  arrival.isMgt && arrival.reoParams.valid &&
    match updateHostSnapshot arrival.around.pktCtrDeltaThresh (hosts arrival.link) arrival.desc with
    | .ok (_, updated) => !updated.drop
    | .error _ => false

def LinkState.take (state : LinkState) (arrival : Arrival) : LinkState where
  hosts := arrival.hosts state.hosts
  accepted :=
    if arrival.accepted state.hosts then
      Function.update state.accepted arrival.link (state.accepted arrival.link ++ [arrival.count])
    else state.accepted

def LinkState.Late (state : LinkState) (arrival : Arrival) : Prop :=
  ∃ earlier ∈ state.accepted arrival.link, arrival.count ≤ earlier

/-- The counter is cut from the count, and the count is less than half of the range away from the
latest one of the link. -/
def LinkState.Alive (state : LinkState) (arrival : Arrival) : Prop :=
  arrival.reoParams.mgmtPktCtr = BitVec.ofNat 16 arrival.count ∧
    ∀ latest, (state.accepted arrival.link).getLast? = some latest → Near pktCtrHalfRange arrival.count latest

/-- A late frame is neither handed up nor queued and leaves the snapshot alone, and what is accepted on a link
increases. -/
structure LinkState.DropsLate (state : LinkState) (arrival : Arrival) : Prop where
  dropped : state.Late arrival → arrival.use state.hosts ≠ some .handedUp ∧ arrival.use state.hosts ≠ some .queued
  snapshot : state.Late arrival → arrival.hosts state.hosts arrival.link = state.hosts arrival.link
  increasing : ((state.take arrival).accepted arrival.link).Pairwise (· < ·)

/-- A late frame or event is not taken at all, or repeats the snapshot of its link and no frame is handed up without
reordering. -/
def LinkState.Harmless (state : LinkState) (arrival : Arrival) : Prop :=
  state.Late arrival → (arrival.isMgt && arrival.reoParams.valid) = false ∨
      state.hosts arrival.link = snapshotOf arrival.reoParams ∧
        (arrival.reoRequired = true ∨ ∃ type, arrival.kind = .event type)

def Throughout (property : LinkState → Arrival → Prop) : LinkState → List Arrival → Prop
  | _, [] => True
  | state, arrival :: rest =>
    property state arrival ∧ Throughout property (state.take arrival) rest

def SnapshotParams.Kept (before after : SnapshotParams) : Prop :=
  after = before ∨ after = { before with valid := false }

theorem SnapshotParams.Kept.trans {first : SnapshotParams} (early : first.Kept second)
    (late : second.Kept third) : first.Kept third := by
  rcases early with rfl | rfl
  · exact late
  · rcases late with rfl | rfl
    · exact .inr rfl
    · exact .inr rfl

theorem invalidateStaleSnapshots_kept (shared : SharedSnapshots) (hostSs : SnapshotParams) :
    hostSs.Kept (invalidateStaleSnapshots shared hostSs).2 := by
  unfold invalidateStaleSnapshots
  split
  · exact .inl rfl
  · split
    · exact .inr rfl
    · exact .inl rfl

theorem linkRound_kept (reading : LinkReading) (hostSs : SnapshotParams) (sameLink : Bool)
    (globalTs : BitVec 32) : hostSs.Kept (linkRound reading hostSs sameLink globalTs).1 := by
  cases reading with
  | invalidLink => exact .inl rfl
  | absent => exact .inl rfl
  | failed => exact .inl rfl
  | snapshots shared =>
    have kept := invalidateStaleSnapshots_kept shared hostSs
    unfold linkRound
    dsimp only
    split
    · exact kept
    · exact kept

theorem waitCountRounds_kept (readings : Nat → LinkReading) (inLink : Nat) (globalTs : BitVec 32)
    (link left : Nat) (hosts : Nat → SnapshotParams) (waitCount : WaitCount) (other : Nat) :
    (hosts other).Kept ((waitCountRounds readings inLink globalTs link left hosts waitCount).1 other) := by
  induction left generalizing link hosts waitCount with
  | zero => exact .inl rfl
  | succ left ih =>
    have kept := linkRound_kept (readings link) (hosts link) (decide (link = inLink)) globalTs
    unfold waitCountRounds
    cases round : linkRound (readings link) (hosts link) (decide (link = inLink)) globalTs with
    | mk host pending =>
      rw [round] at kept
      have updated : (hosts other).Kept (update hosts link host other) := by
        by_cases same : other = link
        · rw [same, update_self]
          exact kept
        · rw [update_of_ne same]
          exact .inl rfl
      cases pending with
      | error status => exact updated
      | ok count => exact updated.trans (ih _ _ _)

theorem calculateWaitCount_kept (readings : Nat → LinkReading) (hosts : Nat → SnapshotParams)
    (desc : FrameDescriptor) (other : Nat) : (hosts other).Kept ((calculateWaitCount readings hosts desc).1 other) := by
  unfold calculateWaitCount
  split
  · exact .inl rfl
  · exact waitCountRounds_kept _ _ _ _ _ _ _ _

theorem algoEntryQueue_kept {hosts : Nat → SnapshotParams} (other : Nat) :
    (hosts other).Kept ((algoEntryQueue around hosts desc).hosts other) := by
  have kept := calculateWaitCount_kept around.readings hosts desc other
  unfold algoEntryQueue
  cases counted : calculateWaitCount around.readings hosts desc with
  | mk invalidated result =>
    rw [counted] at kept
    cases result with
    | error status => exact kept
    | ok desc => exact kept

section Entering

variable {arrival : Arrival}

theorem Arrival.desc_fresh (arrival : Arrival) :
    arrival.desc.reoParams = arrival.reoParams ∧ arrival.desc.isMgt = arrival.isMgt ∧ arrival.desc.drop = false := by
  obtain ⟨kind, reoRequired, reoParams, count, around⟩ := arrival
  cases kind <;> exact ⟨rfl, rfl, rfl⟩

theorem Arrival.hosts_eq (arrival : Arrival) (hosts : Nat → SnapshotParams) :
    arrival.hosts hosts = (algoEntry arrival.around hosts arrival.desc).hosts := by
  obtain ⟨kind, reoRequired, reoParams, count, around⟩ := arrival
  cases kind with
  | event type => rfl
  | frame isMgt =>
    cases isMgt <;> cases reoRequired <;>
      simp only [Arrival.hosts, Arrival.desc, frameHandler, Bool.not_true, Bool.not_false,
        Bool.or_true, Bool.or_false, Bool.and_true, Bool.and_false, if_true, Bool.false_eq_true, if_false] <;>
      split
    all_goals first
      | rfl
      | split <;> rfl

theorem Arrival.use_unqueued {hosts : Nat → SnapshotParams}
    (unqueued : (algoEntry arrival.around hosts arrival.desc).isQueued = false) :
    arrival.use hosts ≠ some .queued ∧ (arrival.use hosts = some .handedUp ↔
        (∃ isMgt, arrival.kind = .frame isMgt ∧ (isMgt && arrival.reoRequired) = false) ∧
          (algoEntry arrival.around hosts arrival.desc).status = none) := by
  obtain ⟨kind, reoRequired, reoParams, count, around⟩ := arrival
  cases kind with
  | event type => simp [Arrival.use]
  | frame isMgt =>
    cases isMgt <;> cases reoRequired <;> simp [Arrival.use, Arrival.desc, frameHandler] at unqueued ⊢ <;>
      simp [unqueued]
    all_goals cases status : (algoEntry around hosts _).status <;> simp

theorem Arrival.required_iff (mgt : arrival.isMgt = true) :
    (¬ ∃ isMgt, arrival.kind = .frame isMgt ∧ (isMgt && arrival.reoRequired) = false) ↔
      arrival.reoRequired = true ∨ ∃ type, arrival.kind = .event type := by
  obtain ⟨kind, reoRequired, reoParams, count, around⟩ := arrival
  cases kind with
  | event type => simp
  | frame isMgt =>
    have isMgt : isMgt = true := mgt
    subst isMgt
    simp

theorem Arrival.refused (hosts : Nat → SnapshotParams) (refuses : (arrival.isMgt && arrival.reoParams.valid) = false) :
    arrival.hosts hosts = hosts ∧ arrival.accepted hosts = false ∧
      arrival.use hosts ≠ some .handedUp ∧ arrival.use hosts ≠ some .queued := by
  obtain ⟨params, isMgt, -⟩ := arrival.desc_fresh
  have result : ∃ status, algoEntry arrival.around hosts arrival.desc =
      { hosts := hosts, status := some status, isQueued := false } := by
    unfold algoEntry
    rw [isMgt]
    cases mgt : arrival.isMgt with
    | false => exact ⟨_, rfl⟩
    | true =>
      rw [mgt, Bool.true_and] at refuses
      have insane : checkFrameSanity arrival.desc = .error .eFailure := by
        unfold checkFrameSanity
        rw [params, refuses]
        rfl
      rw [insane]
      exact ⟨_, rfl⟩
  obtain ⟨status, entered⟩ := result
  have unqueued : (algoEntry arrival.around hosts arrival.desc).isQueued = false := by rw [entered]
  obtain ⟨notQueued, handed⟩ := Arrival.use_unqueued unqueued
  refine ⟨by rw [Arrival.hosts_eq, entered], ?_, fun up => ?_, notQueued⟩
  · unfold Arrival.accepted
    rw [refuses, Bool.false_and]
  · have success := (handed.mp up).2
    rw [entered] at success
    cases success

theorem Arrival.entered (hosts : Nat → SnapshotParams)
    (enters : (arrival.isMgt && arrival.reoParams.valid) = true) :
    (match updateHostSnapshot arrival.around.pktCtrDeltaThresh (hosts arrival.link)
        arrival.desc with
      | .error _ => arrival.hosts hosts = hosts ∧ arrival.accepted hosts = false ∧
          arrival.use hosts ≠ some .handedUp ∧ arrival.use hosts ≠ some .queued
      | .ok (hostSs, updated) =>
        if updated.drop then arrival.hosts hosts = update hosts arrival.link hostSs ∧
            arrival.accepted hosts = false ∧ arrival.use hosts ≠ some .queued ∧
            (arrival.use hosts = some .handedUp ↔ ∃ isMgt, arrival.kind = .frame isMgt ∧
              (isMgt && arrival.reoRequired) = false)
        else arrival.accepted hosts = true ∧ ∀ other,
            (update hosts arrival.link hostSs other).Kept (arrival.hosts hosts other)) := by
  obtain ⟨params, isMgt, -⟩ := arrival.desc_fresh
  obtain ⟨mgt, valid⟩ := Bool.and_eq_true_iff.mp enters
  have sane : checkFrameSanity arrival.desc = .ok arrival.desc := by
    unfold checkFrameSanity
    rw [params, valid]
    rfl
  have entry : algoEntry arrival.around hosts arrival.desc =
      match updateHostSnapshot arrival.around.pktCtrDeltaThresh (hosts arrival.link)
        arrival.desc with
      | .error status => { hosts := hosts, status := some status, isQueued := false }
      | .ok (hostSs, updated) =>
        if updated.drop then
          { hosts := update hosts arrival.link hostSs, status := none, isQueued := false }
        else algoEntryQueue arrival.around (update hosts arrival.link hostSs) updated := by
    unfold algoEntry
    rw [isMgt, mgt, sane]
    dsimp only
    rw [params]
    rfl
  cases updating : updateHostSnapshot arrival.around.pktCtrDeltaThresh (hosts arrival.link) arrival.desc with
  | error status =>
    rw [updating] at entry
    have unqueued : (algoEntry arrival.around hosts arrival.desc).isQueued = false := by rw [entry]
    obtain ⟨notQueued, handed⟩ := Arrival.use_unqueued unqueued
    refine ⟨by rw [Arrival.hosts_eq, entry], ?_, fun up => ?_, notQueued⟩
    · unfold Arrival.accepted
      rw [updating, Bool.and_false]
    · have success := (handed.mp up).2
      rw [entry] at success
      cases success
  | ok result =>
    rw [updating] at entry
    dsimp only at entry ⊢
    split
    · rename_i dropped
      rw [if_pos dropped] at entry
      have unqueued : (algoEntry arrival.around hosts arrival.desc).isQueued = false := by
        rw [entry]
      obtain ⟨notQueued, handed⟩ := Arrival.use_unqueued unqueued
      refine ⟨by rw [Arrival.hosts_eq, entry], ?_, notQueued, ?_⟩
      · unfold Arrival.accepted
        rw [updating]
        simp [dropped]
      · rw [handed, entry]
        exact and_iff_left rfl
    · rename_i taken
      rw [if_neg taken] at entry
      refine ⟨?_, fun other => ?_⟩
      · unfold Arrival.accepted
        rw [updating, enters]
        simpa using taken
      · rw [Arrival.hosts_eq, entry]
        exact algoEntryQueue_kept other

end Entering

structure LinkState.Tracks (state : LinkState) (link : Nat) : Prop where
  increasing : (state.accepted link).Pairwise (· < ·)
  latest : (state.hosts link).valid = true → ∃ latest, (state.accepted link).getLast? = some latest ∧
      (state.hosts link).mgmtPktCtr = BitVec.ofNat 16 latest

theorem LinkState.start_tracks (link : Nat) : start.Tracks link where
  increasing := .nil
  latest valid := by cases valid

section Stepping

variable {state : LinkState} {arrival : Arrival}

theorem LinkState.Tracks.late_iff (tracks : state.Tracks arrival.link) {latest : Nat}
    (last : (state.accepted arrival.link).getLast? = some latest) : state.Late arrival ↔ arrival.count ≤ latest := by
  obtain ⟨front, split⟩ := List.getLast?_eq_some_iff.mp last
  have increasing := tracks.increasing
  rw [split] at increasing
  constructor
  · rintro ⟨earlier, among, late⟩
    rw [split, List.mem_append, List.mem_singleton] at among
    rcases among with before | rfl
    · have less := (List.pairwise_append.mp increasing).2.2 earlier before latest (List.mem_singleton_self _)
      omega
    · exact late
  · intro late
    exact ⟨latest, by rw [split]; simp, late⟩

theorem LinkState.Tracks.updateHostSnapshot_eq (tracks : state.Tracks arrival.link)
    (alive : state.Alive arrival) (enters : (arrival.isMgt && arrival.reoParams.valid) = true) :
    (updateHostSnapshot arrival.around.pktCtrDeltaThresh (state.hosts arrival.link) arrival.desc =
        .error .eFailure ∧ ¬ state.Late arrival) ∨
      ∃ updated, updateHostSnapshot arrival.around.pktCtrDeltaThresh (state.hosts arrival.link)
          arrival.desc = .ok (snapshotOf arrival.reoParams, updated) ∧
        (updated.drop = true ↔ (state.hosts arrival.link).valid = true ∧ state.Late arrival) := by
  obtain ⟨params, -, fresh⟩ := arrival.desc_fresh
  obtain ⟨-, valid⟩ := Bool.and_eq_true_iff.mp enters
  unfold updateHostSnapshot
  rw [params, valid, if_neg (by decide)]
  cases known : (state.hosts arrival.link).valid with
  | false =>
    right
    refine ⟨_, if_pos rfl, ?_⟩
    simp [fresh]
  | true =>
    obtain ⟨latest, last, counter⟩ := tracks.latest known
    have near := alive.2 latest last
    have gte : comparePktCtrsGte (state.hosts arrival.link).mgmtPktCtr
        arrival.reoParams.mgmtPktCtr = decide (arrival.count ≤ latest) := by
      rw [counter, alive.1]
      exact near.symm.gte (by decide)
    have delta : subtractPktCtrs arrival.reoParams.mgmtPktCtr
        (state.hosts arrival.link).mgmtPktCtr = (arrival.count : Int) - latest := by
      rw [counter, alive.1]
      exact near.difference (by decide)
    rw [if_neg (by decide)]
    dsimp only
    rw [gte, tracks.late_iff last]
    split
    · left
      refine ⟨rfl, fun late => ?_⟩
      omega
    right
    refine ⟨_, rfl, ?_⟩
    by_cases late : arrival.count ≤ latest
    · rw [decide_eq_true late]
      exact ⟨fun _ => ⟨rfl, late⟩, fun _ => rfl⟩
    · rw [decide_eq_false late, if_neg (by decide), fresh]
      exact ⟨fun no => absurd no (by decide), fun no => absurd no.2 late⟩

theorem LinkState.take_unaccepted (unaccepted : arrival.accepted state.hosts = false) :
    (state.take arrival).accepted = state.accepted := by
  unfold take
  rw [unaccepted]
  rfl

theorem LinkState.take_accepted (ok : arrival.accepted state.hosts = true) : (state.take arrival).accepted =
      update state.accepted arrival.link (state.accepted arrival.link ++ [arrival.count]) := by
  unfold take
  rw [ok]
  rfl

section

variable (tracks : state.Tracks arrival.link)
include tracks

theorem LinkState.Tracks.append_iff :
    (state.accepted arrival.link ++ [arrival.count]).Pairwise (· < ·) ↔ ¬ state.Late arrival := by
  rw [List.pairwise_append]
  constructor
  · rintro ⟨-, -, after⟩ ⟨earlier, among, late⟩
    have less := after earlier among arrival.count (List.mem_singleton_self _)
    omega
  · intro timely
    refine ⟨tracks.increasing, List.pairwise_singleton _ _, fun earlier among later here => ?_⟩
    rw [List.mem_singleton.mp here]
    by_contra late
    exact timely ⟨earlier, among, by omega⟩

theorem LinkState.Tracks.dropsLate_of_unaccepted
    (unaccepted : arrival.accepted state.hosts = false) (dropped : state.Late arrival →
      arrival.use state.hosts ≠ some .handedUp ∧ arrival.use state.hosts ≠ some .queued)
    (snapshot : state.Late arrival → arrival.hosts state.hosts arrival.link = state.hosts arrival.link) :
    state.DropsLate arrival where
  dropped := dropped
  snapshot := snapshot
  increasing := by
    rw [take_unaccepted unaccepted]
    exact tracks.increasing

theorem LinkState.Tracks.dropsLate_iff (alive : state.Alive arrival) :
    state.DropsLate arrival ↔ state.Harmless arrival := by
  cases enters : arrival.isMgt && arrival.reoParams.valid with
  | false =>
    obtain ⟨hosts, unaccepted, notUp, notQueued⟩ := Arrival.refused state.hosts enters
    refine iff_of_true ?_ fun _ => .inl enters
    exact tracks.dropsLate_of_unaccepted unaccepted (fun _ => ⟨notUp, notQueued⟩) fun _ => congrFun hosts _
  | true =>
    have effect := Arrival.entered state.hosts enters
    rcases tracks.updateHostSnapshot_eq alive enters with
      ⟨failed, timely⟩ | ⟨updated, updating, dropped⟩
    · rw [failed] at effect
      refine iff_of_true ?_ fun late => absurd late timely
      exact tracks.dropsLate_of_unaccepted effect.2.1 (fun late => absurd late timely) fun late => absurd late timely
    rw [updating] at effect
    dsimp only at effect
    cases drop : updated.drop with
    | true =>
      obtain ⟨valid, late⟩ := dropped.mp drop
      rw [drop] at effect
      obtain ⟨hosts, unaccepted, notQueued, handed⟩ := effect
      have required : arrival.use state.hosts ≠ some .handedUp ↔
          arrival.reoRequired = true ∨ ∃ type, arrival.kind = .event type := by
        exact (not_congr handed).trans (Arrival.required_iff (Bool.and_eq_true_iff.mp enters).1)
      constructor
      · intro drops
        have same := drops.snapshot late
        rw [hosts, update_self] at same
        exact fun _ => .inr ⟨same.symm, required.mp (drops.dropped late).1⟩
      · intro harmless
        rcases harmless late with refuses | ⟨same, needed⟩
        · rw [enters] at refuses
          cases refuses
        · refine tracks.dropsLate_of_unaccepted unaccepted (fun _ => ⟨required.mpr needed, notQueued⟩) fun _ => ?_
          rw [hosts, update_self, same]
    | false =>
      rw [drop] at effect
      obtain ⟨ok, kept⟩ := effect
      by_cases late : state.Late arrival
      · refine iff_of_false (fun drops => ?_) fun harmless => ?_
        · have increasing := drops.increasing
          rw [take_accepted ok, update_self] at increasing
          exact tracks.append_iff.mp increasing late
        · rcases harmless late with refuses | ⟨same, -⟩
          · rw [enters] at refuses
            cases refuses
          · have valid : (state.hosts arrival.link).valid = true := by
              rw [same]
              rfl
            rw [dropped.mpr ⟨valid, late⟩] at drop
            cases drop
      · refine iff_of_true ⟨fun here => absurd here late, fun here => absurd here late, ?_⟩ fun here => absurd here late
        rw [take_accepted ok, update_self]
        exact tracks.append_iff.mpr late

end

theorem SnapshotParams.Kept.mgmtPktCtr {before : SnapshotParams} (kept : before.Kept after) :
    after.mgmtPktCtr = before.mgmtPktCtr ∧ (after.valid = true → before.valid = true) := by
  rcases kept with rfl | rfl
  · exact ⟨rfl, id⟩
  · exact ⟨rfl, fun valid => by cases valid⟩

theorem LinkState.Tracks.take_unaccepted (tracks : state.Tracks link)
    (hosts : arrival.hosts state.hosts = state.hosts) (unaccepted : arrival.accepted state.hosts = false) :
    (state.take arrival).Tracks link := by
  have ok := LinkState.take_unaccepted unaccepted
  have same : (state.take arrival).hosts = state.hosts := hosts
  constructor
  · rw [ok]
    exact tracks.increasing
  · rw [ok, same]
    exact tracks.latest

theorem LinkState.Tracks.take_accepted (tracks : ∀ link, state.Tracks link)
    (alive : state.Alive arrival) (timely : ¬ state.Late arrival) (ok : arrival.accepted state.hosts = true)
    (kept : ∀ other, (update state.hosts arrival.link (snapshotOf arrival.reoParams)
      other).Kept (arrival.hosts state.hosts other)) (link : Nat) : (state.take arrival).Tracks link := by
  have list := LinkState.take_accepted ok
  obtain ⟨counter, valid⟩ := (kept link).mgmtPktCtr
  by_cases same : link = arrival.link
  · subst same
    rw [update_self] at counter
    constructor
    · rw [list, update_self]
      exact (tracks arrival.link).append_iff.mpr timely
    · intro known
      refine ⟨arrival.count, ?_, counter.trans alive.1⟩
      rw [list, update_self, List.getLast?_concat]
  · rw [update_of_ne same] at counter valid
    constructor
    · rw [list, update_of_ne same]
      exact (tracks link).increasing
    · intro known
      obtain ⟨latest, last, before⟩ := (tracks link).latest (valid known)
      refine ⟨latest, ?_, counter.trans before⟩
      rw [list, update_of_ne same]
      exact last

theorem LinkState.Tracks.take (tracks : ∀ link, state.Tracks link) (alive : state.Alive arrival)
    (harmless : state.Harmless arrival) (link : Nat) : (state.take arrival).Tracks link := by
  cases enters : arrival.isMgt && arrival.reoParams.valid with
  | false =>
    obtain ⟨hosts, unaccepted, -⟩ := Arrival.refused state.hosts enters
    exact (tracks link).take_unaccepted hosts unaccepted
  | true =>
    have effect := Arrival.entered state.hosts enters
    rcases (tracks arrival.link).updateHostSnapshot_eq alive enters with
      ⟨failed, timely⟩ | ⟨updated, updating, dropped⟩
    · rw [failed] at effect
      exact (tracks link).take_unaccepted effect.1 effect.2.1
    rw [updating] at effect
    dsimp only at effect
    have exact : state.Late arrival → state.hosts arrival.link = snapshotOf arrival.reoParams := by
      intro late
      rcases harmless late with refuses | ⟨same, -⟩
      · rw [enters] at refuses
        cases refuses
      · exact same
    cases drop : updated.drop with
    | true =>
      rw [drop] at effect
      obtain ⟨hosts, unaccepted, -⟩ := effect
      have same := exact (dropped.mp drop).2
      rw [← same, update_eq_self] at hosts
      exact (tracks link).take_unaccepted hosts unaccepted
    | false =>
      rw [drop] at effect
      obtain ⟨ok, kept⟩ := effect
      have timely : ¬ state.Late arrival := by
        intro late
        have valid : (state.hosts arrival.link).valid = true := by
          rw [exact late]
          rfl
        rw [dropped.mpr ⟨valid, late⟩] at drop
        cases drop
      exact LinkState.Tracks.take_accepted tracks alive timely ok kept link

end Stepping

/-- In a run from the start, a link never uses a late frame nor its counter exactly if every late arrival is
harmless. -/
theorem dropsLate_iff_harmless {arrivals : List Arrival}
    (alive : Throughout LinkState.Alive .start arrivals) : Throughout LinkState.DropsLate .start arrivals ↔
      Throughout LinkState.Harmless .start arrivals := by
  have general : ∀ state : LinkState, (∀ link, state.Tracks link) →
      Throughout LinkState.Alive state arrivals → (Throughout LinkState.DropsLate state arrivals ↔
        Throughout LinkState.Harmless state arrivals) := by
    clear alive
    induction arrivals with
    | nil => exact fun _ _ _ => Iff.rfl
    | cons arrival rest ih =>
      intro state tracks alive
      have here := (tracks arrival.link).dropsLate_iff alive.1
      constructor
      · rintro ⟨drops, later⟩
        have harmless := here.mp drops
        exact ⟨harmless, (ih _ (LinkState.Tracks.take tracks alive.1 harmless) alive.2).mp later⟩
      · rintro ⟨harmless, later⟩
        exact ⟨here.mpr harmless, (ih _ (LinkState.Tracks.take tracks alive.1 harmless) alive.2).mpr later⟩
  exact general .start LinkState.start_tracks alive

def forwarded (reoRequired : Bool) (count : Nat) (ts : BitVec 32) : Arrival where
  kind := .frame true
  reoRequired := reoRequired
  reoParams := {
    valid := true
    linkId := 0
    mgmtPktCtr := BitVec.ofNat 16 count
    globalTimestamp := ts
    startTimestamp := ts
    endTimestamp := ts + 1 }
  count := count
  around := {
    pktCtrDeltaThresh := 0
    readings := fun link =>
      if link = 0 then .snapshots {
          macHw := ⟨true, BitVec.ofNat 16 count, ts⟩
          fwConsumed := ⟨false, 0, 0⟩
          fwForwarded := ⟨true, BitVec.ofNat 16 count, ts⟩ }
      else .invalidLink
    maxEgressSize := 256
    ingress := []
    egress := []
    lastReleased := { valid := false, reoParams := ⟨false, 0, 0, 0, 0, 0⟩ }
    allocated := true
    now := 0
    released := none }

theorem forwarded_twice (reoRequired : Bool) : (start.take (forwarded reoRequired 5 100)).accepted 0 = [5] ∧
      (start.take (forwarded reoRequired 5 100)).hosts 0 = ⟨true, 5, 100⟩ := by
  cases reoRequired <;> decide +kernel

theorem forwarded_twice_alive (reoRequired : Bool) : Throughout LinkState.Alive .start
      [forwarded reoRequired 5 100, forwarded reoRequired 5 100] := by
  refine ⟨⟨rfl, fun latest last => by cases last⟩, ⟨rfl, fun latest last => ?_⟩, trivial⟩
  have link : (forwarded reoRequired 5 100).link = 0 := rfl
  rw [link, (forwarded_twice reoRequired).1, List.getLast?_singleton, Option.some.injEq] at last
  subst last
  exact Near.self (by decide)

theorem dropsLate_reordered_twice :
    Throughout LinkState.DropsLate .start [forwarded true 5 100, forwarded true 5 100] := by
  refine (dropsLate_iff_harmless (forwarded_twice_alive true)).mpr
    ⟨fun late => ?_, fun _ => .inr ⟨(forwarded_twice true).2, .inl rfl⟩, trivial⟩
  obtain ⟨earlier, among, -⟩ := late
  cases among

/-- A frame that needs no reordering is handed up again when it is received again. -/
theorem duplicate_handed_up : ¬ ∀ arrivals, Throughout LinkState.Alive .start arrivals →
      Throughout LinkState.DropsLate .start arrivals := by
  intro always
  obtain ⟨-, second, -⟩ := always _ (forwarded_twice_alive false)
  refine (second.dropped ⟨5, ?_, le_refl 5⟩).1 (by decide +kernel)
  exact List.mem_singleton_self 5

end KernelModules.MgmtRx

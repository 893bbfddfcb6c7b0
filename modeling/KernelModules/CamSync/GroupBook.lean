import Mathlib.Algebra.Group.Nat.Defs
import KernelModules.CamSync.MergeTrace

namespace KernelModules.CamSync

open Data SyncTable List SyncDevice SyncTableRow SyncState

/-! # Counting the children of groups

A group completes when its last pending child is signaled.  The count is right as long as no pending child is
destroyed and no entry of a child outlives it.
-/

def SyncTable.LiveGroup (table : SyncTable) (group : Nat) : Prop :=
  (table.rows group).type = .group ∧ (table.rows group).state ≠ .invalid

def SyncTable.pendingChildren (table : SyncTable) (group : Nat) : List Nat :=
  (table.rows group).childrenList.filter table.pending

structure GroupsCounted (table : SyncTable) : Prop where
  remaining : ∀ group, table.LiveGroup group →
    (table.rows group).remaining.toNat = (table.pendingChildren group).length
  inverse : ∀ group child, table.LiveGroup group → table.pending child = true →
    (child ∈ (table.rows group).childrenList ↔ group ∈ (table.rows child).parentsList)
  completed : ∀ group, table.LiveGroup group → table.pendingChildren group = [] →
    (table.rows group).state.signaled = true ∧ (table.rows group).signaled = true

def SyncTable.Unlisted (table : SyncTable) (idx : Nat) : Prop :=
  ∀ group, idx ∉ (table.rows group).childrenList

def CountedCall (dev : SyncDevice) : SyncCall → Prop
  | .create _ => ∀ idx, dev.syncTable.findFirstZeroBit = some idx → dev.syncTable.Unlisted idx
  | .merge syncObj _ checked reserved => checked = [] ∧ reserved = [] ∧
      ∀ idx, dev.syncTable.findFirstZeroBit = some idx → dev.syncTable.Unlisted idx ∨
        (∀ id ∈ syncObj, dev.syncTable.pending id.toNat = false) ∨
        ∃ id ∈ syncObj, (dev.row id.toNat).state.failed = true
  | .destroy syncObj => ∀ idx, camSyncObject syncObj = some idx → (dev.row idx).parentsList = []
  | _ => True

structure SyncTable.Counted (table : SyncTable) (group : Nat) : Prop where
  remaining : (table.rows group).remaining.toNat = (table.pendingChildren group).length
  back : ∀ child ∈ (table.rows group).childrenList, table.pending child = true →
    group ∈ (table.rows child).parentsList
  completed : table.pendingChildren group = [] →
    (table.rows group).state.signaled = true ∧ (table.rows group).signaled = true

def SyncTable.AllCounted (table : SyncTable) : Prop :=
  ∀ group, table.LiveGroup group → table.Counted group

section Counting

variable {table after : SyncTable} {idx child : Nat} {state : SyncState} {eventCause : BitVec 32}
  {synxObj : Bool} {children : List Nat}

theorem SyncTable.AllCounted.groupsCounted (counted : table.AllCounted) (linked : table.Linked) :
    GroupsCounted table where
  remaining := fun group live => (counted group live).remaining
  inverse := fun group child live pending =>
    ⟨fun mem => (counted group live).back child mem pending, fun mem => (linked.up child group mem).2.2⟩
  completed := fun group live => (counted group live).completed

theorem SyncTable.Counted.congr (counted : table.Counted group) (same : (after.rows group).SameBooks (table.rows group))
    (pending : ∀ child ∈ (table.rows group).childrenList, after.pending child = table.pending child)
    (parents : ∀ child ∈ (table.rows group).childrenList, table.pending child = true →
      group ∈ (table.rows child).parentsList → group ∈ (after.rows child).parentsList) : after.Counted group := by
  have waiting : after.pendingChildren group = table.pendingChildren group := by
    unfold pendingChildren
    rw [same.childrenList]
    exact filter_congr pending
  constructor
  case remaining =>
    rw [same.remaining, waiting]
    exact counted.remaining
  case back =>
    intro child mem awaited
    rw [same.childrenList] at mem
    rw [pending child mem] at awaited
    exact parents child mem awaited (counted.back child mem awaited)
  case completed =>
    intro none
    rw [waiting] at none
    rw [same.state, same.signaled]
    exact counted.completed none

theorem SyncTable.LiveGroup.of_sameBooks (live : after.LiveGroup group)
    (same : (after.rows group).SameBooks (table.rows group)) : table.LiveGroup group := by
  unfold SyncTable.LiveGroup at live ⊢
  rw [← same.type, ← same.state]
  exact live

theorem Quiet.allCounted {after : SyncDevice} (quiet : Quiet dev after) (counted : dev.syncTable.AllCounted) :
    after.syncTable.AllCounted := by
  intro group live
  have same := quiet.rows group
  refine (counted group (live.of_sameBooks same)).congr same (fun child _ => ?_) fun child _ _ => ?_
  · exact congrArg (fun state => decide (state = .active)) (quiet.rows child).state
  · rw [← row, ← row, (quiet.rows child).parentsList]
    exact id

theorem SyncTable.AllCounted.createObject (counted : table.AllCounted)
    (unlisted : table.Unlisted idx) : (table.createObject idx synxObj).AllCounted := by
  intro group live
  have different : group ≠ idx := by
    rintro rfl
    have type := live.1
    rw [createObject_rows, if_pos rfl] at type
    cases type
  have kept : ∀ other, other ≠ idx → (table.createObject idx synxObj).rows other = table.rows other := by
    intro other another
    rw [createObject_rows, if_neg another]
  have same : ((table.createObject idx synxObj).rows group).SameBooks (table.rows group) := by
    rw [kept group different]
    exact .refl _
  have apart : ∀ child ∈ (table.rows group).childrenList, child ≠ idx := by
    rintro child mem rfl
    exact unlisted group mem
  refine (counted group (live.of_sameBooks same)).congr same (fun child mem => ?_) fun child mem _ => ?_
  · unfold pending
    rw [kept child (apart child mem)]
  · rw [kept child (apart child mem)]
    exact id

theorem SyncTable.AllCounted.destroyObject (counted : table.AllCounted) (linked : table.Linked)
    (unawaited : (table.rows idx).parentsList = []) : (table.destroyObject idx).AllCounted := by
  intro group live
  have apart : group ≠ idx := by
    rintro rfl
    have valid := live.2
    rw [destroyObject_rows linked, if_pos rfl] at valid
    exact valid rfl
  have same : ((table.destroyObject idx).rows group).SameBooks (table.rows group) := by
    have childless : idx ∈ (table.rows group).parentsList → False := by
      intro mem
      have type := (linked.up _ _ mem).2.1
      have group := live.1
      rw [destroyObject_rows linked, if_neg apart] at group
      rw [type] at group
      cases group
    rw [destroyObject_rows linked, if_neg apart, unawaited]
    refine ⟨rfl, ?_, rfl, rfl, rfl, rfl⟩
    exact erase_of_not_mem childless
  have before := counted group (live.of_sameBooks same)
  refine before.congr same (fun child mem => ?_) fun child mem pending above => ?_
  · unfold pending
    rw [destroyObject_rows linked]
    split
    · rename_i gone
      rw [gone] at mem
      have settled : table.pending idx = false := by
        cases waits : table.pending idx with
        | false => rfl
        | true =>
          have above := before.back idx mem waits
          rw [unawaited] at above
          cases above
      rw [gone]
      exact settled.symm
    · rfl
  · have another : child ≠ idx := by
      rintro rfl
      rw [unawaited] at above
      cases above
    rw [destroyObject_rows linked, if_neg another]
    exact (mem_erase_of_ne apart).mpr above

theorem SyncTableRow.childSignaled_remaining {row : SyncTableRow} :
    (row.childSignaled state eventq).remaining = row.remaining - 1 := by
  unfold childSignaled
  dsimp only
  split
  · rfl
  · split <;> simp

theorem updateParentState_signaled (signaled : state.signaled = true)
    (updated : updateParentState state old = some new) : new.signaled = true := by
  cases old <;> cases updated
  · exact signaled
  · exact signaled
  · rfl
  · rfl

theorem SyncTableRow.childSignaled_state {row : SyncTableRow} (signaled : state.signaled = true) :
    (row.childSignaled state eventq).state ≠ .active := by
  unfold childSignaled
  dsimp only
  split
  · rename_i invalid
    intro active
    rw [active] at invalid
    cases invalid
  rename_i updated
  have done := updateParentState_signaled signaled updated
  intro active
  split at active
  · rw [dispatched_frame.1] at active
    dsimp only at active
    rw [active] at done
    cases done
  · dsimp only at active
    rw [active] at done
    cases done

theorem SyncTableRow.childSignaled_completes {row : SyncTableRow} (signaled : state.signaled = true)
    (valid : row.state ≠ .invalid) (last : row.remaining - 1 = 0) :
    (row.childSignaled state eventq).state.signaled = true ∧ (row.childSignaled state eventq).signaled = true := by
  unfold childSignaled
  cases updated : updateParentState state row.state with
  | none => cases old : row.state <;> simp_all [updateParentState]
  | some new =>
    have done := updateParentState_signaled signaled updated
    have newValid := signaled_valid done
    dsimp only
    rw [if_pos last, dispatched, if_neg newValid]
    exact ⟨done, rfl⟩

theorem SyncTable.AllCounted.signal_pending (counted : table.AllCounted) (linked : table.Linked)
    (individual : (table.rows idx).type = .indv) (signaled : state.signaled = true)
    (live : table.LiveGroup group) (mem : child ∈ (table.rows group).childrenList) :
    (table.signalObject idx state eventCause).pending child = (table.pending child && child != idx) := by
  unfold pending
  rw [signalObject_rows linked individual]
  split
  · rename_i same
    have settled : ((table.rows idx).objectSignaled state table.camSyncEventq).state ≠ .active := by
      intro active
      simp only [objectSignaled, dispatched_frame.1] at active
      rw [active] at signaled
      cases signaled
    simp [settled, same]
  rename_i different
  have apart : (child != idx) = true := by simpa using different
  rw [apart, Bool.and_true]
  split
  · rename_i above
    have parentless := linked.group_parents (linked.parent_live above).1
    have unawaited : (table.rows child).state ≠ .active := by
      intro active
      have back := (counted group live).back child mem (decide_eq_true active)
      rw [parentless] at back
      cases back
    rw [decide_eq_false unawaited, decide_eq_false (childSignaled_state signaled)]
  · rfl

theorem SyncTable.Linked.signal_parents (linked : table.Linked)
    (individual : (table.rows idx).type = .indv) (apart : child ≠ idx)
    (above : group ∈ (table.rows child).parentsList) :
    group ∈ ((table.signalObject idx state eventCause).rows child).parentsList := by
  rw [signalObject_rows linked individual, if_neg apart, if_neg]
  · exact above
  · intro mem
    rw [linked.group_parents (linked.parent_live mem).1] at above
    cases above

theorem SyncTable.AllCounted.signalObject (counted : table.AllCounted) (linked : table.Linked)
    (active : (table.rows idx).state = .active) (individual : (table.rows idx).type = .indv)
    (signaled : state.signaled = true) : (table.signalObject idx state eventCause).AllCounted := by
  intro group live
  have valid := signaled_valid signaled
  have links (other : Nat) := signalObject_links linked active individual valid other eventCause
  have liveBefore : table.LiveGroup group :=
    ⟨(links group).1.symm.trans live.1, fun gone => live.2 ((links group).2.1.mpr gone)⟩
  have before := counted group liveBefore
  have different : group ≠ idx := by
    rintro rfl
    have type := liveBefore.1
    rw [individual] at type
    cases type
  have pending : ∀ child ∈ (table.rows group).childrenList, (table.signalObject idx state eventCause).pending child =
        (table.pending child && child != idx) := fun child listed =>
    counted.signal_pending linked individual signaled liveBefore listed
  by_cases awaited : group ∈ (table.rows idx).parentsList
  · have row : (table.signalObject idx state eventCause).rows group =
        (table.rows group).childSignaled state table.camSyncEventq := by
      rw [signalObject_rows linked individual, if_neg different, if_pos awaited]
    have mem : idx ∈ table.pendingChildren group :=
      mem_filter.mpr ⟨(linked.up idx group awaited).2.2, decide_eq_true active⟩
    have waiting : (table.signalObject idx state eventCause).pendingChildren group =
        (table.pendingChildren group).erase idx := by
      unfold pendingChildren
      rw [(links group).2.2.1, filter_congr pending,
        ((linked.distinctDown group).filter _).erase_eq_filter, filter_filter]
      exact filter_congr fun _ _ => Bool.and_comm _ _
    have pos := length_pos_of_mem mem
    have fewer : ((table.rows group).remaining - 1).toNat = (table.rows group).remaining.toNat - 1 := by
      have := before.remaining
      bv_omega
    constructor
    case remaining =>
      rw [row, childSignaled_remaining, fewer, before.remaining, waiting, length_erase_of_mem mem]
    case back =>
      intro child listed awaits
      rw [(links group).2.2.1] at listed
      rw [pending child listed, Bool.and_eq_true, bne_iff_ne] at awaits
      exact linked.signal_parents individual awaits.2 (before.back child listed awaits.1)
    case completed =>
      intro none
      rw [waiting] at none
      have single := length_erase_of_mem mem
      rw [none, ← before.remaining] at single
      rw [row]
      refine childSignaled_completes signaled liveBefore.2 ?_
      rw [← BitVec.toNat_inj, fewer, ← single]
      rfl
  · have row : (table.signalObject idx state eventCause).rows group = table.rows group := by
      rw [signalObject_rows linked individual, if_neg different, if_neg awaited]
    have apart : ∀ child ∈ (table.rows group).childrenList, child ≠ idx := by
      rintro child listed rfl
      exact awaited (before.back child listed (decide_eq_true active))
    refine before.congr (by rw [row]; exact .refl _) (fun child listed => ?_) fun child listed _ above => ?_
    · rw [pending child listed]
      simp [apart child listed]
    · exact linked.signal_parents individual (apart child listed) above

theorem Abandoned.allCounted (given : Abandoned table after idx) (linked : table.Linked)
    (clear : table.bitmap idx = false) (counted : table.AllCounted) : after.AllCounted := by
  intro group live
  have unused := linked.free idx clear
  have apart : group ≠ idx := by
    rintro rfl
    exact live.2 given.invalid
  have same : (after.rows group).SameBooks (table.rows group) := by
    rw [given.others group apart]
    exact .refl _
  refine (counted group (live.of_sameBooks same)).congr same (fun child _ => ?_) fun child _ pending above => ?_
  · unfold pending
    rcases eq_or_ne child idx with rfl | another
    · rw [given.invalid, unused]
    · rw [given.others child another]
  · have another : child ≠ idx := by
      rintro rfl
      have active : (table.rows child).state = .active := of_decide_eq_true pending
      rw [unused] at active
      cases active
    rw [given.others child another]
    exact above

theorem SyncTable.mergedState_failed (failed : ∃ child ∈ children, (table.rows child).state.failed = true) :
    (table.mergedState children).failed = true := by
  have kept (children : List Nat) (state : SyncState) (start : state.failed = true ∨
      ∃ child ∈ children, (table.rows child).state.failed = true) : (children.foldl (fun state child =>
        if (table.rows child).state.failed then (table.rows child).state else state)
          state).failed = true := by
    induction children generalizing state with
    | nil =>
      rcases start with start | ⟨child, mem, _⟩
      · exact start
      · cases mem
    | cons child rest ih =>
      have next : (if (table.rows child).state.failed then (table.rows child).state
          else state).failed = true ∨ ∃ child ∈ rest, (table.rows child).state.failed = true := by
        split
        · rename_i here
          exact .inl here
        rename_i settled
        rcases start with start | ⟨other, mem, there⟩
        · exact .inl start
        · rcases mem_cons.mp mem with rfl | later
          · exact absurd there settled
          · exact .inr ⟨other, later, there⟩
      exact ih _ next
  exact kept children .active (.inr failed)

theorem children_lt (nodup : children.Nodup)
    (inside : ∀ child ∈ children, child < camSyncMaxObjs) : children.length < 2 ^ 32 := by
  have few : children.length ≤ (List.range camSyncMaxObjs).length :=
    List.Nodup.length_le_of_subset nodup fun child mem =>
      mem_range.mpr (inside child mem)
  rw [length_range] at few
  exact Nat.lt_of_le_of_lt few (by decide)

theorem newGroup_remaining (alloc : children.length < 2 ^ 32) :
    (table.groupRow idx children).remaining.toNat = (children.filter table.pending).length := by
  have fewer := length_filter_le table.pending children
  unfold groupRow
  rw [BitVec.toNat_ofNat, Nat.mod_eq_of_lt (by omega)]

theorem SyncTableRow.concludeGroup_remaining {row : SyncTableRow} : row.concludeGroup.remaining = row.remaining := by
  unfold concludeGroup
  split <;> rfl

theorem newGroup_settled (alloc : children.length < 2 ^ 32)
    (settled : (∀ child ∈ children, table.pending child = false) ∨
      ∃ child ∈ children, (table.rows child).state.failed = true) :
    (table.groupRow idx children).concludeGroup.state ≠ .active := by
  unfold concludeGroup
  split
  · split
    · exact noConfusion
    · rename_i failed
      intro active
      exact failed ⟨by rw [active]; exact noConfusion, by rw [active]; exact noConfusion⟩
  rename_i waits
  rcases settled with settled | failed
  · refine absurd ?_ waits
    have none : children.filter table.pending = [] :=
      filter_eq_nil_iff.mpr fun child mem => by simp [settled child mem]
    rw [← BitVec.toNat_inj, newGroup_remaining alloc, none]
    rfl
  · have failed := mergedState_failed failed
    intro active
    change table.mergedState children = .active at active
    rw [active] at failed
    cases failed

theorem newGroup_completed (none : children.filter table.pending = []) :
    (table.groupRow idx children).concludeGroup.state.signaled = true ∧
      (table.groupRow idx children).concludeGroup.signaled = true := by
  have finished : (table.groupRow idx children).remaining = 0 := by
    unfold SyncTable.groupRow
    rw [none]
    rfl
  unfold SyncTableRow.concludeGroup
  rw [if_pos finished]
  refine ⟨?_, rfl⟩
  split
  · rfl
  · cases state : (table.groupRow idx children).state <;> simp_all [SyncState.signaled]

theorem SyncTable.AllCounted.merged (counted : table.AllCounted) (linked : table.Linked)
    (clear : table.bitmap idx = false) (nodup : children.Nodup)
    (inside : ∀ child ∈ children, child < camSyncMaxObjs) (another : idx ∉ children)
    (mergeable : ∀ child ∈ children, table.Mergeable child) (joined : Joined (table.setBit idx) after idx children)
    (group : after.rows idx = ((table.setBit idx).groupRow idx children).concludeGroup)
    (apart : table.Unlisted idx ∨ (∀ child ∈ children, table.pending child = false) ∨
      ∃ child ∈ children, (table.rows child).state.failed = true) : after.AllCounted := by
  have alloc := children_lt nodup inside
  have unused := linked.free idx clear
  have others := joined.others
  have pending : ∀ child, child ≠ idx → after.pending child = table.pending child := by
    intro child different
    unfold SyncTable.pending
    rw [others child different]
    split <;> rfl
  intro parent live
  rcases eq_or_ne parent idx with rfl | different
  · have waits : (after.rows parent).childrenList = children.filter table.pending := by
      rw [group]
      exact (SyncTableRow.concludeGroup_links _ SyncTable.mergedState_valid).2.2.2
    have waiting : after.pendingChildren parent = children.filter table.pending := by
      unfold SyncTable.pendingChildren
      rw [waits, filter_filter]
      refine filter_congr fun child mem => ?_
      have distinctChild : child ≠ parent := by
        rintro rfl
        exact another mem
      rw [pending child distinctChild, Bool.and_self]
    constructor
    case remaining =>
      rw [waiting, group, SyncTableRow.concludeGroup_remaining]
      exact newGroup_remaining alloc
    case back =>
      intro child listed _
      rw [waits] at listed
      obtain ⟨mem, awaited⟩ := mem_filter.mp listed
      have distinctChild : child ≠ parent := by
        rintro rfl
        exact another mem
      rw [others child distinctChild, if_pos ⟨mem, awaited⟩]
      exact mem_append_right _ (mem_singleton.mpr rfl)
    case completed =>
      intro none
      rw [waiting] at none
      rw [group]
      exact newGroup_completed none
  · have same : after.rows parent = table.rows parent := by
      have row := others parent different
      split at row
      · rename_i merged
        have type := live.1
        rw [row] at type
        exact absurd ((mergeable parent merged.1).1.symm.trans type) SyncType.noConfusion
      · exact row
    have books : (after.rows parent).SameBooks (table.rows parent) := by
      rw [same]
      exact .refl _
    refine (counted parent (live.of_sameBooks books)).congr books (fun child listed => ?_)
      fun child listed _ above => ?_
    · rcases eq_or_ne child idx with rfl | distinctChild
      · have settled : after.pending child = false := by
          rcases apart with unlisted | settled
          · exact absurd listed (unlisted parent)
          · unfold SyncTable.pending
            rw [group]
            exact decide_eq_false (newGroup_settled alloc settled)
        rw [settled]
        unfold SyncTable.pending
        rw [unused]
        rfl
      · exact pending child distinctChild
    · have distinctChild : child ≠ idx := by
        rintro rfl
        rw [(linked.invalid_lists unused).1] at above
        cases above
      rw [others child distinctChild]
      split
      · exact mem_append_left _ above
      · exact above

end Counting

section Runs

variable {dev after : SyncDevice} {call : SyncCall}

theorem syncStep_allCounted (linked : dev.syncTable.Linked) (counted : dev.syncTable.AllCounted)
    (allowed : CountedCall dev call) (done : syncStep dev call = some after) : after.syncTable.AllCounted := by
  cases call with
  | create =>
    cases camSyncCreateUtil_effect done with
    | refused => exact counted
    | created free named => exact counted.createObject (allowed _ free)
  | merge syncObj allocs checked reserved =>
    obtain ⟨rfl, rfl, apart⟩ := allowed
    obtain ⟨⟨code, result⟩, ret, rfl⟩ := Option.map_eq_some_iff.mp done
    obtain ⟨alone, others, effect⟩ := camSyncMerge_effect linked ret
    cases others
    cases effect with
    | refused => exact counted
    | abandoned late free clear given => exact given.allCounted linked clear counted
    | merged others found clear distinct inside another mergeable joined group =>
      cases others
      refine counted.merged linked clear distinct inside another mergeable joined group ?_
      refine (apart _ found).imp_right (Or.imp (fun settled child mem => ?_) ?_)
      · obtain ⟨id, listed, rfl⟩ := mem_map.mp mem
        exact settled id listed
      · rintro ⟨id, listed, failed⟩
        exact ⟨id.toNat, mem_map.mpr ⟨id, listed, rfl⟩, failed⟩
  | signal =>
    cases camSyncSignal_effect done with
    | refused => exact counted
    | @deferred idx named active =>
      have quiet : Quiet dev (dev.run (·.modify idx fun row =>
          { row with refCnt := row.refCnt - 1 })) :=
        .of_modify fun _ => ⟨rfl, rfl, rfl, rfl, rfl, rfl⟩
      exact quiet.allCounted counted
    | signaled cause named active individual last known =>
      exact counted.signalObject linked active individual (ofStatus_signaled known)
  | destroy syncObj =>
    obtain ⟨⟨code, result⟩, ret, rfl⟩ := Option.map_eq_some_iff.mp done
    cases named : camSyncObject syncObj with
    | none =>
      rw [camSyncDestroy_unnamed named] at ret
      cases ret
      exact counted
    | some idx =>
      rw [camSyncDestroy_named named] at ret
      split at ret
      · cases ret
      split at ret
      · cases ret
        exact counted
      split at ret
      · cases ret
        exact counted.destroyObject linked (allowed idx named)
      · cases ret
  | _ => exact (syncStep_quiet rfl done).allCounted counted

/-- In every history that destroys no pending child, and makes no object at an index that a group still lists, the
counts and links of all groups are right. -/
theorem groups_counted (reached : Reachable syncStep CountedCall .probed dev) : GroupsCounted dev.syncTable := by
  have kept : dev.syncTable.Linked ∧ dev.syncTable.AllCounted := by
    refine reached.invariant (fun dev => dev.syncTable.Linked ∧ dev.syncTable.AllCounted)
      ⟨probed_linked, fun group live => absurd rfl live.2⟩ ?_
    rintro before action after ⟨linked, counted⟩ permitted taken
    exact ⟨syncStep_linked linked taken, syncStep_allCounted linked counted permitted taken⟩
  exact kept.2.groupsCounted kept.1

theorem destroyed_child_run : (runActions syncStep (fun _ _ => True) .probed
      [.create false, .create false, .merge [1, 2] .all [] [], .destroy 1, .getObjRef 2,
        .signal 2 2 0]).map (fun dev => decide ((dev.row 3).type = .group ∧ (dev.row 3).state = .signaledSuccess ∧
          dev.syncTable.pendingChildren 3 = [] ∧ (dev.row 3).signaled = false)) = some true := by
  decide +kernel

theorem destroyed_child_strands_group :
    ∃ dev, Reachable syncStep (fun _ _ => True) .probed dev ∧ ¬ GroupsCounted dev.syncTable := by
  obtain ⟨dev, ran, facts⟩ := Option.map_eq_some_iff.mp destroyed_child_run
  obtain ⟨type, state, none, waiting⟩ := of_decide_eq_true facts
  refine ⟨dev, Reachable.start.run ran, fun counted => ?_⟩
  have live : dev.syncTable.LiveGroup 3 :=
    ⟨type, by rw [← row, state]; exact noConfusion⟩
  have done := (counted.completed 3 live none).2
  rw [← row, waiting] at done
  cases done

theorem groups_counted_pair : ∃ dev : SyncDevice,
    (dev.syncTable.pendingChildren 3 = [1, 2]) ∧ GroupsCounted dev.syncTable := by
  have unlisted : ∀ table : SyncTable, (∀ idx, (table.rows idx).childrenList = []) →
      ∀ idx, table.Unlisted idx := fun table empty idx group listed => by
    rw [empty group] at listed
    cases listed
  let first := probed.run (createObject 1 false)
  let second := first.run (createObject 2 false)
  have none : ∀ idx, (first.syncTable.rows idx).childrenList = [] := fun idx => by
    change ((createObject 1 false .probed).rows idx).childrenList = []
    rw [createObject_rows]
    split <;> rfl
  have noneStill : ∀ idx, (second.syncTable.rows idx).childrenList = [] := fun idx => by
    change ((createObject 2 false first.syncTable).rows idx).childrenList = []
    rw [createObject_rows]
    split
    · rfl
    · exact none idx
  have ran : (syncStep second (.merge [1, 2] .all [] [])).map
      (fun dev => decide (dev.syncTable.pendingChildren 3 = [1, 2])) = some true := by
    decide +kernel
  obtain ⟨dev, merged, waits⟩ := Option.map_eq_some_iff.mp ran
  have create : syncStep .probed (.create false) = some first :=
    camSyncCreateUtil_created (by decide +kernel) (by decide) rfl
  have createAgain : syncStep first (.create false) = some second :=
    camSyncCreateUtil_created (by decide +kernel) (by decide) rfl
  have permitted : CountedCall .probed (.create false) :=
    fun idx _ => unlisted probed (fun _ => rfl) idx
  have permittedAgain : CountedCall first (.create false) :=
    fun idx _ => unlisted first.syncTable none idx
  have permittedMerge : CountedCall second (.merge [1, 2] .all [] []) :=
    ⟨rfl, rfl, fun idx _ => .inl (unlisted second.syncTable noneStill idx)⟩
  have reached : Reachable syncStep CountedCall .probed dev :=
    .next (.next (.next .start permitted create) permittedAgain createAgain) permittedMerge merged
  exact ⟨dev, of_decide_eq_true waits, groups_counted reached⟩

end Runs

end KernelModules.CamSync

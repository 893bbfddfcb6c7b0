import KernelModules.CamSync.Notify

namespace KernelModules.CamSync

open KernelModules.Data List

/-! # The groups and their records

The count of a group is the number of its children that are not signaled, there or not, and its state is its final
status as soon as a child has failed.
-/

structure NotifyBook.Tracked (book : NotifyBook) (table : SyncTable) (group : Nat) : Prop where
  awaiting : ∀ child, child ∈ (book.groups group).awaiting ↔ group ∈ (table.rows child).parentsList
  distinct : (book.groups group).awaiting.Nodup
  remaining : (table.rows group).remaining.toNat = (book.groups group).awaiting.length + (book.groups group).lost
  failed : ∀ status, (book.groups group).firstFailure = some status → (table.rows group).state = status
  passed : (book.groups group).firstFailure = none →
    (table.rows group).state = .active ∨ (table.rows group).state = .signaledSuccess
  finished : (book.groups group).complete = true → (table.rows group).state.signaled = true

section Tracking

variable {book after' : NotifyBook} {tbl after : SyncTable} {group idx child : Nat} {state : SyncState}
  {record : GroupRecord}

theorem GroupRecord.complete_iff : record.complete = true ↔ record.awaiting = [] ∧ record.lost = 0 := by
  unfold GroupRecord.complete
  rw [Bool.and_eq_true, List.isEmpty_iff, beq_iff_eq]

namespace NotifyBook.Tracked

section

variable (tracked : book.Tracked tbl group)
include tracked

theorem complete_iff : (book.groups group).complete = true ↔ (tbl.rows group).remaining = 0 := by
  rw [GroupRecord.complete_iff, ← BitVec.toNat_inj, tracked.remaining]
  change _ ↔ _ = 0
  rw [Nat.add_eq_zero_iff, length_eq_zero_iff]

theorem congr (record : after'.groups group = book.groups group)
    (remaining : (after.rows group).remaining = (tbl.rows group).remaining)
    (state : (after.rows group).state = (tbl.rows group).state)
    (parents : ∀ child, group ∈ (after.rows child).parentsList ↔
      group ∈ (tbl.rows child).parentsList) : after'.Tracked after group := by
  constructor
  case awaiting =>
    intro child
    rw [record, parents child]
    exact tracked.awaiting child
  case distinct => rw [record]; exact tracked.distinct
  case remaining => rw [record, remaining]; exact tracked.remaining
  case failed => rw [record, state]; exact tracked.failed
  case passed => rw [record, state]; exact tracked.passed
  case finished => rw [record, state]; exact tracked.finished

theorem status (complete : (book.groups group).complete = true) :
    (tbl.rows group).state = (book.groups group).status := by
  unfold GroupRecord.status
  cases first : (book.groups group).firstFailure with
  | some status => exact tracked.failed status first
  | none =>
    rcases tracked.passed first with active | success
    · have signaled := tracked.finished complete
      rw [active] at signaled
      cases signaled
    · exact success

end

theorem destroyed (tracked : book.Tracked tbl group) (linked : tbl.Linked)
    (apart : group ≠ idx) : (book.destroy idx).Tracked (tbl.destroyObject idx) group := by
  have row : (tbl.destroyObject idx).rows group = { tbl.rows group with
      parentsList := (tbl.rows group).parentsList.erase idx
      childrenList := if group ∈ (tbl.rows idx).parentsList then
        (tbl.rows group).childrenList.erase idx else (tbl.rows group).childrenList } := by
    rw [SyncTable.destroyObject_rows linked, if_neg apart]
  have parents : ∀ child, group ∈ ((tbl.destroyObject idx).rows child).parentsList ↔
      child ≠ idx ∧ group ∈ (tbl.rows child).parentsList := by
    intro child
    rw [SyncTable.destroyObject_rows linked]
    split
    · rename_i gone
      exact ⟨fun listed => absurd listed not_mem_nil, fun both => absurd gone both.1⟩
    · rename_i distinct
      rw [mem_erase_of_ne apart]
      exact ⟨fun listed => ⟨distinct, listed⟩, And.right⟩
  have groups : (book.destroy idx).groups group = (book.groups group).lose idx := rfl
  by_cases mem : idx ∈ (book.groups group).awaiting
  · have lose : (book.groups group).lose idx = { book.groups group with
        awaiting := (book.groups group).awaiting.erase idx
        lost := (book.groups group).lost + 1 } := if_pos mem
    rw [lose] at groups
    constructor
    case awaiting =>
      intro child
      rw [groups, parents child, ← tracked.awaiting child]
      exact tracked.distinct.mem_erase_iff
    case distinct => rw [groups]; exact tracked.distinct.erase idx
    case remaining =>
      have positive := length_pos_of_mem mem
      rw [groups, row, tracked.remaining, length_erase_of_mem mem]
      dsimp only
      omega
    case failed => rw [groups, row]; exact tracked.failed
    case passed => rw [groups, row]; exact tracked.passed
    case finished =>
      rw [groups, GroupRecord.complete_iff]
      exact fun complete => absurd complete.2 (Nat.succ_ne_zero _)
  · have lose : (book.groups group).lose idx = book.groups group := if_neg mem
    refine tracked.congr (groups.trans lose) (by rw [row]) (by rw [row]) fun child => ?_
    rw [parents child]
    refine ⟨And.right, fun listed => ⟨?_, listed⟩⟩
    rintro rfl
    exact mem ((tracked.awaiting child).mpr listed)

theorem firstFailure_append {status : SyncState} :
    ({ record with outcomes := record.outcomes ++ [status] } : GroupRecord).firstFailure =
      record.firstFailure.or (if status.failed then some status else none) := by
  unfold GroupRecord.firstFailure
  rw [List.find?_append, List.find?_singleton]

theorem childSignaled_state {row : SyncTableRow} (valid : row.state ≠ .invalid) :
    (row.childSignaled state eventq).state = if row.state.failed then row.state else state := by
  unfold SyncTableRow.childSignaled
  cases old : row.state with
  | invalid => exact absurd old valid
  | active | signaledSuccess | signaledError | signaledCancel =>
    simp only [SyncState.updateParentState, SyncState.failed]
    split <;> simp

theorem signaled (tracked : book.Tracked tbl group) (linked : tbl.Linked)
    (active : (tbl.rows idx).state = .active) (individual : (tbl.rows idx).type = .indv)
    (done : state.signaled = true) (live : tbl.LiveGroup group) (eventCause : BitVec 32) :
    (book.signal idx state).Tracked (tbl.signalObject idx state eventCause) group := by
  have apart : group ≠ idx := by
    rintro rfl
    have type := live.1
    rw [individual] at type
    cases type
  have parents : ∀ child, group ∈ ((tbl.signalObject idx state eventCause).rows child).parentsList ↔
      child ≠ idx ∧ group ∈ (tbl.rows child).parentsList := by
    intro child
    constructor
    · intro listed
      rw [SyncTable.signalObject_rows linked individual] at listed
      split at listed
      · cases listed
      rename_i distinct
      refine ⟨distinct, ?_⟩
      split at listed
      · rw [((tbl.rows child).childSignaled_sameLinks tbl.camSyncEventq
          (SyncState.signaled_valid done)).parentsList] at listed
        exact listed
      · exact listed
    · exact fun ⟨distinct, above⟩ => linked.signal_parents individual distinct above
  have groups : (book.signal idx state).groups group = (book.groups group).signal idx state := rfl
  by_cases mem : idx ∈ (book.groups group).awaiting
  · have signal : (book.groups group).signal idx state = { book.groups group with
        awaiting := (book.groups group).awaiting.erase idx
        outcomes := (book.groups group).outcomes ++ [state] } := if_pos mem
    have row : (tbl.signalObject idx state eventCause).rows group =
        (tbl.rows group).childSignaled state tbl.camSyncEventq := by
      rw [SyncTable.signalObject_rows linked individual, if_neg apart, if_pos ((tracked.awaiting idx).mp mem)]
    have first : ((book.signal idx state).groups group).firstFailure =
        (book.groups group).firstFailure.or (if state.failed then some state else none) := by
      rw [groups, signal]
      exact firstFailure_append
    have positive := length_pos_of_mem mem
    rw [signal] at groups
    constructor
    case awaiting =>
      intro child
      rw [groups, parents child, ← tracked.awaiting child]
      exact tracked.distinct.mem_erase_iff
    case distinct => rw [groups]; exact tracked.distinct.erase idx
    case remaining =>
      have fewer : ((tbl.rows group).remaining - 1).toNat = (tbl.rows group).remaining.toNat - 1 := by
        have := tracked.remaining
        bv_omega
      rw [row, SyncTableRow.childSignaled_remaining, fewer, tracked.remaining, groups, length_erase_of_mem mem]
      dsimp only
      omega
    case failed =>
      intro status found
      rw [row, childSignaled_state live.2]
      rw [first] at found
      cases earlier : (book.groups group).firstFailure with
      | some old =>
        rw [earlier] at found
        cases found
        have failed : status.failed = true := List.find?_some earlier
        rw [tracked.failed status earlier, if_pos failed]
      | none =>
        rw [earlier] at found
        split at found
        · cases found
          rcases tracked.passed earlier with running | success
          · rw [running]
            rfl
          · rw [success]
            rfl
        · cases found
    case passed =>
      intro found
      rw [first] at found
      cases earlier : (book.groups group).firstFailure with
      | some old =>
        rw [earlier] at found
        cases found
      | none =>
        rw [earlier] at found
        split at found
        · cases found
        have success : state = .signaledSuccess := by
          cases state <;> simp_all [SyncState.signaled, SyncState.failed]
        rw [row, childSignaled_state live.2, success]
        rcases tracked.passed earlier with running | before
        · rw [running]
          exact .inr rfl
        · rw [before]
          exact .inr rfl
    case finished =>
      intro _
      rw [row, childSignaled_state live.2]
      split
      · cases old : (tbl.rows group).state <;> simp_all [SyncState.failed, SyncState.signaled]
      · exact done
  · have signal : (book.groups group).signal idx state = book.groups group := if_neg mem
    have row : (tbl.signalObject idx state eventCause).rows group = tbl.rows group := by
      rw [SyncTable.signalObject_rows linked individual, if_neg apart,
        if_neg fun listed => mem ((tracked.awaiting idx).mpr listed)]
    refine tracked.congr (groups.trans signal) (by rw [row]) (by rw [row]) fun child => ?_
    rw [parents child]
    refine ⟨And.right, fun listed => ⟨?_, listed⟩⟩
    rintro rfl
    exact mem ((tracked.awaiting child).mpr listed)

theorem mergedState_last : tbl.mergedState children =
    ((children.reverse.find? fun child => (tbl.rows child).state.failed).map fun child =>
      (tbl.rows child).state).getD .active := by
  have kept (state : SyncState) : children.foldl (fun state child =>
        if (tbl.rows child).state.failed then (tbl.rows child).state else state) state =
      ((children.reverse.find? fun child => (tbl.rows child).state.failed).map fun child =>
        (tbl.rows child).state).getD state := by
    induction children generalizing state with
    | nil => rfl
    | cons child rest ih =>
      rw [foldl_cons, ih, reverse_cons, List.find?_append, List.find?_singleton]
      cases rest.reverse.find? fun child => (tbl.rows child).state.failed with
      | some last => rfl
      | none =>
        split <;> rfl
  exact kept .active

theorem merged (alloc : children.length < 2 ^ 32) (joined : Joined (tbl.setBit idx) after idx children)
    (group : after.rows idx = ((tbl.setBit idx).groupRow idx children).concludeGroup)
    (another : idx ∉ children) (unlisted : ∀ other, idx ∉ (tbl.rows other).parentsList)
    (record : after'.groups idx = book.newGroup tbl children)
    (order : (children.reverse.find? fun child => (tbl.rows child).state.failed).map (fun child =>
      (tbl.rows child).state) = (book.outcomes children).find? SyncState.failed)
    (distinct : children.Nodup) : after'.Tracked after idx := by
  have others := joined.others
  have state : (tbl.setBit idx).mergedState children =
      ((book.outcomes children).find? SyncState.failed).getD .active := by
    rw [← order]
    exact mergedState_last
  have waits : (after.rows idx).remaining.toNat = (children.filter tbl.pending).length := by
    rw [group, SyncTableRow.concludeGroup_remaining]
    exact newGroup_remaining alloc
  have concluded : (after.rows idx).state = if ((tbl.setBit idx).groupRow idx children).remaining = 0 then
        if (tbl.setBit idx).mergedState children ≠ .signaledError ∧
            (tbl.setBit idx).mergedState children ≠ .signaledCancel then .signaledSuccess
        else (tbl.setBit idx).mergedState children
      else (tbl.setBit idx).mergedState children := by
    rw [group]
    unfold SyncTableRow.concludeGroup
    split <;> rfl
  constructor
  case awaiting =>
    intro child
    rw [record]
    change child ∈ children.filter tbl.pending ↔ _
    rw [mem_filter]
    rcases eq_or_ne child idx with rfl | apart
    · have parents := (SyncTableRow.concludeGroup_links
        ((tbl.setBit child).groupRow child children) SyncTable.mergedState_valid).2.2.1
      rw [group, parents]
      exact ⟨fun both => absurd both.1 another, fun listed => absurd listed not_mem_nil⟩
    rw [others child apart]
    split
    · rename_i both
      exact ⟨fun _ => mem_append_right _ (mem_singleton.mpr rfl), fun _ => both⟩
    · rename_i neither
      exact ⟨fun both => absurd both neither, fun listed => absurd listed (unlisted child)⟩
  case distinct =>
    rw [record]
    exact distinct.filter _
  case remaining => rw [waits, record]; rfl
  case failed =>
    intro status found
    rw [record] at found
    change (book.outcomes children).find? SyncState.failed = some status at found
    have failing : status.failed = true := List.find?_some found
    cases status <;> simp_all [SyncState.failed]
  case passed =>
    intro found
    rw [record] at found
    change (book.outcomes children).find? SyncState.failed = none at found
    rw [found] at state
    rw [concluded, state]
    split
    · exact .inr rfl
    · exact .inl rfl
  case finished =>
    intro complete
    rw [record, GroupRecord.complete_iff] at complete
    rw [group]
    exact (newGroup_completed complete.1).1

end NotifyBook.Tracked

end Tracking

end KernelModules.CamSync

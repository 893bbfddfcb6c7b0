import KernelModules.CamSync.Tracking

namespace KernelModules.CamSync

open Data SyncTableRow List SyncState SyncTable

/-! # Notifications are delivered once

A registration waits on the row of its object until the object is done, and leaves the row when it is dispatched.
-/

structure Registration.Placed (registration : Registration) (book : NotifyBook)
    (table : SyncTable) : Prop where
  live : (table.rows registration.syncObj).state ≠ .invalid
  told : book.Done table registration.syncObj → table.occurrences registration.what = 1 ∧
      (table.rows registration.syncObj).waiting.count registration.what = 0
  waits : ¬ book.Done table registration.syncObj → table.occurrences registration.what = 0 ∧
      (table.rows registration.syncObj).waiting.count registration.what = 1
  elsewhere : ∀ other, other ≠ registration.syncObj → (table.rows other).waiting.count registration.what = 0
  status : ∀ dispatch ∈ table.dispatched, dispatch.notification = registration.what →
    dispatch.syncObj = registration.syncObj ∧ dispatch.status = book.finalStatus table registration.syncObj

structure NotifyBook.Kept (book : NotifyBook) (table : SyncTable) : Prop where
  linked : table.Linked
  opened : table.camSyncEventq = true
  tracked : ∀ group, table.LiveGroup group → book.Tracked table group
  plain : ∀ idx, (table.rows idx).type = .indv → (table.rows idx).state ≠ .invalid → (table.rows idx).remaining = 0
  placed : ∀ registration ∈ book.registrations, registration.withdrawn = false → registration.Placed book table
  gone : ∀ registration ∈ book.registrations, registration.withdrawn = true →
    table.occurrences registration.what ≤ 1 ∧ ∀ idx, (table.rows idx).waiting.count registration.what = 0
  named : ∀ registration ∈ book.registrations, registration.what.node < table.nodes
  logged : ∀ dispatch ∈ table.dispatched, dispatch.notification.node < table.nodes
  held : ∀ idx, ∀ what ∈ (table.rows idx).waiting, what.node < table.nodes

/-- What `cam_sync_util_dispatch_signaled_cb` dispatches of a row. -/
def SyncTableRow.tell (row : SyncTableRow) (idx : Nat) (status : SyncState)
    (eventCause : BitVec 32) : List Dispatch :=
  row.callbackList.map (.callback · idx status) ++ row.userPayloadList.map (.event · idx status eventCause)

/-- What `cam_sync_signal_parent_util` dispatches of the row of a parent. -/
def SyncTableRow.childTold (row : SyncTableRow) (parent : Nat) (status : SyncState)
    (eventCause : BitVec 32) : List Dispatch :=
  if row.remaining - 1 = 0 ∧ row.state ≠ .invalid then
    row.tell parent (row.childSignaled status true).state eventCause
  else []

section Log

variable {row : SyncTableRow} {idx parent : Nat} {state : SyncState} {eventCause : BitVec 32}
  {tbl : SyncTable}

theorem SyncTableRow.tell_notifications : (row.tell idx status eventCause).map Dispatch.notification = row.waiting := by
  unfold tell
  rw [map_append, map_map, map_map]
  rfl

theorem SyncTableRow.mem_tell (told : dispatch ∈ row.tell idx status eventCause) :
    dispatch.syncObj = idx ∧ dispatch.status = status := by
  rcases mem_append.mp told with cb | payload
  · obtain ⟨info, _, rfl⟩ := mem_map.mp cb
    exact ⟨rfl, rfl⟩
  · obtain ⟨payload, _, rfl⟩ := mem_map.mp payload
    exact ⟨rfl, rfl⟩

theorem SyncTableRow.dispatched_waiting (valid : row.state ≠ .invalid) : (row.dispatched true).waiting = [] := by
  unfold dispatched
  rw [if_neg valid]
  rfl

theorem SyncTableRow.childSignaled_waiting (signaled : status.signaled = true) :
    (row.childSignaled status true).waiting =
      if row.remaining - 1 = 0 ∧ row.state ≠ .invalid then [] else row.waiting := by
  unfold childSignaled
  cases updated : updateParentState status row.state with
  | none =>
    have invalid : row.state = .invalid := by
      cases old : row.state <;> simp_all [updateParentState]
    rw [if_neg fun both => both.2 invalid]
    rfl
  | some new =>
    obtain ⟨valid, newValid⟩ := updateParentState_valid (signaled_valid signaled) updated
    dsimp only
    split
    · rename_i finished
      rw [if_pos ⟨finished, valid⟩]
      exact dispatched_waiting newValid
    · rename_i pending
      rw [if_neg fun both => pending both.1]
      rfl

theorem SyncTable.dispatchSignaledCb_dispatched (tbl : SyncTable) (status : SyncState)
    (eventCause : BitVec 32) (opened : tbl.camSyncEventq = true) (valid : (tbl.rows idx).state ≠ .invalid) :
    (tbl.dispatchSignaledCb idx status eventCause).dispatched =
      tbl.dispatched ++ (tbl.rows idx).tell idx status eventCause := by
  unfold dispatchSignaledCb
  dsimp only
  rw [if_neg valid, opened, append_assoc]
  rfl

theorem SyncTable.signalParent_dispatched (opened : tbl.camSyncEventq = true)
    (signaled : status.signaled = true) : (tbl.signalParent status eventCause parent).dispatched =
      tbl.dispatched ++ (tbl.rows parent).childTold parent status eventCause := by
  unfold signalParent childTold childSignaled
  simp only [modify_rows_same]
  cases updated : updateParentState status (tbl.rows parent).state with
  | none =>
    have invalid : (tbl.rows parent).state = .invalid := by
      cases old : (tbl.rows parent).state <;> simp_all [updateParentState]
    rw [if_neg fun both => both.2 invalid, append_nil]
    rfl
  | some new =>
    obtain ⟨valid, newValid⟩ := updateParentState_valid (signaled_valid signaled) updated
    dsimp only
    split
    · rename_i finished
      rw [if_pos ⟨finished, valid⟩, dispatchSignaledCb_dispatched]
      · simp only [modify_rows_same, dispatched_frame.1]
        rfl
      · exact opened
      · rw [modify_rows_same]
        exact newValid
    · rename_i pending
      rw [if_neg fun both => pending both.1, append_nil]
      rfl

theorem SyncTable.foldl_dispatched {parents : List Nat} (opened : tbl.camSyncEventq = true)
    (signaled : status.signaled = true) (nodup : parents.Nodup) :
    (parents.foldl (fun tbl parent => tbl.signalParent status eventCause parent) tbl).dispatched =
      tbl.dispatched ++ parents.flatMap fun parent => (tbl.rows parent).childTold parent status eventCause := by
  induction parents generalizing tbl with
  | nil => rw [flatMap_nil, append_nil]; rfl
  | cons parent rest ih =>
    obtain ⟨fresh, distinctRest⟩ := nodup_cons.mp nodup
    rw [foldl_cons, ih (signalParent_frame.2.1.trans opened) distinctRest,
      signalParent_dispatched opened signaled, flatMap_cons, append_assoc]
    have later : (rest.flatMap fun other =>
        ((tbl.signalParent status eventCause parent).rows other).childTold other status eventCause) =
        rest.flatMap fun other => (tbl.rows other).childTold other status eventCause := by
      refine flatMap_congr fun other mem => ?_
      rw [signalParent_rows, if_neg]
      rintro rfl
      exact fresh mem
    rw [later]

theorem SyncTable.signalObject_dispatched (linked : tbl.Linked)
    (opened : tbl.camSyncEventq = true) (individual : (tbl.rows idx).type = .indv)
    (signaled : state.signaled = true) : (tbl.signalObject idx state eventCause).dispatched =
      tbl.dispatched ++ (tbl.rows idx).tell idx state eventCause ++ (tbl.rows idx).parentsList.flatMap fun parent =>
          (tbl.rows parent).childTold parent state eventCause := by
  unfold signalObject
  dsimp only
  rw [enterSignal_told_parentsList, foldl_dispatched
    (enterSignal_told_frame.2.1.trans opened) signaled (linked.distinctUp idx)]
  have own : (((tbl.enterSignal idx state).dispatchSignaledCb idx state eventCause).spliceParents idx).dispatched =
      tbl.dispatched ++ (tbl.rows idx).tell idx state eventCause := by
    have valid : ((tbl.enterSignal idx state).rows idx).state ≠ .invalid := by
      simp only [enterSignal, modify_rows_same]
      exact signaled_valid signaled
    unfold spliceParents
    rw [modify_dispatched, (tbl.enterSignal idx state).dispatchSignaledCb_dispatched state eventCause opened valid]
    simp only [enterSignal, modify_rows_same]
    rfl
  rw [own]
  refine congrArg _ (flatMap_congr fun parent mem => ?_)
  rw [enterSignal_told_rows, if_neg]
  rintro rfl
  have group := (linked.parent_live mem).1
  rw [individual] at group
  cases group

end Log

def SyncTable.Tells (table : SyncTable) (idx row : Nat) : Prop :=
  row = idx ∨ row ∈ (table.rows idx).parentsList ∧ (table.rows row).remaining - 1 = 0

instance (table : SyncTable) (idx row : Nat) : Decidable (table.Tells idx row) :=
  inferInstanceAs (Decidable (_ ∨ _))

section Signals

variable {tbl after : SyncTable} {book : NotifyBook} {idx row : Nat} {state : SyncState}
  {eventCause : BitVec 32} {dispatch : Dispatch} {what : Notification} {reg : Registration}

theorem count_flatMap_only {rows : List Nat} {waiting : Nat → List Notification} (row : Nat)
    (nodup : rows.Nodup) (only : ∀ other, other ≠ row → (waiting other).count what = 0) :
    (rows.flatMap waiting).count what = if row ∈ rows then (waiting row).count what else 0 := by
  induction rows with
  | nil => rfl
  | cons first rest ih =>
    obtain ⟨fresh, distinctRest⟩ := nodup_cons.mp nodup
    rw [flatMap_cons, count_append, ih distinctRest]
    rcases eq_or_ne first row with rfl | apart
    · rw [if_neg fresh, if_pos mem_cons_self, add_zero]
    · rw [only first apart]
      simp [apart.symm]

section

variable (linked : tbl.Linked) (opened : tbl.camSyncEventq = true)
  (individual : (tbl.rows idx).type = .indv) (signaled : state.signaled = true)
include linked opened individual signaled

theorem SyncTable.signalObject_waiting (eventCause : BitVec 32) (row : Nat) :
    ((tbl.signalObject idx state eventCause).rows row).waiting =
      if tbl.Tells idx row then [] else (tbl.rows row).waiting := by
  have valid := signaled_valid signaled
  rw [signalObject_rows linked individual, opened]
  by_cases same : row = idx
  · rw [if_pos same, if_pos (.inl same)]
    exact dispatched_waiting valid
  rw [if_neg same]
  by_cases mem : row ∈ (tbl.rows idx).parentsList
  · have live := (linked.parent_live mem).2.1
    rw [if_pos mem, childSignaled_waiting signaled]
    refine if_congr ?_ rfl rfl
    unfold SyncTable.Tells
    simp [same, mem, live]
  · rw [if_neg mem, if_neg]
    rintro (own | parent)
    · exact same own
    · exact mem parent.1

theorem SyncTable.signalObject_occurrences (eventCause : BitVec 32) (row : Nat)
    (only : ∀ other, other ≠ row → (tbl.rows other).waiting.count what = 0) :
    (tbl.signalObject idx state eventCause).occurrences what = tbl.occurrences what +
        if tbl.Tells idx row then (tbl.rows row).waiting.count what else 0 := by
  have parents : (((tbl.rows idx).parentsList.flatMap fun parent =>
      (tbl.rows parent).childTold parent state eventCause).map Dispatch.notification).count what =
      if row ∈ (tbl.rows idx).parentsList then
        if (tbl.rows row).remaining - 1 = 0 then (tbl.rows row).waiting.count what else 0
      else 0 := by
    have told : ∀ parent, ((tbl.rows parent).childTold parent state eventCause).map
        Dispatch.notification = if (tbl.rows parent).remaining - 1 = 0 ∧
          (tbl.rows parent).state ≠ .invalid then (tbl.rows parent).waiting else [] := by
      intro parent
      unfold childTold
      split
      · exact tell_notifications
      · rfl
    rw [map_flatMap]
    simp only [told]
    rw [count_flatMap_only row (linked.distinctUp idx)]
    · refine if_ctx_congr Iff.rfl (fun mem => ?_) fun _ => rfl
      have live := (linked.parent_live mem).2.1
      by_cases last : (tbl.rows row).remaining - 1 = 0
      · rw [if_pos ⟨last, live⟩, if_pos last]
      · rw [if_neg fun both => last both.1, if_neg last]
        rfl
    · intro other different
      split
      · exact only other different
      · rfl
  unfold occurrences
  rw [signalObject_dispatched linked opened individual signaled, map_append, map_append,
    count_append, count_append, tell_notifications, parents, add_assoc]
  refine congrArg _ ?_
  by_cases same : row = idx
  · have apart : row ∉ (tbl.rows idx).parentsList := by
      intro mem
      have group := (linked.parent_live mem).1
      rw [same, individual] at group
      cases group
    rw [if_neg apart, if_pos (.inl same), same, add_zero]
  · rw [only idx (Ne.symm same)]
    unfold SyncTable.Tells
    by_cases mem : row ∈ (tbl.rows idx).parentsList
    · simp [same, mem]
    · simp [same, mem]

theorem SyncTable.signalObject_logged (logged : dispatch ∈ (tbl.signalObject idx state eventCause).dispatched) :
    dispatch ∈ tbl.dispatched ∨ ∃ row, tbl.Tells idx row ∧ dispatch.syncObj = row ∧
      dispatch.status = ((tbl.signalObject idx state eventCause).rows row).state ∧
      dispatch.notification ∈ (tbl.rows row).waiting := by
  have noted {row : SyncTableRow} {idx : Nat} {status : SyncState}
      (mem : dispatch ∈ row.tell idx status eventCause) : dispatch.notification ∈ row.waiting := by
    have waiting : row.waiting = (row.tell idx status eventCause).map Dispatch.notification :=
      tell_notifications.symm
    rw [waiting]
    exact mem_map_of_mem mem
  rw [signalObject_dispatched linked opened individual signaled] at logged
  rcases mem_append.mp logged with earlier | parent
  · rcases mem_append.mp earlier with before | own
    · exact .inl before
    · obtain ⟨named, status⟩ := mem_tell own
      refine .inr ⟨idx, .inl rfl, named, ?_, noted own⟩
      rw [signalObject_rows linked individual, status]
      simp [objectSignaled]
  · obtain ⟨parent, listed, told⟩ := mem_flatMap.mp parent
    unfold childTold at told
    split at told
    · rename_i last
      obtain ⟨named, status⟩ := mem_tell told
      have apart : parent ≠ idx := by
        rintro rfl
        have group := (linked.parent_live listed).1
        rw [individual] at group
        cases group
      refine .inr ⟨parent, .inr ⟨listed, last.1⟩, named, ?_, noted told⟩
      rw [signalObject_rows linked individual, if_neg apart, if_pos listed, status, opened]
    · cases told

end

theorem NotifyBook.done_indv (individual : (tbl.rows idx).type = .indv) :
    book.Done tbl idx ↔ (tbl.rows idx).state.signaled = true := by
  unfold NotifyBook.Done
  rw [individual]

theorem NotifyBook.done_group (group : (tbl.rows idx).type = .group) :
    book.Done tbl idx ↔ (book.groups idx).complete = true := by
  unfold NotifyBook.Done
  rw [group]

theorem NotifyBook.finalStatus_indv (individual : (tbl.rows idx).type = .indv) :
    book.finalStatus tbl idx = (tbl.rows idx).state := by
  unfold NotifyBook.finalStatus
  rw [individual]

theorem NotifyBook.finalStatus_group (group : (tbl.rows idx).type = .group) :
    book.finalStatus tbl idx = (book.groups idx).status := by
  unfold NotifyBook.finalStatus
  rw [group]

theorem SyncTable.occurrences_ne_zero (logged : dispatch ∈ tbl.dispatched) :
    tbl.occurrences dispatch.notification ≠ 0 := by
  have mem : dispatch.notification ∈ tbl.dispatched.map Dispatch.notification :=
    mem_map_of_mem logged
  exact Nat.pos_iff_ne_zero.mp (count_pos_iff.mpr mem)

section

variable (placed : reg.Placed book tbl)
  (live : (after.rows reg.syncObj).state ≠ .invalid)
include placed live

theorem Registration.Placed.stays
    (done : after'.Done after reg.syncObj ↔ book.Done tbl reg.syncObj)
    (final : book.Done tbl reg.syncObj →
      after'.finalStatus after reg.syncObj = book.finalStatus tbl reg.syncObj)
    (occurrences : after.occurrences reg.what = tbl.occurrences reg.what)
    (here : (after.rows reg.syncObj).waiting.count reg.what =
      (tbl.rows reg.syncObj).waiting.count reg.what)
    (elsewhere : ∀ other, other ≠ reg.syncObj → (after.rows other).waiting.count reg.what = 0)
    (logged : ∀ dispatch ∈ after.dispatched, dispatch.notification = reg.what →
      dispatch ∈ tbl.dispatched) : reg.Placed after' after where
  live := live
  told := fun isDone => by
    rw [occurrences, here]
    exact placed.told (done.mp isDone)
  waits := fun notDone => by
    rw [occurrences, here]
    exact placed.waits fun isDone => notDone (done.mpr isDone)
  elsewhere := elsewhere
  status := fun dispatch mem same => by
    have before := logged dispatch mem same
    have isDone : book.Done tbl reg.syncObj := by
      by_contra notDone
      have none := (placed.waits notDone).1
      have some := occurrences_ne_zero before
      rw [same] at some
      exact absurd none some
    rw [final isDone]
    exact placed.status dispatch before same

theorem Registration.Placed.leaves (notYet : ¬ book.Done tbl reg.syncObj)
    (done : after'.Done after reg.syncObj)
    (occurrences : after.occurrences reg.what = tbl.occurrences reg.what +
      (tbl.rows reg.syncObj).waiting.count reg.what)
    (here : (after.rows reg.syncObj).waiting = []) (elsewhere : ∀ other, other ≠ reg.syncObj →
      (after.rows other).waiting.count reg.what = 0)
    (logged : ∀ dispatch ∈ after.dispatched, dispatch.notification = reg.what →
      dispatch ∈ tbl.dispatched ∨ dispatch.syncObj = reg.syncObj ∧
        dispatch.status = after'.finalStatus after reg.syncObj) :
    reg.Placed after' after where
  live := live
  told := fun _ => by
    obtain ⟨none, one⟩ := placed.waits notYet
    rw [occurrences, none, one, here]
    exact ⟨rfl, rfl⟩
  waits := absurd done
  elsewhere := elsewhere
  status := fun dispatch mem same => by
    rcases logged dispatch mem same with before | now
    · have none := (placed.waits notYet).1
      have some := occurrences_ne_zero before
      rw [same] at some
      exact absurd none some
    · exact now

end

end Signals

end KernelModules.CamSync

import KernelModules.CamSync.Merging

namespace KernelModules.CamSync

open Data SyncTable Option SyncTableRow List SyncState

structure SyncTableRow.SameBooks (row other : SyncTableRow) : Prop where
  type : row.type = other.type
  parentsList : row.parentsList = other.parentsList
  childrenList : row.childrenList = other.childrenList
  state : row.state = other.state
  remaining : row.remaining = other.remaining
  signaled : row.signaled = other.signaled

structure Quiet (dev after : SyncDevice) : Prop where
  locks : after.rowSpinlocks = dev.rowSpinlocks
  bitmap : after.syncTable.bitmap = dev.syncTable.bitmap
  rows : ∀ idx, (after.row idx).SameBooks (dev.row idx)

def SyncCall.quiet : SyncCall → Bool
  | .create _ | .merge .. | .signal .. | .destroy _ => false
  | _ => true

section Quiet

variable {dev after : SyncDevice}

theorem SyncTableRow.SameBooks.refl (row : SyncTableRow) : row.SameBooks row :=
  ⟨rfl, rfl, rfl, rfl, rfl, rfl⟩

theorem Quiet.refl (dev : SyncDevice) : Quiet dev dev := ⟨rfl, rfl, fun _ => .refl _⟩

theorem Quiet.of_modify (keeps : ∀ row, (change row).SameBooks row) :
    Quiet dev (dev.run fun tbl => tbl.modify idx change) := by
  refine ⟨rfl, rfl, fun other => ?_⟩
  change ((dev.syncTable.modify idx change).rows other).SameBooks (dev.syncTable.rows other)
  rw [modify_rows]
  split
  · rename_i same
    rw [same]
    exact keeps _
  · exact .refl _

theorem Quiet.of_modify_taken (keeps : ∀ row, (change row).SameBooks row) :
    Quiet dev (dev.run fun tbl => tbl.takeNode.modify idx change) :=
  ⟨rfl, rfl, (Quiet.of_modify keeps).rows⟩

theorem locked_effect {Effect : SyncDevice → Prop} (done : (dev.spinLock idx).map body = some (answer, after))
    (critical : ∃ change, (body { dev with rowSpinlocks := Function.update dev.rowSpinlocks idx true }).2 =
        (SyncDevice.run { dev with rowSpinlocks := Function.update dev.rowSpinlocks idx true }
          change).spinUnlock idx ∧ Effect (dev.run change)) : Effect after := by
  obtain ⟨locked, taken, result⟩ := map_eq_some_iff.mp done
  obtain ⟨free, rfl⟩ := SyncDevice.spinLock_eq_some taken
  obtain ⟨change, same, effect⟩ := critical
  rw [result, SyncDevice.run, SyncDevice.spinUnlock_taken free] at same
  change after = dev.run change at same
  rw [same]
  exact effect

inductive CountEffect (dev : SyncDevice) : SyncDevice → Prop where
  | refused : CountEffect dev dev
  | counted (idx : Nat) (refCnt : BitVec 32 → BitVec 32) :
      CountEffect dev (dev.run (·.modify idx fun row => { row with refCnt := refCnt row.refCnt }))

theorem camSyncGetObjRef_effect (done : syncStep dev (.getObjRef syncObj) = some after) : CountEffect dev after := by
  obtain ⟨_, rfl⟩ | ⟨idx, code, _, ret⟩ := named_cases done
  · exact .refused
  · refine locked_effect ret ?_
    split
    · exact ⟨id, rfl, .refused⟩
    · exact ⟨_, rfl, .counted idx (· + 1)⟩

theorem camSyncPutObjRef_effect (done : syncStep dev (.putObjRef syncObj) = some after) : CountEffect dev after := by
  cases done
  unfold camSyncPutObjRef
  split
  · exact .refused
  · exact .counted _ (· - 1)

inductive RegisterEffect (dev : SyncDevice) (what : Notification) (syncObj : Int) : SyncDevice → Prop where
  | refused : RegisterEffect dev what syncObj dev
  | told {idx : Nat} {dispatch : Dispatch} (named : camSyncObject syncObj = some idx)
      (signaled : (dev.row idx).state.signaled = true)
      (finished : (dev.row idx).remaining = 0 ∨ ∃ payload, what = .payload payload)
      (notification : dispatch.notification = what) (told : dispatch.syncObj = idx)
      (status : dispatch.status = (dev.row idx).state) :
      RegisterEffect dev what syncObj (dev.run fun table => table.takeNode.log dispatch)
  | added {idx : Nat} {change : SyncTableRow → SyncTableRow}
      (named : camSyncObject syncObj = some idx) (live : (dev.row idx).state ≠ .invalid)
      (pending : (dev.row idx).state.signaled = false ∨ (dev.row idx).remaining ≠ 0)
      (books : ∀ row, (change row).SameBooks row)
      (waiting : ∀ row other, (change row).waiting.count other = row.waiting.count other + [what].count other) :
      RegisterEffect dev what syncObj (dev.run fun table => table.takeNode.modify idx change)

theorem camSyncRegisterCallback_effect
    (done : syncStep dev (.registerCallback cbFunc userdata syncObj syncCb) = some after) :
    RegisterEffect dev (.callback ⟨dev.syncTable.nodes, cbFunc, userdata⟩) syncObj after := by
  obtain ⟨_, rfl⟩ | ⟨idx, code, named, ret⟩ := named_cases done
  · exact .refused
  · split at ret
    · cases ret
      exact .refused
    refine locked_effect ret ?_
    dsimp only
    split
    · exact ⟨id, rfl, .refused⟩
    rename_i live
    split
    · exact ⟨id, rfl, .refused⟩
    split
    · rename_i finished
      exact ⟨fun tbl => tbl.takeNode.log _, rfl, .told named finished.1 (.inl finished.2) rfl rfl rfl⟩
    rename_i pending
    refine ⟨fun tbl => tbl.takeNode.addCallback idx _, rfl,
      .added named live ?_ (fun _ => ⟨rfl, rfl, rfl, rfl, rfl, rfl⟩) fun row other => ?_⟩
    · by_cases finished : (dev.row idx).remaining = 0
      · exact .inl (Bool.eq_false_iff.mpr fun signaled => pending ⟨signaled, finished⟩)
      · exact .inr finished
    · unfold waiting
      simp only [map_append, count_append, map_cons, map_nil]
      exact Nat.add_right_comm _ _ _

theorem camSyncHandleRegisterUserPayload_effect
    (done : syncStep dev (.registerUserPayload payload syncObj userPayload) = some after) :
    RegisterEffect dev (.payload ⟨dev.syncTable.nodes, payload⟩) syncObj after := by
  obtain ⟨_, rfl⟩ | ⟨idx, code, named, ret⟩ := named_cases done
  · exact .refused
  · split at ret
    · cases ret
      exact .refused
    refine locked_effect ret ?_
    dsimp only
    split
    · exact ⟨id, rfl, .refused⟩
    rename_i live
    split
    · rename_i signaled
      exact ⟨fun tbl => tbl.takeNode.log _, rfl, .told named signaled (.inr ⟨_, rfl⟩) rfl rfl rfl⟩
    rename_i unsignaled
    split
    · exact ⟨id, rfl, .refused⟩
    refine ⟨fun tbl => tbl.takeNode.addUserPayload idx _, rfl,
      .added named live (.inl (Bool.eq_false_iff.mpr unsignaled))
        (fun _ => ⟨rfl, rfl, rfl, rfl, rfl, rfl⟩) fun row other => ?_⟩
    unfold waiting
    simp only [map_append, count_append, map_cons, map_nil]
    exact (Nat.add_assoc _ _ _).symm

/-- What a deregistration of the notifications `gone` can do. -/
inductive DeregisterEffect (dev : SyncDevice) (gone : Notification → Bool) (syncObj : Int) : SyncDevice → Prop where
  | refused (unused : ∀ idx, camSyncObject syncObj = some idx → (dev.row idx).state = .invalid) :
      DeregisterEffect dev gone syncObj dev
  | removed {idx : Nat} {change : SyncTableRow → SyncTableRow}
      (named : camSyncObject syncObj = some idx) (books : ∀ row, (change row).SameBooks row)
      (waiting : (change (dev.row idx)).waiting = (dev.row idx).waiting.filter fun what => !gone what) :
      DeregisterEffect dev gone syncObj (dev.run fun table => table.modify idx change)

def Notification.isCallback (cbFunc userdata : Nat) : Notification → Bool
  | .callback info => info.callbackFunc == cbFunc && info.cbData == userdata
  | .payload _ => false

def Notification.isPayload (payload : BitVec 64 × BitVec 64) : Notification → Bool
  | .callback _ => false
  | .payload registered => registered.payloadData == payload

theorem camSyncDeregisterCallback_effect
    (done : syncStep dev (.deregisterCallback cbFunc userdata syncObj) = some after) :
    DeregisterEffect dev (Notification.isCallback cbFunc userdata) syncObj after := by
  obtain ⟨named, rfl⟩ | ⟨idx, code, named, ret⟩ := named_cases done
  · exact .refused (by simp [named])
  · refine locked_effect ret ?_
    dsimp only
    split
    · rename_i unused
      exact ⟨id, rfl, .refused fun _ same => Option.some.inj (named.symm.trans same) ▸ unused⟩
    · refine ⟨_, rfl, .removed named (fun _ => ⟨rfl, rfl, rfl, rfl, rfl, rfl⟩) ?_⟩
      unfold SyncTableRow.waiting
      rw [List.filter_append, List.filter_map, List.filter_map]
      refine congrArg₂ (· ++ ·) rfl ?_
      exact (congrArg _ (List.filter_eq_self.mpr fun _ _ => rfl)).symm

theorem camSyncHandleDeregisterUserPayload_effect
    (done : syncStep dev (.deregisterUserPayload payload syncObj) = some after) :
    DeregisterEffect dev (Notification.isPayload payload) syncObj after := by
  obtain ⟨named, rfl⟩ | ⟨idx, code, named, ret⟩ := named_cases done
  · exact .refused (by simp [named])
  · refine locked_effect ret ?_
    dsimp only
    split
    · rename_i unused
      exact ⟨id, rfl, .refused fun _ same => Option.some.inj (named.symm.trans same) ▸ unused⟩
    · refine ⟨_, rfl, .removed named (fun _ => ⟨rfl, rfl, rfl, rfl, rfl, rfl⟩) ?_⟩
      unfold SyncTableRow.waiting
      rw [List.filter_append, List.filter_map, List.filter_map]
      refine congrArg₂ (· ++ ·) ?_ rfl
      exact (congrArg _ (List.filter_eq_self.mpr fun _ _ => rfl)).symm

theorem CountEffect.quiet (effect : CountEffect dev after) : Quiet dev after := by
  cases effect with
  | refused => exact .refl dev
  | counted => exact .of_modify fun _ => ⟨rfl, rfl, rfl, rfl, rfl, rfl⟩

theorem RegisterEffect.quiet (effect : RegisterEffect dev what syncObj after) : Quiet dev after := by
  cases effect with
  | refused => exact .refl dev
  | told => exact ⟨rfl, rfl, fun _ => .refl _⟩
  | added named live pending books waiting => exact .of_modify_taken books

theorem DeregisterEffect.quiet (effect : DeregisterEffect dev gone syncObj after) : Quiet dev after := by
  cases effect with
  | refused => exact .refl dev
  | removed named books waiting => exact .of_modify books

theorem syncStep_quiet (quiet : call.quiet = true) (done : syncStep dev call = some after) : Quiet dev after := by
  cases call with
  | create | merge | signal | destroy => cases quiet
  | getObjRef => exact (camSyncGetObjRef_effect done).quiet
  | putObjRef => exact (camSyncPutObjRef_effect done).quiet
  | registerCallback => exact (camSyncRegisterCallback_effect done).quiet
  | deregisterCallback => exact (camSyncDeregisterCallback_effect done).quiet
  | registerUserPayload => exact (camSyncHandleRegisterUserPayload_effect done).quiet
  | deregisterUserPayload => exact (camSyncHandleDeregisterUserPayload_effect done).quiet
  | eventq =>
    cases done
    exact ⟨rfl, rfl, fun _ => .refl _⟩

theorem Quiet.linked (quiet : Quiet dev after) (linked : dev.syncTable.Linked) : after.syncTable.Linked :=
  linked.of_sameLinks quiet.bitmap (fun idx => (quiet.rows idx).type)
    (fun idx => iff_of_eq (congrArg (· = invalid) (quiet.rows idx).state))
    (fun idx => (quiet.rows idx).childrenList) fun idx => by
      refine (linked.parents_active idx).imp (fun none => ?_) fun active => ?_
      · exact (quiet.rows idx).parentsList.trans none
      · exact ⟨(quiet.rows idx).state.trans active, (quiet.rows idx).parentsList⟩

end Quiet

section Histories

variable {after : SyncDevice}

theorem SyncState.ofStatus_signaled {state : SyncState} (known : ofStatus status = some state) :
    state.signaled = true := by
  unfold ofStatus at known
  split at known
  · cases known; rfl
  split at known
  · cases known; rfl
  split at known
  · cases known; rfl
  · cases known

theorem SyncState.signaled_valid {state : SyncState} (signaled : state.signaled = true) : state ≠ .invalid := by
  rintro rfl
  cases signaled

theorem SyncTable.mergedState_cases (tbl : SyncTable) (children : List Nat) :
    tbl.mergedState children = .active ∨ (tbl.mergedState children).failed = true := by
  have kept (state : SyncState) (start : state = .active ∨ state.failed = true) : children.foldl (fun state child =>
        if (tbl.rows child).state.failed then (tbl.rows child).state else state) state = .active ∨
      (children.foldl (fun state child =>
        if (tbl.rows child).state.failed then (tbl.rows child).state else state)
          state).failed = true := by
    induction children generalizing state with
    | nil => exact start
    | cons child rest ih =>
      refine ih _ ?_
      dsimp only
      split
      · rename_i failed
        exact .inr failed
      · exact start
  exact kept .active (.inl rfl)

theorem SyncTable.mergedState_valid {tbl : SyncTable} : tbl.mergedState children ≠ .invalid := by
  intro invalid
  rcases tbl.mergedState_cases children with active | failed
  · rw [invalid] at active
    cases active
  · rw [invalid] at failed
    cases failed

theorem SyncTableRow.concludeGroup_links (row : SyncTableRow) (valid : row.state ≠ .invalid) :
    row.concludeGroup.type = row.type ∧ row.concludeGroup.state ≠ .invalid ∧
      row.concludeGroup.parentsList = row.parentsList ∧ row.concludeGroup.childrenList = row.childrenList := by
  unfold concludeGroup
  split
  · refine ⟨rfl, ?_, rfl, rfl⟩
    split
    · exact noConfusion
    · exact valid
  · exact ⟨rfl, valid, rfl, rfl⟩

theorem SyncTable.Linked.joined {tbl after : SyncTable} (linked : tbl.Linked)
    (clear : tbl.bitmap idx = false) (nodup : children.Nodup)
    (mergeable : ∀ child ∈ children, tbl.Mergeable child) (joined : Joined (tbl.setBit idx) after idx children)
    (group : after.rows idx = ((tbl.setBit idx).groupRow idx children).concludeGroup) : after.Linked := by
  have unused := linked.free idx clear
  have named : (0 : Nat) ≠ idx := by
    rintro rfl
    rw [linked.reserved] at clear
    cases clear
  obtain ⟨type, valid, parents, waits⟩ :=
    ((tbl.setBit idx).groupRow idx children).concludeGroup_links mergedState_valid
  rw [← group] at type valid parents waits
  have others := joined.others
  have kept : ∀ other, other ≠ idx → (after.rows other).type = (tbl.rows other).type ∧
      (after.rows other).state = (tbl.rows other).state ∧
      (after.rows other).childrenList = (tbl.rows other).childrenList := by
    intro other apart
    rw [others other apart]
    split <;> exact ⟨rfl, rfl, rfl⟩
  constructor
  case reserved =>
    rw [joined.bitmap, setBit_bitmap, Function.update_of_ne named]
    exact linked.reserved
  case nobody => exact (kept 0 named).2.1.trans linked.nobody
  case free =>
    intro other bit
    rw [joined.bitmap, setBit_bitmap, Function.update_apply] at bit
    split at bit
    · cases bit
    · rename_i apart
      exact (kept other apart).2.1.trans (linked.free other bit)
  case up =>
    intro child parent listed
    have apart : child ≠ idx := by
      rintro rfl
      rw [parents] at listed
      cases listed
    obtain ⟨sameType, sameState, _⟩ := kept child apart
    rw [sameType, sameState]
    have old (listed : parent ∈ (tbl.rows child).parentsList) :
        (tbl.rows child).state = .active ∧ (tbl.rows child).type = .indv ∧
          child ∈ (after.rows parent).childrenList := by
      have another : parent ≠ idx := by
        rintro rfl
        exact linked.unlisted unused listed
      rw [(kept parent another).2.2]
      exact linked.up child parent listed
    rw [others child apart] at listed
    split at listed
    · rename_i pending
      obtain ⟨mem, active⟩ := pending
      rcases mem_append.mp listed with earlier | new
      · exact old earlier
      · rw [mem_singleton.mp new, waits]
        exact ⟨of_decide_eq_true active, (mergeable child mem).1, mem_filter.mpr ⟨mem, active⟩⟩
    · exact old listed
  case down =>
    intro parent child listed
    rcases eq_or_ne parent idx with rfl | another
    · rw [waits] at listed
      have active : (tbl.rows child).state = .active :=
        of_decide_eq_true (mem_filter.mp listed).2
      refine ⟨type, valid, ?_⟩
      rintro rfl
      rw [linked.nobody] at active
      cases active
    · obtain ⟨sameType, sameState, sameChildren⟩ := kept parent another
      rw [sameType, sameState]
      rw [sameChildren] at listed
      exact linked.down parent child listed
  case distinctUp =>
    intro other
    rcases eq_or_ne other idx with rfl | apart
    · rw [parents]
      exact nodup_nil
    rw [others other apart]
    split
    · refine nodup_append.mpr ⟨linked.distinctUp other, nodup_singleton idx, ?_⟩
      rintro parent listed _ new rfl
      rw [mem_singleton.mp new] at listed
      exact linked.unlisted unused listed
    · exact linked.distinctUp other
  case distinctDown =>
    intro other
    rcases eq_or_ne other idx with rfl | apart
    · rw [waits]
      exact nodup.filter _
    · rw [(kept other apart).2.2]
      exact linked.distinctDown other

theorem MergeEffect.linked (effect : MergeEffect dev alone syncObj checked code after)
    (linked : alone.syncTable.Linked) : after.syncTable.Linked := by
  cases effect with
  | refused => exact linked
  | @abandoned idx middle late free clear given =>
    have named : idx ≠ 0 := by
      rintro rfl
      rw [linked.reserved] at clear
      cases clear
    exact linked.of_fresh (linked.free idx clear) named (fun _ _ => by rw [given.bitmap])
      (fun _ => given.invalid) given.others given.parentsList given.childrenList
  | merged others found clear distinct inside another mergeable joined group =>
    exact linked.joined clear distinct mergeable joined group

theorem syncStep_linked (linked : dev.syncTable.Linked) (done : syncStep dev call = some after) :
    after.syncTable.Linked := by
  cases call with
  | create =>
    cases camSyncCreateUtil_effect done with
    | refused => exact linked
    | created free named => exact linked.createObject free named
  | merge =>
    obtain ⟨⟨code, result⟩, ret, rfl⟩ := map_eq_some_iff.mp done
    obtain ⟨alone, others, effect⟩ := camSyncMerge_effect linked ret
    exact effect.linked (destroyAll_destroyed linked others).linked
  | signal =>
    cases camSyncSignal_effect done with
    | refused => exact linked
    | @deferred idx named active =>
      have quiet : Quiet dev (dev.run (·.modify idx fun row =>
          { row with refCnt := row.refCnt - 1 })) :=
        .of_modify fun _ => ⟨rfl, rfl, rfl, rfl, rfl, rfl⟩
      exact quiet.linked linked
    | signaled cause named active individual last known =>
      exact linked.signalObject active individual (signaled_valid (ofStatus_signaled known))
  | destroy =>
    obtain ⟨⟨code, result⟩, ret, rfl⟩ := map_eq_some_iff.mp done
    exact ((camSyncDestroy_effect ret).keeps linked).linked
  | _ => exact (syncStep_quiet rfl done).linked linked

theorem reachable_linked (reached : Reachable syncStep allowed .probed dev) : dev.syncTable.Linked :=
  reached.invariant (·.syncTable.Linked) probed_linked fun _ _ _ linked _ taken => syncStep_linked linked taken

end Histories

end KernelModules.CamSync

import KernelModules.CamSync.Histories

namespace KernelModules.CamSync

open Data

/-! # What a failed merge leaves behind

A merge that fails before it takes a row leaves nothing.  One that fails later takes its links back, but leaves the
row locked.
-/

/-- The table is as it was, as far as rows in use go, and no row is linked with one that is not in use. -/
structure RowsKept (alone after : SyncDevice) : Prop where
  bitmap : after.syncTable.bitmap = alone.syncTable.bitmap
  state : ∀ idx, (after.row idx).state = (alone.row idx).state
  parentsList : ∀ idx, (after.row idx).parentsList = (alone.row idx).parentsList
  childrenList : ∀ idx, (after.row idx).childrenList = (alone.row idx).childrenList
  inUse : ∀ idx, alone.syncTable.bitmap idx = true →
    after.row idx = alone.row idx ∧ after.rowSpinlocks idx = alone.rowSpinlocks idx
  unlisted : ∀ idx, alone.syncTable.bitmap idx = false → ∀ other, idx ∉ (after.row other).parentsList

structure NoTrace (alone after : SyncDevice) : Prop extends RowsKept alone after where
  remaining : ∀ idx, (after.row idx).remaining = (alone.row idx).remaining
  released : after.rowSpinlocks = alone.rowSpinlocks

section Trace

variable {dev alone after : SyncDevice}

theorem NoTrace.refl (linked : dev.syncTable.Linked) : NoTrace dev dev where
  bitmap := rfl
  state := fun _ => rfl
  parentsList := fun _ => rfl
  childrenList := fun _ => rfl
  inUse := fun _ _ => ⟨rfl, rfl⟩
  unlisted := fun idx clear _ => linked.unlisted (linked.free idx clear)
  remaining := fun _ => rfl
  released := rfl

theorem Abandoned.rowsKept (given : Abandoned alone.syncTable middle idx) (linked : alone.syncTable.Linked)
    (clear : alone.syncTable.bitmap idx = false)
    (others : ∀ other, other ≠ idx → locks other = alone.rowSpinlocks other) : RowsKept alone ⟨middle, locks⟩ := by
  have unused := linked.free idx clear
  obtain ⟨noParents, noChildren⟩ := linked.invalid_lists unused
  have parents : ∀ other, (middle.rows other).parentsList = (alone.syncTable.rows other).parentsList := by
    intro other
    rcases eq_or_ne other idx with rfl | apart
    · exact given.parentsList.trans noParents.symm
    · rw [given.others other apart]
  constructor
  case bitmap => exact given.bitmap
  case state =>
    intro other
    rcases eq_or_ne other idx with rfl | apart
    · exact given.invalid.trans unused.symm
    · exact congrArg SyncTableRow.state (given.others other apart)
  case parentsList => exact parents
  case childrenList =>
    intro other
    rcases eq_or_ne other idx with rfl | apart
    · exact given.childrenList.trans noChildren.symm
    · exact congrArg SyncTableRow.childrenList (given.others other apart)
  case inUse =>
    intro other used
    have apart : other ≠ idx := by
      rintro rfl
      rw [clear] at used
      cases used
    exact ⟨given.others other apart, others other apart⟩
  case unlisted =>
    intro free bit other mem
    change free ∈ (middle.rows other).parentsList at mem
    rw [parents other] at mem
    exact linked.unlisted (linked.free free bit) mem

/-- A merge that fails keeps the rows in use, and leaves nothing behind just when it fails before it takes a row. -/
theorem failed_merge_trace_iff {syncObj checked reserved : List Int} {allocs : LinkAllocs} {code : Errno}
    (reached : Reachable syncStep (fun _ _ => True) .probed dev)
    (failed : camSyncMerge syncObj allocs checked reserved dev = some (.error code, after)) :
    ∃ alone, destroyAll (checked ++ reserved) dev = some alone ∧ RowsKept alone after ∧
      (NoTrace alone after ↔ MergeRefused dev syncObj checked) := by
  have linked := reachable_linked reached
  obtain ⟨alone, others, effect⟩ := camSyncMerge_effect linked failed
  have linkedAlone := (destroyAll_destroyed linked others).linked
  refine ⟨alone, others, ?_⟩
  cases effect with
  | refused early =>
    have kept := NoTrace.refl linkedAlone
    exact ⟨kept.toRowsKept, fun _ => early, fun _ => kept⟩
  | @abandoned idx middle late free clear given =>
    refine ⟨given.rowsKept linkedAlone clear fun other apart =>
      Function.update_of_ne apart _ _, fun kept => ?_, fun early => absurd early late⟩
    have released := congrFun kept.released idx
    dsimp only at released
    rw [Function.update_self, free] at released
    cases released

def LinkAllocs.all : LinkAllocs := { childInfo := fun _ => true, parentInfo := fun _ => true }

theorem group_merge_run : ((runActions syncStep (fun _ _ => True) .probed
        [.create false, .create false, .merge [1, 2] .all [] []]).bind fun dev =>
      (camSyncMerge [1, 3] .all [] [] dev).map fun result =>
        decide (result.1 = .error .einval ∧ dev.rowSpinlocks 4 = false ∧
          result.2.rowSpinlocks 4 = true)) = some true := by
  decide +kernel

theorem failed_merge_leaves_trace : ∃ dev after, Reachable syncStep (fun _ _ => True) .probed dev ∧
      camSyncMerge [1, 3] .all [] [] dev = some (.error .einval, after) ∧
      destroyAll [] dev = some dev ∧ ¬ NoTrace dev after := by
  obtain ⟨dev, ran, merged⟩ := Option.bind_eq_some_iff.mp group_merge_run
  obtain ⟨⟨code, after⟩, failed, facts⟩ := Option.map_eq_some_iff.mp merged
  obtain ⟨rfl, free, held⟩ := of_decide_eq_true facts
  refine ⟨dev, after, Reachable.start.run ran, failed, rfl, fun kept => ?_⟩
  have released := congrFun kept.released 4
  rw [free, held] at released
  cases released

theorem failed_merge_trace_iff_group :
    ∃ dev after alone, camSyncMerge [1, 3] .all [] [] dev = some (.error .einval, after) ∧
      destroyAll [] dev = some alone ∧ RowsKept alone after ∧
      (NoTrace alone after ↔ MergeRefused dev [1, 3] []) := by
  obtain ⟨dev, ran, merged⟩ := Option.bind_eq_some_iff.mp group_merge_run
  obtain ⟨⟨code, after⟩, failed, facts⟩ := Option.map_eq_some_iff.mp merged
  obtain ⟨rfl, _⟩ := of_decide_eq_true facts
  obtain ⟨alone, others, kept, iff⟩ := failed_merge_trace_iff (Reachable.start.run ran) failed
  exact ⟨dev, after, alone, failed, others, kept, iff⟩

theorem links_kept (reached : Reachable syncStep (fun _ _ => True) .probed dev) : dev.syncTable.Linked :=
  reachable_linked reached

theorem links_kept_merged : ∃ dev, runActions syncStep (fun _ _ => True) .probed
    [.create false, .create false, .merge [1, 2] .all [] []] = some dev ∧ dev.syncTable.Linked :=
  ran_to (fun _ => True) (by decide +kernel) fun _ ran _ => links_kept (.run .start ran)

end Trace

end KernelModules.CamSync

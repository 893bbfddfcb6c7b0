import Mathlib.Data.List.Nodup
import KernelModules.CamSync.Links

namespace KernelModules.CamSync

open Data List SyncTable SyncDevice

/-! # Building a group

What the loop over the children has done after some of them, and what is left once it has failed.
-/

def SyncTable.pending (table : SyncTable) (idx : Nat) : Bool :=
  decide ((table.rows idx).state = .active)

/-- The state of a new group after some of its children: that of the last one that failed. -/
def SyncTable.mergedState (table : SyncTable) (children : List Nat) : SyncState :=
  children.foldl (fun state child =>
    if (table.rows child).state.failed then (table.rows child).state else state) .active

/-- The rows besides that of the new group, once `linked` have been looked at. -/
structure Joined (table after : SyncTable) (idx : Nat) (linked : List Nat) : Prop where
  bitmap : after.bitmap = table.bitmap
  camSyncEventq : after.camSyncEventq = table.camSyncEventq
  dispatched : after.dispatched = table.dispatched
  nodes : after.nodes = table.nodes
  others : ∀ other, other ≠ idx → after.rows other = if other ∈ linked ∧ table.pending other = true then
      { table.rows other with parentsList := (table.rows other).parentsList ++ [idx] }
    else table.rows other

/-- The row of the new group, once `linked` have been looked at. -/
def SyncTable.groupRow (table : SyncTable) (idx : Nat) (linked : List Nat) : SyncTableRow :=
  { (table.rows idx).camSyncInitRow idx .group with
    state := table.mergedState linked
    childrenList := linked.filter table.pending
    remaining := BitVec.ofNat 32 (linked.filter table.pending).length }

structure Abandoned (table after : SyncTable) (idx : Nat) : Prop where
  bitmap : after.bitmap = table.bitmap
  camSyncEventq : after.camSyncEventq = table.camSyncEventq
  dispatched : after.dispatched = table.dispatched
  nodes : after.nodes = table.nodes
  others : ∀ other, other ≠ idx → after.rows other = table.rows other
  invalid : (after.rows idx).state = .invalid
  parentsList : (after.rows idx).parentsList = []
  childrenList : (after.rows idx).childrenList = []
  waiting : (after.rows idx).waiting = []

def SyncTable.Mergeable (table : SyncTable) (child : Nat) : Prop :=
  (table.rows child).type = .indv ∧ (table.rows child).state ≠ .invalid

section Steps

variable {tbl : SyncTable} {after : SyncDevice} {idx child stop : Nat} {linked syncObjs : List Nat}
  {code : Except Errno Unit}

theorem Joined.skip {dev : SyncDevice} (joined : Joined tbl dev.syncTable idx linked)
    (settled : tbl.pending child = false) (bitmap : middle.bitmap = dev.syncTable.bitmap)
    (eventq : middle.camSyncEventq = dev.syncTable.camSyncEventq)
    (dispatched : middle.dispatched = dev.syncTable.dispatched) (nodes : middle.nodes = dev.syncTable.nodes)
    (others : ∀ other, other ≠ idx → middle.rows other = dev.syncTable.rows other) :
    Joined tbl middle idx (linked ++ [child]) where
  bitmap := bitmap.trans joined.bitmap
  camSyncEventq := eventq.trans joined.camSyncEventq
  dispatched := dispatched.trans joined.dispatched
  nodes := nodes.trans joined.nodes
  others := by
    intro other apart
    rw [others other apart, joined.others other apart]
    refine if_congr ?_ rfl rfl
    rw [mem_append, mem_singleton]
    constructor
    · exact fun ⟨mem, active⟩ => ⟨.inl mem, active⟩
    · rintro ⟨mem | rfl, active⟩
      · exact ⟨mem, active⟩
      · rw [settled] at active
        cases active

theorem SyncTable.groupRow_settled (settled : tbl.pending child = false) :
    tbl.groupRow idx (linked ++ [child]) = { tbl.groupRow idx linked with
        state := if (tbl.rows child).state.failed then (tbl.rows child).state
          else tbl.mergedState linked } := by
  unfold groupRow mergedState
  rw [filter_append, filter_singleton, settled]
  simp

theorem SyncTable.groupRow_pending (pending : tbl.pending child = true) :
    tbl.groupRow idx (linked ++ [child]) = { tbl.groupRow idx linked with
        remaining := (tbl.groupRow idx linked).remaining + 1
        childrenList := (tbl.groupRow idx linked).childrenList ++ [child] } := by
  have active : (tbl.rows child).state = .active := of_decide_eq_true pending
  unfold groupRow mergedState
  rw [filter_append, filter_singleton, pending]
  simp [active, SyncState.failed, BitVec.ofNat_add]

inductive LinkEffect (table : SyncTable) (locks : Nat → Bool) (idx child : Nat) (linked : List Nat) :
    Except Errno Unit → SyncDevice → Prop where
  | linked {middle : SyncTable} (another : child ≠ idx) (mergeable : table.Mergeable child)
      (joined : Joined table middle idx (linked ++ [child]))
      (group : middle.rows idx = table.groupRow idx (linked ++ [child])) :
      LinkEffect table locks idx child linked (.ok ()) ⟨middle, locks⟩
  | failed {middle : SyncTable} {code : Errno} (joined : Joined table middle idx linked)
      (bare : (middle.rows idx).parentsList = [] ∧ (middle.rows idx).waiting = []) :
      LinkEffect table locks idx child linked (.error code) ⟨middle, locks⟩

theorem linkChild_effect (joined : Joined tbl dev.syncTable idx linked)
    (group : dev.syncTable.rows idx = tbl.groupRow idx linked) (fresh : child ∉ linked)
    (held : dev.rowSpinlocks idx = true) (done : linkChild idx child childInfo parentInfo dev = some (code, after)) :
    LinkEffect tbl dev.rowSpinlocks idx child linked code after := by
  obtain ⟨locked, taken, result⟩ := Option.map_eq_some_iff.mp done
  obtain ⟨free, rfl⟩ := SyncDevice.spinLock_eq_some taken
  have another : child ≠ idx := by
    rintro rfl
    rw [free] at held
    cases held
  have row : dev.syncTable.rows child = tbl.rows child := by
    rw [joined.others child another, if_neg fun ⟨mem, _⟩ => fresh mem]
  simp only [SyncDevice.row, SyncDevice.run, row] at result
  split at result
  · rw [SyncDevice.spinUnlock_taken free] at result
    cases result
    exact .failed joined (by rw [group]; exact ⟨rfl, rfl⟩)
  rename_i valid
  have mergeable : tbl.Mergeable child := by
    constructor
    · cases type : (tbl.rows child).type with
      | indv => rfl
      | group => exact absurd (.inl type) valid
    · exact fun invalid => valid (.inr invalid)
  split at result
  · rename_i failing
    have settled : tbl.pending child = false := by
      rcases failing with error | cancel
      · simp [pending, error]
      · simp [pending, cancel]
    have failed : (tbl.rows child).state.failed = true := by
      rcases failing with error | cancel
      · simp [SyncState.failed, error]
      · simp [SyncState.failed, cancel]
    rw [SyncDevice.spinUnlock_taken free] at result
    cases result
    refine .linked another mergeable (joined.skip settled rfl rfl rfl rfl fun other apart =>
      modify_rows_other apart) ?_
    rw [modify_rows_same, group, groupRow_settled settled, if_pos failed]
  split at result
  · rename_i settled
    have settled : tbl.pending child = false := by simpa [pending] using settled
    have notFailed : (tbl.rows child).state.failed = false := by
      cases state : (tbl.rows child).state <;> simp_all [SyncState.failed]
    rw [SyncDevice.spinUnlock_taken free] at result
    cases result
    refine .linked another mergeable (joined.skip settled rfl rfl rfl rfl fun _ _ => rfl) ?_
    rw [group, groupRow_settled settled, notFailed]
    rfl
  rename_i active
  have pending : tbl.pending child = true := by simpa [pending] using active
  split at result
  · rw [SyncDevice.spinUnlock_taken free] at result
    cases result
    refine .failed { joined with others := fun other apart => ?_ } ?_
    · rw [modify_rows_other apart, joined.others other apart]
    · rw [modify_rows_same, group]
      exact ⟨rfl, rfl⟩
  split at result
  · rw [SyncDevice.spinUnlock_taken free] at result
    cases result
    refine .failed { joined with others := fun other apart => ?_ } ?_
    · rw [modify_rows_other apart, modify_rows_other apart, joined.others other apart]
    · rw [modify_rows_same, modify_rows_same, group]
      exact ⟨rfl, rfl⟩
  · rw [SyncDevice.spinUnlock_taken free] at result
    cases result
    refine .linked another mergeable
      { joined with others := fun other apart => ?_ } ?_
    · rw [modify_rows]
      split
      · rename_i same
        rw [same, modify_rows_other another, modify_rows_other another, row, if_pos ⟨by simp, pending⟩]
      · rename_i distinct
        rw [modify_rows_other apart, modify_rows_other apart, joined.others other apart]
        simp [distinct]
    · rw [modify_rows_other another.symm, modify_rows_same, modify_rows_same, group, groupRow_pending pending]

inductive LoopEffect (table : SyncTable) (locks : Nat → Bool) (idx : Nat) (all : List Nat) :
    Except Errno Unit → Nat → SyncDevice → Prop where
  | linked {middle : SyncTable} {stop : Nat} (another : idx ∉ all)
      (mergeable : ∀ child ∈ all, table.Mergeable child) (joined : Joined table middle idx all)
      (group : middle.rows idx = table.groupRow idx all) :
      LoopEffect table locks idx all (.ok ()) stop ⟨middle, locks⟩
  | failed {middle : SyncTable} {code : Errno} {stop : Nat}
      (joined : Joined table middle idx (all.take stop)) (another : idx ∉ all.take stop)
      (bare : (middle.rows idx).parentsList = [] ∧ (middle.rows idx).waiting = []) :
      LoopEffect table locks idx all (.error code) stop ⟨middle, locks⟩

theorem linkChildren_effect (joined : Joined tbl dev.syncTable idx linked)
    (group : dev.syncTable.rows idx = tbl.groupRow idx linked) (mergeable : ∀ child ∈ linked, tbl.Mergeable child)
    (distinct : (linked ++ rest).Nodup) (another : idx ∉ linked)
    (held : dev.rowSpinlocks idx = true) (pos : i = linked.length)
    (done : linkChildren idx allocs i rest dev = some (code, stop, after)) :
    LoopEffect tbl dev.rowSpinlocks idx (linked ++ rest) code stop after := by
  induction rest generalizing linked dev i with
  | nil =>
    cases done
    rw [append_nil]
    exact .linked another mergeable joined group
  | cons child rest ih =>
    obtain ⟨⟨result, next⟩, first, remaining⟩ := Option.bind_eq_some_iff.mp done
    have fresh : child ∉ linked := fun member =>
      (nodup_append.mp distinct).2.2 child member child mem_cons_self rfl
    have effect := linkChild_effect joined group fresh held first
    cases effect with
    | linked apart valid joinedNext groupNext =>
      rw [append_cons] at distinct ⊢
      have mergeableNext : ∀ member ∈ linked ++ [child], tbl.Mergeable member := by
        intro member mem
        rcases mem_append.mp mem with earlier | last
        · exact mergeable member earlier
        · rw [mem_singleton.mp last]
          exact valid
      have anotherNext : idx ∉ linked ++ [child] := by
        rw [mem_append, mem_singleton, not_or]
        exact ⟨another, Ne.symm apart⟩
      have positionNext : i + 1 = (linked ++ [child]).length := by
        rw [pos, length_append, length_singleton]
      have looped := ih joinedNext groupNext mergeableNext distinct anotherNext (by exact held) positionNext remaining
      exact looped
    | failed joinedNext bare =>
      cases remaining
      refine .failed ?_ ?_ bare
      · rw [pos, take_left]
        exact joinedNext
      · rw [pos, take_left]
        exact another

/-- What `cam_sync_init_group_object` can do. -/
inductive GroupEffect (table : SyncTable) (locks : Nat → Bool) (idx : Nat) (syncObjs : List Nat) :
    Except Errno Unit → SyncDevice → Prop where
  | merged {middle : SyncTable} (another : idx ∉ syncObjs)
      (mergeable : ∀ child ∈ syncObjs, table.Mergeable child)
      (joined : Joined table middle idx syncObjs)
      (group : middle.rows idx = (table.groupRow idx syncObjs).concludeGroup) :
      GroupEffect table locks idx syncObjs (.ok ()) ⟨middle, locks⟩
  | failed {middle : SyncTable} {code : Errno} (abandoned : Abandoned table middle idx) :
      GroupEffect table locks idx syncObjs (.error code) ⟨middle, locks⟩

theorem joined_nil : Joined tbl (tbl.modify idx (·.camSyncInitRow idx .group)) idx [] ∧
    (tbl.modify idx (·.camSyncInitRow idx .group)).rows idx = tbl.groupRow idx [] := by
  refine ⟨⟨rfl, rfl, rfl, rfl, fun other apart => ?_⟩, modify_rows_same⟩
  rw [modify_rows_other apart, if_neg fun mem => not_mem_nil mem.1]

section

variable {middle : SyncTable} (joined : Joined tbl middle idx linked) (distinct : linked.Nodup)
include joined distinct

theorem Joined.cleaned (unlisted : ∀ other, idx ∉ (tbl.rows other).parentsList) (apart : other ≠ idx) :
    (linked.reverse.foldl (fun tbl child => tbl.modify child (·.cleanupParent idx))
      middle).rows other = tbl.rows other := by
  have untouched : (tbl.rows other).cleanupParent idx = tbl.rows other := by
    unfold SyncTableRow.cleanupParent
    rw [erase_of_not_mem (unlisted other)]
  rw [foldl_rows (fun child tbl => tbl.modify child (·.cleanupParent idx))
      (·.cleanupParent idx) (fun _ _ _ _ => modify_rows) (fun _ _ => rfl)
      (nodup_reverse.mpr distinct) rfl, joined.others other apart]
  simp only [mem_reverse]
  split
  · split
    · unfold SyncTableRow.cleanupParent
      rw [erase_append_right _ (unlisted other)]
      simp
    · exact untouched
  · rename_i outside
    rw [if_neg fun mem => outside mem.1]

theorem Joined.abandoned (another : idx ∉ linked) (unlisted : ∀ other, idx ∉ (tbl.rows other).parentsList)
    (bare : (middle.rows idx).parentsList = [] ∧ (middle.rows idx).waiting = []) :
    Abandoned tbl ((linked.reverse.foldl (fun tbl child => tbl.modify child (·.cleanupParent idx))
      (middle.modify idx ({ · with state := .invalid }))).modify idx ({ · with childrenList := [] }))
      idx := by
  have given : Joined tbl (middle.modify idx ({ · with state := .invalid })) idx linked :=
    { joined with others := fun other apart => by rw [modify_rows_other apart, joined.others other apart] }
  have untaken : (linked.reverse.foldl (fun tbl child => tbl.modify child (·.cleanupParent idx))
      (middle.modify idx ({ · with state := .invalid }))).rows idx =
      { middle.rows idx with state := .invalid } := by
    rw [foldl_rows (fun child tbl => tbl.modify child (·.cleanupParent idx))
        (·.cleanupParent idx) (fun _ _ _ _ => modify_rows) (fun _ _ => rfl)
        (nodup_reverse.mpr distinct) rfl,
      if_neg fun mem => another (mem_reverse.mp mem), modify_rows_same]
  have kept {α : Type} (part : SyncTable → α)
      (same : ∀ idx change tbl, part (modify tbl idx change) = part tbl) :
      part (linked.reverse.foldl (fun tbl child => tbl.modify child (·.cleanupParent idx))
        (middle.modify idx ({ · with state := .invalid }))) = part middle :=
    (foldl_keeps (fun child tbl => tbl.modify child (·.cleanupParent idx)) part
      fun _ _ => same _ _ _).trans (same _ _ _)
  constructor
  case bitmap => exact (kept SyncTable.bitmap fun _ _ _ => rfl).trans joined.bitmap
  case camSyncEventq =>
    exact (kept SyncTable.camSyncEventq fun _ _ _ => rfl).trans joined.camSyncEventq
  case dispatched => exact (kept SyncTable.dispatched fun _ _ _ => rfl).trans joined.dispatched
  case nodes => exact (kept SyncTable.nodes fun _ _ _ => rfl).trans joined.nodes
  case others =>
    intro other apart
    rw [modify_rows_other apart, given.cleaned distinct unlisted apart]
  case invalid => rw [modify_rows_same, untaken]
  case parentsList =>
    rw [modify_rows_same, untaken]
    exact bare.1
  case childrenList => rw [modify_rows_same]
  case waiting =>
    rw [modify_rows_same, untaken]
    exact bare.2

end

theorem camSyncInitGroupObject_effect (distinct : syncObjs.Nodup) (held : dev.rowSpinlocks idx = true)
    (unlisted : ∀ other, idx ∉ (dev.syncTable.rows other).parentsList)
    (done : camSyncInitGroupObject idx syncObjs allocs dev = some (code, after)) :
    GroupEffect dev.syncTable dev.rowSpinlocks idx syncObjs code after := by
  obtain ⟨⟨result, stop, looped⟩, loop, remaining⟩ := Option.bind_eq_some_iff.mp done
  have started : (dev.run (·.modify idx (·.camSyncInitRow idx .group))).rowSpinlocks idx = true :=
    held
  have effect := linkChildren_effect joined_nil.1 joined_nil.2 (fun _ mem => absurd mem not_mem_nil)
    (by exact distinct : ([] ++ syncObjs).Nodup) not_mem_nil started rfl loop
  rw [nil_append] at effect
  cases effect with
  | linked another mergeable joined group =>
    cases remaining
    refine .merged another mergeable { joined with others := fun other apart => ?_ } ?_
    · rw [modify_rows_other apart, joined.others other apart]
    · rw [modify_rows_same, group]
  | failed joined outside bare =>
    obtain ⟨cleaned, cleanup, final⟩ := Option.map_eq_some_iff.mp remaining
    cases final
    rw [eachRow_eq_some cleanup]
    have lt := distinct.sublist (take_sublist stop syncObjs)
    exact .failed (joined.abandoned lt outside unlisted bare)

end Steps

end KernelModules.CamSync

import KernelModules.CamSync.Calls

namespace KernelModules.CamSync

open Data List Function

/-! # The links between groups and their children

A parent that is listed lists the child.  The other way round it need not: a child that is signaled leaves its entry
behind.
-/

structure SyncTable.Linked (table : SyncTable) : Prop where
  reserved : table.bitmap 0 = true
  nobody : (table.rows 0).state = .invalid
  free : ∀ idx, table.bitmap idx = false → (table.rows idx).state = .invalid
  up : ∀ child parent, parent ∈ (table.rows child).parentsList →
    (table.rows child).state = .active ∧ (table.rows child).type = .indv ∧ child ∈ (table.rows parent).childrenList
  down : ∀ parent child, child ∈ (table.rows parent).childrenList →
    (table.rows parent).type = .group ∧ (table.rows parent).state ≠ .invalid ∧ child ≠ 0
  distinctUp : ∀ idx, (table.rows idx).parentsList.Nodup
  distinctDown : ∀ idx, (table.rows idx).childrenList.Nodup

structure SyncTableRow.SameLinks (row other : SyncTableRow) : Prop where
  type : row.type = other.type
  parentsList : row.parentsList = other.parentsList
  childrenList : row.childrenList = other.childrenList
  invalid : row.state = .invalid ↔ other.state = .invalid

namespace SyncTableRow

variable {row : SyncTableRow}

@[simp] theorem dispatched_frame : (row.dispatched eventq).state = row.state ∧
    (row.dispatched eventq).type = row.type ∧ (row.dispatched eventq).parentsList = row.parentsList ∧
    (row.dispatched eventq).childrenList = row.childrenList ∧
    (row.dispatched eventq).remaining = row.remaining := by
  unfold dispatched
  split <;> exact ⟨rfl, rfl, rfl, rfl, rfl⟩

theorem updateParentState_valid {state : SyncState} (valid : status ≠ .invalid)
    (found : SyncState.updateParentState status state = some updated) : state ≠ .invalid ∧ updated ≠ .invalid := by
  cases state <;> cases found <;> simp [valid]

theorem childSignaled_sameLinks (row : SyncTableRow) (eventq : Bool)
    (valid : status ≠ .invalid) : (row.childSignaled status eventq).SameLinks row := by
  unfold childSignaled
  dsimp only
  split
  · exact ⟨rfl, rfl, rfl, Iff.rfl⟩
  · rename_i state found
    obtain ⟨before, after⟩ := updateParentState_valid valid found
    split
    · exact ⟨by simp, by simp, by simp, by simp [before, after]⟩
    · exact ⟨rfl, rfl, rfl, by simp [before, after]⟩

end SyncTableRow

namespace SyncTable

variable {table after : SyncTable} {idx other : Nat} {state : SyncState} {synxObj : Bool}

theorem probed_linked : probed.Linked where
  reserved := rfl
  nobody := rfl
  free := fun _ _ => rfl
  up := fun _ _ mem => absurd mem not_mem_nil
  down := fun _ _ mem => absurd mem not_mem_nil
  distinctUp := fun _ => nodup_nil
  distinctDown := fun _ => nodup_nil

namespace Linked

section

variable (linked : table.Linked)
include linked

theorem parent_live (mem : parent ∈ (table.rows child).parentsList) :
    (table.rows parent).type = .group ∧ (table.rows parent).state ≠ .invalid ∧ parent ≠ 0 := by
  obtain ⟨group, live, _⟩ := linked.down _ _ (linked.up _ _ mem).2.2
  refine ⟨group, live, ?_⟩
  rintro rfl
  exact live linked.nobody

theorem parents_nonzero : (table.rows child).parentsList.filter (· != 0) = (table.rows child).parentsList := by
  refine filter_eq_self.mpr fun parent mem => ?_
  simpa using (linked.parent_live mem).2.2

theorem children_nonzero : (table.rows parent).childrenList.filter (· != 0) = (table.rows parent).childrenList := by
  refine filter_eq_self.mpr fun child mem => ?_
  simpa using (linked.down _ _ mem).2.2

theorem invalid_lists (invalid : (table.rows idx).state = .invalid) :
    (table.rows idx).parentsList = [] ∧ (table.rows idx).childrenList = [] := by
  constructor
  · refine eq_nil_iff_forall_not_mem.mpr fun parent mem => ?_
    have active := (linked.up _ _ mem).1
    rw [invalid] at active
    cases active
  · exact eq_nil_iff_forall_not_mem.mpr fun child mem =>
      (linked.down _ _ mem).2.1 invalid

theorem group_parents (group : (table.rows idx).type = .group) : (table.rows idx).parentsList = [] := by
  refine eq_nil_iff_forall_not_mem.mpr fun parent mem => ?_
  have individual := (linked.up _ _ mem).2.1
  rw [group] at individual
  cases individual

theorem unlisted (invalid : (table.rows idx).state = .invalid) :
    idx ∉ (table.rows other).parentsList := fun mem => (linked.parent_live mem).2.1 invalid

theorem parents_active (idx : Nat) : (table.rows idx).parentsList = [] ∨ (table.rows idx).state = .active := by
  cases parents : (table.rows idx).parentsList with
  | nil => exact .inl rfl
  | cons parent rest =>
    exact .inr (linked.up idx parent (by rw [parents]; exact mem_cons_self)).1

theorem of_sameLinks (bits : after.bitmap = table.bitmap)
    (type : ∀ idx, (after.rows idx).type = (table.rows idx).type)
    (invalid : ∀ idx, (after.rows idx).state = .invalid ↔ (table.rows idx).state = .invalid)
    (children : ∀ idx, (after.rows idx).childrenList = (table.rows idx).childrenList)
    (parents : ∀ idx, (after.rows idx).parentsList = [] ∨ (after.rows idx).state = .active ∧
      (after.rows idx).parentsList = (table.rows idx).parentsList) : after.Linked where
  reserved := by rw [bits]; exact linked.reserved
  nobody := (invalid 0).mpr linked.nobody
  free := fun idx clear => (invalid idx).mpr (linked.free idx (by rwa [bits] at clear))
  up := fun child parent mem => by
    rcases parents child with none | ⟨active, same⟩
    · rw [none] at mem
      cases mem
    · rw [same] at mem
      obtain ⟨_, individual, back⟩ := linked.up _ _ mem
      exact ⟨active, (type child).trans individual, by rwa [children parent]⟩
  down := fun parent child mem => by
    rw [children parent] at mem
    obtain ⟨group, live, named⟩ := linked.down _ _ mem
    exact ⟨(type parent).trans group, fun gone => live ((invalid parent).mp gone), named⟩
  distinctUp := fun idx => by
    rcases parents idx with none | ⟨_, same⟩
    · rw [none]
      exact nodup_nil
    · rw [same]
      exact linked.distinctUp idx
  distinctDown := fun idx => by rw [children idx]; exact linked.distinctDown idx

end

end Linked

theorem enterSignal_told_rows :
    (((table.enterSignal idx state).dispatchSignaledCb idx state eventCause).spliceParents idx).rows other =
      if other = idx then (table.rows idx).objectSignaled state table.camSyncEventq else table.rows other := by
  unfold spliceParents enterSignal
  rw [modify_rows]
  split
  · rw [dispatchSignaledCb_rows, modify_rows_same, modify_rows_same, modify_rows_same]
    rfl
  · rename_i apart
    simp [apart]

theorem enterSignal_told_parentsList :
    (((table.enterSignal idx state).dispatchSignaledCb idx state eventCause).rows idx).parentsList =
      (table.rows idx).parentsList := by
  simp [enterSignal]

theorem enterSignal_told_frame :
    (((table.enterSignal idx state).dispatchSignaledCb idx state eventCause).spliceParents idx).bitmap =
        table.bitmap ∧ (((table.enterSignal idx state).dispatchSignaledCb idx state eventCause).spliceParents
        idx).camSyncEventq = table.camSyncEventq ∧
      (((table.enterSignal idx state).dispatchSignaledCb idx state eventCause).spliceParents
        idx).nodes = table.nodes := by
  simp [spliceParents, enterSignal]

theorem signalObject_rows (linked : table.Linked) (individual : (table.rows idx).type = .indv) :
    (table.signalObject idx state eventCause).rows other =
      if other = idx then (table.rows idx).objectSignaled state table.camSyncEventq
      else if other ∈ (table.rows idx).parentsList then (table.rows other).childSignaled state table.camSyncEventq
      else table.rows other := by
  unfold signalObject
  dsimp only
  rw [enterSignal_told_parentsList, foldl_rows (fun parent table => table.signalParent state eventCause parent)
      (·.childSignaled state table.camSyncEventq)
      (fun _ _ _ opened => by rw [signalParent_rows, opened])
      (fun _ _ => signalParent_frame.2.1) (linked.distinctUp idx) enterSignal_told_frame.2.1,
    enterSignal_told_rows]
  by_cases same : other = idx
  · rw [if_pos same, if_pos same, if_neg]
    intro mem
    have group := (linked.parent_live mem).1
    rw [same, individual] at group
    cases group
  · simp [if_neg same]

theorem signalObject_frame : (table.signalObject idx state eventCause).bitmap = table.bitmap ∧
      (table.signalObject idx state eventCause).camSyncEventq = table.camSyncEventq ∧
      (table.signalObject idx state eventCause).nodes = table.nodes := by
  have folds {α : Type} (part : SyncTable → α) (rows : List Nat) (table : SyncTable)
      (keeps : ∀ parent table, part (SyncTable.signalParent state eventCause parent table) = part table) :
      part (rows.foldl (fun table parent => table.signalParent state eventCause parent) table) = part table :=
    foldl_keeps (fun parent table => table.signalParent state eventCause parent) part keeps
  exact ⟨(folds bitmap _ _ fun _ _ => signalParent_frame.1).trans enterSignal_told_frame.1,
    (folds camSyncEventq _ _ fun _ _ => signalParent_frame.2.1).trans enterSignal_told_frame.2.1,
    (folds nodes _ _ fun _ _ => signalParent_frame.2.2).trans enterSignal_told_frame.2.2⟩

section

variable (linked : table.Linked) (active : (table.rows idx).state = .active)
  (individual : (table.rows idx).type = .indv) (valid : state ≠ .invalid)
include linked active individual valid

theorem signalObject_links (other : Nat) (eventCause : BitVec 32) :
    let row := (table.signalObject idx state eventCause).rows other
    row.type = (table.rows other).type ∧ (row.state = .invalid ↔ (table.rows other).state = .invalid) ∧
      row.childrenList = (table.rows other).childrenList ∧ (row.parentsList = [] ∨ row.state = .active ∧
        row.parentsList = (table.rows other).parentsList) := by
  rw [signalObject_rows linked individual]
  split
  · rename_i same
    rw [same]
    refine ⟨by simp [SyncTableRow.objectSignaled], ?_, by simp [SyncTableRow.objectSignaled], .inl rfl⟩
    simp [SyncTableRow.objectSignaled, active, valid]
  split
  · rename_i mem
    have same := (table.rows other).childSignaled_sameLinks table.camSyncEventq valid
    refine ⟨same.type, same.invalid, same.childrenList, .inl ?_⟩
    rw [same.parentsList, linked.group_parents (linked.parent_live mem).1]
  · refine ⟨rfl, Iff.rfl, rfl, (linked.parents_active other).imp_right fun active => ?_⟩
    exact ⟨active, rfl⟩

theorem Linked.signalObject : (table.signalObject idx state eventCause).Linked :=
  linked.of_sameLinks signalObject_frame.1 (fun _ => (signalObject_links linked active individual valid _ _).1)
    (fun _ => (signalObject_links linked active individual valid _ _).2.1)
    (fun _ => (signalObject_links linked active individual valid _ _).2.2.1)
    (fun _ => (signalObject_links linked active individual valid _ _).2.2.2)

end

theorem destroyObject_rows (linked : table.Linked) : (table.destroyObject idx).rows other =
      if other = idx then .cleared else { table.rows other with
          parentsList := (table.rows other).parentsList.erase idx
          childrenList := if other ∈ (table.rows idx).parentsList then
            (table.rows other).childrenList.erase idx else (table.rows other).childrenList } := by
  unfold destroyObject finishDestroy
  rw [clearBit_rows, modify_rows]
  refine if_ctx_congr Iff.rfl (fun _ => rfl) fun apart => ?_
  have started : (table.beginDestroy idx).rows other = table.rows other :=
    modify_rows_other apart
  rw [linked.parents_nonzero, linked.children_nonzero, foldl_rows
      (fun parent table => table.unlinkChild idx parent)
      (fun row => if row.state = .invalid then row else row.cleanupChild idx)
      (fun _ _ _ _ => unlinkChild_rows) (fun _ _ => unlinkChild_frame.2.1)
      (linked.distinctUp idx) rfl,
    foldl_rows (fun child table => table.unlinkParent idx child)
      (fun row => if row.state = .invalid then row else row.cleanupParent idx)
      (fun _ _ _ _ => unlinkParent_rows) (fun _ _ => unlinkParent_frame.2.1)
      (linked.distinctDown idx) rfl, started]
  have cleaned : (if other ∈ (table.rows idx).childrenList then
        if (table.rows other).state = .invalid then table.rows other
        else (table.rows other).cleanupParent idx
      else table.rows other) = (table.rows other).cleanupParent idx := by
    have untouched (unlisted : idx ∉ (table.rows other).parentsList) :
        (table.rows other).cleanupParent idx = table.rows other := by
      unfold SyncTableRow.cleanupParent
      rw [erase_of_not_mem unlisted]
    split
    · split
      · rename_i gone
        rw [untouched]
        rw [(linked.invalid_lists gone).1]
        exact not_mem_nil
      · rfl
    · rename_i unlisted
      rw [untouched fun mem => unlisted (linked.up _ _ mem).2.2]
  rw [cleaned]
  split
  · rename_i mem
    rw [if_neg]
    · rfl
    · exact (linked.parent_live mem).2.1
  · rfl

theorem destroyObject_frame : (table.destroyObject idx).bitmap = update table.bitmap idx false ∧
      (table.destroyObject idx).camSyncEventq = table.camSyncEventq ∧
      (table.destroyObject idx).dispatched = table.dispatched ∧ (table.destroyObject idx).nodes = table.nodes := by
  have folds {α : Type} (part : SyncTable → α) (children parents : List Nat)
      (up : ∀ child table, part (SyncTable.unlinkParent idx child table) = part table)
      (down : ∀ parent table, part (SyncTable.unlinkChild idx parent table) = part table) :
      part (parents.foldl (fun table parent => table.unlinkChild idx parent)
        (children.foldl (fun table child => table.unlinkParent idx child)
          (table.beginDestroy idx))) = part (table.beginDestroy idx) :=
    (foldl_keeps (fun parent table => table.unlinkChild idx parent) part down).trans
      (foldl_keeps (fun child table => table.unlinkParent idx child) part up)
  refine ⟨?_, ?_, ?_, ?_⟩
  · exact congrArg (update · idx false) (folds bitmap _ _ (fun _ _ => unlinkParent_frame.1)
      fun _ _ => unlinkChild_frame.1)
  · exact folds camSyncEventq _ _ (fun _ _ => unlinkParent_frame.2.1) fun _ _ => unlinkChild_frame.2.1
  · exact folds dispatched _ _ (fun _ _ => unlinkParent_frame.2.2.1) fun _ _ => unlinkChild_frame.2.2.1
  · exact folds nodes _ _ (fun _ _ => unlinkParent_frame.2.2.2) fun _ _ => unlinkChild_frame.2.2.2

theorem Linked.destroyObject (linked : table.Linked) (live : (table.rows idx).state ≠ .invalid) :
    (table.destroyObject idx).Linked := by
  have named : (0 : Nat) ≠ idx := by
    rintro rfl
    exact live linked.nobody
  constructor
  case reserved =>
    rw [destroyObject_frame.1, update_of_ne named]
    exact linked.reserved
  case nobody =>
    rw [destroyObject_rows linked, if_neg named]
    exact linked.nobody
  case free =>
    intro other clear
    rw [destroyObject_frame.1] at clear
    rw [destroyObject_rows linked]
    split
    · rfl
    · rename_i apart
      rw [update_of_ne apart] at clear
      exact linked.free other clear
  case up =>
    intro child parent mem
    rw [destroyObject_rows linked] at mem
    split at mem
    · cases mem
    rename_i apart
    obtain ⟨another, mem⟩ := (linked.distinctUp child).mem_erase_iff.mp mem
    obtain ⟨active, individual, back⟩ := linked.up _ _ mem
    rw [destroyObject_rows linked, destroyObject_rows linked, if_neg apart, if_neg another]
    refine ⟨active, individual, ?_⟩
    split
    · exact (mem_erase_of_ne apart).mpr back
    · exact back
  case down =>
    intro parent child mem
    rw [destroyObject_rows linked] at mem ⊢
    split at mem
    · cases mem
    rename_i apart
    rw [if_neg apart]
    refine linked.down parent child ?_
    split at mem
    · exact mem_of_mem_erase mem
    · exact mem
  case distinctUp =>
    intro other
    rw [destroyObject_rows linked]
    split
    · exact nodup_nil
    · exact (linked.distinctUp other).erase idx
  case distinctDown =>
    intro other
    rw [destroyObject_rows linked]
    split
    · exact nodup_nil
    · split
      · exact (linked.distinctDown other).erase idx
      · exact linked.distinctDown other

theorem createObject_rows : (table.createObject idx synxObj).rows other = if other = idx then
        { (table.rows idx).camSyncInitRow idx .indv with
          synxObj := synxObj || (table.rows idx).synxObj }
      else table.rows other := by
  unfold createObject
  rw [modify_rows, modify_rows_same, modify_rows]
  split <;> rfl

theorem createObject_bitmap : (table.createObject idx synxObj).bitmap = update table.bitmap idx true := rfl

theorem Linked.of_fresh (linked : table.Linked) (free : (table.rows idx).state = .invalid)
    (named : idx ≠ 0) (bits : ∀ other, other ≠ idx → after.bitmap other = table.bitmap other)
    (bit : after.bitmap idx = false → (after.rows idx).state = .invalid)
    (others : ∀ other, other ≠ idx → after.rows other = table.rows other)
    (parents : (after.rows idx).parentsList = []) (children : (after.rows idx).childrenList = []) : after.Linked := by
  have kept : ∀ child parent, parent ∈ (after.rows child).parentsList →
      child ≠ idx ∧ parent ≠ idx ∧ parent ∈ (table.rows child).parentsList := by
    intro child parent mem
    have apart : child ≠ idx := by
      rintro rfl
      rw [parents] at mem
      cases mem
    rw [others _ apart] at mem
    refine ⟨apart, ?_, mem⟩
    rintro rfl
    exact linked.unlisted free mem
  have keptDown : ∀ parent child, child ∈ (after.rows parent).childrenList →
      parent ≠ idx ∧ child ∈ (table.rows parent).childrenList := by
    intro parent child mem
    have apart : parent ≠ idx := by
      rintro rfl
      rw [children] at mem
      cases mem
    exact ⟨apart, by rwa [others _ apart] at mem⟩
  constructor
  case reserved =>
    rw [bits 0 named.symm]
    exact linked.reserved
  case nobody =>
    rw [others 0 named.symm]
    exact linked.nobody
  case free =>
    intro other clear
    rcases eq_or_ne other idx with rfl | apart
    · exact bit clear
    · rw [bits other apart] at clear
      rw [others _ apart]
      exact linked.free other clear
  case up =>
    intro child parent mem
    obtain ⟨apart, another, mem⟩ := kept child parent mem
    rw [others _ apart, others _ another]
    exact linked.up _ _ mem
  case down =>
    intro parent child mem
    obtain ⟨apart, mem⟩ := keptDown parent child mem
    rw [others _ apart]
    exact linked.down _ _ mem
  case distinctUp =>
    intro other
    rcases eq_or_ne other idx with rfl | apart
    · rw [parents]
      exact nodup_nil
    · rw [others _ apart]
      exact linked.distinctUp other
  case distinctDown =>
    intro other
    rcases eq_or_ne other idx with rfl | apart
    · rw [children]
      exact nodup_nil
    · rw [others _ apart]
      exact linked.distinctDown other

theorem Linked.createObject (linked : table.Linked) (free : table.findFirstZeroBit = some idx)
    (named : idx ≠ 0) : (table.createObject idx synxObj).Linked :=
  linked.of_fresh (linked.free idx (findFirstZeroBit_clear free).1) named (fun _ apart => update_of_ne apart _ _)
    (fun clear => by rw [createObject_bitmap, update_self] at clear; cases clear)
    (fun _ apart => by rw [createObject_rows, if_neg apart])
    (by rw [createObject_rows, if_pos rfl]; rfl) (by rw [createObject_rows, if_pos rfl]; rfl)

end SyncTable

end KernelModules.CamSync

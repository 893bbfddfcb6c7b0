import KernelModules.Synx.Accounting
import Mathlib.Data.List.TakeWhile

namespace KernelModules.Synx

open SynxSharedMem List Data
open SynxGlobalCoredata hiding numChild parents refcount status

/-! # Merges that fail

A merge may come to an invalid index, a lock it does not get, or a constituent without a free place.  Its error path
goes by the constituents counted, not by how far the loop has come.
-/

/-- What `synx_gmem_lock` returns: for the constituents in the loop, for the composite entry, and
for the constituents in the error path. -/
structure MergeLocks where
  mark : Nat → Int
  parent : Int
  undo : Nat → Int

structure LockedMarking where
  mem : SynxSharedMem
  numChild : Nat
  parentStatus : Nat
  rc : Int
  failed : Bool

def LockedMarking.start (mem : SynxSharedMem) : LockedMarking := ⟨mem, 0, synxStateActive, -22, false⟩

/-- The loop of `synx_global_merge`. -/
def markLocked (locks : MergeLocks) (pIdx : Nat) : List Nat → LockedMarking → LockedMarking
  | [], marking => marking
  | idx :: rest, marking =>
    if !synxIsValidIdx idx then { marking with failed := true }
    else if locks.mark idx ≠ 0 then { marking with rc := locks.mark idx, failed := true }
    else let entry := marking.mem.table idx
      let counted : LockedMarking := { mem := marking.mem.put idx (entry.withParent pIdx)
                                       numChild := marking.numChild + countedChild entry
                                       parentStatus := mergedStatus marking.parentStatus entry
                                       rc := 0, failed := false }
      if 0 ∈ entry.parents then markLocked locks pIdx rest counted
      else { counted with rc := -12, failed := true }

/-- The error path, over `idx_list[num_child - 1]` down to `idx_list[0]`. -/
def unmarkLocked (locks : MergeLocks) (pIdx : Nat) (idxs : List Nat) (mem : SynxSharedMem) : SynxSharedMem :=
  idxs.foldr (fun idx mem =>
    if locks.undo idx ≠ 0 then mem else mem.put idx ((mem.table idx).withoutParent pIdx)) mem

/-- `synx_global_merge` of distinct constituents, with what it returns. -/
def synxGlobalMergeLocked (locks : MergeLocks) (mem : SynxSharedMem) (idxList : List Nat) (pIdx : Nat) :
    SynxSharedMem × Int :=
  if !synxIsValidIdx pIdx then (mem, -22)
  else if idxList = [] then (mem, 0)
  else let marking := markLocked locks pIdx idxList (.start mem)
    let unmarked := unmarkLocked locks pIdx (idxList.take marking.numChild) marking.mem
    if marking.failed then (unmarked, marking.rc)
    else if locks.parent ≠ 0 then (unmarked, locks.parent)
    else let entry := marking.mem.table pIdx
      let numChild := entry.numChild + BitVec.ofNat 16 marking.numChild
      (marking.mem.put pIdx { entry with
        numChild := numChild
        refcount := if numChild ≠ 0 then entry.refcount + 1 else entry.refcount
        status := marking.parentStatus }, 0)

variable (locks : MergeLocks) (mem : SynxSharedMem)

def MergeLocks.reads (idx : Nat) : Bool := synxIsValidIdx idx && locks.mark idx == 0

def placedIdxs (idxs : List Nat) : List Nat :=
  idxs.takeWhile fun idx => locks.reads idx && decide (0 ∈ (mem.table idx).parents)

def readIdxs : List Nat → List Nat
  | [] => []
  | idx :: rest =>
    if locks.reads idx then idx :: if 0 ∈ (mem.table idx).parents then readIdxs rest else [] else []

def undoneIdxs (idxList : List Nat) : List Nat := idxList.take (mem.openChildren (readIdxs locks mem idxList))

/-- The mark is taken out again if there is one, and no other one is. -/
def Restored (idxList : List Nat) (pIdx idx : Nat) : Prop :=
  let parents := (mem.table idx).parents
  if idx ∈ placedIdxs locks mem idxList then
    (idx ∈ undoneIdxs locks mem idxList ∧ locks.undo idx = 0) ∧ pIdx ∉ parents.takeWhile (· ≠ 0)
  else idx ∈ undoneIdxs locks mem idxList ∧ locks.undo idx = 0 → pIdx ∉ parents

instance (idxList : List Nat) (pIdx idx : Nat) : Decidable (Restored locks mem idxList pIdx idx) :=
  inferInstanceAs (Decidable (ite _ (_ ∧ _) (_ → _)))

section Undoing

variable {locks mem} {idxs idxList parents : List Nat} {pIdx idx : Nat} {marking : LockedMarking}

theorem replace_cons_ne {parent free taken : Nat} (apart : parent ≠ free) :
    (parent :: parents).replace free taken = parent :: parents.replace free taken := by
  rw [replace_cons, beq_false_of_ne (Ne.symm apart)]

section

variable (positive : pIdx ≠ 0)
include positive

theorem replace_back_iff (free : 0 ∈ parents) :
    (parents.replace 0 pIdx).replace pIdx 0 = parents ↔ pIdx ∉ parents.takeWhile (· ≠ 0) := by
  induction parents with
  | nil => cases free
  | cons parent rest ih =>
    by_cases zero : parent = 0
    · simp [zero]
    · have later : 0 ∈ rest := by simpa [Ne.symm zero] using free
      by_cases same : parent = pIdx
      · rw [replace_cons_ne zero, same]
        simp [positive, Ne.symm positive]
      · rw [replace_cons_ne zero, replace_cons_ne same]
        simpa [zero, Ne.symm same] using ih later

theorem replace_free_ne (free : 0 ∈ parents) : parents.replace 0 pIdx ≠ parents := by
  induction parents with
  | nil => cases free
  | cons parent rest ih =>
    by_cases zero : parent = 0
    · simp [zero, positive]
    · have later : 0 ∈ rest := by simpa [Ne.symm zero] using free
      simp [replace_cons_ne zero, ih later]

theorem replace_taken_iff : parents.replace pIdx 0 = parents ↔ pIdx ∉ parents := by
  induction parents with
  | nil => simp
  | cons parent rest ih =>
    by_cases same : parent = pIdx
    · simp [same, Ne.symm positive]
    · simp [replace_cons_ne same, Ne.symm same, ih]

end

theorem openChildren_cons : mem.openChildren (idx :: idxs) = countedChild (mem.table idx) + mem.openChildren idxs := by
  rw [countedChild_eq]
  cases done : (mem.table idx).completed <;> simp [openChildren, done, add_comm]

theorem markLocked_spec (locks : MergeLocks) (pIdx : Nat) (marking : LockedMarking) (nodup : idxs.Nodup)
    (same : ∀ idx ∈ idxs, marking.mem.table idx = mem.table idx) :
    let after := markLocked locks pIdx idxs marking
    (∀ other, after.mem.table other = if other ∈ placedIdxs locks mem idxs then (mem.table other).withParent pIdx
      else marking.mem.table other) ∧
      after.numChild = marking.numChild + mem.openChildren (readIdxs locks mem idxs) := by
  induction idxs generalizing marking with
  | nil => exact ⟨fun _ => rfl, rfl⟩
  | cons idx rest ih =>
    obtain ⟨fresh, distinctRest⟩ := nodup_cons.mp nodup
    have here := same idx mem_cons_self
    by_cases reads : locks.reads idx = true
    · obtain ⟨valid, taken⟩ := Bool.and_eq_true_iff.mp reads
      rw [beq_iff_eq] at taken
      by_cases free : 0 ∈ (mem.table idx).parents
      · have others (other : Nat) (among : other ∈ rest) : (marking.mem.put idx
            ((mem.table idx).withParent pIdx)).table other = mem.table other := by
          rw [put_other fun equal => fresh (by rwa [← equal])]
          exact same other (mem_cons_of_mem _ among)
        obtain ⟨tbl, numChild⟩ := ih ⟨marking.mem.put idx ((mem.table idx).withParent pIdx),
          marking.numChild + countedChild (mem.table idx), mergedStatus marking.parentStatus (mem.table idx),
          0, false⟩ distinctRest others
        simp only [markLocked, valid, taken, here, free, readIdxs, reads, openChildren_cons, Bool.not_true,
          Bool.false_eq_true, ne_eq, not_true_eq_false, if_false, if_true]
        refine ⟨fun other => ?_, by rw [numChild, add_assoc]⟩
        have placed : placedIdxs locks mem (idx :: rest) = idx :: placedIdxs locks mem rest := by
          simp [placedIdxs, reads, free]
        rw [tbl, placed]
        by_cases equal : other = idx
        · have absent : idx ∉ placedIdxs locks mem rest := fun among => fresh ((takeWhile_sublist _).subset among)
          simp [equal, absent]
        · simp [equal, put_other equal]
      · have placed : placedIdxs locks mem (idx :: rest) = [] := by simp [placedIdxs, free]
        have full : markLocked locks pIdx (idx :: rest) marking = ⟨marking.mem, marking.numChild +
            countedChild (mem.table idx), mergedStatus marking.parentStatus (mem.table idx), -12, true⟩ := by
          rw [← here] at free ⊢
          simp [markLocked, valid, taken, free, withParent_full free, put_self]
        have none : mem.openChildren [] = 0 := rfl
        simp [full, placed, readIdxs, reads, free, openChildren_cons, none]
    · have placed : placedIdxs locks mem (idx :: rest) = [] := by simp [placedIdxs, reads]
      have none : markLocked locks pIdx (idx :: rest) marking = { marking with failed := true } ∨
          markLocked locks pIdx (idx :: rest) marking =
            { marking with rc := locks.mark idx, failed := true } := by
        cases valid : synxIsValidIdx idx
        · simp [markLocked, valid]
        · have missed : locks.mark idx ≠ 0 := by simpa [MergeLocks.reads, valid] using reads
          simp [markLocked, valid, missed]
      cases none with
      | inl none | inr none => simp [none, placed, readIdxs, reads, openChildren]

theorem unmarkLocked_cons : unmarkLocked locks pIdx (idx :: idxs) mem =
    let later := unmarkLocked locks pIdx idxs mem
    if locks.undo idx ≠ 0 then later else later.put idx ((later.table idx).withoutParent pIdx) := rfl

theorem unmarkLocked_table (nodup : idxs.Nodup) (other : Nat) :
    (unmarkLocked locks pIdx idxs mem).table other = if other ∈ idxs ∧ locks.undo other = 0
      then (mem.table other).withoutParent pIdx else mem.table other := by
  induction idxs with
  | nil => simp [unmarkLocked]
  | cons idx rest ih =>
    obtain ⟨fresh, distinctRest⟩ := nodup_cons.mp nodup
    have later := ih distinctRest
    rw [unmarkLocked_cons]
    by_cases equal : other = idx
    · subst equal
      by_cases missed : locks.undo other = 0 <;> simp [missed, later, fresh]
    · by_cases missed : locks.undo idx = 0 <;> simp [missed, put_other equal, later, equal]

section Failing

variable (locks mem idxList pIdx)

def unmarked : SynxSharedMem := unmarkLocked locks pIdx (undoneIdxs locks mem idxList)
  (markLocked locks pIdx idxList (.start mem)).mem

variable {locks mem idxList pIdx}

theorem unmarked_table (nodup : idxList.Nodup) (idx : Nat) : (unmarked locks mem idxList pIdx).table idx =
    let marked := if idx ∈ placedIdxs locks mem idxList then (mem.table idx).withParent pIdx else mem.table idx
    if idx ∈ undoneIdxs locks mem idxList ∧ locks.undo idx = 0 then marked.withoutParent pIdx else marked := by
  have tbl := (markLocked_spec locks pIdx (.start mem) nodup fun _ _ => rfl).1
  have fresh : (undoneIdxs locks mem idxList).Nodup := nodup.sublist (take_sublist _ _)
  rw [unmarked, unmarkLocked_table fresh, tbl]
  rfl

theorem unmarked_kept (nodup : idxList.Nodup) : (unmarked locks mem idxList pIdx).table idx =
    { mem.table idx with parents := ((unmarked locks mem idxList pIdx).table idx).parents } := by
  rw [unmarked_table nodup]
  split_ifs <;> rfl

theorem unmarked_restored_iff (nodup : idxList.Nodup) (positive : pIdx ≠ 0) :
    ((unmarked locks mem idxList pIdx).table idx).parents = (mem.table idx).parents ↔
      Restored locks mem idxList pIdx idx := by
  rw [unmarked_table nodup, Restored]
  by_cases placed : idx ∈ placedIdxs locks mem idxList
  · obtain ⟨_, free⟩ : locks.reads idx = true ∧ 0 ∈ (mem.table idx).parents := by
      simpa using mem_takeWhile_imp placed
    by_cases undone : idx ∈ undoneIdxs locks mem idxList ∧ locks.undo idx = 0
    · simpa [placed, undone, withParent, withoutParent] using replace_back_iff positive free
    · simp [placed, undone, withParent, replace_free_ne positive free]
  · by_cases undone : idx ∈ undoneIdxs locks mem idxList ∧ locks.undo idx = 0
    · simp [placed, undone, withoutParent, replace_taken_iff positive]
    · simp [placed, undone]

theorem replace_zero : parents.replace 0 0 = parents := by
  induction parents with
  | nil => rfl
  | cons parent rest ih =>
    by_cases zero : parent = 0
    · simp [zero]
    · rw [replace_cons_ne zero, ih]

theorem failed_unmarked (nodup : idxList.Nodup) (valid : synxIsValidIdx pIdx = true)
    (failed : (synxGlobalMergeLocked locks mem idxList pIdx).2 ≠ 0) :
    (synxGlobalMergeLocked locks mem idxList pIdx).1 = unmarked locks mem idxList pIdx := by
  have numChild : (markLocked locks pIdx idxList (.start mem)).numChild =
      mem.openChildren (readIdxs locks mem idxList) :=
    (markLocked_spec locks pIdx (.start mem) nodup fun _ _ => rfl).2.trans (zero_add _)
  unfold unmarked undoneIdxs
  unfold synxGlobalMergeLocked at failed ⊢
  simp only [valid, numChild] at failed ⊢
  split_ifs at failed ⊢ <;> simp_all

/-- A merge that fails leaves its constituents and the composite entry as they were exactly when
every mark is taken out again. -/
theorem failed_merge_traceless_iff (distinct : idxList.Nodup)
    (failed : (synxGlobalMergeLocked locks mem idxList pIdx).2 ≠ 0) :
    let after := (synxGlobalMergeLocked locks mem idxList pIdx).1
    ((∀ idx ∈ idxList, (after.table idx).parents = (mem.table idx).parents) ∧
      after.table pIdx = mem.table pIdx) ↔
        synxIsValidIdx pIdx = false ∨ pIdx = 0 ∨ ∀ idx ∈ idxList, Restored locks mem idxList pIdx idx := by
  cases valid : synxIsValidIdx pIdx with
  | false => simp [synxGlobalMergeLocked, valid]
  | true =>
    rw [failed_unmarked distinct valid failed]
    by_cases zero : pIdx = 0
    · have same (entry : SynxGlobalCoredata) : entry.withParent 0 = entry ∧ entry.withoutParent 0 = entry := by
        simp [SynxGlobalCoredata.withParent, SynxGlobalCoredata.withoutParent, replace_zero]
      simp [zero, unmarked_table distinct, same]
    · simp only [unmarked_restored_iff distinct zero, zero, Bool.true_eq_false, false_or]
      refine ⟨And.left, fun all => ⟨all, ?_⟩⟩
      by_cases among : pIdx ∈ idxList
      · rw [unmarked_kept distinct, (unmarked_restored_iff distinct zero).mpr (all pIdx among)]
      · have unplaced : pIdx ∉ placedIdxs locks mem idxList := fun placed => among ((takeWhile_sublist _).subset placed)
        have kept : pIdx ∉ undoneIdxs locks mem idxList := fun undone => among (mem_of_mem_take undone)
        simp [unmarked_table distinct, unplaced, kept]

def secondTimesOut : MergeLocks where
  mark idx := if idx = 2 then -110 else 0
  parent := 0
  undo _ := 0

theorem failed_merge_traceless_iff_two :
    ∃ history, Reachable synxStep (fun history call => call.byHolder history = true) .init history ∧
      let merged := synxGlobalMergeLocked secondTimesOut history.mem [1, 2] 3
      (history.mem.table 2).status = synxStateSignaledSuccess ∧ merged.2 = -110 ∧
        (∀ idx ∈ [1, 2], (merged.1.table idx).parents = (history.mem.table idx).parents) ∧
        merged.1.table 3 = history.mem.table 3 :=
  reaches [.create, .create, .updateStatus 2 2, .create] (fun history =>
      (history.mem.table 2).status = synxStateSignaledSuccess ∧
      (synxGlobalMergeLocked secondTimesOut history.mem [1, 2] 3).2 = -110 ∧
      ∀ idx ∈ [1, 2], Restored secondTimesOut history.mem [1, 2] 3 idx) (by decide +kernel)
    fun history _ ⟨completed, failed, restored⟩ => ⟨completed, failed,
      (failed_merge_traceless_iff (by decide) (by rw [failed]; decide)).mpr (.inr (.inr restored))⟩

/-- A constituent that has completed is not counted, so that the error path does not come to it. -/
theorem completed_constituent_marked : ¬ ∀ locks history idxList pIdx,
    Reachable synxStep (fun history call => call.byHolder history = true) .init history → idxList.Nodup →
      (synxGlobalMergeLocked locks history.mem idxList pIdx).2 ≠ 0 →
        let after := (synxGlobalMergeLocked locks history.mem idxList pIdx).1
        (∀ idx ∈ idxList, (after.table idx).parents = (history.mem.table idx).parents) ∧
          after.table pIdx = history.mem.table pIdx := by
  intro always
  obtain ⟨history, kept, failed, marked⟩ := holds_after (always secondTimesOut · [1, 2] 3)
    [.create, .create, .updateStatus 1 2, .create] (fun history =>
      let merged := synxGlobalMergeLocked secondTimesOut history.mem [1, 2] 3
      merged.2 ≠ 0 ∧ (merged.1.table 1).parents ≠ (history.mem.table 1).parents) (by decide +kernel)
  exact marked ((kept (by decide) failed).1 1 mem_cons_self)

end Failing

end Undoing

end KernelModules.Synx

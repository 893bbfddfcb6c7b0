import KernelModules.Synx.References

namespace KernelModules.Synx

open SynxSharedMem List

/-! # Marking the children of a composite entry

What the loop of a merge and its error path do to the parents of the children.
-/

structure Reparented (idxs : List Nat) (before after : SynxSharedMem) : Prop where
  bitmap : after.bitmap = before.bitmap
  cleared : after.cleared = before.cleared
  kept : ∀ child, after.table child = { before.table child with parents := (after.table child).parents }
  untouched : ∀ child, child ∉ idxs → after.table child = before.table child

/-- The children in `marks` are marked once more for each time they are in the list. -/
structure Marked (pIdx : Nat) (marks : List Nat) (before after : SynxSharedMem) : Prop where
  reparented : Reparented marks before after
  others : ∀ child q, q ≠ 0 → q ≠ pIdx → (after.table child).parents.count q = (before.table child).parents.count q
  counts : ∀ child, (after.table child).parents.count pIdx =
    (before.table child).parents.count pIdx + marks.count child
  places : ∀ child, (after.table child).parents.count 0 + marks.count child = (before.table child).parents.count 0

/-- The children in `idxs` lose a mark for each time they are in the list. -/
structure Unmarked (pIdx : Nat) (idxs : List Nat) (before after : SynxSharedMem) : Prop where
  reparented : Reparented idxs before after
  others : ∀ child q, q ≠ 0 → q ≠ pIdx → (after.table child).parents.count q = (before.table child).parents.count q
  counts : ∀ child, (after.table child).parents.count pIdx =
    (before.table child).parents.count pIdx - idxs.count child

/-- How many of the children, from the start of the list, find a free place, when those in `marks`
took one before. -/
def SynxSharedMem.placed (mem : SynxSharedMem) : List Nat → List Nat → Nat
  | _, [] => 0
  | marks, idx :: rest =>
    if marks.count idx < (mem.table idx).parents.count 0 then mem.placed (marks ++ [idx]) rest + 1
    else 0

def SynxSharedMem.openChildren (mem : SynxSharedMem) (idxs : List Nat) : Nat :=
  idxs.countP fun idx => !(mem.table idx).completed

theorem Reparented.refl : Reparented [] mem mem := ⟨rfl, rfl, fun _ => rfl, fun _ _ => rfl⟩

theorem Reparented.put (reparented : Reparented idxs before between) (parents : List Nat) :
    Reparented (idxs ++ [idx]) before
      (between.put idx { between.table idx with parents := parents }) where
  bitmap := reparented.bitmap
  cleared := reparented.cleared
  kept := by
    intro child
    by_cases here : child = idx
    · subst here
      rw [put_here, reparented.kept child]
    · rw [put_other here]
      exact reparented.kept child
  untouched := by
    intro child absent
    rw [mem_append, mem_singleton, not_or] at absent
    rw [put_other absent.2]
    exact reparented.untouched child absent.1

theorem Reparented.completed {after : SynxSharedMem} (reparented : Reparented idxs before after) (child : Nat) :
    (after.table child).completed = (before.table child).completed := by
  rw [reparented.kept child]
  rfl

theorem count_replace_zero {parents : List Nat} (pos : pIdx ≠ 0) (free : 0 ∈ parents) (q : Nat) :
    (parents.replace 0 pIdx).count q + (if q = 0 then 1 else 0) = parents.count q + if q = pIdx then 1 else 0 := by
  rw [count_replace, if_pos (contains_iff_mem.mpr free)]
  have zeros := count_pos_iff.mpr free
  by_cases zero : q = 0
  · subst zero
    simp [pos, Ne.symm pos]
    omega
  · by_cases same : q = pIdx
    · subst same
      simp [zero, Ne.symm zero]
    · simp [zero, same, Ne.symm zero, Ne.symm same]

theorem Marked.refl (pIdx : Nat) (mem : SynxSharedMem) : Marked pIdx [] mem mem :=
  ⟨.refl, fun _ _ _ _ => rfl, fun _ => rfl, fun _ => rfl⟩

theorem Marked.put (marked : Marked pIdx marks before between) (pos : pIdx ≠ 0)
    (free : 0 ∈ (between.table idx).parents) : Marked pIdx (marks ++ [idx]) before
      (between.put idx ((between.table idx).withParent pIdx)) := by
  have counts := count_replace_zero pos free
  refine ⟨marked.reparented.put _, ?_, ?_, ?_⟩
  · intro child q ne other
    by_cases here : child = idx
    · subst here
      have count := counts q
      rw [if_neg ne, if_neg other] at count
      rw [put_here]
      exact count.trans (marked.others child q ne other)
    · rw [put_other here]
      exact marked.others child q ne other
  · intro child
    rw [count_append]
    by_cases here : child = idx
    · subst here
      have count := counts pIdx
      rw [if_neg pos, if_pos rfl, marked.counts child] at count
      rw [put_here, count_singleton_self]
      exact count
    · rw [put_other here, count_singleton, if_neg (by simp [Ne.symm here])]
      exact marked.counts child
  · intro child
    have places := marked.places child
    rw [count_append]
    by_cases here : child = idx
    · subst here
      have count := counts 0
      rw [if_pos rfl, if_neg (Ne.symm pos)] at count
      rw [put_here, count_singleton_self]
      show (List.replace _ 0 pIdx).count 0 + _ = _
      omega
    · rw [put_other here, count_singleton, if_neg (by simp [Ne.symm here])]
      exact places

theorem countedChild_eq (child : SynxGlobalCoredata) : countedChild child = if child.completed then 0 else 1 := by
  unfold countedChild SynxGlobalCoredata.completed
  by_cases active : child.status = synxStateActive
  · simp [active]
  · simp [active]

theorem withParent_full {entry : SynxGlobalCoredata} (full : 0 ∉ entry.parents) : entry.withParent pIdx = entry := by
  unfold SynxGlobalCoredata.withParent
  rw [replace_of_not_mem full]

theorem markChildren_marked (pos : pIdx ≠ 0) (valid : ∀ idx ∈ idxs, synxIsValidIdx idx = true)
    (marked : Marked pIdx marks before mem) (numChild status : Nat) (rc : Option SynxError) :
    let marking := markChildren pIdx idxs mem numChild status rc
    Marked pIdx (marks ++ idxs.take (before.placed marks idxs)) before marking.mem ∧
      marking.failed = decide (before.placed marks idxs < idxs.length) ∧
      marking.numChild = numChild + before.openChildren (idxs.take (before.placed marks idxs + 1)) ∧
      marking.rc = if marking.failed then some .nomem else none := by
  induction idxs generalizing marks mem numChild status rc with
  | nil =>
    rw [take_nil, append_nil]
    exact ⟨marked, rfl, rfl, rfl⟩
  | cons idx rest ih =>
    have places := marked.places idx
    have validRest := fun other among => valid other (mem_cons_of_mem idx among)
    have counted : countedChild (mem.table idx) = if (before.table idx).completed then 0 else 1 := by
      rw [countedChild_eq, marked.reparented.completed]
    have inside : ¬ (!synxIsValidIdx idx) = true := by
      rw [valid idx mem_cons_self]
      decide
    rw [markChildren, if_neg inside, placed]
    by_cases free : 0 ∈ (mem.table idx).parents
    · have zeros := count_pos_iff.mpr free
      have room : marks.count idx < (before.table idx).parents.count 0 := by omega
      rw [if_pos free, if_pos room]
      obtain ⟨all, failed, children, error⟩ := ih validRest (marked.put pos free)
        (numChild + countedChild (mem.table idx)) (mergedStatus status (mem.table idx)) none
      refine ⟨?_, ?_, ?_, error⟩
      · rw [append_assoc] at all
        exact all
      · rw [failed, length_cons]
        apply decide_eq_decide.mpr
        omega
      · rw [children, counted, take_succ_cons]
        unfold openChildren
        rw [countP_cons]
        cases (before.table idx).completed
        · simp
          omega
        · simp
    · have zeros : (mem.table idx).parents.count 0 = 0 := count_eq_zero.mpr free
      have full : ¬ marks.count idx < (before.table idx).parents.count 0 := by omega
      rw [if_neg free, if_neg full, withParent_full free, put_self]
      refine ⟨?_, ?_, ?_, rfl⟩
      · rw [take_zero, append_nil]
        exact marked
      · exact (decide_eq_true (Nat.zero_lt_succ _)).symm
      · rw [counted, take_succ_cons]
        unfold openChildren
        rw [countP_cons]
        cases (before.table idx).completed
        · simp
        · simp

theorem Unmarked.put (unmarked : Unmarked pIdx idxs before between) (pos : pIdx ≠ 0) :
    Unmarked pIdx (idxs ++ [idx]) before (between.put idx ((between.table idx).withoutParent pIdx)) := by
  have counts (q : Nat) (ne : q ≠ 0) : ((between.table idx).parents.replace pIdx 0).count q =
        (between.table idx).parents.count q - if q = pIdx then 1 else 0 := by
    rw [count_replace]
    by_cases among : (between.table idx).parents.contains pIdx = true
    · rw [if_pos among]
      by_cases same : q = pIdx
      · subst same
        simp [Ne.symm ne]
      · simp [same, Ne.symm ne, Ne.symm same]
    rw [if_neg among]
    by_cases same : q = pIdx
    · subst same
      rw [contains_iff_mem] at among
      rw [count_eq_zero.mpr among, Nat.zero_sub]
    · rw [if_neg same, Nat.sub_zero]
  refine ⟨unmarked.reparented.put _, ?_, ?_⟩
  · intro child q ne other
    by_cases here : child = idx
    · subst here
      have count := counts q ne
      rw [if_neg other] at count
      rw [put_here]
      exact count.trans (unmarked.others child q ne other)
    · rw [put_other here]
      exact unmarked.others child q ne other
  · intro child
    rw [count_append]
    by_cases here : child = idx
    · subst here
      have count := counts pIdx pos
      rw [if_pos rfl, unmarked.counts child] at count
      rw [put_here, count_singleton_self]
      exact count
    · rw [put_other here, count_singleton, if_neg (by simp [Ne.symm here])]
      exact unmarked.counts child

theorem unmarkChildren_loop (pos : pIdx ≠ 0) (idxs done : List Nat)
    (unmarked : Unmarked pIdx done before mem) : Unmarked pIdx (done ++ idxs) before
      (idxs.foldl (fun mem idx => mem.put idx ((mem.table idx).withoutParent pIdx)) mem) := by
  induction idxs generalizing done mem with
  | nil => rwa [append_nil]
  | cons idx rest ih =>
    have next := ih (done ++ [idx]) (unmarked.put pos)
    rw [append_assoc] at next
    exact next

theorem unmarkChildren_unmarked (pos : pIdx ≠ 0) (idxs : List Nat) (mem : SynxSharedMem) :
    Unmarked pIdx idxs mem (unmarkChildren pIdx idxs mem) := by
  have start : Unmarked pIdx [] mem mem := ⟨.refl, fun _ _ _ _ => rfl, fun _ => rfl⟩
  have all := unmarkChildren_loop pos idxs.reverse [] start
  refine ⟨⟨all.reparented.bitmap, all.reparented.cleared, all.reparented.kept, ?_⟩, all.others, ?_⟩
  · intro child absent
    apply all.reparented.untouched
    rw [nil_append, mem_reverse]
    exact absent
  · intro child
    have marks := all.counts child
    rw [nil_append, count_reverse] at marks
    exact marks

end KernelModules.Synx

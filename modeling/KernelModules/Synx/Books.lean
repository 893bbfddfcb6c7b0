import KernelModules.Synx.GlobalCalls

namespace KernelModules.Synx

open Data Function SynxSharedMem

/-! # Books of composite entries

What the entries say about each other, while the parents in a list still have to be notified.
-/

def SynxSharedMem.Live (mem : SynxSharedMem) (idx : Nat) : Prop :=
  idx ≠ 0 ∧ (mem.table idx).handle ≠ 0

def SynxSharedMem.hasCompleted (mem : SynxSharedMem) (member : Incarnation) : Bool :=
  match (mem.cleared member.index)[member.life]? with
  | some entry => entry.completed
  | none => (mem.table member.index).completed

def SynxSharedMem.pending (mem : SynxSharedMem) (members : List Incarnation) : Nat :=
  members.countP fun member => !mem.hasCompleted member

/-- The books while the entries of `notices` still have to be notified. -/
structure Books (mem : SynxSharedMem) (members : Nat → List Incarnation) (holders : Nat → Nat)
    (notices : List Nat) : Prop where
  counted : ∀ p, mem.Live p → (mem.table p).numChild.toNat = mem.pending (members p) + notices.count p
  notified : ∀ p ∈ notices, mem.Live p
  current : ∀ p, mem.Live p → ∀ member ∈ members p, mem.hasCompleted member = false →
    member = mem.incarnation member.index ∧ mem.Live member.index
  aged : ∀ p, mem.Live p → ∀ member ∈ members p, member.life ≤ (mem.cleared member.index).length ∧
      (member.life = (mem.cleared member.index).length → mem.Live member.index)
  listed : ∀ child, mem.Live child → (mem.table child).completed = false → ∀ p, mem.Live p →
    (mem.table child).parents.count p = (members p).count (mem.incarnation child)
  lively : ∀ child, mem.Live child → (mem.table child).completed = false →
    ∀ p ∈ (mem.table child).parents, p ≠ 0 → mem.Live p
  marked : ∀ child, mem.Live child → ∀ p, mem.Live p → mem.incarnation child ∈ members p →
    p ∈ (mem.table child).parents
  refs : ∀ p, mem.Live p → holders p + (if (mem.table p).numChild ≠ 0 then 1 else 0) ≤ (mem.table p).refcount.toNat
  unheld : ∀ p, ¬ mem.Live p → holders p = 0

section Updates

variable {mem : SynxSharedMem}

@[simp] theorem SynxSharedMem.put_cleared : (mem.put idx entry).cleared = mem.cleared := rfl

@[simp] theorem SynxSharedMem.put_here : (mem.put idx entry).table idx = entry :=
  update_self ..

theorem SynxSharedMem.put_other (apart : other ≠ idx) :
    (mem.put idx entry).table other = mem.table other := update_of_ne apart ..

@[simp] theorem SynxSharedMem.put_incarnation (entry : SynxGlobalCoredata) (other : Nat) :
    (mem.put idx entry).incarnation other = mem.incarnation other := rfl

@[simp] theorem SynxSharedMem.memset_here : (mem.memset idx entry).table idx = .zero :=
  update_self ..

theorem SynxSharedMem.memset_other (apart : other ≠ idx) :
    (mem.memset idx entry).table other = mem.table other := update_of_ne apart ..

theorem SynxSharedMem.memset_cleared_other (apart : other ≠ idx) :
    (mem.memset idx entry).cleared other = mem.cleared other := update_of_ne apart ..

@[simp] theorem SynxSharedMem.memset_cleared_here :
    (mem.memset idx entry).cleared idx = mem.cleared idx ++ [entry] := update_self ..

theorem SynxSharedMem.put_live (entry : SynxGlobalCoredata) (handle : entry.handle = (mem.table idx).handle) (other : Nat) :
    (mem.put idx entry).Live other ↔ mem.Live other := by
  unfold SynxSharedMem.Live
  by_cases same : other = idx
  · rw [same, put_here, handle]
  · rw [put_other same]

theorem SynxSharedMem.memset_live (mem : SynxSharedMem) (idx : Nat) (entry : SynxGlobalCoredata)
    (other : Nat) : (mem.memset idx entry).Live other ↔ other ≠ idx ∧ mem.Live other := by
  unfold SynxSharedMem.Live
  by_cases same : other = idx
  · rw [same]
    simp [SynxGlobalCoredata.zero]
  · rw [memset_other same]
    simp [same]

theorem SynxSharedMem.put_hasCompleted (same : entry.completed = (mem.table idx).completed) :
    (mem.put idx entry).hasCompleted = mem.hasCompleted := by
  funext member
  unfold hasCompleted
  rw [put_cleared]
  cases (mem.cleared member.index)[member.life]? with
  | some _ => rfl
  | none =>
    by_cases here : member.index = idx
    · rw [here, put_here, same]
    · rw [put_other here]

theorem SynxSharedMem.memset_hasCompleted (same : entry.completed = (mem.table idx).completed)
    (aged : member.index = idx → member.life ≤ (mem.cleared idx).length) :
    (mem.memset idx entry).hasCompleted member = mem.hasCompleted member := by
  unfold hasCompleted
  by_cases here : member.index = idx
  · rw [here, memset_cleared_here]
    rcases Nat.lt_or_eq_of_le (aged here) with older | now
    · rw [List.getElem?_append_left older, List.getElem?_eq_getElem older]
    · rw [now, List.getElem?_append_right (le_rfl), Nat.sub_self, List.getElem?_eq_none (le_rfl)]
      exact same
  · rw [memset_cleared_other here, memset_other here]

theorem SynxSharedMem.clearBit_table : (mem.clearBit idx).table = mem.table := rfl

theorem Books.congr (books : Books mem members holders notices) (tbl : after.table = mem.table)
    (cleared : after.cleared = mem.cleared) : Books after members holders notices := by
  obtain ⟨bitmap, oldTable, oldCleared⟩ := mem
  subst tbl cleared
  exact { books with }

theorem SynxSharedMem.hasCompleted_now (mem : SynxSharedMem) (child : Nat) :
    mem.hasCompleted (mem.incarnation child) = (mem.table child).completed := by
  unfold hasCompleted incarnation
  rw [List.getElem?_eq_none le_rfl]

theorem SynxGlobalCoredata.not_completed {entry : SynxGlobalCoredata} (children : entry.numChild ≠ 0) : entry.completed = false := by
  unfold SynxGlobalCoredata.completed
  rw [decide_eq_false children, Bool.and_false]

theorem SynxSharedMem.pending_congr {after : SynxSharedMem}
    (same : ∀ member ∈ members, after.hasCompleted member = mem.hasCompleted member) :
    after.pending members = mem.pending members := by
  apply List.countP_congr
  intro member among
  rw [same member among]

/-- The links between the entries are taken over; what they count has to be given. -/
theorem Books.carried (books : Books mem members holders notices) (live : ∀ other, after.Live other ↔ mem.Live other)
    (cleared : after.cleared = mem.cleared)
    (still : ∀ p, mem.Live p → ∀ member ∈ members p, after.hasCompleted member = false → mem.hasCompleted member = false)
    (same : ∀ child, mem.Live child → (after.table child).completed = false → (mem.table child).completed = false ∧
      ∀ q, q ≠ 0 → (after.table child).parents.count q = (mem.table child).parents.count q)
    (kept : ∀ child, mem.Live child → ∀ q, q ≠ 0 → q ∈ (mem.table child).parents → q ∈ (after.table child).parents)
    (counted : ∀ p, mem.Live p → (after.table p).numChild.toNat = after.pending (members p) + later.count p)
    (notified : ∀ p ∈ later, mem.Live p) (unheld : ∀ p, ¬ mem.Live p → holders' p = 0)
    (refs : ∀ p, mem.Live p →
      holders' p + (if (after.table p).numChild ≠ 0 then 1 else 0) ≤ (after.table p).refcount.toNat) : Books after members holders' later := by
  have incarnation : after.incarnation = mem.incarnation := by
    unfold SynxSharedMem.incarnation
    rw [cleared]
  constructor <;> simp only [live, cleared, incarnation]
  case counted => exact counted
  case notified => exact notified
  case refs => exact refs
  case unheld => exact unheld
  case aged => exact books.aged
  case current =>
    exact fun p alive member among uncompleted =>
      books.current p alive member among (still p alive member among uncompleted)
  case listed =>
    intro child alive uncompleted p parentAlive
    obtain ⟨before, count⟩ := same child alive uncompleted
    rw [count p parentAlive.1]
    exact books.listed child alive before p parentAlive
  case lively =>
    intro child alive uncompleted p among ne
    obtain ⟨before, count⟩ := same child alive uncompleted
    exact books.lively child alive before p (List.count_pos_iff.mp (count p ne ▸ List.count_pos_iff.mpr among)) ne
  case marked =>
    exact fun child alive p parentAlive among =>
      kept child alive p parentAlive.1 (books.marked child alive p parentAlive among)

/-- Changing the references, subscribers, waiters or pending children of an entry that stays as completed as it was. -/
theorem Books.put_same (after : Nat → Nat) (books : Books mem members holders notices) (later : List Nat)
    (entry : SynxGlobalCoredata) (handle : entry.handle = (mem.table idx).handle)
    (parents : entry.parents = (mem.table idx).parents) (completed : entry.completed = (mem.table idx).completed)
    (counted : mem.Live idx → entry.numChild.toNat = mem.pending (members idx) + later.count idx)
    (noticed : ∀ other, other ≠ idx → later.count other = notices.count other)
    (fewer : ∀ other ∈ later, other ∈ notices) (others : ∀ other, other ≠ idx → after other = holders other)
    (refs : mem.Live idx → after idx + (if entry.numChild ≠ 0 then 1 else 0) ≤ entry.refcount.toNat)
    (unheld : ¬ mem.Live idx → after idx = 0) : Books (mem.put idx entry) members after later := by
  have live := put_live entry handle
  have done := put_hasCompleted completed
  have pending (listed : List Incarnation) : (mem.put idx entry).pending listed = mem.pending listed :=
    pending_congr fun member _ => congrFun done member
  have parentsOf (other) : ((mem.put idx entry).table other).parents = (mem.table other).parents := by
    by_cases here : other = idx
    · rw [here, put_here, parents]
    · rw [put_other here]
  have completedOf (other) : ((mem.put idx entry).table other).completed = (mem.table other).completed := by
    by_cases here : other = idx
    · rw [here, put_here, completed]
    · rw [put_other here]
  refine books.carried live rfl (fun _ _ member _ uncompleted => congrFun done member ▸ uncompleted)
    (fun child _ uncompleted => ⟨completedOf child ▸ uncompleted, fun _ _ => by rw [parentsOf]⟩)
    (fun child _ _ _ among => (parentsOf child).symm ▸ among) (fun p alive => ?_)
    (fun p among => books.notified p (fewer p among)) (fun p dead => ?_) fun p alive => ?_
  · rw [pending]
    by_cases here : p = idx
    · subst here
      rw [put_here]
      exact counted alive
    · rw [put_other here, noticed p here]
      exact books.counted p alive
  · by_cases here : p = idx
    · subst here
      exact unheld dead
    · rw [others p here]
      exact books.unheld p dead
  · by_cases here : p = idx
    · subst here
      rw [put_here]
      exact refs alive
    · rw [put_other here, others p here]
      exact books.refs p alive

end Updates

open List

section Completion

variable {mem : SynxSharedMem} {members : Nat → List Incarnation} {holders : Nat → Nat} {notices : List Nat}

theorem SynxGlobalCoredata.completed_numChild {entry : SynxGlobalCoredata} (done : entry.completed = true) : entry.numChild = 0 := by
  exact of_decide_eq_true (Bool.and_eq_true_iff.mp done).2

theorem SynxSharedMem.put_completed (done : entry.completed = true)
    (aged : member.index = idx → member.life ≤ (mem.cleared idx).length) : (mem.put idx entry).hasCompleted member =
      (mem.hasCompleted member || decide (member = mem.incarnation idx)) := by
  by_cases same : member = mem.incarnation idx
  · subst same
    rw [decide_eq_true rfl, Bool.or_true, ← put_incarnation entry, hasCompleted_now, put_here, done]
  rw [decide_eq_false same, Bool.or_false]
  unfold hasCompleted
  rw [put_cleared]
  by_cases here : member.index = idx
  · have older : member.life < (mem.cleared member.index).length := by
      rw [here]
      apply lt_of_le_of_ne (aged here)
      intro latest
      exact same (by rw [incarnation, ← latest, ← here])
    rw [getElem?_eq_getElem older]
  · rw [put_other here]

theorem SynxSharedMem.pending_completed (now : (mem.table idx).completed = false) (done : entry.completed = true)
    (aged : ∀ member ∈ listed, member.index = idx → member.life ≤ (mem.cleared idx).length) :
    mem.pending listed = (mem.put idx entry).pending listed + listed.count (mem.incarnation idx) := by
  induction listed with
  | nil => rfl
  | cons member rest ih =>
    have tail := ih fun other among => aged other (mem_cons_of_mem _ among)
    have head := put_completed done (aged member mem_cons_self)
    unfold pending at tail ⊢
    rw [countP_cons, countP_cons, count_cons, head]
    by_cases same : member = mem.incarnation idx
    · have uncompleted := hasCompleted_now mem idx
      rw [now] at uncompleted
      rw [same, uncompleted]
      simp only [beq_self_eq_true, decide_true, Bool.or_true, Bool.not_true, Bool.not_false,
        if_true, Bool.false_eq_true, if_false]
      omega
    · simp [same]
      omega

theorem count_filter_nonzero (listed : List Nat) (ne : p ≠ 0) :
    (listed.filter fun parent => decide (parent ≠ 0)).count p = listed.count p := by
  apply count_filter
  exact decide_eq_true ne

section

variable (books : Books mem members holders notices)
include books

theorem Books.none_lists (alive : mem.Live p) (none : mem.pending (members p) = 0)
    (childAlive : mem.Live child) (uncompleted : (mem.table child).completed = false) :
    (members p).count (mem.incarnation child) = 0 ∧ p ∉ (mem.table child).parents := by
  have absent : mem.incarnation child ∉ members p := by
    intro among
    have done := countP_eq_zero.mp none _ among
    rw [hasCompleted_now, uncompleted] at done
    exact done rfl
  have zero := count_eq_zero.mpr absent
  exact ⟨zero, count_eq_zero.mp ((books.listed child childAlive uncompleted p alive).trans zero)⟩

theorem Books.complete (later : List Nat) (entry : SynxGlobalCoredata) (alive : mem.Live idx)
    (now : (mem.table idx).completed = false) (none : mem.pending (members idx) = 0) (unnoticed : idx ∉ later)
    (noticed : ∀ other, other ≠ idx → later.count other = notices.count other)
    (fewer : ∀ other ∈ later, other ∈ notices) (handle : entry.handle = (mem.table idx).handle)
    (parents : entry.parents = (mem.table idx).parents) (done : entry.completed = true)
    (refs : holders idx ≤ entry.refcount.toNat) : Books (mem.put idx entry) members holders
      (((mem.table idx).parents.filter fun parent => decide (parent ≠ 0)) ++ later) := by
  have live := put_live entry handle
  have parentsOf (other) : ((mem.put idx entry).table other).parents = (mem.table other).parents := by
    by_cases here : other = idx
    · rw [here, put_here, parents]
    · rw [put_other here]
  have uncompletedOf {other} (open' : ((mem.put idx entry).table other).completed = false) :
      other ≠ idx ∧ (mem.table other).completed = false := by
    by_cases here : other = idx
    · rw [here, put_here, done] at open'
      exact absurd open' (by decide)
    · rw [put_other here] at open'
      exact ⟨here, open'⟩
  have agedAt {p} (parentAlive : mem.Live p) : ∀ member ∈ members p, member.index = idx →
      member.life ≤ (mem.cleared idx).length := by
    intro member among here
    rw [← here]
    exact (books.aged p parentAlive member among).1
  refine books.carried live rfl (fun p parentAlive member among uncompleted => ?_)
    (fun child _ uncompleted => ⟨(uncompletedOf uncompleted).2, fun _ _ => by rw [parentsOf]⟩)
    (fun child _ _ _ among => (parentsOf child).symm ▸ among) (fun p parentAlive => ?_) (fun p among => ?_)
    books.unheld fun p parentAlive => ?_
  · rw [put_completed done (agedAt parentAlive member among)] at uncompleted
    exact (Bool.or_eq_false_iff.mp uncompleted).1
  · have split := pending_completed now done (agedAt parentAlive)
    rw [count_append, count_filter_nonzero _ parentAlive.1, books.listed idx alive now p parentAlive]
    by_cases here : p = idx
    · subst here
      rw [put_here, SynxGlobalCoredata.completed_numChild done, count_eq_zero.mpr unnoticed]
      show 0 = _
      omega
    · rw [put_other here, books.counted p parentAlive, noticed p here]
      omega
  · rcases mem_append.mp among with parent | other
    · obtain ⟨listed, ne⟩ := mem_filter.mp parent
      exact books.lively idx alive now p listed (of_decide_eq_true ne)
    · exact books.notified p (fewer p other)
  · by_cases here : p = idx
    · subst here
      rw [put_here, SynxGlobalCoredata.completed_numChild done]
      exact refs
    · rw [put_other here]
      exact books.refs p parentAlive

theorem Books.free (after : Nat → Nat) (entry : SynxGlobalCoredata) (alive : mem.Live idx)
    (children : (mem.table idx).numChild = 0) (unnoticed : idx ∉ notices)
    (quiet : (mem.table idx).completed = true ∨ ∀ p ∈ (mem.table idx).parents, p = 0)
    (same : entry.completed = (mem.table idx).completed)
    (others : ∀ other, other ≠ idx → after other = holders other) (unheld : after idx = 0) :
    Books (mem.memset idx entry) members after notices := by
  have live := memset_live mem idx entry
  have doneOf {p} (parentAlive : mem.Live p) {member} (among : member ∈ members p) :
      (mem.memset idx entry).hasCompleted member = mem.hasCompleted member := by
    apply memset_hasCompleted same
    intro here
    rw [← here]
    exact (books.aged p parentAlive member among).1
  have none : mem.pending (members idx) = 0 := by
    have counted := books.counted idx alive
    rw [children, count_eq_zero.mpr unnoticed] at counted
    exact counted.symm
  have incarnationOf {other} (apart : other ≠ idx) :
      (mem.memset idx entry).incarnation other = mem.incarnation other := by
    unfold incarnation
    rw [memset_cleared_other apart]
  constructor
  case counted =>
    intro p parentAlive
    obtain ⟨apart, before⟩ := (live p).mp parentAlive
    rw [memset_other apart, pending_congr fun _ => doneOf before]
    exact books.counted p before
  case notified =>
    intro p among
    exact (live p).mpr ⟨fun here => unnoticed (here ▸ among), books.notified p among⟩
  case current =>
    intro p parentAlive member among uncompleted
    obtain ⟨apart, before⟩ := (live p).mp parentAlive
    rw [doneOf before among] at uncompleted
    obtain ⟨now, memberLive⟩ := books.current p before member among uncompleted
    have elsewhere : member.index ≠ idx := by
      intro here
      rw [here] at now
      have listed := books.marked idx alive p before (now ▸ among)
      rcases quiet with done | empty
      · rw [now, hasCompleted_now, done] at uncompleted
        exact absurd uncompleted (by decide)
      · exact before.1 (empty p listed)
    exact ⟨now.trans (incarnationOf elsewhere).symm, (live _).mpr ⟨elsewhere, memberLive⟩⟩
  case aged =>
    intro p parentAlive member among
    obtain ⟨apart, before⟩ := (live p).mp parentAlive
    obtain ⟨bound, latest⟩ := books.aged p before member among
    by_cases here : member.index = idx
    · rw [here, memset_cleared_here, length_append]
      rw [here] at bound
      exact ⟨Nat.le_succ_of_le bound, fun equal => absurd bound (by rw [equal]; exact Nat.not_succ_le_self _)⟩
    · rw [memset_cleared_other here]
      exact ⟨bound, fun equal => (live _).mpr ⟨here, latest equal⟩⟩
  case listed =>
    intro child childAlive uncompleted p parentAlive
    obtain ⟨childApart, childBefore⟩ := (live child).mp childAlive
    obtain ⟨apart, before⟩ := (live p).mp parentAlive
    rw [memset_other childApart] at uncompleted ⊢
    rw [incarnationOf childApart]
    exact books.listed child childBefore uncompleted p before
  case lively =>
    intro child childAlive uncompleted p among ne
    obtain ⟨childApart, childBefore⟩ := (live child).mp childAlive
    rw [memset_other childApart] at uncompleted among
    refine (live p).mpr ⟨?_, books.lively child childBefore uncompleted p among ne⟩
    intro here
    exact (books.none_lists alive none childBefore uncompleted).2 (here ▸ among)
  case marked =>
    intro child childAlive p parentAlive among
    obtain ⟨childApart, childBefore⟩ := (live child).mp childAlive
    rw [incarnationOf childApart] at among
    rw [memset_other childApart]
    exact books.marked child childBefore p ((live p).mp parentAlive).2 among
  case refs =>
    intro p parentAlive
    obtain ⟨apart, before⟩ := (live p).mp parentAlive
    rw [memset_other apart, others p apart]
    exact books.refs p before
  case unheld =>
    intro p dead
    by_cases here : p = idx
    · rw [here, unheld]
    · rw [others p here]
      exact books.unheld p fun before => dead ((live p).mpr ⟨here, before⟩)

end

end Completion

end KernelModules.Synx

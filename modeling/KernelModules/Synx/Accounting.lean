import KernelModules.Synx.Recovery
import KernelModules.Synx.Merging

namespace KernelModules.Synx

open Data Function List SynxSharedMem

/-! # Accounting over histories

The books hold after every call, as long as no call clears an entry that others wait for, drops a reference not
held, or merges without room.
-/

def GlobalCall.keepsBooks (history : SynxHistory) : GlobalCall → Bool
  | .create => true
  | .merge idxList pIdx => history.mem.mergeable idxList pIdx
  | .updateStatus _ _ => true
  | .getRef idx => decide ((history.mem.table idx).refcount.toNat < 65535)
  | .putRef idx => decide (0 < history.holders idx) && history.mem.droppable idx
  | .recover core => history.mem.recoverable history.holders core
  | .setSubscribedCore idx _ => decide (history.mem.Live idx)
  | .clearSubscribedCore _ _ => true
  | .testStatusSetWait _ _ => true

def SynxSharedMem.Allocated (mem : SynxSharedMem) (idx : Nat) : Prop :=
  0 < idx ∧ idx < synxGlobalMaxObjs ∧ mem.bitmap idx = true

instance (mem : SynxSharedMem) (idx : Nat) : Decidable (mem.Allocated idx) :=
  inferInstanceAs (Decidable (_ ∧ _ ∧ _))

/-- The number of pending children, the children, the bitmap, and the parents of entries that can still be signaled. -/
structure Accounts (history : SynxHistory) : Prop where
  numChild : ∀ p, history.mem.Allocated p →
    (history.mem.table p).numChild.toNat = history.mem.pending (history.members p)
  constituents : ∀ p, history.mem.Allocated p →
    ∀ member ∈ history.members p, history.mem.hasCompleted member = false →
      member = history.mem.incarnation member.index ∧ history.mem.Allocated member.index ∧
        (history.mem.table member.index).completed = false ∧ p ∈ (history.mem.table member.index).parents
  bitmap : ∀ idx, 0 < idx → idx < synxGlobalMaxObjs →
    (history.mem.table idx = .zero ↔ history.mem.bitmap idx = false)
  parents : ∀ child, history.mem.Allocated child → (history.mem.table child).completed = false →
    ∀ p ∈ (history.mem.table child).parents, p ≠ 0 →
      history.mem.Allocated p ∧ history.mem.incarnation child ∈ history.members p

section Create

variable {idx : Nat}

theorem synxGlobalAllocIndex_some (found : synxGlobalAllocIndex mem = some (allocated, idx)) :
    idx < synxGlobalMaxObjs ∧ mem.bitmap idx = false ∧
      allocated = { mem with bitmap := update mem.bitmap idx true } := by
  obtain ⟨place, search, same⟩ := Option.map_eq_some_iff.mp found
  obtain ⟨rfl, rfl⟩ := Prod.mk.inj same
  have clear := List.find?_some search
  rw [Bool.not_eq_true'] at clear
  exact ⟨mem_range.mp (mem_of_find?_eq_some search), clear, rfl⟩

def freshEntry (idx : Nat) : SynxGlobalCoredata :=
  { SynxGlobalCoredata.zero with
    status := synxStateActive
    refcount := 1
    subscribers := SynxCoreId.apss.bit
    handle := synxEncodeHandle idx }

theorem fresh_nonzero (idx : Nat) : (freshEntry idx).handle ≠ 0 := by
  show 1048576 + idx ≠ 0
  omega

theorem fresh_parents (among : p ∈ (freshEntry idx).parents) : p = 0 :=
  eq_of_mem_replicate among

theorem Books.create (books : Books mem members holders []) (pos : idx ≠ 0) (dead : ¬ mem.Live idx) :
    Books (mem.put idx (freshEntry idx)) (update members idx []) (update holders idx 1) [] := by
  have live (child : Nat) : (mem.put idx (freshEntry idx)).Live child ↔ child = idx ∨ mem.Live child := by
    by_cases here : child = idx
    · subst here
      unfold SynxSharedMem.Live
      rw [put_here]
      exact iff_of_true ⟨pos, fresh_nonzero child⟩ (.inl rfl)
    · unfold SynxSharedMem.Live
      rw [put_other here]
      exact (or_iff_right here).symm
  have older {q : Nat} (alive : mem.Live q) {member : Incarnation} (among : member ∈ members q)
      (here : member.index = idx) : member.life < (mem.cleared member.index).length := by
    obtain ⟨bound, latest⟩ := books.aged q alive member among
    apply lt_of_le_of_ne bound
    intro same
    exact dead (here ▸ latest same)
  have doneOf {q : Nat} (alive : mem.Live q) {member : Incarnation} (among : member ∈ members q) :
      (mem.put idx (freshEntry idx)).hasCompleted member = mem.hasCompleted member := by
    unfold hasCompleted
    rw [put_cleared]
    by_cases here : member.index = idx
    · rw [getElem?_eq_getElem (older alive among here)]
    · rw [put_other here]
  have unknown {q : Nat} (alive : mem.Live q) : mem.incarnation idx ∉ members q := by
    intro among
    exact lt_irrefl _ (older alive among rfl)
  constructor
  case counted =>
    intro q alive
    by_cases here : q = idx
    · rw [here, put_here, update_self]
      rfl
    · have before := ((live q).mp alive).resolve_left here
      rw [put_other here, update_of_ne here, pending_congr fun _ => doneOf before]
      exact books.counted q before
  case notified => exact fun q among => absurd among not_mem_nil
  case current =>
    intro q alive member among uncompleted
    by_cases here : q = idx
    · rw [here, update_self] at among
      exact absurd among not_mem_nil
    · have before := ((live q).mp alive).resolve_left here
      rw [update_of_ne here] at among
      rw [doneOf before among] at uncompleted
      obtain ⟨now, memberLive⟩ := books.current q before member among uncompleted
      exact ⟨now, (live _).mpr (.inr memberLive)⟩
  case aged =>
    intro q alive member among
    by_cases here : q = idx
    · rw [here, update_self] at among
      exact absurd among not_mem_nil
    · rw [update_of_ne here] at among
      obtain ⟨bound, latest⟩ := books.aged q (((live q).mp alive).resolve_left here) member among
      exact ⟨bound, fun same => (live _).mpr (.inr (latest same))⟩
  case listed =>
    intro child alive uncompleted q parentAlive
    by_cases new : child = idx
    · subst new
      rw [put_here, count_eq_zero.mpr fun among => parentAlive.1 (fresh_parents among)]
      symm
      apply count_eq_zero.mpr
      by_cases here : q = child
      · rw [here, update_self]
        exact not_mem_nil
      · rw [update_of_ne here]
        exact unknown (((live q).mp parentAlive).resolve_left here)
    · have childBefore := ((live child).mp alive).resolve_left new
      rw [put_other new] at uncompleted ⊢
      by_cases here : q = idx
      · subst here
        rw [update_self]
        apply count_eq_zero.mpr
        exact fun among => dead (books.lively child childBefore uncompleted q among pos)
      · rw [update_of_ne here]
        exact books.listed child childBefore uncompleted q (((live q).mp parentAlive).resolve_left here)
  case lively =>
    intro child alive uncompleted q among ne
    by_cases new : child = idx
    · rw [new, put_here] at among
      exact absurd (fresh_parents among) ne
    · rw [put_other new] at uncompleted among
      exact (live q).mpr (.inr (books.lively child (((live child).mp alive).resolve_left new) uncompleted q among ne))
  case marked =>
    intro child alive q parentAlive among
    by_cases here : q = idx
    · rw [here, update_self] at among
      exact absurd among not_mem_nil
    have before := ((live q).mp parentAlive).resolve_left here
    rw [update_of_ne here] at among
    by_cases new : child = idx
    · exact absurd (new ▸ among) (unknown before)
    · rw [put_other new]
      exact books.marked child (((live child).mp alive).resolve_left new) q before among
  case refs =>
    intro q alive
    by_cases here : q = idx
    · rw [here, put_here, update_self]
      exact le_refl 1
    · rw [put_other here, update_of_ne here]
      exact books.refs q (((live q).mp alive).resolve_left here)
  case unheld =>
    intro q unused
    have both := (live q).not.mp unused
    rw [not_or] at both
    rw [update_of_ne both.1]
    exact books.unheld q both.2

theorem Bits.create (bits : Bits mem []) (pos : idx ≠ 0) (lt : idx < synxGlobalMaxObjs) :
    Bits (({ mem with bitmap := update mem.bitmap idx true } : SynxSharedMem).put idx
      (freshEntry idx)) [] where
  zeroed := by
    intro other otherPositive otherWithin
    show update mem.table idx (freshEntry idx) other = .zero ↔ update mem.bitmap idx true other = false ∨ other ∈ []
    by_cases here : other = idx
    · subst here
      rw [update_self]
      apply iff_of_false
      · intro zero
        exact fresh_nonzero other (by rw [zero]; rfl)
      · simp
    · rw [update_of_ne here, update_of_ne here]
      exact bits.zeroed other otherPositive otherWithin
  handled := by
    intro other ne
    by_cases here : other = idx
    · subst here
      rw [put_here]
      exact ⟨pos_of_ne_zero pos, lt, fresh_nonzero other⟩
    · rw [put_other here] at ne ⊢
      exact bits.handled other ne
  root := by
    show update mem.bitmap idx true 0 = true
    rw [update_of_ne (Ne.symm pos)]
    exact bits.root
  clearable := bits.clearable

theorem Kept.create (kept : Kept history) : ∃ after, synxStep history .create = some after ∧ Kept after := by
  obtain ⟨books, bits⟩ := kept
  unfold synxStep
  cases found : synxGlobalAllocIndex history.mem with
  | none =>
    unfold synxAllocGlobalHandle
    rw [found]
    exact ⟨_, rfl, books, bits⟩
  | some place =>
    obtain ⟨alloc, idx⟩ := place
    obtain ⟨lt, clear, rfl⟩ := synxGlobalAllocIndex_some found
    have pos : idx ≠ 0 := by
      intro zero
      rw [zero, bits.root] at clear
      exact Bool.noConfusion clear
    have zero : history.mem.table idx = .zero :=
      (bits.zeroed idx (pos_of_ne_zero pos) lt).mpr (.inl clear)
    have dead : ¬ history.mem.Live idx := fun alive => alive.nonzero zero
    unfold synxAllocGlobalHandle synxGlobalInitCoredata
    rw [found]
    dsimp only
    rw [zero]
    exact ⟨_, rfl, (books.create pos dead).congr rfl rfl, bits.create pos lt⟩

end Create

section Histories

variable {history : SynxHistory}

theorem Kept.init : Kept .init := by
  have dead (idx : Nat) : ¬ SynxHistory.init.mem.Live idx := fun alive => alive.2 rfl
  refine ⟨?_, ?_⟩
  · constructor
    case counted | current | aged | refs => exact fun p alive => absurd alive (dead p)
    case notified => exact fun p among => absurd among not_mem_nil
    case listed | lively | marked => exact fun child alive => absurd alive (dead child)
    case unheld => exact fun _ _ => rfl
  · refine ⟨?_, fun idx ne => absurd rfl ne, rfl, fun _ among => absurd among not_mem_nil⟩
    intro idx pos _
    exact iff_of_true rfl (.inl (decide_eq_false (Nat.ne_of_gt pos)))

theorem Kept.step (kept : Kept history) (keeps : call.keepsBooks history = true) :
    ∃ after, synxStep history call = some after ∧ Kept after := by
  cases call with
  | create => exact kept.create
  | merge idxList pIdx => exact kept.merge keeps
  | updateStatus idx status =>
    obtain ⟨updated, called, signaled⟩ := synxGlobalUpdateStatus_signaled idx status kept.books kept.bits
    refine ⟨{ history with mem := updated.1 }, ?_, signaled.books, signaled.bits⟩
    unfold synxStep
    dsimp only
    rw [called]
    rfl
  | getRef idx =>
    unfold synxStep
    dsimp only
    cases called : synxGlobalGetRef history.mem idx with
    | mk mem error =>
      cases error with
      | none => exact ⟨_, rfl, kept.getRef mem called (of_decide_eq_true keeps)⟩
      | some error =>
        rw [synxGlobalGetRef_failed called]
        exact ⟨_, rfl, kept⟩
  | putRef idx =>
    obtain ⟨held, droppable⟩ := Bool.and_eq_true_iff.mp keeps
    exact ⟨_, rfl, kept.putRef (of_decide_eq_true held) droppable⟩
  | recover core =>
    obtain ⟨mem, called, after⟩ := kept.recover keeps
    refine ⟨_, ?_, after⟩
    unfold synxStep
    dsimp only
    rw [called]
    rfl
  | setSubscribedCore idx core =>
    exact ⟨_, rfl, kept.setSubscribedCore (of_decide_eq_true keeps) core⟩
  | clearSubscribedCore idx core => exact ⟨_, rfl, kept.clearSubscribedCore idx core⟩
  | testStatusSetWait idx core => exact ⟨_, rfl, kept.testStatusSetWait idx core⟩

theorem Bits.allocated_iff (bits : Bits mem []) (idx : Nat) : mem.Allocated idx ↔ mem.Live idx := by
  constructor
  · rintro ⟨pos, lt, used⟩
    apply bits.alive
    intro zero
    rcases (bits.zeroed idx pos lt).mp zero with clear | among
    · rw [used] at clear
      exact Bool.noConfusion clear
    · exact not_mem_nil among
  · intro alive
    obtain ⟨pos, lt⟩ := bits.within alive
    refine ⟨pos, lt, ?_⟩
    rw [← Bool.not_eq_false]
    intro clear
    exact alive.nonzero ((bits.zeroed idx pos lt).mpr (.inl clear))

theorem Kept.accounts (kept : Kept history) : Accounts history := by
  obtain ⟨books, bits⟩ := kept
  have alloc := bits.allocated_iff
  constructor
  case numChild =>
    intro p used
    have counted := books.counted p ((alloc p).mp used)
    rwa [count_nil] at counted
  case constituents =>
    intro p used mem among uncompleted
    have alive := (alloc p).mp used
    obtain ⟨now, memberAlive⟩ := books.current p alive mem among uncompleted
    have entry : (history.mem.table mem.index).completed = false := by
      rw [← hasCompleted_now, ← now]
      exact uncompleted
    exact ⟨now, (alloc _).mpr memberAlive, entry, books.marked mem.index memberAlive p alive (now ▸ among)⟩
  case bitmap =>
    intro idx pos lt
    rw [bits.zeroed idx pos lt]
    exact or_iff_left not_mem_nil
  case parents =>
    intro child used uncompleted p among ne
    have alive := (alloc child).mp used
    have parentAlive := books.lively child alive uncompleted p among ne
    refine ⟨(alloc p).mpr parentAlive, ?_⟩
    apply count_pos_iff.mp
    rw [← books.listed child alive uncompleted p parentAlive]
    exact count_pos_iff.mpr among

/-- Every history of calls that keep the books has the accounting, and every such call returns. -/
theorem accounting_kept
    (reached : Reachable synxStep (fun history call => call.keepsBooks history = true) .init history) :
    Accounts history ∧ ∀ call : GlobalCall, call.keepsBooks history = true →
        ∃ after, synxStep history call = some after := by
  have kept : Kept history := by
    apply reached.invariant Kept .init
    intro before call after kept keeps taken
    obtain ⟨later, called, keptLater⟩ := kept.step keeps
    rw [called] at taken
    exact Option.some.inj taken ▸ keptLater
  refine ⟨kept.accounts, ?_⟩
  intro call keeps
  obtain ⟨after, called, _⟩ := kept.step keeps
  exact ⟨after, called⟩

def mergedThree : List GlobalCall := [.create, .create, .create, .merge [1, 2] 3]

theorem accounting_kept_recovered :
    ∃ history, Reachable synxStep (fun history call => call.keepsBooks history = true) .init history ∧
      history.mem.Allocated 3 ∧ (history.mem.table 3).numChild = 1 ∧ Accounts history :=
  reaches (mergedThree ++ [.getRef 1, .setSubscribedCore 1 .nsp, .recover .nsp, .putRef 1])
    (fun history => history.mem.Allocated 3 ∧ (history.mem.table 3).numChild = 1) (by decide +kernel)
    fun _ reached ⟨allocated, pending⟩ => ⟨allocated, pending, (accounting_kept reached).1⟩

def GlobalCall.byHolder (history : SynxHistory) : GlobalCall → Bool
  | .putRef idx => decide (0 < history.holders idx)
  | _ => true

/-- Dropping the last reference of an active entry leaves the composite entry waiting for it. -/
theorem constituent_cleared : ¬ ∀ history,
      Reachable synxStep (fun history call => call.byHolder history = true) .init history → Accounts history := by
  intro always
  obtain ⟨history, accounts, allocated, among, uncompleted, clear⟩ := holds_after always (mergedThree ++ [.putRef 1])
    (fun history => history.mem.Allocated 3 ∧ Incarnation.mk 1 0 ∈ history.members 3 ∧
      history.mem.hasCompleted (Incarnation.mk 1 0) = false ∧ history.mem.bitmap 1 = false) (by decide +kernel)
  obtain ⟨_, ⟨_, _, used⟩, _⟩ := accounts.constituents 3 allocated _ among uncompleted
  rw [clear] at used
  cases used

end Histories

end KernelModules.Synx

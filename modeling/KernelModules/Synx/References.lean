import KernelModules.Synx.Signaling

namespace KernelModules.Synx

open Data Function SynxSharedMem

/-! # References

Taking and dropping references, by a client or for a core that crashed.
-/

structure Kept (history : SynxHistory) : Prop where
  books : Books history.mem history.members history.holders []
  bits : Bits history.mem []

def SynxSharedMem.droppable (mem : SynxSharedMem) (idx : Nat) : Bool :=
  decide ((mem.table idx).refcount ≠ 1) || (mem.table idx).completed ||
    (mem.table idx).parents.all fun parent => decide (parent = 0)

section Drop

variable {mem : SynxSharedMem} {members : Nat → List Incarnation} {holders : Nat → Nat}

theorem Books.holder_live (books : Books mem members holders []) (held : 0 < holders idx) : mem.Live idx := by
  apply Classical.byContradiction
  intro dead
  exact absurd (books.unheld idx dead) (Nat.ne_of_gt held)

theorem update_other (count other : Nat) (apart : other ≠ idx) :
    update holders idx count other = holders other := update_of_ne apart ..

section

variable (books : Books mem members holders [])
include books

theorem Books.put_refs (alive : mem.Live idx) (count : Nat) (handle : entry.handle = (mem.table idx).handle)
    (parents : entry.parents = (mem.table idx).parents) (status : entry.status = (mem.table idx).status)
    (numChild : entry.numChild = (mem.table idx).numChild)
    (refs : count + (if (mem.table idx).numChild ≠ 0 then 1 else 0) ≤ entry.refcount.toNat) :
    Books (mem.put idx entry) members (update holders idx count) [] := by
  have completed : entry.completed = (mem.table idx).completed := by
    unfold SynxGlobalCoredata.completed
    rw [status, numChild]
  apply books.put_same _ _ _ handle parents completed
  · intro _
    rw [numChild]
    exact books.counted idx alive
  · exact fun _ _ => rfl
  · exact fun _ among => among
  · exact update_other count
  · intro _
    rw [numChild, update_self]
    exact refs
  · exact absurd alive

theorem Books.release_put (held : 0 < holders idx) (handle : entry.handle = (mem.table idx).handle)
    (parents : entry.parents = (mem.table idx).parents) (status : entry.status = (mem.table idx).status)
    (numChild : entry.numChild = (mem.table idx).numChild) (refcount : entry.refcount = (mem.table idx).refcount - 1) :
    Books (mem.put idx entry) members (update holders idx (holders idx - 1)) [] := by
  have alive := books.holder_live held
  have refs := books.refs idx alive
  apply books.put_refs alive _ handle parents status numChild
  bv_omega

theorem Books.release_memset (entry : SynxGlobalCoredata) (held : 0 < holders idx)
    (status : entry.status = (mem.table idx).status)
    (numChild : entry.numChild = (mem.table idx).numChild) (last : (mem.table idx).refcount = 1)
    (droppable : mem.droppable idx = true) :
    Books (mem.memset idx entry) members (update holders idx (holders idx - 1)) [] := by
  have alive := books.holder_live held
  have refs := books.refs idx alive
  have one : (1 : BitVec 16).toNat = 1 := rfl
  rw [last] at refs
  have leaf : (mem.table idx).numChild = 0 := by
    apply Classical.byContradiction
    intro children
    rw [if_pos children] at refs
    omega
  apply books.free _ _ alive leaf List.not_mem_nil
  · unfold SynxSharedMem.droppable at droppable
    rw [decide_eq_false (not_not.mpr last), Bool.or_eq_true] at droppable
    rcases droppable with done | none
    · exact .inl done
    · right
      intro p among
      exact of_decide_eq_true (List.all_eq_true.mp none p among)
  · unfold SynxGlobalCoredata.completed
    rw [status, numChild]
  · exact update_other _
  · rw [update_self]
    omega

end

end Drop

theorem Bits.valid (bits : Bits mem clearing) (alive : mem.Live idx) : synxIsValidIdx idx = true :=
  decide_eq_true (bits.within alive).2

theorem Bits.free (bits : Bits mem []) (alive : mem.Live idx) : Bits ((mem.memset idx entry).clearBit idx) [] :=
  (bits.memset (bits.within alive).1).clearBit

theorem Kept.putRef (kept : Kept history) (held : 0 < history.holders idx)
    (droppable : history.mem.droppable idx = true) : Kept { history with
      mem := synxGlobalPutRef history.mem idx
      holders := update history.holders idx (history.holders idx - 1) } := by
  obtain ⟨books, bits⟩ := kept
  have alive := books.holder_live held
  unfold synxGlobalPutRef dropRef
  rw [bits.valid alive]
  by_cases last : (history.mem.table idx).refcount - 1 = 0
  · rw [if_pos last]
    have one : (history.mem.table idx).refcount = 1 := by bv_omega
    let dropped := { history.mem.table idx with refcount := (history.mem.table idx).refcount - 1 }
    exact ⟨(books.release_memset dropped held rfl rfl one droppable).congr rfl rfl, bits.free alive⟩
  · rw [if_neg last]
    exact ⟨books.release_put held rfl rfl rfl rfl rfl, bits.put alive rfl⟩

theorem Kept.getRef (kept : Kept history) (mem : SynxSharedMem)
    (called : synxGlobalGetRef history.mem idx = (mem, none))
    (room : (history.mem.table idx).refcount.toNat < 65535) : Kept { history with
      mem := mem
      holders := update history.holders idx (history.holders idx + 1) } := by
  obtain ⟨books, bits⟩ := kept
  unfold synxGlobalGetRef at called
  by_cases invalid : (!synxIsValidIdx idx) = true
  · rw [if_pos invalid] at called
    exact absurd (congrArg Prod.snd called) (by simp)
  rw [if_neg invalid] at called
  by_cases used : (history.mem.table idx).handle ≠ 0 ∧ (history.mem.table idx).refcount ≠ 0
  · rw [if_pos used] at called
    have taken := congrArg Prod.fst called
    subst taken
    have alive : history.mem.Live idx := by
      apply bits.alive
      intro zero
      exact used.1 (by rw [zero]; rfl)
    have refs := books.refs idx alive
    refine ⟨books.put_refs alive _ rfl rfl rfl rfl ?_, bits.put alive rfl⟩
    have more : ((history.mem.table idx).refcount + 1).toNat =
        (history.mem.table idx).refcount.toNat + 1 := by bv_omega
    rw [more]
    omega
  · rw [if_neg used] at called
    exact absurd (congrArg Prod.snd called) (by simp)

theorem synxGlobalGetRef_failed (called : synxGlobalGetRef mem idx = (after, some error)) : after = mem := by
  unfold synxGlobalGetRef at called
  by_cases invalid : (!synxIsValidIdx idx) = true
  · rw [if_pos invalid] at called
    exact (congrArg Prod.fst called).symm
  rw [if_neg invalid] at called
  by_cases used : (mem.table idx).handle ≠ 0 ∧ (mem.table idx).refcount ≠ 0
  · rw [if_pos used] at called
    exact absurd (congrArg Prod.snd called) (by simp)
  · rw [if_neg used] at called
    exact (congrArg Prod.fst called).symm

theorem Kept.put_cores (kept : Kept history) (alive : history.mem.Live idx)
    (handle : entry.handle = (history.mem.table idx).handle)
    (parents : entry.parents = (history.mem.table idx).parents)
    (status : entry.status = (history.mem.table idx).status)
    (numChild : entry.numChild = (history.mem.table idx).numChild)
    (refcount : entry.refcount = (history.mem.table idx).refcount) :
    Kept { history with mem := history.mem.put idx entry } := by
  obtain ⟨books, bits⟩ := kept
  have put := books.put_refs alive (history.holders idx) handle parents status numChild
    (by rw [refcount]; exact books.refs idx alive)
  rw [update_eq_self] at put
  exact ⟨put, bits.put alive handle⟩

theorem SynxSharedMem.put_self (mem : SynxSharedMem) (idx : Nat) : mem.put idx (mem.table idx) = mem := by
  unfold put
  rw [update_eq_self]

theorem Bits.zero_of_dead (bits : Bits mem clearing) (dead : ¬ mem.Live idx) : mem.table idx = .zero := by
  apply Classical.byContradiction
  intro ne
  exact dead (bits.alive ne)

theorem Kept.setSubscribedCore (kept : Kept history) (alive : history.mem.Live idx) (core : SynxCoreId) :
    Kept { history with mem := synxGlobalSetSubscribedCore history.mem idx core } := by
  unfold synxGlobalSetSubscribedCore
  rw [kept.bits.valid alive]
  exact kept.put_cores alive rfl rfl rfl rfl rfl

theorem Kept.clearSubscribedCore (kept : Kept history) (idx : Nat) (core : SynxCoreId) :
    Kept { history with mem := synxGlobalClearSubscribedCore history.mem idx core } := by
  unfold synxGlobalClearSubscribedCore
  by_cases invalid : (!synxIsValidIdx idx) = true
  · rw [if_pos invalid]
    exact kept
  rw [if_neg invalid]
  by_cases alive : history.mem.Live idx
  · exact kept.put_cores alive rfl rfl rfl rfl rfl
  have zero := kept.bits.zero_of_dead alive
  have none : ({ history.mem.table idx with
      subscribers := (history.mem.table idx).subscribers &&& ~~~core.bit } :
      SynxGlobalCoredata) = history.mem.table idx := by
    rw [zero]
    simp [SynxGlobalCoredata.zero]
  rw [none, put_self]
  exact kept

theorem Kept.testStatusSetWait (kept : Kept history) (idx : Nat) (core : SynxCoreId) :
    Kept { history with mem := synxGlobalTestStatusSetWait history.mem idx core } := by
  unfold synxGlobalTestStatusSetWait
  by_cases invalid : (!synxIsValidIdx idx) = true
  · rw [if_pos invalid]
    exact kept
  rw [if_neg invalid]
  by_cases waiting : (history.mem.table idx).status = synxStateActive ∨ (history.mem.table idx).numChild ≠ 0
  · rw [if_pos waiting]
    have alive : history.mem.Live idx := by
      apply kept.bits.alive
      intro zero
      rw [zero] at waiting
      exact absurd waiting (by decide)
    exact kept.put_cores alive rfl rfl rfl rfl rfl
  · rw [if_neg waiting]
    exact kept

end KernelModules.Synx

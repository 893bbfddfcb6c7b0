import KernelModules.Synx.Books
import KernelModules.Data.Indexed

namespace KernelModules.Synx

open Data SynxSharedMem List Function SynxGlobalCoredata

/-! # Signaling an entry

An entry that completes notifies its parents, which may complete in turn, each at most once.
-/

/-- The bitmap says which entries are in use, but for the cleared ones in `clearing`, whose bits still have to be. -/
structure Bits (mem : SynxSharedMem) (clearing : List Nat) : Prop where
  zeroed : ∀ idx, 0 < idx → idx < synxGlobalMaxObjs →
    (mem.table idx = .zero ↔ mem.bitmap idx = false ∨ idx ∈ clearing)
  handled : ∀ idx, mem.table idx ≠ .zero → 0 < idx ∧ idx < synxGlobalMaxObjs ∧ (mem.table idx).handle ≠ 0
  root : mem.bitmap 0 = true
  clearable : ∀ idx ∈ clearing, 0 < idx

structure Onward (before after : SynxGlobalCoredata) : Prop where
  subscribers : after.subscribers = before.subscribers
  parents : after.parents = before.parents
  refcount : after.refcount.toNat ≤ before.refcount.toNat
  uncompleted : after.completed = false → before.completed = false ∧ after.refcount = before.refcount

def Advanced (holders : Nat → Nat) (before after : SynxSharedMem) : Prop :=
  ∀ idx, (holders idx = 0 ∧ (after.table idx).refcount = 0) ∨
    (Onward (before.table idx) (after.table idx) ∧ after.bitmap idx = before.bitmap idx)

def SynxSharedMem.composites (mem : SynxSharedMem) : Nat :=
  ∑ idx ∈ Finset.range synxGlobalMaxObjs, if (mem.table idx).numChild ≠ 0 then 1 else 0

structure Signaled (members : Nat → List Incarnation) (holders : Nat → Nat) (clearing : List Nat)
    (notices : List Nat) (before after : SynxSharedMem) : Prop where
  books : Books after members holders notices
  bits : Bits after clearing
  advanced : Advanced holders before after
  fewer : after.composites ≤ before.composites

section Relations

variable {after : SynxSharedMem}

theorem Onward.refl : Onward entry entry where
  subscribers := Eq.refl _
  parents := Eq.refl _
  refcount := le_rfl
  uncompleted := fun uncompleted => ⟨uncompleted, Eq.refl _⟩

theorem Onward.trans (first : Onward before middle) (second : Onward middle later) : Onward before later where
  subscribers := second.subscribers.trans first.subscribers
  parents := second.parents.trans first.parents
  refcount := le_trans second.refcount first.refcount
  uncompleted := by
    intro uncompleted
    obtain ⟨middleOpen, refs⟩ := second.uncompleted uncompleted
    obtain ⟨beforeOpen, refsBefore⟩ := first.uncompleted middleOpen
    exact ⟨beforeOpen, refs.trans refsBefore⟩

theorem Advanced.refl : Advanced holders mem mem := fun _ => .inr ⟨Onward.refl, Eq.refl _⟩

theorem Advanced.trans (first : Advanced holders mem between)
    (second : Advanced holders between after) : Advanced holders mem after := by
  intro idx
  rcases second idx with cleared | ⟨onward, bit⟩
  · exact .inl cleared
  rcases first idx with ⟨unheld, zero⟩ | ⟨onwardBefore, bitBefore⟩
  · refine .inl ⟨unheld, ?_⟩
    have bound := onward.refcount
    rw [zero] at bound
    exact BitVec.eq_of_toNat_eq (Nat.le_zero.mp bound)
  · exact .inr ⟨onwardBefore.trans onward, bit.trans bitBefore⟩

theorem Signaled.trans (first : Signaled members holders clearing middle mem between)
    (second : Signaled members holders clearing notices between after) :
    Signaled members holders clearing notices mem after where
  books := second.books
  bits := second.bits
  advanced := first.advanced.trans second.advanced
  fewer := le_trans second.fewer first.fewer

theorem SynxSharedMem.Live.nonzero {mem : SynxSharedMem} (alive : mem.Live idx) : mem.table idx ≠ .zero := by
  intro zero
  exact alive.2 (by rw [zero]; rfl)

theorem Bits.within {idx : Nat} (bits : Bits mem clearing) (alive : mem.Live idx) :
    0 < idx ∧ idx < synxGlobalMaxObjs := by
  obtain ⟨positive, within, _⟩ := bits.handled idx alive.nonzero
  exact ⟨positive, within⟩

theorem Bits.alive (bits : Bits mem clearing) (ne : mem.table idx ≠ .zero) : mem.Live idx := by
  obtain ⟨pos, _, handle⟩ := bits.handled idx ne
  exact ⟨Nat.ne_of_gt pos, handle⟩

theorem Bits.put {entry : SynxGlobalCoredata} (bits : Bits mem clearing) (alive : mem.Live idx)
    (handle : entry.handle = (mem.table idx).handle) : Bits (mem.put idx entry) clearing where
  zeroed := by
    intro other pos lt
    by_cases here : other = idx
    · subst here
      have ne : entry ≠ .zero := by
        intro zero
        exact alive.2 (by rw [← handle, zero]; rfl)
      have used := (bits.zeroed other pos lt).not.mp alive.nonzero
      rw [put_here]
      exact iff_of_false ne used
    · rw [put_other here]
      exact bits.zeroed other pos lt
  handled := by
    intro other
    by_cases here : other = idx
    · subst here
      rw [put_here, handle]
      intro _
      exact bits.handled other alive.nonzero
    · rw [put_other here]
      exact bits.handled other
  root := bits.root
  clearable := bits.clearable

theorem Bits.memset (pos : 0 < idx) (bits : Bits mem clearing) :
    Bits (mem.memset idx entry) (clearing ++ [idx]) where
  zeroed := by
    intro other pos lt
    rw [mem_append, mem_singleton]
    by_cases here : other = idx
    · subst here
      rw [memset_here]
      exact iff_of_true (Eq.refl _) (.inr (.inr (Eq.refl _)))
    rw [memset_other here]
    constructor
    · intro zero
      rcases (bits.zeroed other pos lt).mp zero with clear | among
      · exact .inl clear
      · exact .inr (.inl among)
    · rintro (clear | among | same)
      · exact (bits.zeroed other pos lt).mpr (.inl clear)
      · exact (bits.zeroed other pos lt).mpr (.inr among)
      · exact absurd same here
  handled := by
    intro other ne
    by_cases here : other = idx
    · subst here
      exact absurd memset_here ne
    · rw [memset_other here] at ne ⊢
      exact bits.handled other ne
  root := bits.root
  clearable := by
    intro other among
    rcases mem_append.mp among with before | same
    · exact bits.clearable other before
    · exact mem_singleton.mp same ▸ pos

theorem Bits.clearBit (bits : Bits mem (clearing ++ [idx])) : Bits (mem.clearBit idx) clearing where
  zeroed := by
    intro other otherPositive lt
    have before := bits.zeroed other otherPositive lt
    rw [mem_append, mem_singleton] at before
    show mem.table other = .zero ↔ update mem.bitmap idx false other = false ∨ other ∈ clearing
    by_cases here : other = idx
    · rw [here, update_self]
      rw [here] at before
      exact iff_of_true (before.mpr (.inr (.inr (Eq.refl _)))) (.inl (Eq.refl _))
    · rw [update_of_ne here, before, or_iff_left here]
  handled := bits.handled
  root := by
    show update mem.bitmap idx false 0 = true
    have pos := bits.clearable idx (mem_append_right _ mem_cons_self)
    rw [update_of_ne (ne_of_lt pos)]
    exact bits.root
  clearable := fun other among => bits.clearable other (mem_append_left _ among)

theorem SynxSharedMem.put_composites (mem : SynxSharedMem) (entry : SynxGlobalCoredata) (lt : idx < synxGlobalMaxObjs) :
    (mem.put idx entry).composites + (if (mem.table idx).numChild ≠ 0 then 1 else 0) =
      mem.composites + (if entry.numChild ≠ 0 then 1 else 0) := by
  have before := sum_others (fun _ (entry : SynxGlobalCoredata) => if entry.numChild ≠ 0 then 1 else 0)
    mem.table lt
  have after := sum_update (fun _ (entry : SynxGlobalCoredata) => if entry.numChild ≠ 0 then 1 else 0)
    mem.table entry lt
  unfold composites put
  dsimp only
  omega

theorem SynxSharedMem.put_memset (mem : SynxSharedMem) (idx : Nat) (entry dropped : SynxGlobalCoredata) :
    (mem.put idx entry).memset idx dropped = mem.memset idx dropped := by
  unfold put memset
  simp

theorem Advanced.put (onward : Onward (mem.table idx) entry) : Advanced holders mem (mem.put idx entry) := by
  intro other
  refine .inr ⟨?_, Eq.refl _⟩
  by_cases here : other = idx
  · rw [here, put_here]
    exact onward
  · rw [put_other here]
    exact Onward.refl

theorem Advanced.clear (unheld : holders idx = 0) : Advanced holders mem ((mem.memset idx entry).clearBit idx) := by
  intro other
  by_cases here : other = idx
  · subst here
    refine .inl ⟨unheld, ?_⟩
    rw [clearBit_table, memset_here]
    rfl
  · refine .inr ⟨?_, update_of_ne here ..⟩
    rw [clearBit_table, memset_other here]
    exact Onward.refl

theorem SynxSharedMem.memset_composites (mem : SynxSharedMem) (entry : SynxGlobalCoredata)
    (lt : idx < synxGlobalMaxObjs) : ((mem.memset idx entry).clearBit idx).composites +
      (if (mem.table idx).numChild ≠ 0 then 1 else 0) = mem.composites := by
  have put := put_composites mem .zero lt
  have none : zero.numChild = 0 := rfl
  rw [if_neg (not_not.mpr none), add_zero] at put
  exact put

end Relations

section Core

variable {members : Nat → List Incarnation} {holders : Nat → Nat} {clearing rest : List Nat}
  {mem : SynxSharedMem} {idx status : Nat}

theorem SynxGlobalCoredata.childStatus_signaled {entry : SynxGlobalCoredata}
    (signaled : synxStateActive < status) : entry.childStatus status ≠ synxStateActive := by
  unfold childStatus
  by_cases takes : entry.status = synxStateActive ∨ (synxStateSignaledSuccess < status ∧ status ≤ synxStateSignaledMax)
  · rw [if_pos takes]
    exact Nat.ne_of_gt signaled
  · rw [if_neg takes]
    exact fun active => takes (.inl active)

theorem not_mem_of_counted {pending : Nat} (counted : 1 = pending + (idx :: rest).count idx) :
    pending = 0 ∧ idx ∉ rest := by
  rw [count_cons_self] at counted
  exact ⟨by omega, count_eq_zero.mp (by omega)⟩

theorem dropRef_completed (entry : SynxGlobalCoredata)
    (books : Books mem members holders (idx :: rest)) (bits : Bits mem clearing)
    (children : (mem.table idx).numChild.toNat = 1) (handle : entry.handle = (mem.table idx).handle)
    (parents : entry.parents = (mem.table idx).parents) (subscribers : entry.subscribers = (mem.table idx).subscribers)
    (refcount : entry.refcount = (mem.table idx).refcount)
    (status : entry.status ≠ synxStateActive) (none : entry.numChild = 0) : Signaled members holders clearing
        ((entry.parents.filter fun parent => decide (parent ≠ 0)) ++ rest) mem (mem.dropRef idx entry) ∧
      (mem.dropRef idx entry).composites < mem.composites := by
  have alive := books.notified idx mem_cons_self
  have counted := books.counted idx alive
  rw [children] at counted
  obtain ⟨noPending, unnoticed⟩ := not_mem_of_counted counted
  have ne : (mem.table idx).numChild ≠ 0 := by
    intro zero
    rw [zero] at children
    exact absurd children (by decide)
  have now := not_completed ne
  have held := books.refs idx alive
  rw [if_pos ne] at held
  have fewer : (entry.refcount - 1).toNat = (mem.table idx).refcount.toNat - 1 := by
    bv_omega
  have done : ({ entry with refcount := entry.refcount - 1 } : SynxGlobalCoredata).completed = true := by
    unfold completed
    rw [decide_eq_true status, decide_eq_true none]
    rfl
  obtain ⟨pos, lt⟩ := bits.within alive
  have completed := books.complete rest { entry with refcount := entry.refcount - 1 } alive now noPending unnoticed
    (fun other apart => (count_cons_of_ne (Ne.symm apart)).symm)
    (fun other among => mem_cons_of_mem _ among) handle parents done (by rw [fewer]; omega)
  have absent := (books.none_lists alive noPending alive now).2
  rw [← parents] at completed absent
  unfold dropRef
  by_cases last : entry.refcount - 1 = 0
  · rw [if_pos last]
    have unheld : holders idx = 0 := by
      rw [last] at fewer
      have zero : (0 : BitVec 16).toNat = 0 := rfl
      omega
    have still : (mem.put idx { entry with refcount := entry.refcount - 1 }).Live idx :=
      (put_live { entry with refcount := entry.refcount - 1 } handle idx).mpr alive
    have freed := completed.free holders { entry with refcount := entry.refcount - 1 } still (by rw [put_here]; exact none)
      (by
        intro among
        rcases mem_append.mp among with parent | other
        · exact absent (mem_filter.mp parent).1
        · exact unnoticed other)
      (.inl (by rw [put_here]; exact done)) (by rw [put_here])
      (fun _ _ => rfl) unheld
    rw [put_memset] at freed
    have composites := memset_composites mem
      { entry with refcount := entry.refcount - 1 } lt
    rw [if_pos ne] at composites
    exact ⟨⟨freed.congr rfl rfl, (bits.memset pos).clearBit, .clear unheld, by omega⟩, by omega⟩
  · rw [if_neg last]
    have composites := put_composites mem
      { entry with refcount := entry.refcount - 1 } lt
    rw [if_pos ne, if_neg (not_not.mpr none)] at composites
    have onward : Onward (mem.table idx) { entry with refcount := entry.refcount - 1 } := {
      subscribers := subscribers
      parents := parents
      refcount := by rw [fewer]; exact Nat.sub_le _ _
      uncompleted := fun uncompleted => absurd uncompleted (by rw [done]; decide) }
    exact ⟨⟨completed, bits.put alive handle, .put onward, by omega⟩, by omega⟩

theorem synxGlobalUpdateEntry_notified (signaled : synxStateActive < status)
    (books : Books mem members holders (idx :: rest)) (bits : Bits mem clearing) : Signaled members holders clearing
        (((synxGlobalUpdateEntry mem idx status).2.filter fun parent => decide (parent ≠ 0)) ++ rest)
        mem (synxGlobalUpdateEntry mem idx status).1 ∧ ((synxGlobalUpdateEntry mem idx status).2 = [] ∨
        (synxGlobalUpdateEntry mem idx status).1.composites < mem.composites) := by
  have alive := books.notified idx mem_cons_self
  have counted := books.counted idx alive
  rw [count_cons_self] at counted
  have ne : (mem.table idx).numChild ≠ 0 := by
    intro zero
    rw [zero] at counted
    have none : (0 : BitVec 16).toNat = 0 := rfl
    omega
  have fewer : ((mem.table idx).numChild - 1).toNat = (mem.table idx).numChild.toNat - 1 := by
    bv_omega
  unfold synxGlobalUpdateEntry
  rw [if_pos ne]
  by_cases last : (mem.table idx).numChild - 1 = 0
  · rw [if_pos last]
    have zero : (0 : BitVec 16).toNat = 0 := rfl
    have dropped := dropRef_completed { mem.table idx with
      numChild := (mem.table idx).numChild - 1
      status := (mem.table idx).childStatus status
      waiters := 0 } books bits (by rw [last] at fewer; omega) rfl rfl rfl rfl
      (childStatus_signaled signaled) last
    exact ⟨dropped.1, .inr dropped.2⟩
  · rw [if_neg last]
    have now := not_completed ne
    have later : ({ mem.table idx with
        numChild := (mem.table idx).numChild - 1
        status := (mem.table idx).childStatus status } : SynxGlobalCoredata).completed = false :=
      not_completed last
    have held := books.refs idx alive
    rw [if_pos ne] at held
    have put := books.put_same holders rest { mem.table idx with
        numChild := (mem.table idx).numChild - 1
        status := (mem.table idx).childStatus status }
      rfl rfl (later.trans now.symm) (fun _ => by dsimp only; omega)
      (fun other apart => (count_cons_of_ne (Ne.symm apart)).symm)
      (fun other among => mem_cons_of_mem _ among) (fun _ _ => rfl)
      (fun _ => by rw [if_pos last]; exact held) (books.unheld idx)
    have composites := put_composites mem { mem.table idx with
        numChild := (mem.table idx).numChild - 1
        status := (mem.table idx).childStatus status } (bits.within alive).2
    rw [if_pos ne, if_pos last] at composites
    have onward : Onward (mem.table idx) { mem.table idx with
        numChild := (mem.table idx).numChild - 1
        status := (mem.table idx).childStatus status } := {
      subscribers := rfl
      parents := rfl
      refcount := le_rfl
      uncompleted := fun _ => ⟨now, rfl⟩ }
    exact ⟨⟨put, bits.put alive rfl, .put onward, le_of_eq (Nat.add_right_cancel composites)⟩, .inl rfl⟩

theorem notifyParents (calls : ∀ mem idx rest, Books mem members holders (idx :: rest) → Bits mem clearing →
      mem.composites < depth → ∃ after, synxGlobalUpdateStatusCore status depth mem idx = some after ∧
        Signaled members holders clearing rest mem after) (parents : List Nat)
    (books : Books mem members holders ((parents.filter fun parent => decide (parent ≠ 0)) ++ rest))
    (bits : Bits mem clearing) (deep : mem.composites < depth) : ∃ after, parents.foldlM (fun mem parent =>
        if parent = 0 then some mem else synxGlobalUpdateStatusCore status depth mem parent) mem = some after ∧
      Signaled members holders clearing rest mem after := by
  induction parents generalizing mem with
  | nil => exact ⟨mem, rfl, books, bits, .refl, le_rfl⟩
  | cons parent parents ih =>
    rw [foldlM_cons]
    by_cases zero : parent = 0
    · rw [if_pos zero]
      rw [filter_cons_of_neg (by rw [decide_eq_true_iff]; exact not_not.mpr zero)] at books
      exact ih books bits deep
    rw [if_neg zero]
    rw [filter_cons_of_pos (by rw [decide_eq_true_iff]; exact zero)] at books
    obtain ⟨between, called, first⟩ := calls mem parent _ books bits deep
    obtain ⟨after, looped, second⟩ :=
      ih first.books first.bits (lt_of_le_of_lt first.fewer deep)
    refine ⟨after, ?_, first.trans second⟩
    rw [called]
    exact looped

theorem synxGlobalUpdateStatusCore_notified (signaled : synxStateActive < status)
    (books : Books mem members holders (idx :: rest)) (bits : Bits mem clearing)
    (deep : mem.composites < depth) : ∃ after, synxGlobalUpdateStatusCore status depth mem idx = some after ∧
      Signaled members holders clearing rest mem after := by
  induction depth generalizing mem idx rest with
  | zero => exact absurd deep (Nat.not_lt_zero _)
  | succ depth ih =>
    obtain ⟨entry, shallower⟩ := synxGlobalUpdateEntry_notified signaled books bits
    rw [synxGlobalUpdateStatusCore]
    dsimp only
    rcases shallower with none | less
    · rw [none] at entry ⊢
      exact ⟨_, rfl, entry⟩
    · obtain ⟨after, looped, parents⟩ :=
        notifyParents (fun mem idx rest books bits deep => ih books bits deep) _ entry.books entry.bits (by omega)
      exact ⟨after, looped, entry.trans parents⟩

theorem SynxSharedMem.composites_le (mem : SynxSharedMem) : mem.composites ≤ synxGlobalMaxObjs := by
  calc ∑ idx ∈ Finset.range synxGlobalMaxObjs, (if (mem.table idx).numChild ≠ 0 then 1 else 0)
      ≤ ∑ _idx ∈ Finset.range synxGlobalMaxObjs, 1 := by
        apply Finset.sum_le_sum
        intro idx _
        by_cases children : (mem.table idx).numChild ≠ 0
        · rw [if_pos children]
        · rw [if_neg children]
          exact Nat.zero_le 1
    _ = synxGlobalMaxObjs := by rw [← Finset.card_eq_sum_ones, Finset.card_range]

theorem synxGlobalUpdateStatusCore_signaled (signaled : synxStateActive < status)
    (books : Books mem members holders []) (bits : Bits mem clearing)
    (active : (mem.table idx).status = synxStateActive) (leaf : (mem.table idx).numChild = 0) :
    ∃ after, synxGlobalUpdateStatusCore status updateDepth mem idx = some after ∧
      Signaled members holders clearing [] mem after := by
  have alive : mem.Live idx := by
    apply bits.alive
    intro zero
    rw [zero] at active
    exact absurd active (by decide)
  have now : (mem.table idx).completed = false := by
    unfold completed
    rw [decide_eq_false (not_not.mpr active), Bool.false_and]
  have done : ({ mem.table idx with status := status, waiters := 0 } : SynxGlobalCoredata).completed = true := by
    unfold completed
    rw [decide_eq_true (Nat.ne_of_gt signaled), decide_eq_true leaf]
    rfl
  have counted := books.counted idx alive
  rw [leaf] at counted
  have held := books.refs idx alive
  rw [if_neg (not_not.mpr leaf)] at held
  have completed := books.complete []
    { mem.table idx with status := status, waiters := 0 } alive now counted.symm
    not_mem_nil (fun _ _ => rfl) (fun _ among => among) rfl rfl done held
  have composites := put_composites mem
    { mem.table idx with status := status, waiters := 0 } (bits.within alive).2
  have fewer := le_of_eq (Nat.add_right_cancel composites)
  have onward : Onward (mem.table idx) { mem.table idx with status := status, waiters := 0 } := {
    subscribers := rfl
    parents := rfl
    refcount := le_rfl
    uncompleted := fun uncompleted => absurd uncompleted (by rw [done]; decide) }
  have bound := composites_le mem
  have parents : ∃ after, (mem.table idx).parents.foldlM (fun mem parent =>
        if parent = 0 then some mem
        else synxGlobalUpdateStatusCore status (synxGlobalMaxObjs + 1) mem parent)
        (mem.put idx { mem.table idx with status := status, waiters := 0 }) = some after ∧
      Signaled members holders clearing []
        (mem.put idx { mem.table idx with status := status, waiters := 0 }) after :=
    notifyParents (fun mem idx rest books bits deep =>
      synxGlobalUpdateStatusCore_notified signaled books bits deep) _ completed
      (bits.put alive rfl) (by omega)
  obtain ⟨after, looped, later⟩ := parents
  refine ⟨after, ?_, Signaled.trans ⟨completed, bits.put alive rfl, .put onward, fewer⟩ later⟩
  unfold updateDepth
  rw [synxGlobalUpdateStatusCore, synxGlobalUpdateEntry]
  rw [if_neg (not_not.mpr leaf)]
  exact looped

theorem synxGlobalUpdateStatus_signaled (idx status : Nat) (books : Books mem members holders [])
    (bits : Bits mem clearing) : ∃ updated, synxGlobalUpdateStatus mem idx status = some updated ∧
      Signaled members holders clearing [] mem updated.1 := by
  have same : Signaled members holders clearing [] mem mem := ⟨books, bits, .refl, le_rfl⟩
  unfold synxGlobalUpdateStatus
  by_cases refused : (!synxIsValidIdx idx || decide (status ≤ synxStateActive)) = true
  · rw [if_pos refused]
    exact ⟨_, rfl, same⟩
  rw [if_neg refused]
  by_cases composite : (mem.table idx).numChild ≠ 0
  · rw [if_pos composite]
    exact ⟨_, rfl, same⟩
  rw [if_neg composite]
  by_cases already : (mem.table idx).status ≠ synxStateActive
  · rw [if_pos already]
    exact ⟨_, rfl, same⟩
  rw [if_neg already]
  have signaled : synxStateActive < status := by
    apply Nat.lt_of_not_le
    intro low
    exact refused (by rw [decide_eq_true low, Bool.or_true])
  obtain ⟨after, called, done⟩ := synxGlobalUpdateStatusCore_signaled signaled books bits
    (not_not.mp already) (not_not.mp composite)
  exact ⟨(after, none), by rw [called]; rfl, done⟩

end Core

end KernelModules.Synx

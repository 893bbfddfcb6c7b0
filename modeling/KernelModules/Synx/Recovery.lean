import KernelModules.Synx.References

namespace KernelModules.Synx

open Data SynxSharedMem List Function

/-! # Recovering a core

The references of the core are dropped one by one.  Signaling an entry clears none that is still held.
-/

/-- The core holds every reference that is dropped for it, and dropping the last one leaves no one
waiting. -/
def SynxSharedMem.recoverable (mem : SynxSharedMem) (holders : Nat → Nat) (core : SynxCoreId) : Bool :=
  (List.range' 1 (synxGlobalMaxObjs - 1)).all fun idx =>
    !mem.subscribed core idx || (decide (0 < holders idx) && mem.droppable idx)

def Spared (core : SynxCoreId) (holders : Nat → Nat) (before after : SynxSharedMem) (idx : Nat) : Prop :=
  (after.subscribed core idx = true → before.subscribed core idx = true) ∧
    (0 < holders idx → before.subscribed core idx = true → after.subscribed core idx = true ∧
        (before.droppable idx = true → after.droppable idx = true))

section Recovery

variable {mem after : SynxSharedMem} {idx : Nat} {core : SynxCoreId} {holders : Nat → Nat}

theorem subscribed_iff : mem.subscribed core idx = true ↔
    0 < idx ∧ idx < synxGlobalMaxObjs ∧ mem.bitmap idx = true ∧ (mem.table idx).refcount ≠ 0 ∧
      (mem.table idx).subscribers &&& core.bit ≠ 0 := by
  unfold subscribed
  simp [decide_eq_true_iff, and_assoc]

theorem Spared.of_same (tbl : after.table idx = mem.table idx)
    (bitmap : after.bitmap idx = mem.bitmap idx) : Spared core holders mem after idx := by
  have subscribed : after.subscribed core idx = mem.subscribed core idx := by
    unfold subscribed
    rw [tbl, bitmap]
  have droppable : after.droppable idx = mem.droppable idx := by
    unfold droppable
    rw [tbl]
  unfold Spared
  rw [subscribed, droppable]
  exact ⟨fun now => now, fun _ now => ⟨now, fun may => may⟩⟩

theorem Onward.droppable (onward : Onward before later) (tbl : mem.table idx = before)
    (tableAfter : after.table idx = later) (may : mem.droppable idx = true) : after.droppable idx = true := by
  unfold SynxSharedMem.droppable at may ⊢
  rw [tbl] at may
  rw [tableAfter, onward.parents]
  cases completed : later.completed with
  | true => rw [Bool.or_true, Bool.true_or]
  | false =>
    obtain ⟨open', refs⟩ := onward.uncompleted completed
    rw [refs, ← open']
    exact may

theorem Advanced.spared (core : SynxCoreId) (idx : Nat) (advanced : Advanced holders mem after)
    (books : Books after members holders []) : Spared core holders mem after idx := by
  constructor
  · intro now
    rw [subscribed_iff] at now ⊢
    obtain ⟨pos, lt, bit, refs, among⟩ := now
    rcases advanced idx with ⟨_, zero⟩ | ⟨onward, same⟩
    · exact absurd zero refs
    rw [same] at bit
    rw [onward.subscribers] at among
    refine ⟨pos, lt, bit, ?_, among⟩
    intro zero
    have bound := onward.refcount
    rw [zero] at bound
    exact refs (BitVec.eq_of_toNat_eq (Nat.le_zero.mp bound))
  · intro held before
    rcases advanced idx with ⟨unheld, _⟩ | ⟨onward, same⟩
    · exact absurd unheld (Nat.ne_of_gt held)
    refine ⟨?_, onward.droppable rfl rfl⟩
    rw [subscribed_iff] at before ⊢
    obtain ⟨pos, lt, bit, _, among⟩ := before
    rw [same, onward.subscribers]
    refine ⟨pos, lt, bit, ?_, among⟩
    intro zero
    have refs := books.refs idx (books.holder_live held)
    rw [zero] at refs
    have none : (0 : BitVec 16).toNat = 0 := rfl
    omega

theorem Spared.trans (first : Spared core holders mem between idx)
    (second : Spared core holders between after idx) : Spared core holders mem after idx := by
  constructor
  · exact fun now => first.1 (second.1 now)
  · intro held before
    obtain ⟨middle, mayMiddle⟩ := first.2 held before
    obtain ⟨now, may⟩ := second.2 held middle
    exact ⟨now, fun droppable => may (mayMiddle droppable)⟩

def recovered (core : SynxCoreId) (mem : SynxSharedMem) (holders : Nat → Nat) (idx : Nat) : Nat → Nat :=
  if mem.subscribed core idx then Function.update holders idx (holders idx - 1) else holders

theorem recoverEntry_kept (books : Books mem members holders []) (bits : Bits mem clearing)
    (pos : 0 < idx) (lt : idx < synxGlobalMaxObjs) (used : mem.bitmap idx = true)
    (may : mem.subscribed core idx = true → 0 < holders idx ∧ mem.droppable idx = true) :
    ∃ result, recoverEntry core mem idx = some result ∧ Books result.1 members (recovered core mem holders idx) [] ∧
      Bits result.1 (if result.2 then clearing ++ [idx] else clearing) ∧
      ∀ other, other ≠ idx → Spared core holders mem result.1 other := by
  unfold recoverEntry recovered
  by_cases subscribed : (mem.table idx).refcount ≠ 0 ∧ (mem.table idx).subscribers &&& core.bit ≠ 0
  · have owned : mem.subscribed core idx = true :=
      subscribed_iff.mpr ⟨pos, lt, used, subscribed.1, subscribed.2⟩
    obtain ⟨held, droppable⟩ := may owned
    have alive := books.holder_live held
    rw [if_pos subscribed, if_pos owned]
    by_cases last : (mem.table idx).refcount - 1 = 0
    · rw [if_pos last]
      have one : (mem.table idx).refcount = 1 := by bv_omega
      refine ⟨_, rfl, books.release_memset _ held rfl rfl one droppable, bits.memset pos, ?_⟩
      exact fun other apart => .of_same (memset_other apart) rfl
    rw [if_neg last]
    let dropped := { mem.table idx with
      subscribers := (mem.table idx).subscribers &&& ~~~core.bit
      refcount := (mem.table idx).refcount - 1 }
    have put : Books (mem.put idx dropped) members (update holders idx (holders idx - 1)) [] :=
      books.release_put held rfl rfl rfl rfl rfl
    have same (other : Nat) (apart : other ≠ idx) : Spared core holders mem (mem.put idx dropped) other :=
      .of_same (put_other apart) rfl
    by_cases active : (mem.table idx).status = synxStateActive
    · rw [if_pos active]
      have bitsPut : Bits (mem.put idx dropped) clearing := bits.put alive rfl
      obtain ⟨updated, called, signaled⟩ :=
        synxGlobalUpdateStatus_signaled idx synxStateSignaledSsr put bitsPut
      refine ⟨(updated.1, false), by rw [called]; rfl, signaled.books, signaled.bits, ?_⟩
      intro other apart
      apply (same other apart).trans
      have spared := signaled.advanced.spared core other signaled.books
      unfold Spared at spared ⊢
      rw [update_of_ne apart] at spared
      exact spared
    · rw [if_neg active]
      exact ⟨_, rfl, put, bits.put alive rfl, same⟩
  · have others : ¬ mem.subscribed core idx = true := by
      rw [subscribed_iff]
      exact fun owned => subscribed owned.2.2.2
    rw [if_neg subscribed, if_neg others]
    exact ⟨_, rfl, books, bits, fun other _ => .of_same rfl rfl⟩

def recoveredAll (core : SynxCoreId) (mem : SynxSharedMem) (holders : Nat → Nat)
    (idxs : List Nat) : Nat → Nat :=
  fun idx => if idx ∈ idxs ∧ mem.subscribed core idx = true then holders idx - 1 else holders idx

theorem recoverLoop_kept (nodup : idxs.Nodup) (ranged : ∀ idx ∈ idxs, 0 < idx ∧ idx < synxGlobalMaxObjs)
    (books : Books mem members holders []) (bits : Bits mem clearing)
    (may : ∀ idx ∈ idxs, mem.subscribed core idx = true → 0 < holders idx ∧ mem.droppable idx = true) :
    ∃ result, recoverLoop core idxs mem clearing = some result ∧
      Books result.1 members (recoveredAll core mem holders idxs) [] ∧ Bits result.1 result.2 := by
  induction idxs generalizing mem holders clearing with
  | nil =>
    refine ⟨(mem, clearing), rfl, ?_, bits⟩
    exact books
  | cons idx rest ih =>
    obtain ⟨fresh, distinctRest⟩ := nodup_cons.mp nodup
    obtain ⟨pos, lt⟩ := ranged idx mem_cons_self
    have rangedRest := fun other among => ranged other (mem_cons_of_mem idx among)
    rw [recoverLoop]
    by_cases used : mem.bitmap idx = true
    · rw [if_pos used]
      obtain ⟨result, entry, booksHere, bitsHere, spared⟩ :=
        recoverEntry_kept books bits pos lt used (may idx mem_cons_self)
      have heldAs (other : Nat) (apart : other ≠ idx) : recovered core mem holders idx other = holders other := by
        unfold recovered
        by_cases owned : mem.subscribed core idx = true
        · rw [if_pos owned, update_of_ne apart]
        · rw [if_neg owned]
      have apartOf (other : Nat) (among : other ∈ rest) : other ≠ idx :=
        fun same => fresh (same ▸ among)
      obtain ⟨all, looped, booksAll, bitsAll⟩ := ih distinctRest rangedRest booksHere bitsHere (by
          intro other among now
          have before := (spared other (apartOf other among)).1 now
          obtain ⟨held, droppable⟩ := may other (mem_cons_of_mem _ among) before
          rw [heldAs other (apartOf other among)]
          exact ⟨held, ((spared other (apartOf other among)).2 held before).2 droppable⟩)
      refine ⟨all, by rw [entry]; exact looped, ?_, bitsAll⟩
      have same : recoveredAll core result.1 (recovered core mem holders idx) rest =
          recoveredAll core mem holders (idx :: rest) := by
        funext other
        unfold recoveredAll
        by_cases here : other = idx
        · subst here
          rw [if_neg fun among => fresh among.1]
          unfold recovered
          by_cases owned : mem.subscribed core other = true
          · rw [if_pos owned, if_pos ⟨mem_cons_self, owned⟩, update_self]
          · rw [if_neg owned, if_neg fun among => owned among.2]
        · rw [heldAs other here]
          by_cases among : other ∈ rest
          · have iff : result.1.subscribed core other = true ↔ mem.subscribed core other = true := by
              constructor
              · exact (spared other here).1
              · intro before
                have held := (may other (mem_cons_of_mem _ among) before).1
                exact ((spared other here).2 held before).1
            simp [iff, here]
          · rw [if_neg fun both => among both.1, if_neg]
            intro both
            rcases mem_cons.mp both.1 with same | later
            · exact here same
            · exact among later
      rw [← same]
      exact booksAll
    · rw [if_neg used]
      obtain ⟨all, looped, booksAll, bitsAll⟩ := ih distinctRest rangedRest books bits
        fun other among => may other (mem_cons_of_mem _ among)
      refine ⟨all, looped, ?_, bitsAll⟩
      have same : recoveredAll core mem holders rest = recoveredAll core mem holders (idx :: rest) := by
        funext other
        unfold recoveredAll
        by_cases here : other = idx
        · subst here
          rw [if_neg fun among => fresh among.1, if_neg]
          exact fun both => used (subscribed_iff.mp both.2).2.2.1
        · simp [here]
      rw [← same]
      exact booksAll

theorem Bits.clearBits (bits : Bits mem clearing) : Bits (clearing.foldl SynxSharedMem.clearBit mem) [] := by
  induction clearing generalizing mem with
  | nil => exact bits
  | cons idx rest ih =>
    apply ih
    apply Bits.clearBit
    have turned (other : Nat) : other ∈ rest ++ [idx] ↔ other ∈ idx :: rest := by
      rw [mem_append, mem_singleton, mem_cons, or_comm]
    refine ⟨?_, bits.handled, bits.root, fun other among =>
      bits.clearable other ((turned other).mp among)⟩
    intro other pos lt
    rw [bits.zeroed other pos lt, turned]

theorem clearBits_table (mem : SynxSharedMem) (clearing : List Nat) :
    (clearing.foldl clearBit mem).table = mem.table ∧ (clearing.foldl clearBit mem).cleared = mem.cleared := by
  induction clearing generalizing mem with
  | nil => exact ⟨rfl, rfl⟩
  | cons idx rest ih => exact ih (mem.clearBit idx)

theorem Kept.recover (kept : Kept history) (may : history.mem.recoverable history.holders core = true) :
    ∃ mem, synxGlobalRecover history.mem core = some mem ∧ Kept { history with
        mem := mem
        holders := fun idx =>
          if history.mem.subscribed core idx then history.holders idx - 1
          else history.holders idx } := by
  have ranged (idx : Nat) : idx ∈ List.range' 1 (synxGlobalMaxObjs - 1) ↔ 0 < idx ∧ idx < synxGlobalMaxObjs := by
    rw [mem_range'_1]
    omega
  have owned (idx : Nat) (among : idx ∈ List.range' 1 (synxGlobalMaxObjs - 1))
      (subscribed : history.mem.subscribed core idx = true) :
      0 < history.holders idx ∧ history.mem.droppable idx = true := by
    have held := all_eq_true.mp may idx among
    rw [subscribed, Bool.not_true, Bool.false_or, Bool.and_eq_true, decide_eq_true_iff] at held
    exact held
  obtain ⟨result, looped, books, bits⟩ := recoverLoop_kept (nodup_range' ..)
    (fun idx => (ranged idx).mp) kept.books kept.bits owned
  have holders : recoveredAll core history.mem history.holders
        (List.range' 1 (synxGlobalMaxObjs - 1)) = fun idx =>
      if history.mem.subscribed core idx then history.holders idx - 1 else history.holders idx := by
    funext idx
    unfold recoveredAll
    by_cases subscribed : history.mem.subscribed core idx = true
    · obtain ⟨pos, lt, _⟩ := subscribed_iff.mp subscribed
      rw [if_pos ⟨(ranged idx).mpr ⟨pos, lt⟩, subscribed⟩, if_pos subscribed]
    · rw [if_neg fun both => subscribed both.2, if_neg subscribed]
  rw [holders] at books
  refine ⟨result.2.foldl clearBit result.1, ?_, ?_, bits.clearBits⟩
  · unfold synxGlobalRecover
    rw [looped]
    rfl
  · obtain ⟨tbl, cleared⟩ := clearBits_table result.1 result.2
    exact books.congr tbl cleared

end Recovery

end KernelModules.Synx

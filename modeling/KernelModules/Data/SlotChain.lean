import Mathlib.Order.Interval.Finset.Nat

namespace KernelModules.Data

open Function List

/-! # Chains of slots in an array

Occupied slots form doubly linked chains: each starts at a base slot and continues through expansion slots, and zero
is no slot.  The chain of a slot and its place there are ghost data.
-/

structure Links where
  valid : Nat → Bool
  next : Nat → Nat
  prev : Nat → Nat

/-- Occupied slots lie on chains from base slots; `head` names the chain of a slot and
`rank` grows along it. -/
structure Linked (base total : Nat) (links : Links) (head rank : Nat → Nat) : Prop where
  inRange : ∀ slot, links.valid slot = true → slot ≠ 0 ∧ slot < total
  first : ∀ slot, links.valid slot = true → slot < base → links.prev slot = 0 ∧ head slot = slot
  back : ∀ slot, links.valid slot = true → base ≤ slot →
    links.valid (links.prev slot) = true ∧ links.next (links.prev slot) = slot ∧
      head (links.prev slot) = head slot ∧ rank (links.prev slot) < rank slot
  forward : ∀ slot, links.valid slot = true → links.next slot ≠ 0 →
    links.valid (links.next slot) = true ∧ base ≤ links.next slot ∧ links.prev (links.next slot) = slot

/-- The free slot became the end of the chain that ended at `last`, or of a new one if that is zero. -/
structure Links.Inserted (before after : Links) (slot last : Nat) : Prop where
  valid : ∀ other, after.valid other = (before.valid other || other == slot)
  nextHere : after.next slot = 0
  prevHere : after.prev slot = last
  next : ∀ other, before.valid other = true → other ≠ slot →
    after.next other = if other = last then slot else before.next other
  prev : ∀ other, before.valid other = true → other ≠ slot → after.prev other = before.prev other

structure Links.Removed (before after : Links) (slot : Nat) : Prop where
  valid : ∀ other, after.valid other = (before.valid other && other != slot)
  next : ∀ other, before.valid other = true → other ≠ slot →
    after.next other = if other = before.prev slot then before.next slot else before.next other
  prev : ∀ other, before.valid other = true → other ≠ slot →
    after.prev other = if other = before.next slot then before.prev slot else before.prev other

/-- Following `next` from one slot to another. -/
inductive Reaches (next : Nat → Nat) : Nat → Nat → Prop where
  | here (slot : Nat) : Reaches next slot slot
  | step {slot target : Nat} (more : next slot ≠ 0) (rest : Reaches next (next slot) target) :
      Reaches next slot target

inductive ChainFrom (next : Nat → Nat) : Nat → List Nat → Prop where
  | last {slot : Nat} (ends : next slot = 0) : ChainFrom next slot [slot]
  | cons {slot : Nat} {rest : List Nat} (more : next slot ≠ 0)
      (tail : ChainFrom next (next slot) rest) : ChainFrom next slot (slot :: rest)

def occupied (valid : Nat → Bool) (first limit : Nat) : Nat :=
  ((Finset.Ico first limit).filter fun slot => valid slot = true).card

section Updates

variable {base total : Nat} {before after : Links} {head rank : Nat → Nat}

section

variable (linked : Linked base total before head rank)
include linked

theorem Linked.insert (inserted : before.Inserted after slot last)
    (free : before.valid slot = false) (ne : slot ≠ 0) (bounded : slot < total) (place : if last = 0 then slot < base
      else base ≤ slot ∧ before.valid last = true ∧ before.next last = 0) : Linked base total after
      (update head slot (if last = 0 then slot else head last))
      (update rank slot (if last = 0 then 0 else rank last + 1)) := by
  have old {other : Nat} (valid : after.valid other = true) (apart : other ≠ slot) : before.valid other = true := by
    simpa [inserted.valid, apart] using valid
  have kept {other : Nat} (valid : before.valid other = true) : other ≠ slot := by
    intro same
    rw [same, free] at valid
    cases valid
  have stays {other : Nat} (valid : before.valid other = true) : after.valid other = true := by
    simp [inserted.valid, valid]
  refine ⟨fun other valid => ?_, fun other valid low => ?_, fun other valid high => ?_, fun other valid more => ?_⟩
  · by_cases same : other = slot
    · rw [same]; exact ⟨ne, bounded⟩
    · exact linked.inRange other (old valid same)
  · by_cases same : other = slot
    · subst same
      split at place
      · rename_i new
        simp [inserted.prevHere, new]
      · omega
    · have valid := old valid same
      rw [inserted.prev other valid same, update_of_ne same]
      exact linked.first other valid low
  · by_cases same : other = slot
    · subst same
      split at place
      · omega
      · rename_i some
        have apart := kept place.2.1
        simp only [inserted.prevHere, update_self, some, if_false, update_of_ne apart]
        refine ⟨stays place.2.1, ?_, trivial, Nat.lt_succ_self _⟩
        rw [inserted.next last place.2.1 apart, if_pos rfl]
    · have valid := old valid same
      obtain ⟨prevValid, linkedNext, sameHead, lower⟩ := linked.back other valid high
      have apart := kept prevValid
      rw [inserted.prev other valid same, update_of_ne apart, update_of_ne same, update_of_ne apart, update_of_ne same]
      refine ⟨stays prevValid, ?_, sameHead, lower⟩
      rw [inserted.next _ prevValid apart, if_neg, linkedNext]
      intro isLast
      rw [isLast] at linkedNext prevValid
      split at place
      · rename_i zero
        exact (linked.inRange last prevValid).1 zero
      · have inRange := linked.inRange other valid
        omega
  · by_cases same : other = slot
    · rw [same] at more
      exact absurd inserted.nextHere more
    have valid := old valid same
    rw [inserted.next other valid same] at more ⊢
    split
    · rename_i isLast
      subst isLast
      have some := (linked.inRange other valid).1
      rw [if_neg some] at place
      refine ⟨by simp [inserted.valid], place.1, inserted.prevHere⟩
    · rename_i notLast
      rw [if_neg notLast] at more
      obtain ⟨nextValid, high, back⟩ := linked.forward other valid more
      exact ⟨stays nextValid, high, by rw [inserted.prev _ nextValid (kept nextValid), back]⟩

theorem Linked.remove (removed : before.Removed after slot) (occupied : before.valid slot = true)
    (notHeadWithTail : base ≤ slot ∨ before.next slot = 0) : Linked base total after head rank := by
  have old {other : Nat} (valid : after.valid other = true) : before.valid other = true ∧ other ≠ slot := by
    simpa [removed.valid] using valid
  have stays {other : Nat} (valid : before.valid other = true) (apart : other ≠ slot) :
      after.valid other = true := by
    simp [removed.valid, valid, apart]
  refine ⟨fun other valid => linked.inRange other (old valid).1, fun other valid low => ?_,
    fun other valid high => ?_, fun other valid more => ?_⟩
  · obtain ⟨valid, apart⟩ := old valid
    rw [removed.prev other valid apart, if_neg]
    · exact linked.first other valid low
    · intro isNext
      have some : before.next slot ≠ 0 := isNext ▸ (linked.inRange other valid).1
      have high := (linked.forward slot occupied some).2.1
      omega
  · obtain ⟨valid, apart⟩ := old valid
    obtain ⟨prevValid, linkedNext, sameHead, lower⟩ := linked.back other valid high
    rw [removed.prev other valid apart]
    split
    · rename_i isNext
      -- the slot after the removed one now follows the one before it
      have some : before.next slot ≠ 0 := isNext ▸ (linked.inRange other valid).1
      have fromSlot := (linked.forward slot occupied some).2.2
      rw [← isNext] at fromSlot
      have inTail : base ≤ slot := notHeadWithTail.resolve_right some
      obtain ⟨beforeValid, beforeNext, beforeHead, beforeLower⟩ := linked.back slot occupied inTail
      have prevDifferent : before.prev slot ≠ slot := by
        intro same
        rw [same] at beforeLower
        exact lt_irrefl _ beforeLower
      rw [fromSlot] at sameHead lower
      refine ⟨stays beforeValid prevDifferent, ?_, beforeHead.trans sameHead, lt_trans beforeLower lower⟩
      rw [removed.next _ beforeValid prevDifferent, if_pos rfl, isNext]
    · rename_i notNext
      have prevDifferent : before.prev other ≠ slot := by
        intro same
        rw [same] at linkedNext
        exact notNext linkedNext.symm
      refine ⟨stays prevValid prevDifferent, ?_, sameHead, lower⟩
      rw [removed.next _ prevValid prevDifferent, if_neg, linkedNext]
      intro isPrev
      rw [isPrev] at linkedNext prevValid
      by_cases inTail : base ≤ slot
      · exact apart (linkedNext.symm.trans (linked.back slot occupied inTail).2.1)
      · have zero := (linked.first slot occupied (not_le.mp inTail)).1
        exact (linked.inRange _ prevValid).1 zero
  · obtain ⟨valid, apart⟩ := old valid
    rw [removed.next other valid apart] at more ⊢
    split
    · rename_i isPrev
      rw [if_pos isPrev] at more
      obtain ⟨nextValid, high, back⟩ := linked.forward slot occupied more
      have nextDifferent : before.next slot ≠ slot := by
        intro same
        have inTail : base ≤ slot := notHeadWithTail.resolve_right more
        have lower := (linked.back slot occupied inTail).2.2.2
        rw [same] at back
        rw [back] at lower
        exact lt_irrefl _ lower
      refine ⟨stays nextValid nextDifferent, high, ?_⟩
      rw [removed.prev _ nextValid nextDifferent, if_pos rfl, isPrev]
    · rename_i notPrev
      rw [if_neg notPrev] at more
      obtain ⟨nextValid, high, back⟩ := linked.forward other valid more
      have nextDifferent : before.next other ≠ slot := by
        intro same
        rw [same] at back
        exact notPrev back.symm
      refine ⟨stays nextValid nextDifferent, high, ?_⟩
      rw [removed.prev _ nextValid nextDifferent, if_neg, back]
      intro isNext
      rw [isNext] at back
      have some : before.next slot ≠ 0 := isNext ▸ more
      exact apart (back.symm.trans (linked.forward slot occupied some).2.2)

theorem Linked.congr (valid : ∀ other, after.valid other = before.valid other)
    (next : ∀ other, before.valid other = true → after.next other = before.next other)
    (prev : ∀ other, before.valid other = true → after.prev other = before.prev other) :
    Linked base total after head rank := by
  refine ⟨fun other taken => ?_, fun other taken low => ?_, fun other taken high => ?_, fun other taken more => ?_⟩
  all_goals rw [valid] at taken
  · exact linked.inRange other taken
  · rw [prev other taken]
    exact linked.first other taken low
  · obtain ⟨prevTaken, linkedNext, sameHead, lower⟩ := linked.back other taken high
    rw [prev other taken, valid, next _ prevTaken]
    exact ⟨prevTaken, linkedNext, sameHead, lower⟩
  · rw [next other taken] at more ⊢
    obtain ⟨nextTaken, high, back⟩ := linked.forward other taken more
    rw [valid, prev _ nextTaken]
    exact ⟨nextTaken, high, back⟩

end

end Updates

section Walks

variable {base total slot other : Nat} {links : Links} {head rank : Nat → Nat}

section

variable (linked : Linked base total links head rank) (valid : links.valid slot = true)
  (more : links.next slot ≠ 0)
include linked valid more

theorem Linked.next_rank : head (links.next slot) = head slot ∧ rank slot < rank (links.next slot) := by
  obtain ⟨nextValid, high, back⟩ := linked.forward slot valid more
  obtain ⟨-, -, sameHead, lower⟩ := linked.back _ nextValid high
  rw [back] at sameHead lower
  exact ⟨sameHead.symm, lower⟩

theorem Linked.next_ne : links.next slot ≠ slot := by
  intro same
  have grows := (linked.next_rank valid more).2
  rw [same] at grows
  exact lt_irrefl _ grows

end

def ahead (total : Nat) (links : Links) (rank : Nat → Nat) (slot : Nat) : Finset Nat :=
  (Finset.range total).filter fun other => links.valid other = true ∧ rank slot < rank other

section

variable (linked : Linked base total links head rank) (valid : links.valid slot = true)
include linked valid

theorem Linked.ahead_next (more : links.next slot ≠ 0) :
    (ahead total links rank (links.next slot)).card < (ahead total links rank slot).card := by
  have nextValid := (linked.forward slot valid more).1
  have grows := (linked.next_rank valid more).2
  refine Finset.card_lt_card ⟨fun other later => ?_, fun same => ?_⟩
  · simp only [ahead, Finset.mem_filter] at later ⊢
    exact ⟨later.1, later.2.1, lt_trans grows later.2.2⟩
  · have mem : links.next slot ∈ ahead total links rank slot := by
      simp only [ahead, Finset.mem_filter, Finset.mem_range]
      exact ⟨(linked.inRange _ nextValid).2, nextValid, grows⟩
    have later := same mem
    simp only [ahead, Finset.mem_filter] at later
    exact lt_irrefl _ later.2.2

theorem Linked.ahead_lt : (ahead total links rank slot).card < total := by
  have small : (ahead total links rank slot).card < (Finset.range total).card := by
    refine Finset.card_lt_card ⟨Finset.filter_subset _ _, fun all => ?_⟩
    have later := all (Finset.mem_range.mpr (linked.inRange slot valid).2)
    simp only [ahead, Finset.mem_filter] at later
    exact lt_irrefl _ later.2.2
  rwa [Finset.card_range] at small

theorem Linked.chain : ∃ chain, ChainFrom links.next slot chain ∧
      chain.length ≤ (ahead total links rank slot).card + 1 ∧
      ∀ other ∈ chain, links.valid other = true ∧ head other = head slot ∧ rank slot ≤ rank other := by
  generalize size : (ahead total links rank slot).card = steps
  induction steps using Nat.strongRecOn generalizing slot with
  | ind steps ih =>
    by_cases ends : links.next slot = 0
    · refine ⟨[slot], .last ends, by simp, fun other mem => ?_⟩
      rw [mem_singleton.mp mem]
      exact ⟨valid, rfl, le_rfl⟩
    obtain ⟨sameHead, grows⟩ := linked.next_rank valid ends
    have shorter := linked.ahead_next valid ends
    rw [size] at shorter
    obtain ⟨rest, tail, short, members⟩ :=
      ih _ shorter (linked.forward slot valid ends).1 rfl
    refine ⟨slot :: rest, .cons ends tail, by rw [length_cons]; omega, fun other mem => ?_⟩
    rcases mem_cons.mp mem with here | later
    · rw [here]
      exact ⟨valid, rfl, le_rfl⟩
    · obtain ⟨otherValid, otherHead, above⟩ := members other later
      exact ⟨otherValid, otherHead.trans sameHead, le_trans (le_of_lt grows) above⟩

theorem Linked.chain_nodup {chain : List Nat} (walked : ChainFrom links.next slot chain) :
    chain.Nodup ∧ ∀ other ∈ chain, rank slot ≤ rank other := by
  induction walked with
  | last ends => exact ⟨nodup_singleton _, by simp⟩
  | @cons slot rest more tail ih =>
    obtain ⟨nodup, above⟩ := ih (linked.forward slot valid more).1
    have grows := (linked.next_rank valid more).2
    refine ⟨nodup_cons.mpr ⟨fun mem => ?_, nodup⟩, fun other mem => ?_⟩
    · exact lt_irrefl _ (lt_of_lt_of_le grows (above slot mem))
    · rcases mem_cons.mp mem with here | later
      · rw [here]
      · exact le_trans (le_of_lt grows) (above other later)

end

theorem ChainFrom.unique {next} (walked : ChainFrom next slot chain) (again : ChainFrom next slot same) :
    chain = same := by
  induction walked generalizing same with
  | last ends =>
    cases again with
    | last => rfl
    | cons more => exact absurd ends more
  | cons more tail ih =>
    cases again with
    | last ends => exact absurd ends more
    | cons _ rest => rw [ih rest]

theorem ChainFrom.mem_iff {next} (walked : ChainFrom next slot chain) : other ∈ chain ↔ Reaches next slot other := by
  constructor
  · intro mem
    induction walked with
    | last => rw [mem_singleton.mp mem]; exact .here _
    | cons more tail ih =>
      rcases mem_cons.mp mem with here | later
      · rw [here]; exact .here _
      · exact .step more (ih later)
  · intro reaches
    induction walked with
    | last ends =>
      cases reaches with
      | here => exact mem_singleton_self _
      | step more => exact absurd ends more
    | cons more tail ih =>
      cases reaches with
      | here => exact mem_cons_self
      | step _ rest => exact mem_cons_of_mem _ (ih rest)

theorem Reaches.extend {next} (reaches : Reaches next slot other) (more : next other ≠ 0) :
    Reaches next slot (next other) := by
  induction reaches with
  | here => exact .step more (.here _)
  | step first rest ih => exact .step first (ih more)

section

variable (linked : Linked base total links head rank) (valid : links.valid slot = true)
include linked valid

theorem Linked.reaches_head (reaches : Reaches links.next slot other) :
    links.valid other = true ∧ head other = head slot := by
  induction reaches with
  | here => exact ⟨valid, rfl⟩
  | @step slot target more rest ih =>
    obtain ⟨otherValid, sameHead⟩ := ih (linked.forward slot valid more).1
    exact ⟨otherValid, sameHead.trans (linked.next_rank valid more).1⟩

theorem Linked.from_head : links.valid (head slot) = true ∧ head slot < base ∧ Reaches links.next (head slot) slot := by
  generalize level : rank slot = height
  induction height using Nat.strongRecOn generalizing slot with
  | ind height ih =>
    rcases lt_or_ge slot base with low | high
    · rw [(linked.first slot valid low).2]
      exact ⟨valid, low, .here _⟩
    obtain ⟨prevValid, linkedNext, sameHead, lower⟩ := linked.back slot valid high
    rw [level] at lower
    obtain ⟨headValid, headLow, reaches⟩ := ih _ lower prevValid rfl
    have extended := reaches.extend (by rw [linkedNext]; exact (linked.inRange slot valid).1)
    rw [linkedNext] at extended
    rw [← sameHead]
    exact ⟨headValid, headLow, extended⟩

theorem Linked.reaches_iff (low : start < base) (startValid : links.valid start = true) :
    Reaches links.next start slot ↔ head slot = start := by
  constructor
  · intro reaches
    rw [(linked.reaches_head startValid reaches).2, (linked.first start startValid low).2]
  · intro headed
    rw [← headed]
    exact (linked.from_head valid).2.2

end

end Walks

section Counts

variable {after : Nat → Bool} (first limit : Nat)

theorem occupied_insert (inserted : ∀ other, after other = (valid other || other == slot))
    (free : valid slot = false) : occupied after first limit =
      occupied valid first limit + if first ≤ slot ∧ slot < limit then 1 else 0 := by
  have same : ((Finset.Ico first limit).filter fun other => after other = true) = if first ≤ slot ∧ slot < limit then
        insert slot ((Finset.Ico first limit).filter fun other => valid other = true)
      else (Finset.Ico first limit).filter fun other => valid other = true := by
    split
    · grind
    · grind
  rw [occupied, same]
  split
  · rw [Finset.card_insert_of_notMem (by simp [free]), occupied]
  · rw [occupied, add_zero]

theorem occupied_remove (removed : ∀ other, after other = (valid other && other != slot))
    (taken : valid slot = true) : occupied valid first limit =
      occupied after first limit + if first ≤ slot ∧ slot < limit then 1 else 0 := by
  refine occupied_insert first limit (fun other => ?_) (by simp [removed])
  rw [removed]
  cases same : other == slot with
  | true => rw [beq_iff_eq.mp same, taken, Bool.or_true]
  | false => rw [bne, same, Bool.not_false, Bool.and_true, Bool.or_false]

end Counts

end KernelModules.Data

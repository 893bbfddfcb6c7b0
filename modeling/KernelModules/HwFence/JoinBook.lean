import KernelModules.HwFence.JoinCall

namespace KernelModules.HwFence

open List hiding after all count
open Data
open HwFenceDriverData hiding entries hwFencesTbl

/-! # The books of join fences

The book lists the live join fences with the slots of their children.  The fence controller signals fences.
-/

structure Join where
  hash : BitVec 64
  children : List Nat

structure Book where
  drvData : HwFenceDriverData
  joins : List Join

def Book.initial (tableEntries : BitVec 32) : Book := ⟨.initial tableEntries, []⟩

/-- When the fence controller signals a fence, it is marked, each parent waits for one child less as often as the
fence names it, and the other fences keep their lists. -/
structure FenceController where
  signal : HwFenceDriverData → Nat → HwFenceDriverData
  entries : ∀ drvData slot, (signal drvData slot).hwFenceTableEntries = drvData.hwFenceTableEntries
  same : ∀ drvData slot other, ((signal drvData slot).hwFencesTbl other).SameFence (drvData.hwFencesTbl other)
  marked : ∀ drvData slot, ((signal drvData slot).hwFencesTbl slot).signaled = true
  others : ∀ drvData slot other, other ≠ slot →
    ((signal drvData slot).hwFencesTbl other).signaled = (drvData.hwFencesTbl other).signaled ∧
    ((signal drvData slot).hwFencesTbl other).parentsCnt = (drvData.hwFencesTbl other).parentsCnt ∧
    ((signal drvData slot).hwFencesTbl other).parentList = (drvData.hwFencesTbl other).parentList
  counted : ∀ drvData slot other, ((signal drvData slot).hwFencesTbl other).pendingChildCnt =
      (drvData.hwFencesTbl other).pendingChildCnt -
        BitVec.ofNat 32 ((drvData.hwFencesTbl slot).parents.countP fun parent =>
          parent.toNat = other)

def DmaFenceArray.slots (array : DmaFenceArray) (drvData : HwFenceDriverData) : List Nat :=
  (List.range array.numFences.toNat).filterMap (array.slotAt drvData)

def TableCall.opened (drvData : HwFenceDriverData) : TableCall → List Join
  | .processFenceArray client array clientData =>
    match hwFenceProcessFenceArray drvData client array clientData with
    | some answer =>
      if answer.ret = 0 ∧ answer.signaled = false then [⟨answer.hash, array.slots answer.drvData⟩]
      else []
    | none => []
  | _ => []

def TableCall.hits (drvData : HwFenceDriverData) : TableCall → Option Nat
  | .destroy context seqno => (msmHwFenceFind drvData context seqno).map BitVec.toNat
  | .destroyWithHash clientId hash =>
    let fence := drvData.hwFencesTbl hash.toNat
    if hash.toNat < drvData.entries ∧ fence.fenceAllocator = clientId then
      (msmHwFenceFind drvData fence.ctxId fence.seqId).map BitVec.toNat
    else none
  | _ => none

inductive BookAction where
  | call (call : TableCall)
  | signal (slot : Nat)

def FenceController.step (controller : FenceController) (book : Book) : BookAction → Option Book
  | .call call => (call.perform book.drvData).map fun after =>
    ⟨after, call.opened book.drvData ++ book.joins.filter fun join => (after.hwFencesTbl join.hash.toNat).valid⟩
  | .signal slot => some ⟨controller.signal book.drvData slot, book.joins⟩

/-- A fence is signaled once; one that is destroyed is no child of a live join fence; and an array holds its fences. -/
def BookAction.InDomain (book : Book) : BookAction → Prop
  | .signal slot => (book.drvData.hwFencesTbl slot).valid = true ∧ (book.drvData.hwFencesTbl slot).signaled = false
  | .call (.processFenceArray _ array _) => ∀ idx, idx < array.numFences.toNat →
      ∃ child, array.fenceAt idx = some (some child)
  | .call other => ∀ slot, other.hits book.drvData = some slot → ∀ join ∈ book.joins, slot ∉ join.children

def BookAction.Guarded (book : Book) : BookAction → Prop
  | .signal _ => True
  | .call (.processFenceArray client array clientData) =>
    (clientData = 0 ∨ client.dataId ≠ none) → ∀ hash joined,
      openJoinFence book.drvData client array = some (hash, joined) → JoinsCleanly joined hash array
  | .call other => ∀ slot, other.hits book.drvData = some slot → ∀ join ∈ book.joins, join.hash.toNat = slot →
        ∀ child ∈ join.children, (book.drvData.hwFencesTbl child).signaled = true

/-- The parents of a waiting fence are the live join fences that contain it, as often as they do. -/
def Book.Listed (book : Book) : Prop :=
  ∀ slot, (book.drvData.hwFencesTbl slot).valid = true → (book.drvData.hwFencesTbl slot).signaled = false →
      (book.drvData.hwFencesTbl slot).parents.length = (book.drvData.hwFencesTbl slot).parentsCnt.toNat ∧
        (book.drvData.hwFencesTbl slot).parents.Perm
          (book.joins.flatMap fun join => .replicate (join.children.count slot) join.hash)

def Book.Counted (book : Book) : Prop :=
  ∀ join ∈ book.joins, (book.drvData.hwFencesTbl join.hash.toNat).pendingChildCnt.toNat =
    join.children.countP fun child => !(book.drvData.hwFencesTbl child).signaled

structure Book.Kept (book : Book) : Prop where
  blank : ∀ slot, (book.drvData.hwFencesTbl slot).valid = false → (book.drvData.hwFencesTbl slot).Blank
  room : ∀ slot, (book.drvData.hwFencesTbl slot).signaled = false →
    (book.drvData.hwFencesTbl slot).parentsCnt.toNat < msmHwFenceMaxJoinParents
  alone : (book.joins.map Join.hash).Nodup
  live : ∀ join ∈ book.joins, (book.drvData.hwFencesTbl join.hash.toNat).valid = true
  held : ∀ join ∈ book.joins, ∀ slot ∈ join.children, (book.drvData.hwFencesTbl slot).valid = true
  small : ∀ join ∈ book.joins, join.children.length < 2 ^ 32
  listed : ∀ slot, (book.drvData.hwFencesTbl slot).valid = true →
    (book.drvData.hwFencesTbl slot).signaled = false → (book.drvData.hwFencesTbl slot).parents.Perm
        (book.joins.flatMap fun join => .replicate (join.children.count slot) join.hash)
  counted : ∀ join ∈ book.joins, (book.drvData.hwFencesTbl join.hash.toNat).pendingChildCnt =
    BitVec.ofNat 32 (join.children.countP fun child => !(book.drvData.hwFencesTbl child).signaled)

section Books

variable {book : Book}

theorem Book.Kept.tidy (kept : book.Kept) : Tidy book.drvData where
  blank := kept.blank
  room := kept.room
  listed := fun slot valid waits parent mem => by
    have named := (kept.listed slot valid waits).mem_iff.mp mem
    obtain ⟨join, inBook, copies⟩ := mem_flatMap.mp named
    rw [eq_of_mem_replicate copies]
    exact kept.live join inBook

theorem MsmHwFence.SameBooks.signaled {fence : MsmHwFence} (same : fence.SameBooks other) :
    fence.signaled = other.signaled := by
  unfold MsmHwFence.signaled
  rw [same.2.1]

theorem Book.Kept.grown (kept : book.Kept) (grown : Grown book.drvData after) : Book.Kept ⟨after, book.joins⟩ where
  blank := fun slot free => by
    cases valid : (book.drvData.hwFencesTbl slot).valid with
    | true => exact absurd (free.symm.trans ((grown.kept slot valid).1.trans valid)) (by decide)
    | false => exact grown.blank slot valid
  room := fun slot waits => by
    cases valid : (book.drvData.hwFencesTbl slot).valid with
    | true =>
      have same := grown.kept slot valid
      rw [same.signaled] at waits
      rw [same.2.2.2.1]
      exact kept.room slot waits
    | false =>
      rw [(grown.blank slot valid).2]
      decide
  alone := kept.alone
  live := fun join mem => (grown.kept _ (kept.live join mem)).1.trans (kept.live join mem)
  held := fun join mem slot child =>
    (grown.kept _ (kept.held join mem slot child)).1.trans (kept.held join mem slot child)
  small := kept.small
  listed := fun slot valid waits => by
    cases old : (book.drvData.hwFencesTbl slot).valid with
    | true =>
      have same := grown.kept slot old
      rw [same.signaled] at waits
      rw [same.2.2.2.2]
      exact kept.listed slot old waits
    | false =>
      have nobody : (book.joins.flatMap fun join =>
          replicate (join.children.count slot) join.hash) = [] := by
        rw [flatMap_eq_nil_iff]
        intro join mem
        have none : join.children.count slot = 0 := by
          rw [count_eq_zero]
          intro child
          exact absurd (old.symm.trans (kept.held join mem slot child)) (by decide)
        rw [none]
        rfl
      rw [(grown.blank slot old).parents, nobody]
  counted := fun join mem => by
    have same := grown.kept _ (kept.live join mem)
    rw [same.2.2.1, kept.counted join mem]
    congr 1
    refine countP_congr fun child inside => ?_
    rw [(grown.kept child (kept.held join mem child inside)).signaled]

theorem flatMap_filter_nil {joins : List Join} {parents : Join → List (BitVec 64)}
    (none : ∀ join ∈ joins, keep join = false → parents join = []) :
    (joins.filter keep).flatMap parents = joins.flatMap parents := by
  induction joins with
  | nil => rfl
  | cons join joins ih =>
    have rest := ih fun other mem => none other (mem_cons_of_mem _ mem)
    cases kept : keep join with
    | true => rw [filter_cons_of_pos kept, flatMap_cons, flatMap_cons, rest]
    | false =>
      rw [filter_cons_of_neg (by rw [kept]; decide), rest, flatMap_cons, none join (mem_cons_self ..) kept, nil_append]

theorem Book.Kept.destroyed (kept : book.Kept) (childless : ∀ join ∈ book.joins, slot ∉ join.children)
    (done : ∀ join ∈ book.joins, join.hash.toNat = slot →
      ∀ child ∈ join.children, (book.drvData.hwFencesTbl child).signaled = true) :
    Book.Kept ⟨book.drvData.put slot (unreserveHwFence (book.drvData.hwFencesTbl slot)),
      book.joins.filter fun join => ((book.drvData.put slot
        (unreserveHwFence (book.drvData.hwFencesTbl slot))).hwFencesTbl join.hash.toNat).valid⟩ := by
  generalize emptied : book.drvData.put slot (unreserveHwFence (book.drvData.hwFencesTbl slot)) = next
  have here : next.hwFencesTbl slot = unreserveHwFence (book.drvData.hwFencesTbl slot) := by
    rw [← emptied, put_slot]
  have others : ∀ other, other ≠ slot → next.hwFencesTbl other = book.drvData.hwFencesTbl other := by
    intro other apart
    rw [← emptied, put_other apart]
  have stays : ∀ join ∈ book.joins.filter (fun join => (next.hwFencesTbl join.hash.toNat).valid),
      join ∈ book.joins ∧ join.hash.toNat ≠ slot := by
    intro join mem
    obtain ⟨old, valid⟩ := mem_filter.mp mem
    refine ⟨old, ?_⟩
    rintro same
    rw [same, here] at valid
    cases valid
  have childOthers : ∀ join ∈ book.joins, ∀ child ∈ join.children,
      next.hwFencesTbl child = book.drvData.hwFencesTbl child := by
    intro join mem child inside
    refine others child ?_
    rintro rfl
    exact childless join mem inside
  exact {
    blank := fun other free => by
      by_cases same : other = slot
      · rw [same]
        rw [here]
        exact ⟨MsmHwFence.signaled_cleared rfl, rfl⟩
      · rw [others other same] at free ⊢
        exact kept.blank other free
    room := fun other waits => by
      by_cases same : other = slot
      · rw [same]
        rw [here]
        exact show (0 : BitVec 32).toNat < msmHwFenceMaxJoinParents by decide
      · rw [others other same] at waits ⊢
        exact kept.room other waits
    alone := kept.alone.sublist (filter_sublist.map _)
    live := fun join mem => (mem_filter.mp mem).2
    held := fun join mem child inside => by
      obtain ⟨old, -⟩ := stays join mem
      rw [childOthers join old child inside]
      exact kept.held join old child inside
    small := fun join mem => kept.small join (stays join mem).1
    listed := fun other valid waits => by
      have apart : other ≠ slot := by
        rintro rfl
        rw [here] at valid
        cases valid
      rw [others other apart] at valid waits ⊢
      rw [flatMap_filter_nil]
      · exact kept.listed other valid waits
      · intro join mem gone
        have same : join.hash.toNat = slot := by
          by_contra elsewhere
          rw [others _ elsewhere, kept.live join mem] at gone
          cases gone
        have none : join.children.count other = 0 := by
          rw [count_eq_zero]
          intro inside
          rw [done join mem same other inside] at waits
          cases waits
        rw [none]
        rfl
    counted := fun join mem => by
      obtain ⟨old, apart⟩ := stays join mem
      rw [others _ apart, kept.counted join old]
      congr 1
      refine countP_congr fun child inside => ?_
      rw [childOthers join old child inside] }

theorem countP_without {slots : List Nat} {after : Nat → Bool} (here : counts slot = true)
    (gone : after slot = false) (others : ∀ other, other ≠ slot → after other = counts other) :
    slots.countP after + slots.count slot = slots.countP counts := by
  induction slots with
  | nil => rfl
  | cons first slots ih =>
    rw [countP_cons, countP_cons, count_cons]
    by_cases same : first = slot
    · rw [same, here, gone]
      simp only [beq_self_eq_true, if_true]
      rw [if_neg Bool.false_ne_true]
      omega
    · rw [others first same, if_neg (by simpa using same : ¬ (first == slot) = true)]
      omega

theorem countP_named {joins : List Join} {times : Join → Nat} (alone : (joins.map Join.hash).Nodup)
    (mem : join ∈ joins) : (joins.flatMap fun join => replicate (times join) join.hash).countP
      (fun parent => parent.toNat = join.hash.toNat) = times join := by
  induction joins with
  | nil => cases mem
  | cons first joins ih =>
    rw [map_cons, nodup_cons] at alone
    obtain ⟨apart, alone⟩ := alone
    rw [flatMap_cons, countP_append]
    rcases mem_cons.mp mem with rfl | later
    · have rest : (joins.flatMap fun join => replicate (times join) join.hash).countP
          (fun parent => parent.toNat = join.hash.toNat) = 0 := by
        rw [countP_eq_zero]
        intro parent named same
        obtain ⟨other, otherMember, copies⟩ := mem_flatMap.mp named
        rw [eq_of_mem_replicate copies, decide_eq_true_eq] at same
        rw [← BitVec.eq_of_toNat_eq same] at apart
        exact apart (mem_map_of_mem otherMember)
      rw [rest, countP_replicate, if_pos (decide_eq_true rfl), add_zero]
    · have different : ¬ decide (first.hash.toNat = join.hash.toNat) = true := by
        rw [decide_eq_true_eq]
        intro same
        rw [BitVec.eq_of_toNat_eq same] at apart
        exact apart (mem_map_of_mem later)
      rw [ih alone later, countP_replicate, if_neg different, zero_add]

theorem Book.Kept.signal (kept : book.Kept) (controller : FenceController)
    (valid : (book.drvData.hwFencesTbl slot).valid = true)
    (waits : (book.drvData.hwFencesTbl slot).signaled = false) :
    Book.Kept ⟨controller.signal book.drvData slot, book.joins⟩ where
  blank := fun other free => by
    have same := controller.same book.drvData slot other
    have apart : other ≠ slot := by
      rintro rfl
      exact absurd (free.symm.trans (same.1.trans valid)) (by decide)
    obtain ⟨signaled, count, -⟩ := controller.others book.drvData slot other apart
    obtain ⟨quiet, none⟩ := kept.blank other (same.1.symm.trans free)
    exact ⟨signaled.trans quiet, count.trans none⟩
  room := fun other otherWaits => by
    have apart : other ≠ slot := by
      rintro rfl
      rw [controller.marked] at otherWaits
      cases otherWaits
    obtain ⟨signaled, count, -⟩ := controller.others book.drvData slot other apart
    rw [count]
    exact kept.room other (signaled.symm.trans otherWaits)
  alone := kept.alone
  live := fun join mem => (controller.same _ _ _).1.trans (kept.live join mem)
  held := fun join mem child inside =>
    (controller.same _ _ _).1.trans (kept.held join mem child inside)
  small := kept.small
  listed := fun other otherValid otherWaits => by
    have apart : other ≠ slot := by
      rintro rfl
      rw [controller.marked] at otherWaits
      cases otherWaits
    obtain ⟨signaled, count, list⟩ := controller.others book.drvData slot other apart
    unfold MsmHwFence.parents
    rw [count, list]
    exact kept.listed other ((controller.same _ _ _).1.symm.trans otherValid) (signaled.symm.trans otherWaits)
  counted := fun join mem => by
    -- the signaled fence names the join fence as often as the join fence contains it
    have named : ((book.drvData.hwFencesTbl slot).parents.countP fun parent =>
        parent.toNat = join.hash.toNat) = join.children.count slot := by
      rw [(kept.listed slot valid waits).countP_eq]
      exact countP_named kept.alone mem
    have fewer : (join.children.countP fun child =>
          !((controller.signal book.drvData slot).hwFencesTbl child).signaled) +
        join.children.count slot = join.children.countP fun child => !(book.drvData.hwFencesTbl child).signaled := by
      refine countP_without (by rw [waits]; rfl) (by rw [controller.marked]; rfl) ?_
      intro other apart
      rw [(controller.others book.drvData slot other apart).1]
    rw [controller.counted, named, kept.counted join mem, ← fewer, BitVec.ofNat_add, BitVec.add_sub_cancel]

theorem Book.Kept.joined {hash : BitVec 64} (kept : book.Kept)
    (joined : Joined book.drvData after array hash children) : Book.Kept ⟨after, ⟨hash, children⟩ :: book.joins⟩ := by
  obtain ⟨⟨opening, opened, attaching⟩, -, len, valid⟩ := joined
  have apart : ∀ slot, (book.drvData.hwFencesTbl slot).valid = true → slot ≠ hash.toNat := by
    rintro slot alive rfl
    exact absurd (opened.free.symm.trans alive) (by decide)
  have sameValid : ∀ slot, slot ≠ hash.toNat →
      (after.hwFencesTbl slot).valid = (book.drvData.hwFencesTbl slot).valid := by
    intro slot different
    rw [(attaching.same slot).1, opened.others slot different]
  have sameSignaled : ∀ slot, slot ≠ hash.toNat →
      (after.hwFencesTbl slot).signaled = (book.drvData.hwFencesTbl slot).signaled := by
    intro slot different
    rw [attaching.signaled slot, opened.others slot different]
  have named : (after.hwFencesTbl hash.toNat).valid = true :=
    (attaching.same hash.toNat).1.trans opened.valid
  have absent : ∀ slot, (after.hwFencesTbl slot).valid = false → children.count slot = 0 := by
    intro slot free
    rw [count_eq_zero]
    intro mem
    rw [valid slot mem] at free
    cases free
  exact {
    blank := fun slot free => by
      have different : slot ≠ hash.toNat := by
        rintro rfl
        exact absurd (free.symm.trans named) (by decide)
      obtain ⟨quiet, none⟩ := kept.blank slot ((sameValid slot different).symm.trans free)
      refine ⟨(sameSignaled slot different).trans quiet, ?_⟩
      have count := attaching.parentsCnt slot (by rw [opened.others slot different]; exact quiet)
      rw [absent slot free, opened.others slot different, none] at count
      exact BitVec.eq_of_toNat_eq count
    room := fun slot waits => attaching.room slot ((attaching.signaled slot).symm.trans waits)
    alone := by
      rw [map_cons, nodup_cons]
      refine ⟨fun mem => ?_, kept.alone⟩
      obtain ⟨join, inBook, same⟩ := mem_map.mp mem
      exact apart _ (kept.live join inBook) (congrArg BitVec.toNat same)
    live := fun join mem => by
      rcases mem_cons.mp mem with rfl | old
      · exact named
      · have alive := kept.live join old
        exact (sameValid _ (apart _ alive)).trans alive
    held := fun join mem slot child => by
      rcases mem_cons.mp mem with rfl | old
      · exact valid slot child
      · have alive := kept.held join old slot child
        exact (sameValid _ (apart _ alive)).trans alive
    small := fun join mem => by
      rcases mem_cons.mp mem with rfl | old
      · rw [len]
        exact array.numFences.isLt
      · exact kept.small join old
    listed := fun slot alive waits => by
      have quiet := (attaching.signaled slot).symm.trans waits
      have parents := attaching.parents slot quiet
      have before : (opening.hwFencesTbl slot).parents.Perm
          (book.joins.flatMap fun join => .replicate (join.children.count slot) join.hash) := by
        by_cases here : slot = hash.toNat
        · have nobody : (book.joins.flatMap fun join =>
              replicate (join.children.count slot) join.hash) = [] := by
            rw [flatMap_eq_nil_iff]
            intro join mem
            have none : join.children.count slot = 0 := by
              rw [count_eq_zero]
              exact fun child => apart slot (kept.held join mem slot child) here
            rw [none]
            rfl
          rw [nobody, here, MsmHwFence.Blank.parents ⟨opened.signaled, opened.parentsCnt⟩]
        · rw [opened.others slot here]
          refine kept.listed slot ((sameValid slot here).symm.trans alive) ?_
          exact (sameSignaled slot here).symm.trans waits
      rw [parents]
      exact perm_append_comm.trans (before.append_left _)
    counted := fun join mem => by
      rcases mem_cons.mp mem with rfl | old
      · have count : signaledCount opening children =
            children.countP fun child => (after.hwFencesTbl child).signaled :=
          countP_congr fun child _ => by rw [attaching.signaled child]
        have waiting : (children.countP fun child => !(after.hwFencesTbl child).signaled) =
            children.countP fun child => ¬ (after.hwFencesTbl child).signaled = true :=
          countP_congr fun child _ => by simp
        have total : array.numFences = BitVec.ofNat 32
            (signaledCount opening children +
              children.countP fun child => !(after.hwFencesTbl child).signaled) := by
          rw [count, waiting, ← length_eq_countP_add_countP, len, BitVec.ofNat_toNat, BitVec.setWidth_eq]
        rw [attaching.pending, opened.pending, total, BitVec.ofNat_add, BitVec.add_comm, BitVec.add_sub_cancel]
      · have alive := kept.live join old
        rw [attaching.otherPending _ (apart _ alive), opened.others _ (apart _ alive), kept.counted join old]
        congr 1
        refine countP_congr fun child inside => ?_
        rw [sameSignaled child (apart _ (kept.held join old child inside))] }

theorem Book.Kept.filtered (kept : book.Kept) (grown : Grown book.drvData after) : Book.Kept ⟨after,
      book.joins.filter fun join => (after.hwFencesTbl join.hash.toNat).valid⟩ := by
  have all : (book.joins.filter fun join => (after.hwFencesTbl join.hash.toNat).valid) = book.joins := by
    rw [filter_eq_self]
    intro join mem
    have alive := kept.live join mem
    exact (grown.kept _ alive).1.trans alive
  rw [all]
  exact kept.grown grown

section

variable {drvData : HwFenceDriverData} (tidy : Tidy drvData)
include tidy

theorem Tidy.grown : Grown drvData drvData :=
  (Restored.refl tidy).toGrown

theorem Tidy.created (clientId : BitVec 32) (ctx seqno : BitVec 64) :
    Grown drvData (hwFenceCreate drvData clientId ctx seqno).drvData := by
  unfold hwFenceCreate
  cases scanned : foundStep drvData ctx seqno (.create clientId) with
  | none =>
    obtain ⟨last, missed⟩ := lookup_missed scanned
    rw [missed]
    exact tidy.grown
  | some found =>
    obtain ⟨inside, success, -⟩ := foundStep_eq_some_iff.mp scanned
    rw [LookupOp.verdict_creates rfl] at success
    have free : (drvData.probed ctx seqno found).valid = false := by
      split at success
      · split at success <;> cases success
      · rename_i free
        exact (Bool.not_eq_true _).mp free
    rw [lookup_found scanned]
    refine ⟨fun slot valid => ?_, fun slot empty => ?_⟩
    · have apart : slot ≠ drvData.probe ctx seqno found := by
        rintro rfl
        exact absurd (free.symm.trans valid) (by decide)
      rw [put_other apart]
      exact ⟨rfl, rfl, rfl, rfl, rfl⟩
    · by_cases here : slot = drvData.probe ctx seqno found
      · rw [here, put_slot]
        exact ⟨MsmHwFence.signaled_cleared rfl, rfl⟩
      · rw [put_other here]
        exact tidy.blank slot empty

theorem Tidy.registered (client : WaitClient) (context seqno clientData : BitVec 64) :
    Grown drvData (hwFenceRegisterWaitClient drvData client context seqno clientData).drvData := by
  unfold hwFenceRegisterWaitClient
  split
  · exact tidy.grown
  split
  · exact tidy.grown
  rename_i hash found
  have same : ∀ slot, ((drvData.put hash.toNat (((drvData.hwFencesTbl hash.toNat).addWaitClient
      client).storeClientData client clientData)).hwFencesTbl slot).SameBooks (drvData.hwFencesTbl slot) := by
    intro slot
    by_cases here : slot = hash.toNat
    · obtain ⟨flags, count, list, pending⟩ := storeClientData_frame
        ((drvData.hwFencesTbl hash.toNat).addWaitClient client) client clientData
      obtain ⟨valid, -⟩ := storeClientData_sameFence
        ((drvData.hwFencesTbl hash.toNat).addWaitClient client) client clientData
      rw [here, put_slot]
      refine ⟨valid, flags, pending, count, ?_⟩
      unfold MsmHwFence.parents
      rw [count, list]
      rfl
    · rw [put_other here]
      exact ⟨rfl, rfl, rfl, rfl, rfl⟩
  refine ⟨fun slot _ => same slot, fun slot free => ?_⟩
  obtain ⟨quiet, none⟩ := tidy.blank slot free
  exact ⟨(same slot).signaled.trans quiet, (same slot).2.2.2.1.trans none⟩

end

theorem Book.Kept.cleanedUp (kept : book.Kept) (ctx seqno : BitVec 64)
    (childless : ∀ slot, (msmHwFenceFind book.drvData ctx seqno).map BitVec.toNat = some slot →
      ∀ join ∈ book.joins, slot ∉ join.children)
    (done : ∀ slot, (msmHwFenceFind book.drvData ctx seqno).map BitVec.toNat = some slot →
      ∀ join ∈ book.joins, join.hash.toNat = slot →
        ∀ child ∈ join.children, (book.drvData.hwFencesTbl child).signaled = true) :
    Book.Kept ⟨(hwFenceCleanup book.drvData ctx seqno).2, book.joins.filter fun join =>
      ((hwFenceCleanup book.drvData ctx seqno).2.hwFencesTbl join.hash.toNat).valid⟩ := by
  cases scanned : foundStep book.drvData ctx seqno .findFence with
  | none =>
    rw [cleanup_missed scanned]
    exact kept.filtered kept.tidy.grown
  | some found =>
    have place := book.drvData.probe_toNat (Nat.zero_lt_of_lt (foundStep_find_iff.mp scanned).1) ctx seqno found
    have leads : (msmHwFenceFind book.drvData ctx seqno).map BitVec.toNat =
        some (book.drvData.probe ctx seqno found) := by
      rw [find_found scanned, Option.map_some, place]
    rw [cleanup_found scanned]
    exact kept.destroyed (childless _ leads) (done _ leads)

theorem Book.Kept.step {controller : FenceController} {next : Book} (kept : book.Kept) (inDomain : action.InDomain book)
    (guarded : action.Guarded book) (stepped : controller.step book action = some next) : next.Kept := by
  cases action with
  | signal slot =>
    cases stepped
    exact kept.signal controller inDomain.1 inDomain.2
  | call call =>
    obtain ⟨after, performed, rfl⟩ := Option.map_eq_some_iff.mp stepped
    cases call with
    | create clientId context seqno =>
      cases performed
      exact kept.filtered (kept.tidy.created clientId context seqno)
    | destroy context seqno =>
      cases performed
      exact kept.cleanedUp context seqno inDomain guarded
    | destroyWithHash clientId hash =>
      cases performed
      unfold BookAction.InDomain TableCall.hits at inDomain
      unfold BookAction.Guarded TableCall.hits at guarded
      unfold hwFenceDestroyWithHash getHwFence
      dsimp only at inDomain guarded ⊢
      by_cases inside : hash.toNat < book.drvData.entries
      · rw [if_neg (by omega : ¬ hash.toNat ≥ book.drvData.entries)]
        by_cases own : (book.drvData.hwFencesTbl hash.toNat).fenceAllocator = clientId
        · rw [if_pos ⟨inside, own⟩] at inDomain guarded
          dsimp only
          rw [if_neg (not_not.mpr own)]
          exact kept.cleanedUp _ _ inDomain guarded
        · dsimp only
          rw [if_pos own]
          exact kept.filtered kept.tidy.grown
      · rw [if_pos (by omega : hash.toNat ≥ book.drvData.entries)]
        exact kept.filtered kept.tidy.grown
    | registerWaitClient client context seqno clientData =>
      cases performed
      exact kept.filtered (kept.tidy.registered client context seqno clientData)
    | processFenceArray client array clientData =>
      obtain ⟨answer, processed, rfl⟩ := Option.map_eq_some_iff.mp performed
      obtain ⟨other, sameCall, out⟩ := processFenceArray_outcome kept.tidy client array clientData inDomain guarded
      rw [processed] at sameCall
      cases sameCall
      unfold TableCall.opened
      dsimp only
      rw [processed]
      dsimp only
      rcases out with ⟨ended, restored⟩ | ⟨success, silent, children, joined⟩
      · have closed : ¬ (answer.ret = 0 ∧ answer.signaled = false) := by
          rintro ⟨success, silent⟩
          rcases ended with failed | signaled
          · exact failed success
          · exact absurd (silent.symm.trans signaled) (by decide)
        rw [if_neg closed]
        exact kept.filtered restored.toGrown
      · have joinedKept := kept.joined joined
        have all : (book.joins.filter fun join =>
            (answer.drvData.hwFencesTbl join.hash.toNat).valid) = book.joins := by
          rw [filter_eq_self]
          exact fun join mem => joinedKept.live join (mem_cons_of_mem _ mem)
        unfold DmaFenceArray.slots
        rw [if_pos ⟨success, silent⟩, all, joined.slots]
        exact joinedKept

theorem Book.Kept.listing (kept : book.Kept) : book.Listed := by
  intro slot valid waits
  exact ⟨MsmHwFence.parents_length (kept.room slot waits), kept.listed slot valid waits⟩

theorem Book.Kept.counting (kept : book.Kept) : book.Counted := by
  intro join mem
  have small := kept.small join mem
  have fewer : (join.children.countP fun child => !(book.drvData.hwFencesTbl child).signaled) ≤
      join.children.length := countP_le_length
  rw [kept.counted join mem, BitVec.toNat_ofNat, Nat.mod_eq_of_lt (by omega)]

theorem Book.initial_kept (tableEntries : BitVec 32) : (Book.initial tableEntries).Kept where
  blank := fun _ _ => ⟨MsmHwFence.signaled_cleared rfl, rfl⟩
  room := fun _ _ => show (0 : BitVec 32).toNat < msmHwFenceMaxJoinParents by decide
  alone := nodup_nil
  live := fun _ mem => absurd mem not_mem_nil
  held := fun _ mem => absurd mem not_mem_nil
  small := fun _ mem => absurd mem not_mem_nil
  listed := fun _ valid => absurd valid Bool.false_ne_true
  counted := fun _ mem => absurd mem not_mem_nil

end Books

/-- In every run whose arrays join cleanly and that destroys no waiting join fence: the parents of a waiting fence
are the live join fences that contain it, each join fence waits for its unsignaled children, and a failed call
restores both. -/
theorem join_books_kept (controller : FenceController) (tableEntries : BitVec 32) (book : Book)
    (reached : Reachable controller.step (fun book action => action.InDomain book ∧ action.Guarded book)
      (.initial tableEntries) book) :
    book.Listed ∧ book.Counted ∧ ∀ client array clientData,
      (BookAction.call (.processFenceArray client array clientData)).InDomain book →
        (BookAction.call (.processFenceArray client array clientData)).Guarded book →
          ∃ answer, hwFenceProcessFenceArray book.drvData client array clientData = some answer ∧
            (answer.ret ≠ 0 → Restored book.drvData answer.drvData) := by
  have kept : book.Kept := reached.invariant Book.Kept (Book.initial_kept tableEntries)
    fun before action after kept permitted stepped =>
      Book.Kept.step kept permitted.1 permitted.2 stepped
  refine ⟨kept.listing, kept.counting, fun client array clientData inDomain guarded => ?_⟩
  obtain ⟨answer, processed, outcome⟩ := processFenceArray_outcome kept.tidy client array
    clientData inDomain guarded
  refine ⟨answer, processed, fun failed => ?_⟩
  rcases outcome with ⟨-, restored⟩ | ⟨success, -⟩
  · exact restored
  · exact absurd success failed

def countingController : FenceController where
  signal := fun drvData slot => { drvData with
    hwFencesTbl := fun index =>
      let fence := drvData.hwFencesTbl index
      { fence with
        flags := if index = slot then fence.flags ||| msmHwFenceFlagSignal else fence.flags
        pendingChildCnt := fence.pendingChildCnt -
          BitVec.ofNat 32 ((drvData.hwFencesTbl slot).parents.countP fun parent =>
            parent.toNat = index) } }
  entries := fun _ _ => rfl
  same := fun _ _ _ => ⟨rfl, rfl, rfl, rfl⟩
  marked := fun drvData slot => by
    unfold MsmHwFence.signaled msmHwFenceFlagSignal
    dsimp only
    rw [if_pos rfl, bne_iff_ne]
    intro none
    have bit := congrArg (fun word : BitVec 64 => word.getLsbD 0) none
    simp at bit
  others := fun drvData slot other different => by
    unfold MsmHwFence.signaled
    dsimp only
    rw [if_neg different]
    exact ⟨rfl, rfl, rfl⟩
  counted := fun _ _ _ => rfl

/-- The cleanup of an empty array reads a fence that the array does not have; and the children
of a join fence that is destroyed keep it as a parent. -/
theorem join_books_broken : hwFenceProcessFenceArray (.initial 1) ⟨1, none⟩ ⟨1, 1, 0, some []⟩ 0 = none ∧
      ∃ book, runActions countingController.step (fun _ _ => True) (.initial 2) [.call (.create 1 1 3),
          .call (.processFenceArray ⟨1, none⟩ ⟨1, 1, 1, some [some ⟨1, 3, false, true⟩]⟩ 0),
          .call (.destroy 1 1)] = some book ∧ ¬ book.Listed := by
  have undefined : (hwFenceProcessFenceArray (.initial 1) ⟨1, none⟩ ⟨1, 1, 0, some []⟩ 0).isNone = true := by decide
  refine ⟨Option.isNone_iff_eq_none.mp undefined, ran_to (fun book => book.joins.length = 0 ∧
    (book.drvData.hwFencesTbl 0).valid = true ∧ (book.drvData.hwFencesTbl 0).signaled = false ∧
      (book.drvData.hwFencesTbl 0).parents.length = 1) (by decide)
    fun book _ ⟨gone, valid, waits, parent⟩ listed => ?_⟩
  have sameLength := (listed 0 valid waits).2.length_eq
  rw [List.length_eq_zero_iff.mp gone, parent] at sameLength
  cases sameLength

theorem join_books_kept_attached : ∃ book, Reachable countingController.step
        (fun book action => action.InDomain book ∧ action.Guarded book) (.initial 2) book ∧
      book.joins.length = 1 ∧ book.Listed ∧ book.Counted := by
  let array : DmaFenceArray := ⟨1, 1, 1, some [some ⟨1, 3, false, true⟩]⟩
  let before : Book := ⟨(hwFenceCreate (.initial 2) 1 1 3).drvData, []⟩
  have creates : countingController.step (.initial 2) (.call (.create 1 1 3)) = some before := rfl
  have permitted : (BookAction.call (.create 1 1 3)).InDomain (.initial 2) ∧
      (BookAction.call (.create 1 1 3)).Guarded (.initial 2) := by
    refine ⟨?_, ?_⟩ <;> rintro _ ⟨⟩
  have created : Reachable countingController.step
      (fun book action => action.InDomain book ∧ action.Guarded book) (.initial 2) before :=
    .next .start permitted creates
  have attaches : (countingController.step before
      (.call (.processFenceArray ⟨1, none⟩ array 0))).map (fun book => decide (book.joins.length = 1)) =
        some true := by decide
  obtain ⟨book, attached, one⟩ := Option.map_eq_some_iff.mp attaches
  have opens : (openJoinFence before.drvData ⟨1, none⟩ array).map (fun entry =>
      decide ((entry.2.hwFencesTbl 0).valid = true ∧ (entry.2.hwFencesTbl 0).signaled = false ∧
        array.slotAt entry.2 0 = some 0)) = some true := by decide
  have guarded : (BookAction.call (.processFenceArray ⟨1, none⟩ array 0)).Guarded before := by
    intro _ hash joined opened
    rw [opened, Option.map_some, Option.some.injEq, decide_eq_true_eq] at opens
    obtain ⟨valid, waits, place⟩ := opens
    refine ⟨?_, fun _ idx slot below found => ?_, fun idx fails index slot within found signaled => ?_⟩
    · rintro ⟨⟩
    · obtain rfl : idx = 0 := Nat.lt_one_iff.mp below
      rw [place] at found
      cases found
      exact valid
    · rcases fails.2 with ⟨below, -⟩ | ⟨empty, -⟩
      · obtain rfl : idx = 0 := Nat.lt_one_iff.mp below
        obtain rfl : index = 0 := Nat.le_zero.mp within
        rw [place] at found
        cases found
        exact absurd (waits.symm.trans signaled) (by decide)
      · cases empty
  have holds : (BookAction.call (.processFenceArray ⟨1, none⟩ array 0)).InDomain before := by
    intro idx below
    obtain rfl : idx = 0 := Nat.lt_one_iff.mp below
    exact ⟨_, rfl⟩
  have reached := Reachable.next created ⟨holds, guarded⟩ attached
  obtain ⟨listed, counted, -⟩ := join_books_kept countingController 2 book reached
  exact ⟨book, reached, of_decide_eq_true one, listed, counted⟩

end KernelModules.HwFence

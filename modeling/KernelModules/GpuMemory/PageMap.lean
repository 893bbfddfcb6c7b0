import KernelModules.GpuMemory.Binding

namespace KernelModules.GpuMemory

open Data BindEntry

/-! # Binding page by page

The tree read as a map from pages to children.  An unbind takes whole ranges, which is page by page only if none
sticks out of the window.
-/

def pageMap (ranges : List BindRange) (page : Nat) : Option Nat :=
  (ranges.find? fun range => range.Covers (pageAddr page)).map BindRange.entry

def BindEntry.applyTo (op : BindEntry) (map : Nat → Option Nat) (page : Nat) : Option Nat :=
  if op.window.Covers (pageAddr page) then if op.bind then op.entry
    else if op.entry = none ∨ op.entry = map page then none
    else map page
  else map page

variable {ranges : List BindRange} {size entry : Nat} {op : BindEntry}

theorem pageMap_eq_some (formed : WellFormed size ranges) :
    pageMap ranges page = some entry ↔ Binds ranges page entry := by
  unfold pageMap
  rw [Option.map_eq_some_iff]
  constructor
  · rintro ⟨range, found, same⟩
    have covers := List.find?_some found
    exact ⟨range, List.mem_of_find?_eq_some found, of_decide_eq_true covers, same⟩
  · rintro ⟨range, mem, covers, same⟩
    cases found : ranges.find? fun range => range.Covers (pageAddr page) with
    | none => exact absurd (decide_eq_true covers) (List.find?_eq_none.mp found range mem)
    | some other =>
      have also := List.find?_some found
      have here : other ∈ ranges := List.mem_of_find?_eq_some found
      exact ⟨other, rfl, formed.unique mem here covers (of_decide_eq_true also) ▸ same⟩

/-- What `kgsl_sharedmem_create_bind_op` lets through. -/
structure BindEntry.Admitted (size : Nat) (op : BindEntry) : Prop where
  proper : op.start ≤ op.last
  inside : op.last < size
  paged : PageSpan op.window
  named : op.bind = true → op.entry ≠ none

def BindEntry.KeepsWhole (op : BindEntry) (ranges : List BindRange) : Prop :=
  op.bind = false → ∀ range ∈ ranges, range.toSpan.Overlaps op.window →
    op.entry = none ∨ op.entry = some range.entry → range.toSpan.Within op.window

theorem pageAddr_div (aligned : place % 4096 = 0) : pageAddr (place / 4096) = place := by
  unfold pageAddr
  omega

theorem exists_page_outside {range : BindRange} {window : Span} (paged : PageSpan range.toSpan)
    (windowPaged : PageSpan window) (overlap : range.toSpan.Overlaps window) (sticks : ¬range.toSpan.Within window) :
    ∃ page, range.Covers (pageAddr page) ∧ ¬window.Covers (pageAddr page) := by
  unfold Span.Overlaps at overlap
  unfold Span.Within at sticks
  by_cases low : range.start < window.start
  · refine ⟨range.start / 4096, ?_⟩
    rw [pageAddr_div paged.1]
    exact ⟨⟨le_rfl, by omega⟩, fun covers => not_le.mpr low covers.1⟩
  · refine ⟨(window.last + 1) / 4096, ?_⟩
    rw [pageAddr_div windowPaged.2]
    exact ⟨⟨by omega, by omega⟩, fun covers => Nat.not_succ_le_self _ covers.2⟩

namespace Vbo

variable {vbo : Vbo} {answers : MmuAnswers} {start last : Nat}

section

variable (formed : WellFormed size vbo.ranges) (unmaps : ∀ turn, answers.unmapRange turn = true)
include formed unmaps

theorem removeRange_binds : Binds (vbo.removeRange start last child answers).ranges page entry ↔
      ∃ range ∈ vbo.ranges, (range.Covers (pageAddr page) ∧ range.entry = entry) ∧
        ¬(range.toSpan.Overlaps { start, last } ∧ (child = none ∨ child = some range.entry)) := by
  refine exists_congr fun range => ?_
  rw [removeRange_ok formed unmaps]
  exact ⟨fun ⟨⟨mem, stays⟩, binds⟩ => ⟨mem, binds, stays⟩, fun ⟨mem, binds, stays⟩ => ⟨⟨mem, stays⟩, binds⟩⟩

theorem removeRange_inside (inside : Span.Covers { start, last } (pageAddr page)) :
    pageMap (vbo.removeRange start last child answers).ranges page =
      if child = none ∨ child = pageMap vbo.ranges page then none else pageMap vbo.ranges page := by
  refine Option.ext fun entry => ?_
  rw [pageMap_eq_some (removeRange_formed formed), removeRange_binds formed unmaps]
  have overlap {range : BindRange} (covers : range.Covers (pageAddr page)) :
      range.toSpan.Overlaps { start, last } := by
    by_contra apart
    exact (Span.not_overlaps.mp apart).not_covers covers inside
  constructor
  · rintro ⟨range, mem, ⟨covers, rfl⟩, stays⟩
    have bound : pageMap vbo.ranges page = some range.entry :=
      (pageMap_eq_some formed).mpr ⟨range, mem, covers, rfl⟩
    rw [bound, if_neg fun chosen => stays ⟨overlap covers, chosen⟩]
  · intro stays
    split at stays
    · cases stays
    · rename_i unchosen
      rw [stays] at unchosen
      obtain ⟨range, mem, covers, rfl⟩ := (pageMap_eq_some formed).mp stays
      exact ⟨range, mem, ⟨covers, rfl⟩, fun gone => unchosen gone.2⟩

theorem removeRange_outside : pageMap (vbo.removeRange start last child answers).ranges page = pageMap vbo.ranges page ↔
      ∀ range ∈ vbo.ranges, range.Covers (pageAddr page) →
        ¬(range.toSpan.Overlaps { start, last } ∧ (child = none ∨ child = some range.entry)) := by
  constructor
  · intro same range mem covers gone
    have bound : pageMap vbo.ranges page = some range.entry :=
      (pageMap_eq_some formed).mpr ⟨range, mem, covers, rfl⟩
    rw [bound, pageMap_eq_some (removeRange_formed formed), removeRange_binds formed unmaps] at same
    obtain ⟨other, also, ⟨shared, -⟩, stays⟩ := same
    exact stays (formed.unique mem also covers shared ▸ gone)
  · intro kept
    refine Option.ext fun entry => ?_
    rw [pageMap_eq_some (removeRange_formed formed), removeRange_binds formed unmaps, pageMap_eq_some formed]
    constructor
    · rintro ⟨range, mem, binds, -⟩
      exact ⟨range, mem, binds⟩
    · rintro ⟨range, mem, binds⟩
      exact ⟨range, mem, binds, kept range mem binds.1⟩

end

theorem checkTarget_ok (checked : vbo.checkTarget range = .ok ()) (start : op.start = range.targetOffset)
    (last : op.last = range.targetOffset + range.length - 1) (named : op.bind = true → op.entry ≠ none) :
    op.Admitted vbo.size := by
  have bounded := range.length_u64
  unfold checkTarget at checked
  split at checked
  · cases checked
  split at checked
  · cases checked
  split at checked
  · cases checked
  rename_i aligned sized fits
  unfold pageAligned at aligned sized
  unfold checkRange at fits
  simp only [Bool.not_eq_true', decide_eq_false_iff_not, not_or, not_not] at aligned sized fits
  constructor
  · omega
  · omega
  · unfold PageSpan window
    dsimp only
    omega
  · exact named

theorem checkChild_ok {child : ChildEntry} (checked : vbo.checkChild range child = .ok op) :
    op.start = range.targetOffset ∧
      op.last = range.targetOffset + range.length - 1 ∧ op.entry = some range.childId := by
  unfold checkChild at checked
  repeat' split at checked
  all_goals cases checked
  exact ⟨rfl, rfl, rfl⟩

theorem createLoop_admitted (sized : vbo.size = size) (admitted : ∀ op ∈ ops, op.Admitted size)
    (looped : createLoop env given count held ops vbo = (created, .ok result)) : ∀ op ∈ result, op.Admitted size := by
  induction given generalizing count held ops vbo with
  | nil =>
    cases looped
    exact admitted
  | cons range rest ih =>
    have join {op : BindEntry} (one : op.Admitted size) : ∀ each ∈ ops ++ [op], each.Admitted size :=
      List.forall_mem_append.mpr ⟨admitted, List.forall_mem_singleton.mpr one⟩
    unfold createLoop at looped
    split at looped
    · cases looped
    split at looped
    · cases looped
    rename_i checked
    split at looped
    · refine ih sized (join ?_) looped
      rw [← sized]
      exact checkTarget_ok checked rfl rfl fun binds => absurd binds Bool.false_ne_true
    · split at looped
      · cases looped
      · dsimp only at looped
        split at looped
        · cases looped
        · rename_i made
          obtain ⟨start, last, named⟩ := checkChild_ok made
          have counted : (vbo.hold range.childId).size = size := sized
          refine ih counted (join ?_) looped
          rw [← sized]
          exact checkTarget_ok checked start last fun _ => by rw [named]; exact Option.some_ne_none _

theorem createBindOp_admitted (accepted : vbo.createBindOp env given = (created, .ok ops)) :
    ∀ op ∈ ops, op.Admitted vbo.size := by
  unfold createBindOp at accepted
  split at accepted
  · cases accepted
  split at accepted
  · cases accepted
  split at accepted
  · cases accepted
  · exact createLoop_admitted rfl (List.forall_mem_nil _) accepted

end Vbo

structure BindTurn where
  op : BindEntry
  allocated : Bool
  answers : MmuAnswers

namespace Vbo

variable {vbo : Vbo} {turn : BindTurn} {turns : List BindTurn}

def takeTurn (vbo : Vbo) (turn : BindTurn) : Vbo := (vbo.bindOne turn.op turn.allocated turn.answers).1

/-- `kgsl_sharedmem_bind_worker` -/
def work (vbo : Vbo) (turns : List BindTurn) : Vbo := turns.foldl takeTurn vbo

def Succeeds (vbo : Vbo) (turn : BindTurn) : Prop :=
  if turn.op.bind then (vbo.bindOne turn.op turn.allocated turn.answers).2 = true
  else ∀ count, turn.answers.unmapRange count = true

def Pagewise (vbo : Vbo) (turn : BindTurn) : Prop :=
  pageMap (vbo.takeTurn turn).ranges = turn.op.applyTo (pageMap vbo.ranges)

def Along (holds : Vbo → BindTurn → Prop) : List BindTurn → Vbo → Prop
  | [], _ => True
  | turn :: rest, vbo => holds vbo turn ∧ Along holds rest (vbo.takeTurn turn)

theorem bindOne_bind (binds : op.bind = true) (named : op.entry = some entry) : vbo.bindOne op alloc answers =
      vbo.addRange op.start op.last entry op.childOffset alloc answers := by
  unfold bindOne
  rw [binds, named]

theorem bindOne_unbind (unbinds : op.bind = false) : vbo.bindOne op allocated answers =
    (vbo.removeRange op.start op.last op.entry answers, true) := by
  unfold bindOne
  rw [unbinds]

section

variable (formed : WellFormed size vbo.ranges) (admitted : turn.op.Admitted size)
include formed admitted

theorem bind_formed_pagewise (binds : turn.op.bind = true) (succeeds : vbo.Succeeds turn) :
    WellFormed size (vbo.takeTurn turn).ranges ∧ vbo.Pagewise turn := by
  unfold Succeeds at succeeds
  rw [if_pos binds] at succeeds
  unfold Pagewise takeTurn
  obtain ⟨entry, named⟩ := Option.ne_none_iff_exists'.mp (admitted.named binds)
  rw [bindOne_bind binds named] at succeeds ⊢
  obtain ⟨after, added⟩ : ∃ after, vbo.addRange turn.op.start turn.op.last entry turn.op.childOffset
      turn.allocated turn.answers = (after, true) := ⟨_, Prod.ext rfl succeeds⟩
  obtain ⟨kept, bound⟩ := addRange_ok formed admitted.proper admitted.inside admitted.paged added
  rw [added]
  refine ⟨kept, funext fun page => Option.ext fun child => ?_⟩
  rw [pageMap_eq_some kept, bound]
  unfold applyTo window
  split
  · rw [named, Option.some.injEq, eq_comm]
  · exact (pageMap_eq_some formed).symm

theorem unbind_formed_pagewise (unbinds : turn.op.bind = false) (succeeds : vbo.Succeeds turn) :
    WellFormed size (vbo.takeTurn turn).ranges ∧ (vbo.Pagewise turn ↔ turn.op.KeepsWhole vbo.ranges) := by
  unfold Succeeds at succeeds
  rw [if_neg (by rw [unbinds]; exact Bool.false_ne_true)] at succeeds
  have removed : vbo.takeTurn turn = vbo.removeRange turn.op.start turn.op.last turn.op.entry turn.answers := by
    rw [takeTurn, bindOne_unbind unbinds]
  unfold Pagewise
  rw [removed]
  refine ⟨removeRange_formed formed, ?_⟩
  constructor
  · intro same _ range mem overlap chosen
    by_contra sticks
    obtain ⟨page, covers, outside⟩ :=
      exists_page_outside (formed.paged range mem) admitted.paged overlap sticks
    have here := congrFun same page
    unfold applyTo at here
    rw [if_neg outside, removeRange_outside formed succeeds] at here
    exact here range mem covers ⟨overlap, chosen⟩
  · intro whole
    refine funext fun page => ?_
    unfold applyTo
    split
    · rename_i inside
      rw [removeRange_inside formed succeeds inside, unbinds]
      rfl
    · rename_i outside
      refine (removeRange_outside formed succeeds).mpr fun range mem covers gone => outside ?_
      have lt := whole unbinds range mem gone.1 gone.2
      exact ⟨le_trans lt.1 covers.1, le_trans covers.2 lt.2⟩

theorem takeTurn_pagewise (succeeds : vbo.Succeeds turn) : WellFormed size (vbo.takeTurn turn).ranges ∧
      (vbo.Pagewise turn ↔ turn.op.KeepsWhole vbo.ranges) := by
  cases binds : turn.op.bind with
  | true =>
    obtain ⟨kept, pagewise⟩ := bind_formed_pagewise formed admitted binds succeeds
    refine ⟨kept, iff_of_true pagewise fun unbinds => ?_⟩
    rw [binds] at unbinds
    cases unbinds
  | false => exact unbind_formed_pagewise formed admitted binds succeeds

end

theorem along_pagewise (formed : WellFormed size vbo.ranges)
    (admitted : ∀ turn ∈ turns, turn.op.Admitted size) (succeed : Along Succeeds turns vbo) :
    Along Pagewise turns vbo ↔ Along (fun vbo turn => turn.op.KeepsWhole vbo.ranges) turns vbo := by
  induction turns generalizing vbo with
  | nil => exact Iff.rfl
  | cons turn rest ih =>
    obtain ⟨first, admitted⟩ := List.forall_mem_cons.mp admitted
    obtain ⟨kept, pagewise⟩ := takeTurn_pagewise formed first succeed.1
    exact and_congr pagewise (ih kept admitted succeed.2)

theorem work_pageMap (pagewise : Along Pagewise turns vbo) : pageMap (vbo.work turns).ranges =
    (turns.map BindTurn.op).foldl (fun map op => op.applyTo map) (pageMap vbo.ranges) := by
  induction turns generalizing vbo with
  | nil => rfl
  | cons turn rest ih =>
    have first : pageMap (vbo.takeTurn turn).ranges = turn.op.applyTo (pageMap vbo.ranges) := pagewise.1
    have later := ih pagewise.2
    rw [first] at later
    exact later

/-- The worker acts page by page exactly if no range sticks out of a window that it is unbound from,
and then its run is the operations applied in order to the page map. -/
theorem worker_pagewise {env : BindEnv} {given : List GpumemBindRange} {ops : List BindEntry}
    {target created : Vbo} (accepted : target.createBindOp env given = (created, .ok ops))
    (sized : vbo.size = target.size) (formed : WellFormed vbo.size vbo.ranges)
    (worked : turns.map BindTurn.op = ops) (succeed : Along Succeeds turns vbo) :
    (Along Pagewise turns vbo ↔ Along (fun vbo turn => turn.op.KeepsWhole vbo.ranges) turns vbo) ∧
      (Along (fun vbo turn => turn.op.KeepsWhole vbo.ranges) turns vbo →
        pageMap (vbo.work turns).ranges = ops.foldl (fun map op => op.applyTo map) (pageMap vbo.ranges)) := by
  have admitted : ∀ turn ∈ turns, turn.op.Admitted vbo.size := by
    intro turn member
    rw [sized]
    exact createBindOp_admitted accepted turn.op (worked ▸ List.mem_map_of_mem member)
  have pagewise := along_pagewise formed admitted succeed
  refine ⟨pagewise, fun whole => ?_⟩
  rw [work_pageMap (pagewise.mpr whole), worked]

def allSucceed : MmuAnswers := ⟨true, fun _ => true, fun _ => true, true⟩

def childEnv : BindEnv := ⟨fun _ => some ⟨false, false, 12288⟩, fun _ => true, true, .ok ()⟩

def boundObject : Vbo := { init 12288 true false with ranges := [⟨⟨0, 12287⟩, 1⟩] }

def bindMiddle : BindTurn := ⟨⟨some 2, 4096, 8191, 0, true⟩, true, allSucceed⟩

def unbindMiddle (child : Nat) : BindTurn := ⟨⟨some child, 4096, 8191, 0, false⟩, true, allSucceed⟩

theorem boundObject_formed : WellFormed boundObject.size boundObject.ranges :=
  ⟨by decide, by decide, by decide, List.pairwise_singleton ..⟩

theorem worker_pagewise_two : pageMap (boundObject.work [bindMiddle, unbindMiddle 2]).ranges =
      [bindMiddle.op, (unbindMiddle 2).op].foldl (fun map op => op.applyTo map)
        (pageMap boundObject.ranges) := by
  have accepted : ∃ created, boundObject.createBindOp childEnv
      [⟨0, 4096, 4096, 2, 1, by decide⟩, ⟨0, 4096, 4096, 2, 2, by decide⟩] =
        (created, .ok [bindMiddle.op, (unbindMiddle 2).op]) := ⟨_, rfl⟩
  obtain ⟨created, accepted⟩ := accepted
  have succeed : Along Succeeds [bindMiddle, unbindMiddle 2] boundObject := ⟨rfl, fun _ => rfl, trivial⟩
  have whole : Along (fun vbo turn => turn.op.KeepsWhole vbo.ranges) [bindMiddle, unbindMiddle 2]
      boundObject := by
    refine ⟨fun never => absurd never.symm Bool.false_ne_true, fun _ => ?_, trivial⟩
    decide
  exact (worker_pagewise accepted rfl boundObject_formed rfl succeed).2 whole

/-- An unbind of the middle page takes the pages around it as well. -/
theorem unbind_takes_more : ¬∀ (target vbo created : Vbo) (env : BindEnv)
    (given : List GpumemBindRange) (ops : List BindEntry) (turns : List BindTurn),
    target.createBindOp env given = (created, .ok ops) → vbo.size = target.size →
      WellFormed vbo.size vbo.ranges → turns.map BindTurn.op = ops → Along Succeeds turns vbo →
        Along Pagewise turns vbo := by
  intro always
  have pagewise := always boundObject boundObject _ childEnv [⟨0, 4096, 4096, 1, 2, by decide⟩]
    [(unbindMiddle 1).op] [unbindMiddle 1] rfl rfl boundObject_formed
    rfl ⟨fun _ => rfl, trivial⟩
  have first : (none : Option Nat) = some 1 := congrFun pagewise.1 0
  cases first

end Vbo

end KernelModules.GpuMemory

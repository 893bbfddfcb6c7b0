import Mathlib.Data.List.Nodup
import KernelModules.Data.Run

namespace KernelModules.KgslTimeline

open Data List Function

/-! # Fences of a software timeline

The timeline lists the fences it has not reached; one whose last reference is gone stays until its release callback
has run.
-/

/-- `kgsl_timeline_fence` with its `dma_fence`. -/
structure TimelineFence where
  seqno : Nat
  refcount : Nat
  /-- `timeline_fence_release` has run. -/
  released : Bool
  signaled : Bool
  error : Bool
  completed : List Bool

/-- `dma_fence_signal_locked` -/
def TimelineFence.signalLocked (fence : TimelineFence) : TimelineFence :=
  if fence.signaled then fence
  else { fence with signaled := true, completed := fence.completed ++ [fence.error] }

/-- What the destruction of a timeline does with a fence: `dma_fence_set_error`, signal and put. -/
def TimelineFence.cancel (fence : TimelineFence) : TimelineFence :=
  let fence := { fence with error := true }.signalLocked
  { fence with refcount := fence.refcount - 1 }

inductive DestroyPhase where
  | alive
  /-- The fences have been taken from the list but not been signaled. -/
  | destroying
  | destroyed
deriving DecidableEq

/-- The part of `kgsl_timeline` that its fences are about. -/
structure FenceTimeline where
  value : Nat
  /-- Sorted by seqno. -/
  fences : List Nat
  fence : Nat → TimelineFence
  count : Nat
  phase : DestroyPhase
  active : List Nat
  taken : List Nat

inductive FenceAction where
  /-- `kgsl_timeline_fence_alloc` -/
  | alloc (seqno : Nat)
  | get (id : Nat)
  | put (id : Nat)
  /-- `timeline_fence_release` -/
  | release (id : Nat)
  | poll (id : Nat)
  /-- `kgsl_timeline_signal` -/
  | signal (seqno : Nat)
  /-- The two halves of `kgsl_ioctl_timeline_destroy`. -/
  | destroyTake
  | destroySignal

namespace FenceTimeline

def init (value : Nat) : FenceTimeline where
  value
  fences := []
  fence _ := ⟨0, 0, false, false, false, []⟩
  count := 0
  phase := .alive
  active := []
  taken := []

/-- `timeline_fence_signaled` -/
def fenceSignaled (timeline : FenceTimeline) (id : Nat) : Bool := (timeline.fence id).seqno ≤ timeline.value

def setFence (timeline : FenceTimeline) (id : Nat) (fence : TimelineFence) : FenceTimeline :=
  { timeline with fence := Function.update timeline.fence id fence }

def forEach (timeline : FenceTimeline) (change : TimelineFence → TimelineFence) (ids : List Nat) : FenceTimeline :=
  ids.foldl (fun timeline id => timeline.setFence id (change (timeline.fence id))) timeline

/-- The walk of `kgsl_timeline_add_fence`. -/
def insertFence (timeline : FenceTimeline) (id : Nat) : List Nat → List Nat
  | [] => [id]
  | entry :: rest =>
    if (timeline.fence id).seqno < (timeline.fence entry).seqno then id :: entry :: rest
    else entry :: insertFence timeline id rest

/-- `kgsl_timeline_fence_alloc`; the test whether the fence is signaled signals it. -/
def fenceAlloc (timeline : FenceTimeline) (seqno : Nat) : FenceTimeline :=
  let id := timeline.count
  let fence : TimelineFence := ⟨seqno, 1, false, false, false, []⟩
  let timeline := { timeline.setFence id fence with count := id + 1 }
  if timeline.fenceSignaled id then timeline.setFence id fence.signalLocked
  else { timeline with fences := timeline.insertFence id timeline.fences }

/-- The fence is moved to the private list of `kgsl_timeline_signal`: it is reached, and not about to be released. -/
def moves (timeline : FenceTimeline) (id : Nat) : Bool :=
  timeline.fenceSignaled id ∧ (timeline.fence id).refcount ≠ 0

/-- `kgsl_timeline_signal`; each of the moved fences is signaled and the reference on it put. -/
def signal (timeline : FenceTimeline) (seqno : Nat) : FenceTimeline :=
  if seqno < timeline.value then timeline
  else let timeline := { timeline with value := seqno }
    let temp := timeline.fences.filter timeline.moves
    { timeline with fences := timeline.fences.filter fun id => !timeline.moves id }.forEach
      TimelineFence.signalLocked temp

def held (timeline : FenceTimeline) (id : Nat) : Nat :=
  (timeline.fence id).refcount - timeline.taken.count id

def step (timeline : FenceTimeline) : FenceAction → Option FenceTimeline
  | .alloc seqno => some (timeline.fenceAlloc seqno)
  | .get id =>
    let fence := timeline.fence id
    if timeline.held id = 0 then none
    else some (timeline.setFence id { fence with refcount := fence.refcount + 1 })
  | .put id =>
    let fence := timeline.fence id
    if timeline.held id = 0 then none
    else some (timeline.setFence id { fence with refcount := fence.refcount - 1 })
  | .release id =>
    let fence := timeline.fence id
    if timeline.count ≤ id ∨ fence.refcount ≠ 0 ∨ fence.released then none
    else some { timeline.setFence id { fence with released := true } with fences := timeline.fences.erase id }
  | .poll id =>
    if timeline.held id = 0 then none
    else if timeline.fenceSignaled id then some (timeline.setFence id (timeline.fence id).signalLocked)
    else some timeline
  | .signal seqno => some (timeline.signal seqno)
  | .destroyTake =>
    if timeline.phase ≠ .alive then none
    else let temp := timeline.fences.filter fun id => (timeline.fence id).refcount ≠ 0
      some ({ timeline with fences := [], phase := .destroying, active := temp, taken := temp }.forEach
        (fun fence => { fence with refcount := fence.refcount + 1 }) temp)
  | .destroySignal =>
    if timeline.phase ≠ .destroying then none
    else some ({ timeline with phase := .destroyed, taken := [] }.forEach TimelineFence.cancel timeline.taken)

variable {timeline after : FenceTimeline} {fence : TimelineFence} {id : Nat} {action : FenceAction}

theorem forEach_eq (once : ids.Nodup) : timeline.forEach change ids =
    { timeline with fence := fun id => if id ∈ ids then change (timeline.fence id) else timeline.fence id } := by
  induction ids generalizing timeline with
  | nil => simp [forEach]
  | cons first rest ih =>
    obtain ⟨new, once⟩ := nodup_cons.mp once
    have later : timeline.forEach change (first :: rest) =
        (timeline.setFence first (change (timeline.fence first))).forEach change rest := rfl
    rw [later, ih once]
    unfold setFence
    congr 1
    funext id
    dsimp only
    by_cases same : id = first
    · rw [same, if_neg new, if_pos mem_cons_self, update_self]
    · simp [same]

structure Fair (value : Nat) (phase : DestroyPhase) (active : Prop) (fence : TimelineFence) : Prop where
  released : fence.released = true → fence.refcount = 0
  unsignaled : fence.signaled = false → fence.completed = [] ∧ fence.error = false
  signaled : fence.signaled = true → fence.completed = [false] ∧ fence.seqno ≤ value ∨
    fence.completed = [true] ∧ active ∧ phase = .destroyed
  reached : fence.refcount ≠ 0 → fence.seqno ≤ value → ¬active → fence.signaled = true
  destroyed : phase = .destroyed → active → fence.signaled = true

structure Kept (timeline : FenceTimeline) : Prop where
  fair : ∀ id < timeline.count, Fair timeline.value timeline.phase (id ∈ timeline.active) (timeline.fence id)
  fresh : ∀ id, timeline.count ≤ id → (timeline.fence id).refcount = 0
  sorted : timeline.fences.Pairwise fun id other =>
    (timeline.fence id).seqno ≤ (timeline.fence other).seqno
  once : timeline.fences.Nodup
  listed : ∀ id ∈ timeline.fences, id < timeline.count ∧ id ∉ timeline.active ∧
    (timeline.fence id).released = false ∧ (timeline.fence id).signaled = false ∧
    ((timeline.fence id).refcount ≠ 0 → timeline.value < (timeline.fence id).seqno)
  complete : ∀ id < timeline.count, id ∉ timeline.active → (timeline.fence id).refcount ≠ 0 →
    timeline.value < (timeline.fence id).seqno → id ∈ timeline.fences
  known : timeline.active.Nodup ∧ ∀ id ∈ timeline.active, id < timeline.count
  taken : ∀ id ∈ timeline.taken, (timeline.fence id).refcount ≠ 0
  destroying : timeline.taken = if timeline.phase = .destroying then timeline.active else []
  alive : timeline.phase = .alive → timeline.active = []

namespace Kept

theorem init (value : Nat) : (FenceTimeline.init value).Kept := by
  refine ⟨fun _ never => absurd never (Nat.not_lt_zero _), fun _ _ => rfl, .nil, .nil,
    forall_mem_nil _, fun _ never => absurd never (Nat.not_lt_zero _), ⟨.nil, forall_mem_nil _⟩,
    forall_mem_nil _, rfl, fun _ => rfl⟩

theorem below (kept : timeline.Kept) (held : (timeline.fence id).refcount ≠ 0) : id < timeline.count :=
  Nat.not_le.mp fun fresh => held (kept.fresh id fresh)

theorem setFence (kept : timeline.Kept) (seqno : fence.seqno = (timeline.fence id).seqno)
    (fair : Fair timeline.value timeline.phase (id ∈ timeline.active) fence)
    (listed : id ∈ timeline.fences → fence.released = false ∧ fence.signaled = false)
    (refs : fence.refcount ≠ 0 → (timeline.fence id).refcount ≠ 0)
    (taken : id ∈ timeline.taken → fence.refcount ≠ 0) : (timeline.setFence id fence).Kept := by
  have seqnos (other : Nat) : ((timeline.setFence id fence).fence other).seqno = (timeline.fence other).seqno := by
    unfold FenceTimeline.setFence
    dsimp only
    by_cases same : other = id
    · rw [same, update_self, seqno]
    · rw [update_of_ne same]
  have here : (timeline.setFence id fence).fence id = fence := update_self ..
  have there {other : Nat} (apart : other ≠ id) :
      (timeline.setFence id fence).fence other = timeline.fence other := update_of_ne apart ..
  have counts (other : Nat) (held : ((timeline.setFence id fence).fence other).refcount ≠ 0) :
      (timeline.fence other).refcount ≠ 0 := by
    by_cases same : other = id
    · rw [same, here] at held
      exact same ▸ refs held
    · rw [there same] at held
      exact held
  refine ⟨fun other lt => ?_, fun other fresh => ?_, ?_, kept.once, fun other mem => ?_,
    fun other lt inactive held ahead => ?_, kept.known, fun other mem => ?_, kept.destroying, kept.alive⟩
  · by_cases same : other = id
    · rw [same, here]
      exact fair
    · rw [there same]
      exact kept.fair other lt
  · by_contra held
    exact counts other held (kept.fresh other fresh)
  · refine kept.sorted.imp fun {one two} order => ?_
    rw [seqnos, seqnos]
    exact order
  · obtain ⟨lt, inactive, unreleased, unsignaled, ahead⟩ := kept.listed other mem
    refine ⟨lt, inactive, ?_, ?_, fun held => ?_⟩
    · by_cases same : other = id
      · rw [same, here]
        exact (listed (same ▸ mem)).1
      · rw [there same]
        exact unreleased
    · by_cases same : other = id
      · rw [same, here]
        exact (listed (same ▸ mem)).2
      · rw [there same]
        exact unsignaled
    · rw [seqnos]
      exact ahead (counts other held)
  · rw [seqnos] at ahead
    exact kept.complete other lt inactive (counts other held) ahead
  · by_cases same : other = id
    · rw [same, here]
      exact taken (same ▸ mem)
    · rw [there same]
      exact kept.taken other mem

theorem held_refcount (held : timeline.held id ≠ 0) : (timeline.fence id).refcount ≠ 0 := by
  unfold FenceTimeline.held at held
  omega

theorem get (kept : timeline.Kept) (taken : timeline.step (.get id) = some after) : after.Kept := by
  rw [step] at taken
  split at taken
  · cases taken
  rename_i held
  cases taken
  have refs := held_refcount held
  have lt := kept.below refs
  have fair := kept.fair id lt
  refine kept.setFence rfl { fair with
      released := fun gone => absurd (fair.released gone) refs, reached := fun _ => fair.reached refs }
    (fun mem => ?_) (fun _ => refs) fun _ => ?_
  · exact ⟨(kept.listed id mem).2.2.1, (kept.listed id mem).2.2.2.1⟩
  · exact Nat.succ_ne_zero _

theorem put (kept : timeline.Kept) (taken : timeline.step (.put id) = some after) : after.Kept := by
  rw [step] at taken
  split at taken
  · cases taken
  rename_i held
  cases taken
  have refs := held_refcount held
  have lt := kept.below refs
  have fair := kept.fair id lt
  refine kept.setFence rfl { fair with
      released := fun gone => absurd (fair.released gone) refs, reached := fun _ => fair.reached refs }
    (fun mem => ?_) (fun _ => refs)
    fun mem => ?_
  · exact ⟨(kept.listed id mem).2.2.1, (kept.listed id mem).2.2.2.1⟩
  · have counted : 0 < timeline.taken.count id := count_pos_iff.mpr mem
    unfold FenceTimeline.held at held
    dsimp only
    omega

end Kept

theorem signalLocked_frame : fence.signalLocked.refcount = fence.refcount ∧
    fence.signalLocked.released = fence.released ∧ fence.signalLocked.seqno = fence.seqno := by
  unfold TimelineFence.signalLocked
  split <;> exact ⟨rfl, rfl, rfl⟩

theorem signalLocked_signaled : fence.signalLocked.signaled = true := by
  unfold TimelineFence.signalLocked
  split
  · assumption
  · rfl

theorem Fair.signalLocked {value : Nat} {phase : DestroyPhase} {active : Prop}
    (fair : Fair value phase active fence) (forward : value ≤ later) (reached : fence.seqno ≤ later) :
    Fair later phase active fence.signalLocked := by
  refine ⟨?_, fun never => ?_, fun _ => ?_, fun _ _ _ => signalLocked_signaled, fun _ _ => signalLocked_signaled⟩
  · rw [signalLocked_frame.2.1, signalLocked_frame.1]
    exact fair.released
  · rw [signalLocked_signaled] at never
    cases never
  · cases signaled : fence.signaled with
    | true =>
      have same : fence.signalLocked = fence := if_pos signaled
      rw [same]
      exact (fair.signaled signaled).imp (fun both => ⟨both.1, Nat.le_trans both.2 forward⟩) id
    | false =>
      obtain ⟨completed, error⟩ := fair.unsignaled signaled
      refine .inl ⟨?_, signalLocked_frame.2.2.symm ▸ reached⟩
      unfold TimelineFence.signalLocked
      rw [if_neg (by rw [signaled]; exact Bool.false_ne_true), completed, error]
      rfl

namespace Kept

theorem poll (kept : timeline.Kept) (taken : timeline.step (.poll id) = some after) : after.Kept := by
  rw [step] at taken
  split at taken
  · cases taken
  rename_i held
  have refs := held_refcount held
  have lt := kept.below refs
  split at taken
  · rename_i reached
    cases taken
    have reached : (timeline.fence id).seqno ≤ timeline.value := of_decide_eq_true reached
    refine kept.setFence signalLocked_frame.2.2 ((kept.fair id lt).signalLocked (Nat.le_refl _) reached)
      (fun mem => ?_) (fun _ => refs) fun _ => ?_
    · exact absurd reached (Nat.not_le.mpr ((kept.listed id mem).2.2.2.2 refs))
    · rw [signalLocked_frame.1]
      exact refs
  · cases taken
    exact kept

theorem unlist (kept : timeline.Kept) (gone : (timeline.fence id).refcount = 0) :
    Kept { timeline with fences := timeline.fences.erase id } := by
  refine { kept with
      sorted := kept.sorted.sublist erase_sublist, once := kept.once.erase id,
      listed := fun other mem => kept.listed other (mem_of_mem_erase mem),
      complete := fun other lt inactive held ahead => ?_ }
  refine (mem_erase_of_ne ?_).mpr (kept.complete other lt inactive held ahead)
  rintro rfl
  exact held gone

theorem release (kept : timeline.Kept) (taken : timeline.step (.release id) = some after) : after.Kept := by
  rw [step] at taken
  split at taken
  · cases taken
  rename_i ready
  cases taken
  have lt : id < timeline.count := Nat.not_le.mp fun fresh => ready (.inl fresh)
  have gone : (timeline.fence id).refcount = 0 := by
    by_contra held
    exact ready (.inr (.inl held))
  have fair := kept.fair id lt
  refine (kept.unlist gone).setFence rfl
    { fair with released := fun _ => gone } (fun mem => ?_)
    (fun held => held) ?_
  · exact absurd mem kept.once.not_mem_erase
  · exact kept.taken id

end Kept

theorem insertFence_perm : (timeline.insertFence id rest).Perm (id :: rest) := by
  induction rest with
  | nil => exact .refl _
  | cons entry rest ih =>
    unfold insertFence
    split
    · exact .refl _
    · exact (ih.cons entry).trans (List.Perm.swap id entry rest)

theorem insertFence_sorted (timeline : FenceTimeline)
    (sorted : rest.Pairwise fun id other => (timeline.fence id).seqno ≤ (timeline.fence other).seqno) :
    (timeline.insertFence id rest).Pairwise fun id other =>
      (timeline.fence id).seqno ≤ (timeline.fence other).seqno := by
  induction rest with
  | nil => exact pairwise_singleton ..
  | cons entry rest ih =>
    obtain ⟨above, sorted⟩ := pairwise_cons.mp sorted
    unfold insertFence
    split
    · rename_i lower
      refine pairwise_cons.mpr ⟨fun other member => ?_, pairwise_cons.mpr ⟨above, sorted⟩⟩
      obtain rfl | member := mem_cons.mp member
      · exact Nat.le_of_lt lower
      · exact Nat.le_trans (Nat.le_of_lt lower) (above other member)
    · rename_i higher
      refine pairwise_cons.mpr ⟨fun other member => ?_, ih sorted⟩
      obtain rfl | member := mem_cons.mp (insertFence_perm.mem_iff.mp member)
      · exact Nat.not_lt.mp higher
      · exact above other member

namespace Kept

section

variable (kept : timeline.Kept)
include kept

theorem grow (fair : Fair timeline.value timeline.phase False fence)
    (sorted : ids.Pairwise fun id other => ((timeline.setFence timeline.count fence).fence id).seqno ≤
      ((timeline.setFence timeline.count fence).fence other).seqno)
    (same : ids.Perm timeline.fences ∧ fence.seqno ≤ timeline.value ∨
      ids.Perm (timeline.count :: timeline.fences) ∧ timeline.value < fence.seqno ∧
        fence.released = false ∧ fence.signaled = false) :
    Kept { timeline.setFence timeline.count fence with count := timeline.count + 1, fences := ids } := by
  have here : (timeline.setFence timeline.count fence).fence timeline.count = fence :=
    update_self ..
  have there {other : Nat} (apart : other ≠ timeline.count) :
      (timeline.setFence timeline.count fence).fence other = timeline.fence other :=
    update_of_ne apart ..
  have old (other : Nat) (lt : other < timeline.count) :
      (timeline.setFence timeline.count fence).fence other = timeline.fence other :=
    there (Nat.ne_of_lt lt)
  have inactive : timeline.count ∉ timeline.active :=
    fun mem => Nat.lt_irrefl _ (kept.known.2 _ mem)
  have unlisted : timeline.count ∉ timeline.fences :=
    fun mem => Nat.lt_irrefl _ (kept.listed _ mem).1
  have mem (other : Nat) (lt : other < timeline.count) : other ∈ ids ↔ other ∈ timeline.fences := by
    obtain ⟨same, -⟩ | ⟨same, -⟩ := same
    · exact same.mem_iff
    · rw [same.mem_iff, mem_cons, or_iff_right (Nat.ne_of_lt lt)]
  refine ⟨fun other lt => ?_, fun other fresh => ?_, sorted, ?_, fun other known => ?_,
    fun other lt inactive held ahead => ?_, ⟨kept.known.1, fun other known => ?_⟩, fun other known => ?_,
    kept.destroying, kept.alive⟩
  · by_cases new : other = timeline.count
    · show Fair timeline.value timeline.phase (other ∈ timeline.active) _
      rw [new, here, eq_false inactive]
      exact fair
    · rw [there new]
      exact kept.fair other (Nat.lt_of_le_of_ne (Nat.le_of_lt_succ lt) new)
  · rw [there (Nat.ne_of_gt fresh)]
    exact kept.fresh other (Nat.le_of_succ_le fresh)
  · obtain ⟨same, -⟩ | ⟨same, -⟩ := same
    · exact same.nodup_iff.mpr kept.once
    · exact same.nodup_iff.mpr (nodup_cons.mpr ⟨unlisted, kept.once⟩)
  · by_cases new : other = timeline.count
    · rw [new] at known ⊢
      obtain ⟨same, -⟩ | ⟨-, ahead, unreleased, unsignaled⟩ := same
      · exact absurd (same.mem_iff.mp known) unlisted
      · refine ⟨Nat.lt_succ_self _, inactive, ?_⟩
        rw [here]
        exact ⟨unreleased, unsignaled, fun _ => ahead⟩
    · have older : other ∈ timeline.fences := by
        obtain ⟨same, -⟩ | ⟨same, -⟩ := same
        · exact same.mem_iff.mp known
        · exact (mem_cons.mp (same.mem_iff.mp known)).resolve_left new
      obtain ⟨lt, rest⟩ := kept.listed other older
      refine ⟨Nat.lt_succ_of_lt lt, ?_⟩
      rw [old other lt]
      exact rest
  · by_cases new : other = timeline.count
    · rw [new] at ahead ⊢
      rw [here] at ahead
      obtain ⟨-, reached⟩ | ⟨same, -⟩ := same
      · exact absurd ahead (Nat.not_lt.mpr reached)
      · exact same.mem_iff.mpr mem_cons_self
    · have lt := Nat.lt_of_le_of_ne (Nat.le_of_lt_succ lt) new
      rw [old other lt] at held ahead
      exact (mem other lt).mpr (kept.complete other lt inactive held ahead)
  · exact Nat.lt_succ_of_lt (kept.known.2 other known)
  · have lt := kept.below (kept.taken other known)
    rw [old other lt]
    exact kept.taken other known

theorem alloc (seqno : Nat) : (timeline.fenceAlloc seqno).Kept := by
  have unlisted : timeline.count ∉ timeline.fences :=
    fun mem => Nat.lt_irrefl _ (kept.listed _ mem).1
  have seqnos (fence : TimelineFence) (other : Nat) (listed : other ∈ timeline.fences) :
      (timeline.setFence timeline.count fence).fence other = timeline.fence other := by
    refine update_of_ne ?_ ..
    rintro rfl
    exact unlisted listed
  have sorted (fence : TimelineFence) : timeline.fences.Pairwise fun id other =>
      ((timeline.setFence timeline.count fence).fence id).seqno ≤
        ((timeline.setFence timeline.count fence).fence other).seqno := by
    refine kept.sorted.imp_of_mem fun {one two} here there order => ?_
    rw [seqnos fence one here, seqnos fence two there]
    exact order
  have new : ((timeline.setFence timeline.count ⟨seqno, 1, false, false, false, []⟩).fence
      timeline.count) = ⟨seqno, 1, false, false, false, []⟩ := update_self ..
  unfold fenceAlloc
  dsimp only
  split
  · rename_i reached
    have reached : seqno ≤ timeline.value := by
      unfold fenceSignaled at reached
      rw [decide_eq_true_eq] at reached
      exact Nat.le_trans (Nat.le_of_eq (congrArg TimelineFence.seqno new).symm) reached
    have twice (first second : TimelineFence) :
        { timeline.setFence timeline.count first with count := timeline.count + 1 }.setFence timeline.count
          second = { timeline.setFence timeline.count second with count := timeline.count + 1,
                                                                  fences := timeline.fences } := by
      unfold FenceTimeline.setFence
      rw [update_idem]
    rw [twice]
    refine kept.grow ⟨fun never => (by cases never), fun never => (by cases never), fun _ => ?_,
      fun _ _ _ => rfl, fun _ never => never.elim⟩ (sorted _) (.inl ⟨.refl _, reached⟩)
    exact .inl ⟨rfl, reached⟩
  · rename_i ahead
    have ahead : timeline.value < seqno := by
      unfold fenceSignaled at ahead
      rw [decide_eq_true_eq] at ahead
      exact Nat.lt_of_lt_of_le (Nat.not_le.mp ahead) (Nat.le_of_eq (congrArg TimelineFence.seqno new))
    refine kept.grow ⟨fun never => (by cases never), fun _ => ⟨rfl, rfl⟩,
      fun never => (by cases never), fun _ reached => absurd reached (Nat.not_le.mpr ahead), fun _ never => never.elim⟩
      ?_ (.inr ⟨insertFence_perm, ahead, rfl, rfl⟩)
    exact insertFence_sorted { timeline.setFence timeline.count ⟨seqno, 1, false, false, false, []⟩ with
      count := timeline.count + 1 } (sorted _)

theorem signal (seqno : Nat) : (timeline.signal seqno).Kept := by
  unfold FenceTimeline.signal
  split
  · exact kept
  rename_i forward
  have forward : timeline.value ≤ seqno := Nat.not_lt.mp forward
  dsimp only
  obtain ⟨moved, is⟩ : ∃ moved : Nat → Bool, moved = ({ timeline with value := seqno } : FenceTimeline).moves :=
    ⟨_, rfl⟩
  have moves (id : Nat) : moved id = true ↔ (timeline.fence id).seqno ≤ seqno ∧ (timeline.fence id).refcount ≠ 0 := by
    rw [is]
    unfold FenceTimeline.moves fenceSignaled
    simp
  rw [← is, forEach_eq (kept.once.filter _)]
  have reached (id : Nat) (mem : id ∈ timeline.fences.filter moved) :
      (timeline.fence id).seqno ≤ seqno ∧ (timeline.fence id).refcount ≠ 0 :=
    (moves id).mp (mem_filter.mp mem).2
  have seqnos (id : Nat) : (if id ∈ timeline.fences.filter moved then (timeline.fence id).signalLocked
      else timeline.fence id).seqno = (timeline.fence id).seqno := by
    split
    · exact signalLocked_frame.2.2
    · rfl
  have refs (id : Nat) : (if id ∈ timeline.fences.filter moved then (timeline.fence id).signalLocked
      else timeline.fence id).refcount = (timeline.fence id).refcount := by
    split
    · exact signalLocked_frame.1
    · rfl
  refine ⟨fun id lt => ?_, fun id fresh => ?_, ?_, kept.once.filter _, fun id mem => ?_,
    fun id lt inactive held ahead => ?_, kept.known, fun id mem => ?_, kept.destroying, kept.alive⟩
  · have fair := kept.fair id lt
    have later : ¬id ∈ timeline.fences.filter moved → Fair seqno timeline.phase (id ∈ timeline.active)
        (timeline.fence id) := by
      intro stays
      refine { fair with signaled := fun signaled => ?_, reached := fun held low inactive => ?_ }
      · exact (fair.signaled signaled).imp (fun both => ⟨both.1, Nat.le_trans both.2 forward⟩) fun both => both
      · by_contra unsignaled
        have ahead : timeline.value < (timeline.fence id).seqno :=
          Nat.not_le.mp fun low => unsignaled (fair.reached held low inactive)
        exact stays (mem_filter.mpr ⟨kept.complete id lt inactive held ahead, (moves id).mpr ⟨low, held⟩⟩)
    dsimp only
    split
    · rename_i mem
      exact fair.signalLocked forward (reached id mem).1
    · rename_i stays
      exact later stays
  · rw [refs]
    exact kept.fresh id fresh
  · refine (kept.sorted.sublist (filter_sublist ..)).imp fun {one two} order => ?_
    rw [seqnos, seqnos]
    exact order
  · obtain ⟨listed, stays⟩ := mem_filter.mp mem
    have unmoved : id ∉ timeline.fences.filter moved := fun there => by
      rw [(mem_filter.mp there).2] at stays
      cases stays
    obtain ⟨lt, inactive, unreleased, unsignaled, -⟩ := kept.listed id listed
    refine ⟨lt, inactive, ?_⟩
    dsimp only
    rw [if_neg unmoved]
    refine ⟨unreleased, unsignaled, fun held => Nat.not_le.mp fun low => ?_⟩
    exact unmoved (mem_filter.mpr ⟨listed, (moves id).mpr ⟨low, held⟩⟩)
  · rw [refs] at held
    rw [seqnos] at ahead
    refine mem_filter.mpr ⟨kept.complete id lt inactive held (Nat.lt_of_le_of_lt forward ahead), ?_⟩
    cases decided : moved id with
    | false => rfl
    | true => exact absurd ((moves id).mp decided).1 (Nat.not_le.mpr ahead)
  · rw [refs]
    exact kept.taken id mem

theorem destroyTake (taken : timeline.step .destroyTake = some after) : after.Kept := by
  rw [step] at taken
  split at taken
  · cases taken
  rename_i alive
  have alive : timeline.phase = .alive := not_not.mp alive
  have inactive (id : Nat) : id ∉ timeline.active := by
    rw [kept.alive alive]
    exact not_mem_nil
  dsimp only at taken
  rw [forEach_eq (kept.once.filter _)] at taken
  obtain ⟨temp, is⟩ : ∃ temp, temp = timeline.fences.filter
      fun id => decide ((timeline.fence id).refcount ≠ 0) := ⟨_, rfl⟩
  have mem (id : Nat) : id ∈ temp ↔ id ∈ timeline.fences ∧ (timeline.fence id).refcount ≠ 0 := by
    rw [is, mem_filter, decide_eq_true_eq]
  have once : temp.Nodup := is ▸ kept.once.filter _
  rw [← is] at taken
  cases taken
  refine ⟨fun id lt => ?_, fun id fresh => ?_, .nil, .nil, forall_mem_nil _,
    fun id lt inactive' held ahead => ?_, ⟨once, fun id known => (kept.listed id ((mem id).mp known).1).1⟩,
    fun id known => ?_, rfl, fun never => by cases never⟩
  · have fair := kept.fair id lt
    have done (signaled : (timeline.fence id).signaled = true) :
        (timeline.fence id).completed = [false] ∧ (timeline.fence id).seqno ≤ timeline.value := by
      refine (fair.signaled signaled).resolve_right fun both => ?_
      rw [alive] at both
      cases both.2.2
    dsimp only
    split
    · rename_i known
      obtain ⟨listed, held⟩ := (mem id).mp known
      refine ⟨fun gone => absurd (fair.released gone) held, fair.unsignaled, fun signaled => .inl (done signaled),
        fun _ _ outside => absurd known outside, fun never => by cases never⟩
    · refine ⟨fair.released, fair.unsignaled, fun signaled => .inl (done signaled),
        fun held low _ => fair.reached held low (inactive id), fun never => by cases never⟩
  · dsimp only
    rw [if_neg fun known => Nat.not_le.mpr (kept.listed id ((mem id).mp known).1).1 fresh]
    exact kept.fresh id fresh
  · dsimp only at inactive' held ahead
    rw [if_neg inactive'] at held ahead
    exact absurd ((mem id).mpr ⟨kept.complete id lt (inactive id) held ahead, held⟩) inactive'
  · dsimp only
    rw [if_pos known]
    exact Nat.succ_ne_zero _

end

end Kept

theorem cancel_signaled : fence.cancel.signaled = true := signalLocked_signaled

theorem Fair.cancel {value : Nat} {phase : DestroyPhase} {active : Prop}
    (fair : Fair value phase active fence) (is : active) (held : fence.refcount ≠ 0)
    (early : phase ≠ .destroyed) : Fair value .destroyed active fence.cancel := by
  have released : fence.released = false := by
    by_contra gone
    exact held (fair.released (by simpa using gone))
  refine ⟨fun gone => ?_, fun never => ?_, fun _ => ?_, fun _ _ outside => absurd is outside,
    fun _ _ => cancel_signaled⟩
  · have kept : fence.cancel.released = fence.released := signalLocked_frame.2.1
    rw [kept, released] at gone
    cases gone
  · rw [cancel_signaled] at never
    cases never
  · cases signaled : fence.signaled with
    | true =>
      have same : fence.cancel.completed = fence.completed := by
        unfold TimelineFence.cancel TimelineFence.signalLocked
        rw [if_pos signaled]
      have seqno : fence.cancel.seqno = fence.seqno := signalLocked_frame.2.2
      rw [same, seqno]
      exact .inl ((fair.signaled signaled).resolve_right fun both => early both.2.2)
    | false =>
      have error : fence.cancel.completed = fence.completed ++ [true] := by
        unfold TimelineFence.cancel TimelineFence.signalLocked
        rw [if_neg (by rw [signaled]; exact Bool.false_ne_true)]
      rw [error, (fair.unsignaled signaled).1]
      exact .inr ⟨rfl, is, rfl⟩

namespace Kept

theorem destroySignal (kept : timeline.Kept) (taken : timeline.step .destroySignal = some after) : after.Kept := by
  rw [step] at taken
  split at taken
  · cases taken
  rename_i destroying
  have destroying : timeline.phase = .destroying := not_not.mp destroying
  have taking : timeline.taken = timeline.active := by rw [kept.destroying, if_pos destroying]
  have early : timeline.phase ≠ .destroyed := by
    rw [destroying]
    exact DestroyPhase.noConfusion
  rw [taking, forEach_eq kept.known.1] at taken
  cases taken
  have outside {id : Nat} (inactive : id ∉ timeline.active) :
      (if id ∈ timeline.active then (timeline.fence id).cancel else timeline.fence id) = timeline.fence id :=
    if_neg inactive
  have seqnos (id : Nat) : (if id ∈ timeline.active then (timeline.fence id).cancel
      else timeline.fence id).seqno = (timeline.fence id).seqno := by
    split
    · exact signalLocked_frame.2.2
    · rfl
  refine ⟨fun id lt => ?_, fun id fresh => ?_, ?_, kept.once, fun id mem => ?_,
    fun id lt inactive held ahead => ?_, kept.known, forall_mem_nil _, rfl, fun never => by cases never⟩
  · have fair := kept.fair id lt
    dsimp only
    split
    · rename_i is
      exact fair.cancel is (kept.taken id (taking ▸ is)) early
    · rename_i inactive
      refine ⟨fair.released, fair.unsignaled, fun signaled => .inl ?_, fair.reached, fun _ is => absurd is inactive⟩
      exact (fair.signaled signaled).resolve_right fun both => early both.2.2
  · dsimp only
    rw [outside fun is => Nat.not_le.mpr (kept.known.2 id is) fresh]
    exact kept.fresh id fresh
  · refine kept.sorted.imp fun {one two} order => ?_
    rw [seqnos, seqnos]
    exact order
  · have known := kept.listed id mem
    dsimp only
    rw [outside known.2.1]
    exact known
  · dsimp only at inactive held ahead
    rw [outside inactive] at held ahead
    exact kept.complete id lt inactive held ahead

theorem step (kept : timeline.Kept) (taken : timeline.step action = some after) : after.Kept := by
  cases action with
  | alloc seqno =>
    cases taken
    exact kept.alloc seqno
  | get id => exact kept.get taken
  | put id => exact kept.put taken
  | release id => exact kept.release taken
  | poll id => exact kept.poll taken
  | signal seqno =>
    cases taken
    exact kept.signal seqno
  | destroyTake => exact kept.destroyTake taken
  | destroySignal => exact kept.destroySignal taken

end Kept

theorem forEach_value : (timeline.forEach change ids).value = timeline.value := by
  induction ids generalizing timeline with
  | nil => rfl
  | cons first rest ih => exact ih

theorem step_value (taken : timeline.step action = some after) : timeline.value ≤ after.value := by
  cases action with
  | alloc seqno =>
    cases taken
    unfold fenceAlloc
    dsimp only
    split <;> exact Nat.le_refl _
  | signal seqno =>
    cases taken
    unfold FenceTimeline.signal
    split
    · exact Nat.le_refl _
    · rename_i forward
      rw [forEach_value]
      exact Nat.not_lt.mp forward
  | destroyTake | destroySignal =>
    rw [step] at taken
    split at taken
    · cases taken
    · cases taken
      refine Nat.le_of_eq (Eq.symm ?_)
      exact forEach_value
  | poll id =>
    rw [step] at taken
    split at taken
    · cases taken
    split at taken <;> cases taken <;> exact Nat.le_refl _
  | get id | put id | release id =>
    rw [step] at taken
    split at taken
    · cases taken
    · cases taken
      exact Nat.le_refl _

/-- The list is what the timeline has not reached, and fences complete as they should. -/
structure Timely (timeline : FenceTimeline) : Prop where
  sorted : timeline.fences.Pairwise fun id other =>
    (timeline.fence id).seqno ≤ (timeline.fence other).seqno
  once : timeline.fences.Nodup
  /-- The fences that are listed beside those that wait have lost their last reference. -/
  waiting : timeline.phase = .alive → ∀ id < timeline.count, (timeline.fence id).refcount ≠ 0 →
    (id ∈ timeline.fences ↔ timeline.value < (timeline.fence id).seqno)
  unreleased : ∀ id ∈ timeline.fences, id < timeline.count ∧ (timeline.fence id).released = false ∧
    (timeline.fence id).completed = []
  completed : ∀ id < timeline.count, (timeline.fence id).completed = [] ∨
    (timeline.fence id).completed = [false] ∧ (timeline.fence id).seqno ≤ timeline.value ∨
    (timeline.fence id).completed = [true] ∧ id ∈ timeline.active ∧ timeline.phase = .destroyed
  reached : ∀ id < timeline.count, id ∉ timeline.active → (timeline.fence id).refcount ≠ 0 →
    (timeline.fence id).seqno ≤ timeline.value → (timeline.fence id).completed = [false]
  destroyed : timeline.phase = .destroyed → ∀ id ∈ timeline.active, id ∉ timeline.fences ∧
    ((timeline.fence id).completed = [true] ∨
      (timeline.fence id).completed = [false] ∧ (timeline.fence id).seqno ≤ timeline.value)
  value : ∀ action after, timeline.step action = some after → timeline.value ≤ after.value

theorem Fair.completed {value : Nat} {phase : DestroyPhase} {active : Prop}
    (fair : Fair value phase active fence) : fence.completed = [] ∨
      fence.completed = [false] ∧ fence.seqno ≤ value ∨ fence.completed = [true] ∧ active ∧ phase = .destroyed := by
  cases signaled : fence.signaled with
  | true => exact .inr (fair.signaled signaled)
  | false => exact .inl (fair.unsignaled signaled).1

theorem Kept.timely (kept : timeline.Kept) : timeline.Timely where
  sorted := kept.sorted
  once := kept.once
  waiting alive id below held := by
    refine ⟨fun listed => (kept.listed id listed).2.2.2.2 held, kept.complete id below ?_ held⟩
    rw [kept.alive alive]
    exact not_mem_nil
  unreleased id listed := by
    obtain ⟨below, -, unreleased, unsignaled, -⟩ := kept.listed id listed
    exact ⟨below, unreleased, ((kept.fair id below).unsignaled unsignaled).1⟩
  completed id below := (kept.fair id below).completed
  reached id below inactive held low := by
    have fair := kept.fair id below
    exact ((fair.signaled (fair.reached held low inactive)).resolve_right fun both => inactive both.2.1).1
  destroyed gone id active := by
    have fair := kept.fair id (kept.known.2 id active)
    refine ⟨fun listed => (kept.listed id listed).2.1 active, ?_⟩
    exact (fair.signaled (fair.destroyed gone active)).symm.imp And.left fun both => both
  value _ _ := step_value

theorem runs_timely {value : Nat}
    (reached : Reachable step (fun _ _ => True) (init value) timeline) : timeline.Timely :=
  (reached.invariant Kept (.init value) fun _ _ _ before _ taken => before.step taken).timely

theorem runs_timely_two : ∃ timeline, Reachable step (fun _ _ => True) (init 3) timeline ∧
    (timeline.fence 0).completed = [false] ∧ (timeline.fence 1).completed = [true] ∧ timeline.Timely :=
  reaches [.alloc 5, .alloc 9, .signal 6, .destroyTake, .destroySignal]
    (fun timeline => (timeline.fence 0).completed = [false] ∧ (timeline.fence 1).completed = [true])
    (by decide +kernel) fun _ reached ⟨first, second⟩ => ⟨first, second, runs_timely reached⟩

/-- A fence without a reference is signaled over; it is listed until its release callback has run.  And one that
is polled between the halves of the destruction completes without an error. -/
theorem dying_listed : (¬∀ value timeline, Reachable step (fun _ _ => True) (init value) timeline →
    timeline.phase = .alive → ∀ id, id ∈ timeline.fences ↔
      id < timeline.count ∧ (timeline.fence id).released = false ∧ timeline.value < (timeline.fence id).seqno) ∧
    ¬∀ value timeline, Reachable step (fun _ _ => True) (init value) timeline →
      timeline.phase = .destroyed → ∀ id ∈ timeline.active, (timeline.fence id).completed = [true] := by
  constructor <;> intro always
  · obtain ⟨timeline, listing, alive, listed, reached⟩ := holds_after (always 3) [.alloc 5, .put 0, .signal 7]
      (fun timeline => timeline.phase = .alive ∧ timeline.fences = [0] ∧ (timeline.fence 0).seqno ≤ timeline.value)
      (by decide +kernel)
    have known : 0 ∈ timeline.fences := by
      rw [listed]
      exact List.mem_singleton_self 0
    exact Nat.not_lt.mpr reached ((listing alive 0).mp known).2.2
  · obtain ⟨timeline, ends, destroyed, active, ok⟩ := holds_after (always 3)
      [.alloc 5, .destroyTake, .signal 7, .poll 0, .destroySignal]
      (fun timeline => timeline.phase = .destroyed ∧ timeline.active = [0] ∧ (timeline.fence 0).completed = [false])
      (by decide +kernel)
    have failed := ends destroyed 0 (active ▸ List.mem_singleton_self 0)
    rw [ok] at failed
    cases failed

end FenceTimeline

end KernelModules.KgslTimeline

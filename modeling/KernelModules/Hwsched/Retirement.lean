import Mathlib.Data.List.ReduceOption
import KernelModules.Hwsched.QueueRuns

namespace KernelModules.Hwsched

open Data KernelModules.Kgsl List Function Bool

/-! # The retired timestamp

The word is written by the hardware, and by the driver for markers and binds.  So the walk of the dispatcher is cut
into its turns, and so is the call that makes a bind.
-/

inductive QueueWalk where
  | idle
  /-- In the loop of `_process_drawqueue_get_next_drawobj`, with the lock -/
  | walking (place : Nat)
  | holding (drawobj : Drawobj)

def QueueWalk.hand : QueueWalk → List Drawobj
  | .holding drawobj => [drawobj]
  | _ => []

/-- Where a thread stands in `kgsl_ioctl_gpu_aux_command`. -/
inductive AuxCommand where
  | idle
  /-- `KGSL_TIMESTAMP_QUEUED` has been read. -/
  | read (queued : Nat)
  | created (tsobj : Nat)

def DrawobjState.zero : DrawobjState := ⟨0, 0, false, false, false, 0⟩

def swSyncobj (address : Nat) : Drawobj := ⟨address, .syncobj, 0, false, false, false⟩

def newBindobj (address : Nat) : Drawobj := ⟨address, .bindobj, 0, false, false, false⟩

/-- The draw objects of a bind: what the caller asked to wait for, the implicit sync object, the bind -/
def auxBatch (sync : Option Nat) (tsobj bind userTs : Nat) : Batch where
  objects := sync.toList.map swSyncobj ++ [swSyncobj tsobj, newBindobj bind]
  userTs := userTs
  formed drawobj listed := by
    rw [List.dropLast_append_of_ne_nil (List.cons_ne_nil _ _), List.dropLast_cons_cons,
      List.dropLast_singleton, List.mem_append, List.mem_singleton, List.mem_map] at listed
    obtain ⟨_, _, rfl⟩ | rfl := listed <;> rfl

structure RetireState where
  ctx : Drawctxt
  walk : QueueWalk
  gpu : List Drawobj
  implicit : Nat → Option Nat
  signaled : Nat → Bool
  thread : Nat → AuxCommand

inductive RetireAction where
  /-- A batch without a bind is queued, be it after a sleep for room. -/
  | queueCmds (slept : Bool) (batch : Batch)
  | readTimestamp (thread : Nat)
  /-- `kgsl_drawobj_create_timestamp_syncobj` -/
  | createSyncobj (thread address : Nat)
  | queueBind (thread : Nat) (slept : Bool) (sync : Option Nat) (bind userTs : Nat)
  | signal (address : Nat)
  | lock
  | walk (around : Surroundings)
  | submitted
  | requeue
  | complete

namespace Drawctxt

variable (ctx : Drawctxt) (drawobj : Drawobj)

def expired : Bool := drawobj.type = .markerobj && (ctx.obj drawobj).markerExpired

def pending : Bool := drawobj.type.timestamped && !ctx.expired drawobj

def ahead (timestamp : Nat) : Nat := u32 (timestamp + 4294967296 - ctx.eoptimestamp)

/-- `get_timestamp` will answer `-ERANGE`. -/
def refuses (userTs : Nat) : Bool := ctx.userGeneratedTs && decide (0 ≤ timestampCmp ctx.timestamp userTs)

/-- The timestamp that `get_timestamp` gives out. -/
def nextTimestamp (userTs : Nat) : Nat := if ctx.userGeneratedTs then userTs else u32 (ctx.timestamp + 1)

end Drawctxt

open Drawctxt (ahead expired pending refuses)

namespace RetireState

variable (state : RetireState)

def live : List Drawobj := state.gpu ++ state.walk.hand ++ state.ctx.contents.reduceOption

def unfinished : List Drawobj := state.live.filter state.ctx.pending

def fresh (address : Nat) : Bool :=
  (state.implicit address).isNone && decide (state.ctx.objs address = .zero) &&
    state.live.all fun drawobj => drawobj.address ≠ address

def admits (slept : Bool) (batch : Batch) : Bool :=
  batch.admissible && decide (batch.userTs < 4294967296) &&
    decide ((batch.objects.map Drawobj.address).Nodup) &&
    (slept || decide (state.ctx.queued + batch.count ≤ contextDrawqueueSize - 1)) &&
    match state.walk with
    | .walking _ => false
    | _ => true

def queueBatch (batch : Batch) : RetireState := { state with ctx := (state.ctx.queueBatch batch).1 }

def setThread (thread : Nat) (command : AuxCommand) : RetireState :=
  { state with thread := Function.update state.thread thread command }

def surroundings (around : Surroundings) : Surroundings :=
  { around with
    eventsPending := fun drawobj =>
      if (state.implicit drawobj.address).isSome then !state.signaled drawobj.address
      else around.eventsPending drawobj
    bindDone := fun drawobj => around.bindDone drawobj && (state.ctx.obj drawobj).bindStarted }

/-- One turn of the loop; `hwsched_sendcmds` pops what it is given before it drops the lock. -/
def turn (place : Nat) (around : Surroundings) : RetireState :=
  if place = state.ctx.drawqueueTail then { state with walk := .idle }
  else match state.ctx.drawqueue place with
    | none => { state with walk := .idle }
    | some drawobj =>
      match state.ctx.retire (state.surroundings around) drawobj with
      | (ctx, .send) => { state with ctx := ctx.popDrawobj, walk := .holding drawobj }
      | (ctx, .gone) =>
        { state with ctx := ctx, walk := .walking (drawqueueNext place adrenoContextDrawqueueSize) }
      | (ctx, _) => { state with ctx := ctx, walk := .idle }

def submit (drawobj : Drawobj) : RetireState :=
  { state with
    gpu := if state.ctx.pending drawobj then state.gpu ++ [drawobj] else state.gpu
    walk := .idle }

def step (state : RetireState) : RetireAction → Option RetireState
  | .queueCmds slept batch =>
    if state.admits slept batch && batch.objects.all fun drawobj =>
        drawobj.type ≠ .bindobj && state.fresh drawobj.address then
      some (state.queueBatch batch)
    else none
  | .readTimestamp thread =>
    match state.thread thread with
    | .idle => some (state.setThread thread (.read state.ctx.timestamp))
    | _ => none
  | .createSyncobj thread address =>
    match state.thread thread with
    | .read queued =>
      if state.fresh address then some { state.setThread thread (.created address) with
          implicit := Function.update state.implicit address (some queued)
          signaled := Function.update state.signaled address false }
      else none
    | _ => none
  | .queueBind thread slept sync bind userTs =>
    match state.thread thread with
    | .created tsobj =>
      let batch := auxBatch sync tsobj bind userTs
      if state.admits slept batch && sync.all state.fresh && state.fresh bind &&
          (decide (state.ctx.objs tsobj = .zero) &&
            state.live.all fun drawobj => drawobj.address ≠ tsobj) then
        some ((state.queueBatch batch).setThread thread .idle)
      else none
    | _ => none
  | .signal address =>
    match state.implicit address with
    | some queued =>
      if state.ctx.checkTimestamp queued then
        some { state with signaled := Function.update state.signaled address true }
      else none
    | none => none
  | .lock =>
    match state.walk with
    | .idle => some { state with walk := .walking state.ctx.drawqueueHead }
    | _ => none
  | .walk around =>
    match state.walk with
    | .walking place => some (state.turn place around)
    | _ => none
  | .submitted =>
    match state.walk with
    | .holding drawobj => some (state.submit drawobj)
    | _ => none
  | .requeue =>
    match state.walk with
    | .holding drawobj => some { state with ctx := state.ctx.requeueDrawobj drawobj, walk := .idle }
    | _ => none
  | .complete =>
    match state.gpu with
    | drawobj :: rest =>
      some { state with
        ctx := { state.ctx with eoptimestamp := (state.ctx.obj drawobj).timestamp }
        gpu := rest }
    | [] => none

def init (userGeneratedTs : Bool) : RetireState where
  ctx := (QueueState.init userGeneratedTs fun _ => .zero).ctx
  walk := .idle
  gpu := []
  implicit _ := none
  signaled _ := false
  thread _ := .idle

def roomy (batch : Batch) : Bool :=
  decide (state.ctx.queued + batch.count + state.walk.hand.length ≤ adrenoContextDrawqueueSize - 1)

def comparable (batch : Batch) : Bool :=
  state.ctx.refuses batch.userTs || (batch.objects.all fun drawobj => !drawobj.type.timestamped) ||
    decide (state.ctx.ahead (state.ctx.nextTimestamp batch.userTs) < kgslTimestampWindow)

/-- No command or marker is unfinished that the implicit sync object does not wait for. -/
def awaited (tsobj : Nat) : Bool :=
  match state.implicit tsobj with
  | some queued =>
    (state.unfinished.filter fun drawobj => drawobj.type ≠ .bindobj).all fun drawobj =>
      !state.signaled tsobj &&
        decide (state.ctx.ahead (state.ctx.obj drawobj).timestamp ≤ state.ctx.ahead queued ∧
          state.ctx.ahead queued < kgslTimestampWindow)
  | none => false

/-- A batch fits, its timestamp can be compared, a bind waits for all that is unfinished, and an expired marker is
put back only at its own timestamp. -/
def careful (state : RetireState) : RetireAction → Bool
  | .queueCmds _ batch => state.roomy batch && state.comparable batch
  | .queueBind thread _ sync bind userTs =>
    match state.thread thread with
    | .created tsobj =>
      let batch := auxBatch sync tsobj bind userTs
      state.roomy batch && state.comparable batch && state.awaited tsobj
    | _ => true
  | .requeue =>
    match state.walk with
    | .holding drawobj =>
      !state.ctx.expired drawobj || (state.ctx.obj drawobj).timestamp = state.ctx.eoptimestamp
    | _ => true
  | _ => true

end RetireState

theorem split_concat (is : list ++ [last] = before ++ item :: behind) : (item = last ∧ before = list) ∨
      ∃ rest, behind = rest ++ [last] ∧ list = before ++ item :: rest := by
  obtain rfl | ⟨rest, final, rfl⟩ := eq_nil_or_concat behind
  · obtain ⟨same, ends⟩ := append_inj' is rfl
    exact .inl ⟨(cons.inj ends).1.symm, same.symm⟩
  · rw [concat_eq_append, ← cons_append, ← append_assoc] at is
    obtain ⟨same, ends⟩ := append_inj' is rfl
    refine .inr ⟨rest, ?_, same⟩
    rw [concat_eq_append, (cons.inj ends).1]

namespace Drawctxt

variable {ctx after : Drawctxt} {drawobj other : Drawobj} {list : List Drawobj} {timestamp : Nat}

theorem unreached (eop : ctx.eoptimestamp < 4294967296) (word : timestamp < 4294967296)
    (later : 0 < ctx.ahead timestamp) (window : ctx.ahead timestamp < kgslTimestampWindow) :
    ctx.checkTimestamp timestamp = false ∧ 0 < timestampCmp timestamp ctx.eoptimestamp := by
  unfold ahead u32 kgslTimestampWindow at *
  unfold checkTimestamp timestampCmp u32 kgslTimestampWindow
  dsimp only
  rw [decide_eq_false_iff_not]
  split_ifs <;> omega

theorem ahead_sub {eoptimestamp : Nat} (eop : ctx.eoptimestamp < 4294967296)
    (reached : eoptimestamp < 4294967296) (le : ctx.ahead eoptimestamp ≤ ctx.ahead timestamp) :
    ({ ctx with eoptimestamp := eoptimestamp } : Drawctxt).ahead timestamp
      = ctx.ahead timestamp - ctx.ahead eoptimestamp := by
  unfold ahead u32 at *
  dsimp only
  omega

theorem ahead_congr (eop : after.eoptimestamp = ctx.eoptimestamp) : after.ahead = ctx.ahead := by
  funext timestamp
  rw [ahead, ahead, eop]

structure Line (ctx : Drawctxt) (list : List Drawobj) : Prop where
  eop : ctx.eoptimestamp < 4294967296
  last : ctx.timestamp < 4294967296
  words : ∀ drawobj ∈ list, (ctx.obj drawobj).timestamp < 4294967296
  sorted : list.Pairwise fun drawobj other =>
    ctx.ahead (ctx.obj drawobj).timestamp < ctx.ahead (ctx.obj other).timestamp
  later : ∀ drawobj ∈ list, 0 < ctx.ahead (ctx.obj drawobj).timestamp
  given : ∀ drawobj ∈ list, ctx.ahead (ctx.obj drawobj).timestamp ≤ ctx.ahead ctx.timestamp
  window : ctx.ahead ctx.timestamp < kgslTimestampWindow
  queued : ∀ drawobj, list.getLast? = some drawobj → ctx.queuedTimestamp = (ctx.obj drawobj).timestamp
  markers : ∀ before marker behind, list = before ++ marker :: behind → marker.type = .markerobj →
    ∀ drawobj, before.getLast? = some drawobj → (ctx.obj marker).markerTimestamp = (ctx.obj drawobj).timestamp

namespace Line

theorem unreached (line : ctx.Line list) (mem : drawobj ∈ list) :
    ctx.checkTimestamp (ctx.obj drawobj).timestamp = false ∧
      0 < timestampCmp (ctx.obj drawobj).timestamp ctx.eoptimestamp :=
  Drawctxt.unreached line.eop (line.words drawobj mem) (line.later drawobj mem)
    (lt_of_le_of_lt (line.given drawobj mem) line.window)

theorem marker_first (line : ctx.Line (before ++ drawobj :: behind)) (marker : drawobj.type = .markerobj)
    (reached : ctx.checkTimestamp (ctx.obj drawobj).markerTimestamp = true) : before = [] := by
  cases last : before.getLast? with
  | none => exact getLast?_eq_none_iff.mp last
  | some other =>
    have waits := line.markers before drawobj behind rfl marker other last
    have mem : other ∈ before ++ drawobj :: behind :=
      mem_append_left _ (mem_of_getLast? last)
    rw [waits, (line.unreached mem).1] at reached
    cases reached

theorem queued_reached (line : ctx.Line list) (reached : ctx.checkTimestamp ctx.queuedTimestamp = true) :
    list = [] := by
  cases last : list.getLast? with
  | none => exact getLast?_eq_none_iff.mp last
  | some other =>
    rw [line.queued other last, (line.unreached (mem_of_getLast? last)).1] at reached
    cases reached

theorem congr (line : ctx.Line list) (eop : after.eoptimestamp = ctx.eoptimestamp)
    (timestamp : after.timestamp = ctx.timestamp) (queued : after.queuedTimestamp = ctx.queuedTimestamp)
    (objs : ∀ drawobj ∈ list, (after.obj drawobj).timestamp = (ctx.obj drawobj).timestamp ∧
      (after.obj drawobj).markerTimestamp = (ctx.obj drawobj).markerTimestamp) : after.Line list := by
  have far := ahead_congr eop
  constructor
  · rw [eop]
    exact line.eop
  · rw [timestamp]
    exact line.last
  · intro drawobj mem
    rw [(objs drawobj mem).1]
    exact line.words drawobj mem
  · refine line.sorted.imp_of_mem fun one other less => ?_
    rw [far, (objs _ one).1, (objs _ other).1]
    exact less
  · intro drawobj mem
    rw [far, (objs drawobj mem).1]
    exact line.later drawobj mem
  · intro drawobj mem
    rw [far, timestamp, (objs drawobj mem).1]
    exact line.given drawobj mem
  · rw [far, timestamp]
    exact line.window
  · intro drawobj last
    rw [queued, (objs drawobj (mem_of_getLast? last)).1]
    exact line.queued drawobj last
  · rintro before marker behind rfl type drawobj last
    rw [(objs marker (by simp)).2, (objs drawobj (mem_append_left _ (mem_of_getLast? last))).1]
    exact line.markers before marker behind rfl type drawobj last

theorem advance (line : ctx.Line (drawobj :: list)) : (ctx.retireTimestampOnly drawobj).Line list := by
  have first : drawobj ∈ drawobj :: list := mem_cons_self ..
  have nearer : ∀ timestamp, ctx.ahead (ctx.obj drawobj).timestamp ≤ ctx.ahead timestamp →
      (ctx.retireTimestampOnly drawobj).ahead timestamp = ctx.ahead timestamp - ctx.ahead (ctx.obj drawobj).timestamp :=
    fun timestamp le => ahead_sub line.eop (line.words drawobj first) le
  have behind := (pairwise_cons.mp line.sorted).1
  have rest : ∀ other ∈ list, (ctx.retireTimestampOnly drawobj).ahead (ctx.obj other).timestamp
      = ctx.ahead (ctx.obj other).timestamp - ctx.ahead (ctx.obj drawobj).timestamp :=
    fun other mem => nearer _ (le_of_lt (behind other mem))
  have last := nearer ctx.timestamp (line.given drawobj first)
  constructor
  · exact line.words drawobj first
  · exact line.last
  · exact fun other mem => line.words other (mem_cons_of_mem _ mem)
  · refine (pairwise_cons.mp line.sorted).2.imp_of_mem fun one other less => ?_
    show ahead _ (ctx.obj _).timestamp < ahead _ (ctx.obj _).timestamp
    rw [rest _ one, rest _ other]
    have more := behind _ one
    omega
  · intro other mem
    show 0 < ahead _ (ctx.obj _).timestamp
    rw [rest other mem]
    have more := behind other mem
    omega
  · intro other mem
    show ahead _ (ctx.obj _).timestamp ≤ ahead _ ctx.timestamp
    rw [rest other mem]
    have less := line.given other (mem_cons_of_mem _ mem)
    omega
  · show ahead _ ctx.timestamp < _
    have window := line.window
    omega
  · intro other is
    refine line.queued other ?_
    rw [getLast?_cons, is]
    rfl
  · rintro before marker later rfl type other is
    refine line.markers (drawobj :: before) marker later rfl type other ?_
    rw [getLast?_cons, is]
    rfl

theorem append (line : ctx.Line list) (eop : after.eoptimestamp = ctx.eoptimestamp)
    (objs : ∀ drawobj ∈ list, (after.obj drawobj).timestamp = (ctx.obj drawobj).timestamp ∧
      (after.obj drawobj).markerTimestamp = (ctx.obj drawobj).markerTimestamp)
    (stamped : (after.obj drawobj).timestamp = after.timestamp) (word : after.timestamp < 4294967296)
    (more : ctx.ahead ctx.timestamp < ctx.ahead after.timestamp)
    (window : ctx.ahead after.timestamp < kgslTimestampWindow) (queued : after.queuedTimestamp = after.timestamp)
    (waits : drawobj.type = .markerobj → (after.obj drawobj).markerTimestamp = ctx.queuedTimestamp) :
    after.Line (list ++ [drawobj]) := by
  have far := ahead_congr eop
  have each : ∀ other ∈ list ++ [drawobj], other ∈ list ∨ other = drawobj := fun other mem => by
    rw [mem_append, mem_singleton] at mem
    exact mem
  constructor
  · rw [eop]
    exact line.eop
  · exact word
  · intro other mem
    obtain old | rfl := each other mem
    · rw [(objs other old).1]
      exact line.words other old
    · rw [stamped]
      exact word
  · refine pairwise_append.mpr ⟨?_, pairwise_singleton _ _, fun one old other new => ?_⟩
    · refine line.sorted.imp_of_mem fun one other less => ?_
      rw [far, (objs _ one).1, (objs _ other).1]
      exact less
    · rw [mem_singleton] at new
      rw [new, far, (objs one old).1, stamped]
      exact lt_of_le_of_lt (line.given one old) more
  · intro other mem
    rw [far]
    obtain old | rfl := each other mem
    · rw [(objs other old).1]
      exact line.later other old
    · rw [stamped]
      omega
  · intro other mem
    rw [far]
    obtain old | rfl := each other mem
    · rw [(objs other old).1]
      exact le_trans (line.given other old) (le_of_lt more)
    · rw [stamped]
  · rw [far]
    exact window
  · intro other is
    rw [getLast?_concat, Option.some.injEq] at is
    rw [← is, stamped, queued]
  · intro before marker behind is type other last
    obtain ⟨rfl, rfl⟩ | ⟨rest, rfl, rfl⟩ := split_concat is
    · rw [waits type, (objs other (mem_of_getLast? last)).1]
      exact line.queued other last
    · rw [(objs marker (by simp)).2, (objs other (mem_append_left _ (mem_of_getLast? last))).1]
      exact line.markers before marker rest rfl type other last

theorem skip (eop : after.eoptimestamp = after.timestamp) (word : after.timestamp < 4294967296) :
    after.Line [] where
  eop := eop ▸ word
  last := word
  words := by nofun
  sorted := .nil
  later := by nofun
  given := by nofun
  window := by
    have zero : after.ahead after.timestamp = 0 := by
      unfold ahead u32
      omega
    rw [zero]
    decide
  queued := by nofun
  markers before marker behind is := absurd is (by simp)

end Line

def SameObjs (ctx after : Drawctxt) (list : List Drawobj) : Prop :=
  ∀ drawobj ∈ list, (after.obj drawobj).timestamp = (ctx.obj drawobj).timestamp ∧
    (after.obj drawobj).markerTimestamp = (ctx.obj drawobj).markerTimestamp ∧
    after.expired drawobj = ctx.expired drawobj

theorem SameObjs.filter (same : ctx.SameObjs after list) : list.filter after.pending = list.filter ctx.pending := by
  refine filter_congr fun drawobj mem => ?_
  rw [pending, pending, (same drawobj mem).2.2]

theorem SameObjs.words (same : ctx.SameObjs after list) : ∀ drawobj ∈ list.filter ctx.pending,
    (after.obj drawobj).timestamp = (ctx.obj drawobj).timestamp ∧
      (after.obj drawobj).markerTimestamp = (ctx.obj drawobj).markerTimestamp := by
  intro drawobj mem
  obtain ⟨timestamp, waits, _⟩ := same drawobj (mem_filter.mp mem).1
  exact ⟨timestamp, waits⟩

theorem SameObjs.line (same : ctx.SameObjs after list) (line : ctx.Line (list.filter ctx.pending))
    (eop : after.eoptimestamp = ctx.eoptimestamp) (timestamp : after.timestamp = ctx.timestamp)
    (queued : after.queuedTimestamp = ctx.queuedTimestamp) : after.Line (list.filter after.pending) := by
  rw [same.filter]
  exact line.congr eop timestamp queued same.words

def Nearer (ctx after : Drawctxt) (drawobj : Drawobj) : Prop :=
  after.pending drawobj = true → ctx.pending drawobj = true ∧
    ∀ timestamp, ctx.ahead (ctx.obj drawobj).timestamp ≤ ctx.ahead timestamp →
      after.ahead (after.obj drawobj).timestamp ≤ after.ahead timestamp ∧
        after.ahead timestamp ≤ ctx.ahead timestamp

theorem SameObjs.nearer (same : ctx.SameObjs after list) (eop : after.eoptimestamp = ctx.eoptimestamp)
    (mem : drawobj ∈ list) : ctx.Nearer after drawobj := by
  intro pending
  obtain ⟨stamp, _, expired⟩ := same drawobj mem
  have far := ahead_congr eop
  refine ⟨?_, fun timestamp le => ?_⟩
  · rw [Drawctxt.pending, ← expired]
    exact pending
  · rw [far, stamp]
    exact ⟨le, le_rfl⟩

theorem Line.nearer (line : ctx.Line (drawobj :: list))
    (eop : after.eoptimestamp = (ctx.obj drawobj).timestamp) (mem : other ∈ list)
    (pending : after.pending other = true → ctx.pending other = true)
    (stamp : (after.obj other).timestamp = (ctx.obj other).timestamp) : ctx.Nearer after other := by
  refine fun still => ⟨pending still, fun timestamp le => ?_⟩
  have first : drawobj ∈ drawobj :: list := mem_cons_self ..
  have behind := (pairwise_cons.mp line.sorted).1 other mem
  have nearer : ∀ timestamp, ctx.ahead (ctx.obj drawobj).timestamp ≤ ctx.ahead timestamp →
      after.ahead timestamp = ctx.ahead timestamp - ctx.ahead (ctx.obj drawobj).timestamp := by
    intro timestamp le
    rw [← ahead_sub line.eop (line.words drawobj first) le, ← eop]
    rfl
  rw [stamp, nearer _ (le_of_lt behind), nearer _ (by omega)]
  omega

def Awaits (ctx : Drawctxt) (signaled : Bool) (queued : Nat) (list : List Drawobj) : Prop :=
  ∀ drawobj ∈ list, ctx.pending drawobj = true → drawobj.type ≠ .bindobj →
    signaled = false ∧ ctx.ahead (ctx.obj drawobj).timestamp ≤ ctx.ahead queued ∧
      ctx.ahead queued < kgslTimestampWindow

theorem Awaits.mono (awaits : ctx.Awaits signaled queued list) (subset : ∀ drawobj ∈ fewer, drawobj ∈ list)
    (nearer : ∀ drawobj ∈ fewer, ctx.Nearer after drawobj) : after.Awaits signaled queued fewer := by
  intro drawobj mem pending work
  obtain ⟨was, near⟩ := nearer drawobj mem pending
  obtain ⟨unsignaled, le, window⟩ := awaits drawobj (subset drawobj mem) was work
  obtain ⟨less, fewer⟩ := near queued le
  exact ⟨unsignaled, less, lt_of_le_of_lt fewer window⟩

variable {around : Surroundings}

def setExpired (ctx : Drawctxt) (drawobj : Drawobj) : Drawctxt :=
  ctx.setObj drawobj { ctx.obj drawobj with markerExpired := true }

inductive Retires (ctx : Drawctxt) (around : Surroundings) (drawobj : Drawobj) : Drawctxt × Retire → Prop where
  | stays {retire : Retire} (here : retire ≠ .gone)
      (sent : retire = .send → drawobj.type ≠ .bindobj ∧ (drawobj.type = .syncobj → drawobj.hw = true)) :
      Retires ctx around drawobj (ctx, retire)
  | started (type : drawobj.type = .bindobj) : Retires ctx around drawobj
        (ctx.setObj drawobj { ctx.obj drawobj with bindStarted := true }, .again)
  | plain (type : drawobj.type.timestamped = false)
      (ready : drawobj.type = .syncobj → around.eventsPending drawobj = false) :
      Retires ctx around drawobj (ctx.popDrawobj, .gone)
  | bound (type : drawobj.type = .bindobj) :
      Retires ctx around drawobj (ctx.popDrawobj.retireTimestampOnly drawobj, .gone)
  | marker (type : drawobj.type = .markerobj)
      (reached : ctx.checkTimestamp (ctx.obj drawobj).markerTimestamp = true) :
      Retires ctx around drawobj ((ctx.setExpired drawobj).popDrawobj.retireTimestampOnly drawobj, .gone)
  | fenced (type : drawobj.type = .markerobj)
      (reached : ctx.checkTimestamp (ctx.obj drawobj).markerTimestamp = true) :
      Retires ctx around drawobj ((ctx.setExpired drawobj).retireTimestampOnly drawobj, .send)

theorem retire_cases (ctx : Drawctxt) (around : Surroundings) (drawobj : Drawobj) :
    ctx.Retires around drawobj (ctx.retire around drawobj) := by
  have kept : ∀ retire, retire ≠ .gone → drawobj.type ≠ .bindobj → drawobj.type ≠ .syncobj →
      ctx.Retires around drawobj (ctx, retire) :=
    fun retire here bind sync => .stays here fun _ => ⟨bind, fun is => absurd is sync⟩
  unfold retire
  cases type : drawobj.type with
  | cmdobj =>
    dsimp only
    split <;> exact kept _ (by nofun) (type ▸ by nofun) (type ▸ by nofun)
  | syncobj =>
    unfold retireSyncobj
    dsimp only
    split
    · rename_i ready
      exact .plain (type ▸ rfl) fun _ => ready
    split
    · rename_i fenced
      rw [and_eq_true] at fenced
      exact .stays (by nofun) fun _ => ⟨type ▸ by nofun, fun _ => fenced.2⟩
    · exact .stays (by nofun) (by nofun)
  | markerobj =>
    unfold retireMarkerobj
    dsimp only
    split
    · rename_i expired
      unfold markerExpired at expired
      rw [and_eq_true] at expired
      split
      · exact .fenced type expired.2
      · exact .marker type expired.2
    · split <;> exact kept _ (by nofun) (type ▸ by nofun) (type ▸ by nofun)
  | bindobj =>
    unfold retireBindobj
    dsimp only
    split
    · exact .bound type
    · exact .started type
  | timelineobj => exact .plain (type ▸ rfl) fun sync => by cases type ▸ sync

theorem setObj_obj (state : DrawobjState) : (ctx.setObj drawobj state).obj drawobj = state :=
  update_self ..

theorem unexpired (is : ctx.obj drawobj = written) (clean : written.markerExpired = false) :
    ctx.expired drawobj = false := by
  rw [expired, is, clean, Bool.and_false]

theorem setExpired_obj :
    (ctx.setExpired drawobj).obj drawobj = { ctx.obj drawobj with markerExpired := true } := setObj_obj _

theorem setExpired_stamp : ((ctx.setExpired drawobj).obj drawobj).timestamp = (ctx.obj drawobj).timestamp := by
  rw [setExpired_obj]

theorem setExpired_marked : ((ctx.setExpired drawobj).obj drawobj).markerExpired = true := by
  rw [setExpired_obj]

theorem setObj_obj_of_ne (apart : other.address ≠ drawobj.address) :
    (ctx.setObj drawobj state).obj other = ctx.obj other := update_of_ne apart ..

theorem sameObjs_setObj (timestamp : written.timestamp = (ctx.obj drawobj).timestamp)
    (waits : written.markerTimestamp = (ctx.obj drawobj).markerTimestamp)
    (expired : written.markerExpired = (ctx.obj drawobj).markerExpired) :
    ctx.SameObjs (ctx.setObj drawobj written) list := by
  intro other _
  by_cases same : other.address = drawobj.address
  · have old : ctx.obj other = ctx.obj drawobj := congrArg ctx.objs same
    have new : (ctx.setObj drawobj written).obj other = written := by
      rw [obj, same]
      exact setObj_obj written
    rw [Drawctxt.expired, Drawctxt.expired, old, new]
    exact ⟨timestamp, waits, by rw [expired]⟩
  · rw [Drawctxt.expired, setObj_obj_of_ne same]
    exact ⟨rfl, rfl, rfl⟩

theorem SameObjs.trans (first : ctx.SameObjs middle list) (second : middle.SameObjs after list) :
    ctx.SameObjs after list := by
  intro other mem
  obtain ⟨timestamp, waits, expired⟩ := first other mem
  obtain ⟨stamp, wait, still⟩ := second other mem
  exact ⟨stamp.trans timestamp, wait.trans waits, still.trans expired⟩

theorem forceMarkers_frame (ctx : Drawctxt) (list : List Drawobj) (fuel place : Nat) :
    ctx.SameObjs (forceMarkers fuel place ctx) list ∧ (forceMarkers fuel place ctx).eoptimestamp = ctx.eoptimestamp ∧
    (forceMarkers fuel place ctx).timestamp = ctx.timestamp := by
  have force : ∀ (ctx : Drawctxt) (drawobj : Drawobj), ctx.SameObjs (ctx.forceMarker drawobj) list ∧
      (ctx.forceMarker drawobj).eoptimestamp = ctx.eoptimestamp ∧
      (ctx.forceMarker drawobj).timestamp = ctx.timestamp := by
    intro ctx drawobj
    unfold forceMarker
    split
    · exact ⟨sameObjs_setObj rfl rfl rfl, rfl, rfl⟩
    · exact ⟨fun _ _ => ⟨rfl, rfl, rfl⟩, rfl, rfl⟩
  induction fuel generalizing place ctx with
  | zero => exact ⟨fun _ _ => ⟨rfl, rfl, rfl⟩, rfl, rfl⟩
  | succ fuel ih =>
    unfold forceMarkers
    split
    · exact ⟨fun _ _ => ⟨rfl, rfl, rfl⟩, rfl, rfl⟩
    split
    · rename_i drawobj _
      obtain ⟨same, eop, timestamp⟩ := force ctx drawobj
      obtain ⟨objs, eops, timestamps⟩ :=
        ih (ctx.forceMarker drawobj) (drawqueueNext place adrenoContextDrawqueueSize)
      exact ⟨same.trans objs, eops.trans eop, timestamps.trans timestamp⟩
    · exact ih ctx _

def give (ctx : Drawctxt) (drawobj : Drawobj) (timestamp : Nat) : Drawctxt :=
  setObj { ctx with timestamp := timestamp } drawobj { ctx.obj drawobj with timestamp := timestamp }

theorem getTimestamp_cases (ctx : Drawctxt) (drawobj : Drawobj) (userTs : Nat) :
    (ctx.refuses userTs = true ∧ ctx.getTimestamp drawobj userTs = none) ∨ (ctx.refuses userTs = false ∧
      ctx.getTimestamp drawobj userTs = some (ctx.give drawobj (ctx.nextTimestamp userTs))) := by
  unfold getTimestamp nextTimestamp
  by_cases gen : ctx.userGeneratedTs = true
  · have refused : ctx.refuses userTs = decide (0 ≤ timestampCmp ctx.timestamp userTs) := by
      rw [refuses, gen, Bool.true_and]
    rw [if_pos gen, refused]
    split
    · rename_i old
      exact .inl ⟨decide_eq_true old, rfl⟩
    · rename_i new
      exact .inr ⟨decide_eq_false new, rfl⟩
  · rw [if_neg gen, if_neg gen]
    refine .inr ⟨?_, rfl⟩
    rw [refuses, Bool.eq_false_iff.mpr gen, Bool.false_and]

theorem Line.next (line : ctx.Line list) (word : userTs < 4294967296) (new : ctx.refuses userTs = false)
    (near : ctx.ahead (ctx.nextTimestamp userTs) < kgslTimestampWindow) : ctx.nextTimestamp userTs < 4294967296 ∧
      ctx.ahead ctx.timestamp < ctx.ahead (ctx.nextTimestamp userTs) := by
  have eop := line.eop
  have last := line.last
  have window := line.window
  unfold nextTimestamp at *
  unfold refuses at new
  by_cases gen : ctx.userGeneratedTs = true
  · rw [if_pos gen] at near ⊢
    rw [gen, Bool.true_and, decide_eq_false_iff_not] at new
    refine ⟨word, ?_⟩
    unfold timestampCmp at new
    unfold ahead u32 kgslTimestampWindow at *
    dsimp only at new
    split_ifs at new <;> omega
  · rw [if_neg gen] at near ⊢
    unfold ahead u32 kgslTimestampWindow at *
    omega

end Drawctxt

namespace RetireState

variable {state after : RetireState} {items before rest : List Drawobj} {drawobj : Drawobj}
  {place : Nat} {ctx : Drawctxt}

def held (state : RetireState) : List Drawobj := state.gpu ++ state.walk.hand

def Guarded (state : RetireState) (before : List Drawobj) : Prop :=
  (before = [] ∧ state.held = []) ∨
    ∃ earlier tsobj queued, before = earlier ++ [swSyncobj tsobj] ∧ state.implicit tsobj = some queued ∧
      state.ctx.Awaits (state.signaled tsobj) queued (state.held ++ earlier)

theorem Guarded.mono (guarded : state.Guarded before) (implicit : after.implicit = state.implicit)
    (signaled : after.signaled = state.signaled) (held : ∀ drawobj ∈ after.held, drawobj ∈ state.held)
    (nearer : ∀ drawobj ∈ after.held ++ before, state.ctx.Nearer after.ctx drawobj) : after.Guarded before := by
  obtain ⟨rfl, none⟩ | ⟨earlier, tsobj, queued, rfl, waits, awaits⟩ := guarded
  · rw [none] at held
    exact .inl ⟨rfl, eq_nil_iff_forall_not_mem.mpr fun drawobj mem =>
      not_mem_nil (held drawobj mem)⟩
  refine .inr ⟨earlier, tsobj, queued, rfl, implicit ▸ waits, ?_⟩
  rw [signaled]
  refine awaits.mono (fun drawobj mem => ?_) fun drawobj mem => nearer drawobj ?_
  · rw [mem_append] at mem ⊢
    exact mem.imp_left (held drawobj)
  · rw [← append_assoc]
    exact mem_append_left _ mem

theorem Guarded.popped (guarded : state.Guarded (drawobj :: before))
    (implicit : after.implicit = state.implicit) (signaled : after.signaled = state.signaled)
    (held : ∀ other ∈ after.held, other ∈ state.held ∨ other = drawobj)
    (nearer : ∀ other ∈ after.held ++ before, state.ctx.Nearer after.ctx other)
    (alone : ∀ tsobj queued, drawobj = swSyncobj tsobj → state.implicit tsobj = some queued →
      state.ctx.Awaits (state.signaled tsobj) queued state.held → after.held = []) : after.Guarded before := by
  obtain ⟨empty, _⟩ | ⟨earlier, tsobj, queued, is, waits, awaits⟩ := guarded
  · cases empty
  cases earlier with
  | nil =>
    obtain ⟨rfl, rfl⟩ := cons.inj is
    rw [append_nil] at awaits
    exact .inl ⟨rfl, alone tsobj queued rfl waits awaits⟩
  | cons first earlier =>
    rw [cons_append] at is
    obtain ⟨rfl, rfl⟩ := cons.inj is
    refine .inr ⟨earlier, tsobj, queued, rfl, implicit ▸ waits, ?_⟩
    rw [signaled]
    refine awaits.mono (fun other mem => ?_) fun other mem => nearer other ?_
    · rw [mem_append] at mem
      rw [mem_append, mem_cons]
      obtain now | early := mem
      · exact (held other now).imp_right .inl
      · exact .inr (.inr early)
    · rw [← append_assoc]
      exact mem_append_left _ mem

structure Kept (state : RetireState) (items : List Drawobj) : Prop where
  holds : state.ctx.toDrawqueue.Holds items
  room : items.length + state.walk.hand.length ≤ adrenoContextDrawqueueSize - 1
  distinct : ((state.held ++ items).map Drawobj.address).Nodup
  line : state.ctx.Line ((state.held ++ items).filter state.ctx.pending)
  gpu : ∀ drawobj ∈ state.gpu, state.ctx.pending drawobj = true ∧ drawobj.type ≠ .bindobj
  hand : ∀ drawobj ∈ state.walk.hand, drawobj.type ≠ .bindobj ∧ (state.ctx.expired drawobj = true → state.gpu = [])
  front : ∀ before drawobj behind, items = before ++ drawobj :: behind →
    state.ctx.expired drawobj = true → before = [] ∧ state.held = [] ∧
      state.ctx.eoptimestamp = (state.ctx.obj drawobj).timestamp
  walking : ∀ place, state.walk = .walking place → place = state.ctx.drawqueueHead
  binds : ∀ before drawobj behind, items = before ++ drawobj :: behind → drawobj.type = .bindobj →
    state.Guarded before
  reads : ∀ thread queued, state.thread thread = .read queued → queued < 4294967296
  waits : ∀ tsobj queued, state.implicit tsobj = some queued → queued < 4294967296

/-- Nothing that is unfinished looks complete, nor was it given out before what is retired. -/
def Linear (state : RetireState) : Prop :=
  ∀ drawobj ∈ state.unfinished, drawobj.type = .cmdobj ∨ drawobj.type = .bindobj →
    0 < timestampCmp (state.ctx.obj drawobj).timestamp state.ctx.eoptimestamp ∧
      state.ctx.checkTimestamp (state.ctx.obj drawobj).timestamp = false

/-- The step keeps what every step keeps, and the retired timestamp does not go back. -/
def Onward (state after : RetireState) : Prop :=
  (∃ items, after.Kept items) ∧ 0 ≤ timestampCmp after.ctx.eoptimestamp state.ctx.eoptimestamp

namespace Kept

theorem held_walking (walking : state.walk = .walking place) : state.held = state.gpu := by
  rw [held, walking]
  exact append_nil _

theorem still {walk : QueueWalk} (kept : state.Kept items) (queue : ctx.toDrawqueue = state.ctx.toDrawqueue)
    (objs : state.ctx.SameObjs ctx (state.held ++ items))
    (eop : ctx.eoptimestamp = state.ctx.eoptimestamp) (timestamp : ctx.timestamp = state.ctx.timestamp)
    (queued : ctx.queuedTimestamp = state.ctx.queuedTimestamp) (hand : walk.hand = state.walk.hand)
    (head : ∀ place, walk = .walking place → place = state.ctx.drawqueueHead) :
    Kept { state with ctx := ctx, walk := walk } items := by
  have same : held { state with ctx := ctx, walk := walk } = state.held := by
    rw [held, held, ← hand]
  have all : ∀ drawobj ∈ state.held, drawobj ∈ state.held ++ items := fun _ => mem_append_left _
  have own : ∀ drawobj ∈ items, drawobj ∈ state.held ++ items := fun _ => mem_append_right _
  constructor
  · rw [queue]
    exact kept.holds
  · rw [hand]
    exact kept.room
  · rw [same]
    exact kept.distinct
  · rw [same]
    exact objs.line kept.line eop timestamp queued
  · intro drawobj mem
    rw [pending, (objs drawobj (all drawobj (mem_append_left _ mem))).2.2]
    exact kept.gpu drawobj mem
  · intro drawobj mem
    rw [hand] at mem
    rw [(objs drawobj (all drawobj (mem_append_right _ mem))).2.2]
    exact kept.hand drawobj mem
  · intro before drawobj behind is expired
    have mem := own drawobj (is ▸ mem_append_right _ (mem_cons_self ..))
    rw [(objs drawobj mem).2.2] at expired
    rw [same]
    rw [eop, (objs drawobj mem).1]
    exact kept.front before drawobj behind is expired
  · intro place is
    rw [head place is, congrArg Drawqueue.drawqueueHead queue]
  · intro before drawobj behind is type
    refine (kept.binds before drawobj behind is type).mono rfl rfl (fun other mem => same ▸ mem)
      fun other mem => objs.nearer eop ?_
    rw [same, mem_append] at mem
    rw [is, mem_append, mem_append]
    exact mem.imp_right .inl
  · exact kept.reads
  · exact kept.waits

section

variable (kept : state.Kept (drawobj :: rest)) (walking : state.walk = .walking place)
  (queue : ctx.toDrawqueue = state.ctx.toDrawqueue.pop)
  (objs : state.ctx.SameObjs ctx (state.gpu ++ rest))
include kept walking queue objs

theorem dropped (line : ctx.Line ((state.gpu ++ rest).filter ctx.pending))
    (nearer : ∀ other ∈ state.gpu ++ rest, state.ctx.Nearer ctx other)
    (ready : ∀ tsobj queued, drawobj = swSyncobj tsobj → state.implicit tsobj = some queued →
      state.signaled tsobj = true) : Kept { state with
      ctx := ctx
      walk := .walking (drawqueueNext place adrenoContextDrawqueueSize) } rest := by
  have was := held_walking walking
  have same : held { state with
      ctx := ctx
      walk := .walking (drawqueueNext place adrenoContextDrawqueueSize) } = state.gpu :=
    append_nil _
  constructor
  · rw [queue]
    exact kept.holds.pop
  · have room := kept.room
    rw [length_cons] at room
    show rest.length + 0 ≤ _
    omega
  · have nodup := kept.distinct
    rw [was] at nodup
    rw [same]
    exact nodup.sublist (((sublist_cons_self drawobj rest).append_left state.gpu).map _)
  · rw [same]
    exact line
  · intro other mem
    rw [pending, (objs other (mem_append_left _ mem)).2.2]
    exact kept.gpu other mem
  · exact fun other mem => absurd mem not_mem_nil
  · intro before other behind is expired
    have mem : other ∈ state.gpu ++ rest :=
      mem_append_right _ (is ▸ mem_append_right _ (mem_cons_self ..))
    rw [(objs other mem).2.2] at expired
    have front := kept.front (drawobj :: before) other behind (is ▸ rfl) expired
    exact absurd front.1 (cons_ne_nil _ _)
  · intro next is
    have head : ctx.drawqueueHead = drawqueueNext state.ctx.drawqueueHead adrenoContextDrawqueueSize :=
      congrArg Drawqueue.drawqueueHead queue
    rw [head, ← kept.walking place walking]
    exact (QueueWalk.walking.inj is).symm
  · intro before other behind is type
    have guarded := kept.binds (drawobj :: before) other behind (is ▸ rfl) type
    refine guarded.popped rfl rfl (fun other mem => ?_) (fun other mem => nearer other ?_)
      fun tsobj queued is waits awaits => ?_
    · rw [same] at mem
      rw [was]
      exact .inl mem
    · rw [same, mem_append] at mem
      rw [is, mem_append, mem_append]
      exact mem.imp_right .inl
    · rw [same]
      refine eq_nil_iff_forall_not_mem.mpr fun other mem => ?_
      obtain ⟨pending, work⟩ := kept.gpu other mem
      rw [was] at awaits
      have unsignaled := (awaits other mem pending work).1
      rw [ready tsobj queued is waits] at unsignaled
      cases unsignaled
  · exact kept.reads
  · exact kept.waits

theorem taken (line : ctx.Line ((state.gpu ++ drawobj :: rest).filter ctx.pending))
    (nearer : ∀ other ∈ state.gpu ++ drawobj :: rest, state.ctx.Nearer ctx other)
    (type : drawobj.type ≠ .bindobj) (hardware : drawobj.type = .syncobj → drawobj.hw = true)
    (alone : ctx.expired drawobj = true → state.gpu = []) :
    Kept { state with ctx := ctx, walk := .holding drawobj } rest := by
  have was := held_walking walking
  have same : held { state with ctx := ctx, walk := .holding drawobj } ++ rest
      = state.gpu ++ drawobj :: rest := append_assoc ..
  constructor
  · rw [queue]
    exact kept.holds.pop
  · have room := kept.room
    rw [length_cons] at room
    show rest.length + 1 ≤ _
    omega
  · rw [same, ← was]
    exact kept.distinct
  · rw [same]
    exact line
  · intro other mem
    rw [pending, (objs other (mem_append_left _ mem)).2.2]
    exact kept.gpu other mem
  · intro other mem
    cases mem_singleton.mp mem
    exact ⟨type, alone⟩
  · intro before other behind is expired
    have mem : other ∈ state.gpu ++ rest :=
      mem_append_right _ (is ▸ mem_append_right _ (mem_cons_self ..))
    rw [(objs other mem).2.2] at expired
    have front := kept.front (drawobj :: before) other behind (is ▸ rfl) expired
    exact absurd front.1 (cons_ne_nil _ _)
  · nofun
  · intro before other behind is bind
    have guarded := kept.binds (drawobj :: before) other behind (is ▸ rfl) bind
    refine guarded.popped rfl rfl (fun other mem => ?_) (fun other mem => nearer other ?_)
      fun tsobj queued is waits awaits => ?_
    · rw [was]
      exact (mem_append.mp mem).imp_right mem_singleton.mp
    · rw [← same, is]
      rw [mem_append] at mem
      rw [mem_append, mem_append]
      exact mem.imp_right .inl
    · rw [is] at hardware
      cases hardware rfl
  · exact kept.reads
  · exact kept.waits

end

theorem new_sameObjs (new : ∀ other ∈ list, other.address ≠ drawobj.address)
    (objs : ctx.objs = (state.ctx.setObj drawobj written).objs) : state.ctx.SameObjs ctx list := by
  intro other mem
  have same : ctx.obj other = state.ctx.obj other := by
    rw [Drawctxt.obj, objs]
    exact Drawctxt.setObj_obj_of_ne (new other mem)
  rw [expired, same]
  exact ⟨rfl, rfl, rfl⟩

section

variable (kept : state.Kept (drawobj :: rest))
include kept

theorem behind (none : state.held = []) (stamped : drawobj.type.timestamped = true)
    (eop : ctx.eoptimestamp = (state.ctx.obj drawobj).timestamp) (timestamp : ctx.timestamp = state.ctx.timestamp)
    (queued : ctx.queuedTimestamp = state.ctx.queuedTimestamp) (objs : state.ctx.SameObjs ctx rest) :
    ctx.Line (rest.filter ctx.pending) ∧ (∀ other ∈ rest, state.ctx.Nearer ctx other) ∧
      0 ≤ timestampCmp ctx.eoptimestamp state.ctx.eoptimestamp := by
  have line := kept.line
  rw [none, nil_append, filter_cons] at line
  have pendings : ∀ other ∈ rest, ctx.pending other = true → state.ctx.pending other = true := by
    intro other mem pending
    rw [Drawctxt.pending, ← (objs other mem).2.2]
    exact pending
  by_cases pending : state.ctx.pending drawobj = true
  · rw [if_pos pending] at line
    rw [objs.filter]
    refine ⟨line.advance.congr eop timestamp queued objs.words, fun other mem still => ?_, ?_⟩
    · exact line.nearer eop (mem_filter.mpr ⟨mem, pendings other mem still⟩)
        (pendings other mem) (objs other mem).1 still
    · rw [eop]
      exact Int.le_of_lt (line.unreached (mem_cons_self ..)).2
  · rw [if_neg pending] at line
    have expired : state.ctx.expired drawobj = true := by
      rw [Drawctxt.pending, stamped, Bool.true_and, Bool.not_eq_true'] at pending
      exact Bool.not_eq_false _ |>.mp pending
    have front := (kept.front [] drawobj rest rfl expired).2.2
    have same : ctx.eoptimestamp = state.ctx.eoptimestamp := eop.trans front.symm
    refine ⟨objs.line line same timestamp queued, fun other mem => objs.nearer same mem, ?_⟩
    rw [timestampCmp_eq_zero.mpr same]

theorem apart (mem : other ∈ state.held ++ rest) : other.address ≠ drawobj.address := by
  have nodup := kept.distinct
  rw [map_append] at nodup
  have lone := perm_middle.nodup_iff.mp nodup
  rw [nodup_cons, ← map_append] at lone
  exact fun same => lone.1 (same ▸ mem_map_of_mem mem)

theorem sameObjs (objs : ctx.objs = (state.ctx.setObj drawobj written).objs) : state.ctx.SameObjs ctx rest :=
  new_sameObjs (fun _ mem => kept.apart (mem_append_right _ mem)) objs

end

theorem onward (kept : after.Kept items) (eop : after.ctx.eoptimestamp = state.ctx.eoptimestamp) :
    state.Onward after := by
  refine ⟨⟨items, kept⟩, ?_⟩
  rw [timestampCmp_eq_zero.mpr eop]

section

variable (kept : state.Kept (drawobj :: rest))
include kept

theorem marker_alone (walking : state.walk = .walking place) (marker : drawobj.type = .markerobj)
    (reached : state.ctx.checkTimestamp (state.ctx.obj drawobj).markerTimestamp = true) : state.held = [] := by
  have was := held_walking walking
  by_cases expired : state.ctx.expired drawobj = true
  · exact (kept.front [] drawobj rest rfl expired).2.1
  have pending : state.ctx.pending drawobj = true := by
    rw [pending, marker, eq_false_iff.mpr expired]
    rfl
  have whole : state.gpu.filter state.ctx.pending = state.gpu :=
    filter_eq_self.mpr fun other mem => (kept.gpu other mem).1
  have line := kept.line
  rw [was, filter_append, whole, filter_cons, if_pos pending] at line
  rw [was]
  exact line.marker_first marker reached

theorem bind_alone (bind : drawobj.type = .bindobj) : state.held = [] := by
  obtain ⟨_, none⟩ | ⟨earlier, _, _, is, _⟩ := kept.binds [] drawobj rest rfl bind
  · exact none
  · exact absurd is.symm (append_ne_nil_of_right_ne_nil _ (cons_ne_nil _ _))

theorem retired (walking : state.walk = .walking place) (none : state.held = [])
    (stamped : drawobj.type.timestamped = true) (async : drawobj.type ≠ .syncobj)
    (queue : ctx.toDrawqueue = state.ctx.toDrawqueue.pop)
    (eop : ctx.eoptimestamp = (state.ctx.obj drawobj).timestamp) (timestamp : ctx.timestamp = state.ctx.timestamp)
    (queued : ctx.queuedTimestamp = state.ctx.queuedTimestamp)
    (objs : ctx.objs = (state.ctx.setObj drawobj written).objs) : state.Onward { state with
      ctx := ctx
      walk := .walking (drawqueueNext place adrenoContextDrawqueueSize) } := by
  have empty : state.gpu = [] := (append_eq_nil_iff.mp none).1
  have same : state.ctx.SameObjs ctx rest :=
    kept.sameObjs objs
  obtain ⟨line, nearer, later⟩ := kept.behind none stamped eop timestamp queued same
  refine ⟨⟨rest, kept.dropped walking queue ?_ ?_ ?_ fun tsobj queued is => ?_⟩, later⟩
  · rw [empty]
    exact same
  · rw [empty]
    exact line
  · rw [empty]
    exact nearer
  · rw [is] at async
    exact absurd rfl async

end

section

variable (kept : state.Kept items)
include kept

theorem turn (walking : state.walk = .walking place) (around : Surroundings) :
    state.Onward (state.turn place around) := by
  have hand : state.walk.hand = [] := by
    rw [walking]
    rfl
  have was := held_walking walking
  obtain rfl := kept.walking place walking
  have stop : ({ state with walk := .idle } : RetireState).Kept items :=
    kept.still rfl (fun _ _ => ⟨rfl, rfl, rfl⟩) rfl rfl rfl hand.symm (by nofun)
  unfold RetireState.turn
  split
  · exact onward stop rfl
  rename_i filled
  cases items with
  | nil => exact absurd (kept.holds.ring.empty_iff.mpr rfl) filled
  | cons drawobj rest =>
    rw [kept.holds.ring.front]
    dsimp only
    have cases := state.ctx.retire_cases (state.surroundings around) drawobj
    generalize state.ctx.retire (state.surroundings around) drawobj = result at cases
    cases cases with
    | @stays retire here sent =>
      cases retire with
      | gone => exact absurd rfl here
      | again => exact onward stop rfl
      | noSpace => exact onward stop rfl
      | send =>
        obtain ⟨type, hardware⟩ := sent rfl
        refine onward (kept.taken walking rfl (fun _ _ => ⟨rfl, rfl, rfl⟩) ?_ ?_ type hardware ?_) rfl
        · have line := kept.line
          rw [was] at line
          exact line.congr rfl rfl rfl fun _ _ => ⟨rfl, rfl⟩
        · exact fun other _ pending => ⟨pending, fun _ le => ⟨le, le_rfl⟩⟩
        · exact fun expired => was ▸ (kept.front [] drawobj rest rfl expired).2.1
    | started type =>
      have same : state.ctx.SameObjs (state.ctx.setObj drawobj
          { state.ctx.obj drawobj with bindStarted := true }) (state.held ++ drawobj :: rest) :=
        Drawctxt.sameObjs_setObj rfl rfl rfl
      exact onward (kept.still rfl same rfl rfl rfl hand.symm (by nofun)) rfl
    | plain type ready =>
      have done : state.ctx.pending drawobj = false := by
        rw [pending, type, Bool.false_and]
      refine onward (kept.dropped walking rfl (fun _ _ => ⟨rfl, rfl, rfl⟩) ?_
        (fun other _ pending => ⟨pending, fun _ le => ⟨le, le_rfl⟩⟩) ?_) rfl
      · have line := kept.line
        rw [was, filter_append, filter_cons, if_neg (Bool.eq_false_iff.mp done), ← filter_append] at line
        exact line.congr rfl rfl rfl fun _ _ => ⟨rfl, rfl⟩
      · rintro tsobj queued rfl waits
        have fired : (if (state.implicit tsobj).isSome then !state.signaled tsobj
          else around.eventsPending (swSyncobj tsobj)) = false := ready rfl
        rw [waits, Option.isSome_some, if_pos rfl, Bool.not_eq_false'] at fired
        exact fired
    | bound type =>
      exact kept.retired walking (kept.bind_alone type) (type ▸ rfl) (type ▸ by nofun) rfl rfl rfl
        rfl (update_eq_self ..).symm
    | marker type reached =>
      refine kept.retired walking (kept.marker_alone walking type reached) (type ▸ rfl)
        (type ▸ by nofun) rfl ?_ rfl rfl rfl
      exact Drawctxt.setExpired_stamp
    | fenced type reached =>
      have none := kept.marker_alone walking type reached
      have empty : state.gpu = [] := (append_eq_nil_iff.mp none).1
      have eop : (((state.ctx.setExpired drawobj).retireTimestampOnly drawobj).popDrawobj).eoptimestamp
          = (state.ctx.obj drawobj).timestamp := Drawctxt.setExpired_stamp
      have marked : ((state.ctx.setExpired drawobj).obj drawobj).markerExpired = true :=
        Drawctxt.setExpired_marked
      have same : state.ctx.SameObjs ((state.ctx.setExpired drawobj).retireTimestampOnly drawobj).popDrawobj rest :=
        kept.sameObjs rfl
      obtain ⟨line, nearer, later⟩ := kept.behind none (type ▸ rfl) eop rfl rfl same
      have done : pending ((state.ctx.setExpired drawobj).retireTimestampOnly drawobj).popDrawobj drawobj = false := by
        rw [pending, expired, type]
        show (_ && !(_ && ((state.ctx.setExpired drawobj).obj drawobj).markerExpired)) = false
        rw [marked]
        rfl
      refine ⟨⟨rest, kept.taken walking rfl ?_ ?_ ?_ (type ▸ by nofun) (fun is => ?_)
        fun _ => empty⟩, later⟩
      · rw [empty]
        exact same
      · rw [empty, nil_append, filter_cons, if_neg (Bool.eq_false_iff.mp done)]
        exact line
      · intro other listed
        rw [empty, nil_append, mem_cons] at listed
        obtain rfl | listed := listed
        · intro pending
          rw [done] at pending
          cases pending
        · exact nearer other listed
      · rw [type] at is
        cases is

theorem front_held (some : state.held ≠ []) : ∀ drawobj ∈ items, state.ctx.expired drawobj = false := by
  intro drawobj mem
  obtain ⟨before, behind, is⟩ := append_of_mem mem
  refine eq_false_iff.mpr fun expired => ?_
  exact some (kept.front before drawobj behind is expired).2.1

theorem not_front (some : state.held ≠ []) {behind : List Drawobj} {prop : Prop}
    (is : items = before ++ drawobj :: behind) (expired : state.ctx.expired drawobj = true) : prop := by
  have not := kept.front_held some drawobj (is ▸ mem_append_right _ (mem_cons_self ..))
  rw [expired] at not
  cases not

theorem submit (holding : state.walk = .holding drawobj) : (state.submit drawobj).Kept items := by
  have hand : state.walk.hand = [drawobj] := by
    rw [holding]
    rfl
  have was : state.held = state.gpu ++ [drawobj] := by
    rw [held, hand]
  have some : state.held ≠ [] := was ▸ append_ne_nil_of_right_ne_nil _ (cons_ne_nil _ _)
  have type := (kept.hand drawobj (hand ▸ mem_singleton_self _)).1
  have lines : (((state.submit drawobj).held ++ items).filter state.ctx.pending)
      = (state.held ++ items).filter state.ctx.pending := by
    unfold RetireState.submit held
    rw [hand]
    split
    · rw [show QueueWalk.idle.hand = [] from rfl, append_nil]
    · rename_i done
      rw [show QueueWalk.idle.hand = [] from rfl, append_nil, filter_append, filter_append,
        filter_append, filter_cons, if_neg done, filter_nil, append_nil]
  have fewer : (state.submit drawobj).held.Sublist state.held := by
    rw [was]
    unfold RetireState.submit held
    rw [show QueueWalk.idle.hand = [] from rfl, append_nil]
    split
    · exact List.Sublist.refl _
    · exact sublist_append_left ..
  constructor
  · exact kept.holds
  · have room := kept.room
    show items.length + 0 ≤ _
    omega
  · exact kept.distinct.sublist ((fewer.append_right items).map _)
  · show state.ctx.Line (List.filter state.ctx.pending _)
    rw [lines]
    exact kept.line
  · intro other mem
    have mem : other ∈ if state.ctx.pending drawobj = true then state.gpu ++ [drawobj] else state.gpu :=
      mem
    split at mem
    · rename_i pending
      rw [mem_append, mem_singleton] at mem
      obtain old | rfl := mem
      · exact kept.gpu other old
      · exact ⟨pending, type⟩
    · exact kept.gpu other mem
  · exact fun other mem => absurd mem not_mem_nil
  · exact fun before other behind is expired => kept.not_front some is expired
  · nofun
  · intro before other behind is bind
    exact (kept.binds before other behind is bind).mono rfl rfl (fun other mem => fewer.subset mem)
      fun other _ pending => ⟨pending, fun _ le => ⟨le, le_rfl⟩⟩
  · exact kept.reads
  · exact kept.waits

theorem requeue (holding : state.walk = .holding drawobj) (curr : state.ctx.expired drawobj = true →
      (state.ctx.obj drawobj).timestamp = state.ctx.eoptimestamp) :
    Kept { state with ctx := state.ctx.requeueDrawobj drawobj, walk := .idle } (drawobj :: items) := by
  have hand : state.walk.hand = [drawobj] := by
    rw [holding]
    rfl
  have same : held { state with ctx := state.ctx.requeueDrawobj drawobj, walk := .idle } = state.gpu :=
    append_nil _
  have whole : state.held ++ items = state.gpu ++ drawobj :: items := by
    rw [held, hand, append_assoc, singleton_append]
  have some : state.held ≠ [] := by
    rw [held, hand]
    exact append_ne_nil_of_right_ne_nil _ (cons_ne_nil _ _)
  obtain ⟨type, alone⟩ := kept.hand drawobj (hand ▸ mem_singleton_self _)
  have frame : ∀ list, state.ctx.SameObjs (state.ctx.requeueDrawobj drawobj) list := by
    intro list
    unfold Drawctxt.requeueDrawobj
    split
    · exact Drawctxt.sameObjs_setObj rfl rfl rfl
    · exact fun _ _ => ⟨rfl, rfl, rfl⟩
  have fixed : (state.ctx.requeueDrawobj drawobj).eoptimestamp = state.ctx.eoptimestamp ∧
      (state.ctx.requeueDrawobj drawobj).timestamp = state.ctx.timestamp ∧
      (state.ctx.requeueDrawobj drawobj).queuedTimestamp = state.ctx.queuedTimestamp := by
    unfold Drawctxt.requeueDrawobj
    split <;> exact ⟨rfl, rfl, rfl⟩
  obtain ⟨eop, timestamp, queued⟩ := fixed
  have room := kept.room
  rw [hand, length_singleton] at room
  constructor
  · rw [Drawctxt.requeueDrawobj_queue]
    exact kept.holds.putBack (by omega)
  · exact room
  · rw [same, ← whole]
    exact kept.distinct
  · rw [same, ← whole]
    exact (frame _).line kept.line eop timestamp queued
  · intro other mem
    rw [pending, (frame [other] other (mem_singleton_self _)).2.2]
    exact kept.gpu other mem
  · exact fun other mem => absurd mem not_mem_nil
  · intro before other behind is expired
    rw [(frame [other] other (mem_singleton_self _)).2.2] at expired
    cases before with
    | nil =>
      obtain ⟨rfl, rfl⟩ := cons.inj is
      rw [same]
      rw [eop, (frame [drawobj] drawobj (mem_singleton_self _)).1]
      exact ⟨rfl, alone expired, (curr expired).symm⟩
    | cons first before =>
      exact kept.not_front some (cons.inj is).2 expired
  · nofun
  · intro before other behind is bind
    cases before with
    | nil =>
      obtain ⟨rfl, rfl⟩ := cons.inj is
      exact absurd bind type
    | cons first before =>
      obtain ⟨rfl, rest⟩ := cons.inj is
      obtain ⟨_, none⟩ | ⟨earlier, tsobj, queued, rfl, waits, awaits⟩ :=
        kept.binds before other behind rest bind
      · exact absurd none some
      · refine .inr ⟨drawobj :: earlier, tsobj, queued, rfl, waits, ?_⟩
        rw [same]
        refine awaits.mono (fun other mem => ?_) fun other _ => (frame [other]).nearer eop (by simp)
        rw [held, hand, append_assoc]
        exact mem
  · exact kept.reads
  · exact kept.waits

theorem complete {gpu : List Drawobj} (first : state.gpu = drawobj :: gpu) :
    state.Onward { state with ctx := state.ctx.retireTimestampOnly drawobj, gpu := gpu } := by
  have held_eq : state.held = drawobj :: (gpu ++ state.walk.hand) := by
    rw [held, first, cons_append]
  have some : state.held ≠ [] := held_eq ▸ cons_ne_nil _ _
  have pending := (kept.gpu drawobj (first ▸ mem_cons_self ..)).1
  have line := kept.line
  rw [held_eq, cons_append, filter_cons, if_pos pending] at line
  refine ⟨⟨items, ?_⟩, Int.le_of_lt (line.unreached (mem_cons_self ..)).2⟩
  refine { kept with distinct := ?_, line := ?_, gpu := ?_, hand := ?_, front := ?_, binds := ?_ }
  · have nodup := kept.distinct
    rw [held_eq, cons_append, map_cons, nodup_cons] at nodup
    exact nodup.2
  · exact line.advance.congr rfl rfl rfl fun _ _ => ⟨rfl, rfl⟩
  · exact fun other mem => kept.gpu other (first ▸ mem_cons_of_mem _ mem)
  · intro other mem
    obtain ⟨type, alone⟩ := kept.hand other mem
    exact ⟨type, fun expired => absurd (alone expired) (first ▸ cons_ne_nil _ _)⟩
  · exact fun before other behind is expired => kept.not_front some is expired
  · intro before other behind is bind
    refine (kept.binds before other behind is bind).mono rfl rfl (fun other mem => ?_) fun other mem still => ?_
    · rw [held_eq]
      exact mem_cons_of_mem _ mem
    · have mem : other ∈ gpu ++ state.walk.hand ++ items := by
        rw [mem_append] at mem ⊢
        exact mem.imp_right fun early => is ▸ mem_append_left _ early
      exact line.nearer rfl (mem_filter.mpr ⟨mem, still⟩) id rfl still

theorem signal (waits : state.implicit addr = some queued) (reached : state.ctx.checkTimestamp queued = true) :
    Kept { state with signaled := update state.signaled addr true } items := by
  refine { kept with binds := fun before other behind is bind => ?_ }
  obtain none | ⟨earlier, tsobj, timestamp, rfl, waited, awaits⟩ := kept.binds before other behind is bind
  · exact .inl none
  refine .inr ⟨earlier, tsobj, timestamp, rfl, waited, ?_⟩
  show state.ctx.Awaits (update state.signaled addr true tsobj) timestamp (state.held ++ earlier)
  by_cases fired : tsobj = addr
  · subst fired
    cases Option.some.inj (waited.symm.trans waits)
    intro drawobj mem pending work
    obtain ⟨_, le, window⟩ := awaits drawobj mem pending work
    have given : drawobj ∈ (state.held ++ items).filter state.ctx.pending := by
      refine mem_filter.mpr ⟨?_, pending⟩
      rw [is, append_assoc, ← append_assoc]
      exact mem_append_left _ mem
    have later := kept.line.later drawobj given
    have unreached := (Drawctxt.unreached kept.line.eop (kept.waits tsobj queued waits)
      (lt_of_lt_of_le later le) window).1
    rw [reached] at unreached
    cases unreached
  · rw [update_of_ne fired]
    exact awaits

theorem createSyncobj {thread : Nat} (read : state.thread thread = .read queued)
    (new : state.implicit address = none) : Kept { state.setThread thread (.created address) with
      implicit := update state.implicit address (some queued)
      signaled := update state.signaled address false } items := by
  refine { kept with
      binds := fun before other behind is bind => ?_, reads := fun other timestamp is => ?_,
      waits := fun tsobj timestamp is => ?_ }
  · obtain none | ⟨earlier, tsobj, timestamp, rfl, waited, awaits⟩ :=
      kept.binds before other behind is bind
    · exact .inl none
    have apart : tsobj ≠ address := fun same => by
      rw [same, new] at waited
      cases waited
    refine .inr ⟨earlier, tsobj, timestamp, rfl, ?_, ?_⟩
    · show update state.implicit address (some queued) tsobj = _
      rw [update_of_ne apart]
      exact waited
    · show state.ctx.Awaits (update state.signaled address false tsobj) timestamp
        (state.held ++ earlier)
      rw [update_of_ne apart]
      exact awaits
  · have is : update state.thread thread (.created address) other = .read timestamp := is
    by_cases same : other = thread
    · rw [same, update_self] at is
      cases is
    · rw [update_of_ne same] at is
      exact kept.reads other timestamp is
  · have is : update state.implicit address (some queued) tsobj = some timestamp := is
    by_cases same : tsobj = address
    · rw [same, update_self] at is
      cases is
      exact kept.reads thread queued read
    · rw [update_of_ne same] at is
      exact kept.waits tsobj timestamp is

theorem setThread (thread : Nat) (word : ∀ queued, cmd = .read queued → queued < 4294967296) :
    (state.setThread thread cmd).Kept items := by
  refine { kept with reads := fun other queued is => ?_ }
  have is : update state.thread thread cmd other = .read queued := is
  by_cases same : other = thread
  · rw [same, update_self] at is
    exact word queued is
  · rw [update_of_ne same] at is
    exact kept.reads other queued is

theorem pushed (queue : ctx.toDrawqueue = state.ctx.toDrawqueue.push drawobj)
    (room : items.length + 1 + state.walk.hand.length ≤ adrenoContextDrawqueueSize - 1)
    (new : ∀ other ∈ state.held ++ items, other.address ≠ drawobj.address)
    (objs : state.ctx.SameObjs ctx (state.held ++ items))
    (eop : ctx.eoptimestamp = state.ctx.eoptimestamp) (unexpired : ctx.expired drawobj = false)
    (line : ctx.Line ((state.held ++ items ++ [drawobj]).filter ctx.pending))
    (guarded : drawobj.type = .bindobj → state.Guarded items) (unlocked : ∀ place, state.walk ≠ .walking place) :
    Kept { state with ctx := ctx } (items ++ [drawobj]) := by
  have old : ∀ before, (∀ other ∈ before, other ∈ items) → state.Guarded before →
      Guarded { state with ctx := ctx } before := by
    intro before subset guarded
    refine guarded.mono rfl rfl (fun _ mem => mem) fun other mem => objs.nearer eop ?_
    rw [mem_append] at mem ⊢
    exact mem.imp_right (subset other)
  constructor
  · rw [queue]
    exact kept.holds.push (by omega)
  · rw [length_append]
    exact room
  · rw [← append_assoc, map_append]
    refine nodup_append.mpr ⟨kept.distinct, pairwise_singleton _ _, fun one has two same => ?_⟩
    obtain ⟨other, mem, rfl⟩ := mem_map.mp has
    rw [mem_singleton.mp same]
    exact new other mem
  · rw [← append_assoc]
    exact line
  · intro other mem
    rw [pending, (objs other (mem_append_left _ (mem_append_left _ mem))).2.2]
    exact kept.gpu other mem
  · intro other mem
    rw [(objs other (mem_append_left _ (mem_append_right _ mem))).2.2]
    exact kept.hand other mem
  · intro before other behind is expired
    obtain ⟨rfl, rfl⟩ | ⟨rest, rfl, rfl⟩ := split_concat is
    · rw [unexpired] at expired
      cases expired
    · have mem : other ∈ state.held ++ (before ++ other :: rest) :=
        mem_append_right _ (mem_append_right _ (mem_cons_self ..))
      rw [(objs other mem).2.2] at expired
      rw [eop, (objs other mem).1]
      exact kept.front before other rest rfl expired
  · exact fun place is => absurd is (unlocked place)
  · intro before other behind is bind
    obtain ⟨rfl, rfl⟩ | ⟨rest, rfl, rfl⟩ := split_concat is
    · exact old before (fun _ => id) (guarded bind)
    · exact old before (fun _ => mem_append_left _) (kept.binds before other rest rfl bind)
  · exact kept.reads
  · exact kept.waits

end


theorem queueObj_plain (kept : state.Kept items) (type : drawobj.type.timestamped = false)
    (room : items.length + 1 + state.walk.hand.length ≤ adrenoContextDrawqueueSize - 1)
    (new : ∀ other ∈ state.held ++ items, other.address ≠ drawobj.address)
    (unlocked : ∀ place, state.walk ≠ .walking place) (userTs : Nat) :
    ∃ ctx written, state.ctx.queueObj drawobj userTs = (ctx, .queued) ∧
      ctx = { state.ctx.setObj drawobj written with toDrawqueue := state.ctx.toDrawqueue.push drawobj } ∧
      Kept { state with ctx := ctx } (items ++ [drawobj]) := by
  have written : state.ctx.queueObj drawobj userTs
      = ((state.ctx.setObj drawobj { state.ctx.obj drawobj with timestamp := 0 }).queueDrawobj drawobj,
        .queued) := by
    unfold Drawctxt.queueObj
    cases kind : drawobj.type with
    | syncobj => rfl
    | timelineobj => rfl
    | cmdobj | markerobj | bindobj =>
      rw [kind] at type
      cases type
  have objs : state.ctx.SameObjs ((state.ctx.setObj drawobj
      { state.ctx.obj drawobj with timestamp := 0 }).queueDrawobj drawobj) (state.held ++ items) :=
    new_sameObjs new rfl
  have unmarked : drawobj.type ≠ .markerobj := fun is => by
    rw [is] at type
    cases type
  refine ⟨_, { state.ctx.obj drawobj with timestamp := 0 }, written, rfl,
    kept.pushed rfl room new objs rfl ?_ ?_ (fun is => ?_) unlocked⟩
  · rw [expired, decide_eq_false unmarked, Bool.false_and]
  · have done : (Drawctxt.queueDrawobj (state.ctx.setObj drawobj
        { state.ctx.obj drawobj with timestamp := 0 }) drawobj).pending drawobj = false := by
      rw [pending, type, Bool.false_and]
    rw [filter_append, filter_cons, if_neg (Bool.eq_false_iff.mp done), filter_nil, append_nil]
    exact objs.line kept.line rfl rfl rfl
  · rw [is] at type
    cases type

theorem pushed_stamped (kept : state.Kept items) (type : drawobj.type.timestamped = true)
    (room : items.length + 1 + state.walk.hand.length ≤ adrenoContextDrawqueueSize - 1)
    (new : ∀ other ∈ state.held ++ items, other.address ≠ drawobj.address)
    (unlocked : ∀ place, state.walk ≠ .walking place) (word : userTs < 4294967296)
    (ok : state.ctx.refuses userTs = false)
    (near : state.ctx.ahead (state.ctx.nextTimestamp userTs) < kgslTimestampWindow)
    (guarded : drawobj.type = .bindobj → state.Guarded items)
    (queue : ctx.toDrawqueue = state.ctx.toDrawqueue.push drawobj)
    (objs : state.ctx.SameObjs ctx (state.held ++ items)) (eop : ctx.eoptimestamp = state.ctx.eoptimestamp)
    (timestamp : ctx.timestamp = state.ctx.nextTimestamp userTs)
    (stamp : (ctx.obj drawobj).timestamp = ctx.timestamp)
    (queued : ctx.queuedTimestamp = ctx.timestamp) (unexpired : ctx.expired drawobj = false)
    (waits : drawobj.type = .markerobj → (ctx.obj drawobj).markerTimestamp = state.ctx.queuedTimestamp) :
    state.Onward { state with ctx := ctx } := by
  obtain ⟨fits, more⟩ := kept.line.next word ok near
  have pending : ctx.pending drawobj = true := by
    rw [pending, type, unexpired]
    rfl
  refine onward (kept.pushed queue room new objs eop unexpired ?_ guarded unlocked) eop
  rw [filter_append, filter_cons, if_pos pending, objs.filter]
  rw [← timestamp] at fits more near
  exact kept.line.append eop objs.words stamp fits more near queued waits

theorem fastPath (kept : state.Kept items) (empty : state.ctx.queued = 0)
    (reached : state.ctx.checkTimestamp state.ctx.queuedTimestamp = true)
    (word : userTs < 4294967296) (ok : state.ctx.refuses userTs = false)
    (near : state.ctx.ahead (state.ctx.nextTimestamp userTs) < kgslTimestampWindow)
    (new : ∀ other ∈ state.held ++ items, other.address ≠ drawobj.address)
    (unlocked : ∀ place, state.walk ≠ .walking place) : state.Onward { state with
      ctx := (state.ctx.give drawobj (state.ctx.nextTimestamp userTs)).retireTimestampOnly drawobj } := by
  have none := kept.line.queued_reached reached
  rw [kept.holds.counted] at empty
  cases eq_nil_of_length_eq_zero empty
  obtain ⟨fits, more⟩ := kept.line.next word ok near
  have stamp : ((state.ctx.give drawobj (state.ctx.nextTimestamp userTs)).retireTimestampOnly
      drawobj).eoptimestamp = state.ctx.nextTimestamp userTs :=
    congrArg DrawobjState.timestamp (Drawctxt.setObj_obj _)
  have objs : state.ctx.SameObjs ((state.ctx.give drawobj
      (state.ctx.nextTimestamp userTs)).retireTimestampOnly drawobj) (state.held ++ []) :=
    new_sameObjs new rfl
  have idle : state.gpu = [] := by
    refine eq_nil_iff_forall_not_mem.mpr fun other mem => ?_
    have used : other ∈ state.held ++ [] := mem_append_left _ (mem_append_left _ mem)
    have given : other ∈ (state.held ++ []).filter state.ctx.pending :=
      mem_filter.mpr ⟨used, (kept.gpu other mem).1⟩
    rw [none] at given
    exact not_mem_nil given
  refine ⟨⟨[], ?_⟩, ?_⟩
  · refine { kept with line := ?_, gpu := ?_, hand := ?_, front := ?_, walking := ?_, binds := ?_ }
    · show Drawctxt.Line _ (List.filter (pending _) (state.held ++ []))
      rw [objs.filter, none]
      exact .skip stamp fits
    · intro other mem
      rw [idle] at mem
      exact absurd mem not_mem_nil
    · exact fun other mem => ⟨(kept.hand other mem).1, fun _ => idle⟩
    · exact fun before other behind is => absurd is (by simp)
    · exact fun place is => absurd is (unlocked place)
    · exact fun before other behind is => absurd is (by simp)
  · rw [stamp]
    exact Int.le_of_lt (Drawctxt.unreached kept.line.eop fits (Nat.zero_lt_of_lt more) near).2

theorem queueObj_stamped (kept : state.Kept items) (type : drawobj.type.timestamped = true)
    (room : items.length + 1 + state.walk.hand.length ≤ adrenoContextDrawqueueSize - 1)
    (new : ∀ other ∈ state.held ++ items, other.address ≠ drawobj.address)
    (zero : state.ctx.obj drawobj = .zero) (unlocked : ∀ place, state.walk ≠ .walking place)
    (word : userTs < 4294967296) (near : state.ctx.refuses userTs = true ∨
      state.ctx.ahead (state.ctx.nextTimestamp userTs) < kgslTimestampWindow)
    (guarded : drawobj.type = .bindobj → state.Guarded items) :
    state.Onward { state with ctx := (state.ctx.queueObj drawobj userTs).1 } := by
  have refusedOr := state.ctx.getTimestamp_cases drawobj userTs
  have given : ((state.ctx.give drawobj (state.ctx.nextTimestamp userTs)).obj drawobj).timestamp
      = state.ctx.nextTimestamp userTs := congrArg DrawobjState.timestamp (Drawctxt.setObj_obj _)
  have clean : ((state.ctx.give drawobj (state.ctx.nextTimestamp userTs)).obj drawobj).markerExpired = false := by
    rw [Drawctxt.give, Drawctxt.setObj_obj, zero]
    rfl
  have same : state.ctx.SameObjs (state.ctx.give drawobj (state.ctx.nextTimestamp userTs))
      (state.held ++ items) := new_sameObjs new rfl
  have accepts : state.ctx.refuses userTs = false →
      state.ctx.ahead (state.ctx.nextTimestamp userTs) < kgslTimestampWindow := by
    intro ok
    rw [ok] at near
    exact near.resolve_left false_ne_true
  unfold Drawctxt.queueObj
  cases kind : drawobj.type with
  | syncobj | timelineobj =>
    rw [kind] at type
    cases type
  | cmdobj =>
    unfold Drawctxt.queueCmdobj
    obtain ⟨_, is⟩ | ⟨ok, is⟩ := refusedOr
    · rw [is]
      exact onward kept rfl
    rw [is]
    have frame := fun list => (state.ctx.give drawobj (state.ctx.nextTimestamp userTs)).forceMarkers_frame
      list adrenoContextDrawqueueSize state.ctx.drawqueueHead
    obtain ⟨forced, eop, timestamp⟩ := frame (state.held ++ items)
    have stamp := ((frame [drawobj]).1 drawobj (mem_singleton_self _)).1.trans given
    refine kept.pushed_stamped type room new unlocked word ok (accepts ok) guarded
      (congrArg (Drawqueue.push · drawobj) Drawctxt.forceMarkers_queue) (same.trans forced) eop timestamp
      (stamp.trans timestamp.symm) (stamp.trans timestamp.symm) ?_ fun marker => ?_
    · rw [expired, kind]
      rfl
    · rw [kind] at marker
      cases marker
  | bindobj =>
    unfold Drawctxt.queueBindobj
    obtain ⟨_, is⟩ | ⟨ok, is⟩ := refusedOr
    · rw [is]
      exact onward kept rfl
    rw [is]
    refine kept.pushed_stamped type room new unlocked word ok (accepts ok) guarded rfl same
      rfl rfl given given ?_ fun marker => ?_
    · rw [expired, kind]
      rfl
    · rw [kind] at marker
      cases marker
  | markerobj =>
    unfold Drawctxt.queueMarkerobj
    obtain ⟨_, is⟩ | ⟨ok, is⟩ := refusedOr
    · rw [is]
      exact onward kept rfl
    rw [is]
    dsimp only
    split
    · rename_i fast
      rw [and_eq_true, decide_eq_true_eq] at fast
      exact kept.fastPath fast.1 fast.2 word ok (accepts ok) new unlocked
    have last : ∀ written, (((state.ctx.give drawobj (state.ctx.nextTimestamp userTs)).setObj drawobj
        written).obj drawobj) = written := Drawctxt.setObj_obj
    refine kept.pushed_stamped type room new unlocked word ok (accepts ok) guarded rfl
      (new_sameObjs new (update_idem ..)) rfl rfl ?_ ?_ ?_ fun _ => ?_
    · exact (congrArg DrawobjState.timestamp (last _)).trans given
    · exact (congrArg DrawobjState.timestamp (last _)).trans given
    · exact Drawctxt.unexpired (last _) clean
    · exact congrArg DrawobjState.markerTimestamp (last _)

structure Fronted (state : RetireState) (items : List Drawobj) (objects : List Drawobj)
    (ctx : Drawctxt) : Prop where
  kept : Kept { state with ctx := ctx } (items ++ objects)
  eop : ctx.eoptimestamp = state.ctx.eoptimestamp
  timestamp : ctx.timestamp = state.ctx.timestamp
  generated : ctx.userGeneratedTs = state.ctx.userGeneratedTs
  others : ∀ other : Drawobj, (∀ drawobj ∈ objects, other.address ≠ drawobj.address) →
    ctx.obj other = state.ctx.obj other

theorem queueFront (kept : state.Kept items) (types : ∀ drawobj ∈ objects, drawobj.type.timestamped = false)
    (room : items.length + objects.length + state.walk.hand.length ≤ adrenoContextDrawqueueSize - 1)
    (new : ∀ drawobj ∈ objects, ∀ other ∈ state.held ++ items, other.address ≠ drawobj.address)
    (nodup : (objects.map Drawobj.address).Nodup) (unlocked : ∀ place, state.walk ≠ .walking place)
    (userTs : Nat) (tail : List Drawobj) :
    ∃ ctx, state.ctx.queueObjs userTs (objects ++ tail) = ctx.queueObjs userTs tail ∧
      Fronted state items objects ctx := by
  induction objects generalizing state items with
  | nil =>
    refine ⟨state.ctx, rfl, ?_, rfl, rfl, rfl, fun _ _ => rfl⟩
    rw [append_nil]
    exact kept
  | cons drawobj rest ih =>
    rw [length_cons] at room
    rw [map_cons, nodup_cons] at nodup
    have first : drawobj ∈ drawobj :: rest := mem_cons_self ..
    obtain ⟨ctx, written, queued, is, pushed⟩ :=
      kept.queueObj_plain (types drawobj first) (by omega) (new drawobj first) unlocked userTs
    have apart : ∀ later ∈ rest, later.address ≠ drawobj.address := fun later mem same =>
      nodup.1 (same ▸ mem_map_of_mem mem)
    have follow := ih pushed (fun later mem => types later (mem_cons_of_mem _ mem)) (by
        show (items ++ [drawobj]).length + rest.length + state.walk.hand.length ≤ _
        rw [length_append, length_singleton]
        omega) (fun later mem other used => by
        rw [← append_assoc, mem_append, mem_singleton] at used
        obtain old | rfl := used
        · exact new later (mem_cons_of_mem _ mem) other old
        · exact (apart later mem).symm) nodup.2 unlocked
    obtain ⟨last, steps, front⟩ := follow
    refine ⟨last, ?_, ?_, ?_, ?_, ?_, fun other different => ?_⟩
    · rw [cons_append, Drawctxt.queueObjs, queued]
      exact steps
    · rw [append_cons]
      exact front.kept
    · exact front.eop.trans (is ▸ rfl)
    · exact front.timestamp.trans (is ▸ rfl)
    · exact front.generated.trans (is ▸ rfl)
    · rw [front.others other fun later mem => different later (mem_cons_of_mem _ mem), is]
      exact Drawctxt.setObj_obj_of_ne (different drawobj (mem_cons_self ..))

theorem queueObjs_last (ctx : Drawctxt) (userTs : Nat) (drawobj : Drawobj) :
    (ctx.queueObjs userTs [drawobj]).1 = (ctx.queueObj drawobj userTs).1 := by
  rw [Drawctxt.queueObjs]
  split
  · rename_i queued
    rw [queued]
    rfl
  · rfl

theorem queueLast {front : List Drawobj} (kept : state.Kept items)
    (types : ∀ drawobj ∈ front, drawobj.type.timestamped = false) (type : drawobj.type.timestamped = true)
    (room : items.length + (front.length + 1) + state.walk.hand.length ≤ adrenoContextDrawqueueSize - 1)
    (new : ∀ own ∈ front ++ [drawobj], ∀ other ∈ state.held ++ items, other.address ≠ own.address)
    (zero : state.ctx.obj drawobj = .zero) (nodup : ((front ++ [drawobj]).map Drawobj.address).Nodup)
    (unlocked : ∀ place, state.walk ≠ .walking place) (word : userTs < 4294967296)
    (near : state.ctx.refuses userTs = true ∨
      state.ctx.ahead (state.ctx.nextTimestamp userTs) < kgslTimestampWindow)
    (guarded : drawobj.type = .bindobj → ∀ ctx, Fronted state items front ctx →
      Guarded { state with ctx := ctx } (items ++ front)) :
    state.Onward { state with ctx := (state.ctx.queueObjs userTs (front ++ [drawobj])).1 } := by
  rw [map_append, nodup_append] at nodup
  obtain ⟨inner, _, apart⟩ := nodup
  obtain ⟨ctx, steps, fronted⟩ := kept.queueFront types (by omega)
    (fun own mem => new own (mem_append_left _ mem)) inner unlocked userTs [drawobj]
  have differs : ∀ own ∈ front, drawobj.address ≠ own.address := fun own mem same =>
    apart own.address (mem_map_of_mem mem) drawobj.address (by simp) same.symm
  have far := Drawctxt.ahead_congr fronted.eop
  have last : Onward { state with ctx := ctx }
      { state with ctx := (ctx.queueObj drawobj userTs).1 } := fronted.kept.queueObj_stamped type
    (by
      rw [length_append]
      omega)
    (fun other used => by
      rw [← append_assoc, mem_append] at used
      obtain old | own := used
      · exact new drawobj (by simp) other old
      · exact (differs other own).symm)
    ((fronted.others drawobj differs).trans zero) unlocked word
    (by
      rw [refuses, Drawctxt.nextTimestamp, far, fronted.timestamp, fronted.generated]
      exact near)
    fun bind => guarded bind ctx fronted
  rw [steps, queueObjs_last]
  refine ⟨last.1, ?_⟩
  rw [← fronted.eop]
  exact last.2

theorem live_eq (kept : state.Kept items) : state.live = state.held ++ items := by
  have all : ∀ list : List Drawobj, (list.map some).reduceOption = list := by
    intro list
    induction list with
    | nil => rfl
    | cons drawobj rest ih => rw [map_cons, reduceOption_cons_of_some, ih]
  rw [live, held, kept.holds.contents_eq, all]

theorem new_of_live (kept : state.Kept items)
    (unused : (state.live.all fun drawobj => drawobj.address ≠ address) = true) :
    ∀ other ∈ state.held ++ items, other.address ≠ address := by
  intro other mem
  rw [kept.live_eq] at unused
  exact of_decide_eq_true (all_eq_true.mp unused other mem)

theorem new_of_fresh (kept : state.Kept items) (fresh : state.fresh address = true) :
    state.ctx.objs address = .zero ∧ ∀ other ∈ state.held ++ items, other.address ≠ address := by
  unfold RetireState.fresh at fresh
  rw [and_eq_true, and_eq_true, decide_eq_true_eq] at fresh
  exact ⟨fresh.1.2, kept.new_of_live fresh.2⟩

structure Admitted (state : RetireState) (batch : Batch) : Prop where
  some : batch.objects ≠ []
  word : batch.userTs < 4294967296
  distinct : (batch.objects.map Drawobj.address).Nodup
  unlocked : ∀ place, state.walk ≠ .walking place

theorem admitted (passed : state.admits slept batch = true) : Admitted state batch := by
  unfold RetireState.admits Batch.admissible at passed
  simp only [and_eq_true, decide_eq_true_eq] at passed
  obtain ⟨⟨⟨⟨⟨⟨some, _⟩, _⟩, word⟩, nodup⟩, _⟩, unlocked⟩ := passed
  refine ⟨fun empty => some ?_, word, nodup, fun place is => ?_⟩
  · rw [Batch.count, empty, length_nil]
  · rw [is] at unlocked
    cases unlocked

theorem queueBatch_cases (state : RetireState) (batch : Batch) : state.queueBatch batch = state ∨
    state.queueBatch batch = { state with ctx := (state.ctx.queueObjs batch.userTs batch.objects).1 } := by
  unfold RetireState.queueBatch Drawctxt.queueBatch
  split
  · exact .inl rfl
  · exact .inr rfl

theorem room_of (kept : state.Kept items) (roomy : state.roomy batch = true) :
    items.length + batch.objects.length + state.walk.hand.length ≤ adrenoContextDrawqueueSize - 1 := by
  unfold RetireState.roomy at roomy
  rw [decide_eq_true_eq, kept.holds.counted] at roomy
  exact roomy

theorem near_of (comparable : state.comparable batch = true) (mem : drawobj ∈ batch.objects)
    (type : drawobj.type.timestamped = true) : state.ctx.refuses batch.userTs = true ∨
      state.ctx.ahead (state.ctx.nextTimestamp batch.userTs) < kgslTimestampWindow := by
  unfold RetireState.comparable at comparable
  rw [or_eq_true, or_eq_true, decide_eq_true_eq] at comparable
  obtain (refused | none) | near := comparable
  · exact .inl refused
  · have plain := all_eq_true.mp none drawobj mem
    rw [type] at plain
    cases plain
  · exact .inr near

section

variable (kept : state.Kept items)
include kept

theorem queueCmds (admits : state.admits slept batch = true)
    (fresh : ∀ drawobj ∈ batch.objects, drawobj.type ≠ .bindobj ∧ state.fresh drawobj.address = true)
    (roomy : state.roomy batch = true) (comparable : state.comparable batch = true) :
    state.Onward (state.queueBatch batch) := by
  have admitted := admitted admits
  have room := kept.room_of roomy
  have new : ∀ own ∈ batch.objects, state.ctx.obj own = .zero ∧
      ∀ other ∈ state.held ++ items, other.address ≠ own.address :=
    fun own mem => kept.new_of_fresh (fresh own mem).2
  obtain same | queued := queueBatch_cases state batch
  · rw [same]
    exact onward kept rfl
  rw [queued]
  have formed := batch.formed
  have nodup := admitted.distinct
  have near : ∀ drawobj ∈ batch.objects, drawobj.type.timestamped = true → _ :=
    fun drawobj mem type => near_of comparable mem type
  obtain empty | ⟨front, drawobj, is⟩ := eq_nil_or_concat batch.objects
  · exact absurd empty admitted.some
  rw [concat_eq_append] at is
  rw [is] at fresh room new formed nodup near ⊢
  rw [dropLast_concat] at formed
  rw [length_append] at room
  cases type : drawobj.type.timestamped with
  | false =>
    have types : ∀ own ∈ front ++ [drawobj], own.type.timestamped = false := by
      intro own mem
      rw [mem_append, mem_singleton] at mem
      obtain early | rfl := mem
      · exact formed own early
      · exact type
    obtain ⟨ctx, steps, fronted⟩ := kept.queueFront types (by
        rw [length_append]
        exact room)
      (fun own mem => (new own mem).2) nodup admitted.unlocked batch.userTs []
    rw [append_nil] at steps
    rw [steps]
    exact onward fronted.kept fronted.eop
  | true =>
    exact kept.queueLast formed type room (fun own mem => (new own mem).2)
      (new drawobj (by simp)).1 nodup admitted.unlocked admitted.word (near drawobj (by simp) type)
      fun bind => absurd bind (fresh drawobj (by simp)).1

theorem awaits_of (awaited : state.awaited tsobj = true) : ∃ queued, state.implicit tsobj = some queued ∧
      state.ctx.Awaits (state.signaled tsobj) queued (state.held ++ items) := by
  unfold RetireState.awaited at awaited
  split at awaited
  · rename_i queued waits
    refine ⟨queued, waits, fun drawobj mem pending work => ?_⟩
    have unfinished : drawobj ∈ state.unfinished.filter fun drawobj => drawobj.type ≠ .bindobj := by
      refine mem_filter.mpr ⟨?_, decide_eq_true work⟩
      rw [unfinished, kept.live_eq]
      exact mem_filter.mpr ⟨mem, pending⟩
    have found := all_eq_true.mp awaited drawobj unfinished
    rw [and_eq_true, not_eq_true', decide_eq_true_eq] at found
    exact found
  · cases awaited

theorem queueBind {bind : Nat} (passed : state.admits slept (auxBatch sync tsobj bind userTs) = true)
    (fresh : sync.all state.fresh = true ∧ state.fresh bind = true)
    (unused : (state.live.all fun drawobj => drawobj.address ≠ tsobj) = true)
    (roomy : state.roomy (auxBatch sync tsobj bind userTs) = true)
    (comparable : state.comparable (auxBatch sync tsobj bind userTs) = true)
    (awaited : state.awaited tsobj = true) : state.Onward (state.queueBatch (auxBatch sync tsobj bind userTs)) := by
  have admitted := admitted passed
  have room := kept.room_of roomy
  obtain ⟨queued, waits, awaits⟩ := kept.awaits_of awaited
  have objects : (auxBatch sync tsobj bind userTs).objects
      = (sync.toList.map swSyncobj ++ [swSyncobj tsobj]) ++ [newBindobj bind] := by
    rw [append_assoc]
    rfl
  have types : ∀ drawobj ∈ sync.toList.map swSyncobj ++ [swSyncobj tsobj], drawobj.type.timestamped = false := by
    intro drawobj mem
    rw [mem_append, mem_singleton, mem_map] at mem
    obtain ⟨_, _, rfl⟩ | rfl := mem <;> rfl
  obtain same | is := queueBatch_cases state (auxBatch sync tsobj bind userTs)
  · rw [same]
    exact onward kept rfl
  rw [is]
  have nodup := admitted.distinct
  have near : ∀ drawobj ∈ (auxBatch sync tsobj bind userTs).objects,
      drawobj.type.timestamped = true → _ := fun drawobj mem type => near_of comparable mem type
  rw [objects] at room nodup near ⊢
  rw [length_append] at room
  have addrs : ∀ own ∈ sync.toList.map swSyncobj ++ [swSyncobj tsobj] ++ [newBindobj bind],
      ∀ other ∈ state.held ++ items, other.address ≠ own.address := by
    intro own mem
    rw [mem_append, mem_append, mem_singleton, mem_singleton, mem_map] at mem
    obtain (⟨address, asked, rfl⟩ | rfl) | rfl := mem
    · rw [Option.mem_toList] at asked
      rw [asked] at fresh
      exact (kept.new_of_fresh fresh.1).2
    · exact kept.new_of_live unused
    · exact (kept.new_of_fresh fresh.2).2
  refine kept.queueLast types rfl room addrs (kept.new_of_fresh fresh.2).1 nodup admitted.unlocked
    admitted.word (near (newBindobj bind) (by simp) rfl) fun _ ctx fronted => ?_
  refine .inr ⟨items ++ sync.toList.map swSyncobj, tsobj, queued, (append_assoc ..).symm, waits, ?_⟩
  have same : state.ctx.SameObjs ctx (state.held ++ items) := by
    intro other mem
    have still := fronted.others other fun own front =>
      addrs own (mem_append_left _ front) other mem
    rw [expired, still]
    exact ⟨rfl, rfl, rfl⟩
  have old : ctx.Awaits (state.signaled tsobj) queued (state.held ++ items) :=
    awaits.mono (fun _ => id) fun other mem => same.nearer fronted.eop mem
  intro drawobj mem pending work
  rw [← append_assoc, mem_append, mem_map] at mem
  obtain early | ⟨address, _, rfl⟩ := mem
  · exact old drawobj early pending work
  · cases pending

theorem linear : state.Linear := by
  intro drawobj mem _
  rw [unfinished, kept.live_eq] at mem
  exact (kept.line.unreached mem).symm

end

theorem init : (init userGeneratedTs).Kept [] where
  holds := ⟨.nil (Nat.zero_lt_succ 127), rfl⟩
  room := Nat.zero_le _
  distinct := .nil
  line := .skip rfl (Nat.zero_lt_succ _)
  gpu := by nofun
  hand := by nofun
  front before drawobj behind is := absurd is (by simp)
  walking := by nofun
  binds before drawobj behind is := absurd is (by simp)
  reads := by nofun
  waits := by nofun

theorem step {action : RetireAction} (kept : state.Kept items) (careful : state.careful action = true)
    (taken : state.step action = some after) : state.Onward after := by
  cases action with
  | queueCmds slept batch =>
    rw [RetireState.careful, Bool.and_eq_true] at careful
    rw [RetireState.step] at taken
    split at taken
    · rename_i passed
      cases taken
      rw [Bool.and_eq_true, all_eq_true] at passed
      refine kept.queueCmds passed.1 (fun drawobj mem => ?_) careful.1 careful.2
      have fresh := passed.2 drawobj mem
      rw [Bool.and_eq_true, decide_eq_true_eq] at fresh
      exact fresh
    · cases taken
  | readTimestamp thread =>
    rw [RetireState.step] at taken
    split at taken
    · cases taken
      refine onward (kept.setThread thread fun queued is => ?_) rfl
      cases is
      exact kept.line.last
    · cases taken
  | createSyncobj thread address =>
    rw [RetireState.step] at taken
    split at taken
    · rename_i queued read
      split at taken
      · rename_i fresh
        cases taken
        unfold RetireState.fresh at fresh
        rw [Bool.and_eq_true, Bool.and_eq_true, Option.isNone_iff_eq_none] at fresh
        exact onward (kept.createSyncobj read fresh.1.1) rfl
      · cases taken
    · cases taken
  | queueBind thread slept sync bind userTs =>
    rw [RetireState.step] at taken
    split at taken
    · rename_i tsobj created
      rw [RetireState.careful, created] at careful
      dsimp only at taken careful
      rw [Bool.and_eq_true, Bool.and_eq_true] at careful
      obtain ⟨⟨roomy, comparable⟩, awaited⟩ := careful
      split at taken
      · rename_i passed
        cases taken
        rw [Bool.and_eq_true, Bool.and_eq_true, Bool.and_eq_true, Bool.and_eq_true] at passed
        obtain ⟨⟨⟨admits, asked⟩, fresh⟩, _, unused⟩ := passed
        obtain ⟨⟨items, queued⟩, later⟩ :=
          kept.queueBind admits ⟨asked, fresh⟩ unused roomy comparable awaited
        exact ⟨⟨items, queued.setThread thread (by nofun)⟩, later⟩
      · cases taken
    · cases taken
  | signal address =>
    rw [RetireState.step] at taken
    split at taken
    · rename_i queued waits
      split at taken
      · rename_i reached
        cases taken
        exact onward (kept.signal waits reached) rfl
      · cases taken
    · cases taken
  | lock =>
    rw [RetireState.step] at taken
    split at taken
    · rename_i idle
      cases taken
      refine onward (kept.still rfl (fun _ _ => ⟨rfl, rfl, rfl⟩) rfl rfl rfl ?_ fun place is => ?_) rfl
      · rw [idle]
        rfl
      · exact (QueueWalk.walking.inj is).symm
    · cases taken
  | walk around =>
    rw [RetireState.step] at taken
    split at taken
    · rename_i walking
      cases taken
      exact kept.turn walking around
    · cases taken
  | submitted =>
    rw [RetireState.step] at taken
    split at taken
    · rename_i holding
      cases taken
      exact onward (kept.submit holding) rfl
    · cases taken
  | requeue =>
    rw [RetireState.step] at taken
    split at taken
    · rename_i drawobj holding
      cases taken
      refine onward (kept.requeue holding fun expired => ?_) ?_
      · rw [RetireState.careful, holding] at careful
        dsimp only at careful
        rw [expired, Bool.not_true, Bool.false_or, decide_eq_true_eq] at careful
        exact careful
      · unfold Drawctxt.requeueDrawobj
        split <;> rfl
    · cases taken
  | complete =>
    rw [RetireState.step] at taken
    split at taken
    · rename_i first
      cases taken
      exact kept.complete first
    · cases taken

end Kept

/-- The retired timestamp never goes back, and never covers a command or a bind that is unfinished. -/
theorem runs_linear (userGeneratedTs : Bool) (before : RetireState) (action : RetireAction)
    (after : RetireState) (reached : Reachable step (fun state action => state.careful action = true)
      (init userGeneratedTs) before) (careful : before.careful action = true)
    (taken : before.step action = some after) :
    before.Linear ∧ after.Linear ∧ 0 ≤ timestampCmp after.ctx.eoptimestamp before.ctx.eoptimestamp := by
  have keeps : ∃ items, before.Kept items := by
    refine reached.invariant (fun state => ∃ items, state.Kept items) ⟨[], .init⟩ ?_
    intro state action next kept careful taken
    obtain ⟨items, kept⟩ := kept
    exact (kept.step careful taken).1
  obtain ⟨items, kept⟩ := keeps
  obtain ⟨⟨later, follows⟩, onward⟩ := kept.step careful taken
  exact ⟨kept.linear, follows.linear, onward⟩

def bindsDone : Surroundings := ⟨fun _ => false, fun _ => true, false, false⟩

theorem runs_linear_bound : ∃ before after, Reachable step (fun state action => state.careful action = true)
      (init false) before ∧ before.step (.walk bindsDone) = some after ∧
    before.ctx.eoptimestamp = 1 ∧ after.ctx.eoptimestamp = 2 ∧
    before.Linear ∧ after.Linear ∧ 0 ≤ timestampCmp after.ctx.eoptimestamp before.ctx.eoptimestamp := by
  have ran : (runActions step (fun state action => state.careful action = true) (init false)
      [.queueCmds false (QueueState.cmdBatch 0), .readTimestamp 0, .createSyncobj 0 1,
        .queueBind 0 false none 2 0, .lock, .walk bindsDone, .submitted, .complete, .signal 1, .lock,
        .walk bindsDone, .walk bindsDone, .lock]).map (fun state => (state.ctx.eoptimestamp,
          (state.step (.walk bindsDone)).map fun after => after.ctx.eoptimestamp)) = some (1, some 2) := by
    decide +kernel
  obtain ⟨before, taken, ends⟩ := Option.map_eq_some_iff.mp ran
  obtain ⟨first, second⟩ := Prod.mk.inj ends
  obtain ⟨after, last, retired⟩ := Option.map_eq_some_iff.mp second
  have reached : Reachable step (fun state action => state.careful action = true) (init false) before :=
    .run .start taken
  exact ⟨before, after, reached, last, first, retired,
    runs_linear false before (.walk bindsDone) after reached rfl last⟩

/-- A bind that read the timestamp before a command was queued is retired while that command runs. -/
theorem stale_bind_covers : ¬∀ userGeneratedTs before action after,
    Reachable step (fun _ _ => True) (init userGeneratedTs) before → before.step action = some after →
    before.Linear ∧ after.Linear ∧ 0 ≤ timestampCmp after.ctx.eoptimestamp before.ctx.eoptimestamp := by
  intro always
  have ran : (runActions step (fun _ _ => True) (init false)
      [.readTimestamp 0, .queueCmds false (QueueState.cmdBatch 0), .createSyncobj 0 1, .signal 1,
        .queueBind 0 false none 2 0, .lock, .walk bindsDone, .submitted, .lock, .walk bindsDone,
        .walk bindsDone, .lock]).bind (fun state => (state.step (.walk bindsDone)).map fun after =>
          (after.unfinished.map fun drawobj => (drawobj.type, (after.ctx.obj drawobj).timestamp),
            after.ctx.eoptimestamp)) = some ([(.cmdobj, 1)], 2) := by
    decide +kernel
  obtain ⟨before, taken, ends⟩ := Option.bind_eq_some_iff.mp ran
  obtain ⟨after, last, shows⟩ := Option.map_eq_some_iff.mp ends
  obtain ⟨unfinished, eop⟩ := Prod.mk.inj shows
  have linear := (always false before (.walk bindsDone) after (.run .start taken) last).2.1
  obtain ⟨drawobj, rest, is, shows, _⟩ := List.map_eq_cons_iff.mp unfinished
  obtain ⟨type, stamp⟩ := Prod.mk.inj shows
  have covered := (linear drawobj (is ▸ List.mem_cons_self ..) (.inl type)).1
  rw [stamp, eop] at covered
  exact absurd covered (by decide)

end RetireState

end KernelModules.Hwsched

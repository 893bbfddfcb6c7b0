import KernelModules.Hwsched.Drawqueue

namespace KernelModules.Hwsched

open Data KernelModules.Kgsl List Drawqueue Option QueueState

/-! # Runs of the draw queue

The ring keeps what was accepted and has not left, as long as a thread that slept for room still finds it under the
lock.
-/

namespace Drawqueue

variable {queue : Drawqueue} {items objects : List Drawobj}

structure Holds (queue : Drawqueue) (items : List Drawobj) : Prop where
  ring : RingQueue queue.drawqueue adrenoContextDrawqueueSize queue.drawqueueHead queue.drawqueueTail
    items
  counted : queue.queued = items.length

theorem Holds.pop (holds : queue.Holds (drawobj :: items)) : queue.pop.Holds items where
  ring := holds.ring.pop
  counted := by
    show queue.queued - 1 = items.length
    rw [holds.counted, length_cons, Nat.add_sub_cancel]

section

variable (holds : queue.Holds items) (room : items.length + 1 < adrenoContextDrawqueueSize)
include holds room

theorem Holds.push : (queue.push drawobj).Holds (items ++ [drawobj]) where
  ring := holds.ring.push room
  counted := by
    show queue.queued + 1 = (items ++ [drawobj]).length
    rw [holds.counted, length_append, length_singleton]

theorem Holds.putBack : (queue.putBack drawobj).Holds (drawobj :: items) where
  ring := holds.ring.putBack room
  counted := by
    show queue.queued + 1 = (drawobj :: items).length
    rw [holds.counted, length_cons]

end

theorem Holds.pushes (holds : queue.Holds items) (room : items.length + objects.length < adrenoContextDrawqueueSize) :
    (objects.foldl Drawqueue.push queue).Holds (items ++ objects) := by
  induction objects generalizing queue items with
  | nil =>
    rw [append_nil]
    exact holds
  | cons drawobj rest ih =>
    rw [length_cons] at room
    have pushed : (queue.push drawobj).Holds (items ++ [drawobj]) := holds.push (by omega)
    rw [append_cons]
    refine ih pushed ?_
    rw [length_append, length_singleton]
    omega

theorem queued_pushes : (objects.foldl push queue).queued = queue.queued + objects.length := by
  induction objects generalizing queue with
  | nil => rfl
  | cons drawobj rest ih =>
    rw [foldl_cons, ih]
    show queue.queued + 1 + rest.length = queue.queued + (rest.length + 1)
    omega

theorem Holds.contents_eq (holds : queue.Holds items) : queue.contents = items.map some := by
  refine ext_getElem? fun index => ?_
  rw [contents, getElem?_map, getElem?_map]
  by_cases lt : index < items.length
  · rw [getElem?_range (holds.counted ▸ lt), map_some, holds.ring.held index lt, getElem?_eq_getElem lt, map_some]
  · have outside : (List.range queue.queued).length ≤ index := by
      rw [length_range, holds.counted]
      exact Nat.le_of_not_lt lt
    rw [getElem?_eq_none outside, getElem?_eq_none (Nat.le_of_not_lt lt)]
    rfl

end Drawqueue

namespace Drawctxt

variable {ctx after : Drawctxt} {drawobj : Drawobj} {userTs : Nat} {items : List Drawobj}

theorem retire_queue : (ctx.retire around drawobj).1.toDrawqueue =
    if (ctx.retire around drawobj).2 = .gone then ctx.toDrawqueue.pop else ctx.toDrawqueue := by
  unfold retire
  split
  case h_1 => split <;> rfl
  case h_2 =>
    unfold retireSyncobj
    split
    · rfl
    · split <;> rfl
  case h_3 =>
    unfold retireMarkerobj
    split
    · split <;> rfl
    · split <;> rfl
  case h_4 =>
    unfold retireBindobj
    split <;> rfl
  case h_5 => rfl

structure Walked (ctx : Drawctxt) (items : List Drawobj) (processed : Processed)
    (rest : List Drawobj) : Prop where
  parts : items = processed.retired ++ rest
  ring : RingQueue processed.ctx.drawqueue adrenoContextDrawqueueSize processed.ctx.drawqueueHead
    processed.ctx.drawqueueTail rest
  counted : processed.ctx.queued = ctx.queued - processed.retired.length
  ends : processed.next ≠ .endless
  empty : processed.next = .null → rest = []
  front : ∀ drawobj, processed.next = .drawobj drawobj → rest.head? = some drawobj

theorem Walked.stop {next : NextDrawobj}
    (ring : RingQueue after.drawqueue adrenoContextDrawqueueSize after.drawqueueHead after.drawqueueTail items)
    (counted : after.queued = ctx.queued) (ends : next ≠ .endless) (empty : next = .null → items = [])
    (front : ∀ drawobj, next = .drawobj drawobj → items.head? = some drawobj) :
    ctx.Walked items ⟨after, [], next⟩ items := ⟨rfl, ring, counted, ends, empty, front⟩

section

variable
  (ring : RingQueue ctx.drawqueue adrenoContextDrawqueueSize ctx.drawqueueHead ctx.drawqueueTail items)
include ring

theorem processFrom_walked {fuel : Nat} (enough : items.length < fuel) :
    ∃ rest, ctx.Walked items (ctx.processFrom around fuel ctx.drawqueueHead) rest := by
  induction fuel generalizing ctx items with
  | zero => exact absurd enough (Nat.not_lt_zero _)
  | succ fuel ih =>
    cases items with
    | nil =>
      unfold processFrom
      rw [if_pos (ring.empty_iff.mpr rfl)]
      exact ⟨[], .stop ring rfl (by nofun) (fun _ => rfl) (by nofun)⟩
    | cons drawobj rest =>
      have filled : ¬ctx.drawqueueHead = ctx.drawqueueTail := fun same =>
        cons_ne_nil _ _ (ring.empty_iff.mp same)
      have kept : (ctx.retire around drawobj).1.toDrawqueue = _ := retire_queue
      unfold processFrom
      rw [if_neg filled, ring.front]
      dsimp only
      split
      all_goals
        rename_i after answered
        rw [answered] at kept
      case h_4 =>
        have popped : after.toDrawqueue = ctx.toDrawqueue.pop := kept
        have remaining : RingQueue after.drawqueue adrenoContextDrawqueueSize after.drawqueueHead
            after.drawqueueTail rest := by
          rw [popped]
          exact ring.pop
        have moved : drawqueueNext ctx.drawqueueHead adrenoContextDrawqueueSize
            = after.drawqueueHead := (congrArg drawqueueHead popped).symm
        have fewer : after.queued = ctx.queued - 1 := congrArg queued popped
        rw [moved]
        obtain ⟨later, walked⟩ := ih remaining (Nat.lt_of_succ_lt_succ enough)
        refine ⟨later, congrArg (drawobj :: ·) walked.parts, walked.ring, ?_, walked.ends, walked.empty, walked.front⟩
        have counted := walked.counted
        rw [fewer, Nat.sub_sub, add_comm] at counted
        exact counted
      all_goals
        have same : after.toDrawqueue = ctx.toDrawqueue := kept
        have still : RingQueue after.drawqueue adrenoContextDrawqueueSize after.drawqueueHead
            after.drawqueueTail (drawobj :: rest) := by
          rw [same]
          exact ring
        refine ⟨drawobj :: rest, .stop still (congrArg queued same) (by nofun) (by nofun) fun found is => ?_⟩
        first
          | exact congrArg some (NextDrawobj.drawobj.inj is)
          | cases is

theorem process_walked : ∃ rest, ctx.Walked items (ctx.processDrawqueueGetNextDrawobj around) rest := by
  unfold processDrawqueueGetNextDrawobj
  split
  · rename_i same
    cases ring.empty_iff.mp same
    exact ⟨[], .stop ring rfl (by nofun) (fun _ => rfl) (by nofun)⟩
  · exact processFrom_walked ring ring.short

end

theorem Walked.holds (walked : ctx.Walked items processed rest) (counted : ctx.queued = items.length) :
    processed.ctx.toDrawqueue.Holds rest where
  ring := walked.ring
  counted := by
    rw [walked.counted, counted, walked.parts, length_append, Nat.add_sub_cancel_left]

theorem getTimestamp_queue (got : ctx.getTimestamp drawobj userTs = some after) :
    after.toDrawqueue = ctx.toDrawqueue := by
  unfold getTimestamp at got
  split at got
  · split at got
    · cases got
    · cases got
      rfl
  · cases got
    rfl

theorem getTimestamp_none (got : ctx.getTimestamp drawobj userTs = none) :
    ctx.userGeneratedTs = true ∧ 0 ≤ timestampCmp ctx.timestamp userTs := by
  unfold getTimestamp at got
  split at got
  · rename_i gen
    split at got
    · rename_i old
      exact ⟨gen, old⟩
    · cases got
  · cases got

theorem forceMarker_queue : (ctx.forceMarker drawobj).toDrawqueue = ctx.toDrawqueue := by
  unfold forceMarker
  split <;> rfl

theorem forceMarkers_queue : (forceMarkers fuel place ctx).toDrawqueue = ctx.toDrawqueue := by
  induction fuel generalizing place ctx with
  | zero => rfl
  | succ fuel ih =>
    unfold forceMarkers
    split
    · rfl
    · rw [ih]
      split
      · exact forceMarker_queue
      · rfl

inductive QueuesObj (ctx : Drawctxt) (drawobj : Drawobj) (userTs : Nat) : Drawctxt × Queueing → Prop where
  | queued {after : Drawctxt} (pushed : after.toDrawqueue = ctx.toDrawqueue.push drawobj)
      (same : drawobj.type.timestamped = false →
        after.timestamp = ctx.timestamp ∧ after.userGeneratedTs = ctx.userGeneratedTs) :
      QueuesObj ctx drawobj userTs (after, .queued)
  | retired {after : Drawctxt} (timestamped : drawobj.type.timestamped = true) (empty : ctx.queued = 0)
      (same : after.toDrawqueue = ctx.toDrawqueue) : QueuesObj ctx drawobj userTs (after, .retired)
  | refused (timestamped : drawobj.type.timestamped = true) (generated : ctx.userGeneratedTs = true)
      (old : 0 ≤ timestampCmp ctx.timestamp userTs) : QueuesObj ctx drawobj userTs (ctx, .refused)

theorem queueObj_cases : QueuesObj ctx drawobj userTs (ctx.queueObj drawobj userTs) := by
  cases kind : drawobj.type with
  | cmdobj =>
    have timestamped : drawobj.type.timestamped = true := by rw [kind]; rfl
    simp only [queueObj, kind, queueCmdobj]
    cases got : ctx.getTimestamp drawobj userTs with
    | none =>
      obtain ⟨gen, old⟩ := getTimestamp_none got
      exact .refused timestamped gen old
    | some after =>
      refine .queued ?_ fun not => absurd (timestamped.symm.trans not) (by decide)
      show (forceMarkers _ _ after).toDrawqueue.push drawobj = _
      rw [forceMarkers_queue, getTimestamp_queue got]
  | syncobj =>
    simp only [queueObj, kind, queueSyncobj]
    exact .queued rfl fun _ => ⟨rfl, rfl⟩
  | markerobj =>
    have timestamped : drawobj.type.timestamped = true := by rw [kind]; rfl
    simp only [queueObj, kind, queueMarkerobj]
    cases got : ctx.getTimestamp drawobj userTs with
    | none =>
      obtain ⟨gen, old⟩ := getTimestamp_none got
      exact .refused timestamped gen old
    | some after =>
      have same := getTimestamp_queue got
      dsimp only
      split
      · rename_i fast
        rw [Bool.and_eq_true] at fast
        have empty : after.queued = 0 := of_decide_eq_true fast.1
        rw [same] at empty
        exact .retired timestamped empty same
      · refine .queued ?_ fun not => absurd (timestamped.symm.trans not) (by decide)
        exact congrArg (push · drawobj) same
  | bindobj =>
    have timestamped : drawobj.type.timestamped = true := by rw [kind]; rfl
    simp only [queueObj, kind, queueBindobj]
    cases got : ctx.getTimestamp drawobj userTs with
    | none =>
      obtain ⟨gen, old⟩ := getTimestamp_none got
      exact .refused timestamped gen old
    | some after =>
      have same := getTimestamp_queue got
      refine .queued ?_ fun not => absurd (timestamped.symm.trans not) (by decide)
      exact congrArg (push · drawobj) same
  | timelineobj =>
    simp only [queueObj, kind, queueTimelineobj]
    exact .queued rfl fun _ => ⟨rfl, rfl⟩

theorem queueObjs_cases (formed : ∀ drawobj ∈ objects.dropLast, drawobj.type.timestamped = false)
    (fresh : ∀ drawobj ∈ objects, drawobj.type.timestamped = true → ctx.userGeneratedTs = true →
      timestampCmp ctx.timestamp userTs < 0) : ((ctx.queueObjs userTs objects).2 = .queued ∧
      (ctx.queueObjs userTs objects).1.toDrawqueue = objects.foldl push ctx.toDrawqueue) ∨
    ((ctx.queueObjs userTs objects).2 = .retired ∧ ctx.queued = 0 ∧
      (ctx.queueObjs userTs objects).1.toDrawqueue = ctx.toDrawqueue) := by
  induction objects generalizing ctx with
  | nil => exact .inl ⟨rfl, rfl⟩
  | cons drawobj rest ih =>
    have one : QueuesObj ctx drawobj userTs _ := queueObj_cases
    unfold queueObjs
    generalize ctx.queueObj drawobj userTs = result at one
    cases one with
    | queued pushed same =>
      rename_i after
      cases rest with
      | nil => exact .inl ⟨rfl, pushed⟩
      | cons second more =>
        have plain := formed drawobj (mem_cons_self ..)
        obtain ⟨timestamp, gen⟩ := same plain
        have count : after.queued = ctx.queued + 1 := congrArg queued pushed
        have freshLater : ∀ later ∈ second :: more, later.type.timestamped = true →
            after.userGeneratedTs = true → timestampCmp after.timestamp userTs < 0 := by
          intro later mem
          rw [timestamp, gen]
          exact fresh later (mem_cons_of_mem _ mem)
        obtain ⟨answer, queue⟩ | ⟨_, empty, _⟩ := ih (fun later mem => formed later (mem_cons_of_mem _ mem)) freshLater
        · rw [pushed] at queue
          exact .inl ⟨answer, queue⟩
        · omega
    | retired _ empty same => exact .inr ⟨rfl, empty, same⟩
    | refused timestamped gen old =>
      have new := fresh drawobj (mem_cons_self ..) timestamped gen
      omega

theorem queueBatch_cases (ctx : Drawctxt) (batch : Batch) : ((ctx.queueBatch batch).2 = .queued ∧
      (ctx.queueBatch batch).1.toDrawqueue = batch.objects.foldl push ctx.toDrawqueue) ∨
    ((ctx.queueBatch batch).2 ≠ .queued ∧ (ctx.queueBatch batch).1.toDrawqueue = ctx.toDrawqueue) := by
  unfold queueBatch
  split
  · exact .inr ⟨(by nofun), rfl⟩
  rename_i passed
  have fresh : ∀ drawobj ∈ batch.objects, drawobj.type.timestamped = true →
      ctx.userGeneratedTs = true → timestampCmp ctx.timestamp batch.userTs < 0 := by
    intro drawobj mem timestamped gen
    by_cases lone : batch.lone = true
    · have types : batch.objects.map Drawobj.type = [.syncobj] := of_decide_eq_true lone
      have sync : drawobj.type ∈ batch.objects.map Drawobj.type := mem_map_of_mem mem
      rw [types, mem_singleton] at sync
      rw [sync] at timestamped
      cases timestamped
    · rw [Bool.not_eq_true] at lone
      rw [lone, gen, Bool.not_false, Bool.and_self, Bool.true_and, decide_eq_true_eq] at passed
      omega
  obtain ⟨answer, queue⟩ | ⟨answer, _, queue⟩ := queueObjs_cases batch.formed fresh
  · exact .inl ⟨answer, queue⟩
  · refine .inr ⟨?_, queue⟩
    rw [answer]
    nofun

theorem requeueDrawobj_queue : (ctx.requeueDrawobj drawobj).toDrawqueue = ctx.toDrawqueue.putBack drawobj := by
  unfold requeueDrawobj
  split <;> rfl

end Drawctxt

namespace QueueState

variable {state after : QueueState} {action : QueueAction} {thread : Nat} {batch : Batch}
  {userGeneratedTs : Bool} {objs : Nat → DrawobjState}

def HasRoom (state : QueueState) (batch : Batch) : Prop :=
  state.ctx.queued + batch.count + state.hand.toList.length ≤ adrenoContextDrawqueueSize - 1

instance (state : QueueState) (batch : Batch) : Decidable (state.HasRoom batch) :=
  inferInstanceAs (Decidable (_ ≤ _))

def roomKept (state : QueueState) : QueueAction → Bool
  | .resume thread =>
    match state.thread thread with
    | .awake batch => decide (state.HasRoom batch)
    | _ => true
  | _ => true

structure Lossless (state : QueueState) : Prop where
  distance : (state.ctx.drawqueueTail + adrenoContextDrawqueueSize - state.ctx.drawqueueHead)
    % adrenoContextDrawqueueSize = state.ctx.queued
  bounded : state.ctx.queued ≤ adrenoContextDrawqueueSize - 1
  order : state.accepted.map some
    = (state.left ++ state.hand.toList).map some ++ state.ctx.contents

structure Kept (state : QueueState) (items : List Drawobj) : Prop where
  holds : state.ctx.toDrawqueue.Holds items
  room : items.length + state.hand.toList.length ≤ adrenoContextDrawqueueSize - 1
  order : state.accepted = state.left ++ state.hand.toList ++ items

namespace Kept

variable {items : List Drawobj}

theorem init : (init userGeneratedTs objs).Kept [] where
  holds := ⟨.nil (Nat.zero_lt_succ 127), rfl⟩
  room := Nat.zero_le _
  order := rfl

section

variable (kept : state.Kept items)
include kept

theorem lossless : state.Lossless where
  distance := kept.holds.ring.distance.trans kept.holds.counted.symm
  bounded := by
    have room := kept.room
    rw [kept.holds.counted]
    omega
  order := by
    rw [kept.holds.contents_eq, ← map_append, kept.order]

theorem setThread (phase : Phase) : (state.setThread thread phase).Kept items := { kept with }

theorem queueBatch (room : state.HasRoom batch) : ∃ items, (state.queueBatch batch).Kept items := by
  unfold QueueState.queueBatch
  have counted := kept.holds.counted
  unfold HasRoom Batch.count at room
  obtain ⟨answer, queue⟩ | ⟨answer, queue⟩ := state.ctx.queueBatch_cases batch
  all_goals generalize state.ctx.queueBatch batch = result at answer queue
  · obtain ⟨ctx, _⟩ := result
    cases answer
    refine ⟨items ++ batch.objects, ?_, ?_, ?_⟩
    · have pushed : ctx.toDrawqueue = batch.objects.foldl Drawqueue.push state.ctx.toDrawqueue := queue
      rw [pushed]
      refine kept.holds.pushes ?_
      unfold adrenoContextDrawqueueSize at room ⊢
      omega
    · show (items ++ batch.objects).length + state.hand.toList.length ≤ _
      rw [length_append]
      omega
    · rw [kept.order, append_assoc _ items]
  · obtain ⟨ctx, answered⟩ := result
    have same : ctx.toDrawqueue = state.ctx.toDrawqueue := queue
    have holds : ctx.toDrawqueue.Holds items := same ▸ kept.holds
    refine ⟨items, ?_⟩
    cases answered with
    | queued => exact absurd rfl answer
    | retired | refused => exact ⟨holds, kept.room, kept.order⟩

theorem queueCmds : ∃ items, (state.queueCmds thread batch).Kept items := by
  unfold QueueState.queueCmds
  split
  · split
    · exact ⟨items, kept.setThread _⟩
    rename_i roomy
    refine kept.queueBatch ?_
    have held : state.hand.toList.length ≤ 1 := by
      cases state.hand with
      | none => exact Nat.zero_le _
      | some drawobj => exact le_refl _
    unfold HasRoom
    unfold contextDrawqueueSize at roomy
    unfold adrenoContextDrawqueueSize at roomy ⊢
    omega
  · exact ⟨items, kept⟩

theorem next (free : state.hand = none) : ∃ items, (state.next around).Kept items := by
  have walks : ∃ rest, state.ctx.Walked items (state.ctx.processDrawqueueGetNextDrawobj around) rest :=
    Drawctxt.process_walked kept.holds.ring
  obtain ⟨rest, walked⟩ := walks
  have holds := walked.holds kept.holds.counted
  have parts := walked.parts
  have front := walked.front
  unfold QueueState.next
  dsimp only
  generalize state.ctx.processDrawqueueGetNextDrawobj around = processed at *
  have room := kept.room
  have order := kept.order
  rw [free, toList_none, append_nil] at order
  rw [parts, length_append] at room
  split
  · rename_i drawobj is
    obtain ⟨later, rfl⟩ := List.head?_eq_some_iff.mp (front drawobj is)
    refine ⟨later, holds.pop, ?_, ?_⟩
    · rw [length_cons] at room
      show later.length + 1 ≤ _
      omega
    · show state.accepted = state.left ++ processed.retired ++ [drawobj] ++ later
      rw [order, parts, append_assoc, append_assoc, singleton_append]
  · refine ⟨rest, holds, ?_, ?_⟩
    · rw [free, toList_none, length_nil]
      omega
    · rw [free, toList_none, append_nil, order, parts, append_assoc]

theorem step (room : state.roomKept action = true) (taken : state.step action = some after) :
    ∃ items, after.Kept items := by
  cases action with
  | queueCmds thread batch =>
    rw [step] at taken
    split at taken
    · cases taken
      exact kept.queueCmds
    · cases taken
  | roomSeen thread =>
    rw [step] at taken
    split at taken
    · split at taken
      · cases taken
        exact ⟨items, kept.setThread _⟩
      · cases taken
    · cases taken
  | giveUp thread =>
    rw [step] at taken
    split at taken
    · cases taken
      exact ⟨items, kept.setThread _⟩
    · cases taken
  | resume thread =>
    rw [step] at taken
    split at taken
    · rename_i batch awake
      cases taken
      rw [roomKept, awake, decide_eq_true_eq] at room
      obtain ⟨items, queued⟩ := kept.queueBatch room
      exact ⟨items, queued.setThread _⟩
    · cases taken
  | next around =>
    rw [step] at taken
    split at taken
    · rename_i free
      cases taken
      exact kept.next free
    · cases taken
  | submitted =>
    rw [step] at taken
    split at taken
    · rename_i drawobj held
      cases taken
      have room := kept.room
      have order := kept.order
      rw [held] at room order
      refine ⟨items, kept.holds, le_trans (Nat.le_add_right _ _) room, ?_⟩
      show state.accepted = state.left ++ [drawobj] ++ [] ++ items
      rw [order, append_nil]
      rfl
    · cases taken
  | requeue =>
    rw [step] at taken
    split at taken
    · rename_i drawobj held
      cases taken
      have room := kept.room
      have order := kept.order
      rw [held] at room order
      refine ⟨drawobj :: items, ?_, room, ?_⟩
      · rw [Drawctxt.requeueDrawobj_queue]
        refine kept.holds.putBack (lt_of_le_of_lt room ?_)
        decide
      · show state.accepted = state.left ++ [] ++ drawobj :: items
        rw [order, append_nil, append_assoc]
        rfl
    · cases taken
  | retired eoptimestamp =>
    cases taken
    exact ⟨items, kept.holds, kept.room, kept.order⟩

end

end Kept

theorem reachable_kept (reached : Reachable step (fun state action => state.roomKept action = true)
    (init userGeneratedTs objs) state) : ∃ items, state.Kept items :=
  reached.invariant (fun state => ∃ items, state.Kept items) ⟨[], .init⟩
    fun _ _ _ ⟨_, before⟩ room taken => before.step room taken

theorem queueBatch_accepted (state : QueueState) (batch : Batch) : (state.queueBatch batch).hand = state.hand ∧
    ((state.queueBatch batch).ctx.queued = state.ctx.queued + batch.count ∨
      (state.queueBatch batch).accepted = state.accepted) := by
  unfold queueBatch
  obtain ⟨answer, queue⟩ | ⟨answer, _⟩ := state.ctx.queueBatch_cases batch
  · generalize state.ctx.queueBatch batch = result at answer queue
    obtain ⟨ctx, _⟩ := result
    cases answer
    have pushed : ctx.toDrawqueue = batch.objects.foldl push state.ctx.toDrawqueue := queue
    refine ⟨rfl, .inl ?_⟩
    rw [pushed, queued_pushes]
    rfl
  · generalize state.ctx.queueBatch batch = result at answer
    obtain ⟨ctx, answered⟩ := result
    cases answered with
    | queued => exact absurd rfl answer
    | retired => exact ⟨rfl, .inr rfl⟩
    | refused => exact ⟨rfl, .inr rfl⟩

theorem not_lossless (many : adrenoContextDrawqueueSize - 1 < state.ctx.queued) : ¬state.Lossless :=
  fun lossless => not_lt.mpr lossless.bounded many

theorem overflows {before : QueueState} (kept : before.Kept items)
    (awake : before.thread thread = .awake batch) (lost : ¬before.HasRoom batch)
    (taken : before.step (.resume thread) = some after) (ok : after.accepted = before.accepted ++ batch.objects) :
    ¬after.Lossless ∨ ∃ later, after.step .requeue = some later ∧ ¬later.Lossless := by
  rw [step, awake] at taken
  cases taken
  unfold HasRoom at lost
  obtain ⟨hand, counted | refused⟩ := before.queueBatch_accepted batch
  · generalize before.queueBatch batch = queued at *
    cases held : before.hand with
    | none =>
      rw [held, toList_none, length_nil] at lost
      refine .inl (not_lossless ?_)
      show _ < queued.ctx.queued
      omega
    | some drawobj =>
      rw [held] at lost hand
      have one : (some drawobj).toList.length = 1 := rfl
      refine .inr ⟨{ queued.setThread thread .idle with
        ctx := queued.ctx.requeueDrawobj drawobj, hand := none }, ?_, not_lossless ?_⟩
      · have holding : (queued.setThread thread .idle).hand = some drawobj := hand
        rw [step, holding]
        rfl
      · rw [Drawctxt.requeueDrawobj_queue]
        show _ < queued.ctx.queued + 1
        omega
  · have empty : batch.objects = [] := by
      have same : before.accepted ++ batch.objects = before.accepted := ok.symm.trans refused
      exact append_right_eq_self.mp same
    have room := kept.room
    have counted := kept.holds.counted
    unfold Batch.count at lost
    rw [empty, length_nil] at lost
    omega

/-- A submitter that slept must find its room again; then, and else not, nothing is lost. -/
theorem runs_lossless (userGeneratedTs : Bool) (objs : Nat → DrawobjState) :
    (∀ state, Reachable step (fun state action => state.roomKept action = true)
      (init userGeneratedTs objs) state → state.Lossless) ∧
    (∀ before thread batch after, Reachable step (fun state action => state.roomKept action = true)
      (init userGeneratedTs objs) before → before.thread thread = .awake batch →
      ¬before.HasRoom batch → before.step (.resume thread) = some after →
      after.accepted = before.accepted ++ batch.objects →
      ¬after.Lossless ∨ ∃ later, after.step .requeue = some later ∧ ¬later.Lossless) := by
  refine ⟨fun state reached => ?_, fun before thread batch after reached awake lost taken accepted => ?_⟩
  · obtain ⟨_, kept⟩ := reachable_kept reached
    exact kept.lossless
  · obtain ⟨_, kept⟩ := reachable_kept reached
    exact overflows kept awake lost taken accepted

def syncBatch (count : Nat) : Batch where
  objects := (List.range count).map fun address => ⟨address, .syncobj, 0, false, false, false⟩
  userTs := 0
  formed drawobj listed := by
    obtain ⟨_, _, rfl⟩ := mem_map.mp (dropLast_subset _ listed)
    rfl

def cmdBatch (address : Nat) : Batch where
  objects := [⟨address, .cmdobj, 1, false, false, false⟩]
  userTs := 0
  formed _ listed := absurd listed not_mem_nil

def firstReady : Surroundings where
  eventsPending drawobj := decide (drawobj.address ≠ 0)
  bindDone _ := false
  hwFence := false
  bigCmdobj := false

def newObjs (_ : Nat) : DrawobjState := ⟨0, 0, false, false, false, 0⟩

theorem runs_lossless_slept : ∃ state,
    Reachable step (fun state action => state.roomKept action = true) (init false newObjs) state ∧
      state.ctx.queued = 126 ∧ state.accepted.length = 127 ∧ state.Lossless :=
  reaches [.queueCmds 0 (syncBatch 126), .queueCmds 1 (cmdBatch 126), .next firstReady, .roomSeen 1, .resume 1]
    (fun state => state.ctx.queued = 126 ∧ state.accepted.length = 127) (by decide +kernel)
    fun state reached ⟨queued, accepted⟩ => ⟨queued, accepted, (runs_lossless false newObjs).1 state reached⟩

/-- Three threads see the one free slot, and all of them use it: the full ring looks empty. -/
theorem sleepers_overflow : ¬∀ userGeneratedTs objs state,
    Reachable step (fun _ _ => True) (init userGeneratedTs objs) state → state.Lossless := by
  intro always
  obtain ⟨state, lossless, queued⟩ := holds_after (always false newObjs)
    [.queueCmds 0 (syncBatch 126), .queueCmds 1 (cmdBatch 126), .queueCmds 2 (cmdBatch 127),
      .queueCmds 3 (cmdBatch 128), .next firstReady, .roomSeen 1, .roomSeen 2, .roomSeen 3,
      .resume 1, .resume 2, .resume 3] (fun state => state.ctx.queued = 128) (by decide +kernel)
  have bounded := lossless.bounded
  rw [queued] at bounded
  exact absurd bounded (by decide)

end QueueState

end KernelModules.Hwsched

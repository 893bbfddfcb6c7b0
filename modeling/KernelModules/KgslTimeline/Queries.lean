import Mathlib.Data.List.Basic
import KernelModules.Data.Run

namespace KernelModules.KgslTimeline

open Data Function List

/-! # Signals that software timelines wait for

A GPU command names seqnos of timelines, each listed until the timeline gets there, so that a query sees it once its
timestamp retires.
-/

/-- `kgsl_timeline_event`: one of the `timelines` of a command. -/
structure TimelineEvent where
  obj : Nat
  index : Nat
  timeline : Nat
  seqno : Nat
  context : Nat
  timestamp : Nat

/-- The part of `kgsl_timeline` that is kept under `lock`. -/
structure Timeline where
  value : Nat
  events : List TimelineEvent

def insertBack (signal : TimelineEvent) : List TimelineEvent → List TimelineEvent
  | [] => [signal]
  | event :: rest =>
    if event.seqno ≤ signal.seqno then signal :: event :: rest else event :: insertBack signal rest

namespace Timeline

/-- `kgsl_timeline_add_signal` -/
def addSignal (timeline : Timeline) (signal : TimelineEvent) : Timeline :=
  if signal.seqno ≤ timeline.value then timeline
  else { timeline with events := (insertBack signal timeline.events.reverse).reverse }

/-- `kgsl_timeline_signal`, but for the fences. -/
def signal (timeline : Timeline) (seqno : Nat) : Timeline :=
  if seqno < timeline.value then timeline
  else { value := seqno, events := timeline.events.dropWhile fun event => event.seqno ≤ seqno }

/-- `kgsl_ioctl_timeline_query`, with what `kgsl_check_timestamp` says of timestamps. -/
def query (timeline : Timeline) (retired : Nat → Nat → Bool) : Nat :=
  match timeline.events.reverse.find? fun event => retired event.context event.timestamp with
  | some event => event.seqno
  | none => timeline.value

end Timeline

/-- `kgsl_drawobj_timeline` -/
structure TimelineObj where
  timelines : List TimelineEvent
  sigRefcount : Nat
  /-- How many of the `timelines` `timelineobj_destroy` has added, and whether it is done. -/
  added : Nat
  destroyed : Bool
  fired : Bool
  /-- How many of the `timelines` `_drawobj_timelineobj_retire` has signaled. -/
  signaled : Nat
  /-- The `timelines` have been freed. -/
  freed : Bool

structure QueryAnswer where
  timeline : Nat
  value : Nat
  seqno : Nat
deriving DecidableEq

structure TimelineState where
  timelines : Nat → Timeline
  objs : List TimelineObj
  retired : Nat → Nat → Bool
  answers : List QueryAnswer

inductive TimelineAction where
  /-- `kgsl_ioctl_timeline_signal` -/
  | signal (timeline seqno : Nat)
  /-- `kgsl_drawobj_add_timeline`: timelines and seqnos, behind the last queued timestamp. -/
  | create (vals : List (Nat × Nat)) (context timestamp : Nat)
  /-- A turn of the loop of `timelineobj_destroy`, and its end. -/
  | addSignal (obj : Nat)
  | destroyed (obj : Nat)
  /-- `_timeline_signaled` -/
  | fired (obj : Nat)
  /-- A turn of the loop of `_drawobj_timelineobj_retire`, and its end. -/
  | retireSignal (obj : Nat)
  | retired (obj : Nat)
  | retire (context timestamp : Nat)
  | query (timeline : Nat)

namespace TimelineState

def init (initial : Nat → Nat) : TimelineState where
  timelines timeline := { value := initial timeline, events := [] }
  objs := []
  retired _ _ := false
  answers := []

def setTimeline (state : TimelineState) (id : Nat) (timeline : Timeline) : TimelineState :=
  { state with timelines := Function.update state.timelines id timeline }

def setObj (state : TimelineState) (id : Nat) (obj : TimelineObj) : TimelineState :=
  { state with objs := state.objs.set id obj }

def newObj (state : TimelineState) (vals : List (Nat × Nat)) (context timestamp : Nat) : TimelineObj where
  timelines := vals.mapIdx fun index val =>
    { obj := state.objs.length, index, timeline := val.1, seqno := val.2, context, timestamp }
  sigRefcount := 2
  added := 0
  destroyed := false
  fired := false
  signaled := 0
  freed := false

def step (state : TimelineState) : TimelineAction → Option TimelineState
  | .signal timeline seqno =>
    some (state.setTimeline timeline ((state.timelines timeline).signal seqno))
  | .create vals context timestamp =>
    some { state with objs := state.objs ++ [state.newObj vals context timestamp] }
  | .addSignal id =>
    match state.objs[id]? with
    | none => none
    | some obj =>
      if obj.destroyed then none
      else match obj.timelines[obj.added]? with
        | none => none
        | some event =>
          some ((state.setObj id { obj with added := obj.added + 1 }).setTimeline event.timeline
            ((state.timelines event.timeline).addSignal event))
  | .destroyed id =>
    match state.objs[id]? with
    | none => none
    | some obj =>
      if obj.destroyed ∨ obj.added ≠ obj.timelines.length then none
      else some (state.setObj id { obj with destroyed := true, sigRefcount := obj.sigRefcount - 1 })
  | .fired id =>
    match state.objs[id]? with
    | none => none
    | some obj =>
      if obj.fired then none
      else some (state.setObj id { obj with fired := true, sigRefcount := obj.sigRefcount - 1 })
  | .retireSignal id =>
    match state.objs[id]? with
    | none => none
    | some obj =>
      if obj.sigRefcount ≠ 0 then none
      else match obj.timelines[obj.signaled]? with
        | none => none
        | some event =>
          some ((state.setObj id { obj with signaled := obj.signaled + 1 }).setTimeline event.timeline
            ((state.timelines event.timeline).signal event.seqno))
  | .retired id =>
    match state.objs[id]? with
    | none => none
    | some obj =>
      if obj.sigRefcount ≠ 0 ∨ obj.signaled ≠ obj.timelines.length ∨ obj.freed then none
      else some (state.setObj id { obj with freed := true })
  | .retire context timestamp =>
    some { state with
      retired := Function.update state.retired context
        (Function.update (state.retired context) timestamp true) }
  | .query timeline =>
    some { state with
      answers := state.answers ++
        [{ timeline
           value := (state.timelines timeline).value
           seqno := (state.timelines timeline).query state.retired }] }

end TimelineState

namespace Timeline

variable {timeline : Timeline} {event : TimelineEvent} {seqno : Nat} {rest : List TimelineEvent}

structure Pending (timeline : Timeline) : Prop where
  sorted : timeline.events.Pairwise fun event other => event.seqno ≤ other.seqno
  above : ∀ event ∈ timeline.events, timeline.value < event.seqno

theorem mem_insertBack : event ∈ insertBack added rest ↔ event = added ∨ event ∈ rest := by
  induction rest with
  | nil => rw [insertBack, mem_singleton, or_iff_left not_mem_nil]
  | cons first rest ih =>
    unfold insertBack
    split
    · rw [mem_cons]
    · rw [mem_cons, ih, mem_cons]
      exact or_left_comm

theorem insertBack_sorted (sorted : rest.Pairwise fun event other => other.seqno ≤ event.seqno) :
    (insertBack added rest).Pairwise fun event other => other.seqno ≤ event.seqno := by
  induction rest with
  | nil => exact pairwise_singleton ..
  | cons first rest ih =>
    obtain ⟨lt, sorted⟩ := pairwise_cons.mp sorted
    unfold insertBack
    split
    · rename_i low
      refine pairwise_cons.mpr ⟨fun other member => ?_, pairwise_cons.mpr ⟨lt, sorted⟩⟩
      obtain rfl | member := mem_cons.mp member
      · exact low
      · exact Nat.le_trans (lt other member) low
    · rename_i high
      refine pairwise_cons.mpr ⟨fun other member => ?_, ih sorted⟩
      obtain rfl | member := mem_insertBack.mp member
      · exact Nat.le_of_lt (Nat.not_le.mp high)
      · exact lt other member

theorem mem_addSignal (mem : event ∈ (timeline.addSignal added).events) : event ∈ timeline.events ∨ event = added := by
  unfold addSignal at mem
  split at mem
  · exact .inl mem
  · obtain rfl | old := mem_insertBack.mp (mem_reverse.mp mem)
    · exact .inr rfl
    · exact .inl (mem_reverse.mp old)

theorem addSignal_keeps (mem : event ∈ timeline.events) : event ∈ (timeline.addSignal added).events := by
  unfold addSignal
  split
  · exact mem
  · exact mem_reverse.mpr (mem_insertBack.mpr (.inr (mem_reverse.mpr mem)))

theorem addSignal_value : (timeline.addSignal added).value = timeline.value := by
  unfold addSignal
  split <;> rfl

theorem Pending.addSignal (pending : timeline.Pending) : (timeline.addSignal added).Pending := by
  have listed (event : TimelineEvent) (mem : event ∈ (timeline.addSignal added).events)
      (new : timeline.value < added.seqno) : timeline.value < event.seqno := by
    obtain old | rfl := mem_addSignal mem
    · exact pending.above event old
    · exact new
  unfold Timeline.addSignal at *
  split
  · exact pending
  · rename_i new
    rw [if_neg new] at listed
    refine ⟨?_, fun event mem => listed event mem (Nat.not_le.mp new)⟩
    exact pairwise_reverse.mpr (insertBack_sorted (pairwise_reverse.mpr pending.sorted))

theorem mem_dropWhile (sorted : rest.Pairwise fun event other => event.seqno ≤ other.seqno) :
    event ∈ rest.dropWhile (fun event => event.seqno ≤ seqno) ↔ event ∈ rest ∧ seqno < event.seqno := by
  induction rest with
  | nil => exact ⟨fun member => absurd member not_mem_nil, fun both => both.1⟩
  | cons first rest ih =>
    obtain ⟨above, sorted⟩ := pairwise_cons.mp sorted
    rw [dropWhile_cons]
    split
    · rename_i reached
      rw [ih sorted, mem_cons]
      refine and_congr_left fun beyond => ⟨.inr, fun member => member.resolve_left ?_⟩
      rintro rfl
      exact Nat.not_le.mpr beyond (of_decide_eq_true reached)
    rename_i beyond
    have first : seqno < first.seqno := by simpa using beyond
    refine ⟨fun member => ⟨member, ?_⟩, fun both => both.1⟩
    obtain rfl | member := mem_cons.mp member
    · exact first
    · exact Nat.lt_of_lt_of_le first (above event member)

theorem Pending.signal (pending : timeline.Pending) : (timeline.signal seqno).Pending := by
  unfold Timeline.signal
  split
  · exact pending
  · exact ⟨pending.sorted.sublist (dropWhile_sublist _), fun event mem => ((mem_dropWhile pending.sorted).mp mem).2⟩

theorem signal_value : timeline.value ≤ (timeline.signal seqno).value := by
  unfold signal
  split
  · exact Nat.le_refl _
  · rename_i reached
    exact Nat.not_lt.mp reached

theorem signal_reached : seqno ≤ (timeline.signal seqno).value := by
  unfold signal
  split
  · rename_i stale
    exact Nat.le_of_lt stale
  · exact Nat.le_refl _

theorem mem_signal (mem : event ∈ (timeline.signal seqno).events) : event ∈ timeline.events := by
  unfold signal at mem
  split at mem
  · exact mem
  · exact (dropWhile_sublist _).subset mem

theorem signal_keeps (pending : timeline.Pending) (mem : event ∈ timeline.events) :
    event ∈ (timeline.signal seqno).events ∨ event.seqno ≤ (timeline.signal seqno).value := by
  unfold signal
  split
  · exact .inl mem
  · obtain high | low := Nat.lt_or_ge seqno event.seqno
    · exact .inl ((mem_dropWhile pending.sorted).mpr ⟨mem, high⟩)
    · exact .inr low

theorem query_cases (timeline : Timeline) (retired : Nat → Nat → Bool) : timeline.query retired = timeline.value ∨
    ∃ event ∈ timeline.events, retired event.context event.timestamp = true ∧ event.seqno = timeline.query retired := by
  unfold query
  split
  · rename_i event found
    have is := find?_some found
    exact .inr ⟨event, mem_reverse.mp (mem_of_find?_eq_some found), is, rfl⟩
  · exact .inl rfl

theorem query_value (pending : timeline.Pending) : timeline.value ≤ timeline.query retired := by
  obtain same | ⟨event, mem, -, same⟩ := query_cases timeline retired
  · exact Nat.le_of_eq same.symm
  · rw [← same]
    exact Nat.le_of_lt (pending.above event mem)

theorem find_greatest (sorted : rest.Pairwise fun event other => other.seqno ≤ event.seqno)
    (first : rest.find? chosen = some found) (member : event ∈ rest) (is : chosen event = true) :
    event.seqno ≤ found.seqno := by
  induction rest with
  | nil => cases first
  | cons head rest ih =>
    obtain ⟨lt, sorted⟩ := pairwise_cons.mp sorted
    rw [find?_cons] at first
    split at first
    · cases first
      obtain rfl | member := mem_cons.mp member
      · exact Nat.le_refl _
      · exact lt event member
    · rename_i unchosen
      obtain rfl | member := mem_cons.mp member
      · rw [is] at unchosen
        cases unchosen
      · exact ih sorted first member

theorem query_retired {retired : Nat → Nat → Bool} (pending : timeline.Pending)
    (mem : event ∈ timeline.events) (is : retired event.context event.timestamp = true) : event.seqno ≤ timeline.query retired := by
  unfold query
  split
  · rename_i found first
    exact find_greatest (pairwise_reverse.mpr pending.sorted) first (mem_reverse.mpr mem) is
  · rename_i nothing
    exact absurd is (find?_eq_none.mp nothing event (mem_reverse.mpr mem))

theorem query_mono {after : Timeline} (pending : after.Pending) (value : timeline.value ≤ after.value)
    (keeps : ∀ event ∈ timeline.events, event ∈ after.events ∨ event.seqno ≤ after.value)
    (grows : ∀ ctx timestamp, retired ctx timestamp = true → later ctx timestamp = true) :
    timeline.query retired ≤ after.query later := by
  obtain same | ⟨event, mem, is, same⟩ := query_cases timeline retired
  · rw [same]
    exact Nat.le_trans value (query_value pending)
  · rw [← same]
    obtain listed | reached := keeps event mem
    · exact query_retired pending listed (grows _ _ is)
    · exact Nat.le_trans reached (query_value pending)

end Timeline

namespace TimelineState

variable {state after : TimelineState} {obj later : TimelineObj} {event : TimelineEvent} {id timeline : Nat}

/-- How far a command is, and who still holds its `sig_refcount`. -/
structure Counted (obj : TimelineObj) : Prop where
  refcount : obj.sigRefcount = obj.destroyed.not.toNat + obj.fired.not.toNat
  signaled : obj.signaled ≠ 0 → obj.sigRefcount = 0
  freed : obj.freed = true → obj.sigRefcount = 0 ∧ obj.signaled = obj.timelines.length

def Placed (id : Nat) (obj : TimelineObj) : Prop :=
  ∀ (index : Nat) (event : TimelineEvent), obj.timelines[index]? = some event → event.obj = id ∧ event.index = index

structure Kept (state : TimelineState) : Prop where
  pending : ∀ timeline, (state.timelines timeline).Pending
  known : ∀ timeline, ∀ event ∈ (state.timelines timeline).events, event.timeline = timeline ∧
    ∃ obj, state.objs[event.obj]? = some obj ∧ obj.timelines[event.index]? = some event ∧ obj.signaled ≤ event.index
  counted : ∀ id obj, state.objs[id]? = some obj → Counted obj ∧ Placed id obj

theorem Kept.alive (kept : state.Kept) (mem : event ∈ (state.timelines timeline).events) :
    ∃ obj, state.objs[event.obj]? = some obj ∧ event ∈ obj.timelines ∧ obj.freed = false := by
  obtain ⟨-, obj, found, placed, ahead⟩ := kept.known timeline event mem
  refine ⟨obj, found, List.mem_of_getElem? placed, ?_⟩
  by_contra freed
  have whole := ((kept.counted event.obj obj found).1.freed (by simpa using freed)).2
  have lt := (List.getElem?_eq_some_iff.mp placed).1
  omega

theorem Kept.setObj (kept : state.Kept) (found : state.objs[id]? = some obj)
    (same : later.timelines = obj.timelines) (counted : Counted later)
    (ahead : ∀ timeline, ∀ event ∈ (state.timelines timeline).events, event.obj = id →
      later.signaled ≤ event.index) : (state.setObj id later).Kept := by
  have lt := (List.getElem?_eq_some_iff.mp found).1
  refine ⟨kept.pending, fun timeline event listed => ?_, fun other mem there => ?_⟩
  · obtain ⟨its, known, there, placed, before⟩ := kept.known timeline event listed
    refine ⟨its, ?_⟩
    unfold TimelineState.setObj
    rw [List.getElem?_set]
    split
    · rename_i same'
      rw [← same', found] at there
      cases there
      exact ⟨later, rfl, same ▸ placed, ahead timeline event listed same'.symm⟩
    · exact ⟨known, there, placed, before⟩
  · unfold TimelineState.setObj at there
    rw [getElem?_set] at there
    split at there
    · rename_i same'
      cases there
      refine ⟨counted, fun idx event placed => ?_⟩
      rw [same] at placed
      exact same' ▸ (kept.counted id obj found).2 idx event placed
    · exact kept.counted other mem there

theorem Kept.setTimeline (kept : state.Kept) (pending : moved.Pending)
    (known : ∀ event ∈ moved.events, event ∈ (state.timelines timeline).events ∨
      event.timeline = timeline ∧ ∃ obj, state.objs[event.obj]? = some obj ∧
        obj.timelines[event.index]? = some event ∧ obj.signaled ≤ event.index) :
    (state.setTimeline timeline moved).Kept := by
  refine ⟨fun other => ?_, fun other event mem => ?_, kept.counted⟩
  · unfold TimelineState.setTimeline
    dsimp only
    by_cases same : other = timeline
    · rw [same, update_self]
      exact pending
    · rw [update_of_ne same]
      exact kept.pending other
  · unfold TimelineState.setTimeline at mem
    dsimp only at mem
    by_cases same : other = timeline
    · rw [same, update_self] at mem
      rw [same]
      exact (known event mem).elim (kept.known timeline event) id
    · rw [update_of_ne same] at mem
      exact kept.known other event mem

theorem Kept.signal (kept : state.Kept) (timeline seqno : Nat) :
    (state.setTimeline timeline ((state.timelines timeline).signal seqno)).Kept :=
  kept.setTimeline (kept.pending timeline).signal fun _ mem => .inl (Timeline.mem_signal mem)

theorem Kept.init (initial : Nat → Nat) : (TimelineState.init initial).Kept where
  pending _ := ⟨.nil, forall_mem_nil _⟩
  known _ event listed := absurd listed not_mem_nil
  counted _ _ found := by cases found

theorem Counted.unsignaled (counted : Counted obj) (waits : obj.destroyed = false) : obj.signaled = 0 := by
  by_contra signaled
  have none := counted.signaled signaled
  rw [counted.refcount, waits] at none
  simp at none

theorem found_of_taken {next : TimelineObj → Option TimelineState} {refused : TimelineObj → Prop}
    [∀ obj, Decidable (refused obj)] (taken : (match state.objs[id]? with
      | none => none
      | some obj => if refused obj then none else next obj) = some after) :
    ∃ obj, state.objs[id]? = some obj ∧ ¬refused obj ∧ next obj = some after := by
  split at taken
  · cases taken
  split at taken
  · cases taken
  · exact ⟨_, ‹_›, ‹_›, taken⟩

theorem Kept.addSignal (kept : state.Kept) (taken : state.step (.addSignal id) = some after) : after.Kept := by
  obtain ⟨obj, found, waits, taken⟩ := found_of_taken taken
  split at taken
  · cases taken
  rename_i event next
  cases taken
  obtain ⟨counted, placed⟩ := kept.counted id obj found
  obtain ⟨its, idx⟩ := placed obj.added event next
  have idle : obj.signaled = 0 := counted.unsignaled (by simpa using waits)
  have lt := (List.getElem?_eq_some_iff.mp found).1
  have goes : (state.setObj id { obj with added := obj.added + 1 }).Kept := by
    refine kept.setObj found rfl { counted with } ?_
    intro _ _ _ _
    exact idle ▸ Nat.zero_le _
  refine goes.setTimeline (goes.pending event.timeline).addSignal fun other mem => ?_
  obtain old | rfl := Timeline.mem_addSignal mem
  · exact .inl old
  · refine .inr ⟨rfl, { obj with added := obj.added + 1 }, ?_, ?_, idle ▸ Nat.zero_le _⟩
    · rw [its]
      exact List.getElem?_set_self lt
    · rw [idx]
      exact next

theorem newObj_counted : Counted (state.newObj vals context timestamp) :=
  ⟨rfl, absurd rfl, fun never => by cases never⟩

theorem newObj_placed : Placed state.objs.length (state.newObj vals context timestamp) := by
  intro idx event placed
  unfold newObj at placed
  rw [getElem?_mapIdx] at placed
  obtain ⟨val, -, rfl⟩ := Option.map_eq_some_iff.mp placed
  exact ⟨rfl, rfl⟩

section

variable (kept : state.Kept)
include kept

theorem Kept.create (taken : state.step (.create vals context timestamp) = some after) : after.Kept := by
  cases taken
  refine ⟨kept.pending, fun timeline event mem => ?_, fun other obj found => ?_⟩
  · obtain ⟨its, obj, found, known⟩ := kept.known timeline event mem
    have lt := (List.getElem?_eq_some_iff.mp found).1
    exact ⟨its, obj, (getElem?_append_left lt).trans found, known⟩
  · rw [getElem?_append] at found
    split at found
    · exact kept.counted other obj found
    · have only := (List.getElem?_eq_some_iff.mp found).1
      rw [length_singleton] at only
      have last : other = state.objs.length := by omega
      rw [last, Nat.sub_self] at found
      cases found
      rw [last]
      exact ⟨newObj_counted, newObj_placed⟩

theorem Kept.destroyed (taken : state.step (.destroyed id) = some after) : after.Kept := by
  obtain ⟨obj, found, ready, taken⟩ := found_of_taken taken
  cases taken
  have counted := (kept.counted id obj found).1
  have waits : obj.destroyed = false := by
    by_contra gone
    exact ready (.inl (by simpa using gone))
  refine kept.setObj found rfl ⟨?_, fun signaled => ?_, fun freed => ?_⟩ fun timeline event mem its => ?_
  · rw [counted.refcount, waits]
    simp
  · exact absurd (counted.unsignaled waits) signaled
  · have none := (counted.freed freed).1
    rw [counted.refcount, waits] at none
    simp at none
  · exact (counted.unsignaled waits).symm ▸ Nat.zero_le _

theorem Kept.fired (taken : state.step (.fired id) = some after) : after.Kept := by
  obtain ⟨obj, found, waits, taken⟩ := found_of_taken taken
  cases taken
  have counted := (kept.counted id obj found).1
  have unfired : obj.fired = false := by simpa using waits
  have holds : obj.sigRefcount ≠ 0 := by
    rw [counted.refcount, unfired]
    simp
  have idle : obj.signaled = 0 := by
    by_contra signaled
    exact holds (counted.signaled signaled)
  refine kept.setObj found rfl ⟨?_, fun signaled => ?_, fun freed => ?_⟩ fun timeline event mem its => ?_
  · rw [counted.refcount, unfired]
    simp
  · exact absurd idle signaled
  · exact absurd (counted.freed freed).1 holds
  · exact idle.symm ▸ Nat.zero_le _

theorem Kept.retireSignal (taken : state.step (.retireSignal id) = some after) : after.Kept := by
  obtain ⟨obj, found, last, taken⟩ := found_of_taken taken
  split at taken
  · cases taken
  rename_i event next
  cases taken
  obtain ⟨counted, placed⟩ := kept.counted id obj found
  have lt := (List.getElem?_eq_some_iff.mp next).1
  have none : obj.sigRefcount = 0 := by simpa using last
  have moved := kept.signal event.timeline event.seqno
  have foundStill : (state.setTimeline event.timeline
      ((state.timelines event.timeline).signal event.seqno)).objs[id]? = some obj := found
  -- The event of this turn is not mem any more, since its timeline has got to its seqno.
  refine moved.setObj foundStill rfl ⟨counted.refcount, fun _ => none, fun freed => ?_⟩ ?_
  · exact absurd (counted.freed freed).2 (Nat.ne_of_lt lt)
  · intro timeline other mem its
    obtain ⟨here, known, there, placed, ahead⟩ := moved.known timeline other mem
    rw [its] at there
    cases foundStill.symm.trans there
    refine Nat.lt_of_le_of_ne ahead fun same => ?_
    rw [← same, next] at placed
    cases placed
    have above := (moved.pending timeline).above event mem
    rw [← here] at above
    unfold TimelineState.setTimeline at above
    dsimp only at above
    rw [update_self] at above
    exact Nat.not_le.mpr above Timeline.signal_reached

theorem Kept.retired (taken : state.step (.retired id) = some after) : after.Kept := by
  obtain ⟨obj, found, ready, taken⟩ := found_of_taken taken
  cases taken
  have counted := (kept.counted id obj found).1
  have none : obj.sigRefcount = 0 := by
    by_contra held
    exact ready (.inl held)
  have whole : obj.signaled = obj.timelines.length := by
    by_contra more
    exact ready (.inr (.inl more))
  refine kept.setObj found rfl ⟨counted.refcount, counted.signaled, fun _ => ⟨none, whole⟩⟩ ?_
  intro timeline event mem its
  obtain ⟨-, known, there, -, ahead⟩ := kept.known timeline event mem
  rw [its, found] at there
  cases there
  exact ahead

theorem Kept.step (taken : state.step action = some after) : after.Kept := by
  cases action with
  | signal timeline seqno =>
    cases taken
    exact kept.signal timeline seqno
  | create vals context timestamp => exact kept.create taken
  | addSignal id => exact kept.addSignal taken
  | destroyed id => exact kept.destroyed taken
  | fired id => exact kept.fired taken
  | retireSignal id => exact kept.retireSignal taken
  | retired id => exact kept.retired taken
  | retire context timestamp | query timeline =>
    cases taken
    exact { kept with }

end

def QueuedRetired (state : TimelineState) (timeline seqno : Nat) : Prop :=
  ∃ obj ∈ state.objs, ∃ event ∈ obj.timelines, event.timeline = timeline ∧ event.seqno = seqno ∧
    state.retired event.context event.timestamp = true

structure Answered (state : TimelineState) : Prop where
  sorted : state.answers.Pairwise fun answer next =>
    answer.timeline = next.timeline → answer.seqno ≤ next.seqno
  value : ∀ answer ∈ state.answers, answer.value ≤ answer.seqno
  source : ∀ answer ∈ state.answers, answer.seqno = answer.value ∨ state.QueuedRetired answer.timeline answer.seqno
  next : ∀ answer ∈ state.answers, answer.seqno ≤ (state.timelines answer.timeline).query state.retired

structure Advances (state after : TimelineState) : Prop where
  value : ∀ timeline, (state.timelines timeline).value ≤ (after.timelines timeline).value
  keeps : ∀ timeline, ∀ event ∈ (state.timelines timeline).events,
    event ∈ (after.timelines timeline).events ∨ event.seqno ≤ (after.timelines timeline).value
  retired : ∀ context timestamp, state.retired context timestamp = true → after.retired context timestamp = true
  objs : ∀ obj ∈ state.objs, ∃ later ∈ after.objs, later.timelines = obj.timelines
  answers : after.answers = state.answers

theorem Answered.advance (answered : state.Answered) (kept : after.Kept) (advances : Advances state after) :
    after.Answered := by
  obtain ⟨sorted, value, src, next⟩ := answered
  rw [← advances.answers] at sorted value src next
  refine ⟨sorted, value, fun answer mem => (src answer mem).imp id ?_, fun answer mem => ?_⟩
  · rintro ⟨obj, there, event, listed, its, same, is⟩
    obtain ⟨later, still, timelines⟩ := advances.objs obj there
    exact ⟨later, still, event, timelines.symm ▸ listed, its, same, advances.retired _ _ is⟩
  · exact Nat.le_trans (next answer mem) (Timeline.query_mono (kept.pending _)
      (advances.value _) (advances.keeps _) advances.retired)

theorem Answered.query (answered : state.Answered) (kept : state.Kept) (timeline : Nat)
    (taken : state.step (.query timeline) = some after) : after.Answered := by
  cases taken
  refine ⟨?_, ?_, ?_, ?_⟩
  · refine pairwise_append.mpr ⟨answered.sorted, pairwise_singleton .., ?_⟩
    intro answer mem other last same
    rw [mem_singleton.mp last] at same ⊢
    have known := answered.next answer mem
    rw [same] at known
    exact known
  · refine forall_mem_append.mpr ⟨answered.value, forall_mem_singleton.mpr ?_⟩
    exact Timeline.query_value (kept.pending timeline)
  · refine forall_mem_append.mpr ⟨answered.source, forall_mem_singleton.mpr ?_⟩
    refine (Timeline.query_cases _ _).imp id ?_
    rintro ⟨event, listed, is, same⟩
    obtain ⟨its, obj, found, placed, -⟩ := kept.known timeline event listed
    exact ⟨obj, mem_of_getElem? found, event, mem_of_getElem? placed, its, same, is⟩
  · refine forall_mem_append.mpr ⟨answered.next, forall_mem_singleton.mpr ?_⟩
    exact Nat.le_refl _

theorem Advances.setTimeline (value : (state.timelines timeline).value ≤ moved.value)
    (keeps : ∀ event ∈ (state.timelines timeline).events, event ∈ moved.events ∨ event.seqno ≤ moved.value) :
    Advances state (state.setTimeline timeline moved) := by
  refine ⟨fun other => ?_, fun other event listed => ?_, fun _ _ => id, fun obj mem => ⟨obj, mem, rfl⟩,
    rfl⟩ <;> unfold TimelineState.setTimeline <;> dsimp only <;> by_cases same : other = timeline
  · rw [same, update_self]
    exact value
  · exact Nat.le_of_eq (congrArg Timeline.value (update_of_ne same ..).symm)
  · rw [same, update_self]
    exact keeps event (same ▸ listed)
  · rw [update_of_ne same]
    exact .inl listed

theorem Advances.setObj (found : state.objs[id]? = some obj) (same : later.timelines = obj.timelines) :
    Advances state (state.setObj id later) := by
  refine ⟨fun _ => Nat.le_refl _, fun _ _ => .inl, fun _ _ is => is, fun other mem => ?_, rfl⟩
  obtain ⟨place, there⟩ := mem_iff_getElem?.mp mem
  by_cases here : id = place
  · rw [← here, found] at there
    cases there
    have lt := (List.getElem?_eq_some_iff.mp found).1
    exact ⟨later, mem_of_getElem? (getElem?_set_self lt), same⟩
  · refine ⟨other, mem_iff_getElem?.mpr ⟨place, ?_⟩, rfl⟩
    exact (getElem?_set_ne here).trans there

theorem Advances.trans (first : Advances state after) (second : Advances after last) : Advances state last where
  value timeline := Nat.le_trans (first.value timeline) (second.value timeline)
  keeps timeline event listed := (first.keeps timeline event listed).elim (second.keeps timeline event)
    fun reached => .inr (Nat.le_trans reached (second.value timeline))
  retired ctx timestamp is := second.retired _ _ (first.retired _ _ is)
  objs obj member := by
    obtain ⟨later, there, same⟩ := first.objs obj member
    obtain ⟨last, still, same'⟩ := second.objs later there
    exact ⟨last, still, same'.trans same⟩
  answers := second.answers.trans first.answers

theorem step_advances (kept : state.Kept) (other : ∀ timeline, action ≠ .query timeline)
    (taken : state.step action = some after) : Advances state after := by
  cases action with
  | signal timeline seqno =>
    cases taken
    exact .setTimeline Timeline.signal_value fun _ => Timeline.signal_keeps (kept.pending timeline)
  | create vals ctx timestamp =>
    cases taken
    exact ⟨fun _ => Nat.le_refl _, fun _ _ => .inl, fun _ _ => id,
      fun obj mem => ⟨obj, mem_append_left _ mem, rfl⟩, rfl⟩
  | addSignal id =>
    obtain ⟨obj, found, -, taken⟩ := found_of_taken taken
    split at taken
    · cases taken
    cases taken
    have goes : Advances state (state.setObj id { obj with added := obj.added + 1 }) := .setObj found rfl
    exact goes.trans (.setTimeline (Nat.le_of_eq Timeline.addSignal_value.symm)
      fun _ listed => .inl (Timeline.addSignal_keeps listed))
  | destroyed id | fired id | retired id =>
    obtain ⟨obj, found, -, taken⟩ := found_of_taken taken
    cases taken
    exact .setObj found rfl
  | retireSignal id =>
    obtain ⟨obj, found, -, taken⟩ := found_of_taken taken
    split at taken
    · cases taken
    cases taken
    have goes : Advances state (state.setObj id { obj with signaled := obj.signaled + 1 }) :=
      .setObj found rfl
    exact goes.trans (.setTimeline Timeline.signal_value fun _ => Timeline.signal_keeps (kept.pending _))
  | retire ctx timestamp =>
    cases taken
    refine ⟨fun _ => Nat.le_refl _, fun _ _ => .inl, fun place stamp is => ?_, fun obj mem => ⟨obj, mem, rfl⟩, rfl⟩
    dsimp only
    by_cases here : place = ctx
    · rw [here, update_self]
      by_cases there : stamp = timestamp
      · rw [there, update_self]
      · rw [update_of_ne there]
        exact here ▸ is
    · rw [update_of_ne here]
      exact is
  | query timeline => exact absurd rfl (other timeline)

theorem Answered.step (answered : state.Answered) (kept : state.Kept)
    (taken : state.step action = some after) : after.Answered := by
  by_cases query : ∃ timeline, action = .query timeline
  · obtain ⟨timeline, rfl⟩ := query
    exact answered.query kept timeline taken
  · refine answered.advance (kept.step taken) (step_advances kept (fun timeline is => ?_) taken)
    exact query ⟨timeline, is⟩

/-- In every state the answers of a timeline rise, each is its value or a queued signal that has retired, and the
lists are sorted and live. -/
theorem queries_sound {initial : Nat → Nat} (reached : Reachable step (fun _ _ => True) (init initial) state) :
    (state.answers.Pairwise fun answer next =>
      answer.timeline = next.timeline → answer.seqno ≤ next.seqno) ∧
    (∀ answer ∈ state.answers, answer.value ≤ answer.seqno ∧
      (answer.seqno = answer.value ∨ state.QueuedRetired answer.timeline answer.seqno)) ∧
    ∀ timeline, ((state.timelines timeline).events.Pairwise fun event other =>
        event.seqno ≤ other.seqno) ∧
      ∀ event ∈ (state.timelines timeline).events, ∃ obj, state.objs[event.obj]? = some obj ∧
        event ∈ obj.timelines ∧ obj.freed = false := by
  obtain ⟨kept, answered⟩ : state.Kept ∧ state.Answered := by
    refine reached.invariant (fun state => state.Kept ∧ state.Answered) ⟨.init initial, ?_⟩ ?_
    · exact ⟨.nil, List.forall_mem_nil _, List.forall_mem_nil _, List.forall_mem_nil _⟩
    · exact fun _ _ _ before _ taken => ⟨before.1.step taken, before.2.step before.1 taken⟩
  refine ⟨answered.sorted, fun answer member => ⟨answered.value answer member, answered.source answer member⟩,
    fun timeline => ⟨(kept.pending timeline).sorted, fun event listed => kept.alive listed⟩⟩

theorem queries_sound_two : ∃ state, Reachable step (fun _ _ => True) (init fun _ => 3) state ∧
    state.answers = [⟨0, 3, 3⟩, ⟨0, 3, 9⟩, ⟨0, 9, 9⟩] ∧ state.answers.Pairwise fun answer next =>
      answer.timeline = next.timeline → answer.seqno ≤ next.seqno :=
  reaches [.create [(0, 5)] 1 10, .create [(0, 9)] 2 20, .addSignal 1, .addSignal 0, .destroyed 0, .destroyed 1,
    .query 0, .retire 2 20, .query 0, .fired 1, .retireSignal 1, .retired 1, .query 0]
    (fun state => state.answers = [⟨0, 3, 3⟩, ⟨0, 3, 9⟩, ⟨0, 9, 9⟩]) (by decide +kernel)
    fun _ reached answers => ⟨answers, (queries_sound reached).1⟩

end TimelineState

end KernelModules.KgslTimeline

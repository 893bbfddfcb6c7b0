import KernelModules.Data.Run
import KernelModules.Kgsl.Timestamp
import Mathlib.Data.List.Nodup
import Mathlib.Data.List.Perm.Basic

namespace KernelModules.Kgsl

open Data

/-! # GPU events

An event group lists the callbacks that wait for timestamps.  The code reads low words; `due`, `retired` and
`processed` are the counters themselves.
-/

inductive EventResult where
  | retired
  | cancelled
deriving DecidableEq

/-- `kgsl_event`; `id` tells the events of a group apart. -/
structure KgslEvent where
  id : Nat
  due : Nat
  func : Nat
  priv : Nat
deriving DecidableEq

def KgslEvent.timestamp (event : KgslEvent) : Nat := u32 event.due

/-- What callers ask to be cancelled, together with the number of events that had been added. -/
inductive CancelRequest where
  | flush
  | events
  | timestamp (timestamp : Nat)
  | event (timestamp func priv : Nat)

/-- `kgsl_event_group`, with the counters that its timestamps are read from. -/
structure EventGroup where
  userGenerated : Bool
  events : List KgslEvent
  processed : Nat
  works : List (KgslEvent × EventResult)
  retired : Nat
  queued : Nat
  added : List KgslEvent
  requests : List (Nat × CancelRequest)

inductive AddResult where
  | inval
  | nomem
  | noent
  | ok

namespace EventGroup

def init (userGenerated : Bool) : EventGroup where
  userGenerated
  events := []
  processed := 4294967296
  works := []
  retired := 4294967296
  queued := 4294967296
  added := []
  requests := []

def doProcessGroup (processed cur : Nat) : Bool :=
  if processed = cur then false
  else if cur < processed ∧ processed - cur < kgslTimestampWindow then false
  else true

/-- `signal_event` takes the event from the list. -/
def signalEvent (group : EventGroup) (event : KgslEvent) (result : EventResult) : EventGroup :=
  { group with events := group.events.erase event, works := group.works ++ [(event, result)] }

def signalWhere (choose : KgslEvent → Option EventResult) : List KgslEvent → EventGroup → EventGroup
  | [], group => group
  | event :: rest, group =>
    match choose event with
    | some result => signalWhere choose rest (group.signalEvent event result)
    | none => signalWhere choose rest group

/-- What `_process_event_group` does with one event. -/
def passResult (timestamp : Nat) (flush : Bool) (event : KgslEvent) : Option EventResult :=
  if timestampCmp event.timestamp timestamp ≤ 0 then some .retired
  else if flush then some .cancelled
  else none

/-- `_process_event_group`; nothing happens to a group whose context is being destroyed. -/
def processEventGroup (group : EventGroup) (contextGot flush : Bool) : EventGroup :=
  if !contextGot then group
  else let timestamp := u32 group.retired
    if !flush ∧ !doProcessGroup (u32 group.processed) timestamp then group
    else { signalWhere (passResult timestamp flush) group.events group with processed := group.retired }

/-- `kgsl_cancel_events_timestamp` -/
def cancelEventsTimestamp (group : EventGroup) (timestamp : Nat) : EventGroup :=
  signalWhere (fun event => if timestampCmp timestamp event.timestamp = 0 then some .cancelled else none)
    group.events group

/-- `kgsl_cancel_events` -/
def cancelEvents (group : EventGroup) : EventGroup :=
  signalWhere (fun _ => some .cancelled) group.events group

/-- `kgsl_cancel_event`: the first event that is the same. -/
def cancelEvent (group : EventGroup) (timestamp func priv : Nat) : EventGroup :=
  match group.events.find? fun event =>
      timestamp = event.timestamp ∧ func = event.func ∧ event.priv = priv with
  | some event => group.signalEvent event .cancelled
  | none => group

/-- `kgsl_add_event`; a `func` of 0 is no callback. -/
def addEvent (group : EventGroup) (due func priv : Nat) (allocated contextGot : Bool) : EventGroup × AddResult :=
  if func = 0 then (group, .inval)
  else if !group.userGenerated ∧ 0 < timestampCmp (u32 due) (u32 group.queued) then (group, .inval)
  else if !allocated then (group, .nomem)
  else if !contextGot then (group, .noent)
  else let event := { id := group.added.length, due, func, priv }
    let group := { group with added := group.added ++ [event] }
    if 0 ≤ timestampCmp (u32 group.retired) event.timestamp then
      ({ group with works := group.works ++ [(event, .retired)] }, .ok)
    else ({ group with events := group.events ++ [event] }, .ok)

def request (group : EventGroup) (request : CancelRequest) : EventGroup :=
  { group with requests := group.requests ++ [(group.added.length, request)] }

end EventGroup

inductive EventAction where
  | add (due func priv : Nat) (allocated contextGot : Bool)
  | process (contextGot flush : Bool)
  | cancelTimestamp (timestamp : Nat)
  | cancelAll
  | cancelOne (timestamp func priv : Nat)
  | retire (retired : Nat)
  | queue (queued : Nat)

namespace EventGroup

def step (group : EventGroup) : EventAction → Option EventGroup
  | .add due func priv allocated contextGot => some (group.addEvent due func priv allocated contextGot).1
  | .process contextGot flush =>
    some ((if contextGot ∧ flush then group.request .flush else group).processEventGroup contextGot flush)
  | .cancelTimestamp timestamp =>
    some ((group.request (.timestamp timestamp)).cancelEventsTimestamp timestamp)
  | .cancelAll => some (group.request .events).cancelEvents
  | .cancelOne timestamp func priv =>
    some ((group.request (.event timestamp func priv)).cancelEvent timestamp func priv)
  | .retire retired => if group.retired ≤ retired then some { group with retired } else none
  | .queue queued => some { group with queued }

def InWindow (group : EventGroup) : EventAction → Prop
  | .add due _ _ _ _ => Near group.retired due
  | .retire retired => Near group.processed retired ∧ ∀ event ∈ group.events, Near event.due retired
  | _ => True

end EventGroup

open List

/-! # Events fire once

An event is listed until its callback is queued, and a pass leaves none that has retired.
-/

def CancelRequest.Names (event : KgslEvent) : CancelRequest → Prop
  | .flush => True
  | .events => True
  | .timestamp stamp => stamp = event.timestamp
  | .event stamp func priv => stamp = event.timestamp ∧ func = event.func ∧ event.priv = priv

namespace EventGroup

variable {group after : EventGroup} {event : KgslEvent} {result : EventResult}
  {choose : KgslEvent → Option EventResult} {rest : List KgslEvent} {flush : Bool} {action : EventAction}
  {due : Nat}

/-- The events whose callbacks are queued are added events, and so are those that wait. -/
def owned (group : EventGroup) : List KgslEvent := group.events ++ group.works.map Prod.fst

theorem signalEvent_owned (mem : event ∈ group.events) : (group.signalEvent event result).owned.Perm group.owned := by
  unfold owned signalEvent
  rw [map_append, ← append_assoc]
  have moved : (group.events.erase event ++ group.works.map Prod.fst ++ [event]).Perm
      (event :: (group.events.erase event ++ group.works.map Prod.fst)) :=
    perm_append_singleton event _
  exact moved.trans ((perm_cons_erase mem).symm.append_right _)

structure Signaled (choose : KgslEvent → Option EventResult) (rest : List KgslEvent)
    (group after : EventGroup) : Prop where
  same : after = { group with events := after.events, works := after.works }
  owned : after.owned.Perm group.owned
  events : ∀ event, event ∈ after.events ↔ event ∈ group.events ∧ ¬(event ∈ rest ∧ (choose event).isSome)
  works : ∀ event result, (event, result) ∈ after.works ↔
    (event, result) ∈ group.works ∨ event ∈ rest ∧ choose event = some result

theorem signalWhere_signaled (once : group.events.Nodup) (listed : ∀ event ∈ rest, event ∈ group.events)
    (apart : rest.Nodup) : Signaled choose rest group (signalWhere choose rest group) := by
  induction rest generalizing group with
  | nil => exact ⟨rfl, .refl _, fun event => by simp [signalWhere], fun event result => by simp [signalWhere]⟩
  | cons first rest ih =>
    obtain ⟨here, listed⟩ := forall_mem_cons.mp listed
    obtain ⟨new, apart⟩ := nodup_cons.mp apart
    unfold signalWhere
    split
    · rename_i result chosen
      have left : ∀ event ∈ rest, event ∈ (group.signalEvent first result).events := by
        intro event mem
        refine (mem_erase_of_ne ?_).mpr (listed event mem)
        rintro rfl
        exact new mem
      have later := ih (once.erase first) left apart
      refine ⟨later.same.trans rfl, later.owned.trans (signalEvent_owned here), ?_, ?_⟩
      · intro event
        rw [later.events, signalEvent, once.mem_erase_iff, mem_cons]
        constructor
        · rintro ⟨⟨other, mem⟩, stays⟩
          exact ⟨mem, fun gone => stays ⟨gone.1.resolve_left other, gone.2⟩⟩
        · rintro ⟨mem, stays⟩
          refine ⟨⟨?_, mem⟩, fun gone => stays ⟨.inr gone.1, gone.2⟩⟩
          rintro rfl
          exact stays ⟨.inl rfl, by rw [chosen]; rfl⟩
      · intro event other
        rw [later.works, signalEvent, mem_append, mem_singleton, Prod.mk.injEq, mem_cons]
        constructor
        · rintro ((before | ⟨rfl, rfl⟩) | ⟨mem, is⟩)
          · exact .inl before
          · exact .inr ⟨.inl rfl, chosen⟩
          · exact .inr ⟨.inr mem, is⟩
        · rintro (before | ⟨rfl | mem, is⟩)
          · exact .inl (.inl before)
          · rw [chosen] at is
            exact .inl (.inr ⟨rfl, (Option.some.inj is).symm⟩)
          · exact .inr ⟨mem, is⟩
    · rename_i unchosen
      have later := ih once listed apart
      refine ⟨later.same, later.owned, fun event => ?_, fun event result => ?_⟩
      · rw [later.events, mem_cons]
        refine and_congr_right fun _ => not_congr ⟨fun gone => ⟨.inr gone.1, gone.2⟩, fun gone => ?_⟩
        refine ⟨gone.1.resolve_left ?_, gone.2⟩
        rintro rfl
        rw [unchosen] at gone
        cases gone.2
      · rw [later.works, mem_cons]
        refine or_congr_right ⟨fun gone => ⟨.inr gone.1, gone.2⟩, fun gone => ?_⟩
        refine ⟨gone.1.resolve_left ?_, gone.2⟩
        rintro rfl
        rw [unchosen] at gone
        cases gone.2

@[simp] theorem signalWhere_retired : (signalWhere choose rest group).retired = group.retired := by
  induction rest generalizing group with
  | nil => rfl
  | cons first rest ih =>
    unfold signalWhere
    split <;> rw [ih]
    rfl

@[simp] theorem processEventGroup_retired : (group.processEventGroup contextGot flush).retired = group.retired := by
  unfold processEventGroup
  dsimp only
  split
  · rfl
  · split
    · rfl
    · exact signalWhere_retired

structure Kept (group : EventGroup) : Prop where
  ids : ∀ event ∈ group.added, event.id < group.added.length
  once : group.added.Nodup
  owned : group.added.Perm group.owned
  near : Near group.processed group.retired
  nears : ∀ event ∈ group.events, Near event.due group.retired
  past : group.processed ≤ group.retired
  ahead : ∀ event ∈ group.events, group.processed < event.due
  retired : ∀ event, (event, .retired) ∈ group.works → event.due ≤ group.retired
  cancelled : ∀ event, (event, .cancelled) ∈ group.works → ∃ count request,
    (count, request) ∈ group.requests ∧ event.id < count ∧ request.Names event

namespace Kept

theorem init (userGenerated : Bool) : (EventGroup.init userGenerated).Kept := by
  refine ⟨forall_mem_nil _, .nil, .refl _, .refl, forall_mem_nil _, le_rfl, forall_mem_nil _, ?_, ?_⟩
  · exact fun event mem => absurd mem not_mem_nil
  · exact fun event mem => absurd mem not_mem_nil

section

variable (kept : group.Kept)
include kept

theorem events_nodup : group.events.Nodup :=
  (nodup_append.mp (kept.owned.nodup_iff.mp kept.once)).1

theorem listed_added (mem : event ∈ group.events) : event ∈ group.added :=
  kept.owned.mem_iff.mpr (mem_append_left _ mem)

theorem request (request : CancelRequest) : (group.request request).Kept := by
  refine { kept with cancelled := fun event mem => ?_ }
  obtain ⟨count, made, known, before, names⟩ := kept.cancelled event mem
  exact ⟨count, made, mem_append_left _ known, before, names⟩

theorem requested {req : CancelRequest} (mem : event ∈ group.events)
    (names : req.Names event) : ∃ count made, (count, made) ∈ (group.request req).requests ∧
      event.id < count ∧ made.Names event :=
  ⟨group.added.length, req, mem_append_right _ (mem_singleton_self _), kept.ids event (kept.listed_added mem), names⟩

theorem signaled (signaled : Signaled choose rest group after)
    (retired : ∀ event ∈ rest, choose event = some .retired → event.due ≤ group.retired)
    (cancelled : ∀ event ∈ rest, choose event = some .cancelled → ∃ count req,
      (count, req) ∈ group.requests ∧ event.id < count ∧ req.Names event) : after.Kept := by
  have added : after.added = group.added := by rw [signaled.same]
  have requests : after.requests = group.requests := by rw [signaled.same]
  have retiredSame : after.retired = group.retired := by rw [signaled.same]
  have processed : after.processed = group.processed := by rw [signaled.same]
  have before (event : KgslEvent) (mem : event ∈ after.events) : event ∈ group.events :=
    ((signaled.events event).mp mem).1
  constructor
  · rw [added]
    exact kept.ids
  · rw [added]
    exact kept.once
  · rw [added]
    exact kept.owned.trans signaled.owned.symm
  · rw [processed, retiredSame]
    exact kept.near
  · rw [retiredSame]
    exact fun event mem => kept.nears event (before event mem)
  · rw [processed, retiredSame]
    exact kept.past
  · rw [processed]
    exact fun event mem => kept.ahead event (before event mem)
  · intro event mem
    rw [retiredSame]
    obtain known | ⟨there, chosen⟩ := (signaled.works event .retired).mp mem
    · exact kept.retired event known
    · exact retired event there chosen
  · intro event mem
    rw [requests]
    obtain known | ⟨there, chosen⟩ := (signaled.works event .cancelled).mp mem
    · exact kept.cancelled event known
    · exact cancelled event there chosen

theorem doProcessGroup_false (skipped : doProcessGroup (u32 group.processed) (u32 group.retired) = false) :
    group.processed = group.retired := by
  have near := kept.near
  have past := kept.past
  unfold doProcessGroup at skipped
  unfold Near at near
  unfold u32 kgslTimestampWindow at *
  split at skipped
  · omega
  · split at skipped
    · omega
    · cases skipped

end

theorem passResult_retired (near : Near event.due group.retired) :
    passResult (u32 group.retired) flush event = some .retired ↔ event.due ≤ group.retired := by
  rw [← timestampCmp_nonpos near]
  unfold passResult KgslEvent.timestamp
  constructor
  · intro chosen
    by_contra later
    rw [if_neg later] at chosen
    split at chosen <;> cases chosen
  · intro past
    rw [if_pos past]

theorem passResult_cancelled (chosen : passResult timestamp flush event = some .cancelled) : flush = true := by
  unfold passResult at chosen
  split at chosen
  · cases chosen
  · split at chosen
    · assumption
    · cases chosen

section

variable (kept : group.Kept)
include kept

theorem process (flushed : flush = true → ∀ event ∈ group.events, ∃ count req,
      (count, req) ∈ group.requests ∧ event.id < count ∧ req.Names event)
    (contextGot : Bool) : (group.processEventGroup contextGot flush).Kept ∧
      (contextGot = true → ∀ event ∈ (group.processEventGroup contextGot flush).events, group.retired < event.due) := by
  unfold processEventGroup
  cases contextGot with
  | false => exact ⟨kept, fun never => absurd never Bool.false_ne_true⟩
  | true =>
    dsimp only
    rw [if_neg (by simp)]
    split
    · rename_i skipped
      have same := kept.doProcessGroup_false (by simpa using skipped.2)
      refine ⟨kept, fun _ event listed => ?_⟩
      rw [← same]
      exact kept.ahead event listed
    have loop : Signaled (passResult (u32 group.retired) flush) group.events group
        (signalWhere (passResult (u32 group.retired) flush) group.events group) :=
      signalWhere_signaled kept.events_nodup (fun _ => id) kept.events_nodup
    have swept := kept.signaled loop (fun event listed chosen =>
      (passResult_retired (kept.nears event listed)).mp chosen)
      fun event listed chosen => flushed (passResult_cancelled chosen) event listed
    have left : ∀ event ∈ (signalWhere (passResult (u32 group.retired) flush) group.events
        group).events, group.retired < event.due := by
      intro event mem
      obtain ⟨listed, stays⟩ := (loop.events event).mp mem
      by_contra past
      refine stays ⟨listed, ?_⟩
      rw [(passResult_retired (kept.nears event listed)).mpr (not_lt.mp past)]
      rfl
    refine ⟨{ swept with near := ?_, past := ?_, ahead := left }, fun _ => left⟩
    · rw [signalWhere_retired]
      exact .refl
    · exact le_of_eq signalWhere_retired.symm

theorem cancelWhere (req : CancelRequest) (chosen : KgslEvent → Prop) [DecidablePred chosen]
    (names : ∀ event, chosen event → req.Names event) :
    (signalWhere (fun event => if chosen event then some .cancelled else none) group.events
      (group.request req)).Kept := by
  have loop : Signaled (fun event => if chosen event then some .cancelled else none) group.events
      (group.request req) _ :=
    signalWhere_signaled kept.events_nodup (fun _ => id) kept.events_nodup
  refine (kept.request req).signaled loop (fun event _ is => ?_) fun event mem is => ?_
  · split at is <;> cases is
  · split at is
    · rename_i wanted
      exact kept.requested mem (names event wanted)
    · cases is

theorem cancelEvent (stamp func priv : Nat) :
    ((group.request (.event stamp func priv)).cancelEvent stamp func priv).Kept := by
  unfold EventGroup.cancelEvent
  split
  · rename_i event found
    have listed : event ∈ group.events := mem_of_find?_eq_some found
    have is := List.find?_some found
    rw [decide_eq_true_eq] at is
    have loop : Signaled (fun _ => some .cancelled) [event] (group.request (.event stamp func priv))
        (signalWhere (fun _ => some .cancelled) [event] (group.request (.event stamp func priv))) :=
      signalWhere_signaled kept.events_nodup (fun other mem => mem_singleton.mp mem ▸ listed) (nodup_singleton event)
    refine (kept.request _).signaled loop (fun _ _ never => by cases never) fun other mem _ => ?_
    rw [mem_singleton.mp mem]
    exact kept.requested listed ⟨is.1, is.2.1, is.2.2⟩
  · exact kept.request _

theorem addEvent (near : Near group.retired due) : (group.addEvent due func priv alloc contextGot).1.Kept := by
  unfold EventGroup.addEvent
  split
  · exact kept
  split
  · exact kept
  split
  · exact kept
  split
  · exact kept
  have fresh : ({ id := group.added.length, due, func, priv } : KgslEvent) ∉ group.added :=
    fun mem => lt_irrefl _ (kept.ids _ mem)
  have ids (event : KgslEvent)
      (mem : event ∈ group.added ++ [{ id := group.added.length, due, func, priv }]) : event.id <
        (group.added ++ [({ id := group.added.length, due, func, priv } : KgslEvent)]).length := by
    rw [length_append]
    obtain old | new := mem_append.mp mem
    · exact Nat.lt_succ_of_lt (kept.ids event old)
    · rw [mem_singleton.mp new]
      exact Nat.lt_succ_self _
  have once : (group.added ++ [({ id := group.added.length, due, func, priv } : KgslEvent)]).Nodup :=
    nodup_append.mpr ⟨kept.once, nodup_singleton _, fun event old other new same =>
      fresh (mem_singleton.mp new ▸ same ▸ old)⟩
  dsimp only
  split
  · rename_i past
    refine { kept with ids, once, owned := ?_, retired := ?_, cancelled := ?_ }
    · show (group.added ++ [_]).Perm (group.events ++ (group.works ++ [_]).map Prod.fst)
      rw [map_append, ← append_assoc]
      exact kept.owned.append_right _
    · intro event mem
      obtain old | new := mem_append.mp mem
      · exact kept.retired event old
      · cases mem_singleton.mp new
        exact (timestampCmp_nonneg near).mp past
    · intro event mem
      obtain old | new := mem_append.mp mem
      · exact kept.cancelled event old
      · cases mem_singleton.mp new
  · rename_i ahead
    have later : group.retired < due := not_le.mp fun past => ahead ((timestampCmp_nonneg near).mpr past)
    refine { kept with ids, once, owned := ?_, nears := ?_, ahead := ?_ }
    · show (group.added ++ [_]).Perm (group.events ++ [_] ++ group.works.map Prod.fst)
      rw [append_assoc]
      exact (kept.owned.append_right _).trans ((append_assoc ..).symm ▸ (perm_append_comm.append_left group.events))
    · intro event mem
      obtain old | new := mem_append.mp mem
      · exact kept.nears event old
      · rw [mem_singleton.mp new]
        exact ⟨near.2, near.1⟩
    · intro event mem
      obtain old | new := mem_append.mp mem
      · exact kept.ahead event old
      · rw [mem_singleton.mp new]
        exact lt_of_le_of_lt kept.past later

theorem retire {retired : Nat} (forward : group.retired ≤ retired)
    (near : Near group.processed retired) (nears : ∀ event ∈ group.events, Near event.due retired) :
    Kept { group with retired } :=
  { kept with
    near, nears
    past := le_trans kept.past forward
    retired := fun event mem => le_trans (kept.retired event mem) forward }

theorem step (window : group.InWindow action) (taken : group.step action = some after) : after.Kept := by
  cases action with
  | add due func priv alloc contextGot =>
    cases taken
    exact kept.addEvent window
  | process contextGot flush =>
    cases taken
    split
    · refine ((kept.request .flush).process (fun _ event mem => ?_) contextGot).1
      exact kept.requested mem trivial
    · rename_i unflushed
      cases contextGot with
      | false => exact kept
      | true => exact (kept.process (fun flushed => absurd ⟨rfl, flushed⟩ unflushed) true).1
  | cancelTimestamp stamp =>
    cases taken
    exact kept.cancelWhere (.timestamp stamp) (fun event => timestampCmp stamp event.timestamp = 0)
      fun event same => timestampCmp_eq_zero.mp same
  | cancelAll =>
    cases taken
    exact kept.cancelWhere .events (fun _ => True) fun _ _ => trivial
  | cancelOne stamp func priv =>
    cases taken
    exact kept.cancelEvent stamp func priv
  | retire retired =>
    rw [EventGroup.step] at taken
    split at taken
    · rename_i forward
      cases taken
      exact kept.retire forward window.1 window.2
    · cases taken
  | queue queued =>
    cases taken
    exact { kept with }

end

end Kept

/-- Every added event is on the list or has had its callback queued, and the two exclude each other. -/
structure Delivered (group : EventGroup) : Prop where
  once : group.added.Nodup
  owned : group.added.Perm (group.events ++ group.works.map Prod.fst)
  retired : ∀ event, (event, .retired) ∈ group.works → event.due ≤ group.retired
  cancelled : ∀ event, (event, .cancelled) ∈ group.works → ∃ count request,
    (count, request) ∈ group.requests ∧ event.id < count ∧ request.Names event
  passed : ∀ flush after, group.step (.process true flush) = some after →
    ∀ event ∈ after.events, group.retired < event.due ∧ 0 < timestampCmp event.timestamp (u32 group.retired)
  flushed : ∀ after, group.step (.process true true) = some after → after.events = []

theorem Kept.passed (kept : group.Kept) (taken : group.step (.process true flush) = some after) :
    ∀ event ∈ after.events, group.retired < event.due ∧ 0 < timestampCmp event.timestamp (u32 group.retired) := by
  have later : ∀ event ∈ after.events, group.retired < event.due := by
    cases taken
    cases flush with
    | false => exact (kept.process (fun never => absurd never Bool.false_ne_true) true).2 rfl
    | true =>
      refine ((kept.request .flush).process (fun _ event mem => ?_) true).2 rfl
      exact kept.requested mem trivial
  have same : after.retired = group.retired := by
    cases taken
    cases flush <;> rw [processEventGroup_retired] <;> rfl
  intro event mem
  refine ⟨later event mem, Int.not_le.mp fun past => ?_⟩
  have window : group.InWindow (.process true flush) := trivial
  have near : Near event.due group.retired := same ▸ (kept.step window taken).nears event mem
  exact not_le.mpr (later event mem) ((timestampCmp_nonpos near).mp past)

instance (group : EventGroup) (action : EventAction) : Decidable (group.InWindow action) := by
  cases action <;> dsimp only [InWindow] <;> infer_instance

end EventGroup

end KernelModules.Kgsl

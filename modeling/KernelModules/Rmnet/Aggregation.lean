import KernelModules.Data.Run

namespace KernelModules.Rmnet

/-! # Uplink aggregation (`rmnet_map_data.c`)

One `rmnet_aggregation_state` with its timer, its flush work and the calls on it.  One holding of `agg_lock` is one
step, `hrtimer_cancel` another.  Times are in nanoseconds.
-/

structure Skb where
  len : Nat
  priority : Nat
deriving DecidableEq

structure AggSkb where
  packets : List Skb
  tailroom : Nat
deriving DecidableEq

structure RmnetEgressAggParams where
  aggSize : Nat
  aggCount : Nat
  aggTime : Nat

structure RmnetPort where
  egressFormatPriority : Bool
  egressFormatAggregation : Bool

def einprogress : Int := 115
def nsecPerSec : Int := 1000000000
def rmnetAggTimeLimit : Int := 1000000
def rmnetAggBypassTime : Int := 10000000

def rmnetLlm (priority : Nat) : Bool := priority == 0xDA001A

def rmnetApsLlb (priority : Nat) : Bool :=
  priority >>> 16 == 0x9B6D && priority &&& 0x0200 != 0

/-- `diff.tv_sec > 0 || diff.tv_nsec > limit` of a normalised `timespec64`. -/
def tooLong (diff limit : Int) : Bool :=
  0 < diff / nsecPerSec || limit < diff % nsecPerSec

inductive Call where
  /-- `rmnet_map_tx_aggregate` at `new_packet`. -/
  | newPacket (skb : Skb)
  /-- `rmnet_map_send_agg_skb` from the egress handler, which takes the lock for it. -/
  | sendAggSkb
  | txQmapCmd (qmapSkb : Skb) (flush : Bool)
  | hrtimerCancel (next : Call)
  /-- `send_agg_skb` without the lock. -/
  | transmit (skb : Skb)
  | returned
deriving DecidableEq

structure RmnetAggregationState where
  params : RmnetEgressAggParams
  aggTime : Int
  aggLast : Int
  aggSkb : Option AggSkb
  aggState : Int
  aggCount : Nat
  /-- `hrtimer` is armed. -/
  hrtimer : Bool
  /-- `agg_wq` is queued. -/
  aggWq : Bool
  flushing : Bool
  calls : List Call
  sent : List (List Skb)

def rmnetMapTxAggregateInit : RmnetAggregationState :=
  { params := ⟨4095, 20, 3000000⟩
    aggTime := 0, aggLast := 0, aggSkb := none, aggState := 0, aggCount := 0
    hrtimer := false, aggWq := false, flushing := false, calls := [], sent := [] }

namespace RmnetAggregationState

variable (state : RmnetAggregationState)

def transmitted (packets : List Skb) : RmnetAggregationState :=
  { state with sent := state.sent ++ [packets] }

def shipped (aggSkb : AggSkb) : RmnetAggregationState :=
  { state with
    aggSkb := none, aggCount := 0, aggTime := 0, aggState := 0
    sent := state.sent ++ [aggSkb.packets] }

end RmnetAggregationState

/-- `rmnet_map_send_agg_skb` under the caller's lock, and what the caller does after it. -/
def rmnetMapSendAggSkb (state : RmnetAggregationState) (next : Call) : RmnetAggregationState × Call :=
  match state.aggSkb with
  | none => (state, next)
  | some aggSkb => (state.shipped aggSkb, .hrtimerCancel next)

/-- From `schedule` on. -/
def rmnetMapSchedule (state : RmnetAggregationState) : RmnetAggregationState :=
  if state.aggState ≠ -einprogress then { state with aggState := -einprogress, hrtimer := true }
  else state

/-- One holding of the lock in `rmnet_map_tx_aggregate`; `built` is the room of the buffer of `rmnet_map_build_skb`. -/
def rmnetMapTxAggregate (port : RmnetPort) (state : RmnetAggregationState) (skb : Skb)
    (now later : Int) (built : Option Nat) : RmnetAggregationState × Call :=
  let last := state.aggLast
  let state := { state with aggLast := now }
  if port.egressFormatPriority ∧ (rmnetLlm skb.priority ∨ rmnetApsLlb skb.priority) then
    rmnetMapSendAggSkb state (.transmit skb)
  else match state.aggSkb with
    | none =>
      if tooLong (now - last) rmnetAggBypassTime ∨ state.params.aggSize ≤ skb.len then
        (state.transmitted [skb], .returned)
      else match built with
        | none => ({ state with aggCount := 0, aggTime := 0 }.transmitted [skb], .returned)
        | some room =>
          (rmnetMapSchedule { state with
            aggSkb := some ⟨[skb], room - skb.len⟩, aggCount := 1, aggTime := later }, .returned)
    | some aggSkb =>
      if aggSkb.tailroom < skb.len ∨ state.params.aggCount ≤ state.aggCount ∨
          tooLong (now - state.aggTime) rmnetAggTimeLimit then
        rmnetMapSendAggSkb state (.newPacket skb)
      else (rmnetMapSchedule { state with
          aggSkb := some ⟨aggSkb.packets ++ [skb], aggSkb.tailroom - skb.len⟩
          aggCount := state.aggCount + 1 }, .returned)

/-- `rmnet_map_tx_qmap_cmd` up to `send`. -/
def rmnetMapTxQmapCmd (port : RmnetPort) (state : RmnetAggregationState) (qmapSkb : Skb)
    (flush : Bool) : RmnetAggregationState × Call :=
  if flush ∧ port.egressFormatAggregation then rmnetMapSendAggSkb state (.transmit qmapSkb)
  else (state, .transmit qmapSkb)

/-- `rmnet_map_flush_tx_packet_work` under the lock. -/
def rmnetMapFlushTxPacketWork (state : RmnetAggregationState) : RmnetAggregationState :=
  if state.aggState = -einprogress then match state.aggSkb with
    | some aggSkb => state.shipped aggSkb
    | none => { state with aggState := 0 }
  else state

def Call.advance (port : RmnetPort) (state : RmnetAggregationState) (now later : Int)
    (built : Option Nat) : Call → RmnetAggregationState × Call
  | .newPacket skb => rmnetMapTxAggregate port state skb now later built
  | .sendAggSkb => rmnetMapSendAggSkb state .returned
  | .txQmapCmd qmapSkb flush => rmnetMapTxQmapCmd port state qmapSkb flush
  | .hrtimerCancel next => ({ state with hrtimer := false }, next)
  | .transmit skb => (state.transmitted [skb], .returned)
  | .returned => (state, .returned)

def Call.isEntry : Call → Bool
  | .newPacket _ | .sendAggSkb | .txQmapCmd .. => true
  | .hrtimerCancel _ | .transmit _ | .returned => false

inductive Action where
  | enter (call : Call)
  | proceed (index : Nat) (now later : Int) (built : Option Nat)
  /-- `rmnet_map_flush_tx_packet_queue`. -/
  | timerExpires
  | workStarts
  | workRuns
  /-- `rmnet_map_update_ul_agg_config`, with the parameters it settles on. -/
  | updateUlAggConfig (params : RmnetEgressAggParams)

def step (port : RmnetPort) (state : RmnetAggregationState) : Action → Option RmnetAggregationState
  | .enter call =>
    if call.isEntry then some { state with calls := state.calls ++ [call] } else none
  | .proceed index now later built =>
    match state.calls[index]? with
    | none => none
    | some call =>
      let (state, next) := call.advance port state now later built
      if next = .returned then some { state with calls := state.calls.eraseIdx index }
      else some { state with calls := state.calls.set index next }
  | .timerExpires =>
    if state.hrtimer then some { state with hrtimer := false, aggWq := true } else none
  | .workStarts =>
    -- one work item runs on one processor at a time
    if state.aggWq ∧ state.flushing = false then some { state with aggWq := false, flushing := true }
    else none
  | .workRuns =>
    if state.flushing then some { rmnetMapFlushTxPacketWork state with flushing := false }
    else none
  | .updateUlAggConfig params => some { state with params := params }

open Data Option

/-! # A buffer waits for a flush

Who takes the buffer out resets `agg_state`, so the next one arms the timer.  It is lost only if `hrtimer_cancel`,
after the unlock, comes upon the timer of a buffer begun in the meantime.
-/

namespace RmnetAggregationState

variable (state : RmnetAggregationState)

def FlushComing : Prop := state.hrtimer = true ∨ state.aggWq = true ∨ state.flushing = true

def Quiet : Prop := state.calls = [] ∧ state.flushing = false

def OnTimerOnly : Prop :=
  state.aggSkb ≠ none ∧ state.hrtimer = true ∧ state.aggWq = false ∧ state.flushing = false

instance : Decidable state.OnTimerOnly := inferInstanceAs (Decidable (_ ∧ _ ∧ _ ∧ _))

end RmnetAggregationState

def Call.cancels : Call → Bool
  | .hrtimerCancel _ => true
  | _ => false

/-- A step of `hrtimer_cancel` is taken only when it takes no buffer's last flush away. -/
def SparesTimer (state : RmnetAggregationState) : Action → Prop
  | .proceed index _ _ _ => (state.calls[index]?).any Call.cancels = true → ¬ state.OnTimerOnly
  | _ => True

instance (state : RmnetAggregationState) (action : Action) : Decidable (SparesTimer state action) := by
  cases action <;> dsimp only [SparesTimer] <;> infer_instance

structure Pending (state : RmnetAggregationState) : Prop where
  buffered : state.aggSkb ≠ none ↔ state.aggState = -einprogress
  coming : state.aggSkb ≠ none → state.FlushComing

section Steps

variable {state : RmnetAggregationState}

theorem Pending.congr (pending : Pending state) (skb : after.aggSkb = state.aggSkb)
    (aggState : after.aggState = state.aggState)
    (coming : state.aggSkb ≠ none → state.FlushComing → after.FlushComing) : Pending after := by
  constructor
  · rw [skb, aggState]
    exact pending.buffered
  · intro here
    rw [skb] at here
    exact coming here (pending.coming here)

theorem Pending.shipped (aggSkb : AggSkb) : Pending (state.shipped aggSkb) := by
  constructor
  · refine ⟨absurd rfl, fun idle : 0 = -einprogress => ?_⟩
    exact absurd idle (by decide)
  · exact absurd rfl

theorem Pending.send (pending : Pending state) (next : Call) : Pending (rmnetMapSendAggSkb state next).1 := by
  unfold rmnetMapSendAggSkb
  split
  · exact pending
  · exact .shipped _

theorem Pending.schedule (buffered : state.aggSkb ≠ none)
    (coming : state.aggState = -einprogress → state.FlushComing) : Pending (rmnetMapSchedule state) := by
  unfold rmnetMapSchedule
  split
  · exact ⟨⟨fun _ => rfl, fun _ => buffered⟩, fun _ => .inl rfl⟩
  · rename_i scheduled
    have progress := Classical.not_not.mp scheduled
    exact ⟨⟨fun _ => progress, fun _ => buffered⟩, fun _ => coming progress⟩

section

variable (pending : Pending state)
include pending

theorem Pending.txAggregate (skb : Skb) (now later : Int) (built : Option Nat) :
    Pending (rmnetMapTxAggregate port state skb now later built).1 := by
  have clocked : Pending { state with aggLast := now } :=
    pending.congr rfl rfl fun _ coming => coming
  unfold rmnetMapTxAggregate
  split
  · exact clocked.send _
  cases found : state.aggSkb with
  | none =>
    have idle : ¬ state.aggState = -einprogress := fun progress =>
      pending.buffered.mpr progress found
    dsimp only
    split
    · exact pending.congr found.symm rfl fun here _ => absurd found here
    cases built with
    | none => exact pending.congr found.symm rfl fun here _ => absurd found here
    | some room =>
      apply Pending.schedule
      · exact some_ne_none _
      · exact fun progress => absurd progress idle
  | some aggSkb =>
    have buffered : state.aggSkb ≠ none := by
      rw [found]
      exact some_ne_none _
    dsimp only
    split
    · rw [← found]
      exact clocked.send _
    · apply Pending.schedule
      · exact some_ne_none _
      · exact fun _ => pending.coming buffered

theorem Pending.advance {call : Call} (now later : Int) (built : Option Nat)
    (spared : call.cancels = true → ¬ state.OnTimerOnly) : Pending (call.advance port state now later built).1 := by
  cases call with
  | newPacket skb => exact pending.txAggregate skb now later built
  | sendAggSkb => exact pending.send _
  | txQmapCmd qmapSkb flush =>
    unfold Call.advance rmnetMapTxQmapCmd
    dsimp only
    split
    · exact pending.send _
    · exact pending
  | hrtimerCancel next =>
    refine pending.congr rfl rfl fun buffered coming => ?_
    rcases coming with armed | queued | flushing
    · have other : state.aggWq = true ∨ state.flushing = true := by
        by_cases queued : state.aggWq = true
        · exact .inl queued
        · refine .inr (Classical.not_not.mp fun idle => spared rfl ?_)
          exact ⟨buffered, armed, by simpa using queued, by simpa using idle⟩
      exact .inr other
    · exact .inr (.inl queued)
    · exact .inr (.inr flushing)
  | transmit skb => exact pending.congr rfl rfl fun _ coming => coming
  | returned => exact pending

theorem Pending.flushed : Pending { rmnetMapFlushTxPacketWork state with flushing := false } := by
  unfold rmnetMapFlushTxPacketWork
  split
  · rename_i progress
    cases found : state.aggSkb with
    | none => exact absurd found (pending.buffered.mpr progress)
    | some aggSkb =>
      have shipped := @Pending.shipped state aggSkb
      exact shipped.congr rfl rfl fun here _ => absurd rfl here
  · rename_i idle
    refine pending.congr rfl rfl fun here _ => ?_
    exact absurd (pending.buffered.mp here) idle

theorem Pending.kept (spared : SparesTimer state action) (taken : step port state action = some after) :
    Pending after := by
  cases action with
  | enter call =>
    cases (ite_none_right_eq_some.mp taken).2
    exact pending.congr rfl rfl fun _ coming => coming
  | proceed idx now later built =>
    simp only [step] at taken
    simp only [SparesTimer] at spared
    cases found : state.calls[idx]? with
    | none => rw [found] at taken; cases taken
    | some call =>
      rw [found] at taken spared
      have advanced : Pending (call.advance port state now later built).1 := by
        exact pending.advance now later built spared
      dsimp only at taken
      split at taken
      all_goals
        rw [← some.inj taken]
        exact advanced.congr rfl rfl fun _ coming => coming
  | timerExpires =>
    cases (ite_none_right_eq_some.mp taken).2
    exact pending.congr rfl rfl fun _ _ => .inr (.inl rfl)
  | workStarts =>
    cases (ite_none_right_eq_some.mp taken).2
    exact pending.congr rfl rfl fun _ _ => .inr (.inr rfl)
  | workRuns =>
    cases (ite_none_right_eq_some.mp taken).2
    exact pending.flushed
  | updateUlAggConfig params =>
    rw [← some.inj taken]
    exact pending.congr rfl rfl fun _ coming => coming

end

end Steps

def Action.IsFlush : Action → Prop
  | .timerExpires | .workStarts | .workRuns => True
  | _ => False

theorem Pending.sends (pending : Pending state) (quiet : state.Quiet)
    (buffered : state.aggSkb = some aggSkb) : ∃ actions after, (∀ action ∈ actions, action.IsFlush) ∧
      runActions (step port) SparesTimer state actions = some after ∧
      after.aggSkb = none ∧ after.sent = state.sent ++ [aggSkb.packets] := by
  have here : state.aggSkb ≠ none := by
    rw [buffered]
    exact some_ne_none _
  have progress := pending.buffered.mp here
  have ran (queued : RmnetAggregationState) (skb : queued.aggSkb = state.aggSkb)
      (aggState : queued.aggState = state.aggState) (sent : queued.sent = state.sent)
      (waiting : queued.aggWq = true) (idle : queued.flushing = false) :
      ∃ after, runActions (step port) SparesTimer queued [.workStarts, .workRuns] = some after ∧
        after.aggSkb = none ∧ after.sent = state.sent ++ [aggSkb.packets] := by
    let begun := { queued with aggWq := false, flushing := true }
    refine ⟨{ rmnetMapFlushTxPacketWork begun with flushing := false }, ?_, ?_⟩
    · have starts : step port queued .workStarts = some begun := if_pos ⟨waiting, idle⟩
      rw [runActions_taken (by trivial) starts]
      rfl
    · simp only [begun, rmnetMapFlushTxPacketWork, aggState, progress, if_true, skb, buffered]
      exact ⟨rfl, by rw [← sent]; rfl⟩
  rcases pending.coming here with armed | queued | flushing
  · obtain ⟨after, taken, done⟩ := ran { state with hrtimer := false, aggWq := true } rfl rfl rfl
      rfl quiet.2
    refine ⟨[.timerExpires, .workStarts, .workRuns], after, ?_, ?_, done⟩
    · simp [Action.IsFlush]
    · rw [runActions_taken (by trivial) (if_pos armed)]
      exact taken
  · obtain ⟨after, taken, done⟩ := ran state rfl rfl rfl queued quiet.2
    exact ⟨[.workStarts, .workRuns], after, by simp [Action.IsFlush], taken, done⟩
  · rw [quiet.2] at flushing
    cases flushing

/-- In every run whose cancels spare the timers of new buffers, a buffer left by the calls has its flush coming,
which sends it. -/
theorem buffer_flush_pending (port : RmnetPort) {state : RmnetAggregationState}
    (reached : Reachable (step port) SparesTimer rmnetMapTxAggregateInit state)
    (quiet : state.Quiet) {aggSkb : AggSkb} (buffered : state.aggSkb = some aggSkb) :
    state.aggState = -einprogress ∧ (state.hrtimer = true ∨ state.aggWq = true) ∧
      ∃ actions after, (∀ action ∈ actions, action.IsFlush) ∧
        runActions (step port) SparesTimer state actions = some after ∧
        after.aggSkb = none ∧ after.sent = state.sent ++ [aggSkb.packets] := by
  have pending : Pending state := by
    apply reached.invariant Pending
    · exact ⟨⟨absurd rfl, fun idle : 0 = -einprogress => absurd idle (by decide)⟩,
        (absurd rfl)⟩
    · exact fun _ _ _ before spared taken => before.kept spared taken
  have present : state.aggSkb ≠ none := by
    rw [buffered]
    exact Option.some_ne_none _
  refine ⟨pending.buffered.mp present, ?_, pending.sends quiet buffered⟩
  rcases pending.coming present with armed | queued | flushing
  · exact .inl armed
  · exact .inr queued
  · rw [quiet.2] at flushing
    cases flushing

def aggregatingPort : RmnetPort := ⟨false, true⟩

theorem buffer_flush_pending_begun :
    ∃ state aggSkb, state.Quiet ∧ state.aggSkb = some aggSkb ∧ state.hrtimer = true ∧
      ∃ actions after, (∀ action ∈ actions, action.IsFlush) ∧
        runActions (step aggregatingPort) SparesTimer state actions = some after ∧
        after.aggSkb = none ∧ after.sent = state.sent ++ [aggSkb.packets] := by
  let actions : List Action :=
    [.enter (.newPacket ⟨100, 0⟩), .proceed 0 1 2 (some 3712)]
  have run : (runActions (step aggregatingPort) SparesTimer rmnetMapTxAggregateInit actions).map
      (fun state => (state.calls, state.flushing, state.aggSkb, state.hrtimer)) =
        some ([], false, some ⟨[⟨100, 0⟩], 3612⟩, true) := by
    decide +kernel
  obtain ⟨state, taken, fields⟩ := Option.map_eq_some_iff.mp run
  simp only [Prod.mk.injEq] at fields
  obtain ⟨calls, flushing, buffered, armed⟩ := fields
  have pending := buffer_flush_pending aggregatingPort (.run .start taken) ⟨calls, flushing⟩ buffered
  exact ⟨state, _, ⟨calls, flushing⟩, buffered, armed, pending.2.2⟩

/-- A sender cancels the timer of the next buffer, and appends to it without arming it again. -/
theorem buffer_stranded :
    ∃ state, Reachable (step aggregatingPort) (fun _ _ => True) rmnetMapTxAggregateInit state ∧
      state.Quiet ∧ state.aggSkb = some ⟨[⟨10, 0⟩, ⟨100, 0⟩], 40⟩ ∧
      state.hrtimer = false ∧ state.aggWq = false :=
  reaches [.enter (.newPacket ⟨100, 0⟩), .proceed 0 1 2 (some 150), .enter (.newPacket ⟨100, 0⟩), .proceed 0 3 3 none,
    .enter (.newPacket ⟨10, 0⟩), .proceed 1 4 5 (some 150), .proceed 0 6 6 none, .proceed 0 7 7 none]
    (fun state => (state.calls = [] ∧ state.flushing = false) ∧ state.aggSkb = some ⟨[⟨10, 0⟩, ⟨100, 0⟩], 40⟩ ∧
      state.hrtimer = false ∧ state.aggWq = false) (by decide +kernel) fun _ _ stranded => stranded

end KernelModules.Rmnet

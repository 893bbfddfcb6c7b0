import KernelModules.Rmnet.Aggregation
import Mathlib.Data.List.Perm.Basic

namespace KernelModules.Rmnet

open Data List

/-! # What is handed to the aggregation is sent once -/

def Call.carried : Call → List Skb
  | .newPacket skb | .txQmapCmd skb _ | .transmit skb => [skb]
  | .hrtimerCancel next => next.carried
  | .sendAggSkb | .returned => []

def Action.handed : Action → List Skb
  | .enter call => call.carried
  | _ => []

namespace RmnetAggregationState

/-- All packets the port has, the sent ones among them. -/
def packets (state : RmnetAggregationState) : List Skb :=
  state.sent.flatten ++ (state.aggSkb.map AggSkb.packets).getD [] ++ state.calls.flatMap Call.carried

/-- The other calls, and how often `packet` is sent, in the buffer or with the one call. -/
def kept (packet : Skb) (point : RmnetAggregationState × Call) : List Call × Nat :=
  (point.1.calls, count packet point.1.sent.flatten +
    count packet ((point.1.aggSkb.map AggSkb.packets).getD []) + count packet point.2.carried)

variable {state after : RmnetAggregationState} {packet : Skb}

theorem kept_send (next : Call) : kept packet (rmnetMapSendAggSkb state next) = kept packet (state, next) := by
  unfold rmnetMapSendAggSkb
  split
  · rfl
  · rename_i found
    simp [kept, shipped, found, Call.carried]

theorem kept_schedule : kept packet (rmnetMapSchedule state, call) = kept packet (state, call) := by
  unfold rmnetMapSchedule
  split <;> rfl

theorem kept_txAggregate :
    kept packet (rmnetMapTxAggregate port state skb now later built) = kept packet (state, .newPacket skb) := by
  unfold rmnetMapTxAggregate
  dsimp only
  split
  · exact kept_send (.transmit skb)
  split
  · rename_i empty
    have none : state.aggSkb = none := empty
    split
    · simp [kept, transmitted, none, Call.carried]
    · split
      · simp [kept, transmitted, none, Call.carried]
      · rw [kept_schedule]
        simp [kept, none, Call.carried]
  · rename_i aggSkb found
    have some : state.aggSkb = some aggSkb := found
    split
    · exact kept_send (.newPacket skb)
    · rw [kept_schedule]
      simp [kept, some, Call.carried, Nat.add_assoc]

theorem kept_advance (call : Call) (now later : Int) (built : Option Nat) :
    kept packet (call.advance port state now later built) = kept packet (state, call) := by
  cases call with
  | newPacket skb => exact kept_txAggregate
  | sendAggSkb => exact kept_send .returned
  | txQmapCmd skb flush =>
    simp only [Call.advance, rmnetMapTxQmapCmd]
    split
    · exact kept_send (.transmit skb)
    · rfl
  | transmit skb => simp [Call.advance, kept, transmitted, Call.carried, Nat.add_right_comm]
  | _ => rfl

theorem packets_step (taken : step port state action = some after) :
    count packet after.packets = count packet state.packets + count packet action.handed := by
  cases action with
  | enter call =>
    cases (Option.ite_none_right_eq_some.mp taken).2
    simp [packets, Action.handed, Nat.add_assoc]
  | proceed index now later built =>
    simp only [step] at taken
    cases found : state.calls[index]? with
    | none => rw [found] at taken; cases taken
    | some call =>
      rw [found] at taken
      obtain ⟨within, rfl⟩ := List.getElem?_eq_some_iff.mp found
      obtain ⟨calls, held⟩ := Prod.mk.inj (@kept_advance state packet port state.calls[index] now later built)
      have left := ((getElem_cons_eraseIdx_perm within).flatMap_right Call.carried).count_eq packet
      have put (next : Call) := ((set_perm_cons_eraseIdx within next).flatMap_right Call.carried).count_eq packet
      simp only [packets, count_append]
      dsimp only at taken
      split at taken <;> cases taken
      · simp_all [Action.handed, Call.carried]
        omega
      · simp_all [Action.handed]
        omega
  | workRuns =>
    cases (Option.ite_none_right_eq_some.mp taken).2
    unfold rmnetMapFlushTxPacketWork
    repeat' split
    all_goals simp_all [packets, shipped, Action.handed]
  | timerExpires | workStarts =>
    cases (Option.ite_none_right_eq_some.mp taken).2
    simp [packets, Action.handed]
  | updateUlAggConfig params =>
    cases taken
    simp [packets, Action.handed]

/-- However the calls interleave, every packet handed in has been sent, or is in the buffer, or is with its call, as
often as it was handed in. -/
theorem packets_conserved (port : RmnetPort) {actions : List Action}
    (ran : runActions (step port) (fun _ _ => True) rmnetMapTxAggregateInit actions = some state) :
    state.packets.Perm (actions.flatMap Action.handed) := by
  suffices run : ∀ begun actions, runActions (step port) (fun _ _ => True) begun actions = some state →
      ∀ packet, count packet state.packets = count packet begun.packets + count packet (actions.flatMap Action.handed) by
    exact perm_iff_count.mpr fun packet => (run _ actions ran packet).trans (Nat.zero_add _)
  intro begun actions ran packet
  induction actions generalizing begun with
  | nil => cases ran; rfl
  | cons action rest ih =>
    simp only [runActions, if_true] at ran
    obtain ⟨next, taken, later⟩ := Option.bind_eq_some_iff.mp ran
    rw [ih next later, packets_step taken, flatMap_cons, count_append, Nat.add_assoc]

theorem packets_conserved_run : ∃ state, runActions (step aggregatingPort) (fun _ _ => True) rmnetMapTxAggregateInit
    [.enter (.newPacket ⟨100, 0⟩), .proceed 0 1 2 (some 150)] = some state ∧ state.packets.Perm [⟨100, 0⟩] :=
  ran_to (fun _ => True) (by decide +kernel) fun _ ran _ => packets_conserved aggregatingPort ran

end RmnetAggregationState

end KernelModules.Rmnet

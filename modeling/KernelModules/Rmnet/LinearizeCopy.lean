import Mathlib.Data.Nat.Size
import Mathlib.Tactic.IntervalCases

namespace KernelModules.Rmnet

/-! # The room of the aggregation buffer

`rmnet_map_update_ul_agg_config`, and the packets that are copied under it.  `overhead` is the aligned size of
`skb_shared_info`, at the end of a buffer.
-/

def pageSize : Nat := 4096

/-- `get_order`. -/
def getOrder (size : Nat) : Nat := Nat.size ((size - 1) / pageSize)

structure AggConfig where
  aggSize : BitVec 16
  aggSizeOrder : Nat
  /-- The room left in `agg_skb`. -/
  tailroom : Option Nat

def AggConfig.room (state : AggConfig) (overhead : Nat) : Nat :=
  pageSize <<< state.aggSizeOrder - overhead

/-- `rmnet_map_update_ul_agg_config`: a size below a page leaves the order as it is. -/
def AggConfig.update (overhead : Nat) (state : AggConfig) (size : BitVec 16) : AggConfig :=
  if size.toNat < pageSize then { state with aggSize := size }
  else { state with
      aggSizeOrder := getOrder size.toNat
      aggSize := BitVec.ofNat 16 (pageSize <<< getOrder size.toNat) - BitVec.ofNat 16 overhead }

/-- The state that `rmnet_map_tx_aggregate_init` makes. -/
def AggConfig.init (overhead : Nat) : AggConfig :=
  AggConfig.update overhead { aggSize := 0, aggSizeOrder := 0, tailroom := none } 4095

/-- A packet, and what `rmnet_map_tx_aggregate` is told: its priority, whether traffic is sparse, whether there is
memory, and whether `agg_skb` has its packets or its time. -/
structure AggPacket where
  len : BitVec 32
  priority : Bool
  sparse : Bool
  built : Bool
  full : Bool

/-- A call of `rmnet_map_linearize_copy`. -/
structure LinearizeCopy where
  len : Nat
  room : Nat

/-- `size > 0` with `size = agg_size - len`, an unsigned difference read as an `int`. -/
def AggConfig.admits (state : AggConfig) (len : BitVec 32) : Bool :=
  decide (0 < (state.aggSize.setWidth 32 - len).toInt)

def AggConfig.begins (state : AggConfig) (packet : AggPacket) : Bool :=
  !packet.priority && state.tailroom.isNone && !packet.sparse && state.admits packet.len &&
    packet.built

def AggConfig.copyInto (state : AggConfig) (room len : Nat) : AggConfig × Option LinearizeCopy :=
  ({ state with tailroom := some (room - len) }, some { len := len, room := room })

/-- One holding of the lock in `rmnet_map_tx_aggregate`. -/
def AggConfig.txAggregate (overhead : Nat) (state : AggConfig) (packet : AggPacket) :
    AggConfig × Option LinearizeCopy :=
  if packet.priority then ({ state with tailroom := none }, none)
  else match state.tailroom with
    | none =>
      if packet.sparse || !state.admits packet.len then (state, none)
      else if !packet.built then (state, none)
      else state.copyInto (state.room overhead) packet.len.toNat
    | some room =>
      if room < packet.len.toNat ∨ packet.full then ({ state with tailroom := none }, none)
      else state.copyInto room packet.len.toNat

inductive AggStep where
  | updateUlAggConfig (size : BitVec 16)
  | txAggregate (packet : AggPacket)
  /-- `rmnet_map_send_agg_skb` and the flush work. -/
  | sendAggSkb

def AggStep.perform (overhead : Nat) (state : AggConfig) : AggStep → AggConfig × Option LinearizeCopy
  | .updateUlAggConfig size => (state.update overhead size, none)
  | .txAggregate packet => state.txAggregate overhead packet
  | .sendAggSkb => ({ state with tailroom := none }, none)

def AggConfig.after (overhead : Nat) (history : List AggStep) : AggConfig :=
  history.foldl (fun state next => (next.perform overhead state).1) (AggConfig.init overhead)

open AggConfig (after begins room update)

def AggStep.CopyFits (overhead : Nat) (state : AggConfig) (next : AggStep) : Prop :=
  ∀ copy, (next.perform overhead state).2 = some copy → copy.len ≤ copy.room

/-- A packet that begins an aggregate is not between the room of one page and an `agg_size` below
a page, nor more than 2^31 above `agg_size`. -/
def AggStep.Admissible (overhead : Nat) (state : AggConfig) (next : AggStep) : Prop :=
  ∀ packet, next = .txAggregate packet → state.begins packet = true →
    ¬ (state.aggSizeOrder = 0 ∧ pageSize - overhead < packet.len.toNat ∧ packet.len.toNat < state.aggSize.toNat) ∧
      packet.len.toNat ≤ 2147483648 + state.aggSize.toNat

/-- Above a page the configured size is the room of the buffer. -/
structure AggConfig.Sized (overhead : Nat) (state : AggConfig) : Prop where
  order : state.aggSizeOrder ≤ 4
  size : 0 < state.aggSizeOrder → state.aggSize.toNat ≤ state.room overhead

theorem getOrder_le (size : BitVec 16) : getOrder size.toNat ≤ 4 := by
  unfold getOrder pageSize
  rw [Nat.size_le]
  omega

theorem AggConfig.admits_iff (state : AggConfig) (len : BitVec 32) : state.admits len = true ↔
    len.toNat < state.aggSize.toNat ∨ 2147483648 + state.aggSize.toNat < len.toNat := by
  have wide : (state.aggSize.setWidth 32 : BitVec 32).toNat = state.aggSize.toNat := by
    simp
    omega
  unfold admits
  rw [decide_eq_true_iff, BitVec.toInt_eq_toNat_cond, BitVec.toNat_sub]
  omega

section Sized

variable {overhead : Nat} {state : AggConfig}

theorem AggConfig.Sized.update (small : overhead ≤ pageSize) (sized : state.Sized overhead)
    (size : BitVec 16) : (state.update overhead size).Sized overhead := by
  unfold AggConfig.update
  split
  · refine ⟨sized.order, fun some_ => ?_⟩
    have pages : pageSize <<< 1 ≤ pageSize <<< state.aggSizeOrder := by
      rw [Nat.shiftLeft_eq, Nat.shiftLeft_eq]
      exact Nat.mul_le_mul_left _ (Nat.pow_le_pow_right (by decide) some_)
    simp only [room]
    omega
  · have order := getOrder_le size
    refine ⟨order, fun _ => ?_⟩
    simp only [room, BitVec.toNat_sub, BitVec.toNat_ofNat]
    unfold pageSize at *
    interval_cases getOrder size.toNat <;> simp only [Nat.reduceShiftLeft] <;> omega

theorem AggStep.sized (small : overhead ≤ pageSize) (sized : state.Sized overhead)
    (next : AggStep) : (next.perform overhead state).1.Sized overhead := by
  cases next with
  | updateUlAggConfig size => exact sized.update small size
  | sendAggSkb => exact ⟨sized.order, sized.size⟩
  | txAggregate packet =>
    show (state.txAggregate overhead packet).1.Sized overhead
    unfold AggConfig.txAggregate
    repeat' split
    all_goals exact ⟨sized.order, sized.size⟩

theorem AggConfig.after_sized (small : overhead ≤ pageSize) (history : List AggStep) :
    (after overhead history).Sized overhead := by
  have general (state : AggConfig) (sized : state.Sized overhead) :
      (history.foldl (fun state next => (next.perform overhead state).1) state).Sized overhead := by
    induction history generalizing state with
    | nil => exact sized
    | cons next rest ih => exact ih _ (next.sized small sized)
  refine general _ (AggConfig.Sized.update small ⟨Nat.zero_le 4, fun some_ => ?_⟩ 4095)
  cases some_

theorem AggConfig.txAggregate_fits (state : AggConfig) (pkt : AggPacket) :
    (AggStep.txAggregate pkt).CopyFits overhead state ↔
      (state.begins pkt = true → pkt.len.toNat ≤ state.room overhead) := by
  show (∀ copy, (state.txAggregate overhead pkt).2 = some copy → copy.len ≤ copy.room) ↔ _
  unfold txAggregate begins
  cases priority : pkt.priority with
  | true => simp
  | false =>
    cases tailroom : state.tailroom with
    | none =>
      cases pkt.sparse <;> cases state.admits pkt.len <;> cases pkt.built <;> simp [copyInto]
    | some room =>
      simp only [Bool.false_eq_true, if_false]
      split
      · simp
      · simp [copyInto]
        omega

/-- After every history, the next copy fits its buffer if and only if its packet is admissible. -/
theorem linearize_copy_fits_iff {overhead : Nat} (small : overhead ≤ pageSize)
    (history : List AggStep) (next : AggStep) : next.CopyFits overhead (AggConfig.after overhead history) ↔
      next.Admissible overhead (AggConfig.after overhead history) := by
  obtain ⟨order, size⟩ := AggConfig.after_sized small history
  generalize AggConfig.after overhead history = state at *
  cases next with
  | updateUlAggConfig size => simp [AggStep.CopyFits, AggStep.Admissible, AggStep.perform]
  | sendAggSkb => simp [AggStep.CopyFits, AggStep.Admissible, AggStep.perform]
  | txAggregate packet =>
    rw [AggConfig.txAggregate_fits]
    have admitted (begins : state.begins packet = true) : packet.len.toNat < state.aggSize.toNat ∨
          2147483648 + state.aggSize.toNat < packet.len.toNat := by
      rw [← AggConfig.admits_iff]
      simp only [AggConfig.begins, Bool.and_eq_true] at begins
      exact begins.1.2
    have top : state.room overhead < 2147483648 := by
      unfold AggConfig.room pageSize
      interval_cases state.aggSizeOrder <;> simp only [Nat.reduceShiftLeft] <;> omega
    have page : state.aggSizeOrder = 0 → state.room overhead = pageSize - overhead := by
      intro zero
      rw [AggConfig.room, zero]
      rfl
    constructor
    · rintro fits other same begins
      cases same
      have within := fits begins
      refine ⟨fun ⟨zero, above, _⟩ => ?_, by omega⟩
      omega
    · intro admissible begins
      obtain ⟨apart, below⟩ := admissible packet rfl begins
      have less := admitted begins
      by_cases zero : state.aggSizeOrder = 0
      · by_contra above
        exact apart ⟨zero, by omega, by omega⟩
      · omega

def firstPacket (len : BitVec 32) : AggPacket where
  len := len
  priority := false
  sparse := false
  built := true
  full := false

theorem linearize_copy_fits_configured : AggStep.CopyFits 320 (AggConfig.after 320 [.updateUlAggConfig 8192])
      (.txAggregate (firstPacket 7000)) := by
  refine (linearize_copy_fits_iff (by decide) _ _).mpr fun packet same begins => ?_
  cases same
  decide

/-- A packet of 3800 bytes begins an aggregate, with the first configuration of the driver. -/
theorem linearize_copy_overruns : ¬ ∀ history next, AggStep.CopyFits 320 (AggConfig.after 320 history) next := by
  intro always
  exact absurd (always [] (.txAggregate (firstPacket 3800)) _ rfl) (by decide)

end Sized

end KernelModules.Rmnet

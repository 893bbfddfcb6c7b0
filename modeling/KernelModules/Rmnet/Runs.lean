import Mathlib.Data.List.Chain
import Mathlib.Algebra.BigOperators.Group.List.Basic
import Mathlib.Algebra.GroupWithZero.Nat

namespace KernelModules.Rmnet

open List

/-! # The packets of a coalesced frame cut into runs

Which packets each segment of the two loops takes, and the packet number it is told.
-/

structure CoalPacket where
  nlo : Nat
  size : Nat
  csumErr : Bool

/-- A segment to be made: its packets, the `total_pkt` it is told and its checksum mark. -/
structure SegmentCall where
  run : List CoalPacket
  totalPkt : Nat
  csumValid : Bool

def payloadOf (run : List CoalPacket) : Nat :=
  (run.map CoalPacket.size).sum

def flushCalls (gathered : List CoalPacket) (totalPkt : Nat) : List SegmentCall :=
  if gathered = [] then [] else [⟨gathered, totalPkt, true⟩]

def packetCalls (gro : Bool) (packet : CoalPacket) (totalPkt : Nat) (gathered : List CoalPacket) :
    List SegmentCall :=
  if ¬gro then [⟨[packet], totalPkt, !packet.csumErr⟩]
  else if packet.csumErr then flushCalls gathered totalPkt ++ [⟨[packet], totalPkt, false⟩]
  else []

def gather (gro : Bool) (packet : CoalPacket) (gathered : List CoalPacket) : List CoalPacket :=
  if gro ∧ ¬packet.csumErr then gathered ++ [packet] else []

def nloCalls (gro : Bool) : List CoalPacket → Nat → List CoalPacket → List SegmentCall
  | [], totalPkt, gathered => flushCalls gathered totalPkt
  | packet :: later, totalPkt, gathered =>
    packetCalls gro packet totalPkt gathered ++ nloCalls gro later (totalPkt + 1) (gather gro packet gathered)

def frameCalls (gro : Bool) : List (List CoalPacket) → Nat → List SegmentCall
  | [], _ => []
  | nlo :: later, totalPkt =>
    nloCalls gro nlo totalPkt [] ++ frameCalls gro later (totalPkt + nlo.length)

/-- A segment with the packets and the payload before it, and the `pkt_id` its identification is computed from. -/
structure Emission where
  call : SegmentCall
  first : Nat
  offset : Nat
  pktId : Nat

def emissions : Nat → Nat → Nat → List SegmentCall → List Emission
  | _, _, _, [] => []
  | first, offset, pktId, call :: later =>
    ⟨call, first, offset, pktId⟩ :: emissions (first + call.run.length) (offset + payloadOf call.run)
        ((call.totalPkt + 1) % 256) later

def callsPayload (calls : List SegmentCall) : Nat :=
  (calls.map fun call => payloadOf call.run).sum

def callsPackets (calls : List SegmentCall) : List CoalPacket :=
  calls.flatMap SegmentCall.run

/-- The `pkt_id` after the calls. -/
def lastPktId : Nat → List SegmentCall → Nat
  | pktId, [] => pktId
  | _, call :: later => lastPktId ((call.totalPkt + 1) % 256) later

variable {pkt : CoalPacket} {call : SegmentCall}

@[simp] theorem payloadOf_nil : payloadOf [] = 0 := rfl

@[simp] theorem payloadOf_cons : payloadOf (pkt :: run) = pkt.size + payloadOf run := by
  simp [payloadOf]

@[simp] theorem payloadOf_append : payloadOf (run ++ packets) = payloadOf run + payloadOf packets := by
  simp [payloadOf]

theorem payloadOf_same (same : ∀ pkt ∈ run, pkt.size = size) : payloadOf run = size * run.length := by
  induction run with
  | nil => simp
  | cons pkt later ih =>
    have rest := ih fun pkt mem => same pkt (mem_cons_of_mem _ mem)
    rw [payloadOf_cons, rest, same pkt (mem_cons_self ..), length_cons, Nat.mul_succ, add_comm]

@[simp] theorem callsPayload_nil : callsPayload [] = 0 := rfl

@[simp] theorem callsPayload_cons : callsPayload (call :: calls) = payloadOf call.run + callsPayload calls := by
  simp [callsPayload]

@[simp] theorem callsPayload_append : callsPayload (calls ++ more) = callsPayload calls + callsPayload more := by
  simp [callsPayload]

@[simp] theorem callsPackets_nil : callsPackets [] = [] := rfl

@[simp] theorem callsPackets_cons : callsPackets (call :: calls) = call.run ++ callsPackets calls := by
  simp [callsPackets]

@[simp] theorem callsPackets_append : callsPackets (calls ++ more) = callsPackets calls ++ callsPackets more := by
  simp [callsPackets]

theorem callsPayload_eq : callsPayload calls = payloadOf (callsPackets calls) := by
  induction calls with
  | nil => rfl
  | cons call later ih => rw [callsPayload_cons, callsPackets_cons, payloadOf_append, ih]

theorem emissions_append : emissions first offset pktId (calls ++ more) = emissions first offset pktId calls ++
        emissions (first + (callsPackets calls).length) (offset + callsPayload calls) (lastPktId pktId calls) more := by
  induction calls generalizing first offset pktId with
  | nil => rfl
  | cons call later ih =>
    rw [cons_append, emissions, ih, callsPackets_cons, length_append, add_assoc, add_assoc]
    rfl

theorem lastPktId_append : lastPktId pktId (calls ++ more) = lastPktId (lastPktId pktId calls) more := by
  induction calls generalizing pktId with
  | nil => rfl
  | cons call later ih => exact ih

theorem flushCalls_packets : callsPackets (flushCalls gathered totalPkt) = gathered := by
  unfold flushCalls
  by_cases empty : gathered = []
  · rw [empty]
    rfl
  · rw [if_neg empty]
    simp [callsPackets]

theorem packetCalls_packets (clear : gro = false → gathered = []) :
    callsPackets (packetCalls gro pkt totalPkt gathered) ++ gather gro pkt gathered = gathered ++ [pkt] := by
  unfold packetCalls gather
  cases gro with
  | false =>
    rw [clear rfl]
    rfl
  | true =>
    cases pkt.csumErr with
    | true =>
      have gone := @flushCalls_packets gathered totalPkt
      simp only [callsPackets] at gone
      simp [callsPackets, gone]
    | false => rfl

theorem gather_clear : gro = false → gather gro pkt gathered = [] := by
  rintro rfl
  rfl

theorem nloCalls_packets (clear : gro = false → gathered = []) :
    callsPackets (nloCalls gro packets totalPkt gathered) = gathered ++ packets := by
  induction packets generalizing totalPkt gathered with
  | nil => rw [nloCalls, flushCalls_packets, append_nil]
  | cons pkt later ih =>
    rw [nloCalls, callsPackets_append, ih gather_clear, ← append_assoc,
      packetCalls_packets clear, append_assoc, singleton_append]

theorem frameCalls_packets : callsPackets (frameCalls gro nlos totalPkt) = nlos.flatten := by
  induction nlos generalizing totalPkt with
  | nil => rfl
  | cons nlo later ih =>
    rw [frameCalls, callsPackets_append, nloCalls_packets fun _ => rfl, ih, flatten_cons, nil_append]

/-- A run that a segment may hold: a packet with a checksum error alone, or good packets. -/
structure ProperCall (call : SegmentCall) : Prop where
  nonempty : call.run ≠ []
  oneNlo : ∀ packet ∈ call.run, ∀ other ∈ call.run, packet.nlo = other.nlo ∧ packet.size = other.size
  marked : call.csumValid = true ∧ (∀ packet ∈ call.run, packet.csumErr = false) ∨
    call.csumValid = false ∧ ∃ packet, call.run = [packet] ∧ packet.csumErr = true

theorem ProperCall.single : ProperCall ⟨[pkt], totalPkt, !pkt.csumErr⟩ := by
  constructor
  · simp
  · intro one mem other otherMember
    rw [mem_singleton.mp mem, mem_singleton.mp otherMember]
    exact ⟨rfl, rfl⟩
  · cases err : pkt.csumErr with
    | true => exact .inr ⟨rfl, pkt, rfl, err⟩
    | false =>
      refine .inl ⟨rfl, fun one mem => ?_⟩
      rw [mem_singleton.mp mem, err]

theorem flushCalls_proper (alike : ∀ pkt ∈ gathered, pkt.nlo = nlo ∧ pkt.size = size)
    (good : ∀ pkt ∈ gathered, pkt.csumErr = false) (mem : call ∈ flushCalls gathered totalPkt) : ProperCall call := by
  unfold flushCalls at mem
  by_cases empty : gathered = []
  · rw [if_pos empty] at mem
    cases mem
  rw [if_neg empty, mem_singleton] at mem
  subst mem
  refine ⟨empty, fun one oneMember other otherMember => ?_, .inl ⟨rfl, good⟩⟩
  obtain ⟨oneNlo, oneSize⟩ := alike one oneMember
  obtain ⟨otherNlo, otherSize⟩ := alike other otherMember
  exact ⟨oneNlo.trans otherNlo.symm, oneSize.trans otherSize.symm⟩

theorem packetCalls_proper (alike : ∀ other ∈ gathered, other.nlo = nlo ∧ other.size = size)
    (good : ∀ other ∈ gathered, other.csumErr = false)
    (mem : call ∈ packetCalls gro pkt totalPkt gathered) : ProperCall call := by
  unfold packetCalls at mem
  have single := @ProperCall.single pkt totalPkt
  by_cases whole : gro
  · rw [if_neg (not_not.mpr whole)] at mem
    cases err : pkt.csumErr with
    | true =>
      rw [err] at single mem
      rcases mem_append.mp mem with mem | mem
      · exact flushCalls_proper alike good mem
      · rw [mem_singleton.mp mem]
        exact single
    | false =>
      rw [err] at mem
      cases mem
  · rw [if_pos whole] at mem
    rw [mem_singleton.mp mem]
    exact single

theorem gather_cases (mem : other ∈ gather gro pkt gathered) :
    other ∈ gathered ∨ other = pkt ∧ pkt.csumErr = false := by
  unfold gather at mem
  split at mem
  · rename_i taken
    rcases mem_append.mp mem with mem | mem
    · exact .inl mem
    · exact .inr ⟨mem_singleton.mp mem, by simpa using taken.2⟩
  · cases mem

theorem nloCalls_proper (alike : ∀ other ∈ gathered ++ packets, other.nlo = nlo ∧ other.size = size)
    (good : ∀ other ∈ gathered, other.csumErr = false)
    (mem : call ∈ nloCalls gro packets totalPkt gathered) : ProperCall call := by
  induction packets generalizing totalPkt gathered with
  | nil =>
    rw [append_nil] at alike
    exact flushCalls_proper alike good mem
  | cons pkt later ih =>
    rcases mem_append.mp mem with mem | mem
    · exact packetCalls_proper (fun other inside => alike other (by simp [inside])) good mem
    refine ih ?_ ?_ mem
    · intro other inside
      rcases mem_append.mp inside with inside | inside
      · rcases gather_cases inside with inside | ⟨rfl, _⟩
        · exact alike other (by simp [inside])
        · exact alike other (by simp)
      · exact alike other (by simp [inside])
    · intro other inside
      rcases gather_cases inside with inside | ⟨rfl, clean⟩
      · exact good other inside
      · exact clean

theorem frameCalls_proper (alike : ∀ packets ∈ nlos, ∃ nlo size, ∀ pkt ∈ packets,
      pkt.nlo = nlo ∧ pkt.size = size) (mem : call ∈ frameCalls gro nlos totalPkt) : ProperCall call := by
  induction nlos generalizing totalPkt with
  | nil => cases mem
  | cons packets later ih =>
    rcases mem_append.mp mem with mem | mem
    · obtain ⟨nlo, size, same⟩ := alike packets (mem_cons_self ..)
      exact nloCalls_proper same (by simp) mem
    · exact ih (fun packets inside => alike packets (mem_cons_of_mem _ inside)) mem

end KernelModules.Rmnet

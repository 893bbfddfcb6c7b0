import KernelModules.Rmnet.Segment

namespace KernelModules.Rmnet

open List

structure WireSegment where
  packets : Nat
  payload : Nat
  ipId : Nat
  tcpSeq : Nat
  tcpFlags : Nat

structure FrameIdentity where
  ipv4 : Bool
  tcp : Bool
  ipId : Nat
  tcpSeq : Nat
  tcpFlags : Nat
  payload : Nat

/-- A segment whose first packet is the `first`-th of the frame, behind `offset` payload bytes. -/
structure WireSegment.Right (frame : FrameIdentity) (first offset : Nat) (wire : WireSegment) : Prop where
  ipId : frame.ipv4 → wire.ipId = (frame.ipId + first) % 65536
  tcpSeq : frame.tcp → wire.tcpSeq = (frame.tcpSeq + offset) % 4294967296
  tcpFlags : frame.tcp → finOrPsh wire.tcpFlags → frame.payload ≤ offset + wire.payload

def IdentitiesKept (frame : FrameIdentity) : Nat → Nat → List WireSegment → Prop
  | _, _, [] => True
  | first, offset, wire :: later =>
    wire.Right frame first offset ∧ IdentitiesKept frame (first + wire.packets) (offset + wire.payload) later

structure Emission.OnWire (frame : FrameIdentity) (emission : Emission) (wire : WireSegment) : Prop where
  packets : wire.packets = emission.call.run.length
  payload : wire.payload = payloadOf emission.call.run
  ipId : frame.ipv4 → wire.ipId = (frame.ipId + emission.pktId) % 65536
  tcpSeq : frame.tcp → wire.tcpSeq = (frame.tcpSeq + emission.offset) % 4294967296
  tcpFlags : frame.tcp → wire.tcpFlags =
    if finOrPsh frame.tcpFlags ∧ emission.offset + payloadOf emission.call.run < frame.payload then
      clearFinPsh frame.tcpFlags
    else frame.tcpFlags

variable {frame : FrameIdentity} {calls tail : List SegmentCall} {wires : List WireSegment}
  {gathered packets tailPackets : List CoalPacket} {pkt : CoalPacket} {call : SegmentCall}
  {first off pktId totalPkt nlo : Nat}

theorem finOrPsh_clear : finOrPsh (clearFinPsh flags) = false := by
  unfold finOrPsh clearFinPsh
  rw [Nat.and_assoc]
  simp

/-- The `pkt_id` of every emission is the number of packets before it. -/
def PktIdsRight : Nat → Nat → List SegmentCall → Prop
  | _, _, [] => True
  | first, pktId, call :: later =>
    pktId = first ∧ PktIdsRight (first + call.run.length) ((call.totalPkt + 1) % 256) later

theorem identitiesKept_iff (few : first + (callsPackets calls).length < 65536) (byte : pktId < 256)
    (carried : List.Forall₂ (Emission.OnWire frame) (emissions first off pktId calls) wires) :
    IdentitiesKept frame first off wires ↔ (frame.ipv4 → PktIdsRight first pktId calls) := by
  induction calls generalizing first off pktId wires with
  | nil =>
    cases carried
    exact ⟨fun _ _ => trivial, fun _ => trivial⟩
  | cons call later ih =>
    rw [callsPackets_cons, length_append] at few
    cases carried with
    | @cons _ wire _ others one rest =>
      have behind := @ih others (first + call.run.length) (off + payloadOf call.run)
        ((call.totalPkt + 1) % 256) (by omega) (by omega) rest
      have flagsRight : frame.tcp → finOrPsh wire.tcpFlags → frame.payload ≤ off + wire.payload := by
        intro tcp set
        rw [one.tcpFlags tcp] at set
        rw [one.payload]
        by_cases cleared : finOrPsh frame.tcpFlags ∧ off + payloadOf call.run < frame.payload
        · rw [if_pos cleared, finOrPsh_clear] at set
          cases set
        · rw [if_neg cleared] at set
          exact Nat.le_of_not_lt fun before => cleared ⟨set, before⟩
      rw [IdentitiesKept, one.packets, one.payload, behind]
      constructor
      · intro kept four
        refine ⟨?_, kept.2 four⟩
        have same := kept.1.ipId four
        rw [one.ipId four] at same
        dsimp only at same
        omega
      · intro right
        refine ⟨⟨fun four => ?_, one.tcpSeq, flagsRight⟩, fun four => (right four).2⟩
        rw [one.ipId four]
        rw [(right four).1]

/-- What the calls are told: the number of the packet alone in a segment, or of those seen by the end of a gathered
run. -/
def Told (gro : Bool) : Nat → List SegmentCall → Prop
  | _, [] => True
  | first, call :: later =>
    (if gro ∧ call.csumValid then call.totalPkt = first + call.run.length
      else call.run.length = 1 ∧ call.totalPkt = first) ∧
    Told gro (first + call.run.length) later

theorem told_append : Told gro first (calls ++ tail) ↔
    Told gro first calls ∧ Told gro (first + (callsPackets calls).length) tail := by
  induction calls generalizing first with
  | nil => simp [Told]
  | cons call later ih =>
    rw [cons_append, Told, ih, Told, and_assoc, callsPackets_cons, length_append, add_assoc]

theorem told_flushCalls : Told true first (flushCalls gathered (first + gathered.length)) := by
  unfold flushCalls
  split
  · trivial
  · exact ⟨rfl, trivial⟩

theorem told_packetCalls (clear : gro = false → gathered = []) :
    Told gro first (packetCalls gro pkt (first + gathered.length) gathered) := by
  unfold packetCalls
  cases gro with
  | false =>
    rw [clear rfl]
    exact ⟨⟨rfl, rfl⟩, trivial⟩
  | true =>
    rw [if_neg (by decide)]
    cases pkt.csumErr with
    | true =>
      rw [if_pos rfl, told_append, flushCalls_packets]
      exact ⟨told_flushCalls, ⟨rfl, rfl⟩, trivial⟩
    | false => exact trivial

theorem told_nloCalls (clear : gro = false → gathered = []) :
    Told gro first (nloCalls gro packets (first + gathered.length) gathered) := by
  induction packets generalizing first gathered with
  | nil =>
    cases gro with
    | false =>
      rw [clear rfl]
      trivial
    | true => exact told_flushCalls
  | cons pkt later ih =>
    rw [nloCalls, told_append]
    refine ⟨told_packetCalls clear, ?_⟩
    have count := congrArg List.length (@packetCalls_packets pkt gro gathered (first + gathered.length) clear)
    rw [length_append, length_append, length_singleton] at count
    have place : first + gathered.length + 1 =
        first + (callsPackets (packetCalls gro pkt (first + gathered.length) gathered)).length +
          (gather gro pkt gathered).length := by
      omega
    rw [place]
    exact ih gather_clear

theorem told_frameCalls : Told gro first (frameCalls gro nlos first) := by
  induction nlos generalizing first with
  | nil => trivial
  | cons packets later ih =>
    rw [frameCalls, told_append, nloCalls_packets fun _ => rfl]
    exact ⟨told_nloCalls fun _ => rfl, ih⟩

theorem pktIdsRight_single (told : Told false first calls) : PktIdsRight first first calls ↔
      (callsPackets calls).length ≤ 1 ∨ first + (callsPackets calls).length ≤ 256 := by
  induction calls generalizing first with
  | nil => simp [PktIdsRight]
  | cons call later ih =>
    obtain ⟨⟨single, num⟩, told⟩ := told
    rw [PktIdsRight, callsPackets_cons, length_append, single, num]
    rw [single] at told
    cases later with
    | nil => simp [PktIdsRight]
    | cons next others =>
      have nextSingle := told.1.1
      have step := ih told
      rw [callsPackets_cons, length_append] at step ⊢
      by_cases fits : first + 1 < 256
      · rw [Nat.mod_eq_of_lt fits, step]
        omega
      · have wrapped : ¬(first + 1) % 256 = first + 1 := by omega
        constructor
        · exact fun right => absurd right.2.1 wrapped
        · intro small
          omega

def OnlyLastGood (calls : List SegmentCall) : Prop :=
  ∀ call ∈ calls.dropLast, call.csumValid = false

theorem onlyLastGood_cons (nonempty : tail ≠ []) :
    OnlyLastGood (call :: tail) ↔ call.csumValid = false ∧ OnlyLastGood tail := by
  unfold OnlyLastGood
  rw [dropLast_cons_of_ne_nil nonempty]
  simp

theorem pktIdsRight_gathered (told : Told true first calls)
    (early : ∀ idx pkt, (callsPackets calls)[idx]? = some pkt → pkt.csumErr = true → first + idx < 255)
    (proper : ∀ call ∈ calls, ProperCall call) : PktIdsRight first first calls ↔ OnlyLastGood calls := by
  induction calls generalizing first with
  | nil => simp [PktIdsRight, OnlyLastGood]
  | cons call later ih =>
    obtain ⟨num, told⟩ := told
    rw [PktIdsRight]
    cases later with
    | nil => simp [PktIdsRight, OnlyLastGood]
    | cons next others =>
      rw [onlyLastGood_cons (by simp)]
      rcases (proper call (mem_cons_self ..)).marked with
        ⟨valid, _⟩ | ⟨bad, pkt, single, err⟩
      · rw [if_pos ⟨rfl, valid⟩] at num
        rw [valid, PktIdsRight]
        constructor
        · intro right
          omega
        · intro right
          cases right.1
      · rw [bad] at num
        have here := early 0 pkt (by rw [callsPackets_cons, single]; rfl) err
        have fits : (first + 1) % 256 = first + 1 := Nat.mod_eq_of_lt (by omega)
        rw [num.1] at told ⊢
        rw [num.2, fits, bad]
        have step := @ih (first + 1) told ?_ ?_
        · rw [step]
          simp
        · intro idx other found otherErr
          have placed := early (idx + 1) other (by rw [callsPackets_cons, single]; exact found) otherErr
          omega
        · exact fun other mem => proper other (mem_cons_of_mem _ mem)

def KeepsGathering (packet next : CoalPacket) : Prop :=
  packet.csumErr = false → next.csumErr = false ∧ next.nlo = packet.nlo

instance : DecidableRel KeepsGathering :=
  fun packet next => inferInstanceAs
    (Decidable (packet.csumErr = false → next.csumErr = false ∧ next.nlo = packet.nlo))

theorem gathered_chain (alike : ∀ pkt ∈ gathered, pkt.nlo = nlo)
    (good : ∀ pkt ∈ gathered, pkt.csumErr = false) : List.IsChain KeepsGathering gathered := by
  induction gathered with
  | nil => exact .nil
  | cons pkt later ih =>
    cases later with
    | nil => exact .singleton pkt
    | cons next others =>
      refine .cons_cons (fun _ => ⟨good next (by simp), ?_⟩) (ih ?_ ?_)
      · rw [alike next (by simp), alike pkt (by simp)]
      · exact fun other mem => alike other (mem_cons_of_mem _ mem)
      · exact fun other mem => good other (mem_cons_of_mem _ mem)

theorem chain_broken (nonempty : gathered ≠ []) (good : ∀ pkt ∈ gathered, pkt.csumErr = false)
    (breaks : pkt.csumErr = true ∨ ∀ other ∈ gathered, other.nlo ≠ pkt.nlo) :
    ¬List.IsChain KeepsGathering (gathered ++ pkt :: packets) := by
  intro chain
  have link := (isChain_append.mp chain).2.2 (gathered.getLast nonempty) (getLast_mem_getLast? nonempty) pkt rfl
  have kept := link (good _ (getLast_mem nonempty))
  rcases breaks with err | other
  · rw [kept.1] at err
    cases err
  · exact other _ (getLast_mem nonempty) kept.2.symm

theorem chain_err (err : pkt.csumErr = true) :
    List.IsChain KeepsGathering (pkt :: packets) ↔ List.IsChain KeepsGathering packets := by
  cases packets with
  | nil => exact ⟨fun _ => .nil, fun _ => .singleton pkt⟩
  | cons next later =>
    rw [isChain_cons_cons]
    refine ⟨And.right, fun chain => ⟨fun good => ?_, chain⟩⟩
    rw [good] at err
    cases err

theorem flushCalls_ne (nonempty : gathered ≠ []) : flushCalls gathered totalPkt = [⟨gathered, totalPkt, true⟩] :=
  if_neg nonempty

theorem onlyLastGood_nloCalls (rest : OnlyLastGood tail ↔ List.IsChain KeepsGathering tailPackets)
    (ends : tail = [] ↔ tailPackets = []) (alike : ∀ other ∈ gathered ++ packets, other.nlo = nlo)
    (good : ∀ other ∈ gathered, other.csumErr = false) (apart : ∀ other ∈ tailPackets, other.nlo ≠ nlo) :
    OnlyLastGood (nloCalls true packets totalPkt gathered ++ tail) ↔
      List.IsChain KeepsGathering (gathered ++ packets ++ tailPackets) := by
  induction packets generalizing totalPkt gathered with
  | nil =>
    rw [append_nil] at alike ⊢
    rw [nloCalls]
    by_cases empty : gathered = []
    · subst empty
      exact rest
    rw [flushCalls_ne empty, singleton_append]
    cases tailPackets with
    | nil =>
      rw [ends.mpr rfl, append_nil]
      exact ⟨fun _ => gathered_chain alike good, fun _ call mem => absurd mem (by simp)⟩
    | cons next others =>
      have more : tail ≠ [] := fun none => by cases ends.mp none
      rw [onlyLastGood_cons more]
      have broken := @chain_broken gathered others next empty good
        (.inr fun other mem same => apart next (mem_cons_self ..) (same.symm.trans (alike other mem)))
      exact ⟨fun both => absurd both.1 (by simp), fun chain => absurd chain broken⟩
  | cons pkt later ih =>
    rw [nloCalls]
    unfold packetCalls gather
    rw [if_neg (by decide)]
    cases err : pkt.csumErr with
    | true =>
      rw [if_pos rfl, if_neg (by decide)]
      have behind := @ih [] (totalPkt + 1) (fun other mem => alike other (by simp at mem; simp [mem])) (by simp)
      by_cases empty : gathered = []
      · subst empty
        rw [nil_append, cons_append, chain_err err, ← nil_append later, ← behind]
        change OnlyLastGood (⟨[pkt], totalPkt, false⟩ :: (nloCalls true later (totalPkt + 1) [] ++ tail)) ↔ _
        by_cases last : nloCalls true later (totalPkt + 1) [] ++ tail = []
        · rw [last]
          exact ⟨fun _ _ mem => absurd mem (by simp), fun _ _ mem => absurd mem (by simp)⟩
        · rw [onlyLastGood_cons last]
          exact ⟨And.right, fun only => ⟨rfl, only⟩⟩
      · rw [flushCalls_ne empty, append_assoc gathered]
        have broken := @chain_broken gathered (later ++ tailPackets) pkt empty good (.inl err)
        refine ⟨fun only => ?_, fun chain => absurd chain broken⟩
        have first := only ⟨gathered, totalPkt, true⟩ (by simp)
        cases first
    | false =>
      have same : gathered ++ pkt :: later = gathered ++ [pkt] ++ later := by simp
      rw [same] at alike ⊢
      refine ih alike fun other mem => ?_
      rcases mem_append.mp mem with mem | mem
      · exact good other mem
      · rw [mem_singleton.mp mem, err]

end KernelModules.Rmnet

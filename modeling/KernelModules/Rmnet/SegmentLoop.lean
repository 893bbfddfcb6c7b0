import KernelModules.Rmnet.CoalHeader
import KernelModules.Rmnet.Runs

namespace KernelModules.Rmnet

open List

/-! # The segmenting loops

`rmnet_frag_segment_coal_data` and `rmnet_map_segment_coal_skb` end in the same two loops, over a descriptor with a
list and over metadata with a queue.
-/

structure Segmenter (σ : Type) where
  /-- `gso_segs` or `pkt_count`. -/
  segs : σ → Nat
  setSegs : σ → Nat → σ
  wrap : Nat
  /-- `gso_size` or `data_len`, for packets of `pkt_len`. -/
  setPktLen : σ → Nat → σ
  /-- One segment out, told `total_pkt` and the checksum mark. -/
  segment : σ → Nat → Bool → σ

structure Segmenting (σ : Type) where
  state : σ
  nloErrMask : Nat
  totalPkt : Nat

/-- The payload of each packet, a `u16`. -/
def payloadSize (pktLen hlen : Nat) : Nat :=
  (pktLen + 65536 - hlen % 65536) % 65536

namespace Segmenter

variable {σ : Type} (ops : Segmenter σ)

def flush (locals : Segmenting σ) : σ :=
  if ops.segs locals.state ≠ 0 then ops.segment locals.state locals.totalPkt true
  else locals.state

def packet (gro : Bool) (locals : Segmenting σ) : Segmenting σ :=
  let csumErr := locals.nloErrMask % 2 == 1
  { state :=
      if ¬gro then ops.segment (ops.setSegs locals.state 1) locals.totalPkt (!csumErr)
      else if csumErr then ops.segment (ops.setSegs (ops.flush locals) 1) locals.totalPkt false
      else ops.setSegs locals.state ((ops.segs locals.state + 1) % ops.wrap)
    nloErrMask := locals.nloErrMask / 2
    totalPkt := (locals.totalPkt + 1) % 256 }

def packets (gro : Bool) : Nat → Segmenting σ → Segmenting σ
  | 0, locals => locals
  | count + 1, locals => packets gro count (ops.packet gro locals)

def nlo (gro : Bool) (locals : Segmenting σ) (pair : RmnetMapV5NlPair) : Segmenting σ :=
  let done := ops.packets gro pair.numPackets
    { locals with state := ops.setPktLen locals.state pair.pktLen }
  { done with state := ops.flush done }

def nlos (gro : Bool) (pairs : List RmnetMapV5NlPair) (mask : Nat) (state : σ) : σ :=
  (pairs.foldl (ops.nlo gro) ⟨state, mask, 0⟩).state

end Segmenter

def nloPackets (nlo size : Nat) : Nat → Nat → List CoalPacket
  | 0, _ => []
  | count + 1, mask => ⟨nlo, size, mask % 2 == 1⟩ :: nloPackets nlo size count (mask / 2)

def framePackets (hlen : Nat) : List RmnetMapV5NlPair → Nat → Nat → List (List CoalPacket)
  | [], _, _ => []
  | pair :: later, nlo, mask =>
    nloPackets nlo (payloadSize pair.pktLen hlen) pair.numPackets mask ::
      framePackets hlen later (nlo + 1) (mask / 2 ^ pair.numPackets)

section Packets

variable {count : Nat}

theorem length_nloPackets : (nloPackets nlo size count mask).length = count := by
  induction count generalizing mask with
  | zero => rfl
  | succ count ih => rw [nloPackets, length_cons, ih]

theorem nloPackets_size (mem : pkt ∈ nloPackets nlo size count mask) : pkt.nlo = nlo ∧ pkt.size = size := by
  induction count generalizing mask with
  | zero => cases mem
  | succ count ih =>
    rcases mem_cons.mp mem with rfl | mem
    · exact ⟨rfl, rfl⟩
    · exact ih mem

theorem nloPackets_csumErr (found : (nloPackets nlo size count mask)[index]? = some pkt) :
    pkt.csumErr = mask.testBit index := by
  induction count generalizing mask index with
  | zero => cases found
  | succ count ih =>
    cases index with
    | zero =>
      cases found
      rw [Nat.testBit_zero]
      rfl
    | succ index =>
      rw [Nat.testBit_succ]
      exact ih found

theorem framePackets_csumErr (found : (framePackets hlen pairs nlo mask).flatten[index]? = some pkt) :
    pkt.csumErr = mask.testBit index := by
  induction pairs generalizing nlo mask index with
  | nil => cases found
  | cons pair later ih =>
    rw [framePackets, flatten_cons] at found
    by_cases here : index < pair.numPackets
    · rw [getElem?_append_left (by rw [length_nloPackets]; exact here)] at found
      exact nloPackets_csumErr found
    · rw [getElem?_append_right (by rw [length_nloPackets]; omega), length_nloPackets] at found
      rw [ih found, Nat.testBit_div_two_pow]
      congr 1
      omega

theorem framePackets_alike (mem : packets ∈ framePackets hlen pairs nlo mask) :
    ∃ nlo size, ∀ pkt ∈ packets, pkt.nlo = nlo ∧ pkt.size = size := by
  induction pairs generalizing nlo mask with
  | nil => cases mem
  | cons pair later ih =>
    rcases mem_cons.mp mem with rfl | mem
    · exact ⟨_, _, fun pkt inside => nloPackets_size inside⟩
    · exact ih mem

theorem payloadSize_eq (hdr : hlen ≤ pktLen) (word : pktLen < 65536) : payloadSize pktLen hlen = pktLen - hlen := by
  unfold payloadSize
  omega

theorem payload_framePackets (lengths : ∀ pair ∈ pairs, hlen ≤ pair.pktLen)
    (words : ∀ pair ∈ pairs, pair.pktLen < 65536) : payloadOf (framePackets hlen pairs nlo mask).flatten =
      (pairs.map fun pair => pair.numPackets * (pair.pktLen - hlen)).sum := by
  induction pairs generalizing nlo mask with
  | nil => rfl
  | cons pair later ih =>
    have rest := @ih (nlo + 1) (mask / 2 ^ pair.numPackets) (fun other mem => lengths other (mem_cons_of_mem _ mem))
      (fun other mem => words other (mem_cons_of_mem _ mem))
    rw [framePackets, flatten_cons, payloadOf_append, rest, map_cons, sum_cons,
      payloadOf_same fun pkt mem => (nloPackets_size mem).2, length_nloPackets,
      payloadSize_eq (lengths pair (mem_cons_self ..)) (words pair (mem_cons_self ..)), mul_comm]

end Packets

/-- `Holds state size held offset pktId` when packets of `size` bytes are taken from `offset` on and `held` of them
are gathered.  Up to `limit` payload bytes a segment carries its run. -/
structure Segmenter.Lawful {σ τ : Type} (ops : Segmenter σ) (hlen limit : Nat) (list : σ → List τ)
    (Holds : σ → Nat → Nat → Nat → Nat → Prop) (Carries : Emission → τ → Prop) : Prop where
  wrap : 256 ≤ ops.wrap
  segs : ∀ {state size held offset pktId}, Holds state size held offset pktId → ops.segs state = held
  setSegs : ∀ {state size held offset pktId} count, Holds state size held offset pktId →
    Holds (ops.setSegs state count) size count offset pktId ∧ list (ops.setSegs state count) = list state
  setPktLen : ∀ {state size offset pktId} pktLen, Holds state size 0 offset pktId →
    Holds (ops.setPktLen state pktLen) (payloadSize pktLen hlen) 0 offset pktId ∧
      list (ops.setPktLen state pktLen) = list state
  segment : ∀ {state size offset pktId run totalPkt csumValid first},
    Holds state size (List.length run) offset pktId →
    (∀ packet ∈ run, CoalPacket.size packet = size) → offset + payloadOf run ≤ limit →
    Holds (ops.segment state (totalPkt % 256) csumValid) size 0 (offset + payloadOf run)
        ((totalPkt + 1) % 256) ∧
      ∃ seg, list (ops.segment state (totalPkt % 256) csumValid) = list state ++ [seg] ∧
        Carries ⟨⟨run, totalPkt, csumValid⟩, first, offset, pktId⟩ seg

section Loops

variable {σ τ : Type} {ops : Segmenter σ} {hlen limit : Nat} {list : σ → List τ}
  {Holds : σ → Nat → Nat → Nat → Nat → Prop} {Carries : Emission → τ → Prop} {after : σ}
  {locals : Segmenting σ} {gro : Bool} {old : List τ} {calls : List SegmentCall}
  {gathered : List CoalPacket} {pkt : CoalPacket} {pairs : List RmnetMapV5NlPair}
  {size held first off pktId totalPkt count nlo : Nat}

/-- After the calls the state stands behind their payload, with their segments on the list. -/
structure Emitted (list : σ → List τ) (Holds : σ → Nat → Nat → Nat → Nat → Prop)
    (Carries : Emission → τ → Prop) (size held first offset pktId : Nat)
    (calls : List SegmentCall) (old : List τ) (after : σ) : Prop where
  holds : Holds after size held (offset + callsPayload calls) (lastPktId pktId calls)
  segs : ∃ segs, list after = old ++ segs ∧ List.Forall₂ Carries (emissions first offset pktId calls) segs

theorem Emitted.append (begun : Emitted list Holds Carries size held first off pktId calls old middle)
    (rest : Emitted list Holds Carries other kept (first + (callsPackets calls).length)
      (off + callsPayload calls) (lastPktId pktId calls) more (list middle) after) :
    Emitted list Holds Carries other kept first off pktId (calls ++ more) old after := by
  obtain ⟨segs, mem, carried⟩ := begun.segs
  obtain ⟨moreSegs, moreListed, moreCarried⟩ := rest.segs
  refine ⟨?_, segs ++ moreSegs, ?_, ?_⟩
  · rw [callsPayload_append, lastPktId_append, ← add_assoc]
    exact rest.holds
  · rw [moreListed, mem, append_assoc]
  · rw [emissions_append]
    exact rel_append carried moreCarried

theorem callsPayload_flushCalls : callsPayload (flushCalls gathered totalPkt) = payloadOf gathered := by
  rw [callsPayload_eq, flushCalls_packets]

variable (lawful : ops.Lawful hlen limit list Holds Carries)

include lawful

theorem segment_emitted (holds : Holds state size run.length off pktId)
    (alike : ∀ pkt ∈ run, pkt.size = size) (inside : off + payloadOf run ≤ limit) :
    Emitted list Holds Carries size 0 first off pktId [⟨run, totalPkt, csumValid⟩] (list state)
      (ops.segment state (totalPkt % 256) csumValid) := by
  obtain ⟨moved, seg, mem, carries⟩ := lawful.segment holds alike inside
  refine ⟨?_, [seg], mem, .cons carries .nil⟩
  exact moved

section

variable (holds : Holds locals.state size gathered.length off pktId)
  (told : locals.totalPkt = totalPkt % 256)
include holds told

theorem flush_emitted (alike : ∀ pkt ∈ gathered, pkt.size = size) (inside : off + payloadOf gathered ≤ limit) :
    Emitted list Holds Carries size 0 first off pktId (flushCalls gathered totalPkt)
      (list locals.state) (ops.flush locals) := by
  unfold Segmenter.flush flushCalls
  rw [lawful.segs holds]
  by_cases empty : gathered = []
  · subst empty
    exact ⟨holds, [], by simp, .nil⟩
  · rw [if_pos fun none => empty (length_eq_zero_iff.mp none), if_neg empty, told]
    exact segment_emitted lawful holds alike inside

theorem packet_emitted (err : pkt.csumErr = (locals.nloErrMask % 2 == 1))
    (alike : ∀ other ∈ gathered ++ [pkt], other.size = size)
    (inside : off + callsPayload (packetCalls gro pkt totalPkt gathered) ≤ limit) (few : gathered.length + 1 < 256) :
    Emitted list Holds Carries size (gather gro pkt gathered).length first off pktId
      (packetCalls gro pkt totalPkt gathered) (list locals.state) (ops.packet gro locals).state := by
  have before : ∀ other ∈ gathered, other.size = size :=
    fun other mem => alike other (mem_append_left _ mem)
  have single : ∀ other ∈ [pkt], other.size = size :=
    fun other mem => alike other (mem_append_right _ mem)
  unfold packetCalls gather Segmenter.packet at *
  dsimp only
  by_cases whole : gro
  · rw [if_neg (not_not.mpr whole)] at inside ⊢
    rw [if_neg (not_not.mpr whole), ← err]
    cases bad : pkt.csumErr with
    | true =>
      have gone := @callsPayload_flushCalls gathered totalPkt
      rw [bad, if_pos rfl, callsPayload_append, callsPayload_cons] at inside
      rw [if_neg (by simp), told]
      dsimp only at inside
      have flushed := @flush_emitted _ _ _ _ _ _ _ _ locals gathered size first off pktId
        totalPkt lawful holds told before (by omega)
      obtain ⟨one, same⟩ := lawful.setSegs 1 flushed.holds
      refine flushed.append ?_
      rw [← same]
      exact segment_emitted lawful one single (by omega)
    | false =>
      have wide := lawful.wrap
      have counted : (gathered.length + 1) % ops.wrap = (gathered ++ [pkt]).length := by
        rw [length_append, length_singleton, Nat.mod_eq_of_lt (by omega)]
      rw [if_pos ⟨whole, by decide⟩, if_neg (by decide), if_neg (by decide), lawful.segs holds, counted]
      obtain ⟨more, same⟩ := lawful.setSegs (gathered ++ [pkt]).length holds
      exact ⟨more, [], by rw [same, append_nil], .nil⟩
  · rw [if_pos whole, callsPayload_cons] at inside
    rw [if_pos whole, if_pos whole, if_neg fun both => whole both.1, ← err, told]
    dsimp only at inside
    obtain ⟨one, same⟩ := lawful.setSegs 1 holds
    rw [← same]
    exact segment_emitted lawful one single (by omega)

theorem packets_emitted (alike : ∀ pkt ∈ gathered, pkt.size = size) (inside : off + callsPayload
      (nloCalls gro (nloPackets nlo size count locals.nloErrMask) totalPkt gathered) ≤ limit)
    (few : gathered.length + count < 256) : Emitted list Holds Carries size 0 first off pktId
      (nloCalls gro (nloPackets nlo size count locals.nloErrMask) totalPkt gathered)
      (list locals.state) (ops.flush (ops.packets gro count locals)) := by
  induction count generalizing locals gathered off pktId totalPkt first with
  | zero =>
    change off + callsPayload (flushCalls gathered totalPkt) ≤ limit at inside
    rw [callsPayload_flushCalls] at inside
    exact flush_emitted lawful holds told alike inside
  | succ count ih =>
    rw [nloPackets, nloCalls, callsPayload_append] at inside
    have sized : ∀ other ∈ gathered ++ [⟨nlo, size, locals.nloErrMask % 2 == 1⟩], other.size = size := by
      intro other mem
      rcases mem_append.mp mem with mem | mem
      · exact alike other mem
      · rw [mem_singleton.mp mem]
    have step := @packet_emitted _ _ _ _ _ _ _ _ locals gro gathered
      ⟨nlo, size, locals.nloErrMask % 2 == 1⟩ size first off pktId totalPkt lawful holds told
      rfl sized (by omega) (by omega)
    refine step.append (ih step.holds ?_ ?_ ?_ ?_)
    · change (locals.totalPkt + 1) % 256 = _
      omega
    · intro other mem
      rcases gather_cases mem with mem | ⟨rfl, _⟩
      · exact alike other mem
      · rfl
    · rw [← add_assoc] at inside
      exact inside
    · have fewer : (gather gro ⟨nlo, size, locals.nloErrMask % 2 == 1⟩ gathered).length ≤ gathered.length + 1 := by
        unfold gather
        split <;> simp
      omega

end

omit lawful in
theorem packets_rest : (ops.packets gro count locals).nloErrMask = locals.nloErrMask / 2 ^ count ∧
    (locals.totalPkt = totalPkt % 256 → (ops.packets gro count locals).totalPkt = (totalPkt + count) % 256) := by
  induction count generalizing locals totalPkt with
  | zero => exact ⟨by simp [Segmenter.packets], id⟩
  | succ count ih =>
    have step := @ih (ops.packet gro locals) (totalPkt + 1)
    have mask : (ops.packet gro locals).nloErrMask = locals.nloErrMask / 2 := rfl
    have told : (ops.packet gro locals).totalPkt = (locals.totalPkt + 1) % 256 := rfl
    refine ⟨?_, fun known => ?_⟩
    · change (ops.packets gro count (ops.packet gro locals)).nloErrMask = _
      rw [step.1, mask, Nat.div_div_eq_div_mul, Nat.pow_succ']
    · change (ops.packets gro count (ops.packet gro locals)).totalPkt = _
      rw [step.2 (by rw [told, known]; omega)]
      omega

theorem nlos_emitted (holds : ∃ size, Holds locals.state size 0 off pktId)
    (told : locals.totalPkt = totalPkt % 256) (counts : ∀ pair ∈ pairs, pair.numPackets < 256)
    (inside : off + callsPayload (frameCalls gro (framePackets hlen pairs nlo locals.nloErrMask) totalPkt) ≤ limit) :
    ∃ size, Emitted list Holds Carries size 0 first off pktId
      (frameCalls gro (framePackets hlen pairs nlo locals.nloErrMask) totalPkt)
      (list locals.state) (pairs.foldl (ops.nlo gro) locals).state := by
  induction pairs generalizing locals off pktId totalPkt first nlo with
  | nil =>
    obtain ⟨size, holds⟩ := holds
    exact ⟨size, holds, [], by simp, .nil⟩
  | cons pair later ih =>
    obtain ⟨size, holds⟩ := holds
    obtain ⟨sized, same⟩ := lawful.setPktLen pair.pktLen holds
    rw [framePackets, frameCalls, callsPayload_append, length_nloPackets] at inside
    rw [framePackets, frameCalls, length_nloPackets]
    have few := counts pair (mem_cons_self ..)
    have step := @packets_emitted _ _ _ _ _ _ _ _
      { locals with state := ops.setPktLen locals.state pair.pktLen } gro []
      (payloadSize pair.pktLen hlen) first off pktId totalPkt pair.numPackets nlo lawful sized
      told (by simp) (by dsimp only; omega) (by simpa using few)
    rw [same] at step
    obtain ⟨mask, num⟩ := @packets_rest _ ops
      { locals with state := ops.setPktLen locals.state pair.pktLen } gro totalPkt pair.numPackets
    have left : (ops.nlo gro locals pair).nloErrMask = locals.nloErrMask / 2 ^ pair.numPackets :=
      mask
    have next : (ops.nlo gro locals pair).totalPkt = (totalPkt + pair.numPackets) % 256 :=
      num told
    rw [← left] at inside ⊢
    obtain ⟨last, emitted⟩ := @ih (ops.nlo gro locals pair) _ _ _ (totalPkt + pair.numPackets)
      (nlo + 1) ⟨_, step.holds⟩ next
      (fun other mem => counts other (mem_cons_of_mem _ mem))
      (by rw [← add_assoc] at inside; exact inside)
    exact ⟨last, step.append emitted⟩

end Loops

end KernelModules.Rmnet

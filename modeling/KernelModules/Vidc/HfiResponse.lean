import KernelModules.Vidc.HfiQueue

namespace KernelModules.Vidc

open Data ByteMemory List

/-! # Packets behind a header

A header of 32 bytes has its own size in its first word and the number of packets in its last.  A packet starts with
32 bytes too.  Places count from the start of the buffer.
-/

/-- `validate_packet` of a packet in a response buffer of `size` bytes. -/
def validatePacket (memory : ByteMemory) (responsePkt size : Nat) : Except Errno Unit :=
  if size = 0 then .error .einval
  else if size < responsePkt then .error .einval
  else let responsePktSize := (word memory responsePkt).toNat
    if responsePktSize = 0 then .error .einval
    else if responsePktSize < 32 then .error .einval
    else if size < responsePkt + responsePktSize then .error .einval
    else .ok ()

/-- The loop of `validate_hdr_packet`. -/
def validatePackets (memory : ByteMemory) (size : Nat) : Nat → Nat → Except Errno Unit
  | 0, _ => .ok ()
  | left + 1, pkt =>
    match validatePacket memory pkt size with
    | .error rc => .error rc
    | .ok () => validatePackets memory size left (pkt + (word memory pkt).toNat)

def validateHdrPacket (memory : ByteMemory) (packetSize : BitVec 32) : Except Errno Unit :=
  if (word memory 0).toNat < 64 then .error .einval
  else validatePackets memory packetSize.toNat (word memory 28).toNat 32

def validatePacketsReads (memory : ByteMemory) (size : Nat) : Nat → Nat → List Nat
  | 0, _ => []
  | left + 1, pkt =>
    if size = 0 ∨ size < pkt then []
    else pkt :: match validatePacket memory pkt size with
        | .error _ => []
        | .ok () => validatePacketsReads memory size left (pkt + (word memory pkt).toNat)

def validateHdrPacketReads (memory : ByteMemory) (packetSize : BitVec 32) : List Nat :=
  0 :: if (word memory 0).toNat < 64 then []
    else 28 :: validatePacketsReads memory packetSize.toNat (word memory 28).toNat 32

/-- The place of a packet, taken back to back by the sizes from `pkt` on. -/
def packetPlace (memory : ByteMemory) (pkt : Nat) : Nat → Nat
  | 0 => pkt
  | before + 1 => packetPlace memory (pkt + (word memory pkt).toNat) before

def PacketFits (memory : ByteMemory) (size place : Nat) : Prop :=
  32 ≤ (word memory place).toNat ∧ place + (word memory place).toNat ≤ size

section Validation

variable {memory : ByteMemory} {size pkt left : Nat}

theorem validatePacket_ok_iff : validatePacket memory pkt size = .ok () ↔ PacketFits memory size pkt := by
  unfold validatePacket PacketFits
  dsimp only
  repeat' split
  all_goals simp
  all_goals omega

theorem validatePackets_ok_iff : validatePackets memory size left pkt = .ok () ↔
      ∀ i < left, PacketFits memory size (packetPlace memory pkt i) := by
  induction left generalizing pkt with
  | zero => simp [validatePackets]
  | succ left ih =>
    have here : validatePacket memory pkt size = .ok () ↔ PacketFits memory size pkt :=
      validatePacket_ok_iff
    rw [Nat.forall_lt_succ_left]
    simp only [validatePackets, packetPlace, ← ih, ← here]
    cases validatePacket memory pkt size with
    | error rc => simp
    | ok done => simp

theorem validatePacketsReads_inside (start : pkt ≤ size)
    (room : ∀ i < left, (∀ before < i, PacketFits memory size (packetPlace memory pkt before)) →
      packetPlace memory pkt i + 4 ≤ size) : ∀ place ∈ validatePacketsReads memory size left pkt, place + 4 ≤ size := by
  induction left generalizing pkt with
  | zero => simp [validatePacketsReads]
  | succ left ih =>
    unfold validatePacketsReads
    split
    · simp
    · rw [forall_mem_cons]
      refine ⟨room 0 (Nat.succ_pos _) (by simp), ?_⟩
      cases checked : validatePacket memory pkt size with
      | error rc => simp
      | ok done =>
        have fits := validatePacket_ok_iff.mp checked
        refine ih fits.2 fun i inside before => room (i + 1) (by omega) ?_
        intro earlier lt
        cases earlier with
        | zero => exact fits
        | succ earlier => exact before earlier (by omega)

end Validation

/-- The arguments of `hfi_create_packet` besides the buffer. -/
structure HfiPacketRequest where
  pktType : BitVec 32
  pktFlags : BitVec 32
  payloadType : BitVec 32
  port : BitVec 32
  packetId : BitVec 32
  payload : List (BitVec 8)
  payloadSize : payload.length < 2 ^ 32

def wordBytes (value : BitVec 32) : List (BitVec 8) :=
  (List.range 4).map fun byte => BitVec.ofNat 8 (value.toNat / 256 ^ byte)

namespace HfiPacketRequest

variable (request : HfiPacketRequest)

/-- `pkt_size`, which is cut to 32 bits. -/
def pktSize : BitVec 32 := BitVec.ofNat 32 (32 + request.payload.length)

/-- The fields of `struct hfi_packet` before the reserved ones. -/
def fields : List (BitVec 8) :=
  [request.pktSize, request.pktType, request.pktFlags, request.payloadType, request.port,
    request.packetId].flatMap wordBytes

def bytes : List (BitVec 8) := request.fields ++ (List.replicate 8 0 ++ request.payload)

def fill (memory : ByteMemory) (pkt : Nat) : ByteMemory :=
  ((memory.writeBytes pkt (List.replicate request.pktSize.toNat 0)).writeBytes pkt
    request.fields).writeBytes (pkt + 32) request.payload

end HfiPacketRequest

open HfiPacketRequest (bytes fields fill pktSize)

/-- `hfi_create_header`. -/
def hfiCreateHeader (memory : ByteMemory) (packetSize sessionId headerId : BitVec 32) : Except Errno ByteMemory :=
  if packetSize.toNat < 32 then .error .einval
  else .ok (((memory.writeBytes 0 (List.replicate 32 0)).writeBytes 0
      ([32, sessionId, headerId].flatMap wordBytes)).writeBytes 28 (wordBytes 0))

/-- `hfi_create_packet`. -/
def hfiCreatePacket (memory : ByteMemory) (packetSize : BitVec 32) (request : HfiPacketRequest) :
    Except Errno ByteMemory :=
  let hdrSize := word memory 0
  let pkt := hdrSize.toNat
  if pkt < 32 then .error .einval
  -- the sum is cut to 32 bits
  else if packetSize < hdrSize + request.pktSize then .error .einval
  else let filled := request.fill memory pkt
    .ok ((filled.writeBytes 28 (wordBytes (word filled 28 + 1))).writeBytes 0
      (wordBytes (hdrSize + request.pktSize)))

def hfiCreatePackets (memory : ByteMemory) (packetSize : BitVec 32) :
    List HfiPacketRequest → Except Errno ByteMemory
  | [] => .ok memory
  | request :: rest =>
    match hfiCreatePacket memory packetSize request with
    | .error rc => .error rc
    | .ok memory => hfiCreatePackets memory packetSize rest

section Building

variable {memory other : ByteMemory} {place : Nat} {value : BitVec 32}
  {request : HfiPacketRequest} {requests : List HfiPacketRequest}

theorem word_congr (same : ∀ byte < 4, memory (place + byte) = other (place + byte)) :
    word memory place = word other place :=
  congrArg (BitVec.ofNat 32) (load_congr same)

theorem word_of_bytes (rest : List (BitVec 8)) (more : Nat)
    (read : memory.readBytes place (4 + more) = wordBytes value ++ rest) : word memory place = value := by
  rw [readBytes_add] at read
  have four := (append_inj read (by simp [wordBytes])).1
  simp only [readBytes, wordBytes, range_succ, range_zero, nil_append,
    cons_append, map_cons, map_nil, cons.injEq, and_true] at four
  obtain ⟨first, second, third, fourth⟩ := four
  apply BitVec.eq_of_toNat_eq
  simp only [word, load, Nat.add_assoc] at *
  simp only [Nat.add_zero] at first
  simp only [first, second, third, fourth, BitVec.toNat_ofNat]
  omega

theorem word_writeBytes : word (memory.writeBytes place (wordBytes value)) place = value :=
  word_of_bytes [] 0 readBytes_writeBytes

@[simp] theorem length_fields (request : HfiPacketRequest) : request.fields.length = 24 := by
  simp [fields, wordBytes]

theorem length_bytes (request : HfiPacketRequest) : request.bytes.length = 32 + request.payload.length := by
  simp [bytes]
  omega

theorem fill_bytes (whole : request.pktSize.toNat = request.bytes.length) :
    (request.fill memory place).readBytes place request.bytes.length = request.bytes := by
  have length := length_bytes request
  rw [show request.bytes.length = 24 + (8 + request.payload.length) by omega, readBytes_add, readBytes_add]
  unfold fill
  congr 1
  · rw [readBytes_congr fun byte low high => writeBytes_outside (.inl (by omega))]
    exact readBytes_writeBytes
  · congr 1
    · apply ext_getElem (by simp)
      intro byte inside _
      have lt : byte < 8 := by simpa using inside
      simp only [readBytes, writeBytes, getElem_map, getElem_range, getElem_replicate, length_fields, length_replicate]
      rw [if_neg (by omega), if_neg (by omega), if_pos (by omega)]
      rw [getD_eq_getElem?_getD, getElem?_replicate]
      split <;> rfl
    · exact readBytes_writeBytes

theorem fill_before (before : byte < place) : request.fill memory place byte = memory byte := by
  unfold fill
  rw [writeBytes_outside (.inl (by omega)), writeBytes_outside (.inl before), writeBytes_outside (.inl before)]

def requestBytes (requests : List HfiPacketRequest) : List (BitVec 8) :=
  requests.flatMap HfiPacketRequest.bytes

theorem requestBytes_length (requests : List HfiPacketRequest) :
    32 * requests.length ≤ (requestBytes requests).length := by
  induction requests with
  | nil => exact le_rfl
  | cons request rest ih =>
    have len := length_bytes request
    simp only [requestBytes, flatMap_cons, length_append, length_cons] at ih ⊢
    omega

structure Built (memory : ByteMemory) (packetSize : BitVec 32)
    (requests : List HfiPacketRequest) : Prop where
  size : (word memory 0).toNat = 32 + (requestBytes requests).length
  count : word memory 28 = BitVec.ofNat 32 requests.length
  packets : memory.readBytes 32 (requestBytes requests).length = requestBytes requests
  fits : 32 + (requestBytes requests).length ≤ packetSize.toNat

theorem hfiCreateHeader_built (created : hfiCreateHeader memory packetSize sessionId headerId = .ok other) :
    Built other packetSize [] := by
  unfold hfiCreateHeader at created
  split at created
  · cases created
  · rename_i room
    cases created
    refine ⟨?_, word_writeBytes, rfl, not_lt.mp room⟩
    rw [word_congr fun byte lt => writeBytes_outside (.inl (by omega))]
    have read : ((memory.writeBytes 0 (List.replicate 32 0)).writeBytes 0
        ([32, sessionId, headerId].flatMap wordBytes)).readBytes 0 (4 + 8) =
        wordBytes 32 ++ [sessionId, headerId].flatMap wordBytes := readBytes_writeBytes
    exact congrArg BitVec.toNat (word_of_bytes _ 8 read)

theorem Built.create (built : Built memory packetSize requests)
    (created : hfiCreatePacket memory packetSize request = .ok other)
    (small : 32 + (requestBytes (requests ++ [request])).length < 2 ^ 32) :
    Built other packetSize (requests ++ [request]) := by
  have size := built.size
  have total : requestBytes (requests ++ [request]) = requestBytes requests ++ request.bytes := by
    simp [requestBytes]
  have length := length_bytes request
  have longer := congrArg List.length total
  rw [length_append] at longer
  have whole : request.pktSize.toNat = request.bytes.length := by
    rw [pktSize, BitVec.toNat_ofNat]
    omega
  have sum : (word memory 0 + request.pktSize).toNat = 32 + (requestBytes (requests ++ [request])).length := by
    rw [BitVec.toNat_add]
    omega
  unfold hfiCreatePacket at created
  dsimp only at created
  split at created
  · cases created
  · split at created
    · cases created
    · rename_i room
      cases created
      refine ⟨?_, ?_, ?_, ?_⟩
      · rw [word_writeBytes]
        exact sum
      · rw [word_congr fun byte lt => writeBytes_outside (.inr (by simp [wordBytes]; omega)),
          word_writeBytes, word_congr fun byte lt => fill_before (by omega), built.count,
          length_append, BitVec.ofNat_add]
        rfl
      · have behind : ∀ byte, 32 ≤ byte → ((((request.fill memory (word memory 0).toNat).writeBytes 28
            (wordBytes (word (request.fill memory (word memory 0).toNat) 28 + 1))).writeBytes 0
              (wordBytes (word memory 0 + request.pktSize))) byte) =
            request.fill memory (word memory 0).toNat byte := by
          intro byte low
          rw [writeBytes_outside (.inr (by simp [wordBytes]; omega)),
            writeBytes_outside (.inr (by simp [wordBytes]; omega))]
        rw [readBytes_congr fun byte low _ => behind byte low, longer, readBytes_add, total, ← size, fill_bytes whole,
          readBytes_congr fun byte _ high => fill_before (by omega), built.packets]
      · rw [← sum]
        exact BitVec.not_lt.mp room

end Building

theorem hfiCreatePackets_built (built : Built memory packetSize requests)
    (created : hfiCreatePackets memory packetSize more = .ok other)
    (small : 32 + (requestBytes (requests ++ more)).length < 2 ^ 32) : Built other packetSize (requests ++ more) := by
  induction more generalizing memory requests with
  | nil =>
    cases created
    simpa using built
  | cons request rest ih =>
    rw [append_cons] at small ⊢
    unfold hfiCreatePackets at created
    split at created
    · cases created
    · rename_i next made
      refine ih (built.create made ?_) created small
      have shorter : (requestBytes (requests ++ [request] ++ rest)).length =
          (requestBytes (requests ++ [request])).length + (requestBytes rest).length := by
        simp only [requestBytes, flatMap_append, length_append]
      omega

theorem validatePackets_built (read : memory.readBytes pkt (requestBytes requests).length = requestBytes requests)
    (fits : pkt + (requestBytes requests).length ≤ size) (small : size < 2 ^ 32) :
    validatePackets memory size requests.length pkt = .ok () := by
  induction requests generalizing pkt with
  | nil => rfl
  | cons request rest ih =>
    have length := length_bytes request
    have longer : (requestBytes (request :: rest)).length = request.bytes.length + (requestBytes rest).length := by
      simp [requestBytes]
    rw [longer, readBytes_add] at read
    obtain ⟨first, later⟩ := append_inj read (by simp)
    have start : word memory pkt = request.pktSize := by
      refine word_of_bytes (request.bytes.drop 4) (28 + request.payload.length) ?_
      rw [show 4 + (28 + request.payload.length) = request.bytes.length by omega, first]
      rfl
    have whole : request.pktSize.toNat = request.bytes.length := by
      rw [pktSize, BitVec.toNat_ofNat]
      omega
    have valid : validatePacket memory pkt size = .ok () := validatePacket_ok_iff.mpr
      ⟨by rw [start]; omega, by rw [start]; omega⟩
    rw [length_cons, validatePackets, valid]
    rw [start, whole]
    exact ih later (by omega)

/-- The packets of a buffer, taken back to back by their sizes, are whole and inside the buffer. -/
def PacketsFit (memory : ByteMemory) (packetSize : BitVec 32) : Prop :=
  ∀ i < (word memory 28).toNat, PacketFits memory packetSize.toNat (packetPlace memory 32 i)

/-- Every packet that the validation comes to leaves room for the word with its size. -/
def SizesReadable (memory : ByteMemory) (packetSize : BitVec 32) : Prop :=
  ∀ i < (word memory 28).toNat, (∀ before < i, PacketFits memory packetSize.toNat (packetPlace memory 32 before)) →
      packetPlace memory 32 i + 4 ≤ packetSize.toNat

/-- A response is accepted if and only if its header counts a packet and the packets fit; reads stay inside where
the sizes do; and what was built without a carry is accepted and holds the packets. -/
theorem response_validation (memory : ByteMemory) (packetSize : BitVec 32) :
    (validateHdrPacket memory packetSize = .ok () ↔ 64 ≤ (word memory 0).toNat ∧ PacketsFit memory packetSize) ∧
      (32 ≤ packetSize.toNat → SizesReadable memory packetSize →
        ∀ place ∈ validateHdrPacketReads memory packetSize, place + 4 ≤ packetSize.toNat) ∧
      ∀ sessionId headerId requests header built, requests ≠ [] →
        hfiCreateHeader memory packetSize sessionId headerId = .ok header →
          hfiCreatePackets header packetSize requests = .ok built → 32 + (requestBytes requests).length < 2 ^ 32 →
              validateHdrPacket built packetSize = .ok () ∧ (word built 28).toNat = requests.length ∧
                built.readBytes 32 (requestBytes requests).length = requestBytes requests := by
  refine ⟨?_, fun header sizes => ?_, fun sessionId headerId requests header built some first more
    small => ?_⟩
  · unfold validateHdrPacket
    split
    · simp
      omega
    · rw [validatePackets_ok_iff]
      exact (and_iff_right (by omega)).symm
  · unfold validateHdrPacketReads
    split
    · simp
      omega
    · simp only [List.forall_mem_cons]
      exact ⟨by omega, by omega, validatePacketsReads_inside header sizes⟩
  · have holds := hfiCreatePackets_built (hfiCreateHeader_built first) more small
    rw [List.nil_append] at holds
    have many := requestBytes_length requests
    have one : requests.length ≠ 0 := fun none => some (List.length_eq_zero_iff.mp none)
    have counted : (word built 28).toNat = requests.length := by
      rw [holds.count, BitVec.toNat_ofNat, Nat.mod_eq_of_lt (by omega)]
    refine ⟨?_, counted, holds.packets⟩
    rw [validateHdrPacket, if_neg (by rw [holds.size]; omega), counted]
    exact validatePackets_built holds.packets holds.fits packetSize.isLt

def smallRequest : HfiPacketRequest := ⟨1, 0, 2, 0, 7, [1, 2, 3, 4], by decide⟩

theorem response_validation_one : ∃ header built, hfiCreateHeader (fun _ => 0) 4096 5 6 = .ok header ∧
      hfiCreatePackets header 4096 [smallRequest] = .ok built ∧ validateHdrPacket built 4096 = .ok () ∧
      validateHdrPacketReads (fun _ => 0) 4096 = [0] ∧
      ∀ place ∈ validateHdrPacketReads (fun _ => 0) 4096, place + 4 ≤ 4096 := by
  obtain ⟨-, reads, -⟩ := response_validation (fun _ => 0) 4096
  have none : ∀ i, ¬ i < (word (fun _ => 0) 28).toNat := Nat.not_lt_zero
  refine ⟨_, _, rfl, rfl, ((response_validation _ 4096).2.2 5 6 [smallRequest] _ _ (by simp) rfl rfl
    (by decide +kernel)).1, by decide +kernel, reads (by decide) fun i inside => absurd inside (none i)⟩

/-- The header leaves its own size out, and the packet behind it is not looked at. -/
theorem header_size_refused : ¬ ∀ memory packetSize, validateHdrPacket memory packetSize = .ok () ↔
      PacketsFit memory packetSize := by
  intro always
  have accepted := (always (fun place => if place = 28 then 1 else if place = 32 then 32 else 0)
    4096).mpr (by unfold PacketsFit PacketFits; decide +kernel)
  exact absurd accepted (by decide +kernel)

end KernelModules.Vidc

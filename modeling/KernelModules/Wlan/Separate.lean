import KernelModules.Wlan.Acceptance

namespace KernelModules.Wlan

open Data ByteMemory FragseqCreation

/-! # Creation in a buffer of its own

The sources of the copies are those of the inline mode, behind the header of the lead element.
-/

def FragseqCreation.sources (creation : FragseqCreation) : List (Nat × Nat) :=
  (if creation.params.smallerfragSize ≠ 0 then
    [(creation.info.hdrlen + creation.params.numMaxsizefrags * creation.info.maxpayloadlen,
      creation.params.smallerfragSize)]
  else []) ++ (List.range' 1 (creation.params.numMaxsizefrags % 2 ^ 16 - 1)).map (fun index =>
    (creation.info.hdrlen + index * creation.info.maxpayloadlen, creation.info.maxpayloadlen)) ++
  [(creation.info.hdrlen, creation.info.maxpayloadlen)]

theorem sources_within {creation : FragseqCreation} (hdr : creation.info.hdrlen = 2)
    (maximum : creation.info.maxpayloadlen = 255) (num : creation.params.numMaxsizefrags = total / 255)
    (smaller : creation.params.smallerfragSize = total % 255) (large : 255 < total)
    (small : total < 65536 * 255) (size : Nat) :
    (∀ piece ∈ creation.sources, piece.1 + piece.2 ≤ size) ↔ 2 + total ≤ size := by
  unfold FragseqCreation.sources
  rw [smaller, num, hdr, maximum]
  constructor
  · intro all
    by_cases whole : total % 255 = 0
    · have last := all (2 + (total / 255 - 1) * 255, 255) (by simp [whole]; omega)
      omega
    · have last := all (2 + total / 255 * 255, total % 255) (by simp [whole])
      omega
  · intro fits piece among
    simp only [List.mem_append, List.mem_singleton] at among
    rcases among with (first | others) | rfl
    · split at first
      · cases List.mem_singleton.mp first
        omega
      · cases first
    · obtain ⟨idx, lt, rfl⟩ := List.mem_map.mp others
      have := List.mem_range'_1.mp lt
      omega
    · omega

/-- A call for a payload that requires fragmentation, in buffers that do not overlap. -/
structure SeparateCall where
  memory : ByteMemory
  isSubelem : Bool
  id : BitVec 8
  idext : BitVec 8
  subelemfragid : BitVec 8
  payloadbuff : Nat
  payloadbuffMaxsize : Nat
  payloadlen : Nat
  fragbuff : Nat
  fragbuffMaxsize : Nat
  params : FragseqParams
  required : wlanGetElemsubelemFragseqCreationparams isSubelem id payloadlen = some params
  holds : payloadlen ≤ payloadbuffMaxsize
  room : params.expectedFragseqlen ≤ fragbuffMaxsize
  apart : fragbuff + fragbuffMaxsize ≤ payloadbuff ∨ payloadbuff + payloadbuffMaxsize ≤ fragbuff

namespace SeparateCall

variable (call : SeparateCall)

def creation : FragseqCreation where
  info := wlanGetElemunitInfo call.isSubelem call.subelemfragid
  params := call.params
  inlineFrag := false
  payloadbuff := call.payloadbuff
  payloadbuffMaxsize := call.payloadbuffMaxsize
  payloadlen := call.payloadlen
  fragbuff := call.fragbuff

def Before (before : ByteMemory) : Prop :=
  ∀ place, place < call.fragbuff ∨ call.fragbuff + call.fragbuffMaxsize ≤ place → before place = call.memory place

/-- The copies stay in the payload buffer, and what they make of a buffer, whatever it held before, defragments
to the payload. -/
def RoundTrip : Prop :=
  (∀ piece ∈ call.creation.sources, piece.1 + piece.2 ≤ call.payloadbuffMaxsize) ∧
    ∀ before, call.Before before →
      ∃ fragmented, wlanCreateElemsubelemFragseq before false call.isSubelem call.id call.idext
          call.subelemfragid (some call.payloadbuff) call.payloadbuffMaxsize call.payloadlen
          (some call.fragbuff) call.fragbuffMaxsize = .ok (fragmented, call.params.expectedFragseqlen) ∧
        ∃ restored, wlanDefragElemsubelemFragseq fragmented true call.isSubelem call.subelemfragid
            (some call.fragbuff) call.params.expectedFragseqlen none 0 = .ok (restored, call.payloadlen) ∧
          ∀ place, place < call.payloadlen → restored (call.fragbuff +
            call.params.prepayloadLeadbytes + place) = call.memory (call.payloadbuff + place)

/-- The loop counter holds the number of the whole fragments, and the payload stands behind the room for a
header as well. -/
structure Repeats : Prop where
  few : call.payloadlen + idextLen call.isSubelem call.id < 65536 * 255
  inside : call.params.prepayloadLeadbytes + call.payloadlen ≤ call.payloadbuffMaxsize
  same : ∀ place, place < call.payloadlen → call.memory (call.payloadbuff +
    call.params.prepayloadLeadbytes + place) = call.memory (call.payloadbuff + place)

/-- Where the counter wraps, the last whole fragment is not written. -/
theorem not_written (many : 65536 * 255 ≤ call.payloadlen + idextLen call.isSubelem call.id) : ¬ call.RoundTrip := by
  obtain ⟨memory, isSubelem, id, idext, subelemfragid, source, size, payloadlen, base, baseSize,
    params, required, holds, room, apart⟩ := call
  rintro ⟨-, trip⟩
  dsimp only at many trip
  generalize extended : payloadlen + (if isExtnElem isSubelem id then 1 else 0) = total
  have whole : 65536 ≤ total / 255 := by
    unfold idextLen at many
    omega
  have made (before : ByteMemory) (same : ∀ place, place < base ∨ base + baseSize ≤ place → before place = memory place) :
      ∃ fragmented frags last, StartsWithFragseq fragmented base params.expectedFragseqlen
          (wlanGetElemunitInfo isSubelem subelemfragid).fragid frags last ∧ total / 255 - 1 ≤ frags ∧
        fragmented (base + 257 * (total / 255 - 1)) = before (base + 257 * (total / 255 - 1)) := by
    obtain ⟨fragmented, created, restored, defragmented, -⟩ := trip before same
    obtain ⟨lens, scanned, -⟩ := defrag_scans defragmented
    obtain ⟨frags, last, starts⟩ := fragseqInfo_accepts scanned
    obtain ⟨after, again, -⟩ := starts.inlined none 0
    have len := (Prod.mk.inj (Except.ok.inj (defragmented.symm.trans again))).2
    have short := starts.short
    have carried : total ≤ payloadlen + 1 := by
      rw [← extended]
      split <;> omega
    unfold sequencePayloadlen at len
    exact ⟨fragmented, frags, last, starts, by omega,
      create_leaves created extended.symm whole (fun inlined => by cases inlined) rfl⟩
  obtain ⟨first, frags, last, starts, enough, -⟩ := made memory fun _ _ => rfl
  obtain ⟨-, -, len, fits⟩ := starts.lengths
  obtain ⟨fragmented, frags, last, starts, enough, kept⟩ := made (memory.set (base + 257 * (total / 255 - 1))
    ((wlanGetElemunitInfo isSubelem subelemfragid).fragid + 1)) fun place away => set_other (by omega)
  rw [set_here, starts.run.fragids _ (by omega) enough] at kept
  exact absurd (BitVec.add_right_eq_self.mp kept.symm) (by decide)

end SeparateCall

/-- Creation in a buffer of its own is right if and only if the counter holds the whole fragments and the payload
stands behind the room for a header as well. -/
theorem separate_round_trip_iff (call : SeparateCall) : call.RoundTrip ↔ call.Repeats := by
  by_cases few : call.payloadlen + idextLen call.isSubelem call.id < 65536 * 255
  swap
  · exact iff_of_false (call.not_written (Nat.le_of_not_lt few)) fun repeats => few repeats.few
  have counted := few
  obtain ⟨memory, isSubelem, id, idext, subelemfragid, source, size, payloadlen, base, baseSize,
    params, required, holds, room, apart⟩ := call
  unfold idextLen at few
  generalize extended : payloadlen + (if isExtnElem isSubelem id then 1 else 0) = total at few
  obtain ⟨large, expected, lead, num, smaller, -⟩ :=
    creationparams_eq (by omega) required extended.symm
  have payload : total - (if isExtnElem isSubelem id then 1 else 0) = payloadlen := by
    rw [← extended]
    exact Nat.add_sub_cancel ..
  have within := @sources_within _ (SeparateCall.creation ⟨memory, isSubelem, id, idext, subelemfragid, source, size,
    payloadlen, base, baseSize, params, required, holds, room, apart⟩) (hdrlen_eq isSubelem subelemfragid)
    (elemunitInfo_eq isSubelem subelemfragid).1 num smaller large few size
  have made (inside : 2 + total ≤ size) (before : ByteMemory)
      (same : ∀ place, place < base ∨ base + baseSize ≤ place → before place = memory place) :
      ∃ fragmented, wlanCreateElemsubelemFragseq before false
      isSubelem id idext subelemfragid (some source) size payloadlen (some base) baseSize =
        .ok (fragmented, params.expectedFragseqlen) ∧
      ∃ restored, wlanDefragElemsubelemFragseq fragmented true isSubelem subelemfragid (some base)
          params.expectedFragseqlen none 0 = .ok (restored, payloadlen) ∧
        ∀ place, place < payloadlen → restored (base + params.prepayloadLeadbytes + place) =
          memory (source + params.prepayloadLeadbytes + place) := by
    rw [expected] at room ⊢
    have away : source + 2 + total ≤ base ∨ base + fragseqLen total ≤ source + 2 := by omega
    obtain ⟨fragmented, created, sequence⟩ := create_copied_ok before idext subelemfragid
      few required extended.symm holds room away
    obtain ⟨restored, defragmented, information, -⟩ :=
      sequence.defrag large (.inl (rfl : 0 = 0)) rfl none 0
    rw [payload] at defragmented
    refine ⟨fragmented, created, restored, defragmented, fun place below => ?_⟩
    have front : base + params.prepayloadLeadbytes + place =
        base + 2 + (params.prepayloadLeadbytes - 2 + place) := by omega
    rw [front, information _ (by omega), carriedInformation, if_neg, ← same _ (by omega)]
    · congr 1
      omega
    · rintro ⟨extn, first⟩
      simp only [extn, if_true] at extended
      omega
  constructor
  · rintro ⟨inner, trip⟩
    have inside := within.mp inner
    obtain ⟨fragmented, created, restored, defragmented, same⟩ := trip memory fun _ _ => rfl
    obtain ⟨fragments, again, information, back, carried⟩ := made inside memory fun _ _ => rfl
    cases created.symm.trans again
    cases defragmented.symm.trans back
    exact ⟨counted, by dsimp only; omega, fun place below => (carried place below).symm.trans (same place below)⟩
  · rintro ⟨-, inside, same⟩
    dsimp only at inside
    refine ⟨within.mpr (by omega), fun before outside => ?_⟩
    obtain ⟨fragmented, created, restored, defragmented, carried⟩ := made (by omega) before outside
    exact ⟨fragmented, created, restored, defragmented,
      fun place below => (carried place below).trans (same place below)⟩

def separateCall (memory : ByteMemory) (size : Nat) (holds : 256 ≤ size) : SeparateCall where
  memory := memory
  isSubelem := false
  id := 221
  idext := 0
  subelemfragid := 0
  payloadbuff := 0
  payloadbuffMaxsize := size
  payloadlen := 256
  fragbuff := size
  fragbuffMaxsize := 260
  params := ⟨260, 2, 1, 1, 2⟩
  required := by decide
  holds := holds
  room := by decide
  apart := .inr (by omega)

theorem separate_round_trip_constant : (separateCall (fun _ => 0) 258 (by decide)).RoundTrip :=
  (separate_round_trip_iff _).mpr ⟨by decide, by decide, fun _ _ => rfl⟩

/-- The payload fills its buffer. -/
theorem separate_reads_beyond : ¬ ∀ call : SeparateCall, call.RoundTrip := by
  intro always
  have reads := (always (separateCall (fun _ => 0) 256 (by decide))).1
  exact absurd (reads (257, 1) (by decide)) (by decide)

end KernelModules.Wlan

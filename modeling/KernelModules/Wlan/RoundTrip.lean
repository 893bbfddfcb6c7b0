import KernelModules.Wlan.Creation
import KernelModules.Wlan.Reading

namespace KernelModules.Wlan

open Data

inductive ElemUnit where
  | elem (elemid elemidext : BitVec 8)
  | subelem (subelemid subelemfragid : BitVec 8)

namespace ElemUnit

def leadbytes : ElemUnit → Nat
  | .elem elemid _ => if elemid = wlanElemidExtnElem then 3 else 2
  | .subelem _ _ => 2

def fragid : ElemUnit → BitVec 8
  | .elem _ _ => wlanElemidFragment
  | .subelem _ subelemfragid => subelemfragid

def requirements (unit : ElemUnit) (payloadlen : Nat) : Option Nat :=
  match unit with
  | .elem elemid _ => wlanGetElemFragseqRequirements elemid payloadlen
  | .subelem subelemid _ => wlanGetSubelemFragseqRequirements subelemid payloadlen

def createInline (unit : ElemUnit) (memory : ByteMemory) (payloadbuff payloadbuffMaxsize
    payloadlen : Nat) : Except QdfError (ByteMemory × Nat) :=
  match unit with
  | .elem elemid elemidext => wlanCreateElemFragseq memory true elemid elemidext
      (some payloadbuff) payloadbuffMaxsize payloadlen none 0
  | .subelem subelemid subelemfragid => wlanCreateSubelemFragseq memory true subelemid
      subelemfragid (some payloadbuff) payloadbuffMaxsize payloadlen none 0

def fragseqInfo (unit : ElemUnit) (memory : ByteMemory) (buff buffMaxsize : Nat) :
    Except QdfError (Option FragseqInfo) :=
  match unit with
  | .elem _ _ => wlanGetElemFragseqInfo memory (some buff) buffMaxsize
  | .subelem _ subelemfragid =>
    wlanGetSubelemFragseqInfo memory subelemfragid (some buff) buffMaxsize

def defragInline (unit : ElemUnit) (memory : ByteMemory) (fragbuff fragbuffMaxsize : Nat) :
    Except QdfError (ByteMemory × Nat) :=
  match unit with
  | .elem _ _ => wlanDefragElemFragseq memory true (some fragbuff) fragbuffMaxsize none 0
  | .subelem _ subelemfragid =>
    wlanDefragSubelemFragseq memory true subelemfragid (some fragbuff) fragbuffMaxsize none 0

end ElemUnit

section RoundTrip

variable {id : BitVec 8}

theorem create_inline_ok (mem : ByteMemory) (base : Nat) (idext subelemfragid : BitVec 8)
    (fragbuff : Option Nat) (fragbuffMaxsize : Nat) (small : total < 65536 * 255)
    (required : wlanGetElemsubelemFragseqCreationparams isSubelem id payloadlen = some params)
    (fits : params.expectedFragseqlen ≤ size)
    (extended : total = payloadlen + if isExtnElem isSubelem id then 1 else 0) :
    ∃ fragmented, wlanCreateElemsubelemFragseq mem true isSubelem id idext subelemfragid
        (some base) size payloadlen fragbuff fragbuffMaxsize = .ok (fragmented, fragseqLen total) ∧
      FragSeq fragmented base total id (wlanGetElemunitInfo isSubelem subelemfragid).fragid
        (carriedInformation mem base (isExtnElem isSubelem id) idext) ∧ (∀ place, place < size - fragseqLen total →
        fragmented (base + fragseqLen total + place) = mem (base + 2 + total + place)) ∧
      ∀ place, place < base ∨ base + size ≤ place → fragmented place = mem place := by
  obtain ⟨large, expected, lead, num, smaller, extra⟩ :=
    creationparams_eq (by omega) required extended
  obtain ⟨maximum, idPos, lenPos, hdr⟩ := elemunitInfo_eq isSubelem subelemfragid
  rw [expected] at fits
  generalize working : (FragseqCreation.mk (wlanGetElemunitInfo isSubelem subelemfragid) params true
    base size payloadlen (fragbuff.getD 0)) = creation
  have inlined : Inline creation base size total (wlanGetElemunitInfo isSubelem subelemfragid).fragid := by
    rw [← working]
    exact ⟨⟨⟨rfl, hdr, maximum, idPos, lenPos⟩, num, smaller, extra, large⟩, rfl, rfl, rfl, by dsimp only; omega, fits⟩
  have extnPos : isExtnElem isSubelem id = true → creation.info.idextPos = some 2 := by
    rw [← working]
    intro extn
    cases isSubelem with
    | true => cases extn
    | false => rfl
  obtain ⟨seq, rest, outside⟩ := inlined.created mem id idext small extnPos
  refine ⟨_, ?_, seq, rest, outside⟩
  have filled : 0 < size ∧ payloadlen ≤ size := by
    unfold fragseqLen at fits
    omega
  unfold wlanCreateElemsubelemFragseq
  rw [required]
  dsimp only
  rw [if_neg (by omega), if_neg (by omega), expected, if_neg (by simpa using fits),
    if_neg (by simp), if_neg (by simp), if_neg (by simp), working]

theorem round_trip_inline {subelemfragid : BitVec 8} {base : Nat} (small : payloadlen ≤ 65535)
    (needs : (wlanGetElemsubelemFragseqCreationparams isSubelem id payloadlen).map
      FragseqParams.expectedFragseqlen = some required) (room : required + follows ≤ size)
    (leads : lead = 2 + if isExtnElem isSubelem id then 1 else 0)
    (trailing : Follows mem (base + lead + payloadlen) follows (wlanGetElemunitInfo isSubelem subelemfragid).fragid) :
    ∃ fragmented, wlanCreateElemsubelemFragseq mem true isSubelem id idext subelemfragid
        (some base) size payloadlen none 0 = .ok (fragmented, required) ∧
      (∀ place, place < base ∨ base + size ≤ place → fragmented place = mem place) ∧
      (∀ off, off < follows → fragmented (base + required + off) = mem (base + lead + payloadlen + off)) ∧
      wlanGetElemsubelemFragseqInfo fragmented isSubelem subelemfragid (some base)
        (required + follows) = .ok (some ⟨required, payloadlen⟩) ∧
      ∃ restored, wlanDefragElemsubelemFragseq fragmented true isSubelem subelemfragid (some base)
          (required + follows) none 0 = .ok (restored, payloadlen) ∧
        ∀ off, off < payloadlen + follows → restored (base + lead + off) = mem (base + lead + off) := by
  obtain ⟨params, determined, rfl⟩ := Option.map_eq_some_iff.mp needs
  generalize extended : payloadlen + (if isExtnElem isSubelem id then 1 else 0) = total
  have sum : 2 + total = lead + payloadlen := by
    rw [leads, ← extended, add_assoc, add_comm payloadlen]
  obtain ⟨large, expected, -⟩ := creationparams_eq (by omega) determined extended.symm
  have fits : params.expectedFragseqlen ≤ size := by omega
  have bound : total ≤ payloadlen + 1 := by
    rw [← extended]
    split <;> omega
  rw [expected] at room ⊢
  obtain ⟨fragmented, created, seq, carried, outside⟩ :=
    create_inline_ok mem base idext subelemfragid none 0 (by omega) determined fits extended.symm
  have payload : total - (if isExtnElem isSubelem id then 1 else 0) = payloadlen := by
    rw [← extended]
    exact Nat.add_sub_cancel ..
  have moved : ∀ off, off < follows → fragmented (base + fragseqLen total + off) =
      mem (base + lead + payloadlen + off) := by
    intro off below
    rw [carried off (by omega), add_assoc base 2, sum, add_assoc base lead]
  have after : Follows fragmented (base + fragseqLen total) follows
      (wlanGetElemunitInfo isSubelem subelemfragid).fragid := by
    rcases trailing with empty | ⟨long, complete, other⟩
    · exact .inl empty
    · have first := moved 0 (by omega)
      rw [add_zero] at first
      refine .inr ⟨long, ?_, by rw [first]; exact other⟩
      rw [moved 1 (by omega)]
      exact complete
  have reported := seq.info large after rfl
  rw [payload] at reported
  obtain ⟨restored, defragmented, information, behind, -⟩ :=
    seq.defrag large after rfl none 0
  rw [payload] at defragmented
  refine ⟨fragmented, created, outside, moved, reported, restored, defragmented, ?_⟩
  intro off below
  by_cases inside : off < payloadlen
  · -- the extension id, where there is one, stands in front of the payload
    have place : base + lead + off = base + 2 + (lead - 2 + off) := by omega
    have lt : lead - 2 + off < total := by omega
    rw [place, information _ lt]
    refine if_neg fun both => ?_
    rw [both.1] at leads
    simp only [if_true] at leads
    omega
  · obtain ⟨rest, rfl⟩ : ∃ rest, off = payloadlen + rest := ⟨off - payloadlen, by omega⟩
    have place : base + lead + (payloadlen + rest) = base + 2 + total + rest := by omega
    have src : base + 2 + total + rest = base + lead + payloadlen + rest := by omega
    rw [place, behind rest (by omega), moved rest (by omega), src]

end RoundTrip

/-- For every unit and payload that requires fragmentation: inline creation in a buffer with room succeeds with the
required length and moves what follows behind the sequence; the scan reports both lengths; and inline
defragmentation restores everything. -/
theorem fragments_round_trip (unit : ElemUnit) {memory : ByteMemory}
    {base size payloadlen follows required : Nat} (short : payloadlen ≤ 65535)
    (needs : unit.requirements payloadlen = some required) (room : required + follows ≤ size)
    (trailing : Follows memory (base + unit.leadbytes + payloadlen) follows unit.fragid) :
    ∃ fragmented, unit.createInline memory base size payloadlen = .ok (fragmented, required) ∧
      (∀ place, place < base ∨ base + size ≤ place → fragmented place = memory place) ∧
      (∀ offset, offset < follows → fragmented (base + required + offset) =
        memory (base + unit.leadbytes + payloadlen + offset)) ∧
      unit.fragseqInfo fragmented base (required + follows) = .ok (some ⟨required, payloadlen⟩) ∧
      ∃ restored, unit.defragInline fragmented base (required + follows) = .ok (restored, payloadlen) ∧
        ∀ offset, offset < payloadlen + follows →
          restored (base + unit.leadbytes + offset) = memory (base + unit.leadbytes + offset) := by
  cases unit with
  | elem elemid elemidext =>
    have leads : (ElemUnit.elem elemid elemidext).leadbytes = 2 + if isExtnElem false elemid then 1 else 0 := by
      unfold ElemUnit.leadbytes isExtnElem
      by_cases extn : elemid = wlanElemidExtnElem
      · simp [extn]
      · simp [extn]
    exact round_trip_inline short needs room leads trailing
  | subelem subelemid subelemfragid => exact round_trip_inline short needs room rfl trailing

theorem fragments_round_trip_extension :
    ∃ fragmented, (ElemUnit.elem 255 36).createInline (fun _ => 0) 0 263 256 = .ok (fragmented, 261) ∧
      (ElemUnit.elem 255 36).fragseqInfo fragmented 0 263 = .ok (some ⟨261, 256⟩) := by
  have needs : (ElemUnit.elem 255 36).requirements 256 = some 261 := by decide
  have trailing : Follows (fun _ => 0) (0 + (ElemUnit.elem 255 36).leadbytes + 256) 2
      (ElemUnit.elem 255 36).fragid := .inr ⟨by decide, by decide, by decide⟩
  obtain ⟨fragmented, created, -, -, reported, -⟩ := fragments_round_trip (.elem 255 36)
    (by decide) needs le_rfl trailing
  exact ⟨fragmented, created, reported⟩

end KernelModules.Wlan

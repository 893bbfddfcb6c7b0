import KernelModules.Wlan.Accepted
import KernelModules.Wlan.Copying
import KernelModules.Wlan.RoundTrip

namespace KernelModules.Wlan

open Data

def idextLen (isSubelem : Bool) (id : BitVec 8) : Nat := if isExtnElem isSubelem id then 1 else 0

def sequencePayloadlen (memory : ByteMemory) (isSubelem : Bool) (base frags last : Nat) : Nat :=
  255 * frags + last - idextLen isSubelem (memory base)

def sequencePayload (memory : ByteMemory) (isSubelem : Bool) (base : Nat) : Nat → BitVec 8 :=
  fun offset => sequenceContent memory base (idextLen isSubelem (memory base) + offset)

def sequenceLen (frags last : Nat) : Nat := 257 * frags + 2 + last

/-- The units of length 255: the lead unit and the fragments in front of the last one, and the
last one where it is full. -/
def fullUnits (frags last : Nat) : Nat := frags + last / 255

/-- Creating a sequence from the payload with the same ids gives the sequence: in the same buffer, with the payload
behind the room for a header, or, where it is what the buffer begins with, in another one. -/
def Refragments (memory : ByteMemory) (isSubelem : Bool) (subelemfragid : BitVec 8)
    (base frags last : Nat) (inlineFrag : Bool) : Prop :=
  ∀ (other : ByteMemory) (payloadbuff payloadbuffMaxsize fragbuff fragbuffMaxsize : Nat),
    (∀ offset, offset < sequencePayloadlen memory isSubelem base frags last →
      other (payloadbuff + (if inlineFrag then 2 + idextLen isSubelem (memory base) else 0) + offset) =
        sequencePayload memory isSubelem base offset) →
    sequencePayloadlen memory isSubelem base frags last ≤ payloadbuffMaxsize →
    (if inlineFrag then sequenceLen frags last ≤ payloadbuffMaxsize
      else sequenceLen frags last ≤ fragbuffMaxsize ∧ (payloadbuff + payloadbuffMaxsize ≤ fragbuff ∨
          fragbuff + fragbuffMaxsize ≤ payloadbuff)) →
    ∃ refragmented, wlanCreateElemsubelemFragseq other inlineFrag isSubelem (memory base)
        (memory (base + 2)) subelemfragid (some payloadbuff) payloadbuffMaxsize
        (sequencePayloadlen memory isSubelem base frags last) (some fragbuff) fragbuffMaxsize =
          .ok (refragmented, sequenceLen frags last) ∧
      ∀ offset, offset < sequenceLen frags last →
        refragmented ((if inlineFrag then payloadbuff else fragbuff) + offset) = memory (base + offset)

/-- What is promised of the buffer at `base`; `inlineFrag` is how its payload is fragmented again. -/
structure DefragContract (memory : ByteMemory) (isSubelem : Bool) (subelemfragid : BitVec 8)
    (base size : Nat) (inlineFrag : Bool) : Prop where
  accepts : ∀ defragbuff defragbuffMaxsize,
    (∃ result, wlanDefragElemsubelemFragseq memory true isSubelem subelemfragid (some base) size
      defragbuff defragbuffMaxsize = .ok result) ↔
    ∃ frags last, StartsWithFragseq memory base size
      (wlanGetElemunitInfo isSubelem subelemfragid).fragid frags last
  acceptsCopied : ∀ defragbuff defragbuffMaxsize,
    (∃ result, wlanDefragElemsubelemFragseq memory false isSubelem subelemfragid (some base) size
      (some defragbuff) defragbuffMaxsize = .ok result) ↔
    ∃ frags last, StartsWithFragseq memory base size
        (wlanGetElemunitInfo isSubelem subelemfragid).fragid frags last ∧
      sequencePayloadlen memory isSubelem base frags last ≤ defragbuffMaxsize
  inlined : ∀ defragbuff defragbuffMaxsize after length,
    wlanDefragElemsubelemFragseq memory true isSubelem subelemfragid (some base) size defragbuff
      defragbuffMaxsize = .ok (after, length) →
    ∀ frags last, StartsWithFragseq memory base size
        (wlanGetElemunitInfo isSubelem subelemfragid).fragid frags last →
      length = sequencePayloadlen memory isSubelem base frags last ∧ (∀ offset, offset < length →
        after (base + 2 + idextLen isSubelem (memory base) + offset) =
          sequencePayload memory isSubelem base offset) ∧
      ∀ place, place < base ∨ base + size ≤ place → after place = memory place
  copied : ∀ defragbuff defragbuffMaxsize after length,
    (defragbuff + defragbuffMaxsize ≤ base ∨ base + size ≤ defragbuff) →
    wlanDefragElemsubelemFragseq memory false isSubelem subelemfragid (some base) size
      (some defragbuff) defragbuffMaxsize = .ok (after, length) →
    ∀ frags last, StartsWithFragseq memory base size
        (wlanGetElemunitInfo isSubelem subelemfragid).fragid frags last →
      length = sequencePayloadlen memory isSubelem base frags last ∧ (∀ offset, offset < length →
        after (defragbuff + offset) = sequencePayload memory isSubelem base offset) ∧
      ∀ place, place < defragbuff ∨ defragbuff + defragbuffMaxsize ≤ place → after place = memory place
  reported : ∀ lens, wlanGetElemsubelemFragseqInfo memory isSubelem subelemfragid (some base) size =
      .ok (some lens) → lens.totallen ≤ size
  confined : ∀ defragbuff defragbuffMaxsize, AllConfined base (base + size) base (base + size)
      (defragAccesses memory true isSubelem subelemfragid base size defragbuff defragbuffMaxsize)
  confinedCopied : ∀ defragbuff defragbuffMaxsize,
    (defragbuff + defragbuffMaxsize ≤ base ∨ base + size ≤ defragbuff) →
    AllConfined base (base + size) defragbuff (defragbuff + defragbuffMaxsize)
      (defragAccesses memory false isSubelem subelemfragid base size defragbuff defragbuffMaxsize)
  refragments : ∀ frags last, StartsWithFragseq memory base size
      (wlanGetElemunitInfo isSubelem subelemfragid).fragid frags last →
    Refragments memory isSubelem subelemfragid base frags last inlineFrag

section Acceptance

variable {memory : ByteMemory} {isSubelem : Bool} {id subelemfragid : BitVec 8} {base size frags last : Nat}

theorem idextLen_le (isSubelem : Bool) (id : BitVec 8) : idextLen isSubelem id ≤ 1 := by
  unfold idextLen
  split <;> omega

theorem FragSeq.determined (seq : FragSeq memory base total id fragid content)
    (again : FragSeq other elsewhere total id fragid otherContent) (pos : 0 < total)
    (same : ∀ off, off < total → otherContent off = content off)
    (inside : off < fragseqLen total) : other (elsewhere + off) = memory (base + off) := by
  have bounds := lastUnit_bounds pos
  have lastLen := unitLen_last pos
  obtain ⟨unit, part, split, short⟩ : ∃ unit part, off = 257 * unit + part ∧ part < 257 :=
    ⟨off / 257, off % 257, (Nat.div_add_mod ..).symm, Nat.mod_lt _ (by decide)⟩
  have lt : unit ≤ lastUnit total := by
    unfold fragseqLen at inside
    omega
  rw [split, ← Nat.add_assoc, ← Nat.add_assoc]
  rcases Nat.lt_or_ge part 2 with low | high
  · by_cases first : part = 0
    · rw [first, Nat.add_zero, Nat.add_zero]
      by_cases lead : unit = 0
      · rw [lead, Nat.add_zero, Nat.add_zero, seq.leadId, again.leadId]
      · rw [seq.fragids unit (by omega) lt, again.fragids unit (by omega) lt]
    · obtain rfl : part = 1 := by omega
      rw [seq.lens unit lt, again.lens unit lt]
  · obtain ⟨rest, rfl⟩ := Nat.exists_eq_add_of_le high
    have inUnit : rest < unitLen total unit := by
      by_cases ending : unit = lastUnit total
      · rw [ending]
        unfold fragseqLen at inside
        omega
      · rw [unitLen_full (by omega)]
        omega
    have information := (unit_end pos lt).2
    rw [← Nat.add_assoc, ← Nat.add_assoc, seq.body unit lt rest inUnit, again.body unit lt rest inUnit]
    exact same _ (by omega)

section

variable
  (starts : StartsWithFragseq memory base size (wlanGetElemunitInfo isSubelem subelemfragid).fragid frags last)
include starts

omit starts in
theorem sequence_extended (large : 255 < 255 * frags + last) :
    255 * frags + last = sequencePayloadlen memory isSubelem base frags last +
      if isExtnElem isSubelem (memory base) then 1 else 0 := by
  have small := idextLen_le isSubelem (memory base)
  unfold sequencePayloadlen
  unfold idextLen at small ⊢
  omega

theorem StartsWithFragseq.refragments (few : fullUnits frags last < 65536) :
    Refragments memory isSubelem subelemfragid base frags last true := by
  obtain ⟨large, lastUnit, len, fits⟩ := starts.lengths
  have seq := starts.fragSeq
  intro other payloadbuff payloadbuffMaxsize fragbuff fragbuffMaxsize payload filled room
  have extended := @sequence_extended memory isSubelem base frags last large
  have few' : 255 * frags + last < 65536 * 255 := by
    unfold fullUnits at few
    omega
  unfold sequencePayloadlen sequenceLen at *
  generalize totalIs : 255 * frags + last = total at *
  obtain ⟨params, required, -⟩ := creationparams_wide extended large
  have carried : ∀ offset, offset < total →
      carriedInformation other payloadbuff (isExtnElem isSubelem (memory base)) (memory (base + 2))
        offset = sequenceContent memory base offset := by
    intro offset lt
    unfold carriedInformation
    split
    · rename_i first
      rw [first.2]
      rfl
    rename_i plain
    have behind : idextLen isSubelem (memory base) ≤ offset := by
      unfold idextLen
      split
      · rename_i extn
        exact Nat.pos_of_ne_zero fun zero => plain ⟨extn, zero⟩
      · exact Nat.zero_le _
    obtain ⟨rest, rfl⟩ := Nat.exists_eq_add_of_le behind
    have same := payload rest (by omega)
    rw [if_pos rfl, ← Nat.add_assoc] at same
    rw [← Nat.add_assoc]
    exact same
  obtain ⟨-, expected, -⟩ := creationparams_eq (by omega) required extended
  have roomy : params.expectedFragseqlen ≤ payloadbuffMaxsize := by
    rw [expected, len]
    exact room
  obtain ⟨fragmented, created, again, -⟩ := create_inline_ok other payloadbuff
    (memory (base + 2)) subelemfragid (some fragbuff) fragbuffMaxsize few' required roomy extended
  rw [len] at created
  exact ⟨fragmented, created, fun offset lt => seq.determined again (by omega) carried (by omega)⟩

/-- A separate copy takes its last byte from behind the payload. -/
theorem StartsWithFragseq.not_copied (few : fullUnits frags last < 65536) :
    ¬ Refragments memory isSubelem subelemfragid base frags last false := by
  intro again
  obtain ⟨large, units, len, -⟩ := starts.lengths
  have seq := starts.fragSeq
  have extended := @sequence_extended memory isSubelem base frags last large
  have few' : 255 * frags + last < 65536 * 255 := by
    unfold fullUnits at few
    omega
  obtain ⟨params, required, -⟩ := creationparams_wide extended large
  generalize payloadlenIs : sequencePayloadlen memory isSubelem base frags last = payloadlen at *
  unfold Refragments sequenceLen at again
  rw [payloadlenIs] at again
  simp only [Bool.false_eq_true, if_false] at again
  generalize totalIs : 255 * frags + last = total at *
  have total_pos : 0 < total := by omega
  have bounds := lastUnit_bounds total_pos
  have lastLen := unitLen_last total_pos
  obtain ⟨other, payload, wrong⟩ : ∃ other : ByteMemory,
      (∀ off, off < payloadlen → other (0 + 0 + off) = sequencePayload memory isSubelem base off) ∧
      other (0 + 2 + (total - 1)) ≠ sequenceContent memory base (total - 1) := by
    refine ⟨fun addr => if addr < payloadlen then sequencePayload memory isSubelem base addr
      else sequenceContent memory base (total - 1) + 1, fun off lt => ?_, ?_⟩
    · dsimp only
      rw [if_pos (by omega), Nat.zero_add]
    · dsimp only
      rw [if_neg (by omega)]
      intro same
      exact absurd (BitVec.add_right_eq_self.mp same) (by decide)
  obtain ⟨fragmented, created, restored⟩ := again other 0 (2 + total) (2 + total) (257 * frags + 2 + last) payload
    (by omega) ⟨le_rfl, .inl (by omega)⟩
  obtain ⟨copy, made, sequence⟩ := create_copied_ok other (memory (base + 2)) subelemfragid few' required extended
    (by omega : payloadlen ≤ 2 + total) (by omega : fragseqLen total ≤ 257 * frags + 2 + last)
    (.inl (by omega) : 0 + 2 + total ≤ 2 + total ∨ _)
  obtain ⟨rfl, -⟩ := Prod.mk.inj (Except.ok.inj (created.symm.trans made))
  have copied := sequence.body (lastUnit total) le_rfl (total - 1 - 255 * lastUnit total) (by omega)
  have kept := restored (257 * lastUnit total + 2 + (total - 1 - 255 * lastUnit total)) (by
    omega)
  have original := seq.body (lastUnit total) le_rfl (total - 1 - 255 * lastUnit total) (by omega)
  rw [← Nat.add_assoc, ← Nat.add_assoc, copied, ← Nat.add_assoc, ← Nat.add_assoc,
    original, show 255 * lastUnit total + (total - 1 - 255 * lastUnit total) = total - 1 by omega,
    carriedInformation, if_neg (by omega)] at kept
  exact wrong kept

theorem StartsWithFragseq.not_refragments (many : 65536 ≤ fullUnits frags last) (inlineFrag : Bool) :
    ¬ Refragments memory isSubelem subelemfragid base frags last inlineFrag := by
  intro again
  obtain ⟨large, units, -, -⟩ := starts.lengths
  have small := idextLen_le isSubelem (memory base)
  have short := starts.short
  have whole : (255 * frags + last) / 255 = fullUnits frags last := by
    unfold fullUnits
    omega
  have extended := @sequence_extended memory isSubelem base frags last large
  have inside : 257 * (fullUnits frags last - 1) < sequenceLen frags last := by
    unfold sequenceLen
    omega
  generalize frontIs : (if inlineFrag then 2 + idextLen isSubelem (memory base) else 0) = front
  generalize destIs : (if inlineFrag then 0 else sequenceLen frags last) = dest
  obtain ⟨other, payload, apart⟩ : ∃ other : ByteMemory,
      (∀ off, off < sequencePayloadlen memory isSubelem base frags last →
        other (0 + front + off) = sequencePayload memory isSubelem base off) ∧
      other (dest + 257 * (fullUnits frags last - 1)) ≠ memory (base + 257 * (fullUnits frags last - 1)) := by
    refine ⟨fun addr => if addr = dest + 257 * (fullUnits frags last - 1) then
        memory (base + 257 * (fullUnits frags last - 1)) + 1
      else sequencePayload memory isSubelem base (addr - front), fun off lt => ?_, ?_⟩
    · dsimp only
      rw [if_neg (by split at frontIs <;> omega)]
      congr 1
      omega
    · dsimp only
      rw [if_pos rfl]
      intro same
      exact absurd (BitVec.add_right_eq_self.mp same) (by decide)
  unfold Refragments at again
  rw [frontIs] at again
  obtain ⟨fragmented, created, restored⟩ := again other 0 (sequenceLen frags last) dest (sequenceLen frags last) payload
    (by omega) (by
      split
      · exact le_rfl
      · rename_i separate
        rw [if_neg separate] at destIs
        exact ⟨le_rfl, .inl (by omega)⟩)
  have start : (if inlineFrag then 0 else dest) = dest := by
    rw [← destIs]
    split <;> rfl
  have kept := restored _ inside
  rw [start] at kept
  apply apart
  rw [← kept]
  have unwritten := create_leaves created extended (by rw [whole]; exact many) (fun _ => ⟨rfl, by
    unfold sequenceLen fragseqLen
    omega⟩) start
  rw [whole] at unwritten
  exact unwritten.symm

theorem StartsWithFragseq.inlined (defragbuff : Option Nat) (defragbuffMaxsize : Nat) :
    ∃ after, wlanDefragElemsubelemFragseq memory true isSubelem subelemfragid (some base) size
        defragbuff defragbuffMaxsize = .ok (after, sequencePayloadlen memory isSubelem base frags last) ∧
      (∀ off, off < sequencePayloadlen memory isSubelem base frags last →
        after (base + 2 + idextLen isSubelem (memory base) + off) = sequencePayload memory isSubelem base off) ∧
      ∀ place, place < base ∨ base + size ≤ place → after place = memory place := by
  obtain ⟨large, -⟩ := starts.lengths
  obtain ⟨follows, whole, trailing⟩ := starts.trailing
  obtain ⟨after, defragmented, information, -, outside⟩ :=
    starts.fragSeq.defrag large trailing rfl defragbuff defragbuffMaxsize
  rw [whole]
  refine ⟨after, defragmented, fun off lt => ?_, fun place away => outside place (by omega)⟩
  unfold sequencePayloadlen at lt
  rw [add_assoc (base + 2)]
  exact information _ (by omega)

theorem StartsWithFragseq.copied (room : sequencePayloadlen memory isSubelem base frags last ≤ defragbuffMaxsize)
    (apart : defragbuff + defragbuffMaxsize ≤ base ∨ base + size ≤ defragbuff) :
    ∃ after, wlanDefragElemsubelemFragseq memory false isSubelem subelemfragid (some base) size
        (some defragbuff) defragbuffMaxsize = .ok (after, sequencePayloadlen memory isSubelem base frags last) ∧
      (∀ off, off < sequencePayloadlen memory isSubelem base frags last →
        after (defragbuff + off) = sequencePayload memory isSubelem base off) ∧
      ∀ place, place < defragbuff ∨ defragbuff + defragbuffMaxsize ≤ place → after place = memory place := by
  obtain ⟨large, -⟩ := starts.lengths
  obtain ⟨follows, whole, trailing⟩ := starts.trailing
  unfold sequencePayloadlen at room ⊢
  have separate : defragbuff + (255 * frags + last - idextLen isSubelem (memory base)) ≤ base ∨
      base + (fragseqLen (255 * frags + last) + follows) ≤ defragbuff := by omega
  obtain ⟨after, defragmented, payload, outside⟩ := starts.fragSeq.defrag_copied large trailing rfl
    (rfl : idextLen isSubelem (memory base) = _) room separate
  rw [whole]
  exact ⟨after, defragmented, payload, fun place away => outside place (by omega)⟩

end

theorem defrag_scans
    (defragmented : wlanDefragElemsubelemFragseq memory inlineDefrag isSubelem subelemfragid (some base)
      size defragbuff defragbuffMaxsize = .ok result) :
    ∃ lens, wlanGetElemsubelemFragseqInfo memory isSubelem subelemfragid (some base) size =
      .ok (some lens) ∧ (inlineDefrag = false → lens.payloadlen ≤ defragbuffMaxsize) := by
  unfold wlanDefragElemsubelemFragseq at defragmented
  iterate 3 rw [ite_eq_iff] at defragmented
  simp only [reduceCtorEq, and_false, false_or] at defragmented
  obtain ⟨-, -, -, defragmented⟩ := defragmented
  split at defragmented
  · cases defragmented
  · cases defragmented
  · rename_i lens scanned
    rw [ite_eq_iff] at defragmented
    simp only [reduceCtorEq, and_false, false_or] at defragmented
    exact ⟨lens, scanned, fun copied => by simpa [copied] using defragmented.1⟩

section

variable
  (starts : StartsWithFragseq memory base size (wlanGetElemunitInfo isSubelem subelemfragid).fragid frags last)
include starts

theorem StartsWithFragseq.info
    (scanned : wlanGetElemsubelemFragseqInfo memory isSubelem subelemfragid (some base) size = .ok (some lens)) :
    lens = ⟨sequenceLen frags last, sequencePayloadlen memory isSubelem base frags last⟩ := by
  obtain ⟨large, -, len, -⟩ := starts.lengths
  obtain ⟨follows, whole, trailing⟩ := starts.trailing
  rw [whole, starts.fragSeq.info large trailing rfl] at scanned
  cases scanned
  rw [len]
  rfl

theorem StartsWithFragseq.copied_succeeds (defragbuff : Nat)
    (room : sequencePayloadlen memory isSubelem base frags last ≤ defragbuffMaxsize) :
    ∃ result, wlanDefragElemsubelemFragseq memory false isSubelem subelemfragid (some base) size
      (some defragbuff) defragbuffMaxsize = .ok result := by
  obtain ⟨large, -⟩ := starts.lengths
  have small := idextLen_le isSubelem (memory base)
  obtain ⟨follows, whole, trailing⟩ := starts.trailing
  have reported := starts.fragSeq.info large trailing rfl
  have filled : 0 < fragseqLen (255 * frags + last) + follows := by
    unfold fragseqLen
    omega
  have short : ¬ defragbuffMaxsize < 255 * frags + last -
      if isExtnElem isSubelem (memory base) then 1 else 0 := not_lt.mpr room
  unfold sequencePayloadlen at room
  unfold wlanDefragElemsubelemFragseq
  rw [whole]
  dsimp only
  rw [reported, if_neg (by omega), if_neg (by simp), if_neg (by simpa using (by omega : defragbuffMaxsize ≠ 0))]
  dsimp only
  rw [if_neg (by simpa using Nat.le_of_not_lt short)]
  exact ⟨_, rfl⟩

end

theorem defrag_contract {inlineFrag : Bool} (refragments : ∀ frags last, StartsWithFragseq memory base size
        (wlanGetElemunitInfo isSubelem subelemfragid).fragid frags last →
      Refragments memory isSubelem subelemfragid base frags last inlineFrag) :
    DefragContract memory isSubelem subelemfragid base size inlineFrag where
  accepts := fun defragbuff defragbuffMaxsize => by
    constructor
    · rintro ⟨result, defragmented⟩
      obtain ⟨lens, scanned, -⟩ := defrag_scans defragmented
      exact fragseqInfo_accepts scanned
    · rintro ⟨frags, last, starts⟩
      obtain ⟨after, defragmented, -⟩ := starts.inlined defragbuff defragbuffMaxsize
      exact ⟨_, defragmented⟩
  acceptsCopied := fun defragbuff defragbuffMaxsize => by
    constructor
    · rintro ⟨result, defragmented⟩
      obtain ⟨lens, scanned, room⟩ := defrag_scans defragmented
      obtain ⟨frags, last, starts⟩ := fragseqInfo_accepts scanned
      rw [starts.info scanned] at room
      exact ⟨frags, last, starts, room rfl⟩
    · rintro ⟨frags, last, starts, room⟩
      exact starts.copied_succeeds defragbuff room
  inlined := fun defragbuff defragbuffMaxsize after len defragmented frags last starts => by
    obtain ⟨expected, again, payload, outside⟩ := starts.inlined defragbuff defragbuffMaxsize
    rw [defragmented] at again
    cases again
    exact ⟨rfl, payload, outside⟩
  copied := fun defragbuff defragbuffMaxsize after len apart defragmented frags last starts => by
    obtain ⟨lens, scanned, room⟩ := defrag_scans defragmented
    rw [starts.info scanned] at room
    obtain ⟨expected, again, payload, outside⟩ := starts.copied (room rfl) apart
    rw [defragmented] at again
    cases again
    exact ⟨rfl, payload, outside⟩
  reported := fun lens scanned => by
    obtain ⟨frags, last, starts⟩ := fragseqInfo_accepts scanned
    obtain ⟨-, -, len, fits⟩ := starts.lengths
    rw [starts.info scanned]
    rw [len] at fits
    exact fits
  confined := defragAccesses_inline_confined memory isSubelem subelemfragid base size
  confinedCopied := fun _ _ apart => defragAccesses_copied_confined memory isSubelem subelemfragid apart
  refragments := refragments

end Acceptance

/-- Defragmentation, scan and creation keep all their promises for a buffer if and only if the
fragment sequence that it starts with, if it starts with one, is made again inline and has fewer than
65536 units of length 255. -/
theorem defragmentation_exact_iff {memory : ByteMemory} {isSubelem : Bool} {subelemfragid : BitVec 8}
    {base size : Nat} {inlineFrag : Bool} : DefragContract memory isSubelem subelemfragid base size inlineFrag ↔
      ∀ frags last, StartsWithFragseq memory base size
        (wlanGetElemunitInfo isSubelem subelemfragid).fragid frags last →
      inlineFrag = true ∧ fullUnits frags last < 65536 := by
  constructor
  · intro contract frags last starts
    have again := contract.refragments frags last starts
    have few : fullUnits frags last < 65536 := by
      by_contra many
      exact starts.not_refragments (Nat.le_of_not_lt many) inlineFrag again
    cases inlineFrag with
    | false => exact absurd again (starts.not_copied few)
    | true => exact ⟨rfl, few⟩
  · intro few
    refine defrag_contract fun frags last starts => ?_
    obtain ⟨rfl, fits⟩ := few frags last starts
    exact starts.refragments fits

/-- A vendor element in a sequence that ends with a fragment of length `last` -/
def vendorSequence (frags last : Nat) : ByteMemory := fun place =>
  if place = 0 then 221 else if place % 257 = 0 then 242
  else if place = 257 * frags + 1 then BitVec.ofNat 8 last else 255

theorem vendorSequence_starts (fragmented : 0 < frags) (nonempty : 0 < last) (short : last ≤ 255) :
    StartsWithFragseq (vendorSequence frags last) 0 (sequenceLen frags last)
      (wlanGetElemunitInfo false 0).fragid frags last where
  run := {
    fulls := fun unit below => by
      unfold vendorSequence
      rw [if_neg (by omega), if_neg (by omega), if_neg (by omega)]
    fragids := fun unit positive within => by
      unfold vendorSequence
      rw [if_neg (by omega), if_pos (by omega)]
      rfl
    lastLen := by
      unfold vendorSequence
      rw [if_neg (by omega), if_neg (by omega), if_pos (by omega), BitVec.toNat_ofNat]
      omega
    fits := by
      unfold sequenceLen
      omega
    after := .inl (by
      unfold sequenceLen
      omega) }
  fragmented := fragmented
  nonempty := nonempty

/-- One whole fragment and one byte, made again in a buffer of its own; and 65536 whole units, made again in
either way. -/
theorem sequences_not_refragmented : ¬ DefragContract (vendorSequence 1 1) false 0 0 260 false ∧
    ∀ inlineFrag, ¬ DefragContract (vendorSequence 65535 255) false 0 0 16842752 inlineFrag := by
  refine ⟨fun contract => ?_, fun inlineFrag contract => ?_⟩
  · have starts := vendorSequence_starts Nat.one_pos Nat.one_pos (by decide : 1 ≤ 255)
    exact starts.not_copied (by decide) (contract.refragments 1 1 starts)
  · have starts := vendorSequence_starts (by decide : 0 < 65535) (by decide : 0 < 255) le_rfl
    exact starts.not_refragments (by decide) inlineFrag (contract.refragments 65535 255 starts)

end KernelModules.Wlan

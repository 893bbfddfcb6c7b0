import KernelModules.Wlan.Creation

namespace KernelModules.Wlan

open Data ByteMemory FragseqCreation

/-! # Creation of fragment sequences in a buffer of their own

Every fragment is copied from where it is, and none is written twice.
-/

structure Copied (before memory : ByteMemory) (source dest total : Nat) (fragid : BitVec 8)
    (unit : Nat) : Prop extends Units before memory source dest total fragid unit where
  outside : ∀ place, place < dest ∨ dest + fragseqLen total ≤ place → memory place = before place

structure Apart (creation : FragseqCreation) (source dest total : Nat) (fragid : BitVec 8) : Prop
    extends Sized creation total fragid where
  inlineFrag : creation.inlineFrag = false
  payloadbuff : creation.payloadbuff = source
  fragbuff : creation.fragbuff = dest
  apart : source + 2 + total ≤ dest ∨ dest + fragseqLen total ≤ source + 2

section Copying

variable {before memory : ByteMemory} {src dest total : Nat} {fragid : BitVec 8}
  {creation : FragseqCreation}

theorem unit_end (pos : 0 < total) (lt : unit ≤ lastUnit total) :
    257 * unit + 2 + unitLen total unit ≤ fragseqLen total ∧ 255 * unit + unitLen total unit ≤ total := by
  have bounds := lastUnit_bounds pos
  unfold unitLen fragseqLen
  omega

theorem Copied.place (copied : Copied before memory src dest total fragid (unit + 1))
    (apart : src + 2 + total ≤ dest ∨ dest + fragseqLen total ≤ src + 2)
    (pos : 0 < total) (lt : unit ≤ lastUnit total) :
    Copied before (placeUnit memory src dest total fragid unit (unitLen total unit)) src dest total fragid unit := by
  have bounds := unitLen_bounds pos lt
  obtain ⟨ending, sourceEnd⟩ := unit_end pos lt
  refine ⟨copied.toUnits.place le_rfl (fun _ => bounds.2) fun offset below => ?_, fun place away => ?_⟩
  · have place : src + (2 + 255 * unit) + offset = src + 2 + (255 * unit + offset) := by omega
    rw [place]
    exact copied.outside _ (by omega)
  · rw [placeUnit_outside (by omega)]
    exact copied.outside place away

theorem Apart.cutting (separate : Apart creation src dest total fragid) :
    Cutting creation total fragid fun memory => Copied before memory src dest total fragid where
  toSized := separate.toSized
  transfer := fun memory unit _ lt copied => by
    have large := separate.large
    obtain ⟨sameId, hdr, maximum, idPos, lenPos⟩ := separate.info
    have target : dest + (2 + unit * 255) + 2 * unit = dest + 257 * unit + 2 := by omega
    have place : src + (2 + unit * 255) = src + (2 + 255 * unit) := by omega
    unfold FragseqCreation.transfer
    rw [sameId, hdr, maximum, idPos, lenPos, separate.inlineFrag, separate.payloadbuff, separate.fragbuff]
    simp only [Bool.false_and, Bool.false_eq_true, if_false]
    rw [target, place]
    exact copied.place separate.apart (by omega) lt

theorem Apart.created (before : ByteMemory) (id idext : BitVec 8)
    (separate : Apart creation src dest total fragid) (small : total < 65536 * 255)
    (extnPos : extn = true → creation.info.idextPos = some 2) :
    FragSeq (creation.create extn id idext before) dest total id fragid (carriedInformation before src extn idext) := by
  obtain ⟨memory, copied, created⟩ := separate.cutting.units small (⟨.start, fun _ _ => rfl⟩ : Copied before ..)
  have large := separate.large
  have apart := separate.apart
  rw [created, separate.inlineFrag, separate.fragbuff, separate.payloadbuff, if_neg Bool.false_ne_true]
  exact (separate.fragSeq copied.toUnits id idext (fun place higher => move_outside (by omega))
    (fun offset below => by
      rw [move_inside below]
      exact copied.outside _ (by omega)) extnPos (by rw [separate.inlineFrag]; exact separate.fragbuff)).1

theorem create_copied_ok {id : BitVec 8} {payloadlen : Nat} {params : FragseqParams}
    (memory : ByteMemory) (idext subelemfragid : BitVec 8) (small : total < 65536 * 255)
    (required : wlanGetElemsubelemFragseqCreationparams isSubelem id payloadlen = some params)
    (extended : total = payloadlen + if isExtnElem isSubelem id then 1 else 0)
    (filled : payloadlen ≤ sourceSize) (room : fragseqLen total ≤ destSize)
    (apart : src + 2 + total ≤ dest ∨ dest + fragseqLen total ≤ src + 2) :
    ∃ fragmented, wlanCreateElemsubelemFragseq memory false isSubelem id idext subelemfragid
        (some src) sourceSize payloadlen (some dest) destSize = .ok (fragmented, fragseqLen total) ∧
      FragSeq fragmented dest total id (wlanGetElemunitInfo isSubelem subelemfragid).fragid
        (carriedInformation memory src (isExtnElem isSubelem id) idext) := by
  obtain ⟨large, expected, lead, num, smaller, extra⟩ :=
    creationparams_eq (by omega) required extended
  obtain ⟨maximum, idPos, lenPos, hdr⟩ := elemunitInfo_eq isSubelem subelemfragid
  generalize working : (FragseqCreation.mk (wlanGetElemunitInfo isSubelem subelemfragid) params
    false src sourceSize payloadlen ((some dest).getD 0)) = creation
  have separate : Apart creation src dest total (wlanGetElemunitInfo isSubelem subelemfragid).fragid := by
    rw [← working]
    exact ⟨⟨⟨rfl, hdr, maximum, idPos, lenPos⟩, num, smaller, extra, large⟩, rfl, rfl, rfl, apart⟩
  have extnPos : isExtnElem isSubelem id = true → creation.info.idextPos = some 2 := by
    rw [← working]
    intro extn
    cases isSubelem with
    | true => cases extn
    | false => rfl
  have bound : total ≤ payloadlen + 1 := by
    rw [extended]
    split <;> omega
  have len : fragseqLen total = total + 2 * (lastUnit total + 1) := rfl
  refine ⟨_, ?_, separate.created memory id idext small extnPos⟩
  unfold wlanCreateElemsubelemFragseq
  rw [required]
  dsimp only
  rw [if_neg (by omega), if_neg (by omega), expected, if_neg (by simp), if_neg (by simp),
    if_neg (by simpa using (by omega : destSize ≠ 0)), if_neg (by simpa using room), working]

end Copying

/-! ## Creation with more fragments than its counter holds

The loop counts with 16 bits.  What it leaves out stays unwritten.
-/

section Overflow

variable {creation : FragseqCreation} {dest : Nat}
  (start : (if creation.inlineFrag then creation.payloadbuff else creation.fragbuff) = dest)
  (hdr : creation.info.hdrlen = 2 ∧ creation.info.maxpayloadlen = 255 ∧
    creation.info.idPos = 0 ∧ creation.info.lenPos = 1)

section

include start hdr

/-- What follows the payload is not carried along where the buffer has no room for it. -/
theorem transfer_outside (memory : ByteMemory) (carries : Bool)
    (full : creation.inlineFrag = true → carries = true → creation.payloadbuffMaxsize ≤
      creation.params.prepayloadLeadbytes + creation.payloadlen + remaining)
    (away : place < dest + 255 * index + remaining ∨ dest + 255 * index + remaining + 2 + size ≤ place) :
    creation.transfer memory index size carries remaining place = memory place := by
  obtain ⟨hdrlen, maximum, idPos, lenPos⟩ := hdr
  unfold transfer
  rw [maximum, hdrlen, idPos, lenPos]
  cases inlined : creation.inlineFrag with
  | false =>
    simp only [inlined, Bool.false_eq_true, if_false] at start
    simp only [Bool.false_and, Bool.false_eq_true, if_false]
    rw [set_other (by omega), set_other (by omega), move_outside (by omega)]
  | true =>
    simp only [inlined, if_true] at start
    have moved : (if (true && carries && decide (creation.payloadbuffMaxsize >
        creation.params.prepayloadLeadbytes + creation.payloadlen)) = true then
        size + (creation.payloadbuffMaxsize - creation.params.prepayloadLeadbytes - creation.payloadlen -
          if (true && decide (creation.payloadbuff + (2 + index * 255) + remaining >
            creation.payloadbuff + (2 + index * 255))) = true then creation.payloadbuff + (2 + index * 255) +
              remaining - (creation.payloadbuff + (2 + index * 255)) else 0)
        else size) = size := by
      split
      · rename_i carried
        simp only [Bool.true_and, Bool.and_eq_true, decide_eq_true_eq] at carried ⊢
        have room := full inlined carried.1
        split <;> omega
      · rfl
    simp only [if_true]
    rw [moved, set_other (by omega), set_other (by omega), move_outside (by omega)]

theorem maxsizeLoop_below
    (wrapped : creation.inlineFrag = true → count < creation.params.numMaxsizefrags ∨ count = 0)
    (above : dest + 255 * count + 2 + remaining ≤ place) :
    creation.maxsizeLoop count remaining memory place = memory place := by
  induction count generalizing memory remaining with
  | zero => rfl
  | succ count ih =>
    cases count with
    | zero => rfl
    | succ count =>
      have lt : dest + 255 * (count + 1) + remaining + 2 + 255 ≤ place := by
        omega
      have next : dest + 255 * (count + 1) + 2 + (remaining - 2) ≤ place := by
        clear above
        omega
      unfold maxsizeLoop
      rw [hdr.1, hdr.2.1]
      refine (ih (fun inlined => ?_) next).trans (transfer_outside start hdr memory _ (fun inlined carried => ?_) (.inr lt))
      · have fewer := wrapped inlined
        omega
      · have fewer := wrapped inlined
        rw [Bool.and_eq_true, decide_eq_true_eq] at carried
        omega

end

theorem creationparams_wide {id : BitVec 8} {payloadlen : Nat}
    (extended : total = payloadlen + if isExtnElem isSubelem id then 1 else 0) (large : 255 < total) :
    ∃ params, wlanGetElemsubelemFragseqCreationparams isSubelem id payloadlen = some params ∧
      params.numMaxsizefrags = total / 255 % 4294967296 ∧ params.smallerfragSize = total % 255 ∧
      params.extrahdrbytes = (total / 255 % 4294967296 + 4294967295) % 4294967296 * 2 +
        (if total % 255 ≠ 0 then 2 else 0) ∧ params.prepayloadLeadbytes + payloadlen = 2 + total ∧
      params.expectedFragseqlen = params.prepayloadLeadbytes + payloadlen + params.extrahdrbytes := by
  have hdr := hdrlen_eq isSubelem 0
  have maximum : (wlanGetElemunitInfo isSubelem 0).maxpayloadlen = 255 := by
    cases isSubelem <;> rfl
  unfold wlanGetElemsubelemFragseqCreationparams
  dsimp only
  rw [hdr, maximum]
  cases extn : isExtnElem isSubelem id with
  | true =>
    rw [extn] at extended
    simp only [if_true] at extended ⊢
    have remainder : (payloadlen - (255 - 1)) % 255 = total % 255 := by omega
    rw [if_neg (by omega), remainder, ← extended]
    exact ⟨_, rfl, rfl, rfl, rfl, (by dsimp only; omega), rfl⟩
  | false =>
    rw [extn] at extended
    simp only [Bool.false_eq_true, if_false, add_zero] at extended ⊢
    rw [if_neg (by omega), ← extended]
    exact ⟨_, rfl, rfl, rfl, rfl, rfl, rfl⟩

include start hdr in
theorem create_unwritten (extn : Bool) (id idext : BitVec 8)
    (extnPos : ∀ pos, creation.info.idextPos = some pos → pos = 2)
    (num : creation.params.numMaxsizefrags = total / 255 % 4294967296)
    (smaller : creation.params.smallerfragSize = total % 255) (extra : creation.params.extrahdrbytes =
      (total / 255 % 4294967296 + 4294967295) % 4294967296 * 2 + if total % 255 ≠ 0 then 2 else 0)
    (many : 65536 ≤ total / 255) (full : creation.inlineFrag = true → creation.params.extrahdrbytes = 2 * lastUnit total ∧
      creation.payloadbuffMaxsize ≤ creation.params.prepayloadLeadbytes + creation.payloadlen +
        creation.params.extrahdrbytes) :
    creation.create extn id idext memory (dest + 257 * (total / 255 - 1)) = memory (dest + 257 * (total / 255 - 1)) := by
  have headed : ∀ after : ByteMemory, creation.leadHeader extn id idext after (dest + 257 * (total / 255 - 1)) =
        after (dest + 257 * (total / 255 - 1)) := by
    intro after
    unfold leadHeader
    rw [start, hdr.2.2.1, hdr.2.2.2]
    cases found : creation.info.idextPos with
    | none =>
      cases extn <;> exact (set_other (by omega)).trans (set_other (by omega))
    | some pos =>
      rw [extnPos _ found]
      cases extn with
      | false => exact (set_other (by omega)).trans (set_other (by omega))
      | true =>
        exact (set_other (by omega)).trans ((set_other (by omega)).trans (set_other (by omega)))
  have copied : ∀ after : ByteMemory, (if creation.inlineFrag then after
      else after.move (creation.fragbuff + creation.info.hdrlen) (creation.payloadbuff + creation.info.hdrlen)
        creation.info.maxpayloadlen) (dest + 257 * (total / 255 - 1)) = after (dest + 257 * (total / 255 - 1)) := by
    intro after
    rw [hdr.1, hdr.2.1]
    split
    · rfl
    · rename_i separate
      rw [if_neg separate] at start
      exact move_outside (.inr (by omega))
  have wrapped : creation.inlineFrag = true → creation.params.numMaxsizefrags % 2 ^ 16 <
      creation.params.numMaxsizefrags ∨ creation.params.numMaxsizefrags % 2 ^ 16 = 0 := by
    intro inlined
    have headers := (full inlined).1
    unfold lastUnit at headers
    rw [extra] at headers
    split at headers <;> omega
  unfold create
  rw [headed, copied, smaller, extra]
  by_cases whole : total % 255 = 0
  · rw [if_neg (not_not.mpr whole), if_neg (not_not.mpr whole), if_neg (not_not.mpr whole)]
    exact maxsizeLoop_below start hdr wrapped (by omega)
  · rw [if_pos whole, if_pos whole, if_pos whole, maxsizeLoop_below start hdr wrapped (by omega)]
    refine transfer_outside start hdr memory true (fun inlined _ => ?_) (by omega)
    have room := (full inlined).2
    rw [extra, if_pos whole] at room
    exact room

theorem create_leaves {inlineFrag isSubelem : Bool} {id idext subelemfragid : BitVec 8}
    {payloadbuff payloadbuffMaxsize payloadlen fragbuff fragbuffMaxsize len : Nat} {memory fragmented : ByteMemory}
    (created : wlanCreateElemsubelemFragseq memory inlineFrag isSubelem id idext subelemfragid (some payloadbuff)
      payloadbuffMaxsize payloadlen (some fragbuff) fragbuffMaxsize = .ok (fragmented, len))
    (extended : total = payloadlen + if isExtnElem isSubelem id then 1 else 0) (many : 65536 ≤ total / 255)
    (full : inlineFrag = true → payloadbuffMaxsize = len ∧ len = fragseqLen total)
    (start : (if inlineFrag then payloadbuff else fragbuff) = dest) :
    fragmented (dest + 257 * (total / 255 - 1)) = memory (dest + 257 * (total / 255 - 1)) := by
  obtain ⟨params, required, num, smaller, extra, lead, expected⟩ := creationparams_wide extended (by omega)
  obtain ⟨maximum, idPos, lenPos, hdr⟩ := elemunitInfo_eq isSubelem subelemfragid
  have extnPos : ∀ pos, (wlanGetElemunitInfo isSubelem subelemfragid).idextPos = some pos → pos = 2 := by
    intro pos found
    cases isSubelem with
    | true => cases found
    | false =>
      cases found
      rfl
  unfold wlanCreateElemsubelemFragseq at created
  rw [required] at created
  iterate 6 rw [ite_eq_iff] at created
  simp only [reduceCtorEq, and_false, false_or, Except.ok.injEq, Prod.mk.injEq] at created
  obtain ⟨-, -, -, -, -, -, rfl, rfl⟩ := created
  exact @create_unwritten ⟨wlanGetElemunitInfo isSubelem subelemfragid, params, inlineFrag, payloadbuff,
    payloadbuffMaxsize, payloadlen, fragbuff⟩ dest start ⟨hdr, maximum, idPos, lenPos⟩ total memory
    (isExtnElem isSubelem id) id idext extnPos num smaller extra many fun inlined => by
      obtain ⟨size, sequence⟩ := full inlined
      unfold fragseqLen at sequence
      dsimp only
      omega

end Overflow

end KernelModules.Wlan

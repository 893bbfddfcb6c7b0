import KernelModules.Wlan.Defragment

namespace KernelModules.Wlan

open Data ByteMemory FragseqCreation

/-! # Inline creation of fragment sequences

The fragments are moved from the last down, over what was moved before.
-/

/-- A creation that cuts `total` bytes of information into units. -/
structure Sized (creation : FragseqCreation) (total : Nat) (fragid : BitVec 8) : Prop where
  info : creation.info.fragid = fragid ∧ creation.info.hdrlen = 2 ∧
    creation.info.maxpayloadlen = 255 ∧ creation.info.idPos = 0 ∧ creation.info.lenPos = 1
  numMaxsizefrags : creation.params.numMaxsizefrags = total / 255
  smallerfragSize : creation.params.smallerfragSize = total % 255
  extrahdrbytes : creation.params.extrahdrbytes = 2 * lastUnit total
  large : 255 < total

/-- What the transfers of a creation carry from the last unit down. -/
structure Cutting (creation : FragseqCreation) (total : Nat) (fragid : BitVec 8)
    (progress : ByteMemory → Nat → Prop) : Prop extends Sized creation total fragid where
  transfer : ∀ memory unit, 1 ≤ unit → unit ≤ lastUnit total → progress memory (unit + 1) →
    progress (creation.transfer memory unit (unitLen total unit) (decide (unit = lastUnit total))
      (2 * unit)) unit

section Cutting

variable {creation : FragseqCreation} {before memory : ByteMemory} {total : Nat} {fragid : BitVec 8}
  {progress : ByteMemory → Nat → Prop}

theorem Cutting.maxsizeLoop (cutting : Cutting creation total fragid progress)
    (lt : count ≤ lastUnit total + 1) (counted : count ≤ total / 255)
    (moved : progress memory count) (pos : 1 ≤ count) :
    progress (creation.maxsizeLoop count (2 * (count - 1)) memory) 1 := by
  induction count generalizing memory with
  | zero => exact absurd pos (by omega)
  | succ count ih =>
    cases count with
    | zero => exact moved
    | succ unit =>
      have full : unitLen total (unit + 1) = 255 := by
        unfold unitLen
        omega
      have carrying : (decide (unit + 2 = creation.params.numMaxsizefrags) &&
          decide (creation.params.smallerfragSize = 0)) = decide (unit + 1 = lastUnit total) := by
        rw [cutting.numMaxsizefrags, cutting.smallerfragSize, ← Bool.decide_and]
        apply decide_eq_decide.mpr
        unfold lastUnit
        omega
      have next := cutting.transfer memory (unit + 1) (by omega) (by omega) moved
      rw [full, ← carrying] at next
      have rest := ih (by omega) (by omega) next (by omega)
      unfold FragseqCreation.maxsizeLoop
      rw [cutting.info.2.1, cutting.info.2.2.1]
      exact rest

theorem Cutting.units (cutting : Cutting creation total fragid progress) (small : total < 65536 * 255)
    (start : progress before (lastUnit total + 1)) : ∃ after, progress after 1 ∧ ∀ extn id idext,
      creation.create extn id idext before = creation.leadHeader extn id idext (if creation.inlineFrag then after
        else after.move (creation.fragbuff + 2) (creation.payloadbuff + 2) 255) := by
  have large := cutting.large
  have counter : total / 255 % 2 ^ 16 = total / 255 := Nat.mod_eq_of_lt (by omega)
  by_cases smaller : total % 255 = 0
  · -- the last unit is one of the maximal size
    have last : lastUnit total + 1 = total / 255 := by
      unfold lastUnit
      omega
    have moved := cutting.maxsizeLoop le_rfl (by omega) start (by omega)
    refine ⟨_, moved, fun extn id idext => ?_⟩
    unfold create
    dsimp only
    rw [cutting.smallerfragSize, cutting.extrahdrbytes, cutting.numMaxsizefrags, counter,
      cutting.info.2.1, cutting.info.2.2.1, if_neg (not_not.mpr smaller),
      if_neg (not_not.mpr smaller), ← last, Nat.add_sub_cancel]
  · have last : lastUnit total = total / 255 := by
      unfold lastUnit
      omega
    have lastLen := unitLen_last (by omega : 0 < total)
    have remainder : total - 255 * lastUnit total = total % 255 := by
      omega
    have remaining : 2 * (total / 255) - 2 = 2 * (total / 255 - 1) := by omega
    have first := cutting.transfer before _ (by omega) le_rfl start
    have moved := cutting.maxsizeLoop (by omega) (by omega) first (by omega)
    refine ⟨_, moved, fun extn id idext => ?_⟩
    unfold create
    dsimp only
    rw [cutting.smallerfragSize, cutting.extrahdrbytes, cutting.numMaxsizefrags, counter,
      cutting.info.2.1, cutting.info.2.2.1, if_pos smaller, if_pos smaller, lastLen, remainder,
      last, remaining, decide_eq_true rfl]

theorem leadHeader_bytes {extn : Bool} (memory : ByteMemory) (id idext : BitVec 8)
    (maximum : creation.info.maxpayloadlen = 255) (idPos : creation.info.idPos = 0)
    (lenPos : creation.info.lenPos = 1) (extnPos : extn = true → creation.info.idextPos = some 2)
    (start : (if creation.inlineFrag then creation.payloadbuff else creation.fragbuff) = base) :
    creation.leadHeader extn id idext memory base = id ∧ creation.leadHeader extn id idext memory (base + 1) = 255 ∧
      (extn = true → creation.leadHeader extn id idext memory (base + 2) = idext) ∧
      ∀ place, (place < base ∨ base + 2 ≤ place) → ¬ (extn = true ∧ place = base + 2) →
        creation.leadHeader extn id idext memory place = memory place := by
  have headed : creation.leadHeader extn id idext memory =
      if extn then ((memory.set base id).set (base + 1) 255).set (base + 2) idext
      else (memory.set base id).set (base + 1) 255 := by
    unfold FragseqCreation.leadHeader
    rw [start, maximum, idPos, lenPos]
    cases extn with
    | false => rfl
    | true =>
      rw [extnPos rfl]
      rfl
  rw [headed]
  refine ⟨?_, ?_, fun extended => ?_, fun place away plain => ?_⟩
  · split
    · rw [set_other (by omega), set_other (by omega), set_here]
    · rw [set_other (by omega), set_here]
  · split
    · rw [set_other (by omega), set_here]
    · rw [set_here]
  · rw [if_pos extended, set_here]
  · split
    · rename_i extended
      have apart : place ≠ base + 2 := fun same => plain ⟨extended, same⟩
      rw [set_other apart, set_other (by omega), set_other (by omega)]
    · rw [set_other (by omega), set_other (by omega)]

end Cutting

/-- The units from `unit` on are at `dest`, with the information behind the header at `source`. -/
structure Units (before memory : ByteMemory) (source dest total : Nat) (fragid : BitVec 8) (unit : Nat) : Prop where
  fragids : ∀ above, unit ≤ above → above ≤ lastUnit total → memory (dest + 257 * above) = fragid
  lens : ∀ above, unit ≤ above → above ≤ lastUnit total →
    memory (dest + 257 * above + 1) = BitVec.ofNat 8 (unitLen total above)
  body : ∀ above, unit ≤ above → above ≤ lastUnit total → ∀ offset, offset < unitLen total above →
    memory (dest + 257 * above + 2 + offset) = before (source + 2 + (255 * above + offset))

/-- What follows the payload has moved with the last unit, and the information below is untouched. -/
structure Laid (before memory : ByteMemory) (base size total : Nat) (fragid : BitVec 8)
    (unit : Nat) : Prop extends Units before memory base base total fragid unit where
  source : ∀ place, place < 2 + 255 * unit ∨ lastUnit total < unit → memory (base + place) = before (base + place)
  rest : unit ≤ lastUnit total → ∀ place, place < size - fragseqLen total →
    memory (base + fragseqLen total + place) = before (base + 2 + total + place)
  outside : ∀ place, place < base ∨ base + size ≤ place → memory place = before place

def placeUnit (memory : ByteMemory) (source dest total : Nat) (fragid : BitVec 8) (unit moved : Nat) : ByteMemory :=
  ((memory.move (dest + 257 * unit + 2) (source + (2 + 255 * unit)) moved).set (dest + 257 * unit) fragid).set
    (dest + 257 * unit + 1) (BitVec.ofNat 8 (unitLen total unit))

section Creating

variable {before memory : ByteMemory} {source dest base size total unit moved : Nat} {fragid : BitVec 8}

theorem Units.start : Units before memory source dest total fragid (lastUnit total + 1) where
  fragids := fun above low high => absurd low (by omega)
  lens := fun above low high => absurd low (by omega)
  body := fun above low high => absurd low (by omega)

theorem placeUnit_inside (below : offset < moved) : placeUnit memory source dest total fragid unit moved
    (dest + 257 * unit + 2 + offset) = memory (source + (2 + 255 * unit) + offset) := by
  unfold placeUnit
  rw [set_other (by omega), set_other (by omega), move_inside below]

theorem placeUnit_outside (away : place < dest + 257 * unit ∨ dest + 257 * unit + 2 + moved ≤ place) :
    placeUnit memory source dest total fragid unit moved place = memory place := by
  unfold placeUnit
  rw [set_other (by omega), set_other (by omega), move_outside (by omega)]

theorem Units.place (units : Units before memory source dest total fragid (unit + 1))
    (enough : unitLen total unit ≤ moved) (room : unit < lastUnit total → moved ≤ 255)
    (same : ∀ offset, offset < unitLen total unit →
      memory (source + (2 + 255 * unit) + offset) = before (source + 2 + (255 * unit + offset))) :
    Units before (placeUnit memory source dest total fragid unit moved) source dest total fragid unit where
  fragids := fun above low high => by
    by_cases here : above = unit
    · rw [here]
      exact (set_other (by omega)).trans set_here
    · rw [placeUnit_outside (by omega)]
      exact units.fragids above (by omega) high
  lens := fun above low high => by
    by_cases here : above = unit
    · rw [here]
      exact set_here
    · rw [placeUnit_outside (by omega)]
      exact units.lens above (by omega) high
  body := fun above low high offset below => by
    by_cases here : above = unit
    · rw [here] at below ⊢
      rw [placeUnit_inside (by omega)]
      exact same offset below
    · rw [placeUnit_outside (by omega)]
      exact units.body above (by omega) high offset below

def movedBytes (size total unit : Nat) : Nat :=
  unitLen total unit + if unit = lastUnit total then size - fragseqLen total else 0

theorem movedBytes_le (fits : fragseqLen total ≤ size) (pos : 0 < total)
    (lt : unit ≤ lastUnit total) : 257 * unit + 2 + movedBytes size total unit ≤ size ∧
      (unit < lastUnit total → movedBytes size total unit = 255) := by
  obtain ⟨low, high⟩ := lastUnit_bounds pos
  have last := unitLen_last pos
  unfold movedBytes
  by_cases here : unit = lastUnit total
  · rw [if_pos here, here]
    unfold fragseqLen at fits ⊢
    omega
  · have full : unitLen total unit = 255 := unitLen_full (by omega)
    rw [if_neg here]
    unfold fragseqLen at fits
    omega

theorem Laid.place (laid : Laid before memory base size total fragid (unit + 1))
    (fits : fragseqLen total ≤ size) (large : 255 < total) (nonlead : 1 ≤ unit) (lt : unit ≤ lastUnit total) :
    Laid before (placeUnit memory base base total fragid unit (movedBytes size total unit)) base size total fragid
      unit := by
  have pos : 0 < total := by omega
  obtain ⟨moved, full⟩ := movedBytes_le fits pos lt
  have bounds := unitLen_bounds pos lt
  exact {
    laid.toUnits.place (Nat.le_add_right ..) (fun below => (full below).le) fun offset below => by
      rw [add_assoc base, laid.source _ (.inl (by omega))]
      congr 1
      omega with
    source := fun place below => by
      rw [placeUnit_outside (by omega)]
      exact laid.source place (.inl (by omega))
    rest := fun _ place below => by
      have last := unitLen_last pos
      have bound := lastUnit_bounds pos
      by_cases here : unit = lastUnit total
      · -- what follows moves with the last unit
        have count : movedBytes size total unit = unitLen total unit + (size - fragseqLen total) := by
          unfold movedBytes
          rw [if_pos here]
        have target : base + fragseqLen total + place = base + 257 * unit + 2 + (unitLen total unit + place) := by
          unfold fragseqLen
          rw [here]
          omega
        rw [target, placeUnit_inside (by omega), add_assoc base, laid.source _ (.inr (by omega))]
        congr 1
        rw [here]
        omega
      · rw [placeUnit_outside (by unfold fragseqLen; omega)]
        exact laid.rest (by omega) place below
    outside := fun place away => by
      rw [placeUnit_outside (by omega)]
      exact laid.outside place away }

structure Inline (creation : FragseqCreation) (base size total : Nat) (fragid : BitVec 8) : Prop
    extends Sized creation total fragid where
  inlineFrag : creation.inlineFrag = true
  payloadbuff : creation.payloadbuff = base
  payloadbuffMaxsize : creation.payloadbuffMaxsize = size
  payload : creation.params.prepayloadLeadbytes + creation.payloadlen = 2 + total
  fits : fragseqLen total ≤ size

variable {creation : FragseqCreation}

theorem Inline.transfer (inlined : Inline creation base size total fragid) (nonlead : 1 ≤ unit)
    (lt : unit ≤ lastUnit total) :
    creation.transfer memory unit (unitLen total unit) (decide (unit = lastUnit total)) (2 * unit) =
      placeUnit memory base base total fragid unit (movedBytes size total unit) := by
  obtain ⟨sameId, hdr, maximum, idPos, lenPos⟩ := inlined.info
  have fits := inlined.fits
  have payload := inlined.payload
  have follows : size - creation.params.prepayloadLeadbytes - creation.payloadlen - 2 * unit =
      size - (2 + total) - 2 * unit := by omega
  have room : size > 2 + total := by
    unfold fragseqLen at fits
    omega
  have shift : base + (2 + unit * 255) + 2 * unit > base + (2 + unit * 255) := by omega
  have amount : (if decide (unit = lastUnit total) then unitLen total unit + (size - (2 + total) - 2 * unit)
      else unitLen total unit) = movedBytes size total unit := by
    unfold movedBytes fragseqLen
    by_cases here : unit = lastUnit total
    · rw [if_pos (decide_eq_true here), if_pos here]
      omega
    · rw [if_neg (by simpa using here), if_neg here, add_zero]
  have target : base + (2 + unit * 255) + 2 * unit = base + 257 * unit + 2 := by omega
  have place : base + (2 + unit * 255) = base + (2 + 255 * unit) := by omega
  unfold FragseqCreation.transfer
  rw [sameId, hdr, maximum, idPos, lenPos, inlined.inlineFrag, inlined.payloadbuff, inlined.payloadbuffMaxsize, payload]
  simp only [Bool.true_and, decide_eq_true shift, decide_eq_true room, if_true, Bool.and_true, Nat.add_sub_cancel_left]
  rw [follows, amount, target, place]
  rfl

theorem Inline.cutting (inlined : Inline creation base size total fragid) :
    Cutting creation total fragid fun memory => Laid before memory base size total fragid where
  toSized := inlined.toSized
  transfer := fun _ _ nonlead lt laid => by
    rw [inlined.transfer nonlead lt]
    exact laid.place inlined.fits inlined.large nonlead lt

/-- The information that the fragment sequence carries: the bytes behind the header, with the
extension id in front where there is one. -/
def carriedInformation (before : ByteMemory) (base : Nat) (extn : Bool) (idext : BitVec 8) : Nat → BitVec 8 :=
  fun offset => if extn = true ∧ offset = 0 then idext else before (base + 2 + offset)

/-- The lead header completes the units above it, where the bytes behind it are those of the lead unit. -/
theorem Sized.fragSeq {filled : ByteMemory} (sized : Sized creation total fragid)
    (units : Units before memory source dest total fragid 1) (id idext : BitVec 8)
    (higher : ∀ place, dest + 257 ≤ place → filled place = memory place)
    (lead : ∀ offset, offset < 255 → filled (dest + 2 + offset) = before (source + 2 + offset))
    (extnPos : extn = true → creation.info.idextPos = some 2)
    (start : (if creation.inlineFrag then creation.payloadbuff else creation.fragbuff) = dest) :
    FragSeq (creation.leadHeader extn id idext filled) dest total id fragid
        (carriedInformation before source extn idext) ∧
      ∀ place, place < dest ∨ dest + 257 ≤ place → creation.leadHeader extn id idext filled place = filled place := by
  have large := sized.large
  obtain ⟨-, -, maximum, idPos, lenPos⟩ := sized.info
  obtain ⟨leadId, leadLen, extension, others⟩ := leadHeader_bytes filled id idext maximum idPos lenPos extnPos start
  have full : unitLen total 0 = 255 := by
    unfold unitLen
    omega
  refine ⟨⟨leadId, ?_, ?_, ?_⟩, fun place away => others _ (by omega) (fun both => by omega)⟩
  · intro unit low high
    rw [others _ (by omega) (by omega), higher _ (by omega)]
    exact units.fragids unit low high
  · intro unit high
    by_cases lead : unit = 0
    · rw [lead, full]
      exact leadLen
    · rw [others _ (by omega) (by omega), higher _ (by omega)]
      exact units.lens unit (by omega) high
  · intro unit high off lt
    unfold carriedInformation
    by_cases first : unit = 0
    · rw [first] at lt ⊢
      by_cases both : extn = true ∧ off = 0
      · rw [if_pos ⟨both.1, by omega⟩, both.2]
        exact extension both.1
      · rw [if_neg (fun own => both ⟨own.1, by omega⟩), others _ (by omega)
          (fun own => both ⟨own.1, by omega⟩), Nat.zero_add]
        exact lead off (by omega)
    · rw [if_neg (fun both => first (by omega)), others _ (by omega) (fun both => first (by omega)),
        higher _ (by omega)]
      exact units.body unit (by omega) high off lt

theorem Inline.created (before : ByteMemory) (id idext : BitVec 8)
    (inlined : Inline creation base size total fragid) (small : total < 65536 * 255)
    (extnPos : extn = true → creation.info.idextPos = some 2) :
    FragSeq (creation.create extn id idext before) base total id fragid
        (carriedInformation before base extn idext) ∧ (∀ place, place < size - fragseqLen total →
        creation.create extn id idext before (base + fragseqLen total + place) = before (base + 2 + total + place)) ∧
      ∀ place, place < base ∨ base + size ≤ place → creation.create extn id idext before place = before place := by
  obtain ⟨memory, laid, created⟩ := inlined.cutting.units small (⟨.start, fun _ _ => rfl, fun low => absurd low (by omega),
    fun _ _ => rfl⟩ : Laid before ..)
  have large := inlined.large
  have fits := inlined.fits
  have bounds := lastUnit_bounds (by omega : 0 < total)
  rw [created, inlined.inlineFrag, if_pos rfl]
  obtain ⟨seq, others⟩ := inlined.fragSeq laid.toUnits id idext (fun _ _ => rfl) (fun offset below => by
    rw [add_assoc, laid.source _ (.inl (by omega))]) extnPos (by rw [inlined.inlineFrag]; exact inlined.payloadbuff)
  unfold fragseqLen at fits
  refine ⟨seq, fun place lt => ?_, fun place away => ?_⟩
  · rw [others _ (by unfold fragseqLen; omega)]
    exact laid.rest (by omega) place lt
  · rw [others _ (by omega)]
    exact laid.outside place away

end Creating

end KernelModules.Wlan

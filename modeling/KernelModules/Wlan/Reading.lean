import KernelModules.Wlan.Accesses

namespace KernelModules.Wlan

open Data ByteMemory

/-- What follows the fragment sequence is empty, or starts with a complete element unit that is
no fragment. -/
def Follows (memory : ByteMemory) (place length : Nat) (fragid : BitVec 8) : Prop :=
  length = 0 ∨ 2 ≤ length ∧ 2 + (memory (place + 1)).toNat ≤ length ∧ memory place ≠ fragid

section Scan

variable {memory : ByteMemory} {base total follows unit : Nat} {id fragid : BitVec 8}
  {content : Nat → BitVec 8} {isSubelem : Bool} {subelemfragid : BitVec 8}

theorem FragSeq.len (seq : FragSeq memory base total id fragid content) (pos : 0 < total)
    (within : unit ≤ lastUnit total) : (memory (base + 257 * unit + 1)).toNat = unitLen total unit := by
  have bounds := unitLen_bounds pos within
  rw [seq.lens unit within, BitVec.toNat_ofNat, Nat.mod_eq_of_lt (by omega)]

theorem FragSeq.successor (seq : FragSeq memory base total id fragid content)
    (large : 255 < total) (before : unit < lastUnit total) (follows : Nat)
    (sameId : (wlanGetElemunitInfo isSubelem subelemfragid).fragid = fragid) :
    wlanGetElemsubelemSuccessorfrag memory isSubelem subelemfragid (base + 257 * unit) base
        (fragseqLen total + follows) =
      .ok (some ⟨base + 257 * (unit + 1), 2 + unitLen total (unit + 1), unitLen total (unit + 1)⟩) := by
  obtain ⟨maximum, idPos, lenPos, hdr⟩ := elemunitInfo_eq isSubelem subelemfragid
  have bounds := lastUnit_bounds (by omega : 0 < total)
  have full := unitLen_full before
  have nextBounds := unitLen_bounds (by omega : 0 < total) (by omega : unit + 1 ≤ lastUnit total)
  have nextEnd : 257 * (unit + 1) + 2 + unitLen total (unit + 1) ≤ fragseqLen total := by
    unfold unitLen fragseqLen
    omega
  have next : base + 257 * unit + (2 + 255) = base + 257 * (unit + 1) := by omega
  unfold wlanGetElemsubelemSuccessorfrag
  dsimp only
  rw [hdr, maximum, idPos, lenPos, seq.len (by omega) (by omega : unit ≤ lastUnit total),
    full, next, seq.len (by omega) (by omega : unit + 1 ≤ lastUnit total),
    seq.fragids (unit + 1) (by omega) (by omega), sameId]
  rw [if_neg (by omega), if_neg (by omega), if_neg (by omega), if_neg (by omega),
    if_neg (by omega), if_neg (by omega), if_neg (not_not.mpr rfl), if_neg (not_not.mpr rfl), if_neg (by omega)]

section

variable (seq : FragSeq memory base total id fragid content) (large : 255 < total)
  (after : Follows memory (base + fragseqLen total) follows fragid)
  (sameId : (wlanGetElemunitInfo isSubelem subelemfragid).fragid = fragid)
include seq large after sameId

theorem FragSeq.ends : wlanGetElemsubelemSuccessorfrag memory isSubelem subelemfragid
      (base + 257 * lastUnit total) base (fragseqLen total + follows) = .ok none := by
  obtain ⟨maximum, idPos, lenPos, hdr⟩ := elemunitInfo_eq isSubelem subelemfragid
  have bounds := lastUnit_bounds (by omega : 0 < total)
  have last := unitLen_last (by omega : 0 < total)
  have next : base + 257 * lastUnit total + (2 + (total - 255 * lastUnit total)) = base + fragseqLen total := by
    unfold fragseqLen
    omega
  unfold wlanGetElemsubelemSuccessorfrag
  dsimp only
  rw [hdr, idPos, lenPos, seq.len (by omega) le_rfl, last, next, add_zero (base + fragseqLen total), sameId]
  rw [if_neg (by omega), if_neg (by omega), if_neg (by omega)]
  rcases after with empty | ⟨room, complete, other⟩
  · rw [if_pos (by omega)]
  · rw [if_neg (by omega), if_neg (by omega), if_neg (by omega), if_pos other]

theorem FragSeq.infoLoop (unit left lead : Nat) (within : unit + left = lastUnit total) (small : lead ≤ 255 * unit) :
    fragseqInfoLoop memory isSubelem subelemfragid base (fragseqLen total + follows) (base + 257 * unit)
        ⟨257 * unit + (2 + unitLen total unit), 255 * unit - lead + unitLen total unit⟩ =
      .ok ⟨fragseqLen total, total - lead⟩ := by
  induction left generalizing unit with
  | zero =>
    rw [add_zero] at within
    have last := unitLen_last (by omega : 0 < total)
    have bounds := lastUnit_bounds (by omega : 0 < total)
    have ended := seq.ends large after sameId
    rw [within, fragseqInfoLoop]
    split
    · rename_i failed
      rw [ended] at failed
      cases failed
    · unfold fragseqLen
      congr 2 <;> omega
    · rename_i found
      rw [ended] at found
      cases found
  | succ left ih =>
    have next := seq.successor large (by omega : unit < lastUnit total) follows sameId
    have full := unitLen_full (by omega : unit < lastUnit total)
    rw [fragseqInfoLoop]
    split
    · rename_i failed
      rw [next] at failed
      cases failed
    · rename_i ended
      rw [next] at ended
      cases ended
    rename_i frag found
    rw [next] at found
    cases found
    have totals : 257 * unit + (2 + unitLen total unit) = 257 * (unit + 1) := by omega
    have payloads : 255 * unit - lead + unitLen total unit = 255 * (unit + 1) - lead := by omega
    rw [totals, payloads]
    exact ih (unit + 1) (by omega) (by omega)

theorem FragSeq.info : wlanGetElemsubelemFragseqInfo memory isSubelem subelemfragid (some base)
        (fragseqLen total + follows) =
      .ok (some ⟨fragseqLen total, total - if isExtnElem isSubelem id then 1 else 0⟩) := by
  obtain ⟨-, idPos, lenPos, hdr⟩ := elemunitInfo_eq isSubelem 0
  have bounds := lastUnit_bounds (by omega : 0 < total)
  have next := seq.successor large (by omega : 0 < lastUnit total) follows sameId
  have full := unitLen_full (by omega : 0 < lastUnit total)
  have leadLen : (memory (base + 1)).toNat = 255 :=
    (seq.len (by omega) (Nat.zero_le _)).trans full
  have lead : leadPayloadlen memory isSubelem (wlanGetElemunitInfo isSubelem 0) base =
      255 - if isExtnElem isSubelem id then 1 else 0 := by
    unfold leadPayloadlen
    rw [idPos, lenPos, Nat.add_zero, seq.leadId, leadLen]
    split <;> rfl
  rw [Nat.add_zero] at next
  unfold wlanGetElemsubelemFragseqInfo
  dsimp only
  rw [hdr, lenPos, leadLen, if_neg (by unfold fragseqLen; omega),
    if_neg (by unfold fragseqLen; omega), if_neg (by unfold fragseqLen; omega), next]
  dsimp only
  rw [lead]
  have rest := seq.infoLoop large after sameId 1 (lastUnit total - 1)
    (if isExtnElem isSubelem id then 1 else 0) (by omega) (by split <;> omega)
  rw [rest]
  rfl

end

/-- The loop has moved `moved` bytes of information, from the second unit on, to `target`. -/
structure Swept (before memory : ByteMemory) (target moved : Nat) (content : Nat → BitVec 8) : Prop where
  front : ∀ offset, offset < moved → memory (target + offset) = content (255 + offset)
  others : ∀ place, place < target ∨ target + moved ≤ place → memory place = before place

/-- The units still to be read stay as they are: the target is behind them, or in front of them and written no
faster than they are read. -/
def Clear (base size target : Nat) : Prop := target ≤ base + 257 ∨ base + size ≤ target

structure SweptAll (before : ByteMemory) (base total follows lead target : Nat)
    (content : Nat → BitVec 8) (state : DefragState) : Prop where
  swept : Swept before state.memory target (total - 255) content
  payload : state.defragpayloadCurrlen = total - lead
  remaining : state.fragbuffRemlen = follows
  places : follows ≠ 0 → state.curr = base + fragseqLen total ∧ state.dst = target + (total - 255)

section Sweeping

variable {before : ByteMemory} {target : Nat}

theorem Swept.back (swept : Swept before memory target moved content)
    (clear : Clear base (fragseqLen total + follows) target) (behind : base + 257 + moved ≤ place)
    (inside : place < base + (fragseqLen total + follows)) : memory place = before place := by
  apply swept.others
  rcases clear with lower | higher
  · omega
  · omega

section

variable (swept : Swept before memory target (255 * (unit - 1)) content)
  (seq : FragSeq before base total id fragid content) (large : 255 < total)
  (clear : Clear base (fragseqLen total + follows) target) (nonlead : 1 ≤ unit)
  (within : unit ≤ lastUnit total)
include swept seq large clear nonlead within

theorem Swept.header : memory (base + 257 * unit) = fragid ∧
      (memory (base + 257 * unit + 1)).toNat = unitLen total unit := by
  have bounds := lastUnit_bounds (by omega : 0 < total)
  have named : memory (base + 257 * unit) = before (base + 257 * unit) :=
    swept.back clear (by omega) (by unfold fragseqLen; omega)
  have len : memory (base + 257 * unit + 1) = before (base + 257 * unit + 1) :=
    swept.back clear (by omega) (by unfold fragseqLen; omega)
  rw [named, len]
  exact ⟨seq.fragids unit nonlead within, seq.len (by omega) within⟩

theorem Swept.next : Swept before (memory.move (target + 255 * (unit - 1)) (base + 257 * unit + 2)
      (unitLen total unit)) target (255 * (unit - 1) + unitLen total unit) content := by
  have bounds := lastUnit_bounds (by omega : 0 < total)
  have unitEnd : 257 * unit + 2 + unitLen total unit ≤ fragseqLen total := by
    unfold unitLen fragseqLen
    omega
  refine ⟨fun off lt => ?_, fun place away => ?_⟩
  · by_cases old : off < 255 * (unit - 1)
    · rw [move_outside (.inl (by omega))]
      exact swept.front off old
    · obtain ⟨rest, rfl⟩ : ∃ rest, off = 255 * (unit - 1) + rest :=
        ⟨off - 255 * (unit - 1), by omega⟩
      have information : 255 + (255 * (unit - 1) + rest) = 255 * unit + rest := by omega
      rw [← add_assoc, move_inside (by omega), swept.back clear (by omega) (by omega), information]
      exact seq.body unit within rest (by omega)
  · rw [move_outside (by omega)]
    exact swept.others place (by omega)

end

theorem defragLoop_stops (other : state.memory (state.curr + (wlanGetElemunitInfo isSubelem subelemfragid).idPos) ≠
      (wlanGetElemunitInfo isSubelem subelemfragid).fragid) : defragLoop isSubelem subelemfragid state = state := by
  rw [defragLoop]
  exact if_neg other

theorem defragLoopAccesses_stops
    (other : state.memory (state.curr + (wlanGetElemunitInfo isSubelem subelemfragid).idPos) ≠
      (wlanGetElemunitInfo isSubelem subelemfragid).fragid) : defragLoopAccesses isSubelem subelemfragid state =
      [.read (state.curr + (wlanGetElemunitInfo isSubelem subelemfragid).idPos) 1] := by
  rw [defragLoopAccesses]
  rw [if_neg other]

section

variable (seq : FragSeq before base total id fragid content) (large : 255 < total)
  (after : Follows before (base + fragseqLen total) follows fragid)
  (sameId : (wlanGetElemunitInfo isSubelem subelemfragid).fragid = fragid)
  (clear : Clear base (fragseqLen total + follows) target)
include seq large after sameId clear

theorem Swept.loop (left lead : Nat)
    (within : unit + left = lastUnit total) (nonlead : 1 ≤ unit) (small : lead ≤ 255 * unit)
    (swept : Swept before memory target (255 * (unit - 1)) content) :
    SweptAll before base total follows lead target content
        (defragLoop isSubelem subelemfragid ⟨memory, base + 257 * unit, target + 255 * (unit - 1),
          fragseqLen total + follows - 257 * unit, 255 * unit - lead⟩) ∧
      ∀ low high, low ≤ target → target + (total - 255) ≤ high →
        AllConfined base (base + (fragseqLen total + follows)) low high
          (defragLoopAccesses isSubelem subelemfragid ⟨memory, base + 257 * unit,
            target + 255 * (unit - 1), fragseqLen total + follows - 257 * unit, 255 * unit - lead⟩) := by
  obtain ⟨-, idPos, lenPos, hdr⟩ := elemunitInfo_eq isSubelem subelemfragid
  have bounds := lastUnit_bounds (by omega : 0 < total)
  have last := unitLen_last (by omega : 0 < total)
  have room : fragseqLen total = total + 2 * (lastUnit total + 1) := rfl
  have moved := swept.next seq large clear nonlead (by omega)
  obtain ⟨named, count⟩ := swept.header seq large clear nonlead (by omega)
  induction left generalizing unit memory with
  | zero =>
    obtain rfl : unit = lastUnit total := by omega
    have information : 255 * (lastUnit total - 1) + (total - 255 * lastUnit total) = total - 255 := by omega
    have unitEnd : base + 257 * lastUnit total + (2 + (total - 255 * lastUnit total)) =
        base + fragseqLen total := by omega
    have leaves : fragseqLen total + follows - 257 * lastUnit total -
        (2 + (total - 255 * lastUnit total)) = follows := by omega
    have payload : 255 * lastUnit total - lead + (total - 255 * lastUnit total) = total - lead := by
      omega
    rw [last, information] at moved
    have other : follows ≠ 0 → memory.move (target + 255 * (lastUnit total - 1))
        (base + 257 * lastUnit total + 2) (total - 255 * lastUnit total) (base + fragseqLen total) ≠ fragid := by
      intro more
      rw [moved.back clear (by omega) (by omega)]
      exact (after.resolve_left more).2.2
    refine ⟨?_, fun low high lower upper => ?_⟩
    · rw [defragLoop]
      dsimp only
      rw [hdr, idPos, lenPos, add_zero, sameId, if_pos named, count, last, leaves, payload,
        unitEnd, add_assoc target, information]
      split
      · rename_i empty
        exact ⟨moved, rfl, rfl, absurd empty⟩
      · rename_i more
        rw [defragLoop_stops (by rw [idPos, sameId]; exact other more)]
        exact ⟨moved, rfl, rfl, fun _ => ⟨rfl, rfl⟩⟩
    · rw [defragLoopAccesses]
      dsimp only
      rw [hdr, idPos, lenPos, add_zero, sameId, if_pos named, count, last, leaves, unitEnd]
      refine .cons ⟨by omega, by omega⟩ (.cons ⟨by omega, by omega⟩ (.cons ⟨by omega, by omega⟩
        (.cons ⟨by omega, by omega⟩ (.cons ⟨by omega, by omega⟩ (.checked fun more => ?_)))))
      rw [defragLoopAccesses_stops (by rw [idPos, sameId]; exact other more)]
      exact .cons ⟨by dsimp only; omega, by dsimp only; omega⟩ .nil
  | succ left ih =>
    have full := unitLen_full (by omega : unit < lastUnit total)
    have further : 255 * (unit - 1) + 255 = 255 * (unit + 1 - 1) := by omega
    rw [full, further] at moved
    obtain ⟨nextNamed, nextCount⟩ := moved.header seq large clear (by omega) (by omega)
    obtain ⟨rest, confined⟩ := ih (by omega) (by omega) (by omega) moved
      (moved.next seq large clear (by omega) (by omega)) nextNamed nextCount
    have curr : base + 257 * unit + (2 + 255) = base + 257 * (unit + 1) := by omega
    have remains : fragseqLen total + follows - 257 * unit - (2 + 255) =
        fragseqLen total + follows - 257 * (unit + 1) := by omega
    have payload : 255 * unit - lead + 255 = 255 * (unit + 1) - lead := by omega
    refine ⟨?_, fun low high lower upper => ?_⟩
    · rw [defragLoop]
      dsimp only
      rw [hdr, idPos, lenPos, add_zero, sameId, if_pos named, count, full, remains,
        if_neg (by omega), curr, payload, add_assoc target, further]
      exact rest
    · rw [defragLoopAccesses]
      dsimp only
      rw [hdr, idPos, lenPos, add_zero, sameId, if_pos named, count, full, remains, curr,
        payload, add_assoc target, further]
      exact .cons ⟨by omega, by omega⟩ (.cons ⟨by omega, by omega⟩ (.cons ⟨by omega, by omega⟩
        (.cons ⟨by omega, by omega⟩ (.cons ⟨by omega, by omega⟩
          (.checked fun _ => confined low high lower upper)))))

theorem FragSeq.swept (small : lead ≤ 1) :
    SweptAll before base total follows lead target content (defragLoop isSubelem subelemfragid
          ⟨before, base + 257, target, fragseqLen total + follows - 257, 255 - lead⟩) ∧
      ∀ low high, low ≤ target → target + (total - 255) ≤ high →
        AllConfined base (base + (fragseqLen total + follows)) low high (defragLoopAccesses isSubelem subelemfragid
            ⟨before, base + 257, target, fragseqLen total + follows - 257, 255 - lead⟩) := by
  have bounds := lastUnit_bounds (by omega : 0 < total)
  exact Swept.loop seq large after sameId clear (lastUnit total - 1) lead (by omega) (le_refl 1) (by omega)
    ⟨fun off lt => absurd lt (Nat.not_lt_zero off), fun _ _ => rfl⟩

end

end Sweeping

theorem FragSeq.lead (seq : FragSeq memory base total id fragid content)
    (large : 255 < total) {lead : Nat} (leadIs : lead = if isExtnElem isSubelem id then 1 else 0) :
    (memory (base + 1)).toNat = 255 ∧
      leadPayloadlen memory isSubelem (wlanGetElemunitInfo isSubelem subelemfragid) base = 255 - lead ∧
      (if isExtnElem isSubelem id then base + 2 + 1 else base + 2) = base + 2 + lead ∧
      ∀ offset, offset < 255 → memory (base + 2 + offset) = content offset := by
  obtain ⟨-, idPos, lenPos, -⟩ := elemunitInfo_eq isSubelem subelemfragid
  have bounds := lastUnit_bounds (by omega : 0 < total)
  have full := unitLen_full (by omega : 0 < lastUnit total)
  have leadLen : (memory (base + 1)).toNat = 255 :=
    (seq.len (by omega) (Nat.zero_le _)).trans full
  refine ⟨leadLen, ?_, ?_, fun offset lt => ?_⟩
  · unfold leadPayloadlen
    rw [idPos, lenPos, Nat.add_zero, seq.leadId, leadLen, leadIs]
    split <;> rfl
  · rw [leadIs]
    split <;> rfl
  · have same := seq.body 0 (Nat.zero_le _) offset (by omega)
    rwa [Nat.zero_add] at same

theorem FragSeq.congr (seq : FragSeq before base total id fragid content) (pos : 0 < total)
    (same : ∀ place, base ≤ place → place < base + fragseqLen total → memory place = before place) :
    FragSeq memory base total id fragid content := by
  have bounds := lastUnit_bounds pos
  have len : fragseqLen total = total + 2 * (lastUnit total + 1) := rfl
  have unitEnd : ∀ unit, unit ≤ lastUnit total → 257 * unit + 2 + unitLen total unit ≤ fragseqLen total := by
    intro unit within
    unfold unitLen
    omega
  exact {
    leadId := by
      rw [same base le_rfl (by omega)]
      exact seq.leadId
    fragids := fun unit pos within => by
      rw [same _ (by omega) (by omega)]
      exact seq.fragids unit pos within
    lens := fun unit within => by
      rw [same _ (by omega) (by omega)]
      exact seq.lens unit within
    body := fun unit within off lt => by
      have ending := unitEnd unit within
      rw [same _ (by omega) (by omega)]
      exact seq.body unit within off lt }

theorem Follows.congr (after : Follows before place len fragid)
    (same : ∀ off, off < len → memory (place + off) = before (place + off)) : Follows memory place len fragid := by
  rcases after with empty | ⟨long, complete, other⟩
  · exact .inl empty
  · have first := same 0 (by omega)
    rw [add_zero] at first
    refine .inr ⟨long, ?_, by rw [first]; exact other⟩
    rw [same 1 (by omega)]
    exact complete

section

variable {before : ByteMemory} (seq : FragSeq before base total id fragid content)
  (large : 255 < total) (after : Follows before (base + fragseqLen total) follows fragid)
  (sameId : (wlanGetElemunitInfo isSubelem subelemfragid).fragid = fragid)
include seq large after sameId

theorem FragSeq.defrag (defragbuff : Option Nat) (defragbuffMaxsize : Nat) :
    ∃ memory, wlanDefragElemsubelemFragseq before true isSubelem subelemfragid (some base)
        (fragseqLen total + follows) defragbuff defragbuffMaxsize =
          .ok (memory, total - if isExtnElem isSubelem id then 1 else 0) ∧
      (∀ offset, offset < total → memory (base + 2 + offset) = content offset) ∧ (∀ offset, offset < follows →
        memory (base + 2 + total + offset) = before (base + fragseqLen total + offset)) ∧
      ∀ place, place < base + 2 ∨ base + (fragseqLen total + follows) ≤ place → memory place = before place := by
  obtain ⟨-, idPos, lenPos, hdr⟩ := elemunitInfo_eq isSubelem subelemfragid
  have reported := seq.info large after sameId
  generalize leadIs : (if isExtnElem isSubelem id then 1 else 0) = lead at reported ⊢
  have small : lead ≤ 1 := by
    rw [← leadIs]
    split <;> omega
  obtain ⟨leadLen, payload, src, first⟩ := @FragSeq.lead _ _ _ _ _ _ isSubelem subelemfragid seq large lead leadIs.symm
  have clear : Clear base (fragseqLen total + follows) (base + 257) := .inl le_rfl
  have done := (seq.swept large after sameId clear small).1
  have dst : base + 2 + lead + (255 - lead) = base + 257 := by omega
  have room : fragseqLen total = total + 2 * (lastUnit total + 1) := rfl
  unfold wlanDefragElemsubelemFragseq
  dsimp only
  rw [hdr, idPos, lenPos, add_zero, seq.leadId, leadLen, src, payload, reported, if_neg (by omega)]
  simp only [Bool.not_true, Bool.false_and, Bool.false_eq_true, if_false, if_true, Bool.true_and]
  rw [dst]
  generalize defragLoop isSubelem subelemfragid _ = state at done ⊢
  have information : ∀ offset, offset < total → state.memory (base + 2 + offset) = content offset := by
    intro offset lt
    by_cases lead : offset < 255
    · rw [done.swept.others _ (by omega)]
      exact first offset lead
    · obtain ⟨rest, rfl⟩ : ∃ rest, offset = 255 + rest := ⟨offset - 255, by omega⟩
      have place : base + 2 + (255 + rest) = base + 257 + rest := by omega
      rw [place]
      exact done.swept.front rest (by omega)
  rw [done.remaining, done.payload]
  by_cases empty : follows = 0
  · refine ⟨state.memory, ?_, information, fun offset lt => absurd lt (by omega),
      fun place away => done.swept.others place (by omega)⟩
    rw [if_neg (by simpa using empty)]
  obtain ⟨place, target⟩ := done.places empty
  refine ⟨state.memory.move state.dst state.curr follows, ?_, fun offset lt => ?_,
    fun offset lt => ?_, fun place away => ?_⟩
  · rw [if_pos (by simpa using empty)]
  · rw [move_outside (.inl (by omega))]
    exact information offset lt
  · have ending : base + 2 + total = base + 257 + (total - 255) := by omega
    rw [target, place, ending, move_inside lt]
    exact done.swept.others _ (by omega)
  · rw [move_outside (by omega)]
    exact done.swept.others place (by omega)

theorem FragSeq.defrag_copied {lead : Nat} (leadIs : lead = if isExtnElem isSubelem id then 1 else 0)
    (room : total - lead ≤ defragbuffMaxsize)
    (apart : defragbuff + (total - lead) ≤ base ∨ base + (fragseqLen total + follows) ≤ defragbuff) :
    ∃ memory, wlanDefragElemsubelemFragseq before false isSubelem subelemfragid (some base)
        (fragseqLen total + follows) (some defragbuff) defragbuffMaxsize = .ok (memory, total - lead) ∧
      (∀ off, off < total - lead → memory (defragbuff + off) = content (lead + off)) ∧
      ∀ place, place < defragbuff ∨ defragbuff + (total - lead) ≤ place → memory place = before place := by
  obtain ⟨-, idPos, lenPos, hdr⟩ := elemunitInfo_eq isSubelem subelemfragid
  have reported := seq.info large after sameId
  rw [← leadIs] at reported
  have small : lead ≤ 1 := by
    rw [leadIs]
    split <;> omega
  obtain ⟨leadLen, payload, src, first⟩ := @FragSeq.lead _ _ _ _ _ _ isSubelem subelemfragid seq large lead leadIs
  generalize copying : before.move defragbuff (base + 2 + lead) (255 - lead) = copied
  have kept : ∀ place, place < defragbuff ∨ defragbuff + (255 - lead) ≤ place → copied place = before place := by
    intro place away
    rw [← copying, move_outside away]
  have copiedSequence : FragSeq copied base total id fragid content :=
    seq.congr (by omega) fun place low high => kept place (by omega)
  have copiedAfter : Follows copied (base + fragseqLen total) follows fragid :=
    after.congr fun off lt => kept _ (by omega)
  have clear : Clear base (fragseqLen total + follows) (defragbuff + (255 - lead)) := by
    unfold Clear
    omega
  have done := (copiedSequence.swept large copiedAfter sameId clear small).1
  have len : fragseqLen total = total + 2 * (lastUnit total + 1) := rfl
  unfold wlanDefragElemsubelemFragseq
  dsimp only
  rw [hdr, idPos, lenPos, add_zero, seq.leadId, leadLen, src, payload, reported, if_neg (by omega)]
  simp only [Bool.not_false, Bool.true_and, Option.isNone_some, Bool.false_eq_true, if_false,
    Bool.false_and, Option.getD_some]
  rw [copying, if_neg (by simpa using (by omega : defragbuffMaxsize ≠ 0)), if_neg (by simpa using room)]
  generalize defragLoop isSubelem subelemfragid _ = state at done ⊢
  rw [done.payload]
  refine ⟨state.memory, rfl, fun off lt => ?_, fun place away => ?_⟩
  · by_cases early : off < 255 - lead
    · have same := first (lead + off) (by omega)
      rw [done.swept.others _ (.inl (by omega)), ← copying, move_inside early, add_assoc _ lead]
      exact same
    · obtain ⟨rest, rfl⟩ : ∃ rest, off = 255 - lead + rest := ⟨off - (255 - lead), by omega⟩
      have place : lead + (255 - lead + rest) = 255 + rest := by omega
      rw [← add_assoc, place]
      exact done.swept.front rest (by omega)
  · rw [done.swept.others _ (by omega)]
    exact kept place (by omega)

end

end Scan

end KernelModules.Wlan

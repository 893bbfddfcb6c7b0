import KernelModules.Wlan.Reading

namespace KernelModules.Wlan

open Data

/-- After the unit at `place` `frags` fragments, all but the last of length 255 and that of length `last`; behind
them the buffer ends at `limit` or goes on with a complete unit that is no fragment. -/
structure UnitRun (memory : ByteMemory) (place limit : Nat) (fragid : BitVec 8)
    (frags last : Nat) : Prop where
  fulls : ∀ unit, unit < frags → memory (place + 257 * unit + 1) = 255
  fragids : ∀ unit, 1 ≤ unit → unit ≤ frags → memory (place + 257 * unit) = fragid
  lastLen : (memory (place + 257 * frags + 1)).toNat = last
  fits : place + (257 * frags + 2 + last) ≤ limit
  after : Follows memory (place + (257 * frags + 2 + last))
    (limit - (place + (257 * frags + 2 + last))) fragid

/-- The buffer starts with a fragment sequence: a lead unit of length 255, then one or more
fragments, of which the last has a length from 1 to 255 and the others have length 255. -/
structure StartsWithFragseq (memory : ByteMemory) (buff buffMaxsize : Nat) (fragid : BitVec 8)
    (frags last : Nat) : Prop where
  run : UnitRun memory buff (buff + buffMaxsize) fragid frags last
  fragmented : 1 ≤ frags
  nonempty : 1 ≤ last

def sequenceContent (memory : ByteMemory) (base : Nat) : Nat → BitVec 8 :=
  fun offset => memory (base + 257 * (offset / 255) + 2 + offset % 255)

section Accepting

variable {memory : ByteMemory} {fragid : BitVec 8} {buff buffMaxsize frags last : Nat}

theorem successorfrag_some
    (found : wlanGetElemsubelemSuccessorfrag memory isSubelem subelemfragid curr buff buffMaxsize = .ok (some frag)) :
    memory (curr + 1) = 255 ∧ memory (curr + 257) = (wlanGetElemunitInfo isSubelem subelemfragid).fragid ∧
      0 < (memory (curr + 257 + 1)).toNat ∧ frag.place = curr + 257 := by
  obtain ⟨maximum, idPos, lenPos, hdr⟩ := elemunitInfo_eq isSubelem subelemfragid
  unfold wlanGetElemsubelemSuccessorfrag at found
  dsimp only at found
  rw [hdr, maximum, idPos, lenPos] at found
  iterate 9 rw [ite_eq_iff] at found
  simp only [reduceCtorEq, and_false, false_or, Except.ok.injEq, Option.some.injEq,
    add_zero, Decidable.not_not] at found
  obtain ⟨-, -, -, -, -, -, named, full, filled, rfl⟩ := found
  rw [full] at named filled
  exact ⟨BitVec.eq_of_toNat_eq full, named, pos_of_ne_zero filled, by rw [full]⟩

theorem successorfrag_none
    (ended : wlanGetElemsubelemSuccessorfrag memory isSubelem subelemfragid curr buff buffMaxsize = .ok none) :
    curr + (2 + (memory (curr + 1)).toNat) ≤ buff + buffMaxsize ∧
      Follows memory (curr + (2 + (memory (curr + 1)).toNat))
        (buff + buffMaxsize - (curr + (2 + (memory (curr + 1)).toNat)))
        (wlanGetElemunitInfo isSubelem subelemfragid).fragid := by
  obtain ⟨maximum, idPos, lenPos, hdr⟩ := elemunitInfo_eq isSubelem subelemfragid
  unfold wlanGetElemsubelemSuccessorfrag at ended
  dsimp only at ended
  rw [hdr, idPos, lenPos] at ended
  iterate 9 rw [ite_eq_iff] at ended
  simp only [reduceCtorEq, and_false, false_or, or_false, Except.ok.injEq, and_true, add_zero] at ended
  obtain ⟨-, -, inside, whole | ⟨apart, room, complete, other⟩⟩ := ended
  · exact ⟨by omega, .inl (by omega)⟩
  · exact ⟨by omega, .inr ⟨by omega, by omega, other⟩⟩

theorem UnitRun.cons (rest : UnitRun memory (curr + 257) limit fragid frags last)
    (full : memory (curr + 1) = 255) (named : memory (curr + 257) = fragid) :
    UnitRun memory curr limit fragid (frags + 1) last where
  fulls := fun unit lt => by
    cases unit with
    | zero => exact full
    | succ unit =>
      rw [Nat.mul_succ, add_comm (257 * unit), ← add_assoc curr]
      exact rest.fulls unit (by omega)
  fragids := fun unit pos lt => by
    obtain ⟨unit, rfl⟩ := Nat.exists_eq_add_of_le' pos
    rw [Nat.mul_succ, add_comm (257 * unit), ← add_assoc curr]
    by_cases first : unit = 0
    · rw [first]
      exact named
    · exact rest.fragids unit (by omega) (by omega)
  lastLen := by
    rw [Nat.mul_succ, add_comm (257 * frags), ← add_assoc curr]
    exact rest.lastLen
  fits := by
    have fits := rest.fits
    omega
  after := by
    have after := rest.after
    have place : curr + 257 + (257 * frags + 2 + last) = curr + (257 * (frags + 1) + 2 + last) := by omega
    rwa [place] at after

theorem UnitRun.single
    (ended : wlanGetElemsubelemSuccessorfrag memory isSubelem subelemfragid curr buff buffMaxsize = .ok none) :
    UnitRun memory curr (buff + buffMaxsize) (wlanGetElemunitInfo isSubelem subelemfragid).fragid 0
      (memory (curr + 1)).toNat := by
  obtain ⟨complete, after⟩ := successorfrag_none ended
  exact {
    fulls := fun unit lt => absurd lt (Nat.not_lt_zero _)
    fragids := fun unit pos lt => absurd lt (by omega)
    lastLen := rfl
    fits := by exact complete
    after := by exact after }

theorem fragseqInfoLoop_accepts (buff buffMaxsize : Nat) (currlens : FragseqInfo)
    (nonempty : 0 < (memory (curr + 1)).toNat)
    (scanned : fragseqInfoLoop memory isSubelem subelemfragid buff buffMaxsize curr currlens = .ok lens) :
    ∃ frags last, 1 ≤ last ∧ UnitRun memory curr (buff + buffMaxsize)
      (wlanGetElemunitInfo isSubelem subelemfragid).fragid frags last := by
  induction curr, currlens using fragseqInfoLoop.induct memory isSubelem subelemfragid buff buffMaxsize with
  | case1 curr currlens status failed =>
    rw [fragseqInfoLoop] at scanned
    split at scanned
    · cases scanned
    · rename_i ended
      rw [failed] at ended
      cases ended
    · rename_i found
      rw [failed] at found
      cases found
  | case2 curr currlens ended => exact ⟨0, _, nonempty, .single ended⟩
  | case3 curr currlens frag found ih =>
    obtain ⟨full, named, filled, place⟩ := successorfrag_some found
    rw [fragseqInfoLoop] at scanned
    split at scanned
    · cases scanned
    · rename_i ended
      rw [found] at ended
      cases ended
    · rename_i again
      rw [found] at again
      cases again
      rw [place] at ih scanned
      obtain ⟨frags, last, pos, rest⟩ := ih filled scanned
      exact ⟨frags + 1, last, pos, rest.cons full named⟩

theorem fragseqInfo_accepts
    (scanned : wlanGetElemsubelemFragseqInfo memory isSubelem subelemfragid (some buff) buffMaxsize =
      .ok (some lens)) : ∃ frags last, StartsWithFragseq memory buff buffMaxsize
      (wlanGetElemunitInfo isSubelem subelemfragid).fragid frags last := by
  unfold wlanGetElemsubelemFragseqInfo at scanned
  iterate 3 rw [ite_eq_iff] at scanned
  simp only [reduceCtorEq, and_false, false_or] at scanned
  obtain ⟨-, -, -, scanned⟩ := scanned
  split at scanned
  · cases scanned
  · cases scanned
  · rename_i frag found
    obtain ⟨full, named, filled, place⟩ := successorfrag_some found
    rw [place] at scanned
    cases looped : fragseqInfoLoop memory isSubelem subelemfragid buff buffMaxsize (buff + 257) _ with
    | error status =>
      rw [looped] at scanned
      cases scanned
    | ok lens =>
      obtain ⟨frags, last, pos, rest⟩ :=
        fragseqInfoLoop_accepts buff buffMaxsize _ filled looped
      exact ⟨frags + 1, last, rest.cons full named, Nat.succ_pos _, pos⟩

section

variable (starts : StartsWithFragseq memory buff buffMaxsize fragid frags last)
include starts

theorem StartsWithFragseq.short : last ≤ 255 := by
  have bound := (memory (buff + 257 * frags + 1)).isLt
  rw [starts.run.lastLen] at bound
  omega

theorem StartsWithFragseq.lengths : 255 < 255 * frags + last ∧ lastUnit (255 * frags + last) = frags ∧
      fragseqLen (255 * frags + last) = 257 * frags + 2 + last ∧ fragseqLen (255 * frags + last) ≤ buffMaxsize := by
  have filled := starts.nonempty
  have fragmented := starts.fragmented
  have short := starts.short
  have fits := starts.run.fits
  unfold fragseqLen lastUnit
  omega

theorem StartsWithFragseq.fragSeq :
    FragSeq memory buff (255 * frags + last) (memory buff) fragid (sequenceContent memory buff) := by
  obtain ⟨large, lastUnit, -, -⟩ := starts.lengths
  exact {
    leadId := rfl
    fragids := fun unit pos lt => starts.run.fragids unit pos (by omega)
    lens := fun unit lt => by
      by_cases before : unit < frags
      · rw [unitLen_full (by omega)]
        exact starts.run.fulls unit before
      obtain rfl : unit = frags := by omega
      have lastLen : unitLen (255 * unit + last) unit = last := by
        have ending := unitLen_last (by omega : 0 < 255 * unit + last)
        rw [lastUnit] at ending
        omega
      rw [lastLen, ← starts.run.lastLen, BitVec.ofNat_toNat, BitVec.setWidth_eq]
    body := fun unit lt offset below => by
      have bounds := unitLen_bounds (by omega : 0 < 255 * frags + last) lt
      have whole : (255 * unit + offset) / 255 = unit := by omega
      have part : (255 * unit + offset) % 255 = offset := by omega
      unfold sequenceContent
      rw [whole, part] }

theorem StartsWithFragseq.trailing : ∃ follows, buffMaxsize = fragseqLen (255 * frags + last) + follows ∧
      Follows memory (buff + fragseqLen (255 * frags + last)) follows fragid := by
  obtain ⟨-, -, len, fits⟩ := starts.lengths
  have after := starts.run.after
  rw [Nat.add_sub_add_left] at after
  exact ⟨_, (Nat.add_sub_of_le fits).symm, by rwa [len]⟩

end

end Accepting

open AllConfined

section Confinement

theorem scanned_sequence (reported : wlanGetElemsubelemFragseqInfo memory isSubelem subelemfragid (some base) size =
      .ok (some lens)) : ∃ total follows lead, 255 < total ∧ size = fragseqLen total + follows ∧ lead ≤ 1 ∧
      FragSeq memory base total (memory base) (wlanGetElemunitInfo isSubelem subelemfragid).fragid
        (sequenceContent memory base) ∧
      Follows memory (base + fragseqLen total) follows (wlanGetElemunitInfo isSubelem subelemfragid).fragid ∧
      lens = ⟨fragseqLen total, total - lead⟩ ∧ (memory (base + 1)).toNat = 255 ∧
      leadPayloadlen memory isSubelem (wlanGetElemunitInfo isSubelem subelemfragid) base = 255 - lead ∧
      (if isExtnElem isSubelem (memory base) then base + 2 + 1 else base + 2) = base + 2 + lead := by
  obtain ⟨frags, last, starts⟩ := fragseqInfo_accepts reported
  obtain ⟨large, -⟩ := starts.lengths
  obtain ⟨follows, whole, after⟩ := starts.trailing
  have seq := starts.fragSeq
  obtain ⟨leadLen, payload, src, -⟩ := @FragSeq.lead _ _ _ _ _ _ isSubelem subelemfragid seq large _ rfl
  rw [whole, seq.info large after rfl] at reported
  cases reported
  exact ⟨_, follows, _, large, whole, by split <;> omega, seq, after, rfl, leadLen, payload, src⟩

theorem defragAccesses_inline_confined (mem : ByteMemory) (isSubelem : Bool)
    (subelemfragid : BitVec 8) (base size defragbuff defragbuffMaxsize : Nat) :
    AllConfined base (base + size) base (base + size)
      (defragAccesses mem true isSubelem subelemfragid base size defragbuff defragbuffMaxsize) := by
  obtain ⟨-, idPos, lenPos, hdr⟩ := elemunitInfo_eq isSubelem subelemfragid
  apply checked fun _ => ?_
  apply checked fun _ => ?_
  apply append fragseqInfoAccesses_confined
  split
  · rename_i lens reported
    obtain ⟨total, follows, lead, large, whole, small, seq, after, -, leadLen, payload, src⟩ := scanned_sequence reported
    have len : fragseqLen total = total + 2 * (lastUnit total + 1) := rfl
    have clear : Clear base (fragseqLen total + follows) (base + 257) := .inl le_rfl
    obtain ⟨done, confined⟩ := seq.swept large after rfl clear small
    have looped := confined base (base + (fragseqLen total + follows)) (by omega) (by omega)
    have dst : base + 2 + lead + (255 - lead) = base + 257 := by omega
    rw [hdr, idPos, lenPos, add_zero base, leadLen, src, payload, whole]
    simp only [Bool.not_true, Bool.false_and, Bool.false_eq_true, if_false, if_true, Bool.true_and]
    rw [dst]
    refine .append (.append (.append (leadAccesses_confined (by omega)) (.cons ⟨by omega, by omega⟩ .nil)) looped) ?_
    rw [done.remaining]
    split
    · rename_i more
      obtain ⟨place, target⟩ := done.places (by simpa using more)
      rw [place, target]
      exact .cons ⟨by omega, by omega⟩ (.cons ⟨by omega, by omega⟩ .nil)
    · exact .nil
  · exact .nil

theorem defragAccesses_copied_confined (mem : ByteMemory) (isSubelem : Bool) (subelemfragid : BitVec 8)
    (apart : defragbuff + defragbuffMaxsize ≤ base ∨ base + size ≤ defragbuff) :
    AllConfined base (base + size) defragbuff (defragbuff + defragbuffMaxsize)
      (defragAccesses mem false isSubelem subelemfragid base size defragbuff defragbuffMaxsize) := by
  obtain ⟨-, idPos, lenPos, hdr⟩ := elemunitInfo_eq isSubelem subelemfragid
  apply checked fun _ => ?_
  apply checked fun _ => ?_
  apply append fragseqInfoAccesses_confined
  split
  · rename_i lens reported
    obtain ⟨total, follows, lead, large, whole, small, seq, after, rfl, leadLen, payload, src⟩ := scanned_sequence reported
    rw [hdr, idPos, lenPos, add_zero base, leadLen, src, payload]
    simp only [Bool.not_false, Bool.true_and, decide_eq_true_eq, Bool.false_eq_true, if_false, Bool.false_and]
    apply checked fun short => ?_
    have len : fragseqLen total = total + 2 * (lastUnit total + 1) := rfl
    generalize copying : mem.move defragbuff (base + 2 + lead) (255 - lead) = copied
    have kept : ∀ place, place < defragbuff ∨ defragbuff + (255 - lead) ≤ place → copied place = mem place := by
      intro place away
      rw [← copying, ByteMemory.move_outside away]
    have copiedSequence : FragSeq copied base total (mem base)
        (wlanGetElemunitInfo isSubelem subelemfragid).fragid (sequenceContent mem base) :=
      seq.congr (by omega) fun place low high => kept place (by omega)
    have copiedAfter : Follows copied (base + fragseqLen total) follows
        (wlanGetElemunitInfo isSubelem subelemfragid).fragid :=
      after.congr fun off lt => kept _ (by omega)
    have clear : Clear base (fragseqLen total + follows) (defragbuff + (255 - lead)) := by
      unfold Clear
      omega
    have looped := (copiedSequence.swept large copiedAfter rfl clear small).2 defragbuff
      (defragbuff + defragbuffMaxsize) (by omega) (by omega)
    rw [whole]
    refine .append (.append (.append (leadAccesses_confined (by omega)) (.cons ⟨by omega, by omega⟩
      (.cons ⟨by omega, by omega⟩ (.cons ⟨by omega, by omega⟩ .nil)))) looped) .nil
  · exact .nil

end Confinement

end KernelModules.Wlan

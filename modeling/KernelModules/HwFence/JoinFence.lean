import KernelModules.HwFence.ParentList

namespace KernelModules.HwFence

open Data HwFenceDriverData List Option

def signaledCount (drvData : HwFenceDriverData) (slots : List Nat) : Nat :=
  slots.countP fun slot => (drvData.hwFencesTbl slot).signaled

def DmaFenceArray.slotAt (array : DmaFenceArray) (drvData : HwFenceDriverData) (idx : Nat) : Option Nat :=
  match array.fenceAt idx with
  | some (some child) => (msmHwFenceFind drvData child.context child.seqno).map BitVec.toNat
  | _ => none

def FoundIn (drvData : HwFenceDriverData) (array : DmaFenceArray) (slots : List Nat) : Prop :=
  (List.range slots.length).map (array.slotAt drvData) = slots.map some

/-- How many of the fences before `idx` were found in the slot. -/
def DmaFenceArray.earlier (array : DmaFenceArray) (drvData : HwFenceDriverData) (idx slot : Nat) : Nat :=
  (List.range idx).countP fun before => array.slotAt drvData before = some slot

/-- The fence at `idx` is signaled, or has room for the hash of the array once those before it have theirs. -/
def DmaFenceArray.Attachable (array : DmaFenceArray) (drvData : HwFenceDriverData) (idx : Nat) : Prop :=
  ∃ child hash, array.fenceAt idx = some (some child) ∧ child.isArray = false ∧
    child.enabled = true ∧ msmHwFenceFind drvData child.context child.seqno = some hash ∧
    ((drvData.hwFencesTbl hash.toNat).signaled = true ∨ (drvData.hwFencesTbl hash.toNat).parentsCnt.toNat +
        array.earlier drvData idx hash.toNat + 1 < msmHwFenceMaxJoinParents)

/-- The table while the fences of an array are attached to the join fence at `hash`. -/
structure Attaching (before after : HwFenceDriverData) (hash : BitVec 64) (attached : List Nat) :
    Prop extends Listing before after hash attached where
  room : ∀ slot, (before.hwFencesTbl slot).signaled = false →
    (after.hwFencesTbl slot).parentsCnt.toNat < msmHwFenceMaxJoinParents
  pending : (after.hwFencesTbl hash.toNat).pendingChildCnt = (before.hwFencesTbl hash.toNat).pendingChildCnt -
      BitVec.ofNat 32 (signaledCount before attached)
  otherPending : ∀ slot, slot ≠ hash.toNat →
    (after.hwFencesTbl slot).pendingChildCnt = (before.hwFencesTbl slot).pendingChildCnt

/-- The cleanup takes the hash out of the fences up to `idx`, as far as it was entered there. -/
def ReadyArray (before : HwFenceDriverData) (array : DmaFenceArray) (hash : BitVec 64)
    (idx : Nat) : Prop :=
  ∀ index slot, index ≤ idx → array.slotAt before index = some slot → (before.hwFencesTbl slot).ReadyFor hash

section Loops

variable {before drvData : HwFenceDriverData} {hash : BitVec 64} {attached : List Nat} {slot : Nat}
  {array : DmaFenceArray}

theorem HwFenceDriverData.put_same : drvData.put slot (drvData.hwFencesTbl slot) = drvData := by
  unfold put
  congr
  funext idx
  split
  · rename_i same
    rw [same]
  · rfl

theorem Listing.pass (listing : Listing before drvData hash attached)
    (signaled : (before.hwFencesTbl slot).signaled = true) : Listing before drvData hash (attached ++ [slot]) := by
  have same : ∀ other, (before.hwFencesTbl other).signaled = false →
      (attached ++ [slot]).count other = attached.count other := by
    intro other waits
    have apart : slot ≠ other := by
      rintro rfl
      rw [signaled] at waits
      cases waits
    rw [count_append, count_singleton, if_neg (by simpa using apart), add_zero]
  exact {
    toSameFences := listing.toSameFences
    parentsCnt := fun other waits => by
      rw [same other waits]
      exact listing.parentsCnt other waits
    parents := fun other waits => by
      rw [same other waits]
      exact listing.parents other waits
    settled := listing.settled }

theorem Attaching.countOff (attaching : Attaching before drvData hash attached)
    (signaled : (before.hwFencesTbl slot).signaled = true) (error : BitVec 32) :
    Attaching before (drvData.put hash.toNat { drvData.hwFencesTbl hash.toNat with
      error := error
      pendingChildCnt := (drvData.hwFencesTbl hash.toNat).pendingChildCnt - 1 }) hash
      (attached ++ [slot]) where
  toListing := by
    apply Listing.pass _ signaled
    exact attaching.toListing.keep _ _ ⟨rfl, rfl, rfl, rfl⟩ rfl rfl rfl
  room := fun other waits => by
    by_cases here : other = hash.toNat
    · rw [here, put_slot]
      rw [here] at waits
      exact attaching.room _ waits
    · rw [put_other here]
      exact attaching.room other waits
  pending := by
    rw [put_slot]
    unfold signaledCount
    rw [attaching.pending, countP_append, countP_singleton, if_pos signaled]
    rw [BitVec.ofNat_add, BitVec.sub_sub]
    rfl
  otherPending := fun other apart => by
    rw [put_other apart]
    exact attaching.otherPending other apart

theorem Attaching.enter (attaching : Attaching before drvData hash attached)
    (waits : (before.hwFencesTbl slot).signaled = false)
    (room : (drvData.hwFencesTbl slot).parentsCnt.toNat + 1 < msmHwFenceMaxJoinParents) :
    Attaching before (drvData.put slot { drvData.hwFencesTbl slot with
      parentsCnt := (drvData.hwFencesTbl slot).parentsCnt + 1
      parentList := (drvData.hwFencesTbl slot).parentList.setIfInBounds
        ((drvData.hwFencesTbl slot).parentsCnt + 1 - 1).toNat hash }) hash
      (attached ++ [slot]) where
  toListing := attaching.toListing.enter waits room
  room := fun other otherWaits => by
    by_cases here : other = slot
    · have one : (1 : BitVec 32).toNat = 1 := rfl
      unfold msmHwFenceMaxJoinParents at room ⊢
      rw [here, put_slot, BitVec.toNat_add, Nat.mod_eq_of_lt (by omega)]
      exact room
    · rw [put_other here]
      exact attaching.room other otherWaits
  pending := by
    unfold signaledCount
    rw [countP_append, countP_singleton, if_neg (by rw [waits]; decide)]
    by_cases here : hash.toNat = slot
    · have old := attaching.pending
      rw [here] at old ⊢
      rw [put_slot]
      exact old
    · rw [put_other here]
      exact attaching.pending
  otherPending := fun other apart => by
    by_cases here : other = slot
    · have old := attaching.otherPending other apart
      rw [here] at old ⊢
      rw [put_slot]
      exact old
    · rw [put_other here]
      exact attaching.otherPending other apart

theorem slotAt_eq_some_iff : array.slotAt drvData idx = some slot ↔ ∃ child hash,
    array.fenceAt idx = some (some child) ∧
      msmHwFenceFind drvData child.context child.seqno = some hash ∧ hash.toNat = slot := by
  unfold DmaFenceArray.slotAt
  constructor
  · intro found
    split at found
    · rename_i child read
      obtain ⟨hash, lookedUp, place⟩ := map_eq_some_iff.mp found
      exact ⟨child, hash, read, lookedUp, place⟩
    · cases found
  · rintro ⟨child, hash, read, lookedUp, rfl⟩
    rw [read]
    dsimp only
    rw [lookedUp]
    rfl

theorem SameFences.slotAt (same : SameFences before drvData) (array : DmaFenceArray) (idx : Nat) :
    array.slotAt drvData idx = array.slotAt before idx := by
  unfold DmaFenceArray.slotAt
  split
  · rw [same.find]
  · rfl

section

variable (foundIn : FoundIn before array attached)
include foundIn

theorem FoundIn.append (found : array.slotAt before attached.length = some slot) :
    FoundIn before array (attached ++ [slot]) := by
  unfold FoundIn at foundIn ⊢
  rw [length_append, length_singleton, range_succ, map_append, foundIn, map_append, map_singleton, map_singleton, found]

theorem FoundIn.get (placed : attached[idx]? = some slot) : array.slotAt before idx = some slot := by
  obtain ⟨inside, -⟩ := List.getElem?_eq_some_iff.mp placed
  have entries : ((List.range attached.length).map (array.slotAt before))[idx]? =
      (attached.map some)[idx]? := by rw [foundIn]
  rw [List.getElem?_map, List.getElem?_map, placed, List.getElem?_range inside] at entries
  exact some.inj entries

theorem FoundIn.count (slot : Nat) : array.earlier before attached.length slot = attached.count slot := by
  calc array.earlier before attached.length slot
    _ = ((List.range attached.length).map (array.slotAt before)).count (some slot) := by
        unfold List.count
        rw [countP_map]
        exact countP_congr fun idx _ => by simp
    _ = (attached.map some).count (some slot) := by rw [foundIn]
    _ = attached.count slot := by
        unfold List.count
        rw [countP_map]
        exact countP_congr fun idx _ => by simp

end

theorem attachChild_signaled (single : child.isArray = false) (enabled : child.enabled = true)
    (found : msmHwFenceFind drvData child.context child.seqno = some childHash)
    (signaled : (drvData.hwFencesTbl childHash.toNat).signaled = true) : attachChild drvData hash child =
      (some (decide ((drvData.hwFencesTbl hash.toNat).pendingChildCnt - 1 = 0)),
        drvData.put hash.toNat { drvData.hwFencesTbl hash.toNat with
          error := (drvData.hwFencesTbl hash.toNat).error ||| (drvData.hwFencesTbl childHash.toNat).error
          pendingChildCnt := (drvData.hwFencesTbl hash.toNat).pendingChildCnt - 1 }) := by
  unfold attachChild
  rw [single, enabled, found]
  dsimp only
  rw [signaled]
  rfl

theorem attachChild_waiting (hash : BitVec 64) (single : child.isArray = false) (enabled : child.enabled = true)
    (found : msmHwFenceFind drvData child.context child.seqno = some childHash)
    (waits : (drvData.hwFencesTbl childHash.toNat).signaled = false) : attachChild drvData hash child =
      if (drvData.hwFencesTbl childHash.toNat).parentsCnt.toNat + 1 < msmHwFenceMaxJoinParents then
        (some false, drvData.put childHash.toNat { drvData.hwFencesTbl childHash.toNat with
          parentsCnt := (drvData.hwFencesTbl childHash.toNat).parentsCnt + 1
          parentList := (drvData.hwFencesTbl childHash.toNat).parentList.setIfInBounds
            ((drvData.hwFencesTbl childHash.toNat).parentsCnt + 1 - 1).toNat hash })
      else (none, drvData) := by
  have one : (1 : BitVec 32).toNat = 1 := rfl
  unfold attachChild
  rw [single, enabled, found]
  dsimp only
  rw [waits]
  have full : (((drvData.hwFencesTbl childHash.toNat).parentsCnt + 1).toNat ≥
        msmHwFenceMaxJoinParents ∨ (drvData.hwFencesTbl childHash.toNat).parentsCnt + 1 < 1) ↔
      ¬ (drvData.hwFencesTbl childHash.toNat).parentsCnt.toNat + 1 < msmHwFenceMaxJoinParents := by
    unfold msmHwFenceMaxJoinParents
    rw [BitVec.lt_def, BitVec.toNat_add]
    omega
  by_cases room : (drvData.hwFencesTbl childHash.toNat).parentsCnt.toNat + 1 < msmHwFenceMaxJoinParents
  · rw [if_pos room, if_neg (fun more => full.mp more room)]
    rfl
  · rw [if_neg room, if_pos (full.mpr room), BitVec.add_sub_cancel, put_same]
    rfl

theorem Attaching.attach (attaching : Attaching before drvData hash attached)
    (foundIn : FoundIn before array attached) (read : array.fenceAt attached.length = some (some child)) :
    (array.Attachable before attached.length ∧ ∃ slot next,
        attachChild drvData hash child = (some ((before.hwFencesTbl slot).signaled &&
          decide ((next.hwFencesTbl hash.toNat).pendingChildCnt = 0)), next) ∧
        array.slotAt before attached.length = some slot ∧ Attaching before next hash (attached ++ [slot])) ∨
      ¬ array.Attachable before attached.length ∧ attachChild drvData hash child = (none, drvData) := by
  have same := attaching.find child.context child.seqno
  cases single : child.isArray with
  | true =>
    refine .inr ⟨?_, ?_⟩
    · rintro ⟨other, _, otherRead, otherSingle, -⟩
      rw [read] at otherRead
      cases otherRead
      rw [single] at otherSingle
      cases otherSingle
    · unfold attachChild
      rw [single]
      rfl
  | false =>
  cases enabled : child.enabled with
  | false =>
    refine .inr ⟨?_, ?_⟩
    · rintro ⟨other, _, otherRead, -, otherEnabled, -⟩
      rw [read] at otherRead
      cases otherRead
      rw [enabled] at otherEnabled
      cases otherEnabled
    · unfold attachChild
      rw [single, enabled]
      rfl
  | true =>
  cases found : msmHwFenceFind before child.context child.seqno with
  | none =>
    refine .inr ⟨?_, ?_⟩
    · rintro ⟨other, _, otherRead, -, -, otherFound, -⟩
      rw [read] at otherRead
      cases otherRead
      rw [found] at otherFound
      cases otherFound
    · unfold attachChild
      rw [single, enabled, same, found]
      rfl
  | some childHash =>
  have place : array.slotAt before attached.length = some childHash.toNat :=
    slotAt_eq_some_iff.mpr ⟨child, childHash, read, found, rfl⟩
  have kept := attaching.signaled childHash.toNat
  cases signaled : (before.hwFencesTbl childHash.toNat).signaled with
  | true =>
    refine .inl ⟨⟨child, childHash, read, single, enabled, found, .inl signaled⟩, _, _, ?_, place,
      attaching.countOff signaled ((drvData.hwFencesTbl hash.toNat).error |||
        (drvData.hwFencesTbl childHash.toNat).error)⟩
    rw [attachChild_signaled single enabled (same.trans found) (kept.trans signaled), signaled, put_slot]
    rfl
  | false =>
    have waiting := attachChild_waiting hash single enabled (same.trans found) (kept.trans signaled)
    have counted := attaching.parentsCnt childHash.toNat signaled
    rw [← foundIn.count] at counted
    by_cases room : (drvData.hwFencesTbl childHash.toNat).parentsCnt.toNat + 1 < msmHwFenceMaxJoinParents
    · rw [if_pos room] at waiting
      rw [counted] at room
      refine .inl ⟨⟨child, childHash, read, single, enabled, found, .inr room⟩, _, _, ?_, place,
        attaching.enter signaled (counted ▸ room)⟩
      rw [waiting, signaled]
      rfl
    · rw [if_neg room] at waiting
      rw [counted] at room
      refine .inr ⟨?_, waiting⟩
      rintro ⟨other, otherHash, otherRead, -, -, otherFound, fits⟩
      rw [read] at otherRead
      cases otherRead
      rw [found] at otherFound
      cases otherFound
      rcases fits with done | fits
      · exact absurd (done.symm.trans signaled) (by decide)
      · exact room fits

theorem pending_none {count : Nat} (fits : count ≤ total) (small : total < 2 ^ 32) :
    BitVec.ofNat 32 total - BitVec.ofNat 32 count = 0 ↔ count = total := by
  constructor
  · intro none
    have same : BitVec.ofNat 32 total = BitVec.ofNat 32 count := calc
      BitVec.ofNat 32 total = BitVec.ofNat 32 total - BitVec.ofNat 32 count +
          BitVec.ofNat 32 count := (BitVec.sub_add_cancel _ _).symm
      _ = BitVec.ofNat 32 count := by rw [none]; exact BitVec.zero_add _
    have numbers := congrArg BitVec.toNat same
    rw [BitVec.toNat_ofNat, BitVec.toNat_ofNat, Nat.mod_eq_of_lt (by omega), Nat.mod_eq_of_lt (by omega)] at numbers
    exact numbers.symm
  · rintro rfl
    exact BitVec.sub_self _

theorem signaledCount_le (drvData : HwFenceDriverData) (slots : List Nat) :
    signaledCount drvData slots ≤ slots.length :=
  countP_le_length

theorem signal_after {total : Nat} (unfinished : attached.length < total) (small : total < 2 ^ 32)
    (signals : signalJoinFence = true ↔ 0 < total ∧ signaledCount before attached = total) :
    (signalJoinFence || ((before.hwFencesTbl slot).signaled &&
        decide (BitVec.ofNat 32 total - BitVec.ofNat 32 (signaledCount before (attached ++ [slot])) = 0))) = true ↔
      0 < total ∧ signaledCount before (attached ++ [slot]) = total := by
  have bound := signaledCount_le before attached
  have newBound := signaledCount_le before (attached ++ [slot])
  rw [length_append, length_singleton] at newBound
  have silent : signalJoinFence = false := by
    rw [← Bool.not_eq_true, signals]
    omega
  rw [silent, Bool.false_or, Bool.and_eq_true, decide_eq_true_eq, pending_none (by omega) small]
  constructor
  · rintro ⟨-, all⟩
    exact ⟨by omega, all⟩
  · rintro ⟨-, all⟩
    refine ⟨?_, all⟩
    by_contra waits
    have same : signaledCount before (attached ++ [slot]) = signaledCount before attached := by
      unfold signaledCount
      rw [countP_append, countP_singleton, if_neg waits, add_zero]
    omega

theorem Attaching.loop (array : DmaFenceArray) (left total : Nat) (signalJoinFence : Bool)
    (attaching : Attaching before drvData hash attached) (foundIn : FoundIn before array attached)
    (attachable : ∀ idx, idx < attached.length → array.Attachable before idx)
    (steps : attached.length + left = total) (small : total < 2 ^ 32)
    (joinPending : (before.hwFencesTbl hash.toNat).pendingChildCnt = BitVec.ofNat 32 total)
    (signals : signalJoinFence = true ↔ 0 < total ∧ signaledCount before attached = total) :
    match attachChildren array hash left attached.length signalJoinFence drvData with
    | .undefined => ∃ idx, idx < total ∧ ∀ child, array.fenceAt idx ≠ some (some child)
    | .failed idx next => idx < total ∧ (∀ earlier, earlier < idx → array.Attachable before earlier) ∧
        ¬ array.Attachable before idx ∧ ∃ attached, attached.length = idx ∧
          Attaching before next hash attached ∧ FoundIn before array attached
    | .done signalJoinFence next => (∀ idx, idx < total → array.Attachable before idx) ∧
        ∃ attached, attached.length = total ∧ Attaching before next hash attached ∧ FoundIn before array attached ∧
          (signalJoinFence = true ↔ 0 < total ∧ signaledCount before attached = total) := by
  induction left generalizing drvData attached signalJoinFence with
  | zero =>
    have all : attached.length = total := steps
    exact ⟨fun idx lt => attachable idx (all ▸ lt), attached, all, attaching, foundIn, signals⟩
  | succ left ih =>
    unfold attachChildren
    cases read : array.fenceAt attached.length with
    | none => exact ⟨attached.length, by omega, fun child same => by rw [read] at same; cases same⟩
    | some ptr =>
      cases ptr with
      | none =>
        exact ⟨attached.length, by omega, fun child same => by rw [read] at same; cases same⟩
      | some child =>
        dsimp only
        rcases attaching.attach foundIn read with
          ⟨fits, slot, next, out, place, grown⟩ | ⟨refused, out⟩
        · rw [out]
          have len : (attached ++ [slot]).length = attached.length + 1 := by
            rw [length_append, length_singleton]
          rw [grown.pending, joinPending]
          have rest := ih _ grown (foundIn.append place) (fun idx lt => by
              rw [len] at lt
              rcases Nat.lt_succ_iff_lt_or_eq.mp lt with early | rfl
              · exact attachable idx early
              · exact fits)
            (by omega) (signal_after (by omega) small signals)
          rw [len] at rest
          exact rest
        · rw [out]
          exact ⟨by omega, attachable, refused, attached, rfl, attaching, foundIn⟩

structure Sweeping (before drvData : HwFenceDriverData) (hash : BitVec 64) (remaining : List Nat) :
    Prop extends Listing before drvData hash remaining where
  room : ∀ slot, (before.hwFencesTbl slot).signaled = false →
    (drvData.hwFencesTbl slot).parentsCnt.toNat < msmHwFenceMaxJoinParents
  otherPending : ∀ slot, slot ≠ hash.toNat →
    (drvData.hwFencesTbl slot).pendingChildCnt = (before.hwFencesTbl slot).pendingChildCnt

section

variable {remaining : List Nat} (sweeping : Sweeping before drvData hash remaining)
include sweeping

theorem Sweeping.one (read : array.fenceAt idx = some childFence) (foundIn : FoundIn before array attached)
    (ready : ReadyArray before array hash idx) (covered : ∀ slot ∈ remaining, slot ∈ attached.take (idx + 1)) :
    ∃ remaining, Sweeping before (cleanupChild drvData hash childFence) hash remaining ∧
      ∀ slot ∈ remaining, slot ∈ attached.take idx := by
  -- what was attached at this index is what the cleanup finds there
  have narrowed : ∀ slot ∈ remaining, slot ∈ attached.take idx ∨ array.slotAt before idx = some slot := by
    intro slot mem
    have lt := covered slot mem
    rw [take_add_one] at lt
    rcases mem_append.mp lt with early | here
    · exact .inl early
    · exact .inr (foundIn.get (mem_toList.mp here))
  have idle : array.slotAt before idx = none → cleanupChild drvData hash childFence = drvData := by
    intro nowhere
    unfold cleanupChild
    unfold DmaFenceArray.slotAt at nowhere
    rw [read] at nowhere
    cases childFence with
    | none => rfl
    | some child =>
      dsimp only at nowhere ⊢
      rw [sweeping.find, map_eq_none_iff.mp nowhere]
  cases place : array.slotAt before idx with
  | none =>
    rw [idle place]
    refine ⟨remaining, sweeping, fun slot mem => (narrowed slot mem).resolve_right ?_⟩
    rw [place]
    exact (some_ne_none slot).symm
  | some childSlot =>
    obtain ⟨child, childHash, childRead, found, rfl⟩ := slotAt_eq_some_iff.mp place
    rw [read] at childRead
    cases childRead
    have cleared := sweeping.clear (ready idx _ le_rfl place) (sweeping.room _)
    obtain ⟨-, pending⟩ := clearParents_frame hash
      (drvData.hwFencesTbl childHash.toNat).firstParent (drvData.hwFencesTbl childHash.toNat)
    unfold cleanupChild
    dsimp only
    rw [sweeping.find, found]
    dsimp only
    refine ⟨_, { toListing := cleared, room := ?_, otherPending := ?_ }, ?_⟩
    · intro slot waits
      have fewer : (remaining.filter (· ≠ childHash.toNat)).count slot ≤
          remaining.count slot := List.Sublist.count_le _ filter_sublist
      have count := cleared.parentsCnt slot waits
      have old := sweeping.parentsCnt slot waits
      have small := sweeping.room slot waits
      omega
    · intro slot apart
      by_cases here : slot = childHash.toNat
      · have old := sweeping.otherPending slot apart
        rw [here] at old ⊢
        rw [put_slot, pending]
        exact old
      · rw [put_other here]
        exact sweeping.otherPending slot apart
    · intro slot mem
      obtain ⟨old, apart⟩ := mem_filter.mp mem
      refine (narrowed slot old).resolve_right ?_
      rw [place]
      rintro same
      cases same
      simp at apart

theorem Sweeping.all {after : HwFenceDriverData} (foundIn : FoundIn before array attached)
    (ready : ReadyArray before array hash idx) (covered : ∀ slot ∈ remaining, slot ∈ attached.take (idx + 1))
    (swept : cleanupChildren array hash idx drvData = some after) : Sweeping before after hash [] := by
  induction idx generalizing drvData remaining with
  | zero =>
    obtain ⟨childFence, read, rfl⟩ := map_eq_some_iff.mp swept
    obtain ⟨left, cleaned, none⟩ := sweeping.one read foundIn ready covered
    obtain rfl : left = [] := eq_nil_iff_forall_not_mem.mpr fun slot mem => by
      have nowhere := none slot mem
      cases nowhere
    exact cleaned
  | succ idx ih =>
    obtain ⟨childFence, read, rest⟩ := bind_eq_some_iff.mp swept
    obtain ⟨left, cleaned, fewer⟩ := sweeping.one read foundIn ready covered
    exact ih cleaned (fun index slot lt => ready index slot (by omega)) fewer rest

end

end Loops

end KernelModules.HwFence

import KernelModules.HwFence.JoinFence

namespace KernelModules.HwFence

open Data MsmHwFence HwFenceDriverData List Option

/-! # Calls on fence arrays, as a whole

A call that fails, or finds all fences signaled, leaves no join fence and the lists as they were.
-/

def openJoinFence (drvData : HwFenceDriverData) (client : WaitClient) (array : DmaFenceArray) :
    Option (BitVec 64 × HwFenceDriverData) :=
  let lookup := hwFenceLookupAndProcess drvData array.context array.seqno
    (.createJoin hwFenceJoinFenceClientId array.numFences)
  if lookup.found then some (lookup.hash, lookup.drvData.put lookup.hash.toNat
      ((lookup.drvData.hwFencesTbl lookup.hash.toNat).addWaitClient client))
  else none

def Attached.conclude (client : WaitClient) (array : DmaFenceArray) (clientData hash : BitVec 64) :
    Attached → Option WaitAnswer
  | .undefined => none
  | .failed idx attached => (cleanupJoinAndChildFences attached idx array hash).map fun cleaned =>
    ⟨eInval, hash, false, cleaned⟩
  | .done signalJoinFence attached =>
    finishFenceArray attached client array clientData hash signalJoinFence

/-- The loop over the fences ends at `idx` with an error. -/
def DmaFenceArray.Fails (array : DmaFenceArray) (drvData : HwFenceDriverData) (idx : Nat) : Prop :=
  (∀ earlier, earlier < idx → array.Attachable drvData earlier) ∧
    (idx < array.numFences.toNat ∧ ¬ array.Attachable drvData idx ∨ array.numFences = 0 ∧ idx = 0)

/-- An empty array has no memory or some for one pointer; an array whose fences are all attached has valid ones
only; and where the call fails, no signaled fence up to there names the slot of the join fence. -/
structure JoinsCleanly (joined : HwFenceDriverData) (hash : BitVec 64) (array : DmaFenceArray) : Prop where
  readable : array.numFences = 0 → array.fences = none ∨ array.fenceAt 0 ≠ none
  held : (∀ idx, idx < array.numFences.toNat → array.Attachable joined idx) →
    ∀ idx slot, idx < array.numFences.toNat → array.slotAt joined idx = some slot →
      (joined.hwFencesTbl slot).valid = true
  unnamed : ∀ idx, array.Fails joined idx → ∀ index slot, index ≤ idx →
    array.slotAt joined index = some slot → (joined.hwFencesTbl slot).signaled = true →
      ∀ place, place < (joined.hwFencesTbl slot).firstParent →
        (joined.hwFencesTbl slot).parentList.toList[place]? ≠ some hash

structure Opened (before joined : HwFenceDriverData) (hash : BitVec 64) (array : DmaFenceArray) : Prop where
  entries : joined.hwFenceTableEntries = before.hwFenceTableEntries
  free : (before.hwFencesTbl hash.toNat).valid = false
  others : ∀ slot, slot ≠ hash.toNat → joined.hwFencesTbl slot = before.hwFencesTbl slot
  valid : (joined.hwFencesTbl hash.toNat).valid = true
  signaled : (joined.hwFencesTbl hash.toNat).signaled = false
  parentsCnt : (joined.hwFencesTbl hash.toNat).parentsCnt = 0
  pending : (joined.hwFencesTbl hash.toNat).pendingChildCnt = array.numFences
  found : ∃ step, foundStep joined array.context array.seqno .findFence = some step ∧
    joined.probe array.context array.seqno step = hash.toNat

def MsmHwFence.SameBooks (fence other : MsmHwFence) : Prop :=
  fence.valid = other.valid ∧ fence.flags = other.flags ∧
    fence.pendingChildCnt = other.pendingChildCnt ∧ fence.parentsCnt = other.parentsCnt ∧
    fence.parents = other.parents

def MsmHwFence.Blank (fence : MsmHwFence) : Prop :=
  fence.signaled = false ∧ fence.parentsCnt = 0

structure Grown (before after : HwFenceDriverData) : Prop where
  kept : ∀ slot, (before.hwFencesTbl slot).valid = true →
    (after.hwFencesTbl slot).SameBooks (before.hwFencesTbl slot)
  blank : ∀ slot, (before.hwFencesTbl slot).valid = false → (after.hwFencesTbl slot).Blank

structure Restored (before after : HwFenceDriverData) : Prop extends Grown before after where
  free : ∀ slot, (before.hwFencesTbl slot).valid = false → (after.hwFencesTbl slot).valid = false

/-- Between two calls: free slots are blank, a waiting fence has less than the most parents, and these are valid. -/
structure Tidy (drvData : HwFenceDriverData) : Prop where
  blank : ∀ slot, (drvData.hwFencesTbl slot).valid = false → (drvData.hwFencesTbl slot).Blank
  room : ∀ slot, (drvData.hwFencesTbl slot).signaled = false →
    (drvData.hwFencesTbl slot).parentsCnt.toNat < msmHwFenceMaxJoinParents
  listed : ∀ slot, (drvData.hwFencesTbl slot).valid = true →
    (drvData.hwFencesTbl slot).signaled = false → ∀ parent ∈ (drvData.hwFencesTbl slot).parents,
      (drvData.hwFencesTbl parent.toNat).valid = true

section Call

variable {before joined drvData after : HwFenceDriverData} {client : WaitClient}
  {array : DmaFenceArray} {clientData hash : BitVec 64} {attached : List Nat} {idx slot : Nat}
  {fence : MsmHwFence}

theorem MsmHwFence.signaled_cleared (cleared : fence.flags = 0) : fence.signaled = false := by
  unfold signaled
  rw [cleared]
  decide

theorem HwFenceDriverData.put_put : (drvData.put slot fence).put slot other = drvData.put slot other := by
  unfold put
  congr
  funext idx
  split
  · rfl
  · rename_i apart
    exact if_neg apart

theorem Opened.of_open (opened : openJoinFence before client array = some (hash, joined)) :
    Opened before joined hash array := by
  unfold openJoinFence at opened
  cases scanned : foundStep before array.context array.seqno (.createJoin hwFenceJoinFenceClientId array.numFences) with
  | none =>
    obtain ⟨last, missed⟩ := lookup_missed scanned
    rw [missed] at opened
    cases opened
  | some step =>
    obtain ⟨inside, success, passed⟩ := foundStep_eq_some_iff.mp scanned
    have place := before.probe_toNat (Nat.zero_lt_of_lt inside) array.context array.seqno step
    rw [lookup_found scanned] at opened
    rw [if_pos rfl, place, put_put, put_slot] at opened
    obtain ⟨rfl, rfl⟩ := opened
    rw [LookupOp.verdict_creates rfl] at success
    generalize reserved : addWaitClient _ client = joinFence
    have key : hwFenceMatch joinFence array.context array.seqno = true := by
      rw [← reserved]
      exact Bool.and_eq_true_iff.mpr ⟨beq_self_eq_true _, beq_self_eq_true _⟩
    have sameProbe : ∀ other, (before.put (before.probe array.context array.seqno step)
        joinFence).probe array.context array.seqno other = before.probe array.context array.seqno other := fun _ => rfl
    refine ⟨rfl, ?_, ?_, ?_, ?_, ?_, ?_, step, foundStep_find_iff.mpr ⟨inside, ?_, ?_⟩, ?_⟩
    · rw [place]
      split at success
      · split at success <;> cases success
      · rename_i free
        exact (Bool.not_eq_true _).mp free
    · intro slot apart
      rw [place] at apart
      exact put_other apart
    · rw [place, put_slot, ← reserved]
      rfl
    · rw [place, put_slot, ← reserved]
      exact signaled_cleared rfl
    · rw [place, put_slot, ← reserved]
      rfl
    · rw [place, put_slot, ← reserved]
      rfl
    · unfold probed
      rw [sameProbe, put_slot]
      exact key
    · intro earlier lt
      have elsewhere : before.probe array.context array.seqno earlier ≠
          before.probe array.context array.seqno step := fun same =>
        absurd (probeSlot_injective (by omega) inside same) (by omega)
      unfold probed
      rw [sameProbe, put_other elsewhere]
      have verdict := passed earlier lt
      rw [LookupOp.verdict_creates rfl] at verdict
      split at verdict
      · split at verdict
        · cases verdict
        · rename_i apart
          exact (Bool.not_eq_true _).mp apart
      · cases verdict
    · rw [sameProbe, place]

theorem Opened.cleanup (opened : Opened before joined hash array) (same : SameFences joined after) :
    (hwFenceCleanup after array.context array.seqno).2 =
      after.put hash.toNat (unreserveHwFence (after.hwFencesTbl hash.toNat)) := by
  obtain ⟨step, scanned, place⟩ := opened.found
  have later : foundStep after array.context array.seqno .findFence = some step :=
    (same.foundStep _ _).trans scanned
  rw [cleanup_found later]
  unfold probed
  rw [(same.probed _ _ step).1, place]

theorem Opened.restored (tidy : Tidy before) (opened : Opened before joined hash array)
    (listing : Listing joined drvData hash attached)
    (settled : ∀ slot ∈ attached, (joined.hwFencesTbl slot).signaled = true) (otherPending : ∀ slot, slot ≠ hash.toNat →
      (drvData.hwFencesTbl slot).pendingChildCnt = (joined.hwFencesTbl slot).pendingChildCnt) :
    Restored before (hwFenceCleanup drvData array.context array.seqno).2 := by
  rw [opened.cleanup listing.toSameFences]
  have absent : ∀ slot, (joined.hwFencesTbl slot).signaled = false → attached.count slot = 0 := by
    intro slot waits
    rw [count_eq_zero]
    intro mem
    rw [settled slot mem] at waits
    cases waits
  have books : ∀ slot, slot ≠ hash.toNat → (drvData.hwFencesTbl slot).SameBooks (before.hwFencesTbl slot) := by
    intro slot apart
    rw [← opened.others slot apart]
    obtain ⟨valid, -⟩ := listing.same slot
    refine ⟨valid, listing.flags slot, otherPending slot apart, ?_⟩
    cases signaled : (joined.hwFencesTbl slot).signaled with
    | true =>
      obtain ⟨count, list⟩ := listing.settled slot signaled
      unfold MsmHwFence.parents
      rw [count, list]
      exact ⟨rfl, rfl⟩
    | false =>
      have count := listing.parentsCnt slot signaled
      have parents := listing.parents slot signaled
      rw [absent slot signaled] at count parents
      exact ⟨BitVec.eq_of_toNat_eq count, parents.trans (append_nil _)⟩
  refine ⟨⟨fun slot valid => ?_, fun slot free => ?_⟩, fun slot free => ?_⟩
  · have apart : slot ≠ hash.toNat := by
      rintro rfl
      rw [opened.free] at valid
      cases valid
    rw [put_other apart]
    exact books slot apart
  · by_cases here : slot = hash.toNat
    · rw [here, put_slot]
      exact ⟨MsmHwFence.signaled_cleared rfl, rfl⟩
    rw [put_other here]
    obtain ⟨-, flags, -, count, -⟩ := books slot here
    obtain ⟨quiet, none⟩ := tidy.blank slot free
    refine ⟨?_, count.trans none⟩
    unfold MsmHwFence.signaled
    rw [flags]
    exact quiet
  · by_cases here : slot = hash.toNat
    · rw [here, put_slot]
      rfl
    · rw [put_other here]
      exact (books slot here).1.trans free

theorem MsmHwFence.Blank.parents (blank : fence.Blank) : fence.parents = [] := by
  unfold MsmHwFence.parents
  rw [blank.2]
  exact take_zero

section

variable (tidy : Tidy before) (opened : Opened before joined hash array)
include tidy opened

theorem Opened.attaching : Attaching joined joined hash [] where
  toListing := .start
  room := fun slot waits => by
    by_cases here : slot = hash.toNat
    · rw [here, opened.parentsCnt]
      decide
    · rw [opened.others slot here] at waits ⊢
      exact tidy.room slot waits
  pending := (BitVec.sub_zero _).symm
  otherPending := fun _ _ => rfl

theorem Opened.ready (unnamed : ∀ index slot, index ≤ idx → array.slotAt joined index = some slot →
      (joined.hwFencesTbl slot).signaled = true → ∀ place, place < (joined.hwFencesTbl slot).firstParent →
          (joined.hwFencesTbl slot).parentList.toList[place]? ≠ some hash) : ReadyArray joined array hash idx := by
  intro index slot lt place
  have room := (opened.attaching tidy).room slot
  refine ⟨room, ?_⟩
  cases signaled : (joined.hwFencesTbl slot).signaled with
  | true => exact unnamed index slot lt place signaled
  | false =>
    intro entry inside named
    rw [firstParent_small (room signaled)] at inside
    rw [← parents_getElem? inside] at named
    have mem := mem_of_getElem? named
    by_cases here : slot = hash.toNat
    · rw [here, MsmHwFence.Blank.parents ⟨opened.signaled, opened.parentsCnt⟩] at mem
      cases mem
    rw [opened.others slot here] at mem signaled
    cases valid : (before.hwFencesTbl slot).valid with
    | true =>
      have alive := tidy.listed slot valid signaled hash mem
      rw [opened.free] at alive
      cases alive
    | false =>
      rw [(tidy.blank slot valid).parents] at mem
      cases mem

theorem Opened.cleaned (attaching : Attaching joined drvData hash attached)
    (foundIn : FoundIn joined array attached) (len : attached.length ≤ idx + 1)
    (ready : ReadyArray joined array hash idx) (empty : array.fences = none → attached = [])
    (cleaned : cleanupJoinAndChildFences drvData idx array hash = some after) : Restored before after := by
  obtain ⟨swept, sweeps, rfl⟩ := map_eq_some_iff.mp cleaned
  have sweeping : Sweeping joined drvData hash attached :=
    ⟨attaching.toListing, attaching.room, attaching.otherPending⟩
  split at sweeps
  · rename_i none
    cases sweeps
    rw [isNone_iff_eq_none] at none
    refine opened.restored tidy sweeping.toListing (fun slot mem => ?_) sweeping.otherPending
    rw [empty none] at mem
    cases mem
  · have gone := sweeping.all foundIn ready (fun slot mem => by rw [take_of_length_le len]; exact mem) sweeps
    refine opened.restored tidy gone.toListing (fun slot mem => ?_) gone.otherPending
    cases mem

end

theorem cleanupChildren_defined (hash : BitVec 64) (drvData : HwFenceDriverData)
    (readable : ∀ index, index ≤ idx → array.fenceAt index ≠ none) :
    ∃ after, cleanupChildren array hash idx drvData = some after := by
  induction idx generalizing drvData with
  | zero =>
    obtain ⟨childFence, read⟩ := ne_none_iff_exists'.mp (readable 0 le_rfl)
    exact ⟨_, map_eq_some_iff.mpr ⟨childFence, read, rfl⟩⟩
  | succ idx ih =>
    obtain ⟨childFence, read⟩ := ne_none_iff_exists'.mp (readable _ le_rfl)
    obtain ⟨after, rest⟩ := ih (cleanupChild drvData hash childFence)
      fun index lt => readable index (Nat.le_succ_of_le lt)
    exact ⟨after, bind_eq_some_iff.mpr ⟨childFence, read, rest⟩⟩

theorem cleanupJoinAndChildFences_defined (hash : BitVec 64) (drvData : HwFenceDriverData)
    (readable : array.fences = none ∨ ∀ index, index ≤ idx → array.fenceAt index ≠ none) :
    ∃ after, cleanupJoinAndChildFences drvData idx array hash = some after := by
  unfold cleanupJoinAndChildFences
  split
  · exact ⟨_, rfl⟩
  · rename_i here
    rw [isNone_iff_eq_none] at here
    obtain ⟨swept, sweeps⟩ := cleanupChildren_defined hash drvData (readable.resolve_left here)
    exact ⟨_, by rw [sweeps]; rfl⟩

structure Joined (before after : HwFenceDriverData) (array : DmaFenceArray) (hash : BitVec 64)
    (children : List Nat) : Prop where
  opened : ∃ joined, Opened before joined hash array ∧ Attaching joined after hash children
  slots : (List.range array.numFences.toNat).filterMap (array.slotAt after) = children
  length : children.length = array.numFences.toNat
  valid : ∀ slot ∈ children, (after.hwFencesTbl slot).valid = true

theorem FoundIn.filterMap (foundIn : FoundIn drvData array attached) :
    (List.range attached.length).filterMap (array.slotAt drvData) = attached := by
  calc (List.range attached.length).filterMap (array.slotAt drvData)
    _ = ((List.range attached.length).map (array.slotAt drvData)).filterMap id := by
        rw [filterMap_map]
        rfl
    _ = (attached.map some).filterMap id := by rw [foundIn]
    _ = attached := by rw [filterMap_map]; exact filterMap_some

theorem storeClientData_frame (fence : MsmHwFence) (client : WaitClient) (clientData : BitVec 64) :
    (fence.storeClientData client clientData).flags = fence.flags ∧
      (fence.storeClientData client clientData).parentsCnt = fence.parentsCnt ∧
      (fence.storeClientData client clientData).parentList = fence.parentList ∧
      (fence.storeClientData client clientData).pendingChildCnt = fence.pendingChildCnt := by
  unfold storeClientData
  split
  · split <;> exact ⟨rfl, rfl, rfl, rfl⟩
  · exact ⟨rfl, rfl, rfl, rfl⟩

theorem Attaching.store (attaching : Attaching joined drvData hash attached) (client : WaitClient)
    (clientData : BitVec 64) : Attaching joined (drvData.put hash.toNat
      ((drvData.hwFencesTbl hash.toNat).storeClientData client clientData)) hash attached := by
  obtain ⟨flags, count, list, pending⟩ :=
    storeClientData_frame (drvData.hwFencesTbl hash.toNat) client clientData
  exact {
    toListing := attaching.toListing.keep _ _ (storeClientData_sameFence _ _ _) flags count list
    room := fun slot waits => by
      by_cases here : slot = hash.toNat
      · rw [here, put_slot, count]
        rw [here] at waits
        exact attaching.room _ waits
      · rw [put_other here]
        exact attaching.room slot waits
    pending := by
      rw [put_slot, pending]
      exact attaching.pending
    otherPending := fun slot apart => by
      rw [put_other apart]
      exact attaching.otherPending slot apart }

theorem Opened.finished (client : WaitClient) (clientData : BitVec 64) (tidy : Tidy before)
    (opened : Opened before joined hash array) (clean : JoinsCleanly joined hash array)
    (attachable : ∀ idx, idx < array.numFences.toNat → array.Attachable joined idx)
    (len : attached.length = array.numFences.toNat) (attaching : Attaching joined drvData hash attached)
    (foundIn : FoundIn joined array attached) (signals : signalJoinFence = true ↔
      0 < array.numFences.toNat ∧ signaledCount joined attached = array.numFences.toNat) :
    ∃ answer, finishFenceArray drvData client array clientData hash signalJoinFence = some answer ∧
      ((answer.ret ≠ 0 ∨ answer.signaled = true) ∧ Restored before answer.drvData ∨
        answer.ret = 0 ∧ answer.signaled = false ∧ answer.hash = hash ∧
          Joined before answer.drvData array hash attached) := by
  have stored := attaching.store client clientData
  unfold finishFenceArray
  dsimp only
  cases signalJoinFence with
  | true =>
    obtain ⟨-, all⟩ := signals.mp rfl
    rw [← len] at all
    have settled := countP_eq_length.mp all
    refine ⟨_, if_pos rfl, .inl ⟨.inr rfl, ?_⟩⟩
    exact opened.restored tidy stored.toListing settled stored.otherPending
  | false =>
    by_cases empty : array.numFences = 0
    · rw [empty] at len
      have nothing : attached = [] := length_eq_zero_iff.mp len
      have fails : array.Fails joined 0 := ⟨fun earlier lt => absurd lt (Nat.not_lt_zero _), .inr ⟨empty, rfl⟩⟩
      obtain ⟨cleaned, cleans⟩ := cleanupJoinAndChildFences_defined hash (drvData.put hash.toNat
          ((drvData.hwFencesTbl hash.toNat).storeClientData client clientData))
        ((clean.readable empty).imp id fun read index lt => by
          rw [Nat.le_zero.mp lt]
          exact read)
      rw [if_pos empty, cleans]
      refine ⟨_, rfl, .inl ⟨.inl (show eInval ≠ 0 by decide), ?_⟩⟩
      exact opened.cleaned tidy stored foundIn (by rw [nothing]; exact Nat.zero_le _)
        (opened.ready tidy (clean.unnamed 0 fails)) (fun _ => nothing) cleans
    · rw [if_neg empty]
      refine ⟨_, rfl, .inr ⟨rfl, rfl, rfl, ⟨joined, opened, stored⟩, ?_, len, ?_⟩⟩
      · have same : array.slotAt (drvData.put hash.toNat
            ((drvData.hwFencesTbl hash.toNat).storeClientData client clientData)) =
              array.slotAt joined := funext (stored.toSameFences.slotAt array)
        rw [same, ← len]
        exact foundIn.filterMap
      · intro slot mem
        obtain ⟨idx, place⟩ := mem_iff_getElem?.mp mem
        obtain ⟨inside, -⟩ := List.getElem?_eq_some_iff.mp place
        rw [(stored.same slot).1]
        exact clean.held attachable idx slot (len ▸ inside) (foundIn.get place)

theorem Restored.refl (tidy : Tidy before) : Restored before before where
  kept := fun _ _ => ⟨rfl, rfl, rfl, rfl, rfl⟩
  blank := tidy.blank
  free := fun _ free => free

theorem processFenceArray_outcome (tidy : Tidy before) (client : WaitClient)
    (array : DmaFenceArray) (clientData : BitVec 64) (holds : ∀ idx, idx < array.numFences.toNat →
      ∃ child, array.fenceAt idx = some (some child)) (clean : (clientData = 0 ∨ client.dataId ≠ none) → ∀ hash joined,
      openJoinFence before client array = some (hash, joined) → JoinsCleanly joined hash array) :
    ∃ answer, hwFenceProcessFenceArray before client array clientData = some answer ∧
      ((answer.ret ≠ 0 ∨ answer.signaled = true) ∧ Restored before answer.drvData ∨
        answer.ret = 0 ∧ answer.signaled = false ∧
          ∃ children, Joined before answer.drvData array answer.hash children) := by
  by_cases refused : clientData ≠ 0 ∧ client.dataId = none
  · unfold hwFenceProcessFenceArray
    rw [if_pos refused]
    exact ⟨_, rfl, .inl ⟨.inl (show eInval ≠ 0 by decide), .refl tidy⟩⟩
  have ok : clientData = 0 ∨ client.dataId ≠ none := by
    by_cases zero : clientData = 0
    · exact .inl zero
    · exact .inr fun none => refused ⟨zero, none⟩
  cases opens : openJoinFence before client array with
  | none =>
    unfold hwFenceProcessFenceArray
    rw [if_neg refused]
    cases scanned : foundStep before array.context array.seqno
        (.createJoin hwFenceJoinFenceClientId array.numFences) with
    | none =>
      obtain ⟨last, missed⟩ := lookup_missed scanned
      rw [missed]
      exact ⟨_, rfl, .inl ⟨.inl (show eInval ≠ 0 by decide), .refl tidy⟩⟩
    | some step =>
      unfold openJoinFence at opens
      rw [lookup_found scanned] at opens
      cases opens
  | some entry =>
    obtain ⟨hash, joined⟩ := entry
    have opened := Opened.of_open opens
    have clean := clean ok hash joined opens
    have processed : hwFenceProcessFenceArray before client array clientData =
        (attachChildren array hash array.numFences.toNat 0 false joined).conclude client array clientData hash := by
      unfold hwFenceProcessFenceArray
      rw [if_neg refused]
      unfold openJoinFence at opens
      dsimp only at opens ⊢
      split at opens
      · rename_i found
        cases opens
        rw [found]
        cases attachChildren array _ array.numFences.toNat 0 false _ <;> rfl
      · cases opens
    rw [processed]
    have out := (opened.attaching tidy).loop array array.numFences.toNat
      array.numFences.toNat false rfl (fun _ below => absurd below (Nat.not_lt_zero _))
      (zero_add _) array.numFences.isLt
      (by rw [opened.pending, BitVec.ofNat_toNat, BitVec.setWidth_eq])
      (by
        unfold signaledCount
        rw [countP_nil]
        constructor
        · rintro ⟨⟩
        · rintro ⟨pos, same⟩
          omega)
    rw [length_nil] at out
    cases ended : attachChildren array hash array.numFences.toNat 0 false joined with
    | undefined =>
      rw [ended] at out
      obtain ⟨idx, below, unread⟩ := out
      obtain ⟨child, read⟩ := holds idx below
      exact absurd read (unread child)
    | failed idx next =>
      rw [ended] at out
      obtain ⟨below, attachable, failed, attached, len, attaching, foundIn⟩ := out
      have readable : ∀ index, index ≤ idx → array.fenceAt index ≠ none := by
        intro index lt unread
        obtain ⟨child, read⟩ := holds index (by omega)
        rw [read] at unread
        cases unread
      obtain ⟨cleaned, cleans⟩ := cleanupJoinAndChildFences_defined hash next (.inr readable)
      unfold Attached.conclude
      dsimp only
      rw [cleans]
      refine ⟨_, rfl, .inl ⟨.inl (show eInval ≠ 0 by decide), ?_⟩⟩
      refine opened.cleaned tidy attaching foundIn (by omega)
        (opened.ready tidy (clean.unnamed idx ⟨attachable, .inl ⟨below, failed⟩⟩)) ?_ cleans
      intro nowhere
      obtain ⟨child, read⟩ := holds idx below
      unfold DmaFenceArray.fenceAt at read
      rw [nowhere] at read
      cases read
    | done signalJoinFence next =>
      rw [ended] at out
      obtain ⟨attachable, attached, len, attaching, foundIn, signals⟩ := out
      obtain ⟨answer, finishes, ends⟩ := opened.finished client clientData tidy clean
        attachable len attaching foundIn signals
      refine ⟨answer, finishes, ends.imp id ?_⟩
      rintro ⟨success, silent, sameHash, stays⟩
      exact ⟨success, silent, attached, sameHash ▸ stays⟩

end Call

end KernelModules.HwFence

import KernelModules.HwFence.Keys

namespace KernelModules.HwFence

open Data

/-! # Finding and destroying fences

A lookup compares keys and not the valid field, and a free slot carries the key `(0, 0)`.
-/

def HwFenceDriverData.FreeCleared (drvData : HwFenceDriverData) : Prop :=
  ∀ slot, (drvData.hwFencesTbl slot).valid = false →
    (drvData.hwFencesTbl slot).ctxId = 0 ∧ (drvData.hwFencesTbl slot).seqId = 0

open HwFenceDriverData

def HwFenceDriverData.FreeSlotFound (drvData : HwFenceDriverData) (context seqno : BitVec 64) : Prop :=
  context = 0 ∧ seqno = 0 ∧ ∃ step, step < drvData.entries ∧
    (drvData.probed context seqno step).valid = false ∧ ∀ earlier, earlier < step →
      ¬ ((drvData.probed context seqno earlier).valid = true ∧
        hwFenceMatch (drvData.probed context seqno earlier) context seqno = true)

/-- `msm_hw_fence_find` and `hw_fence_destroy` succeed on the valid fences. -/
structure LooksUp (drvData : HwFenceDriverData) (context seqno : BitVec 64) : Prop where
  finds : msmHwFenceFind drvData context seqno ≠ none ↔ ∃ slot, drvData.Holds context seqno slot
  hashed : ∀ hash, msmHwFenceFind drvData context seqno = some hash → drvData.Holds context seqno hash.toNat
  destroys : (hwFenceDestroy drvData context seqno).1 = 0 ↔ ∃ slot, drvData.Holds context seqno slot
  destroyed : (hwFenceDestroy drvData context seqno).1 = 0 → ∃ slot, drvData.Holds context seqno slot ∧
      ((hwFenceDestroy drvData context seqno).2.hwFencesTbl slot).valid = false ∧ ∀ other, other ≠ slot →
        (hwFenceDestroy drvData context seqno).2.hwFencesTbl other = drvData.hwFencesTbl other
  refused : (hwFenceDestroy drvData context seqno).1 ≠ 0 → (hwFenceDestroy drvData context seqno).2 = drvData

/-- `hw_fence_destroy_with_hash` invalidates the fence at the hash, or fails and changes
nothing. -/
def DestroysOwn (drvData : HwFenceDriverData) (clientId : BitVec 32) (hash : BitVec 64) : Prop :=
  let outcome := hwFenceDestroyWithHash drvData clientId hash
  (outcome.1 = 0 ∧ (drvData.hwFencesTbl hash.toNat).valid = true ∧
      (outcome.2.hwFencesTbl hash.toNat).valid = false ∧
      ∀ other, other ≠ hash.toNat → outcome.2.hwFencesTbl other = drvData.hwFencesTbl other) ∨
    outcome.1 ≠ 0 ∧ outcome.2 = drvData

def HwFenceDriverData.FirstOfKey (drvData : HwFenceDriverData) (hash : BitVec 64) : Prop :=
  let fence := drvData.hwFencesTbl hash.toNat
  fence.valid = true ∧ ∀ step, step < drvData.entries →
    drvData.probe fence.ctxId fence.seqId step = hash.toNat → ∀ earlier, earlier < step →
      hwFenceMatch (drvData.probed fence.ctxId fence.seqId earlier) fence.ctxId fence.seqId = false

/-- The condition for `hw_fence_destroy_with_hash`. -/
def HwFenceDriverData.OwnHash (drvData : HwFenceDriverData) (clientId : BitVec 32)
    (hash : BitVec 64) : Prop :=
  hash.toNat < drvData.entries →
    (drvData.hwFencesTbl hash.toNat).fenceAllocator = clientId → drvData.FirstOfKey hash

theorem FreeCleared.kept : Kept HwFenceDriverData.FreeCleared where
  changed := by
    intro drvData slot fence cleared same other free
    by_cases here : other = slot
    · rw [here, put_slot] at free ⊢
      obtain ⟨sameValid, sameContext, sameSeqno, -⟩ := same
      rw [sameContext, sameSeqno]
      exact cleared slot (sameValid.symm.trans free)
    · rw [put_other here] at free ⊢
      exact cleared other free
  destroyed := by
    intro drvData ctx seqno cleared
    unfold hwFenceCleanup
    cases scanned : foundStep drvData ctx seqno .destroy with
    | none =>
      obtain ⟨last, missed⟩ := lookup_missed scanned
      rw [missed]
      exact cleared
    | some found =>
      rw [lookup_found scanned]
      intro other free
      by_cases here : other = drvData.probe ctx seqno found
      · rw [here, put_slot]
        exact ⟨rfl, rfl⟩
      · rw [put_other here] at free ⊢
        exact cleared other free

theorem FreeCleared.created (cleared : drvData.FreeCleared) (creates : opCode.creates = true) :
    (hwFenceLookupAndProcess drvData ctx seqno opCode).drvData.FreeCleared := by
  cases scanned : foundStep drvData ctx seqno opCode with
  | none =>
    obtain ⟨last, missed⟩ := lookup_missed scanned
    rw [missed]
    exact cleared
  | some found =>
    rw [lookup_found scanned]
    intro other free
    by_cases here : other = drvData.probe ctx seqno found
    · rw [here, put_slot] at free
      rw [(opCode.created _ _ _ creates).1] at free
      cases free
    · rw [put_other here] at free ⊢
      exact cleared other free

theorem FreeCleared.perform {call : TableCall} (cleared : drvData.FreeCleared)
    (performed : call.perform drvData = some after) : after.FreeCleared := by
  cases call with
  | create clientId context seqno =>
    cases performed
    exact FreeCleared.created cleared rfl
  | destroy context seqno =>
    cases performed
    exact FreeCleared.kept.destroyed drvData context seqno cleared
  | destroyWithHash clientId hash =>
    cases performed
    exact FreeCleared.kept.destroyWithHash cleared
  | processFenceArray client array clientData =>
    obtain ⟨answer, processed, rfl⟩ := Option.map_eq_some_iff.mp performed
    exact FreeCleared.kept.processFenceArray cleared (FreeCleared.created cleared rfl) processed
  | registerWaitClient client context seqno clientData =>
    cases performed
    exact FreeCleared.kept.registerWaitClient cleared

theorem lookupVerdict_find : lookupVerdict drvData ctx seqno .findFence step =
      if hwFenceMatch (drvData.probed ctx seqno step) ctx seqno then some true else none := by
  unfold lookupVerdict LookupOp.compareFnc LookupOp.creates
  simp

theorem foundStep_destroy : foundStep drvData context seqno .destroy = foundStep drvData context seqno .findFence := rfl

theorem foundStep_find_iff : foundStep drvData context seqno .findFence = some found ↔ found < drvData.entries ∧
      hwFenceMatch (drvData.probed context seqno found) context seqno = true ∧ ∀ earlier, earlier < found →
          hwFenceMatch (drvData.probed context seqno earlier) context seqno = false := by
  rw [foundStep_eq_some_iff]
  simp only [lookupVerdict_find]
  constructor
  · rintro ⟨inside, success, before⟩
    refine ⟨inside, ?_, fun earlier lt => ?_⟩
    · split at success
      · assumption
      · cases success
    · have passed := before earlier lt
      split at passed
      · cases passed
      · rename_i apart
        exact (Bool.not_eq_true _).mp apart
  · rintro ⟨inside, key, before⟩
    refine ⟨inside, if_pos key, fun earlier lt => ?_⟩
    rw [before earlier lt]
    exact if_neg Bool.false_ne_true

theorem foundStep_find_none : foundStep drvData ctx seqno .findFence = none ↔ ∀ step, step < drvData.entries →
      hwFenceMatch (drvData.probed ctx seqno step) ctx seqno = false := by
  constructor
  · intro missed step inside
    by_contra key
    rw [Bool.not_eq_false] at key
    have success : lookupVerdict drvData ctx seqno .findFence step = some true := by
      rw [lookupVerdict_find, if_pos key]
    have patient : ∀ earlier, earlier < step → lookupVerdict drvData ctx seqno .findFence earlier ≠ some false := by
      intro earlier _ stopped
      rw [lookupVerdict_find] at stopped
      split at stopped <;> cases stopped
    have reached : step < 0 + drvData.entries := by omega
    obtain ⟨first, scanned⟩ := scan_first (Nat.zero_le step) reached success patient
    unfold foundStep at missed
    rw [missed] at scanned
    cases scanned
  · intro missing
    cases scanned : foundStep drvData ctx seqno .findFence with
    | none => rfl
    | some found =>
      obtain ⟨inside, key, -⟩ := foundStep_find_iff.mp scanned
      rw [missing found inside] at key
      cases key

theorem find_found (scanned : foundStep drvData context seqno .findFence = some found) :
    msmHwFenceFind drvData context seqno = some (BitVec.ofNat 64 (drvData.probe context seqno found)) := by
  unfold msmHwFenceFind
  rw [lookup_found scanned]
  rfl

theorem find_missed (scanned : foundStep drvData context seqno .findFence = none) :
    msmHwFenceFind drvData context seqno = none := by
  obtain ⟨last, missed⟩ := lookup_missed scanned
  unfold msmHwFenceFind
  rw [missed]
  rfl

theorem cleanup_found (scanned : foundStep drvData context seqno .findFence = some found) :
    hwFenceCleanup drvData context seqno = (0, drvData.put (drvData.probe context seqno found)
        (unreserveHwFence (drvData.probed context seqno found))) := by
  unfold hwFenceCleanup
  rw [lookup_found (foundStep_destroy.trans scanned)]
  rfl

theorem cleanup_missed (scanned : foundStep drvData context seqno .findFence = none) :
    hwFenceCleanup drvData context seqno = (eInval, drvData) := by
  obtain ⟨last, missed⟩ := lookup_missed (foundStep_destroy.trans scanned)
  unfold hwFenceCleanup
  rw [missed]
  rfl

theorem destroy_found (scanned : foundStep drvData context seqno .findFence = some found) :
    hwFenceDestroy drvData context seqno = (0, drvData.put (drvData.probe context seqno found)
        (unreserveHwFence (drvData.probed context seqno found))) := by
  unfold hwFenceDestroy
  rw [cleanup_found scanned]
  rfl

theorem destroy_missed (scanned : foundStep drvData context seqno .findFence = none) :
    hwFenceDestroy drvData context seqno = (eInval, drvData) := by
  unfold hwFenceDestroy
  rw [cleanup_missed scanned]
  rfl

theorem Holds.exists_found (holds : drvData.Holds ctx seqno slot) :
    ∃ found, foundStep drvData ctx seqno .findFence = some found := by
  obtain ⟨step, inside, rfl⟩ := holds.probed
  cases scanned : foundStep drvData ctx seqno .findFence with
  | some found => exact ⟨found, rfl⟩
  | none =>
    have missing := foundStep_find_none.mp scanned step inside
    exact absurd (missing.symm.trans holds.2.2) Bool.false_ne_true

theorem FreeCleared.found_valid (cleared : drvData.FreeCleared) (unshadowed : ¬ drvData.FreeSlotFound context seqno)
    (scanned : foundStep drvData context seqno .findFence = some found) :
    drvData.Holds context seqno (drvData.probe context seqno found) := by
  obtain ⟨inside, key, before⟩ := foundStep_find_iff.mp scanned
  refine ⟨drvData.probe_lt (Nat.zero_lt_of_lt inside) context seqno found, ?_, key⟩
  by_contra free
  rw [Bool.not_eq_true] at free
  obtain ⟨zeroContext, zeroSeqno⟩ := cleared _ free
  have names := key
  unfold hwFenceMatch probed at names
  rw [zeroContext, zeroSeqno, Bool.and_eq_true, beq_iff_eq, beq_iff_eq] at names
  refine unshadowed ⟨names.1.symm, names.2.symm, found, inside, free, fun earlier lt both => ?_⟩
  exact absurd ((before earlier lt).symm.trans both.2) Bool.false_ne_true

theorem FreeCleared.looksUp_iff (cleared : drvData.FreeCleared) :
    LooksUp drvData ctx seqno ↔ ¬ drvData.FreeSlotFound ctx seqno := by
  constructor
  · rintro looks ⟨rfl, rfl, step, inside, free, before⟩
    obtain ⟨zeroContext, zeroSeqno⟩ := cleared _ free
    have key : hwFenceMatch (drvData.probed 0 0 step) 0 0 = true := by
      unfold hwFenceMatch probed
      rw [zeroContext, zeroSeqno]
      rfl
    cases scanned : foundStep drvData 0 0 .findFence with
    | none =>
      have missing := foundStep_find_none.mp scanned step inside
      exact absurd (missing.symm.trans key) Bool.false_ne_true
    | some found =>
      obtain ⟨foundInside, foundKey, first⟩ := foundStep_find_iff.mp scanned
      have holds := looks.hashed _ (find_found scanned)
      rw [drvData.probe_toNat (Nat.zero_lt_of_lt inside)] at holds
      rcases Nat.lt_trichotomy found step with earlier | same | later
      · exact before found earlier ⟨holds.2.1, foundKey⟩
      · rw [same] at holds
        exact absurd (free.symm.trans holds.2.1) Bool.false_ne_true
      · exact absurd ((first step later).symm.trans key) Bool.false_ne_true
  · intro unshadowed
    cases scanned : foundStep drvData ctx seqno .findFence with
    | none =>
      have nobody : ¬ ∃ slot, drvData.Holds ctx seqno slot := by
        rintro ⟨slot, holds⟩
        obtain ⟨found, elsewhere⟩ := Holds.exists_found holds
        rw [scanned] at elsewhere
        cases elsewhere
      have missed := find_missed scanned
      have failed := destroy_missed scanned
      exact {
        finds := iff_of_false (fun some => some missed) nobody
        hashed := fun hash found => by
          rw [missed] at found
          cases found
        destroys := by
          rw [failed]
          exact iff_of_false (show eInval ≠ 0 by decide) nobody
        destroyed := fun success => by
          rw [failed] at success
          cases success
        refused := fun _ => by rw [failed] }
    | some found =>
      have holds := FreeCleared.found_valid cleared unshadowed scanned
      have pos : 0 < drvData.entries :=
        Nat.zero_lt_of_lt (foundStep_find_iff.mp scanned).1
      have hit := find_found scanned
      have succeeded := destroy_found scanned
      exact {
        finds := iff_of_true (by rw [hit]; exact Option.some_ne_none _) ⟨_, holds⟩
        hashed := fun hash same => by
          rw [hit] at same
          cases same
          rw [drvData.probe_toNat pos]
          exact holds
        destroys := by
          rw [succeeded]
          exact iff_of_true rfl ⟨_, holds⟩
        destroyed := fun _ => by
          rw [succeeded]
          exact ⟨_, holds, by rw [put_slot]; rfl,
            fun other apart => put_other apart⟩
        refused := fun failed => by
          rw [succeeded] at failed
          exact absurd rfl failed }

theorem destroysOwn_iff {hash : BitVec 64} : DestroysOwn drvData clientId hash ↔ drvData.OwnHash clientId hash := by
  unfold DestroysOwn HwFenceDriverData.OwnHash hwFenceDestroyWithHash getHwFence
  by_cases inside : hash.toNat < drvData.entries
  · rw [if_neg (by omega)]
    by_cases own : (drvData.hwFencesTbl hash.toNat).fenceAllocator = clientId
    · have key : hwFenceMatch (drvData.hwFencesTbl hash.toNat)
          (drvData.hwFencesTbl hash.toNat).ctxId (drvData.hwFencesTbl hash.toNat).seqId = true := by
        unfold hwFenceMatch
        rw [beq_self_eq_true, beq_self_eq_true]
        rfl
      generalize contextOf : (drvData.hwFencesTbl hash.toNat).ctxId = ctx at key
      generalize seqnoOf : (drvData.hwFencesTbl hash.toNat).seqId = seqno at key
      have first : drvData.FirstOfKey hash ↔ (drvData.hwFencesTbl hash.toNat).valid = true ∧
          ∀ step, step < drvData.entries → drvData.probe ctx seqno step = hash.toNat → ∀ earlier, earlier < step →
              hwFenceMatch (drvData.probed ctx seqno earlier) ctx seqno = false := by
        unfold HwFenceDriverData.FirstOfKey
        dsimp only
        rw [contextOf, seqnoOf]
      obtain ⟨step, stepInside, probes⟩ := exists_probeSlot inside (hashStart drvData ctx seqno)
      change drvData.probe ctx seqno step = hash.toNat at probes
      cases scanned : foundStep drvData ctx seqno .findFence with
      | none =>
        have missing := foundStep_find_none.mp scanned step stepInside
        unfold probed at missing
        rw [probes, key] at missing
        cases missing
      | some found =>
        obtain ⟨foundInside, foundKey, before⟩ := foundStep_find_iff.mp scanned
        dsimp only
        rw [contextOf, seqnoOf, cleanup_found scanned]
        simp only [ne_eq, not_true, if_false, inside, own, first, true_and, false_and, or_false, forall_const]
        constructor
        · rintro ⟨valid, invalid, -⟩
          have here : drvData.probe ctx seqno found = hash.toNat := by
            by_contra elsewhere
            rw [put_other (Ne.symm elsewhere)] at invalid
            exact absurd (invalid.symm.trans valid) Bool.false_ne_true
          refine ⟨valid, fun other otherInside otherProbes => ?_⟩
          have same := probeSlot_injective otherInside foundInside (otherProbes.trans here.symm)
          rw [same]
          exact before
        · rintro ⟨valid, alone⟩
          have same : found = step := by
            rcases Nat.lt_trichotomy found step with earlier | same | later
            · exact absurd ((alone step stepInside probes found earlier).symm.trans foundKey) Bool.false_ne_true
            · exact same
            · have missed := before step later
              unfold probed at missed
              rw [probes, key] at missed
              cases missed
          rw [same, probes]
          exact ⟨valid, by rw [put_slot]; rfl,
            fun other apart => put_other apart⟩
    · refine iff_of_true (.inr ?_) fun _ mine => absurd mine own
      dsimp only
      rw [if_pos own]
      exact ⟨show eInval ≠ 0 by decide, rfl⟩
  · refine iff_of_true (.inr ?_) fun lt => absurd lt inside
    rw [if_pos (by omega)]
    exact ⟨show eInval ≠ 0 by decide, rfl⟩

/-- In every table that calls lead to: a key is found as its valid fence exactly when no free slot is found for it,
and a fence is destroyed by its hash exactly when no slot with its key is probed before it. -/
theorem fences_found_iff (tableEntries : BitVec 32) (drvData : HwFenceDriverData)
    (reached : Reachable TableCall.perform (fun _ _ => True) (.initial tableEntries) drvData)
    (context seqno : BitVec 64) (clientId : BitVec 32) (hash : BitVec 64) :
    (LooksUp drvData context seqno ↔ ¬ drvData.FreeSlotFound context seqno) ∧
      (DestroysOwn drvData clientId hash ↔ drvData.OwnHash clientId hash) := by
  have cleared : drvData.FreeCleared := reached.invariant HwFenceDriverData.FreeCleared
    (fun _ _ => ⟨rfl, rfl⟩)
    fun before call after cleared _ performed => FreeCleared.perform cleared performed
  exact ⟨FreeCleared.looksUp_iff cleared, destroysOwn_iff⟩

/-- The key of free slots is found in the empty table. -/
theorem free_slot_found :
    msmHwFenceFind (.initial 1) 0 0 ≠ none ∧ ¬ ∃ slot, (HwFenceDriverData.initial 1).Holds 0 0 slot :=
  ⟨by decide, fun ⟨_, _, valid, _⟩ => absurd valid Bool.false_ne_true⟩

theorem fences_found_first : ∃ drvData, runActions TableCall.perform (fun _ _ => True) (.initial 2)
        [.create 1 1 1, .create 1 1 3] = some drvData ∧ LooksUp drvData 1 3 :=
  ran_to (fun _ => True) (by decide) fun drvData ran _ => (fences_found_iff 2 drvData (.run .start ran) 1 3 1 1).1.mpr
    fun found => absurd found.1 (by decide)

end KernelModules.HwFence

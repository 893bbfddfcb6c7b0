import KernelModules.HwFence.TableCalls

namespace KernelModules.HwFence

open Data

/-! # Keys of the fence table

A creation compares its key with the fences it meets before the first free slot only.
-/

def HwFenceDriverData.Holds (drvData : HwFenceDriverData) (context seqno : BitVec 64)
    (slot : Nat) : Prop :=
  slot < drvData.entries ∧ (drvData.hwFencesTbl slot).valid = true ∧
    hwFenceMatch (drvData.hwFencesTbl slot) context seqno = true

def HwFenceDriverData.UniqueKeys (drvData : HwFenceDriverData) : Prop :=
  ∀ context seqno slot other, drvData.Holds context seqno slot → drvData.Holds context seqno other → slot = other

def HwFenceDriverData.NoneFreeBefore (drvData : HwFenceDriverData) (context seqno : BitVec 64) : Prop :=
  ∀ step, step < drvData.entries → (drvData.probed context seqno step).valid = true →
    hwFenceMatch (drvData.probed context seqno step) context seqno = true →
      ∀ earlier, earlier < step → (drvData.probed context seqno earlier).valid = true

instance (drvData : HwFenceDriverData) (context seqno : BitVec 64) :
    Decidable (drvData.NoneFreeBefore context seqno) :=
  inferInstanceAs (Decidable (∀ step, step < drvData.entries → _))

/-- A creation, also of a join fence, finds no free slot before a valid fence with its key. -/
def TableCall.Guarded (drvData : HwFenceDriverData) : TableCall → Prop
  | .create _ context seqno => drvData.NoneFreeBefore context seqno
  | .processFenceArray _ array _ => drvData.NoneFreeBefore array.context array.seqno
  | _ => True

instance (drvData : HwFenceDriverData) (call : TableCall) : Decidable (call.Guarded drvData) := by
  cases call <;> dsimp only [TableCall.Guarded] <;> infer_instance

section Creation

variable {drvData : HwFenceDriverData} {context seqno : BitVec 64} {slot : Nat}

theorem LookupOp.verdict_creates (creates : opCode.creates = true) :
    lookupVerdict drvData context seqno opCode step = if (drvData.probed context seqno step).valid then
        if hwFenceMatch (drvData.probed context seqno step) context seqno then some false else none else some true := by
  unfold lookupVerdict LookupOp.compareFnc isHwFenceFree
  cases filled : (drvData.probed context seqno step).valid <;> simp [creates, filled]

theorem HwFenceDriverData.Holds.probed (holds : drvData.Holds context seqno slot) :
    ∃ step, step < drvData.entries ∧ drvData.probe context seqno step = slot :=
  exists_probeSlot holds.1 _

theorem creation_refused (opCode : LookupOp) (creates : opCode.creates = true)
    (noneFree : drvData.NoneFreeBefore context seqno) (holds : drvData.Holds context seqno slot) :
    foundStep drvData context seqno opCode = none := by
  obtain ⟨step, inside, rfl⟩ := holds.probed
  obtain ⟨-, valid, key⟩ := holds
  cases scanned : foundStep drvData context seqno opCode with
  | none => rfl
  | some found =>
    obtain ⟨foundInside, success, before⟩ := foundStep_eq_some_iff.mp scanned
    rw [opCode.verdict_creates creates] at success
    have free : (drvData.probed context seqno found).valid = false := by
      cases filled : (drvData.probed context seqno found).valid with
      | false => rfl
      | true =>
        rw [filled, if_pos rfl] at success
        split at success <;> cases success
    rcases Nat.lt_trichotomy step found with earlier | same | later
    · have passed := before step earlier
      rw [opCode.verdict_creates creates] at passed
      change (drvData.probed context seqno step).valid = true at valid
      change hwFenceMatch (drvData.probed context seqno step) context seqno = true at key
      rw [valid, key] at passed
      cases passed
    · rw [← same] at free
      exact absurd (free.symm.trans valid) Bool.false_ne_true
    · have filled := noneFree step inside valid key found later
      rw [free] at filled
      cases filled

theorem creation_misled (opCode : LookupOp) (unique : drvData.UniqueKeys) (creates : opCode.creates = true)
    (holes : ¬ drvData.NoneFreeBefore context seqno) :
    ∃ found, foundStep drvData context seqno opCode = some found := by
  unfold HwFenceDriverData.NoneFreeBefore at holes
  simp only [not_forall] at holes
  obtain ⟨step, inside, valid, key, free, earlier, empty⟩ := holes
  have success : lookupVerdict drvData context seqno opCode free = some true := by
    rw [opCode.verdict_creates creates, if_neg empty]
  refine scan_first (Nat.zero_le _) (by omega) success fun before lt stopped => ?_
  rw [opCode.verdict_creates creates] at stopped
  split at stopped
  · rename_i filled
    split at stopped
    · rename_i sameKey
      have pos : 0 < drvData.entries := by omega
      have sameSlot := unique context seqno _ _ ⟨drvData.probe_lt pos context seqno before, filled, sameKey⟩
        ⟨drvData.probe_lt pos context seqno step, valid, key⟩
      have sameStep := probeSlot_injective (by omega) inside sameSlot
      omega
    · cases stopped
  · cases stopped

theorem HwFenceDriverData.put_slot : (drvData.put slot fence).hwFencesTbl slot = fence :=
  if_pos rfl

theorem HwFenceDriverData.put_other (apart : other ≠ slot) :
    (drvData.put slot fence).hwFencesTbl other = drvData.hwFencesTbl other :=
  if_neg apart

theorem MsmHwFence.SameFence.matches (same : fence.SameFence other) :
    hwFenceMatch fence context seqno = hwFenceMatch other context seqno := by
  obtain ⟨-, sameContext, sameSeqno, -⟩ := same
  unfold hwFenceMatch
  rw [sameContext, sameSeqno]

theorem HwFenceDriverData.Holds.of_put (holds : (drvData.put slot fence).Holds context seqno other)
    (kept : fence.valid = true → fence.SameFence (drvData.hwFencesTbl slot)) : drvData.Holds context seqno other := by
  obtain ⟨inside, valid, key⟩ := holds
  by_cases same : other = slot
  · rw [same, HwFenceDriverData.put_slot] at valid key
    rw [same]
    rw [same] at inside
    have fields := kept valid
    exact ⟨inside, fields.1 ▸ valid, fields.matches ▸ key⟩
  · rw [HwFenceDriverData.put_other same] at valid key
    exact ⟨inside, valid, key⟩

theorem HwFenceDriverData.UniqueKeys.put (unique : drvData.UniqueKeys)
    (kept : fence.valid = true → fence.SameFence (drvData.hwFencesTbl slot)) :
    (drvData.put slot fence).UniqueKeys := fun context seqno _ _ holds otherHolds =>
  unique context seqno _ _ (holds.of_put kept) (otherHolds.of_put kept)

theorem UniqueKeys.kept : Kept HwFenceDriverData.UniqueKeys where
  changed := fun _ _ _ unique same => unique.put fun _ => same
  destroyed := fun drvData context seqno unique => by
    unfold hwFenceCleanup
    cases scanned : foundStep drvData context seqno .destroy with
    | none =>
      obtain ⟨last, missed⟩ := lookup_missed scanned
      rw [missed]
      exact unique
    | some found =>
      rw [lookup_found scanned]
      exact unique.put fun valid => absurd valid Bool.false_ne_true

theorem LookupOp.created (opCode : LookupOp) (fence : MsmHwFence) (context seqno : BitVec 64)
    (creates : opCode.creates = true) : (opCode.processFnc fence context seqno).valid = true ∧
      (opCode.processFnc fence context seqno).ctxId = context ∧
      (opCode.processFnc fence context seqno).seqId = seqno := by
  cases opCode with
  | create clientId => exact ⟨rfl, rfl, rfl⟩
  | createJoin clientId pendingChildCnt => exact ⟨rfl, rfl, rfl⟩
  | destroy => cases creates
  | findFence => cases creates

theorem UniqueKeys.created (unique : drvData.UniqueKeys) (creates : opCode.creates = true)
    (noneFree : drvData.NoneFreeBefore context seqno) :
    (hwFenceLookupAndProcess drvData context seqno opCode).drvData.UniqueKeys := by
  cases scanned : foundStep drvData context seqno opCode with
  | none =>
    obtain ⟨last, missed⟩ := lookup_missed scanned
    rw [missed]
    exact unique
  | some found =>
    rw [lookup_found scanned]
    have absent : ∀ slot, ¬ drvData.Holds context seqno slot := fun slot holds => by
      rw [creation_refused opCode creates noneFree holds] at scanned
      cases scanned
    -- the new fence is the only one with its key, and the others are where they were
    have fresh : ∀ c s other, (drvData.put (drvData.probe context seqno found)
        (opCode.processFnc (drvData.probed context seqno found) context seqno)).Holds c s other →
        other = drvData.probe context seqno found ∧ c = context ∧ s = seqno ∨
          other ≠ drvData.probe context seqno found ∧ drvData.Holds c s other := by
      rintro c s other ⟨inside, valid, key⟩
      by_cases same : other = drvData.probe context seqno found
      · left
        obtain ⟨-, sameContext, sameSeqno⟩ :=
          opCode.created (drvData.probed context seqno found) context seqno creates
        rw [same, HwFenceDriverData.put_slot] at key
        unfold hwFenceMatch at key
        rw [sameContext, sameSeqno, Bool.and_eq_true, beq_iff_eq, beq_iff_eq] at key
        exact ⟨same, key.1.symm, key.2.symm⟩
      · rw [HwFenceDriverData.put_other same] at valid key
        exact .inr ⟨same, inside, valid, key⟩
    intro c s slot other holds otherHolds
    rcases fresh c s slot holds with ⟨here, rfl, rfl⟩ | ⟨-, old⟩
    · rcases fresh _ _ other otherHolds with ⟨otherHere, -, -⟩ | ⟨-, otherOld⟩
      · rw [here, otherHere]
      · exact absurd otherOld (absent other)
    · rcases fresh c s other otherHolds with ⟨-, rfl, rfl⟩ | ⟨-, otherOld⟩
      · exact absurd old (absent slot)
      · exact unique c s slot other old otherOld

theorem UniqueKeys.perform {call : TableCall} (unique : drvData.UniqueKeys)
    (guarded : call.Guarded drvData) (performed : call.perform drvData = some after) : after.UniqueKeys := by
  cases call with
  | create clientId context seqno =>
    cases performed
    exact UniqueKeys.created unique rfl guarded
  | destroy context seqno =>
    cases performed
    exact UniqueKeys.kept.destroyed drvData context seqno unique
  | destroyWithHash clientId hash =>
    cases performed
    exact UniqueKeys.kept.destroyWithHash unique
  | processFenceArray client array clientData =>
    obtain ⟨answer, processed, rfl⟩ := Option.map_eq_some_iff.mp performed
    exact UniqueKeys.kept.processFenceArray unique (UniqueKeys.created unique rfl guarded) processed
  | registerWaitClient client context seqno clientData =>
    cases performed
    exact UniqueKeys.kept.registerWaitClient unique

end Creation

/-- The keys are unique in every run whose creations find no free slot before a valid fence of their key, and a
creation of a valid key fails, changing nothing, exactly when it finds none. -/
theorem table_keys_unique_iff (tableEntries : BitVec 32) (drvData : HwFenceDriverData)
    (reached : Reachable TableCall.perform (fun drvData call => call.Guarded drvData)
      (.initial tableEntries) drvData) :
    drvData.UniqueKeys ∧ ∀ context seqno, (∃ slot, drvData.Holds context seqno slot) →
      (∀ clientId, (hwFenceCreate drvData clientId context seqno).ret ≠ 0 ∧
          (hwFenceCreate drvData clientId context seqno).drvData = drvData ↔
        drvData.NoneFreeBefore context seqno) ∧
      (∀ client array clientData, array.context = context → array.seqno = seqno →
        drvData.NoneFreeBefore context seqno →
          ∃ answer, hwFenceProcessFenceArray drvData client array clientData = some answer ∧
            answer.ret ≠ 0 ∧ answer.drvData = drvData) := by
  have unique : drvData.UniqueKeys := reached.invariant HwFenceDriverData.UniqueKeys
    (fun _ _ _ _ holds => absurd holds.2.1 Bool.false_ne_true)
    fun before call after unique guarded performed => UniqueKeys.perform unique guarded performed
  refine ⟨unique, fun context seqno held => ⟨fun clientId => ?_, ?_⟩⟩
  · obtain ⟨slot, holds⟩ := held
    constructor
    · rintro ⟨failed, -⟩
      by_contra misled
      obtain ⟨found, scanned⟩ := creation_misled (.create clientId) unique rfl misled
      unfold hwFenceCreate at failed
      rw [lookup_found scanned] at failed
      exact failed rfl
    · intro noneFree
      have scanned := creation_refused (.create clientId) rfl noneFree holds
      obtain ⟨last, missed⟩ := lookup_missed scanned
      unfold hwFenceCreate
      rw [missed]
      exact ⟨show eInval ≠ 0 by decide, rfl⟩
  · rintro client array clientData rfl rfl noneFree
    obtain ⟨slot, holds⟩ := held
    have scanned := creation_refused (.createJoin hwFenceJoinFenceClientId array.numFences)
      rfl noneFree holds
    obtain ⟨last, missed⟩ := lookup_missed scanned
    unfold hwFenceProcessFenceArray
    split
    · exact ⟨_, rfl, show eInval ≠ 0 by decide, rfl⟩
    · rw [missed]
      exact ⟨_, rfl, show eInval ≠ 0 by decide, rfl⟩

/-- Two keys that share their slots: once the first is destroyed, the second is created in
front of itself. -/
theorem key_created_twice : ∃ drvData, runActions TableCall.perform (fun _ _ => True) (.initial 2)
        [.create 1 1 1, .create 1 1 3, .destroy 1 1, .create 1 1 3] = some drvData ∧
      ¬ drvData.UniqueKeys := by
  refine ran_to (fun drvData => (0 < drvData.entries ∧ 1 < drvData.entries) ∧
    ((drvData.hwFencesTbl 0).valid = true ∧ hwFenceMatch (drvData.hwFencesTbl 0) 1 3 = true) ∧
      (drvData.hwFencesTbl 1).valid = true ∧ hwFenceMatch (drvData.hwFencesTbl 1) 1 3 = true) (by decide)
    fun drvData _ ⟨⟨zero, one⟩, first, second⟩ unique => ?_
  have same := unique 1 3 0 1 ⟨zero, first⟩ ⟨one, second⟩
  cases same

theorem table_keys_unique_second :
    ∃ drvData, runActions TableCall.perform (fun drvData call => call.Guarded drvData)
        (.initial 2) [.create 1 1 1, .create 1 1 3] = some drvData ∧
      (hwFenceCreate drvData 1 1 3).ret ≠ 0 ∧ (hwFenceCreate drvData 1 1 3).drvData = drvData :=
  ran_to (fun drvData => 1 < drvData.entries ∧ (drvData.hwFencesTbl 1).valid = true ∧
    hwFenceMatch (drvData.hwFencesTbl 1) 1 3 = true ∧ drvData.NoneFreeBefore 1 3) (by decide)
    fun drvData ran ⟨inside, valid, key, noneFree⟩ =>
      (((table_keys_unique_iff 2 drvData (.run .start ran)).2 1 3 ⟨1, inside, valid, key⟩).1 1).mpr noneFree

end KernelModules.HwFence

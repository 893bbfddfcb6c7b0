import KernelModules.MgmtRx.Movement
import KernelModules.Data.Indexed

namespace KernelModules.MgmtRx

open Data WaitCount

def WaitCount.Consistent (waitCount : WaitCount) : Prop := waitCount.totalCount = waitCount.sum

def ListEntry.Counted (entry : ListEntry) : Prop :=
  entry.waitCount.Consistent ∧ (entry.status.waitForFrameOnOtherLinks = true ↔ entry.waitCount.sum ≠ 0)

section Counts

variable {waitCount : WaitCount} {entry : ListEntry}

theorem WaitCount.sum_eq (waitCount : WaitCount) :
    waitCount.sum = ∑ link ∈ Finset.range maxMloLinks, waitCount.perLinkCount link := rfl

theorem sum_perLink (counts : Nat → Nat) (count total : Nat) (lt : link < maxMloLinks) :
    (mk (Function.update counts link count) total).sum + counts link = (mk counts total).sum + count := by
  have before := sum_others (fun _ (entry : Nat) => entry) counts lt
  have after := sum_update (fun _ (entry : Nat) => entry) counts count lt
  rw [sum_eq, sum_eq]
  dsimp only
  omega

theorem WaitCount.lower_consistent (consistent : waitCount.Consistent) (lt : link < maxMloLinks)
    (less : count ≤ waitCount.perLinkCount link) : (waitCount.lower link count).Consistent ∧
      (waitCount.lower link count).totalCount ≤ waitCount.totalCount := by
  have replaced := sum_perLink waitCount.perLinkCount count waitCount.totalCount lt
  unfold WaitCount.Consistent lower at *
  constructor
  · dsimp only
    have same : (mk waitCount.perLinkCount waitCount.totalCount).sum = waitCount.sum := rfl
    have free (total : Nat) : (mk (Function.update waitCount.perLinkCount link count) total).sum =
        (mk (Function.update waitCount.perLinkCount link count) waitCount.totalCount).sum := rfl
    rw [free]
    omega
  · exact Nat.sub_le _ _

theorem updateWaitCountLink_consistent (newFrame : WaitCount) (consistent : waitCount.Consistent)
    (lt : link < maxMloLinks) : (updateWaitCountLink newFrame waitCount link).Consistent ∧
      (updateWaitCountLink newFrame waitCount link).totalCount ≤ waitCount.totalCount := by
  unfold updateWaitCountLink
  by_cases counted : waitCount.perLinkCount link ≠ 0
  · rw [if_pos counted]
    exact lower_consistent consistent lt (Nat.min_le_left _ _)
  · rw [if_neg counted]
    exact ⟨consistent, le_rfl⟩

theorem updateWaitCount_consistent (newFrame : WaitCount) (consistent : waitCount.Consistent) :
    (updateWaitCount waitCount newFrame).Consistent ∧
      (updateWaitCount waitCount newFrame).totalCount ≤ waitCount.totalCount := by
  have loop : ∀ links : List Nat, (∀ link ∈ links, link < maxMloLinks) → ∀ start : WaitCount,
      start.Consistent → (links.foldl (updateWaitCountLink newFrame) start).Consistent ∧
          (links.foldl (updateWaitCountLink newFrame) start).totalCount ≤ start.totalCount := by
    intro links
    induction links with
    | nil => exact fun _ start kept => ⟨kept, le_rfl⟩
    | cons link rest ih =>
      intro lt start kept
      obtain ⟨first, less⟩ := updateWaitCountLink_consistent newFrame kept (lt link List.mem_cons_self)
      obtain ⟨last, lesser⟩ := ih (fun other among => lt other (List.mem_cons_of_mem _ among))
        _ first
      exact ⟨last, le_trans lesser less⟩
  exact loop _ (fun link among => List.mem_range.mp among) waitCount consistent

theorem ListEntry.Counted.setWaitCount (counted : entry.Counted)
    (lower : waitCount.Consistent ∧ waitCount.totalCount ≤ entry.waitCount.totalCount) :
    (entry.setWaitCount waitCount).Counted := by
  obtain ⟨consistent, flag⟩ := counted
  obtain ⟨lowered, less⟩ := lower
  refine ⟨lowered, ?_⟩
  unfold WaitCount.Consistent at consistent lowered
  show (entry.status.waitForFrameOnOtherLinks && decide (waitCount.totalCount ≠ 0)) = true ↔ waitCount.sum ≠ 0
  rw [Bool.and_eq_true, flag, decide_eq_true_iff]
  omega

theorem lowerOlder_counted (desc : FrameDescriptor) (counted : entry.Counted) : (lowerOlder desc entry).Counted :=
  counted.setWaitCount (updateWaitCount_consistent _ counted.1)

theorem lowerNewer_counted (lt : desc.reoParams.linkId < maxMloLinks) (counted : entry.Counted) :
    (lowerNewer desc entry).Counted := by
  unfold lowerNewer
  by_cases waits : entry.waitCount.perLinkCount desc.reoParams.linkId ≠ 0
  · rw [if_pos waits]
    exact counted.setWaitCount (lower_consistent counted.1 lt (Nat.sub_le _ _))
  · rw [if_neg waits]
    exact counted

theorem prepareListEntry_counted (consistent : desc.waitCount.Consistent) : (prepareListEntry desc).Counted := by
  refine ⟨consistent, ?_⟩
  show decide (desc.waitCount.totalCount ≠ 0) = true ↔ desc.waitCount.sum ≠ 0
  rw [decide_eq_true_iff, consistent]

theorem ingressEntry_counted (now : BitVec 64) (leastGreater : Option ListEntry) (counted : entry.Counted) :
    (ingressEntry desc now entry leastGreater).Counted := by
  cases leastGreater with
  | none => exact counted
  | some greater =>
    have lower := updateWaitCount_consistent greater.waitCount counted.1
    unfold ingressEntry
    dsimp only
    generalize updateWaitCount entry.waitCount greater.waitCount = waitCount at lower ⊢
    exact counted.setWaitCount lower

theorem waitCountRounds_consistent (readings : Nat → LinkReading) (inLink : Nat) (globalTs : BitVec 32)
    (hosts : Nat → SnapshotParams) (consistent : waitCount.Consistent)
    (zero : ∀ other, link ≤ other → waitCount.perLinkCount other = 0) (links : link + left = maxMloLinks)
    (called : (waitCountRounds readings inLink globalTs link left hosts waitCount).2 = .ok counted) :
    counted.Consistent := by
  induction left generalizing link hosts waitCount with
  | zero =>
    exact Except.ok.inj called ▸ consistent
  | succ left ih =>
    rw [waitCountRounds] at called
    dsimp only at called
    split at called
    · cases called
    · rename_i count found
      apply ih _ _ _ (by omega) called
      · have replaced := sum_perLink waitCount.perLinkCount count
          (waitCount.totalCount + count) (show link < maxMloLinks by omega)
        rw [zero link le_rfl] at replaced
        have same : (mk waitCount.perLinkCount (waitCount.totalCount + count)).sum = waitCount.sum := rfl
        unfold WaitCount.Consistent at consistent ⊢
        dsimp only
        omega
      · intro other later
        dsimp only
        rw [Function.update_of_ne (by omega)]
        exact zero other (by omega)

theorem calculateWaitCount_counted (zero : desc.waitCount = { perLinkCount := fun _ => 0, totalCount := 0 })
    (called : calculateWaitCount readings hosts desc = (invalidated, .ok counted)) :
    counted.waitCount.Consistent ∧ counted.reoParams = desc.reoParams ∧ counted.reoParams.linkId < maxMloLinks := by
  unfold calculateWaitCount at called
  by_cases refused : (decide (maxMloLinks ≤ desc.reoParams.linkId) ||
      (readings desc.reoParams.linkId).isInvalidLink) = true
  · rw [if_pos refused] at called
    cases called
  rw [if_neg refused] at called
  dsimp only at called
  obtain ⟨rounds, found⟩ := Prod.mk.inj called
  cases sum : (waitCountRounds readings desc.reoParams.linkId desc.reoParams.globalTimestamp 0
      maxMloLinks hosts desc.waitCount).2 with
  | error status =>
    rw [sum] at found
    cases found
  | ok waitCount =>
    rw [sum] at found
    have same := Except.ok.inj found
    subst same
    refine ⟨?_, rfl, ?_⟩
    · apply waitCountRounds_consistent readings _ _ hosts _ _ (zero_add _) sum
      · rw [zero]
        rfl
      · rw [zero]
        exact fun _ _ => rfl
    · apply Nat.lt_of_not_le
      intro large
      exact refused (by rw [decide_eq_true large]; rfl)

end Counts

end KernelModules.MgmtRx

import KernelModules.Data.Run
import KernelModules.GpuMemory.Pins
import KernelModules.GpuMemory.PageMap

namespace KernelModules.GpuMemory

open Data List

/-! # Binding when the MMU fails

Tree, page table and counts stay in step over every run in which no unmap fails right after the far half of a split.
-/

namespace Vbo

variable {vbo after : Vbo} {held : List Nat} {entry start last off size count : Nat} {cur : BindRange}
  {alloc : Bool} {answers : MmuAnswers}

namespace Walked

theorem refl (pins : Pins held vbo) (formed : WellFormed size vbo.ranges) : Walked size held vbo vbo :=
  ⟨pins, formed, .refl⟩

theorem since (walked : Walked size held vbo after) (same : SameObject earlier vbo) :
    Walked size held earlier after := ⟨walked.pins, walked.formed, same.trans walked.same⟩

end Walked

theorem Walked.drop (walked : Walked size (entry :: held) vbo after) : Walked size held vbo (after.drop entry) :=
  ⟨walked.pins.drop, walked.formed, walked.same.trans .drop⟩

theorem addRange_unsplit (formed : WellFormed size vbo.ranges)
    (unmaps : (∃ cur ∈ vbo.ranges, Splits start last cur) → answers.unmapRange 0 = true)
    (range : BindRange) (mem : range ∈ vbo.overlapping { start, last }) (splits : Splits start last range) :
    vbo.overlapping { start, last } = [range] ∧ answers.unmapRange 0 = true := by
  have listed := (overlapping_listed range mem).1
  refine ⟨?_, unmaps ⟨range, listed, splits⟩⟩
  have once : (vbo.overlapping { start, last }).Nodup := formed.nodup.filter _
  refine perm_singleton.mp ((perm_ext_iff_of_nodup once (nodup_singleton _)).mpr ?_)
  intro other
  rw [mem_singleton]
  constructor
  · intro also
    obtain ⟨known, overlap⟩ := overlapping_listed other also
    by_contra different
    have apart := formed.clear known listed different
    unfold Span.Apart at apart
    unfold Span.Overlaps at overlap
    unfold Splits at splits
    dsimp only at overlap
    omega
  · rintro rfl
    exact mem

theorem flavour_walked (pins : Pins held vbo) (formed : WellFormed size vbo.ranges)
    (flavour : after = if vbo.noMapZero then vbo else vbo.unmapRange start (last - start + 1)) :
    Walked size held vbo after ∧ after.ranges = vbo.ranges ∧
      (after.noMapZero = false → after.Cleared { start, last }) := by
  split at flavour
  · rename_i zero
    rw [flavour]
    exact ⟨.refl pins formed, rfl, fun mapped => absurd (zero.symm.trans mapped).symm Bool.false_ne_true⟩
  · rw [flavour]
    refine ⟨⟨?_, formed, .setPages _⟩, rfl, fun _ page covers bound place ran => ?_⟩
    · exact pins.exchange rfl (.refl _) fun page bound place ran =>
        pins.mapped page bound place (unmapRange_child ran).1
    · refine (unmapRange_child ran).2 ⟨covers.1, ?_⟩
      have upper : pageAddr page ≤ last := covers.2
      omega

theorem mapChild_walked (walked : Walked size (entry :: held) vbo after) (proper : start ≤ last)
    (inside : last < size) (paged : PageSpan { start, last })
    (clear : ∀ range ∈ after.ranges, Span.Apart { start, last } range.toSpan) : Walked size held vbo
      ((after.mapChild start entry off (last - start + 1)).treeInsert { start, last, entry }) := by
  obtain ⟨joined, whole⟩ : ∃ joined, joined =
      (after.mapChild start entry off (last - start + 1)).treeInsert { start, last, entry } := ⟨_, rfl⟩
  rw [← whole]
  have ranges : joined.ranges.Perm ({ start, last, entry } :: after.ranges) := by
    rw [whole]
    exact treeInsert_ranges _
  have pinned : joined.pinned = after.pinned := by rw [whole]; rfl
  constructor
  · refine walked.pins.exchange (by rw [whole]; rfl) ?_ fun page bound place ran => ?_
    · rw [pinned]
      exact (((ranges.append_right _).map _).append_left held).trans perm_middle
    · rw [pinned, Binds.perm (ranges.append_right _), cons_append, binds_cons]
      rw [whole] at ran
      unfold mapChild setPages treeInsert at ran
      dsimp only at ran
      split at ran
      · rename_i covers
        cases ran
        exact .inl ⟨⟨covers.1, by dsimp only; omega⟩, rfl⟩
      · exact .inr (walked.pins.mapped page bound place ran)
  · exact (walked.formed.insert proper inside paged clear).perm ranges
  · rw [whole]
    exact (walked.same.trans (.setPages _)).trans (.treeInsert _)

section

variable (pins : Pins held vbo) (formed : WellFormed size vbo.ranges)
include pins formed

theorem addRange_walked (proper : start ≤ last) (inside : last < size)
    (paged : PageSpan { start, last }) (unmaps : alloc = true → vbo.noMapZero = true →
      (∃ cur ∈ vbo.ranges, Splits start last cur) → answers.unmapRange 0 = true) :
    Walked size held vbo (vbo.addRange start last entry off alloc answers).1 := by
  unfold addRange
  split
  · exact .refl pins formed
  rename_i memory
  have heldMore : Walked size (entry :: held) vbo (vbo.hold entry) := ⟨pins.hold, formed, .hold⟩
  dsimp only
  split
  · exact heldMore.drop
  obtain ⟨flavour, is⟩ : ∃ flavour, flavour = if (vbo.hold entry).noMapZero then vbo.hold entry
      else (vbo.hold entry).unmapRange start (last - start + 1) := ⟨_, rfl⟩
  rw [← is]
  obtain ⟨begun, ranges, clear⟩ := flavour_walked heldMore.pins heldMore.formed is
  have once : (flavour.overlapping { start, last }).Nodup := begun.formed.nodup.filter _
  have walked : Walked size (entry :: held) flavour
      (addLoop answers start last (flavour.overlapping { start, last }) 0 flavour).1 := by
    refine addLoop_walked begun.pins begun.formed proper paged once overlapping_listed clear ?_
    intro range mem splits zero
    refine addRange_unsplit begun.formed (fun some => ?_) range mem splits
    rw [ranges] at some
    exact unmaps (by simpa using memory) (begun.same.noMapZero ▸ zero) some
  have all := walked.since (heldMore.same.trans begun.same)
  split
  · rename_i swept looped
    rw [looped] at all
    exact all.drop
  rename_i swept looped
  rw [looped] at all
  split
  · exact all.drop
  · have cleared : Swept size { start, last } flavour.ranges swept.ranges :=
      addLoop_ok begun.formed proper paged once overlapping_listed
        (fun range known overlap => mem_filter.mpr ⟨known, decide_eq_true overlap⟩) looped
    exact mapChild_walked all proper inside paged cleared.clear

theorem unbound_walked (mem : cur ∈ vbo.ranges) (after : Vbo)
    (same : after = { vbo with ranges := vbo.ranges.erase cur, table := after.table })
    (fewer : ∀ page entry off, after.table page = .child entry off →
      vbo.table page = .child entry off ∧ ¬cur.Covers (pageAddr page)) :
    Walked size (cur.entry :: held) vbo after := by
  have ranges : after.ranges = vbo.ranges.erase cur := by rw [same]
  have pinned : after.pinned = vbo.pinned := by rw [same]
  refine ⟨pins.exchange ?_ ?_ fun page entry off ran => ?_, ?_, ?_⟩
  · rw [ranges, pinned]
    exact same
  · rw [ranges, pinned, map_append, map_append]
    refine perm_middle.symm.trans (List.Perm.append_left held ?_)
    exact ((perm_cons_erase mem).map BindRange.entry).symm.append_right _
  · obtain ⟨before, outside⟩ := fewer page entry off ran
    have bound := pins.mapped page entry off before
    rw [binds_append, Binds.perm (perm_cons_erase mem), binds_cons] at bound
    rw [ranges, pinned, binds_append]
    obtain (here | there) | pinned := bound
    · exact absurd here.1 outside
    · exact .inl there
    · exact .inr pinned
  · rw [ranges]
    exact formed.sublist erase_sublist
  · rw [same]
    exact ⟨rfl, rfl, rfl, rfl, rfl⟩

theorem removeLoop_walked (once : rest.Nodup) (listed : ∀ range ∈ rest, range ∈ vbo.ranges) :
    Walked size held vbo (removeLoop answers child rest count vbo) := by
  induction rest generalizing vbo count with
  | nil => exact .refl pins formed
  | cons cur rest ih =>
    obtain ⟨here, listed⟩ := forall_mem_cons.mp listed
    obtain ⟨new, once⟩ := nodup_cons.mp once
    unfold removeLoop
    split
    · split
      · exact ih pins formed once listed
      have gone (after : Vbo)
          (same : after = { vbo with ranges := vbo.ranges.erase cur, table := after.table })
          (fewer : ∀ page entry off, after.table page = .child entry off →
            vbo.table page = .child entry off ∧ ¬cur.Covers (pageAddr page)) :
          Walked size held vbo (removeLoop answers child rest (count + 1) (after.drop cur.entry)) := by
        have turned := (unbound_walked pins formed here after same fewer).drop
        refine (ih turned.pins turned.formed once fun range mem => ?_).since turned.same
        have stays : range ∈ vbo.ranges.erase cur := by
          refine (mem_erase_of_ne ?_).mpr (listed range mem)
          rintro rfl
          exact new mem
        rw [same]
        exact stays
      refine gone _ ?_ fun page entry off ran => ?_
      · split <;> rfl
      · have covered : cur.Covers (pageAddr page) →
            cur.start ≤ pageAddr page ∧ pageAddr page < cur.start + cur.length := by
          intro covers
          have upper := covers.2
          unfold BindRange.length
          exact ⟨covers.1, by omega⟩
        split at ran
        · have unmapped := (setPages_child (fun _ _ _ => Translation.noConfusion) ran).1
          obtain ⟨before, outside⟩ := unmapRange_child unmapped
          exact ⟨before, fun covers => outside (covered covers)⟩
        · obtain ⟨before, outside⟩ := unmapRange_child ran
          exact ⟨before, fun covers => outside (covered covers)⟩
    · exact ih pins formed once listed

theorem removeRange_walked : Walked size held vbo (vbo.removeRange start last child answers) := by
  refine removeLoop_walked pins formed ?_ fun range mem => (overlapping_listed range mem).1
  exact formed.nodup.filter _

end

theorem pinned_pins (pins : Pins held vbo) (mem : cur ∈ vbo.ranges) :
    Pins held { vbo.treeRemove cur with pinned := vbo.pinned ++ [cur] } := by
  have moved : (vbo.ranges.erase cur ++ (vbo.pinned ++ [cur])).Perm (vbo.ranges ++ vbo.pinned) := by
    rw [← append_assoc]
    refine (perm_append_singleton cur _).trans ?_
    exact ((perm_cons_erase mem).symm.append_right vbo.pinned)
  refine pins.exchange rfl ?_ fun page entry off ran => ?_
  · exact (moved.map BindRange.entry).append_left held
  · exact (Binds.perm moved).mpr (pins.mapped page entry off ran)

theorem putLoop_pins (pins : Pins held vbo) (formed : WellFormed size vbo.ranges) (once : rest.Nodup)
    (listed : ∀ range ∈ rest, range ∈ vbo.ranges)
    (clear : vbo.noMapZero = false → whole = true → ∀ range ∈ rest, vbo.Cleared range.toSpan) :
    Pins held (putLoop answers whole rest count vbo failed).1 ∧
      WellFormed size (putLoop answers whole rest count vbo failed).1.ranges := by
  induction rest generalizing vbo count failed with
  | nil => exact ⟨pins, formed⟩
  | cons cur rest ih =>
    obtain ⟨here, listed⟩ := forall_mem_cons.mp listed
    obtain ⟨new, once⟩ := nodup_cons.mp once
    have others : ∀ range ∈ rest, range ∈ vbo.ranges.erase cur := by
      intro range mem
      refine (mem_erase_of_ne ?_).mpr (listed range mem)
      rintro rfl
      exact new mem
    have fewer : WellFormed size (vbo.ranges.erase cur) := formed.sublist erase_sublist
    unfold putLoop
    dsimp only
    have unmapped (after : Vbo)
        (same : after = { vbo with ranges := vbo.ranges.erase cur, table := after.table })
        (gone : ∀ page entry off, after.table page = .child entry off →
          vbo.table page = .child entry off ∧ ¬cur.Covers (pageAddr page)) (failed : Bool) :
        Pins held (putLoop answers whole rest (count + 1) (after.drop cur.entry) failed).1 ∧
          WellFormed size (putLoop answers whole rest (count + 1) (after.drop cur.entry) failed).1.ranges := by
      have turned := (unbound_walked pins formed here after same gone).drop
      refine ih turned.pins turned.formed once (fun range mem => ?_) fun flavour is range mem => ?_
      · rw [same]
        exact others range mem
      · rw [same] at flavour
        intro page covers entry off ran
        exact clear flavour is range (mem_cons_of_mem _ mem) page covers entry off (gone page entry off ran).1
    have refused (failed : Bool) : Pins held (putLoop answers whole rest (count + 1)
          { vbo.treeRemove cur with pinned := vbo.pinned ++ [cur] } failed).1 ∧
        WellFormed size (putLoop answers whole rest (count + 1)
          { vbo.treeRemove cur with pinned := vbo.pinned ++ [cur] } failed).1.ranges :=
      ih (pinned_pins pins here) fewer once others fun flavour is range mem =>
        clear flavour is range (mem_cons_of_mem _ mem)
    cases up : (if (vbo.treeRemove cur).noMapZero = true then answers.unmapRange count else whole) with
    | false =>
      simp only [Bool.false_eq_true, and_false, if_false]
      exact refused _
    | true =>
      simp only [and_true, if_true]
      refine unmapped _ ?_ (fun page entry off ran => ?_) _
      · split <;> rfl
      · split at ran
        · obtain ⟨before, outside⟩ := unmapRange_child ran
          refine ⟨before, fun covers => outside ⟨covers.1, ?_⟩⟩
          have upper := covers.2
          unfold BindRange.length
          omega
        · rename_i flavour
          rw [if_neg flavour] at up
          refine ⟨ran, fun covers => ?_⟩
          exact clear (Bool.eq_false_of_not_eq_true flavour) up cur mem_cons_self page covers entry off ran

theorem putGpuaddr_pins (answers : MmuAnswers) (pins : Pins held vbo) (formed : WellFormed vbo.size vbo.ranges) :
    Pins held (vbo.putGpuaddr answers) ∧ WellFormed vbo.size (vbo.putGpuaddr answers).ranges := by
  obtain ⟨begun, is⟩ : ∃ begun, begun =
      if !vbo.noMapZero ∧ (vbo.noMapZero || answers.unmapWindow) then vbo.unmapRange 0 vbo.size else vbo :=
    ⟨_, rfl⟩
  have begunPins : Pins held begun ∧ begun.ranges = vbo.ranges ∧ (begun.noMapZero = false →
      (vbo.noMapZero || answers.unmapWindow) = true → ∀ range ∈ vbo.ranges, begun.Cleared range.toSpan) := by
    split at is
    · rw [is]
      refine ⟨?_, rfl, fun _ _ range mem page covers entry off ran => ?_⟩
      · exact pins.exchange rfl (.refl _) fun page entry off ran =>
          pins.mapped page entry off (unmapRange_child ran).1
      · refine (unmapRange_child ran).2 ⟨Nat.zero_le _, ?_⟩
        have upper : pageAddr page ≤ range.last := covers.2
        have inside := formed.inside range mem
        omega
    · rename_i skipped
      rw [is]
      refine ⟨pins, rfl, fun flavour whole => absurd ⟨?_, whole⟩ skipped⟩
      rw [flavour]
      rfl
  obtain ⟨begunPins, ranges, clear⟩ := begunPins
  have looped (failed : Bool) :
      Pins held (putLoop answers (vbo.noMapZero || answers.unmapWindow) vbo.ranges 0 begun failed).1 ∧
        WellFormed vbo.size
          (putLoop answers (vbo.noMapZero || answers.unmapWindow) vbo.ranges 0 begun failed).1.ranges :=
    putLoop_pins begunPins (ranges ▸ formed) formed.nodup (fun range mem => ranges.symm ▸ mem) clear
  unfold putGpuaddr
  dsimp only
  rw [← is, ranges]
  split
  · rename_i done ended
    have last := looped (!(vbo.noMapZero || answers.unmapWindow))
    rw [ended] at last
    exact last
  · rename_i done ended
    have last := looped (!(vbo.noMapZero || answers.unmapWindow))
    rw [ended] at last
    exact ⟨⟨last.1.vboCount, last.1.refs, last.1.mapped, last.1.dropped⟩, last.2⟩

end Vbo

end KernelModules.GpuMemory

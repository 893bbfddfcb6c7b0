import KernelModules.GpuMemory.Tree

namespace KernelModules.GpuMemory

open Data List

/-! # What the loops make of the tree

One lemma for each turn of a loop says which ranges the tree holds afterwards.
-/

namespace Vbo

variable {vbo after : Vbo} {start count len entry size : Nat} {answer : Bool}

theorem treeInsert_ranges (range : BindRange) : (vbo.treeInsert range).ranges.Perm (range :: vbo.ranges) :=
  perm_orderedInsert ..

@[simp] theorem drop_ranges : (vbo.drop entry).ranges = vbo.ranges := rfl

theorem unmapPart_some (unmapped : vbo.unmapPart answer start len = some after) :
    after = if vbo.noMapZero then vbo.unmapRange start len else vbo := by
  unfold unmapPart at unmapped
  split at unmapped
  · rename_i flavour
    rw [if_pos flavour]
    split at unmapped
    · exact (Option.some.inj unmapped).symm
    · cases unmapped
  · rename_i flavour
    rw [if_neg flavour]
    exact (Option.some.inj unmapped).symm

theorem unmapPart_none (failed : vbo.unmapPart answer start len = none) : vbo.noMapZero = true ∧ answer = false := by
  unfold unmapPart at failed
  split at failed
  · rename_i flavour
    split at failed
    · cases failed
    · rename_i refused
      exact ⟨flavour, Bool.eq_false_of_not_eq_true refused⟩
  · cases failed

theorem unmapPart_ranges (unmapped : vbo.unmapPart answer start len = some after) : after.ranges = vbo.ranges := by
  rw [unmapPart_some unmapped]
  split <;> rfl

theorem addNode_ok (added : vbo.addNode start last cur answer = (after, true)) :
    after.ranges.Perm (cur.parts { start, last } ++ vbo.ranges.erase cur) := by
  unfold addNode at added
  dsimp only at added
  unfold BindRange.parts Span.carve
  split at added
  · rename_i low
    rw [if_neg (not_lt.mpr low)]
    split at added
    · rename_i high
      rw [if_neg (not_lt.mpr high)]
      split at added
      · cases added
      · rename_i unmapped
        cases added
        rw [drop_ranges, unmapPart_ranges unmapped]
        exact .refl _
    · rename_i high
      rw [if_pos (not_le.mp high)]
      split at added
      · cases added
      · rename_i unmapped
        cases added
        refine (treeInsert_ranges _).trans ?_
        rw [unmapPart_ranges unmapped]
        exact .refl _
  · rename_i low
    rw [if_pos (not_le.mp low)]
    split at added
    · cases added
    · rename_i unmapped
      cases added
      refine (treeInsert_ranges _).trans ?_
      rw [unmapPart_ranges unmapped]
      refine List.Perm.cons _ ?_
      split
      · exact treeInsert_ranges _
      · exact .refl _

theorem addNode_failed (mem : cur ∈ vbo.ranges) (failed : vbo.addNode start last cur answer = (after, false)) :
    vbo.noMapZero = true ∧ answer = false ∧ after.ranges.Perm (cur.far { start, last } ++ vbo.ranges) := by
  have back (other : List BindRange) : (cur :: (other ++ vbo.ranges.erase cur)).Perm (other ++ vbo.ranges) :=
    perm_middle.symm.trans ((perm_cons_erase mem).symm.append_left other)
  unfold addNode at failed
  dsimp only at failed
  unfold BindRange.far
  split at failed
  · rename_i low
    rw [if_neg fun both => not_lt.mpr low both.1]
    split at failed <;> split at failed
    · rename_i refused
      cases failed
      exact ⟨(unmapPart_none refused).1, (unmapPart_none refused).2, (treeInsert_ranges _).trans (back [])⟩
    · cases failed
    · rename_i refused
      cases failed
      exact ⟨(unmapPart_none refused).1, (unmapPart_none refused).2, (treeInsert_ranges _).trans (back [])⟩
    · cases failed
  · rename_i low
    split at failed
    · rename_i refused
      obtain ⟨flavour, negative⟩ := unmapPart_none refused
      cases failed
      refine ⟨?_, negative, (treeInsert_ranges _).trans ?_⟩
      · rw [← flavour]
        split <;> rfl
      · split
        · rename_i high
          rw [if_pos ⟨not_le.mp low, high⟩]
          exact ((treeInsert_ranges _).cons _).trans (back [_])
        · rename_i high
          rw [if_neg fun both => high both.2]
          exact back []
    · cases failed

structure Swept (size : Nat) (window : Span) (before after : List BindRange) : Prop where
  formed : WellFormed size after
  clear : ∀ range ∈ after, window.Apart range.toSpan
  binds : ∀ page entry, Binds after page entry ↔ Binds before page entry ∧ ¬window.Covers (pageAddr page)

theorem addLoop_ok (formed : WellFormed size vbo.ranges) (proper : start ≤ last)
    (paged : PageSpan { start, last }) (once : rest.Nodup)
    (listed : ∀ range ∈ rest, range ∈ vbo.ranges ∧ range.toSpan.Overlaps { start, last })
    (all : ∀ range ∈ vbo.ranges, range.toSpan.Overlaps { start, last } → range ∈ rest)
    (looped : addLoop answers start last rest count vbo = (after, true)) :
    Swept size { start, last } vbo.ranges after.ranges := by
  induction rest generalizing vbo count with
  | nil =>
    cases looped
    have clear : ∀ range ∈ after.ranges, range.toSpan.Apart { start, last } := fun range mem =>
      Span.not_overlaps.mp fun overlap => absurd (all range mem overlap) not_mem_nil
    refine ⟨formed, fun range mem => (clear range mem).symm, fun page entry => ?_⟩
    refine ⟨fun binds => ?_, And.left⟩
    obtain ⟨range, mem, covers, same⟩ := binds
    exact ⟨⟨range, mem, covers, same⟩, (clear range mem).not_covers covers⟩
  | cons cur rest ih =>
    obtain ⟨⟨here, overlap⟩, listed⟩ := forall_mem_cons.mp listed
    obtain ⟨new, once⟩ := nodup_cons.mp once
    unfold addLoop at looped
    split at looped
    · cases looped
    · rename_i next turned
      have same := addNode_ok turned
      have carved := (formed.carve here overlap proper paged).perm same
      have left : ∀ range ∈ rest, range ∈ next.ranges ∧ range.toSpan.Overlaps { start, last } := by
        intro range mem
        refine ⟨same.mem_iff.mpr (mem_append_right _ ?_), (listed range mem).2⟩
        refine (mem_erase_of_ne ?_).mpr (listed range mem).1
        rintro rfl
        exact new mem
      have remaining : ∀ range ∈ next.ranges, range.toSpan.Overlaps { start, last } → range ∈ rest := by
        intro range mem meets
        obtain ⟨apart, known⟩ :=
          formed.nodup.mem_erase_iff.mp (overlaps_carve (same.mem_iff.mp mem) meets)
        exact (mem_cons.mp (all range known meets)).resolve_left apart
      have swept := ih carved once left remaining looped
      refine ⟨swept.formed, swept.clear, fun page entry => ?_⟩
      rw [swept.binds, Binds.perm same, binds_carve here overlap]

theorem overlapping_listed (range : BindRange) (mem : range ∈ vbo.overlapping { start, last }) :
    range ∈ vbo.ranges ∧ range.toSpan.Overlaps { start, last } := by
  obtain ⟨known, overlap⟩ := mem_filter.mp mem
  exact ⟨known, of_decide_eq_true overlap⟩

theorem addRange_ok {last : Nat} (formed : WellFormed size vbo.ranges) (proper : start ≤ last)
    (inside : last < size) (paged : PageSpan { start, last })
    (added : vbo.addRange start last entry off allocated answers = (after, true)) :
    WellFormed size after.ranges ∧ ∀ page bound, Binds after.ranges page bound ↔
      if Span.Covers { start, last } (pageAddr page) then bound = entry else Binds vbo.ranges page bound := by
  unfold addRange at added
  dsimp only at added
  split at added
  · cases added
  split at added
  · cases added
  split at added
  · cases added
  · rename_i swept looped
    split at added
    · cases added
    cases added
    have walked : ∀ flavour : Vbo, flavour.ranges = vbo.ranges →
        addLoop answers start last (flavour.overlapping { start, last }) 0 flavour = (swept, true) →
        Swept size { start, last } vbo.ranges swept.ranges := by
      intro flavour same looped
      rw [← same]
      refine addLoop_ok (same ▸ formed) proper paged ?_ overlapping_listed ?_ looped
      · exact (same ▸ formed).nodup.filter _
      · exact fun range mem overlap => mem_filter.mpr ⟨mem, decide_eq_true overlap⟩
    have done := walked _ (by split <;> rfl) looped
    have last : ((swept.mapChild start entry off (last - start + 1)).treeInsert
        { start, last, entry }).ranges.Perm ({ start, last, entry } :: swept.ranges) :=
      treeInsert_ranges _
    refine ⟨(done.formed.insert proper inside paged done.clear).perm last, fun page bound => ?_⟩
    rw [Binds.perm last, binds_cons, done.binds]
    split
    · rename_i covers
      exact ⟨fun binds => (binds.resolve_right fun other => other.2 covers).2.symm,
        fun same => .inl ⟨covers, same.symm⟩⟩
    · rename_i outside
      exact ⟨fun binds => (binds.resolve_left fun here => outside here.1).1, fun binds => .inr ⟨binds, outside⟩⟩

theorem removeLoop_sublist : (removeLoop answers child rest count vbo).ranges.Sublist vbo.ranges := by
  induction rest generalizing vbo count with
  | nil => exact .refl _
  | cons range rest ih =>
    unfold removeLoop
    split
    · split
      · exact ih
      · refine ih.trans ?_
        split <;> exact erase_sublist
    · exact ih

theorem removeLoop_ok (unmaps : ∀ turn, answers.unmapRange turn = true) (apart : vbo.ranges.Nodup)
    (once : rest.Nodup) (range : BindRange) : range ∈ (removeLoop answers child rest count vbo).ranges ↔
      range ∈ vbo.ranges ∧ ¬(range ∈ rest ∧ (child = none ∨ child = some range.entry)) := by
  induction rest generalizing vbo count with
  | nil => exact ⟨fun mem => ⟨mem, fun never => absurd never.1 not_mem_nil⟩, And.left⟩
  | cons cur rest ih =>
    obtain ⟨new, once⟩ := nodup_cons.mp once
    unfold removeLoop
    rw [unmaps]
    split
    · rename_i chosen
      have erased : ∀ removed : Vbo, removed.ranges = vbo.ranges.erase cur →
          (range ∈ (removeLoop answers child rest (count + 1) removed).ranges ↔ range ∈ vbo.ranges ∧
            ¬(range ∈ cur :: rest ∧ (child = none ∨ child = some range.entry))) := by
        intro removed same
        rw [ih (same ▸ apart.erase cur) once, same, apart.mem_erase_iff, mem_cons]
        constructor
        · rintro ⟨⟨other, mem⟩, stays⟩
          exact ⟨mem, fun gone => stays ⟨gone.1.resolve_left other, gone.2⟩⟩
        · rintro ⟨mem, stays⟩
          refine ⟨⟨?_, mem⟩, fun gone => stays ⟨.inr gone.1, gone.2⟩⟩
          rintro rfl
          exact stays ⟨.inl rfl, chosen⟩
      refine erased _ ?_
      split <;> rfl
    · rename_i unchosen
      rw [ih apart once, mem_cons]
      refine and_congr_right fun _ => not_congr ⟨fun gone => ⟨.inr gone.1, gone.2⟩, fun gone => ?_⟩
      refine ⟨gone.1.resolve_left ?_, gone.2⟩
      rintro rfl
      exact unchosen gone.2

theorem removeRange_formed (formed : WellFormed size vbo.ranges) :
    WellFormed size (vbo.removeRange start last child answers).ranges :=
  formed.sublist removeLoop_sublist

theorem removeRange_ok (formed : WellFormed size vbo.ranges)
    (unmaps : ∀ turn, answers.unmapRange turn = true) (range : BindRange) :
    range ∈ (vbo.removeRange start last child answers).ranges ↔ range ∈ vbo.ranges ∧
      ¬(range.toSpan.Overlaps { start, last } ∧ (child = none ∨ child = some range.entry)) := by
  have once : (vbo.overlapping { start, last }).Nodup := formed.nodup.filter _
  unfold removeRange
  rw [removeLoop_ok unmaps formed.nodup once]
  refine and_congr_right fun mem => not_congr (and_congr_left fun _ => ?_)
  exact ⟨fun there => (overlapping_listed range there).2, fun overlap => mem_filter.mpr ⟨mem, decide_eq_true overlap⟩⟩

end Vbo

end KernelModules.GpuMemory

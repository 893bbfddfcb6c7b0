import KernelModules.Data.Holding
import KernelModules.GpuMemory.Binding

namespace KernelModules.GpuMemory

open Data BindRange List

/-! # What a virtual buffer object holds of its children

Each range of the tree, each range left pinned and each operation to be done holds its child once.
-/

namespace Vbo

def named (vbo : Vbo) : List Nat := vbo.pending.flatMap fun op => op.ops.filterMap BindEntry.entry

def holders (vbo : Vbo) : List Nat := (vbo.ranges ++ vbo.pinned).map entry ++ vbo.named

/-- Counts, references and translations agree; `held` are the children that are held for the moment. -/
structure Pins (held : List Nat) (vbo : Vbo) : Prop where
  vboCount : Tally vbo.vboCount (held ++ vbo.holders)
  refs : Tally vbo.refs (held ++ vbo.holders)
  mapped : ∀ page entry offset, vbo.table page = .child entry offset → Binds (vbo.ranges ++ vbo.pinned) page entry
  dropped : ∀ entry table, (entry, table) ∈ vbo.dropped → ∀ page offset, table page ≠ .child entry offset

variable {vbo after : Vbo} {held : List Nat} {entry start last len size : Nat} {cur : BindRange}

namespace Pins

theorem hold (pins : Pins held vbo) : Pins (entry :: held) (vbo.hold entry) :=
  ⟨pins.vboCount.hold, pins.refs.hold, pins.mapped, pins.dropped⟩

theorem drop (pins : Pins (entry :: held) vbo) : Pins held (vbo.drop entry) := by
  refine ⟨pins.vboCount.drop, pins.refs.drop, pins.mapped, ?_⟩
  intro other tbl mem
  unfold Vbo.drop at mem
  split at mem
  · rename_i one
    obtain old | new := mem_append.mp mem
    · exact pins.dropped other tbl old
    · cases mem_singleton.mp new
      intro page off ran
      obtain ⟨range, there, -, same⟩ := pins.mapped page entry off ran
      refine pins.vboCount.last one (mem_append_right _ (mem_append_left _ ?_))
      exact mem_map.mpr ⟨range, there, same⟩
  · exact pins.dropped other tbl mem

theorem exchange (pins : Pins held vbo)
    (same : after = { vbo with ranges := after.ranges, pinned := after.pinned, table := after.table })
    (holders : (kept ++ (after.ranges ++ after.pinned).map BindRange.entry).Perm
      (held ++ (vbo.ranges ++ vbo.pinned).map BindRange.entry))
    (mapped : ∀ page entry off, after.table page = .child entry off →
      Binds (after.ranges ++ after.pinned) page entry) : Pins kept after := by
  have all : (kept ++ after.holders).Perm (held ++ vbo.holders) := by
    have named : after.named = vbo.named := by rw [same]; rfl
    unfold Vbo.holders
    rw [named, ← append_assoc, ← append_assoc]
    exact holders.append_right _
  constructor
  · rw [show after.vboCount = vbo.vboCount by rw [same]]
    exact pins.vboCount.perm all
  · rw [show after.refs = vbo.refs by rw [same]]
    exact pins.refs.perm all
  · exact mapped
  · rw [show after.dropped = vbo.dropped by rw [same]]
    exact pins.dropped

end Pins

def Cleared (vbo : Vbo) (window : Span) : Prop :=
  ∀ page, window.Covers (pageAddr page) → ∀ entry offset, vbo.table page ≠ .child entry offset

theorem setPages_child (other : ∀ page entry off, place page ≠ .child entry off)
    (ran : (vbo.setPages start len place).table page = .child entry off) :
    vbo.table page = .child entry off ∧ ¬(start ≤ pageAddr page ∧ pageAddr page < start + len) := by
  unfold setPages at ran
  dsimp only at ran
  split at ran
  · exact absurd ran (other page entry off)
  · rename_i outside
    exact ⟨ran, outside⟩

theorem unmapRange_child (ran : (vbo.unmapRange start len).table page = .child entry offset) :
    vbo.table page = .child entry offset ∧ ¬(start ≤ pageAddr page ∧ pageAddr page < start + len) :=
  setPages_child (fun _ _ _ => Translation.noConfusion) ran

theorem unmapPart_child (unmapped : vbo.unmapPart answer start len = some after)
    (clear : vbo.noMapZero = false → start ≤ pageAddr page ∧ pageAddr page < start + len →
      vbo.table page ≠ .child entry offset) (ran : after.table page = .child entry offset) :
    vbo.table page = .child entry offset ∧ ¬(start ≤ pageAddr page ∧ pageAddr page < start + len) := by
  rw [unmapPart_some unmapped] at ran
  split at ran
  · exact unmapRange_child ran
  · rename_i flavour
    exact ⟨ran, fun inside => clear (Bool.eq_false_of_not_eq_true flavour) inside ran⟩

theorem carve_holders {ranges later : List BindRange} (mem : cur ∈ ranges)
    (same : later.Perm (cur.parts window ++ ranges.erase cur)) : (cur.entry :: later.map BindRange.entry).Perm
      ((cur.parts window).map BindRange.entry ++ ranges.map BindRange.entry) := by
  have erased : (cur.entry :: (ranges.erase cur).map BindRange.entry).Perm (ranges.map BindRange.entry) :=
    ((perm_cons_erase mem).map BindRange.entry).symm
  refine ((same.map BindRange.entry).cons cur.entry).trans ?_
  rw [map_append]
  exact perm_middle.symm.trans (erased.append_left _)

theorem addNode_child (proper : start ≤ last) (overlap : cur.toSpan.Overlaps { start, last })
    (clear : vbo.noMapZero = false → vbo.Cleared { start, last })
    (added : vbo.addNode start last cur answer = (after, ok))
    (ran : after.table page = .child entry offset) : vbo.table page = .child entry offset ∧
      (ok = true → cur.start ≤ pageAddr page ∧ pageAddr page ≤ cur.last →
        ¬(start ≤ pageAddr page ∧ pageAddr page ≤ last)) := by
  unfold Span.Overlaps at overlap
  dsimp only at overlap
  have cleared (inside : start ≤ pageAddr page ∧ pageAddr page ≤ last) (flavour : vbo.noMapZero = false) :
      vbo.table page ≠ .child entry offset := clear flavour page inside entry offset
  unfold addNode at added
  dsimp only at added
  split at added
  · split at added <;> split at added
    · cases added
      exact ⟨ran, fun never => absurd never Bool.false_ne_true⟩
    · rename_i unmapped
      cases added
      obtain ⟨before, outside⟩ := unmapPart_child unmapped (fun flavour inside => cleared (by omega) flavour) ran
      exact ⟨before, fun _ covers => by omega⟩
    · cases added
      exact ⟨ran, fun never => absurd never Bool.false_ne_true⟩
    · rename_i unmapped
      cases added
      obtain ⟨before, outside⟩ := unmapPart_child unmapped (fun flavour inside => cleared (by omega) flavour) ran
      exact ⟨before, fun _ covers window => outside (by omega)⟩
  · have tbl : (if last < cur.last then ((vbo.treeRemove cur).hold cur.entry).treeInsert
        { start := last + 1, last := cur.last, entry := cur.entry } else vbo.treeRemove cur).table =
          vbo.table := by split <;> rfl
    have flavours : (if last < cur.last then ((vbo.treeRemove cur).hold cur.entry).treeInsert
        { start := last + 1, last := cur.last, entry := cur.entry } else vbo.treeRemove cur).noMapZero =
          vbo.noMapZero := by split <;> rfl
    split at added
    · cases added
      refine ⟨?_, fun never => absurd never Bool.false_ne_true⟩
      rw [← tbl]
      exact ran
    · rename_i unmapped
      cases added
      obtain ⟨before, outside⟩ := unmapPart_child unmapped (fun flavour inside => by
          rw [tbl]
          rw [flavours] at flavour
          exact cleared (by omega) flavour) ran
      rw [tbl] at before
      exact ⟨before, fun _ covers window => outside (by omega)⟩

structure SameObject (vbo after : Vbo) : Prop where
  size : after.size = vbo.size
  noMapZero : after.noMapZero = vbo.noMapZero
  pending : after.pending = vbo.pending
  pinned : after.pinned = vbo.pinned
  destroyed : after.destroyed = vbo.destroyed

namespace SameObject

theorem refl : SameObject vbo vbo := ⟨rfl, rfl, rfl, rfl, rfl⟩

theorem trans (first : SameObject vbo after) (second : SameObject after later) : SameObject vbo later :=
  ⟨second.size.trans first.size, second.noMapZero.trans first.noMapZero,
    second.pending.trans first.pending, second.pinned.trans first.pinned, second.destroyed.trans first.destroyed⟩

theorem treeInsert (range : BindRange) : SameObject vbo (vbo.treeInsert range) := ⟨rfl, rfl, rfl, rfl, rfl⟩

theorem treeRemove (range : BindRange) : SameObject vbo (vbo.treeRemove range) := ⟨rfl, rfl, rfl, rfl, rfl⟩

theorem setPages (place : Nat → Translation) : SameObject vbo (vbo.setPages start len place) :=
  ⟨rfl, rfl, rfl, rfl, rfl⟩

theorem hold : SameObject vbo (vbo.hold entry) := ⟨rfl, rfl, rfl, rfl, rfl⟩

theorem drop : SameObject vbo (vbo.drop entry) := ⟨rfl, rfl, rfl, rfl, rfl⟩

theorem unmapPart (unmapped : vbo.unmapPart answer start len = some after) : SameObject vbo after := by
  rw [unmapPart_some unmapped]
  split
  · exact setPages _
  · exact refl

theorem addNode (added : vbo.addNode start last cur answer = (after, ok)) : SameObject vbo after := by
  unfold Vbo.addNode at added
  dsimp only at added
  split at added
  · split at added <;> split at added
    · cases added
      exact (treeRemove cur).trans (treeInsert cur)
    · rename_i unmapped
      cases added
      exact ((treeRemove cur).trans (unmapPart unmapped)).trans drop
    · cases added
      exact (treeRemove cur).trans (treeInsert cur)
    · rename_i unmapped
      cases added
      exact ((treeRemove cur).trans (unmapPart unmapped)).trans (treeInsert _)
  · have split (far : BindRange) : SameObject vbo (if last < cur.last then
        ((vbo.treeRemove cur).hold cur.entry).treeInsert far else vbo.treeRemove cur) := by
      split
      · exact ((treeRemove cur).trans hold).trans (treeInsert _)
      · exact treeRemove cur
    split at added
    · cases added
      exact (split _).trans (treeInsert cur)
    · rename_i unmapped
      cases added
      exact ((split _).trans (unmapPart unmapped)).trans (treeInsert _)

end SameObject

theorem addNode_mapped (pins : Pins held vbo) (proper : start ≤ last) (mem : cur ∈ vbo.ranges)
    (overlap : cur.toSpan.Overlaps { start, last }) (clear : vbo.noMapZero = false → vbo.Cleared { start, last })
    (added : vbo.addNode start last cur answer = (after, true)) (page entry off : Nat)
    (ran : after.table page = .child entry off) : Binds (after.ranges ++ after.pinned) page entry := by
  obtain ⟨before, outside⟩ := addNode_child proper overlap clear added ran
  rw [binds_append, Binds.perm (addNode_ok added), binds_append, binds_parts overlap, (SameObject.addNode added).pinned]
  have bound := pins.mapped page entry off before
  rw [binds_append, Binds.perm (perm_cons_erase mem), binds_cons] at bound
  obtain (here | there) | pinned := bound
  · exact .inl (.inl ⟨here, outside rfl here.1⟩)
  · exact .inl (.inr there)
  · exact .inr pinned

theorem unmapPart_tree (unmapped : vbo.unmapPart answer start len = some after) :
    after = { vbo with ranges := after.ranges, pinned := after.pinned, table := after.table } := by
  rw [unmapPart_some unmapped]
  split <;> rfl

theorem Pins.addNode_ok (pins : Pins held vbo) (proper : start ≤ last) (mem : cur ∈ vbo.ranges)
    (overlap : cur.toSpan.Overlaps { start, last }) (clear : vbo.noMapZero = false → vbo.Cleared { start, last })
    (added : vbo.addNode start last cur answer = (after, true)) : Pins held after := by
  have mapped := addNode_mapped pins proper mem overlap clear added
  have pinned : after.pinned = vbo.pinned := (SameObject.addNode added).pinned
  have holders := carve_holders mem (Vbo.addNode_ok added)
  unfold parts Span.carve at holders
  unfold addNode at added
  dsimp only at added holders
  split at added
  · rename_i low
    rw [if_neg (not_lt.mpr low)] at holders
    split at added
    · rename_i high
      rw [if_neg (not_lt.mpr high)] at holders
      split at added
      · cases added
      · rename_i mid unmapped
        cases added
        have held : Pins (cur.entry :: held) mid := by
          have tree := unmapPart_tree unmapped
          refine pins.exchange tree ?_ mapped
          rw [show mid.pinned = vbo.pinned from pinned, map_append, map_append]
          exact perm_middle.symm.trans ((holders.append_right _).append_left held)
        exact held.drop
    · rename_i high
      rw [if_pos (not_le.mp high)] at holders
      split at added
      · cases added
      · rename_i mid unmapped
        cases added
        have tree := unmapPart_tree unmapped
        refine pins.exchange ?_ ?_ mapped
        · exact congrArg (fun tree : Vbo => tree.treeInsert { cur with start := last + 1 }) tree
        · rw [pinned, map_append, map_append]
          exact ((holders.cons_inv).append_right _).append_left held
  · rename_i low
    rw [if_pos (not_le.mp low)] at holders
    split at added
    · cases added
    · rename_i mid unmapped
      cases added
      have tree := unmapPart_tree unmapped
      by_cases high : last < cur.last
      · rw [if_pos high] at holders tree
        have more : Pins (cur.entry :: held) (vbo.hold cur.entry) := pins.hold
        refine more.exchange ?_ ?_ mapped
        · exact congrArg (fun tree : Vbo => tree.treeInsert { cur with last := start - 1 }) tree
        · rw [pinned, map_append, map_append]
          exact ((holders.cons_inv).append_right _).append_left held |>.trans perm_middle
      · rw [if_neg high] at holders tree
        refine pins.exchange ?_ ?_ mapped
        · exact congrArg (fun tree : Vbo => tree.treeInsert { cur with last := start - 1 }) tree
        · rw [pinned, map_append, map_append]
          exact ((holders.cons_inv).append_right _).append_left held

def Splits (start last : Nat) (cur : BindRange) : Prop := cur.start < start ∧ last < cur.last

theorem addNode_failed_perm (mem : cur ∈ vbo.ranges) (unsplit : ¬Splits start last cur)
    (failed : vbo.addNode start last cur answer = (after, false)) : after.ranges.Perm vbo.ranges := by
  have back := (Vbo.addNode_failed mem failed).2.2
  unfold far at back
  unfold Splits at unsplit
  rw [if_neg unsplit] at back
  exact back

theorem Pins.addNode_failed (pins : Pins held vbo) (proper : start ≤ last) (mem : cur ∈ vbo.ranges)
    (overlap : cur.toSpan.Overlaps { start, last })
    (clear : vbo.noMapZero = false → vbo.Cleared { start, last }) (unsplit : ¬Splits start last cur)
    (failed : vbo.addNode start last cur answer = (after, false)) : Pins held after := by
  have same := addNode_failed_perm mem unsplit failed
  have pinned : after.pinned = vbo.pinned := (SameObject.addNode failed).pinned
  have mapped : ∀ page entry off, after.table page = .child entry off →
      Binds (after.ranges ++ after.pinned) page entry := by
    intro page entry off ran
    rw [pinned, Binds.perm (same.append_right _)]
    exact pins.mapped page entry off (addNode_child proper overlap clear failed ran).1
  have holders : (held ++ (after.ranges ++ after.pinned).map entry).Perm
      (held ++ (vbo.ranges ++ vbo.pinned).map entry) := by
    rw [pinned]
    exact ((same.append_right _).map _).append_left held
  refine pins.exchange ?_ holders mapped
  unfold addNode at failed
  dsimp only at failed
  split at failed
  · split at failed <;> split at failed
    · cases failed
      rfl
    · cases failed
    · cases failed
      rfl
    · cases failed
  · rename_i low
    rw [if_neg fun high => unsplit ⟨not_le.mp low, high⟩] at failed
    split at failed
    · cases failed
      rfl
    · cases failed

structure Walked (size : Nat) (held : List Nat) (vbo after : Vbo) : Prop where
  pins : Pins held after
  formed : WellFormed size after.ranges
  same : SameObject vbo after

theorem addLoop_walked {count : Nat} (pins : Pins held vbo) (formed : WellFormed size vbo.ranges)
    (proper : start ≤ last) (paged : PageSpan { start, last }) (once : rest.Nodup)
    (listed : ∀ range ∈ rest, range ∈ vbo.ranges ∧ range.toSpan.Overlaps { start, last })
    (clear : vbo.noMapZero = false → vbo.Cleared { start, last })
    (unsplit : ∀ range ∈ rest, Splits start last range → vbo.noMapZero = true →
      rest = [range] ∧ answers.unmapRange count = true) :
    Walked size held vbo (addLoop answers start last rest count vbo).1 := by
  induction rest generalizing vbo count with
  | nil => exact ⟨pins, formed, .refl⟩
  | cons cur rest ih =>
    obtain ⟨⟨here, overlap⟩, listed⟩ := forall_mem_cons.mp listed
    obtain ⟨new, once⟩ := nodup_cons.mp once
    obtain ⟨first, unsplit⟩ := forall_mem_cons.mp unsplit
    unfold addLoop
    split
    · rename_i next failed
      obtain ⟨flavour, refused, -⟩ := Vbo.addNode_failed here failed
      have whole : ¬Splits start last cur := fun splits => by
        rw [(first splits flavour).2] at refused
        cases refused
      exact ⟨pins.addNode_failed proper here overlap clear whole failed,
        formed.perm (addNode_failed_perm here whole failed), .addNode failed⟩
    · rename_i next turned
      have same := Vbo.addNode_ok turned
      have kin : SameObject vbo next := .addNode turned
      have left : ∀ range ∈ rest, range ∈ next.ranges ∧ range.toSpan.Overlaps { start, last } := by
        intro range mem
        refine ⟨same.mem_iff.mpr (mem_append_right _ ?_), (listed range mem).2⟩
        refine (mem_erase_of_ne ?_).mpr (listed range mem).1
        rintro rfl
        exact new mem
      have cleared : next.noMapZero = false → next.Cleared { start, last } := by
        intro flavour page inside entry off ran
        rw [kin.noMapZero] at flavour
        exact clear flavour page inside entry off (addNode_child proper overlap clear turned ran).1
      have whole : ∀ range ∈ rest, Splits start last range → next.noMapZero = true →
          rest = [range] ∧ answers.unmapRange (count + 1) = true := by
        intro range mem splits flavour
        have alone := (unsplit range mem splits (kin.noMapZero ▸ flavour)).1
        rw [(cons.inj alone).2] at mem
        cases mem
      have later := ih (pins.addNode_ok proper here overlap clear turned)
        ((formed.carve here overlap proper paged).perm same) once left cleared whole
      exact ⟨later.pins, later.formed, kin.trans later.same⟩

end Vbo

end KernelModules.GpuMemory

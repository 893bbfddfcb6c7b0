import Mathlib.Data.List.Pairwise
import KernelModules.GpuMemory.Ranges

namespace KernelModules.GpuMemory

open Data Span BindRange List

/-! # The ranges of a virtual buffer object

The ranges lie apart and in pages, and each page is bound by at most one of them.
-/

variable {ranges after : List BindRange} {range cur : BindRange} {window : Span}
  {size page entry : Nat}

def BindRange.parts (window : Span) (range : BindRange) : List BindRange :=
  (carve window range.toSpan).map fun span => { toSpan := span, entry := range.entry }

theorem BindRange.mem_parts : range ∈ cur.parts window ↔
    range.toSpan ∈ carve window cur.toSpan ∧ range.entry = cur.entry := by
  unfold parts
  rw [mem_map]
  constructor
  · rintro ⟨span, mem, rfl⟩
    exact ⟨mem, rfl⟩
  · rintro ⟨mem, same⟩
    exact ⟨range.toSpan, mem, by rw [← same]⟩

def BindRange.far (window : Span) (range : BindRange) : List BindRange :=
  if range.start < window.start ∧ window.last < range.last then
    [{ start := window.last + 1, last := range.last, entry := range.entry }]
  else []

def PageSpan (span : Span) : Prop := span.start % 4096 = 0 ∧ (span.last + 1) % 4096 = 0

instance (span : Span) : Decidable (PageSpan span) := inferInstanceAs (Decidable (_ ∧ _))

structure WellFormed (size : Nat) (ranges : List BindRange) : Prop where
  proper : ∀ range ∈ ranges, range.start ≤ range.last
  inside : ∀ range ∈ ranges, range.last < size
  paged : ∀ range ∈ ranges, PageSpan range.toSpan
  apart : ranges.Pairwise fun range other => range.toSpan.Apart other.toSpan

namespace WellFormed

theorem nil : WellFormed size [] :=
  ⟨forall_mem_nil _, forall_mem_nil _, forall_mem_nil _, .nil⟩

section

variable (formed : WellFormed size ranges)
include formed

theorem perm (same : after.Perm ranges) : WellFormed size after where
  proper range member := formed.proper range (same.mem_iff.mp member)
  inside range member := formed.inside range (same.mem_iff.mp member)
  paged range member := formed.paged range (same.mem_iff.mp member)
  apart := (same.pairwise_iff fun apart => apart.symm).mpr formed.apart

theorem nodup : ranges.Nodup := by
  refine formed.apart.imp_of_mem fun mem _ apart same => ?_
  rw [same] at apart
  exact Span.Apart.irrefl (formed.proper _ (same ▸ mem)) apart

theorem clear (mem : range ∈ ranges) (also : other ∈ ranges) (different : range ≠ other) :
    range.toSpan.Apart other.toSpan :=
  have : Std.Symm fun range other : BindRange => range.toSpan.Apart other.toSpan :=
    ⟨fun _ _ apart => apart.symm⟩
  formed.apart.forall mem also different

theorem unique (mem : range ∈ ranges) (also : other ∈ ranges) (covers : range.Covers place)
    (shared : other.Covers place) : range = other := by
  by_contra different
  exact (formed.clear mem also different).not_covers covers shared

theorem sublist (fewer : after.Sublist ranges) : WellFormed size after where
  proper range member := formed.proper range (fewer.subset member)
  inside range member := formed.inside range (fewer.subset member)
  paged range member := formed.paged range (fewer.subset member)
  apart := formed.apart.sublist fewer

theorem insert (proper : range.start ≤ range.last) (inside : range.last < size)
    (paged : PageSpan range.toSpan) (apart : ∀ other ∈ ranges, range.toSpan.Apart other.toSpan) :
    WellFormed size (range :: ranges) where
  proper := forall_mem_cons.mpr ⟨proper, formed.proper⟩
  inside := forall_mem_cons.mpr ⟨inside, formed.inside⟩
  paged := forall_mem_cons.mpr ⟨paged, formed.paged⟩
  apart := pairwise_cons.mpr ⟨apart, formed.apart⟩

theorem carve (listed : cur ∈ ranges) (overlap : cur.toSpan.Overlaps window)
    (proper : window.start ≤ window.last) (paged : PageSpan window) :
    WellFormed size (cur.parts window ++ ranges.erase cur) := by
  have others : WellFormed size (ranges.erase cur) := formed.sublist erase_sublist
  have lt (part : BindRange) (mem : part ∈ cur.parts window) : part.toSpan.Within cur.toSpan :=
    carve_within overlap (mem_parts.mp mem).1
  constructor
  · exact forall_mem_append.mpr ⟨fun part mem => carve_proper (mem_parts.mp mem).1, others.proper⟩
  · refine forall_mem_append.mpr ⟨fun part mem => ?_, others.inside⟩
    exact lt_of_le_of_lt (lt part mem).2 (formed.inside cur listed)
  · refine forall_mem_append.mpr ⟨fun part mem => ?_, others.paged⟩
    have whole := formed.paged cur listed
    obtain ⟨_, is⟩ | ⟨_, is⟩ := mem_carve.mp (mem_parts.mp mem).1 <;> rw [is] <;> unfold PageSpan at *
    · refine ⟨whole.1, ?_⟩
      show (window.start - 1 + 1) % 4096 = 0
      rw [Nat.sub_add_cancel (by omega)]
      exact paged.1
    · exact ⟨paged.2, whole.2⟩
  · refine pairwise_append.mpr ⟨?_, others.apart, fun part mem other there => ?_⟩
    · exact pairwise_map.mpr (carve_pairwise proper)
    · obtain ⟨different, known⟩ := formed.nodup.mem_erase_iff.mp there
      exact (formed.clear listed known different.symm).sub (lt part mem)

end

end WellFormed

def Binds (ranges : List BindRange) (page entry : Nat) : Prop :=
  ∃ range ∈ ranges, range.Covers (pageAddr page) ∧ range.entry = entry

theorem Binds.perm (same : after.Perm ranges) : Binds after page entry ↔ Binds ranges page entry :=
  exists_congr fun _ => and_congr_left fun _ => same.mem_iff

theorem binds_append : Binds (ranges ++ after) page entry ↔ Binds ranges page entry ∨ Binds after page entry := by
  constructor
  · rintro ⟨range, mem, binds⟩
    obtain here | there := mem_append.mp mem
    · exact .inl ⟨range, here, binds⟩
    · exact .inr ⟨range, there, binds⟩
  · rintro (⟨range, mem, binds⟩ | ⟨range, mem, binds⟩)
    · exact ⟨range, mem_append_left _ mem, binds⟩
    · exact ⟨range, mem_append_right _ mem, binds⟩

theorem binds_cons : Binds (range :: ranges) page entry ↔
    range.Covers (pageAddr page) ∧ range.entry = entry ∨ Binds ranges page entry := by
  constructor
  · rintro ⟨other, mem, binds⟩
    obtain rfl | there := mem_cons.mp mem
    · exact .inl binds
    · exact .inr ⟨other, there, binds⟩
  · rintro (binds | ⟨other, mem, binds⟩)
    · exact ⟨range, mem_cons_self, binds⟩
    · exact ⟨other, mem_cons_of_mem _ mem, binds⟩

theorem binds_parts (overlap : cur.toSpan.Overlaps window) : Binds (cur.parts window) page entry ↔
    (cur.Covers (pageAddr page) ∧ cur.entry = entry) ∧ ¬window.Covers (pageAddr page) := by
  have carved : (∃ part ∈ carve window cur.toSpan, part.Covers (pageAddr page)) ↔
      cur.Covers (pageAddr page) ∧ ¬window.Covers (pageAddr page) := exists_carve_covers overlap
  constructor
  · rintro ⟨part, mem, covers, rfl⟩
    obtain ⟨there, same⟩ := mem_parts.mp mem
    obtain ⟨whole, outside⟩ := carved.mp ⟨part.toSpan, there, covers⟩
    exact ⟨⟨whole, same.symm⟩, outside⟩
  · rintro ⟨⟨covers, rfl⟩, outside⟩
    obtain ⟨part, mem, covers⟩ := carved.mpr ⟨covers, outside⟩
    exact ⟨⟨part, cur.entry⟩, mem_parts.mpr ⟨mem, rfl⟩, covers, rfl⟩

theorem binds_carve (mem : cur ∈ ranges) (overlap : cur.toSpan.Overlaps window) :
    Binds (cur.parts window ++ ranges.erase cur) page entry ∧ ¬window.Covers (pageAddr page) ↔
      Binds ranges page entry ∧ ¬window.Covers (pageAddr page) := by
  refine and_congr_left fun outside => ?_
  rw [binds_append, binds_parts overlap, and_iff_left outside, Binds.perm (perm_cons_erase mem), binds_cons]

theorem overlaps_carve (mem : range ∈ cur.parts window ++ ranges.erase cur)
    (overlap : range.toSpan.Overlaps window) : range ∈ ranges.erase cur := by
  refine (mem_append.mp mem).resolve_left fun part => ?_
  exact not_overlaps.mpr (carve_apart (mem_parts.mp part).1) overlap

end KernelModules.GpuMemory

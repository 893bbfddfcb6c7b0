import KernelModules.Kgsl.GapSearch

namespace KernelModules.Kgsl

open Data KgslIommuAddrEntry List

/-! # GPU address ranges do not overlap

A request of the 64-bit window is tried at `va_hint` without a look at the tree.  The hint is
advanced before the range is recorded, and stays where it is when the record fails; a later search
that fills the room left behind it past the hint breaks what the hint stands for.
-/

variable {rb : SearchTree.Balancing KgslIommuAddrEntry} {windows : VaWindows}
  {pt after : KgslPagetable} {memdesc : KgslMemdesc} {entry : KgslIommuAddrEntry} {place size : Nat}
  {alloc : Bool} {action : AddrAction}

/-- The ranges in use are disjoint, and those of the 64-bit window end at the hint or before. -/
structure KgslPagetable.Separate (pagetable : KgslPagetable) : Prop where
  disjoint : pagetable.entries.Pairwise fun one other => one.stop ≤ other.base ∨ other.stop ≤ one.base
  hinted : ∀ entry ∈ pagetable.entries, pagetable.windows.vaStart ≤ entry.base →
    entry.base < pagetable.windows.vaEnd → entry.stop ≤ pagetable.vaHint

def KgslMemdesc.Answered (memdesc : KgslMemdesc) (windows : VaWindows) (place : Nat) : Prop :=
  2 ^ memdesc.align ∣ place ∧ 4096 ∣ place ∧
    memdesc.windowStart windows ≤ place ∧ place + memdesc.footprint ≤ memdesc.windowEnd windows

/-- The shift of the alignment stays in an `int`, and the size is not zero and does not wrap. -/
def AddrAction.Regular : AddrAction → Prop
  | .getGpuaddr memdesc _ =>
    memdesc.align ≤ 30 ∧ 0 < memdesc.footprint ∧ memdesc.footprint < 9223372036854775808
  | _ => True

def KgslPagetable.PastHint (pagetable : KgslPagetable) (memdesc : KgslMemdesc) : Prop :=
  memdesc.useCpuMap = false ∧ memdesc.secure = false ∧ memdesc.force32Bit = false ∧
    pagetable.windows.vaEnd < alignU64 pagetable.vaHint memdesc.alignment + memdesc.footprint

def KgslPagetable.RoomBelowHint (pagetable : KgslPagetable) (memdesc : KgslMemdesc) : Prop :=
  (∃ place, Fits pagetable.entries pagetable.windows.vaStart pagetable.windows.vaEnd memdesc.footprint
    memdesc.alignment place) →
  ∃ place, Fits pagetable.entries pagetable.windows.vaStart pagetable.vaHint memdesc.footprint
    memdesc.alignment place

def MeetsHint (pagetable : KgslPagetable) : AddrAction → Prop
  | .getGpuaddr memdesc allocated =>
    allocated = true → pagetable.PastHint memdesc → pagetable.RoomBelowHint memdesc
  | _ => True

def Meets (pagetable : KgslPagetable) (action : AddrAction) : Prop :=
  action.Regular ∧ MeetsHint pagetable action

structure KgslPagetable.Sound (pagetable : KgslPagetable) : Prop where
  ordered : Ordered pagetable.entries
  addressed : Addressed pagetable.entries
  filled : ∀ entry ∈ pagetable.entries, 0 < entry.size
  placed : ∀ entry ∈ pagetable.entries, pagetable.windows.vaStart ≤ entry.base ∧ entry.stop ≤ pagetable.vaHint ∨
      entry.stop ≤ pagetable.windows.vaStart ∨ pagetable.windows.vaEnd ≤ entry.base
  low : pagetable.windows.vaStart ≤ pagetable.vaHint
  high : pagetable.vaHint ≤ pagetable.windows.vaEnd

theorem KgslMemdesc.alignment_eq (small : memdesc.align ≤ 30) : memdesc.alignment = 2 ^ max memdesc.align 12 := by
  have shifts : ∀ exponent : Fin 31, max (((1#32 <<< (exponent.val % 32)).signExtend 64).toNat) 4096 =
      2 ^ max exponent.val 12 := by decide
  exact shifts ⟨memdesc.align, by omega⟩

namespace KgslPagetable.Sound

variable (sound : pt.Sound)
include sound

theorem separate : pt.Separate := by
  refine ⟨sound.ordered.imp .inl, ?_⟩
  intro entry mem above lt
  have filled := sound.filled entry mem
  rcases sound.placed entry mem with inside | behind | beyond
  · exact inside.2
  · unfold stop at behind
    omega
  · omega

theorem increasing : pt.entries.Pairwise fun one other => one.base < other.base := by
  refine List.Pairwise.imp_of_mem ?_ sound.ordered
  intro one other mem _ before
  have := sound.filled one mem
  unfold stop at before
  omega

theorem insert_free (free : Free pt.entries place size) (pos : 0 < size) :
    ∃ after, pt.insertGpuaddr rb place size true = .ok after := by
  unfold insertGpuaddr
  cases grown : pt.rbtree.insert base ⟨place, size⟩ with
  | some tree => exact ⟨_, rfl⟩
  | none =>
    obtain ⟨entry, mem, same⟩ := SearchTree.insert_none grown
    have filled := sound.filled entry mem
    have same : entry.base = place := same
    rcases free entry mem with before | behind
    · omega
    · unfold stop at behind
      omega

end KgslPagetable.Sound

theorem insertGpuaddr_ok (increasing : pt.entries.Pairwise fun one other => one.base < other.base)
    (inserted : pt.insertGpuaddr rb place size alloc = .ok after) :
    alloc = true ∧ after.windows = pt.windows ∧ after.vaHint = pt.vaHint ∧
      ∃ before behind, pt.entries = before ++ behind ∧ after.entries = before ++ ⟨place, size⟩ :: behind ∧
        (∀ entry ∈ before, entry.base < place) ∧ ∀ entry ∈ behind, place < entry.base := by
  unfold KgslPagetable.insertGpuaddr at inserted
  split at inserted
  · split at inserted
    · cases inserted
    · rename_i given tree grown
      cases inserted
      obtain ⟨before, behind, whole, spread, low, high⟩ := SearchTree.insert_some increasing grown
      rw [← rb.inorder_insertColor tree] at spread
      exact ⟨by assumption, rfl, rfl, before, behind, whole, spread, low, high⟩
  · cases inserted

namespace KgslPagetable.Sound

theorem insert (sound : pt.Sound) (free : Free pt.entries place size) (pos : 0 < size)
    (small : place + size ≤ 281474976710656) (side : pt.windows.vaStart ≤ place ∧ place + size ≤ pt.vaHint ∨
      place + size ≤ pt.windows.vaStart ∨ pt.windows.vaEnd ≤ place)
    (inserted : pt.insertGpuaddr rb place size alloc = .ok after) : after.Sound := by
  obtain ⟨_, sameWindows, sameHint, before, behind, whole, spread, low, high⟩ :=
    insertGpuaddr_ok sound.increasing inserted
  have members (entry : KgslIommuAddrEntry) (mem : entry ∈ after.entries) :
      entry = ⟨place, size⟩ ∨ entry ∈ pt.entries := by
    rw [spread, mem_append, mem_cons] at mem
    rw [whole, mem_append]
    tauto
  have order := sound.ordered
  rw [whole] at order
  have parts := pairwise_append.mp order
  rw [whole] at free
  refine ⟨?_, ?_, ?_, ?_, ?_, ?_⟩
  · rw [Ordered, spread, pairwise_append, pairwise_cons]
    refine ⟨parts.1, ⟨?_, parts.2.1⟩, ?_⟩
    · intro entry mem
      have above := high entry mem
      rcases free entry (mem_append_right _ mem) with ends | starts
      · exact ends
      · unfold stop at starts
        omega
    · intro entry mem other otherMember
      have lt := low entry mem
      rcases mem_cons.mp otherMember with rfl | otherMember
      · rcases free entry (mem_append_left _ mem) with ends | starts
        · omega
        · exact starts
      · exact parts.2.2 entry mem other otherMember
  · intro entry mem
    rcases members entry mem with rfl | mem
    · exact small
    · exact sound.addressed entry mem
  · intro entry mem
    rcases members entry mem with rfl | mem
    · exact pos
    · exact sound.filled entry mem
  · rw [sameWindows, sameHint]
    intro entry mem
    rcases members entry mem with rfl | mem
    · exact side
    · exact sound.placed entry mem
  · rw [sameWindows, sameHint]
    exact sound.low
  · rw [sameWindows, sameHint]
    exact sound.high

theorem removed_hint (sound : pt.Sound) (whole : pt.entries = before ++ entry :: behind)
    (ends : pt.vaHint = entry.stop) {vaHint : Nat} (moved : vaHint = pt.hintBehind before.getLast?) :
    pt.windows.vaStart ≤ vaHint ∧ vaHint ≤ pt.vaHint ∧ ∀ other ∈ before ++ behind, pt.windows.vaStart ≤ other.base →
        other.stop ≤ pt.vaHint → other.stop ≤ vaHint := by
  have order := sound.ordered
  rw [whole] at order
  obtain ⟨inBefore, tail, across⟩ := pairwise_append.mp order
  have later := (pairwise_cons.mp tail).1
  have low := sound.low
  have none_behind (other : KgslIommuAddrEntry) (mem : other ∈ behind) : pt.vaHint < other.stop := by
    have after := later other mem
    have filled := sound.filled other (whole ▸ mem_append_right _ (mem_cons_of_mem _ mem))
    unfold stop at *
    omega
  cases last : before.getLast? with
  | none =>
    rw [getLast?_eq_none_iff] at last
    subst last moved
    refine ⟨le_rfl, low, ?_⟩
    intro other mem _ bounded
    have := none_behind other (by simpa using mem)
    omega
  | some prev =>
    rw [last, hintBehind] at moved
    obtain ⟨front, rfl⟩ := getLast?_eq_some_iff.mp last
    have known : prev ∈ pt.entries := by simp [whole]
    rw [limit_eq (sound.addressed prev known)] at moved
    have prevEnds : prev.stop ≤ entry.base := across prev (by simp) entry mem_cons_self
    have begins : entry.base ≤ entry.stop := Nat.le_add_right _ _
    refine ⟨by omega, by omega, ?_⟩
    intro other mem _ bounded
    rcases mem_append.mp mem with mem | mem
    · rcases mem_append.mp mem with mem | mem
      · have := (pairwise_append.mp inBefore).2.2 other mem prev (mem_singleton.mpr rfl)
        have : prev.base ≤ prev.stop := Nat.le_add_right _ _
        omega
      · cases mem_singleton.mp mem
        omega
    · have := none_behind other mem
      omega

theorem remove (sound : pt.Sound) (removed : pt.removeGpuaddr rb gpuaddr = .ok after) :
    after.Sound ∧ after.windows = pt.windows := by
  unfold removeGpuaddr at removed
  split at removed
  · cases removed
  · rename_i entry found
    have mem : entry ∈ pt.entries := (SearchTree.search_some found).1
    obtain ⟨before, behind, whole, fresh⟩ := eq_append_cons_of_mem mem
    have prev : pt.prev entry = before.getLast? := by
      have differs : ∀ other ∈ before, decide (other ≠ entry) = true := by
        intro other inside
        exact decide_eq_true fun same => fresh (same ▸ inside)
      unfold KgslPagetable.prev
      rw [whole, takeWhile_append_of_pos differs]
      simp
    have left : (rb.erase pt.rbtree entry).inorder = before ++ behind := by
      rw [rb.inorder_erase]
      change pt.entries.erase entry = _
      rw [whole, erase_append_right _ fresh, erase_cons_head]
    have sublist : (before ++ behind).Sublist pt.entries := by
      rw [whole]
      exact List.Sublist.append_left (sublist_cons_self _ _) _
    have stops := limit_eq (sound.addressed entry mem)
    rw [prev, stops] at removed
    cases removed
    have low := sound.low
    have high := sound.high
    refine ⟨?_, rfl⟩
    have kept (vaHint : Nat) (lower : pt.windows.vaStart ≤ vaHint) (upper : vaHint ≤ pt.vaHint)
        (covers : ∀ other ∈ before ++ behind, pt.windows.vaStart ≤ other.base →
          other.stop ≤ pt.vaHint → other.stop ≤ vaHint) :
        KgslPagetable.Sound { pt with vaHint, rbtree := rb.erase pt.rbtree entry } := by
      refine ⟨?_, ?_, ?_, ?_, lower, le_trans upper high⟩
      · change List.Pairwise _ (rb.erase pt.rbtree entry).inorder
        rw [left]
        exact sound.ordered.sublist sublist
      · intro other inside
        exact sound.addressed other (sublist.subset (left ▸ inside))
      · intro other inside
        exact sound.filled other (sublist.subset (left ▸ inside))
      · intro other inside
        have inside : other ∈ before ++ behind := left ▸ inside
        rcases sound.placed other (sublist.subset inside) with window | outside
        · exact .inl ⟨window.1, covers other inside window.1 window.2⟩
        · exact .inr outside
    split
    · rename_i ends
      obtain ⟨lower, upper, covers⟩ := sound.removed_hint whole ends rfl
      exact kept _ lower upper covers
    · exact kept _ low le_rfl fun _ _ _ bounded => bounded

end KgslPagetable.Sound

end KernelModules.Kgsl

import KernelModules.Data.Span

namespace KernelModules.GpuMemory

open Data

/-! # Virtual buffer objects

Ranges of an object without memory of its own are bound to child entries: an interval tree holds the ranges, the GPU
page table the translations, and each range pins its child.
-/

inductive Errno where
  | inval
  | noent
  | nomem
  | fault
  | perm

/-- `kgsl_memdesc_bind_range`; entries are told apart by their ids. -/
structure BindRange extends Span where
  entry : Nat
deriving DecidableEq

/-- `bind_range_len` -/
def BindRange.length (range : BindRange) : Nat := range.last - range.start + 1

inductive Translation where
  | unmapped
  | zeroPage
  | child (entry offset : Nat)

def pageAddr (page : Nat) : Nat := page * 4096

/-- One of the `ops` of a bind operation. -/
structure BindEntry where
  /-- `none` unbinds whatever is bound. -/
  entry : Option Nat
  start : Nat
  last : Nat
  childOffset : Nat
  bind : Bool
deriving DecidableEq

def BindEntry.window (op : BindEntry) : Span := { start := op.start, last := op.last }

/-- `kgsl_sharedmem_bind_op`, with the operations that the worker has still to do. -/
structure BindOp where
  ops : List BindEntry
  todo : List BindEntry

structure Vbo where
  size : Nat
  /-- `KGSL_MEMFLAGS_VBO_NO_MAP_ZERO` -/
  noMapZero : Bool
  secure : Bool
  ranges : List BindRange
  table : Nat → Translation
  vboCount : Nat → Nat
  refs : Nat → Nat
  pending : List BindOp
  /-- The ranges that were freed without being released, because their pages could not be unmapped. -/
  pinned : List BindRange
  /-- `gpuaddr` has been put back. -/
  gpuaddrPut : Bool
  destroyed : Bool
  /-- Each time that the last count on a child was dropped, with the page table as it was then. -/
  dropped : List (Nat × (Nat → Translation))

/-- How the calls of the MMU turn out: for the window as a whole, for each of the ranges that are
gone over, and for the child. -/
structure MmuAnswers where
  unmapWindow : Bool
  unmapRange : Nat → Bool
  mapZero : Nat → Bool
  mapChild : Bool

namespace Vbo

def init (size : Nat) (noMapZero secure : Bool) : Vbo where
  size
  noMapZero
  secure
  ranges := []
  table := fun _ => if noMapZero then .unmapped else .zeroPage
  vboCount := fun _ => 0
  refs := fun _ => 0
  pending := []
  pinned := []
  gpuaddrPut := false
  destroyed := false
  dropped := []

/-- `interval_tree_insert`: behind the nodes with the same start. -/
def treeInsert (vbo : Vbo) (range : BindRange) : Vbo :=
  { vbo with ranges := vbo.ranges.orderedInsert (fun new old => new.start < old.start) range }

/-- `interval_tree_remove` -/
def treeRemove (vbo : Vbo) (range : BindRange) : Vbo := { vbo with ranges := vbo.ranges.erase range }

/-- The nodes that `interval_tree_iter_first` and `interval_tree_iter_next` give: what the loops insert does not
overlap the window. -/
def overlapping (vbo : Vbo) (window : Span) : List BindRange :=
  vbo.ranges.filter fun range => range.Overlaps window

def setPages (vbo : Vbo) (start length : Nat) (place : Nat → Translation) : Vbo :=
  { vbo with
    table := fun page =>
      if start ≤ pageAddr page ∧ pageAddr page < start + length then place page else vbo.table page }

/-- `kgsl_mmu_unmap_range`, where it succeeds. -/
def unmapRange (vbo : Vbo) (start length : Nat) : Vbo := vbo.setPages start length fun _ => .unmapped

/-- `kgsl_mmu_map_zero_page_to_range`, where it succeeds. -/
def mapZeroPageToRange (vbo : Vbo) (start length : Nat) : Vbo :=
  vbo.setPages start length fun _ => .zeroPage

/-- `kgsl_mmu_map_child`, where it succeeds. -/
def mapChild (vbo : Vbo) (start entry offset length : Nat) : Vbo :=
  vbo.setPages start length fun page => .child entry (offset + (pageAddr page - start))

/-- Take a count and a reference on a child: `bind_range_create` and the lookup of an operation. -/
def hold (vbo : Vbo) (entry : Nat) : Vbo :=
  { vbo with
    vboCount := Function.update vbo.vboCount entry (vbo.vboCount entry + 1)
    refs := Function.update vbo.refs entry (vbo.refs entry + 1) }

/-- Give them back: `bind_range_destroy` and `kgsl_sharedmem_free_bind_op`. -/
def drop (vbo : Vbo) (entry : Nat) : Vbo :=
  { vbo with
    vboCount := Function.update vbo.vboCount entry (vbo.vboCount entry - 1)
    refs := Function.update vbo.refs entry (vbo.refs entry - 1)
    dropped := if vbo.vboCount entry = 1 then vbo.dropped ++ [(entry, vbo.table)] else vbo.dropped }

/-- The loop of `kgsl_memdesc_remove_range`. -/
def removeLoop (answers : MmuAnswers) (entry : Option Nat) : List BindRange → Nat → Vbo → Vbo
  | [], _, vbo => vbo
  | range :: rest, count, vbo =>
    if entry = none ∨ entry = some range.entry then
      if !answers.unmapRange count then removeLoop answers entry rest (count + 1) vbo
      else let vbo := (vbo.unmapRange range.start range.length).treeRemove range
        let vbo :=
          if !vbo.noMapZero ∧ answers.mapZero count then vbo.mapZeroPageToRange range.start range.length
          else vbo
        removeLoop answers entry rest (count + 1) (vbo.drop range.entry)
    else removeLoop answers entry rest (count + 1) vbo

/-- `kgsl_memdesc_remove_range` -/
def removeRange (vbo : Vbo) (start last : Nat) (entry : Option Nat) (answers : MmuAnswers) : Vbo :=
  removeLoop answers entry (vbo.overlapping { start, last }) 0 vbo

/-- Unmap a part of the window where that has not been done for the window as a whole. -/
def unmapPart (vbo : Vbo) (answer : Bool) (start length : Nat) : Option Vbo :=
  if vbo.noMapZero then if answer then some (vbo.unmapRange start length) else none
  else some vbo

/-- One turn of the loop of `kgsl_memdesc_add_range`; it ends at the first unmap that fails. -/
def addNode (vbo : Vbo) (start last : Nat) (cur : BindRange) (answer : Bool) : Vbo × Bool :=
  let vbo := vbo.treeRemove cur
  if start ≤ cur.start then if cur.last ≤ last then
      match vbo.unmapPart answer cur.start (cur.last - cur.start + 1) with
      | none => (vbo.treeInsert cur, false)
      | some vbo => (vbo.drop cur.entry, true)
    else match vbo.unmapPart answer cur.start (last - cur.start + 1) with
      | none => (vbo.treeInsert cur, false)
      | some vbo => (vbo.treeInsert { cur with start := last + 1 }, true)
  else let vbo :=
      if last < cur.last then
        (vbo.hold cur.entry).treeInsert { start := last + 1, last := cur.last, entry := cur.entry }
      else vbo
    match vbo.unmapPart answer start (min cur.last last - start + 1) with
    | none => (vbo.treeInsert cur, false)
    | some vbo => (vbo.treeInsert { cur with last := start - 1 }, true)

/-- The loop of `kgsl_memdesc_add_range`. -/
def addLoop (answers : MmuAnswers) (start last : Nat) : List BindRange → Nat → Vbo → Vbo × Bool
  | [], _, vbo => (vbo, true)
  | cur :: rest, count, vbo =>
    match vbo.addNode start last cur (answers.unmapRange count) with
    | (vbo, false) => (vbo, false)
    | (vbo, true) => addLoop answers start last rest (count + 1) vbo

/-- `kgsl_memdesc_add_range`; `allocated` tells whether there is memory for the new range. -/
def addRange (vbo : Vbo) (start last entry offset : Nat) (allocated : Bool) (answers : MmuAnswers) : Vbo × Bool :=
  if !allocated then (vbo, false)
  else let vbo := vbo.hold entry
    if !vbo.noMapZero ∧ !answers.unmapWindow then (vbo.drop entry, false)
    else let vbo := if vbo.noMapZero then vbo else vbo.unmapRange start (last - start + 1)
      match addLoop answers start last (vbo.overlapping { start, last }) 0 vbo with
      | (vbo, false) => (vbo.drop entry, false)
      | (vbo, true) =>
        if !answers.mapChild then (vbo.drop entry, false)
        else ((vbo.mapChild start entry offset (last - start + 1)).treeInsert { start, last, entry }, true)

/-- The loop of `kgsl_sharedmem_vbo_put_gpuaddr`, with whether an unmap has failed, which keeps every child. -/
def putLoop (answers : MmuAnswers) (whole : Bool) : List BindRange → Nat → Vbo → Bool → Vbo × Bool
  | [], _, vbo, failed => (vbo, failed)
  | range :: rest, count, vbo, failed =>
    let vbo := vbo.treeRemove range
    let unmapped := if vbo.noMapZero then answers.unmapRange count else whole
    let vbo := if vbo.noMapZero ∧ unmapped then vbo.unmapRange range.start range.length else vbo
    let vbo :=
      if unmapped then vbo.drop range.entry else { vbo with pinned := vbo.pinned ++ [range] }
    putLoop answers whole rest (count + 1) vbo (failed || !unmapped)

/-- `kgsl_sharedmem_vbo_put_gpuaddr` -/
def putGpuaddr (vbo : Vbo) (answers : MmuAnswers) : Vbo :=
  let whole := vbo.noMapZero || answers.unmapWindow
  let vbo := if !vbo.noMapZero ∧ whole then vbo.unmapRange 0 vbo.size else vbo
  match putLoop answers whole vbo.ranges 0 vbo (!whole) with
  | (vbo, true) => vbo
  | (vbo, false) => { vbo with gpuaddrPut := true }

end Vbo

/-- What `kgsl_sharedmem_create_bind_op` reads of a child. -/
structure ChildEntry where
  vbo : Bool
  secure : Bool
  size : Nat

/-- `kgsl_gpumem_bind_range` -/
structure GpumemBindRange where
  childOffset : Nat
  targetOffset : Nat
  length : Nat
  childId : Nat
  op : Nat
  length_u64 : length < 18446744073709551616

/-- `KGSL_GPUMEM_RANGE_OP_BIND` -/
def rangeOpBind : Nat := 1

/-- `KGSL_GPUMEM_RANGE_OP_UNBIND` -/
def rangeOpUnbind : Nat := 2

def pageAligned (value : Nat) : Bool := value % 4096 = 0

/-- `kgsl_memdesc_check_range` -/
def checkRange (size offset length : Nat) : Bool :=
  offset < size ∧ offset < (offset + length) % 18446744073709551616 ∧
    (offset + length) % 18446744073709551616 ≤ size

structure BindEnv where
  find : Nat → Option ChildEntry
  copied : Nat → Bool
  allocated : Bool
  /-- `kgsl_reclaim_to_pinned_state` -/
  pinnedState : Except Errno Unit

namespace Vbo

def checkChild (vbo : Vbo) (range : GpumemBindRange) (child : ChildEntry) : Except Errno BindEntry :=
  if child.vbo then .error .inval
  else if vbo.secure ≠ child.secure then .error .perm
  else if range.op ≠ rangeOpBind ∧ range.op ≠ rangeOpUnbind then .error .inval
  else if range.op = rangeOpBind ∧ !pageAligned range.childOffset then .error .inval
  else if range.op = rangeOpBind ∧ !checkRange child.size range.childOffset range.length then .error .inval
  else if range.op ≠ rangeOpBind ∧ range.childOffset ≠ 0 then .error .inval
  else .ok
      { entry := some range.childId
        start := range.targetOffset
        last := range.targetOffset + range.length - 1
        childOffset := range.childOffset
        bind := range.op = rangeOpBind }

def checkTarget (vbo : Vbo) (range : GpumemBindRange) : Except Errno Unit :=
  if !pageAligned range.targetOffset then .error .inval
  else if range.length = 0 ∨ !pageAligned range.length then .error .inval
  else if !checkRange vbo.size range.targetOffset range.length then .error .inval
  else .ok ()

/-- The loop of `kgsl_sharedmem_create_bind_op`; `held` are the children that are given back when it fails. -/
def createLoop (env : BindEnv) :
    List GpumemBindRange → Nat → List Nat → List BindEntry → Vbo → Vbo × Except Errno (List BindEntry)
  | [], _, _, ops, vbo => (vbo, .ok ops)
  | range :: rest, count, held, ops, vbo =>
    if !env.copied count then (held.foldl drop vbo, .error .fault)
    else match vbo.checkTarget range with
      | .error errno => (held.foldl drop vbo, .error errno)
      | .ok _ =>
        if range.childId = 0 ∧ range.op = rangeOpUnbind then createLoop env rest (count + 1) held
            (ops ++
              [{ entry := none
                 start := range.targetOffset
                 last := range.targetOffset + range.length - 1
                 childOffset := 0
                 bind := false }])
            vbo
        else match env.find range.childId with
          | none => (held.foldl drop vbo, .error .noent)
          | some child =>
            let vbo := vbo.hold range.childId
            let held := held ++ [range.childId]
            match vbo.checkChild range child with
            | .error errno => (held.foldl drop vbo, .error errno)
            | .ok op => createLoop env rest (count + 1) held (ops ++ [op]) vbo

/-- `kgsl_sharedmem_create_bind_op`, for a target that is a virtual buffer object. -/
def createBindOp (vbo : Vbo) (env : BindEnv) (ranges : List GpumemBindRange) :
    Vbo × Except Errno (List BindEntry) :=
  if ranges = [] then (vbo, .error .inval)
  else if !env.allocated then (vbo, .error .nomem)
  else match env.pinnedState with
    | .error errno => (vbo, .error errno)
    | .ok _ => createLoop env ranges 0 [] [] vbo

/-- What `kgsl_sharedmem_bind_worker` does for one operation; an operation that binds names a child. -/
def bindOne (vbo : Vbo) (op : BindEntry) (allocated : Bool) (answers : MmuAnswers) : Vbo × Bool :=
  match op.bind, op.entry with
  | true, some entry => vbo.addRange op.start op.last entry op.childOffset allocated answers
  | true, none => (vbo, false)
  | false, entry => (vbo.removeRange op.start op.last entry answers, true)

end Vbo

end KernelModules.GpuMemory

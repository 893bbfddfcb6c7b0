import KernelModules.Data.SearchTree
import Mathlib.Data.Nat.Bitwise

namespace KernelModules.Kgsl

open Data

/-! # The GPU addresses of a page table

`kgsl_iommu.c` hands out the addresses of a process's page table.  A tree holds the ranges in
use, and `va_hint` the address at which the next range of the 64-bit window is tried first.
-/

/-- Arithmetic on `u64`. -/
def u64 (value : Nat) : Nat := value % 18446744073709551616

inductive Errno where
  | nomem
  | exist
  | inval

/-- The error as a negative number cast to `u64`. -/
def Errno.value : Errno → Nat
  | nomem => 18446744073709551616 - 12
  | exist => 18446744073709551616 - 17
  | inval => 18446744073709551616 - 22

/-- `IS_ERR_VALUE`: the last `MAX_ERRNO` numbers are errors. -/
def isErrValue (value : Nat) : Bool := decide (18446744073709551616 - 4095 ≤ value)

/-- `ALIGN` on `u64`. -/
def alignU64 (value alignment : Nat) : Nat :=
  u64 (value + (alignment - 1)) &&& (18446744073709551615 - (alignment - 1))

def upper32Bits (value : Nat) : Nat := value / 4294967296 % 4294967296

structure KgslIommuAddrEntry where
  base : Nat
  size : Nat
deriving DecidableEq

/-- `entry->base + entry->size` -/
def KgslIommuAddrEntry.limit (entry : KgslIommuAddrEntry) : Nat := u64 (entry.base + entry.size)

/-- The windows of a 64-bit page table: the compat one below the others, and the SVM window apart
from the one in which `va_hint` moves. -/
structure VaWindows where
  compatVaStart : Nat
  compatVaEnd : Nat
  svmStart : Nat
  svmEnd : Nat
  vaStart : Nat
  vaEnd : Nat
  compat_bits : compatVaStart ≤ 281474976710656
  compat_low : compatVaEnd < 4294967296
  va_high : 4294967296 ≤ vaStart
  va_order : vaStart ≤ vaEnd
  svm_apart : svmEnd ≤ vaStart ∨ vaEnd ≤ svmStart
  va_bits : vaEnd ≤ 281474976710656
  svm_bits : svmEnd ≤ 281474976710656

structure KgslPagetable where
  windows : VaWindows
  vaHint : Nat
  rbtree : SearchTree KgslIommuAddrEntry

def kgslMemstoreTokenAddress : Nat := 0xF0000000 - 0x1000

def kgslIommuGlobalMemBase64 : Nat := kgslMemstoreTokenAddress - 20 * 0x100000

/-- `KGSL_IOMMU_SVM_END32` of a 64-bit MMU. -/
def kgslIommuSvmEnd32 (iopgtable : Bool) : Nat :=
  if iopgtable then kgslMemstoreTokenAddress else kgslIommuGlobalMemBase64

/-- The windows that `kgsl_iopgtbl_pagetable` sets up on a 64-bit MMU; `svmBase32` is the end of the
graphics memory. -/
def kgslWindows (svmBase32 : Nat) (small : svmBase32 ≤ 281474976710656) (iopgtable compatTask : Bool) :
    VaWindows where
  compatVaStart := svmBase32
  compatVaEnd := kgslIommuSvmEnd32 iopgtable
  svmStart := if compatTask then svmBase32 else 0x1000000000
  svmEnd := if compatTask then kgslIommuSvmEnd32 iopgtable else 0x4000000000
  vaStart := 0x4000000000
  vaEnd := 0x8000000000
  compat_bits := small
  compat_low := by cases iopgtable <;> decide
  va_high := by decide
  va_order := by decide
  svm_apart := .inl (by cases iopgtable <;> cases compatTask <;> decide)
  va_bits := by decide
  svm_bits := by cases iopgtable <;> cases compatTask <;> decide

/-- The state that `kgsl_iopgtbl_pagetable` leaves. -/
def KgslPagetable.init (windows : VaWindows) : KgslPagetable := ⟨windows, windows.vaStart, .leaf⟩

/-- What the driver reads of a memory descriptor; `align` is the exponent from its flags. -/
structure KgslMemdesc where
  size : UInt64
  align : Nat
  guardPage : Bool
  force32Bit : Bool
  useCpuMap : Bool
  secure : Bool

namespace KgslMemdesc

/-- `kgsl_memdesc_footprint` -/
def footprint (memdesc : KgslMemdesc) : Nat :=
  if memdesc.guardPage then alignU64 (u64 (memdesc.size.toNat + 4096)) 4096 else memdesc.size.toNat

/-- `max_t(uint64_t, 1 << kgsl_memdesc_get_align(memdesc), PAGE_SIZE)`: the shift is one of `int`,
by a count of which the machine takes five bits. -/
def alignment (memdesc : KgslMemdesc) : Nat :=
  max (((1#32 <<< (memdesc.align % 32)).signExtend 64).toNat) 4096

/-- The window that `kgsl_iommu_get_gpuaddr` asks for. -/
def windowStart (memdesc : KgslMemdesc) (windows : VaWindows) : Nat :=
  if memdesc.force32Bit then windows.compatVaStart else windows.vaStart

def windowEnd (memdesc : KgslMemdesc) (windows : VaWindows) : Nat :=
  if memdesc.force32Bit then windows.compatVaEnd else windows.vaEnd

end KgslMemdesc

/-- The search of `_get_unmapped_area` from one entry on, the next place to try being `start`. -/
def searchGaps (bottom top size alignment : Nat) : List KgslIommuAddrEntry → Nat → Nat
  | [], start => if u64 (start + size) ≤ top then start else Errno.nomem.value
  | entry :: rest, start =>
    if entry.base < bottom then
      -- An entry may straddle the lower bound.
      searchGaps bottom top size alignment rest
        (if entry.limit > bottom then alignU64 entry.limit alignment else start)
    else if entry.base ≥ top then if u64 (start + size) ≤ top then start else Errno.nomem.value
    else if start < entry.base ∧ entry.base - start ≥ size then start
    else if entry.limit ≥ top then Errno.nomem.value
    else searchGaps bottom top size alignment rest (alignU64 entry.limit alignment)

namespace KgslPagetable

variable (rb : SearchTree.Balancing KgslIommuAddrEntry) (pagetable : KgslPagetable)

/-- The entries in the order of `rb_first` and `rb_next`. -/
def entries : List KgslIommuAddrEntry := pagetable.rbtree.inorder

def findGpuaddr (gpuaddr : Nat) : Option KgslIommuAddrEntry :=
  pagetable.rbtree.search (gpuaddr < ·.base) (gpuaddr > ·.base)

/-- `rb_prev` -/
def prev (entry : KgslIommuAddrEntry) : Option KgslIommuAddrEntry :=
  (pagetable.entries.takeWhile (· ≠ entry)).getLast?

def hintBehind : Option KgslIommuAddrEntry → Nat
  | none => pagetable.windows.vaStart
  | some prev => max prev.limit pagetable.windows.vaStart

def removeGpuaddr (gpuaddr : Nat) : Except Errno KgslPagetable :=
  match pagetable.findGpuaddr gpuaddr with
  | none => .error .nomem
  | some entry =>
    let vaHint :=
      if pagetable.vaHint = entry.limit then pagetable.hintBehind (pagetable.prev entry)
      else pagetable.vaHint
    .ok { pagetable with vaHint, rbtree := rb.erase pagetable.rbtree entry }

/-- `_insert_gpuaddr`; `allocated` tells whether the node could be allocated. -/
def insertGpuaddr (gpuaddr size : Nat) (allocated : Bool) : Except Errno KgslPagetable :=
  if allocated then match pagetable.rbtree.insert KgslIommuAddrEntry.base ⟨gpuaddr, size⟩ with
    | none => .error .exist
    | some tree => .ok { pagetable with rbtree := rb.insertColor tree }
  else .error .nomem

def getUnmappedAreaHint (top size alignment : Nat) : KgslPagetable × Nat :=
  if pagetable.vaHint = 0 ∨ upper32Bits top = 0 then (pagetable, Errno.inval.value)
  else let hint := alignU64 pagetable.vaHint alignment
    if u64 (hint + size) > top then (pagetable, Errno.nomem.value)
    else ({ pagetable with vaHint := u64 (hint + size) }, hint)

def getUnmappedArea (bottom top size alignment : Nat) : KgslPagetable × Nat :=
  let tried := pagetable.getUnmappedAreaHint top size alignment
  if isErrValue tried.2 then let bottom := alignU64 bottom alignment
    (tried.1, searchGaps bottom top size alignment tried.1.entries bottom)
  else tried

def getGpuaddr (start limit size alignment : Nat) (allocated : Bool) : KgslPagetable × Except Errno Nat :=
  let found := pagetable.getUnmappedArea start limit size alignment
  if found.2 = Errno.nomem.value then (found.1, .error .nomem)
  else match found.1.insertGpuaddr rb found.2 size allocated with
    | .ok inserted => (inserted, .ok found.2)
    | .error errno => (found.1, .error errno)

/-- One attempt of `kgsl_iommu_get_gpuaddr`, which makes a second one after `-ENOMEM`. -/
def kgslIommuGetGpuaddr (memdesc : KgslMemdesc) (allocated : Bool) : KgslPagetable × Except Errno Nat :=
  if memdesc.useCpuMap then (pagetable, .error .inval)
  else if memdesc.secure then (pagetable, .error .inval)
  else pagetable.getGpuaddr rb (memdesc.windowStart pagetable.windows) (memdesc.windowEnd pagetable.windows)
      memdesc.footprint memdesc.alignment allocated

def iommuAddrInSvmRanges (gpuaddr size : Nat) : Bool :=
  let windows := pagetable.windows
  let limit := u64 (gpuaddr + size)
  if limit ≤ gpuaddr then false
  else if (windows.compatVaStart ≤ gpuaddr ∧ gpuaddr < windows.compatVaEnd) ∧
      windows.compatVaStart < limit ∧ limit ≤ windows.compatVaEnd then true
  else if (windows.svmStart ≤ gpuaddr ∧ gpuaddr < windows.svmEnd) ∧
      windows.svmStart < limit ∧ limit ≤ windows.svmEnd then true
  else false

def kgslIommuSetSvmRegion (gpuaddr size : Nat) (allocated : Bool) : Except Errno KgslPagetable :=
  if pagetable.iommuAddrInSvmRanges gpuaddr size then
    match pagetable.rbtree.search (u64 (gpuaddr + size) ≤ ·.base) (·.limit ≤ gpuaddr) with
    | some _ => .error .nomem
    | none => pagetable.insertGpuaddr rb gpuaddr size allocated
  else .error .nomem

end KgslPagetable

inductive AddrAction where
  | getGpuaddr (memdesc : KgslMemdesc) (allocated : Bool)
  | setSvmRegion (gpuaddr size : UInt64) (allocated : Bool)
  | putGpuaddr (gpuaddr : UInt64)

def addrStep (rb : SearchTree.Balancing KgslIommuAddrEntry) (pagetable : KgslPagetable) :
    AddrAction → Option KgslPagetable
  | .getGpuaddr memdesc allocated => some (pagetable.kgslIommuGetGpuaddr rb memdesc allocated).1
  | .setSvmRegion gpuaddr size allocated =>
    some ((pagetable.kgslIommuSetSvmRegion rb gpuaddr.toNat size.toNat allocated).toOption.getD pagetable)
  | .putGpuaddr gpuaddr => some ((pagetable.removeGpuaddr rb gpuaddr.toNat).toOption.getD pagetable)

end KernelModules.Kgsl

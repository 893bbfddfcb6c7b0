import KernelModules.IpaTables.Layout

namespace KernelModules.IpaTables

open Data Translation

/-! # Faithful images

Each part with rules stands in its block, the header refers to it, and nothing is written elsewhere.
-/

variable {Rule : Type} {env : CommitEnv Rule} {pass : TblPass Rule} {passes : IpaRuleType → TblPass Rule}
  {part : TblPart} {rlt : IpaRuleType} {parts : IpaRuleType → List TblPart} {tbls : TblRef → IpaTbl Rule}
  {imgs : AllocImgsParams} {t : Translation Rule}

def imagePass (env : CommitEnv Rule) (imgs : AllocImgsParams) (hashOfst nhashOfst : Nat) :
    IpaRuleType → TblPass Rule
  | .hashable => hashPass env imgs hashOfst
  | .nonHashable => nhashPass env imgs nhashOfst

def partBytes (env : CommitEnv Rule) (tbls : TblRef → IpaTbl Rule) (rlt : IpaRuleType)
    (part : TblPart) : List (BitVec 8) :=
  rulesBytes env rlt (tbls part.tbl).rules

def TblPart.block (part : TblPart) (pass : TblPass Rule) (t : Translation Rule) : IpaMemBuffer :=
  if part.inSys then (t.tbls part.tbl).currMem pass.rlt else pass.bdy

def TblStore.Inside (store : TblStore) : Prop :=
  store.target.base ≤ store.address ∧ store.address + store.length ≤ store.target.base + store.target.size

/-- The rules of a part stand from `start` on, which the hardware finds at `addr`. -/
structure ImageAt (pass : TblPass Rule) (part : TblPart) (t : Translation Rule) (start addr : Nat) : Prop where
  place : if part.inSys then start = (part.block pass t).base ∧ addr = (part.block pass t).physBase
    else addr = start - pass.bdy.base + pass.bodyOfst
  image : t.memory.readBytes start ((partBytes pass.env t.tbls pass.rlt part).length + tblWidth) =
    partBytes pass.env t.tbls pass.rlt part ++ terminator
  header : ⟨part.tbl, pass.hdr, slotAddr pass part.sysIdx, tblHdrWidth⟩ ∈ t.stores
  slot : ∃ hwaddr, createTblAddr part.inSys addr = some hwaddr ∧
    t.memory.load (slotAddr pass part.sysIdx) tblHdrWidth = hwaddr % 256 ^ tblHdrWidth
  written : ∃ store ∈ t.stores, store.owner = part.tbl ∧ store.target = part.block pass t ∧
    store.address = start ∧ tblWidth ≤ store.length
  inside : (part.block pass t).base ≤ start ∧
    start + ((partBytes pass.env t.tbls pass.rlt part).length + tblWidth) ≤
      (part.block pass t).base + (part.block pass t).size
  kept : ∀ store ∈ t.stores, store.owner ≠ part.tbl → store.address + store.length ≤ start ∨
    start + ((partBytes pass.env t.tbls pass.rlt part).length + tblWidth) ≤ store.address

structure Faithful (passes : IpaRuleType → TblPass Rule) (parts : IpaRuleType → List TblPart)
    (t : Translation Rule) : Prop where
  images : ∀ rlt, ∀ part ∈ parts rlt, partBytes (passes rlt).env t.tbls (passes rlt).rlt part ≠ [] →
    ∃ start addr, ImageAt (passes rlt) part t start addr
  inside : ∀ store ∈ t.stores, store.Inside

structure Clean (env : CommitEnv Rule) (imgs : AllocImgsParams) (tbls : TblRef → IpaTbl Rule)
    (parts : IpaRuleType → List TblPart) : Prop where
  slots : ∀ rlt, ∀ part ∈ parts rlt, partBytes env tbls rlt part ≠ [] →
    u32 (part.sysIdx * tblHdrWidth) + tblHdrWidth ≤ u32 (imgs.tblsNum * tblHdrWidth)
  sys : ∀ rlt, ∀ part ∈ parts rlt, partBytes env tbls rlt part ≠ [] → part.inSys = true →
    (partBytes env tbls rlt part).length + prefetchBufSize + tblWidth < 4294967296
  lclHash : ∀ part ∈ parts .hashable, partBytes env tbls .hashable part ≠ [] → part.inSys = true
  lclSlot : ∀ rlt, ∀ part ∈ parts rlt, partBytes env tbls rlt part ≠ [] → part.inSys = false →
    u32 (part.lclIdx * tblHdrWidth) = u32 (part.sysIdx * tblHdrWidth)
  lclRoom : ∀ part ∈ parts .nonHashable, partBytes env tbls .nonHashable part ≠ [] → part.inSys = false →
      (partBytes env tbls .nonHashable part).length + tblWidth ≤ imgs.nhashBdy.size
  lclOne : ∀ part ∈ parts .nonHashable, ∀ other ∈ parts .nonHashable,
    partBytes env tbls .nonHashable part ≠ [] → partBytes env tbls .nonHashable other ≠ [] →
      part.inSys = false → other.inSys = false → part = other

inductive DmaUse where
  | hdr (rlt : IpaRuleType)
  | bdy (rlt : IpaRuleType)
  | sysTbl (ref : TblRef) (rlt : IpaRuleType)
deriving DecidableEq

def CommitEnv.answer (env : CommitEnv Rule) : DmaUse → Option (Nat × Nat)
  | .hdr .hashable => env.dmaHashHdr
  | .hdr .nonHashable => env.dmaNhashHdr
  | .bdy .hashable => env.dmaHashBdy
  | .bdy .nonHashable => env.dmaNhashBdy
  | .sysTbl ref rlt => env.dmaSysTbl ref rlt

def dmaSize (tbls : TblRef → IpaTbl Rule) (imgs : AllocImgsParams) : DmaUse → Nat
  | .hdr _ => u32 (imgs.tblsNum * tblHdrWidth)
  | .bdy .hashable => imgs.hashBdy.size
  | .bdy .nonHashable => imgs.nhashBdy.size
  | .sysTbl ref rlt => u32 (u32 ((tbls ref).sz rlt + prefetchBufSize - tblHdrWidth) + tblWidth)

structure DmaApart (env : CommitEnv Rule) (size : DmaUse → Nat) : Prop where
  present : ∀ use base physBase, env.answer use = some (base, physBase) → base ≠ 0
  apart : ∀ use other base physBase place phys, use ≠ other →
    env.answer use = some (base, physBase) → env.answer other = some (place, phys) →
      base ≠ place ∧ (base + size use ≤ place ∨ place + size other ≤ base)

variable {size : DmaUse → Nat} {use : DmaUse} {mem : IpaMemBuffer}

def IsGrant (env : CommitEnv Rule) (size : DmaUse → Nat) (use : DmaUse) (mem : IpaMemBuffer) : Prop :=
  ∃ base physBase, env.answer use = some (base, physBase) ∧ mem = ⟨base, physBase, size use⟩

section

variable (grant : IsGrant env size use mem)
include grant

theorem IsGrant.present (dma : DmaApart env size) : mem.base ≠ 0 := by
  obtain ⟨base, physBase, answer, rfl⟩ := grant
  exact dma.present _ _ _ answer

theorem IsGrant.size_eq : mem.size = size use := by
  obtain ⟨_, _, _, rfl⟩ := grant
  rfl

theorem IsGrant.use_eq (another : IsGrant env size other mem) (dma : DmaApart env size) : use = other := by
  obtain ⟨base, physBase, answer, rfl⟩ := grant
  obtain ⟨place, phys, granted, same⟩ := another
  by_contra different
  exact (dma.apart _ _ _ _ _ _ different answer granted).1 (congrArg IpaMemBuffer.base same)

theorem IsGrant.apart (another : IsGrant env size other mem') (dma : DmaApart env size)
    (different : use ≠ other) : mem.base + mem.size ≤ mem'.base ∨ mem'.base + mem'.size ≤ mem.base := by
  obtain ⟨base, physBase, answer, rfl⟩ := grant
  obtain ⟨place, phys, granted, rfl⟩ := another
  exact (dma.apart _ _ _ _ _ _ different answer granted).2

end

structure Allocated (env : CommitEnv Rule) (size : DmaUse → Nat) (imgs : AllocImgsParams) : Prop where
  hashHdr : imgs.hashHdr = .none ∨ IsGrant env size (.hdr .hashable) imgs.hashHdr
  nhashHdr : IsGrant env size (.hdr .nonHashable) imgs.nhashHdr
  hashBdy : imgs.hashBdy = .none
  nhashBdy : imgs.nhashBdy = .none ∨ IsGrant env size (.bdy .nonHashable) imgs.nhashBdy
  small : imgs.nhashBdy.size < 4294967296

theorem alignDown_le : alignDown value mask ≤ value := Nat.sub_le _ _

theorem getAlignedLclBdySize_lt : getAlignedLclBdySize num total < 4294967296 :=
  lt_of_le_of_lt alignDown_le u32_lt

theorem dmaAlloc_eq_some {memory : ByteMemory} (alloc : dmaAlloc answer count memory = some (mem, later)) :
    ∃ base physBase, answer = some (base, physBase) ∧ mem = ⟨base, physBase, count⟩ := by
  obtain ⟨⟨base, physBase⟩, found, rest⟩ := Option.map_eq_some_iff.mp alloc
  cases rest
  exact ⟨base, physBase, found, rfl⟩

theorem ite_bind_eq_some [Decidable asked]
    (bound : (if asked then first.bind next else second.bind next) = some result) :
    ∃ value, (if asked then first else second) = some value ∧ next value = some result := by
  split at bound
  · rename_i yes
    rw [if_pos yes]
    exact Option.bind_eq_some_iff.mp bound
  · rename_i no
    rw [if_neg no]
    exact Option.bind_eq_some_iff.mp bound

theorem allocateHwTblImgs_allocated (tbls : TblRef → IpaTbl Rule) {memory : ByteMemory}
    (noHdr : params.hashHdr = .none) (noBdy : params.hashBdy = .none) (noNhashBdy : params.nhashBdy = .none)
    (alloc : allocateHwTblImgs cfg env params = some (imgs, memory)) :
    imgs.tblsNum = params.tblsNum ∧ Allocated env (dmaSize tbls imgs) imgs := by
  have noHashBdy : ¬(cfg.obj.supportHash = true ∧ params.hashBdy.size ≠ 0) := by
    rw [noBdy]
    exact fun asked => asked.2 rfl
  obtain ⟨⟨nhashHdr, cleared⟩, nhashGrant, rest⟩ := Option.bind_eq_some_iff.mp alloc
  obtain ⟨⟨hashHdr, hdr⟩, hashGrant, rest⟩ := ite_bind_eq_some rest
  obtain ⟨⟨nhashBdy, body⟩, bodyGrant, rest⟩ := ite_bind_eq_some rest
  dsimp only at rest
  rw [if_neg noHashBdy] at rest
  cases rest
  obtain ⟨base, physBase, answer, rfl⟩ := dmaAlloc_eq_some nhashGrant
  refine ⟨rfl, ?_, ⟨base, physBase, answer, rfl⟩, noBdy, ?_, ?_⟩
  · split at hashGrant
    · obtain ⟨base, physBase, answer, rfl⟩ := dmaAlloc_eq_some hashGrant
      exact .inr ⟨base, physBase, answer, rfl⟩
    · cases hashGrant
      exact .inl noHdr
  · split at bodyGrant
    · obtain ⟨base, physBase, answer, rfl⟩ := dmaAlloc_eq_some bodyGrant
      exact .inr ⟨base, physBase, answer, rfl⟩
    · cases bodyGrant
      exact .inl noNhashBdy
  · split at bodyGrant
    · obtain ⟨base, physBase, answer, rfl⟩ := dmaAlloc_eq_some bodyGrant
      exact getAlignedLclBdySize_lt
    · cases bodyGrant
      rw [noNhashBdy]
      decide

end KernelModules.IpaTables

import KernelModules.IpaTables.Indices

namespace KernelModules.IpaTables

open Data Translation List Option TblSystem

/-! # The images of a commit

Routing and filter tables differ in their slots in the header: those of routing tables count from the first index of
the applications, but for tables in local memory.
-/

namespace TblSystem

variable {Rule : Type} {cfg : TblConfig} {env : CommitEnv Rule} {s ready : TblSystem Rule}
  {params imgs : AllocImgsParams} {memory : ByteMemory} {t : Translation Rule} {rlt : IpaRuleType}

/-- Indices are below the size of the bitmap, pipes below the number of bits of theirs. -/
structure Bounded (cfg : TblConfig) : Prop where
  rtRange : cfg.appsRtIndexLo ≤ cfg.appsRtIndexHi
  rtSmall : cfg.appsRtIndexHi < rtIndexBitmapSize
  fltPipes : ∀ pipe ∈ cfg.fltPipes, pipe < 64

def partRules (env : CommitEnv Rule) (s : TblSystem Rule) (ref : TblRef) (rlt : IpaRuleType) : List (BitVec 8) :=
  rulesBytes env rlt (s.tbls ref).rules

def lclRoom (params : AllocImgsParams) : Nat :=
  if u32 (params.totalSzLclNhashTbls + params.numLclNhashTbls) > 0 then
    getAlignedLclBdySize params.numLclNhashTbls params.totalSzLclNhashTbls
  else 0

structure RtTranslated (cfg : TblConfig) (env : CommitEnv Rule) (s ready : TblSystem Rule)
    (params imgs : AllocImgsParams) (t : Translation Rule) : Prop where
  prepared : s.prepRt cfg env = (ready, some params)
  translated : ∃ memory, allocateHwTblImgs cfg env params = some (imgs, memory) ∧
    ready.rtImage cfg env imgs memory = some (t, true)

structure FltTranslated (cfg : TblConfig) (env : CommitEnv Rule) (s ready : TblSystem Rule)
    (params imgs : AllocImgsParams) (t : Translation Rule) : Prop where
  prepared : s.prepFlt cfg env = (ready, some params)
  translated : ∃ memory, allocateHwTblImgs cfg env params = some (imgs, memory) ∧
    ready.fltImage cfg env imgs memory = some (t, true)

def RtFaithful (cfg : TblConfig) (env : CommitEnv Rule) (ready : TblSystem Rule)
    (imgs : AllocImgsParams) (t : Translation Rule) : Prop :=
  Faithful (imagePass env imgs cfg.rtHashBdyStartOfst cfg.rtNhashBdyStartOfst)
    (rtParts cfg ready.tbls ready.headRtTblList) t

def FltFaithful (cfg : TblConfig) (env : CommitEnv Rule) (ready : TblSystem Rule)
    (imgs : AllocImgsParams) (t : Translation Rule) : Prop :=
  Faithful (imagePass env imgs cfg.fltHashBdyStartOfst cfg.fltNhashBdyStartOfst)
    (fltParts ready.tbls cfg.fltPipes) t

def goesToSys (s : TblSystem Rule) (ref : TblRef) (rlt : IpaRuleType) : Bool :=
  (s.tbls ref).inSys rlt || (s.tbls ref).forceSys rlt

/-- A block has a size of 32 bits, and at most one local part, which is not hashable, has rules. -/
structure PartsClean (env : CommitEnv Rule) (ready : TblSystem Rule) (params : AllocImgsParams)
    (inSys : TblRef → IpaRuleType → Bool) (refs : List TblRef) : Prop where
  sys : ∀ ref ∈ refs, ∀ rlt, ready.partRules env ref rlt ≠ [] → inSys ref rlt = true →
    (ready.partRules env ref rlt).length + prefetchBufSize + tblWidth < 4294967296
  lclHash : ∀ ref ∈ refs, ready.partRules env ref .hashable ≠ [] → inSys ref .hashable = true
  lclRoom : ∀ ref ∈ refs, ready.partRules env ref .nonHashable ≠ [] → inSys ref .nonHashable = false →
    (ready.partRules env ref .nonHashable).length + tblWidth ≤ lclRoom params
  lclOne : ∀ ref ∈ refs, ∀ other ∈ refs,
    ready.partRules env ref .nonHashable ≠ [] → ready.partRules env other .nonHashable ≠ [] →
      inSys ref .nonHashable = false → inSys other .nonHashable = false → ref = other

/-- Routing tables with rules have an index of the applications, and local ones are right only where these begin at
0. -/
structure RtClean (cfg : TblConfig) (env : CommitEnv Rule) (ready : TblSystem Rule)
    (params : AllocImgsParams) : Prop where
  parts : PartsClean env ready params (fun ref => (ready.tbls ref).inSys) (ready.headRtTblList.map .rt)
  index : ∀ tbl ∈ ready.headRtTblList, ∀ rlt, ready.partRules env (.rt tbl) rlt ≠ [] →
    cfg.appsRtIndexLo ≤ (ready.tbls (.rt tbl)).idx ∧ (ready.tbls (.rt tbl)).idx ≤ cfg.appsRtIndexHi
  lclIndex : ∀ tbl ∈ ready.headRtTblList, ∀ rlt, ready.partRules env (.rt tbl) rlt ≠ [] →
    (ready.tbls (.rt tbl)).inSys rlt = false → cfg.appsRtIndexLo = 0

def FltClean (cfg : TblConfig) (env : CommitEnv Rule) (ready : TblSystem Rule)
    (params : AllocImgsParams) : Prop :=
  PartsClean env ready params ready.goesToSys (cfg.fltPipes.map .flt)

theorem addLcl_none (params : AllocImgsParams) (tbl : IpaTbl Rule) :
    (params.addLcl tbl).tblsNum = params.tblsNum ∧ (params.addLcl tbl).hashHdr = params.hashHdr ∧
      (params.addLcl tbl).hashBdy = params.hashBdy ∧ (params.addLcl tbl).nhashBdy = params.nhashBdy := by
  unfold AllocImgsParams.addLcl
  split <;> split <;> exact ⟨rfl, rfl, rfl, rfl⟩

structure Unallocated (tblsNum : Nat) (params : AllocImgsParams) : Prop where
  tblsNum : params.tblsNum = tblsNum
  hashHdr : params.hashHdr = .none
  hashBdy : params.hashBdy = .none
  nhashBdy : params.nhashBdy = .none

theorem lclParams_unallocated (tbls : List (IpaTbl Rule)) : Unallocated tblsNum (lclParams tblsNum tbls) := by
  have kept (params : AllocImgsParams) (start : Unallocated tblsNum params) :
      Unallocated tblsNum (tbls.foldl AllocImgsParams.addLcl params) := by
    induction tbls generalizing params with
    | nil => exact start
    | cons tbl rest ih =>
      obtain ⟨num, hashHdr, hashBdy, nhashBdy⟩ := addLcl_none params tbl
      exact ih _ ⟨num.trans start.tblsNum, hashHdr.trans start.hashHdr,
        hashBdy.trans start.hashBdy, nhashBdy.trans start.nhashBdy⟩
  exact kept _ ⟨rfl, rfl, rfl, rfl⟩

theorem moveNhashTbls_unallocated {tbls : TblRef → IpaTbl Rule} (pipes : List Nat)
    (start : Unallocated tblsNum params) : Unallocated tblsNum (moveNhashTbls cfg tbls params pipes).2 := by
  induction pipes generalizing tbls params with
  | nil => exact start
  | cons pipe rest ih =>
    unfold moveNhashTbls
    split
    · exact start
    · exact ih { start with }

theorem prepRt_eq (prep : s.prepRt cfg env = (ready, some params)) (once : s.headRtTblList.Nodup) :
    ready.headRtTblList = s.headRtTblList ∧ Unallocated (cfg.appsRtIndexHi - cfg.appsRtIndexLo + 1) params ∧
      ∀ tbl ∈ ready.headRtTblList, Measured env (ready.tbls (.rt tbl)) := by
  unfold prepRt at prep
  generalize result : prepTbls cfg env (s.headRtTblList.map .rt) s.tbls = walked at prep
  obtain ⟨tbls, done⟩ := walked
  cases done with
  | false => cases prep
  | true =>
    cases prep
    refine ⟨rfl, lclParams_unallocated _, fun tbl mem => ?_⟩
    have once : (s.headRtTblList.map TblRef.rt).Nodup := once.map fun _ _ => TblRef.rt.inj
    exact (prepTbls_measured once result).1 _ (mem_map_of_mem mem)

theorem prepFlt_eq (prep : s.prepFlt cfg env = (ready, some params)) : Unallocated cfg.fltPipes.length params ∧
      ∀ pipe ∈ cfg.fltPipes, Measured env (ready.tbls (.flt pipe)) := by
  unfold prepFlt at prep
  dsimp only at prep
  generalize result : prepFltTbls cfg env cfg.fltPipes s.tbls = walked at prep
  obtain ⟨tbls, done⟩ := walked
  split at prep
  · rename_i fits
    have finished : done = true := fits.1
    subst finished
    cases prep
    refine ⟨moveNhashTbls_unallocated _ (lclParams_unallocated _), fun pipe mem => ?_⟩
    have once : cfg.fltPipes.Nodup := cfg.fltPipes_ordered.imp ne_of_lt
    exact moveNhashTbls_measured _ ((prepFltTbls_measured once result).1 pipe mem)
  · cases prep

theorem allocateHwTblImgs_lclRoom (start : Unallocated tblsNum params)
    (alloc : allocateHwTblImgs cfg env params = some (imgs, memory)) : imgs.nhashBdy.size = lclRoom params := by
  obtain ⟨⟨nhashHdr, cleared⟩, _, rest⟩ := bind_eq_some_iff.mp alloc
  obtain ⟨⟨hashHdr, hdr⟩, _, rest⟩ := ite_bind_eq_some rest
  obtain ⟨⟨nhashBdy, body⟩, granted, rest⟩ := ite_bind_eq_some rest
  obtain ⟨⟨hashBdy, final⟩, _, rest⟩ := ite_bind_eq_some rest
  cases rest
  unfold lclRoom
  split at granted
  · rename_i asked
    obtain ⟨base, physBase, _, rfl⟩ := dmaAlloc_eq_some granted
    rw [if_pos asked]
  · rename_i none
    cases granted
    rw [if_neg none]
    exact congrArg IpaMemBuffer.size start.nhashBdy

section Parts

variable {parts : IpaRuleType → List TblPart} {refs : List TblRef}
  {inSys : TblRef → IpaRuleType → Bool}

structure Covers (parts : IpaRuleType → List TblPart) (refs : List TblRef)
    (inSys : TblRef → IpaRuleType → Bool) : Prop where
  part : ∀ rlt, ∀ part ∈ parts rlt, part.tbl ∈ refs ∧ part.inSys = inSys part.tbl rlt
  ref : ∀ rlt, ∀ ref ∈ refs, ∃ part ∈ parts rlt, part.tbl = ref

theorem Covers.partsClean (covers : Covers parts refs inSys)
    (room : imgs.nhashBdy.size = lclRoom params) (clean : Clean env imgs ready.tbls parts) :
    PartsClean env ready params inSys refs := by
  constructor
  · intro ref listed rlt here sys
    obtain ⟨part, mem, rfl⟩ := covers.ref rlt ref listed
    rw [← (covers.part rlt part mem).2] at sys
    exact clean.sys rlt part mem here sys
  · intro ref listed here
    obtain ⟨part, mem, rfl⟩ := covers.ref .hashable ref listed
    rw [← (covers.part _ part mem).2]
    exact clean.lclHash part mem here
  · intro ref listed here lcl
    obtain ⟨part, mem, rfl⟩ := covers.ref .nonHashable ref listed
    rw [← (covers.part _ part mem).2] at lcl
    rw [← room]
    exact clean.lclRoom part mem here lcl
  · intro ref listed other otherListed here otherPresent lcl otherLcl
    obtain ⟨part, mem, rfl⟩ := covers.ref .nonHashable ref listed
    obtain ⟨next, there, rfl⟩ := covers.ref .nonHashable other otherListed
    rw [← (covers.part _ part mem).2] at lcl
    rw [← (covers.part _ next there).2] at otherLcl
    exact congrArg TblPart.tbl (clean.lclOne part mem next there here otherPresent lcl otherLcl)

theorem Covers.clean (covers : Covers parts refs inSys)
    (once : ((parts .nonHashable).map TblPart.tbl).Nodup) (room : imgs.nhashBdy.size = lclRoom params)
    (clean : PartsClean env ready params inSys refs)
    (slots : ∀ rlt, ∀ part ∈ parts rlt, partBytes env ready.tbls rlt part ≠ [] →
      u32 (part.sysIdx * tblHdrWidth) + tblHdrWidth ≤ u32 (imgs.tblsNum * tblHdrWidth))
    (lclSlot : ∀ rlt, ∀ part ∈ parts rlt, partBytes env ready.tbls rlt part ≠ [] →
      part.inSys = false → u32 (part.lclIdx * tblHdrWidth) = u32 (part.sysIdx * tblHdrWidth)) :
    Clean env imgs ready.tbls parts := by
  refine ⟨slots, ?_, ?_, lclSlot, ?_, ?_⟩
  · intro rlt part mem here sys
    obtain ⟨listed, memory⟩ := covers.part rlt part mem
    rw [memory] at sys
    exact clean.sys part.tbl listed rlt here sys
  · intro part mem here
    obtain ⟨listed, memory⟩ := covers.part _ part mem
    rw [memory]
    exact clean.lclHash part.tbl listed here
  · intro part mem here lcl
    obtain ⟨listed, memory⟩ := covers.part _ part mem
    rw [memory] at lcl
    rw [room]
    exact clean.lclRoom part.tbl listed here lcl
  · intro part mem other there here otherPresent lcl otherLcl
    obtain ⟨listed, memory⟩ := covers.part _ part mem
    obtain ⟨otherListed, otherMemory⟩ := covers.part _ other there
    rw [memory] at lcl
    rw [otherMemory] at otherLcl
    exact inj_on_of_nodup_map once mem there
      (clean.lclOne part.tbl listed other.tbl otherListed here otherPresent lcl otherLcl)

end Parts

theorem rtParts_covers : Covers (rtParts cfg ready.tbls ready.headRtTblList)
    (ready.headRtTblList.map .rt) (fun ref => (ready.tbls ref).inSys) := by
  constructor
  · intro rlt part mem
    obtain ⟨tbl, listed, rfl⟩ := mem_map.mp mem
    exact ⟨mem_map_of_mem listed, rfl⟩
  · intro rlt ref mem
    obtain ⟨tbl, listed, rfl⟩ := mem_map.mp mem
    exact ⟨_, mem_map_of_mem listed, rfl⟩

section

variable {idx : Nat} (small : idx < rtIndexBitmapSize)
include small

theorem rt_slot_inside (bounded : Bounded cfg) :
    u32 (u32 (idx + 4294967296 - cfg.appsRtIndexLo) * tblHdrWidth) + tblHdrWidth ≤
        u32 ((cfg.appsRtIndexHi - cfg.appsRtIndexLo + 1) * tblHdrWidth) ↔
      cfg.appsRtIndexLo ≤ idx ∧ idx ≤ cfg.appsRtIndexHi := by
  have range := bounded.rtRange
  have high := bounded.rtSmall
  unfold rtIndexBitmapSize at small high
  unfold u32 tblHdrWidth
  omega

theorem rt_slot_inj (otherSmall : other < rtIndexBitmapSize) (bounded : Bounded cfg)
    (same : u32 (u32 (idx + 4294967296 - cfg.appsRtIndexLo) * tblHdrWidth) =
      u32 (u32 (other + 4294967296 - cfg.appsRtIndexLo) * tblHdrWidth)) : idx = other := by
  have range := bounded.rtRange
  have high := bounded.rtSmall
  unfold rtIndexBitmapSize at small otherSmall high
  unfold u32 tblHdrWidth at same
  omega

theorem rt_slot_lcl (bounded : Bounded cfg) :
    u32 (idx * tblHdrWidth) = u32 (u32 (idx + 4294967296 - cfg.appsRtIndexLo) * tblHdrWidth) ↔
      cfg.appsRtIndexLo = 0 := by
  have range := bounded.rtRange
  have high := bounded.rtSmall
  unfold rtIndexBitmapSize at small high
  unfold u32 tblHdrWidth
  omega

end

theorem rtSetup (indexed : ready.Indexed) (bounded : Bounded cfg)
    (measured : ∀ tbl ∈ ready.headRtTblList, Measured env (ready.tbls (.rt tbl)))
    (alloc : Allocated env (dmaSize ready.tbls imgs) imgs) (dma : DmaApart env (dmaSize ready.tbls imgs)) :
    Setup env imgs ready.tbls (rtParts cfg ready.tbls ready.headRtTblList) := by
  refine ⟨fun rlt part mem => ?_, fun rlt => ?_, fun rlt part mem other there apart => ?_, alloc, dma⟩
  · obtain ⟨tbl, listed, rfl⟩ := mem_map.mp mem
    exact measured tbl listed
  · rw [map_tbl_rtParts]
    exact indexed.listed_nodup.map fun _ _ => TblRef.rt.inj
  · obtain ⟨tbl, listed, rfl⟩ := mem_map.mp mem
    obtain ⟨next, nextListed, rfl⟩ := mem_map.mp there
    intro same
    apply apart
    have equal := rt_slot_inj (indexed.small tbl listed) (indexed.small next nextListed) bounded same
    exact congrArg TblRef.rt (inj_on_of_nodup_map indexed.once listed nextListed equal)

theorem rt_faithful_iff (indexed : s.Indexed) (bounded : Bounded cfg)
    (done : RtTranslated cfg env s ready params imgs t) (dma : DmaApart env (dmaSize ready.tbls imgs)) :
    RtFaithful cfg env ready imgs t ↔ RtClean cfg env ready params := by
  obtain ⟨prep, memory, allocation, ran⟩ := done
  obtain ⟨listed, start, measured⟩ := prepRt_eq prep indexed.listed_nodup
  have same : SameIndices s (s.prepRt cfg env).1 := prepRt_indices
  rw [prep] at same
  have indexed := same.indexed indexed
  obtain ⟨num, alloc⟩ :=
    allocateHwTblImgs_allocated ready.tbls start.hashHdr start.hashBdy start.nhashBdy allocation
  have room := allocateHwTblImgs_lclRoom start allocation
  have setup := rtSetup indexed bounded measured alloc dma
  rw [start.tblsNum] at num
  refine (faithful_iff_clean (t := ready.translation memory) setup rfl ran).trans ⟨fun clean => ?_, fun clean => ?_⟩
  · refine ⟨rtParts_covers.partsClean room clean, fun tbl listed rlt here => ?_, fun tbl listed rlt here lcl => ?_⟩
    · have inside := clean.slots rlt _ (mem_map_of_mem listed) here
      rw [num] at inside
      exact (rt_slot_inside (indexed.small tbl listed) bounded).mp inside
    · exact (rt_slot_lcl (indexed.small tbl listed) bounded).mp (clean.lclSlot rlt _ (mem_map_of_mem listed) here lcl)
  · refine rtParts_covers.clean (setup.once _) room clean.parts (fun rlt part mem here => ?_)
      fun rlt part mem here lcl => ?_
    · obtain ⟨tbl, listed, rfl⟩ := mem_map.mp mem
      rw [num]
      exact (rt_slot_inside (indexed.small tbl listed) bounded).mpr (clean.index tbl listed rlt here)
    · obtain ⟨tbl, listed, rfl⟩ := mem_map.mp mem
      exact (rt_slot_lcl (indexed.small tbl listed) bounded).mpr (clean.lclIndex tbl listed rlt here lcl)

theorem mem_fltParts (mem : part ∈ fltParts ready.tbls cfg.fltPipes rlt) :
    ∃ pipe ∈ cfg.fltPipes, ∃ hdrIdx, cfg.fltPipes[hdrIdx]? = some pipe ∧
      part = ⟨.flt pipe, ready.goesToSys (.flt pipe) rlt, hdrIdx, hdrIdx⟩ := by
  obtain ⟨⟨pipe, hdrIdx⟩, indexed, rfl⟩ := mem_map.mp mem
  exact ⟨pipe, fst_mem_of_mem_zipIdx indexed, hdrIdx, mem_zipIdx_iff_getElem?.mp indexed, rfl⟩

theorem fltParts_covers : Covers (fltParts ready.tbls cfg.fltPipes) (cfg.fltPipes.map .flt) ready.goesToSys := by
  constructor
  · intro rlt part mem
    obtain ⟨pipe, listed, hdrIdx, _, rfl⟩ := mem_fltParts mem
    exact ⟨mem_map_of_mem listed, rfl⟩
  · intro rlt ref listed
    have same : (fltParts ready.tbls cfg.fltPipes rlt).map TblPart.tbl = cfg.fltPipes.map .flt :=
      map_tbl_fltParts
    rw [← same] at listed
    obtain ⟨part, mem, rfl⟩ := mem_map.mp listed
    exact ⟨part, mem, rfl⟩

section

variable (bounded : Bounded cfg)
include bounded

theorem fltPipes_length : cfg.fltPipes.length ≤ 64 := by
  have once : cfg.fltPipes.Nodup := cfg.fltPipes_ordered.imp ne_of_lt
  have lt : cfg.fltPipes ⊆ List.range 64 := fun pipe mem =>
    mem_range.mpr (bounded.fltPipes pipe mem)
  have short := (subperm_of_subset once lt).length_le
  rwa [length_range] at short

theorem flt_slot (inside : hdrIdx < cfg.fltPipes.length) : u32 (hdrIdx * tblHdrWidth) = hdrIdx * tblHdrWidth := by
  have short := fltPipes_length bounded
  unfold u32 tblHdrWidth
  omega

theorem fltSetup (measured : ∀ pipe ∈ cfg.fltPipes, Measured env (ready.tbls (.flt pipe)))
    (alloc : Allocated env (dmaSize ready.tbls imgs) imgs) (dma : DmaApart env (dmaSize ready.tbls imgs)) :
    Setup env imgs ready.tbls (fltParts ready.tbls cfg.fltPipes) := by
  refine ⟨fun rlt part mem => ?_, fun rlt => ?_, fun rlt part mem other there apart => ?_, alloc, dma⟩
  · obtain ⟨pipe, listed, hdrIdx, _, rfl⟩ := mem_fltParts mem
    exact measured pipe listed
  · rw [map_tbl_fltParts (s := ready)]
    have once : cfg.fltPipes.Nodup := cfg.fltPipes_ordered.imp ne_of_lt
    exact once.map fun _ _ => TblRef.flt.inj
  · obtain ⟨pipe, listed, hdrIdx, found, rfl⟩ := mem_fltParts mem
    obtain ⟨next, nextListed, nextIdx, nextFound, rfl⟩ := mem_fltParts there
    intro same
    obtain ⟨inside, _⟩ := List.getElem?_eq_some_iff.mp found
    obtain ⟨nextInside, _⟩ := List.getElem?_eq_some_iff.mp nextFound
    rw [flt_slot bounded inside, flt_slot bounded nextInside] at same
    have equal : hdrIdx = nextIdx := Nat.eq_of_mul_eq_mul_right (by decide) same
    rw [equal, nextFound] at found
    cases found
    exact apart rfl

theorem flt_faithful_iff (done : FltTranslated cfg env s ready params imgs t)
    (dma : DmaApart env (dmaSize ready.tbls imgs)) :
    FltFaithful cfg env ready imgs t ↔ FltClean cfg env ready params := by
  obtain ⟨prep, memory, allocation, ran⟩ := done
  obtain ⟨start, measured⟩ := prepFlt_eq prep
  obtain ⟨num, alloc⟩ :=
    allocateHwTblImgs_allocated ready.tbls start.hashHdr start.hashBdy start.nhashBdy allocation
  have room := allocateHwTblImgs_lclRoom start allocation
  have setup := fltSetup bounded measured alloc dma
  rw [start.tblsNum] at num
  refine (faithful_iff_clean (t := ready.translation memory) setup rfl ran).trans
    ⟨fltParts_covers.partsClean room, fun clean => ?_⟩
  refine fltParts_covers.clean (setup.once _) room clean (fun rlt part mem _ => ?_) fun rlt part mem _ _ => ?_
  · obtain ⟨pipe, _, hdrIdx, found, rfl⟩ := mem_fltParts mem
    obtain ⟨inside, _⟩ := List.getElem?_eq_some_iff.mp found
    have short := fltPipes_length bounded
    unfold u32 tblHdrWidth
    dsimp only
    omega
  · obtain ⟨pipe, _, hdrIdx, _, rfl⟩ := mem_fltParts mem
    rfl

end

/-- In every state that is reached, the images of a commit are faithful exactly when the parts with
rules are clean. -/
theorem images_faithful {allowed : TblSystem Rule → TblAction Rule → Prop}
    (reached : Reachable (step cfg) allowed (init cfg) s) (bounded : Bounded cfg) :
    (∀ ready params imgs t, RtTranslated cfg env s ready params imgs t → DmaApart env (dmaSize ready.tbls imgs) →
        (RtFaithful cfg env ready imgs t ↔ RtClean cfg env ready params)) ∧
    ∀ ready params imgs t, FltTranslated cfg env s ready params imgs t → DmaApart env (dmaSize ready.tbls imgs) →
        (FltFaithful cfg env ready imgs t ↔ FltClean cfg env ready params) :=
  ⟨fun _ _ _ _ done dma => rt_faithful_iff (indexed_of_reachable reached) bounded done dma,
    fun _ _ _ _ done dma => flt_faithful_iff bounded done dma⟩

def smallPage : DmaUse → Option Nat
  | .hdr .hashable => some 1
  | .hdr .nonHashable => some 2
  | .bdy .hashable => none
  | .bdy .nonHashable => some 3
  | .sysTbl ref rlt => if ref = .rt 0 ∧ rlt = .nonHashable then some 4 else none

def smallAnswer (use : DmaUse) : Option (Nat × Nat) :=
  (smallPage use).map fun page => (65536 * page, 65536 * page)

def smallEnv : CommitEnv Unit where
  memory := fun _ => 0
  encode := fun _ _ => some (List.replicate 8 1)
  scratch := fun _ => true
  dmaSysTbl := fun ref rlt => smallAnswer (.sysTbl ref rlt)
  dmaHashHdr := smallAnswer (.hdr .hashable)
  dmaNhashHdr := smallAnswer (.hdr .nonHashable)
  dmaHashBdy := smallAnswer (.bdy .hashable)
  dmaNhashBdy := smallAnswer (.bdy .nonHashable)
  stack := fun _ => .none
  commandsSent := true

theorem smallEnv_answer (use : DmaUse) : smallEnv.answer use = smallAnswer use := by
  unfold CommitEnv.answer
  split <;> rfl

theorem smallPage_inj (placed : smallPage use = some page) (otherPlaced : smallPage other = some page) :
    use = other := by
  unfold smallPage at placed otherPlaced
  grind

theorem smallEnv_apart (small : ∀ use, size use ≤ 65536 ∨ smallPage use = none) : DmaApart smallEnv size := by
  have placed {use : DmaUse} {base physBase : Nat} (answer : smallEnv.answer use = some (base, physBase)) :
      ∃ page, smallPage use = some page ∧ base = 65536 * page := by
    rw [smallEnv_answer] at answer
    obtain ⟨page, placed, same⟩ := map_eq_some_iff.mp answer
    exact ⟨page, placed, (Prod.mk.inj same).1.symm⟩
  constructor
  · intro use base physBase answer
    obtain ⟨page, found, rfl⟩ := placed answer
    have pos : 0 < page := by
      unfold smallPage at found
      grind
    omega
  · intro use other base physBase addr phys different answer granted
    obtain ⟨page, found, rfl⟩ := placed answer
    obtain ⟨next, nextFound, rfl⟩ := placed granted
    have apart : page ≠ next := fun same => different (smallPage_inj found (same ▸ nextFound))
    have fits := small use
    have nextFits := small other
    rw [found] at fits
    rw [nextFound] at nextFits
    simp only [reduceCtorEq, or_false] at fits nextFits
    omega

theorem smallEnv_dmaApart {tbls : TblRef → IpaTbl Unit} (num : imgs.tblsNum ≤ 64)
    (body : imgs.nhashBdy.size ≤ 65536) (sys : (tbls (.rt 0)).sz .nonHashable ≤ 64) :
    DmaApart smallEnv (dmaSize tbls imgs) := by
  apply smallEnv_apart
  intro use
  cases use with
  | hdr rlt =>
    left
    show u32 (imgs.tblsNum * tblHdrWidth) ≤ 65536
    unfold u32 tblHdrWidth
    omega
  | bdy rlt =>
    cases rlt with
    | hashable => exact .inr rfl
    | nonHashable => exact .inl body
  | sysTbl ref rlt =>
    by_cases here : ref = .rt 0 ∧ rlt = .nonHashable
    · obtain ⟨rfl, rfl⟩ := here
      left
      show u32 (u32 ((tbls (.rt 0)).sz .nonHashable + prefetchBufSize - tblHdrWidth) + tblWidth) ≤ _
      unfold u32 prefetchBufSize tblWidth
      omega
    · exact .inr (if_neg here)

def tblResult (cfg : TblConfig) (env : CommitEnv Rule)
    (image : TblSystem Rule → AllocImgsParams → ByteMemory → Option (Translation Rule × Bool)) :
    TblSystem Rule × Option AllocImgsParams →
      Option (TblSystem Rule × AllocImgsParams × AllocImgsParams × Translation Rule)
  | (_, none) => none
  | (ready, some params) => do
      let (imgs, memory) ← allocateHwTblImgs cfg env params
      match image ready imgs memory with
      | some (t, true) => some (ready, params, imgs, t)
      | _ => none

theorem tblResult_translated (found : tblResult cfg env image prep = some (ready, params, imgs, t)) :
    prep = (ready, some params) ∧
      ∃ memory, allocateHwTblImgs cfg env params = some (imgs, memory) ∧ image ready imgs memory = some (t, true) := by
  unfold tblResult at found
  split at found
  · cases found
  · obtain ⟨⟨granted, memory⟩, alloc, rest⟩ := bind_eq_some_iff.mp found
    dsimp only at rest
    split at rest
    · rename_i ran
      cases rest
      exact ⟨rfl, memory, alloc, ran⟩
    · cases rest

theorem sysRtConfig_bounded : Bounded sysRtConfig := ⟨by decide, by decide, nofun⟩

theorem images_faithful_one : ∃ ready imgs t, RtFaithful sysRtConfig smallEnv ready imgs t ∧
    (ready.partRules smallEnv (.rt 0) .nonHashable).length = 8 := by
  have result : ((oneRuleState []).bind fun state => (tblResult sysRtConfig smallEnv
      (rtImage sysRtConfig smallEnv) (state.prepRt sysRtConfig smallEnv)).map
      fun found => (found.1.headRtTblList,
        [found.2.2.1.tblsNum, found.2.2.1.nhashBdy.size, (found.1.tbls (.rt 0)).idx],
        IpaRuleType.all.map fun rlt => ((found.1.tbls (.rt 0)).inSys rlt, (found.1.tbls (.rt 0)).sz rlt,
          (found.1.partRules smallEnv (.rt 0) rlt).length))) =
      some ([0], [7, 0, 8], [(true, 0, 0), (true, 16, 8)]) := by
    decide +kernel
  obtain ⟨start, started, facts⟩ := bind_eq_some_iff.mp result
  obtain ⟨⟨ready, params, imgs, t⟩, found, facts⟩ := map_eq_some_iff.mp facts
  simp only [IpaRuleType.all, map_cons, map_nil, Prod.mk.injEq, List.cons.injEq, and_true] at facts
  obtain ⟨listed, ⟨number, body, idx⟩, ⟨hashSys, _, hashLength⟩, nhashSys, nhashSz, nhashLength⟩ := facts
  have apart : DmaApart smallEnv (dmaSize ready.tbls imgs) :=
    smallEnv_dmaApart (by rw [number]; decide) (by rw [body]; decide) (by rw [nhashSz]; decide)
  have noHash : ready.partRules smallEnv (.rt 0) .hashable = [] := length_eq_zero_iff.mp hashLength
  have only {ref : TblRef} (member : ref ∈ ready.headRtTblList.map TblRef.rt) : ref = .rt 0 := by
    rw [listed] at member
    exact mem_singleton.mp member
  have clean : RtClean sysRtConfig smallEnv ready params := by
    refine ⟨⟨?_, ?_, ?_, ?_⟩, ?_, ?_⟩
    · intro ref member rlt present _
      cases only member
      cases rlt with
      | hashable => exact absurd noHash present
      | nonHashable =>
        rw [nhashLength]
        decide
    · intro ref member _
      cases only member
      exact hashSys
    · intro ref member _ lcl
      cases only member
      cases lcl.symm.trans nhashSys
    · intro ref member other there _ _ _ _
      rw [only member, only there]
    · intro tbl member _ _
      cases only (mem_map_of_mem member)
      rw [idx]
      decide
    · intro tbl member rlt present lcl
      cases only (mem_map_of_mem member)
      cases rlt with
      | hashable => exact absurd noHash present
      | nonHashable => cases lcl.symm.trans nhashSys
  obtain ⟨prep, allocated⟩ := tblResult_translated found
  exact ⟨ready, imgs, t, ((images_faithful (oneRule_start started) sysRtConfig_bounded).1 ready params
    imgs t ⟨prep, allocated⟩ apart).mpr clean, nhashLength⟩

def lclFltConfig : TblConfig :=
  { sysRtConfig with
    fltPipes := [0, 1]
    fltPipes_ordered := by decide
    fltInSys := fun _ rlt => rlt = .hashable
    fltTblNhashLclList := [0, 1]
    appsFltNhashSize := 1024 }

theorem lclFltConfig_bounded : Bounded lclFltConfig := ⟨by decide, by decide, by decide⟩

def twoRules : List (TblAction Unit) :=
  [.setRules (.flt 0) [⟨1, (), false, false, 0, 0⟩], .setRules (.flt 1) [⟨2, (), false, false, 0, 0⟩]]

def twoRulesState : Option (TblSystem Unit) :=
  twoRules.foldlM (step lclFltConfig) (init lclFltConfig)

/-- The rule of the second pipe is written over the terminator behind that of the first. -/
theorem terminator_lost : ∃ state ready params imgs t,
    Reachable (TblSystem.step lclFltConfig) (fun _ _ => True)
      (TblSystem.init lclFltConfig) state ∧
    FltTranslated lclFltConfig smallEnv state ready params imgs t ∧
    DmaApart smallEnv (dmaSize ready.tbls imgs) ∧ ¬FltFaithful lclFltConfig smallEnv ready imgs t := by
  have result : (twoRulesState.bind fun state => (tblResult lclFltConfig smallEnv
      (fltImage lclFltConfig smallEnv) (state.prepFlt lclFltConfig smallEnv)).map
      fun found => ([found.2.2.1.tblsNum, found.2.2.1.nhashBdy.size,
        (found.1.tbls (.rt 0)).sz .nonHashable], [0, 1].map fun pipe => (found.1.goesToSys (.flt pipe) .nonHashable,
          (found.1.partRules smallEnv (.flt pipe) .nonHashable).length))) =
      some ([2, 128, 0], [(false, 8), (false, 8)]) := by
    decide +kernel
  obtain ⟨start, started, facts⟩ := Option.bind_eq_some_iff.mp result
  obtain ⟨⟨ready, params, imgs, t⟩, found, facts⟩ := Option.map_eq_some_iff.mp facts
  simp only [List.map_cons, List.map_nil, Prod.mk.injEq, List.cons.injEq, and_true] at facts
  obtain ⟨⟨number, body, sys⟩, ⟨lcl, length⟩, otherLcl, otherLength⟩ := facts
  have apart : DmaApart smallEnv (dmaSize ready.tbls imgs) :=
    smallEnv_dmaApart (by rw [number]; decide) (by rw [body]; decide) (by rw [sys]; decide)
  obtain ⟨prep, allocated⟩ := tblResult_translated found
  have done : FltTranslated lclFltConfig smallEnv start ready params imgs t := ⟨prep, allocated⟩
  refine ⟨start, ready, params, imgs, t, ?_, done, apart, fun faithful => ?_⟩
  · unfold twoRulesState twoRules at started
    simp only [List.foldlM_cons, List.foldlM_nil, Option.bind_eq_bind, Option.bind_eq_some_iff,
      Option.pure_def, Option.some.injEq] at started
    obtain ⟨first, one, second, two, rfl⟩ := started
    exact .next (.next .start trivial one) trivial two
  · have clean := (flt_faithful_iff lclFltConfig_bounded done apart).mp faithful
    have nonempty {bytes : List (BitVec 8)} (length : bytes.length = 8) : bytes ≠ [] :=
      List.length_pos_iff.mp (by rw [length]; decide)
    have same := clean.lclOne (.flt 0) (by decide) (.flt 1) (by decide) (nonempty length)
      (nonempty otherLength) lcl otherLcl
    cases same

end TblSystem

end KernelModules.IpaTables

import KernelModules.IpaTables.Image

namespace KernelModules.IpaTables

open Data Translation TblPart Spot

/-! # When images are faithful

In the local body a part begins where the rules of the one before end, over its terminator; so only one part can
stand there.
-/

variable {Rule : Type} {env : CommitEnv Rule} {imgs : AllocImgsParams} {hashOfst nhashOfst : Nat}
  {parts : IpaRuleType → List TblPart} {tbls : TblRef → IpaTbl Rule} {rlt : IpaRuleType}
  {t after : Translation Rule} {spot first : Spot Rule} {size : DmaUse → Nat}

@[simp] theorem imagePass_rlt : (imagePass env imgs hashOfst nhashOfst rlt).rlt = rlt := by
  cases rlt <;> rfl

@[simp] theorem imagePass_env : (imagePass env imgs hashOfst nhashOfst rlt).env = env := by
  cases rlt <;> rfl

structure Setup (env : CommitEnv Rule) (imgs : AllocImgsParams) (tbls : TblRef → IpaTbl Rule)
    (parts : IpaRuleType → List TblPart) : Prop where
  measured : ∀ rlt, ∀ part ∈ parts rlt, Measured env (tbls part.tbl)
  once : ∀ rlt, ((parts rlt).map tbl).Nodup
  slots : ∀ rlt, ∀ part ∈ parts rlt, ∀ other ∈ parts rlt, part.tbl ≠ other.tbl →
    u32 (part.sysIdx * tblHdrWidth) ≠ u32 (other.sysIdx * tblHdrWidth)
  allocated : Allocated env (dmaSize tbls imgs) imgs
  dma : DmaApart env (dmaSize tbls imgs)

def LclBodies (passes : IpaRuleType → TblPass Rule) (tbls : TblRef → IpaTbl Rule)
    (parts : IpaRuleType → List TblPart) : Prop :=
  ∀ rlt, ∀ part ∈ parts rlt, (tbls part.tbl).sz rlt ≠ 0 → part.inSys = false → (passes rlt).bdy.base ≠ 0

def spotsOf (passes : IpaRuleType → TblPass Rule) (tbls : TblRef → IpaTbl Rule)
    (parts : IpaRuleType → List TblPart) (rlt : IpaRuleType) : List (Spot Rule) :=
  layout (passes rlt) tbls (parts rlt) (passes rlt).bdy.base

def bothSpots (passes : IpaRuleType → TblPass Rule) (tbls : TblRef → IpaTbl Rule)
    (parts : IpaRuleType → List TblPart) : List (Spot Rule) :=
  spotsOf passes tbls parts .hashable ++ spotsOf passes tbls parts .nonHashable

theorem mem_bothSpots : spot ∈ bothSpots passes tbls parts ↔ ∃ rlt, spot ∈ spotsOf passes tbls parts rlt := by
  unfold bothSpots
  rw [List.mem_append]
  constructor
  · rintro (member | member)
    · exact ⟨_, member⟩
    · exact ⟨_, member⟩
  · rintro ⟨rlt, member⟩
    cases rlt with
    | hashable => exact .inl member
    | nonHashable => exact .inr member

theorem translateTblToHwFmt_drawn {pass : TblPass Rule} {parts : List TblPart}
    (drawable : ∀ part ∈ parts, Drawable pass t.tbls pass.bdy.base part) (once : (parts.map tbl).Nodup)
    (ran : t.translateTblToHwFmt pass parts = some (after, true)) :
    Drawn (layout pass t.tbls parts pass.bdy.base) t after ∧
      ∀ spot ∈ layout pass t.tbls parts pass.bdy.base, SysDrawn after spot := by
  obtain ⟨final, out, moved, cases⟩ := translateTblToHwFmt_cases ran
  rcases cases with ⟨rfl, rfl, _⟩ | ⟨_, _, fails⟩ | ⟨_, _, fails⟩
  · obtain ⟨drawn, blocks⟩ := translateParts_drawn (t := t.start pass) drawable once moved
    exact ⟨drawn.congr rfl rfl rfl rfl, blocks⟩
  · cases fails
  · cases fails

theorem Setup.drawable (setup : Setup env imgs tbls parts)
    (bodies : LclBodies (imagePass env imgs hashOfst nhashOfst) tbls parts) :
    ∀ part ∈ parts rlt, Drawable (imagePass env imgs hashOfst nhashOfst rlt) tbls
      (imagePass env imgs hashOfst nhashOfst rlt).bdy.base part := by
  intro part member
  constructor
  · exact (setup.measured rlt part member).typed
  · rw [imagePass_rlt, imagePass_env]
    exact setup.dma.present (.sysTbl part.tbl rlt)
  · rw [imagePass_rlt]
    exact bodies rlt part member

theorem translateBoth_sameRules
    (ran : translateBoth env imgs hashOfst nhashOfst parts t = some (after, fine)) (ref : TblRef) :
    SameRules (after.tbls ref) (t.tbls ref) := by
  unfold translateBoth at ran
  split at ran
  · rename_i middle hashed
    exact (translateTblToHwFmt_sameRules ran ref).trans (translateTblToHwFmt_sameRules hashed ref)
  · exact translateTblToHwFmt_sameRules ran ref

theorem translateBoth_drawn (setup : Setup env imgs t.tbls parts)
    (bodies : LclBodies (imagePass env imgs hashOfst nhashOfst) t.tbls parts)
    (ran : translateBoth env imgs hashOfst nhashOfst parts t = some (after, true)) :
    Drawn (bothSpots (imagePass env imgs hashOfst nhashOfst) t.tbls parts) t after ∧
      ∀ spot ∈ bothSpots (imagePass env imgs hashOfst nhashOfst) t.tbls parts, SysDrawn after spot := by
  unfold translateBoth at ran
  split at ran
  · rename_i middle hashed
    have same := translateTblToHwFmt_sameRules hashed
    have hashable : ∀ part ∈ parts .hashable, Drawable (hashPass env imgs hashOfst) t.tbls imgs.hashBdy.base part :=
      setup.drawable bodies
    obtain ⟨drawn, blocks⟩ := translateTblToHwFmt_drawn hashable (setup.once .hashable) hashed
    have drawable : ∀ part ∈ parts .nonHashable,
        Drawable (nhashPass env imgs nhashOfst) middle.tbls imgs.nhashBdy.base part :=
      fun part member => (setup.drawable bodies part member).congr same id
    obtain ⟨more, moreBlocks⟩ := translateTblToHwFmt_drawn drawable (setup.once .nonHashable) ran
    have sameLayout : layout (nhashPass env imgs nhashOfst) middle.tbls (parts .nonHashable)
        imgs.nhashBdy.base = spotsOf (imagePass env imgs hashOfst nhashOfst) t.tbls parts .nonHashable :=
      layout_congr same
    have bdy : (nhashPass env imgs nhashOfst).bdy.base = imgs.nhashBdy.base := rfl
    rw [bdy, sameLayout] at more moreBlocks
    refine ⟨drawn.append more, fun spot member => ?_⟩
    rcases List.mem_append.mp member with member | member
    · intro sys
      have kind : spot.pass.rlt = .hashable := by
        rcases (mem_layout member).2.2 with ⟨_, here⟩ | ⟨_, _, here⟩
        · rw [here]
          exact imagePass_rlt
        · rw [here]
          exact imagePass_rlt
      obtain ⟨currMem, granted⟩ := blocks spot member sys
      refine ⟨?_, granted⟩
      rw [← currMem]
      apply translateTblToHwFmt_currMem (fun _ _ here => ?_) ran
      rw [kind] at here
      cases here
    · exact moreBlocks spot member
  · rename_i failed
    exact (failed after ran).elim

def Spot.use (spot : Spot Rule) (rlt : IpaRuleType) : DmaUse :=
  if spot.part.inSys then .sysTbl spot.part.tbl rlt else .bdy rlt

structure Sound (env : CommitEnv Rule) (size : DmaUse → Nat) (passes : IpaRuleType → TblPass Rule)
    (tbls : TblRef → IpaTbl Rule) (parts : IpaRuleType → List TblPart) (rlt : IpaRuleType)
    (spot : Spot Rule) : Prop where
  pass : spot.pass = passes rlt
  member : spot.part ∈ parts rlt
  sized : (tbls spot.part.tbl).sz rlt ≠ 0
  bytes : spot.bytes = partBytes env tbls rlt spot.part
  hdr : IsGrant env size (.hdr rlt) spot.pass.hdr
  block : IsGrant env size (spot.use rlt) spot.block
  sys : spot.part.inSys = true → spot.idx = spot.part.sysIdx ∧ spot.start = spot.block.base ∧
    spot.addr = spot.block.physBase
  lcl : spot.part.inSys = false → rlt = .nonHashable ∧ spot.idx = spot.part.lclIdx ∧
    spot.block = (passes rlt).bdy ∧ spot.addr = spot.start - (passes rlt).bdy.base + (passes rlt).bodyOfst

section

variable (setup : Setup env imgs tbls parts)
include setup

theorem Setup.hdr (present : (imagePass env imgs hashOfst nhashOfst rlt).hdr.base ≠ 0) :
    IsGrant env (dmaSize tbls imgs) (.hdr rlt) (imagePass env imgs hashOfst nhashOfst rlt).hdr := by
  cases rlt with
  | hashable =>
    rcases setup.allocated.hashHdr with none | granted
    · exact absurd (congrArg IpaMemBuffer.base none) present
    · exact granted
  | nonHashable => exact setup.allocated.nhashHdr

theorem Setup.bdy (present : (imagePass env imgs hashOfst nhashOfst rlt).bdy.base ≠ 0) : rlt = .nonHashable ∧
      IsGrant env (dmaSize tbls imgs) (.bdy rlt) (imagePass env imgs hashOfst nhashOfst rlt).bdy := by
  cases rlt with
  | hashable => exact absurd (congrArg IpaMemBuffer.base setup.allocated.hashBdy) present
  | nonHashable =>
    rcases setup.allocated.nhashBdy with none | granted
    · exact absurd (congrArg IpaMemBuffer.base none) present
    · exact ⟨rfl, granted⟩

theorem Setup.sound (bodies : LclBodies (imagePass env imgs hashOfst nhashOfst) tbls parts)
    (member : spot ∈ spotsOf (imagePass env imgs hashOfst nhashOfst) tbls parts rlt)
    (hdr : spot.pass.hdr.base ≠ 0) (drawn : SysDrawn after spot) :
    Sound env (dmaSize tbls imgs) (imagePass env imgs hashOfst nhashOfst) tbls parts rlt spot := by
  obtain ⟨isPart, sized, kinds⟩ := mem_layout member
  rw [imagePass_rlt] at sized
  rcases kinds with ⟨sys, here⟩ | ⟨lcl, bodyI, here⟩
  · have pass : spot.pass = imagePass env imgs hashOfst nhashOfst rlt := by
      rw [here]
      rfl
    obtain ⟨_, base, physBase, answer⟩ := drawn sys
    rw [pass, imagePass_rlt, imagePass_env] at answer
    have fields : spot = ⟨imagePass env imgs hashOfst nhashOfst rlt, spot.part, spot.part.sysIdx,
        physBase, base, ⟨base, physBase, dmaSize tbls imgs (.sysTbl spot.part.tbl rlt)⟩,
        partBytes env tbls rlt spot.part⟩ := by
      rw [here]
      unfold sysSpot sysBlock
      rw [imagePass_rlt, imagePass_env, answer]
      rfl
    refine ⟨pass, isPart, sized, by rw [fields], ?_, ?_, fun _ => ?_, fun lcl => ?_⟩
    · rw [pass] at hdr ⊢
      exact setup.hdr hdr
    · unfold use
      rw [if_pos sys]
      exact ⟨base, physBase, answer, by rw [fields]⟩
    · rw [fields]
      exact ⟨rfl, rfl, rfl⟩
    · cases lcl.symm.trans sys
  · have fields : spot = ⟨imagePass env imgs hashOfst nhashOfst rlt, spot.part, spot.part.lclIdx,
        bodyI - (imagePass env imgs hashOfst nhashOfst rlt).bdy.base +
          (imagePass env imgs hashOfst nhashOfst rlt).bodyOfst, bodyI,
        (imagePass env imgs hashOfst nhashOfst rlt).bdy, partBytes env tbls rlt spot.part⟩ := by
      rw [here]
      unfold lclSpot partBytes
      rw [imagePass_rlt, imagePass_env]
    obtain ⟨kind, granted⟩ := setup.bdy (bodies rlt _ isPart sized lcl)
    have pass : spot.pass = imagePass env imgs hashOfst nhashOfst rlt := by rw [fields]
    refine ⟨pass, isPart, sized, by rw [fields], ?_, ?_, fun sys => ?_, fun _ => ?_⟩
    · rw [pass] at hdr ⊢
      exact setup.hdr hdr
    · unfold use
      rw [if_neg (by rw [lcl]; decide), fields]
      exact granted
    · cases lcl.symm.trans sys
    · rw [fields]
      exact ⟨kind, rfl, rfl, rfl⟩

end

theorem Setup.sounds (setup : Setup env imgs t.tbls parts)
    (bodies : LclBodies (imagePass env imgs hashOfst nhashOfst) t.tbls parts)
    (drawn : Drawn (bothSpots (imagePass env imgs hashOfst nhashOfst) t.tbls parts) t after)
    (blocks : ∀ spot ∈ bothSpots (imagePass env imgs hashOfst nhashOfst) t.tbls parts,
      SysDrawn after spot) (rlt : IpaRuleType) :
    ∀ spot ∈ spotsOf (imagePass env imgs hashOfst nhashOfst) t.tbls parts rlt,
      Sound env (dmaSize t.tbls imgs) (imagePass env imgs hashOfst nhashOfst) t.tbls parts rlt spot := by
  intro spot member
  have mem := mem_bothSpots.mpr ⟨rlt, member⟩
  exact setup.sound bodies member (drawn.hdr_present spot mem) (blocks spot mem)

def IpaMemBuffer.Holds (mem : IpaMemBuffer) (start length : Nat) : Prop :=
  mem.base ≤ start ∧ start + length ≤ mem.base + mem.size

structure Spot.Fits (spot : Spot Rule) : Prop where
  slot : spot.pass.hdr.Holds spot.slot tblHdrWidth
  image : spot.block.Holds spot.start spot.length

def IpaMemBuffer.Has (mem : IpaMemBuffer) (place : Nat) : Prop := Within place mem.base mem.size

theorem IpaMemBuffer.Holds.has {mem : IpaMemBuffer} {start len : Nat} (holds : mem.Holds start len)
    (inside : Within place start len) : mem.Has place := by
  unfold Holds at holds
  unfold Has
  unfold Within at inside ⊢
  omega

theorem IsGrant.use_of_has {use : DmaUse} (grant : IsGrant env size use mem)
    (another : IsGrant env size other mem') (dma : DmaApart env size) (has : mem.Has place)
    (alsoHas : mem'.Has place) : use = other := by
  by_contra different
  have apart := grant.apart another dma different
  unfold IpaMemBuffer.Has Within at has alsoHas
  omega

theorem hdr_ne_use : DmaUse.hdr rlt ≠ spot.use rlt' := by
  unfold use
  split <;> nofun

theorem Spot.use_rlt {later : Spot Rule} (same : first.use rlt = later.use rlt') : rlt = rlt' := by
  unfold use at same
  split at same
  · split at same
    · exact (DmaUse.sysTbl.inj same).2
    · cases same
  · split at same
    · cases same
    · exact DmaUse.bdy.inj same

theorem Sound.selfClear (sound : Sound env size passes tbls parts rlt spot) (fits : spot.Fits)
    (dma : DmaApart env size) : spot.SelfClear := by
  intro place slot image
  exact hdr_ne_use (sound.hdr.use_of_has sound.block dma (fits.slot.has slot) (fits.image.has image))

theorem u32_mul_width (idx : Nat) : u32 (idx * tblHdrWidth) % tblHdrWidth = 0 := by
  unfold u32 tblHdrWidth
  omega

theorem Sound.clear (sound : Sound env size passes tbls parts rlt first) (fits : first.Fits)
    (soundLater : Sound env size passes tbls parts rlt' later) (fitsLater : later.Fits) (dma : DmaApart env size)
    (slots : rlt = rlt' → u32 (first.idx * tblHdrWidth) ≠ u32 (later.idx * tblHdrWidth))
    (uses : first.use rlt ≠ later.use rlt') : first.Clear later := by
  intro place shows touches
  have hasBlock (inside : later.part.inSys = true ∧ Within place later.block.base later.block.size ∨
      Within place later.start later.length) : later.block.Has place :=
    inside.elim (fun sys => sys.2) fitsLater.image.has
  rcases shows with slot | image
  · rcases touches with (otherSlot | image) | block
    · have same := sound.hdr.use_of_has soundLater.hdr dma (fits.slot.has slot) (fitsLater.slot.has otherSlot)
      cases same
      have apart := slots rfl
      have pass : later.pass = first.pass := soundLater.pass.trans sound.pass.symm
      have aligned := u32_mul_width first.idx
      have otherAligned := u32_mul_width later.idx
      unfold Within Spot.slot slotAddr at slot otherSlot
      rw [pass] at otherSlot
      unfold tblHdrWidth at *
      omega
    · exact hdr_ne_use (sound.hdr.use_of_has soundLater.block dma (fits.slot.has slot) (hasBlock (.inr image)))
    · exact hdr_ne_use (sound.hdr.use_of_has soundLater.block dma (fits.slot.has slot) (hasBlock (.inl block)))
  · rcases touches with (otherSlot | otherImage) | block
    · exact hdr_ne_use (soundLater.hdr.use_of_has sound.block dma (fitsLater.slot.has otherSlot) (fits.image.has image))
    · exact uses (sound.block.use_of_has soundLater.block dma (fits.image.has image) (hasBlock (.inr otherImage)))
    · exact uses (sound.block.use_of_has soundLater.block dma (fits.image.has image) (hasBlock (.inl block)))

section Clean

variable {passes : IpaRuleType → TblPass Rule}

theorem partSz_ne_zero {len : Nat} (present : 0 < len) (small : len + tblWidth < 4294967296) :
    partSz len = len + tblWidth := by
  unfold partSz u32 tblHdrWidth
  unfold tblWidth at *
  rw [if_neg (by omega)]
  omega

theorem sysTbl_size {len : Nat} (sized : partSz len ≠ 0) :
    u32 (u32 (partSz len + prefetchBufSize - tblHdrWidth) + tblWidth) = u32 (len + prefetchBufSize + tblWidth) := by
  unfold partSz at *
  split at sized
  · exact absurd rfl sized
  · rename_i present
    rw [if_neg present]
    unfold u32 prefetchBufSize tblHdrWidth at *
    omega

section

variable {part : TblPart} (setup : Setup env imgs tbls parts) (member : part ∈ parts rlt)
include setup member

theorem Setup.sized_iff : (tbls part.tbl).sz rlt = partSz (partBytes env tbls rlt part).length :=
  setup.measured rlt part member rlt

theorem Setup.nonempty (sized : (tbls part.tbl).sz rlt ≠ 0) : partBytes env tbls rlt part ≠ [] := by
  rw [setup.sized_iff member] at sized
  intro empty
  rw [empty] at sized
  exact sized rfl

end

section

variable {part : TblPart} (clean : Clean env imgs tbls parts) (setup : Setup env imgs tbls parts)
  (member : part ∈ parts rlt) (present : partBytes env tbls rlt part ≠ [])
include clean setup member present

theorem Clean.small : (partBytes env tbls rlt part).length + tblWidth < 4294967296 := by
  cases mem : part.inSys with
  | true =>
    have room := clean.sys rlt part member present mem
    omega
  | false =>
    cases rlt with
    | hashable => cases mem.symm.trans (clean.lclHash part member present)
    | nonHashable =>
      exact lt_of_le_of_lt (clean.lclRoom part member present mem) setup.allocated.small

theorem Clean.sized : (tbls part.tbl).sz rlt ≠ 0 := by
  have long : 0 < (partBytes env tbls rlt part).length := List.length_pos_iff.mpr present
  rw [setup.sized_iff member, partSz_ne_zero long (clean.small setup member present)]
  exact Nat.succ_ne_zero _

end

theorem Clean.bodies (clean : Clean env imgs tbls parts) (setup : Setup env imgs tbls parts) :
    LclBodies (imagePass env imgs hashOfst nhashOfst) tbls parts := by
  intro rlt part member sized lcl
  have present := setup.nonempty member sized
  cases rlt with
  | hashable => cases lcl.symm.trans (clean.lclHash part member present)
  | nonHashable =>
    rcases setup.allocated.nhashBdy with none | granted
    · have room := clean.lclRoom part member present lcl
      rw [none] at room
      exact absurd room (Nat.not_succ_le_zero _)
    · exact granted.present setup.dma

theorem spot_unique (setup : Setup env imgs tbls parts)
    (member : first ∈ spotsOf passes tbls parts rlt) (there : later ∈ spotsOf passes tbls parts rlt)
    (same : first.part.tbl = later.part.tbl) : first = later :=
  List.inj_on_of_nodup_map (layout_tbls_sublist.nodup (setup.once rlt)) member there same

theorem Sound.nonempty (sound : Sound env size passes tbls parts rlt spot)
    (setup : Setup env imgs tbls parts) : partBytes env tbls rlt spot.part ≠ [] :=
  setup.nonempty sound.member sound.sized

theorem Clean.lcl_start (clean : Clean env imgs tbls parts) (setup : Setup env imgs tbls parts)
    (sounds : ∀ spot ∈ spotsOf passes tbls parts rlt, Sound env (dmaSize tbls imgs) passes tbls parts rlt spot)
    (member : spot ∈ spotsOf passes tbls parts rlt) (lcl : spot.part.inSys = false) :
    spot.start = (passes rlt).bdy.base := by
  obtain ⟨first, there, firstLcl, begins⟩ := first_lcl member lcl
  have sound := sounds spot member
  have soundFirst := sounds first there
  obtain ⟨rfl, _⟩ := sound.lcl lcl
  have same : first.part = spot.part :=
    clean.lclOne first.part soundFirst.member spot.part sound.member (soundFirst.nonempty setup)
      (sound.nonempty setup) firstLcl lcl
  rw [← begins, spot_unique setup member there (congrArg tbl same.symm)]

theorem Clean.slot_eq (clean : Clean env imgs tbls parts) (setup : Setup env imgs tbls parts)
    (sound : Sound env size passes tbls parts rlt spot) :
    u32 (spot.idx * tblHdrWidth) = u32 (spot.part.sysIdx * tblHdrWidth) := by
  cases mem : spot.part.inSys with
  | true => rw [(sound.sys mem).1]
  | false =>
    rw [(sound.lcl mem).2.1]
    exact clean.lclSlot rlt spot.part sound.member (sound.nonempty setup) mem

theorem Setup.sys_size (setup : Setup env imgs tbls parts)
    (sound : Sound env size passes tbls parts rlt spot) (sys : spot.part.inSys = true) :
    dmaSize tbls imgs (spot.use rlt) =
      u32 ((partBytes env tbls rlt spot.part).length + prefetchBufSize + tblWidth) := by
  unfold use
  rw [if_pos sys, ← sysTbl_size, ← setup.sized_iff sound.member]
  · rfl
  · rw [← setup.sized_iff sound.member]
    exact sound.sized

theorem Clean.fits (clean : Clean env imgs tbls parts) (setup : Setup env imgs tbls parts)
    (sounds : ∀ spot ∈ spotsOf passes tbls parts rlt, Sound env (dmaSize tbls imgs) passes tbls parts rlt spot)
    (member : spot ∈ spotsOf passes tbls parts rlt) : spot.Fits := by
  have sound := sounds spot member
  have present := sound.nonempty setup
  constructor
  · have inside := clean.slots rlt spot.part sound.member present
    unfold IpaMemBuffer.Holds slot slotAddr
    rw [sound.hdr.size_eq, clean.slot_eq setup sound]
    exact ⟨Nat.le_add_right _ _, by exact Nat.add_le_add_left inside _⟩
  · unfold IpaMemBuffer.Holds length
    rw [sound.bytes, sound.block.size_eq]
    cases mem : spot.part.inSys with
    | true =>
      have room := clean.sys rlt spot.part sound.member present mem
      rw [setup.sys_size sound mem, (sound.sys mem).2.1]
      unfold u32 at *
      omega
    | false =>
      obtain ⟨kind, _, block, _⟩ := sound.lcl mem
      have size : dmaSize tbls imgs (spot.use rlt) = imgs.nhashBdy.size := by
        unfold use
        rw [if_neg (by rw [mem]; decide), kind]
        rfl
      rw [block, clean.lcl_start setup sounds member mem]
      subst kind
      have room := clean.lclRoom spot.part sound.member present mem
      omega

section

variable (clean : Clean env imgs tbls parts) (setup : Setup env imgs tbls parts)
  (sounds : ∀ rlt, ∀ spot ∈ spotsOf passes tbls parts rlt, Sound env (dmaSize tbls imgs) passes tbls parts rlt spot)
include clean setup sounds

theorem Clean.clear (member : first ∈ spotsOf passes tbls parts rlt) (there : later ∈ spotsOf passes tbls parts rlt')
    (apart : rlt = rlt' → first.part.tbl ≠ later.part.tbl) : first.Clear later := by
  have sound := sounds rlt first member
  have soundLater := sounds rlt' later there
  refine sound.clear (clean.fits setup (sounds rlt) member) soundLater
    (clean.fits setup (sounds rlt') there) setup.dma (fun same => ?_) (fun same => ?_)
  · subst same
    rw [clean.slot_eq setup sound, clean.slot_eq setup soundLater]
    exact setup.slots rlt _ sound.member _ soundLater.member (apart rfl)
  · have type := use_rlt same
    subst type
    unfold use at same
    cases mem : first.part.inSys with
    | true =>
      rw [if_pos mem] at same
      split at same
      · exact apart rfl (DmaUse.sysTbl.inj same).1
      · cases same
    | false =>
      rw [if_neg (by rw [mem]; decide)] at same
      split at same
      · cases same
      · rename_i lcl
        obtain ⟨rfl, _⟩ := sound.lcl mem
        exact apart rfl (congrArg tbl (clean.lclOne _ sound.member _ soundLater.member
          (sound.nonempty setup) (soundLater.nonempty setup) mem
          (Bool.eq_false_of_not_eq_true lcl)))

theorem Clean.pairwise_clear : (bothSpots passes tbls parts).Pairwise Spot.Clear := by
  have lt (rlt : IpaRuleType) : (spotsOf passes tbls parts rlt).Pairwise Spot.Clear := by
    have once : ((spotsOf passes tbls parts rlt).map fun spot => spot.part.tbl).Nodup :=
      layout_tbls_sublist.nodup (setup.once rlt)
    unfold List.Nodup at once
    rw [List.pairwise_map] at once
    exact once.imp_of_mem fun member there apart =>
      clean.clear setup sounds member there fun _ => apart
  exact List.pairwise_append.mpr ⟨lt _, lt _, fun first member later there =>
    clean.clear setup sounds member there nofun⟩

end

end Clean

theorem Spot.Stores.owner_eq (stored : spot.Stores store) : store.owner = spot.part.tbl := by
  rcases stored with rfl | stored
  · rfl
  · exact stored.1

theorem Spot.Stores.inside (stored : spot.Stores store) (fits : spot.Fits) : store.Inside := by
  rcases stored with rfl | ⟨_, target, lower, upper, _⟩
  · exact fits.slot
  · have image := fits.image
    unfold IpaMemBuffer.Holds at image
    unfold TblStore.Inside
    rw [target]
    omega

theorem Spot.Clear.store {other : Spot Rule} (clear : other.Clear spot) {store : TblStore}
    (stored : other.Stores store) :
    store.address + store.length ≤ spot.start ∨ spot.start + spot.length ≤ store.address := by
  by_contra overlap
  have shows (place : Nat) (inside : Within place store.address store.length) : other.Shows place := by
    rcases stored with rfl | ⟨_, _, lower, upper, _⟩
    · exact .inl inside
    · unfold Within at inside
      exact .inr ⟨by omega, by omega⟩
  have long : 0 < store.length := by
    rcases stored with rfl | ⟨_, _, _, _, long⟩
    · exact Nat.succ_pos 7
    · exact lt_of_lt_of_le (Nat.succ_pos 7) long
  have image : 0 < spot.length := Nat.succ_pos _
  refine clear (max spot.start store.address) (shows _ ?_) (.inl (.inr ?_)) <;> unfold Within <;> omega

theorem SysDrawn.block_eq {pass : TblPass Rule} (drawn : SysDrawn after spot) (same : spot.pass = pass)
    (lcl : spot.part.inSys = false → spot.block = pass.bdy) : spot.part.block pass after = spot.block := by
  unfold TblPart.block
  cases mem : spot.part.inSys with
  | true => rw [if_pos rfl, ← same, (drawn mem).1]
  | false => rw [if_neg nofun, lcl mem]

theorem partBytes_congr (same : ∀ ref, SameRules (after.tbls ref) (tbls ref)) {part : TblPart} :
    partBytes env after.tbls rlt part = partBytes env tbls rlt part := by
  unfold partBytes
  rw [same part.tbl]

theorem Clean.faithful (clean : Clean env imgs t.tbls parts) (setup : Setup env imgs t.tbls parts)
    (fresh : t.stores = []) (ran : translateBoth env imgs hashOfst nhashOfst parts t = some (after, true)) :
    Faithful (imagePass env imgs hashOfst nhashOfst) parts after := by
  have bodies : LclBodies (imagePass env imgs hashOfst nhashOfst) t.tbls parts := clean.bodies setup
  have same := translateBoth_sameRules ran
  obtain ⟨drawn, blocks⟩ := translateBoth_drawn setup bodies ran
  have sounds := setup.sounds bodies drawn blocks
  have stored {store : TblStore} (member : store ∈ after.stores) :
      ∃ rlt, ∃ spot ∈ spotsOf (imagePass env imgs hashOfst nhashOfst) t.tbls parts rlt, spot.Stores store := by
    rcases drawn.mem_stores member with old | ⟨spot, there, stored⟩
    · rw [fresh] at old
      cases old
    · obtain ⟨rlt, there⟩ := mem_bothSpots.mp there
      exact ⟨rlt, spot, there, stored⟩
  constructor
  · intro rlt part member present
    rw [imagePass_rlt, imagePass_env, partBytes_congr same] at present
    have sized := clean.sized setup member present
    have found : ∃ spot ∈ spotsOf (imagePass env imgs hashOfst nhashOfst) t.tbls parts rlt,
        spot.part = part := exists_mem_layout _ member (by rwa [imagePass_rlt])
    obtain ⟨spot, there, rfl⟩ := found
    have mem := mem_bothSpots.mpr ⟨rlt, there⟩
    have sound := sounds rlt spot there
    have fits := clean.fits setup (sounds rlt) there
    have block := (blocks spot mem).block_eq sound.pass fun lcl => (sound.lcl lcl).2.2.1
    have bytes : partBytes env after.tbls rlt spot.part = spot.bytes := by
      rw [partBytes_congr same, sound.bytes]
    have slot : slotAddr (imagePass env imgs hashOfst nhashOfst rlt) spot.part.sysIdx = spot.slot := by
      unfold slot slotAddr
      rw [sound.pass, clean.slot_eq setup sound]
    have shown := drawn.shown (fun other member => ?_) (clean.pairwise_clear setup sounds) spot mem
    · refine ⟨spot.start, spot.addr, ?_, ?_, ?_, ?_, ?_, ?_, ?_⟩
      · rw [block]
        split
        · rename_i sys
          exact (sound.sys sys).2
        · rename_i lcl
          exact (sound.lcl (Bool.eq_false_of_not_eq_true lcl)).2.2.2
      · rw [imagePass_rlt, imagePass_env, bytes]
        exact shown.image
      · rw [slot, ← sound.pass]
        exact drawn.header_stored mem
      · rw [slot]
        exact shown.header
      · rw [block]
        exact drawn.start_stored mem
      · rw [block, imagePass_rlt, imagePass_env, bytes]
        exact fits.image
      · rw [imagePass_rlt, imagePass_env, bytes]
        intro store wrote other
        obtain ⟨type, writer, placed, stores⟩ := stored wrote
        rw [stores.owner_eq] at other
        exact (clean.clear setup sounds placed there fun _ => other).store stores
    · obtain ⟨type, member⟩ := mem_bothSpots.mp member
      exact (sounds type other member).selfClear (clean.fits setup (sounds type) member) setup.dma
  · intro store member
    obtain ⟨type, spot, there, stores⟩ := stored member
    exact stores.inside (clean.fits setup (sounds type) there)

section Converse

variable {part : TblPart}

section

variable (faithful : Faithful (imagePass env imgs hashOfst nhashOfst) parts after)
include faithful

theorem Faithful.lcl_room (member : part ∈ parts rlt)
    (present : partBytes env after.tbls rlt part ≠ []) (lcl : part.inSys = false) :
    (partBytes env after.tbls rlt part).length + tblWidth ≤ (imagePass env imgs hashOfst nhashOfst rlt).bdy.size := by
  obtain ⟨start, addr, image⟩ := faithful.images rlt part member (by
    rwa [imagePass_rlt, imagePass_env])
  have inside := image.inside
  unfold TblPart.block at inside
  rw [if_neg (by rw [lcl]; decide), imagePass_rlt, imagePass_env] at inside
  omega

theorem Faithful.bodies (setup : Setup env imgs tbls parts) (same : ∀ ref, SameRules (after.tbls ref) (tbls ref)) :
    LclBodies (imagePass env imgs hashOfst nhashOfst) tbls parts := by
  intro rlt part member sized lcl
  have present := setup.nonempty member sized
  rw [← partBytes_congr same] at present
  have room := faithful.lcl_room member present lcl
  cases rlt with
  | hashable =>
    have none : (imagePass env imgs hashOfst nhashOfst .hashable).bdy = .none := setup.allocated.hashBdy
    rw [none] at room
    exact absurd room (Nat.not_succ_le_zero _)
  | nonHashable =>
    rcases setup.allocated.nhashBdy with none | granted
    · have body : (imagePass env imgs hashOfst nhashOfst .nonHashable).bdy = .none := none
      rw [body] at room
      exact absurd room (Nat.not_succ_le_zero _)
    · exact granted.present setup.dma

end

theorem Sound.header_stored (sound : Sound env size passes tbls parts rlt' spot)
    (stored : spot.Stores store) (hdr : IsGrant env size (.hdr rlt) store.target) (dma : DmaApart env size) :
    rlt' = rlt ∧ store = ⟨spot.part.tbl, spot.pass.hdr, spot.slot, tblHdrWidth⟩ := by
  rcases stored with rfl | ⟨_, target, _⟩
  · exact ⟨DmaUse.hdr.inj (sound.hdr.use_eq hdr dma), rfl⟩
  · rw [target] at hdr
    exact (hdr_ne_use (hdr.use_eq sound.block dma)).elim

theorem Setup.tbl_inj (setup : Setup env imgs tbls parts) (member : part ∈ parts rlt)
    (there : other ∈ parts rlt) (same : part.tbl = other.tbl) : part = other :=
  List.inj_on_of_nodup_map (setup.once rlt) member there same

section

variable (faithful : Faithful (imagePass env imgs hashOfst nhashOfst) parts after)
  (setup : Setup env imgs t.tbls parts) (fresh : t.stores = [])
  (same : ∀ ref, SameRules (after.tbls ref) (t.tbls ref))
  (drawn : Drawn (bothSpots (imagePass env imgs hashOfst nhashOfst) t.tbls parts) t after)
  (sounds : ∀ rlt, ∀ spot ∈ spotsOf (imagePass env imgs hashOfst nhashOfst) t.tbls parts rlt, Sound env (dmaSize t.tbls imgs) (imagePass env imgs hashOfst nhashOfst) t.tbls parts rlt spot)
include faithful setup fresh same drawn sounds

theorem Faithful.drawn_at (member : part ∈ parts rlt) (present : partBytes env t.tbls rlt part ≠ []) :
    ∃ spot ∈ spotsOf (imagePass env imgs hashOfst nhashOfst) t.tbls parts rlt, spot.part = part ∧
      u32 (spot.idx * tblHdrWidth) = u32 (part.sysIdx * tblHdrWidth) := by
  rw [← partBytes_congr same] at present
  obtain ⟨start, addr, image⟩ := faithful.images rlt part member (by
    rwa [imagePass_rlt, imagePass_env])
  rcases drawn.mem_stores image.header with old | ⟨spot, there, stored⟩
  · rw [fresh] at old
    cases old
  obtain ⟨type, there⟩ := mem_bothSpots.mp there
  have sound := sounds type spot there
  have granted : IsGrant env (dmaSize t.tbls imgs) (.hdr rlt) (imagePass env imgs hashOfst nhashOfst rlt).hdr := by
    apply setup.hdr
    rcases stored with header | ⟨_, target, _⟩
    · rw [TblStore.mk.injEq] at header
      rw [header.2.1]
      exact sound.hdr.present setup.dma
    · dsimp only at target
      rw [target]
      exact sound.block.present setup.dma
  obtain ⟨rfl, header⟩ := sound.header_stored stored granted setup.dma
  rw [TblStore.mk.injEq] at header
  obtain ⟨tbl, hdr, slot, _⟩ := header
  refine ⟨spot, there, setup.tbl_inj sound.member member tbl.symm, ?_⟩
  unfold Spot.slot at slot
  rw [sound.pass] at slot
  exact (Nat.add_left_cancel slot).symm

theorem Faithful.not_followed (member : first ∈ spotsOf (imagePass env imgs hashOfst nhashOfst) t.tbls parts rlt)
    (there : later ∈ spotsOf (imagePass env imgs hashOfst nhashOfst) t.tbls parts rlt)
    (lcl : first.part.inSys = false) (apart : first.part.tbl ≠ later.part.tbl)
    (follows : later.start = lclNext first.start first.bytes.length) : False := by
  have sound := sounds rlt first member
  have present := sound.nonempty setup
  rw [← partBytes_congr same] at present
  obtain ⟨start, addr, image⟩ := faithful.images rlt first.part sound.member (by
    rwa [imagePass_rlt, imagePass_env])
  obtain ⟨kind, _, body, _⟩ := sound.lcl lcl
  have block : first.part.block (imagePass env imgs hashOfst nhashOfst rlt) after = first.block := by
    unfold TblPart.block
    rw [if_neg (by rw [lcl]; decide), body]
  have bytes : partBytes env after.tbls rlt first.part = first.bytes := by
    rw [partBytes_congr same, sound.bytes]
  -- the image begins at a rule of the part, so it ends behind the last one
  obtain ⟨store, wrote, owner, target, begins, long⟩ := image.written
  have placed : first.start ≤ start ∧ start ≤ first.start + first.bytes.length := by
    rcases drawn.mem_stores wrote with old | ⟨spot, placed, stored⟩
    · rw [fresh] at old
      cases old
    obtain ⟨type, placed⟩ := mem_bothSpots.mp placed
    have writer := sounds type spot placed
    rw [block] at target
    rcases stored with header | ⟨owns, stands, lower, upper, _⟩
    · have grant := sound.block
      rw [← target, header] at grant
      exact (hdr_ne_use (writer.hdr.use_eq grant setup.dma)).elim
    have grant := writer.block
    rw [← stands, target] at grant
    have uses := grant.use_eq sound.block setup.dma
    have types := Spot.use_rlt uses
    subst types
    have here := spot_unique setup placed member (owns.symm.trans owner)
    subst here
    unfold Spot.length at upper
    omega
  -- the next part begins within its terminator
  obtain ⟨other, wroteOther, ownerOther, _, beginsOther, longOther⟩ :=
    drawn.start_stored (mem_bothSpots.mpr ⟨rlt, there⟩)
  have kept := image.kept other wroteOther (by rw [ownerOther]; exact apart.symm)
  rw [imagePass_rlt, imagePass_env, bytes] at kept
  have bounds : first.start + first.bytes.length ≤ lclNext first.start first.bytes.length ∧
      lclNext first.start first.bytes.length < first.start + first.bytes.length + tblWidth :=
    lclNext_bounds
  omega

end

theorem Faithful.clean (faithful : Faithful (imagePass env imgs hashOfst nhashOfst) parts after)
    (setup : Setup env imgs t.tbls parts) (fresh : t.stores = [])
    (ran : translateBoth env imgs hashOfst nhashOfst parts t = some (after, true)) : Clean env imgs t.tbls parts := by
  have same := translateBoth_sameRules ran
  have bodies := faithful.bodies setup same
  obtain ⟨drawn, blocks⟩ := translateBoth_drawn setup bodies ran
  have sounds := setup.sounds bodies drawn blocks
  have found {rlt : IpaRuleType} {part : TblPart} (member : part ∈ parts rlt)
      (present : partBytes env t.tbls rlt part ≠ []) :=
    faithful.drawn_at setup fresh same drawn sounds member present
  constructor
  · intro rlt part member present
    obtain ⟨spot, there, rfl, slot⟩ := found member present
    have sound := sounds rlt spot there
    have inside := faithful.inside _ (drawn.header_stored (mem_bothSpots.mpr ⟨rlt, there⟩))
    unfold TblStore.Inside Spot.slot slotAddr at inside
    dsimp only at inside
    have size : dmaSize t.tbls imgs (.hdr rlt) = u32 (imgs.tblsNum * tblHdrWidth) := rfl
    rw [sound.hdr.size_eq] at inside
    omega
  · intro rlt part member present sys
    obtain ⟨spot, there, rfl, _⟩ := found member present
    have sound := sounds rlt spot there
    have block := (blocks spot (mem_bothSpots.mpr ⟨rlt, there⟩)).block_eq sound.pass fun lcl => (sound.lcl lcl).2.2.1
    obtain ⟨start, addr, image⟩ := faithful.images rlt spot.part member (by
      rwa [imagePass_rlt, imagePass_env, partBytes_congr same])
    have inside := image.inside
    have size : dmaSize t.tbls imgs (spot.use rlt) =
        u32 ((partBytes env t.tbls rlt spot.part).length + prefetchBufSize + tblWidth) :=
      setup.sys_size sound sys
    rw [block, sound.block.size_eq, imagePass_rlt, imagePass_env, partBytes_congr same] at inside
    unfold u32 prefetchBufSize at *
    omega
  · intro part member present
    by_contra lcl
    rw [← partBytes_congr same] at present
    have room := faithful.lcl_room member present (Bool.eq_false_of_not_eq_true lcl)
    have none : (imagePass env imgs hashOfst nhashOfst .hashable).bdy = .none := setup.allocated.hashBdy
    rw [none] at room
    exact Nat.not_succ_le_zero _ room
  · intro rlt part member present lcl
    obtain ⟨spot, there, rfl, slot⟩ := found member present
    rw [← slot, ((sounds rlt spot there).lcl lcl).2.1]
  · intro part member present lcl
    rw [← partBytes_congr same] at present ⊢
    exact faithful.lcl_room member present lcl
  · intro part member other there present otherPresent lcl otherLcl
    by_contra different
    obtain ⟨spot, placed, rfl, _⟩ := found member present
    obtain ⟨next, nextPlaced, rfl, _⟩ := found there otherPresent
    obtain ⟨first, firstMember, later, laterMember, firstLcl, _, apart, follows⟩ :=
      lcl_followed (setup.once .nonHashable) placed lcl nextPlaced otherLcl
        fun equal => different (congrArg Spot.part equal)
    exact faithful.not_followed setup fresh same drawn sounds firstMember laterMember firstLcl apart follows

theorem faithful_iff_clean (setup : Setup env imgs t.tbls parts) (fresh : t.stores = [])
    (ran : translateBoth env imgs hashOfst nhashOfst parts t = some (after, true)) :
    Faithful (imagePass env imgs hashOfst nhashOfst) parts after ↔ Clean env imgs t.tbls parts :=
  ⟨fun faithful => faithful.clean setup fresh ran, fun clean => clean.faithful setup fresh ran⟩

end Converse

end KernelModules.IpaTables

import KernelModules.Data.Run
import KernelModules.IpaTables.Table

namespace KernelModules.IpaTables

open Data Function

/-! # Commits

A commit prepares all tables of a kind, writes their images and sends them; when that went through, the blocks of
the images before are given back.
-/

structure TblConfig where
  hwType : IpaHwType
  fltrtNotHashable : Bool
  rtTblHashLcl : Bool
  rtTblNhashLcl : Bool
  modemRtIndexLo : Nat
  modemRtIndexHi : Nat
  appsRtIndexLo : Nat
  appsRtIndexHi : Nat
  rtHashBdyStartOfst : Nat
  rtNhashBdyStartOfst : Nat
  appsRtHashSize : Nat
  appsRtNhashSize : Nat
  fltPipes : List Nat
  fltPipes_ordered : fltPipes.Pairwise (· < ·)
  fltInSys : Nat → IpaRuleType → Bool
  /-- The pipes whose non-hashable tables are in local memory, the first to be moved out first. -/
  fltTblNhashLclList : List Nat
  fltHashBdyStartOfst : Nat
  fltNhashBdyStartOfst : Nat
  appsFltHashSize : Nat
  appsFltNhashSize : Nat

structure TblSystem (Rule : Type) where
  tbls : TblRef → IpaTbl Rule
  headRtTblList : List Nat
  reapRtTblList : List Nat
  rtIdxBitmap : List Nat
  live : List Nat
  /-- The block that the last successful commit told the hardware to use for a part, or 0. -/
  told : TblRef → IpaRuleType → Nat

variable {Rule : Type} (cfg : TblConfig) (env : CommitEnv Rule)

def TblConfig.obj : FltRtObj := ipahalFltRtObjs cfg.hwType

def prepTbls : List TblRef → (TblRef → IpaTbl Rule) → (TblRef → IpaTbl Rule) × Bool
  | [], tbls => (tbls, true)
  | ref :: rest, tbls =>
    let (tbl, done) := (tbls ref).prepForCmt cfg.obj env
    let tbls := update tbls ref tbl
    if done then prepTbls rest tbls else (tbls, false)

/-- `ipahal_fltrt_alloc_imgs_params` -/
structure AllocImgsParams where
  tblsNum : Nat
  numLclHashTbls : Nat
  numLclNhashTbls : Nat
  totalSzLclHashTbls : Nat
  totalSzLclNhashTbls : Nat
  hashHdr : IpaMemBuffer
  nhashHdr : IpaMemBuffer
  hashBdy : IpaMemBuffer
  nhashBdy : IpaMemBuffer

def AllocImgsParams.init (tblsNum : Nat) : AllocImgsParams :=
  ⟨tblsNum, 0, 0, 0, 0, .none, .none, .none, .none⟩

def AllocImgsParams.addLcl (params : AllocImgsParams) (tbl : IpaTbl Rule) : AllocImgsParams :=
  let params :=
    if tbl.inSys .hashable = false ∧ tbl.sz .hashable ≠ 0 then { params with
        numLclHashTbls := u32 (params.numLclHashTbls + 1)
        totalSzLclHashTbls :=
          u32 (params.totalSzLclHashTbls + tbl.sz .hashable + 4294967296 - tblHdrWidth) }
    else params
  if tbl.inSys .nonHashable = false ∧ tbl.sz .nonHashable ≠ 0 then { params with
      numLclNhashTbls := u32 (params.numLclNhashTbls + 1)
      totalSzLclNhashTbls :=
        u32 (params.totalSzLclNhashTbls + tbl.sz .nonHashable + 4294967296 - tblHdrWidth) }
  else params

def lclParams (tblsNum : Nat) (tbls : List (IpaTbl Rule)) : AllocImgsParams :=
  tbls.foldl AllocImgsParams.addLcl (.init tblsNum)

/-- `dma_alloc_coherent`, which clears the block. -/
def dmaAlloc (answer : Option (Nat × Nat)) (size : Nat) (memory : ByteMemory) :
    Option (IpaMemBuffer × ByteMemory) :=
  answer.map fun (base, physBase) =>
    (⟨base, physBase, size⟩, memory.writeBytes base (List.replicate size 0))

def initTblHdr (tblsNum : Nat) (hdr : IpaMemBuffer) (memory : ByteMemory) : ByteMemory :=
  (List.range tblsNum).foldl
    (fun memory idx => memory.store (hdr.base + idx * tblHdrWidth) 8 ((createTblAddr false emptySramOffset).getD 0))
    memory

/-- `ipahal_fltrt_allocate_hw_tbl_imgs`, with the memory that it leaves.  The size of the hashable
body is set only where it is asked for. -/
def allocateHwTblImgs (params : AllocImgsParams) : Option (AllocImgsParams × ByteMemory) := do
  let size := u32 (params.tblsNum * tblHdrWidth)
  let (nhashHdr, memory) ← dmaAlloc env.dmaNhashHdr size env.memory
  let (hashHdr, memory) ←
    if cfg.obj.supportHash then dmaAlloc env.dmaHashHdr size memory else some (params.hashHdr, memory)
  let memory := initTblHdr params.tblsNum nhashHdr memory
  let memory := if cfg.obj.supportHash then initTblHdr params.tblsNum hashHdr memory else memory
  let (nhashBdy, memory) ←
    if u32 (params.totalSzLclNhashTbls + params.numLclNhashTbls) > 0 then
      dmaAlloc env.dmaNhashBdy
        (getAlignedLclBdySize params.numLclNhashTbls params.totalSzLclNhashTbls) memory
    else some (params.nhashBdy, memory)
  let (hashBdy, memory) ←
    if cfg.obj.supportHash ∧ params.hashBdy.size ≠ 0 then
      dmaAlloc env.dmaHashBdy
        (getAlignedLclBdySize params.numLclHashTbls params.totalSzLclHashTbls) memory
    else some (params.hashBdy, memory)
  return ({ params with hashHdr, nhashHdr, hashBdy, nhashBdy }, memory)

def hashPass (params : AllocImgsParams) (bodyOfst : Nat) : TblPass Rule :=
  ⟨env, .hashable, params.hashBdy, params.hashHdr, bodyOfst⟩

def nhashPass (params : AllocImgsParams) (bodyOfst : Nat) : TblPass Rule :=
  ⟨env, .nonHashable, params.nhashBdy, params.nhashHdr, bodyOfst⟩

def translateBoth (params : AllocImgsParams) (hashOfst nhashOfst : Nat)
    (parts : IpaRuleType → List TblPart) (t : Translation Rule) : Option (Translation Rule × Bool) :=
  match t.translateTblToHwFmt (hashPass env params hashOfst) (parts .hashable) with
  | some (t, true) => t.translateTblToHwFmt (nhashPass env params nhashOfst) (parts .nonHashable)
  | outcome => outcome

/-- The slot of a table in system memory counts from the first index of the applications, that of one in local
memory does not. -/
def rtParts (tbls : TblRef → IpaTbl Rule) (listed : List Nat) (rlt : IpaRuleType) : List TblPart :=
  listed.map fun tbl =>
    ⟨.rt tbl, (tbls (.rt tbl)).inSys rlt,
      u32 ((tbls (.rt tbl)).idx + 4294967296 - cfg.appsRtIndexLo), (tbls (.rt tbl)).idx⟩

/-- The parts of the filter tables, which are counted along the pipes that support filtering. -/
def fltParts (tbls : TblRef → IpaTbl Rule) (pipes : List Nat) (rlt : IpaRuleType) : List TblPart :=
  pipes.zipIdx.map fun (pipe, hdrIdx) =>
    ⟨.flt pipe, (tbls (.flt pipe)).inSys rlt || (tbls (.flt pipe)).forceSys rlt, hdrIdx, hdrIdx⟩

def IpaMemBuffer.addresses (mem : IpaMemBuffer) : List Nat :=
  if mem.physBase ≠ 0 then [mem.physBase] else []

def IpaMemBuffer.freed (mem : IpaMemBuffer) : IpaMemBuffer :=
  if mem.physBase ≠ 0 then .none else mem

def IpaRuleType.all : List IpaRuleType := [.hashable, .nonHashable]

/-- `__ipa_reap_sys_rt_tbls` -/
def TblSystem.reapSysRtTbls (s : TblSystem Rule) : TblSystem Rule :=
  let prev := s.headRtTblList.flatMap fun tbl =>
    IpaRuleType.all.flatMap fun rlt => ((s.tbls (.rt tbl)).prevMem rlt).addresses
  let curr := s.reapRtTblList.flatMap fun tbl =>
    IpaRuleType.all.flatMap fun rlt => ((s.tbls (.rt tbl)).currMem rlt).addresses
  { s with
    tbls := fun ref =>
      match ref with
      | .rt tbl =>
        if tbl ∈ s.headRtTblList then { s.tbls ref with prevMem := fun rlt => ((s.tbls ref).prevMem rlt).freed }
        else s.tbls ref
      | .flt _ => s.tbls ref
    reapRtTblList := []
    live := (s.live.diff prev).diff curr }

/-- `__ipa_reap_sys_flt_tbls`, for both types of rules -/
def TblSystem.reapSysFltTbls (s : TblSystem Rule) : TblSystem Rule :=
  let gone (pipe : Nat) (rlt : IpaRuleType) : List Nat :=
    ((s.tbls (.flt pipe)).prevMem rlt).addresses ++
      if (s.tbls (.flt pipe)).rules.isEmpty then ((s.tbls (.flt pipe)).currMem rlt).addresses else []
  { s with
    tbls := fun ref =>
      match ref with
      | .flt pipe =>
        if pipe ∈ cfg.fltPipes then { s.tbls ref with
            prevMem := fun rlt => ((s.tbls ref).prevMem rlt).freed
            currMem := fun rlt =>
              if (s.tbls ref).rules.isEmpty then ((s.tbls ref).currMem rlt).freed
              else (s.tbls ref).currMem rlt }
        else s.tbls ref
      | .rt _ => s.tbls ref
    live := (s.live.diff (cfg.fltPipes.flatMap fun pipe => gone pipe .hashable)).diff
      (cfg.fltPipes.flatMap fun pipe => gone pipe .nonHashable) }

def toldOf (tbl : IpaTbl Rule) (inSys : Bool) (rlt : IpaRuleType) : Nat :=
  if inSys ∧ tbl.sz rlt ≠ 0 then (tbl.currMem rlt).physBase else 0

def TblConfig.sends (rlt : IpaRuleType) : Bool :=
  !(cfg.fltrtNotHashable && rlt = .hashable)

def TblSystem.tellRt (s : TblSystem Rule) : TblSystem Rule :=
  { s with
    told := fun ref rlt =>
      match ref with
      | .rt tbl =>
        if cfg.sends rlt then if tbl ∈ s.headRtTblList then toldOf (s.tbls ref) ((s.tbls ref).inSys rlt) rlt else 0
        else s.told ref rlt
      | .flt _ => s.told ref rlt }

def TblSystem.tellFlt (skip : Nat → Bool) (s : TblSystem Rule) : TblSystem Rule :=
  { s with
    told := fun ref rlt =>
      match ref with
      | .flt pipe =>
        if cfg.sends rlt ∧ pipe ∈ cfg.fltPipes ∧ skip pipe = false then
          toldOf (s.tbls ref) ((s.tbls ref).inSys rlt || (s.tbls ref).forceSys rlt) rlt
        else s.told ref rlt
      | .rt _ => s.told ref rlt }

def TblSystem.translation (s : TblSystem Rule) (memory : ByteMemory) : Translation Rule :=
  { tbls := s.tbls, live := s.live, memory, stores := [], bodyI := 0, tblMem := .none }

def TblSystem.translated (s : TblSystem Rule) (t : Translation Rule) : TblSystem Rule :=
  { s with tbls := t.tbls, live := t.live }

def TblSystem.prepRt (s : TblSystem Rule) : TblSystem Rule × Option AllocImgsParams :=
  let (tbls, done) := prepTbls cfg env (s.headRtTblList.map .rt) s.tbls
  let s := { s with tbls }
  (s, if done then some (lclParams (cfg.appsRtIndexHi - cfg.appsRtIndexLo + 1)
      (s.headRtTblList.map fun tbl => s.tbls (.rt tbl)))
  else none)

def TblSystem.rtImage (s : TblSystem Rule) (params : AllocImgsParams) (memory : ByteMemory) :
    Option (Translation Rule × Bool) :=
  translateBoth env params cfg.rtHashBdyStartOfst cfg.rtNhashBdyStartOfst
    (rtParts cfg s.tbls s.headRtTblList) (s.translation memory)

/-- `__ipa_commit_rt_v3` -/
def TblSystem.commitRt (s : TblSystem Rule) : Option (TblSystem Rule) :=
  if s.rtIdxBitmap.isEmpty then some s
  else match s.prepRt cfg env with
    | (s, none) => some s
    | (s, some params) =>
      match allocateHwTblImgs cfg env params with
      | none => some s
      | some (params, memory) =>
        match s.rtImage cfg env params memory with
        | none => none
        | some (t, false) => some (s.translated t)
        | some (t, true) =>
          let s := s.translated t
          if params.hashBdy.size ≤ cfg.appsRtHashSize ∧
              params.nhashBdy.size ≤ cfg.appsRtNhashSize ∧ env.commandsSent then
            some (s.tellRt cfg).reapSysRtTbls
          else some s

def moveNhashTbls (tbls : TblRef → IpaTbl Rule) (params : AllocImgsParams) :
    List Nat → (TblRef → IpaTbl Rule) × AllocImgsParams
  | [] => (tbls, params)
  | pipe :: rest =>
    if getAlignedLclBdySize params.numLclNhashTbls params.totalSzLclNhashTbls ≤
        cfg.appsFltNhashSize ∨ params.numLclNhashTbls = 0 then (tbls, params)
    else let tbl := tbls (.flt pipe)
      moveNhashTbls
        (update tbls (.flt pipe)
          { tbl with forceSys := update tbl.forceSys .nonHashable true })
        { params with
          numLclNhashTbls := params.numLclNhashTbls - 1
          totalSzLclNhashTbls :=
            u32 (params.totalSzLclNhashTbls + 4294967296 - tbl.sz .nonHashable + tblHdrWidth) }
        rest

def prepFltTbls : List Nat → (TblRef → IpaTbl Rule) → (TblRef → IpaTbl Rule) × Bool
  | [], tbls => (tbls, true)
  | pipe :: rest, tbls =>
    let (tbl, done) := (tbls (.flt pipe)).prepForCmt cfg.obj env
    if done then prepFltTbls rest (update tbls (.flt pipe)
        { tbl with forceSys := update tbl.forceSys .nonHashable false })
    else (update tbls (.flt pipe) tbl, false)

def TblSystem.prepFlt (s : TblSystem Rule) : TblSystem Rule × Option AllocImgsParams :=
  let (tbls, done) := prepFltTbls cfg env cfg.fltPipes s.tbls
  let params := lclParams cfg.fltPipes.length (cfg.fltPipes.map fun pipe => tbls (.flt pipe))
  if done ∧ getAlignedLclBdySize params.numLclHashTbls params.totalSzLclHashTbls ≤ cfg.appsFltHashSize then
    let (tbls, params) := moveNhashTbls cfg tbls params cfg.fltTblNhashLclList
    ({ s with tbls }, some params)
  else ({ s with tbls }, none)

def TblSystem.fltImage (s : TblSystem Rule) (params : AllocImgsParams) (memory : ByteMemory) :
    Option (Translation Rule × Bool) :=
  translateBoth env params cfg.fltHashBdyStartOfst cfg.fltNhashBdyStartOfst
    (fltParts s.tbls cfg.fltPipes) (s.translation memory)

/-- `__ipa_commit_flt_v3`, where the pipes of `skip` are configured by others -/
def TblSystem.commitFlt (skip : Nat → Bool) (s : TblSystem Rule) : Option (TblSystem Rule) :=
  match s.prepFlt cfg env with
  | (s, none) => some s
  | (s, some params) =>
    match allocateHwTblImgs cfg env params with
    | none => some s
    | some (params, memory) =>
      match s.fltImage cfg env params memory with
      | none => none
      | some (t, false) => some (s.translated t)
      | some (t, true) =>
        let s := s.translated t
        if env.commandsSent then some ((s.tellFlt cfg skip).reapSysFltTbls cfg) else some s

inductive TblAction (Rule : Type) where
  | setRules (ref : TblRef) (rules : List (IpaEntry Rule))
  | addRtTbl (tbl : Nat) (idAllocated : Bool)
  | delRtTbl (tbl : Nat)
  | commitRt (env : CommitEnv Rule)
  | commitFlt (env : CommitEnv Rule) (skip : Nat → Bool)

def emptyTbl (idx : Nat) (inSys : IpaRuleType → Bool) : IpaTbl Rule :=
  { idx, rules := [], inSys, forceSys := fun _ => false, sz := fun _ => 0
    currMem := fun _ => .none, prevMem := fun _ => .none }

def rtInSys : IpaRuleType → Bool
  | .hashable => !cfg.rtTblHashLcl
  | .nonHashable => !cfg.rtTblNhashLcl

def rtIndexBitmapSize : Nat := 32

/-- `__ipa_add_rt_tbl` for a name that is new.  An index that was found stays taken where the table
is given up. -/
def TblSystem.addRtTbl (tbl : Nat) (idAllocated : Bool) (s : TblSystem Rule) : TblSystem Rule :=
  match (List.range rtIndexBitmapSize).find? fun idx => idx ∉ s.rtIdxBitmap with
  | none => s
  | some idx =>
    let s := { s with rtIdxBitmap := idx :: s.rtIdxBitmap }
    if idx > max cfg.modemRtIndexHi cfg.appsRtIndexHi ∨ idAllocated = false then s
    else { s with
        tbls := update s.tbls (.rt tbl) (emptyTbl idx (rtInSys cfg))
        headRtTblList := tbl :: s.headRtTblList }

/-- `__ipa_del_rt_tbl`, and what `ipa3_reset_rt` does with a table -/
def TblSystem.delRtTbl (tbl : Nat) (s : TblSystem Rule) : TblSystem Rule :=
  { s with
    headRtTblList := s.headRtTblList.erase tbl
    reapRtTblList :=
      if (s.tbls (.rt tbl)).inSys .hashable ∨ (s.tbls (.rt tbl)).inSys .nonHashable then tbl :: s.reapRtTblList
      else s.reapRtTblList
    rtIdxBitmap := s.rtIdxBitmap.erase (s.tbls (.rt tbl)).idx }

def TblSystem.refs (s : TblSystem Rule) : List TblRef :=
  s.headRtTblList.map .rt ++ cfg.fltPipes.map .flt

def TblSystem.step (s : TblSystem Rule) : TblAction Rule → Option (TblSystem Rule)
  | .setRules ref rules =>
    if ref ∈ s.refs cfg then some { s with tbls := update s.tbls ref { s.tbls ref with rules } }
    else none
  | .addRtTbl tbl idAllocated =>
    -- the kernel grants a place that is not in use
    if tbl ∈ s.headRtTblList ++ s.reapRtTblList then none
    else some (s.addRtTbl cfg tbl idAllocated)
  | .delRtTbl tbl => if tbl ∈ s.headRtTblList then some (s.delRtTbl tbl) else none
  | .commitRt env => s.commitRt cfg env
  | .commitFlt env skip => s.commitFlt cfg env skip

def TblSystem.init : TblSystem Rule :=
  { tbls := fun ref =>
      match ref with
      | .rt _ => emptyTbl 0 fun _ => false
      | .flt pipe => emptyTbl 0 (cfg.fltInSys pipe)
    headRtTblList := []
    reapRtTblList := []
    rtIdxBitmap := List.range' cfg.modemRtIndexLo (cfg.modemRtIndexHi + 1 - cfg.modemRtIndexLo)
    live := []
    told := fun _ _ => 0 }

end KernelModules.IpaTables

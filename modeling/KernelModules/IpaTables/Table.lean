import KernelModules.Data.ByteMemory

namespace KernelModules.IpaTables

open Data

/-! # Routing and filter tables

The tables of the driver's rules, and what the hardware layer says of their images.  A table has a part that is
hashed and one that is not.
-/

inductive IpaRuleType where
  | hashable
  | nonHashable
deriving DecidableEq

structure IpaMemBuffer where
  base : Nat
  physBase : Nat
  size : Nat

def IpaMemBuffer.none : IpaMemBuffer := ⟨0, 0, 0⟩

/-- A rule in a table.  `hwLen` is 0 until its size is known. -/
structure IpaEntry (Rule : Type) where
  id : Nat
  rule : Rule
  hashable : Bool
  maxPrio : Bool
  prio : Nat
  hwLen : Nat

def IpaEntry.ruleType {Rule : Type} (entry : IpaEntry Rule) : IpaRuleType :=
  if entry.hashable then .hashable else .nonHashable

/-- A routing table, or the filter table of a pipe.  Filter tables have no `idx`, and only they are
ever forced into system memory. -/
structure IpaTbl (Rule : Type) where
  idx : Nat
  rules : List (IpaEntry Rule)
  inSys : IpaRuleType → Bool
  forceSys : IpaRuleType → Bool
  sz : IpaRuleType → Nat
  currMem : IpaRuleType → IpaMemBuffer
  prevMem : IpaRuleType → IpaMemBuffer

/-- The address of a table: a routing table by its place in the kernel's memory, a filter table by
its pipe. -/
inductive TblRef where
  | rt (tbl : Nat)
  | flt (pipe : Nat)
deriving DecidableEq

inductive IpaHwType where
  | v3_0 | v4_0 | v4_2 | v4_5 | v5_0 | v5_5

/-- What the versions of the hardware differ in; the sizes below are those of every version. -/
structure FltRtObj where
  supportHash : Bool
  ruleMaxPrio : Nat
  ruleMinPrio : Nat

def ipahalFltRtObjs : IpaHwType → FltRtObj
  | .v3_0 => ⟨true, 0, 1023⟩
  | .v4_0 => ⟨true, 0, 1023⟩
  | .v4_2 => ⟨false, 0, 1023⟩
  | .v4_5 => ⟨true, 0, 1023⟩
  | .v5_0 => ⟨true, 0, 255⟩
  | .v5_5 => ⟨true, 0, 255⟩

def tblWidth : Nat := 8

def tblHdrWidth : Nat := 8

def prefetchBufSize : Nat := 256

def sysaddrAlignment : Nat := 127

def lcladdrAlignment : Nat := 7

def blkSzAlignment : Nat := 127

def ruleStartAlignment : Nat := 7

def tblAddrMask : Nat := 127

def emptySramOffset : Nat := 0x1000

def u32 (value : Nat) : Nat := value % 4294967296

/-- `value & ~mask` -/
def alignDown (value mask : Nat) : Nat := value - value % (mask + 1)

/-- `none` where the driver stops the kernel over an address that is not aligned. -/
def createTblAddr (isSys : Bool) (addr : Nat) : Option Nat :=
  if isSys then if addr % (sysaddrAlignment + 1) ≠ 0 then none else some addr
  else if addr % (lcladdrAlignment + 1) ≠ 0 then none
  else some (addr / (lcladdrAlignment + 1) * (tblAddrMask + 1) + 1)

def ipahalRuleDecreasePriority (obj : FltRtObj) (prio : Nat) : Option Nat :=
  if prio > obj.ruleMinPrio ∨ prio < obj.ruleMaxPrio then none
  else if prio + 1 > obj.ruleMinPrio then none
  else some (prio + 1)

def getAlignedLclBdySize (numLclTbls totalSzLclTbls : Nat) : Nat :=
  alignDown (u32 (u32 (u32 (totalSzLclTbls + u32 (tblWidth * numLclTbls)) +
    u32 (lcladdrAlignment * numLclTbls)) + blkSzAlignment)) blkSzAlignment

/-- What a commit finds outside: how rules are encoded, which buffers and blocks the kernel grants, and whether the
commands go through. -/
structure CommitEnv (Rule : Type) where
  memory : ByteMemory
  encode : Rule → Nat → Option (List (BitVec 8))
  scratch : IpaEntry Rule → Bool
  dmaSysTbl : TblRef → IpaRuleType → Option (Nat × Nat)
  dmaHashHdr : Option (Nat × Nat)
  dmaNhashHdr : Option (Nat × Nat)
  dmaHashBdy : Option (Nat × Nat)
  dmaNhashBdy : Option (Nat × Nat)
  /-- What an uninitialised `tbl_mem` holds, for each type of rules. -/
  stack : IpaRuleType → IpaMemBuffer
  commandsSent : Bool

section Rules

variable {Rule : Type}

def genHwRule (env : CommitEnv Rule) (entry : IpaEntry Rule) : Option (List (BitVec 8) × IpaEntry Rule) :=
  match env.encode entry.rule entry.prio with
  | none => none
  | some bytes =>
    if entry.hwLen = 0 then some (bytes, { entry with hwLen := bytes.length })
    else if entry.hwLen ≠ bytes.length then none
    else some (bytes, entry)

/-- The rules of a table with priorities and sizes, and the sizes of the parts so far; the flag tells that the walk
ended. -/
def prepRules (obj : FltRtObj) (env : CommitEnv Rule) :
    List (IpaEntry Rule) → Nat → (IpaRuleType → Nat) → List (IpaEntry Rule) × (IpaRuleType → Nat) × Bool
  | [], _, sz => ([], sz, true)
  | entry :: rest, prioI, sz =>
    match if entry.maxPrio then some (obj.ruleMaxPrio, prioI)
      else (ipahalRuleDecreasePriority obj prioI).map fun prio => (prio, prio) with
    | none => (entry :: rest, sz, false)
    | some (prio, prioI) =>
      let entry := { entry with prio := prio }
      match if env.scratch entry then genHwRule env entry else none with
      | none => (entry :: rest, sz, false)
      | some (_, entry) =>
        let (rest, sz, done) := prepRules obj env rest prioI fun rlt =>
          if rlt = entry.ruleType then u32 (sz rlt + entry.hwLen) else sz rlt
        (entry :: rest, sz, done)

/-- `ipa_prep_rt_tbl_for_cmt` and `ipa_prep_flt_tbl_for_cmt` -/
def IpaTbl.prepForCmt (obj : FltRtObj) (env : CommitEnv Rule) (tbl : IpaTbl Rule) : IpaTbl Rule × Bool :=
  let (rules, sz, done) := prepRules obj env tbl.rules obj.ruleMaxPrio fun _ => 0
  if done then ({ tbl with
        rules := rules
        sz := fun rlt => if sz rlt = 0 then 0 else u32 (sz rlt + tblHdrWidth) }, true)
  else ({ tbl with rules := rules, sz := sz }, false)

end Rules

/-! ## Tables in the format of the hardware

The images are written part by part: the address into its slot of the header, and the rules behind each other, in an
own block or the local body.
-/

structure TblStore where
  owner : TblRef
  target : IpaMemBuffer
  address : Nat
  length : Nat

structure Translation (Rule : Type) where
  tbls : TblRef → IpaTbl Rule
  live : List Nat
  memory : ByteMemory
  stores : List TblStore
  bodyI : Nat
  tblMem : IpaMemBuffer

structure TblPart where
  tbl : TblRef
  inSys : Bool
  sysIdx : Nat
  lclIdx : Nat
deriving DecidableEq

structure TblPass (Rule : Type) where
  env : CommitEnv Rule
  rlt : IpaRuleType
  bdy : IpaMemBuffer
  hdr : IpaMemBuffer
  bodyOfst : Nat

/-- Where a part of the translation goes on: behind it, or at the labels for errors; `bug` where
the driver stops the kernel. -/
inductive TblOutcome where
  | done
  | err
  | hdrUpdateFail
  | bug
deriving DecidableEq

variable {Rule : Type}

namespace Translation

def write (t : Translation Rule) (owner : TblRef) (target : IpaMemBuffer) (address : Nat)
    (bytes : List (BitVec 8)) : Translation Rule :=
  { t with
    memory := t.memory.writeBytes address bytes
    stores := t.stores ++ [⟨owner, target, address, bytes.length⟩] }

/-- `ipahal_free_dma_mem` -/
def freeDmaMem (t : Translation Rule) (mem : IpaMemBuffer) : Translation Rule :=
  { t with live := t.live.erase mem.physBase }

variable (pass : TblPass Rule)

/-- `ipahal_fltrt_allocate_hw_sys_tbl`; the block is cleared. -/
def allocateHwSysTbl (t : Translation Rule) (owner : TblRef) (size : Nat) : Option (Translation Rule) :=
  if size = 0 then none
  else match pass.env.dmaSysTbl owner pass.rlt with
    | none => none
    | some (base, physBase) =>
      if physBase % (sysaddrAlignment + 1) ≠ 0 then none
      else let size := u32 (size + tblWidth)
        some { t with
          live := physBase :: t.live
          memory := t.memory.writeBytes base (List.replicate size 0)
          tblMem := ⟨base, physBase, size⟩ }

/-- `ipahal_fltrt_write_addr_to_hdr` -/
def writeAddrToHdr (t : Translation Rule) (owner : TblRef) (addr hdrIdx : Nat) (isSys : Bool) :
    Translation Rule × TblOutcome :=
  if addr = 0 ∨ pass.hdr.base = 0 then (t, .hdrUpdateFail)
  else match createTblAddr isSys addr with
    | none => (t, .bug)
    | some hwaddr =>
      let hdr := pass.hdr.base + u32 (hdrIdx * tblHdrWidth)
      ({ t with
          memory := t.memory.store hdr 8 hwaddr
          stores := t.stores ++ [⟨owner, pass.hdr, hdr, 8⟩] }, .done)

/-- The rules of a part from `buf` on, each with the terminator behind it; `none` if one fails.  At the null address
a rule is only sized. -/
def generateRules (owner : TblRef) (target : IpaMemBuffer) :
    List (IpaEntry Rule) → Nat → Translation Rule → Option (Translation Rule × Nat)
  | [], buf, t => some (t, buf)
  | entry :: rest, buf, t =>
    if entry.ruleType ≠ pass.rlt then generateRules owner target rest buf t
    else if buf = 0 then match if pass.env.scratch entry then genHwRule pass.env entry else none with
      | none => none
      | some (bytes, _) => generateRules owner target rest bytes.length t
    else if buf % (ruleStartAlignment + 1) ≠ 0 then none
    else match genHwRule pass.env entry with
      | none => none
      | some (bytes, _) =>
        generateRules owner target rest (buf + bytes.length)
          (t.write owner target buf (bytes ++ List.replicate tblWidth 0))

/-- The block of the image before is kept in `prev_mem`, whatever that held. -/
def swapMem (t : Translation Rule) (owner : TblRef) : Translation Rule :=
  let tbl := t.tbls owner
  let prevMem :=
    if (tbl.currMem pass.rlt).physBase ≠ 0 then Function.update tbl.prevMem pass.rlt (tbl.currMem pass.rlt)
    else tbl.prevMem
  { t with
    tbls := Function.update t.tbls owner
      { tbl with
        currMem := Function.update tbl.currMem pass.rlt t.tblMem
        prevMem := prevMem } }

def translateSysPart (t : Translation Rule) (part : TblPart) : Translation Rule × TblOutcome :=
  let tbl := t.tbls part.tbl
  let size := u32 (tbl.sz pass.rlt + prefetchBufSize - tblHdrWidth)
  match t.allocateHwSysTbl pass part.tbl size with
  | none => (t, .err)
  | some t =>
    match t.writeAddrToHdr pass part.tbl t.tblMem.physBase part.sysIdx true with
    | (t, .done) =>
      match generateRules pass part.tbl t.tblMem tbl.rules t.tblMem.base t with
      | none => (t, .hdrUpdateFail)
      | some (t, _) => (t.swapMem pass part.tbl, .done)
    | (t, outcome) => (t, outcome)

def translateLclPart (t : Translation Rule) (part : TblPart) : Translation Rule × TblOutcome :=
  let tbl := t.tbls part.tbl
  let offset := t.bodyI - pass.bdy.base + pass.bodyOfst
  match t.writeAddrToHdr pass part.tbl offset part.lclIdx false with
  | (t, .done) =>
    match generateRules pass part.tbl pass.bdy tbl.rules t.bodyI t with
    | none => (t, .err)
    | some (t, bodyI) =>
      ({ t with bodyI := alignDown (bodyI + lcladdrAlignment) lcladdrAlignment }, .done)
  | (t, outcome) => (t, outcome)

def translatePart (t : Translation Rule) (part : TblPart) : Translation Rule × TblOutcome :=
  if (t.tbls part.tbl).sz pass.rlt = 0 then (t, .done)
  else if part.inSys then t.translateSysPart pass part
  else t.translateLclPart pass part

def translateParts : List TblPart → Translation Rule → Translation Rule × TblOutcome
  | [], t => (t, .done)
  | part :: rest, t =>
    match t.translatePart pass part with
    | (t, .done) => translateParts rest t
    | (t, outcome) => (t, outcome)

/-- One pass, through all parts or to the labels for errors, with whether it succeeded; `none` where the kernel
stops. -/
def translateTblToHwFmt (parts : List TblPart) (t : Translation Rule) : Option (Translation Rule × Bool) :=
  let start := { t with bodyI := pass.bdy.base, tblMem := pass.env.stack pass.rlt }
  match translateParts pass parts start with
  | (t, .done) => some (t, true)
  | (t, .err) => some (t, false)
  | (t, .hdrUpdateFail) => some (t.freeDmaMem t.tblMem, false)
  | (_, .bug) => none

end Translation

end KernelModules.IpaTables

import KernelModules.Data.Handles

namespace KernelModules.IpaRouting

open Data Function

/-! # Routing tables and their rules

The sets of tables, the rules with their headers, and the handles that users know them by.
-/

inductive IpaIpType where
  | v4
  | v6
deriving DecidableEq

inductive HdrRef where
  | hdr (entry : Nat)
  | procCtx (entry : Nat)
deriving DecidableEq

inductive IdrObject where
  | rtTbl (tbl : Nat)
  | rtRule (entry : Nat)
  | hdr (ref : HdrRef)
deriving DecidableEq

/-- `ipa_rt_rule_i`, as far as the tables depend on it; a handle of 0 is none. -/
structure RtRule where
  hdrHdl : Nat
  hdrProcCtxHdl : Nat
  coalesce : Bool
  enableStats : Bool
  cntIdx : Nat

/-- `ipa3_rt_entry` -/
structure RtEntry where
  rule : RtRule
  tbl : Nat
  hdr : Option Nat
  procCtx : Option Nat
  ipacmInstalled : Bool
  id : Nat

def RtEntry.target (entry : RtEntry) : Option HdrRef :=
  match entry.hdr with
  | some hdr => some (.hdr hdr)
  | none => entry.procCtx.map .procCtx

/-- `ipa3_rt_tbl`; one flag for both types of rules tells if the table has a part in system
memory. -/
structure RtTbl where
  name : List Char
  ip : IpaIpType
  idx : Nat
  ruleCnt : Nat
  refCnt : Nat
  rules : List Nat
  inSys : Bool
  id : Nat

/-- `ipa3_rt_tbl_set` with its bitmap of indices and the tables to be reaped -/
structure RtTblSet where
  headRtTblList : List Nat
  tblCnt : Nat
  rtIdxBitmap : Nat → Bool
  reapRtTblList : List Nat

structure RtState where
  idr : List (Nat × IdrObject)
  tbls : Nat → RtTbl
  entries : Nat → RtEntry
  live : List Nat
  sets : IpaIpType → RtTblSet
  hdrs : List HdrRef
  hdrId : HdrRef → Nat
  hdrRefCnt : HdrRef → Nat
  hdrOthers : HdrRef → Nat

structure RtConfig where
  hwAtLeast45 : Bool
  ruleIdHiBit : Nat
  inSys : IpaIpType → Bool
  modemRtIndexLo : IpaIpType → Nat
  modemRtIndexHi : IpaIpType → Nat
  appsRtIndexLo : IpaIpType → Nat
  appsRtIndexHi : IpaIpType → Nat

/-- What a call finds outside the tables: what is granted to it, and the rest of the driver. -/
structure RtEnv where
  tblAddr : Option Nat
  tblId : Option Nat
  entryAddr : Option Nat
  ruleId : Bool
  entryId : Option Nat
  usedHw : Nat → Bool
  deepsleep : Bool

def ipaResourceNameMax : Nat := 32

def ipaRtIndexBitmapSize : Nat := 32

def ipaRuleCntMax : Nat := 512

def ipaFltRtHwCounter : Nat := 120

def u32Max : Nat := 4294967295

def ipaDfltRtTblName : List Char := ['i', 'p', 'a', '_', 'd', 'f', 'l', 't', '_', 'r', 't']

namespace RtState

variable (s : RtState)

def idFind (id : Nat) : Option IdrObject := handleFind s.idr id

/-- `ipa3_check_idr_if_freed` -/
def checkIdrIfFreed (object : IdrObject) : Bool := object ∉ s.idr.map Prod.snd

def idRemove (id : Nat) : RtState := { s with idr := handleRemove s.idr id }

def setSet (ip : IpaIpType) (set : RtTblSet) : RtState :=
  { s with sets := update s.sets ip set }

def setTbl (tbl : Nat) (table : RtTbl) : RtState :=
  { s with tbls := update s.tbls tbl table }

def setEntry (entry : Nat) (rule : RtEntry) : RtState :=
  { s with entries := update s.entries entry rule }

def setHdrRefCnt (ref : HdrRef) (count : Nat) : RtState :=
  { s with hdrRefCnt := update s.hdrRefCnt ref count }

def findHdr (hdl : Nat) : Option Nat :=
  match s.idFind hdl with
  | some (.hdr (.hdr entry)) => some entry
  | _ => none

def findProcCtx (hdl : Nat) : Option Nat :=
  match s.idFind hdl with
  | some (.hdr (.procCtx entry)) => some entry
  | _ => none

def findLike (ref : HdrRef) (hdl : Nat) : Option HdrRef :=
  match ref with
  | .hdr _ => (s.findHdr hdl).map .hdr
  | .procCtx _ => (s.findProcCtx hdl).map .procCtx

/-- `__ipa3_release_hdr` and `__ipa3_release_hdr_proc_ctx`.  What a header that goes holds itself is
given back by a release of its own. -/
def releaseHdr (ref : HdrRef) : RtState :=
  match s.findLike ref (s.hdrId ref) with
  | none => s
  | some found =>
    let count := s.hdrRefCnt found - 1
    let s := s.setHdrRefCnt found count
    if count = 0 then { s.idRemove (s.hdrId ref) with hdrs := s.hdrs.erase found } else s

/-- `__ipa3_find_rt_tbl` -/
def findRtTbl (ip : IpaIpType) (name : List Char) : Option Nat :=
  if ipaResourceNameMax ≤ name.length then none
  else (s.sets ip).headRtTblList.find? fun tbl =>
    !s.checkIdrIfFreed (.rtTbl tbl) && name = (s.tbls tbl).name

def maxTblIndx (cfg : RtConfig) (ip : IpaIpType) : Nat :=
  max (cfg.modemRtIndexHi ip) (cfg.appsRtIndexHi ip)

def freeRtIdx (ip : IpaIpType) : Option Nat :=
  (List.range ipaRtIndexBitmapSize).find? fun idx => !(s.sets ip).rtIdxBitmap idx

def listRtTbl (ip : IpaIpType) (tbl idx id : Nat) : RtState :=
  let set := s.sets ip
  let s := s.setSet ip { set with
    headRtTblList := tbl :: set.headRtTblList
    tblCnt := set.tblCnt + 1
    rtIdxBitmap := update set.rtIdxBitmap idx true }
  { s with idr := (id, .rtTbl tbl) :: s.idr }

/-- `__ipa_add_rt_tbl`.  The bit of an index stays set where the table is given up. -/
def addRtTbl (cfg : RtConfig) (env : RtEnv) (ip : IpaIpType) (name : List Char) : RtState × Option Nat :=
  match s.findRtTbl ip name with
  | some tbl => (s, some tbl)
  | none =>
    match env.tblAddr with
    | none => (s, none)
    | some tbl =>
      let set := s.sets ip
      match s.freeRtIdx ip with
      | none => (s, none)
      | some idx =>
        let set := { set with rtIdxBitmap := update set.rtIdxBitmap idx true }
        if idx > maxTblIndx cfg ip then (s.setSet ip set, none)
        else match env.tblId with
          | none => (s.setSet ip set, none)
          | some id =>
            let s := s.setTbl tbl
              { name := name.take (ipaResourceNameMax - 1), ip, idx, ruleCnt := 0, refCnt := 0,
                rules := [], inSys := cfg.inSys ip, id }
            (s.listRtTbl ip tbl idx id, some tbl)

def unlistRtTbl (ip : IpaIpType) (tbl : Nat) : RtState :=
  let set := s.sets ip
  s.setSet ip
    { headRtTblList := set.headRtTblList.erase tbl
      tblCnt := set.tblCnt - 1
      rtIdxBitmap := update set.rtIdxBitmap (s.tbls tbl).idx false
      reapRtTblList := if (s.tbls tbl).inSys then tbl :: set.reapRtTblList else set.reapRtTblList }

/-- `__ipa_del_rt_tbl`; that it fails is only logged. -/
def delRtTbl (tbl : Nat) : RtState :=
  let id := (s.tbls tbl).id
  if s.idFind id = none then s
  else (s.unlistRtTbl (s.tbls tbl).ip tbl).idRemove id

/-- `list_del` and `rule_cnt--` -/
def listDelRule (tbl entry : Nat) : RtState :=
  let table := s.tbls tbl
  s.setTbl tbl { table with rules := table.rules.erase entry, ruleCnt := table.ruleCnt - 1 }

def forgetDeletedHdr (entry : Nat) : RtState :=
  let rule := s.entries entry
  match rule.hdr, rule.procCtx with
  | some _, _ =>
    if s.findHdr rule.rule.hdrHdl = none then s.setEntry entry { rule with hdr := none } else s
  | none, some _ =>
    if s.findProcCtx rule.rule.hdrProcCtxHdl = none then s.setEntry entry { rule with procCtx := none }
    else s
  | none, none => s

def hdrOf (entry : Nat) : Option HdrRef := (s.entries entry).target

def releaseHdrOf (entry : Nat) : RtState :=
  match s.hdrOf entry with
  | some ref => if s.checkIdrIfFreed (.hdr ref) then s else s.releaseHdr ref
  | none => s

def freeRule (entry : Nat) : RtState :=
  { s.idRemove (s.entries entry).id with live := s.live.erase entry }

end RtState

/-! # Operations on routing tables

What the calls do with one rule or one table.  A call with several rules is one such operation after another.
-/

namespace RtState

variable (s : RtState)

def ruleSupported (cfg : RtConfig) (env : RtEnv) (rule : RtRule) : Bool :=
  if cfg.hwAtLeast45 then !rule.enableStats || rule.cntIdx = 0 ||
      (rule.cntIdx ≤ ipaFltRtHwCounter && env.usedHw (rule.cntIdx - 1))
  else !rule.coalesce && !rule.enableStats

/-- `__ipa_rt_validate_hndls`: the header and the processing context that the rule points at. -/
def validateHndls (cfg : RtConfig) (env : RtEnv) (rule : RtRule) : Option (Option Nat × Option Nat) :=
  if rule.hdrHdl ≠ 0 ∧ rule.hdrProcCtxHdl ≠ 0 then none
  else if !ruleSupported cfg env rule then none
  else if rule.hdrHdl ≠ 0 then (s.findHdr rule.hdrHdl).map fun hdr => (some hdr, none)
  else if rule.hdrProcCtxHdl ≠ 0 then (s.findProcCtx rule.hdrProcCtxHdl).map fun procCtx => (none, some procCtx)
  else some (none, none)

/-- `__ipa_rt_validate_rule_id` -/
def validateRuleId (cfg : RtConfig) (ruleId : Nat) : Bool :=
  ruleId = 0 || (cfg.ruleIdHiBit ≤ ruleId && ruleId < 2 * cfg.ruleIdHiBit - 1)

/-- `__ipa_create_rt_entry` -/
def createRtEntry (env : RtEnv) (rule : RtRule) (tbl : Nat) (hdr procCtx : Option Nat)
    (ruleId : Nat) (user : Bool) : Option (RtState × Nat) :=
  match env.entryAddr with
  | none => none
  | some entry =>
    if ruleId = 0 ∧ !env.ruleId then none
    else let s := s.setEntry entry { rule, tbl, hdr, procCtx, ipacmInstalled := user, id := 0 }
      some ({ s with live := entry :: s.live }, entry)

def holdHdr (ref : HdrRef) : RtState := s.setHdrRefCnt ref (s.hdrRefCnt ref + 1)

def dropHdr (ref : HdrRef) : RtState := s.setHdrRefCnt ref (s.hdrRefCnt ref - 1)

def holdHdrIf : Option HdrRef → RtState
  | some ref => s.holdHdr ref
  | none => s

def holdHdrOf (entry : Nat) : RtState := s.holdHdrIf (s.hdrOf entry)

def dropHdrOf (entry : Nat) : RtState :=
  match s.hdrOf entry with
  | some ref => s.dropHdr ref
  | none => s

def dropEntry (tbl entry : Nat) : RtState :=
  let table := s.tbls tbl
  { s.setTbl tbl { table with rules := table.rules.erase entry } with live := s.live.erase entry }

/-- `__ipa_finish_rt_rule_add`.  Where no handle is granted the count of rules stays. -/
def finishRtRuleAdd (env : RtEnv) (tbl entry : Nat) : RtState × Option Nat :=
  let table := s.tbls tbl
  if table.ruleCnt < ipaRuleCntMax then let s := s.setTbl tbl { table with ruleCnt := table.ruleCnt + 1 }
    let s := s.holdHdrOf entry
    match env.entryId with
    | none => ((s.dropHdrOf entry).dropEntry tbl entry, none)
    | some id =>
      let s := s.setEntry entry { s.entries entry with id }
      ({ s with idr := (id, .rtRule entry) :: s.idr }, some id)
  else (s.dropEntry tbl entry, none)

def isDflt (tbl : Nat) : Bool := (s.tbls tbl).name = ipaDfltRtTblName

/-- `__ipa_add_rt_rule`.  A table that was made for the rule stays where the rule is given up. -/
def addRtRule (cfg : RtConfig) (env : RtEnv) (ip : IpaIpType) (name : List Char) (rule : RtRule)
    (atRear : Bool) (ruleId : Nat) (user : Bool) : RtState × Option Nat :=
  match s.validateHndls cfg env rule with
  | none => (s, none)
  | some (hdr, procCtx) =>
    if !validateRuleId cfg ruleId then (s, none)
    else match s.addRtTbl cfg env ip name with
      | (s, none) => (s, none)
      | (s, some tbl) =>
        if s.isDflt tbl ∧ 0 < (s.tbls tbl).ruleCnt then (s, none)
        else match s.createRtEntry env rule tbl hdr procCtx ruleId user with
          | none => (s, none)
          | some (s, entry) =>
            let table := s.tbls tbl
            let rules := if atRear then table.rules ++ [entry] else entry :: table.rules
            (s.setTbl tbl { table with rules }).finishRtRuleAdd env tbl entry

def insertAfter (place entry : Nat) : List Nat → List Nat
  | [] => []
  | first :: rest =>
    if first = place then first :: entry :: rest else first :: insertAfter place entry rest

/-- `ipa3_add_rt_rule_after` -/
def addRtRuleAfter (cfg : RtConfig) (env : RtEnv) (ip : IpaIpType) (name : List Char)
    (rule : RtRule) (addAfterHdl : Nat) : RtState × Option Nat :=
  match s.findRtTbl ip name, s.idFind addAfterHdl with
  | some tbl, some (.rtRule place) =>
    if (s.tbls tbl).ruleCnt = 0 ∨ (s.entries place).tbl ≠ tbl ∨ s.isDflt tbl then (s, none)
    else match s.validateHndls cfg env rule with
      | none => (s, none)
      | some (hdr, procCtx) =>
        match s.createRtEntry env rule tbl hdr procCtx 0 true with
        | none => (s, none)
        | some (s, entry) =>
          let table := s.tbls tbl
          (s.setTbl tbl { table with rules := insertAfter place entry table.rules
            }).finishRtRuleAdd env tbl entry
  | _, _ => (s, none)

/-- `__ipa3_del_rt_rule` -/
def delRtRule (env : RtEnv) (ruleHdl : Nat) : RtState × Bool :=
  match s.idFind ruleHdl with
  | some (.rtRule entry) =>
    let tbl := (s.entries entry).tbl
    if !s.checkIdrIfFreed (.rtRule entry) ∧ s.isDflt tbl ∧ (s.tbls tbl).ruleCnt = 1 ∧ !env.deepsleep then (s, false)
    else let s := s.forgetDeletedHdr entry
      let s := s.releaseHdrOf entry
      let s := s.listDelRule tbl entry
      let s := if (s.tbls tbl).ruleCnt = 0 ∧ (s.tbls tbl).refCnt = 0 then s.delRtTbl tbl else s
      (s.freeRule entry, true)
  | _ => (s, false)

def hdrDeleted (entry : Nat) : Bool :=
  match s.hdrOf entry with
  | some ref =>
    let rule := (s.entries entry).rule
    let hdl := match ref with
      | .hdr _ => rule.hdrHdl
      | .procCtx _ => rule.hdrProcCtxHdl
    (s.findLike ref hdl).isNone || s.checkIdrIfFreed (.hdr ref)
  | none => false

/-- `__ipa_mdfy_rt_rule` -/
def mdfyRtRule (cfg : RtConfig) (env : RtEnv) (rule : RtRule) (rtRuleHdl : Nat) : RtState × Bool :=
  match s.validateHndls cfg env rule, s.idFind rtRuleHdl with
  | some (hdr, procCtx), some (.rtRule entry) =>
    if !s.checkIdrIfFreed (.rtRule entry) ∧ s.isDflt (s.entries entry).tbl then (s, false)
    else if s.hdrDeleted entry then (s, false)
    else let s := s.dropHdrOf entry
      let s := s.setEntry entry { s.entries entry with rule, hdr, procCtx }
      let s := s.holdHdrIf (hdr.map .hdr)
      (s.holdHdrIf (procCtx.map .procCtx), true)
  | _, _ => (s, false)

/-- `ipa3_get_rt_tbl` -/
def getRtTbl (ip : IpaIpType) (name : List Char) : RtState × Bool :=
  match s.findRtTbl ip name with
  | none => (s, false)
  | some tbl =>
    let table := s.tbls tbl
    if table.refCnt = u32Max then (s, false)
    else (s.setTbl tbl { table with refCnt := table.refCnt + 1 }, true)

def dropTbl (tbl count : Nat) : RtState :=
  let table := s.tbls tbl
  s.setTbl tbl { table with refCnt := table.refCnt - count }

/-- `ipa_put_rt_tbl` -/
def putRtTbl (rtTblHdl : Nat) : RtState × Bool :=
  match s.idFind rtTblHdl with
  | some (.rtTbl tbl) =>
    if (s.tbls tbl).refCnt = 0 then (s, false)
    else let s := s.dropTbl tbl 1
      if (s.tbls tbl).refCnt = 0 ∧ (s.tbls tbl).ruleCnt = 0 then (s.delRtTbl tbl, true)
      else (s, true)
  | _ => (s, false)

def reapRtTbls (ip : IpaIpType) : RtState := s.setSet ip { s.sets ip with reapRtTblList := [] }

/-- The rules of a table; `none` where a rule has lost its handle. -/
def resetRules (cfg : RtConfig) (ip : IpaIpType) (userOnly : Bool) (tbl : Nat) :
    List Nat → RtState → Bool → RtState × Option Bool
  | [], s, tblUser => (s, some tblUser)
  | entry :: rest, s, tblUser =>
    if s.idFind (s.entries entry).id = none then (s, none)
    else let tblUser := tblUser || (s.entries entry).ipacmInstalled
      if (s.tbls tbl).idx = cfg.appsRtIndexLo ip ∧ (s.tbls tbl).ruleCnt = 1 then
        resetRules cfg ip userOnly tbl rest s tblUser
      else if !userOnly ∨ (s.entries entry).ipacmInstalled then let s := s.forgetDeletedHdr entry
        let s := s.listDelRule tbl entry
        let s := s.releaseHdrOf entry
        resetRules cfg ip userOnly tbl rest (s.freeRule entry) tblUser
      else resetRules cfg ip userOnly tbl rest s tblUser

def resetTbls (cfg : RtConfig) (ip : IpaIpType) (userOnly : Bool) : List Nat → RtState → RtState × Bool
  | [], s => (s, true)
  | tbl :: rest, s =>
    match resetRules cfg ip userOnly tbl (s.tbls tbl).rules s false with
    | (s, none) => (s, false)
    | (s, some tblUser) =>
      let id := (s.tbls tbl).id
      if s.idFind id = none then (s, false)
      else if (s.tbls tbl).idx ≠ cfg.appsRtIndexLo ip ∧ (!userOnly ∨ tblUser) then
        resetTbls cfg ip userOnly rest ((s.unlistRtTbl ip tbl).idRemove id)
      else resetTbls cfg ip userOnly rest s

/-- `ipa3_reset_rt`; the reset of the filtering tables that comes first drops references to routing
tables. -/
def resetRt (cfg : RtConfig) (ip : IpaIpType) (userOnly : Bool) (fltDrops : Nat → Nat) : RtState × Bool :=
  let s := { s with tbls := fun tbl => { s.tbls tbl with refCnt := (s.tbls tbl).refCnt - fltDrops tbl } }
  resetTbls cfg ip userOnly (s.sets ip).headRtTblList s

end RtState

inductive RtAction where
  | addRtRule (env : RtEnv) (ip : IpaIpType) (name : List Char) (rule : RtRule) (atRear : Bool)
      (ruleId : Nat) (user : Bool)
  | addRtRuleAfter (env : RtEnv) (ip : IpaIpType) (name : List Char) (rule : RtRule) (addAfterHdl : Nat)
  | delRtRule (env : RtEnv) (ruleHdl : Nat)
  | mdfyRtRule (env : RtEnv) (rule : RtRule) (rtRuleHdl : Nat)
  | getRtTbl (ip : IpaIpType) (name : List Char)
  | putRtTbl (rtTblHdl : Nat)
  | resetRt (ip : IpaIpType) (userOnly : Bool) (fltDrops : Nat → Nat)
  | reap (ip : IpaIpType)
  | fltGet (tbl : Nat)
  | fltPut (tbl : Nat)
  | newHdr (ref : HdrRef) (id : Nat)
  | getHdr (ref : HdrRef)
  | putHdr (ref : HdrRef)

namespace RtState

variable (s : RtState)

def listed : List Nat := (s.sets .v4).headRtTblList ++ (s.sets .v6).headRtTblList

def reaped : List Nat := (s.sets .v4).reapRtTblList ++ (s.sets .v6).reapRtTblList

def idFree (id : Nat) : Bool := id ∉ s.idr.map Prod.fst

def grantable (env : RtEnv) : Bool :=
  env.tblAddr.all (fun tbl => tbl ∉ s.listed ∧ tbl ∉ s.reaped) &&
    env.entryAddr.all (fun entry => entry ∉ s.live) &&
    env.tblId.all s.idFree && env.entryId.all s.idFree && (env.tblId.isNone || env.tblId ≠ env.entryId)

def cutName (name : List Char) : List Char := name.take (ipaResourceNameMax - 1)

def step (cfg : RtConfig) (s : RtState) : RtAction → Option RtState
  | .addRtRule env ip name rule atRear ruleId user =>
    if s.grantable env then some (s.addRtRule cfg env ip (cutName name) rule atRear ruleId user).1
    else none
  | .addRtRuleAfter env ip name rule addAfterHdl =>
    if s.grantable env then some (s.addRtRuleAfter cfg env ip (cutName name) rule addAfterHdl).1
    else none
  | .delRtRule env ruleHdl => some (s.delRtRule env ruleHdl).1
  | .mdfyRtRule env rule rtRuleHdl => some (s.mdfyRtRule cfg env rule rtRuleHdl).1
  | .getRtTbl ip name => some (s.getRtTbl ip (cutName name)).1
  | .putRtTbl rtTblHdl => some (s.putRtTbl rtTblHdl).1
  | .resetRt ip userOnly fltDrops => some (s.resetRt cfg ip userOnly fltDrops).1
  | .reap ip => some (s.reapRtTbls ip)
  | .fltGet tbl =>
    if tbl ∈ s.listed then some (s.setTbl tbl { s.tbls tbl with refCnt := (s.tbls tbl).refCnt + 1 })
    else none
  | .fltPut tbl => if tbl ∈ s.listed ∧ (s.tbls tbl).refCnt ≠ 0 then some (s.dropTbl tbl 1) else none
  | .newHdr ref id =>
    if s.idFree id ∧ ref ∉ s.hdrs then some { s with
        idr := (id, .hdr ref) :: s.idr
        hdrs := ref :: s.hdrs
        hdrId := Function.update s.hdrId ref id
        hdrRefCnt := Function.update s.hdrRefCnt ref 1
        hdrOthers := Function.update s.hdrOthers ref 1 }
    else none
  | .getHdr ref =>
    if ref ∈ s.hdrs then
      some { s.holdHdr ref with hdrOthers := Function.update s.hdrOthers ref (s.hdrOthers ref + 1) }
    else none
  | .putHdr ref =>
    if ref ∈ s.hdrs ∧ s.hdrOthers ref ≠ 0 then
      let s := { s with hdrOthers := Function.update s.hdrOthers ref (s.hdrOthers ref - 1) }
      some (s.releaseHdr ref)
    else none

def init (cfg : RtConfig) : RtState where
  idr := []
  tbls := fun _ =>
    { name := [], ip := .v4, idx := 0, ruleCnt := 0, refCnt := 0, rules := [], inSys := false, id := 0 }
  entries := fun _ =>
    { rule := ⟨0, 0, false, false, 0⟩, tbl := 0, hdr := none, procCtx := none, ipacmInstalled := false
      id := 0 }
  live := []
  sets := fun ip =>
    { headRtTblList := []
      tblCnt := 0
      rtIdxBitmap := fun idx => cfg.modemRtIndexLo ip ≤ idx ∧ idx ≤ cfg.modemRtIndexHi ip
      reapRtTblList := [] }
  hdrs := []
  hdrId := fun _ => 0
  hdrRefCnt := fun _ => 0
  hdrOthers := fun _ => 0

end RtState

end KernelModules.IpaRouting

import KernelModules.Wlan.Fragment

namespace KernelModules.Wlan

open Data

theorem hdrlen_eq (isSubelem : Bool) (subelemfragid : BitVec 8) :
    (wlanGetElemunitInfo isSubelem subelemfragid).hdrlen = 2 := by
  cases isSubelem <;> rfl

theorem elemunitInfo_eq (isSubelem : Bool) (subelemfragid : BitVec 8) :
    (wlanGetElemunitInfo isSubelem subelemfragid).maxpayloadlen = 255 ∧
      (wlanGetElemunitInfo isSubelem subelemfragid).idPos = 0 ∧
      (wlanGetElemunitInfo isSubelem subelemfragid).lenPos = 1 ∧
      (wlanGetElemunitInfo isSubelem subelemfragid).hdrlen = 2 := by
  cases isSubelem <;> exact ⟨rfl, rfl, rfl, rfl⟩

structure Successorfrag where
  place : Nat
  totallen : Nat
  payloadlen : Nat

/-- `wlan_get_elemsubelem_successorfrag`: the fragment after an element unit, if there is
one. -/
def wlanGetElemsubelemSuccessorfrag (memory : ByteMemory) (isSubelem : Bool)
    (subelemfragid : BitVec 8) (curr buff buffMaxsize : Nat) : Except QdfError (Option Successorfrag) :=
  let info := wlanGetElemunitInfo isSubelem subelemfragid
  let currLen := (memory (curr + info.lenPos)).toNat
  let next := curr + (info.hdrlen + currLen)
  let nextLen := (memory (next + info.lenPos)).toNat
  if buffMaxsize = 0 then .error .eInval
  else if buff + buffMaxsize < curr + info.hdrlen then .error .eProto
  else if buff + buffMaxsize < next then .error .eProto
  -- the end of the buffer
  else if buff + buffMaxsize = next then .ok none
  else if buff + buffMaxsize < next + info.hdrlen then .error .eProto
  else if buff + buffMaxsize < next + (info.hdrlen + nextLen) then .error .eProto
  else if memory (next + info.idPos) ≠ info.fragid then .ok none
  else if currLen ≠ info.maxpayloadlen then .error .eProto
  else if nextLen = 0 then .error .eProto
  else .ok (some ⟨next, info.hdrlen + nextLen, nextLen⟩)

theorem successorfrag_advances
    (found : wlanGetElemsubelemSuccessorfrag memory isSubelem subelemfragid curr buff buffMaxsize =
      .ok (some frag)) : curr < frag.place ∧ frag.place < buff + buffMaxsize := by
  have hdr := hdrlen_eq isSubelem subelemfragid
  unfold wlanGetElemsubelemSuccessorfrag at found
  iterate 9 rw [ite_eq_iff] at found
  simp only [reduceCtorEq, and_false, false_or, Except.ok.injEq, Option.some.injEq] at found
  obtain ⟨-, -, -, -, room, -, -, -, -, rfl⟩ := found
  dsimp only
  omega

structure FragseqInfo where
  totallen : Nat
  payloadlen : Nat

/-- The loop of `wlan_get_elemsubelem_fragseq_info`, from the element unit `curr` that the two
lengths already count. -/
def fragseqInfoLoop (memory : ByteMemory) (isSubelem : Bool) (subelemfragid : BitVec 8)
    (buff buffMaxsize curr : Nat) (currlens : FragseqInfo) : Except QdfError FragseqInfo :=
  match _found : wlanGetElemsubelemSuccessorfrag memory isSubelem subelemfragid curr buff
      buffMaxsize with
  | .error status => .error status
  | .ok none => .ok currlens
  | .ok (some frag) =>
    fragseqInfoLoop memory isSubelem subelemfragid buff buffMaxsize frag.place
      ⟨currlens.totallen + frag.totallen, currlens.payloadlen + frag.payloadlen⟩
termination_by buff + buffMaxsize - curr
decreasing_by
  have advances := successorfrag_advances _found
  omega

/-- The payload length of the lead element unit at `curr`. -/
def leadPayloadlen (memory : ByteMemory) (isSubelem : Bool) (info : ElemunitInfo) (curr : Nat) : Nat :=
  if isExtnElem isSubelem (memory (curr + info.idPos)) then (memory (curr + info.lenPos)).toNat - 1
  else (memory (curr + info.lenPos)).toNat

/-- `wlan_get_elemsubelem_fragseq_info`: the lengths, if the buffer starts with a fragment
sequence. -/
def wlanGetElemsubelemFragseqInfo (memory : ByteMemory) (isSubelem : Bool)
    (subelemfragid : BitVec 8) (buff : Option Nat) (buffMaxsize : Nat) : Except QdfError (Option FragseqInfo) :=
  let info := wlanGetElemunitInfo isSubelem 0
  match buff with
  | none => .error .eNullValue
  | some buff =>
    let currTotallen := info.hdrlen + (memory (buff + info.lenPos)).toNat
    if buffMaxsize = 0 then .error .eInval
    else if buff + buffMaxsize < buff + info.hdrlen then .error .eProto
    else if buff + buffMaxsize < buff + currTotallen then .error .eProto
    else match wlanGetElemsubelemSuccessorfrag memory isSubelem subelemfragid buff buff
          buffMaxsize with
      | .error status => .error status
      | .ok none => .ok none
      | .ok (some frag) =>
        (fragseqInfoLoop memory isSubelem subelemfragid buff buffMaxsize frag.place
          ⟨currTotallen + frag.totallen, leadPayloadlen memory isSubelem info buff + frag.payloadlen⟩).map some

/-- What the loop of `wlan_defrag_elemsubelem_fragseq` changes: the memory, where it reads and writes, what is left
of the buffer and the payload so far. -/
structure DefragState where
  memory : ByteMemory
  curr : Nat
  dst : Nat
  fragbuffRemlen : Nat
  defragpayloadCurrlen : Nat

/-- The loop of `wlan_defrag_elemsubelem_fragseq`.  Moving and copying do the same here. -/
def defragLoop (isSubelem : Bool) (subelemfragid : BitVec 8) (state : DefragState) : DefragState :=
  let info := wlanGetElemunitInfo isSubelem subelemfragid
  if state.memory (state.curr + info.idPos) = info.fragid then
    let payloadlen := (state.memory (state.curr + info.lenPos)).toNat
    let totallen := info.hdrlen + payloadlen
    let moved := state.memory.move state.dst (state.curr + info.hdrlen) payloadlen
    let fragbuffRemlen := state.fragbuffRemlen - totallen
    let defragpayloadCurrlen := state.defragpayloadCurrlen + payloadlen
    if fragbuffRemlen = 0 then { state with
        memory := moved
        fragbuffRemlen := fragbuffRemlen
        defragpayloadCurrlen := defragpayloadCurrlen }
    else defragLoop isSubelem subelemfragid {
        memory := moved
        curr := state.curr + totallen
        dst := state.dst + payloadlen
        fragbuffRemlen := fragbuffRemlen
        defragpayloadCurrlen := defragpayloadCurrlen }
  else state
termination_by state.fragbuffRemlen
decreasing_by
  have header := hdrlen_eq isSubelem subelemfragid
  omega

/-- `wlan_defrag_elemsubelem_fragseq`: the memory and the length of the payload. -/
def wlanDefragElemsubelemFragseq (memory : ByteMemory) (inlineDefrag isSubelem : Bool)
    (subelemfragid : BitVec 8) (fragbuff : Option Nat) (fragbuffMaxsize : Nat)
    (defragbuff : Option Nat) (defragbuffMaxsize : Nat) : Except QdfError (ByteMemory × Nat) :=
  let info := wlanGetElemunitInfo isSubelem subelemfragid
  match fragbuff with
  | none => .error .eNullValue
  | some fragbuff =>
    if fragbuffMaxsize = 0 then .error .eInval
    else if !inlineDefrag && defragbuff.isNone then .error .eNullValue
    else if !inlineDefrag && decide (defragbuffMaxsize = 0) then .error .eInval
    else match wlanGetElemsubelemFragseqInfo memory isSubelem subelemfragid (some fragbuff)
          fragbuffMaxsize with
      | .error status => .error status
      | .ok none => .error .eInval
      | .ok (some lens) =>
        if !inlineDefrag && decide (defragbuffMaxsize < lens.payloadlen) then .error .eInval
        else let payloadlen := leadPayloadlen memory isSubelem info fragbuff
          let totallen := info.hdrlen + (memory (fragbuff + info.lenPos)).toNat
          let src :=
            if isExtnElem isSubelem (memory (fragbuff + info.idPos)) then fragbuff + info.hdrlen + 1
            else fragbuff + info.hdrlen
          let dst := if inlineDefrag then src else defragbuff.getD 0
          let lead := if inlineDefrag then memory else memory.move dst src payloadlen
          let swept := defragLoop isSubelem subelemfragid {
            memory := lead
            curr := fragbuff + totallen
            dst := dst + payloadlen
            fragbuffRemlen := fragbuffMaxsize - totallen
            defragpayloadCurrlen := payloadlen }
          let residual :=
            if inlineDefrag && decide (swept.fragbuffRemlen ≠ 0) then
              swept.memory.move swept.dst swept.curr swept.fragbuffRemlen
            else swept.memory
          .ok (residual, swept.defragpayloadCurrlen)

def wlanGetElemFragseqInfo (memory : ByteMemory) (elembuff : Option Nat) (elembuffMaxsize : Nat) :
    Except QdfError (Option FragseqInfo) :=
  wlanGetElemsubelemFragseqInfo memory false 0 elembuff elembuffMaxsize

def wlanGetSubelemFragseqInfo (memory : ByteMemory) (subelemfragid : BitVec 8)
    (subelembuff : Option Nat) (subelembuffMaxsize : Nat) : Except QdfError (Option FragseqInfo) :=
  wlanGetElemsubelemFragseqInfo memory true subelemfragid subelembuff subelembuffMaxsize

def wlanDefragElemFragseq (memory : ByteMemory) (inlineDefrag : Bool) (fragbuff : Option Nat)
    (fragbuffMaxsize : Nat) (defragbuff : Option Nat) (defragbuffMaxsize : Nat) :
    Except QdfError (ByteMemory × Nat) :=
  wlanDefragElemsubelemFragseq memory inlineDefrag false 0 fragbuff fragbuffMaxsize defragbuff
    defragbuffMaxsize

def wlanDefragSubelemFragseq (memory : ByteMemory) (inlineDefrag : Bool)
    (subelemfragid : BitVec 8) (fragbuff : Option Nat) (fragbuffMaxsize : Nat)
    (defragbuff : Option Nat) (defragbuffMaxsize : Nat) : Except QdfError (ByteMemory × Nat) :=
  wlanDefragElemsubelemFragseq memory inlineDefrag true subelemfragid fragbuff fragbuffMaxsize
    defragbuff defragbuffMaxsize

/-! ## The layout of a fragment sequence

The information, an extension id included, is cut into units of 255 bytes and what is left.  Each stands behind a
header, so they begin 257 bytes apart.
-/

def lastUnit (total : Nat) : Nat := (total - 1) / 255

def unitLen (total unit : Nat) : Nat := min 255 (total - 255 * unit)

def fragseqLen (total : Nat) : Nat := total + 2 * (lastUnit total + 1)

structure FragSeq (memory : ByteMemory) (base total : Nat) (id fragid : BitVec 8)
    (content : Nat → BitVec 8) : Prop where
  leadId : memory base = id
  fragids : ∀ unit, 1 ≤ unit → unit ≤ lastUnit total → memory (base + 257 * unit) = fragid
  lens : ∀ unit, unit ≤ lastUnit total → memory (base + 257 * unit + 1) = BitVec.ofNat 8 (unitLen total unit)
  body : ∀ unit, unit ≤ lastUnit total → ∀ offset, offset < unitLen total unit →
    memory (base + 257 * unit + 2 + offset) = content (255 * unit + offset)

theorem lastUnit_bounds (pos : 0 < total) : 255 * lastUnit total < total ∧ total ≤ 255 * lastUnit total + 255 := by
  unfold lastUnit
  omega

theorem unitLen_full (before : unit < lastUnit total) : unitLen total unit = 255 := by
  unfold unitLen
  unfold lastUnit at before
  omega

theorem unitLen_last (pos : 0 < total) : unitLen total (lastUnit total) = total - 255 * lastUnit total := by
  obtain ⟨low, high⟩ := lastUnit_bounds pos
  unfold unitLen
  omega

theorem unitLen_bounds (pos : 0 < total) (lt : unit ≤ lastUnit total) :
    0 < unitLen total unit ∧ unitLen total unit ≤ 255 := by
  obtain ⟨low, -⟩ := lastUnit_bounds pos
  unfold unitLen
  omega

theorem creationparams_eq {id : BitVec 8} (small : payloadlen < 2 ^ 32)
    (required : wlanGetElemsubelemFragseqCreationparams isSubelem id payloadlen = some params)
    (extended : total = payloadlen + if isExtnElem isSubelem id then 1 else 0) :
    255 < total ∧ params.expectedFragseqlen = fragseqLen total ∧ params.prepayloadLeadbytes = 2 + (total - payloadlen) ∧
      params.numMaxsizefrags = total / 255 ∧ params.smallerfragSize = total % 255 ∧
      params.extrahdrbytes = 2 * lastUnit total := by
  have hdr := hdrlen_eq isSubelem 0
  have maximum : (wlanGetElemunitInfo isSubelem 0).maxpayloadlen = 255 := by
    cases isSubelem <;> rfl
  unfold wlanGetElemsubelemFragseqCreationparams at required
  dsimp only at required
  rw [hdr, maximum] at required
  unfold fragseqLen lastUnit
  generalize isExtnElem isSubelem id = extn at required extended
  cases extn <;> simp only [if_true, Bool.false_eq_true, if_false] at required extended
  all_goals
    split at required
    · cases required
    · rw [Option.some.injEq] at required
      subst required extended
      dsimp only
      refine ⟨by omega, ?_, by omega, by omega, by omega, ?_⟩
      · split <;> omega
      · split <;> omega

end KernelModules.Wlan

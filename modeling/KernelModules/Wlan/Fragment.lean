import KernelModules.Data.ByteMemory

namespace KernelModules.Wlan

open Data

/-! # Fragments of elements and subelements

What is too long for one element goes into a lead element with the id, and fragment elements after it.  A unit is an
element or a subelement.  Pointers are addresses, or nothing; what is stored through out parameters is the result.
-/

/-- The statuses of `QDF_STATUS` that the functions return as errors. -/
inductive QdfError where
  | eNullValue
  | eInval
  | eProto

def wlanElemidFragment : BitVec 8 := 242

def wlanElemidExtnElem : BitVec 8 := 255

def wlanMaxIeLen : Nat := 255

def wlanMaxSubelemLen : Nat := 255

/-- What `wlan_get_elemunit_info` tells of an element unit. -/
structure ElemunitInfo where
  fragid : BitVec 8
  hdrlen : Nat
  maxpayloadlen : Nat
  idPos : Nat
  lenPos : Nat
  idextPos : Option Nat

def wlanGetElemunitInfo (isSubelem : Bool) (subelemfragid : BitVec 8) : ElemunitInfo :=
  if isSubelem then
    { fragid := subelemfragid
      hdrlen := 2
      maxpayloadlen := wlanMaxSubelemLen
      idPos := 0
      lenPos := 1
      idextPos := none }
  else
    { fragid := wlanElemidFragment
      hdrlen := 2
      maxpayloadlen := wlanMaxIeLen
      idPos := 0
      lenPos := 1
      idextPos := some 2 }

def isExtnElem (isSubelem : Bool) (id : BitVec 8) : Bool := !isSubelem && id == wlanElemidExtnElem

structure FragseqParams where
  expectedFragseqlen : Nat
  prepayloadLeadbytes : Nat
  numMaxsizefrags : Nat
  smallerfragSize : Nat
  extrahdrbytes : Nat
deriving DecidableEq

/-- `wlan_get_elemsubelem_fragseq_creationparams`: nothing where no fragmentation is required.
The number of fragments is a `uint32_t`. -/
def wlanGetElemsubelemFragseqCreationparams (isSubelem : Bool) (id : BitVec 8)
    (payloadlen : Nat) : Option FragseqParams :=
  let info := wlanGetElemunitInfo isSubelem 0
  let extn := isExtnElem isSubelem id
  if payloadlen ≤ (if extn then info.maxpayloadlen - 1 else info.maxpayloadlen) then none
  else let numMaxsizefrags :=
      (if extn then (payloadlen + 1) / info.maxpayloadlen else payloadlen / info.maxpayloadlen) %
        2 ^ 32
    let smallerfragSize :=
      if extn then (payloadlen - (info.maxpayloadlen - 1)) % info.maxpayloadlen
      else payloadlen % info.maxpayloadlen
    -- the subtraction is one of `uint32_t` values
    let extrahdrbytes := (numMaxsizefrags + (2 ^ 32 - 1)) % 2 ^ 32 * info.hdrlen +
      (if smallerfragSize ≠ 0 then info.hdrlen else 0)
    let prepayloadLeadbytes := if extn then info.hdrlen + 1 else info.hdrlen
    some {
      expectedFragseqlen := prepayloadLeadbytes + payloadlen + extrahdrbytes
      prepayloadLeadbytes := prepayloadLeadbytes
      numMaxsizefrags := numMaxsizefrags
      smallerfragSize := smallerfragSize
      extrahdrbytes := extrahdrbytes }

/-- `wlan_get_elem_fragseq_requirements`: the required size of the buffer, where fragmentation
is required. -/
def wlanGetElemFragseqRequirements (elemid : BitVec 8) (payloadlen : Nat) : Option Nat :=
  (wlanGetElemsubelemFragseqCreationparams false elemid payloadlen).map
    FragseqParams.expectedFragseqlen

def wlanGetSubelemFragseqRequirements (subelemid : BitVec 8) (payloadlen : Nat) : Option Nat :=
  (wlanGetElemsubelemFragseqCreationparams true subelemid payloadlen).map
    FragseqParams.expectedFragseqlen

/-- What the loops of `wlan_create_elemsubelem_fragseq` read and do not change. -/
structure FragseqCreation where
  info : ElemunitInfo
  params : FragseqParams
  inlineFrag : Bool
  payloadbuff : Nat
  payloadbuffMaxsize : Nat
  payloadlen : Nat
  fragbuff : Nat

/-- Move or copy the fragment after `index` ones of the maximal size, and set its header.  Where it `carries` what
follows the payload, an inline move takes that along, up to what the shift leaves. -/
def FragseqCreation.transfer (creation : FragseqCreation) (memory : ByteMemory) (index size : Nat)
    (carries : Bool) (extrahdrbytesRemaining : Nat) : ByteMemory :=
  let offset := creation.info.hdrlen + index * creation.info.maxpayloadlen
  let src := creation.payloadbuff + offset
  let dst :=
    if creation.inlineFrag then src + extrahdrbytesRemaining
    else creation.fragbuff + offset + extrahdrbytesRemaining
  let payloadbuffShiftsize := if creation.inlineFrag && decide (dst > src) then dst - src else 0
  let bytesToTransfer :=
    if creation.inlineFrag && carries && decide (creation.payloadbuffMaxsize >
        creation.params.prepayloadLeadbytes + creation.payloadlen) then
      size + (creation.payloadbuffMaxsize - creation.params.prepayloadLeadbytes -
        creation.payloadlen - payloadbuffShiftsize)
    else size
  let currElemunitPtr := dst - creation.info.hdrlen
  ((memory.move dst src bytesToTransfer).set (currElemunitPtr + creation.info.idPos)
    creation.info.fragid).set (currElemunitPtr + creation.info.lenPos) (BitVec.ofNat 8 size)

def FragseqCreation.maxsizeLoop (creation : FragseqCreation) : Nat → Nat → ByteMemory → ByteMemory
  | i + 2, extrahdrbytesRemaining, memory =>
    creation.maxsizeLoop (i + 1) (extrahdrbytesRemaining - creation.info.hdrlen)
      (creation.transfer memory (i + 1) creation.info.maxpayloadlen
        (decide (i + 2 = creation.params.numMaxsizefrags) &&
          decide (creation.params.smallerfragSize = 0)) extrahdrbytesRemaining)
  | _, _, memory => memory

def FragseqCreation.leadHeader (creation : FragseqCreation) (extn : Bool) (id idext : BitVec 8)
    (memory : ByteMemory) : ByteMemory :=
  let curr := if creation.inlineFrag then creation.payloadbuff else creation.fragbuff
  let headed := (memory.set (curr + creation.info.idPos) id).set (curr + creation.info.lenPos)
    (BitVec.ofNat 8 creation.info.maxpayloadlen)
  match extn, creation.info.idextPos with
  | true, some idextPos => headed.set (curr + idextPos) idext
  | _, _ => headed

/-- `wlan_create_elemsubelem_fragseq` once its arguments are checked.  The counter of the loop
is a `uint16_t`. -/
def FragseqCreation.create (creation : FragseqCreation) (extn : Bool) (id idext : BitVec 8)
    (memory : ByteMemory) : ByteMemory :=
  let params := creation.params
  let smaller :=
    if params.smallerfragSize ≠ 0 then creation.transfer memory params.numMaxsizefrags params.smallerfragSize true
        params.extrahdrbytes
    else memory
  let remaining :=
    if params.smallerfragSize ≠ 0 then params.extrahdrbytes - creation.info.hdrlen
    else params.extrahdrbytes
  let maxsize := creation.maxsizeLoop (params.numMaxsizefrags % 2 ^ 16) remaining smaller
  let lead :=
    if creation.inlineFrag then maxsize
    else maxsize.move (creation.fragbuff + creation.info.hdrlen)
      (creation.payloadbuff + creation.info.hdrlen) creation.info.maxpayloadlen
  creation.leadHeader extn id idext lead

/-- `wlan_create_elemsubelem_fragseq`: the memory and the length of the fragment sequence. -/
def wlanCreateElemsubelemFragseq (memory : ByteMemory) (inlineFrag isSubelem : Bool)
    (id idext subelemfragid : BitVec 8) (payloadbuff : Option Nat)
    (payloadbuffMaxsize payloadlen : Nat) (fragbuff : Option Nat) (fragbuffMaxsize : Nat) :
    Except QdfError (ByteMemory × Nat) :=
  match wlanGetElemsubelemFragseqCreationparams isSubelem id payloadlen with
  | none => .error .eInval
  | some params =>
    match payloadbuff with
    | none => .error .eNullValue
    | some payloadbuff =>
      if payloadbuffMaxsize = 0 then .error .eInval
      else if payloadbuffMaxsize < payloadlen then .error .eInval
      else if inlineFrag && decide (payloadbuffMaxsize < params.expectedFragseqlen) then .error .eInval
      else if !inlineFrag && fragbuff.isNone then .error .eNullValue
      else if !inlineFrag && decide (fragbuffMaxsize = 0) then .error .eInval
      else if !inlineFrag && decide (fragbuffMaxsize < params.expectedFragseqlen) then .error .eInval
      else let creation : FragseqCreation := {
          info := wlanGetElemunitInfo isSubelem subelemfragid
          params := params
          inlineFrag := inlineFrag
          payloadbuff := payloadbuff
          payloadbuffMaxsize := payloadbuffMaxsize
          payloadlen := payloadlen
          fragbuff := fragbuff.getD 0 }
        .ok (creation.create (isExtnElem isSubelem id) id idext memory, params.expectedFragseqlen)

def wlanCreateElemFragseq (memory : ByteMemory) (inlineFrag : Bool) (elemid elemidext : BitVec 8)
    (payloadbuff : Option Nat) (payloadbuffMaxsize payloadlen : Nat) (fragbuff : Option Nat)
    (fragbuffMaxsize : Nat) : Except QdfError (ByteMemory × Nat) :=
  wlanCreateElemsubelemFragseq memory inlineFrag false elemid elemidext 0 payloadbuff
    payloadbuffMaxsize payloadlen fragbuff fragbuffMaxsize

def wlanCreateSubelemFragseq (memory : ByteMemory) (inlineFrag : Bool)
    (subelemid subelemfragid : BitVec 8) (payloadbuff : Option Nat)
    (payloadbuffMaxsize payloadlen : Nat) (fragbuff : Option Nat) (fragbuffMaxsize : Nat) :
    Except QdfError (ByteMemory × Nat) :=
  wlanCreateElemsubelemFragseq memory inlineFrag true subelemid 0 subelemfragid payloadbuff
    payloadbuffMaxsize payloadlen fragbuff fragbuffMaxsize

end KernelModules.Wlan

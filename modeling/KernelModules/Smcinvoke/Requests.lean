import KernelModules.Data.RingStream
import KernelModules.Smcinvoke.Messages

namespace KernelModules.Smcinvoke

open List hiding after all count head sum
open Data
open ByteMemory hiding load

/-! # Invoke requests

Buffers and objects are laid out behind a header and a table, in a buffer whose size is computed beforehand.
-/

def objectCountsNumBuffers (counts : Nat) : Nat := objectCountsNumBi counts + objectCountsNumBo counts

/-- `PAGE_ALIGN` of a `size_t`, for pages of 4096 bytes -/
def pageAlign (value : Nat) : Nat := (value + 4095) % 18446744073709551616 / 4096 * 4096

def argTableEnd (counts : Nat) : Nat := 12 + objectCountsTotal counts * 8

/-- The loop of `compute_in_msg_size` -/
def addSizes (size : Nat → Nat) : List Nat → Nat → Nat
  | [], totalSize => totalSize
  | index :: rest, totalSize =>
    addSizes size rest (sizeAdd totalSize (sizeAlign (size index) smcinvokeArgsAlignSize))

def computeInMsgSize (counts : Nat) (size : Nat → Nat) : Nat :=
  pageAlign (addSizes size (List.range' 0 (objectCountsNumBuffers counts)) ((argTableEnd counts + 7) / 8 * 8))

/-- `args_buf`, and what the calls that it takes answer -/
structure Arguments where
  size : Nat → Nat
  data : Nat → ByteMemory
  copyFails : Nat → Bool
  /-- `get_tzhandle_from_uhandle` -/
  tzhandle : Nat → Except Int Nat

structure Marshalled where
  ret : Int
  memory : ByteMemory
  offset : Nat

section MarshalIn

variable (bufSize : Nat) (arguments : Arguments)

/-- The loop over the input buffers, and the one over the output buffers, which copies nothing; `offset` is a
`uint32_t`. -/
def marshalBuffers (isInput : Bool) : List Nat → Nat → ByteMemory → Marshalled
  | [], offset, memory => ⟨0, memory, offset⟩
  | index :: rest, offset, memory =>
    let offset := u32 (sizeAlign offset smcinvokeArgsAlignSize)
    if offset > bufSize ∨ arguments.size index > sizeSub bufSize offset then ⟨einval, memory, offset⟩
    else
      let memory := (memory.store (invokeArg index) 4 offset).store (invokeArg index + 4) 4
        (arguments.size index)
      let later := u32 (offset + arguments.size index)
      if isInput then let memory := memory.copy (arguments.data index) offset 0 (arguments.size index)
        if arguments.copyFails index then ⟨einval, memory, offset⟩
        else marshalBuffers isInput rest later memory
      else marshalBuffers isInput rest later memory

def marshalObjects : List Nat → ByteMemory → Int × ByteMemory
  | [], memory => (0, memory)
  | index :: rest, memory =>
    match arguments.tzhandle index with
    | .error ret => (ret, memory)
    | .ok handle => marshalObjects rest (memory.store (invokeArg index) 4 handle)

end MarshalIn

def marshalInInvokeReq (memory : ByteMemory) (bufSize tzhandle op counts : Nat)
    (args : Option Arguments) : Int × ByteMemory :=
  let offset := u32 (argTableEnd counts)
  if bufSize < offset then (einval, memory)
  else let memory := ((memory.store 0 4 tzhandle).store 4 4 op).store 8 4 counts
    match args with
    | none => (0, memory)
    | some arguments =>
      let inputs := marshalBuffers bufSize arguments true
        (List.range' 0 (objectCountsNumBi counts)) offset memory
      if inputs.ret ≠ 0 then (inputs.ret, inputs.memory)
      else
        let outputs := marshalBuffers bufSize arguments false
          (List.range' (objectCountsIndexBo counts) (objectCountsNumBo counts)) inputs.offset inputs.memory
        if outputs.ret ≠ 0 then (outputs.ret, outputs.memory)
        else marshalObjects arguments
            (List.range' (objectCountsIndexOi counts) (objectCountsNumOi counts)) outputs.memory

/-- `process_invoke_req` has no arguments for a request that counts none. -/
def requestArgs (counts : Nat) (arguments : Arguments) : Option Arguments :=
  if objectCountsTotal counts = 0 then none else some arguments

def alignUp (value : Nat) : Nat := (value + 7) / 8 * 8

theorem le_alignUp : value ≤ alignUp value := by
  unfold alignUp
  omega

theorem alignUp_alignUp : alignUp (alignUp value) = alignUp value := by
  unfold alignUp
  omega

theorem alignUp_add (aligned : alignUp value = value) : alignUp (value + more) = value + alignUp more := by
  unfold alignUp at aligned ⊢
  omega

/-- Where the area of the buffer starts; that of the one behind the last is the true size. -/
def areaStart (counts : Nat) (size : Nat → Nat) : Nat → Nat
  | 0 => alignUp (argTableEnd counts)
  | index + 1 => areaStart counts size index + alignUp (size index)

section Sizes

variable {counts value : Nat} {size : Nat → Nat}

theorem sizeAlign_eq (bound : value ≤ sizeMax) :
    sizeAlign value smcinvokeArgsAlignSize = min (alignUp value) sizeMax := by
  unfold sizeAlign sizeAdd padSize alignUp sizeMax smcinvokeArgsAlignSize at *
  split <;> omega

theorem sizeAdd_eq : sizeAdd (min value sizeMax) (min more sizeMax) = min (value + more) sizeMax := by
  unfold sizeAdd
  split <;> omega

theorem areaStart_aligned (index : Nat) : alignUp (areaStart counts size index) = areaStart counts size index := by
  induction index with
  | zero => exact alignUp_alignUp
  | succ index ih =>
    rw [areaStart, alignUp_add ih, alignUp_alignUp]

theorem areaStart_mono (le : less ≤ value) : areaStart counts size less ≤ areaStart counts size value := by
  induction le with
  | refl => exact le_rfl
  | step _ ih => exact le_trans ih (Nat.le_add_right ..)

theorem argTableEnd_le_areaStart (index : Nat) : argTableEnd counts ≤ areaStart counts size index :=
  le_trans le_alignUp (areaStart_mono (Nat.zero_le index))

theorem area_end_le (lt : less < value) : areaStart counts size less + size less ≤ areaStart counts size value := by
  have next : areaStart counts size (less + 1) ≤ areaStart counts size value := areaStart_mono lt
  have padded := @le_alignUp (size less)
  rw [areaStart] at next
  omega

theorem addSizes_eq (sizes : ∀ index, size index ≤ sizeMax) :
    addSizes size (range' first count) (min (areaStart counts size first) sizeMax) =
      min (areaStart counts size (first + count)) sizeMax := by
  induction count generalizing first with
  | zero => rfl
  | succ count ih =>
    rw [range'_succ, addSizes, sizeAlign_eq (sizes first), sizeAdd_eq]
    rw [← areaStart, ih, add_right_comm, add_assoc]

theorem argTableEnd_le : argTableEnd counts ≤ 492 := by
  unfold argTableEnd objectCountsTotal objectCountsIndexOo objectCountsIndexOi objectCountsIndexBo
    objectCountsNumBi objectCountsNumBo objectCountsNumOi objectCountsNumOo
  omega

section

variable (sizes : ∀ index, size index ≤ sizeMax)
include sizes

theorem computeInMsgSize_eq : computeInMsgSize counts size =
      pageAlign (min (areaStart counts size (objectCountsNumBuffers counts)) sizeMax) := by
  have start : (argTableEnd counts + 7) / 8 * 8 = min (areaStart counts size 0) sizeMax := by
    have few := @argTableEnd_le counts
    unfold areaStart alignUp sizeMax
    omega
  unfold computeInMsgSize
  rw [start, addSizes_eq sizes, zero_add]

theorem areaStart_le_computeInMsgSize (computed : computeInMsgSize counts size ≠ 0) :
    areaStart counts size (objectCountsNumBuffers counts) ≤ computeInMsgSize counts size := by
  rw [computeInMsgSize_eq sizes] at computed ⊢
  unfold pageAlign sizeMax at *
  omega

theorem computeInMsgSize_eq_zero
    (large : 18446744073709547520 < areaStart counts size (objectCountsNumBuffers counts)) :
    computeInMsgSize counts size = 0 := by
  rw [computeInMsgSize_eq sizes]
  unfold pageAlign sizeMax
  omega

end

end Sizes

def SameOutside (counts : Nat) (size : Nat → Nat) (first last : Nat) (memory after : ByteMemory) : Prop :=
  ∀ place, (place < invokeArg first ∨ invokeArg last ≤ place) →
    (place < areaStart counts size first ∨ areaStart counts size last ≤ place) → after place = memory place

structure BufferPlaced (counts : Nat) (arguments : Arguments) (isInput : Bool) (memory : ByteMemory) (index : Nat) :
    Prop where
  offset : invokeOffset memory index = areaStart counts arguments.size index
  size : invokeSize memory index = arguments.size index
  bytes : isInput = true → ∀ byte, byte < arguments.size index →
    memory (areaStart counts arguments.size index + byte) = arguments.data index byte

section Loops

variable {counts first count last bufSize index offset : Nat} {size : Nat → Nat} {arguments : Arguments}
  {isInput : Bool} {memory after : ByteMemory}

theorem SameOutside.load (same : SameOutside counts size first last memory after)
    (tbl : place + bytes ≤ invokeArg first ∨ invokeArg last ≤ place)
    (areas : place + bytes ≤ areaStart counts size first ∨ areaStart counts size last ≤ place) :
    after.load place bytes = memory.load place bytes :=
  load_congr fun byte inside => same (place + byte) (by omega) (by omega)

theorem invokeArg_mono (le : less ≤ index) : invokeArg less ≤ invokeArg index := by
  unfold invokeArg
  omega

theorem invokeArg_le (le : index ≤ total) (all : total = objectCountsTotal counts) :
    invokeArg index ≤ areaStart counts size 0 := by
  unfold areaStart alignUp argTableEnd invokeArg
  omega

theorem BufferPlaced.later (placed : BufferPlaced counts arguments isInput memory index)
    (same : SameOutside counts arguments.size first last memory after) (before : index < first)
    (inTable : last ≤ objectCountsTotal counts) (ordered : first ≤ last) :
    BufferPlaced counts arguments isInput after index := by
  have start := @invokeArg_le counts first arguments.size _ (Nat.le_trans ordered inTable) rfl
  have entry : invokeArg index + 8 ≤ invokeArg first := by
    unfold invokeArg
    omega
  have area := @area_end_le counts first arguments.size index before
  have tbl := @invokeArg_le counts last arguments.size _ inTable rfl
  have behind := @areaStart_mono counts index arguments.size 0 (Nat.zero_le _)
  refine ⟨?_, ?_, fun input byte inside => ?_⟩
  · rw [invokeOffset, same.load (by omega) (by omega)]
    exact placed.offset
  · rw [invokeSize, same.load (by omega) (by omega)]
    exact placed.size
  · rw [same _ (by omega) (by omega)]
    exact placed.bytes input byte inside

theorem SameOutside.trans (left : SameOutside counts size first middle memory between)
    (right : SameOutside counts size middle last between after) (lower : first ≤ middle)
    (upper : middle ≤ last) : SameOutside counts size first last memory after := by
  intro place tbl areas
  have firstArg := invokeArg_mono lower
  have lastArg := invokeArg_mono upper
  have firstArea : areaStart counts size first ≤ areaStart counts size middle := areaStart_mono lower
  have lastArea : areaStart counts size middle ≤ areaStart counts size last := areaStart_mono upper
  rw [right place (by omega) (by omega), left place (by omega) (by omega)]

def placeBuffer (counts : Nat) (arguments : Arguments) (isInput : Bool) (memory : ByteMemory) (index : Nat) :
    ByteMemory :=
  let start := areaStart counts arguments.size index
  let memory := (memory.store (invokeArg index) 4 start).store (invokeArg index + 4) 4 (arguments.size index)
  if isInput then memory.copy (arguments.data index) start 0 (arguments.size index) else memory

theorem placeBuffer_outside (tbl : place < invokeArg index ∨ invokeArg (index + 1) ≤ place)
    (area : isInput = true → place < areaStart counts arguments.size index ∨
      areaStart counts arguments.size index + arguments.size index ≤ place) :
    placeBuffer counts arguments isInput memory index place = memory place := by
  have entry : invokeArg (index + 1) = invokeArg index + 8 := by
    unfold invokeArg
    omega
  unfold placeBuffer
  cases isInput with
  | true =>
    rw [if_pos rfl, copy_outside (area rfl), store_outside (by omega), store_outside (by omega)]
  | false =>
    rw [if_neg (by decide), store_outside (by omega), store_outside (by omega)]

theorem placeBuffer_same : SameOutside counts arguments.size index (index + 1) memory
      (placeBuffer counts arguments isInput memory index) := by
  intro place tbl areas
  have padded := @area_end_le counts (index + 1) arguments.size index (Nat.lt_succ_self _)
  exact placeBuffer_outside tbl fun _ => by omega

theorem placeBuffer_placed (inTable : index < objectCountsTotal counts)
    (offset : areaStart counts arguments.size index < 4294967296) (size : arguments.size index < 4294967296) :
    BufferPlaced counts arguments isInput (placeBuffer counts arguments isInput memory index) index := by
  have tbl := @invokeArg_le counts (index + 1) arguments.size _ inTable rfl
  have behind := @areaStart_mono counts index arguments.size 0 (Nat.zero_le _)
  have entry : invokeArg (index + 1) = invokeArg index + 8 := by
    unfold invokeArg
    omega
  have copied : ∀ place count, place + count ≤ invokeArg index + 8 →
      (placeBuffer counts arguments isInput memory index).load place count =
        ((memory.store (invokeArg index) 4 (areaStart counts arguments.size index)).store
          (invokeArg index + 4) 4 (arguments.size index)).load place count := by
    intro place count before
    cases isInput with
    | true => exact load_congr fun byte inside => copy_outside (by omega)
    | false => rfl
  refine ⟨?_, ?_, fun input byte inside => ?_⟩
  · rw [invokeOffset, copied _ _ (by omega), load_store_outside (by omega), load_store (le_rfl)]
    exact Nat.mod_eq_of_lt offset
  · rw [invokeSize, copied _ _ (by omega), load_store (le_rfl)]
    exact Nat.mod_eq_of_lt size
  · unfold placeBuffer
    rw [if_pos input, copy_inside inside, Nat.zero_add]

/-- By induction on the buffers left: there is room for each, and each is placed. -/
theorem marshalBuffers_placed (room : areaStart counts arguments.size (first + count) ≤ bufSize)
    (small : bufSize < 4294967296) (copies : ∀ index, arguments.copyFails index = false)
    (start : alignUp offset = areaStart counts arguments.size first)
    (inTable : first + count ≤ objectCountsTotal counts) :
    (marshalBuffers bufSize arguments isInput (range' first count) offset memory).ret = 0 ∧
      alignUp (marshalBuffers bufSize arguments isInput (range' first count) offset memory).offset =
        areaStart counts arguments.size (first + count) ∧ SameOutside counts arguments.size first (first + count) memory
        (marshalBuffers bufSize arguments isInput (range' first count) offset memory).memory ∧
      ∀ index, first ≤ index → index < first + count → BufferPlaced counts arguments isInput
        (marshalBuffers bufSize arguments isInput (range' first count) offset memory).memory index := by
  induction count generalizing first offset memory with
  | zero => exact ⟨rfl, start, fun _ _ _ => rfl, fun index low high => by omega⟩
  | succ count ih =>
    have area := @area_end_le counts (first + 1) arguments.size first (Nat.lt_succ_self _)
    have next : areaStart counts arguments.size (first + 1) ≤
        areaStart counts arguments.size (first + (count + 1)) := areaStart_mono (by omega)
    have aligned : u32 (sizeAlign offset smcinvokeArgsAlignSize) = areaStart counts arguments.size first := by
      have lt := @le_alignUp offset
      rw [sizeAlign_eq (by unfold sizeMax; omega)]
      unfold u32 sizeMax
      omega
    have later : u32 (areaStart counts arguments.size first + arguments.size first) =
        areaStart counts arguments.size first + arguments.size first := Nat.mod_eq_of_lt (by omega)
    have fits : ¬(areaStart counts arguments.size first > bufSize ∨
        arguments.size first > sizeSub bufSize (areaStart counts arguments.size first)) := by
      unfold sizeSub
      split <;> omega
    have turn : marshalBuffers bufSize arguments isInput (range' first (count + 1)) offset memory =
        marshalBuffers bufSize arguments isInput (range' (first + 1) count)
          (areaStart counts arguments.size first + arguments.size first)
          (placeBuffer counts arguments isInput memory first) := by
      rw [range'_succ, marshalBuffers]
      rw [aligned, if_neg fits, later]
      unfold placeBuffer
      cases isInput with
      | true =>
        rw [if_pos rfl, if_neg (by rw [copies]; decide), if_pos rfl]
      | false => rfl
    have sum : first + (count + 1) = first + 1 + count := by omega
    rw [sum] at room inTable next ⊢
    obtain ⟨ret, ends, same, placed⟩ := @ih (first + 1) (areaStart counts arguments.size first + arguments.size first)
      (placeBuffer counts arguments isInput memory first) room
      (by rw [alignUp_add (areaStart_aligned first)]; rfl) inTable
    rw [turn]
    refine ⟨ret, ends, placeBuffer_same.trans same (by omega) (by omega), fun index low high => ?_⟩
    by_cases here : index = first
    · rw [here]
      exact (placeBuffer_placed (by omega) (by omega) (by omega)).later same (by omega) inTable (by omega)
    · exact placed index (by omega) high

theorem marshalObjects_handles {handle : Nat → Nat} (objects : ∀ index, arguments.tzhandle index = .ok (handle index)) :
    (marshalObjects arguments (range' first count) memory).1 = 0 ∧
      (∀ place, place < invokeArg first ∨ invokeArg (first + count) ≤ place →
        (marshalObjects arguments (range' first count) memory).2 place = memory place) ∧
      ∀ index, first ≤ index → index < first + count →
        (marshalObjects arguments (range' first count) memory).2.load (invokeArg index) 4 =
          handle index % 4294967296 := by
  induction count generalizing first memory with
  | zero => exact ⟨rfl, fun _ _ => rfl, fun index low high => by omega⟩
  | succ count ih =>
    obtain ⟨ret, outside, handles⟩ := @ih (first + 1) (memory.store (invokeArg first) 4 (handle first))
    have turn : marshalObjects arguments (range' first (count + 1)) memory =
        marshalObjects arguments (range' (first + 1) count) (memory.store (invokeArg first) 4 (handle first)) := by
      rw [range'_succ, marshalObjects, objects]
    have entry : invokeArg (first + 1) = invokeArg first + 8 := by
      unfold invokeArg
      omega
    have next : invokeArg first + 8 ≤ invokeArg (first + (count + 1)) := by
      unfold invokeArg
      omega
    have sum : first + 1 + count = first + (count + 1) := by omega
    rw [sum] at outside handles
    rw [turn]
    refine ⟨ret, fun place away => ?_, fun index low high => ?_⟩
    · rw [outside place (by omega), store_outside (by omega)]
    · by_cases here : index = first
      · rw [here, load_congr fun byte inside => outside _ (by omega), load_store le_rfl]
        rfl
      · exact handles index (by omega) high

end Loops

structure InvokeMessage where
  tzhandle : Nat
  op : Nat
  counts : Nat
  inBuffers : List (List (BitVec 8))
  outSizes : List Nat
  inObjects : List Nat

def InvokeMessage.read (memory : ByteMemory) : InvokeMessage :=
  let counts := memory.load 8 4
  { tzhandle := memory.load 0 4
    op := memory.load 4 4
    counts := counts
    inBuffers := (List.range' 0 (objectCountsNumBi counts)).map fun index =>
      (List.range (invokeSize memory index)).map fun byte => memory (invokeOffset memory index + byte)
    outSizes := (List.range' (objectCountsIndexBo counts) (objectCountsNumBo counts)).map (invokeSize memory)
    inObjects := (List.range' (objectCountsIndexOi counts) (objectCountsNumOi counts)).map fun index =>
      memory.load (invokeArg index) 4 }

def InvokeMessage.requested (tzhandle op counts : Nat) (arguments : Arguments) (handle : Nat → Nat) :
    InvokeMessage :=
  { tzhandle := tzhandle
    op := op
    counts := counts
    inBuffers := (List.range' 0 (objectCountsNumBi counts)).map fun index =>
      (List.range (arguments.size index)).map (arguments.data index)
    outSizes := (List.range' (objectCountsIndexBo counts) (objectCountsNumBo counts)).map arguments.size
    inObjects := (List.range' (objectCountsIndexOi counts) (objectCountsNumOi counts)).map handle }

/-- The header with the table and the areas of the buffers are apart, inside the message and aligned. -/
structure WellLaid (counts bufSize : Nat) (memory : ByteMemory) : Prop where
  table : argTableEnd counts ≤ bufSize
  behind : ∀ index, index < objectCountsNumBuffers counts → argTableEnd counts ≤ invokeOffset memory index
  inside : ∀ index, index < objectCountsNumBuffers counts →
    invokeOffset memory index + invokeSize memory index ≤ bufSize
  aligned : ∀ index, index < objectCountsNumBuffers counts → 8 ∣ invokeOffset memory index
  apart : ∀ index other, index < other → other < objectCountsNumBuffers counts →
    invokeOffset memory index + invokeSize memory index ≤ invokeOffset memory other

section Requests

variable {counts bufSize tzhandle op : Nat} {arguments : Arguments} {handle : Nat → Nat}
  {memory after : ByteMemory}

theorem requestArgs_eq : marshalInInvokeReq memory bufSize tzhandle op counts (requestArgs counts arguments) =
      marshalInInvokeReq memory bufSize tzhandle op counts (some arguments) := by
  unfold requestArgs
  split
  · rename_i none
    have noBi : objectCountsNumBi counts = 0 := by
      unfold objectCountsTotal objectCountsIndexOo objectCountsIndexOi objectCountsIndexBo at none
      omega
    have noBo : objectCountsNumBo counts = 0 := by
      unfold objectCountsTotal objectCountsIndexOo objectCountsIndexOi at none
      omega
    have noOi : objectCountsNumOi counts = 0 := by
      unfold objectCountsTotal objectCountsIndexOo at none
      omega
    unfold marshalInInvokeReq
    rw [noBi, noBo, noOi]
    rfl
  · rfl

structure MarshalledAs (counts : Nat) (arguments : Arguments) (handle : Nat → Nat)
    (memory after : ByteMemory) : Prop where
  inputs : ∀ index, index < objectCountsNumBi counts → BufferPlaced counts arguments true after index
  outputs : ∀ index, objectCountsIndexBo counts ≤ index → index < objectCountsNumBuffers counts →
    BufferPlaced counts arguments false after index
  objects : ∀ index, objectCountsIndexOi counts ≤ index →
    index < objectCountsIndexOi counts + objectCountsNumOi counts →
    after.load (invokeArg index) 4 = handle index % 4294967296
  header : ∀ place, place < 12 → after place = memory place
  outside : ∀ place, areaStart counts arguments.size (objectCountsNumBuffers counts) ≤ place →
    after place = memory place

theorem marshalInInvokeReq_as (room : areaStart counts arguments.size (objectCountsNumBuffers counts) ≤ bufSize)
    (small : bufSize < 4294967296) (copies : ∀ index, arguments.copyFails index = false)
    (objects : ∀ index, arguments.tzhandle index = .ok (handle index)) :
    ∃ after, marshalInInvokeReq memory bufSize tzhandle op counts (some arguments) = (0, after) ∧
      MarshalledAs counts arguments handle (((memory.store 0 4 tzhandle).store 4 4 op).store 8 4 counts) after := by
  generalize head : ((memory.store 0 4 tzhandle).store 4 4 op).store 8 4 counts = start
  have base : argTableEnd counts ≤ areaStart counts arguments.size 0 := argTableEnd_le_areaStart 0
  have first : areaStart counts arguments.size 0 ≤
      areaStart counts arguments.size (objectCountsNumBuffers counts) := areaStart_mono (Nat.zero_le _)
  have offset : u32 (argTableEnd counts) = argTableEnd counts := Nat.mod_eq_of_lt (by omega)
  have inTable : objectCountsNumBuffers counts ≤ objectCountsTotal counts := by
    unfold objectCountsTotal objectCountsIndexOo objectCountsIndexOi objectCountsIndexBo objectCountsNumBuffers
    omega
  have buffers : objectCountsIndexBo counts + objectCountsNumBo counts = objectCountsNumBuffers counts := rfl
  have inputsEnd : areaStart counts arguments.size (objectCountsNumBi counts) ≤
      areaStart counts arguments.size (objectCountsNumBuffers counts) :=
    areaStart_mono (Nat.le_add_right ..)
  obtain ⟨inRet, inEnds, inSame, inPlaced⟩ := @marshalBuffers_placed counts 0 (objectCountsNumBi counts)
    bufSize (argTableEnd counts) arguments true start (by rw [Nat.zero_add]; omega) small copies rfl
    (by unfold objectCountsNumBuffers at inTable; omega)
  rw [Nat.zero_add] at inEnds inSame inPlaced
  generalize inputsRun : marshalBuffers bufSize arguments true (range' 0 (objectCountsNumBi counts))
    (argTableEnd counts) start = inputs at inRet inEnds inSame inPlaced
  obtain ⟨outRet, outEnds, outSame, outPlaced⟩ := @marshalBuffers_placed counts (objectCountsIndexBo counts)
    (objectCountsNumBo counts) bufSize inputs.offset arguments false inputs.memory room small copies inEnds
    inTable
  rw [buffers] at outEnds outSame outPlaced
  generalize outputsRun : marshalBuffers bufSize arguments false
    (range' (objectCountsIndexBo counts) (objectCountsNumBo counts)) inputs.offset inputs.memory =
      outputs at outRet outEnds outSame outPlaced
  obtain ⟨objRet, objOutside, handles⟩ := @marshalObjects_handles (objectCountsIndexOi counts)
    (objectCountsNumOi counts) arguments outputs.memory handle objects
  have objSame : SameOutside counts arguments.size (objectCountsIndexOi counts)
      (objectCountsIndexOi counts + objectCountsNumOi counts) outputs.memory
      (marshalObjects arguments (range' (objectCountsIndexOi counts) (objectCountsNumOi counts))
        outputs.memory).2 := fun place tbl _ => objOutside place tbl
  have objTable : objectCountsIndexOi counts + objectCountsNumOi counts ≤ objectCountsTotal counts :=
    Nat.le_add_right ..
  refine ⟨(marshalObjects arguments (range' (objectCountsIndexOi counts) (objectCountsNumOi counts))
    outputs.memory).2, ?_, ?_, ?_, handles, ?_, ?_⟩
  · unfold marshalInInvokeReq
    dsimp only
    rw [offset, if_neg (by omega), head, inputsRun, if_neg (by rw [inRet]; decide), outputsRun,
      if_neg (by rw [outRet]; decide)]
    exact Prod.ext objRet rfl
  · intro index before
    have placed := (inPlaced index (Nat.zero_le _) before).later outSame before inTable (Nat.le_add_right ..)
    exact placed.later objSame (Nat.lt_of_lt_of_le before (Nat.le_add_right ..)) objTable (Nat.le_add_right ..)
  · intro index low high
    exact (outPlaced index low high).later objSame high objTable (Nat.le_add_right ..)
  · intro place before
    have inArg : 12 ≤ invokeArg 0 := le_refl _
    have outArg := @invokeArg_mono (objectCountsIndexBo counts) 0 (Nat.zero_le _)
    have objArg := @invokeArg_mono (objectCountsIndexOi counts) 0 (Nat.zero_le _)
    have lower : areaStart counts arguments.size 0 ≤
      areaStart counts arguments.size (objectCountsIndexBo counts) := areaStart_mono (Nat.zero_le _)
    have tbl : 12 ≤ areaStart counts arguments.size 0 := by
      unfold argTableEnd at base
      omega
    rw [objOutside place (by omega), outSame place (by omega) (by omega), inSame place (by omega) (by omega)]
  · intro place behind
    have objArg := @invokeArg_le counts (objectCountsIndexOi counts + objectCountsNumOi counts) arguments.size
      _ objTable rfl
    have outArg := @invokeArg_le counts (objectCountsNumBuffers counts) arguments.size _ inTable rfl
    have inArg := @invokeArg_mono (objectCountsNumBuffers counts) (objectCountsNumBi counts) (Nat.le_add_right ..)
    rw [objOutside place (by omega), outSame place (by omega) (by omega), inSame place (by omega) (by omega)]

theorem MarshalledAs.wellLaid (marshalled : MarshalledAs counts arguments handle memory after)
    (room : areaStart counts arguments.size (objectCountsNumBuffers counts) ≤ bufSize) :
    WellLaid counts bufSize after := by
  have base := @argTableEnd_le_areaStart counts arguments.size (objectCountsNumBuffers counts)
  have placed : ∀ index, index < objectCountsNumBuffers counts →
      invokeOffset after index = areaStart counts arguments.size index ∧
        invokeSize after index = arguments.size index := by
    intro index buf
    by_cases input : index < objectCountsNumBi counts
    · exact ⟨(marshalled.inputs index input).offset, (marshalled.inputs index input).size⟩
    · have output := marshalled.outputs index (Nat.le_of_not_lt input) buf
      exact ⟨output.offset, output.size⟩
  refine ⟨by omega, fun index buf => ?_, fun index buf => ?_, fun index buf => ?_, fun index other before buf => ?_⟩
  · have later := @argTableEnd_le_areaStart counts arguments.size index
    rw [(placed index buf).1]
    omega
  · rw [(placed index buf).1, (placed index buf).2]
    exact Nat.le_trans (area_end_le buf) room
  · rw [(placed index buf).1, ← areaStart_aligned]
    exact Nat.dvd_mul_left 8 _
  · rw [(placed index (Nat.lt_trans before buf)).1, (placed index (Nat.lt_trans before buf)).2, (placed other buf).1]
    exact area_end_le before

theorem MarshalledAs.read_eq (marshalled : MarshalledAs counts arguments handle
      (((memory.store 0 4 tzhandle).store 4 4 op).store 8 4 counts) after)
    (words : tzhandle < 4294967296 ∧ op < 4294967296 ∧ counts < 4294967296)
    (handles : ∀ index, handle index < 4294967296) :
    InvokeMessage.read after = .requested tzhandle op counts arguments handle := by
  have load : ∀ place, place + 4 ≤ 12 → after.load place 4 =
      (((memory.store 0 4 tzhandle).store 4 4 op).store 8 4 counts).load place 4 := fun place before =>
    load_congr fun byte inside => marshalled.header (place + byte) (by omega)
  have loadHandle : after.load 0 4 = tzhandle := by
    rw [load 0 (by omega), load_store_outside (by omega), load_store_outside (by omega), load_store le_rfl]
    exact Nat.mod_eq_of_lt words.1
  have loadOp : after.load 4 4 = op := by
    rw [load 4 (by omega), load_store_outside (by omega), load_store le_rfl]
    exact Nat.mod_eq_of_lt words.2.1
  have loadCounts : after.load 8 4 = counts := by
    rw [load 8 (by omega), load_store le_rfl]
    exact Nat.mod_eq_of_lt words.2.2
  have inBuffers : ((range' 0 (objectCountsNumBi counts)).map fun index =>
      (range (invokeSize after index)).map fun byte => after (invokeOffset after index + byte)) =
      (range' 0 (objectCountsNumBi counts)).map fun index =>
        (range (arguments.size index)).map (arguments.data index) := by
    apply map_congr_left
    intro index mem
    rw [mem_range'_1] at mem
    have placed := marshalled.inputs index (by omega)
    rw [placed.size, placed.offset]
    apply map_congr_left
    intro byte inside
    exact placed.bytes rfl byte (mem_range.mp inside)
  have outSizes : (range' (objectCountsIndexBo counts) (objectCountsNumBo counts)).map (invokeSize after) =
      (range' (objectCountsIndexBo counts) (objectCountsNumBo counts)).map arguments.size := by
    apply map_congr_left
    intro index mem
    rw [mem_range'_1] at mem
    exact (marshalled.outputs index mem.1 mem.2).size
  have inObjects : ((range' (objectCountsIndexOi counts) (objectCountsNumOi counts)).map fun index =>
      after.load (invokeArg index) 4) =
      (range' (objectCountsIndexOi counts) (objectCountsNumOi counts)).map handle := by
    apply map_congr_left
    intro index mem
    rw [mem_range'_1] at mem
    rw [marshalled.objects index mem.1 mem.2]
    exact Nat.mod_eq_of_lt (handles index)
  unfold InvokeMessage.read InvokeMessage.requested
  dsimp only
  rw [loadHandle, loadOp, loadCounts, inBuffers, outSizes, inObjects]

end Requests

/-- A request is laid out in a buffer of the computed size and read back by its table; one that does not fit in a
`size_t` is refused. -/
theorem request_laid_out {tzhandle op counts : Nat} {arguments : Arguments} (memory : ByteMemory)
    (words : tzhandle < 4294967296 ∧ op < 4294967296 ∧ counts < 4294967296)
    (sizes : ∀ index, arguments.size index < 18446744073709551616) :
    (∀ handle : Nat → Nat, (∀ index, handle index < 4294967296) →
      (∀ index, arguments.tzhandle index = .ok (handle index)) → (∀ index, arguments.copyFails index = false) →
      computeInMsgSize counts arguments.size ≠ 0 → computeInMsgSize counts arguments.size < 4294967296 →
      ∃ after, marshalInInvokeReq memory (computeInMsgSize counts arguments.size) tzhandle op counts
          (requestArgs counts arguments) = (0, after) ∧
        WellLaid counts (computeInMsgSize counts arguments.size) after ∧
        InvokeMessage.read after = .requested tzhandle op counts arguments handle ∧
        ∀ place, computeInMsgSize counts arguments.size ≤ place → after place = memory place) ∧
    (18446744073709551616 ≤ areaStart counts arguments.size (objectCountsNumBuffers counts) →
      computeInMsgSize counts arguments.size = 0 ∧
      (marshalInInvokeReq memory (computeInMsgSize counts arguments.size) tzhandle op counts
        (requestArgs counts arguments)).1 = einval) := by
  have bounded : ∀ index, arguments.size index ≤ sizeMax := fun index => Nat.le_of_lt_succ (sizes index)
  constructor
  · intro handle handles objects copies computed small
    have room := areaStart_le_computeInMsgSize bounded computed
    obtain ⟨after, ran, marshalled⟩ := @marshalInInvokeReq_as counts _ tzhandle op arguments handle memory
      room small copies objects
    refine ⟨after, requestArgs_eq.trans ran, marshalled.wellLaid room, marshalled.read_eq words handles,
      fun place behind => ?_⟩
    have few : 12 ≤ argTableEnd counts := Nat.le_add_right ..
    have base : argTableEnd counts ≤ areaStart counts arguments.size 0 := le_alignUp
    have first : areaStart counts arguments.size 0 ≤
        areaStart counts arguments.size (objectCountsNumBuffers counts) := areaStart_mono (Nat.zero_le _)
    rw [marshalled.outside place (by omega), ByteMemory.store_outside (by omega),
      ByteMemory.store_outside (by omega), ByteMemory.store_outside (by omega)]
  · intro large
    have zero : computeInMsgSize counts arguments.size = 0 := computeInMsgSize_eq_zero bounded (by omega)
    refine ⟨zero, ?_⟩
    have few := @argTableEnd_le counts
    have some : 12 ≤ argTableEnd counts := Nat.le_add_right ..
    have offset : u32 (argTableEnd counts) = argTableEnd counts := Nat.mod_eq_of_lt (by omega)
    unfold marshalInInvokeReq
    rw [if_pos (by omega)]

def smallRequest : Arguments where
  size index := if index = 0 then 5 else if index = 2 then 16 else 0
  data _ place := BitVec.ofNat 8 place
  copyFails _ := false
  tzhandle _ := .ok 2147549185

theorem request_laid_out_small :
    ∃ after, marshalInInvokeReq (fun _ => 0) 4096 7 3 (objectCountsPack 2 1 1 0) (some smallRequest) = (0, after) ∧
      WellLaid (objectCountsPack 2 1 1 0) 4096 after ∧ (InvokeMessage.read after).outSizes = [16] := by
  have sizes : ∀ index, smallRequest.size index < 18446744073709551616 := by
    intro index
    unfold smallRequest
    dsimp only
    split
    · decide
    · split <;> decide
  obtain ⟨after, ran, laid, read, -⟩ := (@request_laid_out 7 3 (objectCountsPack 2 1 1 0) smallRequest
    (fun _ => 0) (by decide) sizes).1 (fun _ => 2147549185) (fun _ => by decide) (fun _ => rfl) (fun _ => rfl)
    (by decide) (by decide)
  refine ⟨after, ran, laid, ?_⟩
  rw [read]
  decide

end KernelModules.Smcinvoke

import Mathlib.Data.List.Basic

namespace KernelModules.Camera

open List hiding after
open Option

/-! # Camera packets

A packet has been copied into the memory of the kernel.  Buffers are looked up by handle, for the kernel or for the
device.
-/

structure CamCmdBufDesc where
  memHandle : Int
  offset : Nat
  size : Nat
  length : Nat
  length_lt : length < 4294967296

structure CamPatchDesc where
  dstBufHdl : Int
  dstOffset : Nat
  srcBufHdl : Int
  srcOffset : Nat

/-- `struct cam_packet`, and what its payload is as a descriptor from each byte on -/
structure CamPacket where
  size : Nat
  cmdBufOffset : Nat
  numCmdBuf : Nat
  ioConfigsOffset : Nat
  numIoConfigs : Nat
  patchOffset : Nat
  numPatches : Nat
  kmdCmdBufIndex : Nat
  kmdCmdBufOffset : Nat
  cmdBufDesc : Nat → CamCmdBufDesc
  patchDesc : Nat → CamPatchDesc

/-- The memory manager: `cam_mem_get_cpu_buf`, `cam_mem_get_io_buf` and `cam_mem_is_secure_buf` -/
structure CamMem where
  cpuBuf : Int → Option (Nat × Nat)
  ioBuf : Int → Int → Option (Nat × Nat × Nat)
  isSecureBuf : Int → Bool

/-- `offsetof(struct cam_packet, payload)` -/
def pktWoPayload : Nat := 56

structure ByteRange where
  start : Nat
  length : Nat

namespace CamPacket

/-- `cam_packet_util_validate_packet` -/
def validatePacket (packet : CamPacket) (remainLen : Nat) : Bool :=
  !(packet.size = 0 || remainLen < packet.size || packet.size ≤ pktWoPayload ||
    packet.size < pktWoPayload + packet.cmdBufOffset + packet.numCmdBuf * 24 ||
    packet.size < pktWoPayload + packet.ioConfigsOffset + packet.numIoConfigs * 256 ||
    packet.size < pktWoPayload + packet.patchOffset + packet.numPatches * 16)

/-- `cam_packet_util_copy_pkt_to_kmd`: user space may change the packet behind the first look at its size. -/
def copyPktToKmd (packetSize : Nat) (copied : CamPacket) (remainLen : Nat) : Option CamPacket :=
  if 64 ≤ packetSize ∧ packetSize ≤ remainLen then
    if { copied with size := packetSize }.validatePacket remainLen then some { copied with size := packetSize }
    else none
  else none

end CamPacket

structure CamKmdBufInfo where
  cpuAddr : Nat
  handle : Int
  offset : Nat
  size : Nat
  usedBytes : Nat

/-- `cam_packet_util_validate_cmd_desc` -/
def CamCmdBufDesc.validate (cmdDesc : CamCmdBufDesc) : Bool :=
  !(cmdDesc.size < cmdDesc.length || cmdDesc.memHandle ≤ 0)

/-- `cam_packet_util_get_cmd_mem_addr` -/
def CamMem.getCmdMemAddr (mem : CamMem) (handle : Int) : Option (Nat × Nat) :=
  (mem.cpuBuf handle).filter fun buf => buf.1 ≠ 0 && buf.2 ≠ 0

namespace CamPacket

def kmdDesc (packet : CamPacket) : ByteRange :=
  ⟨pktWoPayload + packet.cmdBufOffset + 24 * packet.kmdCmdBufIndex, 24⟩

/-- `cam_packet_util_get_kmd_buffer`, and what it reads of the packet -/
def getKmdBuffer (packet : CamPacket) (mem : CamMem) : List ByteRange × Option CamKmdBufInfo :=
  if packet.numCmdBuf = 0 ∨ packet.numCmdBuf ≤ packet.kmdCmdBufIndex then ([], none)
  else let cmdDesc := packet.cmdBufDesc packet.kmdDesc.start
    ([packet.kmdDesc], if cmdDesc.validate then (mem.getCmdMemAddr cmdDesc.memHandle).bind fun (cpuAddr, len) =>
          if len ≤ cmdDesc.offset ∨ len - cmdDesc.offset < cmdDesc.size ∨
              len - cmdDesc.offset ≤ packet.kmdCmdBufOffset then none
          else some
              { cpuAddr := cpuAddr + 4 * (cmdDesc.offset / 4 + packet.kmdCmdBufOffset / 4)
                handle := cmdDesc.memHandle
                offset := (cmdDesc.offset + packet.kmdCmdBufOffset) % 4294967296
                size := cmdDesc.size - cmdDesc.length
                usedBytes := 0 }
      else none)

end CamPacket

structure CamPatchUniqueSrcBufTbl where
  hdl : Int
  iova : Nat
  bufSize : Nat
  flags : Nat

def camUniqueSrcHdlMax : Nat := 50

def findSrc (bufHdl : Int) : List CamPatchUniqueSrcBufTbl → Nat → CamPatchUniqueSrcBufTbl ⊕ Nat
  | [], idx => .inr idx
  | entry :: rest, idx =>
    if bufHdl = entry.hdl then .inl entry
    else if entry.hdl = 0 ∨ entry.iova = 0 then .inr idx
    else findSrc bufHdl rest (idx + 1)

/-- `cam_packet_util_get_patch_iova` -/
def getPatchIova (mem : CamMem) (tbl : List CamPatchUniqueSrcBufTbl) (hdl bufHdl : Int) :
    Option (List CamPatchUniqueSrcBufTbl × CamPatchUniqueSrcBufTbl) :=
  match findSrc bufHdl tbl 0 with
  | .inl entry => some (tbl, entry)
  | .inr idx =>
    (mem.ioBuf bufHdl hdl).map fun (iova, bufSize, flags) =>
      let entry := ⟨bufHdl, iova, bufSize, flags⟩
      (if (tbl[idx]?).any fun old => old.hdl = 0 then tbl.set idx entry else tbl, entry)

/-- `CAM_MEM_FLAG_HW_SHARED_ACCESS` or `CAM_MEM_FLAG_CMD_BUF_TYPE` is set. -/
def takesWholeAddress (flags : Nat) : Bool := flags &&& 2048 ≠ 0 || flags &&& 64 ≠ 0

/-- The word for an address of the device: its low bits, or the number of its block of 256 bytes -/
def patchWord (expanded : Bool) (flags address : Nat) : Nat :=
  (if expanded && !takesWholeAddress flags then address / 256 else address) % 4294967296

structure PatchWrite where
  patch : CamPatchDesc
  address : Nat
  word : Nat

/-- The handles of the address spaces, and whether the interface has addresses of 36 bits -/
structure PatchTarget where
  iommuHdl : Int
  secMmuHdl : Int
  expanded : Bool

def CamMem.mmuHdl (mem : CamMem) (target : PatchTarget) (bufHdl : Int) : Int :=
  if mem.isSecureBuf bufHdl then target.secMmuHdl else target.iommuHdl

def CamPacket.patchAt (packet : CamPacket) (i : Nat) : ByteRange :=
  ⟨pktWoPayload + 4 * (packet.patchOffset / 4) + 16 * i, 16⟩

/-- `cam_packet_util_process_patches` from a patch on: what is read of the packet, and the words written -/
def processPatchesFrom (packet : CamPacket) (mem : CamMem) (target : PatchTarget) :
    Nat → Nat → List CamPatchUniqueSrcBufTbl → List ByteRange × List PatchWrite
  | 0, _, _ => ([], [])
  | left + 1, i, tbl =>
    let patch := packet.patchDesc (packet.patchAt i).start
    let written : List ByteRange × List PatchWrite :=
      match getPatchIova mem tbl (mem.mmuHdl target patch.srcBufHdl) patch.srcBufHdl with
      | none => ([], [])
      | some (tbl, src) =>
        if src.bufSize ≤ patch.srcOffset then ([], [])
        else match mem.getCmdMemAddr patch.dstBufHdl with
          | none => ([], [])
          | some (cpuAddr, len) =>
            if len < 8 ∨ len - 8 < patch.dstOffset then ([], [])
            else let rest := processPatchesFrom packet mem target left (i + 1) tbl
              (rest.1, ⟨patch, cpuAddr + patch.dstOffset,
                patchWord target.expanded src.flags (src.iova + patch.srcOffset)⟩ :: rest.2)
    (packet.patchAt i :: written.1, written.2)

def CamPacket.processPatches (packet : CamPacket) (mem : CamMem) (target : PatchTarget) :
    List ByteRange × List PatchWrite :=
  processPatchesFrom packet mem target packet.numPatches 0 (List.replicate camUniqueSrcHdlMax ⟨0, 0, 0, 0⟩)

structure BlobCall where
  blobType : Nat
  blobSize : Nat
  data : Nat

structure BlobWalk where
  rc : Int
  reads : List ByteRange
  calls : List BlobCall

/-- What the commands are: the words from each byte on, and the handler's answer to the blob there -/
structure BlobInput where
  word : Nat → Nat
  answer : Nat → Int

def blobSizeOf (word : Nat) : Nat := word / 256 % 16777216

def blobBlockSize (blobSize : Nat) : Nat := 4 + (blobSize + 3) / 4 * 4

def BlobInput.call (input : BlobInput) (position : Nat) : BlobCall :=
  ⟨input.word position % 256, blobSizeOf (input.word position), position + 4⟩

def BlobInput.block (input : BlobInput) (position : Nat) : Nat := blobBlockSize (input.call position).blobSize

/-- The loop of `cam_packet_util_process_generic_cmd_buffer`; `lenRead` has 32 bits, the pointer has not. -/
def blobLoop (input : BlobInput) (length : Nat) : Nat → Nat → Nat → Option BlobWalk
  | 0, _, _ => none
  | fuel + 1, lenRead, position =>
    if lenRead < length then let next := (lenRead + input.block position) % 4294967296
      if length < next then some ⟨-22, [⟨position, 4⟩], []⟩
      else if input.answer position ≠ 0 then some ⟨input.answer position, [⟨position, 4⟩], [input.call position]⟩
      else (blobLoop input length fuel next (position + input.block position)).map fun walk =>
          ⟨walk.rc, ⟨position, 4⟩ :: walk.reads, input.call position :: walk.calls⟩
    else some ⟨0, [], []⟩

/-- The checks of `cam_packet_util_process_generic_cmd_buffer` -/
def CamCmdBufDesc.holdsBlobs (cmdBuf : CamCmdBufDesc) (mem : CamMem) : Bool :=
  cmdBuf.length ≠ 0 && cmdBuf.size ≠ 0 && (mem.getCmdMemAddr cmdBuf.memHandle).any fun buf =>
    4 ≤ buf.2 && cmdBuf.offset ≤ buf.2 - 4 && cmdBuf.length ≤ buf.2 - cmdBuf.offset

/-- `cam_packet_util_process_generic_cmd_buffer`; the answer to a failed check is left out. -/
def processGenericCmdBuffer (cmdBuf : CamCmdBufDesc) (mem : CamMem) (input : BlobInput) (fuel : Nat) :
    Option BlobWalk :=
  if cmdBuf.holdsBlobs mem then blobLoop input cmdBuf.length fuel 0 0 else some ⟨-22, [], []⟩

def ByteRange.Inside (range : ByteRange) (size : Nat) : Prop := range.start + range.length ≤ size

variable {packet copied : CamPacket} {mem : CamMem} {target : PatchTarget} {input : BlobInput}
  {length fuel position packetSize remainLen : Nat}

theorem CamPacket.copyPktToKmd_fits (ok : copyPktToKmd packetSize copied remainLen = some packet) :
    pktWoPayload + packet.cmdBufOffset + packet.numCmdBuf * 24 ≤ packet.size ∧
      pktWoPayload + packet.patchOffset + packet.numPatches * 16 ≤ packet.size := by
  unfold copyPktToKmd at ok
  split at ok
  · split at ok
    · rename_i valid
      cases ok
      simp [validatePacket] at valid
      dsimp only
      omega
    · cases ok
  · cases ok

/-- The buffer handed out lies in the mapped one, and does not meet the descriptor's own commands. -/
def CamPacket.KmdConfined (packet : CamPacket) (mem : CamMem) : Prop :=
  ∀ info, (packet.getKmdBuffer mem).2 = some info →
    ∀ buf, mem.getCmdMemAddr (packet.cmdBufDesc packet.kmdDesc.start).memHandle = some buf →
      (buf.1 ≤ info.cpuAddr ∧ info.cpuAddr + info.size ≤ buf.1 + buf.2) ∧
        (info.size = 0 ∨ (packet.cmdBufDesc packet.kmdDesc.start).length = 0 ∨
          buf.1 + (packet.cmdBufDesc packet.kmdDesc.start).offset +
            (packet.cmdBufDesc packet.kmdDesc.start).length ≤ info.cpuAddr ∨
          info.cpuAddr + info.size ≤ buf.1 + (packet.cmdBufDesc packet.kmdDesc.start).offset)

/-- What is left of the descriptor's size fits behind its offset and the driver's, and is not among the commands. -/
def CamCmdBufDesc.Leaves (cmdDesc : CamCmdBufDesc) (kmdCmdBufOffset len : Nat) : Prop :=
  let start := 4 * (cmdDesc.offset / 4 + kmdCmdBufOffset / 4)
  start + (cmdDesc.size - cmdDesc.length) ≤ len ∧
    (cmdDesc.size = cmdDesc.length ∨ cmdDesc.length = 0 ∨ cmdDesc.offset + cmdDesc.length ≤ start ∨
      start + (cmdDesc.size - cmdDesc.length) ≤ cmdDesc.offset)

/-- If `cam_packet_util_get_kmd_buffer` finds nothing wrong -/
def CamPacket.KmdFits (packet : CamPacket) (mem : CamMem) : Prop :=
  (packet.getKmdBuffer mem).2.isSome →
    ∀ buf, mem.getCmdMemAddr (packet.cmdBufDesc packet.kmdDesc.start).memHandle = some buf →
      (packet.cmdBufDesc packet.kmdDesc.start).Leaves packet.kmdCmdBufOffset buf.2

theorem CamPacket.kmdConfined_iff : packet.KmdConfined mem ↔ packet.KmdFits mem := by
  unfold KmdConfined KmdFits
  cases found : (packet.getKmdBuffer mem).2 with
  | none => simp
  | some info =>
    simp only [some.injEq, forall_eq', isSome_some, forall_const]
    refine forall₂_congr fun buf mapped => ?_
    unfold getKmdBuffer at found
    split at found
    · cases found
    · dsimp only at found
      split at found
      · rename_i valid
        rw [mapped, bind_some] at found
        simp only [CamCmdBufDesc.validate, Bool.not_eq_true', Bool.or_eq_false_iff, decide_eq_false_iff_not] at valid
        split at found
        · cases found
        · cases found
          simp only [CamCmdBufDesc.Leaves]
          omega
      · cases found

theorem CamPacket.kmd_reads (ok : copyPktToKmd packetSize copied remainLen = some packet) :
    ∀ range ∈ (packet.getKmdBuffer mem).1, range.Inside packet.size := by
  intro range member
  have fits := (copyPktToKmd_fits ok).1
  unfold getKmdBuffer at member
  split at member
  · cases member
  · rw [mem_singleton.mp member]
    simp only [ByteRange.Inside, kmdDesc]
    omega

/-- The word is written inside the buffer it is for, and is that for a byte of the source. -/
def PatchWrite.Confined (write : PatchWrite) (mem : CamMem) (target : PatchTarget) : Prop :=
  (∃ cpuAddr len, mem.cpuBuf write.patch.dstBufHdl = some (cpuAddr, len) ∧ cpuAddr ≤ write.address ∧
      write.address + 4 ≤ cpuAddr + len) ∧
    ∃ iova bufSize flags, mem.ioBuf write.patch.srcBufHdl (mem.mmuHdl target write.patch.srcBufHdl) =
        some (iova, bufSize, flags) ∧ write.patch.srcOffset < bufSize ∧
      write.word = patchWord target.expanded flags (iova + write.patch.srcOffset)

/-- What the table says of a handle is what the memory manager says; an unused entry has no bytes. -/
def FaithfulSrc (mem : CamMem) (target : PatchTarget) (entry : CamPatchUniqueSrcBufTbl) : Prop :=
  entry.bufSize = 0 ∨
    mem.ioBuf entry.hdl (mem.mmuHdl target entry.hdl) = some (entry.iova, entry.bufSize, entry.flags)

theorem findSrc_found (found : findSrc bufHdl tbl idx = .inl entry) : entry ∈ tbl ∧ entry.hdl = bufHdl := by
  induction tbl generalizing idx with
  | nil => cases found
  | cons first rest ih =>
    unfold findSrc at found
    split at found
    · cases found
      exact ⟨mem_cons_self .., by simp [*]⟩
    · split at found
      · cases found
      · obtain ⟨mem, same⟩ := ih found
        exact ⟨mem_cons_of_mem _ mem, same⟩

theorem getPatchIova_faithful (faithful : ∀ entry ∈ tbl, FaithfulSrc mem target entry)
    (found : getPatchIova mem tbl (mem.mmuHdl target bufHdl) bufHdl = some (after, src)) :
    (∀ entry ∈ after, FaithfulSrc mem target entry) ∧ FaithfulSrc mem target src ∧ src.hdl = bufHdl := by
  unfold getPatchIova at found
  split at found
  · rename_i entry known
    cases found
    obtain ⟨member, same⟩ := findSrc_found known
    exact ⟨faithful, faithful _ member, same⟩
  · obtain ⟨⟨iova, bufSize, flags⟩, mapped, same⟩ := map_eq_some_iff.mp found
    cases same
    have fresh : FaithfulSrc mem target ⟨bufHdl, iova, bufSize, flags⟩ := .inr mapped
    refine ⟨fun entry member => ?_, fresh, rfl⟩
    split at member
    · rcases mem_or_eq_of_mem_set member with old | rfl
      · exact faithful entry old
      · exact fresh
    · exact faithful entry member

theorem processPatchesFrom_confined (fits : pktWoPayload + packet.patchOffset + (i + left) * 16 ≤ packet.size)
    (faithful : ∀ entry ∈ tbl, FaithfulSrc mem target entry) :
    (∀ range ∈ (processPatchesFrom packet mem target left i tbl).1, range.Inside packet.size) ∧
      ∀ write ∈ (processPatchesFrom packet mem target left i tbl).2, write.Confined mem target := by
  induction left generalizing i tbl with
  | zero => exact ⟨fun _ member => absurd member not_mem_nil, fun _ member => absurd member not_mem_nil⟩
  | succ left ih =>
    have read : (packet.patchAt i).Inside packet.size := by
      simp only [ByteRange.Inside, CamPacket.patchAt]
      omega
    have stop : (∀ range ∈ [packet.patchAt i], range.Inside packet.size) ∧
        ∀ write ∈ ([] : List PatchWrite), write.Confined mem target :=
      ⟨fun range member => mem_singleton.mp member ▸ read, fun _ member => absurd member not_mem_nil⟩
    unfold processPatchesFrom
    dsimp only
    split
    · exact stop
    rename_i after src found
    obtain ⟨faithful, known, same⟩ := getPatchIova_faithful faithful found
    split
    · exact stop
    split
    · exact stop
    rename_i cpuAddr len mapped
    split
    · exact stop
    obtain ⟨reads, writes⟩ := @ih (i + 1) after (by omega) faithful
    refine ⟨fun range member => ?_, fun write member => ?_⟩
    · rcases mem_cons.mp member with rfl | member
      · exact read
      · exact reads range member
    · rcases mem_cons.mp member with rfl | member
      · have source := known.resolve_left (by omega)
        rw [same] at source
        refine ⟨⟨cpuAddr, len, (filter_eq_some_iff.mp mapped).1, ?_, ?_⟩, src.iova, src.bufSize,
          src.flags, source, by dsimp only; omega, rfl⟩
        · exact Nat.le_add_right ..
        · dsimp only
          omega
      · exact writes write member

theorem CamPacket.patches_confined (ok : copyPktToKmd packetSize copied remainLen = some packet) :
    (∀ range ∈ (packet.processPatches mem target).1, range.Inside packet.size) ∧
      ∀ write ∈ (packet.processPatches mem target).2, write.Confined mem target := by
  refine processPatchesFrom_confined (by rw [Nat.zero_add]; exact (copyPktToKmd_fits ok).2) fun entry member => ?_
  rw [eq_of_mem_replicate member]
  exact .inl rfl

inductive BlobReached (input : BlobInput) (length : Nat) : Nat → Prop where
  | start : BlobReached input length 0
  | next {position : Nat} (before : BlobReached input length position) (more : position < length)
      (fits : position + input.block position ≤ length) (accepted : input.answer position = 0) :
      BlobReached input length (position + input.block position)

/-- The commands do not end inside the header of a blob, and no blob ends behind what 32 bits can count, unless its
padding alone sticks out and it is not accepted. -/
def BlobInput.Fits (input : BlobInput) (length : Nat) : Prop :=
  ∀ position, BlobReached input length position → position < length →
    position + 4 ≤ length ∧ (4294967296 ≤ position + input.block position →
      input.answer position ≠ 0 ∧ position + 4 + (input.call position).blobSize ≤ length)

structure BlobWalk.Confined (walk : BlobWalk) (length : Nat) : Prop where
  reads : ∀ range ∈ walk.reads, range.Inside length
  calls : ∀ call ∈ walk.calls, call.data + call.blobSize ≤ length

theorem block_bounds : (input.call position).blobSize + 4 ≤ input.block position ∧ input.block position < 16777224 := by
  have small : (input.call position).blobSize < 16777216 := Nat.mod_lt _ (by decide)
  unfold BlobInput.block blobBlockSize
  omega

theorem walk_none : BlobWalk.Confined ⟨rc, [], []⟩ length :=
  ⟨fun _ mem => absurd mem not_mem_nil, fun _ mem => absurd mem not_mem_nil⟩

theorem walk_one (inside : position + 4 ≤ length) (handed : ∀ call ∈ calls, call.data + call.blobSize ≤ length) :
    BlobWalk.Confined ⟨rc, [⟨position, 4⟩], calls⟩ length :=
  ⟨fun range mem => by rw [mem_singleton.mp mem]; exact inside, handed⟩

theorem call_inside (inside : position + 4 + (input.call position).blobSize ≤ length) :
    ∀ call ∈ [input.call position], call.data + call.blobSize ≤ length := by
  intro call mem
  rw [mem_singleton.mp mem]
  exact inside

theorem blobLoop_confined (fits : input.Fits length) (reached : BlobReached input length position)
    (lt : position ≤ length) (rest : length - position ≤ left) :
    ∃ fuel walk, blobLoop input length fuel position position = some walk ∧ walk.Confined length := by
  induction left generalizing position with
  | zero =>
    refine ⟨1, ⟨0, [], []⟩, ?_, walk_none⟩
    rw [blobLoop, if_neg (by omega)]
  | succ left ih =>
    have bounds := @block_bounds input position
    by_cases more : position < length
    · obtain ⟨inside, wraps⟩ := fits position reached more
      by_cases tooLong : length < (position + input.block position) % 4294967296
      · refine ⟨1, ⟨-22, [⟨position, 4⟩], []⟩, ?_, walk_one inside fun _ mem => absurd mem not_mem_nil⟩
        rw [blobLoop, if_pos more]
        exact if_pos tooLong
      by_cases refused : input.answer position ≠ 0
      · refine ⟨1, ⟨input.answer position, [⟨position, 4⟩], [input.call position]⟩, ?_,
          walk_one inside (call_inside ?_)⟩
        · rw [blobLoop, if_pos more]
          rw [if_neg tooLong, if_pos refused]
        · by_cases wrap : 4294967296 ≤ position + input.block position
          · exact (wraps wrap).2
          · omega
      · have unwrapped : position + input.block position < 4294967296 := by
          by_contra wrap
          exact refused (wraps (by omega)).1
        rw [Nat.mod_eq_of_lt unwrapped] at tooLong
        obtain ⟨fuel, walk, ran, confined⟩ := ih
          (reached.next more (by omega) (not_not.mp refused)) (by omega) (by omega)
        refine ⟨fuel + 1, ⟨walk.rc, ⟨position, 4⟩ :: walk.reads, input.call position :: walk.calls⟩, ?_,
          fun range mem => ?_, fun call mem => ?_⟩
        · rw [blobLoop, if_pos more]
          rw [Nat.mod_eq_of_lt unwrapped, if_neg tooLong, if_neg refused, ran, map_some]
        · rcases mem_cons.mp mem with rfl | mem
          · exact inside
          · exact confined.reads range mem
        · rcases mem_cons.mp mem with rfl | mem
          · change position + 4 + (input.call position).blobSize ≤ length
            omega
          · exact confined.calls call mem
    · refine ⟨1, ⟨0, [], []⟩, ?_, walk_none⟩
      rw [blobLoop, if_neg more]

theorem blobLoop_round (more : lenRead < length) (ran : blobLoop input length fuel lenRead position = some walk) :
    ⟨position, 4⟩ ∈ walk.reads ∧ ((lenRead + input.block position) % 4294967296 ≤ length →
      input.call position ∈ walk.calls ∧ (input.answer position = 0 → ∃ fuel rest,
        blobLoop input length fuel ((lenRead + input.block position) % 4294967296)
          (position + input.block position) = some rest ∧ rest.reads ⊆ walk.reads ∧ rest.calls ⊆ walk.calls)) := by
  cases fuel with
  | zero => cases ran
  | succ fuel =>
    rw [blobLoop, if_pos more] at ran
    dsimp only at ran
    split at ran
    · cases ran
      exact ⟨mem_cons_self .., fun fits => by omega⟩
    · split at ran
      · rename_i refused
        cases ran
        exact ⟨mem_cons_self .., fun _ => ⟨mem_cons_self .., fun ok => absurd ok refused⟩⟩
      · obtain ⟨rest, went, rfl⟩ := map_eq_some_iff.mp ran
        exact ⟨mem_cons_self .., fun _ => ⟨mem_cons_self .., fun _ =>
          ⟨fuel, rest, went, subset_cons_self .., subset_cons_self ..⟩⟩⟩

section

variable {walk : BlobWalk} (small : length < 4294967296)
  (ran : blobLoop input length fuel 0 0 = some walk)
include small ran

theorem blobLoop_reached (reached : BlobReached input length position) :
    ∃ fuel rest, blobLoop input length fuel position position = some rest ∧ rest.reads ⊆ walk.reads ∧
      rest.calls ⊆ walk.calls := by
  induction reached with
  | start => exact ⟨fuel, walk, ran, List.Subset.refl _, List.Subset.refl _⟩
  | next before more fits ok ih =>
    obtain ⟨fuel, rest, ran, reads, calls⟩ := ih
    have round := (blobLoop_round more ran).2
    rw [Nat.mod_eq_of_lt (by omega)] at round
    obtain ⟨fuel, last, ran, lastReads, lastCalls⟩ := (round fits).2 ok
    exact ⟨fuel, last, ran, List.Subset.trans lastReads reads, List.Subset.trans lastCalls calls⟩

theorem fits_of_confined (confined : walk.Confined length) : input.Fits length := by
  intro position reached more
  obtain ⟨fuel, rest, ran, reads, calls⟩ := blobLoop_reached small ran reached
  obtain ⟨read, round⟩ := blobLoop_round more ran
  refine ⟨confined.reads _ (reads read), fun wrap => ?_⟩
  have bounds := @block_bounds input position
  obtain ⟨handed, onward⟩ := round (by omega)
  refine ⟨fun ok => ?_, confined.calls _ (calls handed)⟩
  -- the count begins again, and the pointer does not
  obtain ⟨fuel, last, ran, lastReads, -⟩ := onward ok
  have again := confined.reads _ (reads (lastReads (blobLoop_round (by omega) ran).1))
  change position + input.block position + 4 ≤ length at again
  omega

end

def BlobsConfined (cmdBuf : CamCmdBufDesc) (mem : CamMem) (input : BlobInput) : Prop :=
  ∃ fuel walk, processGenericCmdBuffer cmdBuf mem input fuel = some walk ∧ walk.Confined cmdBuf.length

theorem blobsConfined_iff :
    BlobsConfined cmdBuf mem input ↔ (cmdBuf.holdsBlobs mem = true → input.Fits cmdBuf.length) := by
  unfold BlobsConfined processGenericCmdBuffer
  by_cases holds : cmdBuf.holdsBlobs mem = true
  · simp only [holds, if_true, forall_const]
    constructor
    · rintro ⟨fuel, walk, ran, confined⟩
      exact fits_of_confined cmdBuf.length_lt ran confined
    · intro fits
      exact blobLoop_confined fits .start (Nat.zero_le _) (Nat.le_refl _)
  · simp only [if_neg holds]
    exact iff_of_true ⟨0, ⟨-22, [], []⟩, rfl, walk_none⟩ fun some => absurd some holds

/-- A packet that was copied and a descriptor of generic blobs keep to their buffers. -/
structure PacketConfined (packet : CamPacket) (mem : CamMem) (target : PatchTarget) (cmdBuf : CamCmdBufDesc)
    (input : BlobInput) : Prop where
  kmdReads : ∀ range ∈ (packet.getKmdBuffer mem).1, range.Inside packet.size
  patchReads : ∀ range ∈ (packet.processPatches mem target).1, range.Inside packet.size
  kmd : packet.KmdConfined mem
  patches : ∀ write ∈ (packet.processPatches mem target).2, write.Confined mem target
  blobs : BlobsConfined cmdBuf mem input

theorem packet_confined_iff {cmdBuf : CamCmdBufDesc}
    (accepted : CamPacket.copyPktToKmd packetSize copied remainLen = some packet) :
    PacketConfined packet mem target cmdBuf input ↔
      packet.KmdFits mem ∧ (cmdBuf.holdsBlobs mem = true → input.Fits cmdBuf.length) := by
  rw [← CamPacket.kmdConfined_iff, ← blobsConfined_iff]
  obtain ⟨reads, writes⟩ := @CamPacket.patches_confined packet copied mem target packetSize remainLen accepted
  exact ⟨fun confined => ⟨confined.kmd, confined.blobs⟩, fun ⟨kmd, blobs⟩ =>
    ⟨CamPacket.kmd_reads accepted, reads, kmd, writes, blobs⟩⟩

def smallPacket (kmdCmdBufOffset : Nat) : CamPacket where
  size := 80
  cmdBufOffset := 0
  numCmdBuf := 1
  ioConfigsOffset := 0
  numIoConfigs := 0
  patchOffset := 0
  numPatches := 0
  kmdCmdBufIndex := 0
  kmdCmdBufOffset := kmdCmdBufOffset
  cmdBufDesc := fun _ => ⟨1, 0, 64, 4, by decide⟩
  patchDesc := fun _ => ⟨1, 0, 1, 0⟩

def smallMem : CamMem := ⟨fun _ => some (4096, 64), fun _ _ => some (8192, 64, 0), fun _ => false⟩

def fourByteBlobs : BlobInput := ⟨fun _ => 1024, fun _ => 0⟩

theorem fourByteBlobs_reached (reached : BlobReached fourByteBlobs length position) : position % 8 = 0 := by
  induction reached with
  | start => rfl
  | next before more fits accepted ih =>
    simp [BlobInput.block, BlobInput.call, fourByteBlobs, blobSizeOf, blobBlockSize]
    omega

theorem packet_confined_four :
    PacketConfined (smallPacket 4) smallMem ⟨1, 2, false⟩ ⟨1, 0, 64, 8, by decide⟩ fourByteBlobs := by
  refine (@packet_confined_iff (smallPacket 4) (smallPacket 4) smallMem ⟨1, 2, false⟩ fourByteBlobs 80 80
    ⟨1, 0, 64, 8, by decide⟩ rfl).mpr ⟨fun _ buf mapped => ?_, fun _ position reached more => ?_⟩
  · cases mapped
    exact ⟨by decide, .inr (.inr (.inl (by decide)))⟩
  · have eighth := fourByteBlobs_reached reached
    change position < 8 at more
    have first : position = 0 := by omega
    subst first
    exact ⟨by decide, fun wrap => absurd wrap (by decide)⟩

theorem kmd_buffer_outside : CamPacket.copyPktToKmd 80 (smallPacket 60) 80 = some (smallPacket 60) ∧
      ¬PacketConfined (smallPacket 60) smallMem ⟨1, 2, false⟩ ⟨1, 0, 64, 8, by decide⟩ fourByteBlobs := by
  refine ⟨rfl, fun confined => ?_⟩
  have inside := (confined.kmd ⟨4156, 1, 60, 60, 0⟩ rfl (4096, 64) rfl).1.2
  exact absurd inside (by decide)

end KernelModules.Camera

import KernelModules.Data.RingStream

namespace KernelModules.Vidc

open Data

/-! # The interface queues to the video firmware

A queue is a ring of words with its read and write indices in a shared header.  A packet takes as
many words as its first word says, in bytes.
-/

def vidcIfaceqVarHugePktSize : BitVec 32 := 1024 * 4

def hfiQIdCtrlToHostMsgQ : BitVec 32 := 1

inductive Errno where
  | einval
  | enoent
  | enodata
  | enotempty
  | enomem
deriving DecidableEq

/-- The fields of `struct hfi_queue_header` that reads and writes use. -/
structure HfiQueueHeader where
  qhdrType : BitVec 32
  qhdrRxReq : BitVec 32
  qhdrTxReq : BitVec 32
  qhdrReadIdx : BitVec 32
  qhdrWriteIdx : BitVec 32

/-- `struct msm_vidc_mem_addr`, with the memory that its virtual address leads to. -/
structure MsmVidcMemAddr where
  alignVirtualAddr : Option ByteMemory
  memSize : BitVec 32

structure MsmVidcIfaceQInfo where
  qHdr : Option HfiQueueHeader
  qArray : MsmVidcMemAddr

/-- The `u32` at an address. -/
def word (memory : ByteMemory) (address : Nat) : BitVec 32 :=
  BitVec.ofNat 32 (memory.load address 4)

def emptySpace (words readIdx writeIdx : BitVec 32) : BitVec 32 :=
  if writeIdx ≥ readIdx then words - (writeIdx - readIdx) else readIdx - writeIdx

/-- `__write_queue`: the result, the flag behind `rx_req_is_set`, and the queue. -/
def writeQueue (qinfo : MsmVidcIfaceQInfo) (packet : ByteMemory) (rxReqIsSet : Bool) :
    Except Errno Unit × Bool × MsmVidcIfaceQInfo :=
  match qinfo.qArray.alignVirtualAddr with
  | none => (.error .einval, rxReqIsSet, qinfo)
  | some array =>
    match qinfo.qHdr with
    | none => (.error .enoent, rxReqIsSet, qinfo)
    | some queue =>
      let memSize := qinfo.qArray.memSize
      let packetSizeInWords := word packet 0 >>> 2
      if packetSizeInWords = 0 ∨ packetSizeInWords > memSize >>> 2 then (.error .enodata, rxReqIsSet, qinfo)
      else let readIdx := queue.qhdrReadIdx
        let writeIdx := queue.qhdrWriteIdx
        if emptySpace (memSize >>> 2) readIdx writeIdx ≤ packetSizeInWords then
          (.error .enotempty, rxReqIsSet, { qinfo with qHdr := some { queue with qhdrTxReq := 1 } })
        else let queue := { queue with qhdrTxReq := 0 }
          let newWriteIdx := writeIdx + packetSizeInWords
          let writePtr := (writeIdx <<< 2).toNat
          if writePtr > memSize.toNat then (.error .enodata, rxReqIsSet, { qinfo with qHdr := some queue })
          else if newWriteIdx < memSize >>> 2 then (.ok (), true, { qinfo with
                qHdr := some { queue with qhdrWriteIdx := newWriteIdx }
                qArray.alignVirtualAddr :=
                  some (array.copy packet writePtr 0 (packetSizeInWords <<< 2).toNat) })
          else let newWriteIdx := newWriteIdx - memSize >>> 2
            let first := ((packetSizeInWords - newWriteIdx) <<< 2).toNat
            (.ok (), true, { qinfo with
                qHdr := some { queue with qhdrWriteIdx := newWriteIdx }
                qArray.alignVirtualAddr :=
                  some ((array.copy packet writePtr 0 first).copy packet 0 first
                    (newWriteIdx <<< 2).toNat) })

/-- `__read_queue`: the result, the packet buffer, the word behind `pb_tx_req_is_set`, and the
queue. -/
def readQueue (qinfo : MsmVidcIfaceQInfo) (packet : ByteMemory) (pbTxReqIsSet : BitVec 32) :
    Except Errno Unit × ByteMemory × BitVec 32 × MsmVidcIfaceQInfo :=
  match qinfo.qArray.alignVirtualAddr with
  | none => (.error .einval, packet, pbTxReqIsSet, qinfo)
  | some array =>
    match qinfo.qHdr with
    | none => (.error .enomem, packet, pbTxReqIsSet, qinfo)
    | some queue =>
      let memSize := qinfo.qArray.memSize
      let receiveRequest : BitVec 32 := if queue.qhdrType &&& hfiQIdCtrlToHostMsgQ ≠ 0 then 1 else 0
      let readIdx := queue.qhdrReadIdx
      let writeIdx := queue.qhdrWriteIdx
      if readIdx = writeIdx then (.error .enodata, packet, 0,
          { qinfo with qHdr := some { queue with qhdrRxReq := receiveRequest } })
      else let readPtr := (readIdx <<< 2).toNat
        -- past the last word of the array
        if readPtr + 4 > memSize.toNat then (.error .enodata, packet, pbTxReqIsSet, qinfo)
        else let packetSizeInWords := word array readPtr >>> 2
          if packetSizeInWords = 0 then (.error .enodata, packet, pbTxReqIsSet, qinfo)
          else let newReadIdx := readIdx + packetSizeInWords
            let (rc, packet, newReadIdx) :=
              if packetSizeInWords <<< 2 ≤ vidcIfaceqVarHugePktSize ∧ readIdx ≤ memSize >>> 2 then
                if newReadIdx < memSize >>> 2 then
                  (.ok (), packet.copy array 0 readPtr (packetSizeInWords <<< 2).toNat, newReadIdx)
                else let newReadIdx := newReadIdx - memSize >>> 2
                  let first := ((packetSizeInWords - newReadIdx) <<< 2).toNat
                  (.ok (), (packet.copy array 0 readPtr first).copy array first 0
                    (newReadIdx <<< 2).toNat, newReadIdx)
              else (.error .enodata, packet, writeIdx)
            (rc, packet, if queue.qhdrTxReq = 1 then 1 else 0, { qinfo with
                qHdr := some
                  { queue with qhdrRxReq := receiveRequest, qhdrReadIdx := newReadIdx } })

end KernelModules.Vidc

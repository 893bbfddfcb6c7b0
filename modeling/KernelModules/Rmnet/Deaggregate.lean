import KernelModules.Rmnet.Fragments

namespace KernelModules.Rmnet

open Data Extent List

/-- The bits of `data_format` that the ingress path tests. -/
structure IngressDataFormat where
  mapCksumv4 : Bool
  mapCksumv5 : Bool
  coalesce : Bool
  dlMarker : Bool
  mapCommands : Bool

/-- One `sk_buff` without what hangs on its `frag_list`. -/
structure SkbPart where
  linear : List UInt8
  frags : List SkbFrag

structure SkBuff extends SkbPart where
  priority : Nat
  fragList : List SkbPart

def SkbPart.bytes (pages : Pages) (part : SkbPart) : List UInt8 :=
  part.linear ++ contents pages part.frags

def SkbPart.len (part : SkbPart) : Nat :=
  part.linear.length + total part.frags

namespace SkBuff

def bytes (pages : Pages) (skb : SkBuff) : List UInt8 :=
  skb.toSkbPart.bytes pages ++ skb.fragList.flatMap (SkbPart.bytes pages)

def len (skb : SkBuff) : Nat :=
  skb.toSkbPart.len + (skb.fragList.map SkbPart.len).sum

structure Paged (skb : SkBuff) : Prop where
  linear : skb.linear = []
  fragList : skb.fragList = []

end SkBuff

/-- `-EFAULT` is `none`. -/
def skbCopyBits (pages : Pages) (skb : SkBuff) (offset len : Nat) : Option (List UInt8) :=
  if offset + len ≤ skb.len then some (((skb.bytes pages).drop offset).take len) else none

def byteAt (bytes : List UInt8) (place : Nat) : Nat :=
  (bytes.getD place 0).toNat

/-- `ntohs` of two bytes. -/
def be16At (bytes : List UInt8) (place : Nat) : Nat :=
  byteAt bytes place * 256 + byteAt bytes (place + 1)

structure RmnetMapHeader where
  padLen : Nat
  nextHdr : Bool
  cdBit : Bool
  muxId : Nat
  pktLen : Nat

def RmnetMapHeader.ofBytes (bytes : List UInt8) : RmnetMapHeader :=
  { padLen := byteAt bytes 0 % 64
    nextHdr := byteAt bytes 0 / 64 % 2 == 1
    cdBit := byteAt bytes 0 / 128 % 2 == 1
    muxId := byteAt bytes 1
    pktLen := be16At bytes 2 }

def rmnetMapHeaderSize : Nat := 4
def rmnetMapDlCsumTrailerSize : Nat := 8
def rmnetMapV5CsumHeaderSize : Nat := 4
def rmnetMapV5CoalHeaderSize : Nat := 28
def rmnetMapHeaderTypeCoalescing : Nat := 1
def rmnetMapHeaderTypeCsumOffload : Nat := 2

def v5HeaderSize (type : Nat) : Nat :=
  if type / 2 = rmnetMapHeaderTypeCoalescing then rmnetMapV5CoalHeaderSize
  else if type / 2 = rmnetMapHeaderTypeCsumOffload then rmnetMapV5CsumHeaderSize
  else 0

/-- The fragment in which `start` lies, the bytes of it before `start`, the fragments behind. -/
def startFrag : List SkbFrag → Nat → Nat → Option (Nat × SkbFrag × List SkbFrag)
  | [], _, _ => none
  | frag :: later, start, offset =>
    if start < frag.length + offset then some (start - offset, frag, later)
    else startFrag later start (offset + frag.length)

/-- The QMAP header at `start`, rebuilt where it is split. -/
def qmapHeader (pages : Pages) (skb : SkBuff) (start skip : Nat) (frag : SkbFrag) : Option RmnetMapHeader :=
  if rmnetMapHeaderSize ≤ frag.length - skip then some (.ofBytes ((frag.piece skip rmnetMapHeaderSize).read pages))
  else (skbCopyBits pages skb start rmnetMapHeaderSize).map .ofBytes

def qmapType (pages : Pages) (skb : SkBuff) (start skip : Nat) (frag : SkbFrag) : Option Nat :=
  if rmnetMapHeaderSize + 1 ≤ frag.length - skip then
    some (byteAt ((frag.piece (skip + rmnetMapHeaderSize) 1).read pages) 0)
  else (skbCopyBits pages skb (start + rmnetMapHeaderSize) 1).map (byteAt · 0)

/-- The bytes of the frame; `none` where the type byte is missing. -/
def framePktLen (pages : Pages) (format : IngressDataFormat) (skb : SkBuff) (start skip : Nat)
    (frag : SkbFrag) (maph : RmnetMapHeader) : Option Nat :=
  if format.mapCksumv4 then some (maph.pktLen + rmnetMapHeaderSize + rmnetMapDlCsumTrailerSize)
  else if (format.mapCksumv5 ∨ format.coalesce) ∧ ¬maph.cdBit then
    (qmapType pages skb start skip frag).map fun type =>
      maph.pktLen + rmnetMapHeaderSize + v5HeaderSize type
  else some (maph.pktLen + rmnetMapHeaderSize)

/-- The frame's fragments on the descriptor with the bytes missing; an inner `none` is a failed allocation, the
outer one a loop still running. -/
def addFrameFrags : Nat → List SkbFrag → RmnetFragDescriptor → RmnetFragDescriptorPool → Nat →
    Nat → Option (Option (RmnetFragDescriptor × Nat) × RmnetFragDescriptorPool)
  | 0, _, _, _, _, _ => none
  | _ + 1, [], fragDesc, pool, pktLen, _ => some (some (fragDesc, pktLen), pool)
  | fuel + 1, frag :: later, fragDesc, pool, pktLen, copyLen =>
    if pktLen = 0 then some (some (fragDesc, pktLen), pool)
    else match rmnetFragDescriptorAddFrag fragDesc pool (frag.piece 0 (min frag.length pktLen)) with
      | (none, pool) => some (none, pool)
      | (some fragDesc, pool) =>
        if frag.length = copyLen + min frag.length pktLen then
          addFrameFrags fuel later fragDesc pool (pktLen - min frag.length pktLen) 0
        else addFrameFrags fuel (frag :: later) fragDesc pool (pktLen - min frag.length pktLen)
            (copyLen + min frag.length pktLen)

/-- `-1` is `none` in the first place of the result. -/
def rmnetFragDeaggregateOne (pages : Pages) (format : IngressDataFormat) (skb : SkBuff)
    (fuel : Nat) (list : List RmnetFragDescriptor) (pool : RmnetFragDescriptorPool) (start : Nat) :
    Option (Option Nat × List RmnetFragDescriptor × RmnetFragDescriptorPool) :=
  match startFrag skb.frags start 0 with
  | none => some (none, list, pool)
  | some (skip, frag, later) =>
    match qmapHeader pages skb start skip frag with
    | none => some (none, list, pool)
    | some maph =>
      if maph.pktLen = 0 then some (none, list, pool)
      else match rmnetGetFragDescriptor pool with
        | (none, pool) => some (none, list, pool)
        | (some fragDesc, pool) =>
          match framePktLen pages format skb start skip frag maph with
          | none => some (none, list, pool)
          | some pktLen =>
            match addFrameFrags fuel (frag.piece skip (frag.length - skip) :: later)
              { fragDesc with priority := skb.priority } pool pktLen 0 with
            | none => none
            | some (none, pool) =>
              some (none, list, rmnetRecycleFragDescriptor fragDesc pool)
            | some (some (fragDesc, missing), pool) =>
              if missing ≠ 0 then some (none, list, rmnetRecycleFragDescriptor fragDesc pool)
              else some (some fragDesc.len, list ++ [fragDesc], pool)

def deaggregateFrom (pages : Pages) (format : IngressDataFormat) (skb : SkBuff) :
    Nat → List RmnetFragDescriptor → RmnetFragDescriptorPool → Nat →
      Option (List RmnetFragDescriptor × RmnetFragDescriptorPool)
  | 0, _, _, _ => none
  | fuel + 1, list, pool, start =>
    if start < skb.len then match rmnetFragDeaggregateOne pages format skb fuel list pool start with
      | none => none
      | some (none, list, pool) => some (list, pool)
      | some (some frame, list, pool) =>
        deaggregateFrom pages format skb fuel list pool (start + frame)
    else some (list, pool)

/-- `none` is a loop still running after `fuel` rounds. -/
def rmnetFragDeaggregate (pages : Pages) (format : IngressDataFormat) (fuel : Nat) (skb : SkBuff)
    (list : List RmnetFragDescriptor) (pool : RmnetFragDescriptorPool) :
    Option (List RmnetFragDescriptor × RmnetFragDescriptorPool) :=
  deaggregateFrom pages format skb fuel list pool 0

variable {pages : Pages} {frag : SkbFrag} {frags later : List SkbFrag} {start skip off : Nat}

theorem startFrag_none (beyond : total frags + off ≤ start) : startFrag frags start off = none := by
  induction frags generalizing off with
  | nil => rfl
  | cons frag later ih =>
    rw [total_cons] at beyond
    unfold startFrag
    rw [if_neg (by omega)]
    exact ih (by omega)

theorem startFrag_some (begun : off ≤ start) (lt : start < total frags + off) :
    ∃ skip frag later, startFrag frags start off = some (skip, frag, later) ∧
      skip < frag.length ∧ later.length < frags.length ∧
      total later + (frag.length - skip) = total frags - (start - off) ∧
      ∀ pages : Pages, contents pages (frag.piece skip (frag.length - skip) :: later) =
        (contents pages frags).drop (start - off) := by
  induction frags generalizing off with
  | nil =>
    rw [total_nil] at lt
    omega
  | cons frag later ih =>
    rw [total_cons] at lt
    unfold startFrag
    by_cases here : start < frag.length + off
    · rw [if_pos here]
      refine ⟨_, _, _, rfl, by omega, by simp, by rw [total_cons]; omega, ?_⟩
      intro pages
      have rest : start - off - frag.length = 0 := by omega
      rw [contents_cons, contents_cons, read_piece (by omega),
        drop_append, length_read, rest, drop_zero, take_of_length_le]
      simp
    · rw [if_neg here]
      obtain ⟨skip, found, behind, lookup, inside, fewer, remaining, same⟩ :=
        @ih (off + frag.length) (by omega) (by omega)
      refine ⟨skip, found, behind, lookup, inside, ?_, ?_, ?_⟩
      · rw [length_cons]
        omega
      · rw [total_cons]
        omega
      · intro pages
        have passed : (frag.read pages).drop (start - off) = [] :=
          drop_eq_nil_of_le (by rw [length_read]; omega)
        rw [same pages, contents_cons, drop_append, passed, length_read]
        congr 1
        omega

theorem addFrameFrags_cases (enough : frags.length < fuel) :
    ∃ count, (∃ extra, addFrameFrags fuel frags desc pool pktLen 0 =
          some (some (desc.append extra, pktLen - total frags), pool.consumed count) ∧
        ∀ pages : Pages, contents pages extra = (contents pages frags).take pktLen) ∨
      addFrameFrags fuel frags desc pool pktLen 0 = some (none, pool.consumed count) ∧ ¬pool.AllocsSucceed := by
  induction fuel generalizing frags desc pool pktLen with
  | zero => omega
  | succ fuel ih =>
    cases frags with
    | nil =>
      refine ⟨0, .inl ⟨[], ?_, fun pages => by simp⟩⟩
      simp [addFrameFrags]
    | cons frag later =>
      rw [length_cons] at enough
      unfold addFrameFrags
      by_cases done : pktLen = 0
      · refine ⟨0, .inl ⟨[], ?_, fun pages => by simp [done]⟩⟩
        rw [if_pos done, RmnetFragDescriptor.append_nil, done, Nat.zero_sub]
        rfl
      rw [if_neg done]
      rcases @addFrag_cases pool desc (frag.piece 0 (min frag.length pktLen)) with
        added | ⟨failed, fails⟩
      · rw [added]
        dsimp only
        by_cases whole : frag.length ≤ pktLen
        · rw [if_pos (by omega)]
          obtain ⟨count, ⟨extra, all, same⟩ | ⟨part, fails⟩⟩ :=
            @ih later (desc.append [frag.piece 0 (min frag.length pktLen)])
              (pool.consumed 1) (pktLen - min frag.length pktLen) (by omega)
          · refine ⟨1 + count, .inl ⟨frag.piece 0 (min frag.length pktLen) :: extra, ?_, ?_⟩⟩
            · rw [all, RmnetFragDescriptor.append_append, RmnetFragDescriptorPool.consumed_consumed, total_cons]
              congr 4
              omega
            · intro pages
              have taken : (frag.read pages).take pktLen = frag.read pages :=
                take_of_length_le (by simpa using whole)
              rw [contents_cons, same, contents_cons, take_append, taken, length_read, Nat.min_eq_left whole, piece_all]
          · refine ⟨1 + count, .inr ⟨?_, fun succeed => fails (succeed.consumed 1)⟩⟩
            rw [part, RmnetFragDescriptorPool.consumed_consumed]
        · rw [if_neg (by omega)]
          have last : pktLen - min frag.length pktLen = 0 := by omega
          refine ⟨1, .inl ⟨[frag.piece 0 (min frag.length pktLen)], ?_, ?_⟩⟩
          · cases fuel with
            | zero => omega
            | succ fuel =>
              unfold addFrameFrags
              rw [if_pos last, total_cons]
              congr 4
              omega
          · intro pages
            rw [contents_cons, contents_cons, contents_nil,
              append_nil, Nat.min_eq_right (by omega), read_piece (by omega),
              drop_zero, take_append_of_le_length (by rw [length_read]; omega)]
      · rw [failed]
        exact ⟨1, .inr ⟨rfl, fails⟩⟩

end KernelModules.Rmnet

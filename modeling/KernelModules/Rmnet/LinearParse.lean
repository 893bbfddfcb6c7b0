import KernelModules.Rmnet.Deaggregate

namespace KernelModules.Rmnet

open Data RmnetMapHeader List Extent RmnetFragDescriptor

def frameSize (format : IngressDataFormat) (bytes : List UInt8) : Option Nat :=
  let maph := ofBytes bytes
  if bytes.length < rmnetMapHeaderSize ∨ maph.pktLen = 0 then none
  else if format.mapCksumv4 then some (maph.pktLen + rmnetMapHeaderSize + rmnetMapDlCsumTrailerSize)
  else if (format.mapCksumv5 ∨ format.coalesce) ∧ ¬maph.cdBit then
    some (maph.pktLen + rmnetMapHeaderSize + v5HeaderSize (byteAt bytes rmnetMapHeaderSize))
  else some (maph.pktLen + rmnetMapHeaderSize)

/-- The frames of a byte string, one behind the other, up to the first that is empty or not all
present. -/
def linearFrames (format : IngressDataFormat) (bytes : List UInt8) : List (List UInt8) :=
  match frameSize format bytes with
  | none => []
  | some size =>
    if 0 < size ∧ size ≤ bytes.length then bytes.take size :: linearFrames format (bytes.drop size)
    else []
termination_by bytes.length
decreasing_by
  rw [length_drop]
  omega

variable {pages : Pages} {format : IngressDataFormat} {skb : SkBuff} {frag : SkbFrag}
  {later : List SkbFrag} {pool : RmnetFragDescriptorPool} {bytes : List UInt8}
  {list : List RmnetFragDescriptor} {start skip fuel size : Nat}

theorem byteAt_take {count : Nat} (lt : place < count) : byteAt (bytes.take count) place = byteAt bytes place := by
  unfold byteAt
  rw [getD_eq_getElem?_getD, getElem?_take_of_lt lt, getD_eq_getElem?_getD]

theorem byteAt_drop {count : Nat} : byteAt (bytes.drop count) place = byteAt bytes (count + place) := by
  unfold byteAt
  rw [getD_eq_getElem?_getD, getElem?_drop, getD_eq_getElem?_getD]

theorem RmnetMapHeader.ofBytes_take : ofBytes (bytes.take rmnetMapHeaderSize) = ofBytes bytes := by
  unfold ofBytes be16At
  rw [byteAt_take (by decide), byteAt_take (by decide), byteAt_take (by decide), byteAt_take (by decide)]

theorem v5HeaderSize_le : v5HeaderSize type ≤ 28 := by
  unfold v5HeaderSize rmnetMapV5CsumHeaderSize
  split
  · exact Nat.le_refl _
  · split <;> omega

theorem frameSize_gt (found : frameSize format bytes = some size) :
    rmnetMapHeaderSize < size ∧ rmnetMapHeaderSize ≤ bytes.length := by
  unfold frameSize at found
  by_cases stops : bytes.length < rmnetMapHeaderSize ∨ (ofBytes bytes).pktLen = 0
  · rw [if_pos stops] at found
    cases found
  rw [if_neg stops] at found
  rw [not_or] at stops
  refine ⟨?_, Nat.le_of_not_lt stops.1⟩
  split at found
  · cases found
    omega
  · split at found <;> cases found <;> omega

theorem read_piece_head {count : Nat} (inside : behind + count ≤ frag.length - skip) :
    (frag.piece (skip + behind) count).read pages =
      ((contents pages (frag.piece skip (frag.length - skip) :: later)).drop behind).take count := by
  rw [contents_cons, drop_append_of_le_length (by rw [length_read, length_piece]; omega), take_append_of_le_length
      (by rw [length_drop, length_read, length_piece]; omega)]
  have moved : frag.piece (skip + behind) count = (frag.piece skip (frag.length - skip)).piece behind count := by
    simp [piece, add_assoc]
  rw [moved, read_piece (by exact inside)]

theorem SkBuff.Paged.bytes_eq (paged : skb.Paged) : skb.bytes pages = contents pages skb.frags := by
  unfold SkBuff.bytes SkbPart.bytes
  rw [paged.linear, paged.fragList]
  simp

theorem SkBuff.Paged.len_eq (paged : skb.Paged) : skb.len = total skb.frags := by
  unfold SkBuff.len SkbPart.len
  rw [paged.linear, paged.fragList]
  simp

section Round

variable (paged : skb.Paged)
  (rest : contents pages (frag.piece skip (frag.length - skip) :: later) = (skb.bytes pages).drop start)

include paged rest

theorem length_rest : ((skb.bytes pages).drop start).length = skb.len - start ∧
    frag.length - skip ≤ ((skb.bytes pages).drop start).length := by
  refine ⟨by rw [length_drop, paged.bytes_eq, length_contents, paged.len_eq], ?_⟩
  rw [← rest, length_contents, total_cons, length_piece]
  omega

theorem qmapHeader_eq : qmapHeader pages skb start skip frag =
    if rmnetMapHeaderSize ≤ ((skb.bytes pages).drop start).length then
      some (.ofBytes ((skb.bytes pages).drop start)) else none := by
  obtain ⟨total, first⟩ := length_rest paged rest
  unfold qmapHeader
  by_cases contiguous : rmnetMapHeaderSize ≤ frag.length - skip
  · have read := @read_piece_head pages frag later skip 0 rmnetMapHeaderSize (by omega)
    rw [rest, drop_zero, add_zero] at read
    rw [if_pos contiguous, read, ofBytes_take, if_pos (by omega)]
  rw [if_neg contiguous]
  unfold skbCopyBits
  by_cases here : start + rmnetMapHeaderSize ≤ skb.len
  · rw [if_pos here, if_pos (by omega), Option.map_some, ofBytes_take]
  · rw [if_neg here, if_neg (by omega)]
    rfl

theorem qmapType_eq : qmapType pages skb start skip frag =
    if rmnetMapHeaderSize < ((skb.bytes pages).drop start).length then
      some (byteAt ((skb.bytes pages).drop start) rmnetMapHeaderSize) else none := by
  obtain ⟨total, first⟩ := length_rest paged rest
  unfold qmapType
  by_cases contiguous : rmnetMapHeaderSize + 1 ≤ frag.length - skip
  · have read := @read_piece_head pages frag later skip rmnetMapHeaderSize 1 contiguous
    rw [rest] at read
    rw [if_pos contiguous, read, byteAt_take (by decide), byteAt_drop, add_zero, if_pos (by omega)]
  rw [if_neg contiguous]
  unfold skbCopyBits
  by_cases here : start + rmnetMapHeaderSize + 1 ≤ skb.len
  · rw [if_pos here, if_pos (by omega), Option.map_some, byteAt_take (by decide), ← drop_drop, byteAt_drop, add_zero]
  · rw [if_neg here, if_neg (by omega)]
    rfl

theorem framePktLen_cases (hdr : rmnetMapHeaderSize ≤ ((skb.bytes pages).drop start).length)
    (nonempty : (ofBytes ((skb.bytes pages).drop start)).pktLen ≠ 0) :
    framePktLen pages format skb start skip frag (.ofBytes ((skb.bytes pages).drop start)) =
        frameSize format ((skb.bytes pages).drop start) ∨
      framePktLen pages format skb start skip frag (.ofBytes ((skb.bytes pages).drop start)) =
          none ∧ ((skb.bytes pages).drop start).length = rmnetMapHeaderSize := by
  have goes : ¬(((skb.bytes pages).drop start).length < rmnetMapHeaderSize ∨
      (ofBytes ((skb.bytes pages).drop start)).pktLen = 0) :=
    not_or.mpr ⟨Nat.not_lt.mpr hdr, nonempty⟩
  unfold framePktLen frameSize
  rw [if_neg goes]
  by_cases trailer : format.mapCksumv4
  · rw [if_pos trailer, if_pos trailer]
    exact .inl rfl
  rw [if_neg trailer, if_neg trailer]
  by_cases typed : (format.mapCksumv5 ∨ format.coalesce) ∧ ¬(ofBytes ((skb.bytes pages).drop start)).cdBit
  · rw [if_pos typed, if_pos typed, qmapType_eq paged rest]
    by_cases here : rmnetMapHeaderSize < ((skb.bytes pages).drop start).length
    · rw [if_pos here]
      exact .inl rfl
    · rw [if_neg here]
      exact .inr ⟨rfl, by omega⟩
  · rw [if_neg typed, if_neg typed]
    exact .inl rfl

end Round

theorem getFragDescriptor_succeeds (succeed : pool.AllocsSucceed) :
    ∃ num ticket after, rmnetGetFragDescriptor pool = (some (.zeroed num ticket), after) ∧ after.AllocsSucceed := by
  unfold rmnetGetFragDescriptor
  cases free : pool.freeList with
  | cons num others => exact ⟨_, _, _, rfl, succeed⟩
  | nil =>
    rw [succeed.alloc]
    exact ⟨_, _, _, rfl, succeed.consumed 1⟩

theorem deaggregateOne_linear (paged : skb.Paged) (succeed : pool.AllocsSucceed)
    (enough : skb.frags.length < fuel) (lt : start < skb.len) :
    (∃ size desc after, frameSize format ((skb.bytes pages).drop start) = some size ∧
        size ≤ ((skb.bytes pages).drop start).length ∧
        rmnetFragDeaggregateOne pages format skb fuel list pool start = some (some size, list ++ [desc], after) ∧
        after.AllocsSucceed ∧ desc.len = size ∧ desc.bytes pages = ((skb.bytes pages).drop start).take size) ∨
      (∀ size, frameSize format ((skb.bytes pages).drop start) = some size →
        ((skb.bytes pages).drop start).length < size) ∧
      ∃ after, rmnetFragDeaggregateOne pages format skb fuel list pool start = some (none, list, after) := by
  obtain ⟨skip, frag, later, lookup, inside, fewer, remaining, same⟩ :=
    @startFrag_some skb.frags start 0 (Nat.zero_le _) (by rw [← paged.len_eq]; omega)
  have rest : contents pages (frag.piece skip (frag.length - skip) :: later) = (skb.bytes pages).drop start := by
    rw [same pages, paged.bytes_eq, Nat.sub_zero]
  have count : total (frag.piece skip (frag.length - skip) :: later) = ((skb.bytes pages).drop start).length := by
    rw [← rest, length_contents]
  unfold rmnetFragDeaggregateOne
  rw [lookup]
  dsimp only
  rw [qmapHeader_eq paged rest]
  by_cases hdr : rmnetMapHeaderSize ≤ ((skb.bytes pages).drop start).length
  · rw [if_pos hdr]
    dsimp only
    by_cases empty : (ofBytes ((skb.bytes pages).drop start)).pktLen = 0
    · rw [if_pos empty]
      refine .inr ⟨fun size found => ?_, pool, rfl⟩
      unfold frameSize at found
      rw [if_pos (.inr empty)] at found
      cases found
    rw [if_neg empty]
    obtain ⟨num, ticket, after, taken, afterSucceed⟩ := getFragDescriptor_succeeds succeed
    rw [taken]
    rcases @framePktLen_cases pages format skb frag later start skip paged rest hdr empty with
      known | ⟨missing, short⟩
    · rw [known]
      cases found : frameSize format ((skb.bytes pages).drop start) with
      | none => exact .inr ⟨fun size found => (by cases found), after, rfl⟩
      | some size =>
        dsimp only
        obtain ⟨consumed, ⟨extra, added, bytes⟩ | ⟨failed, fails⟩⟩ :=
          @addFrameFrags_cases (frag.piece skip (frag.length - skip) :: later)
            fuel { zeroed num ticket with priority := skb.priority } after
            size (by rw [length_cons]; omega)
        · rw [added]
          dsimp only
          by_cases complete : size ≤ ((skb.bytes pages).drop start).length
          · rw [if_neg (by omega)]
            have frame : (append
                { zeroed num ticket with priority := skb.priority }
                  extra).bytes pages = ((skb.bytes pages).drop start).take size := by
              rw [bytes_append, bytes, rest]
              rfl
            have len := congrArg List.length frame
            rw [length_bytes, length_take, Nat.min_eq_left complete] at len
            refine .inl ⟨size, _, _, rfl, complete, ?_, afterSucceed.consumed consumed, len, frame⟩
            rw [len]
          · rw [if_pos (by omega)]
            refine .inr ⟨fun other same => ?_, _, rfl⟩
            cases same
            omega
        · exact absurd afterSucceed fails
    · rw [missing]
      refine .inr ⟨fun size found => ?_, after, rfl⟩
      have longer := (frameSize_gt found).1
      omega
  · rw [if_neg hdr]
    refine .inr ⟨fun size found => ?_, pool, rfl⟩
    exact absurd (frameSize_gt found).2 hdr

theorem linearFrames_cons (found : frameSize format bytes = some size) (complete : size ≤ bytes.length) :
    linearFrames format bytes = bytes.take size :: linearFrames format (bytes.drop size) := by
  have pos : 0 < size := Nat.lt_of_le_of_lt (Nat.zero_le _) (frameSize_gt found).1
  rw [linearFrames, found]
  exact if_pos ⟨pos, complete⟩

theorem linearFrames_nil (stops : ∀ size, frameSize format bytes = some size → bytes.length < size) :
    linearFrames format bytes = [] := by
  rw [linearFrames]
  cases found : frameSize format bytes with
  | none => rfl
  | some size => exact if_neg (fun both => by have := stops size found; omega)

theorem deaggregateFrom_linear (paged : skb.Paged) (succeed : pool.AllocsSucceed)
    (enough : skb.frags.length + (skb.len - start) < fuel) :
    ∃ descs after, deaggregateFrom pages format skb fuel list pool start = some (list ++ descs, after) ∧
      descs.map (RmnetFragDescriptor.bytes pages) = linearFrames format ((skb.bytes pages).drop start) := by
  induction fuel generalizing list pool start with
  | zero => omega
  | succ fuel ih =>
    unfold deaggregateFrom
    by_cases lt : start < skb.len
    · rw [if_pos lt]
      rcases @deaggregateOne_linear pages format skb pool list start fuel paged succeed (by omega)
        lt with ⟨size, desc, after, found, complete, step, afterSucceed, len, frame⟩ | ⟨stops, after, step⟩
      · rw [step]
        have longer := (frameSize_gt found).1
        obtain ⟨descs, last, run, frames⟩ :=
          @ih after (list ++ [desc]) (start + size) afterSucceed (by omega)
        refine ⟨desc :: descs, last, ?_, ?_⟩
        · dsimp only
          rw [run, append_assoc]
          rfl
        · rw [map_cons, frame, frames, linearFrames_cons found complete, drop_drop]
      · rw [step]
        exact ⟨[], after, by simp, by rw [linearFrames_nil stops]; rfl⟩
    · rw [if_neg lt]
      have none : (skb.bytes pages).drop start = [] := by
        apply drop_eq_nil_of_le
        rw [paged.bytes_eq, Extent.length_contents, ← paged.len_eq]
        omega
      refine ⟨[], pool, by simp, ?_⟩
      rw [none, linearFrames_nil]
      · rfl
      · intro size found
        exact absurd (frameSize_gt found).2 (by decide)

/-- Deaggregation of paged data gives the frames of the linear parse, each on one descriptor, however the bytes are
split. -/
theorem deaggregate_linear (paged : skb.Paged) (succeed : pool.AllocsSucceed)
    (enough : skb.frags.length + skb.len < fuel) :
    (∃ descs after, rmnetFragDeaggregate pages format fuel skb list pool = some (list ++ descs, after) ∧
      descs.map (RmnetFragDescriptor.bytes pages) = linearFrames format (skb.bytes pages) ∧
      ∀ desc ∈ descs, desc.len = (desc.bytes pages).length) ∧
    ∀ (other : SkBuff) (otherPages : Pages) (otherPool : RmnetFragDescriptorPool)
      (otherFuel : Nat), other.Paged → otherPool.AllocsSucceed →
      other.frags.length + other.len < otherFuel → other.bytes otherPages = skb.bytes pages →
      ∃ descs after otherDescs otherAfter,
        rmnetFragDeaggregate pages format fuel skb [] pool = some (descs, after) ∧
        rmnetFragDeaggregate otherPages format otherFuel other [] otherPool = some (otherDescs, otherAfter) ∧
        otherDescs.map (RmnetFragDescriptor.bytes otherPages) = descs.map (RmnetFragDescriptor.bytes pages) := by
  refine ⟨?_, ?_⟩
  · obtain ⟨descs, after, run, frames⟩ :=
      @deaggregateFrom_linear pages format skb pool list 0 fuel paged succeed (by omega)
    exact ⟨descs, after, run, frames, fun desc _ => RmnetFragDescriptor.length_bytes.symm⟩
  · intro other otherPages otherPool otherFuel otherPaged otherSucceed otherEnough same
    obtain ⟨descs, after, run, frames⟩ :=
      @deaggregateFrom_linear pages format skb pool [] 0 fuel paged succeed (by omega)
    obtain ⟨otherDescs, otherAfter, otherRun, otherFrames⟩ :=
      @deaggregateFrom_linear otherPages format other otherPool [] 0 otherFuel otherPaged
        otherSucceed (by omega)
    refine ⟨descs, after, otherDescs, otherAfter, run, otherRun, ?_⟩
    rw [frames, otherFrames, List.drop_zero, List.drop_zero, same]

def splitPages : Pages := fun page place =>
  if page = 0 then [0, 1, 0].getD place 0 else [2, 7, 8].getD place 0

def splitSkb : SkBuff :=
  { linear := [], frags := [⟨0, 0, 3⟩, ⟨1, 0, 3⟩], priority := 0, fragList := [] }

theorem deaggregate_linear_split :
    ∃ descs after, rmnetFragDeaggregate splitPages ⟨false, true, false, false, false⟩ 9 splitSkb []
        ⟨[0], 1, [], 0⟩ = some (descs, after) ∧
      descs.map (RmnetFragDescriptor.bytes splitPages) =
        linearFrames ⟨false, true, false, false, false⟩ [0, 1, 0, 2, 7, 8] := by
  obtain ⟨⟨descs, after, run, frames, _⟩, _⟩ :=
    @deaggregate_linear splitPages ⟨false, true, false, false, false⟩ splitSkb ⟨[0], 1, [], 0⟩ [] 9
      ⟨rfl, rfl⟩ (fun outcome member => by cases member) (by decide)
  exact ⟨descs, after, run, frames⟩

end KernelModules.Rmnet

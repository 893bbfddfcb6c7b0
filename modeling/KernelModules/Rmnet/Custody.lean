import KernelModules.Data.Custody
import KernelModules.Rmnet.Ingress

namespace KernelModules.Rmnet

open Data RmnetFragDescriptorPool List RmnetFragDescriptor Rmnet

namespace RmnetFragDescriptorPool

/-- The descriptors that exist when the pool has become `pool`. -/
def stock (start pool : RmnetFragDescriptorPool) : List Nat :=
  start.freeList ++ List.range' start.poolSize (pool.poolSize - start.poolSize)

structure Valid (pool : RmnetFragDescriptorPool) : Prop where
  once : pool.freeList.Nodup
  exist : ∀ number ∈ pool.freeList, number < pool.poolSize

end RmnetFragDescriptorPool

def RmnetFragDescriptor.slip (desc : RmnetFragDescriptor) : Nat × Nat :=
  (desc.number, desc.ticket)

/-- Since the start, descriptors were made and handed out and allocations were used up. -/
structure Kept (start pool : RmnetFragDescriptorPool) (held : List (Nat × Nat)) (sent : List Nat) : Prop where
  valid : start.Valid
  grown : start.poolSize ≤ pool.poolSize
  custody : Custody (start.stock pool) pool.freeList held sent pool.issued
  allocs : ∃ count, pool.allocs = start.allocs.drop count

variable {pages : Pages} {start pool after : RmnetFragDescriptorPool} {held others : List (Nat × Nat)}
  {sent : List Nat} {desc left : RmnetFragDescriptor} {size count len : Nat}

namespace Kept

theorem init (valid : start.Valid) : Kept start start [] [] := by
  refine ⟨valid, le_refl _, ?_, 0, rfl⟩
  unfold RmnetFragDescriptorPool.stock
  rw [Nat.sub_self, List.range'_zero, List.append_nil]
  exact ⟨valid.once, by rw [List.map_nil, List.append_nil], List.nodup_nil, fun _ absent => by cases absent⟩

section

variable (kept : Kept start pool held sent)
include kept

theorem perm (same : held.Perm others) : Kept start pool others sent :=
  { kept with custody := kept.custody.perm same }

theorem consumed : Kept start (pool.consumed count) held sent := by
  obtain ⟨before, same⟩ := kept.allocs
  refine ⟨kept.valid, kept.grown, kept.custody, before + count, ?_⟩
  unfold RmnetFragDescriptorPool.consumed
  rw [same, drop_drop]

theorem new : pool.poolSize ∉ start.stock pool := by
  intro mem
  rcases mem_append.mp mem with old | made
  · exact absurd (kept.valid.exist _ old) (not_lt.mpr kept.grown)
  · have inside := mem_range'_1.mp made
    omega

theorem get (got : rmnetGetFragDescriptor pool = (taken, after)) :
    Kept start after ((taken.map slip).toList ++ held) sent := by
  unfold rmnetGetFragDescriptor at got
  cases free : pool.freeList with
  | cons number later =>
    rw [free] at got
    cases got
    have custody := kept.custody
    rw [free] at custody
    exact { kept with custody := custody.take }
  | nil =>
    rw [free, alloc_eq] at got
    have rest : Kept start (pool.consumed 1) held sent := kept.consumed
    cases out : pool.allocs.headD true with
    | false =>
      rw [out] at got
      cases got
      exact rest
    | true =>
      rw [out] at got
      cases got
      have custody := kept.custody.grow kept.new
      have stock : start.stock pool ++ [pool.poolSize] =
          start.stock { pool with poolSize := pool.poolSize + 1 } := by
        unfold stock
        have grown := kept.grown
        have more : pool.poolSize + 1 - start.poolSize = pool.poolSize - start.poolSize + 1 := by
          omega
        rw [more, List.range'_1_concat, append_assoc]
        congr 3
        omega
      rw [stock] at custody
      exact ⟨kept.valid, Nat.le_succ_of_le kept.grown, custody.take, rest.allocs⟩

end

theorem recycle (kept : Kept start pool (desc.slip :: held) sent) :
    Kept start (rmnetRecycleFragDescriptor desc pool) held sent :=
  { kept with custody := kept.custody.recycle }

theorem again (kept : Kept start pool held sent) (free : desc.number ∈ pool.freeList) :
    Kept start (rmnetRecycleFragDescriptor desc pool) held sent :=
  { kept with custody := kept.custody.again free }

theorem send (kept : Kept start pool (desc.slip :: held) sent) :
    Kept start (rmnetRecycleFragDescriptor desc pool) held (sent ++ [desc.ticket]) :=
  { kept with custody := kept.custody.send }

end Kept

theorem recycle_free : desc.number ∈ (rmnetRecycleFragDescriptor desc pool).freeList :=
  mem_append_right _ (mem_singleton_self _)

/-- A helper was given a descriptor that is held: it is held still, or NULL was returned and it is
free. -/
inductive Helped (start after : RmnetFragDescriptorPool) (desc left : RmnetFragDescriptor)
    (held : List (Nat × Nat)) (sent : List Nat) : Bool → Prop where
  | held (same : left.slip = desc.slip) (kept : Kept start after (desc.slip :: held) sent) :
      Helped start after desc left held sent true
  | null (same : left.slip = desc.slip) (free : desc.number ∈ after.freeList)
      (kept : Kept start after held sent) : Helped start after desc left held sent false

section

variable (kept : Kept start pool (desc.slip :: held) sent)
include kept

theorem Kept.pull (run : rmnetFragPull desc pool size = (found, left, after)) :
    Helped start after desc left held sent found.isSome ∧ (found.isSome → 0 < left.len) := by
  by_cases short : desc.len ≤ size
  · rw [rmnetFragPull_short short] at run
    cases run
    exact ⟨.null rfl recycle_free kept.recycle, fun none => by cases none⟩
  obtain ⟨first, same⟩ := @rmnetFragPull_eq pool desc size (Nat.lt_of_not_le short)
  rw [same] at run
  cases run
  refine ⟨.held rfl kept, fun _ => ?_⟩
  have len := congrArg List.length (@contents_pullLoop (fun _ _ => 0) desc.frags size desc.len)
  rw [Extent.length_contents, length_drop, Extent.length_contents, ← desc.len_eq] at len
  change 0 < Extent.total (pullLoop desc.frags size desc.len).1
  omega

theorem Kept.trim (nonempty : 0 < desc.len) (run : rmnetFragTrim desc pool size = (found, left, after)) :
    Helped start after desc left held sent found.isSome := by
  cases size with
  | zero =>
    cases run
    exact .null rfl recycle_free kept.recycle
  | succ size =>
    obtain ⟨first, frags, same, _⟩ := @rmnetFragTrim_eq pool desc _ (Nat.succ_pos size) nonempty
    rw [same] at run
    cases run
    exact .held rfl kept

theorem Kept.pullAndTrim (run : Rmnet.pullAndTrim desc pool size len = (found, left, after)) :
    Helped start after desc left held sent found.isSome ∧ ∀ one ∈ found, one = left := by
  unfold Rmnet.pullAndTrim at run
  cases pulled : rmnetFragPull desc pool size with
  | mk found rest =>
  obtain ⟨pulledDesc, pulledPool⟩ := rest
  obtain ⟨helped, nonempty⟩ := kept.pull pulled
  rw [pulled] at run
  cases found with
  | none =>
    cases run
    exact ⟨helped, fun _ absent => by cases absent⟩
  | some first =>
    dsimp only at run
    cases helped with
    | held same keptPulled =>
    rw [← same] at keptPulled
    cases trimmed : rmnetFragTrim pulledDesc pulledPool len with
    | mk found rest =>
    have helped := keptPulled.trim (nonempty rfl) trimmed
    rw [trimmed] at run
    cases found with
    | none =>
      cases run
      cases helped with
      | null again free keptTrimmed =>
        have num : pulledDesc.number = desc.number := congrArg Prod.fst same
        rw [num] at free
        exact ⟨.null (again.trans same) free keptTrimmed, fun _ absent => by cases absent⟩
    | some first =>
      cases run
      cases helped with
      | held again keptTrimmed =>
        rw [same] at keptTrimmed
        exact ⟨.held (again.trans same) keptTrimmed, fun one found => by cases found; rfl⟩

end

theorem addSkbFrags_pool {frags : List SkbFrag} {parts : List (List SkbFrag)} {curr : List SkbFrag} :
    ∃ count, (addSkbFrags frags parts curr pool).2 = pool.consumed count := by
  induction frags generalizing parts curr pool with
  | nil => exact ⟨0, rfl⟩
  | cons frag later ih =>
    unfold addSkbFrags
    by_cases room : curr.length < maxSkbFrags
    · rw [if_pos room]
      exact ih
    rw [if_neg room, alloc_eq]
    cases pool.allocs.headD true with
    | true =>
      obtain ⟨count, same⟩ := @ih (pool.consumed 1) (parts ++ [curr]) [frag]
      exact ⟨1 + count, same.trans consumed_consumed⟩
    | false => exact ⟨1, rfl⟩

theorem Kept.allocSkb {skb : Option SkBuff} (kept : Kept start pool (desc.slip :: held) sent)
    (run : rmnetAllocSkb pages desc pool = (skb, left, after)) :
    left.slip = desc.slip ∧ (Kept start after (desc.slip :: held) sent ∨
      skb = none ∧ desc.number ∈ after.freeList ∧ Kept start after held sent) := by
  unfold rmnetAllocSkb at run
  rw [alloc_eq] at run
  have alloc : Kept start (pool.consumed 1) (desc.slip :: held) sent := kept.consumed
  cases out : pool.allocs.headD true with
  | false =>
    rw [out] at run
    cases run
    exact ⟨rfl, .inl alloc⟩
  | true =>
    rw [out] at run
    dsimp only at run
    generalize (desc.ipLen + desc.transLen) % 65536 = hdrLen at run
    by_cases valid : desc.hdrsValid = true
    · rw [if_pos valid] at run
      by_cases whole : hdrLen = desc.len
      · rw [if_pos whole] at run
        cases run
        exact ⟨rfl, .inl alloc⟩
      rw [if_neg whole] at run
      cases pulled : rmnetFragPull desc (pool.consumed 1) hdrLen with
      | mk found rest =>
      obtain ⟨pulledDesc, pulledPool⟩ := rest
      obtain ⟨helped, _⟩ := alloc.pull pulled
      rw [pulled] at run
      cases found with
      | none =>
        cases run
        cases helped with
        | null same free recycled => exact ⟨same, .inr ⟨rfl, free, recycled⟩⟩
      | some first =>
        cases run
        cases helped with
        | held same still =>
          obtain ⟨count, used⟩ := @addSkbFrags_pool pulledPool left.frags [] []
          rw [used]
          exact ⟨same, .inl still.consumed⟩
    · rw [if_neg valid] at run
      cases run
      obtain ⟨count, used⟩ := @addSkbFrags_pool (pool.consumed 1) desc.frags [] []
      rw [used]
      exact ⟨rfl, .inl alloc.consumed⟩

theorem Kept.deliver (kept : Kept start ingress.pool (desc.slip :: held) (ingress.delivered.map Prod.fst)) :
    Kept start (rmnetFragDeliver pages ingress desc).pool held
        ((rmnetFragDeliver pages ingress desc).delivered.map Prod.fst) ∧
      (rmnetFragDeliver pages ingress desc).perf = ingress.perf := by
  unfold rmnetFragDeliver
  cases ran : rmnetAllocSkb pages desc ingress.pool with
  | mk skb rest =>
  obtain ⟨left, pool⟩ := rest
  refine ⟨?_, rfl⟩
  rw [List.map_append]
  obtain ⟨same, still | ⟨rfl, free, recycled⟩⟩ := kept.allocSkb ran
  · rw [← same] at still
    cases skb with
    | none =>
      change Kept start _ held (ingress.delivered.map Prod.fst ++ [])
      rw [List.append_nil]
      exact still.recycle
    | some skb =>
      have ticket : left.ticket = desc.ticket := congrArg Prod.snd same
      rw [← ticket]
      exact still.send
  · have num : left.number = desc.number := congrArg Prod.fst same
    rw [← num] at free
    change Kept start _ held (ingress.delivered.map Prod.fst ++ [])
    rw [List.append_nil]
    exact recycled.again free

section Segments

variable {coalDesc newDesc carried : RmnetFragDescriptor} {list segs : List RmnetFragDescriptor}
  {off dlen pktId : Nat} {csumValid valid : Bool}

theorem slip_clear [Decidable clears] {tcpFlags : Nat}
    (stamped : (if clears then some ({ newDesc with tcpFlagsSet := true, tcpFlags }, csumValid)
      else some (newDesc, csumValid)) = some (carried, valid)) : carried.slip = newDesc.slip := by
  split at stamped <;> cases stamped <;> rfl

theorem segmentTransport_slip
    (stamped : segmentTransport pages coalDesc newDesc off dlen csumValid = some (carried, valid)) :
    carried.slip = newDesc.slip := by
  unfold segmentTransport at stamped
  by_cases tcp : coalDesc.transProto = ipprotoTcp
  · rw [if_pos tcp] at stamped
    cases hdr : rmnetFragHeaderPtr pages coalDesc coalDesc.ipLen 20 with
    | none =>
      rw [hdr] at stamped
      cases stamped
    | some th =>
      rw [hdr] at stamped
      exact (slip_clear stamped :)
  · rw [if_neg tcp] at stamped
    by_cases udp : coalDesc.transProto = ipprotoUdp
    · rw [if_pos udp] at stamped
      cases hdr : rmnetFragHeaderPtr pages coalDesc coalDesc.ipLen 8 with
      | none =>
        rw [hdr] at stamped
        cases stamped
      | some uh =>
        rw [hdr] at stamped
        cases stamped
        rfl
    · rw [if_neg udp] at stamped
      cases stamped
      rfl

theorem segmentIp_slip (stamped : segmentIp pages coalDesc newDesc = some carried) : carried.slip = newDesc.slip := by
  unfold segmentIp at stamped
  by_cases four : coalDesc.ipProto = 4
  · rw [if_pos four] at stamped
    cases hdr : rmnetFragHeaderPtr pages coalDesc 0 20 with
    | none =>
      rw [hdr] at stamped
      cases stamped
    | some iph =>
      rw [hdr] at stamped
      cases stamped
      rfl
  · rw [if_neg four] at stamped
    cases stamped
    rfl

def Segments (start : RmnetFragDescriptorPool) (held : List (Nat × Nat)) (sent : List Nat)
    (slip : Nat × Nat) (state : FragSegmenting) : Prop :=
  state.coalDesc.slip = slip ∧
    Kept start state.pool (slip :: (state.list.map RmnetFragDescriptor.slip ++ held)) sent

theorem Kept.segmentData (kept : Kept start pool (coalDesc.slip :: (list.map slip ++ held)) sent)
    (run : rmnetFragSegmentData pages coalDesc pool list pktId csumValid = (left, after, segs)) :
    left.slip = coalDesc.slip ∧ Kept start after (coalDesc.slip :: (segs.map slip ++ held)) sent := by
  unfold rmnetFragSegmentData at run
  cases got : rmnetGetFragDescriptor pool with
  | mk taken reached =>
  have begun := kept.get got
  rw [got] at run
  cases taken with
  | none =>
    cases run
    exact ⟨rfl, begun⟩
  | some taken =>
    dsimp only at run
    -- every way out gives the taken descriptor back
    have back : ∀ {count}, Kept start (rmnetRecycleFragDescriptor taken (reached.consumed count))
        (coalDesc.slip :: (list.map slip ++ held)) sent := fun {count} =>
      (show Kept start (reached.consumed count) (taken.slip :: _) sent from begun.consumed).recycle
    obtain ⟨first, ⟨_, headed⟩ | ⟨failed, _⟩⟩ := @addFragsFrom_cases reached
      (copiedDesc taken coalDesc) 0 (coalDesc.ipLen + coalDesc.transLen) coalDesc
    · rw [headed] at run
      dsimp only at run
      obtain ⟨second, ⟨_, filled⟩ | ⟨failed, _⟩⟩ := @addFragsFrom_cases (reached.consumed first)
        ((copiedDesc taken coalDesc).append (carve coalDesc.frags 0 (coalDesc.ipLen + coalDesc.transLen)))
        (coalDesc.ipLen + coalDesc.transLen + coalDesc.dataOffset)
        (coalDesc.gsoSize * coalDesc.gsoSegs) coalDesc
      · rw [filled, consumed_consumed] at run
        dsimp only at run
        split at run
        · cases run
          exact ⟨rfl, back⟩
        · rename_i carried csumValid stamped
          split at run
          · cases run
            exact ⟨rfl, back⟩
          · rename_i newDesc identified
            cases run
            have slip := (segmentIp_slip identified).trans (segmentTransport_slip stamped)
            have last : ({ newDesc with csumValid } : RmnetFragDescriptor).slip = taken.slip := slip
            refine ⟨rfl, begun.consumed.perm ?_⟩
            rw [map_append, map_singleton, last, append_assoc]
            exact (List.Perm.swap _ _ _).trans (perm_middle.symm.cons _)
      · rw [failed, consumed_consumed] at run
        cases run
        exact ⟨rfl, back⟩
    · rw [failed] at run
      cases run
      exact ⟨rfl, back⟩

theorem Segmenter.kept_nlos {ops : Segmenter σ} {property : σ → Prop}
    (setSegs : ∀ state segs, property state → property (ops.setSegs state segs))
    (setPktLen : ∀ state pktLen, property state → property (ops.setPktLen state pktLen))
    (segment : ∀ state totalPkt valid, property state → property (ops.segment state totalPkt valid))
    {state : σ} (holds : property state) : property (ops.nlos gro pairs mask state) := by
  have flush : ∀ locals : Segmenting σ, property locals.state → property (ops.flush locals) := by
    intro locals holds
    unfold Segmenter.flush
    split
    · exact segment _ _ _ holds
    · exact holds
  have pkt : ∀ locals : Segmenting σ, property locals.state → property (ops.packet gro locals).state := by
    intro locals holds
    unfold Segmenter.packet
    dsimp only
    split
    · exact segment _ _ _ (setSegs _ _ holds)
    · split
      · exact segment _ _ _ (setSegs _ _ (flush _ holds))
      · exact setSegs _ _ holds
  have packets : ∀ (count : Nat) (locals : Segmenting σ), property locals.state →
      property (ops.packets gro count locals).state := by
    intro count
    induction count with
    | zero => exact fun _ holds => holds
    | succ count ih => exact fun locals holds => ih _ (pkt locals holds)
  have all : ∀ locals : Segmenting σ, property locals.state → property (pairs.foldl (ops.nlo gro) locals).state := by
    induction pairs with
    | nil => exact fun _ holds => holds
    | cons pair later ih =>
      exact fun locals holds => ih _ (flush _ (packets _ _ (setPktLen _ _ holds)))
  exact all ⟨state, mask, 0⟩ holds

section

variable {slip : Nat × Nat} {state : FragSegmenting} (holds : Segments start held sent slip state)
include holds

theorem Segments.setSize {gsoSize : Nat} :
    Segments start held sent slip { state with coalDesc := { state.coalDesc with gsoSize } } :=
  holds

theorem Segments.nlos {pairs : List RmnetMapV5NlPair} {mask : Nat} :
    Segments start held sent slip ((fragSegmenter pages).nlos gro pairs mask state) := by
  refine Segmenter.kept_nlos (fun _ _ holds => holds) (fun _ _ holds => holds.setSize) ?_ holds
  intro state totalPkt valid ⟨same, kept⟩
  rw [← same] at kept
  obtain ⟨again, segmented⟩ := kept.segmentData
    (rfl : rmnetFragSegmentData pages state.coalDesc state.pool state.list totalPkt valid = _)
  rw [same] at again segmented
  exact ⟨again, segmented⟩

end

theorem coalTransHeader_slip (read : coalTransHeader pages coalDesc gro = some (carried, groOut, zeroCsum)) :
    carried.slip = coalDesc.slip := by
  unfold coalTransHeader at read
  split at read
  · split at read
    · cases read
    · cases read
      rfl
  · split at read
    · split at read
      · cases read
      · cases read
        rfl
    · cases read

theorem coalHeaders_slip (read : coalHeaders pages coalDesc = some (carried, gro, zeroCsum)) :
    carried.slip = coalDesc.slip := by
  unfold coalHeaders at read
  cases head : rmnetFragDataPtr coalDesc with
  | none =>
    rw [head] at read
    cases read
  | some first =>
    rw [head] at read
    dsimp only at read
    split at read
    · split at read
      · cases read
      · exact (coalTransHeader_slip read :)
    · split at read
      · split at read
        · cases read
        · split at read
          · cases read
          · split at read
            · cases read
            · exact (coalTransHeader_slip read :)
      · cases read

/-- A coalesced frame goes out whole, or it is held beside its segments, or it was recycled. -/
inductive Segmented (start after : RmnetFragDescriptorPool) (slip : Nat × Nat)
    (held : List (Nat × Nat)) (sent : List Nat) : List RmnetFragDescriptor → Prop where
  | whole (one : RmnetFragDescriptor) (same : one.slip = slip) (kept : Kept start after (slip :: held) sent) :
      Segmented start after slip held sent [one]
  | segments (list : List RmnetFragDescriptor)
      (kept : Kept start after (slip :: (list.map RmnetFragDescriptor.slip ++ held)) sent) :
      Segmented start after slip held sent list
  | recycled (free : slip.1 ∈ after.freeList) (kept : Kept start after held sent) :
      Segmented start after slip held sent []

theorem Kept.segmentCoalData (kept : Kept start pool (desc.slip :: held) sent)
    (run : rmnetFragSegmentCoalData pages desc mask pool [] = (left, after, list)) :
    left.slip = desc.slip ∧ Segmented start after desc.slip held sent list := by
  unfold rmnetFragSegmentCoalData at run
  cases copied : rmnetFragCopyData pages desc rmnetMapHeaderSize rmnetMapV5CoalHeaderSize with
  | none =>
    rw [copied] at run
    cases run
    exact ⟨rfl, .segments [] kept⟩
  | some header =>
    rw [copied] at run
    cases pulled : rmnetFragPull desc pool (rmnetMapHeaderSize + rmnetMapV5CoalHeaderSize) with
    | mk found rest =>
    obtain ⟨pulledDesc, pulledPool⟩ := rest
    obtain ⟨helped, _⟩ := kept.pull pulled
    rw [pulled] at run
    cases found with
    | none =>
      cases run
      cases helped with
      | null same free recycled => exact ⟨same, .recycled free recycled⟩
    | some first =>
      dsimp only at run
      cases helped with
      | held same still =>
        cases read : coalHeaders pages pulledDesc with
        | none =>
          rw [read] at run
          cases run
          exact ⟨same, .segments [] still⟩
        | some rest =>
          obtain ⟨carried, gro, zeroCsum⟩ := rest
          rw [read] at run
          have carriedSlip := (coalHeaders_slip read).trans same
          dsimp only at run
          split at run
          · cases run
            exact ⟨carriedSlip, .whole _ carriedSlip still⟩
          · split at run
            · cases run
              exact ⟨carriedSlip, .whole _ carriedSlip still⟩
            · cases run
              have begun : Segments start held sent desc.slip ⟨carried, pulledPool, []⟩ :=
                ⟨carriedSlip, still⟩
              obtain ⟨slip, segmented⟩ := begun.nlos
              exact ⟨slip, .segments _ segmented⟩

end Segments

section Descriptors

variable {found : Option (List RmnetFragDescriptor)} {port : RmnetIngressPort} {ingress : Ingress}
  {list : List RmnetFragDescriptor}

theorem slip_ite [Decidable test] {second : CsumCheck × RmnetFragDescriptor}
    (left : first.2.slip = desc.slip) (right : second.2.slip = desc.slip) :
    (if test then first else second).2.slip = desc.slip := by
  split
  · exact left
  · exact right

theorem checksumPkt_slip : (rmnetFragChecksumPkt pages desc).2.slip = desc.slip := by
  unfold rmnetFragChecksumPkt
  dsimp only
  cases rmnetFragHeaderPtr pages desc (rmnetMapHeaderSize + rmnetMapV5CsumHeaderSize) 1 with
  | none => rfl
  | some version =>
    refine slip_ite ?_ (slip_ite ?_ rfl)
    · cases rmnetFragHeaderPtr pages
        ({ desc with ipLen := byteAt version 0 % 16 * 4 } : RmnetFragDescriptor)
        (rmnetMapHeaderSize + rmnetMapV5CsumHeaderSize) (byteAt version 0 % 16 * 4) with
      | none => exact rfl
      | some copied =>
        exact slip_ite rfl (slip_ite rfl rfl)
    · cases rmnetFragHeaderPtr pages desc (rmnetMapHeaderSize + rmnetMapV5CsumHeaderSize) 40 with
      | none => rfl
      | some ip6h =>
        dsimp only
        cases rmnetFragIpv6SkipExthdr pages ({ desc with ipProto := 6 } : RmnetFragDescriptor)
          (rmnetMapHeaderSize + rmnetMapV5CsumHeaderSize + 40) (byteAt ip6h 6) with
        | none => rfl
        | some walked => exact slip_ite rfl (slip_ite rfl rfl)

theorem csumOffload_slip : (csumOffload pages desc validRequired).slip = desc.slip := by
  have checked := @checksumPkt_slip pages desc
  unfold csumOffload
  split
  · rfl
  split
  · rfl
  · cases ran : rmnetFragChecksumPkt pages desc with
    | mk check marked =>
    rw [ran] at checked
    cases check <;> exact checked
theorem Kept.head_ne (kept : Kept start pool (desc.slip :: (list.map slip ++ held)) sent) :
    list.head?.map (·.number) ≠ some desc.number := by
  intro same
  cases list with
  | nil => cases same
  | cons first later =>
    have nodup := perm_middle.nodup_iff.mp kept.custody.distinct
    rw [nodup_cons] at nodup
    apply nodup.1
    apply mem_append_right
    have num : first.number = desc.number := Option.some.inj same
    change desc.number ∈ first.number :: _
    rw [num]
    exact mem_cons_self ..

theorem Kept.processNextHdrPacket (kept : Kept start pool (desc.slip :: held) sent)
    (run : rmnetFragProcessNextHdrPacket pages desc pool len = (found, left, after)) : left.slip = desc.slip ∧
      ((∃ list, found = some list ∧ Kept start after (list.map slip ++ held) sent) ∨
      found = none ∧ (Kept start after (desc.slip :: held) sent ∨
        desc.number ∈ after.freeList ∧ Kept start after held sent)) := by
  unfold rmnetFragProcessNextHdrPacket at run
  cases hdr : rmnetFragHeaderPtr pages desc rmnetMapHeaderSize rmnetMapV5CsumHeaderSize with
  | none =>
    rw [hdr] at run
    cases run
    exact ⟨rfl, .inr ⟨rfl, .inl kept⟩⟩
  | some csumHdr =>
    rw [hdr] at run
    dsimp only at run
    by_cases coalescing : byteAt csumHdr 0 / 2 = rmnetMapHeaderTypeCoalescing
    · rw [if_pos coalescing] at run
      cases checked : rmnetFragDataCheckCoalHeader pages desc with
      | none =>
        rw [checked] at run
        cases run
        exact ⟨rfl, .inr ⟨rfl, .inl kept⟩⟩
      | some mask =>
        rw [checked] at run
        dsimp only at run
        cases segmented : rmnetFragSegmentCoalData pages desc mask pool [] with
        | mk coalDesc rest =>
        obtain ⟨coalPool, list⟩ := rest
        obtain ⟨same, out⟩ := kept.segmentCoalData segmented
        rw [segmented] at run
        have num : coalDesc.number = desc.number := congrArg Prod.fst same
        cases out with
        | whole one slip still =>
          have first : one.number = coalDesc.number := (congrArg Prod.fst slip).trans num.symm
          rw [List.head?_cons, Option.map_some, first, if_neg (not_not_intro rfl)] at run
          cases run
          refine ⟨same, .inl ⟨_, rfl, ?_⟩⟩
          rw [map_singleton, slip]
          exact still
        | segments _ still =>
          have others : list.head?.map (·.number) ≠ some coalDesc.number := by
            rw [num]
            exact still.head_ne
          rw [if_pos others] at run
          cases run
          rw [← same] at still
          exact ⟨same, .inl ⟨_, rfl, still.recycle⟩⟩
        | recycled free still =>
          cases run
          refine ⟨same, .inl ⟨_, rfl, still.again ?_⟩⟩
          rw [num]
          exact free
    · rw [if_neg coalescing] at run
      by_cases offload : byteAt csumHdr 0 / 2 = rmnetMapHeaderTypeCsumOffload
      · rw [if_pos offload] at run
        have marked := @csumOffload_slip pages desc (byteAt csumHdr 1 / 128 % 2 == 1)
        generalize csumOffload pages desc (byteAt csumHdr 1 / 128 % 2 == 1) = offloaded at run marked
        rw [← marked] at kept ⊢
        cases trimmed : Rmnet.pullAndTrim offloaded pool (rmnetMapHeaderSize + rmnetMapV5CsumHeaderSize) len with
        | mk out rest =>
        obtain ⟨helped, same⟩ := kept.pullAndTrim trimmed
        rw [trimmed] at run
        cases out with
        | none =>
          cases run
          cases helped with
          | null slip free recycled =>
            have num : offloaded.number = desc.number := congrArg Prod.fst marked
            rw [num] at free
            exact ⟨slip, .inr ⟨rfl, .inr ⟨free, recycled⟩⟩⟩
        | some one =>
          cases run
          have last := same one rfl
          cases helped with
          | held slip still =>
            refine ⟨slip, .inl ⟨_, rfl, ?_⟩⟩
            rw [last, map_singleton, slip]
            exact still
      · rw [if_neg offload] at run
        cases run
        exact ⟨rfl, .inr ⟨rfl, .inl kept⟩⟩

def Owns (start : RmnetFragDescriptorPool) (held : List (Nat × Nat)) (ingress : Ingress) : Prop :=
  Kept start ingress.pool (held ++ ingress.perf.map slip)
    (ingress.delivered.map Prod.fst)

theorem Owns.passSegs (owns : Owns start (list.map slip ++ held) ingress) :
    Owns start held (Rmnet.passSegs pages port skipPerf ingress list) := by
  unfold Rmnet.passSegs
  split
  · refine Kept.perm owns ?_
    rw [map_append, ← append_assoc held, append_assoc _ held]
    exact perm_append_comm
  induction list generalizing ingress with
  | nil => exact owns
  | cons desc later ih =>
    obtain ⟨delivered, same⟩ := @Kept.deliver pages _ _ _ ingress owns
    apply ih
    exact delivered

theorem Owns.ingressOne (owns : Owns start (desc.slip :: held) ingress) :
    Owns start held (Rmnet.ingressOne pages port ingress desc) := by
  unfold Rmnet.ingressOne
  cases read : rmnetFragHeaderPtr pages desc 0 rmnetMapHeaderSize with
  | none => exact Kept.recycle owns
  | some header =>
    dsimp only
    generalize ((RmnetMapHeader.ofBytes header).pktLen + 65536 - (RmnetMapHeader.ofBytes header).padLen) % 65536 = len
    split
    · exact Kept.recycle owns
    split
    · exact Kept.recycle owns
    rename_i dev _
    have begun : Kept start ingress.pool (({ desc with dev } : RmnetFragDescriptor).slip ::
      (held ++ ingress.perf.map slip)) (ingress.delivered.map Prod.fst) := owns
    generalize ({ desc with dev } : RmnetFragDescriptor) = desc at begun ⊢
    split
    · cases processed : rmnetFragProcessNextHdrPacket pages desc ingress.pool len with
      | mk found rest =>
      obtain ⟨left, after⟩ := rest
      obtain ⟨slip, ⟨list, rfl, kept⟩ | ⟨rfl, still | ⟨free, kept⟩⟩⟩ :=
        begun.processNextHdrPacket processed
      · rw [← append_assoc] at kept
        exact @Owns.passSegs pages start held port { ingress with pool := after } list _ kept
      · rw [← slip] at still
        exact still.recycle
      · have num : left.number = desc.number := congrArg Prod.fst slip
        rw [← num] at free
        exact kept.again free
    · cases trimmed : Rmnet.pullAndTrim desc ingress.pool rmnetMapHeaderSize len with
      | mk found rest =>
      obtain ⟨left, after⟩ := rest
      obtain ⟨helped, same⟩ := begun.pullAndTrim trimmed
      cases found with
      | none =>
        cases helped with
        | null slip free kept => exact kept
      | some one =>
        have last := same one rfl
        cases helped with
        | held slip kept =>
          rw [← slip, ← last] at kept
          exact @Owns.passSegs pages start held port { ingress with pool := after } [one] _ kept

end Descriptors

end KernelModules.Rmnet

import KernelModules.Smcinvoke.Confinement

namespace KernelModules.Smcinvoke

open List hiding all count length
open Data

/-! # Replies of a callback

The buffers of a reply go where the table of the request says.  As long as that is behind the table, the table stays
what TrustZone wrote.
-/

section Table

variable {memory later : ByteMemory} {index : Nat}

def SameTable (memory later : ByteMemory) : Prop :=
  ∀ place, 4 ≤ place → place < tzcbBufOffset memory → later place = memory place

theorem SameTable.load (same : SameTable memory later) (low : 4 ≤ place)
    (high : place + 4 ≤ tzcbBufOffset memory) : later.load place 4 = memory.load place 4 :=
  ByteMemory.load_congr fun byte below => same (place + byte) (by omega) (by omega)

theorem SameTable.counts (same : SameTable memory later) : tzcbHdrCounts later = tzcbHdrCounts memory :=
  same.load (by decide) (Nat.le_add_right 16 _)

section

variable (same : SameTable memory later) (below : index < objectCountsTotal (tzcbHdrCounts memory))
include same below

theorem SameTable.offset : tzcbOffset later index = tzcbOffset memory index := by
  refine same.load ?_ ?_ <;> unfold tzcbArg
  · omega
  · unfold tzcbBufOffset
    omega

theorem SameTable.size : tzcbSize later index = tzcbSize memory index := by
  refine same.load ?_ ?_ <;> unfold tzcbArg
  · omega
  · unfold tzcbBufOffset
    omega

theorem SameTable.update (furthest : Furthest) : furthest.update later index = furthest.update memory index := by
  unfold Furthest.update
  rw [same.offset below, same.size below]

end

theorem SameTable.copy (same : SameTable memory later) (behind : 0 < count → tzcbBufOffset memory ≤ start) :
    SameTable memory (later.copy data start 0 count) := by
  intro place low high
  rw [ByteMemory.copy_outside, same place low high]
  by_cases some : 0 < count
  · exact .inl (lt_of_lt_of_le high (behind some))
  · omega

theorem SameTable.result (memory : ByteMemory) (result : Nat) : SameTable memory (memory.store 0 4 result) :=
  fun _ low _ => ByteMemory.store_outside (.inr low)

theorem largest_reads_confined (tbl : tzcbBufOffset memory ≤ length)
    (below : index < objectCountsTotal (tzcbHdrCounts memory)) (furthest : Furthest) (later : ByteMemory) :
    Confined length (furthest.reads later index) := by
  unfold tzcbBufOffset at tbl
  unfold Furthest.reads tzcbArg
  split <;> simp only [confined_cons, confined_nil, Event.Confined, and_true] <;> omega

theorem scanReads_table (tbl : tzcbBufOffset memory ≤ length)
    (below : start + count ≤ objectCountsTotal (tzcbHdrCounts memory)) (furthest : Furthest)
    (later : ByteMemory) : Confined length (scanReads later (range' start count) furthest) := by
  induction count generalizing start furthest with
  | zero => exact confined_nil.mpr trivial
  | succ count ih =>
    rw [range'_succ, scanReads, confined_append]
    exact ⟨largest_reads_confined tbl (by omega) furthest later, ih (by omega) _⟩

theorem SameTable.scan (same : SameTable memory later)
    (below : start + count ≤ objectCountsTotal (tzcbHdrCounts memory)) (furthest : Furthest) :
    scanFurthest later (range' start count) furthest = scanFurthest memory (range' start count) furthest := by
  induction count generalizing start furthest with
  | zero => rfl
  | succ count ih =>
    rw [range'_succ, scanFurthest, scanFurthest, same.update (by omega), ih (by omega)]

end Table

namespace Reply

variable {memory : ByteMemory} {reply : Reply} {length index : Nat}

def Copies (reply : Reply) (memory : ByteMemory) (index : Nat) : Prop :=
  reply.argFails index = false ∧ reply.size index ≤ tzcbSize memory index

def Passes (reply : Reply) (memory : ByteMemory) (index : Nat) : Prop :=
  reply.Copies memory index ∧ reply.dataFails index = false

instance (reply : Reply) (memory : ByteMemory) (index : Nat) : Decidable (reply.Passes memory index) :=
  inferInstanceAs (Decidable ((_ ∧ _) ∧ _))

def EachCopied (reply : Reply) (memory : ByteMemory) (property : Nat → Prop) (start : Nat) : Prop :=
  ∀ index, start ≤ index → index < objectCountsIndexOi (tzcbHdrCounts memory) →
    (∀ earlier, start ≤ earlier → earlier < index → reply.Passes memory earlier) →
    reply.Copies memory index → property index

def Behind (reply : Reply) (memory : ByteMemory) (index : Nat) : Prop :=
  0 < reply.size index → tzcbBufOffset memory ≤ tzcbOffset memory index

def Inside (reply : Reply) (memory : ByteMemory) (length index : Nat) : Prop :=
  tzcbOffset memory index + reply.size index ≤ length

def scanPassed (reply : Reply) (memory : ByteMemory) : List Nat → Furthest → Furthest
  | [], furthest => furthest
  | index :: rest, furthest =>
    if reply.Passes memory index then reply.scanPassed memory rest (furthest.update memory index)
    else furthest

theorem EachCopied.stop (past : ¬start < objectCountsIndexOi (tzcbHdrCounts memory)) :
    reply.EachCopied memory property start := fun index low high => by omega

theorem EachCopied.succ (lt : start < objectCountsIndexOi (tzcbHdrCounts memory)) :
    reply.EachCopied memory property start ↔ (reply.Copies memory start → property start) ∧
      (reply.Passes memory start → reply.EachCopied memory property (start + 1)) := by
  refine ⟨fun each => ⟨fun copied => ?_, fun passed index low high earlier => ?_⟩,
    fun both index low high earlier copied => ?_⟩
  · exact each start le_rfl lt (fun index low high => by omega) copied
  · refine each index (by omega) high fun index low high => ?_
    by_cases same : index = start
    · rw [same]
      exact passed
    · exact earlier index (by omega) high
  · by_cases same : index = start
    · rw [same] at copied ⊢
      exact both.1 copied
    · exact both.2 (earlier start le_rfl (by omega)) index (by omega) high
        (fun index low => earlier index (by omega)) copied

structure BuffersReturned (reply : Reply) (memory : ByteMemory) (length start : Nat) (furthest : Furthest)
    (returned : Returned) : Prop where
  same : SameTable memory returned.memory
  furthest : returned.furthest = reply.scanPassed memory
    (List.range' start (objectCountsIndexOi (tzcbHdrCounts memory) - start)) furthest
  confined : Confined length returned.events ↔ reply.EachCopied memory (reply.Inside memory length) start
  refuses : returned.ret = 0 → ∀ index, start ≤ index → index < objectCountsIndexOi (tzcbHdrCounts memory) →
    reply.Passes memory index

theorem outBuffersReturned_spec (tbl : tzcbBufOffset memory ≤ length) (same : SameTable memory later)
    (enough : objectCountsIndexOi (tzcbHdrCounts memory) < start + fuel)
    (behind : reply.EachCopied memory (reply.Behind memory) start) :
    reply.BuffersReturned memory length start furthest (outBuffersReturned reply fuel start later furthest) := by
  induction fuel generalizing start later furthest with
  | zero =>
    have past : objectCountsIndexOi (tzcbHdrCounts memory) - start = 0 := by omega
    refine ⟨same, ?_, iff_of_true (confined_nil.mpr trivial) (.stop (by omega)), fun _ index low high => by omega⟩
    rw [past]
    rfl
  | succ fuel ih =>
    unfold outBuffersReturned
    rw [same.counts]
    split
    case isFalse past =>
      have none : objectCountsIndexOi (tzcbHdrCounts memory) - start = 0 := by omega
      refine ⟨same, ?_, iff_of_true (confined_nil.mpr trivial) (.stop past), fun _ index low high => by omega⟩
      rw [none]
      rfl
    case isTrue lt =>
      have below : start < objectCountsTotal (tzcbHdrCounts memory) := by
        unfold objectCountsTotal objectCountsIndexOo
        omega
      have one : objectCountsIndexOi (tzcbHdrCounts memory) - start
          = objectCountsIndexOi (tzcbHdrCounts memory) - (start + 1) + 1 := by omega
      have entry : tzcbArg start + 8 ≤ length := by
        unfold tzcbBufOffset at tbl
        unfold tzcbArg
        omega
      have high : tzcbArg start + 4 + 4 ≤ length := by omega
      have low : tzcbArg start + 4 ≤ length := by omega
      rw [same.size below, same.offset below]
      split
      case isTrue failed =>
        have stuck : ¬reply.Copies memory start := fun copied => by
          rw [copied.1] at failed
          cases failed
        refine ⟨same, ?_, iff_of_true (confined_nil.mpr trivial) ((EachCopied.succ lt).mpr
          ⟨fun copied => absurd copied stuck, fun passed => absurd passed.1 stuck⟩), fun ok => by cases ok⟩
        rw [one, range'_succ, scanPassed, if_neg fun passed => stuck passed.1]
      case isFalse given =>
        rw [Bool.not_eq_true] at given
        split
        case isTrue large =>
          have stuck : ¬reply.Copies memory start := fun copied => not_lt.mpr copied.2 large
          refine ⟨same, ?_, iff_of_true (confined_cons.mpr ⟨high, confined_nil.mpr trivial⟩)
            ((EachCopied.succ lt).mpr ⟨fun copied => absurd copied stuck, fun passed => absurd passed.1 stuck⟩),
            fun ok => by cases ok⟩
          rw [one, range'_succ, scanPassed, if_neg fun passed => stuck passed.1]
        case isFalse small =>
          have copies : reply.Copies memory start := ⟨given, Nat.le_of_not_lt small⟩
          obtain ⟨clear, behindLater⟩ := (EachCopied.succ lt).mp behind
          have copied : SameTable memory (later.copy (reply.data start) (tzcbOffset memory start) 0
            (reply.size start)) := same.copy (clear copies)
          have writes : Confined length [.read (tzcbArg start + 4) 4, .read (tzcbArg start) 4,
              .write (tzcbOffset memory start) (reply.size start)] ↔ reply.Inside memory length start := by
            simp only [confined_cons, confined_nil, Event.Confined, and_true, high, low, true_and]
            rfl
          split
          case isTrue failed =>
            have stuck : ¬reply.Passes memory start := fun passed => by
              rw [passed.2] at failed
              cases failed
            refine ⟨copied, ?_, writes.trans ?_, fun ok => by cases ok⟩
            · rw [one, range'_succ, scanPassed, if_neg stuck]
            · rw [EachCopied.succ lt]
              exact ⟨fun inside => ⟨fun _ => inside, fun passed => absurd passed stuck⟩, fun each => each.1 copies⟩
          case isFalse read =>
            rw [Bool.not_eq_true] at read
            have passes : reply.Passes memory start := ⟨copies, read⟩
            have rest : reply.BuffersReturned memory length (start + 1)
                (furthest.update (later.copy (reply.data start) (tzcbOffset memory start) 0
                  (reply.size start)) start) _ := ih copied (by omega) (behindLater passes)
            refine ⟨rest.same, ?_, ?_, fun ok index low high => ?_⟩
            · rw [rest.furthest, copied.update below, one, range'_succ, scanPassed, if_pos passes]
            · rw [confined_append, confined_append, writes, rest.confined, EachCopied.succ lt]
              have reads := largest_reads_confined tbl below furthest
                (later.copy (reply.data start) (tzcbOffset memory start) 0 (reply.size start))
              refine ⟨fun both => ⟨fun _ => both.1.1, fun _ => both.2⟩, fun both => ?_⟩
              exact ⟨⟨both.1 copies, reads⟩, both.2 passes⟩
            · by_cases first : index = start
              · rw [first]
                exact passes
              · exact rest.refuses ok index (by omega) high

theorem objectsReturned_spec (tbl : tzcbBufOffset memory ≤ length)
    (counted : tzcbHdrCounts later = tzcbHdrCounts memory) :
    Confined length (objectsReturned reply fuel start later).1 ∧
      tzcbHdrCounts (objectsReturned reply fuel start later).2.2 = tzcbHdrCounts memory := by
  induction fuel generalizing start later with
  | zero => exact ⟨confined_nil.mpr trivial, counted⟩
  | succ fuel ih =>
    unfold objectsReturned
    split
    · rename_i lt
      rw [counted] at lt
      split
      · exact ⟨confined_nil.mpr trivial, counted⟩
      split
      · exact ⟨confined_nil.mpr trivial, counted⟩
      rename_i handle _
      have entry : tzcbArg start + 4 ≤ length := by
        unfold tzcbBufOffset at tbl
        unfold tzcbArg
        omega
      have kept : tzcbHdrCounts (later.store (tzcbArg start) 4 handle) = tzcbHdrCounts memory := by
        rw [← counted]
        refine ByteMemory.load_store_outside (.inl ?_)
        unfold tzcbArg
        omega
      obtain ⟨confined, counts⟩ := ih kept
      exact ⟨confined_cons.mpr ⟨entry, confined⟩, counts⟩
    · exact ⟨confined_nil.mpr trivial, counted⟩

def furthestReturned (reply : Reply) (memory : ByteMemory) : Furthest :=
  let counts := tzcbHdrCounts memory
  if reply.result ≠ 0 then .none
  else reply.scanPassed memory (List.range' (objectCountsIndexBo counts) (objectCountsNumBo counts))
    (scanFurthest memory (List.range' 0 (objectCountsNumBi counts)) .none)

def EachReturned (reply : Reply) (memory : ByteMemory) (property : Nat → Prop) : Prop :=
  reply.result = 0 → reply.EachCopied memory property (objectCountsIndexBo (tzcbHdrCounts memory))

def Accepted (reply : Reply) (memory : ByteMemory) : Prop :=
  reply.result = 0 → ∀ index, objectCountsIndexBo (tzcbHdrCounts memory) ≤ index →
    index < objectCountsIndexOi (tzcbHdrCounts memory) → reply.Passes memory index

theorem ofReply_spec (tbl : tzcbBufOffset memory ≤ length) (same : SameTable memory later)
    (behind : reply.EachReturned memory (reply.Behind memory)) :
    ((Returned.ofReply reply later).ret = 0 → reply.Accepted memory) ∧ (Returned.ofReply reply later).furthest = reply.furthestReturned memory ∧
      tzcbHdrCounts (Returned.ofReply reply later).memory = tzcbHdrCounts memory ∧
      (Confined length (Returned.ofReply reply later).events ↔
        reply.EachReturned memory (reply.Inside memory length)) := by
  unfold Returned.ofReply furthestReturned
  dsimp only
  split
  · rename_i failed
    exact ⟨fun _ ok => absurd ok failed, rfl, same.counts,
      iff_of_true (confined_nil.mpr trivial) fun ok => absurd ok failed⟩
  rename_i ok
  rw [not_ne_iff] at ok
  have many := (objectCounts_lt (tzcbHdrCounts memory)).1
  have bis : 0 + objectCountsNumBi (tzcbHdrCounts memory) ≤ objectCountsTotal (tzcbHdrCounts memory) := by
    unfold objectCountsTotal objectCountsIndexOo objectCountsIndexOi objectCountsIndexBo
    omega
  have loop : reply.BuffersReturned memory length (objectCountsIndexBo (tzcbHdrCounts memory))
      (scanFurthest memory (range' 0 (objectCountsNumBi (tzcbHdrCounts memory))) .none)
      (outBuffersReturned reply 31 _ later _) :=
    outBuffersReturned_spec tbl same (lt_of_lt_of_le many (Nat.le_add_left _ _)) (behind ok)
  have range : objectCountsIndexOi (tzcbHdrCounts memory) - objectCountsIndexBo (tzcbHdrCounts memory)
      = objectCountsNumBo (tzcbHdrCounts memory) := by
    unfold objectCountsIndexOi
    omega
  have reads := scanReads_table tbl bis .none later
  rw [same.counts, same.scan bis]
  have furthest := loop.furthest
  rw [range] at furthest
  split
  · rename_i failed
    refine ⟨fun ok => absurd ok failed, furthest, loop.same.counts, ?_⟩
    rw [confined_append, loop.confined]
    exact ⟨fun both _ => both.2, fun inside => ⟨reads, inside ok⟩⟩
  · have objects : ∀ start, Confined length (objectsReturned reply 61 start _).1 ∧ _ :=
      fun start => objectsReturned_spec tbl loop.same.counts
    rename_i passed
    refine ⟨fun _ _ => loop.refuses (not_not.mp passed), furthest, (objects _).2, ?_⟩
    rw [confined_append, confined_append, loop.confined]
    exact ⟨fun all _ => all.1.2, fun inside => ⟨⟨reads, inside ok⟩, (objects _).1⟩⟩

end Reply

section SideChannel

variable {start bufSize length : Nat} {pending : List MemObj}

def infoCount (bufSize : Nat) (pending : List MemObj) : Nat :=
  min pending.length ((bufSize - memObjMsgSize) / memObjInfoSize)

theorem addInfos_count (index : Nat) (memory : ByteMemory) (large : memObjMsgSize ≤ bufSize) :
    (addInfos start bufSize pending index memory).count
      = index + min pending.length ((bufSize - memObjMsgSize) / memObjInfoSize - index) := by
  induction pending generalizing index memory with
  | nil => rw [addInfos, length_nil, Nat.zero_min, add_zero]
  | cons memObj rest ih =>
    unfold addInfos
    dsimp only
    split
    · show index = _
      unfold memObjInfoSize at *
      omega
    · rw [ih (index + 1), length_cons]
      unfold memObjInfoSize at *
      omega

theorem addInfos_confined (index : Nat) (memory : ByteMemory) (large : memObjMsgSize ≤ bufSize) :
    Confined length (addInfos start bufSize pending index memory).events ↔
      (index < (addInfos start bufSize pending index memory).count →
        start + 32 * (addInfos start bufSize pending index memory).count + 12 ≤ length) := by
  induction pending generalizing index memory with
  | nil => exact iff_of_true (confined_nil.mpr trivial) fun more => absurd more (lt_irrefl _)
  | cons memObj rest ih =>
    unfold addInfos
    dsimp only
    split
    · exact iff_of_true (confined_nil.mpr trivial) fun more => absurd more (lt_irrefl _)
    · rw [confined_append, ih (index + 1), addInfos_count (index + 1) _ large]
      simp only [confined_cons, confined_nil, Event.Confined, and_true]
      unfold memObjMsgSize memObjInfoSize at *
      omega

def InfosFit (start bufSize length : Nat) (pending : List MemObj) : Prop :=
  pending ≠ [] → memObjMsgSize + memObjInfoSize ≤ bufSize → start + 32 * infoCount bufSize pending + 12 ≤ length

theorem addMemObjInfo_confined : Confined length (addMemObjInfoToAsyncSideChannel start bufSize pending memory).events ↔
      InfosFit start bufSize length pending := by
  unfold addMemObjInfoToAsyncSideChannel InfosFit
  split
  · rename_i nothing
    refine iff_of_true (confined_nil.mpr trivial) fun some large => ?_
    obtain empty | small := nothing
    · exact absurd empty some
    · omega
  rename_i something
  rw [not_or, not_lt] at something
  obtain ⟨some, large⟩ := something
  have room : memObjMsgSize ≤ bufSize := le_trans (Nat.le_add_right _ _) large
  rw [confined_append, confined_append, addInfos_confined 0 _ room, addInfos_count 0 _ room]
  simp only [confined_cons, confined_nil, Event.Confined, and_true]
  unfold infoCount at *
  refine ⟨fun all _ _ => ?_, fun fits => ?_⟩
  · omega
  · have told := fits some large
    omega

end SideChannel

section MarshalOut

variable {memory : ByteMemory} {reply : Reply} {async : AsyncChannel} {length tzBufOffset : Nat}
  {furthest : Furthest}

/-- The side channel starts where it should, and what is told there ends before the copy does. -/
def AsyncChannel.Fits (async : AsyncChannel) (length tzBufOffset : Nat) (furthest : Furthest) : Prop :=
  async.memObjAsyncSupport = true → furthest.maxOffset + furthest.bufferSizeMaxOffset + 7 < 4294967296 ∧
      (sideOffset tzBufOffset furthest ≤ async.maxCbBufSize → InfosFit (sideOffset tzBufOffset furthest)
          (async.maxCbBufSize - sideOffset tzBufOffset furthest) length async.pending)

def ReturnFits (reply : Reply) (async : AsyncChannel) (memory : ByteMemory) (length : Nat) : Prop :=
  reply.EachReturned memory (reply.Inside memory length) ∧
    async.Fits length (tzcbBufOffset memory) (reply.furthestReturned memory)

theorem fill_confined : Confined length (async.fill tzBufOffset furthest memory).events ↔
    async.Fits length tzBufOffset furthest := by
  unfold AsyncChannel.fill AsyncChannel.Fits
  split
  · rename_i supported
    dsimp only
    rw [supported]
    split
    · rename_i past
      simp [confined_cons, confined_nil, Event.Confined, not_le.mpr past]
    · rename_i lt
      rw [confined_cons, addMemObjInfo_confined]
      simp [Event.Confined, Nat.le_of_not_lt lt]
  · rename_i unsupported
    exact iff_of_true (confined_nil.mpr trivial) fun supported => absurd supported unsupported

theorem marshalOutTzcb_confined (long : 16 ≤ length) (tbl : tzcbBufOffset memory ≤ length)
    (behind : reply.EachReturned memory (reply.Behind memory)) :
    (Confined length (marshalOutTzcbReq reply async memory).events ↔ ReturnFits reply async memory length) ∧
      ((marshalOutTzcbReq reply async memory).ret = 0 → reply.Accepted memory) := by
  obtain ⟨refuses, furthest, counts, confined⟩ := Reply.ofReply_spec tbl (.result memory reply.result) behind
  have hdr : Confined length [.read 4 4, .write 0 4] := by
    simp only [confined_cons, confined_nil, Event.Confined, and_true]
    omega
  have handles : Confined length ((range' (objectCountsIndexOi (tzcbHdrCounts memory))
      (objectCountsNumOi (tzcbHdrCounts memory))).map fun index => .read (tzcbArg index) 4) := by
    refine confined_map.mpr fun index mem => ?_
    rw [mem_range'_1] at mem
    show tzcbArg index + 4 ≤ length
    unfold tzcbBufOffset objectCountsTotal objectCountsIndexOo at tbl
    unfold tzcbArg
    omega
  unfold marshalOutTzcbReq
  dsimp only
  rw [counts, furthest, confined_append, confined_append, confined_append, confined, fill_confined]
  exact ⟨⟨fun all => ⟨all.1.1.2, all.2⟩, fun both => ⟨⟨⟨hdr, both.1⟩, handles⟩, both.2⟩⟩, refuses⟩

end MarshalOut

section Routines

variable (memory : ByteMemory) (length maxCbBufSize : Nat)

/-- `marshal_out_invoke_req` keeps to the buffer, and refuses a table or an output buffer that does not lie in it. -/
def InvokeConfined (supplied : Nat → Nat) (copyFails : Nat → Bool) (uhandle : Nat → Except Int Int) (counts : Nat)
    (args : Option (Nat → InvokeArg)) : Prop :=
  let answer := marshalOutInvokeReq memory supplied copyFails uhandle length counts args
  Confined length answer.events ∧ (answer.ret = 0 → 12 + objectCountsTotal counts * 8 ≤ u32 length ∧
    (args ≠ none → ∀ index, objectCountsIndexBo counts ≤ index → index < objectCountsIndexOi counts →
      InvokeSound memory (u32 length) index))

/-- `process_piggyback_cb_data` has no error to return: what it refuses it leaves alone. -/
def PiggybackConfined : Prop :=
  let piggyback := processPiggybackCbData memory length maxCbBufSize
  Confined length piggyback.events ∧ (piggyback.released ≠ [] → ArgInside memory length 0)

def MapConfined (memObjs : List MemObj) (mapRegion : MemObj → Except Int MemObj) : Prop :=
  let answer := smcinvokeProcessMapMemRegionReq memory length memObjs mapRegion
  Confined length answer.events ∧ (answer.ret = objectOk →
    tzcbHdrCounts memory = objectCountsPack 0 1 1 1 ∧ ArgInside memory length 0)

def ShownConfined (server : Server) : Prop :=
  let shown := marshalInTzcbReq memory length server
  Confined length shown.events ∧ (shown.ret = 0 → tzcbBufOffset memory ≤ length ∧
    ∀ index, index < objectCountsNumBi (tzcbHdrCounts memory) → ArgInside memory length index)

def ReturnConfined (reply : Reply) (async : AsyncChannel) : Prop :=
  let answer := marshalOutTzcbReq reply async memory
  Confined length answer.events ∧ (answer.ret = 0 → reply.Accepted memory)

end Routines

/-- Each routine keeps to its buffer exactly for the messages that fit; what is shown of a callback
request always does.  For a reply this is said as long as its buffers stay behind the table. -/
theorem messages_confined (memory : ByteMemory) (length maxCbBufSize counts : Nat)
    (memObjs : List MemObj) (mapRegion : MemObj → Except Int MemObj) (supplied : Nat → Nat)
    (copyFails : Nat → Bool) (uhandle : Nat → Except Int Int) (args : Option (Nat → InvokeArg))
    (server : Server) (reply : Reply) (async : AsyncChannel) (long : 16 ≤ length) :
    (InvokeConfined memory length supplied copyFails uhandle counts args ↔
      InvokeFits memory supplied copyFails length counts args) ∧
    (PiggybackConfined memory length maxCbBufSize ↔ PiggybackFits memory length maxCbBufSize) ∧
    -- the output buffer of an invoke is taken for a piggybacked message as a whole
    (Confined length (processPiggybackData memory 0 length).events ↔ SideFits memory length length 0) ∧
    (MapConfined memory length memObjs mapRegion ↔ MapFits memory length memObjs mapRegion) ∧
    ShownConfined memory length server ∧
    ((marshalInTzcbReq memory length server).ret = 0 → reply.EachReturned memory (reply.Behind memory) →
      (ReturnConfined memory length reply async ↔ ReturnFits reply async memory length)) := by
  refine ⟨(and_iff_left marshalOutInvoke_refuses).trans marshalOutInvoke_confined,
    (and_iff_left piggyback_refuses).trans (piggyback_confined long), ?_, ?_,
    ⟨marshalInTzcb_confined long, marshalInTzcb_refuses⟩, fun accepted behind => ?_⟩
  · have direct := @processPiggybackData_confined memory length length 0
    rwa [decide_eq_true_eq, and_iff_right (Nat.zero_le _)] at direct
  · have confined := @mapMemRegion_confined memory length memObjs mapRegion long
    exact ⟨fun both => confined.mp both.1, fun fits => ⟨confined.mpr fits, mapMemRegion_refuses fits⟩⟩
  · obtain ⟨confined, refuses⟩ := @marshalOutTzcb_confined _ _ async _ long
      (marshalInTzcb_refuses accepted).1 behind
    exact (and_iff_left refuses).trans confined

def messageOf (counts : Nat) (args : List (Nat × Nat)) : ByteMemory :=
  (args.zipIdx.foldl (fun (memory : ByteMemory) arg => (memory.store (tzcbArg arg.2) 4 arg.1.1).store
    (tzcbArg arg.2 + 4) 4 arg.1.2) fun _ => 0).store 12 4 counts

def mappedObj : MemObj := ⟨5, 6, 1048576, 4096⟩

/-- One input and one output buffer, and behind them the release of one handle -/
def callbackMsg : ByteMemory :=
  ((((messageOf (objectCountsPack 1 1 0 0) [(32, 8), (40, 8)]).store 48 4 65538).store 52 4 objectOpRelease).store
    56 4 1).store 60 4 7

def invokeReplyMsg : ByteMemory := (ByteMemory.store (fun _ => 0) 12 4 24).store 16 4 8

def filledReply : Reply := ⟨0, fun _ => false, fun _ => 8, fun _ _ => 1, fun _ => false, fun _ => .ok 0⟩

theorem messages_confined_each :
    InvokeConfined invokeReplyMsg 64 (fun _ => 8) (fun _ => false) (fun _ => .ok 0) (objectCountsPack 0 1 0 0)
      (some fun _ => ⟨8, -1⟩) ∧
    PiggybackConfined callbackMsg 4096 4096 ∧ (processPiggybackCbData callbackMsg 4096 4096).released = [7] ∧
    Confined 4096 (processPiggybackData (callbackMsg.copy callbackMsg 0 48 16) 0 4096).events ∧
    MapConfined (messageOf (objectCountsPack 0 1 1 1) [(40, 24), (327681, 0), (0, 0)]) 4096 [mappedObj]
      (fun _ => .error objectErrorBadobj) ∧
    ShownConfined callbackMsg 4096 ⟨4096, fun _ => some 0, fun _ => false⟩ ∧
    ReturnConfined callbackMsg 4096 filledReply ⟨true, 4096, [mappedObj]⟩ := by
  have each (memory : ByteMemory) (length counts : Nat) (long : 16 ≤ length) := messages_confined memory length 4096
    counts [mappedObj] (fun _ => .error objectErrorBadobj) (fun _ => 8) (fun _ => false) (fun _ => .ok 0)
    (some fun _ => ⟨8, -1⟩) ⟨4096, fun _ => some 0, fun _ => false⟩ filledReply ⟨true, 4096, [mappedObj]⟩ long
  have callback := each callbackMsg 4096 0 (by decide)
  have last {index : Nat} (low : objectCountsIndexBo (tzcbHdrCounts callbackMsg) ≤ index)
      (high : index < objectCountsIndexOi (tzcbHdrCounts callbackMsg)) : index = 1 := by
    have bounds : objectCountsIndexBo (tzcbHdrCounts callbackMsg) = 1 ∧
      objectCountsIndexOi (tzcbHdrCounts callbackMsg) = 2 := by decide
    omega
  refine ⟨(each invokeReplyMsg 64 _ (by decide)).1.mpr (.inr (.inr fun index low high _ _ => ?_)),
    callback.2.1.mpr ⟨by decide, .inr ⟨by decide, .inr ⟨fun index below => ?_, by decide, by decide, by decide,
      .inr ⟨by decide, by decide, fun _ => by decide⟩⟩⟩⟩, by decide,
    (each _ 4096 0 (by decide)).2.2.1.mpr ⟨by decide, by decide, .inr ⟨by decide, by decide, fun _ => by decide⟩⟩,
    (each _ 4096 0 (by decide)).2.2.2.1.mpr (.inr ⟨by decide, by decide, .inr ⟨by decide, fun _ => by decide⟩⟩),
    callback.2.2.2.2.1, (callback.2.2.2.2.2 (by decide) fun _ index low high _ _ _ => ?_).mpr
      ⟨fun _ index low high _ _ => ?_, fun _ => ⟨by decide, fun _ _ _ => by decide⟩⟩⟩
  · have first : index = 0 := Nat.lt_one_iff.mp high
    rw [first]
    decide
  · have early : index < 2 := below
    obtain rfl | rfl : index = 0 ∨ index = 1 := by omega
    all_goals
      unfold EntryFits
      decide
  · rw [last low high]
    decide
  · rw [last low high]
    unfold Reply.Inside
    decide

/-- An answer that is written behind the buffer -/
theorem map_escapes : ¬∀ (memory : ByteMemory) (length maxCbBufSize counts : Nat)
    (memObjs : List MemObj) (mapRegion : MemObj → Except Int MemObj) (supplied : Nat → Nat)
    (copyFails : Nat → Bool) (uhandle : Nat → Except Int Int) (args : Option (Nat → InvokeArg))
    (server : Server) (reply : Reply) (async : AsyncChannel), 16 ≤ length →
    InvokeConfined memory length supplied copyFails uhandle counts args ∧
    PiggybackConfined memory length maxCbBufSize ∧
    Confined length (processPiggybackData memory 0 length).events ∧
    MapConfined memory length memObjs mapRegion ∧ ShownConfined memory length server ∧
    ((marshalInTzcbReq memory length server).ret = 0 → ReturnConfined memory length reply async) := by
  intro always
  obtain ⟨_, _, _, mapped, _⟩ := always
    (messageOf (objectCountsPack 0 1 1 1) [(8192, 24), (327681, 0), (0, 0)]) 4096 4096 0 [mappedObj]
    (fun _ => .error objectErrorBadobj) (fun _ => 0) (fun _ => false) (fun _ => .ok 0) none
    ⟨0, fun _ => none, fun _ => false⟩
    ⟨0, fun _ => false, fun _ => 0, fun _ _ => 0, fun _ => false, fun _ => .ok 0⟩ ⟨false, 4096, []⟩
    (by decide)
  have written : Event.write 8192 8 ∈ (smcinvokeProcessMapMemRegionReq
      (messageOf (objectCountsPack 0 1 1 1) [(8192, 24), (327681, 0), (0, 0)]) 4096 [mappedObj]
      fun _ => .error objectErrorBadobj).events := by decide
  have inside : 8192 + 8 ≤ 4096 := mapped.1 _ written
  exact absurd inside (by decide)

end KernelModules.Smcinvoke

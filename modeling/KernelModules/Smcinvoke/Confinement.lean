import KernelModules.Smcinvoke.Callbacks

namespace KernelModules.Smcinvoke

open Data

/-! # When a message is confined

Each routine stays in its buffer exactly for the messages described here.
-/

theorem load_lt (memory : ByteMemory) (addr count : Nat) : memory.load addr count < 256 ^ count := by
  induction count generalizing addr with
  | zero => exact Nat.one_pos
  | succ count ih =>
    have rest := ih (addr + 1)
    rw [ByteMemory.load]
    omega

theorem tzcbOffset_lt (memory : ByteMemory) (idx : Nat) : tzcbOffset memory idx < 4294967296 :=
  load_lt memory _ 4

theorem tzcbSize_lt (memory : ByteMemory) (idx : Nat) : tzcbSize memory idx < 4294967296 :=
  load_lt memory _ 4

theorem objectCounts_lt (counts : Nat) : objectCountsIndexOi counts < 31 ∧ objectCountsTotal counts < 61 := by
  unfold objectCountsTotal objectCountsIndexOo objectCountsIndexOi objectCountsIndexBo objectCountsNumBi
    objectCountsNumBo objectCountsNumOi objectCountsNumOo
  omega

theorem confined_nil : Confined length [] ↔ True := iff_true_intro fun _ mem => absurd mem List.not_mem_nil

theorem confined_cons : Confined length (event :: events) ↔ event.Confined length ∧ Confined length events :=
  List.forall_mem_cons

theorem confined_append : Confined length (events ++ more) ↔ Confined length events ∧ Confined length more :=
  List.forall_mem_append

theorem confined_map {indices : List Nat} {event : Nat → Event} :
    Confined length (indices.map event) ↔ ∀ idx ∈ indices, (event idx).Confined length :=
  List.forall_mem_map

def ArgInside (memory : ByteMemory) (length index : Nat) : Prop :=
  tzcbOffset memory index + tzcbSize memory index ≤ length

section MapMemRegion

variable {memory : ByteMemory} {length : Nat} {memObjs : List MemObj}
  {mapRegion : MemObj → Except Int MemObj}

def MapFits (memory : ByteMemory) (length : Nat) (memObjs : List MemObj)
    (mapRegion : MemObj → Except Int MemObj) : Prop :=
  tzcbHdrCounts memory ≠ objectCountsPack 0 1 1 1 ∨ (tzcbArg 1 ≤ length ∧ tzcbOffset memory 0 ≤ length ∧
      (length - tzcbOffset memory 0 < tzcbSize memory 0 ∨ (tzcbArg 1 + 4 ≤ length ∧
          ((requestedMemObj memory memObjs mapRegion).isOk = true →
            tzcbArg 2 + 4 ≤ length ∧ tzcbOffset memory 0 + 20 ≤ length))))

theorem mapMemRegion_confined (long : 16 ≤ length) :
    Confined length (smcinvokeProcessMapMemRegionReq memory length memObjs mapRegion).events ↔
      MapFits memory length memObjs mapRegion := by
  have size := tzcbSize_lt memory 0
  have off := tzcbOffset_lt memory 0
  unfold smcinvokeProcessMapMemRegionReq MapFits
  dsimp only
  split
  · rename_i other
    simp only [confined_cons, confined_nil, Event.Confined, and_true]
    exact iff_of_true long (.inl other)
  split
  · rename_i small
    unfold sizeSub at small
    simp only [confined_cons, confined_nil, Event.Confined, and_true, tzcbArg]
    split at small <;> omega
  rename_i large
  unfold sizeSub at large
  split
  · rename_i failed
    rw [failed]
    simp only [confined_append, confined_cons, confined_nil, Event.Confined, and_true, tzcbArg,
      decide_eq_true_eq, Except.isOk, Except.toBool]
    split at large <;> simp only [reduceCtorEq, false_implies, and_true] <;> omega
  · rename_i granted
    rw [granted]
    simp only [confined_append, confined_cons, confined_nil, Event.Confined, and_true, tzcbArg,
      decide_eq_true_eq, Except.isOk, Except.toBool, true_implies]
    split at large <;> omega

theorem mapMemRegion_refuses (fits : MapFits memory length memObjs mapRegion)
    (ok : (smcinvokeProcessMapMemRegionReq memory length memObjs mapRegion).ret = objectOk) :
    tzcbHdrCounts memory = objectCountsPack 0 1 1 1 ∧ ArgInside memory length 0 := by
  unfold smcinvokeProcessMapMemRegionReq at ok
  dsimp only at ok
  split at ok
  · cases ok
  rename_i counted
  rw [ne_eq, not_not] at counted
  split at ok
  · cases ok
  rename_i large
  obtain other | ⟨-, lt, -⟩ := fits
  · exact absurd counted other
  refine ⟨counted, ?_⟩
  unfold sizeSub at large
  rw [if_pos lt] at large
  unfold ArgInside
  omega

end MapMemRegion

section Furthest

variable {memory : ByteMemory} {length : Nat}

def largestOffset (memory : ByteMemory) : Nat → Nat
  | 0 => 0
  | count + 1 => max (largestOffset memory count) (tzcbOffset memory count)

/-- The offset of the argument lies in the buffer, and its size if it starts further than all before. -/
def EntryFits (memory : ByteMemory) (length index : Nat) : Prop :=
  tzcbArg index + (if largestOffset memory index < tzcbOffset memory index then 8 else 4) ≤ length

theorem update_maxOffset {furthest : Furthest} (largest : furthest.maxOffset = largestOffset memory index) :
    (furthest.update memory index).maxOffset = largestOffset memory (index + 1) := by
  unfold Furthest.update largestOffset
  split
  · show tzcbOffset memory index = _
    omega
  · omega

theorem scanFurthest_maxOffset (largest : furthest.maxOffset = largestOffset memory start) :
    (scanFurthest memory (List.range' start count) furthest).maxOffset = largestOffset memory (start + count) := by
  induction count generalizing start furthest with
  | zero => exact largest
  | succ count ih =>
    rw [List.range'_succ, scanFurthest, ih (update_maxOffset largest), add_right_comm, add_assoc]

theorem reads_confined {furthest : Furthest} (largest : furthest.maxOffset = largestOffset memory index) :
    Confined length (furthest.reads memory index) ↔ EntryFits memory length index := by
  unfold Furthest.reads EntryFits
  rw [largest]
  split
  · simp only [confined_cons, confined_nil, Event.Confined, and_true]
    omega
  · simp [confined_cons, confined_nil, Event.Confined]

theorem forall_range_succ {property : Nat → Prop} :
    (∀ index, start ≤ index → index < start + (count + 1) → property index) ↔
      property start ∧ ∀ index, start + 1 ≤ index → index < start + 1 + count → property index := by
  refine ⟨fun every => ⟨every start le_rfl (by omega), fun index low high =>
    every index (by omega) (by omega)⟩, fun ⟨first, rest⟩ index low high => ?_⟩
  by_cases same : index = start
  · rw [same]
    exact first
  · exact rest index (by omega) (by omega)

theorem scanReads_confined (largest : furthest.maxOffset = largestOffset memory start) :
    Confined length (scanReads memory (List.range' start count) furthest) ↔
      ∀ index, start ≤ index → index < start + count → EntryFits memory length index := by
  induction count generalizing start furthest with
  | zero =>
    refine iff_of_true (confined_nil.mpr trivial) fun index low high => ?_
    omega
  | succ count ih =>
    rw [List.range'_succ, scanReads, confined_append, reads_confined largest,
      ih (update_maxOffset largest), forall_range_succ]

end Furthest

section Piggyback

variable {memory : ByteMemory} {length maxCbBufSize start : Nat}

def furthestBuffer (memory : ByteMemory) : Furthest :=
  let counts := tzcbHdrCounts memory
  scanFurthest memory (List.range' (objectCountsIndexBo counts) (objectCountsNumBo counts))
    (scanFurthest memory (List.range' 0 (objectCountsNumBi counts)) .none)

/-- The piggybacked message at `start` lies in the buffer, and so does what is cleared behind it. -/
def SideFits (memory : ByteMemory) (length maxCbBufSize start : Nat) : Prop :=
  start ≤ maxCbBufSize ∧ start + 4 ≤ length ∧
    (memory.load start 4 = 0 ∨ (start + 12 ≤ length ∧ maxCbBufSize ≤ length ∧
      (memory.load (start + 4) 4 = objectOpRelease → start + 12 + 4 * memory.load (start + 8) 4 ≤ length)))

def PiggybackFits (memory : ByteMemory) (length maxCbBufSize : Nat) : Prop :=
  tzcbArg 0 + 4 ≤ length ∧ (length < tzcbOffset memory 0 ∨
    (tzcbArg 1 ≤ length ∧ (length - tzcbOffset memory 0 < tzcbSize memory 0 ∨
      ((∀ index, index < objectCountsIndexOi (tzcbHdrCounts memory) → EntryFits memory length index) ∧
        (furthestBuffer memory).maxOffset + (furthestBuffer memory).bufferSizeMaxOffset < 4294967296 ∧
        SideFits memory length maxCbBufSize (piggybackOffset memory)))))

theorem processPiggybackData_confined : decide (start ≤ maxCbBufSize) = true ∧
      Confined length (processPiggybackData memory start (sizeSub maxCbBufSize start)).events ↔
    SideFits memory length maxCbBufSize start := by
  rw [decide_eq_true_eq]
  refine and_congr_right fun lt => ?_
  have cleared : start + sizeSub maxCbBufSize start = maxCbBufSize := by
    unfold sizeSub
    rw [if_pos lt]
    omega
  unfold processPiggybackData
  dsimp only
  split
  · rename_i unused
    simp [confined_cons, confined_nil, Event.Confined, unused]
  rename_i used
  split
  · simp only [confined_append, confined_cons, confined_nil, Event.Confined, and_true, used, cleared, false_or]
    omega
  split
  · rename_i other
    simp only [confined_append, confined_cons, confined_nil, Event.Confined, and_true, used, cleared,
      other, false_or, false_implies]
    omega
  simp only [confined_append, confined_cons, confined_nil, confined_map, Event.Confined, and_true,
    used, cleared, false_or, List.mem_range]
  refine ⟨fun ⟨⟨⟨⟨first, third⟩, second⟩, objs⟩, clear⟩ => ?_, fun ⟨first, third, clear, objs⟩ => ?_⟩
  · have last := objs (memory.load (start + 8) 4 - 1) (by omega)
    omega
  · refine ⟨⟨⟨⟨first, third⟩, (by omega)⟩, fun idx lt => ?_⟩, clear⟩
    omega

theorem piggyback_confined (long : 16 ≤ length) :
    Confined length (processPiggybackCbData memory length maxCbBufSize).events ↔
      PiggybackFits memory length maxCbBufSize := by
  have none : Furthest.none.maxOffset = largestOffset memory 0 := rfl
  have inner : (scanFurthest memory (List.range' 0 (objectCountsNumBi (tzcbHdrCounts memory)))
      .none).maxOffset = largestOffset memory (objectCountsIndexBo (tzcbHdrCounts memory)) := by
    rw [scanFurthest_maxOffset none, Nat.zero_add]
    rfl
  unfold processPiggybackCbData PiggybackFits
  split
  · rename_i beyond
    simp only [confined_cons, confined_nil, Event.Confined, and_true, beyond, true_or]
  rename_i inside
  have lt : tzcbOffset memory 0 ≤ length := Nat.le_of_not_lt inside
  have room : sizeSub length (tzcbOffset memory 0) = length - tzcbOffset memory 0 := if_pos lt
  rw [room]
  split
  · rename_i refused
    simp only [confined_cons, confined_nil, Event.Confined, and_true, tzcbArg, decide_eq_true_eq, lt, refused,
      inside, true_or, false_or, true_and]
  · rename_i fits
    have entries : (∀ index, index < objectCountsIndexOi (tzcbHdrCounts memory) → EntryFits memory length index) ↔
      (∀ index, 0 ≤ index → index < 0 + objectCountsNumBi (tzcbHdrCounts memory) → EntryFits memory length index) ∧
      ∀ index, objectCountsIndexBo (tzcbHdrCounts memory) ≤ index →
        index < objectCountsIndexBo (tzcbHdrCounts memory) + objectCountsNumBo (tzcbHdrCounts memory) →
        EntryFits memory length index := by
      unfold objectCountsIndexOi objectCountsIndexBo
      refine ⟨fun every => ⟨fun index _ below => every index (by omega), fun index _ below =>
        every index below⟩, fun ⟨first, second⟩ index below => ?_⟩
      by_cases early : index < objectCountsNumBi (tzcbHdrCounts memory)
      · exact first index (Nat.zero_le _) (by omega)
      · exact second index (Nat.le_of_not_lt early) below
    rw [confined_append, confined_append, confined_append, confined_append, confined_append,
      scanReads_confined none, scanReads_confined inner, entries, ← processPiggybackData_confined]
    simp only [confined_cons, confined_nil, Event.Confined, and_true, decide_eq_true_eq, tzcbArg,
      furthestBuffer, lt, true_and, fits, inside, false_or]
    refine ⟨fun ⟨⟨⟨⟨⟨hdr, _⟩, bis⟩, bos⟩, sum, below⟩, side⟩ => ⟨hdr.1, hdr.2, ⟨bis, bos⟩, sum, below, side⟩,
      fun ⟨low, high, ⟨bis, bos⟩, sum, below, side⟩ =>
        ⟨⟨⟨⟨⟨⟨low, high⟩, long⟩, bis⟩, bos⟩, sum, below⟩, side⟩⟩

theorem piggyback_refuses (processed : (processPiggybackCbData memory length maxCbBufSize).released ≠ []) :
    ArgInside memory length 0 := by
  unfold processPiggybackCbData at processed
  split at processed
  · exact absurd rfl processed
  rename_i inside
  have lt : tzcbOffset memory 0 ≤ length := Nat.le_of_not_lt inside
  split at processed
  · exact absurd rfl processed
  rename_i fits
  unfold sizeSub at fits
  rw [if_pos lt] at fits
  unfold ArgInside
  omega

end Piggyback

section MarshalOutInvoke

variable {memory : ByteMemory} {bufSize length counts : Nat} {supplied : Nat → Nat} {copyFails : Nat → Bool}

def InvokeSound (memory : ByteMemory) (bufSize index : Nat) : Prop :=
  invokeOffset memory index ≤ bufSize ∧ invokeSize memory index ≤ bufSize - invokeOffset memory index

/-- The buffers from `start` on that are delivered at all are not larger than the caller's. -/
def Delivers (memory : ByteMemory) (bufSize : Nat) (supplied : Nat → Nat) (copyFails : Nat → Bool)
    (start stop : Nat) : Prop :=
  ∀ index, start ≤ index → index < stop → (∀ earlier, start ≤ earlier → earlier < index →
      InvokeSound memory bufSize earlier ∧ copyFails earlier = false) →
    InvokeSound memory bufSize index → invokeSize memory index ≤ supplied index

def InvokeFits (memory : ByteMemory) (supplied : Nat → Nat) (copyFails : Nat → Bool)
    (length counts : Nat) (args : Option (Nat → InvokeArg)) : Prop :=
  u32 length < 12 + objectCountsTotal counts * 8 ∨ args = none ∨
    Delivers memory (u32 length) supplied copyFails (objectCountsIndexBo counts) (objectCountsIndexOi counts)

theorem invokeSound_iff : ¬(u32Sub bufSize (invokeOffset memory index) < invokeSize memory index ∨
      invokeOffset memory index > bufSize) ↔ InvokeSound memory bufSize index := by
  unfold u32Sub InvokeSound
  split <;> omega

theorem Delivers.nil (empty : stop ≤ start) :
    Delivers memory bufSize supplied copyFails start stop := fun idx low high => by omega

theorem Delivers.succ (lt : start < stop) : Delivers memory bufSize supplied copyFails start stop ↔
      (InvokeSound memory bufSize start → invokeSize memory start ≤ supplied start) ∧
      (InvokeSound memory bufSize start → copyFails start = false →
        Delivers memory bufSize supplied copyFails (start + 1) stop) := by
  refine ⟨fun delivers => ⟨fun sound => ?_, fun sound copied idx low high earlier => ?_⟩,
    fun both idx low high earlier sound => ?_⟩
  · exact delivers start le_rfl lt (fun idx low high => by omega) sound
  · refine delivers idx (by omega) high fun idx low high => ?_
    by_cases same : idx = start
    · rw [same]
      exact ⟨sound, copied⟩
    · exact earlier idx (by omega) high
  · by_cases same : idx = start
    · rw [same] at sound ⊢
      exact both.1 sound
    · obtain ⟨passed, copied⟩ := earlier start le_rfl (by omega)
      exact both.2 passed copied idx (by omega) high (fun idx low => earlier idx (by omega)) sound

theorem invokeBuffers_confined (lt : bufSize ≤ length) (table : invokeArg (start + count) ≤ bufSize) :
    Confined length (invokeBuffers memory bufSize supplied copyFails (List.range' start count) args).events ↔
      Delivers memory bufSize supplied copyFails start (start + count) := by
  induction count generalizing start args with
  | zero => exact iff_of_true (confined_nil.mpr trivial) (.nil le_rfl)
  | succ count ih =>
    have entry : invokeArg start + 8 ≤ length := by
      unfold invokeArg at table ⊢
      omega
    rw [List.range'_succ, Delivers.succ (Nat.lt_add_of_pos_right (Nat.succ_pos count)), invokeBuffers]
    split
    · rename_i refused
      have unsound : ¬InvokeSound memory bufSize start := fun sound =>
        invokeSound_iff.mpr sound refused
      refine iff_of_true (confined_cons.mpr ⟨(?_ : invokeArg start + 4 + 4 ≤ length),
        confined_cons.mpr ⟨(?_ : invokeArg start + 4 ≤ length), confined_nil.mpr trivial⟩⟩)
        ⟨fun sound => absurd sound unsound, fun sound => absurd sound unsound⟩ <;> omega
    · rename_i passed
      have sound := invokeSound_iff.mp passed
      have inside : invokeOffset memory start + invokeSize memory start ≤ length := by
        unfold InvokeSound at sound
        omega
      have first : invokeArg start + 4 + 4 ≤ length := by omega
      have second : invokeArg start + 4 ≤ length := by omega
      split
      · rename_i failed
        simp [confined_cons, confined_nil, Event.Confined, sound, failed, inside, first, second, sound.1]
      rename_i copied
      have rest : start + 1 + count = start + (count + 1) := by omega
      have later : Confined length (invokeBuffers memory bufSize supplied copyFails
          (List.range' (start + 1) count) (Function.update args start
            { args start with size := invokeSize memory start })).events ↔ _ := ih (rest ▸ table)
      rw [rest] at later
      simp [confined_cons, Event.Confined, sound, copied, inside, first, second, sound.1, later]

theorem invokeBuffers_sound
    (ok : (invokeBuffers memory bufSize supplied copyFails (List.range' start count) args).ret = 0) :
    ∀ index, start ≤ index → index < start + count → InvokeSound memory bufSize index := by
  induction count generalizing start args with
  | zero =>
    intro index low high
    omega
  | succ count ih =>
    rw [List.range'_succ, invokeBuffers] at ok
    split at ok
    · cases ok
    rename_i passed
    split at ok
    · cases ok
    · exact forall_range_succ.mpr ⟨invokeSound_iff.mp passed, ih ok⟩

theorem invokeObjects_confined (table : invokeArg (start + count) ≤ length) :
    Confined length (invokeObjects memory uhandle (List.range' start count) args).events := by
  induction count generalizing start args with
  | zero => exact confined_nil.mpr trivial
  | succ count ih =>
    have entry : invokeArg start + 4 ≤ length := by
      unfold invokeArg at table ⊢
      omega
    rw [List.range'_succ, invokeObjects]
    split
    · exact confined_cons.mpr ⟨entry, confined_nil.mpr trivial⟩
    · exact confined_cons.mpr ⟨entry, ih (by rwa [add_right_comm])⟩

theorem marshalOutInvoke_confined : Confined length
        (marshalOutInvokeReq memory supplied copyFails uhandle length counts args).events ↔
      InvokeFits memory supplied copyFails length counts args := by
  have lt : u32 length ≤ length := Nat.mod_le _ _
  unfold marshalOutInvokeReq InvokeFits
  dsimp only
  split
  · rename_i small
    exact iff_of_true (confined_nil.mpr trivial) (.inl small)
  rename_i fits
  cases args with
  | none => exact iff_of_true (confined_nil.mpr trivial) (.inr (.inl rfl))
  | some args =>
    have table : invokeArg (objectCountsTotal counts) ≤ u32 length := by
      unfold invokeArg
      omega
    have buffersTable : invokeArg (objectCountsIndexBo counts + objectCountsNumBo counts) ≤ u32 length := by
      unfold invokeArg objectCountsTotal objectCountsIndexOo objectCountsIndexOi at *
      omega
    have buffers : Confined length (invokeBuffers memory (u32 length) supplied copyFails
        (List.range' (objectCountsIndexBo counts) (objectCountsNumBo counts)) args).events ↔ _ :=
      invokeBuffers_confined lt buffersTable
    have objects : ∀ args, Confined length (invokeObjects memory uhandle
        (List.range' (objectCountsIndexOo counts) (objectCountsNumOo counts)) args).events :=
      fun args => invokeObjects_confined (le_trans table lt)
    simp only [fits, reduceCtorEq, false_or]
    split
    · exact buffers
    · rw [confined_append]
      exact (and_iff_left (objects _)).trans buffers

theorem marshalOutInvoke_refuses
    (ok : (marshalOutInvokeReq memory supplied copyFails uhandle length counts args).ret = 0) :
    12 + objectCountsTotal counts * 8 ≤ u32 length ∧ (args ≠ none → ∀ index, objectCountsIndexBo counts ≤ index →
      index < objectCountsIndexOi counts → InvokeSound memory (u32 length) index) := by
  unfold marshalOutInvokeReq at ok
  dsimp only at ok
  split at ok
  · cases ok
  rename_i fits
  refine ⟨Nat.le_of_not_lt fits, fun some => ?_⟩
  cases args with
  | none => exact absurd rfl some
  | some args =>
    dsimp only at ok
    split at ok
    · rename_i failed
      exact absurd ok failed
    · rename_i passed
      exact invokeBuffers_sound (not_not.mp passed)

end MarshalOutInvoke

section MarshalIn

variable {length : Nat}

section

variable {start count : Nat} (table : tzcbArg (start + count) ≤ length)
include table

theorem inBuffersShown_confined :
    Confined length (inBuffersShown memory length server (List.range' start count) userOffset).events := by
  induction count generalizing start userOffset with
  | zero => exact confined_nil.mpr trivial
  | succ count ih =>
    have entry : tzcbArg start + 8 ≤ length := by
      unfold tzcbArg at table ⊢
      omega
    have hdr : Confined length [.read (tzcbArg start + 4) 4, .read (tzcbArg start) 4] := by
      simp only [confined_cons, confined_nil, Event.Confined, and_true]
      omega
    rw [List.range'_succ, inBuffersShown]
    split
    · exact hdr
    rename_i passed
    simp only [not_or, not_lt, gt_iff_lt] at passed
    obtain ⟨lt, small, user, _⟩ := passed
    unfold sizeSub at small
    rw [if_pos lt] at small
    have inside : tzcbOffset memory start + tzcbSize memory start ≤ length := by omega
    have copy : Confined length [.bound (decide (tzcbOffset memory start ≤ length)),
        .bound (decide (sizeAlign userOffset smcinvokeArgsAlignSize ≤ server.bufLen)),
        .read (tzcbOffset memory start) (tzcbSize memory start)] :=
      confined_cons.mpr ⟨decide_eq_true lt, confined_cons.mpr ⟨decide_eq_true user,
        confined_cons.mpr ⟨inside, confined_nil.mpr trivial⟩⟩⟩
    split
    · exact confined_append.mpr ⟨hdr, copy⟩
    · exact confined_append.mpr ⟨confined_append.mpr ⟨hdr, copy⟩, ih (by rwa [add_right_comm])⟩

omit table in
theorem inBuffersShown_inside
    (ok : (inBuffersShown memory length server (List.range' start count) userOffset).ret = 0) :
    ∀ index, start ≤ index → index < start + count → ArgInside memory length index := by
  induction count generalizing start userOffset with
  | zero =>
    intro index low high
    omega
  | succ count ih =>
    rw [List.range'_succ, inBuffersShown] at ok
    split at ok
    · cases ok
    rename_i passed
    simp only [not_or, not_lt, gt_iff_lt] at passed
    obtain ⟨lt, small, -⟩ := passed
    unfold sizeSub at small
    rw [if_pos lt] at small
    split at ok
    · cases ok
    · refine forall_range_succ.mpr ⟨?_, ih ok⟩
      unfold ArgInside
      omega

theorem outBuffersShown_confined :
    Confined length (outBuffersShown memory server (List.range' start count) userOffset).events := by
  induction count generalizing start userOffset with
  | zero => exact confined_nil.mpr trivial
  | succ count ih =>
    have entry : tzcbArg start + 8 ≤ length := by
      unfold tzcbArg at table ⊢
      omega
    have hdr : Confined length [.read (tzcbArg start + 4) 4] :=
      confined_cons.mpr ⟨(show tzcbArg start + 4 + 4 ≤ length by omega), confined_nil.mpr trivial⟩
    rw [List.range'_succ, outBuffersShown]
    split
    · exact hdr
    rename_i passed
    simp only [not_or, not_lt, gt_iff_lt] at passed
    split
    · exact hdr
    · exact confined_append.mpr ⟨hdr, confined_cons.mpr ⟨decide_eq_true passed.1, ih (by rwa [add_right_comm])⟩⟩

theorem objectsShown_confined :
    Confined length (objectsShown memory server (List.range' start count) userOffset).events := by
  induction count generalizing start userOffset with
  | zero => exact confined_nil.mpr trivial
  | succ count ih =>
    have entry : tzcbArg start + 4 ≤ length := by
      unfold tzcbArg at table ⊢
      omega
    have hdr : Confined length [.read (tzcbArg start) 4] :=
      confined_cons.mpr ⟨entry, confined_nil.mpr trivial⟩
    rw [List.range'_succ, objectsShown]
    split
    · exact hdr
    · split
      · exact hdr
      · exact confined_append.mpr ⟨hdr, ih (by rwa [add_right_comm])⟩

end

theorem Shown.andThen_confined {shown : Shown} (before : Confined length shown.events)
    (after : ∀ userOffset, Confined length (next userOffset).events) : Confined length (shown.andThen next).events := by
  unfold Shown.andThen
  split
  · exact before
  · exact confined_append.mpr ⟨before, after _⟩

theorem marshalInTzcb_confined (long : 16 ≤ length) :
    Confined length (marshalInTzcbReq memory length server).events := by
  have counts : (Event.read 12 4).Confined length := long
  have handle : (Event.read 4 4).Confined length := by
    show 4 + 4 ≤ length
    omega
  have op : (Event.read 8 4).Confined length := by
    show 8 + 4 ≤ length
    omega
  unfold marshalInTzcbReq
  split
  · exact confined_cons.mpr ⟨counts, confined_nil.mpr trivial⟩
  rename_i fits
  have table : tzcbArg (objectCountsTotal (tzcbHdrCounts memory)) ≤ length := Nat.le_of_not_lt fits
  unfold tzcbArg objectCountsTotal objectCountsIndexOo at table
  split
  · exact confined_cons.mpr ⟨counts, confined_cons.mpr ⟨handle, confined_nil.mpr trivial⟩⟩
  refine confined_append.mpr ⟨confined_cons.mpr ⟨counts, confined_cons.mpr ⟨handle,
    confined_cons.mpr ⟨op, confined_nil.mpr trivial⟩⟩⟩, ?_⟩
  refine Shown.andThen_confined (Shown.andThen_confined (inBuffersShown_confined ?_)
    fun _ => outBuffersShown_confined ?_) fun _ => objectsShown_confined ?_
  all_goals
    unfold tzcbArg
    unfold objectCountsIndexOi objectCountsIndexBo at *
    omega

theorem Shown.andThen_ok {shown : Shown} (ok : (shown.andThen next).ret = 0) : shown.ret = 0 := by
  unfold Shown.andThen at ok
  split at ok
  · exact ok
  · rename_i passed
    exact not_not.mp passed

theorem marshalInTzcb_refuses (ok : (marshalInTzcbReq memory length server).ret = 0) : tzcbBufOffset memory ≤ length ∧
    ∀ index, index < objectCountsNumBi (tzcbHdrCounts memory) → ArgInside memory length index := by
  unfold marshalInTzcbReq at ok
  split at ok
  · cases ok
  rename_i fits
  split at ok
  · cases ok
  · refine ⟨Nat.le_of_not_lt fits, fun index below => ?_⟩
    exact inBuffersShown_inside (Shown.andThen_ok (Shown.andThen_ok ok)) index (Nat.zero_le _) (by omega)

end MarshalIn

end KernelModules.Smcinvoke

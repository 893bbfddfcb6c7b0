import KernelModules.Vidc.HfiQueue

namespace KernelModules.Vidc

open Data List BitVec

/-! ## Accesses to the array of a queue

What a call touches of the array, as runs of an offset and a number of bytes, for any header.
-/

/-- The parts in which `size` words from `idx` on are copied. -/
def wrapRuns (words idx size : BitVec 32) : List (Nat × Nat) :=
  if idx + size < words then [((idx <<< 2).toNat, (size <<< 2).toNat)]
  else let newIdx := idx + size - words
    [((idx <<< 2).toNat, ((size - newIdx) <<< 2).toNat), (0, (newIdx <<< 2).toNat)]

def wrapIdx (words idx size : BitVec 32) : BitVec 32 :=
  if idx + size < words then idx + size else idx + size - words

def fillRuns (packet : ByteMemory) : ByteMemory → Nat → List (Nat × Nat) → ByteMemory
  | array, _, [] => array
  | array, done, (place, count) :: runs =>
    fillRuns packet (array.copy packet place done count) (done + count) runs

def gatherRuns (array : ByteMemory) : ByteMemory → Nat → List (Nat × Nat) → ByteMemory
  | packet, _, [] => packet
  | packet, done, (place, count) :: runs =>
    gatherRuns array (packet.copy array done place count) (done + count) runs

def mappedQueue (memSize : BitVec 32) (queue : HfiQueueHeader) (array : ByteMemory) : MsmVidcIfaceQInfo where
  qHdr := some queue
  qArray := { alignVirtualAddr := some array, memSize }

/-- The checks of `__write_queue`. -/
def WriteAdmitted (memSize : BitVec 32) (queue : HfiQueueHeader) (size : BitVec 32) : Prop :=
  size ≠ 0 ∧ size ≤ memSize >>> 2 ∧ size < emptySpace (memSize >>> 2) queue.qhdrReadIdx queue.qhdrWriteIdx ∧
    (queue.qhdrWriteIdx <<< 2).toNat ≤ memSize.toNat

/-- The checks of `__read_queue` before it reads the size of the packet. -/
def ReadChecked (memSize : BitVec 32) (queue : HfiQueueHeader) : Prop :=
  queue.qhdrReadIdx ≠ queue.qhdrWriteIdx ∧ (queue.qhdrReadIdx <<< 2).toNat + 4 ≤ memSize.toNat

def ReadAdmitted (memSize : BitVec 32) (queue : HfiQueueHeader) (size : BitVec 32) : Prop :=
  ReadChecked memSize queue ∧ size ≠ 0 ∧ size <<< 2 ≤ vidcIfaceqVarHugePktSize ∧ queue.qhdrReadIdx ≤ memSize >>> 2

instance (memSize : BitVec 32) (queue : HfiQueueHeader) (size : BitVec 32) :
    Decidable (WriteAdmitted memSize queue size) := inferInstanceAs (Decidable (_ ∧ _))

instance (memSize : BitVec 32) (queue : HfiQueueHeader) : Decidable (ReadChecked memSize queue) :=
  inferInstanceAs (Decidable (_ ∧ _))

instance (memSize : BitVec 32) (queue : HfiQueueHeader) (size : BitVec 32) :
    Decidable (ReadAdmitted memSize queue size) := inferInstanceAs (Decidable (_ ∧ _))

def readSize (array : ByteMemory) (queue : HfiQueueHeader) : BitVec 32 :=
  word array (queue.qhdrReadIdx <<< 2).toNat >>> 2

/-- The runs stay inside the array, they are no more than `limit` bytes, and where the call
succeeds its index is below the size of the queue. -/
structure CopySafe (memSize : BitVec 32) (runs : List (Nat × Nat)) (limit : Nat)
    (rc : Except Errno Unit) (idx : Option (BitVec 32)) : Prop where
  inside : ∀ run ∈ runs, run.1 + run.2 ≤ memSize.toNat
  total : (runs.map Prod.snd).sum ≤ limit
  index : rc = .ok () → ∀ after ∈ idx, after < memSize >>> 2

theorem CopySafe.refused (refused : rc ≠ .ok ()) : CopySafe memSize [] limit rc idx :=
  ⟨fun _ mem => absurd mem not_mem_nil, Nat.zero_le _, fun done => absurd done refused⟩

theorem CopySafe.iff_index {idx size : BitVec 32} (some : size ≠ 0)
    (place : (idx <<< 2).toNat ≤ memSize.toNat) (low : 4 * size.toNat ≤ limit) (high : limit < 2 ^ 32) :
    CopySafe memSize (wrapRuns (memSize >>> 2) idx size) limit (.ok ())
        (Option.some (wrapIdx (memSize >>> 2) idx size)) ↔
      idx.toNat ≤ (memSize >>> 2).toNat ∧ idx.toNat + size.toNat < 2 * (memSize >>> 2).toNat := by
  have fields : ∀ runs after, CopySafe memSize runs limit (.ok ()) (Option.some after) ↔
      (∀ run ∈ runs, run.1 + run.2 ≤ memSize.toNat) ∧ (runs.map Prod.snd).sum ≤ limit ∧
        after < memSize >>> 2 := fun runs after =>
    ⟨fun safe => ⟨safe.inside, safe.total, safe.index rfl _ rfl⟩,
      fun ⟨inside, total, index⟩ => ⟨inside, total, fun _ _ same => by cases same; exact index⟩⟩
  rw [fields]
  unfold wrapRuns wrapIdx
  split
  · simp only [forall_mem_singleton, map_cons, map_nil, sum_cons, sum_nil]
    simp only [lt_def, toNat_shiftLeft, toNat_ushiftRight, toNat_add] at *
    omega
  · simp only [forall_mem_cons, not_mem_nil, false_imp_iff, implies_true, and_true,
      map_cons, map_nil, sum_cons, sum_nil]
    simp only [lt_def, toNat_shiftLeft, toNat_ushiftRight, toNat_add, toNat_sub] at *
    omega

section Calls

variable (memSize : BitVec 32) (queue : HfiQueueHeader) (packet array : ByteMemory)

theorem writeQueue_runs (set : Bool) : (WriteAdmitted memSize queue (word packet 0 >>> 2) →
        writeQueue (mappedQueue memSize queue array) packet set = (.ok (), true, mappedQueue memSize
            { queue with
              qhdrTxReq := 0
              qhdrWriteIdx := wrapIdx (memSize >>> 2) queue.qhdrWriteIdx (word packet 0 >>> 2) }
            (fillRuns packet array 0
              (wrapRuns (memSize >>> 2) queue.qhdrWriteIdx (word packet 0 >>> 2))))) ∧
      (¬ WriteAdmitted memSize queue (word packet 0 >>> 2) →
        (writeQueue (mappedQueue memSize queue array) packet set).1 ≠ .ok () ∧
          (writeQueue (mappedQueue memSize queue array) packet set).2.2.qArray.alignVirtualAddr = some array) := by
  unfold writeQueue mappedQueue
  dsimp only
  constructor
  · rintro ⟨some, fits, room, place⟩
    have size : ¬ (word packet 0 >>> 2 = 0 ∨ word packet 0 >>> 2 > memSize >>> 2) := fun bad =>
      bad.elim some (BitVec.not_lt.mpr fits)
    rw [if_neg size, if_neg (BitVec.not_le.mpr room), if_neg (by omega)]
    unfold wrapRuns wrapIdx
    split
    · rfl
    · simp [fillRuns]
  · intro refused
    split
    · exact ⟨by simp, rfl⟩
    · rename_i size
      split
      · exact ⟨by simp, rfl⟩
      · split
        · exact ⟨by simp, rfl⟩
        · rename_i room place
          exact absurd ⟨fun none => size (.inl none), BitVec.not_lt.mp fun more => size (.inr more),
            BitVec.not_le.mp room, not_lt.mp place⟩ refused

theorem readQueue_runs (set : BitVec 32) : (ReadAdmitted memSize queue (readSize array queue) →
        ∃ txReq rxReq, readQueue (mappedQueue memSize queue array) packet set = (.ok (), gatherRuns array packet 0
            (wrapRuns (memSize >>> 2) queue.qhdrReadIdx (readSize array queue)), txReq,
          mappedQueue memSize
            { queue with
              qhdrRxReq := rxReq
              qhdrReadIdx :=
                wrapIdx (memSize >>> 2) queue.qhdrReadIdx (readSize array queue) } array)) ∧
      (¬ ReadAdmitted memSize queue (readSize array queue) →
        (readQueue (mappedQueue memSize queue array) packet set).1 ≠ .ok () ∧
          (readQueue (mappedQueue memSize queue array) packet set).2.1 = packet) := by
  unfold readQueue mappedQueue readSize
  dsimp only
  constructor
  · rintro ⟨⟨apart, place⟩, some, small, lt⟩
    rw [if_neg apart, if_neg (by omega), if_neg some, if_pos ⟨small, lt⟩]
    unfold wrapRuns wrapIdx
    split
    · exact ⟨_, _, rfl⟩
    · simp only [gatherRuns, zero_add]
      exact ⟨_, _, rfl⟩
  · intro refused
    split
    · exact ⟨by simp, rfl⟩
    · rename_i apart
      split
      · exact ⟨by simp, rfl⟩
      · split
        · exact ⟨by simp, rfl⟩
        · rename_i some
          rw [if_neg fun both => refused ⟨⟨apart, by omega⟩, some, both⟩]
          exact ⟨by simp, rfl⟩

/-- `__write_queue` is safe: the runs of the array that it fills, and the write index it leaves. -/
def WriteSafe : Prop :=
  ∀ set, CopySafe memSize
    (if WriteAdmitted memSize queue (word packet 0 >>> 2) then
      wrapRuns (memSize >>> 2) queue.qhdrWriteIdx (word packet 0 >>> 2)
    else [])
    (word packet 0).toNat (writeQueue (mappedQueue memSize queue array) packet set).1
    ((writeQueue (mappedQueue memSize queue array) packet set).2.2.qHdr.map (·.qhdrWriteIdx))

/-- `__read_queue` is safe: the word with the size, the runs that it copies, and the read index it
leaves. -/
def ReadSafe : Prop :=
  (ReadChecked memSize queue → (queue.qhdrReadIdx <<< 2).toNat + 4 ≤ memSize.toNat) ∧ ∀ packet set, CopySafe memSize
      (if ReadAdmitted memSize queue (readSize array queue) then
        wrapRuns (memSize >>> 2) queue.qhdrReadIdx (readSize array queue)
      else [])
      vidcIfaceqVarHugePktSize.toNat (readQueue (mappedQueue memSize queue array) packet set).1
      ((readQueue (mappedQueue memSize queue array) packet set).2.2.2.qHdr.map (·.qhdrReadIdx))

/-- Inside the queue, or at its end with a packet that is shorter than the queue. -/
def WriteIndexSound : Prop :=
  queue.qhdrWriteIdx < memSize >>> 2 ∨ queue.qhdrWriteIdx = memSize >>> 2 ∧ word packet 0 >>> 2 < memSize >>> 2

theorem writeSafe_iff : WriteSafe memSize queue packet array ↔ (WriteAdmitted memSize queue (word packet 0 >>> 2) →
        WriteIndexSound memSize queue packet) := by
  unfold WriteSafe WriteIndexSound
  by_cases admitted : WriteAdmitted memSize queue (word packet 0 >>> 2)
  · have called := fun set => (writeQueue_runs memSize queue packet array set).1 admitted
    obtain ⟨some, fits, -, place⟩ := id admitted
    have words : 4 * (word packet 0 >>> 2).toNat ≤ (word packet 0).toNat := by
      rw [toNat_ushiftRight]
      omega
    rw [if_pos admitted]
    simp only [called]
    simp only [mappedQueue, Option.map_some, forall_const, admitted,
      CopySafe.iff_index some place words (word packet 0).isLt]
    simp only [le_def, lt_def, ← toNat_inj] at *
    omega
  · refine ⟨fun _ yes => absurd yes admitted, fun _ set => ?_⟩
    rw [if_neg admitted]
    exact .refused ((writeQueue_runs memSize queue packet array set).2 admitted).1

variable {memSize queue array}

theorem ReadAdmitted.bounds (admitted : ReadAdmitted memSize queue (readSize array queue)) :
    queue.qhdrReadIdx.toNat < (memSize >>> 2).toNat ∧
      4 * (readSize array queue).toNat ≤ vidcIfaceqVarHugePktSize.toNat := by
  obtain ⟨⟨-, place⟩, -, small, lt⟩ := admitted
  simp only [readSize, le_def, toNat_shiftLeft, toNat_ushiftRight] at *
  omega

theorem readSafe_iff : ReadSafe memSize queue array ↔ (ReadAdmitted memSize queue (readSize array queue) →
      queue.qhdrReadIdx.toNat + (readSize array queue).toNat < 2 * (memSize >>> 2).toNat) := by
  unfold ReadSafe
  by_cases admitted : ReadAdmitted memSize queue (readSize array queue)
  · have bounds := admitted.bounds
    have safe : ∀ packet set, CopySafe memSize (wrapRuns (memSize >>> 2) queue.qhdrReadIdx
        (readSize array queue)) vidcIfaceqVarHugePktSize.toNat
        (readQueue (mappedQueue memSize queue array) packet set).1
        ((readQueue (mappedQueue memSize queue array) packet set).2.2.2.qHdr.map (·.qhdrReadIdx)) ↔
        queue.qhdrReadIdx.toNat + (readSize array queue).toNat < 2 * (memSize >>> 2).toNat := by
      intro packet set
      obtain ⟨txReq, rxReq, called⟩ := (readQueue_runs memSize queue packet array set).1 admitted
      obtain ⟨⟨-, place⟩, some, -⟩ := admitted
      rw [called]
      simp only [mappedQueue, Option.map_some,
        CopySafe.iff_index some (Nat.le_of_add_right_le place) bounds.2 (by decide)]
      omega
    have place := admitted.1.2
    rw [if_pos admitted]
    simp only [safe, forall_const, admitted, place, implies_true, true_and]
  · refine ⟨fun _ yes => absurd yes admitted, fun _ => ⟨fun checked => checked.2, fun packet set => ?_⟩⟩
    rw [if_neg admitted]
    exact .refused ((readQueue_runs memSize queue packet array set).2 admitted).1

end Calls

/-- A write is safe unless its checks pass with a write index outside; a read unless it comes to the end a second
time, which no queue of 4096 bytes allows. -/
theorem queue_safe_iff (memSize : BitVec 32) (queue : HfiQueueHeader) (packet array : ByteMemory) :
    (WriteSafe memSize queue packet array ↔ (WriteAdmitted memSize queue (word packet 0 >>> 2) →
          WriteIndexSound memSize queue packet)) ∧
      (ReadSafe memSize queue array ↔ (ReadAdmitted memSize queue (readSize array queue) →
        queue.qhdrReadIdx.toNat + (readSize array queue).toNat < 2 * (memSize >>> 2).toNat)) ∧
      (4096 ≤ memSize.toNat → ReadSafe memSize queue array) := by
  refine ⟨writeSafe_iff .., readSafe_iff, fun large => readSafe_iff.mpr fun admitted => ?_⟩
  have bounds := admitted.bounds
  have limit : vidcIfaceqVarHugePktSize.toNat = 4096 := by decide
  rw [BitVec.toNat_ushiftRight] at *
  omega

/-- In a queue of the driver's size the write index shifts to zero. -/
theorem queue_unsafe : ¬ ∀ memSize queue packet array,
      WriteSafe memSize queue packet array ∧ ReadSafe memSize queue array := by
  intro always
  have safe := (always 819200 ⟨0, 0, 0, 0, 0x40000000⟩ (fun place => if place = 0 then 4 else 0)
    fun _ => 0).1
  have sound := (writeSafe_iff ..).mp safe (by decide +kernel)
  exact absurd sound (by unfold WriteIndexSound; decide +kernel)

end KernelModules.Vidc

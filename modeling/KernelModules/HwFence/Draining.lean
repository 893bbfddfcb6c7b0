import KernelModules.HwFence.RingIndex

namespace KernelModules.HwFence

open List

/-! # Draining a queue

The answer of a read says whether there is more, and who empties a queue goes by it.
-/

/-- A loop `while (ret > 0)` around the read: what it read and the queue it left, where it stops
within `rounds`. -/
def drainQueue : Nat → MsmHwFenceQueue → Option (List MsmHwFenceQueuePayload × MsmHwFenceQueue)
  | 0, _ => none
  | rounds + 1, queue =>
    let (ret, payload, after) := hwFenceReadQueueHelper queue
    if 0 < ret then (drainQueue rounds after).map fun rest => (payload.toList ++ rest.1, rest.2)
    else some (payload.toList, after)

def pendingPayloads (vaQueue : Data.ByteMemory) (entries : Nat) : Nat → Nat → List MsmHwFenceQueuePayload
  | _, 0 => []
  | first, unread + 1 => .ofBytes vaQueue (4 * (placeIdx (first % entries)).toNat) ::
      pendingPayloads vaQueue entries (first + 1) unread

/-- A queue with `unread` payloads from the place of `first` on, whichever word writes go by. -/
structure Unread (queue : MsmHwFenceQueue) (header : MsmHwFenceHfiQueueHeader) (entries first unread : Nat) : Prop where
  ring : RingQueue { queue with skipWrIdx := false } entries
  vaHeader : queue.vaHeader = some header
  readIndex : header.readIndex = headerIdx queue (first % entries)
  writeIndex : header.writeIndex = headerIdx queue ((first + unread) % entries)
  room : unread < entries

def MsmHwFenceQueue.readUpTo (queue : MsmHwFenceQueue) (header : MsmHwFenceHfiQueueHeader) (readIndex : BitVec 32) :
    MsmHwFenceQueue :=
  { queue with vaHeader := some { header with readIndex } }

section Draining

variable {queue : MsmHwFenceQueue} {header : MsmHwFenceHfiQueueHeader} {entries first unread : Nat}

theorem Unread.indexes (pending : Unread queue header entries first unread) :
    translateQueueIndexesCustomToDefault queue header.readIndex header.writeIndex =
      (placeIdx (first % entries), placeIdx ((first + unread) % entries)) := by
  have pos := pending.ring.positive
  rw [pending.readIndex, pending.writeIndex]
  exact pending.ring.translateIndexes (Nat.mod_lt _ pos) (Nat.mod_lt _ pos)

theorem Unread.read_empty (pending : Unread queue header entries first 0) :
    hwFenceReadQueueHelper queue = (eInval, none, queue) := by
  simp [hwFenceReadQueueHelper, pending.vaHeader, pending.indexes]

theorem Unread.places_ne (pending : Unread queue header entries first unread) (before : behind < unread) :
    placeIdx ((first + behind) % entries) ≠ placeIdx ((first + unread) % entries) := by
  intro same
  have pos := pending.ring.positive
  have room := pending.room
  exact Data.ring_place_ne (by omega) (by omega)
    (pending.ring.placeIdx_injective (Nat.mod_lt _ pos) (Nat.mod_lt _ pos) same)

theorem Unread.read (pending : Unread queue header entries first (unread + 1)) : hwFenceReadQueueHelper queue =
      (if headerIdx queue ((first + 1) % entries) = placeIdx ((first + (unread + 1)) % entries) then 0 else 1,
        some (.ofBytes queue.vaQueue (4 * (placeIdx (first % entries)).toNat)),
        queue.readUpTo header (headerIdx queue ((first + 1) % entries))) := by
  have apart := pending.places_ne (Nat.succ_pos unread)
  have next : indexAfter queue (placeIdx (first % entries)) = headerIdx queue ((first + 1) % entries) :=
    pending.ring.indexAfter_place first
  rw [add_zero] at apart
  simp [hwFenceReadQueueHelper, pending.vaHeader, pending.indexes, apart, next, MsmHwFenceQueue.readUpTo]

theorem Unread.rest (pending : Unread queue header entries first (unread + 1)) :
    Unread (queue.readUpTo header (headerIdx queue ((first + 1) % entries)))
      { header with readIndex := headerIdx queue ((first + 1) % entries) } entries (first + 1) unread where
  ring := ⟨pending.ring.positive, pending.ring.size, pending.ring.accepts, rfl⟩
  vaHeader := rfl
  readIndex := rfl
  writeIndex := by
    rw [add_assoc, add_comm 1 unread]
    exact pending.writeIndex
  room := Nat.lt_of_succ_lt pending.room

/-- The loop stops; it leaves nothing unread if no index before the last one, as in the header, is the place written
next. -/
theorem Unread.drain_iff (pending : Unread queue header entries first unread) (waiting : 0 < unread) :
    drainQueue (unread + 1) queue = some (pendingPayloads queue.vaQueue entries first unread,
        queue.readUpTo header header.writeIndex) ↔ ∀ behind, 0 < behind → behind < unread →
        headerIdx queue ((first + behind) % entries) ≠ placeIdx ((first + unread) % entries) := by
  induction unread generalizing queue header first with
  | zero => exact absurd waiting (lt_irrefl 0)
  | succ unread ih =>
    rw [drainQueue, pending.read]
    cases unread with
    | zero =>
      have last : headerIdx queue ((first + 1) % entries) = header.writeIndex := pending.writeIndex.symm
      have empty := pending.rest.read_empty
      rw [last] at empty ⊢
      apply iff_of_true
      · dsimp only
        split <;> simp [drainQueue, empty, pendingPayloads, eInval]
      · intro behind pos before
        omega
    | succ unread =>
      by_cases stops : headerIdx queue ((first + 1) % entries) = placeIdx ((first + (unread + 1 + 1)) % entries)
      · apply iff_of_false
        · simp [stops, pendingPayloads]
        · exact fun clear => clear 1 Nat.one_pos (by omega) stops
      · have after := ih pending.rest (Nat.succ_pos unread)
        have shifted (behind : Nat) : first + 1 + behind = first + (behind + 1) := by omega
        simp only [shifted] at after
        have goes : (∀ behind, 0 < behind → behind < unread + 1 →
              headerIdx queue ((first + (behind + 1)) % entries) ≠ placeIdx ((first + (unread + 1 + 1)) % entries)) ↔
            ∀ behind, 0 < behind → behind < unread + 1 + 1 →
              headerIdx queue ((first + behind) % entries) ≠ placeIdx ((first + (unread + 1 + 1)) % entries) := by
          constructor
          · intro clear behind pos before
            rcases behind with - | - | behind
            · exact absurd pos (lt_irrefl 0)
            · exact stops
            · exact clear (behind + 1) (Nat.succ_pos _) (by omega)
          · exact fun clear behind pos before => clear (behind + 1) (Nat.succ_pos _) (by omega)
        rw [← goes]
        refine Iff.trans ?_ after
        cases drained : drainQueue (unread + 1 + 1) (queue.readUpTo header (headerIdx queue ((first + 1) % entries))) with
        | none => simp [stops, drained]
        | some rest =>
          simp [stops, drained, pendingPayloads, Prod.ext_iff]
          rfl

/-- Where indices are translated, the answer compares one in the space of the header with one in
dwords. -/
theorem read_answer_iff (pending : Unread queue header entries first unread) (waiting : 0 < unread) :
    ((hwFenceReadQueueHelper queue).1 = (if unread = 1 then 0 else 1) ∧
        drainQueue (unread + 1) queue = some (pendingPayloads queue.vaQueue entries first unread,
          queue.readUpTo header header.writeIndex)) ↔
      requiresIdxTranslation queue = false ∨
        (unread = 1 → headerIdx queue ((first + 1) % entries) = placeIdx ((first + 1) % entries)) ∧
        ∀ behind, 0 < behind → behind < unread →
          headerIdx queue ((first + behind) % entries) ≠ placeIdx ((first + unread) % entries) := by
  have direct : requiresIdxTranslation queue = false → ∀ place, headerIdx queue place = placeIdx place := by
    intro free place
    simp [headerIdx, free]
  rw [pending.drain_iff waiting]
  cases unread with
  | zero => exact absurd waiting (lt_irrefl 0)
  | succ unread =>
    rw [pending.read]
    constructor
    · rintro ⟨answer, clear⟩
      refine .inr ⟨?_, clear⟩
      intro one
      obtain rfl : unread = 0 := by omega
      simpa using answer
    · intro holds
      have clear (behind : Nat) (positive : 0 < behind) (before : behind < unread + 1) :
          headerIdx queue ((first + behind) % entries) ≠ placeIdx ((first + (unread + 1)) % entries) := by
        rcases holds with free | ⟨_, clear⟩
        · rw [direct free]
          exact pending.places_ne before
        · exact clear behind positive before
      refine ⟨?_, clear⟩
      cases unread with
      | zero =>
        rcases holds with free | ⟨last, _⟩
        · simp [direct free]
        · simp [last rfl]
      | succ unread => simp [clear 1 Nat.one_pos (by omega)]

def exampleUnread (start readIndex writeIndex : BitVec 32) : MsmHwFenceQueue where
  vaQueue := fun _ => 0
  qSizeBytes := 256
  vaHeader := some ⟨readIndex, writeIndex, 0⟩
  rdWrIdxStart := start
  rdWrIdxFactor := 16
  skipWrIdx := false

/-- Two payloads with the indices 0 and 1; the place behind them has the index 2. -/
theorem read_answer_iff_two : (hwFenceReadQueueHelper (exampleUnread 0 0 2)).1 = 1 ∧
    (drainQueue 3 (exampleUnread 0 0 2)).map (fun drained => drained.1.length) = some 2 := by
  have pending : Unread (exampleUnread 0 0 2) ⟨0, 2, 0⟩ 4 0 2 :=
    ⟨⟨by decide, by decide, by decide, rfl⟩, rfl, by decide, by decide, by decide⟩
  have between (behind : Nat) (positive : 0 < behind) (before : behind < 2) :
      headerIdx (exampleUnread 0 0 2) ((0 + behind) % 4) ≠ placeIdx ((0 + 2) % 4) := by
    obtain rfl : behind = 1 := by omega
    decide
  obtain ⟨answer, drained⟩ := (read_answer_iff pending (by decide)).mpr (.inr ⟨by decide, between⟩)
  exact ⟨answer, by rw [drained]; rfl⟩

/-- The only payload of a queue whose indices start at 5: the index behind it is 6, at dword 16. -/
theorem read_answer_wrong : ¬ ∀ (queue : MsmHwFenceQueue) header entries first unread,
    Unread queue header entries first unread → 0 < unread →
      (hwFenceReadQueueHelper queue).1 = (if unread = 1 then 0 else 1) ∧
        drainQueue (unread + 1) queue = some (pendingPayloads queue.vaQueue entries first unread,
          queue.readUpTo header header.writeIndex) := by
  intro always
  have pending : Unread (exampleUnread 5 5 6) ⟨5, 6, 0⟩ 4 0 1 :=
    ⟨⟨by decide, by decide, by decide, rfl⟩, rfl, by decide, by decide, by decide⟩
  exact absurd (always _ _ _ _ _ pending (by decide)).1 (by decide)

end Draining

end KernelModules.HwFence

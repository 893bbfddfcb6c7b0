import KernelModules.HwFence.Channel

namespace KernelModules.HwFence

open Data MsmHwFenceQueuePayload List Channel

/-- What an entry of the log says about a ring of `entries` payloads. -/
def Event.Sound (entries : Nat) : Event → Prop
  | .addressed idx => 16 ∣ idx.toNat ∧ idx.toNat < 16 * entries
  | .accepted seen _ => seen + 1 < entries
  | .refused seen => seen + 1 = entries
  | .returned _ => True
  | .nothingToRead seen => seen = 0

def place (origin entries count : Nat) : Nat := (origin + count) % entries

def Channel.payloadAt (channel : Channel) (place : Nat) : MsmHwFenceQueuePayload :=
  .ofBytes channel.queue.vaQueue (4 * (placeIdx place).toNat)

/-- A write that looked at the read index saw it as it was `seen` messages ago, and one that
stores does so in the free place behind the pending ones. -/
def Channel.WriterSound (origin entries : Nat) (channel : Channel) : Prop :=
  match channel.writer with
  | .idle => True
  | .entered _ => True
  | .sampled _ readIndex seen =>
    seen ≤ channel.accepted.length ∧ channel.accepted.length ≤ channel.returned.length + seen ∧ seen < entries ∧
      readIndex = headerIdx channel.queue (place origin entries (channel.accepted.length - seen))
  | .storing call seen writeIdx rest =>
    channel.accepted.length ≤ channel.returned.length + seen ∧ seen + 1 < entries ∧
      writeIdx = placeIdx (place origin entries channel.accepted.length) ∧
      (∀ store ∈ rest, store.offset + store.count ≤ payloadSize) ∧ (ofBytes
        (channel.queue.vaQueue.storeAll (4 * writeIdx.toNat) rest)
        (4 * writeIdx.toNat)).toQueueMessage = call.message

def Channel.ReaderSound (origin entries : Nat) (channel : Channel) : Prop :=
  match channel.reader with
  | .idle => True
  | .entered => True
  | .sampled readIndex => readIndex = channel.header.readIndex
  | .copying readIdx copied =>
    channel.returned.length < channel.accepted.length ∧
      readIdx = placeIdx (place origin entries channel.returned.length) ∧ copied.length ≤ payloadSize ∧
      ∀ byte, byte < copied.length → copied.getD byte 0 = channel.queue.vaQueue (4 * readIdx.toNat + byte)

structure Channel.Sound (origin entries : Nat) (channel : Channel) : Prop where
  ring : RingQueue channel.queue entries
  behind : channel.returned.length ≤ channel.accepted.length
  room : channel.accepted.length < channel.returned.length + entries
  readIndex : channel.header.readIndex = headerIdx channel.queue (place origin entries channel.returned.length)
  writeIndex : channel.header.writeIndex = headerIdx channel.queue (place origin entries channel.accepted.length)
  inOrder : channel.returned.map toQueueMessage = channel.accepted.take channel.returned.length
  stored : ∀ count message, channel.returned.length ≤ count → channel.accepted[count]? = some message →
      (channel.payloadAt (place origin entries count)).toQueueMessage = message
  writing : channel.WriterSound origin entries
  reading : channel.ReaderSound origin entries
  events : ∀ event ∈ channel.log, event.Sound entries

section Steps

variable {origin entries : Nat} {channel after : Channel}

theorem Channel.Sound.place_lt (sound : channel.Sound origin entries) (count : Nat) :
    place origin entries count < entries :=
  Nat.mod_lt _ sound.ring.positive

theorem log_silent (log : List Event) (noMessage : event.acceptedMessage = none)
    (noPayload : event.returnedPayload = none) :
    (log ++ [event]).filterMap Event.acceptedMessage = log.filterMap Event.acceptedMessage ∧
      (log ++ [event]).filterMap Event.returnedPayload = log.filterMap Event.returnedPayload := by
  simp [noMessage, noPayload]

theorem events_append {log : List Event} (events : ∀ found ∈ log, found.Sound entries)
    (latest : event.Sound entries) : ∀ found ∈ log ++ [event], found.Sound entries := by
  intro found mem
  rcases mem_append.mp mem with old | new
  · exact events found old
  · rw [mem_singleton.mp new]
    exact latest

theorem Channel.Sound.addressed (sound : channel.Sound origin entries) (count : Nat) :
    (Event.addressed (placeIdx (place origin entries count))).Sound entries := by
  have inside := sound.place_lt count
  dsimp only [Event.Sound]
  rw [sound.ring.placeIdx_toNat inside]
  exact ⟨Nat.dvd_mul_right 16 _, by omega⟩

theorem Channel.Sound.apart (sound : channel.Sound origin entries) (above : low < high)
    (close : high < low + entries) : 4 * (placeIdx (place origin entries low)).toNat + payloadSize ≤
        4 * (placeIdx (place origin entries high)).toNat ∨
      4 * (placeIdx (place origin entries high)).toNat + payloadSize ≤
        4 * (placeIdx (place origin entries low)).toNat := by
  have different : place origin entries low ≠ place origin entries high :=
    ring_place_ne (by omega) (by omega)
  rw [sound.ring.placeIdx_toNat (sound.place_lt low), sound.ring.placeIdx_toNat (sound.place_lt high)]
  unfold payloadSize
  omega

theorem Channel.Sound.phase (writer : Writer) (reader : Reader) (sound : channel.Sound origin entries)
    (writing : { channel with writer := writer }.WriterSound origin entries)
    (reading : { channel with reader := reader }.ReaderSound origin entries) :
    { channel with writer := writer, reader := reader }.Sound origin entries :=
  { sound with writing, reading }

section

variable (sound : channel.Sound origin entries)
include sound

theorem Channel.Sound.note {event : Event} (noMessage : event.acceptedMessage = none)
    (noPayload : event.returnedPayload = none) (latest : event.Sound entries) :
    { channel with log := channel.log ++ [event] }.Sound origin entries := by
  obtain ⟨sameAccepted, sameReturned⟩ := log_silent channel.log noMessage noPayload
  have ok : { channel with log := channel.log ++ [event] }.accepted = channel.accepted :=
    sameAccepted
  have ret : { channel with log := channel.log ++ [event] }.returned = channel.returned :=
    sameReturned
  exact {
    ring := sound.ring
    behind := by rw [ok, ret]; exact sound.behind
    room := by rw [ok, ret]; exact sound.room
    readIndex := by rw [ret]; exact sound.readIndex
    writeIndex := by rw [ok]; exact sound.writeIndex
    inOrder := by rw [ok, ret]; exact sound.inOrder
    stored := by rw [ok, ret]; exact sound.stored
    writing := by
      have writing := sound.writing
      unfold Channel.WriterSound at writing ⊢
      rw [ok, ret]
      exact writing
    reading := by
      have reading := sound.reading
      unfold Channel.ReaderSound at reading ⊢
      rw [ok, ret]
      exact reading
    events := events_append sound.events latest }

theorem Channel.Sound.store {store : ByteStore}
    (writer : channel.writer = .storing call seen writeIdx (store :: rest)) : { channel with
      queue := { channel.queue with
        vaQueue := store.apply (4 * writeIdx.toNat) channel.queue.vaQueue }
      writer := .storing call seen writeIdx rest }.Sound origin entries := by
  have writing := sound.writing
  unfold Channel.WriterSound at writing
  simp only [writer] at writing
  obtain ⟨fresh, room, idx, lt, spelled⟩ := writing
  rw [forall_mem_cons] at lt
  have untouched : ∀ count, channel.returned.length ≤ count → count < channel.accepted.length →
      ∀ byte, byte < payloadSize → store.apply (4 * writeIdx.toNat) channel.queue.vaQueue
            (4 * (placeIdx (place origin entries count)).toNat + byte) =
          channel.queue.vaQueue (4 * (placeIdx (place origin entries count)).toNat + byte) := by
    intro count low high byte inside
    have apart := sound.apart high (by omega)
    rw [← idx] at apart
    apply ByteMemory.store_outside
    omega
  exact { sound with
    ring := ⟨sound.ring.positive, sound.ring.size, sound.ring.accepts, sound.ring.sharedIndex⟩
    stored := by
      intro count msg low found
      obtain ⟨high, -⟩ := List.getElem?_eq_some_iff.mp found
      rw [← sound.stored count msg low found]
      exact congrArg _ (ofBytes_congr (untouched count low high))
    writing := ⟨fresh, room, idx, lt.2, spelled⟩
    reading := by
      have reading := sound.reading
      unfold Channel.ReaderSound at reading ⊢
      cases reader : channel.reader with
      | idle => trivial
      | entered => trivial
      | sampled readIndex =>
        simp only [reader] at reading
        exact reading
      | copying readIdx copied =>
        simp only [reader] at reading
        obtain ⟨pending, readPlace, short, same⟩ := reading
        refine ⟨pending, readPlace, short, fun byte inside => (same byte inside).trans ?_⟩
        rw [readPlace]
        exact (untouched _ le_rfl pending byte (by omega)).symm }

theorem Channel.Sound.publish {call : UpdateCall} (writer : channel.writer = .storing call seen writeIdx []) :
    { channel with
      header := channel.queue.setWriteIndexWord channel.header (indexAfter channel.queue writeIdx)
      writer := .idle
      log := channel.log ++ [Event.accepted seen call.message] }.Sound origin entries := by
  have behind := sound.behind
  have writing := sound.writing
  unfold Channel.WriterSound at writing
  simp only [writer] at writing
  obtain ⟨fresh, room, idx, -, spelled⟩ := writing
  have word : channel.queue.setWriteIndexWord channel.header (indexAfter channel.queue writeIdx) =
      { channel.header with
        writeIndex := headerIdx channel.queue (place origin entries (channel.accepted.length + 1)) } := by
    unfold MsmHwFenceQueue.setWriteIndexWord
    rw [sound.ring.sharedIndex, idx]
    exact congrArg (MsmHwFenceHfiQueueHeader.mk channel.header.readIndex · channel.header.txWm)
      (sound.ring.indexAfter_place (origin + channel.accepted.length))
  rw [word]
  generalize published : Channel.mk channel.queue _ _ _ _ = next
  have ok : next.accepted = channel.accepted ++ [call.message] := by
    rw [← published]
    exact List.filterMap_append
  have ret : next.returned = channel.returned := by
    rw [← published]
    exact List.filterMap_append.trans (List.append_nil _)
  have grown : next.accepted.length = channel.accepted.length + 1 := by
    rw [ok, List.length_append, List.length_singleton]
  subst published
  exact {
    ring := sound.ring
    behind := by rw [ret]; omega
    room := by rw [ret]; omega
    readIndex := by rw [ret]; exact sound.readIndex
    writeIndex := by rw [grown]
    inOrder := by
      rw [ok, ret, List.take_append_of_le_length behind]
      exact sound.inOrder
    stored := by
      intro count msg low found
      rw [ret] at low
      rw [ok] at found
      by_cases latest : count = channel.accepted.length
      · rw [latest, List.getElem?_append_right (le_rfl), Nat.sub_self] at found
        cases found
        rw [idx] at spelled
        rw [latest]
        exact spelled
      · obtain ⟨inside, -⟩ := List.getElem?_eq_some_iff.mp found
        rw [List.length_append, List.length_singleton] at inside
        rw [List.getElem?_append_left (by omega)] at found
        exact sound.stored count msg low found
    writing := trivial
    reading := by
      have reading := sound.reading
      unfold Channel.ReaderSound at reading ⊢
      rw [grown, ret]
      cases reader : channel.reader with
      | idle => trivial
      | entered => trivial
      | sampled readIndex =>
        simp only [reader] at reading
        exact reading
      | copying readIdx copied =>
        simp only [reader] at reading
        exact ⟨Nat.lt_succ_of_lt reading.1, reading.2⟩
    events := events_append sound.events room }

theorem Channel.Sound.writeStep (taken : channel.writeStep = some after) : after.Sound origin entries := by
  have behind := sound.behind
  have room := sound.room
  have writing := sound.writing
  unfold Channel.WriterSound at writing
  cases writer : channel.writer with
  | idle =>
    simp only [Channel.writeStep, writer, reduceCtorEq] at taken
  | entered call =>
    simp only [Channel.writeStep, writer, Option.some.injEq] at taken
    subst taken
    have seen : channel.accepted.length - channel.pending = channel.returned.length := by
      unfold Channel.pending
      omega
    refine sound.phase _ _ ⟨?_, ?_, ?_, ?_⟩ sound.reading
    · exact Nat.sub_le _ _
    · change channel.accepted.length ≤ channel.returned.length + channel.pending
      omega
    · change channel.accepted.length - channel.returned.length < entries
      omega
    · change channel.header.readIndex =
        headerIdx channel.queue (place origin entries (channel.accepted.length - channel.pending))
      rw [seen]
      exact sound.readIndex
  | sampled call readIndex seen =>
    simp only [writer] at writing
    obtain ⟨old, recent, few, readPlace⟩ := writing
    have word : channel.queue.writeIndexWord channel.header =
        headerIdx channel.queue (place origin entries channel.accepted.length) := by
      unfold MsmHwFenceQueue.writeIndexWord
      rw [sound.ring.sharedIndex]
      exact sound.writeIndex
    have full : queueFreeU32 channel.queue (placeIdx (place origin entries (channel.accepted.length - seen)))
        (placeIdx (place origin entries channel.accepted.length)) ≤ payloadSizeU32 ↔
          origin + channel.accepted.length - (origin + (channel.accepted.length - seen)) + 1 =
            entries := sound.ring.noRoom_iff (by omega) (by omega)
    simp only [Channel.writeStep, writer, readPlace, word,
      sound.ring.translateIndexes (sound.place_lt _) (sound.place_lt _)] at taken
    split at taken
    · rename_i noRoom
      cases taken
      have refused := full.mp noRoom
      exact (sound.phase .idle _ trivial sound.reading).note rfl rfl (show seen + 1 = entries by omega)
    · rename_i hasRoom
      cases taken
      have ok := mt full.mpr hasRoom
      refine (sound.phase (.storing call seen
        (placeIdx (place origin entries channel.accepted.length)) call.stores) _ ?_
          sound.reading).note rfl rfl (sound.addressed _)
      exact ⟨recent, by omega, rfl, call.stores_within, call.stores_message⟩
  | storing call seen writeIdx rest =>
    cases rest with
    | cons store rest =>
      simp only [Channel.writeStep, writer, Option.some.injEq] at taken
      subst taken
      exact sound.store writer
    | nil =>
      simp only [Channel.writeStep, writer, Option.some.injEq] at taken
      subst taken
      exact sound.publish writer

theorem Channel.Sound.release {readIdx : BitVec 32} (reader : channel.reader = .copying readIdx copied)
    (whole : copied.length = payloadSize) : { channel with
      header := { channel.header with readIndex := indexAfter channel.queue readIdx }
      reader := .idle
      log := channel.log ++ [Event.returned (MsmHwFenceQueuePayload.ofBytes (fun place => copied.getD place 0) 0)]
      }.Sound origin entries := by
  have room := sound.room
  have reading := sound.reading
  unfold Channel.ReaderSound at reading
  simp only [reader] at reading
  obtain ⟨pending, idx, -, same⟩ := reading
  have payload : MsmHwFenceQueuePayload.ofBytes (fun place => copied.getD place 0) 0 =
      channel.payloadAt (place origin entries channel.returned.length) := by
    apply MsmHwFenceQueuePayload.ofBytes_congr
    intro byte inside
    rw [zero_add, same byte (by omega), idx]
  have word : indexAfter channel.queue readIdx =
      headerIdx channel.queue (place origin entries (channel.returned.length + 1)) := by
    rw [idx]
    exact sound.ring.indexAfter_place _
  rw [payload, word]
  generalize released : Channel.mk channel.queue _ _ _ _ = next
  have ok : next.accepted = channel.accepted := by
    rw [← released]
    exact filterMap_append.trans (append_nil _)
  have ret : next.returned = channel.returned ++
      [channel.payloadAt (place origin entries channel.returned.length)] := by
    rw [← released]
    exact filterMap_append
  have grown : next.returned.length = channel.returned.length + 1 := by
    rw [ret, length_append, length_singleton]
  have oldest := getElem?_eq_getElem pending
  subst released
  exact {
    ring := sound.ring
    behind := by rw [ok]; omega
    room := by rw [ok]; omega
    readIndex := by rw [grown]
    writeIndex := by rw [ok]; exact sound.writeIndex
    inOrder := by
      rw [grown, ok, ret, map_append, sound.inOrder, take_add_one, oldest]
      have msg := sound.stored _ _ le_rfl oldest
      rw [map_singleton, msg]
      rfl
    stored := by
      intro count msg low found
      rw [ok] at found
      exact sound.stored count msg (by omega) found
    writing := by
      have writing := sound.writing
      unfold Channel.WriterSound at writing ⊢
      rw [ok, grown]
      cases writer : channel.writer with
      | idle => trivial
      | entered call => trivial
      | sampled call readIndex seen =>
        simp only [writer] at writing
        obtain ⟨old, recent, few, readPlace⟩ := writing
        exact ⟨old, by omega, few, readPlace⟩
      | storing call seen writeIdx rest =>
        simp only [writer] at writing
        obtain ⟨fresh, kept⟩ := writing
        exact ⟨by omega, kept⟩
    reading := trivial
    events := events_append sound.events trivial }

theorem Channel.Sound.readStep (taken : channel.readStep = some after) : after.Sound origin entries := by
  have behind := sound.behind
  have room := sound.room
  have reading := sound.reading
  unfold Channel.ReaderSound at reading
  cases reader : channel.reader with
  | idle =>
    simp only [Channel.readStep, reader, reduceCtorEq] at taken
  | entered =>
    simp only [Channel.readStep, reader, Option.some.injEq] at taken
    subst taken
    exact sound.phase _ _ sound.writing rfl
  | sampled readIndex =>
    simp only [reader] at reading
    simp only [Channel.readStep, reader, reading, sound.readIndex, sound.writeIndex,
      sound.ring.translateIndexes (sound.place_lt _) (sound.place_lt _)] at taken
    split at taken
    · rename_i same
      cases taken
      have met := ring_place_injective (Nat.add_le_add_left behind origin) (by omega)
        (sound.ring.placeIdx_injective (sound.place_lt _) (sound.place_lt _) same)
      refine (sound.phase _ .idle sound.writing trivial).note rfl rfl ?_
      change channel.pending = 0
      unfold Channel.pending
      omega
    · rename_i apart
      cases taken
      refine (sound.phase _ (.copying
        (placeIdx (place origin entries channel.returned.length)) []) sound.writing ?_).note
          rfl rfl (sound.addressed _)
      refine ⟨?_, rfl, Nat.zero_le _, fun byte inside => absurd inside (Nat.not_lt_zero _)⟩
      apply Nat.lt_of_le_of_ne behind
      intro same
      rw [same] at apart
      exact apart rfl
  | copying readIdx copied =>
    simp only [reader] at reading
    obtain ⟨pending, readPlace, short, same⟩ := reading
    simp only [Channel.readStep, reader] at taken
    split at taken
    · rename_i unfinished
      cases taken
      refine sound.phase _ _ sound.writing ⟨pending, readPlace, ?_, ?_⟩
      · rw [length_append]
        exact unfinished
      · intro byte inside
        rw [length_append, length_singleton] at inside
        by_cases latest : byte = copied.length
        · rw [latest, getD_append_right _ _ _ _ (le_rfl), Nat.sub_self]
          rfl
        · rw [getD_append _ _ _ _ (by omega)]
          exact same byte (by omega)
    · cases taken
      exact sound.release reader (by omega)

theorem Channel.Sound.step (taken : channel.step action = some after) : after.Sound origin entries := by
  cases action with
  | beginWrite call =>
    simp only [Channel.step] at taken
    split at taken
    · cases taken
      exact sound.phase _ _ trivial sound.reading
    · cases taken
  | write => exact sound.writeStep taken
  | beginRead =>
    simp only [Channel.step] at taken
    split at taken
    · cases taken
      exact sound.phase _ _ sound.writing trivial
    · cases taken
  | read => exact sound.readStep taken

end

theorem Channel.Sound.opened {queue : MsmHwFenceQueue} (ring : RingQueue queue entries)
    (inside : start < entries) : (empty queue start txWm).Sound start entries where
  ring := ring
  behind := le_rfl
  room := by
    have pos := ring.positive
    exact Nat.lt_add_of_pos_right pos
  readIndex := congrArg (headerIdx queue) (Nat.mod_eq_of_lt inside).symm
  writeIndex := congrArg (headerIdx queue) (Nat.mod_eq_of_lt inside).symm
  inOrder := rfl
  stored := fun count msg _ found => by
    cases found
  writing := trivial
  reading := trivial
  events := fun _ mem => absurd mem not_mem_nil

end Steps

def Channel.Serves (channel : Channel) : Action → Prop
  | .write => ∃ call seen writeIdx rest, channel.writer = .storing call seen writeIdx rest
  | .read => ∃ readIdx copied, channel.reader = .copying readIdx copied
  | _ => False

theorem Channel.unchanged {channel after : Channel} (taken : channel.step action = some after)
    (idle : ¬ channel.Serves action) : after.queue = channel.queue ∧ after.header = channel.header := by
  cases action with
  | beginWrite call | beginRead =>
    simp only [step] at taken
    split at taken
    · cases taken
      exact ⟨rfl, rfl⟩
    · cases taken
  | write =>
    cases writer : channel.writer with
    | idle => simp only [step, writeStep, writer, reduceCtorEq] at taken
    | entered call =>
      rw [writeStep_entered writer] at taken
      cases taken
      exact ⟨rfl, rfl⟩
    | sampled call readIndex seen =>
      simp only [step, writeStep, writer] at taken
      split at taken
      · cases taken
        exact ⟨rfl, rfl⟩
      · cases taken
        exact ⟨rfl, rfl⟩
    | storing call seen writeIdx rest => exact absurd ⟨call, seen, writeIdx, rest, writer⟩ idle
  | read =>
    cases reader : channel.reader with
    | idle => simp only [step, readStep, reader, reduceCtorEq] at taken
    | entered =>
      rw [readStep_entered reader] at taken
      cases taken
      exact ⟨rfl, rfl⟩
    | sampled readIndex =>
      simp only [step, readStep, reader] at taken
      split at taken
      · cases taken
        exact ⟨rfl, rfl⟩
      · cases taken
        exact ⟨rfl, rfl⟩
    | copying readIdx copied => exact absurd ⟨readIdx, copied, reader⟩ idle

/-- The queue hands its messages out in order.  A write is refused when all places but one are pending and changes
nothing, as an empty read does, and every index into the ring is that of a payload.  The accesses of a call that runs
alone are what the function does. -/
structure Channel.Fifo (start entries : Nat) (channel : Channel) : Prop where
  inOrder : channel.returned.map toQueueMessage = channel.accepted.take channel.returned.length
  pendingKept : ∀ count message, channel.returned.length ≤ count → channel.accepted[count]? = some message →
      (channel.payloadAt (place start entries count)).toQueueMessage = message
  events : ∀ event ∈ channel.log, event.Sound entries
  unchanged : ∀ action after, channel.step action = some after → ¬ channel.Serves action →
    after.queue = channel.queue ∧ after.header = channel.header
  updates : ∀ clientLockTblCnt client queueType call, channel.writer = .idle →
    updateQueueParams clientLockTblCnt client queueType = some (channel.whole, channel.header) →
      channel.Updates clientLockTblCnt client call queueType
  reads : channel.reader = .idle → channel.Reads
  refuses : ∀ clientLockTblCnt client queueType call, channel.writer = .idle →
    updateQueueParams clientLockTblCnt client queueType = some (channel.whole, channel.header) →
      let outcome := hwFenceUpdateQueue clientLockTblCnt client call queueType
      (outcome.1 ≠ 0 ↔ channel.pending + 1 = entries) ∧ (outcome.1 ≠ 0 → outcome.2 = client)
  readsEmpty : channel.reader = .idle → let outcome := hwFenceReadQueueHelper channel.whole
    (outcome.2.1 = none ↔ channel.pending = 0) ∧ (outcome.2.1 = none → outcome.2.2 = channel.whole)

/-- Reads and writes of a client queue that overlap in any way, from an empty queue on. -/
theorem client_queue_fifo {queue : MsmHwFenceQueue} {entries start : Nat} {txWm : BitVec 32}
    (ring : RingQueue queue entries) (inside : start < entries) {channel : Channel}
    (reached : Reachable step (fun _ _ => True) (.empty queue start txWm) channel) :
    channel.Fifo start entries := by
  have always : ∀ {state : Channel}, Reachable step (fun _ _ => True) (.empty queue start txWm) state →
        state.Sound start entries := fun reached =>
    reached.invariant (Channel.Sound start entries) (Channel.Sound.opened ring inside)
      fun before action after sound _ taken => sound.step taken
  have sound := always reached
  exact {
    inOrder := sound.inOrder
    pendingKept := sound.stored
    events := sound.events
    unchanged := fun action after taken idle => unchanged taken idle
    updates := fun _ _ _ call idle params => hwFenceUpdateQueue_alone call idle params
    reads := hwFenceReadQueueHelper_alone
    refuses := by
      intro clientLockTblCnt client queueType call idle params
      obtain ⟨steps, after, ran, -, -, ⟨outcome, log, -⟩ | ⟨outcome, idx, log⟩⟩ :=
        hwFenceUpdateQueue_alone call idle params
      · have full := (always (.run reached ran)).events (.refused channel.pending) (by
          rw [log]
          exact mem_append_right _ mem_cons_self)
        rw [outcome]
        exact ⟨iff_of_true (show eInval ≠ 0 by decide) full, fun _ => rfl⟩
      · have free := (always (.run reached ran)).events (.accepted channel.pending call.message) (by
          rw [log]
          exact mem_append_right _ (mem_cons_of_mem _ mem_cons_self))
        rw [outcome]
        exact ⟨iff_of_false (fun failed => failed rfl) (ne_of_lt free), absurd rfl⟩
    readsEmpty := by
      intro idle
      obtain ⟨steps, after, ran, -, -, ⟨outcome, log, -⟩ | ⟨ret, payload, idx, outcome, log⟩⟩ :=
        hwFenceReadQueueHelper_alone idle
      · have drained := (always (.run reached ran)).events (.nothingToRead channel.pending) (by
          rw [log]
          exact mem_append_right _ mem_cons_self)
        rw [outcome]
        exact ⟨iff_of_true rfl drained, fun _ => rfl⟩
      have behind := (always (.run reached ran)).behind
      have accepted : after.accepted = channel.accepted := by
        unfold accepted
        rw [log, filterMap_append]
        exact append_nil _
      have returned : after.returned = channel.returned ++ [payload] := by
        unfold returned
        rw [log, filterMap_append]
        rfl
      rw [accepted, returned, length_append, length_singleton] at behind
      have waiting : channel.pending ≠ 0 := by
        unfold pending
        omega
      rw [outcome]
      exact ⟨iff_of_false (by simp) waiting, fun none => absurd none (by simp)⟩ }

def exampleQueue : MsmHwFenceQueue where
  vaQueue := fun _ => 0
  qSizeBytes := 128
  vaHeader := none
  rdWrIdxStart := 5
  rdWrIdxFactor := 16
  skipWrIdx := false

theorem client_queue_fifo_wrapped : let call : UpdateCall := ⟨1, 2, 3, 0, 0, 0, 4⟩
    ∃ channel, runActions step (fun _ _ => True) (.empty exampleQueue 1 0)
        (.beginWrite call :: .beginRead :: List.replicate 14 .write ++ List.replicate 67 .read ++
          [.beginWrite call, .write]) = some channel ∧
      channel.returned.map toQueueMessage = [call.message] := by
  intro call
  refine ran_to (fun channel => channel.returned.length = 1 ∧ channel.accepted = [call.message]) (by decide +kernel)
    fun channel ran ⟨one, accepted⟩ => ?_
  have ring : RingQueue exampleQueue 2 := ⟨by decide, by decide, by decide, rfl⟩
  have fifo := client_queue_fifo ring (by decide) (.run .start ran)
  rw [fifo.inOrder, one, accepted]
  rfl

end KernelModules.HwFence

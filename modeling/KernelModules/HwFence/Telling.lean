import KernelModules.HwFence.TableCalls

namespace KernelModules.HwFence

open List

/-! # The cleanup of a fence

When its allocator resets, the clients that still wait for a fence are told, but for the allocator
itself.  The data of a client without a place for it is whatever the loop has read last.
-/

structure Registration where
  client : WaitClient
  clientData : BitVec 64

def Registration.refused (reg : Registration) : Bool := reg.clientData != 0 && reg.client.dataId.isNone

/-- What `hw_fence_register_wait_client` does to the fence that it finds. -/
def MsmHwFence.register (fence : MsmHwFence) (reg : Registration) : MsmHwFence :=
  if reg.refused then fence else (fence.addWaitClient reg.client).storeClientData reg.client reg.clientData

open MsmHwFence hiding clientData signaled waitClientMask

/-- The loop of `_signal_all_wait_clients`, with the clients that it signals and the data that they
are given. -/
def signalClients (clients : Nat → Option WaitClient) (fence : MsmHwFence) :
    List Nat → BitVec 64 → List (Nat × BitVec 64)
  | [], _ => []
  | waitClientId :: rest, clientData =>
    if fence.waitClientMask.getLsbD waitClientId then
      match clients waitClientId with
      | none => signalClients clients fence rest clientData
      | some client =>
        let clientData := match client.dataId with
          | some dataId => fence.clientData.get dataId
          | none => clientData
        (waitClientId, clientData) :: signalClients clients fence rest clientData
    else signalClients clients fence rest clientData

def signalAllWaitClients (clients : Nat → Option WaitClient) (rxqClientsNum : Nat) (fence : MsmHwFence) :
    List (Nat × BitVec 64) :=
  signalClients clients fence (range (rxqClientsNum + 1)) 0

def MsmHwFence.clearWaitClient (fence : MsmHwFence) (clientId : BitVec 32) : MsmHwFence :=
  if fence.waitClientMask &&& clientBit clientId ≠ 0 then
    { fence with waitClientMask := fence.waitClientMask &&& ~~~clientBit clientId }
  else fence

/-- `hw_fence_utils_cleanup_fence`: what it returns, the clients that it signals, and the table. -/
def hwFenceUtilsCleanupFence (drvData : HwFenceDriverData) (clients : Nat → Option WaitClient)
    (rxqClientsNum : Nat) (clientId : BitVec 32) (slot : Nat) (withoutDestroy : Bool) :
    Int × List (Nat × BitVec 64) × HwFenceDriverData :=
  let fence := (drvData.hwFencesTbl slot).clearWaitClient clientId
  let drvData := drvData.put slot fence
  if fence.fenceAllocator = clientId then
    let signals := if fence.signaled then [] else signalAllWaitClients clients rxqClientsNum fence
    if withoutDestroy then (0, signals, drvData)
    else
      let (ret, drvData) := hwFenceDestroy drvData fence.ctxId fence.seqId
      (ret, signals, drvData)
  else (0, [], drvData)

/-- What a client has registered last, where it has a place. -/
def ownData (regs : List Registration) (client : WaitClient) : BitVec 64 :=
  if client.dataId.isNone then 0
  else regs.foldl (fun own reg => if reg.client.clientId = client.clientId ∧ reg.clientData ≠ 0 ∧ reg.refused = false
    then reg.clientData else own) 0

/-- A client that is present and waits. -/
def toTell (clients : Nat → Option WaitClient) (regs : List Registration) (id : Nat) : Option WaitClient :=
  if regs.any fun reg => !reg.refused && reg.client.clientId.toNat == id then clients id else none

/-- The last client before `id` whose data the loop reads. -/
def lastRead (tell : Nat → Option WaitClient) (id : Nat) : Option WaitClient :=
  ((range id).filterMap fun other => (tell other).filter (·.dataId.isSome)).getLast?

/-- Every client is known by its id, and no two have the same place for their data. -/
structure Clients (slots : BitVec 32 → Option (Fin 5)) (clients : Nat → Option WaitClient)
    (regs : List Registration) : Prop where
  registering : ∀ reg ∈ regs, reg.client.dataId = slots reg.client.clientId
  present : ∀ id client, clients id = some client → client.clientId.toNat = id ∧ client.dataId = slots client.clientId
  apart : ∀ one other, slots one ≠ none → slots one = slots other → one = other

section Telling

variable {slots : BitVec 32 → Option (Fin 5)} {clients : Nat → Option WaitClient} {regs : List Registration}
  {fence : MsmHwFence} {drvData : HwFenceDriverData} {id rxqClientsNum slot : Nat} {withoutDestroy : Bool}
  {clientId : BitVec 32} {ids rest : List Nat}
  {clientData : BitVec 64} {dataId : Fin 5}

theorem clientBit_getLsbD (small : id < 64) : (clientBit clientId).getLsbD id = decide (clientId.toNat = id) := by
  rw [clientBit, BitVec.natCast_eq_ofNat, BitVec.getLsbD_ofNat, Nat.one_shiftLeft, Nat.testBit_two_pow]
  simp [small]

theorem storeClientData_keeps (client : WaitClient) :
    let stored := (fence.addWaitClient client).storeClientData client clientData
    stored.waitClientMask = fence.waitClientMask ||| clientBit client.clientId ∧
      stored.fenceAllocator = fence.fenceAllocator ∧ stored.flags = fence.flags := by
  unfold storeClientData
  split
  · split <;> exact ⟨rfl, rfl, rfl⟩
  · exact ⟨rfl, rfl, rfl⟩

theorem register_mask (small : id < 64) (reg : Registration) : (fence.register reg).waitClientMask.getLsbD id =
    (fence.waitClientMask.getLsbD id || (!reg.refused && reg.client.clientId.toNat == id)) := by
  have stored := (@storeClientData_keeps fence reg.clientData reg.client).1
  cases refused : reg.refused <;> simp [register, refused, stored, clientBit_getLsbD small, Bool.beq_eq_decide_eq]

theorem registered_mask (small : id < 64) : (regs.foldl register fence).waitClientMask.getLsbD id =
    (fence.waitClientMask.getLsbD id || regs.any fun reg => !reg.refused && reg.client.clientId.toNat == id) := by
  induction regs generalizing fence with
  | nil => simp
  | cons reg rest ih => rw [foldl_cons, ih, register_mask small, any_cons, Bool.or_assoc]

theorem registered_keeps : (regs.foldl register fence).fenceAllocator = fence.fenceAllocator ∧
    (regs.foldl register fence).flags = fence.flags := by
  induction regs generalizing fence with
  | nil => exact ⟨rfl, rfl⟩
  | cons reg rest ih =>
    rw [foldl_cons]
    obtain ⟨allocator, flags⟩ := @ih (fence.register reg)
    rw [allocator, flags, register]
    split
    · exact ⟨rfl, rfl⟩
    · exact (storeClientData_keeps reg.client).2

theorem clearWaitClient_mask (small : id < 64) : (fence.clearWaitClient clientId).waitClientMask.getLsbD id =
    (fence.waitClientMask.getLsbD id && clientId.toNat != id) := by
  unfold clearWaitClient
  split
  · rw [BitVec.getLsbD_and, BitVec.getLsbD_not, clientBit_getLsbD small]
    simp [small, bne, Bool.beq_eq_decide_eq]
  · rename_i absent
    rw [not_not] at absent
    have bit : (fence.waitClientMask &&& clientBit clientId).getLsbD id = false := by
      rw [absent]
      exact BitVec.getLsbD_zero
    rw [BitVec.getLsbD_and, clientBit_getLsbD small, Bool.and_eq_false_iff] at bit
    rcases bit with bit | bit
    · simp [bit]
    · simp [of_decide_eq_false bit]

theorem clearWaitClient_keeps : (fence.clearWaitClient clientId).clientData = fence.clientData ∧
    (fence.clearWaitClient clientId).fenceAllocator = fence.fenceAllocator ∧
    (fence.clearWaitClient clientId).flags = fence.flags := by
  unfold clearWaitClient
  split <;> exact ⟨rfl, rfl, rfl⟩

theorem Clients.registered_data (known : Clients slots clients regs) (fence : MsmHwFence)
    (slot : slots clientId = some dataId) :
    (regs.foldl register fence).clientData.get dataId = regs.foldl (fun own reg =>
      if reg.client.clientId = clientId ∧ reg.clientData ≠ 0 ∧ reg.refused = false then reg.clientData else own)
        (fence.clientData.get dataId) := by
  have gets (fence : MsmHwFence) : fence.clientData.get dataId = fence.clientData[dataId] := rfl
  induction regs generalizing fence with
  | nil => rfl
  | cons reg rest ih =>
    rw [foldl_cons, foldl_cons, ih ⟨fun other mem => known.registering other (mem_cons_of_mem _ mem),
      known.present, known.apart⟩]
    have place := known.registering reg mem_cons_self
    cases refused : reg.refused with
    | true => simp [register, refused]
    | false =>
      have here : reg.client.clientId = clientId ↔ reg.client.dataId = some dataId := by
        rw [place]
        exact ⟨fun same => same ▸ slot, fun same =>
          (known.apart clientId _ (by simp [slot]) (slot.trans same.symm)).symm⟩
      cases kept : reg.client.dataId with
      | none => simp [register, refused, storeClientData, addWaitClient, here, kept]
      | some place =>
        rw [gets, gets]
        by_cases zero : reg.clientData = 0#64
        · simp [register, refused, storeClientData, addWaitClient, kept, zero]
        · by_cases same : place = dataId <;>
            simp [register, refused, storeClientData, addWaitClient, here, kept, zero, same, Fin.val_inj]

def heard (clients : Nat → Option WaitClient) (fence : MsmHwFence) (id : Nat) : Option WaitClient :=
  if fence.waitClientMask.getLsbD id then clients id else none

def lastData (clients : Nat → Option WaitClient) (fence : MsmHwFence) (ids : List Nat) (clientData : BitVec 64) :
    BitVec 64 :=
  ids.foldl (fun clientData id => match (heard clients fence id).bind WaitClient.dataId with
    | some dataId => fence.clientData.get dataId
    | none => clientData) clientData

theorem signalClients_append : signalClients clients fence (ids ++ rest) clientData =
    signalClients clients fence ids clientData ++
      signalClients clients fence rest (lastData clients fence ids clientData) := by
  induction ids generalizing clientData with
  | nil => rfl
  | cons id ids ih =>
    cases waits : fence.waitClientMask.getLsbD id with
    | false => simp [signalClients, lastData, heard, waits, ih]
    | true =>
      cases found : clients id with
      | none => simp [signalClients, lastData, heard, waits, found, ih]
      | some client => cases place : client.dataId <;> simp [signalClients, lastData, heard, waits, found, place, ih]

theorem mem_signalClients {signal : Nat × BitVec 64} (mem : signal ∈ signalClients clients fence ids clientData) :
    signal.1 ∈ ids ∧ (heard clients fence signal.1).isSome := by
  induction ids generalizing clientData with
  | nil => cases mem
  | cons id ids ih =>
    cases waits : fence.waitClientMask.getLsbD id with
    | false =>
      simp only [signalClients, waits] at mem
      exact (ih mem).imp_left (mem_cons_of_mem _)
    | true =>
      cases found : clients id with
      | none =>
        simp only [signalClients, waits, found] at mem
        exact (ih mem).imp_left (mem_cons_of_mem _)
      | some client =>
        simp only [signalClients, waits, found, if_true] at mem
        rcases mem_cons.mp mem with rfl | mem
        · simp [heard, waits, found]
        · exact (ih mem).imp_left (mem_cons_of_mem _)

theorem signal_eq {client : WaitClient} (found : heard clients fence id = some client) (few : id ≤ rxqClientsNum) :
    (signalAllWaitClients clients rxqClientsNum fence).filter (·.1 == id) =
      [(id, lastData clients fence (range (id + 1)) 0)] := by
  obtain ⟨later, rfl⟩ := Nat.exists_eq_add_of_le few
  have away (ids : List Nat) (clientData : BitVec 64) (absent : id ∉ ids) :
      (signalClients clients fence ids clientData).filter (·.1 == id) = [] := by
    refine filter_eq_nil_iff.mpr fun signal mem same => absent ?_
    rw [← beq_iff_eq.mp same]
    exact (mem_signalClients mem).1
  have waits : fence.waitClientMask.getLsbD id = true := by
    by_contra quiet
    simp [heard, quiet] at found
  rw [heard, if_pos waits] at found
  rw [signalAllWaitClients, Nat.add_right_comm, range_add, signalClients_append, filter_append, range_succ,
    signalClients_append, filter_append, away (range id) _ (by simp),
    away ((range later).map _) _ (by simp; omega)]
  cases place : client.dataId <;> simp [signalClients, lastData, heard, waits, found, place]

/-- A fence that was just taken into use. -/
structure MsmHwFence.Fresh (fence : MsmHwFence) : Prop where
  waitClientMask : fence.waitClientMask = 0
  clientData : fence.clientData = .replicate 5 0
  unsignaled : fence.signaled = false

/-- When the allocator cleans the fence up, each client that is present and waits is signaled once and
given its own data, and no other one is signaled. -/
def ToldOwn (drvData : HwFenceDriverData) (clients : Nat → Option WaitClient) (rxqClientsNum slot : Nat)
    (withoutDestroy : Bool) (fence : MsmHwFence) (regs : List Registration) : Prop :=
  let signals := (hwFenceUtilsCleanupFence (drvData.put slot (regs.foldl MsmHwFence.register fence)) clients
    rxqClientsNum fence.fenceAllocator slot withoutDestroy).2.1
  (∀ id client, toTell clients regs id = some client → signals.filter (·.1 == id) = [(id, ownData regs client)]) ∧
    ∀ signal ∈ signals, (toTell clients regs signal.1).isSome

def cleanedFence (fence : MsmHwFence) (regs : List Registration) : MsmHwFence :=
  (regs.foldl register fence).clearWaitClient fence.fenceAllocator

theorem cleanup_signals (fresh : fence.Fresh) :
    (hwFenceUtilsCleanupFence (drvData.put slot (regs.foldl register fence)) clients rxqClientsNum
      fence.fenceAllocator slot withoutDestroy).2.1 =
      signalAllWaitClients clients rxqClientsNum (cleanedFence fence regs) := by
  have here : (drvData.put slot (regs.foldl register fence)).hwFencesTbl slot = regs.foldl register fence :=
    if_pos rfl
  obtain ⟨-, allocator, flags⟩ := @clearWaitClient_keeps (regs.foldl register fence) fence.fenceAllocator
  rw [registered_keeps.1] at allocator
  have quiet : ((regs.foldl register fence).clearWaitClient fence.fenceAllocator).signaled = false := by
    rw [MsmHwFence.signaled, flags, registered_keeps.2]
    exact fresh.unsignaled
  unfold hwFenceUtilsCleanupFence
  rw [here, if_pos allocator, quiet]
  cases withoutDestroy <;> rfl

theorem heard_cleaned (fresh : fence.Fresh) (small : id < 64) : heard clients (cleanedFence fence regs) id =
    if fence.fenceAllocator.toNat = id then none else toTell clients regs id := by
  rw [heard, cleanedFence, clearWaitClient_mask small, registered_mask small, fresh.waitClientMask, toTell]
  by_cases own : fence.fenceAllocator.toNat = id <;> simp [own]

theorem heard_eq (fresh : fence.Fresh) (silent : toTell clients regs fence.fenceAllocator.toNat = none)
    (small : id < 64) : heard clients (cleanedFence fence regs) id = toTell clients regs id := by
  rw [heard_cleaned fresh small]
  split
  · rename_i own
    rw [← own, silent]
  · rfl

theorem heard_small {client : WaitClient} (found : heard clients fence id = some client) : id < 64 := by
  by_contra large
  simp [heard, BitVec.getLsbD_of_ge _ id (Nat.le_of_not_lt large)] at found

theorem lastRead_succ (tell : Nat → Option WaitClient) :
    lastRead tell (id + 1) = ((tell id).filter (·.dataId.isSome)).or (lastRead tell id) := by
  rw [lastRead, lastRead, range_succ]
  cases found : (tell id).filter (·.dataId.isSome) <;> simp [found]

theorem Clients.lastData_own (known : Clients slots clients regs) (fresh : fence.Fresh)
    (silent : toTell clients regs fence.fenceAllocator.toNat = none) (few : id ≤ 64) :
    lastData clients (cleanedFence fence regs) (range id) 0 =
      (lastRead (toTell clients regs) id).elim 0 (ownData regs) := by
  induction id with
  | zero => rfl
  | succ id ih =>
    have small : id < 64 := few
    have last (fence : MsmHwFence) : lastData clients fence (range (id + 1)) 0 =
        match (heard clients fence id).bind WaitClient.dataId with
        | some dataId => fence.clientData.get dataId
        | none => lastData clients fence (range id) 0 := by
      rw [range_succ, lastData, foldl_append]
      rfl
    rw [last, lastRead_succ, heard_eq fresh silent small]
    cases found : toTell clients regs id with
    | none => simpa [Option.filter] using ih small.le
    | some client =>
      cases place : client.dataId with
      | none => simpa [Option.filter, place] using ih small.le
      | some dataId =>
        have present : clients id = some client := by
          unfold toTell at found
          split at found
          · exact found
          · cases found
        have data := known.registered_data fence ((known.present id client present).2.symm.trans place)
        have zero : fence.clientData.get dataId = 0 := by
          rw [fresh.clientData]
          exact Vector.getElem_replicate _
        rw [zero, ← (@clearWaitClient_keeps _ fence.fenceAllocator).1] at data
        simpa [Option.filter, place, ownData, cleanedFence] using data

/-- Every client is told its own data exactly when none of them is the allocator, the loop comes to all of
them, and the last one with a place before each client without one has no data. -/
theorem told_own_iff (known : Clients slots clients regs) (fresh : fence.Fresh) :
    ToldOwn drvData clients rxqClientsNum slot withoutDestroy fence regs ↔
      ∀ id client, toTell clients regs id = some client →
        fence.fenceAllocator.toNat ≠ id ∧ (id ≤ rxqClientsNum ∧ id < 64) ∧
          (client.dataId = none → ∀ other, lastRead (toTell clients regs) id = some other → ownData regs other = 0) := by
  unfold ToldOwn
  rw [cleanup_signals fresh]
  constructor
  · intro told
    have heardOf {id client} (found : toTell clients regs id = some client) : id ≤ rxqClientsNum ∧
        ∃ listener, heard clients (cleanedFence fence regs) id = some listener := by
      have signaled : (id, ownData regs client) ∈
          signalAllWaitClients clients rxqClientsNum (cleanedFence fence regs) :=
        mem_of_mem_filter (p := (·.1 == id)) (by rw [told.1 id client found]; exact mem_cons_self)
      obtain ⟨inside, some⟩ := mem_signalClients signaled
      exact ⟨Nat.le_of_lt_succ (mem_range.mp inside), Option.isSome_iff_exists.mp some⟩
    have apart {id client} (found : toTell clients regs id = some client) : fence.fenceAllocator.toNat ≠ id := by
      intro own
      obtain ⟨-, listener, heard⟩ := heardOf found
      rw [heard_cleaned fresh (heard_small heard), if_pos own] at heard
      cases heard
    have silent : toTell clients regs fence.fenceAllocator.toNat = none :=
      Option.eq_none_iff_forall_ne_some.mpr fun client found => apart found rfl
    intro id client found
    obtain ⟨few, listener, heard⟩ := heardOf found
    have small := heard_small heard
    refine ⟨apart found, ⟨few, small⟩, fun none other read => ?_⟩
    have once := told.1 id client found
    rw [signal_eq heard few, known.lastData_own fresh silent small, lastRead_succ, found] at once
    simpa [Option.filter, none, read, ownData] using once
  · intro condition
    have silent : toTell clients regs fence.fenceAllocator.toNat = none :=
      Option.eq_none_iff_forall_ne_some.mpr fun client found => (condition _ client found).1 rfl
    refine ⟨fun id client found => ?_, fun signal mem => ?_⟩
    · obtain ⟨-, ⟨few, small⟩, quiet⟩ := condition id client found
      rw [signal_eq ((heard_eq fresh silent small).trans found) few, known.lastData_own fresh silent small,
        lastRead_succ, found]
      cases place : client.dataId with
      | some dataId => simp [Option.filter, place]
      | none =>
        have own : ownData regs client = 0 := by simp [ownData, place]
        cases read : lastRead (toTell clients regs) id with
        | none => simp [Option.filter, place, own]
        | some other => simp [Option.filter, place, own, quiet place other read]
    · obtain ⟨_, some⟩ := mem_signalClients mem
      obtain ⟨listener, heard⟩ := Option.isSome_iff_exists.mp some
      rw [heard_eq fresh silent (heard_small heard)] at heard
      rw [heard]
      rfl

end Telling

def slotFor (owner clientId : BitVec 32) : Option (Fin 5) := if clientId = owner then some 0 else none

/-- Clients 1 and 2 are present; `owner` has a place. -/
def twoClients (owner : BitVec 32) (id : Nat) : Option WaitClient :=
  if id = 1 ∨ id = 2 then some ⟨BitVec.ofNat 32 id, slotFor owner (BitVec.ofNat 32 id)⟩ else none

def twoRegistrations (owner : BitVec 32) : List Registration :=
  [1, 2].map fun clientId => ⟨⟨clientId, slotFor owner clientId⟩, if clientId = owner then 7 else 0⟩

theorem slotFor_owner {owner : BitVec 32} (place : slotFor owner clientId ≠ none) : clientId = owner := by
  by_contra other
  exact place (if_neg other)

theorem twoRegistrations_known (owner : BitVec 32) : Clients (slotFor owner) (twoClients owner)
    (twoRegistrations owner) where
  registering reg mem := by
    obtain ⟨clientId, -, rfl⟩ := mem_map.mp mem
    rfl
  present id client found := by
    unfold twoClients at found
    split at found
    · rename_i either
      cases found
      rcases either with rfl | rfl <;> exact ⟨rfl, rfl⟩
    · cases found
  apart one other some same := (slotFor_owner some).trans (slotFor_owner (same ▸ some)).symm

/-- A fence of client 3 -/
def allocatedFence : MsmHwFence := { MsmHwFence.zero with fenceAllocator := 3 }

theorem told_own_iff_two : ToldOwn ⟨4, fun _ => .zero⟩ (twoClients 2) 2 1 true allocatedFence (twoRegistrations 2) := by
  refine (told_own_iff (twoRegistrations_known 2) ⟨rfl, rfl, rfl⟩).mpr fun id client found => ?_
  have present : id = 1 ∨ id = 2 := by
    by_contra absent
    simp [toTell, twoClients, absent] at found
  rcases present with rfl | rfl
  · exact ⟨by decide, by decide, fun _ other read => by cases read⟩
  · cases found
    exact ⟨by decide, by decide, fun none => by cases none⟩

/-- The second client is given the data of the first one. -/
theorem data_of_another : ¬ ∀ slots drvData clients rxqClientsNum slot withoutDestroy fence regs,
    Clients slots clients regs → fence.Fresh →
      ToldOwn drvData clients rxqClientsNum slot withoutDestroy fence regs := by
  intro always
  have told := (always _ ⟨4, fun _ => .zero⟩ _ 2 1 true allocatedFence _ (twoRegistrations_known 1)
    ⟨rfl, rfl, rfl⟩).1 2 ⟨2, none⟩ rfl
  revert told
  decide +kernel

end KernelModules.HwFence

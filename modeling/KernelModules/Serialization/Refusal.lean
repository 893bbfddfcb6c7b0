import KernelModules.Serialization.Exclusion

namespace KernelModules.Serialization

open Data PdevQueue

namespace PdevQueue

/-- `wlan_serialization_is_active_cmd_allowed` for a scan; `elsewhere` are the active scans of the other
pdevs. -/
def isActiveScanCmdAllowed (queue : PdevQueue) (elsewhere maxActiveScans : Nat) : Bool :=
  elsewhere + (queue.pdevList .active).count < maxActiveScans && (queue.pdevList .pending).nodes.isEmpty

/-- `wlan_serialization_enqueue_cmd` for a scan, on the pdev's queue for scans: its commands are in no queue
of a vdev. -/
def enqueueScanCmd (queue : PdevQueue) (cmd : WlanSerializationCommand) (elsewhere maxActiveScans : Nat) :
    PdevQueue × SerStatus × Option Nat :=
  let activeQueue := queue.isActiveScanCmdAllowed elsewhere maxActiveScans
  if (queue.findCmd (.pdev (.of activeQueue)) cmd).isSome then (queue, .deniedUnspecified, none)
  else match (queue.pdevList .cmdPool).nodes with
    | [] => (queue, .deniedListFull, none)
    | node :: _ =>
      match ((queue.removeNode (.pdev .cmdPool) node).setCmd node cmd).addCmdToQueue
          (.pdev (.of activeQueue)) node activeQueue with
      | (queue, .active) =>
        (queue.setInUse node fun bits => { bits with markedForActivation := true }, .active, some node)
      | (queue, .pending) => (queue, .pending, none)
      | (queue, status) => (queue.releaseCmd node, status, none)

structure SameQueues (queue after : PdevQueue) : Prop where
  pdevList : ∀ isActive, after.pdevList (.of isActive) = queue.pdevList (.of isActive)
  vdevList : after.vdevList = queue.vdevList
  pool : (after.pdevList .cmdPool).nodes.Perm (queue.pdevList .cmdPool).nodes
  poolCount : (after.pdevList .cmdPool).count = (queue.pdevList .cmdPool).count
  bitmap : after.vdevActiveCmdBitmap = queue.vdevActiveCmdBitmap
  flag : after.blockingCmdActive = queue.blockingCmdActive
  waiting : after.blockingCmdWaiting = queue.blockingCmdWaiting
  disable : after.queueDisable = queue.queueDisable

structure PdevKept (queue : PdevQueue) : Prop where
  nodup : ∀ list, (queue.pdevList list).nodes.Nodup
  apart : ∀ {list other node}, node ∈ (queue.pdevList list).nodes →
    node ∈ (queue.pdevList other).nodes → list = other
  count : ∀ list, (queue.pdevList list).count = (queue.pdevList list).nodes.length

structure WellKept (pdev : SerPdev) (queue : PdevQueue) : Prop where
  linked : Linked pdev queue none
  clean : ∀ node ∈ (queue.pdevList .cmdPool).nodes, (queue.nodes node).cmdInUse = .zero

def activeQueueFor (queue : PdevQueue) (cmd : WlanSerializationCommand) (vdev : Nat) : Bool :=
  (queue.isActiveCmdAllowed cmd vdev).2

def presentFor (queue : PdevQueue) (cmd : WlanSerializationCommand) (vdev : Nat) : Bool :=
  (queue.findCmd (.vdev (queue.activeQueueFor cmd vdev) vdev) cmd).isSome

def RoomFor (queue : PdevQueue) (cmd : WlanSerializationCommand) (vdev : Nat) : Prop :=
  (queue.vdevList (queue.activeQueueFor cmd vdev) vdev).count ≠
      (queue.vdevList (queue.activeQueueFor cmd vdev) vdev).maxSize ∧
    (queue.pdevList (.of (queue.activeQueueFor cmd vdev))).count ≠
      (queue.pdevList (.of (queue.activeQueueFor cmd vdev))).maxSize

def countedFor (queue : PdevQueue) (cmd : WlanSerializationCommand) : Bool :=
  cmd.isBlocking && queue.anyVdevCmdActive

end PdevQueue

variable {pdev : SerPdev} {queue scan : PdevQueue} {cmd : WlanSerializationCommand} {node vdev : Nat}
  {isActive : Bool}

theorem isActiveCmdAllowed_counted : (queue.isActiveCmdAllowed cmd vdev).1 =
    { queue with blockingCmdWaiting :=
        if queue.countedFor cmd then (queue.blockingCmdWaiting + 1) % 65536
        else queue.blockingCmdWaiting } := by
  unfold isActiveCmdAllowed isActiveNonScanCmdAllowed countedFor
  cases cmd.isBlocking with
  | true => cases queue.anyVdevCmdActive <;> rfl
  | false =>
    by_cases stopped : queue.blockingCmdActive = true ∨ queue.blockingCmdWaiting % 256 ≠ 0
    · simp [stopped]
    · simp [stopped]

theorem PdevQueue.WellKept.pdevKept (kept : queue.WellKept pdev) : queue.PdevKept :=
  ⟨kept.linked.placed.nodup, kept.linked.placed.apart, kept.linked.count⟩

theorem PdevQueue.PdevKept.release (kept : queue.PdevKept)
    (mem : node ∈ (queue.pdevList .cmdPool).nodes) {disable : Finset Nat} :
    { queue with queueDisable := disable }.SameQueues
      ({ queue.taken node cmd with queueDisable := disable }.releaseCmd node) := by
  have count := kept.count .cmdPool
  have few := List.length_pos_of_mem mem
  have lists := @Linked.pdevList_releaseCmd { queue.taken node cmd with queueDisable := disable } node
  refine ⟨fun isActive => ?_, rfl, ?_, ?_, rfl, rfl, rfl, rfl⟩
  · rw [lists, Function.update_of_ne PdevList.of_ne_pool]
    exact @taken_pdevList queue node cmd isActive fun inside => PdevList.of_ne_pool (kept.apart inside mem)
  · exact (List.perm_append_singleton _ _).trans (List.perm_cons_erase mem).symm
  · change (queue.pdevList .cmdPool).count - 1 + 1 = (queue.pdevList .cmdPool).count
    omega

namespace PdevQueue

theorem SameQueues.refl : queue.SameQueues queue :=
  ⟨fun _ => rfl, rfl, .refl _, rfl, rfl, rfl, rfl, rfl⟩

def counted (queue : PdevQueue) (cmd : WlanSerializationCommand) : PdevQueue :=
  { queue with blockingCmdWaiting :=
      if queue.countedFor cmd then (queue.blockingCmdWaiting + 1) % 65536 else queue.blockingCmdWaiting }

theorem WellKept.counted (kept : queue.WellKept pdev) : (queue.counted cmd).WellKept pdev :=
  ⟨kept.linked.same (fun _ _ _ => rfl) rfl rfl, kept.clean⟩

theorem isActiveCmdAllowed_eq_counted :
    queue.isActiveCmdAllowed cmd vdev = (queue.counted cmd, queue.activeQueueFor cmd vdev) :=
  Prod.ext isActiveCmdAllowed_counted rfl

theorem WellKept.enqueueCmd_cases (kept : queue.WellKept pdev) :
    vdev ∈ queue.queueDisable ∧ queue.enqueueCmd cmd vdev = (queue, .queueDisabled, none) ∨
    vdev ∉ queue.queueDisable ∧ (queue.presentFor cmd vdev = true ∧
          queue.enqueueCmd cmd vdev = (queue.counted cmd, .deniedUnspecified, none) ∨
        queue.presentFor cmd vdev = false ∧ (queue.pdevList .cmdPool).nodes = [] ∧
          queue.enqueueCmd cmd vdev = (queue.counted cmd, .deniedListFull, none) ∨
        queue.presentFor cmd vdev = false ∧ (queue.pdevList .cmdPool).nodes ≠ [] ∧
          ¬queue.RoomFor cmd vdev ∧ (queue.enqueueCmd cmd vdev).2.1 = .deniedListFull ∧
          { queue.counted cmd with queueDisable := queue.refusedDisable cmd vdev }.SameQueues
            (queue.enqueueCmd cmd vdev).1 ∨
        queue.presentFor cmd vdev = false ∧ (queue.pdevList .cmdPool).nodes ≠ [] ∧ queue.RoomFor cmd vdev ∧
          ((queue.enqueueCmd cmd vdev).2.1 = .active ∨ (queue.enqueueCmd cmd vdev).2.1 = .pending)) := by
  rw [enqueueCmd_eq]
  by_cases disabled : vdev ∈ queue.queueDisable
  · exact .inl ⟨disabled, if_pos disabled⟩
  refine .inr ⟨disabled, ?_⟩
  rw [if_neg disabled, isActiveCmdAllowed_eq_counted]
  have cases := @Linked.admission _ _ vdev cmd (@WellKept.counted _ _ cmd kept).linked kept.clean
    (queue.activeQueueFor cmd vdev)
  unfold presentFor RoomFor
  generalize queue.activeQueueFor cmd vdev = activeQueue at cases ⊢
  generalize (queue.counted cmd).admitCmd cmd vdev activeQueue = result at cases ⊢
  cases cases with
  | present here => exact .inl ⟨here, rfl⟩
  | empty absent dry => exact .inr (.inl ⟨congrArg Option.isSome absent, dry, rfl⟩)
  | full absent mem full =>
    exact .inr (.inr (.inl ⟨congrArg Option.isSome absent, List.ne_nil_of_mem mem, full, rfl,
      kept.counted.pdevKept.release mem⟩))
  | pending absent mem room =>
    exact .inr (.inr (.inr ⟨congrArg Option.isSome absent, List.ne_nil_of_mem mem, room, .inr rfl⟩))
  | active absent mem room =>
    exact .inr (.inr (.inr ⟨congrArg Option.isSome absent, List.ne_nil_of_mem mem, room, .inl rfl⟩))

theorem PdevKept.enqueueScanCmd (kept : queue.PdevKept)
    (active : (queue.enqueueScanCmd cmd elsewhere maxActiveScans).2.1 ≠ .active)
    (pending : (queue.enqueueScanCmd cmd elsewhere maxActiveScans).2.1 ≠ .pending) :
    queue.SameQueues (queue.enqueueScanCmd cmd elsewhere maxActiveScans).1 := by
  unfold PdevQueue.enqueueScanCmd at active pending ⊢
  dsimp only at active pending ⊢
  split
  · exact .refl
  rename_i absent
  rw [if_neg absent] at active pending
  cases pool : (queue.pdevList .cmdPool).nodes with
  | nil => exact .refl
  | cons node later =>
    rw [pool] at active pending
    dsimp only at active pending ⊢
    have mem : node ∈ (queue.pdevList .cmdPool).nodes := by
      rw [pool]
      exact List.mem_cons_self ..
    generalize queue.isActiveScanCmdAllowed elsewhere maxActiveScans = activeQueue at active pending ⊢
    generalize taken : (queue.removeNode (.pdev .cmdPool) node).setCmd node cmd = took at active pending ⊢
    by_cases full : (took.list (.pdev (.of activeQueue))).count = (took.list (.pdev (.of activeQueue))).maxSize
    · rw [addCmdToQueue_full full, ← taken]
      exact @PdevKept.release queue cmd node kept mem queue.queueDisable
    · rw [addCmdToQueue_room full] at active pending
      cases activeQueue
      · exact absurd rfl pending
      · exact absurd rfl active

/-- The request is refused for nothing that it changes on the way, or it is not refused. -/
def Undisturbed (queue : PdevQueue) (cmd : WlanSerializationCommand) (vdev : Nat) : Prop :=
  vdev ∈ queue.queueDisable ∨
    (queue.presentFor cmd vdev = false ∧ (queue.pdevList .cmdPool).nodes ≠ [] ∧ queue.RoomFor cmd vdev) ∨
    (queue.countedFor cmd = false ∧
      (queue.presentFor cmd vdev = true ∨ (queue.pdevList .cmdPool).nodes = [] ∨ cmd.queueDisable = false))

theorem countedFor_waiting (counted : queue.countedFor cmd = true) :
    (queue.counted cmd).blockingCmdWaiting ≠ queue.blockingCmdWaiting := by
  unfold PdevQueue.counted
  dsimp only
  rw [if_pos counted]
  omega

theorem counted_same (uncounted : queue.countedFor cmd = false) : queue.counted cmd = queue := by
  unfold counted
  rw [if_neg (by rw [uncounted]; decide)]

theorem sameQueues_counted : queue.SameQueues (queue.counted cmd) ↔ queue.countedFor cmd = false := by
  constructor
  · intro same
    by_contra counted
    exact countedFor_waiting (Bool.eq_true_of_not_eq_false counted) same.waiting
  · intro uncounted
    rw [counted_same uncounted]
    exact .refl

theorem sameQueues_refused (enabled : vdev ∉ queue.queueDisable)
    (same : { queue.counted cmd with queueDisable := queue.refusedDisable cmd vdev }.SameQueues after) :
    queue.SameQueues after ↔ queue.countedFor cmd = false ∧ cmd.queueDisable = false := by
  constructor
  · intro unchanged
    constructor
    · by_contra counted
      apply countedFor_waiting (Bool.eq_true_of_not_eq_false counted)
      exact same.waiting.symm.trans unchanged.waiting
    · by_contra disables
      have inserted : queue.refusedDisable cmd vdev = queue.queueDisable :=
        same.disable.symm.trans unchanged.disable
      unfold refusedDisable at inserted
      rw [if_pos (Bool.eq_true_of_not_eq_false disables)] at inserted
      exact enabled (inserted ▸ Finset.mem_insert_self vdev queue.queueDisable)
  · rintro ⟨uncounted, disables⟩
    have disable : queue.refusedDisable cmd vdev = queue.queueDisable :=
      if_neg (by rw [disables]; decide)
    rw [counted_same uncounted, disable] at same
    exact same

end PdevQueue

/-- A refused request leaves all queues as they were exactly if it is undisturbed; one for a scan always does. -/
theorem refused_unchanged_iff (kept : queue.WellKept pdev) (scanKept : scan.PdevKept)
    (cmd : WlanSerializationCommand) (vdev elsewhere maxActiveScans : Nat) :
    (((queue.enqueueCmd cmd vdev).2.1 ≠ .active → (queue.enqueueCmd cmd vdev).2.1 ≠ .pending →
        queue.SameQueues (queue.enqueueCmd cmd vdev).1) ↔ queue.Undisturbed cmd vdev) ∧
    ((scan.enqueueScanCmd cmd elsewhere maxActiveScans).2.1 ≠ .active →
      (scan.enqueueScanCmd cmd elsewhere maxActiveScans).2.1 ≠ .pending →
      scan.SameQueues (scan.enqueueScanCmd cmd elsewhere maxActiveScans).1) := by
  refine ⟨?_, scanKept.enqueueScanCmd⟩
  rcases @PdevQueue.WellKept.enqueueCmd_cases pdev queue cmd vdev kept with
    ⟨disabled, run⟩ | ⟨enabled, ⟨present, run⟩ | ⟨absent, empty, run⟩ |
      ⟨absent, some, full, refused, same⟩ | ⟨absent, some, room, accepted⟩⟩
  · rw [run]
    exact ⟨fun _ => .inl disabled, fun _ _ _ => .refl⟩
  · have same := @sameQueues_counted queue cmd
    rw [run, same]
    constructor
    · exact fun unchanged => .inr (.inr ⟨unchanged nofun nofun, .inl present⟩)
    · rintro (disabled | ⟨other, -⟩ | ⟨uncounted, -⟩) _ _
      · exact absurd disabled enabled
      · rw [present] at other
        cases other
      · exact uncounted
  · have same := @sameQueues_counted queue cmd
    rw [run, same]
    constructor
    · exact fun unchanged => .inr (.inr ⟨unchanged nofun nofun, .inr (.inl empty)⟩)
    · rintro (disabled | ⟨-, some, -⟩ | ⟨uncounted, -⟩) _ _
      · exact absurd disabled enabled
      · exact absurd empty some
      · exact uncounted
  · rw [sameQueues_refused enabled same, refused]
    constructor
    · intro unchanged
      obtain ⟨uncounted, disables⟩ := unchanged nofun nofun
      exact .inr (.inr ⟨uncounted, .inr (.inr disables)⟩)
    · rintro (disabled | ⟨-, -, room⟩ | ⟨uncounted, present | empty | disables⟩) _ _
      · exact absurd disabled enabled
      · exact absurd room full
      · rw [absent] at present
        cases present
      · exact absurd empty some
      · exact ⟨uncounted, disables⟩
  · constructor
    · exact fun _ => .inr (.inl ⟨absent, some, room⟩)
    · rintro - active pending
      rcases accepted with accepted | accepted
      · exact absurd accepted active
      · exact absurd accepted pending

theorem Represents.wellKept (represents : Represents pdev queue cancelling activating) : queue.WellKept pdev :=
  ⟨represents.linked, represents.tracked.clean⟩

theorem refused_unchanged_again :
    ∃ system, Reachable (serStep threeVdevs) (Sections Frame.KeepsLists) (.init threeVdevs 1) system ∧
      (system.queue.enqueueCmd (vdevCmd 1 5 false false) 1).2.1 = .deniedUnspecified ∧
      system.queue.SameQueues (system.queue.enqueueCmd (vdevCmd 1 5 false false) 1).1 := by
  refine reaches twoOfEach (fun system =>
    (system.queue.enqueueCmd (vdevCmd 1 5 false false) 1).2.1 = .deniedUnspecified ∧
      system.queue.presentFor (vdevCmd 1 5 false false) 1 = true) (by decide +kernel) ?_
  intro system reached ⟨refused, present⟩
  have kept := (reached_sound reached).represents.wellKept
  refine ⟨refused, (refused_unchanged_iff kept kept.pdevKept _ _ 0 0).1.mpr
    (.inr (.inr ⟨rfl, .inl present⟩)) ?_ ?_⟩
  · rw [refused]
    decide
  · rw [refused]
    decide

/-- A blocking command of vdev 1 waits for one of vdev 0; its second request is refused, and counted. -/
theorem refused_counted : ∃ system, Reachable (serStep threeVdevs) (fun _ _ => True) (.init threeVdevs 1) system ∧
      (system.queue.enqueueCmd (vdevCmd 1 2 true false) 1).2.1 = .deniedUnspecified ∧
      system.queue.blockingCmdWaiting = 1 ∧
      (system.queue.enqueueCmd (vdevCmd 1 2 true false) 1).1.blockingCmdWaiting = 2 :=
  reaches ((SerOp.request (vdevCmd 0 1 false false) 0).runBy 0 3 ++
    (SerOp.request (vdevCmd 1 2 true false) 1).runBy 0 1) _ (by decide +kernel) fun _ _ counted => counted

end KernelModules.Serialization

import KernelModules.Serialization.Threads

namespace KernelModules.Serialization

open Data Function PdevQueue Linked Represents

/-! # The queues without the blocking commands

Lists and bitmap do not depend on which commands are blocking, so what they say holds where `blocking_cmd_active` is
wrong: of the queue in which no command counts as blocking.
-/

def WlanSerializationCommand.unblocked (cmd : WlanSerializationCommand) : WlanSerializationCommand :=
  { cmd with isBlocking := false }

def PdevQueue.unblocked (queue : PdevQueue) : PdevQueue :=
  { queue with
    nodes := fun node => { queue.nodes node with cmd := (queue.nodes node).cmd.unblocked }
    blockingCmdActive := false }

variable {pdev : SerPdev} {queue after : PdevQueue} {isActive isBlocking timerFound : Bool}
  {node vdev qsize : Nat} {cmd : WlanSerializationCommand} {cancelling : List (Nat × Bool)}
  {activating : List Nat} {change : CmdInUse → CmdInUse} {req : CancelRequest}
  {pnode nnode : Option Nat}

namespace PdevQueue

theorem unblocked_setCmd : (queue.setCmd node cmd).unblocked = queue.unblocked.setCmd node cmd.unblocked := by
  unfold unblocked setCmd
  dsimp only
  congr 1
  funext one
  by_cases same : one = node
  · rw [same, update_self, update_self]
  · rw [update_of_ne same, update_of_ne same]

theorem unblocked_setInUse : (queue.setInUse node change).unblocked = queue.unblocked.setInUse node change := by
  unfold unblocked setInUse
  dsimp only
  congr 1
  funext one
  by_cases same : one = node
  · rw [same, update_self, update_self]
  · rw [update_of_ne same, update_of_ne same]

theorem unblocked_removeNode : (queue.removeNode which node).unblocked = queue.unblocked.removeNode which node := by
  cases which <;> rfl

theorem unblocked_insertBack : (queue.insertBack which node).unblocked = queue.unblocked.insertBack which node := by
  cases which <;> rfl

theorem unblocked_put : (queue.put which node).unblocked = queue.unblocked.put which node := by
  unfold put
  change _ = if (queue.nodes node).cmd.isHighPriority = true then _ else _
  split
  · cases which <;> rfl
  · cases which <;> rfl

theorem unblocked_linkCmd :
    (queue.linkCmd isActive vdev node).unblocked = queue.unblocked.linkCmd isActive vdev node := by
  unfold linkCmd
  rw [unblocked_put, unblocked_put]

theorem unblocked_unlinkCmd :
    (queue.unlinkCmd isActive vdev node).unblocked = queue.unblocked.unlinkCmd isActive vdev node := rfl

theorem unblocked_addedCmd :
    (queue.addedCmd isActive vdev node).unblocked = queue.unblocked.addedCmd isActive vdev node := by
  unfold addedCmd
  cases isActive with
  | false => exact unblocked_linkCmd
  | true =>
    rw [← unblocked_linkCmd]
    rfl

theorem unblocked_releaseCmd : (queue.releaseCmd node).unblocked = queue.unblocked.releaseCmd node := by
  unfold releaseCmd
  rw [unblocked_insertBack, unblocked_setInUse, unblocked_setCmd]
  rfl

def waitingCmds (queue : PdevQueue) : Nat :=
  (queue.pdevList .pending).nodes.countP fun node => (queue.nodes node).cmd.isBlocking

def weight (queue : PdevQueue) (node : Nat) : Nat :=
  (queue.nodes node).cmd.isBlocking.toNat

end PdevQueue

theorem waitingCmds_congr (pending : (after.pdevList .pending).nodes = (queue.pdevList .pending).nodes)
    (cmds : ∀ node ∈ (queue.pdevList .pending).nodes, (after.nodes node).cmd = (queue.nodes node).cmd) :
    after.waitingCmds = queue.waitingCmds := by
  unfold waitingCmds
  rw [pending]
  apply List.countP_congr
  intro node mem
  rw [cmds node mem]

theorem waitingCmds_setInUse : (queue.setInUse node change).waitingCmds = queue.waitingCmds :=
  waitingCmds_congr rfl fun _ _ => cmd_setInUse

theorem waitingCmds_unlinkPending (mem : node ∈ (queue.pdevList .pending).nodes) :
    (queue.unlinkCmd false vdev node).waitingCmds + queue.weight node = queue.waitingCmds := by
  have split := (List.perm_cons_erase mem).countP_eq fun node => (queue.nodes node).cmd.isBlocking
  rw [List.countP_cons] at split
  unfold waitingCmds weight
  rw [split]
  cases (queue.nodes node).cmd.isBlocking <;> rfl

theorem Linked.waitingCmds_unlinkActive (linked : Linked pdev queue none)
    (mem : node ∈ (queue.pdevList .active).nodes) : (queue.unlinkCmd true vdev node).waitingCmds = queue.waitingCmds :=
  waitingCmds_congr (linked.placed.erase_elsewhere mem (by decide)) fun _ _ => rfl

theorem waitingCmds_linkPending :
    (queue.linkCmd false vdev node).waitingCmds = queue.waitingCmds + queue.weight node := by
  have split := (@ends_perm queue node (queue.pdevList .pending).nodes).countP_eq fun node =>
    (queue.nodes node).cmd.isBlocking
  rw [List.countP_cons] at split
  have pending : ((queue.linkCmd false vdev node).pdevList .pending).nodes =
      ends queue node (queue.pdevList .pending).nodes := by
    rw [linkCmd_eq]
    dsimp only [PdevList.of]
    rw [if_neg (by decide), update_self]
  have nodes : (queue.linkCmd false vdev node).nodes = queue.nodes := by rw [linkCmd_eq]
  unfold waitingCmds weight
  rw [pending, nodes, split]
  cases (queue.nodes node).cmd.isBlocking <;> rfl

theorem waitingCmds_linkActive : (queue.linkCmd true vdev node).waitingCmds = queue.waitingCmds := by
  rw [linkCmd_eq]
  apply waitingCmds_congr
  · dsimp only [PdevList.of]
    rw [update_of_ne (by decide)]
  · exact fun _ _ => rfl

theorem waitingCmds_activated : { (queue.addedCmd true vdev node).setInUse node change with
    blockingCmdWaiting := waiting, queueDisable := disable }.waitingCmds = queue.waitingCmds :=
  (@waitingCmds_setInUse (queue.addedCmd true vdev node) node change).trans waitingCmds_linkActive

theorem Linked.waitingCmds_releaseCmd (linked : Linked pdev queue (some node)) :
    (queue.releaseCmd node).waitingCmds = queue.waitingCmds := by
  apply waitingCmds_congr
  · rw [pdevList_releaseCmd, update_elsewhere (by decide)]
  · intro other mem
    have apart : other ≠ node := fun same => linked.placed.free (by rw [same]) mem
    change (update (update queue.nodes node _) node _ other).cmd = _
    rw [update_of_ne apart, update_of_ne apart]

def Occupies (pdev : SerPdev) (queue : PdevQueue) (cancelling : List (Nat × Bool))
    (activating : List Nat) : Prop :=
  Represents pdev queue.unblocked cancelling activating

def SameWaiting (queue after : PdevQueue) : Prop :=
  after.waitingCmds = queue.waitingCmds ∧ after.blockingCmdWaiting = queue.blockingCmdWaiting

namespace PdevQueue

/-- The pending lists take the command: it is not there already, and there is room and a node. -/
def Admits (queue : PdevQueue) (cmd : WlanSerializationCommand) (vdev : Nat) : Prop :=
  queue.findCmd (.vdev false vdev) cmd = none ∧ (queue.pdevList .cmdPool).nodes ≠ [] ∧
    (queue.vdevList false vdev).count ≠ (queue.vdevList false vdev).maxSize ∧
    (queue.pdevList .pending).count ≠ (queue.pdevList .pending).maxSize

instance : Decidable (queue.Admits cmd vdev) := inferInstanceAs (Decidable (_ ∧ _ ∧ _ ∧ _))

end PdevQueue

namespace Occupies

section

variable (occupies : Occupies pdev queue cancelling activating)
include occupies

theorem linked : Linked pdev queue none :=
  Represents.linked occupies |>.same (fun _ _ _ => rfl) rfl rfl

theorem recount : Occupies pdev { queue with blockingCmdWaiting := waiting, queueDisable := disable } cancelling
      activating :=
  Represents.recount occupies

theorem setInUse (mem : node ∈ (queue.pdevList (.of isActive)).nodes)
    (mark : ∀ bits, (change bits).markedForActivation = bits.markedForActivation) :
    Occupies pdev (queue.setInUse node change) cancelling activating := by
  unfold Occupies
  rw [unblocked_setInUse]
  exact Represents.setInUse occupies mem mark

end

theorem dequeueCmd (occupies : Occupies pdev queue cancelling activating)
    (run : queue.dequeueCmd cmd true = (after, out)) :
    Occupies pdev after cancelling activating ∧ SameWaiting queue after := by
  unfold PdevQueue.dequeueCmd at run
  cases owner : cmd.vdev with
  | none =>
    rw [owner] at run
    cases run
    exact ⟨occupies, rfl, rfl⟩
  | some vdev =>
    rw [owner] at run
    dsimp only at run
    rcases @Linked.removeNonScanCmd_cases _ _ true _ _ _ occupies.linked owner with
      ⟨_, absent⟩ | ⟨node, found, ⟨marked, kept⟩ | ⟨unmarked, removed⟩⟩
    · rw [absent] at run
      cases run
      exact ⟨occupies, rfl, rfl⟩
    · rw [kept] at run
      cases run
      obtain ⟨mem, _, _⟩ := occupies.linked.findCmd_some found
      exact ⟨occupies.setInUse mem fun _ => rfl, waitingCmds_setInUse, rfl⟩
    rw [removed] at run
    cases run
    obtain ⟨mem, ownerNode, _⟩ := occupies.linked.findCmd_some found
    refine ⟨?_, ?_, rfl⟩
    · unfold Occupies
      rw [unblocked_releaseCmd]
      exact (remove occupies mem ownerNode unmarked).1
    · have held := occupies.linked.removedCmd mem ownerNode
      rw [held.waitingCmds_releaseCmd]
      exact occupies.linked.waitingCmds_unlinkActive mem

theorem takePool (occupies : Occupies pdev queue cancelling activating)
    (mem : node ∈ (queue.pdevList .cmdPool).nodes) : Holding pdev (queue.taken node cmd).unblocked cancelling
        activating node ∧ (queue.taken node cmd).waitingCmds = queue.waitingCmds ∧
      ((queue.taken node cmd).nodes node).cmd = cmd := by
  obtain ⟨-, self, others, lists⟩ := @Linked.taken pdev queue node cmd occupies.linked mem
  have pending : ((queue.taken node cmd).pdevList .pending).nodes = (queue.pdevList .pending).nodes :=
    congrArg QdfList.nodes (lists false)
  refine ⟨?_, waitingCmds_congr pending fun other inside => ?_, by rw [self]⟩
  · rw [PdevQueue.taken, unblocked_setCmd, unblocked_removeNode]
    exact (@Represents.takePool _ _ node cmd.unblocked _ _ occupies mem).1
  · rw [others .pending other (by rw [pending]; exact inside)]

theorem admitCmd (occupies : Occupies pdev queue cancelling activating) (owner : cmd.vdev = some vdev)
    (known : vdev ∈ pdev.vdevs) (free : activeQueue = true → vdev ∉ queue.vdevActiveCmdBitmap)
    (run : queue.admitCmd cmd vdev activeQueue = (after, status, activate)) :
    Occupies pdev after cancelling (activate.toList ++ activating) ∧
      after.blockingCmdWaiting = queue.blockingCmdWaiting ∧ after.waitingCmds = queue.waitingCmds +
        if activeQueue = false ∧ queue.Admits cmd vdev then cmd.isBlocking.toNat else 0 := by
  have cases := @Linked.admission _ _ vdev cmd occupies.linked (Represents.tracked occupies).clean activeQueue
  rw [run] at cases
  cases cases with
  | present here =>
    rw [if_neg fun admitted => by rw [admitted.1] at here; rw [admitted.2.1] at here; cases here]
    exact ⟨occupies, rfl, rfl⟩
  | empty _ dry =>
    rw [if_neg fun admitted => admitted.2.2.1 dry]
    exact ⟨occupies, rfl, rfl⟩
  | full _ mem full =>
    obtain ⟨holding, count, -⟩ := @takePool _ _ _ cmd _ _ occupies mem
    have held : Linked pdev { queue.taken _ cmd with queueDisable := queue.refusedDisable cmd vdev } _ :=
      holding.linked.same (fun _ _ _ => rfl) rfl rfl
    rw [if_neg fun admitted => full (by rw [admitted.1]; exact admitted.2.2.2)]
    refine ⟨?_, rfl, held.waitingCmds_releaseCmd.trans count⟩
    unfold Occupies
    rw [unblocked_releaseCmd]
    exact holding.recount.release
  | @pending node absent mem room =>
    obtain ⟨holding, count, tookCmd⟩ := @takePool _ _ _ cmd _ _ occupies mem
    have put := (holding.addPending known (congrArg (·.vdev) tookCmd |>.trans owner)).1
    rw [← unblocked_addedCmd] at put
    rw [if_pos ⟨rfl, absent, List.ne_nil_of_mem mem, room⟩, ← count]
    refine ⟨recount put, ?_, waitingCmds_linkPending.trans ?_⟩
    · change ((queue.taken node cmd).linkCmd false vdev node).blockingCmdWaiting = _
      rw [Linked.linkCmd_eq]
      rfl
    · rw [weight, tookCmd]
  | @active node absent mem room =>
    obtain ⟨holding, count, tookCmd⟩ := @takePool _ _ _ cmd _ _ occupies mem
    obtain ⟨put, _⟩ := holding.addActive known (congrArg (·.vdev) tookCmd |>.trans owner) (free rfl)
      fun set => by cases set
    rw [← unblocked_addedCmd, ← unblocked_setInUse] at put
    rw [← count]
    refine ⟨recount put, ?_, waitingCmds_activated⟩
    change ((queue.taken node cmd).linkCmd true vdev node).blockingCmdWaiting = _
    rw [Linked.linkCmd_eq]
    rfl

theorem isActiveCmdAllowed_blocking (blocking : cmd.isBlocking = true) : queue.isActiveCmdAllowed cmd vdev =
      if queue.anyVdevCmdActive then
        ({ queue with blockingCmdWaiting := (queue.blockingCmdWaiting + 1) % 65536 }, false)
      else (queue, (queue.vdevList false vdev).nodes.isEmpty) := by
  unfold isActiveCmdAllowed isActiveNonScanCmdAllowed
  rw [if_pos blocking]
  cases queue.anyVdevCmdActive <;> rfl

theorem isActiveCmdAllowed_nonblocking (free : cmd.isBlocking = false) :
    (queue.isActiveCmdAllowed cmd vdev).1 = queue := by
  unfold isActiveCmdAllowed isActiveNonScanCmdAllowed
  rw [free, if_neg (by decide)]
  by_cases stopped : queue.blockingCmdActive = true ∨ queue.blockingCmdWaiting % 256 ≠ 0
  · rw [if_pos stopped]
  · rw [if_neg stopped]

theorem enqueueCmd (occupies : Occupies pdev queue cancelling activating) (owner : cmd.vdev = some vdev)
    (known : vdev ∈ pdev.vdevs) (run : queue.enqueueCmd cmd vdev = (after, status, activate)) :
    Occupies pdev after cancelling (activate.toList ++ activating) ∧ after.blockingCmdWaiting =
        (if cmd.isBlocking = true ∧ vdev ∉ queue.queueDisable ∧ queue.anyVdevCmdActive = true then
          (queue.blockingCmdWaiting + 1) % 65536 else queue.blockingCmdWaiting) ∧
      after.waitingCmds = queue.waitingCmds +
        if cmd.isBlocking = true ∧ vdev ∉ queue.queueDisable ∧ queue.Admits cmd vdev ∧
          (queue.anyVdevCmdActive = true ∨ (queue.vdevList false vdev).nodes ≠ []) then 1 else 0 := by
  rw [enqueueCmd_eq] at run
  by_cases disabled : vdev ∈ queue.queueDisable
  · rw [if_pos disabled] at run
    cases run
    rw [if_neg fun counted => counted.2.1 disabled, if_neg fun admitted => admitted.2.1 disabled]
    exact ⟨occupies, rfl, rfl⟩
  rw [if_neg disabled] at run
  cases blocking : cmd.isBlocking with
  | false =>
    have free := @isActiveCmdAllowed_eq queue vdev cmd
    obtain ⟨_, _, free⟩ := free
    rw [isActiveCmdAllowed_nonblocking blocking] at run
    obtain ⟨kept, same, count⟩ := occupies.admitCmd owner known (fun allowed => by
      have permitted := free allowed
      rw [blocking] at permitted
      exact permitted.2) run
    rw [blocking] at count
    refine ⟨kept, same, count.trans ?_⟩
    simp
  | true =>
    rw [isActiveCmdAllowed_blocking blocking] at run
    cases any : queue.anyVdevCmdActive with
    | true =>
      rw [any, if_pos rfl] at run
      obtain ⟨kept, same, count⟩ := @admitCmd pdev _ after vdev cmd cancelling activating _ _ _
        occupies.recount owner known (fun allowed => by cases allowed) run
      rw [blocking] at count
      refine ⟨kept, same.trans ?_, count.trans ?_⟩
      · rw [if_pos ⟨rfl, disabled, rfl⟩]
      · simp only [true_and, true_or, and_true, disabled, not_false_eq_true]
        rfl
    | false =>
      rw [any] at run
      have none : queue.vdevActiveCmdBitmap = ∅ := by
        simpa [anyVdevCmdActive] using any
      obtain ⟨kept, same, count⟩ := occupies.admitCmd owner known
        (fun _ => by rw [none]; exact Finset.notMem_empty _) run
      rw [blocking] at count
      refine ⟨kept, same.trans ?_, count.trans ?_⟩
      · rw [if_neg fun counted => by cases counted.2.2]
      · simp [disabled, and_comm]

theorem remarked (occupies : Occupies pdev queue cancelling activating) (remarked : Remarked queue after) :
    Occupies pdev after cancelling activating := by
  refine Represents.remarked occupies { remarked with flag := rfl, cmds := ?_, others := ?_ }
  · intro node
    unfold unblocked
    dsimp only
    rw [remarked.cmds]
  · intro node absent
    unfold unblocked
    dsimp only
    rw [remarked.others node absent]

theorem moveSection (occupies : Occupies pdev queue cancelling activating)
    (kind : which = .pdev .pending ∨ ∃ vdev, which = .vdev false vdev)
    (run : queue.moveSection which = (after, activate)) :
    Occupies pdev after cancelling (activate.toList ++ activating) ∧ ∃ gone,
      after.waitingCmds + gone = queue.waitingCmds ∧ (gone = 0 ∧ after.blockingCmdWaiting = queue.blockingCmdWaiting ∨
          gone = 1 ∧ after.blockingCmdWaiting = (queue.blockingCmdWaiting + 65535) % 65536) := by
  have counted : ∀ {picked}, Remarked queue picked → picked.waitingCmds = queue.waitingCmds :=
    fun remarked => waitingCmds_congr (by rw [remarked.pdevList]) fun node _ => remarked.cmds node
  have holding : ∀ {picked node vdev}, Remarked queue picked → node ∈ (picked.pdevList .pending).nodes →
      (picked.nodes node).cmd.vdev = some vdev → (picked.nodes node).cmdInUse.markedForActivation = false →
      Holding pdev (picked.removedCmd false vdev node).unblocked cancelling activating node :=
    fun {picked node vdev} remarked pending owner unmarked => by
      have kept := occupies.remarked remarked
      exact ⟨@Linked.removedCmd pdev picked.unblocked false node vdev (Represents.linked kept) pending owner,
        Represents.tracked kept |>.unlinkPending (Represents.linked kept) pending, unmarked⟩
  have cases := occupies.linked.movement kind fun picked node vdev remarked pending owner unmarked known free =>
    (holding remarked pending owner unmarked).room known (remarked.bitmap ▸ free)
  rw [run] at cases
  cases cases with
  | marks remarked waits => exact ⟨occupies.remarked remarked, 0, counted remarked, .inl ⟨rfl, waits⟩⟩
  | @one picked node vdev remarked _ _ pending owner known free unmarked _ =>
    obtain ⟨put, _⟩ := (holding remarked pending owner unmarked).addActive known owner (remarked.bitmap ▸ free)
      fun set => by cases set
    rw [← unblocked_addedCmd, ← unblocked_setInUse] at put
    refine ⟨Represents.recount put, (queue.nodes node).cmd.isBlocking.toNat, ?_, ?_⟩
    · have taken := @waitingCmds_unlinkPending picked node vdev pending
      rw [counted remarked, weight, remarked.cmds] at taken
      rw [← taken]
      exact congrArg (· + _) waitingCmds_activated
    · cases (queue.nodes node).cmd.isBlocking with
      | true => exact .inr ⟨rfl, rfl⟩
      | false => exact .inl ⟨rfl, rfl⟩

def uncounted (isActive : Bool) : CancelOutcome → Nat
  | .done _ => 0
  | .callback _ _ _ _ isBlocking => if isBlocking && !isActive then 1 else 0

/-- What a walk of `queue` leaves. -/
def Walked (pdev : SerPdev) (queue : PdevQueue) (cancelling : List (Nat × Bool)) (activating : List Nat)
    (isActive : Bool) (one : CancelOutcome) : Prop :=
  Occupies pdev one.leaves ((one.opened isActive).map (fun entry => (entry.1, false)) ++ cancelling) activating ∧
    one.leaves.blockingCmdWaiting = queue.blockingCmdWaiting ∧
    one.leaves.waitingCmds + uncounted isActive one = queue.waitingCmds

theorem cancelOut (occupies : Occupies pdev queue cancelling activating)
    (mem : node ∈ (queue.pdevList (.of isActive)).nodes) (owner : (queue.nodes node).cmd.vdev = some vdev)
    (unmarked : (queue.nodes node).cmdInUse.markedForActivation = false) :
    Occupies pdev ((queue.unlinkCmd isActive vdev node).releaseCmd node)
        ((if isActive then [(vdev, (queue.nodes node).cmd.isBlocking)] else []).map
          (fun entry => (entry.1, false)) ++ cancelling) activating ∧
      ((queue.unlinkCmd isActive vdev node).releaseCmd node).blockingCmdWaiting = queue.blockingCmdWaiting ∧
      ((queue.unlinkCmd isActive vdev node).releaseCmd node).waitingCmds +
        (if (queue.nodes node).cmd.isBlocking && !isActive then 1 else 0) = queue.waitingCmds := by
  have out := (@Represents.cancelOut _ isActive _ vdev _ _ _ occupies mem owner unmarked).1
  rw [← unblocked_unlinkCmd, ← unblocked_releaseCmd] at out
  rw [(occupies.linked.unlinkCmd mem owner).waitingCmds_releaseCmd]
  cases isActive with
  | false =>
    refine ⟨out, rfl, ?_⟩
    rw [← @waitingCmds_unlinkPending queue node vdev mem]
    unfold weight
    cases (queue.nodes node).cmd.isBlocking <;> rfl
  | true =>
    refine ⟨out, rfl, ?_⟩
    rw [occupies.linked.waitingCmds_unlinkActive mem, Bool.not_true, Bool.and_false]
    rfl

theorem cancelLoop (occupies : Occupies pdev queue cancelling activating)
    (cursor : ∀ node, nnode = some node → node ∈ (queue.pdevList (.of isActive)).nodes)
    (run : cancelLoop req isActive timerFound qsize pnode nnode queue = some outcome) :
    Walked pdev queue cancelling activating isActive outcome := by
  rcases cancelLoop_cases (fun after => Occupies pdev after cancelling activating ∧
      after.blockingCmdWaiting = queue.blockingCmdWaiting ∧ after.waitingCmds = queue.waitingCmds)
    (fun _ kept => kept.1.linked)
    (fun after _ kept mem => @unmarked_pending pdev after.unblocked _ _ _ kept.1 mem)
    (fun _ _ kept mem => ⟨kept.1.setInUse mem fun _ => rfl, kept.2.1,
      waitingCmds_setInUse.trans kept.2.2⟩) ⟨occupies, rfl, rfl⟩ cursor run with
    ⟨after, kept, rfl⟩ | ⟨after, node, vdev, _, _, kept, mem, owner, unmarked, rfl⟩
  · exact kept
  · rw [Walked, ← kept.2.1, ← kept.2.2]
    exact kept.1.cancelOut mem owner unmarked

end Occupies

end KernelModules.Serialization

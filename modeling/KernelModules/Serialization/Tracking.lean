import KernelModules.Serialization.Lists

namespace KernelModules.Serialization

open Data PdevQueue List Function Linked

namespace PdevQueue

def entry (queue : PdevQueue) (node : Nat) : Nat × Bool :=
  ((queue.nodes node).cmd.vdev.getD 0, (queue.nodes node).cmd.isBlocking)

def entries (queue : PdevQueue) : List (Nat × Bool) :=
  (queue.pdevList .active).nodes.map queue.entry

end PdevQueue

/-- The bitmap and `blocking_cmd_active` stand for the active commands and those that a cancel holds between lists
and flags; marked nodes are active, and those in the pool carry no mark. -/
structure Tracked (pdev : SerPdev) (queue : PdevQueue) (cancelling : List (Nat × Bool))
    (activating : List Nat) : Prop where
  booked : Booked (queue.entries ++ cancelling) (· ∈ queue.vdevActiveCmdBitmap)
    queue.blockingCmdActive
  clean : ∀ node ∈ (queue.pdevList .cmdPool).nodes, (queue.nodes node).cmdInUse = .zero
  marked : ∀ node, (queue.nodes node).cmdInUse.markedForActivation = true → node ∈ (queue.pdevList .active).nodes
  once : activating.Nodup
  live : ∀ node ∈ activating, (queue.nodes node).cmdInUse.markedForActivation = true
  vdevMax : ∀ vdev, (queue.vdevList true vdev).maxSize = 1
  activeMax : pdev.vdevs.length ≤ (queue.pdevList .active).maxSize

variable {pdev : SerPdev} {queue after : PdevQueue} {held : Option Nat} {isActive : Bool} {node vdev : Nat}
  {cmd : WlanSerializationCommand} {cancelling : List (Nat × Bool)} {activating : List Nat}

theorem entries_congr (active : (after.pdevList .active).nodes = (queue.pdevList .active).nodes)
    (cmds : ∀ node ∈ (queue.pdevList .active).nodes,
      (after.nodes node).cmd = (queue.nodes node).cmd) : after.entries = queue.entries := by
  unfold entries
  rw [active]
  apply map_congr_left
  intro node mem
  unfold entry
  rw [cmds node mem]

theorem entry_mem (mem : node ∈ (queue.pdevList .active).nodes) : queue.entry node ∈ queue.entries :=
  mem_map_of_mem mem

theorem update_elsewhere {place : PdevList} {list : QdfList} (apart : other ≠ place) :
    update lists place list other = lists other :=
  update_of_ne apart _ _

namespace Tracked

theorem frame (tracked : Tracked pdev queue cancelling activating)
    (active : (after.pdevList .active).nodes = (queue.pdevList .active).nodes)
    (cmds : ∀ node ∈ (queue.pdevList .active).nodes, (after.nodes node).cmd = (queue.nodes node).cmd)
    (marks : ∀ node, (after.nodes node).cmdInUse.markedForActivation = (queue.nodes node).cmdInUse.markedForActivation)
    (clean : ∀ node ∈ (after.pdevList .cmdPool).nodes, (after.nodes node).cmdInUse = .zero)
    (bitmap : after.vdevActiveCmdBitmap = queue.vdevActiveCmdBitmap)
    (flag : after.blockingCmdActive = queue.blockingCmdActive)
    (vdevMax : ∀ vdev, (after.vdevList true vdev).maxSize = (queue.vdevList true vdev).maxSize)
    (activeMax : (after.pdevList .active).maxSize = (queue.pdevList .active).maxSize) :
    Tracked pdev after cancelling activating := by
  constructor
  · rw [entries_congr active cmds, bitmap, flag]
    exact tracked.booked
  · exact clean
  · intro node set
    rw [active]
    exact tracked.marked node ((marks node).symm.trans set)
  · exact tracked.once
  · exact fun node mem => (marks node).trans (tracked.live node mem)
  · exact fun vdev => (vdevMax vdev).trans (tracked.vdevMax vdev)
  · rw [activeMax]
    exact tracked.activeMax

section

variable (tracked : Tracked pdev queue cancelling activating) (linked : Linked pdev queue none)
include tracked linked

theorem takePool (mem : node ∈ (queue.pdevList .cmdPool).nodes) :
    Tracked pdev ((queue.removeNode (.pdev .cmdPool) node).setCmd node cmd) cancelling activating := by
  have active : (queue.pdevList .active).nodes.erase node = (queue.pdevList .active).nodes :=
    linked.placed.erase_elsewhere mem (by decide)
  have inUse : ∀ other, (((queue.removeNode (.pdev .cmdPool) node).setCmd node cmd).nodes
      other).cmdInUse = (queue.nodes other).cmdInUse := by
    intro other
    unfold setCmd
    dsimp only
    by_cases same : other = node
    · rw [same, update_self]
      rfl
    · rw [update_of_ne same]
      rfl
  refine tracked.frame active ?_ ?_ ?_ rfl rfl (fun _ => rfl) rfl
  · intro other inside
    have different : other ≠ node := fun same => by
      rw [same] at inside
      cases linked.placed.apart inside mem
    unfold setCmd
    dsimp only
    rw [update_of_ne different]
    rfl
  · exact fun other => by rw [inUse]
  · intro other inside
    rw [inUse]
    exact tracked.clean other (mem_of_mem_erase inside)

theorem unlinkPending (mem : node ∈ (queue.pdevList .pending).nodes) :
    Tracked pdev (queue.unlinkCmd false vdev node) cancelling activating :=
  tracked.frame (linked.placed.erase_elsewhere mem (by decide)) (fun _ _ => rfl) (fun _ => rfl)
    (fun other inside => tracked.clean other (mem_of_mem_erase inside)) rfl rfl (fun _ => rfl)
    rfl

end

theorem setInUse (tracked : Tracked pdev queue cancelling activating) (linked : Linked pdev queue held)
    (mem : node ∈ (queue.pdevList (.of isActive)).nodes)
    (mark : ∀ bits, (change bits).markedForActivation = bits.markedForActivation) :
    Tracked pdev (queue.setInUse node change) cancelling activating := by
  have others : ∀ {other}, other ≠ node →
      (queue.setInUse node change).nodes other = queue.nodes other := fun different =>
    update_of_ne different _ _
  have self : (queue.setInUse node change).nodes node =
      { queue.nodes node with cmdInUse := change (queue.nodes node).cmdInUse } :=
    update_self ..
  refine tracked.frame rfl ?_ ?_ ?_ rfl rfl (fun _ => rfl) rfl
  · intro other _
    by_cases same : other = node
    · rw [same, self]
    · rw [others same]
  · intro other
    by_cases same : other = node
    · rw [same, self]
      exact mark _
    · rw [others same]
  · intro other inside
    have different : other ≠ node := fun same => by
      rw [same] at inside
      exact PdevList.of_ne_pool (linked.placed.apart mem inside)
    rw [others different]
    exact tracked.clean other inside

theorem remark (tracked : Tracked pdev queue cancelling activating) (linked : Linked pdev queue none)
    (mem : node ∈ (queue.pdevList .active).nodes) (once : now.Nodup)
    (live : ∀ other ∈ now, if other = node then (change (queue.nodes node).cmdInUse).markedForActivation = true
      else other ∈ activating) : Tracked pdev (queue.setInUse node change) cancelling now := by
  have others : ∀ {other}, other ≠ node → (queue.setInUse node change).nodes other = queue.nodes other :=
    fun different => update_of_ne different _ _
  have self : (queue.setInUse node change).nodes node =
      { queue.nodes node with cmdInUse := change (queue.nodes node).cmdInUse } := update_self ..
  have entries : (queue.setInUse node change).entries = queue.entries := by
    refine entries_congr rfl ?_
    intro other _
    by_cases same : other = node
    · rw [same, self]
    · rw [others same]
  constructor
  · rw [entries]
    exact tracked.booked
  · intro other inside
    have different : other ≠ node := fun same => by
      rw [same] at inside
      cases linked.placed.apart mem inside
    rw [others different]
    exact tracked.clean other inside
  · intro other set
    by_cases same : other = node
    · rw [same]
      exact mem
    · rw [others same] at set
      exact tracked.marked other set
  · exact once
  · intro other inside
    have lives := live other inside
    split at lives
    · rename_i same
      rw [same, self]
      exact lives
    · rename_i different
      rw [others different]
      exact tracked.live other lives
  · exact tracked.vdevMax
  · exact tracked.activeMax

theorem activate (tracked : Tracked pdev queue cancelling activating)
    (linked : Linked pdev queue none) (mem : node ∈ (queue.pdevList .active).nodes)
    (unmarked : (queue.nodes node).cmdInUse.markedForActivation = false) :
    Tracked pdev (queue.setInUse node fun bits => { bits with markedForActivation := true })
      cancelling (node :: activating) := by
  refine tracked.remark linked mem (nodup_cons.mpr ⟨fun inside => ?_, tracked.once⟩) fun other inside => ?_
  · rw [tracked.live node inside] at unmarked
    cases unmarked
  · split
    · rfl
    · rename_i apart
      exact (mem_cons.mp inside).resolve_left apart

theorem settle (tracked : Tracked pdev queue cancelling (node :: activating))
    (linked : Linked pdev queue none) : Tracked pdev
      (queue.setInUse node fun bits => { bits with markedForActivation := false, isActive := true })
      cancelling activating := by
  have once := nodup_cons.mp tracked.once
  refine tracked.remark linked (tracked.marked node (tracked.live node (mem_cons_self ..))) once.2
    fun other inside => ?_
  have apart : other ≠ node := fun same => once.1 (same ▸ inside)
  rw [if_neg apart]
  exact mem_cons_of_mem _ inside

theorem addPending (tracked : Tracked pdev queue cancelling activating) :
    Tracked pdev (queue.addedCmd false vdev node) cancelling activating := by
  change Tracked pdev (queue.linkCmd false vdev node) cancelling activating
  rw [linkCmd_eq]
  have active : update queue.pdevList (.of false) ⟨ends queue node (queue.pdevList (.of false)).nodes,
        (queue.pdevList (.of false)).count + 1, (queue.pdevList (.of false)).maxSize⟩ .active =
      queue.pdevList .active := update_elsewhere (by decide)
  refine tracked.frame (congrArg QdfList.nodes active) (fun _ _ => rfl) (fun _ => rfl) ?_ rfl rfl ?_
    (congrArg QdfList.maxSize active)
  · intro other inside
    exact tracked.clean other inside
  · intro vdev
    dsimp only
    rw [update_of_ne (by decide)]

theorem entries_addActive : (queue.addedCmd true vdev node).entries.Perm (queue.entry node :: queue.entries) := by
  have active : ((queue.addedCmd true vdev node).pdevList .active).nodes =
      ends queue node (queue.pdevList .active).nodes := by
    change ((queue.linkCmd true vdev node).pdevList .active).nodes = _
    rw [linkCmd_eq]
    dsimp only [PdevList.of]
    rw [if_pos rfl, update_self]
  have nodes : (queue.addedCmd true vdev node).nodes = queue.nodes := by
    change (queue.linkCmd true vdev node).nodes = _
    rw [linkCmd_eq]
  unfold entries entry
  rw [active, nodes]
  exact ends_perm.map _

theorem addActive (tracked : Tracked pdev queue cancelling activating)
    (owner : (queue.nodes node).cmd.vdev = some vdev) (free : vdev ∉ queue.vdevActiveCmdBitmap)
    (single : (queue.nodes node).cmd.isBlocking = true → queue.blockingCmdActive = false) :
    Tracked pdev (queue.addedCmd true vdev node) cancelling activating := by
  have entry : queue.entry node = (vdev, (queue.nodes node).cmd.isBlocking) := by
    unfold entry
    rw [owner]
    rfl
  have booked := @Booked.add _ _ _ _ _ tracked.booked _ (queue.nodes node).cmd.isBlocking free single
  rw [← entry] at booked
  have order : (queue.entry node :: (queue.entries ++ cancelling)).Perm
      ((queue.addedCmd true vdev node).entries ++ cancelling) :=
    (entries_addActive.symm.append_right cancelling)
  have same : queue.addedCmd true vdev node = { queue.linkCmd true vdev node with
        vdevActiveCmdBitmap := insert vdev queue.vdevActiveCmdBitmap
        blockingCmdActive := queue.blockingCmdActive || (queue.nodes node).cmd.isBlocking } := rfl
  have active : (queue.addedCmd true vdev node).pdevList .active =
      ⟨ends queue node (queue.pdevList .active).nodes, (queue.pdevList .active).count + 1,
        (queue.pdevList .active).maxSize⟩ := by
    rw [same, linkCmd_eq]
    rfl
  have pool : (queue.addedCmd true vdev node).pdevList .cmdPool = queue.pdevList .cmdPool := by
    rw [same, linkCmd_eq]
    dsimp only
    exact update_elsewhere PdevList.of_ne_pool.symm
  have nodes : (queue.addedCmd true vdev node).nodes = queue.nodes := by
    rw [same, linkCmd_eq]
  constructor
  · exact (booked.perm order).congr fun other => Finset.mem_insert
  · intro other inside
    rw [pool] at inside
    rw [nodes]
    exact tracked.clean other inside
  · intro other set
    rw [nodes] at set
    rw [active]
    exact ends_perm.mem_iff.mpr (mem_cons_of_mem _ (tracked.marked other set))
  · exact tracked.once
  · intro other inside
    rw [nodes]
    exact tracked.live other inside
  · intro other
    have old := tracked.vdevMax other
    rw [same, linkCmd_eq]
    dsimp only
    rw [update_self]
    by_cases here : other = vdev
    · rw [here, update_self]
      exact tracked.vdevMax vdev
    · rw [update_of_ne here]
      exact old
  · rw [active]
    exact tracked.activeMax

theorem release (tracked : Tracked pdev queue cancelling activating) (linked : Linked pdev queue (some node))
    (unmarked : (queue.nodes node).cmdInUse.markedForActivation = false) :
    Tracked pdev (queue.releaseCmd node) cancelling activating := by
  have others : ∀ {other}, other ≠ node → (queue.releaseCmd node).nodes other = queue.nodes other := by
    intro other apart
    change update (update queue.nodes node _) node _ other = _
    rw [update_of_ne apart, update_of_ne apart]
  have self : ((queue.releaseCmd node).nodes node).cmdInUse = .zero := by
    change (update (update queue.nodes node _) node _ node).cmdInUse = _
    rw [update_self]
  have active : (queue.releaseCmd node).pdevList .active = queue.pdevList .active := by
    rw [pdevList_releaseCmd]
    exact update_elsewhere (by decide)
  refine tracked.frame (by rw [active]) ?_ ?_ ?_ rfl rfl (fun _ => rfl) (by rw [active])
  · intro other mem
    have apart : other ≠ node := fun same => linked.placed.free (by rw [same]) mem
    rw [others apart]
  · intro other
    by_cases same : other = node
    · rw [same, self, unmarked]
      rfl
    · rw [others same]
  · intro other inside
    by_cases same : other = node
    · rw [same, self]
    · rw [others same]
      apply tracked.clean other
      rcases mem_append.mp inside with inside | inside
      · exact inside
      · exact absurd (mem_singleton.mp inside) same

theorem entries_unlinkActive (mem : node ∈ (queue.pdevList .active).nodes) :
    queue.entries.Perm (queue.entry node :: (queue.unlinkCmd true vdev node).entries) :=
  (perm_cons_erase mem).map queue.entry

theorem openCancel (tracked : Tracked pdev queue cancelling activating)
    (mem : node ∈ (queue.pdevList .active).nodes) (owner : (queue.nodes node).cmd.vdev = some vdev)
    (unmarked : (queue.nodes node).cmdInUse.markedForActivation = false) : Tracked pdev (queue.unlinkCmd true vdev node)
      ((vdev, (queue.nodes node).cmd.isBlocking) :: cancelling) activating := by
  have entry : queue.entry node = (vdev, (queue.nodes node).cmd.isBlocking) := by
    unfold entry
    rw [owner]
    rfl
  refine { tracked with booked := ?_, clean := ?_, marked := ?_ }
  · have order := (@entries_unlinkActive queue node vdev mem).append_right cancelling
    rw [entry] at order
    exact tracked.booked.perm (order.trans perm_middle.symm)
  · exact fun other inside => tracked.clean other (mem_of_mem_erase inside)
  · intro other set
    have apart : other ≠ node := fun same => by
      rw [same] at set
      exact absurd (set.symm.trans unmarked) (by decide)
    exact (mem_erase_of_ne apart).mpr (tracked.marked other set)

theorem closeCancel (tracked : Tracked pdev queue ((vdev, isBlocking) :: cancelling) activating) : Tracked pdev
      { queue with
        blockingCmdActive := queue.blockingCmdActive && !isBlocking
        vdevActiveCmdBitmap := queue.vdevActiveCmdBitmap.erase vdev } cancelling activating := by
  refine { tracked with booked := ?_ }
  · exact (tracked.booked.perm perm_middle).release.congr fun other => Finset.mem_erase

theorem removeActive (tracked : Tracked pdev queue cancelling activating)
    (mem : node ∈ (queue.pdevList .active).nodes) (owner : (queue.nodes node).cmd.vdev = some vdev)
    (unmarked : (queue.nodes node).cmdInUse.markedForActivation = false) :
    Tracked pdev (queue.removedCmd true vdev node) cancelling activating :=
  (tracked.openCancel mem owner unmarked).closeCancel

end Tracked

end KernelModules.Serialization

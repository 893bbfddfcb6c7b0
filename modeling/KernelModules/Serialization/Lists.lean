import KernelModules.Data.Placement
import KernelModules.Serialization.System

namespace KernelModules.Serialization

open Data PdevList List PdevQueue Function

namespace PdevQueue

def owns (queue : PdevQueue) (vdev node : Nat) : Bool :=
  (queue.nodes node).cmd.vdev = some vdev

def put (queue : PdevQueue) (which : SerQueue) (node : Nat) : PdevQueue :=
  if (queue.nodes node).cmd.isHighPriority then queue.insertFront which node
  else queue.insertBack which node

def linkCmd (queue : PdevQueue) (isActive : Bool) (vdev node : Nat) : PdevQueue :=
  (queue.put (.vdev isActive vdev) node).put (.pdev (.of isActive)) node

def unlinkCmd (queue : PdevQueue) (isActive : Bool) (vdev node : Nat) : PdevQueue :=
  (queue.removeNode (.vdev isActive vdev) node).removeNode (.pdev (.of isActive)) node

end PdevQueue

/-- The lists linked through `pdev_node` share out the pool, and each vdev's lists are what the
pdev's lists have of the vdev. -/
structure Linked (pdev : SerPdev) (queue : PdevQueue) (held : Option Nat) : Prop where
  placed : Placed (· < pdev.poolSize) (fun list => (queue.pdevList list).nodes) held
  count : ∀ list, (queue.pdevList list).count = (queue.pdevList list).nodes.length
  vdevCount : ∀ isActive vdev, (queue.vdevList isActive vdev).count = (queue.vdevList isActive vdev).nodes.length
  restrict : ∀ isActive vdev, (queue.vdevList isActive vdev).nodes =
    (queue.pdevList (.of isActive)).nodes.filter (queue.owns vdev)
  owned : ∀ isActive node, node ∈ (queue.pdevList (.of isActive)).nodes →
    ∃ vdev ∈ pdev.vdevs, (queue.nodes node).cmd.vdev = some vdev

variable {queue : PdevQueue} {node : Nat} {list : List Nat}

theorem PdevList.of_injective {other : Bool} (same : of isActive = .of other) : isActive = other := by
  cases isActive <;> cases other <;> first | rfl | cases same

theorem PdevList.of_ne_pool : of isActive ≠ .cmdPool := by
  cases isActive <;> exact fun same => by cases same

namespace Linked

theorem same {after : PdevQueue} (linked : Linked pdev queue held)
    (nodes : ∀ node list, node ∈ (queue.pdevList list).nodes →
      (after.nodes node).cmd.vdev = (queue.nodes node).cmd.vdev)
    (pdevList : after.pdevList = queue.pdevList) (vdevList : after.vdevList = queue.vdevList) :
    Linked pdev after held := by
  constructor
  · rw [pdevList]
    exact linked.placed
  · rw [pdevList]
    exact linked.count
  · rw [vdevList]
    exact linked.vdevCount
  · intro isActive vdev
    rw [vdevList, pdevList, linked.restrict]
    apply filter_congr
    intro node mem
    unfold owns
    rw [nodes node _ mem]
  · intro isActive node mem
    rw [pdevList] at mem
    rw [nodes node _ mem]
    exact linked.owned isActive node mem

theorem member_vdevList (linked : Linked pdev queue held) : node ∈ (queue.vdevList isActive vdev).nodes ↔
      node ∈ (queue.pdevList (.of isActive)).nodes ∧ (queue.nodes node).cmd.vdev = some vdev := by
  rw [linked.restrict, mem_filter]
  unfold owns
  rw [decide_eq_true_iff]

theorem length_unlink {list : QdfList} (count : list.count = list.nodes.length)
    (exact : named = true ↔ node ∈ list.nodes) :
    (QdfList.unlink list named node).count = (QdfList.unlink list named node).nodes.length := by
  unfold QdfList.unlink
  by_cases mem : node ∈ list.nodes
  · rw [if_pos (exact.mpr mem), length_erase_of_mem mem, count]
  · rw [if_neg fun named => mem (exact.mp named), erase_of_not_mem mem, count]

theorem unlinkCmd (linked : Linked pdev queue none) (mem : node ∈ (queue.pdevList (.of isActive)).nodes)
    (owner : (queue.nodes node).cmd.vdev = some vdev) :
    Linked pdev (queue.unlinkCmd isActive vdev node) (some node) := by
  have placed := linked.placed
  constructor
  · exact placed.take mem
  · intro list
    apply length_unlink (linked.count list)
    rw [decide_eq_true_iff]
    exact ⟨fun same => by rw [same]; exact mem, fun inside => placed.apart inside mem⟩
  · intro otherActive other
    apply length_unlink (linked.vdevCount otherActive other)
    rw [decide_eq_true_iff, linked.member_vdevList]
    constructor
    · rintro ⟨rfl, rfl⟩
      exact ⟨mem, owner⟩
    · rintro ⟨inside, same⟩
      rw [owner, Option.some.injEq] at same
      exact ⟨of_injective (placed.apart inside mem), same.symm⟩
  · intro otherActive other
    change (queue.vdevList otherActive other).nodes.erase node = _
    rw [linked.restrict, erase_filter]
    rfl
  · intro otherActive other inside
    exact linked.owned otherActive other (mem_of_mem_erase inside)

theorem takePool (linked : Linked pdev queue none) (mem : node ∈ (queue.pdevList .cmdPool).nodes) :
    Linked pdev (queue.removeNode (.pdev .cmdPool) node) (some node) := by
  have placed := linked.placed
  have elsewhere : ∀ otherActive, (queue.pdevList (.of otherActive)).nodes.erase node =
      (queue.pdevList (.of otherActive)).nodes := fun otherActive =>
    placed.erase_elsewhere mem of_ne_pool
  constructor
  · exact placed.take mem
  · intro list
    apply length_unlink (linked.count list)
    rw [decide_eq_true_iff]
    exact ⟨fun same => by rw [same]; exact mem, fun inside => placed.apart inside mem⟩
  · exact linked.vdevCount
  · intro otherActive other
    change (queue.vdevList otherActive other).nodes =
      ((queue.pdevList (.of otherActive)).nodes.erase node).filter (queue.owns other)
    rw [elsewhere]
    exact linked.restrict otherActive other
  · intro otherActive other inside
    exact linked.owned otherActive other (mem_of_mem_erase inside)

def ends (queue : PdevQueue) (node : Nat) (list : List Nat) : List Nat :=
  if (queue.nodes node).cmd.isHighPriority then node :: list else list ++ [node]

theorem ends_perm : (ends queue node list).Perm (node :: list) := by
  unfold ends
  split
  · exact .refl _
  · exact perm_append_singleton node list

theorem filter_ends : (ends queue node list).filter keep =
    if keep node then ends queue node (list.filter keep) else list.filter keep := by
  unfold ends
  cases kept : keep node <;> split <;> simp [kept]

theorem linkCmd_eq : queue.linkCmd isActive vdev node = { queue with
      pdevList := update queue.pdevList (.of isActive) ⟨ends queue node (queue.pdevList (.of isActive)).nodes,
          (queue.pdevList (.of isActive)).count + 1, (queue.pdevList (.of isActive)).maxSize⟩
      vdevList := update queue.vdevList isActive (update (queue.vdevList isActive) vdev
          ⟨ends queue node (queue.vdevList isActive vdev).nodes,
            (queue.vdevList isActive vdev).count + 1, (queue.vdevList isActive vdev).maxSize⟩) } := by
  unfold linkCmd ends
  cases front : (queue.nodes node).cmd.isHighPriority with
  | false =>
    have back : queue.put (.vdev isActive vdev) node = queue.insertBack (.vdev isActive vdev) node :=
      if_neg (by rw [front]; decide)
    rw [back]
    exact if_neg (by change ¬(queue.nodes node).cmd.isHighPriority = true; rw [front]; decide)
  | true =>
    have ahead : queue.put (.vdev isActive vdev) node = queue.insertFront (.vdev isActive vdev) node := if_pos front
    rw [ahead]
    exact if_pos front

theorem linkCmd (linked : Linked pdev queue (some node)) (known : vdev ∈ pdev.vdevs)
    (owner : (queue.nodes node).cmd.vdev = some vdev) : Linked pdev (queue.linkCmd isActive vdev node) none := by
  have owns : queue.owns vdev node = true := decide_eq_true owner
  have others : ∀ {other}, other ≠ vdev → queue.owns other node = false := fun apart =>
    decide_eq_false fun same => apart (Option.some.inj (same.symm.trans owner))
  rw [linkCmd_eq]
  constructor
  · have put := linked.placed.put (@ends_perm queue node (queue.pdevList (.of isActive)).nodes)
    convert put using 2
    rename_i list
    dsimp only
    by_cases here : list = .of isActive
    · rw [here, update_self, update_self]
    · rw [update_of_ne here, update_of_ne here]
  · intro list
    dsimp only
    by_cases here : list = .of isActive
    · rw [here, update_self]
      rw [ends_perm.length_eq, length_cons, linked.count]
    · rw [update_of_ne here]
      exact linked.count list
  · intro otherActive other
    dsimp only
    by_cases here : otherActive = isActive
    · subst here
      rw [update_self]
      by_cases there : other = vdev
      · subst there
        rw [update_self]
        rw [ends_perm.length_eq, length_cons, linked.vdevCount]
      · rw [update_of_ne there]
        exact linked.vdevCount otherActive other
    · rw [update_of_ne here]
      exact linked.vdevCount otherActive other
  · intro otherActive other
    change _ = List.filter (queue.owns other) _
    dsimp only
    by_cases here : otherActive = isActive
    · subst here
      rw [update_self, update_self]
      by_cases there : other = vdev
      · subst there
        rw [update_self]
        rw [linked.restrict, filter_ends, if_pos owns]
      · rw [update_of_ne there, linked.restrict, filter_ends, if_neg (by rw [others there]; decide)]
    · rw [update_of_ne here, update_of_ne fun same => here (of_injective same)]
      exact linked.restrict otherActive other
  · intro otherActive other mem
    dsimp only at mem
    by_cases here : otherActive = isActive
    · subst here
      rw [update_self] at mem
      rcases mem_cons.mp (ends_perm.mem_iff.mp mem) with same | mem
      · rw [same]
        exact ⟨vdev, known, owner⟩
      · exact linked.owned otherActive other mem
    · rw [update_of_ne fun same => here (of_injective same)] at mem
      exact linked.owned otherActive other mem

theorem pdevList_releaseCmd : (queue.releaseCmd node).pdevList = update queue.pdevList .cmdPool
      ⟨(queue.pdevList .cmdPool).nodes ++ [node], (queue.pdevList .cmdPool).count + 1,
        (queue.pdevList .cmdPool).maxSize⟩ := rfl

theorem releaseCmd (linked : Linked pdev queue (some node)) : Linked pdev (queue.releaseCmd node) none := by
  have lists := @pdevList_releaseCmd queue node
  have elsewhere : ∀ isActive, (queue.releaseCmd node).pdevList (.of isActive) =
      queue.pdevList (.of isActive) := fun isActive => by
    rw [lists, update_of_ne PdevList.of_ne_pool]
  have nodes : ∀ {other isActive}, other ∈ (queue.pdevList (.of isActive)).nodes →
      (queue.releaseCmd node).nodes other = queue.nodes other := by
    intro other isActive mem
    have apart : other ≠ node := fun same => linked.placed.free (by rw [same]) mem
    unfold PdevQueue.releaseCmd PdevQueue.insertBack PdevQueue.setInUse PdevQueue.setCmd PdevQueue.setList
    dsimp only
    rw [update_of_ne apart, update_of_ne apart]
  constructor
  · have put := linked.placed.put (perm_append_singleton node (queue.pdevList .cmdPool).nodes)
    rw [lists]
    convert put using 2
    rename_i list
    by_cases here : list = .cmdPool
    · rw [here, update_self, update_self]
    · rw [update_of_ne here, update_of_ne here]
  · intro list
    rw [lists]
    by_cases here : list = .cmdPool
    · rw [here, update_self]
      rw [length_append, length_singleton, linked.count]
    · rw [update_of_ne here]
      exact linked.count list
  · exact linked.vdevCount
  · intro isActive vdev
    rw [elsewhere]
    change (queue.vdevList isActive vdev).nodes = _
    rw [linked.restrict]
    apply filter_congr
    intro other mem
    unfold PdevQueue.owns
    rw [nodes mem]
  · intro isActive other mem
    rw [elsewhere] at mem
    rw [nodes mem]
    exact linked.owned isActive other mem

end Linked

open Linked

namespace PdevQueue

def removedCmd (queue : PdevQueue) (isActive : Bool) (vdev node : Nat) : PdevQueue :=
  if isActive then { queue.unlinkCmd isActive vdev node with
      blockingCmdActive := queue.blockingCmdActive && !(queue.nodes node).cmd.isBlocking
      vdevActiveCmdBitmap := queue.vdevActiveCmdBitmap.erase vdev }
  else queue.unlinkCmd isActive vdev node

def addedCmd (queue : PdevQueue) (isActive : Bool) (vdev node : Nat) : PdevQueue :=
  if isActive then { queue.linkCmd isActive vdev node with
      vdevActiveCmdBitmap := insert vdev queue.vdevActiveCmdBitmap
      blockingCmdActive := queue.blockingCmdActive || (queue.nodes node).cmd.isBlocking }
  else queue.linkCmd isActive vdev node

end PdevQueue

variable {pdev : SerPdev} {queue : PdevQueue} {isActive : Bool} {node vdev other : Nat}

theorem matchCmd_owner (same : queue.matchCmd cmd node = true) : (queue.nodes node).cmd.vdev = cmd.vdev :=
  (of_decide_eq_true same).2.2

theorem matchCmd_self : queue.matchCmd (queue.nodes node).cmd node = true :=
  decide_eq_true ⟨rfl, rfl, rfl⟩

theorem Linked.findCmd_pdev (linked : Linked pdev queue held) (owner : cmd.vdev = some vdev) :
    queue.findCmd (.pdev (.of isActive)) cmd = queue.findCmd (.vdev isActive vdev) cmd := by
  have restrict := linked.restrict isActive vdev
  unfold findCmd list
  rw [restrict, List.find?_filter]
  congr 1
  funext node
  cases same : queue.matchCmd cmd node with
  | false => simp
  | true =>
    have owns : queue.owns vdev node = true := decide_eq_true ((matchCmd_owner same).trans owner)
    simp [owns]

theorem Linked.findCmd_some (linked : Linked pdev queue held)
    (found : queue.findCmd (.vdev isActive vdev) cmd = some node) :
    node ∈ (queue.pdevList (.of isActive)).nodes ∧ (queue.nodes node).cmd.vdev = some vdev ∧
      queue.matchCmd cmd node = true := by
  have mem := linked.member_vdevList.mp (List.mem_of_find?_eq_some found)
  exact ⟨mem.1, mem.2, List.find?_some found⟩

theorem removeCmdFromQueue_found (found : queue.findCmd which cmd = some node)
    (unmarked : (queue.nodes node).cmdInUse.markedForActivation = false) :
    queue.removeCmdFromQueue which cmd = (queue.removeNode which node, .success node) := by
  unfold removeCmdFromQueue
  rw [found]
  exact if_neg (by rw [unmarked]; decide)

theorem Linked.removeNonScanCmd_cases (linked : Linked pdev queue held) (owner : cmd.vdev = some vdev) :
    queue.findCmd (.vdev isActive vdev) cmd = none ∧ queue.removeNonScanCmd cmd vdev isActive = (queue, .failure) ∨
      ∃ node, queue.findCmd (.vdev isActive vdev) cmd = some node ∧
        ((queue.nodes node).cmdInUse.markedForActivation = true ∧ queue.removeNonScanCmd cmd vdev isActive =
              (queue.setInUse node fun bits => { bits with activeMarkedForRemoval := true }, .pending) ∨
          (queue.nodes node).cmdInUse.markedForActivation = false ∧ queue.removeNonScanCmd cmd vdev isActive =
              (queue.removedCmd isActive vdev node, .success node)) := by
  cases found : queue.findCmd (.vdev isActive vdev) cmd with
  | none =>
    refine .inl ⟨rfl, ?_⟩
    unfold removeNonScanCmd removeCmdFromQueue
    rw [found]
  | some node =>
    refine .inr ⟨node, rfl, ?_⟩
    cases marked : (queue.nodes node).cmdInUse.markedForActivation with
    | true =>
      refine .inl ⟨rfl, ?_⟩
      unfold removeNonScanCmd removeCmdFromQueue
      rw [found]
      dsimp only
      rw [if_pos marked]
    | false =>
      refine .inr ⟨rfl, ?_⟩
      have again : (queue.removeNode (.vdev isActive vdev) node).findCmd (.pdev (.of isActive)) cmd = some node := by
        rw [← found, ← linked.findCmd_pdev owner]
        rfl
      unfold removeNonScanCmd
      rw [removeCmdFromQueue_found found marked]
      dsimp only
      rw [removeCmdFromQueue_found again marked]
      cases isActive <;> rfl

theorem Linked.removedCmd (linked : Linked pdev queue none) (mem : node ∈ (queue.pdevList (.of isActive)).nodes)
    (owner : (queue.nodes node).cmd.vdev = some vdev) :
    Linked pdev (queue.removedCmd isActive vdev node) (some node) := by
  have unlinked := linked.unlinkCmd mem owner
  cases isActive
  · exact unlinked
  · exact unlinked.same (fun _ _ _ => rfl) rfl rfl

theorem addCmdToQueue_full (full : (queue.list which).count = (queue.list which).maxSize) :
    queue.addCmdToQueue which node isActive = (queue, .deniedListFull) :=
  if_pos full

theorem addCmdToQueue_room (room : (queue.list which).count ≠ (queue.list which).maxSize) :
    queue.addCmdToQueue which node isActive = (queue.put which node, if isActive then .active else .pending) :=
  if_neg room

/-- The vdev's `queue_disable` after an attempt to add the node. -/
def disabledBy (queue : PdevQueue) (node vdev : Nat) : Finset Nat :=
  if (queue.nodes node).cmd.queueDisable then insert vdev queue.queueDisable
  else queue.queueDisable

theorem addCmdToVdevQueue_full
    (full : (queue.vdevList isActive vdev).count = (queue.vdevList isActive vdev).maxSize) :
    queue.addCmdToVdevQueue node vdev isActive =
      ({ queue with queueDisable := disabledBy queue node vdev }, .deniedListFull) := by
  have added : queue.addCmdToQueue (.vdev isActive vdev) node isActive = (queue, .deniedListFull) :=
    addCmdToQueue_full full
  unfold addCmdToVdevQueue disabledBy
  rw [added]
  cases (queue.nodes node).cmd.queueDisable <;> rfl

theorem addCmdToVdevQueue_room
    (room : (queue.vdevList isActive vdev).count ≠ (queue.vdevList isActive vdev).maxSize) :
    queue.addCmdToVdevQueue node vdev isActive =
      ({ queue with queueDisable := disabledBy queue node vdev }.put (.vdev isActive vdev) node,
        if isActive then .active else .pending) := by
  have added : queue.addCmdToQueue (.vdev isActive vdev) node isActive = _ := addCmdToQueue_room room
  unfold addCmdToVdevQueue
  rw [added]
  unfold disabledBy put
  cases (queue.nodes node).cmd.queueDisable <;> cases (queue.nodes node).cmd.isHighPriority <;> rfl

theorem findCmd_put (fresh : ∀ other ∈ (queue.vdevList isActive vdev).nodes,
      queue.matchCmd (queue.nodes node).cmd other = false) :
    (queue.put (.vdev isActive vdev) node).findCmd (.vdev isActive vdev) (queue.nodes node).cmd = some node := by
  have none : (queue.vdevList isActive vdev).nodes.find? (queue.matchCmd (queue.nodes node).cmd) = none :=
    List.find?_eq_none.mpr fun other mem same => by
      rw [fresh other mem] at same
      cases same
  have self := @matchCmd_self queue node
  unfold put
  split
  · change List.find? (queue.matchCmd (queue.nodes node).cmd)
      (update queue.vdevList isActive (update (queue.vdevList isActive) vdev _) isActive vdev).nodes = _
    rw [update_self, update_self]
    exact List.find?_cons_of_pos self
  change List.find? (queue.matchCmd (queue.nodes node).cmd)
    (update queue.vdevList isActive (update (queue.vdevList isActive) vdev _) isActive vdev).nodes = _
  rw [update_self, update_self]
  change List.find? _ ((queue.vdevList isActive vdev).nodes ++ [node]) = _
  rw [List.find?_append, none]
  exact List.find?_cons_of_pos self

theorem unlink_ends {list : QdfList} (absent : node ∉ list.nodes) :
    QdfList.unlink ⟨ends queue node list.nodes, list.count + 1, list.maxSize⟩ true node = list := by
  unfold QdfList.unlink ends
  split
  · rw [List.erase_cons_head]
    rfl
  · rw [List.erase_append_right _ absent, List.erase_cons_head, List.append_nil]
    rfl

section

variable (linked : Linked pdev queue (some node))
include linked

theorem Linked.remove_put : (queue.put (.vdev isActive vdev) node).removeNode (.vdev isActive vdev) node = queue := by
  have absent : ∀ otherActive other, node ∉ (queue.vdevList otherActive other).nodes :=
    fun otherActive other mem => linked.placed.free rfl (linked.member_vdevList.mp mem).1
  have put : queue.put (.vdev isActive vdev) node = { queue with
        vdevList := update queue.vdevList isActive
          (update (queue.vdevList isActive) vdev
            ⟨ends queue node (queue.vdevList isActive vdev).nodes, (queue.vdevList isActive vdev).count + 1,
              (queue.vdevList isActive vdev).maxSize⟩) } := by
    unfold put ends
    split <;> rfl
  have lists : ((queue.put (.vdev isActive vdev) node).removeNode (.vdev isActive vdev) node).vdevList =
      queue.vdevList := by
    rw [put]
    funext otherActive other
    change QdfList.unlink (update queue.vdevList isActive _ otherActive other) _ node = _
    by_cases here : otherActive = isActive ∧ other = vdev
    · obtain ⟨rfl, rfl⟩ := here
      rw [update_self, update_self, decide_eq_true ⟨rfl, rfl⟩]
      exact unlink_ends (absent _ _)
    rw [decide_eq_false here]
    have old : update queue.vdevList isActive (update (queue.vdevList isActive) vdev
          ⟨ends queue node (queue.vdevList isActive vdev).nodes,
            (queue.vdevList isActive vdev).count + 1, (queue.vdevList isActive vdev).maxSize⟩)
        otherActive other = queue.vdevList otherActive other := by
      by_cases kind : otherActive = isActive
      · subst kind
        rw [update_self, update_of_ne fun same => here ⟨rfl, same⟩]
      · rw [update_of_ne kind]
    rw [old]
    unfold QdfList.unlink
    rw [List.erase_of_not_mem (absent _ _)]
    rfl
  have rest : (queue.put (.vdev isActive vdev) node).removeNode (.vdev isActive vdev) node = { queue with
        vdevList :=
          ((queue.put (.vdev isActive vdev) node).removeNode (.vdev isActive vdev) node).vdevList } := by
    rw [put]
    rfl
  rw [rest, lists]

theorem Linked.addNonScanCmd_cases (unmarked : (queue.nodes node).cmdInUse.markedForActivation = false)
    (fresh : ∀ other ∈ (queue.vdevList isActive vdev).nodes, queue.matchCmd (queue.nodes node).cmd other = false) :
    queue.addNonScanCmd node vdev isActive =
        ({ queue with queueDisable := disabledBy queue node vdev }, .deniedListFull) ∧
        ((queue.vdevList isActive vdev).count = (queue.vdevList isActive vdev).maxSize ∨
          (queue.pdevList (.of isActive)).count = (queue.pdevList (.of isActive)).maxSize) ∨
      queue.addNonScanCmd node vdev isActive =
        ({ queue.addedCmd isActive vdev node with queueDisable := disabledBy queue node vdev },
          if isActive then .active else .pending) ∧
        (queue.vdevList isActive vdev).count ≠ (queue.vdevList isActive vdev).maxSize ∧
        (queue.pdevList (.of isActive)).count ≠ (queue.pdevList (.of isActive)).maxSize := by
  by_cases full : (queue.vdevList isActive vdev).count = (queue.vdevList isActive vdev).maxSize
  · refine .inl ⟨?_, .inl full⟩
    unfold addNonScanCmd
    rw [addCmdToVdevQueue_full full]
  generalize disabled : disabledBy queue node vdev = disable
  have added := @addCmdToVdevQueue_room queue isActive node vdev full
  rw [disabled] at added
  generalize start : { queue with queueDisable := disable } = begun at added
  have pdevList : (begun.put (.vdev isActive vdev) node).pdevList = queue.pdevList := by
    rw [← start]
    unfold put
    split <;> rfl
  have nodes : (begun.put (.vdev isActive vdev) node).nodes = queue.nodes := by
    rw [← start]
    unfold put
    split <;> rfl
  by_cases pdevFull : (queue.pdevList (.of isActive)).count = (queue.pdevList (.of isActive)).maxSize
  · refine .inl ⟨?_, .inr pdevFull⟩
    have denied : (begun.put (.vdev isActive vdev) node).addCmdToQueue (.pdev (.of isActive)) node
        isActive = (begun.put (.vdev isActive vdev) node, .deniedListFull) := by
      apply addCmdToQueue_full
      unfold list
      rw [pdevList]
      exact pdevFull
    have begunLinked : Linked pdev begun (some node) := by
      rw [← start]
      exact linked.same (fun _ _ _ => rfl) rfl rfl
    have found : (begun.put (.vdev isActive vdev) node).findCmd (.vdev isActive vdev)
        ((begun.put (.vdev isActive vdev) node).nodes node).cmd = some node := by
      rw [nodes, ← show begun.nodes = queue.nodes by rw [← start]]
      apply findCmd_put
      rw [← start]
      exact fresh
    unfold addNonScanCmd
    rw [added]
    cases isActive <;>
    · simp only [Bool.false_eq_true, if_false, if_true]
      rw [denied]
      dsimp only
      rw [removeCmdFromQueue_found found (by rw [nodes]; exact unmarked), begunLinked.remove_put]
  · refine .inr ⟨?_, full, pdevFull⟩
    have taken : (begun.put (.vdev isActive vdev) node).addCmdToQueue (.pdev (.of isActive)) node
        isActive = (begun.linkCmd isActive vdev node, if isActive then .active else .pending) := by
      apply addCmdToQueue_room
      unfold list
      rw [pdevList]
      exact pdevFull
    unfold addNonScanCmd
    rw [added]
    cases isActive
    · simp only [Bool.false_eq_true, if_false] at taken ⊢
      rw [taken]
      unfold addedCmd
      rw [linkCmd_eq, linkCmd_eq, ← start]
      rfl
    · simp only [if_true] at taken ⊢
      rw [taken]
      unfold addedCmd
      rw [linkCmd_eq, linkCmd_eq, ← start]
      rfl

theorem Linked.addedCmd (known : vdev ∈ pdev.vdevs) (owner : (queue.nodes node).cmd.vdev = some vdev) :
    Linked pdev (queue.addedCmd isActive vdev node) none := by
  have linkedCmd := @linkCmd queue node pdev vdev isActive linked known owner
  cases isActive
  · exact linkedCmd
  · exact linkedCmd.same (fun _ _ _ => rfl) rfl rfl

end

end KernelModules.Serialization

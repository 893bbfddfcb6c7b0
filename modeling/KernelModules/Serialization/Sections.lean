import KernelModules.Serialization.Tracking

namespace KernelModules.Serialization

open Data PdevQueue Function List Linked

structure Represents (pdev : SerPdev) (queue : PdevQueue) (cancelling : List (Nat × Bool))
    (activating : List Nat) : Prop where
  linked : Linked pdev queue none
  tracked : Tracked pdev queue cancelling activating

/-- At most one command comes into the active list: one whose request finds the list empty, or
without a blocking command, or the one that a move has picked. -/
inductive Changes (queue after : PdevQueue) (picked : Option Nat) : Prop where
  | leaves (fewer : after.entries.Subperm queue.entries)
  | request (entry : Nat × Bool) (more : after.entries.Perm (entry :: queue.entries))
      (alone : entry.2 = true → queue.entries = [])
      (free : ∀ other ∈ queue.entries, other.2 = false)
  | moved (node : Nat) (isPicked : picked = some node)
      (more : after.entries.Perm (queue.entry node :: queue.entries))

variable {pdev : SerPdev} {queue after : PdevQueue} {node vdev : Nat} {cmd : WlanSerializationCommand}
  {cancelling : List (Nat × Bool)} {activating : List Nat}

theorem cmd_setInUse : ((queue.setInUse node change).nodes other).cmd = (queue.nodes other).cmd := by
  unfold setInUse
  dsimp only
  by_cases same : other = node
  · rw [same, update_self]
  · rw [update_of_ne same]

theorem entries_setInUse : (queue.setInUse node change).entries = queue.entries :=
  entries_congr rfl fun _ _ => cmd_setInUse

theorem Linked.setInUse (linked : Linked pdev queue held) : Linked pdev (queue.setInUse node change) held :=
  linked.same (fun _ _ _ => by rw [cmd_setInUse]) rfl rfl

theorem Linked.entries_releaseCmd (linked : Linked pdev queue (some node)) :
    (queue.releaseCmd node).entries = queue.entries := by
  apply entries_congr
  · rw [pdevList_releaseCmd, update_elsewhere (by decide)]
  · intro other mem
    have apart : other ≠ node := fun same => linked.placed.free (by rw [same]) mem
    change (update (update queue.nodes node _) node _ other).cmd = _
    rw [update_of_ne apart, update_of_ne apart]

theorem Linked.entries_unlinkPending (linked : Linked pdev queue none)
    (mem : node ∈ (queue.pdevList .pending).nodes) : (queue.unlinkCmd false vdev node).entries = queue.entries :=
  entries_congr (linked.placed.erase_elsewhere mem (by decide)) fun _ _ => rfl

namespace PdevQueue

/-- A node of the pool has been given the command. -/
def taken (queue : PdevQueue) (node : Nat) (cmd : WlanSerializationCommand) : PdevQueue :=
  (queue.removeNode (.pdev .cmdPool) node).setCmd node cmd

/-- `enqueueCmd` behind the question whether the command may become active. -/
def admitCmd (queue : PdevQueue) (cmd : WlanSerializationCommand) (vdev : Nat) (activeQueue : Bool) :
    PdevQueue × SerStatus × Option Nat :=
  if (queue.findCmd (.vdev activeQueue vdev) cmd).isSome then (queue, .deniedUnspecified, none)
  else match (queue.pdevList .cmdPool).nodes with
    | [] => (queue, .deniedListFull, none)
    | node :: _ =>
      match (queue.taken node cmd).addNonScanCmd node vdev activeQueue with
      | (queue, .active) =>
        (queue.setInUse node fun bits => { bits with markedForActivation := true }, .active, some node)
      | (queue, .pending) => (queue, .pending, none)
      | (queue, status) => (queue.releaseCmd node, status, none)

theorem enqueueCmd_eq : queue.enqueueCmd cmd vdev = if vdev ∈ queue.queueDisable then (queue, .queueDisabled, none)
    else (queue.isActiveCmdAllowed cmd vdev).1.admitCmd cmd vdev (queue.isActiveCmdAllowed cmd vdev).2 :=
  rfl

def refusedDisable (queue : PdevQueue) (cmd : WlanSerializationCommand) (vdev : Nat) : Finset Nat :=
  if cmd.queueDisable then insert vdev queue.queueDisable else queue.queueDisable

def Room (queue : PdevQueue) (isActive : Bool) (vdev : Nat) : Prop :=
  (queue.vdevList isActive vdev).count ≠ (queue.vdevList isActive vdev).maxSize ∧
    (queue.pdevList (.of isActive)).count ≠ (queue.pdevList (.of isActive)).maxSize

inductive Admission (queue : PdevQueue) (cmd : WlanSerializationCommand) (vdev : Nat) :
    Bool → PdevQueue × SerStatus × Option Nat → Prop where
  | present (here : (queue.findCmd (.vdev isActive vdev) cmd).isSome = true) :
      Admission queue cmd vdev isActive (queue, .deniedUnspecified, none)
  | empty (absent : queue.findCmd (.vdev isActive vdev) cmd = none) (dry : (queue.pdevList .cmdPool).nodes = []) :
      Admission queue cmd vdev isActive (queue, .deniedListFull, none)
  | full {node : Nat} (absent : queue.findCmd (.vdev isActive vdev) cmd = none)
      (mem : node ∈ (queue.pdevList .cmdPool).nodes) (full : ¬queue.Room isActive vdev) :
      Admission queue cmd vdev isActive ({ queue.taken node cmd with
        queueDisable := queue.refusedDisable cmd vdev }.releaseCmd node, .deniedListFull, none)
  | pending {node : Nat} (absent : queue.findCmd (.vdev false vdev) cmd = none)
      (mem : node ∈ (queue.pdevList .cmdPool).nodes) (room : queue.Room false vdev) :
      Admission queue cmd vdev false ({ (queue.taken node cmd).addedCmd false vdev node with
        queueDisable := queue.refusedDisable cmd vdev }, .pending, none)
  | active {node : Nat} (absent : queue.findCmd (.vdev true vdev) cmd = none)
      (mem : node ∈ (queue.pdevList .cmdPool).nodes) (room : queue.Room true vdev) :
      Admission queue cmd vdev true ({ ((queue.taken node cmd).addedCmd true vdev node).setInUse node fun bits =>
        { bits with markedForActivation := true } with
        queueDisable := queue.refusedDisable cmd vdev }, .active, some node)

theorem taken_pdevList (absent : node ∉ (queue.pdevList (.of isActive)).nodes) :
    (queue.taken node cmd).pdevList (.of isActive) = queue.pdevList (.of isActive) := by
  change QdfList.unlink (queue.pdevList (.of isActive)) (PdevList.of isActive = .cmdPool) node = _
  unfold QdfList.unlink
  rw [List.erase_of_not_mem absent, decide_eq_false PdevList.of_ne_pool]
  rfl

end PdevQueue

theorem Linked.taken (linked : Linked pdev queue none) (mem : node ∈ (queue.pdevList .cmdPool).nodes) :
    Linked pdev (queue.taken node cmd) (some node) ∧ (queue.taken node cmd).nodes node = { queue.nodes node with cmd } ∧
      (∀ list, ∀ other ∈ ((queue.taken node cmd).pdevList list).nodes,
        (queue.taken node cmd).nodes other = queue.nodes other) ∧
      ∀ isActive, (queue.taken node cmd).pdevList (.of isActive) = queue.pdevList (.of isActive) := by
  have others : ∀ list, ∀ other ∈ ((queue.taken node cmd).pdevList list).nodes,
      (queue.taken node cmd).nodes other = queue.nodes other := by
    intro list other inside
    refine update_of_ne (fun same => ?_) _ _
    rw [same] at inside
    exact (linked.placed.nodup list).not_mem_erase inside
  refine ⟨(linked.takePool mem).same (fun other list inside => ?_) rfl rfl, update_self .., others,
    fun isActive => taken_pdevList fun inside => PdevList.of_ne_pool (linked.placed.apart inside mem)⟩
  exact congrArg (fun node : WlanSerializationCommandList => node.cmd.vdev) (others list other inside)

theorem Linked.admission (linked : Linked pdev queue none)
    (clean : ∀ node ∈ (queue.pdevList .cmdPool).nodes, (queue.nodes node).cmdInUse = .zero) (activeQueue : Bool) :
    queue.Admission cmd vdev activeQueue (queue.admitCmd cmd vdev activeQueue) := by
  unfold admitCmd
  cases found : queue.findCmd (.vdev activeQueue vdev) cmd with
  | some node => exact .present (by rw [found]; rfl)
  | none =>
    cases pool : (queue.pdevList .cmdPool).nodes with
    | nil => exact .empty found pool
    | cons node later =>
      have mem : node ∈ (queue.pdevList .cmdPool).nodes := pool ▸ mem_cons_self ..
      obtain ⟨takenLinked, self, others, lists⟩ := @Linked.taken pdev queue node cmd linked mem
      have disables : disabledBy (queue.taken node cmd) node vdev = queue.refusedDisable cmd vdev := by
        unfold disabledBy
        rw [self]
        rfl
      have fresh : ∀ other ∈ ((queue.taken node cmd).vdevList activeQueue vdev).nodes,
          (queue.taken node cmd).matchCmd ((queue.taken node cmd).nodes node).cmd other = false := by
        intro other inside
        have old := Bool.eq_false_iff.mpr (List.find?_eq_none.mp found other inside)
        rw [self]
        unfold matchCmd at old ⊢
        rw [others _ other (takenLinked.member_vdevList.mp inside).1]
        exact old
      dsimp only
      rcases takenLinked.addNonScanCmd_cases (by rw [self, clean node mem]; rfl) fresh with
        ⟨denied, full⟩ | ⟨added, room⟩
      · rw [lists] at full
        rw [denied, disables]
        exact .full found mem fun room => full.elim room.1 room.2
      · rw [added, disables]
        cases activeQueue with
        | false => exact .pending found mem room
        | true => exact .active found mem room

namespace Represents

section

variable (represents : Represents pdev queue cancelling activating)
include represents

theorem setInUse (mem : node ∈ (queue.pdevList (.of isActive)).nodes)
    (mark : ∀ bits, (change bits).markedForActivation = bits.markedForActivation) :
    Represents pdev (queue.setInUse node change) cancelling activating :=
  ⟨represents.linked.setInUse, represents.tracked.setInUse represents.linked mem mark⟩

theorem unmarked_pending (mem : node ∈ (queue.pdevList .pending).nodes) :
    (queue.nodes node).cmdInUse.markedForActivation = false := by
  cases marked : (queue.nodes node).cmdInUse.markedForActivation with
  | false => rfl
  | true =>
    cases represents.linked.placed.apart mem (represents.tracked.marked node marked)

theorem flags_entries (clear : queue.blockingCmdActive = false) : ∀ entry ∈ queue.entries, entry.2 = false := by
  intro entry mem
  cases marked : entry.2 with
  | false => rfl
  | true =>
    have set := represents.tracked.booked.flagged.mpr ⟨entry, mem_append_left _ mem, marked⟩
    rw [clear] at set
    cases set

theorem bitmap_entries (empty : queue.vdevActiveCmdBitmap = ∅) : queue.entries ++ cancelling = [] := by
  cases all : queue.entries ++ cancelling with
  | nil => rfl
  | cons entry later =>
    have mem : entry.1 ∈ (queue.entries ++ cancelling).map Prod.fst := by
      rw [all]
      exact mem_map_of_mem (mem_cons_self ..)
    have booked := (represents.tracked.booked.exact entry.1).mpr mem
    rw [empty] at booked
    exact absurd booked (Finset.notMem_empty _)

theorem bitmap_flag (empty : queue.vdevActiveCmdBitmap = ∅) : queue.blockingCmdActive = false := by
  cases set : queue.blockingCmdActive with
  | false => rfl
  | true =>
    obtain ⟨entry, mem, _⟩ := represents.tracked.booked.flagged.mp set
    rw [represents.bitmap_entries empty] at mem
    cases mem

end

theorem remove (represents : Represents pdev queue cancelling activating)
    (mem : node ∈ (queue.pdevList (.of isActive)).nodes) (owner : (queue.nodes node).cmd.vdev = some vdev)
    (unmarked : (queue.nodes node).cmdInUse.markedForActivation = false) :
    Represents pdev ((queue.removedCmd isActive vdev node).releaseCmd node) cancelling activating ∧
      ((queue.removedCmd isActive vdev node).releaseCmd node).entries.Subperm queue.entries := by
  have held := represents.linked.removedCmd mem owner
  rw [held.entries_releaseCmd]
  cases isActive with
  | false =>
    have tracked := @Tracked.unlinkPending pdev queue node vdev cancelling activating
      represents.tracked represents.linked mem
    refine ⟨⟨held.releaseCmd, tracked.release held unmarked⟩, ?_⟩
    have same := @entries_unlinkPending pdev queue node vdev represents.linked mem
    change (queue.unlinkCmd false vdev node).entries.Subperm queue.entries
    rw [same]
  | true =>
    have tracked := represents.tracked.removeActive mem owner unmarked
    refine ⟨⟨held.releaseCmd, tracked.release held unmarked⟩, ?_⟩
    have order := @Tracked.entries_unlinkActive queue node vdev mem
    exact (sublist_cons_self _ _).subperm.trans order.symm.subperm

theorem dequeueCmd (represents : Represents pdev queue cancelling activating)
    (run : queue.dequeueCmd cmd isActive = (after, out)) :
    Represents pdev after cancelling activating ∧ after.entries.Subperm queue.entries := by
  unfold PdevQueue.dequeueCmd at run
  cases owner : cmd.vdev with
  | none =>
    rw [owner] at run
    cases run
    exact ⟨represents, .refl _⟩
  | some vdev =>
    rw [owner] at run
    dsimp only at run
    rcases @Linked.removeNonScanCmd_cases _ _ isActive _ _ _ represents.linked owner with
      ⟨_, absent⟩ | ⟨node, found, ⟨marked, kept⟩ | ⟨unmarked, removed⟩⟩
    · rw [absent] at run
      cases run
      exact ⟨represents, .refl _⟩
    · rw [kept] at run
      cases run
      obtain ⟨mem, _, _⟩ := represents.linked.findCmd_some found
      refine ⟨represents.setInUse mem fun _ => rfl, ?_⟩
      rw [entries_setInUse]
    · rw [removed] at run
      cases run
      obtain ⟨mem, ownerNode, _⟩ := represents.linked.findCmd_some found
      exact represents.remove mem ownerNode unmarked

theorem isActiveCmdAllowed_eq : ∃ waiting, (queue.isActiveCmdAllowed cmd vdev).1 =
      { queue with blockingCmdWaiting := waiting } ∧
    ((queue.isActiveCmdAllowed cmd vdev).2 = true → if cmd.isBlocking then queue.vdevActiveCmdBitmap = ∅
      else queue.blockingCmdActive = false ∧ vdev ∉ queue.vdevActiveCmdBitmap) := by
  unfold isActiveCmdAllowed isActiveNonScanCmdAllowed
  cases blocking : cmd.isBlocking with
  | true =>
    cases any : queue.anyVdevCmdActive with
    | true =>
      exact ⟨_, rfl, fun allowed => by cases allowed⟩
    | false =>
      exact ⟨_, rfl, fun _ => by simpa [anyVdevCmdActive] using any⟩
  | false =>
    rw [if_neg (by decide)]
    by_cases stopped : queue.blockingCmdActive = true ∨ queue.blockingCmdWaiting % 256 ≠ 0
    · rw [if_pos stopped]
      exact ⟨_, rfl, fun allowed => by cases allowed⟩
    · rw [if_neg stopped]
      refine ⟨_, rfl, fun allowed => ?_⟩
      rw [Bool.and_eq_true, decide_eq_true_iff] at allowed
      exact ⟨Bool.eq_false_iff.mpr fun set => stopped (.inl set), allowed.1⟩

theorem recount (represents : Represents pdev queue cancelling activating) :
    Represents pdev { queue with blockingCmdWaiting := waiting, queueDisable := disable } cancelling
      activating :=
  ⟨represents.linked.same (fun _ _ _ => rfl) rfl rfl,
    represents.tracked.frame rfl (fun _ _ => rfl) (fun _ => rfl) represents.tracked.clean rfl rfl (fun _ => rfl) rfl⟩

end Represents

structure Holding (pdev : SerPdev) (queue : PdevQueue) (cancelling : List (Nat × Bool))
    (activating : List Nat) (node : Nat) : Prop where
  linked : Linked pdev queue (some node)
  tracked : Tracked pdev queue cancelling activating
  unmarked : (queue.nodes node).cmdInUse.markedForActivation = false

namespace Holding

section

variable (holding : Holding pdev queue cancelling activating node)
include holding

theorem recount : Holding pdev { queue with queueDisable := disable } cancelling activating node :=
  ⟨holding.linked.same (fun _ _ _ => rfl) rfl rfl,
    holding.tracked.frame rfl (fun _ _ => rfl) (fun _ => rfl) holding.tracked.clean rfl rfl
      (fun _ => rfl) rfl, holding.unmarked⟩

theorem release : Represents pdev (queue.releaseCmd node) cancelling activating :=
  ⟨holding.linked.releaseCmd, holding.tracked.release holding.linked holding.unmarked⟩

theorem addPending (known : vdev ∈ pdev.vdevs) (owner : (queue.nodes node).cmd.vdev = some vdev) :
    Represents pdev (queue.addedCmd false vdev node) cancelling activating ∧
      (queue.addedCmd false vdev node).entries = queue.entries := by
  refine ⟨⟨holding.linked.addedCmd known owner, holding.tracked.addPending⟩, ?_⟩
  change (queue.linkCmd false vdev node).entries = queue.entries
  rw [linkCmd_eq]
  refine entries_congr ?_ fun _ _ => rfl
  dsimp only
  rw [update_elsewhere (by decide)]

theorem room (known : vdev ∈ pdev.vdevs) (free : vdev ∉ queue.vdevActiveCmdBitmap) :
    (queue.vdevList true vdev).nodes = [] ∧ (queue.vdevList true vdev).count ≠ (queue.vdevList true vdev).maxSize ∧
      (queue.pdevList .active).count ≠ (queue.pdevList .active).maxSize := by
  have booked := holding.tracked.booked
  have notEntry : vdev ∉ queue.entries.map Prod.fst := fun mem =>
    free ((booked.exact vdev).mpr (by rw [map_append]; exact mem_append_left _ mem))
  have empty : (queue.vdevList true vdev).nodes = [] := by
    apply eq_nil_iff_forall_not_mem.mpr
    intro other mem
    obtain ⟨inside, owner⟩ := holding.linked.member_vdevList.mp mem
    apply notEntry
    have entry : (queue.entry other).1 = vdev := by
      unfold entry
      rw [owner]
      rfl
    rw [← entry]
    exact mem_map_of_mem (entry_mem inside)
  refine ⟨empty, ?_, ?_⟩
  · rw [holding.linked.vdevCount, empty, holding.tracked.vdevMax]
    decide
  · have once := booked.once
    rw [map_append] at once
    have fewer : (vdev :: queue.entries.map Prod.fst).Subperm pdev.vdevs := by
      apply subperm_of_subset (nodup_cons.mpr ⟨notEntry, once.of_append_left⟩)
      intro other mem
      rcases mem_cons.mp mem with rfl | mem
      · exact known
      obtain ⟨entry, inside, rfl⟩ := mem_map.mp mem
      obtain ⟨other, home, rfl⟩ := mem_map.mp inside
      obtain ⟨owner, among, owned⟩ := holding.linked.owned true other home
      unfold entry
      rw [owned]
      exact among
    have len := fewer.length_le
    have max := holding.tracked.activeMax
    have count := holding.linked.count .active
    unfold entries at len
    rw [length_cons, length_map, length_map] at len
    omega

theorem addActive (known : vdev ∈ pdev.vdevs) (owner : (queue.nodes node).cmd.vdev = some vdev)
    (free : vdev ∉ queue.vdevActiveCmdBitmap)
    (single : (queue.nodes node).cmd.isBlocking = true → queue.blockingCmdActive = false) :
    Represents pdev ((queue.addedCmd true vdev node).setInUse node fun bits =>
        { bits with markedForActivation := true }) cancelling (node :: activating) ∧
      ((queue.addedCmd true vdev node).setInUse node fun bits =>
        { bits with markedForActivation := true }).entries.Perm
          (queue.entry node :: queue.entries) := by
  have linked := @addedCmd pdev queue true node vdev holding.linked known owner
  have tracked := holding.tracked.addActive owner free single
  have nodes : (queue.addedCmd true vdev node).nodes = queue.nodes := by
    change (queue.linkCmd true vdev node).nodes = _
    rw [linkCmd_eq]
  have mem : node ∈ ((queue.addedCmd true vdev node).pdevList .active).nodes := by
    change node ∈ ((queue.linkCmd true vdev node).pdevList (.of true)).nodes
    rw [linkCmd_eq]
    exact ends_perm.mem_iff.mpr (mem_cons_self ..)
  refine ⟨⟨linked.setInUse, tracked.activate linked mem ?_⟩, ?_⟩
  · rw [nodes]
    exact holding.unmarked
  · rw [entries_setInUse]
    exact Tracked.entries_addActive

end

end Holding

namespace Represents

theorem takePool (represents : Represents pdev queue cancelling activating)
    (mem : node ∈ (queue.pdevList .cmdPool).nodes) : Holding pdev (queue.taken node cmd) cancelling activating node ∧
      (queue.taken node cmd).entries = queue.entries ∧ ((queue.taken node cmd).nodes node).cmd = cmd := by
  obtain ⟨linked, self, others, lists⟩ := @Linked.taken pdev queue node cmd represents.linked mem
  have active : ((queue.taken node cmd).pdevList .active).nodes = (queue.pdevList .active).nodes :=
    congrArg QdfList.nodes (lists true)
  refine ⟨⟨linked, represents.tracked.takePool represents.linked mem, ?_⟩, ?_, by rw [self]⟩
  · rw [self, represents.tracked.clean node mem]
    rfl
  · apply entries_congr active
    intro other inside
    rw [others .active other (by rw [active]; exact inside)]

theorem enqueueCmd (represents : Represents pdev queue cancelling activating) (owner : cmd.vdev = some vdev)
    (known : vdev ∈ pdev.vdevs) (run : queue.enqueueCmd cmd vdev = (after, status, activate)) :
    Represents pdev after cancelling (activate.toList ++ activating) ∧ Changes queue after none := by
  rw [enqueueCmd_eq] at run
  by_cases disabled : vdev ∈ queue.queueDisable
  · rw [if_pos disabled] at run
    cases run
    exact ⟨represents, .leaves (.refl _)⟩
  rw [if_neg disabled] at run
  obtain ⟨waiting, counted, allowed⟩ := @isActiveCmdAllowed_eq queue vdev cmd
  generalize (queue.isActiveCmdAllowed cmd vdev).2 = activeQueue at run allowed
  rw [counted] at run
  have begun := @recount _ _ _ _ waiting queue.queueDisable represents
  have cases := @Linked.admission _ _ vdev cmd begun.linked begun.tracked.clean activeQueue
  rw [run] at cases
  cases cases with
  | present _ => exact ⟨begun, .leaves (.refl _)⟩
  | empty _ _ => exact ⟨begun, .leaves (.refl _)⟩
  | full _ mem _ =>
    obtain ⟨holding, entries, -⟩ := @takePool _ _ _ cmd _ _ begun mem
    refine ⟨holding.recount.release, .leaves ?_⟩
    rw [holding.recount.linked.entries_releaseCmd]
    exact (Perm.of_eq entries).subperm
  | pending _ mem _ =>
    obtain ⟨holding, entries, tookCmd⟩ := @takePool _ _ _ cmd _ _ begun mem
    obtain ⟨put, same⟩ := holding.addPending known (by rw [tookCmd, owner])
    exact ⟨put.recount, .leaves (Perm.of_eq (same.trans entries)).subperm⟩
  | active _ mem _ =>
    obtain ⟨holding, entries, tookCmd⟩ := @takePool _ _ _ cmd _ _ begun mem
    have permitted := allowed rfl
    rw [← tookCmd] at permitted
    split at permitted
    · have nothing := represents.bitmap_entries permitted
      obtain ⟨put, more⟩ := holding.addActive known (by rw [tookCmd, owner])
        (fun mem => Finset.notMem_empty _ (permitted ▸ mem)) fun _ => represents.bitmap_flag permitted
      rw [entries] at more
      have none := (append_eq_nil_iff.mp nothing).1
      refine ⟨put.recount, .request _ more (fun _ => none) ?_⟩
      rw [none]
      exact fun other mem => absurd mem (by simp)
    · rename_i blocking
      obtain ⟨put, more⟩ := holding.addActive known (by rw [tookCmd, owner]) permitted.2
        fun set => absurd set blocking
      rw [entries] at more
      exact ⟨put.recount, .request _ more (fun set => absurd set blocking) (represents.flags_entries permitted.1)⟩

end Represents

end KernelModules.Serialization

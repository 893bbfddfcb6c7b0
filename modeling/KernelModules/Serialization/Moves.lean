import KernelModules.Serialization.Sections

namespace KernelModules.Serialization

open Data PdevQueue

/-- The queues differ in the marks of pending nodes only, and not in those for activation. -/
structure Remarked (queue after : PdevQueue) : Prop where
  pdevList : after.pdevList = queue.pdevList
  vdevList : after.vdevList = queue.vdevList
  bitmap : after.vdevActiveCmdBitmap = queue.vdevActiveCmdBitmap
  flag : after.blockingCmdActive = queue.blockingCmdActive
  cmds : ∀ node, (after.nodes node).cmd = (queue.nodes node).cmd
  marks : ∀ node, (after.nodes node).cmdInUse.markedForActivation = (queue.nodes node).cmdInUse.markedForActivation
  others : ∀ node, node ∉ (queue.pdevList .pending).nodes → after.nodes node = queue.nodes node

variable {queue : PdevQueue} {isActive : Bool} {node vdev : Nat}

namespace Remarked

theorem refl : Remarked queue queue :=
  ⟨rfl, rfl, rfl, rfl, fun _ => rfl, fun _ => rfl, fun _ _ => rfl⟩

theorem trans (first : Remarked queue after) (second : Remarked after later) : Remarked queue later := by
  constructor
  · rw [second.pdevList, first.pdevList]
  · rw [second.vdevList, first.vdevList]
  · rw [second.bitmap, first.bitmap]
  · rw [second.flag, first.flag]
  · exact fun node => (second.cmds node).trans (first.cmds node)
  · exact fun node => (second.marks node).trans (first.marks node)
  · intro node absent
    rw [second.others node (by rw [first.pdevList]; exact absent), first.others node absent]

theorem setInUse (member : node ∈ (queue.pdevList .pending).nodes)
    (mark : ∀ bits, (change bits).markedForActivation = bits.markedForActivation) :
    Remarked queue (queue.setInUse node change) := by
  refine ⟨rfl, rfl, rfl, rfl, fun _ => cmd_setInUse, fun other => ?_, fun other absent => ?_⟩
  · unfold PdevQueue.setInUse
    dsimp only
    by_cases same : other = node
    · rw [same, Function.update_self]
      exact mark _
    · rw [Function.update_of_ne same]
  · exact Function.update_of_ne (fun same => absent (by rw [same]; exact member)) _ _

theorem vdevCmdActive (remarked : Remarked queue after) : after.vdevCmdActive node = queue.vdevCmdActive node := by
  unfold PdevQueue.vdevCmdActive
  rw [remarked.cmds, remarked.bitmap]

theorem entries (remarked : Remarked queue after) : after.entries = queue.entries :=
  entries_congr (by rw [remarked.pdevList]) fun node _ => remarked.cmds node

theorem entry (remarked : Remarked queue after) : after.entry node = queue.entry node := by
  unfold PdevQueue.entry
  rw [remarked.cmds]

end Remarked

theorem Represents.remarked (represents : Represents pdev queue cancelling activating)
    (remarked : Remarked queue after) : Represents pdev after cancelling activating := by
  refine ⟨represents.linked.same (fun node _ _ => by rw [remarked.cmds]) remarked.pdevList
    remarked.vdevList, represents.tracked.frame (by rw [remarked.pdevList])
      (fun node _ => remarked.cmds node) remarked.marks ?_ remarked.bitmap remarked.flag
      (fun vdev => by rw [remarked.vdevList]) (by rw [remarked.pdevList])⟩
  intro node inside
  rw [remarked.pdevList] at inside
  rw [remarked.others node fun pending => by cases represents.linked.placed.apart inside pending]
  exact represents.tracked.clean node inside

theorem listNext_mem {list : List Nat} (found : listNext list node = some other) : other ∈ list := by
  induction list with
  | nil => cases found
  | cons first later ih =>
    unfold listNext at found
    by_cases here : first = node
    · rw [if_pos here] at found
      exact List.mem_cons_of_mem _ (List.mem_of_mem_head? found)
    · rw [if_neg here] at found
      exact List.mem_cons_of_mem _ (ih found)

def Pickable (queue : PdevQueue) (pick : Option Nat) : Prop :=
  ∀ node, pick = some node → node ∈ (queue.pdevList .pending).nodes ∧ queue.vdevCmdActive node = false

theorem Pickable.remarked (pickable : Pickable after pick) (remarked : Remarked queue after) : Pickable queue pick := by
  intro node picked
  obtain ⟨member, free⟩ := pickable node picked
  rw [remarked.pdevList] at member
  rw [remarked.vdevCmdActive] at free
  exact ⟨member, free⟩

theorem pickable_none : Pickable queue none :=
  fun _ picked => by cases picked

section

variable (member : node ∈ (queue.pdevList .pending).nodes)
include member

theorem pickable_some (free : ¬queue.vdevCmdActive node = true) : Pickable queue (some node) := by
  intro other picked
  cases picked
  exact ⟨member, Bool.eq_false_iff.mpr free⟩

theorem moveLoop_vdev : Remarked queue (moveLoop (.vdev false vdev) qsize node queue).1 ∧
      Pickable queue (moveLoop (.vdev false vdev) qsize node queue).2 := by
  unfold moveLoop
  by_cases stops : queue.vdevCmdActive node = true ∨ (queue.nodes node).cmdInUse.markedForMovement = true
  · rw [if_pos stops]
    exact ⟨.refl, pickable_none⟩
  · rw [if_neg stops]
    exact ⟨.refl, pickable_some member fun active => stops (.inl active)⟩

theorem moveLoop_pdev : Remarked queue (moveLoop (.pdev .pending) qsize node queue).1 ∧
      Pickable queue (moveLoop (.pdev .pending) qsize node queue).2 := by
  induction qsize generalizing node queue with
  | zero =>
    unfold moveLoop
    by_cases blocked : (queue.nodes node).cmd.isBlocking = true ∧ queue.anyVdevCmdActive = true
    · rw [if_pos blocked]
      exact ⟨.refl, pickable_none⟩
    rw [if_neg blocked]
    by_cases active : queue.vdevCmdActive node = true
    · rw [if_pos active]
      exact ⟨@Remarked.setInUse _ _ (fun bits => { bits with markedForMovement := false }) member
        fun _ => rfl, pickable_none⟩
    · rw [if_neg active]
      exact ⟨.refl, pickable_some member active⟩
  | succ qsize ih =>
    unfold moveLoop
    by_cases blocked : (queue.nodes node).cmd.isBlocking = true ∧ queue.anyVdevCmdActive = true
    · rw [if_pos blocked]
      exact ⟨.refl, pickable_none⟩
    rw [if_neg blocked]
    cases peeked : listNext (queue.list (.pdev .pending)).nodes node with
    | none => exact ⟨.refl, pickable_none⟩
    | some next =>
      have nextMember : next ∈ (queue.pdevList .pending).nodes := listNext_mem peeked
      dsimp only
      have marked := @Remarked.setInUse queue next
        (fun bits => { bits with markedForMovement := true }) nextMember fun _ => rfl
      by_cases active : queue.vdevCmdActive node = true
      · rw [if_pos active]
        have cleared := marked.trans (@Remarked.setInUse _ node
          (fun bits => { bits with markedForMovement := false }) member fun _ => rfl)
        obtain ⟨remarked, pickable⟩ := ih (by rw [cleared.pdevList]; exact nextMember)
        exact ⟨cleared.trans remarked, pickable.remarked cleared⟩
      · rw [if_neg active]
        exact ⟨marked, pickable_some member active⟩

end

theorem Linked.movePick (linked : Linked pdev queue held)
    (kind : which = .pdev .pending ∨ ∃ vdev, which = .vdev false vdev) :
    Remarked queue (queue.movePick which).1 ∧ Pickable queue (queue.movePick which).2 := by
  unfold PdevQueue.movePick
  split
  · rename_i qsize node later count nodes
    have member : node ∈ (queue.list which).nodes := by
      rw [nodes]
      exact List.mem_cons_self ..
    rcases kind with rfl | ⟨vdev, rfl⟩
    · exact moveLoop_pdev member
    · exact moveLoop_vdev (linked.member_vdevList.mp member).1
  · exact ⟨.refl, pickable_none⟩

theorem vdevCmdActive_free (owner : (queue.nodes node).cmd.vdev = some vdev)
    (free : queue.vdevCmdActive node = false) : vdev ∉ queue.vdevActiveCmdBitmap := by
  unfold vdevCmdActive at free
  rw [owner] at free
  exact of_decide_eq_false free

theorem moveLoop_waiting : (moveLoop which qsize node queue).1.blockingCmdWaiting = queue.blockingCmdWaiting := by
  induction qsize generalizing node queue with
  | zero =>
    unfold moveLoop
    cases which with
    | vdev _ _ => dsimp only; split <;> rfl
    | pdev _ => dsimp only; split <;> [rfl; (split <;> rfl)]
  | succ qsize ih =>
    unfold moveLoop
    cases which with
    | vdev _ _ => dsimp only; split <;> rfl
    | pdev _ =>
      dsimp only
      split
      · rfl
      · split
        · rfl
        · split
          · exact ih
          · rfl

theorem movePick_waiting : (queue.movePick which).1.blockingCmdWaiting = queue.blockingCmdWaiting := by
  unfold PdevQueue.movePick
  split
  · exact moveLoop_waiting
  · rfl

/-- What a move leaves: other marks, or a command that has become active as well. -/
inductive Movement (pdev : SerPdev) (queue : PdevQueue) (which : SerQueue) : PdevQueue × Option Nat → Prop where
  | marks {after : PdevQueue} (remarked : Remarked queue after)
      (waits : after.blockingCmdWaiting = queue.blockingCmdWaiting) : Movement pdev queue which (after, none)
  | one {picked : PdevQueue} {node vdev : Nat} (remarked : Remarked queue picked)
      (waits : picked.blockingCmdWaiting = queue.blockingCmdWaiting) (found : queue.moveFind which = some node)
      (mem : node ∈ (picked.pdevList .pending).nodes) (owner : (picked.nodes node).cmd.vdev = some vdev)
      (known : vdev ∈ pdev.vdevs) (free : vdev ∉ queue.vdevActiveCmdBitmap)
      (unmarked : (picked.nodes node).cmdInUse.markedForActivation = false) (disable : Finset Nat) :
      Movement pdev queue which ({ ((picked.removedCmd false vdev node).addedCmd true vdev node).setInUse node
        fun bits => { bits with markedForActivation := true } with
        blockingCmdWaiting := if (queue.nodes node).cmd.isBlocking then (queue.blockingCmdWaiting + 65535) % 65536
          else queue.blockingCmdWaiting
        queueDisable := disable }, some node)

theorem Linked.remarked (linked : Linked pdev queue held) (remarked : Remarked queue after) : Linked pdev after held :=
  linked.same (fun node _ _ => by rw [remarked.cmds]) remarked.pdevList remarked.vdevList

theorem Linked.movement (linked : Linked pdev queue none) (kind : which = .pdev .pending ∨ ∃ vdev, which = .vdev false vdev)
    (room : ∀ picked node vdev, Remarked queue picked → node ∈ (picked.pdevList .pending).nodes →
      (picked.nodes node).cmd.vdev = some vdev → (picked.nodes node).cmdInUse.markedForActivation = false →
      vdev ∈ pdev.vdevs → vdev ∉ queue.vdevActiveCmdBitmap →
      ((picked.removedCmd false vdev node).vdevList true vdev).nodes = [] ∧
        (picked.removedCmd false vdev node).Room true vdev) :
    Movement pdev queue which (queue.moveSection which) := by
  obtain ⟨remarked, pickable⟩ := linked.movePick kind
  have waits := @movePick_waiting queue which
  unfold PdevQueue.moveSection
  cases pick : queue.movePick which with
  | mk picked choice =>
  rw [pick] at remarked pickable waits
  cases choice with
  | none => exact .marks remarked waits
  | some node =>
    obtain ⟨member, inactive⟩ := pickable node rfl
    obtain ⟨vdev, known, owner⟩ := linked.owned false node member
    have free := vdevCmdActive_free owner inactive
    dsimp only
    unfold PdevQueue.movePicked
    rw [remarked.cmds, owner]
    dsimp only
    rcases @Linked.removeNonScanCmd_cases _ _ false _ _ _ (linked.remarked remarked) owner with
      ⟨_, absent⟩ | ⟨cmdList, found, ⟨_, kept⟩ | ⟨unmarked, removed⟩⟩
    · rw [absent]
      exact .marks remarked waits
    · rw [kept]
      obtain ⟨pending, _, _⟩ := (linked.remarked remarked).findCmd_some found
      rw [remarked.pdevList] at pending
      refine .marks (remarked.trans (.setInUse ?_ fun _ => rfl)) waits
      rw [remarked.pdevList]
      exact pending
    obtain ⟨pending, foundOwner, _⟩ := (linked.remarked remarked).findCmd_some found
    have moved : queue.moveFind which = some cmdList := by
      unfold PdevQueue.moveFind
      rw [pick]
      dsimp only
      rw [owner]
      exact found
    obtain ⟨empty, fits⟩ := room picked cmdList vdev remarked pending foundOwner unmarked known free
    have removedLinked : Linked pdev (picked.removedCmd false vdev cmdList) (some cmdList) :=
      (linked.remarked remarked).removedCmd pending foundOwner
    rw [removed]
    dsimp only
    rcases removedLinked.addNonScanCmd_cases unmarked (by
        rw [empty]
        exact fun other inside => absurd inside (by simp)) with ⟨_, full⟩ | ⟨added, _⟩
    · exact absurd fits fun room => full.elim room.1 room.2
    rw [added]
    simp only [reduceIte]
    have same : ((picked.removedCmd false vdev cmdList).addedCmd true vdev cmdList).blockingCmdWaiting =
        queue.blockingCmdWaiting ∧ (((picked.removedCmd false vdev cmdList).addedCmd true vdev cmdList).nodes
          cmdList).cmd = (queue.nodes cmdList).cmd := by
      change (PdevQueue.linkCmd _ true vdev cmdList).blockingCmdWaiting = _ ∧
        ((PdevQueue.linkCmd _ true vdev cmdList).nodes cmdList).cmd = _
      rw [Linked.linkCmd_eq]
      exact ⟨waits, remarked.cmds cmdList⟩
    have one := Movement.one remarked waits moved pending foundOwner known free unmarked
      (disabledBy (picked.removedCmd false vdev cmdList) cmdList vdev)
    rw [← same.1, ← same.2] at one
    split
    · rename_i blocking
      rw [cmd_setInUse] at blocking
      rw [if_pos blocking] at one
      exact one
    · rename_i blocking
      rw [cmd_setInUse] at blocking
      rw [if_neg blocking] at one
      exact one

theorem Represents.moveSection (represents : Represents pdev queue cancelling activating)
    (kind : which = .pdev .pending ∨ ∃ vdev, which = .vdev false vdev)
    (single : ∀ node, queue.moveFind which = some node →
      (queue.nodes node).cmd.isBlocking = true → queue.blockingCmdActive = false)
    (run : queue.moveSection which = (after, activate)) :
    Represents pdev after cancelling (activate.toList ++ activating) ∧ Changes queue after (queue.moveFind which) := by
  have holding : ∀ {picked node vdev}, Remarked queue picked → node ∈ (picked.pdevList .pending).nodes →
      (picked.nodes node).cmd.vdev = some vdev → (picked.nodes node).cmdInUse.markedForActivation = false →
      Holding pdev (picked.removedCmd false vdev node) cancelling activating node :=
    fun remarked pending owner unmarked => ⟨(represents.remarked remarked).linked.removedCmd pending owner,
      (represents.remarked remarked).tracked.unlinkPending (represents.remarked remarked).linked pending, unmarked⟩
  have cases := represents.linked.movement kind fun picked node vdev remarked pending owner unmarked known free =>
    (holding remarked pending owner unmarked).room known (remarked.bitmap ▸ free)
  rw [run] at cases
  cases cases with
  | marks remarked _ => exact ⟨represents.remarked remarked, .leaves (by rw [remarked.entries])⟩
  | @one picked node vdev remarked _ found pending owner known free unmarked _ =>
    have held := holding remarked pending owner unmarked
    obtain ⟨put, more⟩ := held.addActive known owner (remarked.bitmap ▸ free) fun set =>
      remarked.flag.trans (single node found ((congrArg (·.isBlocking) (remarked.cmds node)).symm.trans set))
    have entries : (picked.removedCmd false vdev node).entries = queue.entries :=
      ((represents.remarked remarked).linked.entries_unlinkPending pending).trans remarked.entries
    have entry : (picked.removedCmd false vdev node).entry node = queue.entry node := remarked.entry
    rw [entries, entry] at more
    exact ⟨put.recount, .moved node found more⟩

theorem Linked.getCmdFromQueue (linked : Linked pdev queue held)
    (cursor : ∀ node, nnode = some node → node ∈ (queue.pdevList place).nodes) :
    ∃ next, queue.getCmdFromQueue place nnode = some next ∧
      ∀ node, next = some node → node ∈ (queue.pdevList place).nodes := by
  unfold PdevQueue.getCmdFromQueue
  cases nnode with
  | none => exact ⟨_, rfl, fun node found => List.mem_of_mem_head? found⟩
  | some node =>
    have member := cursor node rfl
    dsimp only
    cases home : [PdevList.cmdPool, .active, .pending].find? fun list =>
        node ∈ (queue.pdevList list).nodes with
    | none =>
      have absent := List.find?_eq_none.mp home place (by cases place <;> decide)
      exact absurd member (by simpa using absent)
    | some list =>
      have inside := List.find?_some home
      rw [decide_eq_true_iff] at inside
      have same := linked.placed.apart inside member
      subst same
      dsimp only
      cases next : PdevQueue.listNext (queue.pdevList list).nodes node with
      | none => exact ⟨none, if_pos rfl, fun node found => by cases found⟩
      | some other =>
        refine ⟨some other, rfl, fun node found => ?_⟩
        cases found
        exact listNext_mem next

def CancelOutcome.leaves : CancelOutcome → PdevQueue
  | .done queue => queue
  | .callback queue .. => queue

def CancelOutcome.opened (isActive : Bool) : CancelOutcome → List (Nat × Bool)
  | .done _ => []
  | .callback _ _ _ vdev isBlocking => if isActive then [(vdev, isBlocking)] else []

theorem Represents.cancelOut (represents : Represents pdev queue cancelling activating)
    (member : node ∈ (queue.pdevList (.of isActive)).nodes) (owner : (queue.nodes node).cmd.vdev = some vdev)
    (unmarked : (queue.nodes node).cmdInUse.markedForActivation = false) :
    Represents pdev ((queue.unlinkCmd isActive vdev node).releaseCmd node)
        ((if isActive then [(vdev, (queue.nodes node).cmd.isBlocking)] else []) ++ cancelling) activating ∧
      ((queue.unlinkCmd isActive vdev node).releaseCmd node).entries.Subperm queue.entries := by
  have linked := represents.linked.unlinkCmd member owner
  rw [linked.entries_releaseCmd]
  cases isActive with
  | false =>
    have tracked := @Tracked.unlinkPending _ _ _ vdev _ _ represents.tracked represents.linked member
    refine ⟨⟨linked.releaseCmd, tracked.release linked unmarked⟩, ?_⟩
    rw [represents.linked.entries_unlinkPending member]
  | true =>
    have tracked := represents.tracked.openCancel member owner unmarked
    refine ⟨⟨linked.releaseCmd, tracked.release linked unmarked⟩, ?_⟩
    have order := @Tracked.entries_unlinkActive queue node vdev member
    exact (List.sublist_cons_self _ _).subperm.trans order.symm.subperm

/-- Where the loop stops: done, or with a command taken out; `keeps` holds up to there. -/
theorem cancelLoop_cases (keeps : PdevQueue → Prop) (linked : ∀ queue, keeps queue → Linked pdev queue none)
    (pending : ∀ queue node, keeps queue → node ∈ (queue.pdevList .pending).nodes →
      (queue.nodes node).cmdInUse.markedForActivation = false)
    (marks : ∀ queue node, keeps queue → node ∈ (queue.pdevList (.of isActive)).nodes →
      keeps (queue.setInUse node fun bits => { bits with activeMarkedForCancel := true }))
    (kept : keeps queue) (cursor : ∀ node, nnode = some node → node ∈ (queue.pdevList (.of isActive)).nodes)
    (run : cancelLoop req isActive timerFound qsize pnode nnode queue = some out) :
    (∃ after, keeps after ∧ out = .done after) ∨ ∃ after node vdev pnode qsize, keeps after ∧
      node ∈ (after.pdevList (.of isActive)).nodes ∧ (after.nodes node).cmd.vdev = some vdev ∧
      (after.nodes node).cmdInUse.markedForActivation = false ∧
      out = .callback ((after.unlinkCmd isActive vdev node).releaseCmd node) pnode qsize vdev
        (after.nodes node).cmd.isBlocking := by
  induction qsize generalizing queue pnode nnode with
  | zero =>
    cases run
    exact .inl ⟨_, kept, rfl⟩
  | succ qsize ih =>
    unfold cancelLoop at run
    by_cases empty : (queue.pdevList (.of isActive)).nodes = []
    · rw [if_pos empty] at run
      cases run
      exact .inl ⟨_, kept, rfl⟩
    rw [if_neg empty] at run
    obtain ⟨next, found, inside⟩ := (linked queue kept).getCmdFromQueue cursor
    rw [found] at run
    cases next with
    | none =>
      cases run
      exact .inl ⟨_, kept, rfl⟩
    | some node =>
      have member := inside node rfl
      dsimp only at run
      by_cases skips : queue.cancelSkips req node = true
      · rw [if_pos skips] at run
        refine ih kept (fun other same => ?_) run
        cases same
        exact member
      rw [if_neg skips] at run
      by_cases undefined : req.pdev = true ∧ (queue.nodes node).cmd.vdev = none
      · rw [if_pos undefined] at run
        cases run
      rw [if_neg undefined] at run
      by_cases marked : isActive = true ∧ (queue.nodes node).cmdInUse.markedForActivation = true
      · rw [if_pos marked] at run
        exact ih (marks queue node kept member) (fun other same => by cases same; exact member) run
      rw [if_neg marked] at run
      by_cases untimed : isActive = true ∧ ¬timerFound = true
      · rw [if_pos untimed] at run
        cases run
        exact .inl ⟨_, kept, rfl⟩
      rw [if_neg untimed] at run
      cases owner : (queue.nodes node).cmd.vdev with
      | none =>
        rw [owner] at run
        cases run
      | some vdev =>
        rw [owner] at run
        dsimp only at run
        have mem := (linked queue kept).member_vdevList.mpr ⟨member, owner⟩
        have nonempty : ¬((queue.removeNode (.pdev (.of isActive)) node).vdevList
            isActive vdev).nodes = [] := fun none => by
          change (queue.vdevList isActive vdev).nodes = [] at none
          rw [none] at mem
          cases mem
        rw [if_neg nonempty] at run
        cases run
        refine .inr ⟨queue, node, vdev, pnode, qsize, kept, member, owner, ?_, rfl⟩
        cases isActive with
        | false => exact pending queue node kept member
        | true => exact Bool.eq_false_iff.mpr fun set => marked ⟨rfl, set⟩

theorem Represents.cancelLoop (represents : Represents pdev queue cancelling activating)
    (cursor : ∀ node, nnode = some node → node ∈ (queue.pdevList (.of isActive)).nodes)
    (run : cancelLoop request isActive timerFound qsize pnode nnode queue = some outcome) :
    Represents pdev outcome.leaves (outcome.opened isActive ++ cancelling) activating ∧
      outcome.leaves.entries.Subperm queue.entries := by
  rcases cancelLoop_cases (fun after => Represents pdev after cancelling activating ∧
      after.entries = queue.entries) (fun _ kept => kept.1.linked)
    (fun _ _ kept member => kept.1.unmarked_pending member)
    (fun _ _ kept member => ⟨kept.1.setInUse member fun _ => rfl, entries_setInUse.trans kept.2⟩)
    ⟨represents, rfl⟩ cursor run with
    ⟨after, kept, rfl⟩ | ⟨after, node, vdev, _, _, kept, member, owner, unmarked, rfl⟩
  · exact ⟨kept.1, kept.2 ▸ .refl _⟩
  · rw [← kept.2]
    exact kept.1.cancelOut member owner unmarked

end KernelModules.Serialization

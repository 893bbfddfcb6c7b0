import KernelModules.Serialization.Moves

namespace KernelModules.Serialization

open Data Serialization

namespace Frame

/-- The command that the frame has taken out of the active list and not yet out of the flags. -/
def cancelling : Frame → List (Nat × Bool)
  | .cancelCallback _ isActive _ _ vdev isBlocking => if isActive then [(vdev, isBlocking)] else []
  | _ => []

def starting : Frame → List Nat
  | .activating node => [node]
  | _ => []

def WellFormed (pdev : SerPdev) : Frame → Prop
  | .request cmd vdev => cmd.vdev = some vdev ∧ vdev ∈ pdev.vdevs
  | _ => True

def picks (queue : PdevQueue) : Frame → Option Nat
  | .move vdev blockingCmdRemoved => queue.moveFind (queue.moveLookup vdev blockingCmdRemoved)
  | .moveOn vdevQueueLookup =>
    if vdevQueueLookup ∨ queue.blockingCmdActive then none else queue.moveFind (.pdev .pending)
  | _ => none

/-- A cancel that goes on behind a callback finds the command that it stood at in the queue that it
walks. -/
def ResumesInList (queue : PdevQueue) : Frame → Prop
  | .cancelCallback asked isActive pnode qsize _ _ =>
    (asked.vdev = none ∧ ¬asked.pdev) ∨ qsize = 0 ∨ (queue.pdevList (.of isActive)).nodes = [] ∨
      ∀ node ∈ pnode, node ∈ (queue.pdevList (.of isActive)).nodes
  | _ => True

def PicksUnblocked (queue : PdevQueue) (frame : Frame) : Prop :=
  ∀ node ∈ frame.picks queue, (queue.nodes node).cmd.isBlocking = true → queue.blockingCmdActive = false

end Frame

variable {pdev : SerPdev} {queue after : PdevQueue} {cancelling : List (Nat × Bool)} {activating : List Nat}
  {frame : Frame} {left : List Frame}

namespace Represents

theorem perm (represents : Represents pdev queue cancelling activating)
    (same : cancelling.Perm others) (starts : activating.Perm started) : Represents pdev queue others started := by
  refine ⟨represents.linked, ?_⟩
  constructor
  · exact represents.tracked.booked.perm (same.append_left _)
  · exact represents.tracked.clean
  · exact represents.tracked.marked
  · exact starts.nodup_iff.mp represents.tracked.once
  · exact fun node mem => represents.tracked.live node (starts.mem_iff.mpr mem)
  · exact represents.tracked.vdevMax
  · exact represents.tracked.activeMax

theorem cancelled (represents : Represents pdev queue
      ((if isActive then [(vdev, isBlocking)] else []) ++ cancelling) activating) :
    Represents pdev (queue.cancelled isActive vdev isBlocking) cancelling activating ∧
      (queue.cancelled isActive vdev isBlocking).entries = queue.entries ∧
      (queue.cancelled isActive vdev isBlocking).pdevList = queue.pdevList := by
  cases isActive with
  | true =>
    exact ⟨⟨represents.linked.same (fun _ _ _ => rfl) rfl rfl, represents.tracked.closeCancel⟩, rfl, rfl⟩
  | false =>
    have counted : ∃ waiting, queue.cancelled false vdev isBlocking =
        { queue with blockingCmdWaiting := waiting } := by
      cases isBlocking with
      | true => exact ⟨_, rfl⟩
      | false => exact ⟨_, rfl⟩
    obtain ⟨waiting, counted⟩ := counted
    rw [counted]
    exact ⟨represents.recount, rfl, rfl⟩

def Leaves (pdev : SerPdev) (cancelling : List (Nat × Bool)) (activating : List Nat)
    (after : PdevQueue) (left : List Frame) : Prop :=
  Represents pdev after (left.flatMap Frame.cancelling ++ cancelling)
      (left.flatMap Frame.starting ++ activating) ∧
    ∀ frame ∈ left, frame.WellFormed pdev

theorem cancelSection (kept : ∀ one, out = some one →
      Represents pdev one.leaves (one.opened isActive ++ cancelling) activating ∧
        one.leaves.entries.Subperm queue.entries) (run : cancelSection request isActive out = some (after, left)) :
    Leaves pdev cancelling activating after left ∧ after.entries.Subperm queue.entries := by
  cases out with
  | none => cases run
  | some one =>
    obtain ⟨represents, fewer⟩ := kept one rfl
    cases one with
    | done queue =>
      cases run
      cases isActive with
      | true => exact ⟨⟨represents, by simp [Frame.WellFormed]⟩, fewer⟩
      | false => exact ⟨⟨represents, fun _ absent => by cases absent⟩, fewer⟩
    | callback queue pnode qsize vdev isBlocking =>
      cases run
      refine ⟨⟨?_, by simp [Frame.WellFormed]⟩, fewer⟩
      rw [List.flatMap_cons, List.flatMap_nil, List.append_nil]
      exact represents

section

variable (represents : Represents pdev queue cancelling activating)
include represents

theorem resumeLoop (cursor : qsize = 0 ∨ (queue.pdevList (.of isActive)).nodes = [] ∨
      ∀ node ∈ pnode, node ∈ (queue.pdevList (.of isActive)).nodes)
    (found : queue.cancelLoop request isActive fine qsize pnode pnode = some one) :
    Represents pdev one.leaves (one.opened isActive ++ cancelling) activating ∧
      one.leaves.entries.Subperm queue.entries := by
  rcases cursor with rfl | empty | inside
  · cases found
    exact ⟨represents, .refl _⟩
  · cases qsize with
    | zero =>
      cases found
      exact ⟨represents, .refl _⟩
    | succ qsize =>
      unfold PdevQueue.cancelLoop at found
      rw [if_pos empty] at found
      cases found
      exact ⟨represents, .refl _⟩
  · exact represents.cancelLoop inside found

theorem dequeueSection (run : Serialization.dequeueSection queue cmd isActive = (after, left)) :
    Leaves pdev cancelling activating after left ∧ after.entries.Subperm queue.entries := by
  unfold Serialization.dequeueSection at run
  cases taken : queue.dequeueCmd cmd isActive with
  | mk dequeued out =>
  obtain ⟨kept, fewer⟩ := represents.dequeueCmd taken
  rw [taken] at run
  cases out with
  | none =>
    cases run
    exact ⟨⟨kept, by simp⟩, fewer⟩
  | some moved =>
    cases run
    refine ⟨⟨?_, ?_⟩, fewer⟩
    · cases isActive <;> exact kept
    · cases isActive <;> simp [Frame.WellFormed]

theorem moveFrames (kind : which = .pdev .pending ∨ ∃ vdev, which = .vdev false vdev)
    (single : ∀ node, queue.moveFind which = some node →
      (queue.nodes node).cmd.isBlocking = true → queue.blockingCmdActive = false)
    (run : Serialization.moveFrames queue which = (after, left)) :
    Leaves pdev cancelling activating after left ∧ Changes queue after (queue.moveFind which) := by
  unfold Serialization.moveFrames at run
  cases moved : queue.moveSection which with
  | mk reached activate =>
  obtain ⟨kept, changes⟩ := represents.moveSection kind single moved
  rw [moved] at run
  cases activate with
  | none =>
    cases run
    exact ⟨⟨kept, by simp⟩, changes⟩
  | some node =>
    cases run
    exact ⟨⟨kept, by simp [Frame.WellFormed]⟩, changes⟩

end

theorem moveLookup_kind : queue.moveLookup owner blockingCmdRemoved = .pdev .pending ∨
      ∃ vdev, queue.moveLookup owner blockingCmdRemoved = .vdev false vdev := by
  unfold PdevQueue.moveLookup
  cases owner with
  | none => exact .inl rfl
  | some vdev =>
    dsimp only
    split
    · exact .inr ⟨vdev, rfl⟩
    · exact .inl rfl

theorem runFrame (represents : Represents pdev queue (frame.cancelling ++ cancelling) (frame.starting ++ activating))
    (wellFormed : frame.WellFormed pdev) (resumes : frame.ResumesInList queue)
    (unblocked : frame.PicksUnblocked queue) (run : runFrame queue frame fine = some (after, left)) :
    Leaves pdev cancelling activating after left ∧ Changes queue after (frame.picks queue) := by
  have loop : ∀ {request isActive timerFound qsize}, Represents pdev queue cancelling activating →
      ∀ one, queue.cancelLoop request isActive timerFound qsize none none = some one →
        Represents pdev one.leaves (one.opened isActive ++ cancelling) activating ∧
          one.leaves.entries.Subperm queue.entries := fun represents one found =>
    represents.cancelLoop (fun _ absent => by cases absent) found
  cases frame with
  | request cmd vdev =>
    cases asked : queue.enqueueCmd cmd vdev with
    | mk reached rest =>
    obtain ⟨kept, changes⟩ := represents.enqueueCmd wellFormed.1 wellFormed.2 asked
    unfold runFrame at run
    dsimp only at run
    rw [asked] at run
    cases run
    refine ⟨⟨?_, ?_⟩, changes⟩
    · cases activate : rest.2 with
      | none =>
        rw [activate] at kept
        exact kept
      | some node =>
        rw [activate] at kept
        exact kept
    · intro frame member
      obtain ⟨node, _, rfl⟩ := List.mem_map.mp member
      trivial
  | activating node =>
    cases run
    have settled := represents.tracked.settle represents.linked
    refine ⟨⟨⟨represents.linked.setInUse, settled⟩, by simp [Frame.WellFormed]⟩, .leaves ?_⟩
    rw [entries_setInUse]
  | activated node failed =>
    unfold runFrame at run
    dsimp only at run
    split at run
    · obtain ⟨kept, fewer⟩ := represents.dequeueSection (Option.some.inj run)
      exact ⟨kept, .leaves fewer⟩
    · split at run
      · obtain ⟨kept, fewer⟩ := cancelSection (loop represents) run
        exact ⟨kept, .leaves fewer⟩
      · cases run
        exact ⟨⟨represents, by simp⟩, .leaves (.refl _)⟩
  | dequeue cmd activeCmd | timedOut cmd =>
    obtain ⟨kept, fewer⟩ := represents.dequeueSection (Option.some.inj run)
    exact ⟨kept, .leaves fewer⟩
  | timeout cmd =>
    unfold runFrame at run
    dsimp only at run
    cases owner : cmd.vdev with
    | none =>
      rw [owner] at run
      cases run
      exact ⟨⟨represents, by simp⟩, .leaves (.refl _)⟩
    | some vdev =>
      rw [owner] at run
      cases run
      split
      · exact ⟨⟨represents, by simp [Frame.WellFormed]⟩, .leaves (.refl _)⟩
      · exact ⟨⟨represents, by simp⟩, .leaves (.refl _)⟩
  | released =>
    cases run
    exact ⟨⟨represents, by simp⟩, .leaves (.refl _)⟩
  | move owner blockingCmdRemoved =>
    exact represents.moveFrames moveLookup_kind unblocked (Option.some.inj run)
  | moveOn vdevQueueLookup =>
    unfold runFrame at run
    unfold Frame.PicksUnblocked Frame.picks at unblocked
    unfold Frame.picks
    dsimp only at run unblocked ⊢
    split at run
    · cases run
      exact ⟨⟨represents, by simp⟩, .leaves (.refl _)⟩
    · rename_i goes
      rw [if_neg goes] at unblocked ⊢
      exact represents.moveFrames (.inl rfl) unblocked (Option.some.inj run)
  | cancel request isActive =>
    obtain ⟨kept, fewer⟩ := cancelSection (loop represents) run
    exact ⟨kept, .leaves fewer⟩
  | cancelCallback request isActive pnode qsize vdev isBlocking =>
    obtain ⟨closed, entries, lists⟩ := represents.cancelled
    have sections : ∀ one, (if request.vdev = none ∧ ¬request.pdev = true then
          some (CancelOutcome.done (queue.cancelled isActive vdev isBlocking))
        else (queue.cancelled isActive vdev isBlocking).cancelLoop request isActive fine qsize pnode pnode) = some one →
        Represents pdev one.leaves (one.opened isActive ++ cancelling) activating ∧
          one.leaves.entries.Subperm queue.entries := by
      intro one found
      rw [← entries]
      split at found
      · cases found
        exact ⟨closed, .refl _⟩
      · rename_i goes
        rcases resumes with stops | cursor
        · exact absurd stops goes
        · rw [← lists] at cursor
          exact closed.resumeLoop cursor found
    obtain ⟨kept, fewer⟩ := cancelSection sections run
    exact ⟨kept, .leaves fewer⟩
  | cancelled =>
    cases run
    refine ⟨⟨?_, ?_⟩, .leaves (.refl _)⟩
    · split <;> exact represents
    · split <;> simp [Frame.WellFormed]

end Represents

end KernelModules.Serialization

import Mathlib.Algebra.GroupWithZero.Nat
import KernelModules.Serialization.Exclusion
import KernelModules.Serialization.Occupancy

namespace KernelModules.Serialization

open Data Frame Serialization List Represents

/-! # The count of waiting blocking commands

A blocking command is counted before it is known whether it will wait, and not where it waits behind others of its
vdev while no vdev is active.
-/

namespace Frame

def uncounted : Frame → Nat
  | .cancelCallback _ isActive _ _ _ isBlocking => if isBlocking && !isActive then 1 else 0
  | _ => 0

def RemovesActive : Frame → Prop
  | .dequeue _ activeCmd => activeCmd = true
  | _ => True

/-- The request of a blocking command while a vdev is active is taken by the pending lists; while
none is active it is not, or finds its vdev without pending commands. -/
def CountsWaiting (queue : PdevQueue) : Frame → Prop
  | .request cmd vdev =>
    cmd.isBlocking = true → vdev ∉ queue.queueDisable → if queue.anyVdevCmdActive then queue.Admits cmd vdev
      else queue.Admits cmd vdev → (queue.vdevList false vdev).nodes = []
  | _ => True

def KeepsWaiting (queue : PdevQueue) (frame : Frame) : Prop :=
  frame.ResumesInList queue ∧ frame.CountsWaiting queue

end Frame

variable {pdev : SerPdev} {queue after : PdevQueue} {isActive isBlocking fine : Bool}
  {node vdev due threads : Nat} {which : SerQueue} {cmd : WlanSerializationCommand}
  {request : CancelRequest} {cancelling : List (Nat × Bool)} {activating : List Nat} {frame : Frame}
  {frames left : List Frame} {before later system : SerSystem} {action : SerAction}

def heldVdevs (frames : List Frame) : List (Nat × Bool) :=
  (frames.flatMap Frame.cancelling).map fun entry => (entry.1, false)

def Counted (queue : PdevQueue) (due : Nat) : Prop :=
  queue.blockingCmdWaiting = (queue.waitingCmds + due) % 65536

theorem Counted.same (counted : Counted queue due) (same : SameWaiting queue after) : Counted after due := by
  unfold Counted
  rw [same.1, same.2]
  exact counted

namespace Occupies

structure Leaves (pdev : SerPdev) (cancelling : List (Nat × Bool)) (activating : List Nat) (due : Nat)
    (after : PdevQueue) (left : List Frame) : Prop where
  occupies : Occupies pdev after (heldVdevs left ++ cancelling)
    (left.flatMap Frame.starting ++ activating)
  counted : Counted after ((left.map Frame.uncounted).sum + due)
  proper : ∀ frame ∈ left, frame.WellFormed pdev ∧ frame.RemovesActive

section

variable (occupies : Occupies pdev queue cancelling activating) (counted : Counted queue due)
include occupies counted

theorem leaves_nil : Leaves pdev cancelling activating due queue [] :=
  ⟨occupies, by simpa using counted, fun _ absent => by cases absent⟩

theorem dequeueSection (run : dequeueSection queue cmd true = (after, left)) :
    Leaves pdev cancelling activating due after left := by
  unfold Serialization.dequeueSection at run
  cases taken : queue.dequeueCmd cmd true with
  | mk dequeued out =>
  obtain ⟨kept, same⟩ := occupies.dequeueCmd taken
  rw [taken] at run
  cases out with
  | none =>
    cases run
    exact leaves_nil kept (counted.same same)
  | some moved =>
    cases run
    refine ⟨kept, ?_, by simp [Frame.WellFormed, Frame.RemovesActive]⟩
    simpa [Frame.uncounted] using counted.same same

theorem moveFrames (kind : which = .pdev .pending ∨ ∃ vdev, which = .vdev false vdev)
    (run : moveFrames queue which = (after, left)) : Leaves pdev cancelling activating due after left := by
  unfold Serialization.moveFrames at run
  cases moved : queue.moveSection which with
  | mk reached activate =>
  obtain ⟨kept, gone, count, same⟩ := occupies.moveSection kind moved
  have recounted : Counted reached due := by
    unfold Counted at counted ⊢
    rcases same with ⟨rfl, same⟩ | ⟨rfl, same⟩
    · rw [same, counted, ← count, add_zero]
    · omega
  rw [moved] at run
  cases activate with
  | none =>
    cases run
    exact leaves_nil kept recounted
  | some node =>
    cases run
    refine ⟨kept, ?_, by simp [Frame.WellFormed, Frame.RemovesActive]⟩
    simpa [Frame.uncounted] using recounted

end

theorem cancelSection (kept : ∀ one, out = some one → Walked pdev queue cancelling activating isActive one)
    (counted : Counted queue due) (run : cancelSection request isActive out = some (after, left)) :
    Leaves pdev cancelling activating due after left := by
  cases out with
  | none => cases run
  | some one =>
    obtain ⟨occupies, waits, count⟩ := kept one rfl
    have counted : Counted one.leaves (uncounted isActive one + due) := by
      unfold Counted at counted ⊢
      rw [waits, counted, ← count, add_assoc]
    cases one with
    | done queue =>
      cases run
      cases isActive with
      | true =>
        refine ⟨occupies, ?_, by simp [Frame.WellFormed, Frame.RemovesActive]⟩
        simpa [Frame.uncounted, uncounted, CancelOutcome.leaves] using counted
      | false =>
        exact leaves_nil occupies (by simpa [uncounted, CancelOutcome.leaves] using counted)
    | callback queue pnode qsize vdev isBlocking =>
      cases run
      refine ⟨?_, ?_, by simp [Frame.WellFormed, Frame.RemovesActive]⟩
      · unfold heldVdevs
        rw [flatMap_cons, flatMap_nil, append_nil]
        exact occupies
      · exact counted

theorem resumeLoop (occupies : Occupies pdev queue cancelling activating)
    (cursor : qsize = 0 ∨ (queue.pdevList (.of isActive)).nodes = [] ∨
      ∀ node ∈ pnode, node ∈ (queue.pdevList (.of isActive)).nodes)
    (found : queue.cancelLoop request isActive fine qsize pnode pnode = some one) :
    Walked pdev queue cancelling activating isActive one := by
  rcases cursor with rfl | empty | inside
  · cases found
    exact ⟨occupies, rfl, rfl⟩
  · cases qsize with
    | zero =>
      cases found
      exact ⟨occupies, rfl, rfl⟩
    | succ qsize =>
      unfold PdevQueue.cancelLoop at found
      rw [if_pos empty] at found
      cases found
      exact ⟨occupies, rfl, rfl⟩
  · exact occupies.cancelLoop inside found

theorem cancelled (occupies : Occupies pdev queue
      ((if isActive then [(vdev, isBlocking)] else []).map (fun entry => (entry.1, false)) ++ cancelling)
      activating) (counted : Counted queue ((if isBlocking && !isActive then 1 else 0) + due)) :
    Occupies pdev (queue.cancelled isActive vdev isBlocking) cancelling activating ∧
      Counted (queue.cancelled isActive vdev isBlocking) due ∧
      (queue.cancelled isActive vdev isBlocking).pdevList = queue.pdevList := by
  cases isActive with
  | true =>
    have closed := (@cancelled pdev queue.unblocked cancelling activating true vdev false occupies).1
    rw [Bool.not_true, Bool.and_false, if_neg (by decide), zero_add] at counted
    exact ⟨closed, counted, rfl⟩
  | false =>
    cases isBlocking with
    | false =>
      rw [if_neg (by decide), zero_add] at counted
      exact ⟨occupies, counted, rfl⟩
    | true =>
      have flags (waiting : Nat) (same : (queue.blockingCmdWaiting + 65535) % 65536 = waiting) :
          queue.cancelled false vdev true = { queue with blockingCmdWaiting := waiting } := by
        unfold PdevQueue.cancelled
        rw [if_neg (by decide), if_pos rfl, same]
      rw [flags ((queue.waitingCmds + due) % 65536)]
      · exact ⟨recount occupies, rfl, rfl⟩
      · rw [Bool.not_false, Bool.and_true, if_pos rfl] at counted
        unfold Counted at counted
        omega

theorem counted_request_iff (occupies : Occupies pdev queue cancelling activating)
    (counted : Counted queue due) (wellFormed : (Frame.request cmd vdev).WellFormed pdev)
    (run : queue.enqueueCmd cmd vdev = (after, status, activate)) :
    Counted after due ↔ (Frame.request cmd vdev).CountsWaiting queue := by
  obtain ⟨_, waits, count⟩ := occupies.enqueueCmd wellFormed.1 wellFormed.2 run
  unfold Counted at counted ⊢
  unfold Frame.CountsWaiting
  rw [waits, count]
  by_cases asks : cmd.isBlocking = true ∧ vdev ∉ queue.queueDisable
  · cases any : queue.anyVdevCmdActive with
    | true =>
      rw [if_pos ⟨asks.1, asks.2, rfl⟩]
      by_cases admits : queue.Admits cmd vdev
      · rw [if_pos ⟨asks.1, asks.2, admits, .inl rfl⟩]
        exact ⟨fun _ _ _ => admits, fun _ => by omega⟩
      · rw [if_neg fun admitted => admits admitted.2.2.1]
        constructor
        · intro same
          omega
        · exact fun counts => absurd (counts asks.1 asks.2) admits
    | false =>
      rw [if_neg fun counts => by cases counts.2.2]
      by_cases waiting : queue.Admits cmd vdev ∧ (queue.vdevList false vdev).nodes ≠ []
      · rw [if_pos ⟨asks.1, asks.2, waiting.1, .inr waiting.2⟩]
        constructor
        · intro same
          omega
        · exact fun counts => absurd (counts asks.1 asks.2 waiting.1) waiting.2
      · rw [if_neg fun admitted => waiting ⟨admitted.2.2.1, admitted.2.2.2.resolve_left (by decide)⟩]
        refine ⟨fun _ _ _ admits => ?_, fun _ => counted⟩
        by_contra pending
        exact waiting ⟨admits, pending⟩
  · rw [if_neg fun counts => asks ⟨counts.1, counts.2.1⟩, if_neg fun admitted => asks ⟨admitted.1, admitted.2.1⟩]
    exact ⟨fun _ blocking enabled => absurd ⟨blocking, enabled⟩ asks, fun _ => counted⟩

theorem runFrame (occupies : Occupies pdev queue (heldVdevs [frame] ++ cancelling) (frame.starting ++ activating))
    (counted : Counted queue (frame.uncounted + due)) (wellFormed : frame.WellFormed pdev)
    (removes : frame.RemovesActive) (keeps : frame.KeepsWaiting queue)
    (run : runFrame queue frame fine = some (after, left)) : Leaves pdev cancelling activating due after left := by
  have loop : ∀ {request isActive timerFound qsize}, Occupies pdev queue cancelling activating →
      ∀ one, queue.cancelLoop request isActive timerFound qsize none none = some one →
        Walked pdev queue cancelling activating isActive one :=
    fun occupies one found => occupies.cancelLoop (fun _ absent => by cases absent) found
  have plain (none : frame.uncounted = 0) : Counted queue due := by
    rwa [none, zero_add] at counted
  cases frame with
  | request cmd vdev =>
    have counted := plain rfl
    cases asked : queue.enqueueCmd cmd vdev with
    | mk reached rest =>
    have kept := (occupies.enqueueCmd wellFormed.1 wellFormed.2 asked).1
    have recounted := (occupies.counted_request_iff counted wellFormed asked).mpr keeps.2
    unfold runFrame at run
    dsimp only at run
    rw [asked] at run
    cases run
    cases activate : rest.2 with
    | none =>
      rw [activate] at kept
      exact leaves_nil kept recounted
    | some node =>
      rw [activate] at kept
      exact ⟨kept, by simpa [Frame.uncounted] using recounted, by simp [Frame.WellFormed, Frame.RemovesActive]⟩
  | activating node =>
    cases run
    have settled := (Represents.tracked occupies).settle (Represents.linked occupies)
    refine ⟨?_, ?_, by simp [Frame.WellFormed, Frame.RemovesActive]⟩
    · unfold Occupies
      rw [PdevQueue.unblocked_setInUse]
      exact ⟨(Represents.linked occupies).setInUse, settled⟩
    · have same : Counted (queue.setInUse node fun bits =>
          { bits with markedForActivation := false, isActive := true }) due :=
        (plain rfl).same ⟨waitingCmds_setInUse, rfl⟩
      simpa [Frame.uncounted] using same
  | activated node failed =>
    have counted := plain rfl
    unfold runFrame at run
    dsimp only at run
    split at run
    · exact dequeueSection occupies counted (Option.some.inj run)
    · split at run
      · exact cancelSection (loop occupies) counted run
      · cases run
        exact leaves_nil occupies counted
  | dequeue cmd activeCmd =>
    have active : activeCmd = true := removes
    subst active
    exact dequeueSection occupies (plain rfl) (Option.some.inj run)
  | timeout cmd =>
    have counted := plain rfl
    unfold runFrame at run
    dsimp only at run
    cases owner : cmd.vdev with
    | none =>
      rw [owner] at run
      cases run
      exact leaves_nil occupies counted
    | some vdev =>
      rw [owner] at run
      cases run
      split
      · exact ⟨occupies, by simpa [Frame.uncounted] using counted, by simp [Frame.WellFormed, Frame.RemovesActive]⟩
      · exact leaves_nil occupies counted
  | timedOut cmd => exact dequeueSection occupies (plain rfl) (Option.some.inj run)
  | released =>
    cases run
    exact leaves_nil occupies (plain rfl)
  | move owner blockingCmdRemoved =>
    exact moveFrames occupies (plain rfl) Represents.moveLookup_kind (Option.some.inj run)
  | moveOn vdevQueueLookup =>
    unfold runFrame at run
    dsimp only at run
    split at run
    · cases run
      exact leaves_nil occupies (plain rfl)
    · exact moveFrames occupies (plain rfl) (.inl rfl) (Option.some.inj run)
  | cancel request isActive => exact cancelSection (loop occupies) (plain rfl) run
  | cancelCallback request isActive pnode qsize vdev isBlocking =>
    have held : heldVdevs [Frame.cancelCallback request isActive pnode qsize vdev isBlocking] =
        (if isActive then [(vdev, isBlocking)] else []).map fun entry => (entry.1, false) := by
      cases isActive <;> rfl
    rw [held] at occupies
    obtain ⟨closed, recounted, lists⟩ := occupies.cancelled counted
    unfold runFrame at run
    dsimp only at run
    generalize queue.cancelled isActive vdev isBlocking = reached at *
    have kept : ∀ one, (if request.vdev = none ∧ ¬request.pdev = true then some (.done reached)
        else reached.cancelLoop request isActive fine qsize pnode pnode) = some one →
          Walked pdev reached cancelling activating isActive one := by
      intro one found
      split at found
      · cases found
        exact ⟨closed, rfl, rfl⟩
      · rename_i goes
        rcases keeps.1 with stops | cursor
        · exact absurd stops goes
        · rw [← lists] at cursor
          exact closed.resumeLoop cursor found
    exact cancelSection kept recounted run
  | cancelled =>
    cases run
    split
    · exact ⟨occupies, by simpa [Frame.uncounted] using plain rfl, by simp [Frame.WellFormed, Frame.RemovesActive]⟩
    · exact leaves_nil occupies (plain rfl)

end Occupies

structure Waited (pdev : SerPdev) (queue : PdevQueue) (frames : List Frame) : Prop where
  occupies : Occupies pdev queue (heldVdevs frames) (frames.flatMap starting)
  counted : Counted queue (frames.map uncounted).sum
  proper : ∀ frame ∈ frames, frame.WellFormed pdev ∧ frame.RemovesActive

namespace Waited

theorem perm (waited : Waited pdev queue frames) (same : frames.Perm others) : Waited pdev queue others := by
  refine ⟨Represents.perm waited.occupies ((same.flatMap_right _).map _) (same.flatMap_right _), ?_,
    fun frame mem => waited.proper frame (same.mem_iff.mpr mem)⟩
  rw [← (same.map Frame.uncounted).sum_nat]
  exact waited.counted

theorem init : Waited pdev (.init pdev) (SerSystem.init pdev threads).threads.flatten := by
  have sound := @Sound.init pdev threads
  have idle : (SerSystem.init pdev threads).threads.flatten = [] := by
    exact flatten_replicate_nil
  rw [idle] at sound ⊢
  exact ⟨sound.represents, rfl, fun _ absent => by cases absent⟩

theorem call {op : SerOp} (waited : Waited pdev queue frames) (wellFormed : op.WellFormed pdev) :
    Waited pdev queue (op.frames ++ frames) := by
  have idle : op.frames.flatMap cancelling = [] ∧ op.frames.flatMap starting = [] ∧
      (op.frames.map uncounted).sum = 0 ∧ ∀ frame ∈ op.frames, frame.WellFormed pdev ∧ frame.RemovesActive := by
    cases op with
    | request cmd vdev =>
      exact ⟨rfl, rfl, rfl, fun frame mem => by
        cases mem_singleton.mp mem
        exact ⟨wellFormed, trivial⟩⟩
    | removeCmd cmd | activeTimeout cmd =>
      exact ⟨rfl, rfl, rfl, by simp [SerOp.frames, Frame.WellFormed, Frame.RemovesActive]⟩
    | cancelRequest request activeQueue pendingQueue =>
      cases activeQueue <;> cases pendingQueue <;>
        exact ⟨rfl, rfl, rfl, by simp [SerOp.frames, Frame.WellFormed, Frame.RemovesActive]⟩
  refine ⟨?_, ?_, fun frame mem => ?_⟩
  · unfold heldVdevs
    rw [flatMap_append, flatMap_append, idle.1, idle.2.1]
    exact waited.occupies
  · rw [map_append, sum_append, idle.2.2.1, zero_add]
    exact waited.counted
  · rcases mem_append.mp mem with new | old
    · exact idle.2.2.2 frame new
    · exact waited.proper frame old

theorem runFrame (waited : Waited pdev queue (frame :: frames)) (keeps : frame.KeepsWaiting queue)
    (run : runFrame queue frame fine = some (after, left)) : Waited pdev after (left ++ frames) := by
  obtain ⟨proper, removes⟩ := waited.proper frame (mem_cons_self ..)
  have held : heldVdevs (frame :: frames) = heldVdevs [frame] ++ heldVdevs frames := by
    unfold heldVdevs
    rw [flatMap_cons, map_append, flatMap_cons, flatMap_nil, append_nil]
  have occupies := waited.occupies
  have counted := waited.counted
  rw [held] at occupies
  have leaves := occupies.runFrame counted proper removes keeps run
  refine ⟨?_, ?_, fun other mem => ?_⟩
  · unfold heldVdevs
    rw [flatMap_append, flatMap_append, map_append]
    exact leaves.occupies
  · rw [map_append, sum_append]
    exact leaves.counted
  · rcases mem_append.mp mem with new | old
    · exact leaves.proper other new
    · exact waited.proper other (mem_cons_of_mem _ old)

theorem serStep (waited : Waited pdev before.queue before.threads.flatten)
    (keeps : Sections Frame.KeepsWaiting before action) (taken : serStep pdev before action = some later) :
    Waited pdev later.queue later.threads.flatten := by
  rcases serStep_cases taken with ⟨op, wellFormed, same, _, more⟩ | ⟨frame, frames, left, fine, runs, split, ran, rest⟩
  · rw [same]
    exact (waited.call wellFormed).perm more.symm
  · exact ((waited.perm split).runFrame (keeps frame runs) ran).perm rest.symm

end Waited

section

variable (occupies : Occupies pdev queue cancelling activating) (few : pdev.poolSize < 65536)
include occupies few

theorem Occupies.waitingCmds_lt : queue.waitingCmds < 65536 := by
  have len := occupies.linked.partition.length_eq
  rw [length_append, length_range] at len
  have count : queue.waitingCmds ≤ (queue.pdevList .pending).nodes.length := countP_le_length
  omega

theorem Occupies.counted_iff : Counted queue 0 ↔ queue.blockingCmdWaiting = queue.waitingCmds := by
  have small := occupies.waitingCmds_lt few
  unfold Counted
  rw [add_zero, Nat.mod_eq_of_lt small]

end

theorem reached_waited (reached : Reachable (serStep pdev) (Sections Frame.KeepsWaiting) (.init pdev threads) system) :
    Waited pdev system.queue system.threads.flatten :=
  reached.invariant (fun system => Waited pdev system.queue system.threads.flatten) .init
    fun _ _ _ waited keeps taken => waited.serStep keeps taken

/-- While no cancel is in its callback the count is exact; the next request leaves it so exactly if it
counts what waits. -/
theorem waiting_counted_iff (few : pdev.poolSize < 65536)
    (reached : Reachable (serStep pdev) (Sections Frame.KeepsWaiting) (.init pdev threads) system)
    (settled : ∀ frame ∈ system.threads.flatten, frame.uncounted = 0) :
    system.queue.blockingCmdWaiting = system.queue.waitingCmds ∧
      ∀ action cmd vdev after, system.runs action = some (.request cmd vdev) →
        serStep pdev system action = some after → (after.queue.blockingCmdWaiting = after.queue.waitingCmds ↔
          (Frame.request cmd vdev).CountsWaiting system.queue) := by
  have waited := reached_waited reached
  have nothing : (system.threads.flatten.map Frame.uncounted).sum = 0 := by
    apply List.sum_eq_zero_iff_forall_eq_nat.mpr
    intro one member
    obtain ⟨frame, inside, rfl⟩ := List.mem_map.mp member
    exact settled frame inside
  have counted := waited.counted
  rw [nothing] at counted
  refine ⟨(waited.occupies.counted_iff few).mp counted, ?_⟩
  intro action cmd vdev after runs taken
  rcases serStep_cases taken with ⟨_, _, _, none, _⟩ |
    ⟨frame, frames, left, fine, found, split, ran, _⟩
  · rw [none] at runs
    cases runs
  rw [found] at runs
  cases runs
  have proper := (waited.proper _ (split.mem_iff.mpr (List.mem_cons_self ..))).1
  cases asked : system.queue.enqueueCmd cmd vdev with
  | mk reached rest =>
  have kept := (waited.occupies.enqueueCmd proper.1 proper.2 asked).1
  unfold runFrame at ran
  dsimp only at ran
  rw [asked, Option.some.injEq, Prod.mk.injEq] at ran
  rw [← ran.1, ← kept.counted_iff few]
  exact waited.occupies.counted_request_iff counted proper asked

instance : DecidablePred (Frame.CountsWaiting queue)
  | .request .. => inferInstanceAs (Decidable (_ → _ → _))
  | .activating _ | .activated .. | .dequeue .. | .timeout _ | .timedOut _ | .released | .move ..
  | .moveOn _ | .cancel .. | .cancelCallback .. | .cancelled => isTrue trivial

instance : DecidablePred (Frame.KeepsWaiting queue) := fun frame =>
  inferInstanceAs (Decidable (frame.ResumesInList queue ∧ frame.CountsWaiting queue))

def oneWaits : List SerAction :=
  (SerOp.request (vdevCmd 0 1 false false) 0).runBy 0 3 ++ (SerOp.request (vdevCmd 1 2 true false) 1).runBy 0 1

theorem waiting_counted_iff_one :
    ∃ system, Reachable (serStep threeVdevs) (Sections Frame.KeepsWaiting) (.init threeVdevs 1) system ∧
      (system.queue.pdevList .pending).nodes = [1] ∧ system.queue.waitingCmds = 1 ∧
      system.queue.blockingCmdWaiting = system.queue.waitingCmds :=
  reaches oneWaits (fun system => system.threads.flatten = [] ∧ (system.queue.pdevList .pending).nodes = [1] ∧
    system.queue.waitingCmds = 1) (by decide +kernel) fun _ reached ⟨idle, pending, one⟩ => ⟨pending, one,
      (waiting_counted_iff (by decide) reached (by rw [idle]; exact fun _ absent => by cases absent)).1⟩

def duplicateCounted : List SerAction :=
  oneWaits ++ (SerOp.request (vdevCmd 1 2 true false) 1).runBy 0 1

theorem duplicate_counted : ∃ system, Reachable (serStep threeVdevs) (fun _ _ => True) (.init threeVdevs 1) system ∧
      system.threads = [[]] ∧ system.queue.waitingCmds = 1 ∧ system.queue.blockingCmdWaiting = 2 :=
  reaches duplicateCounted _ (by decide +kernel) fun _ _ counted => counted

end KernelModules.Serialization

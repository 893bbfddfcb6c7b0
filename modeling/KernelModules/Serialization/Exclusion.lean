import KernelModules.Serialization.Threads

namespace KernelModules.Serialization

open Data List PdevQueue SerOp

section Lists

variable {α : Type}

theorem flatten_split {lists : List (List α)} (found : lists[idx]? = some stack) : ∃ rest, lists.flatten.Perm (stack ++ rest) ∧
      ∀ left, (lists.set idx left).flatten.Perm (left ++ rest) := by
  induction lists generalizing idx with
  | nil => cases found
  | cons first later ih =>
    cases idx with
    | zero =>
      cases found
      exact ⟨later.flatten, .refl _, fun left => .refl _⟩
    | succ idx =>
      obtain ⟨rest, before, after⟩ := ih found
      refine ⟨first ++ rest, ?_, fun left => ?_⟩
      · exact (before.append_left first).trans (perm_append_comm_assoc ..)
      · exact ((after left).append_left first).trans (perm_append_comm_assoc ..)

end Lists

def SerSystem.runs (system : SerSystem) (action : SerAction) : Option Frame :=
  match action.event with
  | .call _ => none
  | .run _ => system.threads[action.thread]?.bind List.head?

def Sections (condition : PdevQueue → Frame → Prop) (system : SerSystem) (action : SerAction) : Prop :=
  ∀ frame ∈ system.runs action, condition system.queue frame

structure Sound (pdev : SerPdev) (queue : PdevQueue) (frames : List Frame) : Prop where
  represents : Represents pdev queue (frames.flatMap Frame.cancelling)
    (frames.flatMap Frame.starting)
  wellFormed : ∀ frame ∈ frames, frame.WellFormed pdev

structure PdevQueue.Consistent (pdev : SerPdev) (queue : PdevQueue) : Prop where
  partition : ((queue.pdevList .cmdPool).nodes ++ (queue.pdevList .active).nodes ++
    (queue.pdevList .pending).nodes).Perm (List.range pdev.poolSize)
  restrict : ∀ isActive vdev, (queue.vdevList isActive vdev).nodes =
    (queue.pdevList (.of isActive)).nodes.filter fun node => (queue.nodes node).cmd.vdev = some vdev
  bitmap : ∀ vdev, vdev ∈ queue.vdevActiveCmdBitmap ↔
    ∃ node ∈ (queue.pdevList .active).nodes, (queue.nodes node).cmd.vdev = some vdev
  blocking : queue.blockingCmdActive = true ↔
    ∃ node ∈ (queue.pdevList .active).nodes, (queue.nodes node).cmd.isBlocking = true
  clean : ∀ node ∈ (queue.pdevList .cmdPool).nodes, (queue.nodes node).cmdInUse = .zero

def PdevQueue.Exclusive (queue : PdevQueue) : Prop :=
  ((queue.pdevList .active).nodes.map fun node => (queue.nodes node).cmd.vdev).Nodup ∧
    ∀ node ∈ (queue.pdevList .active).nodes, (queue.nodes node).cmd.isBlocking = true →
      (queue.pdevList .active).nodes = [node]

variable {pdev : SerPdev} {queue after : PdevQueue} {before later system : SerSystem} {action : SerAction}
  {threads node : Nat} {frame : Frame} {frames : List Frame}

theorem serStep_cases (taken : serStep pdev before action = some later) :
    (∃ op : SerOp, op.WellFormed pdev ∧ later.queue = before.queue ∧ before.runs action = none ∧
      later.threads.flatten.Perm (op.frames ++ before.threads.flatten)) ∨
    ∃ frame frames left fine, before.runs action = some frame ∧ before.threads.flatten.Perm (frame :: frames) ∧
      runFrame before.queue frame fine = some (later.queue, left) ∧ later.threads.flatten.Perm (left ++ frames) := by
  unfold serStep at taken
  unfold SerSystem.runs
  cases found : before.threads[action.thread]? with
  | none =>
    rw [found] at taken
    cases taken
  | some stack =>
    obtain ⟨rest, split, set⟩ := flatten_split found
    rw [found] at taken
    cases event : action.event with
    | call op =>
      rw [event] at taken
      dsimp only at taken
      split at taken
      · rename_i may
        cases taken
        refine .inl ⟨op, may.2, rfl, rfl, (set _).trans ?_⟩
        rw [append_assoc]
        exact split.symm.append_left _
      · cases taken
    | run fine =>
      rw [event] at taken
      cases stack with
      | nil => cases taken
      | cons frame stack =>
        obtain ⟨⟨reached, left⟩, ran, rfl⟩ := Option.map_eq_some_iff.mp taken
        refine .inr ⟨frame, stack ++ rest, left, fine, rfl, split, ran, ?_⟩
        rw [← append_assoc]
        exact set (left ++ stack)

namespace Sound

theorem perm (sound : Sound pdev queue frames) (same : frames.Perm others) : Sound pdev queue others :=
  ⟨sound.represents.perm (same.flatMap_right _) (same.flatMap_right _),
    fun frame mem => sound.wellFormed frame (same.mem_iff.mpr mem)⟩

theorem init : Sound pdev (.init pdev) (SerSystem.init pdev threads).threads.flatten := by
  have idle : (SerSystem.init pdev threads).threads.flatten = [] := by
    exact flatten_replicate_nil
  rw [idle]
  refine ⟨?_, fun _ absent => by cases absent⟩
  constructor
  · constructor
    · constructor
      · intro list
        cases list with
        | cmdPool => exact nodup_range
        | active => exact nodup_nil
        | pending => exact nodup_nil
      · intro list other node left right
        cases list <;> cases other <;> first | rfl | cases left | cases right
      · intro node
        constructor
        · exact fun small => .inr ⟨.cmdPool, mem_range.mpr small⟩
        · rintro (absent | ⟨list, mem⟩)
          · cases absent
          · cases list with
            | cmdPool => exact mem_range.mp mem
            | active => cases mem
            | pending => cases mem
      · exact fun absent => by cases absent
    · intro list
      cases list with
      | cmdPool => exact length_range.symm
      | active => rfl
      | pending => rfl
    · exact fun _ _ => rfl
    · intro isActive vdev
      cases isActive <;> rfl
    · intro isActive node mem
      cases isActive <;> cases mem
  · constructor
    · exact ⟨nodup_nil, fun owner => by simp [PdevQueue.init, PdevQueue.entries],
        by simp [PdevQueue.init, PdevQueue.entries], Nat.zero_le 1⟩
    · exact fun _ _ => rfl
    · exact fun node marked => by cases marked
    · exact nodup_nil
    · exact fun node mem => by cases mem
    · exact fun _ => rfl
    · exact pdev.few

theorem call {op : SerOp} (sound : Sound pdev queue frames)
    (wellFormed : op.WellFormed pdev) : Sound pdev queue (op.frames ++ frames) := by
  have idle : op.frames.flatMap Frame.cancelling = [] ∧ op.frames.flatMap Frame.starting = [] ∧
      ∀ frame ∈ op.frames, frame.WellFormed pdev := by
    cases op with
    | request cmd vdev =>
      exact ⟨rfl, rfl, fun frame member => by cases mem_singleton.mp member; exact wellFormed⟩
    | removeCmd cmd | activeTimeout cmd => exact ⟨rfl, rfl, by simp [SerOp.frames, Frame.WellFormed]⟩
    | cancelRequest request activeQueue pendingQueue =>
      cases activeQueue <;> cases pendingQueue <;> exact ⟨rfl, rfl, by simp [SerOp.frames, Frame.WellFormed]⟩
  refine ⟨?_, fun frame member => ?_⟩
  · rw [flatMap_append, flatMap_append, idle.1, idle.2.1]
    exact sound.represents
  · rcases mem_append.mp member with new | old
    · exact idle.2.2 frame new
    · exact sound.wellFormed frame old

theorem runFrame (sound : Sound pdev queue (frame :: frames)) (resumes : frame.ResumesInList queue)
    (unblocked : frame.PicksUnblocked queue) (run : Serialization.runFrame queue frame fine = some (after, left)) :
    Sound pdev after (left ++ frames) ∧ Changes queue after (frame.picks queue) := by
  have begun := sound.represents
  obtain ⟨⟨kept, formed⟩, changes⟩ :=
    begun.runFrame (sound.wellFormed frame (mem_cons_self ..)) resumes unblocked run
  refine ⟨⟨?_, fun other mem => ?_⟩, changes⟩
  · rw [flatMap_append, flatMap_append]
    exact kept
  · rcases mem_append.mp mem with new | old
    · exact formed other new
    · exact sound.wellFormed other (mem_cons_of_mem _ old)

theorem serStep (sound : Sound pdev before.queue before.threads.flatten)
    (resumes : Sections (fun queue frame => frame.ResumesInList queue) before action)
    (unblocked : Sections (fun queue frame => frame.PicksUnblocked queue) before action)
    (taken : Serialization.serStep pdev before action = some later) :
    Sound pdev later.queue later.threads.flatten ∧ (later.queue = before.queue ∨ ∃ frame ∈ before.runs action,
        Changes before.queue later.queue (frame.picks before.queue)) := by
  rcases serStep_cases taken with ⟨op, wellFormed, same, _, more⟩ | ⟨frame, frames, left, fine, runs, split, ran, rest⟩
  · rw [same]
    exact ⟨(sound.call wellFormed).perm more.symm, .inl rfl⟩
  · obtain ⟨kept, changes⟩ := (sound.perm split).runFrame (resumes frame runs) (unblocked frame runs) ran
    exact ⟨kept.perm rest.symm, .inr ⟨frame, runs, changes⟩⟩

end Sound

/-- A cancel goes on in the queue that it walks, and no second blocking command becomes active. -/
def Frame.KeepsLists (queue : PdevQueue) (frame : Frame) : Prop :=
  frame.ResumesInList queue ∧ frame.PicksUnblocked queue

theorem Linked.partition (linked : Linked pdev queue none) :
    ((queue.pdevList .cmdPool).nodes ++ (queue.pdevList .active).nodes ++
      (queue.pdevList .pending).nodes).Perm (List.range pdev.poolSize) := by
  have placed := linked.placed
  have once : ((queue.pdevList .cmdPool).nodes ++ (queue.pdevList .active).nodes ++
      (queue.pdevList .pending).nodes).Nodup := by
    refine nodup_append'.mpr ⟨nodup_append'.mpr ⟨placed.nodup _, placed.nodup _, ?_⟩, placed.nodup _, ?_⟩
    · intro node left right
      cases placed.apart left right
    · intro node left right
      rcases mem_append.mp left with left | left
      · cases placed.apart left right
      · cases placed.apart left right
  apply (perm_ext_iff_of_nodup once nodup_range).mpr
  intro node
  rw [mem_range, placed.all node, mem_append, mem_append]
  constructor
  · rintro ((pool | active) | pending)
    · exact .inr ⟨_, pool⟩
    · exact .inr ⟨_, active⟩
    · exact .inr ⟨_, pending⟩
  · rintro (absent | ⟨list, mem⟩)
    · cases absent
    · cases list with
      | cmdPool => exact .inl (.inl mem)
      | active => exact .inl (.inr mem)
      | pending => exact .inr mem

theorem Linked.entry_owner (linked : Linked pdev queue none) (active : node ∈ (queue.pdevList .active).nodes) :
    (queue.nodes node).cmd.vdev = some (queue.entry node).1 := by
  obtain ⟨vdev, _, owner⟩ := linked.owned true node active
  unfold entry
  rw [owner]
  rfl

instance (action) : Decidable (Frame.ResumesInList queue action) := by
  cases action <;> dsimp only [Frame.ResumesInList] <;> infer_instance

instance : DecidablePred (Frame.PicksUnblocked queue) := fun frame =>
  inferInstanceAs (Decidable (∀ node ∈ frame.picks queue, _ → _))

instance : DecidablePred (Frame.KeepsLists queue) := fun frame =>
  inferInstanceAs (Decidable (frame.ResumesInList queue ∧ frame.PicksUnblocked queue))

instance {condition : PdevQueue → Frame → Prop} [∀ queue, DecidablePred (condition queue)] :
    Decidable (Sections condition before action) :=
  inferInstanceAs (Decidable (∀ frame ∈ before.runs action, condition before.queue frame))

theorem Sound.consistent (sound : Sound pdev queue frames) (settled : frames.flatMap Frame.cancelling = []) :
    queue.Consistent pdev := by
  have linked := sound.represents.linked
  have tracked := sound.represents.tracked
  have booked := tracked.booked
  rw [settled, append_nil] at booked
  constructor
  · exact linked.partition
  · exact linked.restrict
  · intro vdev
    rw [booked.exact]
    constructor
    · intro mem
      obtain ⟨entry, inside, rfl⟩ := mem_map.mp mem
      obtain ⟨node, active, rfl⟩ := mem_map.mp inside
      exact ⟨node, active, linked.entry_owner active⟩
    · rintro ⟨node, active, owner⟩
      have same := linked.entry_owner active
      rw [owner] at same
      rw [Option.some.inj same]
      exact mem_map_of_mem (entry_mem active)
  · rw [booked.flagged]
    constructor
    · rintro ⟨entry, inside, marked⟩
      obtain ⟨node, active, rfl⟩ := mem_map.mp inside
      exact ⟨node, active, marked⟩
    · rintro ⟨node, active, marked⟩
      exact ⟨_, entry_mem active, marked⟩
  · exact tracked.clean

theorem reached_sound (reached : Reachable (serStep pdev) (Sections Frame.KeepsLists) (.init pdev threads) system) :
    Sound pdev system.queue system.threads.flatten := by
  refine reached.invariant (fun system => Sound pdev system.queue system.threads.flatten) .init ?_
  intro before action later sound keeps taken
  exact (sound.serStep (fun frame runs => (keeps frame runs).1) (fun frame runs => (keeps frame runs).2) taken).1

/-- Whenever no cancel is between the lists and the flags, the queues are consistent. -/
theorem representation_kept
    (reached : Reachable (serStep pdev) (Sections Frame.KeepsLists) (.init pdev threads) system)
    (settled : ∀ frame ∈ system.threads.flatten, frame.cancelling = []) : system.queue.Consistent pdev :=
  (reached_sound reached).consistent (flatMap_eq_nil_iff.mpr settled)

def threeVdevs : SerPdev :=
  { vdevs := [0, 1, 2]
    maxActiveCmds := 3
    maxPendingCmds := 12
    maxVdevPendingCmds := fun _ => 4
    few := by decide }

def vdevCmd (vdev cmdId : Nat) (isBlocking isHighPriority : Bool) : WlanSerializationCommand :=
  ⟨some vdev, cmdId, 2, isBlocking, isHighPriority, false⟩

def SerOp.runBy (thread : Nat) (op : SerOp) (sections : Nat) : List SerAction :=
  ⟨thread, .call op⟩ :: List.replicate sections ⟨thread, .run true⟩

def twoOfEach : List SerAction :=
  (request (vdevCmd 0 1 false false) 0).runBy 0 3 ++ (request (vdevCmd 1 2 false false) 1).runBy 0 3 ++
    (request (vdevCmd 2 3 false false) 2).runBy 0 3 ++ (request (vdevCmd 0 4 false true) 0).runBy 0 1 ++
    (request (vdevCmd 1 5 false false) 1).runBy 0 1 ++ (request (vdevCmd 2 6 false false) 2).runBy 0 1

def cancelVdev : SerOp :=
  .cancelRequest ⟨none, false, some 1, wlanSerCmdNonscan, false⟩ false true

theorem representation_kept_cancelled :
    ∃ system, Reachable (serStep threeVdevs) (Sections Frame.KeepsLists) (.init threeVdevs 1) system ∧
      system.threads = [[]] ∧ (system.queue.pdevList .active).nodes = [0, 1, 2] ∧
      (system.queue.pdevList .pending).nodes = [3, 5] ∧ system.queue.Consistent threeVdevs :=
  reaches (twoOfEach ++ cancelVdev.runBy 0 2) (fun system => system.threads = [[]] ∧
    (system.queue.pdevList .active).nodes = [0, 1, 2] ∧ (system.queue.pdevList .pending).nodes = [3, 5])
    (by decide +kernel) fun _ reached ⟨idle, active, pending⟩ => ⟨idle, active, pending,
      representation_kept reached (by rw [idle]; exact fun _ absent => by cases absent)⟩

/-- The callback of a cancel removes an active command, and the move makes the command that the cancel stopped at
active: the cancel goes on in the active list. -/
theorem representation_lost : ¬ ∀ (pdev : SerPdev) threads system,
      Reachable (serStep pdev) (fun _ _ => True) (.init pdev threads) system →
        (∀ frame ∈ system.threads.flatten, frame.cancelling = []) → system.queue.Consistent pdev := by
  intro always
  obtain ⟨system, kept, idle, active, owned⟩ := holds_after (always threeVdevs 1)
    (twoOfEach ++ cancelVdev.runBy 0 1 ++ (removeCmd (vdevCmd 0 1 false false)).runBy 0 7)
    (fun system => system.threads = [[]] ∧ (system.queue.pdevList .active).nodes = [3, 2] ∧
      (system.queue.vdevList true 1).nodes = [1]) (by decide +kernel)
  have consistent := kept (by rw [idle]; exact fun _ absent => by cases absent)
  have listed : 1 ∈ (system.queue.vdevList true 1).nodes := by
    rw [owned]
    decide
  rw [consistent.restrict true 1] at listed
  have inActive : 1 ∈ (system.queue.pdevList .active).nodes := (mem_filter.mp listed).1
  rw [active] at inActive
  exact absurd inActive (by decide)

/-- A command that a move makes active finds no blocking one among the active, and a blocking one finds none. -/
def Frame.PicksAlone (queue : PdevQueue) (frame : Frame) : Prop :=
  ∀ node ∈ frame.picks queue,
    (∀ other ∈ (queue.pdevList .active).nodes, (queue.nodes other).cmd.isBlocking = false) ∧
      ((queue.nodes node).cmd.isBlocking = true →
        (queue.pdevList .active).nodes = [] ∧ queue.blockingCmdActive = false)

/-- A cancel goes on in the queue that it walks, and a move keeps blocking commands alone. -/
def Frame.KeepsExclusion (queue : PdevQueue) (frame : Frame) : Prop :=
  frame.ResumesInList queue ∧ frame.PicksAlone queue

instance : DecidablePred (Frame.PicksAlone queue) := fun frame =>
  inferInstanceAs (Decidable (∀ node ∈ frame.picks queue, _ ∧ (_ → _ ∧ _)))

instance : DecidablePred (Frame.KeepsExclusion queue) := fun frame =>
  inferInstanceAs (Decidable (frame.ResumesInList queue ∧ frame.PicksAlone queue))

theorem Frame.PicksAlone.unblocked (alone : frame.PicksAlone queue) : frame.PicksUnblocked queue :=
  fun node picked blocking => ((alone node picked).2 blocking).2

def PdevQueue.Alone (queue : PdevQueue) : Prop :=
  ∀ entry ∈ queue.entries, entry.2 = true → queue.entries = [entry]

theorem Changes.alone (changes : Changes queue after (frame.picks queue)) (alone : queue.Alone)
    (picks : frame.PicksAlone queue) : after.Alone := by
  cases changes with
  | leaves fewer =>
    intro entry member blocking
    have single := alone entry (fewer.subset member) blocking
    rw [single] at fewer
    have length := fewer.length_le
    obtain ⟨only, same⟩ := length_eq_one_iff.mp (le_antisymm length (length_pos_of_mem member))
    rw [same] at member ⊢
    rw [mem_singleton.mp member]
  | request entry more nothing free =>
    intro other member blocking
    rcases mem_cons.mp (more.mem_iff.mp member) with rfl | old
    · rw [nothing blocking] at more
      exact perm_singleton.mp more
    · rw [free other old] at blocking
      cases blocking
  | moved node isPicked more =>
    obtain ⟨free, nothing⟩ := picks node isPicked
    intro other member blocking
    rcases mem_cons.mp (more.mem_iff.mp member) with rfl | old
    · have empty : queue.entries = [] := by
        unfold entries
        rw [(nothing blocking).1]
        rfl
      rw [empty] at more
      exact perm_singleton.mp more
    · obtain ⟨active, inside, rfl⟩ := mem_map.mp old
      exact absurd blocking (by
        rw [entry, free active inside]
        exact Bool.false_ne_true)

theorem Sound.exclusive (sound : Sound pdev queue frames) (alone : queue.Alone) : queue.Exclusive := by
  have once := sound.represents.tracked.booked.once
  rw [map_append] at once
  refine ⟨?_, fun node active blocking => ?_⟩
  · apply List.Nodup.of_map fun owner => owner.getD 0
    rw [map_map]
    have nodup := once.of_append_left
    unfold entries at nodup
    rw [map_map] at nodup
    exact nodup
  · have single := alone _ (entry_mem active) blocking
    obtain ⟨only, same, _⟩ := map_eq_singleton_iff.mp single
    rw [same] at active ⊢
    rw [mem_singleton.mp active]

/-- In every run each vdev has at most one active command, and a blocking one is alone. -/
theorem exclusion_kept
    (reached : Reachable (serStep pdev) (Sections Frame.KeepsExclusion) (.init pdev threads) system) :
    system.queue.Exclusive := by
  have kept : Sound pdev system.queue system.threads.flatten ∧ system.queue.Alone := by
    refine reached.invariant
      (fun system => Sound pdev system.queue system.threads.flatten ∧ system.queue.Alone)
      ⟨.init, fun _ absent => by cases absent⟩ ?_
    rintro before action later ⟨sound, alone⟩ keeps taken
    obtain ⟨kept, same | ⟨frame, runs, changes⟩⟩ := sound.serStep
      (fun frame runs => (keeps frame runs).1) (fun frame runs => (keeps frame runs).2.unblocked) taken
    · refine ⟨kept, ?_⟩
      rw [same]
      exact alone
    · exact ⟨kept, changes.alone alone (keeps frame runs).2⟩
  exact kept.1.exclusive kept.2

/-- A blocking command of vdev 1 waits for one of vdev 0; before it is moved another thread requests one of vdev 2. -/
def removedBlocking : List SerAction :=
  (request (vdevCmd 0 1 true false) 0).runBy 0 3 ++ (request (vdevCmd 1 2 false false) 1).runBy 0 1 ++
    (removeCmd (vdevCmd 0 1 true false)).runBy 0 1 ++ (request (vdevCmd 2 3 true false) 2).runBy 1 1

theorem exclusion_kept_blocking :
    ∃ system, Reachable (serStep threeVdevs) (Sections Frame.KeepsExclusion) (.init threeVdevs 2) system ∧
      (system.queue.pdevList .active).nodes = [2] ∧ (system.queue.nodes 2).cmd.isBlocking = true ∧
      (system.queue.pdevList .pending).nodes = [1] ∧ system.queue.Exclusive :=
  reaches removedBlocking (fun system => (system.queue.pdevList .active).nodes = [2] ∧
    (system.queue.nodes 2).cmd.isBlocking = true ∧ (system.queue.pdevList .pending).nodes = [1]) (by decide +kernel)
    fun _ reached ⟨active, blocking, pending⟩ => ⟨active, blocking, pending, exclusion_kept reached⟩

/-- The move that follows does not look for the blocking command. -/
theorem exclusion_lost : ¬ ∀ (pdev : SerPdev) threads system,
      Reachable (serStep pdev) (fun _ _ => True) (.init pdev threads) system → system.queue.Exclusive := by
  intro always
  obtain ⟨system, exclusive, active, blocking⟩ := holds_after (always threeVdevs 2)
    (removedBlocking ++ [⟨0, .run true⟩]) (fun system => (system.queue.pdevList .active).nodes = [2, 1] ∧
      (system.queue.nodes 2).cmd.isBlocking = true) (by decide +kernel)
  have alone := exclusive.2 2 (by rw [active]; exact mem_cons_self ..) blocking
  rw [active] at alone
  cases alone

end KernelModules.Serialization

import KernelModules.Dsc.Moves

namespace KernelModules.Dsc

open List DscTrans Option

/-! # Priority of waiting transitions

The log of a run is compared with the queues: who left a queue left it in order, and what a waiting transition has
priority over did not happen meanwhile.
-/

/-- What waiting transitions have priority over: activity below the node, and operations on it or below. -/
def Delays (node : Node) : Event → Prop
  | .started other => other.Below node
  | .triggered other _ => other.Below node
  | .admitted other => other = node ∨ other.Below node
  | _ => False

def queuedTickets (node : Node) (log : List Event) : List Nat :=
  log.filterMap fun
    | .queued other ticket => if other = node then some ticket else none
    | _ => none

def activatedTickets (node : Node) (log : List Event) : List Nat :=
  log.filterMap fun
    | .triggered other ticket => if other = node then some ticket else none
    | _ => none

def leftTickets (node : Node) (log : List Event) : List Nat :=
  log.filterMap fun
    | .triggered other ticket => if other = node then some ticket else none
    | .aborted other ticket => if other = node then some ticket else none
    | _ => none

def DscTrans.tickets (trans : DscTrans) : List Nat :=
  trans.queue.map DscTran.ticket

structure Logged (tree after : DscTree) (events : List Event) : Prop where
  log : after.log = tree.log ++ events
  fifo : ∀ node, (tree.trans node).tickets ++ queuedTickets node events =
    leftTickets node events ++ (after.trans node).tickets
  fresh : (after.tickets = tree.tickets ∧ ∀ node ticket, .queued node ticket ∉ events) ∨
    (after.tickets = tree.tickets + 1 ∧ ∃ node, events = [.queued node tree.tickets])
  priority : ∀ node, tree.Queued node → ∀ event ∈ events, ¬ Delays node event
  driverKept : ∀ ticket, .aborted .driver ticket ∉ events

variable {tree after : DscTree} {action : Action} {node other : Node}

theorem mem_queuedTickets : ticket ∈ queuedTickets node log ↔ .queued node ticket ∈ log := by
  unfold queuedTickets
  rw [mem_filterMap]
  constructor
  · intro ⟨event, mem, found⟩
    cases event with
    | queued other number =>
      simp only [ite_none_right_eq_some, some.injEq] at found
      exact found.1 ▸ found.2 ▸ mem
    | _ => cases found
  · intro mem
    exact ⟨_, mem, by simp⟩

theorem mem_leftTickets : ticket ∈ leftTickets node log ↔
      .triggered node ticket ∈ log ∨ .aborted node ticket ∈ log := by
  unfold leftTickets
  rw [mem_filterMap]
  constructor
  · intro ⟨event, mem, found⟩
    cases event with
    | triggered other number =>
      simp only [ite_none_right_eq_some, some.injEq] at found
      exact .inl (found.1 ▸ found.2 ▸ mem)
    | aborted other number =>
      simp only [ite_none_right_eq_some, some.injEq] at found
      exact .inr (found.1 ▸ found.2 ▸ mem)
    | _ => cases found
  · intro either
    rcases either with mem | mem
    · exact ⟨_, mem, by simp⟩
    · exact ⟨_, mem, by simp⟩

theorem activatedTickets_sublist (node : Node) (log : List Event) :
    (activatedTickets node log).Sublist (leftTickets node log) := by
  induction log with
  | nil => exact .slnil
  | cons event rest ih =>
    cases event with
    | triggered other ticket =>
      by_cases same : other = node
      · simpa [activatedTickets, leftTickets, same] using ih
      · simpa [activatedTickets, leftTickets, same] using ih
    | aborted other ticket =>
      by_cases same : other = node
      · simpa [activatedTickets, leftTickets, same] using ih.cons ticket
      · simpa [activatedTickets, leftTickets, same] using ih
    | _ => simpa [activatedTickets, leftTickets] using ih

theorem queuedTickets_append (node : Node) (first second : List Event) :
    queuedTickets node (first ++ second) = queuedTickets node first ++ queuedTickets node second :=
  filterMap_append

theorem leftTickets_append (node : Node) (first second : List Event) :
    leftTickets node (first ++ second) = leftTickets node first ++ leftTickets node second :=
  filterMap_append

section Wake

variable {nodes : List Node}

theorem event_of_mem_wakeEvents (mem : event ∈ nodes.flatMap fun node => (tree.trans node).wakeEvents node) :
    ∃ node ∈ nodes, ∃ ticket, event = .triggered node ticket := by
  obtain ⟨node, listed, inEvents⟩ := mem_flatMap.mp mem
  refine ⟨node, listed, ?_⟩
  unfold wakeEvents at inEvents
  cases queue : (tree.trans node).queue with
  | nil => simp [queue] at inEvents
  | cons tran rest =>
    rw [queue] at inEvents
    exact ⟨tran.ticket, mem_singleton.mp inEvents⟩

theorem queuedTickets_wake (node : Node) :
    queuedTickets node (nodes.flatMap fun node => (tree.trans node).wakeEvents node) = [] := by
  rw [eq_nil_iff_forall_not_mem]
  intro ticket mem
  obtain ⟨_, _, _, event⟩ := event_of_mem_wakeEvents (mem_queuedTickets.mp mem)
  cases event

theorem leftTickets_wakeEvents (trans : DscTrans) (node other : Node) :
    leftTickets node (trans.wakeEvents other) = if other = node then trans.tickets.take 1 else [] := by
  unfold wakeEvents tickets
  cases trans.queue <;> by_cases same : other = node <;> simp [leftTickets, same]

theorem leftTickets_wake (nodup : nodes.Nodup) (node : Node) :
    leftTickets node (nodes.flatMap fun node => (tree.trans node).wakeEvents node) =
      if node ∈ nodes then (tree.trans node).tickets.take 1 else [] := by
  induction nodes with
  | nil => simp [leftTickets]
  | cons first rest ih =>
    obtain ⟨fresh, distinctRest⟩ := nodup_cons.mp nodup
    rw [flatMap_cons, leftTickets_append, leftTickets_wakeEvents, ih distinctRest]
    by_cases same : first = node
    · subst same
      simp [fresh]
    · simp [same, Ne.symm same]

theorem wake_tickets (trans : DscTrans) : trans.wake.tickets = trans.tickets.drop 1 := by
  unfold wake tickets
  cases queue : trans.queue <;> simp [queue]

end Wake

theorem Woken.not_below (why : Woken stopped node other) (queued : stopped.Queued waiting) : ¬ other.Below waiting := by
  intro lt
  cases why with
  | driver _ _ => cases lt
  | psoc psoc driverIdle _ _ =>
    cases lt with
    | psocDriver _ => exact driverIdle queued
  | vdev psoc vdev driverIdle psocIdle _ =>
    cases lt with
    | vdevDriver _ _ => exact driverIdle queued
    | vdevPsoc _ _ => exact psocIdle queued

theorem stop_logged (shape : tree.Shape) (attached : tree.Attached node) : ∃ events, Logged tree
      (wakeAll (dscTransStop tree node) (wakes (dscTransStop tree node) node)) events := by
  have nodup := wakes_nodup (dscTransStop_shape shape attached) node
  have tickets (other : Node) : ((dscTransStop tree node).trans other).tickets = (tree.trans other).tickets := by
    by_cases same : other = node
    · subst same; simp [dscTransStop, tickets]
    · simp [dscTransStop, same]
  refine ⟨.stopped node :: (wakes (dscTransStop tree node) node).flatMap fun woken =>
    ((dscTransStop tree node).trans woken).wakeEvents woken, ?_, ?_, .inl ⟨?_, ?_⟩, ?_, ?_⟩
  · rw [wakeAll_eq nodup]
    simp [dscTransStop]
  · intro other
    have queued : queuedTickets other (.stopped node :: (wakes (dscTransStop tree node) node).flatMap fun woken =>
          ((dscTransStop tree node).trans woken).wakeEvents woken) = [] :=
      queuedTickets_wake other
    rw [queued, append_nil, wakeAll_eq nodup]
    change _ = leftTickets other ((wakes (dscTransStop tree node) node).flatMap fun woken =>
      ((dscTransStop tree node).trans woken).wakeEvents woken) ++ _
    rw [leftTickets_wake nodup]
    by_cases mem : other ∈ wakes (dscTransStop tree node) node
    · simp only [mem, if_true, wake_tickets, tickets, take_append_drop]
    · simp [mem, tickets]
  · rw [wakeAll_eq nodup]
    rfl
  · intro other ticket mem
    rcases mem_cons.mp mem with event | event
    · cases event
    · obtain ⟨_, _, _, event⟩ := event_of_mem_wakeEvents event
      cases event
  · intro waiting queued event mem delays
    have stillQueued : (dscTransStop tree node).Queued waiting := dscTransStop_queued.mpr queued
    rcases mem_cons.mp mem with event | event
    · subst event
      exact delays
    · obtain ⟨woken, listed, ticket, event⟩ := event_of_mem_wakeEvents event
      subst event
      exact (woken_of_mem listed).not_below stillQueued delays
  · intro ticket mem
    rcases mem_cons.mp mem with event | event
    · cases event
    · obtain ⟨_, _, _, event⟩ := event_of_mem_wakeEvents event
      cases event

theorem leftTickets_aborted (trans : DscTrans) (node other : Node) :
    leftTickets node (trans.queue.map fun tran => .aborted other tran.ticket) =
      if other = node then trans.tickets else [] := by
  unfold tickets leftTickets
  by_cases same : other = node
  · simp only [same, if_true]
    induction trans.queue with
    | nil => rfl
    | cons tran rest ih => simp [ih]
  · simp [same]

theorem flush_logged (node : Node) (destroyable : node ≠ .driver)
    (reset : after.trans = Function.update tree.trans node {}) (log : after.log = tree.log ++
      (tree.trans node).queue.map fun tran => .aborted node tran.ticket)
    (tickets : after.tickets = tree.tickets) : ∃ events, Logged tree after events := by
  have aborts {event : Event}
      (mem : event ∈ (tree.trans node).queue.map fun tran => .aborted node tran.ticket) :
      ∃ ticket, event = .aborted node ticket := by
    obtain ⟨tran, _, same⟩ := mem_map.mp mem
    exact ⟨tran.ticket, same.symm⟩
  have none (other : Node) (ticket : Nat) : .queued other ticket ∉
      (tree.trans node).queue.map fun tran => Event.aborted node tran.ticket := by
    intro mem
    obtain ⟨_, event⟩ := aborts mem
    cases event
  refine ⟨_, log, fun other => ?_, .inl ⟨tickets, none⟩, ?_, ?_⟩
  · have queued : queuedTickets other ((tree.trans node).queue.map fun tran => .aborted node tran.ticket) = [] := by
      rw [eq_nil_iff_forall_not_mem]
      exact fun ticket mem => none other ticket (mem_queuedTickets.mp mem)
    rw [queued, leftTickets_aborted, reset]
    by_cases same : node = other
    · subst same
      simp [DscTrans.tickets]
    · simp [same, Ne.symm same]
  · intro waiting _ event mem delays
    obtain ⟨_, same⟩ := aborts mem
    subst same
    exact delays
  · intro ticket mem
    obtain ⟨_, event⟩ := aborts mem
    cases event
    exact destroyable rfl

theorem Move.logged (shape : tree.Shape) (move : Move tree action after) : ∃ events, Logged tree after events := by
  have silent {changed : DscTree} (log : changed.log = tree.log)
      (tickets : changed.tickets = tree.tickets)
      (queues : ∀ node, (changed.trans node).tickets = (tree.trans node).tickets) :
      ∃ events, Logged tree changed events :=
    ⟨[], by simp [log], fun node => by simp [queuedTickets, leftTickets, queues],
      .inl ⟨tickets, by simp⟩, by simp, by simp⟩
  cases move with
  | refuse _ | leave _ => exact silent rfl rfl fun _ => rfl
  | @start _ node desc attached can =>
    refine ⟨[.started node], rfl, fun other => ?_, .inl ⟨rfl, by simp⟩, ?_, by simp⟩
    · by_cases same : other = node
      · subst same
        simp [queuedTickets, leftTickets, dscTransStart, tickets]
      · simp [queuedTickets, leftTickets, dscTransStart, same]
    · intro waiting queued event mem delays
      rw [mem_singleton] at mem
      subst mem
      exact (can.above waiting delays).2 queued
  | @wait _ node desc attached cannot =>
    refine ⟨[.queued node tree.tickets], rfl, fun other => ?_, .inr ⟨rfl, node, rfl⟩, ?_, by simp⟩
    · by_cases same : other = node
      · subst same
        simp [queuedTickets, leftTickets, dscTransQueue, tickets]
      · simp [queuedTickets, leftTickets, dscTransQueue, same, Ne.symm same]
    · intro waiting _ event mem delays
      rw [mem_singleton] at mem
      subst mem
      exact delays
  | stop attached => exact stop_logged shape attached
  | @enter _ node attached can =>
    refine ⟨[.admitted node], rfl, fun other => ?_, .inl ⟨rfl, by simp⟩, ?_, by simp⟩
    · simp [queuedTickets, leftTickets, dscOpsInsert]
    · intro waiting queued event mem delays
      rw [mem_singleton] at mem
      subst mem
      rcases delays with same | lt
      · exact can.unqueued (same ▸ queued)
      · exact (can.above waiting lt).2 queued
  | @abort node tran rest attached destroyable queue =>
    refine ⟨[.aborted node tran.ticket], rfl, fun other => ?_, .inl ⟨rfl, by simp⟩, ?_, ?_⟩
    · by_cases same : other = node
      · subst same
        simp [queuedTickets, leftTickets, tickets, queue]
      · simp [queuedTickets, leftTickets, same, Ne.symm same]
    · intro waiting _ event mem delays
      rw [mem_singleton] at mem
      subst mem
      exact delays
    · intro ticket mem
      rw [mem_singleton] at mem
      cases mem
      exact destroyable rfl
  | @createPsoc psoc _ fresh =>
    have idle := shape.detachedIdle (.psoc psoc) fresh
    refine silent rfl rfl fun node => ?_
    by_cases same : node = .psoc psoc
    · simp [dscPsocCreate, same, idle]
    · simp [dscPsocCreate, same]
  | @createVdev psoc vdev _ parent fresh =>
    have detached : ¬ tree.Attached (.vdev psoc vdev) := fun attached => fresh attached.2
    have idle := shape.detachedIdle _ detached
    refine silent rfl rfl fun node => ?_
    by_cases same : node = .vdev psoc vdev
    · simp [dscVdevCreate, same, idle]
    · simp [dscVdevCreate, same]
  | @destroyPsoc psoc mem leaf =>
    refine flush_logged (.psoc psoc) (by simp) (dscPsocDestroy_trans tree psoc) ?_ ?_
    · simp [dscPsocDestroy, dscTransFlush_eq]
    · simp [dscPsocDestroy, dscTransFlush_eq]
  | @destroyVdev psoc vdev parent mem =>
    refine flush_logged (.vdev psoc vdev) (by simp) (dscVdevDestroy_trans tree psoc vdev) ?_ ?_
    · simp [dscVdevDestroy, dscTransFlush_eq]
    · simp [dscVdevDestroy, dscTransFlush_eq]

structure Fair (tree : DscTree) : Prop where
  fifo : ∀ node, queuedTickets node tree.log = leftTickets node tree.log ++ (tree.trans node).tickets
  issued : ∀ node, ∀ ticket ∈ queuedTickets node tree.log, ticket < tree.tickets
  distinct : ∀ node, (queuedTickets node tree.log).Nodup
  priority : ∀ node before event later, tree.log = before ++ event :: later →
    Delays node event → ∀ ticket, .queued node ticket ∈ before →
    .triggered node ticket ∈ before ∨ .aborted node ticket ∈ before
  driverKept : ∀ ticket, .aborted .driver ticket ∉ tree.log

theorem Fair.left_of_unqueued (fair : Fair tree) (unqueued : ¬ tree.Queued node)
    (mem : .queued node ticket ∈ tree.log) : .triggered node ticket ∈ tree.log ∨ .aborted node ticket ∈ tree.log := by
  have empty : (tree.trans node).tickets = [] := by
    simpa [DscTree.Queued, dscTransQueued, tickets] using unqueued
  rw [← mem_leftTickets]
  have order := fair.fifo node
  rw [empty, append_nil] at order
  rw [← order]
  exact mem_queuedTickets.mpr mem

theorem Fair.step (fair : Fair tree) (logged : Logged tree after events) : Fair after := by
  refine ⟨fun node => ?_, fun node ticket mem => ?_, fun node => ?_, ?_, fun ticket mem => ?_⟩
  · rw [logged.log, queuedTickets_append, leftTickets_append, fair.fifo node,
      append_assoc, append_assoc, logged.fifo node]
  · rw [logged.log, queuedTickets_append, mem_append] at mem
    rcases logged.fresh with ⟨same, none⟩ | ⟨next, other, only⟩
    · rcases mem with old | new
      · rw [same]; exact fair.issued node ticket old
      · exact absurd (mem_queuedTickets.mp new) (none node ticket)
    rcases mem with old | new
    · have bound := fair.issued node ticket old
      omega
    · have event := mem_queuedTickets.mp new
      rw [only, mem_singleton] at event
      cases event
      omega
  · rw [logged.log, queuedTickets_append]
    rcases logged.fresh with ⟨_, none⟩ | ⟨_, other, only⟩
    · have nothing : queuedTickets node events = [] := by
        rw [eq_nil_iff_forall_not_mem]
        exact fun ticket mem => none node ticket (mem_queuedTickets.mp mem)
      rw [nothing, append_nil]
      exact fair.distinct node
    by_cases same : other = node
    · have one : queuedTickets node events = [tree.tickets] := by
        simp [queuedTickets, only, same]
      rw [one]
      rw [nodup_append]
      refine ⟨fair.distinct node, nodup_singleton _, fun old mem new last => ?_⟩
      have bound := fair.issued node old mem
      rw [mem_singleton] at last
      omega
    · have nothing : queuedTickets node events = [] := by
        simp [queuedTickets, only, same]
      rw [nothing, append_nil]
      exact fair.distinct node
  · intro node before event later split delays ticket mem
    -- an event of this step: nobody waits on the node, so all who did have left
    have recent (first : List Event) (isBefore : before = tree.log ++ first)
        (isEvents : events = first ++ event :: later) :
        .triggered node ticket ∈ before ∨ .aborted node ticket ∈ before := by
      have unqueued : ¬ tree.Queued node := fun queued =>
        logged.priority node queued event (by simp [isEvents]) delays
      have old : .queued node ticket ∈ tree.log := by
        rw [isBefore, mem_append] at mem
        refine mem.resolve_right fun new => ?_
        rcases logged.fresh with ⟨_, none⟩ | ⟨_, other, only⟩
        · exact none node ticket (by simp [isEvents, new])
        · rw [isEvents] at only
          cases first with
          | nil => cases new
          | cons head tail => simp at only
      rw [isBefore, mem_append, mem_append]
      exact (fair.left_of_unqueued unqueued old).imp .inl .inl
    rw [logged.log] at split
    rcases append_eq_append_iff.mp split with
      ⟨first, isBefore, isEvents⟩ | ⟨rest, isLog, isRest⟩
    · exact recent first isBefore isEvents
    cases rest with
    | nil =>
      exact recent [] (by simp [isLog]) (by simpa using isRest.symm)
    | cons head tail =>
      rw [cons_append, cons.injEq] at isRest
      exact fair.priority node before event tail (by rw [isLog, isRest.1]) delays ticket mem
  · rw [logged.log, mem_append] at mem
    rcases mem with old | new
    · exact fair.driverKept ticket old
    · exact logged.driverKept ticket new

theorem Move.respects_waiting (shape : tree.Shape) (move : Move tree action after)
    (queued : tree.Queued node) (lt : other.Below node) (active : after.Active other) : tree.Active other := by
  cases move with
  | refuse _ => exact active
  | @start _ started desc attached can =>
    by_cases same : other = started
    · exact absurd queued (can.above node (same ▸ lt)).2
    · simpa [DscTree.Active, dscTransStart, same] using active
  | wait _ _ | abort _ _ _ =>
    refine active_of_update rfl ?_ active
    exact .inr rfl
  | @stop stopped attached =>
    have nodup := wakes_nodup (dscTransStop_shape shape attached) stopped
    rcases wakeAll_active nodup active with woken | before
    · exact absurd lt ((woken_of_mem woken).not_below (dscTransStop_queued.mpr queued))
    · exact (dscTransStop_active before).2
  | enter _ _ => exact active
  | leave _ => exact active
  | createPsoc _ | createVdev _ _ => exact active_of_update rfl (.inl rfl) active
  | destroyPsoc _ _ => exact active_of_update (dscPsocDestroy_trans _ _) (.inl rfl) active
  | destroyVdev _ _ => exact active_of_update (dscVdevDestroy_trans _ _ _) (.inl rfl) active

theorem opStart_success (shape : tree.Shape)
    (success : (opStart tree platform allocated func node).1 = .success) : CanStart tree node := by
  cases func with
  | none => cases node <;> cases success
  | some func =>
    cases node with
    | driver =>
      simp only [opStart, dscDriverOpStart] at success
      cases can : dscDriverCanOp tree with
      | false => simp [can] at success
      | true => exact (dscDriverCanTrans_iff shape).mp can
    | psoc psoc =>
      simp only [opStart, dscPsocOpStart] at success
      cases can : dscPsocCanOp tree psoc with
      | success => exact (dscPsocCanTrans_iff shape).mp can
      | _ => simp [can] at success
    | vdev psoc vdev =>
      simp only [opStart, dscVdevOpStart] at success
      cases can : dscVdevCanOp tree platform psoc vdev with
      | success => exact dscVdevCanTrans_success can
      | _ => simp [can] at success

theorem created_fair : Fair created where
  fifo := fun _ => rfl
  issued := fun _ _ mem => nomatch mem
  distinct := fun _ => nodup_nil
  priority := fun _ _ _ _ split => by simp [created] at split
  driverKept := fun _ mem => nomatch mem

theorem waiting_has_priority (reached : Data.Reachable step (fun _ _ => True) created tree) :
    (∀ before event later, tree.log = before ++ event :: later →
      Delays .driver event → ∀ ticket, .queued .driver ticket ∈ before → .triggered .driver ticket ∈ before) ∧
      (∀ psoc before event later, tree.log = before ++ event :: later →
        Delays (.psoc psoc) event → ∀ ticket, .queued (.psoc psoc) ticket ∈ before →
          .triggered (.psoc psoc) ticket ∈ before ∨ .aborted (.psoc psoc) ticket ∈ before) ∧
      (∀ node, (queuedTickets node tree.log).Nodup ∧
        (activatedTickets node tree.log).Sublist (leftTickets node tree.log) ∧ queuedTickets node tree.log =
          leftTickets node tree.log ++ (tree.trans node).queue.map DscTran.ticket) ∧
      ∀ node, tree.Queued node → (∀ action after, step tree action = some after →
          ∀ other : Node, other.Below node → after.Active other → tree.Active other) ∧
        ∀ other : Node, other = node ∨ other.Below node → ∀ func platform allocated,
          (opStart tree platform allocated func other).1 ≠ .success := by
  have ⟨shape, fair⟩ : tree.Shape ∧ Fair tree := by
    refine reachable_invariant reached Fair created_fair ?_
    intro before action after shape fair _ move
    obtain ⟨events, logged⟩ := move.logged shape
    exact fair.step logged
  refine ⟨?_, fun psoc => fair.priority (.psoc psoc), fun node => ⟨fair.distinct node,
    activatedTickets_sublist node tree.log, fair.fifo node⟩, ?_⟩
  · intro before event later split delays ticket member
    refine (fair.priority .driver before event later split delays ticket member).resolve_right ?_
    intro aborted
    exact fair.driverKept ticket (by rw [split]; exact mem_append_left _ aborted)
  · intro node queued
    refine ⟨fun action after taken other below active =>
      (step_move shape taken).respects_waiting shape queued below active, ?_⟩
    intro other within func platform allocated success
    have can := opStart_success shape success
    rcases within with same | below
    · exact can.unqueued (same ▸ queued)
    · exact (can.above node below).2 queued

def priorityActions : List Action :=
  [.createPsoc 0 true, .createVdev 0 0 true, .transStart (.vdev 0 0) (some "start") {},
    .transStartWait (.psoc 0) (some "ssr") {}, .transStartWait .driver (some "unload") {},
    .transStop (.vdev 0 0), .transStop .driver]

theorem waiting_has_priority_turns :
    ∃ tree, Data.runActions step (fun _ _ => True) created priorityActions = some tree ∧
      .triggered .driver 1 ∈ tree.log ∧ tree.Active (.psoc 0) ∧ (queuedTickets .driver tree.log).Nodup :=
  Data.ran_to (fun tree => .triggered .driver 1 ∈ tree.log ∧ tree.Active (.psoc 0)) (by decide) fun _ ran ⟨turn, active⟩ =>
    ⟨turn, active, ((waiting_has_priority (.run .start ran)).2.2.1 .driver).1⟩

end KernelModules.Dsc

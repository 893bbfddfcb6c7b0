import KernelModules.Dsc.Moves

namespace KernelModules.Dsc

/-! # Queued transitions are served

A stop may leave work for a later stop, so some active transition always stands between a queue and the cascades.
-/

namespace DscTree

/-- Some `trans_stop` that is still to come looks at the queue of `node`, or at a queue
whose own stop will. -/
def Served (tree : DscTree) (node : Node) : Prop :=
  tree.Active node ∨ (∃ below : Node, below.Below node ∧ tree.Active below) ∨
    ∃ above : Node, node.Below above ∧ (tree.Active above ∨ tree.Queued above)

def NoneStranded (tree : DscTree) : Prop :=
  ∀ node, tree.Queued node → tree.Served node

end DscTree

def DestroysIdle (tree : DscTree) : Action → Prop
  | .flush node => ¬ tree.Queued node
  | .destroyPsoc psoc => ¬ tree.Active (.psoc psoc) ∧ ¬ tree.Queued (.psoc psoc)
  | .destroyVdev psoc vdev => ¬ tree.Active (.vdev psoc vdev) ∧ ¬ tree.Queued (.vdev psoc vdev)
  | _ => True

instance (tree : DscTree) : (action : Action) → Decidable (DestroysIdle tree action)
  | .flush node => inferInstanceAs (Decidable (¬ tree.Queued node))
  | .destroyPsoc psoc =>
    inferInstanceAs (Decidable (¬ tree.Active (.psoc psoc) ∧ ¬ tree.Queued (.psoc psoc)))
  | .destroyVdev psoc vdev =>
    inferInstanceAs
      (Decidable (¬ tree.Active (.vdev psoc vdev) ∧ ¬ tree.Queued (.vdev psoc vdev)))
  | .transStart .. | .transStartWait .. | .transStop .. | .opStart .. | .opStop ..
  | .createPsoc .. | .createVdev .. => .isTrue trivial

variable {tree after : DscTree} {action : Action} {node : Node}

theorem served_of_not_canStart (cannot : ¬ CanStart tree node) : tree.Queued node ∨ tree.Served node := by
  by_contra neither
  obtain ⟨unqueued, unserved⟩ := not_or.mp neither
  obtain ⟨inactive, rest⟩ := not_or.mp unserved
  obtain ⟨lt, above⟩ := not_or.mp rest
  refine cannot ⟨inactive, unqueued, ?_, ?_⟩
  · intro other order active
    exact lt ⟨other, order, active⟩
  · intro other order
    exact not_or.mp fun busy => above ⟨other, order, busy⟩

theorem DscTree.Served.mono (served : tree.Served node) (active : ∀ other, tree.Active other → after.Active other)
    (queued : ∀ other, tree.Queued other → after.Active other ∨ after.Queued other) : after.Served node := by
  rcases served with here | ⟨lt, order, busy⟩ | ⟨above, order, busy⟩
  · exact .inl (active node here)
  · exact .inr (.inl ⟨lt, order, active lt busy⟩)
  · exact .inr (.inr ⟨above, order, busy.elim (fun busy => .inl (active above busy)) (queued above)⟩)

theorem DscTree.NoneStranded.of_trans (holds : tree.NoneStranded)
    (same : after.trans = tree.trans) : after.NoneStranded := by
  intro node queued
  have before : tree.Queued node := by rw [DscTree.Queued, ← same]; exact queued
  refine (holds node before).mono (fun other active => ?_) (fun other waiting => .inr ?_)
  · rw [DscTree.Active, same]; exact active
  · rw [DscTree.Queued, same]; exact waiting

theorem trans_idle (inactive : ¬ tree.Active node) (unqueued : ¬ tree.Queued node) : tree.trans node = {} := by
  have desc : (tree.trans node).activeDesc = none := by
    simpa [DscTree.Active, dscTransActive] using inactive
  have queue : (tree.trans node).queue = [] := by
    simpa [DscTree.Queued, dscTransQueued] using unqueued
  cases fields : tree.trans node with
  | mk activeDesc waiting =>
    rw [fields] at desc queue
    cases desc
    cases queue
    rfl

theorem served_below_driver (busy : tree.Queued .driver ∨ tree.Active .driver)
    (active : ∃ other, tree.Active other) : tree.Served node := by
  have above (order : node.Below .driver) : tree.Served node :=
    .inr (.inr ⟨.driver, order, busy.symm⟩)
  cases node with
  | driver =>
    obtain ⟨other, active⟩ := active
    cases other with
    | driver => exact .inl active
    | psoc psoc => exact .inr (.inl ⟨_, .psocDriver psoc, active⟩)
    | vdev psoc vdev => exact .inr (.inl ⟨_, .vdevDriver psoc vdev, active⟩)
  | psoc psoc => exact above (.psocDriver psoc)
  | vdev psoc vdev => exact above (.vdevDriver psoc vdev)

section Stop

variable {stopped : DscTree}

theorem served_after_checked (shape : stopped.Shape) (queued : stopped.Queued .driver)
    (listed : nodes = if dscDriverCanTrigger stopped then [.driver] else []) : (wakeAll stopped nodes).Served node := by
  have nodup : nodes.Nodup := by
    rw [listed]
    split <;> simp
  refine served_below_driver (wakeAll_queued nodup queued).symm ?_
  cases can : dscDriverCanTrigger stopped with
  | true =>
    have mem : Node.driver ∈ nodes := by simp [listed, can]
    exact ⟨.driver, wakeAll_wakes nodup mem queued⟩
  | false =>
    have blocked : ¬ (¬ stopped.Active .driver ∧ ∀ other, other.Below .driver → ¬ stopped.Active other) := by
      rw [← dscDriverCanTrigger_iff shape, can]
      simp
    by_cases drv : stopped.Active .driver
    · exact ⟨.driver, wakeAll_keeps nodup drv⟩
    · by_contra none
      refine blocked ⟨drv, fun other _ active => none ⟨other, ?_⟩⟩
      exact wakeAll_keeps nodup active

theorem served_elsewhere (nodup : nodes.Nodup) (served : tree.Served other)
    (unrelated : ¬ other.Related node) : (wakeAll (dscTransStop tree node) nodes).Served other := by
  have active {reason : Node} (apart : reason ≠ node) (busy : tree.Active reason) :
      (wakeAll (dscTransStop tree node) nodes).Active reason :=
    wakeAll_keeps nodup (dscTransStop_keeps apart busy)
  have queued (reason : Node) (waiting : tree.Queued reason) : (wakeAll (dscTransStop tree node) nodes).Active reason ∨
        (wakeAll (dscTransStop tree node) nodes).Queued reason :=
    wakeAll_queued nodup (dscTransStop_queued.mpr waiting)
  rcases served with here | ⟨lt, order, busy⟩ | ⟨above, order, busy⟩
  · exact .inl (active (fun same => unrelated (.inl same)) here)
  · refine .inr (.inl ⟨lt, order, active ?_ busy⟩)
    intro same
    exact unrelated (.inr (.inr (same ▸ order)))
  · refine .inr (.inr ⟨above, order, busy.elim (fun busy => .inl (active ?_ busy)) (queued above)⟩)
    intro same
    exact unrelated (.inr (.inl (same ▸ order)))

theorem served_after_psocWakes (nodup : nodes.Nodup)
    (listed : ∀ woken ∈ psocWakes stopped psoc, woken ∈ nodes) (attached : stopped.Attached node)
    (queued : stopped.Queued node) (lt : node = .psoc psoc ∨ node.Below (.psoc psoc)) :
    (wakeAll stopped nodes).Served node := by
  rcases lt with same | below
  · subst same
    exact .inl (wakeAll_wakes nodup (listed _ (mem_psocWakes.mpr (.inl ⟨queued, rfl⟩))) queued)
  cases below with
  | vdevPsoc _ vdev =>
    by_cases psocQueued : stopped.Queued (.psoc psoc)
    · have mem := listed _ (mem_psocWakes.mpr (.inl ⟨psocQueued, rfl⟩))
      exact .inr (.inr ⟨_, .vdevPsoc psoc vdev, .inl (wakeAll_wakes nodup mem psocQueued)⟩)
    · have mem :=
        listed _ (mem_psocWakes.mpr (.inr ⟨psocQueued, vdev, attached.2, rfl⟩))
      exact .inl (wakeAll_wakes nodup mem queued)

theorem served_after_driver_stop (shape : stopped.Shape) (queued : stopped.Queued node) :
    (wakeAll stopped (wakes stopped .driver)).Served node := by
  have nodup := wakes_nodup shape .driver
  have attached := shape.attached_of_queued queued
  by_cases driverQueued : stopped.Queued .driver
  · have woken : (wakeAll stopped (wakes stopped .driver)).Active .driver :=
      wakeAll_wakes nodup (by simp [wakes, driverQueued]) driverQueued
    exact served_below_driver (.inr woken) ⟨.driver, woken⟩
  have mem {psoc : Nat} (member : psoc ∈ stopped.psocs) :
      ∀ woken ∈ psocWakes stopped psoc, woken ∈ wakes stopped .driver := by
    intro woken inPsoc
    simp only [wakes, driverQueued, if_false]
    exact List.mem_flatMap.mpr ⟨psoc, member, inPsoc⟩
  cases node with
  | driver => exact absurd queued driverQueued
  | psoc psoc =>
    exact served_after_psocWakes nodup (mem attached) attached queued (.inl rfl)
  | vdev psoc vdev =>
    exact served_after_psocWakes nodup (mem attached.1) attached queued (.inr (.vdevPsoc psoc vdev))

theorem served_after_psoc_stop (shape : (dscTransStop tree (.psoc psoc)).Shape) (served : tree.Served node)
    (queued : (dscTransStop tree (.psoc psoc)).Queued node) : (wakeAll (dscTransStop tree (.psoc psoc))
      (wakes (dscTransStop tree (.psoc psoc)) (.psoc psoc))).Served node := by
  have nodup := wakes_nodup shape (.psoc psoc)
  have attached := shape.attached_of_queued queued
  by_cases driverQueued : (dscTransStop tree (.psoc psoc)).Queued .driver
  · exact served_after_checked shape driverQueued (by simp [wakes, driverQueued])
  by_cases related : node.Related (.psoc psoc)
  · have lt : node = .psoc psoc ∨ node.Below (.psoc psoc) := by
      rcases related with same | below | above
      · exact .inl same
      · exact .inr below
      · cases above with
        | psocDriver _ => exact absurd queued driverQueued
    refine served_after_psocWakes nodup (fun woken mem => ?_) attached queued lt
    simpa [wakes, driverQueued] using mem
  · exact served_elsewhere nodup served related

theorem served_after_vdev_stop (shape : (dscTransStop tree (.vdev psoc vdev)).Shape)
    (served : tree.Served node) (queued : (dscTransStop tree (.vdev psoc vdev)).Queued node) :
    (wakeAll (dscTransStop tree (.vdev psoc vdev))
      (wakes (dscTransStop tree (.vdev psoc vdev)) (.vdev psoc vdev))).Served node := by
  have nodup := wakes_nodup shape (.vdev psoc vdev)
  by_cases driverQueued : (dscTransStop tree (.vdev psoc vdev)).Queued .driver
  · exact served_after_checked shape driverQueued (by simp [wakes, driverQueued])
  by_cases related : node.Related (.vdev psoc vdev)
  · by_cases psocQueued : (dscTransStop tree (.vdev psoc vdev)).Queued (.psoc psoc)
    · have onPath : node = .vdev psoc vdev ∨ node = .psoc psoc := by
        rcases related with same | lt | above
        · exact .inl same
        · cases lt
        · cases above with
          | vdevDriver _ _ => exact absurd queued driverQueued
          | vdevPsoc _ _ => exact .inr rfl
      rcases onPath with same | same
      · subst same
        exact .inr (.inr ⟨_, .vdevPsoc psoc vdev, wakeAll_queued nodup psocQueued⟩)
      subst same
      cases can : dscPsocCanTrigger (dscTransStop tree (.vdev psoc vdev)) psoc with
      | true =>
        exact .inl (wakeAll_wakes nodup (by simp [wakes, driverQueued, psocQueued, can]) psocQueued)
      | false =>
        -- nothing is woken, so what blocked the psoc is still there
        by_contra unserved
        obtain ⟨inactive, rest⟩ := not_or.mp unserved
        obtain ⟨lt, above⟩ := not_or.mp rest
        have free : dscPsocCanTrigger (dscTransStop tree (.vdev psoc vdev)) psoc = true := by
          rw [dscPsocCanTrigger_iff shape]
          refine ⟨?_, driverQueued, ?_, ?_⟩
          · intro active
            exact above ⟨_, .psocDriver psoc, .inl (wakeAll_keeps nodup active)⟩
          · intro active
            exact inactive (wakeAll_keeps nodup active)
          · intro other active
            exact lt ⟨_, .vdevPsoc psoc other, wakeAll_keeps nodup active⟩
        rw [can] at free
        cases free
    · have here : node = .vdev psoc vdev := by
        rcases related with same | lt | above
        · exact same
        · cases lt
        · cases above with
          | vdevDriver _ _ => exact absurd queued driverQueued
          | vdevPsoc _ _ => exact absurd queued psocQueued
      subst here
      exact .inl (wakeAll_wakes nodup (by simp [wakes, driverQueued, psocQueued]) queued)
  · exact served_elsewhere nodup served related

theorem stop_noneStranded (shape : tree.Shape) (attached : tree.Attached node) (holds : tree.NoneStranded) :
    (wakeAll (dscTransStop tree node) (wakes (dscTransStop tree node) node)).NoneStranded := by
  have stoppedShape := dscTransStop_shape shape attached
  intro other queued
  have waiting := queued_of_wakeAll (wakes_nodup stoppedShape node) queued
  have served := holds other (dscTransStop_queued.mp waiting)
  cases node with
  | driver => exact served_after_driver_stop stoppedShape waiting
  | psoc psoc => exact served_after_psoc_stop stoppedShape served waiting
  | vdev psoc vdev => exact served_after_vdev_stop stoppedShape served waiting

end Stop

theorem Move.noneStranded (shape : tree.Shape) (holds : tree.NoneStranded)
    (permitted : DestroysIdle tree action) (move : Move tree action after) : after.NoneStranded := by
  have reset {changed : DscTree} {node : Node} (idle : tree.trans node = {})
      (update : changed.trans = Function.update tree.trans node {}) : changed.NoneStranded := by
    refine holds.of_trans ?_
    rw [update, ← idle, Function.update_eq_self]
  cases move with
  | refuse _ => exact holds.of_trans rfl
  | @start _ node desc attached can =>
    intro other queued
    have waiting : tree.Queued other := by
      by_cases same : other = node
      · subst same
        simpa [DscTree.Queued, dscTransStart, dscTransQueued] using queued
      · simpa [DscTree.Queued, dscTransStart, same] using queued
    refine (holds other waiting).mono (fun reason active => ?_) (fun reason blocked => .inr ?_)
    · by_cases same : reason = node
      · subst same
        simp [DscTree.Active, dscTransStart, dscTransActive]
      · simpa [DscTree.Active, dscTransStart, same] using active
    · by_cases same : reason = node
      · exact absurd (same ▸ blocked) can.unqueued
      · simpa [DscTree.Queued, dscTransStart, same] using blocked
  | @wait _ node desc attached cannot =>
    intro other queued
    have served : tree.Served other := by
      by_cases same : other = node
      · subst same
        exact (served_of_not_canStart cannot).elim (holds other) id
      · exact holds other (by simpa [DscTree.Queued, dscTransQueue, same] using queued)
    refine served.mono (fun reason active => ?_) (fun reason blocked => .inr ?_)
    · by_cases same : reason = node
      · subst same
        simpa [DscTree.Active, dscTransQueue, dscTransActive] using active
      · simpa [DscTree.Active, dscTransQueue, same] using active
    · by_cases same : reason = node
      · subst same
        simp [DscTree.Queued, dscTransQueue, dscTransQueued]
      · simpa [DscTree.Queued, dscTransQueue, same] using blocked
  | stop attached => exact stop_noneStranded shape attached holds
  | enter _ _ => exact holds.of_trans rfl
  | leave _ => exact holds.of_trans rfl
  | abort _ _ queue =>
    refine absurd ?_ permitted
    simp [DscTree.Queued, dscTransQueued, queue]
  | @createPsoc psoc _ fresh => exact reset (shape.detachedIdle (.psoc psoc) fresh) rfl
  | @createVdev psoc vdev _ _ fresh =>
    have detached : ¬ tree.Attached (.vdev psoc vdev) := fun attached => fresh attached.2
    exact reset (shape.detachedIdle _ detached) rfl
  | destroyPsoc _ _ => exact reset (trans_idle permitted.1 permitted.2) (dscPsocDestroy_trans _ _)
  | destroyVdev _ _ => exact reset (trans_idle permitted.1 permitted.2) (dscVdevDestroy_trans _ _ _)

theorem queues_never_stranded (reached : Data.Reachable step DestroysIdle created tree) :
    (tree.Queued .driver → ∃ node, tree.Active node) ∧ (∀ psoc, tree.Queued (.psoc psoc) →
        tree.Active .driver ∨ tree.Queued .driver ∨ tree.Active (.psoc psoc) ∨
          ∃ vdev, tree.Active (.vdev psoc vdev)) ∧
      (∀ psoc vdev, tree.Queued (.vdev psoc vdev) →
        tree.Active .driver ∨ tree.Queued .driver ∨ tree.Active (.psoc psoc) ∨
          tree.Queued (.psoc psoc) ∨ tree.Active (.vdev psoc vdev)) ∧
      ((∀ node, ¬ tree.Active node) → ∀ node, (tree.trans node).queue = []) := by
  have holds : tree.NoneStranded := (reachable_invariant reached DscTree.NoneStranded
    (fun node queued => by simp [DscTree.Queued, created, dscTransQueued] at queued)
    (fun _ _ _ shape holds permitted move => move.noneStranded shape holds permitted)).2
  have driver (queued : tree.Queued .driver) : ∃ node, tree.Active node := by
    rcases holds .driver queued with here | ⟨below, _, active⟩ | ⟨above, order, _⟩
    · exact ⟨_, here⟩
    · exact ⟨below, active⟩
    · cases order
  have psoc (psoc : Nat) (queued : tree.Queued (.psoc psoc)) :
      tree.Active .driver ∨ tree.Queued .driver ∨ tree.Active (.psoc psoc) ∨
        ∃ vdev, tree.Active (.vdev psoc vdev) := by
    rcases holds _ queued with here | ⟨below, order, active⟩ | ⟨above, order, busy⟩
    · exact .inr (.inr (.inl here))
    · cases order with
      | vdevPsoc _ vdev => exact .inr (.inr (.inr ⟨vdev, active⟩))
    · cases order with
      | psocDriver _ => exact busy.imp_right .inl
  have vdev (psoc vdev : Nat) (queued : tree.Queued (.vdev psoc vdev)) :
      tree.Active .driver ∨ tree.Queued .driver ∨ tree.Active (.psoc psoc) ∨
        tree.Queued (.psoc psoc) ∨ tree.Active (.vdev psoc vdev) := by
    rcases holds _ queued with here | ⟨below, order, _⟩ | ⟨above, order, busy⟩
    · exact .inr (.inr (.inr (.inr here)))
    · cases order
    · cases order with
      | vdevDriver _ _ => exact busy.imp_right .inl
      | vdevPsoc _ _ => exact .inr (.inr (busy.imp_right .inl))
  refine ⟨driver, psoc, vdev, fun quiet => ?_⟩
  have driverEmpty : ¬ tree.Queued .driver := fun queued =>
    (driver queued).elim quiet
  have psocsEmpty (psocId : Nat) : ¬ tree.Queued (.psoc psocId) := by
    intro queued
    rcases psoc psocId queued with active | waiting | active | ⟨child, active⟩
    · exact quiet _ active
    · exact driverEmpty waiting
    · exact quiet _ active
    · exact quiet _ active
  intro node
  have empty : ¬ tree.Queued node := by
    cases node with
    | driver => exact driverEmpty
    | psoc psocId => exact psocsEmpty psocId
    | vdev psocId vdevId =>
      intro queued
      rcases vdev psocId vdevId queued with active | waiting | active | waiting | active
      · exact quiet _ active
      · exact driverEmpty waiting
      · exact quiet _ active
      · exact psocsEmpty psocId waiting
      · exact quiet _ active
  simpa [DscTree.Queued, dscTransQueued] using empty

def waitingActions : List Action :=
  [.createPsoc 0 true, .createVdev 0 0 true, .transStart (.vdev 0 0) (some "start") {},
    .transStartWait (.psoc 0) (some "ssr") {}, .transStartWait .driver (some "unload") {}]

theorem queues_never_stranded_waiting :
    ∃ tree, Data.runActions step DestroysIdle created waitingActions = some tree ∧
      tree.Queued .driver ∧ tree.Queued (.psoc 0) ∧ ∃ node, tree.Active node :=
  Data.ran_to (fun tree => tree.Queued .driver ∧ tree.Queued (.psoc 0)) (by decide) fun _ ran ⟨driver, psoc⟩ =>
    ⟨driver, psoc, (queues_never_stranded (.run .start ran)).1 driver⟩

end KernelModules.Dsc

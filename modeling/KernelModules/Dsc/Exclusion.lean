import KernelModules.Dsc.Moves

namespace KernelModules.Dsc

/-! # Transition exclusion

A transition owns its node with everything below and above it.  Start paths check that; cascades inherit it.
-/

def DscTree.Exclusive (tree : DscTree) : Prop :=
  ∀ below above : Node, below.Below above → ¬ (tree.Active below ∧ tree.Active above)

/-- `trans_stop` is called by the holder of the transition. -/
def StopsActive (tree : DscTree) : Action → Prop
  | .transStop node => tree.Active node
  | _ => True

instance (tree : DscTree) (action : Action) : Decidable (StopsActive tree action) := by
  cases action <;> dsimp only [StopsActive] <;> infer_instance

variable {tree after : DscTree} {action : Action}

theorem CanStart.free (can : CanStart tree node) (related : other.Related node) : ¬ tree.Active other := by
  rcases related with rfl | lt | above
  · exact can.inactive
  · exact can.below other lt
  · exact (can.above other above).1

theorem DscTree.Exclusive.activate (exclusive : tree.Exclusive) (started : Node → Prop)
    (grows : ∀ other, after.Active other → started other ∨ tree.Active other)
    (free : ∀ node other, started node → other.Related node → ¬ tree.Active other)
    (antichain : ∀ lt above : Node, lt.Below above → ¬ (started lt ∧ started above)) : after.Exclusive := by
  rintro lt above order ⟨belowActive, aboveActive⟩
  rcases grows lt belowActive with belowStarted | belowBefore
  · rcases grows above aboveActive with aboveStarted | aboveBefore
    · exact antichain lt above order ⟨belowStarted, aboveStarted⟩
    · exact free lt above belowStarted (.inr (.inr order)) aboveBefore
  · rcases grows above aboveActive with aboveStarted | aboveBefore
    · exact free above lt aboveStarted (.inr (.inl order)) belowBefore
    · exact exclusive lt above order ⟨belowBefore, aboveBefore⟩

theorem dscTransStop_free (exclusive : tree.Exclusive) (active : tree.Active node)
    (related : other.Related node) : ¬ (dscTransStop tree node).Active other := by
  intro still
  obtain ⟨apart, before⟩ := dscTransStop_active still
  rcases related with same | lt | above
  · exact apart same
  · exact exclusive other node lt ⟨before, active⟩
  · exact exclusive node other above ⟨active, before⟩

theorem Woken.free (shape : stopped.Shape)
    (owned : ∀ other : Node, other.Related node → ¬ stopped.Active other) (why : Woken stopped node woken)
    (related : other.Related woken) : ¬ stopped.Active other := by
  have everything (driver : node = .driver) (other : Node) : other.Related node := by
    subst driver
    cases other with
    | driver => exact .inl rfl
    | psoc psoc => exact .inr (.inl (.psocDriver psoc))
    | vdev psoc vdev => exact .inr (.inl (.vdevDriver psoc vdev))
  cases why with
  | driver _ free =>
    rcases free with driver | can
    · exact owned other (everything driver other)
    · obtain ⟨inactive, lt⟩ := (dscDriverCanTrigger_iff shape).mp can
      rcases related with rfl | order | order
      · exact inactive
      · exact lt other order
      · cases order
  | psoc psoc _ _ free =>
    rcases free with driver | rfl | can
    · exact owned other (everything driver other)
    · exact owned other related
    obtain ⟨driverFree, _, psocFree, vdevsFree⟩ := (dscPsocCanTrigger_iff shape).mp can
    rcases related with rfl | order | order
    · exact psocFree
    · cases order with
      | vdevPsoc _ vdev => exact vdevsFree vdev
    · cases order with
      | psocDriver _ => exact driverFree
  | vdev psoc vdev _ _ free =>
    rcases free with driver | rfl | rfl
    · exact owned other (everything driver other)
    · refine owned other ?_
      rcases related with rfl | order | order
      · exact .inr (.inl (.vdevPsoc psoc vdev))
      · cases order
      · cases order with
        | vdevDriver _ _ => exact .inr (.inr (.psocDriver psoc))
        | vdevPsoc _ _ => exact .inl rfl
    · exact owned other related

theorem Woken.antichain (order : below.Below above) : ¬ (Woken stopped node below ∧ Woken stopped node above) := by
  rintro ⟨whyBelow, whyAbove⟩
  cases order with
  | psocDriver psoc =>
    cases whyBelow with
    | psoc _ driverIdle _ _ => cases whyAbove with
      | driver queued _ => exact driverIdle queued
  | vdevDriver psoc vdev =>
    cases whyBelow with
    | vdev _ _ driverIdle _ _ => cases whyAbove with
      | driver queued _ => exact driverIdle queued
  | vdevPsoc psoc vdev =>
    cases whyBelow with
    | vdev _ _ _ psocIdle _ => cases whyAbove with
      | psoc _ _ queued _ => exact psocIdle queued

theorem Move.exclusive (shape : tree.Shape) (exclusive : tree.Exclusive)
    (known : .transStart ∉ tree.failedAsserts) (permitted : StopsActive tree action)
    (move : Move tree action after) : after.Exclusive ∧ .transStart ∉ after.failedAsserts := by
  have shrink {changed : DscTree} (fewer : ∀ other, changed.Active other → tree.Active other) :
      changed.Exclusive := fun lt above order both =>
    exclusive lt above order ⟨fewer lt both.1, fewer above both.2⟩
  have keep {changed : DscTree} {node : Node} {trans : DscTrans}
      (update : changed.trans = Function.update tree.trans node trans)
      (smaller : trans.activeDesc = none ∨ trans.activeDesc = (tree.trans node).activeDesc) : changed.Exclusive :=
    shrink fun other active => active_of_update update smaller active
  cases move with
  | refuse same => exact ⟨exclusive, fun failed => known (same failed)⟩
  | @start _ node desc attached can =>
    have inactive : dscTransActive (tree.trans node) = false := by
      simpa [DscTree.Active] using can.inactive
    refine ⟨exclusive.activate (· = node) ?_ ?_ ?_, ?_⟩
    · intro other active
      by_cases same : other = node
      · exact .inl same
      · exact .inr (by simpa [DscTree.Active, dscTransStart, same] using active)
    · rintro started other rfl related
      exact can.free related
    · rintro lt above order ⟨rfl, rfl⟩
      cases order
    · simpa [dscTransStart, inactive] using known
  | wait _ _ | abort _ _ _ => exact ⟨keep rfl (.inr rfl), known⟩
  | @stop node attached =>
    have stoppedShape := dscTransStop_shape shape attached
    have nodup := wakes_nodup stoppedShape node
    have owned : ∀ other : Node, other.Related node → ¬ (dscTransStop tree node).Active other :=
      fun other related => dscTransStop_free exclusive permitted related
    have free : ∀ woken other : Node, woken ∈ wakes (dscTransStop tree node) node →
        other.Related woken → ¬ (dscTransStop tree node).Active other :=
      fun woken other mem related => (woken_of_mem mem).free stoppedShape owned related
    have stoppedExclusive : (dscTransStop tree node).Exclusive := keep rfl (.inl rfl)
    refine ⟨stoppedExclusive.activate (· ∈ wakes (dscTransStop tree node) node)
      (fun _ => wakeAll_active nodup) free ?_, ?_⟩
    · rintro lt above order ⟨inBelow, inAbove⟩
      exact Woken.antichain order ⟨woken_of_mem inBelow, woken_of_mem inAbove⟩
    · rw [wakeAll_failedAsserts nodup fun woken mem => free woken woken mem (.inl rfl)]
      have active : dscTransActive (tree.trans node) = true := permitted
      simpa [dscTransStop, active] using known
  | enter _ _ => exact ⟨exclusive, known⟩
  | leave _ =>
    refine ⟨exclusive, ?_⟩
    simp only [dscOpsRemove, dscAssert, DscTree.setOps]
    split <;> simp [known]
  | createPsoc _ | createVdev _ _ => exact ⟨keep rfl (.inl rfl), known⟩
  | destroyPsoc _ _ =>
    exact ⟨keep (dscPsocDestroy_trans tree _) (.inl rfl), fun failed => known (dscPsocDestroy_failedAsserts failed)⟩
  | destroyVdev _ _ =>
    exact ⟨keep (dscVdevDestroy_trans tree _ _) (.inl rfl), fun failed => known (dscVdevDestroy_failedAsserts failed)⟩

theorem transitions_exclusive (reached : Data.Reachable step StopsActive created tree) :
    (∀ below above : Node, below.Below above → ¬ (tree.Active below ∧ tree.Active above)) ∧
      .transStart ∉ tree.failedAsserts := by
  refine (reachable_invariant reached
    (fun tree => tree.Exclusive ∧ .transStart ∉ tree.failedAsserts) ⟨?_, ?_⟩ ?_).2
  · rintro below above _ ⟨active, _⟩
    simp [DscTree.Active, created, dscTransActive] at active
  · simp [created]
  · rintro before action after shape ⟨exclusive, known⟩ permitted move
    exact move.exclusive shape exclusive known permitted

/-- The psoc and then the driver queue behind the vdev's transition, which then stops. -/
def contendedActions : List Action :=
  [.createPsoc 0 true, .createVdev 0 0 true, .transStart (.vdev 0 0) (some "start") {},
    .transStartWait (.psoc 0) (some "ssr") {}, .transStartWait .driver (some "unload") {}, .transStop (.vdev 0 0)]

theorem transitions_exclusive_contended :
    ∃ tree, Data.runActions step StopsActive created contendedActions = some tree ∧
      tree.Active .driver ∧ tree.Queued (.psoc 0) ∧
      ¬ (tree.Active (.psoc 0) ∧ tree.Active .driver) ∧ .transStart ∉ tree.failedAsserts :=
  Data.ran_to (fun tree => tree.Active .driver ∧ tree.Queued (.psoc 0)) (by decide) fun _ ran ⟨active, queued⟩ =>
    ⟨active, queued, (transitions_exclusive (.run .start ran)).1 _ _ (.psocDriver 0),
      (transitions_exclusive (.run .start ran)).2⟩

end KernelModules.Dsc

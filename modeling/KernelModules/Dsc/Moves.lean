import KernelModules.Data.Run
import KernelModules.Dsc.Cascade

namespace KernelModules.Dsc

open Bool hiding and_assoc not_and not_or or_self

/-! # What one step can do

`Move` lists the effects of a call, with what the call checked before.  The invariants are proved over moves and
never unfold an API function.
-/

/-- What all three `can_trans` functions establish: nothing on the node, below it, or
above it is in the way. -/
structure CanStart (tree : DscTree) (node : Node) : Prop where
  inactive : ¬ tree.Active node
  unqueued : ¬ tree.Queued node
  below : ∀ other, other.Below node → ¬ tree.Active other
  above : ∀ other, node.Below other → ¬ tree.Active other ∧ ¬ tree.Queued other

inductive Move (tree : DscTree) : Action → DscTree → Prop where
  | refuse {action : Action} {asserts : List DscAssert}
      (known : .transStart ∈ asserts → .transStart ∈ tree.failedAsserts) :
      Move tree action { tree with failedAsserts := asserts }
  | start {action : Action} {node : Node} {desc : String} (attached : tree.Attached node)
      (can : CanStart tree node) : Move tree action ((dscTransStart tree node desc).note (.started node))
  | wait {action : Action} {node : Node} {desc : String} (attached : tree.Attached node)
      (cannot : ¬ CanStart tree node) : Move tree action (dscTransQueue tree node desc)
  | stop {node : Node} (attached : tree.Attached node) : Move tree (.transStop node)
        (wakeAll (dscTransStop tree node) (wakes (dscTransStop tree node) node))
  | enter {action : Action} {node : Node} (attached : tree.Attached node)
      (can : CanStart tree node) : Move tree action (dscOpsInsert tree node true).2
  | leave {node : Node} {func : Option String} (attached : tree.Attached node) :
      Move tree (.opStop node func) (dscOpsRemove tree node)
  | abort {node : Node} {tran : DscTran} {rest : List DscTran} (attached : tree.Attached node)
      (destroyable : node ≠ .driver) (queue : (tree.trans node).queue = tran :: rest) : Move tree (.flush node)
        ((tree.setTrans node { tree.trans node with queue := rest }).note
          (.aborted node tran.ticket))
  | createPsoc {psoc : Nat} {allocated : Bool} (fresh : psoc ∉ tree.psocs) :
      Move tree (.createPsoc psoc allocated) (dscPsocCreate tree psoc true).2
  | createVdev {psoc vdev : Nat} {allocated : Bool} (parent : psoc ∈ tree.psocs)
      (fresh : vdev ∉ tree.vdevs psoc) :
      Move tree (.createVdev psoc vdev allocated) (dscVdevCreate tree psoc vdev true).2
  | destroyPsoc {psoc : Nat} (member : psoc ∈ tree.psocs) (leaf : tree.vdevs psoc = []) :
      Move tree (.destroyPsoc psoc) (dscPsocDestroy tree psoc)
  | destroyVdev {psoc vdev : Nat} (parent : psoc ∈ tree.psocs)
      (member : vdev ∈ tree.vdevs psoc) : Move tree (.destroyVdev psoc vdev) (dscVdevDestroy tree psoc vdev)

section Checks

variable {tree : DscTree}

theorem dscTransActiveOrQueued_iff :
    dscTransActiveOrQueued (tree.trans node) = true ↔ tree.Active node ∨ tree.Queued node := by
  simp [dscTransActiveOrQueued, DscTree.Active, DscTree.Queued]

section

variable (shape : tree.Shape)
include shape

theorem dscPsocTransActiveDownTree_iff :
    dscPsocTransActiveDownTree tree psoc = true ↔ ∃ vdev, tree.Active (.vdev psoc vdev) := by
  unfold dscPsocTransActiveDownTree
  rw [List.any_eq_true]
  constructor
  · rintro ⟨vdev, _, active⟩
    exact ⟨vdev, active⟩
  · rintro ⟨vdev, active⟩
    exact ⟨vdev, (shape.attached_of_active active).2, active⟩

theorem dscDriverTransActiveDownTree_iff : dscDriverTransActiveDownTree tree = true ↔
      ∃ other, other.Below .driver ∧ tree.Active other := by
  unfold dscDriverTransActiveDownTree
  simp only [List.any_eq_true, or_eq_true]
  constructor
  · rintro ⟨psoc, _, active | ⟨vdev, _, active⟩⟩
    · exact ⟨.psoc psoc, .psocDriver psoc, active⟩
    · exact ⟨.vdev psoc vdev, .vdevDriver psoc vdev, active⟩
  · rintro ⟨other, lt, active⟩
    have attached := shape.attached_of_active active
    cases lt with
    | psocDriver psoc => exact ⟨psoc, attached, .inl active⟩
    | vdevDriver psoc vdev => exact ⟨psoc, attached.1, .inr ⟨vdev, attached.2, active⟩⟩

theorem dscDriverCanTrigger_iff : dscDriverCanTrigger tree = true ↔
      ¬ tree.Active .driver ∧ ∀ other, other.Below .driver → ¬ tree.Active other := by
  unfold dscDriverCanTrigger
  rw [and_eq_true, not_eq_true', not_eq_true', ← not_eq_true,
    ← not_eq_true, dscDriverTransActiveDownTree_iff shape, not_exists]
  simp only [not_and]
  rfl

theorem dscPsocCanTrigger_iff : dscPsocCanTrigger tree psoc = true ↔
      ¬ tree.Active .driver ∧ ¬ tree.Queued .driver ∧ ¬ tree.Active (.psoc psoc) ∧
        ∀ vdev, ¬ tree.Active (.vdev psoc vdev) := by
  unfold dscPsocCanTrigger
  rw [and_eq_true, and_eq_true, not_eq_true', not_eq_true', not_eq_true', ← not_eq_true, ← not_eq_true, ← not_eq_true,
    dscTransActiveOrQueued_iff, dscPsocTransActiveDownTree_iff shape, not_or, not_exists, and_assoc, and_assoc]
  rfl

theorem dscDriverCanTrans_iff : dscDriverCanTrans tree = true ↔ CanStart tree .driver := by
  unfold dscDriverCanTrans
  rw [and_eq_true, not_eq_true', not_eq_true', ← not_eq_true,
    ← not_eq_true, dscTransActiveOrQueued_iff, dscDriverTransActiveDownTree_iff shape]
  constructor
  · rintro ⟨free, quiet⟩
    exact ⟨fun active => free (.inl active), fun queued => free (.inr queued),
      fun other lt active => quiet ⟨other, lt, active⟩, fun other lt => nomatch lt⟩
  · intro can
    refine ⟨fun taken => taken.elim can.inactive can.unqueued, ?_⟩
    rintro ⟨other, lt, active⟩
    exact can.below other lt active

theorem dscPsocCanTrans_iff : dscPsocCanTrans tree psoc = .success ↔ CanStart tree (.psoc psoc) := by
  have blocked : (dscTransActiveOrQueued (tree.trans (.psoc psoc)) ||
      dscPsocTransActiveDownTree tree psoc) = true ↔ (tree.Active (.psoc psoc) ∨ tree.Queued (.psoc psoc)) ∨
        ∃ vdev, tree.Active (.vdev psoc vdev) := by
    rw [or_eq_true, dscTransActiveOrQueued_iff, dscPsocTransActiveDownTree_iff shape]
  unfold dscPsocCanTrans
  constructor
  · intro success
    split at success
    · cases success
    rename_i driverFree
    split at success
    · cases success
    rename_i free
    rw [dscTransActiveOrQueued_iff, not_or] at driverFree
    rw [blocked, not_or, not_or, not_exists] at free
    refine ⟨free.1.1, free.1.2, fun other lt => ?_, fun other lt => ?_⟩
    · cases lt with
      | vdevPsoc _ vdev => exact free.2 vdev
    · cases lt with
      | psocDriver _ => exact driverFree
  · intro can
    have driverFree := can.above .driver (.psocDriver psoc)
    have vdevsFree : ∀ vdev, ¬ tree.Active (.vdev psoc vdev) :=
      fun vdev => can.below _ (.vdevPsoc psoc vdev)
    rw [if_neg (by simp [dscTransActiveOrQueued_iff, driverFree]),
      if_neg (by simp [blocked, can.inactive, can.unqueued, vdevsFree])]

end

theorem dscVdevCanTrans_success (success : dscVdevCanTrans tree platform psoc vdev = .success) :
    CanStart tree (.vdev psoc vdev) := by
  unfold dscVdevCanTrans at success
  simp only [dscTransActiveOrQueued_iff] at success
  split at success
  · cases success
  rename_i driverFree
  split at success
  · cases success
  split at success
  · split at success <;> cases success
  rename_i psocFree
  split at success
  · cases success
  rename_i free
  rw [not_or] at driverFree psocFree free
  refine ⟨free.1, free.2, fun other lt => (nomatch lt), fun other lt => ?_⟩
  cases lt with
  | vdevDriver _ _ => exact driverFree
  | vdevPsoc _ _ => exact psocFree

theorem dscVdevCanTrans_busy (busy : dscVdevCanTrans tree platform psoc vdev = .eBusy) :
    ¬ CanStart tree (.vdev psoc vdev) := by
  intro can
  have driverFree := can.above .driver (.vdevDriver psoc vdev)
  have psocFree := can.above (.psoc psoc) (.vdevPsoc psoc vdev)
  unfold dscVdevCanTrans at busy
  simp only [dscTransActiveOrQueued_iff, driverFree, psocFree, can.inactive, can.unqueued, or_self, if_false] at busy
  split at busy <;> cases busy

end Checks

section Step

variable {tree : DscTree}

theorem Move.refused : Move tree action tree := .refuse id

theorem Move.nullArgument : Move tree action (dscAssert tree false .argument) :=
  .refuse fun failed => by simpa using failed

theorem transStart_move (shape : tree.Shape) (attached : tree.Attached node) :
    Move tree action (transStart tree platform desc node).2 := by
  cases desc with
  | none => cases node <;> exact .nullArgument
  | some desc =>
    cases node with
    | driver =>
      simp only [transStart, dscDriverTransStart, dscDriverTransStartNolock]
      cases can : dscDriverCanTrans tree with
      | false => exact .refused
      | true => exact .start attached ((dscDriverCanTrans_iff shape).mp can)
    | psoc psoc =>
      simp only [transStart, dscPsocTransStart, dscPsocTransStartNolock]
      cases can : dscPsocCanTrans tree psoc with
      | success => exact .start attached ((dscPsocCanTrans_iff shape).mp can)
      | _ => exact .refused
    | vdev psoc vdev =>
      simp only [transStart, dscVdevTransStart, dscVdevTransStartNolock]
      cases can : dscVdevCanTrans tree platform psoc vdev with
      | success => exact .start attached (dscVdevCanTrans_success can)
      | _ => exact .refused

theorem dscVdevCanTrans_range (tree : DscTree) (platform : Platform) (psoc vdev : Nat) :
    dscVdevCanTrans tree platform psoc vdev = .success ∨ dscVdevCanTrans tree platform psoc vdev = .eInval ∨
      dscVdevCanTrans tree platform psoc vdev = .eBusy := by
  unfold dscVdevCanTrans
  repeat' split
  all_goals simp

section

variable (shape : tree.Shape)
include shape

theorem transStartWait_move (attached : tree.Attached node) :
    Move tree action (transStartWait tree platform desc node).2 := by
  cases desc with
  | none => cases node <;> exact .nullArgument
  | some desc =>
    cases node with
    | driver =>
      simp only [transStartWait, dscDriverTransStartWait, dscDriverTransStartNolock]
      cases can : dscDriverCanTrans tree with
      | false =>
        exact .wait attached fun start => by
          simp [(dscDriverCanTrans_iff shape).mpr start] at can
      | true => exact .start attached ((dscDriverCanTrans_iff shape).mp can)
    | psoc psoc =>
      simp only [transStartWait, dscPsocTransStartWait, dscPsocTransStartNolock]
      cases can : dscPsocCanTrans tree psoc with
      | success => exact .start attached ((dscPsocCanTrans_iff shape).mp can)
      | eInval => exact .refused
      | _ =>
        exact .wait attached fun start => by
          simp [(dscPsocCanTrans_iff shape).mpr start] at can
    | vdev psoc vdev =>
      simp only [transStartWait, dscVdevTransStartWait, dscVdevTransStartNolock]
      rcases dscVdevCanTrans_range tree platform psoc vdev with can | can | can <;> rw [can]
      · exact .start attached (dscVdevCanTrans_success can)
      · exact .refused
      · exact .wait attached (dscVdevCanTrans_busy can)

theorem opStart_move (attached : tree.Attached node) : Move tree action (opStart tree platform alloc func node).2 := by
  have insert (can : CanStart tree node) : Move tree action (dscOpsInsert tree node alloc).2 := by
    cases alloc with
    | false => exact .refused
    | true => exact .enter attached can
  cases func with
  | none => cases node <;> exact .nullArgument
  | some func =>
    cases node with
    | driver =>
      simp only [opStart, dscDriverOpStart]
      cases can : dscDriverCanOp tree with
      | false => exact .refused
      | true => exact insert ((dscDriverCanTrans_iff shape).mp can)
    | psoc psoc =>
      simp only [opStart, dscPsocOpStart]
      cases can : dscPsocCanOp tree psoc with
      | success => exact insert ((dscPsocCanTrans_iff shape).mp can)
      | _ => exact .refused
    | vdev psoc vdev =>
      simp only [opStart, dscVdevOpStart]
      cases can : dscVdevCanOp tree platform psoc vdev with
      | success => exact insert (dscVdevCanTrans_success can)
      | _ => exact .refused

theorem DscTree.Shape.of_trans {other : DscTree} (samePsocs : other.psocs = tree.psocs)
    (sameVdevs : other.vdevs = tree.vdevs)
    (idle : ∀ node, ¬ tree.Attached node → other.trans node = tree.trans node) : other.Shape := by
  have sameAttached : ∀ node, other.Attached node ↔ tree.Attached node := by
    intro node
    cases node <;> simp [DscTree.Attached, samePsocs, sameVdevs]
  refine ⟨samePsocs ▸ shape.psocsNodup, sameVdevs ▸ shape.vdevsNodup, fun node detached => ?_, fun psoc absent => ?_⟩
  · rw [sameAttached] at detached
    rw [idle node detached, shape.detachedIdle node detached]
  · rw [sameVdevs]
    exact shape.childless psoc (samePsocs ▸ absent)

theorem dscTransStop_shape (attached : tree.Attached node) : (dscTransStop tree node).Shape := by
  refine shape.of_trans rfl rfl fun other detached => ?_
  have apart : other ≠ node := fun same => detached (same ▸ attached)
  simp [dscTransStop, apart]

theorem step_move (taken : step tree action = some after) : Move tree action after := by
  cases action with
  | transStart node desc platform =>
    obtain ⟨attached, rfl⟩ : tree.Attached node ∧ _ = after := by simpa [step] using taken
    exact transStart_move shape attached
  | transStartWait node desc platform =>
    obtain ⟨attached, rfl⟩ : tree.Attached node ∧ _ = after := by simpa [step] using taken
    exact transStartWait_move shape attached
  | transStop node =>
    obtain ⟨attached, rfl⟩ : tree.Attached node ∧ _ = after := by simpa [step] using taken
    rw [transStop_eq (dscTransStop_shape shape attached)]
    exact .stop attached
  | opStart node func platform alloc =>
    obtain ⟨attached, rfl⟩ : tree.Attached node ∧ _ = after := by simpa [step] using taken
    exact opStart_move shape attached
  | opStop node func =>
    obtain ⟨attached, rfl⟩ : tree.Attached node ∧ _ = after := by simpa [step] using taken
    cases func with
    | none => cases node <;> exact .nullArgument
    | some func => cases node <;> exact .leave attached
  | createPsoc psoc alloc =>
    obtain ⟨fresh, rfl⟩ : psoc ∉ tree.psocs ∧ _ = after := by simpa [step] using taken
    cases alloc with
    | false => exact .refused
    | true => exact .createPsoc fresh
  | createVdev psoc vdev alloc =>
    obtain ⟨⟨parent, fresh⟩, rfl⟩ : (psoc ∈ tree.psocs ∧ vdev ∉ tree.vdevs psoc) ∧ _ = after := by
      simpa [step] using taken
    cases alloc with
    | false => exact .refused
    | true => exact .createVdev parent fresh
  | flush node =>
    obtain ⟨⟨attached, destroyable⟩, rfl⟩ : (tree.Attached node ∧ node ≠ .driver) ∧ _ = after := by
      simpa [step] using taken
    unfold dscTransAbort dscTransDequeue
    cases queue : (tree.trans node).queue with
    | nil => exact .refused
    | cons tran rest => exact .abort attached destroyable queue
  | destroyPsoc psoc =>
    obtain ⟨⟨mem, leaf⟩, rfl⟩ : (psoc ∈ tree.psocs ∧ tree.vdevs psoc = []) ∧ _ = after := by
      simpa [step] using taken
    exact .destroyPsoc mem leaf
  | destroyVdev psoc vdev =>
    obtain ⟨⟨parent, mem⟩, rfl⟩ : (psoc ∈ tree.psocs ∧ vdev ∈ tree.vdevs psoc) ∧ _ = after := by
      simpa [step] using taken
    exact .destroyVdev parent mem

end

end Step

theorem dscTransFlush_eq (tree : DscTree) (node : Node) : dscTransFlush tree node = { tree with
        trans := Function.update tree.trans node { tree.trans node with queue := [] }
        log := tree.log ++ (tree.trans node).queue.map fun tran => .aborted node tran.ticket } := by
  unfold dscTransFlush
  generalize waiting : (tree.trans node).queue = queue
  induction queue generalizing tree with
  | nil =>
    have same : { tree.trans node with queue := [] } = tree.trans node := by rw [← waiting]
    simp [same]
  | cons tran rest ih =>
    rw [List.length_cons, Function.iterate_succ_apply, ih]
    · simp [dscTransAbort, dscTransDequeue, waiting]
    · simp [dscTransAbort, dscTransDequeue, waiting]

theorem dscPsocDestroy_trans (tree : DscTree) (psoc : Nat) :
    (dscPsocDestroy tree psoc).trans = Function.update tree.trans (.psoc psoc) {} := by
  simp [dscPsocDestroy, dscTransFlush_eq]

theorem dscVdevDestroy_trans (tree : DscTree) (psoc vdev : Nat) :
    (dscVdevDestroy tree psoc vdev).trans = Function.update tree.trans (.vdev psoc vdev) {} := by
  simp [dscVdevDestroy, dscTransFlush_eq]

theorem dscPsocDestroy_failedAsserts (failed : .transStart ∈ (dscPsocDestroy tree psoc).failedAsserts) :
    .transStart ∈ tree.failedAsserts := by
  simp only [dscPsocDestroy, dscTransFlush_eq, dscAssert, DscTree.setOps, DscTree.setTrans]
    at failed
  split at failed <;> split at failed <;> simpa using failed

theorem dscVdevDestroy_failedAsserts (failed : .transStart ∈ (dscVdevDestroy tree psoc vdev).failedAsserts) :
    .transStart ∈ tree.failedAsserts := by
  simp only [dscVdevDestroy, dscTransFlush_eq, dscAssert, DscTree.setOps, DscTree.setTrans]
    at failed
  split at failed <;> simpa using failed

theorem wakeAll_shape (shape : tree.Shape) (nodup : nodes.Nodup) : (wakeAll tree nodes).Shape := by
  rw [wakeAll_eq nodup]
  refine shape.of_trans rfl rfl fun other detached => ?_
  simp [shape.detachedIdle other detached, DscTrans.wake]

theorem dscPsocCreate_shape (shape : tree.Shape) (fresh : psoc ∉ tree.psocs) :
    (dscPsocCreate tree psoc true).2.Shape := by
  refine ⟨?_, fun owner => ?_, fun node detached => ?_, fun owner absent => ?_⟩
  · simpa [dscPsocCreate] using shape.psocsNodup.concat fresh
  · by_cases same : owner = psoc
    · simp [dscPsocCreate, same]
    · simpa [dscPsocCreate, same] using shape.vdevsNodup owner
  · by_cases same : node = .psoc psoc
    · simp [dscPsocCreate, same]
    have before : ¬ tree.Attached node := by
      intro attached
      refine detached ?_
      cases node with
      | driver => trivial
      | psoc owner => exact List.mem_append_left _ attached
      | vdev owner vdev =>
        have apart : owner ≠ psoc := fun same => fresh (same ▸ attached.1)
        exact ⟨List.mem_append_left _ attached.1, by simpa [dscPsocCreate, apart] using attached.2⟩
    simpa [dscPsocCreate, same] using shape.detachedIdle node before
  · by_cases same : owner = psoc
    · simp [dscPsocCreate, same]
    · have before : owner ∉ tree.psocs := fun mem => absent (List.mem_append_left _ mem)
      simpa [dscPsocCreate, same] using shape.childless owner before

theorem dscVdevCreate_shape (shape : tree.Shape) (parent : psoc ∈ tree.psocs)
    (fresh : vdev ∉ tree.vdevs psoc) : (dscVdevCreate tree psoc vdev true).2.Shape := by
  refine ⟨shape.psocsNodup, fun owner => ?_, fun node detached => ?_, fun owner absent => ?_⟩
  · by_cases same : owner = psoc
    · subst same
      simpa [dscVdevCreate] using (shape.vdevsNodup owner).concat fresh
    · simpa [dscVdevCreate, same] using shape.vdevsNodup owner
  · by_cases same : node = .vdev psoc vdev
    · simp [dscVdevCreate, same]
    have before : ¬ tree.Attached node := by
      intro attached
      refine detached ?_
      cases node with
      | driver => trivial
      | psoc owner => exact attached
      | vdev owner child =>
        refine ⟨attached.1, ?_⟩
        by_cases parent : owner = psoc
        · subst parent
          simpa [dscVdevCreate] using .inl attached.2
        · simpa [dscVdevCreate, parent] using attached.2
    simpa [dscVdevCreate, same] using shape.detachedIdle node before
  · have apart : owner ≠ psoc := fun same => absent (same ▸ parent)
    simpa [dscVdevCreate, apart] using shape.childless owner absent

theorem dscPsocDestroy_shape (shape : tree.Shape) (leaf : tree.vdevs psoc = []) : (dscPsocDestroy tree psoc).Shape := by
  refine ⟨?_, fun owner => ?_, fun node detached => ?_, fun owner absent => ?_⟩
  · simpa [dscPsocDestroy, dscTransFlush_eq] using shape.psocsNodup.erase psoc
  · simpa [dscPsocDestroy, dscTransFlush_eq] using shape.vdevsNodup owner
  · by_cases same : node = .psoc psoc
    · simp [dscPsocDestroy, same]
    have before : ¬ tree.Attached node := by
      intro attached
      refine detached ?_
      cases node with
      | driver => trivial
      | psoc owner =>
        have apart : owner ≠ psoc := fun equal => same (by rw [equal])
        simpa [dscPsocDestroy, dscTransFlush_eq, DscTree.Attached, List.mem_erase_of_ne apart] using attached
      | vdev owner child =>
        have apart : owner ≠ psoc := by
          rintro rfl
          simp [DscTree.Attached, leaf] at attached
        simpa [dscPsocDestroy, dscTransFlush_eq, DscTree.Attached, List.mem_erase_of_ne apart] using attached
    simpa [dscPsocDestroy, dscTransFlush_eq, same] using shape.detachedIdle node before
  · by_cases same : owner = psoc
    · simp [dscPsocDestroy, dscTransFlush_eq, same, leaf]
    · have before : owner ∉ tree.psocs := by
        simpa [dscPsocDestroy, dscTransFlush_eq, List.mem_erase_of_ne same] using absent
      simpa [dscPsocDestroy, dscTransFlush_eq] using shape.childless owner before

theorem dscVdevDestroy_shape (shape : tree.Shape) (parent : psoc ∈ tree.psocs) :
    (dscVdevDestroy tree psoc vdev).Shape := by
  refine ⟨?_, fun owner => ?_, fun node detached => ?_, fun owner absent => ?_⟩
  · simpa [dscVdevDestroy, dscTransFlush_eq] using shape.psocsNodup
  · by_cases same : owner = psoc
    · subst same
      simpa [dscVdevDestroy, dscTransFlush_eq] using (shape.vdevsNodup owner).erase vdev
    · simpa [dscVdevDestroy, dscTransFlush_eq, same] using shape.vdevsNodup owner
  · by_cases same : node = .vdev psoc vdev
    · simp [dscVdevDestroy, same]
    have before : ¬ tree.Attached node := by
      intro attached
      refine detached ?_
      cases node with
      | driver => trivial
      | psoc owner => simpa [dscVdevDestroy, dscTransFlush_eq, DscTree.Attached] using attached
      | vdev owner child =>
        refine ⟨by simpa [dscVdevDestroy, dscTransFlush_eq] using attached.1, ?_⟩
        by_cases parent : owner = psoc
        · subst parent
          have apart : child ≠ vdev := fun equal => same (by rw [equal])
          simpa [dscVdevDestroy, dscTransFlush_eq, List.mem_erase_of_ne apart] using attached.2
        · simpa [dscVdevDestroy, dscTransFlush_eq, parent] using attached.2
    simpa [dscVdevDestroy, dscTransFlush_eq, same] using shape.detachedIdle node before
  · have before : owner ∉ tree.psocs := by
      simpa [dscVdevDestroy, dscTransFlush_eq] using absent
    have apart : owner ≠ psoc := fun same => before (same ▸ parent)
    simpa [dscVdevDestroy, dscTransFlush_eq, apart] using shape.childless owner before

theorem Move.shape (shape : tree.Shape) (move : Move tree action after) : after.Shape := by
  have nearby {changed : DscTree} {node : Node} (attached : tree.Attached node)
      (psocs : changed.psocs = tree.psocs) (vdevs : changed.vdevs = tree.vdevs)
      (others : ∀ other, other ≠ node → changed.trans other = tree.trans other) : changed.Shape :=
    shape.of_trans psocs vdevs fun other detached =>
      others other fun same => detached (same ▸ attached)
  cases move with
  | refuse _ | enter _ _ | leave _ => exact shape.of_trans rfl rfl fun _ _ => rfl
  | start attached _ =>
    exact nearby attached rfl rfl fun other apart => by simp [dscTransStart, apart]
  | wait attached _ =>
    exact nearby attached rfl rfl fun other apart => by simp [dscTransQueue, apart]
  | stop attached =>
    have stopped := dscTransStop_shape shape attached
    exact wakeAll_shape stopped (wakes_nodup stopped _)
  | abort attached _ _ =>
    exact nearby attached rfl rfl fun other apart => by simp [apart]
  | createPsoc fresh => exact dscPsocCreate_shape shape fresh
  | createVdev parent fresh => exact dscVdevCreate_shape shape parent fresh
  | destroyPsoc _ leaf => exact dscPsocDestroy_shape shape leaf
  | destroyVdev parent _ => exact dscVdevDestroy_shape shape parent

theorem created_shape : created.Shape where
  psocsNodup := List.nodup_nil
  vdevsNodup := fun _ => List.nodup_nil
  detachedIdle := fun _ _ => rfl
  childless := fun _ _ => rfl

theorem reachable_invariant (reached : Data.Reachable step allowed created tree) (property : DscTree → Prop)
    (base : property created) (preserved : ∀ before action after, before.Shape → property before →
      allowed before action → Move before action after → property after) : tree.Shape ∧ property tree := by
  refine reached.invariant (fun tree => tree.Shape ∧ property tree) ⟨created_shape, base⟩ ?_
  rintro before action after ⟨shape, holds⟩ permitted taken
  have move := step_move shape taken
  exact ⟨move.shape shape, preserved before action after shape holds permitted move⟩

end KernelModules.Dsc

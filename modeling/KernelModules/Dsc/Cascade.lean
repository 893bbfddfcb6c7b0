import KernelModules.Dsc.Machine
import Mathlib.Data.List.Nodup

namespace KernelModules.Dsc

open List

/-! # What a stop wakes

`trans_stop` runs one of three trigger cascades.  Each is a list of nodes to wake, decided by the tree the stop
leaves.
-/

namespace DscTree

def Active (tree : DscTree) (node : Node) : Prop :=
  dscTransActive (tree.trans node) = true

def Queued (tree : DscTree) (node : Node) : Prop :=
  dscTransQueued (tree.trans node) = true

instance (tree : DscTree) (node : Node) : Decidable (tree.Active node) :=
  inferInstanceAs (Decidable (_ = _))

instance (tree : DscTree) (node : Node) : Decidable (tree.Queued node) :=
  inferInstanceAs (Decidable (_ = _))

structure Shape (tree : DscTree) : Prop where
  psocsNodup : tree.psocs.Nodup
  vdevsNodup : ∀ psoc, (tree.vdevs psoc).Nodup
  detachedIdle : ∀ node, ¬ tree.Attached node → tree.trans node = {}
  childless : ∀ psoc, psoc ∉ tree.psocs → tree.vdevs psoc = []

end DscTree

variable {tree : DscTree} {node : Node}

theorem DscTree.Shape.attached_of_active (shape : tree.Shape) (active : tree.Active node) : tree.Attached node := by
  by_contra detached
  simp [DscTree.Active, dscTransActive, shape.detachedIdle node detached] at active

theorem DscTree.Shape.attached_of_queued (shape : tree.Shape) (queued : tree.Queued node) : tree.Attached node := by
  by_contra detached
  simp [DscTree.Queued, dscTransQueued, shape.detachedIdle node detached] at queued

def wakeAll (tree : DscTree) (nodes : List Node) : DscTree :=
  nodes.foldl (fun tree node => (dscTransTrigger tree node).2) tree

def DscTrans.wake (trans : DscTrans) : DscTrans :=
  match trans.queue with
  | [] => trans
  | tran :: rest => { activeDesc := some tran.desc, queue := rest }

def DscTrans.wakeEvents (trans : DscTrans) (node : Node) : List Event :=
  match trans.queue with
  | [] => []
  | tran :: _ => [.triggered node tran.ticket]

def psocWakes (tree : DscTree) (psoc : Nat) : List Node :=
  if tree.Queued (.psoc psoc) then [.psoc psoc] else (tree.vdevs psoc).map (.vdev psoc)

/-- The nodes a stop of `node` wakes, read off the tree after `__dsc_trans_stop`. -/
def wakes (tree : DscTree) : Node → List Node
  | .driver => if tree.Queued .driver then [.driver] else tree.psocs.flatMap (psocWakes tree)
  | .psoc psoc =>
    if tree.Queued .driver then if dscDriverCanTrigger tree then [.driver] else []
    else psocWakes tree psoc
  | .vdev psoc vdev =>
    if tree.Queued .driver then if dscDriverCanTrigger tree then [.driver] else []
    else if tree.Queued (.psoc psoc) then if dscPsocCanTrigger tree psoc then [.psoc psoc] else []
    else [.vdev psoc vdev]

theorem dscTransTrigger_fst (tree : DscTree) (node : Node) :
    (dscTransTrigger tree node).1 = dscTransQueued (tree.trans node) := by
  unfold dscTransTrigger dscTransDequeue dscTransQueued
  cases (tree.trans node).queue <;> rfl

theorem dscTransTrigger_snd (tree : DscTree) (node : Node) : (dscTransTrigger tree node).2 = { tree with
        trans := Function.update tree.trans node (tree.trans node).wake
        log := tree.log ++ (tree.trans node).wakeEvents node
        failedAsserts := (dscTransTrigger tree node).2.failedAsserts } := by
  unfold dscTransTrigger dscTransDequeue DscTrans.wake DscTrans.wakeEvents
  cases queue : (tree.trans node).queue <;> simp [dscTransStart]

theorem dscTransTrigger_failedAsserts (inactive : ¬ tree.Active node) :
    (dscTransTrigger tree node).2.failedAsserts = tree.failedAsserts := by
  have idle : dscTransActive (tree.trans node) = false := by simpa [DscTree.Active] using inactive
  unfold dscTransTrigger dscTransDequeue
  cases queue : (tree.trans node).queue with
  | nil => rfl
  | cons tran rest =>
    have stays : dscTransActive { tree.trans node with queue := rest } = false := idle
    simp [dscTransStart, stays]

theorem dscTransTrigger_idle (idle : ¬ tree.Queued node) : dscTransTrigger tree node = (false, tree) := by
  have empty : (tree.trans node).queue = [] := by
    simpa [DscTree.Queued, dscTransQueued] using idle
  simp [dscTransTrigger, dscTransDequeue, empty]

theorem wakeAll_cons (tree : DscTree) (node : Node) (rest : List Node) :
    wakeAll tree (node :: rest) = wakeAll (dscTransTrigger tree node).2 rest := rfl

theorem wakeAll_eq (distinct : nodes.Nodup) : wakeAll tree nodes = { tree with
        trans := fun node => if node ∈ nodes then (tree.trans node).wake else tree.trans node
        log := tree.log ++ nodes.flatMap fun node => (tree.trans node).wakeEvents node
        failedAsserts := (wakeAll tree nodes).failedAsserts } := by
  induction nodes generalizing tree with
  | nil => simp [wakeAll]
  | cons node rest ih =>
    obtain ⟨fresh, distinctRest⟩ := nodup_cons.mp distinct
    have others : ∀ other ∈ rest, (dscTransTrigger tree node).2.trans other = tree.trans other := by
      intro other mem
      have apart : other ≠ node := fun same => fresh (same ▸ mem)
      rw [dscTransTrigger_snd]
      simp [apart]
    rw [wakeAll_cons, ih distinctRest]
    have events : (rest.flatMap fun other =>
          ((dscTransTrigger tree node).2.trans other).wakeEvents other) =
        rest.flatMap fun other => (tree.trans other).wakeEvents other :=
      flatMap_congr fun other mem => by rw [others other mem]
    rw [events, dscTransTrigger_snd]
    simp only [flatMap_cons, append_assoc, DscTree.mk.injEq, true_and, and_true]
    funext other
    by_cases same : other = node
    · subst same; simp [fresh]
    · by_cases mem : other ∈ rest <;> simp [same, mem]

theorem wakeAll_failedAsserts (distinct : nodes.Nodup) (inactive : ∀ node ∈ nodes, ¬ tree.Active node) :
    (wakeAll tree nodes).failedAsserts = tree.failedAsserts := by
  induction nodes generalizing tree with
  | nil => rfl
  | cons node rest ih =>
    obtain ⟨fresh, distinctRest⟩ := nodup_cons.mp distinct
    rw [wakeAll_cons, ih distinctRest, dscTransTrigger_failedAsserts (inactive node (by simp))]
    intro other mem
    have apart : other ≠ node := fun same => fresh (same ▸ mem)
    have stays := inactive other (by simp [mem])
    rw [dscTransTrigger_snd]
    simpa [DscTree.Active, apart] using stays

section Activity

theorem active_of_update {changed : DscTree} {trans : DscTrans}
    (update : changed.trans = Function.update tree.trans node trans)
    (smaller : trans.activeDesc = none ∨ trans.activeDesc = (tree.trans node).activeDesc)
    (active : changed.Active other) : tree.Active other := by
  rw [DscTree.Active, update] at active
  by_cases same : other = node
  · subst same
    rcases smaller with none | equal
    · simp [dscTransActive, none] at active
    · simpa [DscTree.Active, dscTransActive, equal] using active
  · simpa [DscTree.Active, same] using active

variable {nodes : List Node}

theorem dscTransStop_active (active : (dscTransStop tree node).Active other) : other ≠ node ∧ tree.Active other := by
  by_cases same : other = node
  · subst same
    simp [dscTransStop, DscTree.Active, dscTransActive] at active
  · exact ⟨same, by simpa [dscTransStop, DscTree.Active, same] using active⟩

theorem dscTransStop_queued : (dscTransStop tree node).Queued other ↔ tree.Queued other := by
  by_cases same : other = node
  · subst same
    simp [dscTransStop, DscTree.Queued, dscTransQueued]
  · simp [dscTransStop, DscTree.Queued, same]

theorem dscTransStop_keeps (apart : other ≠ node) (active : tree.Active other) :
    (dscTransStop tree node).Active other := by
  simpa [dscTransStop, DscTree.Active, apart] using active

theorem wakeAll_active (distinct : nodes.Nodup) (active : (wakeAll tree nodes).Active other) :
    other ∈ nodes ∨ tree.Active other := by
  by_cases mem : other ∈ nodes
  · exact .inl mem
  · rw [wakeAll_eq distinct] at active
    exact .inr (by simpa [DscTree.Active, mem] using active)

section

variable (distinct : nodes.Nodup)
include distinct

theorem wakeAll_keeps (active : tree.Active other) : (wakeAll tree nodes).Active other := by
  rw [wakeAll_eq distinct]
  simp only [DscTree.Active]
  split
  · unfold DscTrans.wake
    cases queue : (tree.trans other).queue with
    | nil => exact active
    | cons tran rest => rfl
  · exact active

theorem wakeAll_wakes (mem : other ∈ nodes) (queued : tree.Queued other) : (wakeAll tree nodes).Active other := by
  rw [wakeAll_eq distinct]
  simp only [DscTree.Active, mem, if_true, DscTrans.wake]
  cases queue : (tree.trans other).queue with
  | nil => simp [DscTree.Queued, dscTransQueued, queue] at queued
  | cons tran rest => rfl

theorem wakeAll_queued (queued : tree.Queued other) :
    (wakeAll tree nodes).Active other ∨ (wakeAll tree nodes).Queued other := by
  by_cases mem : other ∈ nodes
  · exact .inl (wakeAll_wakes distinct mem queued)
  · rw [wakeAll_eq distinct]
    exact .inr (by simpa [DscTree.Queued, mem] using queued)

theorem queued_of_wakeAll (queued : (wakeAll tree nodes).Queued other) : tree.Queued other := by
  rw [wakeAll_eq distinct] at queued
  simp only [DscTree.Queued] at queued
  split at queued
  · unfold DscTrans.wake at queued
    cases queue : (tree.trans other).queue with
    | nil => simp [queue, dscTransQueued] at queued
    | cons tran rest => simp [DscTree.Queued, dscTransQueued, queue]
  · exact queued

end

end Activity

theorem psocTrigger_eq (tree : DscTree) (psoc : Nat) : (match dscTransTrigger tree (.psoc psoc) with
      | (true, tree) => tree
      | (false, tree) =>
        (tree.vdevs psoc).foldl (fun tree vdev =>
          (dscTransTrigger tree (.vdev psoc vdev)).2) tree) =
      wakeAll tree (psocWakes tree psoc) := by
  unfold psocWakes
  by_cases queued : tree.Queued (.psoc psoc)
  · have taken : (dscTransTrigger tree (.psoc psoc)).1 = true := by
      rw [dscTransTrigger_fst]; exact queued
    split <;> simp_all [wakeAll]
  · rw [if_neg queued, dscTransTrigger_idle queued, wakeAll, foldl_map]

theorem psocWakes_nodup (shape : tree.Shape) (psoc : Nat) : (psocWakes tree psoc).Nodup := by
  unfold psocWakes
  split
  · exact nodup_singleton _
  · refine List.Nodup.map ?_ (shape.vdevsNodup psoc)
    intro first second same
    cases same
    rfl

theorem mem_psocWakes : other ∈ psocWakes tree psoc ↔ (tree.Queued (.psoc psoc) ∧ other = .psoc psoc) ∨
        (¬ tree.Queued (.psoc psoc) ∧ ∃ vdev ∈ tree.vdevs psoc, other = .vdev psoc vdev) := by
  unfold psocWakes
  split <;> simp_all [eq_comm]

theorem psoc_of_mem_psocWakes (mem : node ∈ psocWakes tree psoc) :
    node = .psoc psoc ∨ ∃ vdev, node = .vdev psoc vdev := by
  rcases mem_psocWakes.mp mem with ⟨_, same⟩ | ⟨_, vdev, _, same⟩
  · exact .inl same
  · exact .inr ⟨vdev, same⟩

private theorem psocsLoop_eq {psocs : List Nat} {curr : DscTree} (shape : tree.Shape)
    (distinct : psocs.Nodup) (sameVdevs : curr.vdevs = tree.vdevs)
    (untouched : ∀ psoc ∈ psocs, curr.trans (.psoc psoc) = tree.trans (.psoc psoc)) :
    psocs.foldl (fun curr psoc => wakeAll curr (psocWakes curr psoc)) curr =
      wakeAll curr (psocs.flatMap (psocWakes tree)) := by
  induction psocs generalizing curr with
  | nil => rfl
  | cons psoc rest ih =>
    obtain ⟨fresh, distinctRest⟩ := nodup_cons.mp distinct
    have sameQueued : curr.Queued (.psoc psoc) ↔ tree.Queued (.psoc psoc) := by
      simp [DscTree.Queued, untouched psoc (by simp)]
    have decision : psocWakes curr psoc = psocWakes tree psoc := by
      simp [psocWakes, sameQueued, sameVdevs]
    have nodup := psocWakes_nodup shape psoc
    rw [foldl_cons, decision, ih distinctRest]
    · simp [wakeAll]
    · rw [wakeAll_eq nodup]; exact sameVdevs
    · intro other mem
      have outside : Node.psoc other ∉ psocWakes tree psoc := by
        intro woken
        rcases psoc_of_mem_psocWakes woken with same | ⟨vdev, same⟩
        · cases same; exact fresh mem
        · cases same
      rw [wakeAll_eq nodup]
      simpa [outside] using untouched other (by simp [mem])

theorem dscDriverTriggerTrans_eq (shape : tree.Shape) :
    dscDriverTriggerTrans tree = wakeAll tree (wakes tree .driver) := by
  unfold dscDriverTriggerTrans wakes
  by_cases queued : tree.Queued .driver
  · have taken : (dscTransTrigger tree .driver).1 = true := by
      rw [dscTransTrigger_fst]; exact queued
    split <;> simp_all [wakeAll]
  · rw [if_neg queued, dscTransTrigger_idle queued]
    have body := funext fun curr => funext (psocTrigger_eq curr)
    exact (congrArg (fun body => tree.psocs.foldl body tree) body).trans
      (psocsLoop_eq shape shape.psocsNodup rfl fun _ _ => rfl)

theorem dscDriverTransTriggerChecked_eq (tree : DscTree) : dscDriverTransTriggerChecked tree =
      (dscTransQueued (tree.trans .driver),
        wakeAll tree (if tree.Queued .driver ∧ dscDriverCanTrigger tree then [.driver] else [])) := by
  unfold dscDriverTransTriggerChecked
  by_cases queued : tree.Queued .driver
  · have pending : dscTransQueued (tree.trans .driver) = true := queued
    cases can : dscDriverCanTrigger tree with
    | false => simp [pending, wakeAll]
    | true =>
      refine Prod.ext ?_ ?_
      · simp [pending, dscTransTrigger_fst]
      · simp [pending, queued, wakeAll]
  · have none : dscTransQueued (tree.trans .driver) = false := by
      simpa [DscTree.Queued] using queued
    simp [none, queued, wakeAll]

theorem dscPsocTransTriggerChecked_eq (tree : DscTree) (psoc : Nat) : dscPsocTransTriggerChecked tree psoc =
      (dscTransQueued (tree.trans (.psoc psoc)), wakeAll tree
          (if tree.Queued (.psoc psoc) ∧ dscPsocCanTrigger tree psoc then [.psoc psoc] else [])) := by
  unfold dscPsocTransTriggerChecked
  by_cases queued : tree.Queued (.psoc psoc)
  · have pending : dscTransQueued (tree.trans (.psoc psoc)) = true := queued
    have nonempty : (tree.trans (.psoc psoc)).queue.isEmpty = false := by
      simpa [dscTransQueued] using pending
    cases can : dscPsocCanTrigger tree psoc with
    | false => simp [pending, nonempty, wakeAll]
    | true =>
      refine Prod.ext ?_ ?_
      · simp [nonempty, pending, dscTransTrigger_fst]
      · simp [nonempty, queued, wakeAll]
  · have empty : (tree.trans (.psoc psoc)).queue.isEmpty = true := by
      simpa [DscTree.Queued, dscTransQueued] using queued
    simp [empty, queued, dscTransQueued, wakeAll]

theorem dscPsocTriggerTrans_eq (tree : DscTree) (psoc : Nat) :
    dscPsocTriggerTrans tree psoc = wakeAll tree (wakes tree (.psoc psoc)) := by
  unfold dscPsocTriggerTrans
  rw [dscDriverTransTriggerChecked_eq]
  by_cases queued : tree.Queued .driver
  · have pending : dscTransQueued (tree.trans .driver) = true := queued
    simp [pending, queued, wakes]
  · have none : dscTransQueued (tree.trans .driver) = false := by
      simpa [DscTree.Queued] using queued
    simp only [none, queued, false_and, if_false, wakes]
    exact psocTrigger_eq tree psoc

theorem dscVdevTriggerTrans_eq (tree : DscTree) (psoc vdev : Nat) :
    dscVdevTriggerTrans tree psoc vdev = wakeAll tree (wakes tree (.vdev psoc vdev)) := by
  unfold dscVdevTriggerTrans
  rw [dscDriverTransTriggerChecked_eq]
  by_cases queued : tree.Queued .driver
  · have pending : dscTransQueued (tree.trans .driver) = true := queued
    simp [pending, queued, wakes]
  have none : dscTransQueued (tree.trans .driver) = false := by
    simpa [DscTree.Queued] using queued
  simp only [none, queued, false_and, if_false, wakes]
  have nothing : wakeAll tree [] = tree := rfl
  rw [nothing, dscPsocTransTriggerChecked_eq]
  by_cases psocQueued : tree.Queued (.psoc psoc)
  · have psocPending : dscTransQueued (tree.trans (.psoc psoc)) = true := psocQueued
    simp [psocPending, psocQueued]
  · have psocNone : dscTransQueued (tree.trans (.psoc psoc)) = false := by
      simpa [DscTree.Queued] using psocQueued
    simp [psocNone, psocQueued, wakeAll]

theorem wakes_nodup (shape : tree.Shape) (node : Node) : (wakes tree node).Nodup := by
  cases node with
  | driver =>
    simp only [wakes]
    split
    · exact nodup_singleton _
    rw [nodup_flatMap]
    refine ⟨fun psoc _ => psocWakes_nodup shape psoc, shape.psocsNodup.imp ?_⟩
    intro first second apart other inFirst inSecond
    rcases psoc_of_mem_psocWakes inFirst with same | ⟨_, same⟩ <;>
      rcases psoc_of_mem_psocWakes inSecond with other | ⟨_, other⟩ <;>
      subst same <;> cases other <;> exact apart rfl
  | psoc psoc =>
    simp only [wakes]
    split
    · split <;> simp
    · exact psocWakes_nodup shape psoc
  | vdev psoc vdev =>
    simp only [wakes]
    repeat' split
    all_goals simp

/-- Why a stop of `node` wakes a node: no queue above it, and it is on the path down from `node` or was found free
to trigger. -/
inductive Woken (tree : DscTree) (node : Node) : Node → Prop where
  | driver (queued : tree.Queued .driver)
      (free : node = .driver ∨ dscDriverCanTrigger tree = true) : Woken tree node .driver
  | psoc (psoc : Nat) (driverIdle : ¬ tree.Queued .driver) (queued : tree.Queued (.psoc psoc))
      (free : node = .driver ∨ node = .psoc psoc ∨ dscPsocCanTrigger tree psoc = true) :
      Woken tree node (.psoc psoc)
  | vdev (psoc vdev : Nat) (driverIdle : ¬ tree.Queued .driver)
      (psocIdle : ¬ tree.Queued (.psoc psoc))
      (free : node = .driver ∨ node = .psoc psoc ∨ node = .vdev psoc vdev) : Woken tree node (.vdev psoc vdev)

private theorem Woken.of_psocWakes {psoc : Nat} (driverIdle : ¬ tree.Queued .driver)
    (src : node = .driver ∨ node = .psoc psoc) (woken : other ∈ psocWakes tree psoc) :
    Woken tree node other := by
  rcases mem_psocWakes.mp woken with ⟨queued, rfl⟩ | ⟨psocIdle, vdev, _, rfl⟩
  · exact .psoc psoc driverIdle queued (src.imp_right .inl)
  · exact .vdev psoc vdev driverIdle psocIdle (src.imp_right .inl)

theorem woken_of_mem (woken : other ∈ wakes tree node) : Woken tree node other := by
  cases node with
  | driver =>
    simp only [wakes] at woken
    split at woken
    · rename_i queued
      rw [mem_singleton.mp woken]
      exact .driver queued (.inl rfl)
    · obtain ⟨psoc, _, inPsoc⟩ := mem_flatMap.mp woken
      exact .of_psocWakes ‹_› (.inl rfl) inPsoc
  | psoc psoc =>
    simp only [wakes] at woken
    split at woken
    · rename_i queued
      split at woken
      · rw [mem_singleton.mp woken]
        exact .driver queued (.inr ‹_›)
      · cases woken
    · exact .of_psocWakes ‹_› (.inr rfl) woken
  | vdev psoc vdev =>
    simp only [wakes] at woken
    split at woken
    · rename_i queued
      split at woken
      · rw [mem_singleton.mp woken]
        exact .driver queued (.inr ‹_›)
      · cases woken
    rename_i driverIdle
    split at woken
    · rename_i queued
      split at woken
      · rw [mem_singleton.mp woken]
        exact .psoc psoc driverIdle queued (.inr (.inr ‹_›))
      · cases woken
    · rw [mem_singleton.mp woken]
      exact .vdev psoc vdev driverIdle ‹_› (.inr (.inr rfl))

theorem transStop_eq (shape : (dscTransStop tree node).Shape) :
    transStop tree node = wakeAll (dscTransStop tree node) (wakes (dscTransStop tree node) node) := by
  cases node with
  | driver => exact dscDriverTriggerTrans_eq shape
  | psoc psoc => exact dscPsocTriggerTrans_eq _ psoc
  | vdev psoc vdev => exact dscVdevTriggerTrans_eq _ psoc vdev

end KernelModules.Dsc

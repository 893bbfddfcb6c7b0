import KernelModules.Dsc.WaitForOps
import Mathlib.Data.List.TakeWhile

namespace KernelModules.Dsc

open List DscTree

/-! # Quiescence

While a transition is active no operation is admitted on its node or below, so counters only fall, and an event that
is set was set at zero.
-/

def Node.Within (node root : Node) : Prop :=
  node = root ∨ node.Below root

def WaitFrame.node : WaitFrame → Node
  | .enter node => node
  | .uptree node => node
  | .wait node => node
  | .forEach node _ => node

def WaitFrame.Pends (tree : DscTree) : WaitFrame → Node → Prop
  | .enter root, node => node.Within root
  | .uptree _, _ => False
  | .wait root, node => node = root
  | .forEach root cursor, node => ∃ child ∈ laterChildren tree root cursor, node.Within child

structure Draining (tree : DscTree) (waiter : Waiter) : Prop where
  active : tree.Active waiter.node
  inside : ∀ frame ∈ waiter.frames, frame.node.Within waiter.node
  latched : ∀ node, .wait node ∈ waiter.frames → (tree.ops node).event = true → (tree.ops node).count = 0
  pending : ∀ node, tree.Attached node → node.Within waiter.node →
    (tree.ops node).count = 0 ∨ ∃ frame ∈ waiter.frames, frame.Pends tree node

variable {tree after : DscTree} {action : Action} {node root : Node}

theorem Node.Below.trans (first : node.Below other) (second : other.Below root) : node.Below root := by
  cases second with
  | psocDriver psoc =>
    cases first with
    | vdevPsoc _ vdev => exact .vdevDriver psoc vdev
  | vdevDriver _ _ => cases first
  | vdevPsoc _ _ => cases first

theorem Node.Below.within (below : node.Below other) (within : other.Within root) : node.Within root := by
  rcases within with same | above
  · exact .inr (same ▸ below)
  · exact .inr (below.trans above)

theorem below_of_mem_children (mem : other ∈ tree.children node) : other.Below node := by
  cases node with
  | driver =>
    obtain ⟨psoc, _, rfl⟩ := mem_map.mp mem
    exact .psocDriver psoc
  | psoc psoc =>
    obtain ⟨vdev, _, rfl⟩ := mem_map.mp mem
    exact .vdevPsoc psoc vdev
  | vdev psoc vdev => cases mem

theorem child_of_below (attached : tree.Attached other) (lt : other.Below node) :
    ∃ child ∈ tree.children node, other.Within child := by
  cases lt with
  | psocDriver psoc => exact ⟨_, mem_map_of_mem attached, .inl rfl⟩
  | vdevDriver psoc vdev =>
    exact ⟨_, mem_map_of_mem attached.1, .inr (.vdevPsoc psoc vdev)⟩
  | vdevPsoc psoc vdev => exact ⟨_, mem_map_of_mem attached.2, .inl rfl⟩

theorem children_nodup (shape : tree.Shape) (node : Node) : (tree.children node).Nodup := by
  cases node with
  | driver =>
    refine List.Nodup.map ?_ shape.psocsNodup
    intro first second same
    cases same
    rfl
  | psoc psoc =>
    refine List.Nodup.map ?_ (shape.vdevsNodup psoc)
    intro first second same
    cases same
    rfl
  | vdev psoc vdev => exact nodup_nil

theorem laterChildren_suffix (tree : DscTree) (node : Node) (cursor : Option Node) :
    laterChildren tree node cursor <:+ tree.children node := by
  cases cursor with
  | none => exact suffix_rfl
  | some child => exact (tail_suffix _).trans (dropWhile_suffix _)

theorem laterChildren_next (shape : tree.Shape) (later : laterChildren tree node cursor = other :: rest) :
    laterChildren tree node (some other) = rest := by
  obtain ⟨visited, split⟩ := laterChildren_suffix tree node cursor
  have nodup := children_nodup shape node
  rw [later] at split
  rw [← split] at nodup
  have fresh : other ∉ visited := fun mem =>
    (nodup_append.mp nodup).2.2 other mem other (by simp) rfl
  have skipped : visited.dropWhile (· != other) = [] := by
    rw [dropWhile_eq_nil_iff]
    intro first mem
    simp only [bne_iff_ne]
    exact fun same => fresh (same ▸ mem)
  simp [laterChildren, ← split, dropWhile_append, skipped]

theorem laterChildren_grows (children : after.children node = tree.children node ++ added)
    (mem : other ∈ laterChildren tree node cursor) : other ∈ laterChildren after node cursor := by
  cases cursor with
  | none => simp only [laterChildren, children]; exact mem_append_left _ mem
  | some child =>
    simp only [laterChildren] at mem ⊢
    rw [children, dropWhile_append]
    cases found : (tree.children node).dropWhile (· != child) with
    | nil => simp [found] at mem
    | cons head tail =>
      rw [found] at mem
      exact mem_append_left _ mem

structure Quiet (tree after : DscTree) (root : Node) : Prop where
  children : ∀ node, ∃ added, after.children node = tree.children node ++ added
  drained : ∀ node, tree.Attached node → node.Within root → (tree.ops node).count = 0 → (after.ops node).count = 0
  latched : ∀ node, node.Within root → ((tree.ops node).event = true → (tree.ops node).count = 0) →
    (after.ops node).event = true → (after.ops node).count = 0
  arrived : ∀ node, after.Attached node → tree.Attached node ∨ (after.ops node).count = 0

theorem CanStart.not_under (can : CanStart tree node) (active : tree.Active root) : ¬ node.Within root := by
  intro lt
  rcases lt with same | below
  · exact can.inactive (same ▸ active)
  · exact (can.above root below).1 active

theorem Quiet.of_ops (psocs : after.psocs = tree.psocs) (vdevs : after.vdevs = tree.vdevs)
    (ops : ∀ node, node.Within root → after.ops node = tree.ops node) : Quiet tree after root where
  children node := ⟨[], by cases node <;> simp [DscTree.children, psocs, vdevs]⟩
  drained node _ lt empty := by rw [ops node lt]; exact empty
  latched node lt known := by rw [ops node lt]; exact known
  arrived node attached := by
    refine .inl ?_
    cases node with
    | driver => trivial
    | psoc psoc => simpa [DscTree.Attached, psocs] using attached
    | vdev psoc vdev => simpa [DscTree.Attached, psocs, vdevs] using attached

section

variable
  (shape : tree.Shape) (active : tree.Active root) (balanced : OpsBalanced { tree } (.call action))
include shape active balanced

theorem Move.quiet (move : Move tree action after) : Quiet tree after root := by
  cases move with
  | refuse _ | start _ _ | wait _ _ | abort _ _ _ => exact .of_ops rfl rfl fun _ _ => rfl
  | @stop stopped attached =>
    rw [wakeAll_eq (wakes_nodup (dscTransStop_shape shape attached) stopped)]
    exact .of_ops rfl rfl fun _ _ => rfl
  | @enter _ entered attached can =>
    refine .of_ops rfl rfl fun node lt => ?_
    have apart : node ≠ entered := by
      intro same
      exact can.not_under active (same ▸ lt)
    simp [dscOpsInsert, apart]
  | @leave left func attached =>
    have pos : (tree.ops left).count ≠ 0 := balanced
    refine ⟨fun node => ⟨[], (append_nil _).symm⟩, ?_, ?_, fun node attached => .inl attached⟩
    · intro node _ _ empty
      by_cases same : node = left
      · exact absurd (same ▸ empty) pos
      · simpa [dscOpsRemove, same] using empty
    · intro node _ known set
      by_cases same : node = left
      · subst same
        simp only [dscOpsRemove, dscAssert, setOps, Function.update_self, Bool.or_eq_true, beq_iff_eq] at set ⊢
        exact set.resolve_left fun old => pos (known old)
      · simpa [dscOpsRemove, same] using known (by simpa [dscOpsRemove, same] using set)
  | @createPsoc psoc _ fresh =>
    refine ⟨fun node => ?_, fun node _ _ empty => ?_, fun node _ known set => ?_, fun node attached => ?_⟩
    · cases node with
      | driver => exact ⟨[.psoc psoc], by simp [children, dscPsocCreate]⟩
      | psoc owner =>
        refine ⟨[], ?_⟩
        by_cases same : owner = psoc
        · simp [children, dscPsocCreate, same, shape.childless psoc fresh]
        · simp [children, dscPsocCreate, same]
      | vdev _ _ => exact ⟨[], rfl⟩
    · by_cases same : node = .psoc psoc
      · simp [dscPsocCreate, same]
      · simpa [dscPsocCreate, same] using empty
    · by_cases same : node = .psoc psoc
      · simp [dscPsocCreate, same]
      · simpa [dscPsocCreate, same] using known (by simpa [dscPsocCreate, same] using set)
    · by_cases same : node = .psoc psoc
      · exact .inr (by simp [dscPsocCreate, same])
      refine .inl ?_
      cases node with
      | driver => trivial
      | psoc owner =>
        have apart : owner ≠ psoc := fun equal => same (by rw [equal])
        simpa [DscTree.Attached, dscPsocCreate, apart] using attached
      | vdev owner vdev =>
        by_cases equal : owner = psoc
        · simp [DscTree.Attached, dscPsocCreate, equal] at attached
        · simpa [DscTree.Attached, dscPsocCreate, equal] using attached
  | @createVdev psoc vdev _ parent fresh =>
    refine ⟨fun node => ?_, fun node _ _ empty => ?_, fun node _ known set => ?_, fun node attached => ?_⟩
    · cases node with
      | driver => exact ⟨[], (append_nil _).symm⟩
      | psoc owner =>
        by_cases same : owner = psoc
        · exact ⟨[.vdev psoc vdev], by simp [children, dscVdevCreate, same]⟩
        · exact ⟨[], by simp [children, dscVdevCreate, same]⟩
      | vdev _ _ => exact ⟨[], rfl⟩
    · by_cases same : node = .vdev psoc vdev
      · simp [dscVdevCreate, same]
      · simpa [dscVdevCreate, same] using empty
    · by_cases same : node = .vdev psoc vdev
      · simp [dscVdevCreate, same]
      · simpa [dscVdevCreate, same] using known (by simpa [dscVdevCreate, same] using set)
    · by_cases same : node = .vdev psoc vdev
      · exact .inr (by simp [dscVdevCreate, same])
      refine .inl ?_
      cases node with
      | driver => trivial
      | psoc owner => exact attached
      | vdev owner child =>
        by_cases equal : owner = psoc
        · subst equal
          have apart : child ≠ vdev := fun equal => same (by rw [equal])
          simpa [DscTree.Attached, dscVdevCreate, apart] using attached
        · simpa [DscTree.Attached, dscVdevCreate, equal] using attached
  | destroyPsoc _ _ => exact balanced.elim
  | destroyVdev _ _ => exact balanced.elim

theorem Move.keeps_active (other : action ≠ .transStop root) (move : Move tree action after) : after.Active root := by
  have attached := shape.attached_of_active active
  cases move with
  | refuse _ => exact active
  | @start _ started desc _ _ =>
    by_cases same : root = started
    · simp [DscTree.Active, dscTransStart, dscTransActive, same]
    · simpa [DscTree.Active, dscTransStart, same] using active
  | @wait _ waiting desc _ _ =>
    by_cases same : root = waiting
    · subst same
      simpa [DscTree.Active, dscTransQueue, dscTransActive] using active
    · simpa [DscTree.Active, dscTransQueue, same] using active
  | @stop stopped stoppedAttached =>
    have apart : root ≠ stopped := fun same => other (by rw [same])
    have nodup := wakes_nodup (dscTransStop_shape shape stoppedAttached) stopped
    exact wakeAll_keeps nodup (dscTransStop_keeps apart active)
  | enter _ _ => exact active
  | leave _ => exact active
  | @abort aborted tran rest _ _ _ =>
    by_cases same : root = aborted
    · subst same
      simpa [DscTree.Active, dscTransActive] using active
    · simpa [DscTree.Active, same] using active
  | @createPsoc psoc _ fresh =>
    have apart : root ≠ .psoc psoc := fun same => fresh (by rw [same] at attached; exact attached)
    simpa [DscTree.Active, dscPsocCreate, apart] using active
  | @createVdev psoc vdev _ _ fresh =>
    have apart : root ≠ .vdev psoc vdev := fun same =>
      fresh (by rw [same] at attached; exact attached.2)
    simpa [DscTree.Active, dscVdevCreate, apart] using active
  | destroyPsoc _ _ => exact balanced.elim
  | destroyVdev _ _ => exact balanced.elim

end

theorem WaitFrame.Pends.mono {frame : WaitFrame} (quiet : Quiet tree after root)
    (pends : frame.Pends tree node) : frame.Pends after node := by
  cases frame with
  | enter _ => exact pends
  | uptree _ => exact pends
  | wait _ => exact pends
  | forEach parent cursor =>
    obtain ⟨child, later, lt⟩ := pends
    obtain ⟨added, grown⟩ := quiet.children parent
    exact ⟨child, laterChildren_grows grown later, lt⟩

theorem Draining.call {waiter : Waiter} (shape : tree.Shape) (draining : Draining tree waiter)
    (balanced : OpsBalanced { tree } (.call action)) (other : action ≠ .transStop waiter.node)
    (move : Move tree action after) : Draining after waiter := by
  have quiet := move.quiet shape draining.active balanced
  refine ⟨move.keeps_active shape draining.active balanced other, draining.inside, ?_, ?_⟩
  · intro node waits
    have lt : node.Within waiter.node := draining.inside _ waits
    exact quiet.latched node lt (draining.latched node waits)
  · intro node attached lt
    rcases quiet.arrived node attached with before | empty
    · rcases draining.pending node before lt with empty | ⟨frame, mem, pends⟩
      · exact .inl (quiet.drained node before lt empty)
      · exact .inr ⟨frame, mem, pends.mono quiet⟩
    · exact .inl empty

structure Untouched (tree after : DscTree) : Prop where
  psocs : after.psocs = tree.psocs
  vdevs : after.vdevs = tree.vdevs
  trans : after.trans = tree.trans
  count : ∀ node, (after.ops node).count = (tree.ops node).count
  event : ∀ node, (after.ops node).event = true → (tree.ops node).event = true

theorem Untouched.rfl : Untouched tree tree where
  psocs := Eq.refl _
  vdevs := Eq.refl _
  trans := Eq.refl _
  count _ := Eq.refl _
  event _ := id

section

variable (untouched : Untouched tree after)
include untouched

theorem Untouched.attached : after.Attached node ↔ tree.Attached node := by
  cases node <;> simp [DscTree.Attached, untouched.psocs, untouched.vdevs]

theorem Untouched.laterChildren (cursor : Option Node) :
    laterChildren after node cursor = KernelModules.Dsc.laterChildren tree node cursor := by
  have same : after.children node = tree.children node := by
    cases node <;> simp [children, untouched.psocs, untouched.vdevs]
  cases cursor <;> simp [KernelModules.Dsc.laterChildren, same]

theorem Untouched.pends {frame : WaitFrame} (pends : frame.Pends tree node) : frame.Pends after node := by
  cases frame with
  | forEach parent cursor =>
    obtain ⟨child, later, lt⟩ := pends
    exact ⟨child, by rw [untouched.laterChildren]; exact later, lt⟩
  | _ => exact pends

theorem Untouched.draining (draining : Draining tree waiter) : Draining after waiter := by
  refine ⟨?_, draining.inside, fun node waits set => ?_, fun node attached lt => ?_⟩
  · rw [DscTree.Active, untouched.trans]
    exact draining.active
  · rw [untouched.count]
    exact draining.latched node waits (untouched.event node set)
  · rw [untouched.count]
    rcases draining.pending node (untouched.attached.mp attached) lt with
      empty | ⟨frame, mem, pends⟩
    · exact .inl empty
    · exact .inr ⟨frame, mem, untouched.pends pends⟩

theorem Untouched.shape (shape : tree.Shape) : after.Shape :=
  shape.of_trans untouched.psocs untouched.vdevs fun node _ => by rw [untouched.trans]

end

theorem dscWaitCheck_spec (checked : dscWaitCheck tree node = (wait, after)) :
    Untouched tree after ∧ if wait then (after.ops node).event = false else (tree.ops node).count = 0 := by
  unfold dscWaitCheck at checked
  split at checked
  · cases checked
    refine ⟨⟨rfl, rfl, rfl, fun other => ?_, fun other set => ?_⟩, by simp⟩
    · by_cases same : other = node
      · simp [same]
      · simp [same]
    · by_cases same : other = node
      · simp [same] at set
      · simpa [same] using set
  · rename_i empty
    cases checked
    refine ⟨.rfl, ?_⟩
    simpa [UInt32.pos_iff_ne_zero] using empty

theorem dscWaitForOpsCheck_spec (checked : dscWaitForOpsCheck tree node = (wait, after)) :
    Untouched tree after ∧ if wait then (after.ops node).event = false else (tree.ops node).count = 0 := by
  cases node with
  | driver =>
    obtain ⟨untouched, decided⟩ := dscWaitCheck_spec checked
    exact ⟨{ untouched with }, decided⟩
  | psoc psoc | vdev psoc vdev => exact dscWaitCheck_spec checked

theorem waitStep_untouched (stepped : waitStep tree frames = some (after, rest)) : Untouched tree after := by
  cases frames with
  | nil => cases stepped
  | cons frame below =>
    cases frame with
    | enter node =>
      simp only [waitStep] at stepped
      cases checked : dscWaitForOpsCheck tree node with
      | mk wait next =>
        have untouched := (dscWaitForOpsCheck_spec checked).1
        rw [checked] at stepped
        cases wait <;> cases stepped <;> exact untouched
    | uptree node =>
      simp only [waitStep] at stepped
      cases checked : dscWaitCheck tree node with
      | mk wait next =>
        have untouched := (dscWaitCheck_spec checked).1
        rw [checked] at stepped
        cases wait <;> cases stepped <;> exact untouched
    | wait node =>
      simp only [waitStep] at stepped
      split at stepped
      · cases stepped; exact .rfl
      · cases stepped
    | forEach node cursor =>
      simp only [waitStep] at stepped
      split at stepped <;> cases stepped <;> exact .rfl

theorem Draining.replace (draining : Draining tree waiter) (frames : waiter.frames = top :: rest)
    (next : List WaitFrame) (inside : ∀ frame ∈ next, frame.node.Within waiter.node)
    (latched : ∀ node, .wait node ∈ next → (tree.ops node).event = false)
    (pending : ∀ node, tree.Attached node → top.Pends tree node →
      (tree.ops node).count = 0 ∨ ∃ frame ∈ next, frame.Pends tree node) :
    Draining tree { waiter with frames := next ++ rest } := by
  refine ⟨draining.active, fun frame mem => ?_, fun node waits set => ?_, fun node attached lt => ?_⟩
  · rcases mem_append.mp mem with new | old
    · exact inside frame new
    · exact draining.inside frame (by rw [frames]; exact mem_cons_of_mem _ old)
  · rcases mem_append.mp waits with new | old
    · rw [latched node new] at set
      cases set
    · exact draining.latched node (by rw [frames]; exact mem_cons_of_mem _ old) set
  · rcases draining.pending node attached lt with empty | ⟨frame, mem, pends⟩
    · exact .inl empty
    rw [frames] at mem
    rcases mem_cons.mp mem with same | old
    · subst same
      refine (pending node attached pends).imp_right ?_
      intro ⟨frame, new, pends⟩
      exact ⟨frame, mem_append_left _ new, pends⟩
    · exact .inr ⟨frame, mem_append_right _ old, pends⟩

theorem Draining.checked (draining : Draining tree waiter) (frames : waiter.frames = .enter node :: rest)
    (wait : Bool) (decided : if wait then (tree.ops node).event = false else (tree.ops node).count = 0) :
    Draining tree { waiter with
      frames := (if wait then [.wait node, .forEach node none] else [.forEach node none]) ++ rest } := by
  have lt : node.Within waiter.node :=
    draining.inside (.enter node) (by rw [frames]; exact mem_cons_self)
  refine draining.replace frames _ (fun frame mem => ?_) (fun other waits => ?_)
    (fun other attached pends => ?_)
  · cases wait with
    | true =>
      rcases mem_pair.mp mem with same | same <;> rw [same] <;> exact lt
    | false => rw [mem_singleton.mp mem]; exact lt
  · cases wait with
    | true =>
      rcases mem_pair.mp waits with same | same
      · cases same; exact decided
      · cases same
    | false => cases mem_singleton.mp waits
  · rcases pends with same | below
    · subst same
      cases wait with
      | true => exact .inr ⟨.wait other, by simp, rfl⟩
      | false => exact .inl decided
    · obtain ⟨child, mem, inChild⟩ := child_of_below attached below
      refine .inr ⟨.forEach node none, ?_, child, mem, inChild⟩
      cases wait <;> simp

theorem waitStep_draining (shape : tree.Shape) (draining : Draining tree waiter)
    (stepped : waitStep tree waiter.frames = some (after, rest)) :
    Draining after { waiter with frames := rest } := by
  cases frames : waiter.frames with
  | nil => rw [frames] at stepped; cases stepped
  | cons frame below =>
    rw [frames] at stepped
    cases frame with
    | enter node =>
      simp only [waitStep] at stepped
      cases found : dscWaitForOpsCheck tree node with
      | mk wait next =>
        obtain ⟨same, decided⟩ := dscWaitForOpsCheck_spec found
        rw [found] at stepped
        cases wait with
        | true =>
          cases stepped
          exact (same.draining draining).checked frames true decided
        | false =>
          cases stepped
          refine (same.draining draining).checked frames false ?_
          simpa [same.count] using decided
    | uptree node =>
      simp only [waitStep] at stepped
      have lt : node.Within waiter.node :=
        draining.inside (.uptree node) (by rw [frames]; exact mem_cons_self)
      cases found : dscWaitCheck tree node with
      | mk wait next =>
        obtain ⟨same, decided⟩ := dscWaitCheck_spec found
        rw [found] at stepped
        cases wait with
        | true =>
          cases stepped
          refine (same.draining draining).replace frames [.wait node] ?_ ?_ ?_
          · intro frame mem
            rw [mem_singleton.mp mem]
            exact lt
          · intro other waits
            cases mem_singleton.mp waits
            exact decided
          · exact fun _ _ pends => pends.elim
        | false =>
          cases stepped
          exact (same.draining draining).replace frames [] (by simp) (by simp) fun _ _ pends => pends.elim
    | wait node =>
      simp only [waitStep] at stepped
      split at stepped
      · rename_i set
        cases stepped
        refine draining.replace frames [] (by simp) (by simp) ?_
        intro other _ pends
        cases pends
        exact .inl (draining.latched node (by rw [frames]; exact mem_cons_self) set)
      · cases stepped
    | forEach node cursor =>
      have lt : node.Within waiter.node :=
        draining.inside (.forEach node cursor) (by rw [frames]; exact mem_cons_self)
      simp only [waitStep] at stepped
      split at stepped
      · rename_i done
        cases stepped
        refine draining.replace frames [] (by simp) (by simp) ?_
        intro other _ ⟨child, mem, _⟩
        rw [done] at mem
        cases mem
      · rename_i child later found
        cases stepped
        have mem : child ∈ laterChildren tree node cursor := by simp [found]
        have isChild := below_of_mem_children ((laterChildren_suffix tree node cursor).subset mem)
        refine draining.replace frames [.enter child, .forEach node (some child)] ?_ ?_ ?_
        · intro frame mem
          rcases mem_pair.mp mem with same | same
          · rw [same]; exact isChild.within lt
          · rw [same]; exact lt
        · intro other waits
          rcases mem_pair.mp waits with same | same <;> cases same
        · intro other _ ⟨ahead, inLater, inAhead⟩
          rw [found] at inLater
          rcases mem_cons.mp inLater with same | rest
          · subst same
            exact .inr ⟨.enter ahead, by simp, inAhead⟩
          · refine .inr ⟨.forEach node (some child), by simp, ahead, ?_, inAhead⟩
            rw [laterChildren_next shape found]
            exact rest

structure WaitSystem.Drains (system : WaitSystem) : Prop where
  shape : system.tree.Shape
  held : ∀ thread waiter, system.waiters thread = some waiter → waiter.held = true → Draining system.tree waiter

theorem Draining.begin (active : tree.Active node) :
    Draining tree { node, frames := [.enter node], held := true } where
  active := active
  inside frame member := by rw [mem_singleton.mp member]; exact .inl rfl
  latched other waits := by cases mem_singleton.mp waits
  pending other _ within := .inr ⟨.enter node, mem_cons_self, within⟩

theorem WaitSystem.Drains.setWaiter {system : WaitSystem} (drains : system.Drains)
    (fresh : waiter.held = true → Draining system.tree waiter) : (system.setWaiter thread waiter).Drains := by
  refine ⟨drains.shape, fun other found lookup held => ?_⟩
  by_cases same : other = thread
  · subst same
    simp only [WaitSystem.setWaiter, Function.update_self, Option.some.injEq] at lookup
    subst lookup
    exact fresh held
  · simp only [WaitSystem.setWaiter, Function.update_of_ne same] at lookup
    exact drains.held other found lookup held

theorem WaitSystem.Drains.step {next} {system : WaitSystem} {action : WaitAction} (drains : system.Drains)
    (balanced : OpsBalanced system action) (taken : waitSystemStep system action = some next) : next.Drains := by
  cases action with
  | call action =>
    obtain ⟨tree, called, result⟩ := Option.map_eq_some_iff.mp taken
    subst result
    have move := step_move drains.shape called
    have balancedTree : OpsBalanced { tree := system.tree } (.call action) := balanced
    refine ⟨move.shape drains.shape, fun thread waiter lookup held => ?_⟩
    obtain ⟨before, found, after⟩ := Option.map_eq_some_iff.mp lookup
    subst after
    simp only [Waiter.after, Bool.and_eq_true, bne_iff_ne] at held
    have draining := (drains.held thread before found held.1).call drains.shape balancedTree held.2 move
    exact { draining with }
  | waitForOps thread node =>
    simp only [waitSystemStep] at taken
    split at taken
    · cases taken
      refine drains.setWaiter fun held => ?_
      have active : system.tree.Active node := of_decide_eq_true held
      simp only [active, decide_true]
      exact .begin active
    · cases taken
  | waitForUptreeOps thread psoc vdev =>
    simp only [waitSystemStep] at taken
    split at taken
    · cases taken
      exact drains.setWaiter fun held => by cases held
    · cases taken
  | advance thread =>
    simp only [waitSystemStep] at taken
    cases lookup : system.waiters thread with
    | none => simp [lookup] at taken
    | some waiter =>
      simp only [lookup] at taken
      obtain ⟨⟨tree, frames⟩, stepped, result⟩ := Option.map_eq_some_iff.mp taken
      subst result
      have untouched := waitStep_untouched stepped
      have others : ({ system with tree := tree } : WaitSystem).Drains :=
        ⟨untouched.shape drains.shape, fun other found lookup held =>
          untouched.draining (drains.held other found lookup held)⟩
      exact others.setWaiter fun held =>
        waitStep_draining drains.shape (drains.held thread waiter lookup held) stepped

theorem wait_for_ops_quiesces {system : WaitSystem} {thread : Nat} {waiter : Waiter}
    (reached : Data.Reachable waitSystemStep OpsBalanced {} system)
    (called : system.waiters thread = some waiter) (holding : waiter.held = true)
    (returned : waiter.frames = []) {node : Node} (attached : system.tree.Attached node)
    (within : node = waiter.node ∨ node.Below waiter.node) : (system.tree.ops node).count = 0 := by
  have drains : system.Drains := by
    refine reached.invariant WaitSystem.Drains ⟨created_shape, fun _ _ none => by cases none⟩ ?_
    intro before action after drains balanced taken
    exact drains.step balanced taken
  refine ((drains.held thread waiter called holding).pending node attached within).resolve_right ?_
  intro ⟨frame, member, _⟩
  rw [returned] at member
  cases member

def drainingActions : List WaitAction :=
  [.call (.createPsoc 0 true), .call (.createVdev 0 0 true),
    .call (.opStart (.vdev 0 0) (some "scan") {} true), .call (.transStart (.psoc 0) (some "ssr") {}),
    .waitForOps 7 (.psoc 0), .advance 7, .advance 7, .advance 7,
    .call (.opStop (.vdev 0 0) (some "scan")), .advance 7, .advance 7, .advance 7]

theorem wait_for_ops_quiesces_draining :
    ∃ system, Data.runActions waitSystemStep OpsBalanced {} drainingActions = some system ∧
      system.tree.Active (.psoc 0) ∧ (system.tree.ops (.vdev 0 0)).count = 0 :=
  Data.ran_to (fun system => system.waiters 7 = some { node := .psoc 0, frames := [], held := true } ∧
    system.tree.Active (.psoc 0) ∧ system.tree.Attached (.vdev 0 0)) (by decide) fun _ ran ⟨returned, active, attached⟩ =>
      ⟨active, wait_for_ops_quiesces (.run .start ran) returned rfl rfl attached (.inr (.vdevPsoc 0 0))⟩

end KernelModules.Dsc

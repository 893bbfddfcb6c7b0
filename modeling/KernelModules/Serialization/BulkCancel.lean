import KernelModules.Serialization.Refusal

namespace KernelModules.Serialization

open Data List Function

/-! # Cancelling all commands that match

`wlan_ser_cancel_non_scan_cmd` and `wlan_ser_cancel_scan_cmd`, with nothing in between while the lock is dropped.
-/

inductive WlanSerializationCmdStatus where
  | notFound
  | inPendingList
  | inActiveList
  | markedForActivation

namespace PdevQueue

structure CancelWalk where
  isActive : Bool
  pdev : Bool
  /-- The comparisons that `continue` with the next node -/
  skips : PdevQueue → Nat → Bool
  /-- The node out of its lists and into the pool; `false` where that fails, and `none` where what is read
  is no command. -/
  take : PdevQueue → Nat → Option (PdevQueue × Bool)
  stops : Bool
  /-- `wlan_serialization_find_and_stop_timer` finds the timer of the command. -/
  timer : Nat → Bool

def CancelWalk.run (walk : CancelWalk) : Nat → Option Nat → Option Nat → PdevQueue →
    WlanSerializationCmdStatus → List WlanSerializationCommand →
    Option (PdevQueue × WlanSerializationCmdStatus × List WlanSerializationCommand)
  | 0, _, _, queue, status, calls => some (queue, status, calls)
  | qsize + 1, pnode, nnode, queue, status, calls =>
    if (queue.pdevList (.of walk.isActive)).nodes = [] then some (queue, status, calls)
    else match queue.getCmdFromQueue (.of walk.isActive) nnode with
      | none => none
      | some none => some (queue, .notFound, calls)
      | some (some node) =>
        if walk.skips queue node then walk.run qsize (some node) (some node) queue status calls
        else if walk.pdev ∧ (queue.nodes node).cmd.vdev = none then none
        else if walk.isActive ∧ (queue.nodes node).cmdInUse.markedForActivation then
          walk.run qsize pnode (some node)
            (queue.setInUse node fun bits => { bits with activeMarkedForCancel := true })
            .markedForActivation calls
        else if walk.isActive ∧ ¬walk.timer node then some (queue, .notFound, calls)
        else match walk.take queue node with
          | none => none
          | some (after, false) => some (after, .notFound, calls)
          | some (after, true) =>
            let status := if walk.isActive then .inActiveList else .inPendingList
            -- the callback gets `WLAN_SER_CB_CANCEL_CMD` and then `WLAN_SER_CB_RELEASE_MEM_CMD`
            let calls := calls ++ [(queue.nodes node).cmd]
            if walk.stops then some (after, status, calls)
            else walk.run qsize pnode pnode after status calls

def takeNonScanCmd (isActive : Bool) (queue : PdevQueue) (node : Nat) : Option (PdevQueue × Bool) :=
  match (queue.nodes node).cmd.vdev with
  | none => none
  | some vdev =>
    let removed := queue.removeNode (.pdev (.of isActive)) node
    if (removed.vdevList isActive vdev).nodes = [] then some (removed, false)
    else some (((removed.removeNode (.vdev isActive vdev) node).releaseCmd node).cancelled isActive vdev
        (queue.nodes node).cmd.isBlocking, true)

@[simps]
def cancelNonScanWalk (request : CancelRequest) (isActive : Bool) (timer : Nat → Bool) : CancelWalk where
  isActive := isActive
  pdev := request.pdev
  skips queue node := queue.cancelSkips request node
  take := takeNonScanCmd isActive
  stops := request.vdev = none ∧ ¬request.pdev
  timer := timer

/-- `wlan_ser_cancel_non_scan_cmd` up to the move that may follow a cancel of active commands -/
def cancelNonScanCmd (queue : PdevQueue) (request : CancelRequest) (isActive : Bool) (timer : Nat → Bool) :
    Option (PdevQueue × WlanSerializationCmdStatus × List WlanSerializationCommand) :=
  (cancelNonScanWalk request isActive timer).run (queue.pdevList (.of isActive)).count none none queue
    .notFound []

/-- The comparisons of `wlan_ser_cancel_scan_cmd` -/
def cancelScanSkips (request : CancelRequest) (queue : PdevQueue) (node : Nat) : Bool :=
  request.cmd.any (fun cmd => !decide ((queue.nodes node).cmd.cmdId = cmd.cmdId ∧
      (queue.nodes node).cmd.cmdType = cmd.cmdType)) ||
    request.vdev.any (fun vdev => (queue.nodes node).cmd.vdev ≠ some vdev)

def cancelScanWalk (request : CancelRequest) (isActive : Bool) (timer : Nat → Bool) : CancelWalk where
  isActive := isActive
  pdev := request.pdev
  skips := cancelScanSkips request
  take queue node := some ((queue.removeNode (.pdev (.of isActive)) node).releaseCmd node, true)
  stops := false
  timer := timer

/-- `wlan_ser_cancel_scan_cmd`, on the pdev's queue for scans -/
def cancelScanCmd (queue : PdevQueue) (request : CancelRequest) (isActive : Bool) (timer : Nat → Bool) :
    Option (PdevQueue × WlanSerializationCmdStatus × List WlanSerializationCommand) :=
  (cancelScanWalk request isActive timer).run (queue.pdevList (.of isActive)).count none none queue
    .notFound []

end PdevQueue

open PdevQueue (cancelNonScanWalk cancelScanWalk getCmdFromQueue insertBack matchCmd releaseCmd setCmd setInUse setList)

inductive CancelKind where
  | skipped
  /-- To be activated yet; `due` until it is marked for cancel. -/
  | marked (due : Bool)
  | removed
  | untimed
deriving DecidableEq

/-- A removal sends the walk back behind the last command that was skipped, to the `again` marked ones passed since;
the answer is whether nothing is left. -/
def covers : Nat → Nat → List CancelKind → Bool
  | _, _, [] => true
  | 0, _, rest => rest.all fun kind => kind = .skipped || kind = .marked false
  | rounds + 1, _, .skipped :: rest => covers rounds 0 rest
  | rounds + 1, again, .marked _ :: rest => covers rounds (again + 1) rest
  | rounds + 1, again, .removed :: rest => covers rounds 0 (List.replicate again (.marked false) ++ rest)
  | _ + 1, _, .untimed :: _ => false

/-- The rounds up to the last command to be dealt with: one for each, and behind each removal one more for each
marked command passed again. -/
def roundsNeeded : Nat → List CancelKind → Nat
  | _, [] => 0
  | _, .skipped :: rest => if roundsNeeded 0 rest = 0 then 0 else roundsNeeded 0 rest + 1
  | again, .marked due :: rest =>
    if roundsNeeded (again + 1) rest = 0 then if due then 1 else 0 else roundsNeeded (again + 1) rest + 1
  | again, .removed :: rest | again, .untimed :: rest =>
    if roundsNeeded again rest = 0 then 1 else roundsNeeded again rest + again + 1

variable {rounds again more : Nat} {kinds rest : List CancelKind}

theorem roundsNeeded_again : roundsNeeded more (List.replicate again (.marked false) ++ kinds) =
    if roundsNeeded (more + again) kinds = 0 then 0 else roundsNeeded (more + again) kinds + again := by
  induction again generalizing more with
  | zero =>
    split <;> simp_all
  | succ again ih =>
    rw [replicate_succ, cons_append, roundsNeeded, ih, Nat.add_right_comm, Nat.add_assoc]
    split
    · simp_all
    · simp_all
      omega

theorem roundsNeeded_eq_zero : roundsNeeded again kinds = 0 ↔
    kinds.all fun kind => kind = .skipped || kind = .marked false := by
  induction kinds generalizing again with
  | nil => simp [roundsNeeded]
  | cons kind rest ih =>
    cases kind with
    | skipped | removed | untimed => simp only [roundsNeeded, all_cons]; split <;> simp_all
    | marked due => cases due <;> simp only [roundsNeeded, all_cons] <;> split <;> simp_all

theorem covers_iff : covers rounds again kinds = true ↔ .untimed ∉ kinds ∧ roundsNeeded again kinds ≤ rounds := by
  induction rounds generalizing again kinds with
  | zero =>
    have done : covers 0 again kinds = kinds.all fun kind => kind = .skipped || kind = .marked false := by
      cases kinds <;> rfl
    rw [done, Nat.le_zero, roundsNeeded_eq_zero]
    refine ⟨fun all => ⟨fun mem => ?_, all⟩, And.right⟩
    have handled := all_eq_true.mp all _ mem
    cases handled
  | succ rounds ih =>
    cases kinds with
    | nil => simp [covers, roundsNeeded]
    | cons kind rest =>
      cases kind with
      | skipped =>
        rw [covers, roundsNeeded]
        split <;> simp_all
      | marked due =>
        rw [covers, roundsNeeded]
        cases due <;> split <;> simp_all
      | removed =>
        rw [covers, ih, roundsNeeded_again, roundsNeeded]
        split <;> simp_all
      | untimed => simp [covers]

theorem roundsNeeded_le_length (unmarked : ∀ due, .marked due ∉ kinds) : roundsNeeded 0 kinds ≤ kinds.length := by
  induction kinds with
  | nil => exact le_rfl
  | cons kind rest ih =>
    have later := ih fun due mem => unmarked due (mem_cons_of_mem _ mem)
    cases kind with
    | skipped | removed | untimed => rw [roundsNeeded, length_cons]; split <;> omega
    | marked due => exact absurd (mem_cons_self ..) (unmarked due)

namespace PdevQueue

variable {walk : CancelWalk} {good : PdevQueue → Prop} {queue after : PdevQueue} {place : PdevList}
  {node qsize : Nat} {done passed rest front back : List Nat} {status : WlanSerializationCmdStatus}
  {calls : List WlanSerializationCommand}

theorem listNext_append (nodup : (front ++ back).Nodup) (last : front.getLast? = some node) :
    listNext (front ++ back) node = back.head? := by
  induction front with
  | nil => cases last
  | cons first later ih =>
    rw [cons_append, listNext]
    cases later with
    | nil =>
      rw [getLast?_singleton, Option.some.injEq] at last
      rw [if_pos last, nil_append]
    | cons second later =>
      rw [getLast?_cons_cons] at last
      have apart : first ≠ node := fun same => by
        have mem := mem_append_left back (mem_of_getLast? last)
        rw [← same] at mem
        exact (nodup_cons.mp nodup).1 mem
      rw [if_neg apart]
      exact ih (nodup_cons.mp nodup).2 last

theorem PdevKept.getCmdFromQueue (kept : queue.PdevKept) (split : (queue.pdevList place).nodes = front ++ back) :
    queue.getCmdFromQueue place front.getLast? = some back.head? := by
  cases last : front.getLast? with
  | none =>
    rw [getLast?_eq_none_iff.mp last, nil_append] at split
    unfold PdevQueue.getCmdFromQueue
    rw [split]
  | some node =>
    have inside : node ∈ (queue.pdevList place).nodes := by
      rw [split]
      exact mem_append_left _ (mem_of_getLast? last)
    have home : [PdevList.cmdPool, .active, .pending].find?
        (fun list => node ∈ (queue.pdevList list).nodes) = some place := by
      cases found : [PdevList.cmdPool, .active, .pending].find? fun list => node ∈ (queue.pdevList list).nodes with
      | none =>
        have absent := List.find?_eq_none.mp found place (by cases place <;> decide)
        exact absurd inside (by simpa using absent)
      | some list =>
        have mem := List.find?_some found
        rw [decide_eq_true_iff] at mem
        rw [kept.apart mem inside]
    have next : listNext (queue.pdevList place).nodes node = back.head? := by
      rw [split]
      exact listNext_append (split ▸ kept.nodup place) last
    unfold PdevQueue.getCmdFromQueue
    dsimp only
    rw [home]
    dsimp only
    rw [next]
    cases back.head? with
    | none => exact if_pos rfl
    | some other => rfl

def CancelWalk.kind (walk : CancelWalk) (queue : PdevQueue) (node : Nat) : CancelKind :=
  if walk.skips queue node then .skipped
  else if walk.isActive ∧ (queue.nodes node).cmdInUse.markedForActivation then
    .marked (!(queue.nodes node).cmdInUse.activeMarkedForCancel)
  else if walk.isActive ∧ ¬walk.timer node then .untimed
  else .removed

/-- `CMD_ACTIVE_MARKED_FOR_CANCEL` is set. -/
def flag (queue : PdevQueue) (node : Nat) : PdevQueue :=
  queue.setInUse node fun bits => { bits with activeMarkedForCancel := true }

structure CancelWalk.Lawful (walk : CancelWalk) (good : PdevQueue → Prop) : Prop where
  kept : ∀ {queue}, good queue → queue.PdevKept
  owned : ∀ {queue node}, good queue → node ∈ (queue.pdevList (.of walk.isActive)).nodes →
    (queue.nodes node).cmd.vdev ≠ none
  skips : ∀ {queue after node}, (after.nodes node).cmd = (queue.nodes node).cmd →
    walk.skips after node = walk.skips queue node
  flag : ∀ {queue node}, good queue → node ∈ (queue.pdevList (.of walk.isActive)).nodes → good (queue.flag node)
  take : ∀ {queue node}, good queue → node ∈ (queue.pdevList (.of walk.isActive)).nodes →
    ∃ after, walk.take queue node = some (after, true) ∧ good after ∧
      (∀ isActive, (after.pdevList (.of isActive)).nodes = (queue.pdevList (.of isActive)).nodes.erase node) ∧
      ∀ other, other ≠ node → after.nodes other = queue.nodes other
  goes : walk.stops = false

def CancelWalk.Handled (walk : CancelWalk) (queue after : PdevQueue) (node : Nat) : Prop :=
  match walk.kind queue node with
  | .skipped => True
  | .marked _ => (after.nodes node).cmdInUse.activeMarkedForCancel = true
  | .removed | .untimed => node ∉ (after.pdevList (.of walk.isActive)).nodes

/-- From the queue with the list `front ++ rest` to the one after the walk over `rest` -/
structure CancelWalk.Walked (walk : CancelWalk) (queue after : PdevQueue) (front rest : List Nat)
    (calls : List WlanSerializationCommand) : Prop where
  order : (after.pdevList (.of walk.isActive)).nodes.Sublist (queue.pdevList (.of walk.isActive)).nodes
  front : ∀ node ∈ front, node ∈ (after.pdevList (.of walk.isActive)).nodes
  stays : ∀ node ∈ (queue.pdevList (.of walk.isActive)).nodes,
    walk.kind queue node = .skipped ∨ (∃ due, walk.kind queue node = .marked due) →
    node ∈ (after.pdevList (.of walk.isActive)).nodes
  nodes : ∀ node ∈ (after.pdevList (.of walk.isActive)).nodes, after.nodes node = queue.nodes node ∨
      (∃ due, walk.kind queue node = .marked due) ∧ after.nodes node = (queue.flag node).nodes node
  elsewhere : (after.pdevList (.of !walk.isActive)).nodes = (queue.pdevList (.of !walk.isActive)).nodes ∧
    ∀ node ∈ (queue.pdevList (.of !walk.isActive)).nodes, after.nodes node = queue.nodes node
  called : calls = (rest.filter (· ∉ (after.pdevList (.of walk.isActive)).nodes)).map
    fun node => (queue.nodes node).cmd

theorem flag_self : (queue.flag node).nodes node = { queue.nodes node with
    cmdInUse := { (queue.nodes node).cmdInUse with activeMarkedForCancel := true } } :=
  update_self ..

theorem flag_of_ne (apart : other ≠ node) : (queue.flag node).nodes other = queue.nodes other :=
  update_of_ne apart _ _

namespace CancelWalk

theorem Lawful.kind_congr (lawful : walk.Lawful good) (same : after.nodes node = queue.nodes node) :
    walk.kind after node = walk.kind queue node := by
  have skips := @Lawful.skips walk good lawful queue after node (by rw [same])
  unfold CancelWalk.kind
  rw [skips, same]

theorem Lawful.kind_flag (lawful : walk.Lawful good) (marked : walk.kind queue node = .marked due) :
    walk.kind (queue.flag node) node = .marked false := by
  have skips := @Lawful.skips walk good lawful queue (queue.flag node) node (by rw [flag_self])
  unfold CancelWalk.kind at marked ⊢
  rw [skips, flag_self]
  split at marked
  · cases marked
  · split at marked
    · rename_i unskipped isMarked
      rw [if_neg unskipped, if_pos isMarked]
      rfl
    · split at marked <;> cases marked

theorem kind_marked : (∃ due, walk.kind queue node = .marked due) ↔
    walk.skips queue node = false ∧ walk.isActive = true ∧ (queue.nodes node).cmdInUse.markedForActivation = true := by
  unfold CancelWalk.kind
  split
  · simp_all
  · split
    · simp_all
    · split <;> simp_all

theorem handled_self (mem : node ∈ (queue.pdevList (.of walk.isActive)).nodes) : walk.Handled queue queue node ↔
      walk.kind queue node = .skipped ∨ walk.kind queue node = .marked false := by
  unfold CancelWalk.Handled
  cases kind : walk.kind queue node with
  | skipped => simp
  | marked due =>
    have flag : due = !(queue.nodes node).cmdInUse.activeMarkedForCancel := by
      unfold CancelWalk.kind at kind
      split at kind
      · cases kind
      · split at kind
        · cases kind
          rfl
        · split at kind <;> cases kind
    rw [flag]
    simp
  | removed => simpa using mem
  | untimed => simpa using mem

theorem Handled.congr (kind : walk.kind other node = walk.kind queue node) :
    walk.Handled other after node ↔ walk.Handled queue after node := by
  unfold CancelWalk.Handled
  rw [kind]

namespace Walked

theorem refl (split : (queue.pdevList (.of walk.isActive)).nodes = front ++ rest) :
    walk.Walked queue queue front rest [] := by
  refine ⟨.refl _, fun node mem => ?_, fun node mem _ => mem, fun node _ => .inl rfl, ⟨rfl, fun node _ => rfl⟩, ?_⟩
  · rw [split]
    exact mem_append_left _ mem
  · rw [filter_eq_nil_iff.mpr, map_nil]
    intro node mem
    rw [split, decide_eq_true_iff, not_not]
    exact mem_append_right _ mem

theorem stay (walked : walk.Walked queue after (front ++ [node]) rest calls) :
    walk.Walked queue after front (node :: rest) calls := by
  have mem := walked.front node (mem_append_right _ (mem_cons_self ..))
  refine { walked with front := fun other inside => walked.front other (mem_append_left _ inside), called := ?_ }
  rw [walked.called, filter_cons_of_neg]
  rw [decide_eq_true_iff, not_not]
  exact mem

theorem flag (lawful : walk.Lawful good) (isGood : good queue)
    (mem : node ∈ (queue.pdevList (.of walk.isActive)).nodes) (marked : walk.kind queue node = .marked due)
    (walked : walk.Walked (queue.flag node) after front rest calls) : walk.Walked queue after front rest calls := by
  have kind : ∀ other, walk.kind queue other = .skipped ∨ (∃ due, walk.kind queue other = .marked due) →
      walk.kind (queue.flag node) other = .skipped ∨ ∃ due, walk.kind (queue.flag node) other = .marked due := by
    intro other stays
    by_cases same : other = node
    · subst same
      exact .inr ⟨_, lawful.kind_flag marked⟩
    · rw [lawful.kind_congr (flag_of_ne same)]
      exact stays
  refine ⟨walked.order, walked.front, fun other inside stays => walked.stays other inside (kind other stays),
    fun other inside => ?_, ⟨walked.elsewhere.1, fun other inside => ?_⟩, ?_⟩
  · by_cases same : other = node
    · subst same
      refine .inr ⟨⟨due, marked⟩, ?_⟩
      rcases walked.nodes other inside with unchanged | ⟨-, changed⟩
      · exact unchanged
      · rw [changed, flag_self, flag_self]
    · have old := walked.nodes other inside
      rw [lawful.kind_congr (flag_of_ne same)] at old
      rw [flag_self] at old ⊢
      rw [flag_of_ne same] at old
      exact old
  · have different : other ≠ node := fun same => by
      have home := (lawful.kept isGood).apart mem (same ▸ inside)
      have split := PdevList.of_injective home
      cases active : walk.isActive <;> rw [active] at split <;> cases split
    rw [walked.elsewhere.2 other inside, flag_of_ne different]
  · rw [walked.called]
    apply map_congr_left
    intro other inside
    by_cases same : other = node
    · rw [same, flag_self]
    · rw [flag_of_ne same]

theorem take (lawful : walk.Lawful good) (isGood : good queue)
    (split : (queue.pdevList (.of walk.isActive)).nodes = front ++ (passed ++ node :: rest))
    (marked : ∀ other ∈ passed, walk.kind queue other = .marked false)
    (kind : walk.kind queue node = .removed) (lists : ∀ isActive, (removed.pdevList (.of isActive)).nodes =
      (queue.pdevList (.of isActive)).nodes.erase node)
    (others : ∀ other, other ≠ node → removed.nodes other = queue.nodes other)
    (walked : walk.Walked removed after front (passed ++ rest) calls) :
    walk.Walked queue after (front ++ passed) (node :: rest) ((queue.nodes node).cmd :: calls) := by
  have nodup := (lawful.kept isGood).nodup (.of walk.isActive)
  have mem : node ∈ (queue.pdevList (.of walk.isActive)).nodes := by
    rw [split]
    simp
  have gone : node ∉ (after.pdevList (.of walk.isActive)).nodes := fun inside => by
    have old := walked.order.subset inside
    rw [lists] at old
    exact nodup.not_mem_erase old
  have differs : ∀ {other}, other ∈ (after.pdevList (.of walk.isActive)).nodes → other ≠ node :=
    fun inside same => gone (same ▸ inside)
  have stays : ∀ other ∈ (queue.pdevList (.of walk.isActive)).nodes,
      walk.kind queue other = .skipped ∨ (∃ due, walk.kind queue other = .marked due) →
      other ∈ (after.pdevList (.of walk.isActive)).nodes := by
    intro other inside stays
    have different : other ≠ node := fun same => by
      rw [same, kind] at stays
      rcases stays with stays | ⟨due, stays⟩ <;> cases stays
    apply walked.stays other
    · rw [lists]
      exact (mem_erase_of_ne different).mpr inside
    · rw [lawful.kind_congr (others other different)]
      exact stays
  have passedStay : ∀ other ∈ passed, other ∈ (after.pdevList (.of walk.isActive)).nodes := by
    intro other inside
    refine stays other ?_ (.inr ⟨false, marked other inside⟩)
    rw [split]
    exact mem_append_right _ (mem_append_left _ inside)
  refine ⟨?_, fun other inside => ?_, stays, fun other inside => ?_, ?_, ?_⟩
  · have order := walked.order
    rw [lists] at order
    exact order.trans (erase_sublist ..)
  · rcases mem_append.mp inside with inside | inside
    · exact walked.front other inside
    · exact passedStay other inside
  · have old := walked.nodes other inside
    rw [flag_self] at old ⊢
    rw [lawful.kind_congr (others other (differs inside)), others other (differs inside)] at old
    exact old
  · have apart : node ∉ (queue.pdevList (.of !walk.isActive)).nodes := fun inside => by
      have home := PdevList.of_injective ((lawful.kept isGood).apart mem inside)
      cases active : walk.isActive <;> rw [active] at home <;> cases home
    have elsewhere := walked.elsewhere
    rw [lists, erase_of_not_mem apart] at elsewhere
    refine ⟨elsewhere.1, fun other inside => ?_⟩
    rw [elsewhere.2 other inside, others other fun same => apart (same ▸ inside)]
  · rw [walked.called, filter_append, filter_eq_nil_iff.mpr, filter_cons_of_pos (by rw [decide_eq_true_iff]; exact gone)]
    · congr 1
      apply map_congr_left
      intro other inside
      have different : other ≠ node := fun same => by
        have old := mem_of_mem_filter inside
        rw [split, ← append_assoc] at nodup
        exact (nodup_middle.mp nodup |> nodup_cons.mp).1 (mem_append_right _ (same ▸ old))
      rw [others other different]
    · intro other inside
      rw [decide_eq_true_iff, not_not]
      exact passedStay other inside

end Walked

theorem handled_all (split : (queue.pdevList (.of walk.isActive)).nodes = front ++ rest) :
    (∀ node ∈ rest, walk.Handled queue queue node) ↔ covers 0 again (rest.map (walk.kind queue)) = true := by
  have all : covers 0 again (rest.map (walk.kind queue)) =
      (rest.map (walk.kind queue)).all fun kind => kind = .skipped || kind = .marked false := by
    cases rest <;> rfl
  rw [all, all_map, all_eq_true]
  refine forall₂_congr fun node mem => ?_
  rw [handled_self (by rw [split]; exact mem_append_right _ mem)]
  simp

theorem Handled.flag (marked : walk.kind queue node = .marked due)
    (walked : walk.Walked (queue.flag node) after front passed calls)
    (mem : node ∈ (after.pdevList (.of walk.isActive)).nodes) : walk.Handled queue after node := by
  unfold CancelWalk.Handled
  rw [marked]
  rcases walked.nodes node mem with same | ⟨-, same⟩
  · rw [same, flag_self]
  · rw [same, flag_self]

theorem Handled.marked (marked : walk.kind queue node = .marked false)
    (walked : walk.Walked queue after front passed calls)
    (mem : node ∈ (after.pdevList (.of walk.isActive)).nodes) : walk.Handled queue after node := by
  have flagged : (queue.nodes node).cmdInUse.activeMarkedForCancel = true := by
    unfold CancelWalk.kind at marked
    split at marked
    · cases marked
    · split at marked
      · simpa using marked
      · split at marked <;> cases marked
  unfold CancelWalk.Handled
  rw [marked]
  rcases walked.nodes node mem with same | ⟨-, same⟩
  · rw [same]
    exact flagged
  · rw [same, flag_self]

theorem run_walked (lawful : walk.Lawful good) (isGood : good queue)
    (split : (queue.pdevList (.of walk.isActive)).nodes = done ++ (passed ++ rest))
    (marked : ∀ other ∈ passed, walk.kind queue other = .marked false) :
    ∃ after ending more, walk.run qsize done.getLast? (done ++ passed).getLast? queue status calls =
        some (after, ending, calls ++ more) ∧ good after ∧
      walk.Walked queue after (done ++ passed) rest more ∧ ((∀ node ∈ rest, walk.Handled queue after node) ↔
        covers qsize passed.length (rest.map (walk.kind queue)) = true) := by
  induction qsize generalizing queue done passed rest status calls with
  | zero =>
    rw [← append_assoc] at split
    exact ⟨queue, status, [], by rw [append_nil, run], isGood, .refl split, handled_all split⟩
  | succ qsize ih =>
    have behind := split
    rw [← append_assoc] at behind
    rw [run]
    by_cases empty : (queue.pdevList (.of walk.isActive)).nodes = []
    · rw [if_pos empty]
      rw [empty] at behind
      obtain ⟨none, rfl⟩ := append_eq_nil_iff.mp behind.symm
      refine ⟨queue, status, [], by rw [append_nil], isGood, .refl ?_, by simp [covers]⟩
      rw [none, empty]
      rfl
    rw [if_neg empty, (lawful.kept isGood).getCmdFromQueue behind]
    cases rest with
    | nil =>
      exact ⟨queue, .notFound, [], by rw [append_nil]; rfl, isGood, .refl behind, by simp [covers]⟩
    | cons node rest =>
      have mem : node ∈ (queue.pdevList (.of walk.isActive)).nodes := by
        rw [behind]
        exact mem_append_right _ (mem_cons_self ..)
      dsimp only [List.head?_cons]
      by_cases skips : walk.skips queue node = true
      · have kind : walk.kind queue node = .skipped := if_pos skips
        rw [if_pos skips]
        obtain ⟨after, ending, more, ran, kept, walked, handled⟩ := @ih queue
          (done ++ passed ++ [node]) [] rest status calls isGood (by rw [behind]; simp) (by simp)
        rw [append_nil, getLast?_concat] at ran
        rw [append_nil] at walked
        refine ⟨after, ending, more, ran, kept, walked.stay, ?_⟩
        rw [forall_mem_cons, handled, map_cons, kind]
        exact and_iff_right (by unfold CancelWalk.Handled; rw [kind]; trivial)
      rw [if_neg skips, if_neg fun undefined => lawful.owned isGood mem undefined.2]
      by_cases isMarked : walk.isActive = true ∧ (queue.nodes node).cmdInUse.markedForActivation = true
      · obtain ⟨due, kind⟩ := kind_marked.mpr ⟨Bool.eq_false_iff.mpr skips, isMarked⟩
        have fresh : ∀ {other}, other ∈ rest → other ≠ node := fun inside same => by
          have nodup := (lawful.kept isGood).nodup (.of walk.isActive)
          rw [behind] at nodup
          have apart := (nodup_cons.mp (nodup_append.mp nodup).2.1).1
          exact apart (same ▸ inside)
        have kinds : rest.map (walk.kind (queue.flag node)) = rest.map (walk.kind queue) :=
          map_congr_left fun other inside => lawful.kind_congr (flag_of_ne (fresh inside))
        rw [if_pos isMarked]
        obtain ⟨after, ending, more, ran, kept, walked, handled⟩ := @ih (queue.flag node) done
          (passed ++ [node]) rest .markedForActivation calls (lawful.flag isGood mem)
          (by rw [show (queue.flag node).pdevList = queue.pdevList from rfl, behind]; simp)
          (fun other inside => by
            by_cases same : other = node
            · rw [same]
              exact lawful.kind_flag kind
            · rw [lawful.kind_congr (flag_of_ne same)]
              rcases mem_append.mp inside with old | new
              · exact marked other old
              · exact absurd (mem_singleton.mp new) same)
        have stays := walked.front node (by simp)
        rw [← append_assoc, getLast?_concat] at ran
        rw [← append_assoc] at walked
        refine ⟨after, ending, more, ran, kept, (walked.flag lawful isGood mem kind).stay, ?_⟩
        rw [forall_mem_cons, map_cons, kind, covers, ← kinds,
          ← length_singleton (a := node), ← length_append, ← handled]
        rw [and_iff_right (Handled.flag kind walked stays)]
        refine forall₂_congr fun other inside => ?_
        exact (Handled.congr (lawful.kind_congr (flag_of_ne (fresh inside)))).symm
      rw [if_neg isMarked]
      by_cases untimed : walk.isActive = true ∧ ¬walk.timer node = true
      · have kind : walk.kind queue node = .untimed := by
          unfold CancelWalk.kind
          rw [if_neg skips, if_neg isMarked, if_pos untimed]
        rw [if_pos untimed]
        refine ⟨queue, .notFound, [], by rw [append_nil], isGood, .refl behind, ?_⟩
        rw [map_cons, kind, covers]
        refine iff_of_false (fun handled => ?_) (by decide)
        have self := handled node (mem_cons_self ..)
        rw [handled_self mem, kind] at self
        rcases self with self | self <;> cases self
      · have kind : walk.kind queue node = .removed := by
          unfold CancelWalk.kind
          rw [if_neg skips, if_neg isMarked, if_neg untimed]
        rw [if_neg untimed]
        obtain ⟨removed, took, good, lists, others⟩ := lawful.take isGood mem
        have nodup := (lawful.kept isGood).nodup (.of walk.isActive)
        have apart : node ∉ done ++ passed := fun inside => by
          rw [behind] at nodup
          exact (nodup_append.mp nodup).2.2 node inside node (mem_cons_self ..) rfl
        have fresh : ∀ {other}, other ∈ rest → other ≠ node := fun inside same => by
          rw [behind] at nodup
          have apart := (nodup_cons.mp (nodup_append.mp nodup).2.1).1
          exact apart (same ▸ inside)
        have left : (removed.pdevList (.of walk.isActive)).nodes = done ++ ([] ++ (passed ++ rest)) := by
          rw [lists, behind, erase_append_right _ apart]
          simp
        rw [took]
        dsimp only
        rw [lawful.goes]
        obtain ⟨after, ending, more, ran, kept, walked, handled⟩ := @ih removed done [] (passed ++ rest)
          (if walk.isActive then .inActiveList else .inPendingList) (calls ++ [(queue.nodes node).cmd])
          good left (by simp)
        rw [append_nil] at ran walked
        refine ⟨after, ending, (queue.nodes node).cmd :: more, by rw [ran]; simp, kept,
          walked.take lawful isGood split marked kind lists others, ?_⟩
        have kinds : (passed ++ rest).map (walk.kind removed) =
            List.replicate passed.length (.marked false) ++ rest.map (walk.kind queue) := by
          rw [map_append]
          congr 1
          · rw [← map_const']
            apply map_congr_left
            intro other inside
            rw [lawful.kind_congr (others other fun same => apart (same ▸ mem_append_right _ inside))]
            exact marked other inside
          · exact map_congr_left fun other inside => lawful.kind_congr (others other (fresh inside))
        rw [map_cons, kind, covers, ← kinds, ← length_nil (α := Nat), ← handled, forall_mem_cons, forall_mem_append]
        have gone : walk.Handled queue after node := by
          unfold CancelWalk.Handled
          rw [kind]
          intro inside
          have old := walked.order.subset inside
          rw [lists] at old
          exact nodup.not_mem_erase old
        have passedHandled : ∀ other ∈ passed, walk.Handled removed after other := by
          intro other inside
          have again : walk.kind removed other = .marked false := by
            rw [lawful.kind_congr (others other fun same => apart (same ▸ mem_append_right _ inside))]
            exact marked other inside
          refine Handled.marked again walked (walked.stays other ?_ (.inr ⟨_, again⟩))
          rw [left]
          simp [inside]
        rw [and_iff_right gone, and_iff_right passedHandled]
        refine forall₂_congr fun other inside => ?_
        exact (Handled.congr (lawful.kind_congr (others other (fresh inside)))).symm

end CancelWalk

/-- Every command that matches is removed, or marked for cancel if it is to be activated yet. -/
def CancelWalk.Covered (walk : CancelWalk) (queue after : PdevQueue) : Prop :=
  ∀ node ∈ (queue.pdevList (.of walk.isActive)).nodes, walk.skips queue node = false →
    if walk.isActive ∧ (queue.nodes node).cmdInUse.markedForActivation then
      node ∈ (after.pdevList (.of walk.isActive)).nodes ∧ (after.nodes node).cmdInUse.activeMarkedForCancel = true
    else node ∉ (after.pdevList (.of walk.isActive)).nodes

/-- What does not match is as before, in its order, and the callbacks are those of what is removed. -/
structure CancelWalk.Leaves (walk : CancelWalk) (queue after : PdevQueue)
    (calls : List WlanSerializationCommand) : Prop where
  order : (after.pdevList (.of walk.isActive)).nodes.Sublist (queue.pdevList (.of walk.isActive)).nodes
  stays : ∀ node ∈ (queue.pdevList (.of walk.isActive)).nodes, walk.skips queue node = true →
    node ∈ (after.pdevList (.of walk.isActive)).nodes ∧ after.nodes node = queue.nodes node
  elsewhere : (after.pdevList (.of !walk.isActive)).nodes = (queue.pdevList (.of !walk.isActive)).nodes ∧
    ∀ node ∈ (queue.pdevList (.of !walk.isActive)).nodes, after.nodes node = queue.nodes node
  called : calls = ((queue.pdevList (.of walk.isActive)).nodes.filter
    (· ∉ (after.pdevList (.of walk.isActive)).nodes)).map fun node => (queue.nodes node).cmd

/-- Every active command to be removed has its timer, and the walk, of as many rounds as there are commands, gets to
the last one to be dealt with. -/
def CancelWalk.RoundsSuffice (walk : CancelWalk) (queue : PdevQueue) : Prop :=
  .untimed ∉ (queue.pdevList (.of walk.isActive)).nodes.map (walk.kind queue) ∧
    roundsNeeded 0 ((queue.pdevList (.of walk.isActive)).nodes.map (walk.kind queue)) ≤
      (queue.pdevList (.of walk.isActive)).nodes.length

namespace CancelWalk

theorem kind_skipped : walk.kind queue node = .skipped ↔ walk.skips queue node = true := by
  unfold CancelWalk.kind
  split
  · simp_all
  · split
    · simp_all
    · split <;> simp_all

theorem Walked.leaves (walked : walk.Walked queue after [] (queue.pdevList (.of walk.isActive)).nodes calls) :
    walk.Leaves queue after calls := by
  refine { walked with stays := fun node mem skips => ?_ }
  have skipped := kind_skipped.mpr skips
  have stays := walked.stays node mem (.inl skipped)
  refine ⟨stays, ?_⟩
  rcases walked.nodes node stays with same | ⟨⟨due, marked⟩, -⟩
  · exact same
  · rw [skipped] at marked
    cases marked

theorem Walked.covered (walked : walk.Walked queue after front rest calls) : walk.Covered queue after ↔
      ∀ node ∈ (queue.pdevList (.of walk.isActive)).nodes, walk.Handled queue after node := by
  refine forall₂_congr fun node mem => ?_
  by_cases skips : walk.skips queue node = true
  · unfold CancelWalk.Handled
    rw [kind_skipped.mpr skips, skips]
    exact iff_of_true nofun trivial
  have unskipped := Bool.eq_false_iff.mpr skips
  rw [unskipped]
  by_cases isMarked : walk.isActive = true ∧ (queue.nodes node).cmdInUse.markedForActivation = true
  · have stays := walked.stays node mem (.inr (kind_marked.mpr ⟨unskipped, isMarked⟩))
    obtain ⟨due, kind⟩ := kind_marked.mpr ⟨unskipped, isMarked⟩
    unfold CancelWalk.Handled
    rw [kind, if_pos isMarked]
    exact ⟨fun flagged => (flagged rfl).2, fun flagged _ => ⟨stays, flagged⟩⟩
  rw [if_neg isMarked]
  unfold CancelWalk.Handled CancelWalk.kind
  rw [if_neg skips, if_neg isMarked]
  by_cases untimed : walk.isActive = true ∧ ¬walk.timer node = true
  · rw [if_pos untimed]
    exact ⟨fun gone => gone rfl, fun gone _ => gone⟩
  · rw [if_neg untimed]
    exact ⟨fun gone => gone rfl, fun gone _ => gone⟩

theorem roundsSuffice_pending (pending : walk.isActive = false) : walk.RoundsSuffice queue := by
  have kinds : ∀ node, walk.kind queue node = .skipped ∨ walk.kind queue node = .removed := by
    intro node
    unfold CancelWalk.kind
    rw [pending]
    split
    · exact .inl rfl
    · exact .inr rfl
  constructor
  · intro mem
    obtain ⟨node, -, kind⟩ := mem_map.mp mem
    rcases kinds node with other | other <;> rw [other] at kind <;> cases kind
  · rw [← length_map (walk.kind queue)]
    apply roundsNeeded_le_length
    intro due mem
    obtain ⟨node, -, kind⟩ := mem_map.mp mem
    rcases kinds node with other | other <;> rw [other] at kind <;> cases kind

theorem run_covered (lawful : walk.Lawful good) (isGood : good queue) :
    ∃ after ending calls, walk.run (queue.pdevList (.of walk.isActive)).count none none queue .notFound [] =
        some (after, ending, calls) ∧ good after ∧ walk.Leaves queue after calls ∧
      (walk.Covered queue after ↔ walk.RoundsSuffice queue) := by
  obtain ⟨after, ending, calls, ran, kept, walked, handled⟩ :=
    @run_walked walk good queue (queue.pdevList (.of walk.isActive)).count [] []
      (queue.pdevList (.of walk.isActive)).nodes .notFound [] lawful isGood rfl (by simp)
  refine ⟨after, ending, calls, ran, kept, walked.leaves, ?_⟩
  rw [walked.covered, handled, covers_iff, (lawful.kept isGood).count]
  rfl

end CancelWalk

structure ScanKept (queue : PdevQueue) : Prop extends queue.PdevKept where
  owned : ∀ isActive, ∀ node ∈ (queue.pdevList (.of isActive)).nodes, (queue.nodes node).cmd.vdev ≠ none

variable {pdev : SerPdev} {scan : PdevQueue} {request : CancelRequest} {isActive : Bool}
  {timer : Nat → Bool}

theorem WellKept.scanKept (kept : queue.WellKept pdev) : queue.ScanKept := by
  refine ⟨kept.pdevKept, fun isActive node mem => ?_⟩
  obtain ⟨vdev, -, owner⟩ := kept.linked.owned isActive node mem
  rw [owner]
  nofun

theorem releaseCmd_of_ne (apart : other ≠ node) : (queue.releaseCmd node).nodes other = queue.nodes other := by
  unfold releaseCmd insertBack setInUse setCmd setList
  dsimp only
  rw [update_of_ne apart, update_of_ne apart]

theorem releaseCmd_self : ((queue.releaseCmd node).nodes node).cmdInUse = .zero := by
  unfold releaseCmd insertBack setInUse setList
  dsimp only
  rw [update_self]

theorem cancelSkips_congr (same : (after.nodes node).cmd = (queue.nodes node).cmd) :
    after.cancelSkips request node = queue.cancelSkips request node := by
  unfold PdevQueue.cancelSkips matchCmd
  rw [same]

theorem flag_cmd : ((queue.flag node).nodes other).cmd = (queue.nodes other).cmd := by
  by_cases same : other = node
  · rw [same, flag_self]
  · rw [flag_of_ne same]

theorem ScanKept.take (kept : queue.ScanKept) (mem : node ∈ (queue.pdevList (.of isActive)).nodes) :
    ((queue.removeNode (.pdev (.of isActive)) node).releaseCmd node).ScanKept := by
  have lists := @Linked.pdevList_releaseCmd (queue.removeNode (.pdev (.of isActive)) node) node
  have counts : ∀ list, (((queue.removeNode (.pdev (.of isActive)) node)).pdevList list).count =
      ((queue.removeNode (.pdev (.of isActive)) node).pdevList list).nodes.length := by
    intro list
    apply Linked.length_unlink (kept.count list)
    rw [decide_eq_true_iff]
    exact ⟨fun same => by rw [same]; exact mem, fun inside => kept.apart inside mem⟩
  have placed : Placed (fun other => ∃ list, other ∈ (queue.pdevList list).nodes)
      (fun list => (queue.pdevList list).nodes) none :=
    ⟨kept.nodup, kept.apart, fun other => by simp, nofun⟩
  have back := (placed.take mem).put (perm_append_singleton node ((queue.pdevList .cmdPool).nodes.erase node))
  have nodes : (fun list => (((queue.removeNode (.pdev (.of isActive)) node).releaseCmd node).pdevList
      list).nodes) = update (fun list => (queue.pdevList list).nodes.erase node) .cmdPool
        ((queue.pdevList .cmdPool).nodes.erase node ++ [node]) := by
    funext list
    rw [lists]
    by_cases pool : list = .cmdPool
    · rw [pool]
      rfl
    · rw [update_of_ne pool, update_of_ne pool]
      rfl
  rw [← nodes] at back
  refine ⟨⟨back.nodup, back.apart, fun list => ?_⟩, fun other outside inside => ?_⟩
  · rw [lists]
    by_cases pool : list = .cmdPool
    · rw [pool, update_self, length_append, counts]
      rfl
    · rw [update_of_ne pool]
      exact counts list
  · rw [lists, update_of_ne PdevList.of_ne_pool] at inside
    have different : outside ≠ node := fun same => (kept.nodup _).not_mem_erase (same ▸ inside)
    rw [releaseCmd_of_ne different]
    exact kept.owned other outside (mem_of_mem_erase inside)

theorem cancelled_same : (queue.cancelled isActive vdev isBlocking).nodes = queue.nodes ∧
      (queue.cancelled isActive vdev isBlocking).pdevList = queue.pdevList ∧
      (queue.cancelled isActive vdev isBlocking).vdevList = queue.vdevList := by
  unfold PdevQueue.cancelled
  split
  · exact ⟨rfl, rfl, rfl⟩
  · split
    · exact ⟨rfl, rfl, rfl⟩
    · exact ⟨rfl, rfl, rfl⟩

theorem cancelNonScanWalk_lawful (filtered : request.vdev ≠ none ∨ request.pdev = true) :
    (cancelNonScanWalk request isActive timer).Lawful (WellKept pdev) where
  kept := WellKept.pdevKept
  owned kept member := kept.scanKept.owned isActive _ member
  skips same := cancelSkips_congr same
  flag {queue node} kept member := by
    refine ⟨kept.linked.same (fun other list _ => by rw [flag_cmd]) rfl rfl, fun other inside => ?_⟩
    have different : other ≠ node := fun same =>
      PdevList.of_ne_pool (kept.linked.placed.apart member (same ▸ inside))
    rw [flag_of_ne different]
    exact kept.clean other inside
  take {queue node} kept member := by
    change node ∈ (queue.pdevList (.of isActive)).nodes at member
    obtain ⟨vdev, -, owner⟩ := kept.linked.owned isActive node member
    have linked := (kept.linked.unlinkCmd member owner).releaseCmd
    have mem := kept.linked.member_vdevList.mpr ⟨member, owner⟩
    have some : ¬((queue.removeNode (.pdev (.of isActive)) node).vdevList isActive vdev).nodes = [] :=
      fun empty => by
        change (queue.vdevList isActive vdev).nodes = [] at empty
        rw [empty] at mem
        cases mem
    change ∃ after, takeNonScanCmd isActive queue node = _ ∧ _
    unfold takeNonScanCmd
    rw [owner]
    dsimp only
    rw [if_neg some]
    obtain ⟨nodes, pdevList, vdevList⟩ := @cancelled_same ((queue.unlinkCmd isActive vdev node).releaseCmd node)
      isActive vdev (queue.nodes node).cmd.isBlocking
    have others : ∀ other, other ≠ node → ((queue.unlinkCmd isActive vdev node).releaseCmd node).nodes other =
        queue.nodes other := fun other different => releaseCmd_of_ne different
    refine ⟨_, rfl, ⟨linked.same (fun other _ _ => congrArg (fun nodes => (nodes other).cmd.vdev) nodes) pdevList
      vdevList, fun other inside => ?_⟩, fun other => ?_, fun other different => ?_⟩
    · change other ∈ (((((queue.unlinkCmd isActive vdev node).releaseCmd node).cancelled isActive vdev
        (queue.nodes node).cmd.isBlocking)).pdevList .cmdPool).nodes at inside
      change ((((queue.unlinkCmd isActive vdev node).releaseCmd node).cancelled isActive vdev
        (queue.nodes node).cmd.isBlocking).nodes other).cmdInUse = .zero
      rw [pdevList] at inside
      rw [nodes]
      by_cases same : other = node
      · rw [same, releaseCmd_self]
      · rw [others other same]
        rcases mem_append.mp inside with old | new
        · exact kept.clean other (mem_of_mem_erase old)
        · exact absurd (mem_singleton.mp new) same
    · change ((((queue.unlinkCmd isActive vdev node).releaseCmd node).cancelled isActive vdev
        (queue.nodes node).cmd.isBlocking).pdevList (.of other)).nodes = _
      rw [pdevList, Linked.pdevList_releaseCmd, update_of_ne PdevList.of_ne_pool]
      rfl
    · exact (congrFun nodes other).trans (others other different)
  goes := by
    change decide (request.vdev = none ∧ ¬request.pdev = true) = false
    rw [decide_eq_false_iff_not]
    rintro ⟨none, nowhere⟩
    rcases filtered with some | set
    · exact some none
    · exact nowhere set

theorem cancelScanWalk_lawful : (cancelScanWalk request isActive timer).Lawful ScanKept where
  kept := ScanKept.toPdevKept
  owned kept member := kept.owned isActive _ member
  skips {queue after node} same := by
    change cancelScanSkips request after node = cancelScanSkips request queue node
    unfold cancelScanSkips
    rw [same]
  flag {queue node} kept member :=
    ⟨{ kept with }, fun isActive other inside => by
      rw [flag_cmd]
      exact kept.owned isActive other inside⟩
  take {queue node} kept member := by
    refine ⟨_, rfl, kept.take member, fun other => ?_, fun other different => releaseCmd_of_ne different⟩
    rw [Linked.pdevList_releaseCmd, update_of_ne PdevList.of_ne_pool]
    rfl
  goes := rfl

def CancelWalk.resume (walk : CancelWalk) : CancelOutcome → Option PdevQueue
  | .done queue => some queue
  | .callback queue pnode qsize vdev isBlocking =>
    if walk.stops then some (queue.cancelled walk.isActive vdev isBlocking)
    else (walk.run qsize pnode pnode (queue.cancelled walk.isActive vdev isBlocking) .notFound []).map
        fun ended => ended.1

theorem run_status {more : List WlanSerializationCommand} :
    (walk.run qsize pnode nnode queue status calls).map (fun ended => ended.1) =
      (walk.run qsize pnode nnode queue other more).map fun ended => ended.1 := by
  induction qsize generalizing queue pnode nnode status other calls more with
  | zero => rfl
  | succ qsize ih =>
    rw [CancelWalk.run, CancelWalk.run]
    repeat' split
    all_goals first | rfl | exact ih

theorem run_eq_cancelLoop :
    ((cancelNonScanWalk request isActive fun _ => timerFound).run qsize pnode nnode queue status calls).map
        (fun ended => ended.1) = (cancelLoop request isActive timerFound qsize pnode nnode queue).bind
        (cancelNonScanWalk request isActive fun _ => timerFound).resume := by
  induction qsize generalizing queue pnode nnode status calls with
  | zero => rfl
  | succ qsize ih =>
    rw [CancelWalk.run, cancelLoop]
    simp only [cancelNonScanWalk_isActive, cancelNonScanWalk_pdev, cancelNonScanWalk_skips,
      cancelNonScanWalk_timer, cancelNonScanWalk_take]
    by_cases empty : (queue.pdevList (.of isActive)).nodes = []
    · rw [if_pos empty, if_pos empty]
      rfl
    rw [if_neg empty, if_neg empty]
    cases queue.getCmdFromQueue (.of isActive) nnode with
    | none => rfl
    | some next =>
      cases next with
      | none => rfl
      | some node =>
        dsimp only
        by_cases skips : queue.cancelSkips request node = true
        · rw [if_pos skips, if_pos skips, ih]
        rw [if_neg skips, if_neg skips]
        by_cases undefined : request.pdev = true ∧ (queue.nodes node).cmd.vdev = none
        · rw [if_pos undefined, if_pos undefined]
          rfl
        rw [if_neg undefined, if_neg undefined]
        by_cases isMarked : isActive = true ∧ (queue.nodes node).cmdInUse.markedForActivation = true
        · rw [if_pos isMarked, if_pos isMarked, ih]
        rw [if_neg isMarked, if_neg isMarked]
        by_cases untimed : isActive = true ∧ ¬timerFound = true
        · rw [if_pos untimed, if_pos untimed]
          rfl
        rw [if_neg untimed, if_neg untimed]
        unfold takeNonScanCmd
        cases (queue.nodes node).cmd.vdev with
        | none => rfl
        | some vdev =>
          dsimp only
          by_cases gone : ((queue.removeNode (.pdev (.of isActive)) node).vdevList isActive vdev).nodes = []
          · rw [if_pos gone, if_pos gone]
            rfl
          rw [if_neg gone]
          dsimp only [Option.bind_some, CancelWalk.resume]
          split
          · rfl
          · exact run_status

end PdevQueue

/-- What does not match stays as it is; all that matches is dealt with exactly if the rounds suffice, which they
always do for pending commands.  The walk is the one of the sections with nothing in between. -/
theorem cancel_covers_iff {pdev : SerPdev} {queue scan : PdevQueue} {request : CancelRequest}
    (kept : queue.WellKept pdev) (scanKept : scan.ScanKept)
    (filtered : request.vdev ≠ none ∨ request.pdev = true) (isActive : Bool) (timer : Nat → Bool) :
    (∃ after status calls, queue.cancelNonScanCmd request isActive timer = some (after, status, calls) ∧
      after.WellKept pdev ∧ (PdevQueue.cancelNonScanWalk request isActive timer).Leaves queue after calls ∧
      ((PdevQueue.cancelNonScanWalk request isActive timer).Covered queue after ↔
        (PdevQueue.cancelNonScanWalk request isActive timer).RoundsSuffice queue) ∧
      (isActive = false → (PdevQueue.cancelNonScanWalk request isActive timer).Covered queue after)) ∧
    (∀ timerFound, (queue.cancelNonScanCmd request isActive fun _ => timerFound).map (fun ended => ended.1) =
      (queue.cancelLoop request isActive timerFound (queue.pdevList (.of isActive)).count none none).bind
        (PdevQueue.cancelNonScanWalk request isActive fun _ => timerFound).resume) ∧
    ∃ after status calls, scan.cancelScanCmd request isActive timer = some (after, status, calls) ∧
      after.ScanKept ∧ (PdevQueue.cancelScanWalk request isActive timer).Leaves scan after calls ∧
      ((PdevQueue.cancelScanWalk request isActive timer).Covered scan after ↔
        (PdevQueue.cancelScanWalk request isActive timer).RoundsSuffice scan) ∧
      (isActive = false → (PdevQueue.cancelScanWalk request isActive timer).Covered scan after) := by
  refine ⟨?_, fun timerFound => PdevQueue.run_eq_cancelLoop, ?_⟩
  · obtain ⟨after, status, calls, ran, afterKept, leaves, covered⟩ := PdevQueue.CancelWalk.run_covered
      (@PdevQueue.cancelNonScanWalk_lawful pdev request isActive timer filtered) kept
    exact ⟨after, status, calls, ran, afterKept, leaves, covered, fun pending =>
      covered.mpr (PdevQueue.CancelWalk.roundsSuffice_pending pending)⟩
  · obtain ⟨after, status, calls, ran, afterKept, leaves, covered⟩ := PdevQueue.CancelWalk.run_covered
      (@PdevQueue.cancelScanWalk_lawful request isActive timer) scanKept
    exact ⟨after, status, calls, ran, afterKept, leaves, covered, fun pending =>
      covered.mpr (PdevQueue.CancelWalk.roundsSuffice_pending pending)⟩

def wholePdev : CancelRequest :=
  ⟨none, true, none, PdevQueue.wlanSerCmdNonscan, false⟩

theorem cancel_covers_three :
    ∃ system after, Reachable (serStep threeVdevs) (Sections Frame.KeepsLists) (.init threeVdevs 1) system ∧
      (system.queue.pdevList .active).nodes.length = 3 ∧
      (system.queue.cancelNonScanCmd wholePdev true fun _ => true).map (fun ended => ended.1) = some after ∧
      (PdevQueue.cancelNonScanWalk wholePdev true fun _ => true).Covered system.queue after := by
  have ran : (runActions (serStep threeVdevs) (Sections Frame.KeepsLists) (.init threeVdevs 1)
      twoOfEach).map (fun system => decide ((system.queue.pdevList .active).nodes.length = 3 ∧
        .untimed ∉ (system.queue.pdevList .active).nodes.map
          ((PdevQueue.cancelNonScanWalk wholePdev true fun _ => true).kind system.queue) ∧
        roundsNeeded 0 ((system.queue.pdevList .active).nodes.map
          ((PdevQueue.cancelNonScanWalk wholePdev true fun _ => true).kind system.queue)) ≤
          (system.queue.pdevList .active).nodes.length)) = some true := by decide +kernel
  obtain ⟨system, taken, facts⟩ := Option.map_eq_some_iff.mp ran
  obtain ⟨length, suffice⟩ := of_decide_eq_true facts
  have reached := Reachable.start.run taken
  have kept := (reached_sound reached).represents.wellKept
  obtain ⟨⟨after, status, calls, walked, -, -, covered, -⟩, -⟩ :=
    cancel_covers_iff kept kept.scanKept (.inr rfl : wholePdev.vdev ≠ none ∨ wholePdev.pdev = true) true
      fun _ => true
  refine ⟨system, after, reached, length, by rw [walked]; rfl, covered.mpr suffice⟩

/-- The command of vdev 0 is to be activated yet when all three are cancelled: it is read twice, and vdev 2 has no
round left. -/
theorem cancel_misses : ∃ system, Reachable (serStep threeVdevs) (fun _ _ => True) (.init threeVdevs 3) system ∧
      (system.queue.pdevList .active).nodes = [0, 1, 2] ∧
      (system.queue.cancelNonScanCmd wholePdev true fun _ => true).map
        (fun ended => (ended.1.pdevList .active).nodes) = some [0, 2] ∧
      ∀ after, (system.queue.cancelNonScanCmd wholePdev true fun _ => true).map (fun ended => ended.1) =
        some after → ¬(PdevQueue.cancelNonScanWalk wholePdev true fun _ => true).Covered system.queue after := by
  refine reaches ((SerOp.request (vdevCmd 0 1 false false) 0).runBy 0 1 ++
    (SerOp.request (vdevCmd 1 2 false false) 1).runBy 1 3 ++ (SerOp.request (vdevCmd 2 3 false false) 2).runBy 2 3)
    (fun system => (system.queue.pdevList .active).nodes = [0, 1, 2] ∧
      (system.queue.cancelNonScanCmd wholePdev true fun _ => true).map
        (fun ended => (ended.1.pdevList .active).nodes) = some [0, 2] ∧
      (PdevQueue.cancelNonScanWalk wholePdev true fun _ => true).skips system.queue 2 = false ∧
      (system.queue.nodes 2).cmdInUse.markedForActivation = false) (by decide +kernel)
    fun system _ ⟨nodes, left, matching, unmarked⟩ => ⟨nodes, left, fun after walked covered => ?_⟩
  obtain ⟨ended, run, same⟩ := Option.map_eq_some_iff.mp walked
  rw [run, Option.map_some, Option.some.injEq, same] at left
  have member : 2 ∈ (system.queue.pdevList .active).nodes := by
    rw [nodes]
    decide
  have gone := covered 2 member matching
  rw [if_neg (by rw [unmarked]; decide)] at gone
  apply gone
  change 2 ∈ (after.pdevList .active).nodes
  rw [left]
  decide

end KernelModules.Serialization

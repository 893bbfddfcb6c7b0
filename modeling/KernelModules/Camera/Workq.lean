import Mathlib.Data.List.Nodup
import KernelModules.Data.Run

namespace KernelModules.Camera

open List hiding after count head
open Data Function

/-! # The camera work queue

A section under `lock_bh` is one step, and so is a look at the flag `flush`.
-/

inductive CrmTaskPriority where
  | priority0
  | priority1
deriving DecidableEq

/-- The priority that `cam_req_mgr_workq_enqueue_task` gives to a task -/
def crmTaskPriority (prio : Int) : CrmTaskPriority := if prio = 1 then .priority1 else .priority0

structure Enqueued where
  task : Nat
  ticket : Nat
  /-- `process_cb` is set. -/
  processCb : Bool
deriving DecidableEq

inductive ClientStage where
  | got
  /-- Neither `cancel` nor `flush` was set. -/
  | checked (priority : CrmTaskPriority) (processCb : Bool)
  | aborting
deriving DecidableEq

/-- Where `cam_req_mgr_process_workq` is in the loop over the process lists -/
inductive WorkqWorker where
  | idle
  | looking (priority : CrmTaskPriority)
  | taken (priority : CrmTaskPriority) (enqueued : Enqueued)
  | running (priority : CrmTaskPriority) (enqueued : Enqueued)
deriving DecidableEq

/-- A call of `cam_req_mgr_workq_flush`, with the enqueues before it and the runs of the work item when it began to
wait -/
structure FlushCall where
  began : Nat
  waiting : Option Nat
deriving DecidableEq

structure TaskRun where
  priority : CrmTaskPriority
  ticket : Nat

structure FlushDone where
  began : Nat
  ranBefore : Nat
deriving DecidableEq

/-- `struct cam_req_mgr_core_workq` with its worker, its clients, and what has happened so far -/
structure CrmWorkq where
  numTask : Nat
  emptyHead : List Nat
  processHead : CrmTaskPriority → List Enqueued
  freeCnt : Int
  pendingCnt : Int
  flush : Bool
  job : Bool
  thread : Bool
  work : Bool
  worker : WorkqWorker
  clients : Nat → Option ClientStage
  flushing : List FlushCall
  enqueues : Nat
  executions : Nat
  ran : List TaskRun
  /-- What the worker has put back on the empty list -/
  putBack : List Nat
  flushed : List FlushDone

inductive WorkqAction where
  | getTask
  /-- The first look of `cam_req_mgr_workq_enqueue_task` -/
  | checkTask (task : Nat) (cancel : Bool) (prio : Int) (processCb : Bool)
  /-- `queue_work` may refuse the work item while a cancellation of it waits. -/
  | addTask (task : Nat) (accepted : Bool)
  | putTask (task : Nat)
  | startWorker
  | lookAtList
  | lookAtFlush
  | finishTask
  | flushBegin
  | cancelWork (call : FlushCall)
  | flushReturn (call : FlushCall)

namespace CrmWorkq

def init (numTask : Nat) (thread : Bool) : CrmWorkq where
  numTask := numTask
  emptyHead := List.range numTask
  processHead := fun _ => []
  freeCnt := numTask
  pendingCnt := 0
  flush := false
  job := true
  thread := thread
  work := false
  worker := .idle
  clients := fun _ => none
  flushing := []
  enqueues := 0
  executions := 0
  ran := []
  putBack := []
  flushed := []

def client (workq : CrmWorkq) (task : Nat) (stage : Option ClientStage) : CrmWorkq :=
  { workq with clients := Function.update workq.clients task stage }

/-- `cam_req_mgr_workq_put_task` -/
def putEmpty (workq : CrmWorkq) (task : Nat) : CrmWorkq :=
  { workq with emptyHead := workq.emptyHead ++ [task], freeCnt := workq.freeCnt + 1 }

def enqueue (workq : CrmWorkq) (task : Nat) (priority : CrmTaskPriority) (processCb accepted : Bool) : CrmWorkq :=
  { workq with
    processHead := Function.update workq.processHead priority
      (workq.processHead priority ++ [⟨task, workq.enqueues, processCb⟩])
    pendingCnt := workq.pendingCnt + 1
    work := workq.work || !workq.thread && (accepted || workq.flushing.all fun call => call.waiting.isNone)
    enqueues := workq.enqueues + 1 }

def look (workq : CrmWorkq) (priority : CrmTaskPriority) : CrmWorkq :=
  match workq.processHead priority with
  | [] => { workq with worker := if priority = .priority0 then .looking .priority1 else .idle }
  | enqueued :: rest =>
    { workq with
      processHead := Function.update workq.processHead priority rest
      pendingCnt := workq.pendingCnt - 1
      worker := .taken priority enqueued }

def process (workq : CrmWorkq) (priority : CrmTaskPriority) (enqueued : Enqueued) : CrmWorkq :=
  if workq.flush then { workq with worker := .looking priority }
  else { workq with
      worker := .running priority enqueued
      ran := if enqueued.processCb then workq.ran ++ [⟨priority, enqueued.ticket⟩] else workq.ran }

/-- What `cancel_work_sync` waits for: the run of the work item that was under way, and not the thread. -/
def waited (workq : CrmWorkq) (executions : Nat) : Bool :=
  workq.thread || workq.worker = .idle || workq.executions ≠ executions

def step (workq : CrmWorkq) : WorkqAction → Option CrmWorkq
  | .getTask =>
    match workq.emptyHead with
    | [] => some workq
    | task :: rest =>
      some ({ workq with emptyHead := rest, freeCnt := workq.freeCnt - 1 }.client task (some .got))
  | .checkTask task cancel prio processCb =>
    if workq.clients task = some .got then some (workq.client task (some
        (if cancel || workq.flush then .aborting else .checked (crmTaskPriority prio) processCb)))
    else none
  | .addTask task accepted =>
    match workq.clients task with
    | some (.checked priority processCb) =>
      if workq.job then some ((workq.enqueue task priority processCb accepted).client task none)
      else some (workq.client task (some .aborting))
    | _ => none
  | .putTask task =>
    if workq.clients task = some .aborting then some ((workq.putEmpty task).client task none) else none
  | .startWorker =>
    if workq.worker = .idle ∧ (workq.thread ∨ workq.work) then
      some { workq with worker := .looking .priority0, work := false, executions := workq.executions + 1 }
    else none
  | .lookAtList =>
    match workq.worker with
    | .looking priority => some (workq.look priority)
    | _ => none
  | .lookAtFlush =>
    match workq.worker with
    | .taken priority enqueued => some (workq.process priority enqueued)
    | _ => none
  | .finishTask =>
    match workq.worker with
    | .running priority enqueued =>
      some { workq.putEmpty enqueued.task with
        worker := .looking priority, putBack := enqueued.ticket :: workq.putBack }
    | _ => none
  | .flushBegin => some { workq with flush := true, flushing := ⟨workq.enqueues, none⟩ :: workq.flushing }
  | .cancelWork call =>
    if call ∈ workq.flushing ∧ call.waiting = none then some { workq with
        work := false, flushing := { call with waiting := some workq.executions } :: workq.flushing.erase call }
    else none
  | .flushReturn call =>
    if call ∈ workq.flushing ∧ call.waiting.any workq.waited then some { workq with
        flush := false
        flushing := workq.flushing.erase call
        flushed := ⟨call.began, workq.ran.length⟩ :: workq.flushed }
    else none

end CrmWorkq

def WorkqWorker.hand : WorkqWorker → List Enqueued
  | .idle | .looking _ => []
  | .taken _ enqueued | .running _ enqueued => [enqueued]

def WorkqWorker.next : WorkqWorker → CrmTaskPriority → List Nat
  | .taken priority enqueued, other => if priority = other then [enqueued.ticket] else []
  | .idle, _ | .looking _, _ | .running _ _, _ => []

def WorkqWorker.called : WorkqWorker → List Nat
  | .running _ enqueued => [enqueued.ticket]
  | .idle | .looking _ | .taken _ _ => []

namespace CrmWorkq

def pending (workq : CrmWorkq) : List Enqueued :=
  workq.worker.hand ++ (workq.processHead .priority0 ++ workq.processHead .priority1)

/-- How often a task is on the empty list, on a process list, in the worker's hands or in a client's -/
def places (workq : CrmWorkq) (task : Nat) : Nat :=
  workq.emptyHead.count task + (workq.pending.map Enqueued.task).count task +
    if (workq.clients task).isSome then 1 else 0

def order (workq : CrmWorkq) (priority : CrmTaskPriority) : List Nat :=
  (workq.ran.filter (·.priority = priority)).map TaskRun.ticket ++
    (workq.worker.next priority ++ (workq.processHead priority).map Enqueued.ticket)

/-- No task enqueued before is on a list, and one in hand belongs to the run that is waited for. -/
structure Flushes (workq : CrmWorkq) (call : FlushCall) : Prop where
  past : call.began ≤ workq.enqueues
  listed : ∀ priority, ∀ enqueued ∈ workq.processHead priority, call.began ≤ enqueued.ticket
  held : ∀ enqueued ∈ workq.worker.hand, enqueued.ticket < call.began →
    ∀ executions ∈ call.waiting, executions = workq.executions

structure Done (workq : CrmWorkq) (done : FlushDone) : Prop where
  past : done.began ≤ workq.enqueues ∧ done.ranBefore ≤ workq.ran.length
  pending : ∀ enqueued ∈ workq.pending, done.began ≤ enqueued.ticket
  later : ∀ run ∈ workq.ran.drop done.ranBefore, done.began ≤ run.ticket

structure Kept (workq : CrmWorkq) : Prop where
  place : ∀ task, workq.places task = if task < workq.numTask then 1 else 0
  freeCnt : workq.freeCnt = workq.emptyHead.length
  pendingCnt : workq.pendingCnt = (workq.processHead .priority0 ++ workq.processHead .priority1).length
  order : ∀ priority, (workq.order priority).Pairwise (· < ·)
  tickets : ∀ ticket, (workq.putBack ++ workq.pending.map Enqueued.ticket).count ticket =
    if ticket < workq.enqueues then 1 else 0
  once : ∀ ticket, (workq.ran.map TaskRun.ticket).count ticket ≤ (workq.putBack ++ workq.worker.called).count ticket
  flushes : ∀ call ∈ workq.flushing, workq.Flushes call
  flushed : ∀ done ∈ workq.flushed, workq.Done done

/-- The worker does not look at the flag while it is set.  A flush begins with empty process lists, and when it
returns, no thread has a task from before. -/
def Fine (workq : CrmWorkq) : WorkqAction → Prop
  | .lookAtFlush => workq.flush = false
  | .flushBegin => workq.processHead .priority0 = [] ∧ workq.processHead .priority1 = []
  | .flushReturn call => workq.thread = true → ∀ enqueued ∈ workq.worker.hand, call.began ≤ enqueued.ticket
  | _ => True

variable {workq : CrmWorkq} {task : Nat} {priority : CrmTaskPriority} {enqueued : Enqueued}

namespace Kept

theorem init (numTask : Nat) (thread : Bool) : (CrmWorkq.init numTask thread).Kept where
  place task := by
    change (range numTask).count task = if task < numTask then 1 else 0
    simp [nodup_range.count]
  freeCnt := by simp [CrmWorkq.init]
  pendingCnt := rfl
  order _ := List.Pairwise.nil
  tickets _ := rfl
  once _ := Nat.le_refl _
  flushes _ listed := absurd listed not_mem_nil
  flushed _ listed := absurd listed not_mem_nil

section

variable (kept : workq.Kept)
include kept

theorem handed (emptyHead : List Nat) (freeCnt : Int) (clients : Nat → Option ClientStage)
    (place : ∀ other, emptyHead.count other + (if (clients other).isSome then 1 else 0) =
      workq.emptyHead.count other + if (workq.clients other).isSome then 1 else 0)
    (count : freeCnt = emptyHead.length) :
    Kept { workq with emptyHead := emptyHead, freeCnt := freeCnt, clients := clients } := by
  refine ⟨fun other => Eq.trans ?_ (kept.place other), count, kept.pendingCnt, kept.order, kept.tickets, kept.once,
    fun call mem => ?_, fun done mem => ?_⟩
  · have same := place other
    simp only [places, pending] at *
    omega
  · obtain ⟨past, lists, held⟩ := kept.flushes call mem
    exact ⟨past, lists, held⟩
  · obtain ⟨past, pending, later⟩ := kept.flushed done mem
    exact ⟨past, pending, later⟩

theorem client (same : (workq.clients task).isSome = stage.isSome) : (workq.client task stage).Kept := by
  refine kept.handed _ _ (update workq.clients task stage) (fun other => ?_) kept.freeCnt
  by_cases here : other = task
  · rw [here, update_self, same]
  · rw [update_of_ne here]

theorem getTask (free : workq.emptyHead = task :: rest) :
    ({ workq with emptyHead := rest, freeCnt := workq.freeCnt - 1 }.client task (some .got)).Kept := by
  have place := kept.place task
  have count := kept.freeCnt
  rw [free, length_cons] at count
  have none : (workq.clients task).isSome = false := by
    rw [Bool.eq_false_iff]
    intro some
    simp only [places, free, count_cons_self, some, if_true] at place
    split at place <;> omega
  refine kept.handed rest (workq.freeCnt - 1) (update workq.clients task (some .got)) (fun other => ?_) (by omega)
  rw [free]
  by_cases here : other = task
  · rw [here, update_self, none, count_cons_self]
    rfl
  · rw [update_of_ne here, count_cons_of_ne (Ne.symm here)]

theorem putTask (aborting : workq.clients task = some .aborting) : ((workq.putEmpty task).client task none).Kept := by
  have count := kept.freeCnt
  refine kept.handed (workq.emptyHead ++ [task]) (workq.freeCnt + 1) (update workq.clients task none)
    (fun other => ?_) (by rw [length_append, count]; rfl)
  rw [count_append]
  by_cases here : other = task
  · rw [here, update_self, aborting, count_singleton_self]
    rfl
  · rw [update_of_ne here, count_singleton, if_neg (by simpa using Ne.symm here)]
    rfl

theorem ticket_lt (some : ticket ∈ workq.putBack ++ workq.pending.map Enqueued.ticket) : ticket < workq.enqueues := by
  by_contra large
  have count := kept.tickets ticket
  rw [if_neg large] at count
  exact count_eq_zero.mp count some

end

theorem called_sub (workq : CrmWorkq) (ticket : Nat) : (workq.putBack ++ workq.worker.called).count ticket ≤
      (workq.putBack ++ workq.pending.map Enqueued.ticket).count ticket := by
  simp only [count_append, pending, map_append]
  cases workq.worker <;> simp [WorkqWorker.called, WorkqWorker.hand]

theorem order_lt (kept : workq.Kept) (listed : ticket ∈ workq.order priority) : ticket < workq.enqueues := by
  apply kept.ticket_lt
  rw [CrmWorkq.order, mem_append, mem_append] at listed
  rcases listed with ran | taken | listed
  · obtain ⟨run, mem, rfl⟩ := mem_map.mp ran
    have listed : run.ticket ∈ workq.ran.map TaskRun.ticket := mem_map_of_mem (mem_filter.mp mem).1
    have pos := count_pos_iff.mpr listed
    have once := kept.once run.ticket
    have called := called_sub workq run.ticket
    exact count_pos_iff.mp (by omega)
  · refine mem_append_right _ ?_
    cases worker : workq.worker <;> simp_all [WorkqWorker.next, pending, WorkqWorker.hand]
  · refine mem_append_right _ ?_
    cases priority <;> simp_all [pending]

theorem enqueue_pending (workq : CrmWorkq) (task : Nat) (priority : CrmTaskPriority) (processCb ok : Bool) :
    (workq.enqueue task priority processCb ok).pending.Perm (⟨task, workq.enqueues, processCb⟩ :: workq.pending) := by
  refine perm_iff_count.mpr fun enqueued => ?_
  cases priority <;> simp [pending, enqueue, count_cons] <;> omega

theorem enqueue_order (workq : CrmWorkq) (task : Nat) (processCb ok : Bool) :
    (workq.enqueue task priority processCb ok).order priority = workq.order priority ++ [workq.enqueues] := by
  simp [CrmWorkq.order, enqueue]

section

variable (kept : workq.Kept)
include kept

theorem addTask (checked : workq.clients task = some (.checked priority processCb)) :
    ((workq.enqueue task priority processCb ok).client task none).Kept := by
  have added := enqueue_pending workq task priority processCb ok
  refine ⟨fun other => Eq.trans ?_ (kept.place other), kept.freeCnt, ?_, fun other => ?_, fun ticket => ?_,
    kept.once, fun call listed => ?_, fun done listed => ?_⟩
  · have count := (added.map Enqueued.task).count_eq other
    change workq.emptyHead.count other + ((workq.enqueue task priority processCb ok).pending.map
      Enqueued.task).count other + (if (update workq.clients task none other).isSome then 1 else 0) = _
    rw [count, places]
    by_cases here : other = task
    · simp [here, checked]
      omega
    · simp [here, Ne.symm here]
  · have count := kept.pendingCnt
    cases priority <;> simp [CrmWorkq.client, enqueue, count] <;> omega
  · by_cases same : other = priority
    · subst same
      change ((workq.enqueue task other processCb ok).order other).Pairwise _
      rw [enqueue_order]
      refine pairwise_append.mpr ⟨kept.order other, pairwise_singleton .., fun ticket listed last isLast => ?_⟩
      rw [mem_singleton.mp isLast]
      exact kept.order_lt listed
    · have order := kept.order other
      simpa [CrmWorkq.order, CrmWorkq.client, enqueue, same] using order
  · have count := (added.map Enqueued.ticket).count_eq ticket
    have was := kept.tickets ticket
    rw [map_cons, count_cons] at count
    change (workq.putBack ++ (workq.enqueue task priority processCb ok).pending.map Enqueued.ticket).count
      ticket = if ticket < workq.enqueues + 1 then 1 else 0
    rw [count_append] at was ⊢
    rw [count, ← Nat.add_assoc, was]
    by_cases here : workq.enqueues = ticket
    · simp [here]
    · simp only [beq_iff_eq, here, if_false, Nat.add_zero]
      exact if_congr (by omega) rfl rfl
  · obtain ⟨past, lists, held⟩ := kept.flushes call listed
    refine ⟨Nat.le_succ_of_le past, fun other enqueued mem => ?_, held⟩
    by_cases same : other = priority
    · subst same
      simp only [CrmWorkq.client, enqueue, update_self, mem_append, mem_singleton] at mem
      rcases mem with mem | rfl
      · exact lists other enqueued mem
      · exact past
    · simp only [CrmWorkq.client, enqueue, update_of_ne same] at mem
      exact lists other enqueued mem
  · obtain ⟨past, pending, later⟩ := kept.flushed done listed
    refine ⟨⟨Nat.le_succ_of_le past.1, past.2⟩, fun enqueued mem => ?_, later⟩
    rcases mem_cons.mp (added.mem_iff.mp mem) with rfl | mem
    · exact past.1
    · exact pending enqueued mem

theorem moved (processHead : CrmTaskPriority → List Enqueued) (pendingCnt : Int)
    (worker : WorkqWorker) (work : Bool) (executions : Nat) (flushing : List FlushCall)
    (same : (worker.hand ++ (processHead .priority0 ++ processHead .priority1)).Perm workq.pending)
    (count : pendingCnt = (processHead .priority0 ++ processHead .priority1).length)
    (order : ∀ priority, worker.next priority ++ (processHead priority).map Enqueued.ticket =
      workq.worker.next priority ++ (workq.processHead priority).map Enqueued.ticket)
    (called : worker.called = workq.worker.called)
    (flushes : ∀ call ∈ flushing, Flushes { workq with
      processHead := processHead, worker := worker, executions := executions } call) :
    Kept { workq with
      processHead := processHead, pendingCnt := pendingCnt, worker := worker, work := work
      executions := executions, flushing := flushing } := by
  refine ⟨fun task => Eq.trans ?_ (kept.place task), kept.freeCnt, count, fun priority => ?_,
    fun ticket => Eq.trans ?_ (kept.tickets ticket), fun ticket => ?_, fun call listed => ?_, fun done listed => ?_⟩
  · have here := (same.map Enqueued.task).count_eq task
    simp only [places, pending] at here ⊢
    rw [here]
  · have line := kept.order priority
    rw [CrmWorkq.order, ← order priority] at line
    exact line
  · have here := (same.map Enqueued.ticket).count_eq ticket
    rw [count_append, count_append, ← here]
    rfl
  · have once := kept.once ticket
    rw [← called] at once
    exact once
  · obtain ⟨past, lists, held⟩ := flushes call listed
    exact ⟨past, lists, held⟩
  · obtain ⟨past, pending, later⟩ := kept.flushed done listed
    exact ⟨past, fun enqueued mem => pending enqueued (same.mem_iff.mp mem), later⟩

theorem startWorker (idle : workq.worker = .idle) :
    Kept { workq with worker := .looking .priority0, work := false, executions := workq.executions + 1 } := by
  refine kept.moved workq.processHead workq.pendingCnt (.looking .priority0) false (workq.executions + 1)
    workq.flushing ?_ kept.pendingCnt (fun priority => ?_) ?_ fun call listed => ?_
  · rw [pending, idle]
    exact List.Perm.refl _
  · rw [idle]
    rfl
  · rw [idle]
    rfl
  · obtain ⟨past, lists, -⟩ := kept.flushes call listed
    exact ⟨past, lists, fun _ mem => absurd mem not_mem_nil⟩

theorem look (looking : workq.worker = .looking priority) : (workq.look priority).Kept := by
  unfold CrmWorkq.look
  split
  · refine kept.moved workq.processHead workq.pendingCnt _ workq.work workq.executions workq.flushing ?_
      kept.pendingCnt (fun other => ?_) ?_ fun call listed => ?_
    · rw [pending, looking]
      split <;> exact List.Perm.refl _
    · rw [looking]
      split <;> rfl
    · rw [looking]
      split <;> rfl
    · obtain ⟨past, lists, -⟩ := kept.flushes call listed
      refine ⟨past, lists, fun enqueued mem => ?_⟩
      split at mem <;> cases mem
  · rename_i enqueued rest head
    refine kept.moved (update workq.processHead priority rest) (workq.pendingCnt - 1)
      (.taken priority enqueued) workq.work workq.executions workq.flushing ?_ ?_ (fun other => ?_) ?_
      fun call listed => ?_
    · refine perm_iff_count.mpr fun other => ?_
      rw [pending, looking]
      cases priority <;> simp [WorkqWorker.hand, head, count_cons]; omega
    · rw [kept.pendingCnt]
      cases priority <;> simp [head]; omega
    · rw [looking]
      by_cases same : other = priority
      · subst same
        simp [WorkqWorker.next, head]
      · simp [WorkqWorker.next, same, Ne.symm same]
    · rw [looking]
      rfl
    · obtain ⟨past, lists, -⟩ := kept.flushes call listed
      refine ⟨past, fun other enqueued mem => ?_, fun other mem early => ?_⟩
      · dsimp only at mem
        by_cases same : other = priority
        · subst same
          rw [update_self] at mem
          exact lists other enqueued (head ▸ mem_cons_of_mem _ mem)
        · rw [update_of_ne same] at mem
          exact lists other enqueued mem
      · rw [mem_singleton.mp mem] at early
        have first := lists priority enqueued (head ▸ mem_cons_self ..)
        omega

theorem process (taken : workq.worker = .taken priority enqueued) (unset : workq.flush = false) :
    (workq.process priority enqueued).Kept := by
  unfold CrmWorkq.process
  rw [if_neg (by simp [unset])]
  have same : pending { workq with
      worker := .running priority enqueued
      ran := if enqueued.processCb then workq.ran ++ [⟨priority, enqueued.ticket⟩] else workq.ran } =
      workq.pending := by
    rw [pending, pending, taken]
    rfl
  refine ⟨fun task => Eq.trans ?_ (kept.place task), kept.freeCnt, kept.pendingCnt, fun other => ?_,
    fun ticket => Eq.trans ?_ (kept.tickets ticket), fun ticket => ?_, fun call listed => ?_, fun done listed => ?_⟩
  · rw [places, same]
    rfl
  · have line := kept.order other
    simp only [CrmWorkq.order, taken, WorkqWorker.next] at line ⊢
    split
    · by_cases here : priority = other
      · simpa [here] using line
      · simpa [here] using line
    · refine line.sublist ((List.Sublist.refl _).append ?_)
      exact (nil_sublist _).append (List.Sublist.refl _)
  · rw [same]
  · have once := kept.once ticket
    rw [taken] at once
    simp only [WorkqWorker.called, append_nil] at once ⊢
    rw [count_append]
    split
    · rw [map_append, count_append]
      exact Nat.add_le_add_right once _
    · omega
  · obtain ⟨past, lists, held⟩ := kept.flushes call listed
    rw [taken] at held
    exact ⟨past, lists, held⟩
  · obtain ⟨past, pending, later⟩ := kept.flushed done listed
    have mine : done.began ≤ enqueued.ticket :=
      pending enqueued (by simp [CrmWorkq.pending, taken, WorkqWorker.hand])
    refine ⟨⟨past.1, ?_⟩, same ▸ pending, fun run mem => ?_⟩
    · split
      · rw [length_append]
        omega
      · exact past.2
    · split at mem
      · rw [drop_append_of_le_length past.2, mem_append, mem_singleton] at mem
        rcases mem with mem | rfl
        · exact later run mem
        · exact mine
      · exact later run mem

theorem finish (running : workq.worker = .running priority enqueued) : Kept { workq.putEmpty enqueued.task with
      worker := .looking priority, putBack := enqueued.ticket :: workq.putBack } := by
  refine ⟨fun task => Eq.trans ?_ (kept.place task), ?_, kept.pendingCnt, fun other => ?_,
    fun ticket => Eq.trans ?_ (kept.tickets ticket), fun ticket => ?_, fun call listed => ?_, fun done listed => ?_⟩
  · simp [places, putEmpty, pending, running, WorkqWorker.hand, count_cons]
    omega
  · rw [putEmpty]
    simp [kept.freeCnt]
  · have line := kept.order other
    rw [CrmWorkq.order, running] at line
    exact line
  · simp [pending, running, WorkqWorker.hand, putEmpty, count_cons]
    omega
  · have once := kept.once ticket
    rw [running] at once
    simp [WorkqWorker.called, count_cons, putEmpty] at once ⊢
    omega
  · obtain ⟨past, lists, -⟩ := kept.flushes call listed
    exact ⟨past, lists, fun _ mem => absurd mem not_mem_nil⟩
  · obtain ⟨past, pending, later⟩ := kept.flushed done listed
    exact ⟨past, fun other mem => pending other (mem_append_right _ mem), later⟩

theorem flushBegin (fine : workq.Fine .flushBegin) :
    Kept { workq with flush := true, flushing := ⟨workq.enqueues, none⟩ :: workq.flushing } := by
  refine { kept with flushes := fun call listed => ?_, flushed := fun done listed => ?_ }
  · rcases mem_cons.mp listed with rfl | listed
    · refine ⟨Nat.le_refl _, fun priority enqueued mem => ?_, fun _ _ _ _ waiting => ?_⟩
      · obtain ⟨first, second⟩ := fine
        cases priority <;> simp_all
      · cases waiting
    · obtain ⟨past, lists, held⟩ := kept.flushes call listed
      exact ⟨past, lists, held⟩
  · obtain ⟨past, pending, later⟩ := kept.flushed done listed
    exact ⟨past, pending, later⟩

theorem cancelWork (listed : call ∈ workq.flushing) : Kept { workq with
      work := false, flushing := { call with waiting := some workq.executions } :: workq.flushing.erase call } := by
  refine kept.moved workq.processHead workq.pendingCnt workq.worker false workq.executions _ (List.Perm.refl _)
    kept.pendingCnt (fun _ => rfl) rfl fun other mem => ?_
  rcases mem_cons.mp mem with rfl | mem
  · obtain ⟨past, lists, -⟩ := kept.flushes call listed
    exact ⟨past, lists, fun _ _ _ _ same => (Option.some.inj same).symm⟩
  · obtain ⟨past, lists, held⟩ := kept.flushes other (mem_of_mem_erase mem)
    exact ⟨past, lists, held⟩

theorem flushReturn (fine : workq.Fine (.flushReturn call)) (listed : call ∈ workq.flushing)
    (waited : call.waiting.any workq.waited = true) : Kept { workq with
      flush := false, flushing := workq.flushing.erase call
      flushed := ⟨call.began, workq.ran.length⟩ :: workq.flushed } := by
  refine { kept with flushes := fun other mem => ?_, flushed := fun done mem => ?_ }
  · obtain ⟨past, lists, held⟩ := kept.flushes other (mem_of_mem_erase mem)
    exact ⟨past, lists, held⟩
  · rcases mem_cons.mp mem with rfl | mem
    · obtain ⟨past, lists, held⟩ := kept.flushes call listed
      refine ⟨⟨past, Nat.le_refl _⟩, fun enqueued pending => ?_, fun run later => ?_⟩
      · rcases mem_append.mp pending with hand | pending
        · -- a task that is still in hand was taken after the cancellation
          by_contra early
          have thread : workq.thread = false := Bool.eq_false_iff.mpr fun thread => early (fine thread enqueued hand)
          obtain ⟨executions, waiting, finished⟩ := (Option.any_eq_true _ _).mp waited
          have same := held enqueued hand (Nat.lt_of_not_le early) executions waiting
          have busy : workq.worker ≠ .idle := fun idle => by
            rw [idle] at hand
            cases hand
          simp [CrmWorkq.waited, thread, same, busy] at finished
        · rcases mem_append.mp pending with first | second
          · exact lists _ enqueued first
          · exact lists _ enqueued second
      · rw [drop_length] at later
        cases later
    · obtain ⟨past, pending, later⟩ := kept.flushed done mem
      exact ⟨past, pending, later⟩

theorem step (fine : workq.Fine action) (taken : workq.step action = some after) : after.Kept := by
  cases action <;> rw [CrmWorkq.step] at taken
  case getTask =>
    split at taken <;> cases taken
    · exact kept
    · exact kept.getTask ‹_›
  case checkTask task cancel prio processCb =>
    split at taken <;> cases taken
    exact kept.client (by simp [*])
  case addTask task accepted =>
    split at taken
    · rename_i checked
      split at taken <;> cases taken
      · exact kept.addTask checked
      · exact kept.client (by simp [checked])
    · cases taken
  case putTask task =>
    split at taken <;> cases taken
    exact kept.putTask ‹_›
  case startWorker =>
    split at taken <;> cases taken
    rename_i start
    exact kept.startWorker start.1
  case lookAtList =>
    split at taken <;> cases taken
    exact kept.look ‹_›
  case lookAtFlush =>
    split at taken <;> cases taken
    exact kept.process ‹_› fine
  case finishTask =>
    split at taken <;> cases taken
    exact kept.finish ‹_›
  case flushBegin =>
    cases taken
    exact kept.flushBegin fine
  case cancelWork call =>
    split at taken <;> cases taken
    rename_i mem
    exact kept.cancelWork mem.1
  case flushReturn call =>
    split at taken <;> cases taken
    rename_i mem
    exact kept.flushReturn fine mem.1 mem.2

end

end Kept

structure Sound (workq : CrmWorkq) : Prop where
  onePlace : ∀ task, task < workq.numTask → workq.places task = 1
  freeCnt : workq.freeCnt = workq.emptyHead.length
  pendingCnt : workq.pendingCnt = (workq.processHead .priority0).length + (workq.processHead .priority1).length
  inOrder : ∀ priority, ((workq.ran.filter (·.priority = priority)).map TaskRun.ticket).Pairwise (· < ·)
  once : (workq.ran.map TaskRun.ticket).Nodup
  flushed : ∀ done ∈ workq.flushed, (∀ ticket, ticket < done.began → ticket ∈ workq.putBack ∧
      ∀ enqueued ∈ workq.pending, enqueued.ticket ≠ ticket) ∧
    ∀ run ∈ workq.ran.drop done.ranBefore, done.began ≤ run.ticket

theorem Kept.sound (kept : workq.Kept) : workq.Sound where
  onePlace task small := (kept.place task).trans (if_pos small)
  freeCnt := kept.freeCnt
  pendingCnt := by
    rw [kept.pendingCnt, length_append]
    rfl
  inOrder priority := (pairwise_append.mp (kept.order priority)).1
  once := by
    refine nodup_iff_count_le_one.mpr fun ticket => ?_
    have ran := kept.once ticket
    have called := Kept.called_sub workq ticket
    have one := kept.tickets ticket
    split at one <;> omega
  flushed done listed := by
    obtain ⟨past, pending, later⟩ := kept.flushed done listed
    refine ⟨fun ticket early => ?_, later⟩
    have missing : ∀ enqueued ∈ workq.pending, enqueued.ticket ≠ ticket := fun enqueued mem same => by
      have late := pending enqueued mem
      omega
    refine ⟨?_, missing⟩
    have one := kept.tickets ticket
    have none : (workq.pending.map Enqueued.ticket).count ticket = 0 :=
      count_eq_zero.mpr fun mem => by
        obtain ⟨enqueued, listed, same⟩ := mem_map.mp mem
        exact missing enqueued listed same
    rw [if_pos (Nat.lt_of_lt_of_le early past.1), count_append, none] at one
    exact count_pos_iff.mp (Nat.lt_of_lt_of_eq Nat.one_pos one.symm)

end CrmWorkq

theorem workq_sound {numTask : Nat} {thread : Bool} {workq : CrmWorkq}
    (reached : Reachable CrmWorkq.step CrmWorkq.Fine (.init numTask thread) workq) : workq.Sound := by
  have kept := reached.invariant CrmWorkq.Kept (.init numTask thread)
    fun _ _ _ kept fine taken => kept.step fine taken
  exact kept.sound

instance (workq : CrmWorkq) (action : WorkqAction) : Decidable (workq.Fine action) := by
  cases action <;> dsimp only [CrmWorkq.Fine] <;> infer_instance

theorem workq_sound_flushed :
    ∃ workq, Reachable CrmWorkq.step CrmWorkq.Fine (.init 1 false) workq ∧ workq.flushed = [⟨1, 1⟩] ∧
      workq.Sound :=
  reaches [.getTask, .checkTask 0 false 1 true, .addTask 0 true, .startWorker, .lookAtList, .lookAtList, .lookAtFlush,
    .flushBegin, .cancelWork ⟨1, none⟩, .finishTask, .lookAtList, .flushReturn ⟨1, some 1⟩]
    (fun workq => workq.flushed = [⟨1, 1⟩]) (by decide +kernel) fun _ reached found => ⟨found, workq_sound reached⟩

theorem flushed_task_lost :
    ∃ workq, Reachable CrmWorkq.step (fun _ _ => True) (.init 1 false) workq ∧ workq.places 0 = 0 ∧
      ¬workq.Sound :=
  reaches [.getTask, .checkTask 0 false 0 true, .addTask 0 true, .startWorker, .lookAtList, .flushBegin, .lookAtFlush]
    (fun workq => workq.numTask = 1 ∧ workq.places 0 = 0) (by decide +kernel) fun _ _ ⟨one, lost⟩ =>
      ⟨lost, fun sound => absurd ((sound.onePlace 0 (by omega)).symm.trans lost) (by decide)⟩

end KernelModules.Camera

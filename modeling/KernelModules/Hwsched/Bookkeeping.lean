import Mathlib.Data.List.Count
import KernelModules.Hwsched.Scheduler
import KernelModules.Hwsched.QueueRuns

namespace KernelModules.Hwsched

open List hiding after count
open Data KernelModules.Kgsl Function

/-! # The books of the scheduler

The counter, the vote for power, the oversized command and the references speak of the objects that were sent, and a
context with a filled queue has a job.
-/

def Drawqueue.Sound (queue : Drawqueue) : Prop :=
  ∃ items, RingQueue queue.drawqueue adrenoContextDrawqueueSize queue.drawqueueHead
    queue.drawqueueTail items

namespace Drawqueue

variable {queue : Drawqueue}

theorem Sound.push (sound : queue.Sound) : (queue.push drawobj).Sound := by
  obtain ⟨items, ring⟩ := sound
  by_cases room : items.length + 1 < adrenoContextDrawqueueSize
  · exact ⟨items ++ [drawobj], ring.push room⟩
  have full : items.length + 1 = adrenoContextDrawqueueSize := by
    have short := ring.short
    omega
  have meets : (queue.drawqueueTail + 1) % adrenoContextDrawqueueSize = queue.drawqueueHead := by
    rw [ring.tail_eq, Nat.mod_add_mod, add_assoc, full, Nat.add_mod_right, Nat.mod_eq_of_lt ring.head_lt]
  refine ⟨[], ?_⟩
  show RingQueue _ _ queue.drawqueueHead ((queue.drawqueueTail + 1) % adrenoContextDrawqueueSize) []
  rw [meets]
  exact .nil ring.head_lt

theorem Sound.pushes {objects : List Drawobj} (sound : queue.Sound) : (objects.foldl Drawqueue.push queue).Sound := by
  induction objects generalizing queue with
  | nil => exact sound
  | cons drawobj rest ih => exact ih sound.push

theorem Sound.putBack (sound : queue.Sound) : (queue.putBack drawobj).Sound := by
  obtain ⟨items, ring⟩ := sound
  by_cases room : items.length + 1 < adrenoContextDrawqueueSize
  · exact ⟨drawobj :: items, ring.putBack room⟩
  have inside := RingQueue.previous_lt ring.head_lt
  have later := RingQueue.previous_next ring.head_lt
  have full : items.length = adrenoContextDrawqueueSize - 1 := by
    have short := ring.short
    omega
  have meets : queue.drawqueueTail = (queue.putBack drawobj).drawqueueHead := by
    show _ = if queue.drawqueueHead = 0 then adrenoContextDrawqueueSize - 1
      else queue.drawqueueHead - 1
    rw [ring.tail_eq]
    unfold adrenoContextDrawqueueSize at *
    split <;> omega
  refine ⟨[], ?_⟩
  show RingQueue _ _ _ queue.drawqueueTail []
  rw [meets]
  exact .nil inside

end Drawqueue

def Drawctxt.Filled (ctx : Drawctxt) : Prop := ctx.drawqueueHead ≠ ctx.drawqueueTail

namespace Drawctxt

variable {ctx : Drawctxt}

theorem retire_small (sent : (ctx.retire around drawobj).2 = .send)
    (large : AdrenoHwsched.oversized drawobj = true) : around.bigCmdobj = false := by
  unfold AdrenoHwsched.oversized at large
  rw [Bool.and_eq_true, decide_eq_true_eq] at large
  obtain ⟨type, numibs⟩ := large
  unfold Drawctxt.retire at sent
  rw [type] at sent
  dsimp only at sent
  rw [numibs] at sent
  split at sent
  · cases sent
  · rename_i free
    exact Bool.eq_false_iff.mpr free

theorem processFrom_small (found : (ctx.processFrom around fuel place).next = .drawobj drawobj)
    (large : AdrenoHwsched.oversized drawobj = true) : around.bigCmdobj = false := by
  induction fuel generalizing ctx place with
  | zero => cases found
  | succ fuel ih =>
    unfold Drawctxt.processFrom at found
    split at found
    · cases found
    split at found
    · cases found
    split at found
    · rename_i answered
      cases found
      have sent : (ctx.retire around drawobj).2 = .send := by
        rw [answered]
      exact retire_small sent large
    · cases found
    · cases found
    · exact ih found

theorem process_small (found : (ctx.processDrawqueueGetNextDrawobj around).next = .drawobj drawobj)
    (large : AdrenoHwsched.oversized drawobj = true) : around.bigCmdobj = false := by
  unfold Drawctxt.processDrawqueueGetNextDrawobj at found
  split at found
  · cases found
  · exact processFrom_small found large

end Drawctxt

namespace AdrenoHwsched

variable {hw : AdrenoHwsched} {drawobj : Drawobj} {list : List Drawobj} {looks : Looks}

structure Books (hw : AdrenoHwsched) (list : List Drawobj) : Prop where
  counted : hw.inflight = list.length
  vote : hw.votes = if hw.power then 1 else 0
  powered : 0 < hw.inflight → hw.power = true
  big : ∀ drawobj, hw.bigCmdobj = some drawobj → drawobj.type = .cmdobj ∧ drawobj ∈ list
  refs : ∀ drawobj, hw.held drawobj
    = list.count drawobj + if hw.bigCmdobj = some drawobj then (1 : Int) else 0

structure Entered (hw : AdrenoHwsched) (list : List Drawobj) : Prop where
  counted : hw.inflight = list.length + 1
  vote : hw.votes = 1
  powered : hw.power = true
  big : ∀ drawobj, hw.bigCmdobj = some drawobj → drawobj.type = .cmdobj ∧ drawobj ∈ list
  refs : ∀ drawobj, hw.held drawobj
    = list.count drawobj + if hw.bigCmdobj = some drawobj then (1 : Int) else 0

theorem take_held (other : Drawobj) :
    (hw.take drawobj).held other = hw.held other + if other = drawobj then 1 else 0 := by
  show update hw.held drawobj (hw.held drawobj + 1) other = _
  split
  · rename_i same
    rw [same, update_self]
  · rename_i apart
    rw [update_of_ne apart, Int.add_zero]

theorem drop_held (other : Drawobj) :
    (hw.drop drawobj).held other = hw.held other - if other = drawobj then 1 else 0 := by
  show update hw.held drawobj (hw.held drawobj - 1) other = _
  split
  · rename_i same
    rw [same, update_self]
  · rename_i apart
    rw [update_of_ne apart, Int.sub_zero]

theorem count_middle (other : Drawobj) : ((before ++ drawobj :: after).count other : Int)
    = (before ++ after).count other + if other = drawobj then 1 else 0 := by
  rw [count_append, count_append]
  by_cases same : other = drawobj
  · rw [same, count_cons_self, if_pos rfl]
    omega
  · rw [count_cons_of_ne (Ne.symm same), if_neg same]
    omega

theorem Books.dropped {next : AdrenoHwsched} (books : hw.Books (before ++ drawobj :: after))
    (inflight : next.inflight = hw.inflight) (votes : next.votes = hw.votes) (power : next.power = hw.power)
    (big : next.bigCmdobj = if hw.bigCmdobj = some drawobj then none else hw.bigCmdobj)
    (held : ∀ other, next.held other = hw.held other
      - (if other = drawobj then 1 else 0) - if hw.bigCmdobj = some other ∧ other = drawobj then 1 else 0) :
    Books { next with inflight := next.inflight - 1 } (before ++ after) where
  counted := by
    show next.inflight - 1 = _
    rw [inflight, books.counted, length_append, length_append, length_cons]
    omega
  vote := by
    rw [votes, power, books.vote]
  powered some := by
    rw [power]
    refine books.powered ?_
    have more : 0 < next.inflight - 1 := some
    omega
  big other is := by
    have found : next.bigCmdobj = some other := is
    rw [big] at found
    split at found
    · cases found
    · rename_i different
      obtain ⟨type, mem⟩ := books.big other found
      refine ⟨type, ?_⟩
      rw [mem_append, mem_cons] at mem
      rw [mem_append]
      obtain early | same | late := mem
      · exact .inl early
      · exact absurd (same ▸ found) different
      · exact .inr late
  refs other := by
    rw [held, books.refs, count_middle, big]
    by_cases same : other = drawobj
    · subst same
      by_cases oversize : hw.bigCmdobj = some other
      · simp only [oversize, if_true, and_self, reduceCtorEq, if_false]
        omega
      · simp only [oversize, if_true, if_false, false_and]
        omega
    · simp only [same, and_false, if_false]
      by_cases oversize : hw.bigCmdobj = some drawobj
      · have apart : ¬some drawobj = some other := fun is => same (Option.some.inj is).symm
        simp only [oversize, if_true, apart, reduceCtorEq, if_false]
        omega
      · simp only [oversize, if_false]
        omega

def Mapped (looks : Looks) (drawobj : Drawobj) : Bool := !drawobj.profiling || looks.mapped drawobj

theorem Books.retireCmdobj (books : hw.Books (before ++ drawobj :: after))
    (mapped : Mapped looks drawobj = true) : Books { hw.retireCmdobj drawobj looks with
      inflight := (hw.retireCmdobj drawobj looks).inflight - 1 } (before ++ after) := by
  have seen : ¬(drawobj.profiling && !looks.mapped drawobj) = true := by
    intro both
    unfold Mapped at mapped
    rw [Bool.and_eq_true] at both
    rw [both.1, Bool.not_true, Bool.false_or] at mapped
    rw [mapped] at both
    cases both.2
  unfold AdrenoHwsched.retireCmdobj
  rw [if_neg seen]
  by_cases oversize : hw.bigCmdobj = some drawobj
  · rw [if_pos oversize]
    refine books.dropped rfl rfl rfl (if_pos oversize).symm fun other => ?_
    rw [drop_held, drop_held]
    by_cases same : other = drawobj
    · simp [same, oversize]
    · simp [same]
  · rw [if_neg oversize]
    refine books.dropped rfl rfl rfl (if_neg oversize).symm fun other => ?_
    rw [drop_held]
    by_cases same : other = drawobj
    · subst same
      simp [oversize]
    · simp [same]

theorem Books.dropSync (books : hw.Books (before ++ drawobj :: after)) (sync : drawobj.type = .syncobj) :
    Books { hw.drop drawobj with inflight := (hw.drop drawobj).inflight - 1 } (before ++ after) := by
  have small : ¬hw.bigCmdobj = some drawobj := fun is => by
    have type := (books.big drawobj is).1
    rw [sync] at type
    cases type
  refine books.dropped rfl rfl rfl (if_neg small).symm fun other => ?_
  rw [drop_held]
  by_cases same : other = drawobj
  · subst same
    simp [small]
  · simp [same]

theorem Books.walkList (books : hw.Books (before ++ remaining))
    (retires : AdrenoHwsched → Drawobj → AdrenoHwsched × Bool)
    (stays : ∀ hw drawobj, (retires hw drawobj).2 = false → (retires hw drawobj).1 = hw)
    (goes : ∀ hw before drawobj after, drawobj ∈ remaining → Books hw (before ++ drawobj :: after) →
      (retires hw drawobj).2 = true →
      Books { (retires hw drawobj).1 with inflight := (retires hw drawobj).1.inflight - 1 }
        (before ++ after)) :
    Books (walkList retires remaining hw).1 (before ++ (walkList retires remaining hw).2) := by
  induction remaining generalizing hw before with
  | nil => exact books
  | cons drawobj rest ih =>
    have later : ∀ hw before drawobj after, drawobj ∈ rest → Books hw (before ++ drawobj :: after) →
        (retires hw drawobj).2 = true →
        Books { (retires hw drawobj).1 with inflight := (retires hw drawobj).1.inflight - 1 }
          (before ++ after) :=
      fun hw before other after mem => goes hw before other after (mem_cons_of_mem _ mem)
    have gone := goes hw before drawobj rest (mem_cons_self ..) books
    have stay := stays hw drawobj
    unfold AdrenoHwsched.walkList
    split
    · rename_i next answered
      rw [answered] at gone
      exact ih (gone rfl) later
    rename_i next answered
    rw [answered] at stay
    have same : next = hw := stay rfl
    subst same
    rw [append_cons] at books
    have walked := ih books later
    rw [← append_cons] at walked
    exact walked

theorem drawobjRetired_stays (still : (hw.drawobjRetired drawobj looks).2 = false) :
    (hw.drawobjRetired drawobj looks).1 = hw := by
  unfold AdrenoHwsched.drawobjRetired at still ⊢
  split
  · rfl
  · rename_i reached
    rw [if_neg reached] at still
    split at still <;> cases still

theorem Books.drawobjRetired (books : hw.Books (before ++ drawobj :: after))
    (mapped : looks.reached drawobj = true → drawobj.type ≠ .syncobj → Mapped looks drawobj = true)
    (gone : (hw.drawobjRetired drawobj looks).2 = true) : Books { (hw.drawobjRetired drawobj looks).1 with
      inflight := (hw.drawobjRetired drawobj looks).1.inflight - 1 } (before ++ after) := by
  unfold AdrenoHwsched.drawobjRetired at gone ⊢
  split
  · rename_i waiting
    rw [if_pos waiting] at gone
    cases gone
  rename_i reached
  rw [Bool.not_eq_false] at reached
  split
  · rename_i sync
    exact books.dropSync sync
  · rename_i cmd
    exact books.retireCmdobj (mapped reached cmd)

theorem drawobjReplay_stays (still : (!(hw.drawobjReplay drawobj looks).2) = false) :
    (hw.drawobjReplay drawobj looks).1 = hw := by
  unfold AdrenoHwsched.drawobjReplay at still ⊢
  split
  · rename_i sync
    rw [if_pos sync] at still
    split
    · rfl
    · rename_i done
      rw [if_neg done] at still
      cases still
  · rename_i cmd
    rw [if_neg cmd] at still
    split
    · rename_i ended
      rw [if_pos ended] at still
      cases still
    · rfl

theorem Books.drawobjReplay (books : hw.Books (before ++ drawobj :: after))
    (mapped : (looks.reached drawobj || looks.isBad drawobj) = true → drawobj.type ≠ .syncobj →
      Mapped looks drawobj = true)
    (gone : (!(hw.drawobjReplay drawobj looks).2) = true) : Books { (hw.drawobjReplay drawobj looks).1 with
      inflight := (hw.drawobjReplay drawobj looks).1.inflight - 1 } (before ++ after) := by
  unfold AdrenoHwsched.drawobjReplay at gone ⊢
  split
  · rename_i sync
    rw [if_pos sync] at gone
    split
    · rename_i waiting
      rw [if_pos waiting] at gone
      cases gone
    · exact books.dropSync sync
  · rename_i cmd
    rw [if_neg cmd] at gone
    split
    · rename_i ended
      exact books.retireCmdobj (mapped ended cmd)
    · rename_i running
      rw [if_neg running] at gone
      cases gone

def RetiresMapped (hw : AdrenoHwsched) (looks : Looks) : Bool :=
  hw.cmdList.all fun drawobj =>
    !looks.reached drawobj || drawobj.type = .syncobj || Mapped looks drawobj

def ReplaysMapped (hw : AdrenoHwsched) (looks : Looks) : Bool :=
  hw.cmdList.all fun drawobj =>
    !(looks.reached drawobj || looks.isBad drawobj) || drawobj.type = .syncobj || Mapped looks drawobj

theorem Books.retireDrawobjList (books : hw.Books hw.cmdList) (mapped : hw.RetiresMapped looks = true) :
    (hw.retireDrawobjList looks).Books (hw.retireDrawobjList looks).cmdList := by
  have start : hw.Books ([] ++ hw.cmdList) := books
  have walked := start.walkList (fun hw drawobj => hw.drawobjRetired drawobj looks)
    (fun _ _ => drawobjRetired_stays) fun hw before drawobj after mem books gone => by
      refine books.drawobjRetired (fun reached cmd => ?_) gone
      have looked := all_eq_true.mp mapped drawobj mem
      simpa [reached, cmd] using looked
  exact { walked with }

theorem Books.replay (books : hw.Books hw.cmdList) (mapped : hw.ReplaysMapped looks = true) :
    (hw.replay looks).Books (hw.replay looks).cmdList := by
  have start : hw.Books ([] ++ hw.cmdList) := books
  have walked := start.walkList (fun hw drawobj =>
      ((hw.drawobjReplay drawobj looks).1, !(hw.drawobjReplay drawobj looks).2))
    (fun _ _ => drawobjReplay_stays) fun hw before drawobj after mem books gone => by
      refine books.drawobjReplay (fun reached cmd => ?_) gone
      have looked := all_eq_true.mp mapped drawobj mem
      simpa [reached, cmd] using looked
  exact { walked with }

theorem Books.powerDown (books : hw.Books list) (none : hw.inflight = 0) : hw.powerDown.Books list := by
  have vote := books.vote
  unfold AdrenoHwsched.powerDown
  dsimp only
  split
  · rename_i powered
    rw [if_pos powered] at vote
    refine ⟨books.counted, ?_, fun some => ?_, books.big, books.refs⟩
    · show hw.votes - 1 = 0
      omega
    · have more : 0 < hw.inflight := some
      omega
  · exact { books with vote := vote }

theorem enter_cases (hw : AdrenoHwsched) (answer : Int) :
    (hw.power = false ∧ answer ≠ 0 ∧ hw.enter answer = (hw, answer)) ∨
    ((hw.power = true ∨ 0 < hw.inflight) ∧ hw.enter answer = ({ hw with inflight := hw.inflight + 1 }, 0)) ∨
    (hw.power = false ∧ hw.inflight = 0 ∧ hw.enter answer
      = ({ hw with inflight := hw.inflight + 1, votes := hw.votes + 1, power := true }, 0)) := by
  unfold enter
  dsimp only
  split
  · rename_i first
    rw [Bool.and_eq_true, beq_iff_eq, Bool.not_eq_true'] at first
    obtain ⟨one, unpowered⟩ := first
    split
    · rename_i failed
      exact .inl ⟨unpowered, failed, rfl⟩
    · exact .inr (.inr ⟨unpowered, by omega, rfl⟩)
  · rename_i further
    refine .inr (.inl ⟨?_, rfl⟩)
    rw [Bool.and_eq_true, beq_iff_eq, Bool.not_eq_true'] at further
    by_cases idle : hw.inflight = 0
    · refine .inl (Bool.not_eq_false _ ▸ fun unpowered => further ⟨?_, unpowered⟩)
      rw [idle]
    · exact .inr (Nat.pos_of_ne_zero idle)

theorem Books.enter (books : hw.Books list) (entered : (hw.enter answer).2 = 0) :
    (hw.enter answer).1.Entered list ∧ (hw.enter answer).1.bigCmdobj = hw.bigCmdobj ∧
      (hw.enter answer).1.cmdList = hw.cmdList := by
  have vote := books.vote
  obtain ⟨_, failed, is⟩ | ⟨powered, is⟩ | ⟨unpowered, _, is⟩ := hw.enter_cases answer
  · rw [is] at entered
    exact absurd entered failed
  · have held : hw.power = true := powered.elim id books.powered
    rw [held] at vote
    rw [is]
    exact ⟨⟨congrArg (· + 1) books.counted, vote, held, books.big, books.refs⟩, rfl, rfl⟩
  · rw [unpowered, if_neg Bool.false_ne_true] at vote
    rw [is]
    refine ⟨⟨congrArg (· + 1) books.counted, ?_, rfl, books.big, books.refs⟩, rfl, rfl⟩
    rw [vote, Int.zero_add]

theorem Entered.leave (entered : hw.Entered list) : hw.leave.Books list := by
  have counted := entered.counted
  unfold AdrenoHwsched.leave
  split
  · have vote : hw.votes - 1 = 0 := by
      rw [entered.vote, Int.sub_self]
    refine ⟨?_, vote, fun some => ?_, entered.big, entered.refs⟩
    · show hw.inflight - 1 = _
      omega
    · have more : 0 < hw.inflight - 1 := some
      omega
  · refine ⟨?_, ?_, fun _ => entered.powered, entered.big, entered.refs⟩
    · show hw.inflight - 1 = _
      omega
    · rw [entered.vote, entered.powered, if_pos rfl]

theorem leave_cmdList : hw.leave.cmdList = hw.cmdList := by
  unfold AdrenoHwsched.leave
  split <;> rfl

theorem accept_held (other : Drawobj) : (hw.accept drawobj).held other = hw.held other
    + (if other = drawobj then 1 else 0) + if oversized drawobj = true ∧ other = drawobj then 1 else 0 := by
  have active : (if hw.inflight = 1 then { hw with active := true } else hw).held = hw.held := by
    split <;> rfl
  unfold AdrenoHwsched.accept
  dsimp only
  by_cases large : oversized drawobj = true
  · rw [if_pos large]
    rw [take_held]
    rw [take_held, active]
    simp [large]
  · rw [if_neg large]
    rw [take_held, active]
    simp [large]

theorem accept_frame (hw : AdrenoHwsched) (drawobj : Drawobj) : (hw.accept drawobj).inflight = hw.inflight ∧
    (hw.accept drawobj).votes = hw.votes ∧ (hw.accept drawobj).power = hw.power ∧
    (hw.accept drawobj).cmdList = hw.cmdList ++ [drawobj] ∧
    (hw.accept drawobj).bigCmdobj = if oversized drawobj then some drawobj else hw.bigCmdobj := by
  unfold AdrenoHwsched.accept
  split <;> split <;> exact ⟨rfl, rfl, rfl, rfl, rfl⟩

theorem Entered.accept (entered : hw.Entered hw.cmdList) (fits : oversized drawobj = true → hw.bigCmdobj = none) :
    (hw.accept drawobj).Books (hw.accept drawobj).cmdList := by
  obtain ⟨inflight, votes, power, mem, big⟩ := hw.accept_frame drawobj
  rw [mem]
  constructor
  · rw [inflight, entered.counted, length_append]
    rfl
  · rw [votes, power, entered.vote, entered.powered, if_pos rfl]
  · intro _
    rw [power]
    exact entered.powered
  · intro other is
    rw [big] at is
    split at is
    · rename_i large
      cases is
      exact ⟨of_decide_eq_true (Bool.and_eq_true .. ▸ large).1, mem_append_right _ (mem_singleton_self _)⟩
    · obtain ⟨type, held⟩ := entered.big other is
      exact ⟨type, mem_append_left _ held⟩
  · intro other
    rw [accept_held, entered.refs, big, count_middle, append_nil]
    by_cases large : oversized drawobj = true
    · have none := fits large
      by_cases same : other = drawobj
      · simp only [none, large, same, reduceCtorEq, if_true, if_false, and_self]
        omega
      · have apart : ¬some drawobj = some other := fun is => same (Option.some.inj is).symm
        simp only [none, large, same, apart, reduceCtorEq, if_true, if_false, and_false]
        omega
    · simp only [large, Bool.false_eq_true, false_and, if_false]
      omega

theorem sendcmd_enoent (failed : (hw.sendcmd drawobj answers detached).2 = enoent) :
    detached = true ∨ answers.submitDrawobj = enoent ∨
      (answers.allocFails = false ∧ answers.abort = false ∧ hw.power = false ∧ answers.activeCountGet = enoent) := by
  unfold AdrenoHwsched.sendcmd at failed
  dsimp only at failed
  split at failed
  · cases failed
  · rename_i alloc
    split at failed
    · cases failed
    · rename_i running
      split at failed
      · rename_i detached
        exact .inl detached
      · rw [Bool.not_eq_true] at alloc running
        obtain ⟨unpowered, refused, is⟩ | ⟨_, is⟩ | ⟨_, _, is⟩ := hw.enter_cases answers.activeCountGet
        · rw [is, if_pos refused] at failed
          exact .inr (.inr ⟨alloc, running, unpowered, failed⟩)
        all_goals
          rw [is, if_neg (fun wrong => wrong rfl)] at failed
          split at failed
          · exact .inr (.inl failed)
          · cases failed

theorem Books.sendcmd (books : hw.Books hw.cmdList) (answers : SendAnswers) (detached : Bool)
    (fits : oversized drawobj = true → hw.bigCmdobj = none) :
    (hw.sendcmd drawobj answers detached).1.Books (hw.sendcmd drawobj answers detached).1.cmdList := by
  unfold AdrenoHwsched.sendcmd
  dsimp only
  split
  · exact books
  split
  · exact books
  split
  · exact books
  split
  · rename_i refused
    obtain ⟨_, _, is⟩ | ⟨_, is⟩ | ⟨_, _, is⟩ := hw.enter_cases answers.activeCountGet
    · rw [is]
      exact books
    all_goals
      rw [is] at refused
      exact absurd rfl refused
  · rename_i taken
    rw [not_not] at taken
    obtain ⟨entered, big, mem⟩ := books.enter taken
    rw [← mem] at entered
    split
    · rw [leave_cmdList]
      exact entered.leave
    · exact entered.accept (fun large => big.trans (fits large))

theorem walkList_big (keeps : ∀ hw drawobj, hw.bigCmdobj = none → (retires hw drawobj).1.bigCmdobj = none)
    (small : hw.bigCmdobj = none) : (walkList retires list hw).1.bigCmdobj = none := by
  induction list generalizing hw with
  | nil => exact small
  | cons drawobj rest ih =>
    have kept := keeps hw drawobj small
    unfold AdrenoHwsched.walkList
    split
    all_goals
      rename_i answered
      rw [answered] at kept
      exact ih kept

theorem retireCmdobj_big (small : hw.bigCmdobj = none) : (hw.retireCmdobj drawobj looks).bigCmdobj = none := by
  unfold AdrenoHwsched.retireCmdobj
  split
  · exact small
  · split
    · rfl
    · exact small

theorem retireDrawobjList_big (small : hw.bigCmdobj = none) : (hw.retireDrawobjList looks).bigCmdobj = none := by
  refine walkList_big (fun hw drawobj small => ?_) small
  unfold AdrenoHwsched.drawobjRetired
  split
  · exact small
  split
  · exact small
  · exact retireCmdobj_big small

theorem replay_big (small : hw.bigCmdobj = none) : (hw.replay looks).bigCmdobj = none := by
  refine walkList_big (fun hw drawobj small => ?_) small
  unfold AdrenoHwsched.drawobjReplay
  split
  · split <;> exact small
  split
  · exact retireCmdobj_big small
  · exact small

theorem powerDown_cmdList : hw.powerDown.cmdList = hw.cmdList := by
  unfold AdrenoHwsched.powerDown
  dsimp only
  split <;> rfl

theorem powerDown_big : hw.powerDown.bigCmdobj = hw.bigCmdobj := by
  unfold AdrenoHwsched.powerDown
  dsimp only
  split <;> rfl

end AdrenoHwsched

def Walk.Has (walk : Walk) (context : Nat) : Prop := context ∈ walk.jobs ∧ context ∉ walk.seen

def Dispatcher.Has : Dispatcher → Nat → Prop
  | .idle, _ => False
  | .walking walk, context => walk.Has context
  | .sending walk current _, context => context = current ∨ walk.Has context
  | .holding walk current _ _, context => context = current ∨ walk.Has context
  | .finishing walk current ret, context =>
    (context = current ∧ ret ≠ 0 ∧ ret ≠ enoent) ∨ walk.Has context

namespace SchedState

variable {state after : SchedState} {context id count : Nat} {looks : Looks} {walk : Walk}
  {drawobj : Drawobj}

def HasJob (state : SchedState) (context : Nat) : Prop :=
  (∃ id, context ∈ state.jobs id ∨ context ∈ state.requeue id) ∨ state.dispatcher.Has context

/-- What is retired can be looked at, and the call for power fails with `-ENOENT` only where that is
harmless. -/
def careful (state : SchedState) : SchedAction → Bool
  | .retire looks => state.hw.RetiresMapped looks
  | .replay looks => state.hw.ReplaysMapped looks
  | .sendcmd answers =>
    match state.dispatcher with
    | .holding _ context _ _ =>
      answers.allocFails || answers.abort || (state.context context).isBad || state.hw.power ||
        decide (answers.activeCountGet ≠ enoent)
    | _ => true
  | _ => true

structure Booked (state : SchedState) : Prop where
  inflight : state.hw.inflight = state.hw.cmdList.length
  vote : state.hw.votes = if state.hw.power then 1 else 0
  powered : 0 < state.hw.inflight → state.hw.power = true
  bigCmdobj : ∀ drawobj, state.hw.bigCmdobj = some drawobj → drawobj ∈ state.hw.cmdList
  refs : ∀ drawobj, state.hw.held drawobj = state.hw.cmdList.count drawobj
    + if state.hw.bigCmdobj = some drawobj then (1 : Int) else 0
  waiting : ∀ context, (state.context context).isBad = false →
    (state.context context).drawctxt.Filled → state.HasJob context

structure Kept (state : SchedState) : Prop where
  books : state.hw.Books state.hw.cmdList
  sound : ∀ context, (state.context context).drawctxt.toDrawqueue.Sound
  waiting : ∀ context, (state.context context).isBad = false →
    (state.context context).drawctxt.Filled → state.HasJob context
  fits : ∀ walk context count drawobj, state.dispatcher = .holding walk context count drawobj →
    AdrenoHwsched.oversized drawobj = true → state.hw.bigCmdobj = none

namespace Kept

theorem booked (kept : state.Kept) : state.Booked where
  inflight := kept.books.counted
  vote := kept.books.vote
  powered := kept.books.powered
  bigCmdobj drawobj is := (kept.books.big drawobj is).2
  refs := kept.books.refs
  waiting := kept.waiting

theorem init : (init priority userGeneratedTs objs).Kept where
  books := ⟨rfl, rfl, fun some => absurd some (lt_irrefl 0), (by nofun), fun _ => rfl⟩
  sound _ := ⟨[], .nil (Nat.zero_lt_succ 127)⟩
  waiting _ _ filled := absurd rfl filled
  fits := by nofun

theorem update (kept : state.Kept) (id : Nat) (contexts : after.context = update state.context id changed)
    (books : after.hw.Books after.hw.cmdList) (sound : changed.drawctxt.toDrawqueue.Sound)
    (jobs : ∀ other, other ≠ id → state.HasJob other → after.HasJob other)
    (job : changed.isBad = false → changed.drawctxt.Filled → after.HasJob id)
    (fits : ∀ walk context count drawobj, after.dispatcher = .holding walk context count drawobj →
      AdrenoHwsched.oversized drawobj = true → after.hw.bigCmdobj = none) : after.Kept where
  books := books
  sound := by
    rw [contexts]
    exact (forall_update_iff _ fun _ (context : KgslContext) =>
      context.drawctxt.toDrawqueue.Sound).mpr ⟨sound, fun other _ => kept.sound other⟩
  waiting := by
    rw [contexts]
    exact (forall_update_iff _ fun other (context : KgslContext) =>
      context.isBad = false → context.drawctxt.Filled → after.HasJob other).mpr
      ⟨job, fun other apart good filled => jobs other apart (kept.waiting other good filled)⟩
  fits := fits

theorem moved (kept : state.Kept) (contexts : after.context = state.context) (hw : after.hw = state.hw)
    (jobs : ∀ other, (state.context other).isBad = false → state.HasJob other → after.HasJob other)
    (fits : ∀ walk context count drawobj, after.dispatcher ≠ .holding walk context count drawobj) : after.Kept where
  books := hw ▸ kept.books
  sound := contexts ▸ kept.sound
  waiting other := by
    rw [contexts]
    exact fun good filled => jobs other good (kept.waiting other good filled)
  fits _ _ _ _ is := absurd is (fits _ _ _ _)

theorem setHw (kept : state.Kept) {hw : AdrenoHwsched} (books : hw.Books hw.cmdList)
    (small : state.hw.bigCmdobj = none → hw.bigCmdobj = none) : Kept { state with hw := hw } where
  books := books
  sound := kept.sound
  waiting := kept.waiting
  fits walk context count drawobj is large := small (kept.fits walk context count drawobj is large)

theorem listed_update (context id : Nat) (mem : other ∈ lists place) :
    other ∈ Function.update lists id (context :: lists id) place := by
  by_cases same : place = id
  · rw [same] at mem ⊢
    rw [Function.update_self]
    exact mem_cons_of_mem _ mem
  · rw [update_of_ne same]
    exact mem

theorem own_update (context id : Nat) : context ∈ Function.update lists id (context :: lists id) id := by
  rw [update_self]
  exact mem_cons_self ..

theorem addJob_hasJob (context : Nat) : (state.addJob context).HasJob context :=
  .inl ⟨(state.context context).priority, .inl (own_update context _)⟩

theorem addJob_keeps (context : Nat) (job : state.HasJob other) : (state.addJob context).HasJob other := by
  obtain ⟨id, mem | again⟩ | hands := job
  · exact .inl ⟨id, .inl (listed_update context _ mem)⟩
  · exact .inl ⟨id, .inr again⟩
  · exact .inr hands

section

variable (kept : state.Kept)
include kept

theorem queueCmds (batch : Batch) : (state.queueCmds context batch).Kept := by
  unfold SchedState.queueCmds
  dsimp only
  split
  · have sound := kept.sound context
    obtain ⟨answer, queue⟩ | ⟨answer, queue⟩ := (state.context context).drawctxt.queueBatch_cases batch
    · generalize (state.context context).drawctxt.queueBatch batch = result at answer queue
      obtain ⟨drawctxt, _⟩ := result
      cases answer
      refine kept.update context rfl kept.books ?_ (fun other _ job => addJob_keeps context job)
        (fun _ _ => addJob_hasJob context) kept.fits
      have pushed : drawctxt.toDrawqueue = _ := queue
      rw [pushed]
      exact sound.pushes
    · generalize (state.context context).drawctxt.queueBatch batch = result at answer queue
      obtain ⟨drawctxt, answered⟩ := result
      have same : drawctxt.toDrawqueue = (state.context context).drawctxt.toDrawqueue := queue
      have unqueued : (state.setDrawctxt context drawctxt).Kept := by
        refine kept.update context rfl kept.books (same ▸ sound) (fun _ _ job => job)
          (fun good filled => kept.waiting context good ?_) kept.fits
        unfold Drawctxt.Filled at filled ⊢
        rw [← same]
        exact filled
      cases answered with
      | queued => exact absurd rfl answer
      | retired => exact unqueued
      | refused => exact unqueued
  · exact kept

theorem setBad (bad : changed.isBad = true) (drawctxt : changed.drawctxt = (state.context context).drawctxt) :
    (state.setContext context changed).Kept := by
  refine kept.update context rfl kept.books (drawctxt ▸ kept.sound context)
    (fun _ _ job => job) (fun good => ?_) kept.fits
  rw [bad] at good
  cases good

theorem takeJobs (idle : state.dispatcher = .idle) : Kept { state with
    requeue := Function.update state.requeue id []
    jobs := Function.update state.jobs id []
    dispatcher := .walking ⟨id, [], (state.requeue id).reverse ++ (state.jobs id).reverse⟩ } := by
  refine kept.moved rfl rfl (fun other _ job => ?_) (by nofun)
  obtain ⟨place, mem⟩ | hands := job
  · by_cases same : place = id
    · subst same
      refine .inr ⟨?_, not_mem_nil⟩
      rw [mem_append, mem_reverse, mem_reverse]
      exact mem.symm
    · refine .inl ⟨place, ?_⟩
      show other ∈ Function.update state.jobs id [] place ∨ other ∈ Function.update state.requeue id [] place
      rw [Function.update_of_ne same, Function.update_of_ne same]
      exact mem
  · rw [idle] at hands
    cases hands

theorem nextJob (walking : state.dispatcher = .walking walk) : (state.nextJob walk).Kept := by
  unfold SchedState.nextJob
  split
  · rename_i none
    refine kept.moved rfl rfl (fun other _ job => job.imp_right fun hands => ?_) (by nofun)
    rw [walking] at hands
    exact absurd (none ▸ hands.1) not_mem_nil
  rename_i curr rest jobs
  dsimp only
  split
  · rename_i skipped
    refine kept.moved rfl rfl (fun other good job => job.imp_right fun hands => ?_) (by nofun)
    rw [walking] at hands
    obtain ⟨mem, unseen⟩ := hands
    refine ⟨?_, unseen⟩
    rw [jobs, mem_cons] at mem
    refine mem.resolve_left fun same => ?_
    rw [← same, good, Bool.false_or, contains_iff_mem] at skipped
    exact unseen skipped
  · refine kept.moved rfl rfl (fun other _ job => job.imp_right fun hands => ?_) (by nofun)
    rw [walking] at hands
    obtain ⟨mem, unseen⟩ := hands
    rw [jobs, mem_cons] at mem
    by_cases same : other = curr
    · exact .inl same
    · refine .inr ⟨mem.resolve_left same, fun seen => ?_⟩
      rw [mem_cons] at seen
      exact seen.elim same unseen

theorem finish {ret : Int} (finishing : state.dispatcher = .finishing walk context ret) :
    (state.finish walk context ret).Kept := by
  unfold SchedState.finish
  split
  · rename_i dropped
    refine kept.moved rfl rfl (fun other _ job => job.imp_right fun hands => ?_) (by nofun)
    rw [finishing] at hands
    exact hands.resolve_left fun own => dropped.elim own.2.1 own.2.2
  split
  · refine kept.moved rfl rfl (fun other _ job => ?_) (by nofun)
    obtain ⟨place, mem | again⟩ | hands := job
    · exact .inl ⟨place, .inl mem⟩
    · exact .inl ⟨place, .inr (listed_update context _ again)⟩
    · rw [finishing] at hands
      obtain own | later := hands
      · rw [own.1]
        exact .inl ⟨walk.id, .inr (own_update context _)⟩
      · exact .inr later
  · refine kept.moved rfl rfl (fun other _ job => ?_) (by nofun)
    obtain ⟨place, mem | again⟩ | hands := job
    · exact .inl ⟨place, .inl (listed_update context _ mem)⟩
    · exact .inl ⟨place, .inr again⟩
    · rw [finishing] at hands
      obtain own | later := hands
      · rw [own.1]
        exact .inl ⟨walk.id, .inl (own_update context _)⟩
      · exact .inr later

theorem next (sending : state.dispatcher = .sending walk context count) (around : Surroundings) :
    (state.next walk context count around).Kept := by
  have others : ∀ other, other ≠ context → state.HasJob other →
      (∃ id, other ∈ state.jobs id ∨ other ∈ state.requeue id) ∨ walk.Has other := by
    intro other apart job
    refine job.imp_right fun hands => ?_
    rw [sending] at hands
    exact hands.resolve_left apart
  obtain ⟨items, ring⟩ := kept.sound context
  have walks : ∃ rest, (state.context context).drawctxt.Walked items
      ((state.context context).drawctxt.processDrawqueueGetNextDrawobj
        { around with bigCmdobj := state.hw.bigCmdobj.isSome }) rest := Drawctxt.process_walked ring
  have small : ∀ drawobj, ((state.context context).drawctxt.processDrawqueueGetNextDrawobj
      { around with bigCmdobj := state.hw.bigCmdobj.isSome }).next = .drawobj drawobj →
      AdrenoHwsched.oversized drawobj = true → state.hw.bigCmdobj.isSome = false :=
    fun drawobj found => Drawctxt.process_small found
  obtain ⟨rest, walked⟩ := walks
  unfold SchedState.next
  dsimp only
  generalize (state.context context).drawctxt.processDrawqueueGetNextDrawobj _ = processed at *
  have stopped : ∀ ret, (processed.next = .null ∨ ret ≠ 0 ∧ ret ≠ enoent) →
      Kept { state.setDrawctxt context processed.ctx with dispatcher := .finishing walk context ret } := by
    intro ret why
    refine kept.update context rfl kept.books ⟨rest, walked.ring⟩
      (fun other apart job => (others other apart job).imp_right .inr) (fun _ filled => ?_) (by nofun)
    obtain null | returned := why
    · have empty := walked.empty null
      exact absurd (walked.ring.empty_iff.mpr empty) filled
    · exact .inr (.inl ⟨rfl, returned⟩)
  split
  · rename_i drawobj is
    obtain ⟨later, rfl⟩ := head?_eq_some_iff.mp (walked.front drawobj is)
    have contexts : ((state.setDrawctxt context processed.ctx).setDrawctxt context
        processed.ctx.popDrawobj).context = Function.update state.context context
          { state.context context with drawctxt := processed.ctx.popDrawobj } := by
      unfold SchedState.setDrawctxt SchedState.setContext
      dsimp only
      rw [Function.update_idem, Function.update_self]
    refine kept.update context contexts kept.books ⟨later, walked.ring.pop⟩
      (fun other apart job => (others other apart job).imp_right .inr) (fun _ _ => .inr (.inl rfl))
      fun _ _ _ held is' large => ?_
    cases is'
    have none := small drawobj is large
    exact Option.not_isSome_iff_eq_none.mp (Bool.eq_false_iff.mp none)
  · exact stopped eagain (.inr (by decide))
  · exact stopped enospc (.inr (by decide))
  · rename_i found again full
    refine stopped count (.inl ?_)
    cases is : processed.next with
    | null => rfl
    | drawobj drawobj => exact absurd is (found drawobj)
    | again => exact absurd is again
    | noSpace => exact absurd is full
    | endless => exact absurd is walked.ends

theorem sendcmd (holding : state.dispatcher = .holding walk context count drawobj)
    (guarded : answers.submitDrawobj = enoent → (state.context context).detached = true)
    (careful : state.careful (.sendcmd answers) = true) : (state.sendcmd walk context count drawobj answers).Kept := by
  have others : ∀ other, other ≠ context → state.HasJob other →
      (∃ id, other ∈ state.jobs id ∨ other ∈ state.requeue id) ∨ walk.Has other := by
    intro other apart job
    refine job.imp_right fun hands => ?_
    rw [holding] at hands
    exact hands.resolve_left apart
  have bad : (state.hw.sendcmd drawobj answers (state.context context).detached).2 = enoent →
      (state.context context).isBad = true := by
    intro failed
    obtain detached | refused | ⟨alloc, running, unpowered, denied⟩ :=
      AdrenoHwsched.sendcmd_enoent failed
    · rw [KgslContext.isBad, detached, Bool.true_or]
    · rw [KgslContext.isBad, guarded refused, Bool.true_or]
    · rw [SchedState.careful, holding] at careful
      rw [alloc, running, unpowered, denied] at careful
      simpa using careful
  have books := kept.books.sendcmd answers (state.context context).detached
    (kept.fits walk context count drawobj holding)
  unfold SchedState.sendcmd
  dsimp only
  generalize state.hw.sendcmd drawobj answers (state.context context).detached = result at bad books
  obtain ⟨hw, ret⟩ := result
  have stays : Function.update state.context context (state.context context) = state.context :=
    Function.update_eq_self _ _
  have ended : ∀ ret, (state.context context).isBad = true →
      Kept { state with hw := hw, dispatcher := .finishing walk context ret } := by
    intro ret bad
    refine kept.update context stays.symm books (kept.sound context)
      (fun other apart job => (others other apart job).imp_right .inr) (fun good => ?_) (by nofun)
    rw [bad] at good
    cases good
  split
  · exact kept.update context stays.symm books (kept.sound context)
      (fun other apart job => (others other apart job).imp_right .inr) (fun _ _ => .inr (.inl rfl)) (by nofun)
  split
  · rename_i failed
    exact ended enoent (bad failed)
  split
  · rename_i bad
    exact ended enoent bad
  rename_i failed found _
  have sound : ((state.context context).drawctxt.requeueDrawobj drawobj).toDrawqueue.Sound := by
    rw [Drawctxt.requeueDrawobj_queue]
    exact (kept.sound context).putBack
  exact kept.update context rfl books sound (fun other apart job => (others other apart job).imp_right .inr)
    (fun _ _ => .inr (.inl ⟨rfl, failed, found⟩)) (by nofun)

theorem step {action : SchedAction} (careful : state.careful action = true)
    (taken : state.step action = some after) : after.Kept := by
  cases action with
  | queueCmds context batch =>
    cases taken
    exact kept.queueCmds batch
  | queueContext context =>
    rw [SchedState.step, Option.some.injEq] at taken
    subst taken
    split
    · exact kept
    · exact kept.update context (update_eq_self ..).symm kept.books (kept.sound context)
        (fun _ _ job => addJob_keeps context job) (fun _ _ => addJob_hasJob context) kept.fits
  | detach context =>
    cases taken
    exact kept.setBad rfl rfl
  | invalidate context =>
    cases taken
    refine kept.setBad (Bool.or_true _) rfl
  | complete context eoptimestamp =>
    cases taken
    exact kept.update context rfl kept.books (kept.sound context) (fun _ _ job => job) (kept.waiting context) kept.fits
  | takeJobs id =>
    rw [SchedState.step] at taken
    split at taken
    · rename_i idle
      cases taken
      exact kept.takeJobs idle
    · cases taken
  | nextJob =>
    rw [SchedState.step] at taken
    split at taken
    · rename_i walking
      cases taken
      exact kept.nextJob walking
    · cases taken
  | next around =>
    rw [SchedState.step] at taken
    split at taken
    · rename_i sending
      cases taken
      exact kept.next sending around
    · cases taken
  | sendcmd answers =>
    rw [SchedState.step] at taken
    split at taken
    · rename_i holding
      split at taken
      · cases taken
      · rename_i answered
        cases taken
        refine kept.sendcmd holding (fun refused => ?_) careful
        rw [Bool.and_eq_true, decide_eq_true_eq, Bool.not_eq_true'] at answered
        exact Bool.not_eq_false _ |>.mp fun attached => answered ⟨refused, attached⟩
    · cases taken
  | finish =>
    rw [SchedState.step] at taken
    split at taken
    · rename_i finishing
      cases taken
      exact kept.finish finishing
    · cases taken
  | retire looks =>
    cases taken
    exact kept.setHw (kept.books.retireDrawobjList careful) AdrenoHwsched.retireDrawobjList_big
  | replay looks =>
    cases taken
    exact kept.setHw (kept.books.replay careful) AdrenoHwsched.replay_big
  | powerDown =>
    rw [SchedState.step] at taken
    split at taken
    · rename_i none
      cases taken
      refine kept.setHw ?_ AdrenoHwsched.powerDown_big.trans
      rw [AdrenoHwsched.powerDown_cmdList]
      exact kept.books.powerDown none
    · cases taken

end

end Kept

/-- The books are right in every state of a run whose steps are careful. -/
theorem runs_booked (priority : Nat → Nat) (userGeneratedTs : Nat → Bool) (objs : Nat → DrawobjState)
    (state : SchedState) (reached : Reachable step (fun state action => state.careful action = true)
      (init priority userGeneratedTs objs) state) : state.Booked := by
  have kept : state.Kept := reached.invariant Kept .init
    fun _ _ _ before careful taken => before.step careful taken
  exact kept.booked

def profiledCmd : Drawobj := ⟨0, .cmdobj, hwschedMaxDispatchNumibs + 1, false, false, true⟩

def profiledBatch : Batch where
  objects := [profiledCmd]
  userTs := 0
  formed _ listed := absurd listed List.not_mem_nil

def sent : SendAnswers := ⟨false, false, 0, 0⟩

def allReached (mapped : Bool) : Looks := ⟨fun _ => true, fun _ => false, fun _ => false, fun _ => mapped⟩

theorem runs_booked_retired : ∃ state, Reachable step (fun state action => state.careful action = true)
      (init (fun _ => 0) (fun _ => false) QueueState.newObjs) state ∧
      state.jobs 0 = [0] ∧ state.hw.held profiledCmd = 0 ∧ state.Booked :=
  reaches [.queueCmds 0 profiledBatch, .takeJobs 0, .nextJob, .next QueueState.firstReady, .sendcmd sent,
    .next QueueState.firstReady, .finish, .retire (allReached true)]
    (fun state => state.jobs 0 = [0] ∧ state.hw.held profiledCmd = 0) (by decide +kernel)
    fun state reached ⟨jobs, held⟩ => ⟨jobs, held, runs_booked _ _ _ state reached⟩

/-- The command is retired, its profiling buffer cannot be looked at, and it stays the oversized one. -/
theorem unmapped_stays_big : ¬∀ priority userGeneratedTs objs state,
    Reachable step (fun _ _ => True) (init priority userGeneratedTs objs) state → state.Booked := by
  intro always
  obtain ⟨state, booked, big, list⟩ := holds_after (always (fun _ => 0) (fun _ => false) QueueState.newObjs)
    [.queueCmds 0 profiledBatch, .takeJobs 0, .nextJob, .next QueueState.firstReady, .sendcmd sent,
      .next QueueState.firstReady, .finish, .retire (allReached false)]
    (fun state => state.hw.bigCmdobj = some profiledCmd ∧ state.hw.cmdList = []) (by decide +kernel)
  have listed := booked.bigCmdobj profiledCmd big
  rw [list] at listed
  exact List.not_mem_nil listed

end SchedState

end KernelModules.Hwsched

import KernelModules.Synx.Marking

namespace KernelModules.Synx

open List hiding after all count
open Function

/-! # Merging

A merge gives the composite entry its children, or takes the marks out again when a child has no
free place.
-/

instance (mem : SynxSharedMem) (idx : Nat) : Decidable (mem.Live idx) :=
  inferInstanceAs (Decidable (idx ≠ 0 ∧ (mem.table idx).handle ≠ 0))

def SynxSharedMem.orphan (mem : SynxSharedMem) (idx : Nat) : Bool :=
  (mem.table idx).parents.all fun parent => decide (parent = 0)

/-- The counters have room, and whether the composite is completed only changes while it has no parents and is not
its own child. -/
def SynxSharedMem.joins (mem : SynxSharedMem) (idxList : List Nat) (pIdx : Nat) : Bool :=
  let entry := mem.table pIdx
  let children := entry.numChild.toNat + mem.openChildren idxList
  decide (children < 65536) && (decide (children = 0) || decide (entry.refcount.toNat < 65535)) &&
    ((entry.completed == decide (children = 0)) || (mem.orphan pIdx && decide (pIdx ∉ idxList)))

/-- The error path takes out the marks: all of them where a child is not completed, and no more where it would be
the last one. -/
def SynxSharedMem.rollsBack (mem : SynxSharedMem) (idxList : List Nat) (pIdx : Nat) : Bool :=
  let placed := mem.placed [] idxList
  let taken := mem.openChildren (idxList.take (placed + 1))
  idxList.all fun idx =>
    let listing := (mem.table idx).parents.count pIdx
    let marks := listing + (idxList.take placed).count idx
    if (mem.table idx).completed then decide (listing = 0) || decide ((idxList.take taken).count idx < marks)
    else decide (marks - (idxList.take taken).count idx = listing)

open SynxSharedMem hiding bitmap cleared put rollsBack

def SynxSharedMem.mergeable (mem : SynxSharedMem) (idxList : List Nat) (pIdx : Nat) : Bool :=
  !synxIsValidIdx pIdx || idxList.isEmpty ||
    (decide (mem.Live pIdx) && (idxList.all fun idx => decide (mem.Live idx)) &&
      if mem.placed [] idxList < idxList.length then mem.rollsBack idxList pIdx
      else mem.joins idxList pIdx)

section Merge

variable {idxs : List Nat} {mem after : SynxSharedMem}

section

variable (reparented : Reparented idxs mem after)
include reparented

theorem Reparented.live (child : Nat) : after.Live child ↔ mem.Live child := by
  unfold SynxSharedMem.Live
  rw [reparented.kept child]

theorem Reparented.incarnation (child : Nat) : after.incarnation child = mem.incarnation child := by
  unfold SynxSharedMem.incarnation
  rw [reparented.cleared]

theorem Reparented.hasCompleted : after.hasCompleted = mem.hasCompleted := by
  funext member
  unfold SynxSharedMem.hasCompleted
  rw [reparented.cleared, reparented.completed]

theorem Reparented.pending (listed : List Incarnation) : after.pending listed = mem.pending listed :=
  pending_congr fun member _ => congrFun reparented.hasCompleted member

end

theorem Reparented.trans (first : Reparented idxs mem between) (second : Reparented later between after) :
    Reparented (idxs ++ later) mem after where
  bitmap := second.bitmap.trans first.bitmap
  cleared := second.cleared.trans first.cleared
  kept := by
    intro child
    rw [second.kept child, first.kept child]
  untouched := by
    intro child absent
    rw [mem_append, not_or] at absent
    rw [second.untouched child absent.2, first.untouched child absent.1]

theorem Reparented.bits (reparented : Reparented idxs mem after)
    (alive : ∀ idx ∈ idxs, mem.Live idx) (bits : Bits mem []) : Bits after [] := by
  have zero (idx : Nat) : after.table idx = .zero ↔ mem.table idx = .zero := by
    by_cases among : idx ∈ idxs
    · exact iff_of_false ((reparented.live idx).mpr (alive idx among)).nonzero (alive idx among).nonzero
    · rw [reparented.untouched idx among]
  refine ⟨?_, ?_, ?_, bits.clearable⟩
  · intro idx pos lt
    rw [zero, reparented.bitmap]
    exact bits.zeroed idx pos lt
  · intro idx ne
    rw [ne_eq, zero] at ne
    rw [reparented.kept idx]
    exact bits.handled idx ne
  · rw [reparented.bitmap]
    exact bits.root

theorem Reparented.books (reparented : Reparented idxs mem after) (books : Books mem members holders [])
    (same : ∀ child, mem.Live child → (mem.table child).completed = false → ∀ q, q ≠ 0 →
      (after.table child).parents.count q = (mem.table child).parents.count q)
    (kept : ∀ child, mem.Live child → ∀ q, q ≠ 0 → q ∈ (mem.table child).parents →
      q ∈ (after.table child).parents) : Books after members holders [] := by
  refine books.carried reparented.live reparented.cleared
    (fun _ _ member _ uncompleted => congrFun reparented.hasCompleted member ▸ uncompleted)
    (fun child alive uncompleted => ?_) kept (fun p alive => ?_) (fun p among => absurd among not_mem_nil)
    books.unheld fun p alive => ?_
  · rw [reparented.completed] at uncompleted
    exact ⟨uncompleted, same child alive uncompleted⟩
  · rw [reparented.pending, reparented.kept p]
    exact books.counted p alive
  · rw [reparented.kept p]
    exact books.refs p alive

theorem mergedStatus_signaled (signaled : child.status ≠ synxStateActive) :
    mergedStatus parentStatus child ≠ synxStateActive := by
  unfold mergedStatus
  rw [if_neg signaled]
  by_cases error : synxStateSignaledSuccess < child.status ∧ child.status ≤ synxStateSignaledMax
  · rw [if_pos error]
    exact signaled
  rw [if_neg error]
  by_cases active : parentStatus = synxStateActive
  · rw [if_pos active]
    exact signaled
  · rw [if_neg active]
    exact active

theorem markChildren_completed (pIdx : Nat) (done : ∀ idx ∈ idxs, (mem.table idx).completed = true)
    (numChild status : Nat) (rc : Option SynxError)
    (placed : (markChildren pIdx idxs mem numChild status rc).failed = false)
    (signaled : idxs ≠ [] ∨ status ≠ synxStateActive) :
    (markChildren pIdx idxs mem numChild status rc).parentStatus ≠ synxStateActive := by
  induction idxs generalizing mem numChild status rc with
  | nil =>
    rcases signaled with children | signaled
    · exact absurd rfl children
    · exact signaled
  | cons idx rest ih =>
    rw [markChildren] at placed ⊢
    by_cases invalid : (!synxIsValidIdx idx) = true
    · rw [if_pos invalid] at placed
      exact Bool.noConfusion placed
    rw [if_neg invalid] at placed ⊢
    by_cases free : 0 ∈ (mem.table idx).parents
    · rw [if_pos free] at placed ⊢
      have child := done idx mem_cons_self
      have status := of_decide_eq_true (Bool.and_eq_true_iff.mp child).1
      apply ih _ _ _ _ placed (.inr (mergedStatus_signaled status))
      intro other among
      have same : ((mem.put idx ((mem.table idx).withParent pIdx)).table other).completed =
          (mem.table other).completed := (Reparented.refl.put _).completed other
      rw [same]
      exact done other (mem_cons_of_mem _ among)
    · rw [if_neg free] at placed
      exact Bool.noConfusion placed

theorem SynxSharedMem.placed_le (mem : SynxSharedMem) (marks idxs : List Nat) :
    mem.placed marks idxs ≤ idxs.length := by
  induction idxs generalizing marks with
  | nil => exact le_refl _
  | cons idx rest ih =>
    rw [placed]
    by_cases room : marks.count idx < (mem.table idx).parents.count 0
    · rw [if_pos room]
      exact Nat.succ_le_succ (ih _)
    · rw [if_neg room]
      exact Nat.zero_le _

theorem synxGlobalMerge_unplaced (books : Books mem members holders []) (bits : Bits mem [])
    (parent : mem.Live pIdx) (children : ∀ idx ∈ idxList, mem.Live idx)
    (short : mem.placed [] idxList < idxList.length) (rollsBack : mem.rollsBack idxList pIdx = true) :
    ∃ after, synxGlobalMerge mem idxList pIdx = (after, some .nomem) ∧
      Books after members holders [] ∧ Bits after [] := by
  obtain ⟨marked, failed, counted, error⟩ := markChildren_marked parent.1
    (fun idx among => bits.valid (children idx among)) (Marked.refl pIdx mem) 0 synxStateActive
    (some .invalid)
  rw [decide_eq_true short] at failed
  rw [failed, if_pos rfl] at error
  rw [nil_append] at marked
  rw [zero_add] at counted
  let marking := markChildren pIdx idxList mem 0 synxStateActive (some .invalid)
  have unmarked := unmarkChildren_unmarked parent.1 (idxList.take marking.numChild) marking.mem
  have both := marked.reparented.trans unmarked.reparented
  have others (child q : Nat) (ne : q ≠ 0) (other : q ≠ pIdx) :=
    (unmarked.others child q ne other).trans (marked.others child q ne other)
  have marks (child : Nat) := unmarked.counts child
  have rule (child : Nat) (among : child ∈ idxList) := all_eq_true.mp rollsBack child among
  have absent (child : Nat) (apart : child ∉ idxList) (len : Nat) : (idxList.take len).count child = 0 :=
    count_eq_zero.mpr fun among => apart (mem_of_mem_take among)
  refine ⟨unmarkChildren pIdx (idxList.take marking.numChild) marking.mem, ?_, ?_, ?_⟩
  · unfold synxGlobalMerge
    have listed : idxList ≠ [] := by
      intro none
      rw [none] at short
      exact absurd short (Nat.not_lt_zero _)
    rw [bits.valid parent, if_neg (by decide), if_neg listed]
    rw [if_pos failed, error]
  · apply both.books books
    · intro child alive uncompleted q ne
      by_cases same : q = pIdx
      · rw [same, marks child, marked.counts child, counted]
        by_cases among : child ∈ idxList
        · have exactly := rule child among
          rw [uncompleted, if_neg (by decide), decide_eq_true_iff] at exactly
          exact exactly
        · rw [absent child among, absent child among, add_zero, Nat.sub_zero]
      · exact others child q ne same
    · intro child alive q ne listed
      apply count_pos_iff.mp
      have before := count_pos_iff.mpr listed
      by_cases same : q = pIdx
      · rw [same] at before ⊢
        rw [marks child, marked.counts child, counted]
        by_cases among : child ∈ idxList
        · have exactly := rule child among
          by_cases done : (mem.table child).completed = true
          · rw [if_pos done, Bool.or_eq_true, decide_eq_true_iff, decide_eq_true_iff] at exactly
            omega
          · rw [if_neg done, decide_eq_true_iff] at exactly
            omega
        · rw [absent child among, absent child among]
          exact before
      · rw [others child q ne same]
        exact before
  · apply both.bits _ bits
    intro idx among
    rcases mem_append.mp among with put | taken
    · exact children idx (mem_of_mem_take put)
    · exact children idx (mem_of_mem_take taken)

theorem incarnation_injective (mem : SynxSharedMem) : Function.Injective mem.incarnation := by
  intro first second same
  exact congrArg Incarnation.index same

theorem SynxSharedMem.pending_append (mem : SynxSharedMem) (listed : List Incarnation) (idxs : List Nat) :
    mem.pending (listed ++ idxs.map mem.incarnation) = mem.pending listed + mem.openChildren idxs := by
  unfold pending
  rw [countP_append, countP_map]
  congr 1
  apply countP_congr
  intro idx _
  rw [comp_apply, hasCompleted_now]

theorem Books.join (books : Books mem members holders []) (marked : Marked pIdx idxList mem between)
    (parent : mem.Live pIdx) (children : ∀ idx ∈ idxList, mem.Live idx) (entry : SynxGlobalCoredata)
    (handle : entry.handle = (mem.table pIdx).handle) (parents : entry.parents = (between.table pIdx).parents)
    (numChild : entry.numChild.toNat = (mem.table pIdx).numChild.toNat + mem.openChildren idxList)
    (refs : holders pIdx + (if entry.numChild ≠ 0 then 1 else 0) ≤ entry.refcount.toNat)
    (still : entry.completed = (mem.table pIdx).completed ∨ (mem.orphan pIdx = true ∧ pIdx ∉ idxList)) :
    Books (between.put pIdx entry) (update members pIdx (members pIdx ++ idxList.map mem.incarnation)) holders [] := by
  have reparented := marked.reparented
  have live (child : Nat) : (between.put pIdx entry).Live child ↔ mem.Live child := by
    rw [put_live entry (by rw [handle, reparented.kept pIdx]), reparented.live]
  have inc (child : Nat) : (between.put pIdx entry).incarnation child = mem.incarnation child :=
    reparented.incarnation child
  have parentsOf (child : Nat) : ((between.put pIdx entry).table child).parents = (between.table child).parents := by
    by_cases here : child = pIdx
    · rw [here, put_here, parents]
    · rw [put_other here]
  have otherOf (child : Nat) (apart : child ≠ pIdx) : (between.put pIdx entry).table child =
      { mem.table child with parents := (between.table child).parents } := by
    rw [put_other apart]
    exact reparented.kept child
  -- An entry without parents is no one's child.
  have unlisted (alone : mem.orphan pIdx = true) (q : Nat) (alive : mem.Live q) : mem.incarnation pIdx ∉ members q := by
    intro among
    have listed := books.marked pIdx parent q alive among
    exact alive.1 (of_decide_eq_true (all_eq_true.mp alone q listed))
  have memberOf (q : Nat) (member : Incarnation) (among : member ∈ update members pIdx
        (members pIdx ++ idxList.map mem.incarnation) q) :
      member ∈ members q ∨ (q = pIdx ∧ ∃ idx ∈ idxList, mem.incarnation idx = member) := by
    by_cases here : q = pIdx
    · rw [here, update_self, mem_append, mem_map] at among
      rcases among with old | new
      · exact .inl (here ▸ old)
      · exact .inr ⟨here, new⟩
    · rw [update_of_ne here] at among
      exact .inl among
  have agedAs (q : Nat) (alive : mem.Live q) (member : Incarnation) (among : member ∈ update members pIdx
        (members pIdx ++ idxList.map mem.incarnation) q) :
      member.life ≤ (mem.cleared member.index).length ∧
        (member.life = (mem.cleared member.index).length → mem.Live member.index) := by
    rcases memberOf q member among with old | ⟨_, idx, listed, same⟩
    · exact books.aged q alive member old
    · subst same
      exact ⟨le_rfl, fun _ => children idx listed⟩
  have doneAs (q : Nat) (alive : mem.Live q) (member : Incarnation) (among : member ∈ update members pIdx
        (members pIdx ++ idxList.map mem.incarnation) q) :
      (between.put pIdx entry).hasCompleted member = mem.hasCompleted member := by
    have base : between.hasCompleted member = mem.hasCompleted member :=
      congrFun reparented.hasCompleted member
    rcases still with same | ⟨alone, outside⟩
    · rw [put_hasCompleted (by rw [same, reparented.completed]), base]
    have apart : member ≠ mem.incarnation pIdx := by
      intro same
      rcases memberOf q member among with old | ⟨_, idx, listed, equal⟩
      · exact unlisted alone q alive (same ▸ old)
      · have index := incarnation_injective mem (equal.trans same)
        exact outside (index ▸ listed)
    rw [← base]
    unfold hasCompleted
    rw [put_cleared]
    by_cases here : member.index = pIdx
    · have older : member.life < (between.cleared member.index).length := by
        rw [reparented.cleared]
        apply lt_of_le_of_ne (agedAs q alive member among).1
        intro latest
        exact apart (by rw [incarnation, ← here, ← latest])
      rw [getElem?_eq_getElem older]
    · rw [put_other here]
  have uncompletedOf (child : Nat) (open' : ((between.put pIdx entry).table child).completed = false) :
      (mem.table child).completed = false ∨ (child = pIdx ∧ mem.orphan pIdx = true ∧ pIdx ∉ idxList) := by
    by_cases here : child = pIdx
    · rcases still with same | alone
      · rw [here, put_here, same] at open'
        exact .inl (here ▸ open')
      · exact .inr ⟨here, alone⟩
    · rw [put_other here, reparented.completed] at open'
      exact .inl open'
  have orphanOf (alone : mem.orphan pIdx = true) (q : Nat) (ne : q ≠ 0) : q ∉ (mem.table pIdx).parents := fun among =>
    ne (of_decide_eq_true (all_eq_true.mp alone q among))
  constructor
  case counted =>
    intro q alive
    rw [live] at alive
    rw [pending_congr (doneAs q alive), count_nil, add_zero]
    by_cases here : q = pIdx
    · subst here
      have before := books.counted q parent
      rw [count_nil, add_zero] at before
      rw [put_here, update_self, pending_append, numChild, before]
    · rw [otherOf q here, update_of_ne here]
      exact books.counted q alive
  case notified => exact fun q among => absurd among not_mem_nil
  case current =>
    intro q alive member among uncompleted
    rw [live] at alive
    rw [doneAs q alive member among] at uncompleted
    rw [inc, live]
    rcases memberOf q member among with old | ⟨_, idx, listed, same⟩
    · exact books.current q alive member old uncompleted
    · subst same
      exact ⟨rfl, children idx listed⟩
  case aged =>
    intro q alive member among
    rw [live] at alive
    rw [put_cleared, reparented.cleared, live]
    exact agedAs q alive member among
  case listed =>
    intro child alive uncompleted q parentAlive
    rw [live] at alive parentAlive
    rw [inc, parentsOf]
    by_cases here : q = pIdx
    · subst here
      rw [update_self, count_append, count_map_of_injective _ _ (incarnation_injective mem), marked.counts]
      congr 1
      rcases uncompletedOf child uncompleted with before | ⟨same, alone, _⟩
      · exact books.listed child alive before q parent
      · subst same
        rw [count_eq_zero.mpr (orphanOf alone child parent.1), count_eq_zero.mpr (unlisted alone child parent)]
    · rw [update_of_ne here, marked.others child q parentAlive.1 here]
      rcases uncompletedOf child uncompleted with before | ⟨same, alone, _⟩
      · exact books.listed child alive before q parentAlive
      · subst same
        rw [count_eq_zero.mpr (orphanOf alone q parentAlive.1), count_eq_zero.mpr (unlisted alone q parentAlive)]
  case lively =>
    intro child alive uncompleted q among ne
    rw [live] at alive
    rw [parentsOf] at among
    rw [live]
    by_cases here : q = pIdx
    · exact here ▸ parent
    have listed : q ∈ (mem.table child).parents := by
      apply count_pos_iff.mp
      rw [← marked.others child q ne here]
      exact count_pos_iff.mpr among
    rcases uncompletedOf child uncompleted with before | ⟨same, alone, _⟩
    · exact books.lively child alive before q listed ne
    · exact absurd (same ▸ listed) (orphanOf alone q ne)
  case marked =>
    intro child alive q parentAlive among
    rw [live] at alive parentAlive
    rw [inc] at among
    rw [parentsOf]
    apply count_pos_iff.mp
    by_cases here : q = pIdx
    · rw [here, marked.counts]
      rcases memberOf q _ among with old | ⟨_, idx, listed, same⟩
      · have before := count_pos_iff.mpr (books.marked child alive q parentAlive old)
        rw [here] at before
        omega
      · have among := count_pos_iff.mpr (incarnation_injective mem same ▸ listed)
        omega
    · rw [marked.others child q parentAlive.1 here]
      rcases memberOf q _ among with old | ⟨same, _⟩
      · exact count_pos_iff.mpr (books.marked child alive q parentAlive old)
      · exact absurd same here
  case refs =>
    intro q alive
    rw [live] at alive
    by_cases here : q = pIdx
    · subst here
      rw [put_here]
      exact refs
    · rw [otherOf q here]
      exact books.refs q alive
  case unheld =>
    intro q dead
    rw [live] at dead
    exact books.unheld q dead

theorem numChild_added (room : count.toNat + more < 65536) :
    (count + BitVec.ofNat 16 more).toNat = count.toNat + more := by
  rw [BitVec.toNat_add, BitVec.toNat_ofNat]
  omega

theorem synxGlobalMerge_placed (books : Books mem members holders []) (bits : Bits mem [])
    (parent : mem.Live pIdx) (children : ∀ idx ∈ idxList, mem.Live idx) (listed : idxList ≠ [])
    (placed : ¬ mem.placed [] idxList < idxList.length) (joins : mem.joins idxList pIdx = true) :
    ∃ after, synxGlobalMerge mem idxList pIdx = (after, none) ∧ Books after (update members pIdx
        (members pIdx ++ idxList.map mem.incarnation)) holders [] ∧ Bits after [] := by
  obtain ⟨marked, failed, counted, _⟩ := markChildren_marked parent.1
    (fun idx among => bits.valid (children idx among)) (Marked.refl pIdx mem) 0 synxStateActive
    (some .invalid)
  have all : mem.placed [] idxList = idxList.length :=
    le_antisymm (mem.placed_le [] idxList) (Nat.le_of_not_lt placed)
  have taken : idxList.take (mem.placed [] idxList + 1) = idxList :=
    take_of_length_le (by omega)
  rw [decide_eq_false placed] at failed
  rw [taken, zero_add] at counted
  rw [all, take_length] at marked
  let marking := markChildren pIdx idxList mem 0 synxStateActive (some .invalid)
  let entry := marking.mem.table pIdx
  have same := marked.reparented.kept pIdx
  have numChildSame : entry.numChild = (mem.table pIdx).numChild := congrArg (·.numChild) same
  have refcountSame : entry.refcount = (mem.table pIdx).refcount := congrArg (·.refcount) same
  let numChild := entry.numChild + BitVec.ofNat 16 marking.numChild
  let merged := { entry with
    numChild := numChild
    refcount := if numChild ≠ 0 then entry.refcount + 1 else entry.refcount
    status := marking.parentStatus }
  unfold SynxSharedMem.joins at joins
  simp only [Bool.and_eq_true, Bool.or_eq_true, decide_eq_true_iff, beq_iff_eq] at joins
  obtain ⟨⟨room, refRoom⟩, still⟩ := joins
  have children' : numChild.toNat = (mem.table pIdx).numChild.toNat + mem.openChildren idxList := by
    show (entry.numChild + BitVec.ofNat 16 marking.numChild).toNat = _
    rw [numChildSame, counted]
    exact numChild_added room
  have zero : numChild = 0 ↔ (mem.table pIdx).numChild.toNat + mem.openChildren idxList = 0 := by
    rw [← children']
    exact ⟨fun none => by rw [none]; rfl, fun none => BitVec.eq_of_toNat_eq none⟩
  refine ⟨marking.mem.put pIdx merged, ?_, ?_, ?_⟩
  · unfold synxGlobalMerge
    rw [bits.valid parent, if_neg (by decide), if_neg listed]
    rw [if_neg (by rw [failed]; decide)]
  · apply books.join marked parent children merged (congrArg (·.handle) same) rfl children'
    · have before := books.refs pIdx parent
      dsimp only [merged]
      by_cases none : numChild = 0
      · rw [if_neg (not_not.mpr none), if_neg (not_not.mpr none), refcountSame]
        omega
      · rw [if_pos none, if_pos none, refcountSame]
        have more : ((mem.table pIdx).refcount + 1).toNat = (mem.table pIdx).refcount.toNat + 1 := by
          bv_omega
        omega
    · rcases still with unchanged | alone
      · left
        rw [unchanged]
        unfold SynxGlobalCoredata.completed
        by_cases none : numChild = 0
        · rw [decide_eq_true (zero.mp none)]
          have opened : mem.openChildren idxList = 0 := by
            have total := zero.mp none
            omega
          have signaled := markChildren_completed pIdx (fun idx among => by
              have done := countP_eq_zero.mp opened idx among
              simpa using done) 0 synxStateActive (some .invalid) failed (.inl listed)
          rw [Bool.and_eq_true, decide_eq_true_iff, decide_eq_true_iff]
          exact ⟨signaled, none⟩
        · rw [decide_eq_false fun total => none (zero.mpr total)]
          rw [Bool.and_eq_false_iff]
          exact .inr (decide_eq_false none)
      · exact .inr alone
  · have bitsBetween := marked.reparented.bits children bits
    exact bitsBetween.put ((marked.reparented.live pIdx).mpr parent) rfl

theorem synxStep_merge_failed (called : synxGlobalMerge history.mem idxList pIdx = (after, some error)) :
    synxStep history (.merge idxList pIdx) = some { history with mem := after } := by
  unfold synxStep
  dsimp only
  rw [called]

theorem synxStep_merge_done (called : synxGlobalMerge history.mem idxList pIdx = (after, none)) :
    synxStep history (.merge idxList pIdx) = some { history with
      mem := after
      members := update history.members pIdx (history.members pIdx ++ idxList.map history.mem.incarnation) } := by
  unfold synxStep
  dsimp only
  rw [called]

theorem Kept.merge (kept : Kept history) (mergeable : history.mem.mergeable idxList pIdx = true) :
    ∃ after, synxStep history (.merge idxList pIdx) = some after ∧ Kept after := by
  obtain ⟨books, bits⟩ := kept
  unfold SynxSharedMem.mergeable at mergeable
  by_cases invalid : (!synxIsValidIdx pIdx) = true
  · apply Exists.intro history
    exact ⟨synxStep_merge_failed (by unfold synxGlobalMerge; rw [if_pos invalid]), books, bits⟩
  by_cases empty : idxList = []
  · apply Exists.intro history
    have called : synxGlobalMerge history.mem idxList pIdx = (history.mem, none) := by
      unfold synxGlobalMerge
      rw [if_neg invalid, if_pos empty]
    have nothing := synxStep_merge_done called
    rw [empty, map_nil, append_nil, update_eq_self] at nothing
    rw [empty]
    exact ⟨nothing, books, bits⟩
  · have nonempty : idxList.isEmpty = false := by
      rw [isEmpty_eq_false_iff]
      exact empty
    rw [Bool.eq_false_iff.mpr invalid, nonempty, Bool.false_or, Bool.false_or, Bool.and_eq_true,
      Bool.and_eq_true, decide_eq_true_iff, all_eq_true] at mergeable
    obtain ⟨⟨parent, all⟩, rule⟩ := mergeable
    have children (idx : Nat) (among : idx ∈ idxList) : history.mem.Live idx :=
      of_decide_eq_true (all idx among)
    by_cases short : history.mem.placed [] idxList < idxList.length
    · rw [if_pos short] at rule
      obtain ⟨after, called, booksAfter, bitsAfter⟩ :=
        synxGlobalMerge_unplaced books bits parent children short rule
      exact ⟨_, synxStep_merge_failed called, booksAfter, bitsAfter⟩
    · rw [if_neg short] at rule
      obtain ⟨after, called, booksAfter, bitsAfter⟩ :=
        synxGlobalMerge_placed books bits parent children empty short rule
      exact ⟨_, synxStep_merge_done called, booksAfter, bitsAfter⟩

end Merge

end KernelModules.Synx

import KernelModules.MgmtRx.Counts
import Mathlib.Data.List.TakeWhile

namespace KernelModules.MgmtRx

open Data List ListEntry

/-! # Order of timestamps

Timestamps that are alive compare by their distance from one base, so entries are inserted in order.
-/

def Ordered (stamps : List (BitVec 32)) : Prop :=
  stamps.Pairwise fun first second => compareGlobalTimestampsGte second first = true

def Window (base : BitVec 32) (stamps : List (BitVec 32)) : Prop :=
  ∀ stamp ∈ stamps, Ahead globalTsHalfRange base stamp

section Stamps

variable {base stamp : BitVec 32} {entries : List ListEntry}

theorem timestampsGte_iff (ahead : Ahead globalTsHalfRange base first) (other : Ahead globalTsHalfRange base second) :
    compareGlobalTimestampsGte first second = true ↔ (second - base).toNat ≤ (first - base).toNat := by
  unfold compareGlobalTimestampsGte
  rw [ahead.gte other (by decide), decide_eq_true_iff]

theorem Ordered.insert (ordered : Ordered (earlier ++ later))
    (after : ∀ other ∈ earlier, compareGlobalTimestampsGte stamp other = true)
    (before : ∀ other ∈ later, compareGlobalTimestampsGte other stamp = true) :
    Ordered (earlier ++ stamp :: later) := by
  obtain ⟨first, second, cross⟩ := pairwise_append.mp ordered
  apply pairwise_append.mpr
  refine ⟨first, pairwise_cons.mpr ⟨before, second⟩, ?_⟩
  intro other among newer inLater
  rcases mem_cons.mp inLater with same | rest
  · rw [same]
    exact after other among
  · exact cross other among newer rest

theorem Ordered.split (ordered : Ordered (entries.map globalTs))
    (window : Window base (stamp :: entries.map globalTs)) : (∀ entry ∈ entries.takeWhile (notAfter stamp),
        compareGlobalTimestampsGte stamp entry.globalTs = true) ∧
      ∀ entry ∈ entries.dropWhile (notAfter stamp), compareGlobalTimestampsGte entry.globalTs stamp = true ∧
          compareGlobalTimestampsGte stamp entry.globalTs = false := by
  have here := window stamp mem_cons_self
  have ahead (entry : ListEntry) (among : entry ∈ entries) : Ahead globalTsHalfRange base entry.globalTs :=
    window _ (mem_cons_of_mem _ (mem_map_of_mem among))
  constructor
  · intro entry among
    have older : notAfter stamp entry = true := mem_takeWhile_imp among
    exact older
  · intro entry among
    have mem (entry : ListEntry) (among : entry ∈ entries.dropWhile (notAfter stamp)) :
        entry ∈ entries := (dropWhile_sublist _).subset among
    cases found : entries.dropWhile (notAfter stamp) with
    | nil =>
      rw [found] at among
      exact absurd among not_mem_nil
    | cons least newer =>
      have greater : notAfter stamp least = false := by
        have head := head_dropWhile_not (notAfter stamp) (l := entries) (by rw [found]; exact cons_ne_nil _ _)
        simpa [found] using head
      have leastAhead := ahead least (mem least (by rw [found]; exact mem_cons_self))
      have above : (stamp - base).toNat < (least.globalTs - base).toNat := by
        apply Nat.lt_of_not_le
        intro less
        have not := (timestampsGte_iff here leastAhead).mpr less
        unfold notAfter at greater
        rw [greater] at not
        exact Bool.noConfusion not
      have entryAhead := ahead entry (mem entry among)
      have atLeast : (least.globalTs - base).toNat ≤ (entry.globalTs - base).toNat := by
        rw [found] at among
        rcases mem_cons.mp among with same | rest
        · rw [same]
        have tail : Ordered ((least :: newer).map globalTs) := by
          apply List.Pairwise.sublist _ ordered
          rw [← found]
          exact (dropWhile_sublist _).map _
        exact (timestampsGte_iff entryAhead leastAhead).mp ((pairwise_cons.mp tail).1 _ (mem_map_of_mem rest))
      refine ⟨(timestampsGte_iff entryAhead here).mpr (by omega), ?_⟩
      rw [← Bool.not_eq_true, timestampsGte_iff here entryAhead]
      omega

end Stamps

section Marks

variable {mark : ListEntry → ListEntry} {count : Nat} {entries : List ListEntry} {entry : ListEntry}

theorem mem_markFirst (among : entry ∈ markFirst mark count entries) :
    ∃ plain ∈ entries, entry = plain ∨ entry = mark plain := by
  rcases mem_append.mp among with marked | plain
  · obtain ⟨plain, mem, rfl⟩ := mem_map.mp marked
    exact ⟨plain, mem_of_mem_take mem, .inr rfl⟩
  · exact ⟨entry, mem_of_mem_drop plain, .inl rfl⟩

theorem markFirst_stamps (same : ∀ entry, (mark entry).globalTs = entry.globalTs) :
    (markFirst mark count entries).map globalTs = entries.map globalTs := by
  unfold markFirst
  rw [map_append, map_map]
  have plain : globalTs ∘ mark = globalTs := funext same
  rw [plain, ← map_append, take_append_drop]

theorem handleEgressOverflow_stamps (size : Nat) : (handleEgressOverflow size entries).map globalTs =
      entries.map globalTs := by
  unfold handleEgressOverflow
  split_ifs
  · exact markFirst_stamps fun _ => rfl
  · rfl

theorem mem_handleEgressOverflow (among : entry ∈ handleEgressOverflow size entries) :
    ∃ plain ∈ entries, entry = plain ∨ entry = markEgressOverflow plain := by
  unfold handleEgressOverflow at among
  split_ifs at among
  · exact mem_markFirst among
  · exact ⟨entry, among, .inl rfl⟩

end Marks

def ReoContext.queue (context : ReoContext) : List ListEntry :=
  context.egress ++ context.moving.getD [] ++ context.ingress

/-- The order, that the egress list is ready, the sums of the counts, the flags, the order of what was released, and
that no assertion failed. -/
structure ListsInOrder (context : ReoContext) : Prop where
  sorted : Ordered (context.queue.map globalTs)
  ready : ∀ entry ∈ context.egress, isEntryReadyToSendUp entry = true
  totals : ∀ entry ∈ context.queue, entry.waitCount.totalCount = entry.waitCount.sum
  waits : ∀ entry ∈ context.ingress, (entry.status.waitForFrameOnOtherLinks = true ↔ entry.waitCount.sum ≠ 0)
  released : ∀ release ∈ context.released, release.last.valid = true →
    compareGlobalTimestampsGte release.entry.globalTs
        release.last.reoParams.globalTimestamp = true ∨
      release.entry.isParallelRx = true
  inTurn : context.released.map Release.entry =
    (context.sent ++ ((context.releasing.bind Releasing.sending).toList)).map Prod.fst
  asserts : context.crashed = false

/-- The entry is not older than the last released frame, or it was received in parallel. -/
def Fresh (last : FrameInfo) (stamp : BitVec 32) (isParallelRx : Bool) : Prop :=
  last.valid = true → compareGlobalTimestampsGte stamp last.reoParams.globalTimestamp = true ∨ isParallelRx = true

structure Pending (context : ReoContext) (update : EgressUpdate) : Prop where
  alone : context.moving = none
  link : update.desc.reoParams.linkId < maxMloLinks
  window : ∃ base, Window base
    (update.desc.reoParams.globalTimestamp :: context.ingress.map globalTs)
  stale : update.desc.isStale = true → ∀ entry ∈ context.ingress,
    compareGlobalTimestampsGte update.desc.reoParams.globalTimestamp entry.globalTs = true →
      entry.isParallelRx = true
  entry : ∀ new, update.new = some new → update.desc.isStale = false → update.desc.queuedList ≠ .egress →
      new.reoParams = update.desc.reoParams ∧ new.Counted ∧
        new.reoParams.startTimestamp = new.reoParams.globalTimestamp ∧
        Fresh context.lastReleased new.globalTs update.desc.isParallelRx ∧
        ∀ entry ∈ context.egress, compareGlobalTimestampsGte new.globalTs entry.globalTs = true

structure InOrder (context : ReoContext) : Prop where
  sorted : Ordered (context.queue.map globalTs)
  fresh : ∀ entry ∈ context.queue, Fresh context.lastReleased entry.globalTs entry.isParallelRx
  started : ∀ entry ∈ context.queue, entry.reoParams.startTimestamp = entry.reoParams.globalTimestamp
  lastStarted : context.lastReleased.valid = true →
    context.lastReleased.reoParams.startTimestamp = context.lastReleased.reoParams.globalTimestamp
  ready : ∀ entry ∈ context.egress ++ context.moving.getD [], isEntryReadyToSendUp entry = true
  consistent : ∀ entry ∈ context.queue, entry.waitCount.Consistent
  counted : ∀ entry ∈ context.ingress, entry.Counted
  pending : ∀ update, context.inserting = some update → Pending context update
  released : ∀ release ∈ context.released, Fresh release.last release.entry.globalTs release.entry.isParallelRx
  inTurn : context.released.map Release.entry =
    (context.sent ++ ((context.releasing.bind Releasing.sending).toList)).map Prod.fst
  asserts : context.crashed = false

theorem isStaleFrame_fresh (desc : FrameDescriptor)
    (started : desc.reoParams.startTimestamp = desc.reoParams.globalTimestamp)
    (lastStarted : last.valid = true → last.reoParams.startTimestamp = last.reoParams.globalTimestamp) :
    ((isStaleFrame last desc).isStale = true → last.valid = true ∧
        compareGlobalTimestampsGte desc.reoParams.globalTimestamp last.reoParams.globalTimestamp = false) ∧
      ((isStaleFrame last desc).isStale = false → desc.reoRequired = true →
        Fresh last desc.reoParams.globalTimestamp (isStaleFrame last desc).isParallelRx) := by
  unfold isStaleFrame Fresh
  by_cases required : desc.reoRequired = true
  · by_cases valid : last.valid = true
    · have same := lastStarted valid
      simp only [required, valid, Bool.not_true, Bool.false_eq_true, if_false, started, same]
      by_cases parallel : (compareGlobalTimestampsGte last.reoParams.globalTimestamp desc.reoParams.globalTimestamp &&
          compareGlobalTimestampsGte desc.reoParams.endTimestamp last.reoParams.endTimestamp) = true
      · rw [if_pos parallel]
        simp
      · rw [if_neg parallel]
        simp
    · simp [required, valid]
  · simp [required]

theorem isStaleFrame_reoParams : (isStaleFrame last desc).reoParams = desc.reoParams := by
  unfold isStaleFrame
  split_ifs <;> rfl

theorem stale_parallel {entry : ListEntry} (valid : last.valid = true)
    (stale : compareGlobalTimestampsGte stamp last.reoParams.globalTimestamp = false)
    (ahead : Ahead globalTsHalfRange base stamp)
    (lastAhead : Ahead globalTsHalfRange base last.reoParams.globalTimestamp)
    (entryAhead : Ahead globalTsHalfRange base entry.globalTs) (fresh : Fresh last entry.globalTs entry.isParallelRx)
    (older : compareGlobalTimestampsGte stamp entry.globalTs = true) : entry.isParallelRx = true := by
  rcases fresh valid with newer | parallel
  · have lt := (timestampsGte_iff ahead entryAhead).mp older
    have above := (timestampsGte_iff entryAhead lastAhead).mp newer
    have not := (timestampsGte_iff ahead lastAhead).mpr (by omega)
    rw [stale] at not
    exact Bool.noConfusion not
  · exact parallel

theorem alive_window (living : alive stamps = true) : ∃ base, Window base stamps := by
  obtain ⟨base, _, all⟩ := any_eq_true.mp living
  refine ⟨base, ?_⟩
  intro stamp among
  have ahead := all_eq_true.mp all stamp among
  show (stamp - base).toNat < globalTsHalfRange
  exact of_decide_eq_true ahead

section Entry

variable {ctx : ReoContext}

theorem ingressFree_iff : ctx.ingressFree = true ↔ ctx.inserting = none ∧ ctx.moving = none := by
  unfold ReoContext.ingressFree
  rw [Bool.and_eq_true, Option.isNone_iff_eq_none, Option.isNone_iff_eq_none]

theorem queue_free (free : ctx.moving = none) : ctx.queue = ctx.egress ++ ctx.ingress := by
  unfold ReoContext.queue
  rw [free, Option.getD_none, append_nil]

theorem InOrder.hold (kept : InOrder ctx) (update : EgressUpdate)
    (same : update.egress = ctx.egress) (pending : Pending ctx update) :
    InOrder { ctx with egress := update.egress, inserting := some update } := by
  rw [same]
  refine { kept with pending := ?_ }
  intro other found
  cases found
  exact { pending with }

theorem prepareIfReordered_some (prep : prepareIfReordered allocated desc = .ok (some new)) :
    desc.reoRequired = true ∧ new = prepareListEntry desc := by
  unfold prepareIfReordered at prep
  split_ifs at prep with reordered _
  · have inner := Except.ok.inj prep
    exact ⟨(Bool.and_eq_true_iff.mp reordered).2, (Option.some.inj inner).symm⟩
  · cases Except.ok.inj prep

theorem InOrder.insert {config : ReoConfig} (kept : InOrder ctx) (desc : FrameDescriptor)
    (free : ctx.moving = none)
    (window : Window base (desc.reoParams.globalTimestamp :: ctx.queue.map globalTs))
    (link : desc.reoParams.linkId < maxMloLinks)
    (started : desc.reoParams.startTimestamp = desc.reoParams.globalTimestamp)
    (consistent : new.waitCount.Consistent) (params : new.reoParams = desc.reoParams)
    (curr : desc.isStale = false)
    (fresh : Fresh ctx.lastReleased desc.reoParams.globalTimestamp desc.isParallelRx)
    (called : insertEgress config.maxEgressSize ctx.egress desc new = .ok update) :
    InOrder { ctx with egress := update.egress, inserting := some update } := by
  unfold insertEgress at called
  dsimp only at called
  rw [queue_free free] at window
  have sorted := kept.sorted
  rw [queue_free free] at sorted
  cases found : ctx.egress.dropWhile (notAfter desc.reoParams.globalTimestamp) with
  | nil =>
    rw [found] at called
    cases called
  | cons least newer =>
    rw [found] at called
    have same := Except.ok.inj called
    subst same
    have lowered := (updateWaitCount_consistent least.waitCount consistent).1
    generalize updateWaitCount new.waitCount least.waitCount = lower at lowered ⊢
    let inserted : ListEntry :=
      { (new.setWaitCount lower) with
        isParallelRx := desc.isParallelRx
        status := { (new.setWaitCount lower).status with olderThanReadyToDeliverFrames := true } }
    let older := ctx.egress.takeWhile (notAfter desc.reoParams.globalTimestamp)
    have stamp : inserted.globalTs = desc.reoParams.globalTimestamp :=
      congrArg ReoParams.globalTimestamp params
    have split : older ++ least :: newer = ctx.egress := by
      rw [← found]
      exact takeWhile_append_dropWhile
    have whole := sorted.split window
    have dropped : (ctx.egress ++ ctx.ingress).dropWhile
        (notAfter desc.reoParams.globalTimestamp) = (least :: newer) ++ ctx.ingress := by
      rw [dropWhile_append, found]
      rfl
    have egressSorted : Ordered (ctx.egress.map globalTs) := by
      rw [map_append] at sorted
      exact (pairwise_append.mp sorted).1
    have egressWindow : Window base (desc.reoParams.globalTimestamp :: ctx.egress.map globalTs) := by
      intro other among
      apply window
      rw [map_append]
      rcases mem_cons.mp among with same | rest
      · exact mem_cons.mpr (.inl same)
      · exact mem_cons_of_mem _ (mem_append_left _ rest)
    have front := (egressSorted.split egressWindow).1
    have memberOf {entry : ListEntry}
        (among : entry ∈ handleEgressOverflow config.maxEgressSize (older ++ inserted :: least :: newer)) :
        ∃ plain, (plain = inserted ∨ plain ∈ ctx.egress) ∧ (entry = plain ∨ entry = markEgressOverflow plain) := by
      obtain ⟨plain, mem, marked⟩ := mem_handleEgressOverflow among
      refine ⟨plain, ?_, marked⟩
      rw [← split]
      rcases mem_append.mp mem with old | rest
      · exact .inr (mem_append_left _ old)
      · rcases mem_cons.mp rest with same | later
        · exact .inl same
        · exact .inr (mem_append_right _ later)
    have lift {property : ListEntry → Prop} (here : property inserted)
        (others : ∀ entry ∈ ctx.egress, property entry)
        (mark : ∀ entry, property entry → property (markEgressOverflow entry)) :
        ∀ entry ∈ handleEgressOverflow config.maxEgressSize (older ++ inserted :: least :: newer), property entry := by
      intro entry among
      obtain ⟨plain, mem, marked⟩ := memberOf among
      have plainly : property plain := by
        rcases mem with same | old
        · exact same ▸ here
        · exact others plain old
      rcases marked with same | same
      · exact same ▸ plainly
      · exact same ▸ mark plain plainly
    have both {property : ListEntry → Prop} (here : property inserted)
        (others : ∀ entry ∈ ctx.queue, property entry)
        (mark : ∀ entry, property entry → property (markEgressOverflow entry)) :
        ∀ entry ∈ handleEgressOverflow config.maxEgressSize (older ++ inserted :: least :: newer) ++
          ctx.moving.getD [] ++ ctx.ingress, property entry := by
      intro entry among
      rw [queue_free free] at others
      rw [free, Option.getD_none, append_nil] at among
      rcases mem_append.mp among with egress | ingress
      · exact lift here (fun entry old => others entry (mem_append_left _ old)) mark entry egress
      · exact others entry (mem_append_right _ ingress)
    refine { kept with
        sorted := ?sorted, fresh := ?fresh, started := ?started, ready := ?ready, consistent := ?consistent,
        pending := ?pending }
    case sorted =>
      show Ordered ((handleEgressOverflow config.maxEgressSize (older ++ inserted :: least :: newer) ++
        ctx.moving.getD [] ++ ctx.ingress).map globalTs)
      rw [free, Option.getD_none, append_nil, map_append, handleEgressOverflow_stamps,
        map_append, map_cons, stamp, append_assoc, cons_append]
      apply Ordered.insert
      · rw [← append_assoc, ← map_append, split, ← map_append]
        exact sorted
      · intro other among
        obtain ⟨entry, mem, rfl⟩ := mem_map.mp among
        exact front entry mem
      · intro other among
        rw [← map_append] at among
        obtain ⟨entry, mem, rfl⟩ := mem_map.mp among
        exact (whole.2 entry (dropped ▸ mem)).1
    case fresh => exact both (stamp ▸ fresh) kept.fresh fun _ same => same
    case started =>
      exact both (by rw [show inserted.reoParams = desc.reoParams from params]; exact started)
        kept.started fun _ same => same
    case ready =>
      rw [free, Option.getD_none, append_nil]
      apply lift
      · simp [isEntryReadyToSendUp, inserted]
      · exact fun entry old => kept.ready entry (mem_append_left _ old)
      · intro entry _
        simp [isEntryReadyToSendUp, markEgressOverflow]
    case consistent =>
      exact both lowered kept.consistent fun _ same => same
    case pending =>
      intro other found
      cases found
      refine ⟨free, link, ⟨base, ?_⟩, ?_, fun _ _ _ apart => absurd rfl apart⟩
      · intro other among
        apply window
        rcases mem_cons.mp among with same | rest
        · exact mem_cons.mpr (.inl same)
        · rw [map_append]
          exact mem_cons_of_mem _ (mem_append_right _ rest)
      · intro stale
        rw [show desc.isStale = true from stale] at curr
        exact Bool.noConfusion curr

theorem insertEgress_error {status : ReoError} (called : insertEgress size egress desc new = .error status) :
    status = .eFailure := by
  unfold insertEgress at called
  dsimp only at called
  split at called
  · exact (Except.error.inj called).symm
  · cases called

theorem after_last {entries : List ListEntry} (sorted : Ordered (entries.map globalTs))
    (here : Ahead globalTsHalfRange base stamp) (ahead : ∀ entry ∈ entries, Ahead globalTsHalfRange base entry.globalTs)
    (found : entries.getLast? = some last) (newest : compareGlobalTimestampsGte stamp last.globalTs = true)
    (among : entry ∈ entries) : compareGlobalTimestampsGte stamp entry.globalTs = true := by
  obtain ⟨rest, split⟩ := getLast?_eq_some_iff.mp found
  have lastAmong : last ∈ entries := by
    rw [split]
    exact mem_append_right _ (mem_singleton_self last)
  have lt : compareGlobalTimestampsGte last.globalTs entry.globalTs = true ∨ entry = last := by
    rw [split] at sorted among
    rw [map_append] at sorted
    rcases mem_append.mp among with earlier | same
    · exact .inl ((pairwise_append.mp sorted).2.2 _ (mem_map_of_mem earlier) _ (mem_singleton_self _))
    · exact .inr (mem_singleton.mp same)
  rcases lt with older | same
  · have first := (timestampsGte_iff here (ahead last lastAmong)).mp newest
    have second := (timestampsGte_iff (ahead last lastAmong) (ahead entry among)).mp older
    exact (timestampsGte_iff here (ahead entry among)).mpr (by omega)
  · exact same ▸ newest

theorem InOrder.crash_free (kept : InOrder ctx) (same : egress = ctx.egress) :
    InOrder { ctx with egress := egress } := by
  rw [same]
  exact kept

theorem InOrder.updateEgress {alloc : Bool} (kept : InOrder ctx) (free : ctx.ingressFree = true)
    (living : alive (desc.reoParams.globalTimestamp :: ctx.stamps) = true) (link : desc.reoParams.linkId < maxMloLinks)
    (started : desc.reoParams.startTimestamp = desc.reoParams.globalTimestamp)
    (consistent : desc.waitCount.Consistent) : InOrder (ctx.updateEgress config alloc desc) := by
  obtain ⟨idle, free⟩ := ingressFree_iff.mp free
  obtain ⟨base, living⟩ := alive_window living
  have window : Window base (desc.reoParams.globalTimestamp :: ctx.queue.map globalTs) := by
    intro stamp among
    apply living
    rcases mem_cons.mp among with same | rest
    · exact mem_cons.mpr (.inl same)
    · exact mem_cons_of_mem _ (mem_append_left _ rest)
  have here := window _ mem_cons_self
  have ahead (entry : ListEntry) (among : entry ∈ ctx.queue) : Ahead globalTsHalfRange base entry.globalTs :=
    window _ (mem_cons_of_mem _ (mem_map_of_mem among))
  have ofEgress {entry : ListEntry} (among : entry ∈ ctx.egress) : entry ∈ ctx.queue :=
    mem_append_left _ (mem_append_left _ among)
  have ofIngress {entry : ListEntry} (among : entry ∈ ctx.ingress) : entry ∈ ctx.queue :=
    mem_append_right _ among
  obtain ⟨staleOf, freshOf⟩ := isStaleFrame_fresh desc started kept.lastStarted
  let checked := isStaleFrame ctx.lastReleased desc
  have params : checked.reoParams = desc.reoParams := isStaleFrame_reoParams
  have stale (now : checked.isStale = true) (entry : ListEntry) (among : entry ∈ ctx.queue)
      (older : compareGlobalTimestampsGte desc.reoParams.globalTimestamp entry.globalTs = true) :
      entry.isParallelRx = true := by
    obtain ⟨valid, lt⟩ := staleOf now
    have last : Ahead globalTsHalfRange base ctx.lastReleased.reoParams.globalTimestamp := by
      apply living
      apply mem_cons_of_mem
      apply mem_append_right
      rw [if_pos valid]
      exact mem_singleton_self _
    exact stale_parallel valid lt here last (ahead entry among) (kept.fresh entry among) older
  have pending (new : Option ListEntry) (prep : prepareIfReordered alloc desc = .ok new)
      (after : new.isSome → checked.isStale = false → ∀ entry ∈ ctx.egress,
        compareGlobalTimestampsGte desc.reoParams.globalTimestamp entry.globalTs = true) :
      Pending ctx { egress := ctx.egress, desc := checked, new := new, isQueued := false } := by
    refine ⟨free, params ▸ link, ⟨base, ?_⟩, ?_, ?_⟩
    · intro stamp among
      rw [show checked.reoParams = desc.reoParams from params] at among
      apply window
      rcases mem_cons.mp among with same | rest
      · exact mem_cons.mpr (.inl same)
      · obtain ⟨entry, mem, same⟩ := mem_map.mp rest
        exact mem_cons_of_mem _ (mem_map.mpr ⟨entry, ofIngress mem, same⟩)
    · intro now entry among older
      rw [show checked.reoParams = desc.reoParams from params] at older
      exact stale now entry (ofIngress among) older
    · intro prepareds found curr _
      subst found
      obtain ⟨required, same⟩ := prepareIfReordered_some prep
      have plain : prepareds.reoParams = desc.reoParams := by
        rw [same]
        rfl
      refine ⟨plain.trans params.symm, ?_, ?_, ?_, ?_⟩
      · rw [same]
        exact prepareListEntry_counted consistent
      · rw [plain]
        exact started
      · show Fresh ctx.lastReleased prepareds.reoParams.globalTimestamp _
        rw [plain]
        exact freshOf curr required
      · show ∀ entry ∈ ctx.egress, compareGlobalTimestampsGte prepareds.reoParams.globalTimestamp entry.globalTs = true
        rw [plain]
        exact after rfl curr
  have hold (update : EgressUpdate) (same : update.egress = ctx.egress)
      (waits : Pending ctx update) : InOrder (if checkSanityList update.egress then
        { ctx with egress := update.egress, inserting := some update }
        else { ctx with egress := update.egress }) := by
    by_cases sane : checkSanityList update.egress = true
    · rw [if_pos sane]
      exact kept.hold update same waits
    · rw [if_neg sane]
      exact kept.crash_free same
  unfold ReoContext.updateEgress
  cases prep : prepareIfReordered alloc desc with
  | error status => exact kept
  | ok new =>
    dsimp only
    unfold updateEgressList
    by_cases mismatched : desc.isReordered ≠ new.isSome
    · rw [if_pos mismatched]
      exact kept
    rw [if_neg mismatched]
    by_cases now : checked.isStale = true
    · rw [if_pos now]
      have parallel : (ctx.egress.takeWhile (notAfter desc.reoParams.globalTimestamp)).all isParallelRx = true := by
        apply all_eq_true.mpr
        intro entry among
        have older : notAfter desc.reoParams.globalTimestamp entry = true :=
          mem_takeWhile_imp among
        exact stale now entry (ofEgress ((takeWhile_sublist _).subset among)) older
      rw [if_pos parallel]
      exact hold _ rfl (pending new prep fun _ curr => by
        rw [now] at curr
        exact Bool.noConfusion curr)
    · rw [if_neg now]
      rw [Bool.not_eq_true] at now
      cases new with
      | none => exact hold _ rfl (pending none prep Bool.noConfusion)
      | some new =>
        cases last : ctx.egress.getLast? with
        | none =>
          have empty := getLast?_eq_none_iff.mp last
          apply hold _ rfl
          apply pending (some new) prep
          intro _ _ entry among
          rw [empty] at among
          exact absurd among not_mem_nil
        | some last' =>
          dsimp only
          by_cases newest : compareGlobalTimestampsGte desc.reoParams.globalTimestamp last'.globalTs = true
          · rw [if_pos newest]
            apply hold _ rfl
            apply pending (some new) prep
            intro _ _ entry among
            exact after_last (pairwise_append.mp (pairwise_append.mp
              (by rw [← map_append, ← map_append]; exact kept.sorted)).1).1
              here (fun entry among => ahead entry (ofEgress among)) last newest among
          · rw [if_neg newest]
            obtain ⟨required, same⟩ := prepareIfReordered_some prep
            cases called : insertEgress config.maxEgressSize ctx.egress checked new with
            | error status =>
              rw [insertEgress_error called]
              exact kept
            | ok update =>
              have inserted := kept.insert checked free
                (by rw [show checked.reoParams = desc.reoParams from params]; exact window)
                (params ▸ link)
                (by rw [show checked.reoParams = desc.reoParams from params]; exact started)
                (by rw [same]; exact consistent) (by rw [same]; exact params.symm) now
                (by
                  rw [show checked.reoParams = desc.reoParams from params]
                  exact freshOf now required) called
              dsimp only
              split_ifs
              · exact inserted
              · refine { inserted with pending := ?_ }
                intro other found
                rw [show ctx.inserting = some other from found] at idle
                cases idle

end Entry

end KernelModules.MgmtRx

import KernelModules.MgmtRx.ListOrder

namespace KernelModules.MgmtRx

open Data ListEntry List Option ReoContext

section Ingress

variable {entry : ListEntry}

structure Lowered (before after : ListEntry) : Prop where
  reoParams : after.reoParams = before.reoParams
  isParallelRx : after.isParallelRx = before.isParallelRx
  counted : before.Counted → after.Counted

theorem lowerOlder_lowered (desc : FrameDescriptor) (entry : ListEntry) : Lowered entry (lowerOlder desc entry) :=
  ⟨rfl, rfl, lowerOlder_counted desc⟩

theorem lowerNewer_lowered (link : desc.reoParams.linkId < maxMloLinks) (entry : ListEntry) :
    Lowered entry (lowerNewer desc entry) := by
  refine ⟨?_, ?_, lowerNewer_counted link⟩
  · unfold lowerNewer
    dsimp only
    split_ifs <;> rfl
  · unfold lowerNewer
    dsimp only
    split_ifs <;> rfl

section

variable {change : ListEntry → ListEntry} (lowered : ∀ entry, Lowered entry (change entry))
include lowered

theorem map_stamps (entries : List ListEntry) :
    (entries.map change).map ListEntry.globalTs = entries.map ListEntry.globalTs := by
  rw [List.map_map]
  apply List.map_congr_left
  intro entry _
  exact congrArg ReoParams.globalTimestamp (lowered entry).reoParams

theorem mem_map_lowered {entries : List ListEntry} (among : entry ∈ entries.map change) :
    ∃ plain ∈ entries, Lowered plain entry := by
  obtain ⟨plain, mem, rfl⟩ := mem_map.mp among
  exact ⟨plain, mem, lowered plain⟩

end

theorem InOrder.replaceIngress (kept : InOrder context) (free : context.moving = none)
    (ingress : List ListEntry) (sorted : Ordered ((context.egress ++ ingress).map globalTs))
    (entries : ∀ entry ∈ ingress, (∃ plain ∈ context.ingress, Lowered plain entry) ∨
      (Fresh context.lastReleased entry.globalTs entry.isParallelRx ∧ entry.Counted ∧
        entry.reoParams.startTimestamp = entry.reoParams.globalTimestamp)) :
    InOrder { context with ingress := ingress, inserting := none } := by
  have split {property : ListEntry → Prop} (before : ∀ entry ∈ context.egress, property entry)
      (after : ∀ entry ∈ ingress, property entry) :
      ∀ entry ∈ context.egress ++ context.moving.getD [] ++ ingress, property entry := by
    intro entry among
    rw [free, getD_none, append_nil] at among
    rcases mem_append.mp among with egress | joined
    · exact before entry egress
    · exact after entry joined
  have ofEgress {entry : ListEntry} (among : entry ∈ context.egress) : entry ∈ context.queue :=
    mem_append_left _ (mem_append_left _ among)
  have ofIngress {entry : ListEntry} (among : entry ∈ context.ingress) : entry ∈ context.queue :=
    mem_append_right _ among
  have counted (entry : ListEntry) (among : entry ∈ ingress) : entry.Counted := by
    rcases entries entry among with ⟨plain, mem, lowered⟩ | ⟨_, counted, _⟩
    · exact lowered.counted (kept.counted plain mem)
    · exact counted
  refine { kept with
      sorted := ?sorted, fresh := ?fresh, started := ?started, consistent := ?consistent, counted := ?counted,
      pending := ?pending }
  case sorted =>
    show Ordered ((context.egress ++ context.moving.getD [] ++ ingress).map globalTs)
    rw [free, getD_none, append_nil]
    exact sorted
  case fresh =>
    apply split (fun entry among => kept.fresh entry (ofEgress among))
    intro entry among
    rcases entries entry among with ⟨plain, mem, lowered⟩ | ⟨fresh, _⟩
    · have before := kept.fresh plain (ofIngress mem)
      unfold globalTs at before ⊢
      rw [lowered.reoParams, lowered.isParallelRx]
      exact before
    · exact fresh
  case started =>
    apply split (fun entry among => kept.started entry (ofEgress among))
    intro entry among
    rcases entries entry among with ⟨plain, mem, lowered⟩ | ⟨_, _, started⟩
    · rw [lowered.reoParams]
      exact kept.started plain (ofIngress mem)
    · exact started
  case consistent =>
    exact split (fun entry among => kept.consistent entry (ofEgress among)) fun entry among => (counted entry among).1
  case counted => exact counted
  case pending => exact fun update found => nomatch found

theorem InOrder.updateIngress (kept : InOrder context) {update : EgressUpdate}
    (waiting : context.inserting = some update) (now : BitVec 64) : InOrder (context.updateIngress update now) := by
  obtain ⟨free, link, ⟨base, window⟩, stale, join⟩ := kept.pending update waiting
  let older := context.ingress.takeWhile (notAfter update.desc.reoParams.globalTimestamp)
  let newer := context.ingress.dropWhile (notAfter update.desc.reoParams.globalTimestamp)
  have whole : older ++ newer = context.ingress := takeWhile_append_dropWhile
  have sorted := kept.sorted
  rw [queue_free free] at sorted
  have ingressSorted : Ordered (context.ingress.map ListEntry.globalTs) := by
    rw [map_append] at sorted
    exact (pairwise_append.mp sorted).2.1
  obtain ⟨front, back⟩ := ingressSorted.split window
  have loweredOlder := lowerOlder_lowered update.desc
  have loweredNewer := lowerNewer_lowered link
  have listedOlder {entry : ListEntry} (among : entry ∈ older.map (lowerOlder update.desc)) :
      ∃ plain ∈ context.ingress, Lowered plain entry := by
    obtain ⟨plain, mem, lowered⟩ := mem_map_lowered loweredOlder among
    exact ⟨plain, (takeWhile_sublist _).subset mem, lowered⟩
  have listedNewer {entry : ListEntry} (among : entry ∈ newer.map (lowerNewer update.desc)) :
      ∃ plain ∈ context.ingress, Lowered plain entry := by
    obtain ⟨plain, mem, lowered⟩ := mem_map_lowered loweredNewer among
    exact ⟨plain, (dropWhile_sublist _).subset mem, lowered⟩
  have plainly : InOrder { context with
      ingress := older.map (lowerOlder update.desc) ++ newer.map (lowerNewer update.desc)
      inserting := none } := by
    apply kept.replaceIngress free
    · rw [map_append, map_append, map_stamps loweredOlder, map_stamps loweredNewer, ← map_append, whole, ← map_append]
      exact sorted
    · intro entry among
      rcases mem_append.mp among with old | new
      · exact .inl (listedOlder old)
      · exact .inl (listedNewer new)
  unfold ReoContext.updateIngress updateIngressList
  by_cases mismatched : update.desc.isReordered ≠ update.new.isSome
  · rw [if_pos mismatched]
    exact kept.replaceIngress free context.ingress sorted fun entry among =>
      .inl ⟨entry, among, rfl, rfl, fun counted => counted⟩
  rw [if_neg mismatched]
  have parallel : ¬ (update.desc.isStale && !older.all ListEntry.isParallelRx) = true := by
    rw [Bool.and_eq_true]
    rintro ⟨now, some⟩
    have all : older.all ListEntry.isParallelRx = true := by
      apply all_eq_true.mpr
      intro entry among
      exact stale now entry ((takeWhile_sublist _).subset among) (front entry among)
    rw [all] at some
    exact Bool.noConfusion some
  rw [if_neg parallel]
  cases found : update.new with
  | none => exact plainly
  | some new =>
    dsimp only
    by_cases queues : (!update.desc.isStale && decide (update.desc.queuedList ≠ .egress)) = true
    · rw [if_pos queues]
      obtain ⟨curr, apart⟩ := Bool.and_eq_true_iff.mp queues
      rw [Bool.not_eq_true'] at curr
      obtain ⟨params, counted, started, fresh, after⟩ :=
        join new found curr (of_decide_eq_true apart)
      let inserted := ingressEntry update.desc now new newer.head?
      have sameParams : inserted.reoParams = new.reoParams := by
        show (ingressEntry update.desc now new newer.head?).reoParams = new.reoParams
        cases newer.head? <;> rfl
      have stamp : inserted.globalTs = update.desc.reoParams.globalTimestamp :=
        congrArg ReoParams.globalTimestamp (sameParams.trans params)
      have newStamp : new.globalTs = update.desc.reoParams.globalTimestamp :=
        congrArg ReoParams.globalTimestamp params
      apply kept.replaceIngress free
      · rw [map_append, map_append, map_cons, map_stamps loweredOlder, map_stamps loweredNewer, ← append_assoc, stamp]
        apply Ordered.insert
        · rw [append_assoc, ← map_append, whole, ← map_append]
          exact sorted
        · intro other among
          rw [← map_append] at among
          obtain ⟨entry, mem, rfl⟩ := mem_map.mp among
          rcases mem_append.mp mem with egress | old
          · exact newStamp ▸ after entry egress
          · exact front entry old
        · intro other among
          obtain ⟨entry, mem, rfl⟩ := mem_map.mp among
          exact (back entry mem).1
      · intro entry among
        rcases mem_append.mp among with old | rest
        · exact .inl (listedOlder old)
        rcases mem_cons.mp rest with same | new
        · right
          rw [same]
          have stampNew : inserted.globalTs = new.globalTs :=
            congrArg ReoParams.globalTimestamp sameParams
          refine ⟨?_, ingressEntry_counted now _ counted, ?_⟩
          · rw [stampNew]
            exact fresh
          · rw [sameParams]
            exact started
        · exact .inl (listedNewer new)
    · rw [if_neg queues]
      exact plainly

end Ingress

theorem InOrder.replaceIdle (kept : InOrder context) (idle : context.inserting = none)
    (free : context.moving = none) (ingress : List ListEntry)
    (sorted : Ordered ((context.egress ++ ingress).map globalTs))
    (entries : ∀ entry ∈ ingress, ∃ plain ∈ context.ingress, Lowered plain entry) :
    InOrder { context with ingress := ingress } := by
  have replaced := kept.replaceIngress free ingress sorted fun entry among => .inl (entries entry among)
  have same : ({ context with ingress := ingress } : ReoContext) =
      { context with ingress := ingress, inserting := none } := by rw [← idle]
  rw [same]
  exact replaced

theorem overflowMarked_stamps (config : ReoConfig) (ingress : List ListEntry) :
    (overflowMarked config ingress).map globalTs = ingress.map globalTs :=
  markFirst_stamps fun _ => rfl

theorem overflowMarked_lowered {ingress : List ListEntry}
    (among : entry ∈ overflowMarked config ingress) : ∃ plain ∈ ingress, Lowered plain entry := by
  obtain ⟨plain, mem, same | marked⟩ := mem_markFirst among
  · exact ⟨plain, mem, same ▸ ⟨rfl, rfl, fun counted => counted⟩⟩
  · exact ⟨plain, mem, marked ▸ ⟨rfl, rfl, fun counted => counted⟩⟩

theorem InOrder.move (kept : InOrder context) (free : context.ingressFree = true) : InOrder (context.move config) := by
  obtain ⟨idle, free⟩ := ingressFree_iff.mp free
  let marked := overflowMarked config context.ingress
  let ready := marked.takeWhile isEntryReadyToSendUp
  let rest := marked.dropWhile isEntryReadyToSendUp
  have whole : ready ++ rest = marked := takeWhile_append_dropWhile
  have sorted := kept.sorted
  rw [queue_free free, map_append, ← overflowMarked_stamps config context.ingress, ← map_append] at sorted
  have lowered (entry : ListEntry) (among : entry ∈ marked) :
      ∃ plain ∈ context.ingress, Lowered plain entry := overflowMarked_lowered among
  have flagged : InOrder { context with ingress := marked } :=
    kept.replaceIdle idle free marked sorted lowered
  unfold ReoContext.move
  dsimp only
  split_ifs
  · exact flagged
  · apply kept.replaceIdle idle free rest
    · apply List.Pairwise.sublist _ sorted
      exact ((dropWhile_sublist _).append_left context.egress).map _
    · exact fun entry among => lowered entry ((dropWhile_sublist _).subset among)
  · have same : context.egress ++ ready ++ rest = ({ context with ingress := marked } : ReoContext).queue := by
      show context.egress ++ ready ++ rest = context.egress ++ context.moving.getD [] ++ marked
      rw [free, getD_none, append_nil, append_assoc, whole]
    have mem {entry : ListEntry} (among : entry ∈ context.egress ++ ready ++ rest) :
        entry ∈ ({ context with ingress := marked } : ReoContext).queue := same ▸ among
    constructor
    case sorted =>
      show Ordered ((context.egress ++ ready ++ rest).map ListEntry.globalTs)
      rw [same]
      exact flagged.sorted
    case fresh => exact fun entry among => flagged.fresh entry (mem among)
    case started => exact fun entry among => flagged.started entry (mem among)
    case lastStarted => exact kept.lastStarted
    case ready =>
      intro entry among
      rcases mem_append.mp among with egress | split
      · exact kept.ready entry (mem_append_left _ egress)
      · exact mem_takeWhile_imp split
    case consistent => exact fun entry among => flagged.consistent entry (mem among)
    case counted =>
      exact fun entry among => flagged.counted entry ((dropWhile_sublist _).subset among)
    case pending =>
      intro update found
      rw [show context.inserting = some update from found] at idle
      cases idle
    case released => exact kept.released
    case inTurn => exact kept.inTurn
    case asserts => exact kept.asserts

theorem InOrder.join (kept : InOrder context) {ready : List ListEntry}
    (moving : context.moving = some ready) : InOrder (context.join config ready) := by
  have queue : context.queue = context.egress ++ ready ++ context.ingress := by
    unfold ReoContext.queue
    rw [moving, getD_some]
  have lift {property : ListEntry → Prop}
      (before : ∀ entry ∈ context.egress ++ ready, property entry)
      (mark : ∀ entry, property entry → property (markEgressOverflow entry)) :
      ∀ entry ∈ handleEgressOverflow config.maxEgressSize (context.egress ++ ready), property entry := by
    intro entry among
    obtain ⟨plain, mem, same | marked⟩ := mem_handleEgressOverflow among
    · exact same ▸ before plain mem
    · exact marked ▸ mark plain (before plain mem)
  have both {property : ListEntry → Prop} (before : ∀ entry ∈ context.queue, property entry)
      (mark : ∀ entry, property entry → property (markEgressOverflow entry)) :
      ∀ entry ∈ (context.join config ready).queue, property entry := by
    rw [queue] at before
    intro entry among
    unfold ReoContext.queue ReoContext.join at among
    rw [getD_none, append_nil] at among
    rcases mem_append.mp among with joined | ingress
    · exact lift (fun entry old => before entry (mem_append_left _ old)) mark entry joined
    · exact before entry (mem_append_right _ ingress)
  refine { kept with
      sorted := ?sorted, fresh := ?fresh, started := ?started, ready := ?ready, consistent := ?consistent,
      pending := ?pending }
  case sorted =>
    have sorted := kept.sorted
    rw [queue] at sorted
    unfold ReoContext.queue ReoContext.join
    rw [getD_none, append_nil, map_append, handleEgressOverflow_stamps, ← map_append]
    exact sorted
  case fresh => exact both kept.fresh fun _ same => same
  case started => exact both kept.started fun _ same => same
  case ready =>
    unfold ReoContext.join
    rw [getD_none, append_nil]
    apply lift
    · have before := kept.ready
      rw [moving] at before
      exact before
    · intro entry _
      simp [isEntryReadyToSendUp, markEgressOverflow]
  case consistent => exact both kept.consistent fun _ same => same
  case pending =>
    intro update found
    have alone := (kept.pending update found).alone
    rw [moving] at alone
    cases alone

theorem ageoutEntries_stamps (config : ReoConfig) (curTs : BitVec 64) (entries : List ListEntry) :
    (ageoutEntries config curTs entries).map globalTs = entries.map globalTs := by
  induction entries with
  | nil => rfl
  | cons entry rest ih =>
    rw [ageoutEntries, map_cons, ih]
    split_ifs <;> rfl

theorem ageoutEntries_lowered (among : entry ∈ ageoutEntries config curTs entries) :
    ∃ plain ∈ entries, Lowered plain entry := by
  induction entries with
  | nil => exact absurd among not_mem_nil
  | cons first rest ih =>
    rcases mem_cons.mp among with same | later
    · refine ⟨first, mem_cons_self, ?_⟩
      rw [same]
      split_ifs <;> exact ⟨rfl, rfl, fun counted => counted⟩
    · obtain ⟨plain, mem, lowered⟩ := ih later
      exact ⟨plain, mem_cons_of_mem _ mem, lowered⟩

theorem InOrder.ageout (kept : InOrder context) (free : context.ingressFree = true) (curTs : BitVec 64) :
    InOrder { context with ingress := ageoutEntries config curTs context.ingress } := by
  obtain ⟨idle, free⟩ := ingressFree_iff.mp free
  apply kept.replaceIdle idle free
  · have sorted := kept.sorted
    rw [queue_free free, map_append, ← ageoutEntries_stamps config curTs context.ingress, ← map_append] at sorted
    exact sorted
  · exact fun entry among => ageoutEntries_lowered among

section Releases

variable {context : ReoContext}

section

variable (kept : InOrder context)
include kept

theorem InOrder.release (listed : context.egress = first :: rest)
    (idle : context.releasing = some { links := links, sending := none }) (deliver : Bool) :
    InOrder (context.release links first rest deliver) := by
  have queue : context.queue = first :: (rest ++ context.moving.getD [] ++ context.ingress) := by
    unfold ReoContext.queue
    rw [listed, cons_append, cons_append]
  have mem : first ∈ context.queue := by
    rw [queue]
    exact mem_cons_self
  have later {entry : ListEntry}
      (among : entry ∈ rest ++ context.moving.getD [] ++ context.ingress) : entry ∈ context.queue := by
    rw [queue]
    exact mem_cons_of_mem _ among
  have sorted := kept.sorted
  rw [queue] at sorted
  obtain ⟨newer, sortedRest⟩ := pairwise_cons.mp sorted
  have firstFresh := kept.fresh first mem
  have goesOn : (context.takesOver first || first.isParallelRx) = true := by
    unfold ReoContext.takesOver
    cases valid : context.lastReleased.valid with
    | false => rfl
    | true =>
      rcases firstFresh valid with newer | parallel
      · rw [newer, Bool.or_true, Bool.true_or]
      · rw [parallel, Bool.or_true]
  -- the new last released frame is the first entry, or the old one
  have after {stamp : BitVec 32} {parallel : Bool}
      (before : Fresh context.lastReleased stamp parallel)
      (above : compareGlobalTimestampsGte stamp first.globalTs = true) :
      Fresh (if context.takesOver first then { valid := true, reoParams := first.reoParams }
        else context.lastReleased) stamp parallel := by
    by_cases taken : context.takesOver first = true
    · rw [if_pos taken]
      exact fun _ => .inl above
    · rw [if_neg taken]
      exact before
  unfold ReoContext.release
  rw [if_pos goesOn]
  constructor
  case sorted => exact sortedRest
  case fresh =>
    intro entry among
    exact after (kept.fresh entry (later among)) (newer _ (mem_map_of_mem among))
  case started => exact fun entry among => kept.started entry (later among)
  case lastStarted =>
    by_cases taken : context.takesOver first = true
    · rw [if_pos taken]
      exact fun _ => kept.started first mem
    · rw [if_neg taken]
      exact kept.lastStarted
  case ready =>
    intro entry among
    apply kept.ready
    rw [listed]
    exact mem_cons_of_mem _ among
  case consistent => exact fun entry among => kept.consistent entry (later among)
  case counted => exact kept.counted
  case pending =>
    intro update found
    obtain ⟨alone, link, window, stale, join⟩ := kept.pending update found
    refine ⟨alone, link, window, stale, ?_⟩
    intro new some curr apart
    obtain ⟨params, counted, started, fresh, above⟩ := join new some curr apart
    refine ⟨params, counted, started, ?_, ?_⟩
    · exact after fresh (above first (by rw [listed]; exact mem_cons_self))
    · exact fun entry among => above entry (by rw [listed]; exact mem_cons_of_mem _ among)
  case released =>
    intro release among
    rcases mem_append.mp among with old | now
    · exact kept.released release old
    · rw [mem_singleton.mp now]
      exact firstFresh
  case inTurn =>
    have turn := kept.inTurn
    rw [idle] at turn
    rw [map_append, turn]
    simp
  case asserts => exact kept.asserts

theorem InOrder.stopRelease (idle : context.releasing = some { links := links, sending := none }) :
    InOrder { context with releasing := none } := by
  refine { kept with pending := ?_, inTurn := ?_ }
  · intro update found
    exact { kept.pending update found with }
  · have turn := kept.inTurn
    rw [idle] at turn
    exact turn

theorem InOrder.releaseRound (idle : context.releasing = some { links := links, sending := none })
    (scheduler : Bool) : InOrder (context.releaseRound links scheduler) := by
  have stopped := kept.stopRelease idle
  unfold ReoContext.releaseRound
  cases mem : context.egress with
  | nil =>
    rw [mem] at stopped
    exact stopped
  | cons first rest =>
    rw [mem] at stopped
    dsimp only
    split_ifs
    · exact stopped
    · exact stopped
    · exact kept.release mem idle _

theorem InOrder.sendUp {sent : ListEntry × Bool}
    (sending : context.releasing = some { links := links, sending := some sent })
    (releasing : Option Releasing) (free : releasing.bind Releasing.sending = none) :
    InOrder { context with sent := context.sent ++ [sent], releasing := releasing } := by
  refine { kept with pending := ?_, inTurn := ?_ }
  · intro update found
    exact { kept.pending update found with }
  · have turn := kept.inTurn
    rw [sending] at turn
    rw [free, turn]
    simp

theorem InOrder.inactivityTimeout : InOrder { context with lastReleased := .zero } := by
  refine { kept with fresh := ?_, lastStarted := ?_, pending := ?_ }
  · exact fun entry _ valid => Bool.noConfusion valid
  · exact Bool.noConfusion
  · intro update found
    obtain ⟨alone, link, window, stale, join⟩ := kept.pending update found
    refine ⟨alone, link, window, stale, ?_⟩
    intro new some curr apart
    obtain ⟨params, counted, started, _, above⟩ := join new some curr apart
    exact ⟨params, counted, started, Bool.noConfusion, above⟩

end

end Releases

section Runs

variable {context : ReoContext}

theorem updateHostSnapshot_kept (called : updateHostSnapshot thresh hostSs desc = .ok (result, updated)) :
    updated.reoParams = desc.reoParams ∧ updated.waitCount = desc.waitCount := by
  unfold updateHostSnapshot at called
  generalize checkedEq : (if comparePktCtrsGte hostSs.mgmtPktCtr desc.reoParams.mgmtPktCtr then
    handleOutOfOrderPktCtr desc hostSs else desc) = checked at called
  have same : checked.reoParams = desc.reoParams ∧ checked.waitCount = desc.waitCount := by
    rw [← checkedEq]
    split_ifs <;> exact ⟨rfl, rfl⟩
  dsimp only at called
  split_ifs at called
  · obtain ⟨_, rfl⟩ := Prod.mk.inj (Except.ok.inj called)
    exact ⟨rfl, rfl⟩
  · obtain ⟨_, rfl⟩ := Prod.mk.inj (Except.ok.inj called)
    exact same

theorem InOrder.algoEntry {after : ReoContext} (kept : InOrder context) (free : context.ingressFree = true)
    (started : desc.reoParams.startTimestamp = desc.reoParams.globalTimestamp)
    (living : alive (desc.reoParams.globalTimestamp :: context.stamps) = true)
    (zero : desc.waitCount = { perLinkCount := fun _ => 0, totalCount := 0 })
    (taken : context.algoEntry config readings desc allocated = some after) : InOrder after := by
  have hosts (hosts : Nat → SnapshotParams) : InOrder { context with hosts := hosts } := by
    refine { kept with pending := ?_ }
    intro update found
    exact { kept.pending update found with }
  unfold ReoContext.algoEntry checkFrameSanity at taken
  split_ifs at taken
  · exact some.inj taken ▸ kept
  · dsimp only at taken
    cases updated : updateHostSnapshot config.pktCtrDeltaThresh (context.hosts desc.reoParams.linkId) desc with
    | error status =>
      rw [updated] at taken
      exact some.inj taken ▸ kept
    | ok result =>
      obtain ⟨params, counts⟩ := updateHostSnapshot_kept updated
      rw [updated] at taken
      dsimp only at taken
      split_ifs at taken
      · exact some.inj taken ▸ hosts _
      · split at taken
        · cases taken
        · exact some.inj taken ▸ hosts _
        · rename_i counted called
          obtain ⟨consistent, same, link⟩ := calculateWaitCount_counted (counts.trans zero) called
          have plain := same.trans params
          rw [← some.inj taken]
          exact (hosts _).updateEgress free (by rw [plain]; exact living) link (by rw [plain]; exact started) consistent
  · exact some.inj taken ▸ kept

theorem InOrder.step {after : ReoContext} (kept : InOrder context) (living : action.alive context = true)
    (taken : reoStep config context action = some after) : InOrder after := by
  have running : ¬ context.crashed = true := by
    rw [kept.asserts]
    decide
  unfold reoStep at taken
  rw [if_neg running] at taken
  cases action with
  | entry readings type isMgt reoRequired reoParams allocated =>
    dsimp only at taken
    split_ifs at taken with free
    unfold ReoAction.alive at living
    rw [Bool.and_eq_true] at living
    obtain ⟨started, living⟩ := living
    refine kept.algoEntry free ?_ ?_ ?_ taken
    · exact of_decide_eq_true started
    · exact living
    · rfl
  | updateIngress now =>
    obtain ⟨update, waiting, rfl⟩ := map_eq_some_iff.mp taken
    exact kept.updateIngress waiting now
  | move =>
    dsimp only at taken
    split_ifs at taken with free
    exact some.inj taken ▸ kept.move free
  | join =>
    obtain ⟨ready, moving, rfl⟩ := map_eq_some_iff.mp taken
    exact kept.join moving
  | ageout curTs =>
    dsimp only at taken
    split_ifs at taken with free
    exact some.inj taken ▸ kept.ageout free curTs
  | startRelease links =>
    dsimp only at taken
    split_ifs at taken with idle
    have turn := kept.inTurn
    rw [isNone_iff_eq_none.mp idle] at turn
    rw [← some.inj taken]
    refine { kept with pending := ?_, inTurn := turn }
    intro update found
    exact { kept.pending update found with }
  | releaseRound scheduler =>
    dsimp only at taken
    split at taken
    · rename_i links idle
      exact some.inj taken ▸ kept.releaseRound idle scheduler
    · cases taken
  | sendUp succeeds =>
    dsimp only at taken
    split at taken
    · rename_i links sent sending
      rw [← some.inj taken]
      apply kept.sendUp sending
      cases succeeds <;> rfl
    · cases taken
  | inactivityTimeout => exact some.inj taken ▸ kept.inactivityTimeout

theorem InOrder.init : InOrder .init where
  sorted := List.Pairwise.nil
  fresh := fun _ among => absurd among not_mem_nil
  started := fun _ among => absurd among not_mem_nil
  lastStarted := Bool.noConfusion
  ready := fun _ among => absurd among not_mem_nil
  consistent := fun _ among => absurd among not_mem_nil
  counted := fun _ among => absurd among not_mem_nil
  pending := fun _ found => nomatch found
  released := fun _ among => absurd among not_mem_nil
  inTurn := rfl
  asserts := rfl

theorem InOrder.lists (kept : InOrder context) : ListsInOrder context where
  sorted := kept.sorted
  ready := fun entry among => kept.ready entry (mem_append_left _ among)
  totals := kept.consistent
  waits := fun entry among => (kept.counted entry among).2
  released := kept.released
  inTurn := kept.inTurn
  asserts := kept.asserts

/-- In every run of frames, events, ageouts, overflows, releases and timeouts the lists are in
order. -/
theorem lists_in_order {config : ReoConfig}
    (reached : Reachable (reoStep config) (fun context action => action.alive context = true) .init
      context) : ListsInOrder context := by
  apply InOrder.lists
  apply reached.invariant InOrder .init
  exact fun before action after kept living taken => kept.step living taken

/-- A frame of link 0 waits for one of link 1; it ages out and is sent, and the frame of link 1 comes too late. -/
def lateFrame : List ReoAction :=
  let seen (ts : BitVec 32) : SnapshotParams :=
    { valid := true, mgmtPktCtr := 1, globalTimestamp := ts }
  let unseen : SnapshotParams := { valid := false, mgmtPktCtr := 0, globalTimestamp := 0 }
  let readings (link : Nat) : LinkReading :=
    if link < 2 then .snapshots {
        macHw := seen (200 - 100 * link)
        fwConsumed := unseen
        fwForwarded := seen (200 - 100 * link) }
    else .invalidLink
  let frame (link : Nat) (ts : BitVec 32) : ReoAction :=
    .entry readings .hostConsumedFrame true true
      { valid := true
        linkId := link
        mgmtPktCtr := 1
        globalTimestamp := ts
        startTimestamp := ts
        endTimestamp := ts + 10 } true
  [frame 0 200, .updateIngress 0, .move, .ageout 60000, .move, .join, .startRelease fun _ => true,
    .releaseRound true, .sendUp true, frame 1 100]

theorem lists_in_order_late : ∃ context, Reachable (reoStep ⟨512, 256, 50000, 0⟩)
        (fun context action => action.alive context = true) .init context ∧
      context.sent.length = 1 ∧ (context.inserting.map fun update => update.desc.isStale) = some true ∧
      ListsInOrder context :=
  reaches lateFrame (fun context => context.sent.length = 1 ∧
    (context.inserting.map fun update => update.desc.isStale) = some true) (by decide +kernel)
    fun _ reached ⟨sent, stale⟩ => ⟨sent, stale, lists_in_order reached⟩

end Runs

end KernelModules.MgmtRx

import KernelModules.CamSync.Signaling

namespace KernelModules.CamSync

open Data List SyncTable NotifyBook SyncDevice

namespace NotifyBook.Kept

variable {table after : SyncTable} {book after' : NotifyBook} {idx : Nat}
  {registration : Registration}

theorem mem_withdraw (listed : registration ∈ (book.withdraw those).registrations) :
    registration ∈ book.registrations ∧ those registration = false ∨
      ∃ standing ∈ book.registrations, those standing = true ∧
        registration = { standing with withdrawn := true } := by
  obtain ⟨standing, mem, same⟩ := mem_map.mp listed
  split at same
  · rename_i taken
    exact .inr ⟨standing, mem, taken, same.symm⟩
  · rename_i left
    rw [← same]
    exact .inl ⟨mem, Bool.eq_false_iff.mpr left⟩

theorem carried (kept : book.Kept table) (registrations : after'.registrations = (book.withdraw those).registrations)
    (dispatched : after.dispatched = table.dispatched) (nodes : after.nodes = table.nodes)
    (waiting : ∀ row, (after.rows row).waiting.Sublist (table.rows row).waiting) (linked : after.Linked)
    (opened : after.camSyncEventq = true) (tracked : ∀ group, after.LiveGroup group → after'.Tracked after group)
    (plain : ∀ idx, (after.rows idx).type = .indv → (after.rows idx).state ≠ .invalid →
      (after.rows idx).remaining = 0) (taken : ∀ registration ∈ book.registrations, those registration = true →
      registration.what ∉ (after.rows registration.syncObj).waiting)
    (left : ∀ registration ∈ book.registrations, registration.withdrawn = false →
      those registration = false → registration.Placed after' after) : after'.Kept after := by
  have occurrences (what : Notification) : after.occurrences what = table.occurrences what := by
    unfold occurrences
    rw [dispatched]
  have absent {what : Notification} {row : Nat} (none : (table.rows row).waiting.count what = 0) :
      (after.rows row).waiting.count what = 0 :=
    Nat.le_zero.mp (none ▸ (waiting row).count_le what)
  have gone : ∀ registration ∈ book.registrations, registration.withdrawn = true →
      after.occurrences registration.what ≤ 1 ∧ ∀ row, (after.rows row).waiting.count registration.what = 0 := by
    intro registration mem withdrawn
    obtain ⟨once, none⟩ := kept.gone registration mem withdrawn
    rw [occurrences]
    exact ⟨once, fun row => absent (none row)⟩
  constructor
  case linked => exact linked
  case opened => exact opened
  case tracked => exact tracked
  case plain => exact plain
  case placed =>
    intro registration listed standing
    rw [registrations] at listed
    rcases mem_withdraw listed with ⟨mem, unnamed⟩ | ⟨before, _, _, rfl⟩
    · exact left registration mem standing unnamed
    · cases standing
  case gone =>
    intro registration listed withdrawn
    rw [registrations] at listed
    rcases mem_withdraw listed with ⟨mem, _⟩ | ⟨before, mem, named, rfl⟩
    · exact gone registration mem withdrawn
    cases standing : before.withdrawn with
    | true => exact gone before mem standing
    | false =>
      have placed := kept.placed before mem standing
      rw [occurrences]
      refine ⟨placed.once, fun row => ?_⟩
      rcases eq_or_ne row before.syncObj with rfl | apart
      · exact count_eq_zero.mpr (taken before mem named)
      · exact absent (placed.elsewhere row apart)
  case named =>
    intro registration listed
    rw [registrations] at listed
    rw [nodes]
    rcases mem_withdraw listed with ⟨mem, _⟩ | ⟨before, mem, _, rfl⟩
    · exact kept.named registration mem
    · exact kept.named before mem
  case logged =>
    intro dispatch logged
    rw [dispatched] at logged
    rw [nodes]
    exact kept.logged dispatch logged
  case held =>
    intro row what mem
    rw [nodes]
    exact kept.held row what ((waiting row).subset mem)

theorem withdraw_none : (book.withdraw fun _ => false).registrations = book.registrations := by
  simp [withdraw]

theorem fresh (kept : book.Kept table) (unused : (table.rows idx).state = .invalid)
    (registrations : after'.registrations = book.registrations)
    (groups : ∀ other, other ≠ idx → after'.groups other = book.groups other)
    (dispatched : after.dispatched = table.dispatched) (nodes : after.nodes = table.nodes)
    (eventq : after.camSyncEventq = table.camSyncEventq) (linked : after.Linked)
    (others : ∀ other, other ≠ idx → ∃ parentsList, after.rows other = { table.rows other with parentsList })
    (parents : ∀ other group, group ≠ idx → (group ∈ (after.rows other).parentsList ↔
      group ∈ (table.rows other).parentsList))
    (empty : (after.rows idx).waiting = [])
    (plain : (after.rows idx).type = .indv → (after.rows idx).state ≠ .invalid → (after.rows idx).remaining = 0)
    (tracked : after.LiveGroup idx → after'.Tracked after idx) : after'.Kept after := by
  refine kept.carried (registrations.trans withdraw_none.symm) dispatched nodes ?_ linked
    (eventq.trans kept.opened) ?_ ?_ (fun _ _ none => absurd none Bool.false_ne_true) ?_
  · intro row
    rcases eq_or_ne row idx with rfl | apart
    · rw [empty]
      exact nil_sublist _
    · obtain ⟨parentsList, same⟩ := others row apart
      rw [same]
      exact List.Sublist.refl _
  · intro group live
    rcases eq_or_ne group idx with rfl | apart
    · exact tracked live
    · obtain ⟨parentsList, same⟩ := others group apart
      unfold SyncTable.LiveGroup at live
      rw [same] at live
      exact (kept.tracked group live).congr (groups group apart) (by rw [same]) (by rw [same])
        fun child => parents child group apart
  · intro other type live
    rcases eq_or_ne other idx with rfl | apart
    · exact plain type live
    · obtain ⟨parentsList, same⟩ := others other apart
      rw [same] at type live ⊢
      exact kept.plain other type live
  · intro registration mem standing _
    have placed := kept.placed registration mem standing
    have apart : registration.syncObj ≠ idx := by
      intro same
      exact placed.live (same ▸ unused)
    obtain ⟨parentsList, same⟩ := others _ apart
    refine placed.unchanged (by rw [same]) (by rw [same]) (by rw [groups _ apart])
      (by rw [groups _ apart]) dispatched (by rw [same]; rfl) fun row _ => ?_
    rcases eq_or_ne row idx with rfl | nodup
    · rw [empty]
      exact nil_sublist _
    · obtain ⟨parentsList, same⟩ := others row nodup
      rw [same]
      exact List.Sublist.refl _

theorem forgotten (kept : book.Kept table) : (book.forget idx).Kept table :=
  kept.carried withdraw_none.symm rfl rfl (fun _ => .refl _) kept.linked kept.opened
    (fun group live => (kept.tracked group live).congr rfl rfl rfl fun _ => Iff.rfl) kept.plain
    (fun _ _ none => absurd none Bool.false_ne_true) fun registration mem standing _ =>
    (kept.placed registration mem standing).unchanged rfl rfl Iff.rfl rfl rfl rfl fun _ _ => .refl _

theorem created (kept : book.Kept table) (free : table.findFirstZeroBit = some idx) (named : idx ≠ 0) :
    (book.forget idx).Kept (table.createObject idx synxObj) := by
  have clear := (findFirstZeroBit_clear free).1
  have row : (table.createObject idx synxObj).rows idx = { (table.rows idx).camSyncInitRow idx .indv with
        synxObj := synxObj || (table.rows idx).synxObj } := by
    rw [createObject_rows, if_pos rfl]
  refine kept.fresh (kept.linked.free idx clear) rfl (fun _ _ => rfl) rfl rfl rfl
    (kept.linked.createObject free named) (fun other apart => ?_) (fun other group _ => ?_) ?_ ?_ ?_
  · rw [createObject_rows, if_neg apart]
    exact ⟨_, rfl⟩
  · rw [createObject_rows]
    split
    · rename_i same
      rw [same, (kept.linked.invalid_lists (kept.linked.free idx clear)).1]
      rfl
    · rfl
  · rw [row]
    rfl
  · rw [row]
    exact fun _ _ => rfl
  · rintro ⟨group, _⟩
    rw [row] at group
    cases group

theorem lose_complete {record : GroupRecord} : (record.lose child).complete = true ↔ record.complete = true := by
  unfold GroupRecord.lose
  split
  · rename_i mem
    rw [GroupRecord.complete_iff, GroupRecord.complete_iff]
    constructor
    · exact fun complete => absurd complete.2 (Nat.succ_ne_zero _)
    · intro complete
      rw [complete.1] at mem
      cases mem
  · exact Iff.rfl

theorem lose_status {record : GroupRecord} : (record.lose child).status = record.status := by
  unfold GroupRecord.lose
  split <;> rfl

theorem destroyed (kept : book.Kept table) (live : (table.rows idx).state ≠ .invalid) :
    (book.destroy idx).Kept (table.destroyObject idx) := by
  have linked := kept.linked
  have others : ∀ other, other ≠ idx → ∃ parentsList childrenList, (table.destroyObject idx).rows other =
        { table.rows other with parentsList, childrenList } := by
    intro other apart
    rw [destroyObject_rows linked, if_neg apart]
    exact ⟨_, _, rfl⟩
  have cleared : (table.destroyObject idx).rows idx = .cleared := by
    rw [destroyObject_rows linked, if_pos rfl]
  obtain ⟨_, eventq, dispatched, nodes⟩ :=
    (destroyObject_frame : _ ∧ (table.destroyObject idx).camSyncEventq = _ ∧ _)
  have waiting (row : Nat) : ((table.destroyObject idx).rows row).waiting.Sublist (table.rows row).waiting := by
    rcases eq_or_ne row idx with rfl | apart
    · rw [cleared]
      exact nil_sublist _
    · obtain ⟨parentsList, childrenList, same⟩ := others row apart
      rw [same]
      exact List.Sublist.refl _
  refine kept.carried (rfl : _ = (book.withdraw (·.syncObj == idx)).registrations) dispatched nodes
    waiting (linked.destroyObject live) (eventq.trans kept.opened) ?_ ?_ ?_ ?_
  · intro group liveGroup
    have apart : group ≠ idx := by
      rintro rfl
      exact liveGroup.2 (by rw [cleared]; rfl)
    obtain ⟨parentsList, childrenList, same⟩ := others group apart
    unfold SyncTable.LiveGroup at liveGroup
    rw [same] at liveGroup
    exact (kept.tracked group liveGroup).destroyed linked apart
  · intro other type liveOther
    rcases eq_or_ne other idx with rfl | apart
    · rw [cleared]
      rfl
    · obtain ⟨parentsList, childrenList, same⟩ := others other apart
      rw [same] at type liveOther ⊢
      exact kept.plain other type liveOther
  · intro registration _ here
    rw [beq_iff_eq.mp here, cleared]
    exact not_mem_nil
  · intro registration mem standing elsewhere
    have apart : registration.syncObj ≠ idx := fun same => by
      rw [same, beq_self_eq_true] at elsewhere
      cases elsewhere
    obtain ⟨parentsList, childrenList, same⟩ := others _ apart
    exact (kept.placed registration mem standing).unchanged (by rw [same]) (by rw [same])
      lose_complete lose_status dispatched (by rw [same]; rfl) fun row _ => waiting row

theorem quiet {next} (kept : book.Kept dev.syncTable) (quiet : Quiet dev next)
    (registrations : after'.registrations = (book.withdraw those).registrations)
    (groups : after'.groups = book.groups) (eventq : next.syncTable.camSyncEventq = dev.syncTable.camSyncEventq)
    (dispatched : next.syncTable.dispatched = dev.syncTable.dispatched)
    (nodes : next.syncTable.nodes = dev.syncTable.nodes)
    (waiting : ∀ row, (next.row row).waiting.Sublist (dev.row row).waiting)
    (taken : ∀ registration ∈ book.registrations, those registration = true →
      registration.what ∉ (next.row registration.syncObj).waiting)
    (left : ∀ registration ∈ book.registrations, those registration = false →
      (next.row registration.syncObj).waiting.count registration.what =
        (dev.row registration.syncObj).waiting.count registration.what) : after'.Kept next.syncTable := by
  have books := quiet.rows
  refine kept.carried registrations dispatched nodes waiting (quiet.linked kept.linked)
    (eventq.trans kept.opened) ?_ ?_ taken ?_
  · intro group live
    have before : dev.syncTable.LiveGroup group :=
      ⟨(books group).type.symm.trans live.1, fun gone => live.2 ((books group).state.trans gone)⟩
    exact (kept.tracked group before).congr (by rw [groups]) (books group).remaining
      (books group).state fun child => iff_of_eq (congrArg (group ∈ ·) (books child).parentsList)
  · intro other type live
    have before := kept.plain other ((books other).type.symm.trans type)
      fun gone => live ((books other).state.trans gone)
    exact (books other).remaining.trans before
  · intro registration mem standing unnamed
    exact (kept.placed registration mem standing).unchanged (books _).type (books _).state
      (by rw [groups]) (by rw [groups]) dispatched (left registration mem unnamed)
      fun row _ => waiting row

theorem abandoned (kept : book.Kept table) (clear : table.bitmap idx = false)
    (given : Abandoned table after idx) (linked : after.Linked) : book.Kept after := by
  have unused := kept.linked.free idx clear
  refine kept.fresh unused rfl (fun _ _ => rfl) given.dispatched given.nodes given.camSyncEventq
    linked (fun other apart => ⟨_, given.others other apart⟩) (fun other group _ => ?_)
    given.waiting (fun _ live => absurd given.invalid live) fun live => absurd given.invalid live.2
  rcases eq_or_ne other idx with rfl | apart
  · rw [given.parentsList, (kept.linked.invalid_lists unused).1]
  · rw [given.others other apart]

theorem merged (kept : book.Kept table) (clear : table.bitmap idx = false) (nodup : children.Nodup)
    (inside : ∀ child ∈ children, child < camSyncMaxObjs) (another : idx ∉ children)
    (joined : Joined (table.setBit idx) after idx children)
    (group : after.rows idx = ((table.setBit idx).groupRow idx children).concludeGroup)
    (order : (children.reverse.find? fun child => (table.rows child).state.failed).map (fun child =>
      (table.rows child).state) = (book.outcomes children).find? SyncState.failed) (linked : after.Linked) : ({ book.forget idx with
      groups := Function.update book.groups idx (book.newGroup table children) } : NotifyBook).Kept after := by
  have unused := kept.linked.free idx clear
  have others := joined.others
  simp only [setBit_rows] at others
  obtain ⟨type, _, parents, _⟩ :=
    ((table.setBit idx).groupRow idx children).concludeGroup_links mergedState_valid
  have waiting : ((table.setBit idx).groupRow idx children).concludeGroup.waiting = [] := by
    unfold SyncTableRow.concludeGroup
    split <;> rfl
  rw [← group] at type parents waiting
  refine kept.fresh unused rfl (fun other different => Function.update_of_ne different _ _)
    joined.dispatched joined.nodes joined.camSyncEventq linked (fun other different => ?_)
    (fun other parent different => ?_) waiting ?_ fun _ => ?_
  · rw [others other different]
    split <;> exact ⟨_, rfl⟩
  · rcases eq_or_ne other idx with rfl | apart
    · rw [parents, (kept.linked.invalid_lists unused).1]
      rfl
    · rw [others other apart]
      split
      · rw [mem_append, mem_singleton, or_iff_left different]
      · rfl
  · intro individual
    rw [type] at individual
    cases individual
  · exact Tracked.merged (children_lt nodup inside) joined group another
      (fun other => kept.linked.unlisted unused) (Function.update_self idx _ _) order nodup

section

variable (kept : book.Kept table)
include kept

theorem registered (node : what.node = table.nodes) (linked : after.Linked)
    (eventq : after.camSyncEventq = table.camSyncEventq) (nodes : after.nodes = table.nodes + 1)
    (books : ∀ row, (after.rows row).SameBooks (table.rows row)) (waiting : ∀ row other, other ≠ what →
      (after.rows row).waiting.count other = (table.rows row).waiting.count other)
    (log : ∃ told, after.dispatched = table.dispatched ++ told ∧ ∀ dispatch ∈ told, dispatch.notification = what)
    (placed : Registration.Placed { what, syncObj := idx, withdrawn := false }
      (book.register what idx) after) : (book.register what idx).Kept after := by
  obtain ⟨told, dispatched, named⟩ := log
  have earlier {other : Notification} (before : other.node < table.nodes) : other ≠ what := by
    rintro rfl
    exact absurd node (Nat.ne_of_lt before)
  have occurrences {other : Notification} (distinct : other ≠ what) :
      after.occurrences other = table.occurrences other := by
    unfold occurrences
    rw [dispatched, map_append, count_append]
    refine Nat.add_eq_left.mpr (count_eq_zero.mpr fun mem => ?_)
    obtain ⟨dispatch, logged, same⟩ := mem_map.mp mem
    exact distinct (same.symm.trans (named dispatch logged))
  constructor
  case linked => exact linked
  case opened => exact eventq.trans kept.opened
  case tracked =>
    intro group live
    have before : table.LiveGroup group :=
      ⟨(books group).type.symm.trans live.1, fun gone => live.2 ((books group).state.trans gone)⟩
    exact (kept.tracked group before).congr rfl (books group).remaining (books group).state
      fun child => iff_of_eq (congrArg (group ∈ ·) (books child).parentsList)
  case plain =>
    intro other type live
    have before := kept.plain other ((books other).type.symm.trans type)
      fun gone => live ((books other).state.trans gone)
    exact (books other).remaining.trans before
  case placed =>
    intro registration listed standing
    rcases mem_append.mp listed with mem | new
    · have distinct := earlier (kept.named registration mem)
      have before := kept.placed registration mem standing
      refine before.stays ?_ ?_ ?_ (occurrences distinct) (waiting _ _ distinct) ?_ ?_
      · rw [(books _).state]
        exact before.live
      · exact done_congr (books _).type (fun _ => (books _).state) fun _ => Iff.rfl
      · exact fun _ =>
          finalStatus_congr (books _).type (fun _ => (books _).state) fun _ => rfl
      · intro other apart
        rw [waiting _ _ distinct]
        exact before.elsewhere other apart
      · intro dispatch logged same
        rw [dispatched] at logged
        refine (mem_append.mp logged).resolve_right fun now => ?_
        exact distinct (same.symm.trans (named dispatch now))
    · rw [mem_singleton.mp new]
      exact placed
  case gone =>
    intro registration listed withdrawn
    rcases mem_append.mp listed with mem | new
    · have distinct := earlier (kept.named registration mem)
      obtain ⟨once, absent⟩ := kept.gone registration mem withdrawn
      rw [occurrences distinct]
      refine ⟨once, fun row => ?_⟩
      rw [waiting row _ distinct]
      exact absent row
    · rw [mem_singleton.mp new] at withdrawn
      cases withdrawn
  case named =>
    intro registration listed
    rw [nodes]
    rcases mem_append.mp listed with mem | new
    · exact Nat.lt_succ_of_lt (kept.named registration mem)
    · rw [mem_singleton.mp new]
      exact Nat.lt_succ_of_le (Nat.le_of_eq node)
  case logged =>
    intro dispatch logged
    rw [dispatched] at logged
    rw [nodes]
    rcases mem_append.mp logged with before | now
    · exact Nat.lt_succ_of_lt (kept.logged dispatch before)
    · rw [named dispatch now]
      exact Nat.lt_succ_of_le (Nat.le_of_eq node)
  case held =>
    intro row other mem
    rw [nodes]
    by_cases same : other = what
    · rw [same]
      exact Nat.lt_succ_of_le (Nat.le_of_eq node)
    · rw [← count_pos_iff, waiting row other same, count_pos_iff] at mem
      exact Nat.lt_succ_of_lt (kept.held row other mem)

theorem done_iff (live : (table.rows idx).state ≠ .invalid) : book.Done table idx ↔
      (table.rows idx).state.signaled = true ∧ (table.rows idx).remaining = 0 := by
  cases type : (table.rows idx).type with
  | indv =>
    rw [done_indv type]
    exact ⟨fun signaled => ⟨signaled, kept.plain idx type live⟩, And.left⟩
  | group =>
    have tracked := kept.tracked idx ⟨type, live⟩
    rw [done_group type]
    exact ⟨fun complete => ⟨tracked.finished complete, tracked.complete_iff.mp complete⟩,
      fun both => tracked.complete_iff.mpr both.2⟩

theorem finalStatus_eq (live : (table.rows idx).state ≠ .invalid) (done : book.Done table idx) :
    book.finalStatus table idx = (table.rows idx).state := by
  cases type : (table.rows idx).type with
  | indv => exact finalStatus_indv type
  | group =>
    rw [done_group type] at done
    rw [finalStatus_group type]
    exact ((kept.tracked idx ⟨type, live⟩).status done).symm

theorem unknown (node : what.node = table.nodes) :
    table.occurrences what = 0 ∧ ∀ row, (table.rows row).waiting.count what = 0 := by
  constructor
  · refine count_eq_zero.mpr fun mem => ?_
    obtain ⟨dispatch, logged, same⟩ := mem_map.mp mem
    have before := kept.logged dispatch logged
    rw [same, node] at before
    exact Nat.lt_irrefl _ before
  · refine fun row => count_eq_zero.mpr fun mem => ?_
    have before := kept.held row what mem
    rw [node] at before
    exact Nat.lt_irrefl _ before

end

theorem register {next} (kept : book.Kept dev.syncTable) (node : what.node = dev.syncTable.nodes)
    (effect : RegisterEffect dev what syncObj next)
    (settled : (∃ payload, what = .payload payload) → ∀ idx, camSyncObject syncObj = some idx →
      (dev.row idx).state.signaled = true → (dev.row idx).remaining = 0) :
    (if next.syncTable.nodes = dev.syncTable.nodes then book
      else book.register what syncObj.toNat).Kept next.syncTable := by
  have quiet := effect.quiet
  have linked := quiet.linked kept.linked
  obtain ⟨silent, nowhere⟩ := kept.unknown node
  cases effect with
  | refused =>
    rw [if_pos rfl]
    exact kept
  | @told idx dispatch named signaled finished notification told status =>
    have live : (dev.syncTable.rows idx).state ≠ .invalid := SyncState.signaled_valid signaled
    have remaining : (dev.syncTable.rows idx).remaining = 0 :=
      finished.elim id fun payload => settled payload idx named signaled
    have done : book.Done dev.syncTable idx := (kept.done_iff live).mpr ⟨signaled, remaining⟩
    have here : syncObj.toNat = idx := by rw [(camSyncObject_eq_some named).1]; rfl
    have taken : (dev.run fun table => table.takeNode.log dispatch).syncTable.nodes ≠
      dev.syncTable.nodes := Nat.succ_ne_self _
    rw [if_neg taken, here]
    refine kept.registered node linked rfl rfl quiet.rows (fun _ _ _ => rfl)
      ⟨[dispatch], rfl, fun logged mem => mem_singleton.mp mem ▸ notification⟩ ?_
    constructor
    case live => exact live
    case told =>
      intro _
      refine ⟨?_, nowhere idx⟩
      change ((dev.syncTable.dispatched ++ [dispatch]).map Dispatch.notification).count what = 1
      rw [map_append, count_append]
      change dev.syncTable.occurrences what + [dispatch.notification].count what = 1
      rw [silent, notification, count_singleton_self]
    case waits => exact absurd done
    case elsewhere => exact fun other _ => nowhere other
    case status =>
      intro logged mem same
      rcases mem_append.mp mem with before | now
      · have some := occurrences_ne_zero before
        rw [same] at some
        exact absurd silent some
      · rw [mem_singleton.mp now, told, status]
        exact ⟨rfl, (kept.finalStatus_eq live done).symm⟩
  | @added idx change named live pending books waiting =>
    have rows (row : Nat) : (dev.syncTable.takeNode.modify idx change).rows row =
        if row = idx then change (dev.syncTable.rows idx) else dev.syncTable.rows row :=
      modify_rows
    have notDone : ¬ book.Done dev.syncTable idx := by
      rw [kept.done_iff live]
      rintro ⟨signaled, remaining⟩
      rcases pending with unsignaled | awaited
      · rw [row, signaled] at unsignaled
        cases unsignaled
      · exact awaited remaining
    have here : syncObj.toNat = idx := by rw [(camSyncObject_eq_some named).1]; rfl
    have taken : (dev.run fun table => table.takeNode.modify idx change).syncTable.nodes ≠
      dev.syncTable.nodes := Nat.succ_ne_self _
    rw [if_neg taken, here]
    refine kept.registered node linked rfl rfl quiet.rows (fun row other nodup => ?_)
      ⟨[], (append_nil _).symm, fun _ mem => absurd mem not_mem_nil⟩ ?_
    · change ((dev.syncTable.takeNode.modify idx change).rows row).waiting.count other = _
      rw [rows]
      split
      · rename_i same
        rw [waiting, same, count_singleton, if_neg, add_zero]
        simpa using nodup.symm
      · rfl
    constructor
    case live => exact fun gone => live ((quiet.rows idx).state.symm.trans gone)
    case told =>
      refine fun done => absurd ?_ notDone
      exact (done_congr (quiet.rows idx).type (fun _ => (quiet.rows idx).state) fun _ => Iff.rfl).mp done
    case waits =>
      refine fun _ => ⟨silent, ?_⟩
      change ((dev.syncTable.takeNode.modify idx change).rows idx).waiting.count what = 1
      rw [rows, if_pos rfl, waiting, nowhere idx, count_singleton_self]
    case elsewhere =>
      intro other apart
      change ((dev.syncTable.takeNode.modify idx change).rows other).waiting.count what = 0
      rw [rows, if_neg apart]
      exact nowhere other
    case status =>
      intro logged mem same
      have some := @occurrences_ne_zero dev.syncTable logged mem
      rw [same] at some
      exact absurd silent some

theorem deregister {next} {gone : Notification → Bool} (kept : book.Kept dev.syncTable)
    (effect : DeregisterEffect dev gone syncObj next) : (book.deregister gone syncObj).Kept next.syncTable := by
  have quiet := effect.quiet
  unfold NotifyBook.deregister
  cases effect with
  | refused unused =>
    cases named : camSyncObject syncObj with
    | none => exact kept
    | some idx =>
      refine kept.carried rfl rfl rfl (fun _ => .refl _) kept.linked kept.opened
        (fun group live => (kept.tracked group live).congr rfl rfl rfl fun _ => Iff.rfl)
        kept.plain (fun registration mem taken => ?_) fun registration mem standing _ =>
        (kept.placed registration mem standing).unchanged rfl rfl Iff.rfl rfl rfl rfl fun _ _ => .refl _
      cases standing : registration.withdrawn with
      | true => exact count_eq_zero.mp ((kept.gone registration mem standing).2 _)
      | false =>
        have live := (kept.placed registration mem standing).live
        rw [beq_iff_eq.mp (Bool.and_eq_true_iff.mp taken).1] at live
        exact absurd (unused idx named) live
  | @removed idx change named books waiting =>
    rw [named]
    have rows (row : Nat) : (dev.run (·.modify idx change)).row row =
        if row = idx then change (dev.row idx) else dev.row row := SyncTable.modify_rows
    refine kept.quiet quiet rfl rfl rfl rfl rfl (fun row => ?_) (fun registration _ taken => ?_)
      fun registration _ left => ?_
    · rw [rows]
      split
      · rename_i same
        rw [waiting, same]
        exact filter_sublist
      · exact List.Sublist.refl _
    · obtain ⟨here, matching⟩ := Bool.and_eq_true_iff.mp taken
      rw [rows, if_pos (beq_iff_eq.mp here), waiting, mem_filter, matching]
      exact fun both => Bool.false_ne_true both.2
    · rw [rows]
      split
      · rename_i here
        rw [here, beq_self_eq_true, Bool.true_and] at left
        rw [waiting, here, count_filter]
        rw [left]
        rfl
      · rfl

theorem counted {next} (kept : book.Kept dev.syncTable) (effect : CountEffect dev next) : book.Kept next.syncTable := by
  have quiet := effect.quiet
  cases effect with
  | refused => exact kept
  | counted idx refCnt =>
    have waiting (row : Nat) : ((dev.run (·.modify idx fun row =>
        { row with refCnt := refCnt row.refCnt })).row row).waiting = (dev.row row).waiting := by
      unfold SyncDevice.row SyncDevice.run
      rw [SyncTable.modify_rows]
      split
      · rename_i same
        rw [same]
        rfl
      · rfl
    exact kept.quiet quiet withdraw_none.symm rfl rfl rfl rfl
      (fun row => by rw [waiting row]) (fun _ _ none => absurd none Bool.false_ne_true)
      fun registration _ _ => by rw [waiting]

theorem delivered (kept : state.book.Kept state.dev.syncTable) : Delivered state where
  atMostOnce := by
    intro registration mem
    cases standing : registration.withdrawn with
    | true => exact (kept.gone registration mem standing).1
    | false => exact (kept.placed registration mem standing).once
  due := by
    intro registration mem standing
    have placed := kept.placed registration mem standing
    constructor
    · intro told
      by_contra notDone
      rw [(placed.waits notDone).1] at told
      cases told
    · exact fun done => (placed.told done).1
  status := fun registration mem standing => (kept.placed registration mem standing).status

end NotifyBook.Kept

section Histories

variable {state : NotifyState}

section

variable {book : NotifyBook} {dev : SyncDevice} (kept : book.Kept dev.syncTable)
include kept

theorem camSyncSignal_recorded {after : SyncDevice}
    (done : syncStep dev (.signal syncObj status eventCause) = some after) :
    (book.record dev after (.signal syncObj status eventCause)).Kept after.syncTable := by
  unfold record
  dsimp only
  cases camSyncSignal_effect done with
  | refused =>
    cases named : camSyncObject syncObj with
    | none => exact kept
    | some idx =>
      dsimp only
      rw [if_neg fun both => both.2 both.1]
      exact kept
  | @deferred idx named active =>
    rw [named]
    dsimp only
    rw [if_neg]
    · exact kept.counted (.counted idx (· - 1))
    · rintro ⟨_, changed⟩
      refine changed ?_
      unfold row run
      rw [modify_rows_same]
      exact active
  | @signaled idx status state cause named active individual last known =>
    have done := SyncState.ofStatus_signaled known
    have row : ((dev.run (signalObject idx state cause)).row idx).state = state := by
      change ((dev.syncTable.signalObject idx state cause).rows idx).state = state
      rw [signalObject_rows kept.linked individual]
      simp [SyncTableRow.objectSignaled]
    rw [named]
    dsimp only
    rw [if_pos, row]
    · exact kept.signaled active individual done
    · rw [row]
      refine ⟨active, ?_⟩
      rintro rfl
      cases done

theorem camSyncDestroy_recorded {after : SyncDevice} (done : syncStep dev (.destroy syncObj) = some after) :
    (book.record dev after (.destroy syncObj)).Kept after.syncTable := by
  obtain ⟨⟨code, result⟩, ret, rfl⟩ := Option.map_eq_some_iff.mp done
  unfold record
  dsimp only
  cases named : camSyncObject syncObj with
  | none =>
    rw [camSyncDestroy_unnamed named] at ret
    cases ret
    exact kept
  | some idx =>
    rw [camSyncDestroy_named named] at ret
    dsimp only
    split at ret
    · cases ret
    split at ret
    · rename_i unused
      cases ret
      rw [if_pos unused]
      exact kept
    rename_i live
    split at ret
    · cases ret
      rw [if_neg live]
      exact kept.destroyed live
    · cases ret

theorem camSyncCreateUtil_recorded {after : SyncDevice} (done : syncStep dev (.create synxObj) = some after) :
    (book.record dev after (.create synxObj)).Kept after.syncTable := by
  unfold record
  have effect := camSyncCreateUtil_effect done
  cases found : dev.syncTable.findFirstZeroBit with
  | none =>
    cases effect with
    | refused => exact kept
    | created free named =>
      rw [found] at free
      cases free
  | some idx =>
    cases effect with
    | refused => exact kept.forgotten
    | created free named =>
      rw [found] at free
      cases free
      exact kept.created found named

theorem camSyncMerge_recorded {after : SyncDevice} (order : ((syncObj.map Int.toNat).reverse.find?
        fun child => (dev.row child).state.failed).map (fun child => (dev.row child).state) =
      (book.outcomes (syncObj.map Int.toNat)).find? SyncState.failed)
    (done : syncStep dev (.merge syncObj allocs [] []) = some after) :
    (book.record dev after (.merge syncObj allocs [] [])).Kept after.syncTable := by
  have linked := syncStep_linked kept.linked done
  obtain ⟨⟨code, result⟩, ret, rfl⟩ := Option.map_eq_some_iff.mp done
  obtain ⟨alone, others, effect⟩ := camSyncMerge_effect kept.linked ret
  cases others
  have refused (bits : result.syncTable.bitmap = dev.syncTable.bitmap) (same : book.Kept result.syncTable) :
      (book.record dev result (.merge syncObj allocs [] [])).Kept result.syncTable := by
    unfold record
    cases found : dev.syncTable.findFirstZeroBit with
    | none => exact same
    | some idx =>
      dsimp only
      rw [bits, (findFirstZeroBit_clear found).1]
      exact same
  cases effect with
  | refused early => exact refused rfl kept
  | abandoned late free clear given =>
    exact refused given.bitmap (kept.abandoned clear given linked)
  | merged validated found clear distinct inside another mergeable joined group =>
    cases validated
    unfold record
    rw [found]
    dsimp only
    rw [if_pos]
    · exact kept.merged clear distinct inside another joined group order linked
    · rw [joined.bitmap]
      exact Function.update_self _ _ _

end

theorem notifyStep_kept {next} (kept : state.book.Kept state.dev.syncTable)
    (allowed : NotifyCall state call) (taken : notifyStep state call = some next) :
    next.book.Kept next.dev.syncTable := by
  obtain ⟨after, done, rfl⟩ := Option.map_eq_some_iff.mp taken
  cases call with
  | create => exact camSyncCreateUtil_recorded kept done
  | merge =>
    obtain ⟨rfl, rfl, order⟩ := allowed
    exact camSyncMerge_recorded kept order done
  | signal => exact camSyncSignal_recorded kept done
  | destroy => exact camSyncDestroy_recorded kept done
  | getObjRef => exact kept.counted (camSyncGetObjRef_effect done)
  | putObjRef => exact kept.counted (camSyncPutObjRef_effect done)
  | registerCallback =>
    exact kept.register rfl (camSyncRegisterCallback_effect done) fun payload => by
      obtain ⟨_, same⟩ := payload
      cases same
  | registerUserPayload =>
    exact kept.register rfl (camSyncHandleRegisterUserPayload_effect done) fun _ => allowed
  | deregisterCallback => exact kept.deregister (camSyncDeregisterCallback_effect done)
  | deregisterUserPayload => exact kept.deregister (camSyncHandleDeregisterUserPayload_effect done)
  | eventq => exact allowed.elim

theorem opened_kept : NotifyState.opened.book.Kept NotifyState.opened.dev.syncTable where
  linked := probed_linked.of_sameLinks rfl (fun _ => rfl) (fun _ => Iff.rfl) (fun _ => rfl) fun _ => .inl rfl
  opened := rfl
  tracked := fun _ live => absurd rfl live.2
  plain := fun _ _ live => absurd rfl live
  placed := fun _ mem => absurd mem not_mem_nil
  gone := fun _ mem => absurd mem not_mem_nil
  named := fun _ mem => absurd mem not_mem_nil
  logged := fun _ mem => absurd mem not_mem_nil
  held := fun _ _ mem => absurd mem not_mem_nil

/-- In every history that registers user payloads only where no child is pending behind a status, and merges failed
children so that the last one failed first, every notification is delivered once, with the final status. -/
theorem notifications_delivered (reached : Reachable notifyStep NotifyCall .opened state) : Delivered state := by
  have kept : state.book.Kept state.dev.syncTable :=
    reached.invariant (fun state => state.book.Kept state.dev.syncTable) opened_kept
      fun _ _ _ kept allowed taken => notifyStep_kept kept allowed taken
  exact kept.delivered

theorem group_callback_run : (runActions notifyStep NotifyCall .opened
      [.create false, .create false, .merge [1, 2] .all [] [], .registerCallback 7 9 3 true,
        .getObjRef 2, .signal 2 3 0, .getObjRef 1, .signal 1 4 0]).map (fun state =>
        decide (state.dev.syncTable.dispatched = [.callback ⟨0, 7, 9⟩ 3 .signaledError])) = some true := by
  decide +kernel

theorem notifications_delivered_group : ∃ state : NotifyState,
    state.dev.syncTable.dispatched = [.callback ⟨0, 7, 9⟩ 3 .signaledError] ∧ Delivered state := by
  obtain ⟨state, ran, told⟩ := Option.map_eq_some_iff.mp group_callback_run
  exact ⟨state, of_decide_eq_true told, notifications_delivered (Reachable.start.run ran)⟩

theorem early_payload_run : (runActions notifyStep (fun _ _ => True) .opened
      [.create false, .create false, .merge [1, 2] .all [] [], .getObjRef 1, .signal 1 2 0,
        .registerUserPayload (5, 6) 3 true]).map (fun state =>
        decide (state.book.registrations = [⟨.payload ⟨0, (5, 6)⟩, 3, false⟩] ∧
          state.dev.syncTable.occurrences (.payload ⟨0, (5, 6)⟩) = 1 ∧
          ¬ state.book.Done state.dev.syncTable 3)) = some true := by
  decide +kernel

theorem early_payload_delivered :
    ∃ state, Reachable notifyStep (fun _ _ => True) .opened state ∧ ¬ Delivered state := by
  obtain ⟨state, ran, facts⟩ := Option.map_eq_some_iff.mp early_payload_run
  obtain ⟨registered, told, pending⟩ := of_decide_eq_true facts
  refine ⟨state, Reachable.start.run ran, fun delivered => pending ?_⟩
  have listed : (⟨.payload ⟨0, (5, 6)⟩, 3, false⟩ : Registration) ∈ state.book.registrations := by
    rw [registered]
    exact mem_singleton.mpr rfl
  exact (delivered.due _ listed rfl).mp told

end Histories

end KernelModules.CamSync

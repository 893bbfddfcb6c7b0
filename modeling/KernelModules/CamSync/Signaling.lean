import KernelModules.CamSync.Delivery

namespace KernelModules.CamSync

open Data NotifyBook SyncTable

/-! # A signal keeps the book

It dispatches what waits on its object, and on the groups whose last pending child that is.
-/

section

variable {tbl after : SyncTable} {idx : Nat}
  (type : (after.rows idx).type = (tbl.rows idx).type)
  (indv : (tbl.rows idx).type = .indv → (after.rows idx).state = (tbl.rows idx).state)
include type indv

theorem NotifyBook.done_congr {book after' : NotifyBook} (group : (tbl.rows idx).type = .group →
      ((after'.groups idx).complete = true ↔ (book.groups idx).complete = true)) :
    after'.Done after idx ↔ book.Done tbl idx := by
  cases same : (tbl.rows idx).type with
  | indv => rw [done_indv (type.trans same), done_indv same, indv same]
  | group => rw [done_group (type.trans same), done_group same, group same]

theorem NotifyBook.finalStatus_congr {book after' : NotifyBook} (group : (tbl.rows idx).type = .group →
      (after'.groups idx).status = (book.groups idx).status) :
    after'.finalStatus after idx = book.finalStatus tbl idx := by
  cases same : (tbl.rows idx).type with
  | indv =>
    rw [finalStatus_indv (type.trans same), finalStatus_indv same, indv same]
  | group =>
    rw [finalStatus_group (type.trans same), finalStatus_group same, group same]

end

section

variable {reg : Registration} {book : NotifyBook} {tbl : SyncTable}
  (placed : reg.Placed book tbl)
include placed

theorem Registration.Placed.once : tbl.occurrences reg.what ≤ 1 := by
  by_cases done : book.Done tbl reg.syncObj
  · exact Nat.le_of_eq (placed.told done).1
  · rw [(placed.waits done).1]
    exact Nat.zero_le 1

theorem Registration.Placed.unchanged (type : (after.rows reg.syncObj).type = (tbl.rows reg.syncObj).type)
    (state : (after.rows reg.syncObj).state = (tbl.rows reg.syncObj).state)
    (complete : (after'.groups reg.syncObj).complete = true ↔ (book.groups reg.syncObj).complete = true)
    (status : (after'.groups reg.syncObj).status = (book.groups reg.syncObj).status)
    (dispatched : after.dispatched = tbl.dispatched)
    (here : (after.rows reg.syncObj).waiting.count reg.what = (tbl.rows reg.syncObj).waiting.count reg.what)
    (waiting : ∀ row, row ≠ reg.syncObj →
      (after.rows row).waiting.Sublist (tbl.rows row).waiting) : reg.Placed after' after := by
  refine placed.stays ?_ ?_ ?_ ?_ here ?_ ?_
  · rw [state]
    exact placed.live
  · exact done_congr type (fun _ => state) fun _ => complete
  · exact fun _ => finalStatus_congr type (fun _ => state) fun _ => status
  · unfold occurrences
    rw [dispatched]
  · intro other apart
    exact Nat.le_zero.mp (placed.elsewhere other apart ▸ (waiting other apart).count_le reg.what)
  · intro dispatch logged _
    rw [← dispatched]
    exact logged

end

namespace NotifyBook.Kept

variable {tbl : SyncTable} {book : NotifyBook} {idx : Nat} {state : SyncState}

section

variable (kept : book.Kept tbl) (active : (tbl.rows idx).state = .active)
  (individual : (tbl.rows idx).type = .indv) (done : state.signaled = true)
include kept active individual done

theorem placed_signaled {reg : Registration} (placed : reg.Placed book tbl) :
    reg.Placed (book.signal idx state) (tbl.signalObject idx state eventCause) := by
  have linked := kept.linked
  have valid := SyncState.signaled_valid done
  have links (other : Nat) := signalObject_links linked active individual valid other eventCause
  have waiting := signalObject_waiting linked kept.opened individual done eventCause
  have occurrences := signalObject_occurrences linked kept.opened individual done
    eventCause reg.syncObj placed.elsewhere
  have live : ((tbl.signalObject idx state eventCause).rows reg.syncObj).state ≠
      .invalid := fun gone => placed.live ((links _).2.1.mp gone)
  have elsewhere : ∀ other, other ≠ reg.syncObj →
      ((tbl.signalObject idx state eventCause).rows other).waiting.count reg.what = 0 := by
    intro other different
    rw [waiting other]
    split
    · rfl
    · exact placed.elsewhere other different
  have logged : ∀ dispatch ∈ (tbl.signalObject idx state eventCause).dispatched,
      dispatch.notification = reg.what → dispatch ∈ tbl.dispatched ∨
        tbl.Tells idx reg.syncObj ∧ dispatch.syncObj = reg.syncObj ∧ dispatch.status =
          ((tbl.signalObject idx state eventCause).rows reg.syncObj).state := by
    intro dispatch mem same
    rcases signalObject_logged linked kept.opened individual done mem with
      before | ⟨row, tells, named, status, held⟩
    · exact .inl before
    have here : row = reg.syncObj := by
      by_contra different
      rw [same] at held
      exact List.count_eq_zero.mp (placed.elsewhere row different) held
    rw [here] at tells named status
    exact .inr ⟨tells, named, status⟩
  have sameType := (links reg.syncObj).1
  cases type : (tbl.rows reg.syncObj).type with
  | indv =>
    rw [type] at sameType
    by_cases same : reg.syncObj = idx
    · have row : ((tbl.signalObject idx state eventCause).rows reg.syncObj).state = state := by
        rw [signalObject_rows linked individual, if_pos same]
        simp [SyncTableRow.objectSignaled]
      refine placed.leaves live ?_ ?_ (by rw [occurrences, if_pos (.inl same)])
        (by rw [waiting, if_pos (.inl same)]) elsewhere fun dispatch mem told => ?_
      · rw [done_indv type, same, active]
        exact Bool.false_ne_true
      · rw [done_indv sameType, row]
        exact done
      · rw [finalStatus_indv sameType]
        exact (logged dispatch mem told).imp_right And.right
    · have apart : reg.syncObj ∉ (tbl.rows idx).parentsList := by
        intro listed
        have group := (linked.parent_live listed).1
        rw [type] at group
        cases group
      have untold : ¬ tbl.Tells idx reg.syncObj := by
        rintro (own | parent)
        · exact same own
        · exact apart parent.1
      have row : (tbl.signalObject idx state eventCause).rows reg.syncObj = tbl.rows reg.syncObj := by
        rw [signalObject_rows linked individual, if_neg same, if_neg apart]
      refine placed.stays live ?_ ?_ (by rw [occurrences, if_neg untold]; rfl) (by rw [row])
        elsewhere fun dispatch mem told => ?_
      · rw [done_indv type, done_indv sameType, row]
      · intro _
        rw [finalStatus_indv type, finalStatus_indv sameType, row]
      · exact (logged dispatch mem told).resolve_right fun now => untold now.1
  | group =>
    rw [type] at sameType
    have before := kept.tracked reg.syncObj ⟨type, placed.live⟩
    have now := before.signaled linked active individual done ⟨type, placed.live⟩ eventCause
    have different : reg.syncObj ≠ idx := by
      intro same
      rw [same, individual] at type
      cases type
    by_cases listed : reg.syncObj ∈ (tbl.rows idx).parentsList
    · have row : ((tbl.signalObject idx state eventCause).rows reg.syncObj).remaining =
          (tbl.rows reg.syncObj).remaining - 1 := by
        rw [signalObject_rows linked individual, if_neg different, if_pos listed]
        exact SyncTableRow.childSignaled_remaining
      have notYet : ¬ book.Done tbl reg.syncObj := by
        rw [done_group type, GroupRecord.complete_iff]
        intro complete
        have awaited := (before.awaiting idx).mpr listed
        rw [complete.1] at awaited
        cases awaited
      by_cases last : (tbl.rows reg.syncObj).remaining - 1 = 0
      · have tells : tbl.Tells idx reg.syncObj := .inr ⟨listed, last⟩
        have complete : ((book.signal idx state).groups reg.syncObj).complete = true := by
          rw [now.complete_iff, row]
          exact last
        refine placed.leaves live notYet ?_ (by rw [occurrences, if_pos tells])
          (by rw [waiting, if_pos tells]) elsewhere fun dispatch mem told => ?_
        · rw [done_group sameType]
          exact complete
        · rw [finalStatus_group sameType, ← now.status complete]
          exact (logged dispatch mem told).imp_right And.right
      · have untold : ¬ tbl.Tells idx reg.syncObj := by
          rintro (own | parent)
          · exact different own
          · exact last parent.2
        have notDone : ¬ (book.signal idx state).Done (tbl.signalObject idx state eventCause) reg.syncObj := by
          rw [done_group sameType, now.complete_iff, row]
          exact last
        refine placed.stays live ⟨fun isDone => absurd isDone notDone,
            fun isDone => absurd isDone notYet⟩ (fun isDone => absurd isDone notYet)
          (by rw [occurrences, if_neg untold]; rfl) (by rw [waiting, if_neg untold])
          elsewhere fun dispatch mem told => ?_
        exact (logged dispatch mem told).resolve_right fun now => untold now.1
    · have untold : ¬ tbl.Tells idx reg.syncObj := by
        rintro (own | parent)
        · exact different own
        · exact listed parent.1
      have record : (book.signal idx state).groups reg.syncObj = book.groups reg.syncObj :=
        if_neg fun mem => listed ((before.awaiting idx).mp mem)
      refine placed.stays live ?_ ?_ (by rw [occurrences, if_neg untold]; rfl)
        (by rw [waiting, if_neg untold]) elsewhere fun dispatch mem told => ?_
      · rw [done_group type, done_group sameType, record]
      · intro _
        rw [finalStatus_group type, finalStatus_group sameType, record]
      · exact (logged dispatch mem told).resolve_right fun now => untold now.1

theorem signaled : (book.signal idx state).Kept (tbl.signalObject idx state eventCause) := by
  have linked := kept.linked
  have valid := SyncState.signaled_valid done
  have links (other : Nat) := signalObject_links linked active individual valid other eventCause
  have liveBefore {group : Nat} (live : (tbl.signalObject idx state eventCause).LiveGroup group) :
      tbl.LiveGroup group :=
    ⟨(links group).1.symm.trans live.1, fun gone => live.2 ((links group).2.1.mpr gone)⟩
  have tracked : ∀ group, tbl.LiveGroup group → (book.signal idx state).Tracked
      (tbl.signalObject idx state eventCause) group := fun group live =>
    (kept.tracked group live).signaled linked active individual done live eventCause
  have waiting := signalObject_waiting linked kept.opened individual done eventCause
  have subset (row : Nat) {what : Notification}
      (mem : what ∈ ((tbl.signalObject idx state eventCause).rows row).waiting) :
      what ∈ (tbl.rows row).waiting := by
    rw [waiting row] at mem
    split at mem
    · cases mem
    · exact mem
  constructor
  case linked => exact linked.signalObject active individual valid
  case opened => exact signalObject_frame.2.1.trans kept.opened
  case tracked => exact fun group live => tracked group (liveBefore live)
  case plain =>
    intro other type live
    have before := kept.plain other ((links other).1.symm.trans type) fun gone => live ((links other).2.1.mpr gone)
    rw [signalObject_rows linked individual]
    split
    · rename_i same
      rw [same] at before
      simpa [SyncTableRow.objectSignaled] using before
    split
    · rename_i listed
      have group := (linked.parent_live listed).1
      rw [(links other).1.symm.trans type] at group
      cases group
    · exact before
  case placed =>
    exact fun reg mem standing =>
      kept.placed_signaled active individual done (kept.placed reg mem standing)
  case gone =>
    intro reg mem withdrawn
    obtain ⟨once, absent⟩ := kept.gone reg mem withdrawn
    constructor
    · rw [signalObject_occurrences linked kept.opened individual done eventCause 0
        fun other _ => absent other, absent 0, ite_self]
      exact once
    · intro row
      rw [List.count_eq_zero]
      exact fun mem => List.count_eq_zero.mp (absent row) (subset row mem)
  case named =>
    intro reg mem
    rw [signalObject_frame.2.2]
    exact kept.named reg mem
  case logged =>
    intro dispatch logged
    rw [signalObject_frame.2.2]
    rcases signalObject_logged linked kept.opened individual done logged with
      before | ⟨row, _, _, _, held⟩
    · exact kept.logged dispatch before
    · exact kept.held row _ held
  case held =>
    intro row what mem
    rw [signalObject_frame.2.2]
    exact kept.held row what (subset row mem)

end

end NotifyBook.Kept

end KernelModules.CamSync

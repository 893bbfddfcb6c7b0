import KernelModules.IpaRouting.Headers

namespace KernelModules.IpaRouting

open Data RtState Function

/-! # Keeping the books

The steps that the operations are made of keep the books of the tables, the headers and the handles.
-/

namespace RtState

variable {cfg : RtConfig} {s after : RtState} {tbl entry id : Nat}

structure Kept (cfg : RtConfig) (s : RtState) : Prop where
  tbls : s.TblBooks cfg
  hdrs : s.HdrBooks
  handles : s.Handles

theorem Handles.congr (handles : s.Handles) (idr : after.idr = s.idr)
    (sets : ∀ tbl, tbl ∈ after.listed ↔ tbl ∈ s.listed) (lives : after.live = s.live)
    (hdrs : after.hdrs = s.hdrs) (tbls : ∀ tbl ∈ s.listed, (after.tbls tbl).id = (s.tbls tbl).id)
    (entries : ∀ entry ∈ s.live, (after.entries entry).id = (s.entries entry).id)
    (ids : after.hdrId = s.hdrId) : after.Handles := by
  unfold Handles
  rw [idr]
  refine Named.congr handles (fun obj => ?_) fun obj reg => ?_
  · cases obj with
    | rtTbl tbl => exact sets tbl
    | rtRule entry =>
      show entry ∈ after.live ↔ entry ∈ s.live
      rw [lives]
    | hdr ref =>
      show ref ∈ after.hdrs ↔ ref ∈ s.hdrs
      rw [hdrs]
  · cases obj with
    | rtTbl tbl => exact tbls tbl reg
    | rtRule entry => exact entries entry reg
    | hdr ref => exact congrFun ids ref

namespace Kept

theorem init : (RtState.init cfg).Kept cfg := by
  refine ⟨.init, ⟨.nil, List.forall_mem_nil _, List.forall_mem_nil _⟩, ⟨fun id object => ?_, .nil⟩⟩
  have nobody : ¬(RtState.init cfg).Registered object := by
    cases object <;> exact List.not_mem_nil
  exact ⟨fun known => absurd known List.not_mem_nil, fun known => absurd known.1 nobody⟩

theorem congr (kept : s.Kept cfg) (sets : after.sets = s.sets) (lives : after.live = s.live)
    (tbls : ∀ tbl, { after.tbls tbl with refCnt := 0 } = { s.tbls tbl with refCnt := 0 })
    (entries : ∀ entry ∈ s.live, after.entries entry = s.entries entry) (idr : after.idr = s.idr)
    (hdrs : after.hdrs = s.hdrs) (ids : after.hdrId = s.hdrId)
    (counts : after.hdrRefCnt = s.hdrRefCnt) (others : after.hdrOthers = s.hdrOthers) : after.Kept cfg := by
  have listed : after.listed = s.listed := by rw [listed, sets, listed]
  refine ⟨?_, kept.hdrs.congr hdrs ids counts others lives entries, ?_⟩
  · exact kept.tbls.congr sets lives (fun tbl => congrArg (·.ip) (tbls tbl))
      (fun tbl => congrArg (·.idx) (tbls tbl)) (fun tbl => congrArg (·.rules) (tbls tbl))
      (fun tbl => congrArg (·.ruleCnt) (tbls tbl)) fun entry live => by rw [entries entry live]
  · refine kept.handles.congr idr (fun tbl => by rw [listed]) lives hdrs ?_ ?_ ids
    · exact fun tbl _ => congrArg (·.id) (tbls tbl)
    · exact fun entry live => by rw [entries entry live]

theorem setRefCnt (kept : s.Kept cfg) : (s.setTbl tbl { s.tbls tbl with refCnt := count }).Kept cfg := by
  refine kept.congr rfl rfl (fun other => ?_) (fun _ _ => rfl) rfl rfl rfl rfl rfl
  unfold setTbl
  dsimp only
  by_cases here : other = tbl
  · subst here
    rw [update_self]
  · rw [update_of_ne here]

theorem setDead (kept : s.Kept cfg) (dead : entry ∉ s.live) : (s.setEntry entry rule).Kept cfg := by
  refine kept.congr rfl rfl (fun _ => rfl) (fun other live => ?_) rfl rfl rfl rfl rfl
  refine update_of_ne ?_ _ _
  rintro rfl
  exact dead live

theorem listRtTbl (kept : s.Kept cfg) (new : tbl ∉ s.listed) (unknown : tbl ∉ s.reaped)
    (free : (s.sets ip).rtIdxBitmap idx = false) (granted : s.idFree id) (mine : table.ip = ip)
    (index : table.idx = idx) (empty : table.rules = []) (none : table.ruleCnt = 0)
    (name : table.id = id) : ((s.setTbl tbl table).listRtTbl ip tbl idx id).Kept cfg := by
  have more : ((s.setTbl tbl table).listRtTbl ip tbl idx id).listed.Perm (tbl :: s.listed) :=
    listRtTbl_listed
  have atTbl : ((s.setTbl tbl table).listRtTbl ip tbl idx id).tbls tbl = table :=
    update_self _ _ _
  refine ⟨kept.tbls.list new unknown free mine index empty none, ?_, ?_⟩
  · exact kept.hdrs.congr rfl rfl rfl rfl rfl fun _ _ => rfl
  · have unregistered : ¬s.Registered (.rtTbl tbl) := new
    refine Named.add kept.handles (of_decide_eq_true granted) unregistered (fun obj => ?_) ?_ fun obj reg => ?_
    · cases obj with
      | rtTbl other =>
        show other ∈ ((s.setTbl tbl table).listRtTbl ip tbl idx id).listed ↔ _ ∨ other ∈ s.listed
        rw [more.mem_iff, List.mem_cons, IdrObject.rtTbl.injEq]
      | rtRule entry | hdr ref => exact ⟨.inr, fun known => known.resolve_left (by simp)⟩
    · show (((s.setTbl tbl table).listRtTbl ip tbl idx id).tbls tbl).id = id
      rw [atTbl, name]
    · cases obj with
      | rtTbl other =>
        refine congrArg RtTbl.id (update_of_ne ?_ _ _)
        rintro rfl
        exact new reg
      | rtRule entry => rfl
      | hdr ref => rfl

theorem family (kept : s.Kept cfg) (listed : tbl ∈ s.listed) : tbl ∈ (s.sets (s.tbls tbl).ip).headRtTblList := by
  obtain ⟨ip, mem⟩ := mem_listed.mp listed
  rw [(kept.tbls.sets ip).family tbl mem]
  exact mem

theorem unlist (kept : s.Kept cfg) (mem : tbl ∈ (s.sets ip).headRtTblList)
    (empty : (s.tbls tbl).rules = []) : ((s.unlistRtTbl ip tbl).idRemove (s.tbls tbl).id).Kept cfg := by
  have fewer := unlistRtTbl_listed mem
  have reg : s.Registered (.rtTbl tbl) := mem_listed.mpr ⟨ip, mem⟩
  have once := fewer.nodup_iff.mp kept.tbls.holding.owners_nodup
  refine ⟨?_, kept.hdrs.congr rfl rfl rfl rfl rfl fun _ _ => rfl, ?_⟩
  · exact (kept.tbls.unlist mem empty).congr rfl rfl (fun _ => rfl) (fun _ => rfl) (fun _ => rfl)
      (fun _ => rfl) fun _ _ => rfl
  · refine Named.congr (Named.erase kept.handles reg) (fun obj => ?_) fun obj _ => ?_
    · cases obj with
      | rtTbl other =>
        show other ∈ (s.unlistRtTbl ip tbl).listed ↔ other ∈ s.listed ∧ _
        rw [fewer.mem_iff, List.mem_cons, ne_eq, IdrObject.rtTbl.injEq]
        refine ⟨fun left => ⟨.inr left, ?_⟩, fun known => known.1.resolve_left known.2⟩
        rintro rfl
        exact (List.nodup_cons.mp once).1 left
      | rtRule entry | hdr ref => exact ⟨fun known => ⟨known, by simp⟩, fun known => known.1⟩
    · cases obj <;> rfl

theorem delRtTbl_eq (kept : s.Kept cfg) (mem : tbl ∈ s.listed) :
    s.delRtTbl tbl = (s.unlistRtTbl (s.tbls tbl).ip tbl).idRemove (s.tbls tbl).id := by
  unfold delRtTbl
  dsimp only
  rw [kept.handles.idFind_tbl mem, if_neg (by simp)]

theorem gain (kept : s.Kept cfg) (mem : tbl ∈ s.listed) (new : entry ∉ s.live)
    (granted : s.idFree id) (sets : after.sets = s.sets) (lives : after.live = entry :: s.live)
    (others : ∀ other, other ≠ tbl → after.tbls other = s.tbls other)
    (table : ∃ rules, rules.Perm (entry :: (s.tbls tbl).rules) ∧
      after.tbls tbl = { s.tbls tbl with rules, ruleCnt := (s.tbls tbl).ruleCnt + 1 })
    (home : (after.entries entry).tbl = tbl) (name : (after.entries entry).id = id)
    (entries : ∀ other, other ≠ entry → after.entries other = s.entries other)
    (idr : after.idr = (id, .rtRule entry) :: s.idr) (hdrs : after.hdrs = s.hdrs)
    (ids : after.hdrId = s.hdrId) (hdrOthers : after.hdrOthers = s.hdrOthers)
    (counts : ∀ ref, after.hdrRefCnt ref = s.hdrRefCnt ref + if after.hdrOf entry = some ref then 1 else 0)
    (points : s.Points (after.entries entry)) : after.Kept cfg := by
  obtain ⟨rules, more, mine⟩ := table
  have old (other : Nat) (live : other ∈ s.live) : other ≠ entry := by
    rintro rfl
    exact new live
  have sameListed : after.listed = s.listed := by rw [RtState.listed, sets, RtState.listed]
  refine ⟨?_, ?_, ?_⟩
  · exact kept.tbls.gain mem new sets lives others (by rw [mine]) (by rw [mine])
      (by rw [mine]; exact more) (by rw [mine]) home entries
  · exact kept.hdrs.gain hdrs ids counts hdrOthers lives (fun other live => entries other (old other live)) points
  · unfold Handles
    rw [idr]
    refine Named.add kept.handles (of_decide_eq_true granted) new (fun obj => ?_) name fun obj reg => ?_
    · cases obj with
      | rtTbl other =>
        show other ∈ after.listed ↔ _ ∨ other ∈ s.listed
        rw [sameListed]
        exact ⟨.inr, fun known => known.resolve_left (by simp)⟩
      | rtRule other =>
        show other ∈ after.live ↔ _ ∨ other ∈ s.live
        rw [lives, List.mem_cons, IdrObject.rtRule.injEq]
      | hdr ref =>
        show ref ∈ after.hdrs ↔ _ ∨ ref ∈ s.hdrs
        rw [hdrs]
        exact ⟨.inr, fun known => known.resolve_left (by simp)⟩
    · cases obj with
      | rtTbl other =>
        show (after.tbls other).id = (s.tbls other).id
        by_cases here : other = tbl
        · rw [here, mine]
        · rw [others other here]
      | rtRule other =>
        show (after.entries other).id = (s.entries other).id
        rw [entries other (old other reg)]
      | hdr ref => exact congrFun ids ref

theorem withoutRule (kept : s.Kept cfg) (listed : tbl ∈ s.listed)
    (mem : entry ∈ (s.tbls tbl).rules) : (s.withoutRule tbl entry).Kept cfg := by
  have live : entry ∈ s.live := kept.tbls.holding.mem listed mem
  have once : s.live.Nodup := kept.tbls.holding.once
  have lives : (s.withoutRule tbl entry).live = s.live.erase entry :=
    congrArg (List.erase · entry) withoutRefOf_frame.2.2.1
  have entries : (s.withoutRule tbl entry).entries = s.entries := withoutRefOf_frame.1
  have sets : (s.withoutRule tbl entry).sets = s.sets := withoutRefOf_frame.2.2.2.1
  have tbls : (s.withoutRule tbl entry).tbls = (s.listDelRule tbl entry).tbls := by
    show update (s.withoutRefOf entry).tbls tbl _ = _
    rw [withoutRefOf_frame.2.1]
    rfl
  have points := kept.hdrs.points entry live
  refine ⟨kept.tbls.lose listed mem sets lives tbls entries, kept.hdrs.withoutRule live, ?_⟩
  have released := withoutRefOf_handles kept.handles kept.hdrs.once points
  have reg : (s.withoutRefOf entry).Registered (.rtRule entry) := by
    show entry ∈ (s.withoutRefOf entry).live
    rwa [withoutRefOf_frame.2.2.1]
  refine Named.congr (Named.erase released reg) (fun obj => ?_) fun obj _ => ?_
  · cases obj with
    | rtTbl other | hdr ref =>
      exact ⟨fun known => ⟨known, by simp⟩, fun known => known.1⟩
    | rtRule other =>
      show other ∈ (s.withoutRule tbl entry).live ↔ other ∈ (s.withoutRefOf entry).live ∧ _
      rw [lives, withoutRefOf_frame.2.2.1, once.mem_erase_iff, and_comm, ne_eq, ne_eq, IdrObject.rtRule.injEq]
  · cases obj with
    | rtTbl other =>
      show ((s.withoutRule tbl entry).tbls other).id = ((s.withoutRefOf entry).tbls other).id
      rw [tbls, withoutRefOf_frame.2.1]
      by_cases here : other = tbl
      · subst here
        rw [listDelRule_self]
      · rw [listDelRule_of_ne here]
    | rtRule other => rfl
    | hdr ref => rfl

end Kept

end RtState

end KernelModules.IpaRouting

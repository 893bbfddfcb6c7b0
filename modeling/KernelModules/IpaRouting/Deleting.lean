import KernelModules.IpaRouting.Adding

namespace KernelModules.IpaRouting

open Data RtState Function

/-! # Deleting and changing rules

With its last rule and its last reference a table goes, too.
-/

namespace RtState

variable {cfg : RtConfig} {s after : RtState} {tbl entry : Nat} {rule : RtRule} {hdr procCtx : Option Nat}

structure Unlisted (cfg : RtConfig) (s after : RtState) (tbl : Nat) : Prop where
  kept : after.Kept cfg
  listed : s.listed.Perm (tbl :: after.listed)
  tbls : after.tbls = s.tbls

theorem Kept.unlisted (kept : s.Kept cfg) (mem : tbl ∈ (s.sets ip).headRtTblList)
    (empty : (s.tbls tbl).rules = []) : Unlisted cfg s ((s.unlistRtTbl ip tbl).idRemove (s.tbls tbl).id) tbl :=
  ⟨kept.unlist mem empty, unlistRtTbl_listed mem, rfl⟩

theorem Unlisted.mem_iff (unlisted : Unlisted cfg s after tbl) (once : s.listed.Nodup) :
    other ∈ after.listed ↔ other ∈ s.listed ∧ other ≠ tbl := by
  have apart := (List.nodup_cons.mp (unlisted.listed.nodup_iff.mp once)).1
  rw [unlisted.listed.mem_iff, List.mem_cons]
  constructor
  · intro left
    refine ⟨.inr left, ?_⟩
    rintro rfl
    exact apart left
  · rintro ⟨same | left, different⟩
    · exact absurd same different
    · exact left

theorem Unlisted.used (unlisted : Unlisted cfg s after tbl) (once : s.listed.Nodup)
    (used : ∀ other ∈ s.listed, other ≠ tbl → s.UsedAt other) : after.Used := by
  intro other left
  obtain ⟨mem, apart⟩ := (unlisted.mem_iff once).mp left
  exact (used other mem apart).congr (congrFun unlisted.tbls other)

theorem Kept.delRtTbl (kept : s.Kept cfg) (mem : tbl ∈ s.listed) (empty : (s.tbls tbl).rules = []) :
    Unlisted cfg s (s.delRtTbl tbl) tbl := by
  rw [kept.delRtTbl_eq mem]
  exact kept.unlisted (kept.family mem) empty

theorem withoutRule_self : (s.withoutRule tbl entry).tbls tbl = { s.tbls tbl with
    rules := (s.tbls tbl).rules.erase entry, ruleCnt := (s.tbls tbl).ruleCnt - 1 } := by
  show ((s.withoutRefOf entry).listDelRule tbl entry).tbls tbl = _
  rw [listDelRule_self, withoutRefOf_frame.2.1]

theorem withoutRule_of_ne (apart : other ≠ tbl) : (s.withoutRule tbl entry).tbls other = s.tbls other := by
  show ((s.withoutRefOf entry).listDelRule tbl entry).tbls other = _
  rw [listDelRule_of_ne apart, withoutRefOf_frame.2.1]

theorem withoutRule_sets : (s.withoutRule tbl entry).sets = s.sets := withoutRefOf_frame.2.2.2.1

theorem withoutRule_listed : (s.withoutRule tbl entry).listed = s.listed := by
  rw [listed, withoutRule_sets, listed]

theorem withoutRule_entries : (s.withoutRule tbl entry).entries = s.entries := withoutRefOf_frame.1

theorem Handles.tbl_ne_rule (handles : s.Handles) (mem : tbl ∈ s.listed) (live : entry ∈ s.live) :
    (s.tbls tbl).id ≠ (s.entries entry).id := by
  intro same
  have one := handles.idFind_tbl mem
  rw [same, handles.idFind_rule live] at one
  cases one

theorem delRtTbl_freeRule (apart : (s.tbls tbl).id ≠ (s.entries entry).id) :
    (s.delRtTbl tbl).freeRule entry = (s.freeRule entry).delRtTbl tbl := by
  have found : (s.freeRule entry).idFind (s.tbls tbl).id = s.idFind (s.tbls tbl).id :=
    handleFind_remove_ne apart
  unfold delRtTbl
  dsimp only
  show _ = if (s.freeRule entry).idFind (s.tbls tbl).id = none then _ else _
  rw [found]
  split
  · rfl
  · unfold freeRule idRemove unlistRtTbl setSet
    rw [handleRemove_comm]

theorem Kept.delRtRule (kept : s.Kept cfg) (used : s.Used) :
    (s.delRtRule env hdl).1.Kept cfg ∧ (s.delRtRule env hdl).1.Used := by
  unfold RtState.delRtRule
  split
  · rename_i entry known
    have live : entry ∈ s.live := (Named.of_find kept.handles known).1
    obtain ⟨listed, mem⟩ := kept.tbls.live live
    have points := kept.hdrs.points entry live
    dsimp only
    split
    · exact ⟨kept, used⟩
    rw [points.forgetDeletedHdr kept.handles, kept.handles.releaseHdrOf points]
    have lost := kept.withoutRule listed mem
    have still : (s.entries entry).tbl ∈ (s.withoutRule (s.entries entry).tbl entry).listed := by
      rwa [withoutRule_listed]
    have others (other : Nat) (there : other ∈ (s.withoutRule (s.entries entry).tbl entry).listed)
        (apart : other ≠ (s.entries entry).tbl) : (s.withoutRule (s.entries entry).tbl entry).UsedAt other := by
      rw [withoutRule_listed] at there
      exact (used other there).congr (withoutRule_of_ne apart)
    have count := lost.tbls.ruleCnt _ still
    split
    · rename_i last
      have empty : ((s.withoutRule (s.entries entry).tbl entry).tbls (s.entries entry).tbl).rules = [] :=
        List.eq_nil_of_length_eq_zero (count.symm.trans last.1)
      have apart : (((s.withoutRefOf entry).listDelRule (s.entries entry).tbl entry).tbls
          (s.entries entry).tbl).id ≠ (s.entries entry).id := by
        rw [listDelRule_self, withoutRefOf_frame.2.1]
        exact kept.handles.tbl_ne_rule listed live
      rw [delRtTbl_freeRule (by
        show _ ≠ ((s.withoutRefOf entry).entries entry).id
        rwa [withoutRefOf_frame.1])]
      have unlisted := lost.delRtTbl still empty
      exact ⟨unlisted.kept, unlisted.used lost.tbls.holding.owners_nodup others⟩
    · rename_i more
      refine ⟨lost, fun other there => ?_⟩
      by_cases apart : other = (s.entries entry).tbl
      · subst apart
        intro _ empty unreferenced
        exact more ⟨count.trans (congrArg List.length empty), unreferenced⟩
      · exact others other there apart
  · exact ⟨kept, used⟩

def withTarget (s : RtState) (entry : Nat) (rule : RtRule) (hdr procCtx : Option Nat) : RtState :=
  { s with
    entries := update s.entries entry { s.entries entry with rule, hdr, procCtx }
    hdrRefCnt := fun ref => (s.hdrRefCnt ref - if s.hdrOf entry = some ref then 1 else 0) +
      if RtEntry.target { s.entries entry with rule, hdr, procCtx } = some ref then 1 else 0 }

theorem withTarget_hdrOf : (s.withTarget entry rule hdr procCtx).hdrOf entry =
    RtEntry.target { s.entries entry with rule, hdr, procCtx } :=
  congrArg RtEntry.target (update_self _ _ _)

theorem withTarget_eq (one : hdr = none ∨ procCtx = none) :
    (((s.dropHdrOf entry).setEntry entry { (s.dropHdrOf entry).entries entry with rule, hdr, procCtx
      }).holdHdrIf (hdr.map .hdr)).holdHdrIf (procCtx.map .procCtx) = s.withTarget entry rule hdr procCtx := by
  rw [dropHdrOf_eq, holdHdrIf_eq, holdHdrIf_eq]
  obtain rfl | rfl := one
  · rfl
  · cases hdr with
    | none => rfl
    | some hdr => rfl

theorem Kept.withTarget (kept : s.Kept cfg) (live : entry ∈ s.live)
    (points : s.Points { s.entries entry with rule, hdr, procCtx }) :
    (s.withTarget entry rule hdr procCtx).Kept cfg := by
  have mine : (s.withTarget entry rule hdr procCtx).entries entry =
      { s.entries entry with rule, hdr, procCtx } := update_self _ _ _
  have others (other : Nat) (apart : other ≠ entry) :
      (s.withTarget entry rule hdr procCtx).entries other = s.entries other :=
    update_of_ne apart _ _
  refine ⟨?_, ?_, ?_⟩
  · refine kept.tbls.congr rfl rfl (fun _ => rfl) (fun _ => rfl) (fun _ => rfl) (fun _ => rfl) ?_
    intro other _
    by_cases here : other = entry
    · rw [here, mine]
    · rw [others other here]
  · refine kept.hdrs.retarget kept.tbls.holding.once live rfl rfl (fun ref => ?_) rfl rfl others ?_
    · simp only [withTarget_hdrOf]
      rfl
    · rw [mine]
      exact points
  · refine kept.handles.congr rfl (fun _ => Iff.rfl) rfl rfl (fun _ _ => rfl) (fun other _ => ?_) rfl
    by_cases here : other = entry
    · rw [here, mine]
    · rw [others other here]

theorem Kept.mdfyRtRule (kept : s.Kept cfg) (used : s.Used) :
    (s.mdfyRtRule cfg env rule hdl).1.Kept cfg ∧ (s.mdfyRtRule cfg env rule hdl).1.Used := by
  unfold RtState.mdfyRtRule
  split
  · rename_i hdr procCtx entry valid known
    have live : entry ∈ s.live := (Named.of_find kept.handles known).1
    split
    · exact ⟨kept, used⟩
    split
    · exact ⟨kept, used⟩
    have points : s.Points { s.entries entry with rule, hdr, procCtx } :=
      validateHndls_points kept.handles valid rfl rfl rfl
    have one : hdr = none ∨ procCtx = none := points.one
    dsimp only
    rw [withTarget_eq one]
    exact ⟨kept.withTarget live points, fun tbl mem => (used tbl mem).congr rfl⟩
  · exact ⟨kept, used⟩

theorem Used.setRefCnt (used : s.Used) (left : s.isDflt tbl = false → (s.tbls tbl).rules = [] → count ≠ 0) :
    (s.setTbl tbl { s.tbls tbl with refCnt := count }).Used := by
  intro other mem
  by_cases here : other = tbl
  · subst here
    have mine : (s.setTbl other { s.tbls other with refCnt := count }).tbls other =
        { s.tbls other with refCnt := count } := update_self _ _ _
    unfold UsedAt isDflt
    rw [mine]
    exact left
  · exact (used other mem).congr (update_of_ne here _ _)

theorem Kept.getRtTbl (kept : s.Kept cfg) (used : s.Used) :
    (s.getRtTbl ip name).1.Kept cfg ∧ (s.getRtTbl ip name).1.Used := by
  unfold RtState.getRtTbl
  split
  · exact ⟨kept, used⟩
  · dsimp only
    split
    · exact ⟨kept, used⟩
    · exact ⟨kept.setRefCnt, used.setRefCnt fun _ _ => Nat.succ_ne_zero _⟩

theorem Kept.putRtTbl (kept : s.Kept cfg) (used : s.Used) : (s.putRtTbl hdl).1.Kept cfg ∧ (s.putRtTbl hdl).1.Used := by
  unfold RtState.putRtTbl
  split
  · rename_i tbl known
    have mem : tbl ∈ s.listed := (Named.of_find kept.handles known).1
    split
    · exact ⟨kept, used⟩
    have dropped : (s.dropTbl tbl 1).Kept cfg := kept.setRefCnt
    have count := dropped.tbls.ruleCnt tbl mem
    dsimp only
    split
    · rename_i last
      have unlisted := dropped.delRtTbl mem (List.eq_nil_of_length_eq_zero (count.symm.trans last.2))
      refine ⟨unlisted.kept, unlisted.used dropped.tbls.holding.owners_nodup ?_⟩
      intro other there apart
      exact (used other there).congr (update_of_ne apart _ _)
    · rename_i more
      refine ⟨dropped, fun other there => ?_⟩
      by_cases apart : other = tbl
      · subst apart
        intro _ empty unreferenced
        exact more ⟨unreferenced, count.trans (congrArg List.length empty)⟩
      · exact (used other there).congr (update_of_ne apart _ _)
  · exact ⟨kept, used⟩

end RtState

end KernelModules.IpaRouting

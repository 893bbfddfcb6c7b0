import KernelModules.Data.Run
import KernelModules.IpaRouting.Resetting

namespace KernelModules.IpaRouting

open Data Function RtState List

/-! # Bookkeeping of the routing tables

Every run keeps the books in which nothing is refused to a call that has already taken something, and references and
rules of a table go with it.
-/

namespace RtState

variable {cfg : RtConfig} {s : RtState} {ip : IpaIpType} {ref : HdrRef} {tbl : Nat}

theorem reapRtTbls_head (family : IpaIpType) :
    ((s.reapRtTbls ip).sets family).headRtTblList = (s.sets family).headRtTblList := by
  unfold reapRtTbls setSet
  dsimp only
  by_cases here : family = ip
  · subst here
    rw [update_self]
  · rw [update_of_ne here]

theorem reapRtTbls_listed : (s.reapRtTbls ip).listed = s.listed := by
  unfold listed
  rw [reapRtTbls_head, reapRtTbls_head]

theorem TblBooks.reap (books : s.TblBooks cfg) : (s.reapRtTbls ip).TblBooks cfg := by
  refine ⟨?_, ?_, ?_, fun tbl mem => ?_, fun family => ?_⟩
  · rw [reapRtTbls_listed]
    exact books.holding
  · rw [reapRtTbls_listed]
    exact books.home
  · rw [reapRtTbls_listed]
    exact books.ruleCnt
  · rw [reapRtTbls_listed]
    refine books.reaped tbl ?_
    obtain ⟨family, mem⟩ := mem_reaped.mp mem
    refine mem_reaped.mpr ⟨family, ?_⟩
    unfold reapRtTbls setSet at mem
    dsimp only at mem
    by_cases here : family = ip
    · subst here
      rw [update_self] at mem
      exact absurd mem not_mem_nil
    · rwa [update_of_ne here] at mem
  · unfold reapRtTbls setSet
    dsimp only
    by_cases here : family = ip
    · subst here
      rw [update_self]
      have same := books.sets family
      exact { same with }
    · rw [update_of_ne here]
      exact books.sets family

theorem Kept.reap (kept : s.Kept cfg) : (s.reapRtTbls ip).Kept cfg := by
  refine ⟨kept.tbls.reap, kept.hdrs.congr rfl rfl rfl rfl rfl fun _ _ => rfl, ?_⟩
  refine kept.handles.congr rfl (fun tbl => ?_) rfl rfl (fun _ _ => rfl) (fun _ _ => rfl) rfl
  rw [reapRtTbls_listed]

theorem Kept.newHdr {id : Nat} (kept : s.Kept cfg) (unknown : s.idFree id) (new : ref ∉ s.hdrs) : { s with
      idr := (id, .hdr ref) :: s.idr
      hdrs := ref :: s.hdrs
      hdrId := update s.hdrId ref id
      hdrRefCnt := update s.hdrRefCnt ref 1
      hdrOthers := update s.hdrOthers ref 1 }.Kept cfg := by
  have old (other : HdrRef) (member : other ∈ s.hdrs) : other ≠ ref := by
    rintro rfl
    exact new member
  have ids (other : HdrRef) (member : other ∈ s.hdrs) :
      update s.hdrId ref id other = s.hdrId other := update_of_ne (old other member) _ _
  refine ⟨?_, ⟨nodup_cons.mpr ⟨new, kept.hdrs.once⟩, fun other member => ?_, fun entry live => ?_⟩, ?_⟩
  · exact kept.tbls.congr rfl rfl (fun _ => rfl) (fun _ => rfl) (fun _ => rfl) (fun _ => rfl) fun _ _ => rfl
  · obtain rfl | member := mem_cons.mp member
    · have nobody : s.pointing other = 0 := by
        refine countP_eq_zero.mpr fun entry live target => new ?_
        exact (kept.hdrs.points entry live).mem (of_decide_eq_true target)
      show update s.hdrRefCnt other 1 other = update s.hdrOthers other 1 other + s.pointing other
      rw [update_self, update_self, nobody]
    · show update s.hdrRefCnt ref 1 other = update s.hdrOthers ref 1 other + s.pointing other
      rw [update_of_ne (old other member), update_of_ne (old other member)]
      exact kept.hdrs.counts other member
  · have points := kept.hdrs.points entry live
    refine ⟨fun hdr is => ?_, fun procCtx is => ?_, points.one⟩
    · obtain ⟨member, name⟩ := points.hdr hdr is
      exact ⟨mem_cons_of_mem _ member, (ids _ member).trans name⟩
    · obtain ⟨member, name⟩ := points.procCtx procCtx is
      exact ⟨mem_cons_of_mem _ member, (ids _ member).trans name⟩
  · have unregistered : ¬s.Registered (.hdr ref) := new
    refine Named.add kept.handles (of_decide_eq_true unknown) unregistered (fun obj => ?_)
      (update_self _ _ _) fun obj reg => ?_
    · cases obj with
      | rtTbl tbl | rtRule entry => exact ⟨.inr, fun known => known.resolve_left (by simp)⟩
      | hdr other =>
        show other ∈ ref :: s.hdrs ↔ _ ∨ other ∈ s.hdrs
        rw [mem_cons, IdrObject.hdr.injEq]
    · cases obj with
      | rtTbl tbl => rfl
      | rtRule entry => rfl
      | hdr other => exact ids other reg

theorem Kept.getHdr (kept : s.Kept cfg) :
    { s.holdHdr ref with hdrOthers := update s.hdrOthers ref (s.hdrOthers ref + 1) }.Kept cfg := by
  refine ⟨?_, ⟨kept.hdrs.once, fun other mem => ?_, fun entry live => ?_⟩, ?_⟩
  · exact kept.tbls.congr rfl rfl (fun _ => rfl) (fun _ => rfl) (fun _ => rfl) (fun _ => rfl) fun _ _ => rfl
  · show update s.hdrRefCnt ref (s.hdrRefCnt ref + 1) other =
      update s.hdrOthers ref (s.hdrOthers ref + 1) other + s.pointing other
    have count := kept.hdrs.counts other mem
    by_cases here : other = ref
    · subst here
      rw [update_self, update_self]
      omega
    · rw [update_of_ne here, update_of_ne here]
      exact count
  · exact points_congr (kept.hdrs.points entry live) rfl rfl
  · exact kept.handles.congr rfl (fun _ => Iff.rfl) rfl rfl (fun _ _ => rfl) (fun _ _ => rfl) rfl

theorem Kept.putHdr (kept : s.Kept cfg) (mem : ref ∈ s.hdrs) (some : s.hdrOthers ref ≠ 0) : (releaseHdr { s with
      hdrOthers := update s.hdrOthers ref (s.hdrOthers ref - 1) } ref).Kept cfg := by
  have handles : Handles { s with
      hdrOthers := update s.hdrOthers ref (s.hdrOthers ref - 1) } :=
    kept.handles.congr rfl (fun _ => Iff.rfl) rfl rfl (fun _ _ => rfl) (fun _ _ => rfl) rfl
  rw [handles.releaseHdr mem]
  have released := withoutRef_counts
    (s := { s with hdrOthers := update s.hdrOthers ref (s.hdrOthers ref - 1) })
    (fun other => update s.hdrOthers ref (s.hdrOthers ref - 1) other + s.pointing other)
    kept.hdrs.once (fun other there => by
      have count := kept.hdrs.counts other there
      show s.hdrRefCnt other = _
      by_cases here : other = ref
      · subst here
        rw [update_self, if_pos rfl]
        omega
      · rw [update_of_ne here, if_neg (fun same => here (Option.some.inj same).symm)]
        exact count) mem
  refine ⟨?_, ⟨withoutRef_once kept.hdrs.once, released.1, fun entry live => ?_⟩, ?_⟩
  · exact kept.tbls.congr rfl rfl (fun _ => rfl) (fun _ => rfl) (fun _ => rfl) (fun _ => rfl) fun _ _ => rfl
  · refine (kept.hdrs.points entry live).keep rfl fun other target => ?_
    refine released.2 other ((kept.hdrs.points entry live).mem target) (Nat.ne_of_gt ?_)
    exact Nat.lt_of_lt_of_le (pointing_pos live target) (Nat.le_add_left _ _)
  · exact withoutRef_handles handles kept.hdrs.once mem

structure Bookkept (cfg : RtConfig) (s : RtState) : Prop where
  ruleCnt : ∀ tbl, tbl ∈ s.listed ∨ tbl ∈ s.reaped → (s.tbls tbl).ruleCnt = (s.tbls tbl).rules.length
  tblCnt : ∀ ip, (s.sets ip).tblCnt = (s.sets ip).headRtTblList.length
  bitmap : ∀ ip idx, (s.sets ip).rtIdxBitmap idx = true ↔
    cfg.Reserved ip idx ∨ ∃ tbl ∈ (s.sets ip).headRtTblList, (s.tbls tbl).idx = idx
  hdrRefCnt : ∀ ref ∈ s.hdrs, s.hdrRefCnt ref = s.hdrOthers ref + s.pointing ref
  listed : ∀ entry ∈ s.live, (s.entries entry).tbl ∈ s.listed ∧ entry ∈ (s.tbls (s.entries entry).tbl).rules
  unused : ∀ tbl, s.isDflt tbl = false → (s.tbls tbl).rules = [] → (s.tbls tbl).refCnt = 0 → tbl ∉ s.listed

theorem Kept.bookkept (kept : s.Kept cfg) (used : s.Used) : s.Bookkept cfg where
  ruleCnt := by
    rintro tbl (listed | reaped)
    · exact kept.tbls.ruleCnt tbl listed
    · obtain ⟨_, empty, none⟩ := kept.tbls.reaped tbl reaped
      rw [empty, none]
      rfl
  tblCnt ip := (kept.tbls.sets ip).tblCnt
  bitmap ip := (kept.tbls.sets ip).bitmap
  hdrRefCnt := kept.hdrs.counts
  listed _ live := kept.tbls.live live
  unused tbl other empty unreferenced listed := used tbl listed other empty unreferenced

def Completes (cfg : RtConfig) (s : RtState) : RtAction → Prop
  | .addRtRule env ip name rule _ ruleId _ =>
    (s.validateHndls cfg env rule).isSome → validateRuleId cfg ruleId →
      AddGranted cfg env ip (cutName name) ruleId s
  | .addRtRuleAfter env ip name rule addAfterHdl =>
    AfterGranted cfg env ip (cutName name) rule addAfterHdl s
  | .resetRt ip userOnly fltDrops => ResetWhole cfg ip userOnly fltDrops s
  | .fltPut tbl => s.isDflt tbl = false → (s.tbls tbl).rules = [] → (s.tbls tbl).refCnt ≠ 1
  | _ => True

theorem Kept.step {after : RtState} (kept : s.Kept cfg) (used : s.Used) (completes : Completes cfg s action)
    (taken : RtState.step cfg s action = some after) : after.Kept cfg ∧ after.Used := by
  unfold RtState.step at taken
  split at taken
  case h_1 =>
    split at taken
    · rename_i grantable
      cases taken
      exact kept.addRtRule used grantable completes
    · cases taken
  case h_2 =>
    split at taken
    · rename_i grantable
      cases taken
      exact kept.addRtRuleAfter used grantable completes
    · cases taken
  case h_3 =>
    cases taken
    exact kept.delRtRule used
  case h_4 =>
    cases taken
    exact kept.mdfyRtRule used
  case h_5 =>
    cases taken
    exact kept.getRtTbl used
  case h_6 =>
    cases taken
    exact kept.putRtTbl used
  case h_7 =>
    cases taken
    exact kept.resetRt completes
  case h_8 =>
    cases taken
    refine ⟨kept.reap, fun tbl mem => (used tbl ?_).congr rfl⟩
    rwa [reapRtTbls_listed] at mem
  case h_9 =>
    split at taken
    · cases taken
      exact ⟨kept.setRefCnt, used.setRefCnt fun _ _ => Nat.succ_ne_zero _⟩
    · cases taken
  case h_10 tbl =>
    split at taken
    · cases taken
      refine ⟨kept.setRefCnt, used.setRefCnt fun notDflt empty => ?_⟩
      have several := completes notDflt empty
      omega
    · cases taken
  case h_11 =>
    split at taken
    · rename_i new
      cases taken
      exact ⟨kept.newHdr new.1 new.2, fun tbl mem => (used tbl mem).congr rfl⟩
    · cases taken
  case h_12 =>
    split at taken
    · cases taken
      exact ⟨kept.getHdr, fun tbl mem => (used tbl mem).congr rfl⟩
    · cases taken
  case h_13 ref =>
    split at taken
    · rename_i held
      cases taken
      refine ⟨kept.putHdr held.1 held.2, fun tbl mem => ?_⟩
      obtain ⟨tbls, sets⟩ := releaseHdr_tables ref { s with
        hdrOthers := update s.hdrOthers ref (s.hdrOthers ref - 1) }
      rw [RtState.listed, sets] at mem
      exact (used tbl mem).congr (congrFun tbls tbl)
    · cases taken

theorem runs_bookkept (reached : Reachable (step cfg) (Completes cfg) (init cfg) s) : s.Bookkept cfg := by
  have kept : s.Kept cfg ∧ s.Used := by
    refine reached.invariant (fun s => s.Kept cfg ∧ s.Used) ⟨.init, forall_mem_nil _⟩ ?_
    exact fun before action after kept completes taken => kept.1.step kept.2 completes taken
  exact kept.1.bookkept kept.2

def plainConfig : RtConfig where
  hwAtLeast45 := true
  ruleIdHiBit := 512
  inSys := fun _ => false
  modemRtIndexLo := fun _ => 0
  modemRtIndexHi := fun _ => 5
  appsRtIndexLo := fun _ => 6
  appsRtIndexHi := fun _ => 14

def firstEnv : RtEnv := ⟨some 1, some 7, some 1, true, some 8, fun _ => false, false⟩

def secondEnv : RtEnv := ⟨none, none, some 2, true, none, fun _ => false, false⟩

def plainRule (hdrHdl : Nat) : RtRule := ⟨hdrHdl, 0, false, false, 0⟩

theorem runs_bookkept_one : ∃ s, Reachable (step plainConfig) (Completes plainConfig) (init plainConfig) s ∧
      s.pointing (.hdr 3) = 1 ∧ s.Bookkept plainConfig := by
  have known : ∃ s, Reachable (step plainConfig) (Completes plainConfig)
      (init plainConfig) s ∧ s.idFind 4 = some (.hdr (.hdr 3)) ∧ s.pointing (.hdr 3) = 1 := by
    have first : Reachable (step plainConfig) (Completes plainConfig)
        (init plainConfig) _ := .next .start (by exact trivial)
          (show step plainConfig _ (.newHdr (.hdr 3) 4) = some _ from rfl)
    refine ⟨_, .next first ?_ (show step plainConfig _ (.addRtRule firstEnv .v4 ['a']
      (plainRule 4) true 0 false) = some _ from rfl), rfl, rfl⟩
    refine fun _ _ => ⟨fun _ idx free => ?_, fun _ => rfl, fun _ => rfl⟩
    cases free
    exact ⟨by decide, rfl⟩
  obtain ⟨s, reached, _, pointing⟩ := known
  exact ⟨s, reached, pointing, runs_bookkept reached⟩

/-- A table has counted a rule that got no handle. -/
theorem handle_refused : ¬∀ cfg s, Reachable (step cfg) (fun _ _ => True) (init cfg) s → s.Bookkept cfg := by
  intro always
  obtain ⟨s, kept, listed, ruleCnt, rules⟩ := holds_after (always plainConfig)
    [.addRtRule firstEnv .v4 ['a'] (plainRule 0) true 0 false,
      .addRtRule secondEnv .v4 ['a'] (plainRule 0) true 0 false]
    (fun s => s.listed = [1] ∧ (s.tbls 1).ruleCnt = 2 ∧ (s.tbls 1).rules = [1]) (by decide)
  have right := kept.ruleCnt 1 (.inl (by rw [listed]; exact mem_singleton_self 1))
  rw [ruleCnt, rules] at right
  exact absurd right (by decide)

end RtState

end KernelModules.IpaRouting

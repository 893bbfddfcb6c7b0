import KernelModules.IpaRouting.Books

namespace KernelModules.IpaRouting

open Data Named RtState List Function Option

/-! # The references of rules to headers

A header counts the rules that point at it, besides the references of others.
-/

namespace RtState

variable {s after : RtState} {ref : HdrRef} {tbl entry : Nat} {hdr procCtx : Option Nat}

def pointing (s : RtState) (ref : HdrRef) : Nat :=
  s.live.countP fun entry => s.hdrOf entry = some ref

structure Points (s : RtState) (entry : RtEntry) : Prop where
  hdr : ∀ hdr, entry.hdr = some hdr → .hdr hdr ∈ s.hdrs ∧ s.hdrId (.hdr hdr) = entry.rule.hdrHdl
  procCtx : ∀ procCtx, entry.procCtx = some procCtx →
    .procCtx procCtx ∈ s.hdrs ∧ s.hdrId (.procCtx procCtx) = entry.rule.hdrProcCtxHdl
  one : entry.hdr = none ∨ entry.procCtx = none

structure HdrBooks (s : RtState) : Prop where
  once : s.hdrs.Nodup
  counts : ∀ ref ∈ s.hdrs, s.hdrRefCnt ref = s.hdrOthers ref + s.pointing ref
  points : ∀ entry ∈ s.live, s.Points (s.entries entry)

def Registered (s : RtState) : IdrObject → Prop
  | .rtTbl tbl => tbl ∈ s.listed
  | .rtRule entry => entry ∈ s.live
  | .hdr ref => ref ∈ s.hdrs

def idOf (s : RtState) : IdrObject → Nat
  | .rtTbl tbl => (s.tbls tbl).id
  | .rtRule entry => (s.entries entry).id
  | .hdr ref => s.hdrId ref

def Handles (s : RtState) : Prop := Named s.idr s.Registered s.idOf

section

variable (handles : s.Handles)
include handles

theorem Handles.idFind_tbl (mem : tbl ∈ s.listed) : s.idFind (s.tbls tbl).id = some (.rtTbl tbl) := by
  have reg : s.Registered (.rtTbl tbl) := mem
  exact find handles reg

theorem Handles.idFind_rule (live : entry ∈ s.live) : s.idFind (s.entries entry).id = some (.rtRule entry) := by
  have reg : s.Registered (.rtRule entry) := live
  exact find handles reg

theorem Handles.idFind_hdr (mem : ref ∈ s.hdrs) : s.idFind (s.hdrId ref) = some (.hdr ref) := by
  have reg : s.Registered (.hdr ref) := mem
  exact find handles reg

theorem Handles.findLike (mem : ref ∈ s.hdrs) : s.findLike ref (s.hdrId ref) = some ref := by
  have found := handles.idFind_hdr mem
  cases ref with
  | hdr entry =>
    unfold findLike findHdr
    rw [found]
    rfl
  | procCtx entry =>
    unfold findLike findProcCtx
    rw [found]
    rfl

theorem Handles.of_findHdr (found : s.findHdr hdl = some entry) : .hdr entry ∈ s.hdrs ∧ s.hdrId (.hdr entry) = hdl := by
  unfold findHdr at found
  split at found
  · rename_i known
    cases found
    have named : s.Registered (.hdr (.hdr entry)) ∧ s.idOf (.hdr (.hdr entry)) = hdl :=
      of_find handles known
    exact named
  · cases found

theorem Handles.of_findProcCtx (found : s.findProcCtx hdl = some entry) :
    .procCtx entry ∈ s.hdrs ∧ s.hdrId (.procCtx entry) = hdl := by
  unfold findProcCtx at found
  split at found
  · rename_i known
    cases found
    have named : s.Registered (.hdr (.procCtx entry)) ∧ s.idOf (.hdr (.procCtx entry)) = hdl :=
      of_find handles known
    exact named
  · cases found

theorem Handles.not_freed (reg : s.Registered object) : s.checkIdrIfFreed object = false := by
  unfold checkIdrIfFreed
  rw [decide_eq_false_iff_not, not_not]
  exact (listed_iff handles).mpr reg

end

theorem validateHndls_points (handles : s.Handles)
    (valid : s.validateHndls cfg env rule = some (hdr, procCtx)) (sameRule : new.rule = rule)
    (sameHdr : new.hdr = hdr) (sameProcCtx : new.procCtx = procCtx) : s.Points new := by
  subst sameRule sameHdr sameProcCtx
  unfold validateHndls at valid
  split at valid
  · cases valid
  split at valid
  · cases valid
  split at valid
  · obtain ⟨found, known, pair⟩ := map_eq_some_iff.mp valid
    rw [Prod.mk.injEq] at pair
    refine ⟨fun hdr is => ?_, fun procCtx is => ?_, .inr pair.2.symm⟩
    · rw [← pair.1] at is
      cases is
      exact handles.of_findHdr known
    · rw [← pair.2] at is
      cases is
  split at valid
  · obtain ⟨found, known, pair⟩ := map_eq_some_iff.mp valid
    rw [Prod.mk.injEq] at pair
    refine ⟨fun hdr is => ?_, fun procCtx is => ?_, .inl pair.1.symm⟩
    · rw [← pair.1] at is
      cases is
    · rw [← pair.2] at is
      cases is
      exact handles.of_findProcCtx known
  · rw [some.injEq, Prod.mk.injEq] at valid
    refine ⟨fun hdr is => ?_, fun procCtx is => ?_, .inl valid.1.symm⟩
    · rw [← valid.1] at is
      cases is
    · rw [← valid.2] at is
      cases is

theorem Points.mem (points : s.Points (s.entries entry)) (target : s.hdrOf entry = some ref) : ref ∈ s.hdrs := by
  unfold hdrOf RtEntry.target at target
  split at target
  · rename_i hdr is
    cases target
    exact (points.hdr hdr is).1
  · obtain ⟨procCtx, is, rfl⟩ := map_eq_some_iff.mp target
    exact (points.procCtx procCtx is).1

theorem Points.forgetDeletedHdr (points : s.Points (s.entries entry)) (handles : s.Handles) :
    s.forgetDeletedHdr entry = s := by
  unfold RtState.forgetDeletedHdr
  dsimp only
  split
  · rename_i hdr is
    obtain ⟨mem, id⟩ := points.hdr hdr is
    have found : s.findHdr (s.entries entry).rule.hdrHdl = some hdr := by
      unfold findHdr
      rw [← id, handles.idFind_hdr mem]
    rw [found, if_neg (by simp)]
  · rename_i procCtx _ is
    obtain ⟨mem, id⟩ := points.procCtx procCtx is
    have found : s.findProcCtx (s.entries entry).rule.hdrProcCtxHdl = some procCtx := by
      unfold findProcCtx
      rw [← id, handles.idFind_hdr mem]
    rw [found, if_neg (by simp)]
  · rfl

theorem hdrOf_congr (same : after.entries entry = s.entries entry) : after.hdrOf entry = s.hdrOf entry := by
  unfold hdrOf
  rw [same]

theorem pointing_congr (lives : after.live = s.live)
    (entries : ∀ entry ∈ s.live, after.entries entry = s.entries entry) : after.pointing ref = s.pointing ref := by
  unfold pointing
  rw [lives]
  refine countP_congr fun entry live => ?_
  rw [hdrOf_congr (entries entry live)]

theorem pointing_gain (lives : after.live = entry :: s.live)
    (entries : ∀ other ∈ s.live, after.entries other = s.entries other) :
    after.pointing ref = s.pointing ref + if after.hdrOf entry = some ref then 1 else 0 := by
  have rest : (s.live.countP fun entry => after.hdrOf entry = some ref) = s.pointing ref := by
    refine countP_congr fun other live => ?_
    rw [hdrOf_congr (entries other live)]
  unfold pointing
  rw [lives, countP_cons, rest]
  simp only [decide_eq_true_eq]
  rfl

theorem pointing_lose (live : entry ∈ s.live) (lives : after.live = s.live.erase entry)
    (entries : after.entries = s.entries) :
    s.pointing ref = after.pointing ref + if s.hdrOf entry = some ref then 1 else 0 := by
  have count := (perm_cons_erase live).countP_eq fun entry => decide (s.hdrOf entry = some ref)
  have rest : (fun entry => decide (after.hdrOf entry = some ref)) =
      fun entry => decide (s.hdrOf entry = some ref) := by
    funext other
    rw [hdrOf_congr (congrFun entries other)]
  unfold pointing
  rw [count, countP_cons, lives, rest]
  simp

theorem pointing_retarget (once : s.live.Nodup) (live : entry ∈ s.live) (lives : after.live = s.live)
    (entries : ∀ other, other ≠ entry → after.entries other = s.entries other) :
    after.pointing ref + (if s.hdrOf entry = some ref then 1 else 0) =
      s.pointing ref + if after.hdrOf entry = some ref then 1 else 0 := by
  have before := (perm_cons_erase live).countP_eq fun entry => decide (s.hdrOf entry = some ref)
  have later := (perm_cons_erase live).countP_eq fun entry => decide (after.hdrOf entry = some ref)
  have rest : ((s.live.erase entry).countP fun entry => after.hdrOf entry = some ref) =
      (s.live.erase entry).countP fun entry => s.hdrOf entry = some ref := by
    refine countP_congr fun other left => ?_
    rw [hdrOf_congr (entries other ((once.mem_erase_iff.mp left).1))]
  unfold pointing
  rw [lives, before, later, countP_cons, countP_cons]
  simp only [decide_eq_true_eq]
  omega

theorem holdHdr_eq : s.holdHdr ref =
    { s with hdrRefCnt := fun other => s.hdrRefCnt other + if some ref = some other then 1 else 0 } := by
  refine congrArg (fun counts => { s with hdrRefCnt := counts }) (funext fun other => ?_)
  by_cases here : other = ref
  · subst here
    rw [update_self, if_pos rfl]
  · rw [update_of_ne here, if_neg (fun same => here (some.inj same).symm)]
    rfl

theorem dropHdr_eq : s.dropHdr ref =
    { s with hdrRefCnt := fun other => s.hdrRefCnt other - if some ref = some other then 1 else 0 } := by
  refine congrArg (fun counts => { s with hdrRefCnt := counts }) (funext fun other => ?_)
  by_cases here : other = ref
  · subst here
    rw [update_self, if_pos rfl]
  · rw [update_of_ne here, if_neg (fun same => here (some.inj same).symm)]
    rfl

theorem holdHdrIf_eq : s.holdHdrIf target =
    { s with hdrRefCnt := fun ref => s.hdrRefCnt ref + if target = some ref then 1 else 0 } := by
  cases target with
  | none => rfl
  | some target => exact holdHdr_eq

theorem holdHdrOf_eq : s.holdHdrOf entry =
    { s with hdrRefCnt := fun ref => s.hdrRefCnt ref + if s.hdrOf entry = some ref then 1 else 0 } :=
  holdHdrIf_eq

theorem dropHdrOf_eq : s.dropHdrOf entry =
    { s with hdrRefCnt := fun ref => s.hdrRefCnt ref - if s.hdrOf entry = some ref then 1 else 0 } := by
  unfold dropHdrOf
  cases s.hdrOf entry with
  | none => rfl
  | some target => exact dropHdr_eq

/-- The state without one of the references to a header; the last one takes the header along. -/
def withoutRef (s : RtState) (ref : HdrRef) : RtState :=
  { s with
    hdrRefCnt := update s.hdrRefCnt ref (s.hdrRefCnt ref - 1)
    hdrs := if s.hdrRefCnt ref - 1 = 0 then s.hdrs.erase ref else s.hdrs
    idr := if s.hdrRefCnt ref - 1 = 0 then handleRemove s.idr (s.hdrId ref) else s.idr }

theorem Handles.releaseHdr (handles : s.Handles) (mem : ref ∈ s.hdrs) : s.releaseHdr ref = s.withoutRef ref := by
  unfold RtState.releaseHdr withoutRef
  rw [handles.findLike mem]
  dsimp only
  split <;> rfl

theorem releaseHdr_tables (ref : HdrRef) (s : RtState) :
    (s.releaseHdr ref).tbls = s.tbls ∧ (s.releaseHdr ref).sets = s.sets := by
  unfold releaseHdr
  split
  · exact ⟨rfl, rfl⟩
  · dsimp only
    split <;> exact ⟨rfl, rfl⟩

def withoutRefOf (s : RtState) (entry : Nat) : RtState :=
  match s.hdrOf entry with
  | some ref => s.withoutRef ref
  | none => s

theorem Handles.releaseHdrOf (handles : s.Handles) (points : s.Points (s.entries entry)) :
    s.releaseHdrOf entry = s.withoutRefOf entry := by
  unfold RtState.releaseHdrOf withoutRefOf
  cases target : s.hdrOf entry with
  | none => rfl
  | some ref =>
    have mem : ref ∈ s.hdrs := points.mem target
    have reg : s.Registered (.hdr ref) := mem
    dsimp only
    rw [handles.not_freed reg, if_neg Bool.false_ne_true, handles.releaseHdr mem]

theorem withoutRef_counts (counts : HdrRef → Nat) (once : s.hdrs.Nodup)
    (right : ∀ other ∈ s.hdrs, s.hdrRefCnt other = counts other + if some ref = some other then 1 else 0)
    (mem : ref ∈ s.hdrs) : (∀ other ∈ (s.withoutRef ref).hdrs, (s.withoutRef ref).hdrRefCnt other = counts other) ∧
      ∀ other ∈ s.hdrs, counts other ≠ 0 → other ∈ (s.withoutRef ref).hdrs := by
  have mine := right ref mem
  rw [if_pos rfl] at mine
  have shrinks : ∀ other ∈ (s.withoutRef ref).hdrs, other ∈ s.hdrs := by
    intro other left
    unfold withoutRef at left
    split at left
    · exact mem_of_mem_erase left
    · exact left
  constructor
  · intro other left
    have there := shrinks other left
    show update s.hdrRefCnt ref (s.hdrRefCnt ref - 1) other = counts other
    by_cases here : other = ref
    · subst here
      rw [update_self, mine, Nat.add_sub_cancel]
    · rw [update_of_ne here, right other there, if_neg (fun same => here (some.inj same).symm), Nat.add_zero]
  · intro other there needed
    unfold withoutRef
    split
    · rw [once.mem_erase_iff]
      refine ⟨?_, there⟩
      rintro rfl
      omega
    · exact there

theorem withoutRef_once (once : s.hdrs.Nodup) : (s.withoutRef ref).hdrs.Nodup := by
  unfold withoutRef
  split
  · exact once.erase ref
  · exact once

theorem withoutRef_handles (handles : s.Handles) (once : s.hdrs.Nodup) (mem : ref ∈ s.hdrs) :
    (s.withoutRef ref).Handles := by
  by_cases last : s.hdrRefCnt ref - 1 = 0
  · have gone : (s.withoutRef ref).idr = handleRemove s.idr (s.hdrId ref) := if_pos last
    have left : (s.withoutRef ref).hdrs = s.hdrs.erase ref := if_pos last
    unfold Handles
    rw [gone]
    have reg : s.Registered (.hdr ref) := mem
    refine remove handles reg fun obj => ?_
    cases obj with
    | rtTbl tbl | rtRule entry => exact ⟨fun known => ⟨known, by simp⟩, fun known => known.1⟩
    | hdr other =>
      show other ∈ (s.withoutRef ref).hdrs ↔ other ∈ s.hdrs ∧ _
      rw [left, once.mem_erase_iff, and_comm, ne_eq, ne_eq, IdrObject.hdr.injEq]
  · have keeps : (s.withoutRef ref).idr = s.idr := if_neg last
    have left : (s.withoutRef ref).hdrs = s.hdrs := if_neg last
    unfold Handles
    rw [keeps]
    refine congr handles (fun obj => ?_) fun _ _ => rfl
    cases obj with
    | rtTbl tbl => exact Iff.rfl
    | rtRule entry => exact Iff.rfl
    | hdr other =>
      show other ∈ (s.withoutRef ref).hdrs ↔ other ∈ s.hdrs
      rw [left]

theorem points_congr {rule : RtEntry} (points : s.Points rule) (hdrs : after.hdrs = s.hdrs)
    (ids : after.hdrId = s.hdrId) : after.Points rule := by
  obtain ⟨hdr, procCtx, one⟩ := points
  refine ⟨?_, ?_, one⟩
  · rw [hdrs, ids]
    exact hdr
  · rw [hdrs, ids]
    exact procCtx

theorem Points.keep (points : s.Points (s.entries entry)) (ids : after.hdrId = s.hdrId)
    (keeps : ∀ ref, s.hdrOf entry = some ref → ref ∈ after.hdrs) : after.Points (s.entries entry) := by
  refine ⟨fun hdr is => ?_, fun procCtx is => ?_, points.one⟩
  · have target : s.hdrOf entry = some (.hdr hdr) := by
      unfold hdrOf RtEntry.target
      rw [is]
    rw [ids]
    exact ⟨keeps _ target, (points.hdr hdr is).2⟩
  · have target : s.hdrOf entry = some (.procCtx procCtx) := by
      obtain noHdr | noProcCtx := points.one
      · unfold hdrOf RtEntry.target
        rw [noHdr, is]
        rfl
      · rw [noProcCtx] at is
        cases is
    rw [ids]
    exact ⟨keeps _ target, (points.procCtx procCtx is).2⟩

theorem pointing_pos (live : entry ∈ s.live) (target : s.hdrOf entry = some ref) : 0 < s.pointing ref :=
  countP_pos_iff.mpr ⟨entry, live, decide_eq_true target⟩

def withoutRule (s : RtState) (tbl entry : Nat) : RtState :=
  ((s.withoutRefOf entry).listDelRule tbl entry).freeRule entry

theorem withoutRefOf_frame : (s.withoutRefOf entry).entries = s.entries ∧ (s.withoutRefOf entry).tbls = s.tbls ∧
    (s.withoutRefOf entry).live = s.live ∧ (s.withoutRefOf entry).sets = s.sets ∧
    (s.withoutRefOf entry).hdrId = s.hdrId ∧ (s.withoutRefOf entry).hdrOthers = s.hdrOthers := by
  unfold withoutRefOf
  split <;> exact ⟨rfl, rfl, rfl, rfl, rfl, rfl⟩

theorem withoutRefOf_counts (counts : HdrRef → Nat) (once : s.hdrs.Nodup)
    (points : s.Points (s.entries entry)) (right : ∀ other ∈ s.hdrs, s.hdrRefCnt other = counts other +
      if s.hdrOf entry = some other then 1 else 0) :
    (∀ other ∈ (s.withoutRefOf entry).hdrs, (s.withoutRefOf entry).hdrRefCnt other = counts other) ∧
      ∀ other ∈ s.hdrs, counts other ≠ 0 → other ∈ (s.withoutRefOf entry).hdrs := by
  unfold withoutRefOf
  cases target : s.hdrOf entry with
  | none =>
    refine ⟨fun other mem => ?_, fun other mem _ => mem⟩
    rw [right other mem, target, if_neg (by simp), Nat.add_zero]
  | some ref =>
    rw [target] at right
    exact withoutRef_counts counts once right (points.mem target)

theorem withoutRefOf_once (once : s.hdrs.Nodup) : (s.withoutRefOf entry).hdrs.Nodup := by
  unfold withoutRefOf
  split
  · exact withoutRef_once once
  · exact once

theorem withoutRefOf_handles (handles : s.Handles) (once : s.hdrs.Nodup)
    (points : s.Points (s.entries entry)) : (s.withoutRefOf entry).Handles := by
  unfold withoutRefOf
  cases target : s.hdrOf entry with
  | none => exact handles
  | some ref => exact withoutRef_handles handles once (points.mem target)

namespace HdrBooks

theorem withoutRule (books : s.HdrBooks) (live : entry ∈ s.live) : (s.withoutRule tbl entry).HdrBooks := by
  have lives : (s.withoutRule tbl entry).live = s.live.erase entry :=
    congrArg (List.erase · entry) withoutRefOf_frame.2.2.1
  have entries : (s.withoutRule tbl entry).entries = s.entries := withoutRefOf_frame.1
  have others : (s.withoutRule tbl entry).hdrOthers = s.hdrOthers := withoutRefOf_frame.2.2.2.2.2
  have ids : (s.withoutRule tbl entry).hdrId = s.hdrId := withoutRefOf_frame.2.2.2.2.1
  have released := withoutRefOf_counts (fun ref => s.hdrOthers ref + (s.withoutRule tbl entry).pointing ref) books.once
    (books.points entry live) fun ref mem => by
      rw [books.counts ref mem, pointing_lose live lives entries, Nat.add_assoc]
  refine ⟨withoutRefOf_once books.once, fun ref mem => ?_, fun other left => ?_⟩
  · rw [others]
    exact released.1 ref mem
  · have there : other ∈ s.live := by
      rw [lives] at left
      exact mem_of_mem_erase left
    rw [entries]
    refine (books.points other there).keep ids fun ref target => ?_
    refine released.2 ref ((books.points other there).mem target) (Nat.ne_of_gt ?_)
    have target : (s.withoutRule tbl entry).hdrOf other = some ref := by
      rw [hdrOf_congr (congrFun entries other)]
      exact target
    exact Nat.lt_of_lt_of_le (pointing_pos left target) (Nat.le_add_left _ _)

section

variable (books : s.HdrBooks) (hdrs : after.hdrs = s.hdrs) (ids : after.hdrId = s.hdrId)
include books hdrs ids

theorem congr (counts : after.hdrRefCnt = s.hdrRefCnt) (others : after.hdrOthers = s.hdrOthers)
    (lives : after.live = s.live)
    (entries : ∀ entry ∈ s.live, after.entries entry = s.entries entry) : after.HdrBooks := by
  refine ⟨hdrs ▸ books.once, fun ref mem => ?_, fun entry live => ?_⟩
  · rw [hdrs] at mem
    rw [counts, others, pointing_congr lives entries]
    exact books.counts ref mem
  · rw [lives] at live
    rw [entries entry live]
    obtain ⟨hdr, procCtx, one⟩ := books.points entry live
    constructor
    · rw [hdrs, ids]
      exact hdr
    · rw [hdrs, ids]
      exact procCtx
    · exact one

theorem gain (counts : ∀ ref, after.hdrRefCnt ref = s.hdrRefCnt ref + if after.hdrOf entry = some ref then 1 else 0)
    (others : after.hdrOthers = s.hdrOthers) (lives : after.live = entry :: s.live)
    (entries : ∀ other ∈ s.live, after.entries other = s.entries other)
    (points : s.Points (after.entries entry)) : after.HdrBooks := by
  refine ⟨hdrs ▸ books.once, fun ref mem => ?_, fun other live => ?_⟩
  · rw [hdrs] at mem
    rw [counts, others, pointing_gain lives entries, books.counts ref mem]
    omega
  · rw [lives] at live
    obtain rfl | live := mem_cons.mp live
    · exact points_congr points hdrs ids
    · rw [entries other live]
      exact points_congr (books.points other live) hdrs ids

end

theorem retarget (books : s.HdrBooks) (once : s.live.Nodup) (live : entry ∈ s.live)
    (hdrs : after.hdrs = s.hdrs) (ids : after.hdrId = s.hdrId) (counts : ∀ ref, after.hdrRefCnt ref =
      (s.hdrRefCnt ref - if s.hdrOf entry = some ref then 1 else 0) + if after.hdrOf entry = some ref then 1 else 0)
    (others : after.hdrOthers = s.hdrOthers) (lives : after.live = s.live)
    (entries : ∀ other, other ≠ entry → after.entries other = s.entries other)
    (points : s.Points (after.entries entry)) : after.HdrBooks := by
  refine ⟨hdrs ▸ books.once, fun ref mem => ?_, fun other there => ?_⟩
  · rw [hdrs] at mem
    have moved : after.pointing ref + (if s.hdrOf entry = some ref then 1 else 0) =
        s.pointing ref + if after.hdrOf entry = some ref then 1 else 0 :=
      pointing_retarget once live lives entries
    have mine : (if s.hdrOf entry = some ref then 1 else 0) ≤ s.pointing ref := by
      split
      · rename_i target
        exact pointing_pos live target
      · exact Nat.zero_le _
    rw [counts, others, books.counts ref mem]
    omega
  · rw [lives] at there
    by_cases here : other = entry
    · subst here
      exact points_congr points hdrs ids
    · rw [entries other here]
      exact points_congr (books.points other there) hdrs ids

end HdrBooks

end RtState

end KernelModules.IpaRouting

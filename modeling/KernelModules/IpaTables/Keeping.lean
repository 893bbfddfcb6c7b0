import KernelModules.IpaTables.Passes

namespace KernelModules.IpaTables

open Data Translation Function

variable {Rule : Type} {cfg : TblConfig} {env : CommitEnv Rule} {s : TblSystem Rule}
  {told : TblRef → IpaRuleType → Nat} {tbls : TblRef → IpaTbl Rule} {live : List Nat} {tbl : IpaTbl Rule}
  {rlt : IpaRuleType} {ref : TblRef}

structure SameMem (tbl other : IpaTbl Rule) : Prop where
  currMem : tbl.currMem = other.currMem
  prevMem : tbl.prevMem = other.prevMem
  inSys : tbl.inSys = other.inSys

namespace SameMem

theorem refl : SameMem tbl tbl := ⟨rfl, rfl, rfl⟩

theorem trans (first : SameMem tbl other) (second : SameMem other third) : SameMem tbl third :=
  ⟨first.currMem.trans second.currMem, first.prevMem.trans second.prevMem, first.inSys.trans second.inSys⟩

theorem update (same : SameMem tbl (tbls ref)) (other : TblRef) : SameMem (update tbls ref tbl other) (tbls other) := by
  by_cases here : other = ref
  · subst here
    rwa [update_self]
  · rw [update_of_ne here]
    exact .refl

end SameMem

theorem Translation.Books.of_sameMem (books : Books holders told tbls live)
    (same : ∀ ref, SameMem (later ref) (tbls ref)) : Books holders told later live := by
  have heldOf (ref : TblRef) (rlt : IpaRuleType) : (later ref).heldOf rlt = (tbls ref).heldOf rlt :=
    IpaTbl.heldOf_congr (congrFun (same ref).currMem rlt) (congrFun (same ref).prevMem rlt)
  constructor
  · apply books.holding.congr
    intro ref _
    rw [IpaTbl.held_congr (same ref).currMem (same ref).prevMem]
  · intro ref rlt here
    rw [heldOf]
    exact books.told ref rlt here
  · intro tbl rlt lcl
    rw [heldOf]
    rw [(same _).inSys] at lcl
    exact books.lcl tbl rlt lcl

theorem prepForCmt_sameMem : SameMem (tbl.prepForCmt cfg.obj env).1 tbl := by
  unfold IpaTbl.prepForCmt
  dsimp only
  split <;> exact ⟨rfl, rfl, rfl⟩

theorem prepTbls_sameMem (refs : List TblRef) : SameMem ((prepTbls cfg env refs tbls).1 ref) (tbls ref) := by
  induction refs generalizing tbls with
  | nil => exact .refl
  | cons first rest ih =>
    unfold prepTbls
    dsimp only
    split
    · exact ih.trans (prepForCmt_sameMem.update ref)
    · exact prepForCmt_sameMem.update ref

theorem prepFltTbls_sameMem (pipes : List Nat) : SameMem ((prepFltTbls cfg env pipes tbls).1 ref) (tbls ref) := by
  induction pipes generalizing tbls with
  | nil => exact .refl
  | cons pipe rest ih =>
    have prep : SameMem ((tbls (.flt pipe)).prepForCmt cfg.obj env).1 (tbls (.flt pipe)) :=
      prepForCmt_sameMem
    unfold prepFltTbls
    dsimp only
    split
    · refine ih.trans (SameMem.update ?_ ref)
      exact { prep with }
    · exact prep.update ref

theorem moveNhashTbls_sameMem (pipes : List Nat) :
    SameMem ((moveNhashTbls cfg tbls params pipes).1 ref) (tbls ref) := by
  induction pipes generalizing tbls params with
  | nil => exact .refl
  | cons pipe rest ih =>
    unfold moveNhashTbls
    split
    · exact .refl
    · refine ih.trans (SameMem.update ?_ ref)
      exact ⟨rfl, rfl, rfl⟩

def Sized (tbl : IpaTbl Rule) : Prop :=
  tbl.rules = [] → ∀ rlt, tbl.sz rlt = 0

theorem prepForCmt_sized : Sized (tbl.prepForCmt cfg.obj env).1 := by
  intro empty rlt
  cases rules : tbl.rules with
  | nil =>
    unfold IpaTbl.prepForCmt
    rw [rules]
    rfl
  | cons entry rest =>
    unfold IpaTbl.prepForCmt at empty
    unfold prepRules at empty
    split at empty <;> split at empty <;> grind

theorem Sized.update (sized : Sized tbl) (others : Sized (tbls other)) : Sized (update tbls ref tbl other) := by
  by_cases here : other = ref
  · subst here
    rwa [update_self]
  · rwa [update_of_ne here]

theorem prepFltTbls_keeps_sized (pipes : List Nat) (sized : Sized (tbls ref)) :
    Sized ((prepFltTbls cfg env pipes tbls).1 ref) := by
  induction pipes generalizing tbls with
  | nil => exact sized
  | cons pipe rest ih =>
    have prep : Sized ((tbls (.flt pipe)).prepForCmt cfg.obj env).1 := prepForCmt_sized
    unfold prepFltTbls
    dsimp only
    split
    · apply ih
      refine Sized.update ?_ sized
      exact prep
    · exact prep.update sized

theorem prepFltTbls_sized (mem : pipe ∈ pipes)
    (prep : prepFltTbls cfg env pipes tbls = (later, true)) : Sized (later (.flt pipe)) := by
  induction pipes generalizing tbls with
  | nil => cases mem
  | cons first rest ih =>
    have here : Sized ((tbls (.flt first)).prepForCmt cfg.obj env).1 := prepForCmt_sized
    unfold prepFltTbls at prep
    dsimp only at prep
    split at prep
    · rcases List.mem_cons.mp mem with rfl | mem
      · have result := congrArg Prod.fst prep
        dsimp only at result
        rw [← result]
        apply prepFltTbls_keeps_sized
        rw [update_self]
        exact here
      · exact ih mem prep
    · cases prep

theorem moveNhashTbls_sized (pipes : List Nat) (sized : Sized (tbls ref)) :
    Sized ((moveNhashTbls cfg tbls params pipes).1 ref) := by
  induction pipes generalizing tbls params with
  | nil => exact sized
  | cons pipe rest ih =>
    unfold moveNhashTbls
    split
    · exact sized
    apply ih
    by_cases here : ref = .flt pipe
    · subst here
      rw [update_self]
      exact sized
    · rwa [update_of_ne here]

namespace TblSystem

structure Prepared (s ready : TblSystem Rule) : Prop where
  tbls : ∀ ref, SameMem (ready.tbls ref) (s.tbls ref)
  listed : ready.headRtTblList = s.headRtTblList
  reap : ready.reapRtTblList = s.reapRtTblList
  live : ready.live = s.live
  told : ready.told = s.told

theorem prepRt_prepared : Prepared s (s.prepRt cfg env).1 :=
  ⟨fun _ => prepTbls_sameMem _, rfl, rfl, rfl, rfl⟩

theorem prepFlt_prepared : Prepared s (s.prepFlt cfg env).1 := by
  unfold prepFlt
  dsimp only
  split
  · exact ⟨fun _ => (moveNhashTbls_sameMem _).trans (prepFltTbls_sameMem _), rfl, rfl, rfl, rfl⟩
  · exact ⟨fun _ => prepFltTbls_sameMem _, rfl, rfl, rfl, rfl⟩

def owners (cfg : TblConfig) (s : TblSystem Rule) : List TblRef :=
  (s.headRtTblList ++ s.reapRtTblList).map .rt ++ cfg.fltPipes.map .flt

structure Kept (cfg : TblConfig) (s : TblSystem Rule) : Prop where
  books : Books (s.owners cfg) s.told s.tbls s.live
  owned : ∀ ref rlt, s.told ref rlt ≠ 0 → ref ∈ s.owners cfg
  unsent : ∀ ref rlt, cfg.sends rlt = false → s.told ref rlt = 0

theorem Prepared.kept (prep : Prepared s ready) (kept : s.Kept cfg) : ready.Kept cfg := by
  have owners : ready.owners cfg = s.owners cfg := by
    unfold TblSystem.owners
    rw [prep.listed, prep.reap]
  constructor
  · rw [owners, prep.told, prep.live]
    exact kept.books.of_sameMem prep.tbls
  · rw [owners, prep.told]
    exact kept.owned
  · rw [prep.told]
    exact kept.unsent

def KeepsBoth (env : CommitEnv Rule) (imgs : AllocImgsParams) (hashOfst nhashOfst : Nat)
    (parts : IpaRuleType → List TblPart) (t : Translation Rule) : Prop :=
  KeepsParts (hashPass env imgs hashOfst) (parts .hashable) (t.start (hashPass env imgs hashOfst)) ∧
    ∀ next, t.translateTblToHwFmt (hashPass env imgs hashOfst) (parts .hashable) = some (next, true) →
      KeepsParts (nhashPass env imgs nhashOfst) (parts .nonHashable)
        (next.start (nhashPass env imgs nhashOfst))

structure Grants (env : CommitEnv Rule) (live : List Nat) : Prop where
  fresh : ∀ ref rlt, Fresh env rlt live ref
  distinct : Distinct env

theorem translateBoth_books (books : Books holders told t.tbls t.live)
    (placed : ∀ rlt, ∀ part ∈ parts rlt, Placed holders rlt t part)
    (once : ∀ rlt, ((parts rlt).map TblPart.tbl).Nodup) (grants : Grants env t.live)
    (keeps : KeepsBoth env imgs hashOfst nhashOfst parts t)
    (ran : translateBoth env imgs hashOfst nhashOfst parts t = some (image, fine)) :
    Books holders told image.tbls image.live ∧ ∀ ref, SameRules (image.tbls ref) (t.tbls ref) := by
  unfold translateBoth at ran
  split at ran
  · rename_i next first
    have same := translateTblToHwFmt_sameRules first
    have kept := translateTblToHwFmt_books books (placed .hashable) (once .hashable)
      (fun _ _ => grants.fresh _ _) grants.distinct keeps.1 first
    refine ⟨translateTblToHwFmt_books kept ?_ (once .nonHashable) ?_ grants.distinct (keeps.2 _ first) ran, ?_⟩
    · intro part mem
      exact (placed .nonHashable part mem).congr (same part.tbl)
    · intro part _
      have unused : Fresh (hashPass env imgs hashOfst).env .nonHashable next.live part.tbl :=
        translateTblToHwFmt_fresh grants.distinct IpaRuleType.noConfusion (grants.fresh _ _) first
      exact unused
    · intro ref
      exact (translateTblToHwFmt_sameRules ran ref).trans (same ref)
  · exact ⟨translateTblToHwFmt_books books (placed .hashable) (once .hashable)
      (fun _ _ => grants.fresh _ _) grants.distinct keeps.1 ran, translateTblToHwFmt_sameRules ran⟩

theorem keepsBoth_of_free (free : ∀ rlt, ∀ part ∈ parts rlt, part.inSys = true ∧
      ((t.tbls part.tbl).prevMem rlt).physBase = 0)
    (once : ∀ rlt, ((parts rlt).map TblPart.tbl).Nodup) : KeepsBoth env imgs hashOfst nhashOfst parts t := by
  refine ⟨keepsParts_of_free (t := t.start _) (free .hashable) (once .hashable),
    fun next first => keepsParts_of_free (t := next.start _) ?_ (once .nonHashable)⟩
  intro part mem
  have same : (next.tbls part.tbl).prevMem .nonHashable = (t.tbls part.tbl).prevMem .nonHashable :=
    translateTblToHwFmt_prevMem IpaRuleType.noConfusion first part.tbl
  refine ⟨(free .nonHashable part mem).1, ?_⟩
  show ((next.tbls part.tbl).prevMem .nonHashable).physBase = 0
  rw [same]
  exact (free .nonHashable part mem).2

theorem translateBoth_other (absent : ∀ rlt, ref ∉ (parts rlt).map TblPart.tbl)
    (ran : translateBoth env imgs hashOfst nhashOfst parts t = some (image, fine)) : image.tbls ref = t.tbls ref := by
  unfold translateBoth at ran
  split at ran
  · rename_i next first
    exact (translateTblToHwFmt_other (absent _) ran).trans (translateTblToHwFmt_other (absent _) first)
  · exact translateTblToHwFmt_other (absent _) ran

theorem translateBoth_currMem (idle : ∀ part ∈ parts rlt, part.tbl = ref → part.inSys = false ∨ (t.tbls ref).sz rlt = 0)
    (ran : translateBoth env imgs hashOfst nhashOfst parts t = some (image, fine)) :
    (image.tbls ref).currMem rlt = (t.tbls ref).currMem rlt := by
  unfold translateBoth at ran
  split at ran
  · rename_i next first
    have same := translateTblToHwFmt_currMem
      (fun part mem (type : rlt = .hashable) here => idle part (type ▸ mem) here) first
    refine (translateTblToHwFmt_currMem ?_ ran).trans same
    intro part mem type here
    rw [translateTblToHwFmt_sameRules first ref]
    exact idle part (type ▸ mem) here
  · exact translateTblToHwFmt_currMem (fun part mem (type : rlt = .hashable) here => idle part (type ▸ mem) here) ran

end TblSystem

end KernelModules.IpaTables

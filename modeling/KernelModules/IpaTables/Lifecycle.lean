import KernelModules.IpaTables.Keeping

namespace KernelModules.IpaTables

open Data Translation IpaTbl List TblRef TblSystem IpaRuleType IpaMemBuffer Option Function

/-! # The life of the blocks for system tables

The blocks of a table are swapped before it is known whether the commit succeeds; the next swap loses the one that
was kept.
-/

namespace TblSystem

variable {Rule : Type} {cfg : TblConfig} {env : CommitEnv Rule} {s ready after : TblSystem Rule}
  {imgs : AllocImgsParams} {memory : ByteMemory} {t image : Translation Rule} {skip : Nat → Bool}
  {tbl : Nat} {rlt : IpaRuleType} {ref : TblRef} {block : Nat} {action : TblAction Rule}
  {fine idAllocated : Bool} {rules : List (IpaEntry Rule)}

/-- Every block is held by one table, listed or waiting to be reaped, as its current or former block; and those that
the hardware uses are not freed. -/
structure BlocksOwned (cfg : TblConfig) (s : TblSystem Rule) : Prop where
  once : ((s.owners cfg).flatMap fun ref => (s.tbls ref).held).Nodup
  all : ∀ block, block ∈ s.live ↔ ∃ ref ∈ s.owners cfg, block ∈ (s.tbls ref).held
  used : ∀ ref rlt, s.told ref rlt ≠ 0 → s.told ref rlt ∈ s.live

theorem Kept.blocksOwned (kept : s.Kept cfg) : s.BlocksOwned cfg := by
  constructor
  · exact kept.books.holding.held_nodup
  · exact fun block => kept.books.holding.mem_iff
  · intro ref rlt here
    exact kept.books.holding.mem (kept.owned ref rlt here) (mem_held.mpr ⟨rlt, kept.books.told ref rlt here⟩)

structure RtReady (cfg : TblConfig) (env : CommitEnv Rule) (s ready : TblSystem Rule)
    (imgs : AllocImgsParams) (memory : ByteMemory) : Prop where
  present : s.rtIdxBitmap.isEmpty = false
  prepared : ∃ params, s.prepRt cfg env = (ready, some params) ∧
    allocateHwTblImgs cfg env params = some (imgs, memory)

def RtSent (cfg : TblConfig) (env : CommitEnv Rule) (imgs : AllocImgsParams) : Prop :=
  imgs.hashBdy.size ≤ cfg.appsRtHashSize ∧ imgs.nhashBdy.size ≤ cfg.appsRtNhashSize ∧ env.commandsSent = true

/-- No part is translated while it holds the block before the last one, and no table is reaped
with such a block. -/
structure KeepsRt (cfg : TblConfig) (env : CommitEnv Rule) (s : TblSystem Rule) : Prop where
  passes : ∀ ready imgs memory, RtReady cfg env s ready imgs memory →
    KeepsBoth env imgs cfg.rtHashBdyStartOfst cfg.rtNhashBdyStartOfst
      (rtParts cfg ready.tbls ready.headRtTblList) (ready.translation memory)
  reap : ∀ ready imgs memory image, RtReady cfg env s ready imgs memory →
    ready.rtImage cfg env imgs memory = some (image, true) → RtSent cfg env imgs →
      ∀ tbl ∈ s.reapRtTblList, ∀ rlt, ((s.tbls (.rt tbl)).prevMem rlt).physBase = 0

def FltReady (cfg : TblConfig) (env : CommitEnv Rule) (s ready : TblSystem Rule)
    (imgs : AllocImgsParams) (memory : ByteMemory) : Prop :=
  ∃ params, s.prepFlt cfg env = (ready, some params) ∧ allocateHwTblImgs cfg env params = some (imgs, memory)

/-- No part is translated while it holds the block before the last one, and skipped pipes keep the block in use. -/
structure KeepsFlt (cfg : TblConfig) (env : CommitEnv Rule) (skip : Nat → Bool)
    (s : TblSystem Rule) : Prop where
  passes : ∀ ready imgs memory, FltReady cfg env s ready imgs memory →
    KeepsBoth env imgs cfg.fltHashBdyStartOfst cfg.fltNhashBdyStartOfst
      (fltParts ready.tbls cfg.fltPipes) (ready.translation memory)
  skipped : ∀ ready imgs memory image, FltReady cfg env s ready imgs memory →
    ready.fltImage cfg env imgs memory = some (image, true) → env.commandsSent = true →
      ∀ pipe ∈ cfg.fltPipes, skip pipe = true → ∀ rlt, s.told (.flt pipe) rlt ≠ 0 →
        s.told (.flt pipe) rlt = ((s.tbls (.flt pipe)).currMem rlt).physBase ∧
          (ready.tbls (.flt pipe)).rules ≠ [] ∧ ((ready.tbls (.flt pipe)).sz rlt = 0 ∨
            ((ready.tbls (.flt pipe)).inSys rlt || (ready.tbls (.flt pipe)).forceSys rlt) = false)

def KeepsBlocks (cfg : TblConfig) (s : TblSystem Rule) : TblAction Rule → Prop
  | .commitRt env => KeepsRt cfg env s
  | .commitFlt env skip => KeepsFlt cfg env skip s
  | _ => True

theorem keepsRt_of_free (once : s.headRtTblList.Nodup)
    (sys : ∀ tbl ∈ s.headRtTblList, ∀ rlt, (s.tbls (.rt tbl)).inSys rlt = true)
    (free : ∀ tbl ∈ s.headRtTblList ++ s.reapRtTblList, ∀ rlt,
      ((s.tbls (.rt tbl)).prevMem rlt).physBase = 0) : KeepsRt cfg env s := by
  constructor
  · intro ready imgs memory isReady
    obtain ⟨params, isPrepared, _⟩ := isReady.prepared
    have prep : Prepared s (s.prepRt cfg env).1 := prepRt_prepared
    rw [isPrepared] at prep
    apply keepsBoth_of_free
    · intro rlt part mem
      obtain ⟨tbl, listed, rfl⟩ := List.mem_map.mp mem
      rw [prep.listed] at listed
      constructor
      · rw [(prep.tbls _).inSys]
        exact sys tbl listed rlt
      · show ((ready.tbls (.rt tbl)).prevMem rlt).physBase = 0
        rw [(prep.tbls _).prevMem]
        exact free tbl (List.mem_append_left _ listed) rlt
    · intro rlt
      unfold rtParts
      rw [List.map_map, prep.listed]
      exact once.map fun _ _ => TblRef.rt.inj
  · intro _ _ _ _ _ _ _ tbl reaped rlt
    exact free tbl (List.mem_append_right _ reaped) rlt

def Granted (s : TblSystem Rule) : TblAction Rule → Prop
  | .commitRt env => Grants env s.live
  | .commitFlt env _ => Grants env s.live
  | _ => True

theorem Kept.init : (TblSystem.init cfg : TblSystem Rule).Kept cfg := by
  have nothing (ref : TblRef) : ((TblSystem.init cfg : TblSystem Rule).tbls ref).held = [] := by
    cases ref <;> rfl
  have nodup : (cfg.fltPipes.map TblRef.flt).Nodup :=
    (cfg.fltPipes_ordered.imp ne_of_lt).map _ fun _ _ apart same => apart (TblRef.flt.inj same)
  constructor
  · constructor
    · refine ⟨nodup, ?_, nodup_nil⟩
      rw [flatMap_eq_nil_iff.mpr fun ref _ => nothing ref]
      exact .refl _
    · exact fun _ _ here => absurd rfl here
    · exact fun _ _ _ => rfl
  · exact fun _ _ here => absurd rfl here
  · exact fun _ _ _ => rfl

theorem Kept.setRules (kept : s.Kept cfg) :
    Kept cfg { s with tbls := update s.tbls ref { s.tbls ref with rules } } :=
  ⟨kept.books.of_sameMem (SameMem.update ⟨rfl, rfl, rfl⟩), kept.owned, kept.unsent⟩

theorem mem_owners_rt : .rt tbl ∈ s.owners cfg ↔ tbl ∈ s.headRtTblList ++ s.reapRtTblList := by
  simp [owners]

theorem mem_owners_flt : .flt pipe ∈ s.owners cfg ↔ pipe ∈ cfg.fltPipes := by
  simp [owners]

theorem Kept.addRtTbl (kept : s.Kept cfg) (new : tbl ∉ s.headRtTblList ++ s.reapRtTblList) :
    (s.addRtTbl cfg tbl idAllocated).Kept cfg := by
  unfold TblSystem.addRtTbl
  split
  · exact kept
  rename_i idx _
  split
  · exact { kept with }
  have absent : .rt tbl ∉ s.owners cfg := fun mem => new (mem_owners_rt.mp mem)
  have elsewhere (ref : TblRef) (apart : ref ≠ .rt tbl) :
      update s.tbls (.rt tbl) (emptyTbl idx (rtInSys cfg)) ref = s.tbls ref :=
    update_of_ne apart ..
  have here : update s.tbls (.rt tbl) (emptyTbl idx (rtInSys cfg)) (.rt tbl) =
      emptyTbl idx (rtInSys cfg) := update_self ..
  constructor
  · constructor
    · refine Holding.join (kept.books.holding.congr ?_) absent ?_
      · intro ref mem
        dsimp only
        rw [elsewhere ref]
        rintro rfl
        exact absent mem
      · dsimp only
        rw [here]
        rfl
    · intro ref rlt present
      have mem := kept.owned ref rlt present
      dsimp only
      rw [elsewhere ref]
      · exact kept.books.told ref rlt present
      · rintro rfl
        exact absent mem
    · intro other rlt lcl
      dsimp only at lcl ⊢
      by_cases same : other = tbl
      · subst same
        rw [here]
        rfl
      · have apart : TblRef.rt other ≠ .rt tbl := fun equal => same (TblRef.rt.inj equal)
        rw [elsewhere _ apart] at lcl ⊢
        exact kept.books.lcl other rlt lcl
  · intro ref rlt present
    exact mem_cons_of_mem _ (kept.owned ref rlt present)
  · exact kept.unsent

theorem Kept.held_lcl (kept : s.Kept cfg)
    (lcl : ¬((s.tbls (.rt tbl)).inSys .hashable = true ∨ (s.tbls (.rt tbl)).inSys .nonHashable = true)) :
    ∀ rlt, (s.tbls (.rt tbl)).heldOf rlt = [] := by
  intro rlt
  obtain ⟨hash, nhash⟩ := not_or.mp lcl
  apply kept.books.lcl
  cases rlt with
  | hashable => exact Bool.eq_false_of_not_eq_true hash
  | nonHashable => exact Bool.eq_false_of_not_eq_true nhash

theorem Kept.delRtTbl (kept : s.Kept cfg) (listed : tbl ∈ s.headRtTblList) : (s.delRtTbl tbl).Kept cfg := by
  have moved : (s.headRtTblList ++ s.reapRtTblList).Perm (tbl :: (s.headRtTblList.erase tbl ++ s.reapRtTblList)) :=
    (perm_cons_erase listed).append_right _
  have order : (s.owners cfg).Perm
      (.rt tbl :: ((s.headRtTblList.erase tbl ++ s.reapRtTblList).map .rt ++ cfg.fltPipes.map .flt)) :=
    (moved.map rt).append_right _
  have holding := kept.books.holding.perm order
  by_cases sys : (s.tbls (.rt tbl)).inSys .hashable = true ∨ (s.tbls (.rt tbl)).inSys .nonHashable = true
  · have reap : (s.delRtTbl tbl).reapRtTblList = tbl :: s.reapRtTblList := if_pos sys
    have same : ((s.delRtTbl tbl).owners cfg).Perm
        (.rt tbl :: ((s.headRtTblList.erase tbl ++ s.reapRtTblList).map .rt ++ cfg.fltPipes.map .flt)) := by
      unfold owners
      rw [reap]
      exact (perm_middle.map rt).append_right _
    exact ⟨⟨holding.perm same.symm, kept.books.told, kept.books.lcl⟩,
      fun ref rlt here => same.mem_iff.mpr (order.mem_iff.mp (kept.owned ref rlt here)), kept.unsent⟩
  · have reap : (s.delRtTbl tbl).reapRtTblList = s.reapRtTblList := if_neg sys
    have same : (s.delRtTbl tbl).owners cfg =
        (s.headRtTblList.erase tbl ++ s.reapRtTblList).map .rt ++ cfg.fltPipes.map .flt := by
      unfold owners
      rw [reap]
      rfl
    have nothing := kept.held_lcl sys
    have held : (s.tbls (.rt tbl)).held = [] :=
      flatMap_eq_nil_iff.mpr fun rlt _ => nothing rlt
    refine ⟨⟨?_, kept.books.told, kept.books.lcl⟩, ?_, kept.unsent⟩
    · rw [same]
      exact holding.leave held
    · intro ref rlt here
      rw [same]
      rcases mem_cons.mp (order.mem_iff.mp (kept.owned ref rlt here)) with rfl | mem
      · have told := kept.books.told _ rlt here
        rw [nothing rlt] at told
        cases told
      · exact mem

def rtGone (s : TblSystem Rule) : TblRef → List Nat
  | .rt tbl =>
    if tbl ∈ s.headRtTblList then all.flatMap fun rlt => ((s.tbls (.rt tbl)).prevMem rlt).addresses
    else all.flatMap fun rlt => ((s.tbls (.rt tbl)).currMem rlt).addresses
  | .flt _ => []

def rtLeft (s : TblSystem Rule) : TblRef → List Nat
  | .rt tbl =>
    if tbl ∈ s.headRtTblList then all.flatMap fun rlt => ((s.tbls (.rt tbl)).currMem rlt).addresses
    else []
  | .flt pipe => (s.tbls (.flt pipe)).held

theorem held_perm_rtGone (prev : ∀ tbl ∈ s.reapRtTblList, ∀ rlt,
      ((s.tbls (.rt tbl)).prevMem rlt).physBase = 0) (mem : ref ∈ s.owners cfg) :
    (s.tbls ref).held.Perm (s.rtGone ref ++ s.rtLeft ref) := by
  cases ref with
  | flt pipe => exact .refl _
  | rt tbl =>
    unfold rtGone rtLeft held heldOf
    by_cases listed : tbl ∈ s.headRtTblList
    · simp only [if_pos listed]
      exact Holding.flatMap_append_perm.trans perm_append_comm
    · have reaped := (mem_append.mp (mem_owners_rt.mp mem)).resolve_left listed
      have nothing (rlt : IpaRuleType) : ((s.tbls (.rt tbl)).prevMem rlt).addresses = [] :=
        addresses_eq_nil_iff.mpr (prev tbl reaped rlt)
      simp only [if_neg listed, nothing, append_nil]
      exact .refl _

theorem Kept.lists_nodup (kept : s.Kept cfg) : (s.headRtTblList ++ s.reapRtTblList).Nodup :=
  List.Nodup.of_map _ (nodup_append.mp kept.books.holding.owners_nodup).1

theorem flatMap_rtGone (kept : s.Kept cfg) : (s.owners cfg).flatMap s.rtGone = (s.headRtTblList.flatMap fun tbl =>
        all.flatMap fun rlt => ((s.tbls (.rt tbl)).prevMem rlt).addresses) ++ s.reapRtTblList.flatMap fun tbl =>
        all.flatMap fun rlt => ((s.tbls (.rt tbl)).currMem rlt).addresses := by
  have apart := nodup_append.mp kept.lists_nodup
  have flt : (cfg.fltPipes.map flt).flatMap s.rtGone = [] := by
    rw [flatMap_map]
    exact flatMap_eq_nil_iff.mpr fun _ _ => rfl
  unfold owners
  rw [flatMap_append, flt, append_nil, map_append, flatMap_append, flatMap_map, flatMap_map]
  congr 1
  · exact flatMap_congr fun tbl mem => if_pos mem
  · exact flatMap_congr fun tbl reaped => if_neg fun mem => apart.2.2 _ mem _ reaped rfl

theorem Kept.reapSysRtTbls (kept : s.Kept cfg)
    (prev : ∀ tbl ∈ s.reapRtTblList, ∀ rlt, ((s.tbls (.rt tbl)).prevMem rlt).physBase = 0)
    (told : ∀ tbl rlt, s.told (.rt tbl) rlt ≠ 0 → tbl ∈ s.headRtTblList ∧
      s.told (.rt tbl) rlt = ((s.tbls (.rt tbl)).currMem rlt).physBase) : s.reapSysRtTbls.Kept cfg := by
  have heldOf (tbl : Nat) (listed : tbl ∈ s.headRtTblList) (rlt : IpaRuleType) :
      (s.reapSysRtTbls.tbls (.rt tbl)).heldOf rlt = ((s.tbls (.rt tbl)).currMem rlt).addresses := by
    unfold TblSystem.reapSysRtTbls IpaTbl.heldOf
    simp [if_pos listed, IpaMemBuffer.addresses_freed]
  have unlisted (tbl : Nat) (away : tbl ∉ s.headRtTblList) :
      s.reapSysRtTbls.tbls (.rt tbl) = s.tbls (.rt tbl) := if_neg away
  have order : (s.owners cfg).Perm (s.reapRtTblList.map .rt ++ s.reapSysRtTbls.owners cfg) := by
    unfold owners TblSystem.reapSysRtTbls
    rw [append_nil, map_append, ← append_assoc]
    exact perm_append_comm.append_right _
  have apart := nodup_append.mp kept.lists_nodup
  constructor
  · constructor
    · have given := kept.books.holding.giveBack fun ref mem => held_perm_rtGone prev mem
      rw [flatMap_rtGone kept, diff_append] at given
      have remaining := (given.perm order).leave_all fun ref mem => by
        obtain ⟨tbl, reaped, rfl⟩ := mem_map.mp mem
        exact if_neg fun listed => apart.2.2 _ listed _ reaped rfl
      refine remaining.congr fun ref mem => ?_
      cases ref with
      | flt pipe => exact .refl _
      | rt tbl =>
        have listed : tbl ∈ s.headRtTblList := by
          have mem := mem_owners_rt.mp mem
          rwa [show s.reapSysRtTbls.reapRtTblList = [] from rfl, append_nil] at mem
        have left : s.rtLeft (.rt tbl) =
            IpaRuleType.all.flatMap fun rlt => ((s.tbls (.rt tbl)).currMem rlt).addresses :=
          if_pos listed
        rw [left]
        unfold IpaTbl.held
        rw [flatMap_congr fun rlt _ => heldOf tbl listed rlt]
    · intro ref rlt here
      cases ref with
      | flt pipe => exact kept.books.told _ rlt here
      | rt tbl =>
        obtain ⟨listed, curr⟩ := told tbl rlt here
        rw [heldOf tbl listed]
        exact IpaMemBuffer.mem_addresses.mpr ⟨here, curr.symm⟩
    · intro tbl rlt lcl
      by_cases listed : tbl ∈ s.headRtTblList
      · have inSys : (s.reapSysRtTbls.tbls (.rt tbl)).inSys = (s.tbls (.rt tbl)).inSys := by
          unfold TblSystem.reapSysRtTbls
          simp [if_pos listed]
        rw [inSys] at lcl
        rw [heldOf tbl listed]
        exact (append_eq_nil_iff.mp (kept.books.lcl tbl rlt lcl)).1
      · rw [unlisted tbl listed] at lcl ⊢
        exact kept.books.lcl tbl rlt lcl
  · intro ref rlt here
    cases ref with
    | flt pipe => exact mem_owners_flt.mpr (mem_owners_flt.mp (kept.owned _ rlt here))
    | rt tbl => exact mem_owners_rt.mpr (mem_append_left _ (told tbl rlt here).1)
  · exact kept.unsent

def fltGone (tbl : IpaTbl Rule) (rlt : IpaRuleType) : List Nat :=
  (tbl.prevMem rlt).addresses ++ if tbl.rules.isEmpty then (tbl.currMem rlt).addresses else []

def fltLeft (tbl : IpaTbl Rule) (rlt : IpaRuleType) : List Nat :=
  if tbl.rules.isEmpty then [] else (tbl.currMem rlt).addresses

theorem heldOf_perm_fltGone (tbl : IpaTbl Rule) (rlt : IpaRuleType) :
    (tbl.heldOf rlt).Perm (fltGone tbl rlt ++ fltLeft tbl rlt) := by
  unfold fltGone fltLeft
  split
  · rw [append_nil]
    exact perm_append_comm
  · rw [append_nil]
    exact perm_append_comm

def ofPipe (gone : IpaTbl Rule → List Nat) (other : TblRef → List Nat) (s : TblSystem Rule) : TblRef → List Nat
  | .flt pipe => gone (s.tbls (.flt pipe))
  | .rt tbl => other (.rt tbl)

theorem flatMap_ofPipe : (s.owners cfg).flatMap (s.ofPipe gone fun _ => []) =
      cfg.fltPipes.flatMap fun pipe => gone (s.tbls (.flt pipe)) := by
  have rt : ((s.headRtTblList ++ s.reapRtTblList).map rt).flatMap (s.ofPipe gone fun _ => []) = [] := by
    rw [flatMap_map]
    exact flatMap_eq_nil_iff.mpr fun _ _ => rfl
  unfold owners
  rw [flatMap_append, rt, flatMap_map]
  rfl

theorem Kept.reapSysFltTbls (kept : s.Kept cfg)
    (told : ∀ pipe rlt, s.told (.flt pipe) rlt ≠ 0 → (s.tbls (.flt pipe)).rules ≠ [] ∧
      s.told (.flt pipe) rlt = ((s.tbls (.flt pipe)).currMem rlt).physBase) : (s.reapSysFltTbls cfg).Kept cfg := by
  let held : TblRef → List Nat := fun ref => (s.tbls ref).held
  have heldOf (pipe : Nat) (mem : pipe ∈ cfg.fltPipes) (rlt : IpaRuleType) :
      ((s.reapSysFltTbls cfg).tbls (.flt pipe)).heldOf rlt = fltLeft (s.tbls (.flt pipe)) rlt := by
    unfold TblSystem.reapSysFltTbls IpaTbl.heldOf fltLeft
    simp only [if_pos mem, IpaMemBuffer.addresses_freed, List.append_nil]
    split
    · exact IpaMemBuffer.addresses_freed
    · rfl
  let first := s.ofPipe (fun tbl => fltLeft tbl .hashable ++ tbl.heldOf .nonHashable) held
  let last := s.ofPipe (fun tbl => fltLeft tbl .hashable ++ fltLeft tbl .nonHashable) held
  have hashable : Holding (s.owners cfg) first
      (s.live.diff (cfg.fltPipes.flatMap fun pipe => fltGone (s.tbls (.flt pipe)) .hashable)) := by
    have parts : ∀ ref ∈ s.owners cfg, (held ref).Perm
        (s.ofPipe (fun tbl => fltGone tbl .hashable) (fun _ => []) ref ++ first ref) := by
      intro ref _
      cases ref with
      | rt tbl => exact .refl _
      | flt pipe =>
        have part := (heldOf_perm_fltGone (s.tbls (.flt pipe)) .hashable).append_right
          ((s.tbls (.flt pipe)).heldOf .nonHashable)
        have both : (s.tbls (.flt pipe)).held =
            (s.tbls (.flt pipe)).heldOf .hashable ++ (s.tbls (.flt pipe)).heldOf .nonHashable := by
          simp [IpaTbl.held, IpaRuleType.all]
        rw [List.append_assoc, ← both] at part
        exact part
    have given := kept.books.holding.giveBack parts
    rwa [flatMap_ofPipe] at given
  have both : Holding (s.owners cfg) last (s.reapSysFltTbls cfg).live := by
    have parts : ∀ ref ∈ s.owners cfg, (first ref).Perm
        (s.ofPipe (fun tbl => fltGone tbl .nonHashable) (fun _ => []) ref ++ last ref) := by
      intro ref _
      cases ref with
      | rt tbl => exact .refl _
      | flt pipe =>
        have part := (heldOf_perm_fltGone (s.tbls (.flt pipe)) .nonHashable).append_left
          (fltLeft (s.tbls (.flt pipe)) .hashable)
        refine part.trans ?_
        show List.Perm _ (fltGone (s.tbls (.flt pipe)) .nonHashable ++
          (fltLeft (s.tbls (.flt pipe)) .hashable ++ fltLeft (s.tbls (.flt pipe)) .nonHashable))
        rw [← List.append_assoc, ← List.append_assoc]
        exact List.perm_append_comm.append_right _
    have given := hashable.giveBack parts
    rwa [flatMap_ofPipe] at given
  constructor
  · constructor
    · refine both.congr fun ref mem => ?_
      cases ref with
      | rt tbl => exact .refl _
      | flt pipe =>
        have listed := mem_owners_flt.mp mem
        unfold IpaTbl.held
        rw [List.flatMap_congr fun rlt _ => heldOf pipe listed rlt]
        simp only [IpaRuleType.all, List.flatMap_cons, List.flatMap_nil, List.append_nil]
        exact .refl _
    · intro ref rlt here
      cases ref with
      | rt tbl => exact kept.books.told _ rlt here
      | flt pipe =>
        obtain ⟨some, curr⟩ := told pipe rlt here
        rw [heldOf pipe (mem_owners_flt.mp (kept.owned _ rlt here))]
        unfold fltLeft
        rw [if_neg (by rwa [List.isEmpty_iff])]
        exact IpaMemBuffer.mem_addresses.mpr ⟨here, curr.symm⟩
    · exact kept.books.lcl
  · exact kept.owned
  · exact kept.unsent

theorem RtReady.isPrepared (isReady : RtReady cfg env s ready imgs memory) : Prepared s ready := by
  obtain ⟨params, prep, _⟩ := isReady.prepared
  have same : Prepared s (s.prepRt cfg env).1 := prepRt_prepared
  rwa [prep] at same

theorem FltReady.isPrepared (isReady : FltReady cfg env s ready imgs memory) : Prepared s ready := by
  obtain ⟨params, prep, _⟩ := isReady
  have same : Prepared s (s.prepFlt cfg env).1 := prepFlt_prepared
  rwa [prep] at same

theorem commitRt_cases (done : s.commitRt cfg env = some after) : (after = s ∨ after = (s.prepRt cfg env).1) ∨
    ∃ ready imgs memory image fine, RtReady cfg env s ready imgs memory ∧
      ready.rtImage cfg env imgs memory = some (image, fine) ∧
      (after = ready.translated image ∨ fine = true ∧ RtSent cfg env imgs ∧
        after = ((ready.translated image).tellRt cfg).reapSysRtTbls) := by
  unfold commitRt at done
  split at done
  · cases done
    exact .inl (.inl rfl)
  · rename_i here
    split at done
    · rename_i ready prep
      cases done
      exact .inl (.inr (congrArg Prod.fst prep).symm)
    · rename_i ready params prep
      split at done
      · cases done
        exact .inl (.inr (congrArg Prod.fst prep).symm)
      · rename_i imgs memory alloc
        have isReady : RtReady cfg env s ready imgs memory :=
          ⟨Bool.eq_false_of_not_eq_true here, params, prep, alloc⟩
        split at done
        · cases done
        · rename_i image ran
          cases done
          exact .inr ⟨ready, imgs, memory, image, false, isReady, ran, .inl rfl⟩
        · rename_i image ran
          split at done
          · rename_i sent
            cases done
            exact .inr ⟨ready, imgs, memory, image, true, isReady, ran, .inr ⟨rfl, sent, rfl⟩⟩
          · cases done
            exact .inr ⟨ready, imgs, memory, image, true, isReady, ran, .inl rfl⟩

theorem commitFlt_cases (done : s.commitFlt cfg env skip = some after) :
    after = (s.prepFlt cfg env).1 ∨ ∃ ready imgs memory image fine, FltReady cfg env s ready imgs memory ∧
      ready.fltImage cfg env imgs memory = some (image, fine) ∧
      (after = ready.translated image ∨ fine = true ∧ env.commandsSent = true ∧
        after = ((ready.translated image).tellFlt cfg skip).reapSysFltTbls cfg) := by
  unfold commitFlt at done
  split at done
  · rename_i ready prep
    cases done
    exact .inl (congrArg Prod.fst prep).symm
  · rename_i ready params prep
    split at done
    · cases done
      exact .inl (congrArg Prod.fst prep).symm
    · rename_i imgs memory alloc
      have isReady : FltReady cfg env s ready imgs memory := ⟨params, prep, alloc⟩
      split at done
      · cases done
      · rename_i image ran
        cases done
        exact .inr ⟨ready, imgs, memory, image, false, isReady, ran, .inl rfl⟩
      · rename_i image ran
        split at done
        · rename_i sent
          cases done
          exact .inr ⟨ready, imgs, memory, image, true, isReady, ran, .inr ⟨rfl, sent, rfl⟩⟩
        · cases done
          exact .inr ⟨ready, imgs, memory, image, true, isReady, ran, .inl rfl⟩

theorem Kept.translated (kept : ready.Kept cfg)
    (books : Books (ready.owners cfg) ready.told image.tbls image.live) : (ready.translated image).Kept cfg :=
  ⟨books, kept.owned, kept.unsent⟩

theorem rtParts_placed : ∀ part ∈ rtParts cfg s.tbls s.headRtTblList rlt,
      Placed (s.owners cfg) rlt (s.translation memory) part := by
  intro part mem
  obtain ⟨tbl, listed, rfl⟩ := mem_map.mp mem
  exact ⟨mem_owners_rt.mpr (mem_append_left _ listed), fun _ _ sys => sys⟩

theorem map_tbl_rtParts : (rtParts cfg s.tbls s.headRtTblList rlt).map TblPart.tbl = s.headRtTblList.map .rt := by
  unfold rtParts
  rw [List.map_map]
  rfl

theorem fltParts_placed : ∀ part ∈ fltParts s.tbls cfg.fltPipes rlt,
    Placed (s.owners cfg) rlt (s.translation memory) part := by
  intro part mem
  obtain ⟨⟨pipe, hdrIdx⟩, indexed, rfl⟩ := mem_map.mp mem
  exact ⟨mem_owners_flt.mpr (fst_mem_of_mem_zipIdx indexed), nofun⟩

theorem map_tbl_fltParts : (fltParts s.tbls cfg.fltPipes rlt).map TblPart.tbl = cfg.fltPipes.map .flt := by
  unfold fltParts
  rw [List.map_map, ← List.zipIdx_map_fst 0 cfg.fltPipes, List.map_map]
  simp

theorem toldOf_ne_zero {tbl : IpaTbl Rule} {inSys : Bool} (here : toldOf tbl inSys rlt ≠ 0) :
    toldOf tbl inSys rlt = (tbl.currMem rlt).physBase ∧ inSys = true ∧ tbl.sz rlt ≠ 0 := by
  unfold toldOf at *
  split at here
  · rename_i sent
    rw [if_pos sent]
    exact ⟨rfl, sent⟩
  · exact absurd rfl here

theorem Kept.tellRt_told (kept : s.Kept cfg) (here : (s.tellRt cfg).told (.rt tbl) rlt ≠ 0) :
    tbl ∈ s.headRtTblList ∧ (s.tellRt cfg).told (.rt tbl) rlt = ((s.tbls (.rt tbl)).currMem rlt).physBase := by
  have told : (s.tellRt cfg).told (.rt tbl) rlt = if cfg.sends rlt then if tbl ∈ s.headRtTblList then
          toldOf (s.tbls (.rt tbl)) ((s.tbls (.rt tbl)).inSys rlt) rlt
        else 0
      else s.told (.rt tbl) rlt := rfl
  rw [told] at here ⊢
  split at here
  · rename_i sends
    split at here
    · rename_i mem
      rw [if_pos sends, if_pos mem]
      exact ⟨mem, (toldOf_ne_zero here).1⟩
    · exact absurd rfl here
  · rename_i unsent
    exact absurd (kept.unsent _ _ (Bool.eq_false_of_not_eq_true unsent)) here

theorem Kept.tellRt (kept : s.Kept cfg) : (s.tellRt cfg).Kept cfg := by
  refine ⟨⟨kept.books.holding, ?_, kept.books.lcl⟩, ?_, ?_⟩
  · intro ref rlt here
    cases ref with
    | flt pipe => exact kept.books.told _ rlt here
    | rt tbl =>
      have curr := (kept.tellRt_told here).2
      exact mem_append_left _ (mem_addresses.mpr ⟨here, curr.symm⟩)
  · intro ref rlt here
    cases ref with
    | flt pipe => exact kept.owned _ rlt here
    | rt tbl => exact mem_owners_rt.mpr (mem_append_left _ (kept.tellRt_told here).1)
  · intro ref rlt unsent
    cases ref with
    | flt pipe => exact kept.unsent _ rlt unsent
    | rt tbl =>
      refine (if_neg ?_).trans (kept.unsent _ rlt unsent)
      rw [unsent]
      exact Bool.false_ne_true

theorem Kept.commitRt (kept : s.Kept cfg) (grants : Grants env s.live) (keeps : KeepsRt cfg env s)
    (done : s.commitRt cfg env = some after) : after.Kept cfg := by
  rcases commitRt_cases done with
    (rfl | rfl) | ⟨ready, imgs, memory, image, fine, isReady, ran, cases⟩
  · exact kept
  · exact prepRt_prepared.kept kept
  have prep := isReady.isPrepared
  have readyKept := prep.kept kept
  have books : Books (ready.owners cfg) ready.told image.tbls image.live ∧
      ∀ ref, SameRules (image.tbls ref) (ready.tbls ref) := by
    refine translateBoth_books (t := ready.translation memory) readyKept.books
      (fun _ => rtParts_placed) (fun _ => ?_) ?_ (keeps.passes _ _ _ isReady) ran
    · rw [map_tbl_rtParts]
      exact (nodup_append.mp readyKept.lists_nodup).1.map fun _ _ => rt.inj
    · rw [show (ready.translation memory).live = s.live from prep.live]
      exact grants
  have translatedKept := readyKept.translated books.1
  rcases cases with rfl | ⟨rfl, sent, rfl⟩
  · exact translatedKept
  refine translatedKept.tellRt.reapSysRtTbls ?_ fun tbl rlt here =>
    translatedKept.tellRt_told here
  intro tbl reaped rlt
  have waiting : tbl ∈ s.reapRtTblList := prep.reap ▸ reaped
  have unlisted : tbl ∉ ready.headRtTblList := fun listed =>
    (nodup_append.mp readyKept.lists_nodup).2.2 _ listed _ reaped rfl
  have same : image.tbls (.rt tbl) = ready.tbls (.rt tbl) := by
    refine translateBoth_other (t := ready.translation memory) (fun rlt mem => ?_) ran
    rw [map_tbl_rtParts] at mem
    obtain ⟨other, listed, equal⟩ := mem_map.mp mem
    exact unlisted (rt.inj equal ▸ listed)
  have free := keeps.reap _ _ _ _ isReady ran sent tbl waiting rlt
  rw [← (prep.tbls _).prevMem, ← same] at free
  exact free

theorem FltReady.sized (isReady : FltReady cfg env s ready imgs memory) (mem : pipe ∈ cfg.fltPipes) :
    Sized (ready.tbls (.flt pipe)) := by
  obtain ⟨params, prep, _⟩ := isReady
  unfold prepFlt at prep
  dsimp only at prep
  split at prep
  · rename_i fits
    cases prep
    apply moveNhashTbls_sized
    exact prepFltTbls_sized mem (Prod.ext rfl fits.1)
  · cases prep

theorem tellFlt_told {pipe : Nat} (kept : s.Kept cfg) (sized : ∀ pipe ∈ cfg.fltPipes, Sized (s.tbls (.flt pipe)))
    (skipped : ∀ pipe ∈ cfg.fltPipes, skip pipe = true → ∀ rlt, s.told (.flt pipe) rlt ≠ 0 →
      (s.tbls (.flt pipe)).rules ≠ [] ∧ s.told (.flt pipe) rlt = ((s.tbls (.flt pipe)).currMem rlt).physBase)
    (here : (s.tellFlt cfg skip).told (.flt pipe) rlt ≠ 0) : (s.tbls (.flt pipe)).rules ≠ [] ∧
      (s.tellFlt cfg skip).told (.flt pipe) rlt = ((s.tbls (.flt pipe)).currMem rlt).physBase := by
  have told : (s.tellFlt cfg skip).told (.flt pipe) rlt =
      if cfg.sends rlt ∧ pipe ∈ cfg.fltPipes ∧ skip pipe = false then toldOf (s.tbls (.flt pipe))
          ((s.tbls (.flt pipe)).inSys rlt || (s.tbls (.flt pipe)).forceSys rlt) rlt
      else s.told (.flt pipe) rlt := rfl
  rw [told] at here ⊢
  split at here
  · rename_i sent
    rw [if_pos sent]
    obtain ⟨curr, _, some⟩ := toldOf_ne_zero here
    exact ⟨fun empty => some (sized pipe sent.2.1 empty rlt), curr⟩
  · rename_i unsent
    rw [if_neg unsent]
    have mem := mem_owners_flt.mp (kept.owned _ rlt here)
    refine skipped pipe mem ?_ rlt here
    by_contra configured
    have sends : cfg.sends rlt = true := by
      by_contra off
      exact here (kept.unsent _ rlt (Bool.eq_false_of_not_eq_true off))
    exact unsent ⟨sends, mem, Bool.eq_false_of_not_eq_true configured⟩

theorem Kept.tellFlt (kept : s.Kept cfg)
    (curr : ∀ pipe rlt, (s.tellFlt cfg skip).told (.flt pipe) rlt ≠ 0 → (s.tbls (.flt pipe)).rules ≠ [] ∧
        (s.tellFlt cfg skip).told (.flt pipe) rlt = ((s.tbls (.flt pipe)).currMem rlt).physBase) :
    (s.tellFlt cfg skip).Kept cfg := by
  refine ⟨⟨kept.books.holding, ?_, kept.books.lcl⟩, ?_, ?_⟩
  · intro ref rlt here
    cases ref with
    | rt tbl => exact kept.books.told _ rlt here
    | flt pipe =>
      exact mem_append_left _ (mem_addresses.mpr ⟨here, (curr pipe rlt here).2.symm⟩)
  · intro ref rlt here
    cases ref with
    | rt tbl => exact kept.owned _ rlt here
    | flt pipe =>
      by_cases mem : pipe ∈ cfg.fltPipes
      · exact mem_owners_flt.mpr mem
      · refine kept.owned _ rlt ?_
        rwa [show (s.tellFlt cfg skip).told (.flt pipe) rlt = s.told (.flt pipe) rlt from
          if_neg fun sent => mem sent.2.1] at here
  · intro ref rlt unsent
    cases ref with
    | rt tbl => exact kept.unsent _ rlt unsent
    | flt pipe =>
      refine (if_neg ?_).trans (kept.unsent _ rlt unsent)
      rintro ⟨sends, _⟩
      rw [unsent] at sends
      cases sends

theorem Kept.commitFlt (kept : s.Kept cfg) (grants : Grants env s.live)
    (keeps : KeepsFlt cfg env skip s) (done : s.commitFlt cfg env skip = some after) : after.Kept cfg := by
  rcases commitFlt_cases done with rfl | ⟨ready, imgs, memory, image, fine, isReady, ran, cases⟩
  · exact prepFlt_prepared.kept kept
  have prep := isReady.isPrepared
  have readyKept := prep.kept kept
  have books : Books (ready.owners cfg) ready.told image.tbls image.live ∧
      ∀ ref, SameRules (image.tbls ref) (ready.tbls ref) := by
    refine translateBoth_books (t := ready.translation memory) readyKept.books
      (fun _ => fltParts_placed) (fun _ => ?_) ?_ (keeps.passes _ _ _ isReady) ran
    · rw [map_tbl_fltParts]
      exact (nodup_append.mp readyKept.books.holding.owners_nodup).2.1
    · rw [show (ready.translation memory).live = s.live from prep.live]
      exact grants
  have translatedKept := readyKept.translated books.1
  rcases cases with rfl | ⟨rfl, sent, rfl⟩
  · exact translatedKept
  have curr : ∀ pipe rlt, ((ready.translated image).tellFlt cfg skip).told (.flt pipe) rlt ≠ 0 →
      (image.tbls (.flt pipe)).rules ≠ [] ∧ ((ready.translated image).tellFlt cfg skip).told (.flt pipe) rlt =
          ((image.tbls (.flt pipe)).currMem rlt).physBase := by
    intro pipe rlt present
    refine tellFlt_told translatedKept ?_ ?_ present
    · intro pipe mem
      show Sized (image.tbls (.flt pipe))
      rw [books.2 (.flt pipe)]
      exact isReady.sized mem
    · intro pipe mem skips rlt present
      have told : (ready.translated image).told = s.told := prep.told
      rw [told] at present ⊢
      obtain ⟨stays, some, idle⟩ := keeps.skipped _ _ _ _ isReady ran sent pipe mem skips rlt present
      constructor
      · show (image.tbls (.flt pipe)).rules ≠ []
        rw [books.2 (.flt pipe)]
        exact some
      · show _ = ((image.tbls (.flt pipe)).currMem rlt).physBase
        have same : (image.tbls (.flt pipe)).currMem rlt = (ready.tbls (.flt pipe)).currMem rlt := by
          refine translateBoth_currMem (t := ready.translation memory) ?_ ran
          intro part mem here
          obtain ⟨⟨other, hdrIdx⟩, indexed, rfl⟩ := mem_map.mp mem
          cases here
          exact idle.symm
        rw [same, (prep.tbls _).currMem]
        exact stays
  exact (translatedKept.tellFlt curr).reapSysFltTbls curr

theorem Kept.step (kept : s.Kept cfg) (granted : Granted s action) (keeps : KeepsBlocks cfg s action)
    (taken : s.step cfg action = some after) : after.Kept cfg := by
  cases action with
  | setRules ref rules =>
    simp only [step] at taken
    split at taken
    · cases taken
      exact kept.setRules
    · cases taken
  | addRtTbl tbl idAllocated =>
    simp only [step] at taken
    split at taken
    · cases taken
    · rename_i new
      cases taken
      exact kept.addRtTbl new
  | delRtTbl tbl =>
    simp only [step] at taken
    split at taken
    · rename_i mem
      cases taken
      exact kept.delRtTbl mem
    · cases taken
  | commitRt env => exact kept.commitRt granted keeps taken
  | commitFlt env skip => exact kept.commitFlt granted keeps taken

/-- Over every run in which no commit translates a part that holds the block before the last one, reaps a table with
one, or skips a pipe whose block goes. -/
theorem blocks_owned (reached : Reachable (step cfg)
      (fun state action => Granted state action ∧ KeepsBlocks cfg state action) (init cfg) s) :
    s.BlocksOwned cfg := by
  apply Kept.blocksOwned
  refine reached.invariant (Kept cfg) Kept.init ?_
  intro before action after kept permitted taken
  exact kept.step permitted.1 permitted.2 taken

def sysRtConfig : TblConfig where
  hwType := .v5_5
  fltrtNotHashable := false
  rtTblHashLcl := false
  rtTblNhashLcl := false
  modemRtIndexLo := 0
  modemRtIndexHi := 7
  appsRtIndexLo := 8
  appsRtIndexHi := 14
  rtHashBdyStartOfst := 8848
  rtNhashBdyStartOfst := 8720
  appsRtHashSize := 0
  appsRtNhashSize := 0
  fltPipes := []
  fltPipes_ordered := .nil
  fltInSys := fun _ _ => true
  fltTblNhashLclList := []
  fltHashBdyStartOfst := 5264
  fltNhashBdyStartOfst := 5136
  appsFltHashSize := 0
  appsFltNhashSize := 0

def oneBlockEnv (physBase : Nat) (commandsSent : Bool) : CommitEnv Unit where
  memory := fun _ => 0
  encode := fun _ _ => some (List.replicate 8 1)
  scratch := fun _ => true
  dmaSysTbl := fun ref rlt =>
    if ref = .rt 0 ∧ rlt = .nonHashable then some (8 * physBase, physBase) else none
  dmaHashHdr := some (65536, 65536)
  dmaNhashHdr := some (131072, 131072)
  dmaHashBdy := none
  dmaNhashBdy := none
  stack := fun _ => .none
  commandsSent := commandsSent

theorem oneBlockEnv_grants {physBase : Nat} {live : List Nat} (new : physBase ∉ live) :
    Grants (oneBlockEnv physBase commandsSent) live := by
  constructor
  · intro ref rlt base block answer
    simp only [oneBlockEnv, ite_none_right_eq_some, some.injEq, Prod.mk.injEq] at answer
    rwa [← answer.2.2]
  · intro ref other rlt type base place block answer another
    simp only [oneBlockEnv, ite_none_right_eq_some, some.injEq, Prod.mk.injEq] at answer another
    exact ⟨answer.1.1.trans another.1.1.symm, answer.1.2.trans another.1.2.symm⟩

def oneRuleActions (commits : List (Nat × Bool)) : List (TblAction Unit) :=
  [.addRtTbl 0 true, .setRules (.rt 0) [⟨1, (), false, false, 0, 0⟩]] ++
    commits.map fun (physBase, sent) => .commitRt (oneBlockEnv physBase sent)

def oneRuleState (commits : List (Nat × Bool)) : Option (TblSystem Unit) :=
  (oneRuleActions commits).foldlM (step sysRtConfig) (init sysRtConfig)

theorem oneRuleState_append : oneRuleState (commits ++ [commit]) = (oneRuleState commits).bind fun state =>
      state.step sysRtConfig (.commitRt (oneBlockEnv commit.1 commit.2)) := by
  unfold oneRuleState oneRuleActions
  rw [map_append, ← append_assoc, foldlM_append]
  simp [foldlM_cons, foldlM_nil]

theorem oneRule_start (start : oneRuleState [] = some state) :
    Reachable (TblSystem.step sysRtConfig)
      (fun state action => Granted state action ∧ KeepsBlocks sysRtConfig state action)
      (TblSystem.init sysRtConfig) state := by
  unfold oneRuleState oneRuleActions at start
  simp only [map_nil, append_nil, foldlM_cons, foldlM_nil,
    Option.bind_eq_bind, Option.bind_eq_some_iff, Option.pure_def, Option.some.injEq] at start
  obtain ⟨added, first, ruled, second, rfl⟩ := start
  exact .next (.next .start (by exact ⟨trivial, trivial⟩) first) (by exact ⟨trivial, trivial⟩) second

theorem oneRule_next (commits : List (Nat × Bool))
    (reached : Reachable (step sysRtConfig) allowed (init sysRtConfig) state)
    (before : oneRuleState commits = some state) (now : oneRuleState (commits ++ [commit]) = some later)
    (permitted : allowed state (.commitRt (oneBlockEnv commit.1 commit.2))) :
    Reachable (step sysRtConfig) allowed (init sysRtConfig) later := by
  rw [oneRuleState_append, before] at now
  exact .next reached permitted now

theorem blocks_owned_one : ∃ state : TblSystem Unit, state.told (.rt 0) .nonHashable = 128 ∧
    state.BlocksOwned sysRtConfig := by
  have first : (oneRuleState []).map (fun state => (state.headRtTblList, state.reapRtTblList,
      state.live, IpaRuleType.all.map fun rlt => ((state.tbls (.rt 0)).inSys rlt,
        ((state.tbls (.rt 0)).prevMem rlt).physBase))) =
      some ([0], [], [], [(true, 0), (true, 0)]) := by
    decide +kernel
  have second : (oneRuleState [(128, true)]).map (fun state => state.told (.rt 0) .nonHashable) = some 128 := by
    decide +kernel
  obtain ⟨start, started, facts⟩ := Option.map_eq_some_iff.mp first
  obtain ⟨state, committed, told⟩ := Option.map_eq_some_iff.mp second
  simp only [IpaRuleType.all, List.map_cons, List.map_nil, Prod.mk.injEq, List.cons.injEq, and_true] at facts
  obtain ⟨listed, reaped, live, ⟨hashSys, hashFree⟩, nhashSys, nhashFree⟩ := facts
  have keeps : KeepsRt sysRtConfig (oneBlockEnv 128 true) start := by
    apply keepsRt_of_free
    · rw [listed]
      exact List.nodup_singleton 0
    · intro tbl member rlt
      rw [listed, List.mem_singleton] at member
      subst member
      cases rlt with
      | hashable => exact hashSys
      | nonHashable => exact nhashSys
    · intro tbl member rlt
      rw [listed, reaped, List.append_nil, List.mem_singleton] at member
      subst member
      cases rlt with
      | hashable => exact hashFree
      | nonHashable => exact nhashFree
  have grants : Grants (oneBlockEnv 128 true) start.live :=
    oneBlockEnv_grants (by rw [live]; exact List.not_mem_nil)
  exact ⟨state, told, blocks_owned
    (oneRule_next [] (oneRule_start started) started committed ⟨grants, keeps⟩)⟩

/-- The commands of a second commit fail, and the third commit loses the block of the first. -/
theorem block_lost : ∃ state : TblSystem Unit, Reachable (step sysRtConfig) Granted
      (init sysRtConfig) state ∧ ¬state.BlocksOwned sysRtConfig := by
  have lives : [[], [(128, true)], [(128, true), (256, false)],
        [(128, true), (256, false), (384, true)]].map (fun commits =>
      (oneRuleState commits).map fun state => (state.live, (state.owners sysRtConfig).flatMap fun ref =>
        (state.tbls ref).held)) =
      [some ([], []), some ([128], [128]), some ([256, 128], [256, 128]), some ([384, 128], [384])] := by
    decide +kernel
  simp only [map_cons, map_nil, List.cons.injEq, map_eq_some_iff, Prod.mk.injEq, and_true] at lives
  obtain ⟨⟨start, started, noLive, _⟩, ⟨one, first, oneLive, _⟩, ⟨two, second, twoLive, _⟩,
    ⟨three, third, threeLive, owned⟩⟩ := lives
  have reachedStart := (oneRule_start started).weaken fun _ _ permitted => permitted.1
  have reachedOne := oneRule_next [] reachedStart started first
    (oneBlockEnv_grants (by rw [noLive]; decide))
  have reachedTwo := oneRule_next [(128, true)] reachedOne first second
    (oneBlockEnv_grants (by rw [oneLive]; decide))
  refine ⟨three, oneRule_next [(128, true), (256, false)] reachedTwo second third
    (oneBlockEnv_grants (by rw [twoLive]; decide)), fun kept => ?_⟩
  have held := (kept.all 128).mp (by rw [threeLive]; decide)
  rw [← mem_flatMap, owned] at held
  revert held
  decide

end TblSystem

end KernelModules.IpaTables

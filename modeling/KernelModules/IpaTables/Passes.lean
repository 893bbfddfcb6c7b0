import KernelModules.Data.Holding
import KernelModules.IpaTables.Commit

namespace KernelModules.IpaTables

open Data List Function

/-! # What a pass does with the blocks

A pass takes a block for each part in system memory, which the table holds as its current one, or gives it back.
-/

variable {Rule : Type} {env : CommitEnv Rule} {pass : TblPass Rule} {tbl : IpaTbl Rule}
  {mem : IpaMemBuffer} {rlt : IpaRuleType} {block : Nat}

def IpaTbl.heldOf (tbl : IpaTbl Rule) (rlt : IpaRuleType) : List Nat :=
  (tbl.currMem rlt).addresses ++ (tbl.prevMem rlt).addresses

def IpaTbl.held (tbl : IpaTbl Rule) : List Nat :=
  IpaRuleType.all.flatMap tbl.heldOf

namespace IpaMemBuffer

theorem addresses_eq_nil_iff : mem.addresses = [] ↔ mem.physBase = 0 := by
  unfold addresses
  split <;> simp_all

theorem mem_addresses : block ∈ mem.addresses ↔ block ≠ 0 ∧ mem.physBase = block := by
  unfold addresses
  split <;> simp_all <;> grind

theorem addresses_of_ne (some : mem.physBase ≠ 0) : mem.addresses = [mem.physBase] :=
  if_pos some

@[simp] theorem addresses_freed : mem.freed.addresses = [] := by
  unfold freed
  split
  · rfl
  · rename_i free
    exact addresses_eq_nil_iff.mpr (not_ne_iff.mp free)

end IpaMemBuffer

namespace IpaTbl

theorem mem_held : block ∈ tbl.held ↔ ∃ rlt, block ∈ tbl.heldOf rlt := by
  unfold held IpaRuleType.all
  constructor
  · intro mem
    obtain ⟨rlt, _, holds⟩ := mem_flatMap.mp mem
    exact ⟨rlt, holds⟩
  · rintro ⟨rlt, holds⟩
    exact mem_flatMap.mpr ⟨rlt, by cases rlt <;> simp, holds⟩

theorem heldOf_congr {other : IpaTbl Rule} (curr : tbl.currMem rlt = other.currMem rlt)
    (prev : tbl.prevMem rlt = other.prevMem rlt) : tbl.heldOf rlt = other.heldOf rlt := by
  unfold heldOf
  rw [curr, prev]

theorem held_congr {other : IpaTbl Rule} (curr : tbl.currMem = other.currMem)
    (prev : tbl.prevMem = other.prevMem) : tbl.held = other.held := by
  unfold held heldOf
  rw [curr, prev]

def swap (tbl : IpaTbl Rule) (rlt : IpaRuleType) (mem : IpaMemBuffer) : IpaTbl Rule :=
  { tbl with
    currMem := update tbl.currMem rlt mem
    prevMem :=
      if (tbl.currMem rlt).physBase ≠ 0 then update tbl.prevMem rlt (tbl.currMem rlt)
      else tbl.prevMem }

theorem heldOf_swap_other (apart : other ≠ rlt) : (tbl.swap rlt mem).heldOf other = tbl.heldOf other := by
  apply heldOf_congr
  · exact update_of_ne apart ..
  · unfold swap
    split
    · exact update_of_ne apart ..
    · rfl

section

variable (some : mem.physBase ≠ 0)
  (free : (tbl.currMem rlt).physBase = 0 ∨ (tbl.prevMem rlt).physBase = 0)
include some free

theorem heldOf_swap : (tbl.swap rlt mem).heldOf rlt = mem.physBase :: tbl.heldOf rlt := by
  have curr : (tbl.swap rlt mem).currMem rlt = mem := update_self ..
  unfold heldOf
  rw [curr, IpaMemBuffer.addresses_of_ne some]
  by_cases none : (tbl.currMem rlt).physBase = 0
  · have prev : (tbl.swap rlt mem).prevMem = tbl.prevMem := if_neg (not_not_intro none)
    rw [prev, IpaMemBuffer.addresses_eq_nil_iff.mpr none]
    rfl
  have prev : (tbl.swap rlt mem).prevMem rlt = tbl.currMem rlt := by
    unfold swap
    rw [if_pos none]
    exact update_self ..
  rw [prev, IpaMemBuffer.addresses_eq_nil_iff.mpr (free.resolve_left none)]
  simp

theorem held_swap : (tbl.swap rlt mem).held.Perm (mem.physBase :: tbl.held) := by
  have same := heldOf_swap some free
  cases rlt with
  | hashable =>
    have other : (tbl.swap .hashable mem).heldOf .nonHashable = tbl.heldOf .nonHashable :=
      heldOf_swap_other (by decide)
    simp [held, IpaRuleType.all, same, other]
  | nonHashable =>
    have other : (tbl.swap .nonHashable mem).heldOf .hashable = tbl.heldOf .hashable :=
      heldOf_swap_other (by decide)
    simp only [held, IpaRuleType.all, flatMap_cons, flatMap_nil, append_nil, same, other]
    exact perm_middle

theorem mem_heldOf_swap (holds : block ∈ tbl.heldOf other) : block ∈ (tbl.swap rlt mem).heldOf other := by
  by_cases same : other = rlt
  · subst same
    rw [heldOf_swap some free]
    exact mem_cons_of_mem _ holds
  · rwa [heldOf_swap_other same]

end

end IpaTbl

namespace Translation

variable {t after : Translation Rule} {part : TblPart} {outcome : TblOutcome}

structure SameBlocks (before after : Translation Rule) : Prop where
  tbls : after.tbls = before.tbls
  live : after.live = before.live
  tblMem : after.tblMem = before.tblMem

theorem SameBlocks.refl : SameBlocks t t := ⟨rfl, rfl, rfl⟩

theorem SameBlocks.trans (first : SameBlocks t middle) (second : SameBlocks middle after) : SameBlocks t after :=
  ⟨second.tbls.trans first.tbls, second.live.trans first.live, second.tblMem.trans first.tblMem⟩

theorem generateRules_blocks (gen : generateRules pass owner target entries buf t = some (after, ending)) :
    SameBlocks t after := by
  induction entries generalizing buf t with
  | nil =>
    cases gen
    exact .refl
  | cons entry rest ih =>
    unfold generateRules at gen
    split at gen
    · exact ih gen
    · split at gen
      · split at gen
        · cases gen
        · exact ih gen
      · split at gen
        · cases gen
        · split at gen
          · cases gen
          · rename_i bytes _ _
            have written : SameBlocks t
                (t.write owner target buf (bytes ++ List.replicate tblWidth 0)) := ⟨rfl, rfl, rfl⟩
            exact written.trans (ih gen)

theorem writeAddrToHdr_cases (written : t.writeAddrToHdr pass owner addr hdrIdx isSys = (after, outcome)) :
    SameBlocks t after ∧ (outcome = .done ∧ addr ≠ 0 ∧ pass.hdr.base ≠ 0 ∨
        outcome = .hdrUpdateFail ∧ (addr = 0 ∨ pass.hdr.base = 0) ∨ outcome = .bug) := by
  unfold writeAddrToHdr at written
  split at written
  · rename_i absent
    cases written
    exact ⟨.refl, .inr (.inl ⟨rfl, absent⟩)⟩
  · rename_i here
    split at written
    · cases written
      exact ⟨.refl, .inr (.inr rfl)⟩
    · cases written
      exact ⟨⟨rfl, rfl, rfl⟩, .inl ⟨rfl, not_or.mp here⟩⟩

inductive PartEffect (pass : TblPass Rule) (part : TblPart) (t after : Translation Rule) : TblOutcome → Prop where
  | none {outcome : TblOutcome} (same : SameBlocks t after) (goes : outcome ≠ .hdrUpdateFail) :
      PartEffect pass part t after outcome
  /-- The header of a local part is not written, and `tbl_mem` is that of another part. -/
  | stale (same : SameBlocks t after) (lcl : part.inSys = false)
      (sized : (t.tbls part.tbl).sz pass.rlt ≠ 0)
      (absent : t.bodyI - pass.bdy.base + pass.bodyOfst = 0 ∨ pass.hdr.base = 0) :
      PartEffect pass part t after .hdrUpdateFail
  /-- A block is granted, and left in `tbl_mem`. -/
  | granted {outcome : TblOutcome} {base physBase : Nat}
      (answer : pass.env.dmaSysTbl part.tbl pass.rlt = some (base, physBase))
      (tbls : after.tbls = t.tbls) (live : after.live = physBase :: t.live)
      (tblMem : after.tblMem.physBase = physBase) (fails : outcome = .hdrUpdateFail ∨ outcome = .bug) :
      PartEffect pass part t after outcome
  | swapped {base physBase : Nat}
      (answer : pass.env.dmaSysTbl part.tbl pass.rlt = some (base, physBase))
      (sys : part.inSys = true) (sized : (t.tbls part.tbl).sz pass.rlt ≠ 0)
      (live : after.live = physBase :: t.live) (tblMem : after.tblMem.physBase = physBase)
      (some : physBase ≠ 0)
      (tbls : after.tbls = update t.tbls part.tbl ((t.tbls part.tbl).swap pass.rlt after.tblMem)) :
      PartEffect pass part t after .done

theorem allocateHwSysTbl_eq_some (alloc : t.allocateHwSysTbl pass owner size = some after) :
    ∃ base physBase, pass.env.dmaSysTbl owner pass.rlt = some (base, physBase) ∧
      after.tbls = t.tbls ∧ after.live = physBase :: t.live ∧ after.tblMem.physBase = physBase := by
  unfold allocateHwSysTbl at alloc
  split at alloc
  · cases alloc
  · split at alloc
    · cases alloc
    · rename_i base physBase answer
      split at alloc
      · cases alloc
      · cases alloc
        exact ⟨base, physBase, answer, rfl, rfl, rfl⟩

theorem translateSysPart_effect (sys : part.inSys = true) (sized : (t.tbls part.tbl).sz pass.rlt ≠ 0)
    (ran : t.translateSysPart pass part = (after, outcome)) : PartEffect pass part t after outcome := by
  unfold translateSysPart at ran
  dsimp only at ran
  split at ran
  · cases ran
    exact .none .refl (by decide)
  · rename_i granted alloc
    obtain ⟨base, physBase, answer, tbls, live, tblMem⟩ := allocateHwSysTbl_eq_some alloc
    split at ran
    · rename_i written hdr
      obtain ⟨same, cases⟩ := writeAddrToHdr_cases hdr
      have some : physBase ≠ 0 := by
        rcases cases with ⟨_, here, _⟩ | ⟨fails, _⟩ | fails
        · rwa [tblMem] at here
        · cases fails
        · cases fails
      split at ran
      · cases ran
        exact .granted answer (same.tbls.trans tbls) (same.live.trans live) (by rw [same.tblMem, tblMem]) (.inl rfl)
      · rename_i final ending gen
        cases ran
        have blocks := same.trans (generateRules_blocks gen)
        refine .swapped answer sys sized (blocks.live.trans live) ?_ some ?_
        · rw [← tblMem, ← blocks.tblMem]
          rfl
        · unfold swapMem
          rw [blocks.tbls, tbls]
          rfl
    · rename_i written failed unfinished hdr
      cases ran
      obtain ⟨same, cases⟩ := writeAddrToHdr_cases hdr
      refine .granted answer (same.tbls.trans tbls) (same.live.trans live) (by rw [same.tblMem, tblMem]) ?_
      rcases cases with ⟨done, _⟩ | ⟨fails, _⟩ | fails
      · subst done
        exact (unfinished rfl).elim
      · exact .inl fails
      · exact .inr fails

theorem translateLclPart_effect (lcl : part.inSys = false) (sized : (t.tbls part.tbl).sz pass.rlt ≠ 0)
    (ran : t.translateLclPart pass part = (after, outcome)) : PartEffect pass part t after outcome := by
  unfold translateLclPart at ran
  dsimp only at ran
  split at ran
  · rename_i written hdr
    obtain ⟨same, _⟩ := writeAddrToHdr_cases hdr
    split at ran
    · cases ran
      exact .none same (by decide)
    · rename_i final bodyI gen
      cases ran
      have blocks := same.trans (generateRules_blocks gen)
      exact .none { blocks with } (by decide)
  · rename_i written failed unfinished hdr
    cases ran
    obtain ⟨same, cases⟩ := writeAddrToHdr_cases hdr
    rcases cases with ⟨done, _⟩ | ⟨fails, absent⟩ | fails
    · subst done
      exact (unfinished rfl).elim
    · subst fails
      exact .stale same lcl sized absent
    · subst fails
      exact .none same (by decide)

theorem translatePart_effect (ran : t.translatePart pass part = (after, outcome)) :
    PartEffect pass part t after outcome := by
  unfold translatePart at ran
  split at ran
  · cases ran
    exact .none .refl (by decide)
  · rename_i sized
    split at ran
    · rename_i sys
      exact translateSysPart_effect sys sized ran
    · rename_i lcl
      exact translateLclPart_effect (Bool.eq_false_of_not_eq_true lcl) sized ran

def SameRules (tbl other : IpaTbl Rule) : Prop :=
  tbl = { other with currMem := tbl.currMem, prevMem := tbl.prevMem }

theorem PartEffect.sameRules (effect : PartEffect pass part t after outcome) (ref : TblRef) :
    SameRules (after.tbls ref) (t.tbls ref) := by
  have unchanged (tbls : after.tbls = t.tbls) : SameRules (after.tbls ref) (t.tbls ref) := by
    rw [tbls]
    rfl
  cases effect with
  | none same => exact unchanged same.tbls
  | stale same => exact unchanged same.tbls
  | granted _ tbls => exact unchanged tbls
  | swapped _ _ _ _ _ _ tbls =>
    rw [tbls]
    by_cases here : ref = part.tbl
    · subst here
      rw [update_self]
      rfl
    · rw [update_of_ne here]
      rfl

/-- The blocks are held by the tables of `owners`, each by one; those the hardware knows belong to their part; local
routing tables have none. -/
structure Books (owners : List TblRef) (told : TblRef → IpaRuleType → Nat)
    (tbls : TblRef → IpaTbl Rule) (live : List Nat) : Prop where
  holding : Holding owners (fun ref => (tbls ref).held) live
  told : ∀ ref rlt, told ref rlt ≠ 0 → told ref rlt ∈ (tbls ref).heldOf rlt
  lcl : ∀ tbl rlt, (tbls (.rt tbl)).inSys rlt = false → (tbls (.rt tbl)).heldOf rlt = []

/-- A block that becomes the one before the last takes no other's place, and the header of a local part can be
written. -/
def KeepsPart (pass : TblPass Rule) (t : Translation Rule) (part : TblPart) : Prop :=
  (t.tbls part.tbl).sz pass.rlt ≠ 0 → if part.inSys then (t.translatePart pass part).2 = .done →
        ((t.tbls part.tbl).currMem pass.rlt).physBase = 0 ∨ ((t.tbls part.tbl).prevMem pass.rlt).physBase = 0
    else t.bodyI - pass.bdy.base + pass.bodyOfst ≠ 0 ∧ pass.hdr.base ≠ 0

def KeepsParts (pass : TblPass Rule) : List TblPart → Translation Rule → Prop
  | [], _ => True
  | part :: rest, t =>
    t.KeepsPart pass part ∧
      ((t.translatePart pass part).2 = .done → KeepsParts pass rest (t.translatePart pass part).1)

/-- The parts are of tables that hold blocks; a routing table is in system memory only if it is
marked so. -/
def Placed (owners : List TblRef) (rlt : IpaRuleType) (t : Translation Rule) (part : TblPart) : Prop :=
  part.tbl ∈ owners ∧ ∀ tbl, part.tbl = .rt tbl → part.inSys = true → (t.tbls part.tbl).inSys rlt = true

def Fresh (env : CommitEnv Rule) (rlt : IpaRuleType) (live : List Nat) (ref : TblRef) : Prop :=
  ∀ base physBase, env.dmaSysTbl ref rlt = some (base, physBase) → physBase ∉ live

namespace Books

theorem swapped {told : TblRef → IpaRuleType → Nat} (books : Books owners told t.tbls t.live)
    (placed : Placed owners pass.rlt t part) (sys : part.inSys = true) (some : mem.physBase ≠ 0)
    (new : mem.physBase ∉ t.live) (free : ((t.tbls part.tbl).currMem pass.rlt).physBase = 0 ∨
      ((t.tbls part.tbl).prevMem pass.rlt).physBase = 0) (live : after.live = mem.physBase :: t.live)
    (tbls : after.tbls = update t.tbls part.tbl ((t.tbls part.tbl).swap pass.rlt mem)) :
    Books owners told after.tbls after.live := by
  have here : after.tbls part.tbl = (t.tbls part.tbl).swap pass.rlt mem := by
    rw [tbls, update_self]
  have elsewhere (ref : TblRef) (apart : ref ≠ part.tbl) : after.tbls ref = t.tbls ref := by
    rw [tbls, update_of_ne apart]
  constructor
  · rw [live]
    refine books.holding.gain placed.1 ?_ ?_ new
    · rw [here]
      exact IpaTbl.held_swap some free
    · intro ref apart
      rw [elsewhere ref apart]
  · intro ref rlt present
    by_cases same : ref = part.tbl
    · subst same
      rw [here]
      exact IpaTbl.mem_heldOf_swap some free (books.told _ rlt present)
    · rw [elsewhere ref same]
      exact books.told ref rlt present
  · intro tbl rlt lcl
    by_cases same : .rt tbl = part.tbl
    · rw [same, here] at lcl ⊢
      by_cases this : rlt = pass.rlt
      · subst this
        have marked := placed.2 tbl same.symm sys
        rw [show (t.tbls part.tbl).inSys pass.rlt = false from lcl] at marked
        cases marked
      · rw [IpaTbl.heldOf_swap_other this, ← same]
        exact books.lcl tbl rlt (by rw [same]; exact lcl)
    · rw [elsewhere _ same] at lcl ⊢
      exact books.lcl tbl rlt lcl

end Books

theorem translatePart_books (books : Books owners told t.tbls t.live) (placed : Placed owners pass.rlt t part)
    (fresh : Fresh pass.env pass.rlt t.live part.tbl) (keeps : t.KeepsPart pass part)
    (ran : t.translatePart pass part = (after, outcome)) :
    (outcome = .done → Books owners told after.tbls after.live) ∧ (outcome = .err → Books owners told after.tbls after.live) ∧
      (outcome = .hdrUpdateFail → Books owners told after.tbls (after.live.erase after.tblMem.physBase)) := by
  have done : (t.translatePart pass part).2 = outcome := by rw [ran]
  cases translatePart_effect ran with
  | none same goes =>
    have kept : Books owners told after.tbls after.live := by
      rw [same.tbls, same.live]
      exact books
    exact ⟨fun _ => kept, fun _ => kept, fun fails => absurd fails goes⟩
  | stale _ lcl sized absent =>
    have written := keeps sized
    rw [lcl] at written
    exact absurd absent (not_or.mpr written)
  | granted answer tbls live tblMem fails =>
    refine ⟨fun done => ?_, fun done => ?_, fun _ => ?_⟩
    · rcases fails with fails | fails <;> cases fails.symm.trans done
    · rcases fails with fails | fails <;> cases fails.symm.trans done
    · rw [tbls, live, tblMem, erase_cons_head]
      exact books
  | swapped answer sys sized live tblMem some tbls =>
    have free := keeps sized
    rw [sys] at free
    refine ⟨fun _ => ?_, nofun, nofun⟩
    rw [← tblMem] at live some
    exact books.swapped placed sys some (by rw [tblMem]; exact fresh _ _ answer) (free done) live tbls

theorem SameRules.trans (first : SameRules tbl other) (second : SameRules other third) : SameRules tbl third := by
  unfold SameRules at *
  rw [first, second]

theorem Placed.congr (placed : Placed owners rlt t part)
    (same : SameRules (after.tbls part.tbl) (t.tbls part.tbl)) : Placed owners rlt after part := by
  refine ⟨placed.1, fun tbl isRt sys => ?_⟩
  rw [same]
  exact placed.2 tbl isRt sys

theorem PartEffect.live (effect : PartEffect pass part t after outcome) (mem : block ∈ after.live) :
    block ∈ t.live ∨ ∃ base, pass.env.dmaSysTbl part.tbl pass.rlt = some (base, block) := by
  have grant {base physBase : Nat}
      (answer : pass.env.dmaSysTbl part.tbl pass.rlt = some (base, physBase))
      (live : after.live = physBase :: t.live) :
      block ∈ t.live ∨ ∃ base, pass.env.dmaSysTbl part.tbl pass.rlt = some (base, block) := by
    rw [live] at mem
    rcases mem_cons.mp mem with rfl | mem
    · exact .inr ⟨base, answer⟩
    · exact .inl mem
  cases effect with
  | none same => exact .inl (same.live ▸ mem)
  | stale same => exact .inl (same.live ▸ mem)
  | granted answer _ live => exact grant answer live
  | swapped answer _ _ live => exact grant answer live

def Distinct (env : CommitEnv Rule) : Prop :=
  ∀ ref other rlt type base place block, env.dmaSysTbl ref rlt = some (base, block) →
    env.dmaSysTbl other type = some (place, block) → ref = other ∧ rlt = type

theorem PartEffect.fresh (effect : PartEffect pass part t after outcome) (nodup : Distinct pass.env)
    (other : ref ≠ part.tbl ∨ rlt ≠ pass.rlt) (fresh : Fresh pass.env rlt t.live ref) :
    Fresh pass.env rlt after.live ref := by
  intro base physBase answer mem
  rcases effect.live mem with mem | ⟨place, granted⟩
  · exact fresh base physBase answer mem
  · obtain ⟨same, type⟩ := nodup _ _ _ _ _ _ _ answer granted
    exact other.elim (fun apart => apart same) (fun apart => apart type)

theorem translateParts_books (books : Books owners told t.tbls t.live)
    (placed : ∀ part ∈ parts, Placed owners pass.rlt t part) (once : (parts.map TblPart.tbl).Nodup)
    (fresh : ∀ part ∈ parts, Fresh pass.env pass.rlt t.live part.tbl) (nodup : Distinct pass.env)
    (keeps : KeepsParts pass parts t) (ran : translateParts pass parts t = (after, outcome)) :
    (outcome = .done → Books owners told after.tbls after.live) ∧ (outcome = .err → Books owners told after.tbls after.live) ∧
      (outcome = .hdrUpdateFail → Books owners told after.tbls (after.live.erase after.tblMem.physBase)) := by
  induction parts generalizing t with
  | nil =>
    cases ran
    exact ⟨fun _ => books, nofun, nofun⟩
  | cons part rest ih =>
    rw [map_cons, nodup_cons] at once
    have first := mem_cons_self (a := part) (l := rest)
    unfold translateParts at ran
    split at ran
    · rename_i next moved
      have effect := translatePart_effect moved
      have kept := (translatePart_books books (placed _ first) (fresh _ first) keeps.1 moved).1 rfl
      refine ih kept ?_ once.2 ?_ ?_ ran
      · intro other mem
        exact (placed _ (mem_cons_of_mem _ mem)).congr (effect.sameRules _)
      · intro other mem
        refine effect.fresh nodup (.inl ?_) (fresh _ (mem_cons_of_mem _ mem))
        rintro same
        exact once.1 (same ▸ mem_map_of_mem mem)
      · have rest := keeps.2
        rw [moved] at rest
        exact rest rfl
    · rename_i next failed unfinished moved
      cases ran
      exact translatePart_books books (placed _ first) (fresh _ first) keeps.1 moved

/-- What no part ends is kept by the pass over all of them. -/
theorem translateParts_keeps (holds : Translation Rule → Prop)
    (keeps : ∀ part ∈ parts, ∀ before after outcome, PartEffect pass part before after outcome →
      holds before → holds after)
    (start : holds t) (ran : translateParts pass parts t = (after, outcome)) : holds after := by
  induction parts generalizing t with
  | nil =>
    cases ran
    exact start
  | cons part rest ih =>
    rw [forall_mem_cons] at keeps
    unfold translateParts at ran
    split at ran
    · rename_i next moved
      exact ih keeps.2 (keeps.1 _ _ _ (translatePart_effect moved) start) ran
    · rename_i moved
      cases ran
      exact keeps.1 _ _ _ (translatePart_effect moved) start

theorem translateParts_sameRules (ran : translateParts pass parts t = (after, outcome))
    (ref : TblRef) : SameRules (after.tbls ref) (t.tbls ref) :=
  translateParts_keeps (fun moved => SameRules (moved.tbls ref) (t.tbls ref))
    (fun _ _ _ _ _ effect same => (effect.sameRules ref).trans same) (by rfl) ran

theorem translateParts_fresh (nodup : Distinct pass.env) (other : rlt ≠ pass.rlt)
    (fresh : Fresh pass.env rlt t.live ref) (ran : translateParts pass parts t = (after, outcome)) :
    Fresh pass.env rlt after.live ref :=
  translateParts_keeps (fun moved => Fresh pass.env rlt moved.live ref)
    (fun _ _ _ _ _ effect => effect.fresh nodup (.inr other)) fresh ran

theorem PartEffect.currMem (effect : PartEffect pass part t after outcome)
    (idle : rlt = pass.rlt → part.tbl = ref → part.inSys = false ∨ (t.tbls ref).sz rlt = 0) :
    (after.tbls ref).currMem rlt = (t.tbls ref).currMem rlt := by
  cases effect with
  | none same => rw [same.tbls]
  | stale same => rw [same.tbls]
  | granted _ tbls => rw [tbls]
  | swapped _ sys sized _ _ _ tbls =>
    rw [tbls]
    by_cases here : part.tbl = ref
    · subst here
      rw [update_self]
      apply update_of_ne
      rintro rfl
      rcases idle rfl rfl with lcl | empty
      · rw [sys] at lcl
        cases lcl
      · exact sized empty
    · rw [update_of_ne (Ne.symm here)]

theorem translateParts_currMem (idle : ∀ part ∈ parts, rlt = pass.rlt → part.tbl = ref →
      part.inSys = false ∨ (t.tbls ref).sz rlt = 0) (ran : translateParts pass parts t = (after, outcome)) :
    (after.tbls ref).currMem rlt = (t.tbls ref).currMem rlt := by
  refine (translateParts_keeps (fun moved => SameRules (moved.tbls ref) (t.tbls ref) ∧
    (moved.tbls ref).currMem rlt = (t.tbls ref).currMem rlt) ?_ ⟨by rfl, rfl⟩ ran).2
  intro part mem before after outcome effect ⟨rules, same⟩
  refine ⟨(effect.sameRules ref).trans rules, (effect.currMem ?_).trans same⟩
  rw [rules]
  exact idle part mem

theorem PartEffect.other (effect : PartEffect pass part t after outcome) (apart : part.tbl ≠ ref) :
    after.tbls ref = t.tbls ref := by
  cases effect with
  | none same => rw [same.tbls]
  | stale same => rw [same.tbls]
  | granted _ tbls => rw [tbls]
  | swapped _ _ _ _ _ _ tbls => rw [tbls, update_of_ne apart.symm]

theorem translateParts_other (absent : ref ∉ parts.map TblPart.tbl)
    (ran : translateParts pass parts t = (after, outcome)) : after.tbls ref = t.tbls ref :=
  translateParts_keeps (fun moved => moved.tbls ref = t.tbls ref)
    (fun _ mem _ _ _ effect => (effect.other fun same => absent (mem_map.mpr ⟨_, mem, same⟩)).trans) rfl ran

theorem PartEffect.prevMem (effect : PartEffect pass part t after outcome) (other : rlt ≠ pass.rlt)
    (ref : TblRef) : (after.tbls ref).prevMem rlt = (t.tbls ref).prevMem rlt := by
  by_cases here : part.tbl = ref
  · cases effect with
    | none same => rw [same.tbls]
    | stale same => rw [same.tbls]
    | granted _ tbls => rw [tbls]
    | swapped _ _ _ _ _ _ tbls =>
      subst here
      rw [tbls, update_self]
      unfold IpaTbl.swap
      split
      · exact update_of_ne other ..
      · rfl
  · rw [effect.other here]

theorem translateParts_prevMem (other : rlt ≠ pass.rlt)
    (ran : translateParts pass parts t = (after, outcome)) (ref : TblRef) :
    (after.tbls ref).prevMem rlt = (t.tbls ref).prevMem rlt :=
  translateParts_keeps (fun moved => (moved.tbls ref).prevMem rlt = (t.tbls ref).prevMem rlt)
    (fun _ _ _ _ _ effect => (effect.prevMem other ref).trans) rfl ran

theorem keepsParts_of_free
    (free : ∀ part ∈ parts, part.inSys = true ∧ ((t.tbls part.tbl).prevMem pass.rlt).physBase = 0)
    (once : (parts.map TblPart.tbl).Nodup) : KeepsParts pass parts t := by
  induction parts generalizing t with
  | nil => trivial
  | cons part rest ih =>
    rw [forall_mem_cons] at free
    rw [map_cons, nodup_cons] at once
    refine ⟨fun _ => ?_, fun _ => ih ?_ once.2⟩
    · rw [free.1.1]
      exact fun _ => .inr free.1.2
    · intro other mem
      have apart : part.tbl ≠ other.tbl := fun same =>
        once.1 (same ▸ mem_map_of_mem mem)
      have effect : PartEffect pass part t (t.translatePart pass part).1
          (t.translatePart pass part).2 := translatePart_effect rfl
      rw [effect.other apart]
      exact free.2 other mem

def start (pass : TblPass Rule) (t : Translation Rule) : Translation Rule :=
  { t with bodyI := pass.bdy.base, tblMem := pass.env.stack pass.rlt }

theorem translateTblToHwFmt_cases (ran : t.translateTblToHwFmt pass parts = some (after, fine)) :
    ∃ final outcome, translateParts pass parts (t.start pass) = (final, outcome) ∧
      (outcome = .done ∧ after = final ∧ fine = true ∨ outcome = .err ∧ after = final ∧ fine = false ∨
        outcome = .hdrUpdateFail ∧ after = final.freeDmaMem final.tblMem ∧ fine = false) := by
  unfold translateTblToHwFmt at ran
  dsimp only at ran
  split at ran
  · rename_i final moved
    cases ran
    exact ⟨_, _, moved, .inl ⟨rfl, rfl, rfl⟩⟩
  · rename_i final moved
    cases ran
    exact ⟨_, _, moved, .inr (.inl ⟨rfl, rfl, rfl⟩)⟩
  · rename_i final moved
    cases ran
    exact ⟨_, _, moved, .inr (.inr ⟨rfl, rfl, rfl⟩)⟩
  · cases ran

theorem translateTblToHwFmt_books (books : Books owners told t.tbls t.live)
    (placed : ∀ part ∈ parts, Placed owners pass.rlt t part) (once : (parts.map TblPart.tbl).Nodup)
    (fresh : ∀ part ∈ parts, Fresh pass.env pass.rlt t.live part.tbl) (nodup : Distinct pass.env)
    (keeps : KeepsParts pass parts (t.start pass)) (ran : t.translateTblToHwFmt pass parts = some (after, fine)) :
    Books owners told after.tbls after.live := by
  obtain ⟨final, outcome, moved, cases⟩ := translateTblToHwFmt_cases ran
  have started : Books owners told (t.start pass).tbls (t.start pass).live := books
  obtain ⟨done, fails, updated⟩ :=
    translateParts_books started placed once fresh nodup keeps moved
  rcases cases with ⟨goes, rfl, _⟩ | ⟨goes, rfl, _⟩ | ⟨goes, rfl, _⟩
  · exact done goes
  · exact fails goes
  · exact updated goes

theorem translateTblToHwFmt_sameRules (ran : t.translateTblToHwFmt pass parts = some (after, fine)) (ref : TblRef) :
    SameRules (after.tbls ref) (t.tbls ref) := by
  obtain ⟨final, outcome, moved, cases⟩ := translateTblToHwFmt_cases ran
  have same := translateParts_sameRules moved ref
  rcases cases with ⟨_, rfl, _⟩ | ⟨_, rfl, _⟩ | ⟨_, rfl, _⟩ <;> exact same

theorem translateTblToHwFmt_currMem (idle : ∀ part ∈ parts, rlt = pass.rlt → part.tbl = ref →
      part.inSys = false ∨ (t.tbls ref).sz rlt = 0) (ran : t.translateTblToHwFmt pass parts = some (after, fine)) :
    (after.tbls ref).currMem rlt = (t.tbls ref).currMem rlt := by
  obtain ⟨final, outcome, moved, cases⟩ := translateTblToHwFmt_cases ran
  have same := translateParts_currMem (t := t.start pass) idle moved
  rcases cases with ⟨_, rfl, _⟩ | ⟨_, rfl, _⟩ | ⟨_, rfl, _⟩ <;> exact same

theorem translateTblToHwFmt_other (absent : ref ∉ parts.map TblPart.tbl)
    (ran : t.translateTblToHwFmt pass parts = some (after, fine)) : after.tbls ref = t.tbls ref := by
  obtain ⟨final, outcome, moved, cases⟩ := translateTblToHwFmt_cases ran
  have same := translateParts_other (t := t.start pass) absent moved
  rcases cases with ⟨_, rfl, _⟩ | ⟨_, rfl, _⟩ | ⟨_, rfl, _⟩ <;> exact same

theorem translateTblToHwFmt_prevMem (other : rlt ≠ pass.rlt)
    (ran : t.translateTblToHwFmt pass parts = some (after, fine)) (ref : TblRef) :
    (after.tbls ref).prevMem rlt = (t.tbls ref).prevMem rlt := by
  obtain ⟨final, outcome, moved, cases⟩ := translateTblToHwFmt_cases ran
  have same := translateParts_prevMem (t := t.start pass) other moved ref
  rcases cases with ⟨_, rfl, _⟩ | ⟨_, rfl, _⟩ | ⟨_, rfl, _⟩ <;> exact same

theorem translateTblToHwFmt_fresh (nodup : Distinct pass.env) (other : rlt ≠ pass.rlt)
    (fresh : Fresh pass.env rlt t.live ref) (ran : t.translateTblToHwFmt pass parts = some (after, fine)) :
    Fresh pass.env rlt after.live ref := by
  obtain ⟨final, outcome, moved, cases⟩ := translateTblToHwFmt_cases ran
  have unused := translateParts_fresh nodup other (t := t.start pass) fresh moved
  rcases cases with ⟨_, rfl, _⟩ | ⟨_, rfl, _⟩ | ⟨_, rfl, _⟩
  · exact unused
  · exact unused
  · intro base physBase answer mem
    exact unused base physBase answer (mem_of_mem_erase mem)

end Translation

end KernelModules.IpaTables

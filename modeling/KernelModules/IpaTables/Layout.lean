import KernelModules.IpaTables.Writing

namespace KernelModules.IpaTables

open Data Function

/-! # Where the parts come to lie

A pass draws the parts that are not empty.  What is behind the last of them depends on where the others write.
-/

section

variable {Rule : Type} {env : CommitEnv Rule} {rlt : IpaRuleType} {tbl : IpaTbl Rule}

theorem u32_lt : u32 value < 4294967296 := Nat.mod_lt _ (by decide)

def partSz (length : Nat) : Nat :=
  if u32 length = 0 then 0 else u32 (u32 length + tblHdrWidth)

def Measured (env : CommitEnv Rule) (tbl : IpaTbl Rule) : Prop :=
  ∀ rlt, tbl.sz rlt = partSz (rulesBytes env rlt tbl.rules).length

theorem Measured.congr (measured : Measured env tbl) (rules : later.rules = tbl.rules)
    (sz : later.sz = tbl.sz) : Measured env later := by
  unfold Measured
  rw [rules, sz]
  exact measured

theorem Measured.typed (measured : Measured env tbl) (sized : tbl.sz rlt ≠ 0) :
    ∃ entry ∈ tbl.rules, entry.ruleType = rlt := by
  by_contra none
  apply sized
  rw [measured rlt, rulesBytes_eq_nil fun entry mem same => none ⟨entry, mem, same⟩]
  rfl

theorem genHwRule_spec (gen : genHwRule env entry = some (bytes, entry')) :
    entry'.hwLen = (entryBytes env entry').length ∧ entry'.ruleType = entry.ruleType := by
  have encoded := genHwRule_bytes gen
  unfold genHwRule at gen
  split at gen
  · cases gen
  · split at gen
    · cases gen
      refine ⟨?_, rfl⟩
      rw [encoded]
      rfl
    · split at gen
      · cases gen
      · rename_i same
        cases gen
        refine ⟨?_, rfl⟩
        rw [← encoded]
        exact not_not.mp same

theorem prepRules_measured (small : ∀ rlt, sz rlt < 4294967296)
    (walked : prepRules obj env entries prioI sz = (prep, sizes, true)) :
    ∀ rlt, sizes rlt = u32 (sz rlt + (rulesBytes env rlt prep).length) := by
  induction entries generalizing prioI sz prep with
  | nil =>
    cases walked
    intro rlt
    exact (Nat.mod_eq_of_lt (small rlt)).symm
  | cons entry rest ih =>
    unfold prepRules at walked
    split at walked
    · cases walked
    · rename_i prio next _
      dsimp only at walked
      split at walked
      · cases walked
      · rename_i bytes encoded found
        split at found
        · obtain ⟨hwLen, ruleType⟩ := genHwRule_spec found
          generalize recursion : prepRules obj env rest next _ = tail at walked
          obtain ⟨tail, tailSizes, done⟩ := tail
          cases walked
          have others := ih (fun rlt => ?_) recursion
          · intro rlt
            rw [others rlt]
            by_cases same : rlt = encoded.ruleType
            · subst same
              dsimp only
              rw [if_pos rfl, rulesBytes_cons rfl, List.length_append]
              unfold u32
              omega
            · rw [if_neg same, rulesBytes_cons_of_ne (Ne.symm same)]
          · split
            · exact u32_lt
            · exact small rlt
        · cases found

theorem prepForCmt_measured (prep : tbl.prepForCmt obj env = (later, true)) : Measured env later := by
  unfold IpaTbl.prepForCmt at prep
  dsimp only at prep
  split at prep
  · rename_i done
    generalize walk : prepRules obj env tbl.rules obj.ruleMaxPrio _ = result at prep done
    obtain ⟨rules, sizes, ended⟩ := result
    cases done
    cases prep
    intro rlt
    show (if sizes rlt = 0 then 0 else u32 (sizes rlt + tblHdrWidth)) = partSz (rulesBytes env rlt rules).length
    rw [prepRules_measured (fun _ => by decide) walk rlt, zero_add]
    rfl
  · cases prep

theorem prepTbls_measured (once : refs.Nodup) (prep : prepTbls cfg env refs tbls = (after, true)) :
    (∀ ref ∈ refs, Measured env (after ref)) ∧ ∀ ref ∉ refs, after ref = tbls ref := by
  induction refs generalizing tbls with
  | nil =>
    cases prep
    exact ⟨nofun, fun _ _ => rfl⟩
  | cons first rest ih =>
    rw [List.nodup_cons] at once
    unfold prepTbls at prep
    dsimp only at prep
    split at prep
    · rename_i done
      have here := prepForCmt_measured (Prod.ext rfl done : (tbls first).prepForCmt cfg.obj env = (_, true))
      obtain ⟨others, same⟩ := ih once.2 prep
      refine ⟨List.forall_mem_cons.mpr ⟨?_, others⟩, fun ref absent => ?_⟩
      · rw [same first once.1, update_self]
        exact here
      · rw [List.mem_cons, not_or] at absent
        rw [same ref absent.2, update_of_ne absent.1]
    · cases prep

theorem prepFltTbls_measured (once : pipes.Nodup) (prep : prepFltTbls cfg env pipes tbls = (after, true)) :
    (∀ pipe ∈ pipes, Measured env (after (.flt pipe))) ∧ ∀ pipe ∉ pipes, after (.flt pipe) = tbls (.flt pipe) := by
  induction pipes generalizing tbls with
  | nil =>
    cases prep
    exact ⟨nofun, fun _ _ => rfl⟩
  | cons first rest ih =>
    rw [List.nodup_cons] at once
    unfold prepFltTbls at prep
    dsimp only at prep
    split at prep
    · rename_i done
      have here := prepForCmt_measured (Prod.ext rfl done : (tbls (.flt first)).prepForCmt cfg.obj env = (_, true))
      obtain ⟨others, same⟩ := ih once.2 prep
      refine ⟨List.forall_mem_cons.mpr ⟨?_, others⟩, fun pipe absent => ?_⟩
      · rw [same first once.1, update_self]
        exact here.congr rfl rfl
      · rw [List.mem_cons, not_or] at absent
        have apart : TblRef.flt pipe ≠ .flt first := fun equal => absent.1 (TblRef.flt.inj equal)
        rw [same pipe absent.2, update_of_ne apart]
    · cases prep

theorem moveNhashTbls_measured (pipes : List Nat) (measured : Measured env (tbls ref)) :
    Measured env ((moveNhashTbls cfg tbls params pipes).1 ref) := by
  induction pipes generalizing tbls params with
  | nil => exact measured
  | cons pipe rest ih =>
    unfold moveNhashTbls
    split
    · exact measured
    apply ih
    by_cases here : ref = .flt pipe
    · subst here
      rw [update_self]
      exact measured.congr rfl rfl
    · rwa [update_of_ne here]

end

open Translation PartWritten List

variable {Rule : Type} {pass : TblPass Rule} {part : TblPart} {tbls later : TblRef → IpaTbl Rule}
  {bodyI place : Nat} {t middle after : Translation Rule}

structure Spot (Rule : Type) where
  pass : TblPass Rule
  part : TblPart
  idx : Nat
  addr : Nat
  start : Nat
  block : IpaMemBuffer
  bytes : List (BitVec 8)

namespace Spot

def slot (spot : Spot Rule) : Nat := slotAddr spot.pass spot.idx

def length (spot : Spot Rule) : Nat := spot.bytes.length + tblWidth

def Shows (spot : Spot Rule) (place : Nat) : Prop :=
  Within place spot.slot tblHdrWidth ∨ Within place spot.start spot.length

def Touches (spot : Spot Rule) (place : Nat) : Prop :=
  spot.Shows place ∨ spot.part.inSys = true ∧ Within place spot.block.base spot.block.size

def Stores (spot : Spot Rule) (store : TblStore) : Prop :=
  store = ⟨spot.part.tbl, spot.pass.hdr, spot.slot, tblHdrWidth⟩ ∨
    store.owner = spot.part.tbl ∧ store.target = spot.block ∧ spot.start ≤ store.address ∧
      store.address + store.length ≤ spot.start + spot.length ∧ tblWidth ≤ store.length

def Written (spot : Spot Rule) (t after : Translation Rule) : Prop :=
  PartWritten spot.pass spot.part spot.idx spot.addr spot.start spot.block spot.bytes t after

structure Shown (spot : Spot Rule) (t : Translation Rule) : Prop where
  header : ∃ hwaddr, createTblAddr spot.part.inSys spot.addr = some hwaddr ∧
    t.memory.load spot.slot tblHdrWidth = hwaddr % 256 ^ tblHdrWidth
  image : t.memory.readBytes spot.start spot.length = spot.bytes ++ terminator

def Clear (first later : Spot Rule) : Prop := ∀ place, first.Shows place → ¬later.Touches place

def SelfClear (spot : Spot Rule) : Prop :=
  ∀ place, Within place spot.slot tblHdrWidth → ¬Within place spot.start spot.length

variable {spot : Spot Rule}

theorem Written.frame (written : spot.Written t after) (outside : ¬spot.Touches place) :
    after.memory place = t.memory place := by
  unfold Touches Shows at outside
  push Not at outside
  exact PartWritten.frame written place outside.1.1 outside.1.2 outside.2

theorem Written.shown (written : spot.Written t after) (clear : spot.SelfClear) : spot.Shown after := by
  obtain ⟨hwaddr, found, header⟩ := header written
  exact ⟨⟨hwaddr, found, header clear⟩, image written⟩

theorem Shown.congr (shown : spot.Shown t)
    (same : ∀ place, spot.Shows place → after.memory place = t.memory place) : spot.Shown after := by
  obtain ⟨⟨hwaddr, found, hdr⟩, image⟩ := shown
  refine ⟨⟨hwaddr, found, ?_⟩, ?_⟩
  · rw [← hdr]
    apply ByteMemory.load_congr
    intro byte inside
    exact same _ (.inl ⟨Nat.le_add_right _ _, Nat.add_lt_add_left inside _⟩)
  · rw [← image]
    exact ByteMemory.readBytes_congr fun place lower upper => same place (.inr ⟨lower, upper⟩)

end Spot

inductive Drawn : List (Spot Rule) → Translation Rule → Translation Rule → Prop where
  | nil {t after : Translation Rule} (memory : after.memory = t.memory)
      (stores : after.stores = t.stores) : Drawn [] t after
  | cons {spot : Spot Rule} {spots : List (Spot Rule)} {t middle after : Translation Rule}
      (written : spot.Written t middle) (rest : Drawn spots middle after) : Drawn (spot :: spots) t after

namespace Drawn

variable {spot : Spot Rule} {spots : List (Spot Rule)}

theorem congr (drawn : Drawn spots t after) (mem : t'.memory = t.memory) (stores : t'.stores = t.stores)
    (memoryAfter : after'.memory = after.memory) (storesAfter : after'.stores = after.stores) :
    Drawn spots t' after' := by
  induction drawn generalizing t' with
  | nil same sameStores =>
    exact .nil (by rw [memoryAfter, same, mem]) (by rw [storesAfter, sameStores, stores])
  | cons written _ ih =>
    refine .cons ?_ (ih rfl rfl memoryAfter storesAfter)
    obtain ⟨hdr, header, frame, image, writtenStores⟩ := written
    refine ⟨hdr, header, fun place slot rules block => ?_, image, ?_⟩
    · rw [mem]
      exact frame place slot rules block
    · rw [stores]
      exact writtenStores

theorem append (first : Drawn spots t middle) (rest : Drawn more middle after) : Drawn (spots ++ more) t after := by
  induction first with
  | nil memory stores => exact rest.congr memory.symm stores.symm rfl rfl
  | cons written _ ih => exact .cons written (ih rest)

section

variable (drawn : Drawn spots t after)
include drawn

theorem frame (outside : ∀ spot ∈ spots, ¬spot.Touches place) : after.memory place = t.memory place := by
  induction drawn with
  | nil memory => rw [memory]
  | cons written _ ih =>
    rw [ih fun spot mem => outside spot (mem_cons_of_mem _ mem)]
    exact written.frame (outside _ mem_cons_self)

theorem shown (self : ∀ spot ∈ spots, spot.SelfClear) (clear : spots.Pairwise Spot.Clear) :
    ∀ spot ∈ spots, spot.Shown after := by
  induction drawn with
  | nil => exact forall_mem_nil _
  | cons written rest ih =>
    rw [pairwise_cons] at clear
    refine forall_mem_cons.mpr ⟨?_, ?_⟩
    · apply (written.shown (self _ mem_cons_self)).congr
      intro place shows
      exact rest.frame fun other mem => clear.1 other mem place shows
    · exact ih (fun spot mem => self spot (mem_cons_of_mem _ mem)) clear.2

theorem kept_stores (mem : store ∈ t.stores) : store ∈ after.stores := by
  induction drawn with
  | nil _ stores => rwa [stores]
  | cons written _ ih =>
    obtain ⟨others, stores, _⟩ := stores written
    apply ih
    rw [stores]
    exact mem_append_left _ mem

theorem mem_stores (mem : store ∈ after.stores) : store ∈ t.stores ∨ ∃ spot ∈ spots, spot.Stores store := by
  induction drawn with
  | nil _ stores =>
    rw [stores] at mem
    exact .inl mem
  | cons written _ ih =>
    obtain ⟨others, stores, lt, _⟩ := stores written
    rcases ih mem with mem | ⟨spot, there, stored⟩
    · rw [stores, mem_append, mem_cons] at mem
      rcases mem with mem | hdr | mem
      · exact .inl mem
      · exact .inr ⟨_, mem_cons_self, .inl hdr⟩
      · exact .inr ⟨_, mem_cons_self, .inr (lt store mem)⟩
    · exact .inr ⟨spot, mem_cons_of_mem _ there, stored⟩

theorem header_stored (mem : spot ∈ spots) : ⟨spot.part.tbl, spot.pass.hdr, spot.slot, tblHdrWidth⟩ ∈ after.stores := by
  induction drawn with
  | nil => cases mem
  | cons written rest ih =>
    rcases mem_cons.mp mem with rfl | mem
    · obtain ⟨others, stores, _⟩ := stores written
      apply rest.kept_stores
      rw [stores]
      exact mem_append_right _ mem_cons_self
    · exact ih mem

theorem start_stored (mem : spot ∈ spots) :
    ∃ store ∈ after.stores, store.owner = spot.part.tbl ∧ store.target = spot.block ∧
      store.address = spot.start ∧ tblWidth ≤ store.length := by
  induction drawn with
  | nil => cases mem
  | cons written rest ih =>
    rcases mem_cons.mp mem with rfl | mem
    · obtain ⟨others, stores, lt, store, there, addr⟩ := stores written
      obtain ⟨owner, target, _, _, long⟩ := lt store there
      refine ⟨store, rest.kept_stores ?_, owner, target, addr, long⟩
      rw [stores]
      exact mem_append_right _ (mem_cons_of_mem _ there)
    · exact ih mem

theorem hdr_present : ∀ spot ∈ spots, spot.pass.hdr.base ≠ 0 := by
  induction drawn with
  | nil => exact forall_mem_nil _
  | cons written _ ih => exact forall_mem_cons.mpr ⟨hdr written, ih⟩

end

end Drawn

def sysSpot (pass : TblPass Rule) (tbl : IpaTbl Rule) (part : TblPart) : Spot Rule :=
  let (base, physBase) := (pass.env.dmaSysTbl part.tbl pass.rlt).getD (0, 0)
  ⟨pass, part, part.sysIdx, physBase, base, sysBlock pass tbl base physBase, rulesBytes pass.env pass.rlt tbl.rules⟩

def lclSpot (pass : TblPass Rule) (tbl : IpaTbl Rule) (part : TblPart) (bodyI : Nat) : Spot Rule :=
  ⟨pass, part, part.lclIdx, bodyI - pass.bdy.base + pass.bodyOfst, bodyI, pass.bdy,
    rulesBytes pass.env pass.rlt tbl.rules⟩

def lclNext (bodyI length : Nat) : Nat := alignDown (bodyI + length + lcladdrAlignment) lcladdrAlignment

theorem lclNext_bounds {len : Nat} : bodyI + len ≤ lclNext bodyI len ∧ lclNext bodyI len < bodyI + len + tblWidth := by
  unfold lclNext alignDown lcladdrAlignment tblWidth
  omega

def layout (pass : TblPass Rule) (tbls : TblRef → IpaTbl Rule) : List TblPart → Nat → List (Spot Rule)
  | [], _ => []
  | part :: rest, bodyI =>
    let tbl := tbls part.tbl
    if tbl.sz pass.rlt = 0 then layout pass tbls rest bodyI
    else if part.inSys then sysSpot pass tbl part :: layout pass tbls rest bodyI
    else lclSpot pass tbl part bodyI ::
      layout pass tbls rest (lclNext bodyI (rulesBytes pass.env pass.rlt tbl.rules).length)

theorem layout_congr (same : ∀ ref, SameRules (later ref) (tbls ref)) :
    layout pass later parts bodyI = layout pass tbls parts bodyI := by
  induction parts generalizing bodyI with
  | nil => rfl
  | cons part rest ih =>
    unfold layout
    dsimp only
    rw [same part.tbl, ih, ih]
    rfl

theorem mem_layout (mem : spot ∈ layout pass tbls parts bodyI) :
    spot.part ∈ parts ∧ (tbls spot.part.tbl).sz pass.rlt ≠ 0 ∧
      (spot.part.inSys = true ∧ spot = sysSpot pass (tbls spot.part.tbl) spot.part ∨ spot.part.inSys = false ∧
          ∃ bodyI, spot = lclSpot pass (tbls spot.part.tbl) spot.part bodyI) := by
  induction parts generalizing bodyI with
  | nil => cases mem
  | cons part rest ih =>
    have deeper {bodyI : Nat} (mem : spot ∈ layout pass tbls rest bodyI) :=
      (ih mem).imp_left (mem_cons_of_mem part)
    unfold layout at mem
    dsimp only at mem
    split at mem
    · exact deeper mem
    · rename_i sized
      split at mem
      · rename_i sys
        rcases mem_cons.mp mem with rfl | mem
        · exact ⟨mem_cons_self, sized, .inl ⟨sys, rfl⟩⟩
        · exact deeper mem
      · rename_i lcl
        rcases mem_cons.mp mem with rfl | mem
        · exact ⟨mem_cons_self, sized, .inr ⟨Bool.eq_false_of_not_eq_true lcl, bodyI, rfl⟩⟩
        · exact deeper mem

theorem layout_tbls_sublist :
    ((layout pass tbls parts bodyI).map fun spot => spot.part.tbl).Sublist (parts.map TblPart.tbl) := by
  induction parts generalizing bodyI with
  | nil => exact .refl _
  | cons part rest ih =>
    unfold layout
    dsimp only
    split
    · exact ih.cons _
    · split
      · exact ih.cons_cons _
      · exact ih.cons_cons _

theorem exists_mem_layout (bodyI : Nat) (mem : part ∈ parts) (sized : (tbls part.tbl).sz pass.rlt ≠ 0) :
    ∃ spot ∈ layout pass tbls parts bodyI, spot.part = part := by
  induction parts generalizing bodyI with
  | nil => cases mem
  | cons first rest ih =>
    unfold layout
    dsimp only
    rcases mem_cons.mp mem with rfl | mem
    · rw [if_neg sized]
      split
      · exact ⟨_, mem_cons_self, rfl⟩
      · exact ⟨_, mem_cons_self, rfl⟩
    have deeper (bodyI : Nat) := ih bodyI mem
    split
    · exact deeper bodyI
    · split
      · obtain ⟨spot, there, same⟩ := deeper bodyI
        exact ⟨spot, mem_cons_of_mem _ there, same⟩
      · obtain ⟨spot, there, same⟩ := deeper _
        exact ⟨spot, mem_cons_of_mem _ there, same⟩

theorem layout_cons_empty (empty : (tbls part.tbl).sz pass.rlt = 0) :
    layout pass tbls (part :: rest) bodyI = layout pass tbls rest bodyI :=
  if_pos empty

theorem layout_cons_sys (sized : (tbls part.tbl).sz pass.rlt ≠ 0) (sys : part.inSys = true) :
    layout pass tbls (part :: rest) bodyI = sysSpot pass (tbls part.tbl) part :: layout pass tbls rest bodyI :=
  (if_neg sized).trans (if_pos sys)

theorem layout_cons_lcl (sized : (tbls part.tbl).sz pass.rlt ≠ 0) (lcl : part.inSys = false) :
    layout pass tbls (part :: rest) bodyI = lclSpot pass (tbls part.tbl) part bodyI :: layout pass tbls rest
        (lclNext bodyI (rulesBytes pass.env pass.rlt (tbls part.tbl).rules).length) :=
  (if_neg sized).trans (if_neg (Bool.not_eq_true _ ▸ lcl))

theorem lcl_behind_sys (sys : part.inSys = true) (lcl : spot.part.inSys = false)
    (mem : spot ∈ sysSpot pass tbl part :: spots) : spot ∈ spots := by
  rcases mem_cons.mp mem with rfl | mem
  · cases sys.symm.trans lcl
  · exact mem

theorem first_lcl (mem : spot ∈ layout pass tbls parts bodyI) (lcl : spot.part.inSys = false) :
    ∃ first ∈ layout pass tbls parts bodyI, first.part.inSys = false ∧ first.start = bodyI := by
  induction parts with
  | nil => cases mem
  | cons part rest ih =>
    by_cases sized : (tbls part.tbl).sz pass.rlt = 0
    · rw [layout_cons_empty sized] at mem ⊢
      exact ih mem
    cases memory : part.inSys with
    | true =>
      rw [layout_cons_sys sized memory] at mem ⊢
      obtain ⟨first, there, found⟩ := ih (lcl_behind_sys memory lcl mem)
      exact ⟨first, mem_cons_of_mem _ there, found⟩
    | false =>
      rw [layout_cons_lcl sized memory]
      exact ⟨_, mem_cons_self, memory, rfl⟩

theorem lcl_followed (once : (parts.map TblPart.tbl).Nodup) (mem : spot ∈ layout pass tbls parts bodyI)
    (lcl : spot.part.inSys = false) (there : other ∈ layout pass tbls parts bodyI)
    (otherLcl : other.part.inSys = false) (different : spot ≠ other) :
    ∃ first ∈ layout pass tbls parts bodyI, ∃ next ∈ layout pass tbls parts bodyI,
      first.part.inSys = false ∧ next.part.inSys = false ∧ first.part.tbl ≠ next.part.tbl ∧
        next.start = lclNext first.start first.bytes.length := by
  induction parts generalizing bodyI with
  | nil => cases mem
  | cons part rest ih =>
    rw [map_cons, nodup_cons] at once
    by_cases sized : (tbls part.tbl).sz pass.rlt = 0
    · rw [layout_cons_empty sized] at mem there ⊢
      exact ih once.2 mem there
    cases memory : part.inSys with
    | true =>
      rw [layout_cons_sys sized memory] at mem there ⊢
      obtain ⟨first, firstMember, next, nextMember, follows⟩ :=
        ih once.2 (lcl_behind_sys memory lcl mem) (lcl_behind_sys memory otherLcl there)
      exact ⟨first, mem_cons_of_mem _ firstMember, next, mem_cons_of_mem _ nextMember, follows⟩
    | false =>
      rw [layout_cons_lcl sized memory] at mem there ⊢
      generalize ends : lclNext bodyI _ = bodyEnd at mem there ⊢
      have follow {spot : Spot Rule} (lcl : spot.part.inSys = false)
          (mem : spot ∈ layout pass tbls rest bodyEnd) :
          ∃ next ∈ layout pass tbls rest bodyEnd, next.part.inSys = false ∧
            part.tbl ≠ next.part.tbl ∧ next.start = bodyEnd := by
        obtain ⟨next, nextMember, nextLcl, begins⟩ := first_lcl mem lcl
        refine ⟨next, nextMember, nextLcl, fun same => once.1 ?_, begins⟩
        rw [same]
        exact mem_map_of_mem (mem_layout nextMember).1
      rcases mem_cons.mp mem with rfl | mem
      · rcases mem_cons.mp there with rfl | there
        · exact absurd rfl different
        · obtain ⟨next, nextMember, nextLcl, apart, begins⟩ := follow otherLcl there
          exact ⟨_, mem_cons_self, next, mem_cons_of_mem _ nextMember, memory,
            nextLcl, apart, begins.trans ends.symm⟩
      rcases mem_cons.mp there with rfl | there
      · obtain ⟨next, nextMember, nextLcl, apart, begins⟩ := follow lcl mem
        exact ⟨_, mem_cons_self, next, mem_cons_of_mem _ nextMember, memory, nextLcl, apart, begins.trans ends.symm⟩
      · obtain ⟨first, firstMember, next, nextMember, follows⟩ := ih once.2 mem there
        exact ⟨first, mem_cons_of_mem _ firstMember, next, mem_cons_of_mem _ nextMember, follows⟩

theorem lclNext_ne_zero {len : Nat} (here : bodyI ≠ 0) : lclNext bodyI len ≠ 0 := by
  have bounds : bodyI + len ≤ lclNext bodyI len ∧ _ := lclNext_bounds
  omega

structure Drawable (pass : TblPass Rule) (tbls : TblRef → IpaTbl Rule) (bodyI : Nat)
    (part : TblPart) : Prop where
  typed : (tbls part.tbl).sz pass.rlt ≠ 0 → ∃ entry ∈ (tbls part.tbl).rules, entry.ruleType = pass.rlt
  sys : ∀ base physBase, pass.env.dmaSysTbl part.tbl pass.rlt = some (base, physBase) → base ≠ 0
  lcl : (tbls part.tbl).sz pass.rlt ≠ 0 → part.inSys = false → bodyI ≠ 0

theorem Drawable.congr (drawable : Drawable pass tbls bodyI part)
    (same : ∀ ref, SameRules (later ref) (tbls ref)) (here : bodyI ≠ 0 → bodyI' ≠ 0) :
    Drawable pass later bodyI' part := by
  have sz : (later part.tbl).sz = (tbls part.tbl).sz := by rw [same part.tbl]
  have rules : (later part.tbl).rules = (tbls part.tbl).rules := by rw [same part.tbl]
  refine ⟨fun sized => ?_, drawable.sys, fun sized local' => ?_⟩
  · rw [rules]
    rw [sz] at sized
    exact drawable.typed sized
  · rw [sz] at sized
    exact here (drawable.lcl sized local')

def SysDrawn (t : Translation Rule) (spot : Spot Rule) : Prop :=
  spot.part.inSys = true → (t.tbls spot.part.tbl).currMem spot.pass.rlt = spot.block ∧ ∃ base physBase,
      spot.pass.env.dmaSysTbl spot.part.tbl spot.pass.rlt = some (base, physBase)

theorem translateParts_drawn (drawable : ∀ part ∈ parts, Drawable pass t.tbls t.bodyI part)
    (once : (parts.map TblPart.tbl).Nodup) (ran : translateParts pass parts t = (after, .done)) :
    Drawn (layout pass t.tbls parts t.bodyI) t after ∧
      ∀ spot ∈ layout pass t.tbls parts t.bodyI, SysDrawn after spot := by
  induction parts generalizing t with
  | nil =>
    cases ran
    exact ⟨.nil rfl rfl, forall_mem_nil _⟩
  | cons part rest ih =>
    rw [map_cons, nodup_cons] at once
    unfold translateParts at ran
    split at ran
    · rename_i next moved
      have same := (translatePart_effect moved).sameRules
      have here := drawable part mem_cons_self
      have others (present : t.bodyI ≠ 0 → next.bodyI ≠ 0) :=
        ih (fun other mem => (drawable other (mem_cons_of_mem _ mem)).congr same present) once.2 ran
      have sameLayout : layout pass next.tbls rest next.bodyI = layout pass t.tbls rest next.bodyI :=
        layout_congr same
      rw [sameLayout] at others
      unfold translatePart at moved
      split at moved
      · rename_i empty
        cases moved
        rw [layout_cons_empty empty]
        exact others id
      · rename_i sized
        split at moved
        · rename_i sys
          obtain ⟨base, physBase, answer, bodyI, currMem, written⟩ :=
            translateSysPart_written sys (here.typed sized) here.sys moved
          rw [layout_cons_sys sized sys]
          rw [bodyI] at others
          obtain ⟨drawn, blocks⟩ := others id
          have spot : sysSpot pass (t.tbls part.tbl) part = ⟨pass, part, part.sysIdx, physBase, base,
              sysBlock pass (t.tbls part.tbl) base physBase,
              rulesBytes pass.env pass.rlt (t.tbls part.tbl).rules⟩ := by
            unfold sysSpot
            rw [answer]
            rfl
          rw [spot]
          refine ⟨.cons written drawn, forall_mem_cons.mpr ⟨fun _ => ⟨?_, base, physBase, answer⟩, blocks⟩⟩
          rw [← currMem]
          apply translateParts_currMem (fun other mem _ here => ?_) ran
          exact (once.1 (here ▸ mem_map_of_mem mem)).elim
        · rename_i lcl
          have lcl := Bool.eq_false_of_not_eq_true lcl
          obtain ⟨bodyI, written⟩ :=
            translateLclPart_written lcl (here.typed sized) (here.lcl sized lcl) moved
          rw [layout_cons_lcl sized lcl]
          rw [bodyI] at others
          obtain ⟨drawn, blocks⟩ := others lclNext_ne_zero
          refine ⟨.cons written drawn, forall_mem_cons.mpr ⟨fun sys => ?_, blocks⟩⟩
          cases lcl.symm.trans sys
    · rename_i unfinished _
      cases ran
      exact (unfinished rfl).elim

end KernelModules.IpaTables

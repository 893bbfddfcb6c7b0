import KernelModules.IpaTables.CommittedImage

namespace KernelModules.IpaTables

open Function List TblSystem

/-! # Spilling filter tables

A table moved out of local memory is taken off the count and the size of those that stay, even an empty one, which
was in neither.
-/

variable {Rule : Type} (cfg : TblConfig) (tbls : TblRef → IpaTbl Rule)

def nhashSz (pipe : Nat) : Nat := (tbls (.flt pipe)).sz .nonHashable

def staysLcl (pipe : Nat) : Bool :=
  let tbl := tbls (.flt pipe)
  !tbl.inSys .nonHashable && !tbl.forceSys .nonHashable && nhashSz tbls pipe != 0

/-- What a table adds to the total, and moving it takes off again. -/
def bodySize (pipe : Nat) : Int := nhashSz tbls pipe - tblHdrWidth

def lclCount (pipes : List Nat) : Int := (pipes.map fun pipe => if staysLcl tbls pipe then 1 else 0).sum

def lclSize (pipes : List Nat) : Int :=
  (pipes.map fun pipe => if staysLcl tbls pipe then bodySize tbls pipe else 0).sum

abbrev FitsLcl (count size : Nat) : Prop := getAlignedLclBdySize count size ≤ cfg.appsFltNhashSize

structure Accounted (tbls : TblRef → IpaTbl Rule) (params : AllocImgsParams) : Prop where
  count : (params.numLclNhashTbls : Int) = lclCount tbls cfg.fltPipes
  size : (params.totalSzLclNhashTbls : Int) = lclSize tbls cfg.fltPipes
  fits : FitsLcl cfg params.numLclNhashTbls params.totalSzLclNhashTbls

def AllocImgsParams.without (params : AllocImgsParams) (sz : Nat) : AllocImgsParams :=
  { params with
    numLclNhashTbls := params.numLclNhashTbls - 1
    totalSzLclNhashTbls := u32 (params.totalSzLclNhashTbls + 4294967296 - sz + tblHdrWidth) }

def movedOut (tbls : TblRef → IpaTbl Rule) (pipe : Nat) : TblRef → IpaTbl Rule :=
  update tbls (.flt pipe) { tbls (.flt pipe) with
    forceSys := update (tbls (.flt pipe)).forceSys .nonHashable true }

/-- No subtraction of the loop wraps. -/
def Unwrapped : (TblRef → IpaTbl Rule) → List Nat → AllocImgsParams → Prop
  | _, [], _ => True
  | tbls, pipe :: rest, params =>
    FitsLcl cfg params.numLclNhashTbls params.totalSzLclNhashTbls ∨ params.numLclNhashTbls = 0 ∨
      ((params.without (nhashSz tbls pipe)).totalSzLclNhashTbls : Int) =
          params.totalSzLclNhashTbls - bodySize tbls pipe ∧
        Unwrapped (movedOut tbls pipe) rest (params.without (nhashSz tbls pipe))

def FitsInTurn : List Nat → Int → Int → Prop
  | [], count, size => (0 ≤ size ∧ size < 4294967296) ∧ FitsLcl cfg count.toNat size.toNat
  | pipe :: rest, count, size => (0 ≤ size ∧ size < 4294967296) ∧ (FitsLcl cfg count.toNat size.toNat ∨
      nhashSz tbls pipe ≠ 0 ∧
        FitsInTurn rest (count - 1) (size - bodySize tbls pipe))

/-- A listed table is in local memory, and none is moved out yet. -/
structure Listed (pipes : List Nat) : Prop where
  distinct : pipes.Nodup
  known : pipes ⊆ cfg.fltPipes
  lcl : ∀ pipe ∈ pipes, (tbls (.flt pipe)).inSys .nonHashable = false
  unforced : ∀ pipe ∈ pipes, (tbls (.flt pipe)).forceSys .nonHashable = false
  word : ∀ pipe ∈ pipes, nhashSz tbls pipe < 4294967296

section Spilling

variable {cfg tbls} {params : AllocImgsParams} {pipe : Nat} {pipes rest : List Nat} {after : TblRef → IpaTbl Rule}

theorem sum_map_change {before after : Nat → Int} (distinct : pipes.Nodup) (mem : pipe ∈ pipes)
    (others : ∀ other, other ≠ pipe → after other = before other) :
    (pipes.map after).sum = (pipes.map before).sum - before pipe + after pipe := by
  induction pipes with
  | nil => cases mem
  | cons first rest ih =>
    obtain ⟨fresh, distinctRest⟩ := nodup_cons.mp distinct
    simp only [map_cons, sum_cons]
    cases mem_cons.mp mem with
    | inl same =>
      subst same
      rw [map_congr_left fun other listed => others other fun equal => fresh (equal ▸ listed)]
      omega
    | inr later =>
      rw [ih distinctRest later, others first fun equal => fresh (equal ▸ later)]
      omega

theorem movedOut_sz : nhashSz (movedOut tbls pipe) other = nhashSz tbls other := by
  by_cases same : other = pipe <;> simp [nhashSz, movedOut, same]

theorem staysLcl_forced : staysLcl (movedOut tbls pipe) pipe = false := by
  simp [staysLcl, movedOut]

theorem staysLcl_other (apart : other ≠ pipe) : staysLcl (movedOut tbls pipe) other = staysLcl tbls other := by
  simp [staysLcl, nhashSz, movedOut, apart]

theorem Listed.stays (listed : Listed cfg tbls (pipe :: rest)) : staysLcl tbls pipe = (nhashSz tbls pipe != 0) := by
  simp [staysLcl, listed.lcl pipe mem_cons_self, listed.unforced pipe mem_cons_self]

theorem Listed.forced (listed : Listed cfg tbls (pipe :: rest)) : Listed cfg (movedOut tbls pipe) rest := by
  obtain ⟨distinct, known, lcl, unforced, word⟩ := listed
  obtain ⟨fresh, distinctRest⟩ := nodup_cons.mp distinct
  have other (later) (among : later ∈ rest) : movedOut tbls pipe (.flt later) = tbls (.flt later) := by
    have apart : later ≠ pipe := fun equal => fresh (equal ▸ among)
    simp [movedOut, apart]
  refine ⟨distinctRest, fun later among => known (mem_cons_of_mem _ among), ?_, ?_, ?_⟩ <;> intro later among
  · rw [other later among]
    exact lcl later (mem_cons_of_mem _ among)
  · rw [other later among]
    exact unforced later (mem_cons_of_mem _ among)
  · rw [movedOut_sz]
    exact word later (mem_cons_of_mem _ among)

theorem fltPipes_nodup : cfg.fltPipes.Nodup := cfg.fltPipes_ordered.imp ne_of_lt

theorem Listed.forced_sums (listed : Listed cfg tbls (pipe :: rest)) : lclCount (movedOut tbls pipe) cfg.fltPipes =
        lclCount tbls cfg.fltPipes - (if nhashSz tbls pipe = 0 then 0 else 1) ∧
      lclSize (movedOut tbls pipe) cfg.fltPipes = lclSize tbls cfg.fltPipes -
        (if nhashSz tbls pipe = 0 then 0 else bodySize tbls pipe) := by
  have mem := listed.known mem_cons_self
  have stays := listed.stays
  constructor
  · rw [lclCount, sum_map_change fltPipes_nodup mem fun other apart => by rw [staysLcl_other apart]]
    by_cases empty : nhashSz tbls pipe = 0 <;> simp [lclCount, staysLcl_forced, stays, empty]
  · have same (other : Nat) : bodySize (movedOut tbls pipe) other = bodySize tbls other := by
      unfold bodySize
      rw [movedOut_sz]
    rw [lclSize, sum_map_change fltPipes_nodup mem fun other apart => by rw [staysLcl_other apart, same]]
    by_cases empty : nhashSz tbls pipe = 0 <;> simp [lclSize, staysLcl_forced, stays, empty]

theorem fitsInTurn_moved (other : Nat) (pipes : List Nat) (count size : Int) :
    FitsInTurn cfg (movedOut tbls other) pipes count size ↔ FitsInTurn cfg tbls pipes count size := by
  induction pipes generalizing count size with
  | nil => rfl
  | cons pipe rest ih => simp only [FitsInTurn, movedOut_sz, bodySize, ih]

theorem moveNhashTbls_cons : moveNhashTbls cfg tbls params (pipe :: rest) =
    if FitsLcl cfg params.numLclNhashTbls params.totalSzLclNhashTbls ∨ params.numLclNhashTbls = 0 then (tbls, params)
    else moveNhashTbls cfg (movedOut tbls pipe) (params.without (nhashSz tbls pipe)) rest := rfl

theorem fits_none : FitsLcl cfg 0 0 := Nat.zero_le _

theorem lclSize_none (tbls : TblRef → IpaTbl Rule) (pipes : List Nat) : 0 ≤ lclCount tbls pipes ∧
    (lclCount tbls pipes = 0 → lclSize tbls pipes = 0) := by
  induction pipes with
  | nil => exact ⟨le_refl _, fun _ => rfl⟩
  | cons pipe rest ih =>
    simp only [lclCount, lclSize, map_cons, sum_cons] at ih ⊢
    cases staysLcl tbls pipe <;> simp <;> omega

theorem accounted_exact (listed : Listed cfg tbls pipes)
    (most : (params.numLclNhashTbls : Int) ≤ lclCount tbls cfg.fltPipes)
    (accounted : Accounted cfg (moveNhashTbls cfg tbls params pipes).1 (moveNhashTbls cfg tbls params pipes).2)
    (unwrapped : Unwrapped cfg tbls pipes params) : (params.numLclNhashTbls : Int) = lclCount tbls cfg.fltPipes ∧
      (params.totalSzLclNhashTbls : Int) = lclSize tbls cfg.fltPipes := by
  induction pipes generalizing tbls params with
  | nil => exact ⟨accounted.count, accounted.size⟩
  | cons pipe rest ih =>
    rw [moveNhashTbls_cons] at accounted
    by_cases ends : FitsLcl cfg params.numLclNhashTbls params.totalSzLclNhashTbls ∨ params.numLclNhashTbls = 0
    · rw [if_pos ends] at accounted
      exact ⟨accounted.count, accounted.size⟩
    · rw [if_neg ends] at accounted
      obtain ⟨exact, later⟩ := (or_assoc.mpr unwrapped).resolve_left ends
      obtain ⟨count, size⟩ := listed.forced_sums
      have taken : (params.without (nhashSz tbls pipe)).numLclNhashTbls = params.numLclNhashTbls - 1 := rfl
      have exacts := ih listed.forced (by split at count <;> omega) accounted later
      split at count <;> split at size <;> omega

theorem without_total (params : AllocImgsParams) (word : nhashSz tbls pipe < 4294967296)
    (range : 0 ≤ params.totalSzLclNhashTbls - bodySize tbls pipe ∧
      params.totalSzLclNhashTbls - bodySize tbls pipe < 4294967296) :
    ((params.without (nhashSz tbls pipe)).totalSzLclNhashTbls : Int) =
      params.totalSzLclNhashTbls - bodySize tbls pipe := by
  simp only [AllocImgsParams.without, u32, bodySize, tblHdrWidth] at range ⊢
  omega

theorem accounted_iff (listed : Listed cfg tbls pipes) (word : params.totalSzLclNhashTbls < 4294967296)
    (count : (params.numLclNhashTbls : Int) = lclCount tbls cfg.fltPipes)
    (size : (params.totalSzLclNhashTbls : Int) = lclSize tbls cfg.fltPipes) :
    (Accounted cfg (moveNhashTbls cfg tbls params pipes).1 (moveNhashTbls cfg tbls params pipes).2 ∧
      Unwrapped cfg tbls pipes params) ↔
      FitsInTurn cfg tbls pipes (lclCount tbls cfg.fltPipes) (lclSize tbls cfg.fltPipes) := by
  induction pipes generalizing tbls params with
  | nil =>
    simp only [FitsInTurn, ← count, ← size, Int.toNat_natCast, Unwrapped]
    exact ⟨fun both => ⟨by omega, both.1.fits⟩, fun fits => ⟨⟨count, size, fits.2⟩, trivial⟩⟩
  | cons pipe rest ih =>
    have range : 0 ≤ lclSize tbls cfg.fltPipes ∧ lclSize tbls cfg.fltPipes < 4294967296 := by omega
    obtain ⟨movedCount, movedSize⟩ := listed.forced_sums
    have taken : (params.without (nhashSz tbls pipe)).numLclNhashTbls = params.numLclNhashTbls - 1 := rfl
    have small : (params.without (nhashSz tbls pipe)).totalSzLclNhashTbls < 4294967296 :=
      Nat.mod_lt _ (by decide)
    rw [moveNhashTbls_cons]
    by_cases ends : FitsLcl cfg params.numLclNhashTbls params.totalSzLclNhashTbls ∨ params.numLclNhashTbls = 0
    · have fits : FitsLcl cfg params.numLclNhashTbls params.totalSzLclNhashTbls := by
        refine ends.elim id fun none => ?_
        have empty := (lclSize_none tbls cfg.fltPipes).2 (by omega)
        have nothing : params.totalSzLclNhashTbls = 0 := by omega
        rw [none, nothing]
        exact fits_none
      rw [if_pos ends]
      refine iff_of_true ⟨⟨count, size, fits⟩, .inl fits⟩ ⟨range, .inl ?_⟩
      rwa [← count, ← size]
    · obtain ⟨misfit, some⟩ := not_or.mp ends
      have turn : FitsInTurn cfg tbls (pipe :: rest) (lclCount tbls cfg.fltPipes) (lclSize tbls cfg.fltPipes) ↔
          nhashSz tbls pipe ≠ 0 ∧ FitsInTurn cfg tbls rest (lclCount tbls cfg.fltPipes - 1)
            (lclSize tbls cfg.fltPipes - bodySize tbls pipe) := by
        rw [FitsInTurn, ← count, ← size, Int.toNat_natCast, Int.toNat_natCast, or_iff_right misfit]
        exact and_iff_right (by omega)
      rw [if_neg ends, turn, Unwrapped, or_iff_right misfit, or_iff_right some]
      constructor
      · rintro ⟨accounted, exact, later⟩
        obtain ⟨exactCount, exactSize⟩ :=
          accounted_exact listed.forced (by split at movedCount <;> omega) accounted later
        have filled : nhashSz tbls pipe ≠ 0 := by
          intro empty
          omega
        have next := (ih listed.forced small exactCount exactSize).mp ⟨accounted, later⟩
        rw [movedCount, movedSize, if_neg filled, if_neg filled, fitsInTurn_moved] at next
        exact ⟨filled, next⟩
      · rintro ⟨filled, next⟩
        rw [if_neg filled] at movedCount movedSize
        have exact := without_total params (listed.word pipe mem_cons_self) (by
          rw [size]
          cases rest <;> exact next.1)
        rw [← fitsInTurn_moved pipe, ← movedCount, ← movedSize] at next
        obtain ⟨accounted, later⟩ := (ih listed.forced small (by omega) (by omega)).mpr next
        exact ⟨accounted, exact, later⟩

theorem addLcl_nhash (tbls : TblRef → IpaTbl Rule) (pipe : Nat) (params : AllocImgsParams) : let after := params.addLcl (tbls (.flt pipe))
    let counts := (tbls (.flt pipe)).inSys .nonHashable = false ∧ nhashSz tbls pipe ≠ 0
    after.numLclNhashTbls = (if counts then u32 (params.numLclNhashTbls + 1) else params.numLclNhashTbls) ∧
      after.totalSzLclNhashTbls = if counts
        then u32 (params.totalSzLclNhashTbls + nhashSz tbls pipe + 4294967296 - tblHdrWidth)
        else params.totalSzLclNhashTbls := by
  unfold AllocImgsParams.addLcl nhashSz
  dsimp only
  split_ifs <;> exact ⟨rfl, rfl⟩

theorem addLcl_sums (params : AllocImgsParams)
    (unforced : ∀ pipe ∈ pipes, (tbls (.flt pipe)).forceSys .nonHashable = false)
    (few : params.numLclNhashTbls + pipes.length < 4294967296) (word : params.totalSzLclNhashTbls < 4294967296) :
    let after := (pipes.map fun pipe => tbls (.flt pipe)).foldl AllocImgsParams.addLcl params
    (after.numLclNhashTbls : Int) = params.numLclNhashTbls + lclCount tbls pipes ∧
      (after.totalSzLclNhashTbls : Int) = (params.totalSzLclNhashTbls + lclSize tbls pipes) % 4294967296 := by
  induction pipes generalizing params with
  | nil =>
    simp [lclCount, lclSize]
    omega
  | cons pipe rest ih =>
    obtain ⟨count, size⟩ := addLcl_nhash tbls pipe params
    have stays : staysLcl tbls pipe = true ↔ (tbls (.flt pipe)).inSys .nonHashable = false ∧ nhashSz tbls pipe ≠ 0 := by
      simp [staysLcl, unforced pipe mem_cons_self]
    rw [length_cons] at few
    have later := ih (params.addLcl (tbls (.flt pipe)))
      (fun other among => unforced other (mem_cons_of_mem _ among)) (by
        simp only [u32] at count; split_ifs at count <;> omega) (by
        simp only [u32] at size; split_ifs at size <;> omega)
    simp only [map_cons, foldl_cons, lclCount, lclSize, sum_cons, stays, bodySize, u32, tblHdrWidth]
      at count size later ⊢
    split_ifs at count size ⊢ <;> omega

/-- What is allocated for is what stays, and fits, exactly when the tables in front of the first empty one make
enough room. -/
theorem spill_accounted_iff (bounded : Bounded cfg) (listed : Listed cfg tbls cfg.fltTblNhashLclList)
    (unforced : ∀ pipe ∈ cfg.fltPipes, (tbls (.flt pipe)).forceSys .nonHashable = false) :
    let params := lclParams cfg.fltPipes.length (cfg.fltPipes.map fun pipe => tbls (.flt pipe))
    let after := moveNhashTbls cfg tbls params cfg.fltTblNhashLclList
    (Accounted cfg after.1 after.2 ∧ Unwrapped cfg tbls cfg.fltTblNhashLclList params) ↔
      FitsInTurn cfg tbls cfg.fltTblNhashLclList (lclCount tbls cfg.fltPipes) (lclSize tbls cfg.fltPipes) := by
  have few := fltPipes_length bounded
  intro params after
  obtain ⟨count, size⟩ : (params.numLclNhashTbls : Int) = _ ∧ (params.totalSzLclNhashTbls : Int) = _ :=
    addLcl_sums (.init _) unforced (by simp [AllocImgsParams.init]; omega) (by simp [AllocImgsParams.init])
  simp only [AllocImgsParams.init, Nat.cast_zero, zero_add] at count size
  by_cases exact : (params.totalSzLclNhashTbls : Int) = lclSize tbls cfg.fltPipes
  · exact accounted_iff listed (by omega) count exact
  · refine iff_of_false (fun both => exact (accounted_exact listed count.le both.1 both.2).2) fun turn => ?_
    have range : 0 ≤ lclSize tbls cfg.fltPipes ∧ lclSize tbls cfg.fltPipes < 4294967296 := by
      cases listed : cfg.fltTblNhashLclList <;> rw [listed] at turn <;> exact turn.1
    omega

end Spilling

def emptyFirst : TblRef → IpaTbl Unit
  | .flt 0 => { emptyTbl 0 (· = .hashable) with sz := fun rlt => if rlt = .nonHashable then 1200 else 0 }
  | _ => emptyTbl 0 (· = .hashable)

def emptyFirstConfig : TblConfig := { lclFltConfig with fltTblNhashLclList := [1, 0] }

theorem emptyFirst_listed : Listed emptyFirstConfig emptyFirst [1, 0] := by
  constructor <;> decide

theorem emptyFirst_unforced :
    ∀ pipe ∈ emptyFirstConfig.fltPipes, (emptyFirst (.flt pipe)).forceSys .nonHashable = false := by decide

theorem spill_accounted_iff_empty :
    let params := lclParams 2 (emptyFirstConfig.fltPipes.map fun pipe => emptyFirst (.flt pipe))
    let after := moveNhashTbls emptyFirstConfig emptyFirst params [1, 0]
    (Accounted emptyFirstConfig after.1 after.2 ∧ Unwrapped emptyFirstConfig emptyFirst [1, 0] params) ↔
      FitsInTurn emptyFirstConfig emptyFirst [1, 0] (lclCount emptyFirst [0, 1]) (lclSize emptyFirst [0, 1]) :=
  spill_accounted_iff ⟨by decide, by decide, by decide⟩ emptyFirst_listed emptyFirst_unforced

/-- The empty table is taken off the count in the place of the one that does not fit. -/
theorem empty_table_discounted : ¬ ∀ (cfg : TblConfig) (tbls : TblRef → IpaTbl Unit), Bounded cfg →
    Listed cfg tbls cfg.fltTblNhashLclList →
      (∀ pipe ∈ cfg.fltPipes, (tbls (.flt pipe)).forceSys .nonHashable = false) →
        let params := lclParams cfg.fltPipes.length (cfg.fltPipes.map fun pipe => tbls (.flt pipe))
        let after := moveNhashTbls cfg tbls params cfg.fltTblNhashLclList
        Accounted cfg after.1 after.2 ∧ Unwrapped cfg tbls cfg.fltTblNhashLclList params := by
  intro always
  have count := (always emptyFirstConfig emptyFirst ⟨by decide, by decide, by decide⟩ emptyFirst_listed
    emptyFirst_unforced).1.count
  revert count
  decide

end KernelModules.IpaTables

import KernelModules.CamSync.Joining

namespace KernelModules.CamSync

open Data List Function SyncTable SyncDevice Option

/-! # What a merge can do

A merge that returns was refused before it took a row, was given up after that, or has made the group.
-/

namespace SyncTable

variable {tbl : SyncTable} {idx : Nat}

theorem foldl_setBit {critical : Nat → SyncTable → SyncTable} {rows : List Nat}
    (commutes : ∀ idx tbl, critical idx (tbl.setBit reserved) = (critical idx tbl).setBit reserved) :
    rows.foldl (fun tbl idx => critical idx tbl) (tbl.setBit reserved) =
      (rows.foldl (fun tbl idx => critical idx tbl) tbl).setBit reserved := by
  induction rows generalizing tbl with
  | nil => rfl
  | cons idx rest ih =>
    rw [foldl_cons, foldl_cons, commutes, ih]

theorem unlinkParent_setBit (child : Nat) : (tbl.setBit reserved).unlinkParent idx child =
      (tbl.unlinkParent idx child).setBit reserved := by
  unfold unlinkParent
  split <;> simp_all [modify, setBit]

theorem unlinkChild_setBit (parent : Nat) : (tbl.setBit reserved).unlinkChild idx parent =
      (tbl.unlinkChild idx parent).setBit reserved := by
  unfold unlinkChild
  split <;> simp_all [modify, setBit]

theorem destroyObject_setBit (apart : idx ≠ reserved) :
    (tbl.setBit reserved).destroyObject idx = (tbl.destroyObject idx).setBit reserved := by
  unfold destroyObject
  have started : (tbl.setBit reserved).beginDestroy idx = (tbl.beginDestroy idx).setBit reserved := rfl
  dsimp only
  rw [started, foldl_setBit fun child _ => unlinkParent_setBit child,
    foldl_setBit fun parent _ => unlinkChild_setBit parent]
  unfold finishDestroy clearBit setBit modify
  rw [update_comm apart.symm]

/-- The ids that pass the validation of `cam_sync_merge`. -/
def validId (table : SyncTable) (syncObj : Int) : Bool :=
  match camSyncObject syncObj with
  | none => false
  | some idx => table.bitmap idx && decide ((table.rows idx).state ≠ .invalid)

end SyncTable

def SyncTableRow.neighbours (row : SyncTableRow) : List Nat :=
  row.childrenList.filter (· != 0) ++ row.parentsList.filter (· != 0)

theorem SyncTableRow.neighbours_all {row : SyncTableRow} {locks : Nat → Bool} :
    (row.neighbours.all fun other => !locks other) = true ↔
      (∀ child ∈ row.childrenList.filter (· != 0), locks child = false) ∧
        ∀ parent ∈ row.parentsList.filter (· != 0), locks parent = false := by
  unfold neighbours
  rw [List.all_append, Bool.and_eq_true]
  simp only [List.all_eq_true, Bool.not_eq_true']

section Destroys

variable {dev after : SyncDevice} {idx reserved : Nat} {objects : List Int}

theorem camSyncDestroy_unnamed (unnamed : camSyncObject syncObj = none) :
    camSyncDestroy syncObj dev = some (.error .einval, dev) := by
  unfold camSyncDestroy
  rw [unnamed]

theorem camSyncDestroy_named (named : camSyncObject syncObj = some idx) : camSyncDestroy syncObj dev =
      if dev.rowSpinlocks idx then none else if (dev.row idx).state = .invalid then some (.error .einval, dev)
      else if (dev.row idx).neighbours.all fun other => !dev.rowSpinlocks other then
        some (.ok (), dev.run (destroyObject idx)) else none := by
  unfold camSyncDestroy
  rw [named]
  dsimp only
  by_cases free : dev.rowSpinlocks idx = false
  · have unheld : ¬ dev.rowSpinlocks idx = true := by simp [free]
    rw [spinLock_free free, bind_some, if_neg unheld]
    rw [spinUnlock_taken free]
    refine congrArg (ite _ _) ?_
    rw [run, spinUnlock_taken free, eachRow_eq]
    by_cases all : ((dev.syncTable.rows idx).neighbours.all fun other =>
        !dev.rowSpinlocks other) = true
    · obtain ⟨children, parents⟩ := SyncTableRow.neighbours_all.mp all
      refine Eq.trans ?_ (if_pos all).symm
      rw [if_pos (by exact children), bind_some, eachRow_eq,
        if_pos (by exact parents), bind_some, spinLock_free (by exact free), map_some]
      simp only [run]
      rw [spinUnlock_taken free]
      rfl
    · refine Eq.trans ?_ (if_neg all).symm
      split
      · rename_i children
        rw [bind_some, eachRow_eq, if_neg]
        · rfl
        · exact fun parents => all (SyncTableRow.neighbours_all.mpr ⟨children, parents⟩)
      · rfl
  · have held : dev.rowSpinlocks idx = true := by simpa using free
    unfold spinLock
    rw [if_pos held, if_pos held]
    rfl

theorem camSyncDestroy_setBit (unused : (dev.row reserved).state = .invalid) :
    camSyncDestroy syncObj (dev.run (·.setBit reserved)) =
      (camSyncDestroy syncObj dev).map fun (code, dev) => (code, dev.run (·.setBit reserved)) := by
  cases named : camSyncObject syncObj with
  | none =>
    rw [camSyncDestroy_unnamed named, camSyncDestroy_unnamed named]
    rfl
  | some idx =>
    rw [camSyncDestroy_named named, camSyncDestroy_named named]
    change (if dev.rowSpinlocks idx = true then _ else if (dev.row idx).state = .invalid then _
      else if (dev.row idx).neighbours.all (fun other => !dev.rowSpinlocks other) then _
      else _) = _
    split
    · rfl
    split
    · rfl
    rename_i live
    split
    · have apart : idx ≠ reserved := by
        rintro rfl
        exact live unused
      rw [map_some]
      simp only [run]
      rw [destroyObject_setBit apart]
    · rfl

theorem camSyncDestroy_effect (ret : camSyncDestroy syncObj dev = some (code, after)) : DestroyEffect dev after := by
  cases named : camSyncObject syncObj with
  | none =>
    rw [camSyncDestroy_unnamed named] at ret
    cases ret
    exact .refused
  | some idx =>
    rw [camSyncDestroy_named named] at ret
    split at ret
    · cases ret
    split at ret
    · cases ret
      exact .refused
    rename_i live
    split at ret
    · cases ret
      exact .destroyed live
    · cases ret

structure Destroyed (dev after : SyncDevice) : Prop where
  linked : after.syncTable.Linked
  locks : after.rowSpinlocks = dev.rowSpinlocks
  unused : ∀ idx, (dev.row idx).state = .invalid → (after.row idx).state = .invalid
  clear : ∀ idx, dev.syncTable.bitmap idx = false → after.syncTable.bitmap idx = false

theorem Destroyed.refl (linked : dev.syncTable.Linked) : Destroyed dev dev :=
  ⟨linked, rfl, fun _ unused => unused, fun _ clear => clear⟩

theorem Destroyed.trans {next} (here : Destroyed dev next) (there : Destroyed next after) : Destroyed dev after :=
  ⟨there.linked, there.locks.trans here.locks, fun idx unused => there.unused idx (here.unused idx unused),
    fun idx clear => there.clear idx (here.clear idx clear)⟩

theorem DestroyEffect.keeps (effect : DestroyEffect dev after)
    (linked : dev.syncTable.Linked) : Destroyed dev after := by
  cases effect with
  | refused => exact .refl linked
  | @destroyed idx live =>
    refine ⟨linked.destroyObject live, rfl, fun other unused => ?_, fun other clear => ?_⟩
    · change ((dev.syncTable.destroyObject idx).rows other).state = .invalid
      rw [destroyObject_rows linked]
      split
      · rfl
      · exact unused
    · change (dev.syncTable.destroyObject idx).bitmap other = false
      rw [destroyObject_frame.1, update_apply]
      split
      · rfl
      · exact clear

theorem destroyAll_destroyed (linked : dev.syncTable.Linked)
    (done : destroyAll objects dev = some after) : Destroyed dev after := by
  induction objects generalizing dev with
  | nil =>
    cases done
    exact .refl linked
  | cons syncObj rest ih =>
    obtain ⟨⟨code, next⟩, first, remaining⟩ := bind_eq_some_iff.mp done
    have here := (camSyncDestroy_effect first).keeps linked
    exact here.trans (ih here.linked remaining)

theorem destroyAll_setBit (linked : dev.syncTable.Linked) (unused : (dev.row reserved).state = .invalid) :
    destroyAll objects (dev.run (·.setBit reserved)) = (destroyAll objects dev).map (·.run (·.setBit reserved)) := by
  induction objects generalizing dev with
  | nil => rfl
  | cons syncObj rest ih =>
    rw [destroyAll, destroyAll, camSyncDestroy_setBit unused]
    cases first : camSyncDestroy syncObj dev with
    | none => rfl
    | some result =>
      have here := (camSyncDestroy_effect first).keeps linked
      exact ih here.linked (here.unused _ unused)

theorem destroyAll_append : destroyAll (objects ++ others) dev = (destroyAll objects dev).bind (destroyAll others) := by
  induction objects generalizing dev with
  | nil => rfl
  | cons syncObj rest ih =>
    rw [cons_append, destroyAll, destroyAll, bind_assoc]
    exact congrArg _ (funext fun _ => ih)

end Destroys

section Validation

variable {dev after : SyncDevice} {syncObj : Int} {objects : List Int}
  {code : Except Errno Unit}

theorem camSyncCheckValid_eq_some (done : camSyncCheckValid syncObj dev = some (code, after)) :
    after = dev ∧ (code = .ok () ↔ dev.syncTable.validId syncObj = true) := by
  unfold camSyncCheckValid at done
  unfold validId
  cases named : camSyncObject syncObj with
  | none =>
    rw [named] at done
    cases done
    simp
  | some idx =>
    rw [named] at done
    obtain ⟨locked, taken, result⟩ := map_eq_some_iff.mp done
    obtain ⟨free, rfl⟩ := spinLock_eq_some taken
    unfold row at result
    simp only [spinUnlock_taken free] at result
    split at result
    · rename_i released
      cases result
      simp [released]
    rename_i used
    split at result
    · rename_i unused
      cases result
      simp [unused]
    · rename_i live
      cases result
      simpa [live] using used

theorem camSyncCheckAll_eq_some (done : camSyncCheckAll objects dev = some (code, after)) :
    after = dev ∧ (code = .ok () ↔ ∀ syncObj ∈ objects, dev.syncTable.validId syncObj = true) := by
  induction objects with
  | nil =>
    cases done
    simp
  | cons syncObj rest ih =>
    obtain ⟨⟨result, next⟩, first, remaining⟩ := bind_eq_some_iff.mp done
    obtain ⟨rfl, valid⟩ := camSyncCheckValid_eq_some first
    rw [forall_mem_cons, ← valid]
    cases result with
    | error reason =>
      cases remaining
      simp
    | ok _ => simpa using ih remaining

theorem camCommonUtilRemoveDuplicateArr_eq_length :
    camCommonUtilRemoveDuplicateArr objects = objects.length ↔ objects.Nodup := by
  have bound (kept arr : List Int) :
      (arr.foldl (fun kept id => if id ∈ kept then kept else kept ++ [id]) kept).length ≤ kept.length + arr.length ∧
        ((arr.foldl (fun kept id => if id ∈ kept then kept else kept ++ [id]) kept).length =
            kept.length + arr.length ↔ arr.Nodup ∧ ∀ id ∈ arr, id ∉ kept) := by
    induction arr generalizing kept with
    | nil => simp
    | cons id rest ih =>
      rw [foldl_cons]
      split
      · rename_i mem
        obtain ⟨upper, _⟩ := ih kept
        constructor
        · rw [length_cons]
          omega
        · constructor
          · rw [length_cons]
            omega
          · exact fun nodup => absurd mem (nodup.2 id mem_cons_self)
      · rename_i fresh
        obtain ⟨upper, equal⟩ := ih (kept ++ [id])
        rw [length_append] at upper equal
        rw [length_cons, ← Nat.add_assoc, Nat.add_right_comm]
        refine ⟨upper, equal.trans ?_⟩
        rw [nodup_cons, forall_mem_cons]
        simp only [mem_append, mem_singleton, not_or]
        constructor
        · rintro ⟨nodup, apart⟩
          exact ⟨⟨fun mem => (apart id mem).2 rfl, nodup⟩, fresh, fun other mem => (apart other mem).1⟩
        · rintro ⟨⟨outside, nodup⟩, _, apart⟩
          refine ⟨nodup, fun other mem => ⟨apart other mem, ?_⟩⟩
          rintro rfl
          exact outside mem
  unfold camCommonUtilRemoveDuplicateArr
  simpa using (bound [] objects).2

end Validation

def MergeRefused (dev : SyncDevice) (syncObj checked : List Int) : Prop :=
  syncObj.length ≤ 1 ∨ ¬ syncObj.Nodup ∨ (∃ id ∈ syncObj, dev.syncTable.validId id = false) ∨
    ∃ validated, destroyAll checked dev = some validated ∧ validated.syncTable.findFirstZeroBit = none

/-- What a merge can do; `alone` is what the other threads make of the device without it. -/
inductive MergeEffect (dev alone : SyncDevice) (syncObj checked : List Int) :
    Except Errno Nat → SyncDevice → Prop where
  | refused {code : Errno} (early : MergeRefused dev syncObj checked) :
      MergeEffect dev alone syncObj checked (.error code) alone
  | abandoned {idx : Nat} {middle : SyncTable} (late : ¬ MergeRefused dev syncObj checked)
      (free : alone.rowSpinlocks idx = false) (clear : alone.syncTable.bitmap idx = false)
      (given : Abandoned alone.syncTable middle idx) : MergeEffect dev alone syncObj checked (.error .einval)
        ⟨middle, update alone.rowSpinlocks idx true⟩
  | merged {idx : Nat} {middle : SyncTable} {validated : SyncDevice}
      (others : destroyAll checked dev = some validated)
      (found : validated.syncTable.findFirstZeroBit = some idx)
      (clear : alone.syncTable.bitmap idx = false) (distinct : (syncObj.map Int.toNat).Nodup)
      (inside : ∀ child ∈ syncObj.map Int.toNat, child < camSyncMaxObjs)
      (another : idx ∉ syncObj.map Int.toNat)
      (mergeable : ∀ child ∈ syncObj.map Int.toNat, alone.syncTable.Mergeable child)
      (joined : Joined (alone.syncTable.setBit idx) middle idx (syncObj.map Int.toNat))
      (group : middle.rows idx =
        ((alone.syncTable.setBit idx).groupRow idx (syncObj.map Int.toNat)).concludeGroup) :
      MergeEffect dev alone syncObj checked (.ok idx) ⟨middle, alone.rowSpinlocks⟩

section Merge

variable {dev after : SyncDevice} {syncObj checked reserved : List Int} {allocs : LinkAllocs}
  {code : Except Errno Nat}

theorem SyncTable.validId_positive {tbl : SyncTable} {id : Int} (valid : tbl.validId id = true) : 0 < id := by
  unfold validId at valid
  split at valid
  · cases valid
  · rename_i named
    obtain ⟨rfl, pos, _⟩ := camSyncObject_eq_some named
    omega

theorem SyncTable.validId_lt {tbl : SyncTable} {id : Int} (valid : tbl.validId id = true) :
    id.toNat < camSyncMaxObjs := by
  unfold validId at valid
  split at valid
  · cases valid
  · rename_i named
    obtain ⟨rfl, _, inside⟩ := camSyncObject_eq_some named
    simpa using inside

theorem toNat_nodup {tbl : SyncTable} (nodup : syncObj.Nodup)
    (valid : ∀ id ∈ syncObj, tbl.validId id = true) : (syncObj.map Int.toNat).Nodup := by
  refine nodup.map_on fun first here second there same => ?_
  have := validId_positive (valid first here)
  omega

theorem camSyncMerge_effect (linked : dev.syncTable.Linked)
    (done : camSyncMerge syncObj allocs checked reserved dev = some (code, after)) :
    ∃ alone, destroyAll (checked ++ reserved) dev = some alone ∧ MergeEffect dev alone syncObj checked code after := by
  unfold camSyncMerge at done
  split at done
  · rename_i short
    obtain ⟨alone, others, result⟩ := map_eq_some_iff.mp done
    cases result
    exact ⟨_, others, .refused (.inl short)⟩
  rename_i long
  split at done
  · rename_i repeated
    obtain ⟨alone, others, result⟩ := map_eq_some_iff.mp done
    cases result
    refine ⟨_, others, .refused (.inr (.inl fun nodup => repeated ?_))⟩
    exact camCommonUtilRemoveDuplicateArr_eq_length.mpr nodup
  rename_i apart
  have nodup : syncObj.Nodup :=
    camCommonUtilRemoveDuplicateArr_eq_length.mp (Decidable.not_not.mp apart)
  obtain ⟨⟨verdict, same⟩, checks, rest⟩ := bind_eq_some_iff.mp done
  obtain ⟨rfl, valid⟩ := camSyncCheckAll_eq_some checks
  cases verdict with
  | error reason =>
    obtain ⟨alone, others, result⟩ := map_eq_some_iff.mp rest
    cases result
    refine ⟨_, others, .refused (.inr (.inr (.inl ?_)))⟩
    by_contra all
    have passed : ∀ id ∈ syncObj, same.syncTable.validId id = true := fun id mem => by
      by_contra invalid
      exact all ⟨id, mem, by simpa using invalid⟩
    cases valid.mpr passed
  | ok _ =>
    have valid := valid.mp rfl
    obtain ⟨validated, others, rest⟩ := bind_eq_some_iff.mp rest
    have here := destroyAll_destroyed linked others
    split at rest
    · rename_i full
      obtain ⟨alone, later, result⟩ := map_eq_some_iff.mp rest
      cases result
      refine ⟨_, ?_, .refused (.inr (.inr (.inr ⟨_, others, full⟩)))⟩
      rw [destroyAll_append, others]
      exact later
    rename_i idx found
    obtain ⟨clear, _⟩ := findFirstZeroBit_clear found
    have unused := here.linked.free idx clear
    rw [destroyAll_setBit here.linked unused] at rest
    obtain ⟨second, reserving, rest⟩ := bind_eq_some_iff.mp rest
    obtain ⟨alone, later, rfl⟩ := map_eq_some_iff.mp reserving
    have there := destroyAll_destroyed here.linked later
    obtain ⟨locked, taken, rest⟩ := bind_eq_some_iff.mp rest
    obtain ⟨free, rfl⟩ := spinLock_eq_some taken
    obtain ⟨⟨verdict, built⟩, init, result⟩ := map_eq_some_iff.mp rest
    have unlisted : ∀ other, idx ∉ (alone.syncTable.rows other).parentsList := fun other =>
      there.linked.unlisted (there.unused idx unused)
    have distinctIds := toNat_nodup nodup valid
    have inside : ∀ child ∈ syncObj.map Int.toNat, child < camSyncMaxObjs := by
      intro child mem
      obtain ⟨id, listed, rfl⟩ := mem_map.mp mem
      exact validId_lt (valid id listed)
    have effect := camSyncInitGroupObject_effect distinctIds (update_self _ _ _) (by exact unlisted) init
    refine ⟨alone, by rw [destroyAll_append, others]; exact later, ?_⟩
    have stillClear := there.clear idx clear
    cases effect with
    | merged another mergeable joined group =>
      cases result
      rw [spinUnlock_taken (by exact free)]
      exact .merged others found stillClear distinctIds inside another mergeable joined group
    | failed abandoned =>
      cases result
      refine .abandoned ?_ free stillClear ?_
      · rintro (short | repeated | ⟨id, mem, invalid⟩ | ⟨other, same, full⟩)
        · exact long short
        · exact repeated nodup
        · rw [valid id mem] at invalid
          cases invalid
        · rw [others] at same
          cases same
          rw [found] at full
          cases full
      · refine { abandoned with bitmap := ?_ }
        have bitmap : ∀ middle : SyncTable, middle.bitmap = update alone.syncTable.bitmap idx true →
            (middle.clearBit idx).bitmap = alone.syncTable.bitmap := by
          intro middle same
          rw [clearBit, same, update_idem, ← stillClear, update_eq_self]
        exact bitmap _ abandoned.bitmap

end Merge

end KernelModules.CamSync

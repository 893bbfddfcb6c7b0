import KernelModules.IpaTables.Faithful
import KernelModules.IpaTables.Lifecycle

namespace KernelModules.IpaTables

open Data Translation List Function TblSystem

/-! # The indices of the routing tables

The listed tables have different indices, each of which is taken.
-/

namespace TblSystem

variable {Rule : Type} {cfg : TblConfig} {env : CommitEnv Rule} {s after : TblSystem Rule}
  {tbls : TblRef → IpaTbl Rule} {ref : TblRef} {tbl : Nat} {action : TblAction Rule}

structure Indexed (s : TblSystem Rule) : Prop where
  once : (s.headRtTblList.map fun tbl => (s.tbls (.rt tbl)).idx).Nodup
  taken : ∀ tbl ∈ s.headRtTblList, (s.tbls (.rt tbl)).idx ∈ s.rtIdxBitmap
  small : ∀ tbl ∈ s.headRtTblList, (s.tbls (.rt tbl)).idx < rtIndexBitmapSize

structure SameIndices (s after : TblSystem Rule) : Prop where
  idx : ∀ ref, (after.tbls ref).idx = (s.tbls ref).idx
  listed : after.headRtTblList = s.headRtTblList
  bitmap : after.rtIdxBitmap = s.rtIdxBitmap

theorem SameIndices.trans (first : SameIndices s ready) (second : SameIndices ready third) : SameIndices s third :=
  ⟨fun ref => (second.idx ref).trans (first.idx ref), second.listed.trans first.listed,
    second.bitmap.trans first.bitmap⟩

theorem SameIndices.indexed (same : SameIndices s after) (indexed : s.Indexed) : after.Indexed := by
  constructor
  · rw [same.listed, map_congr_left fun tbl _ => same.idx (.rt tbl)]
    exact indexed.once
  · intro tbl mem
    rw [same.listed] at mem
    rw [same.idx, same.bitmap]
    exact indexed.taken tbl mem
  · intro tbl mem
    rw [same.listed] at mem
    rw [same.idx]
    exact indexed.small tbl mem

theorem idx_update (same : changed.idx = (tbls ref).idx) (other : TblRef) :
    (update tbls ref changed other).idx = (tbls other).idx := by
  by_cases here : other = ref
  · subst here
    rwa [update_self]
  · rw [update_of_ne here]

theorem prepForCmt_idx {tbl : IpaTbl Rule} : (tbl.prepForCmt cfg.obj env).1.idx = tbl.idx := by
  unfold IpaTbl.prepForCmt
  dsimp only
  split <;> rfl

theorem prepTbls_idx (refs : List TblRef) (other : TblRef) :
    ((prepTbls cfg env refs tbls).1 other).idx = (tbls other).idx := by
  induction refs generalizing tbls with
  | nil => rfl
  | cons first rest ih =>
    unfold prepTbls
    dsimp only
    split
    · exact ih.trans (idx_update prepForCmt_idx other)
    · exact idx_update prepForCmt_idx other

theorem prepFltTbls_idx (pipes : List Nat) (other : TblRef) :
    ((prepFltTbls cfg env pipes tbls).1 other).idx = (tbls other).idx := by
  induction pipes generalizing tbls with
  | nil => rfl
  | cons pipe rest ih =>
    have prep : ((tbls (.flt pipe)).prepForCmt cfg.obj env).1.idx = (tbls (.flt pipe)).idx :=
      prepForCmt_idx
    unfold prepFltTbls
    dsimp only
    split
    · refine ih.trans (idx_update ?_ other)
      exact prep
    · exact idx_update prep other

theorem moveNhashTbls_idx (pipes : List Nat) (other : TblRef) :
    ((moveNhashTbls cfg tbls params pipes).1 other).idx = (tbls other).idx := by
  induction pipes generalizing tbls params with
  | nil => rfl
  | cons pipe rest ih =>
    unfold moveNhashTbls
    split
    · rfl
    · refine ih.trans (idx_update ?_ other)
      rfl

theorem prepRt_indices : SameIndices s (s.prepRt cfg env).1 :=
  ⟨prepTbls_idx _, rfl, rfl⟩

theorem prepFlt_indices : SameIndices s (s.prepFlt cfg env).1 := by
  unfold prepFlt
  dsimp only
  split
  · exact ⟨fun ref => (moveNhashTbls_idx _ ref).trans (prepFltTbls_idx _ ref), rfl, rfl⟩
  · exact ⟨prepFltTbls_idx _, rfl, rfl⟩

theorem translated_indices {mem : ByteMemory} {fine : Bool}
    (ran : translateBoth env imgs hashOfst nhashOfst parts (s.translation mem) =
      some (image, fine)) : SameIndices s (s.translated image) := by
  refine ⟨fun ref => ?_, rfl, rfl⟩
  have same : SameRules (image.tbls ref) (s.tbls ref) := translateBoth_sameRules ran ref
  show (image.tbls ref).idx = (s.tbls ref).idx
  rw [same]

theorem reapSysRtTbls_indices : SameIndices s s.reapSysRtTbls := by
  refine ⟨fun ref => ?_, rfl, rfl⟩
  unfold reapSysRtTbls
  dsimp only
  split
  · split <;> rfl
  · rfl

theorem reapSysFltTbls_indices : SameIndices s (s.reapSysFltTbls cfg) := by
  refine ⟨fun ref => ?_, rfl, rfl⟩
  unfold reapSysFltTbls
  dsimp only
  split
  · split <;> rfl
  · rfl

theorem commitRt_indices (done : s.commitRt cfg env = some after) : SameIndices s after := by
  rcases commitRt_cases done with
    (rfl | rfl) | ⟨ready, _, _, image, _, ⟨_, params, prep, _⟩, ran, cases⟩
  · exact ⟨fun _ => rfl, rfl, rfl⟩
  · exact prepRt_indices
  have same : SameIndices s (s.prepRt cfg env).1 := prepRt_indices
  rw [prep] at same
  have translatedSame := same.trans (translated_indices ran)
  rcases cases with rfl | ⟨_, _, rfl⟩
  · exact translatedSame
  have told : SameIndices (ready.translated image) ((ready.translated image).tellRt cfg) :=
    ⟨fun _ => rfl, rfl, rfl⟩
  exact (translatedSame.trans told).trans reapSysRtTbls_indices

theorem commitFlt_indices (done : s.commitFlt cfg env skip = some after) : SameIndices s after := by
  rcases commitFlt_cases done with
    rfl | ⟨ready, _, _, image, _, ⟨params, prep, _⟩, ran, cases⟩
  · exact prepFlt_indices
  have same : SameIndices s (s.prepFlt cfg env).1 := prepFlt_indices
  rw [prep] at same
  have translatedSame := same.trans (translated_indices ran)
  rcases cases with rfl | ⟨_, _, rfl⟩
  · exact translatedSame
  have told : SameIndices (ready.translated image) ((ready.translated image).tellFlt cfg skip) :=
    ⟨fun _ => rfl, rfl, rfl⟩
  exact (translatedSame.trans told).trans reapSysFltTbls_indices

theorem Indexed.init : (init cfg : TblSystem Rule).Indexed :=
  ⟨.nil, nofun, nofun⟩

theorem Indexed.listed_nodup (indexed : s.Indexed) : s.headRtTblList.Nodup :=
  indexed.once.of_map _

theorem Indexed.addRtTbl (indexed : s.Indexed) (new : tbl ∉ s.headRtTblList) :
    (s.addRtTbl cfg tbl idAllocated).Indexed := by
  unfold TblSystem.addRtTbl
  split
  · exact indexed
  rename_i idx found
  have free := List.find?_some found
  rw [decide_eq_true_eq] at free
  have small := mem_range.mp (mem_of_find?_eq_some found)
  split
  · exact ⟨indexed.once, fun tbl listed => mem_cons_of_mem _ (indexed.taken tbl listed), indexed.small⟩
  have same (other : Nat) (listed : other ∈ s.headRtTblList) :
      (update s.tbls (.rt tbl) (emptyTbl idx (rtInSys cfg)) (.rt other)).idx = (s.tbls (.rt other)).idx := by
    have apart : TblRef.rt other ≠ .rt tbl := fun equal => new (TblRef.rt.inj equal ▸ listed)
    rw [update_of_ne apart]
  constructor
  · show List.Nodup (_ :: List.map _ s.headRtTblList)
    rw [map_congr_left same, nodup_cons]
    dsimp only
    rw [update_self]
    refine ⟨fun mem => ?_, indexed.once⟩
    obtain ⟨other, listed, equal⟩ := mem_map.mp mem
    have taken := indexed.taken other listed
    rw [equal] at taken
    exact free taken
  · intro other listed
    rcases mem_cons.mp listed with rfl | listed
    · dsimp only
      rw [update_self]
      exact mem_cons_self
    · rw [same other listed]
      exact mem_cons_of_mem _ (indexed.taken other listed)
  · intro other listed
    rcases mem_cons.mp listed with rfl | listed
    · dsimp only
      rw [update_self]
      exact small
    · rw [same other listed]
      exact indexed.small other listed

theorem Indexed.delRtTbl (indexed : s.Indexed) (mem : tbl ∈ s.headRtTblList) : (s.delRtTbl tbl).Indexed := by
  have sub : (s.headRtTblList.erase tbl).Sublist s.headRtTblList := erase_sublist
  refine ⟨indexed.once.sublist (sub.map _), fun other left => ?_, fun other left =>
    indexed.small other (sub.subset left)⟩
  have apart := (indexed.listed_nodup.mem_erase_iff.mp left).1
  have kept : (s.tbls (.rt other)).idx ≠ (s.tbls (.rt tbl)).idx := fun equal =>
    apart (inj_on_of_nodup_map indexed.once (sub.subset left) mem equal)
  exact (mem_erase_of_ne kept).mpr (indexed.taken other (sub.subset left))

theorem Indexed.step (indexed : s.Indexed) (taken : s.step cfg action = some after) : after.Indexed := by
  cases action with
  | setRules ref rules =>
    unfold step at taken
    dsimp only at taken
    split at taken
    · cases taken
      exact SameIndices.indexed ⟨idx_update rfl, rfl, rfl⟩ indexed
    · cases taken
  | addRtTbl tbl idAllocated =>
    unfold step at taken
    dsimp only at taken
    split at taken
    · cases taken
    · rename_i new
      cases taken
      exact indexed.addRtTbl fun mem => new (mem_append_left _ mem)
  | delRtTbl tbl =>
    unfold step at taken
    dsimp only at taken
    split at taken
    · rename_i mem
      cases taken
      exact indexed.delRtTbl mem
    · cases taken
  | commitRt env => exact (commitRt_indices taken).indexed indexed
  | commitFlt env skip => exact (commitFlt_indices taken).indexed indexed

theorem indexed_of_reachable
    (reached : Reachable (step cfg) allowed (init cfg) s) : s.Indexed :=
  reached.invariant TblSystem.Indexed .init fun _ _ _ indexed _ taken => indexed.step taken

end TblSystem

end KernelModules.IpaTables

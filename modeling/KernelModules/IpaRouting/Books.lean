import KernelModules.Data.Holding
import KernelModules.IpaRouting.Rules

namespace KernelModules.IpaRouting

open Data List Function RtState

/-! # The books of the routing tables

The counts of rules and of tables, and the bits of the indices, are those of the lists.
-/

def RtConfig.Reserved (cfg : RtConfig) (ip : IpaIpType) (idx : Nat) : Prop :=
  cfg.modemRtIndexLo ip ≤ idx ∧ idx ≤ cfg.modemRtIndexHi ip

structure SetBooks (cfg : RtConfig) (tbls : Nat → RtTbl) (ip : IpaIpType) (set : RtTblSet) : Prop where
  family : ∀ tbl ∈ set.headRtTblList, (tbls tbl).ip = ip
  tblCnt : set.tblCnt = set.headRtTblList.length
  bitmap : ∀ idx, set.rtIdxBitmap idx = true ↔ cfg.Reserved ip idx ∨ ∃ tbl ∈ set.headRtTblList, (tbls tbl).idx = idx
  once : (set.headRtTblList.map fun tbl => (tbls tbl).idx).Nodup
  free : ∀ tbl ∈ set.headRtTblList, ¬cfg.Reserved ip (tbls tbl).idx

namespace SetBooks

variable {cfg : RtConfig} {tbls later : Nat → RtTbl} {ip : IpaIpType} {set : RtTblSet} {tbl idx : Nat}

section

variable (books : SetBooks cfg tbls ip set)
include books

theorem congr (ips : ∀ tbl ∈ set.headRtTblList, (later tbl).ip = (tbls tbl).ip)
    (idxs : ∀ tbl ∈ set.headRtTblList, (later tbl).idx = (tbls tbl).idx) : SetBooks cfg later ip set := by
  refine ⟨fun tbl mem => (ips tbl mem).trans (books.family tbl mem), books.tblCnt, ?_, ?_, ?_⟩
  · intro idx
    rw [books.bitmap]
    refine or_congr_right (exists_congr fun tbl => and_congr_right fun mem => ?_)
    rw [idxs tbl mem]
  · rw [map_congr_left idxs]
    exact books.once
  · intro tbl mem
    rw [idxs tbl mem]
    exact books.free tbl mem

theorem list (free : set.rtIdxBitmap idx = false) (mine : (tbls tbl).ip = ip)
    (index : (tbls tbl).idx = idx) : SetBooks cfg tbls ip { set with
      headRtTblList := tbl :: set.headRtTblList
      tblCnt := set.tblCnt + 1
      rtIdxBitmap := update set.rtIdxBitmap idx true } := by
  have unused : ¬(cfg.Reserved ip idx ∨ ∃ tbl ∈ set.headRtTblList, (tbls tbl).idx = idx) := by
    rw [← books.bitmap, free]
    exact Bool.false_ne_true
  constructor
  · exact forall_mem_cons.mpr ⟨mine, books.family⟩
  · exact congrArg (· + 1) books.tblCnt
  · intro other
    show update set.rtIdxBitmap idx true other = true ↔
      _ ∨ ∃ mem ∈ tbl :: set.headRtTblList, (tbls mem).idx = other
    rw [exists_mem_cons_iff, index]
    by_cases here : other = idx
    · subst here
      simp
    · rw [update_of_ne here, books.bitmap]
      simp [Ne.symm here]
  · rw [map_cons, nodup_cons, index]
    refine ⟨fun taken => unused (.inr ?_), books.once⟩
    exact mem_map.mp taken
  · refine forall_mem_cons.mpr ⟨?_, books.free⟩
    rw [index]
    exact fun reserved => unused (.inl reserved)

theorem listed_nodup : set.headRtTblList.Nodup :=
  books.once.of_map _

theorem unlist (listed : tbl ∈ set.headRtTblList) : SetBooks cfg tbls ip
      { headRtTblList := set.headRtTblList.erase tbl
        tblCnt := set.tblCnt - 1
        rtIdxBitmap := update set.rtIdxBitmap (tbls tbl).idx false
        reapRtTblList := reap } := by
  have before (other : Nat) (left : other ∈ set.headRtTblList.erase tbl) :
      other ∈ set.headRtTblList := mem_of_mem_erase left
  constructor
  · exact fun other left => books.family other (before other left)
  · rw [length_erase_of_mem listed, books.tblCnt]
  · intro idx
    show update set.rtIdxBitmap (tbls tbl).idx false idx = true ↔
      _ ∨ ∃ other ∈ set.headRtTblList.erase tbl, (tbls other).idx = idx
    by_cases here : idx = (tbls tbl).idx
    · subst here
      rw [update_self]
      refine ⟨fun never => absurd never Bool.false_ne_true, fun taken => ?_⟩
      obtain reserved | ⟨other, left, same⟩ := taken
      · exact absurd reserved (books.free tbl listed)
      · rw [books.listed_nodup.mem_erase_iff] at left
        exact absurd (inj_on_of_nodup_map books.once left.2 listed same) left.1
    · rw [update_of_ne here, books.bitmap]
      refine or_congr_right ⟨?_, ?_⟩
      · rintro ⟨other, mem, rfl⟩
        refine ⟨other, (mem_erase_of_ne ?_).mpr mem, rfl⟩
        rintro rfl
        exact here rfl
      · rintro ⟨other, left, same⟩
        exact ⟨other, before other left, same⟩
  · exact books.once.sublist (erase_sublist.map _)
  · exact fun other left => books.free other (before other left)

end

end SetBooks

namespace RtState

variable {cfg : RtConfig} {s after : RtState} {ip : IpaIpType} {tbl entry idx id : Nat}

theorem mem_listed : tbl ∈ s.listed ↔ ∃ ip, tbl ∈ (s.sets ip).headRtTblList := by
  unfold listed
  rw [mem_append]
  constructor
  · rintro (v4 | v6)
    · exact ⟨.v4, v4⟩
    · exact ⟨.v6, v6⟩
  · rintro ⟨ip, mem⟩
    cases ip with
    | v4 => exact .inl mem
    | v6 => exact .inr mem

theorem mem_reaped : tbl ∈ s.reaped ↔ ∃ ip, tbl ∈ (s.sets ip).reapRtTblList := by
  unfold reaped
  rw [mem_append]
  constructor
  · rintro (v4 | v6)
    · exact ⟨.v4, v4⟩
    · exact ⟨.v6, v6⟩
  · rintro ⟨ip, mem⟩
    cases ip with
    | v4 => exact .inl mem
    | v6 => exact .inr mem

theorem listed_cons (ip : IpaIpType) (one : (after.sets ip).headRtTblList.Perm (tbl :: (s.sets ip).headRtTblList))
    (same : ∀ other, other ≠ ip → (after.sets other).headRtTblList = (s.sets other).headRtTblList) :
    after.listed.Perm (tbl :: s.listed) := by
  unfold listed
  cases ip with
  | v4 =>
    rw [same .v6 (by decide)]
    exact one.append_right _
  | v6 =>
    rw [same .v4 (by decide)]
    exact (one.append_left _).trans perm_middle

theorem listRtTbl_listed : ((s.setTbl tbl table).listRtTbl ip tbl idx id).listed.Perm (tbl :: s.listed) := by
  refine listed_cons ip ?_ fun other apart => ?_
  · unfold listRtTbl setSet
    dsimp only
    rw [update_self]
    rfl
  · unfold listRtTbl setSet
    dsimp only
    rw [update_of_ne apart]
    rfl

theorem unlistRtTbl_listed (mem : tbl ∈ (s.sets ip).headRtTblList) :
    s.listed.Perm (tbl :: (s.unlistRtTbl ip tbl).listed) := by
  refine listed_cons ip ?_ fun other apart => ?_
  · unfold unlistRtTbl setSet
    dsimp only
    rw [update_self]
    exact perm_cons_erase mem
  · unfold unlistRtTbl setSet
    dsimp only
    rw [update_of_ne apart]

theorem listDelRule_self : (s.listDelRule tbl entry).tbls tbl = { s.tbls tbl with
    rules := (s.tbls tbl).rules.erase entry, ruleCnt := (s.tbls tbl).ruleCnt - 1 } :=
  update_self _ _ _

theorem listDelRule_of_ne (apart : other ≠ tbl) :
    (s.listDelRule tbl entry).tbls other = s.tbls other := update_of_ne apart _ _

structure TblBooks (cfg : RtConfig) (s : RtState) : Prop where
  holding : Holding s.listed (fun tbl => (s.tbls tbl).rules) s.live
  home : ∀ tbl ∈ s.listed, ∀ entry ∈ (s.tbls tbl).rules, (s.entries entry).tbl = tbl
  ruleCnt : ∀ tbl ∈ s.listed, (s.tbls tbl).ruleCnt = (s.tbls tbl).rules.length
  reaped : ∀ tbl ∈ s.reaped, tbl ∉ s.listed ∧ (s.tbls tbl).rules = [] ∧ (s.tbls tbl).ruleCnt = 0
  sets : ∀ ip, SetBooks cfg s.tbls ip (s.sets ip)

namespace TblBooks

theorem init : (RtState.init cfg).TblBooks cfg := by
  refine ⟨⟨.nil, .refl _, .nil⟩, forall_mem_nil _, forall_mem_nil _, forall_mem_nil _, ?_⟩
  intro ip
  refine ⟨forall_mem_nil _, rfl, fun idx => ?_, .nil, forall_mem_nil _⟩
  simp [RtState.init, RtConfig.Reserved]

section

variable (books : s.TblBooks cfg)
include books

theorem live (live : entry ∈ s.live) :
    (s.entries entry).tbl ∈ s.listed ∧ entry ∈ (s.tbls (s.entries entry).tbl).rules := by
  obtain ⟨tbl, listed, mem⟩ := books.holding.mem_iff.mp live
  have home := books.home tbl listed entry mem
  subst home
  exact ⟨listed, mem⟩

theorem rules_nodup (mem : tbl ∈ s.listed) : (s.tbls tbl).rules.Nodup :=
  (nodup_append.mp ((Holding.split mem).nodup_iff.mp books.holding.held_nodup)).1

theorem congr (sets : after.sets = s.sets) (lives : after.live = s.live)
    (ips : ∀ tbl, (after.tbls tbl).ip = (s.tbls tbl).ip) (idxs : ∀ tbl, (after.tbls tbl).idx = (s.tbls tbl).idx)
    (rules : ∀ tbl, (after.tbls tbl).rules = (s.tbls tbl).rules)
    (ruleCnts : ∀ tbl, (after.tbls tbl).ruleCnt = (s.tbls tbl).ruleCnt)
    (homes : ∀ entry ∈ s.live, (after.entries entry).tbl = (s.entries entry).tbl) : after.TblBooks cfg := by
  have listed : after.listed = s.listed := by rw [RtState.listed, sets, RtState.listed]
  have reaped : after.reaped = s.reaped := by rw [RtState.reaped, sets, RtState.reaped]
  constructor
  · rw [listed, lives]
    refine books.holding.congr fun tbl _ => ?_
    rw [rules]
  · intro tbl mem entry held
    rw [listed] at mem
    rw [rules] at held
    rw [homes entry (books.holding.mem mem held)]
    exact books.home tbl mem entry held
  · intro tbl mem
    rw [ruleCnts, rules]
    rw [listed] at mem
    exact books.ruleCnt tbl mem
  · intro tbl mem
    rw [listed, rules, ruleCnts]
    rw [reaped] at mem
    exact books.reaped tbl mem
  · intro ip
    rw [sets]
    exact (books.sets ip).congr (fun tbl _ => ips tbl) fun tbl _ => idxs tbl

theorem gain (listed : tbl ∈ s.listed) (new : entry ∉ s.live) (sets : after.sets = s.sets)
    (lives : after.live = entry :: s.live) (others : ∀ other, other ≠ tbl → after.tbls other = s.tbls other)
    (ip : (after.tbls tbl).ip = (s.tbls tbl).ip) (idx : (after.tbls tbl).idx = (s.tbls tbl).idx)
    (rules : (after.tbls tbl).rules.Perm (entry :: (s.tbls tbl).rules))
    (ruleCnt : (after.tbls tbl).ruleCnt = (s.tbls tbl).ruleCnt + 1) (home : (after.entries entry).tbl = tbl)
    (homes : ∀ other, other ≠ entry → after.entries other = s.entries other) : after.TblBooks cfg := by
  have sameListed : after.listed = s.listed := by rw [RtState.listed, sets, RtState.listed]
  have sameReaped : after.reaped = s.reaped := by rw [RtState.reaped, sets, RtState.reaped]
  constructor
  · rw [sameListed, lives]
    refine books.holding.gain listed rules (fun other different => ?_) new
    rw [others other different]
  · intro other mem known held
    rw [sameListed] at mem
    by_cases here : other = tbl
    · subst here
      obtain rfl | held := mem_cons.mp (rules.mem_iff.mp held)
      · exact home
      · rw [homes known (fun same => new (same ▸ books.holding.mem listed held))]
        exact books.home other mem known held
    · rw [others other here] at held
      rw [homes known (fun same => new (same ▸ books.holding.mem mem held))]
      exact books.home other mem known held
  · intro other mem
    rw [sameListed] at mem
    by_cases here : other = tbl
    · subst here
      rw [ruleCnt, rules.length_eq, length_cons, books.ruleCnt other mem]
    · rw [others other here]
      exact books.ruleCnt other mem
  · intro other mem
    rw [sameReaped] at mem
    have apart := books.reaped other mem
    rw [sameListed, others other (fun same => apart.1 (same ▸ listed))]
    exact apart
  · intro family
    rw [sets]
    refine (books.sets family).congr (fun other _ => ?_) fun other _ => ?_
    · by_cases here : other = tbl
      · rw [here, ip]
      · rw [others other here]
    · by_cases here : other = tbl
      · rw [here, idx]
      · rw [others other here]

theorem lose (listed : tbl ∈ s.listed) (mem : entry ∈ (s.tbls tbl).rules)
    (sets : after.sets = s.sets) (lives : after.live = s.live.erase entry)
    (tbls : after.tbls = (s.listDelRule tbl entry).tbls) (entries : after.entries = s.entries) :
    after.TblBooks cfg := by
  have sameListed : after.listed = s.listed := by rw [RtState.listed, sets, RtState.listed]
  have sameReaped : after.reaped = s.reaped := by rw [RtState.reaped, sets, RtState.reaped]
  have others (other : Nat) (different : other ≠ tbl) : after.tbls other = s.tbls other := by
    rw [tbls, listDelRule_of_ne different]
  have mine : after.tbls tbl = { s.tbls tbl with
      rules := (s.tbls tbl).rules.erase entry, ruleCnt := (s.tbls tbl).ruleCnt - 1 } := by
    rw [tbls, listDelRule_self]
  constructor
  · rw [sameListed, lives]
    refine books.holding.lose listed ?_ fun other different => ?_
    · rw [mine]
      exact perm_cons_erase mem
    · rw [others other different]
  · intro other there known held
    rw [sameListed] at there
    rw [entries]
    by_cases here : other = tbl
    · subst here
      rw [mine] at held
      exact books.home other there known (mem_of_mem_erase held)
    · rw [others other here] at held
      exact books.home other there known held
  · intro other there
    rw [sameListed] at there
    by_cases here : other = tbl
    · subst here
      rw [mine]
      rw [length_erase_of_mem mem, books.ruleCnt other there]
    · rw [others other here]
      exact books.ruleCnt other there
  · intro other there
    rw [sameReaped] at there
    have apart := books.reaped other there
    rw [sameListed, others other (fun same => apart.1 (same ▸ listed))]
    exact apart
  · intro family
    rw [sets]
    refine (books.sets family).congr (fun other _ => ?_) fun other _ => ?_
    all_goals
      by_cases here : other = tbl
      · rw [here, mine]
      · rw [others other here]

theorem list (new : tbl ∉ s.listed) (unknown : tbl ∉ s.reaped) (free : (s.sets ip).rtIdxBitmap idx = false)
    (mine : table.ip = ip) (index : table.idx = idx) (empty : table.rules = []) (none : table.ruleCnt = 0) :
    ((s.setTbl tbl table).listRtTbl ip tbl idx id).TblBooks cfg := by
  have more : ((s.setTbl tbl table).listRtTbl ip tbl idx id).listed.Perm (tbl :: s.listed) :=
    listRtTbl_listed
  have atTbl : ((s.setTbl tbl table).listRtTbl ip tbl idx id).tbls tbl = table :=
    update_self _ _ _
  have others (other : Nat) (different : other ≠ tbl) :
      ((s.setTbl tbl table).listRtTbl ip tbl idx id).tbls other = s.tbls other :=
    update_of_ne different _ _
  have old (other : Nat) (member : other ∈ s.listed) : other ≠ tbl := by
    rintro rfl
    exact new member
  have asBefore : Holding s.listed
      (fun other => (((s.setTbl tbl table).listRtTbl ip tbl idx id).tbls other).rules) s.live := by
    refine books.holding.congr fun other member => ?_
    rw [others other (old other member)]
  constructor
  · refine (asBefore.join new ?_).perm more.symm
    rw [atTbl, empty]
  · intro other member known held
    obtain rfl | member := mem_cons.mp (more.mem_iff.mp member)
    · rw [atTbl, empty] at held
      exact absurd held not_mem_nil
    · rw [others other (old other member)] at held
      exact books.home other member known held
  · intro other member
    obtain rfl | member := mem_cons.mp (more.mem_iff.mp member)
    · rw [atTbl, empty, none]
      rfl
    · rw [others other (old other member)]
      exact books.ruleCnt other member
  · intro other member
    have there : other ∈ s.reaped := by
      rw [mem_reaped] at member ⊢
      obtain ⟨family, member⟩ := member
      refine ⟨family, ?_⟩
      by_cases here : family = ip
      · subst here
        unfold listRtTbl setSet at member
        dsimp only at member
        rw [update_self] at member
        exact member
      · unfold listRtTbl setSet at member
        dsimp only at member
        rwa [update_of_ne here] at member
    have different : other ≠ tbl := by
      rintro rfl
      exact unknown there
    have apart := books.reaped other there
    rw [more.mem_iff, mem_cons, others other different]
    exact ⟨not_or.mpr ⟨different, apart.1⟩, apart.2⟩
  · intro family
    have same : SetBooks cfg ((s.setTbl tbl table).listRtTbl ip tbl idx id).tbls family (s.sets family) := by
      refine (books.sets family).congr (fun other member => ?_) fun other member => ?_
      all_goals rw [others other (old other (mem_listed.mpr ⟨family, member⟩))]
    by_cases here : family = ip
    · subst here
      have ofFamily : (((s.setTbl tbl table).listRtTbl family tbl idx id).tbls tbl).ip = family := by
        rw [atTbl, mine]
      have one := same.list free ofFamily (by rw [atTbl, index])
      unfold listRtTbl setSet
      dsimp only
      rw [update_self]
      exact one
    · unfold listRtTbl setSet
      dsimp only
      rw [update_of_ne here]
      exact same

theorem unlist (mem : tbl ∈ (s.sets ip).headRtTblList) (empty : (s.tbls tbl).rules = []) :
    (s.unlistRtTbl ip tbl).TblBooks cfg := by
  have changed : (s.unlistRtTbl ip tbl).sets ip =
      { headRtTblList := (s.sets ip).headRtTblList.erase tbl
        tblCnt := (s.sets ip).tblCnt - 1
        rtIdxBitmap := update (s.sets ip).rtIdxBitmap (s.tbls tbl).idx false
        reapRtTblList :=
          if (s.tbls tbl).inSys then tbl :: (s.sets ip).reapRtTblList else (s.sets ip).reapRtTblList } :=
    update_self _ _ _
  have same (other : IpaIpType) (different : other ≠ ip) :
      (s.unlistRtTbl ip tbl).sets other = s.sets other := update_of_ne different _ _
  have fewer := unlistRtTbl_listed mem
  have gone : tbl ∉ (s.unlistRtTbl ip tbl).listed :=
    (nodup_cons.mp (fewer.nodup_iff.mp books.holding.owners_nodup)).1
  have before (other : Nat) (member : other ∈ (s.unlistRtTbl ip tbl).listed) : other ∈ s.listed :=
    fewer.mem_iff.mpr (mem_cons_of_mem _ member)
  constructor
  · exact (books.holding.perm fewer).leave empty
  · exact fun other member => books.home other (before other member)
  · exact fun other member => books.ruleCnt other (before other member)
  · intro other member
    have known : other = tbl ∨ other ∈ s.reaped := by
      rw [mem_reaped] at member
      obtain ⟨family, member⟩ := member
      by_cases here : family = ip
      · subst here
        rw [changed] at member
        split at member
        · obtain rfl | member := mem_cons.mp member
          · exact .inl rfl
          · exact .inr (mem_reaped.mpr ⟨family, member⟩)
        · exact .inr (mem_reaped.mpr ⟨family, member⟩)
      · rw [same family here] at member
        exact .inr (mem_reaped.mpr ⟨family, member⟩)
    obtain rfl | known := known
    · have count := books.ruleCnt other (mem_listed.mpr ⟨ip, mem⟩)
      rw [empty] at count
      exact ⟨gone, empty, count⟩
    · have apart := books.reaped other known
      exact ⟨fun member => apart.1 (before other member), apart.2⟩
  · intro family
    by_cases here : family = ip
    · subst here
      rw [changed]
      exact (books.sets family).unlist mem
    · rw [same family here]
      exact books.sets family

end

end TblBooks

end RtState

end KernelModules.IpaRouting

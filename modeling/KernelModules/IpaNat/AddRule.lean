import KernelModules.IpaNat.Sound

namespace KernelModules.IpaNat

open Data List IpaTable

/-! # What adding a rule does

A call of `ipa_NATI_add_ipv4_rule` on chained tables appends one record to each, or fails and hands them back.
-/

section Posting

variable {env : Environment} {cache : IpaNatIp4TableCache} {one : IpaIocNatDmaOne}

theorem postedBy_disjoint (posted : postedBy (entryInterface env) one) : ¬ postedBy indexEntryInterface one := by
  rcases posted with base | expn
  · simp [postedBy, base, entryInterface, indexEntryInterface]
  · simp [postedBy, expn, entryInterface, indexEntryInterface]

theorem foldl_nat (cmd : List IpaIocNatDmaOne) (posted : ∀ one ∈ cmd, postedBy (entryInterface env) one) :
    cmd.foldl (·.dmaWrite env) cache = ⟨cmd.foldl (·.dmaWrite (entryInterface env)) cache.table, cache.indexTable⟩ := by
  induction cmd generalizing cache with
  | nil => rfl
  | cons one rest ih =>
    have foreign : cache.indexTable.dmaWrite indexEntryInterface one = cache.indexTable :=
      dmaWrite_foreign (postedBy_disjoint (posted one mem_cons_self))
    rw [foldl_cons, ih fun other mem => posted other (mem_cons_of_mem _ mem)]
    rw [IpaNatIp4TableCache.dmaWrite, foreign, foldl_cons]

theorem foldl_index (cmd : List IpaIocNatDmaOne) (posted : ∀ one ∈ cmd, postedBy indexEntryInterface one) :
    cmd.foldl (·.dmaWrite env) cache = ⟨cache.table, cmd.foldl (·.dmaWrite indexEntryInterface) cache.indexTable⟩ := by
  induction cmd generalizing cache with
  | nil => rfl
  | cons one rest ih =>
    have foreign : cache.table.dmaWrite (entryInterface env) one = cache.table :=
      dmaWrite_foreign fun nat => postedBy_disjoint nat (posted one mem_cons_self)
    rw [foldl_cons, ih fun other mem => posted other (mem_cons_of_mem _ mem)]
    rw [IpaNatIp4TableCache.dmaWrite, foreign, foldl_cons]

end Posting

section Storing

variable {env : Environment} {table : IpaTable IpaNatRule}
  {indexTable : IpaTable IpaNatIndxTblRule} {head : Nat → Nat} {start slot last : Nat}

def natRecord (env : Environment) (clntRule : IpaNatIpv4Rule) (indxTblEntry : Nat) : IpaNatRule :=
  { tableEntryCopyFromUser env .empty clntRule with
    indxTblEntry := indxTblEntry
    redirect := false
    enable := true
    timeStamp := clntRule.timeStamp.setWidth 24 }

theorem natRecord_enabled (env : Environment) (clntRule : IpaNatIpv4Rule) (indxTblEntry : Nat)
    (copied : rule = tableEntryCopyFromUser env .empty clntRule ∨ ∃ prevIndex, rule =
        tableEntrySetPrevIndex (tableEntryCopyFromUser env .empty clntRule) prevIndex) :
    (driverFields clntRule indxTblEntry rule).dmaWrite ipaNatRuleFlagFieldOffset
        (tableEntryHeadInsert env .empty clntRule).2 =
      tableEntrySetPrevIndex (natRecord env clntRule indxTblEntry) rule.prevIndex := by
  unfold IpaNatRule.dmaWrite tableEntryHeadInsert
  simp only [if_true, IpaNatFlags.ofNat_toNat]
  rcases copied with here | ⟨prevIndex, after⟩
  · rw [here]
    rfl
  · rw [after]
    rfl

theorem natInsertion_stored (withoutMeta : table.hasMeta = false)
    (placed : Placed (entryInterface env) table head start slot last)
    (blank : table.slots slot = .empty) (apart : last ≠ slot) (clntRule : IpaNatIpv4Rule)
    (indxTblEntry : Nat) (cmd : List IpaIocNatDmaOne) :
    let inserted := (insertion (entryInterface env) table slot last clntRule cmd).table
    (insertionCmd (entryInterface env) table slot last clntRule).foldl (·.dmaWrite (entryInterface env))
        (inserted.put slot (driverFields clntRule indxTblEntry (inserted.slots slot))) =
      table.append (entryInterface env) slot last (natRecord env clntRule indxTblEntry) := by
  have lawful := entryInterface_lawful env
  intro inserted
  have same : (inserted.put slot (driverFields clntRule indxTblEntry (inserted.slots slot))).tableEntries
      = table.tableEntries := by
    simp only [inserted, insertion]
    split <;> rfl
  by_cases new : last = 0
  · have low := (placed.alone new).2
    have alone := natRecord_enabled env clntRule indxTblEntry (.inl rfl)
    simp only [insertionCmd, new, if_true, foldl_cons, foldl_nil]
    rw [dmaWrite_dmaOne lawful same, append]
    ext
    all_goals simp [counted, low, writeField, inserted, insertion, insertHead, new]
    rw [blank]
    exact congrArg (fun entry => Function.update table.slots slot entry _) alone
  · have high := not_lt.mpr (placed.after new).1
    have after := natRecord_enabled env clntRule indxTblEntry (.inr ⟨last, rfl⟩)
    simp only [insertionCmd, new, if_false, withoutMeta, Bool.false_eq_true, foldl_cons, foldl_nil]
    rw [dmaWrite_dmaOne lawful same, dmaWrite_dmaOne lawful (by exact same), append]
    ext
    all_goals simp [counted, high, writeField, inserted, insertion, insertAfter,
      new, withoutMeta, setNextIndex, setPrevIndex, apart]
    · rw [blank]
      exact congrArg (fun entry => Function.update (Function.update table.slots slot entry) last _ _) after
    · rfl

theorem indexInsertion_stored (withMeta : indexTable.hasMeta = true)
    (placed : Placed indexEntryInterface indexTable head start slot last)
    (blank : indexTable.slots slot = ⟨0, 0⟩) (apart : last ≠ slot) (tblEntry : Nat)
    (cmd : List IpaIocNatDmaOne) : (insertionCmd indexEntryInterface indexTable slot last tblEntry).foldl
        (·.dmaWrite indexEntryInterface) (insertion indexEntryInterface indexTable slot last tblEntry cmd).table =
      indexTable.append indexEntryInterface slot last ⟨tblEntry, 0⟩ := by
  have lawful := indexEntryInterface_lawful
  have same : (insertion indexEntryInterface indexTable slot last tblEntry cmd).table.tableEntries
      = indexTable.tableEntries := by
    simp only [insertion]
    split <;> rfl
  by_cases new : last = 0
  · have low := (placed.alone new).2
    simp only [insertionCmd, new, if_true, foldl_cons, foldl_nil]
    rw [new] at same
    rw [dmaWrite_dmaOne lawful same, append]
    ext
    all_goals simp [counted, low, writeField, insertion, insertHead]
    rw [blank]
    rfl
  · have high := not_lt.mpr (placed.after new).1
    simp only [insertionCmd, new, if_false, withMeta, if_true, foldl_cons, foldl_nil]
    rw [dmaWrite_dmaOne lawful same, append]
    ext
    all_goals simp [counted, high, writeField, insertion, insertAfter, new, withMeta, setNextIndex, setPrevIndex, apart]
    · rw [blank]
      rfl
    · rfl

end Storing

section Starts

variable {driver : IpaNatDriver}

theorem maskHash_bounds {hash : BitVec 16} {tableEntries : Nat} (two : 2 ≤ tableEntries) :
    maskHash hash (tableEntries - 1) ≠ 0 ∧ maskHash hash (tableEntries - 1) < tableEntries := by
  have masked : hash.toNat &&& (tableEntries - 1) ≤ tableEntries - 1 := Nat.and_le_right
  unfold maskHash
  split <;> omega

theorem tokenIndex_bounds {hash tableEntries : Nat} (two : 2 ≤ tableEntries) :
    tokenIndex hash hashToken tableEntries ≠ 0 ∧ tokenIndex hash hashToken tableEntries < tableEntries := by
  have masked : (hash + hashToken) % 2 ^ 16 &&& (tableEntries - 1) ≤ tableEntries - 1 :=
    Nat.and_le_right
  unfold tokenIndex
  dsimp only
  split <;> omega

theorem natStart_bounds (env : Environment) (clntRule : IpaNatIpv4Rule)
    (two : 2 ≤ driver.cache.table.tableEntries) : natStart env driver clntRule ≠ 0 ∧
      natStart env driver clntRule < driver.cache.table.tableEntries := by
  unfold natStart
  split
  · exact tokenIndex_bounds two
  · exact maskHash_bounds two

theorem indexStart_bounds (clntRule : IpaNatIpv4Rule) (two : 2 ≤ driver.cache.table.tableEntries) :
    indexStart driver clntRule ≠ 0 ∧ indexStart driver clntRule < driver.cache.table.tableEntries := by
  unfold indexStart
  split
  · exact tokenIndex_bounds two
  · exact maskHash_bounds two

end Starts

def BadArguments (env : Environment) (clntRule : IpaNatIpv4Rule) : Prop :=
  clntRule.protocol = ipahalNatInvalidProtocol ∨ ipaMaxPdnNum ≤ clntRule.pdnIndex.toNat ∨
    env.pdns clntRule.pdnIndex.toNat = 0

def Full {Entry User : Type} (iface : IpaTableEntryInterface Entry User)
    (table : IpaTable Entry) (start : Nat) : Prop :=
  (table.links iface).valid start = true ∧ ∀ index, table.tableEntries ≤ index → index < table.totTblEnts →
      (table.links iface).valid index = true

def IpaNatIp4TableCache.stored (env : Environment) (cache : IpaNatIp4TableCache)
    (clntRule : IpaNatIpv4Rule) (slot last index lastIndex : Nat) : IpaNatIp4TableCache :=
  ⟨cache.table.append (entryInterface env) slot last
      (natRecord env clntRule index),
    cache.indexTable.append indexEntryInterface index lastIndex ⟨slot, 0⟩⟩

def IpaNatIp4TableCache.takenBack (cache : IpaNatIp4TableCache) (slot index lastIndex : Nat) :
    IpaNatIp4TableCache :=
  let inserted := insertion indexEntryInterface cache.indexTable index lastIndex slot []
  ⟨cache.table, { cache.indexTable with metaPrevIndex := inserted.table.metaPrevIndex }⟩

/-- All that a call of `ipa_NATI_add_ipv4_rule` can do. -/
inductive AddRun (env : Environment) (driver : IpaNatDriver) (clntRule : IpaNatIpv4Rule)
    (head indexHead : Nat → Nat) : Bool → AddResult → Prop where
  | badArguments {dmaOk : Bool} (bad : BadArguments env clntRule) :
      AddRun env driver clntRule head indexHead dmaOk ⟨-einval, 0, driver⟩
  | natFull {dmaOk : Bool} (good : ¬ BadArguments env clntRule)
      (full : Full (entryInterface env) driver.cache.table
        (natStart env driver clntRule)) :
      AddRun env driver clntRule head indexHead dmaOk
        ⟨-1, 0, ⟨driver.cache, tokenAfterNat driver clntRule⟩⟩
  | indexFull {dmaOk : Bool} {slot last : Nat} (good : ¬ BadArguments env clntRule)
      (placed : Placed (entryInterface env) driver.cache.table head
        (natStart env driver clntRule) slot last)
      (full : Full indexEntryInterface driver.cache.indexTable (indexStart driver clntRule)) :
      AddRun env driver clntRule head indexHead dmaOk
        ⟨-1, 0, ⟨driver.cache, tokenAfterIndex driver clntRule⟩⟩
  | notPosted {slot last index lastIndex : Nat} (good : ¬ BadArguments env clntRule)
      (placed : Placed (entryInterface env) driver.cache.table head
        (natStart env driver clntRule) slot last)
      (indexPlaced : Placed indexEntryInterface driver.cache.indexTable indexHead
        (indexStart driver clntRule) index lastIndex) :
      AddRun env driver clntRule head indexHead false
        ⟨-eio, 0, ⟨driver.cache.takenBack slot index lastIndex, tokenAfterIndex driver clntRule⟩⟩
  | stored {slot last index lastIndex : Nat} (good : ¬ BadArguments env clntRule)
      (placed : Placed (entryInterface env) driver.cache.table head
        (natStart env driver clntRule) slot last)
      (indexPlaced : Placed indexEntryInterface driver.cache.indexTable indexHead
        (indexStart driver clntRule) index lastIndex) :
      AddRun env driver clntRule head indexHead true
        ⟨0, makeEntryHdl driver.cache.table slot,
          ⟨driver.cache.stored env clntRule slot last index lastIndex, tokenAfterIndex driver clntRule⟩⟩

theorem makeEntryHdl_congr {table other : IpaTable Entry} (base : other.tableEntries = table.tableEntries)
    (nmi : other.nmi = table.nmi) : makeEntryHdl other slot = makeEntryHdl table slot := by
  rw [makeEntryHdl, makeEntryHdl, base, nmi]

theorem insertion_table_cmd (userData : User) (cmd : List IpaIocNatDmaOne) :
    (insertion iface table slot last userData cmd).table = (insertion iface table slot last userData []).table := by
  unfold insertion
  split <;> rfl

theorem natInsertion_erased {head : Nat → Nat} (placed : Placed (entryInterface env) table head start slot last)
    (blank : table.slots slot = .empty) (clntRule : IpaNatIpv4Rule) (cmd : List IpaIocNatDmaOne) :
    ipaTableEraseEntry (entryInterface env)
      (insertion (entryInterface env) table slot last clntRule cmd).table slot = table := by
  have kept : (insertion (entryInterface env) table slot last clntRule
      cmd).table.metaPrevIndex = table.metaPrevIndex := by
    unfold insertion
    split <;> rfl
  rw [placed.insertion_erased blank, kept]

theorem Placed.last_bounded {head : Nat → Nat} {start slot last : Nat}
    (placed : Placed iface table head start slot last) (chained : Chained iface table head rank) :
    last < table.totTblEnts ∧ last ≠ slot := by
  by_cases new : last = 0
  · rw [new]
    exact ⟨Nat.lt_of_le_of_lt (Nat.zero_le _) placed.bounded, placed.nonzero.symm⟩
  · have taken := (placed.after new).2.1
    refine ⟨(chained.linked.inRange last taken).2, fun same => ?_⟩
    rw [same, placed.free] at taken
    cases taken

theorem ipaNatiAddIpv4Rule_run {head : Nat → Nat} (sound : Sound env driver.cache head indexHead)
    (clntRule : IpaNatIpv4Rule) (dmaOk : Bool) : ∃ result, ipaNatiAddIpv4Rule env driver clntRule dmaOk = some result ∧
      AddRun env driver clntRule head indexHead dmaOk result := by
  obtain ⟨rank, chained⟩ := sound.chained
  obtain ⟨indexRank, indexChained⟩ := sound.indexChained
  have two := sound.geometry.two_le
  have start := natStart_bounds env clntRule two
  have indexStarts := indexStart_bounds clntRule two
  unfold ipaNatiAddIpv4Rule
  split
  · rename_i protocol
    exact ⟨_, rfl, .badArguments (.inl protocol)⟩
  rename_i protocol
  split
  · rename_i pdn
    exact ⟨_, rfl, .badArguments (.inr pdn)⟩
  rename_i pdn
  have good : ¬ BadArguments env clntRule := not_or.mpr ⟨protocol, pdn⟩
  rcases chained.addEntry start.1 start.2 clntRule [] with
    ⟨slot, last, placed, inserted⟩ | ⟨taken, full, failed⟩
  · have natIndex := insertion_recIndex (entryInterface env) driver.cache.table slot last clntRule []
    have erased := natInsertion_erased placed (chained.blank slot placed.free) clntRule []
    rw [inserted]
    simp only [natIndex]
    rcases indexChained.addEntry indexStarts.1 (by rw [sound.sameBase]; exact indexStarts.2) slot
      (insertion (entryInterface env) driver.cache.table slot last clntRule []).cmd with
      ⟨idx, lastIndex, indexPlaced, indexInserted⟩ | ⟨taken, full, failed⟩
    · rw [indexInserted]
      have found : ipaTableGetEntryByIndex (insertion (entryInterface env)
          driver.cache.table slot last clntRule []).table slot = some slot :=
        ipaTableGetEntryByIndex_some placed.nonzero (by simpa [totTblEnts] using placed.bounded)
      simp only [found, insertion_recIndex]
      cases dmaOk with
      | false =>
        have refused : -eio ≠ 0 := by decide
        simp only [ipaNatiPostIpv4DmaCmd, Bool.false_eq_true, if_false, refused, ne_eq,
          not_false_eq_true, if_true, ipaTableEraseEntry_put, erased]
        rw [indexPlaced.insertion_erased (indexChained.blank idx indexPlaced.free), insertion_table_cmd]
        exact ⟨_, rfl, .notPosted good placed indexPlaced⟩
      | true =>
        have lastBounds := placed.last_bounded chained
        have indexLastBounds := indexPlaced.last_bounded indexChained
        simp only [ipaNatiPostIpv4DmaCmd, if_true, ne_eq, not_true_eq_false, if_false]
        rw [insertion_cmd indexPlaced indexLastBounds.1, insertion_cmd placed lastBounds.1,
          nil_append, foldl_append, foldl_nat _ (insertionCmd_postedBy (entryInterface_lawful env) clntRule),
          foldl_index _ (insertionCmd_postedBy indexEntryInterface_lawful slot),
          natInsertion_stored sound.withoutMeta placed (chained.blank slot placed.free) lastBounds.2,
          indexInsertion_stored sound.withMeta indexPlaced (indexChained.blank idx indexPlaced.free) indexLastBounds.2,
          makeEntryHdl_congr (insertion_fields clntRule []).1 (insertion_fields clntRule []).2.2]
        exact ⟨_, rfl, .stored good placed indexPlaced⟩
    · rw [failed]
      simp only [erased]
      exact ⟨_, rfl, .indexFull good placed ⟨taken, full⟩⟩
  · rw [failed]
    exact ⟨_, rfl, .natFull good ⟨taken, full⟩⟩

end KernelModules.IpaNat

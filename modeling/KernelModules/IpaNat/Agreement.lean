import KernelModules.IpaNat.StaleHandle

namespace KernelModules.IpaNat

open Data Function IpaTable IpaNat

/-! # What no call can tell apart

Two drivers that differ only in the previous indices of unoccupied index records, or in the hash token of base
tables with two records, answer alike.
-/

section Previous

variable {Entry User : Type}

def IpaTable.withPrev (table : IpaTable Entry) (previous : Nat → Nat) : IpaTable Entry :=
  { table with metaPrevIndex := previous }

variable (iface : IpaTableEntryInterface Entry User) (table : IpaTable Entry)
  (previous : Nat → Nat)

theorem ipaTableIteratorEnd_withPrev (rounds index : Nat) :
    ipaTableIteratorEnd iface (table.withPrev previous) rounds index =
      ipaTableIteratorEnd iface table rounds index := by
  induction rounds generalizing index with
  | zero => rfl
  | succ rounds ih =>
    unfold ipaTableIteratorEnd
    dsimp only
    rw [ih]
    rfl

theorem ipaTableWalkLoop_withPrev (when2cb : When2Callback)
    (walkCb : Nat → Entry → Nat → Arb → Option (Int × Arb)) (indices : List Nat) (arb : Arb) :
    ipaTableWalkLoop iface (table.withPrev previous) when2cb walkCb indices arb =
      ipaTableWalkLoop iface table when2cb walkCb indices arb := by
  induction indices generalizing arb with
  | nil => rfl
  | cons index rest ih =>
    unfold ipaTableWalkLoop
    simp only [ih]
    rfl

theorem findExpnTblFreeEntry_withPrev : findExpnTblFreeEntry iface (table.withPrev previous) =
      findExpnTblFreeEntry iface table := by
  unfold findExpnTblFreeEntry ipaTableWalk
  simp only [ipaTableWalkLoop_withPrev]
  rfl

end Previous

def PrevAgrees (table : IpaTable IpaNatIndxTblRule) (previous : Nat → Nat) : Prop :=
  ∀ index, table.tableEntries ≤ index → (table.slots index).tblEntry ≠ 0 →
    previous (index - table.tableEntries) = table.metaPrevIndex (index - table.tableEntries)

section Index

variable {table : IpaTable IpaNatIndxTblRule} {previous : Nat → Nat}

section

variable (agrees : PrevAgrees table previous)
include agrees

theorem PrevAgrees.fewer (base : after.tableEntries = table.tableEntries)
    (same : after.metaPrevIndex = table.metaPrevIndex)
    (fewer : ∀ index, table.tableEntries ≤ index → (table.slots index).tblEntry = 0 →
      (after.slots index).tblEntry = 0) : PrevAgrees after previous := by
  intro index high taken
  rw [base] at high ⊢
  rw [same]
  exact agrees index high (mt (fewer index high) taken)

theorem PrevAgrees.occupy (slots : ∀ other, other ≠ index → (after.slots other).tblEntry = (table.slots other).tblEntry)
    (base : after.tableEntries = table.tableEntries) (prevIndex : Nat) (same : after.metaPrevIndex =
      indexTableEntrySetPrevIndex index prevIndex table.metaPrevIndex table.tableEntries) :
    PrevAgrees after (indexTableEntrySetPrevIndex index prevIndex previous table.tableEntries) := by
  intro other high taken
  rw [base] at high ⊢
  rw [same]
  unfold indexTableEntrySetPrevIndex
  by_cases here : other = index
  · rw [← here, if_pos high, if_pos high, update_self, update_self]
  have apart : table.tableEntries ≤ index → other - table.tableEntries ≠ index - table.tableEntries := by omega
  rw [slots other here] at taken
  have old := agrees other high taken
  split
  · rename_i indexHigh
    rw [update_of_ne (apart indexHigh), update_of_ne (apart indexHigh), old]
  · exact old

theorem ipaTableIteratorInit_withPrev : ipaTableIteratorInit indexEntryInterface (table.withPrev previous) index =
      ipaTableIteratorInit indexEntryInterface table index := by
  by_cases taken : (table.slots index).tblEntry = 0
  · have invalid : indexEntryInterface.entryIsValid (table.slots index) = false := by
      simp [indexEntryInterface, indexTableEntryIsValid, taken]
    have otherInvalid : indexEntryInterface.entryIsValid ((table.withPrev previous).slots index) = false := invalid
    simp [ipaTableIteratorInit, invalid, otherInvalid]
  have same : indexTableEntryGetPrevIndex index previous table.tableEntries =
      indexTableEntryGetPrevIndex index table.metaPrevIndex table.tableEntries := by
    unfold indexTableEntryGetPrevIndex
    split
    · rename_i high
      exact agrees index high taken
    · rfl
  unfold ipaTableIteratorInit
  simp only [indexEntryInterface, withPrev, same]
  rfl

theorem insertAfter_withPrev (withMeta : table.hasMeta = true) (prevIndex index userData : Nat)
    (cmd : List IpaIocNatDmaOne) : ∃ otherPrevious,
      insertAfter indexEntryInterface (table.withPrev previous) prevIndex index userData cmd =
        ⟨(insertAfter indexEntryInterface table prevIndex index userData cmd).table.withPrev
          otherPrevious, index, (insertAfter indexEntryInterface table prevIndex index userData cmd).cmd⟩ ∧
      PrevAgrees (insertAfter indexEntryInterface table prevIndex index userData cmd).table otherPrevious := by
  refine ⟨indexTableEntrySetPrevIndex index prevIndex previous table.tableEntries, ?_,
    agrees.occupy (fun other apart => ?_) ?_ prevIndex ?_⟩
  · rfl
  · simp only [insertAfter, withMeta, if_true, put]
    rw [update_of_ne apart]
  · rfl
  · rfl

theorem ipaTableAddEntry_withPrev (withMeta : table.hasMeta = true)
    (low : start < table.tableEntries) (userData : Nat) (cmd : List IpaIocNatDmaOne) :
    (ipaTableAddEntry indexEntryInterface table start userData cmd = none ∧
        ipaTableAddEntry indexEntryInterface (table.withPrev previous) start userData cmd = none) ∨
      (∃ ret, ipaTableAddEntry indexEntryInterface table start userData cmd = some (.error ret) ∧
        ipaTableAddEntry indexEntryInterface (table.withPrev previous) start userData cmd = some (.error ret)) ∨
      ∃ inserted otherPrevious, ipaTableAddEntry indexEntryInterface table start userData cmd = some (.ok inserted) ∧
        ipaTableAddEntry indexEntryInterface (table.withPrev previous) start userData cmd =
          some (.ok ⟨inserted.table.withPrev otherPrevious, inserted.recIndex, inserted.cmd⟩) ∧
        PrevAgrees inserted.table otherPrevious ∧
        inserted.table.tableEntries = table.tableEntries ∧ inserted.table.hasMeta = true := by
  unfold ipaTableAddEntry
  split
  · rename_i filled
    have otherFilled : indexEntryInterface.entryIsValid ((table.withPrev previous).slots start) = true := filled
    rw [if_pos otherFilled]
    unfold insertTail
    rw [findExpnTblFreeEntry_withPrev, ipaTableIteratorEnd_withPrev]
    have sameTotal : (table.withPrev previous).totTblEnts = table.totTblEnts := rfl
    rw [sameTotal]
    cases ipaTableIteratorEnd indexEntryInterface table table.totTblEnts start with
    | none => exact .inl ⟨rfl, rfl⟩
    | some ended =>
      cases ended with
      | error ret => exact .inr (.inl ⟨ret, rfl, rfl⟩)
      | ok prevIndex =>
        cases findExpnTblFreeEntry indexEntryInterface table with
        | error ret => exact .inr (.inl ⟨ret, rfl, rfl⟩)
        | ok currIndex =>
          obtain ⟨otherPrevious, other, agree⟩ :=
            insertAfter_withPrev agrees withMeta prevIndex currIndex userData cmd
          refine .inr (.inr ⟨_, otherPrevious, rfl, ?_, agree, rfl, withMeta⟩)
          exact congrArg (fun inserted => some (Except.ok inserted)) other
  · rename_i free
    have otherFree : ¬ indexEntryInterface.entryIsValid ((table.withPrev previous).slots start) = true := free
    rw [if_neg otherFree]
    refine .inr (.inr ⟨_, previous, rfl, rfl, ?_, rfl, withMeta⟩)
    refine agrees.fewer rfl rfl fun other high => ?_
    have apart : other ≠ start := by omega
    intro before
    simp [insertHead, put, update_of_ne apart, before]

end

end Index

section Writes

variable {table : IpaTable IpaNatIndxTblRule} {base keep index : Nat} {one : IpaIocNatDmaOne}

def Still (base keep : Nat) (one : IpaIocNatDmaOne) : Prop :=
  ∀ table : IpaTable IpaNatIndxTblRule, table.tableEntries = base → ∀ index, base ≤ index →
    index ≠ keep → (table.slots index).tblEntry = 0 →
      ((table.dmaWrite indexEntryInterface one).slots index).tblEntry = 0

theorem dmaWrite_fields (iface : IpaTableEntryInterface Entry User) (table : IpaTable Entry)
    (one : IpaIocNatDmaOne) : (table.dmaWrite iface one).tableEntries = table.tableEntries ∧
      (table.dmaWrite iface one).hasMeta = table.hasMeta ∧
      (table.dmaWrite iface one).metaPrevIndex = table.metaPrevIndex := by
  unfold dmaWrite
  dsimp only
  split
  · exact ⟨rfl, rfl, rfl⟩
  · split
    · exact ⟨rfl, rfl, rfl⟩
    · exact ⟨rfl, rfl, rfl⟩

theorem dmaWrite_withPrev : (table.withPrev previous).dmaWrite indexEntryInterface one =
    (table.dmaWrite indexEntryInterface one).withPrev previous := by
  unfold dmaWrite
  dsimp only
  split
  · rfl
  · split
    · rfl
    · rfl

theorem Still.agrees (still : Still table.tableEntries keep one) (agrees : PrevAgrees table previous)
    (kept : table.tableEntries ≤ keep →
      previous (keep - table.tableEntries) = table.metaPrevIndex (keep - table.tableEntries)) :
    PrevAgrees (table.dmaWrite indexEntryInterface one) previous := by
  have fields := dmaWrite_fields indexEntryInterface table one
  intro index high taken
  rw [fields.1] at high ⊢
  rw [fields.2.2]
  by_cases same : index = keep
  · rw [same] at high ⊢
    exact kept high
  · exact agrees index high (mt (still table rfl index high same) taken)

theorem still_foreign (foreign : ¬ postedBy indexEntryInterface one) : Still base keep one := by
  intro table _ index _ _ free
  rw [dmaWrite_foreign foreign]
  exact free

theorem still_next (same : table.tableEntries = base) :
    Still base keep (dmaOne indexEntryInterface table .updateEntry index data) := by
  intro another anotherBase other _ _ free
  rw [dmaWrite_dmaOne indexEntryInterface_lawful (anotherBase.trans same.symm)]
  by_cases here : other = index
  · rw [here] at free ⊢
    simpa [writeField, indexEntryInterface, IpaNatIndxTblRule.dmaWrite,
      ipaNatIndexRuleNextFieldOffset, ipaNatIndexRuleNatIndexFieldOffset] using free
  · simpa [writeField, here] using free

theorem still_entry (same : table.tableEntries = base)
    (harmless : index < base ∨ index = keep ∨ data = 0) (help : DmaHelpType)
    (field : (indexEntryInterface.dmaHelp help).offset = ipaNatIndexRuleNatIndexFieldOffset) :
    Still base keep (dmaOne indexEntryInterface table help index data) := by
  intro another anotherBase other high apart free
  rw [dmaWrite_dmaOne indexEntryInterface_lawful (anotherBase.trans same.symm), field]
  by_cases here : other = index
  · have zero : data = 0 := (harmless.resolve_left (by omega)).resolve_left (by omega)
    rw [here, zero]
    simp [writeField, put, indexEntryInterface, IpaNatIndxTblRule.dmaWrite]
  · simpa [writeField, here] using free

theorem mem_addDmaCmd {table : IpaTable Entry} {data : Nat}
    (mem : one ∈ ipaTableAddDmaCmd iface table help index data cmd) :
    one ∈ cmd ∨ one = dmaOne iface table help index data := by
  unfold ipaTableAddDmaCmd dmaOne at *
  split at mem
  · exact .inl mem
  · split at mem
    · rename_i high
      rw [if_pos high]
      simpa using mem
    · rename_i low
      rw [if_neg low]
      simpa using mem

theorem posted_withPrev {cmd : List IpaIocNatDmaOne} (env : Environment)
    (still : ∀ one ∈ cmd, Still cache.indexTable.tableEntries keep one)
    (agrees : PrevAgrees cache.indexTable previous) (kept : cache.indexTable.tableEntries ≤ keep →
      previous (keep - cache.indexTable.tableEntries) =
        cache.indexTable.metaPrevIndex (keep - cache.indexTable.tableEntries)) :
    let write (cache : IpaNatIp4TableCache) (one : IpaIocNatDmaOne) := cache.dmaWrite env one
    let posted := cmd.foldl write cache
    cmd.foldl write ⟨cache.table, cache.indexTable.withPrev previous⟩ =
        ⟨posted.table, posted.indexTable.withPrev previous⟩ ∧
      PrevAgrees posted.indexTable previous ∧ posted.table.tableEntries = cache.table.tableEntries ∧
      posted.indexTable.tableEntries = cache.indexTable.tableEntries ∧
      posted.indexTable.hasMeta = cache.indexTable.hasMeta := by
  induction cmd generalizing cache with
  | nil => exact ⟨rfl, agrees, rfl, rfl, rfl⟩
  | cons one rest ih =>
    have fields := dmaWrite_fields (entryInterface env) cache.table one
    have indexFields := dmaWrite_fields indexEntryInterface cache.indexTable one
    have first := (still one List.mem_cons_self).agrees agrees kept
    have later (other : IpaIocNatDmaOne) (mem : other ∈ rest) :
        Still (cache.dmaWrite env one).indexTable.tableEntries keep other := by
      have kept := still other (List.mem_cons_of_mem _ mem)
      rw [← indexFields.1] at kept
      exact kept
    obtain ⟨same, agree, base, indexBase, withMeta⟩ :=
      ih later first (by rw [← indexFields.1, ← indexFields.2.2] at kept; exact kept)
    refine ⟨?_, agree, base.trans fields.1, indexBase.trans indexFields.1, withMeta.trans indexFields.2.1⟩
    rw [List.foldl_cons, List.foldl_cons, ← same]
    rw [IpaNatIp4TableCache.dmaWrite, dmaWrite_withPrev]
    rfl

end Writes

section Commands

variable {Entry User Payload : Type}

theorem mem_addEntry {inserted : Insertion Entry}
    (added : ipaTableAddEntry iface table start userData cmd = some (.ok inserted))
    (mem : one ∈ inserted.cmd) : one ∈ cmd ∨ (∃ data, one = dmaOne iface table .updateHead start data) ∨
      (table.hasMeta = false ∧ ∃ index data, one = dmaOne iface table .updateHead index data) ∨
      ∃ index data, one = dmaOne iface table .updateEntry index data := by
  unfold ipaTableAddEntry at added
  split at added
  · unfold insertTail at added
    split at added
    · cases added
    · cases added
    · split at added
      · cases added
      · cases added
        rcases mem_addDmaCmd mem with older | linked
        · cases withMeta : table.hasMeta with
          | false =>
            rw [withMeta] at older
            rcases mem_addDmaCmd older with before | enabled
            · exact .inl before
            · exact .inr (.inr (.inl ⟨rfl, _, _, enabled⟩))
          | true =>
            rw [withMeta] at older
            exact .inl older
        · exact .inr (.inr (.inr ⟨_, _, linked⟩))
  · cases added
    rcases mem_addDmaCmd mem with before | enabled
    · exact .inl before
    · exact .inr (.inl ⟨_, enabled⟩)

theorem addEntry_foreign {table : IpaTable IpaNatRule}
    (added : ipaTableAddEntry (entryInterface env) table start clntRule [] =
      some (.ok inserted)) (mem : one ∈ inserted.cmd) : ¬ postedBy indexEntryInterface one := by
  have posted (help : DmaHelpType) (index data : Nat) :
      ¬ postedBy indexEntryInterface (dmaOne (entryInterface env) table help index data) :=
    postedBy_disjoint (dmaOne_postedBy (entryInterface_lawful env) help data)
  rcases mem_addEntry added mem with older | ⟨_, head⟩ | ⟨_, _, _, tail⟩ | ⟨_, _, link⟩
  · cases older
  · exact head ▸ posted _ _ _
  · exact tail ▸ posted _ _ _
  · exact link ▸ posted _ _ _

theorem mem_createDeleteCommand {iterator : IpaTableIterator}
    (mem : one ∈ ipaTableCreateDeleteCommand iface table iterator cmd) :
    one ∈ cmd ∨ (∃ data, one = dmaOne iface table .deleteHead iterator.currIndex data) ∨
      one = dmaOne iface table .updateHead iterator.currIndex 0 ∨
      ∃ index data, one = dmaOne iface table .updateEntry index data := by
  unfold ipaTableCreateDeleteCommand at mem
  split at mem
  · split at mem
    · rcases mem_addDmaCmd mem with older | deleted
      · exact .inl older
      · exact .inr (.inl ⟨_, deleted⟩)
    · rcases mem_addDmaCmd mem with older | cleared
      · exact .inl older
      · exact .inr (.inr (.inl cleared))
  · rcases mem_addDmaCmd mem with older | linked
    · exact .inl older
    · exact .inr (.inr (.inr ⟨_, _, linked⟩))

end Commands

structure Agrees (driver other : IpaNatDriver) : Prop where
  table : other.cache.table = driver.cache.table
  two : 2 ≤ driver.cache.table.tableEntries
  base : driver.cache.indexTable.tableEntries = driver.cache.table.tableEntries
  withMeta : driver.cache.indexTable.hasMeta = true
  index : ∃ previous, other.cache.indexTable = driver.cache.indexTable.withPrev previous ∧
    PrevAgrees driver.cache.indexTable previous
  token : other.hashToken = driver.hashToken ∨ driver.cache.table.tableEntries = 2

section Starts

variable {driver other : IpaNatDriver}

theorem tokenIndex_two (hash hashToken : Nat) : tokenIndex hash hashToken 2 = 1 := by
  have masked : (hash + hashToken) % 2 ^ 16 &&& (2 - 1) ≤ 1 := Nat.and_le_right
  unfold tokenIndex
  dsimp only
  split <;> omega

theorem Agrees.sameNatStart (agrees : Agrees driver other) (env : Environment) (clntRule : IpaNatIpv4Rule) :
    natStart env other clntRule = natStart env driver clntRule := by
  unfold natStart
  rw [agrees.table]
  rcases agrees.token with same | two
  · rw [same]
  · simp [two, tokenIndex_two]

section

variable (agrees : Agrees driver other) (clntRule : IpaNatIpv4Rule)
include agrees clntRule

theorem Agrees.sameTokenAfterNat : tokenAfterNat other clntRule = tokenAfterNat driver clntRule ∨
      driver.cache.table.tableEntries = 2 := by
  refine agrees.token.imp_left fun same => ?_
  unfold tokenAfterNat
  rw [same]

theorem Agrees.sameIndexStart : indexStart other clntRule = indexStart driver clntRule := by
  unfold indexStart
  rw [agrees.table]
  rcases agrees.sameTokenAfterNat clntRule with same | two
  · rw [same]
  · simp [two, tokenIndex_two]

theorem Agrees.sameTokenAfterIndex : tokenAfterIndex other clntRule = tokenAfterIndex driver clntRule ∨
      driver.cache.table.tableEntries = 2 := by
  rcases agrees.sameTokenAfterNat clntRule with same | two
  · unfold tokenAfterIndex
    rw [same]
    exact .inl rfl
  · exact .inr two

end

theorem PrevAgrees.erased (agrees : PrevAgrees table previous) (index : Nat) :
    PrevAgrees (ipaTableEraseEntry indexEntryInterface table index) previous := by
  have fields := @ipaTableEraseEntry_fields _ _ indexEntryInterface table index
  refine agrees.fewer fields.1 fields.2.2.2.2.1 fun other _ free => ?_
  rw [fields.2.2.2.2.2]
  by_cases same : other = index
  · rw [same, update_self]
    rfl
  · rw [update_of_ne same]
    exact free

theorem eraseEntry_withPrev (table : IpaTable IpaNatIndxTblRule) (previous : Nat → Nat) (index : Nat) :
    ipaTableEraseEntry indexEntryInterface (table.withPrev previous) index =
      (ipaTableEraseEntry indexEntryInterface table index).withPrev previous := by
  unfold ipaTableEraseEntry
  split
  · rename_i low
    rw [if_pos (by exact low)]
    rfl
  · rename_i high
    rw [if_neg (by exact high)]
    rfl

end Starts

section Adding

variable {driver other : IpaNatDriver}

theorem addEntry_tableEntries (added : ipaTableAddEntry iface table start userData cmd = some (.ok inserted)) :
    inserted.table.tableEntries = table.tableEntries := by
  unfold ipaTableAddEntry at added
  split at added
  · unfold insertTail at added
    split at added
    · cases added
    · cases added
    · split at added
      · cases added
      · cases added
        rfl
  · cases added
    rfl

inductive Alike : Option AddResult → Option AddResult → Prop where
  | hangs : Alike none none
  | answers {ret : Int} {ruleHdl : Nat} {driver other : IpaNatDriver}
      (agrees : Agrees driver other) : Alike (some ⟨ret, ruleHdl, driver⟩) (some ⟨ret, ruleHdl, other⟩)

theorem Agrees.of {token : Nat} (two : 2 ≤ cache.table.tableEntries)
    (base : cache.indexTable.tableEntries = cache.table.tableEntries)
    (withMeta : cache.indexTable.hasMeta = true) (agree : PrevAgrees cache.indexTable previous)
    (tokens : token = hashToken ∨ cache.table.tableEntries = 2) :
    Agrees ⟨cache, hashToken⟩ ⟨⟨cache.table, cache.indexTable.withPrev previous⟩, token⟩ :=
  ⟨rfl, two, base, withMeta, ⟨previous, rfl, agree⟩, tokens⟩

theorem addedCmd_still {indexStart : Nat}
    (added : ipaTableAddEntry (entryInterface env) driver.cache.table start clntRule [] = some (.ok natInserted))
    (indexAdded : ipaTableAddEntry indexEntryInterface driver.cache.indexTable indexStart
      natInserted.recIndex natInserted.cmd = some (.ok indexInserted))
    (withMeta : driver.cache.indexTable.hasMeta = true) (low : indexStart < driver.cache.indexTable.tableEntries) :
    ∀ one ∈ indexInserted.cmd, Still indexInserted.table.tableEntries 0 one := by
  intro one mem
  rw [addEntry_tableEntries indexAdded]
  rcases mem_addEntry indexAdded mem with older | ⟨_, head⟩ | ⟨without, _⟩ | ⟨_, _, link⟩
  · exact still_foreign (addEntry_foreign added older)
  · rw [head]
    exact still_entry rfl (.inl low) .updateHead rfl
  · rw [withMeta] at without
    cases without
  · rw [link]
    exact still_next rfl

theorem Agrees.erased (cache : IpaNatIp4TableCache) {token slot index : Nat}
    (two : 2 ≤ cache.table.tableEntries) (base : cache.indexTable.tableEntries = cache.table.tableEntries)
    (withMeta : cache.indexTable.hasMeta = true) (agree : PrevAgrees cache.indexTable previous)
    (tokens : token = hashToken ∨ cache.table.tableEntries = 2) : Agrees
      ⟨⟨ipaTableEraseEntry (entryInterface env) cache.table slot,
        ipaTableEraseEntry indexEntryInterface cache.indexTable index⟩, hashToken⟩
      ⟨⟨ipaTableEraseEntry (entryInterface env) cache.table slot,
        ipaTableEraseEntry indexEntryInterface (cache.indexTable.withPrev previous) index⟩, token⟩ := by
  have fields := @ipaTableEraseEntry_fields _ _ (entryInterface env) cache.table slot
  have indexFields := @ipaTableEraseEntry_fields _ _ indexEntryInterface cache.indexTable index
  rw [eraseEntry_withPrev]
  refine .of ?_ ?_ (indexFields.2.2.2.1.trans withMeta) (agree.erased index) ?_
  · exact le_trans two (le_of_eq fields.1.symm)
  · exact indexFields.1.trans (base.trans fields.1.symm)
  · exact tokens.imp_right fields.1.trans

theorem Agrees.add (agrees : Agrees driver other) (env : Environment)
    (clntRule : IpaNatIpv4Rule) (dmaOk : Bool) : Alike (ipaNatiAddIpv4Rule env driver clntRule dmaOk)
      (ipaNatiAddIpv4Rule env other clntRule dmaOk) := by
  have two := agrees.two
  have base := agrees.base
  have withMeta := agrees.withMeta
  have starts := agrees.sameNatStart env clntRule
  have indexStarts := agrees.sameIndexStart clntRule
  have natToken := agrees.sameTokenAfterNat clntRule
  have indexToken := agrees.sameTokenAfterIndex clntRule
  obtain ⟨previous, sameIndex, same⟩ := agrees.index
  unfold ipaNatiAddIpv4Rule
  split
  · exact .answers agrees
  split
  · exact .answers agrees
  rw [starts, indexStarts, agrees.table, sameIndex]
  generalize added : ipaTableAddEntry (entryInterface env) driver.cache.table
    (natStart env driver clntRule) clntRule [] = insertion
  cases insertion with
  | none => exact .hangs
  | some insertion =>
  cases insertion with
  | error ret => 
    exact .answers ⟨agrees.table, two, base, withMeta, ⟨previous, sameIndex, same⟩, natToken⟩
  | ok inserted =>
  have natBase := addEntry_tableEntries added
  have low : indexStart driver clntRule < driver.cache.table.tableEntries :=
    (indexStart_bounds clntRule two).2
  rw [← base] at low
  rw [← natBase] at two base natToken indexToken
  dsimp only
  rcases ipaTableAddEntry_withPrev same withMeta low inserted.recIndex inserted.cmd with
    ⟨hangs, otherHangs⟩ | ⟨ret, fails, otherFails⟩ |
      ⟨indexInserted, otherPrevious, succeeds, otherSucceeds, agree, indexBase, indexMeta⟩
  · rw [hangs, otherHangs]
    exact .hangs
  · rw [fails, otherFails]
    have fields := @ipaTableEraseEntry_fields _ _ (entryInterface env) inserted.table inserted.recIndex
    rw [← fields.1] at two base indexToken
    exact .answers (.of two base withMeta same indexToken)
  have still := addedCmd_still added succeeds withMeta low
  rw [succeeds, otherSucceeds]
  rw [← indexBase] at base
  cases ipaTableGetEntryByIndex inserted.table inserted.recIndex with
  | none =>
    exact .answers (.erased ⟨inserted.table, indexInserted.table⟩ two base indexMeta agree indexToken)
  | some record =>
    dsimp only
    generalize ruled : inserted.table.put record (driverFields clntRule indexInserted.recIndex
      (inserted.table.slots record)) = table
    have ruledBase : table.tableEntries = inserted.table.tableEntries := by rw [← ruled]; rfl
    rw [← ruledBase] at two base indexToken
    cases dmaOk with
    | false =>
      exact .answers (.erased ⟨table, indexInserted.table⟩ two base indexMeta agree indexToken)
    | true =>
      have pos : 0 < indexInserted.table.tableEntries := by
        rw [base]
        exact lt_of_lt_of_le Nat.two_pos two
      have agreeing : PrevAgrees (IpaNatIp4TableCache.indexTable ⟨table, indexInserted.table⟩)
        otherPrevious := agree
      obtain ⟨posted, postedAgree, postedBase, postedIndexBase, postedMeta⟩ :=
        posted_withPrev env still agreeing (fun high => absurd pos (not_lt.mpr high))
      simp only [ipaNatiPostIpv4DmaCmd, if_true, ne_eq, not_true_eq_false, if_false]
      rw [posted]
      refine .answers (.of (le_trans two (le_of_eq postedBase.symm)) ?_
        (postedMeta.trans indexMeta) postedAgree (indexToken.imp_right postedBase.trans))
      exact postedIndexBase.trans (base.trans postedBase.symm)

end Adding

section Deleting

variable {table : IpaTable IpaNatIndxTblRule} {previous : Nat → Nat}

theorem deleteEntry_tableEntries (iface : IpaTableEntryInterface Entry User) (table : IpaTable Entry)
    (iterator : IpaTableIterator) (isPrevEmpty : Bool) :
    (ipaTableDeleteEntry iface table iterator isPrevEmpty).tableEntries = table.tableEntries ∧
      (ipaTableDeleteEntry iface table iterator isPrevEmpty).hasMeta = table.hasMeta := by
  unfold ipaTableDeleteEntry
  rw [ipaTableEraseEntry_fields.1, ipaTableEraseEntry_fields.2.2.2.1]
  split
  · exact ⟨rfl, rfl⟩
  · split
    · exact ⟨rfl, rfl⟩
    · exact ⟨rfl, rfl⟩

section

variable (agrees : PrevAgrees table previous)
include agrees

theorem PrevAgrees.setPrev (index prevIndex : Nat) : PrevAgrees (table.setPrevIndex indexEntryInterface index prevIndex)
      (indexTableEntrySetPrevIndex index prevIndex previous table.tableEntries) := by
  refine agrees.occupy (fun other apart => ?_) ?_ prevIndex ?_
  · exact congrArg IpaNatIndxTblRule.tblEntry (update_of_ne apart _ _)
  · rfl
  · rfl

theorem PrevAgrees.cleared (index : Nat) : ∃ otherPrevious, clearMetaPrevIndex (table.withPrev previous) index =
        (clearMetaPrevIndex table index).withPrev otherPrevious ∧
      PrevAgrees (clearMetaPrevIndex table index) otherPrevious := by
  refine ⟨indexTableEntrySetPrevIndex index 0 previous table.tableEntries, ?_,
    agrees.occupy (fun other _ => ?_) ?_ 0 ?_⟩
  all_goals
    by_cases high : table.tableEntries ≤ index <;>
      simp [clearMetaPrevIndex, withPrev, indexTableEntrySetPrevIndex, high]

theorem PrevAgrees.deleted (iterator : IpaTableIterator) : ∃ otherPrevious,
      ipaTableDeleteEntry indexEntryInterface (table.withPrev previous) iterator false =
        (ipaTableDeleteEntry indexEntryInterface table iterator false).withPrev otherPrevious ∧
      PrevAgrees (ipaTableDeleteEntry indexEntryInterface table iterator false) otherPrevious := by
  unfold ipaTableDeleteEntry
  split
  · refine ⟨_, ?_, (agrees.setPrev iterator.nextIndex iterator.prevIndex).erased _⟩
    rw [← eraseEntry_withPrev]
    rfl
  · exact ⟨previous, eraseEntry_withPrev _ _ _, agrees.erased _⟩

end

theorem delIpv4RulePosting_withPrev {keep : Nat} (cache : IpaNatIp4TableCache)
    (two : 2 ≤ cache.table.tableEntries) (base : cache.indexTable.tableEntries = cache.table.tableEntries)
    (withMeta : cache.indexTable.hasMeta = true) (agrees : PrevAgrees cache.indexTable previous)
    (tokens : token = hashToken ∨ cache.table.tableEntries = 2) (iterator indexIterator : IpaTableIterator)
    (still : ∀ one ∈ cmd, Still cache.indexTable.tableEntries keep one)
    (kept : cache.indexTable.tableEntries ≤ keep → previous (keep - cache.indexTable.tableEntries) =
        cache.indexTable.metaPrevIndex (keep - cache.indexTable.tableEntries)) :
    let out := delIpv4RulePosting env cache iterator indexIterator cmd dmaOk
    let other := delIpv4RulePosting env
      ⟨cache.table, cache.indexTable.withPrev previous⟩ iterator indexIterator cmd dmaOk
    other.1 = out.1 ∧ Agrees ⟨out.2, hashToken⟩ ⟨other.2, token⟩ := by
  have allStill : ∀ one ∈ ipaTableCreateDeleteCommand (entryInterface env) cache.table
      iterator cmd, Still cache.indexTable.tableEntries keep one := by
    intro one mem
    have foreign (help : DmaHelpType) (index data : Nat) : ¬ postedBy indexEntryInterface
        (dmaOne (entryInterface env) cache.table help index data) :=
      postedBy_disjoint (dmaOne_postedBy (entryInterface_lawful env) help data)
    rcases mem_createDeleteCommand mem with older | ⟨_, head⟩ | cleared | ⟨_, _, linked⟩
    · exact still one older
    · exact head ▸ still_foreign (foreign _ _ _)
    · exact cleared ▸ still_foreign (foreign _ _ _)
    · exact linked ▸ still_foreign (foreign _ _ _)
  unfold delIpv4RulePosting ipaNatiPostIpv4DmaCmd
  generalize ipaTableCreateDeleteCommand (entryInterface env) cache.table iterator cmd = posted at allStill ⊢
  cases dmaOk with
  | false =>
    have refused : -eio ≠ 0 := by decide
    simp only [Bool.false_eq_true, if_false, refused, ne_eq, not_false_eq_true, if_true, true_and]
    exact .of two base withMeta agrees tokens
  | true =>
    obtain ⟨same, agree, postedBase, postedIndexBase, postedMeta⟩ :=
      posted_withPrev env allStill agrees kept
    simp only [if_true, ne_eq, not_true_eq_false, if_false, true_and]
    rw [same]
    generalize posted.foldl (fun cache one => cache.dmaWrite env one) cache = written
      at agree postedBase postedIndexBase postedMeta ⊢
    obtain ⟨deletedPrevious, deletedSame, deletedAgree⟩ := agree.deleted indexIterator
    obtain ⟨clearedPrevious, clearedSame, clearedAgree⟩ :=
      deletedAgree.cleared indexIterator.currIndex
    have deletedFields := deleteEntry_tableEntries indexEntryInterface written.indexTable indexIterator false
    have clearedFields := clearMetaPrevIndex_fields (ipaTableDeleteEntry indexEntryInterface
      written.indexTable indexIterator false) indexIterator.currIndex
    rw [deletedSame, clearedSame]
    generalize natBase : (if ipaTableIteratorIsHeadWithTail iterator = true then written.table
      else ipaTableDeleteEntry (entryInterface env) written.table iterator _) = natTable
    have natEntries : natTable.tableEntries = cache.table.tableEntries := by
      rw [← natBase, ← postedBase]
      split
      · rfl
      · exact (deleteEntry_tableEntries _ _ _ _).1
    rw [← natEntries] at two tokens
    refine .of two ?_ (clearedFields.2.2.2.2.1.trans (deletedFields.2.trans
      (postedMeta.trans withMeta))) clearedAgree tokens
    exact clearedFields.2.1.trans (deletedFields.1.trans (postedIndexBase.trans (base.trans natEntries.symm)))

theorem Agrees.delete (agrees : Agrees driver other) (env : Environment) (ruleHdl : Nat)
    (dmaOk : Bool) : let out := ipaNatiDelIpv4Rule env driver.cache ruleHdl dmaOk
    let otherOutcome := ipaNatiDelIpv4Rule env other.cache ruleHdl dmaOk
    otherOutcome.1 = out.1 ∧ Agrees ⟨out.2, driver.hashToken⟩ ⟨otherOutcome.2, other.hashToken⟩ := by
  obtain ⟨previous, sameIndex, agree⟩ := agrees.index
  obtain ⟨⟨table, indexTable⟩, hashToken⟩ := driver
  obtain ⟨⟨otherTable, otherIndexTable⟩, token⟩ := other
  obtain ⟨sameTable, two, base, withMeta, -, tokens⟩ := agrees
  replace sameTable := sameTable.symm
  subst sameTable sameIndex
  have unchanged (ret : Int) : ret = ret ∧ Agrees ⟨⟨table, indexTable⟩, hashToken⟩
      ⟨⟨table, indexTable.withPrev previous⟩, token⟩ := ⟨rfl, .of two base withMeta agree tokens⟩
  unfold ipaNatiDelIpv4Rule
  cases ipaTableGetEntry table ruleHdl with
  | error ret => exact unchanged ret
  | ok slot =>
  dsimp only
  cases ipaTableIteratorInit (entryInterface env) table slot with
  | error ret => exact unchanged ret
  | ok iterator =>
  have sameEntry (index : Nat) : ipaTableGetEntryByIndex (indexTable.withPrev previous) index =
      ipaTableGetEntryByIndex indexTable index := rfl
  rw [sameEntry]
  cases ipaTableGetEntryByIndex indexTable (table.slots slot).indxTblEntry with
  | none => exact unchanged _
  | some index =>
  dsimp only
  rw [ipaTableIteratorInit_withPrev agree]
  by_cases opens : Opens indexEntryInterface indexTable index
  swap
  · obtain ⟨ret, fails, -⟩ := ipaTableIteratorInit_fails opens
    rw [fails]
    exact unchanged ret
  rw [ipaTableIteratorInit_opens opens]
  have taken := indexTable_valid.mp opens.1
  have kept (high : indexTable.tableEntries ≤ index) := agree index high taken
  have still : ∀ one ∈ ipaTableCreateDeleteCommand indexEntryInterface indexTable
      ⟨(indexTable.links indexEntryInterface).prev index, index, (indexTable.links indexEntryInterface).next index⟩ [],
      Still indexTable.tableEntries index one := by
    intro one mem
    rcases mem_createDeleteCommand mem with older | ⟨_, head⟩ | cleared | ⟨_, _, linked⟩
    · cases older
    · exact head ▸ still_entry rfl (.inr (.inl rfl)) .deleteHead rfl
    · exact cleared ▸ still_entry rfl (.inr (.inl rfl)) .updateHead rfl
    · exact linked ▸ still_next rfl
  have sameCommand : ipaTableCreateDeleteCommand indexEntryInterface (indexTable.withPrev previous)
      ⟨(indexTable.links indexEntryInterface).prev index, index, (indexTable.links indexEntryInterface).next index⟩ [] =
      ipaTableCreateDeleteCommand indexEntryInterface indexTable
      ⟨(indexTable.links indexEntryInterface).prev index, index,
        (indexTable.links indexEntryInterface).next index⟩ [] := rfl
  dsimp only
  rw [sameCommand]
  generalize ipaTableCreateDeleteCommand indexEntryInterface indexTable _ [] = cmd at still ⊢
  split
  · have sameNext (iterator : IpaTableIterator) :
        ipaTableIteratorNext indexEntryInterface (indexTable.withPrev previous) iterator =
          ipaTableIteratorNext indexEntryInterface indexTable iterator := rfl
    have sameSlots : (indexTable.withPrev previous).slots = indexTable.slots := rfl
    have sameAdd (data : Nat) : ipaTableAddDmaCmd indexEntryInterface (indexTable.withPrev previous)
        .updateEntry index data cmd =
          ipaTableAddDmaCmd indexEntryInterface indexTable .updateEntry index data cmd := rfl
    simp only [ipaNatiCopySecondIndexEntryToHead, sameNext, sameSlots, sameAdd]
    generalize moved : table.put _ _ = repointed
    have movedTwo : 2 ≤ repointed.tableEntries := by rw [← moved]; exact two
    have movedBase : indexTable.tableEntries = repointed.tableEntries := by rw [← moved]; exact base
    have movedTokens : token = hashToken ∨ repointed.tableEntries = 2 := by rw [← moved]; exact tokens
    generalize linked : ipaTableAddDmaCmd indexEntryInterface indexTable .updateEntry index _ cmd = moreCmd
    have moreStill : ∀ one ∈ moreCmd, Still indexTable.tableEntries index one := by
      intro one mem
      rw [← linked] at mem
      rcases mem_addDmaCmd mem with older | next
      · exact still one older
      · exact next ▸ still_next rfl
    cases ipaTableIteratorNext indexEntryInterface indexTable _ with
    | error ret => exact ⟨rfl, .of movedTwo movedBase withMeta agree movedTokens⟩
    | ok following =>
      exact delIpv4RulePosting_withPrev ⟨repointed, indexTable⟩ movedTwo movedBase withMeta agree
        movedTokens iterator following moreStill kept
  · exact delIpv4RulePosting_withPrev ⟨table, indexTable⟩ two base withMeta agree tokens iterator
      ⟨(indexTable.links indexEntryInterface).prev index, index,
        (indexTable.links indexEntryInterface).next index⟩ still kept

end Deleting

section Calls

variable {env : Environment} {driver : IpaNatDriver}

theorem PrevAgrees.reset (agrees : PrevAgrees table previous) :
    PrevAgrees (ipaTableReset indexEntryInterface table) previous := by
  refine agrees.fewer rfl rfl fun index _ free => ?_
  unfold ipaTableReset
  dsimp only
  split
  · rfl
  · exact free

theorem Agrees.clear (agrees : Agrees driver other) : Agrees ⟨ipaNatiClearIpv4Tbl env driver.cache, driver.hashToken⟩
      ⟨ipaNatiClearIpv4Tbl env other.cache, other.hashToken⟩ := by
  obtain ⟨previous, sameIndex, agree⟩ := agrees.index
  unfold ipaNatiClearIpv4Tbl
  rw [agrees.table, sameIndex]
  exact { agrees with table := rfl, index := ⟨previous, rfl, agree.reset⟩ }

theorem Agrees.perform (agrees : Agrees driver other) (env : Environment) (call : Call) :
    (IpaNat.perform env driver call = none ∧ IpaNat.perform env other call = none) ∨
      ∃ answer after otherAfter, IpaNat.perform env driver call = some (answer, after) ∧
        IpaNat.perform env other call = some (answer, otherAfter) ∧ Agrees after otherAfter := by
  cases call with
  | addRule clntRule dmaOk =>
    have alike := agrees.add env clntRule dmaOk
    simp only [IpaNat.perform]
    generalize ipaNatiAddIpv4Rule env driver clntRule dmaOk = result at alike ⊢
    generalize ipaNatiAddIpv4Rule env other clntRule dmaOk = otherResult at alike ⊢
    cases alike with
    | hangs => exact .inl ⟨rfl, rfl⟩
    | answers after => exact .inr ⟨_, _, _, rfl, rfl, after⟩
  | delRule ruleHdl dmaOk =>
    obtain ⟨ret, after⟩ := agrees.delete env ruleHdl dmaOk
    refine .inr ⟨_, _, _, rfl, ?_, after⟩
    rw [IpaNat.perform, ret]
  | queryTimestamp ruleHdl =>
    simp only [IpaNat.perform, ipaNatiQueryTimestamp, agrees.table]
    cases ipaTableGetEntry driver.cache.table ruleHdl with
    | error ret => exact .inr ⟨_, _, _, rfl, rfl, agrees⟩
    | ok slot => exact .inr ⟨_, _, _, rfl, rfl, agrees⟩
  | clear => exact .inr ⟨_, _, _, rfl, rfl, agrees.clear⟩

/-- What a client gets to see of a sequence of calls; the last answer is `none` when a call
never returns. -/
def answers (env : Environment) : IpaNatDriver → List Call → List (Option Answer)
  | _, [] => []
  | driver, call :: rest =>
    match perform env driver call with
    | none => [none]
    | some (answer, after) => some answer :: answers env after rest

theorem Agrees.answers (agrees : Agrees driver other) (calls : List Call) :
    answers env other calls = answers env driver calls := by
  induction calls generalizing driver other with
  | nil => rfl
  | cons call rest ih =>
    rw [answers, answers]
    rcases agrees.perform env call with
      ⟨hangs, otherHangs⟩ | ⟨answer, after, otherAfter, ret, otherReturned, agree⟩
    · rw [hangs, otherHangs]
    · rw [ret, otherReturned]
      exact congrArg (some answer :: ·) (ih agree)

end Calls

end KernelModules.IpaNat

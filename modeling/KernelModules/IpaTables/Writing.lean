import KernelModules.IpaTables.Passes

namespace KernelModules.IpaTables

open Data List ByteMemory

/-! # What a pass writes

The rules of a part stand behind each other, a terminator last.  Else only the slot in the header changes, and the
zeros of an own block.
-/

variable {Rule : Type} {env : CommitEnv Rule} {pass : TblPass Rule} {rlt : IpaRuleType}

def Within (place start length : Nat) : Prop := start ≤ place ∧ place < start + length

def entryBytes (env : CommitEnv Rule) (entry : IpaEntry Rule) : List (BitVec 8) :=
  (env.encode entry.rule entry.prio).getD []

def rulesBytes (env : CommitEnv Rule) (rlt : IpaRuleType) (entries : List (IpaEntry Rule)) : List (BitVec 8) :=
  (entries.filter fun entry => entry.ruleType = rlt).flatMap (entryBytes env)

def terminator : List (BitVec 8) := List.replicate tblWidth 0

@[simp] theorem length_terminator : terminator.length = tblWidth := length_replicate

theorem genHwRule_bytes (gen : genHwRule env entry = some (bytes, entry')) : bytes = entryBytes env entry := by
  unfold genHwRule at gen
  unfold entryBytes
  split at gen
  · cases gen
  · rename_i found
    rw [found]
    split at gen
    · cases gen
      rfl
    · split at gen <;> cases gen
      rfl

theorem rulesBytes_cons_of_ne (other : entry.ruleType ≠ rlt) :
    rulesBytes env rlt (entry :: entries) = rulesBytes env rlt entries := by
  unfold rulesBytes
  rw [filter_cons_of_neg (by simpa using other)]

theorem rulesBytes_cons (same : entry.ruleType = rlt) :
    rulesBytes env rlt (entry :: entries) = entryBytes env entry ++ rulesBytes env rlt entries := by
  unfold rulesBytes
  rw [filter_cons_of_pos (by simpa using same), flatMap_cons]

theorem rulesBytes_eq_nil (none : ∀ entry ∈ entries, entry.ruleType ≠ rlt) : rulesBytes env rlt entries = [] := by
  unfold rulesBytes
  rw [filter_eq_nil_iff.mpr fun entry mem => by simpa using none entry mem]
  rfl

namespace Translation

variable {t after : Translation Rule} {owner : TblRef} {target : IpaMemBuffer} {buf : Nat}
  {bytes : List (BitVec 8)}

/-- A run of rules is written from `buf` on. -/
structure RulesWritten (owner : TblRef) (target : IpaMemBuffer) (buf : Nat) (bytes : List (BitVec 8))
    (t after : Translation Rule) : Prop where
  frame : ∀ place, ¬Within place buf (bytes.length + tblWidth) → after.memory place = t.memory place
  image : after.memory.readBytes buf (bytes.length + tblWidth) = bytes ++ terminator
  stores : ∃ written, after.stores = t.stores ++ written ∧
    (∀ store ∈ written, store.owner = owner ∧ store.target = target ∧ buf ≤ store.address ∧
      store.address + store.length ≤ buf + (bytes.length + tblWidth) ∧ tblWidth ≤ store.length) ∧
    ∃ store ∈ written, store.address = buf

theorem RulesWritten.one : RulesWritten owner target buf bytes t (t.write owner target buf (bytes ++ terminator)) := by
  have len : (bytes ++ terminator).length = bytes.length + tblWidth := by
    rw [length_append, length_terminator]
  constructor
  · intro place outside
    apply writeBytes_outside
    unfold Within at outside
    omega
  · have read : (t.memory.writeBytes buf (bytes ++ terminator)).readBytes buf
        (bytes ++ terminator).length = bytes ++ terminator := readBytes_writeBytes
    rw [len] at read
    exact read
  · refine ⟨_, rfl, ?_, _, mem_singleton_self _, rfl⟩
    intro store mem
    rw [mem_singleton] at mem
    subst mem
    exact ⟨rfl, rfl, le_rfl, by rw [len], by rw [len]; exact Nat.le_add_left _ _⟩

theorem RulesWritten.append (first : RulesWritten owner target buf bytes t middle)
    (rest : RulesWritten owner target (buf + bytes.length) more middle after) :
    RulesWritten owner target buf (bytes ++ more) t after := by
  obtain ⟨written, stores, lt, start⟩ := first.stores
  obtain ⟨others, moreStores, beyond, _⟩ := rest.stores
  constructor
  · intro place outside
    rw [length_append] at outside
    unfold Within at outside
    rw [rest.frame place (by unfold Within; omega), first.frame place (by unfold Within; omega)]
  · rw [length_append, add_assoc, readBytes_add, rest.image, append_assoc]
    congr 1
    have kept : after.memory.readBytes buf bytes.length = middle.memory.readBytes buf bytes.length := by
      apply readBytes_congr
      intro place _ upper
      exact rest.frame place (by unfold Within; omega)
    have image := first.image
    rw [readBytes_add] at image
    rw [kept]
    exact (append_inj image length_readBytes).1
  · refine ⟨written ++ others, ?_, ?_, ?_⟩
    · rw [moreStores, stores, append_assoc]
    · intro store mem
      rw [length_append]
      rcases mem_append.mp mem with mem | mem
      · obtain ⟨here, there, lower, upper, long⟩ := lt store mem
        exact ⟨here, there, lower, by omega, long⟩
      · obtain ⟨here, there, lower, upper, long⟩ := beyond store mem
        exact ⟨here, there, by omega, by omega, long⟩
    · obtain ⟨store, mem, addr⟩ := start
      exact ⟨store, mem_append_left _ mem, addr⟩

theorem generateRules_written (here : buf ≠ 0)
    (gen : generateRules pass owner target entries buf t = some (after, ending)) :
    ending = buf + (rulesBytes pass.env pass.rlt entries).length ∧ after.bodyI = t.bodyI ∧
      ((∀ entry ∈ entries, entry.ruleType ≠ pass.rlt) ∧ after = t ∨
        RulesWritten owner target buf (rulesBytes pass.env pass.rlt entries) t after) := by
  induction entries generalizing buf t with
  | nil =>
    cases gen
    exact ⟨rfl, rfl, .inl ⟨nofun, rfl⟩⟩
  | cons entry rest ih =>
    unfold generateRules at gen
    split at gen
    · rename_i other
      rw [rulesBytes_cons_of_ne other]
      obtain ⟨ends, bodyI, cases⟩ := ih here gen
      refine ⟨ends, bodyI, cases.imp_left fun none => ⟨?_, none.2⟩⟩
      exact forall_mem_cons.mpr ⟨other, none.1⟩
    · rename_i same
      have same := not_not.mp same
      split at gen
      · cases gen
      · split at gen
        · cases gen
        · rename_i bytes _ found
          have encoded := genHwRule_bytes found
          rw [rulesBytes_cons same, ← encoded]
          obtain ⟨ends, bodyI, cases⟩ := ih (by omega) gen
          refine ⟨?_, bodyI, .inr ?_⟩
          · rw [ends, length_append, add_assoc]
          · have first : RulesWritten owner target buf bytes t (t.write owner target buf (bytes ++ terminator)) := .one
            rcases cases with ⟨none, rfl⟩ | others
            · rw [rulesBytes_eq_nil none, append_nil]
              exact first
            · exact first.append others

variable {part : TblPart} {addr : Nat}

def slotAddr (pass : TblPass Rule) (idx : Nat) : Nat := pass.hdr.base + u32 (idx * tblHdrWidth)

theorem writeAddrToHdr_done (written : t.writeAddrToHdr pass owner addr hdrIdx isSys = (after, .done)) :
    pass.hdr.base ≠ 0 ∧ ∃ hwaddr, createTblAddr isSys addr = some hwaddr ∧ after = { t with
        memory := t.memory.store (slotAddr pass hdrIdx) tblHdrWidth hwaddr
        stores := t.stores ++ [⟨owner, pass.hdr, slotAddr pass hdrIdx, tblHdrWidth⟩] } := by
  unfold writeAddrToHdr at written
  split at written
  · cases written
  · rename_i here
    split at written
    · cases written
    · rename_i hwaddr found
      cases written
      exact ⟨(not_or.mp here).2, hwaddr, found, rfl⟩

/-- A part whose address is `addr` stands from `start` on in its block, and is entered in the header
at `idx`. -/
structure PartWritten (pass : TblPass Rule) (part : TblPart) (idx addr start : Nat)
    (block : IpaMemBuffer) (bytes : List (BitVec 8)) (t after : Translation Rule) : Prop where
  hdr : pass.hdr.base ≠ 0
  header : ∃ hwaddr, createTblAddr part.inSys addr = some hwaddr ∧
    ((∀ place, Within place (slotAddr pass idx) tblHdrWidth → ¬Within place start (bytes.length + tblWidth)) →
      after.memory.load (slotAddr pass idx) tblHdrWidth = hwaddr % 256 ^ tblHdrWidth)
  frame : ∀ place, ¬Within place (slotAddr pass idx) tblHdrWidth → ¬Within place start (bytes.length + tblWidth) →
      (part.inSys = true → ¬Within place block.base block.size) → after.memory place = t.memory place
  image : after.memory.readBytes start (bytes.length + tblWidth) = bytes ++ terminator
  stores : ∃ written, after.stores = t.stores ++ ⟨part.tbl, pass.hdr, slotAddr pass idx, tblHdrWidth⟩ :: written ∧
    (∀ store ∈ written, store.owner = part.tbl ∧ store.target = block ∧ start ≤ store.address ∧
      store.address + store.length ≤ start + (bytes.length + tblWidth) ∧ tblWidth ≤ store.length) ∧
    ∃ store ∈ written, store.address = start

theorem PartWritten.of_rules {start : Nat} {cleared : Translation Rule} (hdr : pass.hdr.base ≠ 0)
    (found : createTblAddr part.inSys addr = some hwaddr)
    (clear : ∀ place, (part.inSys = true → ¬Within place block.base block.size) →
      cleared.memory place = t.memory place) (stores : cleared.stores = t.stores)
    (header : named = { cleared with
      memory := cleared.memory.store (slotAddr pass idx) tblHdrWidth hwaddr
      stores := cleared.stores ++ [⟨part.tbl, pass.hdr, slotAddr pass idx, tblHdrWidth⟩] })
    (rules : RulesWritten part.tbl block start bytes named after) :
    PartWritten pass part idx addr start block bytes t after := by
  subst header
  constructor
  · exact hdr
  · refine ⟨hwaddr, found, fun apart => ?_⟩
    have kept : after.memory.load (slotAddr pass idx) tblHdrWidth =
        (cleared.memory.store (slotAddr pass idx) tblHdrWidth hwaddr).load (slotAddr pass idx)
          tblHdrWidth := by
      apply load_congr
      intro byte inside
      apply rules.frame
      exact apart _ ⟨Nat.le_add_right _ _, Nat.add_lt_add_left inside _⟩
    rw [kept]
    exact load_store le_rfl
  · intro place slot image block
    rw [rules.frame place image]
    unfold Within at slot
    exact (store_outside (by omega)).trans (clear place block)
  · exact rules.image
  · obtain ⟨written, more, lt, start⟩ := rules.stores
    refine ⟨written, ?_, lt, start⟩
    rw [more, stores, append_assoc]
    rfl

def sysBlock (pass : TblPass Rule) (tbl : IpaTbl Rule) (base physBase : Nat) : IpaMemBuffer :=
  ⟨base, physBase, u32 (u32 (tbl.sz pass.rlt + prefetchBufSize - tblHdrWidth) + tblWidth)⟩

theorem allocateHwSysTbl_block (alloc : t.allocateHwSysTbl pass part.tbl
      (u32 ((t.tbls part.tbl).sz pass.rlt + prefetchBufSize - tblHdrWidth)) = some cleared) :
    ∃ base physBase, pass.env.dmaSysTbl part.tbl pass.rlt = some (base, physBase) ∧
      cleared.tblMem = sysBlock pass (t.tbls part.tbl) base physBase ∧
      cleared.tbls = t.tbls ∧ cleared.stores = t.stores ∧ cleared.bodyI = t.bodyI ∧
      ∀ place, ¬Within place cleared.tblMem.base cleared.tblMem.size → cleared.memory place = t.memory place := by
  unfold allocateHwSysTbl at alloc
  split at alloc
  · cases alloc
  · split at alloc
    · cases alloc
    · rename_i base physBase answer
      split at alloc
      · cases alloc
      · cases alloc
        refine ⟨base, physBase, answer, rfl, rfl, rfl, rfl, fun place outside => ?_⟩
        apply writeBytes_outside
        rw [length_replicate]
        unfold Within at outside
        dsimp only at outside
        omega

theorem translateSysPart_written (sys : part.inSys = true)
    (typed : ∃ entry ∈ (t.tbls part.tbl).rules, entry.ruleType = pass.rlt)
    (here : ∀ base physBase, pass.env.dmaSysTbl part.tbl pass.rlt = some (base, physBase) → base ≠ 0)
    (ran : t.translateSysPart pass part = (after, .done)) :
    ∃ base physBase, pass.env.dmaSysTbl part.tbl pass.rlt = some (base, physBase) ∧ after.bodyI = t.bodyI ∧
      (after.tbls part.tbl).currMem pass.rlt = sysBlock pass (t.tbls part.tbl) base physBase ∧
      PartWritten pass part part.sysIdx physBase base (sysBlock pass (t.tbls part.tbl) base physBase)
        (rulesBytes pass.env pass.rlt (t.tbls part.tbl).rules) t after := by
  unfold translateSysPart at ran
  dsimp only at ran
  split at ran
  · cases ran
  · rename_i cleared alloc
    obtain ⟨base, physBase, answer, tblMem, tbls, stores, bodyI, clear⟩ := allocateHwSysTbl_block alloc
    split at ran
    · rename_i named header
      rw [tblMem] at header
      obtain ⟨hdr, hwaddr, found, named_eq⟩ := writeAddrToHdr_done header
      have namedMem : named.tblMem = sysBlock pass (t.tbls part.tbl) base physBase := by
        rw [named_eq]
        exact tblMem
      rw [namedMem] at ran
      split at ran
      · cases ran
      · rename_i final ending gen
        cases ran
        obtain ⟨_, finalBodyI, cases⟩ := generateRules_written (here _ _ answer) gen
        have blocks := generateRules_blocks gen
        rcases cases with ⟨none, _⟩ | rules
        · obtain ⟨entry, mem, same⟩ := typed
          exact absurd same (none entry mem)
        refine ⟨base, physBase, answer, ?_, ?_, ?_⟩
        · show final.bodyI = t.bodyI
          rw [finalBodyI, named_eq]
          exact bodyI
        · unfold swapMem
          dsimp only
          rw [Function.update_self]
          dsimp only
          rw [Function.update_self, blocks.tblMem, namedMem]
        · have written : RulesWritten part.tbl (sysBlock pass (t.tbls part.tbl) base physBase) base
              (rulesBytes pass.env pass.rlt (t.tbls part.tbl).rules) named (final.swapMem pass part.tbl) :=
            { rules with }
          rw [← sys] at found
          rw [tblMem] at clear
          exact .of_rules hdr found (fun place outside => clear place (outside sys)) stores named_eq written
    · rename_i unfinished _
      cases ran
      exact (unfinished rfl).elim

theorem translateLclPart_written (lcl : part.inSys = false)
    (typed : ∃ entry ∈ (t.tbls part.tbl).rules, entry.ruleType = pass.rlt) (here : t.bodyI ≠ 0)
    (ran : t.translateLclPart pass part = (after, .done)) : after.bodyI = alignDown
        (t.bodyI + (rulesBytes pass.env pass.rlt (t.tbls part.tbl).rules).length + lcladdrAlignment) lcladdrAlignment ∧
      PartWritten pass part part.lclIdx (t.bodyI - pass.bdy.base + pass.bodyOfst) t.bodyI pass.bdy
        (rulesBytes pass.env pass.rlt (t.tbls part.tbl).rules) t after := by
  unfold translateLclPart at ran
  dsimp only at ran
  split at ran
  · rename_i named header
    obtain ⟨hdr, hwaddr, found, rfl⟩ := writeAddrToHdr_done header
    split at ran
    · cases ran
    · rename_i final bodyI gen
      cases ran
      obtain ⟨ends, _, cases⟩ := generateRules_written here gen
      rcases cases with ⟨none, _⟩ | rules
      · obtain ⟨entry, mem, same⟩ := typed
        exact absurd same (none entry mem)
      refine ⟨by rw [ends], ?_⟩
      rw [← lcl] at found
      have written : RulesWritten part.tbl pass.bdy t.bodyI (rulesBytes pass.env pass.rlt (t.tbls part.tbl).rules) _
          { final with bodyI := alignDown (bodyI + lcladdrAlignment) lcladdrAlignment } :=
        { rules with }
      exact PartWritten.of_rules hdr found (fun _ _ => rfl) rfl rfl written
  · rename_i unfinished _
    cases ran
    exact (unfinished rfl).elim

end Translation

end KernelModules.IpaTables

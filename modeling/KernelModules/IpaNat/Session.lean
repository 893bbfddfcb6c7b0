import KernelModules.Data.Run
import KernelModules.IpaNat.Preserved

namespace KernelModules.IpaNat

open Data

/-! # Histories of calls

A session is the driver with the handles in use: handed out by an add, gone with a delete or a clear.
-/

inductive Call where
  | addRule (clntRule : IpaNatIpv4Rule) (dmaOk : Bool)
  | delRule (ruleHdl : Nat) (dmaOk : Bool)
  | queryTimestamp (ruleHdl : Nat)
  | clear

structure Answer where
  ret : Int
  value : Nat

/-- One call; `none` when it never returns. -/
def perform (env : Environment) (driver : IpaNatDriver) : Call → Option (Answer × IpaNatDriver)
  | .addRule clntRule dmaOk =>
    (ipaNatiAddIpv4Rule env driver clntRule dmaOk).map fun result =>
      (⟨result.ret, result.ruleHdl⟩, result.driver)
  | .delRule ruleHdl dmaOk =>
    let deletion := ipaNatiDelIpv4Rule env driver.cache ruleHdl dmaOk
    some (⟨deletion.1, 0⟩, { driver with cache := deletion.2 })
  | .queryTimestamp ruleHdl =>
    match ipaNatiQueryTimestamp driver.cache ruleHdl with
    | .error ret => some (⟨ret, 0⟩, driver)
    | .ok timeStamp => some (⟨0, timeStamp.toNat⟩, driver)
  | .clear =>
    some (⟨0, 0⟩, { driver with cache := ipaNatiClearIpv4Tbl env driver.cache })

structure Session where
  driver : IpaNatDriver
  live : List (Nat × IpaNatIpv4Rule)

def heldAfter (live : List (Nat × IpaNatIpv4Rule)) (call : Call) (answer : Answer) : List (Nat × IpaNatIpv4Rule) :=
  if answer.ret ≠ 0 then live
  else match call with
    | .addRule clntRule _ => (answer.value, clntRule) :: live
    | .delRule ruleHdl _ => live.filter fun held => held.1 ≠ ruleHdl
    | .queryTimestamp _ => live
    | .clear => []

def Session.step (env : Environment) (session : Session) (call : Call) : Option Session :=
  (perform env session.driver call).map fun outcome =>
    ⟨outcome.2, heldAfter session.live call outcome.1⟩

def Session.created (cache : IpaNatIp4TableCache) : Session := ⟨⟨cache, initialHashToken⟩, []⟩

def Session.holds (session : Session) (ruleHdl : Nat) : Prop :=
  ruleHdl ∈ session.live.map Prod.fst

instance (session : Session) (ruleHdl : Nat) : Decidable (session.holds ruleHdl) :=
  inferInstanceAs (Decidable (_ ∈ _))

def smallestCache : IpaNatIp4TableCache :=
  ⟨⟨.ddr, 2, 2, fun _ => .empty, 0, 0, false, fun _ => 0⟩, ⟨.ddr, 2, 2, fun _ => ⟨0, 0⟩, 0, 0, true, fun _ => 0⟩⟩

theorem smallestCache_created : ipaNatiCreateTable 1 .ddr = some smallestCache := rfl

def plainRule (privatePort : BitVec 16) : IpaNatIpv4Rule :=
  { targetIp := 0x0A000001, privateIp := 0xC0A80002, targetPort := 443, privatePort := privatePort
    publicPort := 1024, protocol := ipprotoTcp, pdnIndex := 0, redirect := 0, enable := 0
    timeStamp := 0, ucActivationIndex := 0, s := false, ucp := false, dstOnly := false
    srcOnly := false }

def plainEnvironment : Environment := ⟨fun _ => 0xC6336401, true⟩

def Contract (session : Session) : Call → Prop
  | .addRule _ dmaOk => dmaOk = true
  | .delRule ruleHdl dmaOk => dmaOk = true ∧ session.holds ruleHdl
  | .queryTimestamp _ => True
  | .clear => True

instance (session : Session) (call : Call) : Decidable (Contract session call) := by
  cases call <;> dsimp only [Contract] <;> infer_instance

theorem Sound.returns {session : Session} (sound : Sound env session.driver.cache head indexHead)
    (call : Call) : ∃ after, session.step env call = some after := by
  unfold Session.step
  cases call with
  | addRule clntRule dmaOk =>
    obtain ⟨result, ret, -⟩ := ipaNatiAddIpv4Rule_run sound clntRule dmaOk
    exact ⟨_, by rw [perform, ret]; rfl⟩
  | delRule ruleHdl dmaOk => exact ⟨_, rfl⟩
  | queryTimestamp ruleHdl =>
    rw [perform]
    split
    · exact ⟨_, rfl⟩
    · exact ⟨_, rfl⟩
  | clear => exact ⟨_, rfl⟩

section Handles

theorem handle_bits (mem : Nat) (small : idx < 4096) (flag : expansion < 2) :
    let handle := (idx <<< 1 ||| expansion ||| mem <<< 15) % 2 ^ 16
    handle >>> 1 &&& 0xFFF = idx ∧ handle &&& 1 = expansion ∧ (idx ≠ 0 → handle ≠ 0) := by
  have low : idx <<< 1 ||| expansion = 2 * idx + expansion := by
    rw [← Nat.shiftLeft_add_eq_or_of_lt (i := 1) (by omega)]
    omega
  have all : 2 * idx + expansion ||| mem <<< 15 = 2 ^ 15 * mem + (2 * idx + expansion) := by
    rw [Nat.or_comm, ← Nat.shiftLeft_add_eq_or_of_lt (i := 15) (by omega)]
    omega
  rw [low]
  intro handle
  have mask (num : Nat) : num &&& 0xFFF = num % 2 ^ 12 :=
    Nat.and_two_pow_sub_one_eq_mod num 12
  have bit (num : Nat) : num &&& 1 = num % 2 ^ 1 :=
    Nat.and_two_pow_sub_one_eq_mod num 1
  rw [mask, bit]
  omega

variable {Entry : Type} {tbl : IpaTable Entry} {slot : Nat}

section

variable (geometry : Geometry tbl.tableEntries tbl.expnTableEntries)
  (bounded : slot < tbl.totTblEnts)
include geometry bounded

theorem makeEntryHdl_bits : ∃ idx expansion mem, idx < 4096 ∧ expansion < 2 ∧
      makeEntryHdl tbl slot = (idx <<< 1 ||| expansion ||| mem <<< 15) % 2 ^ 16 ∧
      idx + (if expansion = 1 then tbl.tableEntries else 0) = slot ∧ (slot ≠ 0 → expansion = 1 ∨ idx ≠ 0) := by
  have base := geometry.base
  have expn := geometry.expn
  unfold IpaTable.totTblEnts at bounded
  unfold makeEntryHdl
  split
  · exact ⟨slot - tbl.tableEntries, 1, _, by omega, by omega, rfl, by simp; omega, fun _ => .inl rfl⟩
  · exact ⟨slot, 0, _, by omega, by omega, by rw [Nat.or_zero], by simp, .inr⟩

theorem breakRuleHdl_makeEntryHdl : breakRuleHdl tbl (makeEntryHdl tbl slot) = slot := by
  obtain ⟨idx, expansion, mem, small, flag, handle, whole, -⟩ :=
    makeEntryHdl_bits geometry bounded
  have bits := handle_bits mem small flag
  rw [breakRuleHdl, handle, bits.1, bits.2.1, whole]

theorem makeEntryHdl_ne_zero (ne : slot ≠ 0) : makeEntryHdl tbl slot ≠ 0 := by
  obtain ⟨idx, expansion, mem, small, flag, handle, -, some⟩ :=
    makeEntryHdl_bits geometry bounded
  have bits := handle_bits mem small flag
  rw [handle]
  rcases some ne with expanded | indexed
  · intro zero
    rw [zero, expanded] at bits
    exact absurd bits.2.1 (by decide)
  · exact bits.2.2 indexed

end

end Handles

end KernelModules.IpaNat

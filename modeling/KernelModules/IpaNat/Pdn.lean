import KernelModules.Data.Indexed
import KernelModules.Data.Run
import KernelModules.IpaNat.Rule

namespace KernelModules.IpaNat

open Data Function

/-! # The table of PDNs

An entry is free when all its fields are zero.  The entries and the number in use are static: they outlive the
tables.
-/

/-- `ipa_nat_pdn_entry` -/
structure PdnEntry where
  publicIp : BitVec 32
  srcMetadata : BitVec 32
  dstMetadata : BitVec 32
deriving DecidableEq

def PdnEntry.zero : PdnEntry := ⟨0, 0, 0⟩

structure PdnTable where
  pdns : Nat → PdnEntry
  numPdns : Nat

namespace PdnTable

def boot : PdnTable := ⟨fun _ => .zero, 0⟩

variable (tbl : PdnTable)

/-- What `ipa_NATI_add_ipv4_tbl` writes. -/
def create (publicIpAddr : BitVec 32) : PdnTable where
  pdns := update tbl.pdns 0 { tbl.pdns 0 with publicIp := publicIpAddr }
  numPdns := 1

/-- `ipa_nati_modify_pdn`, where the ioctl succeeds. -/
def modifyPdn (index : Nat) (entry : PdnEntry) : PdnTable := { tbl with pdns := update tbl.pdns index entry }

/-- The loop of `ipa_nati_alloc_pdn` ends at an entry with the address, or at a free one. -/
def allocIndex (publicIp : BitVec 32) : Option Nat :=
  (List.range (ipaMaxPdnNum - 1)).find? fun i => (tbl.pdns i).publicIp = publicIp || tbl.pdns i = .zero

/-- `ipa_nati_alloc_pdn` -/
def allocPdn (ioctl : Bool) (pdnInfo : PdnEntry) : PdnTable × Option Nat :=
  if ipaMaxPdnNum - 1 ≤ tbl.numPdns then (tbl, none)
  else match tbl.allocIndex pdnInfo.publicIp with
    | none => (tbl, none)
    | some i =>
      if (tbl.pdns i).publicIp = pdnInfo.publicIp then (tbl, some i)
      else if ioctl then ({ tbl.modifyPdn i pdnInfo with numPdns := tbl.numPdns + 1 }, some i)
      else (tbl, none)

/-- `ipa_nati_dealloc_pdn` -/
def deallocPdn (ioctl : Bool) (pdnIndex : Nat) : PdnTable :=
  if tbl.numPdns = 0 || tbl.pdns pdnIndex = .zero || !ioctl then tbl
  else { tbl.modifyPdn pdnIndex .zero with numPdns := tbl.numPdns - 1 }

end PdnTable

inductive PdnAction where
  | create (publicIpAddr : BitVec 32)
  | alloc (ioctl : Bool) (pdnInfo : PdnEntry)
  | dealloc (ioctl : Bool) (pdnIndex : Nat)
  | modify (ioctl : Bool) (pdnIndex : Nat) (entry : PdnEntry)

namespace PdnTable

def step (tbl : PdnTable) : PdnAction → Option PdnTable
  | .create publicIpAddr => some (tbl.create publicIpAddr)
  | .alloc ioctl pdnInfo => some (tbl.allocPdn ioctl pdnInfo).1
  | .dealloc ioctl pdnIndex => some (tbl.deallocPdn ioctl pdnIndex)
  | .modify ioctl pdnIndex entry => some (if ioctl then tbl.modifyPdn pdnIndex entry else tbl)

def Valid (_ : PdnTable) : PdnAction → Prop
  | .create publicIpAddr => publicIpAddr ≠ 0
  | .alloc _ pdnInfo => pdnInfo.publicIp ≠ 0
  | .dealloc _ pdnIndex => pdnIndex < ipaMaxPdnNum
  | .modify _ pdnIndex entry => pdnIndex < ipaMaxPdnNum ∧ entry.publicIp ≠ 0

def present (tbl : PdnTable) (publicIp : BitVec 32) (i : Nat) : Prop :=
  i < ipaMaxPdnNum ∧ (tbl.pdns i).publicIp = publicIp

/-- A table is created when only the first entry may be in use.  An address asked for has no free entry in front of
it; an entry that is modified is in use, and no other one has its new address. -/
def Guarded (tbl : PdnTable) : PdnAction → Prop
  | .create _ => ∀ i < ipaMaxPdnNum, i ≠ 0 → tbl.pdns i = .zero
  | .alloc _ pdnInfo => ∀ i < ipaMaxPdnNum, (tbl.pdns i).publicIp = pdnInfo.publicIp →
      ∀ before < i, tbl.pdns before ≠ .zero
  | .dealloc _ _ => True
  | .modify ioctl pdnIndex entry => ioctl = true → tbl.pdns pdnIndex ≠ .zero ∧
      ∀ i < ipaMaxPdnNum, (tbl.pdns i).publicIp = entry.publicIp → i = pdnIndex

instance (tbl : PdnTable) : (action : PdnAction) → Decidable (tbl.Valid action)
  | .create _ | .alloc _ _ => inferInstanceAs (Decidable (_ ≠ _))
  | .dealloc _ _ => inferInstanceAs (Decidable (_ < _))
  | .modify _ _ _ => inferInstanceAs (Decidable (_ < _ ∧ _ ≠ _))

instance (tbl : PdnTable) : (action : PdnAction) → Decidable (tbl.Guarded action)
  | .create _ => inferInstanceAs (Decidable (∀ i < ipaMaxPdnNum, i ≠ 0 → tbl.pdns i = .zero))
  | .alloc _ pdnInfo => inferInstanceAs (Decidable (∀ i < ipaMaxPdnNum, (tbl.pdns i).publicIp = pdnInfo.publicIp →
      ∀ before < i, tbl.pdns before ≠ .zero))
  | .dealloc _ _ => inferInstanceAs (Decidable True)
  | .modify ioctl pdnIndex entry => inferInstanceAs (Decidable (ioctl = true → tbl.pdns pdnIndex ≠ .zero ∧
      ∀ i < ipaMaxPdnNum, (tbl.pdns i).publicIp = entry.publicIp → i = pdnIndex))

def inUse (tbl : PdnTable) : Nat :=
  ∑ i ∈ Finset.range ipaMaxPdnNum, if (tbl.pdns i).publicIp = 0 then 0 else 1

/-- No address is there twice, and the entries in use are counted. -/
structure Sound (tbl : PdnTable) : Prop where
  unique : ∀ publicIp ≠ 0, ∀ first second, tbl.present publicIp first → tbl.present publicIp second → first = second
  counted : tbl.numPdns = tbl.inUse
  free : ∀ i, (tbl.pdns i).publicIp = 0 → tbl.pdns i = .zero
  last : ∀ i, ipaMaxPdnNum - 1 ≤ i → tbl.pdns i = .zero

variable {tbl : PdnTable} {publicIp : BitVec 32} {entry : PdnEntry} {index : Nat}

theorem create_sound (used : publicIp ≠ 0) (others : ∀ i ≠ 0, tbl.pdns i = .zero) : (tbl.create publicIp).Sound := by
  have rest (i : Nat) (away : i ≠ 0) : (tbl.create publicIp).pdns i = .zero :=
    (update_of_ne away _ _).trans (others i away)
  refine ⟨fun other nonzero first second one two => ?_, ?_, fun i zero => ?_, fun i far => rest i ?_⟩
  · have start : ∀ i, (tbl.create publicIp).present other i → i = 0 := by
      intro i there
      by_contra away
      rw [present, rest i away] at there
      exact nonzero there.2.symm
    rw [start first one, start second two]
  · have none (i : Nat) (away : i ≠ 0) : ((tbl.create publicIp).pdns i).publicIp = 0 := by
      rw [rest i away]
      rfl
    have first : ((tbl.create publicIp).pdns 0).publicIp ≠ 0 := used
    rw [inUse, Finset.sum_eq_single 0 (fun i _ away => if_pos (none i away)) (fun absent => absurd (by decide) absent),
      if_neg first]
    rfl
  · by_cases away : i = 0
    · subst away
      exact absurd zero used
    · exact rest i away
  · rintro rfl
    cases far

theorem allocIndex_found (found : tbl.allocIndex publicIp = some index) :
    index < ipaMaxPdnNum - 1 ∧ ((tbl.pdns index).publicIp = publicIp ∨ tbl.pdns index = .zero) ∧
      ∀ before < index, (tbl.pdns before).publicIp ≠ publicIp := by
  simp [allocIndex] at found
  exact ⟨found.2.1, found.1, fun before less => (found.2.2 before less).1⟩

section

variable (sound : tbl.Sound)
include sound

theorem Sound.near (used : tbl.pdns index ≠ .zero) : index < ipaMaxPdnNum - 1 := by
  by_contra far
  exact used (sound.last index (Nat.le_of_not_lt far))

theorem Sound.set {count : Nat} (lt : index < ipaMaxPdnNum - 1) (free : entry.publicIp = 0 → entry = .zero)
    (alone : entry.publicIp ≠ 0 → ∀ i, tbl.present entry.publicIp i → i = index)
    (counted : count + (if (tbl.pdns index).publicIp = 0 then 0 else 1) =
      tbl.numPdns + if entry.publicIp = 0 then 0 else 1) :
    Sound { tbl.modifyPdn index entry with numPdns := count } := by
  have other (ip : BitVec 32) (i : Nat) (away : i ≠ index)
      (there : present { tbl.modifyPdn index entry with numPdns := count } ip i) : tbl.present ip i := by
    simpa [present, modifyPdn, update_of_ne away] using there
  have here (ip : BitVec 32) (there : present { tbl.modifyPdn index entry with numPdns := count } ip index) :
      entry.publicIp = ip := by
    simpa [modifyPdn] using there.2
  refine ⟨fun ip nonzero first second one two => ?_, ?_, fun i zero => ?_, fun i far => ?_⟩
  · by_cases left : first = index <;> by_cases right : second = index
    · rw [left, right]
    · subst left
      have same := here ip one
      subst same
      exact (alone nonzero second (other _ _ right two)).symm
    · subst right
      have same := here ip two
      subst same
      exact alone nonzero first (other _ _ left one)
    · exact sound.unique ip nonzero first second (other _ _ left one) (other _ _ right two)
  · have within : index < ipaMaxPdnNum := Nat.lt_of_lt_of_le lt (by decide)
    have was := sum_others (fun _ (entry : PdnEntry) => if entry.publicIp = 0 then 0 else 1) tbl.pdns within
    have is := sum_update (fun _ (entry : PdnEntry) => if entry.publicIp = 0 then 0 else 1) tbl.pdns entry within
    have total := sound.counted
    unfold inUse modifyPdn at *
    dsimp only at *
    omega
  · by_cases same : i = index
    · subst same
      simp only [modifyPdn, update_self] at zero ⊢
      exact free zero
    · simp only [modifyPdn, update_of_ne same] at zero ⊢
      exact sound.free i zero
  · simpa [modifyPdn, update_of_ne (show i ≠ index by omega)] using sound.last i far

theorem Sound.step {action : PdnAction} (valid : tbl.Valid action) (guarded : tbl.Guarded action)
    (taken : tbl.step action = some after) : after.Sound := by
  cases action with
  | create publicIpAddr =>
    cases taken
    refine create_sound valid fun i away => ?_
    by_cases near : i < ipaMaxPdnNum
    · exact guarded i near away
    · exact sound.last i (by omega)
  | alloc ioctl pdnInfo =>
    cases taken
    unfold allocPdn
    split
    · exact sound
    split
    · exact sound
    rename_i i found
    obtain ⟨lt, either, before⟩ := allocIndex_found found
    split
    · exact sound
    rename_i unlike
    have zero := either.resolve_left unlike
    split
    · refine sound.set lt (fun none => absurd none valid) (fun _ j there => ?_) ?_
      · rcases Nat.lt_trichotomy j i with less | same | more
        · exact absurd there.2 (before j less)
        · exact same
        · exact absurd zero (guarded j there.1 there.2 i more)
      · rw [if_neg valid, zero]
        rfl
    · exact sound
  | dealloc ioctl pdnIndex =>
    cases taken
    unfold deallocPdn
    split
    · exact sound
    rename_i refused
    simp only [Bool.or_eq_true, decide_eq_true_eq, not_or] at refused
    have used : (tbl.pdns pdnIndex).publicIp ≠ 0 := fun zero => refused.1.2 (sound.free _ zero)
    refine sound.set (sound.near refused.1.2) (fun _ => rfl) (absurd rfl) ?_
    rw [if_neg used]
    exact Nat.sub_add_cancel (Nat.pos_of_ne_zero refused.1.1)
  | modify ioctl pdnIndex entry =>
    cases taken
    split
    · rename_i posted
      obtain ⟨used, alone⟩ := guarded posted
      refine sound.set (sound.near used) (fun zero => absurd zero valid.2) (fun _ i there => alone i there.1 there.2) ?_
      rw [if_neg valid.2, if_neg (fun zero => used (sound.free _ zero))]
    · exact sound

/-- An address that is there is found, and nothing changes. -/
theorem Sound.found {pdnInfo : PdnEntry} (guarded : tbl.Guarded (.alloc ioctl pdnInfo)) (nonzero : pdnInfo.publicIp ≠ 0)
    (room : tbl.numPdns < ipaMaxPdnNum - 1) (there : tbl.present pdnInfo.publicIp index) :
    tbl.allocPdn ioctl pdnInfo = (tbl, some index) := by
  have used : tbl.pdns index ≠ .zero := fun zero => nonzero (there.2 ▸ congrArg PdnEntry.publicIp zero)
  have found : tbl.allocIndex pdnInfo.publicIp = some index := by
    simp [PdnTable.allocIndex]
    refine ⟨.inl there.2, sound.near used, fun before less => ⟨fun same => ?_, guarded index there.1 there.2 before less⟩⟩
    exact less.ne (sound.unique _ nonzero _ _ ⟨less.trans there.1, same⟩ there)
  unfold allocPdn
  rw [if_neg (Nat.not_le.mpr room), found]
  exact if_pos there.2

end

/-- In a run whose calls are guarded no address is there twice, the entries in use are counted, and while there is
room an address is found at its index. -/
theorem pdns_sound (used : publicIp ≠ 0) (reached : Reachable step
    (fun tbl action => tbl.Valid action ∧ tbl.Guarded action) (boot.create publicIp) tbl) :
    (∀ publicIp ≠ 0, ∀ first second, tbl.present publicIp first → tbl.present publicIp second → first = second) ∧
      tbl.numPdns = tbl.inUse ∧ ∀ ioctl pdnInfo i, tbl.Guarded (.alloc ioctl pdnInfo) → pdnInfo.publicIp ≠ 0 →
        tbl.numPdns < ipaMaxPdnNum - 1 → tbl.present pdnInfo.publicIp i → tbl.allocPdn ioctl pdnInfo = (tbl, some i) := by
  have sound := reached.invariant Sound (create_sound used fun _ _ => rfl)
    fun before action after sound permitted taken => sound.step permitted.1 permitted.2 taken
  exact ⟨sound.unique, sound.counted, fun ioctl pdnInfo i guarded nonzero room there =>
    sound.found guarded nonzero room there⟩

/-- A table is used, emptied and created anew; its address and the one of a modified entry are found. -/
theorem pdns_sound_again : ∃ tbl, Reachable step (fun tbl action => tbl.Valid action ∧ tbl.Guarded action)
      (boot.create 1) tbl ∧
    tbl.numPdns = 2 ∧ tbl.inUse = 2 ∧ tbl.allocPdn true ⟨5, 0, 0⟩ = (tbl, some 0) ∧
      tbl.allocPdn false ⟨4, 0, 0⟩ = (tbl, some 1) := by
  refine reaches [.alloc true ⟨2, 0, 0⟩, .alloc false ⟨3, 0, 0⟩, .alloc true ⟨3, 6, 7⟩, .dealloc true 1, .dealloc true 2,
      .create 5, .alloc true ⟨2, 0, 0⟩, .modify true 1 ⟨4, 8, 9⟩]
    (fun tbl => tbl.numPdns = 2 ∧ ((tbl.pdns 0).publicIp = 5 ∧ (tbl.pdns 1).publicIp = 4) ∧
      (tbl.Valid (.alloc true ⟨5, 0, 0⟩) ∧ tbl.Guarded (.alloc true ⟨5, 0, 0⟩)) ∧
      tbl.Valid (.alloc false ⟨4, 0, 0⟩) ∧ tbl.Guarded (.alloc false ⟨4, 0, 0⟩)) (by decide)
    fun tbl reached ⟨two, ⟨first, second⟩, five, four⟩ => ?_
  obtain ⟨-, counted, found⟩ := pdns_sound (by decide) reached
  have room : tbl.numPdns < ipaMaxPdnNum - 1 := two ▸ by decide
  exact ⟨two, counted ▸ two, found true _ 0 five.2 five.1 room ⟨by decide, first⟩,
    found false _ 1 four.2 four.1 room ⟨by decide, second⟩⟩

/-- An address gets a second entry once an entry in front of it is free; an address that is written
to a free entry is not counted; nor are the entries that are left when a table is created anew. -/
theorem pdn_twice : (∃ tbl, Reachable step Valid (boot.create 1) tbl ∧ tbl.present 3 1 ∧ tbl.present 3 2) ∧
    (∃ tbl, Reachable step Valid (boot.create 1) tbl ∧ tbl.numPdns = 1 ∧ tbl.inUse = 2) ∧
    ∃ before tbl, Reachable step (fun tbl action => tbl.Valid action ∧ tbl.Guarded action) (boot.create 1) before ∧
      before.step (.create 5) = some tbl ∧ tbl.numPdns = 1 ∧ tbl.inUse = 2 := by
  have address (tbl : PdnTable) : tbl.Valid (.alloc true ⟨3, 0, 0⟩) := by
    show (3 : BitVec 32) ≠ 0
    decide
  refine ⟨⟨_, .next (.next (.next (.next .start ?_ (rfl : step _ (.alloc true ⟨2, 0, 0⟩) = _))
    (address _) rfl) ?_ (rfl : step _ (.dealloc true 1) = _)) (address _) rfl, ⟨by decide, rfl⟩, ⟨by decide, rfl⟩⟩,
    ⟨_, .next .start ?_ (rfl : step _ (.modify true 1 ⟨2, 0, 0⟩) = _), rfl, ?_⟩,
    _, _, .next .start ?_ (rfl : step _ (.alloc true ⟨2, 0, 0⟩) = _), rfl, rfl, ?_⟩
  all_goals decide

end PdnTable

end KernelModules.IpaNat

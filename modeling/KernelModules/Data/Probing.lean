import KernelModules.Data.Ring

namespace KernelModules.Data

/-! # Linear probing

A probe visits the slots of a table from a start, wrapping at the end.  At each slot it succeeds, gives up or goes
on.
-/

def probeSlot (size start step : Nat) : Nat := (start + step) % size

theorem probeSlot_lt (pos : 0 < size) : probeSlot size start step < size :=
  Nat.mod_lt _ pos

theorem probeSlot_succ : (probeSlot size start step + 1) % size = probeSlot size start (step + 1) := by
  unfold probeSlot
  rw [Nat.mod_add_mod, add_assoc]

theorem probeSlot_injective (inside : step < size) (otherInside : other < size)
    (same : probeSlot size start step = probeSlot size start other) : step = other := by
  rcases Nat.le_total step other with ordered | ordered
  · have met := ring_place_injective (Nat.add_le_add_left ordered start) (by omega) same
    omega
  · have met := ring_place_injective (Nat.add_le_add_left ordered start) (by omega) same.symm
    omega

theorem exists_probeSlot (inside : slot < size) (start : Nat) :
    ∃ step, step < size ∧ probeSlot size start step = slot := by
  have bound := Nat.mod_lt start (Nat.zero_lt_of_lt inside)
  by_cases behind : start % size ≤ slot
  · refine ⟨slot - start % size, by omega, ?_⟩
    unfold probeSlot
    rw [← Nat.mod_add_mod, Nat.add_sub_cancel' behind, Nat.mod_eq_of_lt inside]
  · refine ⟨slot + size - start % size, by omega, ?_⟩
    unfold probeSlot
    rw [← Nat.mod_add_mod, Nat.add_sub_cancel' (by omega), Nat.add_mod_right, Nat.mod_eq_of_lt inside]

/-- The step at which a probe succeeds, by the verdict of each step; nothing where the probe goes on. -/
def scan (verdict : Nat → Option Bool) : Nat → Nat → Option Nat
  | 0, _ => none
  | left + 1, step =>
    match verdict step with
    | some true => some step
    | some false => none
    | none => scan verdict left (step + 1)

theorem scan_eq_some_iff : scan verdict left step = some found ↔ step ≤ found ∧ found < step + left ∧
      verdict found = some true ∧ ∀ earlier, step ≤ earlier → earlier < found → verdict earlier = none := by
  induction left generalizing step with
  | zero =>
    constructor
    · intro scanned
      cases scanned
    · rintro ⟨low, high, -⟩
      omega
  | succ left ih =>
    unfold scan
    cases here : verdict step with
    | none =>
      rw [ih]
      constructor
      · rintro ⟨low, high, success, before⟩
        refine ⟨by omega, by omega, success, fun earlier from_ lt => ?_⟩
        by_cases first : earlier = step
        · rw [first]
          exact here
        · exact before earlier (by omega) lt
      · rintro ⟨low, high, success, before⟩
        have later : step ≠ found := by
          rintro rfl
          rw [here] at success
          cases success
        exact ⟨by omega, by omega, success, fun earlier from_ => before earlier (by omega)⟩
    | some out =>
      cases out with
      | true =>
        constructor
        · intro scanned
          cases scanned
          exact ⟨le_rfl, by omega, here, fun earlier low high => absurd low (by omega)⟩
        · rintro ⟨low, -, -, before⟩
          have same : step = found := by
            by_contra later
            have passed := before step le_rfl (by omega)
            rw [here] at passed
            cases passed
          rw [same]
      | false =>
        constructor
        · intro scanned
          cases scanned
        · rintro ⟨low, -, success, before⟩
          by_cases first : step = found
          · rw [first, success] at here
            cases here
          · have passed := before step le_rfl (by omega)
            rw [here] at passed
            cases passed

theorem scan_first (low : step ≤ found) (inside : found < step + left) (success : verdict found = some true)
    (patient : ∀ earlier, earlier < found → verdict earlier ≠ some false) :
    ∃ first, scan verdict left step = some first := by
  induction left generalizing step with
  | zero => omega
  | succ left ih =>
    unfold scan
    cases here : verdict step with
    | none =>
      have later : step ≠ found := by
        rintro rfl
        rw [here] at success
        cases success
      exact ih (by omega) (by omega)
    | some out =>
      cases out with
      | true => exact ⟨step, rfl⟩
      | false =>
        have same : step = found := by
          by_contra earlier
          exact patient step (by omega) here
        rw [same, success] at here
        cases here

end KernelModules.Data

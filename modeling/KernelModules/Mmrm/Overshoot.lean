import KernelModules.Mmrm.Aggregate

namespace KernelModules.Mmrm

open Data

/-! # No overshoot

What a request has to do with the threshold.
-/

section Requests

variable (sinfo : ClkMgrInfo) (call : SetvalCall) (reqLevel : Nat)

def SetvalCall.Unsatisfiable : Prop :=
  call.MayThrottle sinfo reqLevel ∧ ∀ id ∈ sinfo.throttleTblEntryIds, id ≠ call.id → sinfo.threshold.toNat ≤
        call.neededCurrent (sinfo.put id (sinfo.clkClientTbl id).throttled) reqLevel

/-- Where throttling reports success, it has throttled a client, and that was enough. -/
def SetvalCall.ThrottlesEnough : Prop :=
  call.MayThrottle sinfo reqLevel →
    (throttleLowPriorityClient sinfo call.answers (call.delta sinfo reqLevel)).rc = 0 →
      ∃ id, call.throttles sinfo reqLevel = some id ∧
        call.neededCurrent (sinfo.put id (sinfo.clkClientTbl id).throttled) reqLevel < sinfo.threshold.toNat

end Requests

def MmrmCall.Guarded (sinfo : ClkMgrInfo) (call : MmrmCall) : Prop :=
  call.Steady sinfo ∧ ∀ setval, call = .setval setval →
    ∀ reqLevel, setval.prepare sinfo = .request reqLevel → setval.ThrottlesEnough sinfo reqLevel

/-- A rate that is set leaves the current of all clients below the threshold, and a request that
throttling cannot satisfy is rejected. -/
structure SetvalCall.NoOvershoot (sinfo : ClkMgrInfo) (call : SetvalCall) : Prop where
  below : (clkClientSetval sinfo call).2 = 0 →
    (clkClientSetval sinfo call).1.totalCurrent (clkClientSetval sinfo call).1.highestLevel < sinfo.threshold.toNat
  rejected : ∀ reqLevel, call.prepare sinfo = .request reqLevel →
    call.Unsatisfiable sinfo reqLevel → (clkClientSetval sinfo call).2 ≠ 0

def MmrmCall.NoOvershoot (sinfo : ClkMgrInfo) (call : MmrmCall) : Prop :=
  ∀ setval, call = .setval setval → setval.NoOvershoot sinfo

theorem clkClientRegister_peak (sinfo : ClkMgrInfo) (call : RegisterCall) :
    (clkClientRegister sinfo call).1.aggregVal = sinfo.aggregVal ∧
      (clkClientRegister sinfo call).1.threshold = sinfo.threshold := by
  unfold clkClientRegister
  dsimp only
  repeat' split
  all_goals exact ⟨rfl, rfl⟩

theorem clkClientDeregister_peak (sinfo : ClkMgrInfo) (id : Nat) :
    (clkClientDeregister sinfo id).1.aggregVal = sinfo.aggregVal ∧
      (clkClientDeregister sinfo id).1.threshold = sinfo.threshold := by
  unfold clkClientDeregister
  split
  · exact ⟨rfl, rfl⟩
  · exact ⟨rfl, rfl⟩

theorem throttleChoice_mem {id : Nat} (ids : List Nat) (i : Nat) (rc : Int)
    (chosen : throttleChoice sinfo answers deltaCur i ids rc = some id) : id ∈ ids := by
  induction ids generalizing i rc with
  | nil => cases chosen
  | cons first rest ih =>
    unfold throttleChoice at chosen
    dsimp only at chosen
    split at chosen
    · split at chosen
      · exact List.mem_cons_of_mem _ (ih _ _ chosen)
      · split at chosen
        · exact List.mem_cons_of_mem _ (ih _ _ chosen)
        · split at chosen
          · cases chosen
            exact List.mem_cons_self
          · cases chosen
    · exact List.mem_cons_of_mem _ (ih _ _ chosen)

theorem SetvalCall.Accepted.below {call : SetvalCall} (kept : sinfo.Kept)
    (positive : 0 < sinfo.threshold.toNat) (steady : call.Steady sinfo reqLevel)
    (enough : call.ThrottlesEnough sinfo reqLevel) (accepted : call.Accepted sinfo reqLevel throttled checked) :
    checked.aggregVal.toNat < sinfo.threshold.toNat ∧ ¬ call.Unsatisfiable sinfo reqLevel := by
  have small := steady.current
  have val := accepted.val
  rcases accepted.fits with ⟨may, chosen, success⟩ | ⟨none, fits⟩
  · obtain ⟨id, choice, less⟩ := enough may success
    have exactly := steady.throttle may id choice
    have rated := kept.tidy.worth_rated ((throttleLoop_spec ..).1 id choice)
    have registered := kept.tidy.registered id (kept.tidy.clocked id rated)
    have within := (kept.tidy.found id registered).1
    rw [chosen, choice] at val
    rw [val, exactly.aggregVal within small]
    refine ⟨less, fun unsatisfiable => ?_⟩
    have most := unsatisfiable.2 id (throttleChoice_mem _ _ _ choice) exactly.other
    omega
  · subst none
    have aggreg : checked.aggregVal.toNat = call.neededCurrent sinfo reqLevel := by
      rw [val, show sinfo.savedCurMa none = 0#32 from rfl, BitVec.sub_zero, BitVec.toNat_ofNat,
        Nat.mod_eq_of_lt (by omega)]
    refine ⟨by omega, fun unsatisfiable => ?_⟩
    obtain ⟨reaches, some, -⟩ := unsatisfiable.1
    omega

theorem clkClientSetval_accepted (kept : sinfo.Kept) (steady : (MmrmCall.setval call).Steady sinfo)
    (prep : call.prepare sinfo = .request reqLevel) (success : (clkClientSetval sinfo call).2 = 0) :
    ∃ throttled checked, call.Accepted sinfo reqLevel throttled checked := by
  have requests := SetvalCall.prepare_request prep
  have reg := kept.tidy.registered call.id requests.clocked
  rcases checkPeakCurrent_outcome kept.tidy kept.exact reg requests.valid
      (steady reqLevel prep) with ⟨failed, -⟩ | ⟨-, throttled, ok⟩
  · unfold clkClientSetval at success
    rw [prep] at success
    dsimp only at success
    rw [if_pos failed] at success
    exact absurd success failed
  · exact ⟨throttled, _, ok⟩

theorem MmrmCall.Guarded.below (kept : sinfo.Kept)
    (below : sinfo.aggregVal.toNat < sinfo.threshold.toNat) {call : MmrmCall} (guarded : call.Guarded sinfo) :
    (call.perform sinfo).aggregVal.toNat < (call.perform sinfo).threshold.toNat ∧
      (call.perform sinfo).threshold = sinfo.threshold := by
  obtain ⟨steady, enough⟩ := guarded
  cases call with
  | register call =>
    obtain ⟨aggregVal, threshold⟩ := clkClientRegister_peak sinfo call
    rw [MmrmCall.perform_register, aggregVal, threshold]
    exact ⟨below, rfl⟩
  | deregister id =>
    obtain ⟨aggregVal, threshold⟩ := clkClientDeregister_peak sinfo id
    rw [MmrmCall.perform_deregister, aggregVal, threshold]
    exact ⟨below, rfl⟩
  | setval call =>
    rw [MmrmCall.perform_setval]
    rcases clkClientSetval_outcome kept steady with
      same | ⟨-, reserve, changed⟩ | ⟨reqLevel, throttled, checked, prepared, accepted, recorded⟩
    · rw [same]
      exact ⟨below, rfl⟩
    · rw [changed]
      exact ⟨below, rfl⟩
    have less := (accepted.below kept (by omega) (steady reqLevel prepared) (enough call rfl reqLevel prepared)).1
    have threshold := accepted.only.threshold
    rw [recorded]
    refine ⟨?_, threshold⟩
    show checked.aggregVal.toNat < checked.threshold.toNat
    rw [threshold]
    exact less

theorem MmrmCall.Guarded.noOvershoot (kept : sinfo.Kept)
    (lt : sinfo.aggregVal.toNat < sinfo.threshold.toNat) {call : MmrmCall}
    (guarded : call.Guarded sinfo) : call.NoOvershoot sinfo := by
  intro setval same
  subst same
  have after := guarded.1.kept kept
  obtain ⟨less, threshold⟩ := guarded.below kept lt
  constructor
  · intro _
    have total := after.exact.val
    rw [MmrmCall.perform_setval] at total less threshold
    rw [← total, ← threshold]
    exact less
  · intro reqLevel prep unsatisfiable success
    obtain ⟨throttled, checked, ok⟩ :=
      clkClientSetval_accepted kept guarded.1 prep success
    exact (ok.below kept (by omega) (guarded.1 reqLevel prep) (guarded.2 setval rfl reqLevel prep)).2 unsatisfiable

/-- In every run of guarded calls with a threshold other than zero, no accepted request overshoots
the threshold. -/
theorem no_overshoot {vddCorner : Nat → Int} {threshold : BitVec 32}
    {nomClkSet : List (BitVec 32 × BitVec 32)} {clsids : List (BitVec 32)} {calls : List MmrmCall}
    (positive : threshold ≠ 0) (guarded : Throughout (fun sinfo call => call.Guarded sinfo)
      (initSwClkMgr vddCorner threshold nomClkSet clsids) calls) :
    Throughout (fun sinfo call => call.NoOvershoot sinfo)
      (initSwClkMgr vddCorner threshold nomClkSet clsids) calls := by
  have general : ∀ sinfo : ClkMgrInfo, sinfo.Kept → sinfo.aggregVal.toNat < sinfo.threshold.toNat →
        Throughout (fun sinfo call => call.Guarded sinfo) sinfo calls →
          Throughout (fun sinfo call => call.NoOvershoot sinfo) sinfo calls := by
    clear guarded
    induction calls with
    | nil => exact fun _ _ _ _ => trivial
    | cons call rest ih =>
      rintro sinfo kept below ⟨here, later⟩
      exact ⟨here.noOvershoot kept below, ih _ (here.1.kept kept) (here.below kept below).1 later⟩
  refine general _ (initSwClkMgr_kept ..) ?_ guarded
  have some : threshold.toNat ≠ 0 := fun zero => positive (BitVec.eq_of_toNat_eq zero)
  exact pos_of_ne_zero some

theorem no_overshoot_first : Throughout (fun sinfo call => call.NoOvershoot sinfo)
      (initSwClkMgr corners 100 [(1, 4)] []) [registration 1 true, .setval (rateRequest 0 300)] := by
  obtain ⟨steady, low⟩ := first_steady true
  refine no_overshoot (by decide) ⟨⟨trivial, fun _ same => by cases same⟩,
    ⟨fun reqLevel prepared => ?_, fun setval same reqLevel prepared may => ?_⟩, trivial⟩
  · cases prepared
    exact steady
  · cases same
    cases prepared
    exact absurd may low

/-- Nobody can be throttled for a request above the threshold, and it is accepted. -/
theorem overshoot_accepted : ¬ ∀ vddCorner threshold nomClkSet clsids calls, threshold.toNat < 2147483648 →
      Throughout (fun sinfo call => call.NoOvershoot sinfo)
        (initSwClkMgr vddCorner threshold nomClkSet clsids) calls := by
  intro always
  obtain ⟨-, last, -⟩ := always corners 45 [(1, 4)] []
    [registration 1 true, .setval (rateRequest 0 400)] (by decide)
  exact absurd ((last _ rfl).below (by decide +kernel)) (by decide +kernel)

end KernelModules.Mmrm

import KernelModules.Data.Run
import KernelModules.Kgsl.Sound

namespace KernelModules.Kgsl

open Data KgslPagetable AddrAction KgslMemdesc KgslIommuAddrEntry

/-! # The runs of a page table

One lemma for each way in which a request finds its place, and from them what every run of
requests, regions and releases keeps.
-/

variable {rb : SearchTree.Balancing KgslIommuAddrEntry} {windows : VaWindows}
  {pagetable after : KgslPagetable} {memdesc : KgslMemdesc} {place size alignment : Nat} {allocated : Bool}
  {action : AddrAction}

section Requests

variable {bottom top : Nat}

theorem getUnmappedAreaHint_eq (regular : Regular top size alignment)
    (low : pagetable.vaHint ≤ 281474976710656) (pos : pagetable.vaHint ≠ 0) :
    pagetable.getUnmappedAreaHint top size alignment = if top < 4294967296 then (pagetable, Errno.inval.value)
      else if alignU64 pagetable.vaHint alignment + size > top then (pagetable, Errno.nomem.value)
      else ({ pagetable with vaHint := alignU64 pagetable.vaHint alignment + size },
        alignU64 pagetable.vaHint alignment) := by
  have topSmall := regular.top_small
  have rounded := (regular.align_least _ low).2
  have upper : upper32Bits top = 0 ↔ top < 4294967296 := by
    unfold upper32Bits
    omega
  unfold getUnmappedAreaHint
  simp only [pos, false_or, upper]
  rw [regular.sum_eq (by omega)]

theorem isErrValue_of_lt (small : place ≤ 562949953421312) : isErrValue place = false := by
  exact decide_eq_false (by omega)

theorem getUnmappedArea_search (errno : Errno)
    (refused : pagetable.getUnmappedAreaHint top size alignment = (pagetable, errno.value)) :
    pagetable.getUnmappedArea bottom top size alignment =
      (pagetable, searchGaps (alignU64 bottom alignment) top size alignment pagetable.entries
        (alignU64 bottom alignment)) := by
  have failed : isErrValue errno.value = true := by cases errno <;> decide
  unfold getUnmappedArea
  simp [refused, failed]

theorem getUnmappedArea_hint (regular : Regular top size alignment)
    (low : pagetable.vaHint ≤ 281474976710656) (pos : pagetable.vaHint ≠ 0)
    (high : 4294967296 ≤ top) (fits : alignU64 pagetable.vaHint alignment + size ≤ top) :
    pagetable.getUnmappedArea bottom top size alignment =
      ({ pagetable with vaHint := alignU64 pagetable.vaHint alignment + size },
        alignU64 pagetable.vaHint alignment) := by
  have served := @getUnmappedAreaHint_eq pagetable _ _ _ regular low pos
  rw [if_neg (by omega), if_neg (by omega)] at served
  have fine : isErrValue (alignU64 pagetable.vaHint alignment) = false :=
    isErrValue_of_lt (by have := (regular.align_least _ low).2; omega)
  unfold getUnmappedArea
  simp only [served, fine]
  rfl

section

variable {found : KgslPagetable × Nat}
  (area : pagetable.getUnmappedArea bottom top size alignment = found)
include area

theorem getGpuaddr_answer (answered : (pagetable.getGpuaddr rb bottom top size alignment allocated).2 = .ok place) :
    found.2 = place ∧ found.2 ≠ Errno.nomem.value := by
  unfold KgslPagetable.getGpuaddr at answered
  rw [area] at answered
  dsimp only at answered
  split at answered
  · cases answered
  · rename_i placed
    split at answered
    · cases answered
      exact ⟨rfl, placed⟩
    · cases answered

theorem getGpuaddr_kept (sound : found.1.Sound) (pos : 0 < size)
    (room : allocated = true → found.2 ≠ Errno.nomem.value →
      Free found.1.entries found.2 size ∧ found.2 + size ≤ 281474976710656 ∧
        (found.1.windows.vaStart ≤ found.2 ∧ found.2 + size ≤ found.1.vaHint ∨
          found.2 + size ≤ found.1.windows.vaStart ∨ found.1.windows.vaEnd ≤ found.2)) :
    (pagetable.getGpuaddr rb bottom top size alignment allocated).1.Sound := by
  unfold KgslPagetable.getGpuaddr
  rw [area]
  dsimp only
  split
  · exact sound
  rename_i placed
  split
  · rename_i inserted done
    obtain ⟨free, small, side⟩ := room (insertGpuaddr_ok sound.increasing done).1 placed
    exact sound.insert free pos small side done
  · exact sound

end

theorem KgslPagetable.Sound.raise (sound : pagetable.Sound) (vaHint : Nat)
    (raised : pagetable.vaHint ≤ vaHint) (high : vaHint ≤ pagetable.windows.vaEnd) :
    KgslPagetable.Sound { pagetable with vaHint } := by
  refine ⟨sound.ordered, sound.addressed, sound.filled, ?_, le_trans sound.low raised, high⟩
  intro entry mem
  rcases sound.placed entry mem with inside | outside
  · exact .inl ⟨inside.1, le_trans inside.2 raised⟩
  · exact .inr outside

theorem KgslPagetable.Sound.free_hint (sound : pagetable.Sound) (reach : pagetable.vaHint ≤ place)
    (lt : place + size ≤ pagetable.windows.vaEnd) : Free pagetable.entries place size := by
  intro entry mem
  have low := sound.low
  rcases sound.placed entry mem with inside | behind | beyond
  · exact .inr (le_trans inside.2 reach)
  · exact .inr (le_trans behind (le_trans low reach))
  · exact .inl (le_trans lt beyond)

end Requests

instance : DecidablePred AddrAction.Regular
  | .getGpuaddr _ _ => inferInstanceAs (Decidable (_ ∧ _ ∧ _))
  | .setSvmRegion .. => inferInstanceAs (Decidable True)
  | .putGpuaddr _ => inferInstanceAs (Decidable True)

theorem AddrAction.Regular.search (regular : (getGpuaddr memdesc allocated).Regular) :
    Kgsl.Regular (memdesc.windowEnd windows) memdesc.footprint memdesc.alignment := by
  have small := regular.1
  have compatLow := windows.compat_low
  have vaBits := windows.va_bits
  refine ⟨⟨max memdesc.align 12, by omega, alignment_eq small⟩, regular.2.2, ?_⟩
  unfold windowEnd
  split <;> omega

theorem KgslMemdesc.answered (small : memdesc.align ≤ 30) {entries : List KgslIommuAddrEntry}
    (fits : Fits entries (memdesc.windowStart windows) (memdesc.windowEnd windows) memdesc.footprint
      memdesc.alignment place) : memdesc.Answered windows place := by
  have aligned := fits.aligned
  rw [alignment_eq small] at aligned
  exact ⟨(Nat.pow_dvd_pow 2 (Nat.le_max_left _ _)).trans aligned,
    (Nat.pow_dvd_pow 2 (Nat.le_max_right memdesc.align 12)).trans aligned, fits.above, fits.within⟩

theorem KgslMemdesc.window_wide (wide : memdesc.force32Bit = false) :
    memdesc.windowStart windows = windows.vaStart ∧ memdesc.windowEnd windows = windows.vaEnd := by
  unfold windowStart windowEnd
  rw [wide]
  exact ⟨rfl, rfl⟩

theorem KgslMemdesc.windowEnd_short (short : memdesc.force32Bit = true) :
    memdesc.windowEnd windows = windows.compatVaEnd := by
  unfold windowEnd
  rw [short]
  rfl

theorem KgslMemdesc.windowStart_le : memdesc.windowStart windows ≤ 281474976710656 := by
  have compatBits := windows.compat_bits
  have vaOrder := windows.va_order
  have vaBits := windows.va_bits
  unfold windowStart
  split <;> omega

theorem kgslIommuGetGpuaddr_refused (refused : memdesc.useCpuMap = true ∨ memdesc.secure = true) :
    pagetable.kgslIommuGetGpuaddr rb memdesc allocated = (pagetable, .error .inval) := by
  unfold kgslIommuGetGpuaddr
  rcases refused with mapped | secured
  · rw [if_pos mapped]
  · simp [secured]

theorem kgslIommuGetGpuaddr_eq (mapped : memdesc.useCpuMap = false) (secured : memdesc.secure = false) :
    pagetable.kgslIommuGetGpuaddr rb memdesc allocated =
      pagetable.getGpuaddr rb (memdesc.windowStart pagetable.windows) (memdesc.windowEnd pagetable.windows)
        memdesc.footprint memdesc.alignment allocated := by
  unfold kgslIommuGetGpuaddr
  rw [mapped, secured]
  rfl

namespace KgslPagetable.Sound

variable (sound : pagetable.Sound)
include sound

section

variable (regular : (AddrAction.getGpuaddr memdesc allocated).Regular)
include regular

theorem searched (behind : memdesc.force32Bit = true ∨
      pagetable.windows.vaEnd < alignU64 pagetable.vaHint memdesc.alignment + memdesc.footprint) :
    ∃ start, pagetable.getUnmappedArea (memdesc.windowStart pagetable.windows)
        (memdesc.windowEnd pagetable.windows) memdesc.footprint memdesc.alignment = (pagetable, start) ∧
      (start ≠ Errno.nomem.value → Fits pagetable.entries (memdesc.windowStart pagetable.windows)
        (memdesc.windowEnd pagetable.windows) memdesc.footprint memdesc.alignment start) ∧
      ∀ place, Fits pagetable.entries (memdesc.windowStart pagetable.windows)
        (memdesc.windowEnd pagetable.windows) memdesc.footprint memdesc.alignment place → start ≤ place := by
  have low := sound.low
  have high := sound.high
  have vaHigh := pagetable.windows.va_high
  have vaBits := pagetable.windows.va_bits
  have compatLow := pagetable.windows.compat_low
  have shape : Kgsl.Regular (memdesc.windowEnd pagetable.windows) memdesc.footprint memdesc.alignment :=
    regular.search
  have tried := @getUnmappedAreaHint_eq pagetable _ _ _ shape (by omega) (by omega)
  have spec := shape.search_spec sound.ordered sound.addressed regular.2.1
    (@windowStart_le pagetable.windows memdesc) rfl
  refine ⟨_, ?_, spec⟩
  by_cases short : memdesc.force32Bit = true
  · have low32 : memdesc.windowEnd pagetable.windows < 4294967296 := by
      unfold windowEnd
      rw [if_pos short]
      exact compatLow
    rw [if_pos low32] at tried
    exact getUnmappedArea_search .inval tried
  · have wide : memdesc.windowEnd pagetable.windows = pagetable.windows.vaEnd := if_neg short
    have past := behind.resolve_left short
    rw [wide] at tried ⊢
    rw [if_neg (by omega), if_pos past] at tried
    exact getUnmappedArea_search .nomem tried

theorem served (wide : memdesc.force32Bit = false)
    (fits : alignU64 pagetable.vaHint memdesc.alignment + memdesc.footprint ≤ pagetable.windows.vaEnd) :
    ∃ raised start, pagetable.getUnmappedArea (memdesc.windowStart pagetable.windows)
        (memdesc.windowEnd pagetable.windows) memdesc.footprint memdesc.alignment = (raised, start) ∧
      raised.Sound ∧ raised.windows = pagetable.windows ∧ raised.vaHint = start + memdesc.footprint ∧
        Fits raised.entries (memdesc.windowStart pagetable.windows) (memdesc.windowEnd pagetable.windows)
          memdesc.footprint memdesc.alignment start := by
  have low := sound.low
  have high := sound.high
  have vaHigh := pagetable.windows.va_high
  have vaBits := pagetable.windows.va_bits
  have window := @window_wide pagetable.windows memdesc wide
  have shape : Kgsl.Regular (memdesc.windowEnd pagetable.windows) memdesc.footprint memdesc.alignment :=
    regular.search
  rw [window.2] at shape
  have rounded := shape.align_least pagetable.vaHint (by omega)
  have reach : pagetable.vaHint ≤ alignU64 pagetable.vaHint memdesc.alignment := rounded.1.1.2
  rw [window.2]
  exact ⟨_, _, getUnmappedArea_hint shape (by omega) (by omega) (by omega) fits,
    sound.raise _ (by omega) fits, rfl, rfl, rounded.1.1.1, by omega, fits, sound.free_hint reach fits⟩

theorem answer (answered : (pagetable.kgslIommuGetGpuaddr rb memdesc allocated).2 = .ok place) :
    memdesc.Answered pagetable.windows place := by
  cases mapped : memdesc.useCpuMap with
  | true =>
    rw [kgslIommuGetGpuaddr_refused (.inl mapped)] at answered
    cases answered
  | false =>
  cases secured : memdesc.secure with
  | true =>
    rw [kgslIommuGetGpuaddr_refused (.inr secured)] at answered
    cases answered
  | false =>
  rw [kgslIommuGetGpuaddr_eq mapped secured] at answered
  by_cases behind : memdesc.force32Bit = true ∨
      pagetable.windows.vaEnd < alignU64 pagetable.vaHint memdesc.alignment + memdesc.footprint
  · obtain ⟨start, area, spec, _⟩ := sound.searched regular behind
    obtain ⟨rfl, placed⟩ := getGpuaddr_answer area answered
    exact KgslMemdesc.answered regular.1 (spec placed)
  · have wide : memdesc.force32Bit = false := Bool.eq_false_iff.mpr fun short => behind (.inl short)
    have fits := Nat.le_of_not_lt fun past => behind (.inr past)
    obtain ⟨raised, start, area, _, _, _, found⟩ := sound.served regular wide fits
    obtain ⟨rfl, _⟩ := getGpuaddr_answer area answered
    exact KgslMemdesc.answered regular.1 found

theorem get (meets : MeetsHint pagetable (.getGpuaddr memdesc allocated)) :
    (pagetable.kgslIommuGetGpuaddr rb memdesc allocated).1.Sound := by
  cases mapped : memdesc.useCpuMap with
  | true => rwa [kgslIommuGetGpuaddr_refused (.inl mapped)]
  | false =>
  cases secured : memdesc.secure with
  | true => rwa [kgslIommuGetGpuaddr_refused (.inr secured)]
  | false =>
  rw [kgslIommuGetGpuaddr_eq mapped secured]
  have vaBits := pagetable.windows.va_bits
  have vaHigh := pagetable.windows.va_high
  have compatLow := pagetable.windows.compat_low
  have high := sound.high
  cases short : memdesc.force32Bit with
  | true =>
    obtain ⟨start, area, spec, _⟩ := sound.searched regular (.inl short)
    refine getGpuaddr_kept area sound regular.2.1 fun _ placed => ?_
    have fits := spec placed
    have lt := fits.within
    rw [windowEnd_short short] at lt
    exact ⟨fits.free, by omega, .inr (.inl (by dsimp only; omega))⟩
  | false =>
  have window := @window_wide pagetable.windows memdesc short
  by_cases past : pagetable.windows.vaEnd < alignU64 pagetable.vaHint memdesc.alignment + memdesc.footprint
  · obtain ⟨start, area, spec, least⟩ := sound.searched regular (.inr past)
    refine getGpuaddr_kept area sound regular.2.1 fun given placed => ?_
    have fits := spec placed
    rw [window.1, window.2] at fits least
    have above := fits.above
    obtain ⟨place, below⟩ := meets given ⟨mapped, secured, short, past⟩ ⟨start, fits⟩
    have belowHint := below.within
    have lower := least place { below with within := by omega }
    exact ⟨fits.free, by omega, .inl ⟨above, by dsimp only; omega⟩⟩
  · obtain ⟨raised, start, area, kept, same, hint, fits⟩ :=
      sound.served regular short (Nat.le_of_not_lt past)
    refine getGpuaddr_kept area kept regular.2.1 fun _ _ => ?_
    rw [window.1] at fits
    have above := fits.above
    have lt := fits.within
    exact ⟨fits.free, by omega, .inl ⟨by rw [same]; exact above, by dsimp only; omega⟩⟩

theorem get_past (given : allocated = true) (past : pagetable.PastHint memdesc)
    (none : ¬pagetable.RoomBelowHint memdesc) : ¬(pagetable.kgslIommuGetGpuaddr rb memdesc allocated).1.Separate := by
  obtain ⟨mapped, secured, wide, beyond⟩ := past
  unfold RoomBelowHint at none
  push Not at none
  obtain ⟨⟨place, fits⟩, absent⟩ := none
  obtain ⟨start, area, spec, least⟩ := sound.searched regular (.inr beyond)
  have window := @window_wide pagetable.windows memdesc wide
  rw [window.1, window.2] at spec least
  have lower := least place fits
  have lt := fits.within
  have vaBits := pagetable.windows.va_bits
  have errno : Errno.nomem.value = 18446744073709551604 := rfl
  have placed : start ≠ Errno.nomem.value := by omega
  have found := spec placed
  have passed : pagetable.vaHint < start + memdesc.footprint := by
    by_contra under
    exact absent start { found with within := Nat.le_of_not_lt under }
  obtain ⟨after, inserted⟩ := @insert_free rb _ _ _ sound found.free regular.2.1
  obtain ⟨_, sameWindows, sameHint, before, behind, _, spread, _⟩ :=
    insertGpuaddr_ok sound.increasing inserted
  rw [kgslIommuGetGpuaddr_eq mapped secured]
  unfold getGpuaddr
  rw [area]
  rw [if_neg placed, given, inserted]
  intro separate
  have pos := regular.2.1
  have hinted := separate.hinted ⟨start, memdesc.footprint⟩ (by rw [spread]; simp)
    (by rw [sameWindows]; exact found.above) (by rw [sameWindows]; dsimp only; omega)
  unfold KgslIommuAddrEntry.stop at hinted
  dsimp only at hinted
  omega

end

theorem setSvm (addr : gpuaddr < 18446744073709551616) (bytes : size < 18446744073709551616)
    (inserted : pagetable.kgslIommuSetSvmRegion rb gpuaddr size allocated = .ok after) :
    after.Sound ∧ after.windows = pagetable.windows := by
  have svmBits := pagetable.windows.svm_bits
  have vaHigh := pagetable.windows.va_high
  have compatLow := pagetable.windows.compat_low
  unfold kgslIommuSetSvmRegion at inserted
  split at inserted
  · rename_i inside
    split at inserted
    · cases inserted
    · rename_i missed
      have range : gpuaddr < u64 (gpuaddr + size) ∧ (u64 (gpuaddr + size) ≤ pagetable.windows.compatVaEnd ∨
            pagetable.windows.svmStart ≤ gpuaddr ∧ u64 (gpuaddr + size) ≤ pagetable.windows.svmEnd) := by
        unfold iommuAddrInSvmRanges at inside
        grind
      have whole : u64 (gpuaddr + size) = gpuaddr + size := by
        have forward := range.1
        unfold u64 at forward ⊢
        omega
      rw [whole] at range missed
      have monotone : pagetable.entries.Pairwise fun one other =>
          (gpuaddr + size ≤ one.base → gpuaddr + size ≤ other.base) ∧
            (other.limit ≤ gpuaddr → one.limit ≤ gpuaddr) := by
        refine List.Pairwise.imp_of_mem ?_ sound.ordered
        intro one other first second before
        rw [limit_eq (sound.addressed one first), limit_eq (sound.addressed other second)]
        unfold stop at *
        omega
      have free : Free pagetable.entries gpuaddr size := by
        intro entry mem
        rw [← limit_eq (sound.addressed entry mem)]
        exact SearchTree.search_none monotone missed entry mem
      have side : gpuaddr + size ≤ pagetable.windows.vaStart ∨ pagetable.windows.vaEnd ≤ gpuaddr := by
        rcases pagetable.windows.svm_apart with before | behind <;> omega
      exact ⟨sound.insert free (by omega) (by omega) (.inr side) inserted,
        (insertGpuaddr_ok sound.increasing inserted).2.1⟩
  · cases inserted

theorem addrStep (meets : Meets pagetable action) (taken : addrStep rb pagetable action = some after) :
    after.Sound := by
  cases action with
  | getGpuaddr memdesc allocated =>
    cases taken
    exact sound.get meets.1 meets.2
  | setSvmRegion gpuaddr size allocated =>
    cases taken
    cases done : pagetable.kgslIommuSetSvmRegion rb gpuaddr.toNat size.toNat allocated with
    | error errno => exact sound
    | ok inserted => exact (sound.setSvm gpuaddr.toNat_lt size.toNat_lt done).1
  | putGpuaddr gpuaddr =>
    cases taken
    cases done : pagetable.removeGpuaddr rb gpuaddr.toNat with
    | error errno => exact sound
    | ok removed => exact (sound.remove done).1

end KgslPagetable.Sound

theorem KgslPagetable.Sound.init : (init windows).Sound where
  ordered := .nil
  addressed _ absent := by cases absent
  filled _ absent := by cases absent
  placed _ absent := by cases absent
  low := le_rfl
  high := windows.va_order

theorem insertGpuaddr_windows (inserted : pagetable.insertGpuaddr rb place size allocated = .ok after) :
    after.windows = pagetable.windows := by
  unfold insertGpuaddr at inserted
  split at inserted
  · split at inserted
    · cases inserted
    · cases inserted
      rfl
  · cases inserted

theorem getUnmappedArea_windows :
    (pagetable.getUnmappedArea bottom top size alignment).1.windows = pagetable.windows := by
  have tried : (pagetable.getUnmappedAreaHint top size alignment).1.windows = pagetable.windows := by
    unfold getUnmappedAreaHint
    split
    · rfl
    · dsimp only
      split <;> rfl
  unfold getUnmappedArea
  dsimp only
  split <;> exact tried

theorem addrStep_windows (taken : addrStep rb pagetable action = some after) : after.windows = pagetable.windows := by
  cases action with
  | getGpuaddr memdesc allocated =>
    cases taken
    unfold kgslIommuGetGpuaddr
    split
    · rfl
    split
    · rfl
    unfold KgslPagetable.getGpuaddr
    dsimp only
    split
    · exact getUnmappedArea_windows
    · split
      · rename_i done
        exact (insertGpuaddr_windows done).trans getUnmappedArea_windows
      · exact getUnmappedArea_windows
  | setSvmRegion gpuaddr size allocated =>
    cases taken
    cases done : pagetable.kgslIommuSetSvmRegion rb gpuaddr.toNat size.toNat allocated with
    | error errno => rfl
    | ok inserted =>
      unfold kgslIommuSetSvmRegion at done
      split at done
      · split at done
        · cases done
        · exact insertGpuaddr_windows done
      · cases done
  | putGpuaddr gpuaddr =>
    cases taken
    cases done : pagetable.removeGpuaddr rb gpuaddr.toNat with
    | error errno => rfl
    | ok removed =>
      unfold removeGpuaddr at done
      split at done
      · cases done
      · cases done
        rfl

theorem Reachable.sound (reached : Reachable (addrStep rb) Meets (.init windows) pagetable) :
    pagetable.Sound ∧ pagetable.windows = windows := by
  refine reached.invariant (fun state => state.Sound ∧ state.windows = windows) ⟨.init, rfl⟩ ?_
  intro before action after sound meets taken
  exact ⟨sound.1.addrStep meets taken, (addrStep_windows taken).trans sound.2⟩

/-- In a run whose requests find their place below the hint once the hint does not serve them, the
ranges stay disjoint and end below the hint, and every address is aligned and inside its window; and
the first request that does not breaks this. -/
theorem gpuaddrs_separate_iff (reached : Reachable (addrStep rb) Meets (.init windows) pagetable) :
    pagetable.Separate ∧ (∀ memdesc allocated place, (getGpuaddr memdesc allocated).Regular →
        (pagetable.kgslIommuGetGpuaddr rb memdesc allocated).2 = .ok place → memdesc.Answered windows place) ∧
      ∀ action after, action.Regular → addrStep rb pagetable action = some after →
        (after.Separate ↔ MeetsHint pagetable action) := by
  obtain ⟨sound, same⟩ := Reachable.sound reached
  refine ⟨sound.separate, ?_, ?_⟩
  · intro memdesc allocated place regular answered
    rw [← same]
    exact sound.answer regular answered
  · intro action after regular taken
    constructor
    · intro separate
      cases action with
      | getGpuaddr memdesc allocated =>
        intro given past
        by_contra none
        cases taken
        exact sound.get_past regular given past none separate
      | setSvmRegion gpuaddr size allocated => trivial
      | putGpuaddr gpuaddr => trivial
    · intro meets
      exact (sound.addrStep ⟨regular, meets⟩ taken).separate

/-- A request for `size` bytes of the 64-bit window, by pages. -/
def pages (size : UInt64) : KgslMemdesc := ⟨size, 12, false, false, false, false⟩

def processPagetable : KgslPagetable :=
  .init (kgslWindows 0x400000 (by decide) true false)

theorem gpuaddrs_separate_iff_two : ∃ pagetable, Reachable (addrStep .plain) Meets processPagetable pagetable ∧
      pagetable.entries = [⟨0x4000001000, 0x2000⟩] ∧ pagetable.Separate := by
  have served (pagetable : KgslPagetable) (size : UInt64)
      (regular : (getGpuaddr (pages size) true).Regular)
      (fits : ¬pagetable.windows.vaEnd <
        alignU64 pagetable.vaHint (pages size).alignment + (pages size).footprint) :
      Meets pagetable (.getGpuaddr (pages size) true) :=
    ⟨regular, fun _ past => absurd past.2.2.2 fits⟩
  have first := @Reachable.next _ _ (addrStep .plain) _ _ processPagetable _ _ .start
    (served processPagetable 0x1000 (by decide) (by decide)) rfl
  have second := first.next (served _ 0x2000 (by decide) (by decide)) rfl
  have third := @Reachable.next _ _ _ _ _ _ _ (putGpuaddr 0x4000000000) second
    ⟨trivial, trivial⟩ rfl
  exact ⟨_, third, by decide, (gpuaddrs_separate_iff third).1⟩

/-- The shift of an `int` by 31 makes a negative number of the alignment. -/
example : (processPagetable.kgslIommuGetGpuaddr .plain ⟨0x1000, 31, false, false, false, false⟩
    true).2.toOption = some 0 := by decide +kernel

/-- A request fails twice for want of a node, one finds its place past the hint that the failure
left, and a third is served at the hint, inside it. -/
def overlappingRun : List AddrAction :=
  [.getGpuaddr (pages 0x1000000000) false, .getGpuaddr (pages 0x1000000000) false,
    .getGpuaddr (pages 0x3000000000) true, .getGpuaddr (pages 0x1000) true]

theorem gpuaddrs_overlap :
    ∃ pagetable, Reachable (addrStep .plain) (fun _ action => action.Regular) processPagetable pagetable ∧
      pagetable.entries = [⟨0x4000000000, 0x3000000000⟩, ⟨0x6000000000, 0x1000⟩] ∧ ¬pagetable.Separate := by
  refine reaches overlappingRun (fun pagetable => pagetable.entries =
    [⟨0x4000000000, 0x3000000000⟩, ⟨0x6000000000, 0x1000⟩]) (by decide +kernel)
    fun pagetable _ entries => ⟨entries, fun separate => ?_⟩
  have disjoint := separate.disjoint
  rw [entries] at disjoint
  exact absurd disjoint (by decide)

end KernelModules.Kgsl

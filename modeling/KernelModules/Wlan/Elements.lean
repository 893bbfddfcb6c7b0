import KernelModules.Data.ByteMemory

namespace KernelModules.Wlan

open BitVec
open List hiding head
open Data

/-! # Elements and capability fields of received frames

An element is an id, a length and that many bytes.  A capability field is a run of bits that
starts anywhere in a byte.
-/

/-- `wlan_get_ie_ptr_from_eid_n_oui`, from the element at `place` on: the place of the element that
it finds. -/
def wlanGetIePtrFromEidNOui (eid : BitVec 8) (oui : Option (List (BitVec 8))) : List (BitVec 8) → Nat → Option Nat
  | elemId :: elemLen :: left, place =>
    if left.length < elemLen.toNat then none
    else
      let next := fun _ : Unit => wlanGetIePtrFromEidNOui eid oui (left.drop elemLen.toNat)
        (place + (elemLen.toNat + 2))
      if eid = elemId then match oui with
        | none => some place
        | some oui =>
          if left.length < oui.length then none
          else if left.take oui.length = oui then some place
          else next ()
      else next ()
  | _, _ => none
termination_by ie => ie.length
decreasing_by
  rw [List.length_drop, List.length_cons, List.length_cons]
  omega

/-- An element of a buffer, with the bytes of the buffer behind it. -/
structure Element where
  place : Nat
  id : BitVec 8
  payload : List (BitVec 8)
  behind : List (BitVec 8)

def elements : List (BitVec 8) → Nat → List Element
  | elemId :: elemLen :: left, place =>
    if left.length < elemLen.toNat then []
    else ⟨place, elemId, left.take elemLen.toNat, left.drop elemLen.toNat⟩ ::
        elements (left.drop elemLen.toNat) (place + (elemLen.toNat + 2))
  | _, _ => []
termination_by ie => ie.length
decreasing_by
  rw [List.length_drop, List.length_cons, List.length_cons]
  omega

namespace Element

variable (eid : BitVec 8) (oui : Option (List (BitVec 8))) (element : Element)

def Matches : Prop := element.id = eid ∧ ∀ bytes ∈ oui, bytes <+: element.payload

def SeemsToMatch : Prop := element.id = eid ∧ ∀ bytes ∈ oui, bytes <+: element.payload ++ element.behind

instance : Decidable (element.Matches eid oui) := by
  unfold Matches
  cases oui <;> infer_instance

instance : Decidable (element.SeemsToMatch eid oui) := by
  unfold SeemsToMatch
  cases oui <;> infer_instance

end Element

section Lookup

variable {eid : BitVec 8} {oui : Option (List (BitVec 8))} {ie : List (BitVec 8)} {place : Nat}

theorem elements_bounds (mem : element ∈ elements ie place) :
    place ≤ element.place ∧ element.payload.length + element.behind.length ≤ ie.length := by
  fun_induction elements ie place with
  | case1 => cases mem
  | case2 elemId elemLen left place fits ih =>
    simp only [length_cons]
    rcases mem_cons.mp mem with rfl | later
    · simp only [length_take, length_drop]
      omega
    · have bounds := ih later
      rw [length_drop] at bounds
      omega
  | case3 => cases mem

theorem elements_none (long : ie.length < bytes.length) :
    (elements ie place).find? (fun element => element.SeemsToMatch eid (some bytes)) = none := by
  apply find?_eq_none.mpr
  intro element mem seems
  have bound := (elements_bounds mem).2
  have starts := ((of_decide_eq_true seems).2 bytes rfl).length_le
  rw [length_append] at starts
  omega

theorem wlanGetIePtr_eq : wlanGetIePtrFromEidNOui eid oui ie place =
      ((elements ie place).find? fun element => element.SeemsToMatch eid oui).map Element.place := by
  fun_induction elements ie place with
  | case1 elemId elemLen left place short =>
    rw [wlanGetIePtrFromEidNOui, if_pos short]
    rfl
  | case2 elemId elemLen left place fits ih =>
    rw [wlanGetIePtrFromEidNOui, if_neg fits, find?_cons]
    rw [ih]
    by_cases same : eid = elemId
    · rw [if_pos same]
      cases oui with
      | none => simp [Element.SeemsToMatch, same]
      | some bytes =>
        have seems : Element.SeemsToMatch eid (some bytes) ⟨place, elemId, left.take elemLen.toNat,
            left.drop elemLen.toNat⟩ ↔ bytes <+: left := by
          simp [Element.SeemsToMatch, same]
        dsimp only
        split
        · rename_i long
          have absent : ¬ bytes <+: left := fun starts => Nat.not_le_of_lt long starts.length_le
          rw [decide_eq_false fun found => absent (seems.mp found), elements_none (lt_of_le_of_lt (by simp) long)]
          rfl
        · simp only [seems, prefix_iff_eq_take, eq_comm (a := bytes)]
          by_cases starts : left.take bytes.length = bytes
          · simp [starts]
          · simp [starts]
    · simp [if_neg same, Element.SeemsToMatch, Ne.symm same]
  | case3 ie place other =>
    rw [wlanGetIePtrFromEidNOui]
    · rfl
    · exact other

theorem Element.Matches.seems {element : Element} (matched : element.Matches eid oui) : element.SeemsToMatch eid oui :=
  ⟨matched.1, fun bytes given => (matched.2 bytes given).trans (prefix_append ..)⟩

theorem elements_ordered : (elements ie place).Pairwise fun first later => first.place < later.place := by
  fun_induction elements ie place with
  | case1 => exact .nil
  | case2 elemId elemLen left place fits ih =>
    refine .cons (fun later mem => ?_) ih
    have bound := (elements_bounds mem).1
    dsimp only
    omega
  | case3 => exact .nil

/-- Every element that only seems to match has one that matches before it. -/
def Sound (eid : BitVec 8) (oui : Option (List (BitVec 8))) (list : List Element) : Prop :=
  ∀ before element behind, list = before ++ element :: behind → element.SeemsToMatch eid oui →
    element.Matches eid oui ∨ ∃ earlier ∈ before, earlier.Matches eid oui

theorem sound_cons : Sound eid oui (head :: rest) ↔
    head.Matches eid oui ∨ ¬ head.SeemsToMatch eid oui ∧ Sound eid oui rest := by
  constructor
  · intro sound
    by_cases matched : head.Matches eid oui
    · exact .inl matched
    · refine .inr ⟨fun seems => ?_, fun before element behind parts seems => ?_⟩
      · simpa [matched] using sound [] head rest rfl seems
      · have found := sound (head :: before) element behind (by rw [parts]; rfl) seems
        simpa [matched] using found
  · rintro (matched | ⟨unlike, sound⟩) before element behind parts seems
    · cases before with
      | nil =>
        cases parts
        exact .inl matched
      | cons first before =>
        cases parts
        exact .inr ⟨_, mem_cons_self, matched⟩
    · cases before with
      | nil =>
        cases parts
        exact absurd seems unlike
      | cons first before =>
        cases parts
        exact (sound before element behind rfl seems).imp_right
          fun ⟨earlier, mem, matched⟩ => ⟨earlier, mem_cons_of_mem _ mem, matched⟩

theorem find_eq_iff {list : List Element} (ordered : list.Pairwise fun first later => first.place < later.place) :
    (list.find? fun element => element.SeemsToMatch eid oui).map Element.place =
        (list.find? fun element => element.Matches eid oui).map Element.place ↔ Sound eid oui list := by
  induction list with
  | nil => simp [Sound]
  | cons head rest ih =>
    obtain ⟨first, later⟩ := pairwise_cons.mp ordered
    rw [sound_cons, find?_cons, find?_cons, ← ih later]
    by_cases matched : head.Matches eid oui
    · simp [matched, matched.seems]
    · by_cases seems : head.SeemsToMatch eid oui
      · simp only [matched, seems, decide_true, decide_false, Option.map_some, false_or, not_true, false_and, iff_false]
        intro same
        obtain ⟨element, found, place⟩ := Option.map_eq_some_iff.mp same.symm
        exact absurd place (Nat.ne_of_gt (first element (mem_of_find?_eq_some found)))
      · simp [matched, seems]

/-- The lookup finds the first match if and only if every element that only seems to match, with bytes from behind
it, has one before it. -/
theorem wlanGetIePtr_first_match_iff (eid : BitVec 8) (oui : Option (List (BitVec 8))) (ie : List (BitVec 8)) :
    wlanGetIePtrFromEidNOui eid oui ie 0 =
        ((elements ie 0).find? fun element => element.Matches eid oui).map Element.place ↔
      Sound eid oui (elements ie 0) := by
  rw [wlanGetIePtr_eq]
  exact find_eq_iff elements_ordered

/-- A vendor element with one byte, and the prefix goes on in the element behind it. -/
theorem wlanGetIePtr_short_element : ¬ ∀ eid oui ie, wlanGetIePtrFromEidNOui eid oui ie 0 =
      ((elements ie 0).find? fun element => element.Matches eid oui).map Element.place := by
  intro always
  have same := always 221 (some [0, 80]) [221, 1, 0, 80, 0]
  simp [wlanGetIePtr_eq, elements, Element.SeemsToMatch, Element.Matches] at same

end Lookup

/-- `(1 << num_bits) - 1`. -/
def lowBits (numBits : Nat) : BitVec 32 := BitVec.ofNat 32 (2 ^ numBits - 1)

/-- `QDF_SET_BITS` of a byte. -/
def qdfSetBits (byte : BitVec 8) (index numBits : Nat) (value : BitVec 32) : BitVec 8 :=
  ((byte.setWidth 32 &&& ~~~(lowBits numBits <<< index)) |||
    ((value &&& lowBits numBits) <<< index)).setWidth 8

/-- `QDF_GET_BITS` of a byte. -/
def qdfGetBits (byte : BitVec 8) (index numBits : Nat) : BitVec 32 :=
  (byte.setWidth 32 >>> index) &&& lowBits numBits

/-- The loop of `wlan_iecap_set` and what follows it.  In the loop the bits that fit go up to the
end of the byte. -/
def iecapSetLoop (value : BitVec 32) (iecap : ByteMemory) (byteCnt : Nat) (bitPos : Fin 8)
    (totBits prevFitBits : Nat) : ByteMemory :=
  let fitBits := min totBits (8 - bitPos)
  if bitPos + totBits > 8 then
    -- the value is not shifted here
    iecapSetLoop value (iecap.set byteCnt (qdfSetBits (iecap byteCnt) bitPos fitBits value))
      (byteCnt + 1) 0 (totBits - fitBits) (prevFitBits + fitBits)
  else iecap.set byteCnt (qdfSetBits (iecap byteCnt) bitPos fitBits (value >>> prevFitBits))
termination_by totBits
decreasing_by omega

def wlanIecapSet (iecap : ByteMemory) (bitPos totBits : Nat) (value : BitVec 32) : ByteMemory :=
  iecapSetLoop value iecap (bitPos / 8) (Fin.ofNat 8 bitPos) totBits 0

def iecapGetLoop (iecap : ByteMemory) (byteCnt : Nat) (bitPos : Fin 8) (totBits curBitPos : Nat)
    (val : BitVec 32) : BitVec 32 :=
  let fitBits := min totBits (8 - bitPos)
  let fitted := val ||| (qdfGetBits (iecap byteCnt) bitPos fitBits <<< curBitPos)
  if bitPos + totBits > 8 then iecapGetLoop iecap (byteCnt + 1) 0 (totBits - fitBits) (curBitPos + fitBits) fitted
  else fitted
termination_by totBits
decreasing_by omega

def wlanIecapGet (iecap : ByteMemory) (bitPos totBits : Nat) : BitVec 32 :=
  iecapGetLoop iecap (bitPos / 8) (Fin.ofNat 8 bitPos) totBits 0 0

def bufferBit (iecap : ByteMemory) (bit : Nat) : Bool := (iecap (bit / 8)).getLsbD (bit % 8)

section Fields

variable {iecap : ByteMemory} {value : BitVec 32} {byteCnt totBits : Nat} {bitPos : Fin 8}

theorem getLsbD_lowBits (numBits i : Nat) :
    (lowBits numBits).getLsbD i = (decide (i < 32) && decide (i < numBits)) := by
  rw [lowBits, getLsbD_ofNat, Nat.testBit_two_pow_sub_one]

theorem getLsbD_qdfSetBits (byte : BitVec 8) (inside : i < 8) : (qdfSetBits byte idx numBits value).getLsbD i =
      if idx ≤ i ∧ i < idx + numBits then value.getLsbD (i - idx) else byte.getLsbD i := by
  simp only [qdfSetBits, getLsbD_setWidth, getLsbD_or, getLsbD_and, getLsbD_not, getLsbD_shiftLeft, getLsbD_lowBits]
  split
  · simp [inside, show i < 32 by omega, show ¬ i < idx by omega, show i - idx < 32 by omega,
      show i - idx < numBits by omega]
  · by_cases before : i < idx
    · simp [inside, show i < 32 by omega, before]
    · simp [inside, show i < 32 by omega, before, show ¬ i - idx < numBits by omega]

theorem getLsbD_qdfGetBits (byte : BitVec 8) (i : Nat) (fits : index + numBits ≤ 8) :
    (qdfGetBits byte index numBits).getLsbD i = (decide (i < numBits) && byte.getLsbD (index + i)) := by
  simp only [qdfGetBits, getLsbD_setWidth, getLsbD_and, getLsbD_ushiftRight, getLsbD_lowBits]
  by_cases inside : i < numBits
  · simp [inside, show i < 32 by omega, show index + i < 32 by omega]
  · simp [inside]

theorem bufferBit_set (byte : BitVec 8) (bit : Nat) : bufferBit (iecap.set byteCnt byte) bit =
      if bit / 8 = byteCnt then byte.getLsbD (bit % 8) else bufferBit iecap bit := by
  unfold bufferBit ByteMemory.set
  split <;> rfl

/-- A bit of the field gets the bit of the value that belongs there in the last byte, and the one at its place in
the byte before it. -/
theorem bufferBit_iecapSetLoop (prevFitBits bit : Nat) :
    bufferBit (iecapSetLoop value iecap byteCnt bitPos totBits prevFitBits) bit =
      if 8 * byteCnt + bitPos ≤ bit ∧ bit < 8 * byteCnt + bitPos + totBits then
        if bit / 8 < (8 * byteCnt + bitPos + totBits - 1) / 8 then
          value.getLsbD (bit - max (8 * byteCnt + bitPos) (8 * (bit / 8)))
        else value.getLsbD (prevFitBits + (bit - (8 * byteCnt + bitPos))) else bufferBit iecap bit := by
  fun_induction iecapSetLoop value iecap byteCnt bitPos totBits prevFitBits with
  | case1 iecap byteCnt bitPos totBits prevFitBits fitBits more ih =>
    rw [ih, bufferBit_set, getLsbD_qdfSetBits _ (Nat.mod_lt _ (by decide))]
    by_cases here : bit / 8 = byteCnt
    · rw [if_neg (by omega), if_pos here]
      by_cases low : bitPos ≤ bit % 8
      · rw [if_pos (by omega), if_pos (by omega), if_pos (by omega)]
        congr 1
        omega
      · rw [if_neg (by omega), if_neg (by omega), bufferBit, here]
    · rw [if_neg here]
      by_cases later : 8 * (byteCnt + 1) ≤ bit ∧ bit < 8 * byteCnt + bitPos + totBits
      · by_cases between : bit / 8 < (8 * byteCnt + bitPos + totBits - 1) / 8
        · rw [if_pos (by omega), if_pos (by omega), if_pos (by omega), if_pos between]
          congr 1
          omega
        · rw [if_pos (by omega), if_neg (by omega), if_pos (by omega), if_neg between]
          congr 1
          omega
      · rw [if_neg (by omega), if_neg (by omega)]
  | case2 iecap byteCnt bitPos totBits prevFitBits fitBits last =>
    rw [bufferBit_set, getLsbD_qdfSetBits _ (Nat.mod_lt _ (by decide)), getLsbD_ushiftRight]
    by_cases field : 8 * byteCnt + bitPos ≤ bit ∧ bit < 8 * byteCnt + bitPos + totBits
    · rw [if_pos (by omega), if_pos (by omega), if_pos field, if_neg (by omega)]
      congr 1
      omega
    · rw [if_neg field]
      by_cases here : bit / 8 = byteCnt
      · rw [if_pos here, if_neg (by omega), bufferBit, here]
      · rw [if_neg here]

theorem getLsbD_fitted {numBits : Nat} (curBitPos : Nat) (val : BitVec 32) (fits : bitPos + numBits ≤ 8)
    (inside : i < 32) : (val ||| (qdfGetBits (iecap byteCnt) bitPos numBits <<< curBitPos)).getLsbD i =
      (val.getLsbD i || decide (curBitPos ≤ i ∧ i < curBitPos + numBits) &&
        bufferBit iecap (8 * byteCnt + bitPos + (i - curBitPos))) := by
  rw [getLsbD_or, getLsbD_shiftLeft, getLsbD_qdfGetBits _ _ fits]
  by_cases field : curBitPos ≤ i ∧ i < curBitPos + numBits
  · have place : (8 * byteCnt + bitPos + (i - curBitPos)) / 8 = byteCnt ∧
        (8 * byteCnt + bitPos + (i - curBitPos)) % 8 = bitPos + (i - curBitPos) := by omega
    simp [bufferBit, inside, field, place, show ¬ i < curBitPos by omega, show i - curBitPos < numBits by omega]
  · rw [decide_eq_false field]
    by_cases before : i < curBitPos
    · simp [before]
    · simp [before, show ¬ i - curBitPos < numBits by omega]

theorem getLsbD_iecapGetLoop {i : Nat} (curBitPos : Nat) (val : BitVec 32) (inside : i < 32) :
    (iecapGetLoop iecap byteCnt bitPos totBits curBitPos val).getLsbD i =
      (val.getLsbD i || decide (curBitPos ≤ i ∧ i < curBitPos + totBits) &&
        bufferBit iecap (8 * byteCnt + bitPos + (i - curBitPos))) := by
  fun_induction iecapGetLoop iecap byteCnt bitPos totBits curBitPos val with
  | case1 byteCnt bitPos totBits curBitPos val fitBits fitted more ih =>
    have zero : ((0 : Fin 8) : Nat) = 0 := rfl
    rw [ih, zero, getLsbD_fitted _ _ (by omega) inside]
    by_cases later : curBitPos + fitBits ≤ i
    · have place : 8 * (byteCnt + 1) + 0 + (i - (curBitPos + fitBits)) =
          8 * byteCnt + bitPos + (i - curBitPos) := by omega
      rw [place]
      simp [later, show ¬ i < curBitPos + fitBits by omega, show curBitPos ≤ i by omega,
        show curBitPos + fitBits + (totBits - fitBits) = curBitPos + totBits by omega]
    · simp [later, show i < curBitPos + totBits ↔ i < curBitPos + fitBits by omega]
  | case2 byteCnt bitPos totBits curBitPos val fitBits fitted last =>
    rw [getLsbD_fitted _ _ (by omega) inside, show fitBits = totBits by omega]

end Fields

variable {iecap : ByteMemory} {bitPos totBits : Nat} {value : BitVec 32}

/-- The byte around a bit of the field, but the last one, gets bits of the value that belong there. -/
def MiddleBytesAgree (bitPos totBits : Nat) (value : BitVec 32) : Prop :=
  ∀ i < totBits, (bitPos + i) / 8 < (bitPos + totBits - 1) / 8 → bitPos ≤ 8 * ((bitPos + i) / 8) →
    value.getLsbD ((bitPos + i) % 8) = value.getLsbD i

/-- What is set is read back if and only if every whole byte inside the field has the bits that the value starts
with; other bits stay. -/
theorem wlanIecap_round_trip_iff (iecap : ByteMemory) (bitPos : Nat) (some : 0 < totBits)
    (most : totBits ≤ 32) (small : value.toNat < 2 ^ totBits) :
    (wlanIecapGet (wlanIecapSet iecap bitPos totBits value) bitPos totBits = value ↔
        MiddleBytesAgree bitPos totBits value) ∧
      ∀ bit, bit < bitPos ∨ bitPos + totBits ≤ bit →
        bufferBit (wlanIecapSet iecap bitPos totBits value) bit = bufferBit iecap bit := by
  have start : 8 * (bitPos / 8) + (Fin.ofNat 8 bitPos : Nat) = bitPos := by
    rw [Fin.val_ofNat]
    omega
  have written (bit : Nat) : bufferBit (iecapSetLoop value iecap (bitPos / 8) (Fin.ofNat 8 bitPos)
      totBits 0) bit = _ := bufferBit_iecapSetLoop 0 bit
  simp only [start] at written
  constructor
  · have high : ∀ i, totBits ≤ i → value.getLsbD i = false := fun i above =>
      Nat.testBit_lt_two_pow (lt_of_lt_of_le small (Nat.pow_le_pow_right (by decide) above))
    have read : ∀ i < 32, (wlanIecapGet (wlanIecapSet iecap bitPos totBits value) bitPos
        totBits).getLsbD i = (decide (i < totBits) &&
          if (bitPos + i) / 8 < (bitPos + totBits - 1) / 8 then
            value.getLsbD (bitPos + i - max bitPos (8 * ((bitPos + i) / 8)))
          else value.getLsbD i) := fun i inside => by
      rw [wlanIecapGet, getLsbD_iecapGetLoop _ _ inside, start, wlanIecapSet, written]
      by_cases field : i < totBits
      · simp [field]
      · simp [field]
    constructor
    · intro same i field before whole
      have here := read i (by omega)
      rw [same, if_pos before, max_eq_right whole] at here
      rw [show (bitPos + i) % 8 = bitPos + i - 8 * ((bitPos + i) / 8) by omega, here]
      simp [field]
    · intro agree
      apply BitVec.eq_of_getLsbD_eq
      intro i inside
      rw [read i inside]
      by_cases field : i < totBits
      · rw [decide_eq_true field, Bool.true_and]
        split
        · rename_i before
          by_cases whole : bitPos ≤ 8 * ((bitPos + i) / 8)
          · rw [← agree i field before whole]
            congr 1
            omega
          · rw [max_eq_left (by omega), Nat.add_sub_cancel_left]
        · rfl
      · simp [field, high i (by omega)]
  · intro bit outside
    rw [wlanIecapSet, written, if_neg (by omega)]

theorem wlanIecap_round_trip_wide : wlanIecapGet (wlanIecapSet (fun _ => 0) 4 16 0x5555) 4 16 = 0x5555 :=
  (wlanIecap_round_trip_iff (fun _ => 0) 4 (by decide) (by decide) (by decide)).1.mpr
    (by unfold MiddleBytesAgree; decide)

/-- The whole byte in the middle gets the low byte of the value. -/
theorem wlanIecap_middle_byte :
    ¬ ∀ iecap bitPos totBits value, 0 < totBits → totBits ≤ 32 → value.toNat < 2 ^ totBits →
      wlanIecapGet (wlanIecapSet iecap bitPos totBits value) bitPos totBits = value := by
  intro always
  have agree := (wlanIecap_round_trip_iff (fun _ => 0) 0 (by decide) (by decide) (by decide)).1.mp
    (always (fun _ => 0) 0 32 0x100 (by decide) (by decide) (by decide))
  exact absurd (agree 8 (by decide) (by decide) (by decide)) (by decide)

end KernelModules.Wlan

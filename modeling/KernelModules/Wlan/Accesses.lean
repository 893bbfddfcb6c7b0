import KernelModules.Wlan.Defragment

namespace KernelModules.Wlan

open Data

/-! # Memory accesses of the defragmentation

Every function of the defragmentation again, for the bytes that it loads and stores, in its
order.
-/

/-- An access to `count` bytes from `place` on. -/
inductive Access where
  | read (place count : Nat)
  | write (place count : Nat)

def Access.Confined (low high writeLow writeHigh : Nat) : Access → Prop
  | .read place count => low ≤ place ∧ place + count ≤ high
  | .write place count => writeLow ≤ place ∧ place + count ≤ writeHigh

/-- All reads are from `low` up to `high`, all writes from `writeLow` up to `writeHigh`. -/
def AllConfined (low high writeLow writeHigh : Nat) (accesses : List Access) : Prop :=
  ∀ access ∈ accesses, access.Confined low high writeLow writeHigh

/-- The accesses of `wlan_get_elemsubelem_successorfrag`. -/
def successorfragAccesses (memory : ByteMemory) (isSubelem : Bool) (subelemfragid : BitVec 8)
    (curr buff buffMaxsize : Nat) : List Access :=
  let info := wlanGetElemunitInfo isSubelem subelemfragid
  let currLen := (memory (curr + info.lenPos)).toNat
  let next := curr + (info.hdrlen + currLen)
  let nextLen := (memory (next + info.lenPos)).toNat
  if buffMaxsize = 0 then []
  else if buff + buffMaxsize < curr + info.hdrlen then []
  else .read (curr + info.lenPos) 1 :: if buff + buffMaxsize < next then []
      else if buff + buffMaxsize = next then []
      else if buff + buffMaxsize < next + info.hdrlen then []
      else .read (next + info.lenPos) 1 :: if buff + buffMaxsize < next + (info.hdrlen + nextLen) then []
          else .read (next + info.idPos) 1 :: if memory (next + info.idPos) ≠ info.fragid then []
              else .read (curr + info.lenPos) 1 ::
                  -- the length is read again for the message
                  if currLen ≠ info.maxpayloadlen then [.read (curr + info.lenPos) 1]
                  else .read (next + info.lenPos) 1 :: if nextLen = 0 then [] else [.read (next + info.lenPos) 1]

/-- The accesses of the loop of `wlan_get_elemsubelem_fragseq_info`. -/
def fragseqInfoLoopAccesses (memory : ByteMemory) (isSubelem : Bool) (subelemfragid : BitVec 8)
    (buff buffMaxsize curr : Nat) : List Access :=
  successorfragAccesses memory isSubelem subelemfragid curr buff buffMaxsize ++
    match _found : wlanGetElemsubelemSuccessorfrag memory isSubelem subelemfragid curr buff
        buffMaxsize with
    | .ok (some frag) =>
      fragseqInfoLoopAccesses memory isSubelem subelemfragid buff buffMaxsize frag.place
    | _ => []
termination_by buff + buffMaxsize - curr
decreasing_by
  have advances := successorfrag_advances _found
  omega

/-- The accesses for the payload length of the lead element unit: the id matters only for
elements. -/
def leadAccesses (isSubelem : Bool) (info : ElemunitInfo) (curr : Nat) : List Access :=
  if isSubelem then [.read (curr + info.lenPos) 1]
  else [.read (curr + info.idPos) 1, .read (curr + info.lenPos) 1]

/-- The accesses of `wlan_get_elemsubelem_fragseq_info`. -/
def fragseqInfoAccesses (memory : ByteMemory) (isSubelem : Bool) (subelemfragid : BitVec 8)
    (buff buffMaxsize : Nat) : List Access :=
  let info := wlanGetElemunitInfo isSubelem 0
  let currTotallen := info.hdrlen + (memory (buff + info.lenPos)).toNat
  if buffMaxsize = 0 then []
  else if buff + buffMaxsize < buff + info.hdrlen then []
  else .read (buff + info.lenPos) 1 :: if buff + buffMaxsize < buff + currTotallen then []
      else successorfragAccesses memory isSubelem subelemfragid buff buff buffMaxsize ++
          match wlanGetElemsubelemSuccessorfrag memory isSubelem subelemfragid buff buff
              buffMaxsize with
          | .ok (some frag) =>
            leadAccesses isSubelem info buff ++
              fragseqInfoLoopAccesses memory isSubelem subelemfragid buff buffMaxsize frag.place
          | _ => []

/-- The accesses of the loop of `wlan_defrag_elemsubelem_fragseq`. -/
def defragLoopAccesses (isSubelem : Bool) (subelemfragid : BitVec 8) (state : DefragState) : List Access :=
  let info := wlanGetElemunitInfo isSubelem subelemfragid
  .read (state.curr + info.idPos) 1 :: if state.memory (state.curr + info.idPos) = info.fragid then
      let payloadlen := (state.memory (state.curr + info.lenPos)).toNat
      let totallen := info.hdrlen + payloadlen
      let moved := state.memory.move state.dst (state.curr + info.hdrlen) payloadlen
      let fragbuffRemlen := state.fragbuffRemlen - totallen
      .read (state.curr + info.lenPos) 1 :: .read (state.curr + info.lenPos) 1 ::
        .read (state.curr + info.hdrlen) payloadlen :: .write state.dst payloadlen :: if fragbuffRemlen = 0 then []
          else defragLoopAccesses isSubelem subelemfragid {
              memory := moved
              curr := state.curr + totallen
              dst := state.dst + payloadlen
              fragbuffRemlen := fragbuffRemlen
              defragpayloadCurrlen := state.defragpayloadCurrlen + payloadlen }
    else []
termination_by state.fragbuffRemlen
decreasing_by
  have header := hdrlen_eq isSubelem subelemfragid
  omega

/-- The accesses of `wlan_defrag_elemsubelem_fragseq`. -/
def defragAccesses (memory : ByteMemory) (inlineDefrag isSubelem : Bool) (subelemfragid : BitVec 8)
    (fragbuff fragbuffMaxsize defragbuff defragbuffMaxsize : Nat) : List Access :=
  let info := wlanGetElemunitInfo isSubelem subelemfragid
  if fragbuffMaxsize = 0 then []
  else if !inlineDefrag && decide (defragbuffMaxsize = 0) then []
  else fragseqInfoAccesses memory isSubelem subelemfragid fragbuff fragbuffMaxsize ++
      match wlanGetElemsubelemFragseqInfo memory isSubelem subelemfragid (some fragbuff)
          fragbuffMaxsize with
      | .ok (some lens) =>
        if !inlineDefrag && decide (defragbuffMaxsize < lens.payloadlen) then []
        else let payloadlen := leadPayloadlen memory isSubelem info fragbuff
          let totallen := info.hdrlen + (memory (fragbuff + info.lenPos)).toNat
          let src :=
            if isExtnElem isSubelem (memory (fragbuff + info.idPos)) then fragbuff + info.hdrlen + 1
            else fragbuff + info.hdrlen
          let dst := if inlineDefrag then src else defragbuff
          let lead := if inlineDefrag then memory else memory.move dst src payloadlen
          let started : DefragState := {
            memory := lead
            curr := fragbuff + totallen
            dst := dst + payloadlen
            fragbuffRemlen := fragbuffMaxsize - totallen
            defragpayloadCurrlen := payloadlen }
          let swept := defragLoop isSubelem subelemfragid started
          leadAccesses isSubelem info fragbuff ++ .read (fragbuff + info.lenPos) 1 ::
            (if inlineDefrag then [] else [.read src payloadlen, .write dst payloadlen]) ++
            defragLoopAccesses isSubelem subelemfragid started ++
            if inlineDefrag && decide (swept.fragbuffRemlen ≠ 0) then
              [.read swept.curr swept.fragbuffRemlen, .write swept.dst swept.fragbuffRemlen]
            else []
      | _ => []

theorem AllConfined.nil : AllConfined low high writeLow writeHigh [] := List.forall_mem_nil _

theorem AllConfined.cons (first : access.Confined low high writeLow writeHigh)
    (others : AllConfined low high writeLow writeHigh rest) :
    AllConfined low high writeLow writeHigh (access :: rest) :=
  List.forall_mem_cons.mpr ⟨first, others⟩

theorem AllConfined.append (first : AllConfined low high writeLow writeHigh accesses)
    (others : AllConfined low high writeLow writeHigh rest) :
    AllConfined low high writeLow writeHigh (accesses ++ rest) :=
  List.forall_mem_append.mpr ⟨first, others⟩

theorem AllConfined.checked [Decidable condition]
    (passed : ¬ condition → AllConfined low high writeLow writeHigh accesses) :
    AllConfined low high writeLow writeHigh (if condition then [] else accesses) := by
  split
  · exact .nil
  · rename_i holds
    exact passed holds

open AllConfined (append checked cons)

theorem successorfragAccesses_confined (inside : buff ≤ curr) : AllConfined buff (buff + buffMaxsize) writeLow writeHigh
      (successorfragAccesses memory isSubelem subelemfragid curr buff buffMaxsize) := by
  have hdr := hdrlen_eq isSubelem subelemfragid
  have positions : (wlanGetElemunitInfo isSubelem subelemfragid).idPos = 0 ∧
      (wlanGetElemunitInfo isSubelem subelemfragid).lenPos = 1 := by
    cases isSubelem <;> exact ⟨rfl, rfl⟩
  unfold successorfragAccesses
  dsimp only
  rw [positions.2]
  apply checked fun _ => ?_
  apply checked fun hdr => ?_
  have first : (Access.read (curr + 1) 1).Confined buff (buff + buffMaxsize) writeLow writeHigh :=
    ⟨by omega, by omega⟩
  apply cons first
  apply checked fun _ => ?_
  apply checked fun _ => ?_
  apply checked fun room => ?_
  refine .cons ⟨by omega, by omega⟩ ?_
  apply checked fun _ => ?_
  refine .cons ⟨by omega, by omega⟩ ?_
  apply checked fun _ => ?_
  apply cons first
  split
  · exact .cons first .nil
  · refine .cons ⟨by omega, by omega⟩ ?_
    apply checked fun _ => ?_
    exact .cons ⟨by omega, by omega⟩ .nil

theorem fragseqInfoLoopAccesses_confined (buff buffMaxsize : Nat) (inside : buff ≤ curr) :
    AllConfined buff (buff + buffMaxsize) writeLow writeHigh
      (fragseqInfoLoopAccesses memory isSubelem subelemfragid buff buffMaxsize curr) := by
  induction curr using fragseqInfoLoopAccesses.induct memory isSubelem subelemfragid buff buffMaxsize with
  | case1 curr ih =>
    rw [fragseqInfoLoopAccesses]
    apply append (successorfragAccesses_confined inside)
    split
    · rename_i frag found
      have advances := successorfrag_advances found
      exact ih frag found (by omega)
    · exact .nil

theorem leadAccesses_confined (lt : buff + 2 ≤ room) : AllConfined buff room writeLow writeHigh
      (leadAccesses isSubelem (wlanGetElemunitInfo isSubelem subelemfragid) buff) := by
  cases isSubelem with
  | true => exact .cons ⟨Nat.le_add_right _ _, lt⟩ .nil
  | false =>
    exact .cons ⟨le_rfl, (Nat.le_succ _).trans lt⟩ (.cons ⟨Nat.le_add_right _ _, lt⟩ .nil)

theorem fragseqInfoAccesses_confined : AllConfined buff (buff + buffMaxsize) writeLow writeHigh
      (fragseqInfoAccesses memory isSubelem subelemfragid buff buffMaxsize) := by
  have hdr := hdrlen_eq isSubelem 0
  have lenPos : (wlanGetElemunitInfo isSubelem 0).lenPos = 1 := by cases isSubelem <;> rfl
  apply checked fun _ => ?_
  apply checked fun short => ?_
  refine .cons ⟨by omega, by omega⟩ ?_
  apply checked fun _ => ?_
  apply append (successorfragAccesses_confined le_rfl)
  split
  · rename_i frag found
    have advances := successorfrag_advances found
    exact .append (leadAccesses_confined (by omega)) (fragseqInfoLoopAccesses_confined _ _ (by omega))
  · exact .nil

end KernelModules.Wlan

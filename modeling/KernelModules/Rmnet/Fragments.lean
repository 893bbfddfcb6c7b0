import KernelModules.Data.Extents

namespace KernelModules.Rmnet

open Data List
open Extent hiding length source

/-! # Packet descriptors over page fragments (`rmnet_descriptor.c`)

A descriptor is a value, named by its number in the pool; the free list holds numbers.  No sum of lengths reaches `2
^ 32`: they are of one `sk_buff`.
-/

abbrev Pages := Nat → Nat → UInt8

/-- A `skb_frag_t`: page, offset and size. -/
abbrev SkbFrag := Extent Nat

/-- The `features` of a `net_device` that the receive path looks at. -/
structure NetDevice where
  groHw : Bool
  rxcsum : Bool
deriving DecidableEq

theorem noFrags_len : 0 = total ([] : List SkbFrag) := rfl

structure RmnetFragDescriptor where
  number : Nat
  /-- Which handing out of a descriptor this is; no C field. -/
  ticket : Nat
  frags : List SkbFrag
  len : Nat
  len_eq : len = Extent.total frags
  dev : NetDevice
  priority : Nat
  tcpSeq : Nat
  ipId : Nat
  tcpFlags : Nat
  dataOffset : Nat
  gsoSize : Nat
  gsoSegs : Nat
  ipLen : Nat
  transLen : Nat
  ipProto : Nat
  transProto : Nat
  pktId : Nat
  csumValid : Bool
  hdrsValid : Bool
  ipIdSet : Bool
  tcpSeqSet : Bool
  tcpFlagsSet : Bool
deriving DecidableEq

namespace RmnetFragDescriptor

/-- After `memset` and `INIT_LIST_HEAD`. -/
def zeroed (number ticket : Nat) : RmnetFragDescriptor :=
  { number, ticket, frags := [], len := 0, len_eq := noFrags_len, dev := ⟨false, false⟩, priority := 0
    tcpSeq := 0, ipId := 0, tcpFlags := 0, dataOffset := 0, gsoSize := 0, gsoSegs := 0
    ipLen := 0, transLen := 0, ipProto := 0, transProto := 0, pktId := 0
    csumValid := false, hdrsValid := false, ipIdSet := false, tcpSeqSet := false
    tcpFlagsSet := false }

def bytes (pages : Pages) (desc : RmnetFragDescriptor) : List UInt8 :=
  Extent.contents pages desc.frags

def append (desc : RmnetFragDescriptor) (frags : List SkbFrag) : RmnetFragDescriptor :=
  { desc with
    frags := desc.frags ++ frags
    len := desc.len + Extent.total frags
    len_eq := by rw [desc.len_eq, Extent.total_append] }

end RmnetFragDescriptor

structure RmnetFragDescriptorPool where
  freeList : List Nat
  /-- The descriptors in existence are those below. -/
  poolSize : Nat
  /-- How the allocations to come end; one behind the list succeeds. -/
  allocs : List Bool
  /-- How many descriptors were handed out; no C field. -/
  issued : Nat
deriving DecidableEq

variable {pages : Pages} {pool : RmnetFragDescriptorPool} {desc : RmnetFragDescriptor}
  {frag : SkbFrag} {frags : List SkbFrag} {off size len : Nat}

/-- The next `GFP_ATOMIC` allocation. -/
def RmnetFragDescriptorPool.alloc (pool : RmnetFragDescriptorPool) : Bool × RmnetFragDescriptorPool :=
  match pool.allocs with
  | [] => (true, pool)
  | outcome :: later => (outcome, { pool with allocs := later })

def rmnetGetFragDescriptor (pool : RmnetFragDescriptorPool) :
    Option RmnetFragDescriptor × RmnetFragDescriptorPool :=
  match pool.freeList with
  | number :: later =>
    (some (.zeroed number pool.issued), { pool with freeList := later, issued := pool.issued + 1 })
  | [] =>
    match pool.alloc with
    | (true, pool) =>
      (some (.zeroed pool.poolSize pool.issued),
        { pool with poolSize := pool.poolSize + 1, issued := pool.issued + 1 })
    | (false, pool) => (none, pool)

/-- `list_del` takes a descriptor that was recycled already off the free list again. -/
def rmnetRecycleFragDescriptor (desc : RmnetFragDescriptor) (pool : RmnetFragDescriptorPool) :
    RmnetFragDescriptorPool :=
  { pool with freeList := pool.freeList.erase desc.number ++ [desc.number] }

def rmnetFragDataPtr (desc : RmnetFragDescriptor) : Option SkbFrag :=
  desc.frags.head?

def pullLoop : List SkbFrag → Nat → Nat → List SkbFrag × Nat
  | [], _, len => ([], len)
  | frag :: later, size, len =>
    if size = 0 then (frag :: later, len)
    else if frag.length ≤ size then pullLoop later (size - frag.length) (len - frag.length)
    else (frag.piece size (frag.length - size) :: later, len - size)

theorem pullLoop_len (exact : len = total frags) : (pullLoop frags size len).2 = total (pullLoop frags size len).1 := by
  induction frags generalizing size len with
  | nil => exact exact
  | cons frag later ih =>
    rw [total_cons] at exact
    unfold pullLoop
    by_cases done : size = 0
    · rw [if_pos done]
      exact exact
    rw [if_neg done]
    by_cases whole : frag.length ≤ size
    · rw [if_pos whole]
      exact ih (by omega)
    · rw [if_neg whole]
      simp only [total_cons, length_piece]
      omega

theorem contents_pullLoop : contents pages (pullLoop frags size len).1 = (contents pages frags).drop size := by
  induction frags generalizing size len with
  | nil => simp [pullLoop]
  | cons frag later ih =>
    unfold pullLoop
    by_cases done : size = 0
    · simp [done]
    rw [if_neg done]
    by_cases whole : frag.length ≤ size
    · have consumed : (frag.read pages).drop size = [] :=
        drop_eq_nil_of_le (by simpa using whole)
      rw [if_pos whole, ih, contents_cons, drop_append, consumed, length_read, nil_append]
    · rw [if_neg whole, contents_cons, read_piece (by omega), contents_cons, drop_append, length_read]
      rw [show size - frag.length = 0 by omega, drop_zero, take_of_length_le]
      simp

/-- A NULL pointer is `none`; the descriptor was recycled then. -/
def rmnetFragPull (desc : RmnetFragDescriptor) (pool : RmnetFragDescriptorPool) (size : Nat) :
    Option SkbFrag × RmnetFragDescriptor × RmnetFragDescriptorPool :=
  if desc.len ≤ size then (none, .zeroed desc.number desc.ticket, rmnetRecycleFragDescriptor desc pool)
  else let pulled : RmnetFragDescriptor :=
      { desc with
        frags := (pullLoop desc.frags size desc.len).1
        len := (pullLoop desc.frags size desc.len).2
        len_eq := pullLoop_len desc.len_eq }
    (rmnetFragDataPtr pulled, pulled, pool)

def trimLoop : List SkbFrag → Nat → Nat → List SkbFrag × Nat
  | [], _, len => ([], len)
  | frag :: earlier, eat, len =>
    if eat = 0 then (frag :: earlier, len)
    else if frag.length ≤ eat then trimLoop earlier (eat - frag.length) (len - frag.length)
    else (frag.piece 0 (frag.length - eat) :: earlier, len - eat)

theorem trimLoop_len (exact : len = total frags) : (trimLoop frags size len).2 = total (trimLoop frags size len).1 := by
  induction frags generalizing size len with
  | nil => exact exact
  | cons frag earlier ih =>
    rw [total_cons] at exact
    unfold trimLoop
    by_cases done : size = 0
    · rw [if_pos done]
      exact exact
    rw [if_neg done]
    by_cases whole : frag.length ≤ size
    · rw [if_pos whole]
      exact ih (by omega)
    · rw [if_neg whole]
      simp only [total_cons, length_piece]
      omega

theorem total_reverse : total frags.reverse = total frags := by
  simp [total]

def rmnetFragTrim (desc : RmnetFragDescriptor) (pool : RmnetFragDescriptorPool) (size : Nat) :
    Option SkbFrag × RmnetFragDescriptor × RmnetFragDescriptorPool :=
  if size = 0 then (none, .zeroed desc.number desc.ticket, rmnetRecycleFragDescriptor desc pool)
  else if desc.len ≤ size then (rmnetFragDataPtr desc, desc, pool)
  else let trimmed : RmnetFragDescriptor :=
      { desc with
        frags := (trimLoop desc.frags.reverse (desc.len - size) desc.len).1.reverse
        len := (trimLoop desc.frags.reverse (desc.len - size) desc.len).2
        len_eq := by rw [total_reverse, trimLoop_len (by rw [total_reverse, desc.len_eq])] }
    (rmnetFragDataPtr trimmed, trimmed, pool)

def copyLoop (pages : Pages) : List SkbFrag → Nat → Nat → List UInt8
  | [], _, _ => []
  | frag :: later, off, len =>
    if len = 0 then []
    else if off < frag.length then (frag.piece off (min len (frag.length - off))).read pages ++
        copyLoop pages later 0 (len - min len (frag.length - off))
    else copyLoop pages later (off - frag.length) len

/-- `-EINVAL` is `none`. -/
def rmnetFragCopyData (pages : Pages) (desc : RmnetFragDescriptor) (off len : Nat) : Option (List UInt8) :=
  if desc.len < off ∨ desc.len < len ∨ desc.len < off + len then none
  else some (copyLoop pages desc.frags off len)

def headerLoop (pages : Pages) : List SkbFrag → Nat → Nat → Option (List UInt8)
  | [], _, _ => none
  | frag :: later, off, len =>
    if off < frag.length then if off + len ≤ frag.length then some ((frag.piece off len).read pages) else none
    else headerLoop pages later (off - frag.length) len

/-- The bytes behind the pointer, or `none` for NULL. -/
def rmnetFragHeaderPtr (pages : Pages) (desc : RmnetFragDescriptor) (off len : Nat) : Option (List UInt8) :=
  if desc.len < off ∨ desc.len < len ∨ desc.len < off + len then none
  else match headerLoop pages desc.frags off len with
    | some header => some header
    | none => rmnetFragCopyData pages desc off len

/-- `-ENOMEM` is `none`. -/
def rmnetFragDescriptorAddFrag (desc : RmnetFragDescriptor) (pool : RmnetFragDescriptorPool)
    (frag : SkbFrag) : Option RmnetFragDescriptor × RmnetFragDescriptorPool :=
  match pool.alloc with
  | (true, pool) => (some (desc.append [frag]), pool)
  | (false, pool) => (none, pool)

inductive AddFragsError where
  | einval
  | enomem
deriving DecidableEq

def addFragsInto : List SkbFrag → RmnetFragDescriptor → RmnetFragDescriptorPool → Nat → Nat →
    Option AddFragsError × RmnetFragDescriptor × RmnetFragDescriptorPool
  | [], desc, pool, _, _ => (none, desc, pool)
  | frag :: later, desc, pool, off, len =>
    if len = 0 then (none, desc, pool)
    else if off < frag.length then
      match rmnetFragDescriptorAddFrag desc pool (frag.piece off (min len (frag.length - off))) with
      | (none, pool) => (some .enomem, desc, pool)
      | (some desc, pool) => addFragsInto later desc pool 0 (len - min len (frag.length - off))
    else addFragsInto later desc pool (off - frag.length) len

/-- `rmnet_frag_descriptor_add_frags_from` with what it returns and the descriptor that it leaves. -/
def rmnetFragDescriptorAddFragsInto (desc : RmnetFragDescriptor) (pool : RmnetFragDescriptorPool)
    (source : RmnetFragDescriptor) (off len : Nat) :
    Option AddFragsError × RmnetFragDescriptor × RmnetFragDescriptorPool :=
  if source.len < off ∨ source.len < len ∨ source.len < off + len then (some .einval, desc, pool)
  else addFragsInto source.frags desc pool off len

/-- The same for a caller that gives the descriptor up on an error -/
def rmnetFragDescriptorAddFragsFrom (desc : RmnetFragDescriptor) (pool : RmnetFragDescriptorPool)
    (source : RmnetFragDescriptor) (off len : Nat) : Option RmnetFragDescriptor × RmnetFragDescriptorPool :=
  match rmnetFragDescriptorAddFragsInto desc pool source off len with
  | (none, desc, pool) => (some desc, pool)
  | (some _, _, pool) => (none, pool)

namespace RmnetFragDescriptor

def withFrags (desc : RmnetFragDescriptor) (frags : List SkbFrag) : RmnetFragDescriptor :=
  { desc with frags, len := Extent.total frags, len_eq := rfl }

theorem withFrags_eq {other : RmnetFragDescriptor} (exact : len = total frags) :
    { other with frags, len, len_eq := exact } = other.withFrags frags := by
  subst exact
  rfl

theorem append_eq : desc.append frags = desc.withFrags (desc.frags ++ frags) :=
  withFrags_eq _

@[simp] theorem append_nil : desc.append [] = desc := by
  rw [append_eq, List.append_nil]
  exact (withFrags_eq desc.len_eq).symm

theorem append_append : (desc.append frags).append more = desc.append (frags ++ more) := by
  rw [append_eq, append_eq, append_eq, ← append_assoc]
  rfl

@[simp] theorem bytes_withFrags : (desc.withFrags frags).bytes pages = contents pages frags := rfl

@[simp] theorem bytes_append : (desc.append frags).bytes pages = desc.bytes pages ++ contents pages frags :=
  contents_append

theorem length_bytes : (desc.bytes pages).length = desc.len := by
  rw [desc.len_eq]
  exact length_contents

end RmnetFragDescriptor

open RmnetFragDescriptor (append_append bytes_append length_bytes withFrags_eq zeroed)

namespace RmnetFragDescriptorPool

def consumed (pool : RmnetFragDescriptorPool) (count : Nat) : RmnetFragDescriptorPool :=
  { pool with allocs := pool.allocs.drop count }

def AllocsSucceed (pool : RmnetFragDescriptorPool) : Prop :=
  ∀ outcome ∈ pool.allocs, outcome = true

@[simp] theorem consumed_zero : pool.consumed 0 = pool := rfl

@[simp] theorem consumed_consumed : (pool.consumed first).consumed second = pool.consumed (first + second) := by
  simp [consumed]

theorem AllocsSucceed.consumed (succeed : pool.AllocsSucceed) (count : Nat) : (pool.consumed count).AllocsSucceed :=
  fun out mem => succeed out (mem_of_mem_drop mem)

theorem alloc_eq : pool.alloc = (pool.allocs.headD true, pool.consumed 1) := by
  obtain ⟨freeList, poolSize, allocs, issued⟩ := pool
  cases allocs <;> rfl

theorem AllocsSucceed.alloc (succeed : pool.AllocsSucceed) : pool.alloc = (true, pool.consumed 1) := by
  rw [alloc_eq]
  cases allocs : pool.allocs with
  | nil => rfl
  | cons outcome later => rw [headD_cons, succeed outcome (by simp [allocs])]

end RmnetFragDescriptorPool

open RmnetFragDescriptorPool (alloc_eq consumed_consumed)

theorem copyLoop_eq : copyLoop pages frags off len = ((contents pages frags).drop off).take len := by
  induction frags generalizing off len with
  | nil => simp [copyLoop]
  | cons frag later ih =>
    unfold copyLoop
    by_cases done : len = 0
    · simp [done]
    rw [if_neg done, contents_cons, drop_append, length_read]
    by_cases here : off < frag.length
    · rw [if_pos here, ih, read_piece (by omega), take_append,
        length_drop, length_read, show off - frag.length = 0 by omega,
        show len - min len (frag.length - off) = len - (frag.length - off) by
          omega]
      have rest : ((frag.read pages).drop off).length = frag.length - off := by simp
      rw [← take_take, take_of_length_le (Nat.le_of_eq rest)]
    · have passed : (frag.read pages).drop off = [] :=
        drop_eq_nil_of_le (by simpa using here)
      rw [if_neg here, ih, passed, nil_append]

theorem rmnetFragCopyData_eq : rmnetFragCopyData pages desc off len =
      if off + len ≤ desc.len then some (((desc.bytes pages).drop off).take len) else none := by
  unfold rmnetFragCopyData
  by_cases inside : off + len ≤ desc.len
  · rw [if_neg (by omega), if_pos inside, copyLoop_eq]
    rfl
  · rw [if_pos (by omega), if_neg inside]

theorem headerLoop_some (found : headerLoop pages frags off len = some header) :
    header = ((contents pages frags).drop off).take len := by
  induction frags generalizing off with
  | nil => cases found
  | cons frag later ih =>
    unfold headerLoop at found
    rw [contents_cons, drop_append, length_read]
    by_cases here : off < frag.length
    · rw [if_pos here] at found
      by_cases inside : off + len ≤ frag.length
      · rw [if_pos inside, Option.some.injEq, read_piece inside] at found
        rw [take_append_of_le_length, ← found]
        rw [length_drop, length_read]
        omega
      · rw [if_neg inside] at found
        cases found
    · have passed : (frag.read pages).drop off = [] :=
        drop_eq_nil_of_le (by simpa using here)
      rw [if_neg here] at found
      rw [passed]
      exact ih found

theorem rmnetFragHeaderPtr_eq : rmnetFragHeaderPtr pages desc off len =
      if off + len ≤ desc.len then some (((desc.bytes pages).drop off).take len) else none := by
  unfold rmnetFragHeaderPtr
  by_cases inside : off + len ≤ desc.len
  · rw [if_neg (by omega), if_pos inside]
    cases found : headerLoop pages desc.frags off len with
    | some header =>
      rw [headerLoop_some found]
      rfl
    | none =>
      rw [rmnetFragCopyData_eq, if_pos inside]
  · rw [if_pos (by omega), if_neg inside]

theorem rmnetFragPull_short (short : desc.len ≤ size) : rmnetFragPull desc pool size =
      (none, .zeroed desc.number desc.ticket, rmnetRecycleFragDescriptor desc pool) := by
  unfold rmnetFragPull
  rw [if_pos short]

theorem exists_head (nonempty : 0 < total frags) : ∃ first, frags.head? = some first := by
  cases frags with
  | nil => cases nonempty
  | cons first later => exact ⟨first, rfl⟩

theorem rmnetFragPull_eq (long : size < desc.len) : ∃ first, rmnetFragPull desc pool size =
      (some first, desc.withFrags (pullLoop desc.frags size desc.len).1, pool) := by
  have remains : 0 < total (pullLoop desc.frags size desc.len).1 := by
    have bytes := congrArg List.length (@contents_pullLoop (fun _ _ => 0) desc.frags size desc.len)
    rw [length_drop, length_contents, length_contents, ← desc.len_eq] at bytes
    omega
  obtain ⟨first, found⟩ := exists_head remains
  refine ⟨first, ?_⟩
  unfold rmnetFragPull rmnetFragDataPtr
  rw [if_neg (by omega)]
  dsimp only
  rw [found, withFrags_eq]

theorem contents_trimLoop : contents pages (trimLoop frags size len).1.reverse =
      (contents pages frags.reverse).take (total frags - size) := by
  induction frags generalizing size len with
  | nil => simp [trimLoop]
  | cons frag earlier ih =>
    have length : (contents pages earlier.reverse).length = total earlier := by
      rw [length_contents, total_reverse]
    rw [reverse_cons, contents_append, total_cons]
    unfold trimLoop
    by_cases done : size = 0
    · rw [if_pos done, take_of_length_le]
      · simp
      · simp only [length_append, length, length_contents, total_cons, total_nil]
        omega
    rw [if_neg done]
    by_cases whole : frag.length ≤ size
    · rw [if_pos whole, ih, take_append_of_le_length (by omega)]
      congr 1
      omega
    · rw [if_neg whole, reverse_cons, contents_append, take_append, take_of_length_le (by omega : (contents pages earlier.reverse).length ≤ _)]
      rw [contents_cons, contents_cons, read_piece (by omega), contents_nil, append_nil, append_nil]
      congr 2
      omega

theorem rmnetFragTrim_zero : rmnetFragTrim desc pool 0 =
      (none, .zeroed desc.number desc.ticket, rmnetRecycleFragDescriptor desc pool) := by
  unfold rmnetFragTrim
  rw [if_pos rfl]

theorem rmnetFragTrim_eq (pos : 0 < size) (nonempty : 0 < desc.len) :
    ∃ first frags, rmnetFragTrim desc pool size = (some first, desc.withFrags frags, pool) ∧
      ∀ pages : Pages, contents pages frags = (desc.bytes pages).take size := by
  unfold rmnetFragTrim rmnetFragDataPtr
  rw [if_neg (by omega)]
  by_cases short : desc.len ≤ size
  · obtain ⟨first, found⟩ := exists_head (by rw [← desc.len_eq]; exact nonempty)
    refine ⟨first, desc.frags, ?_, ?_⟩
    · rw [if_pos short, found]
      exact congrArg (fun desc => (some first, desc, pool)) (withFrags_eq desc.len_eq)
    · intro pages
      rw [take_of_length_le (by rw [length_bytes]; exact short)]
      rfl
  · rw [if_neg short]
    dsimp only
    have kept : ∀ pages : Pages, contents pages
        (trimLoop desc.frags.reverse (desc.len - size) desc.len).1.reverse = (desc.bytes pages).take size := by
      intro pages
      rw [contents_trimLoop, reverse_reverse, total_reverse, ← desc.len_eq,
        show desc.len - (desc.len - size) = size by omega]
      rfl
    have remains := congrArg List.length (kept fun _ _ => 0)
    rw [length_contents, length_take, length_bytes] at remains
    obtain ⟨first, found⟩ := exists_head (by omega : 0 < total
      (trimLoop desc.frags.reverse (desc.len - size) desc.len).1.reverse)
    exact ⟨first, _, by rw [found, withFrags_eq], kept⟩

/-- The fragments that stand for `len` bytes behind the first `off`. -/
def carve : List SkbFrag → Nat → Nat → List SkbFrag
  | [], _, _ => []
  | frag :: later, off, len =>
    if len = 0 then []
    else if off < frag.length then frag.piece off (min len (frag.length - off)) ::
        carve later 0 (len - min len (frag.length - off))
    else carve later (off - frag.length) len

theorem contents_carve : contents pages (carve frags off len) = ((contents pages frags).drop off).take len := by
  rw [← copyLoop_eq]
  induction frags generalizing off len with
  | nil => rfl
  | cons frag later ih =>
    unfold carve copyLoop
    by_cases done : len = 0
    · simp [done]
    · rw [if_neg done, if_neg done]
      by_cases here : off < frag.length
      · rw [if_pos here, if_pos here, contents_cons, ih]
      · rw [if_neg here, if_neg here, ih]

theorem addFrag_cases : rmnetFragDescriptorAddFrag desc pool frag = (some (desc.append [frag]), pool.consumed 1) ∨
      rmnetFragDescriptorAddFrag desc pool frag = (none, pool.consumed 1) ∧ ¬pool.AllocsSucceed := by
  unfold rmnetFragDescriptorAddFrag
  cases out : pool.allocs.headD true with
  | true =>
    rw [alloc_eq, out]
    exact .inl rfl
  | false =>
    rw [alloc_eq, out]
    apply Or.inr
    refine ⟨rfl, fun succeed => ?_⟩
    have told := succeed.alloc
    rw [alloc_eq, out] at told
    cases told

theorem addFragsInto_cases : ∃ count,
      addFragsInto frags desc pool off len = (none, desc.append (carve frags off len), pool.consumed count) ∨
        ∃ part, addFragsInto frags desc pool off len = (some .enomem, part, pool.consumed count) ∧
          ¬pool.AllocsSucceed := by
  induction frags generalizing desc pool off len with
  | nil => exact ⟨0, .inl (by simp [addFragsInto, carve])⟩
  | cons frag later ih =>
    unfold addFragsInto carve
    by_cases done : len = 0
    · exact ⟨0, .inl (by simp [done])⟩
    rw [if_neg done, if_neg done]
    by_cases here : off < frag.length
    · rw [if_pos here, if_pos here]
      rcases @addFrag_cases pool desc (frag.piece off (min len (frag.length - off))) with
        added | ⟨failed, fails⟩
      · rw [added]
        dsimp only
        obtain ⟨count, all | ⟨part, stopped, fails⟩⟩ := @ih (pool.consumed 1)
          (desc.append [frag.piece off (min len (frag.length - off))]) 0
          (len - min len (frag.length - off))
        · refine ⟨1 + count, .inl ?_⟩
          rw [all, append_append, consumed_consumed]
          rfl
        · refine ⟨1 + count, .inr ⟨part, ?_, fun succeed => fails (succeed.consumed 1)⟩⟩
          rw [stopped, consumed_consumed]
      · rw [failed]
        exact ⟨1, .inr ⟨desc, rfl, fails⟩⟩
    · rw [if_neg here, if_neg here]
      exact ih

theorem addFragsFrom_cases : ∃ count, (off + len ≤ src.len ∧ rmnetFragDescriptorAddFragsFrom desc pool src off len =
        (some (desc.append (carve src.frags off len)), pool.consumed count)) ∨
      rmnetFragDescriptorAddFragsFrom desc pool src off len = (none, pool.consumed count) ∧
        ¬(pool.AllocsSucceed ∧ off + len ≤ src.len) := by
  unfold rmnetFragDescriptorAddFragsFrom rmnetFragDescriptorAddFragsInto
  by_cases inside : off + len ≤ src.len
  · rw [if_neg (by omega)]
    obtain ⟨count, all | ⟨part, stopped, fails⟩⟩ := @addFragsInto_cases pool desc src.frags off len
    · exact ⟨count, .inl ⟨inside, by rw [all]⟩⟩
    · exact ⟨count, .inr ⟨by rw [stopped], fun both => fails both.1⟩⟩
  · rw [if_pos (by omega)]
    exact ⟨0, .inr ⟨rfl, fun both => inside both.2⟩⟩

theorem addFragsInto_bytes : ∃ count, (addFragsInto frags desc pool off len).2.1.bytes pages =
        desc.bytes pages ++ (((contents pages frags).drop off).take len).take count ∧
      ((addFragsInto frags desc pool off len).1 = none ∧ len ≤ count ∨
        (addFragsInto frags desc pool off len).1 = some .enomem ∧ ¬pool.AllocsSucceed) := by
  rw [← copyLoop_eq]
  induction frags generalizing desc pool off len with
  | nil => exact ⟨len, by simp [addFragsInto, copyLoop], .inl ⟨rfl, Nat.le_refl len⟩⟩
  | cons frag later ih =>
    unfold addFragsInto copyLoop
    by_cases done : len = 0
    · exact ⟨0, by simp [done], .inl ⟨by simp [done], by omega⟩⟩
    simp only [if_neg done]
    by_cases here : off < frag.length
    · simp only [if_pos here]
      rcases @addFrag_cases pool desc (frag.piece off (min len (frag.length - off))) with
        added | ⟨failed, fails⟩
      · rw [added]
        obtain ⟨count, bytes, ended⟩ := @ih (pool.consumed 1)
          (desc.append [frag.piece off (min len (frag.length - off))]) 0
          (len - min len (frag.length - off))
        refine ⟨min len (frag.length - off) + count, ?_, ?_⟩
        · have taken (first rest : List UInt8) (part : Nat) (length : first.length = part) :
              (first ++ rest).take (part + count) = first ++ rest.take count := by
            rw [← length, take_length_add_append]
          rw [bytes, bytes_append, append_assoc, contents_cons, contents_nil, append_nil, taken _ _ _ (by simp)]
        · rcases ended with ⟨ended, all⟩ | ⟨ended, fails⟩
          · exact .inl ⟨ended, by omega⟩
          · exact .inr ⟨ended, fun succeed => fails (succeed.consumed 1)⟩
      · rw [failed]
        exact ⟨0, by simp, .inr ⟨rfl, fails⟩⟩
    · simp only [if_neg here]
      exact ih

/-- Every primitive does to the bytes what its name says, whatever fragments they lie on; adding stops short only if
an allocation fails. -/
theorem primitives_on_bytes (pages : Pages) (desc target : RmnetFragDescriptor)
    (pool : RmnetFragDescriptorPool) (off len size : Nat) : (if size < desc.len then
        (rmnetFragPull desc pool size).1.isSome = true ∧ (rmnetFragPull desc pool size).2.2 = pool ∧
          (rmnetFragPull desc pool size).2.1.bytes pages = (desc.bytes pages).drop size
      else rmnetFragPull desc pool size =
        (none, .zeroed desc.number desc.ticket, rmnetRecycleFragDescriptor desc pool)) ∧
    (if 0 < size then (rmnetFragTrim desc pool size).2.2 = pool ∧
          (rmnetFragTrim desc pool size).2.1.bytes pages = (desc.bytes pages).take (min size desc.len)
      else rmnetFragTrim desc pool size =
        (none, .zeroed desc.number desc.ticket, rmnetRecycleFragDescriptor desc pool)) ∧
    (if off + len ≤ desc.len then
        rmnetFragCopyData pages desc off len = some (((desc.bytes pages).drop off).take len) ∧
        rmnetFragHeaderPtr pages desc off len = some (((desc.bytes pages).drop off).take len) ∧
        ((rmnetFragDescriptorAddFragsInto target pool desc off len).1 = none ∧
            (rmnetFragDescriptorAddFragsInto target pool desc off len).2.1.bytes pages =
              target.bytes pages ++ ((desc.bytes pages).drop off).take len ∨
          (rmnetFragDescriptorAddFragsInto target pool desc off len).1 = some .enomem ∧ ¬pool.AllocsSucceed ∧
            ∃ count, (rmnetFragDescriptorAddFragsInto target pool desc off len).2.1.bytes pages =
              target.bytes pages ++ (((desc.bytes pages).drop off).take len).take count)
      else rmnetFragCopyData pages desc off len = none ∧ rmnetFragHeaderPtr pages desc off len = none ∧
        rmnetFragDescriptorAddFragsInto target pool desc off len = (some .einval, target, pool)) ∧
    ∀ after ∈ [(rmnetFragPull desc pool size).2.1, (rmnetFragTrim desc pool size).2.1,
        (rmnetFragDescriptorAddFragsInto target pool desc off len).2.1],
      after.len = (after.frags.map (·.length)).sum := by
  refine ⟨?_, ?_, ?_, fun after _ => after.len_eq⟩
  · split
    case isTrue long =>
      obtain ⟨first, pulled⟩ := @rmnetFragPull_eq pool desc size long
      rw [pulled]
      exact ⟨rfl, rfl, contents_pullLoop⟩
    case isFalse short => exact rmnetFragPull_short (by omega)
  · split
    case isTrue positive =>
      have all : (desc.bytes pages).take desc.len = desc.bytes pages :=
        List.take_of_length_le (Nat.le_of_eq RmnetFragDescriptor.length_bytes)
      rw [← List.take_take, all]
      by_cases nonempty : 0 < desc.len
      · obtain ⟨first, frags, trimmed, bytes⟩ := @rmnetFragTrim_eq pool desc size positive nonempty
        rw [trimmed]
        exact ⟨rfl, bytes pages⟩
      have short : (desc.bytes pages).length ≤ size := by
        rw [RmnetFragDescriptor.length_bytes]
        omega
      unfold rmnetFragTrim
      rw [if_neg (by omega), if_pos (by omega)]
      exact ⟨rfl, (List.take_of_length_le short).symm⟩
    case isFalse none =>
      cases Nat.eq_zero_of_not_pos none
      exact rmnetFragTrim_zero
  · rw [rmnetFragCopyData_eq, rmnetFragHeaderPtr_eq]
    unfold rmnetFragDescriptorAddFragsInto
    split
    case isTrue inside =>
      rw [if_neg (by omega)]
      obtain ⟨count, bytes, ended⟩ := @addFragsInto_bytes pages pool target desc.frags off len
      refine ⟨rfl, rfl, ?_⟩
      rcases ended with ⟨ended, all⟩ | ⟨ended, fails⟩
      · refine .inl ⟨ended, ?_⟩
        rw [bytes, List.take_of_length_le (by simp; omega)]
        rfl
      · exact .inr ⟨ended, fails, count, bytes⟩
    case isFalse outside =>
      rw [if_pos (by omega)]
      exact ⟨rfl, rfl, rfl⟩

/-- One byte to be added, and no memory for its fragment -/
theorem addFrags_enomem : 0 + 1 ≤ ((RmnetFragDescriptor.zeroed 0 0).append [⟨0, 0, 1⟩]).len ∧
      rmnetFragDescriptorAddFragsInto (.zeroed 1 1) ⟨[], 2, [false], 2⟩
          ((RmnetFragDescriptor.zeroed 0 0).append [⟨0, 0, 1⟩]) 0 1 =
        (some .enomem, .zeroed 1 1, ⟨[], 2, [], 2⟩) ∧
      (RmnetFragDescriptor.zeroed 1 1).bytes (fun _ _ => 7) ≠
        (RmnetFragDescriptor.zeroed 1 1).bytes (fun _ _ => 7) ++
          ((((RmnetFragDescriptor.zeroed 0 0).append [⟨0, 0, 1⟩]).bytes fun _ _ => 7).drop 0).take 1 := by
  decide

end KernelModules.Rmnet

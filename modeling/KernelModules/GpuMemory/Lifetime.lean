import KernelModules.GpuMemory.Consistency

namespace KernelModules.GpuMemory

open Data BindEntry List Vbo

/-! # The life of a virtual buffer object

Operations are created, done by a worker and freed, and in the end the addresses of the object are put back.
-/

inductive VboAction where
  | create (env : BindEnv) (given : List GpumemBindRange)
  /-- The worker of a pending operation does the next of its `ops`. -/
  | work (index : Nat) (allocated : Bool) (answers : MmuAnswers)
  | free (index : Nat)
  | put (answers : MmuAnswers)

namespace Vbo

/-- `kgsl_sharedmem_free_bind_op` -/
def freeBindOp (vbo : Vbo) (index : Nat) (op : BindOp) : Vbo :=
  (op.ops.filterMap entry).foldl drop { vbo with pending := vbo.pending.eraseIdx index }

def step (vbo : Vbo) : VboAction → Option Vbo
  | .create env given =>
    if vbo.destroyed then none
    else match vbo.createBindOp env given with
      | (after, .ok ops) => some { after with pending := after.pending ++ [{ ops, todo := ops }] }
      | (after, .error _) => some after
  | .work index allocated answers =>
    match vbo.pending[index]? with
    | some { ops, todo := op :: todo } =>
      let after := (vbo.bindOne op allocated answers).1
      some { after with pending := after.pending.set index { ops, todo } }
    | _ => none
  | .free index =>
    match vbo.pending[index]? with
    | some op => if op.todo = op.ops ∨ op.todo = [] then some (vbo.freeBindOp index op) else none
    | none => none
  | .put answers =>
    if vbo.destroyed ∨ vbo.pending ≠ [] then none
    else some { vbo.putGpuaddr answers with destroyed := true }

def nextOp (vbo : Vbo) (index : Nat) : Option BindEntry := vbo.pending[index]?.bind (·.todo.head?)

def UnmapsSplit (vbo : Vbo) : VboAction → Prop
  | .work index allocated answers =>
    ∀ op, vbo.nextOp index = some op → op.bind = true → allocated = true → vbo.noMapZero = true →
      (∃ cur ∈ vbo.ranges, Splits op.start op.last cur) → answers.unmapRange 0 = true
  | _ => True

variable {vbo after : Vbo} {entry size : Nat}

structure Consistent (vbo : Vbo) : Prop where
  apart : vbo.ranges.Pairwise fun range other => range.toSpan.Apart other.toSpan
  inside : ∀ range ∈ vbo.ranges, range.start ≤ range.last ∧ range.last < vbo.size
  /-- A page that translates to a child lies in a range of it, or in one that was left pinned. -/
  mapped : ∀ page entry offset, vbo.table page = .child entry offset →
    Binds vbo.ranges page entry ∨ Binds vbo.pinned page entry
  vboCount : ∀ entry, vbo.vboCount entry = vbo.holders.count entry
  refs : ∀ entry, vbo.refs entry = vbo.holders.count entry
  pinned : vbo.destroyed = false → vbo.pinned = []
  dropped : ∀ entry table, (entry, table) ∈ vbo.dropped → ∀ page offset, table page ≠ .child entry offset

structure Sound (vbo : Vbo) : Prop where
  pins : Pins [] vbo
  formed : WellFormed vbo.size vbo.ranges
  admitted : ∀ op ∈ vbo.pending, ∀ next ∈ op.todo, next.Admitted vbo.size
  pinned : vbo.destroyed = false → vbo.pinned = []

theorem Sound.consistent (sound : Sound vbo) : Consistent vbo where
  apart := sound.formed.apart
  inside range member := ⟨sound.formed.proper range member, sound.formed.inside range member⟩
  mapped page entry off translated := binds_append.mp (sound.pins.mapped page entry off translated)
  vboCount := sound.pins.vboCount
  refs := sound.pins.refs
  pinned := sound.pinned
  dropped := sound.pins.dropped

theorem Pins.perm (pins : Pins held vbo) (same : kept.Perm held) : Pins kept vbo :=
  ⟨pins.vboCount.perm (same.append_right _), pins.refs.perm (same.append_right _), pins.mapped, pins.dropped⟩

theorem Pins.repending (pins : Pins held vbo) {pending : List BindOp}
    (same : (kept ++ named { vbo with pending }).Perm (held ++ vbo.named)) : Pins kept { vbo with pending } := by
  have all : (kept ++ holders { vbo with pending }).Perm (held ++ vbo.holders) := by
    refine perm_append_comm_assoc .. |>.trans ?_
    refine .trans ?_ (perm_append_comm_assoc ..)
    exact same.append_left _
  exact ⟨pins.vboCount.perm all, pins.refs.perm all, pins.mapped, pins.dropped⟩

theorem foldl_drop (walked : Walked size (held ++ kept) vbo after) : Walked size kept vbo (held.foldl drop after) := by
  induction held generalizing after with
  | nil => exact walked
  | cons entry held ih => exact ih walked.drop

/-- What the creation of an operation leaves: the children of its `ops` are held, or none if it fails. -/
structure Created (vbo after : Vbo) (outcome : Except Errno (List BindEntry)) : Prop where
  ok : ∀ ops, outcome = .ok ops → Pins (ops.filterMap BindEntry.entry) after
  error : ∀ errno, outcome = .error errno → Pins [] after
  ranges : after.ranges = vbo.ranges
  same : SameObject vbo after

theorem drop_ranges_foldl {held : List Nat} (vbo : Vbo) : (held.foldl drop vbo).ranges = vbo.ranges := by
  induction held generalizing vbo with
  | nil => rfl
  | cons entry held ih => exact ih _

theorem createLoop_created {count : Nat} (pins : Pins held vbo) (formed : WellFormed size vbo.ranges)
    (counted : ops.filterMap BindEntry.entry = held) :
    Created vbo (createLoop env given count held ops vbo).1 (createLoop env given count held ops vbo).2 := by
  have failed (vbo : Vbo) (held : List Nat) (pins : Pins held vbo) (formed : WellFormed size vbo.ranges)
      (errno : Errno) : Created vbo (held.foldl drop vbo) (.error errno) := by
    have dropped : Walked size [] vbo (held.foldl drop vbo) := by
      refine foldl_drop ?_
      rw [append_nil]
      exact .refl pins formed
    exact ⟨fun ops never => (by cases never), fun _ _ => dropped.pins, drop_ranges_foldl vbo, dropped.same⟩
  induction given generalizing count held ops vbo with
  | nil =>
    refine ⟨fun result is => ?_, fun errno never => (by cases never), rfl, .refl⟩
    cases is
    exact counted ▸ pins
  | cons range rest ih =>
    unfold createLoop
    split
    · exact failed vbo held pins formed _
    split
    · exact failed vbo held pins formed _
    split
    · refine ih pins formed ?_
      rw [filterMap_append, counted]
      exact append_nil _
    split
    · exact failed vbo held pins formed _
    have more : Pins (held ++ [range.childId]) (vbo.hold range.childId) :=
      pins.hold.perm (perm_append_singleton _ _)
    dsimp only
    split
    · have undone := failed (vbo.hold range.childId) (held ++ [range.childId]) more formed ‹Errno›
      exact { undone with same := SameObject.hold.trans undone.same }
    rename_i op made
    have counted : (ops ++ [op]).filterMap BindEntry.entry = held ++ [range.childId] := by
      rw [filterMap_append, counted, filterMap_cons, (checkChild_ok made).2.2]
      rfl
    have later (count : Nat) : Created (vbo.hold range.childId)
        (createLoop env rest count (held ++ [range.childId]) (ops ++ [op]) (vbo.hold range.childId)).1
        (createLoop env rest count (held ++ [range.childId]) (ops ++ [op]) (vbo.hold range.childId)).2 :=
      ih more formed counted
    exact ⟨(later _).ok, (later _).error, (later _).ranges, SameObject.hold.trans (later _).same⟩

theorem createBindOp_created (env : BindEnv) (given : List GpumemBindRange) (pins : Pins [] vbo)
    (formed : WellFormed size vbo.ranges) :
    Created vbo (vbo.createBindOp env given).1 (vbo.createBindOp env given).2 := by
  have refused (errno : Errno) : Created vbo vbo (.error errno) :=
    ⟨fun ops never => (by cases never), fun _ _ => pins, rfl, .refl⟩
  unfold createBindOp
  split
  · exact refused _
  split
  · exact refused _
  split
  · exact refused _
  · exact createLoop_created pins formed rfl

theorem named_set (later : BindOp) (found : vbo.pending[idx]? = some op) (same : later.ops = op.ops) :
    named { vbo with pending := vbo.pending.set idx later } = vbo.named := by
  obtain ⟨lt, here⟩ := List.getElem?_eq_some_iff.mp found
  have ops : (vbo.pending.set idx later).map BindOp.ops = vbo.pending.map BindOp.ops := by
    rw [map_set, same, ← here, ← map_set, set_getElem_self]
  have split (pending : List BindOp) : (pending.flatMap fun op => op.ops.filterMap entry) =
      (pending.map BindOp.ops).flatMap fun ops => ops.filterMap entry :=
    (flatMap_map ..).symm
  unfold named
  rw [split, split, ops]

theorem putLoop_same {count : Nat} : (putLoop answers whole rest count vbo failed).1.size = vbo.size ∧
      (putLoop answers whole rest count vbo failed).1.pending = vbo.pending := by
  induction rest generalizing vbo count failed with
  | nil => exact ⟨rfl, rfl⟩
  | cons cur rest ih =>
    obtain ⟨sized, pending⟩ := ih
    refine ⟨sized.trans ?_, pending.trans ?_⟩
    all_goals repeat' split
    all_goals rfl

theorem putGpuaddr_same (vbo : Vbo) (answers : MmuAnswers) : (vbo.putGpuaddr answers).size = vbo.size ∧
    (vbo.putGpuaddr answers).pending = vbo.pending := by
  obtain ⟨begun, is⟩ : ∃ begun, begun =
      if !vbo.noMapZero ∧ (vbo.noMapZero || answers.unmapWindow) then vbo.unmapRange 0 vbo.size else vbo :=
    ⟨_, rfl⟩
  have same : SameObject vbo begun := by
    rw [is]
    split
    · exact .setPages _
    · exact .refl
  unfold putGpuaddr
  dsimp only
  rw [← is]
  split
  · rename_i done ended
    have sized := congrArg (fun result : Vbo × Bool => result.1.size) ended
    have pending := congrArg (fun result : Vbo × Bool => result.1.pending) ended
    exact ⟨sized.symm.trans (putLoop_same.1.trans same.size), pending.symm.trans (putLoop_same.2.trans same.pending)⟩
  · rename_i done ended
    have sized := congrArg (fun result : Vbo × Bool => result.1.size) ended
    have pending := congrArg (fun result : Vbo × Bool => result.1.pending) ended
    exact ⟨sized.symm.trans (putLoop_same.1.trans same.size), pending.symm.trans (putLoop_same.2.trans same.pending)⟩

namespace Sound

theorem init (size : Nat) (noMapZero secure : Bool) : Sound (.init size noMapZero secure) := by
  refine ⟨⟨fun _ => rfl, fun _ => rfl, fun page entry off ran => ?_, fun entry tbl never => ?_⟩,
    .nil, forall_mem_nil _, fun _ => rfl⟩
  · unfold Vbo.init at ran
    split at ran <;> cases ran
  · cases never

section

variable (sound : Sound vbo)
include sound

theorem create (taken : vbo.step (.create env given) = some after) : Sound after := by
  have created := createBindOp_created env given sound.pins sound.formed
  rw [step] at taken
  split at taken
  · cases taken
  split at taken
  · rename_i made ops accepted
    rw [accepted] at created
    cases taken
    have sized : made.size = vbo.size := created.same.size
    refine ⟨?_, ?_, ?_, ?_⟩
    · refine (created.ok ops rfl).repending ?_
      unfold named
      rw [nil_append, flatMap_append, flatMap_singleton]
      exact perm_append_comm
    · rw [created.ranges, sized]
      exact sound.formed
    · rw [created.same.pending, sized]
      exact forall_mem_append.mpr ⟨sound.admitted, forall_mem_singleton.mpr (createBindOp_admitted accepted)⟩
    · rw [created.same.destroyed, created.same.pinned]
      exact sound.pinned
  · rename_i made errno refused
    rw [refused] at created
    cases taken
    refine ⟨created.error errno rfl, ?_, ?_, ?_⟩
    · rw [created.ranges, created.same.size]
      exact sound.formed
    · rw [created.same.pending, created.same.size]
      exact sound.admitted
    · rw [created.same.destroyed, created.same.pinned]
      exact sound.pinned

theorem bindOne_walked (admitted : op.Admitted vbo.size)
    (unmaps : op.bind = true → allocated = true → vbo.noMapZero = true →
      (∃ cur ∈ vbo.ranges, Splits op.start op.last cur) → answers.unmapRange 0 = true) :
    Walked vbo.size [] vbo (vbo.bindOne op allocated answers).1 := by
  cases binds : op.bind with
  | true =>
    obtain ⟨entry, named⟩ := Option.ne_none_iff_exists'.mp (admitted.named binds)
    rw [bindOne_bind binds named]
    exact addRange_walked sound.pins sound.formed admitted.proper admitted.inside admitted.paged (unmaps binds)
  | false =>
    rw [bindOne_unbind binds]
    exact removeRange_walked sound.pins sound.formed

theorem work (unmaps : vbo.UnmapsSplit (.work idx alloc answers))
    (taken : vbo.step (.work idx alloc answers) = some after) : Sound after := by
  rw [step] at taken
  split at taken
  · rename_i ops op todo found
    obtain ⟨lt, here⟩ := List.getElem?_eq_some_iff.mp found
    have mem : { ops, todo := op :: todo } ∈ vbo.pending := here ▸ getElem_mem lt
    obtain ⟨first, later⟩ := forall_mem_cons.mp (sound.admitted _ mem)
    have next : vbo.nextOp idx = some op := by
      unfold nextOp
      rw [found]
      rfl
    have walked := sound.bindOne_walked first (unmaps op next)
    obtain ⟨made, is⟩ : ∃ made, made = (vbo.bindOne op alloc answers).1 := ⟨_, rfl⟩
    rw [← is] at walked taken
    cases taken
    have pending : made.pending = vbo.pending := walked.same.pending
    have sized : made.size = vbo.size := walked.same.size
    refine ⟨?_, ?_, ?_, ?_⟩
    · refine walked.pins.repending ?_
      have known : made.pending[idx]? = some { ops, todo := op :: todo } := by rw [pending, found]
      rw [named_set { ops, todo } known rfl]
    · rw [sized]
      exact walked.formed
    · rw [pending, sized]
      intro other known
      obtain old | rfl := mem_or_eq_of_mem_set known
      · exact sound.admitted other old
      · exact later
    · rw [walked.same.destroyed, walked.same.pinned]
      exact sound.pinned
  · cases taken

theorem free (taken : vbo.step (.free idx) = some after) : Sound after := by
  rw [step] at taken
  split at taken
  · rename_i op found
    split at taken
    · cases taken
      obtain ⟨lt, here⟩ := List.getElem?_eq_some_iff.mp found
      have moved : (op :: vbo.pending.eraseIdx idx).Perm vbo.pending :=
        here ▸ getElem_cons_eraseIdx_perm lt
      have pins : Pins (op.ops.filterMap entry)
          { vbo with pending := vbo.pending.eraseIdx idx } := by
        refine sound.pins.repending ?_
        have names := moved.flatMap_right fun op : BindOp => op.ops.filterMap entry
        exact names
      have freed : Walked vbo.size [] { vbo with pending := vbo.pending.eraseIdx idx }
          (vbo.freeBindOp idx op) := by
        refine foldl_drop ?_
        rw [append_nil]
        exact .refl pins sound.formed
      refine ⟨freed.pins, ?_, ?_, ?_⟩
      · rw [freed.same.size]
        exact freed.formed
      · rw [freed.same.pending, freed.same.size]
        exact fun other known => sound.admitted other (mem_of_mem_eraseIdx known)
      · rw [freed.same.destroyed, freed.same.pinned]
        exact sound.pinned
    · cases taken
  · cases taken

theorem put (taken : vbo.step (.put answers) = some after) : Sound after := by
  rw [step] at taken
  split at taken
  · cases taken
  · cases taken
    obtain ⟨pins, formed⟩ := putGpuaddr_pins answers sound.pins sound.formed
    obtain ⟨sized, pending⟩ := putGpuaddr_same vbo answers
    refine ⟨{ pins with }, ?_, ?_, fun never => by cases never⟩
    · rw [sized]
      exact formed
    · rw [sized, pending]
      exact sound.admitted

theorem step (unmaps : vbo.UnmapsSplit action) (taken : vbo.step action = some after) : Sound after := by
  cases action with
  | create env given => exact sound.create taken
  | work index allocated answers => exact sound.work unmaps taken
  | free index => exact sound.free taken
  | put answers => exact sound.put taken

end

end Sound

/-- In every run whose splits are unmapped the structures agree in every state. -/
theorem runs_consistent {noMapZero secure : Bool}
    (reached : Reachable step UnmapsSplit (.init size noMapZero secure) vbo) : Consistent vbo := by
  have sound : Sound vbo := reached.invariant Sound (.init size noMapZero secure)
    fun _ _ _ before unmaps taken => before.step unmaps taken
  exact sound.consistent

def splitOps : List GpumemBindRange :=
  [⟨0, 0, 12288, 1, 1, by decide⟩, ⟨0, 4096, 4096, 2, 1, by decide⟩]

def splitObject : Vbo := init 12288 true false

def failSplit : MmuAnswers := { allSucceed with unmapRange := fun _ => false }

theorem runs_consistent_split : ∃ vbo, Reachable step UnmapsSplit splitObject vbo ∧
    vbo.ranges = [⟨⟨0, 4095⟩, 1⟩, ⟨⟨4096, 8191⟩, 2⟩, ⟨⟨8192, 12287⟩, 1⟩] ∧ Consistent vbo := by
  have first : Reachable step UnmapsSplit splitObject _ := .next .start (by exact trivial)
    (show splitObject.step (.create childEnv splitOps) = some _ from rfl)
  have second : Reachable step UnmapsSplit splitObject _ :=
    .next first (by exact fun _ _ _ _ _ _ => rfl)
      (show step _ (.work 0 true allSucceed) = some _ from rfl)
  have third : Reachable step UnmapsSplit splitObject _ :=
    .next second (by exact fun _ _ _ _ _ _ => rfl)
      (show step _ (.work 0 true allSucceed) = some _ from rfl)
  exact ⟨_, third, rfl, runs_consistent third⟩

/-- The unmap of the middle page fails: the whole range is back, beside its far part. -/
theorem split_unmap_fails : ¬∀ (size : Nat) (noMapZero secure : Bool) (vbo : Vbo),
    Reachable step (fun _ _ => True) (.init size noMapZero secure) vbo → Consistent vbo := by
  intro always
  have first : Reachable step (fun _ _ => True) splitObject _ := .next .start (by exact trivial)
    (show splitObject.step (.create childEnv splitOps) = some _ from rfl)
  have second : Reachable step (fun _ _ => True) splitObject _ :=
    .next first trivial (show step _ (.work 0 true allSucceed) = some _ from rfl)
  have third : Reachable step (fun _ _ => True) splitObject _ :=
    .next second trivial (show step _ (.work 0 true failSplit) = some _ from rfl)
  have apart := (always 12288 true false _ third).apart
  have both : ¬List.Pairwise (fun range other : BindRange => range.toSpan.Apart other.toSpan)
      [⟨⟨0, 12287⟩, 1⟩, ⟨⟨8192, 12287⟩, 1⟩] := by decide
  exact both apart

end Vbo

end KernelModules.GpuMemory

import Mathlib.Logic.Basic

namespace KernelModules.HwFence

/-! # The lock shared with the other VM

`_lock` and `_unlock` are loops of an exclusive load and store.  Of the other VM only its bit is seen.
-/

/-- `loaded` is past the first `CBNZ` of `_lock`, `clearing` past the load of `_unlock` and `cleared` past its
store. -/
inductive Stage where
  | out
  | loaded
  | holds
  | clearing (fetched : BitVec 32)
  | cleared

@[grind] def Stage.inside : Stage → Bool
  | .holds | .clearing _ => true
  | _ => false

/-- `monitor` tells for which cores an exclusive store goes through; `waiting`: the other VM set its bit behind a
lock and was not woken. -/
structure GlobalLock where
  word : BitVec 32
  monitor : Nat → Bool
  stage : Nat → Stage
  waiting : Bool

inductive LockAction where
  | run (core : Nat)
  | loseMonitor (core : Nat)
  | svmSet
  | svmClear

namespace GlobalLock

variable {lock : GlobalLock}

def idle : GlobalLock := ⟨0, fun _ => false, fun _ => .out, false⟩

def move (lock : GlobalLock) (core : Nat) (stage : Stage) : GlobalLock :=
  { lock with stage := fun other => if other = core then stage else lock.stage other }

def load (lock : GlobalLock) (core : Nat) : GlobalLock :=
  { lock with monitor := fun other => other == core || lock.monitor other }

def store (lock : GlobalLock) (word : BitVec 32) : GlobalLock :=
  { lock with word, monitor := fun _ => false }

def step (lock : GlobalLock) : LockAction → GlobalLock
  | .run core =>
    match lock.stage core with
    | .out => (lock.load core).move core (if lock.word = 0 then .loaded else .out)
    | .loaded => if lock.monitor core then (lock.store 1).move core .holds else lock.move core .out
    | .holds => (lock.load core).move core (.clearing lock.word)
    | .clearing fetched =>
      if lock.monitor core then (lock.store (fetched &&& 0xFFFFFFFE)).move core .cleared
      else lock.move core .holds
    -- signal 30 is triggered where the bit of the other VM is read
    | .cleared => { lock.move core .out with waiting := lock.waiting && lock.word &&& 2 == 0 }
  | .loseMonitor core => { lock with monitor := fun other => other != core && lock.monitor other }
  | .svmSet => { lock.store (lock.word ||| 2) with waiting := lock.waiting || lock.word.getLsbD 0 }
  | .svmClear => { lock.store (lock.word &&& 0xFFFFFFFD) with waiting := false }

structure Sound (lock : GlobalLock) : Prop where
  exclusive : ∀ first second, (lock.stage first).inside → (lock.stage second).inside → first = second
  held : lock.word.getLsbD 0 = true ↔ ∃ core, (lock.stage core).inside
  heard : lock.waiting = true → lock.word.getLsbD 1 = true ∧
    ∃ core, (lock.stage core).inside ∨ lock.stage core = .cleared
  fresh : ∀ core, lock.stage core = .loaded → lock.monitor core = true → lock.word = 0
  current : ∀ core fetched, lock.stage core = .clearing fetched → lock.monitor core = true →
    lock.word = fetched

theorem svmBit_read (word : BitVec 32) : (word &&& 2 == 0) = !word.getLsbD 1 := by
  have bit : word &&& 2 = if word.getLsbD 1 then 2 else 0 := BitVec.and_twoPow word 1
  rw [bit]
  cases word.getLsbD 1 <;> rfl

/-- The store of `_lock` goes through only over the zero that was loaded. -/
theorem Sound.enter (sound : Sound lock) (loaded : lock.stage core = .loaded)
    (monitored : lock.monitor core = true) : Sound ((lock.store 1).move core .holds) := by
  obtain ⟨-, held, heard, fresh, -⟩ := sound
  have free := fresh core loaded monitored
  have empty : ∀ other, ¬(lock.stage other).inside = true := by simpa [free] using held
  have quiet : lock.waiting = false := by simpa [free] using heard
  constructor <;> simp only [move, store] <;> grind

/-- Nothing has come between the load and the store of `_unlock`. -/
theorem Sound.leave (sound : Sound lock) (clearing : lock.stage core = .clearing fetched)
    (monitored : lock.monitor core = true) : Sound ((lock.store (fetched &&& 0xFFFFFFFE)).move core .cleared) := by
  obtain ⟨exclusive, -, heard, -, current⟩ := sound
  obtain rfl := current core fetched clearing monitored
  have here : (lock.stage core).inside = true := by rw [clearing]; rfl
  have bits : (lock.word &&& 0xFFFFFFFE).getLsbD 0 = false ∧
      (lock.word &&& 0xFFFFFFFE).getLsbD 1 = lock.word.getLsbD 1 := by simp
  constructor <;> simp only [move, store] <;> grind

theorem Sound.step (sound : Sound lock) (action : LockAction) : Sound (lock.step action) := by
  obtain ⟨exclusive, held, heard, fresh, current⟩ := id sound
  cases action with
  | run core =>
    unfold GlobalLock.step
    dsimp only
    split
    · constructor <;> simp only [move, load] <;> grind
    · rename_i loaded
      split
      · exact sound.enter loaded ‹_›
      · constructor <;> simp only [move] <;> grind
    · constructor <;> simp only [move, load] <;> grind
    · rename_i clearing
      split
      · exact sound.leave clearing ‹_›
      · constructor <;> simp only [move] <;> grind
    · constructor <;> simp only [move, svmBit_read] <;> grind
  | loseMonitor core =>
    have kept {other} (monitored : (other != core && lock.monitor other) = true) := (Bool.and_eq_true_iff.mp monitored).2
    exact ⟨exclusive, held, heard, fun other loaded left => fresh other loaded (kept left),
      fun other fetched clearing left => current other fetched clearing (kept left)⟩
  | svmSet =>
    have bits : (lock.word ||| 2).getLsbD 0 = lock.word.getLsbD 0 ∧ (lock.word ||| 2).getLsbD 1 = true := by simp
    refine ⟨exclusive, bits.1 ▸ held, fun asleep => ⟨bits.2, ?_⟩, fun _ _ => nofun, fun _ _ _ => nofun⟩
    rcases Bool.or_eq_true_iff.mp asleep with was | behind
    · exact (heard was).2
    · exact (held.mp behind).imp fun _ => .inl
  | svmClear =>
    have bit : (lock.word &&& 0xFFFFFFFD).getLsbD 0 = lock.word.getLsbD 0 := by simp
    exact ⟨exclusive, bit ▸ held, nofun, fun _ _ => nofun, fun _ _ _ => nofun⟩

theorem Sound.kept (sound : Sound lock) (asked : lock.word.getLsbD 1 = true) (other : action ≠ .svmClear) :
    (lock.step action).word.getLsbD 1 = true ∧
      ∀ core, ((lock.step action).stage core).inside → (lock.stage core).inside := by
  obtain ⟨-, -, -, fresh, current⟩ := sound
  have bit : (lock.word &&& 0xFFFFFFFE).getLsbD 1 = lock.word.getLsbD 1 := by simp
  cases action with
  | run core =>
    simp only [GlobalLock.step]
    split <;> (try split) <;> simp only [move, load, store] <;> grind
  | svmClear => exact absurd rfl other
  | _ => simp [GlobalLock.step, store, asked]

/-- In every run the cores keep each other out and the word tells of them, the other VM keeps them out once its bit
is set, and it is never left asleep. -/
theorem globalAtomicStore_excludes (actions : List LockAction) (action : LockAction) :
    let lock := actions.foldl step idle
    Sound lock ∧ (lock.word.getLsbD 1 = true → action ≠ .svmClear → (lock.step action).word.getLsbD 1 = true ∧
      ∀ core, ((lock.step action).stage core).inside → (lock.stage core).inside) := by
  have base : Sound idle := by constructor <;> simp [idle, Stage.inside]
  have sound : Sound (actions.foldl step idle) := by
    generalize idle = lock at base ⊢
    induction actions generalizing lock with
    | nil => exact base
    | cons action rest ih => exact ih _ (base.step action)
  exact ⟨sound, sound.kept⟩

end GlobalLock

end KernelModules.HwFence

import Mathlib.Data.List.Nodup

namespace KernelModules.Data

open List

universe u

/-! # Handles of objects

Every registered object has a handle of its own, by which it is found.
-/

section Handles

variable {α : Type u}

def handleFind (handles : List (Nat × α)) (id : Nat) : Option α := handles.lookup id

def handleRemove (handles : List (Nat × α)) (id : Nat) : List (Nat × α) :=
  handles.filter fun handle => handle.1 ≠ id

structure Named (handles : List (Nat × α)) (registered : α → Prop) (idOf : α → Nat) : Prop where
  mem_iff : ∀ id object, (id, object) ∈ handles ↔ registered object ∧ idOf object = id
  once : (handles.map Prod.fst).Nodup

variable {handles : List (Nat × α)} {registered known : α → Prop} {idOf names : α → Nat} {id other : Nat}
  {object : α}

theorem handleFind_eq_some (once : (handles.map Prod.fst).Nodup) :
    handleFind handles id = some object ↔ (id, object) ∈ handles := by
  unfold handleFind
  induction handles with
  | nil => simp
  | cons handle rest ih =>
    obtain ⟨key, value⟩ := handle
    rw [map_cons, nodup_cons] at once
    rw [lookup_cons]
    by_cases here : id = key
    · subst here
      have absent : (id, object) ∉ rest := fun mem =>
        once.1 (mem_map.mpr ⟨(id, object), mem, rfl⟩)
      simp [absent, eq_comm]
    · rw [beq_false_of_ne here]
      simp [here, ih once.2]

theorem handleRemove_comm :
    handleRemove (handleRemove handles id) other = handleRemove (handleRemove handles other) id := by
  unfold handleRemove
  rw [filter_filter, filter_filter]
  exact filter_congr fun handle _ => Bool.and_comm _ _

theorem handleFind_remove_ne (apart : id ≠ other) :
    handleFind (handleRemove handles other) id = handleFind handles id := by
  unfold handleFind handleRemove
  induction handles with
  | nil => rfl
  | cons handle rest ih =>
    obtain ⟨key, value⟩ := handle
    by_cases gone : key = other
    · subst gone
      rw [filter_cons_of_neg (by simp), ih, lookup_cons, beq_false_of_ne apart]
    · rw [filter_cons_of_pos (by simpa using gone), lookup_cons, lookup_cons, ih]

namespace Named

section

variable (named : Named handles registered idOf)
include named

theorem find (mem : registered object) : handleFind handles (idOf object) = some object :=
  (handleFind_eq_some named.once).mpr ((named.mem_iff _ _).mpr ⟨mem, rfl⟩)

theorem of_find (found : handleFind handles id = some object) : registered object ∧ idOf object = id :=
  (named.mem_iff _ _).mp ((handleFind_eq_some named.once).mp found)

theorem listed_iff : object ∈ handles.map Prod.snd ↔ registered object := by
  rw [mem_map]
  constructor
  · rintro ⟨⟨id, value⟩, mem, rfl⟩
    exact ((named.mem_iff _ _).mp mem).1
  · intro mem
    exact ⟨(idOf object, object), (named.mem_iff _ _).mpr ⟨mem, rfl⟩, rfl⟩

theorem inj (one : registered object) (two : registered another)
    (same : idOf object = idOf another) : object = another := by
  have found := named.find one
  rw [same, named.find two] at found
  exact (Option.some.inj found).symm

theorem congr (same : ∀ object, known object ↔ registered object)
    (ids : ∀ object, registered object → names object = idOf object) : Named handles known names := by
  refine ⟨fun id object => ?_, named.once⟩
  rw [named.mem_iff, same]
  constructor
  · rintro ⟨mem, rfl⟩
    exact ⟨mem, ids object mem⟩
  · rintro ⟨mem, rfl⟩
    exact ⟨mem, (ids object mem).symm⟩

theorem add (free : id ∉ handles.map Prod.fst) (new : ¬registered object)
    (same : ∀ other, known other ↔ other = object ∨ registered other) (name : names object = id)
    (ids : ∀ other, registered other → names other = idOf other) : Named ((id, object) :: handles) known names := by
  constructor
  · intro key value
    rw [mem_cons, Prod.mk.injEq, named.mem_iff, same]
    constructor
    · rintro (⟨rfl, rfl⟩ | ⟨mem, rfl⟩)
      · exact ⟨.inl rfl, name⟩
      · exact ⟨.inr mem, ids value mem⟩
    · rintro ⟨rfl | mem, rfl⟩
      · exact .inl ⟨name, rfl⟩
      · exact .inr ⟨mem, (ids value mem).symm⟩
  · rw [map_cons, nodup_cons]
    exact ⟨free, named.once⟩

theorem remove (mem : registered object) (same : ∀ other, known other ↔ registered other ∧ other ≠ object) :
    Named (handleRemove handles (idOf object)) known idOf := by
  constructor
  · intro key value
    unfold handleRemove
    rw [mem_filter, named.mem_iff, same, decide_eq_true_eq]
    constructor
    · rintro ⟨⟨there, rfl⟩, apart⟩
      exact ⟨⟨there, fun equal => apart (congrArg idOf equal)⟩, rfl⟩
    · rintro ⟨⟨there, apart⟩, rfl⟩
      exact ⟨⟨there, rfl⟩, fun equal => apart (named.inj there mem equal)⟩
  · exact named.once.sublist (filter_sublist.map _)

theorem erase (mem : registered object) : Named (handleRemove handles (idOf object))
      (fun other => registered other ∧ other ≠ object) idOf :=
  named.remove mem fun _ => Iff.rfl

end

end Named

end Handles

end KernelModules.Data

import Mathlib.Algebra.GroupWithZero.Nat
import Mathlib.Data.List.Basic

namespace KernelModules.Data

universe u v

/-! # A string scattered over stores

An extent is a run of places in one of many stores; a list of extents stands for what they name, joined.
-/

structure Extent (κ : Type u) where
  source : κ
  start : Nat
  length : Nat
deriving DecidableEq

namespace Extent

variable {κ : Type u} {β : Type v} {store : κ → Nat → β} {extent : Extent κ} {extents : List (Extent κ)}
  {skip count : Nat}

def read (store : κ → Nat → β) (extent : Extent κ) : List β :=
  (List.range extent.length).map fun place => store extent.source (extent.start + place)

def total (extents : List (Extent κ)) : Nat :=
  (extents.map length).sum

def contents (store : κ → Nat → β) (extents : List (Extent κ)) : List β :=
  extents.flatMap (read store)

/-- The part of `count` places behind the first `skip` ones. -/
def piece (extent : Extent κ) (skip count : Nat) : Extent κ :=
  ⟨extent.source, extent.start + skip, count⟩

@[simp] theorem length_read : (extent.read store).length = extent.length := by
  simp [read]

@[simp] theorem length_piece : (extent.piece skip count).length = count := rfl

@[simp] theorem piece_all : extent.piece 0 extent.length = extent := rfl

@[simp] theorem total_nil : total ([] : List (Extent κ)) = 0 := rfl

@[simp] theorem total_cons : total (extent :: extents) = extent.length + total extents := by
  simp [total]

@[simp] theorem total_append : total (extents ++ more) = total extents + total more := by
  simp [total]

@[simp] theorem contents_nil : contents store ([] : List (Extent κ)) = [] := rfl

@[simp] theorem contents_cons :
    contents store (extent :: extents) = extent.read store ++ contents store extents := by
  simp [contents]

@[simp] theorem contents_append :
    contents store (extents ++ more) = contents store extents ++ contents store more := by
  simp [contents]

@[simp] theorem length_contents : (contents store extents).length = total extents := by
  induction extents with
  | nil => rfl
  | cons extent extents ih => simp [ih]

theorem read_piece (inside : skip + count ≤ extent.length) :
    (extent.piece skip count).read store = ((extent.read store).drop skip).take count := by
  apply List.ext_getElem
  · simp only [length_read, length_piece, List.length_take, List.length_drop]
    omega
  · intro place left right
    simp [read, piece, add_assoc]

end Extent

end KernelModules.Data

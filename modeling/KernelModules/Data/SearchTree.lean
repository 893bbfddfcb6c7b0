import Mathlib.Data.List.Basic

namespace KernelModules.Data

open List

universe u

/-! # Search trees

A descent is directed by two tests, and a tree grows where a descent ends.  What both do is told on the in-order
list, which rebalancing keeps.
-/

inductive SearchTree (α : Type u) where
  | leaf
  | node (left : SearchTree α) (entry : α) (right : SearchTree α)

namespace SearchTree

variable {α : Type u} {tree : SearchTree α} {entry fresh : α} {key : α → Nat} {below above : α → Prop}
  [DecidablePred below] [DecidablePred above]

def inorder : SearchTree α → List α
  | leaf => []
  | node left entry right => left.inorder ++ entry :: right.inorder

def search (below above : α → Prop) [DecidablePred below] [DecidablePred above] : SearchTree α → Option α
  | leaf => none
  | node left entry right =>
    if below entry then search below above left
    else if above entry then search below above right
    else some entry

/-- Put a new entry at the leaf its key leads to; `none` if the way down meets the key. -/
def insert (key : α → Nat) (fresh : α) : SearchTree α → Option (SearchTree α)
  | leaf => some (node leaf fresh leaf)
  | node left entry right =>
    if key fresh < key entry then (left.insert key fresh).map (node · entry right)
    else if key fresh > key entry then (right.insert key fresh).map (node left entry)
    else none

@[simp] theorem inorder_leaf : (leaf : SearchTree α).inorder = [] := rfl

@[simp] theorem inorder_node : (node left entry right).inorder = left.inorder ++ entry :: right.inorder := rfl

theorem search_some (hit : tree.search below above = some found) :
    found ∈ tree.inorder ∧ ¬below found ∧ ¬above found := by
  induction tree with
  | leaf => cases hit
  | node left entry right ihLeft ihRight =>
    unfold search at hit
    split at hit
    · have side := ihLeft hit
      exact ⟨mem_append_left _ side.1, side.2⟩
    · split at hit
      · have side := ihRight hit
        exact ⟨mem_append_right _ (mem_cons_of_mem _ side.1), side.2⟩
      · cases hit
        exact ⟨mem_append_right _ mem_cons_self, by assumption, by assumption⟩

theorem search_none (monotone : tree.inorder.Pairwise fun one other =>
      (below one → below other) ∧ (above other → above one))
    (miss : tree.search below above = none) : ∀ entry ∈ tree.inorder, below entry ∨ above entry := by
  induction tree with
  | leaf => intro entry absent; cases absent
  | node left middle right ihLeft ihRight =>
    rw [inorder_node, pairwise_append] at monotone
    obtain ⟨inLeft, tail, across⟩ := monotone
    obtain ⟨afterMiddle, inRight⟩ := pairwise_cons.mp tail
    intro entry mem
    rw [inorder_node, mem_append, mem_cons] at mem
    unfold search at miss
    split at miss
    · rename_i under
      rcases mem with mem | rfl | mem
      · exact ihLeft inLeft miss entry mem
      · exact .inl under
      · exact .inl ((afterMiddle entry mem).1 under)
    · split at miss
      · rename_i higher
        rcases mem with mem | rfl | mem
        · exact .inr ((across entry mem middle mem_cons_self).2 higher)
        · exact .inr higher
        · exact ihRight inRight miss entry mem
      · cases miss

theorem insert_some (ordered : tree.inorder.Pairwise fun one other => key one < key other)
    (placed : tree.insert key fresh = some grown) :
    ∃ before after, tree.inorder = before ++ after ∧ grown.inorder = before ++ fresh :: after ∧
      (∀ entry ∈ before, key entry < key fresh) ∧ ∀ entry ∈ after, key fresh < key entry := by
  induction tree generalizing grown with
  | leaf =>
    cases placed
    exact ⟨[], [], rfl, rfl, by simp, by simp⟩
  | node left middle right ihLeft ihRight =>
    rw [inorder_node, pairwise_append] at ordered
    obtain ⟨inLeft, tail, across⟩ := ordered
    obtain ⟨afterMiddle, inRight⟩ := pairwise_cons.mp tail
    unfold insert at placed
    split at placed
    · rename_i under
      obtain ⟨next, inside, rfl⟩ := Option.map_eq_some_iff.mp placed
      obtain ⟨before, after, whole, spread, low, high⟩ := ihLeft inLeft inside
      refine ⟨before, after ++ middle :: right.inorder, by simp [whole], by simp [spread], low, ?_⟩
      intro entry mem
      rcases mem_append.mp mem with mem | mem
      · exact high entry mem
      · rcases mem_cons.mp mem with rfl | mem
        · exact under
        · exact Nat.lt_trans under (afterMiddle entry mem)
    · split at placed
      · rename_i higher
        obtain ⟨next, inside, rfl⟩ := Option.map_eq_some_iff.mp placed
        obtain ⟨before, after, whole, spread, low, high⟩ := ihRight inRight inside
        refine ⟨left.inorder ++ middle :: before, after, by simp [whole], by simp [spread], ?_, high⟩
        intro entry mem
        rcases mem_append.mp mem with mem | mem
        · exact Nat.lt_trans (across entry mem middle mem_cons_self) higher
        · rcases mem_cons.mp mem with rfl | mem
          · exact higher
          · exact low entry mem
      · cases placed

theorem insert_none (refused : tree.insert key fresh = none) : ∃ entry ∈ tree.inorder, key entry = key fresh := by
  induction tree with
  | leaf => cases refused
  | node left middle right ihLeft ihRight =>
    unfold insert at refused
    split at refused
    · obtain ⟨entry, mem, same⟩ := ihLeft (Option.map_eq_none_iff.mp refused)
      exact ⟨entry, mem_append_left _ mem, same⟩
    · split at refused
      · obtain ⟨entry, mem, same⟩ := ihRight (Option.map_eq_none_iff.mp refused)
        exact ⟨entry, mem_append_right _ (mem_cons_of_mem _ mem), same⟩
      · exact ⟨middle, mem_append_right _ mem_cons_self, by omega⟩

/-- What balanced trees do beyond the descent: recolouring, which keeps the in-order list, and erasing one entry. -/
structure Balancing (α : Type u) [DecidableEq α] where
  insertColor : SearchTree α → SearchTree α
  erase : SearchTree α → α → SearchTree α
  inorder_insertColor : ∀ tree, (insertColor tree).inorder = tree.inorder
  inorder_erase : ∀ tree entry, (erase tree entry).inorder = tree.inorder.erase entry

def ofList : List α → SearchTree α
  | [] => leaf
  | entry :: rest => node leaf entry (ofList rest)

@[simp] theorem inorder_ofList (entries : List α) : (ofList entries).inorder = entries := by
  induction entries with
  | nil => rfl
  | cons entry rest ih => simp [ofList, ih]

def Balancing.plain [DecidableEq α] : Balancing α where
  insertColor := id
  erase tree entry := ofList (tree.inorder.erase entry)
  inorder_insertColor _ := rfl
  inorder_erase _ _ := inorder_ofList _

end SearchTree

end KernelModules.Data

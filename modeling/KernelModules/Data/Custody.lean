import Mathlib.Data.List.Basic

namespace KernelModules.Data

open List

universe u

/-! # Things of a stock that are handed out and taken back

Each thing of the stock is free or held.  A handing out has a ticket of its own, sent when what it stands for is
passed on.
-/

structure Custody {α : Type u} (stock free : List α) (held : List (α × Nat)) (sent : List Nat)
    (issued : Nat) : Prop where
  once : stock.Nodup
  all : (free ++ held.map Prod.fst).Perm stock
  tickets : (held.map Prod.snd ++ sent).Nodup
  before : ∀ ticket ∈ held.map Prod.snd ++ sent, ticket < issued

variable {α : Type u} {stock free : List α} {held : List (α × Nat)} {sent : List Nat} {issued : Nat}

namespace Custody

section

variable (custody : Custody stock free held sent issued)
include custody

theorem perm (same : held.Perm others) : Custody stock free others sent issued := by
  constructor
  · exact custody.once
  · exact ((same.map Prod.fst).symm.append_left free).trans custody.all
  · exact (((same.map Prod.snd).append_right sent).nodup_iff).mp custody.tickets
  · intro ticket mem
    exact custody.before ticket (((same.map Prod.snd).append_right sent).mem_iff.mpr mem)

theorem distinct : (free ++ held.map Prod.fst).Nodup :=
  custody.all.nodup_iff.mpr custody.once

theorem fresh : issued ∉ held.map Prod.snd ++ sent :=
  fun mem => Nat.lt_irrefl _ (custody.before issued mem)

theorem issue (all : (later ++ (element :: held.map Prod.fst)).Perm stock) :
    Custody stock later ((element, issued) :: held) sent (issued + 1) := by
  constructor
  · exact custody.once
  · exact all
  · exact nodup_cons.mpr ⟨custody.fresh, custody.tickets⟩
  · intro ticket member
    rcases mem_cons.mp member with rfl | member
    · exact Nat.lt_succ_self _
    · exact Nat.lt_succ_of_lt (custody.before ticket member)

end

theorem take (custody : Custody stock (element :: free) held sent issued) :
    Custody stock free ((element, issued) :: held) sent (issued + 1) :=
  custody.issue (perm_middle.trans custody.all)

theorem grow (custody : Custody stock free held sent issued) (new : element ∉ stock) :
    Custody (stock ++ [element]) (element :: free) held sent issued := by
  have all : (element :: (free ++ held.map Prod.fst)).Perm (stock ++ [element]) :=
    (custody.all.cons element).trans (perm_append_singleton element stock).symm
  refine { custody with once := ?_, all := ?_ }
  · rw [(perm_append_singleton element stock).nodup_iff]
    exact nodup_cons.mpr ⟨new, custody.once⟩
  · exact all

variable [DecidableEq α]

theorem recycle (custody : Custody stock free ((element, ticket) :: held) sent issued) :
    Custody stock (free.erase element ++ [element]) held sent issued := by
  have absent : element ∉ free := fun member => by
    have nodup := perm_middle.nodup_iff.mp custody.distinct
    exact (nodup_cons.mp nodup).1 (mem_append_left _ member)
  have tickets := custody.tickets
  rw [map_cons, cons_append, nodup_cons] at tickets
  constructor
  · exact custody.once
  · rw [erase_of_not_mem absent, append_assoc]
    exact custody.all
  · exact tickets.2
  · exact fun ticket member => custody.before ticket (mem_cons_of_mem _ member)

theorem again (custody : Custody stock free held sent issued) (member : element ∈ free) :
    Custody stock (free.erase element ++ [element]) held sent issued := by
  have same : (free.erase element ++ [element]).Perm free :=
    (perm_append_singleton element _).trans (perm_cons_erase member).symm
  exact { custody with all := (same.append_right _).trans custody.all }

theorem send (custody : Custody stock free ((element, ticket) :: held) sent issued) :
    Custody stock (free.erase element ++ [element]) held (sent ++ [ticket]) issued := by
  have order : ((ticket :: held.map Prod.snd) ++ sent).Perm (held.map Prod.snd ++ (sent ++ [ticket])) := by
    rw [← append_assoc]
    exact (perm_append_singleton ticket _).symm
  constructor
  · exact custody.once
  · exact custody.recycle.all
  · exact order.nodup_iff.mp custody.tickets
  · exact fun other mem => custody.before other (order.mem_iff.mpr mem)

end Custody

end KernelModules.Data

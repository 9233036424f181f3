import Mathlib.Logic.Function.Basic
import Mathlib.Data.List.Basic

/-! Singly linked lists threaded through a map. Nodes live in `α`; links live in a
type `β` of references with a distinguished end mark, so that one map can carry
several lists at once. -/
namespace Threaded

/-- Following `next` from `start` visits exactly the listed nodes, in order, and
then meets the end mark. -/
def Linked (ref : α → β) (stop : β) (next : α → β) : β → List α → Prop
  | start, [] => start = stop
  | start, a :: rest => start = ref a ∧ Linked ref stop next (next a) rest

variable {α β : Type} {ref : α → β} {stop : β} {next other : α → β}

@[simp] theorem linked_nil : Linked ref stop next start [] ↔ start = stop := Iff.rfl

@[simp] theorem linked_cons :
    Linked ref stop next start (a :: rest) ↔
      start = ref a ∧ Linked ref stop next (next a) rest := Iff.rfl

/-- A list depends only on the links of its own nodes. -/
theorem Linked.congr (same : ∀ a ∈ nodes, other a = next a)
    (linked : Linked ref stop next start nodes) : Linked ref stop other start nodes := by
  induction nodes generalizing start with
  | nil => exact linked
  | cons a rest ih =>
    obtain ⟨first,tail⟩ := linked
    refine ⟨first,?_⟩
    rw [same a List.mem_cons_self]
    exact ih (fun b member => same b (List.mem_cons_of_mem a member)) tail

theorem Linked.update_other [DecidableEq α] (apart : a ∉ nodes)
    (linked : Linked ref stop next start nodes) :
    Linked ref stop (Function.update next a link) start nodes := by
  apply linked.congr
  intro b member
  have different : b ≠ a := fun same => apart (by rwa [same] at member)
  exact Function.update_of_ne different _ _

theorem Linked.push [DecidableEq α] (apart : a ∉ nodes)
    (linked : Linked ref stop next start nodes) :
    Linked ref stop (Function.update next a start) (ref a) (a :: nodes) := by
  refine ⟨rfl,?_⟩
  rw [Function.update_self]
  exact linked.update_other apart

/-- Appending a node outside the list: the old last node is relinked to it. -/
theorem Linked.snoc [DecidableEq α] (linked : Linked ref stop next start (front ++ [last]))
    (apart : a ∉ front ++ [last]) (fresh : last ∉ front) :
    Linked ref stop (Function.update (Function.update next last (ref a)) a stop) start
      (front ++ [last] ++ [a]) := by
  have different : last ≠ a := fun same => apart (by simp [same])
  induction front generalizing start with
  | nil =>
    simp only [List.nil_append, linked_cons] at linked
    simp [linked.1,different]
  | cons b rest ih =>
    simp only [List.cons_append, linked_cons] at linked ⊢
    have notLast : b ≠ last := fun same => fresh (by simp [same])
    have notNew : b ≠ a := fun same => apart (by simp [same])
    rw [Function.update_of_ne notNew, Function.update_of_ne notLast]
    refine ⟨linked.1,ih linked.2 ?_ ?_⟩
    · exact fun member => apart (List.mem_cons_of_mem b member)
    · exact fun member => fresh (List.mem_cons_of_mem b member)

end Threaded

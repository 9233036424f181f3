import Mathlib.Logic.Function.Basic
import Mathlib.Data.Nat.ModEq
import Mathlib.Data.List.Basic

/-! Windows of a circular array addressed by free-running counters. A producer
writes at the upper counter and a consumer reads at the lower one; slots are the
counters reduced modulo the capacity. -/
namespace RingWindow

/-- The slots from counter `lower` on hold the listed values in order. -/
def Holds (capacity : Nat) (slots : Nat → α) (lower : Nat) (values : List α) : Prop :=
  ∀ j (bound : j < values.length), slots ((lower + j) % capacity) = values[j]

/-- Two counters less than a full turn apart do not share a slot. -/
theorem slot_ne {i j capacity : Nat} (near : i < j) (turn : j < i + capacity) :
    i % capacity ≠ j % capacity := by
  intro same
  have divides : capacity ∣ j - i := (Nat.modEq_iff_dvd' (Nat.le_of_lt near)).mp same
  have zero := Nat.eq_zero_of_dvd_of_lt divides (by omega)
  omega

/-- Counters kept modulo a multiple of the capacity select the same slot. -/
theorem slot_mod (divides : capacity ∣ modulus) (counter : Nat) :
    counter % modulus % capacity = counter % capacity :=
  Nat.mod_mod_of_dvd counter divides

/-- Reduced counters less than a full turn apart agree only if the counters do. -/
theorem counter_eq {i j modulus : Nat} (same : i % modulus = j % modulus) (ordered : i ≤ j)
    (turn : j < i + modulus) : i = j := by
  rcases Nat.eq_or_lt_of_le ordered with equal | near
  · exact equal
  · exact absurd same (slot_ne near turn)

theorem Holds.nil (slots : Nat → α) : Holds capacity slots lower [] := by
  intro j bound
  simp at bound

/-- Writing above a window that leaves a slot free extends it. -/
theorem Holds.push {slots : Nat → α} (window : Holds capacity slots lower values)
    (room : values.length < capacity) (value : α) :
    Holds capacity (Function.update slots ((lower + values.length) % capacity) value) lower
      (values ++ [value]) := by
  intro j bound
  rw [List.length_append, List.length_singleton] at bound
  by_cases old : j < values.length
  · have apart := slot_ne (show lower + j < lower + values.length by omega)
      (show lower + values.length < lower + j + capacity by omega)
    rw [Function.update_of_ne apart, List.getElem_append_left old]
    exact window j old
  · obtain rfl : j = values.length := by omega
    rw [Function.update_self, List.getElem_concat_length rfl]

/-- Reading the lowest entry shrinks the window. -/
theorem Holds.tail (window : Holds capacity slots lower (value :: values)) :
    Holds capacity slots (lower + 1) values := by
  intro j bound
  have later := window (j + 1) (by simpa using bound)
  simpa [Nat.add_assoc, Nat.add_comm 1 j] using later

theorem Holds.head (window : Holds capacity slots lower (value :: values)) :
    slots (lower % capacity) = value := by
  exact window 0 (Nat.zero_lt_succ _)

end RingWindow

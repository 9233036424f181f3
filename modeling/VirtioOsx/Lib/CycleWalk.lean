import Mathlib.Data.Fintype.Card
import Mathlib.Logic.Function.Iterate
import Mathlib.Tactic.Push

/-! Walking along pointers that may lead into a cycle. A second pointer trails at half the
speed, so that the walk comes to an end in any case. -/
namespace CycleWalk

/-- The loop of the walk: every element is visited until one `ends` the walk or is the one the
trailing pointer is at. The element that ended the walk is returned. -/
def walk [DecidableEq α] (next : α → α) (ends : α → Bool) (visit : α → S → S) :
    Nat → α → α → Bool → S → Option (α × S)
  | 0, _, _, _, _ => none
  | fuel + 1, element, trail, trailSkip, s =>
    let element := next element
    if ends element ∨ trail = element then some (element, s)
    else walk next ends visit fuel element (if trailSkip then trail else next trail) (!trailSkip)
      (visit element s)

section Orbit

variable {α : Type} {next : α → α} {start : α}

/-- From the first element that occurs again, all do. -/
theorem iterate_periodic (same : next^[i] start = next^[i + period] start) (later : i ≤ j) :
    next^[j + period] start = next^[j] start := by
  obtain ⟨k,rfl⟩ := Nat.exists_eq_add_of_le later
  have ahead : i + k + period = k + (i + period) := by omega
  rw [ahead,Function.iterate_add_apply next k,← same,← Function.iterate_add_apply,Nat.add_comm k]

theorem iterate_periodic_mul (same : next^[i] start = next^[i + period] start) (later : i ≤ j)
    (times : Nat) : next^[j + period * times] start = next^[j] start := by
  induction times with
  | zero => rfl
  | succ times ih =>
    rw [Nat.mul_succ,← Nat.add_assoc,iterate_periodic same (by omega),ih]

/-- There are not enough elements for all to be different. -/
theorem exists_periodic [Fintype α] (next : α → α) (start : α) :
    ∃ i period, 0 < period ∧ i + period ≤ Fintype.card α ∧
      next^[i] start = next^[i + period] start := by
  have repeats : ¬((List.range (Fintype.card α + 1)).map fun k => next^[k] start).Nodup := by
    intro distinct
    have bound := distinct.length_le_card
    rw [List.length_map,List.length_range] at bound
    omega
  rw [List.Nodup,List.pairwise_iff_getElem] at repeats
  push Not at repeats
  obtain ⟨i,j,_,bound,less,same⟩ := repeats
  rw [List.length_map,List.length_range] at bound
  rw [List.getElem_map,List.getElem_map,List.getElem_range,List.getElem_range] at same
  refine ⟨i,j - i,by omega,by omega,?_⟩
  rw [Nat.add_sub_cancel' less.le,same]

end Orbit

variable {α : Type} {next : α → α} {ends : α → Bool} {start : α}

def Stops (next : α → α) (ends : α → Bool) (start : α) (k : Nat) : Prop :=
  ends (next^[k + 1] start) = true ∨ next^[k / 2] start = next^[k + 1] start

/-- The trailing pointer meets the other one in a cycle. -/
theorem exists_stops [Fintype α] (next : α → α) (ends : α → Bool) (start : α) :
    ∃ k < 2 * Fintype.card α, Stops next ends start k := by
  obtain ⟨i,period,positive,bound,same⟩ := exists_periodic next start
  -- the trail has to be inside the cycle and a multiple of the period behind
  have ahead : i < period * (i / period + 1) := Nat.lt_mul_div_succ i positive
  have near : period * (i / period) ≤ i := Nat.mul_div_le i period
  rw [Nat.mul_succ] at ahead
  refine ⟨2 * (period * (i / period) + period - 1),by omega,.inr ?_⟩
  have half : 2 * (period * (i / period) + period - 1) / 2 =
      period * (i / period) + period - 1 := by omega
  have distance : 2 * (period * (i / period) + period - 1) + 1 =
      period * (i / period) + period - 1 + period * (i / period + 1) := by
    rw [Nat.mul_succ]
    omega
  rw [half,distance]
  exact (iterate_periodic_mul same (by omega) _).symm

/-- The walk ends with `last` exactly if the pointers lead there: a trailing pointer that meets
the other one is in a cycle that does not lead anywhere. -/
theorem stops_last_iff (last : α) (final : ends last = true) (elsewhere : start ≠ last)
    (stops : Stops next ends start steps) (before : ∀ j < steps, ¬Stops next ends start j) :
    next^[steps + 1] start = last ↔
      ∃ length, next^[length + 1] start = last ∧
        ∀ k < length, ends (next^[k + 1] start) = false := by
  constructor
  · intro reached
    refine ⟨steps,reached,fun k less => ?_⟩
    exact Bool.eq_false_iff.mpr fun ended => before k less (.inl ended)
  · rintro ⟨length,reached,inside⟩
    have within : steps ≤ length := by
      by_contra longer
      exact before length (by omega) (.inl (by rw [reached,final]))
    rcases Nat.eq_or_lt_of_le within with rfl | less
    · exact reached
    rcases stops with ended | met
    · rw [inside steps less] at ended
      cases ended
    -- the end would be reached once per period, and has to be reached before the first one
    have same : next^[steps / 2] start = next^[steps / 2 + (steps + 1 - steps / 2)] start := by
      rw [Nat.add_sub_cancel' (by omega)]
      exact met
    have earlier := iterate_periodic same
      (show steps / 2 ≤ length + 1 - (steps + 1 - steps / 2) by omega)
    rw [Nat.sub_add_cancel (by omega),reached] at earlier
    cases position : length + 1 - (steps + 1 - steps / 2) with
    | zero =>
      rw [position] at earlier
      exact absurd earlier.symm elsewhere
    | succ k =>
      rw [position] at earlier
      have valid := inside k (by omega)
      rw [← earlier,final] at valid
      cases valid

variable [DecidableEq α]

theorem walk_stops (visit : α → S → S) (k more : Nat) (stops : Stops next ends start (k + more))
    (before : ∀ j < k + more, ¬Stops next ends start j) (enough : more < fuel) (s : S) :
    walk next ends visit fuel (next^[k] start) (next^[k / 2] start) (k % 2 == 0) s =
      some (next^[k + more + 1] start,
        (List.range more).foldl (fun s j => visit (next^[k + j + 1] start) s) s) := by
  induction more generalizing k fuel s with
  | zero =>
    obtain ⟨fuel,rfl⟩ := Nat.exists_eq_add_of_lt enough
    rw [walk,← Function.iterate_succ_apply' next]
    exact if_pos stops
  | succ more ih =>
    obtain ⟨fuel,rfl⟩ := Nat.exists_eq_add_of_lt enough
    have goes : ¬Stops next ends start k := before k (by omega)
    have trail : (if (k % 2 == 0) = true then next^[k / 2] start else next (next^[k / 2] start)) =
        next^[(k + 1) / 2] start := by
      by_cases even : k % 2 = 0
      · rw [if_pos (by simpa using even),show (k + 1) / 2 = k / 2 by omega]
      · rw [if_neg (by simpa using even),show (k + 1) / 2 = k / 2 + 1 by omega,
          Function.iterate_succ_apply']
    have skip : (!(k % 2 == 0)) = ((k + 1) % 2 == 0) := by
      by_cases even : k % 2 = 0
      · simp [even,show (k + 1) % 2 = 1 by omega]
      · simp [show k % 2 = 1 by omega,show (k + 1) % 2 = 0 by omega]
    have later := ih (k + 1) (by rwa [Nat.add_right_comm,Nat.add_assoc])
      (fun j less => before j (by omega)) (show more < more + 1 + fuel by omega)
      (visit (next^[k + 1] start) s)
    rw [show more + 1 + fuel + 1 = (more + 1 + fuel) + 1 from rfl,walk,
      ← Function.iterate_succ_apply' next k start]
    refine (if_neg goes).trans ?_
    rw [trail,skip,later,List.range_succ_eq_map,List.foldl_cons,List.foldl_map]
    simp only [Nat.add_assoc,Nat.add_comm 1,Nat.add_zero]

/-- The walk always ends, and with the first step that can end it. -/
theorem walk_ends [Fintype α] (next : α → α) (ends : α → Bool) (start : α)
    (enough : 2 * Fintype.card α ≤ fuel) :
    ∃ steps, Stops next ends start steps ∧ (∀ j < steps, ¬Stops next ends start j) ∧
      ∀ (S : Type) (visit : α → S → S) (s : S),
        walk next ends visit fuel start start true s = some (next^[steps + 1] start,
          (List.range steps).foldl (fun s j => visit (next^[j + 1] start) s) s) := by
  classical
  obtain ⟨k,bound,stops⟩ := exists_stops next ends start
  have some : ∃ k, Stops next ends start k := ⟨k,stops⟩
  have first := Nat.find_min' some stops
  refine ⟨Nat.find some,Nat.find_spec some,fun j less => Nat.find_min some less,?_⟩
  intro S visit s
  have walked := walk_stops visit 0 (Nat.find some) (by simpa using Nat.find_spec some)
    (fun j less => Nat.find_min some (by simpa using less))
    (show Nat.find some < fuel by omega) s
  simpa using walked

end CycleWalk

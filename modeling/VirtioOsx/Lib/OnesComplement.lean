import Mathlib.Algebra.BigOperators.Group.List.Basic
import Mathlib.Data.Nat.ModEq

/-! One's-complement sums of words below `b`. Adding with an end-around carry is addition
modulo `b - 1`, but zero has two words: a sum is 0 only if all its terms are, and else the
other one, `b - 1`. -/
namespace OnesComplement

/-- What goes beyond the word is added at its low end. -/
def fold (b s : Nat) : Nat := s % b + s / b

def add (b x y : Nat) : Nat := fold b (x + y)

def sum (b : Nat) (words : List Nat) : Nat := words.foldl (add b) 0

def complement (b x : Nat) : Nat := b - 1 - x

/-- The word `x` is the one's-complement value of `s`. -/
structure Represents (b s x : Nat) : Prop where
  congruent : x ≡ s [MOD b - 1]
  zero : x = 0 ↔ s = 0
  word : x < b

theorem represents_word (word : x < b) : Represents b x x := ⟨.refl x,.rfl,word⟩

theorem Represents.congr (represents : Represents b s x) (same : t ≡ s [MOD b - 1])
    (zero : t = 0 ↔ s = 0) : Represents b t x :=
  ⟨represents.congruent.trans same.symm,represents.zero.trans zero.symm,represents.word⟩

theorem Represents.unique (one : Represents b s x) (two : Represents b s y) : x = y := by
  by_cases zero : s = 0
  · rw [one.zero.mpr zero,two.zero.mpr zero]
  have x0 := mt one.zero.mp zero
  have y0 := mt two.zero.mp zero
  have xb := one.word
  have yb := two.word
  obtain ⟨x,rfl⟩ : ∃ less, x = less + 1 := ⟨x - 1,by omega⟩
  obtain ⟨y,rfl⟩ : ∃ less, y = less + 1 := ⟨y - 1,by omega⟩
  have less : x ≡ y [MOD b - 1] :=
    Nat.ModEq.add_right_cancel' 1 (one.congruent.trans two.congruent.symm)
  rw [less.eq_of_lt_of_lt (by omega) (by omega)]

theorem base_modEq (positive : 0 < b) : b ≡ 1 [MOD b - 1] := by
  have : b = 1 + (b - 1) := by omega
  conv_lhs => rw [this]
  exact Nat.add_modEq_right

theorem fold_modEq (positive : 0 < b) (s : Nat) : fold b s ≡ s [MOD b - 1] := by
  have step : b * (s / b) ≡ 1 * (s / b) [MOD b - 1] := (base_modEq positive).mul_right _
  rw [Nat.one_mul] at step
  conv_rhs => rw [← Nat.mod_add_div s b]
  exact (step.symm.add_left (s % b))

theorem fold_eq_zero : fold b s = 0 ↔ s = 0 := by
  constructor
  · intro zero
    obtain ⟨low,high⟩ := Nat.add_eq_zero_iff.mp zero
    rw [← Nat.mod_add_div s b,low,high,Nat.mul_zero]
  · rintro rfl
    simp [fold]

theorem represents_fold (small : fold b s < b) : Represents b s (fold b s) :=
  ⟨fold_modEq (by omega) s,fold_eq_zero,small⟩

/-- A second fold takes in what the first one carries. -/
theorem represents_fold_fold (small : fold b (fold b s) < b) :
    Represents b s (fold b (fold b s)) :=
  (represents_fold small).congr (fold_modEq (by omega) s).symm fold_eq_zero.symm

theorem Represents.add (one : Represents b s x) (two : Represents b t y) :
    Represents b (s + t) (add b x y) := by
  have xb := one.word
  have yb := two.word
  have small : fold b (x + y) < b := by
    unfold fold
    rcases Nat.lt_or_ge (x + y) b with less | carry
    · rw [Nat.mod_eq_of_lt less,Nat.div_eq_of_lt less]
      exact less
    · rw [Nat.mod_eq_sub_mod carry,Nat.mod_eq_of_lt (by omega),
        Nat.div_eq_of_lt_le (k := 1) (by omega) (by omega)]
      omega
  refine (represents_fold small).congr (one.congruent.add two.congruent).symm ?_
  have left := one.zero
  have right := two.zero
  omega

theorem represents_sum (positive : 0 < b) (words : List Nat) (small : ∀ w ∈ words, w < b) :
    Represents b words.sum (sum b words) := by
  have folds (words : List Nat) (small : ∀ w ∈ words, w < b) {s x : Nat}
      (represents : Represents b s x) :
      Represents b (s + words.sum) (words.foldl (OnesComplement.add b) x) := by
    induction words generalizing s x with
    | nil => exact represents
    | cons w words ih =>
      rw [List.sum_cons,← Nat.add_assoc,List.foldl_cons]
      exact ih (fun v member => small v (List.mem_cons_of_mem w member))
        (represents.add (represents_word (small w List.mem_cons_self)))
  have all := folds words small (represents_word positive)
  rwa [Nat.zero_add] at all

/-- What is completed with the complement of its value comes out as the second zero. -/
theorem Represents.complete (represents : Represents b s x) (large : 1 < b) (some : 0 < t)
    (same : t ≡ s + complement b x [MOD b - 1]) : Represents b t (b - 1) := by
  have word := represents.word
  have none : b - 1 ≡ 0 [MOD b - 1] := Nat.modEq_zero_iff_dvd.mpr (Nat.dvd_refl _)
  have zero : s + complement b x ≡ 0 [MOD b - 1] := by
    refine (represents.congruent.symm.add_right _).trans ?_
    rw [complement,Nat.add_sub_cancel' (by omega)]
    exact none
  exact ⟨none.trans (same.trans zero).symm,by omega,by omega⟩

def swap (c x : Nat) : Nat := x % c * c + x / c

/-- Swapping is a multiplication, so that a sum may be taken of swapped words. -/
theorem swap_modEq (positive : 0 < c) (x : Nat) : swap c x ≡ c * x [MOD c * c - 1] := by
  have wraps : c * c * (x / c) ≡ 1 * (x / c) [MOD c * c - 1] :=
    (base_modEq (Nat.mul_pos positive positive)).mul_right _
  have digits : c * x = x % c * c + c * c * (x / c) := by
    conv_lhs => rw [← Nat.mod_add_div x c]
    rw [Nat.mul_add,Nat.mul_comm c (x % c),Nat.mul_assoc]
  rw [Nat.one_mul] at wraps
  rw [digits]
  exact wraps.symm.add_left _

theorem swap_eq_zero (positive : 0 < c) : swap c x = 0 ↔ x = 0 := by
  constructor
  · intro zero
    obtain ⟨low,high⟩ := Nat.add_eq_zero_iff.mp zero
    have low := (Nat.mul_eq_zero.mp low).resolve_right (by omega)
    rw [← Nat.mod_add_div x c,low,high,Nat.mul_zero]
  · rintro rfl
    simp [swap]

theorem swap_lt (word : x < c * c) : swap c x < c * c := by
  have positive : 0 < c := Nat.pos_of_ne_zero (by rintro rfl; simp at word)
  have low := Nat.mod_lt x positive
  have high := Nat.div_lt_of_lt_mul word
  calc x % c * c + x / c < x % c * c + c := by omega
    _ = (x % c + 1) * c := (Nat.succ_mul _ _).symm
    _ ≤ c * c := Nat.mul_le_mul_right c low

/-- The value of a sum in the other order of digits. -/
theorem Represents.swap (represents : Represents (c * c) s x) (positive : 0 < c) :
    Represents (c * c) (c * s) (swap c x) := by
  refine ⟨(swap_modEq positive x).trans (represents.congruent.mul_left c),?_,
    swap_lt represents.word⟩
  rw [swap_eq_zero positive,represents.zero,Nat.mul_eq_zero]
  exact ⟨.inr,fun zero => zero.resolve_left (by omega)⟩

end OnesComplement

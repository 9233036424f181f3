/-! Finite runs of a partial step function. A run may be filtered by a condition on
the steps it takes, so that one machine serves statements about all its runs and
about only some of them. -/
namespace Runs

/-- Every step is enabled and meets `allowed` in the state it starts from. -/
inductive Run (step : A → S → Option S) (allowed : S → A → Prop) : S → List A → S → Prop where
  | nil : Run step allowed s [] s
  | cons : allowed s a → step a s = some next → Run step allowed next rest final →
      Run step allowed s (a :: rest) final

/-- What every allowed step keeps, every run keeps. -/
theorem Run.keeps (holds : S → Prop)
    (kept : ∀ {s a next}, allowed s a → step a s = some next → holds s → holds next)
    (run : Run step allowed s actions final) : holds s → holds final := by
  induction run with
  | nil => exact id
  | cons permitted taken _ ih => exact fun before => ih (kept permitted taken before)

theorem Run.mono (weaker : ∀ {s a}, allowed s a → permitted s a)
    (run : Run step allowed s actions final) : Run step permitted s actions final := by
  induction run with
  | nil => exact .nil
  | cons good taken _ ih => exact .cons (weaker good) taken ih

/-- One condition may give another only in the states that a run comes through. -/
theorem Run.mono_keeps (holds : S → Prop)
    (kept : ∀ {s a next}, step a s = some next → holds s → holds next)
    (weaker : ∀ {s a next}, holds s → step a s = some next → allowed s a → permitted s a)
    (run : Run step allowed s actions final) (start : holds s) :
    Run step permitted s actions final := by
  induction run with
  | nil => exact .nil
  | cons good taken _ ih => exact .cons (weaker start taken good) taken (ih (kept taken start))

theorem Run.append (run : Run step allowed s actions middle)
    (later : Run step allowed middle actions' final) :
    Run step allowed s (actions ++ actions') final := by
  induction run with
  | nil => exact later
  | cons good first _ ih => exact .cons good first (ih later)

theorem Run.snoc (run : Run step allowed s actions middle) (permitted : allowed middle a)
    (taken : step a middle = some final) : Run step allowed s (actions ++ [a]) final :=
  run.append (.cons permitted taken .nil)

/-- The run through the listed steps, for a condition that can be checked. -/
def play (step : A → S → Option S) (check : S → A → Bool) : List A → S → Option S
  | [], s => some s
  | a :: rest, s => if check s a then (step a s).bind (play step check rest) else none

theorem run_of_play (checked : ∀ s a, check s a = true → allowed s a)
    (played : play step check actions s = some final) : Run step allowed s actions final := by
  induction actions generalizing s with
  | nil =>
    obtain rfl := Option.some.inj played
    exact .nil
  | cons a rest ih =>
    rw [play] at played
    split at played
    · rename_i good
      obtain ⟨next,taken,later⟩ := Option.bind_eq_some_iff.mp played
      exact .cons (checked s a good) taken (ih later)
    · cases played

theorem play_of_run (checked : ∀ s a, allowed s a → check s a = true)
    (run : Run step allowed s actions final) : play step check actions s = some final := by
  induction run with
  | nil => rfl
  | cons good taken _ ih =>
    rw [play,if_pos (checked _ _ good),taken]
    exact ih

theorem Run.of_actions (good : ∀ a ∈ actions, ∀ s, permitted s a)
    (run : Run step allowed s actions final) : Run step permitted s actions final := by
  induction run with
  | nil => exact .nil
  | cons _ taken _ ih =>
    exact .cons (good _ List.mem_cons_self _) taken
      (ih fun a member => good a (List.mem_cons_of_mem _ member))

theorem Run.actions_all {good : A → Prop} (implied : ∀ {s a}, allowed s a → good a)
    (run : Run step allowed s actions final) : ∀ a ∈ actions, good a := by
  induction run with
  | nil => simp
  | cons permitted _ _ ih => exact List.forall_mem_cons.mpr ⟨implied permitted,ih⟩

theorem Run.and (run : Run step allowed s actions final) (again : Run step permitted s actions final) :
    Run step (fun s a => allowed s a ∧ permitted s a) s actions final := by
  induction run with
  | nil => exact .nil
  | cons good taken _ ih =>
    cases again with
    | cons other taken' later =>
      obtain rfl := Option.some.inj (taken.symm.trans taken')
      exact .cons ⟨good,other⟩ taken (ih later)

/-- A machine each of whose steps another one answers with some steps of its own, none
included, is followed by the other in every run. -/
theorem Run.follows {step' : B → T → Option T} (related : S → T → Prop)
    (answered : ∀ {s a next t}, allowed s a → step a s = some next → related s t →
      ∃ answers t', Run step' permitted t answers t' ∧ related next t')
    (run : Run step allowed s actions final) (start : related s t) :
    ∃ answers t', Run step' permitted t answers t' ∧ related final t' := by
  induction run generalizing t with
  | nil => exact ⟨[],t,.nil,start⟩
  | cons good taken _ ih =>
    obtain ⟨answers,t',first,next⟩ := answered good taken start
    obtain ⟨more,final',later,last⟩ := ih next
    exact ⟨answers ++ more,final',first.append later,last⟩

/-- A run whose steps all lower `rank`, from states that keep `holds`, is no longer than the rank
that it begins with. -/
theorem Run.length_le (holds : S → Prop) (rank : S → Nat)
    (progress : ∀ {s a next}, allowed s a → step a s = some next → holds s →
      holds next ∧ rank next < rank s)
    (run : Run step allowed s actions final) (start : holds s) :
    holds final ∧ actions.length + rank final ≤ rank s := by
  induction run with
  | nil => exact ⟨start,by simp⟩
  | cons good taken _ ih =>
    obtain ⟨kept,lower⟩ := progress good taken start
    obtain ⟨last,bound⟩ := ih kept
    refine ⟨last,?_⟩
    rw [List.length_cons]
    omega

def iterate (step : Nat → S → S) (s : S) : Nat → S
  | 0 => s
  | n + 1 => step n (iterate step s n)

theorem iterate_succ (step : Nat → S → S) (s : S) (n : Nat) :
    iterate step s (n + 1) = iterate (fun k => step (k + 1)) (step 0 s) n := by
  induction n with
  | zero => rfl
  | succ n ih => exact congrArg (step (n + 1)) ih

/-- Steps that keep `holds` and lower `rank` until `done` get there. -/
theorem iterate_ends (holds done : S → Prop) (rank : S → Nat)
    (progress : ∀ k s, holds s → ¬done s → holds (step k s) ∧ rank (step k s) < rank s)
    (start : holds s) :
    ∃ n, done (iterate step s n) ∧ holds (iterate step s n) ∧
      ∀ k < n, ¬done (iterate step s k) := by
  induction level : rank s using Nat.strongRecOn generalizing s step with
  | ind level ih =>
    by_cases finished : done s
    · exact ⟨0,finished,start,by simp⟩
    · obtain ⟨kept,lower⟩ := progress 0 s start finished
      obtain ⟨n,reached,still,before⟩ := ih (rank (step 0 s)) (by omega)
        (fun k => progress (k + 1)) kept rfl
      refine ⟨n + 1,?_,?_,?_⟩
      · rwa [iterate_succ]
      · rwa [iterate_succ]
      · intro k less
        cases k with
        | zero => exact finished
        | succ k =>
          rw [iterate_succ]
          exact before k (by omega)

end Runs

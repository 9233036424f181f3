import VirtioOsx.CompletionRuns

/-! What a caller of `pollCompletedRequestsInVirtqueue` gets for its limit: which of the used
elements are processed, and what is returned. -/
namespace VirtioOsx

open Runs

/-- During a call the device may do anything but return a request, and completion actions may
submit further ones. -/
def Polling (m : Machine) (a : Action) : Prop :=
  Sound m a ∧ (∀ position writtenBytes, a ≠ .complete position writtenBytes) ∧
    ∀ limit, a ≠ .process limit

structure Polls (m : Machine) (limit count : Nat) (m' : Machine) : Prop where
  whole : ∃ first actions before call, step (.process limit) m = some first ∧
    Run step Polling first actions before ∧ before.processing = some call ∧
    call.totalHandled = count ∧ step .advance before = some m' ∧ m'.processing = none

def toProcess (limit pending : Nat) : Nat := if limit = 0 then pending else min pending limit

/-- Every call processes the oldest elements, as many as its limit allows, and returns their
number. -/
def LimitHonoured (m : Machine) (limit : Nat) : Prop :=
  ∀ count m', Polls m limit count m' → count = toProcess limit m.unprocessed.length ∧
    m'.log = m.log ++ (m.unprocessed.take count).map Returned.invocation ∧
    m'.unprocessed = m.unprocessed.drop count

theorem Polling.returned (polling : Polling m a) (taken : step a m = some m') :
    m'.returned = m.returned := by
  cases a with
  | submit call =>
    rcases (Machine.submit_cases taken).2 with ⟨_,_,_,rfl⟩ | ⟨_,_,_,rfl⟩
    · rfl
    · rfl
  | publish =>
    rcases Machine.publish_cases taken with ⟨_,_,rfl⟩ | ⟨_,_,rfl⟩ | ⟨_,rfl⟩
    · rfl
    · rfl
    · rfl
  | process limit => exact absurd rfl (polling.2.2 limit)
  | advance =>
    obtain ⟨_,_,_,_,_,rfl⟩ := Machine.advance_cases taken
    rfl
  | fetch =>
    obtain ⟨_,_,_,rfl⟩ := Machine.fetch_cases taken
    rfl
  | complete position writtenBytes => exact absurd rfl (polling.2.1 position writtenBytes)
  | suppress | enable | recheck | kick =>
    simp only [step,Machine.suppress,Machine.enable,Machine.recheck,Machine.kick] at taken
    split at taken
    · obtain rfl := Option.some.inj taken
      rfl
    · cases taken

theorem Machine.process_cases {m m' : Machine} (taken : step (.process limit) m = some m') :
    m.submitting = none ∧ m.processing = none ∧
      m' = { m with processing := some ⟨limit, 0, .poll⟩ } := by
  simp only [step,Machine.process] at taken
  split at taken
  · rename_i free
    rw [Bool.and_eq_true,Option.isNone_iff_eq_none,Option.isNone_iff_eq_none] at free
    exact ⟨free.1,free.2,(Option.some.inj taken).symm⟩
  · cases taken

/-- What a call does in fact: it processes all there is and returns zero. -/
theorem Polls.spec (inv : MachineInv n lost m) (polls : Polls m limit count m') :
    count = 0 ∧ m'.unprocessed = [] ∧
      m'.log = m.log ++ m.unprocessed.map Returned.invocation ∧ ∃ lost', MachineInv n lost' m' := by
  obtain ⟨first,actions,before,call,begun,run,busy,handled,ended,done⟩ := polls.whole
  obtain ⟨_,_,rfl⟩ := Machine.process_cases begun
  obtain ⟨lost',inv',same⟩ := Run.keeps
    (fun m' => ∃ lost, MachineInv n lost m' ∧ m'.returned = m.returned)
    (fun polling taken ⟨lost,inv,same⟩ =>
      have ⟨more,kept,_⟩ := inv.keeps taken (.inl polling.1)
      ⟨more ++ lost,kept,(polling.returned taken).trans same⟩)
    run ⟨lost,inv.process begun,rfl⟩
  have position := inv'.position
  rw [busy] at position
  obtain ⟨kept,all⟩ := inv'.advance ended
  obtain ⟨_,_,_,_,_,rfl⟩ := Machine.advance_cases ended
  have every := all done
  refine ⟨handled.symm.trans position.1,?_,?_,lost',kept⟩
  · exact List.drop_eq_nil_of_le every.ge
  · have attributed := kept.used.attributed
    rw [every,List.take_length] at attributed
    have whole : m.returned = m.returned.take m.log.length ++ m.unprocessed :=
      (List.take_append_drop ..).symm
    rw [attributed]
    conv_lhs => rw [show (before.processed _ _).returned = m.returned from same,whole]
    rw [List.map_append,← inv.used.attributed]

/-- A run that ends with the return of the call ends with a step of the call. -/
theorem advance_last (busy : m.processing = some call)
    (run : Run step (fun _ _ => True) m (List.replicate k .advance) m')
    (done : m'.processing = none) :
    ∃ actions before last, Run step Polling m actions before ∧ before.processing = some last ∧
      step .advance before = some m' := by
  have allowed (m : Machine) : Polling m .advance := by
    refine ⟨fun call same => ?_,fun position writtenBytes same => ?_,fun limit same => ?_⟩
    · cases same
    · cases same
    · cases same
  induction k generalizing m call with
  | zero =>
    cases run
    rw [busy] at done
    cases done
  | succ k ih =>
    rw [List.replicate_succ] at run
    cases run with
    | @cons _ _ next _ _ _ taken rest =>
      cases still : next.processing with
      | some call' =>
        obtain ⟨actions,before,last,earlier,running,ended⟩ := ih still rest
        exact ⟨_,before,last,.cons (allowed m) taken earlier,running,ended⟩
      | none =>
        -- nothing can follow the return
        cases k with
        | zero =>
          cases rest
          exact ⟨[],m,call,.nil,busy,taken⟩
        | succ k =>
          rw [List.replicate_succ] at rest
          cases rest with
          | cons _ again _ =>
            obtain ⟨_,call',_,running,_⟩ := Machine.advance_cases again
            rw [still] at running
            cases running

/-- A call returns, whatever its limit. -/
theorem polls_exist (inv : MachineInv n lost m) (quiet : m.submitting = none)
    (idle : m.processing = none) (limit : Nat) : ∃ count m', Polls m limit count m' := by
  have begun : step (.process limit) m = some { m with processing := some ⟨limit, 0, .poll⟩ } := by
    simp [step,Machine.process,quiet,idle]
  obtain ⟨k,m',run,done,_⟩ := (inv.process begun).drains quiet rfl
  obtain ⟨actions,before,call,polling,busy,ended⟩ := advance_last rfl run done
  exact ⟨call.totalHandled,m',_,actions,before,call,begun,polling,busy,rfl,ended,done⟩

inductive PollsInTurn : Machine → List Nat → List Nat → Machine → Prop where
  | nil : PollsInTurn m [] [] m
  | cons : Polls m limit count next → PollsInTurn next limits counts final →
      PollsInTurn m (limit :: limits) (count :: counts) final

theorem PollsInTurn.spec (inv : MachineInv n lost m) (polls : PollsInTurn m limits counts m') :
    counts.sum = 0 ∧ (limits ≠ [] → m'.unprocessed = [] ∧
      m'.log = m.log ++ m.unprocessed.map Returned.invocation) := by
  induction polls generalizing lost with
  | nil => exact ⟨rfl,fun some => absurd rfl some⟩
  | @cons m limit count next limits counts final poll rest ih =>
    obtain ⟨zero,all,log,_,inv'⟩ := poll.spec inv
    obtain ⟨sum,later⟩ := ih inv'
    refine ⟨by simp [zero,sum],fun _ => ?_⟩
    by_cases last : limits = []
    · subst last
      cases rest
      exact ⟨all,log⟩
    · obtain ⟨none,log'⟩ := later last
      exact ⟨none,by rw [log',all,log,List.map_nil,List.append_nil]⟩

/-- The count is never raised, so that neither the limit nor the result of a call means
anything: a call does what it was asked for exactly if there was nothing to do. Every element
is processed once and in turn all the same, by the first of the calls. -/
theorem limit_honoured_iff (n activeFeatures : Nat) (interruptsEnabled : Bool)
    (indirectDescPerRequest : Nat) (calls : SetupCalls) (queue : VirtioVirtqueue)
    (size : n < 65536)
    (built : setupVirtqueue n activeFeatures interruptsEnabled indirectDescPerRequest calls =
      .ok queue)
    (actions : List Action) (m : Machine)
    (run : Run step Sound (Machine.start queue) actions m)
    (quiet : m.submitting = none) (idle : m.processing = none) (limit : Nat) :
    (∃ count m', Polls m limit count m') ∧
    (LimitHonoured m limit ↔ m.unprocessed = []) ∧
    ∀ limits counts m', PollsInTurn m limits counts m' → limits ≠ [] →
      m'.unprocessed = [] ∧ m'.log = m.log ++ m.unprocessed.map Returned.invocation ∧
      (counts.sum = m.unprocessed.length ↔ m.unprocessed = []) := by
  obtain ⟨lost,inv⟩ := machineInv_run (machineInv_setup size built) run
  have exist := polls_exist inv quiet idle limit
  refine ⟨exist,⟨?_,?_⟩,?_⟩
  · intro honoured
    obtain ⟨count,m',polls⟩ := exist
    obtain ⟨zero,_⟩ := polls.spec inv
    have expected := (honoured count m' polls).1
    rw [zero,toProcess] at expected
    apply List.length_eq_zero_iff.mp
    split at expected
    · exact expected.symm
    · omega
  · intro nothing count m' polls
    obtain ⟨rfl,all,log,_⟩ := polls.spec inv
    refine ⟨by simp [toProcess,nothing],?_,?_⟩
    · rw [log,nothing]
      rfl
    · rw [all,nothing]
      rfl
  · intro limits counts m' polls some
    obtain ⟨sum,all⟩ := polls.spec inv
    obtain ⟨none,log⟩ := all some
    refine ⟨none,log,?_⟩
    rw [sum,eq_comm,List.length_eq_zero_iff]

def twoReturned : List Action :=
  [.submit (writeSector 3), .publish, .publish, .publish, .kick, .fetch,
    .submit (writeSector 4), .publish, .publish, .publish, .fetch, .complete 0 7, .complete 0 9]

def twoProcessed : List Action := twoReturned ++ .process 0 :: List.replicate 9 .advance

theorem limit_honoured_iff_processed :
    ∃ m, Run step Sound (Machine.start (initialQueue 4 true false (readyCalls 4 64)))
      twoProcessed m ∧ m.log.length = 2 ∧ LimitHonoured m 1 := by
  have played : (play step checkSuccessful twoProcessed
      (Machine.start (initialQueue 4 true false (readyCalls 4 64)))).map (fun m =>
        (m.submitting,m.processing,m.log.length,m.unprocessed)) = some (none,none,2,[]) := by
    decide +kernel
  obtain ⟨m,played,seen⟩ := Option.map_eq_some_iff.mp played
  simp only [Prod.mk.injEq] at seen
  obtain ⟨quiet,idle,log,nothing⟩ := seen
  have run := run_of_play (fun m a checked => (successful_of_check m a checked).sound) played
  obtain ⟨_,honoured,_⟩ := limit_honoured_iff 4 0 true 0 (readyCalls 4 64) _ (by decide) rfl
    twoProcessed m run quiet idle 1
  exact ⟨m,run,log,honoured.mpr nothing⟩

/-- With two elements to process, a call with the limit one processes both and returns zero. -/
theorem limit_ignored :
    ∃ m m', Run step Sound (Machine.start (initialQueue 4 true false (readyCalls 4 64)))
      twoReturned m ∧ m.unprocessed.length = 2 ∧ Polls m 1 0 m' ∧ m.log.length = 0 ∧
      m'.log.length = 2 ∧ ¬LimitHonoured m 1 := by
  have played : (play step checkSuccessful twoReturned
      (Machine.start (initialQueue 4 true false (readyCalls 4 64)))).map (fun m =>
        (m.submitting,m.processing,m.log.length,m.unprocessed.length)) =
      some (none,none,0,2) := by decide +kernel
  obtain ⟨m,played,seen⟩ := Option.map_eq_some_iff.mp played
  simp only [Prod.mk.injEq] at seen
  obtain ⟨quiet,idle,log,two⟩ := seen
  have run := run_of_play (fun m a checked => (successful_of_check m a checked).sound) played
  obtain ⟨lost,inv⟩ := machineInv_run
    (machineInv_start (by decide) true false (readyCalls 4 64)) run
  obtain ⟨count,m',polls⟩ := polls_exist inv quiet idle 1
  obtain ⟨rfl,_,log',_⟩ := polls.spec inv
  refine ⟨m,m',run,two,polls,log,?_,fun honoured => ?_⟩
  · rw [log',List.length_append,List.length_map,log,two]
  · have expected := (honoured 0 m' polls).1
    rw [two] at expected
    cases expected

end VirtioOsx

import VirtioOsx.InterruptRuns

/-! Turning the interrupts of a queue on while the device may already have returned entries.
`processCompletedRequestsInVirtqueue` looks at the used ring once more after it has unmasked
the queue; `setVirtqueueInterruptsEnabled` does not. -/
namespace VirtioOsx

open Runs

namespace InterruptSystem

/-- An interrupt for queue `q` is pending or about to be raised, or the driver is on its way to
the queue. -/
def InterruptPending (s : InterruptSystem) (q : Nat) : Prop :=
  ((s.virtqueues q).check = true ∧ (s.virtqueues q).flags = 0) ∨
    (s.virtqueues q).signal = true ∨ s.isrUsed = true ∨ s.WillVisit q

/-- What is asked of a call in the state `s`. The entries that the device has returned before
it are those to process after it. -/
structure EnablingWakes (s : InterruptSystem) (queueId : Nat) : Prop where
  wakes : queueId < s.numVirtqueues → (s.virtqueues queueId).requested = false →
    ∃ s', s.setVirtqueueInterruptsEnabled queueId true = some (.success, s') ∧
      (s'.virtqueues queueId).machine.returned = (s.virtqueues queueId).machine.returned ∧
      ((s'.virtqueues queueId).machine.unprocessed = [] ∨ s'.InterruptPending queueId)
  refuses : s.numVirtqueues ≤ queueId → ∀ enabled,
    s.setVirtqueueInterruptsEnabled queueId enabled = some (.badArgument, s)

/-- The queue exists or is far enough out of range, and if its interrupts are disabled then it
has nothing to process, or the device has yet to read its flags, or the driver gets to it. -/
def MayEnable (s : InterruptSystem) (queueId : Nat) : Prop :=
  queueId ≠ s.numVirtqueues ∧
  (queueId < s.numVirtqueues → (s.virtqueues queueId).requested = false →
    (s.virtqueues queueId).machine.unprocessed = [] ∨ s.Due queueId (s.virtqueues queueId))

theorem setEnabled_disabled {s : InterruptSystem} (inRange : queueId < s.numVirtqueues)
    (off : (s.virtqueues queueId).requested = false) :
    ∃ s', s.setVirtqueueInterruptsEnabled queueId true = some (.success, s') ∧
      (s'.virtqueues queueId).machine.returned = (s.virtqueues queueId).machine.returned ∧
      (s'.virtqueues queueId).machine.unprocessed = (s.virtqueues queueId).machine.unprocessed ∧
      (s'.InterruptPending queueId ↔ s.Due queueId (s.virtqueues queueId)) := by
  refine ⟨_,setEnabled_inside inRange true,?_⟩
  rw [if_pos (by simp [off])]
  simp only [setQueue,InterruptPending,WillVisit,Function.update_self]
  refine ⟨rfl,rfl,?_⟩
  constructor
  · rintro (⟨check,_⟩ | rest)
    · exact .inl check
    · exact .inr rest
  · rintro (check | rest)
    · exact .inl ⟨check,rfl⟩
    · exact .inr rest

theorem enablingWakes_iff (s : InterruptSystem) (queueId : Nat) :
    s.EnablingWakes queueId ↔ s.MayEnable queueId := by
  constructor
  · intro wakes
    refine ⟨fun last => ?_,fun inRange off => ?_⟩
    · have refused := wakes.refuses (by omega) true
      rw [setEnabled_outside (by omega),if_pos last] at refused
      cases refused
    · obtain ⟨s',called,_,outcome⟩ := wakes.wakes inRange off
      obtain ⟨s'',same,_,left,pending⟩ := setEnabled_disabled inRange off
      rw [called] at same
      obtain rfl := (Prod.mk.inj (Option.some.inj same)).2
      rwa [left,pending] at outcome
  · rintro ⟨notLast,ready⟩
    refine ⟨fun inRange off => ?_,fun outside enabled => ?_⟩
    · obtain ⟨s',called,returned,left,pending⟩ := setEnabled_disabled inRange off
      refine ⟨s',called,returned,?_⟩
      rw [left,pending]
      exact ready inRange off
    · rw [setEnabled_outside outside,if_neg notLast]

end InterruptSystem

/-- Enabling interrupts wakes the driver for what is there to process in exactly the states in
which it may be done; and if it is only done in such states, then nothing is ever stranded. -/
theorem enabling_wakes_iff (numVirtqueues : Nat) (queues : Nat → VirtioVirtqueue)
    (configChangeAction : Bool) (ready : ∀ q < numVirtqueues, SetUp (queues q)) :
    (∀ s queueId, InterruptSystem.EnablingWakes s queueId ↔ s.MayEnable queueId) ∧
    ∀ events s, Run interruptStep
        (fun s e => e.Sound s ∧ ∀ queueId, e = .setEnabled queueId true → s.MayEnable queueId)
        (.start numVirtqueues queues configChangeAction) events s → s.Quiescent →
      ∀ q < s.numVirtqueues, (s.virtqueues q).requested = true →
        (s.virtqueues q).machine.unprocessed = [] ∧ (s.virtqueues q).flags = 0 := by
  refine ⟨InterruptSystem.enablingWakes_iff,fun events s run quiet q inRange asked => ?_⟩
  have inv : s.Inv := by
    refine Run.keeps InterruptSystem.Inv (fun allowed taken inv => ?_) run
      (InterruptSystem.inv_start ready configChangeAction)
    refine inv.keeps allowed.1 (fun queueId same inside off left => ?_) taken
    exact ((allowed.2 queueId same).2 inside off).resolve_left left
  exact inv.processed quiet inRange asked

def polledQueue (_ : Nat) : VirtioVirtqueue := initialQueue 4 false false (readyCalls 4 64)

theorem polledQueue_setUp (q : Nat) : SetUp (polledQueue q) :=
  ⟨4,0,false,0,readyCalls 4 64,by decide,rfl⟩

/-- The interrupts are enabled after the device has returned a request, but before it reads the
flags. -/
def enabledInTime : List InterruptEvent :=
  returnedRequest ++ [.setEnabled 0 true, .readFlags 0, .raiseUsed 0] ++
    List.replicate 4 .filter ++ List.replicate 11 .action

def checkEnabling (s : InterruptSystem) : InterruptEvent → Bool
  | .queue i a => checkSuccessful (s.virtqueues i).machine a
  | .setEnabled queueId _ => queueId != s.numVirtqueues && (s.virtqueues queueId).check
  | _ => true

theorem mayEnable_of_check (s : InterruptSystem) (e : InterruptEvent)
    (checked : checkEnabling s e = true) :
    e.Sound s ∧ ∀ queueId, e = .setEnabled queueId true → s.MayEnable queueId := by
  constructor
  · rintro i a rfl
    exact (successful_of_check _ _ checked).sound
  · rintro queueId rfl
    obtain ⟨notLast,check⟩ := (Bool.and_eq_true _ _).mp checked
    exact ⟨by simpa using notLast,fun _ _ => .inr (.inl check)⟩

theorem enabling_wakes_inTime :
    InterruptSystem.EnablingWakes (.start 1 polledQueue true) 0 ∧
    ∃ s, Run interruptStep
        (fun s e => e.Sound s ∧ ∀ queueId, e = .setEnabled queueId true → s.MayEnable queueId)
        (.start 1 polledQueue true) enabledInTime s ∧
      (s.virtqueues 0).machine.returned.length = 1 ∧ (s.virtqueues 0).requested = true ∧
      (s.virtqueues 0).machine.unprocessed = [] ∧ (s.virtqueues 0).flags = 0 := by
  obtain ⟨each,runs⟩ := enabling_wakes_iff 1 polledQueue true fun q _ => polledQueue_setUp q
  refine ⟨(each _ 0).mpr ⟨by decide,fun _ _ => .inl rfl⟩,?_⟩
  have played : (play interruptStep checkEnabling enabledInTime (.start 1 polledQueue true)).map
      (fun s => (s.numVirtqueues, quiescentBits s, (s.virtqueues 0).machine.returned.length,
        (s.virtqueues 0).requested)) = some (1, List.replicate 10 false, 1, true) := by
    decide +kernel
  obtain ⟨s,reached,seen⟩ := Option.map_eq_some_iff.mp played
  simp only [Prod.mk.injEq] at seen
  obtain ⟨one,bits,returned,asked⟩ := seen
  have run := run_of_play mayEnable_of_check reached
  have quiet := quiescent_of_bits (by omega) bits
  exact ⟨s,run,returned,asked,runs _ s run quiet 0 (by omega) asked⟩

/-- The device has returned a request and found the flags set before the interrupts are
enabled; and the index one past the last queue is not refused. -/
theorem enabling_strands :
    ∃ s, Run interruptStep (fun s e => e.Sound s) (.start 1 polledQueue true)
        (returnedRequest ++ [.readFlags 0]) s ∧
      ¬s.EnablingWakes 0 ∧ ¬s.EnablingWakes 1 := by
  have played : (play interruptStep checkEvent (returnedRequest ++ [.readFlags 0])
      (.start 1 polledQueue true)).map
      (fun s => (s.numVirtqueues, quiescentBits s, (s.virtqueues 0).machine.unprocessed.length,
        (s.virtqueues 0).requested)) = some (1, List.replicate 10 false, 1, false) := by
    decide +kernel
  obtain ⟨s,reached,seen⟩ := Option.map_eq_some_iff.mp played
  simp only [Prod.mk.injEq] at seen
  obtain ⟨one,bits,left,off⟩ := seen
  have run := run_of_play sound_of_checkEvent reached
  have quiet := quiescent_of_bits (by omega) bits
  refine ⟨s,run.mono fun allowed => allowed.1,fun wakes => ?_,fun wakes => ?_⟩
  · rcases ((s.enablingWakes_iff 0).mp wakes).2 (by omega) off with
      empty | check | signal | isr | visits
    · rw [empty] at left
      cases left
    · exact absurd ((quiet.check 0 (by omega)).symm.trans check) (by simp)
    · exact absurd ((quiet.signal 0 (by omega)).symm.trans signal) (by simp)
    · exact absurd (quiet.isrUsed.symm.trans isr) (by simp)
    · exact quiet.unvisited 0 visits
  · exact ((s.enablingWakes_iff 1).mp wakes).1 one.symm

end VirtioOsx

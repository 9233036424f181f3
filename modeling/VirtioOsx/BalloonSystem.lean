import VirtioOsx.BalloonRuns

/-! The balloon driver and its host. The host may write its target at any time, also
between the driver's read of the target and what the driver does about it. The system starts
where `start` makes its first check: callbacks before that, when `startDevice` has enabled
interrupts and the arrays of buffers are not yet there, are left out. -/
namespace VirtioOsx

open Runs

/-- Where the work loop is. A function that reads the target is followed there until it has
acted on it. -/
inductive BalloonPosition where
  | idle
  | reading
  | acting (numPages : Nat)
  deriving DecidableEq, Repr

/-- `callbackDue`: the host has written its target since the last time that
`deviceConfigChangeAction` was called. -/
structure BalloonSystem where
  device : VirtioMemBalloonDevice
  position : BalloonPosition
  callbackDue : Bool

inductive BalloonAction where
  | hostWrites (target : Nat)
  | callback
  | completion (deviceReset : Bool)
  | readTarget
  | act (calls : BalloonCalls)

namespace BalloonSystem

def start (target : Nat) (callbackDue : Bool) : BalloonSystem :=
  ⟨.started (target % 2^32), .reading, callbackDue⟩

def startCallback (s : BalloonSystem) : Option BalloonSystem :=
  if s.position = .idle ∧ s.callbackDue then
    some { s with position := .reading, callbackDue := false }
  else none

/-- The completion of the device's oldest request, up to its read of the target. -/
def startCompletion (deviceReset : Bool) (s : BalloonSystem) : Option BalloonSystem :=
  match s.position, s.device.outstanding with
  | .idle, request :: rest =>
    let device := { s.device with outstanding := rest }
    if deviceReset then some { s with device := { device with inflateDeflateInProgress := false } }
    else some { s with device := device.requestReturned request.queue, position := .reading }
  | _, _ => none

def readTarget (s : BalloonSystem) : Option BalloonSystem :=
  if s.position = .reading then some { s with position := .acting s.device.numRequestedPages }
  else none

def act (calls : BalloonCalls) (s : BalloonSystem) : Option BalloonSystem :=
  match s.position with
  | .acting numPages =>
    some { s with
      device := s.device.inflateDeflateIfNecessary calls numPages
      position := .idle }
  | _ => none

end BalloonSystem

def balloonStep (a : BalloonAction) (s : BalloonSystem) : Option BalloonSystem :=
  match a with
  | .hostWrites target => some { s with
      device := { s.device with numRequestedPages := target % 2^32 }
      callbackDue := true }
  | .callback => s.startCallback
  | .completion deviceReset => s.startCompletion deviceReset
  | .readTarget => s.readTarget
  | .act calls => s.act calls

namespace BalloonSystem

/-! What each of the driver's steps can do. -/

theorem callback_cases (taken : balloonStep .callback s = some s') :
    s.position = .idle ∧ s' = { s with position := .reading, callbackDue := false } := by
  simp only [balloonStep,startCallback] at taken
  split at taken
  · rename_i due
    exact ⟨due.1,(Option.some.inj taken).symm⟩
  · cases taken

theorem completion_cases (taken : balloonStep (.completion deviceReset) s = some s') :
    ∃ request rest, s.position = .idle ∧ s.device.outstanding = request :: rest ∧
      s' = if deviceReset then
          { s with device := { s.device with
              outstanding := rest, inflateDeflateInProgress := false } }
        else { s with
          device := VirtioMemBalloonDevice.requestReturned request.queue
            { s.device with outstanding := rest }
          position := .reading } := by
  simp only [balloonStep,startCompletion] at taken
  split at taken
  · rename_i request rest idle waiting
    refine ⟨request,rest,idle,waiting,?_⟩
    split at taken
    · rename_i reset
      rw [if_pos reset]
      exact (Option.some.inj taken).symm
    · rename_i running
      rw [if_neg running]
      exact (Option.some.inj taken).symm
  · cases taken

theorem readTarget_cases (taken : balloonStep .readTarget s = some s') :
    s.position = .reading ∧ s' = { s with position := .acting s.device.numRequestedPages } := by
  simp only [balloonStep,readTarget] at taken
  split at taken
  · rename_i reading
    exact ⟨reading,(Option.some.inj taken).symm⟩
  · cases taken

theorem act_cases (taken : balloonStep (.act calls) s = some s') :
    ∃ target, s.position = .acting target ∧
      s' = { s with
        device := s.device.inflateDeflateIfNecessary calls target
        position := .idle } := by
  simp only [balloonStep,act] at taken
  split at taken
  · rename_i target position
    exact ⟨target,position,(Option.some.inj taken).symm⟩
  · cases taken

end BalloonSystem

def BalloonAction.Succeeds : BalloonAction → Prop
  | .completion deviceReset => deviceReset = false
  | .act calls => calls.Succeed
  | _ => True

/-- A target that was read is stale only if a callback is due, and so is a target that the
balloon has not reached. -/
structure BalloonInv (s : BalloonSystem) : Prop where
  fits : s.device.size.total < 2^32
  reachable : s.device.numRequestedPages < 2^32
  flight : (s.device.inflateDeflateInProgress = false ∧ s.device.outstanding = []) ∨
    (s.device.inflateDeflateInProgress = true ∧
      ∃ queue, s.device.outstanding = [⟨queue, s.device.pageAddressArray⟩])
  fresh : ∀ numPages, s.position = .acting numPages → numPages < 2^32 ∧
    (s.callbackDue = true ∨ numPages = s.device.numRequestedPages)
  settled : s.position = .idle → s.device.outstanding = [] → s.callbackDue = false →
    s.device.size.total = s.device.numRequestedPages

theorem balloonInv_start (target : Nat) (callbackDue : Bool) :
    BalloonInv (.start target callbackDue) where
  fits := show 0 * bigChunkPages + 0 < 2^32 by decide
  reachable := Nat.mod_lt _ (by decide)
  flight := .inl ⟨rfl,rfl⟩
  fresh _ position := by cases position
  settled position := by cases position

theorem BalloonInv.hostWrites (inv : BalloonInv s) (target : Nat) :
    BalloonInv { s with
      device := { s.device with numRequestedPages := target % 2^32 }
      callbackDue := true } where
  fits := inv.fits
  reachable := Nat.mod_lt _ (by decide)
  flight := inv.flight
  fresh numPages position := ⟨(inv.fresh numPages position).1,.inl rfl⟩
  settled _ _ none := by cases none

theorem BalloonInv.callback (inv : BalloonInv s) (taken : balloonStep .callback s = some s') :
    BalloonInv s' := by
  obtain ⟨_,rfl⟩ := BalloonSystem.callback_cases taken
  exact ⟨inv.fits,inv.reachable,inv.flight,nofun,nofun⟩

theorem BalloonInv.completion (inv : BalloonInv s)
    (taken : balloonStep (.completion false) s = some s') : BalloonInv s' := by
  obtain ⟨request,rest,_,waiting,rfl⟩ := BalloonSystem.completion_cases taken
  have alone : rest = [] := by
    rcases inv.flight with ⟨_,free⟩ | ⟨_,queue,flight⟩
    · rw [free] at waiting
      cases waiting
    · rw [flight] at waiting
      exact (List.cons.inj waiting).2.symm
  obtain ⟨deflating,counts,returned⟩ := VirtioMemBalloonDevice.requestReturned_eq request.queue
    { s.device with outstanding := rest }
  rw [if_neg Bool.false_ne_true,returned]
  exact ⟨inv.fits,inv.reachable,.inl ⟨rfl,alone⟩,nofun,nofun⟩

theorem BalloonInv.readTarget (inv : BalloonInv s) (taken : balloonStep .readTarget s = some s') :
    BalloonInv s' := by
  obtain ⟨_,rfl⟩ := BalloonSystem.readTarget_cases taken
  refine ⟨inv.fits,inv.reachable,inv.flight,?_,nofun⟩
  intro numPages position
  cases position
  exact ⟨inv.reachable,.inr rfl⟩

/-- The check: while a request is in progress it does nothing, and afterwards the completion
checks again; otherwise it is for the latest target unless a callback is due. -/
theorem BalloonInv.act (inv : BalloonInv s) (succeed : calls.Succeed)
    (taken : balloonStep (.act calls) s = some s') : BalloonInv s' := by
  obtain ⟨numPages,position,rfl⟩ := BalloonSystem.act_cases taken
  obtain ⟨small,latest⟩ := inv.fresh numPages position
  rcases inv.flight with ⟨idle,free⟩ | ⟨busy,queue,flight⟩
  · by_cases reached : s.device.size.total = numPages
    · have same : s.device.inflateDeflateIfNecessary calls numPages = s.device := by
        rw [VirtioMemBalloonDevice.inflateDeflateIfNecessary,idle,
          VirtioMemBalloonDevice.totalPagesAllocated_eq inv.fits]
        simp [reached]
      rw [same]
      refine ⟨inv.fits,inv.reachable,inv.flight,by simp,?_⟩
      intro _ _ none
      rcases latest with due | latest
      · rw [show s.callbackDue = false from none] at due
        cases due
      · exact reached.trans latest
    · have requested := VirtioMemBalloonDevice.inflateDeflateIfNecessary_requested succeed idle
        inv.fits small reached
      obtain ⟨queue,flight⟩ := requested.outstanding
      rw [free] at flight
      refine ⟨?_,?_,.inr ⟨requested.inProgress,queue,flight⟩,by simp,?_⟩
      · rw [requested.size]
        exact BalloonSize.next_fits inv.fits small
      · rw [requested.target]
        exact inv.reachable
      · intro _ none
        rw [flight] at none
        cases none
  · have same : s.device.inflateDeflateIfNecessary calls numPages = s.device := by
      simp [VirtioMemBalloonDevice.inflateDeflateIfNecessary,busy]
    rw [same]
    refine ⟨inv.fits,inv.reachable,inv.flight,by simp,?_⟩
    intro _ none
    rw [flight] at none
    cases none

theorem BalloonInv.keeps (succeeds : a.Succeeds) (taken : balloonStep a s = some s')
    (inv : BalloonInv s) : BalloonInv s' := by
  cases a with
  | hostWrites target =>
    cases taken
    exact inv.hostWrites target
  | callback => exact inv.callback taken
  | completion deviceReset =>
    have running : deviceReset = false := succeeds
    subst running
    exact inv.completion taken
  | readTarget => exact inv.readTarget taken
  | act calls => exact inv.act succeeds taken

theorem balloonInv_run (run : Run balloonStep (fun _ a => a.Succeeds) (.start target due) actions s) :
    BalloonInv s :=
  Run.keeps BalloonInv (fun succeeds taken inv => inv.keeps succeeds taken) run
    (balloonInv_start target due)

/-- At most one request is outstanding, the flag says whether one is, its pages stay as they
were submitted, and between the driver's functions no target of the host is forgotten. -/
theorem balloon_single_flight
    (run : Run balloonStep (fun _ a => a.Succeeds) (.start target due) actions s) :
    s.device.outstanding.length ≤ 1 ∧
    (s.device.inflateDeflateInProgress = true ↔ s.device.outstanding ≠ []) ∧
    (∀ request ∈ s.device.outstanding, s.device.pageAddressArray = request.pages) ∧
    (s.position = .idle → s.device.outstanding = [] → s.callbackDue = false →
      s.device.totalPagesAllocated = s.device.numRequestedPages) := by
  have inv := balloonInv_run run
  rcases inv.flight with ⟨idle,free⟩ | ⟨busy,queue,flight⟩
  · refine ⟨by simp [free],by simp [idle,free],by simp [free],?_⟩
    intro position none settled
    rw [VirtioMemBalloonDevice.totalPagesAllocated_eq inv.fits]
    exact inv.settled position none settled
  · refine ⟨by simp [flight],by simp [busy,flight],by simp [flight],?_⟩
    intro _ none
    rw [flight] at none
    cases none

/-- The host asks for one page, and for none while the page is on its way. -/
def changedMind : List BalloonAction :=
  [.readTarget, .act balloonSuccess, .hostWrites 0, .completion false, .readTarget,
    .act balloonSuccess, .callback, .readTarget, .act balloonSuccess, .completion false, .readTarget,
    .act balloonSuccess]

theorem changedMind_succeeds : ∀ a ∈ changedMind, a.Succeeds := by
  simp [changedMind,BalloonAction.Succeeds,balloonSuccess_succeed]

theorem changedMind_single_flight :
    ∃ s, Run balloonStep (fun _ a => a.Succeeds) (.start 1 false) changedMind s ∧
      s.device.outstanding = [] ∧ s.device.totalPagesAllocated = 0 := by
  have played : (play balloonStep (fun _ _ => true) changedMind (.start 1 false)).map
      (fun s => (s.position,s.device.outstanding,s.callbackDue,s.device.numRequestedPages)) =
        some (.idle,[],false,0) := by decide +kernel
  obtain ⟨s,played,seen⟩ := Option.map_eq_some_iff.mp played
  simp only [Prod.mk.injEq] at seen
  obtain ⟨position,free,settled,target⟩ := seen
  have run := (run_of_play (fun _ _ _ => trivial) played).of_actions
    (fun a member _ => changedMind_succeeds a member)
  obtain ⟨_,_,_,reached⟩ := balloon_single_flight run
  exact ⟨s,run,free,(reached position free settled).trans target⟩

end VirtioOsx

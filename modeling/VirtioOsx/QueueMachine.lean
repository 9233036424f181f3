import VirtioOsx.Lib.Runs
import VirtioOsx.Partition

/-! One virtqueue with the driver on one side and a conforming device on the other, as a
machine whose steps are single accesses to the memory they share. The driver serialises
its own work: a submission runs while no completions are processed, or from inside a
completion action. -/
namespace VirtioOsx

structure Invocation where
  completion : VirtioCompletion
  deviceReset : Bool
  writtenBytes : Nat
  deriving DecidableEq, Repr

/-- Positions in `processCompletedRequestsInVirtqueue`, with the locals alive there:
the top of the outer loop, the write of `flags`, the second read of `head_index`, the
top of the inner loop, and inside a completion action. -/
inductive ProcessPosition where
  | poll
  | unmask (nextUsedRingIndex : Nat)
  | recheck (nextUsedRingIndex : Nat)
  | batch (currentUsedRingHeadIndex nextUsedRingIndex : Nat)
  | action (currentUsedRingHeadIndex nextUsedRingIndex : Nat)
  deriving DecidableEq, Repr

/-- `totalHandled` is returned to the caller; the source never increments it. -/
structure ProcessCall where
  completionLimit : Nat
  totalHandled : Nat
  position : ProcessPosition
  deriving DecidableEq, Repr

def ProcessCall.limitReached (call : ProcessCall) : Bool :=
  call.completionLimit != 0 && call.totalHandled ≥ call.completionLimit

/-- The difference of two `uint16_t` indices, kept in a `uint16_t`. -/
def uint16Sub (i j : Nat) : Nat := (i + 65536 - j) % 65536

/-- What the release loop does to a descriptor before it returns it. -/
def clearCompleted (i : Nat) (queue : VirtioVirtqueue) : VirtioVirtqueue :=
  if (queue.descriptorBuffers i).dmaCmdUsed then
    let queue := queue.modifyBuffer i fun buffer =>
      { buffer with dmaCmd := none, dmaCmdUsed := false }
    if queue.indirectDescriptors then
      queue.modifyBuffer i fun buffer =>
        { buffer with dmaCmd2 := none, dmaIndirectDescriptors := false }
    else queue
  else queue

structure ProcessResult where
  queue : VirtioVirtqueue
  position : Option ProcessPosition
  invoked : Option Invocation

def processCompletedRequestsInVirtqueue (virtqueue : VirtioVirtqueue) (call : ProcessCall) :
    Option ProcessResult :=
  match call.position with
  | .poll =>
    let current := virtqueue.usedRing.headIndex
    let next := virtqueue.usedRingLastHeadIndex
    let numAdded := uint16Sub current virtqueue.usedRingLastHeadIndex
    if numAdded = 0 ∨ call.limitReached then some ⟨virtqueue, some (.unmask next), none⟩
    else some ⟨virtqueue, some (.batch current next), none⟩
  | .unmask next =>
    let virtqueue := if virtqueue.interruptsRequested then
      { virtqueue with availableRing := { virtqueue.availableRing with flags := 0 } } else virtqueue
    some ⟨virtqueue, some (.recheck next), none⟩
  | .recheck next =>
    let current := virtqueue.usedRing.headIndex
    let numAdded := uint16Sub current virtqueue.usedRingLastHeadIndex
    if numAdded = 0 ∨ call.limitReached then some ⟨virtqueue, none, none⟩
    else some ⟨virtqueue, some (.batch current next), none⟩
  | .batch current next =>
    if next ≠ current ∧ (call.completionLimit = 0 ∨ call.totalHandled < call.completionLimit) then
      let item := next % virtqueue.numEntries
      let writtenBytes := (virtqueue.usedRing.ring item).writtenBytes
      let dequeuedDescriptor := (virtqueue.usedRing.ring item).descriptorId
      -- the completion is copied before its descriptor can be used again
      let completion := virtqueue.completion dequeuedDescriptor
      (releaseChain clearCompleted virtqueue.numEntries (int16 dequeuedDescriptor) virtqueue).map
        fun virtqueue =>
          ⟨virtqueue, some (.action current next), some ⟨completion, false, writtenBytes⟩⟩
    else some ⟨{ virtqueue with usedRingLastHeadIndex := next }, some .poll, none⟩
  | .action current next =>
    some ⟨virtqueue, some (.batch current ((next + 1) % 65536)), none⟩

/-- Positions of a submission that has built its chain: before the store to the ring
slot, before the store to `head_index`, and before the test of `NO_NOTIFY`. -/
inductive Publication where
  | slot (request : Request)
  | index (request : Request)
  | notify
  deriving DecidableEq, Repr

/-- The device fetches while it runs. Before it goes idle it clears `NO_NOTIFY`, and then
reads `head_index` once more. -/
inductive DevicePhase where
  | running
  | rechecking
  | idle
  deriving DecidableEq, Repr

/-- An entry the device has taken from the available ring: the head it read there and
the request that was published at that position. -/
structure Fetched where
  head : Nat
  request : Request
  deriving DecidableEq, Repr

structure Returned where
  fetched : Fetched
  writtenBytes : Nat
  deriving DecidableEq, Repr

def Returned.element (r : Returned) : VirtioVringUsedElement := ⟨r.fetched.head, r.writtenBytes⟩

/-- The state of both sides. `published`, `fetchedCount`, `returned` and `log` only record
what has happened: the requests whose publication has been completed, how many of them
the device has taken, what it has returned, and the actions invoked so far. -/
structure Machine where
  queue : VirtioVirtqueue
  submitting : Option Publication
  processing : Option ProcessCall
  lastAvail : Nat
  phase : DevicePhase
  owned : List Fetched
  notified : Bool
  published : List Request
  fetchedCount : Nat
  returned : List Returned
  log : List Invocation

def Machine.start (queue : VirtioVirtqueue) : Machine :=
  ⟨queue, none, none, 0, .idle, [], false, [], 0, [], []⟩

inductive Action where
  | submit (call : SubmitCall)
  | publish
  | process (completionLimit : Nat)
  | advance
  | fetch
  | complete (position writtenBytes : Nat)
  | suppress
  | enable
  | recheck
  | kick

/-- A submission may start between calls and inside a completion action. -/
def Machine.maySubmit (m : Machine) : Bool :=
  m.submitting.isNone && match m.processing with
    | none => true
    | some call => match call.position with
      | .action _ _ => true
      | _ => false

theorem Machine.maySubmit_idle (may : maySubmit m = true) : m.submitting = none := by
  simp only [Machine.maySubmit,Bool.and_eq_true,Option.isNone_iff_eq_none] at may
  exact may.1

def Machine.submit (call : SubmitCall) (m : Machine) : Option Machine :=
  if m.maySubmit then
    match buildChain m.queue call with
    | .next (head, queue) => some { m with
        queue := queue
        submitting := some (.slot (builtRequest queue head call.completion)) }
    | .returned _ queue => some { m with queue := queue }
    | .stuck => none
  else none

def Machine.publish (m : Machine) : Option Machine :=
  match m.submitting with
  | none => none
  | some (.slot request) => some { m with
      queue := writeRingSlot m.queue request.head
      submitting := some (.index request) }
  | some (.index request) => some { m with
      queue := writeHeadIndex m.queue
      submitting := some .notify
      published := m.published ++ [request] }
  | some .notify => some { m with
      submitting := none
      notified := m.notified || notifies m.queue }

/-- Calls are not nested: one starts only when none is under way. -/
def Machine.process (completionLimit : Nat) (m : Machine) : Option Machine :=
  if m.submitting.isNone && m.processing.isNone then
    some { m with processing := some ⟨completionLimit, 0, .poll⟩ }
  else none

def Machine.processed (m : Machine) (call : ProcessCall) (result : ProcessResult) : Machine :=
  { m with
    queue := result.queue
    processing := result.position.map fun position => { call with position := position }
    log := m.log ++ result.invoked.toList }

def Machine.advance (m : Machine) : Option Machine :=
  match m.submitting, m.processing with
  | none, some call =>
    (processCompletedRequestsInVirtqueue m.queue call).map (m.processed call)
  | _, _ => none

def Machine.fetch (m : Machine) : Option Machine :=
  if m.phase = .running ∧ m.lastAvail ≠ m.queue.availableRing.headIndex then
    m.published[m.fetchedCount]?.map fun request => { m with
      lastAvail := (m.lastAvail + 1) % 65536
      owned := m.owned ++ [⟨m.queue.availableRing.ring (m.lastAvail % m.queue.numEntries), request⟩]
      fetchedCount := m.fetchedCount + 1 }
  else none

def writeUsedElement (queue : VirtioVirtqueue) (element : VirtioVringUsedElement) :
    VirtioVirtqueue :=
  { queue with usedRing := { queue.usedRing with
      ring := Function.update queue.usedRing.ring
        (queue.usedRing.headIndex % queue.numEntries) element
      headIndex := (queue.usedRing.headIndex + 1) % 65536 } }

def Machine.complete (position writtenBytes : Nat) (m : Machine) : Option Machine :=
  m.owned[position]?.map fun fetched => { m with
    queue := writeUsedElement m.queue (Returned.element ⟨fetched, writtenBytes⟩)
    owned := m.owned.eraseIdx position
    returned := m.returned ++ [⟨fetched, writtenBytes⟩] }

def writeUsedFlags (queue : VirtioVirtqueue) (flags : Nat) : VirtioVirtqueue :=
  { queue with usedRing := { queue.usedRing with flags := flags } }

def Machine.suppress (m : Machine) : Option Machine :=
  if m.phase = .running then
    some { m with queue := writeUsedFlags m.queue VirtioVringUsedFlag.noNotify }
  else none

def Machine.enable (m : Machine) : Option Machine :=
  if m.phase = .running then
    some { m with queue := writeUsedFlags m.queue 0, phase := .rechecking }
  else none

def Machine.recheck (m : Machine) : Option Machine :=
  if m.phase = .rechecking then
    some { m with
      phase := if m.lastAvail = m.queue.availableRing.headIndex then .idle else .running }
  else none

def Machine.kick (m : Machine) : Option Machine :=
  if m.notified then
    some { m with
      notified := false
      phase := if m.phase = .idle then .running else m.phase }
  else none

def step : Action → Machine → Option Machine
  | .submit call => Machine.submit call
  | .publish => Machine.publish
  | .process completionLimit => Machine.process completionLimit
  | .advance => Machine.advance
  | .fetch => Machine.fetch
  | .complete position writtenBytes => Machine.complete position writtenBytes
  | .suppress => Machine.suppress
  | .enable => Machine.enable
  | .recheck => Machine.recheck
  | .kick => Machine.kick

/-- A submission goes on to publish its chain, or has left with its return code. -/
theorem Machine.submit_cases {m m' : Machine} (taken : m.submit call = some m') :
    m.submitting = none ∧
    ((∃ head queue, buildChain m.queue call = .next (head, queue) ∧ m' = { m with
        queue := queue
        submitting := some (.slot (builtRequest queue head call.completion)) }) ∨
      ∃ result queue, buildChain m.queue call = .returned result queue ∧
        m' = { m with queue := queue }) := by
  simp only [Machine.submit] at taken
  split at taken
  · rename_i may
    refine ⟨Machine.maySubmit_idle may,?_⟩
    split at taken
    · rename_i head queue built
      exact .inl ⟨head,queue,built,(Option.some.inj taken).symm⟩
    · rename_i result queue left
      exact .inr ⟨result,queue,left,(Option.some.inj taken).symm⟩
    · cases taken
  · cases taken

theorem Machine.publish_cases {m m' : Machine} (taken : m.publish = some m') :
    (∃ request, m.submitting = some (.slot request) ∧ m' = { m with
      queue := writeRingSlot m.queue request.head
      submitting := some (.index request) }) ∨
    (∃ request, m.submitting = some (.index request) ∧ m' = { m with
      queue := writeHeadIndex m.queue
      submitting := some .notify
      published := m.published ++ [request] }) ∨
    (m.submitting = some .notify ∧ m' = { m with
      submitting := none
      notified := m.notified || notifies m.queue }) := by
  simp only [Machine.publish] at taken
  split at taken
  · cases taken
  · rename_i request stage
    exact .inl ⟨request,stage,(Option.some.inj taken).symm⟩
  · rename_i request stage
    exact .inr (.inl ⟨request,stage,(Option.some.inj taken).symm⟩)
  · rename_i stage
    exact .inr (.inr ⟨stage,(Option.some.inj taken).symm⟩)

theorem Machine.advance_cases {m m' : Machine} (taken : m.advance = some m') :
    m.submitting = none ∧ ∃ call result, m.processing = some call ∧
      processCompletedRequestsInVirtqueue m.queue call = some result ∧
      m' = m.processed call result := by
  simp only [Machine.advance] at taken
  split at taken
  · rename_i call quiet busy
    obtain ⟨result,moved,rfl⟩ := Option.map_eq_some_iff.mp taken
    exact ⟨quiet,call,result,busy,moved,rfl⟩
  · cases taken

theorem Machine.fetch_cases {m m' : Machine} (taken : m.fetch = some m') :
    m.phase = .running ∧ ∃ request, m.published[m.fetchedCount]? = some request ∧ m' = { m with
      lastAvail := (m.lastAvail + 1) % 65536
      owned := m.owned ++ [⟨m.queue.availableRing.ring (m.lastAvail % m.queue.numEntries), request⟩]
      fetchedCount := m.fetchedCount + 1 } := by
  simp only [Machine.fetch] at taken
  split at taken
  · rename_i running
    obtain ⟨request,oldest,rfl⟩ := Option.map_eq_some_iff.mp taken
    exact ⟨running.1,request,oldest,rfl⟩
  · cases taken

open Runs

/-- Left to itself, the machine takes a submission to where the whole call takes it: in
one step if the call leaves early, and else through the three steps of a publication. -/
theorem submit_run {m : Machine} (may : m.maySubmit = true)
    (returned : submitBuffers m.queue call = some ret) :
    ∃ publishing m', Run step (fun _ _ => True) m (.submit call :: publishing) m' ∧
      m'.queue = ret.queue ∧ m'.submitting = none ∧
      m'.notified = (m.notified || ret.notified) := by
  unfold submitBuffers at returned
  split at returned
  · rename_i head queue built
    obtain rfl := Option.some.inj returned
    have taken : step (.submit call) m = some { m with
        queue := queue
        submitting := some (.slot (builtRequest queue head call.completion)) } := by
      simp [step,Machine.submit,may,built]
    exact ⟨[.publish,.publish,.publish],_,.cons trivial taken (.cons trivial rfl
      (.cons trivial rfl (.cons trivial rfl .nil))),rfl,rfl,rfl⟩
  · rename_i result queue left
    obtain rfl := Option.some.inj returned
    have taken : step (.submit call) m = some { m with queue := queue } := by
      simp [step,Machine.submit,may,left]
    exact ⟨[],_,.cons trivial taken .nil,rfl,Machine.maySubmit_idle may,by simp⟩
  · cases returned

end VirtioOsx

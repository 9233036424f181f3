import VirtioOsx.BlockRuns
import VirtioOsx.Lib.Pool

/-! The block device when its transport is reset: every request in flight comes back aborted,
and the first of them takes the pending requests with it. -/
namespace VirtioOsx

open Runs

namespace VirtioBlockDevice

def transportResets (request : Nat) (d : VirtioBlockDevice) : Option VirtioBlockDevice :=
  if request ∈ d.inFlight then
    let d := { d with inFlight := d.inFlight.erase request }
    if (d.requests request).submitFn = some .flush then
      some (d.flushRequestCompleted request true fun _ => .success)
    else some (d.blockRequestCompleted request true fun _ => .success)
  else none

end VirtioBlockDevice

inductive ResetAction where
  | complete (request : Nat)
  | resume (request : Nat)

/-- The completions with reset, in any order, and the callers of flushes that they wake. -/
def resetStep (a : ResetAction) (d : VirtioBlockDevice) : Option VirtioBlockDevice :=
  match a with
  | .complete request => d.transportResets request
  | .resume request => d.resume request

def Cleared (objects objects' : Nat → VirtioBlockDeviceRequest) : Prop :=
  ∀ i, objects' i = { objects i with subranges := (objects' i).subranges }

theorem Cleared.refl (objects : Nat → VirtioBlockDeviceRequest) : Cleared objects objects :=
  fun _ => rfl

theorem Cleared.trans (first : Cleared objects objects') (second : Cleared objects' objects'') :
    Cleared objects objects'' := by
  intro i
  have inner := first i
  rw [second i,inner]

theorem Cleared.serial (cleared : Cleared objects objects') (i : Nat) :
    (objects' i).serial = (objects i).serial := by
  rw [cleared i]

theorem Cleared.submitFn (cleared : Cleared objects objects') (i : Nat) :
    (objects' i).submitFn = (objects i).submitFn := by
  rw [cleared i]

theorem Cleared.completion (cleared : Cleared objects objects') (i : Nat) :
    (objects' i).completion = (objects i).completion := by
  rw [cleared i]

theorem Cleared.sleeping (cleared : Cleared objects objects') (i : Nat) :
    (objects' i).sleeping = (objects i).sleeping := by
  rw [cleared i]

theorem Cleared.update (objects : Nat → VirtioBlockDeviceRequest) (request : Nat) :
    Cleared objects (Function.update objects request { objects request with subranges := [] }) := by
  intro i
  by_cases same : i = request
  · subst same
    simp
  · simp [Function.update_of_ne same]

namespace VirtioBlockDevice

variable {d d' s s' : VirtioBlockDevice}

def abortEvent (d : VirtioBlockDevice) (request : Nat) : StorageEvent :=
  ⟨d.serial request, (d.requests request).completion.storageCompletion, .aborted, 0⟩

theorem abortEvent_cleared (cleared : Cleared d.requests d'.requests) :
    d'.abortEvent = d.abortEvent := by
  funext request
  have same := cleared request
  simp only [abortEvent,serial]
  rw [same]

/-- The drain treats every pending request as a read or a write. -/
theorem abortPending_eq (pending : List Nat) (d : VirtioBlockDevice) :
    ∃ objects, Cleared d.requests objects ∧ d.abortPending pending = { d with
      requests := objects
      requestPool := pending.reverse ++ d.requestPool
      pendingRequests := []
      storageLog := d.storageLog ++ pending.map d.abortEvent } := by
  induction pending generalizing d with
  | nil => exact ⟨d.requests,Cleared.refl _,by simp [abortPending]⟩
  | cons next rest ih =>
    have first := Cleared.update d.requests next
    obtain ⟨objects,cleared,equal⟩ := ih
      (((d.modifyRequest next fun r => { r with subranges := [] }).returnRequestToPool
        next).completeStorage next .aborted 0)
    refine ⟨objects,first.trans cleared,?_⟩
    rw [abortPending,equal]
    have events : abortEvent (((d.modifyRequest next fun r =>
        { r with subranges := [] }).returnRequestToPool next).completeStorage next .aborted 0) =
          d.abortEvent := abortEvent_cleared first
    rw [events]
    simp [modifyRequest,returnRequestToPool,completeStorage,abortEvent,serial]

theorem blockRequestCompleted_reset (request : Nat) (d : VirtioBlockDevice)
    (submits : Nat → IOReturn) :
    ∃ objects, Cleared d.requests objects ∧ d.blockRequestCompleted request true submits = { d with
      requests := objects
      requestPool := d.pendingRequests.reverse ++ request :: d.requestPool
      pendingRequests := []
      storageLog := d.storageLog ++ d.abortEvent request :: d.pendingRequests.map d.abortEvent } := by
  have first := Cleared.update d.requests request
  obtain ⟨objects,cleared,equal⟩ := abortPending_eq d.pendingRequests
    (d.callStorageCompletion request true)
  have events : abortEvent (d.callStorageCompletion request true) = d.abortEvent :=
    abortEvent_cleared first
  refine ⟨objects,first.trans cleared,?_⟩
  rw [blockRequestCompleted,handlePendingRequests,if_pos rfl]
  rw [events] at equal
  refine equal.trans ?_
  simp [callStorageCompletion,modifyRequest,returnRequestToPool,completeStorage,abortEvent,serial,
    requestResult,IOReturn.aborted]

def flushAborted (d : VirtioBlockDevice) (request : Nat) : Nat → VirtioBlockDeviceRequest :=
  Function.update d.requests request
    { d.requests request with completion := .sync .aborted, sleeping := false }

theorem flushRequestCompleted_reset (asleep : (d.requests request).sleeping = true)
    (apart : request ∉ d.pendingRequests) (submits : Nat → IOReturn) :
    ∃ objects, Cleared (d.flushAborted request) objects ∧
      d.flushRequestCompleted request true submits = { d with
        requests := objects
        requestPool := d.pendingRequests.reverse ++ d.requestPool
        pendingRequests := []
        storageLog := d.storageLog ++ d.pendingRequests.map d.abortEvent
        woken := d.woken ++ [request] } := by
  obtain ⟨objects,cleared,equal⟩ := abortPending_eq d.pendingRequests
    (d.modifyRequest request fun r => { r with completion := .sync .aborted })
  have events : d.pendingRequests.map (abortEvent (d.modifyRequest request fun r =>
      { r with completion := .sync .aborted })) = d.pendingRequests.map d.abortEvent := by
    apply List.map_congr_left
    intro other member
    have different : other ≠ request := fun same => apart (same ▸ member)
    simp [abortEvent,serial,modifyRequest,Function.update_of_ne different]
  have waits : (objects request).sleeping = true := by
    rw [cleared request]
    simpa [modifyRequest] using asleep
  refine ⟨Function.update objects request { objects request with sleeping := false },?_,?_⟩
  · intro i
    have here := cleared i
    by_cases same : i = request
    · subst same
      simp only [modifyRequest,Function.update_self] at here ⊢
      rw [here]
      simp [flushAborted]
    · simp only [modifyRequest,Function.update_of_ne same] at here ⊢
      rw [here]
      simp [flushAborted,Function.update_of_ne same]
  · rw [flushRequestCompleted]
    simp only [requestResult,if_true,handlePendingRequests]
    have pending : (d.modifyRequest request fun r =>
      { r with completion := .sync .aborted }).pendingRequests = d.pendingRequests := rfl
    rw [pending,equal,events,wakeup,if_pos waits]
    rfl

def isFlush (d : VirtioBlockDevice) (request : Nat) : Bool :=
  (d.requests request).submitFn = some .flush

/-- The return of a flush that was in flight, or that had been answered before the reset. -/
def resumeEvent (d : VirtioBlockDevice) (request : Nat) : FlushEvent :=
  ⟨d.serial request,
    if request ∈ d.inFlight then some .aborted else (d.requests request).completion.syncResult⟩

/-- The pending requests of `d`, once the first of `done` has come back. -/
def drained (d : VirtioBlockDevice) (done : List Nat) : List Nat :=
  if done = [] then [] else d.pendingRequests

/-- `s` is on the way from `d`: the requests in `done` have come back, and the callers of those
in `resumed` have returned. -/
structure Resetting (d s : VirtioBlockDevice) (done resumed : List Nat) : Prop where
  flying : (done ++ s.inFlight).Perm d.inFlight
  pending : s.pendingRequests = if done = [] then d.pendingRequests else []
  pool : s.requestPool.Perm (d.requestPool ++ (done.filter fun r => !d.isFlush r) ++
    d.drained done ++ resumed)
  woken : (resumed ++ s.woken).Perm (d.woken ++ done.filter d.isFlush)
  storage : s.storageLog.Perm (d.storageLog ++
    ((done.filter fun r => !d.isFlush r) ++ d.drained done).map d.abortEvent)
  flushes : s.flushLog.Perm (d.flushLog ++ resumed.map d.resumeEvent)
  serials : ∀ i, (s.requests i).serial = (d.requests i).serial
  kinds : ∀ i, (s.requests i).submitFn = (d.requests i).submitFn
  kept : ∀ i ∉ done, (s.requests i).completion = (d.requests i).completion ∧
    (s.requests i).sleeping = (d.requests i).sleeping
  aborted : ∀ i ∈ done, d.isFlush i = true → (s.requests i).completion = .sync .aborted

theorem resetting_start (d : VirtioBlockDevice) : Resetting d d [] [] where
  flying := List.Perm.refl _
  pending := rfl
  pool := by simp [drained]
  woken := by simp
  storage := by simp [drained]
  flushes := by simp
  serials _ := rfl
  kinds _ := rfl
  kept _ _ := ⟨rfl,rfl⟩
  aborted _ member := by cases member

theorem Resetting.fresh (core : Core n [] d) (resetting : Resetting d s done resumed)
    (member : request ∈ s.inFlight) : request ∉ done := by
  have distinct : d.inFlight.Nodup := by
    have whole := core.nodup
    refine List.Nodup.sublist ?_ whole
    simp only [used,List.append_assoc]
    exact (List.sublist_append_left _ _).trans ((List.sublist_append_right _ _).trans
      (List.sublist_append_right _ _))
  have both := resetting.flying.nodup_iff.mpr distinct
  intro back
  exact (List.nodup_append.mp both).2.2 request back request member rfl

theorem Resetting.abortEvent (resetting : Resetting d s done resumed) (fresh : request ∉ done) :
    s.abortEvent request = d.abortEvent request := by
  simp only [VirtioBlockDevice.abortEvent,serial,resetting.serials request,
    (resetting.kept request fresh).1]

/-- What is still pending when the next request comes back is drained with it. -/
theorem Resetting.abortEvents (resetting : Resetting d s done resumed) :
    s.pendingRequests.map s.abortEvent = s.pendingRequests.map d.abortEvent := by
  apply List.map_congr_left
  intro request member
  apply resetting.abortEvent
  intro back
  rw [resetting.pending,if_neg (List.ne_nil_of_mem back)] at member
  cases member

theorem Resetting.drains (resetting : Resetting d s done resumed) (request : Nat) :
    (d.drained done ++ s.pendingRequests).Perm (d.drained (done ++ [request])) := by
  have rest := resetting.pending
  by_cases none : done = []
  · rw [if_pos none] at rest
    simp [drained,none,rest]
  · rw [if_neg none] at rest
    simp [drained,none,rest]

theorem transportResets_cases (taken : d.transportResets request = some d') :
    request ∈ d.inFlight ∧
      (((d.requests request).submitFn ≠ some .flush ∧ d' =
        { d with inFlight := d.inFlight.erase request }.blockRequestCompleted request true
          fun _ => .success) ∨
      ((d.requests request).submitFn = some .flush ∧ d' =
        { d with inFlight := d.inFlight.erase request }.flushRequestCompleted request true
          fun _ => .success)) := by
  rw [transportResets] at taken
  by_cases member : request ∈ d.inFlight
  · rw [if_pos member] at taken
    refine ⟨member,?_⟩
    by_cases kind : (d.requests request).submitFn = some .flush
    · simp only [if_pos kind,Option.some.injEq] at taken
      exact .inr ⟨kind,taken.symm⟩
    · simp only [if_neg kind,Option.some.injEq] at taken
      exact .inl ⟨kind,taken.symm⟩
  · rw [if_neg member] at taken
    cases taken

/-- One more request comes back, and takes what is pending with it. -/
theorem Resetting.back (core : Core n [] d) (resetting : Resetting d s done resumed)
    (member : request ∈ s.inFlight) (flying : s'.inFlight = s.inFlight.erase request)
    (pending : s'.pendingRequests = [])
    (pool : s'.requestPool.Perm (s.requestPool ++ ([request].filter fun r => !d.isFlush r) ++
      s.pendingRequests))
    (woken : s'.woken.Perm (s.woken ++ [request].filter d.isFlush))
    (storage : s'.storageLog.Perm (s.storageLog ++
      (([request].filter fun r => !d.isFlush r) ++ s.pendingRequests).map s.abortEvent))
    (flushes : s'.flushLog = s.flushLog)
    (serials : ∀ i, (s'.requests i).serial = (s.requests i).serial)
    (kinds : ∀ i, (s'.requests i).submitFn = (s.requests i).submitFn)
    (kept : ∀ i ≠ request, (s'.requests i).completion = (s.requests i).completion ∧
      (s'.requests i).sleeping = (s.requests i).sleeping)
    (aborted : d.isFlush request = true → (s'.requests request).completion = .sync .aborted) :
    Resetting d s' (done ++ [request]) resumed := by
  have fresh := resetting.fresh core member
  have drains := resetting.drains request
  have events : (([request].filter fun r => !d.isFlush r) ++ s.pendingRequests).map s.abortEvent =
      (([request].filter fun r => !d.isFlush r) ++ s.pendingRequests).map d.abortEvent := by
    rw [List.map_append,List.map_append,resetting.abortEvents]
    congr 1
    apply List.map_congr_left
    intro other inside
    rw [List.mem_singleton.mp (List.mem_filter.mp inside).1]
    exact resetting.abortEvent fresh
  refine ⟨?_,by simp [pending],?_,?_,?_,flushes ▸ resetting.flushes,?_,?_,?_,?_⟩
  · rw [flying]
    exact (Pool.moved_perm member).trans resetting.flying
  · refine pool.trans ?_
    have before := resetting.pool
    rw [List.filter_append]
    rw [List.perm_iff_count] at before drains ⊢
    intro i
    have here := before i
    have moved := drains i
    simp only [List.count_append] at here moved ⊢
    omega
  · have before := resetting.woken
    rw [List.filter_append]
    rw [List.perm_iff_count] at before woken ⊢
    intro i
    have here := before i
    have moved := woken i
    simp only [List.count_append] at here moved ⊢
    omega
  · refine storage.trans ?_
    rw [events]
    have before := resetting.storage
    have drains := drains.map d.abortEvent
    rw [List.filter_append]
    simp only [List.map_append] at before drains ⊢
    rw [List.perm_iff_count] at before drains ⊢
    intro event
    have here := before event
    have moved := drains event
    simp only [List.count_append] at here moved ⊢
    omega
  · exact fun i => (serials i).trans (resetting.serials i)
  · exact fun i => (kinds i).trans (resetting.kinds i)
  · intro i away
    have before := resetting.kept i fun back => away (List.mem_append_left _ back)
    have same := kept i fun here => away (here ▸ List.mem_append_right _ List.mem_cons_self)
    exact ⟨same.1.trans before.1,same.2.trans before.2⟩
  · intro i back flush
    rcases List.mem_append.mp back with old | new
    · have different : i ≠ request := fun same => fresh (same ▸ old)
      exact (kept i different).1.trans (resetting.aborted i old flush)
    · obtain rfl := List.mem_singleton.mp new
      exact aborted flush

/-- The caller of a flush in flight sleeps until its request comes back. -/
theorem Resetting.asleep (core : Core n [] d) (resetting : Resetting d s done resumed)
    (member : request ∈ s.inFlight) (flush : d.isFlush request = true) :
    (s.requests request).sleeping = true := by
  have original : request ∈ d.inFlight :=
    resetting.flying.mem_iff.mp (List.mem_append_right _ member)
  rw [(resetting.kept request (resetting.fresh core member)).2]
  obtain ⟨call,_,served⟩ := core.serves request (List.mem_append_right _ original)
  cases call with
  | flush => exact served.2
  | readWrite completion length =>
    simp only [isFlush,decide_eq_true_eq] at flush
    exact absurd flush served.1

theorem Resetting.completeBlock (core : Core n [] d) (resetting : Resetting d s done resumed)
    (member : request ∈ s.inFlight) (block : d.isFlush request = false) :
    Resetting d ({ s with inFlight := s.inFlight.erase request }.blockRequestCompleted request true
      fun _ => .success) (done ++ [request]) resumed := by
  obtain ⟨objects,cleared,equal⟩ := blockRequestCompleted_reset request
    { s with inFlight := s.inFlight.erase request } fun _ => .success
  rw [equal]
  apply resetting.back core member rfl rfl
  · simp only [block,Bool.not_false,List.filter_cons_of_pos,List.filter_nil]
    rw [List.perm_iff_count]
    intro i
    simp only [List.count_append,List.count_cons,List.count_nil,List.count_reverse]
    omega
  · simp [block]
  · simp only [block,Bool.not_false,List.filter_cons_of_pos,List.filter_nil,List.cons_append,
      List.nil_append,List.map_cons]
    exact List.Perm.refl _
  · rfl
  · exact cleared.serial
  · exact cleared.submitFn
  · exact fun i _ => ⟨cleared.completion i,cleared.sleeping i⟩
  · intro flush
    rw [block] at flush
    cases flush

theorem Resetting.completeFlush (core : Core n [] d) (resetting : Resetting d s done resumed)
    (member : request ∈ s.inFlight) (flush : d.isFlush request = true) :
    Resetting d ({ s with inFlight := s.inFlight.erase request }.flushRequestCompleted request true
      fun _ => .success) (done ++ [request]) resumed := by
  have apart : request ∉ s.pendingRequests := by
    rw [resetting.pending]
    split
    · intro waiting
      have original := resetting.flying.mem_iff.mp (List.mem_append_right _ member)
      exact core.flying original (by simp [waiting])
    · simp
  have asleep := resetting.asleep core member flush
  obtain ⟨objects,cleared,equal⟩ := flushRequestCompleted_reset
    (d := { s with inFlight := s.inFlight.erase request }) asleep apart fun _ => .success
  rw [equal]
  apply resetting.back core member rfl rfl
  · simp only [flush,Bool.not_true,Bool.false_eq_true,not_false_eq_true,List.filter_cons_of_neg,
      List.filter_nil,List.append_nil]
    rw [List.perm_iff_count]
    intro i
    simp only [List.count_append,List.count_reverse]
    omega
  · simp [flush]
  · simp only [flush,Bool.not_true,Bool.false_eq_true,not_false_eq_true,List.filter_cons_of_neg,
      List.filter_nil,List.nil_append]
    exact List.Perm.refl _
  · rfl
  · intro i
    rw [cleared.serial i]
    by_cases same : i = request
    · simp [flushAborted,same]
    · simp [flushAborted,Function.update_of_ne same]
  · intro i
    rw [cleared.submitFn i]
    by_cases same : i = request
    · simp [flushAborted,same]
    · simp [flushAborted,Function.update_of_ne same]
  · intro i different
    rw [cleared.completion i,cleared.sleeping i]
    simp [flushAborted,Function.update_of_ne different]
  · intro _
    rw [cleared.completion request]
    simp [flushAborted]

theorem Resetting.complete (core : Core n [] d) (resetting : Resetting d s done resumed)
    (taken : s.transportResets request = some s') :
    Resetting d s' (done ++ [request]) resumed := by
  obtain ⟨member,⟨kind,rfl⟩ | ⟨kind,rfl⟩⟩ := transportResets_cases taken
  all_goals rw [resetting.kinds request] at kind
  · exact resetting.completeBlock core member (by simpa [isFlush] using kind)
  · exact resetting.completeFlush core member (by simpa [isFlush] using kind)

theorem Resetting.resume (core : Core n [] d) (resetting : Resetting d s done resumed)
    (member : request ∈ s.woken) :
    Resetting d (s.resumeSynchronizeCache request) done (resumed ++ [request]) := by
  have origin : request ∈ d.woken ++ done.filter d.isFlush :=
    resetting.woken.mem_iff.mp (List.mem_append_right _ member)
  have event : FlushEvent.mk (s.serial request) (s.requests request).completion.syncResult =
      d.resumeEvent request := by
    rw [resumeEvent,serial,serial,resetting.serials request]
    congr 1
    rcases List.mem_append.mp origin with before | back
    · have away : request ∉ d.inFlight := by
        intro flying
        exact core.flying flying (by simp [before])
      have notDone : request ∉ done := fun back =>
        away (resetting.flying.mem_iff.mp (List.mem_append_left _ back))
      rw [if_neg away,(resetting.kept request notDone).1]
    · obtain ⟨back,flush⟩ := List.mem_filter.mp back
      have flying : request ∈ d.inFlight :=
        resetting.flying.mem_iff.mp (List.mem_append_left _ back)
      rw [if_pos flying,resetting.aborted request back flush]
      rfl
  refine ⟨resetting.flying,resetting.pending,?_,?_,resetting.storage,?_,resetting.serials,
    resetting.kinds,resetting.kept,resetting.aborted⟩
  · have pool := resetting.pool
    rw [List.perm_iff_count] at pool ⊢
    intro i
    have here := pool i
    simp only [resumeSynchronizeCache,returnRequestToPool,List.count_append,List.count_cons,
      List.count_nil] at here ⊢
    omega
  · exact (Pool.moved_perm member).trans resetting.woken
  · simp only [resumeSynchronizeCache,returnRequestToPool,List.map_append,List.map_cons,
      List.map_nil,← event,← List.append_assoc]
    exact resetting.flushes.append_right _

theorem resetting_run (core : Core n [] d) (run : Run resetStep allowed d actions s) :
    ∃ done resumed, Resetting d s done resumed := by
  apply Run.keeps (fun s => ∃ done resumed, Resetting d s done resumed) _ run
  · exact ⟨[],[],resetting_start d⟩
  · rintro before a after _ taken ⟨done,resumed,resetting⟩
    cases a with
    | complete request => exact ⟨_,_,resetting.complete core taken⟩
    | resume request =>
      obtain ⟨member,rfl⟩ := resume_cases taken
      exact ⟨_,_,resetting.resume core member⟩

/-- Every read and write is aborted once, every flush returns once, aborted if it was pending or
in flight, no flush is mistaken for a read or a write, and every object is in the pool. -/
structure AbortedAll (n : Nat) (d final : VirtioBlockDevice) : Prop where
  storage : final.storageLog.Perm (d.storageLog ++
    ((d.pendingRequests ++ d.inFlight).filter fun r => !d.isFlush r).map d.abortEvent)
  flushes : final.flushLog.Perm (d.flushLog ++
    (d.woken.map fun r => ⟨d.serial r, (d.requests r).completion.syncResult⟩) ++
    ((d.pendingRequests ++ d.inFlight).filter d.isFlush).map fun r => ⟨d.serial r, some .aborted⟩)
  apart : ∀ event ∈ final.storageLog, d.accepted[event.serial]? ≠ some .flush
  pool : final.requestPool.Perm (List.range n)

theorem Core.flush_of_isFlush (core : Core n leaked d)
    (member : request ∈ d.pendingRequests ++ d.inFlight) :
    d.accepted[d.serial request]? = some .flush ↔ d.isFlush request = true := by
  obtain ⟨call,found,served⟩ := core.serves request member
  rw [found]
  cases call with
  | flush => simpa [isFlush] using served.1
  | readWrite completion length => simpa [isFlush] using served.1

structure ResetEnd (d final : VirtioBlockDevice) : Prop where
  storage : final.storageLog.Perm (d.storageLog ++
    ((d.inFlight.filter fun r => !d.isFlush r) ++ d.pendingRequests).map d.abortEvent)
  flushes : final.flushLog.Perm (d.flushLog ++
    (d.woken ++ d.inFlight.filter d.isFlush).map d.resumeEvent)
  pool : final.requestPool.Perm (d.requestPool ++ d.used)

theorem Resetting.ended (resetting : Resetting d s done resumed) (busy : d.inFlight ≠ [])
    (returned : s.inFlight = []) (settled : s.woken = []) : ResetEnd d s := by
  have back : done.Perm d.inFlight := by simpa [returned] using resetting.flying
  have first : done ≠ [] := by
    rintro rfl
    exact busy (List.nil_perm.mp back)
  have drained : d.drained done = d.pendingRequests := if_neg first
  have awake : resumed.Perm (d.woken ++ d.inFlight.filter d.isFlush) := by
    have woken := resetting.woken
    rw [settled,List.append_nil] at woken
    exact woken.trans ((back.filter d.isFlush).append_left d.woken)
  have storage := resetting.storage
  have pool := resetting.pool
  rw [drained] at storage pool
  refine ⟨storage.trans ?_,resetting.flushes.trans ?_,pool.trans ?_⟩
  · exact (((back.filter _).append_right _).map _).append_left _
  · exact (awake.map _).append_left _
  · have parts := List.filter_append_perm d.isFlush done
    rw [List.perm_iff_count] at awake back parts ⊢
    intro i
    have here := awake i
    have flying := back i
    have split := parts i
    have flushes := (List.perm_iff_count.mp ((List.perm_iff_count.mpr back).filter d.isFlush)) i
    simp only [used,List.count_append] at here flying split ⊢
    omega

/-- Without a pending flush, the end of the reset is as it should be. -/
theorem ResetEnd.abortedAll (core : Core n [] d) (ended : ResetEnd d final)
    (none : ∀ request ∈ d.pendingRequests, d.isFlush request = false) : AbortedAll n d final := by
  have blocks : d.pendingRequests.filter (fun r => !d.isFlush r) = d.pendingRequests := by
    apply List.filter_eq_self.mpr
    intro request member
    simp [none request member]
  have flushes : d.pendingRequests.filter d.isFlush = [] := by
    apply List.filter_eq_nil_iff.mpr
    intro request member
    simp [none request member]
  have logged : final.storageLog.Perm (d.storageLog ++
      ((d.pendingRequests ++ d.inFlight).filter fun r => !d.isFlush r).map d.abortEvent) := by
    rw [List.filter_append,blocks]
    exact ended.storage.trans ((List.perm_append_comm.map _).append_left _)
  refine ⟨logged,?_,?_,?_⟩
  · rw [List.filter_append,flushes,List.nil_append,List.append_assoc]
    have answered : d.woken.map d.resumeEvent =
        d.woken.map fun r => ⟨d.serial r,(d.requests r).completion.syncResult⟩ := by
      apply List.map_congr_left
      intro request member
      have away : request ∉ d.inFlight := fun flying => core.flying flying (by simp [member])
      rw [resumeEvent,if_neg away]
    have aborted : (d.inFlight.filter d.isFlush).map d.resumeEvent =
        (d.inFlight.filter d.isFlush).map fun r => ⟨d.serial r,some .aborted⟩ := by
      apply List.map_congr_left
      intro request member
      rw [resumeEvent,if_pos (List.mem_filter.mp member).1]
    rw [← answered,← aborted,← List.map_append]
    exact ended.flushes
  · intro event member
    rcases List.mem_append.mp (logged.mem_iff.mp member) with old | new
    · obtain ⟨completion,length,status,found,_⟩ := core.finishes event old
      simp [found]
    · obtain ⟨request,inside,rfl⟩ := List.mem_map.mp new
      obtain ⟨inside,block⟩ := List.mem_filter.mp inside
      intro flush
      have same := (core.flush_of_isFlush inside).mp flush
      simp [same] at block
  · have owned := core.owned
    rw [List.append_nil] at owned
    exact ended.pool.trans owned

/-- A pending flush has the completion of a read or write called for it. -/
theorem ResetEnd.no_flush (core : Core n [] d) (ended : ResetEnd d final)
    (aborted : AbortedAll n d final) : ∀ request ∈ d.pendingRequests, d.isFlush request = false := by
  intro request member
  have logged : d.abortEvent request ∈ final.storageLog := by
    apply ended.storage.mem_iff.mpr
    apply List.mem_append_right
    exact List.mem_map.mpr ⟨request,List.mem_append_right _ member,rfl⟩
  have kind := core.flush_of_isFlush (List.mem_append_left _ member)
  apply Bool.eq_false_iff.mpr
  intro flush
  exact aborted.apart _ logged (kind.mpr flush)

/-- Exactly if no flush is pending does the reset treat every request as it should, whatever the
order in which the requests come back. -/
theorem reset_aborts_all_iff (queueSize blockSize capacity : Nat) (calls : List BlockAction)
    (d : VirtioBlockDevice)
    (reached : Run blockStep (fun d a => ¬a.Leaks d) (started queueSize blockSize capacity) calls d)
    (busy : d.inFlight ≠ []) (actions : List ResetAction) (final : VirtioBlockDevice)
    (run : Run resetStep (fun _ _ => True) d actions final) (returned : final.inFlight = [])
    (settled : final.woken = []) :
    AbortedAll (queueSize + 32) d final ↔
      ∀ request ∈ d.pendingRequests, (d.requests request).submitFn ≠ some .flush := by
  have core := core_run_kept reached
  obtain ⟨done,resumed,resetting⟩ := resetting_run core run
  have ended := resetting.ended busy returned settled
  have kinds : (∀ request ∈ d.pendingRequests, d.isFlush request = false) ↔
      ∀ request ∈ d.pendingRequests, (d.requests request).submitFn ≠ some .flush := by
    simp [isFlush]
  rw [← kinds]
  exact ⟨ended.no_flush core,ended.abortedAll core⟩

end VirtioBlockDevice

def readAnd (second : BlockAction) : List BlockAction :=
  [.readWrite ⟨.input, ⟨1, 512⟩, 0, 1, ⟨7, 8, 9⟩⟩ .success, second]

theorem readAnd_kept (second : BlockAction) (kept : ∀ d, ¬second.Leaks d) :
    ∀ a ∈ readAnd second, ∀ d, ¬a.Leaks d := by
  intro a member d
  simp only [readAnd,List.mem_cons,List.not_mem_nil,or_false] at member
  rcases member with rfl | rfl
  · exact fun leaks => leaks.2.2.2.1 rfl
  · exact kept d

theorem reset_aborts_all_write :
    ∃ d final, Run blockStep (fun d a => ¬a.Leaks d) (.started 0 512 4096)
        (readAnd (.readWrite ⟨.output, ⟨2, 512⟩, 1, 1, ⟨17, 18, 19⟩⟩ .busy)) d ∧
      Run resetStep (fun _ _ => True) d [.complete 31] final ∧ d.pendingRequests = [30] ∧
      VirtioBlockDevice.AbortedAll 32 d final := by
  have played : ((play blockStep (fun _ _ => true)
      (readAnd (.readWrite ⟨.output,⟨2,512⟩,1,1,⟨17,18,19⟩⟩ .busy)) (.started 0 512 4096)).bind
        fun d => (play resetStep (fun _ _ => true) [.complete 31] d).map fun final =>
          (d,final)).map (fun pair => (pair.1.inFlight,pair.1.pendingRequests,
            (pair.1.requests 30).submitFn,pair.2.inFlight,pair.2.woken)) =
        some ([31],[30],some .write,[],[]) := by decide +kernel
  obtain ⟨pair,both,seen⟩ := Option.map_eq_some_iff.mp played
  obtain ⟨d,first,second⟩ := Option.bind_eq_some_iff.mp both
  obtain ⟨final,last,rfl⟩ := Option.map_eq_some_iff.mp second
  simp only [Prod.mk.injEq] at seen
  obtain ⟨busy,pending,kind,returned,settled⟩ := seen
  have reached := (run_of_play (fun _ _ _ => trivial) first : Run blockStep (fun _ _ => True) _ _ _).of_actions
    (readAnd_kept (.readWrite ⟨.output,⟨2,512⟩,1,1,⟨17,18,19⟩⟩ .busy)
      fun _ leaks => leaks.2.2.2.2 rfl)
  have run : Run resetStep (fun _ _ => True) d _ final := run_of_play (fun _ _ _ => trivial) last
  refine ⟨d,final,reached,run,pending,?_⟩
  refine (VirtioBlockDevice.reset_aborts_all_iff 0 512 4096 _ d reached (by simp [busy]) _ final run
    returned settled).mpr ?_
  simp [pending,kind]

/-- The caller of the flush still sleeps, and an action that belongs to no request of its has
been called. -/
theorem reset_aborts_all_fails_flush :
    ∃ d final, Run blockStep (fun d a => ¬a.Leaks d) (.started 0 512 4096)
        (readAnd (.synchronizeCache .busy)) d ∧ d.inFlight ≠ [] ∧
      Run resetStep (fun _ _ => True) d [.complete 31] final ∧ final.inFlight = [] ∧
      final.woken = [] ∧ ¬VirtioBlockDevice.AbortedAll 32 d final := by
  have played : ((play blockStep (fun _ _ => true) (readAnd (.synchronizeCache .busy))
      (.started 0 512 4096)).bind
        fun d => (play resetStep (fun _ _ => true) [.complete 31] d).map fun final =>
          (d,final)).map (fun pair => (pair.1.inFlight,pair.1.accepted,pair.2.inFlight,pair.2.woken,
            pair.2.storageLog.map StorageEvent.serial)) =
        some ([31],[.readWrite ⟨7,8,9⟩ 512,.flush],[],[],[0,1]) := by decide +kernel
  obtain ⟨pair,both,seen⟩ := Option.map_eq_some_iff.mp played
  obtain ⟨d,first,second⟩ := Option.bind_eq_some_iff.mp both
  obtain ⟨final,last,rfl⟩ := Option.map_eq_some_iff.mp second
  simp only [Prod.mk.injEq] at seen
  obtain ⟨busy,accepted,returned,settled,logged⟩ := seen
  have reached := (run_of_play (fun _ _ _ => trivial) first : Run blockStep (fun _ _ => True) _ _ _).of_actions
    (readAnd_kept _ fun _ => id)
  refine ⟨d,final,reached,by simp [busy],run_of_play (fun _ _ _ => trivial) last,returned,settled,
    fun aborted => ?_⟩
  obtain ⟨event,member,number⟩ := List.mem_map.mp (logged ▸ List.mem_cons_of_mem 0 List.mem_cons_self :
    1 ∈ final.storageLog.map StorageEvent.serial)
  exact aborted.apart event member (by rw [number,accepted]; rfl)

end VirtioOsx

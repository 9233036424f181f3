import VirtioOsx.BlockRuns

/-! What callers of the block device can rely on while the transport is not reset: the order
and the results of their requests, the number of request objects, and what becomes of errors
that the transport returns. -/
namespace VirtioOsx

open Runs

namespace VirtioBlockDevice

/-- Of the pending requests none fails for good, and the transport is only full if it has
something, or if one of `due` completion handlers is still to retry what it refuses. -/
def Accommodates (submits : Nat → IOReturn) (pending inFlight : List Nat) (due : Nat) : Prop :=
  (∀ k < pending.length, ¬Hard (submits k)) ∧
  (pending ≠ [] → submits 0 ≠ .success → inFlight ≠ [] ∨ 0 < due)

instance (submits : Nat → IOReturn) (pending inFlight : List Nat) (due : Nat) :
    Decidable (Accommodates submits pending inFlight due) := inferInstanceAs (Decidable (_ ∧ _))

end VirtioBlockDevice

/-- The transport does not fail a request that has been deferred, and defers one only if it has
another, or if a completion handler is still to retry it. -/
def BlockAction.Accommodated (d : VirtioBlockDevice) : BlockAction → Prop
  | .readWrite _ submit => d.pendingRequests = [] → submit = .noSpace ∨ submit = .busy →
      d.inFlight ≠ [] ∨ 0 < d.drainsDue
  | .synchronizeCache submit => d.pendingRequests = [] → submit = .noSpace ∨ submit = .busy →
      d.inFlight ≠ [] ∨ 0 < d.drainsDue
  | .complete request _ submits => (d.requests request).submitFn = some .flush →
      VirtioBlockDevice.Accommodates submits d.pendingRequests (d.inFlight.erase request)
        d.drainsDue
  | .drain submits =>
    VirtioBlockDevice.Accommodates submits d.pendingRequests d.inFlight (d.drainsDue - 1)
  | .resume _ => True

def BlockAction.SuccessOrBusy (d : VirtioBlockDevice) : BlockAction → Prop
  | .readWrite _ submit => submit = .success ∨ submit = .busy
  | .synchronizeCache submit => submit = .success ∨ submit = .busy
  | .complete _ _ submits => ∀ k < d.pendingRequests.length, submits k = .success ∨ submits k = .busy
  | .drain submits => ∀ k < d.pendingRequests.length, submits k = .success ∨ submits k = .busy
  | .resume _ => True

instance (d : VirtioBlockDevice) (a : BlockAction) : Decidable (a.Accommodated d) :=
  match a with
  | .readWrite _ _ => inferInstanceAs (Decidable (_ → _ → _))
  | .synchronizeCache _ => inferInstanceAs (Decidable (_ → _ → _))
  | .complete _ _ _ => inferInstanceAs (Decidable (_ → _))
  | .drain _ => inferInstanceAs (Decidable (VirtioBlockDevice.Accommodates _ _ _ _))
  | .resume _ => .isTrue trivial

instance (d : VirtioBlockDevice) (a : BlockAction) : Decidable (a.SuccessOrBusy d) :=
  match a with
  | .readWrite _ _ => inferInstanceAs (Decidable (_ ∨ _))
  | .synchronizeCache _ => inferInstanceAs (Decidable (_ ∨ _))
  | .complete _ _ _ => inferInstanceAs (Decidable (∀ _ < _, _))
  | .drain _ => inferInstanceAs (Decidable (∀ _ < _, _))
  | .resume _ => .isTrue trivial

namespace VirtioBlockDevice

variable {d d' : VirtioBlockDevice}

structure Accommodated (d : VirtioBlockDevice) : Prop where
  soft : ∀ attempt ∈ d.retries, ¬Hard attempt.2
  needed : d.refusedIdle = false

theorem CallOutcome.accommodated (outcome : CallOutcome d submit leaks result d')
    (needed : d.pendingRequests = [] → submit = .noSpace ∨ submit = .busy →
      d.inFlight ≠ [] ∨ 0 < d.drainsDue)
    (before : Accommodated d) : Accommodated d' := by
  cases outcome with
  | refused => exact before
  | leaked => exact ⟨before.soft,before.needed⟩
  | failed => exact ⟨before.soft,before.needed⟩
  | handed => exact ⟨before.soft,before.needed⟩
  | deferred r pool full =>
    refine ⟨before.soft,?_⟩
    by_cases none : d.pendingRequests = []
    · simp [before.needed,idle_eq_false_iff.mpr (needed none (full none))]
    · simp [before.needed,none]

/-- One iteration at a time: from the second on, the transport has the request before. -/
theorem Accommodated.retryPending (before : Accommodated d) (submits : Nat → IOReturn) (k : Nat)
    (soft : ∀ i < pending.length, ¬Hard (submits (k + i)))
    (needed : pending ≠ [] → submits k ≠ .success → d.inFlight ≠ [] ∨ 0 < d.drainsDue) :
    Accommodated (d.retryPending submits k pending) := by
  induction pending generalizing d k with
  | nil => exact ⟨before.soft,before.needed⟩
  | cons next rest ih =>
    have retried : ∀ attempt ∈ d.retries ++ [(d.serial next,submits k)], ¬Hard attempt.2 := by
      intro attempt member
      rcases List.mem_append.mp member with old | new
      · exact before.soft attempt old
      · rw [List.mem_singleton.mp new]
        exact soft 0 (Nat.succ_pos _)
    rw [VirtioBlockDevice.retryPending]
    by_cases taken : submits k = .success
    · rw [if_neg (not_not.mpr taken)]
      apply ih
      · exact ⟨retried,before.needed⟩
      · intro i less
        rw [Nat.add_assoc,Nat.add_comm 1 i]
        exact soft (i + 1) (Nat.succ_lt_succ less)
      · exact fun _ _ => .inl (by simp [handOver])
    · rw [if_pos taken]
      refine ⟨retried,?_⟩
      exact Bool.or_eq_false_iff.mpr
        ⟨before.needed,idle_eq_false_iff.mpr (needed (List.cons_ne_nil _ _) taken)⟩

theorem Accommodated.wakeup (before : Accommodated d) (request : Nat) :
    Accommodated (d.wakeup request) := by
  rw [VirtioBlockDevice.wakeup]
  split
  · exact ⟨before.soft,before.needed⟩
  · exact before

theorem Accommodated.keeps (before : Accommodated d) (good : a.Accommodated d)
    (taken : blockStep a d = some d') : Accommodated d' := by
  cases a with
  | readWrite args submit =>
    cases taken
    exact (doAsyncReadWrite_outcome args submit d).accommodated good before
  | synchronizeCache submit =>
    cases taken
    exact (doSynchronizeCache_outcome submit d).accommodated good before
  | complete request status submits =>
    obtain ⟨_,⟨_,rfl⟩ | ⟨kind,rfl⟩⟩ := transportCompletes_cases taken
    · exact ⟨before.soft,before.needed⟩
    · obtain ⟨soft,needed⟩ := good kind
      apply Accommodated.wakeup
      apply Accommodated.retryPending
      · exact ⟨before.soft,before.needed⟩
      · intro i less
        rw [Nat.zero_add]
        exact soft i less
      · exact needed
  | drain submits =>
    rw [drain_cases taken]
    apply Accommodated.retryPending
    · exact ⟨before.soft,before.needed⟩
    · simpa using good.1
    · exact good.2
  | resume request =>
    obtain ⟨_,rfl⟩ := resume_cases taken
    exact ⟨before.soft,before.needed⟩

theorem accommodated_run {queueSize blockSize capacity : Nat}
    (run : Run blockStep (fun d a => a.Accommodated d) (started queueSize blockSize capacity)
      actions d) : Accommodated d := by
  apply Run.keeps Accommodated (fun good taken before => before.keeps good taken) run
  rw [started,pool_foldl]
  exact ⟨by simp,rfl⟩

theorem moving_run {queueSize blockSize capacity : Nat}
    (run : Run blockStep allowed (started queueSize blockSize capacity) actions d) : Moving d := by
  apply Run.keeps Moving (fun _ taken moving => moving.keeps taken) run
  rw [started,pool_foldl]
  exact fun waiting => absurd rfl waiting

theorem Accommodated.retries (accommodated : Accommodated d) (moving : Moving d)
    (waiting : d.pendingRequests ≠ []) : d.inFlight ≠ [] ∨ 0 < d.drainsDue := by
  rcases moving waiting with busy | due | refused
  · exact .inl busy
  · exact .inr due
  · rw [accommodated.needed] at refused
    cases refused

/-- Requests are handed over in the order in which they were accepted; every accepted call is
pending, with the transport, answered but not yet resumed, or finished, and only one of
these; it is finished with the result of its own status byte, of which there is one; and no
object is in two lists. -/
structure Orderly (d : VirtioBlockDevice) : Prop where
  order : d.handed ++ d.pendingRequests.map d.serial = List.range d.accepted.length
  once : ((d.pendingRequests ++ d.inFlight ++ d.woken).map d.serial ++
    d.storageLog.map StorageEvent.serial ++ d.flushLog.map FlushEvent.serial).Perm
      (List.range d.accepted.length)
  status : (d.returned.map Prod.fst).Nodup
  storage : ∀ event ∈ d.storageLog, d.Finishes event
  flushes : ∀ event ∈ d.flushLog, d.Flushes event
  apart : (d.requestPool ++ d.pendingRequests ++ d.inFlight).Nodup

def Finished (d : VirtioBlockDevice) : Prop :=
  d.inFlight = [] → d.drainsDue = 0 → d.woken = [] →
    (d.storageLog.map StorageEvent.serial ++ d.flushLog.map FlushEvent.serial).Perm
      (List.range d.accepted.length)

theorem Core.orderly (core : Core n leaked d) : Orderly d where
  order := core.good.order
  once := by
    have once := core.good.once
    simp only [ledger,← List.map_append] at once
    exact once
  status := by
    have once := core.good.once.nodup_iff.mpr List.nodup_range
    have answered : (d.ledger.woken ++ d.ledger.storage ++ d.ledger.flushes).Nodup := by
      refine List.Nodup.sublist ?_ once
      simp only [List.append_assoc]
      exact (List.sublist_append_right _ _).trans (List.sublist_append_right _ _)
    exact core.good.answered.nodup_iff.mpr answered
  storage := core.finishes
  flushes := core.flushes
  apart := by
    have distinct := core.nodup
    refine List.Nodup.sublist ?_ distinct
    simp only [used,List.append_assoc]
    apply List.Sublist.append_left
    apply List.Sublist.append_left
    exact List.sublist_append_left _ _

/-- What is not finished at rest is pending, with nobody left to retry it. -/
theorem Orderly.finished (orderly : Orderly d)
    (retries : d.pendingRequests ≠ [] → d.inFlight ≠ [] ∨ 0 < d.drainsDue) : Finished d := by
  intro flying due woken
  have none : d.pendingRequests = [] := by
    by_contra waiting
    rcases retries waiting with busy | later
    · exact busy flying
    · omega
  have once := orderly.once
  simpa only [none,flying,woken,List.map_nil,List.nil_append] using once

/-- Calls and completions in any order, calls from inside completions included, over a
transport that is busy only for a reason. -/
theorem block_requests_orderly (queueSize blockSize capacity : Nat) (actions : List BlockAction)
    (d : VirtioBlockDevice)
    (run : Run blockStep (fun d a => a.SuccessOrBusy d ∧ a.Accommodated d)
      (started queueSize blockSize capacity) actions d) :
    Orderly d ∧ Finished d := by
  obtain ⟨leaked,core⟩ := core_run run
  have accommodated := accommodated_run (run.mono And.right)
  exact ⟨core.orderly,core.orderly.finished (accommodated.retries (moving_run run))⟩

end VirtioBlockDevice

def checkObliging (d : VirtioBlockDevice) (a : BlockAction) : Bool :=
  decide (a.SuccessOrBusy d ∧ a.Accommodated d)

def readFlushWrite : List BlockAction :=
  [.readWrite ⟨.input, ⟨1, 512⟩, 0, 1, ⟨7, 8, 9⟩⟩ .success, .synchronizeCache .busy,
    .readWrite ⟨.output, ⟨2, 512⟩, 1, 1, ⟨17, 18, 19⟩⟩ .success,
    .complete 31 0 fun _ => .success, .drain fun _ => .success,
    .complete 29 1 fun _ => .success, .drain fun _ => .success, .complete 30 0 fun _ => .success,
    .resume 30]

theorem readFlushWrite_orderly :
    ∃ d, Run blockStep (fun d a => a.SuccessOrBusy d ∧ a.Accommodated d) (.started 0 512 4096)
        readFlushWrite d ∧
      (d.Orderly ∧ d.Finished) ∧ d.handed = [0, 1, 2] ∧ d.flushLog = [⟨1, some .success⟩] ∧
      d.storageLog = [⟨0, some ⟨7, 8, 9⟩, .success, 512⟩, ⟨2, some ⟨17, 18, 19⟩, .ioError, 0⟩] := by
  have played : (play blockStep checkObliging readFlushWrite (.started 0 512 4096)).map
      (fun d => (d.handed,d.flushLog,d.storageLog)) =
        some ([0,1,2],[⟨1,some .success⟩],[⟨0,some ⟨7,8,9⟩,.success,512⟩,
          ⟨2,some ⟨17,18,19⟩,.ioError,0⟩]) := by decide +kernel
  obtain ⟨d,played,seen⟩ := Option.map_eq_some_iff.mp played
  simp only [Prod.mk.injEq] at seen
  have run := run_of_play (fun _ _ => of_decide_eq_true) played
  exact ⟨d,run,VirtioBlockDevice.block_requests_orderly 0 512 4096 readFlushWrite d run,seen⟩

/-- A read that an idle transport is too busy for is accepted, and nothing is left that could
complete it. -/
theorem busy_idle_unfinished :
    ∃ d, Run blockStep (fun d a => a.SuccessOrBusy d) (.started 0 512 4096)
        [.readWrite ⟨.input, ⟨1, 512⟩, 0, 1, ⟨7, 8, 9⟩⟩ .busy] d ∧
      d.accepted.length = 1 ∧ d.storageLog = [] ∧ ¬d.Finished ∧
      (∀ request status submits, blockStep (.complete request status submits) d = none) ∧
      (∀ submits, blockStep (.drain submits) d = none) ∧
      ∀ request, blockStep (.resume request) d = none := by
  have played : (play blockStep (fun d a => decide (a.SuccessOrBusy d))
      [.readWrite ⟨.input,⟨1,512⟩,0,1,⟨7,8,9⟩⟩ .busy] (.started 0 512 4096)).any (fun d =>
        d.accepted.length = 1 ∧ d.storageLog = [] ∧ d.flushLog = [] ∧ d.inFlight = [] ∧
          d.drainsDue = 0 ∧ d.woken = []) = true := by decide +kernel
  obtain ⟨d,played,seen⟩ := (Option.any_eq_true _ _).mp played
  simp only [decide_eq_true_eq] at seen
  obtain ⟨accepted,storage,flushes,flying,due,woken⟩ := seen
  refine ⟨d,run_of_play (fun _ _ => of_decide_eq_true) played,accepted,storage,?_,?_,?_,?_⟩
  · intro finished
    have answered := (finished flying due woken).length_eq
    simp [storage,flushes,accepted] at answered
  · intro request status submits
    simp [blockStep,VirtioBlockDevice.transportCompletes,flying]
  · intro submits
    simp [blockStep,VirtioBlockDevice.drain,due]
  · intro request
    simp [blockStep,VirtioBlockDevice.resume,woken]

namespace VirtioBlockDevice

variable {d d' : VirtioBlockDevice}

/-- Every object is in the pool, pending, or in flight, where a flush is until its caller has
returned. -/
structure Conserved (n : Nat) (d : VirtioBlockDevice) : Prop where
  places : (d.requestPool ++ d.pendingRequests ++ (d.inFlight ++ d.woken)).Perm (List.range n)
  count : d.requestPool.length + d.pendingRequests.length +
    (d.inFlight.length + d.woken.length) = n

theorem Core.conserved (core : Core n [] d) : Conserved n d := by
  have places : (d.requestPool ++ d.pendingRequests ++ (d.inFlight ++ d.woken)).Perm
      (List.range n) := by
    have owned := core.owned
    simpa [used,List.append_assoc] using owned
  refine ⟨places,?_⟩
  have total := places.length_eq
  simp only [List.length_append,List.length_range] at total
  exact total

theorem CallOutcome.pool (outcome : CallOutcome d submit leaks (some error) d') (kept : ¬leaks)
    (failed : error ≠ .success) : d'.requestPool = d.requestPool := by
  cases outcome with
  | refused => rfl
  | failed => rfl
  | leaked _ lost => exact absurd lost kept
  | handed _ _ _ _ _ _ success =>
    rcases success with none | success
    · cases none
    · exact absurd (Option.some.inj success) failed
  | deferred _ _ _ _ _ success =>
    rcases success with none | success
    · cases none
    · exact absurd (Option.some.inj success) failed

structure Conserving (n : Nat) (d : VirtioBlockDevice) : Prop where
  conserved : Conserved n d
  readWrite : ∀ args submit error, ¬d.Leaks args →
    (d.doAsyncReadWriteOnWorkLoop args submit).result = some error → error ≠ .success →
    (d.doAsyncReadWriteOnWorkLoop args submit).device.requestPool = d.requestPool
  synchronize : ∀ submit error, (d.doSynchronizeCacheOnWorkLoop submit).result = some error →
    error ≠ .success → (d.doSynchronizeCacheOnWorkLoop submit).device.requestPool = d.requestPool

/-- In runs without a call that is neither a read nor a write. -/
theorem block_requests_conserved (queueSize blockSize capacity : Nat) (actions : List BlockAction)
    (d : VirtioBlockDevice)
    (run : Run blockStep (fun d a => ¬a.Leaks d) (started queueSize blockSize capacity) actions d) :
    Conserving (queueSize + 32) d := by
  refine ⟨(core_run_kept run).conserved,?_,?_⟩
  · intro args submit error kept result failed
    have outcome := doAsyncReadWrite_outcome args submit d
    rw [result] at outcome
    exact outcome.pool kept failed
  · intro submit error result failed
    have outcome := doSynchronizeCache_outcome submit d
    rw [result] at outcome
    exact outcome.pool id failed

end VirtioBlockDevice

def checkKept (_ : VirtioBlockDevice) : BlockAction → Bool
  | .readWrite args _ => args.direction == .input || args.direction == .output
  | _ => true

theorem kept_of_check (d : VirtioBlockDevice) (a : BlockAction) (checked : checkKept d a = true) :
    ¬a.Leaks d := by
  cases a with
  | readWrite args submit =>
    simp only [checkKept,Bool.or_eq_true,beq_iff_eq] at checked
    exact fun leaks => checked.elim leaks.2.2.2.1 leaks.2.2.2.2
  | _ => exact id

/-- In the middle of the run the flush has been retried, and at its end all objects are back. -/
theorem block_requests_conserved_readFlushWrite :
    (∃ d, Run blockStep (fun d a => ¬a.Leaks d) (.started 0 512 4096) (readFlushWrite.take 5) d ∧
      d.Conserving 32 ∧ d.inFlight = [30, 29] ∧ d.requestPool.length = 30) ∧
    ∃ d, Run blockStep (fun d a => ¬a.Leaks d) (.started 0 512 4096) readFlushWrite d ∧
      d.Conserving 32 ∧ d.requestPool.length = 32 := by
  have retried : (play blockStep checkKept (readFlushWrite.take 5) (.started 0 512 4096)).map
      (fun d => (d.inFlight,d.requestPool.length)) = some ([30,29],30) := by decide +kernel
  have finished : (play blockStep checkKept readFlushWrite (.started 0 512 4096)).map
      (fun d => d.requestPool.length) = some 32 := by decide +kernel
  obtain ⟨d,played,seen⟩ := Option.map_eq_some_iff.mp retried
  obtain ⟨d',played',seen'⟩ := Option.map_eq_some_iff.mp finished
  simp only [Prod.mk.injEq] at seen
  have run := run_of_play kept_of_check played
  have run' := run_of_play kept_of_check played'
  exact ⟨⟨d,run,VirtioBlockDevice.block_requests_conserved 0 512 4096 _ _ run,seen⟩,
    d',run',VirtioBlockDevice.block_requests_conserved 0 512 4096 _ _ run',seen'⟩

/-- A call for a buffer that is both read and written takes an object for good. -/
theorem block_requests_conserved_fails_inOut :
    ∃ d, Run blockStep (fun _ _ => True) (.started 0 512 4096)
      [.readWrite ⟨.inOut, ⟨1, 512⟩, 0, 1, ⟨7, 8, 9⟩⟩ .success] d ∧ ¬d.Conserved 32 := by
  refine ⟨_,.cons trivial rfl .nil,fun conserved => ?_⟩
  have count := conserved.count
  revert count
  decide +kernel

namespace VirtioBlockDevice

variable {d d' : VirtioBlockDevice}

def Reported (d : VirtioBlockDevice) (attempt : Nat × IOReturn) : Prop :=
  (∃ event ∈ d.storageLog, event.serial = attempt.1 ∧ event.result = attempt.2 ∧
    event.actualBytes = 0) ∨
  (∃ event ∈ d.flushLog, event.serial = attempt.1 ∧ event.result = some attempt.2) ∨
  (∃ request ∈ d.woken, d.serial request = attempt.1 ∧
    (d.requests request).completion = .sync attempt.2)

/-- A deferred request whose submission fails for good is finished with the error, and while
no completion is being handled something is in flight that will retry what is pending. -/
structure ErrorsAgree (d : VirtioBlockDevice) : Prop where
  retried : ∀ attempt ∈ d.retries, Hard attempt.2 →
    d.Reported attempt ∧ attempt.1 ∉ d.pendingRequests.map d.serial
  waiting : d.drainsDue = 0 → d.pendingRequests ≠ [] → d.inFlight ≠ []

/-- In runs over a transport that accommodates what has been deferred. -/
theorem deferred_errors_agree (queueSize blockSize capacity : Nat) (actions : List BlockAction)
    (d : VirtioBlockDevice)
    (run : Run blockStep (fun d a => a.Accommodated d) (started queueSize blockSize capacity)
      actions d) : ErrorsAgree d := by
  have accommodated := accommodated_run run
  refine ⟨?_,fun due waiting => ?_⟩
  · intro attempt member hard
    exact absurd hard (accommodated.soft attempt member)
  · exact (accommodated.retries (moving_run run) waiting).resolve_right (by omega)

end VirtioBlockDevice

/-- Two reads, the second of which has to wait until the first one is completed. -/
def twoReads (retried : IOReturn) : List BlockAction :=
  [.readWrite ⟨.input, ⟨1, 512⟩, 0, 1, ⟨7, 8, 9⟩⟩ .success,
    .readWrite ⟨.input, ⟨2, 512⟩, 1, 1, ⟨17, 18, 19⟩⟩ .busy,
    .complete 31 0 fun _ => .success, .drain fun _ => retried]

def checkAccommodated (d : VirtioBlockDevice) (a : BlockAction) : Bool := decide (a.Accommodated d)

theorem deferred_errors_agree_two_reads :
    ∃ d, Run blockStep (fun d a => a.Accommodated d) (.started 0 512 4096)
        (twoReads .success ++ [.complete 30 0 fun _ => .success, .drain fun _ => .success]) d ∧
      d.ErrorsAgree ∧ d.retries = [(1, .success)] ∧ d.pendingRequests = [] ∧
      d.storageLog.map StorageEvent.serial = [0, 1] := by
  have played : (play blockStep checkAccommodated
      (twoReads .success ++ [.complete 30 0 fun _ => .success,.drain fun _ => .success])
      (.started 0 512 4096)).map
        (fun d => (d.retries,d.pendingRequests,d.storageLog.map StorageEvent.serial)) =
          some ([(1,.success)],[],[0,1]) := by decide +kernel
  obtain ⟨d,played,seen⟩ := Option.map_eq_some_iff.mp played
  simp only [Prod.mk.injEq] at seen
  have run := run_of_play (fun _ _ => of_decide_eq_true) played
  exact ⟨d,run,VirtioBlockDevice.deferred_errors_agree 0 512 4096 _ _ run,seen⟩

/-- Where the retry fails, the request stays at the head of the pending requests, with nothing
in flight. -/
theorem deferred_errors_agree_fails :
    ∃ d, Run blockStep (fun _ _ => True) (.started 0 512 4096) (twoReads .internalError) d ∧
      ¬d.ErrorsAgree := by
  have played : (play blockStep (fun _ _ => true) (twoReads .internalError)
      (.started 0 512 4096)).map (fun d => (d.drainsDue,d.pendingRequests,d.inFlight)) =
        some (0,[30],[]) := by decide +kernel
  obtain ⟨d,played,seen⟩ := Option.map_eq_some_iff.mp played
  simp only [Prod.mk.injEq] at seen
  obtain ⟨due,waiting,idle⟩ := seen
  refine ⟨d,run_of_play (fun _ _ _ => trivial) played,fun agree => ?_⟩
  exact agree.waiting due (by simp [waiting]) idle

end VirtioOsx

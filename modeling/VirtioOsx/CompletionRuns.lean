import VirtioOsx.QueueInvariant

/-! Whole runs of a queue: where its descriptors are, and which completion actions are
invoked. -/
namespace VirtioOsx

open Runs

structure Partitioned (n : Nat) (m : Machine) (free : List Nat) : Prop where
  ends : Listed m.queue.nextDesc m.queue.firstUnusedDescriptorIndex free
  distinct : free.Nodup
  below : ∀ i ∈ free, i < n
  counted : free.length = m.queue.numUnusedDescriptors
  chains : ∀ r ∈ m.inflight, r.descs.head? = some r.head ∧ Listed m.queue.nextDesc r.head r.descs
  partition : (free ++ m.inflight.flatMap Request.descs).Perm (List.range n)

theorem Partition.partitioned (partition : Partition n m.queue free m.inflight []) :
    Partitioned n m free where
  ends := partition.unused.listed
  distinct := partition.unused.nodup
  below i member := partition.bound (List.mem_append_left _ member)
  counted := partition.unused.count.symm
  chains r member := ⟨(partition.holding r member).starts,(partition.holding r member).listed⟩
  partition := by simpa using partition.places

def readyCalls (n tableCapacity : Nat) : SetupCalls :=
  ⟨true, true, .success, .success, vringMemSize n, 1, vringMemSize n, fun _ => true, fun _ => true,
    fun _ => true, fun _ => true, fun _ => tableCapacity⟩

def sector : ScatterList := ⟨[⟨4096, 512⟩], by simp⟩

def writeSector (ref : Nat) : SubmitCall :=
  ⟨some ⟨ref, 512⟩, none, ⟨1, 2, ref⟩, sector.dma, sector.dma, sector.dma⟩

def Successful (m : Machine) (a : Action) : Prop :=
  ∀ call, a = .submit call → Succeeds m.queue call

def checkSuccessful (m : Machine) : Action → Bool
  | .submit call => (submitBuffers m.queue call).map SubmitReturn.result == some .success
  | _ => true

theorem successful_of_check (m : Machine) (a : Action) (checked : checkSuccessful m a = true) :
    Successful m a := by
  rintro call rfl
  exact eq_of_beq checked

theorem Successful.sound (successful : Successful m a) : Sound m a :=
  fun call same => (successful call same).not_corrupting

theorem Successful.gentle (successful : Successful m a) : Gentle m a :=
  fun call same => .inl (successful call same)

/-- Two requests, the second submitted by the first one's completion action while its
own descriptor is the first unused one. -/
def resubmission : List Action :=
  [.submit (writeSector 3), .publish, .publish, .publish, .kick, .fetch, .complete 0 7,
    .process 0, .advance, .advance, .submit (writeSector 4), .publish, .publish, .publish,
    .advance, .advance]

/-- In every run whose submissions succeed or are turned away before they reserve a
descriptor, no descriptor is lost and none is in two places. -/
theorem descriptors_partitioned (n activeFeatures : Nat) (interruptsEnabled : Bool)
    (indirectDescPerRequest : Nat) (calls : SetupCalls) (queue : VirtioVirtqueue)
    (size : n < 65536)
    (built : setupVirtqueue n activeFeatures interruptsEnabled indirectDescPerRequest calls =
      .ok queue)
    (actions : List Action) (m : Machine)
    (run : Run step Gentle (Machine.start queue) actions m) :
    ∃ free, Partitioned n m free := by
  have inv := machineInv_gentle (machineInv_setup size built) run
  obtain ⟨free,partition⟩ := inv.partition
  exact ⟨free,partition.partitioned⟩

theorem descriptors_partitioned_resubmission :
    ∃ m free, Run step Gentle (Machine.start (initialQueue 4 true false (readyCalls 4 64)))
      resubmission m ∧ m.inflight.length = 1 ∧ Partitioned 4 m free := by
  have played : (play step checkSuccessful resubmission
      (Machine.start (initialQueue 4 true false (readyCalls 4 64)))).map
        (fun m => m.inflight.length) = some 1 := by decide +kernel
  obtain ⟨m,played,waiting⟩ := Option.map_eq_some_iff.mp played
  have run := run_of_play (fun m a checked => (successful_of_check m a checked).gentle) played
  obtain ⟨free,partitioned⟩ := descriptors_partitioned 4 0 true 0 (readyCalls 4 64) _ (by decide)
    rfl resubmission m run
  exact ⟨m,free,run,waiting,partitioned⟩

/-- A processing call returns, if the device returns nothing more, with everything
processed. -/
theorem MachineInv.drains (inv : MachineInv n lost m) (quiet : m.submitting = none)
    (busy : m.processing = some call) :
    ∃ k m', Run step (fun _ _ => True) m (List.replicate k .advance) m' ∧ m'.processing = none ∧
      m'.returned = m.returned ∧ m'.log.length = m'.returned.length := by
  generalize work : workLeft (m.returned.length - m.log.length) call.position = bound
  induction bound using Nat.strongRecOn generalizing m call with
  | ind bound ih =>
    obtain ⟨result,progress⟩ := inv.processed quiet busy
    have taken : step .advance m = some (m.processed call result) := by
      simp [step,Machine.advance,quiet,busy,progress.taken]
    cases place : result.position with
    | none =>
      obtain ⟨silent,all⟩ := progress.caughtUp place
      refine ⟨1,m.processed call result,.cons trivial taken .nil,?_,rfl,?_⟩
      · simp [Machine.processed,place]
      · simpa [Machine.processed,silent] using all
    | some next =>
      have less := progress.less next place
      rw [work] at less
      have busy : (m.processed call result).processing =
          some ⟨call.completionLimit,call.totalHandled,next⟩ := by simp [Machine.processed,place]
      obtain ⟨k,m',run,done,same,all⟩ := ih _ less progress.kept quiet busy rfl
      exact ⟨k + 1,m',.cons trivial taken run,done,same,all⟩

/-- What has been invoked, against what the device has returned in the used ring. -/
structure Attributed (n : Nat) (m : Machine) : Prop where
  /-- The used ring's index counts what the device has returned. -/
  index : m.queue.usedRing.headIndex = m.returned.length % 65536
  /-- Elements that have not been processed are in their slots. -/
  elements : RingWindow.Holds n m.queue.usedRing.ring m.log.length
    (m.unprocessed.map Returned.element)
  /-- One action for each element, in order, with its own request's completion. -/
  order : m.log = (m.returned.take m.log.length).map Returned.invocation
  /-- An element names the head of the request it belongs to. -/
  named : ∀ e ∈ m.returned, e.element.descriptorId = e.fetched.request.head
  /-- Requests are returned at most once, and only after they were published. -/
  once : (m.owned.map Fetched.request ++ m.returned.map fun e => e.fetched.request).Perm
    (m.published.take m.fetchedCount)
  /-- A call that returns has left no element unprocessed. -/
  caughtUp : ∀ m', m.advance = some m' → m'.processing = none →
    m'.log.length = m'.returned.length
  /-- A call returns unless the device goes on returning requests. -/
  drains : ∀ call, m.submitting = none → m.processing = some call →
    ∃ k m', Run step (fun _ _ => True) m (List.replicate k .advance) m' ∧ m'.processing = none ∧
      m'.returned = m.returned ∧ m'.log.length = m'.returned.length

theorem MachineInv.attributed (inv : MachineInv n lost m) : Attributed n m where
  index := inv.used.headIndex
  elements := inv.used.window
  order := inv.used.attributed
  named e member := inv.attribution.heads e.fetched
    (List.mem_append_right _ (List.mem_map_of_mem member))
  once := inv.attribution.conserved
  caughtUp _ taken := (inv.advance taken).2
  drains _ quiet busy := inv.drains quiet busy

/-- In every run of successful submissions, each element of the used ring is processed
exactly once and in order, with the completion of the request it names. -/
theorem completions_attributed (n activeFeatures : Nat) (interruptsEnabled : Bool)
    (indirectDescPerRequest : Nat) (calls : SetupCalls) (queue : VirtioVirtqueue)
    (size : n < 65536)
    (built : setupVirtqueue n activeFeatures interruptsEnabled indirectDescPerRequest calls =
      .ok queue)
    (actions : List Action) (m : Machine)
    (run : Run step Successful (Machine.start queue) actions m) : Attributed n m := by
  obtain ⟨lost,inv⟩ := machineInv_run (machineInv_setup size built) (run.mono Successful.sound)
  exact inv.attributed

theorem completions_attributed_resubmission :
    ∃ m, Run step Successful (Machine.start (initialQueue 4 true false (readyCalls 4 64)))
      resubmission m ∧ m.log = [⟨⟨1,2,3⟩,false,7⟩] ∧ Attributed 4 m := by
  have played : (play step checkSuccessful resubmission
      (Machine.start (initialQueue 4 true false (readyCalls 4 64)))).map Machine.log =
        some [⟨⟨1,2,3⟩,false,7⟩] := by decide +kernel
  obtain ⟨m,played,log⟩ := Option.map_eq_some_iff.mp played
  have run := run_of_play successful_of_check played
  exact ⟨m,run,log,completions_attributed 4 0 true 0 (readyCalls 4 64) _ (by decide) rfl
    resubmission m run⟩

end VirtioOsx

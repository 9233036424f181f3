import VirtioOsx.Lib.RingWindow
import VirtioOsx.Lib.Runs
import VirtioOsx.QueueMachine

/-! The invariant of a queue and its device. Each part speaks about the components it
needs: the descriptors, the two rings, the position of the processing call, the
attribution of what the device returns, and the notifications. -/
namespace VirtioOsx

open RingWindow

/-- The available ring: the entries from the device's counter on, and the one whose
`head_index` is about to be stored. -/
structure AvailableInv (n : Nat) (ring : VirtioVringAvail) (lastAvail fetched : Nat)
    (published slotted : List Request) : Prop where
  behind : fetched ≤ published.length
  headIndex : ring.headIndex = published.length % 65536
  counter : lastAvail = fetched % 65536
  window : Holds n ring.ring fetched ((published.drop fetched ++ slotted).map Request.head)

theorem AvailableInv.writeSlot (inv : AvailableInv n ring lastAvail fetched published [])
    (accepted : AcceptedSize n) (room : (published.drop fetched).length < n) (r : Request) :
    AvailableInv n
      { ring with ring := Function.update ring.ring (ring.headIndex % n) r.head }
      lastAvail fetched published [r] := by
  refine ⟨inv.behind,inv.headIndex,inv.counter,?_⟩
  have window := inv.window
  rw [List.append_nil] at window
  have pushed := window.push (by simpa using room) r.head
  have top : fetched + (published.drop fetched).length = published.length := by
    have := inv.behind
    simp only [List.length_drop]
    omega
  rw [List.length_map,top,← slot_mod accepted.dvd,← inv.headIndex] at pushed
  simpa using pushed

theorem AvailableInv.writeIndex (inv : AvailableInv n ring lastAvail fetched published [r]) :
    AvailableInv n { ring with headIndex := (ring.headIndex + 1) % 65536 } lastAvail fetched
      (published ++ [r]) [] := by
  refine ⟨?_,?_,inv.counter,?_⟩
  · have := inv.behind
    simp only [List.length_append,List.length_singleton]
    omega
  · have := inv.headIndex
    simp only [List.length_append,List.length_singleton]
    omega
  · rw [List.drop_append_of_le_length inv.behind,List.append_nil]
    exact inv.window

/-- The device finds the head of the oldest unconsumed request in its next slot. -/
theorem AvailableInv.slot_eq (inv : AvailableInv n ring lastAvail fetched published slotted)
    (accepted : AcceptedSize n) (oldest : published[fetched]? = some r) :
    ring.ring (lastAvail % n) = r.head := by
  have inside : fetched < published.length := (List.getElem?_eq_some_iff.mp oldest).1
  have window := inv.window
  rw [List.drop_eq_getElem_cons inside] at window
  have value : published[fetched] = r := (List.getElem?_eq_some_iff.mp oldest).2
  rw [inv.counter,slot_mod accepted.dvd,← value]
  exact window.head

theorem AvailableInv.fetch (inv : AvailableInv n ring lastAvail fetched published slotted)
    (oldest : published[fetched]? = some r) :
    AvailableInv n ring ((lastAvail + 1) % 65536) (fetched + 1) published slotted := by
  have inside : fetched < published.length := (List.getElem?_eq_some_iff.mp oldest).1
  have window := inv.window
  rw [List.drop_eq_getElem_cons inside] at window
  refine ⟨inside,inv.headIndex,?_,window.tail⟩
  have := inv.counter
  omega

/-- The counters agree modulo 2^16 only if nothing is left to consume. -/
theorem AvailableInv.drained (inv : AvailableInv n ring lastAvail fetched published slotted)
    (room : (published.drop fetched).length < 65536) (same : lastAvail = ring.headIndex) :
    published.drop fetched = [] := by
  rw [inv.counter,inv.headIndex] at same
  have := inv.behind
  rw [List.length_drop] at room
  have equal := counter_eq same inv.behind (by omega)
  simp [← equal]

def Returned.invocation (r : Returned) : Invocation :=
  ⟨r.fetched.request.completion, false, r.writtenBytes⟩

/-- The used ring: what has been processed, in order, and the entries still to process. -/
structure UsedInv (n : Nat) (ring : VirtioVringUsed) (returned : List Returned)
    (log : List Invocation) : Prop where
  processed : log.length ≤ returned.length
  headIndex : ring.headIndex = returned.length % 65536
  window : Holds n ring.ring log.length ((returned.drop log.length).map Returned.element)
  attributed : log = (returned.take log.length).map Returned.invocation

theorem UsedInv.write (inv : UsedInv n ring returned log) (accepted : AcceptedSize n)
    (room : (returned.drop log.length).length < n) (entry : Returned) (flags : Nat) :
    UsedInv n
      ⟨flags, (ring.headIndex + 1) % 65536,
        Function.update ring.ring (ring.headIndex % n) entry.element⟩
      (returned ++ [entry]) log := by
  have processed := inv.processed
  refine ⟨?_,?_,?_,?_⟩
  · simp only [List.length_append,List.length_singleton]
    omega
  · have := inv.headIndex
    simp only [List.length_append,List.length_singleton]
    omega
  · have pushed := inv.window.push (by simpa using room) entry.element
    have top : log.length + (returned.drop log.length).length = returned.length := by
      simp only [List.length_drop]
      omega
    rw [List.length_map,top,← slot_mod accepted.dvd,← inv.headIndex] at pushed
    rw [List.drop_append_of_le_length processed]
    simpa using pushed
  · rw [List.take_append_of_le_length processed]
    exact inv.attributed

theorem UsedInv.element_eq (inv : UsedInv n ring returned log) (accepted : AcceptedSize n)
    (oldest : returned[log.length]? = some entry) (index : next = log.length % 65536) :
    ring.ring (next % n) = entry.element := by
  have inside : log.length < returned.length := (List.getElem?_eq_some_iff.mp oldest).1
  have value : returned[log.length] = entry := (List.getElem?_eq_some_iff.mp oldest).2
  have window := inv.window
  rw [List.drop_eq_getElem_cons inside] at window
  rw [index,slot_mod accepted.dvd,← value]
  exact window.head

theorem UsedInv.invoke (inv : UsedInv n ring returned log)
    (oldest : returned[log.length]? = some entry) :
    UsedInv n ring returned (log ++ [entry.invocation]) := by
  have inside : log.length < returned.length := (List.getElem?_eq_some_iff.mp oldest).1
  have value : returned[log.length] = entry := (List.getElem?_eq_some_iff.mp oldest).2
  have window := inv.window
  rw [List.drop_eq_getElem_cons inside] at window
  refine ⟨?_,inv.headIndex,?_,?_⟩
  · simp only [List.length_append,List.length_singleton]
    omega
  · simpa using window.tail
  · rw [List.length_append,List.length_singleton,List.take_add_one,List.map_append,
      ← inv.attributed,oldest]
    rfl

/-- Where the processing call stands: `handled` actions have been invoked, `last` is
`used_ring_last_head_index` and `current` a value that the used index has had. -/
def PositionInv (last handled returned : Nat) : Option ProcessCall → Prop
  | none => last = handled % 65536
  | some ⟨_, totalHandled, position⟩ => totalHandled = 0 ∧ match position with
    | .poll => last = handled % 65536
    | .unmask next | .recheck next => last = handled % 65536 ∧ next = handled % 65536
    | .batch current next => next = handled % 65536 ∧
        ∃ seen, current = seen % 65536 ∧ handled ≤ seen ∧ seen ≤ returned
    | .action current next => (next + 1) % 65536 = handled % 65536 ∧
        ∃ seen, current = seen % 65536 ∧ handled ≤ seen ∧ seen ≤ returned

theorem PositionInv.mono (inv : PositionInv last handled returned processing)
    (later : returned ≤ returned') : PositionInv last handled returned' processing := by
  rcases processing with _ | ⟨limit,total,position⟩
  · exact inv
  · refine ⟨inv.1,?_⟩
    have inv := inv.2
    cases position with
    | poll | unmask | recheck => exact inv
    | batch | action =>
      obtain ⟨next,seen,current,least,most⟩ := inv
      exact ⟨next,seen,current,least,most.trans later⟩

/-- What the device holds and has returned is what it has consumed, under the heads that
the driver published. -/
structure Attribution (owned : List Fetched) (returned : List Returned) (published : List Request)
    (fetched : Nat) : Prop where
  heads : ∀ f ∈ owned ++ returned.map Returned.fetched, f.head = f.request.head
  conserved : (owned.map Fetched.request ++ returned.map fun r => r.fetched.request).Perm
    (published.take fetched)

theorem Attribution.publish (inv : Attribution owned returned published fetched)
    (bound : fetched ≤ published.length) (r : Request) :
    Attribution owned returned (published ++ [r]) fetched :=
  ⟨inv.heads,by rw [List.take_append_of_le_length bound]; exact inv.conserved⟩

theorem Attribution.fetch (inv : Attribution owned returned published fetched)
    (oldest : published[fetched]? = some r) (head : entry = ⟨r.head,r⟩) :
    Attribution (owned ++ [entry]) returned published (fetched + 1) := by
  subst head
  refine ⟨fun f member => ?_,?_⟩
  · rcases (by simpa using member : f ∈ owned ∨ f = ⟨r.head,r⟩ ∨ _) with old | rfl | old
    · exact inv.heads f (List.mem_append_left _ old)
    · rfl
    · exact inv.heads f (List.mem_append_right _ (by simpa using old))
  · have conserved := inv.conserved
    rw [List.perm_iff_count] at conserved ⊢
    intro s
    have count := conserved s
    simp only [List.take_add_one,oldest,List.map_append,List.count_append] at count ⊢
    simp only [List.map_cons,List.map_nil,Option.toList_some]
    omega

theorem Attribution.complete (inv : Attribution owned returned published fetched)
    (held : owned[position]? = some f) (writtenBytes : Nat) :
    Attribution (owned.eraseIdx position) (returned ++ [⟨f,writtenBytes⟩]) published fetched := by
  obtain ⟨inside,value⟩ := List.getElem?_eq_some_iff.mp held
  have split : (f :: owned.eraseIdx position).Perm owned := by
    rw [← value]
    exact List.getElem_cons_eraseIdx_perm inside
  refine ⟨fun g member => ?_,?_⟩
  · apply inv.heads
    rcases (by simpa using member : g ∈ owned.eraseIdx position ∨ _ ∨ g = f) with old | old | rfl
    · exact List.mem_append_left _ (List.mem_of_mem_eraseIdx old)
    · exact List.mem_append_right _ (by simpa using old)
    · exact List.mem_append_left _ (List.mem_of_getElem? held)
  · have conserved := inv.conserved
    have mapped := split.map Fetched.request
    rw [List.perm_iff_count] at conserved mapped ⊢
    intro s
    have count := conserved s
    have moved := mapped s
    simp only [List.map_cons,List.map_nil,List.map_append,List.count_append,List.count_cons,
      List.count_nil] at count moved ⊢
    omega

/-- A device that sleeps on unconsumed entries has been, or is about to be, notified. -/
structure NotifyInv (phase : DevicePhase) (clear : Bool) (unconsumed : List Request)
    (notified : Bool) (submitting : Option Publication) : Prop where
  clear : phase ≠ .running → clear = true
  woken : phase = .idle → unconsumed = [] ∨ notified = true ∨ submitting = some .notify

/-- The request whose chain is built but not yet published. -/
def unpublished : Option Publication → List Request
  | some (.slot r) | some (.index r) => [r]
  | _ => []

def slotted : Option Publication → List Request
  | some (.index r) => [r]
  | _ => []

namespace Machine

def unconsumed (m : Machine) : List Request := m.published.drop m.fetchedCount

def unprocessed (m : Machine) : List Returned := m.returned.drop m.log.length

def inflight (m : Machine) : List Request :=
  unpublished m.submitting ++ (m.unconsumed ++ (m.owned.map Fetched.request ++
    m.unprocessed.map fun r => r.fetched.request))

def completions (m : Machine) : List VirtioCompletion :=
  m.log.map Invocation.completion ++ m.inflight.map Request.completion

end Machine

structure MachineInv (n : Nat) (lost : List Nat) (m : Machine) : Prop where
  accepted : AcceptedSize n
  partition : ∃ free, Partition n m.queue free m.inflight lost
  available : AvailableInv n m.queue.availableRing m.lastAvail m.fetchedCount m.published
    (slotted m.submitting)
  used : UsedInv n m.queue.usedRing m.returned m.log
  position : PositionInv m.queue.usedRingLastHeadIndex m.log.length m.returned.length m.processing
  attribution : Attribution m.owned m.returned m.published m.fetchedCount
  notify : NotifyInv m.phase (notifies m.queue) m.unconsumed m.notified m.submitting

theorem MachineInv.size (inv : MachineInv n lost m) : m.queue.numEntries = n := by
  obtain ⟨free,partition⟩ := inv.partition
  exact partition.size

theorem MachineInv.inflight_le (inv : MachineInv n lost m) : m.inflight.length ≤ n := by
  obtain ⟨free,partition⟩ := inv.partition
  exact partition.length_le

theorem machineInv_start (accepted : AcceptedSize n) (interrupts indirect : Bool)
    (calls : SetupCalls) :
    MachineInv n [] (Machine.start (initialQueue n interrupts indirect calls)) where
  accepted := accepted
  partition := ⟨List.range n,partition_initial accepted interrupts indirect calls⟩
  available := ⟨Nat.le_refl 0,rfl,rfl,Holds.nil _⟩
  used := ⟨Nat.le_refl 0,rfl,Holds.nil _,rfl⟩
  position := rfl
  attribution := ⟨by simp [Machine.start],by simp [Machine.start]⟩
  notify := ⟨fun _ => by simp [notifies,Machine.start,initialQueue],fun _ => .inl rfl⟩

theorem machineInv_setup (size : n < 65536)
    (built : setupVirtqueue n activeFeatures interruptsEnabled indirectDescPerRequest calls =
      .ok queue) : MachineInv n [] (Machine.start queue) := by
  obtain ⟨accepted,indirect,rfl⟩ := setupVirtqueue_ok size built
  exact machineInv_start accepted interruptsEnabled indirect calls

theorem Machine.submit_refused {m m' : Machine} (refused : RefusedEarly m.queue call)
    (taken : m.submit call = some m') : m' = m := by
  obtain ⟨code,_,returned⟩ := buildChain_refused refused
  obtain ⟨_,⟨head,queue,built,_⟩ | ⟨result,queue,left,rfl⟩⟩ := Machine.submit_cases taken
  · rw [returned] at built
    cases built
  · rw [returned] at left
    injection left with _ same
    rw [← same]

/-- A submission that does not corrupt the unused list. Only one that fails loses
descriptors. -/
theorem MachineInv.submit (inv : MachineInv n lost m)
    (sound : RefusedEarly m.queue call ∨ ¬Corrupting m.queue call)
    (taken : m.submit call = some m') :
    ∃ more, MachineInv n (more ++ lost) m' ∧
      (Succeeds m.queue call ∨ RefusedEarly m.queue call → more = []) := by
  by_cases refused : RefusedEarly m.queue call
  · rw [Machine.submit_refused refused taken]
    exact ⟨[],inv,fun _ => rfl⟩
  have sound := sound.resolve_left refused
  obtain ⟨free,partition⟩ := inv.partition
  have fits : free.length ≤ m.queue.numEntries := partition.size.symm ▸ partition.fits
  have outcome := buildChain_spec partition.unused fits sound
  have notified := inv.notify.woken
  obtain ⟨idle,⟨head,queue,built,rfl⟩ | ⟨result,queue,failed,rfl⟩⟩ := Machine.submit_cases taken
  · rw [built] at outcome
    rw [idle] at notified
    obtain ⟨rest,grown,descs,agree⟩ := partition.built outcome
    refine ⟨[],⟨inv.accepted,⟨rest,?_⟩,?_,?_,?_,inv.attribution,?_⟩,fun _ => rfl⟩
    · simpa [Machine.inflight,Machine.unconsumed,Machine.unprocessed,unpublished,idle] using grown
    · have available := inv.available
      rw [idle] at available
      simpa [agree.availableRing,slotted] using available
    · simpa [agree.usedRing] using inv.used
    · simpa [agree.usedRingLastHeadIndex] using inv.position
    · refine ⟨by simpa [notifies,agree.usedRing] using inv.notify.clear,fun sleeping => ?_⟩
      rcases notified sleeping with drained | woken | none
      · exact .inl drained
      · exact .inr (.inl woken)
      · exact absurd none (by simp)
  · rw [failed] at outcome
    obtain ⟨kept,more,reduced,agree,whole⟩ := partition.refused outcome
    refine ⟨more,⟨inv.accepted,⟨kept,reduced⟩,?_,?_,?_,inv.attribution,?_⟩,fun good => ?_⟩
    · simpa [agree.availableRing] using inv.available
    · simpa [agree.usedRing] using inv.used
    · simpa [agree.usedRingLastHeadIndex] using inv.position
    · exact ⟨by simpa [notifies,agree.usedRing] using inv.notify.clear,inv.notify.woken⟩
    · have good := good.resolve_right refused
      simp only [Succeeds,submitBuffers,failed,Option.map_some,Option.some.injEq] at good
      exact whole good

/-- Publication only changes in which way a request is in flight. -/
theorem Machine.publish_inflight {m m' : Machine} (behind : m.fetchedCount ≤ m.published.length)
    (taken : m.publish = some m') : m.inflight.Perm m'.inflight := by
  rcases Machine.publish_cases taken with ⟨r,stage,rfl⟩ | ⟨r,stage,rfl⟩ | ⟨stage,rfl⟩
  · simp [Machine.inflight,stage,unpublished,Machine.unconsumed,Machine.unprocessed]
  · simp only [Machine.inflight,stage,unpublished,Machine.unconsumed,Machine.unprocessed,
      List.nil_append,List.drop_append_of_le_length behind]
    rw [List.append_assoc]
    exact List.perm_append_comm_assoc _ _ _
  · simp [Machine.inflight,stage,unpublished,Machine.unconsumed,Machine.unprocessed]

theorem MachineInv.publish (inv : MachineInv n lost m) (taken : m.publish = some m') :
    MachineInv n lost m' := by
  obtain ⟨free,partition⟩ := inv.partition
  have partition := partition.permute (Machine.publish_inflight inv.available.behind taken)
  have few := inv.inflight_le
  rcases Machine.publish_cases taken with ⟨r,stage,rfl⟩ | ⟨r,stage,rfl⟩ | ⟨stage,rfl⟩
  · have available := inv.available
    have woken := inv.notify.woken
    simp only [stage,slotted] at available woken
    refine ⟨inv.accepted,⟨free,partition.congr rfl rfl rfl rfl⟩,?_,inv.used,inv.position,
      inv.attribution,inv.notify.clear,?_⟩
    · have room : m.unconsumed.length < n := by
        simp only [Machine.inflight,stage,unpublished,List.length_append,List.length_singleton] at few
        omega
      simp only [writeRingSlot,inv.size]
      exact available.writeSlot inv.accepted room r
    · intro sleeping
      rcases woken sleeping with drained | notified | other
      · exact .inl drained
      · exact .inr (.inl notified)
      · exact absurd other (by simp)
  · have available := inv.available
    simp only [stage,slotted] at available
    exact ⟨inv.accepted,⟨free,partition.congr rfl rfl rfl rfl⟩,available.writeIndex,inv.used,
      inv.position,inv.attribution.publish available.behind r,inv.notify.clear,
      fun _ => .inr (.inr rfl)⟩
  · have available := inv.available
    rw [stage] at available
    refine ⟨inv.accepted,⟨free,partition⟩,available,inv.used,inv.position,inv.attribution,
      inv.notify.clear,fun sleeping => .inr (.inl ?_)⟩
    have clear := inv.notify.clear (by simp only at sleeping; simp [sleeping])
    simp [clear]

theorem MachineInv.process (inv : MachineInv n lost m) (taken : m.process limit = some m') :
    MachineInv n lost m' := by
  unfold Machine.process at taken
  split at taken
  · rename_i quiet
    obtain rfl := Option.some.inj taken
    have idle : m.processing = none := by simp_all
    have position := inv.position
    rw [idle] at position
    exact ⟨inv.accepted,inv.partition,inv.available,inv.used,⟨rfl,position⟩,inv.attribution,
      inv.notify⟩
  · cases taken

theorem Machine.fetch_inflight {m m' : Machine} (taken : m.fetch = some m') :
    m.inflight.Perm m'.inflight := by
  obtain ⟨_,r,oldest,rfl⟩ := Machine.fetch_cases taken
  obtain ⟨inside,value⟩ := List.getElem?_eq_some_iff.mp oldest
  simp only [Machine.inflight,Machine.unconsumed,Machine.unprocessed,
    List.drop_eq_getElem_cons inside,value,List.map_append,List.map_cons,List.map_nil]
  apply List.Perm.append_left
  rw [List.perm_iff_count]
  intro s
  simp only [List.count_append,List.cons_append,List.count_cons,List.count_nil]
  omega

theorem MachineInv.fetch (inv : MachineInv n lost m) (taken : m.fetch = some m') :
    MachineInv n lost m' := by
  obtain ⟨free,partition⟩ := inv.partition
  have partition := partition.permute (Machine.fetch_inflight taken)
  obtain ⟨running,r,oldest,rfl⟩ := Machine.fetch_cases taken
  have slot := inv.available.slot_eq inv.accepted oldest
  refine ⟨inv.accepted,⟨free,partition⟩,inv.available.fetch oldest,inv.used,inv.position,
    inv.attribution.fetch oldest (by rw [inv.size,slot]),?_⟩
  exact ⟨fun moved => absurd running moved,fun sleeping => by simp [running] at sleeping⟩

theorem Machine.complete_inflight {m m' : Machine} (behind : m.log.length ≤ m.returned.length)
    (taken : m.complete i writtenBytes = some m') : m.inflight.Perm m'.inflight := by
  obtain ⟨f,held,rfl⟩ := Option.map_eq_some_iff.mp taken
  obtain ⟨inside,value⟩ := List.getElem?_eq_some_iff.mp held
  have split := (List.getElem_cons_eraseIdx_perm inside).map Fetched.request
  rw [value] at split
  simp only [Machine.inflight,Machine.unconsumed,Machine.unprocessed,
    List.drop_append_of_le_length behind,List.map_append,List.map_cons,List.map_nil]
  apply List.Perm.append_left
  apply List.Perm.append_left
  rw [List.perm_iff_count] at split ⊢
  intro s
  have count := split s
  simp only [List.count_append,List.map_cons,List.count_cons,List.count_nil] at count ⊢
  omega

theorem MachineInv.complete (inv : MachineInv n lost m)
    (taken : m.complete i writtenBytes = some m') : MachineInv n lost m' := by
  obtain ⟨free,partition⟩ := inv.partition
  have partition := partition.permute (Machine.complete_inflight inv.used.processed taken)
  have few := inv.inflight_le
  obtain ⟨f,held,rfl⟩ := Option.map_eq_some_iff.mp taken
  have inside := (List.getElem?_eq_some_iff.mp held).1
  have room : m.unprocessed.length < n := by
    simp only [Machine.inflight,List.length_append,List.length_map] at few
    omega
  refine ⟨inv.accepted,⟨free,partition.congr rfl rfl rfl rfl⟩,inv.available,?_,
    inv.position.mono (by simp),inv.attribution.complete held writtenBytes,inv.notify.clear,
    inv.notify.woken⟩
  have written := inv.used.write inv.accepted room ⟨f,writtenBytes⟩ m.queue.usedRing.flags
  simpa [writeUsedElement,inv.size] using written

theorem MachineInv.setFlags (inv : MachineInv n lost m) (flags : Nat)
    (clear : phase ≠ .running → notifies (writeUsedFlags m.queue flags) = true)
    (awake : phase ≠ .idle) :
    MachineInv n lost { m with queue := writeUsedFlags m.queue flags, phase := phase } := by
  obtain ⟨free,partition⟩ := inv.partition
  exact ⟨inv.accepted,⟨free,partition.congr rfl rfl rfl rfl⟩,inv.available,
    ⟨inv.used.processed,inv.used.headIndex,inv.used.window,inv.used.attributed⟩,inv.position,
    inv.attribution,clear,fun sleeping => absurd sleeping awake⟩

theorem MachineInv.suppress (inv : MachineInv n lost m) (taken : m.suppress = some m') :
    MachineInv n lost m' := by
  unfold Machine.suppress at taken
  split at taken
  · rename_i running
    obtain rfl := Option.some.inj taken
    exact inv.setFlags _ (fun stopped => absurd running stopped) (by simp [running])
  · cases taken

theorem MachineInv.enable (inv : MachineInv n lost m) (taken : m.enable = some m') :
    MachineInv n lost m' := by
  unfold Machine.enable at taken
  split at taken
  · obtain rfl := Option.some.inj taken
    exact inv.setFlags 0 (fun _ => by simp [notifies,writeUsedFlags]) (by simp)
  · cases taken

theorem MachineInv.recheck (inv : MachineInv n lost m) (taken : m.recheck = some m') :
    MachineInv n lost m' := by
  have few := inv.inflight_le
  have small := inv.accepted.le
  unfold Machine.recheck at taken
  split at taken
  · rename_i rechecking
    obtain rfl := Option.some.inj taken
    have clear := inv.notify.clear (by simp [rechecking])
    refine ⟨inv.accepted,inv.partition,inv.available,inv.used,inv.position,inv.attribution,
      fun _ => clear,fun sleeping => .inl ?_⟩
    simp only [Machine.inflight,List.length_append] at few
    refine inv.available.drained (show m.unconsumed.length < 65536 by omega) ?_
    by_contra changed
    simp [changed] at sleeping
  · cases taken

theorem MachineInv.kick (inv : MachineInv n lost m) (taken : m.kick = some m') :
    MachineInv n lost m' := by
  unfold Machine.kick at taken
  split at taken
  · obtain rfl := Option.some.inj taken
    refine ⟨inv.accepted,inv.partition,inv.available,inv.used,inv.position,inv.attribution,
      fun stopped => inv.notify.clear fun running => ?_,fun sleeping => ?_⟩
    · simp [running] at stopped
    · simp only at sleeping
      split at sleeping
      · cases sleeping
      · contradiction
  · cases taken

theorem uint16Sub_eq_zero {i j : Nat} (ordered : i ≤ j) (near : j < i + 65536) :
    uint16Sub (j % 65536) (i % 65536) = 0 ↔ j = i := by
  unfold uint16Sub
  omega

theorem neutral_of_quiet (quiet : ∀ i q, Quiet i q (visit i q)) : Neutral visit :=
  ⟨fun i q => (quiet i q).nextDesc,fun i q => (quiet i q).first,fun i q => (quiet i q).count,
    fun i q => (quiet i q).agree⟩

theorem neutral_clearCompleted : Neutral clearCompleted := by
  refine neutral_of_quiet fun i q => ?_
  have cleared := quiet_modifyBuffer q i
    (fun buffer => { buffer with dmaCmd := none, dmaCmdUsed := false }) fun _ => rfl
  unfold clearCompleted
  split
  · dsimp only
    split
    · exact cleared.trans (quiet_modifyBuffer _ i
        (fun buffer => { buffer with dmaCmd2 := none, dmaIndirectDescriptors := false })
          fun _ => rfl)
    · exact cleared
  · exact Quiet.refl i q

theorem limitReached_zero (limit : Nat) (position : ProcessPosition) :
    (ProcessCall.mk limit 0 position).limitReached = false := by
  simp only [ProcessCall.limitReached,Bool.and_eq_false_iff,bne_eq_false_iff_eq,
    decide_eq_false_iff_not]
  omega

/-- A step of the call that leaves the descriptors and the rings alone. -/
theorem MachineInv.moved (inv : MachineInv n lost m) (call : ProcessCall) (q' : VirtioVirtqueue)
    (place : Option ProcessPosition) (size : q'.numEntries = m.queue.numEntries)
    (buffers : q'.descriptorBuffers = m.queue.descriptorBuffers)
    (first : q'.firstUnusedDescriptorIndex = m.queue.firstUnusedDescriptorIndex)
    (count : q'.numUnusedDescriptors = m.queue.numUnusedDescriptors)
    (headIndex : q'.availableRing.headIndex = m.queue.availableRing.headIndex)
    (ring : q'.availableRing.ring = m.queue.availableRing.ring)
    (used : q'.usedRing = m.queue.usedRing)
    (position : PositionInv q'.usedRingLastHeadIndex m.log.length m.returned.length
      (place.map fun p => { call with position := p })) :
    MachineInv n lost (m.processed call ⟨q',place,none⟩) := by
  obtain ⟨free,partition⟩ := inv.partition
  have available := inv.available
  simp only [Machine.processed,Option.toList_none,List.append_nil]
  refine ⟨inv.accepted,⟨free,partition.congr size buffers first count⟩,
    ⟨available.behind,headIndex.trans available.headIndex,available.counter,?_⟩,?_,position,
    inv.attribution,?_,inv.notify.woken⟩
  · rw [ring]; exact available.window
  · rw [used]; exact inv.used
  · simpa [notifies,used] using inv.notify.clear

theorem MachineInv.unprocessed_near (inv : MachineInv n lost m) :
    m.returned.length < m.log.length + 65536 := by
  have few := inv.inflight_le
  have small := inv.accepted.le
  simp only [Machine.inflight,Machine.unprocessed,List.length_append,List.length_map,
    List.length_drop] at few
  omega

def Machine.later (m : Machine) : List Request :=
  m.unconsumed ++ (m.owned.map Fetched.request ++
    (m.returned.drop (m.log.length + 1)).map fun r => r.fetched.request)

theorem Machine.inflight_oldest {m : Machine} (quiet : m.submitting = none)
    (oldest : m.returned[m.log.length]? = some entry) :
    m.inflight.Perm (entry.fetched.request :: m.later) := by
  obtain ⟨inside,value⟩ := List.getElem?_eq_some_iff.mp oldest
  simp only [Machine.inflight,Machine.unprocessed,Machine.later,quiet,unpublished,
    List.drop_eq_getElem_cons inside,value,List.map_cons,List.nil_append]
  rw [List.perm_iff_count]
  intro s
  simp only [List.count_append,List.count_cons]
  omega

theorem MachineInv.element (inv : MachineInv n lost m) (quiet : m.submitting = none)
    (oldest : m.returned[m.log.length]? = some entry) (next : index = m.log.length % 65536) :
    m.queue.usedRing.ring (index % m.queue.numEntries) =
        ⟨entry.fetched.request.head,entry.writtenBytes⟩ ∧
      int16 entry.fetched.request.head = entry.fetched.request.head := by
  obtain ⟨free,partition⟩ := inv.partition
  have element := inv.used.element_eq inv.accepted oldest next
  have head : entry.fetched.head = entry.fetched.request.head :=
    inv.attribution.heads entry.fetched
      (List.mem_append_right _ (List.mem_map_of_mem (List.mem_of_getElem? oldest)))
  have front := partition.permute (Machine.inflight_oldest quiet oldest)
  have bound : entry.fetched.request.head < n := front.bound
    (List.mem_append_right _ (List.mem_append_left _
      (by simp [(front.holding _ List.mem_cons_self).head_mem])))
  have small := inv.accepted.le
  rw [inv.size,element,Returned.element,head]
  exact ⟨rfl,int16_cast _ (by omega)⟩

/-- The inner loop takes one element: it releases the chain of the request the element
names and invokes the completion that the request was submitted with. -/
theorem MachineInv.invoked (inv : MachineInv n lost m) (quiet : m.submitting = none)
    (oldest : m.returned[m.log.length]? = some entry) (next : index = m.log.length % 65536) :
    ∃ q', releaseChain clearCompleted m.queue.numEntries
        (int16 (m.queue.usedRing.ring (index % m.queue.numEntries)).descriptorId) m.queue = some q' ∧
      m.queue.completion (m.queue.usedRing.ring (index % m.queue.numEntries)).descriptorId =
        entry.fetched.request.completion ∧
      (m.queue.usedRing.ring (index % m.queue.numEntries)).writtenBytes = entry.writtenBytes ∧
      (∃ descs, Agree descs m.queue q') ∧
      ∃ free, Partition n q' free m.later lost := by
  obtain ⟨free,partition⟩ := inv.partition
  obtain ⟨element,head⟩ := inv.element quiet oldest next
  have front := partition.permute (Machine.inflight_oldest quiet oldest)
  have holding := front.holding _ List.mem_cons_self
  obtain ⟨q',released,smaller,agree⟩ := front.release neutral_clearCompleted inv.accepted.le
  rw [element]
  simp only [head]
  rw [inv.size]
  exact ⟨q',released,holding.completion,trivial,⟨_,agree⟩,_,smaller⟩

def workLeft (pending : Nat) : ProcessPosition → Nat
  | .poll => 6 * pending + 3
  | .unmask _ => 6 * pending + 2
  | .recheck _ => 6 * pending + 1
  | .batch current next => 6 * pending + if next = current then 4 else 0
  | .action _ _ => 6 * pending + 5

/-- What one step of a processing call does. The call is never stuck, it gets closer to
its end, and it returns only when everything the device has returned is processed. -/
structure Progress (n : Nat) (lost : List Nat) (m : Machine) (call : ProcessCall)
    (result : ProcessResult) : Prop where
  taken : processCompletedRequestsInVirtqueue m.queue call = some result
  kept : MachineInv n lost (m.processed call result)
  caughtUp : result.position = none → result.invoked = none ∧ m.log.length = m.returned.length
  conserved : m.completions.Perm (m.processed call result).completions
  less : ∀ place, result.position = some place →
    workLeft (m.returned.length - (m.log ++ result.invoked.toList).length) place <
      workLeft (m.returned.length - m.log.length) call.position

theorem Machine.completions_silent (m : Machine) (call : ProcessCall) (q' : VirtioVirtqueue)
    (place : Option ProcessPosition) :
    m.completions.Perm (m.processed call ⟨q',place,none⟩).completions := by
  simp [Machine.completions,Machine.processed,Machine.inflight,Machine.unconsumed,
    Machine.unprocessed]

theorem inflight_invoked {m : Machine} (quiet : m.submitting = none) :
    (m.processed call ⟨q',place,some invocation⟩).inflight = m.later := by
  simp [Machine.processed,Machine.inflight,Machine.later,Machine.unconsumed,Machine.unprocessed,
    quiet,unpublished]

/-- The inner loop goes on only if there is an element left. -/
theorem Machine.oldest {m : Machine} (index : next = m.log.length % 65536)
    (value : current = seen % 65536) (least : m.log.length ≤ seen)
    (most : seen ≤ m.returned.length) (more : next ≠ current) :
    m.log.length < seen ∧ ∃ entry, m.returned[m.log.length]? = some entry := by
  have ahead : m.log.length < seen := by
    rcases Nat.eq_or_lt_of_le least with same | ahead
    · exact absurd (by rw [index,value,same]) more
    · exact ahead
  exact ⟨ahead,_,List.getElem?_eq_getElem (show m.log.length < m.returned.length by omega)⟩

theorem MachineInv.progress_invoke (inv : MachineInv n lost m) (quiet : m.submitting = none)
    (index : next = m.log.length % 65536) (value : current = seen % 65536)
    (least : m.log.length ≤ seen) (most : seen ≤ m.returned.length) (more : next ≠ current) :
    ∃ result, Progress n lost m ⟨limit,0,.batch current next⟩ result := by
  obtain ⟨ahead,entry,oldest⟩ := Machine.oldest index value least most more
  obtain ⟨q',released,completion,written,⟨descs,agree⟩,free,partition⟩ :=
    inv.invoked quiet oldest index
  have unlimited : limit = 0 ∨ 0 < limit := by omega
  refine ⟨⟨q',some (.action current next),some entry.invocation⟩,?_,
    ⟨inv.accepted,⟨free,?_⟩,?_,?_,⟨rfl,?_,seen,value,?_,most⟩,inv.attribution,?_,
      inv.notify.woken⟩,by simp,?_,?_⟩
  · simp only [processCompletedRequestsInVirtqueue]
    rw [if_pos ⟨more,unlimited⟩,released,completion,written]
    rfl
  · rw [inflight_invoked quiet]
    exact partition
  · simpa [Machine.processed,agree.availableRing] using inv.available
  · simpa [Machine.processed,agree.usedRing] using inv.used.invoke oldest
  · simp only [Machine.processed,Option.toList_some,List.length_append,List.length_singleton]
    omega
  · simp only [Machine.processed,Option.toList_some,List.length_append,List.length_singleton]
    omega
  · simpa [Machine.processed,notifies,agree.usedRing] using inv.notify.clear
  · have moved := (Machine.inflight_oldest quiet oldest).map Request.completion
    rw [Machine.completions,Machine.completions,inflight_invoked quiet]
    refine (moved.append_left _).trans ?_
    simp [Machine.processed,Returned.invocation]
  · simp only [Option.some.injEq,forall_eq',workLeft,if_neg more,Option.toList_some,
      List.length_append,List.length_singleton]
    omega

theorem MachineInv.processed (inv : MachineInv n lost m) (quiet : m.submitting = none)
    (busy : m.processing = some call) : ∃ result, Progress n lost m call result := by
  obtain ⟨limit,total,place⟩ := call
  have position := inv.position
  rw [busy] at position
  obtain ⟨rfl,position⟩ := position
  have behind := inv.used.processed
  have zero := uint16Sub_eq_zero behind inv.unprocessed_near
  rw [← inv.used.headIndex] at zero
  have seen : ∃ seen, m.queue.usedRing.headIndex = seen % 65536 ∧ m.log.length ≤ seen ∧
      seen ≤ m.returned.length := ⟨m.returned.length,inv.used.headIndex,behind,Nat.le_refl _⟩
  have fresh (ahead : m.returned.length ≠ m.log.length) :
      ¬m.log.length % 65536 = m.queue.usedRing.headIndex := fun same =>
    ahead (zero.mp (by rw [← same]; simp [uint16Sub]))
  cases place with
  | poll =>
    have last : m.queue.usedRingLastHeadIndex = m.log.length % 65536 := position
    by_cases caught : m.returned.length = m.log.length
    · refine ⟨⟨m.queue,some (.unmask _),none⟩,?_,
        inv.moved _ _ (some (.unmask _)) rfl rfl rfl rfl rfl rfl rfl ⟨rfl,last,rfl⟩,by simp,
        m.completions_silent _ _ _,?_⟩
      · simp [processCompletedRequestsInVirtqueue,last,zero,caught]
      · simp [workLeft]
    · refine ⟨⟨m.queue,some (.batch _ _),none⟩,?_,
        inv.moved _ _ (some (.batch _ _)) rfl rfl rfl rfl rfl rfl rfl ⟨rfl,rfl,seen⟩,by simp,
        m.completions_silent _ _ _,?_⟩
      · simp [processCompletedRequestsInVirtqueue,limitReached_zero,last,zero,caught]
      · simp [workLeft,fresh caught]
  | unmask next =>
    refine ⟨_,rfl,?_,by simp,m.completions_silent _ _ _,by simp [workLeft]⟩
    split
    · exact inv.moved _ _ (some (.recheck next)) rfl rfl rfl rfl rfl rfl rfl ⟨rfl,position⟩
    · exact inv.moved _ _ (some (.recheck next)) rfl rfl rfl rfl rfl rfl rfl ⟨rfl,position⟩
  | recheck next =>
    obtain ⟨last,rfl⟩ := position
    by_cases caught : m.returned.length = m.log.length
    · refine ⟨⟨m.queue,none,none⟩,?_,inv.moved _ _ none rfl rfl rfl rfl rfl rfl rfl last,
        fun _ => ⟨rfl,caught.symm⟩,m.completions_silent _ _ _,by simp⟩
      simp [processCompletedRequestsInVirtqueue,last,zero,caught]
    · refine ⟨⟨m.queue,some (.batch _ _),none⟩,?_,
        inv.moved _ _ (some (.batch _ _)) rfl rfl rfl rfl rfl rfl rfl ⟨rfl,rfl,seen⟩,by simp,
        m.completions_silent _ _ _,?_⟩
      · simp [processCompletedRequestsInVirtqueue,limitReached_zero,last,zero,caught]
      · simp [workLeft,fresh caught]
  | batch current next =>
    obtain ⟨index,seen,value,least,most⟩ := position
    by_cases done : next = current
    · refine ⟨_,if_neg (fun more => more.1 done),
        inv.moved _ _ (some .poll) rfl rfl rfl rfl rfl rfl rfl ⟨rfl,index⟩,by simp,
        m.completions_silent _ _ _,?_⟩
      simp [workLeft,done]
    exact inv.progress_invoke quiet index value least most done
  | action current next =>
    refine ⟨_,rfl,inv.moved _ _ (some (.batch _ _)) rfl rfl rfl rfl rfl rfl rfl ⟨rfl,position⟩,
      by simp,m.completions_silent _ _ _,?_⟩
    simp only [Option.some.injEq,forall_eq',workLeft,Option.toList_none,List.append_nil]
    split <;> omega

theorem MachineInv.advance (inv : MachineInv n lost m) (taken : m.advance = some m') :
    MachineInv n lost m' ∧
      (m'.processing = none → m'.log.length = m'.returned.length) := by
  obtain ⟨quiet,call,result,busy,moved,rfl⟩ := Machine.advance_cases taken
  obtain ⟨result',progress⟩ := inv.processed quiet busy
  obtain rfl : result = result' := Option.some.inj (moved.symm.trans progress.taken)
  refine ⟨progress.kept,fun returned => ?_⟩
  obtain ⟨silent,all⟩ := progress.caughtUp (by simpa [Machine.processed] using returned)
  simpa [Machine.processed,silent] using all

/-- Submissions do not corrupt the unused list. -/
def Sound (m : Machine) (a : Action) : Prop :=
  ∀ call, a = .submit call → ¬Corrupting m.queue call

/-- Submissions succeed or are turned away before they reserve a descriptor. -/
def Gentle (m : Machine) (a : Action) : Prop :=
  ∀ call, a = .submit call → Succeeds m.queue call ∨ RefusedEarly m.queue call

theorem MachineInv.keeps (inv : MachineInv n lost m) (taken : step a m = some m')
    (allowed : Sound m a ∨ Gentle m a) :
    ∃ more, MachineInv n (more ++ lost) m' ∧ (Gentle m a → more = []) := by
  cases a with
  | submit call =>
    have sound : RefusedEarly m.queue call ∨ ¬Corrupting m.queue call := by
      rcases allowed with sound | gentle
      · exact .inr (sound call rfl)
      · rcases gentle call rfl with succeeds | refused
        · exact .inr succeeds.not_corrupting
        · exact .inl refused
    obtain ⟨more,kept,none⟩ := inv.submit sound taken
    exact ⟨more,kept,fun gentle => none (gentle call rfl)⟩
  | publish => exact ⟨[],inv.publish taken,fun _ => rfl⟩
  | process limit => exact ⟨[],inv.process taken,fun _ => rfl⟩
  | advance => exact ⟨[],(inv.advance taken).1,fun _ => rfl⟩
  | fetch => exact ⟨[],inv.fetch taken,fun _ => rfl⟩
  | complete => exact ⟨[],inv.complete taken,fun _ => rfl⟩
  | suppress => exact ⟨[],inv.suppress taken,fun _ => rfl⟩
  | enable => exact ⟨[],inv.enable taken,fun _ => rfl⟩
  | recheck => exact ⟨[],inv.recheck taken,fun _ => rfl⟩
  | kick => exact ⟨[],inv.kick taken,fun _ => rfl⟩

open Runs

theorem machineInv_run (inv : MachineInv n lost m) (run : Run step Sound m actions m') :
    ∃ lost', MachineInv n lost' m' := by
  refine Run.keeps (fun m => ∃ lost, MachineInv n lost m) ?_ run ⟨lost,inv⟩
  rintro m a next sound taken ⟨lost,inv⟩
  obtain ⟨more,kept,_⟩ := inv.keeps taken (.inl sound)
  exact ⟨_,kept⟩

theorem machineInv_gentle (inv : MachineInv n [] m)
    (run : Run step Gentle m actions m') : MachineInv n [] m' := by
  refine Run.keeps (MachineInv n []) ?_ run inv
  intro m a next gentle taken inv
  obtain ⟨more,kept,none⟩ := inv.keeps taken (.inr gentle)
  rwa [none gentle] at kept

end VirtioOsx

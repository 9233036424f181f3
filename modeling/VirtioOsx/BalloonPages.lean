import Mathlib.Data.List.Count
import VirtioOsx.BalloonBuffers

/-! The pages that the host counts as ballooned and those that the guest keeps aside. The
host goes by the requests it has accepted, the guest by the buffers in its arrays. -/
namespace VirtioOsx

open Runs

/-- Where the buffers are in physical memory: the number of each of their pages, all of
them below 2^44 bytes. -/
structure PhysicalPages where
  number : Nat → Nat → Nat
  below : ∀ buffer page, number buffer page < 2^32

def BalloonCalls.Located (calls : BalloonCalls) (physical : PhysicalPages) : Prop :=
  ∀ buffer page, page < bigChunkPages → calls.Granted buffer page →
    (calls.getPhysicalSegment buffer (page * pageSize)).1 / 4096 = physical.number buffer page

/-- The host's account: pages of accepted inflations come in, those of accepted deflations go. -/
def hostStep (host : List Nat) : BalloonEvent → List Nat
  | .submitted .inflate pages => host ++ pages
  | .submitted .deflate pages => host.diff pages
  | _ => host

def hostPages (trace : List BalloonEvent) : List Nat := trace.foldl hostStep []

theorem hostPages_append (trace events : List BalloonEvent) :
    hostPages (trace ++ events) = events.foldl hostStep (hostPages trace) :=
  List.foldl_append

theorem foldl_silent (events : List BalloonEvent) (silent : ∀ event ∈ events, event.Silent)
    (host : List Nat) : events.foldl hostStep host = host := by
  induction events with
  | nil => rfl
  | cons event events ih =>
    have quiet := silent event List.mem_cons_self
    have same : hostStep host event = host := by
      cases event with
      | submitted queue pages => exact absurd rfl (quiet queue pages)
      | subtracted | setLength | removed | nullBuffer => rfl
    rw [List.foldl_cons,same]
    exact ih fun other member => silent other (List.mem_cons_of_mem event member)

def PhysicalPages.listing (physical : PhysicalPages) (pages chunks : List Nat) : List Nat :=
  pages.map (fun buffer => physical.number buffer 0) ++
    chunks.flatMap fun chunk => (List.range bigChunkPages).map (physical.number chunk)

/-- The guest's account: every page of the buffers in the balloon. -/
def VirtioMemBalloonDevice.guestPages (d : VirtioMemBalloonDevice) (physical : PhysicalPages) :
    List Nat :=
  physical.listing d.pageBuffers d.bigChunkBuffers

theorem pageNumber_eq {calls : BalloonCalls} {page : Nat} (located : calls.Located physical)
    (inside : page < bigChunkPages) (granted : calls.Granted buffer page) :
    calls.pageNumber buffer page = physical.number buffer page := by
  rw [BalloonCalls.pageNumber,located buffer page inside granted]
  exact Nat.mod_eq_of_lt (physical.below buffer page)

theorem listing_eq {calls : BalloonCalls} (located : calls.Located physical)
    (pagesGranted : ∀ buffer ∈ pages, calls.Granted buffer 0)
    (chunksGranted : ∀ chunk ∈ chunks, ∀ page < bigChunkPages, calls.Granted chunk page) :
    calls.listing pages chunks = physical.listing pages chunks := by
  have singles : pages.map (fun buffer => calls.pageNumber buffer 0) =
      pages.map fun buffer => physical.number buffer 0 := by
    apply List.map_congr_left
    intro buffer member
    exact pageNumber_eq located (by decide) (pagesGranted buffer member)
  have whole : chunks.flatMap calls.chunkNumbers =
      chunks.flatMap fun chunk => (List.range bigChunkPages).map (physical.number chunk) := by
    apply List.flatMap_congr
    intro chunk member
    apply List.map_congr_left
    intro page within
    have inside := List.mem_range.mp within
    exact pageNumber_eq located inside (chunksGranted chunk member page inside)
  rw [BalloonCalls.listing,PhysicalPages.listing,singles,whole]

theorem count_listing (physical : PhysicalPages) (pages pages' chunks chunks' : List Nat) (p : Nat) :
    (physical.listing (pages ++ pages') (chunks ++ chunks')).count p =
      (physical.listing pages chunks).count p + (physical.listing pages' chunks').count p := by
  simp only [PhysicalPages.listing,List.map_append,List.flatMap_append,List.count_append]
  omega

theorem count_listing_reverse (physical : PhysicalPages) (pages chunks : List Nat) (p : Nat) :
    (physical.listing pages.reverse chunks).count p = (physical.listing pages chunks).count p := by
  simp only [PhysicalPages.listing,List.map_reverse,List.count_append,List.count_reverse]

open VirtioMemBalloonDevice

theorem VirtioMemBalloonDevice.Unsubmitted.host {d d' : VirtioMemBalloonDevice} (unsubmitted : Unsubmitted d d') :
    hostPages d'.trace = hostPages d.trace := by
  obtain ⟨events,silent,traced⟩ := unsubmitted.trace
  rw [traced,hostPages_append,foldl_silent events silent]

theorem VirtioMemBalloonDevice.Submits.host {d d' : VirtioMemBalloonDevice} (submits : Submits d d' queue pages) :
    hostPages d'.trace = hostStep (hostPages d.trace) (.submitted queue pages) := by
  obtain ⟨events,silent,traced⟩ := submits.trace
  rw [traced,hostPages_append,hostPages_append,foldl_silent events silent]
  rfl

/-- An accepted inflation adds the pages of its new buffers on both sides. -/
theorem VirtioMemBalloonDevice.Inflated.agrees {d d' : VirtioMemBalloonDevice} (inflated : Inflated calls count d d')
    (located : calls.Located physical) (granted : calls.GrantsAll d.created count)
    (agrees : (hostPages d.trace).Perm (d.guestPages physical)) :
    (hostPages d'.trace).Perm (d'.guestPages physical) := by
  have listed := listing_eq located granted.1 granted.2
  rw [inflated.submits.host,listed,List.perm_iff_count]
  intro p
  have same := agrees.count_eq p
  simp only [hostStep,guestPages,inflated.pageBuffers,inflated.bigChunkBuffers,List.count_append,
    count_listing] at same ⊢
  omega

theorem VirtioMemBalloonDevice.Moved.agrees {d d' : VirtioMemBalloonDevice} (moved : Moved d d' pages chunks)
    (submits : Submits d d' .deflate (calls.listing pages chunks))
    (located : calls.Located physical) (held : GrantsHeld calls d)
    (agrees : (hostPages d.trace).Perm (d.guestPages physical)) :
    (hostPages d'.trace).Perm (d'.guestPages physical) := by
  have listed : calls.listing pages chunks = physical.listing pages chunks := by
    apply listing_eq located
    · intro buffer member
      exact held.pages buffer (by rw [moved.pageBuffers]; simp [member])
    · intro chunk member
      exact held.chunks chunk (by rw [moved.bigChunkBuffers]; simp [member])
  rw [submits.host,listed,List.perm_iff_count]
  intro p
  have same := agrees.count_eq p
  rw [guestPages,moved.pageBuffers,moved.bigChunkBuffers,count_listing,count_listing_reverse] at same
  simp only [hostStep,guestPages,List.count_diff]
  omega

/-- What a step relies on: the buffers that the balloon holds after it are apart in physical
memory, segments are where the buffers are, and a deflation is submitted. Inflations may
fail anywhere. -/
def Placed (physical : PhysicalPages) (s : BalloonSystem) (a : BalloonAction) : Prop :=
  (∀ s', balloonStep a s = some s' → (s'.device.guestPages physical).Nodup) ∧
  ∀ calls, a = .act calls → calls.Located physical ∧
    ∀ target count, s.position = .acting target → s.device.plan target = .deflate count →
      GrantsHeld calls s.device

structure PagesInv (physical : PhysicalPages) (s : BalloonSystem) : Prop where
  bounds : BalloonBounds s
  flight : (s.device.inflateDeflateInProgress = false ∧ s.device.outstanding = []) ∨
    (s.device.inflateDeflateInProgress = true ∧ ∃ request, s.device.outstanding = [request])
  agrees : (hostPages s.device.trace).Perm (s.device.guestPages physical)
  distinct : (s.device.guestPages physical).Nodup

theorem plan_idle {d : VirtioMemBalloonDevice} (moves : d.plan target ≠ .nothing) :
    d.inflateDeflateInProgress = false := by
  by_contra busy
  apply moves
  rw [plan,if_pos (.inl (by simpa using busy))]

/-- What a check changes of the two accounts. -/
theorem PagesInv.planned {d d' : VirtioMemBalloonDevice}
    (flight : (d.inflateDeflateInProgress = false ∧ d.outstanding = []) ∨
      (d.inflateDeflateInProgress = true ∧ ∃ request, d.outstanding = [request]))
    (agrees : (hostPages d.trace).Perm (d.guestPages physical))
    (located : calls.Located physical)
    (deflates : ∀ count, d.plan target = .deflate count → GrantsHeld calls d)
    (planned : Planned calls d d' (d.plan target)) :
    ((d'.inflateDeflateInProgress = false ∧ d'.outstanding = []) ∨
      (d'.inflateDeflateInProgress = true ∧ ∃ request, d'.outstanding = [request])) ∧
    (hostPages d'.trace).Perm (d'.guestPages physical) := by
  have free : d.plan target ≠ .nothing → d.outstanding = [] := by
    intro moves
    have idle := plan_idle moves
    rcases flight with ⟨_,free⟩ | ⟨busy,_⟩
    · exact free
    · rw [idle] at busy
      cases busy
  cases decided : d.plan target with
  | nothing =>
    rw [decided] at planned
    obtain rfl : d' = d := planned
    exact ⟨flight,agrees⟩
  | inflate count =>
    have free := free (by simp [decided])
    rw [decided] at planned
    dsimp only [Planned] at planned
    split at planned
    · rename_i accepted
      have alone := planned.submits.outstanding
      rw [free,List.nil_append] at alone
      exact ⟨.inr ⟨planned.submits.inProgress,_,alone⟩,planned.agrees located accepted.1 agrees⟩
    · refine ⟨.inl ⟨planned.inProgress,planned.unsubmitted.outstanding.trans free⟩,?_⟩
      rw [planned.unsubmitted.host,guestPages,planned.pageBuffers,planned.bigChunkBuffers]
      exact agrees
  | deflate count =>
    have free := free (by simp [decided])
    have held := deflates count decided
    rw [decided] at planned
    obtain ⟨pages,chunks,moved,outcome⟩ := planned
    have submits := outcome.resolve_right fun failed => failed.2 held
    have alone := submits.outstanding
    rw [free,List.nil_append] at alone
    exact ⟨.inr ⟨moved.inProgress,_,alone⟩,moved.agrees submits located held agrees⟩

theorem PagesInv.keeps (placed : Placed physical s a) (taken : balloonStep a s = some s')
    (inv : PagesInv physical s) : PagesInv physical s' := by
  have distinct := placed.1 s' taken
  have bounds := inv.bounds.keeps taken
  by_cases acting : ∃ calls, a = .act calls
  · obtain ⟨calls,rfl⟩ := acting
    obtain ⟨located,deflates⟩ := placed.2 calls rfl
    obtain ⟨target,position,rfl⟩ := BalloonSystem.act_cases taken
    have planned := inflateDeflateIfNecessary_planned calls s.device inv.bounds.fits
      (inv.bounds.acting target position)
    obtain ⟨flight,agrees⟩ := PagesInv.planned inv.flight inv.agrees located
      (fun count => deflates target count position) planned
    exact ⟨bounds,flight,agrees,distinct⟩
  by_cases completing : ∃ deviceReset, a = .completion deviceReset
  · obtain ⟨deviceReset,rfl⟩ := completing
    obtain ⟨request,rest,_,waiting,rfl⟩ := BalloonSystem.completion_cases taken
    have alone : rest = [] := by
      rcases inv.flight with ⟨_,free⟩ | ⟨_,other,flight⟩
      · rw [free] at waiting
        cases waiting
      · rw [flight] at waiting
        exact (List.cons.inj waiting).2.symm
    obtain ⟨deflating,counts,returned⟩ := requestReturned_eq request.queue
      { s.device with outstanding := rest }
    rw [returned] at distinct bounds ⊢
    cases deviceReset with
    | true => exact ⟨bounds,.inl ⟨rfl,alone⟩,inv.agrees,distinct⟩
    | false => exact ⟨bounds,.inl ⟨rfl,alone⟩,inv.agrees,distinct⟩
  · obtain ⟨target,device⟩ := BalloonSystem.others_cases taken (not_exists.mp completing)
      (not_exists.mp acting)
    refine ⟨bounds,?_,?_,distinct⟩
    · rw [device]
      exact inv.flight
    · rw [device]
      exact inv.agrees

/-- Between requests the device has been told how many pages there are. -/
def Reported (s : BalloonSystem) : Prop :=
  s.device.outstanding = [] → s.device.actualPages = s.device.size.total

def afterReset (reset : Bool) : BalloonAction → Bool
  | .completion deviceReset => deviceReset
  | _ => reset

theorem Reported.keeps (placed : Placed physical s a) (taken : balloonStep a s = some s')
    (inv : PagesInv physical s) (reported : reset = false → Reported s)
    (running : afterReset reset a = false) : Reported s' := by
  by_cases acting : ∃ calls, a = .act calls
  · obtain ⟨calls,rfl⟩ := acting
    have reported := reported running
    obtain ⟨target,position,rfl⟩ := BalloonSystem.act_cases taken
    have planned := inflateDeflateIfNecessary_planned calls s.device inv.bounds.fits
      (inv.bounds.acting target position)
    intro free
    simp only at free ⊢
    cases decided : s.device.plan target with
    | nothing =>
      rw [decided] at planned
      rw [show s.device.inflateDeflateIfNecessary calls target = s.device from planned] at free ⊢
      exact reported free
    | inflate count =>
      rw [decided] at planned
      dsimp only [Planned] at planned
      split at planned
      · rw [planned.submits.outstanding] at free
        simp at free
      · rw [planned.unsubmitted.outstanding] at free
        rw [planned.aside.actual,reported free,total_parts,total_parts,planned.pageBuffers,
          planned.bigChunkBuffers]
    | deflate count =>
      have held := (placed.2 calls rfl).2 target count position decided
      rw [decided] at planned
      obtain ⟨pages,chunks,moved,outcome⟩ := planned
      have submits := outcome.resolve_right fun failed => failed.2 held
      rw [submits.outstanding] at free
      simp at free
  by_cases completing : ∃ deviceReset, a = .completion deviceReset
  · obtain ⟨deviceReset,rfl⟩ := completing
    obtain ⟨request,rest,_,waiting,rfl⟩ := BalloonSystem.completion_cases taken
    cases deviceReset with
    | true => cases running
    | false =>
      obtain ⟨deflating,counts,returned⟩ := requestReturned_eq request.queue
        { s.device with outstanding := rest }
      intro _
      rw [if_neg (by simp),returned]
      exact totalPagesAllocated_eq inv.bounds.fits
  · obtain ⟨target,device⟩ := BalloonSystem.others_cases taken (not_exists.mp completing)
      (not_exists.mp acting)
    have unchanged : afterReset reset a = reset := by
      cases a with
      | completion deviceReset => exact absurd ⟨deviceReset,rfl⟩ completing
      | hostWrites | callback | readTarget | act => rfl
    intro free
    rw [device] at free ⊢
    exact reported (unchanged.symm.trans running) free

/-- Calls for buffers side by side in memory. Of the buffers from `missing` on, none has a
physical segment. -/
def sideBySide (missing : Nat) : BalloonCalls :=
  ⟨fun buffer offset => if buffer < missing then ((buffer + 1) * 2^21 + offset, 4096) else (0, 0),
    .success⟩

/-- An inflation by two pages fails at the second one, is tried again when the host writes
its target once more, and one of the pages goes back. -/
def retried : List BalloonAction :=
  [.readTarget, .act (sideBySide 1), .hostWrites 2, .callback, .readTarget, .act (sideBySide 1000),
    .completion false, .readTarget, .act (sideBySide 1000), .hostWrites 1, .callback, .readTarget,
    .act (sideBySide 1000), .completion false]

end VirtioOsx

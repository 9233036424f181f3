import VirtioOsx.BalloonBuffers

/-! What a deflation leaves behind when one of its calls fails. An inflation that fails is
undone; a deflation is not, unless it is one that begins with an inflation. -/
namespace VirtioOsx

open Runs

namespace VirtioMemBalloonDevice

/-- The pages whose physical segments a check asks for, in turn, each with its buffer. -/
def askedPages (d : VirtioMemBalloonDevice) (target : Nat) : List (Nat × Nat) :=
  match d.plan target with
  | .nothing => []
  | .inflate count =>
    (freshPages d.created count).map (·, 0) ++
      (freshChunks d.created count).flatMap fun chunk => (List.range bigChunkPages).map (chunk, ·)
  | .deflate count =>
    if bigChunkPages ≤ count ∧ d.bigChunkBuffers ≠ [] then
      d.bigChunkBuffers.getLast?.toList.flatMap fun chunk =>
        (List.range bigChunkPages).map (chunk, ·)
    else (d.pageBuffers.reverse.take (min count bigChunkPages)).map (·, 0)

/-- A check that is to take pages out of the balloon, and does not get as far as to tell the
device: a page has no physical segment, or the submission fails. -/
structure DeflationFails (calls : BalloonCalls) (target : Nat) (d : VirtioMemBalloonDevice) :
    Prop where
  idle : d.inflateDeflateInProgress = false
  smaller : target < d.totalPagesAllocated
  fails : (∃ asked ∈ d.askedPages target, ¬calls.Granted asked.1 asked.2) ∨
    calls.submitBuffersToVirtqueue ≠ .success

structure LeftIntact (d d' : VirtioMemBalloonDevice) : Prop where
  usable : d'.inflateDeflateInProgress = false
  pageBuffers : d'.pageBuffers = d.pageBuffers
  bigChunkBuffers : d'.bigChunkBuffers = d.bigChunkBuffers
  nothingDeflating : d'.deflatingBuffers = []

/-- There are not enough single pages and less than a chunk is to go, so that the balloon has
to grow first. -/
def GrowsFirst (d : VirtioMemBalloonDevice) (target : Nat) : Prop :=
  d.totalPagesAllocated - target < bigChunkPages ∧
    d.pageBuffers.length < d.totalPagesAllocated - target

variable {calls : BalloonCalls} {d : VirtioMemBalloonDevice}

theorem DeflationFails.plan (fails : d.DeflationFails calls target) (fits : d.size.total < 2^32) :
    (d.GrowsFirst target ∧ d.plan target = .inflate (bigChunkPages - (d.size.total - target))) ∨
    (¬d.GrowsFirst target ∧ d.plan target = .deflate (d.size.total - target)) := by
  have unit : bigChunkPages = 512 := rfl
  have smaller := fails.smaller
  rw [totalPagesAllocated_eq fits] at smaller
  unfold GrowsFirst
  rw [totalPagesAllocated_eq fits,VirtioMemBalloonDevice.plan,
    if_neg (by simp only [fails.idle,Bool.false_eq_true,false_or]; omega),if_neg (by omega)]
  by_cases shrinks : bigChunkPages ≤ d.size.total - target ∧ d.bigChunkBuffers ≠ [] ∨
      d.size.total - target ≤ d.pageBuffers.length
  · rw [if_pos shrinks]
    refine .inr ⟨?_,rfl⟩
    omega
  · rw [if_neg shrinks]
    exact .inl ⟨near_target shrinks,rfl⟩

theorem DeflationFails.not_granted (fails : d.DeflationFails calls target)
    (planned : d.plan target = .inflate count) :
    ¬(calls.GrantsAll d.created count ∧ calls.submitBuffersToVirtqueue = .success) := by
  rintro ⟨⟨pages,chunks⟩,submitted⟩
  obtain ⟨asked,member,refused⟩ := fails.fails.resolve_right (not_not.mpr submitted)
  rw [askedPages,planned] at member
  rcases List.mem_append.mp member with single | big
  · obtain ⟨buffer,fresh,rfl⟩ := List.mem_map.mp single
    exact refused (pages buffer fresh)
  · obtain ⟨chunk,fresh,inside⟩ := List.mem_flatMap.mp big
    obtain ⟨page,below,rfl⟩ := List.mem_map.mp inside
    exact refused (chunks chunk fresh page (List.mem_range.mp below))

theorem submitDeflated_silent {calls : BalloonCalls}
    (failed : result ≠ .success ∨ calls.submitBuffersToVirtqueue ≠ .success)
    (d : VirtioMemBalloonDevice) : d.submitDeflated calls result = d := by
  by_cases listed : result = .success
  · rw [submitDeflated,if_pos listed,submit_refused (failed.resolve_left (not_not.mpr listed))]
  · rw [submitDeflated,if_neg listed]

theorem deflateMemBalloon_chunk_silent {d : VirtioMemBalloonDevice} (big : bigChunkPages ≤ count)
    (parts : d.bigChunkBuffers = front ++ [chunk]) (small : d.bigChunkBuffers.length < 2^32)
    (failed : (∃ page < bigChunkPages, ¬calls.Granted chunk page) ∨
      calls.submitBuffersToVirtqueue ≠ .success) :
    (d.deflateMemBalloon calls count).outstanding = d.outstanding := by
  obtain ⟨result,addresses,equal,_,success,_⟩ :=
    listChunk_spec calls chunk bigChunkPages 0 (d.chunkMoved front chunk)
  have unlisted : result ≠ .success ∨ calls.submitBuffersToVirtqueue ≠ .success := by
    refine failed.imp_left ?_
    rintro ⟨page,below,refused⟩ listed
    exact refused (success.mp listed page (Nat.zero_le _) (by omega))
  rw [deflateMemBalloon_chunk_eq calls big parts small,equal,submitDeflated_silent unlisted]
  rfl

theorem deflateMemBalloon_singles_silent {d : VirtioMemBalloonDevice}
    (single : ¬(bigChunkPages ≤ count ∧ d.bigChunkBuffers ≠ []))
    (enough : count ≤ d.pageBuffers.length) (small : d.pageBuffers.length < 2^32)
    (failed : (∃ buffer ∈ d.pageBuffers.reverse.take (min count bigChunkPages),
      ¬calls.Granted buffer 0) ∨ calls.submitBuffersToVirtqueue ≠ .success) :
    (d.deflateMemBalloon calls count).outstanding = d.outstanding := by
  have notChunk : ¬(count ≥ bigChunkPages ∧ d.begun.bigChunkBuffers.length > 0) :=
    fun ⟨big,chunks⟩ => single ⟨big,List.length_pos_iff.mp chunks⟩
  have few : ¬count > d.begun.pageBuffers.length := Nat.not_lt.mpr enough
  obtain ⟨result,kept,pages,addresses,events,_,_,equal,_,all,_⟩ :=
    deflatePages_spec calls (d.begun.setLength (min count bigChunkPages)) d.pageBuffers.length 0 rfl
      small ((Nat.min_le_left _ _).trans enough)
  have unlisted : result ≠ .success ∨ calls.submitBuffersToVirtqueue ≠ .success := by
    refine failed.imp_left ?_
    rintro ⟨buffer,member,refused⟩ listed
    exact refused (all.mp listed buffer member)
  have same : d.begun.pageBuffers.length = d.pageBuffers.length := rfl
  rw [deflateMemBalloon,if_neg notChunk,if_neg few]
  simp only [same,equal,submitDeflated_silent unlisted]
  rfl

/-- The device is not told of a deflation that fails. -/
theorem DeflationFails.silent (fails : d.DeflationFails calls target) (fits : d.size.total < 2^32)
    (shrinks : ¬d.GrowsFirst target) :
    (d.inflateDeflateIfNecessary calls target).outstanding = d.outstanding := by
  have parts := d.total_parts
  have smaller := fails.smaller
  rw [totalPagesAllocated_eq fits] at smaller
  have failed := fails.fails
  rcases fails.plan fits with ⟨grows,_⟩ | ⟨_,decided⟩
  · exact absurd grows shrinks
  have enough : bigChunkPages ≤ d.size.total - target ∧ d.bigChunkBuffers ≠ [] ∨
      d.size.total - target ≤ d.pageBuffers.length := by
    by_contra neither
    rw [VirtioMemBalloonDevice.plan,
      if_neg (by simp only [fails.idle,Bool.false_eq_true,false_or]; omega),if_neg (by omega),
      if_neg neither] at decided
    cases decided
  rw [askedPages,decided] at failed
  rw [inflateDeflateIfNecessary,totalPagesAllocated_eq fits,if_neg (by simp [fails.idle])]
  simp only [if_neg (show d.size.total ≠ target by omega),
    if_neg (show ¬d.size.total < target by omega),sub32_exact smaller.le fits]
  by_cases chunk : bigChunkPages ≤ d.size.total - target ∧ d.bigChunkBuffers ≠ []
  · obtain ⟨front,last,split⟩ := (List.eq_nil_or_concat' d.bigChunkBuffers).resolve_left chunk.2
    refine deflateMemBalloon_chunk_silent (d := d.log (.subtracted d.size.total target)) chunk.1 split
      (show d.bigChunkBuffers.length < _ by omega) (failed.imp_left ?_)
    rintro ⟨asked,member,refused⟩
    simp only [if_pos chunk] at member
    simp only [split,List.getLast?_concat,Option.toList_some,List.flatMap_singleton,List.mem_map,
      List.mem_range] at member
    obtain ⟨page,below,rfl⟩ := member
    exact ⟨page,below,refused⟩
  · refine deflateMemBalloon_singles_silent (d := d.log (.subtracted d.size.total target)) chunk
      (enough.resolve_left chunk) (show d.pageBuffers.length < _ by omega)
      (failed.imp_left ?_)
    rintro ⟨asked,member,refused⟩
    simp only [if_neg chunk,List.mem_map] at member
    obtain ⟨buffer,held,rfl⟩ := member
    exact ⟨buffer,held,refused⟩

end VirtioMemBalloonDevice

open VirtioMemBalloonDevice

theorem balloonBounds_run (run : Run balloonStep allowed (.start target due) actions s) :
    BalloonBounds s :=
  Run.keeps BalloonBounds (fun _ taken inv => inv.keeps taken) run (balloonBounds_start target due)

/-- A deflation that fails is undone exactly if the balloon had to grow first and no buffers
were waiting: an inflation is undone, and nothing else is. -/
theorem failed_deflation_intact_iff
    (run : Run balloonStep allowed (.start target due) actions s)
    (acting : s.position = .acting numPages) (fails : s.device.DeflationFails calls numPages) :
    ∃ s', balloonStep (.act calls) s = some s' ∧
      (LeftIntact s.device s'.device ↔
        s.device.GrowsFirst numPages ∧ s.device.deflatingBuffers = []) := by
  have bounds := balloonBounds_run run
  have taken : balloonStep (.act calls) s = some { s with
      device := s.device.inflateDeflateIfNecessary calls numPages
      position := .idle } := by
    simp only [balloonStep,BalloonSystem.act,acting]
  refine ⟨_,taken,?_⟩
  have planned := inflateDeflateIfNecessary_planned calls s.device bounds.fits
    (bounds.acting numPages acting)
  rcases fails.plan bounds.fits with ⟨grows,decided⟩ | ⟨shrinks,decided⟩
  · rw [decided] at planned
    dsimp only [Planned] at planned
    rw [if_neg (fails.not_granted decided)] at planned
    constructor
    · intro intact
      exact ⟨grows,planned.deflatingBuffers.symm.trans intact.nothingDeflating⟩
    · rintro ⟨_,nothing⟩
      exact ⟨planned.inProgress,planned.pageBuffers,planned.bigChunkBuffers,
        planned.deflatingBuffers.trans nothing⟩
  · rw [decided] at planned
    obtain ⟨pages,chunks,moved,_⟩ := planned
    constructor
    · intro intact
      have usable := intact.usable
      simp only at usable
      rw [moved.inProgress] at usable
      cases usable
    · rintro ⟨grows,_⟩
      exact absurd grows shrinks

structure AtMostOne (d : VirtioMemBalloonDevice) : Prop where
  idle : d.inflateDeflateInProgress = false → d.outstanding = []
  one : d.outstanding.length ≤ 1

theorem AtMostOne.planned {d d' : VirtioMemBalloonDevice} (inv : AtMostOne d)
    (planned : Planned calls d d' (d.plan target)) : AtMostOne d' := by
  by_cases busy : d.inflateDeflateInProgress = true
  · rw [plan,if_pos (.inl busy)] at planned
    obtain rfl : d' = d := planned
    exact inv
  have free := inv.idle (Bool.eq_false_iff.mpr busy)
  cases decided : d.plan target with
  | nothing =>
    rw [decided] at planned
    obtain rfl : d' = d := planned
    exact inv
  | inflate count =>
    rw [decided] at planned
    dsimp only [Planned] at planned
    split at planned
    · refine ⟨fun idle => ?_,by simp [planned.submits.outstanding,free]⟩
      rw [planned.submits.inProgress] at idle
      cases idle
    · have same := planned.unsubmitted.outstanding.trans free
      exact ⟨fun _ => same,by simp [same]⟩
  | deflate count =>
    rw [decided] at planned
    obtain ⟨pages,chunks,moved,outcome⟩ := planned
    refine ⟨fun idle => ?_,?_⟩
    · rw [moved.inProgress] at idle
      cases idle
    · rcases outcome with submits | ⟨unsubmitted,_⟩
      · simp [submits.outstanding,free]
      · simp [unsubmitted.outstanding,free]

theorem AtMostOne.keeps (bounds : BalloonBounds s) (taken : balloonStep a s = some s')
    (inv : AtMostOne s.device) : AtMostOne s'.device := by
  cases a with
  | completion deviceReset =>
    obtain ⟨request,rest,_,waiting,rfl⟩ := BalloonSystem.completion_cases taken
    have one := inv.one
    rw [waiting] at one
    obtain rfl : rest = [] := List.length_eq_zero_iff.mp (Nat.le_zero.mp (Nat.le_of_succ_le_succ one))
    split
    · exact ⟨fun _ => rfl,Nat.zero_le _⟩
    · obtain ⟨deflating,counts,returned⟩ := requestReturned_eq request.queue
        { s.device with outstanding := [] }
      rw [returned]
      exact ⟨fun _ => rfl,Nat.zero_le _⟩
  | act calls =>
    obtain ⟨numPages,position,rfl⟩ := BalloonSystem.act_cases taken
    exact inv.planned (inflateDeflateIfNecessary_planned calls s.device bounds.fits
      (bounds.acting numPages position))
  | _ =>
    obtain ⟨target,same⟩ := BalloonSystem.others_cases taken (by simp) (by simp)
    rw [same]
    exact ⟨inv.idle,inv.one⟩

theorem atMostOne_run (run : Run balloonStep allowed (.start target due) actions s) :
    AtMostOne s.device :=
  (Run.keeps (fun s => BalloonBounds s ∧ AtMostOne s.device)
    (fun _ taken inv => ⟨inv.1.keeps taken,inv.2.keeps inv.1 taken⟩) run
    ⟨balloonBounds_start target due,fun _ => rfl,Nat.zero_le _⟩).2

/-- A request is in progress that the device does not have. -/
structure Stuck (d : VirtioMemBalloonDevice) : Prop where
  inProgress : d.inflateDeflateInProgress = true
  outstanding : d.outstanding = []

/-- No step leads out of this: the flag is cleared only when a request completes. -/
theorem Stuck.step (stuck : Stuck s.device) (taken : balloonStep a s = some s') :
    ∃ target, s'.device = { s.device with numRequestedPages := target } := by
  cases a with
  | completion deviceReset =>
    obtain ⟨request,rest,_,waiting,_⟩ := BalloonSystem.completion_cases taken
    rw [stuck.outstanding] at waiting
    cases waiting
  | act calls =>
    obtain ⟨numPages,_,rfl⟩ := BalloonSystem.act_cases taken
    refine ⟨s.device.numRequestedPages,?_⟩
    simp only [inflateDeflateIfNecessary,if_pos stuck.inProgress]
  | _ => exact BalloonSystem.others_cases taken (by simp) (by simp)

theorem Stuck.run (stuck : Stuck s.device) (run : Run balloonStep allowed s actions s') :
    ∃ target, s'.device = { s.device with numRequestedPages := target } := by
  refine Run.keeps (fun s' => ∃ target, s'.device = { s.device with numRequestedPages := target })
    ?_ run ⟨_,rfl⟩
  rintro s₁ a s₂ _ taken ⟨target,same⟩
  have still : Stuck s₁.device := by
    rw [same]
    exact ⟨stuck.inProgress,stuck.outstanding⟩
  obtain ⟨target',same'⟩ := still.step taken
  exact ⟨target',by rw [same',same]⟩

/-- After any other deflation that fails, the driver does nothing any more, whatever the host
asks for. -/
theorem failed_deflation_stuck
    (run : Run balloonStep allowed (.start target due) actions s)
    (acting : s.position = .acting numPages) (fails : s.device.DeflationFails calls numPages)
    (shrinks : ¬s.device.GrowsFirst numPages)
    (later : Run balloonStep permitted { s with
      device := s.device.inflateDeflateIfNecessary calls numPages, position := .idle } rest final) :
    ∃ target, final.device = { s.device.inflateDeflateIfNecessary calls numPages with
      numRequestedPages := target } := by
  have bounds := balloonBounds_run run
  have planned := inflateDeflateIfNecessary_planned calls s.device bounds.fits
    (bounds.acting numPages acting)
  rcases fails.plan bounds.fits with ⟨grows,_⟩ | ⟨_,decided⟩
  · exact absurd grows shrinks
  rw [decided] at planned
  obtain ⟨pages,chunks,moved,_⟩ := planned
  have stuck : Stuck (s.device.inflateDeflateIfNecessary calls numPages) :=
    ⟨moved.inProgress,
      (fails.silent bounds.fits shrinks).trans ((atMostOne_run run).idle fails.idle)⟩
  exact Stuck.run stuck later

def refusedSubmission : BalloonCalls := { balloonSuccess with submitBuffersToVirtqueue := .noMemory }

/-- The balloon grows to a chunk and a page, and is then to have 500 pages. -/
def tooFewSingles : List BalloonAction :=
  [.readTarget, .act balloonSuccess, .completion false, .readTarget, .act balloonSuccess,
    .completion false, .readTarget, .act balloonSuccess, .hostWrites 500, .callback, .readTarget]

/-- It would first have to grow by 499 pages, which the device is not told of. -/
theorem failed_deflation_intact_tooFewSingles :
    ∃ s s', Run balloonStep (fun _ _ => True) (.start 513 false) tooFewSingles s ∧
      s.device.DeflationFails refusedSubmission 500 ∧
      balloonStep (.act refusedSubmission) s = some s' ∧ LeftIntact s.device s'.device := by
  have played : (play balloonStep (fun _ _ => true) tooFewSingles (.start 513 false)).map (fun s =>
      (s.position,s.device.inflateDeflateInProgress,s.device.totalPagesAllocated,
        s.device.pageBuffers.length,s.device.deflatingBuffers)) =
      some (.acting 500,false,513,1,[]) := by decide +kernel
  obtain ⟨s,played,seen⟩ := Option.map_eq_some_iff.mp played
  simp only [Prod.mk.injEq] at seen
  obtain ⟨acting,idle,total,singles,nothing⟩ := seen
  have run : Run balloonStep (fun _ _ => True) (.start 513 false) tooFewSingles s :=
    run_of_play (fun _ _ _ => trivial) played
  have fails : s.device.DeflationFails refusedSubmission 500 :=
    ⟨idle,by rw [total]; decide,.inr (by decide)⟩
  obtain ⟨s',taken,intact⟩ := failed_deflation_intact_iff run acting fails
  refine ⟨s,s',run,fails,taken,intact.mpr ⟨?_,nothing⟩⟩
  unfold GrowsFirst
  rw [total,singles]
  decide

def onePageOut : List BalloonAction :=
  [.readTarget, .act balloonSuccess, .completion false, .readTarget, .act balloonSuccess,
    .hostWrites 0, .callback, .readTarget]

/-- The page is gone from the balloon, and the request that is in progress does not exist. -/
theorem failed_deflation_not_undone :
    ∃ s s', Run balloonStep (fun _ _ => True) (.start 1 false) onePageOut s ∧
      s.position = .acting 0 ∧ s.device.DeflationFails refusedSubmission 0 ∧
      balloonStep (.act refusedSubmission) s = some s' ∧
      s.device.pageBuffers = [0] ∧ s'.device.pageBuffers = [] ∧ s'.device.deflatingBuffers = [0] ∧
      s'.device.inflateDeflateInProgress = true ∧ s'.device.outstanding = [] ∧
      ¬LeftIntact s.device s'.device := by
  have played : ((play balloonStep (fun _ _ => true) onePageOut (.start 1 false)).bind fun s =>
      (balloonStep (.act refusedSubmission) s).map fun s' =>
        ((s.position,s.device.inflateDeflateInProgress,s.device.totalPagesAllocated,
          s.device.pageBuffers),
        (s'.device.pageBuffers,s'.device.deflatingBuffers,s'.device.inflateDeflateInProgress,
          s'.device.outstanding.length))) =
      some ((.acting 0,false,1,[0]),([],[0],true,0)) := by decide +kernel
  obtain ⟨s,played,stepped⟩ := Option.bind_eq_some_iff.mp played
  obtain ⟨s',taken,seen⟩ := Option.map_eq_some_iff.mp stepped
  simp only [Prod.mk.injEq] at seen
  obtain ⟨⟨acting,idle,total,pages⟩,gone,moved,busy,nothing⟩ := seen
  refine ⟨s,s',run_of_play (fun _ _ _ => trivial) played,acting,
    ⟨idle,by rw [total]; decide,.inr (by decide)⟩,taken,pages,gone,moved,busy,
    List.length_eq_zero_iff.mp nothing,?_⟩
  intro intact
  rw [intact.usable] at busy
  cases busy

end VirtioOsx

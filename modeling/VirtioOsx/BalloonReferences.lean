import VirtioOsx.BalloonBuffers

/-! The references to the buffers of the balloon driver. Its arrays hold one reference for
each of their entries; the one that comes with the creation of a buffer is to be released
when the buffer has been listed. -/
namespace VirtioOsx

open Runs
open VirtioMemBalloonDevice

namespace VirtioMemBalloonDevice

def held (d : VirtioMemBalloonDevice) : List Nat :=
  d.pageBuffers ++ (d.bigChunkBuffers ++ d.deflatingBuffers)

def entries (d : VirtioMemBalloonDevice) (buffer : Nat) : Nat :=
  d.pageBuffers.count buffer + d.bigChunkBuffers.count buffer + d.deflatingBuffers.count buffer

theorem count_held (d : VirtioMemBalloonDevice) (buffer : Nat) :
    d.held.count buffer = d.entries buffer := by
  simp only [held,entries,List.count_append]
  omega

/-- Every buffer has exactly the references that the arrays hold. -/
def Balanced (d : VirtioMemBalloonDevice) : Prop := ∀ buffer, d.retainCount buffer = d.entries buffer

/-- No buffer is in two places, and none is still to be created. -/
structure HeldOnce (d : VirtioMemBalloonDevice) : Prop where
  nodup : d.held.Nodup
  known : ∀ buffer ∈ d.held, buffer < d.created

theorem HeldOnce.unknown {d : VirtioMemBalloonDevice} (once : HeldOnce d)
    (later : d.created ≤ buffer) : d.entries buffer = 0 := by
  rw [← count_held]
  apply List.count_eq_zero_of_not_mem
  intro member
  exact absurd (once.known buffer member) (by omega)

theorem fresh_bounds (member : buffer ∈ freshPages first count ++ freshChunks first count) :
    first ≤ buffer ∧
      buffer < first + ((freshPages first count).length + (freshChunks first count).length) := by
  by_cases big : bigChunkPages ≤ count
  · simp only [freshPages,freshChunks,if_pos big,List.nil_append,List.mem_singleton] at member ⊢
    simp [member]
  · simp only [freshPages,freshChunks,if_neg big,List.append_nil,List.mem_range'_1] at member ⊢
    simpa using member

theorem fresh_nodup (first count : Nat) :
    (freshPages first count ++ freshChunks first count).Nodup := by
  unfold freshPages freshChunks
  split
  · simp
  · simpa using List.nodup_range' 1

theorem Inflated.held_perm {d d' : VirtioMemBalloonDevice} (inflated : Inflated calls count d d') :
    d'.held.Perm (d.held ++ (freshPages d.created count ++ freshChunks d.created count)) := by
  rw [List.perm_iff_count]
  intro b
  simp only [held,inflated.pageBuffers,inflated.bigChunkBuffers,inflated.deflatingBuffers,
    List.count_append]
  omega

theorem Inflated.heldOnce {d d' : VirtioMemBalloonDevice} (inflated : Inflated calls count d d')
    (once : HeldOnce d) : HeldOnce d' := by
  have perm := inflated.held_perm
  constructor
  · rw [perm.nodup_iff,List.nodup_append]
    refine ⟨once.nodup,fresh_nodup _ _,?_⟩
    rintro b old _ new rfl
    have := once.known b old
    have := (fresh_bounds new).1
    omega
  · intro b member
    rw [inflated.created]
    rcases List.mem_append.mp (perm.mem_iff.mp member) with old | new
    · have := once.known b old
      omega
    · exact (fresh_bounds new).2

theorem Dropped.heldOnce {d d' : VirtioMemBalloonDevice} (dropped : Dropped calls count d d')
    (once : HeldOnce d) : HeldOnce d' := by
  have same : d'.held = d.held := by
    rw [held,dropped.pageBuffers,dropped.bigChunkBuffers,dropped.deflatingBuffers]
    rfl
  have created := dropped.created
  exact ⟨same ▸ once.nodup,fun b member => by
    have := once.known b (same ▸ member)
    omega⟩

theorem Moved.held_perm {d d' : VirtioMemBalloonDevice} (moved : Moved d d' pages chunks) :
    d'.held.Perm d.held := by
  rw [List.perm_iff_count]
  intro b
  simp only [held,moved.pageBuffers,moved.bigChunkBuffers,moved.deflatingBuffers,List.count_append,
    List.count_reverse]
  omega

theorem Moved.heldOnce {d d' : VirtioMemBalloonDevice} (moved : Moved d d' pages chunks)
    (once : HeldOnce d) : HeldOnce d' where
  nodup := moved.held_perm.nodup_iff.mpr once.nodup
  known b member := by
    rw [moved.created]
    exact once.known b (moved.held_perm.mem_iff.mp member)

theorem Moved.balanced {d d' : VirtioMemBalloonDevice} (moved : Moved d d' pages chunks)
    (balanced : Balanced d) : Balanced d' := by
  intro b
  rw [moved.retainCount,balanced b,← count_held,← count_held,moved.held_perm.count_eq]

/-- An inflation that has been told to the device is balanced if it is one by pages. -/
theorem Inflated.balanced_iff {d d' : VirtioMemBalloonDevice} (inflated : Inflated calls count d d')
    (once : HeldOnce d) (balanced : Balanced d) : Balanced d' ↔ count < bigChunkPages := by
  have counts (b : Nat) : d'.entries b =
      d.entries b + (freshPages d.created count ++ freshChunks d.created count).count b := by
    rw [← count_held,inflated.held_perm.count_eq,List.count_append,count_held]
  constructor
  · intro after
    by_contra many
    have big : bigChunkPages ≤ count := Nat.not_lt.mp many
    have chunk := after d.created
    rw [inflated.retainCount,counts,once.unknown (Nat.le_refl _)] at chunk
    simp [freshChunks,freshPages,big] at chunk
  · intro few b
    have singles : ¬bigChunkPages ≤ count := Nat.not_le.mpr few
    rw [inflated.retainCount,counts]
    simp only [freshChunks,freshPages,if_neg singles,List.not_mem_nil,if_false,List.append_nil,
      (List.nodup_range' 1).count]
    by_cases new : b ∈ List.range' d.created count
    · rw [if_pos new,if_pos new,once.unknown (List.mem_range'_1.mp new).1]
    · rw [if_neg new,if_neg new,balanced b,Nat.add_zero]

/-- An inflation that has been undone is balanced if it is one by pages all of which had
their physical segments. -/
theorem Dropped.balanced_iff {d d' : VirtioMemBalloonDevice} (dropped : Dropped calls count d d')
    (once : HeldOnce d) (balanced : Balanced d) :
    Balanced d' ↔ count < bigChunkPages ∧ calls.GrantsAll d.created count := by
  have counts (b : Nat) : d'.entries b = d.entries b := by
    rw [entries,dropped.pageBuffers,dropped.bigChunkBuffers,dropped.deflatingBuffers]
    rfl
  constructor
  · intro after
    by_contra leaks
    have leaks : bigChunkPages ≤ count ∨ ¬calls.GrantsAll d.created count := by
      by_cases few : count < bigChunkPages
      · exact .inr fun all => leaks ⟨few,all⟩
      · exact .inl (Nat.not_lt.mp few)
    have made := dropped.leaves leaks.symm
    have last := after (d'.created - 1)
    have inside : d.created ≤ d'.created - 1 ∧ d'.created - 1 < d'.created := by omega
    have ends : d'.created - 1 + 1 = d'.created := by omega
    rw [dropped.retainCount,counts,if_pos inside,if_pos ⟨ends,leaks⟩,
      once.unknown inside.1] at last
    omega
  · rintro ⟨few,all⟩ b
    have sound : ¬(bigChunkPages ≤ count ∨ ¬calls.GrantsAll d.created count) := by
      rintro (big | missing)
      · omega
      · exact missing all
    rw [dropped.retainCount,counts]
    split
    · rename_i inside
      rw [if_neg (fun both => sound both.2)]
      exact (once.unknown inside.1).symm
    · exact balanced b

theorem foldl_release_counts (buffers : List Nat) (d : VirtioMemBalloonDevice) :
    buffers.foldl release d =
      { d with retainCount := fun b => d.retainCount b - buffers.count b } := by
  induction buffers generalizing d with
  | nil => simp
  | cons buffer rest ih =>
    rw [List.foldl_cons,ih]
    simp only [release]
    congr 1
    funext b
    by_cases here : b = buffer
    · subst b
      rw [Function.update_self,List.count_cons_self]
      omega
    · rw [Function.update_of_ne here,List.count_cons_of_ne (Ne.symm here)]

theorem requestReturned_deflate (d : VirtioMemBalloonDevice) :
    d.requestReturned .deflate =
      { d with
        deflatingBuffers := []
        inflateDeflateInProgress := false
        actualPages := d.totalPagesAllocated
        retainCount := fun b => d.retainCount b - d.deflatingBuffers.count b } := by
  simp only [requestReturned,flushCollection,array,withArray]
  rw [foldl_release_counts]
  rfl

end VirtioMemBalloonDevice

/-- A step that creates no chunk, and no page without a physical segment. -/
def ReleasesAll (s : BalloonSystem) (a : BalloonAction) : Prop :=
  ∀ calls target count, a = .act calls → s.position = .acting target →
    s.device.plan target = .inflate count →
      count < bigChunkPages ∧ calls.GrantsAll s.device.created count

structure ReferenceInv (s : BalloonSystem) : Prop where
  bounds : BalloonBounds s
  once : HeldOnce s.device
  balanced : Balanced s.device

theorem referenceInv_start (target : Nat) (due : Bool) : ReferenceInv (.start target due) where
  bounds := balloonBounds_start target due
  once := ⟨List.nodup_nil,by simp [BalloonSystem.start,started,held]⟩
  balanced _ := rfl

/-- A buffer that has a reference loses its last one exactly if a deflation completes for
which it waits. -/
def FreedByFlush (s : BalloonSystem) (a : BalloonAction) (s' : BalloonSystem) : Prop :=
  ∀ buffer, s.device.retainCount buffer ≠ 0 →
    (s'.device.retainCount buffer = 0 ↔ a = .completion false ∧ buffer ∈ s.device.deflatingBuffers ∧
      s.device.outstanding.head?.map BalloonRequest.queue = some .deflate)

structure ReferenceStep (s : BalloonSystem) (a : BalloonAction) (s' : BalloonSystem) : Prop where
  once : HeldOnce s'.device
  balanced : Balanced s'.device ↔ ReleasesAll s a
  freed : ReleasesAll s a → FreedByFlush s a s'

/-- A step that leaves the arrays and the counts alone. -/
theorem ReferenceInv.unchanged (inv : ReferenceInv s) (releases : ReleasesAll s a)
    (held : s'.device.held = s.device.held) (created : s'.device.created = s.device.created)
    (entries : s'.device.entries = s.device.entries)
    (retainCount : s'.device.retainCount = s.device.retainCount)
    (keeps : a = .completion false →
      s.device.outstanding.head?.map BalloonRequest.queue ≠ some .deflate) :
    ReferenceStep s a s' where
  once := ⟨held ▸ inv.once.nodup,by rw [held,created]; exact inv.once.known⟩
  balanced := by
    refine iff_of_true (fun b => ?_) releases
    rw [retainCount,entries]
    exact inv.balanced b
  freed _ b alive := by
    rw [retainCount]
    exact iff_of_false alive fun both => keeps both.1 both.2.2

theorem not_releasing (releasing : ∀ calls, a ≠ .act calls) : ReleasesAll s a :=
  fun calls _ _ same => absurd same (releasing calls)

/-- While the counts are balanced, an entry that stays keeps its buffer. -/
theorem freed_by_none (balanced : Balanced s.device) (after : Balanced s'.device)
    (stays : ∀ b, s.device.entries b ≤ s'.device.entries b) (other : a ≠ .completion false) :
    FreedByFlush s a s' := by
  intro b alive
  rw [balanced b] at alive
  have kept := stays b
  rw [after b]
  exact iff_of_false (by omega) fun both => other both.1

theorem ReferenceInv.act (inv : ReferenceInv s) (taken : balloonStep (.act calls) s = some s') :
    ReferenceStep s (.act calls) s' := by
  obtain ⟨target,position,rfl⟩ := BalloonSystem.act_cases taken
  have planned := inflateDeflateIfNecessary_planned calls s.device inv.bounds.fits
    (inv.bounds.acting target position)
  have releases : ReleasesAll s (.act calls) ↔ ∀ count, s.device.plan target = .inflate count →
      count < bigChunkPages ∧ calls.GrantsAll s.device.created count := by
    constructor
    · exact fun all count decided => all calls target count rfl position decided
    · intro all calls' target' count same position' decided
      obtain rfl := BalloonAction.act.inj same
      rw [position] at position'
      obtain rfl := BalloonPosition.acting.inj position'
      exact all count decided
  generalize s.device.inflateDeflateIfNecessary calls target = d' at planned
  cases decided : s.device.plan target with
  | nothing =>
    rw [decided] at planned
    obtain rfl : d' = s.device := planned
    exact inv.unchanged (releases.mpr (by simp [decided])) rfl rfl rfl rfl (by simp)
  | inflate count =>
    have same : ReleasesAll s (.act calls) ↔
        count < bigChunkPages ∧ calls.GrantsAll s.device.created count := by
      simp [releases,decided]
    rw [decided] at planned
    dsimp only [Planned] at planned
    split at planned
    · rename_i accepted
      have balance := planned.balanced_iff inv.once inv.balanced
      refine ⟨planned.heldOnce inv.once,?_,fun sound => ?_⟩
      · rw [same,balance]
        exact ⟨fun few => ⟨few,accepted.1⟩,fun both => both.1⟩
      · apply freed_by_none inv.balanced (balance.mpr (same.mp sound).1) _ (by simp)
        intro b
        rw [← count_held,← count_held,planned.held_perm.count_eq,List.count_append]
        omega
    · have balance := planned.balanced_iff inv.once inv.balanced
      refine ⟨planned.heldOnce inv.once,balance.trans same.symm,fun sound => ?_⟩
      apply freed_by_none inv.balanced (balance.mpr (same.mp sound)) _ (by simp)
      intro b
      rw [entries,entries,planned.pageBuffers,planned.bigChunkBuffers,planned.deflatingBuffers]
  | deflate count =>
    rw [decided] at planned
    obtain ⟨pages,chunks,moved,_⟩ := planned
    have balanced := moved.balanced inv.balanced
    refine ⟨moved.heldOnce inv.once,iff_of_true balanced (releases.mpr (by simp [decided])),
      fun _ => ?_⟩
    apply freed_by_none inv.balanced balanced _ (by simp)
    intro b
    rw [← count_held,← count_held,moved.held_perm.count_eq]

theorem ReferenceInv.flush (inv : ReferenceInv s)
    (waiting : s.device.outstanding = ⟨.deflate, pages⟩ :: rest) :
    ReferenceStep s (.completion false)
      { s with
        device := requestReturned .deflate { s.device with outstanding := rest }
        position := .reading } := by
  have releases : ReleasesAll s (.completion false) := not_releasing (by simp)
  have fewer : (s.device.pageBuffers ++ (s.device.bigChunkBuffers ++ [])).Sublist s.device.held :=
    List.Sublist.append_left (List.Sublist.append_left (List.nil_sublist _) _) _
  rw [requestReturned_deflate]
  refine ⟨⟨inv.once.nodup.sublist fewer,fun b member => inv.once.known b (fewer.subset member)⟩,
    iff_of_true (fun b => ?_) releases,fun _ b alive => ?_⟩
  · have balanced := inv.balanced b
    simp only [entries,List.count_nil] at balanced ⊢
    omega
  · have balanced := inv.balanced b
    have once : s.device.entries b ≤ 1 := by
      rw [← count_held,inv.once.nodup.count]
      split <;> omega
    simp only [entries] at balanced once
    simp only [waiting,List.head?_cons,Option.map_some,true_and,and_true,
      ← List.count_pos_iff (l := s.device.deflatingBuffers)]
    omega

theorem ReferenceInv.step (inv : ReferenceInv s) (taken : balloonStep a s = some s') :
    ReferenceStep s a s' := by
  by_cases acting : ∃ calls, a = .act calls
  · obtain ⟨calls,rfl⟩ := acting
    exact inv.act taken
  by_cases completing : ∃ deviceReset, a = .completion deviceReset
  · obtain ⟨deviceReset,rfl⟩ := completing
    obtain ⟨⟨queue,pages⟩,rest,_,waiting,rfl⟩ := BalloonSystem.completion_cases taken
    have releases : ReleasesAll s (.completion deviceReset) := not_releasing (by simp)
    cases deviceReset with
    | true => exact inv.unchanged releases rfl rfl rfl rfl (by simp)
    | false =>
      cases queue with
      | inflate => exact inv.unchanged releases rfl rfl rfl rfl (by simp [waiting])
      | deflate => exact inv.flush waiting
  · obtain ⟨target,device⟩ := BalloonSystem.others_cases taken (not_exists.mp completing)
      (not_exists.mp acting)
    apply inv.unchanged (not_releasing (not_exists.mp acting))
    · rw [device]
      rfl
    · rw [device]
    · rw [device]
      rfl
    · rw [device]
    · exact fun same => absurd ⟨false,same⟩ completing

theorem ReferenceInv.keeps (releases : ReleasesAll s a) (taken : balloonStep a s = some s')
    (inv : ReferenceInv s) : ReferenceInv s' := by
  have step := inv.step taken
  exact ⟨inv.bounds.keeps taken,step.once,step.balanced.mpr releases⟩

/-- In every run without the steps that forget a reference, each buffer has as many
references as entries and is freed when its deflation completes; and a step of such a run
leaves the counts balanced only if it is no such step. -/
theorem balloon_references_balanced
    (run : Run balloonStep ReleasesAll (.start target due) actions s) :
    Balanced s.device ∧
    ∀ a s', balloonStep a s = some s' →
      (Balanced s'.device ↔ ReleasesAll s a) ∧ (ReleasesAll s a → FreedByFlush s a s') := by
  have inv : ReferenceInv s := Run.keeps ReferenceInv
    (fun releases taken inv => inv.keeps releases taken) run (referenceInv_start target due)
  refine ⟨inv.balanced,fun a s' taken => ?_⟩
  have step := inv.step taken
  exact ⟨step.balanced,step.freed⟩

def segmentsFound : BalloonCalls where
  getPhysicalSegment buffer offset := (4096 * (512 * buffer + 1) + offset, 4096)
  submitBuffersToVirtqueue := .success

/-- Two pages are taken and one of them is given back. -/
def onePageBack : List BalloonAction :=
  [.readTarget, .act segmentsFound, .completion false, .readTarget, .act segmentsFound,
    .hostWrites 1, .callback, .readTarget, .act segmentsFound, .completion false]

def checkReleases (s : BalloonSystem) : BalloonAction → Bool
  | .act calls => match s.position with
    | .acting target => match s.device.plan target with
      | .inflate count => decide (count < bigChunkPages ∧ calls.GrantsAll s.device.created count)
      | _ => true
    | _ => true
  | _ => true

theorem releases_of_check (s : BalloonSystem) (a : BalloonAction)
    (checked : checkReleases s a = true) : ReleasesAll s a := by
  rintro calls target count rfl position decided
  simpa only [checkReleases,position,decided,decide_eq_true_eq] using checked

theorem balloon_references_balanced_onePageBack :
    ∃ s, Run balloonStep ReleasesAll (.start 2 false) onePageBack s ∧
      s.device.pageBuffers = [0] ∧ s.device.created = 2 ∧ Balanced s.device := by
  have played : (play balloonStep checkReleases onePageBack (.start 2 false)).map
      (fun s => (s.device.pageBuffers,s.device.created)) = some ([0],2) := by decide +kernel
  obtain ⟨s,played,seen⟩ := Option.map_eq_some_iff.mp played
  simp only [Prod.mk.injEq] at seen
  have run := run_of_play releases_of_check played
  exact ⟨s,run,seen.1,seen.2,(balloon_references_balanced run).1⟩

/-- A chunk has two references when the device has been told of it, one of them nobody's. -/
theorem balloon_chunk_unbalanced :
    ∃ s, Run balloonStep (fun _ _ => True) (.start 512 false) [.readTarget, .act segmentsFound] s ∧
      s.device.bigChunkBuffers = [0] ∧ s.device.retainCount 0 = 2 ∧ ¬Balanced s.device := by
  have played : (play balloonStep (fun _ _ => true) [.readTarget, .act segmentsFound]
      (.start 512 false)).map (fun s => (s.device.bigChunkBuffers,s.device.retainCount 0,
        s.device.entries 0)) = some ([0],2,1) := by decide +kernel
  obtain ⟨s,played,seen⟩ := Option.map_eq_some_iff.mp played
  simp only [Prod.mk.injEq] at seen
  obtain ⟨chunks,references,entries⟩ := seen
  refine ⟨s,run_of_play (fun _ _ _ => trivial) played,chunks,references,fun balanced => ?_⟩
  have same := balanced 0
  omega

end VirtioOsx

import Mathlib.Algebra.Order.Ring.Nat
import Mathlib.Data.List.Basic

/-! `SSDCMultiSubrangeMemoryDescriptor`: a memory descriptor that concatenates subranges of
others, from which block, SCSI and network requests build their DMA lists. -/
namespace VirtioOsx

/-- What `getPhysicalSegment` of an underlying descriptor promises: the address of each
byte and the length of a contiguous run from there, within the descriptor. -/
structure PhysicalMemory where
  length : Nat
  address : Nat → Nat
  run : Nat → Nat
  addressable : length < 2^64
  positive : ∀ o < length, 0 < run o
  bounded : ∀ o < length, o + run o ≤ length
  contiguous : ∀ o < length, ∀ j < run o, address (o + j) = address o + j

/-- `SSDCMemoryDescriptorSubrange`. -/
structure Subrange where
  md : PhysicalMemory
  offset : Nat
  length : Nat
  inside : offset + length ≤ md.length

/-- The returned address and the length stored through the pointer. -/
def getPhysicalSegment : List Subrange → Nat → Nat × Nat
  | [], _ => (0, 0)
  | s :: rest, offset =>
    let len := s.length
    if offset < len then
      let position := (offset + s.offset) % 2^64
      let physLen := s.md.run position
      (s.md.address position, if physLen > len then len else physLen)
    else getPhysicalSegment rest (offset - len)

/-- `_length` as the constructor sums it up, for lists of less than 2^64 bytes. The source's sum
has 64 bits and would wrap around for longer ones, which no memory holds. -/
def totalLength (subranges : List Subrange) : Nat := (subranges.map Subrange.length).sum

structure Located where
  subrange : Nat
  address : Nat
  deriving DecidableEq

def Subrange.bytes (s : Subrange) (i : Nat) : List Located :=
  (List.range s.length).map fun j => ⟨i, s.md.address (s.offset + j)⟩

def concatenation : Nat → List Subrange → List Located
  | _, [] => []
  | i, s :: rest => s.bytes i ++ concatenation (i + 1) rest

/-- The answer at `offset` is the address of that byte and the length of a run of bytes of
its subrange at consecutive addresses. -/
def SegmentCorrect (i : Nat) (subranges : List Subrange) (offset : Nat) : Prop :=
  0 < (getPhysicalSegment subranges offset).2 ∧
  ∃ k, ∀ j < (getPhysicalSegment subranges offset).2,
    (concatenation i subranges)[offset + j]? =
      some ⟨k, (getPhysicalSegment subranges offset).1 + j⟩

/-- The run that starts at position `o` of the subrange does not leave it. Runs that start
at its first byte are cut off at its length and never do. -/
def Subrange.Fits (s : Subrange) (o : Nat) : Prop :=
  o = 0 ∨ s.md.run (s.offset + o) ≤ s.length - o

theorem Subrange.length_bytes (s : Subrange) (i : Nat) : (s.bytes i).length = s.length := by
  simp [Subrange.bytes]

theorem Subrange.getElem_bytes (s : Subrange) (i : Nat) (below : o < s.length) :
    (s.bytes i)[o]? = some ⟨i, s.md.address (s.offset + o)⟩ := by
  simp [Subrange.bytes,below]

/-- Subranges later in the list have larger numbers. -/
theorem le_of_mem_concatenation (member : byte ∈ concatenation i subranges) :
    i ≤ byte.subrange := by
  induction subranges generalizing i with
  | nil => simp [concatenation] at member
  | cons s rest ih =>
    rcases List.mem_append.mp member with here | later
    · obtain ⟨j,_,rfl⟩ := List.mem_map.mp here
      exact Nat.le_refl i
    · exact Nat.le_of_succ_le (ih later)

theorem length_concatenation (i : Nat) (subranges : List Subrange) :
    (concatenation i subranges).length = totalLength subranges := by
  induction subranges generalizing i with
  | nil => rfl
  | cons s rest ih =>
    simp only [concatenation,List.length_append,Subrange.length_bytes,ih,totalLength,List.map_cons,
      List.sum_cons]

theorem getPhysicalSegment_here (s : Subrange) (rest : List Subrange) (below : o < s.length) :
    getPhysicalSegment (s :: rest) o =
      (s.md.address (s.offset + o), min (s.md.run (s.offset + o)) s.length) := by
  have position : (o + s.offset) % 2^64 = s.offset + o := by
    have := s.inside
    have := s.md.addressable
    omega
  simp only [getPhysicalSegment,if_pos below,position,Prod.mk.injEq,true_and]
  split <;> omega

theorem getPhysicalSegment_later (s : Subrange) (rest : List Subrange) (above : s.length ≤ offset) :
    getPhysicalSegment (s :: rest) offset = getPhysicalSegment rest (offset - s.length) := by
  simp only [getPhysicalSegment]
  rw [if_neg (by omega)]

theorem segmentCorrect_here (s : Subrange) (rest : List Subrange) (below : o < s.length) :
    SegmentCorrect i (s :: rest) o ↔ s.Fits o := by
  have inside := s.inside
  have position : s.offset + o < s.md.length := by omega
  have positive := s.md.positive _ position
  simp only [SegmentCorrect,getPhysicalSegment_here s rest below]
  constructor
  · rintro ⟨_,k,covered⟩
    by_contra leaves
    unfold Subrange.Fits at leaves
    push Not at leaves
    -- the first byte answers for subrange `i`, the byte after its end cannot
    have first := covered 0 (by omega)
    have beyond := covered (s.length - o) (by omega)
    rw [concatenation,List.getElem?_append_left (by rw [s.length_bytes]; omega)] at first
    rw [Nat.add_zero,s.getElem_bytes i below] at first
    rw [concatenation,List.getElem?_append_right (by rw [s.length_bytes]; omega)] at beyond
    have number : k = i := by simpa using congrArg (Option.map Located.subrange) first.symm
    have later := le_of_mem_concatenation (List.mem_of_getElem? beyond)
    simp only at later
    omega
  · intro fits
    have short : min (s.md.run (s.offset + o)) s.length ≤ s.length - o := by
      rcases fits with first | fits <;> omega
    refine ⟨by omega,i,fun j within => ?_⟩
    have contiguous := s.md.contiguous _ position j (by omega)
    rw [concatenation,List.getElem?_append_left (by rw [s.length_bytes]; omega),
      s.getElem_bytes i (by omega),← contiguous,Nat.add_assoc]

theorem segmentCorrect_later (s : Subrange) (rest : List Subrange) (above : s.length ≤ offset) :
    SegmentCorrect i (s :: rest) offset ↔ SegmentCorrect (i + 1) rest (offset - s.length) := by
  have shifted (j : Nat) : (concatenation i (s :: rest))[offset + j]? =
      (concatenation (i + 1) rest)[offset - s.length + j]? := by
    rw [concatenation,List.getElem?_append_right (by rw [s.length_bytes]; omega),s.length_bytes]
    congr 1
    omega
  simp only [SegmentCorrect,getPhysicalSegment_later s rest above,shifted]

/-- Every answer for the list is right exactly if no run leaves its subrange. -/
theorem segmentsCorrect_iff (i : Nat) (subranges : List Subrange) :
    (∀ offset < totalLength subranges, SegmentCorrect i subranges offset) ↔
      ∀ s ∈ subranges, ∀ o < s.length, s.Fits o := by
  induction subranges generalizing i with
  | nil => simp [totalLength]
  | cons s rest ih =>
    have total : totalLength (s :: rest) = s.length + totalLength rest := by simp [totalLength]
    rw [List.forall_mem_cons,← ih (i + 1),total]
    constructor
    · intro correct
      refine ⟨fun o below => ?_,fun offset below => ?_⟩
      · exact (segmentCorrect_here s rest below).mp (correct o (by omega))
      · have later := (segmentCorrect_later s rest (Nat.le_add_right s.length offset)).mp
          (correct (s.length + offset) (by omega))
        rwa [Nat.add_sub_cancel_left] at later
    · rintro ⟨here,later⟩ offset below
      by_cases inFirst : offset < s.length
      · exact (segmentCorrect_here s rest inFirst).mpr (here offset inFirst)
      · exact (segmentCorrect_later s rest (by omega)).mpr (later _ (by omega))

def walkSegments (subranges : List Subrange) : Nat → Nat → Option (List (Nat × Nat))
  | fuel, offset =>
    if offset = totalLength subranges then some []
    else match fuel with
      | 0 => none
      | fuel + 1 =>
        let segment := getPhysicalSegment subranges offset
        (walkSegments subranges fuel (offset + segment.2)).map (segment :: ·)

def runAddresses (segment : Nat × Nat) : List Nat :=
  (List.range segment.2).map (segment.1 + ·)

/-- A correct answer is the next piece of the concatenation. -/
theorem SegmentCorrect.piece (correct : SegmentCorrect i subranges offset) :
    offset + (getPhysicalSegment subranges offset).2 ≤ totalLength subranges ∧
    ((concatenation i subranges).drop offset).map Located.address =
      runAddresses (getPhysicalSegment subranges offset) ++
        ((concatenation i subranges).drop
          (offset + (getPhysicalSegment subranges offset).2)).map Located.address := by
  obtain ⟨positive,k,covered⟩ := correct
  generalize getPhysicalSegment subranges offset = segment at positive covered ⊢
  have last := covered (segment.2 - 1) (by omega)
  have reach := (List.getElem?_eq_some_iff.mp last).1
  rw [length_concatenation] at reach
  refine ⟨by omega,?_⟩
  have taken : ((concatenation i subranges).drop offset).take segment.2 =
      (List.range segment.2).map fun j => ⟨k,segment.1 + j⟩ := by
    apply List.ext_getElem?
    intro j
    by_cases within : j < segment.2
    · rw [List.getElem?_take_of_lt within,List.getElem?_drop,covered j within]
      simp [within]
    · rw [List.getElem?_take_eq_none (by omega)]
      simp [within]
  rw [← List.take_append_drop segment.2 ((concatenation i subranges).drop offset),List.map_append,
    taken,List.drop_drop]
  simp [runAddresses,Function.comp_def]

theorem walkSegments_covers (i : Nat) (subranges : List Subrange)
    (correct : ∀ offset < totalLength subranges, SegmentCorrect i subranges offset)
    (reached : offset ≤ totalLength subranges)
    (fuel : totalLength subranges - offset ≤ steps) :
    ∃ segments, walkSegments subranges steps offset = some segments ∧
      segments.flatMap runAddresses =
        ((concatenation i subranges).drop offset).map Located.address := by
  induction steps generalizing offset with
  | zero =>
    obtain rfl : offset = totalLength subranges := by omega
    refine ⟨[],by simp [walkSegments],?_⟩
    rw [← length_concatenation i subranges,List.drop_length]
    rfl
  | succ steps ih =>
    by_cases done : offset = totalLength subranges
    · refine ⟨[],by simp [walkSegments,done],?_⟩
      rw [done,← length_concatenation i subranges,List.drop_length]
      rfl
    · have here := correct offset (by omega)
      obtain ⟨inside,piece⟩ := here.piece
      have positive := here.1
      obtain ⟨segments,walked,covers⟩ := ih inside (by omega)
      refine ⟨getPhysicalSegment subranges offset :: segments,?_,?_⟩
      · rw [walkSegments,if_neg done]
        simp [walked]
      · rw [List.flatMap_cons,covers,piece]

structure Concatenates (subranges : List Subrange) : Prop where
  answers : ∀ offset < totalLength subranges, SegmentCorrect 0 subranges offset
  walk : ∃ segments, walkSegments subranges (totalLength subranges) 0 = some segments ∧
    segments.flatMap runAddresses = (concatenation 0 subranges).map Located.address

/-- `getPhysicalSegment` cuts a run off at the length of the subrange, also where the run
does not start at its first byte. -/
theorem concatenates_iff (subranges : List Subrange) :
    Concatenates subranges ↔ ∀ s ∈ subranges, ∀ o, 0 < o → o < s.length →
      s.md.run (s.offset + o) ≤ s.length - o := by
  have fits : (∀ s ∈ subranges, ∀ o < s.length, s.Fits o) ↔ ∀ s ∈ subranges, ∀ o, 0 < o →
      o < s.length → s.md.run (s.offset + o) ≤ s.length - o := by
    constructor
    · intro fits s member o inner below
      exact (fits s member o below).resolve_left (by omega)
    · intro runs s member o below
      rcases Nat.eq_zero_or_pos o with first | inner
      · exact .inl first
      · exact .inr (runs s member o inner below)
  rw [← fits,← segmentsCorrect_iff 0]
  constructor
  · exact Concatenates.answers
  · intro correct
    refine ⟨correct,?_⟩
    simpa using walkSegments_covers 0 subranges correct (Nat.zero_le _) (Nat.le_refl _)

def page : PhysicalMemory where
  length := 4096
  address o := 4096 + o
  run o := 4096 - o
  addressable := by decide
  positive o below := by omega
  bounded o below := by omega
  contiguous o below j within := by omega

/-- The first 512 bytes of a page: from byte 1 on, the answer is 512 bytes instead of 511. -/
theorem concatenates_fails_sector :
    ¬Concatenates [⟨page, 0, 512, by decide⟩] ∧
      getPhysicalSegment [⟨page, 0, 512, by decide⟩] 1 = (4097, 512) := by
  refine ⟨fun good => ?_,by decide⟩
  have here := (segmentCorrect_here _ [] (by decide)).mp (good.answers 1 (by decide))
  rcases here with first | short
  · omega
  · exact absurd short (by decide)

end VirtioOsx

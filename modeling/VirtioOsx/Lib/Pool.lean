import Mathlib.Data.List.Perm.Basic
import Mathlib.Logic.Function.Basic

/-! Pools of reusable items. Items are drawn from a pool in no particular order, held for a
while and given back; none is made or lost on the way. -/
namespace Pool

/-- Some item of the pool; which one is up to `choice`. -/
def anyItem (choice : Nat) (pool : List α) : Option α := pool[choice % pool.length]?

theorem anyItem_mem (drawn : anyItem choice pool = some item) : item ∈ pool :=
  List.mem_of_getElem? drawn

theorem anyItem_eq_none_iff : anyItem choice pool = none ↔ pool = [] := by
  rw [anyItem,List.getElem?_eq_none_iff]
  constructor
  · intro outside
    by_contra some
    have := Nat.mod_lt choice (List.length_pos_iff.mpr some)
    omega
  · rintro rfl
    simp

def draw [DecidableEq α] (choice : Nat) (pool : List α) : Option (α × List α) :=
  (anyItem choice pool).map fun item => (item, pool.erase item)

theorem draw_cases [DecidableEq α] {pool : List α} (drawn : draw choice pool = some (item, rest)) :
    item ∈ pool ∧ rest = pool.erase item := by
  obtain ⟨found,taken,same⟩ := Option.map_eq_some_iff.mp drawn
  obtain ⟨rfl,rfl⟩ := Prod.mk.inj same
  exact ⟨anyItem_mem taken,rfl⟩

theorem draw_eq_none_iff [DecidableEq α] {pool : List α} : draw choice pool = none ↔ pool = [] := by
  rw [draw,Option.map_eq_none_iff,anyItem_eq_none_iff]

theorem moved_perm [DecidableEq α] {front back : List α} (member : item ∈ back) :
    (front ++ [item] ++ back.erase item).Perm (front ++ back) := by
  rw [List.append_assoc]
  exact (List.perm_cons_erase member).symm.append_left front

/-- Each of the items, all different, is in the pool or held. -/
structure Pooled (all pool held : List α) : Prop where
  conserved : (pool ++ held).Perm all
  distinct : all.Nodup

theorem Pooled.full (distinct : all.Nodup) : Pooled all all [] :=
  ⟨by simp,distinct⟩

theorem Pooled.nodup (pooled : Pooled all pool held) : (pool ++ held).Nodup :=
  pooled.conserved.nodup_iff.mpr pooled.distinct

theorem Pooled.held_nodup (pooled : Pooled all pool held) : held.Nodup :=
  (List.nodup_append.mp pooled.nodup).2.1

theorem Pooled.not_held (pooled : Pooled all pool held) (member : item ∈ pool) : item ∉ held :=
  fun other => (List.nodup_append.mp pooled.nodup).2.2 item member item other rfl

theorem Pooled.known (pooled : Pooled all pool held) (member : item ∈ pool ∨ item ∈ held) :
    item ∈ all :=
  pooled.conserved.mem_iff.mp (List.mem_append.mpr member)

theorem Pooled.length (pooled : Pooled all pool held) : pool.length + held.length = all.length := by
  rw [← List.length_append]
  exact pooled.conserved.length_eq

theorem Pooled.congr (pooled : Pooled all pool held) (pools : pool'.Perm pool)
    (helds : held'.Perm held) : Pooled all pool' held' :=
  ⟨(pools.append helds).trans pooled.conserved,pooled.distinct⟩

theorem Pooled.drawn [DecidableEq α] {all pool held : List α} (pooled : Pooled all pool held)
    (member : item ∈ pool) : Pooled all (pool.erase item) (item :: held) := by
  refine ⟨List.Perm.trans ?_ pooled.conserved,pooled.distinct⟩
  refine List.perm_middle.trans ?_
  exact (List.perm_cons_erase member).symm.append_right held

/-- An item that is held is not in the pool, so that inserting it makes the pool longer. -/
theorem Pooled.insert_perm [DecidableEq α] {all pool held : List α}
    (pooled : Pooled all pool (item :: held)) : (pool.insert item).Perm (item :: pool) := by
  have outside : item ∉ pool := fun member => pooled.not_held member List.mem_cons_self
  rw [List.insert_of_not_mem outside]

theorem Pooled.returned [DecidableEq α] {all pool held : List α}
    (pooled : Pooled all pool (item :: held)) : Pooled all (pool.insert item) held := by
  refine ⟨List.Perm.trans ?_ pooled.conserved,pooled.distinct⟩
  refine (pooled.insert_perm.append_right held).trans ?_
  exact List.perm_middle.symm

/-- A pool whose items have a state, which is blank while they are in it. -/
structure Reusable (all pool held : List α) (state : α → S) (blank : S) : Prop where
  pooled : Pooled all pool held
  unused : ∀ item ∈ pool, state item = blank

theorem Reusable.congr (reusable : Reusable all pool held state blank) (helds : held'.Perm held) :
    Reusable all pool held' state blank :=
  ⟨reusable.pooled.congr (.refl _) helds,reusable.unused⟩

/-- An item that has been drawn can be put to any use. -/
theorem Reusable.drawn [DecidableEq α] {all pool held : List α} {state : α → S}
    (reusable : Reusable all pool held state blank) (member : item ∈ pool) (use : S) :
    Reusable all (pool.erase item) (item :: held) (Function.update state item use) blank := by
  refine ⟨reusable.pooled.drawn member,fun other stays => ?_⟩
  have distinct : pool.Nodup := (List.nodup_append.mp reusable.pooled.nodup).1
  have different : other ≠ item := (distinct.mem_erase_iff.mp stays).1
  rw [Function.update_of_ne different]
  exact reusable.unused other (List.mem_of_mem_erase stays)

/-- An item is made blank before it is given back. -/
theorem Reusable.returned [DecidableEq α] {all pool held : List α} {state : α → S}
    (reusable : Reusable all pool (item :: held) state blank) :
    Reusable all (pool.insert item) held (Function.update state item blank) blank := by
  refine ⟨reusable.pooled.returned,fun other stays => ?_⟩
  by_cases same : other = item
  · rw [same,Function.update_self]
  · rw [Function.update_of_ne same]
    rcases List.mem_insert_iff.mp stays with equal | member
    · exact absurd equal same
    · exact reusable.unused other member

end Pool

import RulesEngine.Foundations.TransitionSystem
import Mathlib.Data.List.Nodup
import Mathlib.Data.List.ReduceOption

/-!
# Waiting for all tasks

Tasks run at the same time and settle in any order; each settles once, and its
outcome is kept in the slot of its own position.  When every slot is filled the
wait is over, and the results are the outcomes in the order of the tasks,
whatever the settling order was (`allSettled_eq_some_iff`).
-/

namespace RulesEngine.Foundations

universe u

variable {ω : Type u}

/-- The task at a position settles. -/
def settle (outcomes : List ω) (slots : List (Option ω)) (i : Nat) : Option (List (Option ω)) :=
  match slots[i]?, outcomes[i]? with
  | some none, some outcome => some (slots.set i (some outcome))
  | _, _ => none

/-- The results of all tasks, once they have settled in the given order. -/
def allSettled (outcomes : List ω) (order : List Nat) : Option (List ω) :=
  (runFrom (settle outcomes) (List.replicate outcomes.length none) order).bind fun slots =>
    if slots.all Option.isSome then some slots.reduceOption else none

/-- The slots when the tasks in `done` have settled. -/
def slotsAfter (outcomes : List ω) (done : List Nat) : List (Option ω) :=
  outcomes.mapIdx fun i outcome => if i ∈ done then some outcome else none

section Slots

variable (outcomes : List ω)

theorem getElem?_slotsAfter (done : List Nat) (i : Nat) : (slotsAfter outcomes done)[i]? =
    outcomes[i]?.map fun outcome => if i ∈ done then some outcome else none := by
  simp only [slotsAfter, List.getElem?_mapIdx]

theorem slotsAfter_nil : slotsAfter outcomes [] = List.replicate outcomes.length none := by
  apply List.ext_getElem?
  intro i
  rw [getElem?_slotsAfter, List.getElem?_replicate]
  by_cases hi : i < outcomes.length
  · simp [hi]
  · simp [hi]

/-- Settling fills the slot of a task that has not settled, and no other. -/
theorem settle_slotsAfter (done : List Nat) (i : Nat) :
    settle outcomes (slotsAfter outcomes done) i =
      if i < outcomes.length ∧ i ∉ done then some (slotsAfter outcomes (done ++ [i]))
      else none := by
  unfold settle
  rw [getElem?_slotsAfter]
  by_cases hi : i < outcomes.length
  · rw [List.getElem?_eq_getElem hi]
    by_cases hdone : i ∈ done
    · simp [hdone]
    · simp only [Option.map_some, hdone, if_false, hi, not_false_eq_true, and_self, if_true,
        Option.some.injEq]
      apply List.ext_getElem?
      intro j
      rw [getElem?_slotsAfter, List.getElem?_set, getElem?_slotsAfter]
      by_cases hij : i = j
      · subst hij
        simp [slotsAfter, hi]
      · simp [hij, Ne.symm hij]
  · simp [hi]

/-- The tasks can settle one after the other exactly when each does once. -/
theorem runFrom_settle_iff (order : List Nat) (slots : List (Option ω)) :
    runFrom (settle outcomes) (slotsAfter outcomes []) order = some slots ↔
      order.Nodup ∧ (∀ i ∈ order, i < outcomes.length) ∧ slots = slotsAfter outcomes order := by
  induction order using List.reverseRecOn generalizing slots with
  | nil => simp [eq_comm]
  | append_singleton order i ih =>
      rw [runFrom_append, Option.bind_eq_some_iff]
      have hlast : (order ++ [i]).Nodup ↔ order.Nodup ∧ i ∉ order := by
        rw [List.nodup_append_comm, List.singleton_append, List.nodup_cons, and_comm]
      have hbounds : (∀ j ∈ order ++ [i], j < outcomes.length) ↔
          (∀ j ∈ order, j < outcomes.length) ∧ i < outcomes.length := by
        rw [List.forall_mem_append, List.forall_mem_singleton]
      rw [hlast, hbounds]
      constructor
      · rintro ⟨before, hbefore, hstep⟩
        obtain ⟨hnodup, hbound, rfl⟩ := (ih before).mp hbefore
        obtain ⟨after, hsettle, hnil⟩ := runFrom_cons_eq_some.mp hstep
        rw [settle_slotsAfter, Option.ite_none_right_eq_some] at hsettle
        obtain ⟨⟨hi, hnew⟩, hafter⟩ := hsettle
        obtain rfl := Option.some.inj hnil
        exact ⟨⟨hnodup, hnew⟩, ⟨hbound, hi⟩, (Option.some.inj hafter).symm⟩
      · rintro ⟨⟨hnodup, hnew⟩, ⟨hbound, hi⟩, rfl⟩
        refine ⟨slotsAfter outcomes order, (ih _).mpr ⟨hnodup, hbound, rfl⟩, ?_⟩
        rw [runFrom_cons_eq_some]
        refine ⟨_, ?_, rfl⟩
        rw [settle_slotsAfter, if_pos ⟨hi, hnew⟩]

/-- No slot is empty exactly when every task has settled. -/
theorem all_slotsAfter_iff (done : List Nat) :
    (slotsAfter outcomes done).all Option.isSome = true ↔ ∀ i < outcomes.length, i ∈ done := by
  rw [List.all_eq_true]
  constructor
  · intro hall i hi
    have hslot := getElem?_slotsAfter outcomes done i
    rw [List.getElem?_eq_getElem hi] at hslot
    have hsome := hall _ (List.mem_of_getElem? hslot)
    by_contra hnot
    simp [hnot] at hsome
  · intro hall slot hslot
    obtain ⟨i, hi, rfl⟩ := List.mem_mapIdx.mp hslot
    simp [hall i hi]

theorem reduceOption_slotsAfter {done : List Nat} (h : ∀ i < outcomes.length, i ∈ done) :
    (slotsAfter outcomes done).reduceOption = outcomes := by
  have hfull : slotsAfter outcomes done = outcomes.map some := by
    apply List.ext_getElem?
    intro i
    rw [getElem?_slotsAfter, List.getElem?_map]
    by_cases hi : i < outcomes.length
    · simp [h i hi]
    · rw [List.getElem?_eq_none (Nat.not_lt.mp hi)]
      rfl
  simp [hfull, List.reduceOption]

/-- **Results do not depend on the order.**  The wait is over exactly when the
    tasks have settled in some order of their positions, and then the results
    are the outcomes, task by task. -/
theorem allSettled_eq_some_iff (order : List Nat) (results : List ω) :
    allSettled outcomes order = some results ↔
      order.Perm (List.range outcomes.length) ∧ results = outcomes := by
  unfold allSettled
  rw [← slotsAfter_nil, Option.bind_eq_some_iff]
  constructor
  · rintro ⟨slots, hrun, hresults⟩
    obtain ⟨hnodup, hbound, rfl⟩ := (runFrom_settle_iff outcomes order slots).mp hrun
    obtain ⟨hall, hreduce⟩ := Option.ite_none_right_eq_some.mp hresults
    have hdone := (all_slotsAfter_iff outcomes order).mp hall
    refine ⟨(List.perm_ext_iff_of_nodup hnodup List.nodup_range).mpr ?_, ?_⟩
    · intro i
      rw [List.mem_range]
      exact ⟨hbound i, hdone i⟩
    · rw [reduceOption_slotsAfter outcomes hdone] at hreduce
      exact (Option.some.inj hreduce).symm
  · rintro ⟨hperm, rfl⟩
    have hdone : ∀ i < results.length, i ∈ order := fun i hi =>
      hperm.mem_iff.mpr (List.mem_range.mpr hi)
    have hbound : ∀ i ∈ order, i < results.length := fun i hi =>
      List.mem_range.mp (hperm.mem_iff.mp hi)
    have hnodup : order.Nodup := hperm.nodup_iff.mpr List.nodup_range
    refine ⟨_, (runFrom_settle_iff results order _).mpr ⟨hnodup, hbound, rfl⟩, ?_⟩
    rw [if_pos ((all_slotsAfter_iff results order).mpr hdone),
      reduceOption_slotsAfter results hdone]

end Slots

end RulesEngine.Foundations

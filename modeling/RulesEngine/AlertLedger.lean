import RulesEngine.AlertInterleaving

/-!
# The hit ledger under concurrency

`processAlertEvent` increments the `hitCount` it read in `findOne` and writes
the sum back in `save`.  Nothing ties the two together, so the sum of
`hitCount` over the alerts of a key equals the number of events recorded with
it exactly as long as no save is stale: `balanced_iff_freshSave`.
-/

namespace RulesEngine.Alerts

open RulesEngine.Foundations

/-- Every completed `processAlertEvent` call has left its hit in the table. -/
def Balanced (s : System) : Prop :=
  ∀ dedupKey, hitTotal s.table dedupKey = s.completed.count dedupKey

/-- A save of a loaded alert finds the count that was loaded. -/
def FreshSave (s : System) : Label → Prop
  | .save index _ _ _ => ∀ alert ∈ s.loadedBy index, ∀ row ∈ s.table.rows, row.id = alert.id →
      row.hitCount = alert.hitCount
  | .processFind .. => True
  | .statusFind .. => True

instance (s : System) : (label : Label) → Decidable (FreshSave s label)
  | .save index _ _ _ => inferInstanceAs (Decidable (∀ alert ∈ s.loadedBy index,
      ∀ row ∈ s.table.rows, row.id = alert.id → row.hitCount = alert.hitCount))
  | .processFind .. => isTrue trivial
  | .statusFind .. => isTrue trivial

theorem freshSave_iff {s : System} {index : Nat} {old alert : Alert}
    (hloaded : s.loadedBy index = some alert) (hold : old ∈ s.table.rows)
    (hfixed : old.fixed = alert.fixed) (now : Int) (newId : String) (parents : Parents) :
    FreshSave s (.save index now newId parents) ↔ old.hitCount = alert.hitCount := by
  constructor
  · intro hfresh
    exact hfresh alert hloaded old hold (id_eq_of_fixed_eq hfixed)
  · intro hcount alert' hloaded' row hrow hid
    cases Option.some.inj (hloaded.symm.trans hloaded')
    have heq : row = old :=
      Table.eq_of_key_eq hrow hold (hid.trans (id_eq_of_fixed_eq hfixed).symm)
    exact heq ▸ hcount

theorem freshSave_of_none {s : System} {index : Nat} (hloaded : s.loadedBy index = none)
    (now : Int) (newId : String) (parents : Parents) :
    FreshSave s (.save index now newId parents) := by
  intro alert halert
  exact absurd (hloaded.symm.trans halert) (by simp)

theorem balanced_initial : Balanced System.initial := fun _ => rfl

/-- Recording a hit over the row `old` balances the completed call exactly when
    the row still has the loaded count. -/
theorem balanced_hit_iff {s : System} (hs : Balanced s) {old alert : Alert} (index : Nat)
    (now : Int) (hold : old ∈ s.table.rows) (hfixed : old.fixed = alert.fixed) :
    Balanced ⟨s.table.put (alert.hit now), s.inFlight.eraseIdx index,
        s.completed ++ [alert.dedupKey]⟩ ↔ old.hitCount = alert.hitCount := by
  have hput : ∀ dedupKey, _ := fun dedupKey =>
    hitTotal_put (alert.hit now) dedupKey hold (id_eq_of_fixed_eq hfixed)
      (dedupKey_eq_of_fixed_eq hfixed)
  simp only [hit_dedupKey, hit_hitCount] at hput
  constructor
  · intro h
    have hkey := h alert.dedupKey
    have hledger := hs alert.dedupKey
    have hsum := hput alert.dedupKey
    simp only [List.count_append, List.count_singleton_self, if_true] at hkey hsum
    omega
  · intro hcount dedupKey
    have hledger := hs dedupKey
    have hsum := hput dedupKey
    by_cases hkey : alert.dedupKey = dedupKey
    · subst hkey
      simp only [List.count_append, List.count_singleton_self, if_true] at hsum ⊢
      omega
    · simp only [List.count_append, List.count_singleton, beq_iff_eq, hkey, if_false] at hsum ⊢
      omega

/-- Saving a status over the row `old` keeps the balance exactly when the row
    still has the loaded count. -/
theorem balanced_status_iff {s : System} (hs : Balanced s) {old alert : Alert} (index : Nat)
    (status : AlertStatus) (hold : old ∈ s.table.rows) (hfixed : old.fixed = alert.fixed) :
    Balanced ⟨saveStatus alert status s.table, s.inFlight.eraseIdx index, s.completed⟩ ↔
      old.hitCount = alert.hitCount := by
  have hput : ∀ dedupKey, _ := fun dedupKey =>
    hitTotal_put { alert with status } dedupKey hold (id_eq_of_fixed_eq hfixed)
      (dedupKey_eq_of_fixed_eq hfixed)
  constructor
  · intro h
    have hkey : hitTotal (s.table.put { alert with status }) alert.dedupKey =
      s.completed.count alert.dedupKey := h alert.dedupKey
    have hledger := hs alert.dedupKey
    have hsum := hput alert.dedupKey
    simp only [if_true] at hsum
    omega
  · intro hcount dedupKey
    have hledger := hs dedupKey
    have hsum := hput dedupKey
    simp only [hcount] at hsum
    exact (Nat.add_right_cancel hsum).trans hledger

theorem balanced_created {s : System} (hs : Balanced s) (index : Nat) (now : Int) {newId : String}
    (pending : PendingEvent) (hfresh : ¬ s.table.Taken newId) :
    Balanced ⟨s.table.put (pending.newAlert now newId), s.inFlight.eraseIdx index,
        s.completed ++ [pending.dedupKey]⟩ := by
  intro dedupKey
  have hput := hitTotal_put_new pending now dedupKey hfresh
  have hledger := hs dedupKey
  simp only [List.count_append, List.count_singleton, beq_iff_eq]
  omega

section Runs

variable [NumberText]

theorem balanced_step_iff {s t : System} {label : Label} (hc : Consistent s) (hs : Balanced s)
    (h : exec s label = some t) : Balanced t ↔ FreshSave s label := by
  cases exec_move h with
  | processRejected => exact ⟨fun _ => trivial, fun _ => hs⟩
  | statusRejected => exact ⟨fun _ => trivial, fun _ => hs⟩
  | processFound => exact ⟨fun _ => trivial, fun _ => hs⟩
  | statusFound => exact ⟨fun _ => trivial, fun _ => hs⟩
  | hit index now newId parents pending alert hcall hexisting =>
      have hmem := List.mem_of_getElem? hcall
      have hloaded : s.loadedBy index = some alert := by
        simp only [System.loadedBy, hcall, Option.bind_some, InFlight.loaded, hexisting]
      obtain ⟨old, hold, hfixed⟩ := hc.copies _ hmem alert hexisting
      rw [← hc.keys pending hmem alert hexisting, balanced_hit_iff hs index now hold hfixed,
        freshSave_iff hloaded hold hfixed]
  | created index now newId parents pending hcall hexisting hfresh =>
      have hloaded : s.loadedBy index = none := by
        simp only [System.loadedBy, hcall, Option.bind_some, InFlight.loaded, hexisting]
      exact ⟨fun _ => freshSave_of_none hloaded now newId parents,
        fun _ => balanced_created hs index now pending hfresh⟩
  | refused index now newId parents pending hcall hexisting =>
      have hloaded : s.loadedBy index = none := by
        simp only [System.loadedBy, hcall, Option.bind_some, InFlight.loaded, hexisting]
      exact ⟨fun _ => freshSave_of_none hloaded now newId parents, fun _ => hs⟩
  | statusSaved index now newId parents alert status hcall =>
      have hloaded : s.loadedBy index = some alert := by
        simp only [System.loadedBy, hcall, Option.bind_some, InFlight.loaded]
      obtain ⟨old, hold, hfixed⟩ := hc.copies _ (List.mem_of_getElem? hcall) alert rfl
      rw [balanced_status_iff hs index status hold hfixed, freshSave_iff hloaded hold hfixed]

/-- **The exact condition.**  The ledger is balanced in every state of a run if
    and only if no step of the run is a stale save. -/
theorem balanced_iff_freshSave (labels : List Label) :
    EveryState exec Balanced System.initial labels ↔
      EveryStep exec FreshSave System.initial labels := by
  apply everyState_iff_everyStep (J := Consistent)
  · intro s label t hs h
    exact consistent_step hs h
  · intro s label h
    cases label with
    | processFind => trivial
    | statusFind => trivial
    | save index now newId parents =>
        -- a blocked save has no call
        simp only [exec, Option.map_eq_none_iff] at h
        exact freshSave_of_none (by simp [System.loadedBy, h]) now newId parents
  · intro s label t hc hs h
    exact balanced_step_iff hc hs h
  · exact consistent_initial
  · exact balanced_initial

/-- No hit is lost in a run without a stale save: whenever no call is in
    flight, the hits of every key are the events completed with it. -/
theorem hits_complete_of_freshSave {labels : List Label}
    (hfresh : EveryStep exec FreshSave System.initial labels) :
    EveryState exec
      (fun s => s.inFlight = [] →
        ∀ dedupKey, hitTotal s.table dedupKey = s.completed.count dedupKey)
      System.initial labels := by
  refine EveryState.mono ?_ ((balanced_iff_freshSave labels).mpr hfresh)
  intro s hs _
  exact hs

end Runs

/-- Two consumers load the same alert before either saves it. -/
def overlappingHits : List Label :=
  [.processFind .first (sampleEvent sampleUuid sampleRule), .save 0 1 firstAlert sampleParents,
    .processFind .first (sampleEvent sampleUuid sampleRule),
    .processFind .first (sampleEvent sampleUuid sampleRule),
    .save 0 2 secondAlert sampleParents, .save 0 3 thirdAlert sampleParents]

/-- The same three events, handled one after the other. -/
def successiveHits : List Label :=
  [.processFind .first (sampleEvent sampleUuid sampleRule), .save 0 1 firstAlert sampleParents,
    .processFind .first (sampleEvent sampleUuid sampleRule), .save 0 2 secondAlert sampleParents,
    .processFind .first (sampleEvent sampleUuid sampleRule), .save 0 3 thirdAlert sampleParents]

/-- The key of the sample events. -/
def sampleKey : String := sampleRule ++ ":acc:1970-01-01T00:00:00.000Z"

attribute [local instance] NumberText.integers in
theorem hits_complete_of_freshSave_sample :
    EveryState exec
      (fun s => s.inFlight = [] →
        ∀ dedupKey, hitTotal s.table dedupKey = s.completed.count dedupKey)
      System.initial successiveHits :=
  hits_complete_of_freshSave (by decide +kernel)

attribute [local instance] NumberText.integers in
/-- The second of two overlapping saves overwrites the first: three completed
    calls leave two hits. -/
theorem overlapping_hit_lost :
    ∃ s, runFrom exec System.initial overlappingHits = some s ∧ s.inFlight = [] ∧
      hitTotal s.table sampleKey = 2 ∧ s.completed.count sampleKey = 3 := by
  have hfinal : (runFrom exec System.initial overlappingHits).map
      (fun s => (s.inFlight.length, hitTotal s.table sampleKey, s.completed.count sampleKey)) =
      some (0, 2, 3) := by
    decide +kernel
  obtain ⟨s, hrun, hvalues⟩ := Option.map_eq_some_iff.mp hfinal
  simp only [Prod.mk.injEq] at hvalues
  exact ⟨s, hrun, List.eq_nil_of_length_eq_zero hvalues.1, hvalues.2.1, hvalues.2.2⟩

end RulesEngine.Alerts

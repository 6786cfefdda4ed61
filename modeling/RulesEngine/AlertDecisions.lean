import RulesEngine.AlertInterleaving

/-!
# Decisions under concurrency

An analyst decides an alert with `updateStatus`.  `processAlertEvent` never
assigns a status, and looks for open and acknowledged alerts only, but it saves
the entity it has loaded, and a save writes every column that differs from the
row.  So a call that loaded the alert before the decision and saves after it
writes the old status back.  The decisions stand exactly as long as no such
save happens (`decisions_stand_iff`).

The runs of this module record the status of the last `updateStatus` call that
has saved each alert; the record changes no run (`forget_execDecided`).
-/

namespace RulesEngine.Alerts

open RulesEngine.Foundations

/-- The system, with the last decision on each alert. -/
structure Decided extends System where
  decision : String → Option AlertStatus

/-- A table that is in use, before the first call. -/
def Decided.start (table : Table Alert) : Decided where
  table := table
  inFlight := []
  completed := []
  decision := fun _ => none

/-- The decisions after the step of a label. -/
def Decided.decisionAfter (s : Decided) : Label → String → Option AlertStatus
  | .save index _ _ _ =>
      match s.inFlight[index]? with
      | some (.updateStatus alert status) => fun id =>
          if id = alert.id then some status else s.decision id
      | _ => s.decision
  | .processFind .. => s.decision
  | .statusFind .. => s.decision

/-- The decided alerts still have the status decided for them. -/
def DecisionsStand (s : Decided) : Prop :=
  ∀ id status, s.decision id = some status → ∃ alert ∈ s.table.rows, alert.id = id ∧
    alert.status = status

/-- A hit is saved over a row that still has the loaded status. -/
def FreshStatus (s : System) : Label → Prop
  | .save index _ _ _ => ∀ pending, s.inFlight[index]? = some (.process pending) →
      ∀ alert ∈ pending.existing, ∀ row ∈ s.table.rows, row.id = alert.id →
        row.status = alert.status
  | .processFind .. => True
  | .statusFind .. => True

/-- What every run maintains: the alerts in flight on which nothing has been
    decided have the stored status. -/
structure Undecided (s : Decided) : Prop where
  consistent : Consistent s.toSystem
  current : ∀ call ∈ s.inFlight, ∀ alert ∈ call.loaded, s.decision alert.id = none →
    ∀ row ∈ s.table.rows, row.id = alert.id → row.status = alert.status

theorem decisionsStand_start (table : Table Alert) : DecisionsStand (Decided.start table) := by
  intro id status h
  cases h

theorem undecided_start (table : Table Alert) : Undecided (Decided.start table) where
  consistent :=
    { copies := fun _ h => absurd h List.not_mem_nil
      keys := fun _ h => absurd h List.not_mem_nil }
  current := fun _ h => absurd h List.not_mem_nil

/-! ### Saving a hit -/

section Saves

variable {s : Decided} {old alert : Alert}

theorem freshStatus_hit_iff {index : Nat} {pending : PendingEvent}
    (hcall : s.inFlight[index]? = some (.process pending))
    (hexisting : pending.existing = some alert)
    (hold : old ∈ s.table.rows) (hid : old.id = alert.id) (now : Int) (newId : String)
    (parents : Parents) :
    FreshStatus s.toSystem (.save index now newId parents) ↔ old.status = alert.status := by
  constructor
  · intro hfresh
    exact hfresh pending hcall alert hexisting old hold hid
  · intro hstatus pending' hcall' alert' halert' row hrow hrowId
    cases Option.some.inj (hcall.symm.trans hcall')
    cases Option.some.inj (hexisting.symm.trans halert')
    have heq : row = old := Table.eq_of_key_eq hrow hold (hrowId.trans hid.symm)
    exact heq ▸ hstatus

/-- Saving a hit keeps the decisions exactly when the row still has the loaded
    status. -/
theorem decisionsStand_hit_iff (hs : Undecided s) (hstand : DecisionsStand s) {index : Nat}
    {pending : PendingEvent} (hcall : s.inFlight[index]? = some (.process pending))
    (hexisting : pending.existing = some alert) (hold : old ∈ s.table.rows)
    (hid : old.id = alert.id) (now : Int) (completed : List String) :
    DecisionsStand ⟨⟨s.table.put (alert.hit now), s.inFlight.eraseIdx index, completed⟩,
      s.decision⟩ ↔ old.status = alert.status := by
  constructor
  · intro h
    cases hdecision : s.decision alert.id with
    | none =>
        exact hs.current _ (List.mem_of_getElem? hcall) alert hexisting hdecision old hold hid
    | some status =>
        obtain ⟨row, hrow, hrowId, hstatus⟩ := h alert.id status hdecision
        obtain ⟨row', hrow', hrowId', hstatus'⟩ := hstand alert.id status hdecision
        have hsaved : row = alert.hit now := by
          rcases Table.mem_put.mp hrow with rfl | ⟨-, hne⟩
          · rfl
          · exact absurd hrowId hne
        have hstored : row' = old := Table.eq_of_key_eq hrow' hold (hrowId'.trans hid.symm)
        rw [← hstored, hstatus', ← hstatus, hsaved]
        rfl
  · intro hstatus id status hdecision
    obtain ⟨row, hrow, hrowId, hrowStatus⟩ := hstand id status hdecision
    by_cases hsame : id = alert.id
    · have heq : row = old :=
        Table.eq_of_key_eq hrow hold (hrowId.trans (hsame.trans hid.symm))
      refine ⟨alert.hit now, Table.mem_put_self _ _, hsame.symm, ?_⟩
      rw [← hrowStatus, heq, hstatus]
      rfl
    · refine ⟨row, Table.mem_put_of_ne hrow ?_, hrowId, hrowStatus⟩
      exact fun heq => hsame (hrowId.symm.trans heq)

/-- A save that leaves the decided rows in the table keeps the decisions. -/
theorem decisionsStand_created (hstand : DecisionsStand s) (index : Nat)
    {pending : PendingEvent} {newId : String} (hfresh : ¬ s.table.Taken newId) (now : Int)
    (completed : List String) :
    DecisionsStand ⟨⟨s.table.put (pending.newAlert now newId), s.inFlight.eraseIdx index,
      completed⟩, s.decision⟩ := by
  intro id status hdecision
  obtain ⟨row, hrow, hrowId, hstatus⟩ := hstand id status hdecision
  refine ⟨row, Table.mem_put_of_ne hrow ?_, hrowId, hstatus⟩
  intro hid
  exact hfresh (List.mem_map.mpr ⟨row, hrow, hid⟩)

/-- A decision stands when it is saved, and changes no other. -/
theorem decisionsStand_decided (hstand : DecisionsStand s) (index : Nat) (alert : Alert)
    (status : AlertStatus) :
    DecisionsStand ⟨⟨saveStatus alert status s.table, s.inFlight.eraseIdx index, s.completed⟩,
      fun id => if id = alert.id then some status else s.decision id⟩ := by
  intro id decided hdecision
  by_cases hid : id = alert.id
  · simp only [hid, if_true, Option.some.injEq] at hdecision
    exact ⟨_, Table.mem_put_self _ _, hid.symm, hdecision⟩
  · simp only [hid, if_false] at hdecision
    obtain ⟨row, hrow, hrowId, hstatus⟩ := hstand id decided hdecision
    refine ⟨row, Table.mem_put_of_ne hrow ?_, hrowId, hstatus⟩
    exact fun heq => hid (hrowId.symm.trans heq)

end Saves

/-- A call that starts has loaded a stored row. -/
theorem Undecided.found {s : Decided} (hs : Undecided s) {call : InFlight}
    (hc : Consistent { s.toSystem with inFlight := s.inFlight ++ [call] })
    (hloaded : ∀ alert ∈ call.loaded, alert ∈ s.table.rows) :
    Undecided ⟨{ s.toSystem with inFlight := s.inFlight ++ [call] }, s.decision⟩ where
  consistent := hc
  current := by
    intro other hother alert halert hnone row hrow hid
    rcases List.mem_append.mp hother with hold | hnew
    · exact hs.current other hold alert halert hnone row hrow hid
    · rw [List.mem_singleton.mp hnew] at halert
      exact congrArg Alert.status (Table.eq_of_key_eq hrow (hloaded alert halert) hid)

/-- A save keeps the record when the saved row of an undecided alert has the
    status it had. -/
theorem Undecided.saved {s : Decided} (hs : Undecided s) {table : Table Alert} {index : Nat}
    {completed : List String} {decision : String → Option AlertStatus}
    (hc : Consistent ⟨table, s.inFlight.eraseIdx index, completed⟩)
    (hdecision : ∀ id, decision id = none → s.decision id = none)
    (hrows : ∀ call ∈ s.inFlight, ∀ alert ∈ call.loaded, decision alert.id = none →
      ∀ row ∈ table.rows, row.id = alert.id → row ∈ s.table.rows ∨ row.status = alert.status) :
    Undecided ⟨⟨table, s.inFlight.eraseIdx index, completed⟩, decision⟩ where
  consistent := hc
  current := by
    intro call hcall alert halert hnone row hrow hid
    have hmem : call ∈ s.inFlight := List.mem_of_mem_eraseIdx hcall
    rcases hrows call hmem alert halert hnone row hrow hid with hold | hstatus
    · exact hs.current call hmem alert halert (hdecision _ hnone) row hold hid
    · exact hstatus

section Runs

variable [NumberText]

def execDecided (s : Decided) (label : Label) : Option Decided :=
  (exec s.toSystem label).map fun t => { t with decision := s.decisionAfter label }

theorem forget_execDecided (s : Decided) (label : Label) :
    (execDecided s label).map Decided.toSystem = exec s.toSystem label := by
  unfold execDecided
  cases exec s.toSystem label <;> rfl

theorem undecided_step {s t : Decided} {label : Label} (hs : Undecided s)
    (h : execDecided s label = some t) : Undecided t := by
  obtain ⟨system, hexec, rfl⟩ := Option.map_eq_some_iff.mp h
  have hc := consistent_step hs.consistent hexec
  cases exec_move hexec with
  | processRejected => exact hs
  | statusRejected => exact hs
  | processFound pick pending hcomputed hexisting =>
      refine hs.found hc ?_
      intro alert halert
      exact (findActive_some (hexisting.symm.trans halert)).1
  | statusFound organizationId id alert status halert =>
      refine hs.found hc ?_
      intro other hother
      exact Option.some.inj hother ▸ halert
  | hit index now newId parents pending saved hcall hexisting =>
      simp only [Decided.decisionAfter, hcall]
      refine hs.saved hc (fun _ hnone => hnone) ?_
      intro call hmem alert halert hnone row hrow hid
      rcases Table.mem_put.mp hrow with rfl | ⟨hold, -⟩
      · -- both copies of the undecided alert have the stored status
        obtain ⟨old, hold, hfixed⟩ :=
          hs.consistent.copies _ (List.mem_of_getElem? hcall) saved hexisting
        have hsavedId : old.id = saved.id := id_eq_of_fixed_eq hfixed
        have hsame : saved.id = alert.id := hid
        have hstored := hs.current _ (List.mem_of_getElem? hcall) saved hexisting
          (hsame ▸ hnone) old hold hsavedId
        have hloaded := hs.current call hmem alert halert hnone old hold (hsavedId.trans hsame)
        exact Or.inr (hstored.symm.trans hloaded)
      · exact Or.inl hold
  | created index now newId parents pending hcall hexisting hfresh =>
      simp only [Decided.decisionAfter, hcall]
      refine hs.saved hc (fun _ hnone => hnone) ?_
      intro call hmem alert halert hnone row hrow hid
      rcases Table.mem_put.mp hrow with rfl | ⟨hold, -⟩
      · -- the new row is nobody's copy
        obtain ⟨old, hold, hfixed⟩ := hs.consistent.copies call hmem alert halert
        have holdId : old.id = newId := (id_eq_of_fixed_eq hfixed).trans hid.symm
        exact absurd (List.mem_map.mpr ⟨old, hold, holdId⟩) hfresh
      · exact Or.inl hold
  | refused index now newId parents pending hcall hexisting =>
      simp only [Decided.decisionAfter, hcall]
      refine hs.saved hc (fun _ hnone => hnone) ?_
      intro call hmem alert halert hnone row hrow hid
      exact Or.inl hrow
  | statusSaved index now newId parents decided status hcall =>
      simp only [Decided.decisionAfter, hcall]
      refine hs.saved hc ?_ ?_
      · intro id hnone
        by_cases hid : id = decided.id
        · simp [hid] at hnone
        · simpa [hid] using hnone
      · intro call hmem alert halert hnone row hrow hid
        rcases Table.mem_put.mp hrow with rfl | ⟨hold, -⟩
        · have hsame : decided.id = alert.id := hid
          simp [hsame] at hnone
        · exact Or.inl hold

theorem decisionsStand_step_iff {s t : Decided} {label : Label} (hs : Undecided s)
    (hstand : DecisionsStand s) (h : execDecided s label = some t) :
    DecisionsStand t ↔ FreshStatus s.toSystem label := by
  obtain ⟨system, hexec, rfl⟩ := Option.map_eq_some_iff.mp h
  cases exec_move hexec with
  | processRejected => exact ⟨fun _ => trivial, fun _ => hstand⟩
  | statusRejected => exact ⟨fun _ => trivial, fun _ => hstand⟩
  | processFound => exact ⟨fun _ => trivial, fun _ => hstand⟩
  | statusFound => exact ⟨fun _ => trivial, fun _ => hstand⟩
  | hit index now newId parents pending alert hcall hexisting =>
      obtain ⟨old, hold, hfixed⟩ :=
        hs.consistent.copies _ (List.mem_of_getElem? hcall) alert hexisting
      have hid : old.id = alert.id := id_eq_of_fixed_eq hfixed
      simp only [Decided.decisionAfter, hcall]
      rw [decisionsStand_hit_iff hs hstand hcall hexisting hold hid now,
        freshStatus_hit_iff hcall hexisting hold hid now newId parents]
  | created index now newId parents pending hcall hexisting hfresh =>
      simp only [Decided.decisionAfter, hcall]
      refine ⟨fun _ => ?_, fun _ => decisionsStand_created hstand index hfresh now _⟩
      intro pending' hcall' alert halert
      cases Option.some.inj (hcall.symm.trans hcall')
      exact absurd (hexisting.symm.trans halert) (by simp)
  | refused index now newId parents pending hcall hexisting =>
      simp only [Decided.decisionAfter, hcall]
      refine ⟨fun _ => ?_, fun _ => hstand⟩
      intro pending' hcall' alert halert
      cases Option.some.inj (hcall.symm.trans hcall')
      exact absurd (hexisting.symm.trans halert) (by simp)
  | statusSaved index now newId parents alert status hcall =>
      simp only [Decided.decisionAfter, hcall]
      refine ⟨fun _ => ?_, fun _ => decisionsStand_decided hstand index alert status⟩
      intro pending hcall'
      cases Option.some.inj (hcall.symm.trans hcall')

/-- **The exact condition.**  In every state of a run each decided alert has the
    status decided last, if and only if every hit of the run is saved over a row
    that still has the loaded status. -/
theorem decisions_stand_iff (table : Table Alert) (labels : List Label) :
    EveryState execDecided DecisionsStand (Decided.start table) labels ↔
      EveryStep execDecided (fun s => FreshStatus s.toSystem) (Decided.start table) labels := by
  apply everyState_iff_everyStep (J := Undecided)
  · intro s label t hs h
    exact undecided_step hs h
  · intro s label h
    cases label with
    | processFind => trivial
    | statusFind => trivial
    | save index now newId parents =>
        -- a blocked save has no call
        intro pending hcall
        simp [execDecided, exec, hcall] at h
  · intro s label t hs hstand h
    exact decisionsStand_step_iff hs hstand h
  · exact undecided_start table
  · exact decisionsStand_start table

end Runs

/-- A consumer loads the open alert before an analyst resolves it, and saves
    after. -/
def reopenedByTraffic : List Label :=
  [.processFind .first (sampleEvent sampleUuid sampleRule), .save 0 1 firstAlert sampleParents,
    .processFind .first (sampleEvent sampleUuid sampleRule),
    .statusFind sampleUuid firstAlert .RESOLVED,
    .save 1 2 "" sampleParents, .save 0 3 "" sampleParents]

attribute [local instance] NumberText.integers in
/-- The alert is open again. -/
theorem resolved_alert_reopened :
    ∃ s, runFrom execDecided (Decided.start Table.empty) reopenedByTraffic = some s ∧
      s.decision firstAlert = some .RESOLVED ∧ s.table.rows.map Alert.status = [.OPEN] ∧
      ¬ DecisionsStand s := by
  have hfinal : (runFrom execDecided (Decided.start Table.empty) reopenedByTraffic).map
      (fun s => (s.decision firstAlert, s.table.rows.map Alert.status)) =
      some (some .RESOLVED, [.OPEN]) := by
    decide +kernel
  obtain ⟨s, hrun, hvalues⟩ := Option.map_eq_some_iff.mp hfinal
  simp only [Prod.mk.injEq] at hvalues
  obtain ⟨hdecision, hopen⟩ := hvalues
  refine ⟨s, hrun, hdecision, hopen, ?_⟩
  intro hstand
  obtain ⟨alert, halert, -, hstatus⟩ := hstand firstAlert .RESOLVED hdecision
  have hmem : alert.status ∈ s.table.rows.map Alert.status := List.mem_map_of_mem halert
  rw [hopen, hstatus] at hmem
  exact absurd hmem (by decide)

end RulesEngine.Alerts

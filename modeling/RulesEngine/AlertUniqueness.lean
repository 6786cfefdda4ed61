import RulesEngine.AlertHistory
import RulesEngine.AlertInterleaving

/-!
# At most one active alert per key

`processAlertEvent` opens an alert only after `findOne` has found no active one
of the key.  Two things get around that check, and they are the only ones: an
insert carried out after another call has opened an alert of the key
(`uniqueness_iff_soleInsert`, for concurrent calls), and `updateStatus`, which
makes no check, setting an active status while the key has another active
alert (`uniqueness_iff_soleReopen`, for calls run one at a time).
-/

namespace RulesEngine.Alerts

open RulesEngine.Foundations

/-- No two stored alerts of one key are active. -/
def AtMostOneActive (table : Table Alert) : Prop :=
  ∀ a ∈ table.rows, ∀ b ∈ table.rows, a.dedupKey = b.dedupKey →
    a.status.isActive = true → b.status.isActive = true → a.id = b.id

instance (table : Table Alert) : Decidable (AtMostOneActive table) :=
  inferInstanceAs (Decidable (∀ a ∈ table.rows, ∀ b ∈ table.rows, a.dedupKey = b.dedupKey →
    a.status.isActive = true → b.status.isActive = true → a.id = b.id))

theorem atMostOneActive_empty : AtMostOneActive Table.empty :=
  fun _ h => absurd h List.not_mem_nil

/-- Saving an active alert keeps uniqueness exactly when the other active
    alerts of its key are the row it replaces. -/
theorem atMostOneActive_put_iff {table : Table Alert} {alert : Alert}
    (h : AtMostOneActive table) (hactive : alert.status.isActive = true) :
    AtMostOneActive (table.put alert) ↔
      ∀ row ∈ table.rows, row.dedupKey = alert.dedupKey → row.status.isActive = true →
        row.id = alert.id := by
  constructor
  · intro hput row hrow hkey hrowActive
    by_contra hid
    exact hid (hput row (Table.mem_put_of_ne hrow hid) alert
      (Table.mem_put_self _ _) hkey hrowActive hactive)
  · intro hrows a ha b hb hkey haActive hbActive
    rcases Table.mem_put.mp ha with rfl | ⟨haOld, -⟩
    · rcases Table.mem_put.mp hb with rfl | ⟨hbOld, -⟩
      · rfl
      · exact (hrows b hbOld hkey.symm hbActive).symm
    · rcases Table.mem_put.mp hb with rfl | ⟨hbOld, -⟩
      · exact hrows a haOld hkey haActive
      · exact h a haOld b hbOld hkey haActive hbActive

theorem atMostOneActive_put_closed {table : Table Alert} {alert : Alert}
    (h : AtMostOneActive table) (hclosed : alert.status.isActive = false) :
    AtMostOneActive (table.put alert) := by
  intro a ha b hb hkey haActive hbActive
  rcases Table.mem_put.mp ha with rfl | ⟨ha, -⟩
  · simp [hclosed] at haActive
  · rcases Table.mem_put.mp hb with rfl | ⟨hb, -⟩
    · simp [hclosed] at hbActive
    · exact h a ha b hb hkey haActive hbActive

theorem atMostOneActive_put_hit {table : Table Alert} {old alert : Alert} (now : Int)
    (h : AtMostOneActive table) (hold : old ∈ table.rows) (hfixed : old.fixed = alert.fixed)
    (holdActive : old.status.isActive = true) (hactive : alert.status.isActive = true) :
    AtMostOneActive (table.put (alert.hit now)) := by
  rw [atMostOneActive_put_iff h (by exact hactive)]
  intro row hrow hkey hrowActive
  have hkeys : row.dedupKey = old.dedupKey := hkey.trans (dedupKey_eq_of_fixed_eq hfixed).symm
  exact (h row hrow old hold hkeys hrowActive holdActive).trans (id_eq_of_fixed_eq hfixed)

/-! ### Concurrent events -/

/-- The event the `index`-th call in flight would insert an alert for. -/
def System.insertedBy (s : System) (index : Nat) : Option PendingEvent :=
  s.inFlight[index]?.bind fun call =>
    match call with
    | .process pending => if pending.existing.isNone then some pending else none
    | .updateStatus .. => none

/-- An insert is carried out while the key has no active alert (or not at all,
    because the generated id is in use or PostgreSQL refuses the row). -/
def SoleInsert (s : System) : ProcessLabel → Prop
  | .find .. => True
  | .save index _ newId parents => ∀ pending ∈ s.insertedBy index,
      s.table.Taken newId ∨ ¬ parents.AcceptEvent pending.event ∨
        ∀ row ∈ s.table.rows, row.dedupKey = pending.dedupKey → row.status.isActive = false

instance (s : System) : (label : ProcessLabel) → Decidable (SoleInsert s label)
  | .find .. => isTrue trivial
  | .save index _ newId parents => inferInstanceAs (Decidable (∀ pending ∈ s.insertedBy index,
      s.table.Taken newId ∨ ¬ parents.AcceptEvent pending.event ∨
        ∀ row ∈ s.table.rows, row.dedupKey = pending.dedupKey → row.status.isActive = false))

theorem soleInsert_of_none {s : System} {index : Nat} (h : s.insertedBy index = none)
    (now : Int) (newId : String) (parents : Parents) :
    SoleInsert s (.save index now newId parents) := by
  intro pending hpending
  exact absurd (h.symm.trans hpending) (by simp)

/-- Without status updates every stored and every loaded alert is active. -/
structure NoneClosed (s : System) : Prop where
  consistent : Consistent s
  rows : ∀ row ∈ s.table.rows, row.status.isActive = true
  calls : ∀ call ∈ s.inFlight, ∃ pending, call = .process pending
  loaded : ∀ call ∈ s.inFlight, ∀ alert, call.loaded = some alert → alert.status.isActive = true

theorem noneClosed_initial : NoneClosed System.initial where
  consistent := consistent_initial
  rows := fun _ h => absurd h List.not_mem_nil
  calls := fun _ h => absurd h List.not_mem_nil
  loaded := fun _ h => absurd h List.not_mem_nil

section Concurrent

variable [NumberText]

theorem noneClosed_step {s t : System} {label : ProcessLabel} (hs : NoneClosed s)
    (h : processExec s label = some t) : NoneClosed t := by
  have hconsistent : Consistent t := consistent_step hs.consistent h
  have hsaved : ∀ (saved : Alert), saved.status.isActive = true →
      ∀ row ∈ (s.table.put saved).rows, row.status.isActive = true := by
    intro saved hactive row hrow
    rcases Table.mem_put.mp hrow with rfl | ⟨hrow, -⟩
    · exact hactive
    · exact hs.rows row hrow
  have hmove := exec_move h
  cases label with
  | find pick event =>
      cases hmove with
      | processRejected => exact hs
      | processFound _ pending hcomputed hexisting =>
          refine ⟨hconsistent, hs.rows, ?_, ?_⟩
          · intro call hcall
            rcases List.mem_append.mp hcall with hold | hnew
            · exact hs.calls call hold
            · exact ⟨pending, List.mem_singleton.mp hnew⟩
          · intro call hcall alert hloaded
            rcases List.mem_append.mp hcall with hold | hnew
            · exact hs.loaded call hold alert hloaded
            · rw [List.mem_singleton.mp hnew] at hloaded
              exact (findActive_some (hexisting.symm.trans hloaded)).2.2
  | save index now newId parents =>
      have hcalls : ∀ call ∈ s.inFlight.eraseIdx index, ∃ pending, call = .process pending :=
        fun call hcall => hs.calls call (List.mem_of_mem_eraseIdx hcall)
      have hloaded : ∀ call ∈ s.inFlight.eraseIdx index, ∀ alert, call.loaded = some alert →
          alert.status.isActive = true :=
        fun call hcall => hs.loaded call (List.mem_of_mem_eraseIdx hcall)
      cases hmove with
      | hit _ _ _ _ pending alert hcall hexisting =>
          have hactive := hs.loaded _ (List.mem_of_getElem? hcall) alert hexisting
          exact ⟨hconsistent, hsaved (alert.hit now) hactive, hcalls, hloaded⟩
      | created _ _ _ _ pending hcall hexisting hfresh haccept =>
          exact ⟨hconsistent, hsaved (pending.newAlert now newId) rfl, hcalls, hloaded⟩
      | refused => exact ⟨hconsistent, hs.rows, hcalls, hloaded⟩
      | statusSaved _ _ _ _ alert status hcall =>
          obtain ⟨pending, hpending⟩ := hs.calls _ (List.mem_of_getElem? hcall)
          cases hpending

theorem atMostOneActive_step_iff {s t : System} {label : ProcessLabel} (hc : NoneClosed s)
    (hs : AtMostOneActive s.table) (h : processExec s label = some t) :
    AtMostOneActive t.table ↔ SoleInsert s label := by
  have hmove := exec_move h
  cases label with
  | find pick event =>
      cases hmove with
      | processRejected => exact ⟨fun _ => trivial, fun _ => hs⟩
      | processFound => exact ⟨fun _ => trivial, fun _ => hs⟩
  | save index now newId parents =>
      cases hmove with
      | hit _ _ _ _ pending alert hcall hexisting =>
          have hmem := List.mem_of_getElem? hcall
          have hnone : s.insertedBy index = none := by
            simp [System.insertedBy, hcall, hexisting]
          obtain ⟨old, hold, hfixed⟩ := hc.consistent.copies _ hmem alert hexisting
          have hactive := hc.loaded _ hmem alert hexisting
          exact ⟨fun _ => soleInsert_of_none hnone now newId parents,
            fun _ => atMostOneActive_put_hit now hs hold hfixed (hc.rows old hold) hactive⟩
      | created _ _ _ _ pending hcall hexisting hfresh haccept =>
          have hsome : s.insertedBy index = some pending := by
            simp [System.insertedBy, hcall, hexisting]
          rw [atMostOneActive_put_iff hs (by rfl)]
          constructor
          · intro hrows pending' hpending'
            cases Option.some.inj (hsome.symm.trans hpending')
            refine Or.inr (Or.inr ?_)
            intro row hrow hkey
            have hid := hrows row hrow hkey (hc.rows row hrow)
            exact absurd (List.mem_map.mpr ⟨row, hrow, hid⟩) hfresh
          · intro hsole row hrow hkey hactive
            rcases hsole pending hsome with htaken | hrefused | hclosed
            · exact absurd htaken hfresh
            · exact absurd ((accept_newAlert_iff _ _ _ _).mp haccept) hrefused
            · simp [hclosed row hrow hkey] at hactive
      | refused _ _ _ _ pending hcall hexisting hrefused =>
          have hsome : s.insertedBy index = some pending := by
            simp [System.insertedBy, hcall, hexisting]
          refine ⟨fun _ pending' hpending' => ?_, fun _ => hs⟩
          cases Option.some.inj (hsome.symm.trans hpending')
          rw [accept_newAlert_iff] at hrefused
          exact hrefused.imp_right Or.inl
      | statusSaved _ _ _ _ alert status hcall =>
          obtain ⟨pending, hpending⟩ := hc.calls _ (List.mem_of_getElem? hcall)
          cases hpending

/-- **Uniqueness under concurrency.**  Each key has at most one active alert in
    every state of a run if and only if every insert of the run is carried out
    while its key has none. -/
theorem uniqueness_iff_soleInsert (labels : List ProcessLabel) :
    EveryState processExec (fun s => AtMostOneActive s.table) System.initial labels ↔
      EveryStep processExec SoleInsert System.initial labels := by
  apply everyState_iff_everyStep (J := NoneClosed)
  · intro s label t hs h
    exact noneClosed_step hs h
  · intro s label h
    cases label with
    | find => trivial
    | save index now newId parents =>
        simp only [processExec, ProcessLabel.toLabel, exec, Option.map_eq_none_iff] at h
        exact soleInsert_of_none (by simp [System.insertedBy, h]) now newId parents
  · intro s label t hc hs h
    exact atMostOneActive_step_iff hc hs h
  · exact noneClosed_initial
  · exact atMostOneActive_empty

end Concurrent

/-- Two consumers look the key up before either inserts. -/
def overlappingInserts : List ProcessLabel :=
  [.find .first (sampleEvent sampleUuid sampleRule),
    .find .first (sampleEvent sampleUuid sampleRule),
    .save 0 1 firstAlert sampleParents, .save 0 2 secondAlert sampleParents]

attribute [local instance] NumberText.integers in
theorem overlapping_inserts_duplicate :
    ∃ s, runFrom processExec System.initial overlappingInserts = some s ∧
      ¬ AtMostOneActive s.table := by
  have hfinal : (runFrom processExec System.initial overlappingInserts).map
      (fun s => decide (AtMostOneActive s.table)) = some false := by
    decide +kernel
  obtain ⟨s, hrun, hvalue⟩ := Option.map_eq_some_iff.mp hfinal
  exact ⟨s, hrun, of_decide_eq_false hvalue⟩

/-! ### Status changes -/

/-- A status update to an active status finds no other active alert of the
    key. -/
def SoleReopen (s : Recorded) : Call → Prop
  | .process .. => True
  | .updateStatus organizationId id status => status.isActive = true →
      ∀ alert ∈ s.table.rows, alert.id = pgUuid id →
        alert.idOrganization = pgUuid organizationId →
        ∀ other ∈ s.table.rows, other.dedupKey = alert.dedupKey →
          other.status.isActive = true → other.id = alert.id

section Sequential

variable [NumberText]

theorem atMostOneActive_call_iff {s t : Recorded} {call : Call} (hs : AtMostOneActive s.table)
    (h : callStep s call = some t) : AtMostOneActive t.table ↔ SoleReopen s call := by
  cases callStep_effect h with
  | processRejected => exact ⟨fun _ => trivial, fun _ => hs⟩
  | statusRejected organizationId id status hmissing =>
      refine ⟨fun _ _ alert halert hid horg => ?_, fun _ => hs⟩
      exact absurd horg (hmissing alert halert hid)
  | hit input pending alert hcomputed halert hkey hactive =>
      exact ⟨fun _ => trivial,
        fun _ => atMostOneActive_put_hit input.now hs halert rfl hactive hactive⟩
  | created input pending hcomputed hfresh hclosed =>
      refine ⟨fun _ => trivial, fun _ => ?_⟩
      rw [atMostOneActive_put_iff hs (by rfl)]
      intro row hrow hkey hactive
      simp [hclosed row hrow hkey] at hactive
  | statusSet organizationId id alert status halert hid horg =>
      cases hactive : status.isActive with
      | false =>
          refine ⟨fun _ h => absurd (hactive.symm.trans h) (by simp), fun _ => ?_⟩
          exact atMostOneActive_put_closed hs (by exact hactive)
      | true =>
          unfold saveStatus
          rw [atMostOneActive_put_iff hs (by exact hactive)]
          constructor
          · intro hrows _ found hfound hfoundId _ other hother hkey hotherActive
            have heq : found = alert :=
              Table.eq_of_key_eq hfound halert (hfoundId.trans hid.symm)
            subst heq
            exact hrows other hother hkey hotherActive
          · intro hsole row hrow hkey hrowActive
            exact hsole hactive alert halert hid horg row hrow hkey hrowActive

/-- **Uniqueness across status changes.**  Each key has at most one active
    alert after every call if and only if no status update reopens an alert
    while its key has another active one. -/
theorem uniqueness_iff_soleReopen (calls : List Call) :
    EveryState callStep (fun s => AtMostOneActive s.table) Recorded.initial calls ↔
      EveryStep callStep SoleReopen Recorded.initial calls := by
  apply everyState_iff_everyStep (J := fun _ => True)
  · intro s call t _ _
    trivial
  · intro s call h
    cases call with
    | process => trivial
    | updateStatus organizationId id status =>
        simp only [callStep] at h
        split at h <;> simp at h
  · intro s call t _ hs h
    exact atMostOneActive_call_iff hs h
  · trivial
  · exact atMostOneActive_empty

end Sequential

/-- An alert is resolved, the next event opens a second one, and the first is
    opened again. -/
def reopeningCalls : List Call :=
  [.process (sampleInput 1 firstAlert) (sampleEvent sampleUuid sampleRule),
    .updateStatus sampleUuid firstAlert .RESOLVED,
    .process (sampleInput 2 secondAlert) (sampleEvent sampleUuid sampleRule),
    .updateStatus sampleUuid firstAlert .OPEN]

attribute [local instance] NumberText.integers in
theorem reopening_duplicates :
    ∃ s, runFrom callStep Recorded.initial reopeningCalls = some s ∧
      ¬ AtMostOneActive s.table := by
  have hfinal : (runFrom callStep Recorded.initial reopeningCalls).map
      (fun s => decide (AtMostOneActive s.table)) = some false := by
    decide +kernel
  obtain ⟨s, hrun, hvalue⟩ := Option.map_eq_some_iff.mp hfinal
  exact ⟨s, hrun, of_decide_eq_false hvalue⟩

end RulesEngine.Alerts

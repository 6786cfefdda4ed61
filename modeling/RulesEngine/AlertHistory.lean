import RulesEngine.AlertsService
import RulesEngine.Foundations.TransitionSystem

/-!
# The alerts table as a summary of the event history

Which calls of `processAlertEvent` and `updateStatus`, run one at a time, come
through shows in the call and the table it finds: an event is recorded when it
can be (`Processable`), a status is set when the organization has the alert.
The runs of this module also leave a trace of the alert each event went to, and
the table is at every moment a function of that trace (`summary`): an alert is
the first event it absorbed, the number and the last time of all it absorbed,
and the last status set on it.

`alerts_refine_history` is the refinement: the alerts share the recorded events
among them, each is the summary of its share, whichever of several matching
rows `findOne` returns.
-/

namespace RulesEngine.Alerts

open RulesEngine.Foundations

/-! ### Calls and their trace -/

/-- A call of the service, with everything it does not take from the table. -/
inductive Call where
  | process (input : ProcessInput) (event : AlertEventMessage)
  | updateStatus (organizationId id : String) (status : AlertStatus)

/-- What a call did.  `absorbed` keeps what `processAlertEvent` computed from
    the event, the time it read from the clock and the alert it saved. -/
inductive TraceEntry where
  | absorbed (pending : PendingEvent) (now : Int) (alertId : String)
  | statusSet (alertId : String) (status : AlertStatus)
  | rejected

/-- The table together with the trace of the calls that produced it. -/
structure Recorded where
  table : Table Alert
  trace : List TraceEntry

def Recorded.initial : Recorded := ⟨Table.empty, []⟩

section Calls

variable [NumberText]

/-- The trace entry of a `processAlertEvent` call. -/
def processEntry (input : ProcessInput) (event : AlertEventMessage) (table : Table Alert) :
    TraceEntry :=
  match lookup input.pick event table with
  | .error _ => .rejected
  | .ok pending =>
      match pending.record input.now input.newId input.parents table with
      | .error _ => .rejected
      | .ok _ => .absorbed pending input.now (pending.entity input.now input.newId).id

/-- Run one call to its end. -/
def callStep (s : Recorded) : Call → Option Recorded
  | .process input event => some
      { table := (processAlertEvent input event s.table).table
        trace := s.trace ++ [processEntry input event s.table] }
  | .updateStatus organizationId id status =>
      match updateStatus organizationId id status s.table with
      | .error _ => some { s with trace := s.trace ++ [.rejected] }
      | .ok table => some { table, trace := s.trace ++ [.statusSet (pgUuid id) status] }

end Calls

/-- The clock readings of the `processAlertEvent` calls, oldest first. -/
def clockReadings (calls : List Call) : List Int :=
  calls.filterMap fun call =>
    match call with
    | .process input _ => some input.now
    | .updateStatus .. => none

/-! ### The summary of a trace -/

/-- An event an alert absorbed, with its processing time. -/
structure Absorbed where
  pending : PendingEvent
  now : Int

/-- The events an alert absorbed, oldest first. -/
def absorbedBy (alertId : String) (trace : List TraceEntry) : List Absorbed :=
  trace.filterMap fun entry =>
    match entry with
    | .absorbed pending now id => if id = alertId then some ⟨pending, now⟩ else none
    | _ => none

/-- The statuses set on an alert, oldest first. -/
def statusesOf (alertId : String) (trace : List TraceEntry) : List AlertStatus :=
  trace.filterMap fun entry =>
    match entry with
    | .statusSet id status => if id = alertId then some status else none
    | _ => none

/-- The processing times of the absorbed events, oldest first. -/
def triggerTimes (trace : List TraceEntry) : List Int :=
  trace.filterMap fun entry =>
    match entry with
    | .absorbed _ now _ => some now
    | _ => none

/-- The alert that a first event, the later ones and the statuses set on it
    amount to. -/
def summarize (alertId : String) (statuses : List AlertStatus) (first : Absorbed)
    (later : List Absorbed) : Alert :=
  { first.pending.newAlert first.now alertId with
    status := statuses.getLastD .OPEN
    hitCount := later.length + 1
    lastTriggeredAt := (later.getLastD first).now }

/-- The alert that a trace says should be stored under an id, if any. -/
def summary (alertId : String) (trace : List TraceEntry) : Option Alert :=
  match absorbedBy alertId trace with
  | [] => none
  | first :: later => some (summarize alertId (statusesOf alertId trace) first later)

/-! ### How one entry changes the summary -/

theorem absorbedBy_times_sublist (id : String) (trace : List TraceEntry) :
    ((absorbedBy id trace).map Absorbed.now).Sublist (triggerTimes trace) := by
  induction trace with
  | nil => exact List.Sublist.refl _
  | cons entry trace ih =>
      cases entry with
      | absorbed pending now id' =>
          by_cases hid : id' = id
          · simpa [absorbedBy, triggerTimes, hid] using ih
          · simpa [absorbedBy, triggerTimes, hid] using ih.cons now
      | statusSet id' status => simpa [absorbedBy, triggerTimes] using ih
      | rejected => simpa [absorbedBy, triggerTimes] using ih

section Append

variable (alertId : String) (trace : List TraceEntry)

theorem triggerTimes_append_absorbed (pending : PendingEvent) (now : Int) (id : String) :
    triggerTimes (trace ++ [.absorbed pending now id]) = triggerTimes trace ++ [now] := by
  simp [triggerTimes]

theorem triggerTimes_append_statusSet (id : String) (status : AlertStatus) :
    triggerTimes (trace ++ [.statusSet id status]) = triggerTimes trace := by
  simp [triggerTimes]

theorem triggerTimes_append_rejected :
    triggerTimes (trace ++ [.rejected]) = triggerTimes trace := by
  simp [triggerTimes]

theorem absorbedBy_append_absorbed (pending : PendingEvent) (now : Int) (id : String) :
    absorbedBy alertId (trace ++ [.absorbed pending now id]) =
      absorbedBy alertId trace ++ if id = alertId then [⟨pending, now⟩] else [] := by
  by_cases h : id = alertId <;> simp [absorbedBy, h]

theorem absorbedBy_append_statusSet (id : String) (status : AlertStatus) :
    absorbedBy alertId (trace ++ [.statusSet id status]) = absorbedBy alertId trace := by
  simp [absorbedBy]

theorem statusesOf_append_absorbed (pending : PendingEvent) (now : Int) (id : String) :
    statusesOf alertId (trace ++ [.absorbed pending now id]) = statusesOf alertId trace := by
  simp [statusesOf]

theorem statusesOf_append_statusSet (id : String) (status : AlertStatus) :
    statusesOf alertId (trace ++ [.statusSet id status]) =
      statusesOf alertId trace ++ if id = alertId then [status] else [] := by
  by_cases h : id = alertId <;> simp [statusesOf, h]

@[simp] theorem summary_append_rejected :
    summary alertId (trace ++ [.rejected]) = summary alertId trace := by
  simp [summary, absorbedBy, statusesOf]

@[simp] theorem statusesOf_append_rejected :
    statusesOf alertId (trace ++ [.rejected]) = statusesOf alertId trace := by
  simp [statusesOf]

theorem summary_append_hit {alert : Alert} (pending : PendingEvent) (now : Int)
    (h : summary alertId trace = some alert) :
    summary alertId (trace ++ [.absorbed pending now alertId]) = some (alert.hit now) := by
  unfold summary at h ⊢
  rw [absorbedBy_append_absorbed, if_pos rfl, statusesOf_append_absorbed]
  cases habsorbed : absorbedBy alertId trace with
  | nil => simp [habsorbed] at h
  | cons first later =>
      simp only [habsorbed, Option.some.injEq] at h
      subst h
      simp [summarize, Alert.hit, PendingEvent.newAlert]

theorem summary_append_new (pending : PendingEvent) (now : Int)
    (h : summary alertId trace = none) (hstatus : statusesOf alertId trace = []) :
    summary alertId (trace ++ [.absorbed pending now alertId]) =
      some (pending.newAlert now alertId) := by
  unfold summary at h ⊢
  rw [absorbedBy_append_absorbed, if_pos rfl, statusesOf_append_absorbed, hstatus]
  cases habsorbed : absorbedBy alertId trace with
  | nil => simp [summarize, PendingEvent.newAlert]
  | cons first later => simp [habsorbed] at h

theorem summary_append_other (pending : PendingEvent) (now : Int) {id : String}
    (hne : id ≠ alertId) :
    summary alertId (trace ++ [.absorbed pending now id]) = summary alertId trace := by
  simp only [summary, absorbedBy_append_absorbed, if_neg hne, List.append_nil,
    statusesOf_append_absorbed]

theorem summary_append_statusSet (id : String) (status : AlertStatus) :
    summary alertId (trace ++ [.statusSet id status]) =
      if id = alertId then (summary alertId trace).map fun alert => { alert with status }
      else summary alertId trace := by
  unfold summary
  rw [absorbedBy_append_statusSet, statusesOf_append_statusSet]
  cases absorbedBy alertId trace with
  | nil => simp
  | cons first later => by_cases h : id = alertId <;> simp [h, summarize]

end Append

/-! ### What comes through -/

/-- An event that is recorded, and when. -/
structure Recording where
  event : AlertEventMessage
  now : Int

def Absorbed.recording (absorbed : Absorbed) : Recording :=
  ⟨absorbed.pending.event, absorbed.now⟩

def TraceEntry.recording : TraceEntry → Option Recording
  | .absorbed pending now _ => some (Absorbed.recording ⟨pending, now⟩)
  | .statusSet .. => none
  | .rejected => none

def TraceEntry.setting : TraceEntry → Option (String × AlertStatus)
  | .absorbed .. => none
  | .statusSet id status => some (id, status)
  | .rejected => none

theorem statusesOf_eq (alertId : String) (trace : List TraceEntry) :
    statusesOf alertId trace =
      ((trace.filterMap TraceEntry.setting).filter fun setting => setting.1 = alertId).map
        Prod.snd := by
  induction trace with
  | nil => rfl
  | cons entry trace ih =>
      unfold statusesOf at ih ⊢
      cases entry with
      | statusSet id status =>
          by_cases hid : id = alertId <;>
            simp [TraceEntry.setting, hid, ih]
      | absorbed | rejected => simp [List.filterMap_cons, TraceEntry.setting, ih]

theorem recordings_of_absorbedBy_sublist (id : String) (trace : List TraceEntry) :
    ((absorbedBy id trace).map Absorbed.recording).Sublist
      (trace.filterMap TraceEntry.recording) := by
  induction trace with
  | nil => exact List.Sublist.refl _
  | cons entry trace ih =>
      cases entry with
      | absorbed pending now id' =>
          by_cases hid : id' = id
          · simpa [absorbedBy, List.filterMap_cons, TraceEntry.recording, hid] using ih
          · simpa [absorbedBy, List.filterMap_cons, TraceEntry.recording, hid] using ih.cons _
      | statusSet | rejected =>
          simpa [absorbedBy, List.filterMap_cons, TraceEntry.recording] using ih

theorem mem_trace_of_absorbedBy {id : String} {trace : List TraceEntry} {absorbed : Absorbed}
    (h : absorbed ∈ absorbedBy id trace) :
    .absorbed absorbed.pending absorbed.now id ∈ trace := by
  obtain ⟨entry, hmem, hentry⟩ := List.mem_filterMap.mp h
  cases entry with
  | absorbed pending now id' =>
      by_cases hid : id' = id
      · simp only [hid, if_true, Option.some.injEq] at hentry
        subst hentry
        exact hid ▸ hmem
      · simp [hid] at hentry
  | statusSet id' status => simp at hentry
  | rejected => simp at hentry

/-- An entry that is no event adds no recording. -/
theorem recordings_append_none (trace : List TraceEntry) {entry : TraceEntry}
    (hentry : entry.recording = none) :
    (trace ++ [entry]).filterMap TraceEntry.recording =
      trace.filterMap TraceEntry.recording := by
  rw [List.filterMap_append, List.filterMap_cons_none hentry, List.filterMap_nil,
    List.append_nil]

/-- A list in which one place among many is given one element more. -/
theorem flatMap_cons_at_perm {ι α : Type} [DecidableEq ι] {ids : List ι} (hids : ids.Nodup) {id : ι}
    (hid : id ∈ ids) (x : α) (f : ι → List α) :
    (ids.flatMap fun i => (if id = i then [x] else []) ++ f i).Perm (x :: ids.flatMap f) := by
  induction ids with
  | nil => exact absurd hid List.not_mem_nil
  | cons first rest ih =>
      obtain ⟨hfirst, hrest⟩ := List.nodup_cons.mp hids
      rw [List.flatMap_cons, List.flatMap_cons]
      by_cases heq : id = first
      · subst heq
        have hsame : (rest.flatMap fun i => (if id = i then [x] else []) ++ f i) =
            rest.flatMap f := by
          refine List.flatMap_congr fun i hi => ?_
          have hne : id ≠ i := fun h => hfirst (h ▸ hi)
          rw [if_neg hne, List.nil_append]
        rw [if_pos rfl, hsame]
        exact List.Perm.refl _
      · rw [if_neg heq, List.nil_append]
        have hin : id ∈ rest := (List.mem_cons.mp hid).resolve_left heq
        exact ((ih hrest hin).append_left (f first)).trans List.perm_middle

/-- The absorbed events are shared out among the ids they went to. -/
theorem absorbedBy_perm {ids : List String} (hids : ids.Nodup) {trace : List TraceEntry}
    (hcover : ∀ pending now id, .absorbed pending now id ∈ trace → id ∈ ids) :
    ((ids.flatMap fun id => absorbedBy id trace).map Absorbed.recording).Perm
      (trace.filterMap TraceEntry.recording) := by
  induction trace with
  | nil =>
      have hnone : (ids.flatMap fun id => absorbedBy id []) = [] :=
        List.flatMap_eq_nil_iff.mpr fun _ _ => rfl
      rw [hnone]
      exact List.Perm.refl _
  | cons entry trace ih =>
      have hperm := ih fun pending now id h => hcover pending now id (List.mem_cons_of_mem _ h)
      cases entry with
      | absorbed pending now id =>
          have hcons : ∀ i, absorbedBy i (.absorbed pending now id :: trace) =
              (if id = i then [⟨pending, now⟩] else []) ++ absorbedBy i trace := by
            intro i
            by_cases h : id = i <;> simp [absorbedBy, h]
          simp only [hcons]
          have hplace := flatMap_cons_at_perm hids (hcover pending now id List.mem_cons_self)
            (⟨pending, now⟩ : Absorbed) fun i => absorbedBy i trace
          exact (hplace.map Absorbed.recording).trans (hperm.cons _)
      | statusSet | rejected => exact hperm

/-- The alert of an id has a key. -/
def StoredUnder (table : Table Alert) (id dedupKey : String) : Prop :=
  ∃ alert ∈ table.rows, alert.id = id ∧ alert.dedupKey = dedupKey

theorem storedUnder_put {table : Table Alert} {alert : Alert}
    (hkept : ∀ old ∈ table.rows, old.id = alert.id → old.dedupKey = alert.dedupKey)
    (id dedupKey : String) (h : StoredUnder table id dedupKey) :
    StoredUnder (table.put alert) id dedupKey := by
  obtain ⟨old, hold, rfl, rfl⟩ := h
  by_cases hid : old.id = alert.id
  · exact ⟨alert, Table.mem_put_self table alert, hid.symm, (hkept old hold hid).symm⟩
  · exact ⟨old, Table.mem_put_of_ne hold hid, rfl, rfl⟩

/-- A row that is saved under its own key keeps the key of every row. -/
theorem storedUnder_put_same {table : Table Alert} {old alert : Alert} (hold : old ∈ table.rows)
    (hid : old.id = alert.id) (hkey : old.dedupKey = alert.dedupKey) (id dedupKey : String)
    (h : StoredUnder table id dedupKey) : StoredUnder (table.put alert) id dedupKey := by
  refine storedUnder_put (fun other hother hsame => ?_) id dedupKey h
  exact Table.eq_of_key_eq hother hold (hsame.trans hid.symm) ▸ hkey

section Outcomes

variable [NumberText]

/-- The recording of a call. -/
def recordingOf (s : Recorded) : Call → List Recording
  | .process input event =>
      if Processable input event s.table then [⟨event, input.now⟩] else []
  | .updateStatus .. => []

/-- The alert a call sets a status on, with the status. -/
def settingOf (s : Recorded) : Call → List (String × AlertStatus)
  | .process .. => []
  | .updateStatus organizationId id status =>
      if ∃ alert ∈ s.table.rows,
          alert.id = pgUuid id ∧ alert.idOrganization = pgUuid organizationId then
        [(pgUuid id, status)]
      else []

/-- The recordings of some calls, oldest first. -/
def recordings (calls : List Call) : List Recording :=
  traceOf callStep recordingOf Recorded.initial calls

/-- The number of the recordings with a key. -/
def recordedWith (dedupKey : String) (recordings : List Recording) : Nat :=
  (recordings.map fun recording => acceptedKey recording.event).count (some dedupKey)

theorem recordedWith_append {pending : PendingEvent} (hcomputed : pending.Computed)
    (dedupKey : String) (recordings : List Recording) (now : Int) :
    recordedWith dedupKey (recordings ++ [Absorbed.recording ⟨pending, now⟩]) =
      recordedWith dedupKey recordings + if pending.dedupKey = dedupKey then 1 else 0 := by
  have hkey : acceptedKey (Absorbed.recording ⟨pending, now⟩).event = some pending.dedupKey :=
    acceptedKey_of_computed hcomputed
  rw [recordedWith, List.map_append, List.map_singleton, hkey, List.count_append, recordedWith]
  by_cases h : pending.dedupKey = dedupKey <;> simp [h]

/-- The statuses that some calls set, oldest first. -/
def settings (calls : List Call) : List (String × AlertStatus) :=
  traceOf callStep settingOf Recorded.initial calls

/-- What a call appends to the trace is what comes through. -/
theorem outcome_callStep {s t : Recorded} {call : Call} (h : callStep s call = some t) :
    t.trace.filterMap TraceEntry.recording =
        s.trace.filterMap TraceEntry.recording ++ recordingOf s call ∧
      t.trace.filterMap TraceEntry.setting =
        s.trace.filterMap TraceEntry.setting ++ settingOf s call := by
  cases call with
  | process input event =>
      cases h
      have hentry : [processEntry input event s.table].filterMap TraceEntry.recording =
          recordingOf s (.process input event) ∧
          [processEntry input event s.table].filterMap TraceEntry.setting = [] := by
        unfold processEntry
        simp only [recordingOf]
        cases hlookup : lookup input.pick event s.table with
        | error e =>
            have hnot : ¬ Processable input event s.table := by
              intro hprocessable
              obtain ⟨pending, hpending, -⟩ := record_of_processable hprocessable
              cases hlookup.symm.trans hpending
            rw [if_neg hnot]
            exact ⟨rfl, rfl⟩
        | ok pending =>
            obtain ⟨rfl, -, -⟩ := lookup_ok hlookup
            cases hrecord : pending.record input.now input.newId input.parents s.table with
            | error e =>
                have hnot : ¬ Processable input pending.event s.table := by
                  intro hprocessable
                  obtain ⟨pending', hpending', hrecorded⟩ := record_of_processable hprocessable
                  cases hlookup.symm.trans hpending'
                  cases hrecord.symm.trans hrecorded
                rw [if_neg hnot]
                exact ⟨by simp only [hrecord]; rfl, by simp only [hrecord]; rfl⟩
            | ok table =>
                rw [if_pos (processable_of_record hlookup hrecord)]
                exact ⟨by simp only [hrecord]; rfl, by simp only [hrecord]; rfl⟩
      rw [List.filterMap_append, List.filterMap_append, hentry.1, hentry.2]
      exact ⟨rfl, rfl⟩
  | updateStatus organizationId id status =>
      simp only [callStep, updateStatus] at h
      simp only [recordingOf, settingOf]
      cases hfind : findOne organizationId id s.table with
      | error e =>
          simp only [hfind, Except.map, Option.some.injEq] at h
          subst h
          have hmissing : ¬ ∃ alert ∈ s.table.rows,
              alert.id = pgUuid id ∧ alert.idOrganization = pgUuid organizationId := by
            rintro ⟨alert, halert, hid, horg⟩
            exact findOne_error hfind alert halert hid horg
          rw [if_neg hmissing, List.filterMap_append, List.filterMap_append]
          exact ⟨rfl, rfl⟩
      | ok alert =>
          simp only [hfind, Except.map, Option.some.injEq] at h
          subst h
          rw [if_pos ⟨alert, findOne_ok hfind⟩, List.filterMap_append, List.filterMap_append]
          exact ⟨by simp [TraceEntry.recording], rfl⟩

theorem outcome_run {calls : List Call} {s t : Recorded}
    (hrun : runFrom callStep s calls = some t) :
    t.trace.filterMap TraceEntry.recording =
        s.trace.filterMap TraceEntry.recording ++ traceOf callStep recordingOf s calls ∧
      t.trace.filterMap TraceEntry.setting =
        s.trace.filterMap TraceEntry.setting ++ traceOf callStep settingOf s calls := by
  induction calls generalizing s with
  | nil =>
      cases hrun
      exact ⟨(List.append_nil _).symm, (List.append_nil _).symm⟩
  | cons call calls ih =>
      obtain ⟨m, hm, hrest⟩ := runFrom_cons_eq_some.mp hrun
      obtain ⟨hrecordings, hsettings⟩ := ih hrest
      obtain ⟨hrecording, hsetting⟩ := outcome_callStep hm
      rw [traceOf_cons hm, traceOf_cons hm, hrecordings, hsettings, hrecording, hsetting,
        List.append_assoc, List.append_assoc]
      exact ⟨rfl, rfl⟩

/-- The recordings and the settings of a run are those of its trace. -/
theorem outcome_of_run {calls : List Call} {s : Recorded}
    (hrun : runFrom callStep Recorded.initial calls = some s) :
    s.trace.filterMap TraceEntry.recording = recordings calls ∧
      s.trace.filterMap TraceEntry.setting = settings calls :=
  outcome_run hrun

end Outcomes

/-! ### What a call does -/

section Runs

variable [NumberText]

/-- What a call can do: nothing, add a hit to an active alert of the
    event's key, create the first active alert of the key, or set a status. -/
inductive Effect (s : Recorded) : Call → Recorded → Prop where
  | processRejected (input : ProcessInput) (event : AlertEventMessage) :
      Effect s (.process input event) { s with trace := s.trace ++ [.rejected] }
  | statusRejected (organizationId id : String) (status : AlertStatus) :
      (∀ alert ∈ s.table.rows, alert.id = pgUuid id →
        alert.idOrganization ≠ pgUuid organizationId) →
      Effect s (.updateStatus organizationId id status) { s with trace := s.trace ++ [.rejected] }
  | hit (input : ProcessInput) (pending : PendingEvent) (alert : Alert) :
      pending.Computed → alert ∈ s.table.rows → alert.dedupKey = pending.dedupKey →
      alert.status.isActive = true →
      Effect s (.process input pending.event)
        { table := s.table.put (alert.hit input.now)
          trace := s.trace ++ [.absorbed pending input.now alert.id] }
  | created (input : ProcessInput) (pending : PendingEvent) :
      pending.Computed → ¬ s.table.Taken input.newId →
      (∀ alert ∈ s.table.rows, alert.dedupKey = pending.dedupKey →
        alert.status.isActive = false) →
      Effect s (.process input pending.event)
        { table := s.table.put (pending.newAlert input.now input.newId)
          trace := s.trace ++ [.absorbed pending input.now input.newId] }
  | statusSet (organizationId id : String) (alert : Alert) (status : AlertStatus) :
      alert ∈ s.table.rows → alert.id = pgUuid id →
      alert.idOrganization = pgUuid organizationId →
      Effect s (.updateStatus organizationId id status)
        { table := saveStatus alert status s.table
          trace := s.trace ++ [.statusSet alert.id status] }

theorem callStep_effect {s t : Recorded} {call : Call} (h : callStep s call = some t) :
    Effect s call t := by
  cases call with
  | process input event =>
      simp only [callStep, processAlertEvent, processEntry, Option.some.injEq] at h
      cases hlookup : lookup input.pick event s.table with
      | error e =>
          simp only [hlookup] at h
          exact h ▸ .processRejected input event
      | ok pending =>
          obtain ⟨rfl, hcomputed, hexisting⟩ := lookup_ok hlookup
          cases hrecord : pending.record input.now input.newId input.parents s.table with
          | error e =>
              simp only [hlookup, hrecord] at h
              exact h ▸ .processRejected input pending.event
          | ok table =>
              simp only [hlookup, hrecord] at h
              obtain ⟨hfresh, rfl⟩ := record_ok hrecord
              subst h
              cases hfound : pending.existing with
              | some alert =>
                  obtain ⟨hmem, halertKey, hactive⟩ := findActive_some (hexisting.symm.trans hfound)
                  simp only [PendingEvent.entity, hfound]
                  exact .hit input pending alert hcomputed hmem halertKey hactive
              | none =>
                  have hclosed := findActive_none (hexisting.symm.trans hfound)
                  simp only [PendingEvent.entity, hfound]
                  exact .created input pending hcomputed (hfresh hfound).1 hclosed
  | updateStatus organizationId id status =>
      simp only [callStep, updateStatus] at h
      cases hfind : findOne organizationId id s.table with
      | error e =>
          simp only [hfind, Except.map, Option.some.injEq] at h
          exact h ▸ .statusRejected organizationId id status (findOne_error hfind)
      | ok alert =>
          obtain ⟨hmem, hid, horg⟩ := findOne_ok hfind
          simp only [hfind, Except.map, Option.some.injEq] at h
          rw [← hid] at h
          exact h ▸ .statusSet organizationId id alert status hmem hid horg

/-! ### The table is the summary of its trace -/

/-- The refinement relation between the table and the history. -/
structure Summarized (s : Recorded) : Prop where
  rows : ∀ id, s.table.get? id = summary id s.trace
  unset : ∀ id, s.table.get? id = none → statusesOf id s.trace = []
  ledger : ∀ dedupKey, hitTotal s.table dedupKey =
    recordedWith dedupKey (s.trace.filterMap TraceEntry.recording)
  absorbed : ∀ pending now id, .absorbed pending now id ∈ s.trace →
    pending.Computed ∧ StoredUnder s.table id pending.dedupKey

theorem summarized_initial : Summarized Recorded.initial where
  rows := fun _ => rfl
  unset := fun _ _ => rfl
  ledger := fun _ => rfl
  absorbed := fun _ _ _ h => absurd h List.not_mem_nil

/-- An event is added to an alert of its key, and the others keep theirs. -/
theorem Summarized.absorbed_append {s : Recorded} (hs : Summarized s) {pending : PendingEvent}
    (hcomputed : pending.Computed) (now : Int) {table : Table Alert} {id : String}
    (hkept : ∀ id dedupKey, StoredUnder s.table id dedupKey → StoredUnder table id dedupKey)
    (hkey : StoredUnder table id pending.dedupKey) :
    ∀ pending' now' id', .absorbed pending' now' id' ∈ s.trace ++ [.absorbed pending now id] →
      pending'.Computed ∧ StoredUnder table id' pending'.dedupKey := by
  intro pending' now' id' hmem
  rcases List.mem_append.mp hmem with hold | hnew
  · obtain ⟨hcomputed', hkey'⟩ := hs.absorbed _ _ _ hold
    exact ⟨hcomputed', hkept _ _ hkey'⟩
  · cases List.mem_singleton.mp hnew
    exact ⟨hcomputed, hkey⟩

/-- An entry that is no event adds to no alert. -/
theorem Summarized.absorbed_kept {s : Recorded} (hs : Summarized s) {table : Table Alert}
    (hkept : ∀ id dedupKey, StoredUnder s.table id dedupKey → StoredUnder table id dedupKey)
    {entry : TraceEntry} (hentry : entry.recording = none) :
    ∀ pending now id, .absorbed pending now id ∈ s.trace ++ [entry] →
      pending.Computed ∧ StoredUnder table id pending.dedupKey := by
  intro pending now id hmem
  rcases List.mem_append.mp hmem with hold | hnew
  · obtain ⟨hcomputed, hkey⟩ := hs.absorbed _ _ _ hold
    exact ⟨hcomputed, hkept _ _ hkey⟩
  · cases List.mem_singleton.mp hnew
    cases hentry

theorem summarized_hit {s : Recorded} (hs : Summarized s) {pending : PendingEvent}
    (hcomputed : pending.Computed) {alert : Alert} (halert : alert ∈ s.table.rows)
    (hkey : alert.dedupKey = pending.dedupKey) (now : Int) :
    Summarized
      { table := s.table.put (alert.hit now)
        trace := s.trace ++ [.absorbed pending now alert.id] } where
  rows := by
    intro id
    by_cases hid : alert.id = id
    · subst hid
      have hrow : summary alert.id s.trace = some alert := by
        rw [← hs.rows]
        exact Table.get?_eq_some_iff.mpr ⟨halert, rfl⟩
      rw [summary_append_hit _ _ _ _ hrow]
      exact Table.get?_put_self s.table (alert.hit now)
    · rw [summary_append_other _ _ _ _ hid, ← hs.rows]
      exact Table.get?_put_of_ne _ (Ne.symm hid)
  unset := by
    intro id hnone
    rw [statusesOf_append_absorbed]
    by_cases hid : alert.id = id
    · subst hid
      exact absurd ((Table.get?_put_self s.table (alert.hit now)).symm.trans hnone) (by simp)
    · rw [Table.get?_put_of_ne _ (Ne.symm hid)] at hnone
      exact hs.unset id hnone
  ledger := by
    intro dedupKey
    have hput := hitTotal_put (alert.hit now) dedupKey halert rfl rfl
    have hledger := hs.ledger dedupKey
    rw [List.filterMap_append]
    refine Eq.trans ?_ (recordedWith_append hcomputed dedupKey _ now).symm
    simp only [hit_dedupKey, hit_hitCount, hkey] at hput
    by_cases h : pending.dedupKey = dedupKey
    · simp only [h, if_true] at hput ⊢
      omega
    · simp only [h, if_false] at hput ⊢
      omega
  absorbed := hs.absorbed_append hcomputed now (storedUnder_put_same halert rfl rfl)
    ⟨alert.hit now, Table.mem_put_self _ _, rfl, hkey⟩

theorem summarized_created {s : Recorded} (hs : Summarized s) {pending : PendingEvent}
    (hcomputed : pending.Computed) {newId : String} (hfresh : ¬ s.table.Taken newId) (now : Int) :
    Summarized
      { table := s.table.put (pending.newAlert now newId)
        trace := s.trace ++ [.absorbed pending now newId] } where
  rows := by
    intro id
    by_cases hid : newId = id
    · subst hid
      have hnone : s.table.get? newId = none := Table.get?_eq_none_iff.mpr hfresh
      rw [summary_append_new _ _ _ _ (hs.rows newId ▸ hnone) (hs.unset newId hnone)]
      exact Table.get?_put_self s.table (pending.newAlert now newId)
    · rw [summary_append_other _ _ _ _ hid, ← hs.rows]
      exact Table.get?_put_of_ne _ (Ne.symm hid)
  unset := by
    intro id hnone
    rw [statusesOf_append_absorbed]
    by_cases hid : newId = id
    · subst hid
      exact absurd ((Table.get?_put_self s.table (pending.newAlert now newId)).symm.trans hnone)
        (by simp)
    · rw [Table.get?_put_of_ne _ (Ne.symm hid)] at hnone
      exact hs.unset id hnone
  ledger := by
    intro dedupKey
    rw [hitTotal_put_new pending now dedupKey hfresh, hs.ledger, List.filterMap_append]
    exact (recordedWith_append hcomputed dedupKey _ now).symm
  absorbed := by
    refine hs.absorbed_append hcomputed now (storedUnder_put fun old hold hid => ?_)
      ⟨pending.newAlert now newId, Table.mem_put_self _ _, rfl, rfl⟩
    exact absurd (List.mem_map.mpr ⟨old, hold, hid⟩) hfresh

theorem summarized_statusSet {s : Recorded} (hs : Summarized s) {alert : Alert}
    (halert : alert ∈ s.table.rows) (status : AlertStatus) :
    Summarized
      { table := saveStatus alert status s.table
        trace := s.trace ++ [.statusSet alert.id status] } where
  rows := by
    intro id
    rw [summary_append_statusSet, ← hs.rows]
    by_cases hid : alert.id = id
    · subst hid
      rw [if_pos rfl, Table.get?_eq_some_iff (k := alert.id) |>.mpr ⟨halert, rfl⟩]
      exact Table.get?_put_self s.table { alert with status }
    · rw [if_neg hid]
      exact Table.get?_put_of_ne _ (Ne.symm hid)
  unset := by
    intro id hnone
    rw [statusesOf_append_statusSet]
    by_cases hid : alert.id = id
    · subst hid
      exact absurd ((Table.get?_put_self s.table { alert with status }).symm.trans hnone)
        (by simp)
    · rw [if_neg hid, List.append_nil]
      unfold saveStatus at hnone
      rw [Table.get?_put_of_ne _ (Ne.symm hid)] at hnone
      exact hs.unset id hnone
  ledger := by
    intro dedupKey
    have hput := hitTotal_put { alert with status } dedupKey halert rfl rfl
    refine Eq.trans ?_ (congrArg (recordedWith dedupKey) (recordings_append_none _ rfl).symm)
    exact (Nat.add_right_cancel hput).trans (hs.ledger dedupKey)
  absorbed := by
    have hstored := @storedUnder_put_same s.table alert { alert with status } halert rfl rfl
    exact hs.absorbed_kept hstored rfl

theorem summarized_rejected {s : Recorded} (hs : Summarized s) :
    Summarized { s with trace := s.trace ++ [.rejected] } where
  rows := fun id => (hs.rows id).trans (summary_append_rejected id s.trace).symm
  unset := fun id hnone => (statusesOf_append_rejected id s.trace).trans (hs.unset id hnone)
  ledger := by
    intro dedupKey
    refine Eq.trans ?_ (congrArg (recordedWith dedupKey) (recordings_append_none _ rfl).symm)
    exact hs.ledger dedupKey
  absorbed := hs.absorbed_kept (fun _ _ h => h) rfl

theorem summarized_step {s t : Recorded} {call : Call} (hs : Summarized s)
    (h : callStep s call = some t) : Summarized t := by
  cases callStep_effect h with
  | processRejected => exact summarized_rejected hs
  | statusRejected => exact summarized_rejected hs
  | hit input pending alert hcomputed halert hkey hactive =>
      exact summarized_hit hs hcomputed halert hkey input.now
  | created input pending hcomputed hfresh hclosed =>
      exact summarized_created hs hcomputed hfresh input.now
  | statusSet organizationId id alert status halert => exact summarized_statusSet hs halert status

/-- After every run of calls the table is the summary of its trace. -/
theorem summarized_of_run {calls : List Call} {s : Recorded}
    (hrun : runFrom callStep Recorded.initial calls = some s) : Summarized s :=
  runFrom_invariant (fun _ _ _ hs h => summarized_step hs h) summarized_initial hrun

/-! ### Reading an alert back from the history -/

theorem Summarized.row_eq {s : Recorded} (hs : Summarized s) {alert : Alert}
    (halert : alert ∈ s.table.rows) :
    ∃ first later, absorbedBy alert.id s.trace = first :: later ∧
      alert = summarize alert.id (statusesOf alert.id s.trace) first later := by
  have hrow : s.table.get? alert.id = some alert := Table.get?_eq_some_iff.mpr ⟨halert, rfl⟩
  rw [hs.rows] at hrow
  unfold summary at hrow
  cases habsorbed : absorbedBy alert.id s.trace with
  | nil => simp [habsorbed] at hrow
  | cons first later =>
      simp only [habsorbed, Option.some.injEq] at hrow
      exact ⟨first, later, rfl, hrow.symm⟩

/-- What an alert absorbed has its key. -/
theorem Summarized.absorbedBy_spec {s : Recorded} (hs : Summarized s) {alert : Alert}
    (halert : alert ∈ s.table.rows) {absorbed : Absorbed}
    (h : absorbed ∈ absorbedBy alert.id s.trace) :
    absorbed.pending.Computed ∧ absorbed.pending.dedupKey = alert.dedupKey := by
  obtain ⟨hcomputed, other, hother, hid, hkey⟩ :=
    hs.absorbed _ _ _ (mem_trace_of_absorbedBy h)
  exact ⟨hcomputed, hkey ▸ congrArg Alert.dedupKey (Table.eq_of_key_eq hother halert hid)⟩

/-- The alerts share out the recordings. -/
theorem Summarized.absorbedBy_perm {s : Recorded} (hs : Summarized s) :
    (s.table.rows.flatMap fun alert =>
      (absorbedBy alert.id s.trace).map Absorbed.recording).Perm
      (s.trace.filterMap TraceEntry.recording) := by
  have hcover : ∀ pending now id, .absorbed pending now id ∈ s.trace →
      id ∈ s.table.rows.map Alert.id := by
    intro pending now id hmem
    obtain ⟨-, alert, halert, hid, -⟩ := hs.absorbed _ _ _ hmem
    exact List.mem_map.mpr ⟨alert, halert, hid⟩
  have hperm := Alerts.absorbedBy_perm s.table.unique hcover
  rwa [List.map_flatMap, List.flatMap_map] at hperm

theorem triggerTimes_sublist {calls : List Call} {s t : Recorded}
    (hrun : runFrom callStep s calls = some t) :
    ∃ times, times.Sublist (clockReadings calls) ∧
      triggerTimes t.trace = triggerTimes s.trace ++ times := by
  induction calls generalizing s with
  | nil =>
      simp only [runFrom_nil, Option.some.injEq] at hrun
      exact ⟨[], List.Sublist.refl _, by simp [hrun]⟩
  | cons call calls ih =>
      obtain ⟨m, hm, hrest⟩ := runFrom_cons_eq_some.mp hrun
      obtain ⟨times, hsub, heq⟩ := ih hrest
      cases callStep_effect hm with
      | processRejected input event =>
          exact ⟨times, hsub.cons input.now, by rw [heq, triggerTimes_append_rejected]⟩
      | statusRejected =>
          exact ⟨times, hsub, by rw [heq, triggerTimes_append_rejected]⟩
      | hit input pending alert =>
          refine ⟨input.now :: times, hsub.cons_cons input.now, ?_⟩
          rw [heq, triggerTimes_append_absorbed, List.append_assoc, List.singleton_append]
      | created input pending =>
          refine ⟨input.now :: times, hsub.cons_cons input.now, ?_⟩
          rw [heq, triggerTimes_append_absorbed, List.append_assoc, List.singleton_append]
      | statusSet organizationId id alert status =>
          exact ⟨times, hsub, by rw [heq, triggerTimes_append_statusSet]⟩

/-- With a non-decreasing clock, the first event an alert absorbed is not later
    than the last. -/
theorem first_le_last {calls : List Call} {s : Recorded}
    (hrun : runFrom callStep Recorded.initial calls = some s)
    (hclock : (clockReadings calls).Pairwise (· ≤ ·)) {id : String} {first : Absorbed}
    {later : List Absorbed} (h : absorbedBy id s.trace = first :: later) :
    first.now ≤ (later.getLastD first).now := by
  obtain ⟨times, hsub, heq⟩ := triggerTimes_sublist hrun
  have htimes : (triggerTimes s.trace).Pairwise (· ≤ ·) := by
    rw [heq]
    exact hclock.sublist hsub
  have hsorted := htimes.sublist (absorbedBy_times_sublist id s.trace)
  rw [h, List.map_cons, List.pairwise_cons] at hsorted
  cases later with
  | nil => exact Int.le_refl _
  | cons next rest =>
      have hlast : (next :: rest).getLastD first ∈ next :: rest := by
        rw [List.getLastD_cons]
        exact List.getLastD_mem_cons
      exact hsorted.1 _ (List.mem_map_of_mem hlast)

/-! ### Rows that stay -/

theorem callStep_keeps_id {s t : Recorded} {call : Call} (h : callStep s call = some t)
    {id : String} (hid : s.table.Taken id) : t.table.Taken id := by
  cases callStep_effect h with
  | processRejected => exact hid
  | statusRejected => exact hid
  | hit => exact Table.taken_put _ _ hid
  | created => exact Table.taken_put _ _ hid
  | statusSet => exact Table.taken_put _ _ hid

/-- No call of `processAlertEvent` touches a closed alert. -/
theorem processAlertEvent_keeps_closed (input : ProcessInput) (event : AlertEventMessage)
    {s : Recorded} {alert : Alert} (halert : alert ∈ s.table.rows)
    (hclosed : alert.status.isActive = false) :
    alert ∈ (processAlertEvent input event s.table).table.rows := by
  have heffect := callStep_effect (show callStep s (.process input event) = some _ from rfl)
  generalize ht : (⟨_, _⟩ : Recorded) = t at heffect
  have htable : (processAlertEvent input event s.table).table = t.table := by rw [← ht]
  rw [htable]
  cases heffect with
  | processRejected => exact halert
  | hit _ _ found hcomputed hfound hkey hactive =>
      refine Table.mem_put_of_ne halert ?_
      intro hid
      have heq := Table.eq_of_key_eq halert hfound hid
      simp [← heq, hclosed] at hactive
  | created _ _ hcomputed hfresh =>
      refine Table.mem_put_of_ne halert ?_
      intro hid
      exact hfresh (List.mem_map.mpr ⟨alert, halert, hid⟩)

theorem runFrom_keeps_id {calls : List Call} {s t : Recorded}
    (hrun : runFrom callStep s calls = some t) {id : String} (hid : s.table.Taken id) :
    t.table.Taken id :=
  runFrom_invariant (I := fun s => s.table.Taken id)
    (fun _ _ _ htaken h => callStep_keeps_id h htaken) hid hrun

/-- The data an alert takes from the event that opened it. -/
structure Alert.OpenedBy (alert : Alert) (event : AlertEventMessage) : Prop where
  organization : alert.idOrganization = pgUuid event.organizationId
  rule : alert.idRule = uuidColumn event.ruleId
  transaction : alert.idTransaction = event.transactionId
  account : alert.idAccount = event.accountId
  dedupKey : calculateDedupKey event = .ok alert.dedupKey
  severity : parseSeverity event.severity = .ok alert.severity
  category : parseCategory event.category = .ok alert.category
  metadata : alert.metadata = ⟨event.ruleName, event.eventType, event.eventParams⟩

theorem summarize_openedBy (id : String) (statuses : List AlertStatus) (first : Absorbed)
    (later : List Absorbed) (h : first.pending.Computed) :
    (summarize id statuses first later).OpenedBy first.pending.event where
  organization := rfl
  rule := rfl
  transaction := rfl
  account := rfl
  dedupKey := h.dedupKey
  severity := h.severity
  category := h.category
  metadata := rfl

/-- An alert and its share of the recordings, oldest first. -/
structure Alert.Summarizes (alert : Alert) (first : Recording) (later : List Recording) :
    Prop where
  opened : alert.OpenedBy first.event
  keys : ∀ recording ∈ first :: later, acceptedKey recording.event = some alert.dedupKey
  hitCount : alert.hitCount = later.length + 1
  firstTriggeredAt : alert.firstTriggeredAt = first.now
  lastTriggeredAt : alert.lastTriggeredAt = (later.getLastD first).now
  ordered : alert.firstTriggeredAt ≤ alert.lastTriggeredAt

theorem Summarized.summarizes {calls : List Call} {s : Recorded}
    (hrun : runFrom callStep Recorded.initial calls = some s)
    (hclock : (clockReadings calls).Pairwise (· ≤ ·)) {alert : Alert}
    (halert : alert ∈ s.table.rows) :
    ∃ first later, (absorbedBy alert.id s.trace).map Absorbed.recording = first :: later ∧
      alert.Summarizes first later := by
  have hs := summarized_of_run hrun
  obtain ⟨first, later, habsorbed, heq⟩ := hs.row_eq halert
  have hlast : ((later.map Absorbed.recording).getLastD first.recording).now =
      (later.getLastD first).now := by
    rw [List.getLastD_map]
    rfl
  refine ⟨first.recording, later.map Absorbed.recording, by rw [habsorbed, List.map_cons], ?_⟩
  refine ⟨?_, ?_, ?_, ?_, ?_, ?_⟩
  · rw [heq]
    exact summarize_openedBy _ _ _ _ (hs.absorbedBy_spec halert (habsorbed ▸ List.mem_cons_self)).1
  · intro recording hrecording
    rw [← List.map_cons, ← habsorbed] at hrecording
    obtain ⟨absorbed, hmem, rfl⟩ := List.mem_map.mp hrecording
    obtain ⟨hcomputed, hkey⟩ := hs.absorbedBy_spec halert hmem
    exact (acceptedKey_of_computed hcomputed).trans (congrArg some hkey)
  · rw [heq, List.length_map]
    rfl
  · rw [heq]
    rfl
  · rw [hlast, heq]
    rfl
  · rw [heq]
    exact first_le_last hrun hclock habsorbed

/-- **The table refines the history.**  After any calls run one at a time: the
    hits of a key are the events recorded with it; the alerts share the recorded
    events among them, each has those of its key, the data of the first, their
    number and the times of the first and the last; its status is the last one
    set on it; a closed alert is left alone by every further event; and no alert
    ever disappears. -/
theorem alerts_refine_history {calls : List Call} {s : Recorded}
    (hrun : runFrom callStep Recorded.initial calls = some s)
    (hclock : (clockReadings calls).Pairwise (· ≤ ·)) :
    (∀ dedupKey, hitTotal s.table dedupKey = recordedWith dedupKey (recordings calls)) ∧
    (∃ share : Alert → List Recording,
      (s.table.rows.flatMap share).Perm (recordings calls) ∧
      ∀ alert ∈ s.table.rows, (share alert).Sublist (recordings calls) ∧
        ∃ first later, share alert = first :: later ∧ alert.Summarizes first later) ∧
    (∀ alert ∈ s.table.rows, alert.status =
      (((settings calls).filter fun setting => setting.1 = alert.id).map Prod.snd).getLastD
        .OPEN) ∧
    (∀ input event, ∀ alert ∈ s.table.rows, alert.status.isActive = false →
      alert ∈ (processAlertEvent input event s.table).table.rows) ∧
    (∀ further t, runFrom callStep s further = some t →
      ∀ alert ∈ s.table.rows, ∃ alert' ∈ t.table.rows, alert'.id = alert.id) := by
  have hs := summarized_of_run hrun
  obtain ⟨hrecordings, hsettings⟩ := outcome_of_run hrun
  rw [← hrecordings, ← hsettings]
  refine ⟨hs.ledger, ⟨fun alert => (absorbedBy alert.id s.trace).map Absorbed.recording,
    hs.absorbedBy_perm, ?_⟩, ?_, ?_, ?_⟩
  · intro alert halert
    exact ⟨recordings_of_absorbedBy_sublist alert.id s.trace,
      Summarized.summarizes hrun hclock halert⟩
  · intro alert halert
    obtain ⟨first, later, -, heq⟩ := hs.row_eq halert
    rw [← statusesOf_eq]
    exact congrArg Alert.status heq
  · intro input event alert halert hclosed
    exact processAlertEvent_keeps_closed input event halert hclosed
  · intro further t hfurther alert halert
    obtain ⟨alert', halert', hid⟩ :=
      List.mem_map.mp (runFrom_keeps_id hfurther (Table.taken_of_mem halert))
    exact ⟨alert', halert', hid⟩

end Runs

/-- Two events, a resolution, a third event. -/
def sampleCalls : List Call :=
  [.process (sampleInput 1 firstAlert) (sampleEvent sampleUuid sampleRule),
    .process (sampleInput 2 secondAlert) (sampleEvent sampleUuid sampleRule),
    .updateStatus sampleUuid firstAlert .RESOLVED,
    .process (sampleInput 3 thirdAlert) (sampleEvent sampleUuid sampleRule)]

attribute [local instance] NumberText.integers in
/-- They leave one closed alert of two hits and one open alert of one. -/
theorem alerts_refine_history_sample :
    ∃ s, runFrom callStep Recorded.initial sampleCalls = some s ∧
      (∀ dedupKey, hitTotal s.table dedupKey = recordedWith dedupKey (recordings sampleCalls)) ∧
      (recordings sampleCalls).map Recording.now = [1, 2, 3] ∧
      s.table.rows.map (fun alert => (alert.id, alert.status, alert.hitCount)) =
        [(firstAlert, .RESOLVED, 2), (thirdAlert, .OPEN, 1)] := by
  have hrows : (runFrom callStep Recorded.initial sampleCalls).map
      (fun s => s.table.rows.map fun alert => (alert.id, alert.status, alert.hitCount)) =
      some [(firstAlert, .RESOLVED, 2), (thirdAlert, .OPEN, 1)] := by
    decide +kernel
  obtain ⟨s, hrun, hstored⟩ := Option.map_eq_some_iff.mp hrows
  exact ⟨s, hrun, (alerts_refine_history hrun (by decide)).1, by decide +kernel, hstored⟩

end RulesEngine.Alerts

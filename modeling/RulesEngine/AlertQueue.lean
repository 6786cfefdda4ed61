import RulesEngine.AlertLedger
import RulesEngine.Database
import RulesEngine.Foundations.AcknowledgedQueue
import Mathlib.Data.Fintype.EquivFin

/-!
# The alerts queue

`AlertsConsumer` takes alert events from a durable queue: it runs
`processAlertEvent` and acknowledges the message in its `finally`, so a message
comes back only when its consumer dies before that.  Any number of consumers
work at once, together with `updateStatus` requests and with `DELETE` requests
for rules, whose alerts the foreign key deletes with them.

While PostgreSQL takes what the consumers insert and no rule is removed, every
accepted event that is acknowledged has its alert (`acknowledged_stored`), the
consumers can always get that far (`eventually_stored`), and the hits of a key
count the accepted messages with that key once, and once more for each
redelivery after a save (`drained_hits`).
-/

namespace RulesEngine.Alerts

open RulesEngine.Foundations

/-! ### Consumers -/

/-- Where `handleAlertEvent` stands: before its `findOne`, before its `save`,
    before the action handlers, or in its `finally`, with the key of the event
    if it was saved. -/
inductive Attempt where
  | received
  | found (pending : PendingEvent)
  | saved (pending : PendingEvent)
  | settled (recorded : Option String)

/-- A step of an attempt.  `parents` has the rules and the transactions that are
    there when PostgreSQL checks the row. -/
inductive AttemptStep where
  | find (pick : Pick)
  | save (now : Int) (newId : String) (parents : Parents)
  | handle

/-- The `alerts` table and the `updateStatus` calls between `findOne` and `save`. -/
structure AlertStore where
  table : Table Alert
  updates : List (Alert × AlertStatus)

/-- `save` writes a row that is not there with an `INSERT`, which PostgreSQL may
    refuse. -/
def insertRefused (table : Table Alert) (alert : Alert) (parents : Parents) : Prop :=
  ¬ parents.Accept alert ∧ ¬ table.Taken alert.id

instance (table : Table Alert) (alert : Alert) (parents : Parents) :
    Decidable (insertRefused table alert parents) :=
  inferInstanceAs (Decidable (_ ∧ _))

section Consumers

variable [NumberText]

/-- One step of `handleAlertEvent`.  A promise that rejects is logged, and so is one
    that rejects in the action handlers. -/
def attemptStep (store : AlertStore) (event : AlertEventMessage) :
    Attempt → AttemptStep → Option (AlertStore × Attempt)
  | .received, .find pick =>
      match lookup pick event store.table with
      | .error _ => some (store, .settled none)
      | .ok pending => some (store, .found pending)
  | .found pending, .save now newId parents =>
      if insertRefused store.table (pending.entity now newId) parents then
        some (store, .settled none)
      else
        match pending.record now newId parents store.table with
        | .error _ => some (store, .settled none)
        | .ok table => some ({ store with table }, .saved pending)
  | .saved pending, .handle => some (store, .settled (some pending.dedupKey))
  | _, _ => none

/-- The key a saved attempt was saved with. -/
def Attempt.recorded : Attempt → Option String
  | .received => none
  | .found _ => none
  | .saved pending => some pending.dedupKey
  | .settled recorded => recorded

/-- `channel.ack` is next. -/
def Attempt.finished : Attempt → Bool
  | .settled _ => true
  | _ => false

/-- Everything a step of an attempt can do. -/
inductive Progress (store : AlertStore) (event : AlertEventMessage) :
    Attempt → AttemptStep → AlertStore → Attempt → Prop where
  | rejected (pick : Pick) (e : Thrown) : lookup pick event store.table = .error e →
      Progress store event .received (.find pick) store (.settled none)
  | looked (pick : Pick) (pending : PendingEvent) : lookup pick event store.table = .ok pending →
      Progress store event .received (.find pick) store (.found pending)
  | unsaved (pending : PendingEvent) (now : Int) (newId : String) (parents : Parents) :
      insertRefused store.table (pending.entity now newId) parents ∨
        (pending.existing = none ∧
          (store.table.Taken newId ∨ ¬ parents.Accept (pending.newAlert now newId))) →
      Progress store event (.found pending) (.save now newId parents) store (.settled none)
  | recorded (pending : PendingEvent) (now : Int) (newId : String) (parents : Parents) :
      (pending.existing = none → ¬ store.table.Taken newId) →
      Progress store event (.found pending) (.save now newId parents)
        { store with table := store.table.put (pending.entity now newId) } (.saved pending)
  | handled (pending : PendingEvent) :
      Progress store event (.saved pending) .handle store (.settled (some pending.dedupKey))

theorem attemptStep_progress {store store' : AlertStore} {event : AlertEventMessage}
    {attempt attempt' : Attempt} {label : AttemptStep}
    (h : attemptStep store event attempt label = some (store', attempt')) :
    Progress store event attempt label store' attempt' := by
  unfold attemptStep at h
  split at h
  · rename_i pick
    split at h
    · rename_i e he
      cases h
      exact .rejected pick e he
    · rename_i pending hpending
      cases h
      exact .looked pick pending hpending
  · rename_i pending now newId parents
    split at h
    · rename_i hrefused
      cases h
      exact .unsaved pending now newId parents (Or.inl hrefused)
    · split at h
      · rename_i e he
        cases h
        exact .unsaved pending now newId parents (Or.inr (record_error he))
      · rename_i table hrecord
        cases h
        obtain ⟨haccept, rfl⟩ := record_ok hrecord
        exact .recorded pending now newId parents fun hnone => (haccept hnone).1
  · rename_i pending
    cases h
    exact .handled pending
  · cases h

theorem recorded_attemptStep {store store' : AlertStore} {event : AlertEventMessage}
    {attempt attempt' : Attempt} {label : AttemptStep} {key : String}
    (h : attemptStep store event attempt label = some (store', attempt'))
    (hkey : attempt.recorded = some key) : attempt'.recorded = some key := by
  cases attemptStep_progress h with
  | rejected pick e he => cases hkey
  | looked pick pending hpending => cases hkey
  | unsaved pending now newId parents hwhy => cases hkey
  | recorded pending now newId parents hfresh => cases hkey
  | handled pending => exact hkey

/-- `AlertsConsumer`. -/
def alertsConsumer : Worker AlertStore AlertEventMessage Attempt AttemptStep String where
  start := .received
  work := attemptStep
  finished := Attempt.finished
  receipt := Attempt.recorded
  receipt_start := rfl
  receipt_work := recorded_attemptStep

end Consumers

/-! ### Requests -/

/-- The accesses of `updateStatus` requests, and the removal of a rule. -/
inductive StoreEvent where
  | statusFind (organizationId id : String) (status : AlertStatus)
  | statusSave (index : Nat) (parents : Parents)
  | removeRule (ruleId : String)

def requestStep (store : AlertStore) : StoreEvent → Option AlertStore
  | .statusFind organizationId id status =>
      match findOne organizationId id store.table with
      | .error _ => some store
      | .ok alert => some { store with updates := store.updates ++ [(alert, status)] }
  | .statusSave index parents =>
      store.updates[index]?.map fun (alert, status) =>
        if insertRefused store.table alert parents then
          { store with updates := store.updates.eraseIdx index }
        else
          { table := saveStatus alert status store.table
            updates := store.updates.eraseIdx index }
  | .removeRule ruleId =>
      some { store with table := store.table.retain fun alert => !alert.ofRule ruleId }

/-- The save of a request is refused or writes the loaded alert with its status. -/
theorem requestStep_statusSave {store store' : AlertStore} {index : Nat} {parents : Parents}
    (h : requestStep store (.statusSave index parents) = some store') :
    ∃ alert status, store.updates[index]? = some (alert, status) ∧
      store'.updates = store.updates.eraseIdx index ∧
      (store'.table = store.table ∨ ¬ insertRefused store.table alert parents ∧
        store'.table = saveStatus alert status store.table) := by
  obtain ⟨⟨alert, status⟩, hindex, rfl⟩ := Option.map_eq_some_iff.mp h
  refine ⟨alert, status, hindex, ?_⟩
  by_cases hrefused : insertRefused store.table alert parents
  · dsimp only
    rw [if_pos hrefused]
    exact ⟨rfl, Or.inl rfl⟩
  · dsimp only
    rw [if_neg hrefused]
    exact ⟨rfl, Or.inr ⟨hrefused, rfl⟩⟩

abbrev AlertQueue := Served AlertStore AlertEventMessage Attempt String

abbrev AlertTraffic := Traffic AlertEventMessage AttemptStep StoreEvent

def AlertQueue.initial : AlertQueue := ⟨⟨Table.empty, []⟩, Queue.empty⟩

/-- One step of the whole system. -/
def queueExec [NumberText] : AlertQueue → AlertTraffic → Option AlertQueue :=
  alertsConsumer.exec requestStep

/-! ### Rows that stay -/

/-- The stored alerts have the key. -/
def HasKey (table : Table Alert) (dedupKey : String) : Prop :=
  ∃ alert ∈ table.rows, alert.dedupKey = dedupKey

/-- The `updateStatus` calls hold copies of stored alerts. -/
def UpdatesSound (store : AlertStore) : Prop :=
  ∀ update ∈ store.updates, HasCopy store.table update.1

/-- Every row of `table` is still in `table'`, up to the columns a save changes. -/
def Keeps (table table' : Table Alert) : Prop :=
  ∀ alert, HasCopy table alert → HasCopy table' alert

theorem Keeps.hasKey {table table' : Table Alert} (h : Keeps table table') {dedupKey : String}
    (hkey : HasKey table dedupKey) : HasKey table' dedupKey := by
  obtain ⟨alert, halert, rfl⟩ := hkey
  obtain ⟨row, hrow, hfixed⟩ := h alert ⟨alert, halert, rfl⟩
  exact ⟨row, hrow, dedupKey_eq_of_fixed_eq hfixed⟩

theorem Keeps.updatesSound {table : Table Alert} {store : AlertStore} (h : Keeps store.table table)
    (hupdates : UpdatesSound store) : UpdatesSound { store with table } :=
  fun update hupdate => h _ (hupdates update hupdate)

/-- Saving what an attempt found, or a new alert, loses no row. -/
theorem keeps_record {table : Table Alert} {pending : PendingEvent} {now : Int} {newId : String}
    (hfresh : pending.existing = none → ¬ table.Taken newId)
    (hcopy : ∀ alert, pending.existing = some alert → HasCopy table alert) :
    Keeps table (table.put (pending.entity now newId)) := by
  intro alert halert
  unfold PendingEvent.entity
  cases hexisting : pending.existing with
  | none => exact hasCopy_put_new halert (hfresh hexisting)
  | some found => exact hasCopy_put halert (hcopy found hexisting)

theorem entity_dedupKey {pending : PendingEvent}
    (h : ∀ alert, pending.existing = some alert → alert.dedupKey = pending.dedupKey) (now : Int)
    (newId : String) : (pending.entity now newId).dedupKey = pending.dedupKey := by
  unfold PendingEvent.entity
  cases hexisting : pending.existing with
  | none => rfl
  | some found => exact h found hexisting

theorem taken_of_hasCopy {table : Table Alert} {alert : Alert} (h : HasCopy table alert) :
    table.Taken alert.id := by
  obtain ⟨row, hrow, hfixed⟩ := h
  exact id_eq_of_fixed_eq hfixed ▸ Table.taken_of_mem hrow

/-- A save of a request whose alert is still there is not refused. -/
theorem requestStep_saved {store store' : AlertStore} {index : Nat} {parents : Parents}
    (hupdates : UpdatesSound store)
    (h : requestStep store (.statusSave index parents) = some store') :
    ∃ alert status, store.updates[index]? = some (alert, status) ∧
      HasCopy store.table alert ∧
      store' = ⟨saveStatus alert status store.table, store.updates.eraseIdx index⟩ := by
  obtain ⟨⟨alert, status⟩, hindex, rfl⟩ := Option.map_eq_some_iff.mp h
  have hcopy : HasCopy store.table alert := hupdates _ (List.mem_of_getElem? hindex)
  refine ⟨alert, status, hindex, hcopy, if_neg ?_⟩
  exact fun hrefused => hrefused.2 (taken_of_hasCopy hcopy)

/-- Some id is not in use. -/
theorem exists_newId (table : Table Alert) : ∃ newId, ¬ table.Taken newId := by
  obtain ⟨newId, hnew⟩ := Infinite.exists_notMem_finset (table.rows.map key).toFinset
  exact ⟨newId, fun htaken => hnew (List.mem_toFinset.mpr htaken)⟩

/-! ### Accepted events -/

section Queue

variable [NumberText]

/-! ### Runs in which inserts succeed

The generated ids are new, PostgreSQL takes the inserted alerts, and no rule is
removed with its alerts. -/

def InsertAccepted (store : AlertStore) (event : AlertEventMessage) :
    Attempt → AttemptStep → Prop
  | .found pending, .save _ newId parents =>
      pending.existing = none → ¬ store.table.Taken newId ∧ parents.AcceptEvent event
  | _, _ => True

instance (store : AlertStore) (event : AlertEventMessage) :
    (attempt : Attempt) → (label : AttemptStep) →
      Decidable (InsertAccepted store event attempt label)
  | .found pending, .save _ newId parents => inferInstanceAs (Decidable
      (pending.existing = none → ¬ store.table.Taken newId ∧ parents.AcceptEvent event))
  | .found _, .find _ | .found _, .handle => isTrue trivial
  | .received, _ | .saved _, _ | .settled _, _ => isTrue trivial

/-- The inserts for the expected events succeed. -/
def InsertAcceptedFor (expected : AlertEventMessage → Prop) (store : AlertStore)
    (event : AlertEventMessage) (attempt : Attempt) (label : AttemptStep) : Prop :=
  expected event → InsertAccepted store event attempt label

def NotRemoval (_ : AlertStore) : StoreEvent → Prop
  | .removeRule _ => False
  | .statusFind .. | .statusSave .. => True

instance (store : AlertStore) : (event : StoreEvent) → Decidable (NotRemoval store event)
  | .removeRule _ => isFalse id
  | .statusFind .. | .statusSave .. => isTrue trivial

section Expected

variable {expected : AlertEventMessage → Prop}

/-- What an attempt knows of its event and of the table; the expected events are
    those whose inserts succeed. -/
def AttemptSound (expected : AlertEventMessage → Prop) (store : AlertStore)
    (event : AlertEventMessage) : Attempt → Prop
  | .received => True
  | .found pending => pending.event = event ∧ acceptedKey event = some pending.dedupKey ∧
      ∀ alert, pending.existing = some alert →
        HasCopy store.table alert ∧ alert.dedupKey = pending.dedupKey
  | .saved pending => acceptedKey event = some pending.dedupKey ∧
      HasKey store.table pending.dedupKey
  | .settled recorded => (expected event → acceptedKey event = recorded) ∧
      ∀ key ∈ recorded, HasKey store.table key

theorem AttemptSound.mono {expected' : AlertEventMessage → Prop}
    (hexpected : ∀ event, expected' event → expected event) {store : AlertStore}
    {event : AlertEventMessage} {attempt : Attempt}
    (h : AttemptSound expected store event attempt) :
    AttemptSound expected' store event attempt := by
  cases attempt with
  | received => trivial
  | found pending => exact h
  | saved pending => exact h
  | settled recorded => exact ⟨fun hevent => h.1 (hexpected event hevent), h.2⟩

theorem Keeps.attemptSound {store store' : AlertStore} (h : Keeps store.table store'.table)
    {event : AlertEventMessage} {attempt : Attempt}
    (hattempt : AttemptSound expected store event attempt) :
    AttemptSound expected store' event attempt := by
  cases attempt with
  | received => trivial
  | found pending =>
      obtain ⟨hevent, hkey, hcopy⟩ := hattempt
      exact ⟨hevent, hkey,
        fun alert halert => ⟨h alert (hcopy alert halert).1, (hcopy alert halert).2⟩⟩
  | saved pending => exact ⟨hattempt.1, h.hasKey hattempt.2⟩
  | settled recorded => exact ⟨hattempt.1, fun key hkey => h.hasKey (hattempt.2 key hkey)⟩

/-- No insert that is accepted is refused. -/
theorem not_unsaved {store : AlertStore} {event : AlertEventMessage} {pending : PendingEvent}
    {now : Int} {newId : String} {parents : Parents}
    (hsound : AttemptSound expected store event (.found pending))
    (haccepted : InsertAccepted store event (.found pending) (.save now newId parents)) :
    ¬ (insertRefused store.table (pending.entity now newId) parents ∨
      (pending.existing = none ∧
        (store.table.Taken newId ∨ ¬ parents.Accept (pending.newAlert now newId)))) := by
  obtain ⟨rfl, -, hcopy⟩ := hsound
  have haccept : pending.existing = none → parents.Accept (pending.newAlert now newId) :=
    fun hnone => (accept_newAlert_iff parents pending now newId).mpr (haccepted hnone).2
  rintro (⟨hrefused, hnew⟩ | ⟨hnone, htaken | hrefused⟩)
  · unfold PendingEvent.entity at hrefused hnew
    cases hexisting : pending.existing with
    | none =>
        rw [hexisting] at hrefused
        exact hrefused (haccept hexisting)
    | some alert =>
        rw [hexisting] at hnew
        exact hnew (taken_of_hasCopy (hcopy alert hexisting).1)
  · exact (haccepted hnone).1 htaken
  · exact hrefused (haccept hnone)

theorem alertsConsumer_invariant : alertsConsumer.TaskInvariant requestStep
    (InsertAcceptedFor expected) NotRemoval UpdatesSound (AttemptSound expected) where
  start := fun _ _ => trivial
  work := by
    intro store event attempt label store' attempt' hupdates hsound haccepted hwork
    cases attemptStep_progress hwork with
    | rejected pick e he =>
        refine ⟨hupdates, ⟨fun _ => acceptedKey_of_rejected he, ?_⟩, fun _ _ h => h⟩
        intro key hkey
        cases hkey
    | looked pick pending hpending =>
        obtain ⟨rfl, hcomputed, hexisting⟩ := lookup_ok hpending
        refine ⟨hupdates, ⟨rfl, acceptedKey_of_computed hcomputed, ?_⟩, fun _ _ h => h⟩
        intro alert halert
        obtain ⟨hmem, hkey, -⟩ := findActive_some (hexisting.symm.trans halert)
        exact ⟨⟨alert, hmem, rfl⟩, hkey⟩
    | unsaved pending now newId parents hwhy =>
        refine ⟨hupdates, ⟨fun hevent => ?_, ?_⟩, fun _ _ h => h⟩
        · exact absurd hwhy (not_unsaved hsound (haccepted hevent))
        · intro key hkey
          cases hkey
    | recorded pending now newId parents hfresh =>
        obtain ⟨-, haccepted, hcopy⟩ := hsound
        have hkeeps : Keeps store.table (store.table.put (pending.entity now newId)) :=
          keeps_record hfresh fun alert h => (hcopy alert h).1
        have hkey := entity_dedupKey (fun alert h => (hcopy alert h).2) now newId
        exact ⟨hkeeps.updatesSound hupdates, ⟨haccepted, _, Table.mem_put_self _ _, hkey⟩,
          fun _ _ h => hkeeps.attemptSound h⟩
    | handled pending =>
        refine ⟨hupdates, ⟨fun _ => hsound.1, ?_⟩, fun _ _ h => h⟩
        intro key hkey
        cases hkey
        exact hsound.2
  outside := by
    intro store event store' hupdates hallowed hstep
    cases event with
    | statusFind organizationId id status =>
        simp only [requestStep] at hstep
        cases hfind : findOne organizationId id store.table with
        | error e =>
            simp only [hfind, Option.some.injEq] at hstep
            subst hstep
            exact ⟨hupdates, fun _ _ h => h⟩
        | ok alert =>
            simp only [hfind, Option.some.injEq] at hstep
            subst hstep
            refine ⟨?_, fun _ _ h => h⟩
            intro update hupdate
            rcases List.mem_append.mp hupdate with hold | hnew
            · exact hupdates update hold
            · rw [List.mem_singleton.mp hnew]
              exact ⟨alert, (findOne_ok hfind).1, rfl⟩
    | statusSave index parents =>
        obtain ⟨alert, status, -, hcopy, rfl⟩ := requestStep_saved hupdates hstep
        have hkeeps : Keeps store.table (saveStatus alert status store.table) :=
          fun other hother => hasCopy_put hother hcopy
        refine ⟨?_, fun _ _ h => hkeeps.attemptSound h⟩
        intro update hupdate
        exact hkeeps _ (hupdates update (List.mem_of_mem_eraseIdx hupdate))
    | removeRule ruleId => exact hallowed.elim

theorem sound_initial : Worker.Sound UpdatesSound (AttemptSound expected) AlertQueue.initial :=
  Worker.sound_empty fun _ h => absurd h List.not_mem_nil

end Expected

/-- Every event is expected. -/
abbrev EventSound : AlertStore → AlertEventMessage → Attempt → Prop :=
  AttemptSound fun _ => True

omit [NumberText] in
theorem guard_everything {s : AlertQueue} {label : AlertTraffic}
    (h : Worker.Guard InsertAccepted NotRemoval s label) :
    Worker.Guard (InsertAcceptedFor fun _ => True) NotRemoval s label :=
  Worker.Guard.mono (fun _ _ _ _ h _ => h) (fun _ _ h => h) h

/-- What holds in a run in which inserts succeed. -/
theorem sound_of_run {labels : List AlertTraffic} {s : AlertQueue}
    (hguard : EveryStep queueExec (Worker.Guard InsertAccepted NotRemoval) AlertQueue.initial
      labels)
    (hrun : runFrom queueExec AlertQueue.initial labels = some s) :
    Worker.Sound UpdatesSound EventSound s :=
  Worker.sound_run alertsConsumer_invariant sound_initial
    (EveryStep.mono (fun _ _ h => guard_everything h) hguard) hrun

/-- An acknowledged event has settled. -/
theorem settled_of_acked {s : AlertQueue} (h : alertsConsumer.AckedFinished s)
    {d : Envelope AlertEventMessage} {attempt : Attempt} (hacked : (d, attempt) ∈ s.queue.acked) :
    ∃ recorded, attempt = .settled recorded := by
  have hfinished := h _ hacked
  cases attempt with
  | settled recorded => exact ⟨recorded, rfl⟩
  | received => cases hfinished
  | found pending => cases hfinished
  | saved pending => cases hfinished

theorem ackedFinished_of_run {labels : List AlertTraffic} {s : AlertQueue}
    (hrun : runFrom queueExec AlertQueue.initial labels = some s) :
    alertsConsumer.AckedFinished s :=
  Worker.ackedFinished_run (fun _ h => absurd h List.not_mem_nil) hrun

/-- **No accepted event is lost.**  Whatever consumers die and whatever saves
    overwrite each other, each published message waits, is held or is
    acknowledged, exactly once.  In a run in which inserts succeed, an accepted
    event that was acknowledged has an alert with its key. -/
theorem acknowledged_stored {labels : List AlertTraffic} {s : AlertQueue}
    (hrun : runFrom queueExec AlertQueue.initial labels = some s) :
    (s.queue.ready ++ s.queue.held.map Prod.fst ++ s.queue.acked.map Prod.fst).Perm
        (envelopesFrom 0 s.queue.published) ∧
      (EveryStep queueExec (Worker.Guard InsertAccepted NotRemoval) AlertQueue.initial labels →
        ∀ d attempt, (d, attempt) ∈ s.queue.acked → ∀ key, acceptedKey d.message = some key →
          ∃ alert ∈ s.shared.table.rows, alert.dedupKey = key) := by
  refine ⟨Worker.accounted_run (Worker.accounted_empty _) hrun, ?_⟩
  intro hguard d attempt hacked key hkey
  have hsound := (sound_of_run hguard hrun).2 (d, attempt) (List.mem_append_right _ hacked)
  obtain ⟨recorded, heq⟩ := settled_of_acked (ackedFinished_of_run hrun) hacked
  rw [heq] at hsound
  exact hsound.2 key ((hsound.1 trivial).symm.trans hkey)

/-! ### Draining -/

/-- The steps an attempt takes at most before its acknowledgement. -/
def Attempt.rank : Attempt → Nat
  | .received => 3
  | .found _ => 2
  | .saved _ => 1
  | .settled _ => 0

theorem rank_attemptStep {store : AlertStore} {event : AlertEventMessage} {attempt : Attempt}
    {label : AttemptStep} {store' : AlertStore} {attempt' : Attempt}
    (h : attemptStep store event attempt label = some (store', attempt')) :
    attempt'.rank < attempt.rank := by
  cases attemptStep_progress h with
  | rejected pick e he => exact Nat.zero_lt_succ 2
  | looked pick pending hpending => exact Nat.lt_succ_self 2
  | unsaved pending now newId parents hwhy => exact Nat.zero_lt_succ 1
  | recorded pending now newId parents hfresh => exact Nat.lt_succ_self 1
  | handled pending => exact Nat.zero_lt_one

/-- The saves use ids that are new, and find these parents. -/
def SavesAgainst (parents : Parents) (store : AlertStore) (_ : AlertEventMessage) :
    Attempt → AttemptStep → Prop
  | .found _, .save _ newId found => found = parents ∧ ¬ store.table.Taken newId
  | _, _ => True

omit [NumberText] in
theorem insertAccepted_of_savesAgainst {parents : Parents} {store : AlertStore}
    {event : AlertEventMessage} {attempt : Attempt} {label : AttemptStep}
    (h : SavesAgainst parents store event attempt label) :
    InsertAcceptedFor parents.AcceptEvent store event attempt label := by
  intro hevent
  cases attempt with
  | found pending =>
      cases label with
      | save now newId found => exact fun _ => ⟨h.2, h.1 ▸ hevent⟩
      | find | handle => trivial
  | received | saved | settled => trivial

/-- An attempt that is not finished has such a step. -/
theorem exists_attemptStep (parents : Parents) (store : AlertStore) (event : AlertEventMessage)
    (attempt : Attempt) :
    attempt.finished = true ∨ ∃ label store' attempt',
      SavesAgainst parents store event attempt label ∧
        attemptStep store event attempt label = some (store', attempt') := by
  cases attempt with
  | received =>
      refine Or.inr ⟨.find .first, ?_⟩
      cases hlookup : lookup .first event store.table with
      | error e => exact ⟨store, .settled none, trivial, by simp only [attemptStep, hlookup]⟩
      | ok pending => exact ⟨store, .found pending, trivial, by simp only [attemptStep, hlookup]⟩
  | found pending =>
      obtain ⟨newId, hnew⟩ := exists_newId store.table
      have hstep : (attemptStep store event (.found pending) (.save 0 newId parents)).isSome := by
        simp only [attemptStep]
        split
        · rfl
        · split <;> rfl
      obtain ⟨⟨store', attempt'⟩, hstep⟩ := Option.isSome_iff_exists.mp hstep
      exact Or.inr ⟨.save 0 newId parents, store', attempt', ⟨rfl, hnew⟩, hstep⟩
  | saved pending => exact Or.inr ⟨.handle, store, .settled (some pending.dedupKey), trivial, rfl⟩
  | settled recorded => exact Or.inl rfl

/-- In a drained queue every expected event that is accepted has its alert. -/
theorem stored_of_drained {expected : AlertEventMessage → Prop} {s : AlertQueue}
    (haccounted : Worker.Accounted s)
    (hsound : Worker.Sound UpdatesSound (AttemptSound expected) s)
    (hfinished : alertsConsumer.AckedFinished s) (hdrained : Worker.Drained s)
    {event : AlertEventMessage} (hevent : event ∈ s.queue.published)
    (hexpected : expected event) {key : String} (hkey : acceptedKey event = some key) :
    HasKey s.shared.table key := by
  have hacked := (Worker.messages_of_drained haccounted hdrained).mem_iff.mpr hevent
  obtain ⟨⟨d, attempt⟩, hmem, rfl⟩ := List.mem_map.mp hacked
  have hattempt := hsound.2 _ (List.mem_append_right _ hmem)
  obtain ⟨recorded, rfl⟩ := settled_of_acked hfinished hmem
  exact hattempt.2 key ((hattempt.1 hexpected).symm.trans hkey)

/-- The count that a save overwrites is the one that was loaded. -/
def CountUnchanged (table : Table Alert) (alert : Alert) : Prop :=
  ∀ row ∈ table.rows, row.id = alert.id → row.hitCount = alert.hitCount

instance (table : Table Alert) (alert : Alert) : Decidable (CountUnchanged table alert) :=
  inferInstanceAs (Decidable (∀ row ∈ table.rows, _ → _))

/-- The save of an attempt finds the count that was loaded. -/
def AttemptFresh (store : AlertStore) : Attempt → AttemptStep → Prop
  | .found pending, .save .. => ∀ alert ∈ pending.existing, CountUnchanged store.table alert
  | _, _ => True

instance (store : AlertStore) : (attempt : Attempt) → (label : AttemptStep) →
    Decidable (AttemptFresh store attempt label)
  | .found pending, .save .. => inferInstanceAs
      (Decidable (∀ alert ∈ pending.existing, CountUnchanged store.table alert))
  | .found _, .find _ | .found _, .handle => isTrue trivial
  | .received, _ | .saved _, _ | .settled _, _ => isTrue trivial

/-- A step of an attempt that loses no hit. -/
def StepLossless (store : AlertStore) (event : AlertEventMessage) (attempt : Attempt)
    (label : AttemptStep) : Prop :=
  InsertAccepted store event attempt label ∧ AttemptFresh store attempt label

instance (store : AlertStore) (event : AlertEventMessage) (attempt : Attempt)
    (label : AttemptStep) : Decidable (StepLossless store event attempt label) :=
  inferInstanceAs (Decidable (_ ∧ _))

/-- A step of a request that loses no hit. -/
def RequestLossless (store : AlertStore) : StoreEvent → Prop
  | .statusSave index _ => ∀ update ∈ store.updates[index]?, CountUnchanged store.table update.1
  | .statusFind .. => True
  | .removeRule _ => False

instance (store : AlertStore) : (event : StoreEvent) → Decidable (RequestLossless store event)
  | .statusSave index _ => inferInstanceAs
      (Decidable (∀ update ∈ store.updates[index]?, CountUnchanged store.table update.1))
  | .statusFind .. => isTrue trivial
  | .removeRule _ => isFalse id

abbrev Lossless : AlertQueue → AlertTraffic → Prop := Worker.Guard StepLossless RequestLossless

/-- The hits of every key are its receipts: `Balanced` of the saves so far. -/
def QueueBalanced (s : AlertQueue) : Prop :=
  Balanced ⟨s.shared.table, [], s.queue.receipts.map Prod.snd⟩

omit [NumberText] in
theorem lossless_guard {s : AlertQueue} {label : AlertTraffic} (h : Lossless s label) :
    Worker.Guard InsertAccepted NotRemoval s label := by
  refine Worker.Guard.mono (fun _ _ _ _ h => h.1) ?_ h
  intro store event hevent
  cases event with
  | statusFind organizationId id status => trivial
  | statusSave index parents => trivial
  | removeRule ruleId => exact hevent

theorem queueBalanced_step {s t : AlertQueue} {label : AlertTraffic}
    (hsound : Worker.Sound UpdatesSound EventSound s) (hs : QueueBalanced s)
    (hlossless : Lossless s label) (h : queueExec s label = some t) : QueueBalanced t := by
  cases Worker.exec_move h with
  | published messages => exact hs
  | delivered position d hd => exact hs
  | acknowledged slot d attempt hslot hfinished => exact hs
  | givenBack slot d attempt hslot => exact hs
  | worked slot label d attempt attempt' store hslot hwork =>
      have hown := hsound.2 (d, attempt) (List.mem_append_left _ (List.mem_of_getElem? hslot))
      have hstep := hlossless (d, attempt) hslot
      unfold QueueBalanced
      cases attemptStep_progress hwork with
      | rejected pick e he =>
          have hnone : alertsConsumer.newReceipt d .received (.settled none) = none := rfl
          rw [hnone, Option.toList_none, List.append_nil]
          exact hs
      | looked pick pending hpending =>
          have hnone : alertsConsumer.newReceipt d .received (.found pending) = none := rfl
          rw [hnone, Option.toList_none, List.append_nil]
          exact hs
      | handled pending =>
          have hnone : alertsConsumer.newReceipt d (.saved pending)
              (.settled (some pending.dedupKey)) = none := rfl
          rw [hnone, Option.toList_none, List.append_nil]
          exact hs
      | unsaved pending now newId parents hwhy =>
          exact absurd hwhy (not_unsaved hown hstep.1)
      | recorded pending now newId parents hfresh =>
          have hreceipt : alertsConsumer.newReceipt d (.found pending) (.saved pending) =
              some (d, pending.dedupKey) := rfl
          rw [hreceipt, Option.toList_some, List.map_append, List.map_singleton]
          unfold PendingEvent.entity
          cases hexisting : pending.existing with
          | none =>
              exact balanced_created hs 0 now pending (hfresh hexisting)
          | some alert =>
              obtain ⟨⟨row, hrow, hfixed⟩, hkey⟩ := hown.2.2 alert hexisting
              rw [← hkey]
              exact (balanced_hit_iff hs 0 now hrow hfixed).mpr
                (hstep.2 alert hexisting row hrow (id_eq_of_fixed_eq hfixed))
  | elsewhere event store hstore =>
      cases event with
      | statusFind organizationId id status =>
          simp only [requestStep] at hstore
          split at hstore <;> cases hstore <;> exact hs
      | statusSave index parents =>
          obtain ⟨alert, status, hindex, ⟨row, hrow, hfixed⟩, rfl⟩ :=
            requestStep_saved hsound.1 hstore
          exact (balanced_status_iff hs 0 status hrow hfixed).mpr
            (hlossless _ hindex row hrow (id_eq_of_fixed_eq hfixed))
      | removeRule ruleId => exact hlossless.elim

/-- What was acknowledged without having been saved was never accepted. -/
theorem recorded_of_acked {s : AlertQueue} (hsound : Worker.Sound UpdatesSound EventSound s)
    (hfinished : alertsConsumer.AckedFinished s) {d : Envelope AlertEventMessage}
    {attempt : Attempt} (hacked : (d, attempt) ∈ s.queue.acked) :
    attempt.recorded = acceptedKey d.message := by
  have hattempt := hsound.2 (d, attempt) (List.mem_append_right _ hacked)
  obtain ⟨recorded, rfl⟩ := settled_of_acked hfinished hacked
  exact (hattempt.1 trivial).symm

/-- What a run without lost hits preserves. -/
theorem balanced_run {labels : List AlertTraffic} {s : AlertQueue}
    (hlossless : EveryStep queueExec Lossless AlertQueue.initial labels)
    (hrun : runFrom queueExec AlertQueue.initial labels = some s) :
    Worker.Sound UpdatesSound EventSound s ∧ QueueBalanced s :=
  runFrom_guarded_invariant
    (I := fun s => Worker.Sound UpdatesSound EventSound s ∧ QueueBalanced s)
    (fun _ _ _ hs hcond h =>
      ⟨Worker.sound_step alertsConsumer_invariant hs.1
          (guard_everything (lossless_guard hcond)) h,
        queueBalanced_step hs.1 hs.2 hcond h⟩)
    ⟨sound_initial, balanced_initial⟩ hlossless hrun

/-- The receipts of the acknowledged attempts are the keys of the accepted events. -/
theorem count_acked {s : AlertQueue} (hsound : Worker.Sound UpdatesSound EventSound s)
    (hfinished : alertsConsumer.AckedFinished s) (key : String) :
    ((s.queue.acked.filterMap alertsConsumer.receiptOf).map Prod.snd).count key =
      (s.queue.acked.map fun attempt => acceptedKey attempt.1.message).count (some key) := by
  rw [List.map_filterMap]
  have hcongr : s.queue.acked.filterMap
      (fun attempt => (alertsConsumer.receiptOf attempt).map Prod.snd) =
      s.queue.acked.filterMap fun attempt => acceptedKey attempt.1.message := by
    refine List.filterMap_congr fun attempt hattempt => ?_
    rw [← recorded_of_acked hsound hfinished hattempt, Worker.receiptOf, Option.map_map]
    exact Option.map_id'
  rw [hcongr, List.count_filterMap, List.count, List.countP_map]
  rfl

/-- The hits of a key in a drained queue whose hits are its receipts. -/
theorem hits_of_drained {labels : List AlertTraffic} {s : AlertQueue}
    (hrun : runFrom queueExec AlertQueue.initial labels = some s)
    (hsound : Worker.Sound UpdatesSound EventSound s) (hbalanced : QueueBalanced s)
    (hdrained : Worker.Drained s) (key : String) :
    hitTotal s.shared.table key = (s.queue.published.map acceptedKey).count (some key) +
      (s.queue.repeated.map Prod.snd).count key := by
  have hreceipts := Worker.receipts_of_drained
    (Worker.receipted_run (Worker.receipted_empty _) hrun) hdrained
  have hmessages := Worker.messages_of_drained
    (Worker.accounted_run (Worker.accounted_empty _) hrun) hdrained
  calc hitTotal s.shared.table key
      = (s.queue.receipts.map Prod.snd).count key := hbalanced key
    _ = (s.queue.repeated.map Prod.snd).count key +
          ((s.queue.acked.filterMap alertsConsumer.receiptOf).map Prod.snd).count key := by
        rw [(hreceipts.map Prod.snd).count_eq, List.map_append, List.count_append]
    _ = (s.queue.repeated.map Prod.snd).count key +
          (s.queue.published.map acceptedKey).count (some key) := by
        rw [count_acked hsound (ackedFinished_of_run hrun),
          ← (hmessages.map acceptedKey).count_eq, List.map_map]
        rfl
    _ = _ := Nat.add_comm _ _

/-- **The hits of a key.**  In a run in which inserts succeed, no rule is removed and
    no save overwrites a count it has not loaded, once the queue is drained, the hits of a key are
    the accepted events published with it, and one more for each delivery that
    was repeated after its save. -/
theorem drained_hits {labels : List AlertTraffic} {s : AlertQueue}
    (hlossless : EveryStep queueExec Lossless AlertQueue.initial labels)
    (hrun : runFrom queueExec AlertQueue.initial labels = some s) (hdrained : Worker.Drained s)
    (key : String) :
    hitTotal s.shared.table key = (s.queue.published.map acceptedKey).count (some key) +
      (s.queue.repeated.map Prod.snd).count key := by
  obtain ⟨hsound, hbalanced⟩ := balanced_run hlossless hrun
  exact hits_of_drained hrun hsound hbalanced hdrained key

end Queue

/-! ### A repeated delivery -/

/-- Two events of one key; the consumer of the first dies after its save, and the
    message is delivered again. -/
def repeatedDelivery : List AlertTraffic :=
  [.publish [sampleEvent sampleUuid sampleRule, sampleEvent sampleUuid sampleRule],
    .deliver 0, .work 0 (.find .first), .work 0 (.save 1 firstAlert sampleParents), .giveBack 0,
    .deliver 0, .work 0 (.find .first), .work 0 (.save 2 secondAlert sampleParents),
    .work 0 .handle, .ack 0,
    .deliver 0, .work 0 (.find .first), .work 0 (.save 3 thirdAlert sampleParents),
    .work 0 .handle, .ack 0]

attribute [local instance] NumberText.integers

theorem run_repeatedDelivery :
    ∃ s, runFrom queueExec AlertQueue.initial repeatedDelivery = some s ∧ Worker.Drained s ∧
      s.queue.acked.map (fun attempt => acceptedKey attempt.1.message) =
        [some sampleKey, some sampleKey] := by
  have hfinal : (runFrom queueExec AlertQueue.initial repeatedDelivery).map
      (fun s => (s.queue.ready.length, s.queue.held.length,
        s.queue.acked.map fun attempt => acceptedKey attempt.1.message)) =
      some (0, 0, [some sampleKey, some sampleKey]) := by
    decide +kernel
  obtain ⟨s, hrun, hvalues⟩ := Option.map_eq_some_iff.mp hfinal
  simp only [Prod.mk.injEq] at hvalues
  obtain ⟨hready, hheld, hacked⟩ := hvalues
  exact ⟨s, hrun, ⟨List.eq_nil_of_length_eq_zero hready, List.eq_nil_of_length_eq_zero hheld⟩,
    hacked⟩

/-- The acknowledged events have their alert. -/
theorem acknowledged_stored_sample :
    ∃ s, runFrom queueExec AlertQueue.initial repeatedDelivery = some s ∧
      (s.queue.ready ++ s.queue.held.map Prod.fst ++ s.queue.acked.map Prod.fst).Perm
        (envelopesFrom 0 s.queue.published) ∧
      ∃ alert ∈ s.shared.table.rows, alert.dedupKey = sampleKey := by
  obtain ⟨s, hrun, -, hkeys⟩ := run_repeatedDelivery
  obtain ⟨hperm, hstored⟩ := acknowledged_stored hrun
  have hmem : some sampleKey ∈ s.queue.acked.map fun attempt => acceptedKey attempt.1.message :=
    hkeys ▸ List.mem_cons_self
  obtain ⟨⟨d, attempt⟩, hacked, hkey⟩ := List.mem_map.mp hmem
  exact ⟨s, hrun, hperm, hstored (by decide +kernel) d attempt hacked sampleKey hkey⟩

/-- Three hits for two events. -/
theorem drained_hits_sample :
    ∃ s, runFrom queueExec AlertQueue.initial repeatedDelivery = some s ∧
      hitTotal s.shared.table sampleKey =
        (s.queue.published.map acceptedKey).count (some sampleKey) +
          (s.queue.repeated.map Prod.snd).count sampleKey := by
  obtain ⟨s, hrun, hdrained, -⟩ := run_repeatedDelivery
  exact ⟨s, hrun, drained_hits (by decide +kernel) hrun hdrained sampleKey⟩

end RulesEngine.Alerts

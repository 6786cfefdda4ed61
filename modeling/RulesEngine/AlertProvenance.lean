import RulesEngine.AlertHistory
import RulesEngine.AlertQueue

/-!
# Where alerts come from

The alerts the queue's consumers and the `updateStatus` requests know of are the
rows of the table and the copies they have loaded, some of rows that are no
longer there.  Each of them was opened for a published event and still has the
values of that event, and two of them with one id are the same alert, as long as
no generated id has been used before (`traced_step`).
-/

namespace RulesEngine.Alerts

open RulesEngine.Foundations

/-! ### Known alerts -/

/-- The alert an attempt has loaded and may save. -/
def Attempt.copy : Attempt → Option Alert
  | .found pending => pending.existing
  | .received | .saved _ | .settled _ => none

/-- The rows of the table and the copies of attempts and of requests. -/
def known (s : AlertQueue) : List Alert :=
  s.shared.table.rows ++ s.queue.held.filterMap (fun attempt => attempt.2.copy) ++
    s.shared.updates.map Prod.fst

theorem mem_known {s : AlertQueue} {alert : Alert} :
    alert ∈ known s ↔ alert ∈ s.shared.table.rows ∨
      (∃ attempt ∈ s.queue.held, attempt.2.copy = some alert) ∨
      ∃ update ∈ s.shared.updates, update.1 = alert := by
  simp only [known, List.mem_append, List.mem_filterMap, List.mem_map, or_assoc]

/-- The alert that a step saves, and the rows its references are checked against. -/
def savedBy (s : AlertQueue) : AlertTraffic → Option (Alert × Parents)
  | .work slot (.save now newId parents) =>
      match s.queue.held[slot]? with
      | some (_, .found pending) => some (pending.entity now newId, parents)
      | _ => none
  | .outside (.statusSave index parents) =>
      s.shared.updates[index]?.map fun update => (update.1, parents)
  | _ => none

/-- The event and the alert that a step opens. -/
inductive Opens (s : AlertQueue) : AlertTraffic → PendingEvent → Alert → Prop where
  | intro {slot : Nat} {d : Envelope AlertEventMessage} {pending : PendingEvent} (now : Int)
      (newId : String) (parents : Parents) : s.queue.held[slot]? = some (d, .found pending) →
      pending.existing = none →
      Opens s (.work slot (.save now newId parents)) pending (pending.newAlert now newId)

/-- Up to the columns of a save, the alert is one of these. -/
def Among (alerts : List Alert) (alert : Alert) : Prop := ∃ old ∈ alerts, alert.fixed = old.fixed

theorem among_of_mem {alerts : List Alert} {alert : Alert} (h : alert ∈ alerts) :
    Among alerts alert := ⟨alert, h, rfl⟩

section Steps

variable [NumberText] {s t : AlertQueue} {label : AlertTraffic}

omit [NumberText] in
theorem known_of_row {alert : Alert} (h : alert ∈ s.shared.table.rows) : alert ∈ known s :=
  mem_known.mpr (Or.inl h)

omit [NumberText] in
theorem known_of_held {slot : Nat} {d : Envelope AlertEventMessage} {attempt : Attempt}
    {alert : Alert} (hslot : s.queue.held[slot]? = some (d, attempt))
    (hcopy : attempt.copy = some alert) : alert ∈ known s :=
  mem_known.mpr (Or.inr (Or.inl ⟨_, List.mem_of_getElem? hslot, hcopy⟩))

omit [NumberText] in
theorem known_of_update {update : Alert × AlertStatus} (h : update ∈ s.shared.updates) :
    update.1 ∈ known s :=
  mem_known.mpr (Or.inr (Or.inr ⟨update, h, rfl⟩))

/-- A known alert after a step was known before or is the one the step opens. -/
theorem known_step (h : queueExec s label = some t) :
    ∀ alert ∈ known t, Among (known s) alert ∨ ∃ pending, Opens s label pending alert := by
  intro alert halert
  rw [mem_known] at halert
  cases Worker.exec_move h with
  | published messages => exact Or.inl (among_of_mem (mem_known.mpr halert))
  | delivered position d hd =>
      refine Or.inl (among_of_mem (mem_known.mpr ?_))
      rcases halert with hrow | ⟨attempt, hattempt, hcopy⟩ | hupdate
      · exact Or.inl hrow
      · rcases List.mem_append.mp hattempt with hheld | hnew
        · exact Or.inr (Or.inl ⟨attempt, hheld, hcopy⟩)
        · rw [List.mem_singleton.mp hnew] at hcopy
          cases hcopy
      · exact Or.inr (Or.inr hupdate)
  | acknowledged slot d attempt hslot hfinished =>
      refine Or.inl (among_of_mem (mem_known.mpr ?_))
      rcases halert with hrow | ⟨attempt, hattempt, hcopy⟩ | hupdate
      · exact Or.inl hrow
      · exact Or.inr (Or.inl ⟨attempt, List.mem_of_mem_eraseIdx hattempt, hcopy⟩)
      · exact Or.inr (Or.inr hupdate)
  | givenBack slot d attempt hslot =>
      refine Or.inl (among_of_mem (mem_known.mpr ?_))
      rcases halert with hrow | ⟨attempt, hattempt, hcopy⟩ | hupdate
      · exact Or.inl hrow
      · exact Or.inr (Or.inl ⟨attempt, List.mem_of_mem_eraseIdx hattempt, hcopy⟩)
      · exact Or.inr (Or.inr hupdate)
  | worked slot label d attempt attempt' store hslot hwork =>
      rcases halert with hrow | ⟨other, hother, hcopy⟩ | ⟨update, hupdate, rfl⟩
      · cases attemptStep_progress hwork with
        | recorded pending now newId parents hfresh =>
            rcases Table.mem_put.mp hrow with rfl | ⟨hold, -⟩
            · unfold PendingEvent.entity
              cases hexisting : pending.existing with
              | none => exact Or.inr ⟨pending, .intro now newId parents hslot hexisting⟩
              | some found => exact Or.inl ⟨found, known_of_held hslot hexisting, rfl⟩
            · exact Or.inl (among_of_mem (known_of_row hold))
        | rejected | looked | unsaved | handled => exact Or.inl (among_of_mem (known_of_row hrow))
      · rcases List.mem_or_eq_of_mem_set hother with hheld | rfl
        · exact Or.inl (among_of_mem (mem_known.mpr (Or.inr (Or.inl ⟨other, hheld, hcopy⟩))))
        · cases attemptStep_progress hwork with
          | looked pick pending hpending =>
              obtain ⟨-, -, hexisting⟩ := lookup_ok hpending
              obtain ⟨hmem, -, -⟩ := findActive_some (hexisting.symm.trans hcopy)
              exact Or.inl (among_of_mem (known_of_row hmem))
          | rejected | unsaved | recorded | handled => cases hcopy
      · refine Or.inl (among_of_mem (known_of_update ?_))
        cases attemptStep_progress hwork <;> exact hupdate
  | elsewhere event store hstore =>
      refine Or.inl ?_
      cases event with
      | statusFind organizationId id status =>
          simp only [requestStep] at hstore
          cases hfind : findOne organizationId id s.shared.table with
          | error e =>
              simp only [hfind, Option.some.injEq] at hstore
              subst hstore
              exact among_of_mem (mem_known.mpr halert)
          | ok found =>
              simp only [hfind, Option.some.injEq] at hstore
              subst hstore
              apply among_of_mem
              rcases halert with hrow | hheld | ⟨update, hupdate, rfl⟩
              · exact known_of_row hrow
              · exact mem_known.mpr (Or.inr (Or.inl hheld))
              · rcases List.mem_append.mp hupdate with hold | hnew
                · exact known_of_update hold
                · rw [List.mem_singleton.mp hnew]
                  exact known_of_row (findOne_ok hfind).1
      | statusSave index parents =>
          obtain ⟨copy, status, hindex, hupdates, htable⟩ := requestStep_statusSave hstore
          rcases halert with hrow | hheld | ⟨update, hupdate, rfl⟩
          · rcases htable with hsame | ⟨-, hput⟩
            · exact among_of_mem (known_of_row (hsame ▸ hrow))
            · rcases Table.mem_put.mp (hput ▸ hrow) with rfl | ⟨hold, -⟩
              · exact ⟨copy, known_of_update (List.mem_of_getElem? hindex), rfl⟩
              · exact among_of_mem (known_of_row hold)
          · exact among_of_mem (mem_known.mpr (Or.inr (Or.inl hheld)))
          · exact among_of_mem (known_of_update (List.mem_of_mem_eraseIdx (hupdates ▸ hupdate)))
      | removeRule ruleId =>
          cases hstore
          apply among_of_mem
          rcases halert with hrow | hheld | ⟨update, hupdate, rfl⟩
          · exact known_of_row (List.mem_filter.mp hrow).1
          · exact mem_known.mpr (Or.inr (Or.inl hheld))
          · exact known_of_update hupdate

/-- A row after a step was a row before, or the step saved it and PostgreSQL did not
    refuse it. -/
theorem rows_step (h : queueExec s label = some t) :
    ∀ alert ∈ t.shared.table.rows, Among s.shared.table.rows alert ∨
      ∃ saved parents, savedBy s label = some (saved, parents) ∧
        alert.fixed = saved.fixed ∧ ¬ insertRefused s.shared.table saved parents := by
  intro alert halert
  cases Worker.exec_move h with
  | published | delivered | acknowledged | givenBack => exact Or.inl (among_of_mem halert)
  | worked slot label d attempt attempt' store hslot hwork =>
      unfold alertsConsumer at hwork
      simp only [attemptStep] at hwork
      split at hwork
      · split at hwork <;> cases hwork <;> exact Or.inl (among_of_mem halert)
      · rename_i pending now newId parents
        split at hwork
        · cases hwork
          exact Or.inl (among_of_mem halert)
        · rename_i hnot
          split at hwork
          · cases hwork
            exact Or.inl (among_of_mem halert)
          · rename_i table hrecord
            cases hwork
            obtain ⟨-, rfl⟩ := record_ok hrecord
            rcases Table.mem_put.mp halert with rfl | ⟨hold, -⟩
            · exact Or.inr ⟨_, parents, by simp only [savedBy, hslot], rfl, hnot⟩
            · exact Or.inl (among_of_mem hold)
      · cases hwork
        exact Or.inl (among_of_mem halert)
      · cases hwork
  | elsewhere event store hstore =>
      cases event with
      | statusFind organizationId id status =>
          simp only [requestStep] at hstore
          split at hstore <;> cases hstore <;> exact Or.inl (among_of_mem halert)
      | statusSave index parents =>
          obtain ⟨copy, status, hindex, -, hsame | ⟨hnot, hput⟩⟩ := requestStep_statusSave hstore
          · exact Or.inl (among_of_mem (hsame ▸ halert))
          · rcases Table.mem_put.mp (hput ▸ halert) with rfl | ⟨hold, -⟩
            · exact Or.inr ⟨copy, parents, by simp only [savedBy, hindex, Option.map_some],
                rfl, hnot⟩
            · exact Or.inl (among_of_mem hold)
      | removeRule ruleId =>
          cases hstore
          exact Or.inl (among_of_mem (List.mem_filter.mp halert).1)

/-! ### The event of an alert -/

theorem Alert.OpenedBy.congr {a b : Alert} {event : AlertEventMessage} (h : b.OpenedBy event)
    (heq : a.fixed = b.fixed) : a.OpenedBy event where
  organization := (eq_of_fixed_eq Alert.idOrganization (fun _ => rfl) heq).trans h.organization
  rule := (eq_of_fixed_eq Alert.idRule (fun _ => rfl) heq).trans h.rule
  transaction := (eq_of_fixed_eq Alert.idTransaction (fun _ => rfl) heq).trans h.transaction
  account := (eq_of_fixed_eq Alert.idAccount (fun _ => rfl) heq).trans h.account
  dedupKey := dedupKey_eq_of_fixed_eq heq ▸ h.dedupKey
  severity := eq_of_fixed_eq Alert.severity (fun _ => rfl) heq ▸ h.severity
  category := eq_of_fixed_eq Alert.category (fun _ => rfl) heq ▸ h.category
  metadata := (eq_of_fixed_eq Alert.metadata (fun _ => rfl) heq).trans h.metadata

theorem openedBy_newAlert {pending : PendingEvent} (h : pending.Computed) (now : Int)
    (newId : String) : (pending.newAlert now newId).OpenedBy pending.event where
  organization := rfl
  rule := rfl
  transaction := rfl
  account := rfl
  dedupKey := h.dedupKey
  severity := h.severity
  category := h.category
  metadata := rfl

/-- An attempt holds what `lookup` computed from its message. -/
def AttemptComputed (event : AlertEventMessage) : Attempt → Prop
  | .found pending => pending.event = event ∧ pending.Computed
  | .received | .saved _ | .settled _ => True

theorem alertsConsumer_computed : alertsConsumer.TaskInvariant requestStep
    (fun _ _ _ _ => True) (fun _ _ => True) (fun _ => True)
    (fun _ event attempt => AttemptComputed event attempt) where
  start := fun _ _ => trivial
  work := by
    intro store event attempt label store' attempt' _ hcomputed _ hwork
    refine ⟨trivial, ?_, fun _ _ h => h⟩
    cases attemptStep_progress hwork with
    | looked pick pending hpending =>
        obtain ⟨hevent, hpending, -⟩ := lookup_ok hpending
        exact ⟨hevent, hpending⟩
    | rejected | unsaved | recorded | handled => trivial
  outside := fun _ _ _ => ⟨trivial, fun _ _ h => h⟩

/-- The generated id of a save is no id of a known alert. -/
def UnusedId (s : AlertQueue) : AlertTraffic → Prop
  | .work _ (.save _ newId _) => newId ∉ (known s).map Alert.id
  | _ => True

instance (s : AlertQueue) : (label : AlertTraffic) → Decidable (UnusedId s label)
  | .work _ (.save _ newId _) => inferInstanceAs (Decidable (newId ∉ (known s).map Alert.id))
  | .work _ (.find _) | .work _ .handle => isTrue trivial
  | .publish _ | .deliver _ | .ack _ | .giveBack _ | .outside _ => isTrue trivial

/-- Every known alert was opened for a published event, and known alerts with one id
    are one alert. -/
structure Traced (s : AlertQueue) : Prop where
  accounted : Worker.Accounted s
  computed : Worker.Sound (fun _ => True) (fun _ event attempt => AttemptComputed event attempt) s
  opened : ∀ alert ∈ known s, ∃ event ∈ s.queue.published, alert.OpenedBy event
  agree : ∀ a ∈ known s, ∀ b ∈ known s, a.id = b.id → a.fixed = b.fixed

theorem traced_initial : Traced AlertQueue.initial where
  accounted := Worker.accounted_empty _
  computed := Worker.sound_empty trivial
  opened := fun _ h => absurd h List.not_mem_nil
  agree := fun _ h => absurd h List.not_mem_nil

/-- The message of a held attempt was published. -/
theorem Traced.published_of_held (hs : Traced s) {slot : Nat} {d : Envelope AlertEventMessage}
    {attempt : Attempt} (hslot : s.queue.held[slot]? = some (d, attempt)) :
    d.message ∈ s.queue.published := by
  have hheld : d ∈ s.queue.held.map Prod.fst :=
    List.mem_map.mpr ⟨_, List.mem_of_getElem? hslot, rfl⟩
  have hknown := hs.accounted.mem_iff.mp
    (List.mem_append_left _ (List.mem_append_right _ hheld))
  have hmessage := List.mem_map_of_mem (f := Envelope.message) hknown
  rwa [Worker.map_message_envelopesFrom] at hmessage

/-- An attempt about to save holds what was computed from a published event. -/
theorem Traced.pending (hs : Traced s) {slot : Nat} {d : Envelope AlertEventMessage}
    {pending : PendingEvent} (hslot : s.queue.held[slot]? = some (d, .found pending)) :
    pending.event ∈ s.queue.published ∧ pending.Computed := by
  obtain ⟨hevent, hcomputed⟩ :=
    hs.computed.2 _ (List.mem_append_left _ (List.mem_of_getElem? hslot))
  exact ⟨hevent ▸ hs.published_of_held hslot, hcomputed⟩

theorem published_mono (h : queueExec s label = some t) :
    ∀ event ∈ s.queue.published, event ∈ t.queue.published := by
  cases Worker.exec_move h with
  | published messages => exact fun event hevent => List.mem_append_left _ hevent
  | delivered | worked | acknowledged | givenBack | elsewhere => exact fun _ hevent => hevent

theorem traced_step (hs : Traced s) (hunused : UnusedId s label)
    (h : queueExec s label = some t) : Traced t where
  accounted := Worker.accounted_step hs.accounted h
  computed := Worker.sound_step alertsConsumer_computed hs.computed (Worker.guard_true s label) h
  opened := by
    intro alert halert
    rcases known_step h alert halert with ⟨old, hold, hfixed⟩ | ⟨pending, hopens⟩
    · obtain ⟨event, hevent, hopened⟩ := hs.opened old hold
      exact ⟨event, published_mono h event hevent, hopened.congr hfixed⟩
    · cases hopens with
      | intro now newId parents hslot hexisting =>
          obtain ⟨hevent, hcomputed⟩ := hs.pending hslot
          exact ⟨pending.event, published_mono h _ hevent, openedBy_newAlert hcomputed now newId⟩
  agree := by
    intro a ha b hb hid
    rcases known_step h a ha with ⟨oldA, holdA, hfixedA⟩ | ⟨pendingA, hopensA⟩
    · have hidA := id_eq_of_fixed_eq hfixedA
      rcases known_step h b hb with ⟨oldB, holdB, hfixedB⟩ | ⟨pendingB, hopensB⟩
      · have hids : oldA.id = oldB.id := hidA.symm.trans (hid.trans (id_eq_of_fixed_eq hfixedB))
        exact hfixedA.trans ((hs.agree oldA holdA oldB holdB hids).trans hfixedB.symm)
      · cases hopensB with
        | intro now newId parents hslot hexisting =>
            exact absurd (List.mem_map.mpr ⟨oldA, holdA, hidA.symm.trans hid⟩) hunused
    · cases hopensA with
      | intro now newId parents hslot hexisting =>
          rcases known_step h b hb with ⟨oldB, holdB, hfixedB⟩ | ⟨pendingB, hopensB⟩
          · have hidB : oldB.id = newId := (id_eq_of_fixed_eq hfixedB).symm.trans hid.symm
            exact absurd (List.mem_map.mpr ⟨oldB, holdB, hidB⟩) hunused
          · cases hopensB with
            | intro now' newId' parents' hslot' hexisting' =>
                obtain ⟨-, hfound⟩ := Prod.mk.inj (Option.some.inj (hslot.symm.trans hslot'))
                rw [Attempt.found.inj hfound]

end Steps

end RulesEngine.Alerts

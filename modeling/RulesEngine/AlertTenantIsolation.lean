import RulesEngine.AlertDelivery
import RulesEngine.AlertInterleaving

/-!
# Alerts and tenants

The alert to increment is found by its deduplication key alone, whatever
organization it belongs to.  The key starts with the rule id of the message, and
rule ids are uuids that belong to one organization, so the lookup stays inside
the organization as long as the rule id of a message is one of its rules' ids.
It is, unless the parameters of a rule's own event spread another `ruleId` over
it: `tenant_isolated` states the condition and `foreign_ruleId_hits_victim` is
the run that breaks it.
-/

namespace RulesEngine.Alerts

open RulesEngine.Foundations
open RulesEngine.Engine
open RulesEngine.Transactions

/-- The organization each rule id belongs to, both as PostgreSQL spells them. -/
abbrev RuleOwner := String → Option String

/-- The message was published for an organization that evaluated rules of its
    own. -/
def Published (owner : RuleOwner) (message : AlertEventMessage) : Prop :=
  ∃ (c : Collaborators) (transaction : PublishedTransaction) (messages : List AlertEventMessage),
    c.ReportOwnParams (batchRules c) ∧
    (∀ rule ∈ batchRules c, owner (pgUuid rule.id) = some (pgUuid message.organizationId)) ∧
    publishAlertEvents message.organizationId transaction (evaluate c).events = .ok messages ∧
    message ∈ messages

/-- A configuration of a rule of the organization whose event parameters have no
    `ruleId`, or the id of a rule of the same organization. -/
def KeepsRuleId (owner : RuleOwner) (organizationId : String) (config : JsonObject) : Prop :=
  ∀ value, (ownParams config).get? "ruleId" = some value →
    ∃ ruleId, value = .str ruleId ∧ owner (pgUuid ruleId) = some (pgUuid organizationId)

/-- The configurations behind a message keep the rule id. -/
def KeepsTenant (owner : RuleOwner) (message : AlertEventMessage) : Prop :=
  ∀ config, message.ruleConfig = some (.obj config) →
    KeepsRuleId owner message.organizationId config

theorem published_ruleId {owner : RuleOwner} {message : AlertEventMessage}
    (hpublished : Published owner message) (hkeeps : KeepsTenant owner message) :
    ∃ ruleId, message.ruleId = .str ruleId ∧
      owner (pgUuid ruleId) = some (pgUuid message.organizationId) := by
  obtain ⟨c, transaction, messages, hparams, hown, hpublish, hmem⟩ := hpublished
  obtain ⟨event, hevent, halert⟩ := mem_publishAlertEvents hpublish hmem
  obtain ⟨rule, hrule, reported, hreported, ruleEvent, hruleEvent, rfl⟩ := mem_events hevent
  have hruleId := reportedRuleId (hparams rule hrule reported hreported ruleEvent hruleEvent) halert
  have hkeep := hkeeps rule.config (alertMessage_ok halert).2.2.1
  cases hvalue : (ownParams rule.config).get? "ruleId" with
  | none =>
      rw [hvalue] at hruleId
      exact ⟨rule.id, hruleId, hown rule hrule⟩
  | some value =>
      obtain ⟨ruleId, rfl, howner⟩ := hkeep value hvalue
      rw [hvalue, Option.map_some, Option.getD_some, Json.clone_str] at hruleId
      exact ⟨ruleId, hruleId, howner⟩

/-! ### The invariant -/

/-- The rule of an alert belongs to the organization of the alert, and the key
    of the alert starts with the rule's id, as the message spelled it. -/
def OwnedAlert (owner : RuleOwner) (alert : Alert) : Prop :=
  ∃ ruleId rest, alert.idRule = .str (pgUuid ruleId) ∧
    owner (pgUuid ruleId) = some alert.idOrganization ∧ alert.dedupKey = ruleId ++ ":" ++ rest

/-- The same for an event whose call is in flight. -/
def OwnedPending (owner : RuleOwner) (pending : PendingEvent) : Prop :=
  ∃ ruleId rest, pending.event.ruleId = .str ruleId ∧
    owner (pgUuid ruleId) = some (pgUuid pending.event.organizationId) ∧
    pending.dedupKey = ruleId ++ ":" ++ rest

theorem ownedAlert_of_fixed_eq {owner : RuleOwner} {a b : Alert} (h : a.fixed = b.fixed)
    (ha : OwnedAlert owner a) : OwnedAlert owner b := by
  obtain ⟨ruleId, rest, hrule, howner, hkey⟩ := ha
  have hidRule : a.idRule = b.idRule := eq_of_fixed_eq Alert.idRule (fun _ => rfl) h
  have horg : a.idOrganization = b.idOrganization :=
    eq_of_fixed_eq Alert.idOrganization (fun _ => rfl) h
  exact ⟨ruleId, rest, hidRule ▸ hrule, horg ▸ howner, dedupKey_eq_of_fixed_eq h ▸ hkey⟩

theorem organization_eq {owner : RuleOwner}
    (huuid : ∀ ruleId organizationId, owner ruleId = some organizationId → IsUuid ruleId)
    {alert : Alert} {pending : PendingEvent} (halert : OwnedAlert owner alert)
    (hpending : OwnedPending owner pending) (hkey : alert.dedupKey = pending.dedupKey) :
    alert.idOrganization = pgUuid pending.event.organizationId := by
  obtain ⟨a, restA, -, hownerA, hkeyA⟩ := halert
  obtain ⟨b, restB, -, hownerB, hkeyB⟩ := hpending
  have hcolon : ∀ ruleId organizationId, owner (pgUuid ruleId) = some organizationId →
      ':' ∉ ruleId.toList :=
    fun ruleId _ howner => colon_not_mem ((isUuid_pgUuid ruleId).mp (huuid _ _ howner))
  have heq : a = b := by
    apply ruleId_unique (hcolon a _ hownerA) (hcolon b _ hownerB)
    rw [← hkeyA, ← hkeyB, hkey]
  subst heq
  exact Option.some.inj (hownerA.symm.trans hownerB)

structure Owned (owner : RuleOwner) (s : System) : Prop where
  consistent : Consistent s
  rows : ∀ row ∈ s.table.rows, OwnedAlert owner row
  calls : ∀ pending, .process pending ∈ s.inFlight → OwnedPending owner pending

theorem owned_initial (owner : RuleOwner) : Owned owner System.initial where
  consistent := consistent_initial
  rows := fun _ h => absurd h List.not_mem_nil
  calls := fun _ h => absurd h List.not_mem_nil

theorem Owned.copy {owner : RuleOwner} {s : System} (hs : Owned owner s) {alert : Alert}
    (h : HasCopy s.table alert) : OwnedAlert owner alert := by
  obtain ⟨row, hrow, hfixed⟩ := h
  exact ownedAlert_of_fixed_eq hfixed (hs.rows row hrow)

/-- The messages of a run are published and keep their tenants. -/
def GoodMessage (owner : RuleOwner) : Label → Prop
  | .processFind _ message => Published owner message ∧ KeepsTenant owner message
  | .statusFind .. => True
  | .save .. => True

/-- A step that saves an event of an organization leaves the alerts of the
    others as they are, and gives an alert it creates the organization and one
    of its rules; other steps but status updates leave the table alone. -/
def IsolatedStep (owner : RuleOwner) (s : System) : Label → System → Prop
  | .save index _ _ _, t => ∀ pending, s.inFlight[index]? = some (.process pending) →
      (∀ row ∈ s.table.rows, row.idOrganization ≠ pgUuid pending.event.organizationId →
        row ∈ t.table.rows) ∧
      (∀ row ∈ t.table.rows, ¬ s.table.Taken row.id →
        row.idOrganization = pgUuid pending.event.organizationId ∧
          ∃ ruleId, row.idRule = .str ruleId ∧
            owner ruleId = some (pgUuid pending.event.organizationId))
  | .processFind .., t => t.table = s.table
  | .statusFind .., t => t.table = s.table

section Runs

variable [NumberText] {owner : RuleOwner}

theorem owned_step {s t : System} {label : Label} (hs : Owned owner s)
    (hmessage : GoodMessage owner label) (h : exec s label = some t) : Owned owner t := by
  have hconsistent : Consistent t := consistent_step hs.consistent h
  have hremaining : ∀ index pending, InFlight.process pending ∈ s.inFlight.eraseIdx index →
      OwnedPending owner pending :=
    fun index pending hmem => hs.calls pending (List.mem_of_mem_eraseIdx hmem)
  have hput : ∀ saved, OwnedAlert owner saved →
      ∀ row ∈ (s.table.put saved).rows, OwnedAlert owner row := by
    intro saved hsaved row hrow
    rcases Table.mem_put.mp hrow with rfl | ⟨hold, -⟩
    · exact hsaved
    · exact hs.rows row hold
  cases exec_move h with
  | processRejected => exact hs
  | statusRejected => exact hs
  | processFound pick pending hcomputed hexisting =>
      refine ⟨hconsistent, hs.rows, ?_⟩
      intro other hother
      rcases List.mem_append.mp hother with hold | hnew
      · exact hs.calls other hold
      · cases List.mem_singleton.mp hnew
        obtain ⟨ruleId, hruleId, howner⟩ := published_ruleId hmessage.1 hmessage.2
        obtain ⟨rest, hkey⟩ := calculateDedupKey_prefix hruleId hcomputed.dedupKey
        exact ⟨ruleId, rest, hruleId, howner, hkey⟩
  | statusFound organizationId id alert status halert =>
      refine ⟨hconsistent, hs.rows, ?_⟩
      intro other hother
      rcases List.mem_append.mp hother with hold | hnew
      · exact hs.calls other hold
      · cases List.mem_singleton.mp hnew
  | hit index now newId parents pending alert hcall hexisting =>
      have hcopy := hs.consistent.copies _ (List.mem_of_getElem? hcall) alert hexisting
      have howned := ownedAlert_of_fixed_eq (hit_fixed alert now).symm (hs.copy hcopy)
      exact ⟨hconsistent, hput _ howned, hremaining index⟩
  | created index now newId parents pending hcall hexisting hfresh =>
      obtain ⟨ruleId, rest, hruleId, howner, hkey⟩ := hs.calls _ (List.mem_of_getElem? hcall)
      have hidRule : (pending.newAlert now newId).idRule = .str (pgUuid ruleId) := by
        simp only [PendingEvent.newAlert, hruleId, uuidColumn]
      exact ⟨hconsistent, hput _ ⟨ruleId, rest, hidRule, howner, hkey⟩, hremaining index⟩
  | refused index now newId parents pending hcall hexisting =>
      exact ⟨hconsistent, hs.rows, hremaining index⟩
  | statusSaved index now newId parents alert status hcall =>
      have hcopy := hs.consistent.copies _ (List.mem_of_getElem? hcall) alert rfl
      have howned : OwnedAlert owner { alert with status } :=
        ownedAlert_of_fixed_eq (by rfl) (hs.copy hcopy)
      exact ⟨hconsistent, hput _ howned, hremaining index⟩

theorem isolated_step
    (huuid : ∀ ruleId organizationId, owner ruleId = some organizationId → IsUuid ruleId)
    {s t : System} {label : Label} (hs : Owned owner s) (h : exec s label = some t) :
    IsolatedStep owner s label t := by
  cases exec_move h with
  | processRejected => rfl
  | statusRejected => rfl
  | processFound => rfl
  | statusFound => rfl
  | hit index now newId parents pending alert hcall hexisting =>
      intro pending' hcall'
      cases Option.some.inj (hcall.symm.trans hcall')
      have hmem := List.mem_of_getElem? hcall
      have hcopy := hs.consistent.copies _ hmem alert hexisting
      obtain ⟨old, hold, hfixed⟩ := hcopy
      have horg : old.idOrganization = pgUuid pending.event.organizationId := by
        apply organization_eq huuid (hs.rows old hold) (hs.calls pending hmem)
        rw [dedupKey_eq_of_fixed_eq hfixed]
        exact hs.consistent.keys pending hmem alert hexisting
      constructor
      · intro row hrow hother
        refine Table.mem_put_of_ne hrow ?_
        intro hid
        have heq : row = old :=
          Table.eq_of_key_eq hrow hold (hid.trans (id_eq_of_fixed_eq hfixed).symm)
        exact hother (heq ▸ horg)
      · intro row hrow hnew
        rcases Table.mem_put.mp hrow with rfl | ⟨hin, -⟩
        · exact absurd (List.mem_map.mpr ⟨old, hold, id_eq_of_fixed_eq hfixed⟩) hnew
        · exact absurd (Table.taken_of_mem hin) hnew
  | created index now newId parents pending hcall hexisting hfresh =>
      intro pending' hcall'
      cases Option.some.inj (hcall.symm.trans hcall')
      obtain ⟨ruleId, rest, hruleId, howner, hkey⟩ := hs.calls _ (List.mem_of_getElem? hcall)
      constructor
      · intro row hrow hother
        refine Table.mem_put_of_ne hrow ?_
        intro hid
        exact hfresh (List.mem_map.mpr ⟨row, hrow, hid⟩)
      · intro row hrow hnew
        rcases Table.mem_put.mp hrow with rfl | ⟨hin, -⟩
        · refine ⟨rfl, pgUuid ruleId, ?_, howner⟩
          simp only [PendingEvent.newAlert, hruleId, uuidColumn]
        · exact absurd (Table.taken_of_mem hin) hnew
  | refused index now newId parents pending hcall hexisting =>
      intro pending' hcall'
      exact ⟨fun row hrow _ => hrow, fun row hrow hnew => absurd (Table.taken_of_mem hrow) hnew⟩
  | statusSaved index now newId parents alert status hcall =>
      intro pending hcall'
      cases Option.some.inj (hcall.symm.trans hcall')

/-- **Tenant isolation.**  In a run whose messages were published for
    organizations evaluating their own rules, and whose rule configurations do
    not report a foreign rule id, no step that processes a message of an
    organization touches an alert of another one, and the alerts it creates
    belong to the organization and to a rule of it. -/
theorem tenant_isolated
    (huuid : ∀ ruleId organizationId, owner ruleId = some organizationId → IsUuid ruleId)
    {labels : List Label}
    (hpublished : ∀ pick message, .processFind pick message ∈ labels → Published owner message)
    (hkeeps : ∀ pick message, .processFind pick message ∈ labels → KeepsTenant owner message) :
    EveryStep exec (fun s label => ∀ t, exec s label = some t → IsolatedStep owner s label t)
      System.initial labels := by
  have hgood : ∀ label ∈ labels, GoodMessage owner label := by
    intro label hlabel
    cases label with
    | processFind pick message => exact ⟨hpublished pick message hlabel, hkeeps pick message hlabel⟩
    | statusFind => trivial
    | save => trivial
  refine everyStep_of_invariant (I := Owned owner) ?_ ?_ (owned_initial owner)
    (everyStep_of_mem hgood)
  · intro s label t hs hmessage h
    exact owned_step hs hmessage h
  · intro s label hs _ t h
    exact isolated_step huuid hs h

end Runs

/-! ### A rule that reports a foreign id -/

/-- A rule of the victim. -/
def victimRule : String := "5f6a1d20-94c7-4b3e-a2d8-61e0c7b4f935"

/-- A rule of the attacker. -/
def attackerRule : String := "e47b90c3-0a16-4d52-9f8b-2c5d83a7e601"

/-- The one organization is the victim, the other the attacker. -/
def sampleOwner : RuleOwner := fun ruleId =>
  if ruleId = victimRule then some sampleUuid
  else if ruleId = attackerRule then some otherUuid
  else none

theorem sampleOwner_uuid (ruleId organizationId : String)
    (h : sampleOwner ruleId = some organizationId) : IsUuid ruleId := by
  unfold sampleOwner at h
  split at h
  · rename_i heq
    exact heq ▸ (by decide +kernel)
  · split at h
    · rename_i heq
      exact heq ▸ (by decide +kernel)
    · cases h

/-- The rows of the samples. -/
def tenantParents : Parents := ⟨[victimRule, attackerRule], [sampleTx]⟩

/-- The message of a rule for amounts over 50 that fires on the sample transaction. -/
def firingMessage (organizationId ruleId : String) (params : JsonObject) : AlertEventMessage :=
  buildMessage organizationId sampleTransaction
    (assembleEvent ⟨ruleId, "amount", 0, overFiftyConfig params []⟩
      ⟨.str "alert", some (.obj (Json.cloneFields params))⟩)

theorem published_firing {owner : RuleOwner} {organizationId ruleId : String}
    (howner : owner (pgUuid ruleId) = some (pgUuid organizationId)) (params : JsonObject) :
    Published owner (firingMessage organizationId ruleId params) := by
  refine ⟨firing organizationId ruleId (overFiftyConfig params []), sampleTransaction,
    [firingMessage organizationId ruleId params],
    firing_reportOwnParams organizationId ruleId _ _, ?_, ?_, List.mem_singleton.mpr rfl⟩
  · intro rule hrule
    rcases List.mem_singleton.mp hrule with rfl
    exact howner
  · rw [evaluate_firing]
    rfl

/-- Both tenants have an event without parameters. -/
def separateTenants : List Label :=
  [.processFind .first (firingMessage sampleUuid victimRule []), .save 0 1 firstAlert tenantParents,
    .processFind .first (firingMessage otherUuid attackerRule []),
    .save 0 2 secondAlert tenantParents]

theorem mem_separateTenants {pick : Pick} {message : AlertEventMessage}
    (h : .processFind pick message ∈ separateTenants) :
    message = firingMessage sampleUuid victimRule [] ∨
      message = firingMessage otherUuid attackerRule [] := by
  simp only [separateTenants, List.mem_cons, Label.processFind.injEq, reduceCtorEq, false_or,
    List.not_mem_nil, or_false] at h
  rcases h with ⟨-, rfl⟩ | ⟨-, rfl⟩
  · exact Or.inl rfl
  · exact Or.inr rfl

theorem keepsTenant_default (owner : RuleOwner) (organizationId ruleId : String) :
    KeepsTenant owner (firingMessage organizationId ruleId []) := by
  intro config hconfig value hvalue
  have hown : alertMessage organizationId sampleTransaction
      (assembleEvent ⟨ruleId, "amount", 0, overFiftyConfig [] []⟩
        ⟨.str "alert", some (.obj (Json.cloneFields []))⟩) =
      .ok (firingMessage organizationId ruleId []) := rfl
  cases (alertMessage_ok hown).2.2.1.symm.trans hconfig
  cases hvalue

attribute [local instance] NumberText.integers in
theorem tenant_isolated_sample :
    EveryStep exec
      (fun s label => ∀ t, exec s label = some t → IsolatedStep sampleOwner s label t)
      System.initial separateTenants ∧
    (runFrom exec System.initial separateTenants).map
        (fun s => s.table.rows.map fun alert =>
          (alert.idOrganization, alert.ofRule victimRule, alert.ofRule attackerRule)) =
      some [(sampleUuid, true, false), (otherUuid, false, true)] := by
  refine ⟨?_, by decide +kernel⟩
  apply tenant_isolated sampleOwner_uuid
  · intro pick message hmessage
    rcases mem_separateTenants hmessage with rfl | rfl
    · exact published_firing (by decide +kernel) []
    · exact published_firing (by decide +kernel) []
  · intro pick message hmessage
    rcases mem_separateTenants hmessage with rfl | rfl
    · exact keepsTenant_default sampleOwner sampleUuid victimRule
    · exact keepsTenant_default sampleOwner otherUuid attackerRule

/-- The event of the attacker's rule reports the victim's rule id. -/
def foreignRuleId : JsonObject := [("ruleId", .str victimRule)]

/-- The victim's alert is stored when the attacker's event looks its key up. -/
def attack : List Label :=
  [.processFind .first (firingMessage sampleUuid victimRule []), .save 0 1 firstAlert tenantParents,
    .processFind .first (firingMessage otherUuid attackerRule foreignRuleId)]

attribute [local instance] NumberText.integers in
/-- Processing the attacker's message adds a hit to the victim's alert. -/
theorem foreign_ruleId_hits_victim :
    Published sampleOwner (firingMessage sampleUuid victimRule []) ∧
    Published sampleOwner (firingMessage otherUuid attackerRule foreignRuleId) ∧
    ∃ s t, runFrom exec System.initial attack = some s ∧
      exec s (.save 0 2 secondAlert tenantParents) = some t ∧
      s.table.rows.map (fun alert => (alert.id, alert.idOrganization, alert.hitCount)) =
        [(firstAlert, sampleUuid, 1)] ∧
      t.table.rows.map (fun alert => (alert.id, alert.idOrganization, alert.hitCount)) =
        [(firstAlert, sampleUuid, 2)] := by
  refine ⟨published_firing (by decide +kernel) [],
    published_firing (by decide +kernel) foreignRuleId, ?_⟩
  have hfinal : (runFrom exec System.initial attack).bind (fun s =>
      (exec s (.save 0 2 secondAlert tenantParents)).map fun t =>
        (s.table.rows.map (fun alert => (alert.id, alert.idOrganization, alert.hitCount)),
          t.table.rows.map (fun alert => (alert.id, alert.idOrganization, alert.hitCount)))) =
      some ([(firstAlert, sampleUuid, 1)], [(firstAlert, sampleUuid, 2)]) := by
    decide +kernel
  obtain ⟨s, hrun, hsave⟩ := Option.bind_eq_some_iff.mp hfinal
  obtain ⟨t, hstep, hrows⟩ := Option.map_eq_some_iff.mp hsave
  simp only [Prod.mk.injEq] at hrows
  exact ⟨s, t, hrun, hstep, hrows.1, hrows.2⟩

end RulesEngine.Alerts

import RulesEngine.WriteEffects

/-!
# Concurrent writes

Any number of writes in progress, their accesses in any order: a check can be out
of date when the write arrives, and what is left then are the constraints of the
tables.  Still every interleaving amounts to operations of the application and
updates of loaded rules, run one at a time in the order in which the requests
complete (`writes_serializable`), and so keeps what those keep
(`concurrent_writes_referential`).
-/

namespace RulesEngine

open RulesEngine.Foundations
open RulesEngine.Rules
open RulesEngine.Lists
open RulesEngine.Alerts (sampleRule)

/-! ### Interleaved requests -/

/-- The operations of the requests that arrive. -/
def arrivals (labels : List (Accesses.Label Write)) : List Op :=
  labels.filterMap fun
    | .arrive write => some write.op
    | .access _ | .abandon _ => none

theorem mem_arrivals {labels : List (Accesses.Label Write)} {write : Write}
    (h : .arrive write ∈ labels) : write.op ∈ arrivals labels :=
  List.mem_filterMap.mpr ⟨_, h, rfl⟩

section Runs

variable {db : Database} {labels : List (Accesses.Label Write)}
variable {t : Accesses.System Write Database Thrown}

theorem coordinated_run (hdb : Referential db) (hids : ∀ op ∈ arrivals labels, op.CanonicalIds)
    (hfresh : FreshIds (arrivals labels) db)
    (hrun : runFrom (Accesses.exec Write.accesses) (Accesses.start Write Thrown db) labels =
      some t) :
    Accesses.Coordinated (fun write => write.op.Fits (originsOf db (arrivals labels)))
      (Reliable (originsOf db (arrivals labels))) KeepsTransactions
      (fun write => write.TakesEffect (WriteEffect.Fits (originsOf db (arrivals labels)))) db
      t := by
  refine Accesses.serial_run (writes_guarantee _) ⟨hdb, originated_originsOf db _⟩ ?_ hrun
  intro write hwrite
  have harrives := mem_arrivals hwrite
  exact ⟨hids _ harrives, creates_originsOf hfresh harrives⟩

/-- **Writes are serializable.**  Of any number of concurrent writes in any
    interleaving of their accesses, the completed ones have taken effect one after
    another, in the order in which they completed: the database is the one that
    what they are carried out as leaves when run one at a time. -/
theorem writes_serializable (hdb : Referential db)
    (hids : ∀ op ∈ arrivals labels, op.CanonicalIds) (hfresh : FreshIds (arrivals labels) db)
    (hrun : runFrom (Accesses.exec Write.accesses) (Accesses.start Write Thrown db) labels =
      some t) :
    Accesses.Serial (fun write => write.TakesEffect WriteEffect.CanonicalIds) db t.completed
        t.store ∧
      ∃ effects, List.Forall₂ (fun completion effect => completion.request.CarriedOutAs effect)
          t.completed effects ∧
        runFrom WriteEffect.exec db effects = some t.store := by
  have hserial := (coordinated_run hdb hids hfresh hrun).serial
  constructor
  · apply hserial.mono
    rintro write s outcome ⟨-, heffect⟩
    exact heffect.mono fun _ hfits => hfits.canonicalIds
  · apply hserial.replay
    rintro write s outcome ⟨-, heffect⟩
    obtain ⟨effect, hcarried, -, hexec⟩ := exists_effect heffect
    exact ⟨effect, hcarried, hexec⟩

/-- **Concurrent writes keep references intact.**  After every interleaving of
    writes the references of the tables are intact, the rules of every organization
    can be derived, the configuration of a rule is found whenever the rule is, and
    no transaction is lost or changed but for `isBlocked` and `isVoided`. -/
theorem concurrent_writes_referential (hdb : Referential db)
    (hids : ∀ op ∈ arrivals labels, op.CanonicalIds) (hfresh : FreshIds (arrivals labels) db)
    (hrun : runFrom (Accesses.exec Write.accesses) (Accesses.start Write Thrown db) labels =
      some t) :
    Referential t.store ∧
      (∀ organizationId, ∃ rules, derivedRules t.store organizationId = .ok rules) ∧
      (∀ organizationId ruleId,
        (∃ config, getEffectiveConfigById t.store organizationId ruleId = .ok config) ↔
          ∃ rule, findRule t.store organizationId ruleId = .ok rule) ∧
      db.transactions.rows.map Transaction.fixed <+:
        t.store.transactions.rows.map Transaction.fixed := by
  have hcoordinated := coordinated_run hdb hids hfresh hrun
  have hstore := hcoordinated.store.referential
  refine ⟨hstore, exists_derivedRules hstore, exists_effectiveConfigById hstore, ?_⟩
  have hrelation := hcoordinated.serial.relation (R := KeepsTransactions)
    (fun _ => Table.Continues.refl _ _) (fun _ _ _ => Table.Continues.trans)
    (I := Reliable (originsOf db (arrivals labels))) ?_ ⟨hdb, originated_originsOf db _⟩
  · exact hrelation.2
  · rintro write s s' hs ⟨hfits, heffect⟩
    exact (writes_guarantee _).keeps write hfits s s' hs heffect

end Runs

/-! ### A rule that comes back -/

/-- One request creates a rule; then one disables it while another removes it. -/
def disableRemoved : List (Accesses.Label Write) :=
  [.arrive (.rule sampleUuid
      (.createRule ⟨.absent, "amount", .absent, .absent, .absent⟩ sampleRule 0)),
    .access 0,
    .arrive (.rule sampleUuid
      (.updateRule sampleRule ⟨.absent, .absent, .value false, .absent, .absent⟩)),
    .arrive (.rule sampleUuid (.removeRule sampleRule)),
    .access 0, .access 1, .access 1, .access 0]

theorem run_disableRemoved :
    ∃ t, runFrom (Accesses.exec Write.accesses) (Accesses.start Write Thrown Database.empty)
        disableRemoved = some t ∧
      t.store.rules.rows.map (fun rule => (rule.id, rule.enabled)) = [(sampleRule, false)] ∧
      t.completed.map (fun completion => completion.outcome.isOk) = [true, true, true] := by
  exact ⟨_, rfl, by decide +kernel, by decide +kernel⟩

/-- All three requests are accepted, the removal before the update, and the rule is
    there. -/
theorem writes_serializable_sample :
    ∃ t : Accesses.System Write Database Thrown,
      t.store.rules.rows.map (fun rule => (rule.id, rule.enabled)) = [(sampleRule, false)] ∧
      ∃ effects, List.Forall₂ (fun completion effect => completion.request.CarriedOutAs effect)
          t.completed effects ∧
        runFrom WriteEffect.exec Database.empty effects = some t.store := by
  obtain ⟨t, hrun, hrules, -⟩ := run_disableRemoved
  obtain ⟨-, heffects⟩ := writes_serializable referential_empty (by decide +kernel)
    ⟨by decide +kernel, by decide +kernel⟩ hrun
  exact ⟨t, hrules, heffects⟩

theorem concurrent_writes_referential_sample :
    ∃ t : Accesses.System Write Database Thrown,
      t.completed.map (fun completion => completion.outcome.isOk) = [true, true, true] ∧
      Referential t.store := by
  obtain ⟨t, hrun, -, hcompleted⟩ := run_disableRemoved
  obtain ⟨hstore, -⟩ := concurrent_writes_referential referential_empty (by decide +kernel)
    ⟨by decide +kernel, by decide +kernel⟩ hrun
  exact ⟨t, hcompleted, hstore⟩

end RulesEngine

import RulesEngine.ReferentialIntegrity

/-!
# What a write changes in the configurations

The effective configuration of a rule is put together from three rows: the rule,
its template, and the override its organization has for that template.  Every
other write, of whatever organization, leaves it alone, over whole runs
(`configuration_framed`).  Removing a template touches exactly the rules that
inherit from it, and each of them goes on with its own configuration
(`removeTemplate_configurations`).
-/

namespace RulesEngine

open RulesEngine.Foundations
open RulesEngine.Rules
open RulesEngine.Lists
open RulesEngine.Engine

/-! ### The rows a configuration comes from -/

/-- The override is the one that enters the configuration of the rule. -/
def TemplateOverride.Overrides (override : TemplateOverride) (rule : Rule) : Prop :=
  override.idOrganization = rule.idOrganization ∧ rule.idTemplate = some override.idTemplate

/-- The operation is about one of the rows that the configuration of the rule comes
    from. -/
def Op.Touches (db : Database) (rule : Rule) : Op → Prop
  | .ruleWrite organizationId (.updateRule id _) =>
      pgUuid organizationId = rule.idOrganization ∧ pgUuid id = rule.id
  | .ruleWrite organizationId (.removeRule id) =>
      pgUuid organizationId = rule.idOrganization ∧ pgUuid id = rule.id
  | .ruleWrite organizationId (.createOverride dto _) =>
      pgUuid organizationId = rule.idOrganization ∧ rule.idTemplate = some (pgUuid dto.idTemplate)
  | .ruleWrite _ (.updateOverride id _) =>
      ∃ override ∈ db.overrides.rows, override.id = pgUuid id ∧ override.Overrides rule
  | .ruleWrite _ (.removeOverride id) =>
      ∃ override ∈ db.overrides.rows, override.id = pgUuid id ∧ override.Overrides rule
  | .templateWrite (.update id _) => rule.idTemplate = some (pgUuid id)
  | .templateWrite (.remove id) => rule.idTemplate = some (pgUuid id)
  | .ruleWrite _ (.createRule ..) | .templateWrite (.create ..) => False
  | .plainWrite .. | .evaluate .. | .createAndEvaluate .. | .evaluateRule ..
  | .getEffectiveConfig .. | .isInList .. => False

instance (override : TemplateOverride) (rule : Rule) : Decidable (override.Overrides rule) :=
  inferInstanceAs (Decidable (_ ∧ _))

instance (db : Database) (rule : Rule) : (op : Op) → Decidable (op.Touches db rule)
  | .ruleWrite _ (.updateRule ..) => inferInstanceAs (Decidable (_ ∧ _))
  | .ruleWrite _ (.removeRule _) => inferInstanceAs (Decidable (_ ∧ _))
  | .ruleWrite _ (.createOverride ..) => inferInstanceAs (Decidable (_ ∧ _))
  | .ruleWrite _ (.updateOverride ..) =>
      inferInstanceAs (Decidable (∃ override ∈ db.overrides.rows, _ ∧ _))
  | .ruleWrite _ (.removeOverride _) =>
      inferInstanceAs (Decidable (∃ override ∈ db.overrides.rows, _ ∧ _))
  | .templateWrite (.update ..) => inferInstanceAs (Decidable (_ = _))
  | .templateWrite (.remove _) => inferInstanceAs (Decidable (_ = _))
  | .ruleWrite _ (.createRule ..) | .templateWrite (.create ..) => isFalse id
  | .plainWrite .. | .evaluate .. | .createAndEvaluate .. | .evaluateRule ..
  | .getEffectiveConfig .. | .isInList .. => isFalse id

/-- The rows a configuration comes from are the same in both databases. -/
structure SameSources (rule : Rule) (db db' : Database) : Prop where
  row : rule ∈ db'.rules.rows
  template : ∀ id ∈ rule.idTemplate, db'.templates.get? id = db.templates.get? id
  override : ∀ organizationId, pgUuid organizationId = rule.idOrganization →
    ∀ id ∈ rule.idTemplate,
      findByTemplate db' organizationId id = findByTemplate db organizationId id

section Sources

variable {rule : Rule} {db db' : Database}

theorem SameSources.refl (h : rule ∈ db.rules.rows) : SameSources rule db db :=
  ⟨h, fun _ _ => rfl, fun _ _ _ _ => rfl⟩

theorem SameSources.of_sameConfig (hrule : rule ∈ db.rules.rows)
    (h : SameConfig rule.idOrganization db' db) : SameSources rule db db' := by
  refine ⟨?_, fun id _ => by rw [h.templates], ?_⟩
  · have howned : rule ∈ ownedBy rule.idOrganization db'.rules :=
      h.rules ▸ mem_ownedBy.mpr ⟨hrule, rfl⟩
    exact (mem_ownedBy.mp howned).1
  · intro organizationId horg id _
    rw [← horg] at h
    exact findByTemplate_congr h id

theorem pgUuid_idTemplate (hdb : WellFormed db) (hrule : rule ∈ db.rules.rows) :
    ∀ id ∈ rule.idTemplate, pgUuid id = id := by
  intro id hid
  obtain ⟨template, htemplate, hkey⟩ := List.mem_map.mp (hdb.templates rule hrule id hid)
  rw [← hkey]
  exact hdb.templateIds template htemplate

/-- The configuration depends on these rows only. -/
theorem getEffectiveConfig_sources (hdb : WellFormed db) (hrule : rule ∈ db.rules.rows)
    (h : SameSources rule db db') {organizationId : String}
    (horg : pgUuid organizationId = rule.idOrganization) :
    Rules.getEffectiveConfig db' organizationId rule =
      Rules.getEffectiveConfig db organizationId rule := by
  unfold Rules.getEffectiveConfig
  cases hid : rule.idTemplate with
  | none => rfl
  | some id =>
      have hcanonical := pgUuid_idTemplate hdb hrule id hid
      have htemplate : findTemplate db' id = findTemplate db id := by
        unfold findTemplate
        rw [hcanonical, h.template id hid]
      simp only [getMergedConfig, htemplate, h.override organizationId horg id hid]

/-! ### Rows that stay in place -/

/-- An override that is none of the rule's, saved over no override of the rule. -/
theorem findByTemplate_put {override : TemplateOverride} {organizationId id : String}
    (hnew : ¬ (override.idOrganization = pgUuid organizationId ∧ override.idTemplate = pgUuid id))
    (hold : ∀ other ∈ db.overrides.rows, other.id = override.id →
      ¬ (other.idOrganization = pgUuid organizationId ∧ other.idTemplate = pgUuid id)) :
    findByTemplate { db with overrides := db.overrides.put override } organizationId id =
      findByTemplate db organizationId id := by
  unfold findByTemplate
  rw [← List.head?_filter, ← List.head?_filter]
  congr 1
  refine filter_putRow_hidden (decide_eq_false hnew) ?_
  intro other hother hkey
  exact decide_eq_false (hold other hother hkey)

/-- Deleting overrides none of which is the rule's. -/
theorem findByTemplate_retain {p : TemplateOverride → Bool} {organizationId id : String}
    (hkept : ∀ override ∈ db.overrides.rows,
      override.idOrganization = pgUuid organizationId ∧ override.idTemplate = pgUuid id →
        p override = true) :
    findByTemplate { db with overrides := db.overrides.retain p } organizationId id =
      findByTemplate db organizationId id := by
  unfold findByTemplate
  rw [← List.head?_filter, ← List.head?_filter, Table.rows_retain, List.filter_filter]
  congr 1
  refine List.filter_congr fun override hmem => ?_
  by_cases h : override.idOrganization = pgUuid organizationId ∧ override.idTemplate = pgUuid id
  · simp only [decide_eq_true h, hkept override hmem h, Bool.and_self]
  · simp only [decide_eq_false h, Bool.false_and]

theorem get?_retained {removed id : String} (hne : id ≠ removed) :
    (db.templates.retain fun other => other.id ≠ removed).get? id = db.templates.get? id := by
  unfold Table.get?
  rw [← List.head?_filter, ← List.head?_filter, Table.rows_retain, List.filter_filter]
  congr 1
  refine List.filter_congr fun template _ => ?_
  by_cases h : key template = id
  · have hkept : template.id ≠ removed := fun heq => hne (h.symm.trans heq)
    simp only [decide_eq_true h, decide_eq_true hkept, Bool.and_self]
  · simp only [decide_eq_false h, Bool.false_and]

/-! ### Writes that do not touch the rule -/

section Untouched

variable (hdb : WellFormed db) (hrule : rule ∈ db.rules.rows) {organizationId : String}

include hdb hrule

theorem sources_ruleWrite {write : RuleWrite}
    (huntouched : ¬ (Op.ruleWrite organizationId write).Touches db rule)
    (h : write.run organizationId db = .ok db') : SameSources rule db db' := by
  cases write with
  | createRule dto id createdAt =>
      obtain ⟨-, -, h⟩ := bind_eq_ok.mp h
      obtain ⟨table, hinsert, h⟩ := bind_eq_ok.mp h
      cases h
      obtain ⟨hfresh, rfl⟩ := insertRow_ok hinsert
      refine ⟨Table.mem_put_of_ne hrule ?_, fun _ _ => rfl, fun _ _ _ _ => rfl⟩
      exact fun hkey => hfresh (hkey ▸ Table.taken_of_mem hrule)
  | updateRule id dto =>
      obtain ⟨old, hfind, h⟩ := bind_eq_ok.mp h
      obtain ⟨changed, hassign, h⟩ := bind_eq_ok.mp h
      obtain ⟨-, -, h⟩ := bind_eq_ok.mp h
      cases h
      obtain ⟨hold, hkey, horg⟩ := findOneOf_ok hfind
      refine ⟨Table.mem_put_of_ne hrule ?_, fun _ _ => rfl, fun _ _ _ _ => rfl⟩
      intro hsame
      have heq : rule = old := Table.eq_of_key_eq hrule hold (hsame.trans (assignRule_ok hassign).1)
      subst heq
      exact huntouched ⟨horg.symm, hkey.symm⟩
  | removeRule id =>
      obtain ⟨old, hfind, h⟩ := bind_eq_ok.mp h
      cases h
      obtain ⟨hold, hkey, horg⟩ := findOneOf_ok hfind
      refine ⟨List.mem_filter.mpr ⟨hrule, decide_eq_true ?_⟩, fun _ _ => rfl, fun _ _ _ _ => rfl⟩
      intro hsame
      have heq : rule = old := Table.eq_of_key_eq hrule hold hsame
      subst heq
      exact huntouched ⟨horg.symm, hkey.symm⟩
  | createOverride dto id =>
      obtain ⟨template, hfind, h⟩ := bind_eq_ok.mp h
      cases hfound : findByTemplate db organizationId dto.idTemplate with
      | some override =>
          rw [hfound] at h
          cases h
      | none =>
          rw [hfound] at h
          obtain ⟨table, hinsert, h⟩ := bind_eq_ok.mp h
          cases h
          obtain ⟨hfresh, rfl⟩ := insertRow_ok hinsert
          refine ⟨hrule, fun _ _ => rfl, fun other hother idTemplate hid => ?_⟩
          rw [← pgUuid_idTemplate hdb hrule idTemplate hid] at hid
          refine findByTemplate_put ?_ ?_
          · rintro ⟨horg, htemplate⟩
            refine huntouched ⟨horg.trans hother, ?_⟩
            rw [← findTemplate_id hfind]
            exact (Option.mem_def.mp hid).trans (congrArg some htemplate.symm)
          · intro override hoverride hkey
            have htaken := Table.taken_of_mem hoverride
            rw [show key override = id from hkey] at htaken
            exact absurd htaken hfresh
  | updateOverride id dto =>
      obtain ⟨override, hfind, h⟩ := bind_eq_ok.mp h
      obtain ⟨overrides, -, h⟩ := bind_eq_ok.mp h
      obtain ⟨enabled, -, h⟩ := bind_eq_ok.mp h
      cases h
      obtain ⟨hold, hkey, -⟩ := findOneOf_ok hfind
      refine ⟨hrule, fun _ _ => rfl, fun other hother idTemplate hid => ?_⟩
      rw [← pgUuid_idTemplate hdb hrule idTemplate hid] at hid
      have hnot : ¬ (override.idOrganization = pgUuid other ∧
          override.idTemplate = pgUuid idTemplate) := by
        rintro ⟨horg, htemplate⟩
        exact huntouched ⟨override, hold, hkey, horg.trans hother, htemplate ▸ hid⟩
      refine findByTemplate_put hnot ?_
      intro row hrow hsame
      rw [Table.eq_of_key_eq hrow hold hsame]
      exact hnot
  | removeOverride id =>
      obtain ⟨override, hfind, h⟩ := bind_eq_ok.mp h
      cases h
      obtain ⟨hold, hkey, -⟩ := findOneOf_ok hfind
      refine ⟨hrule, fun _ _ => rfl, fun other hother idTemplate hid => ?_⟩
      rw [← pgUuid_idTemplate hdb hrule idTemplate hid] at hid
      refine findByTemplate_retain ?_
      rintro row hrow ⟨horg, htemplate⟩
      refine decide_eq_true fun hsame => huntouched ?_
      exact ⟨row, hrow, hsame.trans hkey, horg.trans hother, htemplate ▸ hid⟩

theorem sources_templateWrite {write : TemplateWrite}
    (huntouched : ¬ (Op.templateWrite write).Touches db rule) (h : write.run db = .ok db') :
    SameSources rule db db' := by
  cases write with
  | create dto newId =>
      obtain ⟨-, -, h⟩ := bind_eq_ok.mp h
      obtain ⟨table, hinsert, h⟩ := bind_eq_ok.mp h
      cases h
      obtain ⟨hfresh, rfl⟩ := insertRow_ok hinsert
      refine ⟨hrule, fun id hid => Table.get?_put_of_ne _ ?_, fun _ _ _ _ => rfl⟩
      exact fun heq => hfresh (heq ▸ hdb.templates rule hrule id hid)
  | update id dto =>
      obtain ⟨template, hfind, h⟩ := bind_eq_ok.mp h
      obtain ⟨name, -, h⟩ := bind_eq_ok.mp h
      obtain ⟨config, -, h⟩ := bind_eq_ok.mp h
      obtain ⟨-, -, h⟩ := bind_eq_ok.mp h
      cases h
      have htemplate : template.id = pgUuid id := findTemplate_id hfind
      refine ⟨hrule, fun other hother => Table.get?_put_of_ne _ ?_, fun _ _ _ _ => rfl⟩
      intro heq
      have hsame : other = pgUuid id := heq.trans htemplate
      exact huntouched ((Option.mem_def.mp hother).trans (congrArg some hsame))
  | remove id =>
      obtain ⟨template, hfind, h⟩ := bind_eq_ok.mp h
      cases h
      have hother : ∀ other ∈ rule.idTemplate, other ≠ template.id := by
        intro other hother heq
        have hsame : other = pgUuid id := heq.trans (findTemplate_id hfind)
        exact huntouched ((Option.mem_def.mp hother).trans (congrArg some hsame))
      refine ⟨?_, fun other hid => get?_retained (hother other hid), ?_⟩
      · have hsame : clearTemplate template.id rule = rule :=
          if_neg fun heq => hother template.id heq rfl
        exact List.mem_map.mpr ⟨rule, hrule, hsame⟩
      · intro organizationId _ idTemplate hid
        refine findByTemplate_retain ?_
        rintro override - ⟨-, htemplate⟩
        rw [pgUuid_idTemplate hdb hrule idTemplate hid] at htemplate
        exact decide_eq_true (htemplate ▸ hother idTemplate hid)

/-- One step. -/
theorem sources_writeExec {op : Op} (huntouched : ¬ op.Touches db rule)
    (h : writeExec db op = some db') : SameSources rule db db' := by
  unfold writeExec at h
  split at h
  · rename_i next hwrite
    cases h
    cases op with
    | ruleWrite organizationId write => exact sources_ruleWrite hdb hrule huntouched hwrite
    | templateWrite write => exact sources_templateWrite hdb hrule huntouched hwrite
    | plainWrite organizationId write =>
        exact SameSources.of_sameConfig hrule (PlainWrite.sameConfig hwrite _)
    | createAndEvaluate organizationId dto id now =>
        exact SameSources.of_sameConfig hrule (create_sameConfig hwrite _)
    | evaluate organizationId context now => exact Except.ok.inj hwrite ▸ SameSources.refl hrule
    | evaluateRule organizationId ruleId context now =>
        exact Except.ok.inj hwrite ▸ SameSources.refl hrule
    | getEffectiveConfig organizationId ruleId =>
        exact Except.ok.inj hwrite ▸ SameSources.refl hrule
    | isInList organizationId listType entityType entityValue now =>
        exact Except.ok.inj hwrite ▸ SameSources.refl hrule
  · exact Option.some.inj h ▸ SameSources.refl hrule

end Untouched

end Sources

/-! ### Runs -/

/-- Canonical ids, and no step about a row the configuration comes from. -/
def Op.LeavesAlone (rule : Rule) (db : Database) (op : Op) : Prop :=
  op.CanonicalIds ∧ ¬ op.Touches db rule

instance (rule : Rule) (db : Database) (op : Op) : Decidable (op.LeavesAlone rule db) :=
  inferInstanceAs (Decidable (_ ∧ _))

theorem framed_run {rule : Rule} {organizationId : String} {db db' : Database} {ops : List Op}
    (hdb : Referential db) (hrule : rule ∈ db.rules.rows)
    (horg : pgUuid organizationId = rule.idOrganization)
    (hguard : EveryStep writeExec (Op.LeavesAlone rule) db ops)
    (hrun : runFrom writeExec db ops = some db') :
    rule ∈ db'.rules.rows ∧ Rules.getEffectiveConfig db' organizationId rule =
      Rules.getEffectiveConfig db organizationId rule := by
  have hstep : ∀ current op next,
      (Referential current ∧ rule ∈ current.rules.rows ∧
        Rules.getEffectiveConfig current organizationId rule =
          Rules.getEffectiveConfig db organizationId rule) →
      op.LeavesAlone rule current → writeExec current op = some next →
      Referential next ∧ rule ∈ next.rules.rows ∧
        Rules.getEffectiveConfig next organizationId rule =
          Rules.getEffectiveConfig db organizationId rule := by
    rintro current op next ⟨hcurrent, hmem, hconfig⟩ ⟨hids, huntouched⟩ h
    have hsources := sources_writeExec hcurrent.wellFormed hmem huntouched h
    exact ⟨referential_writeExec hcurrent hids h, hsources.row,
      (getEffectiveConfig_sources hcurrent.wellFormed hmem hsources horg).trans hconfig⟩
  exact (runFrom_guarded_invariant hstep ⟨hdb, hrule, rfl⟩ hguard hrun).2

section Runs

variable [NumberText] [DriverText] [NumberParsing] (env : Environment)

/-- **Configurations are framed.**  Over a run in which no operation is about the
    rule, its template or its organization's override of that template, whatever
    all organizations do otherwise, the rule is found with the same columns and
    resolves to the same configuration. -/
theorem configuration_framed {s t : State} {ops : List Op} (hs : Referential s.db)
    {organizationId ruleId : String} {rule : Rule}
    (hfound : findRule s.db organizationId ruleId = .ok rule)
    (hguard : EveryStep (execOp env) (fun s op => op.LeavesAlone rule s.db) s ops)
    (hrun : runFrom (execOp env) s ops = some t) :
    findRule t.db organizationId ruleId = .ok rule ∧
      getEffectiveConfigById t.db organizationId ruleId =
        getEffectiveConfigById s.db organizationId ruleId := by
  obtain ⟨hrule, hkey, horg⟩ := findOneOf_ok hfound
  have hdb : runFrom writeExec s.db ops = some t.db := by
    rw [← runFrom_db env, hrun, Option.map_some]
  obtain ⟨hrule', hconfig⟩ := framed_run hs hrule horg.symm
    (EveryStep.forget (fun s op => db_step env s op) hguard) hdb
  have hfound' : findRule t.db organizationId ruleId = .ok rule :=
    findOneOf_of_mem hrule' hkey horg "Rule"
  refine ⟨hfound', ?_⟩
  unfold getEffectiveConfigById
  rw [hfound, hfound']
  exact hconfig

end Runs

/-! ### Removing a template -/

/-- **Removing a template.**  The rules that inherit from it, whoever owns them, go
    on with their own configuration; every other rule keeps its row and, for its
    own organization, its effective configuration. -/
theorem removeTemplate_configurations {id : String} {db db' : Database} (hdb : Referential db)
    (h : removeTemplate id db = .ok db') {rule : Rule} (hrule : rule ∈ db.rules.rows)
    {organizationId : String} (horg : pgUuid organizationId = rule.idOrganization) :
    (rule.idTemplate = some (pgUuid id) →
      findRule db' organizationId rule.id = .ok { rule with idTemplate := none } ∧
        getEffectiveConfigById db' organizationId rule.id = .ok rule.config) ∧
    (rule.idTemplate ≠ some (pgUuid id) →
      findRule db' organizationId rule.id = .ok rule ∧
        getEffectiveConfigById db' organizationId rule.id =
          getEffectiveConfigById db organizationId rule.id) := by
  have hid := hdb.wellFormed.ruleIds rule hrule
  constructor
  · intro htemplate
    obtain ⟨template, hfind, hremoved⟩ := bind_eq_ok.mp h
    have hrows : db'.rules.rows = db.rules.rows.map (clearTemplate template.id) := by
      cases hremoved
      rfl
    have hcleared : clearTemplate template.id rule = { rule with idTemplate := none } :=
      if_pos (htemplate.trans (congrArg some (findTemplate_id hfind).symm))
    have hmem : { rule with idTemplate := none } ∈ db'.rules.rows :=
      hrows ▸ List.mem_map.mpr ⟨rule, hrule, hcleared⟩
    have hfound : findRule db' organizationId rule.id = .ok { rule with idTemplate := none } :=
      findOneOf_of_mem hmem hid.symm horg.symm "Rule"
    refine ⟨hfound, ?_⟩
    unfold getEffectiveConfigById
    rw [hfound]
    rfl
  · intro htemplate
    have huntouched : ¬ (Op.templateWrite (.remove id)).Touches db rule := htemplate
    have hsources := sources_templateWrite hdb.wellFormed hrule huntouched h
    have hbefore : findRule db organizationId rule.id = .ok rule :=
      findOneOf_of_mem hrule hid.symm horg.symm "Rule"
    have hfound : findRule db' organizationId rule.id = .ok rule :=
      findOneOf_of_mem hsources.row hid.symm horg.symm "Rule"
    refine ⟨hfound, ?_⟩
    unfold getEffectiveConfigById
    rw [hfound, hbefore]
    exact getEffectiveConfig_sources hdb.wellFormed hrule hsources horg

/-! ### Two organizations that share a template -/

attribute [local instance] NumberText.integers DriverText.stringsOnly NumberParsing.never

/-- The organizations `org` and `lab` each have a rule that inherits from template
    `t`. -/
def sharedTemplate : List Op :=
  [.templateWrite (.create ⟨"amount", .absent⟩ "t"),
    .ruleWrite "org" (.createRule inheritingRule "r" 0),
    .ruleWrite "lab" (.createRule inheritingRule "q" 0)]

/-- The other organization overrides the template and drops its rule, and a
    template of the same kind is added. -/
def othersWork : List Op :=
  [.ruleWrite "lab" (.createOverride ⟨"t", .value [("timeWindow", .str "1h")], .absent⟩ "o"),
    .templateWrite (.create ⟨"velocity", .absent⟩ "u"), .ruleWrite "lab" (.removeRule "q")]

/-- The rule of `org`. -/
def inheritor : Rule := ⟨"r", "org", some "t", "amount", true, 0, [], 0⟩

theorem run_sharedTemplate :
    ∃ s, runFrom (execOp sampleEnvironment) State.initial sharedTemplate = some s ∧
      Referential s.db ∧ s.db.rules.rows[0]? = some inheritor ∧
      EveryStep (execOp sampleEnvironment) (fun s op => op.LeavesAlone inheritor s.db) s
        othersWork := by
  obtain ⟨s, hs⟩ : ∃ s, runFrom (execOp sampleEnvironment) State.initial sharedTemplate = some s :=
    ⟨_, rfl⟩
  have hids : ∀ op ∈ sharedTemplate, op.CanonicalIds := by decide +kernel
  have hguard : (runFrom (execOp sampleEnvironment) State.initial sharedTemplate).map
      (fun s => decide (EveryStep (execOp sampleEnvironment)
        (fun s op => op.LeavesAlone inheritor s.db) s othersWork)) = some true := by
    decide +kernel
  have hrow : (runFrom (execOp sampleEnvironment) State.initial sharedTemplate).map
      (fun s => s.db.rules.rows[0]?) = some (some inheritor) := rfl
  rw [hs] at hguard hrow
  exact ⟨s, hs, referential_run sampleEnvironment referential_empty hids hs, Option.some.inj hrow,
    of_decide_eq_true (Option.some.inj hguard)⟩

theorem configuration_framed_sample :
    ∃ s t, runFrom (execOp sampleEnvironment) State.initial sharedTemplate = some s ∧
      runFrom (execOp sampleEnvironment) s othersWork = some t ∧
      findRule t.db "org" "r" = .ok inheritor := by
  obtain ⟨s, hs, hreferential, hrow, hguard⟩ := run_sharedTemplate
  obtain ⟨t, ht⟩ : ∃ t, runFrom (execOp sampleEnvironment) s othersWork = some t := ⟨_, rfl⟩
  have hfound : findRule s.db "org" "r" = .ok inheritor :=
    findOneOf_of_mem (List.mem_of_getElem? hrow) (by decide +kernel) (by decide +kernel) "Rule"
  exact ⟨s, t, hs, ht, (configuration_framed sampleEnvironment hreferential hfound hguard ht).1⟩

/-- The rule loses its template and keeps its own configuration. -/
theorem removeTemplate_configurations_sample :
    ∃ s db', runFrom (execOp sampleEnvironment) State.initial sharedTemplate = some s ∧
      removeTemplate "t" s.db = .ok db' ∧ getEffectiveConfigById db' "org" "r" = .ok [] := by
  obtain ⟨s, hs, hreferential, hrow, -⟩ := run_sharedTemplate
  have hremove : (runFrom (execOp sampleEnvironment) State.initial sharedTemplate).map
      (fun s => (removeTemplate "t" s.db).isOk) = some true := by decide +kernel
  rw [hs] at hremove
  cases hresult : removeTemplate "t" s.db with
  | error e =>
      rw [Option.map_some, hresult] at hremove
      cases hremove
  | ok db' =>
      have horg : pgUuid "org" = inheritor.idOrganization := by decide +kernel
      have htemplate : inheritor.idTemplate = some (pgUuid "t") := by decide +kernel
      have heffect := removeTemplate_configurations hreferential hresult
        (List.mem_of_getElem? hrow) horg
      exact ⟨s, db', hs, hresult, (heffect.1 htemplate).2⟩

end RulesEngine

import Mathlib.Data.List.Pairwise
import RulesEngine.ReferentialIntegrity

/-!
# Where rows come from

An id is generated once, and some columns of the row it is generated for never
change: they can be read off the id (`Originated`).  So a row found by its id at
two moments belongs to one organization, even if it has been removed and
inserted again in between.  Operations whose generated ids are new say for each
id where it comes from (`creates_originsOf`).
-/

namespace RulesEngine

open RulesEngine.Foundations
open RulesEngine.Rules
open RulesEngine.Lists
open RulesEngine.Engine
open RulesEngine.Transactions

/-! ### Origins -/

/-- What is settled for good when an id is generated: the organization and the
    creation time of a rule, the organization and the template of an override, the
    organization of a list entry. -/
structure Origins where
  rule : String → String × Int
  override : String → String × String
  entry : String → String

def Rule.From (origins : Origins) (rule : Rule) : Prop :=
  origins.rule rule.id = (rule.idOrganization, rule.createdAt)

def TemplateOverride.From (origins : Origins) (override : TemplateOverride) : Prop :=
  origins.override override.id = (override.idOrganization, override.idTemplate)

def ListEntry.From (origins : Origins) (entry : ListEntry) : Prop :=
  origins.entry entry.id = entry.idOrganization

structure Originated (origins : Origins) (db : Database) : Prop where
  rules : ∀ rule ∈ db.rules.rows, rule.From origins
  overrides : ∀ override ∈ db.overrides.rows, override.From origins
  entries : ∀ entry ∈ db.listEntries.rows, entry.From origins

/-- The operation creates rows as their ids say. -/
def Op.Creates (origins : Origins) : Op → Prop
  | .ruleWrite organizationId (.createRule _ id createdAt) =>
      origins.rule id = (pgUuid organizationId, createdAt)
  | .ruleWrite organizationId (.createOverride dto id) =>
      origins.override id = (pgUuid organizationId, pgUuid dto.idTemplate)
  | .plainWrite organizationId (.createListEntry _ id) => origins.entry id = pgUuid organizationId
  | _ => True

/-- The ids generated for the operation are canonical and say what it creates. -/
def Op.Fits (origins : Origins) (op : Op) : Prop := op.CanonicalIds ∧ op.Creates origins

section Origins

variable {origins : Origins} {db db' : Database}

/-- Rules of one id come from one place. -/
theorem Rule.From.eq_of_id {rule rule' : Rule} (h : rule.From origins) (h' : rule'.From origins)
    (hid : rule'.id = rule.id) :
    rule'.idOrganization = rule.idOrganization ∧ rule'.createdAt = rule.createdAt := by
  rw [Rule.From, hid, h] at h'
  obtain ⟨horg, hcreated⟩ := Prod.mk.inj h'
  exact ⟨horg.symm, hcreated.symm⟩

theorem from_clearTemplate {id : String} {rule : Rule} (h : rule.From origins) :
    (clearTemplate id rule).From origins := by
  unfold clearTemplate
  split
  · exact h
  · exact h

theorem from_assignRule {dto : UpdateRuleDto} {stored : Option String} {rule rule' : Rule}
    (h : rule.From origins) (hassign : assignRule dto stored rule = .ok rule') :
    rule'.From origins := by
  obtain ⟨hid, horg, hcreated⟩ := assignRule_ok hassign
  rw [Rule.From, hid, horg, hcreated]
  exact h

theorem originated_ruleWrite {organizationId : String} {write : RuleWrite}
    (hdb : Originated origins db) (hcreates : (Op.ruleWrite organizationId write).Creates origins)
    (h : write.run organizationId db = .ok db') : Originated origins db' := by
  obtain ⟨hrules, hoverrides, hentries⟩ := hdb
  cases write with
  | createRule dto id createdAt =>
      obtain ⟨⟨⟩, -, h⟩ := bind_eq_ok.mp h
      obtain ⟨table, hinsert, h⟩ := bind_eq_ok.mp h
      cases h
      obtain ⟨-, rfl⟩ := insertRow_ok hinsert
      exact ⟨Table.forall_put hrules hcreates, hoverrides, hentries⟩
  | updateRule id dto =>
      obtain ⟨rule, hfind, h⟩ := bind_eq_ok.mp h
      obtain ⟨rule', hassign, h⟩ := bind_eq_ok.mp h
      obtain ⟨⟨⟩, -, h⟩ := bind_eq_ok.mp h
      cases h
      have hrule := from_assignRule (hrules rule (findOneOf_ok hfind).1) hassign
      exact ⟨Table.forall_put hrules hrule, hoverrides, hentries⟩
  | removeRule id =>
      obtain ⟨rule, -, h⟩ := bind_eq_ok.mp h
      cases h
      exact ⟨Table.forall_retain hrules _, hoverrides, hentries⟩
  | createOverride dto id =>
      obtain ⟨template, hfind, h⟩ := bind_eq_ok.mp h
      cases hfound : findByTemplate db organizationId dto.idTemplate with
      | some override =>
          rw [hfound] at h
          cases h
      | none =>
          rw [hfound] at h
          obtain ⟨table, hinsert, h⟩ := bind_eq_ok.mp h
          cases h
          obtain ⟨-, rfl⟩ := insertRow_ok hinsert
          refine ⟨hrules, Table.forall_put hoverrides ?_, hentries⟩
          rw [TemplateOverride.From, findTemplate_id hfind]
          exact hcreates
  | updateOverride id dto =>
      obtain ⟨override, hfind, h⟩ := bind_eq_ok.mp h
      obtain ⟨overrides, -, h⟩ := bind_eq_ok.mp h
      obtain ⟨enabled, -, h⟩ := bind_eq_ok.mp h
      cases h
      have hoverride := hoverrides override (findOneOf_ok hfind).1
      exact ⟨hrules, Table.forall_put hoverrides hoverride, hentries⟩
  | removeOverride id =>
      obtain ⟨override, -, h⟩ := bind_eq_ok.mp h
      cases h
      exact ⟨hrules, Table.forall_retain hoverrides _, hentries⟩

theorem originated_plainWrite {organizationId : String} {write : PlainWrite}
    (hdb : Originated origins db) (hcreates : (Op.plainWrite organizationId write).Creates origins)
    (h : write.run organizationId db = .ok db') : Originated origins db' := by
  obtain ⟨hrules, hoverrides, hentries⟩ := hdb
  cases write with
  | createListEntry dto id =>
      simp only [PlainWrite.run, Lists.createListEntry] at h
      split at h
      · cases h
      · obtain ⟨expiresAt, -, h⟩ := bind_eq_ok.mp h
        obtain ⟨table, hinsert, h⟩ := bind_eq_ok.mp h
        cases h
        obtain ⟨-, rfl⟩ := insertRow_ok hinsert
        exact ⟨hrules, hoverrides, Table.forall_put hentries hcreates⟩
  | removeListEntry id =>
      obtain ⟨entry, -, h⟩ := bind_eq_ok.mp h
      cases h
      exact ⟨hrules, hoverrides, Table.forall_retain hentries _⟩
  | createTransaction dto id =>
      obtain ⟨tx, -, -, rfl⟩ := create_ok_iff.mp h
      exact ⟨hrules, hoverrides, hentries⟩
  | updateTransaction id dto =>
      obtain ⟨tx, -, h⟩ := bind_eq_ok.mp h
      obtain ⟨isBlocked, -, h⟩ := bind_eq_ok.mp h
      obtain ⟨isVoided, -, h⟩ := bind_eq_ok.mp h
      cases h
      exact ⟨hrules, hoverrides, hentries⟩

theorem originated_templateWrite {write : TemplateWrite} (hdb : Originated origins db)
    (h : write.run db = .ok db') : Originated origins db' := by
  obtain ⟨hrules, hoverrides, hentries⟩ := hdb
  cases write with
  | create dto id =>
      obtain ⟨⟨⟩, -, h⟩ := bind_eq_ok.mp h
      obtain ⟨table, -, h⟩ := bind_eq_ok.mp h
      cases h
      exact ⟨hrules, hoverrides, hentries⟩
  | update id dto =>
      obtain ⟨template, -, h⟩ := bind_eq_ok.mp h
      obtain ⟨name, -, h⟩ := bind_eq_ok.mp h
      obtain ⟨config, -, h⟩ := bind_eq_ok.mp h
      obtain ⟨⟨⟩, -, h⟩ := bind_eq_ok.mp h
      cases h
      exact ⟨hrules, hoverrides, hentries⟩
  | remove id =>
      obtain ⟨template, -, h⟩ := bind_eq_ok.mp h
      cases h
      refine ⟨?_, Table.forall_retain hoverrides _, hentries⟩
      intro rule hrule
      obtain ⟨before, hbefore, rfl⟩ := List.mem_map.mp hrule
      exact from_clearTemplate (hrules before hbefore)

theorem originated_write {db db' : Database} {op : Op} (hdb : Originated origins db)
    (hcreates : op.Creates origins) (h : writeExec db op = some db') : Originated origins db' := by
  unfold writeExec at h
  split at h
  · rename_i next hwrite
    cases h
    cases op with
    | ruleWrite organizationId write => exact originated_ruleWrite hdb hcreates hwrite
    | plainWrite organizationId write => exact originated_plainWrite hdb hcreates hwrite
    | templateWrite write => exact originated_templateWrite hdb hwrite
    | createAndEvaluate organizationId dto id now =>
        have hcreates' :
            (Op.plainWrite organizationId (.createTransaction dto id)).Creates origins := trivial
        exact originated_plainWrite hdb hcreates' hwrite
    | evaluate | evaluateRule | getEffectiveConfig | isInList =>
        exact Except.ok.inj hwrite ▸ hdb
  · exact Option.some.inj h ▸ hdb

end Origins

/-! ### New ids settle where rows come from -/

section Fresh

variable {ops : List Op} {db : Database}

theorem FreshIds.sole (h : FreshIds ops db) {op op' : Op} (hop : op ∈ ops) (hop' : op' ∈ ops)
    {id : String} (hid : id ∈ op.generatedIds) (hid' : id ∈ op'.generatedIds) : op = op' := by
  by_contra hne
  have hdisjoint := (List.nodup_flatMap.mp h.nodup).2
  have : Std.Symm (Function.onFun List.Disjoint Op.generatedIds) := ⟨fun _ _ h _ ha hb => h hb ha⟩
  exact hdisjoint.forall hop hop' hne hid hid'

/-- What an operation says about an id, when no other operation says anything. -/
theorem findSome?_of_sole {α : Type} {f : Op → Option α} {op : Op} {a : α} (hop : op ∈ ops)
    (hf : f op = some a) (hsole : ∀ op' ∈ ops, ∀ b, f op' = some b → op = op') :
    ops.findSome? f = some a := by
  cases hfound : ops.findSome? f with
  | none =>
      have hnone := List.findSome?_eq_none_iff.mp hfound op hop
      rw [hf] at hnone
      cases hnone
  | some b =>
      obtain ⟨op', hop', hb⟩ := List.exists_of_findSome?_eq_some hfound
      obtain rfl := hsole op' hop' b hb
      exact hb.symm.trans hf

def Op.ruleOrigin (id : String) : Op → Option (String × Int)
  | .ruleWrite organizationId (.createRule _ id' createdAt) =>
      if id' = id then some (pgUuid organizationId, createdAt) else none
  | _ => none

def Op.overrideOrigin (id : String) : Op → Option (String × String)
  | .ruleWrite organizationId (.createOverride dto id') =>
      if id' = id then some (pgUuid organizationId, pgUuid dto.idTemplate) else none
  | _ => none

def Op.entryOrigin (id : String) : Op → Option String
  | .plainWrite organizationId (.createListEntry _ id') =>
      if id' = id then some (pgUuid organizationId) else none
  | _ => none

theorem mem_generatedIds_of_origin {op : Op} {id : String}
    (h : (∃ a, op.ruleOrigin id = some a) ∨ (∃ a, op.overrideOrigin id = some a) ∨
      ∃ a, op.entryOrigin id = some a) : id ∈ op.generatedIds := by
  rcases h with ⟨a, h⟩ | ⟨a, h⟩ | ⟨a, h⟩
  · unfold Op.ruleOrigin at h
    split at h
    · obtain ⟨rfl, -⟩ := Option.ite_none_right_eq_some.mp h
      exact List.mem_cons_self
    · cases h
  · unfold Op.overrideOrigin at h
    split at h
    · obtain ⟨rfl, -⟩ := Option.ite_none_right_eq_some.mp h
      exact List.mem_cons_self
    · cases h
  · unfold Op.entryOrigin at h
    split at h
    · obtain ⟨rfl, -⟩ := Option.ite_none_right_eq_some.mp h
      exact List.mem_cons_self
    · cases h

/-- Where the rows of a database and of some operations come from. -/
def originsOf (db : Database) (ops : List Op) : Origins where
  rule := fun id =>
    match db.rules.get? id with
    | some rule => (rule.idOrganization, rule.createdAt)
    | none => (ops.findSome? (Op.ruleOrigin id)).getD ("", 0)
  override := fun id =>
    match db.overrides.get? id with
    | some override => (override.idOrganization, override.idTemplate)
    | none => (ops.findSome? (Op.overrideOrigin id)).getD ("", "")
  entry := fun id =>
    match db.listEntries.get? id with
    | some entry => entry.idOrganization
    | none => (ops.findSome? (Op.entryOrigin id)).getD ""

theorem originated_originsOf (db : Database) (ops : List Op) :
    Originated (originsOf db ops) db where
  rules := by
    intro rule hrule
    have hget : db.rules.get? rule.id = some rule := Table.get?_eq_some_iff.mpr ⟨hrule, rfl⟩
    simp only [Rule.From, originsOf, hget]
  overrides := by
    intro override hoverride
    have hget : db.overrides.get? override.id = some override :=
      Table.get?_eq_some_iff.mpr ⟨hoverride, rfl⟩
    simp only [TemplateOverride.From, originsOf, hget]
  entries := by
    intro entry hentry
    have hget : db.listEntries.get? entry.id = some entry :=
      Table.get?_eq_some_iff.mpr ⟨hentry, rfl⟩
    simp only [ListEntry.From, originsOf, hget]

theorem creates_originsOf (h : FreshIds ops db) {op : Op} (hop : op ∈ ops) :
    op.Creates (originsOf db ops) := by
  have hunused : ∀ id ∈ op.generatedIds, ¬ db.Uses id :=
    fun id hid => h.unused id (List.mem_flatMap.mpr ⟨op, hop, hid⟩)
  cases op with
  | ruleWrite organizationId write =>
      cases write with
      | createRule dto id createdAt =>
          have hnew : db.rules.get? id = none :=
            Table.get?_eq_none_iff.mpr fun htaken =>
              hunused id List.mem_cons_self (.inr (.inr (.inl htaken)))
          have hfound : ops.findSome? (Op.ruleOrigin id) =
              some (pgUuid organizationId, createdAt) :=
            findSome?_of_sole hop (if_pos rfl) fun op' hop' b hb =>
              h.sole hop hop' List.mem_cons_self (mem_generatedIds_of_origin (Or.inl ⟨b, hb⟩))
          simp only [Op.Creates, originsOf, hnew, hfound, Option.getD_some]
      | createOverride dto id =>
          have hnew : db.overrides.get? id = none :=
            Table.get?_eq_none_iff.mpr fun htaken =>
              hunused id List.mem_cons_self (.inr (.inl htaken))
          have hfound : ops.findSome? (Op.overrideOrigin id) =
              some (pgUuid organizationId, pgUuid dto.idTemplate) :=
            findSome?_of_sole hop (if_pos rfl) fun op' hop' b hb =>
              h.sole hop hop' List.mem_cons_self
                (mem_generatedIds_of_origin (Or.inr (Or.inl ⟨b, hb⟩)))
          simp only [Op.Creates, originsOf, hnew, hfound, Option.getD_some]
      | updateRule | removeRule | updateOverride | removeOverride => trivial
  | plainWrite organizationId write =>
      cases write with
      | createListEntry dto id =>
          have hnew : db.listEntries.get? id = none :=
            Table.get?_eq_none_iff.mpr fun htaken =>
              hunused id List.mem_cons_self (.inr (.inr (.inr (.inl htaken))))
          have hfound : ops.findSome? (Op.entryOrigin id) = some (pgUuid organizationId) :=
            findSome?_of_sole hop (if_pos rfl) fun op' hop' b hb =>
              h.sole hop hop' List.mem_cons_self
                (mem_generatedIds_of_origin (Or.inr (Or.inr ⟨b, hb⟩)))
          simp only [Op.Creates, originsOf, hnew, hfound, Option.getD_some]
      | removeListEntry | createTransaction | updateTransaction => trivial
  | templateWrite | evaluate | createAndEvaluate | evaluateRule | getEffectiveConfig | isInList =>
      trivial

end Fresh

end RulesEngine

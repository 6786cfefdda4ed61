import RulesEngine.CacheInterleaving
import RulesEngine.CacheTransparency
import RulesEngine.Foundations.LookAside

/-!
# The rule cache at rest

The interleaved system is a look-aside cache whose announcements are the
invalidations under way.  A write announces the organization it is made for, and
every further step of its invalidation either deletes the entry or leaves
another step to come.  A `SETEX` announces nothing: it stores what its load has
read, however long ago, so it may put back a list that a write has changed and
whose invalidation is over.  `settled_iff_leavesSettled` is the exact condition.

A load reads the list the database holds as long as no write of its organization
commits while it is in flight (`leavesSettled_of_undisturbed`).
-/

namespace RulesEngine.Interleaving

open RulesEngine.Foundations
open RulesEngine.Rules
open RulesEngine.Engine

/-! ### The look-aside cache -/

/-- Some invalidation of the organization is under way. -/
def System.Pending (s : System) (organizationId : String) : Prop :=
  ∃ invalidation ∈ s.invalidations, invalidation.organizationId = organizationId

/-- The system as a look-aside cache, which announces the invalidations. -/
def System.lookAside (s : System) :
    LookAside String Database (Except Thrown (List CachedRule)) :=
  { s.toState.lookAside with announced := s.Pending }

/-- Every entry is the derived list or about to be deleted. -/
def Settled (s : System) : Prop := s.lookAside.Settled derivedRules

/-- Nothing is in flight. -/
structure System.AtRest (s : System) : Prop where
  loads : s.loads = []
  invalidations : s.invalidations = []

theorem coherent_of_settled {s : System} (hs : Settled s) (hrest : s.AtRest) :
    Coherent s.toState := by
  intro organizationId entry hentry
  have hquiet : ∀ other, ¬ s.lookAside.announced other := by
    rintro other ⟨invalidation, hmem, -⟩
    rw [hrest.invalidations] at hmem
    exact List.not_mem_nil hmem
  apply (LookAside.settled_iff_of_quiet hquiet).mp hs organizationId
  exact Option.map_eq_some_iff.mpr ⟨entry, hentry, rfl⟩

theorem settled_start (db : Database) (now : Int) : Settled (System.start db now) := by
  intro organizationId rules hentry
  exact absurd hentry (by simp [System.lookAside, State.lookAside, System.start])

/-! ### Invalidations -/

/-- An invalidation that deletes nothing in its next step goes on. -/
theorem next_of_not_deletes (d : Deployment) {invalidation : Invalidation}
    (h : ¬ invalidation.stage.Deletes) :
    ∃ other ∈ invalidation.next d, other.organizationId = invalidation.organizationId := by
  obtain ⟨organizationId, stage⟩ := invalidation
  cases stage with
  | emitted => exact absurd trivial h
  | received instanceId => exact absurd trivial h
  | published instanceId => exact ⟨_, List.mem_cons_self, rfl⟩
  | deleted =>
      -- the publisher itself is a subscriber
      refine ⟨⟨organizationId, .published 0⟩, ?_, rfl⟩
      exact List.mem_map.mpr ⟨0, List.mem_range.mpr (Nat.succ_pos _), rfl⟩

theorem pending_invalidate {d : Deployment} {s : System} {invalidation : Invalidation}
    {other : String} (hne : other ≠ invalidation.organizationId) (h : s.Pending other) :
    (s.invalidate d invalidation).Pending other := by
  obtain ⟨waiting, hmem, rfl⟩ := h
  have hdiff : waiting ≠ invalidation := fun heq => hne (congrArg _ heq)
  exact ⟨waiting, List.mem_append_left _ ((List.mem_erase_of_ne hdiff).mpr hmem), rfl⟩

theorem settled_invalidate (d : Deployment) {s : System} (hs : Settled s)
    (invalidation : Invalidation) : Settled (s.invalidate d invalidation) := by
  by_cases hdeletes : invalidation.stage.Deletes
  · have hcache : (s.invalidate d invalidation).cache =
        s.cache.del (getCacheKey invalidation.organizationId) := if_pos hdeletes
    apply LookAside.settled_clear (k := invalidation.organizationId) hs
    · simp only [State.lookAside, hcache, RedisCache.del_self, Option.map_none]
    · intro other hne
      simp only [System.lookAside, State.lookAside, hcache, RedisCache.del_of_ne _ hne]
    · intro other hne
      exact pending_invalidate hne
  · have hcache : (s.invalidate d invalidation).cache = s.cache := if_neg hdeletes
    have hlook : (s.invalidate d invalidation).lookAside =
        ⟨s.db, s.lookAside.entry, (s.invalidate d invalidation).Pending⟩ := by
      simp only [System.lookAside, State.lookAside, hcache]
      rfl
    unfold Settled
    rw [hlook]
    apply LookAside.settled_announce hs
    intro other hpending
    by_cases hother : other = invalidation.organizationId
    · subst hother
      obtain ⟨later, hmem, horg⟩ := next_of_not_deletes d hdeletes
      exact ⟨later, List.mem_append_right _ hmem, horg⟩
    · exact pending_invalidate hother hpending

/-! ### The exact condition -/

/-- A load stores the list that the database holds, or one that an invalidation
    under way will delete; and a write made under one spelling of an
    organization's uuid leaves the list of an entry under another spelling as it
    was. -/
def LeavesSettled (s : System) : Label → Prop
  | .setex index => ∀ load ∈ s.loads[index]?, ∀ rules ∈ load.result,
      derivedRules s.db load.organizationId = .ok rules ∨ s.Pending load.organizationId
  | .ruleWrite organizationId write => ∀ db, write.run organizationId s.db = .ok db →
      ∀ other, other ≠ organizationId → pgUuid other = pgUuid organizationId →
        s.cache (getCacheKey other) ≠ none → ¬ s.Pending other →
          derivedRules db other = derivedRules s.db other
  | _ => True

theorem settled_setex_iff (d : Deployment) {s : System} (hs : Settled s) (index : Nat)
    (organizationId : String) (rules : List CachedRule) :
    Settled (s.setex d index organizationId rules) ↔
      derivedRules s.db organizationId = .ok rules ∨ s.Pending organizationId := by
  apply LookAside.settled_store_iff hs
  · simp only [System.setex, State.lookAside, RedisCache.setex_self, Option.map_some]
  · intro other hne
    simp only [System.setex, RedisCache.setex_of_ne _ _ hne, System.lookAside, State.lookAside]

theorem settled_committed_iff {s : System} (hs : Settled s) {organizationId : String}
    {write : RuleWrite} {db : Database} (h : write.run organizationId s.db = .ok db) :
    Settled { s with db, invalidations := s.invalidations ++ [⟨organizationId, .emitted⟩] } ↔
      LeavesSettled s (.ruleWrite organizationId write) := by
  have hpending : ∀ other,
      System.Pending { s with db, invalidations := s.invalidations ++ [⟨organizationId, .emitted⟩] }
        other ↔ other = organizationId ∨ s.Pending other := by
    intro other
    simp only [System.Pending, List.mem_append, List.mem_singleton, or_and_right, exists_or,
      exists_eq_left]
    exact or_comm.trans (or_congr_left eq_comm)
  have hkept := fun other hold => (hpending other).mpr (.inr hold)
  refine (LookAside.settled_change_iff hs db hkept).trans ?_
  simp only [hpending, not_or, LeavesSettled, h, Except.ok.injEq, forall_eq', System.lookAside,
    State.lookAside, ne_eq, Option.map_eq_none_iff, and_imp]
  constructor
  · intro hsame other hne _ hentry hquiet
    exact hsame other hentry hne hquiet
  · intro hsame other hentry hne hquiet
    by_cases huuid : pgUuid other = pgUuid organizationId
    · exact hsame other hne huuid hentry hquiet
    · exact derivedRules_congr ((RuleWrite.commit h).frame (Ne.symm huuid)).toSameConfig

theorem settled_step_iff {d : Deployment} {s t : System} {label : Label} (hs : Settled s)
    (h : exec d s label = some t) : Settled t ↔ LeavesSettled s label := by
  cases exec_move h with
  | hit => exact ⟨fun _ => trivial, fun _ => hs⟩
  | missed => exact ⟨fun _ => trivial, fun _ => hs⟩
  | queried => exact ⟨fun _ => trivial, fun _ => hs⟩
  | threw => exact ⟨fun _ => trivial, fun _ => hs⟩
  | failed => exact ⟨fun _ => trivial, fun _ => hs⟩
  | stored index load rules hload hresult =>
      rw [settled_setex_iff d hs]
      simp [LeavesSettled, hload, hresult]
  | committed organizationId write db hrun => exact settled_committed_iff hs hrun
  | rejected organizationId write e hrun =>
      exact ⟨fun _ => by simp [LeavesSettled, hrun], fun _ => hs⟩
  | plainCommitted organizationId write db hrun =>
      refine ⟨fun _ => trivial, fun _ => ?_⟩
      refine (LookAside.settled_change_iff hs db fun _ hold => hold).mpr ?_
      intro other _ _
      exact derivedRules_congr (PlainWrite.sameConfig hrun (pgUuid other))
  | plainRejected => exact ⟨fun _ => trivial, fun _ => hs⟩
  | invalidated invalidation => exact ⟨fun _ => trivial, fun _ => settled_invalidate d hs _⟩
  | ticked => exact ⟨fun _ => trivial, fun _ => hs⟩

/-- **The exact condition.**  In every state of a run each entry is the derived
    list or about to be deleted, if and only if every step meets the condition. -/
theorem settled_iff_leavesSettled (d : Deployment) (db : Database) (now : Int)
    (labels : List Label) :
    EveryState (exec d) Settled (System.start db now) labels ↔
      EveryStep (exec d) LeavesSettled (System.start db now) labels := by
  apply everyState_iff_everyStep (J := fun _ => True)
  · intro s label t _ _
    trivial
  · intro s label h
    cases label with
    | setex index =>
        intro load hload rules hresult
        -- a blocked `SETEX` has no list to store
        simp only [exec, Option.mem_def] at h hload hresult
        simp [hload, hresult] at h
    | ruleWrite organizationId write =>
        simp only [exec] at h
        split at h <;> cases h
    | _ => trivial
  · intro s label t _ hs h
    exact settled_step_iff hs h
  · trivial
  · exact settled_start db now

/-- **Coherence at rest.**  In a run whose steps all meet the condition, the
    entries are the derived lists whenever nothing is in flight. -/
theorem coherent_at_rest (d : Deployment) (db : Database) (now : Int) {labels : List Label}
    (h : EveryStep (exec d) LeavesSettled (System.start db now) labels) :
    EveryState (exec d) (fun s => s.AtRest → Coherent s.toState) (System.start db now) labels :=
  EveryState.mono (fun _ hs => coherent_of_settled hs)
    ((settled_iff_leavesSettled d db now labels).mpr h)

/-! ### Loads that nothing disturbs -/

theorem getMergedConfig_eq (db : Database) (organizationId templateId : String) :
    getMergedConfig db organizationId templateId =
      (findTemplate db templateId).map fun template =>
        mergedConfig template (findByTemplate db organizationId templateId) := by
  unfold getMergedConfig
  cases findTemplate db templateId with
  | error e => rfl
  | ok template =>
      cases hfound : findByTemplate db organizationId templateId with
      | none => simp only [bind, Except.bind, Except.map, mergedConfig, pure, Except.pure]
      | some override =>
          cases henabled : override.enabled <;>
            simp [bind, Except.bind, Except.map, mergedConfig, pure, Except.pure, henabled]

/-- The list a load ends with if it reads the rest from the database. -/
def Completes (db : Database) (organizationId : String) (done : List CachedRule)
    (todo : List Rule) : Prop :=
  (buildCachedRules (Rules.getEffectiveConfig db organizationId) todo).map (done ++ ·) =
    derivedRules db organizationId

/-- What a load has read is what the database holds. -/
def Load.Stands (db : Database) (load : Load) : Prop :=
  match load.progress with
  | .missed => True
  | .configuring done todo => Completes db load.organizationId done todo
  | .merging done rule idTemplate template todo =>
      rule.idTemplate = some idTemplate ∧ idTemplate ≠ "" ∧
        findTemplate db idTemplate = .ok template ∧
        Completes db load.organizationId done (rule :: todo)

theorem completes_cons {db : Database} {organizationId : String} {done : List CachedRule}
    {rule : Rule} {todo : List Rule} {config : JsonObject}
    (hconfig : Rules.getEffectiveConfig db organizationId rule = .ok config)
    (h : Completes db organizationId done (rule :: todo)) :
    Completes db organizationId (done ++ [cachedRule rule config]) todo := by
  unfold Completes at *
  rw [← h]
  simp only [buildCachedRules, hconfig]
  cases buildCachedRules (Rules.getEffectiveConfig db organizationId) todo with
  | error e => rfl
  | ok rest => simp only [Except.map, List.append_assoc, List.singleton_append]

theorem stands_read {db : Database} {load load' : Load} (hload : load.Stands db)
    (h : load.read db = some (.ok load')) :
    load'.organizationId = load.organizationId ∧ load'.Stands db := by
  obtain ⟨organizationId, progress⟩ := load
  cases progress with
  | missed =>
      cases h
      refine ⟨rfl, ?_⟩
      simp only [Load.Stands, Completes, List.nil_append]
      unfold derivedRules
      cases buildCachedRules (Rules.getEffectiveConfig db organizationId)
        (findEnabledByPriority db organizationId) <;> rfl
  | configuring done todo =>
      cases todo with
      | nil => cases h
      | cons rule todo =>
          simp only [Load.Stands] at hload
          cases htemplate : rule.idTemplate with
          | none =>
              have hconfig : Rules.getEffectiveConfig db organizationId rule = .ok rule.config := by
                simp only [Rules.getEffectiveConfig, htemplate]
              simp only [Load.read, htemplate, Option.some.injEq, Except.ok.injEq] at h
              subst h
              exact ⟨rfl, completes_cons hconfig hload⟩
          | some idTemplate =>
              by_cases hempty : idTemplate = ""
              · have hconfig : Rules.getEffectiveConfig db organizationId rule =
                    .ok rule.config := by
                  simp only [Rules.getEffectiveConfig, htemplate, hempty, if_true]
                simp only [Load.read, htemplate, hempty, if_true, Option.some.injEq,
                  Except.ok.injEq] at h
                subst h
                exact ⟨rfl, completes_cons hconfig hload⟩
              · simp only [Load.read, htemplate, hempty, if_false, Option.some.injEq] at h
                cases hfind : findTemplate db idTemplate with
                | error e => simp [hfind, Except.map] at h
                | ok template =>
                    simp only [hfind, Except.map, Except.ok.injEq] at h
                    subst h
                    exact ⟨rfl, htemplate, hempty, hfind, hload⟩
  | merging done rule idTemplate template todo =>
      obtain ⟨htemplate, hempty, hfind, hcompletes⟩ := hload
      have hconfig : Rules.getEffectiveConfig db organizationId rule =
          .ok (deepMerge (mergedConfig template (findByTemplate db organizationId idTemplate))
            rule.config) := by
        simp only [Rules.getEffectiveConfig, htemplate, hempty, if_false, getMergedConfig_eq, hfind]
        rfl
      simp only [Load.read, Option.some.injEq, Except.ok.injEq] at h
      subst h
      exact ⟨rfl, completes_cons hconfig hcompletes⟩

theorem derivedRules_of_stands {db : Database} {load : Load} {rules : List CachedRule}
    (hload : load.Stands db) (h : load.result = some rules) :
    derivedRules db load.organizationId = .ok rules := by
  obtain ⟨organizationId, progress⟩ := load
  cases progress with
  | missed => cases h
  | merging => cases h
  | configuring done todo =>
      cases todo with
      | cons rule todo => cases h
      | nil =>
          cases h
          simpa only [Load.Stands, Completes, buildCachedRules, Except.map, List.append_nil]
            using hload.symm

theorem stands_congr {a b : Database} {load : Load}
    (h : SameConfig (pgUuid load.organizationId) a b) (hload : load.Stands a) :
    load.Stands b := by
  obtain ⟨organizationId, progress⟩ := load
  cases progress with
  | missed => trivial
  | configuring done todo =>
      simpa only [Load.Stands, Completes, getEffectiveConfig_congr h, derivedRules_congr h]
        using hload
  | merging done rule idTemplate template todo =>
      simpa only [Load.Stands, Completes, getEffectiveConfig_congr h, derivedRules_congr h,
        findTemplate_congr h] using hload

/-- Organizations are canonical uuids, and no write commits while a load of its
    organization is in flight. -/
def Undisturbed (s : System) : Label → Prop
  | .get organizationId => pgUuid organizationId = organizationId
  | .ruleWrite organizationId _ => pgUuid organizationId = organizationId ∧
      ∀ load ∈ s.loads, load.organizationId ≠ organizationId
  | _ => True

instance (s : System) : (label : Label) → Decidable (Undisturbed s label)
  | .get organizationId => inferInstanceAs (Decidable (pgUuid organizationId = organizationId))
  | .read _ => isTrue trivial
  | .readFails _ => isTrue trivial
  | .setex _ => isTrue trivial
  | .ruleWrite organizationId _ => inferInstanceAs (Decidable
      (pgUuid organizationId = organizationId ∧
        ∀ load ∈ s.loads, load.organizationId ≠ organizationId))
  | .plainWrite .. => isTrue trivial
  | .invalidate _ => isTrue trivial
  | .tick _ => isTrue trivial

/-- What undisturbed steps maintain. -/
structure Standing (s : System) : Prop where
  stands : ∀ load ∈ s.loads, load.Stands s.db
  loads : ∀ load ∈ s.loads, pgUuid load.organizationId = load.organizationId
  entries : ∀ organizationId, s.cache (getCacheKey organizationId) ≠ none →
    pgUuid organizationId = organizationId

/-- Loads that were in flight before, or that stand themselves, stand together. -/
theorem Standing.withLoads {s : System} (hs : Standing s) {loads : List Load}
    (h : ∀ load ∈ loads, load ∈ s.loads ∨
      load.Stands s.db ∧ pgUuid load.organizationId = load.organizationId) :
    Standing { s with loads } where
  stands load hload := (h load hload).elim (hs.stands load) And.left
  loads load hload := (h load hload).elim (hs.loads load) And.right
  entries := hs.entries

theorem Standing.drop {s : System} (hs : Standing s) (index : Nat) :
    Standing { s with loads := s.loads.eraseIdx index } :=
  hs.withLoads fun _ hload => Or.inl (List.mem_of_mem_eraseIdx hload)

/-- A write keeps the loads standing whose organization it leaves as it was. -/
theorem Standing.written {s t : System} (hs : Standing s) (hloads : t.loads = s.loads)
    (hcache : t.cache = s.cache)
    (h : ∀ load ∈ s.loads, SameConfig (pgUuid load.organizationId) s.db t.db) : Standing t := by
  refine ⟨?_, hloads ▸ hs.loads, hcache ▸ hs.entries⟩
  intro load hload
  rw [hloads] at hload
  exact stands_congr (h load hload) (hs.stands load hload)

theorem standing_step {d : Deployment} {s t : System} {label : Label} (hs : Standing s)
    (hlabel : Undisturbed s label) (h : exec d s label = some t) : Standing t := by
  cases exec_move h with
  | hit => exact hs
  | missed organizationId =>
      refine hs.withLoads fun load hload => ?_
      rcases List.mem_append.mp hload with hold | hnew
      · exact Or.inl hold
      · cases List.mem_singleton.mp hnew
        exact Or.inr ⟨trivial, hlabel⟩
  | queried index load load' hload hread =>
      have hmem := List.mem_of_getElem? hload
      obtain ⟨horg, hstands⟩ := stands_read (hs.stands load hmem) hread
      refine hs.withLoads fun other hother => ?_
      rcases List.mem_or_eq_of_mem_set hother with hold | rfl
      · exact Or.inl hold
      · exact Or.inr ⟨hstands, by rw [horg, hs.loads load hmem]⟩
  | threw index load e => exact hs.drop index
  | failed index load => exact hs.drop index
  | stored index load rules hload hresult =>
      obtain ⟨hstands, hloads, hentries⟩ := hs.drop index
      refine ⟨hstands, hloads, ?_⟩
      intro organizationId hentry
      by_cases horg : organizationId = load.organizationId
      · exact horg ▸ hs.loads load (List.mem_of_getElem? hload)
      · apply hentries
        simpa only [System.setex, RedisCache.setex_of_ne _ _ horg] using hentry
  | committed organizationId write db hrun =>
      obtain ⟨horg, hother⟩ := hlabel
      refine hs.written rfl rfl fun load hload => ?_
      have hne : pgUuid organizationId ≠ pgUuid load.organizationId := by
        rw [horg, hs.loads load hload]
        exact (hother load hload).symm
      exact ((RuleWrite.commit hrun).frame hne).toSameConfig.symm
  | rejected => exact hs
  | plainCommitted organizationId write db hrun =>
      exact hs.written rfl rfl fun load _ =>
        (PlainWrite.sameConfig hrun (pgUuid load.organizationId)).symm
  | plainRejected => exact hs
  | invalidated invalidation =>
      refine ⟨hs.stands, hs.loads, ?_⟩
      intro organizationId hentry
      apply hs.entries
      intro hnone
      apply hentry
      simp only [System.invalidate]
      split
      · simp [RedisCache.del, hnone]
      · exact hnone
  | ticked => exact ⟨hs.stands, hs.loads, hs.entries⟩

theorem leavesSettled_of_standing {s : System} (hs : Standing s) {label : Label}
    (hlabel : Undisturbed s label) : LeavesSettled s label := by
  cases label with
  | setex index =>
      intro load hload rules hresult
      exact Or.inl (derivedRules_of_stands (hs.stands load (List.mem_of_getElem? hload)) hresult)
  | ruleWrite organizationId write =>
      intro db _ other hne huuid hentry _
      rw [hs.entries other hentry, hlabel.1] at huuid
      exact absurd huuid hne
  | _ => trivial

/-- A run in which no write commits while a load of its organization is in
    flight meets the exact condition. -/
theorem leavesSettled_of_undisturbed (d : Deployment) (db : Database) (now : Int)
    {labels : List Label} (h : EveryStep (exec d) Undisturbed (System.start db now) labels) :
    EveryStep (exec d) LeavesSettled (System.start db now) labels := by
  refine everyStep_of_invariant (I := Standing) ?_ ?_ ?_ h
  · intro s label t hs hlabel hexec
    exact standing_step hs hlabel hexec
  · intro s label hs hlabel
    exact leavesSettled_of_standing hs hlabel
  · refine ⟨?_, ?_, ?_⟩
    · intro load hload
      exact absurd hload List.not_mem_nil
    · intro load hload
      exact absurd hload List.not_mem_nil
    · intro organizationId hentry
      exact absurd rfl hentry

/-! ### Sample runs -/

/-- All steps of one invalidation in a deployment of one instance. -/
def wholeInvalidation (organizationId : String) : List Label :=
  [.invalidate ⟨organizationId, .emitted⟩, .invalidate ⟨organizationId, .deleted⟩,
    .invalidate ⟨organizationId, .published 0⟩, .invalidate ⟨organizationId, .received 0⟩]

/-- A rule with a configuration of its own. -/
def ownRule : CreateRuleDto where
  idTemplate := .absent
  name := "amount"
  enabled := .absent
  priority := .absent
  config := .value [("timeWindow", .str "1h")]

/-- A rule is created, then loaded and stored in the cache. -/
def loadAfterWrite : List Label :=
  [.ruleWrite "org" (.createRule ownRule "r" 0)] ++ wholeInvalidation "org" ++
    [.get "org", .read 0, .read 0, .setex 0]

theorem coherent_at_rest_sample :
    EveryState (exec ⟨0, 300000⟩) (fun s => s.AtRest → Coherent s.toState)
      (System.start Database.empty 0) loadAfterWrite :=
  coherent_at_rest _ _ _ (leavesSettled_of_undisturbed _ _ _ (by decide +kernel))

/-- The rule is removed after a load has read it, and the invalidation is over
    before the load stores what it has read. -/
def writeDuringLoad : List Label :=
  [.ruleWrite "org" (.createRule ownRule "r" 0)] ++ wholeInvalidation "org" ++
    [.get "org", .read 0, .read 0, .ruleWrite "org" (.removeRule "r")] ++
    wholeInvalidation "org" ++ [.setex 0]

/-- Nothing is in flight and the cache holds the removed rule. -/
theorem stale_load_stored :
    ∃ s, runFrom (exec ⟨0, 300000⟩) (System.start Database.empty 0) writeDuringLoad = some s ∧
      s.AtRest ∧ ∃ cached, s.cache.get (getCacheKey "org") s.clock = some cached ∧
        derivedRules s.db "org" ≠ .ok cached.rules := by
  have hfinal : (runFrom (exec ⟨0, 300000⟩) (System.start Database.empty 0) writeDuringLoad).map
      (fun s => (s.loads.length, s.invalidations.length,
        (s.cache.get (getCacheKey "org") s.clock).map fun cached => cached.rules.length,
        (derivedRules s.db "org").map List.length)) = some (0, 0, some 1, .ok 0) := by
    decide +kernel
  obtain ⟨s, hrun, hvalues⟩ := Option.map_eq_some_iff.mp hfinal
  simp only [Prod.mk.injEq] at hvalues
  obtain ⟨hloads, hinvalidations, hentry, hderived⟩ := hvalues
  obtain ⟨cached, hcached, hlength⟩ := Option.map_eq_some_iff.mp hentry
  refine ⟨s, hrun, ⟨List.eq_nil_of_length_eq_zero hloads,
    List.eq_nil_of_length_eq_zero hinvalidations⟩, cached, hcached, ?_⟩
  intro heq
  rw [heq] at hderived
  simp only [Except.map, Except.ok.injEq, hlength] at hderived
  exact absurd hderived (by decide)

end RulesEngine.Interleaving

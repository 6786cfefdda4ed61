import RulesEngine.CacheCoherence
import RulesEngine.Foundations.PairedLists

/-!
# How stale a cached list can be

Here nothing is promised to work: the `GET` of an evaluation may fail, a `DEL`,
a `PUBLISH` or a message may be lost, and templates, whose writes announce
nothing, change too.  What is left is the TTL.  A list taken from the cache was
stored by a `SETEX` less than a TTL ago, and everything in it was read between
the `GET` that began the load and that `SETEX` (`cached_rules_bounded`).

The load an access belongs to has no name in the system, so the runs of this
module record, beside each load in flight, the instant it began at; the record
changes no run (`forget_execTraced`).
-/

namespace RulesEngine.Interleaving

open RulesEngine.Foundations
open RulesEngine.Rules
open RulesEngine.Engine

/-! ### Accesses that may fail -/

/-- The accesses of the interleaved system, and those it leaves out. -/
inductive Access where
  | step (label : Label)
  /-- The `GET` of an evaluation fails, which counts as a miss. -/
  | getFails (organizationId : String)
  | templateWrite (write : TemplateWrite)
  /-- The next step of an invalidation fails, and with it the rest. -/
  | lose (invalidation : Invalidation)

def execAccess (d : Deployment) (s : System) : Access → Option System
  | .step label => exec d s label
  | .getFails organizationId => some { s with loads := s.loads ++ [⟨organizationId, .missed⟩] }
  | .templateWrite write =>
      match write.run s.db with
      | .ok db => some { s with db }
      | .error _ => some s
  | .lose invalidation =>
      if invalidation ∈ s.invalidations then
        some { s with invalidations := s.invalidations.erase invalidation }
      else none

/-! ### Recording when a load began -/

/-- The system, the number of accesses so far, and the instants at which the
    loads in flight began, in the order of the loads. -/
structure Traced extends System where
  instant : Nat
  starts : List Nat

def Traced.start (db : Database) (now : Int) : Traced :=
  { System.start db now with instant := 0, starts := [] }

/-- The instants after an access that takes `s` to `t`. -/
def startsAfter (s t : System) (instant : Nat) (starts : List Nat) : Access → List Nat
  | .step (.get _) => if s.loads.length < t.loads.length then starts ++ [instant] else starts
  | .getFails _ => starts ++ [instant]
  | .step (.read index) => if t.loads.length < s.loads.length then starts.eraseIdx index else starts
  | .step (.readFails index) => starts.eraseIdx index
  | .step (.setex index) => starts.eraseIdx index
  | _ => starts

def execTraced (d : Deployment) (s : Traced) (access : Access) : Option Traced :=
  (execAccess d s.toSystem access).map fun t =>
    { t with
      instant := s.instant + 1
      starts := startsAfter s.toSystem t s.instant s.starts access }

theorem forget_execTraced (d : Deployment) (s : Traced) (access : Access) :
    (execTraced d s access).map Traced.toSystem = execAccess d s.toSystem access := by
  unfold execTraced
  cases execAccess d s.toSystem access <;> rfl

/-! ### Timelines -/

/-- What a run says about its instants: the database at an instant, and the
    loads that begin with the access at an instant. -/
structure Timeline where
  database : Nat → Database → Prop
  begins : Nat → String → Prop

/-- One timeline goes on where another ends. -/
structure Timeline.Extends (later earlier : Timeline) : Prop where
  database : ∀ k db, earlier.database k db → later.database k db
  begins : ∀ k organizationId, earlier.begins k organizationId → later.begins k organizationId

section Reading

variable (line : Timeline) (first last : Nat) (organizationId : String)

/-- The cached rule is the rule with a configuration whose parts were read
    between two instants. -/
def ConfiguredWithin (rule : Rule) (cached : CachedRule) : Prop :=
  ∃ config, cached = cachedRule rule config ∧
    ((config = rule.config ∧ ∀ idTemplate ∈ rule.idTemplate, idTemplate = "") ∨
      ∃ idTemplate template k l a b, rule.idTemplate = some idTemplate ∧ idTemplate ≠ "" ∧
        first ≤ k ∧ k ≤ l ∧ l ≤ last ∧ line.database k a ∧ line.database l b ∧
        findTemplate a idTemplate = .ok template ∧
        config = deepMerge (mergedConfig template (findByTemplate b organizationId idTemplate))
          rule.config)

/-- The list is the enabled set of one instant between the two, each rule of it
    configured between them. -/
def ReadWithin (rules : List CachedRule) : Prop :=
  ∃ k db, first ≤ k ∧ k ≤ last ∧ line.database k db ∧
    List.Forall₂ (ConfiguredWithin line first last organizationId)
      (findEnabledByPriority db organizationId) rules

/-- What a load in flight has read between the two instants. -/
def LoadedWithin : Progress → Prop
  | .missed => True
  | .configuring done todo =>
      ∃ k db configured, first ≤ k ∧ k ≤ last ∧ line.database k db ∧
        findEnabledByPriority db organizationId = configured ++ todo ∧
        List.Forall₂ (ConfiguredWithin line first last organizationId) configured done
  | .merging done rule idTemplate template todo =>
      rule.idTemplate = some idTemplate ∧ idTemplate ≠ "" ∧
        (∃ k db, first ≤ k ∧ k ≤ last ∧ line.database k db ∧
          findTemplate db idTemplate = .ok template) ∧
        ∃ k db configured, first ≤ k ∧ k ≤ last ∧ line.database k db ∧
          findEnabledByPriority db organizationId = configured ++ rule :: todo ∧
          List.Forall₂ (ConfiguredWithin line first last organizationId) configured done

end Reading

section Timelines

variable {line later : Timeline} {first last last' : Nat} {organizationId : String}

theorem ConfiguredWithin.mono (hline : later.Extends line) (hlast : last ≤ last')
    {rule : Rule} {cached : CachedRule}
    (h : ConfiguredWithin line first last organizationId rule cached) :
    ConfiguredWithin later first last' organizationId rule cached := by
  rcases h with ⟨config, rfl, hown | ⟨idTemplate, template, k, l, a, b, hid, hne, hk, hkl, hl, ha,
    hb, hfound, hconfig⟩⟩
  · exact ⟨config, rfl, Or.inl hown⟩
  · refine ⟨config, rfl, Or.inr ⟨idTemplate, template, k, l, a, b, hid, hne, hk, hkl, ?_, ?_, ?_,
      hfound, hconfig⟩⟩
    · exact Nat.le_trans hl hlast
    · exact hline.database k a ha
    · exact hline.database l b hb

theorem configuredWithin_mono (hline : later.Extends line) (hlast : last ≤ last')
    {rules : List Rule} {cached : List CachedRule}
    (h : List.Forall₂ (ConfiguredWithin line first last organizationId) rules cached) :
    List.Forall₂ (ConfiguredWithin later first last' organizationId) rules cached :=
  h.imp fun _ _ => ConfiguredWithin.mono hline hlast

theorem LoadedWithin.mono (hline : later.Extends line) (hlast : last ≤ last')
    {progress : Progress} (h : LoadedWithin line first last organizationId progress) :
    LoadedWithin later first last' organizationId progress := by
  cases progress with
  | missed => trivial
  | configuring done todo =>
      obtain ⟨k, db, configured, hfirst, hk, hdb, hrules, hdone⟩ := h
      exact ⟨k, db, configured, hfirst, Nat.le_trans hk hlast, hline.database k db hdb, hrules,
        configuredWithin_mono hline hlast hdone⟩
  | merging done rule idTemplate template todo =>
      obtain ⟨hid, hne, ⟨l, a, hfirst', hl, ha, hfound⟩, k, db, configured, hfirst, hk, hdb, hrules,
        hdone⟩ := h
      refine ⟨hid, hne, ⟨l, a, hfirst', Nat.le_trans hl hlast, hline.database l a ha, hfound⟩, ?_⟩
      exact ⟨k, db, configured, hfirst, Nat.le_trans hk hlast, hline.database k db hdb, hrules,
        configuredWithin_mono hline hlast hdone⟩

/-- One more configured rule. -/
theorem loadedWithin_configured {rule : Rule} {todo : List Rule} {done : List CachedRule}
    {cached : CachedRule} (hrule : ConfiguredWithin line first last organizationId rule cached)
    (h : ∃ k db configured, first ≤ k ∧ k ≤ last ∧ line.database k db ∧
      findEnabledByPriority db organizationId = configured ++ rule :: todo ∧
      List.Forall₂ (ConfiguredWithin line first last organizationId) configured done) :
    LoadedWithin line first last organizationId (.configuring (done ++ [cached]) todo) := by
  obtain ⟨k, db, configured, hfirst, hk, hdb, hrules, hdone⟩ := h
  refine ⟨k, db, configured ++ [rule], hfirst, hk, hdb, ?_, ?_⟩
  · rw [hrules, List.append_assoc, List.singleton_append]
  · exact List.rel_append hdone (List.Forall₂.cons hrule List.Forall₂.nil)

/-- A query at the last instant extends what the load has read. -/
theorem loadedWithin_read {db : Database} (hdb : line.database last db) (hfirst : first ≤ last)
    {load load' : Load} (h : LoadedWithin line first last load.organizationId load.progress)
    (hread : load.read db = some (.ok load')) :
    load'.organizationId = load.organizationId ∧
      LoadedWithin line first last load.organizationId load'.progress := by
  obtain ⟨organizationId, progress⟩ := load
  cases progress with
  | missed =>
      cases hread
      exact ⟨rfl, last, db, [], hfirst, Nat.le_refl _, hdb, rfl, List.Forall₂.nil⟩
  | configuring done todo =>
      cases todo with
      | nil => cases hread
      | cons rule todo =>
          cases htemplate : rule.idTemplate with
          | none =>
              simp only [Load.read, htemplate, Option.some.injEq, Except.ok.injEq] at hread
              subst hread
              refine ⟨rfl, loadedWithin_configured ⟨rule.config, rfl, Or.inl ⟨rfl, ?_⟩⟩ h⟩
              simp [htemplate]
          | some idTemplate =>
              by_cases hempty : idTemplate = ""
              · simp only [Load.read, htemplate, hempty, if_true, Option.some.injEq,
                  Except.ok.injEq] at hread
                subst hread
                refine ⟨rfl, loadedWithin_configured ⟨rule.config, rfl, Or.inl ⟨rfl, ?_⟩⟩ h⟩
                simp [htemplate, hempty]
              · simp only [Load.read, htemplate, hempty, if_false, Option.some.injEq] at hread
                cases hfind : findTemplate db idTemplate with
                | error e => simp [hfind, Except.map] at hread
                | ok template =>
                    simp only [hfind, Except.map, Except.ok.injEq] at hread
                    subst hread
                    exact ⟨rfl, htemplate, hempty,
                      ⟨last, db, hfirst, Nat.le_refl _, hdb, hfind⟩, h⟩
  | merging done rule idTemplate template todo =>
      obtain ⟨hid, hne, ⟨k, a, hk, hlast, ha, hfound⟩, hrules⟩ := h
      simp only [Load.read, Option.some.injEq, Except.ok.injEq] at hread
      subst hread
      refine ⟨rfl, loadedWithin_configured ⟨_, rfl, Or.inr ?_⟩ hrules⟩
      exact ⟨idTemplate, template, k, last, a, db, hid, hne, hk, hlast, Nat.le_refl _, ha, hdb,
        hfound, rfl⟩

theorem readWithin_of_result {load : Load} {rules : List CachedRule}
    (h : LoadedWithin line first last load.organizationId load.progress)
    (hresult : load.result = some rules) :
    ReadWithin line first last load.organizationId rules := by
  obtain ⟨organizationId, progress⟩ := load
  cases progress with
  | missed => cases hresult
  | merging => cases hresult
  | configuring done todo =>
      cases todo with
      | cons rule todo => cases hresult
      | nil =>
          cases hresult
          obtain ⟨k, db, configured, hfirst, hk, hdb, hrules, hdone⟩ := h
          refine ⟨k, db, hfirst, hk, hdb, ?_⟩
          rw [hrules, List.append_nil]
          exact hdone

theorem getEffectiveConfig_of_configuredWithin {current : Database} {rule : Rule}
    {cached : CachedRule}
    (hquiet : ∀ k db, first ≤ k → k ≤ last → line.database k db →
      SameConfig (pgUuid organizationId) db current)
    (h : ConfiguredWithin line first last organizationId rule cached) :
    ∃ config, Rules.getEffectiveConfig current organizationId rule = .ok config ∧
      cached = cachedRule rule config := by
  rcases h with ⟨config, rfl, ⟨rfl, hown⟩ | ⟨idTemplate, template, k, l, a, b, hid, hne, hk, hkl,
    hl, ha, hb, hfound, rfl⟩⟩
  · refine ⟨rule.config, ?_, rfl⟩
    unfold Rules.getEffectiveConfig
    cases htemplate : rule.idTemplate with
    | none => rfl
    | some idTemplate => simp [hown idTemplate htemplate]
  · refine ⟨_, ?_, rfl⟩
    have hsameA := hquiet k a hk (Nat.le_trans hkl hl) ha
    have hsameB := hquiet l b (Nat.le_trans hk hkl) hl hb
    rw [findTemplate_congr hsameA] at hfound
    simp only [Rules.getEffectiveConfig, hid, hne, if_false, getMergedConfig_eq, hfound,
      findByTemplate_congr hsameB]
    rfl

/-- When the configuration of the organization did not change between the two
    instants, the list is the one its database derives. -/
theorem derivedRules_of_readWithin {current : Database} {rules : List CachedRule}
    (hquiet : ∀ k db, first ≤ k → k ≤ last → line.database k db →
      SameConfig (pgUuid organizationId) db current)
    (h : ReadWithin line first last organizationId rules) :
    derivedRules current organizationId = .ok rules := by
  obtain ⟨k, db, hk, hlast, hdb, hrules⟩ := h
  rw [findEnabledByPriority_congr (hquiet k db hk hlast hdb)] at hrules
  unfold derivedRules
  generalize findEnabledByPriority current organizationId = enabled at hrules
  induction hrules with
  | nil => rfl
  | cons hrule _ ih =>
      obtain ⟨config, hconfig, rfl⟩ := getEffectiveConfig_of_configuredWithin hquiet hrule
      exact buildCachedRules_cons_ok.mpr ⟨config, _, hconfig, ih, rfl⟩

end Timelines

/-! ### The timeline of a run -/

section Runs

variable (d : Deployment) (s₀ : Traced)

/-- A load begins with a `GET` of its organization. -/
def timelineOf (labels : List Access) : Timeline where
  database := fun k db => ∃ s, ReachesAt (execTraced d) s₀ labels k s ∧ s.db = db
  begins := fun k organizationId =>
    labels[k]? = some (.step (.get organizationId)) ∨ labels[k]? = some (.getFails organizationId)

/-- The list was put into the cache by a `SETEX` in state `u`, at the end of a
    load that began at `start`, and was read while that load was in flight. -/
structure StoredBy (labels : List Access) (organizationId : String) (cached : CachedRules)
    (start stored : Nat) (u : Traced) : Prop where
  reached : ReachesAt (execTraced d) s₀ labels stored u
  setex : ∃ index load, labels[stored]? = some (.step (.setex index)) ∧
    u.loads[index]? = some load ∧ u.starts[index]? = some start ∧
    load.organizationId = organizationId ∧ load.result = some cached.rules
  cachedAt : cached.cachedAt = u.clock
  before : start < stored
  begins : (timelineOf d s₀ labels).begins start organizationId
  read : ReadWithin (timelineOf d s₀ labels) start stored organizationId cached.rules

/-- The load has read what it has read since it began. -/
def LoadingSince (labels : List Access) (load : Load) (start : Nat) : Prop :=
  start < labels.length ∧ (timelineOf d s₀ labels).begins start load.organizationId ∧
    LoadedWithin (timelineOf d s₀ labels) start labels.length load.organizationId load.progress

/-- The entry was stored, at the end of such a load, and expires a TTL later. -/
def StoredSince (labels : List Access) (clock : Int) (organizationId : String)
    (entry : CacheEntry) : Prop :=
  ∃ start stored u, StoredBy d s₀ labels organizationId entry.value start stored u ∧
    u.clock ≤ clock ∧ entry.expiresAt = u.clock + d.ruleCacheTtlMs

/-- What every run maintains. -/
structure Tracked (labels : List Access) (s : Traced) : Prop where
  instant : s.instant = labels.length
  loads : List.Forall₂ (LoadingSince d s₀ labels) s.loads s.starts
  entries : ∀ organizationId entry, s.cache (getCacheKey organizationId) = some entry →
    StoredSince d s₀ labels s.clock organizationId entry

variable {d : Deployment} {s₀ : Traced}

theorem getElem?_concat {labels : List Access} {access found : Access} {k : Nat}
    (h : labels[k]? = some found) : (labels ++ [access])[k]? = some found := by
  rw [List.getElem?_append_left (List.getElem?_eq_some_iff.mp h).1]
  exact h

theorem extends_concat (labels : List Access) (access : Access) :
    (timelineOf d s₀ (labels ++ [access])).Extends (timelineOf d s₀ labels) where
  database := by
    rintro k db ⟨s, hreached, hdb⟩
    exact ⟨s, hreached.append [access], hdb⟩
  begins := by
    rintro k organizationId (hget | hfails)
    · exact Or.inl (getElem?_concat hget)
    · exact Or.inr (getElem?_concat hfails)

theorem ReadWithin.mono {line later : Timeline} {first last : Nat} {organizationId : String}
    {rules : List CachedRule} (hline : later.Extends line)
    (h : ReadWithin line first last organizationId rules) :
    ReadWithin later first last organizationId rules := by
  obtain ⟨k, db, hfirst, hlast, hdb, hrules⟩ := h
  exact ⟨k, db, hfirst, hlast, hline.database k db hdb,
    configuredWithin_mono hline (Nat.le_refl _) hrules⟩

theorem StoredBy.concat {labels : List Access} {organizationId : String} {cached : CachedRules}
    {start stored : Nat} {u : Traced}
    (h : StoredBy d s₀ labels organizationId cached start stored u) (access : Access) :
    StoredBy d s₀ (labels ++ [access]) organizationId cached start stored u where
  reached := h.reached.append [access]
  setex := by
    obtain ⟨index, load, hlabel, hrest⟩ := h.setex
    exact ⟨index, load, getElem?_concat hlabel, hrest⟩
  cachedAt := h.cachedAt
  before := h.before
  begins := (extends_concat labels access).begins _ _ h.begins
  read := h.read.mono (extends_concat labels access)

theorem LoadingSince.concat {labels : List Access} {load : Load} {start : Nat}
    (h : LoadingSince d s₀ labels load start) (access : Access) :
    LoadingSince d s₀ (labels ++ [access]) load start := by
  obtain ⟨hstart, hbegins, hloaded⟩ := h
  have hline : (timelineOf d s₀ (labels ++ [access])).Extends (timelineOf d s₀ labels) :=
    extends_concat labels access
  have hlength : labels.length ≤ (labels ++ [access]).length := by simp
  exact ⟨Nat.lt_of_lt_of_le hstart hlength, hline.begins _ _ hbegins, hloaded.mono hline hlength⟩

theorem StoredSince.concat {labels : List Access} {clock clock' : Int} {organizationId : String}
    {entry : CacheEntry} (h : StoredSince d s₀ labels clock organizationId entry)
    (hclock : clock ≤ clock') (access : Access) :
    StoredSince d s₀ (labels ++ [access]) clock' organizationId entry := by
  obtain ⟨start, stored, u, hstored, hle, hexpires⟩ := h
  exact ⟨start, stored, u, hstored.concat access, Int.le_trans hle hclock, hexpires⟩

/-- A load that begins with the last access. -/
theorem loadingSince_missed {labels : List Access} {access : Access} {organizationId : String}
    (h : access = .step (.get organizationId) ∨ access = .getFails organizationId) :
    LoadingSince d s₀ (labels ++ [access]) ⟨organizationId, .missed⟩ labels.length := by
  refine ⟨by simp, ?_, trivial⟩
  rcases h with rfl | rfl
  · exact Or.inl List.getElem?_concat_length
  · exact Or.inr List.getElem?_concat_length

/-- The next query of a load in flight. -/
theorem LoadingSince.read {labels : List Access} {s : Traced} {load load' : Load} {start : Nat}
    (h : LoadingSince d s₀ labels load start) (hrun : runFrom (execTraced d) s₀ labels = some s)
    (hread : load.read s.db = some (.ok load')) : LoadingSince d s₀ labels load' start := by
  obtain ⟨hstart, hbegins, hloaded⟩ := h
  have hdb : (timelineOf d s₀ labels).database labels.length s.db :=
    ⟨s, reachesAt_last hrun, rfl⟩
  obtain ⟨horg, hloaded'⟩ := loadedWithin_read hdb (Nat.le_of_lt hstart) hloaded hread
  refine ⟨hstart, ?_, ?_⟩
  · rw [horg]
    exact hbegins
  · rw [horg]
    exact hloaded'

/-- A `SETEX` stores what its load has read. -/
theorem storedSince_setex {labels : List Access} {s : Traced} {index : Nat} {load : Load}
    {start : Nat} {rules : List CachedRule}
    (hrun : runFrom (execTraced d) s₀ labels = some s) (hload : s.loads[index]? = some load)
    (hstart : s.starts[index]? = some start) (h : LoadingSince d s₀ labels load start)
    (hresult : load.result = some rules) :
    StoredSince d s₀ (labels ++ [.step (.setex index)]) s.clock load.organizationId
      { value := { rules, cachedAt := s.clock }, expiresAt := s.clock + d.ruleCacheTtlMs } := by
  obtain ⟨hbefore, hbegins, hloaded⟩ := h
  have hline : (timelineOf d s₀ (labels ++ [.step (.setex index)])).Extends
      (timelineOf d s₀ labels) := extends_concat labels _
  refine ⟨start, labels.length, s, ?_, Int.le_refl _, rfl⟩
  exact
    { reached := (reachesAt_last hrun).append _
      setex := ⟨index, load, List.getElem?_concat_length, hload, hstart, rfl, hresult⟩
      cachedAt := rfl
      before := hbefore
      begins := hline.begins _ _ hbegins
      read := (readWithin_of_result hloaded hresult).mono hline }

/-! ### Every step -/

/-- What an access does to the loads, the entries and the clock decides whether
    the record is kept. -/
theorem Tracked.next {labels : List Access} {s t : Traced} {access : Access}
    (hs : Tracked d s₀ labels s) (h : execTraced d s access = some t)
    (hloads : List.Forall₂ (LoadingSince d s₀ (labels ++ [access])) t.loads t.starts)
    (hclock : s.clock ≤ t.clock)
    (hentries : ∀ organizationId entry, t.cache (getCacheKey organizationId) = some entry →
      s.cache (getCacheKey organizationId) = some entry ∨
        StoredSince d s₀ (labels ++ [access]) t.clock organizationId entry) :
    Tracked d s₀ (labels ++ [access]) t where
  instant := by
    obtain ⟨system, -, rfl⟩ := Option.map_eq_some_iff.mp h
    simp [hs.instant]
  loads := hloads
  entries := by
    intro organizationId entry hentry
    rcases hentries organizationId entry hentry with hold | hnew
    · exact (hs.entries organizationId entry hold).concat hclock access
    · exact hnew

/-- An access that leaves the loads alone and at most deletes entries. -/
theorem Tracked.idle {labels : List Access} {s : Traced} {t : System} {access : Access}
    (hs : Tracked d s₀ labels s) (h : execAccess d s.toSystem access = some t)
    (hloads : t.loads = s.loads)
    (hstarts : startsAfter s.toSystem t s.instant s.starts access = s.starts)
    (hclock : s.clock ≤ t.clock)
    (hcache : ∀ organizationId entry, t.cache (getCacheKey organizationId) = some entry →
      s.cache (getCacheKey organizationId) = some entry) :
    Tracked d s₀ (labels ++ [access])
      { t with
        instant := s.instant + 1
        starts := startsAfter s.toSystem t s.instant s.starts access } := by
  refine hs.next ?_ ?_ hclock fun organizationId entry h => Or.inl (hcache organizationId entry h)
  · simp only [execTraced, h, Option.map_some]
  · simp only [hstarts, hloads]
    exact hs.loads.imp fun _ _ hload => hload.concat access

/-- An access that begins a load. -/
theorem Tracked.begin {labels : List Access} {s : Traced} {access : Access}
    {organizationId : String} (hs : Tracked d s₀ labels s)
    (hbegin : access = .step (.get organizationId) ∨ access = .getFails organizationId)
    (h : execAccess d s.toSystem access =
      some { s.toSystem with loads := s.loads ++ [⟨organizationId, .missed⟩] }) :
    ∀ t, execTraced d s access = some t → Tracked d s₀ (labels ++ [access]) t := by
  intro t ht
  have hloads : List.Forall₂ (LoadingSince d s₀ (labels ++ [access]))
      (s.loads ++ [⟨organizationId, .missed⟩]) (s.starts ++ [s.instant]) := by
    refine List.rel_append (hs.loads.imp fun _ _ hload => hload.concat access) ?_
    rw [hs.instant]
    exact List.Forall₂.cons (loadingSince_missed hbegin) List.Forall₂.nil
  refine hs.next ht ?_ ?_ ?_
  all_goals
    simp only [execTraced, h, Option.map_some, Option.some.injEq] at ht
    subst ht
  · rcases hbegin with rfl | rfl
    · simpa [startsAfter] using hloads
    · exact hloads
  · exact Int.le_refl _
  · intro other entry hentry
    exact Or.inl hentry

/-- An access that ends a load without storing anything. -/
theorem Tracked.drop {labels : List Access} {s : Traced} {access : Access}
    (hs : Tracked d s₀ labels s) (index : Nat)
    (h : execAccess d s.toSystem access =
      some { s.toSystem with loads := s.loads.eraseIdx index })
    (hstarts : startsAfter s.toSystem { s.toSystem with loads := s.loads.eraseIdx index } s.instant
      s.starts access = s.starts.eraseIdx index) :
    ∀ t, execTraced d s access = some t → Tracked d s₀ (labels ++ [access]) t := by
  intro t ht
  refine hs.next ht ?_ ?_ ?_
  all_goals
    simp only [execTraced, h, Option.map_some, Option.some.injEq, hstarts] at ht
    subst ht
  · exact (forall₂_eraseIdx hs.loads index).imp fun _ _ hload => hload.concat access
  · exact Int.le_refl _
  · intro other entry hentry
    exact Or.inl hentry

/-- A load that makes its next query. -/
theorem Tracked.advance {labels : List Access} {s t : Traced} {index : Nat} {load load' : Load}
    (hrun : runFrom (execTraced d) s₀ labels = some s) (hs : Tracked d s₀ labels s)
    (hload : s.loads[index]? = some load) (hread : load.read s.db = some (.ok load'))
    (hexec : execAccess d s.toSystem (.step (.read index)) =
      some { s.toSystem with loads := s.loads.set index load' })
    (h : execTraced d s (.step (.read index)) = some t) :
    Tracked d s₀ (labels ++ [.step (.read index)]) t := by
  have hloads : List.Forall₂ (LoadingSince d s₀ (labels ++ [.step (.read index)]))
      (s.loads.set index load') s.starts := by
    refine (forall₂_set_left hs.loads ?_).imp fun _ _ hload => hload.concat _
    intro start hstart
    obtain ⟨start', hstart', hsince⟩ := forall₂_getElem? hs.loads hload
    rw [hstart] at hstart'
    cases hstart'
    exact hsince.read hrun hread
  refine hs.next h ?_ ?_ ?_
  all_goals
    simp only [execTraced, hexec, Option.map_some, Option.some.injEq] at h
    subst h
  · simpa [startsAfter] using hloads
  · exact Int.le_refl _
  · intro other entry hentry
    exact Or.inl hentry

/-- A load that stores what it has read. -/
theorem Tracked.store {labels : List Access} {s t : Traced} {index : Nat} {load : Load}
    {rules : List CachedRule} (hrun : runFrom (execTraced d) s₀ labels = some s)
    (hs : Tracked d s₀ labels s) (hload : s.loads[index]? = some load)
    (hresult : load.result = some rules)
    (hexec : execAccess d s.toSystem (.step (.setex index)) =
      some (s.toSystem.setex d index load.organizationId rules))
    (h : execTraced d s (.step (.setex index)) = some t) :
    Tracked d s₀ (labels ++ [.step (.setex index)]) t := by
  obtain ⟨start, hstart, hsince⟩ := forall₂_getElem? hs.loads hload
  have hstored := storedSince_setex hrun hload hstart hsince hresult
  refine hs.next h ?_ ?_ ?_
  all_goals
    simp only [execTraced, hexec, Option.map_some, Option.some.injEq] at h
    subst h
  · exact (forall₂_eraseIdx hs.loads index).imp fun _ _ hload => hload.concat _
  · exact Int.le_refl _
  · intro organizationId entry hentry
    by_cases horg : organizationId = load.organizationId
    · subst horg
      simp only [System.setex, RedisCache.setex_self, Option.some.injEq] at hentry
      exact Or.inr (hentry ▸ hstored)
    · simp only [System.setex, RedisCache.setex_of_ne _ _ horg] at hentry
      exact Or.inl hentry

theorem tracked_step {labels : List Access} {s t : Traced} {access : Access}
    (hrun : runFrom (execTraced d) s₀ labels = some s) (hs : Tracked d s₀ labels s)
    (h : execTraced d s access = some t) : Tracked d s₀ (labels ++ [access]) t := by
  obtain ⟨system, hexec, rfl⟩ := Option.map_eq_some_iff.mp h
  cases access with
  | getFails organizationId => exact hs.begin (Or.inr rfl) rfl _ h
  | templateWrite write =>
      have hsame := hexec
      simp only [execAccess] at hexec
      cases hwrite : write.run s.db with
      | ok db =>
          simp only [hwrite, Option.some.injEq] at hexec
          subst hexec
          exact hs.idle hsame rfl rfl (Int.le_refl _) fun _ _ hentry => hentry
      | error e =>
          simp only [hwrite, Option.some.injEq] at hexec
          subst hexec
          exact hs.idle hsame rfl rfl (Int.le_refl _) fun _ _ hentry => hentry
  | lose invalidation =>
      have hsame := hexec
      simp only [execAccess] at hexec
      split at hexec
      · cases hexec
        exact hs.idle hsame rfl rfl (Int.le_refl _) fun _ _ hentry => hentry
      · cases hexec
  | step label =>
      have hmove : Move d s.toSystem label system := exec_move hexec
      cases hmove with
      | hit organizationId cached hget =>
          exact hs.idle hexec rfl (by simp [startsAfter]) (Int.le_refl _) fun _ _ hentry => hentry
      | missed organizationId hget => exact hs.begin (Or.inl rfl) hexec _ h
      | queried index load load' hload hread => exact hs.advance hrun hload hread hexec h
      | threw index load e hload hread =>
          refine hs.drop index hexec ?_ _ h
          have hindex := (List.getElem?_eq_some_iff.mp hload).1
          simp only [startsAfter, List.length_eraseIdx_of_lt hindex]
          rw [if_pos (by omega)]
      | failed index load hload => exact hs.drop index hexec rfl _ h
      | stored index load rules hload hresult => exact hs.store hrun hload hresult hexec h
      | committed organizationId write db hwrite =>
          exact hs.idle hexec rfl rfl (Int.le_refl _) fun _ _ hentry => hentry
      | rejected organizationId write e hwrite =>
          exact hs.idle hexec rfl rfl (Int.le_refl _) fun _ _ hentry => hentry
      | plainCommitted organizationId write db hwrite =>
          exact hs.idle hexec rfl rfl (Int.le_refl _) fun _ _ hentry => hentry
      | plainRejected organizationId write =>
          exact hs.idle hexec rfl rfl (Int.le_refl _) fun _ _ hentry => hentry
      | invalidated invalidation hmem =>
          refine hs.idle hexec rfl rfl (Int.le_refl _) ?_
          intro organizationId entry hentry
          simp only [System.invalidate] at hentry
          split at hentry
          · simp only [RedisCache.del] at hentry
            split at hentry
            · cases hentry
            · exact hentry
          · exact hentry
      | ticked ms =>
          refine hs.idle hexec rfl rfl ?_ fun _ _ hentry => hentry
          exact Int.le_add_of_nonneg_right (Int.natCast_nonneg ms)

/-- The record is kept in every run. -/
theorem tracked (db : Database) (now : Int) {labels : List Access} {s : Traced}
    (hrun : runFrom (execTraced d) (Traced.start db now) labels = some s) :
    Tracked d (Traced.start db now) labels s := by
  refine runFrom_history (H := Tracked d (Traced.start db now)) ?_ ?_ hrun
  · refine ⟨rfl, List.Forall₂.nil, ?_⟩
    intro organizationId entry hentry
    cases hentry
  · intro labels access s t hrun hs h
    exact tracked_step hrun hs h

end Runs

/-! ### The bound -/

/-- **The TTL bounds staleness.**  When an evaluation takes its list from the
    cache, the list was stored by a `SETEX` for the organization less than a TTL
    ago, and its enabled set and the parts of its configurations were read from
    the database at instants between the `GET` that began that load and the
    `SETEX`.  So whatever was committed when the load began is in the list: it
    is the list of that database unless the organization's configuration changed
    while the load was in flight. -/
theorem cached_rules_bounded (d : Deployment) (db : Database) (now : Int) {labels : List Access}
    {s : System} (hrun : runFrom (execAccess d) (System.start db now) labels = some s)
    {organizationId : String} {cached : CachedRules}
    (hhit : s.cache.get (getCacheKey organizationId) s.clock = some cached) :
    ∃ start stored u,
      StoredBy d (Traced.start db now) labels organizationId cached start stored u ∧
      u.clock ≤ s.clock ∧ s.clock < u.clock + d.ruleCacheTtlMs ∧
      ∀ current, (∀ k other, start ≤ k → k ≤ stored →
        (timelineOf d (Traced.start db now) labels).database k other →
          SameConfig (pgUuid organizationId) other current) →
        derivedRules current organizationId = .ok cached.rules := by
  have hforget := runFrom_forget (forget_execTraced d) (Traced.start db now) labels
  have hplain : runFrom (execAccess d) (Traced.start db now).toSystem labels = some s := hrun
  rw [hplain] at hforget
  obtain ⟨t, ht, rfl⟩ := Option.map_eq_some_iff.mp hforget
  simp only [RedisCache.get] at hhit
  split at hhit
  · rename_i entry hentry
    split at hhit
    · rename_i hlive
      cases hhit
      obtain ⟨start, stored, u, hstored, hclock, hexpires⟩ :=
        (tracked db now ht).entries organizationId entry hentry
      rw [hexpires] at hlive
      exact ⟨start, stored, u, hstored, hclock, hlive,
        fun current hquiet => derivedRules_of_readWithin hquiet hstored.read⟩
    · cases hhit
  · cases hhit

/-! ### A sample run -/

/-- A rule is loaded and stored, then removed; the invalidation is lost, so the
    rule is still found in the cache. -/
def lostInvalidation : List Access :=
  [.step (.ruleWrite "org" (.createRule ownRule "r" 0)), .lose ⟨"org", .emitted⟩,
    .step (.get "org"), .step (.read 0), .step (.read 0), .step (.setex 0), .step (.tick 299999),
    .step (.ruleWrite "org" (.removeRule "r")), .lose ⟨"org", .emitted⟩]

theorem cached_rules_bounded_sample :
    ∃ s cached, runFrom (execAccess ⟨0, 300000⟩) (System.start Database.empty 0) lostInvalidation =
        some s ∧ s.cache.get (getCacheKey "org") s.clock = some cached ∧
      ∃ start stored u,
        StoredBy ⟨0, 300000⟩ (Traced.start Database.empty 0) lostInvalidation "org" cached start
          stored u ∧
        u.clock ≤ s.clock ∧ s.clock < u.clock + 300000 := by
  have hfinal : (runFrom (execAccess ⟨0, 300000⟩) (System.start Database.empty 0)
      lostInvalidation).map
      (fun s => (s.cache.get (getCacheKey "org") s.clock).map fun cached => cached.rules.length) =
        some (some 1) := by
    decide +kernel
  obtain ⟨s, hrun, hentry⟩ := Option.map_eq_some_iff.mp hfinal
  obtain ⟨cached, hcached, -⟩ := Option.map_eq_some_iff.mp hentry
  obtain ⟨start, stored, u, hstored, hle, hlt, -⟩ := cached_rules_bounded _ _ _ hrun hcached
  exact ⟨s, cached, hrun, hcached, start, stored, u, hstored, hle, hlt⟩

end RulesEngine.Interleaving

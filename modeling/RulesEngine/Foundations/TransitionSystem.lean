import Mathlib.Data.List.Basic
import Mathlib.Data.List.Induction

/-!
# Runs of a labelled transition system

The systems of this development are deterministic once every choice a step
makes (which task moves, which row a query returns, what the clock reads) is
part of the label.  A system is therefore a function
`exec : σ → ℓ → Option σ`, where `none` says that the label is not enabled, and
a run is a list of labels.

Six rules carry all the run theorems: an invariant that every step preserves
holds after every run (`runFrom_invariant`), what an invariant kept by the steps
meeting a side condition implies of such a step holds of every step of a run
whose steps all meet it (`everyStep_of_invariant`), the side condition is exact
when a step breaking it leaves the invariant (`everyState_iff_everyStep`), a run
of a system projects to runs of its components (`runFrom_project`), a collection
that follows a log has the members the log leaves (`members_iff_standing`), and
operations that a relation on states hides can be left out without changing the
results of the others (`visibleOutputs_purge`).
-/

namespace RulesEngine.Foundations

universe u v w

variable {σ : Type u} {ℓ : Type v}

/-- Execute the labels from left to right; a label that is not enabled blocks
    the run. -/
def runFrom (exec : σ → ℓ → Option σ) : σ → List ℓ → Option σ
  | s, [] => some s
  | s, l :: ls => (exec s l).bind fun t => runFrom exec t ls

/-- Every label of the run meets `cond` in the state it is executed in. -/
def EveryStep (exec : σ → ℓ → Option σ) (cond : σ → ℓ → Prop) : σ → List ℓ → Prop
  | _, [] => True
  | s, l :: ls => cond s l ∧ ∀ t, exec s l = some t → EveryStep exec cond t ls

/-- Every state the run goes through, the first and the last included,
    satisfies `P`. -/
def EveryState (exec : σ → ℓ → Option σ) (P : σ → Prop) : σ → List ℓ → Prop
  | s, [] => P s
  | s, l :: ls => P s ∧ ∀ t, exec s l = some t → EveryState exec P t ls

instance EveryStep.instDecidable (exec : σ → ℓ → Option σ) (cond : σ → ℓ → Prop)
    [∀ s l, Decidable (cond s l)] : (s : σ) → (ls : List ℓ) → Decidable (EveryStep exec cond s ls)
  | _, [] => isTrue trivial
  | s, l :: ls =>
      have := fun t => EveryStep.instDecidable exec cond t ls
      inferInstanceAs (Decidable (cond s l ∧ ∀ t ∈ exec s l, EveryStep exec cond t ls))

section Runs

variable {exec : σ → ℓ → Option σ} {cond : σ → ℓ → Prop} {P I : σ → Prop}

@[simp] theorem runFrom_nil (s : σ) : runFrom exec s [] = some s := rfl

theorem runFrom_cons_eq_some {s t : σ} {l : ℓ} {ls : List ℓ} :
    runFrom exec s (l :: ls) = some t ↔
      ∃ m, exec s l = some m ∧ runFrom exec m ls = some t := by
  simp only [runFrom, Option.bind_eq_some_iff]

theorem runFrom_invariant (hstep : ∀ s l t, I s → exec s l = some t → I t)
    {s t : σ} {ls : List ℓ} (hs : I s) (hrun : runFrom exec s ls = some t) : I t := by
  induction ls generalizing s with
  | nil =>
      simp only [runFrom_nil, Option.some.injEq] at hrun
      exact hrun ▸ hs
  | cons l ls ih =>
      obtain ⟨m, hm, hrest⟩ := runFrom_cons_eq_some.mp hrun
      exact ih (hstep s l m hs hm) hrest

/-- The same for the runs whose steps all meet a guard. -/
theorem runFrom_guarded_invariant (hstep : ∀ s l t, I s → cond s l → exec s l = some t → I t)
    {s t : σ} {ls : List ℓ} (hs : I s) (hguard : EveryStep exec cond s ls)
    (hrun : runFrom exec s ls = some t) : I t := by
  induction ls generalizing s with
  | nil =>
      simp only [runFrom_nil, Option.some.injEq] at hrun
      exact hrun ▸ hs
  | cons l ls ih =>
      obtain ⟨m, hm, hrest⟩ := runFrom_cons_eq_some.mp hrun
      exact ih (hstep s l m hs hguard.1 hm) (hguard.2 m hm) hrest

/-- **Two-state invariants.**  A reflexive and transitive relation that every step
    respects holds between the first state of a run and the last. -/
theorem runFrom_relation {R : σ → σ → Prop} (hrefl : ∀ s, R s s)
    (htrans : ∀ a b c, R a b → R b c → R a c)
    (hstep : ∀ s l t, I s → exec s l = some t → I t ∧ R s t)
    {s t : σ} {ls : List ℓ} (hs : I s) (hrun : runFrom exec s ls = some t) : R s t := by
  induction ls generalizing s with
  | nil =>
      simp only [runFrom_nil, Option.some.injEq] at hrun
      exact hrun ▸ hrefl s
  | cons l ls ih =>
      obtain ⟨m, hm, hrest⟩ := runFrom_cons_eq_some.mp hrun
      obtain ⟨hI, hR⟩ := hstep s l m hs hm
      exact htrans s m t hR (ih hI hrest)

theorem runFrom_append {s : σ} {ls ms : List ℓ} :
    runFrom exec s (ls ++ ms) = (runFrom exec s ls).bind fun t => runFrom exec t ms := by
  induction ls generalizing s with
  | nil => rfl
  | cons l ls ih => cases hl : exec s l <;> simp [runFrom, hl, ih]

/-- Steps that are always possible make runs that are. -/
theorem exists_runFrom (htotal : ∀ s l, ∃ t, exec s l = some t) (s : σ) (ls : List ℓ) :
    ∃ t, runFrom exec s ls = some t := by
  induction ls generalizing s with
  | nil => exact ⟨s, rfl⟩
  | cons l ls ih =>
      obtain ⟨m, hm⟩ := htotal s l
      obtain ⟨t, ht⟩ := ih m
      exact ⟨t, runFrom_cons_eq_some.mpr ⟨m, hm, ht⟩⟩

theorem EveryState.head {s : σ} {ls : List ℓ} (h : EveryState exec P s ls) : P s := by
  cases ls with
  | nil => exact h
  | cons l ls => exact h.1

/-- **The guarded step rule.**  What a guarded invariant implies of the steps
    meeting the guard holds of every step of a guarded run. -/
theorem everyStep_of_invariant {goal : σ → ℓ → Prop}
    (hstep : ∀ s l t, I s → cond s l → exec s l = some t → I t)
    (hgoal : ∀ s l, I s → cond s l → goal s l)
    {s : σ} {ls : List ℓ} (hs : I s) (h : EveryStep exec cond s ls) :
    EveryStep exec goal s ls := by
  induction ls generalizing s with
  | nil => trivial
  | cons l ls ih =>
      exact ⟨hgoal s l hs h.1, fun t ht => ih (hstep s l t hs h.1 ht) (h.2 t ht)⟩

theorem EveryState.mono {Q : σ → Prop} (himp : ∀ s, P s → Q s) {s : σ} {ls : List ℓ}
    (h : EveryState exec P s ls) : EveryState exec Q s ls := by
  induction ls generalizing s with
  | nil => exact himp s h
  | cons l ls ih => exact ⟨himp s h.1, fun t ht => ih (h.2 t ht)⟩

theorem EveryStep.mono {cond' : σ → ℓ → Prop} (himp : ∀ s l, cond s l → cond' s l)
    {s : σ} {ls : List ℓ} (h : EveryStep exec cond s ls) : EveryStep exec cond' s ls := by
  induction ls generalizing s with
  | nil => trivial
  | cons l ls ih => exact ⟨himp s l h.1, fun t ht => ih (h.2 t ht)⟩

theorem EveryStep.and {cond' : σ → ℓ → Prop} {s : σ} {ls : List ℓ} (h : EveryStep exec cond s ls)
    (h' : EveryStep exec cond' s ls) : EveryStep exec (fun s l => cond s l ∧ cond' s l) s ls := by
  induction ls generalizing s with
  | nil => trivial
  | cons l ls ih => exact ⟨⟨h.1, h'.1⟩, fun t ht => ih (h.2 t ht) (h'.2 t ht)⟩

theorem everyStep_of_mem {good : ℓ → Prop} {s : σ} {ls : List ℓ} (h : ∀ l ∈ ls, good l) :
    EveryStep exec (fun _ l => good l) s ls := by
  induction ls generalizing s with
  | nil => trivial
  | cons l ls ih =>
      exact ⟨h l List.mem_cons_self, fun t _ => ih fun m hm => h m (List.mem_cons_of_mem _ hm)⟩

/-- **The exact side condition.**  Let `J` be an invariant of the whole system.
    When, among the enabled steps from a state satisfying `P`, exactly those
    meeting `cond` lead to a state satisfying `P`, every state of a run
    satisfies `P` exactly when every step of it meets `cond`. -/
theorem everyState_iff_everyStep {J : σ → Prop}
    (hinv : ∀ s l t, J s → exec s l = some t → J t)
    (hblocked : ∀ s l, exec s l = none → cond s l)
    (hexact : ∀ s l t, J s → P s → exec s l = some t → (P t ↔ cond s l))
    {s : σ} {ls : List ℓ} (hJ : J s) (hs : P s) :
    EveryState exec P s ls ↔ EveryStep exec cond s ls := by
  induction ls generalizing s with
  | nil => exact ⟨fun _ => trivial, fun _ => hs⟩
  | cons l ls ih =>
      constructor
      · intro h
        cases hl : exec s l with
        | none => exact ⟨hblocked s l hl, fun t ht => by simp [hl] at ht⟩
        | some t =>
            have hrest := h.2 t hl
            have ht : P t := hrest.head
            refine ⟨(hexact s l t hJ hs hl).mp ht, ?_⟩
            intro t' ht'
            have heq : t = t' := Option.some.inj (hl.symm.trans ht')
            subst heq
            exact (ih (hinv s l t hJ hl) ht).mp hrest
      · intro h
        refine ⟨hs, fun t ht => ?_⟩
        have hPt : P t := (hexact s l t hJ hs ht).mpr h.1
        exact (ih (hinv s l t hJ ht) hPt).mpr (h.2 t ht)

end Runs

/-! ### Instants of a run

The `k`-th instant of a run is the moment before its `k`-th label.  A statement
about the past of a state names the instants it speaks about, and stays true as
the run goes on. -/

section Instants

variable {exec : σ → ℓ → Option σ}

/-- The run is in state `t` at the `k`-th instant. -/
def ReachesAt (exec : σ → ℓ → Option σ) (s : σ) (ls : List ℓ) (k : Nat) (t : σ) : Prop :=
  k ≤ ls.length ∧ runFrom exec s (ls.take k) = some t

theorem ReachesAt.append {s t : σ} {ls : List ℓ} {k : Nat} (h : ReachesAt exec s ls k t)
    (ms : List ℓ) : ReachesAt exec s (ls ++ ms) k t := by
  refine ⟨?_, ?_⟩
  · rw [List.length_append]
    exact Nat.le_add_right_of_le h.1
  · rw [List.take_append_of_le_length h.1]
    exact h.2

theorem reachesAt_last {s t : σ} {ls : List ℓ} (h : runFrom exec s ls = some t) :
    ReachesAt exec s ls ls.length t := by
  refine ⟨Nat.le_refl _, ?_⟩
  rw [List.take_length]
  exact h

/-- **The history rule.**  What holds of the empty history, and of every history
    extended by one executed label, holds of the history of every run. -/
theorem runFrom_history {H : List ℓ → σ → Prop} {s : σ} (hstart : H [] s)
    (hstep : ∀ ls l t t', runFrom exec s ls = some t → H ls t → exec t l = some t' →
      H (ls ++ [l]) t')
    {ls : List ℓ} {t : σ} (hrun : runFrom exec s ls = some t) : H ls t := by
  induction ls using List.reverseRecOn generalizing t with
  | nil =>
      simp only [runFrom_nil, Option.some.injEq] at hrun
      exact hrun ▸ hstart
  | append_singleton ls l ih =>
      rw [runFrom_append] at hrun
      obtain ⟨m, hm, hlast⟩ := Option.bind_eq_some_iff.mp hrun
      obtain ⟨t', ht', hnil⟩ := runFrom_cons_eq_some.mp hlast
      simp only [runFrom_nil, Option.some.injEq] at hnil
      exact hstep ls l m t hm (ih hm) (hnil ▸ ht')

/-- Recording what a run does changes no run. -/
theorem runFrom_forget {τ : Type w} {record : τ → ℓ → Option τ} {forget : τ → σ}
    (hforget : ∀ a l, (record a l).map forget = exec (forget a) l) (a : τ) (ls : List ℓ) :
    (runFrom record a ls).map forget = runFrom exec (forget a) ls := by
  induction ls generalizing a with
  | nil => rfl
  | cons l ls ih =>
      simp only [runFrom, ← hforget a l]
      cases record a l with
      | none => rfl
      | some b => exact ih b

theorem EveryStep.forget {τ : Type w} {record : τ → ℓ → Option τ} {forget : τ → σ}
    {cond : σ → ℓ → Prop} (hforget : ∀ a l, (record a l).map forget = exec (forget a) l) {a : τ}
    {ls : List ℓ} (h : EveryStep record (fun a l => cond (forget a) l) a ls) :
    EveryStep exec cond (forget a) ls := by
  induction ls generalizing a with
  | nil => trivial
  | cons l ls ih =>
      refine ⟨h.1, fun t ht => ?_⟩
      rw [← hforget a l] at ht
      obtain ⟨b, hb, rfl⟩ := Option.map_eq_some_iff.mp ht
      exact ih (h.2 b hb)

end Instants

/-! ### Projections

A component of a system may make several steps, or none, for one of the whole. -/

section Projections

variable {κ : Type v} {τ : Type w} {exec : σ → ℓ → Option σ} {part : τ → κ → Option τ}
  {trace : σ → ℓ → List κ} {view : σ → τ}

/-- The labels a component executes in a run of the whole. -/
def traceOf (exec : σ → ℓ → Option σ) (trace : σ → ℓ → List κ) : σ → List ℓ → List κ
  | _, [] => []
  | s, l :: ls => trace s l ++ ((exec s l).elim [] fun t => traceOf exec trace t ls)

theorem traceOf_cons {s t : σ} {l : ℓ} (h : exec s l = some t) (ls : List ℓ) :
    traceOf exec trace s (l :: ls) = trace s l ++ traceOf exec trace t ls := by
  rw [traceOf, h, Option.elim_some]

theorem traceOf_append {s t : σ} {ls : List ℓ} (h : runFrom exec s ls = some t) (ms : List ℓ) :
    traceOf exec trace s (ls ++ ms) = traceOf exec trace s ls ++ traceOf exec trace t ms := by
  induction ls generalizing s with
  | nil =>
      obtain rfl := Option.some.inj h
      rfl
  | cons l ls ih =>
      obtain ⟨m, hm, hrest⟩ := runFrom_cons_eq_some.mp h
      rw [List.cons_append, traceOf_cons hm, traceOf_cons hm, ih hrest, List.append_assoc]

theorem traceOf_append_singleton {s t t' : σ} {ls : List ℓ} {l : ℓ}
    (h : runFrom exec s ls = some t) (hl : exec t l = some t') :
    traceOf exec trace s (ls ++ [l]) = traceOf exec trace s ls ++ trace t l := by
  rw [traceOf_append h, traceOf_cons hl, traceOf, List.append_nil]

/-- **Projection.**  When each step of the whole is a run of the component, so is
    each run of the whole. -/
theorem runFrom_project
    (hstep : ∀ s l t, exec s l = some t → runFrom part (view s) (trace s l) = some (view t))
    {s t : σ} {ls : List ℓ} (hrun : runFrom exec s ls = some t) :
    runFrom part (view s) (traceOf exec trace s ls) = some (view t) := by
  induction ls generalizing s with
  | nil => exact congrArg (some ∘ view) (Option.some.inj hrun)
  | cons l ls ih =>
      obtain ⟨m, hm, hrest⟩ := runFrom_cons_eq_some.mp hrun
      rw [traceOf_cons hm, runFrom_append, hstep s l m hm, Option.bind_some]
      exact ih hrest

theorem EveryStep.append {cond : σ → ℓ → Prop} {s t : σ} {ls ms : List ℓ}
    (h : EveryStep exec cond s ls) (hrun : runFrom exec s ls = some t)
    (hrest : EveryStep exec cond t ms) : EveryStep exec cond s (ls ++ ms) := by
  induction ls generalizing s with
  | nil => exact Option.some.inj hrun ▸ hrest
  | cons l ls ih =>
      obtain ⟨m, hm, htail⟩ := runFrom_cons_eq_some.mp hrun
      refine ⟨h.1, fun m' hm' => ?_⟩
      obtain rfl := Option.some.inj (hm.symm.trans hm')
      exact ih (h.2 m hm) htail

/-- The steps of the component meet what the guarded steps of the whole, in a state
    with an invariant, make them meet. -/
theorem EveryStep.project {I : σ → Prop} {cond : σ → ℓ → Prop} {goal : τ → κ → Prop}
    (hstep : ∀ s l t, exec s l = some t → runFrom part (view s) (trace s l) = some (view t))
    (hinv : ∀ s l t, I s → cond s l → exec s l = some t → I t)
    (hgoal : ∀ s l t, I s → cond s l → exec s l = some t → EveryStep part goal (view s) (trace s l))
    {s t : σ} {ls : List ℓ} (hs : I s) (h : EveryStep exec cond s ls)
    (hrun : runFrom exec s ls = some t) :
    EveryStep part goal (view s) (traceOf exec trace s ls) := by
  induction ls generalizing s with
  | nil => trivial
  | cons l ls ih =>
      obtain ⟨m, hm, hrest⟩ := runFrom_cons_eq_some.mp hrun
      rw [traceOf_cons hm]
      exact (hgoal s l m hs h.1 hm).append (hstep s l m hm)
        (ih (hinv s l m hs h.1 hm) (h.2 m hm) hrest)

end Projections

/-! ### Ledgers

A collection whose members come and go with the entries that steps add to a
log. -/

section Ledgers

variable {κ : Type v} {α : Type w} (creates removes : κ → α → Prop)

/-- The members a log leaves of an initial collection: those no entry removes, and
    those an entry creates and no later one removes. -/
def Standing (initial : α → Prop) (log : List κ) (a : α) : Prop :=
  (initial a ∧ ∀ entry ∈ log, ¬ removes entry a) ∨
    ∃ before entry after, log = before ++ entry :: after ∧ creates entry a ∧
      ∀ later ∈ after, ¬ removes later a

variable {creates removes} {initial : α → Prop}

theorem standing_nil {a : α} : Standing creates removes initial [] a ↔ initial a := by
  constructor
  · rintro (⟨h, -⟩ | ⟨before, entry, after, hlog, -⟩)
    · exact h
    · exact absurd hlog (List.append_ne_nil_of_right_ne_nil before (List.cons_ne_nil _ _)).symm
  · intro h
    exact Or.inl ⟨h, fun _ hentry => absurd hentry List.not_mem_nil⟩

/-- The last entry creates a member or removes none that stood. -/
theorem standing_append_singleton {log : List κ} {entry : κ} {a : α} :
    Standing creates removes initial (log ++ [entry]) a ↔
      creates entry a ∨ Standing creates removes initial log a ∧ ¬ removes entry a := by
  constructor
  · rintro (⟨h, hkept⟩ | ⟨before, other, after, hlog, hcreates, hkept⟩)
    · obtain ⟨hlog, hlast⟩ := List.forall_mem_append.mp hkept
      exact Or.inr ⟨Or.inl ⟨h, hlog⟩, hlast entry List.mem_cons_self⟩
    · rcases List.eq_nil_or_concat after with rfl | ⟨init, last, rfl⟩
      · obtain ⟨-, hlast⟩ := List.append_inj' hlog rfl
        obtain rfl := List.head_eq_of_cons_eq hlast
        exact Or.inl hcreates
      · rw [List.concat_eq_append, ← List.cons_append, ← List.append_assoc] at hlog
        obtain ⟨rfl, hlast⟩ := List.append_inj' hlog rfl
        obtain rfl := List.head_eq_of_cons_eq hlast
        rw [List.concat_eq_append] at hkept
        obtain ⟨hinit, hentry⟩ := List.forall_mem_append.mp hkept
        exact Or.inr ⟨Or.inr ⟨before, other, init, rfl, hcreates, hinit⟩,
          hentry entry List.mem_cons_self⟩
  · rintro (hcreates | ⟨⟨h, hkept⟩ | ⟨before, other, after, rfl, hcreates, hkept⟩, hentry⟩)
    · exact Or.inr ⟨log, entry, [], rfl, hcreates, fun _ hlater => absurd hlater List.not_mem_nil⟩
    · refine Or.inl ⟨h, List.forall_mem_append.mpr ⟨hkept, ?_⟩⟩
      exact fun other hother => List.mem_singleton.mp hother ▸ hentry
    · refine Or.inr ⟨before, other, after ++ [entry], by simp, hcreates, ?_⟩
      refine List.forall_mem_append.mpr ⟨hkept, ?_⟩
      exact fun later hlater => List.mem_singleton.mp hlater ▸ hentry

variable {exec : σ → ℓ → Option σ} {trace : σ → ℓ → List κ}

/-- **The ledger rule.**  When each step leaves the collection alone or adds one entry
    to the log and does to the collection what the entry says, every run leaves the
    members its log leaves. -/
theorem members_iff_standing (members : σ → α → Prop)
    (hstep : ∀ s l t, exec s l = some t →
      (trace s l = [] ∧ ∀ a, members t a ↔ members s a) ∨
        ∃ entry, trace s l = [entry] ∧
          ∀ a, members t a ↔ creates entry a ∨ members s a ∧ ¬ removes entry a)
    {s t : σ} {ls : List ℓ} (hrun : runFrom exec s ls = some t) (a : α) :
    members t a ↔ Standing creates removes (members s) (traceOf exec trace s ls) a := by
  refine runFrom_history
    (H := fun ls t => ∀ a, members t a ↔
      Standing creates removes (members s) (traceOf exec trace s ls) a)
    (fun a => standing_nil.symm) ?_ hrun a
  intro ls l m t hm ih hl
  rw [traceOf_append_singleton hm hl]
  rcases hstep m l t hl with ⟨hnil, hsame⟩ | ⟨entry, hone, hmembers⟩
  · intro a
    rw [hnil, List.append_nil, hsame a]
    exact ih a
  · intro a
    rw [hone, standing_append_singleton, hmembers a, ih a]

end Ledgers

/-! ### Purging the invisible operations

The two-run theorem behind noninterference: a relation that visible operations
carry along in lock step, and that an invisible operation on the left keeps
while the right side stands still, makes the outputs of the visible operations
independent of the invisible ones. -/

section Purge

variable {ο : Type w}

/-- The outputs a sequence of operations produces for the operations in
    `visible`, in order. -/
def visibleOutputs (step : σ → ℓ → σ × ο) (visible : ℓ → Bool) : σ → List ℓ → List ο
  | _, [] => []
  | s, l :: ls =>
      let (t, out) := step s l
      if visible l then out :: visibleOutputs step visible t ls
      else visibleOutputs step visible t ls

variable {step : σ → ℓ → σ × ο} {visible : ℓ → Bool} {R : List ℓ → σ → σ → Prop}

/-- **Unwinding.**  `R ls` relates the two sides while `ls` is still to be
    executed.  A visible operation gives the same output on related states and
    keeps them related; an invisible one keeps the left state related to the
    unchanged right state.  Then purging the invisible operations changes no
    visible output. -/
theorem visibleOutputs_purge
    (hvisible : ∀ l ls s t, visible l = true → R (l :: ls) s t →
      (step s l).2 = (step t l).2 ∧ R ls (step s l).1 (step t l).1)
    (hinvisible : ∀ l ls s t, visible l = false → R (l :: ls) s t → R ls (step s l).1 t)
    (ls : List ℓ) {s t : σ} (h : R ls s t) :
    visibleOutputs step visible s ls =
      visibleOutputs step visible t (ls.filter visible) := by
  induction ls generalizing s t with
  | nil => rfl
  | cons l ls ih =>
      cases hl : visible l with
      | true =>
          obtain ⟨hout, hrel⟩ := hvisible l ls s t hl h
          simp only [List.filter_cons, hl, if_true, visibleOutputs, hout, ih hrel]
      | false =>
          have hrel := hinvisible l ls s t hl h
          simp only [List.filter_cons, hl, visibleOutputs, Bool.false_eq_true, if_false,
            ih hrel]

end Purge

end RulesEngine.Foundations

import RulesEngine.Foundations.TransitionSystem

/-!
# Concurrent partial updates of one row

A partial update gives values to some columns of a row.  It is carried out in
two steps: it loads the row, and later it saves the loaded row with its columns
assigned.  Between the two any number of steps of other updates may fall, and a
save writes the columns it loaded along with the ones it was asked to change.

Columns that no completed update names keep their value whatever happens
(`intact_move`).  A named column keeps a value it was given exactly as long
as no save brings back an older one: `everyState_unclobbered_iff`.  A save may
bring back a column that its own update names, where the row it loaded decides.
-/

namespace RulesEngine.Foundations

universe u v w x

/-- Access to one row of a store.  A row that fits is the one the store returns
    after it has been stored. -/
structure RowAccess (σ : Type u) (ρ : Type v) where
  load : σ → Option ρ
  store : ρ → σ → σ
  Fits : ρ → Prop
  fits_of_load : ∀ s row, load s = some row → Fits row
  load_store : ∀ s row, Fits row → load (store row s) = some row

variable {σ : Type u} {ρ : Type v} {κ : Type w} {ν : κ → Type x}

/-- A partial update: the values it gives to columns, and what it makes of a
    loaded row, if the store accepts that.  Of the values it gives it assigns some
    to the row, and the other columns stay as they were loaded. -/
structure PartialUpdate (access : RowAccess σ ρ) (value : (c : κ) → ρ → ν c) where
  given : (c : κ) → Option (ν c)
  assigned : σ → ρ → (c : κ) → Option (ν c)
  assign : σ → ρ → Option ρ
  given_of_assigned : ∀ s row c v, assigned s row c = some v → given c = some v
  fits_assign : ∀ s row row', assign s row = some row' → access.Fits row → access.Fits row'
  value_assign : ∀ s row row', assign s row = some row' →
    ∀ c, value c row' = (assigned s row c).getD (value c row)

namespace PartialUpdate

/-- What an update does not name it does not assign. -/
theorem assigned_eq_none {access : RowAccess σ ρ} {value : (c : κ) → ρ → ν c}
    (update : PartialUpdate access value) (s : σ) (row : ρ) {c : κ} (h : update.given c = none) :
    update.assigned s row c = none := by
  cases hassigned : update.assigned s row c with
  | none => rfl
  | some v => cases (update.given_of_assigned s row c v hassigned).symm.trans h

/-- How far an update has come. -/
inductive Phase (ρ : Type v) where
  | waiting
  | loaded (row : ρ)
  | saved
  | rejected

/-- The store and the updates in progress. -/
structure Progress (σ : Type u) (ρ : Type v) where
  store : σ
  phases : List (Phase ρ)

/-- One access of the `index`-th update. -/
inductive Access where
  | find (index : Nat)
  | save (index : Nat)

/-- All updates before their first access. -/
def start (s : σ) (count : Nat) : Progress σ ρ := ⟨s, List.replicate count .waiting⟩

section System

variable {access : RowAccess σ ρ} {value : (c : κ) → ρ → ν c}
variable (updates : List (PartialUpdate access value))

def exec (p : Progress σ ρ) : Access → Option (Progress σ ρ)
  | .find index =>
      match p.phases[index]? with
      | some .waiting =>
          match access.load p.store with
          | some row => some { p with phases := p.phases.set index (.loaded row) }
          | none => some { p with phases := p.phases.set index .rejected }
      | _ => none
  | .save index =>
      match p.phases[index]?, updates[index]? with
      | some (.loaded row), some update =>
          match update.assign p.store row with
          | some row' => some ⟨access.store row' p.store, p.phases.set index .saved⟩
          | none => some { p with phases := p.phases.set index .rejected }
      | _, _ => none

/-- The `index`-th update has been saved. -/
def Saved (p : Progress σ ρ) (index : Nat) (update : PartialUpdate access value) : Prop :=
  p.phases[index]? = some .saved ∧ updates[index]? = some update

/-- Some saved update names the column. -/
def Named (p : Progress σ ρ) (c : κ) : Prop :=
  ∃ index update, Saved updates p index update ∧ update.given c ≠ none

/-- Some saved update gave the column the value. -/
def Given (p : Progress σ ρ) (c : κ) (v : ν c) : Prop :=
  ∃ index update, Saved updates p index update ∧ update.given c = some v

/-- **No update is clobbered.**  Of a row that was `before`: a column that saved
    updates name holds a value that one of them gave it, if only one names it
    its value, and every other column is unchanged. -/
structure Unclobbered (before : ρ) (p : Progress σ ρ) : Prop where
  named : ∀ row, access.load p.store = some row → ∀ c, Named updates p c →
    Given updates p c (value c row)
  sole : ∀ row, access.load p.store = some row → ∀ c index update v,
    Saved updates p index update → update.given c = some v →
    (∀ other update', Saved updates p other update' → update'.given c ≠ none → other = index) →
    value c row = v
  untouched : ∀ row, access.load p.store = some row → ∀ c, ¬ Named updates p c →
    value c row = value c before

/-- A save brings back no column: where the update assigns none but a saved one, or
    the update itself, names it, the row in memory has a value that one of them gave. -/
def KeepsGiven (p : Progress σ ρ) : Access → Prop
  | .find _ => True
  | .save index => ∀ row update row', p.phases[index]? = some (.loaded row) →
      updates[index]? = some update → update.assign p.store row = some row' →
      ∀ c, update.assigned p.store row c = none → Named updates p c ∨ update.given c ≠ none →
        Given updates p c (value c row) ∨ update.given c = some (value c row)

end System

/-! ### What a step does -/

section Steps

variable {access : RowAccess σ ρ} {value : (c : κ) → ρ → ν c}
variable {updates : List (PartialUpdate access value)} {p q : Progress σ ρ}

/-- Everything a step can do. -/
inductive Move (updates : List (PartialUpdate access value)) (p : Progress σ ρ) :
    Access → Progress σ ρ → Prop where
  | found (index : Nat) (row : ρ) : p.phases[index]? = some .waiting →
      access.load p.store = some row →
      Move updates p (.find index) { p with phases := p.phases.set index (.loaded row) }
  | missing (index : Nat) : p.phases[index]? = some .waiting → access.load p.store = none →
      Move updates p (.find index) { p with phases := p.phases.set index .rejected }
  | saved (index : Nat) (row row' : ρ) (update : PartialUpdate access value) :
      p.phases[index]? = some (.loaded row) → updates[index]? = some update →
      update.assign p.store row = some row' →
      Move updates p (.save index) ⟨access.store row' p.store, p.phases.set index .saved⟩
  | refused (index : Nat) (row : ρ) (update : PartialUpdate access value) :
      p.phases[index]? = some (.loaded row) → updates[index]? = some update →
      update.assign p.store row = none →
      Move updates p (.save index) { p with phases := p.phases.set index .rejected }

theorem exec_move {label : Access} (h : exec updates p label = some q) :
    Move updates p label q := by
  cases label with
  | find index =>
      simp only [exec] at h
      split at h
      · rename_i hphase
        split at h
        · rename_i row hload
          cases h
          exact Move.found index row hphase hload
        · rename_i hload
          cases h
          exact Move.missing index hphase hload
      · cases h
  | save index =>
      simp only [exec] at h
      split at h
      · rename_i row update hphase hupdate
        split at h
        · rename_i row' hassign
          cases h
          exact Move.saved index row row' update hphase hupdate hassign
        · rename_i hassign
          cases h
          exact Move.refused index row update hphase hupdate hassign
      · cases h

theorem getElem?_set_of_getElem? {phases : List (Phase ρ)} {index other : Nat}
    {old new : Phase ρ} (h : phases[index]? = some old) :
    (phases.set index new)[other]? = if index = other then some new else phases[other]? := by
  have hlt : index < phases.length := (List.getElem?_eq_some_iff.mp h).1
  by_cases heq : index = other
  · subst heq
    rw [List.getElem?_set_self hlt, if_pos rfl]
  · rw [List.getElem?_set_ne heq, if_neg heq]

/-- Run without interruption, an update stores what it makes of the row. -/
theorem exec_serial {update : PartialUpdate access value} {s : σ} {row row' : ρ}
    (hload : access.load s = some row) (hassign : update.assign s row = some row') :
    runFrom (exec [update]) (start s 1) [.find 0, .save 0] =
      some ⟨access.store row' s, [.saved]⟩ := by
  simp [runFrom, exec, start, hload, hassign]

/-- A step that saves nothing leaves the saved updates as they are. -/
theorem saved_set_iff {index other : Nat} {old new : Phase ρ} {update : PartialUpdate access value}
    (h : p.phases[index]? = some old) (hold : old ≠ .saved) (hnew : new ≠ .saved) :
    Saved updates { p with phases := p.phases.set index new } other update ↔
      Saved updates p other update := by
  simp only [Saved, getElem?_set_of_getElem? h]
  by_cases heq : index = other
  · subst heq
    simp [h, hold, hnew]
  · simp [heq]

/-- After a save, its update is saved besides those that were. -/
theorem saved_save_iff {index other : Nat} {row : ρ} {s : σ}
    {update update' : PartialUpdate access value}
    (h : p.phases[index]? = some (.loaded row)) (hupdate : updates[index]? = some update) :
    Saved updates ⟨s, p.phases.set index .saved⟩ other update' ↔
      Saved updates p other update' ∨ (other = index ∧ update' = update) := by
  simp only [Saved, getElem?_set_of_getElem? h]
  by_cases heq : index = other
  · subst heq
    simp [h, hupdate, eq_comm]
  · simp [heq, Ne.symm heq]

section Named

variable {index : Nat} {c : κ}

theorem named_set_iff {old new : Phase ρ} (h : p.phases[index]? = some old) (hold : old ≠ .saved)
    (hnew : new ≠ .saved) :
    Named updates { p with phases := p.phases.set index new } c ↔ Named updates p c := by
  simp only [Named, saved_set_iff h hold hnew]

theorem given_set_iff {old new : Phase ρ} (h : p.phases[index]? = some old) (hold : old ≠ .saved)
    (hnew : new ≠ .saved) {v : ν c} :
    Given updates { p with phases := p.phases.set index new } c v ↔ Given updates p c v := by
  simp only [Given, saved_set_iff h hold hnew]

variable {row : ρ} {s : σ} {update : PartialUpdate access value}

theorem named_save_iff (h : p.phases[index]? = some (.loaded row))
    (hupdate : updates[index]? = some update) :
    Named updates ⟨s, p.phases.set index .saved⟩ c ↔
      Named updates p c ∨ update.given c ≠ none := by
  simp only [Named, saved_save_iff h hupdate]
  constructor
  · rintro ⟨other, update', hsaved | ⟨rfl, rfl⟩, hnames⟩
    · exact Or.inl ⟨other, update', hsaved, hnames⟩
    · exact Or.inr hnames
  · rintro (⟨other, update', hsaved, hnames⟩ | hnames)
    · exact ⟨other, update', Or.inl hsaved, hnames⟩
    · exact ⟨index, update, Or.inr ⟨rfl, rfl⟩, hnames⟩

theorem given_save_iff (h : p.phases[index]? = some (.loaded row))
    (hupdate : updates[index]? = some update) {v : ν c} :
    Given updates ⟨s, p.phases.set index .saved⟩ c v ↔
      Given updates p c v ∨ update.given c = some v := by
  simp only [Given, saved_save_iff h hupdate]
  constructor
  · rintro ⟨other, update', hsaved | ⟨rfl, rfl⟩, hgives⟩
    · exact Or.inl ⟨other, update', hsaved, hgives⟩
    · exact Or.inr hgives
  · rintro (⟨other, update', hsaved, hgives⟩ | hgives)
    · exact ⟨other, update', Or.inl hsaved, hgives⟩
    · exact ⟨index, update, Or.inr ⟨rfl, rfl⟩, hgives⟩

end Named

end Steps

/-! ### Columns nobody names -/

section Runs

variable {access : RowAccess σ ρ} {value : (c : κ) → ρ → ν c}
variable {updates : List (PartialUpdate access value)} {before : ρ} {p q : Progress σ ρ}

/-- The row, in the store and in memory, still has its old value in every
    column that no saved update names. -/
structure Intact (updates : List (PartialUpdate access value)) (before : ρ)
    (p : Progress σ ρ) : Prop where
  stored : ∀ row, access.load p.store = some row → ∀ c, ¬ Named updates p c →
    value c row = value c before
  loaded : ∀ (index : Nat) row, p.phases[index]? = some (.loaded row) →
    access.Fits row ∧ ∀ c, ¬ Named updates p c → value c row = value c before

theorem intact_start {s : σ} (hload : access.load s = some before) (count : Nat) :
    Intact updates before (start s count) where
  stored := by
    intro row hrow c _
    rw [Option.some.inj (hload.symm.trans hrow)]
  loaded := by
    intro index row hphase
    have hmem := List.mem_of_getElem? hphase
    exact absurd (List.eq_of_mem_replicate hmem) (by simp)

/-- A step that saves nothing keeps the row intact. -/
theorem intact_set (h : Intact updates before p) {index : Nat} {old new : Phase ρ}
    (hphase : p.phases[index]? = some old) (hold : old ≠ .saved) (hnew : new ≠ .saved)
    (hload : ∀ row, new = .loaded row → access.load p.store = some row) :
    Intact updates before { p with phases := p.phases.set index new } where
  stored := by
    intro row hrow c hc
    rw [named_set_iff hphase hold hnew] at hc
    exact h.stored row hrow c hc
  loaded := by
    intro other row hother
    simp only [named_set_iff hphase hold hnew]
    rw [getElem?_set_of_getElem? hphase] at hother
    split at hother
    · have hrow := hload row (Option.some.inj hother)
      exact ⟨access.fits_of_load _ _ hrow, h.stored row hrow⟩
    · exact h.loaded other row hother

theorem intact_move (h : Intact updates before p) {label : Access}
    (hmove : Move updates p label q) : Intact updates before q := by
  cases hmove with
  | found index row hphase hload =>
      apply intact_set h hphase (by simp) (by simp)
      intro row' heq
      exact Phase.loaded.inj heq ▸ hload
  | missing index hphase hload =>
      exact intact_set h hphase (by simp) (by simp) (by simp)
  | refused index row update hphase hupdate hassign =>
      exact intact_set h hphase (by simp) (by simp) (by simp)
  | saved index row row' update hphase hupdate hassign =>
      obtain ⟨hfits, hvalues⟩ := h.loaded index row hphase
      have hstore := access.load_store p.store row' (update.fits_assign _ _ _ hassign hfits)
      constructor
      · intro stored hstored c hc
        cases Option.some.inj (hstore.symm.trans hstored)
        rw [named_save_iff hphase hupdate, not_or, not_not] at hc
        rw [update.value_assign _ _ _ hassign, update.assigned_eq_none _ _ hc.2, Option.getD_none]
        exact hvalues c hc.1
      · intro other later hother
        rw [getElem?_set_of_getElem? hphase] at hother
        split at hother
        · cases hother
        · obtain ⟨hlater, hsame⟩ := h.loaded other later hother
          refine ⟨hlater, fun c hc => hsame c ?_⟩
          rw [named_save_iff hphase hupdate, not_or] at hc
          exact hc.1

/-! ### Columns somebody names -/

/-- A named column holds a value it was given. -/
def HoldsGiven (updates : List (PartialUpdate access value)) (p : Progress σ ρ) : Prop :=
  ∀ row, access.load p.store = some row → ∀ c, Named updates p c → Given updates p c (value c row)

theorem unclobbered_iff (h : Intact updates before p) :
    Unclobbered updates before p ↔ HoldsGiven updates p := by
  constructor
  · intro hp
    exact hp.named
  · intro hp
    refine ⟨hp, ?_, h.stored⟩
    intro row hrow c index update v hsaved hgives hsole
    obtain ⟨other, update', hother, hvalue⟩ :=
      hp row hrow c ⟨index, update, hsaved, by simp [hgives]⟩
    have hindex := hsole other update' hother (by simp [hvalue])
    subst hindex
    cases Option.some.inj (hsaved.2.symm.trans hother.2)
    exact Option.some.inj (hvalue.symm.trans hgives)

theorem holdsGiven_set {index : Nat} {old new : Phase ρ} (hphase : p.phases[index]? = some old)
    (hold : old ≠ .saved) (hnew : new ≠ .saved) :
    HoldsGiven updates { p with phases := p.phases.set index new } ↔ HoldsGiven updates p := by
  simp only [HoldsGiven, named_set_iff hphase hold hnew, given_set_iff hphase hold hnew]

/-- **The step lemma.**  A step keeps the given values exactly when it brings
    back no column. -/
theorem holdsGiven_move_iff (h : Intact updates before p) (hp : HoldsGiven updates p)
    {label : Access} (hmove : Move updates p label q) :
    HoldsGiven updates q ↔ KeepsGiven updates p label := by
  cases hmove with
  | found index row hphase hload =>
      rw [holdsGiven_set hphase (by simp) (by simp)]
      exact ⟨fun _ => trivial, fun _ => hp⟩
  | missing index hphase hload =>
      rw [holdsGiven_set hphase (by simp) (by simp)]
      exact ⟨fun _ => trivial, fun _ => hp⟩
  | refused index row update hphase hupdate hassign =>
      rw [holdsGiven_set hphase (by simp) (by simp)]
      refine ⟨fun _ => ?_, fun _ => hp⟩
      intro row' update' saved hrow hupdate' hassign'
      cases hphase.symm.trans hrow
      cases Option.some.inj (hupdate.symm.trans hupdate')
      cases hassign.symm.trans hassign'
  | saved index row row' update hphase hupdate hassign =>
      obtain ⟨hfits, -⟩ := h.loaded index row hphase
      have hstore := access.load_store p.store row' (update.fits_assign _ _ _ hassign hfits)
      have hvalue := update.value_assign _ _ _ hassign
      constructor
      · intro hq row₁ update₁ row₂ hrow₁ hupdate₁ _ c hc hnamed
        cases hphase.symm.trans hrow₁
        cases Option.some.inj (hupdate.symm.trans hupdate₁)
        have hgiven := hq row' hstore c ((named_save_iff hphase hupdate).mpr hnamed)
        rwa [given_save_iff hphase hupdate, hvalue, hc, Option.getD_none] at hgiven
      · intro hkeeps stored hstored c hnamed
        cases Option.some.inj (hstore.symm.trans hstored)
        rw [given_save_iff hphase hupdate, hvalue]
        cases hc : update.assigned p.store row c with
        | some v => exact Or.inr (update.given_of_assigned _ _ _ _ hc)
        | none =>
            exact hkeeps row update row' hphase hupdate hassign c hc
              ((named_save_iff hphase hupdate).mp hnamed)

theorem keepsGiven_of_blocked {label : Access} (h : exec updates p label = none) :
    KeepsGiven updates p label := by
  cases label with
  | find index => trivial
  | save index =>
      intro row update row' hrow hupdate hassign
      simp [exec, hrow, hupdate, hassign] at h

/-- **Clobbered updates, exactly.**  In every state of a run no update is
    clobbered if and only if no save of the run brings back a column. -/
theorem everyState_unclobbered_iff {s : σ} (hload : access.load s = some before) (count : Nat)
    (labels : List Access) :
    EveryState (exec updates) (Unclobbered updates before) (start s count) labels ↔
      EveryStep (exec updates) (KeepsGiven updates) (start s count) labels := by
  have hstart : Intact updates before (start s count) := intact_start hload count
  apply everyState_iff_everyStep (J := Intact updates before)
  · intro p label q hp hexec
    exact intact_move hp (exec_move hexec)
  · intro p label hblocked
    exact keepsGiven_of_blocked hblocked
  · intro p label q hJ hp hexec
    rw [unclobbered_iff (intact_move hJ (exec_move hexec))]
    exact holdsGiven_move_iff hJ ((unclobbered_iff hJ).mp hp) (exec_move hexec)
  · exact hstart
  · rw [unclobbered_iff hstart]
    rintro row hrow c ⟨index, update, ⟨hphase, -⟩, -⟩
    have hmem := List.mem_of_getElem? hphase
    exact absurd (List.eq_of_mem_replicate hmem) (by simp)

end Runs

end PartialUpdate

end RulesEngine.Foundations

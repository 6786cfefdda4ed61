import Mathlib.Logic.Basic

/-!
# Look-aside caches

A look-aside cache keeps, for some keys, a value derived from a source.  Readers
fill it; writers change the source and announce which key to clear, and clear it
later.  While the clearing of a key is announced its entry may be stale, so what
such a cache maintains is that every entry is current or about to be cleared
(`Settled`).  For each kind of step this file says exactly when it does.
-/

namespace RulesEngine.Foundations

universe u v w

/-- The source, the entries, and the keys whose clearing is announced. -/
structure LookAside (κ : Type u) (δ : Type v) (υ : Type w) where
  source : δ
  entry : κ → Option υ
  announced : κ → Prop

namespace LookAside

variable {κ : Type u} {δ : Type v} {υ : Type w}

/-- Every entry is the value its key has now, or is about to be cleared. -/
def Settled (derive : δ → κ → υ) (s : LookAside κ δ υ) : Prop :=
  ∀ k value, s.entry k = some value → derive s.source k = value ∨ s.announced k

variable {derive : δ → κ → υ} {s : LookAside κ δ υ}

/-- A cache with nothing announced is settled when its entries are current. -/
theorem settled_iff_of_quiet (hquiet : ∀ k, ¬ s.announced k) :
    s.Settled derive ↔ ∀ k value, s.entry k = some value → derive s.source k = value := by
  constructor
  · intro hs k value hentry
    exact (hs k value hentry).resolve_right (hquiet k)
  · intro h k value hentry
    exact Or.inl (h k value hentry)

theorem settled_store_iff (hs : s.Settled derive) {k : κ} {value : υ} {entry : κ → Option υ}
    (hk : entry k = some value) (hother : ∀ k' ≠ k, entry k' = s.entry k') :
    Settled derive ⟨s.source, entry, s.announced⟩ ↔ derive s.source k = value ∨ s.announced k := by
  constructor
  · intro h
    exact h k value hk
  · intro hvalue k' value' hentry
    by_cases hkk' : k' = k
    · subst hkk'
      cases Option.some.inj (hk.symm.trans hentry)
      exact hvalue
    · exact hs k' value' ((hother k' hkk').symm.trans hentry)

/-- Changing the source, and announcing further keys. -/
theorem settled_change_iff (hs : s.Settled derive) (source : δ) {announced : κ → Prop}
    (hannounced : ∀ k, s.announced k → announced k) :
    Settled derive ⟨source, s.entry, announced⟩ ↔
      ∀ k, s.entry k ≠ none → ¬ announced k → derive source k = derive s.source k := by
  constructor
  · intro h k hentry hquiet
    obtain ⟨value, hvalue⟩ := Option.ne_none_iff_exists'.mp hentry
    have hold := (hs k value hvalue).resolve_right fun hann => hquiet (hannounced k hann)
    have hnew := (h k value hvalue).resolve_right hquiet
    exact hnew.trans hold.symm
  · intro h k value hentry
    by_cases hann : announced k
    · exact Or.inr hann
    · have hsome : s.entry k ≠ none := fun hnone => by simp [hnone] at hentry
      have hold := (hs k value hentry).resolve_right fun hold => hann (hannounced k hold)
      exact Or.inl ((h k hsome hann).trans hold)

/-- Clearing the entry of a key, and with it possibly its announcement. -/
theorem settled_clear (hs : s.Settled derive) {k : κ} {entry : κ → Option υ}
    {announced : κ → Prop} (hk : entry k = none) (hother : ∀ k' ≠ k, entry k' = s.entry k')
    (hannounced : ∀ k' ≠ k, s.announced k' → announced k') :
    Settled derive ⟨s.source, entry, announced⟩ := by
  intro k' value hentry
  by_cases hkk' : k' = k
  · subst hkk'
    exact absurd (hk.symm.trans hentry) (by simp)
  · exact (hs k' value ((hother k' hkk').symm.trans hentry)).imp_right (hannounced k' hkk')

theorem settled_announce (hs : s.Settled derive) {announced : κ → Prop}
    (hannounced : ∀ k, s.announced k → announced k) :
    Settled derive ⟨s.source, s.entry, announced⟩ :=
  (settled_change_iff hs s.source hannounced).mpr fun _ _ _ => rfl

end LookAside

end RulesEngine.Foundations

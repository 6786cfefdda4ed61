import Mathlib.Data.List.Forall2
import RulesEngine.Foundations.TransitionSystem

/-!
# Requests that read first and write last

A request reads a store any number of times, each of which may end it with an
error, and then commits one write, which the store may refuse.  Of the requests
in progress the accesses interleave in any order, and any of them may be
abandoned halfway.

What the last access of a request does is stated relying on what other requests
do to the store between its accesses (`Serves`).  If every request serves its
effect, and its effect keeps what the others rely on, the requests of every
interleaving take effect one at a time, in the order in which they complete
(`serial_run`).
-/

namespace RulesEngine.Foundations

universe u v

/-- What is left of a request: readings, then a write. -/
inductive Accesses (σ ε : Type) : Type 1 where
  | write (commit : σ → Except ε σ)
  | read {β : Type} (query : σ → Except ε β) (next : β → Accesses σ ε)

namespace Accesses

variable {σ ε : Type}

/-- All accesses in one go. -/
def run : Accesses σ ε → σ → Except ε σ
  | .write commit, s => commit s
  | .read query next, s => (query s).bind fun a => (next a).run s

/-- Whatever happens to the store between the accesses within what `R` allows and
    `I` says, the last access has the effect. -/
def Serves (I : σ → Prop) (R : σ → σ → Prop) (effect : σ → Except ε σ → Prop) :
    Accesses σ ε → σ → Prop
  | .write commit, s => ∀ t, R s t → I t → effect t (commit t)
  | .read query next, s => ∀ t, R s t → I t →
      (∀ a, query t = .ok a → (next a).Serves I R effect t) ∧
      ∀ e, query t = .error e → effect t (.error e)

theorem Serves.mono {I : σ → Prop} {R : σ → σ → Prop} {effect : σ → Except ε σ → Prop}
    (htrans : ∀ a b c, R a b → R b c → R a c) {rest : Accesses σ ε} {s t : σ} (hst : R s t)
    (h : rest.Serves I R effect s) : rest.Serves I R effect t := by
  cases rest with
  | write commit => exact fun t' htt' => h t' (htrans s t t' hst htt')
  | read query next => exact fun t' htt' => h t' (htrans s t t' hst htt')

/-! ### Requests in progress -/

/-- A request, and what is left of it. -/
structure Call (ρ : Type u) (σ ε : Type) where
  request : ρ
  rest : Accesses σ ε

/-- A request that got its answer. -/
structure Completion (ρ : Type u) (ε : Type) where
  request : ρ
  outcome : Except ε Unit

structure System (ρ : Type u) (σ ε : Type) where
  store : σ
  calls : List (Call ρ σ ε)
  /-- The first one first. -/
  completed : List (Completion ρ ε)

/-- A store without requests. -/
def start (ρ : Type u) (ε : Type) (s : σ) : System ρ σ ε := ⟨s, [], []⟩

inductive Label (ρ : Type u) where
  | arrive (request : ρ)
  | access (call : Nat)
  /-- The process that serves the request dies. -/
  | abandon (call : Nat)

/-- The store after an outcome. -/
def settle (s : σ) : Except ε σ → σ
  | .ok t => t
  | .error _ => s

variable {ρ : Type u}

def System.finish (s : System ρ σ ε) (index : Nat) (request : ρ) (outcome : Except ε σ) :
    System ρ σ ε where
  store := settle s.store outcome
  calls := s.calls.eraseIdx index
  completed := s.completed ++ [⟨request, outcome.map fun _ => ()⟩]

def exec (program : ρ → Accesses σ ε) (s : System ρ σ ε) : Label ρ → Option (System ρ σ ε)
  | .arrive request => some { s with calls := s.calls ++ [⟨request, program request⟩] }
  | .access index =>
      (s.calls[index]?).map fun call =>
        match call.rest with
        | .write commit => s.finish index call.request (commit s.store)
        | .read query next =>
            match query s.store with
            | .ok a => { s with calls := s.calls.set index ⟨call.request, next a⟩ }
            | .error e => s.finish index call.request (.error e)
  | .abandon index =>
      (s.calls[index]?).map fun _ => { s with calls := s.calls.eraseIdx index }

/-- Everything a step can do. -/
inductive Move (program : ρ → Accesses σ ε) (s : System ρ σ ε) :
    Label ρ → System ρ σ ε → Prop where
  | arrived (request : ρ) :
      Move program s (.arrive request)
        { s with calls := s.calls ++ [⟨request, program request⟩] }
  | queried {β : Type} (index : Nat) (request : ρ) (query : σ → Except ε β)
      (next : β → Accesses σ ε) (a : β) : s.calls[index]? = some ⟨request, .read query next⟩ →
      query s.store = .ok a →
      Move program s (.access index) { s with calls := s.calls.set index ⟨request, next a⟩ }
  | refused {β : Type} (index : Nat) (request : ρ) (query : σ → Except ε β)
      (next : β → Accesses σ ε) (e : ε) : s.calls[index]? = some ⟨request, .read query next⟩ →
      query s.store = .error e →
      Move program s (.access index) (s.finish index request (.error e))
  | committed (index : Nat) (request : ρ) (commit : σ → Except ε σ) :
      s.calls[index]? = some ⟨request, .write commit⟩ →
      Move program s (.access index) (s.finish index request (commit s.store))
  | abandoned (index : Nat) :
      Move program s (.abandon index) { s with calls := s.calls.eraseIdx index }

theorem exec_move {program : ρ → Accesses σ ε} {s t : System ρ σ ε} {label : Label ρ}
    (h : exec program s label = some t) : Move program s label t := by
  cases label with
  | arrive request =>
      cases h
      exact .arrived request
  | access index =>
      obtain ⟨⟨request, rest⟩, hcall, rfl⟩ := Option.map_eq_some_iff.mp h
      cases rest with
      | write commit => exact .committed index request commit hcall
      | read query next =>
          cases hquery : query s.store with
          | ok a =>
              simp only [hquery]
              exact .queried index request query next a hcall hquery
          | error e =>
              simp only [hquery]
              exact .refused index request query next e hcall hquery
  | abandon index =>
      obtain ⟨call, -, rfl⟩ := Option.map_eq_some_iff.mp h
      exact .abandoned index

/-! ### Taking effect one at a time -/

section Serial

variable (effect : ρ → σ → Except ε σ → Prop)

/-- From `first` the completed requests have led to the last store, each by its
    effect at one moment, one after another. -/
inductive Serial (first : σ) : List (Completion ρ ε) → σ → Prop where
  | start : Serial first [] first
  | next {completed : List (Completion ρ ε)} {s : σ} {request : ρ} {outcome : Except ε σ}
      (h : Serial first completed s) (heffect : effect request s outcome) :
      Serial first (completed ++ [⟨request, outcome.map fun _ => ()⟩]) (settle s outcome)

variable {effect} {first last : σ} {completed : List (Completion ρ ε)}

theorem Serial.mono {effect' : ρ → σ → Except ε σ → Prop}
    (himp : ∀ request s outcome, effect request s outcome → effect' request s outcome)
    (h : Serial effect first completed last) : Serial effect' first completed last := by
  induction h with
  | start => exact .start
  | next _ hnext ih => exact .next ih (himp _ _ _ hnext)

/-- A reflexive and transitive relation that every effect respects holds between
    the first store and the last. -/
theorem Serial.relation {I : σ → Prop} {R : σ → σ → Prop} (hrefl : ∀ s, R s s)
    (htrans : ∀ a b c, R a b → R b c → R a c)
    (heffect : ∀ request s t, I s → effect request s (.ok t) → I t ∧ R s t)
    (hfirst : I first) (h : Serial effect first completed last) : I last ∧ R first last := by
  induction h with
  | start => exact ⟨hfirst, hrefl first⟩
  | @next completed s request outcome _ hnext ih =>
      cases outcome with
      | error e => exact ih
      | ok t =>
          obtain ⟨hI, hR⟩ := heffect request s t ih.1 hnext
          exact ⟨hI, htrans first s t ih.2 hR⟩

/-- **Replay.**  When every effect is what one operation of another system does,
    the completed requests are a run of that system. -/
theorem Serial.replay {α : Type v} {step : σ → α → Option σ} {Acts : ρ → α → Prop}
    (hstep : ∀ request s outcome, effect request s outcome →
      ∃ op, Acts request op ∧ step s op = some (settle s outcome))
    (h : Serial effect first completed last) :
    ∃ ops, List.Forall₂ (fun completion op => Acts completion.request op) completed ops ∧
      runFrom step first ops = some last := by
  induction h with
  | start => exact ⟨[], .nil, rfl⟩
  | @next completed s request outcome _ hnext ih =>
      obtain ⟨ops, hacts, hrun⟩ := ih
      obtain ⟨op, hop, hop'⟩ := hstep request s outcome hnext
      refine ⟨ops ++ [op], ?_, ?_⟩
      · exact List.rel_append hacts (.cons hop .nil)
      · rw [runFrom_append, hrun, Option.bind_some, runFrom, hop']
        rfl

end Serial

/-! ### The rely-guarantee rule -/

/-- Requests that `Fits` admits rely on `I` and `R`, and their effects guarantee
    both. -/
structure Guarantee (program : ρ → Accesses σ ε) (Fits : ρ → Prop) (I : σ → Prop)
    (R : σ → σ → Prop) (effect : ρ → σ → Except ε σ → Prop) : Prop where
  refl : ∀ s, R s s
  trans : ∀ a b c, R a b → R b c → R a c
  serves : ∀ request, Fits request → ∀ s, I s →
    (program request).Serves I R (effect request) s
  keeps : ∀ request, Fits request → ∀ s t, I s → effect request s (.ok t) → I t ∧ R s t

section Rule

variable {program : ρ → Accesses σ ε} {Fits : ρ → Prop} {I : σ → Prop} {R : σ → σ → Prop}
variable {effect : ρ → σ → Except ε σ → Prop} {first : σ} {s t : System ρ σ ε}

/-- The effect of a request that is admitted. -/
def Admitted (Fits : ρ → Prop) (effect : ρ → σ → Except ε σ → Prop) (request : ρ) (s : σ)
    (outcome : Except ε σ) : Prop := Fits request ∧ effect request s outcome

structure Coordinated (Fits : ρ → Prop) (I : σ → Prop) (R : σ → σ → Prop)
    (effect : ρ → σ → Except ε σ → Prop) (first : σ) (s : System ρ σ ε) : Prop where
  store : I s.store
  calls : ∀ call ∈ s.calls, Fits call.request ∧
    call.rest.Serves I R (effect call.request) s.store
  serial : Serial (Admitted Fits effect) first s.completed s.store

theorem coordinated_start (hfirst : I first) :
    Coordinated Fits I R effect first (start ρ ε first) where
  store := hfirst
  calls := fun _ h => absurd h List.not_mem_nil
  serial := .start

/-- The last access of a request: the others go on from the new store. -/
theorem coordinated_finish (hg : Guarantee program Fits I R effect)
    (hs : Coordinated Fits I R effect first s) (index : Nat) {request : ρ} (hfits : Fits request)
    {outcome : Except ε σ} (heffect : effect request s.store outcome) :
    Coordinated Fits I R effect first (s.finish index request outcome) := by
  have hsettled : I (settle s.store outcome) ∧ R s.store (settle s.store outcome) := by
    cases outcome with
    | ok t => exact hg.keeps request hfits s.store t hs.store heffect
    | error e => exact ⟨hs.store, hg.refl _⟩
  refine ⟨hsettled.1, ?_, hs.serial.next ⟨hfits, heffect⟩⟩
  intro call hcall
  obtain ⟨hcallFits, hserves⟩ := hs.calls call (List.mem_of_mem_eraseIdx hcall)
  exact ⟨hcallFits, hserves.mono hg.trans hsettled.2⟩

theorem coordinated_move (hg : Guarantee program Fits I R effect)
    (hs : Coordinated Fits I R effect first s) {label : Label ρ}
    (hfits : ∀ request, label = .arrive request → Fits request) (h : Move program s label t) :
    Coordinated Fits I R effect first t := by
  cases h with
  | arrived request =>
      refine ⟨hs.store, ?_, hs.serial⟩
      intro call hcall
      rcases List.mem_append.mp hcall with hold | hnew
      · exact hs.calls call hold
      · obtain rfl := List.mem_singleton.mp hnew
        exact ⟨hfits request rfl, hg.serves request (hfits request rfl) s.store hs.store⟩
  | queried index request query next a hcall hquery =>
      obtain ⟨hrequest, hserves⟩ := hs.calls _ (List.mem_of_getElem? hcall)
      refine ⟨hs.store, ?_, hs.serial⟩
      intro call hmem
      rcases List.mem_or_eq_of_mem_set hmem with hold | rfl
      · exact hs.calls call hold
      · exact ⟨hrequest, (hserves s.store (hg.refl _) hs.store).1 a hquery⟩
  | refused index request query next e hcall hquery =>
      obtain ⟨hrequest, hserves⟩ := hs.calls _ (List.mem_of_getElem? hcall)
      exact coordinated_finish hg hs index hrequest
        ((hserves s.store (hg.refl _) hs.store).2 e hquery)
  | committed index request commit hcall =>
      obtain ⟨hrequest, hserves⟩ := hs.calls _ (List.mem_of_getElem? hcall)
      exact coordinated_finish hg hs index hrequest (hserves s.store (hg.refl _) hs.store)
  | abandoned index =>
      exact ⟨hs.store, fun call hcall => hs.calls call (List.mem_of_mem_eraseIdx hcall),
        hs.serial⟩

/-- **Rely and guarantee.**  The requests of every interleaving take effect one at
    a time, in the order in which they complete. -/
theorem serial_run (hg : Guarantee program Fits I R effect) (hfirst : I first)
    {labels : List (Label ρ)} (hfits : ∀ request, .arrive request ∈ labels → Fits request)
    (hrun : runFrom (exec program) (start ρ ε first) labels = some t) :
    Coordinated Fits I R effect first t := by
  have hguard : EveryStep (exec program)
      (fun _ label => ∀ request, label = .arrive request → Fits request)
      (start ρ ε first) labels := by
    apply everyStep_of_mem
    rintro label hlabel request rfl
    exact hfits request hlabel
  exact runFrom_guarded_invariant
    (fun _ _ _ hs hlabel h => coordinated_move hg hs hlabel (exec_move h))
    (coordinated_start hfirst) hguard hrun

end Rule

/-- A request that runs without interruption completes with what its accesses make
    of the store. -/
theorem exec_serial (program : ρ → Accesses σ ε) (request : ρ) (s : σ) :
    ∃ labels, runFrom (exec program) (start ρ ε s) (.arrive request :: labels) =
      some ⟨settle s ((program request).run s), [],
        [⟨request, ((program request).run s).map fun _ => ()⟩]⟩ := by
  suffices h : ∀ rest : Accesses σ ε, ∃ labels,
      runFrom (exec program) ⟨s, [⟨request, rest⟩], []⟩ labels =
        some ⟨settle s (rest.run s), [], [⟨request, (rest.run s).map fun _ => ()⟩]⟩ from
    h (program request)
  intro rest
  induction rest with
  | write commit => exact ⟨[.access 0], rfl⟩
  | read query next ih =>
      cases hquery : query s with
      | ok a =>
          obtain ⟨labels, hrun⟩ := ih a
          refine ⟨.access 0 :: labels, ?_⟩
          simpa [runFrom, exec, run, hquery, Except.bind] using hrun
      | error e =>
          refine ⟨[.access 0], ?_⟩
          simp [runFrom, exec, run, hquery, Except.bind, System.finish]

end Accesses

end RulesEngine.Foundations

import FabricReconciliation.Verdicts

/-!
# The read-only calls (`engine.cpp:284-291`, `engine.cpp:409-461`, `engine.cpp:1205-1255`)

What a client can ask of an engine without changing it. Statistics are left out.

* **`mem_knownScopes`, `knownScopes_ascending`** — the scopes with an intent or a stream, each once and in order;
* **`attempts_ascending`** — the retained lineage of a scope, complete and in the order of issue;
* **`plan_classifies`** — a plan under the active policy decides exactly what `Classify` reports, up to the bound on
  its actions, and fails where it fails.
-/

namespace FabricReconciliation

open Lib

namespace Engine

/-- `ActivePolicy` (`engine.cpp:284`). -/
def activePolicy (e : Engine) : Except Status ReconciliationPolicy :=
  if !e.store.state.hasPolicy then .error ⟨.notFound, .noIntentForScope, "store holds no policy yet"⟩
  else .ok e.store.state.policy

/-- `Classify` (`engine.cpp:409`). -/
def classify (e : Engine) (env : CallEnv) (scope : ScopeId) (nowUnixMs : UnixMillis) :
    Except Status ClassificationReport :=
  if !e.store.state.hasPolicy then .error ⟨.preconditionFailed, .noIntentForScope, "store holds no policy"⟩
  else classifyScope (classificationInput e.store.state e.live scope e.store.state.policy
    (if nowUnixMs ≠ 0 then nowUnixMs else env.now))

/-- `ActiveFences` (`engine.cpp:1205`): those of one scope, or all. -/
def activeFences (e : Engine) (scope : ScopeId) : List FenceEntry :=
  e.store.state.fences.values.filter fun f => scope.empty || f.scope = scope

/-- `KnownScopes` (`engine.cpp:1216`). -/
def knownScopes (e : Engine) : List ScopeId :=
  let intended := e.store.state.intents.entries.map Prod.fst
  let observed := e.store.state.observations.entries.map Prod.fst
  (intended ++ observed.filter fun scope => !intended.contains scope).insertionSort (· ≤ ·)

/-- `Attempts` (`engine.cpp:1231`): the lineage of one scope, or all of it. -/
def attempts (e : Engine) (scope : ScopeId) : List AttemptRecord :=
  sortById (e.store.state.attempts.values.filter fun a => scope.empty || a.scope = scope)

/-- `Outcomes` (`engine.cpp:1244`). -/
def outcomes (e : Engine) (scope : ScopeId) : List ReconciliationOutcome :=
  e.store.state.outcomes.filter fun o => scope.empty || o.scope = scope

/-- `ObservationEvidence` (`engine.cpp:1256`). -/
def observationEvidence (e : Engine) (scope : ScopeId) : List ObservationDocument :=
  (e.store.state.observations.find? scope).getD []

/-- `CurrentIntent` (`engine.cpp:1269`). -/
def currentIntent (e : Engine) (scope : ScopeId) : Except Status IntentDocument :=
  match e.store.state.intents.find? scope with
  | none => .error ⟨.notFound, .noIntentForScope, "no committed intent for this scope"⟩
  | some d => .ok d

end Engine

/-! ## Scopes -/

theorem mem_knownScopes {e : Engine} {scope : ScopeId} : scope ∈ e.knownScopes ↔
    (e.store.state.intents.find? scope).isSome = true ∨ (e.store.state.observations.find? scope).isSome = true := by
  unfold Engine.knownScopes
  dsimp only
  rw [List.mem_insertionSort, List.mem_append, List.mem_filter, OrdMap.mem_keys_iff, OrdMap.mem_keys_iff]
  simp only [Bool.not_eq_true', List.contains_eq_mem, decide_eq_false_iff_not, OrdMap.mem_keys_iff]
  constructor
  · rintro (h | h)
    · exact .inl h
    · exact .inr h.1
  · rintro (h | h)
    · exact .inl h
    · by_cases hintended : (e.store.state.intents.find? scope).isSome = true
      · exact .inl hintended
      · exact .inr ⟨h, hintended⟩

/-- The keys of a map are in order, each once. -/
theorem keys_ascending {κ α : Type} [LinearOrder κ] (m : OrdMap κ α) : (m.entries.map Prod.fst).Pairwise (· < ·) :=
  List.pairwise_map.mpr m.sorted

theorem knownScopes_ascending (e : Engine) : e.knownScopes.Pairwise (· < ·) := by
  have hintended := (keys_ascending e.store.state.intents).imp fun h => ne_of_lt h
  have hobserved := (keys_ascending e.store.state.observations).imp fun h => ne_of_lt h
  have hnodup : (e.store.state.intents.entries.map Prod.fst ++ (e.store.state.observations.entries.map Prod.fst).filter
      fun scope => !(e.store.state.intents.entries.map Prod.fst).contains scope).Nodup := by
    apply List.Nodup.append
    · exact hintended
    · exact List.Nodup.filter _ hobserved
    · intro scope hin hout
      have hnot := (List.mem_filter.mp hout).2
      simp only [Bool.not_eq_true', List.contains_eq_mem, decide_eq_false_iff_not] at hnot
      exact hnot hin
  have hsorted : e.knownScopes.Pairwise (· ≤ ·) := List.pairwise_insertionSort (· ≤ ·) _
  have hapart : e.knownScopes.Nodup := (List.perm_insertionSort (· ≤ ·) _).nodup_iff.mpr hnodup
  exact (hsorted.and hapart).imp fun h => lt_of_le_of_ne h.1 h.2

/-! ## Lineage -/

theorem mem_attempts {e : Engine} {scope : ScopeId} {a : AttemptRecord} : a ∈ e.attempts scope ↔
    (∃ k, e.store.state.attempts.find? k = some a) ∧ (scope.empty = true ∨ a.scope = scope) := by
  unfold Engine.attempts
  rw [mem_sortById, List.mem_filter, OrdMap.mem_values_iff, Bool.or_eq_true, decide_eq_true_eq]

/-- No two entries of the answer are of one attempt, and older ones come first. -/
theorem attempts_ascending {limits : RuntimeLimits} {e : Engine} (h : Consistent limits e) (scope : ScopeId) :
    (e.attempts scope).Pairwise fun a b => a.id < b.id := by
  have hvalues : (e.store.state.attempts.values).Pairwise fun a b => a.id ≠ b.id := by
    unfold OrdMap.values
    rw [List.pairwise_map]
    refine e.store.state.attempts.sorted.imp_of_mem ?_
    intro x y hx hy hlt
    rw [(h.tables.attempts x hx).2, (h.tables.attempts y hy).2]
    exact ne_of_lt hlt
  have hsorted : (e.attempts scope).Pairwise fun a b => a.id ≤ b.id :=
    List.pairwise_insertionSort (fun a b : AttemptRecord => a.id ≤ b.id) _
  have hapart : (e.attempts scope).Pairwise fun a b => a.id ≠ b.id := by
    have hfiltered := hvalues.filter fun a => scope.empty || a.scope = scope
    exact (List.perm_insertionSort _ _).symm.pairwise hfiltered fun h => h.symm
  exact (hsorted.and hapart).imp fun h => lt_of_le_of_ne h.1 h.2

/-! ## Classify and Plan -/

/-- **`plan_classifies`**. -/
theorem plan_classifies {e : Engine} {env : CallEnv} {scope : ScopeId} {now : UnixMillis}
    (hscope : scope.empty = false) :
    (e.plan env ⟨scope, none, now⟩).map (fun plan => plan.decisions.map fun d => (d.scope, d.subject, d.drift)) =
      (e.classify env scope now).map fun report =>
        (report.records.take e.options.limits.maxPlanActions.toNat).map fun r => (r.scope, r.subject, r.drift) := by
  unfold Engine.plan Engine.classify buildPlan
  rw [if_neg (by simp [hscope])]
  cases e.store.state.hasPolicy with
  | false => rfl
  | true =>
    simp only [Bool.not_true, Bool.false_eq_true, if_false, Option.getD_none]
    cases classifyScope (classificationInput e.store.state e.live scope e.store.state.policy
        (if now ≠ 0 then now else env.now)) with
    | error status => rfl
    | ok report =>
      show Except.ok _ = Except.ok _
      dsimp only
      rw [assemblePlan_decisions, List.map_map]
      rfl

end FabricReconciliation

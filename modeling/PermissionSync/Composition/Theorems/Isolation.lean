import PermissionSync.Composition.Application
import PermissionSync.Runtime.Lemmas.Configuration

/-!
# Isolation of the components

Whatever stands under `provider` and `glpi`, the rest of the configuration and the set of recognized targets are the
same. A component that cannot be used affects nothing but its own availability.
-/

namespace PermissionSync.Composition

open PermissionSync.Base PermissionSync.Core PermissionSync.Runtime Configuration

/-! ## Tables -/

section

variable {κ β ε : Type} [DecidableEq κ] {duplicate : κ → ε} {table entries result : List (κ × β)} {k : κ} {v : β}

theorem insertNew_eq_ok {entry : κ × β} :
    insertNew duplicate table entry = .ok result ↔ entry.1 ∉ table.map Prod.fst ∧ result = entry :: table := by
  unfold insertNew
  split
  case isTrue h => simp [h]
  case isFalse h => simp [h, eq_comm]

/-- A table that was built has its entries under distinct keys. -/
theorem foldlM_insertNew (h : entries.foldlM (insertNew duplicate) table = .ok result)
    (htable : (table.map Prod.fst).Nodup) :
    (result.map Prod.fst).Nodup ∧ ∀ e, e ∈ result ↔ e ∈ entries ∨ e ∈ table := by
  induction entries generalizing table with
  | nil =>
      cases h
      exact ⟨htable, by simp⟩
  | cons entry entries ih =>
      rw [List.foldlM_cons, bind_eq_ok] at h
      obtain ⟨table', hinsert, hrest⟩ := h
      obtain ⟨hnew, rfl⟩ := insertNew_eq_ok.mp hinsert
      obtain ⟨hnodup, hmem⟩ := ih hrest (List.nodup_cons.mpr ⟨hnew, htable⟩)
      refine ⟨hnodup, fun e => ?_⟩
      rw [hmem, List.mem_cons, List.mem_cons]
      tauto

theorem lookup_eq_some_iff_mem (hnodup : (table.map Prod.fst).Nodup) : table.lookup k = some v ↔ (k, v) ∈ table := by
  induction table with
  | nil => simp
  | cons entry table ih =>
      obtain ⟨k', v'⟩ := entry
      obtain ⟨hnew, hrest⟩ := List.nodup_cons.mp hnodup
      by_cases hk : k = k'
      · subst hk
        have hno : (k, v) ∉ table := fun hmem => hnew (List.mem_map.mpr ⟨_, hmem, rfl⟩)
        simp [hno, eq_comm]
      · have hbeq : (k == k') = false := by simpa using hk
        rw [List.lookup_cons, hbeq]
        simpa [hk] using ih hrest

end

/-! ## Composition -/

variable {new : Constructors} {configuration : RuntimeConfiguration} {application : ComposedApplication}
  {targets : List ConfiguredTarget} {routes : List TargetRoute}

theorem route_eq_ok {target : ConfiguredTarget} {r : TargetRoute} (h : route target = .ok r) :
    target = ⟨r.logicalTarget.value, r.adapterIdentifier⟩ := by
  unfold route LogicalTarget.tryFrom at h
  split at h
  · rename_i hlogical
    split at hlogical
    · cases hlogical
      cases h
      rfl
    · cases hlogical
  · cases h

/-- The routes are the configured targets. -/
theorem mapM_route (h : targets.mapM route = .ok routes) :
    targets = routes.map fun r => ⟨r.logicalTarget.value, r.adapterIdentifier⟩ := by
  induction targets generalizing routes with
  | nil =>
      cases h
      rfl
  | cons target targets ih =>
      rw [List.mapM_cons, bind_eq_ok] at h
      obtain ⟨r, hr, h⟩ := h
      rw [bind_eq_ok] at h
      obtain ⟨rest, hrest, h⟩ := h
      cases h
      rw [List.map_cons, ← ih hrest, ← route_eq_ok hr]

/-- Whether the section produced an adapter. -/
def Produces (new : Constructors) (glpi : Option GlpiAdapterConfig) (adapter : GlpiAdapterConfig) : Prop :=
  glpi = some adapter ∧ new.glpi adapter = true

theorem mem_registrations {glpi : Option GlpiAdapterConfig} {registration : AdapterRegistration} :
    registration ∈ registrations new glpi ↔
      registration.adapterIdentifier = glpiAdapterIdentifier ∧ Produces new glpi registration.adapter := by
  obtain ⟨identifier, adapter⟩ := registration
  cases glpi with
  | none => simp [registrations, Produces]
  | some config =>
      by_cases hnew : new.glpi config = true
      · simp only [registrations, hnew, if_true, List.mem_singleton, AdapterRegistration.mk.injEq, Produces,
          Option.some.injEq]
        constructor
        · rintro ⟨rfl, rfl⟩
          exact ⟨rfl, rfl, hnew⟩
        · rintro ⟨rfl, rfl, _⟩
          exact ⟨rfl, rfl⟩
      · simp only [registrations, if_neg hnew, List.not_mem_nil, Produces, Option.some.injEq, false_iff]
        rintro ⟨_, rfl, haccepts⟩
        exact hnew haccepts

/-- There is at most one registration, so only the routes can make the router fail. -/
theorem new_router (routes : List TargetRoute) (glpi : Option GlpiAdapterConfig) :
    TargetRouter.new routes (registrations new glpi) =
      ((routes.map fun route => (route.logicalTarget, route.adapterIdentifier)).foldlM
        (insertNew .duplicateLogicalTarget) []).map fun targetRoutes =>
          ⟨targetRoutes, (registrations new glpi).map fun registration =>
            (registration.adapterIdentifier, registration.adapter)⟩ := by
  have hadapters : ((registrations new glpi).map fun registration =>
      (registration.adapterIdentifier, registration.adapter)).foldlM
        (insertNew TargetRouterBuildError.duplicateAdapterIdentifier) [] =
      .ok ((registrations new glpi).map fun registration =>
        (registration.adapterIdentifier, registration.adapter)) := by
    cases glpi with
    | none => rfl
    | some config =>
        unfold registrations
        dsimp only
        split <;> rfl
  unfold TargetRouter.new
  rw [hadapters]
  cases (routes.map fun route => (route.logicalTarget, route.adapterIdentifier)).foldlM
    (insertNew TargetRouterBuildError.duplicateLogicalTarget) [] <;> rfl

/-- The table of routes that `compose` builds from the configured targets. -/
def composedRoutes (targets : List ConfiguredTarget) :
    Except CompositionError (List (LogicalTarget × AdapterIdentifier)) := do
  let routes ← targets.mapM route
  ((routes.map fun route => (route.logicalTarget, route.adapterIdentifier)).foldlM
    (insertNew TargetRouterBuildError.duplicateLogicalTarget) []).mapError fun _ => .invalid

/-- The components have no part in whether the composition succeeds. -/
theorem compose_eq (configuration : RuntimeConfiguration) :
    ComposedApplication.compose new configuration = (composedRoutes configuration.targets).map fun table =>
      ⟨providerState new configuration.provider, table, (registrations new configuration.glpi).map fun registration =>
        (registration.adapterIdentifier, registration.adapter)⟩ := by
  unfold ComposedApplication.compose composedRoutes
  rw [map_bind]
  congr 1
  funext routes
  rw [new_router]
  cases (routes.map fun route => (route.logicalTarget, route.adapterIdentifier)).foldlM
    (insertNew TargetRouterBuildError.duplicateLogicalTarget) [] <;> rfl

theorem mapError_eq_ok {ε ε' α : Type} {x : Except ε α} {f : ε → ε'} {a : α} (h : x.mapError f = .ok a) :
    x = .ok a := by
  cases x with
  | error e => cases h
  | ok b =>
      cases h
      rfl

/-- The table has exactly the configured targets. -/
theorem lookup_composedRoutes {table : List (LogicalTarget × AdapterIdentifier)}
    (h : composedRoutes targets = .ok table) (target : LogicalTarget) (identifier : AdapterIdentifier) :
    table.lookup target = some identifier ↔ ⟨target.value, identifier⟩ ∈ targets := by
  rw [composedRoutes, bind_eq_ok] at h
  obtain ⟨routes, hroutes, htable⟩ := h
  obtain ⟨hnodup, hmem⟩ := foldlM_insertNew (mapError_eq_ok htable) List.nodup_nil
  rw [lookup_eq_some_iff_mem hnodup, hmem, mapM_route hroutes]
  simp only [List.not_mem_nil, or_false, List.mem_map]
  constructor
  · rintro ⟨r, hr, heq⟩
    cases heq
    exact ⟨r, hr, rfl⟩
  · rintro ⟨r, hr, heq⟩
    obtain ⟨hvalue, rfl⟩ := ConfiguredTarget.mk.inj heq
    refine ⟨r, hr, ?_⟩
    obtain ⟨⟨value, valid⟩, identifier⟩ := r
    obtain ⟨value', valid'⟩ := target
    cases hvalue
    rfl

/-! ## Availability of targets -/

/-- How the application resolves its targets: those that are not configured are unknown, and those of the `glpi` adapter
are usable if its section produced one. -/
structure Resolves (new : Constructors) (configuration : RuntimeConfiguration) (application : ComposedApplication) :
    Prop where
  unknown : ∀ target, application.resolveTarget target = .unknown ↔
    ∀ configured ∈ configuration.targets, configured.logicalTarget ≠ target.value
  usable : ∀ target adapter, application.resolveTarget target = .usable adapter ↔
    ⟨target.value, glpiAdapterIdentifier⟩ ∈ configuration.targets ∧ Produces new configuration.glpi adapter

/-- The adapter that is found under an identifier. -/
theorem lookup_registrations {glpi : Option GlpiAdapterConfig} {identifier : AdapterIdentifier}
    {adapter : GlpiAdapterConfig} :
    ((registrations new glpi).map fun registration => (registration.adapterIdentifier, registration.adapter)).lookup
        identifier = some adapter ↔ identifier = glpiAdapterIdentifier ∧ Produces new glpi adapter := by
  have hnodup : (((registrations new glpi).map fun registration =>
      (registration.adapterIdentifier, registration.adapter)).map Prod.fst).Nodup := by
    cases glpi with
    | none => exact .nil
    | some config =>
        unfold registrations
        dsimp only
        split <;> simp
  rw [lookup_eq_some_iff_mem hnodup, List.mem_map]
  constructor
  · rintro ⟨registration, hmem, heq⟩
    cases heq
    exact mem_registrations.mp hmem
  · intro h
    exact ⟨⟨identifier, adapter⟩, mem_registrations.mpr h, rfl⟩

theorem resolveTarget_mk (provider : ProviderAvailability) (table : List (LogicalTarget × AdapterIdentifier))
    (glpi : Option GlpiAdapterConfig) (target : LogicalTarget) :
    ComposedApplication.resolveTarget ⟨provider, table, (registrations new glpi).map fun registration =>
        (registration.adapterIdentifier, registration.adapter)⟩ target =
      match table.lookup target with
      | none => .unknown
      | some identifier =>
          match ((registrations new glpi).map fun registration =>
            (registration.adapterIdentifier, registration.adapter)).lookup identifier with
          | none => .unavailable
          | some adapter => .usable adapter := by
  unfold ComposedApplication.resolveTarget TargetRouter.resolve
  dsimp only
  cases table.lookup target with
  | none => rfl
  | some identifier =>
      dsimp only
      cases ((registrations new glpi).map fun registration =>
        (registration.adapterIdentifier, registration.adapter)).lookup identifier <;> rfl

theorem resolves_of_compose (h : ComposedApplication.compose new configuration = .ok application) :
    Resolves new configuration application := by
  rw [compose_eq] at h
  cases htable : composedRoutes configuration.targets with
  | error e =>
      rw [htable] at h
      cases h
  | ok table =>
      rw [htable] at h
      cases h
      have hlookup := lookup_composedRoutes htable
      refine ⟨fun target => ?_, fun target adapter => ?_⟩ <;> rw [resolveTarget_mk]
      · cases hroute : table.lookup target with
        | none =>
            refine iff_of_true rfl fun configured hmem hname => ?_
            obtain ⟨_, identifier⟩ := configured
            cases hname
            rw [(hlookup target identifier).mpr hmem] at hroute
            cases hroute
        | some identifier =>
            refine iff_of_false ?_ fun hnone => hnone _ ((hlookup target identifier).mp hroute) rfl
            dsimp only
            split <;> nofun
      · cases hroute : table.lookup target with
        | none =>
            refine iff_of_false nofun fun ⟨hmem, _⟩ => ?_
            rw [(hlookup target _).mpr hmem] at hroute
            cases hroute
        | some identifier =>
            dsimp only
            constructor
            · intro husable
              split at husable
              · cases husable
              · rename_i adapter' hadapter
                cases husable
                obtain ⟨rfl, hproduces⟩ := lookup_registrations.mp hadapter
                exact ⟨(hlookup target _).mp hroute, hproduces⟩
            · rintro ⟨hmem, hproduces⟩
              rw [(hlookup target _).mpr hmem] at hroute
              cases hroute
              rw [lookup_registrations.mpr ⟨rfl, hproduces⟩]

/-! ## Two documents -/

/-- Compositions of the same targets fail together. If they succeed they recognize the same targets, and each of them
depends on its own section for the Provider and for the adapter. -/
theorem compose_alike (new : Constructors) (c₁ c₂ : RuntimeConfiguration) (h : c₁.targets = c₂.targets) :
    (∃ e, ComposedApplication.compose new c₁ = .error e ∧ ComposedApplication.compose new c₂ = .error e) ∨
      ∃ a₁ a₂, ComposedApplication.compose new c₁ = .ok a₁ ∧ ComposedApplication.compose new c₂ = .ok a₂ ∧
        (c₁.provider = c₂.provider → a₁.provider = a₂.provider) ∧
        (c₁.glpi = c₂.glpi → ∀ target, a₁.resolveTarget target = a₂.resolveTarget target) := by
  have h₁ : ComposedApplication.compose new c₁ = _ := compose_eq c₁
  have h₂ : ComposedApplication.compose new c₂ = _ := compose_eq c₂
  rw [h] at h₁
  cases htable : composedRoutes c₂.targets with
  | error e =>
      rw [htable] at h₁ h₂
      exact Or.inl ⟨e, h₁, h₂⟩
  | ok table =>
      rw [htable] at h₁ h₂
      refine Or.inr ⟨_, _, h₁, h₂, fun hp => congrArg (providerState new) hp, fun hg target => ?_⟩
      rw [resolveTarget_mk, resolveTarget_mk, hg]

section

variable {yaml : Yaml} {t₁ t₂ text : String} {v₁ v₂ value : Value} {entries : List (Value × Value)}
  {rest : List (Option Value)}

/-- Value trees that differ only in the entries of the components: they are equal, or they are mappings, under any tags,
with the same other entries and at most one entry for each component. -/
inductive DifferInComponents (yaml : Yaml) : Value → Value → Prop
  | equal (value : Value) : DifferInComponents yaml value value
  | entries {v₁ v₂ : Value} {e₁ e₂ : List (Value × Value)} : v₁.untag = .mapping e₁ → v₂.untag = .mapping e₂ →
      otherEntries yaml e₁ = otherEntries yaml e₂ → OneEach yaml e₁ → OneEach yaml e₂ → DifferInComponents yaml v₁ v₂

theorem entriesOf_eq (h : value.untag = .mapping entries) : entriesOf value = entries := by
  rw [entriesOf, h]

theorem singleDocument_mapping (h : yaml.documents text = some value :: rest)
    (hvalue : value.untag = .mapping entries) :
    singleDocument yaml text = if rest.isEmpty then
      okOr (readDocument yaml value) .invalidDocumentStructure
    else
      .error .configurationMultipleDocuments := by
  rw [singleDocument, h]
  simp [isNull, hvalue]

/-- Mappings with the same other entries fail alike, or give the same configuration but for the components. -/
theorem decode_mappings {e₁ e₂ : List (Value × Value)} (h₁ : yaml.documents t₁ = some v₁ :: rest)
    (h₂ : yaml.documents t₂ = some v₂ :: rest) (hv₁ : v₁.untag = .mapping e₁) (hv₂ : v₂.untag = .mapping e₂)
    (hothers : otherEntries yaml e₁ = otherEntries yaml e₂) (hone₁ : OneEach yaml e₁) (hone₂ : OneEach yaml e₂) :
    (∃ failure, decode yaml new t₁ = .error failure ∧ decode yaml new t₂ = .error failure) ∨
      ∃ c : ExecutableConfiguration,
        decode yaml new t₁ =
          .ok (c.withComponents yaml (componentValue yaml e₁ "provider") (componentValue yaml e₁ "glpi")) ∧
        decode yaml new t₂ =
          .ok (c.withComponents yaml (componentValue yaml e₂ "provider") (componentValue yaml e₂ "glpi")) := by
  rw [decode_eq, decode_eq, singleDocument_mapping h₁ hv₁, singleDocument_mapping h₂ hv₂,
    readDocument_mapping hv₁ hone₁, readDocument_mapping hv₂ hone₂, hothers]
  cases rest.isEmpty with
  | false => exact Or.inl ⟨_, rfl, rfl⟩
  | true =>
      cases readDocument yaml (.mapping (otherEntries yaml e₂)) with
      | none => exact Or.inl ⟨_, rfl, rfl⟩
      | some document =>
          simp only [if_true, Option.map_some, okOr_some, ok_bind]
          rw [decodeDocument_withComponents, decodeDocument_withComponents document (componentValue yaml e₂ "provider")]
          cases decodeDocument yaml new (document.withComponents none none) with
          | error failure => exact Or.inl ⟨failure, rfl, rfl⟩
          | ok c => exact Or.inr ⟨c, rfl, rfl⟩

theorem componentValue_congr {e₁ e₂ : List (Value × Value)} {name : String}
    (h : valuesAt yaml name e₁ = valuesAt yaml name e₂) :
    componentValue yaml e₁ name = componentValue yaml e₂ name := by
  rw [componentValue, componentValue, defaulted, defaulted, h]

/-- The configuration apart from the components. -/
def withoutComponents (configuration : ExecutableConfiguration) : ExecutableConfiguration :=
  { configuration with
    runtime := ⟨none, none, configuration.runtime.targets⟩
    providerOutcome := .absent
    glpiOutcome := .absent }

/-- The documents fail alike, or give configurations that are equal apart from the components, each of which comes from
its own entry. -/
theorem decode_alike (h₁ : yaml.documents t₁ = some v₁ :: rest) (h₂ : yaml.documents t₂ = some v₂ :: rest)
    (hdiffer : DifferInComponents yaml v₁ v₂) :
    (∃ failure, decode yaml new t₁ = .error failure ∧ decode yaml new t₂ = .error failure) ∨
      ∃ c₁ c₂, decode yaml new t₁ = .ok c₁ ∧ decode yaml new t₂ = .ok c₂ ∧
        withoutComponents c₁ = withoutComponents c₂ ∧
        (valuesAt yaml "provider" (entriesOf v₁) = valuesAt yaml "provider" (entriesOf v₂) →
          c₁.runtime.provider = c₂.runtime.provider) ∧
        (valuesAt yaml "glpi" (entriesOf v₁) = valuesAt yaml "glpi" (entriesOf v₂) →
          c₁.runtime.glpi = c₂.runtime.glpi) := by
  cases hdiffer with
  | equal =>
      have hsame : decode yaml new t₁ = decode yaml new t₂ := by
        rw [decode_eq, decode_eq, singleDocument, singleDocument, h₁, h₂]
      rw [hsame]
      cases decode yaml new t₂ with
      | error failure => exact Or.inl ⟨failure, rfl, rfl⟩
      | ok c => exact Or.inr ⟨c, c, rfl, rfl, rfl, fun _ => rfl, fun _ => rfl⟩
  | entries hv₁ hv₂ hothers hone₁ hone₂ =>
      rw [entriesOf_eq hv₁, entriesOf_eq hv₂]
      rcases decode_mappings h₁ h₂ hv₁ hv₂ hothers hone₁ hone₂ with hfail | ⟨c, hc₁, hc₂⟩
      · exact Or.inl hfail
      · refine Or.inr ⟨_, _, hc₁, hc₂, rfl, fun hvalues => ?_, fun hvalues => ?_⟩
        · simp only [ExecutableConfiguration.withComponents, componentValue_congr hvalues]
        · simp only [ExecutableConfiguration.withComponents, componentValue_congr hvalues]

/-- Two documents that differ only in the entries of the components are refused with the same failure, or give the same
configuration apart from the components. Their compositions then fail together, or recognize the same targets, of which
those of the adapter are usable if the document's own section produced one; and what stands under the one component
does not affect the other. -/
theorem components_isolated (new : Constructors) (h₁ : yaml.documents t₁ = some v₁ :: rest)
    (h₂ : yaml.documents t₂ = some v₂ :: rest) (hdiffer : DifferInComponents yaml v₁ v₂) :
    (∃ failure, decode yaml new t₁ = .error failure ∧ decode yaml new t₂ = .error failure) ∨
      ∃ c₁ c₂, decode yaml new t₁ = .ok c₁ ∧ decode yaml new t₂ = .ok c₂ ∧
        withoutComponents c₁ = withoutComponents c₂ ∧
        ((∃ e, ComposedApplication.compose new c₁.runtime = .error e ∧
            ComposedApplication.compose new c₂.runtime = .error e) ∨
          ∃ a₁ a₂, ComposedApplication.compose new c₁.runtime = .ok a₁ ∧
            ComposedApplication.compose new c₂.runtime = .ok a₂ ∧
            Resolves new c₁.runtime a₁ ∧ Resolves new c₂.runtime a₂ ∧
            (∀ target, a₁.resolveTarget target = .unknown ↔ a₂.resolveTarget target = .unknown) ∧
            (valuesAt yaml "provider" (entriesOf v₁) = valuesAt yaml "provider" (entriesOf v₂) →
              a₁.provider = a₂.provider) ∧
            (valuesAt yaml "glpi" (entriesOf v₁) = valuesAt yaml "glpi" (entriesOf v₂) →
              ∀ target, a₁.resolveTarget target = a₂.resolveTarget target)) := by
  rcases decode_alike h₁ h₂ hdiffer with hfail | ⟨c₁, c₂, hc₁, hc₂, hsame, hprovider, hglpi⟩
  · exact Or.inl hfail
  · have htargets : c₁.runtime.targets = c₂.runtime.targets := by
      have h := congrArg (fun c : ExecutableConfiguration => c.runtime.targets) hsame
      exact h
    refine Or.inr ⟨c₁, c₂, hc₁, hc₂, hsame, ?_⟩
    rcases compose_alike new c₁.runtime c₂.runtime htargets with hfail | ⟨a₁, a₂, ha₁, ha₂, hprovider', hglpi'⟩
    · exact Or.inl hfail
    · have hr₁ := resolves_of_compose ha₁
      have hr₂ := resolves_of_compose ha₂
      refine Or.inr ⟨a₁, a₂, ha₁, ha₂, hr₁, hr₂, fun target => ?_, fun hvalues => hprovider' (hprovider hvalues),
        fun hvalues => hglpi' (hglpi hvalues)⟩
      rw [hr₁.unknown, hr₂.unknown, htargets]

end

/-! A document without components, and one with a tag and an unreadable `glpi` section. -/

theorem sample_oneEach : OneEach sampleYaml sampleEntries ∧ OneEach sampleYaml garbledEntries := by
  constructor <;> intro name hname <;> fin_cases hname <;> decide

/-- The process starts with the unreadable section as it does without it. -/
theorem garbled_isolated : ∃ c₁ c₂, decode sampleYaml sampleConstructors "plain" = .ok c₁ ∧
    decode sampleYaml sampleConstructors "garbled" = .ok c₂ ∧ withoutComponents c₁ = withoutComponents c₂ ∧
      c₂.glpiOutcome = .invalid := by
  have hplain : sampleYaml.documents "plain" = [some (.mapping sampleEntries)] := rfl
  have hgarbled : sampleYaml.documents "garbled" = [some (.tagged "!v1" (.mapping garbledEntries))] := rfl
  have hok : ∃ c, decode sampleYaml sampleConstructors "garbled" = .ok c ∧ c.glpiOutcome = .invalid := ⟨_, rfl, rfl⟩
  obtain ⟨c, hc, hinvalid⟩ := hok
  rcases components_isolated sampleConstructors hplain hgarbled
      (.entries rfl rfl rfl sample_oneEach.1 sample_oneEach.2) with
    ⟨_, _, hfail⟩ | ⟨c₁, c₂, hc₁, hc₂, hsame, _⟩
  · rw [hc] at hfail
    cases hfail
  · rw [hc] at hc₂
    cases hc₂
    exact ⟨c₁, c, hc₁, hc, hsame, hinvalid⟩

end PermissionSync.Composition

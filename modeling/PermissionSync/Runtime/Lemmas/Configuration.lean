import PermissionSync.Runtime.Configuration

/-!
# What the sections of the document decide

The entries of the components reach the configuration only as the configurations and outcomes of the components.
-/

namespace PermissionSync.Runtime

open PermissionSync.Base PermissionSync.Runtime.Configuration

variable {yaml : Yaml} {new : Constructors} {entries : List (Value × Value)} {name : String} {text : String}
  {configuration : ExecutableConfiguration}

/-! ## The document -/

/-- The entries that are not those of a component. -/
def otherEntries (yaml : Yaml) (entries : List (Value × Value)) : List (Value × Value) :=
  entries.filter fun entry => yaml.key entry.1 ∉ componentFields.map some

/-- The entries of a document that is a mapping. -/
def entriesOf (value : Value) : List (Value × Value) :=
  match value.untag with
  | .mapping entries => entries
  | _ => []

/-- A mapping has at most one entry for each component. -/
def OneEach (yaml : Yaml) (entries : List (Value × Value)) : Prop :=
  ∀ name ∈ componentFields, (valuesAt yaml name entries).length ≤ 1

/-- The value of a component's field, of which null is none. -/
def componentValue (yaml : Yaml) (entries : List (Value × Value)) (name : String) : Option Value :=
  (defaulted yaml entries name).getD none

theorem valuesAt_otherEntries (hname : name ∉ componentFields) :
    valuesAt yaml name (otherEntries yaml entries) = valuesAt yaml name entries := by
  rw [valuesAt, valuesAt, otherEntries, List.filter_filter]
  congr 1
  refine List.filter_congr fun entry _ => ?_
  by_cases hkey : yaml.key entry.1 = some name
  · simp [hkey, hname]
  · simp [hkey]

theorem valuesAt_component (hname : name ∈ componentFields) : valuesAt yaml name (otherEntries yaml entries) = [] := by
  rw [valuesAt, otherEntries, List.filter_filter, List.map_eq_nil_iff, List.filter_eq_nil_iff]
  intro entry _
  by_cases hkey : yaml.key entry.1 = some name
  · simp [hkey, hname]
  · simp [hkey]

theorem required_otherEntries (hname : name ∉ componentFields) :
    required yaml (otherEntries yaml entries) name = required yaml entries name := by
  rw [required, required, valuesAt_otherEntries hname]

theorem defaulted_of_oneEach (hone : OneEach yaml entries) (hname : name ∈ componentFields) :
    defaulted yaml entries name = some (componentValue yaml entries name) := by
  have hlength := hone name hname
  unfold componentValue defaulted
  generalize valuesAt yaml name entries = values at hlength ⊢
  match values with
  | [] => rfl
  | [value] => cases value <;> rfl
  | _ :: _ :: _ => simp at hlength

theorem known_otherEntries :
    (∀ entry ∈ otherEntries yaml entries, ∃ name ∈ requiredFields ++ componentFields, yaml.key entry.1 = some name) ↔
      ∀ entry ∈ entries, ∃ name ∈ requiredFields ++ componentFields, yaml.key entry.1 = some name := by
  constructor
  · intro h entry hentry
    by_cases hcomponent : yaml.key entry.1 ∈ componentFields.map some
    · obtain ⟨name, hname, hkey⟩ := List.mem_map.mp hcomponent
      exact ⟨name, List.mem_append_right _ hname, hkey.symm⟩
    · exact h entry (List.mem_filter.mpr ⟨hentry, by simpa using hcomponent⟩)
  · intro h entry hentry
    exact h entry (List.mem_filter.mp hentry).1

/-- The document without its components. -/
def DocumentDelivery.withComponents (document : DocumentDelivery) (provider glpi : Option Value) : DocumentDelivery :=
  { document with provider := provider, glpi := glpi }

/-- The entries of the components reach only the two fields of the document. -/
theorem readDocument_mapping {value : Value} (hvalue : value.untag = .mapping entries) (hone : OneEach yaml entries) :
    readDocument yaml value =
      (readDocument yaml (.mapping (otherEntries yaml entries))).map fun document =>
        document.withComponents (componentValue yaml entries "provider") (componentValue yaml entries "glpi") := by
  have hrequired {name} (hname : name ∉ componentFields) :
      required yaml (otherEntries yaml entries) name = required yaml entries name := required_otherEntries hname
  have hnone {name} (hname : name ∈ componentFields) : defaulted yaml (otherEntries yaml entries) name = some none := by
    rw [defaulted, valuesAt_component hname]
  simp only [readDocument, hvalue, Value.untag, known_otherEntries]
  split
  · rw [hrequired (by decide), hrequired (by decide), hrequired (by decide),
      hrequired (by decide), hrequired (by decide), hrequired (by decide), hnone (by decide), hnone (by decide),
      defaulted_of_oneEach hone (by decide), defaulted_of_oneEach hone (by decide)]
    simp only [Option.bind_eq_bind, Option.map_bind, Function.comp_def, Option.bind_some,
      Option.pure_def, Option.map_some, DocumentDelivery.withComponents]
  · rfl

/-! ## Decoding -/

/-- The configuration with the components of the two values. -/
def ExecutableConfiguration.withComponents (yaml : Yaml) (provider glpi : Option Value)
    (configuration : ExecutableConfiguration) : ExecutableConfiguration :=
  let provider := component provider yaml.provider (ProviderDelivery.project configuration.overallRequestDeadline)
  let glpi := component glpi yaml.glpi (GlpiDelivery.project configuration.overallRequestDeadline)
  { configuration with
    runtime := ⟨provider.1, glpi.1, configuration.runtime.targets⟩
    providerOutcome := provider.2
    glpiOutcome := glpi.2 }

/-- What `decode` makes of a document. -/
def decodeDocument (yaml : Yaml) (new : Constructors) (document : DocumentDelivery) :
    Except RuntimeFailure ExecutableConfiguration := do
  let listener ← listener yaml new document.listener
  let request ← request yaml document.request
  let shutdown ← shutdown yaml document.shutdown request.overallRequestDeadline
  let authentication ← authentication yaml new document.authentication request.overallRequestDeadline
  let observability ← observability yaml new document.observability
  let targets ← targets yaml document.targets
  pure (ExecutableConfiguration.withComponents yaml document.provider document.glpi
    ⟨listener, request.overallRequestDeadline, request.inboundAdmissionLimit, request.synchronizationCapacity, shutdown,
      authentication.config, authentication.metadataOperationTimeout, observability, ⟨none, none, targets⟩, .absent,
      .absent⟩)

theorem decode_eq : decode yaml new text = singleDocument yaml text >>= decodeDocument yaml new := rfl

theorem decodeDocument_withComponents (document : DocumentDelivery) (provider glpi : Option Value) :
    decodeDocument yaml new (document.withComponents provider glpi) =
      (decodeDocument yaml new (document.withComponents none none)).map
        (ExecutableConfiguration.withComponents yaml provider glpi) := by
  simp only [decodeDocument, map_bind]
  rfl

/-- What `decode` accepts leaves every request its overall budget before the grace period ends. -/
theorem overallRequestDeadline_le_grace (h : decode yaml new text = .ok configuration) :
    configuration.overallRequestDeadline ≤ configuration.shutdownGrace := by
  rw [decode_eq, bind_eq_ok] at h
  obtain ⟨document, _, h⟩ := h
  simp only [decodeDocument, bind_eq_ok, pure_eq_ok, Except.ok.injEq] at h
  obtain ⟨listener, _, request, _, grace, hgrace, authentication, _, observability, _, targets, _, rfl⟩ := h
  simp only [Configuration.shutdown, bind_eq_ok] at hgrace
  obtain ⟨delivery, _, grace', _, hgrace⟩ := hgrace
  split at hgrace
  · cases hgrace
  · cases hgrace
    exact Nat.le_of_not_lt ‹_›

/-! Two documents that are accepted: one without components, and one with a tag and an unreadable `glpi` section. -/

def sampleKey : Value → Option String
  | .string name => some name
  | _ => none

def sampleEntries : List (Value × Value) := requiredFields.map fun name => (.string name, .null)

def garbledEntries : List (Value × Value) := (.string "glpi", .int 7) :: sampleEntries

def sampleYaml : Yaml where
  documents text :=
    if text = "plain" then [some (.mapping sampleEntries)] else [some (.tagged "!v1" (.mapping garbledEntries))]
  key := sampleKey
  listener _ := some ⟨"127.0.0.1", 8080⟩
  request _ := some ⟨1000, 4, 2⟩
  shutdown _ := some ⟨2000⟩
  authentication _ :=
    some ⟨"https://issuer", "audience", [.rs256], ⟨some "https://issuer/jwks", none⟩, ⟨60000, 0⟩, 500, 0, []⟩
  observability _ := some ⟨.info, none⟩
  targets _ := some [⟨"erp", "glpi"⟩]
  provider _ := none
  glpi _ := none

def sampleConstructors : Constructors :=
  ⟨fun _ => some [127, 0, 0, 1], fun _ => true, fun _ => true, fun _ => true, fun _ => true⟩

end PermissionSync.Runtime

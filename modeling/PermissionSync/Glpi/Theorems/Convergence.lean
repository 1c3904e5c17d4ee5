import PermissionSync.Glpi.Lemmas.ServedReconcile
import PermissionSync.Glpi.Theorems.Ordering

/-!
# Reconciliation against a documented server

A server that answers as documented and that nobody else modifies is brought to the state that the payload asks for.
-/

namespace PermissionSync.Glpi

open PermissionSync.Base PermissionSync.Wire

variable {config : ValidatedConfig} {server : Server} {s : Store} {hs : Headers} {permissions : List RawPermission}

/-- A server that answers every request of the reconciliation as documented lets it return. The user of the username
then has exactly the rows that the payload asks for and every other user the rows it had; the reconciliation reports no
change, and requests no mutation, exactly when the account existed with these rows; and a second one reports no
change. -/
theorem reconcile_converges (request : AdapterRequest) {serve : Store → Event glpi → Store → Prop}
    (hserve : ∀ s e s', serve s e s' → server.step request.context.deadline s e s')
    (hanswers : ∀ t s' o, Path serve s t s' → Asks (reconcile config request) t o → ∃ x s'', serve s' ⟨o, x⟩ s'')
    (hinit : initHeaders config = .ok hs) (hversion : request.version = 1)
    (hpayload : request.payload.json.bind decodePayload = some permissions)
    (hnonempty : ∀ p ∈ permissions, p.entity ≠ "" ∧ p.profile ≠ "")
    (hsuits : s.Suits permissions request.username) :
    (∃ t r s', Run (reconcile config request) t r ∧ Path serve s t s') ∧
    ∀ t r s', Run (reconcile config request) t r → Path serve s t s' → ∃ outcome, r = .ok outcome ∧
      (∃ userId, s'.HasAccount request.username userId ∧ s'.Canonical permissions userId ∧
        ∀ a, a.usersId ≠ userId → (a ∈ s'.assignments ↔ a ∈ s.assignments)) ∧
      (outcome = .unchanged ↔ ∃ userId, s.HasAccount request.username userId ∧ s.Canonical permissions userId) ∧
      (¬ HasMutation t ↔ ∃ userId, s.HasAccount request.username userId ∧ s.Canonical permissions userId) ∧
      ∀ context' t₂ r₂ s₂, Run (reconcile config { request with context := context' }) t₂ r₂ →
        Path (server.step context'.deadline) s' t₂ s₂ → r₂ = .ok .unchanged ∧ ¬ HasMutation t₂ := by
  refine ⟨exists_run hanswers, fun t r s' hrun hpath => ?_⟩
  obtain ⟨outcome, rfl, hreconciled⟩ :=
    served_reconcile request hinit hversion hpayload hnonempty hsuits t r s' hrun (hpath.mono hserve)
  have hmutation {c : ReconciliationOutcome} {req : AdapterRequest} {t : Trace}
      (h : Run (reconcile config req) t (.ok c)) : ¬ HasMutation t ↔ c = .unchanged := by
    obtain ⟨_, _, _, _, _, _, _, _, _, _, _, hchanged⟩ := reconcile_success h
    rw [← hchanged]
    cases c <;> simp
  refine ⟨outcome, rfl, hreconciled.canonical, hreconciled.unchanged, (hmutation hrun).trans hreconciled.unchanged, ?_⟩
  intro context' t₂ r₂ s₂ hrun₂ hpath₂
  obtain ⟨outcome₂, rfl, hreconciled₂⟩ :=
    served_reconcile { request with context := context' } hinit hversion hpayload hnonempty hreconciled.suits t₂ r₂ s₂
      hrun₂ hpath₂
  obtain ⟨userId, haccount, hcanonical, _⟩ := hreconciled.canonical
  obtain rfl := hreconciled₂.unchanged.mpr ⟨userId, haccount, hcanonical⟩
  exact ⟨rfl, (hmutation hrun₂).mpr rfl⟩

theorem sample_converges : ∃ t s', Run (reconcile sampleConfig grantRequest) t (.ok .changed) ∧ HasMutation t ∧
    Path (sampleServer.Serves 100) grantStore t s' ∧ ∃ u, s'.HasAccount "ada" u ∧
      s'.Canonical [⟨"A", "P", true⟩] u ∧ ∀ a, a.usersId ≠ u → (a ∈ s'.assignments ↔ a ∈ grantStore.assignments) := by
  obtain ⟨t, s', hrun, hpath⟩ := grant_changed
  obtain ⟨_, hall⟩ := reconcile_converges grantRequest (fun _ _ _ h => h.step)
    (fun _ _ _ hp ha => convergent_grantStore.answers hp ha) (by rfl) rfl rfl
    convergent_grantStore.named convergent_grantStore.suits
  obtain ⟨outcome, hr, hcanonical, hout, hmutation, _⟩ := hall t _ s' hrun hpath
  cases hr
  refine ⟨t, s', hrun, ?_, hpath, hcanonical⟩
  by_contra hno
  have := hout.mpr (hmutation.mp hno)
  cases this

end PermissionSync.Glpi

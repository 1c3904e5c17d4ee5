import PermissionSync.Glpi.Lemmas.Calls

/-!
# What the traces of every stage have in common

A stage polls, sends requests that each get their own deadline, and stops at the first answer it does not accept.
A property of traces that fits these pieces (`Admits`) therefore fits the traces of every stage.
-/

namespace PermissionSync.Glpi

open PermissionSync.Base PermissionSync.Wire

/-- The `uid`s the adapter requires of an itemtype. -/
def Itemtype.requiredUids : Itemtype → List String
  | .entity => requiredEntityUids
  | .profile => requiredProfileUids
  | .user => requiredUserUids
  | .profileUser => requiredProfileUserUids

/-- The response passes the checks that its request alone makes on it. -/
def Accepts : Request → RawResponse → Prop
  | .initSession, response => ∃ session, readInitSession response = .ok session
  | .changeActiveEntities, response => readTrue .incompleteVisibility response = .ok ()
  | .getFullSession, response => readVisibility response = .ok ()
  | .killSession, response => readTrue .cleanupFailed response = .ok ()
  | .listSearchOptions itemtype, response => ∃ options, readSearchOptions itemtype.requiredUids response = .ok options
  | .search query, response => ∃ page rows,
      parseSearchPage response.body query.rangeStart query.rangeEnd = .ok page ∧
        response.status = page.expectedStatus ∧ page.data.mapM parseRow = .ok rows
  | .getProfileUser id, response => ∃ item, readItem id response = .ok item
  | .postUser _ _, response => ∃ id, readCreatedUser response = .ok id
  | .postProfileUser _ _ _ _, response => ∃ id, readCreatedAssignment response = .ok id
  | .deleteProfileUser id, response => readDeletedAssignment id response = .ok ()

/-- The properties `P` and `Q` of returning and failing traces fit the requests in `S`. -/
structure Admits (config : ValidatedConfig) (context : SynchronizationContext) (S : Request → Prop)
    (P Q : Trace → Prop) : Prop extends Composable P Q where
  checked : ∀ n, n < context.deadline → P [polled false, clock n]
  cancelled : Q [polled true]
  expired : ∀ n, context.deadline ≤ n → Q [polled false, clock n]
  accepted : ∀ r hs n response, S r → n < context.deadline → Accepts r response →
    P (callTrace config context r hs n (.ok response))
  answered : ∀ r hs n answer, S r → n < context.deadline → Q (callTrace config context r hs n answer)

variable {config : ValidatedConfig} {context : SynchronizationContext} {session : GlpiSession}
variable {S : Request → Prop} {P Q : Trace → Prop}

/-! ## Single requests -/

theorem checkContext_sat (h : Admits config context S P Q) : (checkContext context.deadline).Sat P Q := by
  intro t r hr
  rcases run_checkContext.mp hr with ⟨rfl, rfl⟩ | ⟨n, rfl, rfl⟩
  · exact ⟨fun _ ha => (by cases ha), fun _ _ => h.cancelled⟩
  · split
    · exact ⟨fun _ ha => (by cases ha), fun _ _ => h.expired n ‹_›⟩
    · exact ⟨fun _ _ => h.checked n (not_le.mp ‹_›), fun _ he => (by cases he)⟩

theorem timed_sat {α : Type} (h : Admits config context S P Q) {request : Request}
    {headers : Except GlpiFailure Headers} {read : RawResponse → Except GlpiFailure α} (hS : S request)
    (hread : ∀ response a, read response = .ok a → Accepts request response) :
    (timed config context (exchange request headers read)).Sat P Q := by
  intro t r hr
  rcases run_timed.mp hr with ⟨rfl, rfl⟩ | ⟨n, hn, rfl, rfl⟩ | ⟨n, e, hn, _, rfl, rfl⟩ |
    ⟨n, hs, answer, hn, _, rfl, rfl⟩
  · exact ⟨fun _ ha => (by cases ha), fun _ _ => h.cancelled⟩
  · exact ⟨fun _ ha => (by cases ha), fun _ _ => h.expired n hn⟩
  · exact ⟨fun _ ha => (by cases ha), fun _ _ => h.appendFail (h.checked n hn) h.fail⟩
  · refine ⟨fun a ha => ?_, fun _ _ => h.answered request hs n answer hS hn⟩
    obtain ⟨response, rfl, hok⟩ := bind_eq_ok.mp ha
    exact h.accepted request hs n response hS hn (hread response a hok)

/-- A fetched response that the continuation accepts only when the request does. -/
theorem fetch_sat {α : Type} (h : Admits config context S P Q) {request : Request} {f : RawResponse → Io α}
    (hS : S request) (haccept : ∀ response, Accepts request response → (f response).Sat P Q)
    (hrefuse : ∀ response, ¬ Accepts request response → ∃ e, f response = .fail e) :
    (fetch config session request context >>= f).Sat P Q := by
  intro t r hr
  rcases run_bind.mp hr with ⟨e, hf, rfl⟩ | ⟨response, t₁, t₂, rfl, hf, hk⟩
  · refine ⟨fun _ ha => (by cases ha), fun _ _ => ?_⟩
    rcases run_fetch.mp hf with ⟨_, _, rfl, _⟩ | ⟨hs, _, ⟨rfl, _⟩ | ⟨n, hn, rfl, _⟩ | ⟨n, hn, rfl⟩⟩
    · exact h.fail
    · exact h.cancelled
    · exact h.expired n hn
    · exact h.answered request hs n _ hS hn
  · obtain ⟨n, hs, hn, _, rfl⟩ := run_fetch_ok.mp hf
    by_cases ha : Accepts request response
    · have hp := h.accepted request hs n response hS hn ha
      exact ⟨fun b hb => h.append hp ((haccept response ha _ _ hk).1 b hb),
        fun e he => h.appendFail hp ((haccept response ha _ _ hk).2 e he)⟩
    · obtain ⟨e, he⟩ := hrefuse response ha
      rw [he] at hk
      obtain ⟨rfl, rfl⟩ := run_fail.mp hk
      refine ⟨fun _ hb => (by cases hb), fun _ _ => ?_⟩
      rw [List.append_nil]
      exact h.answered request hs n _ hS hn

/-- The trace sends requests of `S` only. -/
def Sends (S : Request → Prop) (t : Trace) : Prop := ∀ e ∈ t, ∀ r, sent e = some r → S r

theorem sends_append {t₁ t₂ : Trace} : Sends S (t₁ ++ t₂) ↔ Sends S t₁ ∧ Sends S t₂ := by
  constructor
  · exact fun h => ⟨fun e he => h e (List.mem_append_left _ he), fun e he => h e (List.mem_append_right _ he)⟩
  · rintro ⟨h₁, h₂⟩ e he
    rcases List.mem_append.mp he with he | he
    · exact h₁ e he
    · exact h₂ e he

theorem Sends.mono {S' : Request → Prop} {t : Trace} (h : Sends S t) (hS : ∀ r, S r → S' r) : Sends S' t :=
  fun e he r hr => hS r (h e he r hr)

theorem sends_callTrace {r : Request} {hs : Headers} {n : Instant} {answer : Except GlpiFailure RawResponse}
    (h : S r) : Sends S (callTrace config context r hs n answer) := by
  intro e he r' hr'
  simp only [callTrace, List.mem_cons, List.not_mem_nil, or_false] at he
  rcases he with rfl | rfl | rfl
  · cases hr'
  · cases hr'
  · cases hr'
    exact h

theorem sends_admits (config : ValidatedConfig) (context : SynchronizationContext) (S : Request → Prop) :
    Admits config context S (Sends S) (Sends S) where
  nil := by simp [Sends]
  append h₁ h₂ := sends_append.mpr ⟨h₁, h₂⟩
  fail := by simp [Sends]
  appendFail h₁ h₂ := sends_append.mpr ⟨h₁, h₂⟩
  checked _ _ := by simp [Sends]
  cancelled := by simp [Sends]
  expired _ _ := by simp [Sends]
  accepted _ _ _ _ hS _ _ := sends_callTrace hS
  answered _ _ _ _ hS _ := sends_callTrace hS

/-! ## Reads -/

theorem accepts_of_pageTurn {spec : SearchSpec} {state : SearchState} {stop : Nat} {response : RawResponse}
    {turn : Turn} (h : pageTurn state stop response = .ok turn) :
    Accepts (.search (spec.query state.start stop)) response := by
  simp only [pageTurn, bind_eq_ok, ensure_eq_ok] at h
  obtain ⟨page, hpage, _, hstatus, _, _, rows, hrows, _⟩ := h
  exact ⟨page, rows, hpage, hstatus, hrows⟩

theorem searchLoop_sat (h : Admits config context S P Q) (hS : ∀ q, S (.search q)) (spec : SearchSpec)
    (state : SearchState) : (searchLoop config session spec context state).Sat P Q := by
  induction state using SearchState.later_induction with
  | step state ih =>
      rw [searchLoop_eq]
      split
      · exact .fail h.toComposable
      · rename_i stop hstop
        refine fetch_sat h (hS _) (fun response _ => ?_) fun response hrefuse => ?_
        · split
          · exact .fail h.toComposable
          · exact .pure h.toComposable
          · rename_i next hturn
            obtain ⟨hlt, hb⟩ := start_lt_of_more hturn
            exact ih next hlt hb
        · cases hturn : pageTurn state stop response with
          | error e => exact ⟨e, rfl⟩
          | ok turn => exact absurd (accepts_of_pageTurn hturn) hrefuse

theorem searchAllPages_sat (h : Admits config context S P Q) (hS : ∀ q, S (.search q)) (spec : SearchSpec) :
    (searchAllPages config session spec context).Sat P Q :=
  searchLoop_sat h hS spec _

theorem resolveExactId_sat (h : Admits config context S P Q) (hS : ∀ q, S (.search q)) {itemtype : Itemtype}
    {idField nameField : Nat} {selector : String} {allowZero : Bool} :
    (resolveExactId config session itemtype idField nameField selector allowZero context).Sat P Q :=
  .bind h.toComposable (searchAllPages_sat h hS _) fun _ =>
    .bind h.toComposable (.lift h.toComposable) fun _ => .lift h.toComposable

theorem resolveEntityId_sat (h : Admits config context S P Q) (hS : ∀ q, S (.search q)) {options : SearchOptions}
    {selector : String} : (resolveEntityId config session options selector context).Sat P Q :=
  .bind h.toComposable (.lift h.toComposable) fun _ =>
    .bind h.toComposable (.lift h.toComposable) fun _ => resolveExactId_sat h hS

theorem resolveProfileId_sat (h : Admits config context S P Q) (hS : ∀ q, S (.search q)) {options : SearchOptions}
    {selector : String} : (resolveProfileId config session options selector context).Sat P Q :=
  .bind h.toComposable (.lift h.toComposable) fun _ =>
    .bind h.toComposable (.lift h.toComposable) fun _ => resolveExactId_sat h hS

theorem resolveUserId_sat (h : Admits config context S P Q) (hS : ∀ q, S (.search q)) {options : SearchOptions}
    {username : String} : (resolveUserId config session options username context).Sat P Q := by
  have hc := h.toComposable
  refine .bind hc (.lift hc) fun _ => .bind hc (.lift hc) fun _ => ?_
  refine .bind hc (searchAllPages_sat h hS _) fun _ => .bind hc (searchAllPages_sat h hS _) fun _ => ?_
  exact .bind hc (.lift hc) fun _ => .bind hc (.lift hc) fun _ => .lift hc

theorem readProfileUserItem_sat (h : Admits config context S P Q) {id : Nat} (hS : S (.getProfileUser id)) :
    (readProfileUserItem config session id context).Sat P Q := by
  refine fetch_sat h hS (fun _ _ => .lift h.toComposable) fun response hrefuse => ?_
  cases hread : readItem id response with
  | error e => exact ⟨e, rfl⟩
  | ok item => exact absurd ⟨item, hread⟩ hrefuse

theorem readCurrentAssignments_sat (h : Admits config context S P Q) (hS : ∀ q, S (.search q))
    (hS' : ∀ id, S (.getProfileUser id)) {options : SearchOptions} {username : String} {userId : Nat} :
    (readCurrentAssignments config session options username userId context).Sat P Q := by
  have hc := h.toComposable
  refine .bind hc (.lift hc) fun _ => .bind hc (.lift hc) fun _ => ?_
  refine .bind hc (searchAllPages_sat h hS _) fun _ => .bind hc (.lift hc) fun ids => ?_
  refine .foldlM hc (fun current id => ?_) ids []
  exact .bind hc (readProfileUserItem_sat h (hS' id)) fun _ => .bind hc (.lift hc) fun _ => .pure hc

/-! ## The stages -/

/-- The requests that change nothing and do not begin or end the session. -/
def Request.isRead : Request → Bool
  | .changeActiveEntities | .getFullSession | .listSearchOptions _ | .search _ | .getProfileUser _ => true
  | _ => false

theorem resolveSearchOptions_sat (h : Admits config context S P Q) (hS : ∀ i, S (.listSearchOptions i))
    (itemtype : Itemtype) :
    (resolveSearchOptions config session itemtype itemtype.requiredUids context).Sat P Q :=
  timed_sat h (hS itemtype) fun _ options hread => ⟨options, hread⟩

theorem resolveOnce_sat (hc : Composable P Q) {known : Std.TreeMap String Nat} {selector : String}
    {resolve : String → Io Nat} (hr : (resolve selector).Sat P Q) : (resolveOnce known selector resolve).Sat P Q :=
  .ite (.pure hc) (.bind hc hr fun _ => .pure hc)

theorem prepare_sat (h : Admits config context S P Q) (hS : ∀ r, r.isRead = true → S r)
    {desired : List CanonicalAssignment} : (prepare config session desired context).Sat P Q := by
  have hc := h.toComposable
  have hsearch : ∀ q, S (.search q) := fun q => hS _ rfl
  have hoptions (i : Itemtype) : (resolveSearchOptions config session i i.requiredUids context).Sat P Q :=
    resolveSearchOptions_sat h (fun i => hS (.listSearchOptions i) rfl) i
  have huser : (userSearchOptions config session context).Sat P Q :=
    .bind hc (hoptions .user) fun _ => .bind hc (hoptions .profileUser) fun _ => .pure hc
  refine .bind hc (timed_sat h (hS _ rfl) fun _ _ hread => hread) fun _ => ?_
  refine .bind hc (timed_sat h (hS _ rfl) fun _ _ hread => hread) fun _ => ?_
  refine .ite (.bind hc huser fun _ => .pure hc) ?_
  refine .bind hc (hoptions .entity) fun _ => .bind hc (hoptions .profile) fun _ => ?_
  refine .bind hc huser fun _ => .bind hc ?_ fun _ => .pure hc
  refine .foldlM hc (fun resolved assignment => ?_) _ _
  refine .bind hc (checkContext_sat h) fun _ =>
    .bind hc (resolveOnce_sat hc (resolveEntityId_sat h hsearch)) fun _ => ?_
  exact .bind hc (checkContext_sat h) fun _ => .bind hc (resolveOnce_sat hc (resolveProfileId_sat h hsearch)) fun _ =>
    .pure hc

theorem createUser_sat (h : Admits config context S P Q) {username : String} {source : AuthenticationSource}
    (hS : S (.postUser username source)) :
    (timed config context (createUser config session username source)).Sat P Q :=
  timed_sat h hS fun _ id hread => ⟨id, hread⟩

theorem synchronizedUser_sat (h : Admits config context S P Q) (hS : ∀ q, S (.search q)) {username : String}
    (hpost : S (.postUser username config.authenticationSource)) {options : SearchOptions} :
    (synchronizedUser config session options username context).Sat P Q := by
  have hc := h.toComposable
  refine .bind hc (resolveUserId_sat h hS) fun found => ?_
  cases found with
  | some id => exact .pure hc
  | none =>
      refine .bind hc (createUser_sat h hpost) fun _ => .bind hc (resolveUserId_sat h hS) fun _ => ?_
      exact .bind hc (.lift hc) fun _ => .pure hc

theorem removeAssignment_sat (h : Admits config context S P Q) {id n : Nat} (hS : S (.deleteProfileUser id)) :
    (removeAssignment config session context n id).Sat P Q :=
  .bind h.toComposable (timed_sat h hS fun _ _ hread => hread) fun _ => .pure h.toComposable

theorem addAssignment_sat (h : Admits config context S P Q) {userId n : Nat} {addition : Addition}
    (hS : S (.postProfileUser userId addition.profilesId addition.entitiesId addition.recursive)) :
    (addAssignment config session userId context n addition).Sat P Q :=
  .bind h.toComposable (timed_sat h hS fun _ id hread => ⟨id, hread⟩) fun _ => .pure h.toComposable

theorem verifyAssignments_sat (h : Admits config context S P Q) (hS : ∀ r, r.isRead = true → S r)
    {options : SearchOptions} {username : String} {userId : Nat} {desired : List DesiredAssignment} :
    (verifyAssignments config session options username userId desired context).Sat P Q := by
  have hc := h.toComposable
  refine .bind hc (checkContext_sat h) fun _ => .bind hc ?_ fun _ => .lift hc
  exact readCurrentAssignments_sat h (fun _ => hS _ rfl) fun _ => hS _ rfl

theorem reconcileAssignments_sat (h : Admits config context S P Q) (hS : ∀ r, r.isRead = true → S r)
    (hdelete : ∀ id, S (.deleteProfileUser id)) (hpost : ∀ u p e r, S (.postProfileUser u p e r))
    {references : References} {username : String} {desired : List CanonicalAssignment} {userId n : Nat} :
    (reconcileAssignments config session references username desired userId n context).Sat P Q := by
  have hc := h.toComposable
  refine .bind hc (readCurrentAssignments_sat h (fun _ => hS _ rfl) fun _ => hS _ rfl) fun _ => ?_
  refine .bind hc (.lift hc) fun _ => .bind hc ?_ fun _ => ?_
  · exact .bind hc (.foldlM hc (fun _ id => removeAssignment_sat h (hdelete id)) _ _) fun _ =>
      .foldlM hc (fun _ _ => addAssignment_sat h (hpost _ _ _ _)) _ _
  · exact .bind hc (verifyAssignments_sat h hS) fun _ => .pure hc

theorem acceptRequest_sat {request : AdapterRequest} (h : Admits config request.context S P Q) :
    (acceptRequest request).Sat P Q := by
  have hc := h.toComposable
  exact .bind hc (checkContext_sat h) fun _ => .bind hc (.lift hc) fun _ => .lift hc

theorem initSession_sat (h : Admits config context S P Q) (hS : S .initSession) :
    (timed config context (initSession config)).Sat P Q :=
  timed_sat h hS fun _ session hread => ⟨session, hread⟩

/-- The requests between the begin and the end of the session. -/
def Request.inSession : Request → Bool
  | .initSession | .killSession => false
  | _ => true

theorem inSession_of_isRead {r : Request} (h : r.isRead = true) : r.inSession = true := by
  cases r with
  | initSession | killSession => cases h
  | _ => rfl

theorem reconcileWithSession_sat (h : Admits config context S P Q) (hS : ∀ r, r.inSession = true → S r)
    {username : String} {desired : List CanonicalAssignment} :
    (reconcileWithSession config session username desired context).Sat P Q := by
  have hc := h.toComposable
  have hread : ∀ r, r.isRead = true → S r := fun r hr => hS r (inSession_of_isRead hr)
  refine .bind hc (prepare_sat h hread) fun _ => ?_
  refine .bind hc (synchronizedUser_sat h (fun _ => hS _ rfl) (hS _ rfl)) fun user => ?_
  exact reconcileAssignments_sat h hread (fun _ => hS _ rfl) fun _ _ _ _ => hS _ rfl

end PermissionSync.Glpi

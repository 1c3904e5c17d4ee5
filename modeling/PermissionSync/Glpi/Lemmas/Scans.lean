import PermissionSync.Glpi.Lemmas.Served
import PermissionSync.Glpi.Server.Sharing

/-!
# Searches while the tables change

The pages of a search are read at different instants. A row that is listed stays in front of the rows listed after it,
so the pages together are the list of the last instant, unless a row that was shown has gone.
-/

namespace PermissionSync.Glpi

open PermissionSync.Base PermissionSync.Wire

variable {config : ValidatedConfig} {context : SynchronizationContext} {session : GlpiSession} {server : Server}
variable {σ : Type} {env : σ → Event glpi → σ → Prop} {tables : σ → Store} {answered : Request → Bool} {s : σ}

/-- Accounts are only added, and the delivered answers to some requests are the documented ones of their instant. -/
structure Server.Informs (server : Server) (tables : σ → Store) (answered : Request → Bool)
    (env : σ → Event glpi → σ → Prop) : Prop where
  grows : ∀ s e s', env s e s' → (tables s).AccountsGrow (tables s')
  answers : ∀ s call response s', env s (exchanged call (.ok response)) s' → answered call.request = true →
    server.Answers (tables s') call.request response (tables s')

/-! ## Single requests -/

theorem path_callTrace {request : Request} {hs : Headers} {n : Instant} {answer : Except GlpiFailure RawResponse}
    {s' : σ} {P : σ → Prop} (hstep : ∀ s e s', P s → env s e s' → P s') (h₀ : P s)
    (h : Path env s (callTrace config context request hs n answer) s') :
    ∃ m call, call.request = request ∧ P m ∧ P s' ∧ env m (exchanged call answer) s' := by
  obtain ⟨s₁, h₁, h⟩ := path_cons.mp h
  obtain ⟨s₂, h₂, h⟩ := path_cons.mp h
  obtain ⟨s₃, h₃, h⟩ := path_cons.mp h
  have hm := hstep _ _ _ (hstep _ _ _ h₀ h₁) h₂
  rw [path_nil.mp h]
  exact ⟨s₂, _, rfl, hm, hstep _ _ _ hm h₃, h₃⟩

theorem ensures_fetch {request : Request} {P : σ → Prop} {Q : RawResponse → σ → Prop}
    (hstep : ∀ s e s', P s → env s e s' → P s') (h₀ : P s)
    (h : ∀ m call response s', call.request = request → P s' → env m (exchanged call (.ok response)) s' →
      Q response s') :
    Ensures env s (fetch config session request context) Q := by
  intro t response s' hr hpath
  obtain ⟨n, hs, _, _, rfl⟩ := run_fetch_ok.mp hr
  obtain ⟨m, call, hcall, _, hP, henv⟩ := path_callTrace hstep h₀ hpath
  exact h m call response s' hcall hP henv

theorem ensures_timed {α : Type} {request : Request} {headers : Except GlpiFailure Headers}
    {read : RawResponse → Except GlpiFailure α} {P : σ → Prop} {Q : α → σ → Prop}
    (hstep : ∀ s e s', P s → env s e s' → P s') (h₀ : P s)
    (h : ∀ m call response s' a, call.request = request → P m → P s' → env m (exchanged call (.ok response)) s' →
      read response = .ok a → Q a s') :
    Ensures env s (timed config context (exchange request headers read)) Q := by
  intro t a s' hr hpath
  obtain ⟨n, hs, response, _, _, hread, rfl⟩ := run_timed_ok.mp hr
  obtain ⟨m, call, hcall, hm, hP, henv⟩ := path_callTrace hstep h₀ hpath
  exact h m call response s' a hcall hm hP henv hread

theorem ensures_resolveSearchOptions (hinf : server.Informs tables answered env) (itemtype : Itemtype)
    (hanswered : answered (.listSearchOptions itemtype) = true) :
    Ensures env s (resolveSearchOptions config session itemtype itemtype.requiredUids context)
      fun options _ => OptionsOf server itemtype options := by
  refine ensures_timed (P := fun _ => True) (fun _ _ _ _ _ => trivial) trivial ?_
  intro m call response s' options hcall _ _ henv hread
  have hdoc := hinf.answers m call response s' henv (hcall ▸ hanswered)
  rw [hcall] at hdoc
  have huids : itemtype.requiredUids = [itemtype.idUid, itemtype.nameUid] := by cases itemtype <;> rfl
  obtain ⟨options', hread', hrequire⟩ := readSearchOptions_of server.optionBound hdoc.2
  rw [huids, hread'] at hread
  cases hread
  exact ⟨hrequire _ (by simp), hrequire _ (by simp)⟩

/-! ## Searches -/

/-- What a search has shown stays in front of its list, or has partly gone. -/
structure Steady (env : σ → Event glpi → σ → Prop) (l : σ → List (Nat × String))
    (gone : List (Nat × String) → σ → Prop) : Prop where
  front : ∀ xs s e s', env s e s' → xs <+: l s → xs <+: l s' ∨ gone xs s'
  stays : ∀ xs s e s', env s e s' → gone xs s → gone xs s'
  more : ∀ xs ys s, gone xs s → gone (xs ++ ys) s

/-- What the loop has collected before it asks for the page at its start. -/
structure Scanned (idField nameField : Nat) (l : σ → List (Nat × String)) (gone : List (Nat × String) → σ → Prop)
    (state : SearchState) (xs : List (Nat × String)) (s : σ) : Prop where
  rows : List.Forall₂ (Shows idField nameField) xs state.rows
  length : xs.length = state.start
  front : xs <+: l s ∨ gone xs s

variable {idField nameField : Nat} {l : σ → List (Nat × String)} {gone : List (Nat × String) → σ → Prop}

theorem Scanned.step (hsteady : Steady env l gone) {state : SearchState} {xs : List (Nat × String)} {e : Event glpi}
    {s' : σ} (h : Scanned idField nameField l gone state xs s) (henv : env s e s') :
    Scanned idField nameField l gone state xs s' := by
  refine ⟨h.rows, h.length, ?_⟩
  rcases h.front with hfront | hgone
  · exact hsteady.front xs s e s' henv hfront
  · exact Or.inr (hsteady.stays xs s e s' henv hgone)

/-- A documented page extends what is collected, or completes it. -/
theorem Scanned.turn (hsteady : Steady env l gone) {state : SearchState} {xs : List (Nat × String)} {stop : Nat}
    {response : RawResponse} {turn : Turn} (h : Scanned idField nameField l gone state xs s)
    (hl : (l s).length < u64Bound) (hids : ∀ x ∈ l s, x.1 < u64Bound) (hstop : state.start ≤ stop)
    (hpage : PageOf idField nameField (l s) state.start stop response)
    (hturn : pageTurn state stop response = .ok turn) :
    (∃ rows ys, turn = .done rows ∧ List.Forall₂ (Shows idField nameField) ys rows ∧ (ys = l s ∨ gone ys s)) ∨
      ∃ next ys, turn = .more next ∧ Scanned idField nameField l gone next ys s := by
  obtain ⟨hin, htotal⟩ := inRange_of_pageTurn hpage hstop hl hturn
  have hrows : state.rows.length = state.start := h.rows.length_eq.symm.trans h.length
  obtain ⟨new, hnew, hturn'⟩ := pageTurn_of hpage hin hstop hl
    (fun x hx _ hrow => parseRow_of hrow (hids x hx)) hrows htotal
  have hall := List.rel_append h.rows hnew
  have hlength : (xs ++ slice (l s) state.start stop).length = state.start + (slice (l s) state.start stop).length := by
    rw [List.length_append, h.length]
  have hfront : xs ++ slice (l s) state.start stop <+: l s ∨ gone (xs ++ slice (l s) state.start stop) s := by
    refine h.front.imp (fun hpre => ?_) (hsteady.more _ _ _)
    rw [List.prefix_iff_eq_take.mp hpre, h.length, take_append_slice]
    exact List.take_prefix _ _
  rw [hturn] at hturn'
  by_cases hdone : state.start + (slice (l s) state.start stop).length = (l s).length
  · rw [if_pos hdone] at hturn'
    exact Or.inl ⟨_, _, Except.ok.inj hturn', hall, hfront.imp_left fun hpre =>
      hpre.eq_of_length (hlength.trans hdone)⟩
  · rw [if_neg hdone] at hturn'
    exact Or.inr ⟨_, _, Except.ok.inj hturn', hall, hlength, hfront⟩

section

variable {itemtype : Itemtype} {selector : String} {isDeleted : Option Bool}

theorem ensures_searchLoop (hinf : server.Informs tables answered env)
    (hanswered : ∀ start stop,
      answered (.search ((server.narrowed itemtype selector isDeleted).query start stop)) = true)
    (hsteady : Steady env (fun s => server.hits (tables s) itemtype selector isDeleted) gone) {state : SearchState}
    {xs : List (Nat × String)} (h : Scanned (server.idOption itemtype) (server.nameOption itemtype)
      (fun s => server.hits (tables s) itemtype selector isDeleted) gone state xs s) :
    Ensures env s (searchLoop config session (server.narrowed itemtype selector isDeleted) context state) fun rows s' =>
      ∃ ys, List.Forall₂ (Shows (server.idOption itemtype) (server.nameOption itemtype)) ys rows ∧
        (ys = server.hits (tables s') itemtype selector isDeleted ∨ gone ys s') := by
  have hbound : keyBound < u64Bound := by decide
  induction state using SearchState.later_induction generalizing xs s with
  | step state ih =>
      rw [searchLoop_eq]
      cases hstop : checkedAdd state.start (pageSize - 1) with
      | none => exact .fail
      | some stop =>
          obtain ⟨rfl, _⟩ := checkedAdd_eq_some.mp hstop
          refine .bind (ensures_fetch (fun s e s' hP henv => Scanned.step hsteady hP henv) h ?_)
          intro m call response s' hcall hscanned henv
          have hdoc := hinf.answers m call response s' henv (hcall ▸ hanswered _ _)
          rw [hcall] at hdoc
          have hlen := server.hits_length (tables s') itemtype selector isDeleted
          cases hturn : pageTurn state (state.start + (pageSize - 1)) response with
          | error e => exact .fail
          | ok turn =>
              rcases hscanned.turn hsteady (by omega) (fun x hx => lt_u64Bound_of_lt_keyBound
                ((tables s').listed_lt (Server.mem_hits hx))) (Nat.le_add_right _ _)
                (hdoc.2 (server.byName _ _ _ _ _)) hturn with ⟨rows, ys, rfl, hrows, hall⟩ | ⟨next, ys, rfl, hnext⟩
              · exact .pure ⟨ys, hrows, hall⟩
              · obtain ⟨hlater, hnextBound⟩ := start_lt_of_more hturn
                exact ih next hlater hnextBound hnext

/-- The pages of a search show the list of the instant of the last page, unless something they show has gone. -/
theorem ensures_searchAllPages (hinf : server.Informs tables answered env)
    (hanswered : ∀ start stop,
      answered (.search ((server.narrowed itemtype selector isDeleted).query start stop)) = true)
    (hsteady : Steady env (fun s => server.hits (tables s) itemtype selector isDeleted) gone) :
    Ensures env s (searchAllPages config session (server.narrowed itemtype selector isDeleted) context) fun rows s' =>
      ∃ ys, List.Forall₂ (Shows (server.idOption itemtype) (server.nameOption itemtype)) ys rows ∧
        (ys = server.hits (tables s') itemtype selector isDeleted ∨ gone ys s') :=
  ensures_searchLoop hinf hanswered hsteady ⟨.nil, rfl, Or.inl List.nil_prefix⟩

theorem Server.hits_sorted (server : Server) (s : Store) (itemtype : Itemtype) (selector : String)
    (isDeleted : Option Bool) : (server.hits s itemtype selector isDeleted).Pairwise fun x y => x.1 < y.1 :=
  sortByKey_lt Prod.fst ((s.listed_nodup itemtype isDeleted).sublist (List.filter_sublist.map _))

theorem Server.mem_hits_iff {s : Store} {x : Nat × String} : x ∈ server.hits s itemtype selector isDeleted ↔
    x ∈ s.listed itemtype isDeleted ∧ server.finds itemtype (exactSearchQueryValue selector) x.1 x.2 = true := by
  rw [Server.hits, mem_sortByKey, List.mem_filter]

end

end PermissionSync.Glpi

import PermissionSync.Base.Path
import PermissionSync.Glpi.Lemmas.Pages

/-!
# Reads that a documented server answers

Against a server that answers as documented every read of the adapter returns what the store holds.
-/

namespace PermissionSync.Glpi

open PermissionSync.Base PermissionSync.Wire

variable {config : ValidatedConfig} {context : SynchronizationContext} {session : GlpiSession}
variable {server : Server} {s : Store} {hs : Headers}

/-! ## Single requests -/

theorem served_checkContext :
    Served (server.step context.deadline) s (checkContext context.deadline) fun _ s' => s' = s := by
  intro t r s' hr hpath
  rcases run_checkContext.mp hr with ⟨rfl, _⟩ | ⟨n, rfl, rfl⟩
  · obtain ⟨_, ⟨_, hb⟩, _⟩ := path_cons.mp hpath
    cases hb
  · obtain ⟨s₁, ⟨h₁, _⟩, hrest⟩ := path_cons.mp hpath
    obtain ⟨s₂, ⟨h₂, hn⟩, hnil⟩ := path_cons.mp hrest
    have hlt : ¬ context.deadline ≤ n := not_le.mpr hn
    exact ⟨(), by rw [if_neg hlt], by rw [path_nil.mp hnil, h₂, h₁]⟩

theorem served_effectiveDeadline :
    Served (server.step context.deadline) s (effectiveDeadline context config.operationTimeout)
      fun _ s' => s' = s := by
  intro t r s' hr hpath
  rcases run_effectiveDeadline.mp hr with ⟨rfl, _⟩ | ⟨n, rfl, rfl⟩
  · obtain ⟨_, ⟨_, hb⟩, _⟩ := path_cons.mp hpath
    cases hb
  · obtain ⟨s₁, ⟨h₁, _⟩, hrest⟩ := path_cons.mp hpath
    obtain ⟨s₂, ⟨h₂, hn⟩, hnil⟩ := path_cons.mp hrest
    have hlt : ¬ context.deadline ≤ n := not_le.mpr hn
    exact ⟨_, by rw [if_neg hlt], by rw [path_nil.mp hnil, h₂, h₁]⟩

theorem served_send {call : Outbound} {Q : RawResponse → Store → Prop}
    (h : ∀ response s', server.Answers s call.request response s' → Q response s') :
    Served (server.step context.deadline) s (send call) Q := by
  intro t r s' hr hpath
  rw [run_send.mp hr] at hpath
  obtain ⟨s₁, ⟨response, hanswer, hs₁⟩, hnil⟩ := path_cons.mp hpath
  cases hanswer
  rw [path_nil.mp hnil]
  exact ⟨response, rfl, h response s₁ hs₁⟩

theorem served_timed {α : Type} {request : Request} {headers : Except GlpiFailure Headers}
    {read : RawResponse → Except GlpiFailure α} {Q : α → Store → Prop} (hh : headers = .ok hs)
    (h : ∀ response s', server.Answers s request response s' → ∃ a, read response = .ok a ∧ Q a s') :
    Served (server.step context.deadline) s (timed config context (exchange request headers read)) Q := by
  refine .bind (served_effectiveDeadline.mono fun d s₁ hs₁ => .bind (.lift hh (.bind (served_send ?_))))
  intro response s' hs'
  rw [hs₁] at hs'
  obtain ⟨a, ha, hq⟩ := h response s' hs'
  exact .lift ha hq

theorem served_fetch {request : Request} {Q : RawResponse → Store → Prop}
    (hh : sessionHeaders session config = .ok hs)
    (h : ∀ response s', server.Answers s request response s' → Q response s') :
    Served (server.step context.deadline) s (fetch config session request context) Q := by
  refine .bind (.lift hh (.bind (served_effectiveDeadline.mono fun d s₁ hs₁ => served_send ?_)))
  rw [hs₁]
  exact h

/-! ## Searches -/

/-- The search for a selector, with the search options of the server. -/
def Server.narrowed (server : Server) (itemtype : Itemtype) (selector : String) (isDeleted : Option Bool) :
    SearchSpec :=
  narrowing itemtype (server.idOption itemtype) (server.nameOption itemtype) selector isDeleted

/-- What a search for a selector finds. -/
def Server.hits (server : Server) (s : Store) (itemtype : Itemtype) (selector : String) (isDeleted : Option Bool) :
    List (Nat × String) :=
  sortByKey Prod.fst ((s.listed itemtype isDeleted).filter fun x =>
    server.finds itemtype (exactSearchQueryValue selector) x.1 x.2)

theorem Server.byName (server : Server) (itemtype : Itemtype) (selector : String) (isDeleted : Option Bool)
    (start stop : Nat) : server.ByName ((server.narrowed itemtype selector isDeleted).query start stop) :=
  ⟨rfl, rfl, by simp [Server.narrowed, narrowing, SearchSpec.query],
    by simp [Server.narrowed, narrowing, SearchSpec.query]⟩

theorem Server.mem_hits {itemtype : Itemtype} {selector : String} {isDeleted : Option Bool} {x : Nat × String}
    (h : x ∈ server.hits s itemtype selector isDeleted) : x ∈ s.listed itemtype isDeleted := by
  rw [Server.hits, mem_sortByKey] at h
  exact List.mem_of_mem_filter h

theorem Server.hits_nodup (server : Server) (s : Store) (itemtype : Itemtype) (selector : String)
    (isDeleted : Option Bool) : ((server.hits s itemtype selector isDeleted).map Prod.fst).Nodup := by
  rw [Server.hits, ((sortByKey_perm _ _).map Prod.fst).nodup_iff]
  exact (s.listed_nodup itemtype isDeleted).sublist (List.filter_sublist.map _)

theorem Server.hits_length (server : Server) (s : Store) (itemtype : Itemtype) (selector : String)
    (isDeleted : Option Bool) : (server.hits s itemtype selector isDeleted).length ≤ keyBound := by
  have := length_le_keyBound (server.hits_nodup s itemtype selector isDeleted) fun i hi => by
    obtain ⟨x, hx, rfl⟩ := List.mem_map.mp hi
    exact s.listed_lt (Server.mem_hits hx)
  simpa using this

theorem take_append_slice {α : Type} (l : List α) (start stop : Nat) :
    l.take start ++ slice l start stop = l.take (start + (slice l start stop).length) := by
  rw [List.take_add, slice, List.length_take, ← List.take_take, List.take_length]

/-- What the loop has collected of a list before it asks for the page at its start. -/
structure Gathered {α : Type} (S : α → Row → Prop) (l : List α) (state : SearchState) : Prop where
  rows : List.Forall₂ S (l.take state.start) state.rows
  inRange : state.start = 0 ∨ state.start < l.length
  total : ∀ expected ∈ state.expectedTotal, expected = l.length

section

variable {α : Type} {R : α → Json → Prop} {S : α → Row → Prop} {l : List α} {state : SearchState}

theorem Gathered.length_rows (h : Gathered S l state) : state.rows.length = state.start := by
  have hlen := h.rows.length_eq
  have hin := h.inRange
  rw [List.length_take] at hlen
  omega

theorem Gathered.init (S : α → Row → Prop) (l : List α) : Gathered S l ⟨[], 0, none⟩ :=
  ⟨by simp, Or.inl rfl, by simp⟩

/-- One page extends what is collected, or completes it. -/
theorem Gathered.turn {stop : Nat} {response : RawResponse} (h : Gathered S l state) (hl : l.length < u64Bound)
    (hparse : ∀ x ∈ l, ∀ j, R x j → ∃ row, parseRow j = .ok row ∧ S x row) (hstop : state.start ≤ stop)
    (hpage : SliceOf R l state.start stop response) :
    (∃ rows, pageTurn state stop response = .ok (.done rows) ∧ List.Forall₂ S l rows) ∨
      ∃ next, pageTurn state stop response = .ok (.more next) ∧ Gathered S l next := by
  obtain ⟨new, hnew, hturn⟩ := pageTurn_of hpage h.inRange hstop hl hparse h.length_rows h.total
  have hall : List.Forall₂ S (l.take (state.start + (slice l state.start stop).length)) (state.rows ++ new) := by
    rw [← take_append_slice]
    exact List.rel_append h.rows hnew
  by_cases hdone : state.start + (slice l state.start stop).length = l.length
  · rw [if_pos hdone] at hturn
    rw [hdone, List.take_length] at hall
    exact Or.inl ⟨_, hturn, hall⟩
  · rw [if_neg hdone] at hturn
    have hlen := length_slice l state.start stop
    have hin := h.inRange
    exact Or.inr ⟨_, hturn, hall, Or.inr (by simp only; omega), by simp⟩

end

theorem served_searchLoop {itemtype : Itemtype} {selector : String} {isDeleted : Option Bool}
    (hh : sessionHeaders session config = .ok hs) {state : SearchState}
    (h : Gathered (Shows (server.idOption itemtype) (server.nameOption itemtype))
      (server.hits s itemtype selector isDeleted) state) :
    Served (server.step context.deadline) s
      (searchLoop config session (server.narrowed itemtype selector isDeleted) context state) fun rows s' => s' = s ∧
        List.Forall₂ (Shows (server.idOption itemtype) (server.nameOption itemtype))
          (server.hits s itemtype selector isDeleted) rows := by
  have hlen := server.hits_length s itemtype selector isDeleted
  have hbound : keyBound + pageSize < u64Bound := by decide
  have hids : ∀ x ∈ server.hits s itemtype selector isDeleted, x.1 < u64Bound := fun x hx =>
    lt_u64Bound_of_lt_keyBound (s.listed_lt (Server.mem_hits hx))
  induction state using SearchState.later_induction with
  | step state ih =>
      have hin := h.inRange
      have hstop : checkedAdd state.start (pageSize - 1) = some (state.start + (pageSize - 1)) :=
        checkedAdd_eq_some.mpr ⟨rfl, by omega⟩
      rw [searchLoop_eq, hstop]
      refine .bind (served_fetch hh fun response s' hanswer => ?_)
      obtain ⟨rfl, hpage⟩ := hanswer
      rcases h.turn (by omega) (fun x hx _ hrow => parseRow_of hrow (hids x hx)) (Nat.le_add_right _ _)
        (hpage (server.byName _ _ _ _ _)) with
        ⟨rows, hturn, hrows⟩ | ⟨next, hturn, hnext⟩
      · rw [hturn]
        exact .pure ⟨rfl, hrows⟩
      · rw [hturn]
        obtain ⟨hlater, hnextBound⟩ := start_lt_of_more hturn
        exact ih next hlater hnextBound hnext

/-- A search returns what the server finds, in the server's order. -/
theorem served_searchAllPages {itemtype : Itemtype} {selector : String} {isDeleted : Option Bool}
    (hh : sessionHeaders session config = .ok hs) :
    Served (server.step context.deadline) s
      (searchAllPages config session (server.narrowed itemtype selector isDeleted) context) fun rows s' => s' = s ∧
        List.Forall₂ (Shows (server.idOption itemtype) (server.nameOption itemtype))
          (server.hits s itemtype selector isDeleted) rows :=
  served_searchLoop hh (.init _ _)

/-! ## Exact matches -/

/-- The ids of the items that have the name. -/
def idsNamed (l : List (Nat × String)) (selector : String) : List Nat :=
  (l.filter fun x => x.2 = selector).map Prod.fst

theorem mem_idsNamed {l : List (Nat × String)} {selector : String} {i : Nat} :
    i ∈ idsNamed l selector ↔ (i, selector) ∈ l := by
  simp only [idsNamed, List.mem_map, List.mem_filter, decide_eq_true_eq]
  constructor
  · intro h
    obtain ⟨x, ⟨hx, rfl⟩, rfl⟩ := h
    exact hx
  · intro h
    exact ⟨_, ⟨h, rfl⟩, rfl⟩

theorem idsNamed_nodup {l : List (Nat × String)} (selector : String) (h : (l.map Prod.fst).Nodup) :
    (idsNamed l selector).Nodup :=
  h.sublist (List.filter_sublist.map _)

theorem exactId_of_shows {idField nameField : Nat} {x : Nat × String} {row : Row} {selector : String}
    {allowZero : Bool} {ids : List Nat} (h : Shows idField nameField x row) (hx : allowZero = true ∨ x.1 ≠ 0)
    (hnew : (ids ++ idsNamed [x] selector).Nodup) :
    exactId idField nameField selector allowZero ids row = .ok (ids ++ idsNamed [x] selector) := by
  rw [exactId, h.name, ok_bind]
  by_cases hname : x.2 = selector
  · have hmem : x.1 ∉ ids := by
      intro hmem
      exact (List.nodup_append.mp hnew).2.2 x.1 hmem x.1 (by simp [idsNamed, hname]) rfl
    simp [hname, h.id allowZero hx, hmem, idsNamed]
  · simp [hname, idsNamed]

theorem foldlM_exactId_of_shows {idField nameField : Nat} {l : List (Nat × String)} {rows : List Row}
    {selector : String} {allowZero : Bool} (ids : List Nat) (h : List.Forall₂ (Shows idField nameField) l rows)
    (hl : ∀ x ∈ l, allowZero = true ∨ x.1 ≠ 0) (hnew : (ids ++ idsNamed l selector).Nodup) :
    rows.foldlM (exactId idField nameField selector allowZero) ids = .ok (ids ++ idsNamed l selector) := by
  induction h generalizing ids with
  | nil => simp [idsNamed]
  | @cons x row l rows hrow hrows ih =>
      have hsplit : idsNamed (x :: l) selector = idsNamed [x] selector ++ idsNamed l selector := by
        simp only [idsNamed, ← List.map_append, ← List.filter_append, List.singleton_append]
      rw [hsplit, ← List.append_assoc] at hnew ⊢
      rw [List.foldlM_cons, exactId_of_shows hrow (hl x List.mem_cons_self) (List.nodup_append.mp hnew).1, ok_bind]
      exact ih _ (fun y hy => hl y (List.mem_cons_of_mem _ hy)) hnew

/-- The ids collected from the rows of a complete search are those of the items with the name. -/
theorem exactIds_of_shows {idField nameField : Nat} {l : List (Nat × String)} {rows : List Row} {selector : String}
    {allowZero : Bool} (h : List.Forall₂ (Shows idField nameField) l rows)
    (hl : ∀ x ∈ l, allowZero = true ∨ x.1 ≠ 0) (hnodup : (l.map Prod.fst).Nodup) :
    exactIds rows idField nameField selector allowZero = .ok (idsNamed l selector) := by
  simpa [exactIds] using foldlM_exactId_of_shows [] h hl (by simpa using idsNamed_nodup selector hnodup)

/-- A search for a selector finds all items that have it as their name. -/
theorem mem_idsNamed_hits {itemtype : Itemtype} {selector : String} {isDeleted : Option Bool} {i : Nat} :
    i ∈ idsNamed (server.hits s itemtype selector isDeleted) selector ↔
      (i, selector) ∈ s.listed itemtype isDeleted := by
  rw [mem_idsNamed, Server.hits, mem_sortByKey, List.mem_filter]
  simp [server.exact]

theorem served_exactIds {itemtype : Itemtype} {selector : String} {isDeleted : Option Bool} (allowZero : Bool)
    (hh : sessionHeaders session config = .ok hs) (hzero : allowZero = true ∨ itemtype ≠ .entity) :
    Served (server.step context.deadline) s
      (searchAllPages config session (server.narrowed itemtype selector isDeleted) context) fun rows s' => s' = s ∧
        exactIds rows (server.idOption itemtype) (server.nameOption itemtype) selector allowZero =
          .ok (idsNamed (server.hits s itemtype selector isDeleted) selector) := by
  refine (served_searchAllPages hh).mono fun rows s' h => ⟨h.1, ?_⟩
  refine exactIds_of_shows h.2 (fun x hx => ?_) (server.hits_nodup s itemtype selector isDeleted)
  exact hzero.imp_right (s.listed_pos (Server.mem_hits hx))

/-! ## Lookups -/

/-- The item with the name is the only one. -/
def OnlyNamed (l : List (Nat × String)) (name : String) (id : Nat) : Prop := ∀ i, (i, name) ∈ l ↔ i = id

theorem onlyMatch_of {l : List Nat} {id : Nat} (hnodup : l.Nodup) (h : ∀ i, i ∈ l ↔ i = id) :
    onlyMatch l = .ok id := by
  have : l = [id] := List.perm_singleton.mp ((List.perm_ext_iff_of_nodup hnodup (List.nodup_singleton id)).mpr
    (by simpa using h))
  simp [this, onlyMatch]

theorem served_resolveExactId {itemtype : Itemtype} {selector : String} {allowZero : Bool} {id : Nat}
    (hh : sessionHeaders session config = .ok hs) (hzero : allowZero = true ∨ itemtype ≠ .entity)
    (honly : OnlyNamed (s.listed itemtype none) selector id) :
    Served (server.step context.deadline) s
      (resolveExactId config session itemtype (server.idOption itemtype) (server.nameOption itemtype) selector allowZero
        context) fun a s' => s' = s ∧ a = id := by
  refine .bind ((served_exactIds allowZero hh hzero).mono fun rows s' h => .bind (.lift h.2 (.lift ?_ ⟨h.1, rfl⟩)))
  exact onlyMatch_of (idsNamed_nodup selector (server.hits_nodup s itemtype selector none))
    fun i => mem_idsNamed_hits.trans (honly i)

/-- The search options are those of the server. -/
def OptionsOf (server : Server) (itemtype : Itemtype) (options : SearchOptions) : Prop :=
  options.require itemtype.idUid = .ok (server.idOption itemtype) ∧
    options.require itemtype.nameUid = .ok (server.nameOption itemtype)

theorem served_resolveEntityId {options : SearchOptions} {selector : String} {id : Nat}
    (hh : sessionHeaders session config = .ok hs) (ho : OptionsOf server .entity options)
    (honly : OnlyNamed (s.listed .entity none) selector id) :
    Served (server.step context.deadline) s (resolveEntityId config session options selector context)
      fun a s' => s' = s ∧ a = id :=
  .bind (.lift ho.1 (.bind (.lift ho.2 (served_resolveExactId hh (Or.inl rfl) honly))))

theorem served_resolveProfileId {options : SearchOptions} {selector : String} {id : Nat}
    (hh : sessionHeaders session config = .ok hs) (ho : OptionsOf server .profile options)
    (honly : OnlyNamed (s.listed .profile none) selector id) :
    Served (server.step context.deadline) s (resolveProfileId config session options selector context)
      fun a s' => s' = s ∧ a = id :=
  .bind (.lift ho.1 (.bind (.lift ho.2 (served_resolveExactId hh (Or.inr (by simp)) honly))))

theorem served_resolveSearchOptions (itemtype : Itemtype) (hh : sessionHeaders session config = .ok hs) :
    Served (server.step context.deadline) s
      (resolveSearchOptions config session itemtype itemtype.requiredUids context)
      fun options s' => s' = s ∧ OptionsOf server itemtype options := by
  refine served_timed hh fun response s' hanswer => ?_
  obtain ⟨rfl, hdoc⟩ := hanswer
  have huids : itemtype.requiredUids = [itemtype.idUid, itemtype.nameUid] := by cases itemtype <;> rfl
  obtain ⟨options, hread, hrequire⟩ := readSearchOptions_of server.optionBound hdoc
  rw [huids]
  exact ⟨options, hread, rfl, hrequire _ (by simp), hrequire _ (by simp)⟩

end PermissionSync.Glpi

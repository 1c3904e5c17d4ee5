import PermissionSync.Glpi.Lemmas.Phases

/-!
# What a completed read has seen
-/

namespace PermissionSync.Glpi

open PermissionSync.Base PermissionSync.Wire

variable {config : ValidatedConfig} {context : SynchronizationContext} {session : GlpiSession}
variable {idField nameField : Nat} {selector : String} {allowZero : Bool}

/-! ## Exact matches -/

/-- The row shows the selector as its name. -/
def Row.Matches (nameField : Nat) (selector : String) (row : Row) : Prop :=
  requiredStringField row nameField = .ok selector

/-- What the ids collected from the rows are. -/
structure ExactIds (rows : List Row) (idField nameField : Nat) (selector : String) (allowZero : Bool)
    (ids : List Nat) : Prop where
  nodup : ids.Nodup
  mem : ∀ i, i ∈ ids ↔ ∃ row ∈ rows, row.Matches nameField selector ∧ numericId row idField allowZero = some i
  named : ∀ row ∈ rows, ∃ name, requiredStringField row nameField = .ok name
  valid : ∀ row ∈ rows, row.Matches nameField selector → ∃ i, numericId row idField allowZero = some i

theorem exactId_eq_ok {row : Row} {ids out : List Nat}
    (h : exactId idField nameField selector allowZero ids row = .ok out) :
    ∃ name, requiredStringField row nameField = .ok name ∧
      ((name ≠ selector ∧ out = ids) ∨
        ∃ i, name = selector ∧ numericId row idField allowZero = some i ∧
          out = if i ∈ ids then ids else ids ++ [i]) := by
  simp only [exactId, bind_eq_ok] at h
  obtain ⟨name, hname, h⟩ := h
  refine ⟨name, hname, ?_⟩
  split at h
  · simp only [bind_eq_ok, okOr_eq_ok, pure_eq_ok, Except.ok.injEq] at h
    obtain ⟨i, hi, rfl⟩ := h
    exact Or.inr ⟨i, ‹_›, hi, rfl⟩
  · cases h
    exact Or.inl ⟨‹_›, rfl⟩

/-- One row extends the characterisation of the rows before it. -/
theorem ExactIds.step {rows : List Row} {row : Row} {ids out : List Nat}
    (hids : ExactIds rows idField nameField selector allowZero ids)
    (h : exactId idField nameField selector allowZero ids row = .ok out) :
    ExactIds (rows ++ [row]) idField nameField selector allowZero out := by
  obtain ⟨name, hname, hout⟩ := exactId_eq_ok h
  have hmatch : row.Matches nameField selector ↔ name = selector := by
    rw [Row.Matches, hname, Except.ok.injEq]
  have hnamed : ∀ r ∈ rows ++ [row], ∃ name, requiredStringField r nameField = .ok name := by
    simp only [List.mem_append, List.mem_singleton]
    rintro r (hr | rfl)
    · exact hids.named r hr
    · exact ⟨name, hname⟩
  rcases hout with ⟨hne, rfl⟩ | ⟨i, rfl, hi, rfl⟩
  · have hno : ¬ row.Matches nameField selector := fun hm => hne (hmatch.mp hm)
    refine ⟨hids.nodup, fun j => ?_, hnamed, ?_⟩
    · simp [hids.mem, or_and_right, exists_or, hno]
    · simp only [List.mem_append, List.mem_singleton]
      rintro r (hr | rfl) hm
      · exact hids.valid r hr hm
      · exact absurd hm hno
  · have hyes : row.Matches nameField name := hmatch.mpr rfl
    refine ⟨?_, fun j => ?_, hnamed, ?_⟩
    · split
      · exact hids.nodup
      · rw [List.nodup_append]
        refine ⟨hids.nodup, List.nodup_singleton i, ?_⟩
        rintro a ha b hb rfl
        rw [List.mem_singleton] at hb
        exact absurd (hb ▸ ha) ‹_›
    · have hj : j ∈ (if i ∈ ids then ids else ids ++ [i]) ↔ j ∈ ids ∨ j = i := by
        split
        · constructor
          · exact Or.inl
          · rintro (hj | rfl) <;> assumption
        · simp
      rw [hj, hids.mem]
      simp [or_and_right, exists_or, hyes, hi, eq_comm]
    · simp only [List.mem_append, List.mem_singleton]
      rintro r (hr | rfl) hm
      · exact hids.valid r hr hm
      · exact ⟨i, hi⟩

theorem foldlM_exactId {rows done : List Row} {ids out : List Nat}
    (hids : ExactIds done idField nameField selector allowZero ids)
    (h : rows.foldlM (exactId idField nameField selector allowZero) ids = .ok out) :
    ExactIds (done ++ rows) idField nameField selector allowZero out := by
  induction rows generalizing done ids with
  | nil =>
      cases h
      simpa using hids
  | cons row rows ih =>
      rw [List.foldlM_cons, bind_eq_ok] at h
      obtain ⟨mid, hrow, hrest⟩ := h
      have := ih (hids.step hrow) hrest
      rwa [List.append_assoc] at this

/-- The collected ids are those of the exact matches, each once. -/
theorem exactIds_eq_ok {rows : List Row} {ids : List Nat}
    (h : exactIds rows idField nameField selector allowZero = .ok ids) :
    ExactIds rows idField nameField selector allowZero ids := by
  have hnil : ExactIds [] idField nameField selector allowZero [] := ⟨List.nodup_nil, by simp, by simp, by simp⟩
  have := foldlM_exactId hnil h
  rwa [List.nil_append] at this

/-! ## The rows of a user -/

/-- The item that was read for a row of the user. -/
def CurrentRow.item (row : CurrentRow) (userId : Nat) : ProfileUserItem :=
  { usersId := userId, profilesId := row.profilesId, entitiesId := row.entitiesId, isRecursive := row.isRecursive }

/-- The row was read, with this owner, by a request for its id. -/
def ReadAs (t : Trace) (userId : Nat) (row : CurrentRow) : Prop :=
  ∃ e ∈ t, Accepted (.getProfileUser row.id) (readItem row.id) (row.item userId) e

theorem run_readProfileUserItem_ok {id : Nat} {t : Trace} {item : ProfileUserItem} :
    Run (readProfileUserItem config session id context) t (.ok item) ↔
      ∃ n hs response, n < context.deadline ∧ sessionHeaders session config = .ok hs ∧
        readItem id response = .ok item ∧ t = callTrace config context (.getProfileUser id) hs n (.ok response) := by
  rw [readProfileUserItem, run_bind_ok]
  constructor
  · rintro ⟨response, t₁, t₂, rfl, hf, hl⟩
    obtain ⟨n, hs, hn, hh, rfl⟩ := run_fetch_ok.mp hf
    obtain ⟨rfl, hread⟩ := run_lift.mp hl
    exact ⟨n, hs, response, hn, hh, hread.symm, by simp⟩
  · rintro ⟨n, hs, response, hn, hh, hread, rfl⟩
    exact ⟨response, _, [], by simp, run_fetch_ok.mpr ⟨n, hs, hn, hh, rfl⟩, run_lift.mpr ⟨rfl, hread.symm⟩⟩

theorem row_eq_ok {item : ProfileUserItem} {userId id : Nat} {row : CurrentRow} :
    item.row userId id = .ok row ↔ row.id = id ∧ item = row.item userId := by
  obtain ⟨i, e, p, b⟩ := row
  obtain ⟨u, p', e', b'⟩ := item
  simp only [ProfileUserItem.row, CurrentRow.item, bind_eq_ok, ensure_eq_ok, pure_eq_ok, Except.ok.injEq,
    CurrentRow.mk.injEq, ProfileUserItem.mk.injEq]
  constructor
  · rintro ⟨_, rfl, rfl, rfl, rfl, rfl⟩
    exact ⟨rfl, rfl, rfl, rfl, rfl⟩
  · rintro ⟨rfl, rfl, rfl, rfl, rfl⟩
    exact ⟨(), rfl, rfl, rfl, rfl, rfl⟩

/-- The turn of one candidate appends the row that was read for it. -/
theorem run_readCandidate_ok {userId id : Nat} {current out : List CurrentRow} {t : Trace} :
    Run (readCandidate config session userId context current id) t (.ok out) ↔
      ∃ row, out = current ++ [row] ∧ row.id = id ∧
        Run (readProfileUserItem config session id context) t (.ok (row.item userId)) := by
  rw [readCandidate, run_bind_ok]
  constructor
  · rintro ⟨item, t₁, t₂, rfl, hread, hk⟩
    rcases run_lift_bind.mp hk with ⟨_, _, _, hr⟩ | ⟨row, hrow, hp⟩
    · cases hr
    · obtain ⟨rfl, ho⟩ := run_pure.mp hp
      obtain ⟨hid, rfl⟩ := row_eq_ok.mp hrow
      exact ⟨row, Except.ok.inj ho, hid, by simpa using hread⟩
  · rintro ⟨row, rfl, hid, hread⟩
    refine ⟨_, t, [], by simp, hread, run_lift_bind.mpr (Or.inr ⟨row, row_eq_ok.mpr ⟨hid, rfl⟩, ?_⟩)⟩
    exact run_pure.mpr ⟨rfl, rfl⟩

theorem run_readCandidates_ok {userId : Nat} {ids : List Nat} {current out : List CurrentRow} {t : Trace}
    (h : Run (ids.foldlM (readCandidate config session userId context) current) t (.ok out)) :
    ∃ new, out = current ++ new ∧ new.map CurrentRow.id = ids ∧ ∀ row ∈ new, ReadAs t userId row := by
  induction ids generalizing current t with
  | nil =>
      obtain ⟨rfl, ho⟩ := run_pure.mp h
      exact ⟨[], by simpa using ho, rfl, by simp⟩
  | cons id ids ih =>
      rw [List.foldlM_cons] at h
      obtain ⟨mid, t₁, t₂, rfl, hid, hrest⟩ := run_bind_ok.mp h
      obtain ⟨row, rfl, rfl, hread⟩ := run_readCandidate_ok.mp hid
      obtain ⟨n, hs, response, _, _, hitem, rfl⟩ := run_readProfileUserItem_ok.mp hread
      obtain ⟨new, rfl, hnew, hall⟩ := ih hrest
      refine ⟨row :: new, by simp, by simp [hnew], ?_⟩
      intro r hr
      rcases List.mem_cons.mp hr with rfl | hr
      · obtain ⟨e, he, hacc⟩ := accepted_mem_callTrace config context (.getProfileUser r.id) hs n hitem
        exact ⟨e, List.mem_append_left _ he, hacc⟩
      · obtain ⟨e, he, hacc⟩ := hall r hr
        exact ⟨e, List.mem_append_right _ he, hacc⟩

/-- The parts of a completed read: the search, the candidates it shows, and the items read for them. -/
theorem run_readCurrentAssignments_ok {options : SearchOptions} {username : String} {userId : Nat} {t : Trace}
    {current : List CurrentRow} :
    Run (readCurrentAssignments config session options username userId context) t (.ok current) ↔
      ∃ idField nameField rows ids t₁ t₂, options.require "Profile_User.id" = .ok idField ∧
        options.require "Profile_User.User.name" = .ok nameField ∧ t = t₁ ++ t₂ ∧
        Run (searchAllPages config session (narrowing .profileUser idField nameField username none) context) t₁
          (.ok rows) ∧
        exactIds rows idField nameField username false = .ok ids ∧
        Run (ids.foldlM (readCandidate config session userId context) []) t₂ (.ok current) := by
  rw [readCurrentAssignments]
  constructor
  · intro h
    rcases run_lift_bind.mp h with ⟨_, _, _, hr⟩ | ⟨idField, hid, h⟩
    · cases hr
    rcases run_lift_bind.mp h with ⟨_, _, _, hr⟩ | ⟨nameField, hname, h⟩
    · cases hr
    obtain ⟨rows, t₁, t₂, rfl, hsearch, h⟩ := run_bind_ok.mp h
    rcases run_lift_bind.mp h with ⟨_, _, _, hr⟩ | ⟨ids, hids, h⟩
    · cases hr
    exact ⟨idField, nameField, rows, ids, t₁, t₂, hid, hname, rfl, hsearch, hids, h⟩
  · rintro ⟨idField, nameField, rows, ids, t₁, t₂, hid, hname, rfl, hsearch, hids, h⟩
    refine run_lift_bind.mpr (Or.inr ⟨idField, hid, run_lift_bind.mpr (Or.inr ⟨nameField, hname, ?_⟩)⟩)
    exact Run.bind hsearch (run_lift_bind.mpr (Or.inr ⟨ids, hids, h⟩))

/-- The rows of a completed read have distinct ids; each was shown by the search with the exact username, and then
read with the resolved owner. -/
structure Reading (config : ValidatedConfig) (session : GlpiSession) (username : String) (userId : Nat)
    (context : SynchronizationContext) (t : Trace) (current : List CurrentRow) : Prop where
  nodup : (current.map CurrentRow.id).Nodup
  shown : ∃ idField nameField rows tSearch tItems, t = tSearch ++ tItems ∧
    Run (searchAllPages config session (narrowing .profileUser idField nameField username none) context) tSearch
      (.ok rows) ∧
    ∀ row ∈ current, (∃ shown ∈ rows, shown.Matches nameField username ∧
      numericId shown idField false = some row.id) ∧ ReadAs tItems userId row

theorem reading_of_run {options : SearchOptions} {username : String} {userId : Nat} {t : Trace}
    {current : List CurrentRow}
    (h : Run (readCurrentAssignments config session options username userId context) t (.ok current)) :
    Reading config session username userId context t current := by
  obtain ⟨idField, nameField, rows, ids, t₁, t₂, _, _, rfl, hsearch, hids, hitems⟩ :=
    run_readCurrentAssignments_ok.mp h
  have hspec := exactIds_eq_ok hids
  obtain ⟨_, rfl, rfl, hread⟩ := run_readCandidates_ok hitems
  refine ⟨hspec.nodup, idField, nameField, rows, t₁, t₂, rfl, hsearch, fun row hrow => ?_⟩
  exact ⟨(hspec.mem row.id).mp (List.mem_map_of_mem hrow), hread row hrow⟩

end PermissionSync.Glpi

import PermissionSync.Glpi.Lemmas.Documents
import PermissionSync.Glpi.Lemmas.Reads

/-!
# Reading the documented pages of a search
-/

namespace PermissionSync.Glpi

open PermissionSync.Base PermissionSync.Wire

/-! ## Search options -/

theorem searchOption_eq_some {uids : List String} {m : String × Json} {uid : String} {k : Nat} :
    searchOption uids m = some (uid, k) ↔ uidOf m.2 = some uid ∧ uid ∈ uids ∧ parseU64 m.1.toList = some k := by
  simp only [searchOption, uidOf, Option.bind_eq_bind, Option.bind_eq_some_iff, Option.some.injEq, Prod.mk.injEq]
  constructor
  · intro h
    obtain ⟨entry, he, u, ⟨v, hv, hs⟩, u', hu', k', hk', rfl, rfl⟩ := h
    have hu : u' = u := by simpa using List.find?_some hu'
    exact ⟨⟨v, ⟨entry, he, hv⟩, hu ▸ hs⟩, List.mem_of_find?_eq_some hu', hk'⟩
  · intro h
    obtain ⟨⟨v, ⟨entry, he, hv⟩, hs⟩, hmem, hk⟩ := h
    have hfind : uids.find? (· == uid) = some uid := by
      cases hf : uids.find? (· == uid) with
      | none => exact absurd (beq_self_eq_true uid) (List.find?_eq_none.mp hf uid hmem)
      | some u =>
          have : u = uid := by simpa using List.find?_some hf
          rw [this]
    exact ⟨entry, he, uid, ⟨v, hv, hs⟩, uid, hfind, k, hk, rfl, rfl⟩

/-- What the loop over the metadata has found after some members. -/
def OptionsFound (option : String → Nat) (uids : List String) (done : List (String × Json))
    (found : Std.TreeMap String Nat) : Prop :=
  ∀ uid k, found[uid]? = some k ↔ uid ∈ uids ∧ k = option uid ∧ ∃ m ∈ done, uidOf m.2 = some uid

theorem optionEntry_of {option : String → Nat} (hbound : ∀ uid, option uid < u64Bound) {uids : List String}
    {done : List (String × Json)} {m : String × Json} {found : Std.TreeMap String Nat}
    (hdoc : ∀ uid ∈ uids, ∀ m' ∈ done ++ [m], uidOf m'.2 = some uid → m'.1 = numeral (option uid))
    (hdistinct : Distinct (done ++ [m])) (hfound : OptionsFound option uids done found) :
    ∃ out, optionEntry uids found m = .ok out ∧ OptionsFound option uids (done ++ [m]) out := by
  have hfresh : m.1 ∉ done.map Prod.fst := by
    intro hmem
    simp only [Distinct, List.map_append] at hdistinct
    exact (List.nodup_append.mp hdistinct).2.2 m.1 hmem m.1 (by simp) rfl
  by_cases huid : ∃ uid ∈ uids, uidOf m.2 = some uid
  · obtain ⟨uid, hmem, hu⟩ := huid
    have hname := hdoc uid hmem m (by simp) hu
    have hoption : searchOption uids m = some (uid, option uid) :=
      searchOption_eq_some.mpr ⟨hu, hmem, by rw [hname, parseU64_numeral (hbound uid)]⟩
    have hnew : uid ∉ found := by
      intro hin
      obtain ⟨k, hk⟩ := Std.TreeMap.isSome_getElem?_iff_mem.mpr hin |> Option.isSome_iff_exists.mp
      obtain ⟨_, _, m', hm', hu'⟩ := (hfound uid k).mp hk
      exact hfresh (List.mem_map.mpr ⟨m', hm', (hdoc uid hmem m' (by simp [hm']) hu').trans hname.symm⟩)
    refine ⟨found.insert uid (option uid), by simp [optionEntry, hoption, ensure_of hnew], fun u k => ?_⟩
    rw [Std.TreeMap.getElem?_insert]
    simp only [List.mem_append, List.mem_singleton, or_and_right, exists_or, exists_eq_left]
    split
    · rename_i he
      cases Std.LawfulEqCmp.eq_of_compare he
      simp [hmem, hu, eq_comm]
    · rename_i he
      have hne : u ≠ uid := fun h => he (by simp [h])
      have : uidOf m.2 ≠ some u := fun h => hne (Option.some.inj (h.symm.trans hu))
      simp [hfound u k, this]
  · have hnone : searchOption uids m = none := by
      rw [Option.eq_none_iff_forall_ne_some]
      intro x hx
      obtain ⟨hu, hmem, _⟩ := searchOption_eq_some.mp hx
      exact huid ⟨x.1, hmem, hu⟩
    refine ⟨found, by simp [optionEntry, hnone], fun u k => ?_⟩
    rw [hfound u k]
    refine and_congr_right fun hu => and_congr_right fun _ => ?_
    have : uidOf m.2 ≠ some u := fun h => huid ⟨u, hu, h⟩
    simp [or_and_right, exists_or, this]

theorem foldlM_optionEntry {option : String → Nat} (hbound : ∀ uid, option uid < u64Bound) {uids : List String}
    {ms : List (String × Json)} (done : List (String × Json)) (found : Std.TreeMap String Nat)
    (hdoc : ∀ uid ∈ uids, ∀ m ∈ done ++ ms, uidOf m.2 = some uid → m.1 = numeral (option uid))
    (hdistinct : Distinct (done ++ ms)) (hfound : OptionsFound option uids done found) :
    ∃ out, ms.foldlM (optionEntry uids) found = .ok out ∧ OptionsFound option uids (done ++ ms) out := by
  induction ms generalizing done found with
  | nil => exact ⟨found, rfl, by simpa using hfound⟩
  | cons m ms ih =>
      rw [List.append_cons] at hdoc hdistinct ⊢
      have hpart : done ++ [m] <+: done ++ [m] ++ ms := List.prefix_append _ _
      obtain ⟨mid, hmid, hinv⟩ := optionEntry_of hbound (fun uid hu m' hm' => hdoc uid hu m' (hpart.subset hm'))
        (hdistinct.sublist (hpart.sublist.map _)) hfound
      obtain ⟨out, hout, hend⟩ := ih _ mid hdoc hdistinct hinv
      exact ⟨out, by rw [List.foldlM_cons, hmid, ok_bind, hout], hend⟩

/-- The documented metadata gives every required search option. -/
theorem readSearchOptions_of {option : String → Nat} (hbound : ∀ uid, option uid < u64Bound) {uids : List String}
    {response : RawResponse} (h : ListsOptions option uids response) :
    ∃ options, readSearchOptions uids response = .ok options ∧
      ∀ uid ∈ uids, options.require uid = .ok (option uid) := by
  obtain ⟨hstatus, ms, hjson, hms, hdoc⟩ := h
  obtain ⟨found, hfold, hfound⟩ := foldlM_optionEntry hbound [] ∅
    (fun uid hu m hm => (hdoc uid hu).2 m (by simpa using hm)) (by simpa using hms)
    (fun uid k => by simp)
  have hall (uid : String) (hu : uid ∈ uids) : found[uid]? = some (option uid) := by
    obtain ⟨entry, he, hentry⟩ := (hdoc uid hu).1
    exact (hfound uid _).mpr ⟨hu, rfl, _, by simpa using he, hentry⟩
  have hmem : ∀ uid ∈ uids, uid ∈ found := fun uid hu =>
    Std.TreeMap.isSome_getElem?_iff_mem.mp (by rw [hall uid hu]; rfl)
  refine ⟨⟨found⟩, ?_, fun uid hu => by simp [SearchOptions.require, hall uid hu]⟩
  simp [readSearchOptions, hstatus, hjson, asObject_obj hms, hfold, ensure_of hmem]

/-! ## Rows -/

/-- The row shows the id and the name of the item. -/
structure Shows (idField nameField : Nat) (x : Nat × String) (row : Row) : Prop where
  name : requiredStringField row nameField = .ok x.2
  id : ∀ allowZero, allowZero = true ∨ x.1 ≠ 0 → numericId row idField allowZero = some x.1

theorem foldlM_rowMember {ms : List (String × Json)} (done : List (String × Json)) (row : Row)
    (hkeys : ∀ m ∈ ms, ∃ field < u64Bound, m.1 = numeral field) (hdistinct : Distinct (done ++ ms))
    (hrow : ∀ field v, (numeral field, v) ∈ done → row[field]? = some v) :
    ∃ out, ms.foldlM rowMember row = .ok out ∧
      ∀ field v, (numeral field, v) ∈ done ++ ms → out[field]? = some v := by
  induction ms generalizing done row with
  | nil => exact ⟨row, rfl, by simpa using hrow⟩
  | cons m ms ih =>
      obtain ⟨field, hfield, hname⟩ := hkeys m List.mem_cons_self
      rw [List.append_cons] at hdistinct ⊢
      have hstep : ∀ f v, (numeral f, v) ∈ done ++ [m] → (row.insert field m.2)[f]? = some v := by
        intro f v hmem
        rw [Std.TreeMap.getElem?_insert]
        have hmem' : (numeral f, v) ∈ done ∨ (numeral f, v) = m := by simpa using hmem
        have hm : m ∈ done ++ [m] := by simp
        split
        · -- The key is the one of the new member, and members have distinct keys.
          rename_i he
          cases Std.LawfulEqCmp.eq_of_compare he
          have := List.inj_on_of_nodup_map (hdistinct.sublist ((List.sublist_append_left _ ms).map _)) hmem hm
            hname.symm
          rw [← this]
        · rename_i he
          rcases hmem' with hmem' | rfl
          · exact hrow f v hmem'
          · exact absurd (by rw [numeral_injective hname]; simp) he
      obtain ⟨out, hout, hend⟩ := ih _ _ (fun m' hm' => hkeys m' (List.mem_cons_of_mem _ hm')) hdistinct hstep
      refine ⟨out, ?_, hend⟩
      rw [List.foldlM_cons, rowMember, hname, parseU64_numeral hfield, okOr_some, ok_bind, pure_eq_ok, ok_bind, hout]

theorem parseRow_of {idField nameField : Nat} {x : Nat × String} {j : Json} (h : RowOf idField nameField x j)
    (hx : x.1 < u64Bound) : ∃ row, parseRow j = .ok row ∧ Shows idField nameField x row := by
  obtain ⟨ms, id, rfl, hms, hkeys, hid, hidv, hname⟩ := h
  obtain ⟨row, hfold, hrow⟩ := foldlM_rowMember [] ∅ hkeys (by simpa using hms) (by simp)
  refine ⟨row, by simp [parseRow, asObject_obj hms, hfold], ?_, fun allowZero hzero => ?_⟩
  · simp [requiredStringField, hrow nameField _ (by simpa using hname), Json.asStr]
  · have hfilter : (allowZero || x.1 != 0) = true := by simpa using hzero
    rcases hidv with rfl | rfl
    · simp [numericId, hrow idField _ (by simpa using hid), Json.nat, asU64_int hx, hfilter]
    · simp [numericId, hrow idField _ (by simpa using hid), parseU64_decimal hx, hfilter]

theorem mapM_parseRow {α : Type} {R : α → Json → Prop} {S : α → Row → Prop} {xs : List α} {rows : List Json}
    (h : List.Forall₂ R xs rows) (hparse : ∀ x ∈ xs, ∀ j, R x j → ∃ row, parseRow j = .ok row ∧ S x row) :
    ∃ out, rows.mapM parseRow = .ok out ∧ List.Forall₂ S xs out := by
  induction h with
  | nil => exact ⟨[], rfl, .nil⟩
  | cons hrow _ ih =>
      obtain ⟨row, hread, hshows⟩ := hparse _ List.mem_cons_self _ hrow
      obtain ⟨out, hout, hall⟩ := ih fun x hmem => hparse x (List.mem_cons_of_mem _ hmem)
      exact ⟨row :: out, by simp [hread, hout], .cons hshows hall⟩

/-! ## Pages -/

theorem parseContentRange_of {start count total : Nat} (htotal : total ≠ 0) (hs : start < u64Bound)
    (he : start + count - 1 < u64Bound) (ht : total < u64Bound) :
    parseContentRange (contentRangeOf start count total) = some (start, start + count - 1, total) := by
  have hslash : '/' ∉ decimal total := notMem_decimal (by decide)
  have hdash : '-' ∉ decimal start := notMem_decimal (by decide)
  have htext : (contentRangeOf start count total).toList =
      (decimal start ++ '-' :: decimal (start + count - 1)) ++ '/' :: decimal total := by
    simp [contentRangeOf, htotal]
  rw [parseContentRange, htext, rsplitOnce_append hslash]
  simp [splitOnce_append hdash, parseU64_decimal hs, parseU64_decimal he, parseU64_decimal ht]

theorem length_slice {α : Type} (l : List α) (start stop : Nat) :
    (slice l start stop).length = min (stop + 1 - start) (l.length - start) := by
  simp [slice]

theorem slice_subset {α : Type} {l : List α} {start stop : Nat} {x : α} (h : x ∈ slice l start stop) : x ∈ l :=
  List.mem_of_mem_drop (List.mem_of_mem_take h)

theorem slice_ne_nil {α : Type} {l : List α} {start stop : Nat} (hstart : start < l.length) (hstop : start ≤ stop) :
    0 < (slice l start stop).length := by
  rw [length_slice]
  omega

theorem decode_page {ms : List (String × Json)} {total count : Nat} {range : String} (hms : Distinct ms)
    (ht : ("totalcount", Json.nat total) ∈ ms) (hc : ("count", Json.nat count) ∈ ms)
    (hr : ("content-range", Json.str range) ∈ ms) (htotal : total < u64Bound) (hcount : count < u64Bound) :
    (∀ rows, ("data", Json.arr rows) ∈ ms → WireSearchPage.decode (.obj ms) = some ⟨total, count, range, some rows⟩) ∧
      ("data" ∉ ms.map Prod.fst → WireSearchPage.decode (.obj ms) = some ⟨total, count, range, none⟩) := by
  have hfields : structFields ["totalcount", "count", "content-range", "data"] false (.obj ms) = _ :=
    structFields_obj hms fun h => by cases h
  simp only [List.map_cons, List.map_nil, member_of_mem hms ht, member_of_mem hms hc, member_of_mem hms hr] at hfields
  constructor
  · intro rows hd
    rw [member_of_mem hms hd] at hfields
    simp [WireSearchPage.decode, hfields, asU64_nat htotal, asU64_nat hcount]
  · intro hd
    rw [member_eq_none hd] at hfields
    simp [WireSearchPage.decode, hfields, asU64_nat htotal, asU64_nat hcount]

/-- A page of a list whose items the server shows as `R` says; the pages of a name search are such pages. -/
def SliceOf {α : Type} (R : α → Json → Prop) (l : List α) (start stop : Nat) (response : RawResponse) : Prop :=
  if start = 0 ∨ start < l.length then
    response.status = (if (slice l start stop).length = l.length then 200 else 206) ∧
    ∃ ms rows, response.body.json = some (.obj ms) ∧ Distinct ms ∧ ("totalcount", Json.nat l.length) ∈ ms ∧
      ("count", Json.nat (slice l start stop).length) ∈ ms ∧
      ("content-range", Json.str (contentRangeOf start (slice l start stop).length l.length)) ∈ ms ∧
      List.Forall₂ R (slice l start stop) rows ∧
      if l = [] then "data" ∉ ms.map Prod.fst else ("data", Json.arr rows) ∈ ms
  else response.status = 400

section

variable {α : Type} {R : α → Json → Prop} {S : α → Row → Prop} {l : List α} {response : RawResponse}

/-- A documented page that is within the list passes the checks on pages. -/
theorem parseSearchPage_of {start stop : Nat} (h : SliceOf R l start stop response)
    (hin : start = 0 ∨ start < l.length) (hstop : start ≤ stop) (hl : l.length < u64Bound) :
    ∃ rows, List.Forall₂ R (slice l start stop) rows ∧
      response.status = (if (slice l start stop).length = l.length then 200 else 206) ∧
      parseSearchPage response.body start stop =
        .ok ⟨l.length, (slice l start stop).length, start + (slice l start stop).length - 1, rows⟩ := by
  rw [SliceOf, if_pos hin] at h
  obtain ⟨hstatus, ms, rows, hjson, hms, ht, hc, hr, hrows, hdata⟩ := h
  have hlen := length_slice l start stop
  have hcount : (slice l start stop).length < u64Bound := by omega
  obtain ⟨hsome, hnone⟩ := decode_page hms ht hc hr hl hcount
  refine ⟨rows, hrows, hstatus, ?_⟩
  rw [parseSearchPage, hjson, Option.bind_some]
  by_cases hnil : l = []
  · subst hnil
    have hstart : start = 0 := by simpa using hin
    rw [if_pos rfl] at hdata
    have hrows' : rows = [] := by simpa [slice] using hrows
    rw [hnone hdata]
    simp [hstart, contentRangeOf, slice, hrows', ensure_of]
  · have hpos : 0 < l.length := List.length_pos_iff.mpr hnil
    rw [if_neg hnil] at hdata
    have hnonempty : 0 < (slice l start stop).length := slice_ne_nil (by omega) hstop
    have hrange : parseContentRange (contentRangeOf start (slice l start stop).length l.length) = _ :=
      parseContentRange_of hpos.ne' (by omega) (by omega) hl
    have hdatalen : (slice l start stop).length = rows.length := hrows.length_eq
    have hok : RangeOk start stop l.length (slice l start stop).length
        (start, start + (slice l start stop).length - 1, l.length) :=
      ⟨rfl, rfl, by simp; omega, by simp; omega, by simp; omega, by simp; omega, by simp; omega⟩
    have hcounts : (slice l start stop).length ≠ 0 ∧ (slice l start stop).length = rows.length ∧
        (slice l start stop).length ≤ l.length := ⟨hnonempty.ne', hdatalen, by omega⟩
    rw [hsome rows hdata, okOr_some, ok_bind, if_neg hpos.ne', okOr_some, ok_bind, ensure_of hcounts, ok_bind, hrange,
      okOr_some, ok_bind, ensure_of hok]
    rfl

/-- What the loop makes of a documented page within the list. -/
theorem pageTurn_of {state : SearchState} {stop : Nat} (h : SliceOf R l state.start stop response)
    (hin : state.start = 0 ∨ state.start < l.length) (hstop : state.start ≤ stop) (hl : l.length < u64Bound)
    (hparse : ∀ x ∈ l, ∀ j, R x j → ∃ row, parseRow j = .ok row ∧ S x row) (hrows : state.rows.length = state.start)
    (htotal : ∀ expected ∈ state.expectedTotal, expected = l.length) :
    ∃ new, List.Forall₂ S (slice l state.start stop) new ∧
      pageTurn state stop response = .ok
        (if state.start + (slice l state.start stop).length = l.length then .done (state.rows ++ new)
         else .more ⟨state.rows ++ new, state.start + (slice l state.start stop).length, some l.length⟩) := by
  obtain ⟨rows, hrowsOf, hstatus, hpage⟩ := parseSearchPage_of h hin hstop hl
  obtain ⟨new, hmap, hshows⟩ := mapM_parseRow hrowsOf fun x hx => hparse x (slice_subset hx)
  have hlen := length_slice l state.start stop
  have hnew : new.length = (slice l state.start stop).length := hshows.length_eq.symm
  refine ⟨new, hshows, ?_⟩
  rw [pageTurn, hpage, ok_bind, ensure_of (by simpa [SearchPage.expectedStatus] using hstatus), ok_bind,
    ensure_of htotal, ok_bind, hmap, ok_bind]
  by_cases hzero : l.length = 0
  · rw [if_pos hzero, if_pos (by omega)]
    rfl
  · have hpos : 0 < (slice l state.start stop).length := slice_ne_nil (by omega) hstop
    have hend : (state.rows ++ new).length =
        saturatingAdd (state.start + (slice l state.start stop).length - 1) 1 := by
      rw [List.length_append, hrows, hnew, saturatingAdd_eq (by omega)]
      omega
    rw [if_neg hzero, ensure_of hend, ok_bind]
    by_cases hdone : state.start + (slice l state.start stop).length = l.length
    · rw [if_pos hdone, if_pos (by simp [hrows, hnew, hdone])]
      rfl
    · have hnext : checkedAdd (state.start + (slice l state.start stop).length - 1) 1 =
          some (state.start + (slice l state.start stop).length) := checkedAdd_eq_some.mpr ⟨by omega, by omega⟩
      rw [if_neg hdone, if_neg (by simpa [hrows, hnew] using hdone), hnext, okOr_some, ok_bind]
      rfl

end

/-- A documented page that the loop accepts is within the list, and shows the total that the loop expects. -/
theorem inRange_of_pageTurn {idField nameField : Nat} {l : List (Nat × String)} {state : SearchState} {stop : Nat}
    {response : RawResponse} {turn : Turn} (h : PageOf idField nameField l state.start stop response)
    (hstop : state.start ≤ stop) (hl : l.length < u64Bound) (hturn : pageTurn state stop response = .ok turn) :
    (state.start = 0 ∨ state.start < l.length) ∧ ∀ expected ∈ state.expectedTotal, expected = l.length := by
  simp only [pageTurn, bind_eq_ok, ensure_eq_ok] at hturn
  obtain ⟨page, hpage, _, hstatus, _, htotal, _⟩ := hturn
  have hin : state.start = 0 ∨ state.start < l.length := by
    by_contra hout
    rw [PageOf, if_neg hout] at h
    rw [h, SearchPage.expectedStatus] at hstatus
    split at hstatus <;> cases hstatus
  obtain ⟨rows, _, _, hpage'⟩ := parseSearchPage_of h hin hstop hl
  cases hpage.symm.trans hpage'
  exact ⟨hin, htotal⟩

end PermissionSync.Glpi

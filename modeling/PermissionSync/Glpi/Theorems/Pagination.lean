import PermissionSync.Glpi.Lemmas.Apply
import PermissionSync.Glpi.Lemmas.Served
import PermissionSync.Glpi.Theorems.Deadlines

/-!
# Pages of a search

`parse_search_page` checks a page against the range that was requested, and the loop of `search_all_pages` relies on
what these checks say together. Whatever a server answers, a state of the loop has collected as many rows as it has
passed, in whole pages, and its next page starts below the total. From this come the bound on the requests, the ranges
and the completeness of the rows.
-/

namespace PermissionSync.Glpi

open PermissionSync.Base PermissionSync.Wire

variable {config : ValidatedConfig} {session : GlpiSession} {spec : SearchSpec} {context : SynchronizationContext}

/-! ## One page -/

theorem lt_of_parseU64 {cs : List Char} {n : Nat} (h : parseU64 cs = some n) : n < u64Bound := by
  simpa using (Option.filter_eq_some_iff.mp h).2

theorem total_lt_of_parseContentRange {text : String} {range : Nat × Nat × Nat}
    (h : parseContentRange text = some range) : range.2.2 < u64Bound := by
  simp only [parseContentRange, Option.bind_eq_bind, Option.bind_eq_some_iff, Option.some.injEq] at h
  obtain ⟨_, _, total, htotal, _, _, first, _, last, _, rfl⟩ := h
  exact lt_of_parseU64 htotal

/-- What the checks on a page say together. -/
structure PageChecked (start stop : Nat) (page : SearchPage) : Prop where
  reached : start + page.data.length = page.returnedEnd + 1
  nonempty : 0 < page.data.length
  within : page.returnedEnd ≤ stop
  below : page.returnedEnd < page.totalCount
  short : page.returnedEnd = stop ∨ page.returnedEnd + 1 = page.totalCount
  bounded : page.totalCount < u64Bound

theorem parseSearchPage_checked {body : Text} {start stop : Nat} {page : SearchPage}
    (h : parseSearchPage body start stop = .ok page) :
    (page.totalCount = 0 ∧ start = 0 ∧ page.data = []) ∨ PageChecked start stop page := by
  simp only [parseSearchPage, bind_eq_ok] at h
  obtain ⟨wire, _, h⟩ := h
  split at h
  · rename_i hzero
    simp only [bind_eq_ok, ensure_eq_ok, pure_eq_ok, Except.ok.injEq] at h
    obtain ⟨_, hchecks, rfl⟩ := h
    exact Or.inl ⟨hzero, hchecks.1, rfl⟩
  · rename_i hpos
    simp only [bind_eq_ok, ensure_eq_ok, okOr_eq_ok, pure_eq_ok, Except.ok.injEq] at h
    obtain ⟨data, _, _, ⟨hcount, hlen, _⟩, range, hrange, _, hok, rfl⟩ := h
    obtain ⟨htotal, hstart, hle, hwithin, hbelow, hspan, hshort⟩ := hok
    have hbound := total_lt_of_parseContentRange hrange
    exact Or.inr ⟨by simp only; omega, by simp only; omega, hwithin, hbelow, by simp only; omega, by simp only; omega⟩

/-! ## The states of the loop -/

/-- The states in which the loop asks for a page, whatever the server has answered so far. -/
inductive Reached : SearchState → Prop
  | init : Reached ⟨[], 0, none⟩
  | turn {state next : SearchState} {stop : Nat} {response : RawResponse} (h : Reached state)
      (hstop : checkedAdd state.start (pageSize - 1) = some stop)
      (hturn : pageTurn state stop response = .ok (.more next)) : Reached next

structure Consistent (state : SearchState) : Prop where
  rows : state.rows.length = state.start
  below : ∀ total ∈ state.expectedTotal, state.start < total

/-- How an accepted page moves the loop on. -/
structure Turned (state : SearchState) (stop : Nat) (response : RawResponse) (page : SearchPage) (new : List Row)
    (turn : Turn) : Prop where
  parsed : parseSearchPage response.body state.start stop = .ok page
  rows : page.data.mapM parseRow = .ok new
  total : ∀ expected ∈ state.expectedTotal, expected = page.totalCount
  next : (turn = .done (state.rows ++ new) ∧ (state.rows ++ new).length = page.totalCount) ∨
    (turn = .more ⟨state.rows ++ new, state.start + pageSize, some page.totalCount⟩ ∧
      (state.rows ++ new).length = state.start + pageSize ∧ state.start + pageSize < page.totalCount)

theorem Consistent.reaches {state : SearchState} {stop : Nat} {page : SearchPage} {new : List Row}
    (h : Consistent state) (hpage : PageChecked state.start stop page) (hnew : page.data.mapM parseRow = .ok new) :
    (state.rows ++ new).length = page.returnedEnd + 1 := by
  rw [List.length_append, h.rows, length_of_mapM_eq_ok hnew, hpage.reached]

theorem Consistent.turned {state : SearchState} {stop : Nat} {response : RawResponse} {turn : Turn}
    (h : Consistent state) (hstop : checkedAdd state.start (pageSize - 1) = some stop)
    (hturn : pageTurn state stop response = .ok turn) : ∃ page new, Turned state stop response page new turn := by
  obtain ⟨rfl, hbound⟩ := checkedAdd_eq_some.mp hstop
  simp only [pageTurn, bind_eq_ok, ensure_eq_ok] at hturn
  obtain ⟨page, hpage, _, hstatus, _, htotal, new, hnew, hturn⟩ := hturn
  refine ⟨page, new, hpage, hnew, htotal, ?_⟩
  have hlen := length_of_mapM_eq_ok hnew
  rcases parseSearchPage_checked hpage with ⟨hzero, hstart, hdata⟩ | hchecked
  · rw [if_pos hzero, pure_eq_ok, Except.ok.injEq] at hturn
    refine Or.inl ⟨hturn.symm, ?_⟩
    rw [List.length_append, h.rows, hlen, hstart, hdata, hzero, List.length_nil]
  · have hreach := h.reaches hchecked hnew
    have hbelow := hchecked.below
    have hshort := hchecked.short
    rw [if_neg (by omega)] at hturn
    simp only [bind_eq_ok, ensure_eq_ok] at hturn
    obtain ⟨_, _, hturn⟩ := hturn
    split at hturn
    · rename_i hdone
      rw [pure_eq_ok, Except.ok.injEq] at hturn
      exact Or.inl ⟨hturn.symm, hdone⟩
    · rename_i hmore
      simp only [bind_eq_ok, okOr_eq_ok, pure_eq_ok, Except.ok.injEq] at hturn
      obtain ⟨n, hn, rfl⟩ := hturn
      obtain ⟨rfl, _⟩ := checkedAdd_eq_some.mp hn
      -- The page is not the last one, so it is a full one.
      have hfull : page.returnedEnd + 1 = state.start + pageSize := by
        have : 0 < pageSize := by decide
        omega
      rw [hfull]
      exact Or.inr ⟨rfl, by omega, by omega⟩

theorem Consistent.next {state next : SearchState} {stop : Nat} {response : RawResponse} (h : Consistent state)
    (hstop : checkedAdd state.start (pageSize - 1) = some stop)
    (hturn : pageTurn state stop response = .ok (.more next)) : Consistent next := by
  obtain ⟨page, new, hturned⟩ := h.turned hstop hturn
  rcases hturned.next with ⟨hnext, _⟩ | ⟨hnext, hrows, hbelow⟩
  · cases hnext
  · cases hnext
    exact ⟨hrows, by simpa using hbelow⟩

theorem consistent_init : Consistent ⟨[], 0, none⟩ := ⟨rfl, by simp⟩

theorem Reached.consistent {state : SearchState} (h : Reached state) : Consistent state := by
  induction h with
  | init => exact consistent_init
  | turn _ hstop hturn ih => exact ih.next hstop hturn

/-! ## Runs of the loop -/

/-- The response of an event. -/
def answered (e : Event glpi) : Option RawResponse :=
  match e with
  | ⟨.request _, answer⟩ => answer.toOption
  | ⟨.isCancelled, _⟩ => none
  | ⟨.now, _⟩ => none

/-- The responses that the trace receives, in order. -/
def responses (t : Trace) : List RawResponse := t.filterMap answered

@[simp] theorem responses_append (t₁ t₂ : Trace) : responses (t₁ ++ t₂) = responses t₁ ++ responses t₂ :=
  List.filterMap_append

@[simp] theorem responses_callTrace {r : Request} {hs : Headers} {n : Instant} {response : RawResponse} :
    responses (callTrace config context r hs n (.ok response)) = [response] := rfl

/-- What a run of the loop does after the response to its first page. -/
def AfterPage (config : ValidatedConfig) (session : GlpiSession) (spec : SearchSpec) (context : SynchronizationContext)
    (t : Trace) (r : Except GlpiFailure (List Row)) : Except GlpiFailure Turn → Prop
  | .error e => t = [] ∧ r = .error e
  | .ok (.done rows) => t = [] ∧ r = .ok rows
  | .ok (.more next) => Run (searchLoop config session spec context next) t r

theorem run_searchLoop {state : SearchState} {t : Trace} {r : Except GlpiFailure (List Row)}
    (h : Run (searchLoop config session spec context state) t r) :
    (checkedAdd state.start (pageSize - 1) = none ∧ t = [] ∧ r = .error .searchPagination) ∨
      ∃ stop, checkedAdd state.start (pageSize - 1) = some stop ∧
        ((∃ e, Run (fetch config session (.search (spec.query state.start stop)) context) t (.error e) ∧ r = .error e) ∨
          ∃ n hs response t',
            t = callTrace config context (.search (spec.query state.start stop)) hs n (.ok response) ++ t' ∧
            AfterPage config session spec context t' r (pageTurn state stop response)) := by
  rw [searchLoop_eq] at h
  split at h
  · rename_i hnone
    obtain ⟨rfl, rfl⟩ := run_fail.mp h
    exact Or.inl ⟨hnone, rfl, rfl⟩
  · rename_i stop hstop
    refine Or.inr ⟨stop, hstop, ?_⟩
    rcases run_bind.mp h with hfail | ⟨response, t₁, t', rfl, hfetch, hrest⟩
    · exact Or.inl hfail
    · obtain ⟨n, hs, _, _, rfl⟩ := run_fetch_ok.mp hfetch
      refine Or.inr ⟨n, hs, response, t', rfl, ?_⟩
      split at hrest
      · rename_i hturn
        rw [hturn]
        exact run_fail.mp hrest
      · rename_i hturn
        rw [hturn]
        exact run_pure.mp hrest
      · rename_i hturn
        rw [hturn]
        exact hrest

theorem requests_of_fetch_error {request : Request} {t : Trace} {e : GlpiFailure}
    (h : Run (fetch config session request context) t (.error e)) :
    (requests t).length ≤ 1 ∧ responses t = [] := by
  rcases run_fetch.mp h with ⟨_, _, rfl, _⟩ | ⟨hs, _, ⟨rfl, _⟩ | ⟨n, _, rfl, _⟩ | ⟨n, _, rfl⟩⟩
  · exact ⟨Nat.zero_le _, rfl⟩
  · exact ⟨Nat.zero_le _, rfl⟩
  · exact ⟨Nat.zero_le _, rfl⟩
  · exact ⟨le_rfl, rfl⟩

/-- The number of pages that hold the items. -/
def pagesFor (items : Nat) : Nat := (items + (pageSize - 1)) / pageSize

theorem pagesFor_step {start total : Nat} (h : start < total) :
    pagesFor (total - (start + pageSize)) + 1 ≤ pagesFor (total - start) := by
  simp only [pagesFor, pageSize]
  omega

theorem searchLoop_requests {state : SearchState} {t : Trace} {r : Except GlpiFailure (List Row)} {total : Nat}
    (hconsistent : Consistent state) (htotal : state.expectedTotal = some total)
    (h : Run (searchLoop config session spec context state) t r) :
    (requests t).length ≤ pagesFor (total - state.start) := by
  induction state using SearchState.later_induction generalizing t with
  | step state ih =>
      have hbelow := hconsistent.below total htotal
      have hone := pagesFor_step hbelow
      rcases run_searchLoop h with ⟨_, rfl, _⟩ | ⟨stop, hstop, ⟨e, hfetch, _⟩ | ⟨n, hs, response, t', rfl, hafter⟩⟩
      · exact Nat.zero_le _
      · have := (requests_of_fetch_error hfetch).1
        omega
      · rw [requests_append, requests_callTrace, List.length_append, List.length_singleton]
        cases hturn : pageTurn state stop response with
        | error e =>
            rw [hturn] at hafter
            rw [hafter.1]
            exact (Nat.le_add_left _ _).trans hone
        | ok turn =>
            obtain ⟨page, new, hturned⟩ := hconsistent.turned hstop hturn
            rw [hturn] at hafter
            have hsame : total = page.totalCount := hturned.total total htotal
            rcases hturned.next with ⟨rfl, _⟩ | ⟨rfl, hrows, hnext⟩
            · rw [hafter.1]
              exact (Nat.le_add_left _ _).trans hone
            · obtain ⟨hlater, hlt⟩ := start_lt_of_more hturn
              have := ih _ hlater hlt ⟨hrows, by simpa using hnext⟩ (by rw [hsame]) hafter
              simp only at this
              omega

/-- The total of the first page that the loop accepts, zero if there is none. -/
def firstTotal (t : Trace) : Nat :=
  match responses t with
  | [] => 0
  | response :: _ =>
      match pageTurn ⟨[], 0, none⟩ (pageSize - 1) response, parseSearchPage response.body 0 (pageSize - 1) with
      | .ok _, .ok page => page.totalCount
      | _, _ => 0

theorem firstTotal_callTrace {r : Request} {hs : Headers} {n : Instant} {response : RawResponse} {t : Trace}
    {page : SearchPage} {new : List Row} {turn : Turn}
    (hturn : pageTurn ⟨[], 0, none⟩ (pageSize - 1) response = .ok turn)
    (h : Turned ⟨[], 0, none⟩ (pageSize - 1) response page new turn) :
    firstTotal (callTrace config context r hs n (.ok response) ++ t) = page.totalCount := by
  have hparsed : parseSearchPage response.body 0 (pageSize - 1) = .ok page := h.parsed
  rw [firstTotal, responses_append, responses_callTrace, List.singleton_append]
  simp [hturn, hparsed]

theorem searchAllPages_requests {t : Trace} {r : Except GlpiFailure (List Row)}
    (h : Run (searchAllPages config session spec context) t r) :
    (requests t).length ≤ max 1 (pagesFor (firstTotal t)) := by
  rcases run_searchLoop h with ⟨_, rfl, _⟩ | ⟨stop, hstop, ⟨e, hfetch, _⟩ | ⟨n, hs, response, t', rfl, hafter⟩⟩
  · exact Nat.zero_le _
  · exact (requests_of_fetch_error hfetch).1.trans (Nat.le_max_left _ _)
  · cases hstop
    rw [requests_append, requests_callTrace, List.length_append, List.length_singleton]
    cases hturn : pageTurn ⟨[], 0, none⟩ (0 + (pageSize - 1)) response with
    | error e =>
        rw [hturn] at hafter
        rw [hafter.1]
        exact Nat.le_max_left _ _
    | ok turn =>
        obtain ⟨page, new, hturned⟩ := consistent_init.turned rfl hturn
        rw [hturn] at hafter
        rw [firstTotal_callTrace hturn hturned]
        rcases hturned.next with ⟨rfl, _⟩ | ⟨rfl, hrows, hnext⟩
        · rw [hafter.1]
          exact Nat.le_max_left _ _
        · have hrest := searchLoop_requests ⟨hrows, by simpa using hnext⟩ rfl hafter
          have hstep : pagesFor (page.totalCount - (0 + pageSize)) + 1 ≤ pagesFor (page.totalCount - 0) :=
            pagesFor_step (by omega)
          simp only [Nat.zero_add, Nat.sub_zero] at hrest hstep
          omega

/-! ## Searches that return -/

/-- The requests of some pages in a row. -/
def ranges (spec : SearchSpec) (start : Nat) : Nat → List Request
  | 0 => []
  | n + 1 => .search (spec.query start (start + (pageSize - 1))) :: ranges spec (start + pageSize) n

/-- The pages that the responses show, each read for its own range and each with the same total. -/
inductive Shown (total : Nat) : Nat → List RawResponse → List SearchPage → Prop
  | nil {start : Nat} : Shown total start [] []
  | cons {start : Nat} {response : RawResponse} {page : SearchPage} {rest : List RawResponse} {pages : List SearchPage}
      (hpage : parseSearchPage response.body start (start + (pageSize - 1)) = .ok page)
      (htotal : page.totalCount = total) (hrest : Shown total (start + pageSize) rest pages) :
      Shown total start (response :: rest) (page :: pages)

theorem searchLoop_complete {state : SearchState} {t : Trace} {rows : List Row} (hconsistent : Consistent state)
    (h : Run (searchLoop config session spec context state) t (.ok rows)) :
    ∃ total pages new, (∀ expected ∈ state.expectedTotal, expected = total) ∧
      Shown total state.start (responses t) pages ∧ requests t = ranges spec state.start pages.length ∧
      (pages.flatMap SearchPage.data).mapM parseRow = .ok new ∧ rows = state.rows ++ new ∧ rows.length = total := by
  induction state using SearchState.later_induction generalizing t with
  | step state ih =>
      obtain ⟨stop, n, hs, response, turn, t', hstop, _, _, hturn, rfl, hend⟩ := run_searchLoop_ok.mp h
      obtain ⟨page, new, hturned⟩ := hconsistent.turned hstop hturn
      obtain ⟨rfl, _⟩ := checkedAdd_eq_some.mp hstop
      refine ⟨page.totalCount, ?_⟩
      rcases hturned.next with ⟨rfl, hlen⟩ | ⟨rfl, hrows, hnext⟩
      · rcases hend with ⟨hdone, rfl⟩ | ⟨next, hmore, _⟩
        · cases hdone
          exact ⟨[page], new, hturned.total, .cons hturned.parsed rfl .nil, rfl, by simpa using hturned.rows, rfl, hlen⟩
        · cases hmore
      · rcases hend with ⟨hdone, _⟩ | ⟨next, hmore, hrun⟩
        · cases hdone
        · cases hmore
          obtain ⟨hlater, hlt⟩ := start_lt_of_more hturn
          obtain ⟨total, pages, later, hsame, hshown, hrequests, hparsed, rfl, hlen⟩ :=
            ih _ hlater hlt ⟨hrows, by simpa using hnext⟩ hrun
          obtain rfl : page.totalCount = total := hsame _ rfl
          refine ⟨page :: pages, new ++ later, hturned.total, .cons hturned.parsed rfl hshown, ?_, ?_,
            List.append_assoc _ _ _, hlen⟩
          · rw [requests_append, requests_callTrace, hrequests]
            rfl
          · rw [List.flatMap_cons, List.mapM_append, hturned.rows, hparsed]
            rfl

/-! ## A server that holds a list -/

/-- A `Vec` has at most `isize::MAX` elements. -/
def vecBound : Nat := 2 ^ 63

/-- The call goes through, and a range of the list is answered with its page. -/
def Serves (deadline : Instant) (documents : List Json) (e : Event glpi) : Prop :=
  match e with
  | ⟨.isCancelled, b⟩ => b = false
  | ⟨.now, (n : Instant)⟩ => n < deadline
  | ⟨.request call, answer⟩ => ∀ q, call.request = .search q →
      ∃ response, answer = .ok response ∧ SliceOf Eq documents q.rangeStart q.rangeEnd response

theorem exchanged_mem_callTrace (r : Request) (hs : Headers) (n : Instant) (answer : Except GlpiFailure RawResponse) :
    exchanged ⟨r, hs, operationDeadline context config.operationTimeout n⟩ answer ∈
      callTrace config context r hs n answer := by
  simp [callTrace]

theorem searchLoop_serves {documents : List Json} {hs : Headers} {state : SearchState} {t : Trace}
    {r : Except GlpiFailure (List Row)} (hh : sessionHeaders session config = .ok hs)
    (hparse : ∀ j ∈ documents, ∃ row, parseRow j = .ok row) (hlen : documents.length < vecBound)
    (hgathered : Gathered (fun j row => parseRow j = .ok row) documents state)
    (hserves : ∀ e ∈ t, Serves context.deadline documents e)
    (h : Run (searchLoop config session spec context state) t r) :
    ∃ rows, r = .ok rows ∧ List.Forall₂ (fun j row => parseRow j = .ok row) documents rows := by
  have hbound : vecBound + pageSize < u64Bound := by decide
  induction state using SearchState.later_induction generalizing t with
  | step state ih =>
      have hin := hgathered.inRange
      rcases run_searchLoop h with ⟨hnone, _⟩ | ⟨stop, hstop, hrest⟩
      · rw [checkedAdd, if_pos (by omega)] at hnone
        cases hnone
      · obtain ⟨rfl, _⟩ := checkedAdd_eq_some.mp hstop
        rcases hrest with ⟨e, hfetch, _⟩ | ⟨n, hs', response, t', rfl, hafter⟩
        · rcases run_fetch.mp hfetch with ⟨_, hheaders, _⟩ | ⟨_, _, ⟨rfl, _⟩ | ⟨n, hle, rfl, _⟩ | ⟨n, _, rfl⟩⟩
          · cases hh.symm.trans hheaders
          · cases hserves (polled true) (by simp)
          · exact absurd (hserves (clock n) (by simp)) (not_lt.mpr hle)
          · obtain ⟨_, hok, _⟩ := hserves _ (exchanged_mem_callTrace _ _ _ _) _ rfl
            cases hok
        · obtain ⟨_, hok, hpage⟩ := hserves _ (List.mem_append_left _ (exchanged_mem_callTrace _ _ _ _)) _ rfl
          cases hok
          have hread : ∀ j ∈ documents, ∀ j', j = j' → ∃ row, parseRow j' = .ok row ∧ parseRow j = .ok row := by
            rintro j hj _ rfl
            exact (hparse j hj).imp fun _ hrow => ⟨hrow, hrow⟩
          have hturns := hgathered.turn (by omega) hread (Nat.le_add_right _ _) hpage
          rcases hturns with ⟨rows, hturn, hrows⟩ | ⟨next, hturn, hnext⟩
          · rw [hturn] at hafter
            exact ⟨rows, hafter.2, hrows⟩
          · rw [hturn] at hafter
            obtain ⟨hlater, hlt⟩ := start_lt_of_more hturn
            exact ih next hlater hlt hnext (fun e he => hserves e (List.mem_append_right _ he)) hafter

theorem mapM_parseRow_of_forall₂ {documents : List Json} {rows : List Row}
    (h : List.Forall₂ (fun j row => parseRow j = .ok row) documents rows) : documents.mapM parseRow = .ok rows := by
  induction h with
  | nil => rfl
  | cons hrow _ ih => simp [hrow, ih]

theorem forall_of_mapM_parseRow {documents : List Json} {held : List Row} (h : documents.mapM parseRow = .ok held) :
    ∀ j ∈ documents, ∃ row, parseRow j = .ok row := by
  induction documents generalizing held with
  | nil => simp
  | cons j rest ih =>
      simp only [List.mapM_cons, bind_eq_ok] at h
      obtain ⟨row, hrow, rows, hrows, _⟩ := h
      intro j' hj'
      rcases List.mem_cons.mp hj' with rfl | hj'
      · exact ⟨row, hrow⟩
      · exact ih hrows j' hj'

/-- The paged search, whatever the server answers: how many requests it sends, what it has read when it returns, that
its count of the rows always agrees with the page, and that a server that holds a list gets its list returned. -/
theorem searchAllPages_complete {t : Trace} {r : Except GlpiFailure (List Row)}
    (h : Run (searchAllPages config session spec context) t r) :
    (requests t).length ≤ max 1 (pagesFor (firstTotal t)) ∧
      (∀ rows, r = .ok rows → ∃ pages, Shown (firstTotal t) 0 (responses t) pages ∧
        requests t = ranges spec 0 pages.length ∧ (pages.flatMap SearchPage.data).mapM parseRow = .ok rows ∧
        rows.length = firstTotal t) ∧
      (∀ state stop body page new, Reached state → checkedAdd state.start (pageSize - 1) = some stop →
        parseSearchPage body state.start stop = .ok page → page.data.mapM parseRow = .ok new → page.totalCount ≠ 0 →
        (state.rows ++ new).length = saturatingAdd page.returnedEnd 1) ∧
      ∀ documents held hs, documents.mapM parseRow = .ok held → documents.length < vecBound →
        sessionHeaders session config = .ok hs → (∀ e ∈ t, Serves context.deadline documents e) → r = .ok held := by
  refine ⟨searchAllPages_requests h, ?_, ?_, ?_⟩
  · rintro rows rfl
    obtain ⟨total, pages, new, _, hshown, hrequests, hparsed, rfl, hlen⟩ := searchLoop_complete consistent_init h
    suffices htotal : firstTotal t = total by
      rw [htotal]
      exact ⟨pages, hshown, hrequests, hparsed, hlen⟩
    obtain ⟨stop, n, hs, response, turn, t', hstop, _, _, hturn, rfl, _⟩ := run_searchLoop_ok.mp h
    cases hstop
    obtain ⟨page, new', hturned⟩ := consistent_init.turned rfl hturn
    rw [firstTotal_callTrace hturn hturned]
    cases hshown with
    | cons hpage htotal _ =>
        cases hturned.parsed.symm.trans hpage
        exact htotal
  · intro state stop body page new hreached _ hpage hnew hpos
    rcases parseSearchPage_checked hpage with ⟨hzero, _⟩ | hchecked
    · exact absurd hzero hpos
    · have hbelow := hchecked.below
      have hbounded := hchecked.bounded
      rw [hreached.consistent.reaches hchecked hnew, saturatingAdd_eq (by omega)]
  · intro documents held hs hheld hlen hh hserves
    obtain ⟨rows, rfl, hrows⟩ :=
      searchLoop_serves hh (forall_of_mapM_parseRow hheld) hlen (.init _ _) hserves h
    rw [mapM_parseRow_of_forall₂ hrows] at hheld
    exact hheld

/-! ## Two pages -/

/-- One more account than fits on a page. -/
def pagedDocuments : List Json := (List.range 51).map fun i => .obj [("2", .nat (i + 1)), ("1", .str "ada")]

def pagedResponse (start stop : Nat) : RawResponse where
  status := 206
  body := ⟨[], some (.obj [("totalcount", .nat 51), ("count", .nat (slice pagedDocuments start stop).length),
    ("content-range", .str (contentRangeOf start (slice pagedDocuments start stop).length 51)),
    ("data", .arr (slice pagedDocuments start stop))])⟩

theorem length_pagedDocuments : pagedDocuments.length = 51 := by decide

theorem sliceOf_pagedResponse {start stop : Nat} (hstart : start < 51)
    (hpart : (slice pagedDocuments start stop).length ≠ 51) :
    SliceOf Eq pagedDocuments start stop (pagedResponse start stop) := by
  have hne : pagedDocuments ≠ [] := List.ne_nil_of_length_pos (by rw [length_pagedDocuments]; decide)
  rw [SliceOf, length_pagedDocuments, if_pos (Or.inr hstart), if_neg hpart]
  refine ⟨rfl, _, slice pagedDocuments start stop, rfl, ?_, ?_, ?_, ?_, ?_, ?_⟩
  · simp [Distinct]
  · simp
  · simp
  · simp
  · exact List.forall₂_same.mpr fun _ _ => rfl
  · rw [if_neg hne]
    simp

def pagedTrace : Trace :=
  callTrace sampleConfig ⟨100⟩ (.search ((narrowing .user 2 1 "ada" none).query 0 49)) sampleHeaders 0
      (.ok (pagedResponse 0 49)) ++
    callTrace sampleConfig ⟨100⟩ (.search ((narrowing .user 2 1 "ada" none).query 50 99)) sampleHeaders 0
      (.ok (pagedResponse 50 99))

theorem serves_pagedTrace : ∀ e ∈ pagedTrace, Serves 100 pagedDocuments e := by
  have hcall {start stop : Nat} (hstart : start < 51) (hpart : (slice pagedDocuments start stop).length ≠ 51) :
      ∀ e ∈ callTrace sampleConfig ⟨100⟩ (.search ((narrowing .user 2 1 "ada" none).query start stop)) sampleHeaders 0
        (.ok (pagedResponse start stop)), Serves 100 pagedDocuments e := by
    intro e he
    simp only [callTrace, List.mem_cons, List.not_mem_nil, or_false] at he
    rcases he with rfl | rfl | rfl
    · exact rfl
    · exact show (0 : Nat) < 100 by decide
    · rintro q ⟨⟩
      exact ⟨_, rfl, sliceOf_pagedResponse hstart hpart⟩
  exact List.forall_mem_append.mpr ⟨hcall (by decide) (by decide), hcall (by decide) (by decide)⟩

theorem paged_list_returned : ∃ rows, Run (searchAllPages sampleConfig ⟨"s"⟩ (narrowing .user 2 1 "ada" none) ⟨100⟩)
    pagedTrace (.ok rows) ∧ pagedDocuments.mapM parseRow = .ok rows ∧ (requests pagedTrace).length = 2 ∧
      2 ≤ max 1 (pagesFor (firstTotal pagedTrace)) := by
  have hfollow :
      ((searchAllPages sampleConfig ⟨"s"⟩ (narrowing .user 2 1 "ada" none) ⟨100⟩).follow pagedTrace).isSome = true := by
    decide +kernel
  obtain ⟨r, hr⟩ := Option.isSome_iff_exists.mp hfollow
  have hrun := run_of_follow hr
  obtain ⟨hrequests, _, _, hheld⟩ := searchAllPages_complete hrun
  cases hmap : pagedDocuments.mapM parseRow with
  | error e =>
      have hparses : (pagedDocuments.mapM parseRow).toOption.isSome = true := by decide +kernel
      rw [hmap] at hparses
      cases hparses
  | ok held =>
      obtain rfl := hheld pagedDocuments held _ hmap (by decide) rfl serves_pagedTrace
      exact ⟨held, hrun, rfl, rfl, hrequests⟩

end PermissionSync.Glpi

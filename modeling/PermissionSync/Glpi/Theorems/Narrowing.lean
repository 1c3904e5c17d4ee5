import PermissionSync.Base.Like
import PermissionSync.Glpi.Search

/-!
# The criterion of a search

What GLPI makes of the criterion that `exact_search_query_value` sends: the `LIKE` pattern that it derives matches the
selector, so that a search never excludes an exact match.
-/

namespace PermissionSync.Glpi

open PermissionSync.Base

/-! ## The server's side -/

def phpLtrim (cs : List Char) : List Char := cs.dropWhile isPhpTrim

def phpRtrim (cs : List Char) : List Char := (cs.reverse.dropWhile isPhpTrim).reverse

/-- GLPI's `makeTextSearchValue`: a wildcard is added on a side that has no anchor. -/
def makeTextSearchValue (value : List Char) : List Char :=
  let value := phpRtrim (phpLtrim (value.flatMap escapeLike))
  let value := match value with
    | '^' :: rest => phpLtrim rest
    | _ => '%' :: value
  match value.getLast? with
  | some '$' => phpRtrim value.dropLast
  | _ => value ++ ['%']

theorem phpLtrim_of_head {cs : List Char} (h : ∀ c ∈ cs.head?, isPhpTrim c = false) : phpLtrim cs = cs := by
  cases cs with
  | nil => rfl
  | cons c cs => exact List.dropWhile_cons_of_neg (by simp [h c rfl])

theorem phpRtrim_of_getLast {cs : List Char} (h : ∀ c ∈ cs.getLast?, isPhpTrim c = false) : phpRtrim cs = cs := by
  have hrev : ∀ c ∈ cs.reverse.head?, isPhpTrim c = false := by rwa [List.head?_reverse]
  have := phpLtrim_of_head hrev
  rw [phpLtrim] at this
  rw [phpRtrim, this, List.reverse_reverse]

theorem head?_escape {s : List Char} (hne : s ≠ []) (hhead : ∀ c ∈ s.head?, isPhpTrim c = false) (p : List Char) :
    ∀ c ∈ (s.flatMap escapeLike ++ p).head?, isPhpTrim c = false := by
  obtain ⟨c, s, rfl⟩ := List.exists_cons_of_ne_nil hne
  have hc : isPhpTrim c = false := hhead c rfl
  have hslash : isPhpTrim '\\' = false := by decide
  rw [List.flatMap_cons, escapeLike]
  split
  · simpa using hslash
  · split
    · simpa using hslash
    · simpa using hc

theorem getLast?_escape {s : List Char} (hlast : ∀ c ∈ s.getLast?, isPhpTrim c = false) :
    ∀ c ∈ (s.flatMap escapeLike).getLast?, isPhpTrim c = false := by
  rcases List.eq_nil_or_concat s with rfl | ⟨s, c, rfl⟩
  · simp
  · have hc : isPhpTrim c = false := hlast c (by simp)
    have hescape : (escapeLike c).getLast? = some c := by
      rw [escapeLike]
      split
      · rename_i h
        rw [h]
        rfl
      · split
        · rename_i h
          rw [h]
          rfl
        · rfl
    simpa [List.getLast?_append, hescape] using hc

/-- The pattern of an anchored text whose ends are not trimmed. -/
theorem makeTextSearchValue_anchored {s : List Char} (hne : s ≠ []) (hhead : ∀ c ∈ s.head?, isPhpTrim c = false)
    (hlast : ∀ c ∈ s.getLast?, isPhpTrim c = false) :
    makeTextSearchValue ('^' :: s ++ ['$']) = s.flatMap escapeLike := by
  have hescape : ('^' :: s ++ ['$']).flatMap escapeLike = '^' :: (s.flatMap escapeLike ++ ['$']) := by
    simp [escapeLike]
  have hl : phpLtrim ('^' :: (s.flatMap escapeLike ++ ['$'])) = '^' :: (s.flatMap escapeLike ++ ['$']) :=
    phpLtrim_of_head (by simp [isPhpTrim])
  have hr : phpRtrim ('^' :: (s.flatMap escapeLike ++ ['$'])) = '^' :: (s.flatMap escapeLike ++ ['$']) := by
    rw [← List.cons_append]
    refine phpRtrim_of_getLast ?_
    rw [List.getLast?_concat]
    rintro c ⟨⟩
    decide
  have hinner : phpLtrim (s.flatMap escapeLike ++ ['$']) = s.flatMap escapeLike ++ ['$'] :=
    phpLtrim_of_head (head?_escape hne hhead _)
  simp only [makeTextSearchValue, hescape, hl, hr, hinner, List.getLast?_concat, List.dropLast_concat]
  exact phpRtrim_of_getLast (getLast?_escape hlast)

/-! ## The criterion -/

/-- The wildcard that the adapter puts beside an end that would be trimmed. -/
def guarded (c : Option Char) : List Char := if c.any isPhpTrim then ['%'] else []

theorem toList_exactSearchQueryValue (selector : String) : (exactSearchQueryValue selector).toList =
    '^' :: (guarded selector.toList.head? ++ selector.toList ++ guarded selector.toList.getLast?) ++ ['$'] := by
  simp [exactSearchQueryValue, guarded]

theorem matchTokens_guarded {s : List Char} {c : Option Char} {p : List LikeToken} (h : matchTokens p s = true) :
    matchTokens ((guarded c).map likeToken ++ p) s = true := by
  unfold guarded
  split
  · exact matchTokens_many [] h
  · exact h

theorem guarded_eq_nil {c : Option Char} (h : ∀ d ∈ c, isPhpTrim d = false) : guarded c = [] := by
  cases c with
  | none => rfl
  | some d => simp [guarded, h d rfl]

theorem isPhpTrim_percent : isPhpTrim '%' = false := by decide

theorem head?_guarded {s p : List Char} (hne : s ≠ []) :
    ∀ c ∈ (guarded s.head? ++ s ++ p).head?, isPhpTrim c = false := by
  obtain ⟨c, s, rfl⟩ := List.exists_cons_of_ne_nil hne
  cases hc : isPhpTrim c with
  | true => simp [guarded, hc, isPhpTrim_percent]
  | false => simp [guarded, hc]

theorem getLast?_guarded {s p : List Char} (hne : s ≠ []) :
    ∀ c ∈ (p ++ s ++ guarded s.getLast?).getLast?, isPhpTrim c = false := by
  rcases List.eq_nil_or_concat s with rfl | ⟨s, c, rfl⟩
  · exact absurd rfl hne
  · cases hc : isPhpTrim c with
    | true => simp [guarded, hc, isPhpTrim_percent, List.getLast?_append]
    | false => simp [guarded, hc, List.getLast?_append]

theorem makeTextSearchValue_exact {selector : String} (hne : selector ≠ "") :
    makeTextSearchValue (exactSearchQueryValue selector).toList =
      (guarded selector.toList.head? ++ selector.toList ++ guarded selector.toList.getLast?).flatMap escapeLike := by
  have hcs : selector.toList ≠ [] := by simpa using hne
  rw [toList_exactSearchQueryValue]
  exact makeTextSearchValue_anchored (by simp [hcs]) (head?_guarded hcs) (getLast?_guarded hcs)

/-- The pattern that GLPI derives matches the selector. If no end of the selector is trimmed and it has no wildcard,
the pattern matches nothing else. -/
theorem criterion_matches_selector (selector : String) (hne : selector ≠ "") :
    like (makeTextSearchValue (exactSearchQueryValue selector).toList) selector.toList = true ∧
      ('%' ∉ selector.toList → (∀ c ∈ selector.toList.head?, isPhpTrim c = false) →
        (∀ c ∈ selector.toList.getLast?, isPhpTrim c = false) →
        ∀ text, like (makeTextSearchValue (exactSearchQueryValue selector).toList) text = true →
          text = selector.toList) := by
  rw [makeTextSearchValue_exact hne]
  constructor
  · rw [like_escape, List.map_append, List.map_append, List.append_assoc]
    apply matchTokens_guarded
    have hend : matchTokens ((guarded selector.toList.getLast?).map likeToken) [] = true := by
      simpa using matchTokens_guarded (c := selector.toList.getLast?) (p := []) rfl
    simpa using matchTokens_likeToken selector.toList [] hend
  · intro hpercent hhead hlast text htext
    rw [guarded_eq_nil hhead, guarded_eq_nil hlast, List.nil_append, List.append_nil] at htext
    exact (like_escape_iff hpercent).mp htext

theorem awkward_selector_matched :
    like (makeTextSearchValue (exactSearchQueryValue " ^a_\\%$ ").toList) " ^a_\\%$ ".toList = true :=
  (criterion_matches_selector " ^a_\\%$ " (by decide)).1

end PermissionSync.Glpi

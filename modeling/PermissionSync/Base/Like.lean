import Mathlib

/-!
# Patterns of SQL `LIKE`

A percent sign stands for any text, an underscore for any character, and a backslash takes the character after it
literally.
-/

namespace PermissionSync.Base

inductive LikeToken where
  | literal (c : Char)
  | one
  | many
deriving DecidableEq, Repr

/-- The tokens of a pattern. A backslash at the end stands for itself. -/
def likeTokens : List Char → List LikeToken
  | [] => []
  | '\\' :: c :: p => .literal c :: likeTokens p
  | '%' :: p => .many :: likeTokens p
  | '_' :: p => .one :: likeTokens p
  | c :: p => .literal c :: likeTokens p

def matchTokens : List LikeToken → List Char → Bool
  | [], s => s.isEmpty
  | .literal c :: p, d :: s => c = d && matchTokens p s
  | .one :: p, _ :: s => matchTokens p s
  | .many :: p, s => s.tails.any (matchTokens p)
  | .literal _ :: _, [] => false
  | .one :: _, [] => false

/-- Whether the text matches the pattern. -/
def like (pattern text : List Char) : Bool := matchTokens (likeTokens pattern) text

theorem matchTokens_many (pre : List Char) {p : List LikeToken} {s : List Char} (h : matchTokens p s = true) :
    matchTokens (.many :: p) (pre ++ s) = true :=
  List.any_eq_true.mpr ⟨s, List.mem_tails _ _ |>.mpr (List.suffix_append pre s), h⟩

theorem matchTokens_literals {s text : List Char} : matchTokens (s.map .literal) text = true ↔ text = s := by
  induction s generalizing text with
  | nil => simp [matchTokens]
  | cons c s ih =>
      cases text with
      | nil => simp [matchTokens]
      | cons d text =>
          simp only [List.map_cons, matchTokens, Bool.and_eq_true, decide_eq_true_eq, ih, List.cons.injEq]
          exact and_congr_left fun _ => eq_comm

/-! ## Escaped texts -/

/-- The escape of a backslash and of an underscore; a percent sign stays a wildcard. -/
def escapeLike (c : Char) : List Char :=
  if c = '\\' then ['\\', '\\'] else if c = '_' then ['\\', '_'] else [c]

/-- What a character of an escaped text matches. -/
def likeToken (c : Char) : LikeToken := if c = '%' then .many else .literal c

theorem likeTokens_escape (s p : List Char) :
    likeTokens (s.flatMap escapeLike ++ p) = s.map likeToken ++ likeTokens p := by
  induction s with
  | nil => rfl
  | cons c s ih =>
      rw [List.flatMap_cons, List.append_assoc, List.map_cons, List.cons_append, ← ih]
      by_cases hslash : c = '\\'
      · subst hslash
        rfl
      · by_cases hunder : c = '_'
        · subst hunder
          rfl
        · by_cases hpercent : c = '%'
          · subst hpercent
            rfl
          · simp [escapeLike, hslash, hunder, likeToken, hpercent, likeTokens]

theorem matchTokens_likeToken (s t : List Char) {p : List LikeToken} (h : matchTokens p t = true) :
    matchTokens (s.map likeToken ++ p) (s ++ t) = true := by
  induction s with
  | nil => exact h
  | cons c s ih =>
      by_cases hpercent : c = '%'
      · simpa [likeToken, hpercent] using matchTokens_many [c] ih
      · simpa [likeToken, hpercent, matchTokens] using ih

theorem map_likeToken {s : List Char} (h : '%' ∉ s) : s.map likeToken = s.map .literal := by
  refine List.map_congr_left fun c hc => if_neg ?_
  rintro rfl
  exact h hc

theorem like_escape (s text : List Char) : like (s.flatMap escapeLike) text = matchTokens (s.map likeToken) text := by
  have h := likeTokens_escape s []
  rw [List.append_nil, likeTokens, List.append_nil] at h
  rw [like, h]

/-- The escape of a text without a percent sign matches this text only. -/
theorem like_escape_iff {s text : List Char} (h : '%' ∉ s) : like (s.flatMap escapeLike) text = true ↔ text = s := by
  rw [like_escape, map_likeToken h, matchTokens_literals]

end PermissionSync.Base

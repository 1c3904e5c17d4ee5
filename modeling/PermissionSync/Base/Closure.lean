import Mathlib

/-!
# Closing a list under rules

A pass visits the rules in order and appends the target of each rule whose source is known already, unless the target is
known too. Passes are repeated until one adds nothing. Elements are compared by an equivalence `==`.
-/

namespace PermissionSync.Base

variable {α ρ : Type} [BEq α] (source : ρ → α) (target : ρ → Option α)

/-- The list has the element, up to `==`. -/
def known (elements : List α) (a : α) : Bool := elements.any fun element => element == a

/-- What a rule adds. -/
def visit (elements : List α) (rule : ρ) : List α :=
  if !known elements (source rule) then elements
  else
    match target rule with
    | none => elements
    | some a => if !known elements a then elements ++ [a] else elements

def pass (rules : List ρ) (elements : List α) : List α := rules.foldl (visit source target) elements

/-- Passes until one adds nothing; `none` if that takes more than the given number of passes. -/
def passes (rules : List ρ) : Nat → List α → Option (List α)
  | 0, _ => none
  | fuel + 1, elements =>
      let next := pass source target rules elements
      if next.length = elements.length then some next else passes rules fuel next

/-- What is reached from the elements. -/
inductive Reached (rules : List ρ) (elements : List α) : α → Prop where
  | start {a b : α} : a ∈ elements → (a == b) = true → Reached rules elements b
  | follow {a b c : α} {rule : ρ} : Reached rules elements a → rule ∈ rules → (a == source rule) = true →
      target rule = some b → (b == c) = true → Reached rules elements c

/-- No element is there twice. -/
def Distinct (elements : List α) : Prop := elements.Pairwise fun a b => (a == b) = false

variable {source target} {rules : List ρ} {rule : ρ} {elements : List α} {a b : α}

theorem known_iff : known elements a = true ↔ ∃ element ∈ elements, (element == a) = true := List.any_eq_true

/-! ## One rule -/

/-- A rule leaves the list, or appends its target, which was not known. -/
theorem visit_cases (source : ρ → α) (target : ρ → Option α) (elements : List α) (rule : ρ) :
    visit source target elements rule = elements ∨
      ∃ a, target rule = some a ∧ known elements (source rule) = true ∧ known elements a = false ∧
        visit source target elements rule = elements ++ [a] := by
  unfold visit
  by_cases hsource : known elements (source rule) = true
  · rw [if_neg (by simp [hsource])]
    cases htarget : target rule with
    | none => exact Or.inl rfl
    | some a =>
        by_cases ha : known elements a = true
        · exact Or.inl (by simp [ha])
        · exact Or.inr ⟨a, rfl, hsource, by simpa using ha, by simp [ha]⟩
  · exact Or.inl (if_pos (by simpa using hsource))

theorem known_mono {elements' : List α} (h : elements ⊆ elements') (ha : known elements a = true) :
    known elements' a = true := by
  obtain ⟨element, hmem, heq⟩ := known_iff.mp ha
  exact known_iff.mpr ⟨element, h hmem, heq⟩

theorem distinct_visit (h : Distinct elements) : Distinct (visit source target elements rule) := by
  rcases visit_cases source target elements rule with heq | ⟨a, _, _, ha, heq⟩
  · rwa [heq]
  · rw [heq, Distinct, List.pairwise_append]
    refine ⟨h, List.pairwise_singleton _ _, fun b hb c hc => ?_⟩
    rw [List.mem_singleton.mp hc]
    by_contra hne
    rw [known_iff.mpr ⟨b, hb, by simpa using hne⟩] at ha
    cases ha

/-! ## A pass -/

/-- A pass appends targets that were not known. -/
theorem pass_eq_append (source : ρ → α) (target : ρ → Option α) (rules : List ρ) (elements : List α) :
    ∃ added, pass source target rules elements = elements ++ added ∧
      ∀ a ∈ added, known elements a = false ∧ ∃ rule ∈ rules, target rule = some a := by
  induction rules generalizing elements with
  | nil => exact ⟨[], by simp [pass], nofun⟩
  | cons rule rules ih =>
      obtain ⟨added, heq, hadded⟩ := ih (visit source target elements rule)
      rcases visit_cases source target elements rule with hvisit | ⟨a, htarget, _, ha, hvisit⟩
      · refine ⟨added, by simpa [pass, hvisit] using heq, fun b hb => ?_⟩
        rw [hvisit] at hadded
        obtain ⟨hb, rule', hmem, htarget⟩ := hadded b hb
        exact ⟨hb, rule', List.mem_cons_of_mem _ hmem, htarget⟩
      · rw [hvisit] at hadded
        refine ⟨a :: added, by simpa [pass, hvisit] using heq, List.forall_mem_cons.mpr ⟨?_, fun b hb => ?_⟩⟩
        · exact ⟨ha, rule, List.mem_cons_self, htarget⟩
        · obtain ⟨hb, rule', hmem, htarget⟩ := hadded b hb
          refine ⟨Bool.eq_false_iff.mpr fun hknown => ?_, rule', List.mem_cons_of_mem _ hmem, htarget⟩
          rw [known_mono (List.subset_append_left _ _) hknown] at hb
          cases hb

theorem subset_pass : elements ⊆ pass source target rules elements := by
  obtain ⟨added, heq, _⟩ := pass_eq_append source target rules elements
  rw [heq]
  exact List.subset_append_left _ _

/-- A pass that adds nothing is one that leaves the list. -/
theorem pass_eq_self (h : (pass source target rules elements).length = elements.length) :
    pass source target rules elements = elements := by
  obtain ⟨added, heq, _⟩ := pass_eq_append source target rules elements
  rw [heq, List.length_append, Nat.add_eq_left, List.length_eq_zero_iff] at h
  rw [heq, h, List.append_nil]

theorem distinct_pass (h : Distinct elements) : Distinct (pass source target rules elements) := by
  induction rules generalizing elements with
  | nil => exact h
  | cons rule rules ih => exact ih (distinct_visit h)

/-- A pass follows the rules. -/
theorem reached_pass {all : List ρ} {start : List α} (hrules : rules ⊆ all)
    (h : ∀ a ∈ elements, Reached source target all start a) (hrefl : ∀ a : α, (a == a) = true) :
    ∀ a ∈ pass source target rules elements, Reached source target all start a := by
  induction rules generalizing elements with
  | nil => exact h
  | cons rule rules ih =>
      obtain ⟨hrule, hrules⟩ := List.cons_subset.mp hrules
      refine ih hrules ?_
      rcases visit_cases source target elements rule with hvisit | ⟨a, htarget, hsource, _, hvisit⟩
      · rwa [hvisit]
      · rw [hvisit]
        obtain ⟨element, hmem, heq⟩ := known_iff.mp hsource
        refine List.forall_mem_append.mpr ⟨h, List.forall_mem_singleton.mpr ?_⟩
        exact .follow (h element hmem) hrule heq htarget (hrefl a)

/-! ## The closure -/

variable [EquivBEq α]

theorem known_of_mem (h : a ∈ elements) : known elements a = true := known_iff.mpr ⟨a, h, BEq.rfl⟩

theorem known_congr (h : (a == b) = true) (ha : known elements a = true) : known elements b = true := by
  obtain ⟨element, hmem, heq⟩ := known_iff.mp ha
  exact known_iff.mpr ⟨element, hmem, BEq.trans heq h⟩

/-- After a pass the targets of the rules whose source was known are known. -/
theorem known_pass (hmem : rule ∈ rules) (hsource : known elements (source rule) = true)
    (htarget : target rule = some a) :
    known (pass source target rules elements) a = true := by
  induction rules generalizing elements with
  | nil => cases hmem
  | cons first rules ih =>
      have hsub : elements ⊆ pass source target [first] elements := subset_pass
      rcases List.mem_cons.mp hmem with rfl | hmem
      · have hvisit : known (visit source target elements rule) a = true := by
          unfold visit
          rw [if_neg (by simp [hsource]), htarget]
          by_cases ha : known elements a = true
          · simp [ha]
          · simpa [ha] using known_of_mem (List.mem_append_right elements (List.mem_singleton_self a))
        have hrest : visit source target elements rule ⊆
            pass source target rules (visit source target elements rule) := subset_pass
        exact known_mono hrest hvisit
      · exact ih hmem (known_mono hsub hsource)

/-- The rules whose target is not known. -/
def remaining (target : ρ → Option α) (rules : List ρ) (elements : List α) : List ρ :=
  rules.filter fun rule => (target rule).any fun a => !known elements a

/-- A pass that adds something leaves fewer rules. -/
theorem length_remaining_lt (h : (pass source target rules elements).length ≠ elements.length) :
    (remaining target rules (pass source target rules elements)).length < (remaining target rules elements).length := by
  obtain ⟨added, heq, hadded⟩ := pass_eq_append source target rules elements
  obtain ⟨a, ha⟩ : ∃ a, a ∈ added := by
    refine List.exists_mem_of_ne_nil added fun hnil => h ?_
    rw [heq, hnil, List.append_nil]
  obtain ⟨hunknown, rule, hrule, htarget⟩ := hadded a ha
  have hfewer :
      (remaining target rules (pass source target rules elements)).Sublist (remaining target rules elements) := by
    refine List.monotone_filter_right rules fun rule hrule => ?_
    obtain ⟨b, htarget, hb⟩ := (Option.any_eq_true _ _).mp hrule
    refine (Option.any_eq_true _ _).mpr ⟨b, htarget, ?_⟩
    rw [Bool.not_eq_true', Bool.eq_false_iff] at hb ⊢
    exact fun hknown => hb (known_mono subset_pass hknown)
  refine Nat.lt_of_le_of_ne hfewer.length_le fun hlength => ?_
  have hmem : rule ∈ remaining target rules elements := by simp [remaining, hrule, htarget, hunknown]
  rw [← hfewer.eq_of_length hlength, heq] at hmem
  have hknown : known (elements ++ added) a = true := known_of_mem (List.mem_append_right _ ha)
  simp [remaining, htarget, hknown] at hmem

theorem exists_passes {fuel : Nat} (h : (remaining target rules elements).length < fuel) :
    ∃ result, passes source target rules fuel elements = some result := by
  induction fuel generalizing elements with
  | zero => exact absurd h (Nat.not_lt_zero _)
  | succ fuel ih =>
      rw [passes]
      split_ifs with hsame
      · exact ⟨_, rfl⟩
      · exact ih (Nat.lt_of_lt_of_le (length_remaining_lt hsame) (Nat.lt_succ_iff.mp h))

/-- As many passes as there are rules, and one more, are enough. -/
theorem passes_isSome (source : ρ → α) (target : ρ → Option α) (rules : List ρ) (elements : List α) :
    (passes source target rules (rules.length + 1) elements).isSome = true :=
  Option.isSome_iff_exists.mpr (exists_passes (Nat.lt_succ_of_le (List.length_filter_le _ _)))

def closure (source : ρ → α) (target : ρ → Option α) (rules : List ρ) (elements : List α) : List α :=
  (passes source target rules (rules.length + 1) elements).get (passes_isSome source target rules elements)

/-- What the passes end with: it is not changed by another pass, has everything that it began with, and what is
reached. -/
theorem passes_spec {fuel : Nat} {result start : List α} (h : passes source target rules fuel elements = some result)
    (hdistinct : Distinct elements) (hstart : start ⊆ elements)
    (hreached : ∀ a ∈ elements, Reached source target rules start a) :
    Distinct result ∧ start ⊆ result ∧ (∀ a ∈ result, Reached source target rules start a) ∧
      pass source target rules result = result := by
  induction fuel generalizing elements with
  | zero => cases h
  | succ fuel ih =>
      rw [passes] at h
      split_ifs at h with hsame
      · have hself := pass_eq_self hsame
        rw [hself] at h
        cases h
        exact ⟨hdistinct, hstart, hreached, hself⟩
      · exact ih h (distinct_pass hdistinct) (List.Subset.trans hstart subset_pass)
          (reached_pass (List.Subset.refl _) hreached fun _ => BEq.rfl)

theorem closure_eq (source : ρ → α) (target : ρ → Option α) (rules : List ρ) (elements : List α) :
    passes source target rules (rules.length + 1) elements = some (closure source target rules elements) :=
  (Option.some_get _).symm

/-- The closure has exactly what is reached. -/
theorem known_closure (h : Distinct elements) :
    known (closure source target rules elements) a = true ↔ Reached source target rules elements a := by
  obtain ⟨_, hstart, hreached, hself⟩ := passes_spec (closure_eq source target rules elements) h (List.Subset.refl _)
    fun a ha => .start ha BEq.rfl
  constructor
  · intro hknown
    obtain ⟨element, hmem, heq⟩ := known_iff.mp hknown
    cases hreached element hmem with
    | start hmem' heq' => exact .start hmem' (BEq.trans heq' heq)
    | follow hfrom hrule hsource htarget heq' => exact .follow hfrom hrule hsource htarget (BEq.trans heq' heq)
  · intro hreach
    induction hreach with
    | start hmem heq => exact known_iff.mpr ⟨_, hstart hmem, heq⟩
    | follow _ hrule hsource htarget heq ih =>
        refine known_congr heq ?_
        rw [← hself]
        exact known_pass hrule (known_congr hsource ih) htarget

theorem distinct_closure (h : Distinct elements) : Distinct (closure source target rules elements) :=
  (passes_spec (closure_eq source target rules elements) h (List.Subset.refl _) fun _ ha => .start ha BEq.rfl).1

end PermissionSync.Base

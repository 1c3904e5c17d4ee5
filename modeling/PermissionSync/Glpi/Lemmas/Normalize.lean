import PermissionSync.Glpi.Payload

/-!
# Normalization of the payload
-/

namespace PermissionSync.Glpi

open PermissionSync.Base PermissionSync.Wire

def RawPermission.pair (p : RawPermission) : SelectorPair := toLex (p.entity, p.profile)

def CanonicalAssignment.pair (a : CanonicalAssignment) : SelectorPair := toLex (a.entity, a.profile)

theorem groupPermissions_foldl (l : List RawPermission) (m : Std.TreeMap SelectorPair Bool) (k : SelectorPair) :
    (l.foldl (fun groups p => groups.alter p.pair fun r => some (r.getD false || p.recursive)) m)[k]? =
      if l.filter (fun p => p.pair = k) = [] then m[k]?
      else some (m[k]?.getD false || (l.filter fun p => p.pair = k).any RawPermission.recursive) := by
  induction l generalizing m with
  | nil => simp
  | cons p ps ih =>
      rw [List.foldl_cons, ih, Std.TreeMap.getElem?_alter]
      by_cases hp : p.pair = k
      · subst hp
        by_cases hps : ps.filter (fun x => x.pair = p.pair) = [] <;> simp [hps, Bool.or_assoc]
      · have hc : compare p.pair k ≠ Ordering.eq := fun h => hp (Std.LawfulEqCmp.eq_of_compare h)
        simp [hp, hc]

theorem groupPermissions_getElem? {permissions : List RawPermission} {k : SelectorPair} {r : Bool} :
    (groupPermissions permissions)[k]? = some r ↔
      (∃ p ∈ permissions, p.pair = k) ∧ r = permissions.any fun p => p.pair = k && p.recursive := by
  refine (iff_of_eq (congrArg (· = some r) (groupPermissions_foldl permissions ∅ k))).trans ?_
  have hany : (permissions.filter fun p => p.pair = k).any RawPermission.recursive =
      permissions.any fun p => p.pair = k && p.recursive := by
    rw [List.any_filter]
  split
  · rename_i h
    have hno : ¬ ∃ p ∈ permissions, p.pair = k := by
      intro hp
      obtain ⟨p, hp, hk⟩ := hp
      exact absurd hk (by simpa using List.filter_eq_nil_iff.mp h p hp)
    simp [hno]
  · rename_i h
    have hyes : ∃ p ∈ permissions, p.pair = k := by
      obtain ⟨p, hp⟩ := List.exists_mem_of_ne_nil _ h
      exact ⟨p, List.mem_of_mem_filter hp, by simpa using (List.mem_filter.mp hp).2⟩
    rw [hany]
    simp only [Std.TreeMap.getElem?_emptyc, Option.getD_none, Bool.false_or, Option.some.injEq]
    exact ⟨fun he => ⟨hyes, he.symm⟩, fun he => he.2.symm⟩

/-- The canonical assignments are the pairs of the payload, with the disjunction of their recursive values. -/
theorem mem_normalize {permissions : List RawPermission} {a : CanonicalAssignment} :
    a ∈ normalize permissions ↔
      (∃ p ∈ permissions, p.pair = a.pair) ∧
        a.recursive = permissions.any fun p => p.pair = a.pair && p.recursive := by
  rw [← groupPermissions_getElem?, ← Std.TreeMap.mem_toList_iff_getElem?_eq_some, normalize, List.mem_map]
  constructor
  · intro h
    obtain ⟨g, hg, rfl⟩ := h
    exact hg
  · intro h
    exact ⟨_, h, rfl⟩

theorem normalize_nodup (permissions : List RawPermission) :
    ((normalize permissions).map CanonicalAssignment.pair).Nodup := by
  have hpair : CanonicalAssignment.pair ∘ (fun g : SelectorPair × Bool => ⟨(ofLex g.1).1, (ofLex g.1).2, g.2⟩) =
      Prod.fst := rfl
  rw [normalize, List.map_map, hpair, Std.TreeMap.map_fst_toList_eq_keys]
  exact Std.TreeMap.distinct_keys.imp fun h he => h (by simp [he])

theorem parseAndNormalize_eq_ok {text : Text} {desired : List CanonicalAssignment} :
    parseAndNormalize text = .ok desired ↔ ∃ permissions, text.json.bind decodePayload = some permissions ∧
      (∀ p ∈ permissions, p.entity ≠ "" ∧ p.profile ≠ "") ∧ desired = normalize permissions := by
  simp only [parseAndNormalize, bind_eq_ok, okOr_eq_ok, ensure_eq_ok, pure_eq_ok, Except.ok.injEq]
  constructor
  · intro h
    obtain ⟨permissions, hp, _, hne, rfl⟩ := h
    exact ⟨permissions, hp, hne, rfl⟩
  · intro h
    obtain ⟨permissions, hp, hne, rfl⟩ := h
    exact ⟨permissions, hp, (), hne, rfl⟩

end PermissionSync.Glpi

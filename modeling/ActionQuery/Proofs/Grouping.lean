import ActionQuery.Filter.Reader
import ActionQuery.Proofs.Keyed
import Mathlib.Data.List.Induction

/-!
# Terms gathered by their keys

The terms of a filter text are gathered into conditions by what they are about and how they compare
it. Gathering them one after another comes to one condition for each key that is mentioned, in the
order of first mention, with the values of all terms that have the key, in their order.
-/

namespace ActionQuery.Filter

def Condition.key (c : Condition) : Subject × Comparator := (c.subject, c.comparator)

namespace Term

def key (t : Term) : Subject × Comparator := (t.subject, t.comparator)

/-- What terms are about, in the order of first mention. -/
def keys (terms : List Term) : List (Subject × Comparator) := (terms.map key).eraseDups

def valuesAt (terms : List Term) (k : Subject × Comparator) : List Datum :=
  (terms.filter (·.key = k)).map value

/-- The condition of all terms with one key. -/
def conditionAt (terms : List Term) (k : Subject × Comparator) : Condition :=
  ⟨k.1, k.2, valuesAt terms k⟩

variable {terms : List Term} {t : Term} {k : Subject × Comparator}

theorem mem_keys : k ∈ keys terms ↔ k ∈ terms.map key := List.mem_eraseDups

theorem nodup_keys (terms : List Term) : (keys terms).Nodup := Keyed.nodup_eraseDups _

theorem keys_concat_of_mem (h : t.key ∈ keys terms) : keys (terms ++ [t]) = keys terms := by
  rw [keys, List.map_append]
  exact Keyed.eraseDups_concat_of_mem (mem_keys.1 h)

theorem keys_concat_of_notMem (h : t.key ∉ keys terms) :
    keys (terms ++ [t]) = keys terms ++ [t.key] := by
  rw [keys, List.map_append]
  exact Keyed.eraseDups_concat_of_notMem fun hmem => h (mem_keys.2 hmem)

theorem valuesAt_concat_self (terms : List Term) (t : Term) :
    valuesAt (terms ++ [t]) t.key = valuesAt terms t.key ++ [t.value] := by
  simp [valuesAt, List.filter_append]

theorem valuesAt_concat_of_ne (terms : List Term) (h : t.key ≠ k) :
    valuesAt (terms ++ [t]) k = valuesAt terms k := by
  simp [valuesAt, List.filter_append, h]

theorem valuesAt_of_notMem (h : k ∉ keys terms) : valuesAt terms k = [] := by
  rw [valuesAt, List.map_eq_nil_iff, List.filter_eq_nil_iff]
  intro t ht hkey
  apply h
  rw [mem_keys, ← of_decide_eq_true hkey]
  exact List.mem_map_of_mem ht

@[simp]
theorem key_conditionAt (terms : List Term) (k : Subject × Comparator) :
    (conditionAt terms k).key = k := rfl

theorem map_key_map_conditionAt (terms : List Term) (ks : List (Subject × Comparator)) :
    (ks.map (conditionAt terms)).map Condition.key = ks := by
  rw [List.map_map]
  exact List.map_id ks

end Term

variable {conditions : List Condition} {t : Term}

theorem key_eq_key_iff {c : Condition} :
    c.key = t.key ↔ c.subject = t.subject ∧ c.comparator = t.comparator :=
  Prod.mk.injEq .. ▸ Iff.rfl

theorem addTerm_of_notMem (h : t.key ∉ conditions.map Condition.key) :
    addTerm conditions t = conditions ++ [⟨t.subject, t.comparator, [t.value]⟩] := by
  induction conditions with
  | nil => rfl
  | cons c rest ih =>
      rw [List.map_cons, List.mem_cons, not_or] at h
      have hne : c.key ≠ t.key := Ne.symm h.1
      rw [addTerm, if_neg (mt key_eq_key_iff.2 hne), ih h.2]
      rfl

/-- Where keys do not repeat, only the condition with the key of the term takes its value. -/
theorem addTerm_of_mem (hnodup : (conditions.map Condition.key).Nodup)
    (h : t.key ∈ conditions.map Condition.key) :
    addTerm conditions t = conditions.map fun c =>
      if c.key = t.key then { c with values := c.values ++ [t.value] } else c := by
  induction conditions with
  | nil => cases h
  | cons c rest ih =>
      rw [List.map_cons, List.nodup_cons] at hnodup
      rw [addTerm, List.map_cons]
      by_cases hkey : c.key = t.key
      · have hrest : ∀ other ∈ rest, other.key ≠ t.key := by
          intro other hother heq
          apply hnodup.1
          rw [hkey, ← heq]
          exact List.mem_map_of_mem hother
        rw [if_pos (key_eq_key_iff.1 hkey), if_pos hkey]
        congr 1
        refine ((List.map_congr_left fun other hother => ?_).trans (List.map_id rest)).symm
        rw [if_neg (hrest other hother)]
        rfl
      · have hmem : t.key ∈ rest.map Condition.key := by
          rw [List.map_cons, List.mem_cons] at h
          exact h.resolve_left (Ne.symm hkey)
        rw [if_neg (mt key_eq_key_iff.2 hkey), if_neg hkey, ih hnodup.2 hmem]

theorem gather_concat (terms : List Term) (t : Term) :
    gather (terms ++ [t]) = addTerm (gather terms) t :=
  List.foldl_concat ..

theorem gather_eq (terms : List Term) :
    gather terms = (Term.keys terms).map (Term.conditionAt terms) := by
  -- Terms are added at the end, so that is where the induction takes them from.
  induction terms using List.reverseRecOn with
  | nil => rfl
  | append_singleton terms t ih =>
      have hkeys := Term.map_key_map_conditionAt terms (Term.keys terms)
      rw [gather_concat, ih]
      by_cases h : t.key ∈ Term.keys terms
      · rw [Term.keys_concat_of_mem h, addTerm_of_mem (hkeys.symm ▸ Term.nodup_keys terms)
          (hkeys.symm ▸ h), List.map_map]
        refine List.map_congr_left fun k _ => ?_
        by_cases hkey : k = t.key
        · subst hkey
          rw [Function.comp_apply, if_pos (Term.key_conditionAt terms t.key), Term.conditionAt,
            Term.conditionAt, Term.valuesAt_concat_self]
        · rw [Function.comp_apply, if_neg (by rwa [Term.key_conditionAt]), Term.conditionAt,
            Term.conditionAt, Term.valuesAt_concat_of_ne terms (Ne.symm hkey)]
      · rw [Term.keys_concat_of_notMem h, addTerm_of_notMem (hkeys.symm ▸ h), List.map_append,
          List.map_singleton]
        congr 1
        · refine List.map_congr_left fun k hk => ?_
          have hne : t.key ≠ k := fun heq => h (heq ▸ hk)
          rw [Term.conditionAt, Term.conditionAt, Term.valuesAt_concat_of_ne terms hne]
        · rw [Term.conditionAt, Term.valuesAt_concat_self, Term.valuesAt_of_notMem h]
          rfl

end ActionQuery.Filter

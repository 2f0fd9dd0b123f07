import ActionQuery.Proofs.IdRoute
import ActionQuery.Proofs.StoreSelection
import Mathlib

/-!
# What a scope of numbers selects from a store

A store fails only by having no action under an id, so a scope of numbers always has an answer. Its
ids fall into two parts: those with an action, each of which is answered once, and those without,
each of which leaves one notice with the number text of the id, even if the job has `@`s of its own.
-/

namespace ActionQuery

open Scope

/-- The notice that a job has no action with a number yet. -/
def unmaterialized (job number : Text) : Logging.Notice where
  level := .warning
  message :=
    "coord action num=" ++ number ++ " of job=" ++ job ++ " not yet materialized; skipping"

namespace Store

variable {s : Store} {job : Text} {scope : Option Text} {ids : List Text}

theorem get?_eq_some_iff {id : Text} {r : Record} :
    s.get? id = some r ↔ r ∈ s.records ∧ r.id = id :=
  Keyed.get?_eq_some_iff s.distinct

theorem get?_eq_none_iff {id : Text} : s.get? id = none ↔ id ∉ s.ids := by
  rw [get?, Keyed.get?_eq_none_iff, ids, List.mem_map]
  simp

theorem toOption_lookup_byId (s : Store) (id : Text) :
    (s.lookup.byId id).toOption = (s.get? id).map some := by
  cases h : s.get? id <;> simp [lookup, byId, h, Except.map, Except.toOption]

theorem not_failsOn (s : Store) (id : Text) (reason : Fault) : ¬ s.lookup.FailsOn id reason := by
  rintro ⟨herror, hkind⟩
  cases h : s.get? id with
  | some r => simp [lookup, byId, h, Except.map] at herror
  | none =>
      simp only [lookup, byId, h, Option.elim_none, Except.map, Except.error.injEq] at herror
      exact hkind (herror ▸ rfl)

theorem follow_lookup (s : Store) (ids : List Text) :
    follow s.lookup ids = {
      result := .ok ((ids.filterMap s.get?).map some)
      lookups := ids.map .byId
      reads := []
      skipped := ids.filter (· ∉ s.ids) } := by
  rw [follow_of_tolerated fun id _ => s.not_failsOn id]
  have hfound : ids.filterMap (fun id => (s.lookup.byId id).toOption) =
      (ids.filterMap s.get?).map some := by
    simp only [toOption_lookup_byId, List.map_filterMap]
  have hskipped : ids.filter (fun id => (s.lookup.byId id).toOption.isNone) =
      ids.filter (· ∉ s.ids) := by
    refine List.filter_congr fun id _ => ?_
    rw [toOption_lookup_byId, Option.isNone_map, Bool.eq_iff_iff, Option.isNone_iff_eq_none,
      get?_eq_none_iff, decide_eq_true_iff]
  rw [hfound, hskipped]

theorem map_id_filterMap_get? (s : Store) (ids : List Text) :
    (ids.filterMap s.get?).map Record.id = ids.filter (· ∈ s.ids) := by
  induction ids with
  | nil => rfl
  | cons id rest ih =>
      cases h : s.get? id with
      | none =>
          have hnot := get?_eq_none_iff.1 h
          rw [List.filterMap_cons_none h, ih, List.filter_cons_of_neg (by simpa using hnot)]
      | some r =>
          obtain ⟨hr, hid⟩ := get?_eq_some_iff.1 h
          have hmem : id ∈ s.ids := hid ▸ List.mem_map_of_mem hr
          rw [List.filterMap_cons_some h, List.map_cons, ih, hid,
            List.filter_cons_of_pos (by simpa using hmem)]

theorem map_actionId_afterLast {order : List Text}
    (h : ∀ id ∈ order, ∃ number, '@' ∉ number ∧ actionId job number = id) :
    (order.map (Text.afterLast '@')).map (actionId job) = order := by
  rw [List.map_map]
  refine (List.map_congr_left fun id hid => ?_).trans (List.map_id order)
  obtain ⟨number, hnumber, rfl⟩ := h id hid
  exact congrArg (actionId job) (afterLast_actionId hnumber job)

/-- A scope of numbers over a store, in any order of its ids: each id with an action is answered by
that action once, and each other one leaves one notice with the number text of the id. -/
theorem resolve_ids_over_store (s : Store) {arrange : List Text → List Text}
    (hids : actionIds (some job) scope = .ok ids) (harrange : (arrange ids).Perm ids) :
    ∃ (records : List Record) (numbers : List Text),
      (resolveIds s.lookup arrange (some job) scope).result = .ok (records.map some) ∧
      (∀ r ∈ records, r ∈ s.records) ∧
      (records.map Record.id).Perm (ids.filter (· ∈ s.ids)) ∧
      (resolveIds s.lookup arrange (some job) scope).notices (some job) =
        numbers.map (unmaterialized job) ∧
      (numbers.map (actionId job)).Perm (ids.filter (· ∉ s.ids)) ∧
      ids.Nodup ∧ records.length + numbers.length = ids.length := by
  obtain ⟨name, texts, hname, htexts, hnodup, hat⟩ := actionIds_eq_ok hids
  cases hname
  rw [resolveIds_of_actionIds hids, follow_lookup]
  generalize arrange ids = order at harrange
  have hwritten : ∀ id ∈ order, ∃ number, '@' ∉ number ∧ actionId job number = id := by
    intro id hid
    obtain ⟨number, hnumber, heq⟩ := List.mem_map.1 (htexts ▸ harrange.subset hid)
    exact ⟨number, hat number hnumber, heq⟩
  have hrecords := map_id_filterMap_get? s order
  have hnumbers : (((order.filter (· ∉ s.ids)).map (Text.afterLast '@')).map (actionId job)) =
      order.filter (· ∉ s.ids) :=
    map_actionId_afterLast fun id hid => hwritten id (List.mem_of_mem_filter hid)
  have hpresent : (order.filter (· ∈ s.ids)).Perm (ids.filter (· ∈ s.ids)) := harrange.filter _
  have habsent : (order.filter (· ∉ s.ids)).Perm (ids.filter (· ∉ s.ids)) := harrange.filter _
  refine ⟨order.filterMap s.get?, (order.filter (· ∉ s.ids)).map (Text.afterLast '@'), rfl, ?_,
    by rwa [hrecords], ?_, by rwa [hnumbers], ?_, ?_⟩
  · intro r hr
    obtain ⟨id, _, hfound⟩ := List.mem_filterMap.1 hr
    exact (get?_eq_some_iff.1 hfound).1
  · rw [List.map_map]
    rfl
  · rw [htexts]
    exact hnodup.map (actionId_injective job)
  · have hlength := congrArg List.length hrecords
    rw [List.length_map] at hlength
    have hparts := List.length_eq_length_filter_add (l := ids) fun id => decide (id ∈ s.ids)
    rw [hlength, List.length_map, hpresent.length_eq, habsent.length_eq, hparts]
    simp only [decide_not]

theorem resolve_ids_over_twoJobs :
    ∃ (records : List Record) (numbers : List Text),
      (resolveIds twoJobs.lookup List.reverse (some "j@2") (some "1-2, 007")).result =
        .ok (records.map some) ∧
      records.map Record.id = [("j@2@1" : Text)] ∧
      (resolveIds twoJobs.lookup List.reverse (some "j@2") (some "1-2, 007")).notices
        (some "j@2") = numbers.map (unmaterialized "j@2") ∧
      (numbers.map (actionId "j@2")).Perm ["j@2@2", "j@2@007"] := by
  have hids : actionIds (some "j@2") (some "1-2, 007") =
      .ok ["j@2@1", "j@2@2", "j@2@007"] := by cbv
  obtain ⟨records, numbers, hresult, _, hpresent, hnotices, habsent, _, _⟩ :=
    resolve_ids_over_store twoJobs hids (List.reverse_perm _)
  exact ⟨records, numbers, hresult, List.perm_singleton.1 hpresent, hnotices, habsent⟩

end Store

end ActionQuery

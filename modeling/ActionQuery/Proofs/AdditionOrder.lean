import ActionQuery.Proofs.StoreHistory
import ActionQuery.Proofs.StoreIds

/-!
# The order of additions does not show

Two stores that hold the same records under the same ids may have taken them in different orders.
The actions of a job are put in order by their numbers, no two of which are the same, so both stores
have one answer to every lookup. A scope of times then comes to the same on both, errors included,
and a scope of numbers to the same records in whatever order its ids are looked up.
-/

namespace ActionQuery.Store

open Scope

variable {s t : Store}

theorem mem_records_iff {r : Record} : r ∈ s.records ↔ s.get? r.id = some r := by
  rw [get?_eq_some_iff]
  exact (and_iff_left rfl).symm

section SameRecords

variable (h : ∀ id, s.get? id = t.get? id)

include h

/-- Both stores give one list for a job, as strictly ascending lists with the same members are. -/
theorem ofJob_eq_of_get?_eq (job : Text) : s.ofJob job = t.ofJob job := by
  apply eq_of_pairwise_number pairwise_ofJob pairwise_ofJob
  intro r
  rw [mem_ofJob, mem_ofJob, mem_records_iff, mem_records_iff, h]

theorem atTime_eq_of_get?_eq (job : Text) (time : Calendar.Stamp) :
    s.atTime job time = t.atTime job time := by
  rw [atTime, atTime, ofJob_eq_of_get?_eq h]

theorem inRange_eq_of_get?_eq (job : Text) (range : TimeRange) (active : Bool) :
    s.inRange job range active = t.inRange job range active := by
  rw [inRange, inRange, ofJob_eq_of_get?_eq h]

theorem lookup_eq_of_get?_eq : s.lookup = t.lookup := by
  have hbyId : s.byId = t.byId := by
    funext id
    rw [byId, byId, h]
  have hatTime : s.atTime = t.atTime := by
    funext job time
    exact atTime_eq_of_get?_eq h job time
  have hinRange : s.inRange = t.inRange := by
    funext job range active
    exact inRange_eq_of_get?_eq h job range active
  rw [lookup, lookup, hbyId, hatTime, hinRange]

end SameRecords

/-- Over one store, the order in which ids are looked up rearranges the answer and leaves an error as
it is. -/
theorem resolveIds_of_perm (s : Store) {first second : List Text → List Text}
    (h : ∀ ids, (first ids).Perm (second ids)) (job scope : Option Text) :
    (∀ e, (resolveIds s.lookup first job scope).result = .error e ↔
      (resolveIds s.lookup second job scope).result = .error e) ∧
    ∀ found, (resolveIds s.lookup first job scope).result = .ok found →
      ∃ others, (resolveIds s.lookup second job scope).result = .ok others ∧
        found.Perm others := by
  cases hids : actionIds job scope with
  | error e => simp [resolveIds, hids, Resolution.ofError]
  | ok ids =>
      rw [resolveIds_of_actionIds hids, resolveIds_of_actionIds hids, follow_lookup, follow_lookup]
      refine ⟨by simp, ?_⟩
      rintro found ⟨⟩
      exact ⟨_, rfl, ((h ids).filterMap s.get?).map some⟩

/-- Two stores with the same records under the same ids cannot be told apart, in whatever order they
took them: a time, a range and a scope of times have one answer or one error on both, and a scope of
numbers has one error or the same records. -/
theorem resolve_of_get?_eq {s t : Store} (h : ∀ id, s.get? id = t.get? id) :
    (∀ job time, s.atTime job time = t.atTime job time) ∧
    (∀ job range active, s.inRange job range active = t.inRange job range active) ∧
    (∀ reader first second active job scope,
      (s.resolver reader first).resolve Route.times.name active job scope =
        (t.resolver reader second).resolve Route.times.name active job scope) ∧
    (∀ reader first second active job scope, (∀ ids, (first ids).Perm (second ids)) →
      (∀ e, ((s.resolver reader first).resolve Route.ids.name active job scope).result = .error e ↔
        ((t.resolver reader second).resolve Route.ids.name active job scope).result = .error e) ∧
      ∀ found, ((s.resolver reader first).resolve Route.ids.name active job scope).result =
          .ok found →
        ∃ others, ((t.resolver reader second).resolve Route.ids.name active job scope).result =
          .ok others ∧ found.Perm others) := by
  have hlookup := lookup_eq_of_get?_eq h
  refine ⟨atTime_eq_of_get?_eq h, inRange_eq_of_get?_eq h, ?_, ?_⟩
  · intro reader first second active job scope
    rw [Resolver.resolve_times, Resolver.resolve_times]
    exact congrArg (resolveTimes · reader active job scope) hlookup
  · intro reader first second active job scope horder
    simp only [Resolver.resolve_ids, resolver, hlookup]
    exact t.resolveIds_of_perm horder job scope

theorem get?_eq_of_perm (h : s.records.Perm t.records) (id : Text) : s.get? id = t.get? id := by
  apply Option.ext
  intro r
  rw [get?_eq_some_iff, get?_eq_some_iff, h.mem_iff]

/-- The action at noon is added before the one in the evening and once more behind it. -/
def noonFirst : Store :=
  ofList [plainAction "j" 7 noon .waiting, plainAction "j" 3 evening .succeeded,
    plainAction "j" 7 noon .running]

def eveningFirst : Store :=
  ofList [plainAction "j" 3 evening .succeeded, plainAction "j" 7 noon .running]

theorem resolve_of_noonFirst :
    noonFirst.records ≠ eveningFirst.records ∧
    (∀ id, noonFirst.get? id = eveningFirst.get? id) ∧
    (noonFirst.resolver dayReader id).resolve Route.times.name true (some "j")
        (some "noon::evening,evening") =
      (eveningFirst.resolver dayReader List.reverse).resolve Route.times.name true (some "j")
        (some "noon::evening,evening") ∧
    ∃ others, ((eveningFirst.resolver dayReader List.reverse).resolve Route.ids.name false
        (some "j") (some "3-7")).result = .ok others ∧
      [some (plainAction "j" 3 evening .succeeded),
        some (plainAction "j" 7 noon .running)].Perm others := by
  have hget : ∀ id, noonFirst.get? id = eveningFirst.get? id := get?_eq_of_perm (by decide)
  obtain ⟨_, _, htimes, hids⟩ := resolve_of_get?_eq hget
  have hresult : ((noonFirst.resolver dayReader id).resolve Route.ids.name false (some "j")
      (some "3-7")).result = .ok [some (plainAction "j" 3 evening .succeeded),
        some (plainAction "j" 7 noon .running)] := by
    have hactions : actionIds (some "j") (some "3-7") =
        .ok ["j@3", "j@4", "j@5", "j@6", "j@7"] := by cbv
    rw [Resolver.resolve_ids, resolveIds_of_actionIds hactions]
    decide
  refine ⟨by decide, hget, htimes _ _ _ _ _ _, ?_⟩
  exact (hids dayReader id List.reverse false _ _ fun ids => (List.reverse_perm ids).symm).2 _ hresult

end ActionQuery.Store

import ActionQuery.Proofs.StoreIds

/-!
# A scope reaches no other job

On the route of times the store is asked for a job, and on the route of numbers only for ids. An id
with the job that was asked for in front of its last `@` is the id of an action of that job, so
neither route reaches another job, whatever the jobs of the store are called. As no id is answered
twice, no two answers have the same number either.
-/

namespace ActionQuery

open Scope

namespace Store

/-- The actions are stored ones of a job, and no id is among them twice. -/
def Isolated (s : Store) (job : Option Text) (actions : List (Option Record)) : Prop :=
  ∃ records : List Record, actions = records.map some ∧
    (∀ r ∈ records, r ∈ s.records ∧ job = some r.job) ∧ (records.map Record.id).Nodup

variable {s : Store} {job : Text} {active : Bool}

/-- Whatever a store gives for an element is of the job that was asked for. -/
theorem mem_ofJob_of_gives {token : TimeToken} {records : List Record}
    (h : token.Gives s.lookup job active records) {r : Record} (hr : r ∈ records) :
    r ∈ s.ofJob job := by
  cases h with
  | range hrange => exact mem_ofJob_of_inRange hrange hr
  | single htime =>
      rw [List.mem_singleton.1 hr]
      exact List.mem_of_find?_eq_some (Except.ok.inj htime)

theorem resolveTimes_isolated {reader : TimeReader} {job scope : Option Text}
    {actions : List (Option Record)}
    (h : (resolveTimes s.lookup reader active job scope).result = .ok actions) :
    s.Isolated job actions := by
  obtain ⟨name, tokens, rfl, hblank, htokens⟩ := exists_readsTimes_of_resolveTimes_eq_ok h
  obtain ⟨reads, hresolve⟩ := resolveTimes_of_readsTimes hblank htokens
  rw [hresolve] at h
  cases hcollect : (collect s.lookup name active tokens []).1 with
  | error e => simp [hcollect, Except.map] at h
  | ok records =>
      simp only [hcollect, Except.map, Except.ok.injEq] at h
      obtain ⟨answers, hgives, rfl⟩ := exists_answers_of_collect_eq_ok hcollect
      refine ⟨_, h.symm, ?_, Keyed.nodup_keys_addNew Record.id _ List.nodup_nil⟩
      intro r hr
      rw [Keyed.addNew_nil] at hr
      obtain ⟨given, hgiven, hmem⟩ := List.mem_flatten.1 (Keyed.mem_of_mem_firsts hr)
      obtain ⟨token, _, htoken⟩ := exists_left_of_mem hgives hgiven
      obtain ⟨hstored, hjob⟩ := mem_ofJob.1 (mem_ofJob_of_gives htoken hmem)
      exact ⟨hstored, congrArg some hjob.symm⟩

theorem resolveIds_isolated {arrange : List Text → List Text}
    (harrange : ∀ ids, (arrange ids).Perm ids) {job scope : Option Text}
    {actions : List (Option Record)}
    (h : (resolveIds s.lookup arrange job scope).result = .ok actions) :
    s.Isolated job actions := by
  cases hids : actionIds job scope with
  | error e => simp [resolveIds, hids, Resolution.ofError] at h
  | ok ids =>
      obtain ⟨name, numbers, rfl, rfl, hnodup, hat⟩ := actionIds_eq_ok hids
      rw [resolveIds_of_actionIds hids, follow_lookup] at h
      have hfound := map_id_filterMap_get? s (arrange (numbers.map (actionId name)))
      refine ⟨_, (Except.ok.inj h).symm, ?_, ?_⟩
      · intro r hr
        obtain ⟨id, hid, hget⟩ := List.mem_filterMap.1 hr
        obtain ⟨hstored, rfl⟩ := get?_eq_some_iff.1 hget
        obtain ⟨number, hnumber, heq⟩ := List.mem_map.1 ((harrange _).subset hid)
        have hjob := Record.job_eq_of_id_eq (hat number hnumber) heq.symm
        exact ⟨hstored, congrArg some hjob.symm⟩
      · rw [hfound]
        have hids := hnodup.map (actionId_injective name)
        exact ((harrange _).nodup_iff.2 hids).filter _

/-- Whatever is resolved over a store, its answer holds actions of the job that was asked for and of
no other, and no two with the same id or the same number. -/
theorem resolve_isolated (s : Store) (reader : TimeReader) {arrange : List Text → List Text}
    (harrange : ∀ ids, (arrange ids).Perm ids) {route job scope : Option Text} {active : Bool}
    {actions : List (Option Record)}
    (h : ((s.resolver reader arrange).resolve route active job scope).result = .ok actions) :
    ∃ records : List Record, actions = records.map some ∧
      (∀ r ∈ records, r ∈ s.records ∧ job = some r.job) ∧
      (records.map Record.id).Nodup ∧ (records.map Record.number).Nodup := by
  have hisolated : s.Isolated job actions := by
    unfold Resolver.resolve at h
    split at h
    · exact resolveTimes_isolated h
    · exact resolveIds_isolated harrange h
    · cases h
  obtain ⟨records, hactions, hmem, hids⟩ := hisolated
  refine ⟨records, hactions, hmem, hids, ?_⟩
  cases job with
  | none =>
      have hempty : records = [] := List.eq_nil_iff_forall_not_mem.2 fun r hr => by
        simpa using (hmem r hr).2
      simp [hempty]
  | some name =>
      exact Record.nodup_numbers (fun r hr => (Option.some.inj (hmem r hr).2).symm) hids

theorem resolve_isolated_twoJobs :
    ((twoJobs.resolver dayReader List.reverse).resolve Route.ids.name false (some "j@2")
      (some "01, 1-2")).result = .ok [some (plainAction "j@2" 1 noon .running)] ∧
    ∃ records : List Record, [some (plainAction "j@2" 1 noon .running)] = records.map some ∧
      (∀ r ∈ records, r ∈ twoJobs.records ∧ some ("j@2" : Text) = some r.job) ∧
      (records.map Record.id).Nodup ∧ (records.map Record.number).Nodup := by
  have hresult : ((twoJobs.resolver dayReader List.reverse).resolve Route.ids.name false
      (some "j@2") (some "01, 1-2")).result = .ok [some (plainAction "j@2" 1 noon .running)] := by
    have hids : actionIds (some "j@2") (some "01, 1-2") = .ok ["j@2@01", "j@2@1", "j@2@2"] := by
      cbv
    rw [Resolver.resolve_ids, resolveIds_of_actionIds hids]
    decide
  exact ⟨hresult, resolve_isolated twoJobs dayReader List.reverse_perm hresult⟩

end Store

end ActionQuery

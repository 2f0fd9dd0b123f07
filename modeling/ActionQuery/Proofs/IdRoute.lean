import ActionQuery.Proofs.ActionId
import ActionQuery.Proofs.Elements

/-!
# The route of action numbers

A scope of numbers becomes a list of different ids of one job, and the ids are looked up one after
another. Only one thing ends the search: a question that fails for another reason than that there is
no such action. Without one, each id leaves either its action or a notice, whatever the order is.
-/

namespace ActionQuery.Scope

theorem at_notMem_of_readIdTokens {scope : Option Text} {tokens : List IdToken}
    (h : readIdTokens scope = .ok tokens) {number : Text}
    (hnumber : number ∈ tokens.flatMap IdToken.numberTexts) : '@' ∉ number := by
  obtain ⟨elements, _, hread⟩ := readIdTokens_eq_ok_iff.1 h
  obtain ⟨token, htoken, hmem⟩ := List.mem_flatMap.1 hnumber
  obtain ⟨element, _, helement⟩ := exists_left_of_mem hread htoken
  exact IdToken.at_notMem_numberTexts helement hmem

theorem actionIds_eq_ok_iff {job scope : Option Text} {ids : List Text} :
    actionIds job scope = .ok ids ↔ ∃ name tokens, checkJob job = .ok name ∧
      readIdTokens scope = .ok tokens ∧ expandIds name tokens = ids := by
  unfold actionIds
  cases checkJob job with
  | error e => simp
  | ok name => simp [map_eq_ok_iff]

/-- The ids of a scope are those of one job, each once, for number texts without an `@`. -/
theorem actionIds_eq_ok {job scope : Option Text} {ids : List Text}
    (h : actionIds job scope = .ok ids) :
    ∃ (name : Text) (numbers : List Text), job = some name ∧ ids = numbers.map (actionId name) ∧
      numbers.Nodup ∧ ∀ number ∈ numbers, '@' ∉ number := by
  obtain ⟨name, tokens, hjob, htokens, hids⟩ := actionIds_eq_ok_iff.1 h
  have hname := (checkJob_eq_ok_iff.1 hjob).1
  refine ⟨name, distinct (tokens.flatMap IdToken.numberTexts), hname, hids.symm,
    nodup_distinct _, ?_⟩
  intro number hnumber
  exact at_notMem_of_readIdTokens htokens (mem_distinct.1 hnumber)

/-- The question for an id fails, and not because there is no such action. -/
def Lookup.FailsOn (l : Lookup) (id : Text) (reason : Fault) : Prop :=
  l.byId id = .error reason ∧ reason.kind ≠ .notFound

variable {l : Lookup} {ids : List Text}

theorem Lookup.find_eq_failed_iff {id : Text} {reason : Fault} :
    l.find id = .failed reason ↔ l.FailsOn id reason := by
  unfold find FailsOn
  cases l.byId id with
  | ok record => simp
  | error other => grind

theorem Lookup.toOption_of_find_notFound {id : Text} {reason : Fault}
    (h : l.find id = .notFound reason) : (l.byId id).toOption = none := by
  unfold find at h
  split at h
  · cases h
  · rename_i hid
    rw [hid]
    rfl

theorem Lookup.toOption_of_find_found {id : Text} {record : Option Record}
    (h : l.find id = .found record) : (l.byId id).toOption = some record := by
  unfold find at h
  split at h
  · rename_i hid
    rw [hid, LookupOutcome.found.inj h]
    rfl
  · split at h <;> cases h

/-- Where no question fails, every id is asked for once and in order. -/
theorem follow_of_tolerated (h : ∀ id ∈ ids, ∀ reason, ¬ l.FailsOn id reason) :
    follow l ids = {
      result := .ok (ids.filterMap fun id => (l.byId id).toOption)
      lookups := ids.map .byId
      reads := []
      skipped := ids.filter fun id => (l.byId id).toOption.isNone } := by
  induction ids with
  | nil => rfl
  | cons id rest ih =>
      have hrest := ih fun other hother => h other (List.mem_cons_of_mem _ hother)
      cases hfind : l.find id with
      | failed reason =>
          exact absurd (Lookup.find_eq_failed_iff.1 hfind) (h id List.mem_cons_self reason)
      | notFound reason =>
          have hnone := Lookup.toOption_of_find_notFound hfind
          simp [follow, hfind, hrest, hnone]
      | found record =>
          have hsome := Lookup.toOption_of_find_found hfind
          simp [follow, hfind, hrest, hsome, Except.map]

/-- A search that ends without an answer names an id whose question failed, and how. -/
theorem exists_failsOn_of_follow_eq_error {e : Error} (h : (follow l ids).result = .error e) :
    ∃ id ∈ ids, ∃ reason, l.FailsOn id reason ∧ e = .lookupFailed id reason := by
  induction ids with
  | nil => cases h
  | cons id rest ih =>
      have hlater (hrest : (follow l rest).result = .error e) :
          ∃ other ∈ id :: rest, ∃ reason, l.FailsOn other reason ∧
            e = .lookupFailed other reason := by
        obtain ⟨other, hother, hfails⟩ := ih hrest
        exact ⟨other, List.mem_cons_of_mem _ hother, hfails⟩
      rw [follow] at h
      cases hfind : l.find id with
      | failed reason =>
          simp only [hfind, Except.error.injEq] at h
          exact ⟨id, List.mem_cons_self, reason, Lookup.find_eq_failed_iff.1 hfind, h.symm⟩
      | notFound reason =>
          simp only [hfind] at h
          exact hlater h
      | found record =>
          simp only [hfind] at h
          cases hrest : (follow l rest).result with
          | ok records => simp [hrest, Except.map] at h
          | error e' =>
              simp only [hrest, Except.map, Except.error.injEq] at h
              exact hlater (h ▸ hrest)

theorem exists_follow_eq_error {id : Text} (hid : id ∈ ids) {reason : Fault}
    (hfails : l.FailsOn id reason) : ∃ e, (follow l ids).result = .error e := by
  induction ids with
  | nil => cases hid
  | cons first rest ih =>
      rw [follow]
      rcases List.mem_cons.1 hid with rfl | hrest
      · rw [Lookup.find_eq_failed_iff.2 hfails]
        exact ⟨_, rfl⟩
      · obtain ⟨e, he⟩ := ih hrest
        cases l.find first with
        | failed other => exact ⟨_, rfl⟩
        | notFound other => exact ⟨e, he⟩
        | found record => exact ⟨e, by simp [he, Except.map]⟩

theorem Resolver.resolve_ids (r : Resolver) (active : Bool) (job scope : Option Text) :
    r.resolve Route.ids.name active job scope = resolveIds r.lookup r.arrange job scope := rfl

theorem resolveIds_of_actionIds {arrange : List Text → List Text} {job scope : Option Text}
    (h : actionIds job scope = .ok ids) :
    resolveIds l arrange job scope = follow l (arrange ids) := by
  simp [resolveIds, h]

end ActionQuery.Scope

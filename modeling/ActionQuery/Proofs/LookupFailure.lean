import ActionQuery.Proofs.StoreIds

/-!
# Lookups that fail

A lookup may answer or fail in any way, question by question. The two routes take its failures
differently. On the route of times the first element that is given nothing decides, and it matters
whether the store failed. On the route of numbers a missing action is passed over, and any other
failure ends the search for the id it was met at, which depends on the order of the ids.
-/

namespace ActionQuery.Scope

variable {r : Resolver} {active : Bool} {job : Text} {scope : Option Text}

theorem resolve_times_of_first_failure (hjob : Text.blank job = false)
    {before after : List TimeToken} {token : TimeToken}
    (htokens : ReadsTimes r.reader scope (before ++ token :: after))
    (hbefore : ∀ t ∈ before, ∃ records, t.Gives r.lookup job active records)
    (hnot : ¬ ∃ records, token.Gives r.lookup job active records) :
    ∃ e, token.Fails r.lookup job active e ∧
      (r.resolve Route.times.name active job scope).result = .error e ∧
      (r.resolve Route.times.name active job scope).lookups =
        (before ++ [token]).map (TimeToken.call job active) := by
  obtain ⟨e, hfails⟩ := (token.gives_or_fails r.lookup job active).resolve_left hnot
  obtain ⟨reads, hresolve⟩ := resolveTimes_of_readsTimes hjob htokens
  refine ⟨e, hfails, ?_⟩
  rw [Resolver.resolve_times, hresolve, collect_of_fails hbefore hfails]
  exact ⟨rfl, rfl⟩

theorem resolve_times_of_gives (hjob : Text.blank job = false) {tokens : List TimeToken}
    (htokens : ReadsTimes r.reader scope tokens)
    (h : ∀ t ∈ tokens, ∃ records, t.Gives r.lookup job active records) :
    ∃ records, (r.resolve Route.times.name active job scope).result = .ok records := by
  obtain ⟨answers, hanswers⟩ := exists_forall₂ h
  obtain ⟨reads, hresolve⟩ := resolveTimes_of_readsTimes hjob htokens
  rw [Resolver.resolve_times, hresolve, collect_of_gives hanswers]
  exact ⟨_, rfl⟩

theorem exists_failsOn_of_resolve_ids {ids : List Text}
    (hids : actionIds (some job) scope = .ok ids) (harrange : (r.arrange ids).Perm ids) {e : Error}
    (h : (r.resolve Route.ids.name active job scope).result = .error e) :
    ∃ id ∈ ids, ∃ reason, r.lookup.FailsOn id reason ∧ e = .lookupFailed id reason := by
  rw [Resolver.resolve_ids, resolveIds_of_actionIds hids] at h
  obtain ⟨id, hid, hfails⟩ := exists_failsOn_of_follow_eq_error h
  exact ⟨id, harrange.subset hid, hfails⟩

theorem exists_resolve_ids_eq_error {ids : List Text} (hids : actionIds (some job) scope = .ok ids)
    (harrange : (r.arrange ids).Perm ids) {id : Text} (hid : id ∈ ids) {reason : Fault}
    (hfails : r.lookup.FailsOn id reason) :
    ∃ e, (r.resolve Route.ids.name active job scope).result = .error e := by
  rw [Resolver.resolve_ids, resolveIds_of_actionIds hids]
  exact exists_follow_eq_error (harrange.symm.subset hid) hfails

/-- Any lookup, on both routes. Times: the first element that is given nothing decides by what
became of its question, and nothing is asked after it. Numbers: there is no answer exactly if the
question for some id fails and not for want of an action, and the error names such an id and its
failure. -/
theorem resolve_of_any_lookup (r : Resolver) (active : Bool) (job : Text) (scope : Option Text) :
    (Text.blank job = false → ∀ tokens, ReadsTimes r.reader scope tokens →
      (∀ before token after, tokens = before ++ token :: after →
        (∀ t ∈ before, ∃ records, t.Gives r.lookup job active records) →
        (¬ ∃ records, token.Gives r.lookup job active records) →
          ∃ e, token.Fails r.lookup job active e ∧
            (r.resolve Route.times.name active job scope).result = .error e ∧
            (r.resolve Route.times.name active job scope).lookups =
              (before ++ [token]).map (TimeToken.call job active)) ∧
      ((∀ t ∈ tokens, ∃ records, t.Gives r.lookup job active records) →
        ∃ records, (r.resolve Route.times.name active job scope).result = .ok records)) ∧
    (∀ ids, actionIds (some job) scope = .ok ids → (r.arrange ids).Perm ids →
      ((∃ e, (r.resolve Route.ids.name active job scope).result = .error e) ↔
        ∃ id ∈ ids, ∃ reason, r.lookup.FailsOn id reason) ∧
      ∀ e, (r.resolve Route.ids.name active job scope).result = .error e →
        ∃ id ∈ ids, ∃ reason, r.lookup.FailsOn id reason ∧ e = .lookupFailed id reason) := by
  refine ⟨fun hjob tokens htokens => ⟨?_, resolve_times_of_gives hjob htokens⟩,
    fun ids hids harrange => ⟨⟨?_, ?_⟩, fun e => exists_failsOn_of_resolve_ids hids harrange⟩⟩
  · rintro before token after rfl hbefore hnot
    exact resolve_times_of_first_failure hjob htokens hbefore hnot
  · rintro ⟨e, he⟩
    obtain ⟨id, hid, reason, hfails, _⟩ := exists_failsOn_of_resolve_ids hids harrange he
    exact ⟨id, hid, reason, hfails⟩
  · rintro ⟨id, hid, reason, hfails⟩
    exact exists_resolve_ids_eq_error hids harrange hid hfails

/-- A store that is away in the evening, and does not answer in time for one id. -/
def unsteady : Lookup where
  byId id :=
    if id = "j@3".toList then .error ⟨.other "TimeoutError", "slow"⟩
    else Store.twoJobs.lookup.byId id
  atTime job time :=
    if time = Store.evening.toStamp then .error ⟨.storage, "away"⟩
    else Store.twoJobs.lookup.atTime job time
  inRange := Store.twoJobs.lookup.inRange

def unsteadyResolver : Resolver := ⟨unsteady, Store.dayReader, List.reverse⟩

theorem unsteady_failsOn {id : Text} {reason : Fault} (h : unsteady.FailsOn id reason) :
    id = "j@3" ∧ reason = ⟨.other "TimeoutError", "slow"⟩ := by
  obtain ⟨herror, hkind⟩ := h
  simp only [unsteady] at herror
  split at herror
  · next hid => exact ⟨hid, (Except.error.inj herror).symm⟩
  · cases Store.not_failsOn Store.twoJobs id reason ⟨herror, hkind⟩

theorem resolve_of_unsteady :
    ((unsteadyResolver.resolve Route.times.name true (some "j")
      (some "noon,evening,noon")).result = .error (.lookupFailed "j" ⟨.storage, "away"⟩) ∧
    (unsteadyResolver.resolve Route.times.name true (some "j") (some "noon,evening,noon")).lookups =
      [.atTime "j" Store.noon.toStamp, .atTime "j" Store.evening.toStamp]) ∧
    (unsteadyResolver.resolve Route.ids.name true (some "j") (some "2-4")).result =
      .error (.lookupFailed "j@3" ⟨.other "TimeoutError", "slow"⟩) := by
  have hnoon : (TimeToken.single Store.noon.toStamp "noon").Gives unsteady "j" true
      [Store.plainAction "j" 2 Store.noon .running] :=
    .single (by cbv)
  have haway : unsteady.atTime "j" Store.evening.toStamp = .error ⟨.storage, "away"⟩ := by cbv
  have hslow : unsteady.FailsOn "j@3" ⟨.other "TimeoutError", "slow"⟩ := ⟨by cbv, by decide⟩
  constructor
  · have htokens : ReadsTimes Store.dayReader (some "noon,evening,noon")
        [.single Store.noon.toStamp "noon", .single Store.evening.toStamp "evening",
          .single Store.noon.toStamp "noon"] :=
      ⟨["noon", "evening", "noon"], by cbv, .cons (by cbv) (.cons (by cbv) (.cons (by cbv) .nil))⟩
    obtain ⟨e, hfails, hresult, hlookups⟩ :=
      ((resolve_of_any_lookup unsteadyResolver true "j" (some "noon,evening,noon")).1 (by decide) _
        htokens).1 [.single Store.noon.toStamp "noon"] (.single Store.evening.toStamp "evening")
        [.single Store.noon.toStamp "noon"] rfl
        (fun t ht => ⟨_, List.mem_singleton.1 ht ▸ hnoon⟩)
        (by
          rintro ⟨records, hgives⟩
          cases hgives with
          | single hfound => cases haway.symm.trans hfound)
    rw [hresult, hlookups]
    refine ⟨?_, rfl⟩
    cases hfails with
    | singleStorage h _ => rw [Except.error.inj (h.symm.trans haway)]
    | singleOther h hother =>
        rw [Except.error.inj (h.symm.trans haway)] at hother
        cases hother
    | missing h => cases haway.symm.trans h
  · have hids : actionIds (some "j") (some "2-4") = .ok ["j@2", "j@3", "j@4"] := by cbv
    obtain ⟨hiff, hnamed⟩ :=
      (resolve_of_any_lookup unsteadyResolver true "j" (some "2-4")).2 _ hids (List.reverse_perm _)
    obtain ⟨e, he⟩ := hiff.2 ⟨"j@3", by decide, _, hslow⟩
    obtain ⟨id, _, reason, hfails, rfl⟩ := hnamed e he
    obtain ⟨rfl, rfl⟩ := unsteady_failsOn hfails
    exact he

end ActionQuery.Scope

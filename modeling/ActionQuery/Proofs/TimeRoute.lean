import ActionQuery.Proofs.ActionId
import ActionQuery.Proofs.Elements
import ActionQuery.Proofs.Keyed

/-!
# The route of nominal times

Every element of a scope of times is one question to the lookup. What a single question gives, or
what its failure makes of the scope, is stated by two relations. A run over all elements then comes
to this: the first element that is given nothing decides, nothing is asked after it, and without
such an element the answer is everything that was given, each id where it first stands.
-/

namespace ActionQuery.Scope

section Elements

variable (lookup : Lookup) (job : Text) (active : Bool)

/-- What a lookup gives for an element: the records of a range, or one for a time alone. -/
inductive TimeToken.Gives : TimeToken → List Record → Prop where
  | range {r : TimeRange} {records : List Record} (h : lookup.inRange job r active = .ok records) :
      Gives (.range r) records
  | single {time : Calendar.Stamp} {text : Text} {record : Record}
      (h : lookup.atTime job time = .ok (some record)) : Gives (.single time text) [record]

/-- What becomes of a scope when the lookup gives nothing for an element: a failure of the store is
one of the lookup for the job, any other is handed on, and a time alone without an action is an
error of its own. -/
inductive TimeToken.Fails : TimeToken → Error → Prop where
  | rangeStorage {r : TimeRange} {reason : Fault} (h : lookup.inRange job r active = .error reason)
      (hstorage : reason.isStorage = true) : Fails (.range r) (.lookupFailed job reason)
  | rangeOther {r : TimeRange} {reason : Fault} (h : lookup.inRange job r active = .error reason)
      (hother : reason.isStorage = false) : Fails (.range r) (.fault reason)
  | singleStorage {time : Calendar.Stamp} {text : Text} {reason : Fault}
      (h : lookup.atTime job time = .error reason) (hstorage : reason.isStorage = true) :
      Fails (.single time text) (.lookupFailed job reason)
  | singleOther {time : Calendar.Stamp} {text : Text} {reason : Fault}
      (h : lookup.atTime job time = .error reason) (hother : reason.isStorage = false) :
      Fails (.single time text) (.fault reason)
  | missing {time : Calendar.Stamp} {text : Text} (h : lookup.atTime job time = .ok none) :
      Fails (.single time text) (.missing job time)

variable {lookup job active} {token : TimeToken}

theorem timeLookupError_of_storage {reason : Fault} (h : reason.isStorage = true) :
    timeLookupError job reason = .lookupFailed job reason :=
  if_pos h

theorem timeLookupError_of_other {reason : Fault} (h : reason.isStorage = false) :
    timeLookupError job reason = .fault reason :=
  if_neg (Bool.eq_false_iff.1 h)

theorem TimeToken.select_eq_ok_iff {records : List Record} :
    token.select lookup job active = .ok records ↔ token.Gives lookup job active records := by
  constructor
  · intro h
    cases token with
    | range r =>
        exact .range (mapError_eq_ok_iff.1 h)
    | single time text =>
        rw [select] at h
        split at h
        · cases h
        · cases h
        · rename_i record htime
          rw [← Except.ok.inj h]
          exact .single htime
  · rintro (h | h) <;> simp [select, h, Except.mapError]

theorem TimeToken.select_eq_error_iff {e : Error} :
    token.select lookup job active = .error e ↔ token.Fails lookup job active e := by
  constructor
  · intro h
    cases token with
    | range r =>
        cases hrange : lookup.inRange job r active with
        | ok given => simp [select, hrange, Except.mapError] at h
        | error reason =>
            simp only [select, hrange, Except.mapError, Except.error.injEq] at h
            cases hstorage : reason.isStorage with
            | true =>
                rw [← h, timeLookupError_of_storage hstorage]
                exact .rangeStorage hrange hstorage
            | false =>
                rw [← h, timeLookupError_of_other hstorage]
                exact .rangeOther hrange hstorage
    | single time text =>
        rw [select] at h
        split at h
        · rename_i reason htime
          rw [← Except.error.inj h]
          cases hstorage : reason.isStorage with
          | true =>
              rw [timeLookupError_of_storage hstorage]
              exact .singleStorage htime hstorage
          | false =>
              rw [timeLookupError_of_other hstorage]
              exact .singleOther htime hstorage
        · rename_i htime
          rw [← Except.error.inj h]
          exact .missing htime
        · cases h
  · rintro (⟨h, hs⟩ | ⟨h, hs⟩ | ⟨h, hs⟩ | ⟨h, hs⟩ | h) <;>
      simp [select, Except.mapError, timeLookupError, *]

/-- Every question has one of the two outcomes. -/
theorem TimeToken.gives_or_fails (lookup : Lookup) (job : Text) (active : Bool)
    (token : TimeToken) :
    (∃ records, token.Gives lookup job active records) ∨ ∃ e, token.Fails lookup job active e := by
  cases h : token.select lookup job active with
  | ok records => exact Or.inl ⟨records, select_eq_ok_iff.1 h⟩
  | error e => exact Or.inr ⟨e, select_eq_error_iff.1 h⟩

variable {tokens before after : List TimeToken} {known : List Record}

theorem collect_of_gives {answers : List (List Record)}
    (h : List.Forall₂ (TimeToken.Gives lookup job active) tokens answers) :
    collect lookup job active tokens known =
      (.ok (Keyed.addNew Record.id known answers.flatten),
        tokens.map (TimeToken.call job active)) := by
  induction h generalizing known with
  | nil => rfl
  | cons hgives _ ih =>
      simp only [collect, TimeToken.select_eq_ok_iff.2 hgives, ih, List.flatten_cons, List.map_cons,
        Keyed.addNew_append]

/-- The first element that is given nothing decides, and nothing is asked after it. -/
theorem collect_of_fails {e : Error}
    (hbefore : ∀ t ∈ before, ∃ records, t.Gives lookup job active records)
    (hfails : token.Fails lookup job active e) :
    collect lookup job active (before ++ token :: after) known =
      (.error e, (before ++ [token]).map (TimeToken.call job active)) := by
  induction before generalizing known with
  | nil => simp [collect, TimeToken.select_eq_error_iff.2 hfails]
  | cons first rest ih =>
      obtain ⟨records, hgives⟩ := hbefore first List.mem_cons_self
      have hrest := fun t ht => hbefore t (List.mem_cons_of_mem _ ht)
      simp only [List.cons_append, collect, TimeToken.select_eq_ok_iff.2 hgives, ih hrest,
        List.map_cons]

/-- A run that ends with records was given some for every element. -/
theorem exists_answers_of_collect_eq_ok {records : List Record}
    (h : (collect lookup job active tokens known).1 = .ok records) :
    ∃ answers, List.Forall₂ (TimeToken.Gives lookup job active) tokens answers ∧
      records = Keyed.addNew Record.id known answers.flatten := by
  have hgives : ∀ t ∈ tokens, ∃ given, t.Gives lookup job active given := by
    induction tokens generalizing known with
    | nil => simp
    | cons first rest ih =>
        rcases first.gives_or_fails lookup job active with ⟨given, hfirst⟩ | ⟨e, hfails⟩
        · simp only [collect, TimeToken.select_eq_ok_iff.2 hfirst] at h
          exact List.forall_mem_cons.2 ⟨⟨given, hfirst⟩, ih h⟩
        · simp [collect, TimeToken.select_eq_error_iff.2 hfails] at h
  obtain ⟨answers, hanswers⟩ := exists_forall₂ hgives
  rw [collect_of_gives hanswers] at h
  exact ⟨answers, hanswers, (Except.ok.inj h).symm⟩

end Elements

variable {lookup : Lookup} {reader : TimeReader} {active : Bool} {scope : Option Text}

theorem resolveTimes_of_readsTimes {job : Text} (hjob : Text.blank job = false)
    {tokens : List TimeToken} (htokens : ReadsTimes reader scope tokens) :
    ∃ reads, resolveTimes lookup reader active (some job) scope = {
      result := (collect lookup job active tokens []).1.map (·.map some)
      lookups := (collect lookup job active tokens []).2
      reads := reads
      skipped := [] } := by
  obtain ⟨elements, hsplit, hread⟩ := htokens
  have htokens := readTimeTokens_eq_ok_iff.2 hread
  have hname : checkJob (some job) = .ok job := checkJob_eq_ok_iff.2 ⟨rfl, hjob⟩
  rcases hreads : readTimeTokens reader elements with ⟨result, reads⟩
  rw [hreads] at htokens
  cases htokens
  exact ⟨reads, by simp [resolveTimes, hname, hsplit, hreads]⟩

theorem Resolver.resolve_times (r : Resolver) (active : Bool) (job scope : Option Text) :
    r.resolve Route.times.name active job scope =
      resolveTimes r.lookup r.reader active job scope := rfl

theorem exists_readsTimes_of_resolveTimes_eq_ok {job : Option Text}
    {records : List (Option Record)}
    (h : (resolveTimes lookup reader active job scope).result = .ok records) :
    ∃ name tokens, job = some name ∧ Text.blank name = false ∧
      ReadsTimes reader scope tokens := by
  unfold resolveTimes at h
  split at h
  · cases h
  · cases h
  · rename_i name elements hjob hsplit
    obtain ⟨hname, hblank⟩ := checkJob_eq_ok_iff.1 hjob
    split at h
    · cases h
    · rename_i tokens reads hreads
      refine ⟨name, tokens, hname, hblank, elements, hsplit, ?_⟩
      rw [← readTimeTokens_eq_ok_iff, hreads]

end ActionQuery.Scope

import ActionQuery.Proofs.TimeRoute
import ActionQuery.Store
import Mathlib.Data.List.Sort

/-!
# What a scope of times selects from a store

A store holds one action of a job for each number, so the actions of a job stand in strictly
ascending order. For times that are not local its answers are the expected ones: a range selects the
actions of the job within it, ascending, and a time alone selects the one with the least number at
it. A scope then selects what its elements select, one after another, without later repeats.

The time of an action is in UTC, and so it is compared with any other time as a point of time. To be
at a time takes more than that: no action is at a time that its clock shows twice or skips.
-/

namespace ActionQuery

open Calendar (Instant Stamp)
open Scope

/-- The time of an action, as a place on the time line. -/
def Record.position (r : Record) : Int := r.nominalTime.toStamp.position

/-- The action is at a time, which its clock leaves no doubt about. -/
def Record.IsAt (r : Record) (time : Stamp) : Prop :=
  r.position = time.position ∧ time.isCertain = true

instance (r : Record) (time : Stamp) : Decidable (r.IsAt time) :=
  inferInstanceAs (Decidable (_ ∧ _))

namespace Store

variable (s : Store) (job : Text) (active : Bool)

/-- The job has an action at a time. -/
def HasAt (time : Stamp) : Prop :=
  ∃ r ∈ s.records, r.job = job ∧ r.IsAt time

instance (time : Stamp) : Decidable (s.HasAt job time) :=
  inferInstanceAs (Decidable (∃ r ∈ s.records, r.job = job ∧ r.IsAt time))

/-- A store has an answer to every range, and to a time with an action of the job at it. -/
def Answers : TimeToken → Prop
  | .range _ => True
  | .single time _ => s.HasAt job time

instance (token : TimeToken) : Decidable (s.Answers job token) :=
  match token with
  | .range _ => .isTrue trivial
  | .single time _ => inferInstanceAs (Decidable (s.HasAt job time))

/-- The actions of a job that an element stands for: those within a range by their numbers, on
demand only the active ones, and the first of those at a time alone. -/
inductive Selects : TimeToken → List Record → Prop where
  | range {range : TimeRange} {records : List Record}
      (mem_iff : ∀ r, r ∈ records ↔ r ∈ s.records ∧ r.job = job ∧
        range.start.position ≤ r.position ∧ r.position ≤ range.stop.position ∧
          (active = true → r.isActive = true))
      (ascending : records.Pairwise fun a b => a.number < b.number) :
      Selects (.range range) records
  | single {time : Stamp} {text : Text} {r : Record} (mem : r ∈ s.records) (job_eq : r.job = job)
      (isAt : r.IsAt time)
      (least : ∀ other ∈ s.records, other.job = job → other.IsAt time → r.number ≤ other.number) :
      Selects (.single time text) [r]

variable {s job active}

@[simp]
theorem mem_ofJob {r : Record} : r ∈ s.ofJob job ↔ r ∈ s.records ∧ r.job = job := by
  simp [ofJob]

theorem nodup_ids_ofJob : ((s.ofJob job).map Record.id).Nodup := by
  have hperm : (s.ofJob job).Perm (s.records.filter (·.job = job)) := List.mergeSort_perm _ _
  rw [(hperm.map Record.id).nodup_iff]
  exact s.distinct.sublist (List.filter_sublist.map _)

theorem pairwise_le_ofJob : (s.ofJob job).Pairwise fun a b => a.number ≤ b.number := by
  have hsorted : (s.ofJob job).Pairwise fun a b => decide (a.number ≤ b.number) = true := by
    apply List.pairwise_mergeSort
    · intro a b c hab hbc
      exact decide_eq_true (Int.le_trans (of_decide_eq_true hab) (of_decide_eq_true hbc))
    · intro a b
      simpa using Int.le_total a.number b.number
  exact hsorted.imp of_decide_eq_true

/-- The actions of a job stand by their numbers, no two of which are the same. -/
theorem pairwise_ofJob : (s.ofJob job).Pairwise fun a b => a.number < b.number := by
  have hnumbers : ((s.ofJob job).map Record.number).Nodup :=
    Record.nodup_numbers (fun _ hr => (mem_ofJob.1 hr).2) nodup_ids_ofJob
  have hne := List.pairwise_map.1 hnumbers
  exact (pairwise_le_ofJob.and hne).imp fun h => lt_of_le_of_ne h.1 h.2

theorem same_iff {r : Record} {time : Stamp} (htime : time.isLocal = false) :
    r.nominalTime.toStamp.same time = true ↔ r.IsAt time := by
  simp [Stamp.same, htime, Record.IsAt, Record.position]

theorem atTime_eq_none_iff {time : Stamp} (htime : time.isLocal = false) :
    s.atTime job time = none ↔ ¬ s.HasAt job time := by
  simp [atTime, HasAt, same_iff htime]

/-- Of the actions of a job at a time the first one is found. -/
theorem selects_of_atTime {time : Stamp} (htime : time.isLocal = false) {text : Text} {r : Record}
    (h : s.atTime job time = some r) : s.Selects job active (.single time text) [r] := by
  obtain ⟨hr, before, after, hsplit, hbefore⟩ := List.find?_eq_some_iff_append.1 h
  have hmem : r ∈ s.ofJob job := List.mem_of_find?_eq_some h
  refine .single (mem_ofJob.1 hmem).1 (mem_ofJob.1 hmem).2 ((same_iff htime).1 hr) ?_
  intro other hother hjob hat
  have hin : other ∈ before ++ r :: after := hsplit ▸ mem_ofJob.2 ⟨hother, hjob⟩
  have hsorted : (s.ofJob job).Pairwise fun a b => a.number < b.number := pairwise_ofJob
  rw [hsplit, List.pairwise_append, List.pairwise_cons] at hsorted
  rcases List.mem_append.1 hin with hearlier | hlater
  · have hnot := hbefore other hearlier
    rw [(same_iff htime).2 hat] at hnot
    cases hnot
  · rcases List.mem_cons.1 hlater with rfl | hlater
    · exact le_refl _
    · exact le_of_lt (hsorted.2.1.1 other hlater)

/-- The action lies within a range. -/
def inside (range : TimeRange) (r : Record) : Bool :=
  range.start.position ≤ r.position && r.position ≤ range.stop.position

theorem contains_of_isFixed {range : TimeRange} (hrange : (TimeToken.range range).IsFixed)
    (r : Record) : range.contains r.nominalTime.toStamp = .ok (inside range r) := by
  obtain ⟨hstart, hstop⟩ := hrange
  have hlow := Stamp.le?_of_apart (Instant.sharesClock_toStamp range.start r.nominalTime) hstart
  have hhigh := Stamp.le?_of_apart (Instant.toStamp_sharesClock r.nominalTime range.stop) hstop.symm
  rw [TimeRange.contains, hlow, hhigh, inside, Record.position]
  by_cases h : range.start.position ≤ r.nominalTime.toStamp.position <;> simp [h]

theorem within_of_isFixed {range : TimeRange} (hrange : (TimeToken.range range).IsFixed)
    (records : List Record) : within range records = .ok (records.filter (inside range)) := by
  induction records with
  | nil => rfl
  | cons r rest ih =>
      rw [within, contains_of_isFixed hrange r, ih, List.filter_cons]
      rfl

theorem exists_selects_of_inRange {range : TimeRange} (hrange : (TimeToken.range range).IsFixed) :
    ∃ records, s.inRange job range active = .ok records ∧
      s.Selects job active (.range range) records := by
  cases active with
  | false =>
      refine ⟨(s.ofJob job).filter (inside range), ?_, .range ?_ (pairwise_ofJob.filter _)⟩
      · rw [inRange, within_of_isFixed hrange]
        rfl
      · intro r
        simp [inside, and_assoc]
  | true =>
      refine ⟨((s.ofJob job).filter (inside range)).filter Record.isActive, ?_,
        .range ?_ ((pairwise_ofJob.filter _).filter _)⟩
      · rw [inRange, within_of_isFixed hrange]
        rfl
      · intro r
        simp [inside, and_assoc, and_comm, and_left_comm]

theorem within_subset {range : TimeRange} {records found : List Record}
    (h : within range records = .ok found) {r : Record} (hr : r ∈ found) : r ∈ records := by
  induction records generalizing found with
  | nil =>
      cases h
      cases hr
  | cons first rest ih =>
      rw [within] at h
      split at h
      · cases h
      · rename_i isInside _
        cases hrest : within range rest with
        | error failure => simp [hrest, Except.map] at h
        | ok others =>
            simp only [hrest, Except.map, Except.ok.injEq] at h
            subst h
            cases isInside with
            | false => exact List.mem_cons_of_mem _ (ih hrest hr)
            | true =>
                rcases List.mem_cons.1 hr with rfl | hothers
                · exact List.mem_cons_self
                · exact List.mem_cons_of_mem _ (ih hrest hothers)

/-- A range of any times answers with actions of the job only. -/
theorem mem_ofJob_of_inRange {range : TimeRange} {records : List Record}
    (h : s.inRange job range active = .ok records) {r : Record} (hr : r ∈ records) :
    r ∈ s.ofJob job := by
  rw [inRange] at h
  cases hwithin : within range (s.ofJob job) with
  | error failure => simp [hwithin, Except.map] at h
  | ok found =>
      simp only [hwithin, Except.map, Except.ok.injEq] at h
      subst h
      cases active with
      | false => exact within_subset hwithin hr
      | true => exact within_subset hwithin (List.mem_of_mem_filter hr)

theorem eq_of_pairwise_number {first second : List Record}
    (hfirst : first.Pairwise fun a b => a.number < b.number)
    (hsecond : second.Pairwise fun a b => a.number < b.number)
    (hmem : ∀ r, r ∈ first ↔ r ∈ second) : first = second := by
  have hnodup {records : List Record} (h : records.Pairwise fun a b => a.number < b.number) :
      records.Nodup := h.imp fun hlt heq => absurd (heq ▸ hlt) (lt_irrefl _)
  refine List.Perm.eq_of_pairwise ?_ hfirst hsecond
    ((List.perm_ext_iff_of_nodup (hnodup hfirst) (hnodup hsecond)).2 hmem)
  intro a b _ _ hab hba
  exact absurd hab (lt_asymm hba)

theorem Selects.unique {token : TimeToken} {first second : List Record}
    (hfirst : s.Selects job active token first) (hsecond : s.Selects job active token second) :
    first = second := by
  cases hfirst with
  | range hmem hascending =>
      cases hsecond with
      | range hmem' hascending' =>
          refine eq_of_pairwise_number hascending hascending' fun r => ?_
          rw [hmem, hmem']
  | @single time text r hr hjob htime hleast =>
      cases hsecond with
      | @single _ _ other hother hjob' htime' hleast' =>
          have hnumber : r.number = other.number :=
            le_antisymm (hleast other hother hjob' htime') (hleast' r hr hjob htime)
          have hid : r.id = other.id := by
            rw [Record.id, Record.id, hjob, hjob', hnumber]
          rw [List.inj_on_of_nodup_map s.distinct hr hother hid]

theorem exists_selects_and_gives {token : TimeToken} (hfixed : token.IsFixed)
    (h : s.Answers job token) :
    ∃ records, s.Selects job active token records ∧
      token.Gives s.lookup job active records := by
  cases token with
  | range range =>
      obtain ⟨records, hrange, hselects⟩ := exists_selects_of_inRange hfixed
      exact ⟨records, hselects, .range hrange⟩
  | single time text =>
      have hsome : s.atTime job time ≠ none := fun hnone => (atTime_eq_none_iff hfixed).1 hnone h
      obtain ⟨r, hr⟩ := Option.ne_none_iff_exists'.1 hsome
      exact ⟨[r], selects_of_atTime hfixed hr, .single (congrArg Except.ok hr)⟩

theorem gives_of_selects {token : TimeToken} (hfixed : token.IsFixed) {records : List Record}
    (h : s.Selects job active token records) : token.Gives s.lookup job active records := by
  have hanswers : s.Answers job token := by
    cases h with
    | range => trivial
    | single hr hjob htime _ => exact ⟨_, hr, hjob, htime⟩
  obtain ⟨given, hselects, hgives⟩ := exists_selects_and_gives hfixed hanswers
  rwa [h.unique hselects]

/-- Scopes are resolved over the store, ids being looked up in the order of `arrange`. -/
def resolver (s : Store) (reader : TimeReader) (arrange : List Text → List Text) : Resolver where
  lookup := s.lookup
  reader := reader
  arrange := arrange

/-- A scope of times with offsets: the first time alone without an action of the job decides if
there is one, and otherwise the answer is what the elements select, one after another, each id where
it first stands. -/
theorem resolve_times_over_store (s : Store) {reader : TimeReader}
    (hreader : ∀ t time, reader t = .ok time → time.isLocal = false)
    (arrange : List Text → List Text) (active : Bool) {job : Text}
    (hjob : Text.blank job = false) {scope : Option Text} {tokens : List TimeToken}
    (htokens : ReadsTimes reader scope tokens) :
    (∀ before time text after, tokens = before ++ .single time text :: after →
      (∀ t ∈ before, s.Answers job t) → ¬ s.HasAt job time →
        ((s.resolver reader arrange).resolve Route.times.name active job scope).result =
          .error (.missing job time)) ∧
    ((∀ t ∈ tokens, s.Answers job t) →
      (∃ answers, List.Forall₂ (s.Selects job active) tokens answers) ∧
      ∀ answers, List.Forall₂ (s.Selects job active) tokens answers →
        ((s.resolver reader arrange).resolve Route.times.name active job scope).result =
          .ok ((Keyed.firsts Record.id answers.flatten).map some)) := by
  have hfixed := isFixed_of_readsTimes hreader htokens
  have hresolve : ((s.resolver reader arrange).resolve Route.times.name active job scope).result =
      (collect s.lookup job active tokens []).1.map (·.map some) := by
    obtain ⟨reads, hresult⟩ := resolveTimes_of_readsTimes hjob htokens
    rw [Resolver.resolve_times]
    exact congrArg Resolution.result hresult
  rw [hresolve]
  refine ⟨?_, ?_⟩
  · rintro before time text after rfl hbefore hmissing
    have hgives : ∀ t ∈ before, ∃ records, t.Gives s.lookup job active records := by
      intro t ht
      obtain ⟨records, _, hgives⟩ :=
        exists_selects_and_gives (hfixed t (List.mem_append_left _ ht)) (hbefore t ht)
      exact ⟨records, hgives⟩
    have htime : time.isLocal = false := hfixed (.single time text) (by simp)
    have hfails : (TimeToken.single time text).Fails s.lookup job active (.missing job time) :=
      .missing (congrArg Except.ok ((atTime_eq_none_iff htime).2 hmissing))
    rw [collect_of_fails hgives hfails]
    rfl
  · intro hanswers
    refine ⟨exists_forall₂ fun t ht => ?_, fun answers hselects => ?_⟩
    · obtain ⟨records, hselects, _⟩ := exists_selects_and_gives (hfixed t ht) (hanswers t ht)
      exact ⟨records, hselects⟩
    · have hgives := forall₂_imp_of_mem hselects fun t ht _ => gives_of_selects (hfixed t ht)
      rw [collect_of_gives hgives, Keyed.addNew_nil]
      rfl

/-! A small store with two jobs, one of which has the first two actions of the other at noon. -/

def noon : Instant := ⟨⟨43200000000, by decide⟩⟩

def evening : Instant := ⟨⟨64800000000, by decide⟩⟩

def plainAction (job : Text) (number : Int) (time : Instant) (status : Status) : Record :=
  ⟨job, number, time, status, none, none, none⟩

def twoJobs : Store where
  records := [plainAction "j" 7 noon .waiting, plainAction "j" 3 evening .succeeded,
    plainAction "j@2" 1 noon .running, plainAction "j" 2 noon .running]
  distinct := by decide

/-- Reads the names of two times of day. -/
def dayReader (t : Text) : Except Fault Stamp :=
  if t = "noon".toList then .ok noon.toStamp
  else if t = "evening".toList then .ok evening.toStamp
  else .error ⟨.unreadable, t⟩

theorem dayReader_isFixed (t : Text) (time : Stamp) (h : dayReader t = .ok time) :
    time.isLocal = false := by
  unfold dayReader at h
  split at h
  · cases h
    rfl
  · split at h
    · cases h
      rfl
    · cases h

/-- Noon in UTC, shown as one by a clock that is put back to one an hour later. -/
def firstOne : Stamp :=
  let summer : Calendar.Offset := ⟨3600 * Calendar.microsPerSecond, by decide, by decide⟩
  ⟨⟨46800000000, by decide⟩,
    some (.zoned ⟨0, "Europe/London", false, summer, Calendar.Offset.utc⟩)⟩

theorem resolve_times_over_twoJobs :
    ((twoJobs.resolver dayReader id).resolve Route.times.name true (some "j")
      (some "noon::evening, noon,evening")).result =
        .ok [some (plainAction "j" 2 noon .running), some (plainAction "j" 7 noon .waiting),
          some (plainAction "j" 3 evening .succeeded)] ∧
    ((twoJobs.resolver dayReader id).resolve Route.times.name true (some "j@2")
      (some "noon,evening")).result = .error (.missing "j@2" evening.toStamp) ∧
    firstOne.position = noon.toStamp.position ∧
    ((twoJobs.resolver (fun _ => .ok firstOne) id).resolve Route.times.name true (some "j")
      (some "one")).result = .error (.missing "j" firstOne) := by
  refine ⟨?_, ?_, by decide, ?_⟩
  · have htokens : ReadsTimes dayReader (some "noon::evening, noon,evening")
        [.range ⟨noon.toStamp, evening.toStamp, "noon::evening"⟩, .single noon.toStamp "noon",
          .single evening.toStamp "evening"] :=
      ⟨["noon::evening", "noon", "evening"], by decide,
        .cons (by decide) (.cons (by decide) (.cons (by decide) .nil))⟩
    have hjob : Text.blank "j" = false := by decide
    obtain ⟨_, hanswer⟩ :=
      (resolve_times_over_store twoJobs dayReader_isFixed id true hjob htokens).2 (by decide)
    have hrange : twoJobs.Selects "j" true (.range ⟨noon.toStamp, evening.toStamp, "noon::evening"⟩)
        [plainAction "j" 2 noon .running, plainAction "j" 7 noon .waiting] := by
      refine .range (fun r => ⟨?_, ?_⟩) (by decide)
      · simp only [List.mem_cons, List.not_mem_nil, or_false]
        rintro (rfl | rfl) <;> decide
      · simp only [twoJobs, List.mem_cons, List.not_mem_nil, or_false]
        rintro ⟨rfl | rfl | rfl | rfl, hselected⟩ <;> revert hselected <;> decide
    have hnoon : twoJobs.Selects "j" true (.single noon.toStamp "noon")
        [plainAction "j" 2 noon .running] :=
      .single (by decide) rfl (by decide) (by decide)
    have hevening : twoJobs.Selects "j" true (.single evening.toStamp "evening")
        [plainAction "j" 3 evening .succeeded] :=
      .single (by decide) rfl (by decide) (by decide)
    exact hanswer _ (.cons hrange (.cons hnoon (.cons hevening .nil)))
  · have htokens : ReadsTimes dayReader (some "noon,evening")
        [.single noon.toStamp "noon", .single evening.toStamp "evening"] :=
      ⟨["noon", "evening"], by decide, .cons (by decide) (.cons (by decide) .nil)⟩
    have hjob : Text.blank "j@2" = false := by decide
    obtain ⟨hmissing, _⟩ := resolve_times_over_store twoJobs dayReader_isFixed id true hjob htokens
    exact hmissing [.single noon.toStamp "noon"] evening.toStamp "evening" [] rfl (by decide)
      (by decide)
  · have htokens : ReadsTimes (fun _ => .ok firstOne) (some "one") [.single firstOne "one"] :=
      ⟨["one"], by decide, .cons (by decide) .nil⟩
    have hfixed : ∀ t time, (fun _ => .ok firstOne : TimeReader) t = .ok time →
        time.isLocal = false := by
      rintro _ _ ⟨⟩
      rfl
    have hjob : Text.blank "j" = false := by decide
    obtain ⟨hmissing, _⟩ := resolve_times_over_store twoJobs hfixed id true hjob htokens
    exact hmissing [] firstOne "one" [] rfl (by decide) (by decide)

end Store

end ActionQuery

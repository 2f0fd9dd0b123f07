import ActionQuery.Proofs.IdGrammar
import Mathlib

/-!
# Order and repetition of elements

A scope is worked off from the left, and it ends at the first element that gives nothing: which one
that is, and so what the error says, depends on the order. Whether there is an error does not, nor
does what is found, since every element gives the same wherever it stands and however often. So two
scopes with the same elements either both fail or find the same.
-/

namespace ActionQuery

section Read

variable {α β ε : Type} {f : α → Except ε β} {first second : List α} {values others : List β}

theorem subset_of_forall₂
    (hvalues : List.Forall₂ (fun item value => f item = .ok value) first values)
    (hothers : List.Forall₂ (fun item value => f item = .ok value) second others)
    (h : first ⊆ second) : values ⊆ others := by
  intro value hvalue
  obtain ⟨item, hitem, hread⟩ := exists_left_of_mem hvalues hvalue
  obtain ⟨other, hother, hread'⟩ := exists_left_of_mem hothers.flip (h hitem)
  rw [hread, Except.ok.injEq] at hread'
  rwa [hread']

/-- What is read item by item has the same members as soon as the items do. -/
theorem exists_forall₂_of_mem_iff
    (hvalues : List.Forall₂ (fun item value => f item = .ok value) first values)
    (h : ∀ item, item ∈ first ↔ item ∈ second) :
    ∃ others, List.Forall₂ (fun item value => f item = .ok value) second others ∧
      ∀ value, value ∈ values ↔ value ∈ others := by
  have hread : ∀ item ∈ second, ∃ value, f item = .ok value := by
    intro item hitem
    obtain ⟨value, _, hvalue⟩ := exists_left_of_mem hvalues.flip ((h item).2 hitem)
    exact ⟨value, hvalue⟩
  obtain ⟨others, hothers⟩ := exists_forall₂ hread
  refine ⟨others, hothers, fun value => ⟨fun hvalue => ?_, fun hvalue => ?_⟩⟩
  · exact subset_of_forall₂ hvalues hothers (fun item => (h item).1) hvalue
  · exact subset_of_forall₂ hothers hvalues (fun item => (h item).2) hvalue

end Read

/-- Two answers with the same members, or two failures, whatever they say. -/
inductive SameOutcome {α ε : Type} : Except ε (List α) → Except ε (List α) → Prop where
  | answers {found others : List α} (h : ∀ a, a ∈ found ↔ a ∈ others) :
      SameOutcome (.ok found) (.ok others)
  | failures {e e' : ε} : SameOutcome (.error e) (.error e')

theorem SameOutcome.of_answers {α ε : Type} {x y : Except ε (List α)}
    (hx : ∀ found, x = .ok found → ∃ others, y = .ok others ∧ ∀ a, a ∈ found ↔ a ∈ others)
    (hy : ∀ others, y = .ok others → ∃ found, x = .ok found ∧ ∀ a, a ∈ others ↔ a ∈ found) :
    SameOutcome x y := by
  cases x with
  | ok found =>
      obtain ⟨others, rfl, hmem⟩ := hx found rfl
      exact .answers hmem
  | error e =>
      cases y with
      | ok others =>
          obtain ⟨found, hfound, _⟩ := hy others rfl
          cases hfound
      | error e' => exact .failures

theorem SameOutcome.exists_answer {α ε : Type} {x y : Except ε (List α)} (h : SameOutcome x y)
    {found : List α} (hx : x = .ok found) :
    ∃ others, y = .ok others ∧ ∀ a, a ∈ found ↔ a ∈ others := by
  cases h with
  | answers hmem =>
      cases hx
      exact ⟨_, rfl, hmem⟩
  | failures => cases hx

namespace Scope

/-- Two scopes with the same elements, in whatever order and however often. No scope at all counts
as an empty one. -/
def SameElements (first second : Option Text) : Prop :=
  ∀ element, element ∈ elements (first.getD []) ↔ element ∈ elements (second.getD [])

variable {first second : Option Text}

theorem SameElements.symm (h : SameElements first second) : SameElements second first :=
  fun element => (h element).symm

theorem split_eq_ok_iff_notMem {scope : Option Text} {found : List Text} :
    split scope = .ok found ↔ [] ∉ elements (scope.getD []) ∧ found = elements (scope.getD []) := by
  rw [split_eq_ok_iff]
  constructor
  · rintro ⟨text, rfl, -, hnil, hfound⟩
    exact ⟨hnil, hfound⟩
  · rintro ⟨hnil, hfound⟩
    have hblank : Text.blank (scope.getD []) = false := by
      refine Bool.eq_false_iff.2 fun h => hnil ?_
      rw [elements_of_blank h]
      exact List.mem_singleton_self _
    cases scope with
    | none => cases hblank
    | some text => exact ⟨text, rfl, hblank, hnil, hfound⟩

namespace SameElements

theorem exists_read (h : SameElements first second) {β : Type} {f : Text → Except Error β}
    {found : List Text} (hsplit : split first = .ok found) {values : List β}
    (hread : List.Forall₂ (fun element value => f element = .ok value) found values) :
    ∃ others otherValues, split second = .ok others ∧
      List.Forall₂ (fun element value => f element = .ok value) others otherValues ∧
      ∀ value, value ∈ values ↔ value ∈ otherValues := by
  obtain ⟨hnil, rfl⟩ := split_eq_ok_iff_notMem.1 hsplit
  rw [h []] at hnil
  obtain ⟨otherValues, hotherRead, hmem⟩ := exists_forall₂_of_mem_iff hread h
  exact ⟨_, otherValues, split_eq_ok_iff_notMem.2 ⟨hnil, rfl⟩, hotherRead, hmem⟩

theorem exists_actionIds (h : SameElements first second) {job : Option Text} {ids : List Text}
    (hids : actionIds job first = .ok ids) :
    ∃ others, actionIds job second = .ok others ∧ ∀ id, id ∈ ids ↔ id ∈ others := by
  obtain ⟨name, tokens, hjob, htokens, rfl⟩ := actionIds_eq_ok_iff.1 hids
  obtain ⟨found, hsplit, hread⟩ := readIdTokens_eq_ok_iff.1 htokens
  obtain ⟨others, otherTokens, hothers, hotherRead, hmem⟩ := h.exists_read hsplit hread
  have hotherTokens := readIdTokens_eq_ok_iff.2 ⟨others, hothers, hotherRead⟩
  refine ⟨_, actionIds_eq_ok_iff.2 ⟨name, otherTokens, hjob, hotherTokens, rfl⟩, fun id => ?_⟩
  simp only [mem_expandIds_iff, hmem]

end SameElements

/-- The ids of the actions in an answer. -/
def Resolution.ids (r : Resolution) : Except Error (List (Option Text)) :=
  r.result.map (·.map (Option.map Record.id))

theorem TimeToken.Gives.unique {lookup : Lookup} {job : Text} {active : Bool} {token : TimeToken}
    {records others : List Record} (h : token.Gives lookup job active records)
    (hothers : token.Gives lookup job active others) : records = others :=
  Except.ok.inj ((select_eq_ok_iff.2 h).symm.trans (select_eq_ok_iff.2 hothers))

section Times

variable {lookup : Lookup} {reader : TimeReader} {active : Bool} {scope : Option Text}

/-- With an answer for every element there is one for the scope, and the ids in it are those of all
actions that were given for an element. -/
theorem exists_ids_of_gives {job : Text} (hjob : Text.blank job = false) {tokens : List TimeToken}
    (htokens : ReadsTimes reader scope tokens)
    (hgives : ∀ token ∈ tokens, ∃ records, token.Gives lookup job active records) :
    ∃ ids, (resolveTimes lookup reader active (some job) scope).ids = .ok ids ∧
      ∀ id, id ∈ ids ↔ ∃ token ∈ tokens, ∃ records, token.Gives lookup job active records ∧
        ∃ r ∈ records, some r.id = id := by
  obtain ⟨answers, hanswers⟩ := exists_forall₂ hgives
  have hids : (resolveTimes lookup reader active (some job) scope).ids =
      .ok (((Keyed.addNew Record.id [] answers.flatten).map Record.id).map some) := by
    obtain ⟨reads, hresult⟩ := resolveTimes_of_readsTimes hjob htokens
    rw [hresult, collect_of_gives hanswers, Resolution.ids]
    simp only [Except.map, List.map_map]
    rfl
  have hkey (k : Text) : k ∈ (Keyed.addNew Record.id [] answers.flatten).map Record.id ↔
      ∃ r, (∃ records ∈ answers, r ∈ records) ∧ r.id = k := by
    rw [Keyed.mem_map_key_addNew, List.map_nil]
    simp only [List.not_mem_nil, false_or, List.mem_map, List.mem_flatten]
  refine ⟨_, hids, fun id => ?_⟩
  rw [List.mem_map]
  simp only [hkey]
  constructor
  · rintro ⟨_, ⟨r, ⟨records, hrecords, hr⟩, rfl⟩, rfl⟩
    obtain ⟨token, htoken, hgiven⟩ := exists_left_of_mem hanswers hrecords
    exact ⟨token, htoken, records, hgiven, r, hr, rfl⟩
  · rintro ⟨token, htoken, records, hgiven, r, hr, rfl⟩
    obtain ⟨others, hothers, hgiven'⟩ := exists_left_of_mem hanswers.flip htoken
    rw [hgiven.unique hgiven'] at hr
    exact ⟨r.id, ⟨r, ⟨others, hothers, hr⟩, rfl⟩, rfl⟩

theorem exists_gives_of_ids_eq_ok {job : Option Text} {ids : List (Option Text)}
    (h : (resolveTimes lookup reader active job scope).ids = .ok ids) :
    ∃ name tokens, job = some name ∧ Text.blank name = false ∧ ReadsTimes reader scope tokens ∧
      ∀ token ∈ tokens, ∃ records, token.Gives lookup name active records := by
  obtain ⟨found, hfound, _⟩ := map_eq_ok_iff.1 h
  obtain ⟨name, tokens, rfl, hjob, htokens⟩ := exists_readsTimes_of_resolveTimes_eq_ok hfound
  obtain ⟨reads, hresult⟩ :=
    @resolveTimes_of_readsTimes lookup reader active scope name hjob tokens htokens
  rw [hresult] at hfound
  obtain ⟨records, hcollect, _⟩ := map_eq_ok_iff.1 hfound
  obtain ⟨answers, hanswers, _⟩ := exists_answers_of_collect_eq_ok hcollect
  refine ⟨name, tokens, rfl, hjob, htokens, fun token htoken => ?_⟩
  obtain ⟨given, _, hgiven⟩ := exists_left_of_mem hanswers.flip htoken
  exact ⟨given, hgiven⟩

theorem SameElements.exists_readsTimes (h : SameElements first second) {tokens : List TimeToken}
    (htokens : ReadsTimes reader first tokens) :
    ∃ others, ReadsTimes reader second others ∧ ∀ token, token ∈ tokens ↔ token ∈ others := by
  obtain ⟨found, hsplit, hread⟩ := htokens
  obtain ⟨others, otherTokens, hothers, hotherRead, hmem⟩ := h.exists_read hsplit hread
  exact ⟨otherTokens, ⟨others, hothers, hotherRead⟩, hmem⟩

theorem SameElements.exists_ids_times (h : SameElements first second) {job : Option Text}
    {ids : List (Option Text)} (hids : (resolveTimes lookup reader active job first).ids = .ok ids) :
    ∃ others, (resolveTimes lookup reader active job second).ids = .ok others ∧
      ∀ id, id ∈ ids ↔ id ∈ others := by
  obtain ⟨name, tokens, rfl, hjob, htokens, hgives⟩ := exists_gives_of_ids_eq_ok hids
  obtain ⟨otherTokens, hotherTokens, hsame⟩ := h.exists_readsTimes htokens
  obtain ⟨found, hfound, hmem⟩ := exists_ids_of_gives hjob htokens hgives
  obtain ⟨others, hothers, hotherMem⟩ := exists_ids_of_gives hjob hotherTokens
    fun token htoken => hgives token ((hsame token).2 htoken)
  rw [hfound, Except.ok.injEq] at hids
  subst hids
  refine ⟨others, hothers, fun id => ?_⟩
  simp only [hmem, hotherMem, hsame]

end Times

section Numbers

variable {lookup : Lookup} {arrange arrange' : List Text → List Text}

theorem exists_follow_of_mem_iff {ids others : List Text} (h : ∀ id, id ∈ ids ↔ id ∈ others)
    {found : List (Option Record)} (hfound : (follow lookup ids).result = .ok found) :
    ∃ more, (follow lookup others).result = .ok more ∧ ∀ r, r ∈ found ↔ r ∈ more := by
  have htolerated : ∀ id ∈ ids, ∀ reason, ¬ lookup.FailsOn id reason := by
    intro id hid reason hfails
    obtain ⟨e, he⟩ := exists_follow_eq_error hid hfails
    cases hfound.symm.trans he
  rw [follow_of_tolerated htolerated] at hfound
  cases hfound
  refine ⟨_, congrArg Resolution.result (follow_of_tolerated fun id hid =>
    htolerated id ((h id).2 hid)), fun r => ?_⟩
  simp only [List.mem_filterMap, h]

theorem SameElements.exists_result_ids (h : SameElements first second)
    (harrange : ∀ ids, (arrange ids).Perm ids) (harrange' : ∀ ids, (arrange' ids).Perm ids)
    {job : Option Text} {found : List (Option Record)}
    (hfound : (resolveIds lookup arrange job first).result = .ok found) :
    ∃ others, (resolveIds lookup arrange' job second).result = .ok others ∧
      ∀ r, r ∈ found ↔ r ∈ others := by
  cases hids : actionIds job first with
  | error e =>
      rw [resolveIds, hids] at hfound
      cases hfound
  | ok ids =>
      obtain ⟨otherIds, hotherIds, hsame⟩ := h.exists_actionIds hids
      have horder (id : Text) : id ∈ arrange ids ↔ id ∈ arrange' otherIds := by
        rw [(harrange ids).mem_iff, (harrange' otherIds).mem_iff, hsame]
      rw [resolveIds_of_actionIds hids] at hfound
      rw [resolveIds_of_actionIds hotherIds]
      exact exists_follow_of_mem_iff horder hfound

end Numbers

/-- Order and repetition of the elements of a scope do not matter. Two scopes with the same elements
either both fail, not always for the same reason, or stand for the same ids; as times they either both
fail or find actions with the same ids; and as numbers they either both fail or find the same
actions, in whatever order the ids of each are looked up. -/
theorem resolve_of_sameElements (h : SameElements first second) (job : Option Text) :
    SameOutcome (actionIds job first) (actionIds job second) ∧
    (∀ (r : Resolver) active,
      SameOutcome (r.resolve Route.times.name active job first).ids
        (r.resolve Route.times.name active job second).ids) ∧
    ∀ (r : Resolver) arrange active, (∀ ids, (r.arrange ids).Perm ids) →
      (∀ ids, (arrange ids).Perm ids) →
        SameOutcome (r.resolve Route.ids.name active job first).result
          (Resolver.resolve { r with arrange := arrange } Route.ids.name active job second).result := by
  refine ⟨?_, fun r active => ?_, fun r arrange active harrange harrange' => ?_⟩
  · exact .of_answers (fun _ => h.exists_actionIds) (fun _ => h.symm.exists_actionIds)
  · exact .of_answers (fun _ => h.exists_ids_times) (fun _ => h.symm.exists_ids_times)
  · exact .of_answers (fun _ => h.exists_result_ids harrange harrange')
      (fun _ => h.symm.exists_result_ids harrange' harrange)

/-- A scope of numbers and one of times, each in two orders and the second time with repeats. -/
theorem resolve_of_sameElements_twoJobs :
    (∃ others, actionIds (some "j") (some " 3, 7-8 ,3,7-8") = .ok others ∧
      ∀ id, id ∈ [("j@7" : Text), "j@8", "j@3"] ↔ id ∈ others) ∧
    (∃ others, ((Store.twoJobs.resolver Store.dayReader id).resolve Route.times.name false
        (some "j") (some " evening,noon , evening")).ids = .ok others ∧
      ∀ id, id ∈ [some ("j@2" : Text), some "j@3"] ↔ id ∈ others) ∧
    ∃ others, ((Store.twoJobs.resolver Store.dayReader List.reverse).resolve Route.ids.name false
        (some "j") (some " 3, 7-8 ,3,7-8")).result = .ok others ∧
      ∀ r, r ∈ [some (Store.plainAction "j" 7 Store.noon .waiting),
        some (Store.plainAction "j" 3 Store.evening .succeeded)] ↔ r ∈ others := by
  have hnumbers : SameElements (some "7-8,3") (some " 3, 7-8 ,3,7-8") := fun element =>
    ⟨fun h => (by decide : elements "7-8,3" ⊆ elements " 3, 7-8 ,3,7-8") h,
      fun h => (by decide : elements " 3, 7-8 ,3,7-8" ⊆ elements "7-8,3") h⟩
  have htimes : SameElements (some "noon,evening") (some " evening,noon , evening") := fun element =>
    ⟨fun h => (by decide : elements "noon,evening" ⊆ elements " evening,noon , evening") h,
      fun h => (by decide : elements " evening,noon , evening" ⊆ elements "noon,evening") h⟩
  have hids : actionIds (some "j") (some "7-8,3") = .ok ["j@7", "j@8", "j@3"] := by cbv
  have hnoon : ((Store.twoJobs.resolver Store.dayReader id).resolve Route.times.name false
      (some "j") (some "noon,evening")).ids = .ok [some "j@2", some "j@3"] := by cbv
  have hfound : ((Store.twoJobs.resolver Store.dayReader id).resolve Route.ids.name false
      (some "j") (some "7-8,3")).result = .ok [some (Store.plainAction "j" 7 Store.noon .waiting),
        some (Store.plainAction "j" 3 Store.evening .succeeded)] := by cbv
  obtain ⟨hsameIds, _, hsameFound⟩ := resolve_of_sameElements hnumbers (some "j")
  obtain ⟨_, hsameTimes, _⟩ := resolve_of_sameElements htimes (some "j")
  refine ⟨hsameIds.exists_answer hids, (hsameTimes _ _).exists_answer hnoon, ?_⟩
  have hreverse := hsameFound (Store.twoJobs.resolver Store.dayReader id) List.reverse false
    (fun ids => List.Perm.refl ids) List.reverse_perm
  exact hreverse.exists_answer hfound

end Scope

end ActionQuery

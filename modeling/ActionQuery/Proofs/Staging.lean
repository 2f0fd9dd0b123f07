import ActionQuery.Proofs.IdRoute
import ActionQuery.Proofs.Runs
import ActionQuery.Proofs.TimeRoute
import ActionQuery.Proofs.StoreSelection
import Mathlib

/-!
# Understanding comes before asking

A scope is first cut into elements and each of them is read; only then is anything looked up. So a
question with a flaw ends without a lookup, and of its flaws a blank element comes first and then
the leftmost element without a meaning, behind which nothing is read. A question that is answered
has been turned into lookups element by element, or id by id.
-/

namespace ActionQuery

namespace Scope

/-- What stands between the commas of a scope, without the white space around it. -/
def elements (scope : Text) : List Text := (scope.splitOn ',').map Text.trim

theorem nil_mem_elements_iff {scope : Text} :
    [] ∈ elements scope ↔ ∃ piece ∈ scope.splitOn ',', Text.blank piece = true := by
  simp only [elements, List.mem_map, Text.trim_eq_nil_iff]

theorem split_some (scope : Text) :
    split (some scope) =
      if Text.blank scope then .error .emptyScope
      else if [] ∈ elements scope then .error (.emptyElement scope)
      else .ok (elements scope) := rfl

theorem split_of_blank_element {scope : Text} (hscope : Text.blank scope = false)
    (h : [] ∈ elements scope) : split (some scope) = .error (.emptyElement scope) := by
  rw [split_some, if_neg (Bool.eq_false_iff.1 hscope), if_pos h]

theorem split_eq_ok_iff {scope : Option Text} {found : List Text} :
    split scope = .ok found ↔
      ∃ text, scope = some text ∧ Text.blank text = false ∧ [] ∉ elements text ∧
        found = elements text := by
  cases scope with
  | none => simp [split]
  | some text =>
      rw [split_some]
      cases hblank : Text.blank text with
      | true => simp [hblank]
      | false =>
          by_cases hnil : [] ∈ elements text
          · simp [hblank, hnil]
          · simp only [hblank, hnil, Bool.false_eq_true, if_false, Except.ok.injEq,
              Option.some.injEq, exists_eq_left', not_false_eq_true, true_and]
            exact eq_comm

theorem elements_of_isTrimmed {text : Text} (hcomma : ',' ∉ text) (htrim : Text.IsTrimmed text) :
    elements text = [text] := by
  rw [elements, List.splitOn_eq_singleton hcomma, List.map_singleton, Text.trim_of_isTrimmed htrim]

theorem split_of_isTrimmed {text : Text} (hne : text ≠ []) (hcomma : ',' ∉ text)
    (htrim : Text.IsTrimmed text) : split (some text) = .ok [text] := by
  have helements := elements_of_isTrimmed hcomma htrim
  have hblank : Text.blank text = false := by
    refine Bool.eq_false_iff.2 fun hblank => hne ?_
    rw [← Text.trim_of_isTrimmed htrim, Text.trim_eq_nil_iff.2 hblank]
  refine split_eq_ok_iff.2 ⟨text, rfl, hblank, ?_, helements.symm⟩
  simpa [helements] using hne.symm

theorem readTimeTokens_of_first_error {reader : TimeReader} {before after : List Text}
    {element : Text} {e : Error}
    (hbefore : ∀ t ∈ before, ∃ token, (TimeToken.ofText reader t).1 = .ok token)
    (h : (TimeToken.ofText reader element).1 = .error e) :
    readTimeTokens reader (before ++ element :: after) =
      (.error e, (before ++ [element]).flatMap fun t => (TimeToken.ofText reader t).2) := by
  induction before with
  | nil =>
      rcases hread : TimeToken.ofText reader element with ⟨result, reads⟩
      rw [hread] at h
      cases h
      simp [readTimeTokens, hread]
  | cons first rest ih =>
      obtain ⟨token, htoken⟩ := hbefore first List.mem_cons_self
      have hrest := ih fun t ht => hbefore t (List.mem_cons_of_mem _ ht)
      rcases hread : TimeToken.ofText reader first with ⟨result, reads⟩
      rw [hread] at htoken
      cases htoken
      simp [readTimeTokens, hread, hrest, Except.map]

namespace Route

theorem ofName?_eq_some_iff {name : Option Text} {known : Route} :
    ofName? name = some known ↔ name = some known.name := by
  constructor
  · intro h
    unfold ofName? at h
    have hfound := List.find?_some h
    exact (of_decide_eq_true hfound).symm
  · rintro rfl
    cases known <;> rfl

variable (reader : TimeReader)

/-- An element has no meaning on a route, and why. -/
def Refuses : Route → Text → Error → Prop
  | times, element, e => (TimeToken.ofText reader element).1 = .error e
  | ids, element, e => IdToken.ofText element = .error e

/-- The texts that are read as times for an element. -/
def reads : Route → Text → List Text
  | times, element => (TimeToken.ofText reader element).2
  | ids, _ => []

end Route

/-- Something about a question cannot be understood. -/
inductive Unclear (reader : TimeReader) (route job scope : Option Text) : Prop where
  | route (h : ∀ known : Route, route ≠ some known.name)
  | job (h : ∀ name, job = some name → Text.blank name = true)
  | scope (h : ∀ text, scope = some text → Text.blank text = true)
  | blankElement {text piece : Text} (hscope : scope = some text)
      (hpiece : piece ∈ text.splitOn ',') (h : Text.blank piece = true)
  | element {known : Route} {text element : Text} {e : Error} (hroute : route = some known.name)
      (hscope : scope = some text) (helement : element ∈ elements text)
      (h : known.Refuses reader element e)

/-- A question about a known route, a job and a scope whose elements all have a meaning. -/
structure Clear (reader : TimeReader) (route job scope : Option Text) (known : Route)
    (name text : Text) : Prop where
  route : route = some known.name
  job : job = some name
  named : Text.blank name = false
  scope : scope = some text
  stated : Text.blank text = false
  elements : [] ∉ elements text
  meaning : ∀ element ∈ Scope.elements text, ∀ e, ¬ known.Refuses reader element e

variable {r : Resolver} {active : Bool} {route job scope : Option Text} {known : Route}
  {name text : Text}

theorem Unclear.not_clear (h : Unclear r.reader route job scope) :
    ¬ Clear r.reader route job scope known name text := by
  rintro ⟨rfl, rfl, hname, rfl, htext, helements, hmeaning⟩
  cases h with
  | route h => exact h known rfl
  | job h => exact Bool.false_ne_true (hname.symm.trans (h name rfl))
  | scope h => exact Bool.false_ne_true (htext.symm.trans (h text rfl))
  | blankElement hscope hpiece h =>
      cases hscope
      exact helements (nil_mem_elements_iff.2 ⟨_, hpiece, h⟩)
  | @element other _ _ _ hroute hscope helement h =>
      cases hscope
      have hother : known = other :=
        Option.some.inj (Route.ofName?_eq_some_iff.2 rfl |>.symm.trans
          (Route.ofName?_eq_some_iff.2 hroute))
      subst hother
      exact hmeaning _ helement _ h

theorem exists_clear (hjob : checkJob job = .ok name) {found : List Text}
    (hsplit : split scope = .ok found)
    (hmeaning : ∀ element ∈ found, ∀ e, ¬ known.Refuses r.reader element e) :
    ∃ text, Clear r.reader (some known.name) job scope known name text := by
  obtain ⟨hname, hblank⟩ := checkJob_eq_ok_iff.1 hjob
  obtain ⟨text, hscope, htext, helements, rfl⟩ := split_eq_ok_iff.1 hsplit
  exact ⟨text, rfl, hname, hblank, hscope, htext, helements, hmeaning⟩

theorem resolveTimes_refused_or_clear :
    (∃ e reads, resolveTimes r.lookup r.reader active job scope = ⟨.error e, [], reads, []⟩) ∨
      ∃ name text, Clear r.reader (some Route.times.name) job scope .times name text := by
  unfold resolveTimes
  split
  · exact Or.inl ⟨_, [], rfl⟩
  · exact Or.inl ⟨_, [], rfl⟩
  · rename_i name found hjob hsplit
    split
    · exact Or.inl ⟨_, _, rfl⟩
    · rename_i tokens reads hreads
      have hread := readTimeTokens_eq_ok_iff.1 (congrArg Prod.fst hreads)
      exact Or.inr ⟨name, exists_clear hjob hsplit (ne_error_of_forall₂ hread)⟩

theorem resolveIds_refused_or_clear :
    (∃ e reads, resolveIds r.lookup r.arrange job scope = ⟨.error e, [], reads, []⟩) ∨
      ∃ name text, Clear r.reader (some Route.ids.name) job scope .ids name text := by
  unfold resolveIds
  split
  · exact Or.inl ⟨_, [], rfl⟩
  · rename_i ids hids
    obtain ⟨name, tokens, hjob, htokens, _⟩ := actionIds_eq_ok_iff.1 hids
    obtain ⟨found, hsplit, hread⟩ := readIdTokens_eq_ok_iff.1 htokens
    exact Or.inr ⟨name, exists_clear hjob hsplit (ne_error_of_forall₂ hread)⟩

/-- A run that asks the lookup anything has understood the whole question. -/
theorem resolve_refused_or_clear (r : Resolver) (active : Bool) (route job scope : Option Text) :
    (∃ e reads, r.resolve route active job scope = ⟨.error e, [], reads, []⟩) ∨
      ∃ known name text, Clear r.reader route job scope known name text := by
  unfold Resolver.resolve
  split
  · rename_i hroute
    rw [Route.ofName?_eq_some_iff] at hroute
    subst hroute
    exact resolveTimes_refused_or_clear.imp_right fun h => ⟨_, h⟩
  · rename_i hroute
    rw [Route.ofName?_eq_some_iff] at hroute
    subst hroute
    exact resolveIds_refused_or_clear.imp_right fun h => ⟨_, h⟩
  · exact Or.inl ⟨_, [], rfl⟩

theorem resolve_of_blank_element (hname : Text.blank name = false) (htext : Text.blank text = false)
    (h : [] ∈ elements text) :
    r.resolve (some known.name) active (some name) (some text) =
      ⟨.error (.format (.emptyElement text)), [], [], []⟩ := by
  have hjob : checkJob (some name) = .ok name := checkJob_eq_ok_iff.2 ⟨rfl, hname⟩
  have hsplit := split_of_blank_element htext h
  cases known with
  | times =>
      rw [Resolver.resolve_times, resolveTimes, hjob, hsplit]
      rfl
  | ids =>
      rw [Resolver.resolve_ids, resolveIds, actionIds, hjob, readIdTokens, hsplit]
      rfl

theorem resolve_of_first_refusal (hname : Text.blank name = false)
    (htext : Text.blank text = false) (hnil : [] ∉ elements text) {before after : List Text}
    {element : Text} {e : Error} (helements : elements text = before ++ element :: after)
    (hbefore : ∀ t ∈ before, ∀ e, ¬ known.Refuses r.reader t e)
    (h : known.Refuses r.reader element e) :
    r.resolve (some known.name) active (some name) (some text) =
      ⟨.error e, [], (before ++ [element]).flatMap (known.reads r.reader), []⟩ := by
  have hjob : checkJob (some name) = .ok name := checkJob_eq_ok_iff.2 ⟨rfl, hname⟩
  have hsplit : split (some text) = .ok (before ++ element :: after) :=
    split_eq_ok_iff.2 ⟨text, rfl, htext, hnil, helements.symm⟩
  cases known with
  | times =>
      have hread : readTimeTokens r.reader (before ++ element :: after) =
          (.error e, (before ++ [element]).flatMap (Route.times.reads r.reader)) :=
        readTimeTokens_of_first_error (fun t ht => exists_ok_of_not_error (hbefore t ht)) h
      rw [Resolver.resolve_times, resolveTimes, hjob, hsplit]
      simp only [hread]
  | ids =>
      have hread : (before ++ element :: after).mapM IdToken.ofText = .error e :=
        mapM_of_first_error (fun t ht => exists_ok_of_not_error (hbefore t ht)) h
      have hreads : (before ++ [element]).flatMap (Route.ids.reads r.reader) = [] :=
        List.flatMap_eq_nil_iff.2 fun _ _ => rfl
      rw [Resolver.resolve_ids, resolveIds, actionIds, hjob, readIdTokens, hsplit, hreads]
      simp only [hread]
      rfl

theorem lookups_of_resolveTimes_eq_ok {actions : List (Option Record)}
    (h : (resolveTimes r.lookup r.reader active job scope).result = .ok actions) :
    ∃ name text tokens, job = some name ∧ scope = some text ∧
      List.Forall₂ (fun element token => (TimeToken.ofText r.reader element).1 = .ok token)
        (elements text) tokens ∧
      (resolveTimes r.lookup r.reader active job scope).lookups =
        tokens.map (TimeToken.call name active) := by
  obtain ⟨name, tokens, rfl, hname, htokens⟩ := exists_readsTimes_of_resolveTimes_eq_ok h
  obtain ⟨reads, hresolve⟩ :=
    @resolveTimes_of_readsTimes r.lookup r.reader active scope name hname tokens htokens
  obtain ⟨found, hsplit, hread⟩ := htokens
  obtain ⟨text, rfl, _, _, rfl⟩ := split_eq_ok_iff.1 hsplit
  refine ⟨name, text, tokens, rfl, rfl, hread, ?_⟩
  rw [hresolve] at h ⊢
  obtain ⟨records, hcollect, _⟩ := map_eq_ok_iff.1 h
  obtain ⟨answers, hanswers, _⟩ := exists_answers_of_collect_eq_ok hcollect
  rw [collect_of_gives hanswers]

theorem lookups_of_follow_eq_ok {l : Lookup} {ids : List Text} {actions : List (Option Record)}
    (h : (follow l ids).result = .ok actions) : (follow l ids).lookups = ids.map .byId := by
  have htolerated : ∀ id ∈ ids, ∀ reason, ¬ l.FailsOn id reason := by
    intro id hid reason hfails
    obtain ⟨e, he⟩ := exists_follow_eq_error hid hfails
    cases h.symm.trans he
  rw [follow_of_tolerated htolerated]

theorem lookups_of_resolveIds_eq_ok (harrange : ∀ ids, (r.arrange ids).Perm ids)
    {actions : List (Option Record)}
    (h : (resolveIds r.lookup r.arrange job scope).result = .ok actions) :
    ∃ ids, actionIds job scope = .ok ids ∧ ids.Nodup ∧
      (resolveIds r.lookup r.arrange job scope).lookups.Perm (ids.map .byId) := by
  cases hids : actionIds job scope with
  | error e => simp [resolveIds, hids, Resolution.ofError] at h
  | ok ids =>
      obtain ⟨name, numbers, _, rfl, hnodup, _⟩ := actionIds_eq_ok hids
      rw [resolveIds_of_actionIds hids] at h ⊢
      refine ⟨_, rfl, hnodup.map (actionId_injective name), ?_⟩
      rw [lookups_of_follow_eq_ok h]
      exact (harrange _).map _

/-- Nothing is looked up before the whole question is understood. What is not understood ends
without a lookup; a blank element is reported before any other flaw of an element, and else the
leftmost element without a meaning, no element behind it having been read. What is answered has
asked once for each element, in order, or once for each id. -/
theorem resolve_in_stages (r : Resolver) (harrange : ∀ ids, (r.arrange ids).Perm ids)
    (active : Bool) (route job scope : Option Text) :
    (Unclear r.reader route job scope →
      (∃ e, (r.resolve route active job scope).result = .error e) ∧
        (r.resolve route active job scope).lookups = []) ∧
    (∀ (known : Route) name text, route = some known.name → job = some name →
      Text.blank name = false → scope = some text → Text.blank text = false →
        ((∃ piece ∈ text.splitOn ',', Text.blank piece = true) →
          (r.resolve route active job scope).result = .error (.format (.emptyElement text)) ∧
            (r.resolve route active job scope).reads = []) ∧
        ((∀ piece ∈ text.splitOn ',', Text.blank piece = false) →
          ∀ before element after e, elements text = before ++ element :: after →
            (∀ t ∈ before, ∀ e, ¬ known.Refuses r.reader t e) → known.Refuses r.reader element e →
              (r.resolve route active job scope).result = .error e ∧
                (r.resolve route active job scope).reads =
                  (before ++ [element]).flatMap (known.reads r.reader))) ∧
    (∀ actions, (r.resolve route active job scope).result = .ok actions →
      (route = some Route.times.name ∧ ∃ name text tokens, job = some name ∧ scope = some text ∧
        List.Forall₂ (fun element token => (TimeToken.ofText r.reader element).1 = .ok token)
          (elements text) tokens ∧
        (r.resolve route active job scope).lookups = tokens.map (TimeToken.call name active)) ∨
      (route = some Route.ids.name ∧ ∃ ids, actionIds job scope = .ok ids ∧ ids.Nodup ∧
        (r.resolve route active job scope).lookups.Perm (ids.map .byId))) := by
  refine ⟨?_, ?_, ?_⟩
  · intro hunclear
    rcases resolve_refused_or_clear r active route job scope with
      ⟨e, reads, hrefused⟩ | ⟨known, name, text, hclear⟩
    · rw [hrefused]
      exact ⟨⟨e, rfl⟩, rfl⟩
    · exact absurd hclear hunclear.not_clear
  · rintro known name text rfl rfl hname rfl htext
    refine ⟨?_, ?_⟩
    · intro hblank
      rw [resolve_of_blank_element hname htext (nil_mem_elements_iff.2 hblank)]
      exact ⟨rfl, rfl⟩
    · intro hfull before element after e helements hbefore hrefuses
      have hnil : [] ∉ elements text := by
        rw [nil_mem_elements_iff]
        rintro ⟨piece, hpiece, hblank⟩
        exact Bool.false_ne_true ((hfull piece hpiece).symm.trans hblank)
      rw [resolve_of_first_refusal hname htext hnil helements hbefore hrefuses]
      exact ⟨rfl, rfl⟩
  · intro actions h
    rcases resolve_refused_or_clear r active route job scope with
      ⟨e, reads, hrefused⟩ | ⟨known, name, text, hclear⟩
    · rw [hrefused] at h
      cases h
    · obtain rfl := hclear.route
      cases known with
      | times => exact Or.inl ⟨rfl, lookups_of_resolveTimes_eq_ok h⟩
      | ids => exact Or.inr ⟨rfl, lookups_of_resolveIds_eq_ok harrange h⟩

theorem resolve_in_stages_twoJobs :
    let r := Store.twoJobs.resolver Store.dayReader List.reverse
    ((r.resolve Route.times.name true (some "j") (some "noon, x,evening,y")).result =
        .error (.format (.unreadableTime "x" ⟨.unreadable, "x"⟩)) ∧
      (r.resolve Route.times.name true (some "j") (some "noon, x,evening,y")).reads =
        ["noon", "x"] ∧
      (r.resolve Route.times.name true (some "j") (some "noon, x,evening,y")).lookups = []) ∧
    (r.resolve Route.ids.name true (some "j") (some "x,1,, y")).result =
      .error (.format (.emptyElement "x,1,, y")) ∧
    (r.resolve Route.ids.name true (some "j") (some "2-3,02,3")).lookups.Perm
      [.byId "j@2", .byId "j@3", .byId "j@02"] := by
  intro r
  have hstages := resolve_in_stages r List.reverse_perm true
  refine ⟨?_, ?_, ?_⟩
  · obtain ⟨hunclear, hflaws, _⟩ :=
      hstages (some Route.times.name) (some "j") (some "noon, x,evening,y")
    have hx : Route.times.Refuses r.reader "x"
        (.format (.unreadableTime "x" ⟨.unreadable, "x"⟩)) := by
      change (TimeToken.ofText Store.dayReader "x").1 = _
      decide
    have hread : (TimeToken.ofText Store.dayReader "noon").1 =
        .ok (.single Store.noon.toStamp "noon") := by
      decide
    have hnoon : ∀ t ∈ [("noon" : Text)], ∀ e, ¬ Route.times.Refuses r.reader t e := by
      intro t ht e hrefuses
      rw [List.mem_singleton.1 ht] at hrefuses
      cases hread.symm.trans hrefuses
    obtain ⟨_, hleftmost⟩ := hflaws .times "j" "noon, x,evening,y" rfl rfl (by decide) rfl (by decide)
    obtain ⟨hresult, hreads⟩ :=
      hleftmost (by decide) ["noon"] "x" ["evening", "y"] _ (by decide) hnoon hx
    have hmem : ("x" : Text) ∈ elements "noon, x,evening,y" := by decide
    exact ⟨hresult, hreads, (hunclear (.element rfl rfl hmem hx)).2⟩
  · obtain ⟨_, hflaws, _⟩ := hstages (some Route.ids.name) (some "j") (some "x,1,, y")
    obtain ⟨hblank, _⟩ := hflaws .ids "j" "x,1,, y" rfl rfl (by decide) rfl (by decide)
    exact (hblank ⟨[], by decide, rfl⟩).1
  · obtain ⟨_, _, hanswer⟩ := hstages (some Route.ids.name) (some "j") (some "2-3,02,3")
    have hids : actionIds (some "j") (some "2-3,02,3") = .ok ["j@2", "j@3", "j@02"] := by cbv
    have hresult : (r.resolve Route.ids.name true (some "j") (some "2-3,02,3")).result =
        .ok [some (Store.plainAction "j" 3 Store.evening .succeeded),
          some (Store.plainAction "j" 2 Store.noon .running)] := by
      rw [Resolver.resolve_ids, resolveIds_of_actionIds hids]
      decide
    rcases hanswer _ hresult with ⟨htimes, _⟩ | ⟨_, ids, hsame, _, hlookups⟩
    · cases htimes
    · cases hids.symm.trans hsame
      exact hlookups

end Scope

end ActionQuery

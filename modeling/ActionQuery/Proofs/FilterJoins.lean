import ActionQuery.Proofs.FilterGrammar

/-!
# Filter texts joined by semicolons

A filter text is read piece by piece between its semicolons, so where it is cut at a semicolon both
parts can be read by themselves. What they say is put together: the conditions of the first part
take up the values that the second part has for the same subject and comparator, and what else the
second part says follows. Since every cut gives the same, a text may be grouped at its semicolons in
any way.
-/

namespace ActionQuery

/-- A last piece is joined to those before it, if there are any. -/
theorem Text.join_concat (separator : Text) {pieces : List Text} (h : pieces ≠ [])
    (last : Text) : join separator (pieces ++ [last]) =
      join separator pieces ++ (separator ++ last) := by
  fun_induction join separator pieces with
  | case1 => exact absurd rfl h
  | case2 piece => exact List.append_assoc ..
  | case3 piece next rest ih =>
      have hrest := ih (List.cons_ne_nil _ _)
      rw [List.cons_append] at hrest
      rw [List.cons_append, List.cons_append, join, hrest]
      simp only [List.append_assoc]

/-- What is read last is added last. -/
theorem map_foldl_mapM_concat {α β γ ε : Type} (read : α → Except ε β) (add : γ → β → γ) (start : γ)
    (items : List α) (last : α) :
    ((items ++ [last]).mapM read).map (List.foldl add start) =
      ((items.mapM read).map (List.foldl add start)).bind fun sum =>
        (read last).map (add sum) := by
  rw [List.mapM_append]
  cases items.mapM read with
  | error e => rfl
  | ok values =>
      cases h : read last with
      | error e => simp [h, bind, Except.bind, Except.map]
      | ok value => simp [h, bind, Except.bind, Except.map, pure, Except.pure]

namespace Filter

open Scope (TimeReader)

/-- The values of the condition with a key, none without such a condition. -/
def valuesOf (conditions : List Condition) (k : Subject × Comparator) : List Datum :=
  ((Keyed.get? Condition.key k conditions).map Condition.values).getD []

/-- The conditions of `first`, with the values that `second` has for their keys behind their own, and
the conditions of `second` with other keys. -/
def merge (first second : List Condition) : List Condition :=
  first.map (fun c => { c with values := c.values ++ valuesOf second c.key }) ++
    second.filter fun c => c.key ∉ first.map Condition.key

theorem merge_nil_left (second : List Condition) : merge [] second = second := by
  simp [merge]

theorem merge_nil_right (first : List Condition) : merge first [] = first := by
  simp [merge, valuesOf, Keyed.get?]

namespace Term

variable (first second : List Term) (k : Subject × Comparator)

theorem keys_append :
    keys (first ++ second) = keys first ++ (keys second).filter (· ∉ keys first) := by
  have hnew : (second.map key).removeAll (first.map key) =
      (second.map key).filter (· ∉ keys first) := by
    refine List.filter_congr fun k _ => ?_
    rw [Bool.eq_iff_iff, decide_eq_true_iff, mem_keys]
    simp
  rw [keys, List.map_append, List.eraseDups_append, hnew, Keyed.eraseDups_filter]
  rfl

theorem valuesAt_append : valuesAt (first ++ second) k = valuesAt first k ++ valuesAt second k := by
  rw [valuesAt, List.filter_append, List.map_append]
  rfl

end Term

theorem valuesOf_gather (terms : List Term) (k : Subject × Comparator) :
    valuesOf (gather terms) k = Term.valuesAt terms k := by
  rw [gather_eq]
  by_cases hk : k ∈ Term.keys terms
  · have hnodup : (((Term.keys terms).map (Term.conditionAt terms)).map Condition.key).Nodup := by
      rw [Term.map_key_map_conditionAt]
      exact Term.nodup_keys terms
    have hfound := (Keyed.get?_eq_some_iff hnodup (k := k)).2
      ⟨List.mem_map_of_mem hk, Term.key_conditionAt terms k⟩
    rw [valuesOf, hfound]
    rfl
  · have hnone : Keyed.get? Condition.key k
        ((Term.keys terms).map (Term.conditionAt terms)) = none := by
      rw [Keyed.get?_eq_none_iff, List.forall_mem_map]
      rintro known hknown rfl
      exact hk hknown
    rw [valuesOf, hnone, Term.valuesAt_of_notMem hk]
    rfl

/-- Gathering terms in two parts. -/
theorem gather_append (first second : List Term) :
    gather (first ++ second) = merge (gather first) (gather second) := by
  have hkeys : (gather first).map Condition.key = Term.keys first := by
    rw [gather_eq, Term.map_key_map_conditionAt]
  rw [merge, hkeys, gather_eq (first ++ second), Term.keys_append, List.map_append]
  congr 1
  · rw [gather_eq first, List.map_map]
    refine List.map_congr_left fun k _ => ?_
    rw [Function.comp_apply, Term.key_conditionAt, valuesOf_gather, Term.conditionAt,
      Term.valuesAt_append]
    rfl
  · rw [gather_eq second, List.filter_map]
    refine List.map_congr_left fun k hk => ?_
    have hnew : k ∉ Term.keys first := of_decide_eq_true (List.mem_filter.1 hk).2
    rw [Term.conditionAt, Term.conditionAt, Term.valuesAt_append, Term.valuesAt_of_notMem hnew,
      List.nil_append]

theorem entryTexts_append (s t : Text) :
    entryTexts (s ++ ';' :: t) = entryTexts s ++ entryTexts t := by
  rw [entryTexts, List.splitOn_append_cons_self, List.map_append, List.filter_append]
  rfl

theorem entryTexts_of_blank {t : Text} (h : Text.blank t = true) : entryTexts t = [] := by
  have hmark : ';' ∉ t := by
    intro hmem
    cases List.all_eq_true.1 h ';' hmem
  simp [entryTexts, List.splitOn_eq_singleton hmark, Text.trim_eq_nil_iff.2 h]

theorem parse_append (reader : TimeReader) (s t : Text) :
    parse reader (some (s ++ ';' :: t)) =
      (parse reader (some s)).bind fun first => (parse reader (some t)).map (merge first) := by
  simp only [parse, Option.getD_some, entryTexts_append, List.mapM_append]
  cases (entryTexts s).mapM (Term.ofText reader) with
  | error e => rfl
  | ok terms =>
      cases (entryTexts t).mapM (Term.ofText reader) with
      | error e => rfl
      | ok others => exact congrArg Except.ok (gather_append terms others)

theorem parse_of_blank (reader : TimeReader) {t : Text} (h : Text.blank t = true) :
    parse reader (some t) = .ok [] := by
  rw [parse, Option.getD_some, entryTexts_of_blank h]
  rfl

theorem parse_append_blank (reader : TimeReader) (s : Text) {t : Text} (h : Text.blank t = true) :
    parse reader (some (s ++ ';' :: t)) = parse reader (some s) := by
  rw [parse_append, parse_of_blank reader h]
  cases parse reader (some s) with
  | error e => rfl
  | ok conditions => exact congrArg Except.ok (merge_nil_right conditions)

theorem map_merge_nil (result : Except Error (List Condition)) :
    result.map (merge []) = result := by
  cases result with
  | error e => rfl
  | ok conditions => exact congrArg Except.ok (merge_nil_left conditions)

theorem parse_blank_append (reader : TimeReader) {s : Text} (h : Text.blank s = true) (t : Text) :
    parse reader (some (s ++ ';' :: t)) = parse reader (some t) := by
  rw [parse_append, parse_of_blank reader h]
  exact map_merge_nil _

/-- Reading the parts of a text one after another, however many they are. -/
theorem parse_join (reader : TimeReader) (parts : List Text) :
    parse reader (some (Text.join [';'] parts)) =
      (parts.mapM fun part => parse reader (some part)).map (List.foldl merge []) := by
  -- The last part is read last, so that is where the induction takes it from.
  induction parts using List.reverseRecOn with
  | nil => rfl
  | append_singleton parts last ih =>
      rw [map_foldl_mapM_concat, ← ih]
      by_cases hparts : parts = []
      · subst hparts
        exact (map_merge_nil _).symm
      · rw [Text.join_concat [';'] hparts, List.singleton_append, parse_append]

/-- A filter text is read part by part. Joined by a semicolon, two texts say what both say, the
values of the second behind those of the first with the same key and its other keys behind those of
the first; the first one that is not read decides the error. Nothing but white space adds nothing on
either side, no text and an empty one say nothing, and a text may be cut at its semicolons in any
way. -/
theorem parse_by_parts (reader : TimeReader) :
    (∀ s t, parse reader (some (s ++ ';' :: t)) =
      (parse reader (some s)).bind fun first => (parse reader (some t)).map fun second =>
        first.map (fun c => { c with values := c.values ++ valuesOf second c.key }) ++
          second.filter fun c => c.key ∉ first.map Condition.key) ∧
    (∀ s t, Text.blank t = true →
      parse reader (some (s ++ ';' :: t)) = parse reader (some s) ∧
        parse reader (some (t ++ ';' :: s)) = parse reader (some s)) ∧
    parse reader none = .ok [] ∧ parse reader (some []) = .ok [] ∧
    (∀ parts, parse reader (some (Text.join [';'] parts)) =
      (parts.mapM fun part => parse reader (some part)).map (List.foldl merge [])) ∧
    ∀ parts others, Text.join [';'] parts = Text.join [';'] others →
      (parts.mapM fun part => parse reader (some part)).map (List.foldl merge []) =
        (others.mapM fun part => parse reader (some part)).map (List.foldl merge []) := by
  refine ⟨parse_append reader, ?_, rfl, rfl, parse_join reader, ?_⟩
  · intro s t h
    exact ⟨parse_append_blank reader s h, parse_blank_append reader h s⟩
  · intro parts others h
    rw [← parse_join, ← parse_join, h]

/-- To this reader no text is a time. -/
def timeless : TimeReader := fun t => .error ⟨.unreadable, t⟩

def statusText : Text := "status=RUNNING;status!=KILLED"

def moreStatusText : Text := " ;Status <> failed; status=waiting"

def statusConditions : List Condition :=
  [⟨.status, .equals, [.text "RUNNING"]⟩, ⟨.status, .notEquals, [.text "KILLED"]⟩]

theorem parse_by_parts_status :
    parse timeless (some (statusText ++ ';' :: [' ', '\t'])) = .ok statusConditions ∧
    parse timeless (some (statusText ++ ';' :: moreStatusText)) =
      .ok [⟨.status, .equals, [.text "RUNNING", .text "WAITING"]⟩,
        ⟨.status, .notEquals, [.text "KILLED", .text "FAILED"]⟩] := by
  have hfirst : parse timeless (some statusText) = .ok statusConditions := rfl
  have hsecond : parse timeless (some moreStatusText) =
      .ok [⟨.status, .notEquals, [.text "FAILED"]⟩, ⟨.status, .equals, [.text "WAITING"]⟩] := rfl
  obtain ⟨hjoin, hblank, _⟩ := parse_by_parts timeless
  refine ⟨(hblank statusText [' ', '\t'] rfl).1.trans hfirst, ?_⟩
  rw [hjoin, hfirst, hsecond]
  rfl

end Filter

end ActionQuery

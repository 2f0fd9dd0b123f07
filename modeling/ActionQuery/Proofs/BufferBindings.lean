import ActionQuery.Proofs.ClauseReader
import ActionQuery.Proofs.ClauseRefusal
import ActionQuery.Proofs.ClauseThreading

/-!
# Several clauses in one buffer

Clauses that are appended to a buffer are all numbered from 1. A name stands in the buffer once for
each clause that has so many values, while a table of parameters has one value for it, that of the
last of these clauses. So the parameters of all clauses together bind every placeholder to its own
value exactly if no two clauses differ in a value that both have. Where each clause is numbered on
from the one before it, no value is lost.
-/

namespace ActionQuery.Filter

/-- No placeholder goes across a blank. -/
theorem pieces_append_blank (t rest : Text) :
    pieces (t ++ ' ' :: rest) = pieces t ++ pieces (' ' :: rest) := by
  fun_induction pieces t with
  | case1 tail number hnumber ih =>
      have hnone : Text.leadingInteger (tail ++ ' ' :: rest) = [] := by
        rw [Text.leadingInteger_append_blank]
        exact hnumber
      rw [List.cons_append, List.cons_append, pieces]
      simp [hnone, ih]
  | case2 tail number hnumber ih =>
      have hsome : Text.leadingInteger (tail ++ ' ' :: rest) = number :=
        Text.leadingInteger_append_blank tail rest
      have hlength : number.length ≤ tail.length := (Text.leadingInteger_prefix tail).length_le
      rw [List.cons_append, List.cons_append, pieces]
      simp [hsome, hnumber, List.drop_append_of_le_length hlength, ih]
  | case3 c tail hnot ih =>
      have hother : pieces (c :: (tail ++ ' ' :: rest)) = .other c :: pieces (tail ++ ' ' :: rest) := by
        rw [pieces]
        rintro after rfl hafter
        cases tail with
        | nil => cases hafter
        | cons d more =>
            cases hafter
            exact hnot more rfl rfl
      rw [List.cons_append, hother, ih, List.cons_append]
  | case4 => rfl

theorem marks_append_blank (t rest : Text) :
    marks (t ++ ' ' :: rest) = marks t ++ marks (' ' :: rest) := by
  rw [marks, pieces_append_blank, List.filterMap_append]
  rfl

/-- Tables of parameters put over one another, the later ones over the earlier ones. -/
def mergeParams (tables : List (List (Text × Datum))) : List (Text × Datum) :=
  tables.foldl
    (fun merged params => params.foldl (fun rows row => Keyed.put Prod.fst row rows) merged) []

/-- The last table that has a name decides what it is bound to. -/
theorem value?_mergeParams {tables : List (List (Text × Datum))}
    (h : ∀ params ∈ tables, (params.map Prod.fst).Nodup) (name : Text) :
    value? (mergeParams tables) name = tables.reverse.findSome? (value? · name) := by
  induction tables using List.reverseRecOn with
  | nil => rfl
  | append_singleton tables params ih =>
      obtain ⟨htables, hparams⟩ := List.forall_mem_append.1 h
      have hconcat : mergeParams (tables ++ [params]) =
          params.foldl (fun rows row => Keyed.put Prod.fst row rows) (mergeParams tables) :=
        List.foldl_concat ..
      rw [value?, hconcat, Keyed.get?_foldl_put (hparams params List.mem_cons_self),
        List.reverse_append, List.reverse_singleton, List.singleton_append, List.findSome?_cons,
        ← ih htables, value?, value?]
      cases Keyed.get? Prod.fst name params <;> rfl

theorem eq_of_mem_params {params : List (Text × Datum)} (h : (params.map Prod.fst).Nodup)
    {name : Text} {a b : Datum} (ha : (name, a) ∈ params) (hb : (name, b) ∈ params) : a = b := by
  rw [← value?_eq_some_iff h] at ha hb
  exact Option.some.inj (ha.symm.trans hb)

/-- Rows of values that agree wherever both have one: one of them goes on where the other ends. -/
theorem prefix_or_prefix_bind {start : Int} {first second : List Datum}
    (h : ∀ name a b, (name, a) ∈ bind start first → (name, b) ∈ bind start second → a = b) :
    bind start first <+: bind start second ∨ bind start second <+: bind start first := by
  induction first generalizing start second with
  | nil => exact .inl List.nil_prefix
  | cons value rest ih =>
      cases second with
      | nil => exact .inr List.nil_prefix
      | cons other others =>
          have hvalue : value = other :=
            h (paramName start) value other List.mem_cons_self List.mem_cons_self
          subst hvalue
          rw [bind, bind, List.cons_prefix_cons, List.cons_prefix_cons]
          refine (ih ?_).imp (And.intro rfl) (And.intro rfl)
          intro name a b ha hb
          exact h name a b (List.mem_cons_of_mem _ ha) (List.mem_cons_of_mem _ hb)

namespace Clause

/-- A clause that is numbered from 1. A blank sets it apart from what stands before it, and a scan of
it finds the names of its parameters. -/
structure FromOne (clause : Clause) : Prop where
  params : ∃ values, clause.params = bind 1 values
  blank : ∃ tail, clause.text = ' ' :: tail
  marks : marks clause.text = clause.params.map Prod.fst

theorem fromOne_of_compile {entries : List Entry} {clause : Clause}
    (h : compile 1 entries = .ok clause) : clause.FromOne := by
  obtain ⟨conditions, _, _, rfl⟩ := compile_eq_ok_iff.1 h
  exact {
    params := ⟨allValues conditions, rfl⟩
    blank := exists_conditionTexts_append_eq 1 conditions
    marks := by
      rw [map_fst_params]
      exact marks_conditionTexts 1 conditions }

theorem FromOne.nodup {clause : Clause} (h : clause.FromOne) :
    (clause.params.map Prod.fst).Nodup := by
  obtain ⟨values, hvalues⟩ := h.params
  rw [hvalues, map_fst_bind]
  exact nodup_paramNames 1 values.length

theorem marks_append_flatten {clauses : List Clause} (h : ∀ clause ∈ clauses, clause.FromOne)
    (t : Text) :
    Filter.marks (t ++ (clauses.map text).flatten) =
      Filter.marks t ++ (clauses.flatMap params).map Prod.fst := by
  induction clauses generalizing t with
  | nil => simp
  | cons clause rest ih =>
      obtain ⟨hclause, hrest⟩ := List.forall_mem_cons.1 h
      obtain ⟨tail, htail⟩ := hclause.blank
      have hjoined : Filter.marks (t ++ clause.text) =
          Filter.marks t ++ clause.params.map Prod.fst := by
        rw [htail, marks_append_blank, ← htail, hclause.marks]
      rw [List.map_cons, List.flatten_cons, ← List.append_assoc, ih hrest, hjoined,
        List.flatMap_cons, List.map_append, List.append_assoc]

theorem appendAll_of_compiled {buffer : List Text} {calls : List (List Entry)}
    {clauses : List Clause}
    (h : List.Forall₂ (fun entries clause => compile 1 entries = .ok clause) calls clauses) :
    appendAll buffer calls =
      (clauses.map fun clause => .ok clause.params, buffer ++ clauses.map text) := by
  induction h generalizing buffer with
  | nil => exact Prod.ext rfl (List.append_nil buffer).symm
  | cons hclause _ ih =>
      rw [appendAll_cons, append_of_ok hclause, ih, List.append_assoc]
      rfl

/-- Two tables of which one goes on where the other ends agree on a name that both have. -/
theorem FromOne.eq_of_mem {first second : Clause} (hfirst : first.FromOne)
    (hsecond : second.FromOne)
    (h : first.params <+: second.params ∨ second.params <+: first.params) {name : Text}
    {a b : Datum} (ha : (name, a) ∈ first.params) (hb : (name, b) ∈ second.params) : a = b := by
  rcases h with hstart | hstart
  · exact eq_of_mem_params hsecond.nodup (hstart.subset ha) hb
  · exact eq_of_mem_params hfirst.nodup ha (hstart.subset hb)

theorem bindings_kept_iff {clauses : List Clause} (h : ∀ clause ∈ clauses, clause.FromOne) :
    (∀ row ∈ clauses.flatMap params,
        value? (mergeParams (clauses.map params)) row.1 = some row.2) ↔
      ∀ first ∈ clauses, ∀ second ∈ clauses,
        first.params <+: second.params ∨ second.params <+: first.params := by
  have hnodup : ∀ table ∈ clauses.map params, (table.map Prod.fst).Nodup :=
    List.forall_mem_map.2 fun clause hclause => (h clause hclause).nodup
  constructor
  · intro hkept first hfirst second hsecond
    obtain ⟨values, hvalues⟩ := (h first hfirst).params
    obtain ⟨others, hothers⟩ := (h second hsecond).params
    rw [hvalues, hothers]
    refine prefix_or_prefix_bind fun name a b ha hb => ?_
    rw [← hvalues] at ha
    rw [← hothers] at hb
    have hboundA := hkept (name, a) (List.mem_flatMap_of_mem hfirst ha)
    have hboundB := hkept (name, b) (List.mem_flatMap_of_mem hsecond hb)
    exact Option.some.inj (hboundA.symm.trans hboundB)
  · rintro hstarts ⟨name, value⟩ hrow
    obtain ⟨clause, hclause, hmem⟩ := List.mem_flatMap.1 hrow
    have hvalue := (value?_eq_some_iff (h clause hclause).nodup).2 hmem
    have hsome : ((clauses.map params).reverse.findSome? (value? · name)).isSome :=
      List.findSome?_isSome_iff.2 ⟨clause.params,
        List.mem_reverse.2 (List.mem_map_of_mem hclause), by simp [hvalue]⟩
    obtain ⟨found, hfound⟩ := Option.isSome_iff_exists.1 hsome
    obtain ⟨table, htable, hbound⟩ := List.exists_of_findSome?_eq_some hfound
    obtain ⟨last, hlast, rfl⟩ := List.mem_map.1 (List.mem_reverse.1 htable)
    have hrowLast := (value?_eq_some_iff (h last hlast).nodup).1 hbound
    have hsame := (h clause hclause).eq_of_mem (h last hlast)
      (hstarts clause hclause last hlast) hmem hrowLast
    rw [value?_mergeParams hnodup, hfound, hsame]

end Clause

/-- Numbered on from one to the next, filter texts keep the values of all of them. -/
theorem value?_mergeParams_compileAll (reader : Scope.TimeReader) (start : Int)
    (texts : List (Option Text)) :
    ∀ row ∈ (compileAll reader start texts).1.flatMap Clause.params,
      value? (mergeParams ((compileAll reader start texts).1.map Clause.params)) row.1 =
        some row.2 := by
  rintro ⟨name, value⟩ hrow
  obtain ⟨values, hvalues⟩ := exists_params_compileAll_eq reader start texts
  have hnodup : ((bind start values).map Prod.fst).Nodup := by
    rw [map_fst_bind]
    exact nodup_paramNames start values.length
  have hmerged : mergeParams ((compileAll reader start texts).1.map Clause.params) =
      bind start values := by
    rw [mergeParams, ← List.foldl_flatten, ← List.flatMap_def, hvalues]
    exact Keyed.foldl_put_of_nodup hnodup
  rw [hvalues] at hrow
  rw [hmerged]
  exact (value?_eq_some_iff hnodup).2 hrow

/-- Clauses that are appended one after another to a buffer without numbered placeholders. A scan of
the buffer then finds the names of all their parameters, clause by clause, and of their tables put
together in the order of the calls the last one with a name decides what it is bound to. So every
placeholder is bound to the value that it was compiled for exactly if of any two clauses the
parameters of one begin with those of the other: the numbering starts again with each clause. -/
theorem bindings_of_appended {buffer : List Text} {calls : List (List Entry)}
    {clauses : List Clause} (hbuffer : marks buffer.flatten = [])
    (hcalls : List.Forall₂ (fun entries clause => Clause.compile 1 entries = .ok clause)
      calls clauses) :
    (Clause.appendAll buffer calls).1 = clauses.map (fun clause => .ok clause.params) ∧
    marks (Clause.appendAll buffer calls).2.flatten =
      (clauses.flatMap Clause.params).map Prod.fst ∧
    (∀ name, value? (mergeParams (clauses.map Clause.params)) name =
      (clauses.map Clause.params).reverse.findSome? (value? · name)) ∧
    ((∀ row ∈ clauses.flatMap Clause.params,
        value? (mergeParams (clauses.map Clause.params)) row.1 = some row.2) ↔
      ∀ first ∈ clauses, ∀ second ∈ clauses,
        first.params <+: second.params ∨ second.params <+: first.params) := by
  have hclauses : ∀ clause ∈ clauses, clause.FromOne := by
    intro clause hclause
    obtain ⟨entries, _, hcompile⟩ := exists_left_of_mem hcalls hclause
    exact Clause.fromOne_of_compile hcompile
  have hnodup : ∀ table ∈ clauses.map Clause.params, (table.map Prod.fst).Nodup :=
    List.forall_mem_map.2 fun clause hclause => (hclauses clause hclause).nodup
  rw [Clause.appendAll_of_compiled hcalls]
  refine ⟨rfl, ?_, fun name => value?_mergeParams hnodup name, Clause.bindings_kept_iff hclauses⟩
  rw [List.flatten_append, Clause.marks_append_flatten hclauses, hbuffer, List.nil_append]

def runningEntries : List Entry := [⟨.text "status", .text "=", .list [.text "RUNNING"]⟩]

def runningClause : Clause where
  text := " AND a.statusStr IN (:p1) "
  params := [("p1", .text "RUNNING")]
  next := 2

def laterEntries : List Entry := [⟨.text "nominal_time", .text ">", .list [.int 7]⟩]

def laterClause : Clause where
  text := " AND a.nominalTimestamp > :p1 "
  params := [("p1", .int 7)]
  next := 2

theorem compile_runningEntries : Clause.compile 1 runningEntries = .ok runningClause :=
  Clause.compile_eq_ok_iff.2
    ⟨[⟨.status, .equals, [.text "RUNNING"]⟩], .cons ⟨rfl, .sign _, rfl⟩ .nil, by decide, by rfl⟩

theorem compile_laterEntries : Clause.compile 1 laterEntries = .ok laterClause :=
  Clause.compile_eq_ok_iff.2
    ⟨[⟨.nominalTime, .greater, [.int 7]⟩], .cons ⟨rfl, .sign _, rfl⟩ .nil, by decide, by rfl⟩

def jobQuery : List Text := ["where a.jobId = :jobId"]

theorem marks_jobQuery : marks jobQuery.flatten = [] := by
  have htext : jobQuery.flatten = "where a.jobId = " ++ ':' :: 'j' :: ['o', 'b', 'I', 'd'] := by
    decide +kernel
  have hcolon : pieces (':' :: 'j' :: ['o', 'b', 'I', 'd']) =
      .other ':' :: pieces ('j' :: ['o', 'b', 'I', 'd']) := by
    rw [pieces]
    intro _ _ hname
    cases (List.cons.inj hname).1
  have hname : marks ('j' :: ['o', 'b', 'I', 'd']) = [] := by
    rw [← List.append_nil ('j' :: _), marks_append_of_notMem (by decide), marks_nil]
  rw [htext, marks_append_of_notMem (by decide), marks, hcolon]
  exact hname

theorem bindings_of_appended_repeated :
    marks (Clause.appendAll jobQuery [runningEntries, runningEntries]).2.flatten =
      (["p1", "p1"] : List Text) ∧
    value? (mergeParams [runningClause.params, runningClause.params]) "p1" =
      some (.text "RUNNING") := by
  obtain ⟨_, hmarks, _, hkept⟩ := bindings_of_appended marks_jobQuery
    (.cons compile_runningEntries (.cons compile_runningEntries .nil))
  refine ⟨hmarks, hkept.2 ?_ ("p1", .text "RUNNING") List.mem_cons_self⟩
  intro first hfirst second hsecond
  rw [List.eq_of_mem_replicate (n := 2) hfirst, List.eq_of_mem_replicate (n := 2) hsecond]
  exact .inl (List.prefix_refl _)

/-- A filter on the status loses its value to one on the time that is appended behind it. -/
theorem bindings_lost_running_later :
    marks jobQuery.flatten = [] ∧
    List.Forall₂ (fun entries clause => Clause.compile 1 entries = .ok clause)
      [runningEntries, laterEntries] [runningClause, laterClause] ∧
    ¬ ∀ row ∈ [runningClause, laterClause].flatMap Clause.params,
      value? (mergeParams ([runningClause, laterClause].map Clause.params)) row.1 = some row.2 := by
  refine ⟨marks_jobQuery, .cons compile_runningEntries (.cons compile_laterEntries .nil), ?_⟩
  intro hkept
  have hlost : some (.int 7) = some (Datum.text "RUNNING") := hkept _ List.mem_cons_self
  cases hlost

end ActionQuery.Filter

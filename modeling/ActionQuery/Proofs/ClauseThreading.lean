import ActionQuery.Filter.Reader
import ActionQuery.Proofs.Placeholders

/-!
# Numbering on from one clause to the next

A clause hands on the first number that it has not used. Compiling on from there continues the
clause as if its entries had been one filter with those that follow, and where the numbering starts
shows in nothing but the numbers. So however many filters are compiled one after another, no name is
given out twice.
-/

namespace ActionQuery.Filter

namespace Entry

theorem put_append {e : Entry} {first : List Entry} (h : ∀ known ∈ first, known.sameKey e = false)
    (second : List Entry) : put e (first ++ second) = first ++ put e second := by
  induction first with
  | nil => rfl
  | cons known rest ih =>
      obtain ⟨hknown, hrest⟩ := List.forall_mem_cons.1 h
      rw [List.cons_append, put, hknown, ih hrest]
      rfl

theorem foldlM_put_append {first : List Entry} {submitted : List Entry}
    (h : ∀ known ∈ first, ∀ e ∈ submitted, known.sameKey e = false) (second : List Entry) :
    submitted.foldlM (fun spec (e : Entry) => e.checkKey.map fun () => put e spec)
        (first ++ second) =
      (submitted.foldlM (fun spec (e : Entry) => e.checkKey.map fun () => put e spec) second).map
        (first ++ ·) := by
  -- Every entry is put into `second`, so the induction leaves it free.
  induction submitted generalizing second with
  | nil => rfl
  | cons e rest ih =>
      have he : ∀ known ∈ first, known.sameKey e = false :=
        fun known hknown => h known hknown e List.mem_cons_self
      have hrest : ∀ known ∈ first, ∀ later ∈ rest, known.sameKey later = false :=
        fun known hknown later hlater => h known hknown later (List.mem_cons_of_mem _ hlater)
      rw [List.foldlM_cons, List.foldlM_cons]
      cases e.checkKey with
      | error failure => rfl
      | ok _ =>
          change List.foldlM _ (put e (first ++ second)) rest = _
          rw [put_append he]
          exact ih hrest (put e second)

/-- Filters with different keys are one filter with the entries of both. -/
theorem specification_append {submitted others first second : List Entry}
    (hfirst : specification submitted = .ok first) (hsecond : specification others = .ok second)
    (h : ∀ known ∈ first, ∀ e ∈ others, known.sameKey e = false) :
    specification (submitted ++ others) = .ok (first ++ second) := by
  unfold specification at hfirst hsecond ⊢
  have hjoined := foldlM_put_append h []
  rw [List.append_nil, hsecond] at hjoined
  rw [List.foldlM_append, hfirst]
  exact hjoined

end Entry

theorem conditionTexts_append (start : Int) (first second : List Condition) :
    conditionTexts start (first ++ second) =
      conditionTexts start first ++ conditionTexts (start + (allValues first).length) second := by
  induction first generalizing start with
  | nil => simp [conditionTexts]
  | cons c rest ih =>
      have hnext : start + (c.values.length : Int) + ((allValues rest).length : Int) =
          start + ((allValues (c :: rest)).length : Int) := by
        rw [allValues_cons, List.length_append]
        omega
      rw [List.cons_append, conditionTexts, conditionTexts, ih, hnext, List.append_assoc]

namespace Clause

/-- One clause behind another, in the place of its final blank. -/
def followedBy (first second : Clause) : Clause where
  text := first.text.dropLast ++ second.text
  params := first.params ++ second.params
  next := second.next

theorem ofConditions_append (start : Int) (first second : List Condition) :
    ofConditions start (first ++ second) =
      (ofConditions start first).followedBy
        (ofConditions (ofConditions start first).next second) := by
  have htext : (ofConditions start first).text.dropLast = conditionTexts start first :=
    List.dropLast_concat
  have hnext : start + ((allValues first ++ allValues second).length : Int) =
      start + ((allValues first).length : Int) + ((allValues second).length : Int) := by
    rw [List.length_append]
    omega
  unfold followedBy
  rw [htext]
  simp only [ofConditions, conditionTexts_append, allValues_append, hnext, bind_append, List.append_assoc]

theorem compile_append (start : Int) (first second : List Entry) :
    compile start (first ++ second) =
      (compile start first).bind fun clause =>
        (compile clause.next second).map clause.followedBy := by
  unfold compile
  rw [List.mapM_append]
  cases first.mapM Entry.condition with
  | error e => rfl
  | ok conditions =>
      cases second.mapM Entry.condition with
      | error e => rfl
      | ok others => exact congrArg Except.ok (ofConditions_append start conditions others)

theorem getLast?_text {start : Int} {entries : List Entry} {clause : Clause}
    (h : compile start entries = .ok clause) : clause.text.getLast? = some ' ' := by
  obtain ⟨conditions, _, _, rfl⟩ := compile_eq_ok_iff.1 h
  exact List.getLast?_concat

theorem exists_params_eq {start : Int} {entries : List Entry} {clause : Clause}
    (h : compile start entries = .ok clause) :
    ∃ values, clause.params = bind start values ∧ clause.next = start + values.length := by
  obtain ⟨conditions, _, _, rfl⟩ := compile_eq_ok_iff.1 h
  exact ⟨allValues conditions, rfl, rfl⟩

/-- A clause that is numbered on from another shares no name with it. -/
theorem disjoint_names {start : Int} {first second : List Entry} {clause other : Clause}
    (hfirst : compile start first = .ok clause) (hsecond : compile clause.next second = .ok other) :
    (clause.params.map Prod.fst).Disjoint (other.params.map Prod.fst) := by
  obtain ⟨values, hparams, hnext⟩ := exists_params_eq hfirst
  obtain ⟨others, hothers, _⟩ := exists_params_eq hsecond
  have hnodup := nodup_paramNames start (values ++ others).length
  rw [← map_fst_bind, bind_append, ← hnext, ← hparams, ← hothers, List.map_append] at hnodup
  exact List.disjoint_of_nodup_append hnodup

end Clause

/-- The name of the parameter that is `k` numbers further on. -/
def shiftName (k : Int) : Text → Text
  | 'p' :: number =>
    'p' :: (Text.readSigned? number).elim number fun n => Text.ofInt (n + k)
  | name => name

def Piece.shift (k : Int) : Piece → Piece
  | other c => other c
  | mark name => mark (shiftName k name)

/-- Adds `k` to the number of every placeholder in a text. -/
def renumber (k : Int) (t : Text) : Text := ((pieces t).map (Piece.shift k)).flatMap Piece.text

/-- Adds `k` to every number of a clause. -/
def Clause.shift (k : Int) (clause : Clause) : Clause where
  text := renumber k clause.text
  params := clause.params.map fun (name, value) => (shiftName k name, value)
  next := clause.next + k

theorem shiftName_paramName (k n : Int) : shiftName k (paramName n) = paramName (n + k) := by
  rw [paramName, shiftName, Text.readSigned?_ofInt]
  rfl

theorem renumber_append_of_notMem (k : Int) {t : Text} (ht : ':' ∉ t) (rest : Text) :
    renumber k (t ++ rest) = t ++ renumber k rest := by
  have hsame : ((t.map Piece.other).map (Piece.shift k)).flatMap Piece.text = t := by
    induction t with
    | nil => rfl
    | cons c tail ih =>
        rw [List.map_cons, List.map_cons, List.flatMap_cons,
          ih fun h => ht (List.mem_cons_of_mem _ h)]
        rfl
  rw [renumber, pieces_append_of_notMem ht, List.map_append, List.flatMap_append, hsame]
  rfl

theorem renumber_paramName_append (k n : Int) {rest : Text} (hrest : Text.EndsNumber rest) :
    renumber k (':' :: (paramName n ++ rest)) = ':' :: (paramName (n + k) ++ renumber k rest) := by
  rw [renumber, pieces_paramName_append n hrest, List.map_cons, Piece.shift, shiftName_paramName]
  rfl

theorem renumber_join_append (k start : Int) (count : Nat) {rest : Text}
    (hrest : Text.EndsNumber rest) :
    renumber k (Text.join ", " (placeholders start count) ++ rest) =
      Text.join ", " (placeholders (start + k) count) ++ renumber k rest := by
  induction count generalizing start with
  | zero => rfl
  | succ count ih =>
      cases count with
      | zero => exact renumber_paramName_append k start hrest
      | succ count =>
          rw [join_placeholders, join_placeholders, List.cons_append, List.append_assoc,
            List.append_assoc, renumber_paramName_append k start (endsNumber_separator_append _),
            renumber_append_of_notMem k (by decide), ih (start + 1), Int.add_right_comm]
          simp only [List.cons_append, List.append_assoc]

theorem renumber_text (k start : Int) (c : Condition) (rest : Text) :
    renumber k (c.text start ++ ' ' :: rest) = c.text (start + k) ++ renumber k (' ' :: rest) := by
  rw [Condition.text_append, Condition.text_append,
    renumber_append_of_notMem k (Condition.colon_notMem_lead _ _),
    renumber_join_append k start _ (endsNumber_closing_append _ _),
    renumber_append_of_notMem k (colon_notMem_closing _)]

theorem renumber_conditionTexts (k start : Int) (conditions : List Condition) :
    renumber k (conditionTexts start conditions ++ [' ']) =
      conditionTexts (start + k) conditions ++ [' '] := by
  induction conditions generalizing start with
  | nil => simp [conditionTexts, renumber, pieces, Piece.shift, Piece.text]
  | cons c rest ih =>
      obtain ⟨tail, htext, htail⟩ := exists_conditionTexts_cons_append_eq start c rest
      calc
        renumber k (conditionTexts start (c :: rest) ++ [' ']) =
            renumber k (c.text start ++ ' ' :: tail) := by
          rw [htext]
        _ = c.text (start + k) ++ renumber k (' ' :: tail) := renumber_text k start c tail
        _ = c.text (start + k) ++
            (conditionTexts (start + k + c.values.length) rest ++ [' ']) := by
          rw [← htail, ih, Int.add_right_comm]
        _ = conditionTexts (start + k) (c :: rest) ++ [' '] := by
          rw [conditionTexts, List.append_assoc]

theorem map_shiftName_bind (k start : Int) (values : List Datum) :
    ((bind start values).map fun (name, value) => (shiftName k name, value)) =
      bind (start + k) values := by
  induction values generalizing start with
  | nil => rfl
  | cons value rest ih =>
      have hname : (shiftName k (paramName start), value) = (paramName (start + k), value) := by
        rw [shiftName_paramName]
      rw [bind, bind, List.map_cons, ih, Int.add_right_comm]
      exact congrArg (· :: _) hname

namespace Clause

theorem shift_ofConditions (k start : Int) (conditions : List Condition) :
    (ofConditions start conditions).shift k = ofConditions (start + k) conditions := by
  simp only [shift, ofConditions, renumber_conditionTexts, map_shiftName_bind, Int.add_right_comm]

theorem compile_shift (k start : Int) (entries : List Entry) :
    compile (start + k) entries = (compile start entries).map (shift k) := by
  unfold compile
  cases entries.mapM Entry.condition with
  | error e => rfl
  | ok conditions => exact congrArg Except.ok (shift_ofConditions k start conditions).symm

end Clause

/-- All parameters of the clauses together are numbered as those of one clause would be. -/
theorem exists_params_compileAll_eq (reader : Scope.TimeReader) (start : Int)
    (texts : List (Option Text)) :
    ∃ values, (compileAll reader start texts).1.flatMap Clause.params = bind start values := by
  induction texts generalizing start with
  | nil => exact ⟨[], rfl⟩
  | cons t rest ih =>
      rw [compileAll]
      split
      · exact ⟨[], rfl⟩
      · rename_i clause hclause
        obtain ⟨conditions, _, hcompile⟩ := bind_eq_ok_iff.1 hclause
        obtain ⟨values, hparams, hnext⟩ := Clause.exists_params_eq hcompile
        obtain ⟨others, hothers⟩ := ih clause.next
        refine ⟨values ++ others, ?_⟩
        rw [bind_append, ← hnext, ← hparams, ← hothers]
        rfl

/-- Numbering on. A filter in two parts is compiled by compiling the second part on from the next
number of the first, and the first failure is that of the whole; parts with different keys make one
filter. Starting `k` numbers further on adds `k` to every number and changes nothing else. Filter
texts compiled one after another, each numbered on from the one before it, never use a name
twice. -/
theorem compile_threads :
    (∀ start first second, Clause.compile start (first ++ second) =
      (Clause.compile start first).bind fun clause =>
        (Clause.compile clause.next second).map clause.followedBy) ∧
    (∀ start first second clause other, Clause.compile start first = .ok clause →
      Clause.compile clause.next second = .ok other →
        clause.text.getLast? = some ' ' ∧
          (clause.params.map Prod.fst).Disjoint (other.params.map Prod.fst)) ∧
    (∀ submitted others first second, Entry.specification submitted = .ok first →
      Entry.specification others = .ok second →
      (∀ known ∈ first, ∀ e ∈ others, known.sameKey e = false) →
        Entry.specification (submitted ++ others) = .ok (first ++ second)) ∧
    (∀ start k entries, Clause.compile (start + k) entries =
      (Clause.compile start entries).map (Clause.shift k)) ∧
    (∀ (reader : Scope.TimeReader) (start : Int) (texts : List (Option Text)),
      ((compileAll reader start texts).1.flatMap fun clause =>
        clause.params.map Prod.fst).Nodup) := by
  refine ⟨Clause.compile_append, ?_, ?_, ?_, ?_⟩
  · intro start first second clause other hfirst hsecond
    exact ⟨Clause.getLast?_text hfirst, Clause.disjoint_names hfirst hsecond⟩
  · intro submitted others first second
    exact Entry.specification_append
  · intro start k entries
    exact Clause.compile_shift k start entries
  · intro reader start texts
    obtain ⟨values, hvalues⟩ := exists_params_compileAll_eq reader start texts
    have hnames := congrArg (List.map Prod.fst) hvalues
    rw [List.map_flatMap, map_fst_bind] at hnames
    rw [hnames]
    exact nodup_paramNames start _

/-- What the first of `mixedEntries` is compiled to from number 8, `mixedTail` being the rest. -/
def mixedHead : Clause where
  text := " AND a.statusStr NOT IN (:p8, :p9) "
  params := [("p8", .text "KILLED"), ("p9", .text ":p9")]
  next := 10

def mixedTail : Clause where
  text := " AND a.nominalTimestamp >= :p10 AND a.statusStr IN (:p11) "
  params := [("p10", .int 7), ("p11", .text "RUNNING")]
  next := 12

theorem compile_mixedHead : Clause.compile 8 (mixedEntries.take 1) = .ok mixedHead :=
  Clause.compile_eq_ok_iff.2
    ⟨mixedConditions.take 1, List.forall₂_take 1 denotes_mixedEntries, by decide, by rfl⟩

theorem compile_mixedTail : Clause.compile mixedHead.next (mixedEntries.drop 1) = .ok mixedTail :=
  Clause.compile_eq_ok_iff.2
    ⟨mixedConditions.drop 1, List.forall₂_drop 1 denotes_mixedEntries, by decide, by rfl⟩

theorem compile_threads_mixed :
    Clause.compile 8 mixedEntries = .ok (mixedHead.followedBy mixedTail) ∧
    (mixedHead.params.map Prod.fst).Disjoint (mixedTail.params.map Prod.fst) ∧
    Entry.specification mixedEntries = .ok mixedEntries ∧
    Clause.compile 8 mixedEntries = .ok (mixedClause.shift 9) ∧
    ((compileAll (fun _ => .error ⟨.unreadable, []⟩) 9
      [some "status=KILLED; status <> running", none, some "Status=SUCCEEDED"]).1.flatMap
        fun clause => clause.params.map Prod.fst).Nodup := by
  obtain ⟨happend, hthread, hjoin, hshift, hnodup⟩ := compile_threads
  refine ⟨?_, ?_, ?_, ?_, hnodup _ 9 _⟩
  · have hparts := happend 8 (mixedEntries.take 1) (mixedEntries.drop 1)
    rwa [List.take_append_drop, compile_mixedHead, Except.bind, compile_mixedTail] at hparts
  · exact (hthread 8 _ _ _ _ compile_mixedHead compile_mixedTail).2
  · exact hjoin (mixedEntries.take 1) (mixedEntries.drop 1) _ _ rfl rfl (by decide)
  · have hmoved := hshift (-1) 9 mixedEntries
    rwa [compile_mixedEntries] at hmoved

end ActionQuery.Filter

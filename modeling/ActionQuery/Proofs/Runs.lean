import ActionQuery.Text.Blank
import Mathlib.Data.List.Chain
import Mathlib.Data.List.TakeWhile

/-!
# Runs of characters

A text starts with a run of characters of one kind, and what follows the run starts with none of
them. Such a division is the only one, so it is found again from the text. White space around a text
is two such runs, and they take all of it only if nothing else is there. A pair of colons cuts a
text where it first stands.
-/

namespace ActionQuery.Text

variable {p : Char → Bool} {run rest : Text}

theorem head?_dropWhile (p : Char → Bool) (t : Text) : ∀ c ∈ (t.dropWhile p).head?, p c = false := by
  intro c hc
  have hnot := List.head?_dropWhile_not p t
  rwa [Option.mem_def.1 hc] at hnot

theorem takeWhile_append_of_head (hrun : ∀ c ∈ run, p c = true)
    (hrest : ∀ c ∈ rest.head?, p c = false) : (run ++ rest).takeWhile p = run := by
  rw [List.takeWhile_append_of_pos hrun]
  cases rest with
  | nil => simp
  | cons c rest => simp [hrest c rfl]

theorem dropWhile_append_of_head (hrun : ∀ c ∈ run, p c = true)
    (hrest : ∀ c ∈ rest.head?, p c = false) : (run ++ rest).dropWhile p = rest := by
  rw [List.dropWhile_append_of_pos hrun]
  cases rest with
  | nil => rfl
  | cons c rest => simp [hrest c rfl]

theorem trim_eq_nil_iff {t : Text} : trim t = [] ↔ blank t = true := by
  rw [trim, trimWhile, trimRightWhile, trimLeftWhile, List.reverse_eq_nil_iff,
    List.dropWhile_eq_nil_iff, blank, List.all_eq_true]
  constructor
  · intro h c hc
    by_contra hnot
    have hmem : c ∈ t.dropWhile isBlank := by
      rw [← List.takeWhile_append_dropWhile (p := isBlank) (l := t), List.mem_append] at hc
      exact hc.resolve_left fun htake => hnot (List.mem_takeWhile_imp htake)
    exact hnot (h c (List.mem_reverse.2 hmem))
  · intro h c hc
    exact h c ((List.dropWhile_sublist _).subset (List.mem_reverse.1 hc))

/-- No white space comes first or last. -/
structure IsTrimmed (t : Text) : Prop where
  head : ∀ c ∈ t.head?, isBlank c = false
  last : ∀ c ∈ t.getLast?, isBlank c = false

theorem isTrimmed_of_forall {t : Text} (h : ∀ c ∈ t, isBlank c = false) : IsTrimmed t :=
  ⟨fun c hc => h c (List.mem_of_mem_head? hc), fun c hc => h c (List.mem_of_mem_getLast? hc)⟩

theorem IsTrimmed.lead_eq_nil {lead t : Text} (h : IsTrimmed (lead ++ t))
    (hlead : blank lead = true) : lead = [] := by
  cases lead with
  | nil => rfl
  | cons c lead =>
      have hc := h.head c rfl
      rw [List.all_eq_true.1 hlead c List.mem_cons_self] at hc
      cases hc

theorem IsTrimmed.tail_eq_nil {tail t : Text} (h : IsTrimmed (t ++ tail))
    (htail : blank tail = true) : tail = [] := by
  rcases List.eq_nil_or_concat tail with rfl | ⟨front, c, rfl⟩
  · rfl
  · have hc := h.last c (by simp)
    rw [List.all_eq_true.1 htail c (by simp)] at hc
    cases hc

/-- What stands between two texts that are trimmed is not looked at. -/
theorem IsTrimmed.append_append {first second : Text} (hfirst : IsTrimmed first)
    (hsecond : IsTrimmed second) (hne : first ≠ []) (hne' : second ≠ []) (middle : Text) :
    IsTrimmed (first ++ (middle ++ second)) where
  head := by
    obtain ⟨a, rest, rfl⟩ := List.exists_cons_of_ne_nil hne
    exact fun c hc => hfirst.head c hc
  last := by
    intro c hc
    rw [← List.append_assoc, List.getLast?_append_of_ne_nil _ hne'] at hc
    exact hsecond.last c hc

/-- White space around a text is all that is taken away. -/
theorem trim_append_of_blank {lead core tail : Text} (hlead : blank lead = true)
    (hcore : IsTrimmed core) (htail : blank tail = true) : trim (lead ++ (core ++ tail)) = core := by
  rw [blank, List.all_eq_true] at hlead htail
  cases core with
  | nil =>
      rw [List.nil_append, trim_eq_nil_iff, blank, List.all_append, Bool.and_eq_true,
        List.all_eq_true, List.all_eq_true]
      exact ⟨hlead, htail⟩
  | cons c core =>
      have hhead : ∀ d ∈ ((c :: core) ++ tail).head?, isBlank d = false := hcore.head
      have hlast : ∀ d ∈ (c :: core).reverse.head?, isBlank d = false := by
        rw [List.head?_reverse]
        exact hcore.last
      rw [trim, trimWhile, trimLeftWhile, dropWhile_append_of_head hlead hhead, trimRightWhile,
        List.reverse_append, dropWhile_append_of_head _ hlast, List.reverse_reverse]
      exact fun d hd => htail d (List.mem_reverse.1 hd)

theorem trim_of_isTrimmed {t : Text} (h : IsTrimmed t) : trim t = t := by
  simpa using @trim_append_of_blank [] t [] rfl h rfl

theorem exists_trim_append (t : Text) :
    ∃ lead tail, blank lead = true ∧ blank tail = true ∧ t = lead ++ (trim t ++ tail) := by
  refine ⟨t.takeWhile isBlank, ((t.dropWhile isBlank).reverse.takeWhile isBlank).reverse,
    List.all_eq_true.2 fun _ hc => List.mem_takeWhile_imp hc,
    List.all_eq_true.2 fun _ hc => List.mem_takeWhile_imp (List.mem_reverse.1 hc), ?_⟩
  rw [trim, trimWhile, trimRightWhile, trimLeftWhile, ← List.reverse_append,
    List.takeWhile_append_dropWhile, List.reverse_reverse, List.takeWhile_append_dropWhile]

theorem trim_infix (t : Text) : trim t <:+: t := by
  obtain ⟨lead, tail, _, _, ht⟩ := exists_trim_append t
  exact ⟨lead, tail, by rw [List.append_assoc, ← ht]⟩

theorem mem_trim_of_mem {c : Char} {t : Text} (h : c ∈ t) (hc : isBlank c = false) : c ∈ trim t := by
  obtain ⟨lead, tail, hlead, htail, ht⟩ := exists_trim_append t
  have hnot {blanks : Text} (hblank : blank blanks = true) : c ∉ blanks := by
    intro hmem
    rw [List.all_eq_true.1 hblank c hmem] at hc
    cases hc
  rw [ht, List.mem_append, List.mem_append] at h
  exact (h.resolve_left (hnot hlead)).resolve_right (hnot htail)

theorem trim_append_left {lead : Text} (hlead : blank lead = true) (t : Text) :
    trim (lead ++ t) = trim t := by
  rw [trim, trimWhile, trimLeftWhile, List.dropWhile_append_of_pos (List.all_eq_true.1 hlead)]
  rfl

theorem isTrimmed_trim (t : Text) : IsTrimmed (trim t) where
  head := by
    intro c hc
    have hprefix : trim t <+: t.dropWhile isBlank := by
      rw [← List.reverse_suffix, trim, trimWhile, trimRightWhile, trimLeftWhile,
        List.reverse_reverse]
      exact List.dropWhile_suffix _
    refine head?_dropWhile isBlank t c ?_
    obtain ⟨tail, htail⟩ := hprefix
    rw [← htail, List.head?_append, Option.mem_def.1 hc]
    rfl
  last := by
    intro c hc
    rw [trim, trimWhile, trimRightWhile, List.getLast?_reverse] at hc
    exact head?_dropWhile isBlank _ c hc

/-- A part without white space at its ends is kept, whatever is taken away behind it. -/
theorem exists_trim_append_eq {lead core : Text} (hlead : blank lead = true)
    (hcore : IsTrimmed core) (hne : core ≠ []) (rest : Text) :
    ∃ behind, trim (lead ++ (core ++ rest)) = core ++ behind := by
  by_cases hrest : trim rest = []
  · refine ⟨[], ?_⟩
    rw [List.append_nil]
    exact trim_append_of_blank hlead hcore (trim_eq_nil_iff.1 hrest)
  · obtain ⟨front, tail, _, htail, heq⟩ := exists_trim_append rest
    have hkept := hcore.append_append (isTrimmed_trim rest) hne hrest front
    refine ⟨front ++ trim rest, ?_⟩
    rw [← trim_append_of_blank hlead hkept htail]
    congr 1
    rw [List.append_assoc, List.append_assoc, ← heq]

/-- A text that is cut in front of a part that is no white space: what is cut off starts with white
space and that part. -/
theorem exists_trim_of_cut {front mark : Text} (hfront : trim front ≠ []) (hmark : IsTrimmed mark)
    (hne : mark ≠ []) (rest : Text) : ∃ blanks behind, blank blanks = true ∧
      trim (front ++ (mark ++ rest)) = trim front ++ (blanks ++ (mark ++ behind)) := by
  obtain ⟨lead, tail, hlead, htail, hsplit⟩ := exists_trim_append front
  have hcore := (isTrimmed_trim front).append_append hmark hfront hne tail
  obtain ⟨behind, hbehind⟩ := exists_trim_append_eq hlead hcore
    (List.append_ne_nil_of_left_ne_nil hfront _) rest
  refine ⟨tail, behind, htail, ?_⟩
  calc
    trim (front ++ (mark ++ rest)) = trim (lead ++ ((trim front ++ (tail ++ mark)) ++ rest)) := by
      conv_lhs => rw [hsplit]
      simp only [List.append_assoc]
    _ = trim front ++ (tail ++ (mark ++ behind)) := by
      rw [hbehind]
      simp only [List.append_assoc]

theorem splitOn_eq_singleton_iff {mark : Char} {t piece : Text} :
    t.splitOn mark = [piece] ↔ mark ∉ t ∧ piece = t := by
  constructor
  · intro h
    by_cases hmem : mark ∈ t
    · obtain ⟨first, rest, rfl, hfirst⟩ := List.eq_append_cons_of_mem hmem
      rw [List.splitOn_append_cons_self_of_not_mem hfirst, List.cons.injEq] at h
      exact absurd h.2 (List.splitOn_ne_nil _ _)
    · rw [List.splitOn_eq_singleton hmem] at h
      exact ⟨hmem, (List.cons.inj h).1.symm⟩
  · rintro ⟨hmem, rfl⟩
    exact List.splitOn_eq_singleton hmem

theorem splitOn_eq_pair_iff {mark : Char} {t first second : Text} :
    t.splitOn mark = [first, second] ↔
      t = first ++ mark :: second ∧ mark ∉ first ∧ mark ∉ second := by
  constructor
  · intro h
    by_cases hmem : mark ∈ t
    · obtain ⟨piece, rest, rfl, hpiece⟩ := List.eq_append_cons_of_mem hmem
      rw [List.splitOn_append_cons_self_of_not_mem hpiece, List.cons.injEq,
        splitOn_eq_singleton_iff] at h
      obtain ⟨rfl, hrest, rfl⟩ := h
      exact ⟨rfl, hpiece, hrest⟩
    · rw [List.splitOn_eq_singleton hmem] at h
      cases h
  · rintro ⟨rfl, hfirst, hsecond⟩
    rw [List.splitOn_append_cons_self_of_not_mem hfirst, List.splitOn_eq_singleton hsecond]

/-- The first piece is what stands in front of the first separator. -/
theorem exists_splitOn_cons (mark : Char) (t : Text) :
    ∃ piece pieces, t.splitOn mark = piece :: pieces ∧ piece <+: t := by
  by_cases hmem : mark ∈ t
  · obtain ⟨piece, rest, rfl, hpiece⟩ := List.eq_append_cons_of_mem hmem
    exact ⟨piece, _, List.splitOn_append_cons_self_of_not_mem hpiece _, List.prefix_append _ _⟩
  · exact ⟨t, [], List.splitOn_eq_singleton hmem, List.prefix_rfl⟩

/-- No two colons stand side by side. -/
def ColonsApart (t : Text) : Prop := t.IsChain fun a b => a = ':' → b ≠ ':'

theorem colonsApart_of_notMem {t : Text} (h : ':' ∉ t) : ColonsApart t := by
  induction t with
  | nil => exact .nil
  | cons c t ih =>
      rw [List.mem_cons, not_or] at h
      exact List.isChain_cons.2 ⟨fun _ _ hc => absurd hc.symm h.1, ih h.2⟩

/-- Texts without pairs make up a text without one unless one ends and the next starts with a
colon. -/
theorem ColonsApart.append {first second : Text} (hfirst : ColonsApart first)
    (hsecond : ColonsApart second) (h : first.getLast? ≠ some ':' ∨ second.head? ≠ some ':') :
    ColonsApart (first ++ second) := by
  refine List.isChain_append.2 ⟨hfirst, hsecond, ?_⟩
  rintro a ha b hb rfl rfl
  exact h.elim (· ha) (· hb)

/-- White space at the ends makes no pair. -/
theorem colonsApart_trim_iff {t : Text} : ColonsApart (trim t) ↔ ColonsApart t := by
  obtain ⟨lead, tail, hlead, htail, ht⟩ := exists_trim_append t
  rw [blank, List.all_eq_true] at hlead htail
  have hcolon {blanks : Text} (h : ∀ c ∈ blanks, isBlank c = true) : ':' ∉ blanks := by
    intro hmem
    cases h ':' hmem
  constructor
  · intro h
    rw [ht]
    have hend := h.append (colonsApart_of_notMem (hcolon htail)) (Or.inr fun hhead =>
      hcolon htail (List.mem_of_mem_head? hhead))
    exact (colonsApart_of_notMem (hcolon hlead)).append hend (Or.inl fun hlast =>
      hcolon hlead (List.mem_of_getLast? hlast))
  · intro h
    rw [ht] at h
    exact (List.isChain_append.1 (List.isChain_append.1 h).2.1).1

theorem splitAtColons_ne_nil (t : Text) : splitAtColons t ≠ [] := by
  unfold splitAtColons
  split
  · simp
  · simp
  · split <;> simp

theorem splitAtColons_cons {c : Char} {t : Text} (h : c = ':' → t.head? ≠ some ':') :
    splitAtColons (c :: t) = (splitAtColons t).modifyHead (c :: ·) := by
  obtain ⟨piece, pieces, hsplit⟩ := List.exists_cons_of_ne_nil (splitAtColons_ne_nil t)
  rw [splitAtColons, hsplit]
  · rfl
  · rintro rest rfl rfl
    exact h rfl rfl

/-- The first pair of colons ends the first piece. -/
theorem splitAtColons_append {t : Text} (h : ColonsApart t) (hlast : t.getLast? ≠ some ':')
    (rest : Text) : splitAtColons (t ++ ':' :: ':' :: rest) = t :: splitAtColons rest := by
  induction t with
  | nil => rfl
  | cons c t ih =>
      obtain ⟨hhead, ht⟩ := List.isChain_cons.1 h
      cases t with
      | nil =>
          have hc : c ≠ ':' := by simpa using hlast
          rw [List.cons_append, splitAtColons_cons fun heq => absurd heq hc]
          rfl
      | cons d t =>
          have hd : c = ':' → d ≠ ':' := hhead d rfl
          rw [List.cons_append, splitAtColons_cons (by simpa using hd), ih ht (by simpa using hlast)]
          rfl

theorem splitAtColons_of_apart {t : Text} (h : ColonsApart t) : splitAtColons t = [t] := by
  induction t with
  | nil => rfl
  | cons c t ih =>
      obtain ⟨hhead, ht⟩ := List.isChain_cons.1 h
      have hpair : c = ':' → t.head? ≠ some ':' := fun hc hmem => hhead ':' hmem hc rfl
      rw [splitAtColons_cons hpair, ih ht]
      rfl

theorem one_lt_length_splitAtColons_iff {t : Text} :
    1 < (splitAtColons t).length ↔ ¬ ColonsApart t := by
  constructor
  · intro hlength h
    simp [splitAtColons_of_apart h] at hlength
  · intro h
    induction t with
    | nil => exact absurd .nil h
    | cons c t ih =>
        by_cases hpair : c = ':' → t.head? ≠ some ':'
        · rw [splitAtColons_cons hpair, List.length_modifyHead]
          refine ih fun ht => h (List.isChain_cons.2 ⟨?_, ht⟩)
          rintro d hd hc rfl
          exact hpair hc hd
        · obtain ⟨rfl, hhead⟩ : c = ':' ∧ t.head? = some ':' := by simpa using hpair
          obtain ⟨rest, rfl⟩ := List.head?_eq_some_iff.1 hhead
          exact Nat.succ_lt_succ (List.length_pos_of_ne_nil (splitAtColons_ne_nil rest))

end ActionQuery.Text

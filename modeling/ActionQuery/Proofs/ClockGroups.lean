import ActionQuery.Calendar.Iso.Reader
import ActionQuery.Proofs.Numerals

/-!
# The groups of a time of day

A time of day is read from the left: pairs of digits, a fraction behind them, and whatever the reader
leaves. The steps are put down as a relation that holds exactly when the reader gives the numbers, so
both what the text in front of the rest looks like and what becomes of a shorter text follow from it
by induction.
-/

namespace ActionQuery

namespace Text

/-- Runs of digits, each set apart from the next by one mark. -/
inductive DigitRuns : Text → Prop where
  | run {digits : Text} (hne : digits ≠ []) (hdigits : ∀ c ∈ digits, c.isDigit = true) :
      DigitRuns digits
  | mark {digits rest : Text} {c : Char} (hne : digits ≠ [])
      (hdigits : ∀ d ∈ digits, d.isDigit = true) (hmark : c ∈ [':', '.', ','])
      (hrest : DigitRuns rest) : DigitRuns (digits ++ c :: rest)

namespace DigitRuns

variable {t digits : Text}

theorem append_left (hdigits : ∀ c ∈ digits, c.isDigit = true) (h : DigitRuns t) :
    DigitRuns (digits ++ t) := by
  cases h with
  | run hne hruns =>
      refine .run (List.append_ne_nil_of_right_ne_nil _ hne) fun c hc => ?_
      exact (List.mem_append.1 hc).elim (hdigits c) (hruns c)
  | mark hne hruns hmark hrest =>
      rw [← List.append_assoc]
      refine .mark (List.append_ne_nil_of_right_ne_nil _ hne) (fun c hc => ?_) hmark hrest
      exact (List.mem_append.1 hc).elim (hdigits c) (hruns c)

theorem exists_head (h : DigitRuns t) : ∃ c rest, t = c :: rest ∧ c.isDigit = true := by
  cases h with
  | run hne hdigits =>
      obtain ⟨c, rest, rfl⟩ := List.exists_cons_of_ne_nil hne
      exact ⟨c, rest, rfl, hdigits c List.mem_cons_self⟩
  | mark hne hdigits _ _ =>
      obtain ⟨c, rest, rfl⟩ := List.exists_cons_of_ne_nil hne
      exact ⟨c, _, rfl, hdigits c List.mem_cons_self⟩

theorem ne_nil (h : DigitRuns t) : t ≠ [] := by
  obtain ⟨c, rest, rfl, _⟩ := h.exists_head
  exact List.cons_ne_nil c rest

theorem isDigit_last (h : DigitRuns t) : ∀ c ∈ t.getLast?, c.isDigit = true := by
  induction h with
  | run _ hdigits => exact fun c hc => hdigits c (List.mem_of_getLast? hc)
  | @mark digits rest m hne _ hmark hrest ih =>
      obtain ⟨d, more, rfl, _⟩ := hrest.exists_head
      rwa [List.getLast?_append_of_ne_nil _ (List.cons_ne_nil _ _), List.getLast?_cons_cons]

theorem isDigit_or_mark (h : DigitRuns t) : ∀ c ∈ t, c.isDigit = true ∨ c ∈ [':', '.', ','] := by
  induction h with
  | run _ hdigits => exact fun c hc => Or.inl (hdigits c hc)
  | @mark digits rest m _ hdigits hmark _ ih =>
      intro c hc
      rcases List.mem_append.1 hc with hdigit | hc
      · exact Or.inl (hdigits c hdigit)
      · rcases List.mem_cons.1 hc with rfl | hrest
        · exact Or.inr hmark
        · exact ih c hrest

theorem colonsApart (h : DigitRuns t) : ColonsApart t := by
  have hrun {digits : Text} (hdigits : ∀ c ∈ digits, c.isDigit = true) : ':' ∉ digits := by
    intro hmem
    cases hdigits ':' hmem
  induction h with
  | run _ hdigits => exact colonsApart_of_notMem (hrun hdigits)
  | @mark digits rest m _ hdigits _ hrest ih =>
      refine (colonsApart_of_notMem (hrun hdigits)).append ?_ (Or.inl fun hlast => ?_)
      · obtain ⟨d, more, rfl, hd⟩ := hrest.exists_head
        refine List.isChain_cons.2 ⟨?_, ih⟩
        rintro _ ⟨⟩ _ rfl
        cases hd
      · exact hrun hdigits (List.mem_of_getLast? hlast)

end DigitRuns

/-- Six digits come last. -/
def EndsInSixDigits (t : Text) : Prop :=
  ∃ front digits, t = front ++ digits ∧ digits.length = 6 ∧ ∀ c ∈ digits, c.isDigit = true

theorem EndsInSixDigits.append_left {t : Text} (h : EndsInSixDigits t) (front : Text) :
    EndsInSixDigits (front ++ t) := by
  obtain ⟨more, digits, rfl, hlength, hdigits⟩ := h
  exact ⟨front ++ more, digits, (List.append_assoc _ _ _).symm, hlength, hdigits⟩

theorem endsInSixDigits_of_le {digits : Text} (hdigits : ∀ c ∈ digits, c.isDigit = true)
    (h : 6 ≤ digits.length) : EndsInSixDigits digits := by
  refine ⟨digits.take (digits.length - 6), digits.drop (digits.length - 6),
    (List.take_append_drop _ _).symm, ?_, fun c hc => hdigits c (List.mem_of_mem_drop hc)⟩
  rw [List.length_drop]
  omega

end Text

namespace Calendar.Iso

open Text (DigitRuns EndsInSixDigits)

variable {t rest digits a q : Text} {value left : Nat} {values : List Nat}
variable {micro : Fin microsPerSecond} {colons : Option Bool}

/-- A fraction is a run of digits, and less than six of them end the text. -/
theorem exists_digits_of_readFraction (h : readFraction t = some (micro, rest)) :
    ∃ digits, t = digits ++ rest ∧ (∀ c ∈ digits, c.isDigit = true) ∧
      (rest = [] ∨ 6 ≤ digits.length) := by
  simp only [readFraction] at h
  split at h
  · rename_i hdigits
    cases h
    refine ⟨t.take 6 ++ (t.drop 6).takeWhile Char.isDigit, ?_, fun c hc => ?_, ?_⟩
    · rw [List.append_assoc, List.takeWhile_append_dropWhile, List.take_append_drop]
    · rcases List.mem_append.1 hc with htake | hmore
      · exact List.all_eq_true.1 hdigits c htake
      · exact List.mem_takeWhile_imp hmore
    · by_cases hlength : t.length < 6
      · left
        rw [List.drop_eq_nil_of_le hlength.le, List.dropWhile_nil]
      · right
        rw [List.length_append, List.length_take]
        omega
  · cases h

theorem exists_runs_of_readFraction (h : readFraction t = some (micro, rest)) :
    ∃ front, t = front ++ rest ∧ (t ≠ [] → DigitRuns front) ∧
      (rest.length ≤ 1 ∨ EndsInSixDigits front) := by
  obtain ⟨digits, rfl, hdigits, hlong⟩ := exists_digits_of_readFraction h
  refine ⟨digits, rfl, fun hne => .run ?_ hdigits, hlong.imp ?_ fun hsix => ?_⟩
  · rintro rfl
    rcases hlong with rfl | hsix
    · exact hne rfl
    · exact absurd hsix (by decide)
  · rintro rfl
    exact Nat.zero_le 1
  · exact Text.endsInSixDigits_of_le hdigits hsix

/-- Where a fraction goes on with anything but a digit, it is over before that. -/
theorem readFraction_of_append (h : readFraction (a ++ q) = some (micro, rest)) (hne : q ≠ [])
    (hq : Text.EndsNumber q) : 6 ≤ a.length ∧ ∃ r, readFraction a = some (micro, r) := by
  obtain ⟨c, more, rfl⟩ := List.exists_cons_of_ne_nil hne
  have hlength : 6 ≤ a.length := by
    by_contra hshort
    have hmem : c ∈ (a ++ c :: more).take 6 := by
      rw [List.take_append, List.mem_append]
      right
      rw [show 6 - a.length = (6 - a.length - 1) + 1 by omega, List.take_succ_cons]
      exact List.mem_cons_self
    simp only [readFraction] at h
    split at h
    · rename_i hdigits
      have hdigit := List.all_eq_true.1 hdigits c hmem
      rw [hq c rfl] at hdigit
      cases hdigit
    · cases h
  refine ⟨hlength, (a.drop 6).dropWhile Char.isDigit, ?_⟩
  simp only [readFraction, List.take_append_of_le_length hlength] at h ⊢
  split at h
  · rename_i hdigits
    cases h
    rw [dif_pos hdigits]
  · cases h

/-- Two digits and their value. -/
structure IsPair (digits : Text) (value : Nat) : Prop where
  length_eq : digits.length = 2
  isDigit : ∀ c ∈ digits, c.isDigit = true
  value_eq : Text.digitsValue digits = value

theorem readDigits_two_eq_some_iff :
    Text.readDigits 2 t = some (value, rest) ↔
      ∃ digits, t = digits ++ rest ∧ IsPair digits value := by
  rw [Text.readDigits_eq_some_iff]
  constructor
  · rintro ⟨digits, ht, hlength, hdigits, hvalue⟩
    exact ⟨digits, ht, hlength, hdigits, hvalue⟩
  · rintro ⟨digits, ht, hpair⟩
    exact ⟨digits, ht, hpair.length_eq, hpair.isDigit, hpair.value_eq⟩

theorem IsPair.ne_nil (h : IsPair digits value) : digits ≠ [] := by
  rintro rfl
  cases h.length_eq

theorem IsPair.isDigit_head (h : IsPair digits value) (rest : Text) :
    ∃ c ∈ (digits ++ rest).head?, c.isDigit = true := by
  obtain ⟨c, more, rfl⟩ := List.exists_cons_of_ne_nil h.ne_nil
  exact ⟨c, rfl, h.isDigit c List.mem_cons_self⟩

/-- At most so many groups of a text, with a fraction and what is left. Colons set the groups apart
or do not, and the first group tells which. -/
inductive Groups : Nat → Option Bool → Text → List Nat → Fin microsPerSecond → Text → Prop where
  | none {colons : Option Bool} {t rest : Text} {micro : Fin microsPerSecond}
      (h : readFraction t = some (micro, rest)) : Groups 0 colons t [] micro rest
  | last {left : Nat} {colons : Option Bool} {digits : Text} {value : Nat}
      (hpair : IsPair digits value) : Groups (left + 1) colons digits [value] noFraction []
  | spare {left : Nat} {colons : Option Bool} {digits : Text} {value : Nat} {c : Char}
      (hpair : IsPair digits value) (hascii : Text.isAscii c = true) :
      Groups (left + 1) colons (digits ++ [c]) [value] noFraction [c]
  | fraction {left : Nat} {colons : Option Bool} {digits more rest : Text} {value : Nat} {c : Char}
      {micro : Fin microsPerSecond} (hpair : IsPair digits value) (hmark : c = '.' ∨ c = ',')
      (hne : more ≠ []) (h : readFraction more = some (micro, rest)) :
      Groups (left + 1) colons (digits ++ c :: more) [value] micro rest
  | colon {left : Nat} {colons : Option Bool} {digits more rest : Text} {value : Nat}
      {values : List Nat} {micro : Fin microsPerSecond} (hpair : IsPair digits value)
      (hcolons : colons ≠ some false) (hne : more ≠ [])
      (h : Groups left (some true) more values micro rest) :
      Groups (left + 1) colons (digits ++ ':' :: more) (value :: values) micro rest
  | next {left : Nat} {colons : Option Bool} {digits more rest : Text} {value : Nat} {c : Char}
      {values : List Nat} {micro : Fin microsPerSecond} (hpair : IsPair digits value)
      (hcolons : colons ≠ some true) (hc : c.isDigit = true) (hne : more ≠ [])
      (h : Groups left (some false) (c :: more) values micro rest) :
      Groups (left + 1) colons (digits ++ c :: more) (value :: values) micro rest

/-- Something is read only from a text that starts with a digit. -/
theorem isDigit_of_readGroups {c : Char} {more : Text}
    (h : readGroups left colons (c :: more) = some (values, micro, rest)) : c.isDigit = true := by
  cases left with
  | zero =>
      simp only [readGroups, Option.map_eq_some_iff] at h
      obtain ⟨⟨found, behind⟩, hfraction, _⟩ := h
      simp only [readFraction] at hfraction
      split at hfraction
      · rename_i hdigits
        exact List.all_eq_true.1 hdigits c (by simp)
      · cases hfraction
  | succ left =>
      rw [readGroups] at h
      split at h
      · cases h
      · rename_i value behind hread
        obtain ⟨digits, htext, hpair⟩ := readDigits_two_eq_some_iff.1 hread
        obtain ⟨d, hd, hdigit⟩ := hpair.isDigit_head behind
        rw [← htext] at hd
        cases hd
        exact hdigit

theorem groups_of_readGroups (h : readGroups left colons t = some (values, micro, rest)) :
    Groups left colons t values micro rest := by
  induction left generalizing colons t values micro rest with
  | zero =>
      simp only [readGroups, Option.map_eq_some_iff] at h
      obtain ⟨⟨found, behind⟩, hfraction, heq⟩ := h
      cases heq
      exact .none hfraction
  | succ left ih =>
      rw [readGroups] at h
      split at h
      · cases h
      · rename_i value behind hread
        obtain ⟨digits, rfl, hpair⟩ := readDigits_two_eq_some_iff.1 hread
        simp only [Option.map_eq_some_iff] at h
        obtain ⟨⟨others, found, left⟩, hfollowing, heq⟩ := h
        cases heq
        split at hfollowing
        · cases hfollowing
          rw [List.append_nil]
          exact .last hpair
        · split at hfollowing
          · rename_i hascii
            cases hfollowing
            exact .spare hpair hascii
          · cases hfollowing
        · rename_i c more hmore
          have hne : more ≠ [] := fun hnil => hmore hnil
          split at hfollowing
          · rename_i hcolon
            obtain ⟨hcolons, hc⟩ : colons.getD _ = true ∧ _ := Bool.and_eq_true_iff.1 hcolon
            obtain rfl : c = ':' := eq_of_beq hc
            rw [hcolons] at hfollowing
            refine .colon hpair ?_ hne (ih hfollowing)
            rintro rfl
            cases hcolons
          · rename_i hcolon
            split at hfollowing
            · rename_i hmark
              rw [Option.map_eq_some_iff] at hfollowing
              obtain ⟨⟨fraction, behind⟩, hfraction, heq⟩ := hfollowing
              cases heq
              exact .fraction hpair (by simpa using hmark) hne hfraction
            · split at hfollowing
              · cases hfollowing
              · rename_i hcolons
                rw [Bool.not_eq_true] at hcolons
                rw [hcolons] at hfollowing
                refine .next hpair ?_ (isDigit_of_readGroups hfollowing) hne (ih hfollowing)
                rintro rfl
                cases hcolons

theorem readGroups_of_groups (h : Groups left colons t values micro rest) :
    readGroups left colons t = some (values, micro, rest) := by
  have hread {digits : Text} {value : Nat} (hpair : IsPair digits value) (behind : Text) :
      Text.readDigits 2 (digits ++ behind) = some (value, behind) :=
    readDigits_two_eq_some_iff.2 ⟨digits, rfl, hpair⟩
  induction h with
  | none h => simp [readGroups, h]
  | last hpair =>
      have hpair := hread hpair []
      rw [List.append_nil] at hpair
      simp [readGroups, hpair]
  | spare hpair hascii => simp [readGroups, hread hpair, hascii]
  | fraction hpair hmark hne h =>
      obtain ⟨d, more, rfl⟩ := List.exists_cons_of_ne_nil hne
      rcases hmark with rfl | rfl <;> simp [readGroups, hread hpair, h]
  | @colon left colons digits more rest value values micro hpair hcolons hne h ih =>
      obtain ⟨d, more, rfl⟩ := List.exists_cons_of_ne_nil hne
      have hset : colons.getD true = true := by
        rcases colons with _ | _ | _
        · rfl
        · exact absurd rfl hcolons
        · rfl
      simp [readGroups, hread hpair, hset, ih]
  | @next left colons digits more rest value c values micro hpair hcolons hc hne h ih =>
      obtain ⟨d, more, rfl⟩ := List.exists_cons_of_ne_nil hne
      have hmark : c ≠ ':' ∧ c ≠ '.' ∧ c ≠ ',' := by
        refine ⟨?_, ?_, ?_⟩ <;> rintro rfl <;> cases hc
      have hset : colons.getD (c == ':') = false := by
        rcases colons with _ | _ | _
        · exact beq_false_of_ne hmark.1
        · rfl
        · exact absurd rfl hcolons
      simp [readGroups, hread hpair, hmark, hset, ih]

theorem readGroups_eq_some_iff :
    readGroups left colons t = some (values, micro, rest) ↔
      Groups left colons t values micro rest :=
  ⟨groups_of_readGroups, readGroups_of_groups⟩

namespace Groups

/-- What is read looks like runs of digits, and more than one character is left only behind a
fraction with all its digits. -/
theorem exists_runs (h : Groups left colons t values micro rest) :
    ∃ front, t = front ++ rest ∧ (t ≠ [] → DigitRuns front) ∧
      (rest.length ≤ 1 ∨ EndsInSixDigits front) := by
  induction h with
  | none h => exact exists_runs_of_readFraction h
  | @last left colons digits value hpair =>
      exact ⟨digits, (List.append_nil _).symm, fun _ => .run hpair.ne_nil hpair.isDigit,
        Or.inl (Nat.zero_le 1)⟩
  | @spare left colons digits value c hpair _ =>
      exact ⟨digits, rfl, fun _ => .run hpair.ne_nil hpair.isDigit, Or.inl le_rfl⟩
  | @fraction left colons digits more rest value c micro hpair hmark hne h =>
      obtain ⟨front, rfl, hruns, hlong⟩ := exists_runs_of_readFraction h
      refine ⟨digits ++ c :: front, by simp, fun _ => ?_, hlong.imp_right fun hsix => ?_⟩
      · exact .mark hpair.ne_nil hpair.isDigit (by simpa using Or.inr hmark) (hruns hne)
      · simpa using hsix.append_left (digits ++ [c])
  | @colon left colons digits more rest value values micro hpair _ hne _ ih =>
      obtain ⟨front, rfl, hruns, hlong⟩ := ih
      refine ⟨digits ++ ':' :: front, by simp, fun _ => ?_, hlong.imp_right fun hsix => ?_⟩
      · exact .mark hpair.ne_nil hpair.isDigit (by simp) (hruns hne)
      · simpa using hsix.append_left (digits ++ [':'])
  | @next left colons digits more rest value c values micro hpair _ _ _ _ ih =>
      obtain ⟨front, hmore, hruns, hlong⟩ := ih
      refine ⟨digits ++ front, by rw [hmore, List.append_assoc], fun _ => ?_,
        hlong.imp_right fun hsix => hsix.append_left digits⟩
      exact (hruns (List.cons_ne_nil _ _)).append_left hpair.isDigit

end Groups

theorem exists_runs_of_readClock {n : ClockNumbers} (h : readClock t = some (n, rest)) :
    ∃ front, t = front ++ rest ∧ DigitRuns front ∧ (rest.length ≤ 1 ∨ EndsInSixDigits front) := by
  rw [readClock, Option.map_eq_some_iff] at h
  obtain ⟨⟨values, micro, behind⟩, hread, heq⟩ := h
  cases heq
  obtain ⟨front, ht, hruns, hlong⟩ := (readGroups_eq_some_iff.1 hread).exists_runs
  refine ⟨front, ht, hruns ?_, hlong⟩
  rintro rfl
  cases hread

/-- A text that no group goes on in: it starts with no digit, and not with a colon that has a digit
or nothing behind it. -/
structure Breaks (q : Text) : Prop where
  ne_nil : q ≠ []
  endsNumber : Text.EndsNumber q
  colon : ∀ more, q = ':' :: more → more ≠ [] ∧ Text.EndsNumber more

theorem Breaks.blank_append {blanks : Text} (hblank : Text.blank blanks = true) (hq : Breaks q) :
    Breaks (blanks ++ q) := by
  cases blanks with
  | nil => exact hq
  | cons c blanks =>
      have hc : Text.isBlank c = true := List.all_eq_true.1 hblank c List.mem_cons_self
      refine ⟨List.cons_ne_nil _ _, Text.endsNumber_cons ?_ _, fun more hcolon => ?_⟩
      · by_contra hdigit
        rw [Text.isBlank_of_isDigit (Bool.not_eq_false _ ▸ hdigit)] at hc
        cases hc
      · rw [(List.cons.inj hcolon).1] at hc
        cases hc

theorem IsPair.exists_of_append {behind : Text} (hpair : IsPair digits value) (hq : Breaks q)
    (h : a ++ q = digits ++ behind) : ∃ more, a = digits ++ more ∧ behind = more ++ q := by
  rcases List.append_eq_append_iff.1 h with ⟨middle, rfl, hbehind⟩ | ⟨more, rfl, hbehind⟩
  · cases middle with
    | nil => exact ⟨[], by simp, by simpa using hbehind.symm⟩
    | cons c middle =>
        -- the text behind would start within the pair
        have hdigit := hpair.isDigit c (by simp)
        rw [hq.endsNumber c (by simp [hbehind])] at hdigit
        cases hdigit
  · exact ⟨more, rfl, hbehind⟩

/-- A text that is cut behind a pair keeps the pair alone or the character after it as well. -/
theorem IsPair.eq_or_exists_of_append {c : Char} {behind : Text} (hpair : IsPair digits value)
    (hq : Breaks q) (h : a ++ q = digits ++ c :: behind) :
    a = digits ∧ q = c :: behind ∨ ∃ more, a = digits ++ c :: more ∧ behind = more ++ q := by
  obtain ⟨more, rfl, hbehind⟩ := hpair.exists_of_append hq h
  cases more with
  | nil => exact Or.inl ⟨List.append_nil digits, hbehind.symm⟩
  | cons d more =>
      obtain ⟨rfl, rfl⟩ := List.cons.inj hbehind
      exact Or.inr ⟨more, rfl, rfl⟩

namespace Groups

/-- Groups are not read from across the place where no group goes on. -/
theorem two_le_length_of_append (h : Groups left colons (a ++ q) values micro rest)
    (hq : Breaks q) : 2 ≤ a.length := by
  generalize ht : a ++ q = t at h
  have hpair {digits behind : Text} {value : Nat} (hpair : IsPair digits value)
      (ht : a ++ q = digits ++ behind) : 2 ≤ a.length := by
    obtain ⟨more, rfl, _⟩ := hpair.exists_of_append hq ht
    rw [List.length_append, hpair.length_eq]
    exact Nat.le_add_right 2 _
  cases h with
  | none h =>
      subst ht
      exact le_trans (by decide) (readFraction_of_append h hq.ne_nil hq.endsNumber).1
  | last h => exact hpair h (ht.trans (List.append_nil t).symm)
  | spare h => exact hpair h ht
  | fraction h => exact hpair h ht
  | colon h => exact hpair h ht
  | next h => exact hpair h ht

/-- In front of the place where no group goes on the same groups are read. The fraction is the same
as well, unless it starts there. -/
theorem of_append (h : Groups left colons (a ++ q) values micro rest) (hq : Breaks q) :
    ∃ found r, Groups left colons a values found r ∧
      (found = micro ∨ found = noFraction ∧ ∃ c ∈ q.head?, c = '.' ∨ c = ',') := by
  generalize ht : a ++ q = t at h
  induction h generalizing a with
  | none h =>
      subst ht
      obtain ⟨_, r, hfraction⟩ := readFraction_of_append h hq.ne_nil hq.endsNumber
      exact ⟨_, r, .none hfraction, Or.inl rfl⟩
  | @last left colons digits value hpair =>
      obtain ⟨more, _, hnil⟩ := hpair.exists_of_append hq (ht.trans (List.append_nil digits).symm)
      exact absurd (List.append_eq_nil_iff.1 hnil.symm).2 hq.ne_nil
  | @spare left colons digits value c hpair _ =>
      rcases hpair.eq_or_exists_of_append hq ht with ⟨rfl, rfl⟩ | ⟨more, _, hnil⟩
      · exact ⟨_, [], .last hpair, Or.inl rfl⟩
      · exact absurd (List.append_eq_nil_iff.1 hnil.symm).2 hq.ne_nil
  | @fraction left colons digits behind rest value c micro hpair hmark hne h =>
      rcases hpair.eq_or_exists_of_append hq ht with ⟨rfl, rfl⟩ | ⟨more, rfl, rfl⟩
      · exact ⟨_, [], .last hpair, Or.inr ⟨rfl, c, rfl, hmark⟩⟩
      · obtain ⟨hlength, r, hfraction⟩ := readFraction_of_append h hq.ne_nil hq.endsNumber
        refine ⟨_, r, .fraction hpair hmark ?_ hfraction, Or.inl rfl⟩
        rintro rfl
        exact absurd hlength (by decide)
  | @colon left colons digits behind rest value values micro hpair hcolons hne h ih =>
      rcases hpair.eq_or_exists_of_append hq ht with ⟨rfl, rfl⟩ | ⟨more, rfl, rfl⟩
      · obtain ⟨d, rest, rfl⟩ := List.exists_cons_of_ne_nil hne
        have hdigit := isDigit_of_readGroups (readGroups_eq_some_iff.2 h)
        rw [(hq.colon _ rfl).2 d rfl] at hdigit
        cases hdigit
      · obtain ⟨found, r, hgroups, hfound⟩ := ih rfl
        refine ⟨found, r, .colon hpair hcolons ?_ hgroups, hfound⟩
        rintro rfl
        have hlength : 2 ≤ ([] : Text).length := two_le_length_of_append h hq
        exact absurd hlength (by decide)
  | @next left colons digits behind rest value c values micro hpair hcolons hc hne h ih =>
      rcases hpair.eq_or_exists_of_append hq ht with ⟨rfl, rfl⟩ | ⟨more, rfl, rfl⟩
      · rw [hq.endsNumber c rfl] at hc
        cases hc
      · obtain ⟨found, r, hgroups, hfound⟩ := @ih (c :: more) rfl
        refine ⟨found, r, .next hpair hcolons hc ?_ hgroups, hfound⟩
        rintro rfl
        have hlength : 2 ≤ ([c] : Text).length := two_le_length_of_append h hq
        exact absurd hlength (by simp)

end Groups

theorem readClock_of_append {n : ClockNumbers} (h : readClock (a ++ q) = some (n, rest))
    (hq : Breaks q) : ∃ found r, readClock a = some (found, r) ∧
      (found = n ∨ found = { n with micro := noFraction } ∧ ∃ c ∈ q.head?, c = '.' ∨ c = ',') := by
  rw [readClock, Option.map_eq_some_iff] at h
  obtain ⟨⟨values, micro, behind⟩, hread, heq⟩ := h
  cases heq
  obtain ⟨found, r, hgroups, hfound⟩ := (readGroups_eq_some_iff.1 hread).of_append hq
  refine ⟨⟨values.getD 0 0, values.getD 1 0, values.getD 2 0, found⟩, r, ?_, hfound.imp ?_ ?_⟩
  · rw [readClock, readGroups_eq_some_iff.2 hgroups]
    rfl
  · rintro rfl
    rfl
  · rintro ⟨rfl, hmark⟩
    exact ⟨rfl, hmark⟩

end Calendar.Iso

end ActionQuery

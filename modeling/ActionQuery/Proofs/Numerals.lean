import ActionQuery.Proofs.ActionId
import ActionQuery.Proofs.Runs

/-!
# Integers in a text

The text of an integer reads back as that integer, so no two integers have one text. Where an
integer is followed by anything but a digit, it is also found again as the integer in front of what
follows it.
-/

namespace ActionQuery.Text

theorem ofNat_eq_cons (n : Nat) : ∃ c rest, ofNat n = c :: rest ∧ c.isDigit = true := by
  cases h : ofNat n with
  | nil => exact absurd h Nat.toDigits_ne_nil
  | cons c rest => exact ⟨c, rest, rfl, isDigit_of_mem_ofNat (n := n) (by simp [h])⟩

theorem ofInt_ne_nil (n : Int) : ofInt n ≠ [] := by
  cases n with
  | ofNat n => exact Nat.toDigits_ne_nil
  | negSucc n => exact List.cons_ne_nil _ _

theorem le_toNat_of_isDigit {c : Char} (h : c.isDigit = true) : 48 ≤ c.toNat := by
  simp only [Char.isDigit, Bool.and_eq_true, decide_eq_true_eq, ge_iff_le, UInt32.le_iff_toNat_le]
    at h
  exact h.1

theorem isBlank_of_isDigit {c : Char} (h : c.isDigit = true) : isBlank c = false := by
  have hlower := le_toNat_of_isDigit h
  have hupper := digit_lt h
  have hzero : '0'.toNat = 48 := rfl
  rw [Bool.eq_false_iff]
  intro hblank
  simp only [isBlank, Bool.or_eq_true, Bool.and_eq_true, decide_eq_true_eq, beq_iff_eq] at hblank
  omega

theorem all_isDigit_ofNat (n : Nat) : (ofNat n).all Char.isDigit = true :=
  List.all_eq_true.2 fun _ hc => isDigit_of_mem_ofNat hc

theorem digitsValue_ofNat (n : Nat) : digitsValue (ofNat n) = n :=
  Nat.ofDigitChars_toDigits (by decide) (by decide)

theorem isDigit_of_mem_padded {width n : Nat} {c : Char} (h : c ∈ padded width n) :
    c.isDigit = true := by
  rcases List.mem_append.1 h with hzero | hdigit
  · rw [List.eq_of_mem_replicate hzero]
    rfl
  · exact isDigit_of_mem_ofNat hdigit

theorem padded_ne_nil (width n : Nat) : padded width n ≠ [] :=
  List.append_ne_nil_of_right_ne_nil _ Nat.toDigits_ne_nil

theorem head?_padded_append_ne (width n : Nat) (rest : Text) {c : Char} (hc : c.isDigit = false) :
    (padded width n ++ rest).head? ≠ some c := by
  obtain ⟨d, more, hpadded⟩ := List.exists_cons_of_ne_nil (padded_ne_nil width n)
  have hd : d.isDigit = true := isDigit_of_mem_padded (hpadded ▸ List.mem_cons_self)
  rw [hpadded]
  rintro ⟨⟩
  rw [hc] at hd
  cases hd

theorem isDigit_last_padded_append (width n : Nat) {rest : Text}
    (hrest : ∀ c ∈ rest.getLast?, c.isDigit = true) :
    ∀ c ∈ (padded width n ++ rest).getLast?, c.isDigit = true := by
  intro c hc
  cases rest with
  | nil =>
      rw [List.append_nil] at hc
      exact isDigit_of_mem_padded (List.mem_of_getLast? hc)
  | cons d rest =>
      rw [List.getLast?_append_of_ne_nil _ (List.cons_ne_nil _ _)] at hc
      exact hrest c hc

theorem colon_notMem_padded (width n : Nat) : ':' ∉ padded width n := by
  intro hmem
  cases isDigit_of_mem_padded hmem

theorem ColonsApart.padded_append (width n : Nat) {rest : Text} (h : ColonsApart rest) :
    ColonsApart (padded width n ++ rest) := by
  refine (colonsApart_of_notMem (colon_notMem_padded width n)).append h (Or.inl fun hlast => ?_)
  exact colon_notMem_padded width n (List.mem_of_getLast? hlast)

theorem ColonsApart.colon_padded_append (width n : Nat) {rest : Text} (h : ColonsApart rest) :
    ColonsApart (':' :: (padded width n ++ rest)) := by
  refine List.isChain_cons.2 ⟨?_, h.padded_append width n⟩
  rintro c hc _ rfl
  exact head?_padded_append_ne width n rest rfl hc

theorem digitsValue_padded (width n : Nat) : digitsValue (padded width n) = n := by
  rw [digitsValue, padded, Nat.ofDigitChars_append, Nat.ofDigitChars_replicate_zero, Nat.mul_zero]
  exact digitsValue_ofNat n

variable {width n : Nat}

theorem padded_of_le (h : width ≤ (ofNat n).length) : padded width n = ofNat n := by
  rw [padded, Nat.sub_eq_zero_of_le h]
  rfl

theorem length_padded (hwidth : 0 < width) (h : n < tenTo width) :
    (padded width n).length = width := by
  have hlength : (ofNat n).length ≤ width :=
    (Nat.length_toDigits_le_iff (by decide) hwidth).2 h
  rw [padded, List.length_append, List.length_replicate]
  omega

theorem eq_of_digit_eq {c d : Char} (hc : c.isDigit = true) (hd : d.isDigit = true)
    (h : c.toNat - '0'.toNat = d.toNat - '0'.toNat) : c = d := by
  have hfirst := le_toNat_of_isDigit hc
  have hsecond := le_toNat_of_isDigit hd
  have hzero : '0'.toNat = 48 := rfl
  apply Char.toNat_inj.1
  omega

/-- Equally many digits make one number only if they are the same, whatever number they are put
behind. -/
theorem ofDigitChars_inj {first second : Text} {m n : Nat}
    (hfirst : ∀ c ∈ first, c.isDigit = true) (hsecond : ∀ c ∈ second, c.isDigit = true)
    (hlength : first.length = second.length)
    (h : Nat.ofDigitChars 10 first m = Nat.ofDigitChars 10 second n) : m = n ∧ first = second := by
  induction first generalizing second m n with
  | nil =>
      obtain rfl := List.length_eq_zero_iff.1 hlength.symm
      exact ⟨h, rfl⟩
  | cons c first ih =>
      obtain ⟨d, second, rfl⟩ := List.exists_cons_of_length_eq_add_one hlength.symm
      obtain ⟨hc, hfirst⟩ := List.forall_mem_cons.1 hfirst
      obtain ⟨hd, hsecond⟩ := List.forall_mem_cons.1 hsecond
      rw [Nat.ofDigitChars_cons, Nat.ofDigitChars_cons] at h
      obtain ⟨hvalue, hrest⟩ := ih hfirst hsecond (Nat.succ.inj hlength) h
      have hc_lt := digit_lt hc
      have hd_lt := digit_lt hd
      have hdigit : c.toNat - '0'.toNat = d.toNat - '0'.toNat := by omega
      exact ⟨by omega, by rw [eq_of_digit_eq hc hd hdigit, hrest]⟩

/-- Digits are those of their value, filled up to their number. -/
theorem padded_digitsValue {digits : Text} (hdigits : ∀ c ∈ digits, c.isDigit = true)
    (hne : digits ≠ []) : padded digits.length (digitsValue digits) = digits := by
  have hlt : digitsValue digits < tenTo digits.length :=
    digitsValue_lt (List.all_eq_true.2 hdigits)
  have hlength := length_padded (List.length_pos_iff.2 hne) hlt
  have hvalue := digitsValue_padded digits.length (digitsValue digits)
  exact (ofDigitChars_inj (fun _ hc => isDigit_of_mem_padded hc) hdigits hlength hvalue).2

/-- No zero stands in front that could be left out. -/
def IsShortest (digits : Text) : Prop := digits.head? = some '0' → digits = ['0']

instance (digits : Text) : Decidable (IsShortest digits) :=
  inferInstanceAs (Decidable (digits.head? = some '0' → digits = ['0']))

/-- Behind a zero there would be enough digits for the number already. -/
theorem isShortest_ofNat (n : Nat) : IsShortest (ofNat n) := by
  intro hzero
  obtain ⟨c, rest, hcons, _⟩ := ofNat_eq_cons n
  obtain rfl : c = '0' := by simpa [hcons] using hzero
  by_cases hrest : rest = []
  · rw [hcons, hrest]
  · have hdigits : rest.all Char.isDigit = true := by
      have hall := all_isDigit_ofNat n
      rw [hcons, List.all_cons, Bool.and_eq_true] at hall
      exact hall.2
    have hvalue : digitsValue rest = n := by
      calc digitsValue rest
          = digitsValue ('0' :: rest) := rfl
        _ = digitsValue (ofNat n) := by rw [hcons]
        _ = n := digitsValue_ofNat n
    have hlt : n < tenTo rest.length := by
      rw [← hvalue]
      exact digitsValue_lt hdigits
    have hlength : (ofNat n).length ≤ rest.length :=
      (Nat.length_toDigits_le_iff (by decide) (List.length_pos_iff.2 hrest)).2 hlt
    rw [hcons, List.length_cons] at hlength
    omega

/-- Digits are the text of their number exactly if no zero can be left out in front. -/
theorem ofNat_digitsValue_eq_iff {digits : Text} (hdigits : ∀ c ∈ digits, c.isDigit = true)
    (hne : digits ≠ []) : ofNat (digitsValue digits) = digits ↔ IsShortest digits := by
  constructor
  · intro h
    rw [← h]
    exact isShortest_ofNat _
  · intro h
    by_cases hzero : digits.head? = some '0'
    · rw [h hzero]
      rfl
    · have hpadded := padded_digitsValue hdigits hne
      have hfull : digits.length ≤ (ofNat (digitsValue digits)).length := by
        apply Nat.le_of_not_lt
        intro hshort
        apply hzero
        obtain ⟨zeros, hzeros⟩ := Nat.exists_eq_add_of_lt hshort
        calc digits.head?
            = (padded digits.length (digitsValue digits)).head? := by rw [hpadded]
          _ = (List.replicate (zeros + 1) '0' ++ ofNat (digitsValue digits)).head? := by
              rw [padded]
              congr 3
              omega
          _ = some '0' := rfl
      rwa [padded_of_le hfull] at hpadded

theorem readDigits_eq_some_iff {count value : Nat} {t rest : Text} :
    readDigits count t = some (value, rest) ↔ ∃ digits, t = digits ++ rest ∧
      digits.length = count ∧ (∀ c ∈ digits, c.isDigit = true) ∧ digitsValue digits = value := by
  simp only [readDigits, Bool.and_eq_true, decide_eq_true_eq, List.all_eq_true]
  constructor
  · intro h
    split at h
    · rename_i hdigits
      cases h
      exact ⟨t.take count, (List.take_append_drop count t).symm, hdigits.1, hdigits.2, rfl⟩
    · cases h
  · rintro ⟨digits, rfl, rfl, hdigits, rfl⟩
    rw [List.take_left, List.drop_left]
    exact if_pos ⟨rfl, hdigits⟩

/-- A number that is filled up to a width is read back from as many digits. -/
theorem readDigits_padded_append (hwidth : 0 < width) (h : n < tenTo width) (rest : Text) :
    readDigits width (padded width n ++ rest) = some (n, rest) :=
  readDigits_eq_some_iff.2 ⟨padded width n, rfl, length_padded hwidth h,
    fun _ hc => isDigit_of_mem_padded hc, digitsValue_padded width n⟩

theorem readDigits_padded (hwidth : 0 < width) (h : n < tenTo width) :
    readDigits width (padded width n) = some (n, []) := by
  simpa using readDigits_padded_append hwidth h []

/-- As many digits as the width says. -/
def IsNumeral (width : Nat) (t : Text) : Prop := t.length = width ∧ ∀ c ∈ t, c.isDigit = true

instance (width : Nat) (t : Text) : Decidable (IsNumeral width t) :=
  decidable_of_iff (t.length = width ∧ t.all Char.isDigit = true) (by simp [IsNumeral])

theorem IsNumeral.padded_eq {width : Nat} {t : Text} (h : IsNumeral width t) (hwidth : 0 < width) :
    padded width (digitsValue t) = t := by
  obtain ⟨rfl, hdigits⟩ := h
  exact padded_digitsValue hdigits (List.length_pos_iff.1 hwidth)

theorem IsNumeral.digitsValue_lt {width : Nat} {t : Text} (h : IsNumeral width t) :
    digitsValue t < tenTo width := by
  obtain ⟨rfl, hdigits⟩ := h
  exact Text.digitsValue_lt (List.all_eq_true.2 hdigits)

theorem readSign_of_isDigit {c : Char} (h : c.isDigit = true) (rest : Text) :
    readSign (c :: rest) = (false, c :: rest) := by
  have hminus : c ≠ '-' := by
    rintro rfl
    cases h
  have hplus : c ≠ '+' := by
    rintro rfl
    cases h
  simp [readSign, hminus, hplus]

theorem readSigned?_ofInt (n : Int) : readSigned? (ofInt n) = some n := by
  cases n with
  | ofNat n =>
      obtain ⟨c, rest, hcons, hc⟩ := ofNat_eq_cons n
      have hdigits := all_isDigit_ofNat n
      have hvalue := digitsValue_ofNat n
      rw [hcons] at hdigits hvalue
      simp [ofInt, hcons, readSigned?, readSign_of_isDigit hc, hdigits, hvalue]
  | negSucc n =>
      have hne : ofNat (n + 1) ≠ [] := Nat.toDigits_ne_nil
      simp [ofInt, readSigned?, readSign, hne, all_isDigit_ofNat, digitsValue_ofNat,
        Int.negSucc_eq]

theorem ofInt_injective : Function.Injective ofInt := by
  intro m n h
  have hread := congrArg readSigned? h
  rw [readSigned?_ofInt, readSigned?_ofInt] at hread
  exact Option.some.inj hread

/-- No digit comes first. -/
def EndsNumber (t : Text) : Prop := ∀ c ∈ t.head?, c.isDigit = false

theorem endsNumber_nil : EndsNumber [] := by
  intro c hc
  cases hc

theorem endsNumber_cons {c : Char} (h : c.isDigit = false) (rest : Text) :
    EndsNumber (c :: rest) := by
  intro d hd
  cases hd
  exact h

/-- The integer that a text starts with, a minus sign and digits or digits alone, as long as it can
be; nothing if it starts with none. -/
def leadingInteger : Text → Text
  | '-' :: rest =>
    if rest.takeWhile Char.isDigit = [] then [] else '-' :: rest.takeWhile Char.isDigit
  | t => t.takeWhile Char.isDigit

theorem leadingInteger_prefix (t : Text) : leadingInteger t <+: t := by
  unfold leadingInteger
  split
  · split
    · exact List.nil_prefix
    · exact List.cons_prefix_cons.2 ⟨rfl, List.takeWhile_prefix _⟩
  · exact List.takeWhile_prefix _

theorem leadingInteger_append_blank (t rest : Text) :
    leadingInteger (t ++ ' ' :: rest) = leadingInteger t := by
  have htake (t : Text) : (t ++ ' ' :: rest).takeWhile Char.isDigit = t.takeWhile Char.isDigit := by
    induction t with
    | nil => rfl
    | cons c tail ih => rw [List.cons_append, List.takeWhile_cons, List.takeWhile_cons, ih]
  match t with
  | [] => rfl
  | c :: tail =>
      by_cases hc : c = '-'
      · subst hc
        rw [List.cons_append, leadingInteger, leadingInteger, htake]
      · have hplain (tail : Text) : leadingInteger (c :: tail) = (c :: tail).takeWhile Char.isDigit := by
          rw [leadingInteger]
          rintro _ hminus
          exact hc (List.cons.inj hminus).1
        rw [List.cons_append, hplain, hplain, ← List.cons_append, htake]

theorem leadingInteger_ofInt_append (n : Int) {rest : Text} (hrest : EndsNumber rest) :
    leadingInteger (ofInt n ++ rest) = ofInt n := by
  have htake (n : Nat) : (ofNat n ++ rest).takeWhile Char.isDigit = ofNat n :=
    takeWhile_append_of_head (fun _ hc => isDigit_of_mem_ofNat hc) hrest
  cases n with
  | ofNat n =>
      obtain ⟨c, tail, hcons, hc⟩ := ofNat_eq_cons n
      change leadingInteger (ofNat n ++ rest) = ofNat n
      unfold leadingInteger
      split
      · rename_i after heq
        rw [hcons, List.cons_append, List.cons.injEq] at heq
        rw [heq.1] at hc
        cases hc
      · exact htake n
  | negSucc n =>
      have hne : ofNat (n + 1) ≠ [] := Nat.toDigits_ne_nil
      change leadingInteger ('-' :: (ofNat (n + 1) ++ rest)) = '-' :: ofNat (n + 1)
      rw [leadingInteger, htake, if_neg hne]

end ActionQuery.Text

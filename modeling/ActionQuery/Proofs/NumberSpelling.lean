import ActionQuery.Proofs.Addressing

/-!
# The spelling of a number

A number text is a number with a plus sign or zeros in front, or it is the number in decimal. Alone
it stands for an id with the text in it as it is written, and as both ends of a range for the id of
the number. Every action has its id in decimal, so a number text alone finds the action of its number
only if it is written the way that ids are, and any other finds nothing in any store.
-/

namespace ActionQuery

namespace Scope

variable {t : Text} {n : Nat}

/-- A number is written as it is in ids: without a plus sign and without a zero that could be left
out. -/
def IsPlain (t : Text) : Prop := '+' ∉ t ∧ Text.IsShortest t

instance (t : Text) : Decidable (IsPlain t) :=
  inferInstanceAs (Decidable (_ ∧ _))

theorem isPlain_ofNat (n : Nat) : IsPlain (Text.ofNat n) := by
  refine ⟨fun hplus => ?_, Text.isShortest_ofNat n⟩
  cases Text.isDigit_of_mem_ofNat hplus

theorem IsNumber.ofNat_eq_iff (h : IsNumber t n) : Text.ofNat n = t ↔ IsPlain t := by
  constructor
  · rintro rfl
    exact isPlain_ofNat n
  · rintro ⟨hplus, hshortest⟩
    obtain ⟨digits, hspells, _, hvalue, _⟩ := h
    rcases hspells.sign with rfl | rfl
    · rw [← hvalue]
      exact (Text.ofNat_digitsValue_eq_iff hspells.isDigit hspells.ne_nil).2 hshortest
    · exact absurd List.mem_cons_self hplus

theorem IsNumber.actionId_eq_iff (h : IsNumber t n) (job : Text) :
    actionId job (Text.ofNat n) = actionId job t ↔ IsPlain t :=
  (actionId_injective job).eq_iff.trans h.ofNat_eq_iff

end Scope

open Scope

/-- The number in an id has no sign but a minus sign, and no zero to be left out. -/
theorem Record.isPlain_of_id_eq {r : Record} {job t : Text} {n : Nat} (ht : IsNumber t n)
    (h : r.id = actionId job t) : IsPlain t := by
  have hat : '@' ∉ t := ht.notMem (by decide)
  obtain ⟨_, hnumber⟩ := actionId_inj (Text.at_notMem_ofInt r.number) hat h
  cases hcase : r.number with
  | ofNat m =>
      rw [hcase] at hnumber
      rw [← hnumber]
      exact isPlain_ofNat m
  | negSucc m =>
      have hminus : '-' ∈ t := by
        rw [← hnumber, hcase]
        exact List.mem_cons_self
      exact absurd hminus (ht.notMem (by decide))

namespace Store

variable {job t : Text} {n : Nat}

theorem get?_actionId_of_not_isPlain (s : Store) (ht : IsNumber t n) (hplain : ¬ IsPlain t) :
    s.get? (actionId job t) = none := by
  apply get?_eq_none_iff.2
  intro hid
  obtain ⟨r, _, hr⟩ := List.mem_map.1 hid
  exact hplain (Record.isPlain_of_id_eq ht hr)

/-- A number text as both ends of a range stands for the id of its number, and alone for the id with
the text itself, which is the same exactly if it is written as in ids. Over any store the range finds
the action with the number if there is one, and the text alone finds it exactly if it is written as
in ids, and nothing at all if it is not. -/
theorem resolve_number_as_written (hjob : Text.blank job = false) (ht : IsNumber t n) :
    actionIds (some job) (some (t ++ '-' :: t)) = .ok [actionId job (Text.ofNat n)] ∧
    actionIds (some job) (some t) = .ok [actionId job t] ∧
    (actionIds (some job) (some (t ++ '-' :: t)) = actionIds (some job) (some t) ↔ IsPlain t) ∧
    ∀ (s : Store) (reader : TimeReader) (arrange : List Text → List Text) (active : Bool),
      (∀ ids, (arrange ids).Perm ids) →
      (∀ r, s.get? (actionId job (Text.ofNat n)) = some r →
        ((s.resolver reader arrange).resolve Route.ids.name active (some job)
          (some (t ++ '-' :: t))).result = .ok [some r] ∧
        (((s.resolver reader arrange).resolve Route.ids.name active (some job)
          (some t)).result = .ok [some r] ↔ IsPlain t)) ∧
      (¬ IsPlain t → ((s.resolver reader arrange).resolve Route.ids.name active (some job)
        (some t)).result = .ok []) := by
  have hrange := actionIds_of_isNumber_range hjob ht
  have hsingle := actionIds_of_isNumber hjob ht
  refine ⟨hrange, hsingle, ?_, fun s reader arrange active harrange => ?_⟩
  · rw [hrange, hsingle, Except.ok.injEq, List.cons.injEq, and_iff_left rfl]
    exact ht.actionId_eq_iff job
  · rw [result_of_single_id harrange hrange, result_of_single_id harrange hsingle]
    refine ⟨fun r hr => ?_, fun hplain => ?_⟩
    · rw [hr]
      refine ⟨rfl, ?_⟩
      by_cases hplain : IsPlain t
      · rw [← (ht.actionId_eq_iff job).2 hplain, hr]
        exact iff_of_true rfl hplain
      · rw [s.get?_actionId_of_not_isPlain ht hplain]
        simp [hplain]
    · rw [s.get?_actionId_of_not_isPlain ht hplain]
      rfl

/-- The seventh action of a job is there for a range from seven to seven, however seven is written,
and not for a seven with a sign and zeros. -/
theorem resolve_number_as_written_of_plus_seven :
    actionIds (some "j") (some "+007-+007") = .ok ["j@7"] ∧
    actionIds (some "j") (some "+007") = .ok ["j@+007"] ∧
    ((twoJobs.resolver Session.initial.reader List.reverse).resolve Route.ids.name false (some "j")
      (some "+007-+007")).result = .ok [some (plainAction "j" 7 noon .waiting)] ∧
    ((twoJobs.resolver Session.initial.reader List.reverse).resolve Route.ids.name false (some "j")
      (some "+007")).result = .ok [] := by
  have hjob : Text.blank "j" = false := by decide
  have hseven : IsNumber "+007" 7 :=
    ⟨"007", ⟨Or.inr rfl, by decide, List.all_eq_true.1 rfl⟩, by simp [Text.maxNumeralDigits], rfl,
      by simp [maxActionNumber]⟩
  have hplain : ¬ IsPlain "+007" := by decide
  obtain ⟨hrange, hsingle, _, hstore⟩ := resolve_number_as_written hjob hseven
  obtain ⟨hfound, hnone⟩ :=
    hstore twoJobs Session.initial.reader List.reverse false List.reverse_perm
  exact ⟨hrange, hsingle, (hfound (plainAction "j" 7 noon .waiting) (by decide)).1, hnone hplain⟩

end Store

end ActionQuery

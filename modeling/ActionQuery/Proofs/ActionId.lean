import ActionQuery.Scope.Ids
import Mathlib.Data.List.Nodup

/-!
# Ids of actions

An id is a job, an `@` and a number text, and the job may hold further `@`s. No number text holds
one, so the last `@` of an id is the one that ends its job: an id determines its job and its number
text, whatever the job is called.
-/

namespace ActionQuery

namespace Text

theorem eq_or_mem_dropPlus {t : Text} {c : Char} (h : c ∈ t) : c = '+' ∨ c ∈ dropPlus t := by
  unfold dropPlus
  split
  · exact List.mem_cons.1 h
  · exact Or.inr h

theorem afterLast_append {mark : Char} {rest : Text} (hrest : mark ∉ rest) (t : Text) :
    afterLast mark (t ++ mark :: rest) = rest := by
  have hreverse : ∀ c ∈ rest.reverse, decide (c ≠ mark) = true := by
    intro c hc
    have hne : c ≠ mark := fun heq => hrest (heq ▸ List.mem_reverse.1 hc)
    simpa using hne
  rw [afterLast, List.reverse_append, List.reverse_cons, List.append_assoc,
    List.takeWhile_append_of_pos hreverse]
  simp

theorem isDigit_of_mem_ofNat {c : Char} {n : Nat} (h : c ∈ ofNat n) : c.isDigit = true :=
  Nat.isDigit_of_mem_toDigits (by decide) (by decide) h

theorem isDigit_or_eq_of_mem_ofInt {c : Char} {n : Int} (h : c ∈ ofInt n) :
    c.isDigit = true ∨ c = '-' := by
  cases n with
  | ofNat n => exact Or.inl (isDigit_of_mem_ofNat h)
  | negSucc n =>
      rcases List.mem_cons.1 h with hminus | hdigit
      · exact Or.inr hminus
      · exact Or.inl (isDigit_of_mem_ofNat hdigit)

theorem at_notMem_ofInt (n : Int) : '@' ∉ ofInt n := by
  intro h
  have hcases := isDigit_or_eq_of_mem_ofInt h
  revert hcases
  decide

end Text

theorem afterLast_actionId {number : Text} (hnumber : '@' ∉ number) (job : Text) :
    Text.afterLast '@' (actionId job number) = number :=
  Text.afterLast_append hnumber job

theorem actionId_injective (job : Text) : Function.Injective (actionId job) := by
  intro first second h
  simpa [actionId] using h

/-- The last `@` of an id ends its job. -/
theorem actionId_inj {job otherJob number otherNumber : Text} (hnumber : '@' ∉ number)
    (hother : '@' ∉ otherNumber) (h : actionId job number = actionId otherJob otherNumber) :
    job = otherJob ∧ number = otherNumber := by
  have heq : number = otherNumber := by
    rw [← afterLast_actionId hnumber job, h, afterLast_actionId hother]
  refine ⟨?_, heq⟩
  rw [heq] at h
  exact List.append_cancel_right h

namespace Record

theorem job_eq_of_id_eq {r : Record} {job number : Text} (hnumber : '@' ∉ number)
    (h : r.id = actionId job number) : r.job = job :=
  (actionId_inj (Text.at_notMem_ofInt r.number) hnumber h).1

/-- Within a job, actions with different ids have different numbers. -/
theorem nodup_numbers {rows : List Record} {job : Text} (hjob : ∀ r ∈ rows, r.job = job)
    (hids : (rows.map Record.id).Nodup) : (rows.map Record.number).Nodup := by
  refine List.Nodup.map_on ?_ (List.Nodup.of_map _ hids)
  intro r hr other hother heq
  refine List.inj_on_of_nodup_map hids hr hother ?_
  rw [id, id, hjob r hr, hjob other hother, heq]

end Record

namespace Scope

theorem checkJob_eq_ok_iff {job : Option Text} {name : Text} :
    checkJob job = .ok name ↔ job = some name ∧ Text.blank name = false := by
  cases job with
  | none => simp [checkJob]
  | some given =>
      cases hblank : Text.blank given with
      | true =>
          simp only [checkJob, hblank, if_true, reduceCtorEq, Option.some.injEq, false_iff, not_and]
          rintro rfl
          simp [hblank]
      | false =>
          simp only [checkJob, hblank, Bool.false_eq_true, if_false, Except.ok.injEq,
            Option.some.injEq, iff_self_and]
          rintro rfl
          exact hblank

/-- A number text is ASCII digits behind a plus sign or none, not too many and not too great. -/
theorem readActionNumber_eq_ok_iff {t : Text} {otherwise : FormatError} {n : Nat} :
    readActionNumber t otherwise = .ok n ↔
      Text.dropPlus t ≠ [] ∧ (∀ c ∈ Text.dropPlus t, c.isDigit = true) ∧
        (Text.dropPlus t).length ≤ Text.maxNumeralDigits ∧ Text.digitsValue (Text.dropPlus t) = n ∧
        n ≤ maxActionNumber := by
  unfold readActionNumber
  by_cases hshape : Text.dropPlus t ≠ [] ∧ ∀ c ∈ Text.dropPlus t, c.isDigit = true
  · rw [if_neg (by simpa using hshape), Text.readNumeral]
    by_cases hlength : (Text.dropPlus t).length ≤ Text.maxNumeralDigits
    · simp only [hlength, if_true]
      split <;> grind
    · simp [hlength]
  · rw [if_pos (by simpa [or_iff_not_imp_left] using hshape)]
    grind

namespace IdToken

/-- An element of a scope of actions is a number as it is written, or two numbers in order with a
dash between them. -/
theorem ofText_eq_ok {token : Text} {t : IdToken} (h : ofText token = .ok t) :
    (∃ number, readActionNumber token (.idShape token) = .ok number ∧
        t = .single number token) ∨
      ∃ first second start stop, token.splitOn '-' = [first, second] ∧
        readActionNumber (Text.trim first) (.notANumber (Text.trim first)) = .ok start ∧
        readActionNumber (Text.trim second) (.notANumber (Text.trim second)) = .ok stop ∧
        start ≤ stop ∧ t = .range ⟨start, stop⟩ := by
  unfold ofText at h
  split at h
  · cases h
  · split at h
    · cases hnumber : readActionNumber token (.idShape token) with
      | error e => simp [hnumber, bind, Except.bind] at h
      | ok number =>
          simp only [hnumber, bind, Except.bind, pure, Except.pure, Except.ok.injEq] at h
          exact Or.inl ⟨number, rfl, h.symm⟩
    · rename_i first second hsplit
      cases hstart : readActionNumber (Text.trim first) (.notANumber (Text.trim first)) with
      | error e => simp [hstart, bind, Except.bind] at h
      | ok start =>
          cases hstop : readActionNumber (Text.trim second) (.notANumber (Text.trim second)) with
          | error e => simp [hstart, hstop, bind, Except.bind] at h
          | ok stop =>
              simp only [hstart, hstop, bind, Except.bind, pure, Except.pure] at h
              split at h
              · cases h
              · rename_i horder
                refine Or.inr ⟨first, second, start, stop, hsplit, hstart, hstop, by omega, ?_⟩
                exact (Except.ok.inj h).symm
    · cases h

/-- No number text of an element holds an `@`. -/
theorem at_notMem_numberTexts {token : Text} {t : IdToken} (h : ofText token = .ok t)
    {number : Text} (hnumber : number ∈ t.numberTexts) : '@' ∉ number := by
  rcases ofText_eq_ok h with ⟨n, hread, rfl⟩ | ⟨_, _, start, stop, _, _, _, _, rfl⟩
  · rw [numberTexts, List.mem_singleton] at hnumber
    subst hnumber
    intro hat
    have hdigits := (readActionNumber_eq_ok_iff.1 hread).2.1
    have hdigit := (Text.eq_or_mem_dropPlus hat).imp_right (hdigits _)
    revert hdigit
    decide
  · obtain ⟨n, _, rfl⟩ := List.mem_map.1 hnumber
    exact Text.at_notMem_ofInt n

end IdToken

end Scope

end ActionQuery

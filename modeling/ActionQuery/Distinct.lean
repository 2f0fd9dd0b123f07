import Std.Data.HashSet

namespace ActionQuery

variable {α : Type} [DecidableEq α] [Hashable α]

/-- The elements that are not in `seen`, each of them where it first stands. -/
def distinctFrom (seen : Std.HashSet α) : List α → List α
  | [] => []
  | a :: rest =>
    if seen.contains a then distinctFrom seen rest else a :: distinctFrom (seen.insert a) rest

/-- The elements of a list, each of them where it first stands. -/
def distinct (l : List α) : List α := distinctFrom ∅ l

theorem mem_distinctFrom {seen : Std.HashSet α} {l : List α} {a : α} :
    a ∈ distinctFrom seen l ↔ a ∈ l ∧ seen.contains a = false := by
  induction l generalizing seen with
  | nil => simp [distinctFrom]
  | cons b rest ih =>
      rw [distinctFrom]
      split
      · rename_i hb
        rw [ih, List.mem_cons]
        constructor
        · exact fun h => ⟨.inr h.1, h.2⟩
        · rintro ⟨rfl | h, ha⟩
          · rw [hb] at ha
            cases ha
          · exact ⟨h, ha⟩
      · rename_i hb
        rw [List.mem_cons, List.mem_cons, ih, Std.HashSet.contains_insert, Bool.or_eq_false_iff]
        by_cases hab : a = b
        · subst hab
          simpa using hb
        · simp [hab, Ne.symm hab]

theorem mem_distinct {l : List α} {a : α} : a ∈ distinct l ↔ a ∈ l := by
  simp [distinct, mem_distinctFrom]

theorem nodup_distinctFrom (seen : Std.HashSet α) (l : List α) : (distinctFrom seen l).Nodup := by
  induction l generalizing seen with
  | nil => exact List.nodup_nil
  | cons b rest ih =>
      rw [distinctFrom]
      split
      · exact ih seen
      · refine List.nodup_cons.2 ⟨fun h => ?_, ih _⟩
        simpa using (mem_distinctFrom.1 h).2

theorem nodup_distinct (l : List α) : (distinct l).Nodup := nodup_distinctFrom ∅ l

end ActionQuery

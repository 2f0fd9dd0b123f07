import ActionQuery.Keyed
import Mathlib.Data.List.Induction
import Mathlib.Data.List.Nodup

/-!
# Rows by their keys

Adding rows one after another, each of them only if its key is new, comes to the same as putting all
of them in a row and dropping every later repeat of a key. Where keys do not repeat, a key finds
exactly the row that has it.
-/

namespace ActionQuery.Keyed

variable {α κ : Type} [DecidableEq κ] {key : α → κ}

/-- The rows without those that repeat the key of an earlier one. -/
def firsts (key : α → κ) (rows : List α) : List α :=
  rows.eraseDupsBy fun later earlier => key later = key earlier

@[simp]
theorem firsts_nil : firsts key [] = [] := rfl

theorem firsts_cons (key : α → κ) (row : α) (rest : List α) :
    firsts key (row :: rest) =
      row :: firsts key (rest.filter fun later => key later ≠ key row) := by
  simp [firsts, List.eraseDupsBy_cons]

/-- Rows with different keys have no repeats. -/
theorem firsts_of_nodup {rows : List α} (h : (rows.map key).Nodup) : firsts key rows = rows := by
  induction rows with
  | nil => rfl
  | cons row rest ih =>
      obtain ⟨hrow, hrest⟩ := List.nodup_cons.1 h
      have hothers : rest.filter (fun later => key later ≠ key row) = rest := by
        refine List.filter_eq_self.2 fun later hlater => decide_eq_true fun heq => hrow ?_
        exact heq ▸ List.mem_map_of_mem hlater
      rw [firsts_cons, hothers, ih hrest]

theorem putNew_of_mem {row : α} {rows : List α} (h : key row ∈ rows.map key) :
    putNew key row rows = rows := by
  obtain ⟨other, hother, heq⟩ := List.mem_map.1 h
  rw [putNew, if_pos]
  simpa using ⟨other, hother, heq⟩

theorem putNew_of_notMem {row : α} {rows : List α} (h : key row ∉ rows.map key) :
    putNew key row rows = rows ++ [row] := by
  rw [putNew, if_neg]
  simpa using h

/-- What is added to `known` is what its keys leave of the new rows, repeats dropped. -/
theorem addNew_eq_append (key : α → κ) (known new : List α) :
    addNew key known new =
      known ++ firsts key (new.filter fun row => key row ∉ known.map key) := by
  induction new generalizing known with
  | nil => simp [addNew]
  | cons row rest ih =>
      change addNew key (putNew key row known) rest = _
      by_cases h : key row ∈ known.map key
      · rw [putNew_of_mem h, ih, List.filter_cons_of_neg (by simpa using h)]
      · rw [putNew_of_notMem h, ih, List.filter_cons_of_pos (by simpa using h), firsts_cons,
          List.append_assoc, List.singleton_append, List.filter_filter]
        congr 4
        funext later
        simp [Bool.and_comm]

theorem addNew_nil (key : α → κ) (rows : List α) : addNew key [] rows = firsts key rows := by
  simp [addNew_eq_append]

theorem addNew_append (key : α → κ) (known first second : List α) :
    addNew key known (first ++ second) = addNew key (addNew key known first) second := by
  simp [addNew]

theorem mem_of_mem_addNew {row : α} {known new : List α} (h : row ∈ addNew key known new) :
    row ∈ known ∨ row ∈ new := by
  induction new generalizing known with
  | nil => exact Or.inl h
  | cons first rest ih =>
      change row ∈ addNew key (putNew key first known) rest at h
      rcases ih h with hput | hrest
      · by_cases hfirst : key first ∈ known.map key
        · rw [putNew_of_mem hfirst] at hput
          exact Or.inl hput
        · rw [putNew_of_notMem hfirst, List.mem_append, List.mem_singleton] at hput
          exact hput.imp_right fun heq => List.mem_cons.2 (Or.inl heq)
      · exact Or.inr (List.mem_cons_of_mem _ hrest)

theorem mem_of_mem_firsts {row : α} {rows : List α} (h : row ∈ firsts key rows) : row ∈ rows := by
  rw [← addNew_nil] at h
  exact (mem_of_mem_addNew h).resolve_left List.not_mem_nil

/-- No key gets lost, though a row does whose key is there already. -/
theorem mem_map_key_addNew {known new : List α} {k : κ} :
    k ∈ (addNew key known new).map key ↔ k ∈ known.map key ∨ k ∈ new.map key := by
  induction new generalizing known with
  | nil => simp [addNew]
  | cons row rest ih =>
      change k ∈ (addNew key (putNew key row known) rest).map key ↔ _
      rw [ih, List.map_cons, List.mem_cons]
      by_cases hrow : key row ∈ known.map key
      · rw [putNew_of_mem hrow]
        constructor
        · exact Or.imp_right Or.inr
        · rintro (hknown | rfl | hrest)
          · exact Or.inl hknown
          · exact Or.inl hrow
          · exact Or.inr hrest
      · rw [putNew_of_notMem hrow, List.map_append, List.map_singleton, List.mem_append,
          List.mem_singleton, or_assoc]

theorem put_of_notMem {row : α} {rows : List α} (h : key row ∉ rows.map key) :
    put key row rows = rows ++ [row] := by
  induction rows with
  | nil => rfl
  | cons first rest ih =>
      rw [List.map_cons, List.mem_cons, not_or] at h
      rw [put, if_neg (Ne.symm h.1), ih h.2, List.cons_append]

/-- A row with a known key takes the place of the one that has it. -/
theorem map_key_put_of_mem {row : α} {rows : List α} (h : key row ∈ rows.map key) :
    (put key row rows).map key = rows.map key := by
  induction rows with
  | nil => cases h
  | cons first rest ih =>
      by_cases hfirst : key first = key row
      · rw [put, if_pos hfirst, List.map_cons, List.map_cons, hfirst]
      · rw [List.map_cons, List.mem_cons] at h
        rw [put, if_neg hfirst, List.map_cons, List.map_cons, ih (h.resolve_left (Ne.symm hfirst))]

/-- Rows with keys of their own replace nothing, put one after another. -/
theorem foldl_put_of_nodup {known new : List α} (h : ((known ++ new).map key).Nodup) :
    new.foldl (fun rows row => put key row rows) known = known ++ new := by
  induction new generalizing known with
  | nil => simp
  | cons row rest ih =>
      have hrow : key row ∉ known.map key := by
        intro hmem
        rw [List.map_append, List.nodup_append] at h
        exact h.2.2 _ hmem _ List.mem_cons_self rfl
      have happend : known ++ row :: rest = known ++ [row] ++ rest := by simp
      rw [List.foldl_cons, put_of_notMem hrow, happend]
      exact ih (happend ▸ h)

theorem get?_eq_some_iff {rows : List α} (h : (rows.map key).Nodup) {k : κ} {row : α} :
    get? key k rows = some row ↔ row ∈ rows ∧ key row = k := by
  constructor
  · intro hfind
    exact ⟨List.mem_of_find?_eq_some hfind, by simpa using List.find?_some hfind⟩
  · rintro ⟨hmem, rfl⟩
    obtain ⟨found, hfound⟩ : ∃ found, get? key (key row) rows = some found :=
      Option.isSome_iff_exists.1 (List.find?_isSome.2 ⟨row, hmem, by simp⟩)
    have hkey : key found = key row := by simpa using List.find?_some hfound
    rw [hfound, List.inj_on_of_nodup_map h (List.mem_of_find?_eq_some hfound) hmem hkey]

/-- Where rows are put over known ones, a key finds them before it finds the known ones. -/
theorem get?_foldl_put {known new : List α} (h : (new.map key).Nodup) (k : κ) :
    get? key k (new.foldl (fun rows row => put key row rows) known) =
      (get? key k new).or (get? key k known) := by
  induction new generalizing known with
  | nil => rfl
  | cons row rest ih =>
      rw [List.map_cons, List.nodup_cons] at h
      rw [List.foldl_cons, ih h.2]
      by_cases hk : key row = k
      · subst hk
        have hrest : get? key (key row) rest = none :=
          List.find?_eq_none.2 fun later hlater heq =>
            h.1 (of_decide_eq_true heq ▸ List.mem_map_of_mem hlater)
        rw [hrest, get?_put_self]
        simp [get?]
      · rw [get?_put_of_ne key (Ne.symm hk)]
        simp [get?, hk]

theorem get?_eq_none_iff {rows : List α} {k : κ} :
    get? key k rows = none ↔ ∀ row ∈ rows, key row ≠ k := by
  simp [get?]

section FirstMention

variable {ι : Type} [BEq ι] [LawfulBEq ι]

theorem eraseDups_concat_of_mem {keys : List ι} {k : ι} (h : k ∈ keys) :
    (keys ++ [k]).eraseDups = keys.eraseDups := by
  have hremoved : [k].removeAll keys = [] := by
    simp [List.removeAll, h]
  rw [List.eraseDups_append, hremoved]
  simp

theorem eraseDups_concat_of_notMem {keys : List ι} {k : ι} (h : k ∉ keys) :
    (keys ++ [k]).eraseDups = keys.eraseDups ++ [k] := by
  have hkept : [k].removeAll keys = [k] := by
    simp [List.removeAll, h]
  rw [List.eraseDups_append, hkept]
  simp [List.eraseDups_cons]

theorem nodup_eraseDups (keys : List ι) : keys.eraseDups.Nodup := by
  induction keys using List.reverseRecOn with
  | nil => simp
  | append_singleton keys k ih =>
      by_cases h : k ∈ keys
      · rwa [eraseDups_concat_of_mem h]
      · rw [eraseDups_concat_of_notMem h]
        have hfresh : k ∉ keys.eraseDups := by rwa [List.mem_eraseDups]
        rw [List.nodup_append]
        refine ⟨ih, by simp, ?_⟩
        intro known hknown added hadded heq
        rw [List.mem_singleton.1 hadded] at heq
        exact hfresh (heq ▸ hknown)

/-- Keys that are left out are left out of the order of first mention, and nothing else changes. -/
theorem eraseDups_filter (p : ι → Bool) (keys : List ι) :
    (keys.filter p).eraseDups = keys.eraseDups.filter p := by
  induction keys using List.reverseRecOn with
  | nil => simp
  | append_singleton keys k ih =>
      by_cases hmem : k ∈ keys
      · rw [eraseDups_concat_of_mem hmem, ← ih, List.filter_append]
        cases hp : p k with
        | false => simp [hp]
        | true => simpa [hp] using eraseDups_concat_of_mem (List.mem_filter.2 ⟨hmem, hp⟩)
      · rw [eraseDups_concat_of_notMem hmem, List.filter_append, List.filter_append, ← ih]
        cases hp : p k with
        | false => simp [hp]
        | true =>
            simpa [hp] using eraseDups_concat_of_notMem fun h => hmem (List.mem_filter.1 h).1

end FirstMention

end ActionQuery.Keyed

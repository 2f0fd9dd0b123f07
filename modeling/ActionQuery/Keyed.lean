namespace ActionQuery.Keyed

variable {α κ : Type} [DecidableEq κ]

/-- Replaces the row with the key of `row` where it stands, or appends `row`. -/
def put (key : α → κ) (row : α) : List α → List α
  | [] => [row]
  | first :: rest => if key first = key row then row :: rest else first :: put key row rest

/-- Appends `row` unless a row with its key is there. -/
def putNew (key : α → κ) (row : α) (rows : List α) : List α :=
  if rows.any (key · = key row) then rows else rows ++ [row]

/-- Appends each of `new` whose key is not there yet. -/
def addNew (key : α → κ) (rows new : List α) : List α :=
  new.foldl (fun rows row => putNew key row rows) rows

def get? (key : α → κ) (k : κ) (rows : List α) : Option α := rows.find? (key · = k)

def erase (key : α → κ) (k : κ) (rows : List α) : List α := rows.filter (key · ≠ k)

theorem mem_keys_put (key : α → κ) (row : α) (rows : List α) (k : κ) :
    k ∈ (put key row rows).map key ↔ k = key row ∨ k ∈ rows.map key := by
  induction rows with
  | nil => simp [put]
  | cons first rest ih =>
      by_cases h : key first = key row
      · simp [put, h]
      · simp only [put, h, ↓reduceIte, List.map_cons, List.mem_cons, ih]
        exact or_left_comm

theorem nodup_keys_put (key : α → κ) (row : α) {rows : List α} (h : (rows.map key).Nodup) :
    ((put key row rows).map key).Nodup := by
  induction rows with
  | nil => simp [put]
  | cons first rest ih =>
      rw [List.map_cons, List.nodup_cons] at h
      by_cases heq : key first = key row
      · rw [put, if_pos heq, List.map_cons, List.nodup_cons, ← heq]
        exact h
      · rw [put, if_neg heq, List.map_cons, List.nodup_cons, mem_keys_put, not_or]
        exact ⟨⟨heq, h.1⟩, ih h.2⟩

theorem nodup_keys_putNew (key : α → κ) (row : α) {rows : List α} (h : (rows.map key).Nodup) :
    ((putNew key row rows).map key).Nodup := by
  unfold putNew
  split
  · exact h
  · rename_i hnew
    simp only [List.any_eq_true, decide_eq_true_eq, not_exists, not_and] at hnew
    rw [List.map_append, List.map_singleton, List.nodup_append]
    refine ⟨h, by simp, ?_⟩
    intro k hk k' hk'
    obtain ⟨first, hfirst, rfl⟩ := List.mem_map.1 hk
    rw [List.mem_singleton.1 hk']
    exact hnew first hfirst

theorem nodup_keys_addNew (key : α → κ) (new : List α) {rows : List α}
    (h : (rows.map key).Nodup) : ((addNew key rows new).map key).Nodup := by
  induction new generalizing rows with
  | nil => exact h
  | cons row rest ih => exact ih (nodup_keys_putNew key row h)

theorem get?_put_self (key : α → κ) (row : α) (rows : List α) :
    get? key (key row) (put key row rows) = some row := by
  induction rows with
  | nil => simp [put, get?]
  | cons first rest ih =>
      by_cases h : key first = key row
      · simp [put, h, get?]
      · simpa [put, h, get?] using ih

theorem get?_put_of_ne (key : α → κ) {row : α} {k : κ} (hk : k ≠ key row) (rows : List α) :
    get? key k (put key row rows) = get? key k rows := by
  induction rows with
  | nil => simp [put, get?, hk.symm]
  | cons first rest ih =>
      by_cases h : key first = key row
      · rw [put, if_pos h]
        simp [get?, h, hk.symm]
      · rw [put, if_neg h]
        by_cases hfirst : key first = k
        · simp [get?, hfirst]
        · simpa [get?, hfirst] using ih

end ActionQuery.Keyed

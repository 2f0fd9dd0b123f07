import ActionQuery.Scope.Ids
import ActionQuery.Scope.Resolution
import Mathlib.Data.List.Forall2

/-!
# Reading one element after another

A scope is read element by element, and reading it succeeds exactly when it succeeds for each of
them. What is read is then related element by element to the texts it was read from.
-/

namespace ActionQuery

theorem exists_left_of_mem {α β : Type} {R : α → β → Prop} {first : List α} {second : List β}
    (h : List.Forall₂ R first second) {b : β} (hb : b ∈ second) : ∃ a ∈ first, R a b := by
  induction h with
  | nil => cases hb
  | cons hrelated _ ih =>
      rcases List.mem_cons.1 hb with rfl | hrest
      · exact ⟨_, List.mem_cons_self, hrelated⟩
      · obtain ⟨a, ha, hR⟩ := ih hrest
        exact ⟨a, List.mem_cons_of_mem _ ha, hR⟩

theorem exists_forall₂ {α β : Type} {R : α → β → Prop} {first : List α}
    (h : ∀ a ∈ first, ∃ b, R a b) : ∃ second, List.Forall₂ R first second := by
  induction first with
  | nil => exact ⟨[], .nil⟩
  | cons a rest ih =>
      obtain ⟨b, hb⟩ := h a List.mem_cons_self
      obtain ⟨others, hothers⟩ := ih fun later hlater => h later (List.mem_cons_of_mem _ hlater)
      exact ⟨b :: others, .cons hb hothers⟩

theorem forall₂_imp_of_mem {α β : Type} {R S : α → β → Prop} {first : List α} {second : List β}
    (h : List.Forall₂ R first second) (himp : ∀ a ∈ first, ∀ b, R a b → S a b) :
    List.Forall₂ S first second := by
  induction h with
  | nil => exact .nil
  | cons hrelated _ ih =>
      exact .cons (himp _ List.mem_cons_self _ hrelated)
        (ih fun a ha => himp a (List.mem_cons_of_mem _ ha))

theorem bind_eq_ok_iff {α β ε : Type} {x : Except ε α} {f : α → Except ε β} {b : β} :
    (x >>= f) = .ok b ↔ ∃ a, x = .ok a ∧ f a = .ok b := by
  cases x <;> simp [bind, Except.bind]

theorem map_eq_ok_iff {α β ε : Type} {x : Except ε α} {f : α → β} {b : β} :
    x.map f = .ok b ↔ ∃ a, x = .ok a ∧ f a = b := by
  cases x <;> simp [Except.map]

theorem bind_eq_error_iff {α β ε : Type} {x : Except ε α} {f : α → Except ε β} {e : ε} :
    (x >>= f) = .error e ↔ x = .error e ∨ ∃ a, x = .ok a ∧ f a = .error e := by
  cases x <;> simp [bind, Except.bind]

theorem map_eq_error_iff {α β ε : Type} {x : Except ε α} {f : α → β} {e : ε} :
    x.map f = .error e ↔ x = .error e := by
  cases x <;> simp [Except.map]

theorem mapError_eq_ok_iff {α ε δ : Type} {x : Except ε α} {f : ε → δ} {a : α} :
    x.mapError f = .ok a ↔ x = .ok a := by
  cases x <;> simp [Except.mapError]

theorem mapError_eq_error_iff {α ε δ : Type} {x : Except ε α} {f : ε → δ} {d : δ} :
    x.mapError f = .error d ↔ ∃ e, x = .error e ∧ f e = d := by
  cases x <;> simp [Except.mapError]

theorem toOption_eq_some_iff {α ε : Type} {x : Except ε α} {a : α} :
    x.toOption = some a ↔ x = .ok a := by
  cases x <;> simp [Except.toOption]

theorem toOption_eq_none_iff {α ε : Type} {x : Except ε α} :
    x.toOption = none ↔ ∀ a, x ≠ .ok a := by
  cases x <;> simp [Except.toOption]

theorem mapM_eq_ok_iff {α β ε : Type} {f : α → Except ε β} {items : List α} {values : List β} :
    items.mapM f = .ok values ↔
      List.Forall₂ (fun item value => f item = .ok value) items values := by
  induction items generalizing values with
  | nil => simp [pure, Except.pure, eq_comm]
  | cons item rest ih =>
      rw [List.mapM_cons, List.forall₂_cons_left_iff]
      cases hitem : f item with
      | error e => simp [bind, Except.bind]
      | ok value =>
          cases hrest : rest.mapM f with
          | error e => simp [bind, Except.bind, ← ih, hrest]
          | ok others => simp [bind, Except.bind, pure, Except.pure, ← ih, hrest, eq_comm]

theorem mapM_of_first_error {α β ε : Type} {f : α → Except ε β} {before after : List α} {item : α}
    {e : ε} (hbefore : ∀ a ∈ before, ∃ value, f a = .ok value) (h : f item = .error e) :
    (before ++ item :: after).mapM f = .error e := by
  induction before with
  | nil => simp [h, bind, Except.bind]
  | cons first rest ih =>
      obtain ⟨value, hvalue⟩ := hbefore first List.mem_cons_self
      have hrest := ih fun a ha => hbefore a (List.mem_cons_of_mem _ ha)
      simp [hvalue, hrest, bind, Except.bind]

/-- The first item that fails decides. -/
theorem mapM_eq_error_iff {α β ε : Type} {f : α → Except ε β} {items : List α} {e : ε} :
    items.mapM f = .error e ↔ ∃ before item after, items = before ++ item :: after ∧
      (∀ a ∈ before, ∃ value, f a = .ok value) ∧ f item = .error e := by
  constructor
  · intro h
    induction items with
    | nil => cases h
    | cons first rest ih =>
        rw [List.mapM_cons, bind_eq_error_iff] at h
        rcases h with hfirst | ⟨value, hvalue, hrest⟩
        · exact ⟨[], first, rest, rfl, by simp, hfirst⟩
        · rcases bind_eq_error_iff.1 hrest with herror | ⟨values, _, hpure⟩
          · obtain ⟨before, item, after, rfl, hbefore, hitem⟩ := ih herror
            refine ⟨first :: before, item, after, rfl, ?_, hitem⟩
            exact List.forall_mem_cons.2 ⟨⟨value, hvalue⟩, hbefore⟩
          · cases hpure
  · rintro ⟨before, item, after, rfl, hbefore, hitem⟩
    exact mapM_of_first_error hbefore hitem

theorem ne_error_of_forall₂ {α β ε : Type} {f : α → Except ε β} {items : List α} {values : List β}
    (h : List.Forall₂ (fun item value => f item = .ok value) items values) :
    ∀ item ∈ items, ∀ e, f item ≠ .error e := by
  intro item hitem e herror
  obtain ⟨value, _, hvalue⟩ := exists_left_of_mem h.flip hitem
  cases hvalue.symm.trans herror

theorem exists_ok_of_not_error {α ε : Type} {result : Except ε α} (h : ∀ e, result ≠ .error e) :
    ∃ value, result = .ok value := by
  cases result with
  | error e => exact absurd rfl (h e)
  | ok value => exact ⟨value, rfl⟩

namespace Scope

theorem readIdTokens_eq_ok_iff {scope : Option Text} {tokens : List IdToken} :
    readIdTokens scope = .ok tokens ↔ ∃ elements, split scope = .ok elements ∧
      List.Forall₂ (fun element token => IdToken.ofText element = .ok token) elements tokens := by
  unfold readIdTokens
  cases hsplit : split scope with
  | error e => simp
  | ok elements => simp [mapM_eq_ok_iff]

theorem readTimeTokens_eq_ok_iff {reader : TimeReader} {elements : List Text}
    {tokens : List TimeToken} :
    (readTimeTokens reader elements).1 = .ok tokens ↔
      List.Forall₂ (fun element token => (TimeToken.ofText reader element).1 = .ok token)
        elements tokens := by
  induction elements generalizing tokens with
  | nil => simp [readTimeTokens, eq_comm]
  | cons element rest ih =>
      rw [readTimeTokens, List.forall₂_cons_left_iff]
      obtain ⟨result, reads⟩ := TimeToken.ofText reader element
      cases result with
      | error e => simp
      | ok token =>
          cases hrest : (readTimeTokens reader rest).1 with
          | error e => simp [hrest, ← ih, Except.map]
          | ok others => simp [hrest, ← ih, Except.map, eq_comm (b := tokens)]

/-- Every element of a scope is read as a time or as a range of times. -/
def ReadsTimes (reader : TimeReader) (scope : Option Text) (tokens : List TimeToken) : Prop :=
  ∃ elements, split scope = .ok elements ∧
    List.Forall₂ (fun element token => (TimeToken.ofText reader element).1 = .ok token)
      elements tokens

theorem readTime_eq_ok_iff {reader : TimeReader} {t : Text} {time : Calendar.Stamp} :
    readTime reader t = .ok time ↔ reader t = .ok time := by
  unfold readTime
  cases reader t <;> simp

/-- The times of an element carry an offset. -/
def TimeToken.IsFixed : TimeToken → Prop
  | range r => r.start.isLocal = false ∧ r.stop.isLocal = false
  | single time _ => time.isLocal = false

/-- An element of a scope of times is a time, or two times in order with `::` between them. -/
theorem TimeToken.ofText_eq_ok {reader : TimeReader} {element : Text} {token : TimeToken}
    (h : (ofText reader element).1 = .ok token) :
    (∃ piece time, Text.splitAtColons element = [piece] ∧ reader element = .ok time ∧
        token = .single time element) ∨
      ∃ first second start stop, Text.splitAtColons element = [first, second] ∧
        Text.trim first ≠ [] ∧ reader (Text.trim first) = .ok start ∧
        Text.trim second ≠ [] ∧ reader (Text.trim second) = .ok stop ∧
        start.le? stop = some true ∧ token = .range ⟨start, stop, element⟩ := by
  unfold ofText at h
  split at h
  · rename_i piece hsplit
    obtain ⟨time, htime, rfl⟩ := map_eq_ok_iff.1 h
    exact Or.inl ⟨piece, time, hsplit, readTime_eq_ok_iff.1 htime, rfl⟩
  · rename_i first second hsplit
    simp only at h
    split at h
    · cases h
    · rename_i hends
      rw [not_or] at hends
      split at h
      · cases h
      · rename_i start hstart
        obtain ⟨stop, hstop, hordered⟩ := bind_eq_ok_iff.1 h
        unfold ofEnds at hordered
        split at hordered
        · cases hordered
        · cases hordered
        · rename_i horder
          exact Or.inr ⟨first, second, start, stop, hsplit, hends.1,
            readTime_eq_ok_iff.1 hstart, hends.2, readTime_eq_ok_iff.1 hstop, horder,
            (Except.ok.inj hordered).symm⟩
  · cases h

theorem TimeToken.isFixed_of_ofText {reader : TimeReader}
    (hreader : ∀ t time, reader t = .ok time → time.isLocal = false) {element : Text}
    {token : TimeToken} (h : (ofText reader element).1 = .ok token) : token.IsFixed := by
  rcases ofText_eq_ok h with
    ⟨_, time, _, htime, rfl⟩ | ⟨_, _, start, stop, _, _, hstart, _, hstop, _, rfl⟩
  · exact hreader _ _ htime
  · exact ⟨hreader _ _ hstart, hreader _ _ hstop⟩

theorem isFixed_of_readsTimes {reader : TimeReader}
    (hreader : ∀ t time, reader t = .ok time → time.isLocal = false) {scope : Option Text}
    {tokens : List TimeToken} (h : ReadsTimes reader scope tokens) :
    ∀ token ∈ tokens, token.IsFixed := by
  obtain ⟨elements, _, hread⟩ := h
  intro token htoken
  obtain ⟨element, _, helement⟩ := exists_left_of_mem hread htoken
  exact TimeToken.isFixed_of_ofText hreader helement

end Scope

end ActionQuery

import ActionQuery.Proofs.IdGrammar
import ActionQuery.Proofs.IsoRoundTrip
import ActionQuery.Proofs.StoreIds
import ActionQuery.Proofs.TimeReading

/-!
# Finding an action again

An action in a store is found by its number and by its time, both as they are written out. Its
number names it alone, in a range or without one. Its time, written as both ends of a range, names
the actions of its job at that instant by their numbers, and the time alone names the first of them.
-/

namespace ActionQuery

open Calendar (Instant)
open Scope

namespace Scope

variable {name t : Text} {n : Nat}

theorem isNumber_ofNat (h : n ≤ maxActionNumber) : IsNumber (Text.ofNat n) n := by
  have hten : n < 10 ^ 10 := Nat.lt_of_le_of_lt h (by decide)
  have hlength : (Text.ofNat n).length ≤ 10 :=
    (Nat.length_toDigits_le_iff (by decide) (by decide)).2 hten
  have hdigits : ∀ c ∈ Text.ofNat n, c.isDigit = true := fun _ hc => Text.isDigit_of_mem_ofNat hc
  refine ⟨Text.ofNat n, ⟨Or.inl rfl, Nat.toDigits_ne_nil, hdigits⟩, ?_, Text.digitsValue_ofNat n, h⟩
  exact Nat.le_trans hlength (by simp [Text.maxNumeralDigits])

theorem expandIds_singleton {token : IdToken} {number : Text} (h : token.numberTexts = [number]) :
    expandIds name [token] = [actionId name number] := by
  simp [expandIds, h, distinct, distinctFrom]

/-- A number text alone stands for itself. -/
theorem actionIds_of_isNumber (hname : Text.blank name = false) (h : IsNumber t n) :
    actionIds (some name) (some t) = .ok [actionId name t] := by
  have helements := elements_of_isTrimmed (h.notMem (by decide)) h.isTrimmed
  refine actionIds_eq_ok_iff_names.2
    ⟨name, _, [.single n t], rfl, hname, rfl, ?_, expandIds_singleton rfl⟩
  rw [helements]
  exact .cons (.single h) .nil

/-- As both ends of a range it stands for its number in decimal. -/
theorem actionIds_of_isNumber_range (hname : Text.blank name = false) (h : IsNumber t n) :
    actionIds (some name) (some (t ++ '-' :: t)) = .ok [actionId name (Text.ofNat n)] := by
  have hrange : Names (t ++ '-' :: t) (.range ⟨n, n⟩) :=
    @Names.range _ t [] [] t n n (by simp) rfl rfl h h (le_refl n)
  have hcomma : ',' ∉ t ++ '-' :: t := by
    simp [h.notMem (c := ',') (by decide)]
  have htrim : Text.IsTrimmed (t ++ '-' :: t) :=
    h.isTrimmed.append_append h.isTrimmed h.ne_nil h.ne_nil ['-']
  have htexts : (IdToken.range ⟨n, n⟩).numberTexts = [Text.ofNat n] := by
    simp [IdToken.numberTexts, IdRange.numbers, Text.ofInt]
  refine actionIds_eq_ok_iff_names.2
    ⟨name, _, [.range ⟨n, n⟩], rfl, hname, rfl, ?_, expandIds_singleton htexts⟩
  rw [elements_of_isTrimmed hcomma htrim]
  exact .cons hrange .nil

theorem actionIds_ofNat (hname : Text.blank name = false) (h : n ≤ maxActionNumber) :
    actionIds (some name) (some (Text.ofNat n)) = .ok [actionId name (Text.ofNat n)] :=
  actionIds_of_isNumber hname (isNumber_ofNat h)

theorem actionIds_ofNat_range (hname : Text.blank name = false) (h : n ≤ maxActionNumber) :
    actionIds (some name) (some (Text.ofNat n ++ '-' :: Text.ofNat n)) =
      .ok [actionId name (Text.ofNat n)] :=
  actionIds_of_isNumber_range hname (isNumber_ofNat h)

end Scope

namespace Calendar.Instant

theorem iso_ne_nil (i : Instant) : i.iso ≠ [] :=
  List.ne_nil_of_mem (i.toStamp.mark_mem_marked 'T')

theorem comma_notMem_iso (i : Instant) : ',' ∉ i.iso :=
  i.toStamp.notMem_iso (by decide) (by decide)

theorem isTrimmed_iso (i : Instant) : Text.IsTrimmed i.iso := i.toStamp.isTrimmed_iso

theorem colonsApart_iso (i : Instant) : Text.ColonsApart i.iso :=
  i.toStamp.colonsApart_marked (by decide)

theorem getLast?_iso (i : Instant) : i.iso.getLast? = some '0' := by
  have hiso : i.iso = i.utc.marked 'T' ++ ['+', '0', '0', ':', '0', '0'] := rfl
  rw [hiso, List.getLast?_append]
  rfl

end Calendar.Instant

/-- A session reads an instant back from its text. -/
theorem Session.reader_iso (p : Session) (i : Instant) : p.reader i.iso = .ok i.toStamp := by
  have hspelled : ∀ o ∈ i.toStamp.offset, o.IsSpelled := by
    rintro o ⟨⟩
    exact Or.inl rfl
  have hread : NominalTime.readStamp i.iso = .ok i.toStamp := by
    have hplain := @NominalTime.readStamp_append_iso [] [] rfl rfl i.toStamp hspelled
    rwa [List.nil_append, List.append_nil] at hplain
  have hparse : (p.parse i.iso none).1 = .ok i := by
    rw [parse_of_fixed hread rfl, toUtc]
    change Option.elim (i.utc.at? Calendar.Offset.utc) _ _ = _
    rw [i.utc.at?_utc]
    rfl
  exact readerIn_eq_ok_iff.2 ⟨i, hparse, rfl⟩

namespace Scope

variable {reader : TimeReader} {i : Instant}

theorem readsTimes_iso (hreader : reader i.iso = .ok i.toStamp) :
    ReadsTimes reader (some i.iso) [.single i.toStamp i.iso] := by
  refine ⟨[i.iso], split_of_isTrimmed i.iso_ne_nil i.comma_notMem_iso i.isTrimmed_iso,
    .cons ?_ .nil⟩
  rw [TimeToken.ofText, Text.splitAtColons_of_apart i.colonsApart_iso]
  simp only [readTime_eq_ok_iff.2 hreader]
  rfl

/-- A time as both ends of a range. -/
theorem readsTimes_iso_range (hreader : reader i.iso = .ok i.toStamp) :
    ReadsTimes reader (some (i.iso ++ ':' :: ':' :: i.iso))
      [.range ⟨i.toStamp, i.toStamp, i.iso ++ ':' :: ':' :: i.iso⟩] := by
  have hcomma : ',' ∉ i.iso ++ ':' :: ':' :: i.iso := by
    simp [i.comma_notMem_iso]
  have htrimmed : Text.IsTrimmed (i.iso ++ ':' :: ':' :: i.iso) := by
    have hboth := i.isTrimmed_iso.append_append i.isTrimmed_iso i.iso_ne_nil i.iso_ne_nil [':', ':']
    rwa [List.cons_append, List.cons_append, List.nil_append] at hboth
  have hends : Text.splitAtColons (i.iso ++ ':' :: ':' :: i.iso) = [i.iso, i.iso] := by
    rw [Text.splitAtColons_append i.colonsApart_iso (by rw [i.getLast?_iso]; decide),
      Text.splitAtColons_of_apart i.colonsApart_iso]
  have horder : i.toStamp.le? i.toStamp = some true := by
    simp [Calendar.Stamp.le?]
  have hnone : ¬ (i.iso = [] ∨ i.iso = []) := by
    simp [i.iso_ne_nil]
  refine ⟨[_], split_of_isTrimmed (by simp) hcomma htrimmed, .cons ?_ .nil⟩
  rw [TimeToken.ofText, hends]
  simp only [Text.trim_of_isTrimmed i.isTrimmed_iso, if_neg hnone, readTime_eq_ok_iff.2 hreader,
    Except.bind, TimeToken.ofEnds, horder]

end Scope

theorem Record.position_eq_iff {r q : Record} :
    q.position = r.nominalTime.toStamp.position ↔ q.nominalTime = r.nominalTime := by
  constructor
  · intro h
    rw [Record.position, Instant.position_toStamp, Instant.position_toStamp] at h
    exact congrArg Instant.mk (Calendar.WallTime.eq_of_micros (Int.ofNat_inj.1 h))
  · intro h
    rw [Record.position, h]

theorem Record.isAt_iff {r q : Record} :
    q.IsAt r.nominalTime.toStamp ↔ q.nominalTime = r.nominalTime := by
  rw [Record.IsAt, Instant.isCertain_toStamp, and_iff_left rfl, position_eq_iff]

namespace Store

variable {s : Store} {job : Text} {active : Bool} {reader : TimeReader}
  {arrange : List Text → List Text} {scope : Option Text}

theorem nodup_ids_of_selects {token : TimeToken} {records : List Record}
    (h : s.Selects job active token records) : (records.map Record.id).Nodup := by
  cases h with
  | range mem_iff ascending =>
      have hnodup : records.Nodup := ascending.imp fun hlt heq => absurd (heq ▸ hlt) (lt_irrefl _)
      refine List.Nodup.map_on (fun a ha b hb hid => ?_) hnodup
      exact List.inj_on_of_nodup_map s.distinct ((mem_iff a).1 ha).1 ((mem_iff b).1 hb).1 hid
  | single => exact List.nodup_singleton _

/-- The actions that one element stands for are the answer to a scope of nothing else. -/
theorem result_of_selects (hjob : Text.blank job = false) {token : TimeToken}
    (htoken : ReadsTimes reader scope [token]) (hfixed : token.IsFixed) {records : List Record}
    (hselects : s.Selects job active token records) :
    ((s.resolver reader arrange).resolve Route.times.name active job scope).result =
      .ok (records.map some) := by
  have hcollect : (collect s.lookup job active [token] []).1 =
      .ok (Keyed.addNew Record.id [] [records].flatten) :=
    congrArg Prod.fst (collect_of_gives (.cons (gives_of_selects hfixed hselects) .nil))
  have hresolve : ((s.resolver reader arrange).resolve Route.times.name active job scope).result =
      (collect s.lookup job active [token] []).1.map (·.map some) := by
    obtain ⟨reads, hresult⟩ := resolveTimes_of_readsTimes hjob htoken
    rw [Resolver.resolve_times]
    exact congrArg Resolution.result hresult
  rw [hresolve, hcollect, List.flatten_singleton, Keyed.addNew_nil,
    Keyed.firsts_of_nodup (nodup_ids_of_selects hselects)]
  rfl

/-- The action with an id, if there is one, is the answer to a scope of numbers that stands for
nothing else. -/
theorem result_of_single_id (harrange : ∀ ids, (arrange ids).Perm ids) {id : Text}
    (hids : actionIds job scope = .ok [id]) :
    ((s.resolver reader arrange).resolve Route.ids.name active job scope).result =
      .ok ((s.get? id).toList.map some) := by
  have horder : arrange [id] = [id] := List.perm_singleton.1 (harrange _)
  rw [Resolver.resolve_ids, resolveIds_of_actionIds hids]
  change (follow s.lookup (arrange [id])).result = _
  rw [follow_lookup, horder]
  cases h : s.get? id <;> simp [h]

theorem result_of_actionIds (harrange : ∀ ids, (arrange ids).Perm ids) {r : Record}
    (hr : r ∈ s.records) (hids : actionIds job scope = .ok [r.id]) :
    ((s.resolver reader arrange).resolve Route.ids.name active job scope).result =
      .ok [some r] := by
  have hfound : s.get? r.id = some r := get?_eq_some_iff.2 ⟨hr, rfl⟩
  rw [result_of_single_id harrange hids, hfound]
  rfl

/-- The actions of a job at an instant, by their numbers. -/
theorem exists_selects_instant (s : Store) {r : Record} (hr : r ∈ s.records) (text : Text) :
    ∃ first rest, (∀ q, q ∈ first :: rest ↔
        q ∈ s.records ∧ q.job = r.job ∧ q.nominalTime = r.nominalTime) ∧
      (first :: rest).Pairwise (fun a b => a.number < b.number) ∧
      s.Selects r.job false (.range ⟨r.nominalTime.toStamp, r.nominalTime.toStamp, text⟩)
        (first :: rest) ∧
      ∀ active text, s.Selects r.job active (.single r.nominalTime.toStamp text) [first] := by
  have hexists : ∃ records, s.inRange r.job
      ⟨r.nominalTime.toStamp, r.nominalTime.toStamp, text⟩ false = .ok records ∧
        s.Selects r.job false (.range ⟨r.nominalTime.toStamp, r.nominalTime.toStamp, text⟩)
          records :=
    exists_selects_of_inRange ⟨rfl, rfl⟩
  obtain ⟨records, _, hselects⟩ := hexists
  have hselected := hselects
  cases hselected with
  | range mem_iff ascending =>
      have hmem (q : Record) : q ∈ records ↔
          q ∈ s.records ∧ q.job = r.job ∧ q.nominalTime = r.nominalTime := by
        have hat : r.nominalTime.toStamp.position ≤ q.position ∧
            q.position ≤ r.nominalTime.toStamp.position ↔ q.nominalTime = r.nominalTime := by
          rw [← Record.position_eq_iff, le_antisymm_iff, and_comm]
        rw [mem_iff, ← hat]
        simp only [Bool.false_eq_true, false_implies, and_true]
      obtain ⟨first, rest, rfl⟩ := List.exists_cons_of_ne_nil
        (List.ne_nil_of_mem ((hmem r).2 ⟨hr, rfl, rfl⟩))
      obtain ⟨hfirst, hjob, htime⟩ := (hmem first).1 List.mem_cons_self
      refine ⟨first, rest, hmem, ascending, hselects, fun active text => ?_⟩
      refine .single hfirst hjob (Record.isAt_iff.2 htime) fun other hother hsame hat => ?_
      rcases List.mem_cons.1 ((hmem other).2 ⟨hother, hsame, Record.isAt_iff.1 hat⟩) with
        rfl | hlater
      · exact le_refl _
      · exact le_of_lt ((List.pairwise_cons.1 ascending).1 other hlater)

/-- An action is found by its number and by its time as they are written: by its number alone or as
both ends of a range there is this action and no other; by its time as both ends of a range there are
the actions of its job at that instant, by their numbers, and by the time alone the first of them. -/
theorem resolve_number_and_time (p : Session) (s : Store)
    (harrange : ∀ ids, (arrange ids).Perm ids) {r : Record} (hr : r ∈ s.records)
    (hjob : Text.blank r.job = false) :
    (∀ active, 0 ≤ r.number → r.number ≤ maxActionNumber →
      ((s.resolver p.reader arrange).resolve Route.ids.name active r.job
        (Text.ofInt r.number)).result = .ok [some r] ∧
      ((s.resolver p.reader arrange).resolve Route.ids.name active r.job
        (Text.ofInt r.number ++ '-' :: Text.ofInt r.number)).result = .ok [some r]) ∧
    ∃ first rest, r ∈ first :: rest ∧
      (∀ q, q ∈ first :: rest ↔
        q ∈ s.records ∧ q.job = r.job ∧ q.nominalTime = r.nominalTime) ∧
      (first :: rest).Pairwise (fun a b => a.number < b.number) ∧
      ((s.resolver p.reader arrange).resolve Route.times.name false r.job
        (r.nominalTime.iso ++ ':' :: ':' :: r.nominalTime.iso)).result =
          .ok ((first :: rest).map some) ∧
      ∀ active, ((s.resolver p.reader arrange).resolve Route.times.name active r.job
        r.nominalTime.iso).result = .ok [some first] := by
  refine ⟨fun active hnonneg hle => ?_, ?_⟩
  · obtain ⟨n, hn⟩ := Int.eq_ofNat_of_zero_le hnonneg
    have hsmall : n ≤ maxActionNumber := by omega
    have hid : r.id = actionId r.job (Text.ofNat n) := by
      rw [Record.id, hn]
      rfl
    rw [hn]
    exact ⟨result_of_actionIds harrange hr (hid ▸ actionIds_ofNat hjob hsmall),
      result_of_actionIds harrange hr (hid ▸ actionIds_ofNat_range hjob hsmall)⟩
  · have hreader := p.reader_iso r.nominalTime
    obtain ⟨first, rest, hmem, hascending, hrange, hsingle⟩ := exists_selects_instant s hr
      (r.nominalTime.iso ++ ':' :: ':' :: r.nominalTime.iso)
    refine ⟨first, rest, (hmem r).2 ⟨hr, rfl, rfl⟩, hmem, hascending, ?_, fun active => ?_⟩
    · exact result_of_selects hjob (readsTimes_iso_range hreader) ⟨rfl, rfl⟩ hrange
    · exact result_of_selects hjob (readsTimes_iso hreader) rfl (hsingle active _)

/-- The seventh action of a job shares its instant with the second, which comes first. -/
theorem resolve_number_and_time_of_seventh :
    ((twoJobs.resolver Session.initial.reader List.reverse).resolve Route.ids.name false (some "j")
      (some "7-7")).result = .ok [some (plainAction "j" 7 noon .waiting)] ∧
    ((twoJobs.resolver Session.initial.reader List.reverse).resolve Route.times.name false (some "j")
      (some "0001-01-01T12:00:00+00:00::0001-01-01T12:00:00+00:00")).result =
        .ok [some (plainAction "j" 2 noon .running), some (plainAction "j" 7 noon .waiting)] ∧
    ((twoJobs.resolver Session.initial.reader List.reverse).resolve Route.times.name true (some "j")
      (some "0001-01-01T12:00:00+00:00")).result =
        .ok [some (plainAction "j" 2 noon .running)] := by
  have hiso : noon.iso = "0001-01-01T12:00:00+00:00".toList := by decide
  have hseventh : plainAction "j" 7 noon .waiting ∈ twoJobs.records := by decide
  have hjob : Text.blank "j" = false := by decide
  obtain ⟨hnumber, first, rest, _, hmem, hascending, hrange, hsingle⟩ :=
    resolve_number_and_time Session.initial twoJobs List.reverse_perm hseventh hjob
  have hrecords : first :: rest =
      [plainAction "j" 2 noon .running, plainAction "j" 7 noon .waiting] := by
    refine eq_of_pairwise_number hascending (by decide) fun q => ?_
    rw [hmem]
    constructor
    · simp only [twoJobs, List.mem_cons, List.not_mem_nil, or_false]
      rintro ⟨rfl | rfl | rfl | rfl, hselected⟩ <;> revert hselected <;> decide
    · simp only [List.mem_cons, List.not_mem_nil, or_false]
      rintro (rfl | rfl) <;> decide
  obtain ⟨rfl, rfl⟩ := List.cons.inj hrecords
  have htime : (plainAction "j" 7 noon .waiting).nominalTime = noon := rfl
  rw [htime, hiso] at hrange hsingle
  exact ⟨(hnumber false (by decide) (by simp [plainAction, maxActionNumber])).2, hrange, hsingle true⟩

end Store

end ActionQuery

import ActionQuery.Proofs.FilterGrammar
import ActionQuery.Proofs.TimeReading

/-!
# How a nominal time is refused

What fails before a time is placed in UTC says that the text cannot be read, and whoever asked for
the time reports it as such. The last step fails only for a time that lies outside the years of the
calendar in UTC; this failure is of another kind, and it is handed on.
-/

namespace ActionQuery

open Calendar (Instant Offset Stamp WallTime)

namespace Calendar.WallTime

/-- A clock with this offset shows a time that UTC has no year for. -/
def Outside (w : WallTime) (offset : Offset) : Prop :=
  (w.micros : Int) < offset.micros ∨ offset.micros + spanMicros ≤ w.micros

theorem at?_eq_none_iff {w : WallTime} {offset : Offset} :
    w.at? offset = none ↔ w.Outside offset := by
  rw [at?, Option.map_eq_none_iff, ofMicros?]
  split
  · rename_i h
    simp only [reduceCtorEq, Outside, false_iff]
    omega
  · rename_i h
    simp only [Outside, true_iff]
    omega

end Calendar.WallTime

namespace NominalTime

theorem kind_of_readStamp {t : Text} {e : Error} (h : readStamp t = .error e) :
    e.toFault.kind = .unreadable := by
  simp only [readStamp] at h
  split at h
  · rw [← Except.error.inj h]
    rfl
  · split at h
    · cases h
    · rw [← Except.error.inj h]
      rfl

end NominalTime

theorem Settings.kind_of_load {arguments : List (Text × Datum)} {env : Environment} {e : Rejection}
    (h : load arguments env = .error e) : e.toFault.kind = .unreadable := by
  simp only [load] at h
  split at h
  · cases h
  · rw [← Except.error.inj h]
    rfl

namespace Session

variable {p : Session} {zone : Option Text} {text : Text} {e : Rejection}

/-- A text is read as a time of a clock whose offset is known, and UTC has no year for that time. -/
def LeavesCalendar (p : Session) (zone : Option Text) (text : Text) : Prop :=
  ∃ stamp offset, NominalTime.readStamp text = .ok stamp ∧ p.offsetOf zone stamp = .ok offset ∧
    stamp.wall.Outside offset

theorem toUtc_of_outside {s : Stamp} {offset : Offset} (h : s.wall.Outside offset) :
    toUtc s offset = .error (.fault .timeOutOfRange) := by
  rw [toUtc, WallTime.at?_eq_none_iff.2 h]
  rfl

theorem outside_of_toUtc {s : Stamp} {offset : Offset} (h : toUtc s offset = .error e) :
    s.wall.Outside offset := by
  rw [← WallTime.at?_eq_none_iff]
  rw [toUtc] at h
  cases hat : s.wall.at? offset with
  | none => rfl
  | some instant =>
      rw [hat] at h
      cases h

theorem kind_of_zoneFor (h : p.zoneFor zone = .error e) : e.toFault.kind = .unreadable := by
  cases zone with
  | some name => cases h
  | none =>
      have hsettings : p.settings.1 = .error e := map_eq_error_iff.1 h
      unfold settings at hsettings
      split at hsettings
      · cases hsettings
      · split at hsettings
        · cases hsettings
        · rename_i hload
          exact Except.error.inj hsettings ▸ Settings.kind_of_load hload

theorem kind_of_offsetOf {s : Stamp} (h : p.offsetOf zone s = .error e) :
    e.toFault.kind = .unreadable := by
  rw [offsetOf] at h
  split at h
  · cases h
  · rcases bind_eq_error_iff.1 h with hname | ⟨name, _, hplace⟩
    · exact kind_of_zoneFor hname
    · rcases bind_eq_error_iff.1 hplace with hresolve | ⟨_, _, hpure⟩
      · obtain ⟨reason, _, rfl⟩ := mapError_eq_error_iff.1 hresolve
        rfl
      · cases hpure

theorem parse_of_leavesCalendar (h : p.LeavesCalendar zone text) :
    (p.parse text zone).1 = .error (.fault .timeOutOfRange) := by
  obtain ⟨stamp, offset, hread, hoffset, houtside⟩ := h
  rw [parse_eq, hread]
  change p.offsetOf zone stamp >>= toUtc stamp = _
  rw [hoffset]
  exact toUtc_of_outside houtside

theorem leavesCalendar_or_unreadable (h : (p.parse text zone).1 = .error e) :
    p.LeavesCalendar zone text ∨ e.toFault.kind = .unreadable := by
  rw [parse_eq] at h
  rcases bind_eq_error_iff.1 h with hread | ⟨stamp, hread, hrest⟩
  · obtain ⟨reason, hreason, rfl⟩ := mapError_eq_error_iff.1 hread
    exact Or.inr (NominalTime.kind_of_readStamp hreason)
  · rcases bind_eq_error_iff.1 hrest with hoffset | ⟨offset, hoffset, hutc⟩
    · exact Or.inr (kind_of_offsetOf hoffset)
    · exact Or.inl ⟨stamp, offset, mapError_eq_ok_iff.1 hread, hoffset, outside_of_toUtc hutc⟩

/-- A failure that does not say that a text is no time is the one of leaving the calendar. -/
theorem leavesCalendar_of_reader {reason : Fault} (h : p.reader text = .error reason)
    (hkind : reason.kind ≠ .unreadable) :
    p.LeavesCalendar none text ∧ reason = .timeOutOfRange := by
  obtain ⟨e, he, rfl⟩ := readerIn_eq_error_iff.1 h
  have hleaves := (leavesCalendar_or_unreadable he).resolve_right hkind
  rw [parse_of_leavesCalendar hleaves] at he
  exact ⟨hleaves, Except.error.inj he ▸ rfl⟩

end Session

namespace Scope

variable {reader : TimeReader} {element t : Text} {reason : Fault} {e : Error}

/-- A time is refused for its format or by a failure that is handed on. -/
theorem format_or_fault_of_readTime (h : readTime reader t = .error e) :
    (∃ flaw, e = .format flaw) ∨
      ∃ reason, reader t = .error reason ∧ reason.kind ≠ .unreadable ∧ e = .fault reason := by
  rw [readTime] at h
  split at h
  · cases h
  · rename_i reason hread
    split at h
    · exact Or.inl ⟨_, (Except.error.inj h).symm⟩
    · rename_i hkind
      exact Or.inr ⟨reason, hread, hkind, (Except.error.inj h).symm⟩

theorem TimeToken.ofEnds_of_fixed {start stop : Calendar.Stamp} (hstart : start.isLocal = false)
    (hstop : stop.isLocal = false) (h : ofEnds element start stop = .error e) :
    ∃ flaw, e = .format flaw := by
  unfold ofEnds at h
  split at h
  · rename_i hnone
    exact absurd hnone (Calendar.Stamp.le?_ne_none (hstart.trans hstop.symm))
  · exact ⟨_, (Except.error.inj h).symm⟩
  · cases h

/-- An element is refused for its format or by a failure to read one of its times, provided that all
times that are read can be compared. -/
theorem TimeToken.format_or_fault_of_ofText
    (hreader : ∀ t time, reader t = .ok time → time.isLocal = false)
    (h : (ofText reader element).1 = .error e) :
    (∃ flaw, e = .format flaw) ∨ ∃ t ∈ (ofText reader element).2, ∃ reason,
      reader t = .error reason ∧ reason.kind ≠ .unreadable ∧ e = .fault reason := by
  revert h
  unfold ofText
  split
  · intro h
    refine (format_or_fault_of_readTime (map_eq_error_iff.1 h)).imp_right fun hfault => ?_
    exact ⟨element, List.mem_singleton_self _, hfault⟩
  · rename_i first second hsplit
    simp only
    split
    · intro h
      exact Or.inl ⟨_, (Except.error.inj h).symm⟩
    · split
      · rename_i other hfirst
        intro h
        cases h
        refine (format_or_fault_of_readTime hfirst).imp_right fun hfault => ?_
        exact ⟨_, List.mem_singleton_self _, hfault⟩
      · rename_i start hfirst
        intro h
        rcases bind_eq_error_iff.1 h with hsecond | ⟨stop, hsecond, hends⟩
        · refine (format_or_fault_of_readTime hsecond).imp_right fun hfault => ?_
          exact ⟨_, List.mem_pair.2 (Or.inr rfl), hfault⟩
        · exact Or.inl (ofEnds_of_fixed (hreader _ _ (readTime_eq_ok_iff.1 hfirst))
            (hreader _ _ (readTime_eq_ok_iff.1 hsecond)) hends)
  · intro h
    exact Or.inl ⟨_, (Except.error.inj h).symm⟩

end Scope

namespace Filter

open Scope (TimeReader)

variable {reader : TimeReader} {text : Option Text} {value : Text} {reason : Fault} {e : Error}

/-- A filter text is read up to the value of a nominal time: every earlier entry says something. -/
inductive Reaches (reader : TimeReader) (text : Option Text) (value : Text) : Prop where
  | intro {parts : Parts} {c : Comparator} {entry : Text} {before after : List Text}
      (entries_eq : entries text = before ++ entry :: after)
      (sayings : ∀ earlier ∈ before, ∃ t, Reads reader earlier t) (fit : parts.Fit entry c)
      (value_ne_nil : parts.value ≠ []) (called : Subject.IsCalled parts.name .nominalTime)
      (value_eq : parts.value = value)

end Filter

namespace Session

open Scope (TimeToken)

variable {p : Session} {element : Text} {text : Option Text}

theorem format_or_leavesCalendar_of_ofText {e : Scope.Error}
    (h : (TimeToken.ofText p.reader element).1 = .error e) :
    (∃ flaw, e = .format flaw) ∨
      ∃ t ∈ (TimeToken.ofText p.reader element).2, p.LeavesCalendar none t := by
  refine (TimeToken.format_or_fault_of_ofText (fun _ _ => isLocal_of_readerIn) h).imp_right ?_
  rintro ⟨t, ht, reason, hread, hkind, _⟩
  exact ⟨t, ht, (leavesCalendar_of_reader hread hkind).1⟩

end Session

end ActionQuery

import ActionQuery.Proofs.LogSetUp

/-!
# Set-ups that fail

A set-up of the log fails in one of two ways. Without settings it stops before it has touched
anything. For the name of a level it stops last, and only in a log without handlers: by then its own
handler stands there, and its factory of records if the settings ask for one. Because of that handler
the next set-up goes through and does next to nothing: its level and its format come too late.
-/

namespace ActionQuery

namespace Logging.Root

variable {r : Root} {settings other : Settings} {level : Option Text} {found : Level}

/-- The log has no handlers yet, and the level that it is to have is none. -/
def Refuses (r : Root) (settings : Settings) (level : Option Text) : Prop :=
  r.handlers = [] ∧ Level.ofName? (levelName settings level) = none

/-- What a set-up makes of a log without handlers before it comes to the level. -/
def prepare (r : Root) (settings : Settings) : Root :=
  { r.correlate settings with handlers := [some (formatOf settings)] }

theorem level_prepare (r : Root) (settings : Settings) : (r.prepare settings).level = r.level :=
  level_correlate r settings

theorem correlated_prepare (r : Root) (settings : Settings) :
    (r.prepare settings).correlated = (r.correlated || settings.correlation) :=
  correlated_correlate r settings

theorem configure_of_refuses (h : r.Refuses settings level) :
    r.configure settings level =
      (.error (unknownLevel (levelName settings level)), r.prepare settings) := by
  obtain ⟨hhandlers, hlevel⟩ := h
  rw [configure, start, if_pos (by simp [handlers_correlate, hhandlers]), hlevel]
  rfl

theorem configure_of_level (hhandlers : r.handlers = [])
    (hlevel : Level.ofName? (levelName settings level) = some found) :
    r.configure settings level = (.ok (), { r.prepare settings with level := found }) := by
  rw [configure, start, if_pos (by simp [handlers_correlate, hhandlers]), hlevel]
  rfl

theorem configure_fst_eq_error_iff {reason : Fault} :
    (r.configure settings level).1 = .error reason ↔
      r.Refuses settings level ∧ reason = unknownLevel (levelName settings level) := by
  by_cases hhandlers : r.handlers = []
  · cases hlevel : Level.ofName? (levelName settings level) with
    | none =>
        rw [configure_of_refuses ⟨hhandlers, hlevel⟩]
        simp [Refuses, hhandlers, hlevel, eq_comm]
    | some found =>
        rw [configure_of_level hhandlers hlevel]
        simp [Refuses, hlevel]
  · rw [configure_of_ne_nil hhandlers]
    simp [Refuses, hhandlers]

theorem formatOf_eq_iff :
    formatOf settings = formatOf other ↔ settings.correlation = other.correlation := by
  cases hfirst : settings.correlation <;> cases hsecond : other.correlation <;>
    simp [formatOf, hfirst, hsecond]

theorem prepare_eq_of_correlation (h : settings.correlation = other.correlation) (r : Root) :
    r.prepare settings = r.prepare other := by
  have hinstalls : r.installs settings = r.installs other := by
    rw [installs, installs, h]
  rw [prepare, prepare, correlate, correlate, hinstalls, formatOf_eq_iff.2 h]

theorem correlate_prepare (r : Root) (settings : Settings) :
    (r.prepare settings).correlate settings = r.prepare settings := by
  apply correlate_of_not_installs
  rw [installs, correlated_prepare]
  cases settings.correlation <;> simp

/-- A log that was prepared by other settings gets what it would have got without them exactly if
their formats agree and there is no new level. -/
theorem correlate_prepare_eq_iff :
    (r.prepare settings).correlate other = { r.prepare other with level := found } ↔
      found = r.level ∧ other.correlation = settings.correlation := by
  constructor
  · intro h
    have hlevel := congrArg Root.level h
    have hhandlers := congrArg Root.handlers h
    rw [level_correlate, level_prepare] at hlevel
    rw [handlers_correlate] at hhandlers
    have hformat : formatOf settings = formatOf other := by simpa [prepare] using hhandlers
    exact ⟨hlevel.symm, (formatOf_eq_iff.1 hformat).symm⟩
  · rintro ⟨rfl, hcorrelation⟩
    have hsame : r.prepare settings = r.prepare other :=
      prepare_eq_of_correlation hcorrelation.symm r
    calc (r.prepare settings).correlate other
        = (r.prepare other).correlate other := by rw [hsame]
      _ = r.prepare other := correlate_prepare r other
      _ = { r.prepare other with level := r.level } := by rw [← level_prepare r other]

end Logging.Root

namespace Session

open Logging (Level Root)
open Logging.Root (levelName unknownLevel)

variable {p q : Session} {arguments : Option (List (Text × Datum))} {level : Option Text}
  {settings : Settings} {e : Rejection}

theorem settings_fst_congr (hcache : q.cache = p.cache)
    (henvironment : q.environment = p.environment) : q.settings.1 = p.settings.1 := by
  unfold settings
  rw [hcache, henvironment]
  cases p.cache with
  | some kept => rfl
  | none => cases Settings.load [] p.environment <;> rfl

/-- A set-up, whatever comes of it, leaves later set-ups their settings. -/
theorem settingsFor_configure (p : Session) (arguments : Option (List (Text × Datum)))
    (level : Option Text) (next : Option (List (Text × Datum))) :
    (p.configure arguments level).2.settingsFor next = p.settingsFor next := by
  have henvironment := environment_configure p arguments level
  cases next with
  | some members => simp [settingsFor, henvironment]
  | none =>
      change (p.configure arguments level).2.settings.1 = p.settings.1
      cases arguments with
      | some members =>
          have hcache : (p.configure (some members) level).2.cache = p.cache :=
            cache_step_of_not_asks (s := .configure (some members) level) rfl (by simp)
          exact settings_fst_congr hcache henvironment
      | none =>
          have hcache : (p.configure none level).2.cache = p.settings.2.cache :=
            cache_step_of_asks (s := .configure none level) rfl
          rw [settings_fst_congr hcache (by rw [henvironment, environment_settings]),
            settings_of_settings]

theorem configure_eq_error_iff :
    (p.configure arguments level).1 = .error e ↔
      p.settingsFor arguments = .error e ∨ ∃ settings, p.settingsFor arguments = .ok settings ∧
        p.log.Refuses settings level ∧ e = .fault (unknownLevel (levelName settings level)) := by
  cases h : p.settingsFor arguments with
  | error reason => simp [configure_of_error h]
  | ok settings =>
      rw [(configure_of_ok h level).1, mapError_eq_error_iff]
      simp only [Logging.Root.configure_fst_eq_error_iff, reduceCtorEq, false_or, Except.ok.injEq,
        exists_eq_left']
      constructor
      · rintro ⟨_, ⟨hrefuses, rfl⟩, rfl⟩
        exact ⟨hrefuses, rfl⟩
      · rintro ⟨hrefuses, rfl⟩
        exact ⟨_, ⟨hrefuses, rfl⟩, rfl⟩

/-- How a set-up fails and what it leaves behind. It fails for its settings, and then nothing has
changed, or for its level in a log without handlers, and then its handler and its factory of records
are in place. The next set-up with a level goes through after that, but the handler and the level
stay: the log is what it would have been without the failure only if that level and that format are
the ones that it has anyway. -/
theorem trace_of_failed_set_up (p : Session) (arguments : Option (List (Text × Datum)))
    (level : Option Text) :
    (∀ e, (p.configure arguments level).1 = .error e ↔
      p.settingsFor arguments = .error e ∨ ∃ settings, p.settingsFor arguments = .ok settings ∧
        p.log.Refuses settings level ∧ e = .fault (unknownLevel (levelName settings level))) ∧
    (∀ e, p.settingsFor arguments = .error e → (p.configure arguments level).2 = p) ∧
    ∀ settings, p.settingsFor arguments = .ok settings → p.log.Refuses settings level →
      let q := (p.configure arguments level).2
      q.log = p.log.prepare settings ∧ q.log ≠ p.log ∧
        ∀ next nextLevel other found, p.settingsFor next = .ok other →
          Level.ofName? (levelName other nextLevel) = some found →
            (q.configure next nextLevel).1 = .ok () ∧
            (q.configure next nextLevel).2.log.handlers = q.log.handlers ∧
            (q.configure next nextLevel).2.log.level = p.log.level ∧
            ((q.configure next nextLevel).2.log = (p.configure next nextLevel).2.log ↔
              found = p.log.level ∧ other.correlation = settings.correlation) := by
  refine ⟨fun e => configure_eq_error_iff, fun e h => by rw [configure_of_error h], ?_⟩
  intro settings hsettings hrefuses q
  have hlog : q.log = p.log.prepare settings := by
    rw [(configure_of_ok hsettings level).2, Root.configure_of_refuses hrefuses]
  have hhandlers : q.log.handlers ≠ [] := by
    rw [hlog]
    exact List.cons_ne_nil _ _
  refine ⟨hlog, fun heq => hhandlers (by rw [heq, hrefuses.1]), ?_⟩
  intro next nextLevel other found hnext hfound
  have hother : q.settingsFor next = .ok other := by
    rw [settingsFor_configure, hnext]
  have hafter : (q.configure next nextLevel).2.log = q.log.correlate other := by
    rw [(configure_of_ok hother nextLevel).2, Root.configure_of_ne_nil hhandlers]
  have halone : (p.configure next nextLevel).2.log =
      { p.log.prepare other with level := found } := by
    rw [(configure_of_ok hnext nextLevel).2, Root.configure_of_level hrefuses.1 hfound]
  refine ⟨?_, ?_, ?_, ?_⟩
  · rw [(configure_of_ok hother nextLevel).1, Root.configure_of_ne_nil hhandlers]
    rfl
  · rw [hafter, Root.handlers_correlate]
  · rw [hafter, Root.level_correlate, hlog, Root.level_prepare]
  · rw [hafter, halone, hlog]
    exact Root.correlate_prepare_eq_iff

/-- A level that is none leaves a log of warnings with a handler, and the level that is asked for
after that does not come. -/
theorem trace_of_unknown_level :
    (initial.configure (some []) (some "bogus")).1 = .error (.fault (unknownLevel "BOGUS")) ∧
    initial.log = ⟨[], .warning, false, .bare⟩ ∧
    (initial.configure (some []) (some "bogus")).2.log =
      ⟨[some .correlated], .warning, true, .correlating⟩ ∧
    ((initial.configure (some []) (some "bogus")).2.configure (some []) (some "debug")).2.log =
      ⟨[some .correlated], .warning, true, .correlating⟩ ∧
    (initial.configure (some []) (some "debug")).2.log =
      ⟨[some .correlated], .debug, true, .correlating⟩ := by
  decide

end Session

end ActionQuery

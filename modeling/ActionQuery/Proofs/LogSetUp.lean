import ActionQuery.Proofs.SettingsCache

/-!
# Setting up the log

A log that starts without handlers may be set up time and again, by settings that contradict each
other, and handlers may be added to it from outside. Whatever comes of the single calls, only the
first handler can have a format, and if that format shows the context of records, then records are
made with their context. It holds because the factory of such records is installed before the
handler is added, and because neither of the two is taken back.
-/

namespace ActionQuery

namespace Logging

theorem Line.text_of_context {l : Line} {texts : ContextTexts} (h : l.context = some texts)
    (format : Format) :
    ∃ header, l.text format = (fillMessage l.message l.arguments).map (header ++ ·) := by
  cases format with
  | plain =>
      refine ⟨Level.nameOfNumber l.level ++ ' ' :: l.logger ++ [' '], ?_⟩
      unfold text
      cases fillMessage l.message l.arguments with
      | error reason => rfl
      | ok message => simp [contextText, bind, Except.bind, pure, Except.pure, Except.map]
  | correlated =>
      refine ⟨Level.nameOfNumber l.level ++ ' ' :: l.logger ++ ' ' ::
        ("trace_id=" ++ texts.trace ++ " span_id=" ++ texts.span ++ [' ']), ?_⟩
      unfold text
      cases fillMessage l.message l.arguments with
      | error reason => rfl
      | ok message => simp [contextText, h, bind, Except.bind, pure, Except.pure, Except.map]

namespace Root

/-- Only the first handler has a format, a format that shows the context of records has records that
carry it, and the set-up knows whether its factory is in place. -/
structure Sound (r : Root) : Prop where
  behind : ∀ format ∈ r.handlers.tail, format = none
  carried : some Format.correlated ∈ r.handlers → r.factory = .correlating
  known : r.correlated = true ↔ r.factory = .correlating

variable {r : Root}

theorem sound_of_handlers_eq_nil (h : r.handlers = [])
    (known : r.correlated = true ↔ r.factory = .correlating) : r.Sound :=
  ⟨by simp [h], by simp [h], known⟩

theorem Sound.eq_zero_of_format (h : r.Sound) {i : Nat} {format : Format}
    (hformat : r.handlers[i]? = some (some format)) : i = 0 := by
  cases i with
  | zero => rfl
  | succ i =>
      have hmem : some format ∈ r.handlers.tail :=
        List.mem_of_getElem? (List.getElem?_tail.trans hformat)
      cases h.behind _ hmem

theorem Sound.addHandler (h : r.Sound) : r.addHandler.Sound where
  behind := by
    intro format hformat
    cases hhandlers : r.handlers with
    | nil => simp [Root.addHandler, hhandlers] at hformat
    | cons first rest =>
        have hmem : format ∈ rest ++ [none] := by
          simpa [Root.addHandler, hhandlers] using hformat
        rcases List.mem_append.1 hmem with hrest | hnone
        · exact h.behind format (by rwa [hhandlers])
        · exact List.mem_singleton.1 hnone
  carried := by
    intro hmem
    rcases List.mem_append.1 hmem with hold | hnone
    · exact h.carried hold
    · cases List.mem_singleton.1 hnone
  known := h.known

theorem context_line (h : r.factory = .correlating) (logger : Text) (level : Int) (message : Text)
    (arguments : List Datum) (context : Option Context) :
    (r.line logger level message arguments context).context = some (contextTexts context) := by
  rw [line, h]
  rfl

variable {settings : Settings} {level : Option Text}

theorem correlate_of_not_installs (h : r.installs settings = false) : r.correlate settings = r := by
  rw [correlate, h]
  rfl

theorem correlate_of_installs (h : r.installs settings = true) :
    r.correlate settings = r.install := by
  rw [correlate, if_pos h]

theorem handlers_correlate (r : Root) (settings : Settings) :
    (r.correlate settings).handlers = r.handlers := by
  unfold correlate
  split <;> rfl

theorem level_correlate (r : Root) (settings : Settings) :
    (r.correlate settings).level = r.level := by
  unfold correlate
  split <;> rfl

theorem correlated_correlate (r : Root) (settings : Settings) :
    (r.correlate settings).correlated = (r.correlated || settings.correlation) := by
  cases hinstalls : r.installs settings with
  | true =>
      rw [correlate_of_installs hinstalls]
      simp only [installs, Bool.and_eq_true] at hinstalls
      simp [install, hinstalls.1]
  | false =>
      rw [correlate_of_not_installs hinstalls]
      cases hcorrelated : r.correlated <;> simp_all [installs]

theorem known_correlate (h : r.correlated = true ↔ r.factory = .correlating) (settings : Settings) :
    (r.correlate settings).correlated = true ↔ (r.correlate settings).factory = .correlating := by
  cases hinstalls : r.installs settings with
  | true => simp [correlate_of_installs hinstalls, install]
  | false => rwa [correlate_of_not_installs hinstalls]

theorem start_of_ne_nil (h : r.handlers ≠ []) (format : Format) (name : Text) :
    r.start format name = (.ok (), r) := by
  rw [start, if_neg]
  simpa using h

theorem exists_start_eq (h : r.handlers = []) (format : Format) (name : Text) :
    ∃ level, (r.start format name).2 = { r with handlers := [some format], level } := by
  rw [start, if_pos (by simp [h])]
  cases Level.ofName? name with
  | none => exact ⟨r.level, rfl⟩
  | some found => exact ⟨found, rfl⟩

theorem configure_of_ne_nil (h : r.handlers ≠ []) (settings : Settings) (level : Option Text) :
    r.configure settings level = (.ok (), r.correlate settings) := by
  rw [configure, start_of_ne_nil (by rwa [handlers_correlate])]

theorem exists_configure_eq (h : r.handlers = []) (settings : Settings) (level : Option Text) :
    ∃ found, (r.configure settings level).2 =
      { r.correlate settings with handlers := [some (formatOf settings)], level := found } :=
  exists_start_eq (by rwa [handlers_correlate]) _ _

theorem factory_configure (r : Root) (settings : Settings) (level : Option Text) :
    (r.configure settings level).2.factory = (r.correlate settings).factory := by
  by_cases h : r.handlers = []
  · obtain ⟨found, hfound⟩ := exists_configure_eq h settings level
    rw [hfound]
  · rw [configure_of_ne_nil h]

theorem correlated_configure (r : Root) (settings : Settings) (level : Option Text) :
    (r.configure settings level).2.correlated = (r.correlated || settings.correlation) := by
  rw [← correlated_correlate]
  by_cases h : r.handlers = []
  · obtain ⟨found, hfound⟩ := exists_configure_eq h settings level
    rw [hfound]
  · rw [configure_of_ne_nil h]

theorem correlation_of_formatOf (h : formatOf settings = .correlated) :
    settings.correlation = true := by
  unfold formatOf at h
  split at h
  · assumption
  · cases h

theorem Sound.configure (h : r.Sound) (settings : Settings) (level : Option Text) :
    (r.configure settings level).2.Sound := by
  have hknown := known_correlate h.known settings
  by_cases hhandlers : r.handlers = []
  · obtain ⟨found, hfound⟩ := exists_configure_eq hhandlers settings level
    rw [hfound]
    refine ⟨by simp, fun hmem => ?_, hknown⟩
    -- The handler that is added shows the context only for settings that have just seen to it.
    have hformat : Format.correlated = formatOf settings := by simpa using hmem
    refine hknown.1 ?_
    rw [correlated_correlate, correlation_of_formatOf hformat.symm, Bool.or_true]
  · rw [configure_of_ne_nil hhandlers]
    refine ⟨by simpa [handlers_correlate] using h.behind, fun hmem => hknown.1 ?_, hknown⟩
    rw [handlers_correlate] at hmem
    rw [correlated_correlate, h.known.2 (h.carried hmem), Bool.true_or]

end Root

end Logging

namespace Session

open Logging (Format Line Root contextTexts fillMessage)

variable {p : Session} {s : Step} {settings : Settings} {format : Format}

/-- The settings that the log is set up by: those made from arguments, or else those of the
session. -/
def settingsFor (p : Session) : Option (List (Text × Datum)) → Except Rejection Settings
  | some arguments => Settings.load arguments p.environment
  | none => p.settings.1

/-- The settings that a step sets up the log by, if it does and they can be had. -/
def setUp? (p : Session) : Step → Option Settings
  | .configure arguments _ => (p.settingsFor arguments).toOption
  | _ => none

/-- A step installs the factory of records with their context. -/
def installs (p : Session) (s : Step) : Bool := (p.setUp? s).any p.log.installs

/-- How many steps of a run install the factory. -/
def installations (p : Session) : List Step → Nat
  | [] => 0
  | s :: rest => (p.installs s).toNat + installations (p.step s).2 rest

/-- What a step makes of the log. -/
inductive LogStep (p : Session) (s : Step) (r : Root) : Prop where
  | same (log_eq : r = p.log) (h : p.setUp? s = none)
  | handler (log_eq : r = p.log.addHandler) (h : p.setUp? s = none)
  | setUp {settings : Settings} {level : Option Text}
      (log_eq : r = (p.log.configure settings level).2) (h : p.setUp? s = some settings)

theorem log_parse (p : Session) (text : Text) (zone : Option Text) :
    (p.parse text zone).2.log = p.log := by
  rcases parse_snd p text zone with h | h <;> rw [h]
  exact log_settings p

section Configure

variable {arguments : Option (List (Text × Datum))} {e : Rejection}

theorem configure_of_ok (h : p.settingsFor arguments = .ok settings) (level : Option Text) :
    (p.configure arguments level).1 = (p.log.configure settings level).1.mapError .fault ∧
      (p.configure arguments level).2.log = (p.log.configure settings level).2 := by
  cases arguments with
  | some arguments =>
      have hload : Settings.load arguments p.environment = .ok settings := h
      simp [configure, hload, setUpLog]
  | none =>
      have hsettings : p.settings.1 = .ok settings := h
      simp [configure_none, hsettings, setUpLog, log_settings]

/-- Without settings a set-up changes nothing. -/
theorem configure_of_error (h : p.settingsFor arguments = .error e) (level : Option Text) :
    p.configure arguments level = (.error e, p) := by
  cases arguments with
  | some arguments =>
      have hload : Settings.load arguments p.environment = .error e := h
      simp [configure, hload]
  | none =>
      have hsettings : p.settings = (.error e, p) := settings_of_error h
      simp [configure_none, hsettings]

end Configure

theorem logStep (p : Session) (s : Step) : LogStep p s (p.step s).2.log := by
  cases s with
  | settings => exact .same (log_settings p) rfl
  | parse text zone => exact .same (log_parse p text zone) rfl
  | addHandler => exact .handler rfl rfl
  | configure arguments level =>
      cases h : p.settingsFor arguments with
      | ok settings => exact .setUp (configure_of_ok h level).2 (toOption_eq_some_iff.2 h)
      | error e =>
          have hsame : (p.step (.configure arguments level)).2.log = p.log := by
            simp [step, configure_of_error h]
          exact .same hsame (by simp [setUp?, h, Except.toOption])
  | _ => exact .same rfl rfl

theorem sound_step (h : p.log.Sound) (s : Step) : (p.step s).2.log.Sound := by
  cases logStep p s with
  | same log_eq _ => rwa [log_eq]
  | handler log_eq _ => exact log_eq ▸ h.addHandler
  | setUp log_eq _ => exact log_eq ▸ h.configure _ _

theorem correlated_step (p : Session) (s : Step) :
    (p.step s).2.log.correlated = (p.log.correlated || p.installs s) := by
  cases logStep p s with
  | same log_eq h => simp [log_eq, installs, h]
  | handler log_eq h => simp [log_eq, installs, h, Root.addHandler]
  | setUp log_eq h =>
      rw [log_eq, Root.correlated_configure, installs, h]
      cases hcorrelated : p.log.correlated <;> simp [Root.installs, hcorrelated]

/-- Only a step that installs the factory of records with their context changes the factory. -/
theorem factory_step (p : Session) (s : Step) :
    (p.step s).2.log.factory = if p.installs s then .correlating else p.log.factory := by
  cases logStep p s with
  | same log_eq h => simp [log_eq, installs, h]
  | handler log_eq h => simp [log_eq, installs, h, Root.addHandler]
  | @setUp settings level log_eq h =>
      have hinstalls : p.installs s = p.log.installs settings := by
        simp [installs, h]
      rw [log_eq, Root.factory_configure, hinstalls, Root.correlate]
      split <;> rfl

theorem format_mem_step (h : some format ∈ p.log.handlers) (s : Step) :
    some format ∈ (p.step s).2.log.handlers := by
  cases logStep p s with
  | same log_eq _ => rwa [log_eq]
  | handler log_eq _ => exact log_eq ▸ List.mem_append_left _ h
  | setUp log_eq _ =>
      rwa [log_eq, Root.configure_of_ne_nil (List.ne_nil_of_mem h), Root.handlers_correlate]

/-- A log with handlers is not touched by a set-up, whatever the settings and the level. -/
theorem step_configure_of_ne_nil (h : p.log.handlers ≠ [])
    (arguments : Option (List (Text × Datum))) (level : Option Text) :
    (p.step (.configure arguments level)).2.log.handlers = p.log.handlers ∧
      (p.step (.configure arguments level)).2.log.level = p.log.level := by
  change (p.configure arguments level).2.log.handlers = _ ∧
    (p.configure arguments level).2.log.level = _
  cases hsettings : p.settingsFor arguments with
  | ok settings =>
      rw [(configure_of_ok hsettings level).2, Root.configure_of_ne_nil h]
      exact ⟨Root.handlers_correlate _ _, Root.level_correlate _ _⟩
  | error e =>
      rw [configure_of_error hsettings]
      exact ⟨rfl, rfl⟩

theorem sound_run (h : p.log.Sound) (steps : List Step) : (p.run steps).log.Sound :=
  run_induction (P := fun p => p.log.Sound) (fun _ s h => sound_step h s) h steps

theorem factory_run (h : p.log.factory = .correlating) (steps : List Step) :
    (p.run steps).log.factory = .correlating := by
  refine run_induction (P := fun p => p.log.factory = .correlating) (fun q s hq => ?_) h steps
  rw [factory_step, hq, ite_self]

theorem format_mem_run (h : some format ∈ p.log.handlers) (steps : List Step) :
    some format ∈ (p.run steps).log.handlers :=
  run_induction (P := fun p => some format ∈ p.log.handlers)
    (fun _ s h => format_mem_step h s) h steps

theorem installs_eq_false (h : p.log.correlated = true) (s : Step) : p.installs s = false := by
  cases hsettings : p.setUp? s <;> simp [installs, hsettings, Root.installs, h]

theorem installations_eq_zero (h : p.log.correlated = true) (steps : List Step) :
    p.installations steps = 0 := by
  induction steps generalizing p with
  | nil => rfl
  | cons s rest ih =>
      have hnext : (p.step s).2.log.correlated = true := by
        rw [correlated_step, h, Bool.true_or]
      rw [installations, installs_eq_false h, ih hnext]
      rfl

theorem installations_le_one (p : Session) (steps : List Step) : p.installations steps ≤ 1 := by
  induction steps generalizing p with
  | nil => exact Nat.zero_le 1
  | cons s rest ih =>
      rw [installations]
      cases hinstalls : p.installs s with
      | false => simpa using ih (p.step s).2
      | true =>
          have hnext : (p.step s).2.log.correlated = true := by
            rw [correlated_step, hinstalls, Bool.or_true]
          rw [installations_eq_zero hnext]
          exact Nat.le_refl 1

/-- A record that is made with its context fits the format of the handler, so nothing but its own
message can keep it from being written. -/
theorem exists_step_log_eq (hfactory : p.log.factory = .correlating)
    (hformat : some format ∈ p.log.handlers) (logger : Text) (level : Int) (message : Text)
    (arguments : List Datum) (context : Option Logging.Context) :
    ∃ header, (p.step (.log logger level message arguments context)).1 =
      ((fillMessage message arguments).map fun text =>
        Answer.line (p.log.line logger level message arguments context)
          (some (header ++ text))).mapError .fault := by
  have hcontext := Root.context_line hfactory logger level message arguments context
  obtain ⟨shown, hshown⟩ : ∃ shown, p.log.format? = some shown :=
    Option.isSome_iff_exists.1 (List.findSome?_isSome_iff.2 ⟨_, hformat, rfl⟩)
  obtain ⟨header, htext⟩ := Line.text_of_context hcontext shown
  refine ⟨header, ?_⟩
  simp only [step, lineText, hshown, htext]
  change (((fillMessage message arguments).map _).map some |>.mapError _).map _ = _
  cases fillMessage message arguments <;> rfl

/-- The log over a whole run that starts without handlers. Only the first handler can have a format.
Once it shows the context of records, every record that is made has its context, and nothing but its
own message can keep it from being written. The factory of such records stays once it is installed,
and it is installed by one step at most. A log with handlers is not touched by a set-up. -/
theorem log_over_run (p : Session) (hhandlers : p.log.handlers = [])
    (hknown : p.log.correlated = true ↔ p.log.factory = .correlating) (steps : List Step) :
    (∀ i format, (p.run steps).log.handlers[i]? = some (some format) → i = 0) ∧
    (some Format.correlated ∈ (p.run steps).log.handlers →
      (p.run steps).log.factory = .correlating ∧
      ∀ later logger level message arguments context,
        let q := p.run (steps ++ later)
        let line := q.log.line logger level message arguments context
        line.context = some (contextTexts context) ∧
          ∃ header, (q.step (.log logger level message arguments context)).1 =
            ((fillMessage message arguments).map fun text =>
              Answer.line line (some (header ++ text))).mapError .fault) ∧
    ((p.run steps).log.factory = .correlating → ∀ later,
      (p.run (steps ++ later)).log.factory = .correlating) ∧
    (p.installations steps ≤ 1 ∧ ∀ s, (p.run steps).installs s = false →
      ((p.run steps).step s).2.log.factory = (p.run steps).log.factory) ∧
    ((p.run steps).log.handlers ≠ [] → ∀ arguments level,
      ((p.run steps).step (.configure arguments level)).2.log.handlers =
          (p.run steps).log.handlers ∧
        ((p.run steps).step (.configure arguments level)).2.log.level = (p.run steps).log.level) := by
  have hsound : (p.run steps).log.Sound :=
    sound_run (Root.sound_of_handlers_eq_nil hhandlers hknown) steps
  refine ⟨fun i format => hsound.eq_zero_of_format, fun hmem => ⟨hsound.carried hmem, ?_⟩, ?_,
    ⟨installations_le_one p steps, fun s hs => ?_⟩, step_configure_of_ne_nil⟩
  · intro later logger level message arguments context q line
    have hq : q = (p.run steps).run later := run_append p steps later
    have hfactory : q.log.factory = .correlating := hq ▸ factory_run (hsound.carried hmem) later
    have hformat : some Format.correlated ∈ q.log.handlers := hq ▸ format_mem_run hmem later
    refine ⟨?_, exists_step_log_eq hfactory hformat logger level message arguments context⟩
    change (q.log.factory.context context) = _
    rw [hfactory]
    rfl
  · intro hfactory later
    rw [run_append]
    exact factory_run hfactory later
  · rw [factory_step, hs]
    rfl

/-- A set-up that fails for its level but leaves a handler, and what follows it: a handler from
outside and settings without context. -/
def contradictingSetUps : List Step :=
  [.configure (some [("otel_log_correlation", .bool true)]) (some "bogus"), .addHandler,
    .configure (some [("otel_log_correlation", .bool false)]) (some "debug")]

theorem log_over_run_contradictingSetUps :
    (initial.run contradictingSetUps).log = ⟨[some .correlated, none], .warning, true, .correlating⟩ ∧
    initial.installations contradictingSetUps ≤ 1 ∧
    (∃ header, ((initial.run contradictingSetUps).step (.log "app" 20 "num=%s" [.int 7] none)).1 =
      .ok (.line ((initial.run contradictingSetUps).log.line "app" 20 "num=%s" [.int 7] none)
        (some (header ++ "num=7")))) ∧
    ((initial.run contradictingSetUps).step (.configure none none)).2.log.level = .warning := by
  have hlog : (initial.run contradictingSetUps).log =
      ⟨[some .correlated, none], .warning, true, .correlating⟩ := by
    decide
  obtain ⟨_, hrecords, _, ⟨honce, _⟩, huntouched⟩ :=
    log_over_run initial rfl (by decide) contradictingSetUps
  refine ⟨hlog, honce, ?_, ?_⟩
  · obtain ⟨_, hlater⟩ := hrecords (by rw [hlog]; decide)
    obtain ⟨_, header, hanswer⟩ := hlater [] "app" 20 "num=%s" [.int 7] none
    have hfill : fillMessage "num=%s" [.int 7] = .ok "num=7" := by rfl
    rw [hfill, List.append_nil] at hanswer
    exact ⟨header, hanswer⟩
  · rw [(huntouched (by rw [hlog]; decide) none none).2, hlog]

end Session

end ActionQuery

import ActionQuery.Proofs.TimeReading
import Mathlib.Data.List.Induction

/-!
# The settings that a session keeps

A session makes its settings from the variables at the first step that asks for them and can have
them, and it keeps them until its cache is cleared. So the settings that it goes by are decided by
the variables as they were at that step, whatever has become of them since. A time with an offset,
and a text that is no time, ask for no settings and depend on none.
-/

namespace ActionQuery

theorem exists_concat_eq_iff {α : Type} {items : List α} {a : α} {P : List α → α → List α → Prop} :
    (∃ before item after, items ++ [a] = before ++ item :: after ∧ P before item after) ↔
      P items a [] ∨
        ∃ before item after, items = before ++ item :: after ∧ P before item (after ++ [a]) := by
  constructor
  · rintro ⟨before, item, after, heq, h⟩
    rcases List.eq_nil_or_concat after with rfl | ⟨rest, last, rfl⟩
    · obtain ⟨rfl, hlast⟩ := List.append_inj' heq rfl
      obtain rfl := List.singleton_inj.1 hlast
      exact Or.inl h
    · rw [List.concat_eq_append, ← List.cons_append, ← List.append_assoc] at heq
      obtain ⟨rfl, hlast⟩ := List.append_inj' heq rfl
      obtain rfl := List.singleton_inj.1 hlast
      exact Or.inr ⟨before, item, rest, rfl, List.concat_eq_append ▸ h⟩
  · rintro (h | ⟨before, item, after, rfl, h⟩)
    · exact ⟨items, a, [], rfl, h⟩
    · exact ⟨before, item, after ++ [a], by simp, h⟩

namespace Session

namespace Step

/-- A step needs the settings of the session: it asks for them, sets up the log without settings of
its own, or reads a local time without being given a zone. -/
def asks : Step → Bool
  | settings => true
  | configure none _ => true
  | parse text none => (NominalTime.readStamp text).toOption.any Calendar.Stamp.isLocal
  | _ => false

def environment (env : Environment) : Step → Environment
  | setVariable name value => env.set name value
  | unsetVariable name => env.unset name
  | _ => env

end Step

def environmentAfter (env : Environment) (steps : List Step) : Environment :=
  steps.foldl Step.environment env

/-- A step that needs settings finds variables that make them, and the cache is not cleared behind
it. -/
structure ReadsAt (env : Environment) (before : List Step) (read : Step) (after : List Step)
    (value : Settings) : Prop where
  asks : read.asks = true
  load : Settings.load [] (environmentAfter env before) = .ok value
  kept : Step.clearCache ∉ after

/-- Settings can be read at some step since the cache was last cleared. -/
def Reads (env : Environment) (steps : List Step) (value : Settings) : Prop :=
  ∃ before read after, steps = before ++ read :: after ∧ ReadsAt env before read after value

/-- These are the settings at the first step since the cache was last cleared at which settings can
be read. -/
def ReadsFirst (env : Environment) (steps : List Step) (value : Settings) : Prop :=
  ∃ before read after, steps = before ++ read :: after ∧
    ReadsAt env before read after value ∧ ∀ other, ¬ Reads env before other

variable {p : Session} {env : Environment} {before after steps : List Step} {read s : Step}
  {value : Settings}

theorem readsAt_nil_iff :
    ReadsAt env before read [] value ↔
      read.asks = true ∧ Settings.load [] (environmentAfter env before) = .ok value :=
  ⟨fun h => ⟨h.asks, h.load⟩, fun h => ⟨h.1, h.2, List.not_mem_nil⟩⟩

theorem readsAt_concat_iff :
    ReadsAt env before read (after ++ [s]) value ↔
      s ≠ .clearCache ∧ ReadsAt env before read after value := by
  constructor
  · rintro ⟨asks, load, kept⟩
    rw [List.mem_append, List.mem_singleton, not_or] at kept
    exact ⟨Ne.symm kept.2, asks, load, kept.1⟩
  · rintro ⟨hs, asks, load, kept⟩
    refine ⟨asks, load, ?_⟩
    rw [List.mem_append, List.mem_singleton, not_or]
    exact ⟨kept, Ne.symm hs⟩

theorem reads_concat_iff :
    Reads env (steps ++ [s]) value ↔
      (s.asks = true ∧ Settings.load [] (environmentAfter env steps) = .ok value) ∨
        s ≠ .clearCache ∧ Reads env steps value := by
  rw [Reads, exists_concat_eq_iff, readsAt_nil_iff]
  simp only [readsAt_concat_iff, Reads]
  tauto

theorem readsFirst_concat_iff :
    ReadsFirst env (steps ++ [s]) value ↔
      ((s.asks = true ∧ Settings.load [] (environmentAfter env steps) = .ok value) ∧
        ∀ other, ¬ Reads env steps other) ∨ s ≠ .clearCache ∧ ReadsFirst env steps value := by
  rw [ReadsFirst, exists_concat_eq_iff, readsAt_nil_iff]
  simp only [readsAt_concat_iff, ReadsFirst]
  tauto

/-- Asking for the settings changes nothing but the cache. -/
theorem exists_settings_eq (p : Session) : ∃ cache, p.settings.2 = { p with cache } := by
  unfold settings
  split
  · exact ⟨p.cache, rfl⟩
  · split
    · exact ⟨_, rfl⟩
    · exact ⟨p.cache, rfl⟩

theorem environment_settings (p : Session) : p.settings.2.environment = p.environment := by
  obtain ⟨cache, hcache⟩ := exists_settings_eq p
  rw [hcache]

theorem log_settings (p : Session) : p.settings.2.log = p.log := by
  obtain ⟨cache, hcache⟩ := exists_settings_eq p
  rw [hcache]

theorem environment_parse (p : Session) (text : Text) (zone : Option Text) :
    (p.parse text zone).2.environment = p.environment := by
  rcases parse_snd p text zone with h | h <;> rw [h]
  exact environment_settings p

theorem configure_none (p : Session) (level : Option Text) :
    p.configure none level =
      match p.settings.1 with
      | .ok settings => p.settings.2.setUpLog settings level
      | .error e => (.error e, p.settings.2) := by
  rw [configure]
  rcases p.settings with ⟨_ | _, _⟩ <;> rfl

theorem environment_configure (p : Session) (arguments : Option (List (Text × Datum)))
    (level : Option Text) : (p.configure arguments level).2.environment = p.environment := by
  cases arguments with
  | some arguments =>
      rw [configure]
      split <;> rfl
  | none =>
      rw [configure_none]
      split <;> exact environment_settings p

theorem environment_step (p : Session) (s : Step) :
    (p.step s).2.environment = s.environment p.environment := by
  cases s with
  | settings => exact environment_settings p
  | parse text zone => exact environment_parse p text zone
  | configure arguments level => exact environment_configure p arguments level
  | _ => rfl

theorem settings_eq_ok_iff : p.settings.1 = .ok value ↔ p.settings.2.cache = some value := by
  unfold settings
  split
  · rename_i hcache
    simp [hcache]
  · split <;> simp [*]

theorem cache_settings (p : Session) :
    p.settings.2.cache = p.cache.or (Settings.load [] p.environment).toOption := by
  unfold settings
  split
  · rename_i hcache
    simp [hcache]
  · split <;> simp [*, Except.toOption]

theorem settings_of_error {e : Rejection} (h : p.settings.1 = .error e) :
    p.settings = (.error e, p) := by
  unfold settings at h ⊢
  cases hcache : p.cache with
  | some kept =>
      rw [hcache] at h
      cases h
  | none =>
      rw [hcache] at h
      cases hload : Settings.load [] p.environment with
      | ok made =>
          rw [hload] at h
          cases h
      | error reason =>
          rw [hload] at h
          cases h
          rfl

theorem asks_parse_iff {text : Text} :
    (Step.parse text none).asks = true ↔
      ∃ stamp, NominalTime.readStamp text = .ok stamp ∧ stamp.isLocal = true := by
  change (NominalTime.readStamp text).toOption.any Calendar.Stamp.isLocal = true ↔ _
  cases NominalTime.readStamp text <;> simp [Except.toOption]

theorem parse_of_local {text : Text} {stamp : Calendar.Stamp}
    (hread : NominalTime.readStamp text = .ok stamp) (hlocal : stamp.isLocal = true) :
    p.parse text none =
      (p.settings.1.bind fun settings => settleIn settings.zone stamp, p.settings.2) := by
  simp only [parse, hread, hlocal, if_true]
  rcases p.settings with ⟨_ | _, _⟩ <;> rfl

/-- A text that gives no local time is read in one way by all sessions, which stay as they are. -/
theorem parse_of_not_local {text : Text}
    (h : ∀ stamp, NominalTime.readStamp text = .ok stamp → stamp.isLocal = false)
    (p q : Session) (zone zone' : Option Text) :
    (p.parse text zone).1 = (q.parse text zone').1 ∧ (p.parse text zone).2 = p := by
  cases hread : NominalTime.readStamp text with
  | error e => simp [parse, hread]
  | ok stamp =>
      obtain ⟨offset, hoffset⟩ : ∃ offset, stamp.offset = some offset := by
        simpa [Calendar.Stamp.isLocal, Option.isNone_eq_false_iff, Option.isSome_iff_exists]
          using h stamp hread
      refine ⟨(parse_of_fixed hread hoffset).trans (parse_of_fixed hread hoffset).symm, ?_⟩
      cases zone <;> simp [parse, hread, h stamp hread]

theorem cache_step_of_asks (h : s.asks = true) : (p.step s).2.cache = p.settings.2.cache := by
  cases s with
  | settings => rfl
  | configure arguments level =>
      cases arguments with
      | some arguments => cases h
      | none =>
          change (p.configure none level).2.cache = _
          rw [configure_none]
          split <;> rfl
  | parse text zone =>
      cases zone with
      | some zone => cases h
      | none =>
          obtain ⟨stamp, hread, hlocal⟩ := asks_parse_iff.1 h
          change (p.parse text none).2.cache = _
          rw [parse_of_local hread hlocal]
  | _ => cases h

theorem cache_step_of_not_asks (h : s.asks = false) (hs : s ≠ .clearCache) :
    (p.step s).2.cache = p.cache := by
  cases s with
  | settings => cases h
  | clearCache => exact absurd rfl hs
  | configure arguments level =>
      cases arguments with
      | none => cases h
      | some arguments =>
          change (p.configure (some arguments) level).2.cache = _
          rw [configure]
          split <;> rfl
  | parse text zone =>
      cases zone with
      | some zone =>
          change (p.parse text (some zone)).2.cache = _
          rw [parse]
          split <;> rfl
      | none =>
          change (p.parse text none).2.cache = _
          rw [(parse_of_not_local (fun stamp hread => ?_) p p none none).2]
          refine Bool.eq_false_iff.2 fun hlocal => ?_
          exact Bool.false_ne_true (h.symm.trans (asks_parse_iff.2 ⟨stamp, hread, hlocal⟩))
  | _ => rfl

/-- A step whose settings cannot be made fails with them and leaves no trace. -/
theorem step_of_error {e : Rejection} (hs : s.asks = true) (h : p.settings.1 = .error e) :
    p.step s = (.error e, p) := by
  have hsettings := settings_of_error h
  cases s with
  | settings => simp [step, hsettings, Except.map]
  | configure arguments level =>
      cases arguments with
      | some arguments => cases hs
      | none => simp [step, configure_none, hsettings, Except.map]
  | parse text zone =>
      cases zone with
      | some zone => cases hs
      | none =>
          obtain ⟨stamp, hread, hlocal⟩ := asks_parse_iff.1 hs
          simp [step, parse_of_local hread hlocal, hsettings, Except.map, Except.bind]
  | _ => cases hs

theorem environment_run (p : Session) (steps : List Step) :
    (p.run steps).environment = environmentAfter p.environment steps := by
  induction steps using List.reverseRecOn with
  | nil => rfl
  | append_singleton steps s ih =>
      rw [run_concat, environment_step, ih, environmentAfter, environmentAfter, List.foldl_append]
      rfl

theorem not_reads_nil : ¬ Reads env [] value := by
  rintro ⟨before, read, after, heq, _⟩
  simp at heq

/-- A session has settings in its cache as soon as a step could read some. -/
theorem cache_run_eq_none_iff (hcache : p.cache = none) :
    (p.run steps).cache = none ↔ ∀ value, ¬ Reads p.environment steps value := by
  induction steps using List.reverseRecOn with
  | nil => simp [run, hcache, not_reads_nil]
  | append_singleton steps s ih =>
      simp only [run_concat, reads_concat_iff]
      by_cases hs : s = .clearCache
      · subst hs
        simp [step, Step.asks]
      · cases hasks : s.asks with
        | true =>
            rw [cache_step_of_asks hasks, cache_settings, environment_run, Option.or_eq_none_iff,
              toOption_eq_none_iff, ih]
            simp only [hs, not_or, not_and, true_implies, ne_eq, not_false_eq_true]
            exact ⟨fun h value => ⟨h.2 value, h.1 value⟩,
              fun h => ⟨fun value => (h value).2, fun value => (h value).1⟩⟩
        | false => simp [cache_step_of_not_asks hasks hs, ih, hs]

/-- What is in the cache are the settings of the first step that could read some. -/
theorem cache_run_eq_some_iff (hcache : p.cache = none) :
    (p.run steps).cache = some value ↔ ReadsFirst p.environment steps value := by
  induction steps using List.reverseRecOn with
  | nil => simp [run, hcache, ReadsFirst]
  | append_singleton steps s ih =>
      rw [run_concat, readsFirst_concat_iff]
      by_cases hs : s = .clearCache
      · subst hs
        simp [step, Step.asks]
      · cases hasks : s.asks with
        | true =>
            rw [cache_step_of_asks hasks, cache_settings, environment_run, Option.or_eq_some_iff,
              toOption_eq_some_iff, ih, cache_run_eq_none_iff hcache]
            tauto
        | false => simp [cache_step_of_not_asks hasks hs, ih, hs]

/-- A step that needs settings goes by those that are in the cache behind it. -/
theorem settings_run_eq_ok_iff (hcache : p.cache = none) (hs : s.asks = true) :
    (p.run steps).settings.1 = .ok value ↔ ReadsFirst p.environment (steps ++ [s]) value := by
  rw [settings_eq_ok_iff, ← cache_step_of_asks hs, ← run_concat, cache_run_eq_some_iff hcache]

theorem settings_run_eq_error {e : Rejection} (hcache : p.cache = none)
    (hnone : ∀ value, ¬ Reads p.environment steps value)
    (hload : Settings.load [] (environmentAfter p.environment steps) = .error e) :
    (p.run steps).settings.1 = .error e := by
  rw [← environment_run] at hload
  rw [settings, (cache_run_eq_none_iff hcache).2 hnone]
  simp only [hload]

/-- The settings of a session over a whole run. Asked for its settings, it answers with those that
the variables made at the first step that could read some since the cache was last cleared, and
every step that needs settings goes by the same. A step that cannot read them fails with what is
wrong with the variables, and the session stays as it was. Settings made from arguments come from
the arguments and the variables of the moment and are not kept. A text that gives no local time has
one outcome, whatever the session and the zone, and leaves the session as it was. -/
theorem settings_of_first_read (p : Session) (hcache : p.cache = none) (steps : List Step) :
    (∀ value, ((p.run steps).step .settings).1 = .ok (.settings value) ↔
      ReadsFirst p.environment (steps ++ [.settings]) value) ∧
    (∀ s value, s.asks = true →
      ((p.run steps).settings.1 = .ok value ↔
        ReadsFirst p.environment (steps ++ [s]) value)) ∧
    (∀ s e, s.asks = true → (∀ value, ¬ Reads p.environment steps value) →
      Settings.load [] (environmentAfter p.environment steps) = .error e →
        (p.run steps).step s = (.error e, p.run steps)) ∧
    (∀ arguments, (p.run steps).step (.newSettings arguments) =
      ((Settings.load arguments (environmentAfter p.environment steps)).map .settings,
        p.run steps)) ∧
    ∀ text, (∀ stamp, NominalTime.readStamp text = .ok stamp → stamp.isLocal = false) →
      ∀ (first second : Session) zone zone',
        (first.parse text zone).1 = (second.parse text zone').1 ∧
          (first.parse text zone).2 = first := by
  refine ⟨fun value => ?_, fun s value hs => settings_run_eq_ok_iff hcache hs,
    fun s e hs hnone hload => step_of_error hs (settings_run_eq_error hcache hnone hload),
    fun arguments => ?_, fun text h => parse_of_not_local h⟩
  · rw [← settings_run_eq_ok_iff hcache rfl]
    change (p.run steps).settings.1.map Answer.settings = _ ↔ _
    simp [map_eq_ok_iff]
  · rw [← environment_run]
    rfl

/-- Settings that cannot be read, then a local time in Kolkata, and then another zone. -/
def changingZones : List Step :=
  [.setVariable "COORD_OTEL_LOG_CORRELATION" "maybe", .settings,
    .unsetVariable "COORD_OTEL_LOG_CORRELATION",
    .setVariable "COORD_PROCESSING_TIMEZONE" "Asia/Kolkata", .parse "2009-01-01T01:00" none,
    .setVariable "COORD_PROCESSING_TIMEZONE" "Europe/London"]

theorem readsFirst_changingZones :
    ReadsFirst [] (changingZones ++ [.settings]) ⟨"Asia/Kolkata", "INFO", true⟩ := by
  refine ⟨changingZones.take 4, .parse "2009-01-01T01:00" none,
    changingZones.drop 5 ++ [.settings], rfl, ⟨by decide, by decide, by simp [changingZones]⟩, ?_⟩
  have hempty : (initial.run (changingZones.take 4)).cache = none := by decide
  exact (cache_run_eq_none_iff rfl).1 hempty

theorem settings_of_first_read_changingZones :
    ((initial.run changingZones).step .settings).1 =
        .ok (.settings ⟨"Asia/Kolkata", "INFO", true⟩) ∧
      (initial.run (changingZones.take 1)).step .settings =
        (.error (.invalid [⟨some "otel_log_correlation", .badTruthValue⟩]),
          initial.run (changingZones.take 1)) ∧
      (initial.parse "2009-01-01T01:00Z" none).1 =
        ((initial.run changingZones).parse "2009-01-01T01:00Z" (some "nowhere")).1 := by
  obtain ⟨hanswer, _, _, _, hfixed⟩ := settings_of_first_read initial rfl changingZones
  obtain ⟨_, _, hfails, _, _⟩ := settings_of_first_read initial rfl (changingZones.take 1)
  refine ⟨(hanswer _).2 readsFirst_changingZones, ?_, ?_⟩
  · have hempty : (initial.run (changingZones.take 1)).cache = none := by decide
    exact hfails .settings _ rfl ((cache_run_eq_none_iff rfl).1 hempty) (by decide)
  · have hzulu : ∀ stamp, NominalTime.readStamp "2009-01-01T01:00Z" = .ok stamp →
        stamp.isLocal = false := by
      intro stamp hread
      have hall : (NominalTime.readStamp "2009-01-01T01:00Z").toOption.all (!·.isLocal) = true := by
        decide
      rw [hread] at hall
      simpa [Except.toOption] using hall
    exact (hfixed _ hzulu initial (initial.run changingZones) none (some "nowhere")).1

end Session

end ActionQuery

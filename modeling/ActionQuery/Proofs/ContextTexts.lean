import ActionQuery.Proofs.HexNumerals
import ActionQuery.Proofs.LogSetUp

/-!
# The ids that log records carry

A log record that is made with its context carries two texts of 32 and 16 digits. Digits to a width
are as many as the width only for numbers that fit into it, and it is the validity of a context that
sees to this: ids of a valid context fit, so their texts have the right width and read back as the
ids. Every other context is shown like none, and one id that would fit does not save it.

Records carry such texts from the first set-up on whose settings ask for them. A set-up installs its
factory of records before it comes to the level, so one that fails for its level counts too.
-/

namespace ActionQuery

namespace Logging

/-- Both ids are there and fit into 128 and 64 bits. -/
def Context.InRange (c : Context) : Prop :=
  0 < c.trace ∧ c.trace < 2 ^ 128 ∧ 0 < c.span ∧ c.span < 2 ^ 64

instance (c : Context) : Decidable c.InRange :=
  inferInstanceAs (Decidable (0 < c.trace ∧ c.trace < 2 ^ 128 ∧ 0 < c.span ∧ c.span < 2 ^ 64))

variable {c d : Context} {context : Option Context}

theorem Context.isValid_iff : c.isValid = true ↔ c.InRange := by
  have htrace : Nat.pow 16 32 = 2 ^ 128 := by decide
  have hspan : Nat.pow 16 16 = 2 ^ 64 := by decide
  simp only [isValid, htrace, hspan, Bool.and_eq_true, decide_eq_true_eq, and_assoc, InRange]

theorem contextTexts_of_inRange (h : c.InRange) :
    contextTexts (some c) = ⟨Text.hex 32 c.trace, Text.hex 16 c.span⟩ := by
  rw [contextTexts, Option.filter_some_pos (Context.isValid_iff.2 h)]

/-- A context that is not valid as a whole is shown like none. -/
theorem contextTexts_of_not_inRange (h : ∀ c, context = some c → ¬ c.InRange) :
    contextTexts context = ⟨List.replicate 32 '0', List.replicate 16 '0'⟩ := by
  have hfilter : context.filter Context.isValid = none := by
    rw [Option.filter_eq_none_iff]
    intro c hc hvalid
    exact h c hc (Context.isValid_iff.1 hvalid)
  rw [contextTexts, hfilter]

theorem isHexNumeral_contextTexts (context : Option Context) :
    Text.IsHexNumeral 32 (contextTexts context).trace ∧
      Text.IsHexNumeral 16 (contextTexts context).span := by
  -- Digits of an id are printed only if it fits, so neither text can grow beyond its width.
  by_cases h : ∃ c, context = some c ∧ c.InRange
  · obtain ⟨c, rfl, hc⟩ := h
    have htrace : c.trace < 16 ^ 32 := hc.2.1
    have hspan : c.span < 16 ^ 16 := hc.2.2.2
    rw [contextTexts_of_inRange hc]
    exact ⟨Text.isHexNumeral_hex (by decide) htrace, Text.isHexNumeral_hex (by decide) hspan⟩
  · rw [contextTexts_of_not_inRange fun c hcontext hc => h ⟨c, hcontext, hc⟩]
    exact ⟨Text.isHexNumeral_zeros (by decide), Text.isHexNumeral_zeros (by decide)⟩

theorem readHex?_contextTexts (h : c.InRange) :
    Text.readHex? (contextTexts (some c)).trace = some c.trace ∧
      Text.readHex? (contextTexts (some c)).span = some c.span := by
  rw [contextTexts_of_inRange h]
  exact ⟨Text.readHex?_hex 32 c.trace, Text.readHex?_hex 16 c.span⟩

theorem contextTexts_ne_zeros (h : c.InRange) :
    (contextTexts (some c)).trace ≠ List.replicate 32 '0' ∧
      (contextTexts (some c)).span ≠ List.replicate 16 '0' := by
  rw [contextTexts_of_inRange h]
  exact ⟨fun htrace => Nat.ne_of_gt h.1 ((Text.hex_eq_zeros_iff (by decide)).1 htrace),
    fun hspan => Nat.ne_of_gt h.2.2.1 ((Text.hex_eq_zeros_iff (by decide)).1 hspan)⟩

/-- Contexts in range with the same texts are the same, because the texts can be read. -/
theorem eq_of_contextTexts_eq (hc : c.InRange) (hd : d.InRange)
    (h : contextTexts (some c) = contextTexts (some d)) : c = d := by
  obtain ⟨htrace, hspan⟩ := readHex?_contextTexts hc
  obtain ⟨htrace', hspan'⟩ := readHex?_contextTexts hd
  rw [h, htrace'] at htrace
  rw [h, hspan'] at hspan
  cases c
  cases d
  cases htrace
  cases hspan
  rfl

end Logging

namespace Session

open Logging (Context Root contextTexts fillMessage)

variable {p : Session} {s : Step} {steps : List Step}

/-- A step sets up the log by settings that ask for records with their context. -/
def correlates (p : Session) (s : Step) : Bool := (p.setUp? s).any Settings.correlation

/-- Some step of a run does, whatever comes of it. -/
def Correlates (p : Session) (steps : List Step) : Prop :=
  ∃ before s after, steps = before ++ s :: after ∧ (p.run before).correlates s = true

/-- What a step makes of the mark that the factory is in place, in terms of the settings alone. -/
theorem correlated_step_eq_or (p : Session) (s : Step) :
    (p.step s).2.log.correlated = (p.log.correlated || p.correlates s) := by
  rw [correlated_step, installs, correlates]
  cases p.setUp? s with
  | none => rfl
  | some settings => cases hcorrelated : p.log.correlated <;> simp [Root.installs, hcorrelated]

/-- The mark tells the truth about the factory, and every step leaves it so. -/
theorem known_step (h : p.log.correlated = true ↔ p.log.factory = .correlating) (s : Step) :
    (p.step s).2.log.correlated = true ↔ (p.step s).2.log.factory = .correlating := by
  cases logStep p s with
  | same log_eq _ => rwa [log_eq]
  | handler log_eq _ => rwa [log_eq]
  | setUp log_eq _ =>
      rw [log_eq, Root.correlated_configure, Root.factory_configure,
        ← Root.correlated_correlate]
      exact Root.known_correlate h _

/-- A record with its context is given out, with handlers or without, if only its message can be
filled. -/
theorem exists_step_log_of_filled (hfactory : p.log.factory = .correlating) (logger : Text)
    (level : Int) {message filled : Text} {arguments : List Datum} (context : Option Context)
    (hfilled : fillMessage message arguments = .ok filled) :
    ∃ text, (p.step (.log logger level message arguments context)).1 =
      .ok (.line (p.log.line logger level message arguments context) text) := by
  cases hformat : p.log.format? with
  | none =>
      refine ⟨none, ?_⟩
      simp [step, lineText, hformat, Except.map]
  | some format =>
      obtain ⟨handler, hmem, hhandler⟩ := List.exists_of_findSome?_eq_some hformat
      obtain rfl : handler = some format := hhandler
      obtain ⟨header, hanswer⟩ :=
        exists_step_log_eq hfactory hmem logger level message arguments context
      refine ⟨some (header ++ filled), ?_⟩
      rw [hanswer, hfilled]
      rfl

theorem correlated_run_iff :
    (p.run steps).log.correlated = true ↔ p.log.correlated = true ∨ p.Correlates steps := by
  induction steps using List.reverseRecOn with
  | nil => simp [run, Correlates]
  | append_singleton steps s ih =>
      rw [run_concat, correlated_step_eq_or, Bool.or_eq_true, ih, Correlates, Correlates,
        exists_concat_eq_iff]
      exact or_assoc.trans (or_congr_right or_comm)

theorem known_run (h : p.log.correlated = true ↔ p.log.factory = .correlating)
    (steps : List Step) :
    (p.run steps).log.correlated = true ↔ (p.run steps).log.factory = .correlating :=
  run_induction (P := fun p => p.log.correlated = true ↔ p.log.factory = .correlating)
    (fun _ s h => known_step h s) h steps

/-- The ids that log records carry in a run that has set up the log for them. Every record carries
the texts of its context, and it is given out if its message can be filled. The texts have 32 and 16
hexadecimal digits. Those of a context in range read back as its ids, so they are not all zeros and
belong to no other context in range. All other contexts are shown by zeros alone. -/
theorem contextTexts_over_run (p : Session)
    (hknown : p.log.correlated = true ↔ p.log.factory = .correlating) (steps : List Step)
    (hcorrelates : p.log.correlated = true ∨ p.Correlates steps) :
    (∀ logger level message arguments context,
      let record := (p.run steps).log.line logger level message arguments context
      record.context = some (contextTexts context) ∧
        ∀ filled, fillMessage message arguments = .ok filled → ∃ text,
          ((p.run steps).step (.log logger level message arguments context)).1 =
            .ok (.line record text)) ∧
    (∀ context, Text.IsHexNumeral 32 (contextTexts context).trace ∧
      Text.IsHexNumeral 16 (contextTexts context).span) ∧
    (∀ c : Context, c.InRange →
      (Text.readHex? (contextTexts (some c)).trace = some c.trace ∧
        Text.readHex? (contextTexts (some c)).span = some c.span) ∧
      (contextTexts (some c)).trace ≠ List.replicate 32 '0' ∧
        (contextTexts (some c)).span ≠ List.replicate 16 '0') ∧
    (∀ c d : Context, c.InRange → d.InRange → c ≠ d →
      contextTexts (some c) ≠ contextTexts (some d)) ∧
    (∀ context, (∀ c, context = some c → ¬ c.InRange) →
      contextTexts context = ⟨List.replicate 32 '0', List.replicate 16 '0'⟩) := by
  have hfactory : (p.run steps).log.factory = .correlating :=
    (known_run hknown steps).1 (correlated_run_iff.2 hcorrelates)
  refine ⟨fun logger level message arguments context => ?_, Logging.isHexNumeral_contextTexts,
    fun c hc => ⟨Logging.readHex?_contextTexts hc, Logging.contextTexts_ne_zeros hc⟩, ?_,
    fun context => Logging.contextTexts_of_not_inRange⟩
  · exact ⟨Root.context_line hfactory logger level message arguments context,
      fun filled => exists_step_log_of_filled hfactory logger level context⟩
  · intro c d hc hd hne heq
    exact hne (Logging.eq_of_contextTexts_eq hc hd heq)

/-- A set-up that fails for its level, behind which records carry their context. -/
def refusedSetUp : List Step :=
  [.configure (some [("otel_log_correlation", .bool true)]) (some "bogus")]

def leadingZero : Context := ⟨0x5b8efff798038103d269b633813fc60c, 0x051581bf3cb55c13⟩

def greatest : Context := ⟨2 ^ 128 - 1, 2 ^ 64 - 1⟩

/-- One of its ids would fit. -/
def halfInRange : Context := ⟨2 ^ 128, 1⟩

theorem contextTexts_over_refusedSetUp :
    let q := initial.run refusedSetUp
    let record := fun context => q.log.line "app" 20 "num=%d" [.int 7] context
    (initial.Correlates refusedSetUp ∧ leadingZero.InRange ∧ greatest.InRange ∧
      leadingZero ≠ greatest ∧ ¬ halfInRange.InRange) ∧
    (record (some leadingZero)).context =
      some ⟨"5b8efff798038103d269b633813fc60c", "051581bf3cb55c13"⟩ ∧
    (∃ text, (q.step (.log "app" 20 "num=%d" [.int 7] (some leadingZero))).1 =
      .ok (.line (record (some leadingZero)) text)) ∧
    Text.readHex? (contextTexts (some greatest)).trace = some (2 ^ 128 - 1) ∧
    contextTexts (some leadingZero) ≠ contextTexts (some greatest) ∧
    (record (some halfInRange)).context =
      some ⟨List.replicate 32 '0', List.replicate 16 '0'⟩ := by
  intro q record
  have hcorrelates : initial.Correlates refusedSetUp := ⟨[], _, [], rfl, by decide⟩
  have hfirst : leadingZero.InRange := by decide
  have hgreatest : greatest.InRange := by decide
  have hne : leadingZero ≠ greatest := by decide
  have hhalf : ¬ halfInRange.InRange := by decide
  have hfill : fillMessage "num=%d" [.int 7] = .ok "num=7" := by rfl
  have htexts : contextTexts (some leadingZero) =
      ⟨"5b8efff798038103d269b633813fc60c", "051581bf3cb55c13"⟩ := by
    decide +kernel
  obtain ⟨hrecords, _, hread, hdistinct, hzeros⟩ :=
    contextTexts_over_run initial (by decide) refusedSetUp (Or.inr hcorrelates)
  obtain ⟨hcontext, hanswer⟩ := hrecords "app" 20 "num=%d" [.int 7] (some leadingZero)
  obtain ⟨hhalfContext, _⟩ := hrecords "app" 20 "num=%d" [.int 7] (some halfInRange)
  refine ⟨⟨hcorrelates, hfirst, hgreatest, hne, hhalf⟩, hcontext.trans (by rw [htexts]),
    hanswer _ hfill, (hread greatest hgreatest).1.1, hdistinct _ _ hfirst hgreatest hne, ?_⟩
  rw [hhalfContext, hzeros]
  rintro _ ⟨⟩
  exact hhalf

end Session

end ActionQuery

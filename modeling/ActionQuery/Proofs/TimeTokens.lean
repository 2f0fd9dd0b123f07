import ActionQuery.Proofs.Elements
import ActionQuery.Proofs.Runs

/-!
# What an element of a scope of times is

A pair of colons makes an element a range, and what stands around the pair is its two ends; without a
pair the whole element is a time. This says when an element has a meaning and what else is wrong with
it, without following the steps in which it is read: its shape comes before its times, the first end
before the second, and the order of the two last.

The order of two times is that of the points of time, except when both are shown by one clock. Then
they stand as the clock shows them, also when it was set back in between.
-/

namespace ActionQuery

namespace Text

variable {c : Char} {t piece : Text} {pieces : List Text}

theorem colonsApart_iff {t : Text} : ColonsApart t ↔ ¬ [':', ':'] <:+: t := by
  induction t with
  | nil => simp [ColonsApart]
  | cons c t ih =>
      have hcons : ColonsApart (c :: t) ↔ (∀ d ∈ t.head?, c = ':' → d ≠ ':') ∧ ColonsApart t :=
        List.isChain_cons
      rw [hcons, ih, List.infix_cons_iff, not_or]
      refine and_congr_left fun _ => ?_
      cases t with
      | nil => simp
      | cons d t => simp [List.cons_prefix_cons, eq_comm]

/-- The pieces of a text around its pairs of colons. Each pair is the first that there is behind the
one before it, and so no two of them overlap. -/
inductive Pieces : Text → List Text → Prop where
  | last {t : Text} (h : ¬ [':', ':'] <:+: t) : Pieces t [t]
  | pair {front rest : Text} {pieces : List Text} (hfirst : ¬ [':', ':'] <:+: front ++ [':'])
      (hrest : Pieces rest pieces) : Pieces (front ++ ':' :: ':' :: rest) (front :: pieces)

theorem splitAtColons_of_pieces (h : Pieces t pieces) : splitAtColons t = pieces := by
  induction h with
  | last h => exact splitAtColons_of_apart (colonsApart_iff.2 h)
  | @pair front rest pieces hfirst _ ih =>
      have hapart := List.isChain_append.1 (colonsApart_iff.2 hfirst)
      have hlast : front.getLast? ≠ some ':' := fun hcolon =>
        hapart.2.2 ':' hcolon ':' rfl rfl rfl
      rw [splitAtColons_append hapart.1 hlast, ih]

/-- A character in front belongs to the first piece unless it makes a pair. -/
theorem Pieces.cons (h : Pieces t (piece :: pieces)) (hpair : c = ':' → t.head? ≠ some ':') :
    Pieces (c :: t) ((c :: piece) :: pieces) := by
  have hpush {front : Text} (hfront : ¬ [':', ':'] <:+: front)
      (hhead : c = ':' → front.head? ≠ some ':') : ¬ [':', ':'] <:+: c :: front := by
    rw [← colonsApart_iff] at hfront ⊢
    exact List.isChain_cons.2 ⟨fun d hd hc heq => hhead hc (heq ▸ hd), hfront⟩
  cases h with
  | last h => exact .last (hpush h hpair)
  | @pair _ rest _ hfirst hrest =>
      refine @Pieces.pair (c :: piece) rest pieces (hpush hfirst fun hc hcolon => ?_) hrest
      have hhead := hpair hc
      cases piece with
      | nil => exact hhead rfl
      | cons d piece => exact hhead hcolon

theorem pieces_splitAtColons (t : Text) : Pieces t (splitAtColons t) := by
  induction t using splitAtColons.induct with
  | case1 => exact .last (by simp)
  | case2 rest ih => exact @Pieces.pair [] rest _ (by decide) ih
  | case3 c rest hnot hnil => exact absurd hnil (splitAtColons_ne_nil rest)
  | case4 c rest hnot piece pieces hpieces ih =>
      have hpair : c = ':' → rest.head? ≠ some ':' := by
        rintro rfl hhead
        obtain ⟨more, rfl⟩ := List.head?_eq_some_iff.1 hhead
        exact hnot more rfl rfl
      rw [splitAtColons_cons hpair, hpieces]
      exact Pieces.cons (hpieces ▸ ih) hpair

theorem splitAtColons_eq_iff : splitAtColons t = pieces ↔ Pieces t pieces := by
  constructor
  · rintro rfl
    exact pieces_splitAtColons t
  · exact splitAtColons_of_pieces

theorem Pieces.eq_append {first second : Text} (h : Pieces t [first, second]) :
    t = first ++ ':' :: ':' :: second := by
  cases h with
  | pair _ hrest =>
      cases hrest with
      | last => rfl
      | pair _ hnone => cases hnone

/-- A pair of colons makes two pieces at least. -/
theorem Pieces.length_ne_one (h : Pieces t pieces) (hpair : [':', ':'] <:+: t) :
    pieces.length ≠ 1 := by
  cases h with
  | last hapart => exact absurd hpair hapart
  | pair _ hrest =>
      rw [← splitAtColons_of_pieces hrest, List.length_cons]
      exact fun hone => splitAtColons_ne_nil _ (List.length_eq_zero_iff.1 (Nat.succ.inj hone))

/-- Two pieces with something but white space in each, as the ends of a range are. -/
def AreEnds : List Text → Prop
  | [first, second] => blank first = false ∧ blank second = false
  | _ => False

end Text

namespace Calendar.Stamp

variable {a b : Stamp}

/-- One time is not after another: as their clock shows them when they share one, and otherwise as
points of time. -/
def Precedes (a b : Stamp) : Prop :=
  (a.sharesClock b = true → a.wall.micros ≤ b.wall.micros) ∧
    (a.sharesClock b = false → a.position ≤ b.position)

instance (a b : Stamp) : Decidable (a.Precedes b) := inferInstanceAs (Decidable (_ ∧ _))

theorem le?_of_fixed (ha : a.isLocal = false) (hb : b.isLocal = false) :
    a.le? b = some (decide (a.Precedes b)) := by
  cases hclock : a.sharesClock b with
  | false => simp [le?_of_apart hclock (ha.trans hb.symm), Precedes, hclock]
  | true => simp [le?, Precedes, hclock]

/-- Times of different clocks, or of one clock that was not set in between, stand in the order of
the points of time. -/
theorem precedes_iff (h : a.sharesClock b = false ∨ a.offset = b.offset) :
    a.Precedes b ↔ a.position ≤ b.position := by
  cases hclock : a.sharesClock b with
  | false => simp [Precedes, hclock]
  | true =>
      have hoffset : a.offset = b.offset := h.resolve_left (by simp [hclock])
      simp [Precedes, hclock, position, hoffset]

end Calendar.Stamp

namespace Scope

open Calendar (Stamp)

namespace TimeToken

variable {reader : TimeReader} {element carried code : Text} {reads : List Text} {token : TimeToken}

/-- What an element stands for, with the texts that are read for it in order. -/
inductive Means (reader : TimeReader) (element : Text) : TimeToken → List Text → Prop where
  | single {time : Stamp} (hpair : ¬ [':', ':'] <:+: element) (htime : reader element = .ok time) :
      Means reader element (.single time element) [element]
  | range {first second : Text} {start stop : Stamp}
      (hpieces : Text.Pieces element [first, second]) (hends : Text.AreEnds [first, second])
      (hstart : reader (Text.trim first) = .ok start)
      (hstop : reader (Text.trim second) = .ok stop) (horder : start.Precedes stop) :
      Means reader element (.range ⟨start, stop, element⟩) [Text.trim first, Text.trim second]

theorem Means.precedes {r : TimeRange} (h : Means reader element (.range r) reads) :
    r.start.Precedes r.stop := by
  cases h with
  | range _ _ _ _ horder => exact horder

/-- What is wrong with an element: the text that is complained of, the code of the complaint and the
texts that are read before it is made. -/
inductive Flawed (reader : TimeReader) (element : Text) : Text → Text → List Text → Prop where
  | time (hpair : ¬ [':', ':'] <:+: element) (htime : ∀ time, reader element ≠ .ok time) :
      Flawed reader element element "E0302" [element]
  | shape {pieces : List Text} (hpair : [':', ':'] <:+: element)
      (hpieces : Text.Pieces element pieces) (hends : ¬ Text.AreEnds pieces) :
      Flawed reader element element "E0302" []
  | start {first second : Text} (hpieces : Text.Pieces element [first, second])
      (hends : Text.AreEnds [first, second])
      (hstart : ∀ time, reader (Text.trim first) ≠ .ok time) :
      Flawed reader element (Text.trim first) "E0302" [Text.trim first]
  | stop {first second : Text} {start : Stamp} (hpieces : Text.Pieces element [first, second])
      (hends : Text.AreEnds [first, second]) (hstart : reader (Text.trim first) = .ok start)
      (hstop : ∀ time, reader (Text.trim second) ≠ .ok time) :
      Flawed reader element (Text.trim second) "E0302" [Text.trim first, Text.trim second]
  | order {first second : Text} {start stop : Stamp}
      (hpieces : Text.Pieces element [first, second]) (hends : Text.AreEnds [first, second])
      (hstart : reader (Text.trim first) = .ok start)
      (hstop : reader (Text.trim second) = .ok stop) (horder : ¬ start.Precedes stop) :
      Flawed reader element element "E0308" [Text.trim first, Text.trim second]

/-- An element is refused with a text and a code. -/
def Refused (reader : TimeReader) (element carried code : Text) (reads : List Text) : Prop :=
  ∃ flaw : FormatError, ofText reader element = (.error (.format flaw), reads) ∧
    flaw.token = some carried ∧ flaw.code = code

theorem ofText_of_apart (h : ¬ [':', ':'] <:+: element) :
    ofText reader element = ((readTime reader element).map (.single · element), [element]) := by
  rw [ofText, Text.splitAtColons_of_pieces (.last h)]

theorem trim_ne_nil_of_areEnds {first second : Text} (h : Text.AreEnds [first, second]) :
    ¬ (Text.trim first = [] ∨ Text.trim second = []) := by
  rw [Text.trim_eq_nil_iff, Text.trim_eq_nil_iff, h.1, h.2]
  simp

theorem ofText_of_ends {first second : Text} (hpieces : Text.Pieces element [first, second])
    (hends : Text.AreEnds [first, second]) :
    ofText reader element = match readTime reader (Text.trim first) with
      | .error e => (.error e, [Text.trim first])
      | .ok start => ((readTime reader (Text.trim second)).bind (ofEnds element start),
          [Text.trim first, Text.trim second]) := by
  cases hstart : readTime reader (Text.trim first) with
  | error e =>
    simp [ofText, Text.splitAtColons_of_pieces hpieces, trim_ne_nil_of_areEnds hends, hstart]
  | ok start =>
    simp [ofText, Text.splitAtColons_of_pieces hpieces, trim_ne_nil_of_areEnds hends, hstart]

theorem ofText_of_shape {pieces : List Text} (hpair : [':', ':'] <:+: element)
    (hpieces : Text.Pieces element pieces) (hends : ¬ Text.AreEnds pieces) :
    ofText reader element = (.error (.format (.timeRangeShape element)), []) := by
  have hlength := hpieces.length_ne_one hpair
  rw [ofText, Text.splitAtColons_of_pieces hpieces]
  split
  · exact absurd rfl hlength
  · rename_i first second
    refine if_pos ?_
    rw [Text.trim_eq_nil_iff, Text.trim_eq_nil_iff]
    by_contra hnot
    simp only [not_or, Bool.not_eq_true] at hnot
    exact hends hnot
  · rfl

section Reader

variable (hfixed : ∀ t time, reader t = .ok time → time.isLocal = false)
variable (hkind : ∀ t reason, reader t = .error reason → reason.kind = .unreadable)

include hkind in
theorem readTime_of_forall_ne {t : Text} (h : ∀ time, reader t ≠ .ok time) :
    ∃ reason, readTime reader t = .error (.format (.unreadableTime t reason)) := by
  cases hread : reader t with
  | ok time => exact absurd hread (h time)
  | error reason =>
      refine ⟨reason, ?_⟩
      simp only [readTime, hread, if_pos (hkind t reason hread)]

include hfixed in
theorem ofText_of_means (h : Means reader element token reads) :
    ofText reader element = (.ok token, reads) := by
  cases h with
  | single hpair htime =>
      rw [ofText_of_apart hpair, readTime_eq_ok_iff.2 htime]
      rfl
  | range hpieces hends hstart hstop horder =>
      have hle := Stamp.le?_of_fixed (hfixed _ _ hstart) (hfixed _ _ hstop)
      rw [decide_eq_true horder] at hle
      rw [ofText_of_ends hpieces hends, readTime_eq_ok_iff.2 hstart, readTime_eq_ok_iff.2 hstop]
      simp only [Except.bind, ofEnds, hle]

include hfixed hkind in
theorem refused_of_flawed (h : Flawed reader element carried code reads) :
    Refused reader element carried code reads := by
  cases h with
  | time hpair htime =>
      obtain ⟨reason, hread⟩ := readTime_of_forall_ne hkind htime
      refine ⟨.unreadableTime element reason, ?_, rfl, rfl⟩
      rw [ofText_of_apart hpair, hread]
      rfl
  | shape hpair hpieces hends =>
      exact ⟨.timeRangeShape element, ofText_of_shape hpair hpieces hends, rfl, rfl⟩
  | start hpieces hends hstart =>
      obtain ⟨reason, hread⟩ := readTime_of_forall_ne hkind hstart
      refine ⟨.unreadableTime _ reason, ?_, rfl, rfl⟩
      rw [ofText_of_ends hpieces hends, hread]
  | stop hpieces hends hstart hstop =>
      obtain ⟨reason, hread⟩ := readTime_of_forall_ne hkind hstop
      refine ⟨.unreadableTime _ reason, ?_, rfl, rfl⟩
      rw [ofText_of_ends hpieces hends, readTime_eq_ok_iff.2 hstart, hread]
      rfl
  | order hpieces hends hstart hstop horder =>
      have hle := Stamp.le?_of_fixed (hfixed _ _ hstart) (hfixed _ _ hstop)
      rw [decide_eq_false horder] at hle
      refine ⟨.timeRangeOrder element, ?_, rfl, rfl⟩
      rw [ofText_of_ends hpieces hends, readTime_eq_ok_iff.2 hstart, readTime_eq_ok_iff.2 hstop]
      simp only [Except.bind, ofEnds, hle]

/-- Nothing is left out: an element without a meaning has a flaw. -/
theorem means_or_flawed (reader : TimeReader) (element : Text) :
    (∃ token reads, Means reader element token reads) ∨
      ∃ carried code reads, Flawed reader element carried code reads := by
  have hread (t : Text) : (∃ time, reader t = .ok time) ∨ ∀ time, reader t ≠ .ok time := by
    rw [← not_exists]
    exact Classical.em _
  have hpieces := Text.pieces_splitAtColons element
  by_cases hpair : [':', ':'] <:+: element
  · by_cases hends : Text.AreEnds (Text.splitAtColons element)
    · -- the two ends are read one after the other, and their order is looked at last
      generalize Text.splitAtColons element = pieces at hpieces hends
      match pieces, hends with
      | [first, second], hends =>
        rcases hread (Text.trim first) with ⟨start, hstart⟩ | hstart
        · rcases hread (Text.trim second) with ⟨stop, hstop⟩ | hstop
          · by_cases horder : start.Precedes stop
            · exact Or.inl ⟨_, _, .range hpieces hends hstart hstop horder⟩
            · exact Or.inr ⟨_, _, _, .order hpieces hends hstart hstop horder⟩
          · exact Or.inr ⟨_, _, _, .stop hpieces hends hstart hstop⟩
        · exact Or.inr ⟨_, _, _, .start hpieces hends hstart⟩
    · exact Or.inr ⟨_, _, _, .shape hpair hpieces hends⟩
  · rcases hread element with ⟨time, htime⟩ | htime
    · exact Or.inl ⟨_, _, .single hpair htime⟩
    · exact Or.inr ⟨_, _, _, .time hpair htime⟩

include hfixed hkind in
theorem means_of_ofText (h : ofText reader element = (.ok token, reads)) :
    Means reader element token reads := by
  rcases means_or_flawed reader element with ⟨_, _, hmeans⟩ | ⟨_, _, _, hflawed⟩
  · cases h.symm.trans (ofText_of_means hfixed hmeans)
    exact hmeans
  · obtain ⟨flaw, hflaw, _⟩ := refused_of_flawed hfixed hkind hflawed
    cases h.symm.trans hflaw

include hfixed hkind in
theorem flawed_of_refused (h : Refused reader element carried code reads) :
    Flawed reader element carried code reads := by
  obtain ⟨flaw, hflaw, hcarried, hcode⟩ := h
  rcases means_or_flawed reader element with ⟨_, _, hmeans⟩ | ⟨_, _, _, hflawed⟩
  · cases hflaw.symm.trans (ofText_of_means hfixed hmeans)
  · obtain ⟨other, hother, hcarried', hcode'⟩ := refused_of_flawed hfixed hkind hflawed
    cases hflaw.symm.trans hother
    cases hcarried.symm.trans hcarried'
    cases hcode.symm.trans hcode'
    exact hflawed

end Reader

/-- An element is taken for what it means, and without a meaning it is refused for what is wrong with
it first: its shape before anything is read, an end that is no time before the order of the two. A
reader that gives times with an offset or says that a text is no time leaves no other outcome, and so
a range never ends before it starts: not as the clock of both ends shows them, and not as points of
time unless this clock was set in between. -/
theorem ofText_by_pieces (reader : TimeReader) (element : Text)
    (hfixed : ∀ t time, reader t = .ok time → time.isLocal = false)
    (hkind : ∀ t reason, reader t = .error reason → reason.kind = .unreadable) :
    (∀ token reads, ofText reader element = (.ok token, reads) ↔
      Means reader element token reads) ∧
    (∀ carried code reads, Refused reader element carried code reads ↔
      Flawed reader element carried code reads) ∧
    ((∃ token reads, ofText reader element = (.ok token, reads)) ∨
      ∃ carried code reads, Refused reader element carried code reads) ∧
    ∀ r, (ofText reader element).1 = .ok (.range r) → r.start.Precedes r.stop ∧
      (r.start.sharesClock r.stop = false ∨ r.start.offset = r.stop.offset →
        r.start.position ≤ r.stop.position) := by
  refine ⟨fun token reads => ⟨means_of_ofText hfixed hkind, ofText_of_means hfixed⟩,
    fun carried code reads =>
      ⟨flawed_of_refused hfixed hkind, refused_of_flawed hfixed hkind⟩, ?_, fun r hr => ?_⟩
  · rcases means_or_flawed reader element with ⟨token, reads, h⟩ | ⟨carried, code, reads, h⟩
    · exact Or.inl ⟨token, reads, ofText_of_means hfixed h⟩
    · exact Or.inr ⟨carried, code, reads, refused_of_flawed hfixed hkind h⟩
  · have hrange : ofText reader element = (.ok (.range r), (ofText reader element).2) :=
      Prod.ext hr rfl
    have horder := (means_of_ofText hfixed hkind hrange).precedes
    exact ⟨horder, fun hclock => (Stamp.precedes_iff hclock).1 horder⟩

/-- A reader that knows two words. -/
def knowing (first second : Text) (time other : Stamp) : TimeReader := fun t =>
  if t = first then .ok time else if t = second then .ok other
  else .error ⟨.unreadable, "no time of day".toList⟩

theorem isLocal_of_knowing {first second t : Text} {time other found : Stamp}
    (htime : time.isLocal = false) (hother : other.isLocal = false)
    (h : knowing first second time other t = .ok found) : found.isLocal = false := by
  unfold knowing at h
  split at h
  · cases h
    exact htime
  · split at h
    · cases h
      exact hother
    · cases h

theorem kind_of_knowing {first second t : Text} {time other : Stamp} {reason : Fault}
    (h : knowing first second time other t = .error reason) : reason.kind = .unreadable := by
  unfold knowing at h
  split at h
  · cases h
  · split at h
    · cases h
    · cases h
      rfl

/-- Noon in UTC. -/
def noon : Stamp :=
  ⟨⟨12 * 3600 * Calendar.microsPerSecond, by decide⟩, some (.steady Calendar.Offset.utc)⟩

/-- Half an hour before noon, as a clock two hours to the east shows it. -/
def lunch : Stamp :=
  ⟨⟨13 * 3600 * Calendar.microsPerSecond + 1800 * Calendar.microsPerSecond, by decide⟩,
    (Calendar.Offset.ofMinutes? 120).map .steady⟩

/-- The later clock shows the earlier time. -/
def dial : TimeReader := knowing "noon" "lunch" noon lunch

theorem ofText_by_pieces_of_dial :
    (∀ t time, dial t = .ok time → time.isLocal = false) ∧
    (∀ t reason, dial t = .error reason → reason.kind = .unreadable) ∧
    Means dial " lunch:: noon".toList (.range ⟨lunch, noon, " lunch:: noon".toList⟩)
      ["lunch".toList, "noon".toList] ∧
    Flawed dial "noon::lunch".toList "noon::lunch".toList "E0308".toList
      ["noon".toList, "lunch".toList] ∧
    Flawed dial "noon:::lunch".toList ":lunch".toList "E0302".toList
      ["noon".toList, ":lunch".toList] ∧
    Flawed dial "noon::::lunch".toList "noon::::lunch".toList "E0302".toList [] ∧
    noon.position < lunch.wall.micros := by
  have hfixed : ∀ t time, dial t = .ok time → time.isLocal = false :=
    fun _ _ h => isLocal_of_knowing rfl rfl h
  have hkind : ∀ t reason, dial t = .error reason → reason.kind = .unreadable :=
    fun _ _ h => kind_of_knowing h
  have hdial := fun element => ofText_by_pieces dial element hfixed hkind
  exact ⟨hfixed, hkind, ((hdial _).1 _ _).1 rfl, ((hdial _).2.1 _ _ _).1 ⟨_, rfl, rfl, rfl⟩,
    ((hdial _).2.1 _ _ _).1 ⟨_, rfl, rfl, rfl⟩, ((hdial _).2.1 _ _ _).1 ⟨_, rfl, rfl, rfl⟩,
    by decide⟩

/-- The clock of New York on 2009-11-01, when it is set back from two to one. -/
def newYorkClock (second : Bool) : Calendar.ZoneClock :=
  let daylight : Calendar.Offset := ⟨-4 * 3600 * Calendar.microsPerSecond, by decide, by decide⟩
  let standard : Calendar.Offset := ⟨-5 * 3600 * Calendar.microsPerSecond, by decide, by decide⟩
  if second then ⟨0, "America/New_York", true, standard, daylight⟩
  else ⟨0, "America/New_York", false, daylight, standard⟩

/-- A quarter to two on that day, before the clock is set back. -/
def quarterTo : Stamp := ⟨⟨63392636700000000, by decide⟩, some (.zoned (newYorkClock false))⟩

/-- Half past one, after the clock is set back. -/
def halfPast : Stamp := ⟨⟨63392635800000000, by decide⟩, some (.zoned (newYorkClock true))⟩

def setBack : TimeReader := knowing "quarter" "half" quarterTo halfPast

/-- The order of two times of one clock is not that of the points of time when the clock is set back
in between. Then a range can end before it starts, and the right way round it is refused. -/
theorem ofText_of_setBack :
    (∀ t time, setBack t = .ok time → time.isLocal = false) ∧
    (∀ t reason, setBack t = .error reason → reason.kind = .unreadable) ∧
    quarterTo.position < halfPast.position ∧
    ofText setBack "half::quarter".toList =
      (.ok (.range ⟨halfPast, quarterTo, "half::quarter".toList⟩),
        ["half".toList, "quarter".toList]) ∧
    Refused setBack "quarter::half".toList "quarter::half".toList "E0308".toList
      ["quarter".toList, "half".toList] :=
  ⟨fun _ _ h => isLocal_of_knowing rfl rfl h, fun _ _ h => kind_of_knowing h, by decide, rfl,
    _, rfl, rfl, rfl⟩

end TimeToken

end Scope

end ActionQuery

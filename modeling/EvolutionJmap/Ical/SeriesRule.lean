import EvolutionJmap.Ical.AllDay
import EvolutionJmap.Ical.RuleText

/-!
# The recurrence rule of a series

The rule of an event is written in the form that the event is drawn in: with a date, a
local date-time or a UTC date-time as its end.  The reader takes the zone from the start
of the same component.
-/

namespace EvolutionJmap.Ical

open List

/-! ## The end of a rule in a document -/

/-- What `readVevent` reads the end of the rule against. -/
def componentEnds (vevent : ICalendarComponent) (zones : Zones) : Ends :=
  startEnds vevent zones (readStart vevent zones).2.1

namespace Moment

variable (moment : Moment)

theorem endsWith_of_digits {digits front : List Char} (nonempty : digits ≠ [])
    (all : ∀ char ∈ digits, char.isDigit = true) {last : Char} (noDigit : last.isDigit = false) :
    endsWith (String.ofList (front ++ digits)) last = false := by
  rw [endsWith, String.toList_ofList, getLast?_append,
    getLast?_eq_some_getLast nonempty]
  have isDigit := all _ (getLast_mem nonempty)
  simpa using Text.ne_of_isDigit last isDigit noDigit

theorem endsInZulu_ical : Zone.endsInZulu moment.ical = false := by
  have split : moment.date ++ 'T' :: moment.time = (moment.date ++ ['T']) ++ moment.time := by
    rw [append_assoc]
    rfl
  rw [Zone.endsInZulu, ical, split, endsWith_of_digits moment.time_ne_nil moment.timeDigits rfl,
    endsWith_of_digits moment.time_ne_nil moment.timeDigits rfl]
  rfl

theorem endsInZulu_day : Zone.endsInZulu moment.day = false := by
  rw [Zone.endsInZulu, day, ← nil_append moment.date,
    endsWith_of_digits moment.date_ne_nil moment.dateDigits rfl,
    endsWith_of_digits moment.date_ne_nil moment.dateDigits rfl]
  rfl

theorem endsWith_zulu : endsWith (moment.ical ++ "Z") 'Z' = true := by
  rw [endsWith, String.toList_append, show "Z".toList = ['Z'] from rfl,
    getLast?_append]
  rfl

theorem readUntil_ical (ends : Ends) : readUntil moment.ical ends = moment.local_ := by
  rw [readUntil, moment.toLocalDateTime_ical, endsInZulu_ical]
  rfl

theorem readUntil_day (isMidnight : moment.time = midnight) (ends : Ends) :
    readUntil moment.day ends = moment.local_ := by
  rw [readUntil, moment.toLocalDateTime_day isMidnight, endsInZulu_day]
  rfl

/-- A UTC date-time is read as it is where the zone is UTC or unknown. -/
theorem readUntil_zulu {name : Option String} (noOther : name.all isUtc = true) :
    readUntil (moment.ical ++ "Z") (.in ⟨name, none⟩) = moment.local_ := by
  have isZulu : Zone.endsInZulu (moment.ical ++ "Z") = true := by
    rw [Zone.endsInZulu, endsWith_zulu]
    rfl
  rw [readUntil, moment.toLocalDateTime_zulu, isZulu]
  change (if (name.any fun name => !isUtc name) = true then _ else _) = _
  rw [if_neg]
  cases name with
  | none => simp
  | some name =>
    have isUtcName : isUtc name = true := noOther
    simp [isUtcName]

theorem noSemicolon_ical : ';' ∉ moment.ical.toList := by
  rw [toList_ical]
  intro mem
  rcases mem_append.mp mem with inDate | inRest
  · exact Text.ne_of_isDigit ';' (moment.dateDigits _ inDate) rfl rfl
  · rcases mem_cons.mp inRest with isT | inTime
    · exact absurd isT (by decide)
    · exact Text.ne_of_isDigit ';' (moment.timeDigits _ inTime) rfl rfl

theorem noSemicolon_day : ';' ∉ moment.day.toList := by
  rw [day, String.toList_ofList]
  intro inDate
  exact Text.ne_of_isDigit ';' (moment.dateDigits _ inDate) rfl rfl

end Moment

variable {rule : RecurrenceRule}

section

variable (calcard : Calcard) (event : CalendarEvent)

theorem componentEnds_utc {zone : String} (inZone : event.timeZone = some zone)
    (isUtcZone : isUtc zone = true) (timed : drawnAsADate calcard event = false) (zones : Zones) :
    ∃ name : Option String, name.all isUtc = true ∧
      componentEnds ((drawnSeries calcard event).flat 0) zones = .in ⟨name, none⟩ := by
  have isStart : ∀ start, dated "DTSTART" [start] false (some zone) =
      { name := "DTSTART", values := [.text (start ++ "Z")] } := by
    intro start
    rw [dated, isUtcZone]
    rfl
  have starts : componentEntry ((drawnSeries calcard event).flat 0) "DTSTART" =
      (event.start.bind toIcalDateTime).map fun start =>
        { name := "DTSTART", values := [.text (start ++ "Z")] } := by
    rw [componentEntry_flat, byName_drawnSeries, byName_recurrenceEntries _ _ (by decide),
      append_nil, byName_start, timed, inZone]
    simp only [isStart]
    cases event.start.bind toIcalDateTime <;> rfl
  cases rendered : event.start.bind toIcalDateTime with
  | none =>
    rw [rendered] at starts
    refine ⟨none, rfl, ?_⟩
    rw [componentEnds, readStart, starts]
    rfl
  | some start =>
    rw [rendered] at starts
    obtain ⟨local_, -, written⟩ := Option.bind_eq_some_iff.mp rendered
    obtain ⟨moment, rfl, -⟩ := exists_moment_of_toIcalDateTime written
    have value : entryRawValue ({ name := "DTSTART", values := [.text (moment.ical ++ "Z")] } :
        ICalendarEntry) = moment.ical ++ "Z" := entryText_of_values rfl rfl
    have hasT : containsChar (moment.ical ++ "Z") 'T' = true := by
      rw [containsChar, String.toList_append, moment.toList_ical]
      simp
    refine ⟨some utc, by decide, ?_⟩
    simp only [componentEnds, startEnds, readStart, startZone, starts, Option.map_some, value,
      moment.toLocalDateTime_zulu, hasT, Bool.true_or, moment.endsWith_zulu]
    rfl

variable {calcard event}

theorem midnight_of_drawnAsADate (isDate : drawnAsADate calcard event = true)
    (isRule : event.recurrenceRule = some rule) (isWritable : writable rule = true)
    {«until» : String} (stated : rule.«until» = some «until») {moment : Moment}
    (written : toIcalDateTime «until» = some moment.ical) : moment.time = Moment.midnight := by
  obtain ⟨start, -, shows⟩ := (Option.any_eq_true _ _).mp isDate
  simp only [showsWithoutTime, Bool.and_eq_true] at shows
  have endsAtMidnight := shows.1.2
  rw [isRule] at endsAtMidnight
  simp only [Option.all_some, isWritable, Bool.not_true, Bool.false_or, Bool.and_eq_true, stated,
    Option.bind_some, written] at endsAtMidnight
  exact moment.atMidnight_ical.mp endsAtMidnight.1

variable (calcard event)

theorem untilReads_series (isRule : event.recurrenceRule = some rule)
    (isWritable : writable rule = true) (zones : Zones) :
    UntilReads (.in (.named event.timeZone)) (drawnAsADate calcard event)
      (componentEnds ((drawnSeries calcard event).flat 0) zones) rule.«until»
      ((rule.«until».bind toIcalDateTime).bind toLocalDateTime) := by
  cases stated : rule.«until» with
  | none => exact .inl ⟨rfl, rfl⟩
  | some «until» =>
    have written : (toIcalDateTime «until»).isSome = true := by
      rw [writable, stated, Bool.and_eq_true] at isWritable
      exact isWritable.2
    obtain ⟨rendered, written⟩ := Option.isSome_iff_exists.mp written
    obtain ⟨moment, rfl, -⟩ := exists_moment_of_toIcalDateTime written
    have read : ((some «until»).bind toIcalDateTime).bind toLocalDateTime =
        some moment.local_ := by
      rw [Option.bind_some, written, Option.bind_some, moment.toLocalDateTime_ical]
    rw [read]
    cases isDate : drawnAsADate calcard event with
    | true =>
      have isMidnight : moment.time = Moment.midnight :=
        midnight_of_drawnAsADate isDate isRule isWritable stated written
      refine .inr ⟨«until», moment.day, rfl, ?_, moment.noSemicolon_day, ?_, ?_⟩
      · simp [untilPart, written, moment.take_ical, Moment.day]
      · rw [moment.dateTimeDigits_day]
        rfl
      · rw [moment.readUntil_day isMidnight]
    | false =>
      cases inZone : event.timeZone.any isUtc with
      | true =>
        obtain ⟨zone, isZone, isUtcZone⟩ := (Option.any_eq_true _ _).mp inZone
        rcases componentEnds_utc calcard event isZone isUtcZone isDate zones with
          ⟨name, noOther, isEnds⟩
        refine .inr ⟨«until», moment.ical ++ "Z", rfl, ?_, ?_, ?_, ?_⟩
        · simp [untilPart, written, Zoned.named, inZone, String.append_assoc]
        · rw [String.toList_append, mem_append, not_or]
          exact ⟨moment.noSemicolon_ical, by decide⟩
        · rw [moment.dateTimeDigits_zulu]
          rfl
        · rw [isEnds, moment.readUntil_zulu noOther]
      | false =>
        refine .inr ⟨«until», moment.ical, rfl, ?_, moment.noSemicolon_ical, ?_, ?_⟩
        · simp [untilPart, written, Zoned.named, inZone]
        · rw [moment.dateTimeDigits_ical]
          rfl
        · rw [moment.readUntil_ical]

end

/-! ## The same rule -/

/-- A day up to letter case and `@type`. -/
def dayKey (day : NDay) : String × Option Int × ValueMap :=
  (toAsciiLowercase day.day, day.nthOfPeriod, day.extra)

/-- Two rules are the same up to letter case, `@type`, an explicit interval of 1 and an
explicit first day of the week that is Monday. -/
structure SameRule (rule other : RecurrenceRule) : Prop where
  frequency : eqIgnoreAsciiCase rule.frequency other.frequency = true
  interval : rule.interval.getD 1 = other.interval.getD 1
  count : rule.count = other.count
  «until» : rule.«until» = other.«until»
  bySecond : rule.bySecond = other.bySecond
  byMinute : rule.byMinute = other.byMinute
  byHour : rule.byHour = other.byHour
  byDay : rule.byDay.map (List.map dayKey) = other.byDay.map (List.map dayKey)
  byMonthDay : rule.byMonthDay = other.byMonthDay
  byYearDay : rule.byYearDay = other.byYearDay
  byWeekNo : rule.byWeekNo = other.byWeekNo
  byMonth : rule.byMonth = other.byMonth
  bySetPosition : rule.bySetPosition = other.bySetPosition
  firstDayOfWeek : rule.firstDayOfWeek.getD "mo" = other.firstDayOfWeek.getD "mo"
  rscale : rule.rscale = other.rscale
  skip : rule.skip = other.skip
  extra : rule.extra = other.extra

theorem getD_filter_ne {α : Type} [DecidableEq α] (stated : Option α) (default : α) :
    (stated.filter (· ≠ default)).getD default = stated.getD default := by
  cases stated with
  | none => rfl
  | some value =>
    by_cases isDefault : value = default <;> simp [Option.filter_some, isDefault]

theorem sameRule_readBack (maps : mapsRecurrenceRule rule = true) {«until» : Option String} :
    SameRule rule (readBack rule «until») ↔ rule.«until» = «until» := by
  constructor
  · exact SameRule.until
  · intro same
    simp only [mapsRecurrenceRule, Bool.and_eq_true] at maps
    have plain := maps.1.1.1.1.1.1.1.1.1.1.1
    have days : (List.map dayKey ∘ List.map readDay) = List.map dayKey := by
      funext days
      rw [Function.comp_apply, map_map]
      apply map_congr_left
      intro day _
      rw [Function.comp_apply, dayKey, readDay, toAsciiLowercase_lowercase]
      rfl
    constructor
    case frequency =>
      rw [eqIgnoreAsciiCase, beq_iff_eq]
      exact (toAsciiLowercase_lowercase rule.frequency).symm
    case interval => exact (getD_filter_ne rule.interval 1).symm
    case «until» => exact same
    case byDay => rw [readBack, Option.map_map, days]
    case firstDayOfWeek => exact (getD_filter_ne rule.firstDayOfWeek "mo").symm
    case rscale => exact Option.isNone_iff_eq_none.mp plain.1.2
    case skip => exact Option.isNone_iff_eq_none.mp plain.2
    case extra => exact (BTreeMap.isEmpty_iff _).mp plain.1.1
    all_goals rfl

/-- A frequency that RFC 5545 has, and an end that is spelled `YYYY-MM-DDThh:mm:ss`. -/
def Canonical (rule : RecurrenceRule) : Prop :=
  toAsciiLowercase rule.frequency ∈ frequencies ∧
    ∀ «until», rule.«until» = some «until» → IsLocalDateTime «until»

/-- A rule of a series survives being written and read exactly if it is canonical. -/
theorem rule_survives_iff (calcard : Calcard) {event : CalendarEvent} {rule : RecurrenceRule}
    (isRule : event.recurrenceRule = some rule) (maps : mapsRecurrenceRule rule = true)
    (fits : RuleFits rule) (zones : Zones) :
    (∃ text read, ruleToRrule rule (.in (.named event.timeZone)) (drawnAsADate calcard event) =
        some text ∧
      rruleToRule text (componentEnds ((drawnSeries calcard event).flat 0) zones) = some read ∧
      SameRule rule read) ↔ Canonical rule := by
  have ends := untilReads_series calcard event isRule (writable_of_maps maps) zones
  have canonicalEnd : rule.«until» = (rule.«until».bind toIcalDateTime).bind toLocalDateTime ↔
      ∀ «until», rule.«until» = some «until» → IsLocalDateTime «until» := by
    have isWritable := writable_of_maps maps
    rw [writable, Bool.and_eq_true] at isWritable
    cases stated : rule.«until» with
    | none => simp
    | some «until» =>
      rw [stated] at isWritable
      obtain ⟨rendered, written⟩ := Option.isSome_iff_exists.mp isWritable.2
      simp [eq_comm, ← isLocalDateTime_iff written]
  constructor
  · rintro ⟨text, read, written, isRead, same⟩
    have known : toAsciiLowercase rule.frequency ∈ frequencies := by
      have lower : ∀ name ∈ frequencies, toAsciiLowercase name = name := by decide
      have isKnown : read.frequency ∈ frequencies := by
        rw [rruleToRule] at isRead
        split at isRead
        · next known =>
          cases isRead
          exact known
        · cases isRead
      have sameFrequency := same.frequency
      rw [eqIgnoreAsciiCase, beq_iff_eq, lower _ isKnown] at sameFrequency
      exact sameFrequency ▸ isKnown
    obtain ⟨_, written', isRead'⟩ := rruleToRule_ruleToRrule maps fits known ends
    cases written.symm.trans written'
    cases isRead.symm.trans isRead'
    exact ⟨known, canonicalEnd.mp ((sameRule_readBack maps).mp same)⟩
  · rintro ⟨known, isEnd⟩
    obtain ⟨text, written, isRead⟩ := rruleToRule_ruleToRrule maps fits known ends
    exact ⟨text, _, written, isRead, (sameRule_readBack maps).mpr (canonicalEnd.mpr isEnd)⟩

def review : RecurrenceRule :=
  { frequency := "weekly", «until» := some "2026-06-30T09:00:00"
    byDay := some [{ day := "tu" }, { day := "fr" }], firstDayOfWeek := some "su" }

theorem rule_survives_review :
    Canonical review ∧
      ∃ text read, ruleToRrule review (.in (.named (some "Europe/Berlin")))
          (drawnAsADate (.fixed [])
            { start := some "2026-01-06T09:00:00", timeZone := some "Europe/Berlin"
              recurrenceRule := some review }) = some text ∧
        rruleToRule text (componentEnds ((drawnSeries (.fixed [])
            { start := some "2026-01-06T09:00:00", timeZone := some "Europe/Berlin"
              recurrenceRule := some review }).flat 0) ∅) = some read ∧
        SameRule review read := by
  have canonical : Canonical review := by
    refine ⟨by decide, ?_⟩
    rintro _ ⟨⟩
    exact ⟨['2', '0', '2', '6'], ['0', '6'], ['3', '0'], ['0', '9'], ['0', '0'], ['0', '0'],
      rfl, rfl, by simp⟩
  have fits : RuleFits review := by
    refine ⟨nofun, nofun, ?_⟩
    rintro _ ⟨⟩ day mem
    simp only [mem_cons, not_mem_nil, or_false] at mem
    rcases mem with rfl | rfl <;> exact nofun
  exact ⟨canonical, (@rule_survives_iff (.fixed [])
    { start := some "2026-01-06T09:00:00", timeZone := some "Europe/Berlin"
      recurrenceRule := some review } _ rfl (by decide +kernel) fits ∅).mpr canonical⟩

/-- A frequency that no reader knows is said to be mapped, and is not read back. -/
theorem unknown_frequency_lost :
    mapsRecurrenceRule { frequency := "fortnightly" } = true ∧
      ∀ ends, (ruleToRrule { frequency := "fortnightly" } (.in (.named none)) false).bind
        (rruleToRule · ends) = none := by
  refine ⟨by decide +kernel, fun ends => ?_⟩
  have written : ruleToRrule { frequency := "fortnightly" } (.in (.named none)) false =
      some "FREQ=FORTNIGHTLY" := by decide +kernel
  rw [written]
  rfl

end EvolutionJmap.Ical

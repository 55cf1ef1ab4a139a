import XPathBench.Proofs.Summary

/-!
# Times are reported as they are

The machine-readable form of an outcome tells times in whole microseconds, and the report in whole
ticks of a hundred nanoseconds. Both are cut, never rounded, and the total is that of the exact
times.

* `Duration.plus?`, `PhaseTimings.sum?`: sums that fit into sixty-four bits of seconds
* `Duration.Whole`: the whole units in a duration
* `Duration.readClock?`: what a clock shows
* `PhaseTimings.reported_exact`: the times that are reported, and the clocks
-/

namespace XPathBench

namespace Duration

/-- Seconds of sixty-four bits, and less than a second of nanoseconds. -/
structure Proper (d : Duration) : Prop where
  seconds : d.seconds < UInt64.size
  nanoseconds : d.nanoseconds < 1000000000

/-- There are `n` whole units in the duration; a unit is given in nanoseconds. -/
structure Whole (d : Duration) (unit n : Nat) : Prop where
  fits : n * unit ≤ d.inNanoseconds
  short : d.inNanoseconds < (n + 1) * unit

variable {d d' : Duration} {n : Nat}

theorem whole_iff {unit : Nat} (hunit : 0 < unit) :
    d.Whole unit n ↔ d.inNanoseconds / unit = n := by
  constructor
  · intro h
    exact Nat.div_eq_of_lt_le h.fits h.short
  · rintro rfl
    exact ⟨Nat.div_mul_le_self _ _, (Nat.div_lt_iff_lt_mul hunit).mp (Nat.lt_succ_self _)⟩

/-! ## Sums -/

/-- The sum of two durations, field by field with a carry. -/
def plus (d e : Duration) : Duration :=
  if d.nanoseconds + e.nanoseconds < 1000000000 then
    ⟨d.seconds + e.seconds, d.nanoseconds + e.nanoseconds⟩
  else ⟨d.seconds + e.seconds + 1, d.nanoseconds + e.nanoseconds - 1000000000⟩

/-- The sum of two durations, if its seconds take sixty-four bits. -/
def plus? (d e : Duration) : Option Duration :=
  if (d.plus e).seconds < UInt64.size then some (d.plus e) else none

theorem inNanoseconds_ofNanoseconds (n : Nat) : (ofNanoseconds n).inNanoseconds = n :=
  Nat.div_add_mod' n 1000000000

theorem seconds_ofNanoseconds_lt_iff :
    (ofNanoseconds n).seconds < UInt64.size ↔ n < UInt64.size * 1000000000 :=
  Nat.div_lt_iff_lt_mul (by decide)

theorem proper_ofNanoseconds (h : n < UInt64.size * 1000000000) : (ofNanoseconds n).Proper where
  seconds := seconds_ofNanoseconds_lt_iff.mpr h
  nanoseconds := Nat.mod_lt _ (by decide)

/-- The sum is the exact one. -/
theorem plus_eq (hd : d.Proper) (hd' : d'.Proper) :
    d.plus d' = ofNanoseconds (d.inNanoseconds + d'.inNanoseconds) := by
  have hnanos := hd.nanoseconds
  have hnanos' := hd'.nanoseconds
  simp only [plus, ofNanoseconds, inNanoseconds]
  split
  · rw [mk.injEq]
    omega
  · rw [mk.injEq]
    omega

theorem plus?_eq (hd : d.Proper) (hd' : d'.Proper) :
    d.plus? d' = if d.inNanoseconds + d'.inNanoseconds < UInt64.size * 1000000000 then
      some (ofNanoseconds (d.inNanoseconds + d'.inNanoseconds)) else none := by
  rw [plus?, plus_eq hd hd']
  simp only [seconds_ofNanoseconds_lt_iff]

/-! ## Clocks -/

/-- What a clock shows. -/
structure Shown where
  hours : Nat
  minutes : Nat
  seconds : Nat
  ticks : Nat
deriving DecidableEq, Repr

/-- The ticks since the clock was started. -/
def Shown.inTicks (s : Shown) : Nat :=
  (3600 * s.hours + 60 * s.minutes + s.seconds) * 10000000 + s.ticks

/-- The number that a text of digits denotes. -/
def number? (digits : List Char) : Option Nat :=
  if digits ≠ [] ∧ digits.all Char.isDigit then some (Nat.ofDigitChars 10 digits 0) else none

/-- Reads `hours:minutes:seconds.ticks`, where the ticks have seven digits. -/
def readClock? (text : String) : Option Shown :=
  match text.toList.splitOn ':' with
  | [hours, minutes, rest] => match rest.splitOn '.' with
    | [seconds, ticks] =>
      if ticks.length = 7 then
        return ⟨← number? hours, ← number? minutes, ← number? seconds, ← number? ticks⟩
      else none
    | _ => none
  | _ => none

theorem toList_padded (width n : Nat) : (padded width n).toList =
    List.replicate (width - (Nat.toDigits 10 n).length) '0' ++ Nat.toDigits 10 n := by
  rw [padded, Nat.toString_eq_ofList_toDigits, String.toList_append, String.toList_ofList,
    String.toList_ofList, String.length_ofList]

/-- Zeros in front of a number do not change it. -/
theorem number?_padded (width n : Nat) : number? (padded width n).toList = some n := by
  have hne : (padded width n).toList ≠ [] := by
    rw [toList_padded]
    exact List.append_ne_nil_of_right_ne_nil _ Nat.toDigits_ne_nil
  have hall : (padded width n).toList.all Char.isDigit := by
    rw [List.all_eq_true]
    intro c hc
    by_contra hdigit
    exact not_mem_padded (Bool.not_eq_true _ ▸ hdigit) hc
  rw [number?, if_pos ⟨hne, hall⟩, toList_padded, Nat.ofDigitChars_append,
    Nat.ofDigitChars_replicate_zero, Nat.mul_zero, Nat.ofDigitChars_ten_toDigits]

theorem length_padded {width : Nat} (h : (Nat.toDigits 10 n).length ≤ width) :
    (padded width n).toList.length = width := by
  rw [toList_padded, List.length_append, List.length_replicate]
  omega

/-- What the clock of a duration shows. -/
def shown (d : Duration) : Shown where
  hours := d.seconds / 3600
  minutes := d.seconds / 60 % 60
  seconds := d.seconds % 60
  ticks := d.nanoseconds / 100

theorem readClock?_clock (hd : d.Proper) : readClock? d.clock = some d.shown := by
  have hticks : (padded 7 (d.nanoseconds / 100)).toList.length = 7 := by
    refine length_padded ((Nat.length_toDigits_le_iff (by decide) (by decide)).mpr ?_)
    have hnanos := hd.nanoseconds
    omega
  have hfields : d.clock.toList = (padded 2 (d.seconds / 3600)).toList ++
      ':' :: ((padded 2 (d.seconds / 60 % 60)).toList ++
        ':' :: ((padded 2 (d.seconds % 60)).toList ++
          '.' :: (padded 7 (d.nanoseconds / 100)).toList)) := by
    simp [clock_eq]
  have hrest : ':' ∉ (padded 2 (d.seconds % 60)).toList ++
      '.' :: (padded 7 (d.nanoseconds / 100)).toList := by
    simp [not_mem_padded (c := ':') rfl]
  have hcolon {width n : Nat} : ':' ∉ (padded width n).toList := not_mem_padded rfl
  have hpoint {width n : Nat} : '.' ∉ (padded width n).toList := not_mem_padded rfl
  rw [readClock?, hfields, List.splitOn_append_cons_self_of_not_mem hcolon,
    List.splitOn_append_cons_self_of_not_mem hcolon, List.splitOn_eq_singleton hrest]
  simp only [List.splitOn_append_cons_self_of_not_mem hpoint, List.splitOn_eq_singleton hpoint,
    if_pos hticks, number?_padded, Option.bind_eq_bind, Option.bind_some, Option.pure_def]
  rfl

theorem inTicks_shown (d : Duration) : d.shown.inTicks = d.inNanoseconds / 100 := by
  simp only [Shown.inTicks, shown, inNanoseconds]
  omega

/-- A clock shows the time in ticks. -/
theorem clock_eq_iff (hd : d.Proper) (hd' : d'.Proper) :
    d.clock = d'.clock ↔ d.inNanoseconds / 100 = d'.inNanoseconds / 100 := by
  constructor
  · intro h
    have hshown := congrArg readClock? h
    rw [readClock?_clock hd, readClock?_clock hd', Option.some.injEq] at hshown
    rw [← inTicks_shown, ← inTicks_shown, hshown]
  · intro h
    have hnanos := hd.nanoseconds
    have hnanos' := hd'.nanoseconds
    simp only [inNanoseconds] at h
    have hseconds : d.seconds = d'.seconds := by omega
    have hticks : d.nanoseconds / 100 = d'.nanoseconds / 100 := by omega
    rw [clock_eq, clock_eq, hseconds, hticks]

end Duration

open Duration

/-! ## Reported times -/

namespace PhaseTimings

variable {t : PhaseTimings} {total : Duration}

/-- All phases take proper times. -/
structure Proper (t : PhaseTimings) : Prop where
  parse : t.parse.Proper
  compile : t.compile.Proper
  evaluate : t.evaluate.Proper

/-- The sum over the phases, if it takes sixty-four bits of seconds. -/
def sum? (t : PhaseTimings) : Option Duration :=
  (t.parse.plus? t.compile).bind (·.plus? t.evaluate)

/-- The time of all phases in nanoseconds. -/
def inNanoseconds (t : PhaseTimings) : Nat :=
  t.parse.inNanoseconds + t.compile.inNanoseconds + t.evaluate.inNanoseconds

theorem sum?_eq (ht : t.Proper) :
    t.sum? = if t.inNanoseconds < UInt64.size * 1000000000 then some t.total else none := by
  rw [sum?, plus?_eq ht.parse ht.compile]
  by_cases hfirst : t.parse.inNanoseconds + t.compile.inNanoseconds < UInt64.size * 1000000000
  · rw [if_pos hfirst, Option.bind_some, plus?_eq (proper_ofNanoseconds hfirst) ht.evaluate,
      inNanoseconds_ofNanoseconds]
    rfl
  · have hall : ¬ t.inNanoseconds < UInt64.size * 1000000000 := by
      rw [inNanoseconds]
      omega
    rw [if_neg hfirst, if_neg hall]
    rfl

end PhaseTimings

/-- The JSON form of an outcome reports a duration under a name: as `n` whole microseconds, or as
the greatest number of sixty-four bits if there are more. -/
def Json.ReportsTime (j : Json) (name : String) (d : Duration) (n : Nat) : Prop :=
  ∃ timings whole, j.member? "timings_us" = some timings ∧
    timings.member? name = some (.natural n) ∧ d.Whole 1000 whole ∧ n = min whole (UInt64.size - 1)

/-- What is told of the times of a success whose total is `total`: each one in whole microseconds,
and the total at least the sum of the others and at most two more, unless it takes more than
sixty-four bits. -/
def Json.ReportsTimes (j : Json) (t : PhaseTimings) (total : Duration) : Prop :=
  ∃ parse compile evaluate all, j.ReportsTime "parse" t.parse parse ∧
    j.ReportsTime "compile" t.compile compile ∧ j.ReportsTime "evaluate" t.evaluate evaluate ∧
    j.ReportsTime "total" total all ∧ (total.Whole 1000 all →
      parse + compile + evaluate ≤ all ∧ all ≤ parse + compile + evaluate + 2)

namespace PhaseTimings

variable {declared : ResultType} {value : ResultValue} {t : PhaseTimings} {total : Duration}

theorem whole_inMicroseconds (d : Duration) : ∃ whole, d.Whole 1000 whole ∧
    d.inMicroseconds = min whole (UInt64.size - 1) :=
  ⟨_, (whole_iff (by decide)).mpr rfl, rfl⟩

theorem inNanoseconds_total (t : PhaseTimings) : t.total.inNanoseconds = t.inNanoseconds :=
  inNanoseconds_ofNanoseconds _

/-- What is cut off the phases adds up to less than three microseconds. -/
theorem inMicroseconds_total (h : t.total.Whole 1000 t.total.inMicroseconds) :
    t.parse.inMicroseconds + t.compile.inMicroseconds + t.evaluate.inMicroseconds ≤
      t.total.inMicroseconds ∧
    t.total.inMicroseconds ≤
      t.parse.inMicroseconds + t.compile.inMicroseconds + t.evaluate.inMicroseconds + 2 := by
  rw [whole_iff (by decide)] at h
  simp only [inMicroseconds, inNanoseconds_total, inNanoseconds] at h ⊢
  omega

theorem reportsTimes_summary :
    (Outcome.success ⟨declared, value, t⟩).summary.ReportsTimes t t.total := by
  have hreported (name : String) (d : Duration)
      (hname : t.summary.member? name = some (.natural d.inMicroseconds)) :
      (Outcome.success ⟨declared, value, t⟩).summary.ReportsTime name d d.inMicroseconds := by
    obtain ⟨whole, hwhole, hn⟩ := whole_inMicroseconds d
    exact ⟨_, whole, rfl, hname, hwhole, hn⟩
  exact ⟨_, _, _, _, hreported "parse" _ rfl, hreported "compile" _ rfl,
    hreported "evaluate" _ rfl, hreported "total" _ rfl, inMicroseconds_total⟩

/-- The times of a success are reported as they are. If the phases take a time that a duration can
hold, the total is the exact sum, and the JSON form tells all times in whole microseconds. The clock
of a duration has minutes and seconds below sixty and seven digits of ticks, and shows the whole
ticks of the duration, so that durations have one clock if they have as many whole ticks. -/
theorem reported_exact :
    (∀ declared value (t : PhaseTimings) total, t.Proper → t.sum? = some total →
      total.Proper ∧ total.inNanoseconds = t.inNanoseconds ∧
        (Outcome.success ⟨declared, value, t⟩).summary.ReportsTimes t total) ∧
    ∀ d : Duration, d.Proper →
      (∃ shown, readClock? d.clock = some shown ∧ shown.minutes < 60 ∧ shown.seconds < 60 ∧
        d.Whole 100 shown.inTicks) ∧
      ∀ d' : Duration, d'.Proper →
        (d.clock = d'.clock ↔ ∃ ticks, d.Whole 100 ticks ∧ d'.Whole 100 ticks) := by
  refine ⟨fun declared value t total ht hsum => ?_, fun d hd => ⟨?_, fun d' hd' => ?_⟩⟩
  · rw [sum?_eq ht] at hsum
    split at hsum
    · next hfits =>
      obtain rfl := Option.some.inj hsum
      exact ⟨proper_ofNanoseconds hfits, inNanoseconds_total t, reportsTimes_summary⟩
    · cases hsum
  · refine ⟨d.shown, readClock?_clock hd, Nat.mod_lt _ (by decide), Nat.mod_lt _ (by decide), ?_⟩
    exact (whole_iff (by decide)).mpr (inTicks_shown d).symm
  · have hunit : 0 < 100 := by decide
    simp only [clock_eq_iff hd hd', whole_iff hunit]
    exact ⟨fun h => ⟨_, h, rfl⟩, fun ⟨_, h, h'⟩ => h.trans h'.symm⟩

/-- Phases that take an hour together and lose two microseconds apart. -/
theorem reported_exact_carried :
    let t : PhaseTimings := ⟨⟨0, 999⟩, ⟨3599, 999999999⟩, ⟨0, 1999⟩⟩
    let total : Duration := ⟨3600, 2997⟩
    t.Proper ∧ t.sum? = some total ∧ total.Proper ∧ total.inNanoseconds = t.inNanoseconds ∧
      (Outcome.success ⟨.any, .boolean true, t⟩).summary.ReportsTimes t total ∧
      (∃ shown, readClock? total.clock = some shown ∧ shown.minutes < 60 ∧ shown.seconds < 60 ∧
        total.Whole 100 shown.inTicks) ∧
      total.clock = (⟨3600, 2900⟩ : Duration).clock := by
  intro t total
  have ht : t.Proper :=
    ⟨⟨by decide, by decide⟩, ⟨by decide, by decide⟩, ⟨by decide, by decide⟩⟩
  have hsum : t.sum? = some total := by decide
  obtain ⟨hphases, hclocks⟩ := reported_exact
  obtain ⟨htotal, hexact, htimes⟩ := hphases .any (.boolean true) t total ht hsum
  obtain ⟨hshown, hsame⟩ := hclocks total htotal
  refine ⟨ht, hsum, htotal, hexact, htimes, hshown, ?_⟩
  refine (hsame ⟨3600, 2900⟩ ⟨by decide, by decide⟩).mpr ⟨36000000029, ?_, ?_⟩
  · exact ⟨by decide, by decide⟩
  · exact ⟨by decide, by decide⟩

end PhaseTimings

end XPathBench

/-!
Durations of a run's phases.

* `Duration`: whole seconds and nanoseconds
* `Duration.clock`: hours, minutes, seconds and ticks of a hundred nanoseconds
* `PhaseTimings.total`: the exact sum over the phases
-/

namespace XPathBench

/-- A length of time. -/
structure Duration where
  seconds : Nat
  nanoseconds : Nat
deriving DecidableEq, Repr, Inhabited

namespace Duration

/-- No time at all. -/
def zero : Duration := ⟨0, 0⟩

/-- The length in nanoseconds. -/
def inNanoseconds (d : Duration) : Nat := d.seconds * 1000000000 + d.nanoseconds

/-- The duration of a number of nanoseconds. -/
def ofNanoseconds (n : Nat) : Duration := ⟨n / 1000000000, n % 1000000000⟩

/-- The length in whole microseconds, at most the greatest number of sixty-four bits. -/
def inMicroseconds (d : Duration) : Nat := min (d.inNanoseconds / 1000) 0xFFFFFFFFFFFFFFFF

/-- A number in decimal with at least `width` digits. -/
def padded (width n : Nat) : String :=
  let digits := toString n
  String.ofList (List.replicate (width - digits.length) '0') ++ digits

/-- The duration as `hours:minutes:seconds.ticks`; hours take as many digits as they need. -/
def clock (d : Duration) : String :=
  s!"{padded 2 (d.seconds / 3600)}:{padded 2 (d.seconds / 60 % 60)}:{padded 2 (d.seconds % 60)}" ++
    s!".{padded 7 (d.nanoseconds / 100)}"

end Duration

/-- What the phases of a run took. -/
structure PhaseTimings where
  parse : Duration
  compile : Duration
  evaluate : Duration
deriving DecidableEq, Repr, Inhabited

namespace PhaseTimings

/-- A run whose phases took no time. -/
def zero : PhaseTimings := ⟨.zero, .zero, .zero⟩

/-- What all phases took together. -/
def total (t : PhaseTimings) : Duration :=
  .ofNanoseconds (t.parse.inNanoseconds + t.compile.inNanoseconds + t.evaluate.inNanoseconds)

end PhaseTimings

end XPathBench

import ChartParsing.Decimal.Layout

/-!
# Timings

How long the parts of a parse took, in whole nanoseconds, and the line that says so.
-/

namespace ChartParsing

/-- The nanoseconds that the parts of a parse took. -/
structure Timings where
  /-- Beginning the chart. -/
  begin : Nat
  /-- Filling the chart. -/
  chart : Nat
  /-- Reading the results. -/
  results : Nat
deriving DecidableEq, Repr

namespace Timings

/-- The nanoseconds of a second. -/
def second : Nat := 1000000000

/-- The milliseconds of a duration, computed from its seconds with what is left over as a fraction. -/
def milliseconds (nanoseconds : Nat) : Float :=
  ((nanoseconds / second).toFloat + (nanoseconds % second).toFloat / second.toFloat) * 1000.0

/-- A duration in milliseconds, with three places. -/
def renderDuration (nanoseconds : Nat) : String :=
  Decimal.fixed 3 (milliseconds nanoseconds) ++ "ms"

/-- The line that tells the timings. -/
def render (t : Timings) : String :=
  "computed in " ++ renderDuration (t.begin + t.chart + t.results)
    ++ " (init: " ++ renderDuration t.begin
    ++ " | chart: " ++ renderDuration t.chart
    ++ " | results: " ++ renderDuration t.results ++ ")"

end Timings

end ChartParsing

/-!
Durations in words: the largest unit that fits about one and a half times, rounded.
-/

namespace ScopeAtlas.Report

structure TimeUnit where
  length : Nat
  name : String

def timeUnits : List TimeUnit :=
  [⟨31536000000, "year"⟩, ⟨604800000, "week"⟩, ⟨86400000, "day"⟩, ⟨3600000, "hour"⟩,
    ⟨60000, "minute"⟩, ⟨1000, "second"⟩]

/-- A count of units, at least two of any unit but the last. -/
def countedUnits (milliseconds : Nat) : List TimeUnit → Nat × TimeUnit
  | [] => (0, ⟨1, "second"⟩)
  | [last] => ((milliseconds + last.length / 2) / last.length, last)
  | current :: next :: rest =>
    if current.length + current.length / 2 ≤ milliseconds + next.length / 2 then
      (max 2 ((milliseconds + current.length / 2) / current.length), current)
    else countedUnits milliseconds (next :: rest)

def duration (milliseconds : Nat) : String :=
  let (count, unit) := countedUnits milliseconds timeUnits
  toString count ++ " " ++ unit.name ++ (if count == 1 then "" else "s")

end ScopeAtlas.Report

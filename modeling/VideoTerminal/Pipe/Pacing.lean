/-!
# Pacing

How the reading end of a pipe waits for more: soon and often, or long and in large batches.
-/

namespace VideoTerminal

/-- How long a reader waits for data. -/
inductive Wait
  /-- Not at all. -/
  | none
  /-- At most some milliseconds. -/
  | atMost (milliseconds : Nat)
  /-- As long as it takes. -/
  | untilData
  deriving DecidableEq, Repr

/-- A policy for waiting. -/
inductive Pacing
  /-- Hands out data as soon as there is some. -/
  | latency
  /-- Waits long and reads large batches. -/
  | throughput
  | balanced
  deriving DecidableEq, Repr

namespace Pacing

/-- All policies. -/
def all : List Pacing := [.latency, .throughput, .balanced]

/-- The name of a policy. -/
def name : Pacing → String
  | .latency => "latency"
  | .throughput => "throughput"
  | .balanced => "balanced"

/-- The policy of a name, whose plain letters may be in either case. -/
def ofName? (name : String) : Option Pacing :=
  let folded := String.ofList (name.toList.map Char.toLower)
  all.find? fun p => p.name == folded

/-- The wait for a next character. -/
def pollWait : Pacing → Wait
  | .latency => .untilData
  | .throughput => .atMost 100
  | .balanced => .atMost 10

/-- The wait for more characters of a run that has begun. -/
def bulkWait : Pacing → Wait
  | .latency => .none
  | .throughput => .atMost 5
  | .balanced => .atMost 1

/-- More of a run is never waited for without limit. -/
theorem bulkWait_ne_untilData (pacing : Pacing) : pacing.bulkWait ≠ .untilData := by
  cases pacing <;> simp [bulkWait]

end Pacing

end VideoTerminal

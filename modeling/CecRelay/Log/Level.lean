import CecRelay.Text.Numeral

/-!
# Levels of the log

Every record of the log has a level, and a threshold says down to which level records are written.
A threshold is named, in letters of either case, or given by its number.
-/

namespace CecRelay.Log

/-- The level of a record. -/
inductive Level
  /-- Something has gone wrong. -/
  | error
  /-- Something was passed over. -/
  | warn
  /-- Something has happened. -/
  | info
  /-- Something for those who look for a fault. -/
  | debug
  /-- Everything else. -/
  | trace
  deriving DecidableEq, Repr

/-- The level as a number; a weightier record has a smaller one. -/
def Level.rank : Level → Nat
  | .error => 1
  | .warn => 2
  | .info => 3
  | .debug => 4
  | .trace => 5

/-- Records up to a level are written; without one, none are. -/
abbrev Threshold := Option Level

/-- A record of a level is written. -/
def Threshold.admits (t : Threshold) (l : Level) : Bool :=
  match t with
  | none => false
  | some most => l.rank ≤ most.rank

namespace Threshold

/-- The thresholds by name. -/
def byName : List (String × Threshold) :=
  [("off", none), ("error", some .error), ("warn", some .warn), ("info", some .info),
   ("debug", some .debug), ("trace", some .trace)]

/-- The thresholds in the order of their numbers. -/
def byNumber : List Threshold := byName.map (·.2)

/-- The number that a text stands for. -/
def number? (s : String) : Option Nat :=
  (Text.readNumeral 10 0xFFFFFFFFFFFFFFFF s.toList).toOption

/-- The threshold that a text names. -/
def read? (s : String) : Option Threshold :=
  match number? s with
  | some n => byNumber[n]?
  | none => byName.lookup s.toLower

end Threshold
end CecRelay.Log

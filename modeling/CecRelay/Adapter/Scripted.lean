import CecRelay.Adapter.Port

/-!
# An adapter that follows a script

The script says how the next attempts to open and the next commands end. When a part of it is used
up a default holds. Closing always works.
-/

namespace CecRelay

/-- What an adapter does next. -/
structure Script where
  /-- How the next attempts to open end. -/
  opens : List Opening := []
  /-- How the next commands end. -/
  answers : List Answer := []
  /-- How an attempt to open ends after those. -/
  laterOpen : Opening := .opened
  /-- How a command ends after those. -/
  laterAnswer : Answer := .reply (some "ok")
  deriving DecidableEq, Repr

namespace Script

/-- The adapter that follows its script. -/
def adapter : Adapter Script where
  tryOpen s :=
    match s.opens with
    | [] => (s.laterOpen, s)
    | o :: opens => (o, { s with opens := opens })
  attach s := s
  send _ _ s :=
    match s.answers with
    | [] => (s.laterAnswer, s)
    | r :: answers => (r, { s with answers := answers })
  close s := s

end Script
end CecRelay

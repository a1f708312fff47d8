import RemoteCalc.Span

/-!
# Moments of a clock

A clock tells a moment as the span since it began to run, and counts the seconds of
it up to a limit.  A program that needs a later moment breaks down.  That is no
fault that it could meet and report: it ends in the middle of what it does.
-/

namespace RemoteCalc

inductive Breakdown where
  | momentOutOfReach
  deriving DecidableEq, Repr

namespace Clock

def secondsLimit : Nat := 9223372036854775808

/-- The moment that lies a span behind another one, if the clock gets there. -/
def after (now span : Span) : Except Breakdown Span :=
  let moment : Span := ⟨now.nanos + span.nanos⟩
  if moment.seconds < secondsLimit then .ok moment else .error .momentOutOfReach

end Clock

end RemoteCalc

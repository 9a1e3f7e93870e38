/-! # Timers

A call waits by means of a timer, and time passes only while it waits. How exactly a timer keeps to what
it is asked is a parameter of the calls, and no more is assumed of it than the theorems say. -/

namespace PortalScript

/-- How long pauses last, in milliseconds, by how long they are asked to last. -/
structure Timer where
  length : Nat → Nat

namespace Timer

/-- Each pause lasts as long as it is asked to. -/
def Exact (t : Timer) : Prop := ∀ n, t.length n = n

/-- The timer of calls that are given no other: it ends a pause after thirty years of 365 days at the
latest. -/
def usual : Timer := ⟨fun n => min n (30 * 365 * 24 * 60 * 60 * 1000)⟩

end Timer

end PortalScript

/-!
# Durations

A duration counts nanoseconds, and its whole seconds fit in 64 bits. Addition therefore fails at the
upper end, where the sum has no representation.
-/

namespace Reachability

/-- The number of nanoseconds in a second. -/
def nanosecondsPerSecond : Nat := 1000000000

/-- The first number of nanoseconds whose seconds do not fit in 64 bits. -/
def durationLimit : Nat := UInt64.size * nanosecondsPerSecond

/-- A span of time. -/
structure Duration where
  nanoseconds : Nat
  bounded : nanoseconds < durationLimit
deriving DecidableEq

namespace Duration

/-- The duration of a number of nanoseconds, if it can be represented. -/
def ofNanoseconds? (n : Nat) : Option Duration :=
  if h : n < durationLimit then some ⟨n, h⟩ else none

/-- The duration of a number of seconds. -/
def ofSeconds (s : UInt64) : Duration where
  nanoseconds := s.toNat * nanosecondsPerSecond
  bounded := Nat.mul_lt_mul_of_pos_right s.toNat_lt (by decide)

/-- The duration of a number of milliseconds. -/
def ofMilliseconds (ms : UInt64) : Duration where
  nanoseconds := ms.toNat * 1000000
  bounded := by
    have h : ms.toNat < UInt64.size := ms.toNat_lt
    simp only [durationLimit, nanosecondsPerSecond]
    omega

/-- The whole seconds of a duration. -/
def seconds (d : Duration) : Nat := d.nanoseconds / nanosecondsPerSecond

/-- The whole milliseconds of a duration. -/
def milliseconds (d : Duration) : Nat := d.nanoseconds / 1000000

/-- The sum of two durations, if it can be represented. -/
def add? (d e : Duration) : Option Duration := ofNanoseconds? (d.nanoseconds + e.nanoseconds)

end Duration

end Reachability

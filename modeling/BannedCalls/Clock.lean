/-!
# Clocks

A clock is read again and again and never set. Its readings are given; the last one lasts, and a
clock without any stands at zero.
-/

namespace BannedCalls

/-- The readings still to come, in seconds. -/
structure Clock where
  readings : List Float

namespace Clock

def now (c : Clock) : Float := c.readings.headD 0

/-- The clock once the reading of now is taken. -/
def next (c : Clock) : Clock :=
  match c.readings with
  | _ :: later :: rest => ⟨later :: rest⟩
  | _ => c

def advance : Nat → Clock → Clock
  | 0, c => c
  | n + 1, c => advance n c.next

theorem advance_add (m n : Nat) (c : Clock) : c.advance (m + n) = (c.advance m).advance n := by
  induction m generalizing c with
  | zero => rw [Nat.zero_add]; rfl
  | succ m ih => rw [Nat.succ_add]; exact ih c.next

/-- The milliseconds from the reading of now to the one `n` readings later. -/
def elapsed (c : Clock) (n : Nat) : Float := ((c.advance n).now - c.now) * 1000

end Clock

end BannedCalls

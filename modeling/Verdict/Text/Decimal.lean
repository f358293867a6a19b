/-!
# Decimal numbers with a ceiling

A run of ASCII digits is read from left to right, and the value stays at a given ceiling once it
has reached it. So a run of any length costs the same per digit, and the result is the smaller of
the value of the run and the ceiling.
-/

namespace Verdict.Text.Decimal

/-- The value of an ASCII digit. -/
def digit (c : Char) : Nat := c.toNat - '0'.toNat

/-- The value of a run of digits, continued from the value of the digits before it. -/
def valueFrom (value : Nat) (digits : List Char) : Nat :=
  digits.foldl (fun v c => 10 * v + digit c) value

/-- The value of a run of digits. -/
def value (digits : List Char) : Nat := valueFrom 0 digits

/-- One more digit under a ceiling. -/
def push (ceiling value : Nat) (c : Char) : Nat := min ceiling (10 * value + digit c)

/-- The value of a run of digits under a ceiling. -/
def capped (ceiling : Nat) (digits : List Char) : Nat := digits.foldl (push ceiling) 0

private theorem foldl_push (ceiling v : Nat) (digits : List Char) :
    digits.foldl (push ceiling) (min ceiling v) = min ceiling (valueFrom v digits) := by
  induction digits generalizing v with
  | nil => rfl
  | cons c rest ih =>
      have hstep : push ceiling (min ceiling v) c = min ceiling (10 * v + digit c) := by
        unfold push
        omega
      rw [List.foldl_cons, hstep, ih]
      rfl

theorem capped_eq_min (ceiling : Nat) (digits : List Char) :
    capped ceiling digits = min ceiling (value digits) := by
  have h := foldl_push ceiling 0 digits
  rwa [Nat.min_zero] at h

end Verdict.Text.Decimal

import Mathlib.Algebra.Ring.Nat
import Verdict.FactSet.Basic
import Verdict.Text.Decimal

/-!
# Digits in one word

A run of digits may be too long for a word, and a register reads it all the same: where a digit
finds no room the word stays as it is, and a flag remembers it. A later digit may find room again,
so from then on the word means nothing, but the flag is never lowered. `Register.Holds` says what a
register tells about the number that was read. Every further digit preserves it, and
`readNumber_eq` says what it comes to for a run of any length: a number that is reported is the
value of the run, or the largest word if the value is larger than that.
-/

namespace Verdict.Text.Decimal

/-! ### One more digit in a word -/

section Words

variable {word next : UInt64} {c : Char} {n : Nat}

/-- The word of a number, if the number fits in a word. -/
def word? (n : Nat) : Option UInt64 := if n < UInt64.size then some (UInt64.ofNat n) else none

theorem word?_eq_some_iff : word? n = some word ↔ word.toNat = n := by
  unfold word?
  split
  · next hlt =>
      rw [Option.some.injEq, ← UInt64.toNat_inj, UInt64.toNat_ofNat_of_lt' hlt, eq_comm]
  · have := word.toNat_lt_size
    simp only [reduceCtorEq, false_iff]
    omega

theorem word?_eq_none_iff : word? n = none ↔ UInt64.size ≤ n := by
  simp [word?]

/-- A word with one more digit at its end. It is multiplied first and the digit is added then, and
neither may leave a word. -/
def append? (word : UInt64) (c : Char) : Option UInt64 :=
  (word? (word.toNat * 10)).bind fun tens => word? (tens.toNat + digit c)

theorem append?_eq_some (h : append? word c = some next) :
    next.toNat = 10 * word.toNat + digit c := by
  obtain ⟨tens, htens, hnext⟩ := Option.bind_eq_some_iff.mp h
  rw [word?_eq_some_iff.mp hnext, word?_eq_some_iff.mp htens, Nat.mul_comm]

theorem append?_eq_none (h : append? word c = none) :
    UInt64.size ≤ 10 * word.toNat + digit c := by
  cases htens : word? (word.toNat * 10) with
  | none =>
      have hlarge := word?_eq_none_iff.mp htens
      omega
  | some tens =>
      rw [append?, htens, Option.bind_some] at h
      have hlarge := word?_eq_none_iff.mp h
      rw [word?_eq_some_iff.mp htens] at hlarge
      omega

end Words

/-! ### The register -/

/-- A word that digits are read into. -/
structure Register where
  word : UInt64
  /-- Whether a digit has found no room. -/
  overflowed : Bool
  deriving DecidableEq, Repr

namespace Register

/-- The register after the first digit. -/
def start (c : Char) : Register := ⟨UInt64.ofNat (digit c), false⟩

/-- The register after one more digit. -/
def push (r : Register) (c : Char) : Register :=
  match append? r.word c with
  | some word => { r with word }
  | none => { r with overflowed := true }

/-- Read the digits at the beginning of a text; the text after them is left. -/
def readDigits (r : Register) : List Char → Register × List Char
  | [] => (r, [])
  | c :: rest => if c.isDigit then (r.push c).readDigits rest else (r, c :: rest)

/-- The number that was read, if it is that of a fact. -/
def number (r : Register) : Except OutOfRange UInt32 :=
  if r.overflowed || FactSet.width ≤ r.word.toNat then
    .error ⟨if r.overflowed then UInt64.size - 1 else r.word.toNat⟩
  else .ok r.word.toUInt32

/-- What a register tells about the number that was read: the number itself, or that it is larger
than any word. -/
def Holds (r : Register) (n : Nat) : Prop :=
  if r.overflowed then UInt64.size ≤ n else r.word.toNat = n

variable {r : Register} {n : Nat}

theorem holds_start (c : Char) : (start c).Holds (value [c]) := by
  have hchar : c.toNat < UInt32.size := c.val.toNat_lt
  have hword : UInt32.size ≤ UInt64.size := by decide
  have hdigit : digit c < UInt64.size := by
    unfold digit
    omega
  calc
    (UInt64.ofNat (digit c)).toNat = digit c := UInt64.toNat_ofNat_of_lt' hdigit
    _ = 10 * 0 + digit c := by rw [Nat.mul_zero, Nat.zero_add]

/-- A step: whether or not the digit finds room, the register tells the truth about the number that
it is appended to. -/
theorem Holds.push (h : r.Holds n) (c : Char) : (r.push c).Holds (10 * n + digit c) := by
  obtain ⟨word, overflowed⟩ := r
  cases overflowed with
  | true =>
      -- The number was too large before, so it does not matter what becomes of the word.
      have hlarge : UInt64.size ≤ n := h
      have hmore : UInt64.size ≤ 10 * n + digit c := by omega
      unfold Register.push
      split
      · exact hmore
      · exact hmore
  | false =>
      obtain rfl : word.toNat = n := h
      unfold Register.push
      split
      · next next hnext => exact append?_eq_some hnext
      · next hnone => exact append?_eq_none hnone

/-- A run: the digits that are read one after the other. -/
theorem Holds.foldl_push (h : r.Holds n) (digits : List Char) :
    (digits.foldl Register.push r).Holds (valueFrom n digits) := by
  induction digits generalizing r n with
  | nil => exact h
  | cons c rest ih => exact ih (h.push c)

theorem readDigits_eq (r : Register) (text : List Char) :
    r.readDigits text =
      ((text.takeWhile Char.isDigit).foldl push r, text.dropWhile Char.isDigit) := by
  induction text generalizing r with
  | nil => rfl
  | cons c rest ih =>
      rw [readDigits]
      split
      · next hc => rw [ih, List.takeWhile_cons_of_pos hc, List.dropWhile_cons_of_pos hc, List.foldl_cons]
      · next hc => rw [List.takeWhile_cons_of_neg hc, List.dropWhile_cons_of_neg hc, List.foldl_nil]

theorem number_of_overflowed (h : r.overflowed = true) : r.number = .error ⟨UInt64.size - 1⟩ := by
  simp [number, h]

theorem number_of_lt (h : r.overflowed = false) (hlt : r.word.toNat < FactSet.width) :
    r.number = .ok (UInt32.ofNat r.word.toNat) := by
  have hfits : ¬ FactSet.width ≤ r.word.toNat := Nat.not_le_of_lt hlt
  simp only [number, h, hfits, decide_false, Bool.or_self, Bool.false_eq_true, if_false]
  rfl

theorem number_of_le (h : r.overflowed = false) (hle : FactSet.width ≤ r.word.toNat) :
    r.number = .error ⟨r.word.toNat⟩ := by
  simp [number, h, hle]

/-- Whatever was read, the register gives the number of a fact or reports the number, the largest
word standing for all that are larger. -/
theorem Holds.number_eq (h : r.Holds n) :
    r.number = if n < FactSet.width then .ok (UInt32.ofNat n) else .error ⟨min n (2 ^ 64 - 1)⟩ := by
  have hwidth : FactSet.width ≤ 2 ^ 64 - 1 := by decide
  unfold Holds at h
  split at h
  · next hover =>
      have hlarge : 2 ^ 64 ≤ n := h
      rw [number_of_overflowed hover, if_neg (by omega), Nat.min_eq_right (by omega)]
      rfl
  · next hroom =>
      rw [Bool.not_eq_true] at hroom
      subst h
      have hword : r.word.toNat < 2 ^ 64 := r.word.toNat_lt
      split
      · next hlt => exact number_of_lt hroom hlt
      · next hge =>
          rw [number_of_le hroom (Nat.le_of_not_lt hge), Nat.min_eq_left (by omega)]

end Register

/-- Read a number that begins with a given digit from the text after it; the text after the number
is left. -/
def readNumber (first : Char) (text : List Char) : Except OutOfRange UInt32 × List Char :=
  let (r, rest) := (Register.start first).readDigits text
  (r.number, rest)

theorem readNumber_eq (first : Char) (text : List Char) :
    readNumber first text =
      (if value (first :: text.takeWhile Char.isDigit) < FactSet.width then
          .ok (UInt32.ofNat (value (first :: text.takeWhile Char.isDigit)))
        else .error ⟨min (value (first :: text.takeWhile Char.isDigit)) (2 ^ 64 - 1)⟩,
        text.dropWhile Char.isDigit) := by
  have hall := (Register.holds_start first).foldl_push (text.takeWhile Char.isDigit)
  rw [readNumber, Register.readDigits_eq]
  exact Prod.ext hall.number_eq rfl

end Verdict.Text.Decimal

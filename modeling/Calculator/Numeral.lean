import Calculator.Text.Blank
import Calculator.Text.Digit
import Calculator.Text.Quoted

/-!
# Numerals

A numeral is an optional sign followed by decimal digits of any script, with
single underscores allowed between digits and blanks allowed at the ends.
Numbers are written with an optional minus sign and ASCII digits only, so what
is written is one of the many forms that are read. Neither way is there a limit
to the number of digits: an interpreter's own limit is taken as lifted, which is
the first thing that a session does.
-/

namespace Calculator.Numeral

/-- Whether a character may surround a numeral: a blank other than the
information separators. -/
def isPadding (c : Char) : Bool :=
  Text.isBlank c && !('\x1c' ≤ c && c ≤ '\x1f')

/-- Read the digits that follow a number, each of them perhaps after an
underscore. -/
def extend? (value : Nat) : Text → Option Nat
  | [] => some value
  | '_' :: c :: rest => (Text.digitValue? c).bind fun digit => extend? (10 * value + digit) rest
  | c :: rest => (Text.digitValue? c).bind fun digit => extend? (10 * value + digit) rest

def readUnsigned? : Text → Option Nat
  | [] => none
  | c :: rest => (Text.digitValue? c).bind fun digit => extend? digit rest

def readSigned? : Text → Option Int
  | '-' :: rest => (readUnsigned? rest).map fun value => -(value : Int)
  | '+' :: rest => (readUnsigned? rest).map Int.ofNat
  | text => (readUnsigned? text).map Int.ofNat

def read? (text : Text) : Option Int :=
  readSigned? (text.trim isPadding)

/-- Whether an operand is written as a number: all of it are digit characters,
and there is at least one. -/
def isNumber (text : Text) : Bool :=
  !text.isEmpty && text.all Text.isDigitForm

/-- The decimal text of an integer. -/
def write : Int → Text
  | .ofNat value => Nat.toDigits 10 value
  | .negSucc value => '-' :: Nat.toDigits 10 (value + 1)

theorem isPadding_eq_false_of_isDigit {c : Char} (hdigit : c.isDigit = true) :
    isPadding c = false := by
  rw [isPadding, Text.isBlank_eq_false_of_isDigit hdigit, Bool.false_and]

/-- ASCII digits continue a number in the usual positional way. -/
theorem extend?_digits {text : Text} (value : Nat) (hdigits : ∀ c ∈ text, c.isDigit = true) :
    extend? value text = some (Nat.ofDigitChars 10 text value) := by
  induction text generalizing value with
  | nil => rfl
  | cons c rest ih =>
      obtain ⟨hdigit, hrest⟩ := List.forall_mem_cons.mp hdigits
      have hne : c ≠ '_' := by
        intro heq
        subst heq
        cases hdigit
      rw [extend?, Text.digitValue?_of_isDigit hdigit, Option.bind_some, ih _ hrest,
        Nat.ofDigitChars_cons]
      intro _ _ heq
      exact absurd heq hne

theorem readUnsigned?_digits {text : Text} (hne : text ≠ [])
    (hdigits : ∀ c ∈ text, c.isDigit = true) :
    readUnsigned? text = some (Nat.ofDigitChars 10 text 0) := by
  cases text with
  | nil => exact absurd rfl hne
  | cons c rest =>
      obtain ⟨hdigit, hrest⟩ := List.forall_mem_cons.mp hdigits
      rw [readUnsigned?, Text.digitValue?_of_isDigit hdigit, Option.bind_some,
        extend?_digits _ hrest, Nat.ofDigitChars_cons, Nat.mul_zero, Nat.zero_add]

theorem read?_eq_readSigned? {text : Text} (hkept : ∀ c ∈ text, isPadding c = false) :
    read? text = readSigned? text := by
  rw [read?, Text.trim_eq_self hkept]

/-- A run of ASCII digits is read as the number that they spell. -/
theorem read?_digits {text : Text} (hne : text ≠ []) (hdigits : ∀ c ∈ text, c.isDigit = true) :
    read? text = some (Nat.ofDigitChars 10 text 0 : Int) := by
  rw [read?_eq_readSigned? fun c hmem => isPadding_eq_false_of_isDigit (hdigits c hmem)]
  cases text with
  | nil => exact absurd rfl hne
  | cons c rest =>
      have hdigit := hdigits c List.mem_cons_self
      rw [readSigned?, readUnsigned?_digits hne hdigits]
      · rfl
      · intro _ heq
        rw [(List.cons.inj heq).1] at hdigit
        cases hdigit
      · intro _ heq
        rw [(List.cons.inj heq).1] at hdigit
        cases hdigit

/-- A run of ASCII digits behind a minus is read as the opposite number. -/
theorem read?_minus_digits {text : Text} (hne : text ≠ [])
    (hdigits : ∀ c ∈ text, c.isDigit = true) :
    read? ('-' :: text) = some (-(Nat.ofDigitChars 10 text 0 : Int)) := by
  have hkept : ∀ c ∈ '-' :: text, isPadding c = false := by
    refine List.forall_mem_cons.mpr ⟨by decide, fun c hmem => ?_⟩
    exact isPadding_eq_false_of_isDigit (hdigits c hmem)
  rw [read?_eq_readSigned? hkept, readSigned?, readUnsigned?_digits hne hdigits]
  rfl

/-- What is written of a number is read as that number. -/
theorem read?_write (value : Int) : read? (write value) = some value := by
  have hdigits (n : Nat) : ∀ c ∈ Nat.toDigits 10 n, c.isDigit = true :=
    fun c hmem => Nat.isDigit_of_mem_toDigits (by decide) (by decide) hmem
  cases value with
  | ofNat n =>
      rw [write, read?_digits Nat.toDigits_ne_nil (hdigits n),
        Nat.ofDigitChars_toDigits (by decide) (by decide)]
      rfl
  | negSucc n =>
      rw [write, read?_minus_digits Nat.toDigits_ne_nil (hdigits (n + 1)),
        Nat.ofDigitChars_toDigits (by decide) (by decide)]
      rfl

/-- The diagnostic for a text that is not a numeral. It quotes at most two
hundred characters. -/
def refusal (text : Text) : String :=
  "invalid literal for int() with base 10: " ++ String.ofList (text.quote.take 200)

end Calculator.Numeral

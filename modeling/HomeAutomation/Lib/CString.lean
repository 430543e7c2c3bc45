import Mathlib.Data.List.TakeWhile
import Mathlib.Data.Nat.Basic

/-! # Zero-terminated strings and the C library functions on them

A `CString` is the text before the terminating zero, so it contains no zero
itself.  The functions below follow the C library under its own names; storage is
not modelled here, a string is as long as its text.

The results are those a program that parses and prints decimal numbers needs:
`strncmp` with the length of its first argument is a prefix test, `atoi` reads
back what `itoa` prints, and the text of a two-digit number is its two digits.
-/

namespace HomeAutomation.Lib

/-- The terminating character. -/
def nul : Char := Char.ofNat 0

structure CString where
  chars : List Char
  terminated : nul ∉ chars
  deriving DecidableEq

namespace CString

@[ext] theorem ext {first second : CString} (same : first.chars = second.chars) :
    first = second := by
  cases first
  cases second
  cases same
  rfl

/-- What stands in memory before the first zero. -/
def ofChars (memory : List Char) : CString where
  chars := memory.takeWhile (· != nul)
  terminated := by
    intro member
    simpa using List.mem_takeWhile_imp member

/-- A string literal. -/
def ofString (text : String) : CString := ofChars text.toList

/-- `s[i]`; the terminating zero stands behind the text. -/
def get (s : CString) (i : Nat) : Char := s.chars.getD i nul

/-! ## Length, concatenation, comparison -/

def strlen (s : CString) : Nat := s.chars.length

def strcat (first second : CString) : CString where
  chars := first.chars ++ second.chars
  terminated := by simp [first.terminated, second.terminated]

theorem chars_ofChars {memory : List Char} (terminated : nul ∉ memory) :
    (ofChars memory).chars = memory := by
  apply List.takeWhile_eq_self_iff.mpr
  intro c member
  simpa using ne_of_mem_of_not_mem member terminated

@[simp] theorem chars_strcat (first second : CString) :
    (strcat first second).chars = first.chars ++ second.chars := rfl

@[simp] theorem strlen_strcat (first second : CString) :
    strlen (strcat first second) = strlen first + strlen second := List.length_append

theorem strcat_right_injective {head first second : CString}
    (same : strcat head first = strcat head second) : first = second := by
  have texts := congrArg CString.chars same
  simp only [chars_strcat, List.append_cancel_left_eq] at texts
  exact CString.ext texts

/-- The comparison loop of `strncmp`: it stops at a difference, at the end of the
    text, or after `count` characters. -/
def strncmpLoop : Nat → List Char → List Char → Int
  | 0, _, _ => 0
  | _ + 1, [], [] => 0
  | _ + 1, [], second :: _ => - second.toNat
  | _ + 1, first :: _, [] => first.toNat
  | count + 1, first :: firsts, second :: seconds =>
    if first = second then strncmpLoop count firsts seconds
    else first.toNat - second.toNat

def strncmp (first second : CString) (count : Nat) : Int :=
  strncmpLoop count first.chars second.chars

theorem toNat_ne_zero_of_ne_nul {c : Char} (differs : c ≠ nul) : c.toNat ≠ 0 := by
  intro zero
  exact differs (Char.toNat_inj.mp zero)

theorem strncmpLoop_length_eq_zero_iff {head text : List Char} (terminated : nul ∉ head) :
    strncmpLoop head.length head text = 0 ↔ head <+: text := by
  induction head generalizing text with
  | nil => simp [strncmpLoop]
  | cons first head inductionHypothesis =>
    simp only [List.mem_cons, not_or] at terminated
    cases text with
    | nil =>
      have nonzero := toNat_ne_zero_of_ne_nul (Ne.symm terminated.1)
      simp [strncmpLoop, nonzero]
    | cons second text =>
      simp only [List.length_cons, strncmpLoop, List.cons_prefix_cons]
      split
      · rename_i same
        simp [same, inductionHypothesis terminated.2]
      · rename_i differs
        have nonzero : first.toNat ≠ second.toNat := fun same => differs (Char.toNat_inj.mp same)
        simp only [differs, false_and, iff_false]
        omega

/-- Comparing as many characters as the first string has tests for a prefix. -/
theorem strncmp_strlen_eq_zero_iff (head text : CString) :
    strncmp head text (strlen head) = 0 ↔ head.chars <+: text.chars :=
  strncmpLoop_length_eq_zero_iff head.terminated

/-! ## Decimal numbers -/

def isdigit (c : Char) : Bool := c.isDigit

def isspace (c : Char) : Bool := c = ' ' || (9 ≤ c.toNat && c.toNat ≤ 13)

/-- The value of the digits a text starts with. -/
def leadingNumber (text : List Char) : Nat := Nat.ofDigitChars 10 (text.takeWhile isdigit) 0

/-- `atoi`: white space, an optional sign, and the digits up to the first character
    that is none.  The result is the number itself, also where an `int` could not
    hold it. -/
def atoi (s : CString) : Int :=
  match s.chars.dropWhile isspace with
  | '-' :: rest => - (leadingNumber rest : Int)
  | '+' :: rest => leadingNumber rest
  | rest => leadingNumber rest

theorem isdigit_of_mem_toDigits {n : Nat} {c : Char} (member : c ∈ Nat.toDigits 10 n) :
    isdigit c = true :=
  Nat.isDigit_of_mem_toDigits (by decide) (by decide) member

theorem ne_nul_of_isdigit {c : Char} (digit : isdigit c = true) : c ≠ nul := by
  rintro rfl
  exact absurd digit (by decide)

theorem nul_notMem_toDigits (n : Nat) : nul ∉ Nat.toDigits 10 n := by
  intro member
  exact ne_nul_of_isdigit (isdigit_of_mem_toDigits member) rfl

/-- `itoa` to base 10. -/
def itoa (value : Int) : CString :=
  if value < 0 then
    { chars := '-' :: Nat.toDigits 10 value.natAbs
      terminated := by
        simp only [List.mem_cons, not_or]
        exact ⟨by decide, nul_notMem_toDigits _⟩ }
  else
    { chars := Nat.toDigits 10 value.natAbs
      terminated := nul_notMem_toDigits _ }

theorem leadingNumber_toDigits (n : Nat) : leadingNumber (Nat.toDigits 10 n) = n := by
  have allDigits : (Nat.toDigits 10 n).takeWhile isdigit = Nat.toDigits 10 n :=
    List.takeWhile_eq_self_iff.mpr fun _ => isdigit_of_mem_toDigits
  rw [leadingNumber, allDigits, Nat.ofDigitChars_ten_toDigits]

theorem toNat_of_isdigit {c : Char} (digit : isdigit c = true) : 48 ≤ c.toNat ∧ c.toNat ≤ 57 := by
  simp only [isdigit, Char.isDigit, Bool.and_eq_true, decide_eq_true_eq] at digit
  exact digit

theorem isspace_eq_false_of_isdigit {c : Char} (digit : isdigit c = true) : isspace c = false := by
  have lower := (toNat_of_isdigit digit).1
  have notBlank : c ≠ ' ' := by
    rintro rfl
    exact absurd lower (by decide)
  simp only [isspace, notBlank, decide_false, Bool.false_or, Bool.and_eq_false_iff,
    decide_eq_false_iff_not]
  right
  omega

/-- A text that starts with a digit is read as a plain number. -/
theorem atoi_of_digit {s : CString} {c : Char} {rest : List Char} (starts : s.chars = c :: rest)
    (digit : isdigit c = true) : atoi s = leadingNumber s.chars := by
  have kept : s.chars.dropWhile isspace = c :: rest := by
    rw [starts, List.dropWhile_cons_of_neg]
    simp [isspace_eq_false_of_isdigit digit]
  have notMinus : c ≠ '-' := by
    rintro rfl
    exact absurd digit (by decide)
  have notPlus : c ≠ '+' := by
    rintro rfl
    exact absurd digit (by decide)
  unfold atoi
  rw [kept, starts]
  split
  · rename_i same
    exact absurd (List.cons.inj same).1 notMinus
  · rename_i same
    exact absurd (List.cons.inj same).1 notPlus
  · rfl

theorem atoi_itoa (value : Int) : atoi (itoa value) = value := by
  by_cases negative : value < 0
  · have sign : ('-' :: Nat.toDigits 10 value.natAbs).dropWhile isspace =
        '-' :: Nat.toDigits 10 value.natAbs := List.dropWhile_cons_of_neg (by decide)
    simp only [atoi, itoa, negative, if_true, sign, leadingNumber_toDigits]
    omega
  · cases digits : Nat.toDigits 10 value.natAbs with
    | nil => exact absurd digits Nat.toDigits_ne_nil
    | cons first rest =>
      have text : (itoa value).chars = first :: rest := by simp [itoa, negative, digits]
      have digit : isdigit first = true :=
        isdigit_of_mem_toDigits (n := value.natAbs) (by simp [digits])
      rw [atoi_of_digit text digit, text, ← digits, leadingNumber_toDigits]
      omega

theorem itoa_injective {first second : Int} (same : itoa first = itoa second) : first = second := by
  rw [← atoi_itoa first, same, atoi_itoa]

/-! ## Two digits -/

/-- A text of exactly two digits. -/
def IsDigitPair (s : CString) : Prop :=
  ∃ first second, s.chars = [first, second] ∧ isdigit first = true ∧ isdigit second = true

theorem atoi_pair {s : CString} {first second : Char} (text : s.chars = [first, second])
    (firstDigit : isdigit first = true) (secondDigit : isdigit second = true) :
    atoi s = 10 * (first.toNat - 48 : Nat) + (second.toNat - 48 : Nat) := by
  have allDigits : [first, second].takeWhile isdigit = [first, second] := by
    simp [firstDigit, secondDigit]
  rw [atoi_of_digit text firstDigit, leadingNumber, text, allDigits, Nat.ofDigitChars_cons,
    Nat.ofDigitChars_cons, Nat.ofDigitChars_nil]
  push_cast
  simp

/-- Different digit pairs are different numbers. -/
theorem IsDigitPair.atoi_injective {s t : CString} (pair : s.IsDigitPair) (other : t.IsDigitPair)
    (same : atoi s = atoi t) : s = t := by
  obtain ⟨first, second, text, firstDigit, secondDigit⟩ := pair
  obtain ⟨first', second', text', firstDigit', secondDigit'⟩ := other
  rw [atoi_pair text firstDigit secondDigit, atoi_pair text' firstDigit' secondDigit'] at same
  have bounds := toNat_of_isdigit firstDigit
  have bounds' := toNat_of_isdigit firstDigit'
  have lastBounds := toNat_of_isdigit secondDigit
  have lastBounds' := toNat_of_isdigit secondDigit'
  have firsts : first = first' := Char.toNat_inj.mp (by omega)
  have seconds : second = second' := Char.toNat_inj.mp (by omega)
  exact CString.ext (by rw [text, text', firsts, seconds])

/-- A number of two digits prints as such. -/
theorem isDigitPair_itoa {value : Int} (lower : 10 ≤ value) (upper : value ≤ 99) :
    (itoa value).IsDigitPair := by
  obtain ⟨n, rfl⟩ := Int.eq_ofNat_of_zero_le (show 0 ≤ value by omega)
  have split : Nat.toDigits 10 n = [(n / 10).digitChar, (n % 10).digitChar] := by
    rw [Nat.toDigits_of_base_le (by decide) (by omega),
      Nat.toDigits_of_lt_base (show n / 10 < 10 by omega)]
    rfl
  have text : (itoa n).chars = Nat.toDigits 10 n := by
    have nonnegative : ¬ ((n : Int) < 0) := by omega
    simp [itoa, nonnegative]
  refine ⟨_, _, text.trans split, ?_, ?_⟩
  · exact isdigit_of_mem_toDigits (n := n) (by simp [split])
  · exact isdigit_of_mem_toDigits (n := n) (by simp [split])

/-- A digit pair is the text of a two-digit number exactly when `atoi` reads that
    number from it. -/
theorem IsDigitPair.atoi_eq_iff {s : CString} (pair : s.IsDigitPair) {value : Int}
    (lower : 10 ≤ value) (upper : value ≤ 99) : atoi s = value ↔ s = itoa value := by
  constructor
  · intro read
    exact pair.atoi_injective (isDigitPair_itoa lower upper) (by rw [read, atoi_itoa])
  · rintro rfl
    exact atoi_itoa value

end CString

/-! ## Character arrays -/

/-- A `char` array of fixed size: the string it holds, and the most bytes any string
    written to it has taken, the terminating zero included.  Nothing stops a write
    at the end of the array. -/
structure CharArray where
  size : Nat
  text : CString
  written : Nat
  deriving DecidableEq

namespace CharArray

open CString

/-- `char a[size] = text;` -/
def declare (size : Nat) (text : CString) : CharArray := ⟨size, text, strlen text + 1⟩

/-- A library function leaves `text` at the start of the array. -/
def store (array : CharArray) (text : CString) : CharArray :=
  { array with text, written := max array.written (strlen text + 1) }

/-- `strcat(a, tail)` -/
def append (array : CharArray) (tail : CString) : CharArray :=
  array.store (strcat array.text tail)

/-- Every string written so far lies inside the array. -/
def Fits (array : CharArray) : Prop := array.written ≤ array.size

@[simp] theorem text_declare (size : Nat) (text : CString) : (declare size text).text = text := rfl

@[simp] theorem text_store (array : CharArray) (text : CString) : (array.store text).text = text :=
  rfl

@[simp] theorem text_append (array : CharArray) (tail : CString) :
    (array.append tail).text = strcat array.text tail := rfl

@[simp] theorem size_declare (size : Nat) (text : CString) : (declare size text).size = size := rfl

@[simp] theorem size_append (array : CharArray) (tail : CString) :
    (array.append tail).size = array.size := rfl

theorem fits_declare_iff {size : Nat} {text : CString} :
    (declare size text).Fits ↔ strlen text < size := Iff.rfl

theorem fits_store_iff {array : CharArray} {text : CString} :
    (array.store text).Fits ↔ array.Fits ∧ strlen text < array.size := Nat.max_le

theorem fits_append_iff {array : CharArray} {tail : CString} :
    (array.append tail).Fits ↔ array.Fits ∧ strlen array.text + strlen tail < array.size := by
  rw [append, fits_store_iff, strlen_strcat]

end CharArray

end HomeAutomation.Lib

/-!
Written integers: blanks, an optional sign, and decimal digits of any script with single underscores
allowed between them (`integer?`). Each script writes its ten digits in a row, zero first, so the place of
a digit within its span is its value (`digitValue?`). `isBlank` is the property that separates words in any
script; `isNumeralBlank` is the narrower set that may surround a written integer.
-/
namespace Bezout.Text

/-! ### Blanks -/

/-- The spans of code points that are blank. -/
def blankSpans : List (Nat × Nat) :=
  [(9, 13), (28, 32), (133, 133), (160, 160), (5760, 5760), (8192, 8202), (8232, 8233),
   (8239, 8239), (8287, 8287), (12288, 12288)]

/-- A character is blank if it is a space, a line or paragraph end, or a separator control. -/
def isBlank (c : Char) : Bool :=
  blankSpans.any fun (first, last) => first ≤ c.toNat && c.toNat ≤ last

/-- The four separator controls 1C to 1F are blank, but do not surround a written integer. -/
def isNumeralBlank (c : Char) : Bool :=
  isBlank c && !(28 ≤ c.toNat && c.toNat ≤ 31)

/-! ### Digits -/

/-- The spans of decimal digits; each starts with a zero and holds whole rows of ten. -/
def digitSpans : List (Nat × Nat) :=
  [(48, 57), (1632, 1641), (1776, 1785), (1984, 1993), (2406, 2415), (2534, 2543), (2662, 2671),
   (2790, 2799), (2918, 2927), (3046, 3055), (3174, 3183), (3302, 3311), (3430, 3439), (3558, 3567),
   (3664, 3673), (3792, 3801), (3872, 3881), (4160, 4169), (4240, 4249), (6112, 6121), (6160, 6169),
   (6470, 6479), (6608, 6617), (6784, 6793), (6800, 6809), (6992, 7001), (7088, 7097), (7232, 7241),
   (7248, 7257), (42528, 42537), (43216, 43225), (43264, 43273), (43472, 43481), (43504, 43513),
   (43600, 43609), (44016, 44025), (65296, 65305), (66720, 66729), (68912, 68921), (69734, 69743),
   (69872, 69881), (69942, 69951), (70096, 70105), (70384, 70393), (70736, 70745), (70864, 70873),
   (71248, 71257), (71360, 71369), (71472, 71481), (71904, 71913), (72016, 72025), (72784, 72793),
   (73040, 73049), (73120, 73129), (92768, 92777), (92864, 92873), (93008, 93017), (120782, 120831),
   (123200, 123209), (123632, 123641), (125264, 125273), (130032, 130041)]

/-- The value of a decimal digit of any script. -/
def digitValue? (c : Char) : Option Nat :=
  (digitSpans.find? fun (first, last) => first ≤ c.toNat && c.toNat ≤ last).map
    fun (first, _) => (c.toNat - first) % 10

/-- Decimal digits of any script. -/
def isDigit (c : Char) : Bool := (digitValue? c).isSome

/-- The number that a row of digits writes, most significant first; other characters count as
    zero. -/
def numberOf (digits : List Char) : Nat :=
  digits.foldl (fun n c => 10 * n + (digitValue? c).getD 0) 0

/-! ### Integers -/

/-- A text without the characters of a kind at its two ends. -/
def trimmed (skip : Char → Bool) (s : List Char) : List Char :=
  ((s.dropWhile skip).reverse.dropWhile skip).reverse

/-- Goes on reading digits after the number `read`; each underscore stands between two digits. -/
def digitsAfter (read : Nat) : List Char → Option Nat
  | [] => none
  | c :: rest =>
    match digitValue? c, rest with
    | none, _ => none
    | some d, [] => some (10 * read + d)
    | some d, '_' :: more => digitsAfter (10 * read + d) more
    | some d, more => digitsAfter (10 * read + d) more

/-- The integer that a text writes. -/
def integer? (s : String) : Option Int :=
  match trimmed isNumeralBlank s.toList with
  | '-' :: digits => (digitsAfter 0 digits).map fun n => -(n : Int)
  | '+' :: digits => (digitsAfter 0 digits).map Int.ofNat
  | digits => (digitsAfter 0 digits).map Int.ofNat

end Bezout.Text

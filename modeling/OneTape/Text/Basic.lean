namespace OneTape.Text

abbrev Ranges := List (Nat × Nat)

def Ranges.has (table : Ranges) (c : Char) : Bool :=
  table.any fun (lo, hi) ↦ lo ≤ c.toNat && c.toNat ≤ hi

/-- The characters with the property `White_Space`. -/
def blankRanges : Ranges :=
  [(0x0009, 0x000D), (0x0020, 0x0020), (0x0085, 0x0085), (0x00A0, 0x00A0), (0x1680, 0x1680),
   (0x2000, 0x200A), (0x2028, 0x2029), (0x202F, 0x202F), (0x205F, 0x205F), (0x3000, 0x3000)]

def isBlank (c : Char) : Bool := blankRanges.has c

def trim (s : List Char) : List Char :=
  ((s.dropWhile isBlank).reverse.dropWhile isBlank).reverse

/-- A line ends at a line feed, and a carriage return just in front of the line feed belongs to the
line's end. The last line need not be ended, and an ended text has no further line. -/
def lines : List Char → List (List Char)
  | [] => []
  | '\n' :: s => [] :: lines s
  | '\r' :: '\n' :: s => [] :: lines s
  | c :: s =>
    match lines s with
    | [] => [[c]]
    | line :: more => (c :: line) :: more

example : lines "a\r\n\r\rb\n\nc".toList = ["a".toList, "\r\rb".toList, [], "c".toList] := by decide
example : lines "a\n\r".toList = ["a".toList, "\r".toList] := by decide

def byteLength (s : List Char) : Nat := s.foldr (fun c n ↦ c.utf8Size + n) 0

/-- The line, from 1, and the number of bytes on that line, once some bytes of a text are read from
this line and byte on. -/
def placeAfter (line column : Nat) : Nat → List Char → Nat × Nat
  | 0, _ | _, [] => (line, column)
  | bytes, c :: s =>
    if c = '\n' then placeAfter (line + 1) 0 (bytes - 1) s
    else placeAfter line (column + min c.utf8Size bytes) (bytes - c.utf8Size) s

def maxWord : Nat := UInt64.size - 1

def digitValue (c : Char) : Nat := c.toNat - '0'.toNat

def decimalValue (digits : List Char) : Nat :=
  digits.foldl (fun n c ↦ 10 * n + digitValue c) 0

def readDigits? (n : Nat) : List Char → Option Nat
  | [] => some n
  | c :: s =>
    if c.isDigit && 10 * n + digitValue c ≤ maxWord then readDigits? (10 * n + digitValue c) s
    else none

def unsigned : List Char → List Char
  | '+' :: s => s
  | s => s

/-- Reads one or more decimal digits, with at most one plus sign in front, as a number that fits in
a word. Zeros in front do not count towards the size. -/
def readNumeral? (s : List Char) : Option Nat :=
  if (unsigned s).isEmpty then none else readDigits? 0 (unsigned s)

end OneTape.Text

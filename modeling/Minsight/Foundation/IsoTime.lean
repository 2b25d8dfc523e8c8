import Mathlib.Algebra.Group.Nat.Defs
import Mathlib.Data.Int.Notation
import Mathlib.Data.List.Basic
import Mathlib.Data.Nat.Notation

/-! # Times in ISO 8601

What `datetime.fromisoformat` of CPython 3.11 reads, in microseconds since 1970-01-01. It takes
calendar and week dates with and without dashes, any character between date and time, a fraction of
the last number, and one character between the time and its zone; it takes no bare numbers, no
ordinal dates and no names of months.
-/

namespace Minsight

def dayNumber (y m d : ℤ) : ℤ :=
  let y := if m ≤ 2 then y - 1 else y
  let era := y / 400
  let yoe := y - era * 400
  let doy := (153 * (if m ≤ 2 then m + 9 else m - 3) + 2) / 5 + d - 1
  era * 146097 + yoe * 365 + yoe / 4 - yoe / 100 + doy - 719468

def isLeapYear (y : ℤ) : Bool := y % 4 = 0 && (y % 100 ≠ 0 || y % 400 = 0)

def daysInMonth (y m : ℤ) : ℤ :=
  if m = 2 then (if isLeapYear y then 29 else 28)
  else if m = 4 ∨ m = 6 ∨ m = 9 ∨ m = 11 then 30
  else 31

/-- `datetime.min` and `datetime.max`. -/
def minTime : ℤ := dayNumber 1 1 1 * 86400000000

def maxTime : ℤ := dayNumber 10000 1 1 * 86400000000 - 1

def calendarDay? (y m d : ℕ) : Option ℤ :=
  if 1 ≤ y ∧ 1 ≤ m ∧ m ≤ 12 ∧ 1 ≤ d ∧ (d : ℤ) ≤ daysInMonth y m then some (dayNumber y m d) else none

def weekday (day : ℤ) : ℤ := (day + 3) % 7

def firstMonday (y : ℤ) : ℤ :=
  let first := dayNumber y 1 1
  if weekday first ≤ 3 then first - weekday first else first - weekday first + 7

def weekDay? (y week d : ℕ) : Option ℤ :=
  let first := weekday (dayNumber y 1 1)
  let weeks := if first = 3 ∨ first = 2 ∧ isLeapYear y = true then 53 else 52
  if 1 ≤ y ∧ 1 ≤ week ∧ week ≤ weeks ∧ 1 ≤ d ∧ d ≤ 7 then
    some (firstMonday y + (week - 1) * 7 + (d - 1))
  else none

def isDigit (c : Char) : Bool := '0' ≤ c && c ≤ '9'

def number? (width : ℕ) (cs : List Char) : Option ℕ :=
  if cs.length = width && cs.all isDigit then
    some (cs.foldl (fun n c => 10 * n + (c.toNat - 48)) 0)
  else none

/-- `text[i:j]` -/
def slice (i j : ℕ) (cs : List Char) : List Char := (cs.take j).drop i

def dateEnd (cs : List Char) : Option ℕ :=
  if cs.length = 7 then some 7
  else if cs[4]? = some '-' then
    if cs[5]? = some 'W' then
      if cs[8]? = some '-' then
        if cs.length = 9 then none
        else if (cs[10]?.any isDigit) then some 8
        else some 10
      else some 8
    else some 10
  else if cs[4]? = some 'W' then
    let digits := 7 + ((cs.drop 7).takeWhile isDigit).length
    some (if digits < 9 then digits else if digits % 2 = 0 then 7 else 8)
  else some 8

/-- `YYYY-MM-DD`, `YYYYMMDD`, `YYYY-Www`, `YYYYWww`, `YYYY-Www-D` or `YYYYWwwD` -/
def date? (cs : List Char) : Option ℤ := do
  let y ← number? 4 (cs.take 4)
  let dash := if cs[4]? = some '-' then 1 else 0
  if cs[4 + dash]? = some 'W' then
    let week ← number? 2 (slice (5 + dash) (7 + dash) cs)
    if cs.length ≤ 7 + dash then weekDay? y week 1
    else
      if (cs[7 + dash]? = some '-') ↔ dash = 1 then
        weekDay? y week (← number? 1 (slice (7 + 2 * dash) (8 + 2 * dash) cs))
      else none
  else
    let m ← number? 2 (slice (4 + dash) (6 + dash) cs)
    if (cs[6 + dash]? = some '-') ↔ dash = 1 then
      calendarDay? y m (← number? 2 (slice (6 + 2 * dash) (8 + 2 * dash) cs))
    else none

def charAt (i : ℕ) (cs : List Char) : Char := (cs[i]?).getD '\x00'

/--
The microseconds of a fraction whose end is `n` characters away, and whether a character follows
its digits. Digits after the sixth are dropped.
-/
def fraction? (n : ℕ) (cs : List Char) : Option (ℕ × Bool) := do
  let width := min 6 n
  let f ← number? width (cs.take width)
  some (f * 10 ^ (6 - width), charAt 0 ((cs.drop width).dropWhile isDigit) ≠ '\x00')

/--
Up to so many numbers of two digits, of which the last one may have a fraction. The end of the
numbers is `n` characters away, and what follows the last number is one character at most.
-/
def fields? : ℕ → Option Bool → ℕ → List Char → Option (List ℕ × ℕ × Bool)
  | 0, _, n, cs => (fraction? n cs).map fun (f, stray) => ([], f, stray)
  | k + 1, colons, n, cs => do
    let value ← number? 2 (cs.take 2)
    let c := charAt 2 cs
    -- the first separator decides for all of them
    let colons := colons.getD (c = ':')
    if n ≤ 3 then some ([value], 0, c ≠ '\x00')
    else
      let (values, f, stray) ←
        if colons && c = ':' then fields? k colons (n - 3) (cs.drop 3)
        else if c = '.' || c = ',' then
          (fraction? (n - 3) (cs.drop 3)).map fun (f, stray) => ([], f, stray)
        else if !colons then fields? k colons (n - 2) (cs.drop 2)
        else none
      some (value :: values, f, stray)

/-- `HH[:?MM[:?SS[.ffffff]]]`: hours, minutes, seconds, microseconds and whether more follows. -/
def clock? (n : ℕ) (cs : List Char) : Option ((ℕ × ℕ × ℕ × ℕ) × Bool) := do
  let (values, f, stray) ← fields? 3 none n cs
  some (((values[0]?).getD 0, (values[1]?).getD 0, (values[2]?).getD 0, f), stray)

/-- An offset from UTC in microseconds, without its sign; a fraction alone does not count. -/
def offset? (cs : List Char) : Option ℤ := do
  let ((h, m, s, f), stray) ← clock? cs.length cs
  let seconds : ℤ := (h * 60 + m) * 60 + s
  let offset := if seconds = 0 then 0 else seconds * 1000000 + f
  if stray || 86400000000 ≤ offset then none else some offset

/-- The time of day in microseconds, and the offset from UTC if there is one. -/
def timeOfDay? (cs : List Char) : Option (ℤ × Option ℤ) := do
  let isZone := fun c => c = '-' || c = '+' || c = 'Z'
  let ((h, m, s, f), stray) ← clock? (cs.takeWhile fun c => !isZone c).length cs
  if 24 ≤ h || 60 ≤ m || 60 ≤ s then none
  else
    let time : ℤ := ((h * 60 + m) * 60 + s) * 1000000 + f
    match cs.dropWhile fun c => !isZone c with
    -- one character too many is refused at the end of the text only
    | [] => if stray then none else some (time, none)
    | 'Z' :: rest => if charAt 0 rest = '\x00' then some (time, some 0) else none
    | sign :: zone =>
      let offset ← offset? zone
      some (time, some (if sign = '-' then -offset else offset))

/-- A text with one character for each byte it has in UTF-8; all bytes beyond ASCII are read alike. -/
def utf8Bytes (cs : List Char) : List Char :=
  cs.flatMap fun c => if c.toNat < 128 then [c] else List.replicate c.utf8Size '\x80'

/-- `datetime.fromisoformat`: the time as it is written, and its offset from UTC. -/
def fromIsoFormat (cs : List Char) : Option (ℤ × Option ℤ) := do
  if cs.length < 7 then none
  else
    let n ← dateEnd cs
    let day ← date? (cs.take n)
    if maxTime < day * 86400000000 then none
    else
      match cs.drop n with
      | [] => some (day * 86400000000, none)
      | _ :: rest =>
        let (time, offset) ← timeOfDay? (utf8Bytes rest)
        some (day * 86400000000 + time, offset)

end Minsight

import Mathlib.Data.List.Induction
import Mathlib.Data.List.Nodup
import Mathlib.Data.List.TakeWhile
import Minsight.Foundation.Digits
import Minsight.Foundation.Json

/-! # Values as JSON texts

`json.dumps(value, ensure_ascii=False)` and `json.loads(text)`. What is dumped is read back,
whatever characters its texts have, and a text that ends inside a string is not read.
-/

namespace Minsight

namespace JsonText

open Digits

structure NumberToken where
  minus : Bool
  int : List Char
  /-- The digits after the point. -/
  frac : Option (List Char) := none
  /-- The mark of an exponent with its sign, and its digits. -/
  exp : Option (List Char × List Char) := none

def NumberToken.text (t : NumberToken) : List Char :=
  (if t.minus then ['-'] else []) ++ (t.int ++ ((t.frac.elim [] ('.' :: ·)) ++
    t.exp.elim [] fun e => e.1 ++ e.2))

def NumberToken.isInt (t : NumberToken) : Bool := t.frac.isNone && t.exp.isNone

def AreDigits (cs : List Char) : Prop := cs ≠ [] ∧ ∀ c ∈ cs, isDecimal c = true

def exponentMarks : List (List Char) :=
  [['e'], ['E'], ['e', '+'], ['e', '-'], ['E', '+'], ['E', '-']]

structure NumberToken.WellFormed (t : NumberToken) : Prop where
  int : AreDigits t.int
  lead : t.int.head? = some '0' → t.int = ['0']
  frac : ∀ ds ∈ t.frac, AreDigits ds
  exp : ∀ e ∈ t.exp, e.1 ∈ exponentMarks ∧ AreDigits e.2

structure FloatText where
  /-- The numbers that are floats. -/
  isFloat : ℚ → Prop
  /-- `float.__repr__` -/
  print : ℚ → List Char
  /-- `float(token)`; a number that is not finite is `none`. -/
  read : List Char → Option ℚ
  print_token : ∀ q, isFloat q →
    ∃ t : NumberToken, t.WellFormed ∧ t.isInt = false ∧ t.text = print q
  read_print : ∀ q, isFloat q → read (print q) = some q

/-- `-?(0|[1-9][0-9]*)`, without the sign. -/
def scanInt (cs : List Char) : Option (List Char × List Char) :=
  match cs with
  | '0' :: rest => some (['0'], rest)
  | _ =>
    if cs.takeWhile isDecimal = [] then none
    else some (cs.takeWhile isDecimal, cs.dropWhile isDecimal)

/-- `(\.[0-9]+)?` -/
def scanFrac (cs : List Char) : Option (List Char) × List Char :=
  match cs with
  | '.' :: rest =>
    if rest.takeWhile isDecimal = [] then (none, cs)
    else (some (rest.takeWhile isDecimal), rest.dropWhile isDecimal)
  | _ => (none, cs)

def scanMark : List Char → Option (List Char × List Char)
  | 'e' :: '+' :: rest => some (['e', '+'], rest)
  | 'e' :: '-' :: rest => some (['e', '-'], rest)
  | 'e' :: rest => some (['e'], rest)
  | 'E' :: '+' :: rest => some (['E', '+'], rest)
  | 'E' :: '-' :: rest => some (['E', '-'], rest)
  | 'E' :: rest => some (['E'], rest)
  | _ => none

/-- `([eE][-+]?[0-9]+)?` -/
def scanExp (cs : List Char) : Option (List Char × List Char) × List Char :=
  match scanMark cs with
  | some (mark, rest) =>
    if rest.takeWhile isDecimal = [] then (none, cs)
    else (some (mark, rest.takeWhile isDecimal), rest.dropWhile isDecimal)
  | none => (none, cs)

def scanSign : List Char → Bool × List Char
  | '-' :: rest => (true, rest)
  | cs => (false, cs)

def scanNumber (cs : List Char) : Option (NumberToken × List Char) := do
  let (minus, cs) := scanSign cs
  let (int, cs) ← scanInt cs
  let (frac, cs) := scanFrac cs
  let (exp, cs) := scanExp cs
  some ({ minus, int, frac, exp }, cs)

def EndsNumber (rest : List Char) : Prop :=
  ∀ c ∈ rest.head?, isDecimal c = false ∧ c ≠ '.' ∧ c ≠ 'e' ∧ c ≠ 'E'

section Numbers

variable {ds rest : List Char} {t : NumberToken}

theorem span_digits (hds : AreDigits ds) (hrest : ∀ c ∈ rest.head?, isDecimal c = false) :
    (ds ++ rest).takeWhile isDecimal = ds ∧ (ds ++ rest).dropWhile isDecimal = rest := by
  have hnone : rest.takeWhile isDecimal = [] ∧ rest.dropWhile isDecimal = rest := by
    cases rest with
    | nil => exact ⟨rfl, rfl⟩
    | cons c rest => simp [hrest c rfl]
  rw [List.takeWhile_append_of_pos hds.2, List.dropWhile_append_of_pos hds.2, hnone.1, hnone.2]
  exact ⟨List.append_nil _, rfl⟩

theorem scanInt_append (hds : AreDigits ds) (hlead : ds.head? = some '0' → ds = ['0'])
    (hrest : ∀ c ∈ rest.head?, isDecimal c = false) : scanInt (ds ++ rest) = some (ds, rest) := by
  obtain ⟨htake, hdrop⟩ := span_digits hds hrest
  unfold scanInt
  split
  · rename_i tail heq
    have hzero : ds = ['0'] := by
      cases ds with
      | nil => exact absurd rfl hds.1
      | cons d ds => exact hlead (congrArg some (List.cons.inj heq).1)
    rw [hzero] at heq ⊢
    rw [← (List.cons.inj heq).2]
    rfl
  · rw [htake, hdrop, if_neg hds.1]

theorem scanFrac_append (hds : AreDigits ds) (hrest : ∀ c ∈ rest.head?, isDecimal c = false) :
    scanFrac ('.' :: (ds ++ rest)) = (some ds, rest) := by
  obtain ⟨htake, hdrop⟩ := span_digits hds hrest
  rw [scanFrac, htake, hdrop, if_neg hds.1]

theorem scanFrac_none (hrest : ∀ c ∈ rest.head?, c ≠ '.') : scanFrac rest = (none, rest) := by
  unfold scanFrac
  split
  · exact absurd rfl (hrest '.' rfl)
  · rfl

theorem scanExp_append {mark : List Char} (hmark : mark ∈ exponentMarks) (hds : AreDigits ds)
    (hrest : ∀ c ∈ rest.head?, isDecimal c = false) :
    scanExp (mark ++ (ds ++ rest)) = (some (mark, ds), rest) := by
  obtain ⟨htake, hdrop⟩ := span_digits hds hrest
  have hscan : scanMark (mark ++ (ds ++ rest)) = some (mark, ds ++ rest) := by
    obtain ⟨d, ds, rfl⟩ := List.exists_cons_of_ne_nil hds.1
    have hd : isDecimal d = true := hds.2 d List.mem_cons_self
    have hplus : d ≠ '+' := by rintro rfl; exact absurd hd (by decide)
    have hminus : d ≠ '-' := by rintro rfl; exact absurd hd (by decide)
    simp only [exponentMarks, List.mem_cons, List.not_mem_nil, or_false] at hmark
    rcases hmark with rfl | rfl | rfl | rfl | rfl | rfl <;> simp [scanMark, hplus, hminus]
  rw [scanExp, hscan]
  simp only
  rw [htake, hdrop, if_neg hds.1]

theorem scanExp_none (hrest : ∀ c ∈ rest.head?, c ≠ 'e' ∧ c ≠ 'E') :
    scanExp rest = (none, rest) := by
  have hmark : scanMark rest = none := by
    cases rest with
    | nil => rfl
    | cons c rest =>
      obtain ⟨he, hE⟩ := hrest c rfl
      simp [scanMark, he, hE]
  rw [scanExp, hmark]

theorem scanSign_append (minus : Bool) (hds : AreDigits ds) :
    scanSign ((if minus then ['-'] else []) ++ (ds ++ rest)) = (minus, ds ++ rest) := by
  obtain ⟨d, ds, rfl⟩ := List.exists_cons_of_ne_nil hds.1
  have hd : isDecimal d = true := hds.2 d List.mem_cons_self
  have hminus : d ≠ '-' := by rintro rfl; exact absurd hd (by decide)
  cases minus with
  | true => rfl
  | false => simp [scanSign, hminus]

theorem scanNumber_text (ht : t.WellFormed) (hrest : EndsNumber rest) :
    scanNumber (t.text ++ rest) = some (t, rest) := by
  obtain ⟨minus, int, frac, exp⟩ := t
  obtain ⟨hint, hlead, hfrac, hexp⟩ := ht
  have hdigit : ∀ c ∈ rest.head?, isDecimal c = false := fun c hc => (hrest c hc).1
  -- What follows each part does not begin with a digit.
  have hafterFrac : scanExp (exp.elim [] (fun e => e.1 ++ e.2) ++ rest) = (exp, rest) := by
    cases exp with
    | none => exact scanExp_none fun c hc => (hrest c hc).2.2
    | some e =>
      obtain ⟨hmark, hds⟩ := hexp e rfl
      rw [Option.elim_some, List.append_assoc]
      exact scanExp_append hmark hds hdigit
  have hexpHead : ∀ c ∈ (exp.elim [] (fun e => e.1 ++ e.2) ++ rest).head?,
      isDecimal c = false ∧ c ≠ '.' := by
    cases exp with
    | none => exact fun c hc => ⟨(hrest c hc).1, (hrest c hc).2.1⟩
    | some e =>
      obtain ⟨hmark, -⟩ := hexp e rfl
      obtain ⟨mark, ds⟩ := e
      simp only [exponentMarks, List.mem_cons, List.not_mem_nil, or_false] at hmark
      rcases hmark with rfl | rfl | rfl | rfl | rfl | rfl <;>
        · rintro c ⟨⟩
          decide
  have hafterInt : scanFrac (frac.elim [] ('.' :: ·) ++
      (exp.elim [] (fun e => e.1 ++ e.2) ++ rest)) =
        (frac, exp.elim [] (fun e => e.1 ++ e.2) ++ rest) := by
    cases frac with
    | none => exact scanFrac_none fun c hc => (hexpHead c hc).2
    | some ds => exact scanFrac_append (hfrac ds rfl) fun c hc => (hexpHead c hc).1
  have hfracHead : ∀ c ∈ (frac.elim [] ('.' :: ·) ++
      (exp.elim [] (fun e => e.1 ++ e.2) ++ rest)).head?, isDecimal c = false := by
    cases frac with
    | none => exact fun c hc => (hexpHead c hc).1
    | some ds =>
      rintro c ⟨⟩
      decide
  simp only [NumberToken.text, List.append_assoc] at *
  rw [scanNumber]
  simp only [scanSign_append minus hint, scanInt_append hint hlead hfracHead, Option.bind_eq_bind,
    Option.bind_some, hafterInt, hafterFrac]

end Numbers

def escapeChar (c : Char) : List Char :=
  if c = '"' then ['\\', '"']
  else if c = '\\' then ['\\', '\\']
  else if c = '\n' then ['\\', 'n']
  else if c = '\r' then ['\\', 'r']
  else if c = '\t' then ['\\', 't']
  else if c = '\x0c' then ['\\', 'f']
  else if c = '\x08' then ['\\', 'b']
  else if c.toNat < 32 then
    ['\\', 'u', '0', '0', Nat.digitChar (c.toNat / 16), Nat.digitChar (c.toNat % 16)]
  else [c]

def quote (s : String) : List Char := '"' :: (s.toList.flatMap escapeChar ++ ['"'])

def splitString : List Char → Option (List Char × List Char)
  | [] => none
  | c :: rest =>
    if c = '"' then some ([], rest)
    else if c = '\\' then
      match rest with
      | [] => none
      | e :: rest => (splitString rest).map fun (raw, r) => (c :: e :: raw, r)
    else (splitString rest).map fun (raw, r) => (c :: raw, r)

def simpleEscape (c : Char) : Option Char :=
  if c = '"' ∨ c = '\\' ∨ c = '/' then some c
  else if c = 'n' then some '\n'
  else if c = 'r' then some '\r'
  else if c = 't' then some '\t'
  else if c = 'f' then some '\x0c'
  else if c = 'b' then some '\x08'
  else none

def hexValue (digits : List Char) : Option ℕ :=
  if digits.all isHex then some (digitsValue 16 digits) else none

/--
The characters that are meant. A half of a surrogate pair that stands alone is no character of
a text.
-/
def unescape : List Char → Option (List Char)
  | [] => some []
  | c :: rest =>
    if c = '\\' then
      match rest with
      | [] => none
      | e :: rest =>
        if e = 'u' then
          match rest with
          | h₁ :: h₂ :: h₃ :: h₄ :: rest => do
            let n ← hexValue [h₁, h₂, h₃, h₄]
            if 0xD800 ≤ n ∧ n < 0xDC00 then
              match rest with
              | '\\' :: 'u' :: l₁ :: l₂ :: l₃ :: l₄ :: rest => do
                let low ← hexValue [l₁, l₂, l₃, l₄]
                if 0xDC00 ≤ low ∧ low < 0xE000 then
                  (unescape rest).map
                    (Char.ofNat (0x10000 + (n - 0xD800) * 0x400 + (low - 0xDC00)) :: ·)
                else none
              | _ => none
            else if 0xDC00 ≤ n ∧ n < 0xE000 then none
            else (unescape rest).map (Char.ofNat n :: ·)
          | _ => none
        else do
          let meant ← simpleEscape e
          (unescape rest).map (meant :: ·)
    else if c.toNat < 32 then none
    else (unescape rest).map (c :: ·)

def readString (cs : List Char) : Option (String × List Char) := do
  let (raw, rest) ← splitString cs
  let text ← unescape raw
  some (String.ofList text, rest)

section Strings

variable {cs raw rest : List Char} {c : Char}

theorem hexDigit_plain {d : ℕ} (h : d < 16) : d.digitChar ≠ '"' ∧ d.digitChar ≠ '\\' := by
  interval_cases d <;> decide

theorem splitString_plain (hquote : c ≠ '"') (hslash : c ≠ '\\') (rest : List Char) :
    splitString (c :: rest) = (splitString rest).map fun (raw, r) => (c :: raw, r) := by
  conv_lhs => rw [splitString.eq_def]
  simp only [hquote, hslash, if_false]

theorem splitString_escaped (e : Char) (rest : List Char) :
    splitString ('\\' :: e :: rest) =
      (splitString rest).map fun (raw, r) => ('\\' :: e :: raw, r) := by
  conv_lhs => rw [splitString.eq_def]
  rfl

theorem splitString_close (rest : List Char) : splitString ('"' :: rest) = some ([], rest) := by
  rw [splitString.eq_def]
  rfl

theorem splitString_escapeChar (c : Char) (rest : List Char) :
    splitString (escapeChar c ++ rest) =
      (splitString rest).map fun (raw, r) => (escapeChar c ++ raw, r) := by
  unfold escapeChar
  split_ifs with hquote hslash hn hr ht hf hb hcontrol
  · exact splitString_escaped _ _
  · exact splitString_escaped _ _
  · exact splitString_escaped _ _
  · exact splitString_escaped _ _
  · exact splitString_escaped _ _
  · exact splitString_escaped _ _
  · exact splitString_escaped _ _
  · obtain ⟨hhigh, hhigh'⟩ := @hexDigit_plain (c.toNat / 16) (by omega)
    obtain ⟨hlow, hlow'⟩ := @hexDigit_plain (c.toNat % 16) (by omega)
    simp only [List.cons_append, List.nil_append]
    rw [splitString_escaped, splitString_plain (by decide) (by decide),
      splitString_plain (by decide) (by decide), splitString_plain hhigh hhigh',
      splitString_plain hlow hlow']
    simp only [Option.map_map]
    rfl
  · exact splitString_plain hquote hslash rest

theorem unescape_simple {e meant : Char} (he : e ≠ 'u') (hmeant : simpleEscape e = some meant)
    (rest : List Char) : unescape ('\\' :: e :: rest) = (unescape rest).map (meant :: ·) := by
  conv_lhs => rw [unescape.eq_def]
  simp only [if_true, he, if_false, hmeant, Option.bind_eq_bind, Option.bind_some]

theorem hexValue_control {n : ℕ} (hn : n < 32) :
    hexValue ['0', '0', Nat.digitChar (n / 16), Nat.digitChar (n % 16)] = some n := by
  interval_cases n <;> decide

theorem unescape_escapeChar (c : Char) (rest : List Char) :
    unescape (escapeChar c ++ rest) = (unescape rest).map (c :: ·) := by
  unfold escapeChar
  split_ifs with hquote hslash hn hr ht hf hb hcontrol
  · rw [hquote]
    exact unescape_simple (by decide) rfl rest
  · rw [hslash]
    exact unescape_simple (by decide) rfl rest
  · rw [hn]
    exact unescape_simple (by decide) rfl rest
  · rw [hr]
    exact unescape_simple (by decide) rfl rest
  · rw [ht]
    exact unescape_simple (by decide) rfl rest
  · rw [hf]
    exact unescape_simple (by decide) rfl rest
  · rw [hb]
    exact unescape_simple (by decide) rfl rest
  · have hvalue := hexValue_control hcontrol
    simp only [List.cons_append, List.nil_append]
    conv_lhs => rw [unescape.eq_def]
    simp only [if_true, hvalue, Option.bind_eq_bind, Option.bind_some]
    rw [if_neg (by omega), if_neg (by omega), Char.ofNat_toNat]
  · rw [List.cons_append, List.nil_append]
    conv_lhs => rw [unescape.eq_def]
    simp only [hslash, hcontrol, if_false]

theorem readString_quote (s : String) (rest : List Char) :
    readString (s.toList.flatMap escapeChar ++ '"' :: rest) = some (s, rest) := by
  have hsplit (cs : List Char) : splitString (cs.flatMap escapeChar ++ '"' :: rest) =
      some (cs.flatMap escapeChar, rest) := by
    induction cs with
    | nil => exact splitString_close rest
    | cons c cs ih =>
      rw [List.flatMap_cons, List.append_assoc, splitString_escapeChar, ih]
      rfl
  have hmeant (cs : List Char) : unescape (cs.flatMap escapeChar) = some cs := by
    induction cs with
    | nil => rfl
    | cons c cs ih =>
      rw [List.flatMap_cons, unescape_escapeChar, ih]
      rfl
  rw [readString, hsplit]
  simp only [Option.bind_eq_bind, Option.bind_some, hmeant, String.ofList_toList]

end Strings

def intToken (n : ℤ) : NumberToken where
  minus := decide (n < 0)
  int := Nat.toDigits 10 n.natAbs

section

variable (lib : FloatText)

mutual

/-- `json.dumps(value, ensure_ascii=False)` -/
def dump : Json → List Char
  | .null => ['n', 'u', 'l', 'l']
  | .bool true => ['t', 'r', 'u', 'e']
  | .bool false => ['f', 'a', 'l', 's', 'e']
  | .int n => (intToken n).text
  | .float q => lib.print q
  | .str s => quote s
  | .arr [] => ['[', ']']
  | .arr (v :: vs) => '[' :: (dump v ++ dumpItems vs)
  | .obj [] => ['{', '}']
  | .obj (f :: fs) => '{' :: (dumpField f ++ dumpFields fs)

def dumpItems : List Json → List Char
  | [] => [']']
  | v :: vs => ',' :: ' ' :: (dump v ++ dumpItems vs)

def dumpField : String × Json → List Char
  | (key, value) => quote key ++ ':' :: ' ' :: dump value

def dumpFields : List (String × Json) → List Char
  | [] => ['}']
  | f :: fs => ',' :: ' ' :: (dumpField f ++ dumpFields fs)

end

def isJsonSpace (c : Char) : Bool := c = ' ' || c = '\t' || c = '\n' || c = '\r'

def skipSpace (cs : List Char) : List Char := cs.dropWhile isJsonSpace

/-- The fields as a dictionary has them: of two with one key, the last value counts. -/
def dictOf (fields : List (String × Json)) : List (String × Json) :=
  fields.foldl (fun dict f => setField dict f.1 f.2) []

/-- A number; one that is not finite is no value that the database takes. -/
def readNumber (cs : List Char) : Option (Json × List Char) := do
  let (t, rest) ← scanNumber cs
  if t.isInt then
    some (.int ((if t.minus then -1 else 1) * digitsValue 10 t.int), rest)
  else
    let q ← lib.read t.text
    some (.float q, rest)

def readAtom (cs : List Char) : Option (Json × List Char) :=
  match cs with
  | 'n' :: 'u' :: 'l' :: 'l' :: rest => some (.null, rest)
  | 't' :: 'r' :: 'u' :: 'e' :: rest => some (.bool true, rest)
  | 'f' :: 'a' :: 'l' :: 's' :: 'e' :: rest => some (.bool false, rest)
  | _ => readNumber lib cs

mutual

/-- A value and what follows it. The fuel bounds the characters that are read. -/
def readValue : ℕ → List Char → Option (Json × List Char)
  | 0, _ => none
  | fuel + 1, cs =>
    match cs with
    | '"' :: rest => (readString rest).map fun (s, rest) => (.str s, rest)
    | '[' :: rest =>
      match skipSpace rest with
      | ']' :: rest => some (.arr [], rest)
      | rest => do
        let (v, rest) ← readValue fuel rest
        let (vs, rest) ← readItems fuel rest
        some (.arr (v :: vs), rest)
    | '{' :: rest =>
      match skipSpace rest with
      | '}' :: rest => some (.obj [], rest)
      | rest => do
        let (f, rest) ← readField fuel rest
        let (fs, rest) ← readFields fuel rest
        some (.obj (dictOf (f :: fs)), rest)
    | _ => readAtom lib cs

def readItems : ℕ → List Char → Option (List Json × List Char)
  | 0, _ => none
  | fuel + 1, cs =>
    match skipSpace cs with
    | ']' :: rest => some ([], rest)
    | ',' :: rest => do
      let (v, rest) ← readValue fuel (skipSpace rest)
      let (vs, rest) ← readItems fuel rest
      some (v :: vs, rest)
    | _ => none

def readField : ℕ → List Char → Option ((String × Json) × List Char)
  | 0, _ => none
  | fuel + 1, cs =>
    match cs with
    | '"' :: rest => do
      let (key, rest) ← readString rest
      match skipSpace rest with
      | ':' :: rest => do
        let (v, rest) ← readValue fuel (skipSpace rest)
        some ((key, v), rest)
      | _ => none
    | _ => none

def readFields : ℕ → List Char → Option (List (String × Json) × List Char)
  | 0, _ => none
  | fuel + 1, cs =>
    match skipSpace cs with
    | '}' :: rest => some ([], rest)
    | ',' :: rest => do
      let (f, rest) ← readField fuel (skipSpace rest)
      let (fs, rest) ← readFields fuel rest
      some (f :: fs, rest)
    | _ => none

end

/-- `json.loads(text)` -/
def load (text : List Char) : Option Json := do
  let (v, rest) ← readValue lib (text.length + 1) (skipSpace text)
  if skipSpace rest = [] then some v else none

mutual

/-- A value as a program holds it: the keys of an object differ, and its floats are floats. -/
def Held : Json → Prop
  | .float q => lib.isFloat q
  | .arr vs => HeldItems vs
  | .obj fs => (fs.map Prod.fst).Nodup ∧ HeldFields fs
  | _ => True

def HeldItems : List Json → Prop
  | [] => True
  | v :: vs => Held v ∧ HeldItems vs

def HeldFields : List (String × Json) → Prop
  | [] => True
  | f :: fs => HeldField f ∧ HeldFields fs

def HeldField : String × Json → Prop
  | (_, v) => Held v

end

end

section RoundTrip

variable {lib : FloatText} {rest : List Char} {v : Json}

theorem skipSpace_of_head {c : Char} {cs : List Char} (hc : isJsonSpace c = false) :
    skipSpace (c :: cs) = c :: cs := by
  rw [skipSpace, List.dropWhile_cons_of_neg]
  rw [hc]
  nofun

theorem intToken_wellFormed (n : ℤ) : (intToken n).WellFormed where
  int := ⟨Nat.toDigits_ne_nil,
    forall_mem_toDigits (by decide) (fun _ hd => isDecimal_digitChar hd) _⟩
  lead := toDigits_head (by decide) (by decide) _
  frac := nofun
  exp := nofun

theorem intToken_value (n : ℤ) :
    (if (intToken n).minus then -1 else 1) * (digitsValue 10 (intToken n).int : ℤ) = n := by
  rw [intToken, digitsValue_toDigits (by decide) (by decide)]
  by_cases hn : n < 0
  · rw [decide_eq_true hn, if_pos rfl]
    omega
  · rw [decide_eq_false hn, if_neg Bool.false_ne_true]
    omega

theorem NumberToken.WellFormed.head {t : NumberToken} (ht : t.WellFormed) :
    ∃ c cs, t.text = c :: cs ∧ (c = '-' ∨ isDecimal c = true) := by
  obtain ⟨d, ds, hint⟩ := List.exists_cons_of_ne_nil ht.int.1
  have hd : isDecimal d = true := ht.int.2 d (hint ▸ List.mem_cons_self)
  rw [NumberToken.text, hint]
  cases t.minus with
  | true => exact ⟨'-', _, rfl, .inl rfl⟩
  | false => exact ⟨d, _, rfl, .inr hd⟩

theorem readValue_atom {c : Char} {cs : List Char} {fuel : ℕ}
    (hc : c ≠ '"' ∧ c ≠ '[' ∧ c ≠ '{') :
    readValue lib (fuel + 1) (c :: cs) = readAtom lib (c :: cs) := by
  obtain ⟨hquote, hlist, hobj⟩ := hc
  rw [readValue.eq_def]
  simp only
  split
  · rename_i heq
    exact absurd (List.cons.inj heq).1 hquote
  · rename_i heq
    exact absurd (List.cons.inj heq).1 hlist
  · rename_i heq
    exact absurd (List.cons.inj heq).1 hobj
  · rfl

theorem readAtom_number {c : Char} {cs : List Char} (hc : c = '-' ∨ isDecimal c = true) :
    readAtom lib (c :: cs) = readNumber lib (c :: cs) := by
  have hletter : c ≠ 'n' ∧ c ≠ 't' ∧ c ≠ 'f' := by
    refine ⟨?_, ?_, ?_⟩ <;>
      · rintro rfl
        rcases hc with hc | hc <;> exact absurd hc (by decide)
  unfold readAtom
  split
  · rename_i heq
    exact absurd (List.cons.inj heq).1 hletter.1
  · rename_i heq
    exact absurd (List.cons.inj heq).1 hletter.2.1
  · rename_i heq
    exact absurd (List.cons.inj heq).1 hletter.2.2
  · rfl

theorem readValue_number {t : NumberToken} (ht : t.WellFormed) (fuel : ℕ) :
    readValue lib (fuel + 1) (t.text ++ rest) = readNumber lib (t.text ++ rest) := by
  obtain ⟨c, cs, htext, hc⟩ := ht.head
  have hplain : c ≠ '"' ∧ c ≠ '[' ∧ c ≠ '{' := by
    refine ⟨?_, ?_, ?_⟩ <;>
      · rintro rfl
        rcases hc with hc | hc <;> exact absurd hc (by decide)
  rw [htext, List.cons_append, readValue_atom hplain, readAtom_number hc]

theorem readNumber_int (n : ℤ) (hrest : EndsNumber rest) :
    readNumber lib ((intToken n).text ++ rest) = some (.int n, rest) := by
  have hint : (intToken n).isInt = true := rfl
  rw [readNumber, scanNumber_text (intToken_wellFormed n) hrest]
  simp only [Option.bind_eq_bind, Option.bind_some, hint, if_true, intToken_value]

theorem readNumber_float {q : ℚ} (hq : lib.isFloat q) (hrest : EndsNumber rest) :
    ∃ t : NumberToken, t.WellFormed ∧ t.text = lib.print q ∧
      readNumber lib (t.text ++ rest) = some (.float q, rest) := by
  obtain ⟨t, ht, hfloat, htext⟩ := lib.print_token q hq
  refine ⟨t, ht, htext, ?_⟩
  have hread : lib.read t.text = some q := htext ▸ lib.read_print q hq
  rw [readNumber, scanNumber_text ht hrest]
  simp [hfloat, hread]

theorem dump_head (hv : Held lib v) :
    ∃ c cs, dump lib v = c :: cs ∧ isJsonSpace c = false ∧ c ≠ ']' := by
  have hnumber {t : NumberToken} (ht : t.WellFormed) :
      ∃ c cs, t.text = c :: cs ∧ isJsonSpace c = false ∧ c ≠ ']' := by
    obtain ⟨c, cs, htext, hc⟩ := ht.head
    refine ⟨c, cs, htext, ?_, ?_⟩
    · by_contra hspace
      simp only [isJsonSpace, Bool.not_eq_false, Bool.or_eq_true, decide_eq_true_iff] at hspace
      rcases hspace with ((rfl | rfl) | rfl) | rfl <;>
        rcases hc with hc | hc <;> exact absurd hc (by decide)
    · rintro rfl
      rcases hc with hc | hc <;> exact absurd hc (by decide)
  cases v with
  | null => exact ⟨_, _, rfl, rfl, by decide⟩
  | bool b => cases b <;> exact ⟨_, _, rfl, rfl, by decide⟩
  | int n => exact hnumber (intToken_wellFormed n)
  | float q =>
    obtain ⟨t, ht, -, htext⟩ := lib.print_token q hv
    rw [dump, ← htext]
    exact hnumber ht
  | str s => exact ⟨_, _, rfl, rfl, by decide⟩
  | arr vs => cases vs <;> exact ⟨_, _, rfl, rfl, by decide⟩
  | obj fs => cases fs <;> exact ⟨_, _, rfl, rfl, by decide⟩

theorem endsNumber_cons {c : Char} {cs : List Char} (hc : c = ',' ∨ c = ']' ∨ c = '}') :
    EndsNumber (c :: cs) := by
  rintro _ ⟨⟩
  rcases hc with rfl | rfl | rfl <;> decide

theorem endsNumber_items (vs : List Json) : EndsNumber (dumpItems lib vs ++ rest) := by
  cases vs with
  | nil => exact endsNumber_cons (.inr (.inl rfl))
  | cons v vs => exact endsNumber_cons (.inl rfl)

theorem endsNumber_fields (fs : List (String × Json)) : EndsNumber (dumpFields lib fs ++ rest) := by
  cases fs with
  | nil => exact endsNumber_cons (.inr (.inr rfl))
  | cons f fs => exact endsNumber_cons (.inl rfl)

theorem setField_new {fields : List (String × Json)} {key : String} (value : Json)
    (h : key ∉ fields.map Prod.fst) : setField fields key value = fields ++ [(key, value)] := by
  rw [setField, if_neg]
  rw [List.any_eq_true]
  rintro ⟨f, hf, hkey⟩
  exact h (beq_iff_eq.mp hkey ▸ List.mem_map_of_mem hf)

theorem dictOf_nodup {fields : List (String × Json)} (h : (fields.map Prod.fst).Nodup) :
    dictOf fields = fields := by
  induction fields using List.reverseRecOn with
  | nil => rfl
  | append_singleton fields f ih =>
    rw [List.map_append, List.map_singleton] at h
    have hnew : f.1 ∉ fields.map Prod.fst := fun hmem =>
      (List.nodup_append.mp h).2.2 _ hmem _ (List.mem_singleton_self _) rfl
    rw [dictOf, List.foldl_append, ← dictOf, ih (List.nodup_append.mp h).1, List.foldl_cons,
      List.foldl_nil, setField_new _ hnew]

theorem readValue_quote (s : String) (fuel : ℕ) :
    readValue lib (fuel + 1) (quote s ++ rest) = some (.str s, rest) := by
  rw [quote, List.cons_append, List.append_assoc, List.singleton_append]
  change (readString _).map _ = _
  rw [readString_quote]
  rfl

theorem readValue_list {cs : List Char} {fuel : ℕ} (hcs : ∀ r, skipSpace cs ≠ ']' :: r) :
    readValue lib (fuel + 1) ('[' :: cs) = (do
      let (v, rest) ← readValue lib fuel (skipSpace cs)
      let (vs, rest) ← readItems lib fuel rest
      some (.arr (v :: vs), rest)) := by
  rw [readValue.eq_def]
  simp only

theorem readValue_object {cs : List Char} {fuel : ℕ} (hcs : ∀ r, skipSpace cs ≠ '}' :: r) :
    readValue lib (fuel + 1) ('{' :: cs) = (do
      let (f, rest) ← readField lib fuel (skipSpace cs)
      let (fs, rest) ← readFields lib fuel rest
      some (.obj (dictOf (f :: fs)), rest)) := by
  rw [readValue.eq_def]
  simp only

theorem skipSpace_dump (hv : Held lib v) (rest : List Char) :
    skipSpace (' ' :: (dump lib v ++ rest)) = dump lib v ++ rest ∧
      skipSpace (dump lib v ++ rest) = dump lib v ++ rest := by
  obtain ⟨c, cs, hhead, hspace, -⟩ := dump_head hv
  have hskip : skipSpace (dump lib v ++ rest) = dump lib v ++ rest := by
    rw [hhead, List.cons_append, skipSpace_of_head hspace]
  exact ⟨(List.dropWhile_cons_of_pos rfl).trans hskip, hskip⟩

theorem skipSpace_field (f : String × Json) (rest : List Char) :
    skipSpace (' ' :: (dumpField lib f ++ rest)) = dumpField lib f ++ rest ∧
      skipSpace (dumpField lib f ++ rest) = dumpField lib f ++ rest := by
  have hskip : skipSpace (dumpField lib f ++ rest) = dumpField lib f ++ rest := by
    obtain ⟨key, v⟩ := f
    exact skipSpace_of_head rfl
  exact ⟨(List.dropWhile_cons_of_pos rfl).trans hskip, hskip⟩

mutual

theorem readValue_dump : ∀ (v : Json) (fuel : ℕ) (rest : List Char), Held lib v →
    EndsNumber rest → (dump lib v).length ≤ fuel →
    readValue lib fuel (dump lib v ++ rest) = some (v, rest)
  | .null, fuel + 1, rest, _, _, _ => rfl
  | .bool true, fuel + 1, rest, _, _, _ => rfl
  | .bool false, fuel + 1, rest, _, _, _ => rfl
  | .int n, fuel + 1, rest, _, hrest, _ => by
    rw [dump, readValue_number (intToken_wellFormed n), readNumber_int n hrest]
  | .float q, fuel + 1, rest, hv, hrest, _ => by
    obtain ⟨t, ht, htext, hread⟩ := readNumber_float hv hrest
    rw [dump, ← htext, readValue_number ht, hread]
  | .str s, fuel + 1, rest, _, _, _ => by
    rw [dump, readValue_quote]
  | .arr [], fuel + 1, rest, _, _, _ => rfl
  | .arr (v :: vs), fuel + 1, rest, hv, _, hfuel => by
    rw [dump, List.length_cons, List.length_append] at hfuel
    have hfirst := readValue_dump v fuel (dumpItems lib vs ++ rest) hv.1 (endsNumber_items vs)
      (by omega)
    have hothers := readItems_dump vs fuel rest hv.2 (by omega)
    have hskip := (skipSpace_dump hv.1 (dumpItems lib vs ++ rest)).2
    obtain ⟨c, cs, hhead, -, hend⟩ := dump_head hv.1
    rw [dump, List.cons_append, List.append_assoc, readValue_list, hskip, hfirst]
    · simp only [Option.bind_eq_bind, Option.bind_some, hothers]
    · intro r heq
      rw [hskip, hhead] at heq
      exact hend (List.cons.inj heq).1
  | .obj [], fuel + 1, rest, _, _, _ => rfl
  | .obj (f :: fs), fuel + 1, rest, hv, _, hfuel => by
    obtain ⟨hkeys, hfield, hfields⟩ := hv
    rw [dump, List.length_cons, List.length_append] at hfuel
    have hfirst := readField_dump f fuel (dumpFields lib fs ++ rest) hfield (endsNumber_fields fs)
      (by omega)
    have hothers := readFields_dump fs fuel rest hfields (by omega)
    have hskip := (@skipSpace_field lib f (dumpFields lib fs ++ rest)).2
    rw [dump, List.cons_append, List.append_assoc, readValue_object, hskip, hfirst]
    · simp only [Option.bind_eq_bind, Option.bind_some, hothers, dictOf_nodup hkeys]
    · intro r heq
      rw [hskip] at heq
      obtain ⟨key, v⟩ := f
      cases (List.cons.inj heq).1
  | v, 0, rest, hv, _, hfuel => by
    obtain ⟨c, cs, hhead, -⟩ := dump_head hv
    rw [hhead] at hfuel
    exact absurd hfuel (Nat.not_succ_le_zero _)

theorem readItems_dump : ∀ (vs : List Json) (fuel : ℕ) (rest : List Char), HeldItems lib vs →
    (dumpItems lib vs).length ≤ fuel →
    readItems lib fuel (dumpItems lib vs ++ rest) = some (vs, rest)
  | [], fuel + 1, rest, _, _ => rfl
  | v :: vs, fuel + 1, rest, hv, hfuel => by
    rw [dumpItems, List.length_cons, List.length_cons, List.length_append] at hfuel
    have hfirst := readValue_dump v fuel (dumpItems lib vs ++ rest) hv.1 (endsNumber_items vs)
      (by omega)
    have hothers := readItems_dump vs fuel rest hv.2 (by omega)
    have hskip := (skipSpace_dump hv.1 (dumpItems lib vs ++ rest)).1
    rw [dumpItems, List.cons_append, List.cons_append, List.append_assoc]
    change (readValue lib fuel (skipSpace _) >>= _) = _
    rw [hskip, hfirst]
    simp only [Option.bind_eq_bind, Option.bind_some, hothers]
  | [], 0, rest, _, hfuel => absurd hfuel (Nat.not_succ_le_zero _)
  | v :: vs, 0, rest, _, hfuel => absurd hfuel (Nat.not_succ_le_zero _)

theorem readField_dump : ∀ (f : String × Json) (fuel : ℕ) (rest : List Char), HeldField lib f →
    EndsNumber rest → (dumpField lib f).length ≤ fuel →
    readField lib fuel (dumpField lib f ++ rest) = some (f, rest)
  | (key, v), fuel + 1, rest, hv, hrest, hfuel => by
    rw [dumpField, List.length_append, List.length_cons, List.length_cons] at hfuel
    have hvalue := readValue_dump v fuel rest hv hrest (by omega)
    have hskip := (skipSpace_dump hv rest).1
    rw [dumpField, quote, List.cons_append, List.cons_append, List.append_assoc, List.append_assoc,
      List.singleton_append]
    change (readString _ >>= _) = _
    rw [readString_quote]
    change (readValue lib fuel (skipSpace (' ' :: (dump lib v ++ rest))) >>= _) = _
    rw [hskip, hvalue]
    rfl
  | (key, v), 0, rest, _, _, hfuel => absurd hfuel (Nat.not_succ_le_zero _)

theorem readFields_dump : ∀ (fs : List (String × Json)) (fuel : ℕ) (rest : List Char),
    HeldFields lib fs → (dumpFields lib fs).length ≤ fuel →
    readFields lib fuel (dumpFields lib fs ++ rest) = some (fs, rest)
  | [], fuel + 1, rest, _, _ => rfl
  | f :: fs, fuel + 1, rest, hv, hfuel => by
    rw [dumpFields, List.length_cons, List.length_cons, List.length_append] at hfuel
    have hfirst := readField_dump f fuel (dumpFields lib fs ++ rest) hv.1 (endsNumber_fields fs)
      (by omega)
    have hothers := readFields_dump fs fuel rest hv.2 (by omega)
    have hskip := (@skipSpace_field lib f (dumpFields lib fs ++ rest)).1
    rw [dumpFields, List.cons_append, List.cons_append, List.append_assoc]
    change (readField lib fuel (skipSpace _) >>= _) = _
    rw [hskip, hfirst]
    simp only [Option.bind_eq_bind, Option.bind_some, hothers]
  | [], 0, rest, _, hfuel => absurd hfuel (Nat.not_succ_le_zero _)
  | f :: fs, 0, rest, _, hfuel => absurd hfuel (Nat.not_succ_le_zero _)

end

theorem load_dump (hv : Held lib v) : load lib (dump lib v) = some v := by
  have hread := readValue_dump v ((dump lib v).length + 1) [] hv nofun (Nat.le_succ _)
  have hskip := (skipSpace_dump hv []).2
  rw [List.append_nil] at hread hskip
  rw [load, hskip, hread]
  rfl

end RoundTrip

/-- The float 0.5, as it is written and read. -/
def halfFloats : FloatText where
  isFloat q := q = 1 / 2
  print _ := ['0', '.', '5']
  read text := if text = ['0', '.', '5'] then some (1 / 2) else none
  print_token := by
    intro q _
    refine ⟨{ minus := false, int := ['0'], frac := some ['5'] }, ?_, rfl, rfl⟩
    have hdigit {d : Char} (hd : isDecimal d = true) : AreDigits [d] :=
      ⟨List.cons_ne_nil _ _, List.forall_mem_singleton.mpr hd⟩
    constructor
    · exact hdigit rfl
    · exact fun _ => rfl
    · rintro ds ⟨⟩
      exact hdigit rfl
    · nofun
  read_print := by
    rintro q rfl
    exact if_pos rfl

end JsonText

end Minsight

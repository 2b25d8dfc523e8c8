import Minsight.Foundation.JsonText
import Minsight.Foundation.Trimmed

/-! # Inside and outside of strings

Along a JSON text one is outside of its strings, inside of one, or after a backslash. A reader
ends outside. Characters beyond ASCII are dumped as they are, so they stand inside of strings,
and a text cut at one of them is not read.
-/

namespace Minsight

namespace JsonText

open Digits

inductive Lex
  | outside | inside | escaped
  deriving DecidableEq, Repr

def Lex.step : Lex → Char → Lex
  | .outside, c => if c = '"' then .inside else .outside
  | .inside, c => if c = '"' then .outside else if c = '\\' then .escaped else .inside
  | .escaped, _ => .inside

def lexed (s : Lex) (cs : List Char) : Lex := cs.foldl Lex.step s

section

variable {lib : FloatText} {s s' : Lex} {cs rest : List Char} {c : Char} {v : Json}

theorem lexed_append (s : Lex) (a b : List Char) : lexed s (a ++ b) = lexed (lexed s a) b :=
  List.foldl_append

theorem lexed_outside (h : ∀ c ∈ cs, c ≠ '"') : lexed .outside cs = .outside := by
  induction cs with
  | nil => rfl
  | cons c cs ih =>
    have hc : Lex.step .outside c = .outside := if_neg (h c List.mem_cons_self)
    rw [lexed, List.foldl_cons, hc]
    exact ih fun d hd => h d (List.mem_cons_of_mem _ hd)

theorem lexed_skipSpace (cs : List Char) : lexed .outside (skipSpace cs) = lexed .outside cs := by
  have hspaces : lexed .outside (cs.takeWhile isJsonSpace) = .outside := by
    refine lexed_outside fun c hc => ?_
    rintro rfl
    exact absurd (List.mem_takeWhile_imp hc) (by decide)
  conv_rhs => rw [← List.takeWhile_append_dropWhile (p := isJsonSpace) (l := cs), lexed_append,
    hspaces]
  rfl

theorem digits_noQuote (cs : List Char) : ∀ c ∈ cs.takeWhile isDecimal, c ≠ '"' := by
  intro c hc
  rintro rfl
  exact absurd (List.mem_takeWhile_imp hc) (by decide)

theorem lexed_digits (cs : List Char) :
    lexed .outside (cs.dropWhile isDecimal) = lexed .outside cs := by
  conv_rhs => rw [← List.takeWhile_append_dropWhile (p := isDecimal) (l := cs), lexed_append,
    lexed_outside (digits_noQuote cs)]

theorem scanInt_lexed {int : List Char} (h : scanInt cs = some (int, rest)) :
    lexed .outside cs = lexed .outside rest := by
  unfold scanInt at h
  split at h
  · cases h
    rfl
  · split at h
    · cases h
    · cases h
      exact (lexed_digits cs).symm

theorem scanFrac_lexed (cs : List Char) :
    lexed .outside (scanFrac cs).2 = lexed .outside cs := by
  unfold scanFrac
  split
  · split
    · rfl
    · exact lexed_digits _
  · rfl

theorem scanExp_lexed (cs : List Char) : lexed .outside (scanExp cs).2 = lexed .outside cs := by
  unfold scanExp
  split
  · rename_i mark rest hmark
    split
    · rfl
    · refine (lexed_digits rest).trans ?_
      unfold scanMark at hmark
      split at hmark <;> cases hmark <;> rfl
  · rfl

theorem scanSign_lexed (cs : List Char) : lexed .outside (scanSign cs).2 = lexed .outside cs := by
  unfold scanSign
  split <;> rfl

theorem scanNumber_lexed {t : NumberToken} (h : scanNumber cs = some (t, rest)) :
    lexed .outside cs = lexed .outside rest := by
  simp only [scanNumber, Option.bind_eq_bind, Option.bind_eq_some_iff, Option.some.injEq,
    Prod.mk.injEq] at h
  obtain ⟨⟨int, afterInt⟩, hint, -, rfl⟩ := h
  rw [scanExp_lexed, scanFrac_lexed, ← scanInt_lexed hint, scanSign_lexed]

theorem readAtom_lexed (h : readAtom lib cs = some (v, rest)) :
    lexed .outside cs = lexed .outside rest := by
  unfold readAtom at h
  split at h
  · cases h
    rfl
  · cases h
    rfl
  · cases h
    rfl
  · obtain ⟨⟨t, after⟩, hscan, h⟩ := Option.bind_eq_some_iff.mp h
    have hlexed := scanNumber_lexed hscan
    simp only at h
    split at h
    · cases h
      exact hlexed
    · obtain ⟨q, -, h⟩ := Option.bind_eq_some_iff.mp h
      cases h
      exact hlexed

theorem splitString_lexed {raw : List Char} (h : splitString cs = some (raw, rest)) :
    lexed .inside cs = lexed .outside rest := by
  fun_induction splitString cs generalizing raw rest with
  | case1 => cases h
  | case2 tail =>
    cases h
    rfl
  | case3 => cases h
  | case4 e tail hne ih =>
    obtain ⟨⟨raw', r⟩, hsplit, heq⟩ := Option.map_eq_some_iff.mp h
    cases heq
    exact ih hsplit
  | case5 c tail hquote hslash ih =>
    obtain ⟨⟨raw', r⟩, hsplit, heq⟩ := Option.map_eq_some_iff.mp h
    cases heq
    have hstep : Lex.step .inside c = .inside := by rw [Lex.step, if_neg hquote, if_neg hslash]
    rw [lexed, List.foldl_cons, hstep]
    exact ih hsplit

theorem readString_lexed {text : String} (h : readString cs = some (text, rest)) :
    lexed .inside cs = lexed .outside rest := by
  obtain ⟨⟨raw, after⟩, hsplit, h⟩ := Option.bind_eq_some_iff.mp h
  obtain ⟨meant, -, h⟩ := Option.bind_eq_some_iff.mp h
  cases h
  exact splitString_lexed hsplit

structure EndsOutside (lib : FloatText) (fuel : ℕ) : Prop where
  value : ∀ cs v rest, readValue lib fuel cs = some (v, rest) →
    lexed .outside cs = lexed .outside rest
  items : ∀ cs vs rest, readItems lib fuel cs = some (vs, rest) →
    lexed .outside cs = lexed .outside rest
  field : ∀ cs f rest, readField lib fuel cs = some (f, rest) →
    lexed .outside cs = lexed .outside rest
  fields : ∀ cs fs rest, readFields lib fuel cs = some (fs, rest) →
    lexed .outside cs = lexed .outside rest

theorem endsOutside_value {fuel : ℕ} (ih : EndsOutside lib fuel)
    (h : readValue lib (fuel + 1) cs = some (v, rest)) :
    lexed .outside cs = lexed .outside rest := by
  rw [readValue.eq_def] at h
  simp only at h
  split at h
  · obtain ⟨⟨text, after⟩, hread, heq⟩ := Option.map_eq_some_iff.mp h
    cases heq
    exact readString_lexed hread
  · rename_i tail
    have hskip : lexed .outside ('[' :: tail) = lexed .outside (skipSpace tail) :=
      (lexed_skipSpace tail).symm
    rw [hskip]
    split at h
    · rename_i after heq
      cases h
      rw [heq]
      rfl
    · obtain ⟨⟨w, after⟩, hfirst, h⟩ := Option.bind_eq_some_iff.mp h
      obtain ⟨⟨ws, after'⟩, hothers, h⟩ := Option.bind_eq_some_iff.mp h
      cases h
      exact (ih.value _ _ _ hfirst).trans (ih.items _ _ _ hothers)
  · rename_i tail
    have hskip : lexed .outside ('{' :: tail) = lexed .outside (skipSpace tail) :=
      (lexed_skipSpace tail).symm
    rw [hskip]
    split at h
    · rename_i after heq
      cases h
      rw [heq]
      rfl
    · obtain ⟨⟨f, after⟩, hfirst, h⟩ := Option.bind_eq_some_iff.mp h
      obtain ⟨⟨fs, after'⟩, hothers, h⟩ := Option.bind_eq_some_iff.mp h
      cases h
      exact (ih.field _ _ _ hfirst).trans (ih.fields _ _ _ hothers)
  · exact readAtom_lexed h

theorem endsOutside_items {fuel : ℕ} {vs : List Json} (ih : EndsOutside lib fuel)
    (h : readItems lib (fuel + 1) cs = some (vs, rest)) :
    lexed .outside cs = lexed .outside rest := by
  rw [readItems.eq_def] at h
  simp only at h
  rw [← lexed_skipSpace cs]
  split at h
  · rename_i after heq
    cases h
    rw [heq]
    rfl
  · rename_i after heq
    obtain ⟨⟨w, after'⟩, hfirst, h⟩ := Option.bind_eq_some_iff.mp h
    obtain ⟨⟨ws, after''⟩, hothers, h⟩ := Option.bind_eq_some_iff.mp h
    cases h
    rw [heq]
    exact (lexed_skipSpace after).symm.trans
      ((ih.value _ _ _ hfirst).trans (ih.items _ _ _ hothers))
  · cases h

theorem endsOutside_field {fuel : ℕ} {f : String × Json} (ih : EndsOutside lib fuel)
    (h : readField lib (fuel + 1) cs = some (f, rest)) :
    lexed .outside cs = lexed .outside rest := by
  rw [readField.eq_def] at h
  simp only at h
  split at h
  · obtain ⟨⟨key, after⟩, hkey, h⟩ := Option.bind_eq_some_iff.mp h
    simp only at h
    have hkeyed := readString_lexed hkey
    rw [← lexed_skipSpace after] at hkeyed
    split at h
    · rename_i after' heq
      obtain ⟨⟨w, after''⟩, hvalue, h⟩ := Option.bind_eq_some_iff.mp h
      cases h
      rw [heq] at hkeyed
      exact hkeyed.trans ((lexed_skipSpace after').symm.trans (ih.value _ _ _ hvalue))
    · cases h
  · cases h

theorem endsOutside_fields {fuel : ℕ} {fs : List (String × Json)} (ih : EndsOutside lib fuel)
    (h : readFields lib (fuel + 1) cs = some (fs, rest)) :
    lexed .outside cs = lexed .outside rest := by
  rw [readFields.eq_def] at h
  simp only at h
  rw [← lexed_skipSpace cs]
  split at h
  · rename_i after heq
    cases h
    rw [heq]
    rfl
  · rename_i after heq
    obtain ⟨⟨f, after'⟩, hfirst, h⟩ := Option.bind_eq_some_iff.mp h
    obtain ⟨⟨fs', after''⟩, hothers, h⟩ := Option.bind_eq_some_iff.mp h
    cases h
    rw [heq]
    exact (lexed_skipSpace after).symm.trans
      ((ih.field _ _ _ hfirst).trans (ih.fields _ _ _ hothers))
  · cases h

theorem endsOutside (lib : FloatText) (fuel : ℕ) : EndsOutside lib fuel := by
  induction fuel with
  | zero =>
    constructor
    · intro cs v rest h
      cases h
    · intro cs v rest h
      cases h
    · intro cs v rest h
      cases h
    · intro cs v rest h
      cases h
  | succ fuel ih =>
    constructor
    · intro cs v rest h
      exact endsOutside_value ih h
    · intro cs vs rest h
      exact endsOutside_items ih h
    · intro cs f rest h
      exact endsOutside_field ih h
    · intro cs fs rest h
      exact endsOutside_fields ih h

theorem load_lexed (h : load lib cs = some v) : lexed .outside cs = .outside := by
  obtain ⟨⟨w, rest⟩, hread, h⟩ := Option.bind_eq_some_iff.mp h
  simp only at h
  split at h
  · rename_i hnil
    rw [← lexed_skipSpace cs, (endsOutside lib _).value _ _ _ hread, ← lexed_skipSpace rest, hnil]
    rfl
  · cases h

mutual

/-- The strings and the keys of a value. -/
def texts : Json → List String
  | .str s => [s]
  | .arr vs => textsItems vs
  | .obj fs => textsFields fs
  | _ => []

def textsItems : List Json → List String
  | [] => []
  | v :: vs => texts v ++ textsItems vs

def textsFields : List (String × Json) → List String
  | [] => []
  | f :: fs => textsField f ++ textsFields fs

def textsField : String × Json → List String
  | (key, v) => key :: texts v

end

def Plain (c : Char) : Prop := 32 ≤ c.toNat ∧ c.toNat < 128 ∧ c ≠ '"'

instance (c : Char) : Decidable (Plain c) := inferInstanceAs (Decidable (_ ∧ _ ∧ _))

theorem plain_of_isDecimal (h : isDecimal c = true) : Plain c := by
  simp only [isDecimal, Bool.and_eq_true, decide_eq_true_iff] at h
  have hlow : '0'.toNat ≤ c.toNat := h.1
  have hhigh : c.toNat ≤ '9'.toNat := h.2
  rw [show '0'.toNat = 48 from rfl] at hlow
  rw [show '9'.toNat = 57 from rfl] at hhigh
  refine ⟨by omega, by omega, ?_⟩
  rintro rfl
  exact absurd h.1 (by decide)

theorem NumberToken.WellFormed.plain {t : NumberToken} (ht : t.WellFormed) :
    ∀ c ∈ t.text, Plain c := by
  obtain ⟨minus, int, frac, exp⟩ := t
  obtain ⟨hint, -, hfrac, hexp⟩ := ht
  have hdigits {ds : List Char} (hds : AreDigits ds) : ∀ c ∈ ds, Plain c :=
    fun c hc => plain_of_isDecimal (hds.2 c hc)
  intro c hc
  simp only [NumberToken.text, List.mem_append] at hc
  rcases hc with hc | hc | hc | hc
  · cases minus with
    | true =>
      obtain rfl := List.mem_singleton.mp hc
      decide
    | false => exact absurd hc List.not_mem_nil
  · exact hdigits hint c hc
  · cases frac with
    | none => exact absurd hc List.not_mem_nil
    | some ds =>
      rcases List.mem_cons.mp hc with rfl | hc
      · decide
      · exact hdigits (hfrac ds rfl) c hc
  · cases exp with
    | none => exact absurd hc List.not_mem_nil
    | some e =>
      obtain ⟨hmark, hds⟩ := hexp e rfl
      rcases List.mem_append.mp hc with hc | hc
      · have hall : exponentMarks.all (fun mark => mark.all fun c => decide (Plain c)) = true := rfl
        exact of_decide_eq_true (List.all_eq_true.mp (List.all_eq_true.mp hall e.1 hmark) c hc)
      · exact hdigits hds c hc

/-- A property of pieces of a dump: texts that are appended keep it. -/
structure Pieces (P : List Char → Prop) : Prop where
  append : ∀ a b, P a → P b → P (a ++ b)
  plain : ∀ cs, (∀ c ∈ cs, Plain c) → P cs

section

variable {P : List Char → Prop}

theorem Pieces.cons (hP : Pieces P) (hc : Plain c) (hcs : P cs) : P (c :: cs) :=
  hP.append [c] cs (hP.plain [c] fun _ hd => List.mem_singleton.mp hd ▸ hc) hcs

theorem Pieces.of_all (hP : Pieces P) (h : (cs.all fun c => decide (Plain c)) = true) : P cs :=
  hP.plain cs fun c hc => of_decide_eq_true (List.all_eq_true.mp h c hc)

mutual

/-- What holds of the quoted texts of a value, and of what is plain, holds of its dump. -/
theorem Pieces.dump (hP : Pieces P) : ∀ v : Json, Held lib v → (∀ s ∈ texts v, P (quote s)) →
    P (dump lib v)
  | .null, _, _ => by
    rw [JsonText.dump]
    exact hP.of_all rfl
  | .bool true, _, _ => by
    rw [JsonText.dump]
    exact hP.of_all rfl
  | .bool false, _, _ => by
    rw [JsonText.dump]
    exact hP.of_all rfl
  | .int n, _, _ => by
    rw [JsonText.dump]
    exact hP.plain _ (intToken_wellFormed n).plain
  | .float q, hv, _ => by
    obtain ⟨t, ht, -, htext⟩ := lib.print_token q hv
    rw [JsonText.dump, ← htext]
    exact hP.plain _ ht.plain
  | .str s, _, hs => by
    rw [JsonText.dump]
    exact hs s (by rw [texts]; exact List.mem_singleton_self s)
  | .arr [], _, _ => by
    rw [JsonText.dump]
    exact hP.of_all rfl
  | .arr (v :: vs), hv, hs => by
    rw [texts, textsItems] at hs
    rw [JsonText.dump]
    exact hP.cons (by decide) (hP.append _ _
      (hP.dump v hv.1 fun s h => hs s (List.mem_append_left _ h))
      (hP.dumpItems vs hv.2 fun s h => hs s (List.mem_append_right _ h)))
  | .obj [], _, _ => by
    rw [JsonText.dump]
    exact hP.of_all rfl
  | .obj (f :: fs), hv, hs => by
    rw [texts, textsFields] at hs
    rw [JsonText.dump]
    exact hP.cons (by decide) (hP.append _ _
      (hP.dumpField f hv.2.1 fun s h => hs s (List.mem_append_left _ h))
      (hP.dumpFields fs hv.2.2 fun s h => hs s (List.mem_append_right _ h)))

theorem Pieces.dumpItems (hP : Pieces P) : ∀ vs : List Json, HeldItems lib vs →
    (∀ s ∈ textsItems vs, P (quote s)) → P (dumpItems lib vs)
  | [], _, _ => by
    rw [JsonText.dumpItems]
    exact hP.of_all rfl
  | v :: vs, hv, hs => by
    rw [textsItems] at hs
    rw [JsonText.dumpItems]
    exact hP.cons (by decide) (hP.cons (by decide) (hP.append _ _
      (hP.dump v hv.1 fun s h => hs s (List.mem_append_left _ h))
      (hP.dumpItems vs hv.2 fun s h => hs s (List.mem_append_right _ h))))

theorem Pieces.dumpField (hP : Pieces P) : ∀ f : String × Json, HeldField lib f →
    (∀ s ∈ textsField f, P (quote s)) → P (dumpField lib f)
  | (key, v), hv, hs => by
    rw [textsField] at hs
    rw [JsonText.dumpField]
    exact hP.append _ _ (hs key List.mem_cons_self) (hP.cons (by decide) (hP.cons (by decide)
      (hP.dump v hv fun s h => hs s (List.mem_cons_of_mem _ h))))

theorem Pieces.dumpFields (hP : Pieces P) : ∀ fs : List (String × Json), HeldFields lib fs →
    (∀ s ∈ textsFields fs, P (quote s)) → P (dumpFields lib fs)
  | [], _, _ => by
    rw [JsonText.dumpFields]
    exact hP.of_all rfl
  | f :: fs, hv, hs => by
    rw [textsFields] at hs
    rw [JsonText.dumpFields]
    exact hP.cons (by decide) (hP.cons (by decide) (hP.append _ _
      (hP.dumpField f hv.1 fun s h => hs s (List.mem_append_left _ h))
      (hP.dumpFields fs hv.2 fun s h => hs s (List.mem_append_right _ h))))

end

end

theorem escapeChar_wide (hc : 128 ≤ c.toNat) : escapeChar c = [c] := by
  have hne (e : Char) (he : e.toNat < 128) : c ≠ e := by
    rintro rfl
    omega
  unfold escapeChar
  rw [if_neg (hne _ (by decide)), if_neg (hne _ (by decide)), if_neg (hne _ (by decide)),
    if_neg (hne _ (by decide)), if_neg (hne _ (by decide)), if_neg (hne _ (by decide)),
    if_neg (hne _ (by decide)), if_neg (by omega)]

theorem escapeChar_narrow (hc : c.toNat < 128) :
    ∀ d ∈ escapeChar c, 32 ≤ d.toNat ∧ d.toNat < 128 := by
  have hdigit {n : ℕ} (hn : n < 16) : 32 ≤ n.digitChar.toNat ∧ n.digitChar.toNat < 128 := by
    interval_cases n <;> decide
  have hpair {e : Char} (he : 32 ≤ e.toNat ∧ e.toNat < 128) :
      ∀ d ∈ ['\\', e], 32 ≤ d.toNat ∧ d.toNat < 128 :=
    List.forall_mem_cons.mpr ⟨by decide, List.forall_mem_singleton.mpr he⟩
  unfold escapeChar
  split_ifs with hquote hslash hn hr ht hf hb hcontrol
  · exact hpair (by decide)
  · exact hpair (by decide)
  · exact hpair (by decide)
  · exact hpair (by decide)
  · exact hpair (by decide)
  · exact hpair (by decide)
  · exact hpair (by decide)
  · intro d hd
    simp only [List.mem_cons, List.not_mem_nil, or_false] at hd
    obtain rfl | rfl | rfl | rfl | rfl | rfl := hd
    · decide
    · decide
    · decide
    · decide
    · exact hdigit (by omega)
    · exact hdigit (by omega)
  · intro d hd
    obtain rfl := List.mem_singleton.mp hd
    exact ⟨by omega, hc⟩

theorem mem_escapeChar_iff {d : Char} (hd : 128 ≤ d.toNat) : d ∈ escapeChar c ↔ d = c := by
  by_cases hc : c.toNat < 128
  · constructor
    · intro h
      have := (escapeChar_narrow hc d h).2
      omega
    · rintro rfl
      omega
  · rw [escapeChar_wide (not_lt.mp hc), List.mem_singleton]

theorem lexed_escapeChar (c : Char) : lexed .inside (escapeChar c) = .inside := by
  unfold escapeChar
  split_ifs with hquote hslash hn hr ht hf hb hcontrol
  · rfl
  · rfl
  · rfl
  · rfl
  · rfl
  · rfl
  · rfl
  · have hstep {n : ℕ} (hn : n < 16) : Lex.step .inside n.digitChar = .inside := by
      rw [Lex.step, if_neg (hexDigit_plain hn).1, if_neg (hexDigit_plain hn).2]
    change lexed .inside [Nat.digitChar (c.toNat / 16), Nat.digitChar (c.toNat % 16)] = _
    rw [lexed, List.foldl_cons, List.foldl_cons, List.foldl_nil, hstep (by omega), hstep (by omega)]
  · rw [lexed, List.foldl_cons, List.foldl_nil, Lex.step, if_neg hquote, if_neg hslash]

/-- A text leads from one place to another, and has its characters beyond ASCII inside strings. -/
structure InsideOnly (s : Lex) (cs : List Char) (s' : Lex) : Prop where
  ends : lexed s cs = s'
  wide : ∀ pre c post, cs = pre ++ c :: post → 128 ≤ c.toNat → lexed s pre = .inside

theorem InsideOnly.append {s s' s'' : Lex} {a b : List Char} (ha : InsideOnly s a s')
    (hb : InsideOnly s' b s'') : InsideOnly s (a ++ b) s'' where
  ends := by rw [lexed_append, ha.ends, hb.ends]
  wide := by
    intro pre c post heq hc
    obtain ⟨mid, rfl, hpost⟩ | ⟨mid, hmid, hb'⟩ := List.append_eq_append_iff.mp heq
    · rw [lexed_append, ha.ends]
      exact hb.wide mid c post hpost hc
    · cases mid with
      | nil =>
        rw [List.append_nil] at hmid
        rw [← hmid, ha.ends]
        exact hb.wide [] c post hb'.symm hc
      | cons d mid =>
        obtain ⟨rfl, -⟩ := List.cons.inj hb'
        exact ha.wide pre c mid hmid hc

theorem InsideOnly.of_narrow {s s' : Lex} {cs : List Char} (hends : lexed s cs = s')
    (h : ∀ c ∈ cs, c.toNat < 128) : InsideOnly s cs s' where
  ends := hends
  wide := by
    rintro pre c post rfl hc
    have := h c (List.mem_append_right _ List.mem_cons_self)
    omega

theorem insideOnly_escapeChar (c : Char) : InsideOnly .inside (escapeChar c) .inside := by
  by_cases hc : c.toNat < 128
  · exact .of_narrow (lexed_escapeChar c) fun d hd => (escapeChar_narrow hc d hd).2
  · refine ⟨lexed_escapeChar c, ?_⟩
    rw [escapeChar_wide (not_lt.mp hc)]
    intro pre d post heq _
    cases pre with
    | nil => rfl
    | cons e pre =>
      have := (List.cons.inj heq).2
      cases pre <;> cases this

theorem insideOnly_quote (text : String) : InsideOnly .outside (quote text) .outside := by
  have hbody (cs : List Char) : InsideOnly .inside (cs.flatMap escapeChar) .inside := by
    induction cs with
    | nil => exact .of_narrow rfl nofun
    | cons c cs ih =>
      rw [List.flatMap_cons]
      exact (insideOnly_escapeChar c).append ih
  have hopen : InsideOnly .outside ['"'] .inside :=
    .of_narrow rfl (List.forall_mem_singleton.mpr (by decide))
  have hclose : InsideOnly .inside ['"'] .outside :=
    .of_narrow rfl (List.forall_mem_singleton.mpr (by decide))
  exact hopen.append ((hbody text.toList).append hclose)

theorem insideOnly_dump (hv : Held lib v) : InsideOnly .outside (dump lib v) .outside := by
  have hpieces : Pieces fun cs => InsideOnly .outside cs .outside := by
    constructor
    · intro a b ha hb
      exact ha.append hb
    · intro cs hcs
      exact .of_narrow (lexed_outside fun c hc => (hcs c hc).2.2) fun c hc => (hcs c hc).2.1
  exact hpieces.dump v hv fun s _ => insideOnly_quote s

theorem mem_quote {text : String} (hc : c ∈ quote text) :
    c = '"' ∨ ∃ d ∈ text.toList, c ∈ escapeChar d := by
  rcases List.mem_cons.mp hc with rfl | hc
  · exact .inl rfl
  · rcases List.mem_append.mp hc with hc | hc
    · exact .inr (List.mem_flatMap.mp hc)
    · exact .inl (List.mem_singleton.mp hc)

theorem dump_printable (hv : Held lib v) : ∀ c ∈ dump lib v, 32 ≤ c.toNat := by
  have hpieces : Pieces fun cs => ∀ c ∈ cs, 32 ≤ c.toNat := by
    constructor
    · intro a b ha hb c hc
      exact (List.mem_append.mp hc).elim (ha c) (hb c)
    · intro cs hcs c hc
      exact (hcs c hc).1
  refine hpieces.dump v hv fun s _ c hc => ?_
  obtain rfl | ⟨d, -, hc⟩ := mem_quote hc
  · decide
  · by_cases hd : d.toNat < 128
    · exact (escapeChar_narrow hd c hc).1
    · rw [escapeChar_wide (not_lt.mp hd), List.mem_singleton] at hc
      rw [hc]
      omega

theorem exists_text_of_mem_dump (hv : Held lib v) (hc : c ∈ dump lib v) (hwide : 128 ≤ c.toNat) :
    ∃ s ∈ texts v, c ∈ s.toList := by
  have hpieces : Pieces fun cs => c ∈ cs → ∃ s ∈ texts v, c ∈ s.toList := by
    constructor
    · intro a b ha hb hc
      exact (List.mem_append.mp hc).elim ha hb
    · intro cs hcs hc
      have := (hcs c hc).2.1
      omega
  refine hpieces.dump v hv (fun s hs hc => ⟨s, hs, ?_⟩) hc
  obtain rfl | ⟨d, hd, hc⟩ := mem_quote hc
  · exact absurd hwide (by decide)
  · rw [mem_escapeChar_iff hwide] at hc
    exact hc ▸ hd

theorem infix_first {inner a : List Char} (opening b : List Char) (h : inner <:+: a) :
    inner <:+: opening ++ (a ++ b) :=
  (h.trans (List.prefix_append a b).isInfix).trans (List.suffix_append opening _).isInfix

theorem infix_rest {inner b : List Char} (opening a : List Char) (h : inner <:+: b) :
    inner <:+: opening ++ (a ++ b) :=
  (h.trans (List.suffix_append a b).isInfix).trans (List.suffix_append opening _).isInfix

mutual

theorem quote_infix_dump : ∀ (v : Json), ∀ s ∈ texts v, quote s <:+: dump lib v
  | .null, s, hs => by simp [texts] at hs
  | .bool b, s, hs => by simp [texts] at hs
  | .int n, s, hs => by simp [texts] at hs
  | .float q, s, hs => by simp [texts] at hs
  | .str t, s, hs => by
    rw [texts, List.mem_singleton] at hs
    rw [hs, dump]
  | .arr [], s, hs => by simp [texts, textsItems] at hs
  | .arr (v :: vs), s, hs => by
    rw [texts, textsItems] at hs
    rw [dump]
    rcases List.mem_append.mp hs with hs | hs
    · exact infix_first ['['] _ (quote_infix_dump v s hs)
    · exact infix_rest ['['] _ (quote_infix_items vs s hs)
  | .obj [], s, hs => by simp [texts, textsFields] at hs
  | .obj (f :: fs), s, hs => by
    rw [texts, textsFields] at hs
    rw [dump]
    rcases List.mem_append.mp hs with hs | hs
    · exact infix_first ['{'] _ (quote_infix_field f s hs)
    · exact infix_rest ['{'] _ (quote_infix_fields fs s hs)

theorem quote_infix_items : ∀ (vs : List Json), ∀ s ∈ textsItems vs, quote s <:+: dumpItems lib vs
  | [], s, hs => by simp [textsItems] at hs
  | v :: vs, s, hs => by
    rw [textsItems] at hs
    rw [dumpItems]
    rcases List.mem_append.mp hs with hs | hs
    · exact infix_first [',', ' '] _ (quote_infix_dump v s hs)
    · exact infix_rest [',', ' '] _ (quote_infix_items vs s hs)

theorem quote_infix_field : ∀ (f : String × Json), ∀ s ∈ textsField f,
    quote s <:+: dumpField lib f
  | (key, v), s, hs => by
    rw [textsField] at hs
    rw [dumpField]
    rcases List.mem_cons.mp hs with rfl | hs
    · exact (List.prefix_append _ _).isInfix
    · exact (quote_infix_dump v s hs).trans
        ((List.suffix_append [':', ' '] _).trans (List.suffix_append _ _)).isInfix

theorem quote_infix_fields : ∀ (fs : List (String × Json)), ∀ s ∈ textsFields fs,
    quote s <:+: dumpFields lib fs
  | [], s, hs => by simp [textsFields] at hs
  | f :: fs, s, hs => by
    rw [textsFields] at hs
    rw [dumpFields]
    rcases List.mem_append.mp hs with hs | hs
    · exact infix_first [',', ' '] _ (quote_infix_field f s hs)
    · exact infix_rest [',', ' '] _ (quote_infix_fields fs s hs)

end

theorem mem_dump_of_mem_text {text : String} (htext : text ∈ texts v) (hc : c ∈ text.toList)
    (hwide : 128 ≤ c.toNat) : c ∈ dump lib v := by
  refine (quote_infix_dump v text htext).subset ?_
  have hmem : c ∈ text.toList.flatMap escapeChar :=
    List.mem_flatMap.mpr ⟨c, hc, (mem_escapeChar_iff hwide).mpr rfl⟩
  exact List.mem_cons_of_mem _ (List.mem_append_left _ hmem)

theorem lexed_stripChars (h : lexed .outside (stripChars cs) = .outside) :
    lexed .outside cs = .outside := by
  have hspaces {spaces : List Char} (hall : ∀ c ∈ spaces, isSpace c = true) :
      lexed .outside spaces = .outside := by
    refine lexed_outside fun c hc => ?_
    rintro rfl
    exact absurd (hall _ hc) (by decide)
  obtain ⟨front, back, heq, hfront, hback⟩ := exists_append_stripChars cs
  rw [heq, lexed_append, hspaces hfront, lexed_append, h, hspaces hback]

/-- What stands before a character beyond ASCII is not read, also when it is stripped. -/
theorem load_cut {pre post : List Char} (hv : Held lib v) (heq : dump lib v = pre ++ c :: post)
    (hwide : 128 ≤ c.toNat) : load lib (stripChars pre) = none := by
  rw [Option.eq_none_iff_forall_ne_some]
  intro w hload
  have hinside := (insideOnly_dump hv).wide pre c post heq hwide
  rw [lexed_stripChars (load_lexed hload)] at hinside
  cases hinside

end

end JsonText

end Minsight

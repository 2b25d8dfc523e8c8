import Mathlib.Data.List.Basic
import Mathlib.Data.Nat.Notation
import Minsight.Foundation.Text

/-! # Bytes and their texts

UTF-8, line ends, and base64 with the lenient decoder of a scripting language: it skips what is
not in the alphabet, and stops at the padding of a last group.
-/

namespace Minsight

abbrev Bytes := List UInt8

/-- `text.encode("utf-8")` -/
def utf8 (text : String) : Bytes := text.toByteArray.data.toList

/-- `data.decode("utf-8")`; `none` when the bytes are no text. -/
def decodeUtf8 (data : Bytes) : Option String := String.fromUTF8? ⟨⟨data⟩⟩

@[simp] theorem decodeUtf8_utf8 (text : String) : decodeUtf8 (utf8 text) = some text :=
  dif_pos text.isValidUTF8

def universalNewlines : List Char → List Char
  | '\r' :: '\n' :: rest => '\n' :: universalNewlines rest
  | '\r' :: rest => '\n' :: universalNewlines rest
  | c :: rest => c :: universalNewlines rest
  | [] => []

theorem universalNewlines_cons {c : Char} (h : c ≠ '\r') (rest : List Char) :
    universalNewlines (c :: rest) = c :: universalNewlines rest := by
  simp [universalNewlines, h]

theorem universalNewlines_append (pre : List Char) {rest : List Char}
    (h : rest.head? ≠ some '\n') :
    universalNewlines (pre ++ rest) = universalNewlines pre ++ universalNewlines rest := by
  fun_induction universalNewlines pre with
  | case1 pre ih => simp [universalNewlines, ih]
  | case2 pre hne ih =>
    cases pre with
    | nil =>
      cases rest with
      | nil => rfl
      | cons c rest =>
        have hc : c ≠ '\n' := fun hc => h (by rw [hc]; rfl)
        simp [universalNewlines, hc]
    | cons c pre =>
      have hc : c ≠ '\n' := fun hc => hne pre (by rw [hc])
      simp [universalNewlines, hc, ← ih]
  | case3 c pre h1 h2 ih =>
    simp [universalNewlines_cons h2, ih]
  | case4 => rfl

def b64Letter (v : ℕ) : UInt8 :=
  if v < 26 then UInt8.ofNat (65 + v)
  else if v < 52 then UInt8.ofNat (97 + (v - 26))
  else if v < 62 then UInt8.ofNat (48 + (v - 52))
  else if v = 62 then 43
  else 47

/-- The six bits of a letter; `none` outside the alphabet. -/
def b64Value (c : UInt8) : Option ℕ :=
  if 65 ≤ c ∧ c ≤ 90 then some (c.toNat - 65)
  else if 97 ≤ c ∧ c ≤ 122 then some (c.toNat - 97 + 26)
  else if 48 ≤ c ∧ c ≤ 57 then some (c.toNat - 48 + 52)
  else if c = 43 then some 62
  else if c = 47 then some 63
  else none

/-- `base64.b64encode` -/
def b64encode : Bytes → Bytes
  | [] => []
  | [a] => [b64Letter (a.toNat / 4), b64Letter (a.toNat % 4 * 16), 61, 61]
  | [a, b] =>
    [b64Letter (a.toNat / 4), b64Letter (a.toNat % 4 * 16 + b.toNat / 16),
      b64Letter (b.toNat % 16 * 4), 61]
  | a :: b :: c :: rest =>
    b64Letter (a.toNat / 4) :: b64Letter (a.toNat % 4 * 16 + b.toNat / 16)
      :: b64Letter (b.toNat % 16 * 4 + c.toNat / 64) :: b64Letter (c.toNat % 64)
      :: b64encode rest

/-- What the decoder keeps between two letters: how far it is in a group of four, the bits left
over from the last letter, the pads since then, and how many bytes it wrote. -/
structure B64State where
  quadPos : ℕ := 0
  leftover : ℕ := 0
  pads : ℕ := 0
  written : ℕ := 0

/-- `binascii.a2b_base64` from a state. -/
def a2bBase64 (st : B64State) : Bytes → Except String Bytes
  | [] =>
    if st.quadPos = 0 then .ok []
    else if st.quadPos = 1 then
      .error ("Invalid base64-encoded string: number of data characters ("
        ++ toString (st.written / 3 * 4 + 1) ++ ") cannot be 1 more than a multiple of 4")
    else .error "Incorrect padding"
  | c :: rest =>
    if c = 61 then
      if st.quadPos < 2 then a2bBase64 st rest
      else if 4 ≤ st.quadPos + (st.pads + 1) then .ok []
      else a2bBase64 { st with pads := st.pads + 1 } rest
    else
      match b64Value c with
      | none => a2bBase64 st rest
      | some v =>
        if st.quadPos = 0 then
          a2bBase64 { st with quadPos := 1, leftover := v, pads := 0 } rest
        else if st.quadPos = 1 then
          (a2bBase64 ⟨2, v % 16, 0, st.written + 1⟩ rest).map
            (UInt8.ofNat (st.leftover * 4 + v / 16) :: ·)
        else if st.quadPos = 2 then
          (a2bBase64 ⟨3, v % 4, 0, st.written + 1⟩ rest).map
            (UInt8.ofNat (st.leftover * 16 + v / 4) :: ·)
        else
          (a2bBase64 ⟨0, 0, 0, st.written + 1⟩ rest).map
            (UInt8.ofNat (st.leftover * 64 + v) :: ·)

/-- `base64.b64decode` of bytes -/
def b64decode (data : Bytes) : Except String Bytes := a2bBase64 {} data

def asciiBytes (text : List Char) : Option Bytes :=
  if text.all (·.toNat < 128) then some (text.map fun c => UInt8.ofNat c.toNat) else none

/-- `base64.b64decode` of a text -/
def b64decodeText (text : String) : Except String Bytes :=
  match asciiBytes text.toList with
  | none => .error "string argument should contain only ASCII characters"
  | some data => b64decode data

def asciiText (data : Bytes) : List Char := data.map fun c => Char.ofNat c.toNat

theorem b64Value_letter {v : ℕ} (h : v < 64) : b64Value (b64Letter v) = some v := by
  have hall : ∀ v : Fin 64, b64Value (b64Letter v) = some v.val := by decide
  exact hall ⟨v, h⟩

theorem b64Letter_ne_pad {v : ℕ} (h : v < 64) : b64Letter v ≠ 61 := by
  have hall : ∀ v : Fin 64, b64Letter v ≠ 61 := by decide
  exact hall ⟨v, h⟩

theorem a2bBase64_letter {v : ℕ} (h : v < 64) (st : B64State) (rest : Bytes) :
    a2bBase64 st (b64Letter v :: rest) =
      if st.quadPos = 0 then a2bBase64 { st with quadPos := 1, leftover := v, pads := 0 } rest
      else if st.quadPos = 1 then
        (a2bBase64 ⟨2, v % 16, 0, st.written + 1⟩ rest).map
          (UInt8.ofNat (st.leftover * 4 + v / 16) :: ·)
      else if st.quadPos = 2 then
        (a2bBase64 ⟨3, v % 4, 0, st.written + 1⟩ rest).map
          (UInt8.ofNat (st.leftover * 16 + v / 4) :: ·)
      else
        (a2bBase64 ⟨0, 0, 0, st.written + 1⟩ rest).map
          (UInt8.ofNat (st.leftover * 64 + v) :: ·) := by
  rw [a2bBase64, if_neg (b64Letter_ne_pad h), b64Value_letter h]

theorem ofNat_eq_of_toNat {n : ℕ} {a : UInt8} (h : n = a.toNat) : UInt8.ofNat n = a := by
  rw [h, UInt8.ofNat_toNat]

theorem a2bBase64_b64encode (data : Bytes) (left pads written : ℕ) :
    a2bBase64 ⟨0, left, pads, written⟩ (b64encode data) = .ok data := by
  fun_induction b64encode data generalizing left pads written with
  | case1 => rfl
  | case2 a =>
    have ha := a.toNat_lt
    have hbyte : UInt8.ofNat (a.toNat / 4 * 4 + a.toNat % 4 * 16 / 16) = a :=
      ofNat_eq_of_toNat (by omega)
    simp only [a2bBase64_letter (show a.toNat / 4 < 64 by omega),
      a2bBase64_letter (show a.toNat % 4 * 16 < 64 by omega), hbyte]
    rfl
  | case3 a b =>
    have ha := a.toNat_lt
    have hb := b.toNat_lt
    have hbyte : UInt8.ofNat (a.toNat / 4 * 4 + (a.toNat % 4 * 16 + b.toNat / 16) / 16) = a :=
      ofNat_eq_of_toNat (by omega)
    have hbyte' : UInt8.ofNat ((a.toNat % 4 * 16 + b.toNat / 16) % 16 * 16
        + b.toNat % 16 * 4 / 4) = b := ofNat_eq_of_toNat (by omega)
    simp only [a2bBase64_letter (show a.toNat / 4 < 64 by omega),
      a2bBase64_letter (show a.toNat % 4 * 16 + b.toNat / 16 < 64 by omega),
      a2bBase64_letter (show b.toNat % 16 * 4 < 64 by omega), hbyte, hbyte']
    rfl
  | case4 a b c rest ih =>
    have ha := a.toNat_lt
    have hb := b.toNat_lt
    have hc := c.toNat_lt
    have hbyte : UInt8.ofNat (a.toNat / 4 * 4 + (a.toNat % 4 * 16 + b.toNat / 16) / 16) = a :=
      ofNat_eq_of_toNat (by omega)
    have hbyte' : UInt8.ofNat ((a.toNat % 4 * 16 + b.toNat / 16) % 16 * 16
        + (b.toNat % 16 * 4 + c.toNat / 64) / 4) = b := ofNat_eq_of_toNat (by omega)
    have hbyte'' : UInt8.ofNat ((b.toNat % 16 * 4 + c.toNat / 64) % 4 * 64 + c.toNat % 64) = c :=
      ofNat_eq_of_toNat (by omega)
    simp only [a2bBase64_letter (show a.toNat / 4 < 64 by omega),
      a2bBase64_letter (show a.toNat % 4 * 16 + b.toNat / 16 < 64 by omega),
      a2bBase64_letter (show b.toNat % 16 * 4 + c.toNat / 64 < 64 by omega),
      a2bBase64_letter (show c.toNat % 64 < 64 by omega), hbyte, hbyte', hbyte'']
    simp [ih, Except.map]

theorem b64decode_b64encode (data : Bytes) : b64decode (b64encode data) = .ok data :=
  a2bBase64_b64encode data 0 0 0

theorem forall_mem_b64encode {P : UInt8 → Prop} (hpad : P 61) (hletter : ∀ v < 64, P (b64Letter v))
    (data : Bytes) : ∀ c ∈ b64encode data, P c := by
  fun_induction b64encode data with
  | case1 => nofun
  | case2 a =>
    have ha := a.toNat_lt
    simp only [List.forall_mem_cons]
    exact ⟨hletter _ (by omega), hletter _ (by omega), hpad, hpad, nofun⟩
  | case3 a b =>
    have ha := a.toNat_lt
    have hb := b.toNat_lt
    simp only [List.forall_mem_cons]
    exact ⟨hletter _ (by omega), hletter _ (by omega), hletter _ (by omega), hpad, nofun⟩
  | case4 a b c rest ih =>
    have ha := a.toNat_lt
    have hb := b.toNat_lt
    have hc := c.toNat_lt
    simp only [List.forall_mem_cons]
    exact ⟨hletter _ (by omega), hletter _ (by omega), hletter _ (by omega),
      hletter _ (by omega), ih⟩

/-- A byte that no line end, white space or dot can be confused with. -/
def IsPlain (c : UInt8) : Prop :=
  c.toNat < 128 ∧ c ≠ 46 ∧ isSpace (Char.ofNat c.toNat) = false

instance (c : UInt8) : Decidable (IsPlain c) := inferInstanceAs (Decidable (_ ∧ _))

theorem isPlain_of_mem_b64encode {data : Bytes} {c : UInt8} (h : c ∈ b64encode data) :
    IsPlain c := by
  have hletter : ∀ v : Fin 64, IsPlain (b64Letter v) := by decide
  exact forall_mem_b64encode (by decide) (fun v hv => hletter ⟨v, hv⟩) data c h

theorem dot_notMem_b64encode (data : Bytes) : 46 ∉ b64encode data :=
  fun h => (isPlain_of_mem_b64encode h).2.1 rfl

theorem toNat_ofNat_of_lt {n : ℕ} (h : n < 256) : (Char.ofNat n).toNat = n := by
  have hvalid : n.isValidChar := Or.inl (by omega)
  rw [Char.ofNat, dif_pos hvalid]
  rfl

@[simp] theorem toNat_ofNat_toNat (c : UInt8) : (Char.ofNat c.toNat).toNat = c.toNat :=
  toNat_ofNat_of_lt c.toNat_lt

def latinBytes (text : List Char) : Bytes := text.map fun c => UInt8.ofNat c.toNat

@[simp] theorem latinBytes_asciiText (data : Bytes) : latinBytes (asciiText data) = data := by
  simp [latinBytes, asciiText, Function.comp_def]

theorem asciiBytes_asciiText {data : Bytes} (h : ∀ c ∈ data, c.toNat < 128) :
    asciiBytes (asciiText data) = some data := by
  have hall : (asciiText data).all (·.toNat < 128) = true := by
    rw [List.all_eq_true]
    intro c hc
    obtain ⟨b, hb, rfl⟩ := List.mem_map.mp hc
    simpa using h b hb
  rw [asciiBytes, if_pos hall]
  exact congrArg some (latinBytes_asciiText data)

theorem b64decodeText_asciiText {data : Bytes} (h : ∀ c ∈ data, c.toNat < 128) :
    b64decodeText (String.ofList (asciiText data)) = b64decode data := by
  rw [b64decodeText, String.toList_ofList, asciiBytes_asciiText h]

end Minsight

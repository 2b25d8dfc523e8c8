import Minsight.Foundation.Codec
import Minsight.License.Manager

/-! # The license format

A license file is the base64 text of the payload, a dot and the base64 text of the signature. The
dot that separates them is the last one, since the alphabet of base64 has none.
-/

namespace Minsight

namespace License

/-- The manager with what it uses of the libraries and of the machine. -/
structure Manager where
  /-- The path of the license file, as messages show it. -/
  licenseFile : String
  host : Host
  /-- `_load_public_key()`, or why it fails -/
  publicKey : Except String Unit
  /-- Whether `pub.verify` accepts a signature of a payload. -/
  verify : Bytes → Bytes → Bool
  /-- The text of the exception for bytes that are no UTF-8. -/
  unicodeError : Bytes → String
  str_text : ∀ s, host.str (.str s) = s

def splitLastByte (data : Bytes) : Option (Bytes × Bytes) :=
  match data.reverse.span (· != 46) with
  | (_, []) => none
  | (after, _ :: before) => some (before.reverse, after.reverse)

/-- `secrets.compare_digest` of two texts -/
def secureEqual (a b : String) : Except String Bool :=
  if (a.toList ++ b.toList).all (·.toNat < 128) then .ok (a == b)
  else .error "comparing strings with non-ASCII characters is not supported"

/-- `any(_secure_equal(c.hash, want) for c in candidates)` -/
def anySecureEqual (want : String) : List (String × String) → Except String Bool
  | [] => .ok false
  | c :: candidates => do
    if ← secureEqual c.1 want then pure true else anySecureEqual want candidates

namespace Manager

variable (m : Manager)

/-- `data.decode("utf-8")` -/
def decode (data : Bytes) : Except String String :=
  match decodeUtf8 data with
  | none => .error (m.unicodeError data)
  | some text => .ok text

/-- `read_text(encoding="utf-8")` -/
def readText (data : Bytes) : Except String String :=
  (m.decode data).map fun text => String.ofList (universalNewlines text.toList)

/-- The signature and the payload that `parse_and_verify` finds in a file. -/
def signedParts (file : Option Bytes) : Except String (Bytes × Bytes) :=
  match file with
  | none => .error ("License 文件不存在: " ++ m.licenseFile)
  | some content => do
    let combined ← (m.readText content >>= fun text => b64decodeText (strip text)).mapError
      ("Base64 解码失败: " ++ ·)
    match splitLastByte combined with
    | none => .error "License 结构错误：缺少签名分隔符"
    | some (payloadBytes, sigB64) =>
      let sig ← (b64decode sigB64).mapError ("签名解码失败: " ++ ·)
      pure (sig, payloadBytes)

def payloadIn (payloadBytes : Bytes) : Except String Payload := do
  let text ← m.decode payloadBytes
  let data ← (m.host.loads text).mapError ("载荷 JSON 解析失败: " ++ ·)
  let payload ← payloadOf m.host data
  if [payload.clientName, payload.issueDate, payload.expiryDate, payload.fingerprint].any
      (strip · == "") then
    .error "License 缺少必要字段"
  else pure payload

/-- What `parse_and_verify` does with a signature and a payload. -/
def checkSigned (sig payloadBytes : Bytes) : Except String Payload := do
  m.publicKey
  if !m.verify sig payloadBytes then .error "签名验证失败，文件可能被篡改"
  else m.payloadIn payloadBytes

/-- `Manager.parse_and_verify` -/
def parseAndVerify (file : Option Bytes) : Except String Payload := do
  let (sig, payloadBytes) ← m.signedParts file
  m.checkSigned sig payloadBytes

/-- `Manager.verify_full` -/
def verifyFull (today : ℤ) (file : Option Bytes) : Except String (Payload × ℤ) := do
  let payload ← m.parseAndVerify file
  match m.host.date payload.expiryDate with
  | none => .error ("有效期格式错误: " ++ payload.expiryDate)
  | some expiry =>
    if expiry < today then .error ("license_expired: " ++ payload.expiryDate)
    else
      let matched ← anySecureEqual (m.host.lower (strip payload.fingerprint)) m.host.fingerprints
      if !matched then .error "fingerprint_mismatch" else pure (payload, expiry - today)

end Manager

def issued (payload sig : Bytes) : Bytes := b64encode (payload ++ 46 :: b64encode sig)

/-- A license file with white space around its content. -/
def issuedFile (before after : String) (payload sig : Bytes) : Bytes :=
  utf8 (before ++ String.ofList (asciiText (issued payload sig)) ++ after)

theorem splitLastByte_append {before after : Bytes} (h : 46 ∉ after) :
    splitLastByte (before ++ 46 :: after) = some (before, after) := by
  have hall : ∀ c ∈ after.reverse, (c != 46) = true := by
    intro c hc
    rw [bne_iff_ne]
    rintro rfl
    exact h (List.mem_reverse.mp hc)
  have hspan : (before ++ 46 :: after).reverse.span (· != 46) =
      (after.reverse, 46 :: before.reverse) := by
    rw [List.span_eq_takeWhile_dropWhile, List.reverse_append, List.reverse_cons,
      List.append_assoc, List.takeWhile_append_of_pos hall, List.dropWhile_append_of_pos hall]
    simp
  rw [splitLastByte, hspan]
  simp

theorem universalNewlines_space {cs : List Char} (h : ∀ c ∈ cs, isSpace c = true) :
    ∀ c ∈ universalNewlines cs, isSpace c = true := by
  fun_induction universalNewlines cs with
  | case1 rest ih =>
    simp only [List.forall_mem_cons] at h ⊢
    exact ⟨h.2.1, ih h.2.2⟩
  | case2 rest _ ih =>
    simp only [List.forall_mem_cons] at h ⊢
    exact ⟨by decide, ih h.2⟩
  | case3 c rest _ _ ih =>
    simp only [List.forall_mem_cons] at h ⊢
    exact ⟨h.1, ih h.2⟩
  | case4 => exact fun _ hc => absurd hc List.not_mem_nil

theorem universalNewlines_of_notSpace {cs : List Char} (h : ∀ c ∈ cs, isSpace c = false)
    (rest : List Char) : universalNewlines (cs ++ rest) = cs ++ universalNewlines rest := by
  induction cs with
  | nil => rfl
  | cons c cs ih =>
    simp only [List.forall_mem_cons] at h
    have hc : c ≠ '\r' := by
      rintro rfl
      exact absurd h.1 (by decide)
    rw [List.cons_append, universalNewlines_cons hc, ih h.2, List.cons_append]

/-- Stripping takes off exactly the white space around a text without any. -/
theorem stripChars_append {before text after : List Char}
    (hbefore : ∀ c ∈ before, isSpace c = true) (htext : ∀ c ∈ text, isSpace c = false)
    (hne : text ≠ []) (hafter : ∀ c ∈ after, isSpace c = true) :
    stripChars (before ++ (text ++ after)) = text := by
  have hkeep : ∀ {cs rest : List Char}, cs ≠ [] → (∀ c ∈ cs, isSpace c = false) →
      (cs ++ rest).dropWhile isSpace = cs ++ rest := by
    intro cs rest hcs hall
    obtain ⟨c, cs, rfl⟩ := List.exists_cons_of_ne_nil hcs
    rw [List.cons_append, List.dropWhile_cons_of_neg]
    simp [hall c List.mem_cons_self]
  have hafter' : ∀ c ∈ after.reverse, isSpace c = true :=
    fun c hc => hafter c (List.mem_reverse.mp hc)
  have htext' : ∀ c ∈ text.reverse, isSpace c = false :=
    fun c hc => htext c (List.mem_reverse.mp hc)
  have hdrop : text.reverse.dropWhile isSpace = text.reverse := by
    simpa using @hkeep text.reverse [] (by simpa using hne) htext'
  rw [stripChars, List.dropWhile_append_of_pos hbefore, hkeep hne htext, List.reverse_append,
    List.dropWhile_append_of_pos hafter', hdrop, List.reverse_reverse]

theorem issued_ne_nil (payload sig : Bytes) : issued payload sig ≠ [] := by
  intro h
  have hdecode := b64decode_b64encode (payload ++ 46 :: b64encode sig)
  rw [show b64encode (payload ++ 46 :: b64encode sig) = [] from h] at hdecode
  have hnil : payload ++ 46 :: b64encode sig = [] := (Except.ok.inj hdecode).symm
  simp at hnil

theorem notSpace_of_mem_asciiText {payload sig : Bytes} {c : Char}
    (h : c ∈ asciiText (issued payload sig)) : isSpace c = false := by
  obtain ⟨b, hb, rfl⟩ := List.mem_map.mp h
  exact (isPlain_of_mem_b64encode hb).2.2

variable (m : Manager)

theorem strip_readText_issuedFile {before after : String}
    (hbefore : ∀ c ∈ before.toList, isSpace c = true)
    (hafter : ∀ c ∈ after.toList, isSpace c = true) (payload sig : Bytes) :
    (m.readText (issuedFile before after payload sig)).map strip =
      .ok (String.ofList (asciiText (issued payload sig))) := by
  have htext : ∀ c ∈ asciiText (issued payload sig), isSpace c = false :=
    fun c hc => notSpace_of_mem_asciiText hc
  have hne : asciiText (issued payload sig) ≠ [] := by
    simpa [asciiText] using issued_ne_nil payload sig
  have hhead : (asciiText (issued payload sig) ++ after.toList).head? ≠ some '\n' := by
    obtain ⟨c, cs, hcs⟩ := List.exists_cons_of_ne_nil hne
    rw [hcs] at htext ⊢
    intro hc
    obtain rfl : c = '\n' := Option.some.inj hc
    exact absurd (htext _ List.mem_cons_self) (by decide)
  have hlines : universalNewlines (before.toList
      ++ (asciiText (issued payload sig) ++ after.toList)) =
      universalNewlines before.toList
        ++ (asciiText (issued payload sig) ++ universalNewlines after.toList) := by
    rw [universalNewlines_append _ hhead, universalNewlines_of_notSpace htext]
  have hstrip := stripChars_append (universalNewlines_space hbefore) htext hne
    (universalNewlines_space hafter)
  simp only [Manager.readText, Manager.decode, issuedFile, decodeUtf8_utf8, Except.map,
    String.toList_append, String.toList_ofList, List.append_assoc, hlines, strip, hstrip]

/-- From an issued file, the verification gets exactly the signature and the payload. -/
theorem signedParts_issuedFile {before after : String}
    (hbefore : ∀ c ∈ before.toList, isSpace c = true)
    (hafter : ∀ c ∈ after.toList, isSpace c = true) (payload sig : Bytes) :
    m.signedParts (some (issuedFile before after payload sig)) = .ok (sig, payload) := by
  have hread := strip_readText_issuedFile m hbefore hafter payload sig
  cases htext : m.readText (issuedFile before after payload sig) with
  | error e =>
    rw [htext] at hread
    cases hread
  | ok text =>
    rw [htext] at hread
    have hstrip : strip text = String.ofList (asciiText (issued payload sig)) :=
      Except.ok.inj hread
    have hascii : ∀ c ∈ issued payload sig, c.toNat < 128 :=
      fun c hc => (isPlain_of_mem_b64encode hc).1
    have hcombined : b64decodeText (strip text) = .ok (payload ++ 46 :: b64encode sig) := by
      rw [hstrip, b64decodeText_asciiText hascii, issued, b64decode_b64encode]
    simp [Manager.signedParts, htext, hcombined, splitLastByte_append (dot_notMem_b64encode sig),
      b64decode_b64encode, bind, Except.bind, pure, Except.pure, Except.mapError]

def requiredFields : List String := ["client_name", "issue_date", "expiry_date", "fingerprint"]

/-- The payload bytes are those of a license of this machine that has not expired. -/
structure Licensed (today : ℤ) (payloadBytes : Bytes) (fields : List (String × Json)) : Prop where
  object : ∃ text, decodeUtf8 payloadBytes = some text ∧ m.host.loads text = .ok (.obj fields)
  present : ∀ key ∈ requiredFields, ∃ value, (Json.obj fields).get? key = some value ∧
    strip (m.host.str value) ≠ ""
  expiry : ∃ value day, (Json.obj fields).get? "expiry_date" = some value ∧
    m.host.date (m.host.str value) = some day ∧ today ≤ day
  fingerprint : ∃ value, (Json.obj fields).get? "fingerprint" = some value ∧
    m.host.lower (strip (m.host.str value)) ∈ m.host.fingerprints.map Prod.fst

theorem secureEqual_eq_true {a b : String} (h : secureEqual a b = .ok true) : a = b := by
  unfold secureEqual at h
  split at h
  · exact eq_of_beq (Except.ok.inj h)
  · cases h

theorem mem_of_anySecureEqual {want : String} {candidates : List (String × String)}
    (h : anySecureEqual want candidates = .ok true) : want ∈ candidates.map Prod.fst := by
  induction candidates with
  | nil => cases h
  | cons c candidates ih =>
    obtain ⟨same, hsame, h⟩ := Tx.except_bind_ok.mp h
    rw [List.map_cons, List.mem_cons]
    cases same with
    | true => exact Or.inl (secureEqual_eq_true hsame).symm
    | false => exact Or.inr (ih h)

theorem present_of_strip_ne {fields : List (String × Json)} {key : String}
    (h : strip (m.host.str (((Json.obj fields).get? key).getD (.str ""))) ≠ "") :
    ∃ value, (Json.obj fields).get? key = some value ∧
      ((Json.obj fields).get? key).getD (.str "") = value ∧ strip (m.host.str value) ≠ "" := by
  cases hget : (Json.obj fields).get? key with
  | none =>
    rw [hget, Option.getD_none, m.str_text] at h
    exact absurd rfl h
  | some value =>
    rw [hget] at h
    exact ⟨value, rfl, rfl, h⟩

theorem payloadOf_ok {host : Host} {data : Json} {payload : Payload}
    (h : payloadOf host data = .ok payload) :
    ∃ fields, data = .obj fields ∧
      payload.clientName = host.str ((data.get? "client_name").getD (.str "")) ∧
      payload.issueDate = host.str ((data.get? "issue_date").getD (.str "")) ∧
      payload.expiryDate = host.str ((data.get? "expiry_date").getD (.str "")) ∧
      payload.fingerprint = host.str ((data.get? "fingerprint").getD (.str "")) := by
  cases data with
  | obj fields =>
    obtain ⟨maxNodes, -, h⟩ := Tx.except_bind_ok.mp h
    obtain rfl := Except.ok.inj h
    exact ⟨fields, rfl, rfl, rfl, rfl, rfl⟩
  | _ => cases h

theorem mapError_eq_ok {ε δ α : Type} {f : ε → δ} {x : Except ε α} {a : α}
    (h : x.mapError f = .ok a) : x = .ok a := by
  cases x with
  | error e => cases h
  | ok b => exact congrArg Except.ok (Except.ok.inj h)

variable {m}

theorem payloadIn_ok {payloadBytes : Bytes} {payload : Payload}
    (h : m.payloadIn payloadBytes = .ok payload) :
    ∃ fields, (∃ text, decodeUtf8 payloadBytes = some text ∧
        m.host.loads text = .ok (.obj fields)) ∧
      (∀ key ∈ requiredFields, ∃ value, (Json.obj fields).get? key = some value ∧
        strip (m.host.str value) ≠ "") ∧
      payload.expiryDate = m.host.str (((Json.obj fields).get? "expiry_date").getD (.str "")) ∧
      payload.fingerprint =
        m.host.str (((Json.obj fields).get? "fingerprint").getD (.str "")) := by
  obtain ⟨text, htext, h⟩ := Tx.except_bind_ok.mp h
  obtain ⟨data, hdata, h⟩ := Tx.except_bind_ok.mp h
  obtain ⟨found, hfound, hchecked⟩ := Tx.except_bind_ok.mp h
  obtain ⟨fields, rfl, hclient, hissue, hexpiry, hfinger⟩ := payloadOf_ok hfound
  have hdecode : decodeUtf8 payloadBytes = some text := by
    unfold Manager.decode at htext
    cases hd : decodeUtf8 payloadBytes with
    | none =>
      rw [hd] at htext
      cases htext
    | some t =>
      rw [hd] at htext
      exact congrArg some (Except.ok.inj htext)
  split at hchecked
  · cases hchecked
  · rename_i hblank
    obtain rfl := Except.ok.inj hchecked
    rw [List.any_eq_true] at hblank
    have hne : ∀ {s : String}, s ∈ [found.clientName, found.issueDate, found.expiryDate,
        found.fingerprint] → strip s ≠ "" :=
      fun hs hempty => hblank ⟨_, hs, beq_iff_eq.mpr hempty⟩
    refine ⟨fields, ⟨text, hdecode, mapError_eq_ok hdata⟩, ?_, hexpiry, hfinger⟩
    intro key hkey
    have hkeep : strip (m.host.str (((Json.obj fields).get? key).getD (.str ""))) ≠ "" := by
      simp only [requiredFields, List.mem_cons, List.not_mem_nil, or_false] at hkey
      rcases hkey with rfl | rfl | rfl | rfl
      · rw [← hclient]
        exact hne (by simp)
      · rw [← hissue]
        exact hne (by simp)
      · rw [← hexpiry]
        exact hne (by simp)
      · rw [← hfinger]
        exact hne (by simp)
    obtain ⟨value, hget, -, hvalue⟩ := present_of_strip_ne m hkeep
    exact ⟨value, hget, hvalue⟩

theorem licensed_of_verifyFull {today : ℤ} {file : Option Bytes} {payload : Payload} {days : ℤ}
    (h : m.verifyFull today file = .ok (payload, days)) :
    ∃ sig payloadBytes fields, m.signedParts file = .ok (sig, payloadBytes) ∧
      m.verify sig payloadBytes = true ∧ Licensed m today payloadBytes fields := by
  obtain ⟨parsed, hparsed, h⟩ := Tx.except_bind_ok.mp h
  obtain ⟨⟨sig, payloadBytes⟩, hparts, hparsed⟩ := Tx.except_bind_ok.mp hparsed
  obtain ⟨-, -, hparsed⟩ := Tx.except_bind_ok.mp hparsed
  split at hparsed
  · cases hparsed
  · rename_i hverify
    rw [Bool.not_eq_true', Bool.not_eq_false] at hverify
    obtain ⟨fields, hobject, hpresent, hexpiry, hfinger⟩ := payloadIn_ok hparsed
    split at h
    · cases h
    · rename_i day hday
      split at h
      · cases h
      · rename_i hnot
        obtain ⟨matched, hmatched, h⟩ := Tx.except_bind_ok.mp h
        cases matched with
        | false => cases h
        | true =>
          obtain ⟨expiry, hget, -⟩ := hpresent "expiry_date" (by simp [requiredFields])
          obtain ⟨finger, hget', -⟩ := hpresent "fingerprint" (by simp [requiredFields])
          rw [hexpiry, hget, Option.getD_some] at hday
          have hmem := mem_of_anySecureEqual hmatched
          rw [hfinger, hget', Option.getD_some] at hmem
          exact ⟨sig, payloadBytes, fields, hparts, hverify,
            { object := hobject
              present := hpresent
              expiry := ⟨expiry, day, hget, hday, not_lt.mp hnot⟩
              fingerprint := ⟨finger, hget', hmem⟩ }⟩

def acmeFields : List (String × Json) :=
  [("client_name", .str "A."), ("issue_date", .str "2026-01-01"),
    ("expiry_date", .str "2027-01-01"), ("fingerprint", .str "ab")]

def acmeText : String :=
  "\x7b\"client_name\":\"A.\",\"issue_date\":\"2026-01-01\",\"expiry_date\":\"2027-01-01\",\"fingerprint\":\"ab\"\x7d"

/-- A machine with one fingerprint, and a key under which one signature verifies. -/
def acmeManager : Manager where
  licenseFile := "license.lic"
  publicKey := .ok ()
  verify sig payload := sig == [1, 46, 2] && payload == utf8 acmeText
  unicodeError _ := "invalid start byte"
  str_text _ := rfl
  host := {
    base64 := fun _ => .error "Incorrect padding"
    verifies := fun _ _ => .ok false
    loads := fun text => if text = acmeText then .ok (.obj acmeFields) else .error "Extra data"
    int := fun _ => .ok 0
    str := fun value => value.asStr?.getD ""
    lower := id
    date := fun text => if text = "2027-01-01" then some 20819 else none
    fingerprints := [("ab", "machine-id")]
    strftime := fun _ => ""
    strptime := fun _ => none
    fromisoformat := fun _ => none }

end License

end Minsight

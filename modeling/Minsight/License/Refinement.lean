import Minsight.License.Import

/-! # License files as texts

The text-level manager keeps files as the texts they hold and bytes as texts with one character for
each byte. It is the byte-level manager wherever the signature is ASCII, as every issued one is.
-/

namespace Minsight

namespace License

def latinText (data : Bytes) : String := String.ofList (asciiText data)

def Manager.textHost (m : Manager) : Host :=
  { m.host with
    base64 := fun text => (b64decodeText text).map latinText
    verifies := fun sig payload => do
      m.publicKey
      pure (m.verify (latinBytes sig.toList) (latinBytes payload.toList))
    loads := fun payload => do
      let text ← m.decode (latinBytes payload.toList)
      (m.host.loads text).mapError ("载荷 JSON 解析失败: " ++ ·) }

theorem splitLastDot_latinText (data : Bytes) :
    splitLastDot (latinText data) =
      (splitLastByte data).map fun parts => (latinText parts.1, latinText parts.2) := by
  have hdot : ∀ c : UInt8, (Char.ofNat c.toNat != '.') = (c != 46) := by
    intro c
    rw [Bool.eq_iff_iff, bne_iff_ne, bne_iff_ne, not_iff_not]
    constructor
    · intro h
      have hnat := congrArg Char.toNat h
      rw [toNat_ofNat_toNat] at hnat
      exact UInt8.toNat_inj.mp hnat
    · rintro rfl
      rfl
  have hspan : (asciiText data).reverse.span (· != '.') =
      (asciiText (data.reverse.span (· != 46)).1, asciiText (data.reverse.span (· != 46)).2) := by
    simp only [List.span_eq_takeWhile_dropWhile, asciiText, ← List.map_reverse,
      List.takeWhile_map, List.dropWhile_map, Function.comp_def, hdot]
  rw [splitLastDot, latinText, String.toList_ofList, hspan, splitLastByte]
  rcases data.reverse.span (· != 46) with ⟨after, _ | ⟨c, before⟩⟩
  · rfl
  · simp [latinText, asciiText]

variable {m : Manager} {content : Bytes} {text : String}

/-- The part of the text after the last dot is ASCII, as base64 is. -/
def AsciiSignature (text : String) : Prop :=
  ∀ combined payloadBytes sigB64, b64decodeText (strip text) = .ok combined →
    splitLastByte combined = some (payloadBytes, sigB64) → ∀ c ∈ sigB64, c.toNat < 128

theorem payloadOf_textHost (data : Json) : payloadOf m.textHost data = payloadOf m.host data := by
  cases data <;> rfl

theorem verifies_textHost (sig payload : Bytes) :
    m.textHost.verifies (latinText sig) (latinText payload) =
      (do m.publicKey; pure (m.verify sig payload)) := by
  simp [Manager.textHost, latinText]

theorem loads_textHost (payload : Bytes) :
    m.textHost.loads (latinText payload) = (do
      let text ← m.decode payload
      (m.host.loads text).mapError ("载荷 JSON 解析失败: " ++ ·)) := by
  simp [Manager.textHost, latinText]

theorem base64_textHost_eq (m : Manager) (data : String) :
    m.textHost.base64 data = (b64decodeText data).map latinText := rfl

theorem base64_textHost {sigB64 : Bytes} (h : ∀ c ∈ sigB64, c.toNat < 128) :
    m.textHost.base64 (latinText sigB64) = (b64decode sigB64).map latinText := by
  rw [base64_textHost_eq, latinText, b64decodeText_asciiText h]

/-- What `parse_and_verify` does with a signature and a payload that are texts. -/
def checkSignedText (host : Host) (sig payloadBytes : String) : Except String Payload := do
  let verified ← host.verifies sig payloadBytes
  if !verified then .error "签名验证失败，文件可能被篡改"
  else
    let data ← host.loads payloadBytes
    let payload ← payloadOf host data
    if [payload.clientName, payload.issueDate, payload.expiryDate, payload.fingerprint].any
        (strip · == "") then
      .error "License 缺少必要字段"
    else pure payload

section

variable (host : Host) (text : String) {combined payloadText sigText sig e : String}

theorem parseAndVerify_of_base64_error (h : host.base64 (strip text) = .error e) :
    parseAndVerify host text = .error ("Base64 解码失败: " ++ e) := by
  rw [parseAndVerify, h]
  rfl

theorem parseAndVerify_of_no_dot (h : host.base64 (strip text) = .ok combined)
    (hsplit : splitLastDot combined = none) :
    parseAndVerify host text = .error "License 结构错误：缺少签名分隔符" := by
  rw [parseAndVerify, h]
  simp only [Except.mapError, bind, Except.bind, hsplit]

theorem parseAndVerify_of_split (h : host.base64 (strip text) = .ok combined)
    (hsplit : splitLastDot combined = some (payloadText, sigText)) :
    parseAndVerify host text =
      (host.base64 sigText).mapError ("签名解码失败: " ++ ·) >>= fun sig =>
        checkSignedText host sig payloadText := by
  rw [parseAndVerify, h]
  simp only [Except.mapError, bind, Except.bind, hsplit, checkSignedText]

end

theorem checkSignedText_textHost (sig payloadBytes : Bytes) :
    checkSignedText m.textHost (latinText sig) (latinText payloadBytes) =
      m.checkSigned sig payloadBytes := by
  rw [checkSignedText, verifies_textHost, loads_textHost, Manager.checkSigned]
  cases m.publicKey with
  | error e => rfl
  | ok _ =>
    simp only [bind, Except.bind, pure, Except.pure, Manager.payloadIn, payloadOf_textHost]
    cases m.verify sig payloadBytes with
    | false => rfl
    | true =>
      cases m.decode payloadBytes <;> rfl

/-- Both managers parse a file to the same payload, or fail with the same message. -/
theorem parseAndVerify_textHost (hread : m.readText content = .ok text)
    (hascii : AsciiSignature text) :
    parseAndVerify m.textHost text = m.parseAndVerify (some content) := by
  have hbase := base64_textHost_eq m (strip text)
  have hbind : (m.readText content >>= fun text => b64decodeText (strip text)) =
      b64decodeText (strip text) := by
    simp only [hread, bind, Except.bind]
  rw [Manager.parseAndVerify, Manager.signedParts, hbind]
  cases hcombined : b64decodeText (strip text) with
  | error e =>
    rw [hcombined] at hbase
    rw [parseAndVerify_of_base64_error m.textHost text hbase]
    simp only [Except.mapError, bind, Except.bind]
  | ok combined =>
    rw [hcombined] at hbase
    have hdot := splitLastDot_latinText combined
    cases hsplit : splitLastByte combined with
    | none =>
      rw [hsplit] at hdot
      rw [parseAndVerify_of_no_dot m.textHost text hbase hdot]
      simp only [Except.mapError, bind, Except.bind, hsplit]
    | some parts =>
      obtain ⟨payloadBytes, sigB64⟩ := parts
      rw [hsplit] at hdot
      rw [parseAndVerify_of_split m.textHost text hbase hdot,
        base64_textHost (hascii _ _ _ hcombined hsplit)]
      simp only [Except.mapError, bind, Except.bind, hsplit]
      cases b64decode sigB64 with
      | error e => simp only [Except.map]
      | ok sig =>
        simp only [Except.map, pure, Except.pure, checkSignedText_textHost]

def AsciiText (text : String) : Prop := ∀ c ∈ text.toList, c.toNat < 128

/-- Candidates are hashes in ASCII, so the comparison that raises for other texts finds them. -/
theorem anySecureEqual_eq_true {want : String} {candidates : List (String × String)}
    (hascii : ∀ c ∈ candidates, AsciiText c.1) :
    anySecureEqual want candidates = .ok true ↔ candidates.any (·.1 == want) = true := by
  induction candidates with
  | nil => simp [anySecureEqual]
  | cons c candidates ih =>
    simp only [List.forall_mem_cons] at hascii
    have hrest := ih hascii.2
    by_cases hwant : AsciiText want
    · have hequal : secureEqual c.1 want = .ok (c.1 == want) := by
        rw [secureEqual, if_pos]
        rw [List.all_append, Bool.and_eq_true, List.all_eq_true, List.all_eq_true]
        exact ⟨fun x hx => decide_eq_true (hascii.1 x hx), fun x hx => decide_eq_true (hwant x hx)⟩
      rw [anySecureEqual, hequal, List.any_cons]
      cases c.1 == want with
      | true => exact iff_of_true rfl rfl
      | false => exact hrest
    · have hraise : secureEqual c.1 want =
          .error "comparing strings with non-ASCII characters is not supported" := by
        rw [secureEqual, if_neg]
        intro hall
        rw [List.all_append, Bool.and_eq_true, List.all_eq_true, List.all_eq_true] at hall
        exact hwant fun x hx => of_decide_eq_true (hall.2 x hx)
      have hnone : (c :: candidates).any (·.1 == want) = false := by
        rw [List.any_eq_false]
        intro d hd heq
        obtain rfl : d.1 = want := eq_of_beq heq
        rcases List.mem_cons.mp hd with rfl | hd
        · exact hwant hascii.1
        · exact hwant (hascii.2 d hd)
      rw [anySecureEqual, hraise, hnone]
      simp [bind, Except.bind]

theorem verifyFull_textHost (hread : m.readText content = .ok text)
    (hsig : AsciiSignature text) (hcand : ∀ c ∈ m.host.fingerprints, AsciiText c.1) (now : Time) :
    (verifyFull m.textHost now text).isOk = (m.verifyFull (utcDay now) (some content)).isOk := by
  rw [verifyFull, Manager.verifyFull, parseAndVerify_textHost hread hsig]
  cases m.parseAndVerify (some content) with
  | error e => rfl
  | ok payload =>
    have hdate : m.textHost.date = m.host.date := rfl
    have hlower : m.textHost.lower = m.host.lower := rfl
    have hfinger : m.textHost.fingerprints = m.host.fingerprints := rfl
    simp only [bind, Except.bind, hdate, hlower, hfinger]
    cases m.host.date payload.expiryDate with
    | none => rfl
    | some expiry =>
      simp only
      split
      · rfl
      · have hany := @anySecureEqual_eq_true (m.host.lower (strip payload.fingerprint)) _ hcand
        cases hfound : anySecureEqual (m.host.lower (strip payload.fingerprint))
            m.host.fingerprints with
        | error e =>
          rw [hfound] at hany
          rw [if_neg fun h => Tx.error_ne_ok (hany.mpr h)]
          rfl
        | ok matched =>
          rw [hfound] at hany
          cases matched with
          | true =>
            rw [if_pos (hany.mp rfl)]
            rfl
          | false =>
            rw [if_neg fun h => Bool.false_ne_true (Except.ok.inj (hany.mpr h))]
            rfl

/-- The files of a directory whose contents are texts. -/
def Directory.files (dir : Directory) (source : Option Bytes) : Files
  | .licenseFile => dir.licenseFile.map utf8
  | .backup => dir.backup.map utf8
  | .graceFile => dir.graceFile.map utf8
  | .graceExpiredFile => dir.graceExpiredFile.map utf8
  | .source => source

/-- An import of a text by bytes is the import by text: they agree on success and on every file
of the directory. -/
theorem importFile_textHost {today : ℤ} {now : Time} (hday : utcDay now = today)
    (hread : m.readText (utf8 text) = .ok text) (hsig : AsciiSignature text)
    (hcand : ∀ c ∈ m.host.fingerprints, AsciiText c.1) (dir : Directory) :
    let source := some (utf8 text)
    let byBytes := Tx.exec (m.importFile today {}) (dir.files source)
    let byText := importFile m.textHost now (.ok text) dir
    byBytes.1.isOk = byText.1.isOk ∧
      ∀ name, name ≠ .source → byBytes.2 name = byText.2.files source name := by
  intro source byBytes byText
  have hverify := verifyFull_textHost hread hsig hcand now
  rw [hday] at hverify
  have htext : byText = importFile m.textHost now (.ok text) dir := rfl
  rw [importFile] at htext
  simp only [Except.bind] at htext
  cases hfound : verifyFull m.textHost now text with
  | ok accepted =>
    rw [hfound] at hverify htext
    have himp : Importable m today {} (dir.files source) :=
      ⟨rfl, rfl, rfl, utf8 text, rfl, hverify.symm⟩
    obtain ⟨files', hexec, hlicense, hgrace, hexpired, hbackup⟩ := importFile_of_importable himp
    have hbytes : byBytes = (.ok (), files') := hexec
    rw [hbytes, htext]
    refine ⟨rfl, fun name hname => ?_⟩
    cases name with
    | licenseFile => exact hlicense
    | backup => exact hbackup
    | graceFile => exact hgrace
    | graceExpiredFile => exact hexpired
    | source => exact absurd rfl hname
  | error e =>
    rw [hfound] at hverify htext
    have hrefused : ¬ Importable m today {} (dir.files source) := by
      rintro ⟨-, -, -, found, hsource, hok⟩
      obtain rfl : utf8 text = found := Option.some.inj hsource
      rw [← hverify] at hok
      cases hok
    obtain ⟨message, files', hexec, hlicense, hgrace, hexpired, hbackup⟩ :=
      importFile_of_not_importable hrefused
    have hbytes : byBytes = (.error message, files') := hexec
    rw [hbytes, htext]
    refine ⟨rfl, fun name hname => ?_⟩
    cases name with
    | licenseFile =>
      refine hlicense.trans ?_
      unfold Directory.files
      cases dir.licenseFile <;> cases dir.backup <;> rfl
    | backup => exact hbackup
    | graceFile =>
      refine hgrace.trans ?_
      unfold Directory.files
      cases dir.licenseFile <;> rfl
    | graceExpiredFile =>
      refine hexpired.trans ?_
      unfold Directory.files
      cases dir.licenseFile <;> rfl
    | source => exact absurd rfl hname

end License

end Minsight

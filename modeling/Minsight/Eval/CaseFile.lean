import Minsight.Eval.Regression
import Minsight.Foundation.JsonLex
import Minsight.Foundation.Lines

/-! # Files of regression cases

Cases are exported as one JSON text a line. The endpoint and the command line import such a file,
and they differ in what they take for a line: the endpoint also cuts at line ends that stand
inside of a text.
-/

namespace Minsight.Regression

open JsonText

/-- The texts of a case, and the keys in its values. -/
def RegressionTestCase.texts (row : RegressionTestCase) : List String :=
  row.name :: (JsonText.texts row.alertPayload ++ (JsonText.texts row.expectedSkills ++
    (JsonText.texts row.forbiddenSkills ++ JsonText.texts row.tags)))

/-- What the columns take: a name of at most 256 characters, and texts without the character 0. -/
def RegressionTestCase.storable (row : RegressionTestCase) : Bool :=
  row.name.length ≤ 256 && row.texts.all fun s => s.toList.all (· ≠ '\x00')

/-- A case as a row of the table has it. -/
structure RegressionTestCase.Stored (lib : FloatText) (row : RegressionTestCase) : Prop where
  alertPayload : Held lib row.alertPayload
  expectedSkills : Held lib row.expectedSkills
  forbiddenSkills : Held lib row.forbiddenSkills
  tags : Held lib row.tags
  storable : row.storable = true

structure CaseDraft where
  name : Json
  alertPayload : Json
  expectedVerdict : InvestigationVerdict
  expectedSkills : Json
  forbiddenSkills : Json
  tags : Json
  isActive : Json

/-- The value of a column of type `Boolean`. -/
def flagOf (value : Json) : Option Bool :=
  value.number?.bind fun q => if q = 0 then some false else if q = 1 then some true else none

def CaseDraft.stored (draft : CaseDraft) : Except Exn RegressionTestCase :=
  match draft.name.asStr?, flagOf draft.isActive with
  | some name, some isActive =>
    let row : RegressionTestCase := {
      name, isActive
      alertPayload := draft.alertPayload
      expectedVerdict := draft.expectedVerdict
      expectedSkills := draft.expectedSkills
      forbiddenSkills := draft.forbiddenSkills
      tags := draft.tags }
    if row.storable then .ok row else .error .statement
  | _, _ => .error .statement

def caseJson (row : RegressionTestCase) : Json :=
  .obj [("name", .str row.name), ("alert_payload", row.alertPayload),
    ("expected_verdict", .str row.expectedVerdict.value), ("expected_skills", row.expectedSkills),
    ("forbidden_skills", row.forbiddenSkills), ("tags", row.tags),
    ("is_active", .bool row.isActive)]

/-- `data[key]` -/
def itemOf (data : Json) (key : String) : Except Exn Json :=
  match data with
  | .obj fields => (fields.lookup key).elim (.error (.keyError key)) .ok
  | _ => .error .typeError

/-- `InvestigationVerdict(value)` -/
def verdictOfJson : Json → Except Exn InvestigationVerdict
  | .str s => verdictOf s
  | _ => .error (.valueError "is not a valid InvestigationVerdict")

section

variable (lib : FloatText)

def caseLine (row : RegressionTestCase) : List Char := dump lib (caseJson row)

/-- `export_cases`, on the rows in the order in which they are selected. -/
def exportCases (rows : List RegressionTestCase) : Bytes :=
  let lines := rows.map (caseLine lib)
  utf8 (String.ofList (['\n'].intercalate lines ++ if lines.isEmpty then [] else ['\n']))

def readCase (line : List Char) : Except Exn CaseDraft := do
  let data ← (load lib line).elim (.error (.valueError "JSONDecodeError")) .ok
  let name ← itemOf data "name"
  let alertPayload ← itemOf data "alert_payload"
  let expectedVerdict ← verdictOfJson (← itemOf data "expected_verdict")
  pure {
    name, alertPayload, expectedVerdict
    expectedSkills := (data.get? "expected_skills").getD (.arr [])
    forbiddenSkills := (data.get? "forbidden_skills").getD .null
    tags := (data.get? "tags").getD (.arr [])
    isActive := (data.get? "is_active").getD (.bool true) }

def caseRows (linesOf : List Char → List (List Char)) (data : Bytes) :
    Except Exn (List RegressionTestCase) := do
  let text ← (decodeUtf8 data).elim (.error (.valueError "UnicodeDecodeError")) .ok
  let lines := ((linesOf text.toList).map stripChars).filter (!·.isEmpty)
  let drafts ← lines.mapM (readCase lib)
  drafts.mapM CaseDraft.stored

/-- How many cases are imported, and the table after the import. All of them are committed, or
none is when an exception ends the import. -/
def importFrom (linesOf : List Char → List (List Char)) (data : Bytes)
    (table : List RegressionTestCase) : Except Exn ℕ × List RegressionTestCase :=
  match caseRows lib linesOf data with
  | .ok rows => (.ok rows.length, table ++ rows)
  | .error e => (.error e, table)

/-- `import_cases` of the endpoint -/
def importCases : Bytes → List RegressionTestCase → Except Exn ℕ × List RegressionTestCase :=
  importFrom lib splitlines

/-- `_import_cases` of the command line -/
def cliImportCases : Bytes → List RegressionTestCase → Except Exn ℕ × List RegressionTestCase :=
  importFrom lib fileLines

/-- An import into an empty table made each of the cases once, and nothing else. -/
def Restores (table : List RegressionTestCase)
    (result : Except Exn ℕ × List RegressionTestCase) : Prop :=
  result.1 = .ok table.length ∧ result.2.Perm table

/-- Whatever the order of the selected rows is, both importers restore what is exported. -/
def RoundTrips (table : List RegressionTestCase) : Prop :=
  ∀ rows, rows.Perm table →
    Restores table (importCases lib (exportCases lib rows) []) ∧
      Restores table (cliImportCases lib (exportCases lib rows) [])

end

/-- A line end that stands in a JSON text as it is. -/
def isBreak (c : Char) : Bool := c = '\u0085' || c = '\u2028' || c = '\u2029'

section

variable {lib : FloatText} {row : RegressionTestCase} {rows table : List RegressionTestCase}
  {c : Char}

theorem RegressionTestCase.Stored.held (h : row.Stored lib) : Held lib (caseJson row) := by
  constructor
  · change ["name", "alert_payload", "expected_verdict", "expected_skills", "forbidden_skills",
      "tags", "is_active"].Nodup
    decide
  · exact ⟨trivial, h.alertPayload, trivial, h.expectedSkills, h.forbiddenSkills, h.tags, trivial,
      trivial⟩

theorem isBreak_wide (hc : isBreak c = true) : 128 ≤ c.toNat := by
  simp only [isBreak, Bool.or_eq_true, decide_eq_true_iff] at hc
  rcases hc with (rfl | rfl) | rfl <;> decide

theorem isBreak_isLineEnd (hc : isBreak c = true) : isLineEnd c = true := by
  simp only [isBreak, Bool.or_eq_true, decide_eq_true_iff] at hc
  rcases hc with (rfl | rfl) | rfl <;> decide

theorem isLineEnd_isBreak (hc : isLineEnd c = true) (hprintable : 32 ≤ c.toNat) :
    isBreak c = true := by
  simp only [isLineEnd, Bool.or_eq_true, Bool.and_eq_true, decide_eq_true_iff, beq_iff_eq] at hc
  have hval {n : ℕ} (h : c.toNat = n) : c = Char.ofNat n := by
    rw [← h, Char.ofNat_toNat]
  simp only [isBreak, Bool.or_eq_true, decide_eq_true_iff]
  rcases hc with (((hc | hc) | hc) | hc) | hc
  · omega
  · omega
  · exact .inl (.inl (hval hc))
  · exact .inl (.inr (hval hc))
  · exact .inr (hval hc)

theorem exists_break_caseLine (h : row.Stored lib) :
    (∃ c ∈ caseLine lib row, isBreak c = true) ↔
      ∃ s ∈ row.texts, ∃ c ∈ s.toList, isBreak c = true := by
  have htexts (s : String) : s ∈ JsonText.texts (caseJson row) ↔
      s ∈ ["name", "alert_payload", "expected_verdict", "expected_skills", "forbidden_skills",
        "tags", "is_active", row.expectedVerdict.value] ∨ s ∈ row.texts := by
    simp only [caseJson, RegressionTestCase.texts, JsonText.texts, textsFields, textsField,
      List.mem_cons, List.mem_append, List.not_mem_nil, or_false]
    tauto
  have hfixed : (["name", "alert_payload", "expected_verdict", "expected_skills",
      "forbidden_skills", "tags", "is_active", row.expectedVerdict.value].all fun s =>
      s.toList.all (!isBreak ·)) = true := by
    cases row.expectedVerdict <;> decide
  constructor
  · rintro ⟨c, hc, hbreak⟩
    obtain ⟨s, hs, hmem⟩ := exists_text_of_mem_dump h.held hc (isBreak_wide hbreak)
    rcases (htexts s).mp hs with hs | hs
    · have hnone := List.all_eq_true.mp (List.all_eq_true.mp hfixed s hs) c hmem
      rw [hbreak] at hnone
      cases hnone
    · exact ⟨s, hs, c, hmem, hbreak⟩
  · rintro ⟨s, hs, c, hmem, hbreak⟩
    exact ⟨c, mem_dump_of_mem_text ((htexts s).mpr (.inr hs)) hmem (isBreak_wide hbreak), hbreak⟩

theorem getLast?_dumpFields (fs : List (String × Json)) :
    (dumpFields lib fs).getLast? = some '}' := by
  induction fs with
  | nil => rfl
  | cons f fs ih =>
    have heq : dumpFields lib (f :: fs) = ([',', ' '] ++ dumpField lib f) ++ dumpFields lib fs := by
      rw [dumpFields]
      rfl
    rw [heq, List.getLast?_append, ih]
    rfl

theorem caseLine_head (row : RegressionTestCase) : ∃ cs, caseLine lib row = '{' :: cs := by
  rw [caseLine, caseJson, dump]
  exact ⟨_, rfl⟩

theorem trimmed_caseLine (row : RegressionTestCase) : Trimmed (caseLine lib row) := by
  obtain ⟨cs, hcs⟩ := @caseLine_head lib row
  constructor
  · rw [hcs]
    rintro c ⟨⟩
    decide
  · have hlast : (caseLine lib row).getLast? = some '}' := by
      rw [caseLine, caseJson, dump, List.getLast?_cons, List.getLast?_append, getLast?_dumpFields]
      rfl
    rw [hlast]
    rintro c ⟨⟩
    decide

def RegressionTestCase.draft (row : RegressionTestCase) : CaseDraft where
  name := .str row.name
  alertPayload := row.alertPayload
  expectedVerdict := row.expectedVerdict
  expectedSkills := row.expectedSkills
  forbiddenSkills := row.forbiddenSkills
  tags := row.tags
  isActive := .bool row.isActive

theorem verdictOf_value (v : InvestigationVerdict) : verdictOf v.value = .ok v := by
  cases v <;> decide

theorem readCase_caseLine (h : row.Stored lib) :
    readCase lib (caseLine lib row) = .ok row.draft := by
  rw [readCase, caseLine, load_dump h.held]
  change (verdictOf row.expectedVerdict.value >>= _) = _
  rw [verdictOf_value]
  rfl

theorem draft_stored (h : row.Stored lib) : row.draft.stored = .ok row := by
  have hflag : flagOf (.bool row.isActive) = some row.isActive := by
    cases row.isActive <;> decide
  have hname : row.draft.name.asStr? = some row.name := rfl
  have hactive : flagOf row.draft.isActive = some row.isActive := hflag
  rw [CaseDraft.stored, hname, hactive]
  exact if_pos h.storable

theorem caseLine_noBreak (h : row.Stored lib) (hc : c ∈ caseLine lib row)
    (hbreak : isBreak c = false) : isLineEnd c = false := by
  by_contra hend
  rw [Bool.not_eq_false] at hend
  rw [isLineEnd_isBreak hend (dump_printable h.held c hc)] at hbreak
  cases hbreak

theorem decode_exportCases (rows : List RegressionTestCase) :
    decodeUtf8 (exportCases lib rows) =
      some (String.ofList (ended '\n' (rows.map (caseLine lib)))) := by
  rw [exportCases, decodeUtf8_utf8]
  simp only [intercalate_ended]

theorem universalNewlines_exported (h : ∀ row ∈ rows, row.Stored lib) :
    universalNewlines (ended '\n' (rows.map (caseLine lib))) =
      ended '\n' (rows.map (caseLine lib)) := by
  refine universalNewlines_of_notMem fun hmem => ?_
  obtain ⟨line, hline, hmem⟩ := List.mem_flatMap.mp hmem
  obtain ⟨row, hrow, rfl⟩ := List.mem_map.mp hline
  rcases List.mem_append.mp hmem with hmem | hmem
  · exact absurd (dump_printable (h row hrow).held _ hmem) (by decide)
  · exact absurd hmem (by decide)

theorem importFrom_exportCases {linesOf : List Char → List (List Char)}
    (h : ∀ row ∈ rows, row.Stored lib)
    (hlines : linesOf (ended '\n' (rows.map (caseLine lib))) = rows.map (caseLine lib))
    (table : List RegressionTestCase) :
    importFrom lib linesOf (exportCases lib rows) table = (.ok rows.length, table ++ rows) := by
  have hmap : (rows.map (caseLine lib)).map stripChars = rows.map (caseLine lib) := by
    rw [List.map_map]
    exact List.map_congr_left fun row _ => stripChars_of_trimmed (trimmed_caseLine row)
  have hstrip : ((rows.map (caseLine lib)).map stripChars).filter (!·.isEmpty) =
      rows.map (caseLine lib) := by
    rw [hmap]
    refine List.filter_eq_self.mpr fun line hline => ?_
    obtain ⟨row, -, rfl⟩ := List.mem_map.mp hline
    obtain ⟨cs, hcs⟩ := @caseLine_head lib row
    rw [hcs]
    rfl
  have hread : (rows.map (caseLine lib)).mapM (readCase lib) =
      .ok (rows.map RegressionTestCase.draft) :=
    Tx.mapM_map_ok fun row hrow => readCase_caseLine (h row hrow)
  have hstored : (rows.map RegressionTestCase.draft).mapM CaseDraft.stored = .ok (rows.map id) :=
    Tx.mapM_map_ok fun row hrow => draft_stored (h row hrow)
  have hrows : caseRows lib linesOf (exportCases lib rows) = .ok rows := by
    rw [caseRows, decode_exportCases]
    change (((linesOf (String.ofList _).toList).map stripChars).filter _).mapM (readCase lib) >>= _
      = _
    rw [String.toList_ofList, hlines, hstrip, hread]
    change (rows.map RegressionTestCase.draft).mapM CaseDraft.stored = _
    rw [hstored, List.map_id]
  rw [importFrom, hrows]

theorem cliImportCases_exportCases (h : ∀ row ∈ rows, row.Stored lib)
    (table : List RegressionTestCase) :
    cliImportCases lib (exportCases lib rows) table = (.ok rows.length, table ++ rows) := by
  refine importFrom_exportCases h ?_ table
  rw [fileLines, universalNewlines_exported h]
  refine linesBy_ended_of_forall rfl fun line hline c hc => ?_
  obtain ⟨row, hrow, rfl⟩ := List.mem_map.mp hline
  have hprintable := dump_printable (h row hrow).held c hc
  rw [beq_eq_false_iff_ne]
  rintro rfl
  exact absurd hprintable (by decide)

theorem importCases_exportCases (h : ∀ row ∈ rows, row.Stored lib)
    (hbreak : ∀ row ∈ rows, ∀ s ∈ row.texts, ∀ c ∈ s.toList, isBreak c = false)
    (table : List RegressionTestCase) :
    importCases lib (exportCases lib rows) table = (.ok rows.length, table ++ rows) := by
  refine importFrom_exportCases h ?_ table
  rw [splitlines, universalNewlines_exported h]
  refine linesBy_ended_of_forall rfl fun line hline c hc => ?_
  obtain ⟨row, hrow, rfl⟩ := List.mem_map.mp hline
  refine caseLine_noBreak (h row hrow) hc ?_
  by_contra hc'
  rw [Bool.not_eq_false] at hc'
  obtain ⟨s, hs, d, hd, hbreak'⟩ := (exists_break_caseLine (h row hrow)).mp ⟨c, hc, hc'⟩
  rw [hbreak row hrow s hs d hd] at hbreak'
  cases hbreak'

theorem exists_piece (h : row.Stored lib)
    (hbreak : ∃ s ∈ row.texts, ∃ c ∈ s.toList, isBreak c = true) :
    ∃ pre ∈ (caseLine lib row).splitOnP isLineEnd, stripChars pre ≠ [] ∧
      load lib (stripChars pre) = none := by
  obtain ⟨c, hc, hc'⟩ := (exists_break_caseLine h).mpr hbreak
  have hsome : ((caseLine lib row).find? isLineEnd).isSome = true :=
    List.find?_isSome.mpr ⟨c, hc, isBreak_isLineEnd hc'⟩
  obtain ⟨b, hfind⟩ := Option.isSome_iff_exists.mp hsome
  obtain ⟨hb, pre, post, heq, hpre⟩ := List.find?_eq_some_iff_append.mp hfind
  have hmem : b ∈ caseLine lib row := heq ▸ List.mem_append_right _ List.mem_cons_self
  refine ⟨pre, ?_, ?_, ?_⟩
  · rw [heq, List.splitOnP_append_cons_of_forall_mem (fun d hd => by simpa using hpre d hd) b hb]
    exact List.mem_cons_self
  · obtain ⟨cs, hcs⟩ := @caseLine_head lib row
    rw [hcs] at heq
    cases pre with
    | nil =>
      rw [← (List.cons.inj heq).1] at hb
      exact absurd hb (by decide)
    | cons d pre =>
      obtain ⟨rfl, -⟩ := List.cons.inj heq
      intro hnil
      obtain ⟨front, back, hpieces, hfront, hback⟩ := exists_append_stripChars ('{' :: pre)
      rw [hnil, List.nil_append] at hpieces
      have hbrace : '{' ∈ front ++ back := hpieces ▸ List.mem_cons_self
      rcases List.mem_append.mp hbrace with hin | hin
      · exact absurd (hfront _ hin) (by decide)
      · exact absurd (hback _ hin) (by decide)
  · have hwide := isBreak_wide (isLineEnd_isBreak hb (dump_printable h.held b hmem))
    exact load_cut h.held heq hwide

theorem caseRows_ne_ok {linesOf : List Char → List (List Char)} {text : String} {line : List Char}
    (hmem : line ∈ linesOf text.toList) (hne : stripChars line ≠ [])
    (hload : load lib (stripChars line) = none) (made : List RegressionTestCase) :
    caseRows lib linesOf (utf8 text) ≠ .ok made := by
  have hmem' : stripChars line ∈
      ((linesOf text.toList).map stripChars).filter (!·.isEmpty) := by
    refine List.mem_filter.mpr ⟨List.mem_map_of_mem hmem, ?_⟩
    simpa using hne
  intro hmade
  rw [caseRows, decodeUtf8_utf8] at hmade
  obtain ⟨_, htext, hmade⟩ := Tx.except_bind_ok.mp hmade
  obtain rfl := Except.ok.inj htext
  obtain ⟨drafts, hdrafts, -⟩ := Tx.except_bind_ok.mp hmade
  obtain ⟨draft, -, hdraft⟩ := Tx.exists_of_mapM_ok hdrafts hmem'
  rw [readCase, hload] at hdraft
  cases hdraft

theorem importCases_of_break (h : ∀ row ∈ rows, row.Stored lib) (hrow : row ∈ rows)
    (hbreak : ∃ s ∈ row.texts, ∃ c ∈ s.toList, isBreak c = true)
    (table : List RegressionTestCase) :
    ∃ e, importCases lib (exportCases lib rows) table = (.error e, table) := by
  obtain ⟨pre, hpre, hne, hload⟩ := exists_piece (h row hrow) hbreak
  have hlines : splitlines (ended '\n' (rows.map (caseLine lib))) =
      (rows.map (caseLine lib)).flatMap (List.splitOnP isLineEnd) := by
    rw [splitlines, universalNewlines_exported h, linesBy_ended rfl]
  have hmem : pre ∈ splitlines (ended '\n' (rows.map (caseLine lib))) := by
    rw [hlines]
    exact List.mem_flatMap.mpr ⟨_, List.mem_map_of_mem hrow, hpre⟩
  have hnone : ∀ made, caseRows lib splitlines (exportCases lib rows) ≠ .ok made := by
    intro made
    rw [exportCases, intercalate_ended]
    refine caseRows_ne_ok ?_ hne hload made
    rwa [String.toList_ofList]
  rw [importCases, importFrom]
  cases hmade : caseRows lib splitlines (exportCases lib rows) with
  | error e => exact ⟨e, rfl⟩
  | ok made => exact absurd hmade (hnone made)

/-- Cases come back through both importers just when no text of theirs has a line break. -/
theorem roundTrips_iff (h : ∀ row ∈ table, row.Stored lib) :
    RoundTrips lib table ↔
      ∀ row ∈ table, ∀ s ∈ row.texts, ∀ c ∈ s.toList, isBreak c = false := by
  constructor
  · intro hround row hrow s hs c hc
    by_contra hbreak
    rw [Bool.not_eq_false] at hbreak
    obtain ⟨⟨hresult, -⟩, -⟩ := hround table (.refl _)
    obtain ⟨e, he⟩ := importCases_of_break h hrow ⟨s, hs, c, hc, hbreak⟩ []
    rw [he] at hresult
    cases hresult
  · intro hbreak rows hperm
    have hrows : ∀ row ∈ rows, row.Stored lib := fun row hrow => h row (hperm.mem_iff.mp hrow)
    have hplain := fun row hrow => hbreak row (hperm.mem_iff.mp hrow)
    rw [importCases_exportCases hrows hplain, cliImportCases_exportCases hrows, List.nil_append,
      hperm.length_eq]
    exact ⟨⟨rfl, hperm⟩, ⟨rfl, hperm⟩⟩

end

def scanCase : RegressionTestCase where
  name := "Überprüfung"
  alertPayload := .obj [("title", .str "Port-Scan"), ("risk_score", .float (1 / 2))]
  expectedVerdict := .likelyFalsePositive
  tags := .arr [.str "scan"]

theorem scanCase_stored (name : String) (h : { scanCase with name }.storable = true) :
    { scanCase with name }.Stored halfFloats where
  alertPayload := by
    refine ⟨?_, trivial, rfl, trivial⟩
    change ["title", "risk_score"].Nodup
    decide
  expectedSkills := trivial
  forbiddenSkills := trivial
  tags := ⟨trivial, trivial⟩
  storable := h

theorem roundTrips_scanCase : RoundTrips halfFloats [scanCase] := by
  have hplain : (scanCase.texts.all fun s => s.toList.all (!isBreak ·)) = true := by
    decide +kernel
  refine (roundTrips_iff ?_).mpr ?_
  · intro row hrow
    obtain rfl := List.mem_singleton.mp hrow
    exact scanCase_stored "Überprüfung" (by decide +kernel)
  · intro row hrow s hs c hc
    obtain rfl := List.mem_singleton.mp hrow
    simpa using List.all_eq_true.mp (List.all_eq_true.mp hplain s hs) c hc

/-- A name with a line separator is exported and not imported. -/
theorem not_roundTrips_separator :
    { scanCase with name := "Port\u2028Scan" }.Stored halfFloats ∧
      ¬RoundTrips halfFloats [{ scanCase with name := "Port\u2028Scan" }] := by
  have hstored : { scanCase with name := "Port\u2028Scan" }.Stored halfFloats :=
    scanCase_stored _ (by decide +kernel)
  refine ⟨hstored, fun hround => ?_⟩
  have hall : ∀ row ∈ [{ scanCase with name := "Port\u2028Scan" }], row.Stored halfFloats := by
    intro row hrow
    obtain rfl := List.mem_singleton.mp hrow
    exact hstored
  obtain ⟨⟨hresult, -⟩, -⟩ := hround _ (.refl _)
  obtain ⟨e, he⟩ := importCases_of_break hall (List.mem_singleton_self _)
    ⟨"Port\u2028Scan", List.mem_cons_self, '\u2028', by decide +kernel, by decide⟩ []
  rw [he] at hresult
  cases hresult

end Minsight.Regression

import Minsight.Assets.Pipeline
import Minsight.Concurrency.Promotion
import Minsight.Foundation.KeyOrder
import Minsight.Triage.PatternLaws

/-! # What whitelist suggestions mean

A suggestion becomes a candidate, the candidate a rule, and the rule is read by the matcher. What
the matcher compares has to be in the pattern: the type that a suggestion or a rule carries
beside its pattern is not looked at.
-/

namespace Minsight

open Tx Session

structure TypedSuggestion (wl : Json) (kind value : String) : Prop where
  known : kind ∈ ["ip", "user", "host", "hash"]
  ruleType : wl.get? "rule_type" = some (.str kind)
  pattern : wl.get? "match_pattern" = some (.obj [("value", .str value)])
  nonempty : value ≠ ""

/-- A field and the value it is compared with, beside whatever else was added. -/
structure FlatSuggestion (wl : Json) (field : String) (value : Json) : Prop where
  nested : wl.get? "match_pattern" = none
  named : wl.get? "field" = some (.str field)
  expected : wl.get? "value" = some value
  all : wl.get? "all" = none
  any : wl.get? "any" = none
  op : (wl.get? "op").getD (.str "eq") = .str "eq"

/-- The fields a suggestion is about and the value that one of them is to have. -/
inductive PlainSuggestion (wl : Json) : List String → Json → Prop
  | typed {kind value : String} (h : TypedSuggestion wl kind value) :
      PlainSuggestion wl (shorthandFields kind) (.str value)
  | flat {field : String} {value : Json} (h : FlatSuggestion wl field value) :
      PlainSuggestion wl [field] value

/-- One of the fields of the alert has the value, as a text. -/
def HasValue (rt : Runtime) (alert : Alert) (fields : List String) (value : Json) : Prop :=
  ∃ field ∈ fields, ∃ found, alertFieldValue alert field = some found ∧ rt.str found = rt.str value

section

variable {rt : Runtime} {config : DefenseAssetConfig} {env : SettleEnv} {t : SettleTarget}
  {w w' : World} {wl p value : Json} {field kind : String} {fields : List String} {alert : Alert}

theorem whitelistPattern_some {wl' : Json} {phash : String}
    (h : whitelistPattern rt config t.conclusion = some (wl, p, phash))
    (hwl : suggestion t.conclusion "whitelist_candidate" = some wl') :
    wl = wl' ∧ extractMatchPattern wl = some p ∧ phash = patternHash rt p := by
  unfold whitelistPattern at h
  split at h
  · cases h
  · rw [hwl] at h
    obtain ⟨p', hp, h⟩ : ∃ p', extractMatchPattern wl' = some p' ∧
        some (wl', p', patternHash rt p') = some (wl, p, phash) := Option.bind_eq_some_iff.mp h
    obtain ⟨rfl, rfl, rfl⟩ : wl' = wl ∧ p' = p ∧ patternHash rt p' = phash := by
      simpa using h
    exact ⟨rfl, hp, rfl⟩

theorem addWhitelistCandidate_ok
    (h : exec (addWhitelistCandidate rt config env t) w = (.ok (), w')) :
    w'.db.whitelistCandidates = w.db.whitelistCandidates ∨
      ∃ wl p phash, whitelistPattern rt config t.conclusion = some (wl, p, phash) ∧
        w'.db.whitelistCandidates =
          w.db.whitelistCandidates ++ [whitelistCandidateOf t.investigationId wl p phash] := by
  unfold addWhitelistCandidate at h
  split at h
  · obtain ⟨-, rfl⟩ := Prod.mk.inj h
    exact .inl rfl
  · rename_i wl p phash hpattern
    obtain ⟨_, w₁, hstep, h⟩ := exec_bind_ok.mp h
    obtain rfl : w = w₁ := by
      cases hfailed : w.failed with
      | true => simp [settleStep, hfailed] at hstep
      | false =>
        cases hfault : env.faults .whitelist with
        | none => simpa [settleStep, hfailed, hfault] using hstep
        | some f => cases f <;> simp [settleStep, hfailed, hfault] at hstep
    rw [exec_query_bind] at h
    split at h
    · obtain ⟨-, rfl⟩ := Prod.mk.inj h
      exact .inr ⟨wl, p, phash, hpattern, rfl⟩
    · obtain ⟨-, rfl⟩ := Prod.mk.inj h
      exact .inl rfl
    · cases (Prod.mk.inj h).1

theorem candidate_of_settled {c : WhitelistCandidate}
    (hwl : suggestion t.conclusion "whitelist_candidate" = some wl)
    (hcreate : exec (addWhitelistCandidate rt config env t) w = (.ok (), w'))
    (hnew : w'.db.whitelistCandidates = w.db.whitelistCandidates ++ [c]) :
    ∃ p, extractMatchPattern wl = some p ∧
      c = whitelistCandidateOf t.investigationId wl p (patternHash rt p) := by
  rcases addWhitelistCandidate_ok hcreate with hsame | ⟨wl', p, phash, hpattern, hadded⟩
  · rw [hsame] at hnew
    simp at hnew
  · obtain ⟨rfl, hp, rfl⟩ := whitelistPattern_some hpattern hwl
    have hc := List.append_cancel_left (hnew.symm.trans hadded)
    exact ⟨p, hp, List.singleton_inj.mp hc⟩

/-- The rule that is promoted from the candidate matches by the pattern of the suggestion. -/
theorem matchPattern_of_promoted {now : Time} {i inv : ℕ} {n : ℤ} {phash : String}
    {rule : WhitelistRule} (htruthy : p.truthy = true)
    (h : promotedRule rt config now i
      { whitelistCandidateOf inv wl p phash with humanConfirmations := n } = .ok rule) :
    rule.matchPattern = p := by
  have hget : (whitelistCandidateOf inv wl p phash).suggestedPattern.get? "match_pattern" =
      some p := rfl
  unfold promotedRule at h
  dsimp only at h
  rw [if_neg (by simp [whitelistCandidateOf, Json.isObj])] at h
  rw [← Except.ok.inj h]
  simp only [hget, Option.filter_some, htruthy, if_true, Option.getD_some]

theorem matchPattern_value (value : Json) :
    matchPattern rt alert (.obj [("value", value)]) = .ok false := by
  have hread : matchPattern rt alert (.obj [("value", value)]) =
      if !value.truthy then .ok false else .ok false := rfl
  rw [hread, ite_self]

theorem matchPattern_flat (h : FlatSuggestion wl field value) (hfield : field ≠ "")
    (hstr : ∀ s, rt.str (.str s) = s) :
    matchPattern rt alert wl = .ok true ↔ HasValue rt alert [field] value := by
  have htruthy : (Json.str field).truthy = true := by simpa [Json.truthy] using hfield
  obtain ⟨fields, rfl⟩ : ∃ fields, wl = .obj fields := by
    cases wl with
    | obj fields => exact ⟨fields, rfl⟩
    | _ => cases h.named
  simp only [matchPattern, h.all, h.any, h.named, Option.getD_some, htruthy, if_true, matchSingle,
    Bool.not_true, Bool.false_eq_true, if_false, hstr, h.op, h.expected]
  cases hfound : alertFieldValue alert field with
  | none => simp [HasValue, hfound]
  | some found => simp [HasValue, hfound]

/-- Without the name of a field only the columns of the typed shorthand are compared. -/
theorem matchPattern_unnamed (h : FlatSuggestion wl "" value) (hips : alert.srcIp = none)
    (hdst : alert.dstIp = none) (huser : alert.userName = none) (hhost : alert.hostName = none)
    (hhash : alert.fileHash = none) : matchPattern rt alert wl = .ok false := by
  have htruthy : (Json.str "").truthy = false := rfl
  simp only [matchPattern, h.all, h.any, h.named, Option.getD_some, htruthy, Bool.false_eq_true,
    if_false, hips, hdst, huser, hhost, hhash]
  split
  · rfl
  · split <;> rfl

/-- An alert with one text in every column that a typed suggestion names. -/
def alertWith (text : String) : Alert where
  dataSourceId := 0
  sourceAlertId := "a-1"
  fingerprint := "f-1"
  occurredAt := 0
  ingestedAt := 0
  srcIp := some text
  dstIp := some text
  userName := some text
  hostName := some text
  fileHash := some text

def alertNormalized (field text : String) : Alert where
  dataSourceId := 0
  sourceAlertId := "a-1"
  fingerprint := "f-1"
  occurredAt := 0
  ingestedAt := 0
  normalizedFields := .obj [(field, .str text)]

theorem hasValue_alertWith {text : String}
    (h : kind ∈ ["ip", "user", "host", "hash"]) :
    HasValue rt (alertWith text) (shorthandFields kind) (.str text) := by
  simp only [List.mem_cons, List.not_mem_nil, or_false] at h
  rcases h with rfl | rfl | rfl | rfl
  · exact ⟨"src_ip", List.mem_cons_self, .str text, rfl, rfl⟩
  · exact ⟨"user_name", List.mem_cons_self, .str text, rfl, rfl⟩
  · exact ⟨"host_name", List.mem_cons_self, .str text, rfl, rfl⟩
  · exact ⟨"file_hash", List.mem_cons_self, .str text, rfl, rfl⟩

/--
The rule that comes of a plain suggestion matches what the suggestion says exactly when the
suggestion is a flat one that names its field; a type beside the pattern is lost.
-/
theorem promoted_rule_says_iff {c : WhitelistCandidate} {now : Time} {i : ℕ} {n : ℤ}
    {rule : WhitelistRule} (hstr : ∀ s, rt.str (.str s) = s)
    (hwl : suggestion t.conclusion "whitelist_candidate" = some wl)
    (hplain : PlainSuggestion wl fields value)
    (hcreate : exec (addWhitelistCandidate rt config env t) w = (.ok (), w'))
    (hnew : w'.db.whitelistCandidates = w.db.whitelistCandidates ++ [c])
    (hpromote : promotedRule rt config now i { c with humanConfirmations := n } = .ok rule) :
    (∀ alert, matchPattern rt alert rule.matchPattern = .ok true ↔
        HasValue rt alert fields value) ↔
      wl.get? "match_pattern" = none ∧ wl.get? "field" ≠ some (.str "") := by
  obtain ⟨p, hp, rfl⟩ := candidate_of_settled hwl hcreate hnew
  cases hplain with
  | @typed kind text h =>
    obtain rfl : Json.obj [("value", .str text)] = p := by
      simpa [extractMatchPattern, h.pattern, Json.asObj?] using hp
    rw [matchPattern_of_promoted rfl hpromote]
    constructor
    · intro hmeant
      have hmatch := (hmeant (alertWith text)).mpr (hasValue_alertWith h.known)
      rw [matchPattern_value] at hmatch
      cases hmatch
    · rintro ⟨hnested, -⟩
      cases h.pattern.symm.trans hnested
  | @flat field value h =>
    obtain rfl : wl = p := by
      simpa [extractMatchPattern, h.nested, h.named, h.expected] using hp
    have htruthy : wl.truthy = true := by
      cases wl with
      | obj fields =>
        cases fields with
        | nil => cases h.named
        | cons f fields => rfl
      | _ => cases h.named
    rw [matchPattern_of_promoted htruthy hpromote]
    constructor
    · intro hmeant
      refine ⟨h.nested, fun hempty => ?_⟩
      obtain rfl : field = "" := by
        rw [h.named] at hempty
        simpa using hempty
      have hvalue : HasValue rt (alertNormalized "" (rt.str value)) [""] value :=
        ⟨"", List.mem_cons_self, .str (rt.str value), rfl, hstr _⟩
      have hmatch := (hmeant _).mpr hvalue
      rw [matchPattern_unnamed h rfl rfl rfl rfl rfl] at hmatch
      cases hmatch
    · rintro ⟨-, hnamed⟩ alert
      apply matchPattern_flat h _ hstr
      rintro rfl
      exact hnamed h.named

end

def textRuntime (text digest : String) : Runtime :=
  { sampleRuntime .free [(text, digest)] with dumps := fun _ => text }

def flatRuntime : Runtime :=
  textRuntime "\x7b\"field\": \"src_ip\", \"value\": \"203.0.113.7\"\x7d"
    "984d02141866b1462725ac883db3220268450172dfcda2ffbda51851e6252587"

def typedRuntime : Runtime :=
  textRuntime "\x7b\"value\": \"203.0.113.7\"\x7d"
    "f6b84d6eb4df69f43dad7fd9dd9d04eade230c89f31509f0e8963770108c9eb8"

/-- A false positive that is concluded with a whitelist suggestion. -/
def suggestionTarget (wl : List (String × Json)) : SettleTarget where
  eventId := 0
  event := { eventKey := "e", createdAt := 0 }
  investigationId := 0
  conclusion := {
    investigationId := 0
    verdict := .likelyFalsePositive
    confidence := 1
    riskLevel := .low
    reasoning := "scanner"
    suggestedAssets := .obj [("whitelist_candidate", .obj wl)] }

/-- A flat suggestion, settled and promoted. -/
def FlatPromoted (w : World) (c : WhitelistCandidate) (rule : WhitelistRule) : Prop :=
  exec (addWhitelistCandidate flatRuntime {} {} (suggestionTarget
    [("field", .str "src_ip"), ("value", .str "203.0.113.7")])) {} = (.ok (), w) ∧
  w.db.whitelistCandidates = [c] ∧
  promotedRule flatRuntime {} 0 0 { c with humanConfirmations := 3 } = .ok rule

theorem promoted_rule_says_flat :
    ∃ w c rule, FlatPromoted w c rule ∧
      ∀ alert, matchPattern flatRuntime alert rule.matchPattern = .ok true ↔
        HasValue flatRuntime alert ["src_ip"] (.str "203.0.113.7") := by
  obtain ⟨w, c, rule, h⟩ : ∃ w c rule, FlatPromoted w c rule := ⟨_, _, _, rfl, rfl, rfl⟩
  have hflat : FlatSuggestion
      (.obj [("field", .str "src_ip"), ("value", .str "203.0.113.7")]) "src_ip"
      (.str "203.0.113.7") := ⟨rfl, rfl, rfl, rfl, rfl, rfl⟩
  refine ⟨w, c, rule, h, ?_⟩
  apply (promoted_rule_says_iff (fun _ => rfl) rfl (.flat hflat) h.1 h.2.1 h.2.2).mpr
  constructor
  · exact hflat.nested
  · rw [hflat.named]
    simp

theorem typed_suggestions_match_nothing :
    ∃ w c rule,
      exec (addWhitelistCandidate typedRuntime {} {} (suggestionTarget
        [("rule_type", .str "ip"), ("match_pattern", .obj [("value", .str "203.0.113.7")])])) {} =
          (.ok (), w) ∧
      w.db.whitelistCandidates = [c] ∧
      promotedRule typedRuntime {} 0 0 { c with humanConfirmations := 3 } = .ok rule ∧
      matchPattern typedRuntime (alertWith "203.0.113.7") rule.matchPattern = .ok false ∧
      HasValue typedRuntime (alertWith "203.0.113.7") ["src_ip", "dst_ip"] (.str "203.0.113.7") :=
  ⟨_, _, _, rfl, rfl, rfl, rfl, "src_ip", List.mem_cons_self, _, rfl, rfl⟩

end Minsight

import Minsight.Triage.Handlers

/-! # What whitelist patterns match

A pattern that matches has a condition that the alert satisfies, unless it lists no
condition under `all`. A rule whose pattern is malformed can stop the whitelist, and the
rules in force decide when it does.
-/

namespace Minsight

open Tx Session

/-- The values `in` looks among. -/
def expectedItems : Json → List Json
  | .arr items => items
  | other => [other]

def OperatorHolds (rt : Runtime) (actual : String) (expected : Json) : String → Prop
  | "eq" => actual = rt.str expected
  | "in" => ∃ item ∈ expectedItems expected, rt.str item = actual
  | "prefix" => (rt.str expected).toList <+: actual.toList
  | "regex" => rt.reMatch (rt.str expected) actual = some true
  | "in_cidr" => rt.inCidr actual (rt.str expected) = some true
  | _ => False

def shorthandFields : String → List String
  | "ip" => ["src_ip", "dst_ip"]
  | "user" => ["user_name"]
  | "host" => ["host_name"]
  | "hash" => ["file_hash"]
  | _ => []

/-- A field of the alert has a value, and the condition holds of it. -/
inductive Satisfied (rt : Runtime) (alert : Alert) : Json → Prop
  | field {c field value : Json} {op : String} (named : c.get? "field" = some field)
      (found : alertFieldValue alert (rt.str field) = some value) (nonNull : value ≠ .null)
      (operator : (c.get? "op").getD (.str "eq") = .str op)
      (holds : OperatorHolds rt (rt.str value) ((c.get? "value").getD .null) op) :
      Satisfied rt alert c
  | typed {c value : Json} {kind field : String} (ruleType : c.get? "rule_type" = some (.str kind))
      (expected : c.get? "value" = some value) (named : field ∈ shorthandFields kind)
      (found : alertFieldValue alert field = some (.str (rt.str value))) : Satisfied rt alert c

def listed : Json → List Json
  | .arr items => items
  | _ => []

/--
The conditions of a pattern. A pattern with `all` has those listed there, else one with
`any` those listed there, and any other pattern is one condition.
-/
def patternConditions (pattern : Json) : List Json :=
  match pattern.get? "all", pattern.get? "any" with
  | some v, _ => listed v
  | none, some v => listed v
  | none, none => [pattern]

section

variable {rt : Runtime} {alert : Alert} {c v : Json} {cs : List Json}

theorem alertFieldValue_ne_null {field : String} {value : Json}
    (h : alertFieldValue alert field = some value) : value ≠ .null := by
  unfold alertFieldValue at h
  rintro rfl
  split at h
  · simp at h
  · split at h
    · cases h
    · rename_i hnull
      exact hnull h

theorem satisfied_of_matchSingle (h : matchSingle rt alert c = .ok true) :
    Satisfied rt alert c := by
  unfold matchSingle at h
  split at h
  · rename_i fields
    dsimp only at h
    cases hnamed : (Json.obj fields).get? "field" with
    | none => simp [hnamed, Json.truthy] at h
    | some field =>
      rw [hnamed, Option.getD_some] at h
      split at h
      · cases h
      · split at h
        · cases h
        · rename_i value hvalue
          have satisfied := fun op : String => @Satisfied.field rt alert (.obj fields) field value
            op hnamed hvalue (alertFieldValue_ne_null hvalue)
          generalize ((Json.obj fields).get? "value").getD .null = expected at h satisfied
          split at h
          · rename_i hop
            exact satisfied _ hop (by simpa [OperatorHolds] using h)
          · rename_i hop
            refine satisfied _ hop ?_
            have hmem : rt.str value ∈ (expectedItems expected).map rt.str := by
              rw [← List.contains_iff_mem]
              cases expected <;> simpa [expectedItems] using h
            exact List.mem_map.mp hmem
          · rename_i hop
            exact satisfied _ hop (by simpa [OperatorHolds] using h)
          · rename_i hop
            refine satisfied _ hop ?_
            split at h
            · rename_i b hb
              obtain rfl : b = true := by simpa using h
              exact hb
            · cases h
          · rename_i hop
            refine satisfied _ hop ?_
            cases hc : rt.inCidr (rt.str value) (rt.str expected) with
            | none => simp [hc] at h
            | some b =>
              obtain rfl : b = true := by simpa [hc] using h
              exact hc
          · cases h
  · cases h

theorem satisfied_of_matchAny (h : matchAny rt alert cs = .ok true) :
    ∃ c ∈ cs, Satisfied rt alert c := by
  induction cs with
  | nil => cases h
  | cons c cs ih =>
    unfold matchAny at h
    split at h
    · obtain ⟨c', hc', hs⟩ := ih h
      exact ⟨c', List.mem_cons_of_mem _ hc', hs⟩
    · exact ⟨c, List.mem_cons_self, satisfied_of_matchSingle h⟩

theorem satisfied_of_matchAll (hne : cs ≠ []) (h : matchAll rt alert cs = .ok true) :
    ∃ c ∈ cs, Satisfied rt alert c := by
  cases cs with
  | nil => exact absurd rfl hne
  | cons c cs =>
    unfold matchAll at h
    split at h
    · exact ⟨c, List.mem_cons_self, satisfied_of_matchSingle ‹_›⟩
    · exact ⟨c, List.mem_cons_self, satisfied_of_matchSingle h⟩

theorem conditionsOf_nil (h : v.truthy = false) : conditionsOf v = .ok [] := by
  simp [conditionsOf, h]

/-- The elements of a value that is not empty are the conditions of a list, or are no objects. -/
theorem conditionsOf_ok (hv : v.truthy = true) (h : conditionsOf v = .ok cs) :
    cs ≠ [] ∧ (cs = listed v ∨ ∀ c ∈ cs, ∃ s, c = .str s) := by
  unfold conditionsOf at h
  rw [hv] at h
  cases v with
  | arr items =>
    obtain rfl : items = cs := by simpa using h
    exact ⟨by simpa [Json.truthy] using hv, .inl rfl⟩
  | obj fields =>
    obtain rfl : fields.map (fun f => Json.str f.1) = cs := by simpa using h
    refine ⟨by simpa [Json.truthy] using hv, .inr fun c hc => ?_⟩
    obtain ⟨f, -, rfl⟩ := List.mem_map.mp hc
    exact ⟨_, rfl⟩
  | str s =>
    obtain rfl : s.toList.map (fun ch => Json.str (String.singleton ch)) = cs := by simpa using h
    refine ⟨by simpa [Json.truthy] using hv, .inr fun c hc => ?_⟩
    obtain ⟨ch, -, rfl⟩ := List.mem_map.mp hc
    exact ⟨_, rfl⟩
  | null => simp [Json.truthy] at hv
  | bool b => simp at h
  | int n => simp at h
  | float q => simp at h

theorem not_satisfied_str {s : String} : ¬ Satisfied rt alert (.str s) := by
  rintro (⟨named⟩ | ⟨ruleType⟩)
  · cases named
  · cases ruleType

theorem listed_of_satisfied (hv : v.truthy = true) (h : conditionsOf v = .ok cs)
    (hs : ∃ c ∈ cs, Satisfied rt alert c) : ∃ c ∈ listed v, Satisfied rt alert c := by
  obtain ⟨c, hc, hsat⟩ := hs
  rcases (conditionsOf_ok hv h).2 with rfl | hstr
  · exact ⟨c, hc, hsat⟩
  · obtain ⟨s, rfl⟩ := hstr c hc
    exact absurd hsat not_satisfied_str

theorem satisfied_of_shorthand {pattern value : Json} (hvalue : pattern.get? "value" = some value)
    (h : (match pattern.get? "rule_type" with
      | some (.str "ip") =>
        pure (alert.srcIp == some (rt.str value) || alert.dstIp == some (rt.str value))
      | some (.str "user") => pure (alert.userName == some (rt.str value))
      | some (.str "host") => pure (alert.hostName == some (rt.str value))
      | some (.str "hash") => pure (alert.fileHash == some (rt.str value))
      | _ => pure false : Except Exn Bool) = .ok true) : Satisfied rt alert pattern := by
  have column {o : Option String} {t : String} (ho : o = some t) :
      o.map Json.str = some (.str t) := by rw [ho, Option.map_some]
  split at h
  · rename_i htype
    have hip : alert.srcIp = some (rt.str value) ∨ alert.dstIp = some (rt.str value) := by
      simpa [pure, Except.pure] using h
    rcases hip with hsrc | hdst
    · exact .typed htype hvalue (show "src_ip" ∈ shorthandFields _ by decide) (column hsrc)
    · exact .typed htype hvalue (show "dst_ip" ∈ shorthandFields _ by decide) (column hdst)
  · rename_i htype
    have huser : alert.userName = some (rt.str value) := by simpa [pure, Except.pure] using h
    exact .typed htype hvalue (show "user_name" ∈ shorthandFields _ by decide) (column huser)
  · rename_i htype
    have hhost : alert.hostName = some (rt.str value) := by simpa [pure, Except.pure] using h
    exact .typed htype hvalue (show "host_name" ∈ shorthandFields _ by decide) (column hhost)
  · rename_i htype
    have hhash : alert.fileHash = some (rt.str value) := by simpa [pure, Except.pure] using h
    exact .typed htype hvalue (show "file_hash" ∈ shorthandFields _ by decide) (column hhash)
  · cases h

theorem satisfied_of_flat {pattern : Json}
    (h : matchPattern rt alert pattern = .ok true) (hall : pattern.get? "all" = none)
    (hany : pattern.get? "any" = none) : Satisfied rt alert pattern := by
  unfold matchPattern at h
  rw [hall, hany] at h
  dsimp only at h
  split at h
  · exact satisfied_of_matchSingle h
  · split at h
    · cases h
    · rename_i hvalue
      cases hv : pattern.get? "value" with
      | none => simp [hv, Json.truthy] at hvalue
      | some value =>
        rw [hv, Option.getD_some] at h
        exact satisfied_of_shorthand hv h

/-- A pattern lists no condition under `all`. -/
def VacuousAll (pattern : Json) : Prop := ∃ v, pattern.get? "all" = some v ∧ v.truthy = false

end

/--
A pattern that matches has a condition that a field of the alert satisfies, for every
pattern but those that list no condition under `all`.
-/
theorem match_satisfies_condition_iff (rt : Runtime) (alert : Alert) (pattern : Json) :
    (matchPattern rt alert pattern = .ok true →
      ∃ c ∈ patternConditions pattern, Satisfied rt alert c) ↔ ¬ VacuousAll pattern := by
  constructor
  · rintro h ⟨v, hall, hv⟩
    have hmatch : matchPattern rt alert pattern = .ok true := by
      simp [matchPattern, hall, conditionsOf_nil hv, bind, Except.bind, matchAll]
    obtain ⟨c, hc, -⟩ := h hmatch
    cases v with
    | arr items => simp_all [patternConditions, listed, Json.truthy]
    | _ => simp [patternConditions, hall, listed] at hc
  · intro hvac h
    cases hall : pattern.get? "all" with
    | some v =>
      have hv : v.truthy = true := by
        cases hv : v.truthy with
        | true => rfl
        | false => exact absurd ⟨v, hall, hv⟩ hvac
      simp only [matchPattern, hall] at h
      cases hcs : conditionsOf v with
      | error e => simp [hcs, bind, Except.bind] at h
      | ok cs =>
        rw [hcs] at h
        have hs := satisfied_of_matchAll (conditionsOf_ok hv hcs).1 h
        simpa [patternConditions, hall] using listed_of_satisfied hv hcs hs
    | none =>
      cases hany : pattern.get? "any" with
      | some v =>
        simp only [matchPattern, hall, hany] at h
        cases hcs : conditionsOf v with
        | error e => simp [hcs, bind, Except.bind] at h
        | ok cs =>
          rw [hcs] at h
          have hs := satisfied_of_matchAny h
          cases hv : v.truthy with
          | false =>
            rw [conditionsOf_nil hv] at hcs
            cases hcs
            obtain ⟨c, hc, -⟩ := hs
            cases hc
          | true => simpa [patternConditions, hall, hany] using listed_of_satisfied hv hcs hs
      | none =>
        refine ⟨pattern, ?_, satisfied_of_flat h hall hany⟩
        simp [patternConditions, hall, hany]

/-- An empty list under `all` matches an alert although it lists no condition. -/
theorem empty_all_matches :
    ¬ (matchPattern (sampleRuntime .free [])
        { dataSourceId := 0, sourceAlertId := "a-1", fingerprint := "a-1", occurredAt := 0
          ingestedAt := 0 } (.obj [("all", .arr [])]) = .ok true →
      ∃ c ∈ patternConditions (.obj [("all", .arr [])]), Satisfied (sampleRuntime .free [])
        { dataSourceId := 0, sourceAlertId := "a-1", fingerprint := "a-1", occurredAt := 0
          ingestedAt := 0 } c) := by
  intro h
  obtain ⟨c, hc, -⟩ := h rfl
  cases hc

structure WellFormedCondition (rt : Runtime) (c : Json) : Prop where
  object : ∃ fields, c = .obj fields
  compiles : c.get? "op" = some (.str "regex") →
    ∀ text, rt.reMatch (rt.str ((c.get? "value").getD .null)) text ≠ none

def WellFormedList (rt : Runtime) (v : Json) : Prop :=
  v = .null ∨ ∃ items, v = .arr items ∧ ∀ c ∈ items, WellFormedCondition rt c

def WellFormedPattern (rt : Runtime) (pattern : Json) : Prop :=
  match pattern.get? "all", pattern.get? "any" with
  | some v, _ => WellFormedList rt v
  | none, some v => WellFormedList rt v
  | none, none =>
    ((pattern.get? "field").getD .null).truthy = true → WellFormedCondition rt pattern

section

variable {rt : Runtime} {alert : Alert} {c v : Json} {cs : List Json}

theorem matchSingle_of_wellFormed (alert : Alert) (h : WellFormedCondition rt c) :
    ∃ b, matchSingle rt alert c = .ok b := by
  obtain ⟨fields, rfl⟩ := h.object
  unfold matchSingle
  dsimp only
  split
  · exact ⟨_, rfl⟩
  · split
    · exact ⟨_, rfl⟩
    · split
      · exact ⟨_, rfl⟩
      · exact ⟨_, rfl⟩
      · exact ⟨_, rfl⟩
      · rename_i hop
        have hregex : (Json.obj fields).get? "op" = some (.str "regex") := by
          cases ho : (Json.obj fields).get? "op" with
          | none => simp [ho] at hop
          | some op => rw [← hop, ho, Option.getD_some]
        split
        · exact ⟨_, rfl⟩
        · exact absurd ‹_› (h.compiles hregex _)
      · exact ⟨_, rfl⟩
      · exact ⟨_, rfl⟩

theorem matchAll_of_wellFormed (alert : Alert) (h : ∀ c ∈ cs, WellFormedCondition rt c) :
    ∃ b, matchAll rt alert cs = .ok b := by
  induction cs with
  | nil => exact ⟨true, rfl⟩
  | cons c cs ih =>
    obtain ⟨b, hb⟩ := matchSingle_of_wellFormed alert (h c List.mem_cons_self)
    cases b with
    | false => exact ⟨false, by simp [matchAll, hb]⟩
    | true =>
      obtain ⟨b', hb'⟩ := ih fun c hc => h c (List.mem_cons_of_mem _ hc)
      exact ⟨b', by simp [matchAll, hb, hb']⟩

theorem matchAny_of_wellFormed (alert : Alert) (h : ∀ c ∈ cs, WellFormedCondition rt c) :
    ∃ b, matchAny rt alert cs = .ok b := by
  induction cs with
  | nil => exact ⟨false, rfl⟩
  | cons c cs ih =>
    obtain ⟨b, hb⟩ := matchSingle_of_wellFormed alert (h c List.mem_cons_self)
    cases b with
    | true => exact ⟨true, by simp [matchAny, hb]⟩
    | false =>
      obtain ⟨b', hb'⟩ := ih fun c hc => h c (List.mem_cons_of_mem _ hc)
      exact ⟨b', by simp [matchAny, hb, hb']⟩

theorem conditionsOf_of_wellFormed (h : WellFormedList rt v) :
    ∃ cs, conditionsOf v = .ok cs ∧ ∀ c ∈ cs, WellFormedCondition rt c := by
  rcases h with rfl | ⟨items, rfl, hitems⟩
  · exact ⟨[], rfl, by simp⟩
  · cases items with
    | nil => exact ⟨[], rfl, by simp⟩
    | cons c cs => exact ⟨c :: cs, rfl, hitems⟩

theorem matchPattern_of_wellFormed (alert : Alert) {pattern : Json} (h : WellFormedPattern rt pattern) :
    ∃ b, matchPattern rt alert pattern = .ok b := by
  unfold WellFormedPattern at h
  unfold matchPattern
  cases hall : pattern.get? "all" with
  | some v =>
    rw [hall] at h
    obtain ⟨cs, hcs, hwf⟩ := conditionsOf_of_wellFormed h
    obtain ⟨b, hb⟩ := matchAll_of_wellFormed alert hwf
    exact ⟨b, by simp [hcs, bind, Except.bind, hb]⟩
  | none =>
    cases hany : pattern.get? "any" with
    | some v =>
      rw [hall, hany] at h
      obtain ⟨cs, hcs, hwf⟩ := conditionsOf_of_wellFormed h
      obtain ⟨b, hb⟩ := matchAny_of_wellFormed alert hwf
      exact ⟨b, by simp [hcs, bind, Except.bind, hb]⟩
    | none =>
      rw [hall, hany] at h
      dsimp only at h ⊢
      split
      · exact matchSingle_of_wellFormed alert (h ‹_›)
      · split
        · exact ⟨_, rfl⟩
        · split <;> exact ⟨_, rfl⟩

end

def WhitelistRule.isEffective (now : Time) (r : WhitelistRule) : Bool :=
  decide (r.effectiveFrom ≤ now) && decide (now ≤ r.effectiveUntil)

def rulesInForce (db : Db) (now : Time) : List (ℕ × WhitelistRule) :=
  db.whitelistRules.select fun _ r => r.status == .active && r.isEffective now

open Classical in
/-- The rule with its pattern, when it is malformed, replaced by one that matches nothing. -/
noncomputable def WhitelistRule.disarmed (rt : Runtime) (r : WhitelistRule) : WhitelistRule :=
  if WellFormedPattern rt r.matchPattern then r else { r with matchPattern := .obj [] }

noncomputable def Db.disarmed (rt : Runtime) (db : Db) : Db :=
  { db with whitelistRules := db.whitelistRules.map (.disarmed rt) }

def RuleApplies (rt : Runtime) (alert : Alert) (r : WhitelistRule) : Prop :=
  WellFormedPattern rt r.matchPattern ∧ matchPattern rt alert r.matchPattern = .ok true

/-- Every malformed rule does not match, or a rule before it applies. -/
def MalformedHidden (rt : Runtime) (alert : Alert) (rules : List (ℕ × WhitelistRule)) : Prop :=
  ∀ (i : ℕ) (rule : ℕ × WhitelistRule), rules[i]? = some rule →
    ¬ WellFormedPattern rt rule.2.matchPattern →
    matchPattern rt alert rule.2.matchPattern = .ok false ∨
      ∃ j < i, ∃ rule', rules[j]? = some rule' ∧ RuleApplies rt alert rule'.2

section

variable {rt : Runtime} {alert : Alert} {now : Time} {rule : ℕ × WhitelistRule}
  {rules : List (ℕ × WhitelistRule)}

theorem matchPattern_disarmed (h : ¬ WellFormedPattern rt rule.2.matchPattern) :
    matchPattern rt alert (rule.2.disarmed rt).matchPattern = .ok false := by
  rw [WhitelistRule.disarmed, if_neg h]
  rfl

theorem disarmed_of_wellFormed (h : WellFormedPattern rt rule.2.matchPattern) :
    rule.2.disarmed rt = rule.2 := if_pos h

theorem disarmed_status (r : WhitelistRule) : (r.disarmed rt).status = r.status := by
  unfold WhitelistRule.disarmed
  split <;> rfl

theorem disarmed_isEffective (r : WhitelistRule) :
    (r.disarmed rt).isEffective now = r.isEffective now := by
  unfold WhitelistRule.disarmed
  split <;> rfl

theorem rulesInForce_disarmed (db : Db) :
    rulesInForce (db.disarmed rt) now = (rulesInForce db now).map (Prod.map id (.disarmed rt)) := by
  unfold rulesInForce Db.disarmed
  rw [Rows.select_map]
  simp only [disarmed_status, disarmed_isEffective]

theorem firstMatch_cons_effective (h : rule.2.isEffective now = true) :
    firstMatch rt alert now (rule :: rules) =
      match matchPattern rt alert rule.2.matchPattern with
      | .ok true => .ok (some rule.1)
      | .ok false => firstMatch rt alert now rules
      | .error e => .error e := by
  simp only [WhitelistRule.isEffective, Bool.and_eq_true, decide_eq_true_eq] at h
  rw [firstMatch]
  exact if_neg (not_or.mpr ⟨not_lt.mpr h.1, not_lt.mpr h.2⟩)

theorem firstMatch_cons_ineffective (h : rule.2.isEffective now = false) :
    firstMatch rt alert now (rule :: rules) = firstMatch rt alert now rules := by
  simp only [WhitelistRule.isEffective, Bool.and_eq_false_iff, decide_eq_false_iff_not] at h
  rw [firstMatch, if_pos (h.imp not_le.mp not_le.mp)]

theorem firstMatch_filter (rules : List (ℕ × WhitelistRule)) :
    firstMatch rt alert now (rules.filter fun rule => rule.2.isEffective now) =
      firstMatch rt alert now rules := by
  induction rules with
  | nil => rfl
  | cons rule rules ih =>
    cases h : rule.2.isEffective now with
    | true =>
      rw [List.filter_cons, if_pos h, firstMatch_cons_effective h, firstMatch_cons_effective h, ih]
    | false =>
      rw [List.filter_cons, if_neg (by simp [h]), firstMatch_cons_ineffective h, ih]

theorem malformedHidden_cons_of_applies (h : RuleApplies rt alert rule.2) :
    MalformedHidden rt alert (rule :: rules) := by
  intro i rule' hi hwf
  cases i with
  | zero =>
    obtain rfl : rule = rule' := by simpa using hi
    exact absurd h.1 hwf
  | succ i => exact .inr ⟨0, i.succ_pos, rule, rfl, h⟩

theorem malformedHidden_cons (h : matchPattern rt alert rule.2.matchPattern = .ok false) :
    MalformedHidden rt alert (rule :: rules) ↔ MalformedHidden rt alert rules := by
  constructor
  · intro hr i rule' hi hwf
    rcases hr (i + 1) rule' hi hwf with hf | ⟨j, hj, rule'', hj', happ⟩
    · exact .inl hf
    · cases j with
      | zero =>
        obtain rfl : rule = rule'' := by simpa using hj'
        have := h.symm.trans happ.2
        simp at this
      | succ j => exact .inr ⟨j, Nat.lt_of_succ_lt_succ hj, rule'', hj', happ⟩
  · intro hr i rule' hi hwf
    cases i with
    | zero =>
      obtain rfl : rule = rule' := by simpa using hi
      exact .inl h
    | succ i =>
      rcases hr i rule' hi hwf with hf | ⟨j, hj, rule'', hj', happ⟩
      · exact .inl hf
      · exact .inr ⟨j + 1, Nat.succ_lt_succ hj, rule'', hj', happ⟩

/-- With the malformed rules disarmed, the rules find the first one that applies. -/
theorem firstMatch_disarmed (rt : Runtime) (alert : Alert)
    (hr : ∀ rule ∈ rules, rule.2.isEffective now = true) :
    ∃ o, firstMatch rt alert now (rules.map (Prod.map id (.disarmed rt))) = .ok o ∧
      (∀ rid, o = some rid → rid ∈ rules.map Prod.fst) ∧
      (o.isSome ↔ ∃ rule ∈ rules, RuleApplies rt alert rule.2) := by
  induction rules with
  | nil => exact ⟨none, rfl, nofun, by simp⟩
  | cons rule rules ih =>
    obtain ⟨o, ho, hmem, hsome⟩ := ih fun r h => hr r (List.mem_cons_of_mem _ h)
    have heff : (Prod.map id (WhitelistRule.disarmed rt) rule).2.isEffective now = true :=
      (disarmed_isEffective rule.2).trans (hr rule List.mem_cons_self)
    rw [List.map_cons, firstMatch_cons_effective heff, Prod.map_snd]
    have skip (hno : ¬ RuleApplies rt alert rule.2) :
        (∀ rid, o = some rid → rid ∈ (rule :: rules).map Prod.fst) ∧
          (o.isSome ↔ ∃ r ∈ rule :: rules, RuleApplies rt alert r.2) :=
      ⟨fun rid h => List.mem_cons_of_mem _ (hmem rid h), by simp [hsome, hno]⟩
    by_cases hwf : WellFormedPattern rt rule.2.matchPattern
    · rw [disarmed_of_wellFormed hwf]
      obtain ⟨b, hb⟩ := matchPattern_of_wellFormed alert hwf
      cases b with
      | true =>
        refine ⟨some rule.1, by rw [hb]; rfl, fun rid h => ?_, ?_⟩
        · obtain rfl : rule.1 = rid := by simpa using h
          exact List.mem_cons_self
        · simp only [Option.isSome_some, true_iff]
          exact ⟨rule, List.mem_cons_self, hwf, hb⟩
      | false =>
        refine ⟨o, by rw [hb]; exact ho, skip ?_⟩
        rintro ⟨-, hm⟩
        simp [hb] at hm
    · exact ⟨o, by rw [matchPattern_disarmed hwf]; exact ho, skip fun h => hwf h.1⟩

/-- Malformed rules that are hidden change nothing, and others change what is found. -/
theorem firstMatch_eq_disarmed_iff (hr : ∀ rule ∈ rules, rule.2.isEffective now = true)
    (hkeys : (rules.map Prod.fst).Nodup) :
    firstMatch rt alert now rules =
        firstMatch rt alert now (rules.map (Prod.map id (.disarmed rt))) ↔
      MalformedHidden rt alert rules := by
  induction rules with
  | nil => simp [MalformedHidden, firstMatch]
  | cons rule rules ih =>
    have hrest : ∀ r ∈ rules, r.2.isEffective now = true := fun r h =>
      hr r (List.mem_cons_of_mem _ h)
    rw [List.map_cons, List.nodup_cons] at hkeys
    have hih := ih hrest hkeys.2
    have hhead := hr rule List.mem_cons_self
    have heff : (Prod.map id (WhitelistRule.disarmed rt) rule).2.isEffective now = true :=
      (disarmed_isEffective rule.2).trans hhead
    rw [List.map_cons, firstMatch_cons_effective hhead, firstMatch_cons_effective heff,
      Prod.map_snd, Prod.map_fst]
    by_cases hwf : WellFormedPattern rt rule.2.matchPattern
    · rw [disarmed_of_wellFormed hwf]
      obtain ⟨b, hb⟩ := matchPattern_of_wellFormed alert hwf
      cases b with
      | true =>
        rw [hb]
        exact iff_of_true rfl (malformedHidden_cons_of_applies ⟨hwf, hb⟩)
      | false =>
        rw [hb, malformedHidden_cons hb]
        exact hih
    · rw [matchPattern_disarmed hwf]
      obtain ⟨o, ho, hmem, -⟩ := firstMatch_disarmed rt alert hrest
      have hexposed (hm : matchPattern rt alert rule.2.matchPattern ≠ .ok false) :
          ¬ MalformedHidden rt alert (rule :: rules) := by
        intro h
        rcases h 0 rule rfl hwf with hf | ⟨j, hj, -⟩
        · exact hm hf
        · exact absurd hj (Nat.not_lt_zero j)
      cases hm : matchPattern rt alert rule.2.matchPattern with
      | error e =>
        refine iff_of_false ?_ (hexposed (by simp [hm]))
        simp [ho]
      | ok b =>
        cases b with
        | false =>
          rw [malformedHidden_cons hm]
          exact hih
        | true =>
          refine iff_of_false ?_ (hexposed (by simp [hm]))
          rw [ho]
          intro heq
          obtain rfl : some rule.1 = o := by simpa using heq
          exact hkeys.1 (hmem rule.1 rfl)

def whitelisted (ctx : TriageContext) : Option ℕ → TriageContext
  | none => ctx
  | some rid => { ctx with
      whitelistRuleId := some rid
      shortCircuit := true
      routeDecision := some .archiveWhitelist }

theorem returned_whitelistHandle {env : TriageEnv} {ctx : TriageContext} {w : World}
    (hshort : ctx.shortCircuit = false) (hquery : env.faults .whitelist = none) :
    returned (whitelistHandle rt env ctx) w =
      ((firstMatch rt ctx.alert.row (rt.clock.reading w.out.clock env.whitelistNow)
        (rulesInForce w.db (rt.clock.reading w.out.clock env.whitelistNow))).toOption).map
        (whitelisted ctx) := by
  have hselect (now : Time) : rulesInForce w.db now =
      (w.db.whitelistRules.select fun _ r => r.status == .active).filter
        fun rule => rule.2.isEffective now := by
    unfold rulesInForce Rows.select
    rw [List.filter_filter]
    exact List.filter_congr fun _ _ => Bool.and_comm _ _
  rw [hselect, firstMatch_filter, returned, whitelistHandle, hshort, if_neg (by simp),
    exec_utcNow_bind, exec_bind_of_ok (exec_fallible_ok.mpr ⟨hquery, rfl⟩), Session.exec_query_bind]
  dsimp only
  split
  · rename_i h
    rw [h]
    rfl
  · rename_i h
    rw [h]
    rfl
  · rename_i h
    rw [h]
    rfl

end

/--
The whitelist returns, archives the alert exactly when a well-formed rule in force matches
it and treats malformed patterns as ones that match nothing, if and only if every
malformed rule in force does not match or comes after a rule that applies.
-/
theorem malformed_rules_harmless_iff {rt : Runtime} {env : TriageEnv} {ctx : TriageContext}
    {w : World} (hshort : ctx.shortCircuit = false) (hfresh : ctx.whitelistRuleId = none)
    (hquery : env.faults .whitelist = none) :
    (∃ ctx', returned (whitelistHandle rt env ctx) w = some ctx' ∧
      returned (whitelistHandle rt env ctx) { w with db := w.db.disarmed rt } = some ctx' ∧
      (ctx'.whitelistRuleId.isSome ↔
        ∃ rule ∈ rulesInForce w.db (rt.clock.reading w.out.clock env.whitelistNow),
          RuleApplies rt ctx.alert.row rule.2)) ↔
    MalformedHidden rt ctx.alert.row
      (rulesInForce w.db (rt.clock.reading w.out.clock env.whitelistNow)) := by
  rw [returned_whitelistHandle hshort hquery, returned_whitelistHandle hshort hquery]
  generalize rt.clock.reading w.out.clock env.whitelistNow = now
  have hr : ∀ rule ∈ rulesInForce w.db now, rule.2.isEffective now = true := by
    rintro ⟨rid, r⟩ h
    have := Rows.mem_select.mp h
    simp only [Bool.and_eq_true] at this
    exact this.2.2
  obtain ⟨o, ho, -, hsome⟩ := firstMatch_disarmed rt ctx.alert.row hr
  have hid (o : Option ℕ) : (whitelisted ctx o).whitelistRuleId = o := by
    cases o with
    | none => exact hfresh
    | some rid => rfl
  rw [← firstMatch_eq_disarmed_iff hr (Rows.select_keys_nodup _ _), rulesInForce_disarmed, ho]
  constructor
  · rintro ⟨ctx', h, h', -⟩
    cases hf : firstMatch rt ctx.alert.row now (rulesInForce w.db now) with
    | error e => simp [hf, Except.toOption] at h
    | ok o' =>
      have hw : whitelisted ctx o' = ctx' := by simpa [hf, Except.toOption] using h
      have hw' : whitelisted ctx o = ctx' := by simpa [Except.toOption] using h'
      have heq := congrArg TriageContext.whitelistRuleId (hw.trans hw'.symm)
      rw [hid, hid] at heq
      rw [heq]
  · intro h
    refine ⟨whitelisted ctx o, ?_, rfl, ?_⟩
    · rw [h]
      rfl
    · rw [hid, hsome]

def activeRules (patterns : List Json) : Db where
  whitelistRules := patterns.map fun pattern => {
    name := "rule", ruleType := .composite, matchPattern := pattern, effectiveFrom := 0
    effectiveUntil := 10, status := .active }

/-- The context of an alert of the host `web-1`. -/
def hostContext : TriageContext where
  alert := {
    id := 0
    dataSourceName := "siem"
    row := {
      dataSourceId := 0
      sourceAlertId := "a-1"
      fingerprint := "a-1"
      occurredAt := 0
      ingestedAt := 0
      hostName := some "web-1" } }

def hostCondition (op value : String) : Json :=
  .obj [("field", .str "host_name"), ("op", .str op), ("value", .str value)]

/-- A rule that applies before one whose regular expression does not compile. -/
def guardedRules : Db := activeRules [hostCondition "eq" "web-1", hostCondition "regex" "["]

theorem malformed_rules_harmless_equals :
    ∃ ctx', returned (whitelistHandle (sampleRuntime .free []) { dedupNow := 5 } hostContext)
        { db := guardedRules } = some ctx' ∧
      returned (whitelistHandle (sampleRuntime .free []) { dedupNow := 5 } hostContext)
        { db := guardedRules.disarmed (sampleRuntime .free []) } = some ctx' ∧
      (ctx'.whitelistRuleId.isSome ↔ ∃ rule ∈ rulesInForce guardedRules 5,
        RuleApplies (sampleRuntime .free []) hostContext.alert.row rule.2) := by
  refine (malformed_rules_harmless_iff rfl rfl rfl).mpr ?_
  have hwf : WellFormedPattern (sampleRuntime .free []) (hostCondition "eq" "web-1") := by
    refine fun _ => ⟨⟨_, rfl⟩, fun hop => ?_⟩
    simp [hostCondition, Json.get?, List.lookup_cons] at hop
  exact malformedHidden_cons_of_applies ⟨hwf, rfl⟩

/-- A rule whose regular expression does not compile makes the whitelist raise. -/
theorem malformed_rule_raises :
    ¬ ∃ ctx', returned (whitelistHandle (sampleRuntime .free []) { dedupNow := 5 } hostContext)
        { db := activeRules [hostCondition "regex" "["] } = some ctx' ∧
      returned (whitelistHandle (sampleRuntime .free []) { dedupNow := 5 } hostContext)
        { db := (activeRules [hostCondition "regex" "["]).disarmed (sampleRuntime .free []) } =
          some ctx' ∧
      (ctx'.whitelistRuleId.isSome ↔
        ∃ rule ∈ rulesInForce (activeRules [hostCondition "regex" "["]) 5,
          RuleApplies (sampleRuntime .free []) hostContext.alert.row rule.2) := by
  rintro ⟨ctx', h, -⟩
  have hnone : (returned (whitelistHandle (sampleRuntime .free []) { dedupNow := 5 } hostContext)
      { db := activeRules [hostCondition "regex" "["] }).isNone = true := by decide +kernel
  rw [h] at hnone
  cases hnone

end Minsight

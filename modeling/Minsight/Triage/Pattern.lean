import Minsight.Triage.Context

/-! # Whitelist pattern evaluation -/

namespace Minsight

def alertColumn? (alert : Alert) : String → Option (Option String)
  | "src_ip" => some alert.srcIp
  | "dst_ip" => some alert.dstIp
  | "user_name" => some alert.userName
  | "host_name" => some alert.hostName
  | "rule_id" => some alert.ruleId
  | "rule_name" => some alert.ruleName
  | "file_hash" => some alert.fileHash
  | "alert_category" => some alert.alertCategory
  | "fingerprint" => some (some alert.fingerprint)
  | "source_alert_id" => some (some alert.sourceAlertId)
  | _ => none

/-- The value of a field; a JSON `null` counts as missing. -/
def alertFieldValue (alert : Alert) (field : String) : Option Json :=
  match alertColumn? alert field with
  | some column => column.map .str
  | none =>
    match alert.normalizedFields.get? field with
    | some .null => none
    | value => value

section

variable (rt : Runtime) (alert : Alert)

def matchSingle (condition : Json) : Except Exn Bool :=
  match condition with
  | .obj _ =>
    let field := (condition.get? "field").getD .null
    if !field.truthy then .ok false
    else
      match alertFieldValue alert (rt.str field) with
      | none => .ok false
      | some value =>
        let op := (condition.get? "op").getD (.str "eq")
        let expected := (condition.get? "value").getD .null
        let actual := rt.str value
        match op with
        | .str "eq" => .ok (actual == rt.str expected)
        | .str "in" =>
          let items := match expected with
            | .arr items => items
            | other => [other]
          .ok ((items.map rt.str).contains actual)
        | .str "prefix" => .ok ((rt.str expected).toList.isPrefixOf actual.toList)
        | .str "regex" =>
          match rt.reMatch (rt.str expected) actual with
          | some b => .ok b
          | none => .error .regexError
        | .str "in_cidr" => .ok ((rt.inCidr actual (rt.str expected)).getD false)
        | _ => .ok false
  | _ => .error (.attributeError "get")

/-- `all(...)`: stops at the first condition that does not hold. -/
def matchAll : List Json → Except Exn Bool
  | [] => .ok true
  | c :: cs =>
    match matchSingle rt alert c with
    | .ok true => matchAll cs
    | r => r

/-- `any(...)`: stops at the first condition that holds. -/
def matchAny : List Json → Except Exn Bool
  | [] => .ok false
  | c :: cs =>
    match matchSingle rt alert c with
    | .ok false => matchAny cs
    | r => r

/-- `pattern.get(key) or []` as the loop over it sees it. -/
def conditionsOf (value : Json) : Except Exn (List Json) :=
  if !value.truthy then .ok []
  else
    match value with
    | .arr items => .ok items
    | .obj fields => .ok (fields.map fun f => .str f.1)
    | .str s => .ok (s.toList.map fun c => .str (String.singleton c))
    | _ => .error .typeError

def matchPattern (pattern : Json) : Except Exn Bool := do
  match pattern.get? "all" with
  | some conditions => matchAll rt alert (← conditionsOf conditions)
  | none =>
    match pattern.get? "any" with
    | some conditions => matchAny rt alert (← conditionsOf conditions)
    | none =>
      if ((pattern.get? "field").getD .null).truthy then matchSingle rt alert pattern
      else
        let value := (pattern.get? "value").getD .null
        if !value.truthy then pure false
        else
          match pattern.get? "rule_type" with
          | some (.str "ip") =>
            pure (alert.srcIp == some (rt.str value) || alert.dstIp == some (rt.str value))
          | some (.str "user") => pure (alert.userName == some (rt.str value))
          | some (.str "host") => pure (alert.hostName == some (rt.str value))
          | some (.str "hash") => pure (alert.fileHash == some (rt.str value))
          | _ => pure false

end

end Minsight

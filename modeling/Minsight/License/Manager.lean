import Minsight.Foundation.Decimal
import Minsight.Foundation.Json
import Minsight.Model.World

/-! # The license manager

The manager verifies the license file, or grants a grace period that two marker files keep. A path
is a file when the directory has a content for it.
-/

namespace Minsight

namespace License

structure Payload where
  clientName : String
  issueDate : String
  expiryDate : String
  fingerprint : String
  product : String := ""
  maxNodes : ℤ := 0

/-- What the manager uses of the libraries and of the host. An error is the text of an exception. -/
structure Host where
  base64 : String → Except String String
  /-- Whether a signature verifies under the public key, or why the key cannot be loaded. -/
  verifies : String → String → Except String Bool
  loads : String → Except String Json
  int : Json → Except String ℤ
  str : Json → String
  lower : String → String
  /-- The day of a `%Y-%m-%d` text. -/
  date : String → Option ℤ
  /-- The candidates of the fingerprint: their hashes and sources. -/
  fingerprints : List (String × String)
  /-- A time as `%Y-%m-%d %H:%M:%S`. -/
  strftime : Time → String
  strptime : String → Option Time
  fromisoformat : String → Option Time

section

variable (host : Host)

/-- `Payload.from_dict` -/
def payloadOf : Json → Except String Payload
  | .obj fields => do
    let data := Json.obj fields
    let nodes := ((data.get? "max_nodes").filter Json.truthy).or
      ((data.get? "max_sites").filter Json.truthy)
    let maxNodes ← host.int (nodes.getD (.int 0))
    pure {
      clientName := host.str ((data.get? "client_name").getD (.str ""))
      issueDate := host.str ((data.get? "issue_date").getD (.str ""))
      expiryDate := host.str ((data.get? "expiry_date").getD (.str ""))
      fingerprint := host.str ((data.get? "fingerprint").getD (.str ""))
      product := host.str ((data.get? "product").getD (.str ""))
      maxNodes }
  | _ => .error "object has no attribute 'get'"

def splitLastDot (text : String) : Option (String × String) :=
  match text.toList.reverse.span (· != '.') with
  | (_, []) => none
  | (after, _ :: before) => some (String.ofList before.reverse, String.ofList after.reverse)

/-- `parse_and_verify` of the content of a file -/
def parseAndVerify (content : String) : Except String Payload := do
  let combined ← (host.base64 (strip content)).mapError ("Base64 解码失败: " ++ ·)
  match splitLastDot combined with
  | none => .error "License 结构错误：缺少签名分隔符"
  | some (payloadBytes, sigB64) =>
    let sig ← (host.base64 sigB64).mapError ("签名解码失败: " ++ ·)
    let verified ← host.verifies sig payloadBytes
    if !verified then .error "签名验证失败，文件可能被篡改"
    else
      let data ← host.loads payloadBytes
      let payload ← payloadOf host data
      if [payload.clientName, payload.issueDate, payload.expiryDate, payload.fingerprint].any
          (strip · == "") then
        .error "License 缺少必要字段"
      else pure payload

/-- `verify_full` of the content of a file -/
def verifyFull (now : Time) (content : String) : Except String (Payload × ℤ) := do
  let payload ← parseAndVerify host content
  match host.date payload.expiryDate with
  | none => .error ("有效期格式错误: " ++ payload.expiryDate)
  | some expiry =>
    let today := utcDay now
    if expiry < today then .error ("license_expired: " ++ payload.expiryDate)
    else
      let want := host.lower (strip payload.fingerprint)
      if host.fingerprints.any (·.1 == want) then pure (payload, expiry - today)
      else .error "fingerprint_mismatch"

inductive StatusKind
  | inactive | active | expired | fingerprintMismatch | invalid | community
  | gracePeriod | graceExpired | noLicense
  deriving DecidableEq, Repr

structure Status where
  activated : Bool := false
  status : StatusKind := .inactive
  clientName : String := ""
  issueDate : String := ""
  expiryDate : String := ""
  daysRemaining : ℤ := 0
  parseError : String := ""
  graceRemainingHours : ℚ := 0
  graceElapsedHours : ℚ := 0
  graceExpired : Bool := false
  product : String := "MA-MinSight"
  hint : String := ""
  maxNodes : ℤ := 0
  fingerprintSource : String := ""

structure Directory where
  licenseFile : Option String := none
  backup : Option String := none
  graceFile : Option String := none
  graceExpiredFile : Option String := none

/-- `_classify_verify_error` -/
def classifyVerifyError (message : String) : StatusKind × String :=
  if occursIn "license_expired" message || occursIn "已过期" message then
    (.expired, "License 已过期，变更类操作已锁定；请续期后重新导入")
  else if occursIn "fingerprint_mismatch" message || occursIn "指纹" message then
    (.fingerprintMismatch, "硬件指纹不匹配，本机无法使用该 License")
  else if occursIn "签名" message then (.invalid, "License 签名校验失败，文件可能被篡改")
  else (.invalid, "License 无效: " ++ message)

/-- `_fill_payload_meta` -/
def Status.fillPayloadMeta (info : Status) (payload : Payload) : Status :=
  { info with
    clientName := payload.clientName
    issueDate := payload.issueDate
    expiryDate := payload.expiryDate
    product := if payload.product = "" then "MA-MinSight" else payload.product
    maxNodes := payload.maxNodes }

/-- `_parse_grace_start` -/
def parseGraceStart (raw : String) : Option Time :=
  (host.strptime (strip raw)).or (host.fromisoformat (strip raw))

/-- `(end - start).total_seconds() / 3600` -/
def hoursBetween (start finish : Time) : ℚ := ((finish - start : ℤ) : ℚ) / 3600000000

/-- `round(q, 1)` -/
def round1 (q : ℚ) : ℚ := Arithmetic.binary64.roundTo 1 (Arithmetic.binary64.round q)

variable (community : Bool) (graceHours : ℚ) (now : Time)

def refusedStatus (info : Status) (content message : String) : Status :=
  let (status, hint) := classifyVerifyError message
  let info := { info with parseError := message, status, hint }
  match parseAndVerify host content with
  | .ok payload => info.fillPayloadMeta payload
  | .error _ => info

/-- The status without a license file, and the markers that it leaves. -/
def graceStatus (info : Status) (dir : Directory) : Status × Directory :=
  if dir.graceExpiredFile.isSome then
    ({ info with status := .graceExpired, graceExpired := true
                 hint := "试用宽限期已结束，请导入有效 license.lic" }, dir)
  else
    match dir.graceFile with
    | none =>
      ({ info with status := .gracePeriod, graceRemainingHours := graceHours
                   hint := "已进入试用宽限期，请尽快导入 License" },
        { dir with graceFile := some (host.strftime now) })
    | some raw =>
      match parseGraceStart host raw with
      | none =>
        ({ info with status := .noLicense, hint := "请在控制台导入 license.lic（由厂商签发）" }, dir)
      | some start =>
        let elapsed := hoursBetween start now
        let remain := graceHours - elapsed
        let info := { info with graceElapsedHours := round1 elapsed }
        if 0 < remain then
          ({ info with status := .gracePeriod, graceRemainingHours := round1 remain
                       hint := "未激活 License，处于试用宽限期" }, dir)
        else
          ({ info with status := .graceExpired, graceExpired := true, graceRemainingHours := 0
                       hint := "试用宽限期已结束，请导入有效 license.lic" },
            { dir with graceExpiredFile := some (host.strftime now) })

/-- `Manager.status` -/
def status (dir : Directory) : Status × Directory :=
  let info : Status := { fingerprintSource := (host.fingerprints.head?.map Prod.snd).getD "" }
  match dir.licenseFile with
  | some content =>
    match verifyFull host now content with
    | .ok (payload, days) =>
      ({ info with activated := true, status := .active, daysRemaining := days }.fillPayloadMeta
        payload, { dir with graceFile := none, graceExpiredFile := none })
    | .error message => (refusedStatus host info content message, dir)
  | none =>
    if community then
      ({ info with status := .community, hint :=
          "当前为社区版：入库/初筛/聚合/事件台可用。导入专业版 license.lic 后可解锁 AI Agent、企微协查、防御资产与评测。" },
        dir)
    else graceStatus host graceHours now info dir

/-- `Manager.allow_operation` -/
def allowOperation (dir : Directory) : Bool × Directory :=
  let (info, dir) := status host community graceHours now dir
  (info.status == .active || info.status == .gracePeriod, dir)

/-- `Manager.import_file`, given the content of the source or why it cannot be read -/
def importFile (src : Except String String) (dir : Directory) : Except String Unit × Directory :=
  let dir := match dir.licenseFile with
    | some content => { dir with licenseFile := none, backup := some content }
    | none => dir
  match src.bind fun content => (verifyFull host now content).map fun _ => content with
  | .ok content => (.ok (), { licenseFile := some content })
  | .error message =>
    (.error ("导入失败（未生效）: " ++ message), { dir with licenseFile := dir.backup, backup := none })

end

end License

end Minsight

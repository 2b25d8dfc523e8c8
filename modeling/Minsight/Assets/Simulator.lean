import Mathlib.Data.String.Basic
import Minsight.Entity.GraphCompleteness
import Minsight.Eval.Regression
import Minsight.Foundation.SortedSet
import Minsight.Foundation.System
import Minsight.Foundation.Trimmed

/-! # Simulated dispositions

A simulation walks two hops of the entity graph from the target of an action, and estimates the
downtime from the hosts it meets. The skill files it as a draft, which a reviewer approves or
rejects; nothing is ever enforced.
-/

namespace Minsight

open Regression (DispositionConfig)

/-- The keys of `ACTION_PARAM_KEYS`. -/
inductive DispositionAction
  | blockIp | isolateHost | disableUser
  deriving DecidableEq

namespace DispositionAction

def value : DispositionAction → String
  | .blockIp => "block_ip"
  | .isolateHost => "isolate_host"
  | .disableUser => "disable_user"

def ofValue : String → Option DispositionAction
  | "block_ip" => some .blockIp
  | "isolate_host" => some .isolateHost
  | "disable_user" => some .disableUser
  | _ => none

def paramKey : DispositionAction → String
  | .blockIp => "ip"
  | .isolateHost => "host_name"
  | .disableUser => "user_name"

def seedType : DispositionAction → EntityType
  | .blockIp => .ip
  | .isolateHost => .host
  | .disableUser => .user

def baseMinutes : DispositionAction → ℕ
  | .blockIp => 5
  | .isolateHost => 30
  | .disableUser => 15

theorem value_of_ofValue {s : String} {action : DispositionAction} (h : ofValue s = some action) :
    action.value = s := by
  unfold ofValue at h
  split at h
  · obtain rfl := Option.some.inj h
    rfl
  · obtain rfl := Option.some.inj h
    rfl
  · obtain rfl := Option.some.inj h
    rfl
  · cases h

end DispositionAction

structure SimulatedImpact where
  mode : String
  actionType : String
  target : String
  affectedHosts : List String
  affectedHostCount : ℕ
  businessSystems : List String
  estimatedDowntimeMinutes : ℕ
  graphNodeCount : ℕ
  graphEdgeCount : ℕ
  riskNotes : List String
  requiresApproval : Option Bool := none

structure SimulationResult where
  actionType : String
  actionParams : Json
  simulatedImpact : SimulatedImpact
  summary : String

/-- `_estimate_downtime_minutes` -/
def estimateDowntimeMinutes (action : DispositionAction) (hostCount : ℕ) : ℕ :=
  action.baseMinutes + (hostCount - 1) * 10

def riskNotes (action : DispositionAction) (target : String) (hostCount : ℕ)
    (businessSystems : List String) : List String :=
  let notes :=
    (if action = .blockIp then ["可能阻断合法供应商或 CDN 回源访问，需核对白名单与业务窗口。"] else [])
      ++ (if action = .isolateHost ∧ 3 < hostCount then
        ["关联主机较多，隔离可能影响同网段业务互访。"] else [])
      ++ (if action = .disableUser then
        ["账号禁用可能影响值班/运维跳板访问，需确认是否为共享账号。"] else [])
      ++ if businessSystems ≠ [] then
        ["涉及业务系统: " ++ joinText ", " (businessSystems.take 5) ++ "。"] else []
  if notes = [] then
    ["目标 " ++ target ++ " 关联面较小，但仍需人工确认后再执行真实处置。"]
  else notes

def targetedParams (action : DispositionAction) (target : String) : Json → Json
  | .obj fields => .obj ((action.paramKey, .str target) :: fields.filter (·.1 ≠ action.paramKey))
  | _ => .obj [(action.paramKey, .str target)]

section

variable (rt : Runtime) (store : GraphStore) (order : ReadOrder) (now : Time)

/-- The graph around the target; the names of the seed types are in lower case. -/
def simulatedGraph (action : DispositionAction) (target : String) : EntityGraphResult :=
  traverseEntityGraph store order now 2 25 [] String.toLower action.seedType.value target

def simulatedHosts (action : DispositionAction) (target : String) : List String :=
  sortedSet <|
    ((simulatedGraph store order now action target).nodes.filter
        (·.entityType = EntityType.host.value)).map (·.entityKey)
      ++ if action = .isolateHost then [target] else []

def systemsOf (metadata : Json) : List String :=
  match metadata.get? "business_systems" with
  | some (.arr items) => items.map rt.str
  | _ => []

def simulatedSystems (action : DispositionAction) (target : String) : List String :=
  sortedSet <|
    (simulatedGraph store order now action target).nodes.flatMap (systemsOf rt ·.metadata)
      ++ match store.profiles.find? (·.entity = (action.seedType, target)) with
        | some profile => systemsOf rt profile.metadata
        | none => []

def simulatedImpact (action : DispositionAction) (target : String) (mockMode : Bool) :
    SimulatedImpact :=
  let graph := simulatedGraph store order now action target
  let hosts := simulatedHosts store order now action target
  let systems := simulatedSystems rt store order now action target
  { mode := if mockMode then "mock" else "cmdb"
    actionType := action.value, target
    affectedHosts := hosts.take 20
    affectedHostCount := hosts.length
    businessSystems := systems.take 10
    estimatedDowntimeMinutes := estimateDowntimeMinutes action hosts.length
    graphNodeCount := graph.nodes.length
    graphEdgeCount := graph.edges.length
    riskNotes := riskNotes action target hosts.length systems }

def SimulatedImpact.summary (impact : SimulatedImpact) : String :=
  takeText 900 <|
    "[推演/Mock] " ++ impact.actionType ++ " → " ++ impact.target ++ ": 影响约 "
      ++ toString impact.affectedHostCount ++ " 台主机"
      ++ (if impact.businessSystems ≠ [] then
        "、业务系统 " ++ joinText ", " (impact.businessSystems.take 3) else "")
      ++ "；预估中断 " ++ toString impact.estimatedDowntimeMinutes ++ " 分钟。"
      ++ if impact.riskNotes ≠ [] then " " ++ impact.riskNotes.headD "" else ""

/-- `DispositionSimulator.simulate`, with the text of the `ValueError` it raises. -/
def simulate (actionType : String) (actionParams : Json) (mockMode : Bool) :
    Except String SimulationResult :=
  let actionType := rt.lower (strip actionType)
  match DispositionAction.ofValue actionType with
  | none => .error ("Unsupported action_type: " ++ actionType)
  | some action =>
    let target := strip (textOr rt actionParams action.paramKey "")
    if target = "" then
      .error ("action_params." ++ action.paramKey ++ " is required for " ++ actionType)
    else
      let impact := simulatedImpact rt store order now action target mockMode
      .ok {
        actionType
        actionParams := targetedParams action target actionParams
        simulatedImpact := impact
        summary := impact.summary }

end

inductive SimulationApprovalStatus
  | draft | approved | rejected
  deriving DecidableEq

structure DispositionSimulation where
  investigationId : ℕ
  actionType : String
  actionParams : Json
  simulatedImpact : SimulatedImpact
  approvalStatus : SimulationApprovalStatus := .draft
  approvedById : Option ℕ := none

structure SimulationCall where
  config : DispositionConfig
  store : GraphStore
  order : ReadOrder
  now : Time
  investigationId : ℕ
  params : Json

def SimulatedImpact.json (impact : SimulatedImpact) : Json :=
  .obj ([("mode", .str impact.mode), ("action_type", .str impact.actionType),
    ("target", .str impact.target),
    ("affected_hosts", .arr (impact.affectedHosts.map .str)),
    ("affected_host_count", .int impact.affectedHostCount),
    ("business_systems", .arr (impact.businessSystems.map .str)),
    ("estimated_downtime_minutes", .int impact.estimatedDowntimeMinutes),
    ("graph_node_count", .int impact.graphNodeCount),
    ("graph_edge_count", .int impact.graphEdgeCount),
    ("risk_notes", .arr (impact.riskNotes.map .str))]
    ++ match impact.requiresApproval with
      | some b => [("requires_approval", .bool b)]
      | none => [])

def refusedSimulation (summary error : String) : SkillResult where
  success := false
  summary
  error := some error

section

variable (rt : Runtime)

def SimulationCall.actionType (call : SimulationCall) : String :=
  strip (rt.lower (rt.str ((call.params.get? "action_type").getD (.str ""))))

/-- `params.get("action_params") or {}` -/
def SimulationCall.actionParams (call : SimulationCall) : Json :=
  ((call.params.get? "action_params").filter Json.truthy).getD (.obj [])

/-- `SimulateDispositionSkill.execute`, with the table it leaves. -/
def simulateDisposition (call : SimulationCall) (table : Rows DispositionSimulation) :
    SkillResult × Rows DispositionSimulation :=
  let actionType := call.actionType rt
  let actionParams := call.actionParams
  if call.config.simulationEnabled = false then
    (refusedSimulation
      "Disposition simulation is disabled (disposition.simulation_enabled=false)." "disabled",
      table)
  else if actionType ∉ call.config.allowedActionTypes then
    (refusedSimulation ("Action type '" ++ actionType ++ "' is not allowed.") "action_not_allowed",
      table)
  else if actionParams.isObj = false then
    (refusedSimulation "action_params must be an object." "invalid_params", table)
  else
    match (DispositionAction.ofValue actionType).filter
        (fun action => strip (textOr rt actionParams action.paramKey "") = "") with
    | some action =>
      (refusedSimulation
        ("action_params." ++ action.paramKey ++ " is required for " ++ actionType ++ ".")
        "missing_target", table)
    | none =>
      match simulate rt call.store call.order call.now actionType actionParams
          call.config.mockMode with
      | .error message => (refusedSimulation message "simulation_error", table)
      | .ok result =>
        let impact := { result.simulatedImpact with
          requiresApproval := some call.config.requireApproval }
        let record : DispositionSimulation :=
          { investigationId := call.investigationId, actionType := result.actionType
            actionParams := result.actionParams, simulatedImpact := impact }
        let note := if call.config.requireApproval then
            "推演记录已保存为 draft，需在控制台审批；本系统不会自动执行处置。"
          else "推演完成（未强制审批）。"
        ({ success := true
           summary := result.summary ++ " " ++ note
           data := .obj [("simulation_id", .str (toString table.length)),
             ("action_type", .str result.actionType), ("action_params", result.actionParams),
             ("simulated_impact", impact.json), ("approval_status", .str "draft")]
           evidenceRef := "simulation:" ++ toString table.length }, table ++ [record])

/-- A decision on a draft; `false` is answered with 404. -/
def decideSimulation (decision : DispositionSimulation → DispositionSimulation)
    (simulationId : ℕ) (table : Rows DispositionSimulation) : Bool × Rows DispositionSimulation :=
  match table[simulationId]? with
  | none => (false, table)
  | some record =>
    if record.approvalStatus ≠ .draft then (false, table)
    else (true, table.modify simulationId decision)

/-- `DispositionSimulationService.approve` -/
def approveSimulation (simulationId : ℕ) (approvedById : Option ℕ) :
    Rows DispositionSimulation → Bool × Rows DispositionSimulation :=
  decideSimulation (fun r => { r with approvalStatus := .approved, approvedById }) simulationId

/-- `DispositionSimulationService.reject` -/
def rejectSimulation (simulationId : ℕ) :
    Rows DispositionSimulation → Bool × Rows DispositionSimulation :=
  decideSimulation (fun r => { r with approvalStatus := .rejected }) simulationId

inductive SimulationRequest
  | simulate (call : SimulationCall)
  | approve (simulationId : ℕ) (approvedById : Option ℕ)
  | reject (simulationId : ℕ)

/-- The table under calls of the skill that are committed, and under decisions. -/
def simulationTable : System (Rows DispositionSimulation) SimulationRequest where
  init := []
  step
    | .simulate call, table => some (simulateDisposition rt call table).2
    | .approve simulationId approvedById, table =>
      some (approveSimulation simulationId approvedById table).2
    | .reject simulationId, table => some (rejectSimulation simulationId table).2

end

structure BlastRadius (store : GraphStore) (order : ReadOrder) (now : Time) (seed : Entity)
    (hosts : List String) : Prop where
  distinct : hosts.Nodup
  bounded : hosts.length ≤ 25
  sound : ∀ host ∈ hosts, WithinHops store now [] 2 seed (.host, host)
  complete : NobodyTurnedAway store order now 2 25 [] String.toLower seed.1.value seed.2 →
    AtMost (WithinHops store now [] 2 seed) 25 →
      ∀ host, WithinHops store now [] 2 seed (.host, host) → host ∈ hosts

section

variable {store : GraphStore} {order : ReadOrder} {now : Time} {action : DispositionAction}
  {target : String}

theorem seedEntity_target (hstrip : strip target = target) (hne : target ≠ "") :
    seedEntity String.toLower action.seedType.value target = some (action.seedType, target) := by
  have htype : EntityType.ofValue action.seedType.value.toLower = some action.seedType := by
    cases action <;> decide +kernel
  rw [seedEntity, htype]
  simp [hstrip, hne]

theorem one_le_cap : 1 ≤ (graphSearch store order now 2 25 []).cap := by
  change (1 : ℤ) ≤ 25
  decide

theorem mem_simulatedHosts (hstrip : strip target = target) (hne : target ≠ "") {host : String} :
    host ∈ simulatedHosts store order now action target ↔
      nameOf (.host, host) ∈ (simulatedGraph store order now action target).names := by
  have hmem : host ∈ ((simulatedGraph store order now action target).nodes.filter
      (·.entityType = EntityType.host.value)).map (·.entityKey) ↔
      nameOf (.host, host) ∈ (simulatedGraph store order now action target).names := by
    simp only [EntityGraphResult.names, List.mem_map, List.mem_filter, decide_eq_true_eq, nameOf,
      Prod.mk.injEq, and_assoc]
  have hseed : nameOf (action.seedType, target) ∈
      (simulatedGraph store order now action target).names := by
    rw [simulatedGraph, mem_names (seedEntity_target hstrip hne)]
    exact Search.start_mem_search one_le_cap _
  rw [simulatedHosts, mem_sortedSet, List.mem_append, hmem, or_iff_left_iff_imp]
  intro htarget
  split at htarget
  · rename_i haction
    subst haction
    obtain rfl := List.mem_singleton.mp htarget
    exact hseed
  · cases htarget

theorem simulatedHosts_blastRadius (hstrip : strip target = target) (hne : target ≠ "") :
    BlastRadius store order now (action.seedType, target)
      (simulatedHosts store order now action target) := by
  have hseed : seedEntity String.toLower action.seedType.value target =
      some (action.seedType, target) := seedEntity_target hstrip hne
  refine ⟨nodup_sortedSet _, ?_, fun host hhost => ?_, fun hnobody hmost host hhost => ?_⟩
  · have hsub : (simulatedHosts store order now action target).map (fun h => (EntityType.host, h)) ⊆
        ((graphSearch store order now 2 25 []).search (action.seedType, target)).entities := by
      intro e he
      obtain ⟨host, hhost, rfl⟩ := List.mem_map.mp he
      exact (mem_names hseed).mp ((mem_simulatedHosts hstrip hne).mp hhost)
    have hnodup : ((simulatedHosts store order now action target).map
        fun h => (EntityType.host, h)).Nodup :=
      (nodup_sortedSet _).map (Prod.mk_right_injective _)
    have hlength := (hnodup.subperm hsub).length_le
    have hcap := Search.length_search (@one_le_cap store order now)
      (action.seedType, target)
    change _ ≤ (25 : ℤ) at hcap
    rw [List.length_map] at hlength
    omega
  · have hmem := (mem_names hseed).mp ((mem_simulatedHosts hstrip hne).mp hhost)
    exact within_iff.mp (Search.within_of_mem_search one_le_cap (Int.natCast_nonneg 2) hmem)
  · exact (mem_simulatedHosts hstrip hne).mpr
      (complete_of_nobodyTurnedAway hnobody _ hseed hmost _ hhost)

end

/-- The figures of an impact are those of the blast radius of a target. -/
structure SimulatedImpact.Shows (impact : SimulatedImpact) (store : GraphStore) (order : ReadOrder)
    (now : Time) (action : DispositionAction) (target : String) (hosts : List String) : Prop where
  radius : BlastRadius store order now (action.seedType, target) hosts
  actionType : impact.actionType = action.value
  target : impact.target = target
  affectedHosts : impact.affectedHosts = hosts.take 20
  affectedHostCount : impact.affectedHostCount = hosts.length
  downtime : impact.estimatedDowntimeMinutes = action.baseMinutes + (hosts.length - 1) * 10

section

variable {rt : Runtime} {store : GraphStore} {order : ReadOrder} {now : Time}

/-- Only a supported action with a target is simulated, and what is shown is its blast radius. -/
theorem simulate_ok {actionType : String} {actionParams : Json} {mockMode : Bool}
    {result : SimulationResult}
    (h : simulate rt store order now actionType actionParams mockMode = .ok result) :
    result.actionType = rt.lower (strip actionType) ∧
    ∃ action, DispositionAction.ofValue result.actionType = some action ∧
      strip (textOr rt actionParams action.paramKey "") ≠ "" ∧
      result.simulatedImpact.Shows store order now action
        (strip (textOr rt actionParams action.paramKey ""))
        (simulatedHosts store order now action
          (strip (textOr rt actionParams action.paramKey ""))) := by
  unfold simulate at h
  dsimp only at h
  split at h
  · cases h
  · rename_i action haction
    split at h
    · cases h
    · rename_i htarget
      obtain rfl := Except.ok.inj h
      exact ⟨rfl, action, haction, htarget, {
        radius := simulatedHosts_blastRadius (strip_strip _) htarget
        actionType := rfl
        target := rfl
        affectedHosts := rfl
        affectedHostCount := rfl
        downtime := rfl }⟩

variable (rt) in
/-- A simulation on file is the blast radius of the target a call named. -/
structure DispositionSimulation.ShowsCall (record : DispositionSimulation)
    (call : SimulationCall) (action : DispositionAction) (target : String) : Prop where
  enabled : call.config.simulationEnabled = true
  allowed : call.actionType rt ∈ call.config.allowedActionTypes
  investigation : record.investigationId = call.investigationId
  named : target = strip (textOr rt call.actionParams action.paramKey "")
  nonempty : target ≠ ""
  supported : record.actionType = action.value
  approval : record.simulatedImpact.requiresApproval = some call.config.requireApproval
  figures : ∃ hosts,
    record.simulatedImpact.Shows call.store call.order call.now action target hosts

variable (rt) in
def DispositionSimulation.ShowsBlastRadius (record : DispositionSimulation) : Prop :=
  ∃ call action target, record.ShowsCall rt call action target

theorem simulateDisposition_table (call : SimulationCall) (table : Rows DispositionSimulation) :
    (simulateDisposition rt call table).2 = table ∨
      ∃ record : DispositionSimulation, record.approvalStatus = .draft ∧
        record.ShowsBlastRadius rt ∧ (simulateDisposition rt call table).2 = table ++ [record] := by
  unfold simulateDisposition
  dsimp only
  split
  · exact .inl rfl
  · rename_i henabled
    split
    · exact .inl rfl
    · rename_i hallowed
      split
      · exact .inl rfl
      · split
        · exact .inl rfl
        · split
          · exact .inl rfl
          · rename_i result hresult
            obtain ⟨-, action, haction, hne, hshows⟩ := simulate_ok hresult
            refine .inr ⟨_, rfl, ⟨call, action, _, {
              enabled := Bool.eq_true_of_not_eq_false henabled
              allowed := not_not.mp hallowed
              investigation := rfl
              named := rfl
              nonempty := hne
              supported := (DispositionAction.value_of_ofValue haction).symm
              approval := rfl
              figures := ⟨_, { hshows with } ⟩ }⟩, rfl⟩

/-- What later requests may change of a simulation: a draft can be decided, once. -/
structure KeepsSimulation (record record' : DispositionSimulation) : Prop where
  content : record' = { record with
    approvalStatus := record'.approvalStatus, approvedById := record'.approvedById }
  final : record.approvalStatus ≠ .draft → record' = record

theorem KeepsSimulation.refl (record : DispositionSimulation) : KeepsSimulation record record :=
  ⟨rfl, fun _ => rfl⟩

theorem KeepsSimulation.trans {r₁ r₂ r₃ : DispositionSimulation} (h : KeepsSimulation r₁ r₂)
    (h' : KeepsSimulation r₂ r₃) : KeepsSimulation r₁ r₃ where
  content := by rw [h'.content, h.content]
  final hdecided := by
    obtain rfl := h.final hdecided
    exact h'.final hdecided

theorem decideSimulation_keeps {table : Rows DispositionSimulation} {i simulationId : ℕ}
    {record : DispositionSimulation} {decision : DispositionSimulation → DispositionSimulation}
    (hcontent : ∀ r, decision r = { r with
      approvalStatus := (decision r).approvalStatus, approvedById := (decision r).approvedById })
    (hi : table[i]? = some record) :
    ∃ record', (decideSimulation decision simulationId table).2[i]? = some record' ∧
      KeepsSimulation record record' := by
  unfold decideSimulation
  split
  · exact ⟨record, hi, .refl record⟩
  · rename_i draft hdraft
    split
    · exact ⟨record, hi, .refl record⟩
    · rename_i hstatus
      by_cases hid : simulationId = i
      · subst hid
        obtain rfl := Option.some.inj (hdraft.symm.trans hi)
        exact ⟨decision draft, by simp [hi], hcontent draft, fun h => absurd h hstatus⟩
      · exact ⟨record, by simp [hid, hi], .refl record⟩

theorem simulationTable_keeps {request : SimulationRequest}
    {table table' : Rows DispositionSimulation} {i : ℕ} {record : DispositionSimulation}
    (hstep : (simulationTable rt).step request table = some table')
    (hi : table[i]? = some record) :
    ∃ record', table'[i]? = some record' ∧ KeepsSimulation record record' := by
  cases request with
  | simulate call =>
    obtain rfl := Option.some.inj hstep
    rcases @simulateDisposition_table rt call table with h | ⟨added, -, -, h⟩
    · exact ⟨record, by rw [h, hi], .refl record⟩
    · refine ⟨record, ?_, .refl record⟩
      rw [h, List.getElem?_append_left (List.getElem?_eq_some_iff.mp hi).1, hi]
  | approve simulationId approvedById =>
    obtain rfl := Option.some.inj hstep
    exact decideSimulation_keeps (fun _ => rfl) hi
  | reject simulationId =>
    obtain rfl := Option.some.inj hstep
    exact decideSimulation_keeps (fun _ => rfl) hi

theorem simulationTable_run_keeps {requests : List SimulationRequest}
    {table table' : Rows DispositionSimulation} {i : ℕ} {record : DispositionSimulation}
    (hrun : (simulationTable rt).run requests table = some table')
    (hi : table[i]? = some record) :
    ∃ record', table'[i]? = some record' ∧ KeepsSimulation record record' := by
  induction requests generalizing table record with
  | nil =>
    obtain rfl := Option.some.inj hrun
    exact ⟨record, hi, .refl record⟩
  | cons request requests ih =>
    obtain ⟨table₁, hstep, hrest⟩ := Option.bind_eq_some_iff.mp hrun
    obtain ⟨record₁, hi₁, hkeeps⟩ := simulationTable_keeps hstep hi
    obtain ⟨record₂, hi₂, hkeeps'⟩ := ih hrest hi₁
    exact ⟨record₂, hi₂, hkeeps.trans hkeeps'⟩

theorem DispositionSimulation.ShowsBlastRadius.kept {record record' : DispositionSimulation}
    (h : record.ShowsBlastRadius rt) (hkeeps : KeepsSimulation record record') :
    record'.ShowsBlastRadius rt := by
  obtain ⟨call, action, target, h⟩ := h
  rw [hkeeps.content]
  exact ⟨call, action, target, { h with }⟩

theorem showsBlastRadius_of_reachable {table : Rows DispositionSimulation}
    (h : (simulationTable rt).Reachable table) :
    ∀ record ∈ table, record.ShowsBlastRadius rt := by
  refine h.invariant (I := fun table => ∀ record ∈ table, record.ShowsBlastRadius rt)
    (by simp [simulationTable]) fun table request table' hall _ hstep => ?_
  intro record' hrecord'
  obtain ⟨i, hi'⟩ := List.mem_iff_getElem?.mp hrecord'
  cases hi : table[i]? with
  | some record =>
    obtain ⟨kept, hkept, hkeeps⟩ := simulationTable_keeps hstep hi
    obtain rfl := Option.some.inj (hkept.symm.trans hi')
    exact (hall record (List.mem_of_getElem? hi)).kept hkeeps
  | none =>
    have hnew : ∀ decision simulationId,
        (decideSimulation decision simulationId table).2[i]? = none := by
      intro decision simulationId
      rw [List.getElem?_eq_none_iff] at hi ⊢
      unfold decideSimulation
      split
      · exact hi
      · split
        · exact hi
        · rwa [List.length_modify]
    cases request with
    | simulate call =>
      obtain rfl := Option.some.inj hstep
      rcases @simulateDisposition_table rt call table with h | ⟨added, -, hshows, h⟩
      · rw [h, hi] at hi'
        cases hi'
      · rw [h] at hrecord'
        rcases List.mem_append.mp hrecord' with hold | hadded
        · exact hall record' hold
        · obtain rfl := List.mem_singleton.mp hadded
          exact hshows
    | approve simulationId approvedById =>
      obtain rfl := Option.some.inj hstep
      rw [approveSimulation, hnew] at hi'
      cases hi'
    | reject simulationId =>
      obtain rfl := Option.some.inj hstep
      rw [rejectSimulation, hnew] at hi'
      cases hi'

def approvedRequests : List SimulationRequest :=
  [.simulate {
      config := { simulationEnabled := true }
      store := cycleStore, order := tableOrder, now := 0, investigationId := 0
      params := .obj [("action_type", .str "isolate_host"),
        ("action_params", .obj [("host_name", .str "a")])] },
    .approve 0 (some 7)]

def approvedSimulations : Rows DispositionSimulation :=
  ((simulationTable (sampleRuntime .free [])).run approvedRequests []).getD []

end

section

variable {store store' : GraphStore} {now : Time}

theorem WithinHops.mono (hsub : store.relations ⊆ store'.relations) {types : List String}
    {maxHops : ℤ} {seed e : Entity} (h : WithinHops store now types maxHops seed e) :
    WithinHops store' now types maxHops seed e := by
  obtain ⟨n, hn, hchain⟩ := h
  refine ⟨n, hn, ?_⟩
  clear hn
  induction hchain with
  | seed => exact .seed
  | join _ hjoined ih =>
    obtain ⟨rel, hrel, hends⟩ := hjoined
    rw [validRelations, List.mem_filter] at hrel
    exact ih.join ⟨rel, List.mem_filter.mpr ⟨hsub hrel.1, hrel.2⟩, hends⟩

variable {rt : Runtime} {order order' : ReadOrder} {action : DispositionAction}

/--
More relations never make the estimates smaller, as long as the traversal of the larger graph
turns nobody away.
-/
theorem more_relations_more_impact {actionType : String} {actionParams : Json}
    {mockMode mockMode' : Bool} {result result' : SimulationResult}
    (hsub : store.relations ⊆ store'.relations)
    (h : simulate rt store order now actionType actionParams mockMode = .ok result)
    (h' : simulate rt store' order' now actionType actionParams mockMode' = .ok result')
    (haction : DispositionAction.ofValue result'.actionType = some action)
    (hnobody : NobodyTurnedAway store' order' now 2 25 [] String.toLower action.seedType.value
      result'.simulatedImpact.target)
    (hmost : AtMost
      (WithinHops store' now [] 2 (action.seedType, result'.simulatedImpact.target)) 25) :
    result.simulatedImpact.affectedHostCount ≤ result'.simulatedImpact.affectedHostCount ∧
      result.simulatedImpact.estimatedDowntimeMinutes ≤
        result'.simulatedImpact.estimatedDowntimeMinutes := by
  obtain ⟨htype, small, hsmall, -, hshows⟩ := simulate_ok h
  obtain ⟨htype', large, hlarge, -, hshows'⟩ := simulate_ok h'
  rw [htype, ← htype', haction] at hsmall
  obtain rfl := Option.some.inj hsmall
  obtain rfl := Option.some.inj (haction.symm.trans hlarge)
  rw [hshows'.target] at hnobody hmost
  have hsubset : simulatedHosts store order now action
      (strip (textOr rt actionParams action.paramKey "")) ⊆
      simulatedHosts store' order' now action
        (strip (textOr rt actionParams action.paramKey "")) := fun host hhost =>
    hshows'.radius.complete hnobody hmost host ((hshows.radius.sound host hhost).mono hsub)
  have hcount := (hshows.radius.distinct.subperm hsubset).length_le
  rw [hshows.affectedHostCount, hshows'.affectedHostCount, hshows.downtime, hshows'.downtime]
  omega

def oneWayStore : GraphStore where
  profiles := []
  relations := cycleStore.relations.take 1
  unique := List.nodup_nil

/-- The states of a search from the host: its user waits once for each relation. -/
def cycleStates : List (Search.State Entity) := [
  Search.initial (.host, "a"),
  { expanded := [((.host, "a"), 0)], frontier := [((.user, "u"), 1), ((.user, "u"), 1)] },
  { expanded := [((.host, "a"), 0), ((.user, "u"), 1)], frontier := [((.user, "u"), 1)] },
  { expanded := [((.host, "a"), 0), ((.user, "u"), 1)], frontier := [] }]

theorem step_cycleStates {i : ℕ} (hi : i < 3) :
    (graphSearch cycleStore tableOrder 0 2 25 []).step (cycleStates.getD i ⟨[], []⟩) =
      some (cycleStates.getD (i + 1) ⟨[], []⟩) := by
  rcases i with _ | _ | _ | i
  · rfl
  · rfl
  · rfl
  · omega

theorem through_cycleStore {st : Search.State Entity}
    (h : (graphSearch cycleStore tableOrder 0 2 25 []).Through (.host, "a") st) :
    ∃ i < 4, st = cycleStates.getD i ⟨[], []⟩ := by
  induction h with
  | initial => exact ⟨0, by omega, rfl⟩
  | step _ hstep ih =>
    obtain ⟨i, hi, rfl⟩ := ih
    by_cases hlast : i = 3
    · subst hlast
      cases hstep
    · rw [step_cycleStates (by omega)] at hstep
      exact ⟨i + 1, by omega, (Option.some.inj hstep).symm⟩

theorem hasRoom_cycleStore : (graphSearch cycleStore tableOrder 0 2 25 []).HasRoom (.host, "a") := by
  apply Search.hasRoom_of_le
  intro st e depth rest hthrough hfrontier
  obtain ⟨i, hi, rfl⟩ := through_cycleStore hthrough
  rcases i with _ | _ | _ | _ | i
  · obtain ⟨he, -⟩ := List.cons.inj hfrontier
    obtain ⟨rfl, rfl⟩ := Prod.mk.inj he
    decide +kernel
  · obtain ⟨he, -⟩ := List.cons.inj hfrontier
    obtain ⟨rfl, rfl⟩ := Prod.mk.inj he
    decide +kernel
  · obtain ⟨he, -⟩ := List.cons.inj hfrontier
    obtain ⟨rfl, rfl⟩ := Prod.mk.inj he
    decide +kernel
  · cases hfrontier
  · omega

theorem search_cycleStore :
    (graphSearch cycleStore tableOrder 0 2 25 []).search (.host, "a") =
      cycleStates.getD 3 ⟨[], []⟩ := by
  have hstep := fun i hi => (graphSearch cycleStore tableOrder 0 2 25 []).loop.run_of_some
    (@step_cycleStates i hi)
  exact (hstep 0 (by omega)).trans ((hstep 1 (by omega)).trans ((hstep 2 (by omega)).trans
    ((graphSearch cycleStore tableOrder 0 2 25 []).loop.run_of_none rfl)))

def isolation : Json := .obj [("host_name", .str "a")]

theorem simulate_isolation (store : GraphStore) :
    ∃ result,
      simulate (sampleRuntime .free []) store tableOrder 0 "isolate_host" isolation true =
        .ok result ∧
      DispositionAction.ofValue result.actionType = some .isolateHost ∧
      result.simulatedImpact.target = "a" := by
  have haction : DispositionAction.ofValue ((sampleRuntime .free []).lower (strip "isolate_host")) =
      some .isolateHost := by decide +kernel
  have htarget : strip (textOr (sampleRuntime .free []) isolation "host_name" "") = "a" := rfl
  have hok : ∃ result, simulate (sampleRuntime .free []) store tableOrder 0 "isolate_host" isolation
      true = .ok result := by
    unfold simulate
    simp only [haction]
    rw [DispositionAction.paramKey, htarget]
    exact ⟨_, if_neg (by decide)⟩
  obtain ⟨result, h⟩ := hok
  obtain ⟨htype, action, hsupported, -, hshows⟩ := simulate_ok h
  rw [htype, haction] at hsupported
  obtain rfl := Option.some.inj hsupported
  exact ⟨result, h, htype ▸ haction, hshows.target.trans htarget⟩

theorem more_relations_more_impact_cycle :
    ∃ result result',
      simulate (sampleRuntime .free []) oneWayStore tableOrder 0 "isolate_host" isolation true =
        .ok result ∧
      simulate (sampleRuntime .free []) cycleStore tableOrder 0 "isolate_host" isolation true =
        .ok result' ∧
      result.simulatedImpact.affectedHostCount ≤ result'.simulatedImpact.affectedHostCount := by
  obtain ⟨result, h, -, -⟩ := simulate_isolation oneWayStore
  obtain ⟨result', h', haction, htarget⟩ := simulate_isolation cycleStore
  have hseed : seedEntity String.toLower "host" "a" = some (.host, "a") := by decide +kernel
  have hnobody : NobodyTurnedAway cycleStore tableOrder 0 2 25 [] String.toLower "host" "a" := by
    intro seed hs
    obtain rfl := Option.some.inj (hseed.symm.trans hs)
    exact Or.inr hasRoom_cycleStore
  have hmost : AtMost (WithinHops cycleStore 0 [] 2 (.host, "a")) 25 := by
    intro l hnodup hl
    have hsub : l ⊆ [(EntityType.host, "a"), (.user, "u")] := by
      intro e he
      have hwithin : (graphSearch cycleStore tableOrder 0 2 25 []).Within (.host, "a") e :=
        within_iff.mpr (hl e he)
      have hfound := Search.mem_search_of_within one_le_cap hasRoom_cycleStore hwithin
      rwa [search_cycleStore] at hfound
    have hlength := (hnodup.subperm hsub).length_le
    simp only [List.length_cons, List.length_nil] at hlength
    omega
  rw [← htarget] at hnobody hmost
  exact ⟨result, result', h, h', (more_relations_more_impact (List.take_subset _ _) h h' haction
    hnobody hmost).1⟩

end

end Minsight

import Mathlib.Data.List.Dedup
import Mathlib.Data.List.Perm.Subperm
import Minsight.Agent.Loop

/-! # Correlated events

Events are found through the alerts of an entity. An event has a row for each of its alerts that
matches, and the limit is on rows.
-/

namespace Minsight

open Tx Session

/-- What the skill reads apart from the tables: the configuration, the clock, and how the database
orders rows that are equal. -/
structure HistoryEnv where
  autoRaise : Bool := true
  now : Time
  tie : ℕ → ℕ := id

/-- The parameters of a call. -/
structure HistoryCall where
  entityType : String
  entityKey : String
  windowHours : ℤ := 72
  limit : ℤ := 50

def EventStatus.value : EventStatus → String
  | .pendingReview => "pending_review"
  | .investigating => "investigating"
  | .concluded => "concluded"
  | .humanPending => "human_pending"
  | .closed => "closed"

structure CorrelatedItem where
  eventId : ℕ
  title : Option String
  status : String
  riskScore : ℚ
  alertCount : ℕ
  host : Option String
  user : Option String
  category : Option String

structure CorrelatedEvents where
  items : List CorrelatedItem
  total : ℕ

/-- `FIELD_MAP` -/
def fieldMap : String → Option (Alert → Option String)
  | "ip" => some (·.srcIp)
  | "host" => some (·.hostName)
  | "user" => some (·.userName)
  | _ => none

def correlatedItem (row : ℕ × Event) : CorrelatedItem where
  eventId := row.1
  title := row.2.title
  status := row.2.status.value
  riskScore := row.2.riskScore
  alertCount := row.2.alertCount
  host := row.2.aggregateHostName
  user := row.2.aggregateUserName
  category := row.2.primaryCategory

section

variable (env : HistoryEnv) (call : HistoryCall)

def alertMatches (alert : Alert) : Bool :=
  (fieldMap call.entityType).any (fun column => column alert == some call.entityKey)
    && env.now - hours call.windowHours ≤ alert.occurredAt

def joinedRows (db : Db) : List (ℕ × ℕ × Event) :=
  (db.eventAlerts.select fun _ link =>
    (db.alerts[link.alertId]?).any (alertMatches env call)).filterMap fun row =>
      (db.events[row.2.eventId]?).map fun event => (row.1, row.2.eventId, event)

def selectCorrelated (n : ℕ) (db : Db) : List (ℕ × Event) :=
  (Rows.orderLimit
    (Rows.descending (fun row => Rows.nullHigh row.2.2.lastAlertAt) fun row => env.tie row.1) n
    (joinedRows env call db)).map Prod.snd

def raisePriority (eventId : ℕ) (events : List (ℕ × Event)) : Session Unit := do
  let current ← Session.query fun db => db.events[eventId]?
  let relatedIds := (events.map Prod.fst).filter (· ≠ eventId)
  if current.isSome && !relatedIds.isEmpty then
    Session.modify fun db => { db with
      events := db.events.modify eventId
        (applyCorrelation (call.entityType ++ ":" ++ call.entityKey) relatedIds) }
  else pure ()

def findCorrelated (eventId : ℕ) : Session CorrelatedEvents := do
  let n ← sqlLimit call.limit
  let events ← Session.query (selectCorrelated env call n)
  let items := events.map correlatedItem
  if env.autoRaise && 1 < items.length then raisePriority call eventId events else pure ()
  pure { items, total := items.length }

end

def CorrelatedItem.json (item : CorrelatedItem) : Json :=
  .obj [("event_id", .str (toString item.eventId)), ("title", Json.orNull item.title),
    ("status", .str item.status), ("risk_score", .float item.riskScore),
    ("alert_count", .int item.alertCount), ("host", Json.orNull item.host),
    ("user", Json.orNull item.user), ("category", Json.orNull item.category)]

/-- The result that is made of the events found. -/
def CorrelatedEvents.result (call : HistoryCall) (found : CorrelatedEvents) : SkillResult where
  success := true
  summary := takeText 500 ("Found " ++ toString found.items.length ++ " events correlated with "
    ++ call.entityType ++ ":" ++ call.entityKey ++ " in last " ++ toString call.windowHours
    ++ "h.")
  data := .obj [("total", .int found.total), ("events", .arr (found.items.map CorrelatedItem.json)),
    ("mode", .str "correlated_events")]
  evidenceRef := "correlated_events:" ++ call.entityType ++ ":" ++ call.entityKey

/-- `QueryHistoryAlertsSkill.execute` in the mode for correlated events. -/
def correlatedEvents (env : HistoryEnv) (call : HistoryCall) (eventId : ℕ) : Session SkillResult :=
  if (fieldMap call.entityType).isNone || call.entityKey = "" then
    pure { success := false, summary := "Invalid entity_type or entity_key"
           error := some "invalid_params" }
  else do
    let found ← findCorrelated env call eventId
    pure (found.result call)

section

variable (env : HistoryEnv) (call : HistoryCall) (eventId : ℕ)

def correlatedIds (db : Db) : List ℕ := (joinedRows env call db).map (·.2.1)

def listedIds (db : Db) : List ℕ := (selectCorrelated env call call.limit.toNat db).map Prod.fst

def queuePriorityOf (db : Db) : Option ℤ := (db.events[eventId]?).map (·.queuePriority)

structure RelatedFit (ids : List ℕ) : Prop where
  nodup : ids.Nodup
  others : eventId ∉ ids
  length : ids.length ≤ 20

/-- What a call found in a database and left behind is right. -/
structure CountedOnce (db : Db) (found : CorrelatedEvents) (after : Db) : Prop where
  once : (found.items.map (·.eventId)).Nodup
  correlated : ∀ item ∈ found.items, item.eventId ∈ correlatedIds env call db
  upToLimit : found.items.length =
    min call.limit.toNat (correlatedIds env call db).dedup.length
  total : found.total = (found.items.map (·.eventId)).dedup.length
  raised : ∀ p p', queuePriorityOf eventId db = some p → queuePriorityOf eventId after = some p' →
    p < p' → ∃ id ∈ correlatedIds env call db, id ≠ eventId
  related : ∀ event, after.events[eventId]? = some event →
    RelatedFit eventId (event.relatedEventIds.getD [])
  repeatable : ∀ env' found' w w', env'.autoRaise = env.autoRaise → w.db = after →
    listedIds env' call after = listedIds env call db →
    exec (findCorrelated env' call eventId) w = (.ok found', w') →
    queuePriorityOf eventId w'.db = queuePriorityOf eventId after

def Raises (db : Db) : Prop :=
  env.autoRaise = true ∧ 1 < (listedIds env call db).length ∧
    ∃ id ∈ listedIds env call db, id ≠ eventId

/-- The rows that are listed are of different events, and the event's related events and priority
are as the call leaves them. -/
structure RowsApart (db : Db) : Prop where
  apart : (listedIds env call db).Nodup
  kept : ∀ event, db.events[eventId]? = some event → ¬ Raises env call eventId db →
    RelatedFit eventId (event.relatedEventIds.getD [])
  merged : ∀ event, db.events[eventId]? = some event → Raises env call eventId db →
    RelatedFit eventId ((event.relatedEventIds.getD []).take 20)
  settled : ∀ event, db.events[eventId]? = some event → Raises env call eventId db →
    99 ≤ event.queuePriority

instance (db : Db) : Decidable (Raises env call eventId db) :=
  inferInstanceAs (Decidable (_ ∧ _ ∧ _))

def otherIds (db : Db) : List ℕ := (listedIds env call db).filter (· ≠ eventId)

def afterCall (db : Db) : Db :=
  if Raises env call eventId db then
    { db with
      events := db.events.modify eventId
        (applyCorrelation (call.entityType ++ ":" ++ call.entityKey)
          (otherIds env call eventId db)) }
  else db

end

section

variable {env : HistoryEnv} {call : HistoryCall} {eventId : ℕ} {db : Db} {found : CorrelatedEvents}
  {w w' : World}

theorem otherIds_ne_nil : otherIds env call eventId db ≠ [] ↔
    ∃ id ∈ listedIds env call db, id ≠ eventId := by
  rw [otherIds, ne_eq, List.filter_eq_nil_iff]
  simp

theorem exec_raisePriority (w : World) :
    exec (raisePriority call eventId (selectCorrelated env call call.limit.toNat w.db)) w =
      (.ok (), { w with db := if otherIds env call eventId w.db ≠ [] then
        { w.db with
          events := w.db.events.modify eventId
            (applyCorrelation (call.entityType ++ ":" ++ call.entityKey)
              (otherIds env call eventId w.db)) } else w.db }) := by
  have hothers : ((selectCorrelated env call call.limit.toNat w.db).map Prod.fst).filter
      (· ≠ eventId) = otherIds env call eventId w.db := rfl
  rw [raisePriority, exec_query_bind]
  dsimp only
  rw [hothers]
  cases hevent : w.db.events[eventId]? with
  | none =>
    have hsame : w.db.events.modify eventId (applyCorrelation
        (call.entityType ++ ":" ++ call.entityKey) (otherIds env call eventId w.db)) =
        w.db.events := List.modify_eq_self (List.getElem?_eq_none_iff.mp hevent)
    rw [hsame]
    simp
  | some event =>
    by_cases hnone : otherIds env call eventId w.db = []
    · simp [hnone]
    · simp [hnone]

theorem exec_findCorrelated (h : exec (findCorrelated env call eventId) w = (.ok found, w')) :
    0 ≤ call.limit ∧
      found.items = (selectCorrelated env call call.limit.toNat w.db).map correlatedItem ∧
      found.total = found.items.length ∧ w'.db = afterCall env call eventId w.db := by
  unfold findCorrelated at h
  obtain ⟨n, w₁, hlimit, h⟩ := exec_bind_ok.mp h
  obtain ⟨hpos, rfl, rfl⟩ := exec_sqlLimit_ok.mp hlimit
  rw [exec_query_bind] at h
  dsimp only at h
  have hraises : Raises env call eventId w.db ↔ (env.autoRaise = true ∧
      1 < ((selectCorrelated env call call.limit.toNat w.db).map correlatedItem).length) ∧
        otherIds env call eventId w.db ≠ [] := by
    rw [Raises, otherIds_ne_nil, listedIds, List.length_map, List.length_map, and_assoc]
  split at h
  · rename_i hauto
    rw [Bool.and_eq_true, decide_eq_true_eq] at hauto
    rw [exec_bind_of_ok (exec_raisePriority w), exec_pure] at h
    obtain ⟨hfound, rfl⟩ := Prod.mk.inj h
    obtain rfl := Except.ok.inj hfound
    refine ⟨hpos, rfl, rfl, ?_⟩
    simp only [afterCall, hraises, hauto, true_and]
  · rename_i hauto
    rw [Bool.and_eq_true, decide_eq_true_eq] at hauto
    rw [exec_pure] at h
    obtain ⟨hfound, rfl⟩ := Prod.mk.inj h
    obtain rfl := Except.ok.inj hfound
    exact ⟨hpos, rfl, rfl, (if_neg fun hr => hauto (hraises.mp hr).1).symm⟩

/-- The write of a call is the one that the agent loop makes of the correlation it answers. -/
theorem exec_recordCorrelation (ctx : InvestigationContext) (request : ToolCallRequest)
    (hname : request.name = "query_history_alerts") (answer : SkillAnswer)
    (hanswer : answer.correlated = if Raises env call ctx.eventId w.db then
      some (call.entityType ++ ":" ++ call.entityKey, otherIds env call ctx.eventId w.db)
      else none) :
    exec (recordCorrelation ctx request answer) w =
      (.ok (), { w with db := afterCall env call ctx.eventId w.db }) := by
  unfold recordCorrelation afterCall
  rw [hanswer]
  by_cases hraises : Raises env call ctx.eventId w.db
  · have hsome := otherIds_ne_nil.mpr hraises.2.2
    simp only [if_pos hraises, hname, hsome, ne_eq, not_false_eq_true, and_self, if_true]
    rfl
  · simp only [if_neg hraises]
    rfl

variable (env call db) in
theorem listedIds_perm_take : ∃ ids : List ℕ, ids.Perm (correlatedIds env call db) ∧
    listedIds env call db = ids.take call.limit.toNat := by
  refine ⟨_, (List.perm_insertionSort (Rows.descending
    (fun row : ℕ × ℕ × Event => Rows.nullHigh row.2.2.lastAlertAt) fun row => env.tie row.1)
    (joinedRows env call db)).map fun row => row.2.1, ?_⟩
  rw [listedIds, selectCorrelated, Rows.orderLimit, List.map_map, List.map_take]
  rfl

/-- A listing without repetitions has as many entries as the limit and the distinct ids allow. -/
theorem length_take_of_nodup {ids all : List ℕ} (hperm : ids.Perm all) {n : ℕ}
    (h : (ids.take n).Nodup) : (ids.take n).length = min n all.dedup.length := by
  have hle : (ids.take n).length ≤ all.dedup.length := by
    have hsub : ids.take n ⊆ all.dedup := by
      intro id hid
      exact List.mem_dedup.mpr (hperm.subset (List.mem_of_mem_take hid))
    exact (h.subperm hsub).length_le
  have hdedup : all.dedup.length ≤ ids.length := by
    rw [hperm.length_eq]
    exact (List.dedup_sublist all).length_le
  rw [List.length_take] at hle ⊢
  omega

theorem mem_correlatedIds_of_listed {id : ℕ} (h : id ∈ listedIds env call db) :
    id ∈ correlatedIds env call db := by
  obtain ⟨ids, hperm, hlisted⟩ := listedIds_perm_take env call db
  rw [hlisted] at h
  exact hperm.subset (List.mem_of_mem_take h)

theorem events_afterCall (k : ℕ) :
    (afterCall env call eventId db).events[k]? = (db.events[k]?).map
      (if Raises env call eventId db ∧ k = eventId then
        applyCorrelation (call.entityType ++ ":" ++ call.entityKey) (otherIds env call eventId db)
      else id) := by
  unfold afterCall
  by_cases hraises : Raises env call eventId db
  · rw [if_pos hraises]
    by_cases hk : k = eventId
    · subst hk
      rw [if_pos ⟨hraises, rfl⟩]
      exact List.getElem?_modify_eq ..
    · rw [if_neg fun h => hk h.2, Option.map_id, id]
      exact List.getElem?_modify_ne _ _ (Ne.symm hk)
  · rw [if_neg hraises, if_neg fun h => hraises h.1, Option.map_id, id]

theorem queuePriorityOf_afterCall :
    queuePriorityOf eventId (afterCall env call eventId db) =
      if Raises env call eventId db then
        (queuePriorityOf eventId db).map fun p => min (p + 1) 100
      else queuePriorityOf eventId db := by
  rw [queuePriorityOf, events_afterCall]
  by_cases hraises : Raises env call eventId db
  · rw [if_pos ⟨hraises, rfl⟩, if_pos hraises, queuePriorityOf, Option.map_map, Option.map_map]
    rfl
  · rw [if_neg fun h => hraises h.1, if_neg hraises, Option.map_id]
    rfl

theorem listedIds_afterCall :
    listedIds env call (afterCall env call eventId db) = listedIds env call db := by
  let update (row : ℕ × ℕ × Event) : ℕ × ℕ × Event :=
    (row.1, row.2.1, if Raises env call eventId db ∧ row.2.1 = eventId then
      applyCorrelation (call.entityType ++ ":" ++ call.entityKey) (otherIds env call eventId db)
        row.2.2
    else row.2.2)
  have hrows : joinedRows env call (afterCall env call eventId db) =
      (joinedRows env call db).map update := by
    have hlinks : (afterCall env call eventId db).eventAlerts = db.eventAlerts := by
      unfold afterCall
      split <;> rfl
    have halerts : (afterCall env call eventId db).alerts = db.alerts := by
      unfold afterCall
      split <;> rfl
    rw [joinedRows, joinedRows, hlinks, halerts, List.map_filterMap]
    apply List.filterMap_congr
    intro row _
    rw [events_afterCall, Option.map_map, Option.map_map]
    congr 1
    funext event
    simp only [Function.comp_apply, update]
    split <;> rfl
  have hsort := List.map_insertionSort
    (Rows.descending (fun row : ℕ × ℕ × Event => Rows.nullHigh row.2.2.lastAlertAt)
      fun row => env.tie row.1)
    (Rows.descending (fun row : ℕ × ℕ × Event => Rows.nullHigh row.2.2.lastAlertAt)
      fun row => env.tie row.1) update (joinedRows env call db) fun a _ b _ => by
        have hkey (row : ℕ × ℕ × Event) : (update row).2.2.lastAlertAt = row.2.2.lastAlertAt := by
          simp only [update]
          split <;> rfl
        simp only [Rows.descending, hkey]
        rfl
  rw [listedIds, listedIds, selectCorrelated, selectCorrelated, Rows.orderLimit, Rows.orderLimit,
    hrows, ← hsort, List.map_map, List.map_map, ← List.map_take, List.map_map]
  rfl

variable (env call eventId) in
theorem findCorrelated_returns (hlimit : 0 ≤ call.limit) (w : World) :
    ∃ found w', exec (findCorrelated env call eventId) w = (.ok found, w') := by
  have hsql : exec (sqlLimit call.limit) w = (.ok call.limit.toNat, w) :=
    exec_sqlLimit_ok.mpr ⟨hlimit, rfl, rfl⟩
  unfold findCorrelated
  rw [exec_bind_of_ok hsql, exec_query_bind]
  dsimp only
  split
  · rw [exec_bind_of_ok (exec_raisePriority w)]
    exact ⟨_, _, exec_pure⟩
  · exact ⟨_, _, exec_pure⟩

theorem merge_eq (related known : List ℕ) :
    ∃ new : List ℕ, related.foldl
        (fun merged rid => if merged.contains rid then merged else merged ++ [rid]) known =
          known ++ new ∧ new.Nodup ∧ (∀ id ∈ new, id ∉ known) ∧ new ⊆ related := by
  induction related generalizing known with
  | nil => exact ⟨[], by simp, List.nodup_nil, nofun, nofun⟩
  | cons rid related ih =>
    rw [List.foldl_cons]
    split
    · obtain ⟨new, heq, hnodup, hfresh, hsub⟩ := ih known
      exact ⟨new, heq, hnodup, hfresh, fun id hid => List.mem_cons_of_mem _ (hsub hid)⟩
    · rename_i hnot
      obtain ⟨new, heq, hnodup, hfresh, hsub⟩ := ih (known ++ [rid])
      refine ⟨rid :: new, by rw [heq, List.append_assoc]; rfl, ?_, ?_, ?_⟩
      · refine List.nodup_cons.mpr ⟨fun hmem => hfresh rid hmem ?_, hnodup⟩
        exact List.mem_append_right _ List.mem_cons_self
      · intro id hid hknown
        rcases List.mem_cons.mp hid with rfl | hid
        · exact hnot (List.contains_iff_mem.mpr hknown)
        · exact hfresh id hid (List.mem_append_left _ hknown)
      · exact List.cons_subset_cons _ hsub

/-- Merging others leaves the related events fit exactly if those that are kept were. -/
theorem relatedFit_merge {related known : List ℕ} (hothers : eventId ∉ related) :
    RelatedFit eventId ((related.foldl (fun merged rid =>
        if merged.contains rid then merged else merged ++ [rid]) known).take 20) ↔
      RelatedFit eventId (known.take 20) := by
  obtain ⟨new, heq, hnodup, hfresh, hsub⟩ := merge_eq related known
  rw [heq, List.take_append]
  constructor
  · rintro ⟨hall, hnot, -⟩
    refine ⟨(List.nodup_append.mp hall).1, fun hmem => hnot (List.mem_append_left _ hmem), ?_⟩
    exact List.length_take_le _ _
  · rintro ⟨hall, hnot, -⟩
    constructor
    · refine List.nodup_append.mpr ⟨hall, (List.take_sublist _ _).nodup hnodup, ?_⟩
      rintro id hid _ hnew rfl
      exact hfresh id (List.mem_of_mem_take hnew) (List.mem_of_mem_take hid)
    · intro hmem
      rcases List.mem_append.mp hmem with hmem | hmem
      · exact hnot hmem
      · exact hothers (hsub (List.mem_of_mem_take hmem))
    · rw [List.length_append, List.length_take, List.length_take]
      omega

/-- The related events that a call leaves are fit exactly if those it kept were. -/
theorem related_afterCall :
    (∀ event, (afterCall env call eventId db).events[eventId]? = some event →
        RelatedFit eventId (event.relatedEventIds.getD [])) ↔
      ∀ event, db.events[eventId]? = some event →
        if Raises env call eventId db then
          RelatedFit eventId ((event.relatedEventIds.getD []).take 20)
        else RelatedFit eventId (event.relatedEventIds.getD []) := by
  have hothers : eventId ∉ otherIds env call eventId db := by
    intro hmem
    exact absurd rfl (of_decide_eq_true (List.mem_filter.mp hmem).2)
  rw [events_afterCall]
  by_cases hraises : Raises env call eventId db
  · simp only [hraises, if_true, and_self, Option.map_eq_some_iff, forall_exists_index, and_imp,
      forall_apply_eq_imp_iff₂]
    apply forall₂_congr
    intro event _
    exact relatedFit_merge hothers
  · simp [hraises]

theorem raises_congr {env' : HistoryEnv} {db' : Db} (hauto : env'.autoRaise = env.autoRaise)
    (hlisted : listedIds env' call db' = listedIds env call db) :
    Raises env' call eventId db' ↔ Raises env call eventId db := by
  rw [Raises, Raises, hauto, hlisted]

theorem ids_of_exec (h : exec (findCorrelated env call eventId) w = (.ok found, w')) :
    found.items.map (·.eventId) = listedIds env call w.db := by
  rw [(exec_findCorrelated h).2.1, List.map_map]
  rfl

/-- A second call that lists the same events raises the priority as the first one did. -/
theorem queuePriorityOf_repeated {env' : HistoryEnv} {found' : CorrelatedEvents} {w₁ w₂ : World}
    (h : exec (findCorrelated env call eventId) w = (.ok found, w'))
    (hauto : env'.autoRaise = env.autoRaise) (hdb : w₁.db = w'.db)
    (hlisted : listedIds env' call w'.db = listedIds env call w.db)
    (hsecond : exec (findCorrelated env' call eventId) w₁ = (.ok found', w₂)) :
    queuePriorityOf eventId w₂.db =
      if Raises env call eventId w.db then
        (queuePriorityOf eventId w.db).map fun p => min (min (p + 1) 100 + 1) 100
      else queuePriorityOf eventId w.db := by
  have hafter := (exec_findCorrelated h).2.2.2
  have hsame : Raises env' call eventId w'.db ↔ Raises env call eventId w.db :=
    raises_congr hauto hlisted
  rw [(exec_findCorrelated hsecond).2.2.2, hdb, queuePriorityOf_afterCall, hafter,
    queuePriorityOf_afterCall, ← hafter]
  by_cases hraises : Raises env call eventId w.db
  · rw [if_pos (hsame.mpr hraises), if_pos hraises, if_pos hraises, Option.map_map]
    rfl
  · rw [if_neg fun hr => hraises (hsame.mp hr), if_neg hraises, if_neg hraises]

/-- A repeated call keeps the priority exactly if the first one left it at its bound. -/
theorem repeatable_iff (h : exec (findCorrelated env call eventId) w = (.ok found, w')) :
    (∀ env' found' w₁ w₂, env'.autoRaise = env.autoRaise → w₁.db = w'.db →
      listedIds env' call w'.db = listedIds env call w.db →
      exec (findCorrelated env' call eventId) w₁ = (.ok found', w₂) →
      queuePriorityOf eventId w₂.db = queuePriorityOf eventId w'.db) ↔
    ∀ event, w.db.events[eventId]? = some event → Raises env call eventId w.db →
      99 ≤ event.queuePriority := by
  obtain ⟨hlimit, -, -, hafter⟩ := exec_findCorrelated h
  constructor
  · intro hkeeps event hevent hraises
    have hlisted : listedIds env call w'.db = listedIds env call w.db := by
      rw [hafter, listedIds_afterCall]
    obtain ⟨found', w₂, hsecond⟩ := findCorrelated_returns env call eventId hlimit w'
    have hsame := hkeeps env found' w' w₂ rfl rfl hlisted hsecond
    rw [queuePriorityOf_repeated h rfl rfl hlisted hsecond, if_pos hraises, hafter,
      queuePriorityOf_afterCall, if_pos hraises, queuePriorityOf, hevent] at hsame
    simp only [Option.map_some, Option.some.injEq] at hsame
    omega
  · intro hsettled env' found' w₁ w₂ hauto hdb hlisted hsecond
    rw [queuePriorityOf_repeated h hauto hdb hlisted hsecond, hafter, queuePriorityOf_afterCall]
    split
    · rename_i hraises
      rw [queuePriorityOf]
      cases hevent : w.db.events[eventId]? with
      | none => rfl
      | some event =>
        have hbound := hsettled event hevent hraises
        simp only [Option.map_some, Option.some.injEq]
        omega
    · rfl

theorem rowsApart_of_countedOnce (hrun : exec (findCorrelated env call eventId) w = (.ok found, w'))
    (h : CountedOnce env call eventId w.db found w'.db) : RowsApart env call eventId w.db := by
  have hrelated := related_afterCall.mp ((exec_findCorrelated hrun).2.2.2 ▸ h.related)
  constructor
  · exact ids_of_exec hrun ▸ h.once
  · intro event hevent hraises
    have hfit := hrelated event hevent
    rwa [if_neg hraises] at hfit
  · intro event hevent hraises
    have hfit := hrelated event hevent
    rwa [if_pos hraises] at hfit
  · exact (repeatable_iff hrun).mp h.repeatable

theorem countedOnce_of_rowsApart (hrun : exec (findCorrelated env call eventId) w = (.ok found, w'))
    (h : RowsApart env call eventId w.db) : CountedOnce env call eventId w.db found w'.db := by
  obtain ⟨-, -, htotal, hafter⟩ := exec_findCorrelated hrun
  have hids := ids_of_exec hrun
  constructor
  · rw [hids]
    exact h.apart
  · intro item hitem
    apply mem_correlatedIds_of_listed
    rw [← hids]
    exact List.mem_map_of_mem hitem
  · obtain ⟨ids, hperm, hlisted⟩ := listedIds_perm_take env call w.db
    have hapart := h.apart
    rw [hlisted] at hapart
    have hlength := length_take_of_nodup hperm hapart
    rw [← hlisted, ← hids, List.length_map] at hlength
    exact hlength
  · rw [htotal, hids, List.Nodup.dedup h.apart, ← hids, List.length_map]
  · intro p p' hp hp' hlt
    by_cases hraises : Raises env call eventId w.db
    · obtain ⟨id, hid, hne⟩ := hraises.2.2
      exact ⟨id, mem_correlatedIds_of_listed hid, hne⟩
    · rw [hafter, queuePriorityOf_afterCall, if_neg hraises, hp] at hp'
      exact absurd (Option.some.inj hp') (ne_of_lt hlt)
  · rw [hafter]
    apply related_afterCall.mpr
    intro event hevent
    split
    · rename_i hraises
      exact h.merged event hevent hraises
    · rename_i hraises
      exact h.kept event hevent hraises
  · exact (repeatable_iff hrun).mpr h.settled

end

def hostCall : HistoryCall := { entityType := "host", entityKey := "web-1" }

def hostAlert (n : ℕ) : Alert where
  dataSourceId := 0
  sourceAlertId := toString n
  fingerprint := toString n
  occurredAt := 0
  ingestedAt := 0
  hostName := some "web-1"

def hostWorld (alerts : ℕ) : World where
  db := {
    alerts := (List.range alerts).map hostAlert
    events := [{ eventKey := "web-1|root", createdAt := 0, lastAlertAt := some 0 }]
    eventAlerts := (List.range alerts).map fun n => { eventId := 0, alertId := n, addedAt := 0 } }

/-- Two events with an alert of the host each, of which the first one is urgent. -/
def twoEventsWorld : World where
  db := {
    alerts := (List.range 2).map hostAlert
    events := [
      { eventKey := "web-1|root", createdAt := 0, lastAlertAt := some 0, queuePriority := 99 },
      { eventKey := "web-1|alice", createdAt := 0, lastAlertAt := some 0 }]
    eventAlerts := (List.range 2).map fun n => { eventId := n, alertId := n, addedAt := 0 } }

end Minsight

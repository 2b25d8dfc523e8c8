import Minsight.Aggregation.Effects
import Minsight.Concurrency.Jobs

/-! # What runs know of the database

What a transaction has written is a function of where it is. What an aggregation has read stays
true until a transaction of the same key or an investigation of the event commits, and what an
investigation has read stays true because it keeps its event locked.
-/

namespace Minsight

open Program

def Placement.inserted (p : Placement) : List JobWrite :=
  if p.target.isNone then [.insertEvent p.event] else []

/-- What a placement has written when it is at a stage. -/
def Placement.log (p : Placement) : PlacingStage → List JobWrite
  | .insertEvent => []
  | .maxSeverity | .updateEvent _ => p.inserted
  | .updateAlert m => p.inserted ++ [.updateEvent p.target p.event (p.updated m)]
  | .insertLink m => p.inserted ++
    [.updateEvent p.target p.event (p.updated m), .updateAlert p.item.alertId]
  | .commit m => p.inserted ++
    [.updateEvent p.target p.event (p.updated m), .updateAlert p.item.alertId,
      .insertLink p.target p.item.alertId p.now]

def ExaminingStage.log (row : Investigation) : ExaminingStage → List JobWrite
  | .markEvent => [.insertInvestigation row]
  | .readAlerts | .conclude _ => [.insertInvestigation row, .markEvent row.eventId]
  | .commit alerts t result =>
    [.insertInvestigation row, .markEvent row.eventId, .recordOutcome row.eventId alerts t result]

def JobPoint.log : JobPoint → List JobWrite
  | .placing _ _ p stage => p.log stage
  | .examining _ _ row stage => stage.log row
  | _ => []

def eventKeyOf (db : Db) (eventId : ℕ) : Option String := (db.events[eventId]?).map (·.eventKey)

/-- The event that a placement links its alert to. -/
def Placement.eventId (p : Placement) (db : Db) : ℕ := p.target.getD db.events.length

structure LinkAdded (p : Placement) (maxSeverity : ℤ) (db db' : Db) : Prop where
  links : db'.eventAlerts = db.eventAlerts ++
    [{ eventId := p.eventId db, alertId := p.item.alertId, addedAt := p.now }]
  investigations : db'.investigations = db.investigations
  events : db'.events = p.target.elim (db.events ++ [p.updated maxSeverity]) fun e =>
    db.events.modify e (flushStats p.event (p.updated maxSeverity))

structure EventConcluded (eventId : ℕ) (db db' : Db) : Prop where
  links : db'.eventAlerts = db.eventAlerts
  investigations : db'.investigations.map (·.eventId) =
    db.investigations.map (·.eventId) ++ [eventId]
  events : ∃ status, status ≠ EventStatus.pendingReview ∧
    db'.events = db.events.modify eventId fun e => { e with status := status }

section

variable {rt : Runtime} {p q : Placement} {m : ℤ} {s : JobStore} {db db' : Db} {row : Investigation}
  {alerts : List ℕ} {t : Time} {result : AgentLoopResult} {e : ℕ}

theorem flushColumn_self {α : Type} [DecidableEq α] (old new : α) :
    flushColumn old new old = new := by
  unfold flushColumn
  split
  · exact (‹new = old›).symm
  · rfl

/-- An event that nobody has changed since it was loaded becomes what the session made of it. -/
theorem flushStats_updated : flushStats p.event (p.updated m) p.event = p.updated m := by
  simp only [flushStats, flushColumn_self]
  rfl

theorem alertCount_flushStats (event : Event) :
    (flushStats p.event (p.updated m) event).alertCount = p.event.alertCount + 1 := by
  simp [flushStats, flushColumn, Placement.updated, updateEventStats]

theorem applyAll_placing :
    (jobProgram rt).applyAll (p.log (.commit m)) s = { s with db := { s.db with
      events := p.target.elim (s.db.events ++ [p.updated m]) fun e =>
        s.db.events.modify e (flushStats p.event (p.updated m))
      alerts := s.db.alerts.modify p.item.alertId fun a => { a with status := .eventLinked }
      eventAlerts := s.db.eventAlerts ++
        [{ eventId := p.eventId s.db, alertId := p.item.alertId, addedAt := p.now }] } } := by
  cases htarget : p.target with
  | some e =>
    simp only [Placement.log, Placement.inserted, htarget, Placement.eventId]
    rfl
  | none =>
    have hlast : (s.db.events ++ [p.event]).modify s.db.events.length
        (flushStats p.event (p.updated m)) = s.db.events ++ [p.updated m] := by
      rw [Rows.update_insert, flushStats_updated]
    simp only [Placement.log, Placement.inserted, htarget, Placement.eventId, Option.isNone_none,
      if_true, List.cons_append, List.nil_append, applyAll_cons, applyAll_nil, jobProgram,
      JobWrite.apply, targetKey, Option.getD_none, hlast, Option.elim_none,
      List.length_append, List.length_singleton, Nat.add_sub_cancel]

theorem linkAdded_of_commit :
    LinkAdded p m s.db ((jobProgram rt).applyAll (p.log (.commit m)) s).db := by
  rw [applyAll_placing]
  exact ⟨rfl, rfl, rfl⟩

theorem applyAll_placing_recordLink
    (h : ∀ e, p.target = some e → s.db.events[e]? = some p.event) :
    ((jobProgram rt).applyAll (p.log (.commit m)) s).db =
      recordLink p.item (p.eventId s.db) p.now m (p.target.elim
        { s.db with events := s.db.events ++ [p.event] } fun _ => s.db) := by
  rw [applyAll_placing]
  cases htarget : p.target with
  | some e =>
    have hsame : s.db.events.modify e (flushStats p.event (p.updated m)) =
        s.db.events.modify e (updateEventStats p.item.alert p.item.triage m) := by
      refine Rows.update_congr fun event hevent => ?_
      obtain rfl : p.event = event := Option.some.inj ((h e htarget).symm.trans hevent)
      exact flushStats_updated
    rw [Option.elim_some, Option.elim_some, hsame, Placement.eventId, htarget]
    rfl
  | none =>
    have hlast : (s.db.events ++ [p.event]).modify s.db.events.length
        (updateEventStats p.item.alert p.item.triage m) = s.db.events ++ [p.updated m] :=
      Rows.update_insert
    rw [Option.elim_none, Option.elim_none, ← hlast, Placement.eventId, htarget]
    rfl

theorem applyAll_examining :
    (jobProgram rt).applyAll (ExaminingStage.log row (.commit alerts t result)) s = {
      db := recordOutcome s.db.investigations.length row.eventId t result
        ((s.db.addInvestigation row).setEventStatus row.eventId .investigating)
      verdicts := s.verdicts ++ [{
        eventId := row.eventId, alerts, linked := alertsOf s.db.eventAlerts row.eventId }] } := by
  have hkey : (s.db.investigations ++ [row]).length - 1 = s.db.investigations.length := by simp
  simp only [ExaminingStage.log, applyAll_cons, applyAll_nil, jobProgram, JobWrite.apply,
    Db.setEventStatus, Db.addInvestigation, hkey]

theorem eventConcluded_of_commit : EventConcluded row.eventId s.db
    ((jobProgram rt).applyAll (ExaminingStage.log row (.commit alerts t result)) s).db := by
  rw [applyAll_examining]
  refine ⟨rfl, ?_, verdictEventStatus result.conclusion.verdict, ?_, ?_⟩
  · have hupdate : ((s.db.investigations ++ [row]).modify s.db.investigations.length fun i =>
        { i with status := finalStatus result, finishedAt := some t }).map (·.eventId) =
        (s.db.investigations ++ [row]).map (·.eventId) := Rows.map_update_eq fun _ => rfl
    exact hupdate.trans List.map_append
  · cases result.conclusion.verdict <;> exact nofun
  · exact List.modify_modify_eq _ _ _ _

end

def untouched (db : Db) (p : Placement) : Bool :=
  (db.eventAlerts.drop p.links).all fun l => eventKeyOf db l.eventId != some p.eventKey

/-- No investigation of the event that was found was committed since the lookup. -/
def unexamined (db : Db) (p : Placement) : Bool :=
  p.target.all fun e => !((db.investigations.map (·.eventId)).drop p.investigations).contains e

structure PlacementKnown (db : Db) (p : Placement) : Prop where
  links_le : p.links ≤ db.eventAlerts.length
  investigations_le : p.investigations ≤ db.investigations.length
  found : ∀ e, p.target = some e → eventKeyOf db e = some p.eventKey
  awaits : ∀ e, p.target = some e → unexamined db p = true →
    (db.events[e]?).map (·.status) = some .pendingReview
  counted : ∀ e, p.target = some e → untouched db p = true →
    (db.events[e]?).map (·.alertCount) = some p.event.alertCount
  created : p.target = none →
    p.event.eventKey = p.eventKey ∧ p.event.status = .pendingReview ∧ p.event.alertCount = 0
  alone : p.target = none → untouched db p = true → ∀ event ∈ db.events,
    event.eventKey = p.eventKey → event.status ≠ .pendingReview

def StageKnown (db : Db) (p : Placement) : PlacingStage → Prop
  | .insertEvent => p.target = none
  | .commit _ => ∀ l ∈ db.eventAlerts, l.alertId ≠ p.item.alertId
  | _ => True

/-- The alerts that an investigation has read. -/
def ExaminingStage.alerts : ExaminingStage → Option (List ℕ)
  | .conclude alerts | .commit alerts _ _ => some alerts
  | _ => none

/-- What an investigation has read are the alerts that are linked to its event. -/
def AlertsKnown (db : Db) (row : Investigation) (stage : ExaminingStage) : Prop :=
  ∀ alerts, stage.alerts = some alerts →
    row.eventId < db.events.length ∧ alertsOf db.eventAlerts row.eventId = alerts

def JobKnown (db : Db) : JobPoint → Prop
  | .placing _ _ p stage => PlacementKnown db p ∧ StageKnown db p stage
  | .examining _ _ row stage => AlertsKnown db row stage
  | _ => True

structure JobHeld (s : JobStore) (c : Connection JobWrite JobPoint) : Prop where
  log : c.log = c.point.log
  known : JobKnown s.db c.point

section

variable {rt : Runtime} {p q : Placement} {m : ℤ} {db db' : Db} {row : Investigation}
  {stage : ExaminingStage} {e : ℕ}

theorem LinkAdded.column {β : Type} {g : Event → β} {x : β} (h : LinkAdded p m db db')
    (hg : ∀ event, g (flushStats p.event (p.updated m) event) = g event)
    (hx : (db.events[e]?).map g = some x) : (db'.events[e]?).map g = some x := by
  rw [h.events]
  cases p.target with
  | some target =>
    rw [Option.elim_some, ← List.getElem?_map, Rows.map_update_eq hg, List.getElem?_map]
    exact hx
  | none =>
    obtain ⟨event, hevent, -⟩ := Option.map_eq_some_iff.mp hx
    rw [Option.elim_none, List.getElem?_append_left (Rows.lt_of_getElem? hevent)]
    exact hx

theorem LinkAdded.other (h : LinkAdded p m db db') (hne : p.eventId db ≠ e) :
    db'.events[e]? = db.events[e]? := by
  rw [h.events]
  cases htarget : p.target with
  | some target =>
    have htargetNe : target ≠ e := by simpa [Placement.eventId, htarget] using hne
    rw [Option.elim_some, List.getElem?_modify_ne _ _ htargetNe]
  | none =>
    have hlength : e ≠ db.events.length := by
      rw [Placement.eventId, htarget, Option.getD_none] at hne
      exact hne.symm
    refine Option.ext fun event => ?_
    rw [Option.elim_none, Rows.getElem?_insert]
    exact ⟨fun hevent => hevent.resolve_right fun hnew => hlength hnew.1, .inl⟩

theorem LinkAdded.key (h : LinkAdded p m db db') (hp : PlacementKnown db p) :
    eventKeyOf db' (p.eventId db) = some p.eventKey := by
  cases htarget : p.target with
  | some e =>
    rw [Placement.eventId, htarget]
    exact h.column (fun _ => rfl) (hp.found e htarget)
  | none =>
    rw [eventKeyOf, h.events, htarget, Placement.eventId, htarget, Option.elim_none,
      Option.getD_none, List.getElem?_concat_length]
    exact congrArg some (hp.created htarget).1

theorem LinkAdded.before (h : LinkAdded p m db db') (hp : PlacementKnown db p)
    (hq : PlacementKnown db q) (huntouched : untouched db' q = true) :
    untouched db q = true ∧ p.eventKey ≠ q.eventKey := by
  rw [untouched, h.links, List.drop_append_of_le_length hq.links_le, List.all_append,
    Bool.and_eq_true] at huntouched
  obtain ⟨hold, hnew⟩ := huntouched
  constructor
  · refine List.all_eq_true.mpr fun l hl => bne_iff_ne.mpr fun hkey => ?_
    have hkey' := List.all_eq_true.mp hold l hl
    rw [show eventKeyOf db' l.eventId = some q.eventKey from h.column (fun _ => rfl) hkey] at hkey'
    exact bne_iff_ne.mp hkey' rfl
  · intro hkeys
    rw [List.all_cons, h.key hp, hkeys] at hnew
    simp at hnew

theorem LinkAdded.unexamined_eq (h : LinkAdded p m db db') :
    unexamined db' q = unexamined db q := by
  rw [unexamined, unexamined, h.investigations]

theorem PlacementKnown.linkAdded (hq : PlacementKnown db q) (hp : PlacementKnown db p)
    (h : LinkAdded p m db db') : PlacementKnown db' q where
  links_le := by
    rw [h.links, List.length_append]
    exact hq.links_le.trans (Nat.le_add_right _ _)
  investigations_le := h.investigations ▸ hq.investigations_le
  found := fun e htarget => h.column (fun _ => rfl) (hq.found e htarget)
  awaits := fun e htarget hunexamined =>
    h.column (fun _ => rfl) (hq.awaits e htarget (h.unexamined_eq ▸ hunexamined))
  counted := fun e htarget huntouched => by
    obtain ⟨hbefore, hkeys⟩ := h.before hp hq huntouched
    have hne : p.eventId db ≠ e := by
      rintro rfl
      have hkey := h.key hp
      rw [show eventKeyOf db' (p.eventId db) = some q.eventKey from
        h.column (fun _ => rfl) (hq.found _ htarget)] at hkey
      exact hkeys (Option.some.inj hkey).symm
    rw [h.other hne]
    exact hq.counted e htarget hbefore
  created := hq.created
  alone := fun htarget huntouched event hevent hkey => by
    obtain ⟨hbefore, hkeys⟩ := h.before hp hq huntouched
    rw [h.events] at hevent
    cases hp' : p.target with
    | some e =>
      rw [hp', Option.elim_some] at hevent
      rcases Rows.mem_update hevent with hmem | ⟨old, hmem, rfl⟩
      · exact hq.alone htarget hbefore event hmem hkey
      · exact hq.alone htarget hbefore old hmem hkey
    | none =>
      rw [hp', Option.elim_none] at hevent
      rcases List.mem_append.mp hevent with hmem | hmem
      · exact hq.alone htarget hbefore event hmem hkey
      · obtain rfl := List.mem_singleton.mp hmem
        exact absurd ((hp.created hp').1.symm.trans hkey) hkeys

theorem EventConcluded.column {β : Type} {g : Event → β} (h : EventConcluded e db db')
    (hg : ∀ (event : Event) status, g { event with status := status } = g event) (j : ℕ) :
    (db'.events[j]?).map g = (db.events[j]?).map g := by
  obtain ⟨status, -, hevents⟩ := h.events
  rw [hevents, ← List.getElem?_map, Rows.map_update_eq fun event => hg event status,
    List.getElem?_map]

theorem EventConcluded.untouched_eq (h : EventConcluded e db db') :
    untouched db' q = untouched db q := by
  have hkey : eventKeyOf db' = eventKeyOf db := funext fun j => h.column (fun _ _ => rfl) j
  rw [untouched, untouched, h.links, hkey]

theorem EventConcluded.before (h : EventConcluded e db db') (hq : PlacementKnown db q)
    (hunexamined : unexamined db' q = true) :
    unexamined db q = true ∧ q.target ≠ some e := by
  unfold unexamined at hunexamined ⊢
  cases htarget : q.target with
  | none => exact ⟨rfl, nofun⟩
  | some target =>
    have hle : q.investigations ≤ (db.investigations.map (·.eventId)).length := by
      rw [List.length_map]
      exact hq.investigations_le
    rw [htarget, h.investigations, List.drop_append_of_le_length hle] at hunexamined
    simp only [Option.all_some, Bool.not_eq_true', List.contains_eq_mem, decide_eq_false_iff_not,
      List.mem_append, List.mem_singleton, not_or] at hunexamined ⊢
    exact ⟨hunexamined.1, fun he => hunexamined.2 (Option.some.inj he)⟩

theorem PlacementKnown.eventConcluded (hq : PlacementKnown db q) (h : EventConcluded e db db') :
    PlacementKnown db' q where
  links_le := h.links ▸ hq.links_le
  investigations_le := by
    have hlength := congrArg List.length h.investigations
    simp only [List.length_map, List.length_append, List.length_singleton] at hlength
    have hle := hq.investigations_le
    omega
  found := fun j htarget => (h.column (fun _ _ => rfl) j).trans (hq.found j htarget)
  awaits := fun j htarget hunexamined => by
    obtain ⟨hbefore, hne⟩ := h.before hq hunexamined
    have hej : e ≠ j := fun hej => hne (hej ▸ htarget)
    obtain ⟨status, -, hevents⟩ := h.events
    rw [hevents, List.getElem?_modify_ne _ _ hej]
    exact hq.awaits j htarget hbefore
  counted := fun j htarget huntouched =>
    (h.column (fun _ _ => rfl) j).trans (hq.counted j htarget (h.untouched_eq ▸ huntouched))
  created := hq.created
  alone := fun htarget huntouched event hevent hkey => by
    have hbefore : untouched db q = true := h.untouched_eq ▸ huntouched
    obtain ⟨status, hstatus, hevents⟩ := h.events
    rw [hevents] at hevent
    rcases Rows.mem_update hevent with hmem | ⟨old, -, rfl⟩
    · exact hq.alone htarget hbefore event hmem hkey
    · exact hstatus

theorem alertsOf_append {links : Rows EventAlert} {l : EventAlert} (h : l.eventId ≠ e) :
    alertsOf (links ++ [l]) e = alertsOf links e := by
  have hne : (l.eventId == e) = false := beq_eq_false_iff_ne.mpr h
  simp [alertsOf, hne]

theorem event_mem_locked_placing (h : p.target = some e) :
    JobRow.event e ∈ (jobProgram rt).locked (p.log (.commit m)) := by
  simp [locked, Placement.log, Placement.inserted, h, jobProgram, JobWrite.row]

theorem link_mem_locked :
    JobRow.link p.item.alertId ∈ (jobProgram rt).locked (p.log (.commit m)) := by
  simp [locked, Placement.log, jobProgram, JobWrite.row]

theorem event_mem_locked_examining {alerts : List ℕ} (h : stage.alerts = some alerts) :
    JobRow.event row.eventId ∈ (jobProgram rt).locked (stage.log row) := by
  cases stage with
  | markEvent => cases h
  | readAlerts => cases h
  | conclude => simp [locked, ExaminingStage.log, jobProgram, JobWrite.row]
  | commit => simp [locked, ExaminingStage.log, jobProgram, JobWrite.row]

theorem LinkAdded.length_le (h : LinkAdded p m db db') : db.events.length ≤ db'.events.length := by
  rw [h.events]
  cases p.target <;> simp

theorem JobKnown.linkAdded {point : JobPoint} (hd : JobKnown db point) (hp : PlacementKnown db p)
    (h : LinkAdded p m db db') (hrows : List.Disjoint
      ((jobProgram rt).locked (p.log (.commit m))) ((jobProgram rt).locked point.log)) :
    JobKnown db' point := by
  cases point with
  | placing job items q stage =>
    refine ⟨hd.1.linkAdded hp h, ?_⟩
    cases stage with
    | insertEvent => exact hd.2
    | commit m' =>
      intro l hl
      rw [h.links] at hl
      rcases List.mem_append.mp hl with hold | hnew
      · exact hd.2 l hold
      · obtain rfl := List.mem_singleton.mp hnew
        intro heq
        have hmine : JobRow.link p.item.alertId ∈ (jobProgram rt).locked (q.log (.commit m')) := by
          rw [show p.item.alertId = q.item.alertId from heq]
          exact link_mem_locked
        exact hrows link_mem_locked hmine
    | maxSeverity => trivial
    | updateEvent => trivial
    | updateAlert => trivial
    | insertLink => trivial
  | examining job events row stage =>
    intro alerts hstage
    obtain ⟨hlt, halerts⟩ := hd alerts hstage
    have hne : p.eventId db ≠ row.eventId := by
      cases htarget : p.target with
      | some e =>
        rw [Placement.eventId, htarget, Option.getD_some]
        rintro rfl
        exact hrows (event_mem_locked_placing htarget) (event_mem_locked_examining hstage)
      | none =>
        rw [Placement.eventId, htarget, Option.getD_none]
        exact hlt.ne'
    refine ⟨hlt.trans_le h.length_le, ?_⟩
    rw [h.links, alertsOf_append hne]
    exact halerts
  | aggregating => trivial
  | nextAlert => trivial
  | investigating => trivial
  | nextEvent => trivial
  | done => trivial

theorem JobKnown.eventConcluded {point : JobPoint} (hd : JobKnown db point)
    (h : EventConcluded e db db') : JobKnown db' point := by
  cases point with
  | placing job items q stage =>
    refine ⟨hd.1.eventConcluded h, ?_⟩
    cases stage with
    | insertEvent => exact hd.2
    | commit =>
      intro l hl
      exact hd.2 l (h.links ▸ hl)
    | maxSeverity => trivial
    | updateEvent => trivial
    | updateAlert => trivial
    | insertLink => trivial
  | examining job events row stage =>
    intro alerts hstage
    obtain ⟨hlt, halerts⟩ := hd alerts hstage
    obtain ⟨status, -, hevents⟩ := h.events
    exact ⟨by rwa [hevents, List.length_modify], h.links ▸ halerts⟩
  | aggregating => trivial
  | nextAlert => trivial
  | investigating => trivial
  | nextEvent => trivial
  | done => trivial

end

section

variable {rt : Runtime} {s : JobStore} {c d : Connection JobWrite JobPoint} {a : JobAnswer}
  {q : JobPoint} {ws : List JobWrite}

inductive Committed (s : JobStore) (c : Connection JobWrite JobPoint) : JobStore → Prop
  | nothing (log : c.log = []) : Committed s c s
  | placed {job : AggregationJob} {items : List PendingAlert} {p : Placement} {m : ℤ}
      {s' : JobStore} (point : c.point = .placing job items p (.commit m))
      (log : c.log = p.log (.commit m)) (known : PlacementKnown s.db p)
      (unlinked : ∀ l ∈ s.db.eventAlerts, l.alertId ≠ p.item.alertId)
      (link : LinkAdded p m s.db s'.db) (verdicts : s'.verdicts = s.verdicts) : Committed s c s'
  | concluded {job : InvestigationJob} {events : List ℕ} {row : Investigation} {alerts : List ℕ}
      {t : Time} {result : AgentLoopResult} {s' : JobStore}
      (point : c.point = .examining job events row (.commit alerts t result))
      (log : c.log = ExaminingStage.log row (.commit alerts t result))
      (present : row.eventId < s.db.events.length)
      (known : alertsOf s.db.eventAlerts row.eventId = alerts)
      (event : EventConcluded row.eventId s.db s'.db)
      (verdicts : s'.verdicts = s.verdicts ++
        [{ eventId := row.eventId, alerts := alerts, linked := alerts }]) : Committed s c s'

theorem committed_of_commit (hc : JobHeld s c)
    (h : jobStatement rt a ((jobProgram rt).applyAll c.log s) c.point = some (.commit q)) :
    Committed s c ((jobProgram rt).applyAll c.log s) := by
  obtain ⟨point, log⟩ := c
  obtain ⟨(rfl : log = point.log), hknown⟩ := hc
  cases jobMove_of_statement h with
  | lastAlert job => exact .nothing rfl
  | commitPlacement job items p m =>
    refine .placed rfl rfl hknown.1 hknown.2 linkAdded_of_commit ?_
    rw [JobPoint.log, applyAll_placing]
  | lastEvent job => exact .nothing rfl
  | commitOutcome job events row alerts t result =>
    obtain ⟨hexists, halerts⟩ := hknown alerts rfl
    refine .concluded rfl rfl hexists halerts eventConcluded_of_commit ?_
    rw [JobPoint.log, applyAll_examining]
    simp only [halerts]

def JobPoint.Idle (point : JobPoint) : Prop := point.log = [] ∧ ∀ db, JobKnown db point

theorem JobPoint.Idle.held (h : q.Idle) : JobHeld s { point := q } := ⟨h.1.symm, h.2 s.db⟩

theorem idle_afterRollback (point : JobPoint) : point.afterRollback.Idle := by
  cases point <;> exact ⟨rfl, fun _ => trivial⟩

theorem idle_of_commit {point : JobPoint} (h : jobStatement rt a s point = some (.commit q)) :
    q.Idle := by
  cases jobMove_of_statement h <;> exact ⟨rfl, fun _ => trivial⟩

theorem idle_of_abort {point : JobPoint} (h : jobStatement rt a s point = some (.abort q)) :
    q.Idle := by
  cases jobMove_of_statement h with
  | stop => exact ⟨rfl, fun _ => trivial⟩
  | rollback => exact idle_afterRollback point
  | skipAlert => exact ⟨rfl, fun _ => trivial⟩
  | refuseLink => exact ⟨rfl, fun _ => trivial⟩
  | missEvent => exact ⟨rfl, fun _ => trivial⟩

theorem placementKnown_found {tie : ℕ → ℕ} {p : Placement} {e : ℕ}
    (hfound : findMergeTarget tie p.eventKey (s.db.events.select fun _ _ => true) =
      some (e, p.event)) (htarget : p.target = some e) (hlinks : p.links = s.db.eventAlerts.length)
    (hinvestigations : p.investigations = s.db.investigations.length) : PlacementKnown s.db p := by
  obtain ⟨hmem, hkey, hstatus⟩ := findMergeTarget_some hfound
  have hevent : s.db.events[e]? = some p.event := (Rows.mem_select.mp hmem).1
  have hsome {j : ℕ} (hj : p.target = some j) : s.db.events[j]? = some p.event := by
    rw [← Option.some.inj (htarget.symm.trans hj)]
    exact hevent
  have hnone (hj : p.target = none) : False := by
    rw [htarget] at hj
    cases hj
  exact {
    links_le := hlinks.le
    investigations_le := hinvestigations.le
    found := fun j hj => by rw [eventKeyOf, hsome hj, Option.map_some, hkey]
    awaits := fun j hj _ => by rw [hsome hj, Option.map_some, hstatus]
    counted := fun j hj _ => by rw [hsome hj, Option.map_some]
    created := fun hj => (hnone hj).elim
    alone := fun hj => (hnone hj).elim }

theorem placementKnown_created {tie : ℕ → ℕ} {p : Placement}
    (hnone : findMergeTarget tie p.eventKey (s.db.events.select fun _ _ => true) = none)
    (htarget : p.target = none) (hlinks : p.links = s.db.eventAlerts.length)
    (hinvestigations : p.investigations = s.db.investigations.length)
    (hevent : p.event.eventKey = p.eventKey ∧ p.event.status = .pendingReview ∧
      p.event.alertCount = 0) : PlacementKnown s.db p := by
  have hsome {j : ℕ} (hj : p.target = some j) : False := by
    rw [htarget] at hj
    cases hj
  exact {
    links_le := hlinks.le
    investigations_le := hinvestigations.le
    found := fun j hj => (hsome hj).elim
    awaits := fun j hj => (hsome hj).elim
    counted := fun j hj => (hsome hj).elim
    created := fun _ => hevent
    alone := fun _ _ event hmem hkey => by
      obtain ⟨j, hj⟩ := List.mem_iff_getElem?.mp hmem
      exact findMergeTarget_none hnone (j, event) (Rows.mem_select.mpr ⟨hj, rfl⟩) hkey }

theorem PlacementKnown.stamp {db : Db} {p : Placement} (h : PlacementKnown db p)
    (htarget : p.target = none) (t : Time) :
    PlacementKnown db { p with event := { p.event with createdAt := t } } where
  links_le := h.links_le
  investigations_le := h.investigations_le
  found := h.found
  awaits := h.awaits
  counted := h.counted
  created := fun _ => h.created htarget
  alone := h.alone

theorem JobHeld.read (hc : JobHeld s c)
    (h : jobStatement rt a ((jobProgram rt).applyAll c.log s) c.point = some (.read q)) :
    JobHeld s { c with point := q } := by
  obtain ⟨point, log⟩ := c
  obtain ⟨(rfl : log = point.log), hknown⟩ := hc
  cases jobMove_of_statement h with
  | fetch job items => exact ⟨rfl, trivial⟩
  | findEvent found target links investigations =>
    refine ⟨?_, placementKnown_found found target links investigations, trivial⟩
    simp [JobPoint.log, Placement.log, Placement.inserted, target]
  | createEvent missing target links investigations event =>
    exact ⟨rfl, placementKnown_created missing target links investigations event, target⟩
  | maxSeverity job items p m => exact ⟨rfl, hknown.1, trivial⟩
  | pick job events => exact ⟨rfl, trivial⟩
  | readAlerts present =>
    refine ⟨rfl, fun alerts halerts => ?_⟩
    obtain rfl := Option.some.inj halerts
    refine ⟨?_, rfl⟩
    simpa [JobPoint.log, ExaminingStage.log, applyAll_cons, jobProgram, JobWrite.apply,
      Db.setEventStatus, Db.addInvestigation] using present

theorem eventAlerts_insertLink {p : Placement} {m : ℤ} :
    ((jobProgram rt).applyAll (p.log (.insertLink m)) s).db.eventAlerts = s.db.eventAlerts := by
  cases htarget : p.target <;> simp only [Placement.log, Placement.inserted, htarget] <;> rfl

theorem JobHeld.write (hc : JobHeld s c)
    (h : jobStatement rt a ((jobProgram rt).applyAll c.log s) c.point = some (.write ws q)) :
    JobHeld s { point := q, log := c.log ++ ws } := by
  obtain ⟨point, log⟩ := c
  obtain ⟨(rfl : log = point.log), hknown⟩ := hc
  cases jobMove_of_statement h with
  | insertEvent job items p t =>
    have htarget : p.target = none := hknown.2
    refine ⟨?_, hknown.1.stamp htarget t, trivial⟩
    simp [JobPoint.log, Placement.log, Placement.inserted, htarget]
  | updateEvent job items p m => exact ⟨rfl, hknown.1, trivial⟩
  | updateAlert job items p m =>
    exact ⟨by simp [JobPoint.log, Placement.log], hknown.1, trivial⟩
  | insertLink free =>
    refine ⟨by simp [JobPoint.log, Placement.log], hknown.1, fun l hl => ?_⟩
    rw [JobPoint.log, eventAlerts_insertLink] at free
    exact free l hl
  | insertInvestigation job e events row => exact ⟨rfl, nofun⟩
  | markEvent job events row => exact ⟨rfl, nofun⟩
  | conclude job events row alerts t result => exact ⟨rfl, hknown⟩

theorem JobHeld.interfere {s' : JobStore} (hd : JobHeld s d) (hc : Committed s c s')
    (hrows : List.Disjoint ((jobProgram rt).locked c.log) ((jobProgram rt).locked d.log)) :
    JobHeld s' d := by
  refine ⟨hd.log, ?_⟩
  cases hc with
  | nothing => exact hd.known
  | placed _ log known _ link _ =>
    rw [log, hd.log] at hrows
    exact hd.known.linkAdded known link hrows
  | concluded _ _ _ _ event _ => exact hd.known.eventConcluded event

/-- The commit of a placement is reached only while a condition on its lookup holds. -/
def commitsWhen (p : Db → Placement → Bool) (s : Shared JobStore JobWrite JobPoint)
    (label : ℕ × JobAnswer) : Bool :=
  match s.connections[label.1]?, label.2 with
  | some { point := .placing _ _ placement (.commit _), .. }, .now _ => p s.db.db placement
  | _, _ => true

theorem of_commitsWhen {p : Db → Placement → Bool} {s : Shared JobStore JobWrite JobPoint} {i : ℕ}
    {job : AggregationJob} {items : List PendingAlert} {placement : Placement} {m : ℤ}
    (h : commitsWhen p s (i, a) = true) (hc : s.connections[i]? = some c)
    (hpoint : c.point = .placing job items placement (.commit m))
    (hstatement : jobStatement rt a ((jobProgram rt).applyAll c.log s.db) c.point =
      some (.commit q)) : p s.db.db placement = true := by
  obtain ⟨point, log⟩ := c
  obtain rfl : point = .placing job items placement (.commit m) := hpoint
  cases a with
  | now t =>
    rw [commitsWhen, hc] at h
    exact h
  | verdict t result => cases hstatement
  | fault stops => cases hstatement

theorem committed_of_step {s s' : Shared JobStore JobWrite JobPoint} {i : ℕ}
    (hheld : ∀ c ∈ s.connections, JobHeld s.db c)
    (h : (jobProgram rt).step (i, a) s = some s') :
    s'.db = s.db ∨ ∃ c q, s.connections[i]? = some c ∧
      jobStatement rt a ((jobProgram rt).applyAll c.log s.db) c.point = some (.commit q) ∧
      Committed s.db c s'.db := by
  obtain ⟨c, db', c', hc, hsteps, rfl⟩ := steps_of_step h
  cases hsteps with
  | read => exact .inl rfl
  | write => exact .inl rfl
  | abort => exact .inl rfl
  | commit hstatement =>
    exact .inr ⟨c, _, hc, hstatement,
      committed_of_commit (hheld c (List.mem_of_getElem? hc)) hstatement⟩

theorem jobHeld_init {db : Db} {jobs : List Job} :
    ∀ c ∈ (jobInit db jobs).connections, JobHeld (jobInit db jobs).db c := by
  intro c hc
  obtain ⟨job, -, rfl⟩ := List.mem_map.mp hc
  cases job <;> exact ⟨rfl, trivial⟩

theorem idle_init {db : Db} {jobs : List Job} :
    ∀ c ∈ (jobInit db jobs).connections, c.log = [] := by
  intro c hc
  obtain ⟨job, -, rfl⟩ := List.mem_map.mp hc
  rfl

/-- The runs know what they have read, and what every commit keeps holds of the database. -/
theorem jobs_invariant {C : Shared JobStore JobWrite JobPoint → ℕ × JobAnswer → Prop}
    {G : JobStore → Prop} {db : Db} {jobs : List Job} {s : Shared JobStore JobWrite JobPoint}
    (hG : ∀ {s i a c s'}, C s (i, a) → s.connections[i]? = some c → G s.db →
      (∃ q, jobStatement rt a ((jobProgram rt).applyAll c.log s.db) c.point = some (.commit q)) →
      Committed s.db c s' → G s')
    (hinit : G (jobInit db jobs).db) (hs : (jobSystem rt db jobs).ReachableBy C s) :
    G s.db ∧ (∀ c ∈ s.connections, JobHeld s.db c) ∧ (jobProgram rt).Exclusive s.connections := by
  have houtline : (jobProgram rt).Outline C G JobHeld := {
    keeps := by
      intro s i a c db' c' hC hc hGs hL hsteps
      cases hsteps with
      | read hstatement => exact ⟨hGs, hL.read hstatement⟩
      | write hstatement _ => exact ⟨hGs, hL.write hstatement⟩
      | commit hstatement =>
        exact ⟨hG hC hc hGs ⟨_, hstatement⟩ (committed_of_commit hL hstatement),
          (idle_of_commit hstatement).held⟩
      | abort hstatement => exact ⟨hGs, (idle_of_abort hstatement).held⟩
    interfere := fun _ _ _ hc hstatement hd hrows =>
      hd.interfere (committed_of_commit hc hstatement) hrows }
  exact houtline.invariant hinit jobHeld_init idle_init hs

end

end Minsight

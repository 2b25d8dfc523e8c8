import Mathlib.Logic.Relation
import Minsight.Agent.Effects
import Minsight.Assets.Pipeline

/-! # The docket

What decides the fate of an event: its status, its investigations and their verdicts, the
requests sent to humans, the dispositions and the judgment cases. A service moves the
docket by the steps below, whatever else it writes.
-/

namespace Minsight

structure RequestCore where
  investigationId : ℕ
  eventId : ℕ
  status : HumanReviewStatus

structure Docket where
  events : List EventStatus := []
  investigations : List InvestigationCore := []
  /-- The verdict of each concluded investigation. -/
  verdicts : List (ℕ × InvestigationVerdict) := []
  requests : List RequestCore := []
  /-- The investigation and the status of each disposition. -/
  dispositions : List (ℕ × DispositionStatus) := []
  /-- The investigation of each judgment case. -/
  cases : List ℕ := []
  clock : Time := 0

def InvestigationCore.withStatus (status : InvestigationStatus) (i : InvestigationCore) :
    InvestigationCore :=
  { i with status := status }

def InvestigationCore.ended (status : InvestigationStatus) (finishedAt : Time)
    (i : InvestigationCore) : InvestigationCore :=
  { i with status := status, finishedAt := some finishedAt }

def InvestigationCore.span (i : InvestigationCore) : ℕ × Time × Option Time :=
  (i.eventId, i.startedAt, i.finishedAt)

/-- A request for the same investigation that is sent only if it was sent before. -/
structure RequestCore.Moves (r r' : RequestCore) : Prop where
  investigationId : r'.investigationId = r.investigationId
  eventId : r'.eventId = r.eventId
  status : r'.status = .sent → r.status = .sent

theorem RequestCore.Moves.refl (r : RequestCore) : r.Moves r := ⟨rfl, rfl, id⟩

structure RequestCore.Retires (r r' : RequestCore) : Prop extends r.Moves r' where
  answered : r'.status = .answered ↔ r.status = .answered

theorem RequestCore.Retires.refl (r : RequestCore) : r.Retires r := ⟨.refl r, .rfl⟩

theorem moves_of_retires {rs rs' : List RequestCore} (h : List.Forall₂ RequestCore.Retires rs rs') :
    List.Forall₂ RequestCore.Moves rs rs' :=
  h.imp fun _ _ h => h.toMoves

structure LatestOf (invs : List InvestigationCore) (e i : ℕ) (inv : InvestigationCore) :
    Prop where
  row : invs[i]? = some inv
  eventId : inv.eventId = e
  last : ∀ (j : ℕ) (inv' : InvestigationCore), invs[j]? = some inv' → inv'.eventId = e →
    inv'.startedAt ≤ inv.startedAt

structure Outcome where
  status : InvestigationStatus
  verdict : InvestigationVerdict
  suggests : Bool

/-- The investigation is completed when the outcome concludes its event, else it needs a human. -/
def Outcome.Complete (o : Outcome) : Prop :=
  o.status = if verdictEventStatus o.verdict = .humanPending then .needsHuman else .completed

namespace Docket

variable (d : Docket)

def sentCount (e : ℕ) : ℕ := d.requests.countP fun r => r.eventId == e && r.status == .sent

def requestCount (e : ℕ) : ℕ := d.requests.countP fun r => r.eventId == e

def verdictOf (i : ℕ) : Option InvestigationVerdict :=
  (d.verdicts.find? fun v => v.1 == i).map Prod.snd

structure Selected (e i : ℕ) (inv : InvestigationCore) (v : InvestigationVerdict) : Prop where
  row : d.investigations[i]? = some inv
  eventId : inv.eventId = e
  completed : inv.status = .completed
  /-- No completed investigation of the event finished later. -/
  last : ∀ (j : ℕ) (inv' : InvestigationCore) (t : Time), d.investigations[j]? = some inv' →
    inv'.eventId = e → inv'.status = .completed → inv'.finishedAt = some t →
    ∃ t', inv.finishedAt = some t' ∧ t ≤ t'
  verdict : d.verdictOf i = some v
  settleable : v.isSettleable = true

/-- What must hold for an event to be closed with an investigation. -/
structure Closable (confirm : Bool) (e i : ℕ) (inv : InvestigationCore)
    (v : InvestigationVerdict) : Prop extends d.Selected e i inv v where
  case : 0 < d.cases.count i
  resolved : confirm = true → ∀ p ∈ d.dispositions, p.1 = i → p.2 ≠ .suggested

/-- The docket after an investigation of an event from `s` to `f`. -/
def investigate (e : ℕ) (s f : Time) (o : Outcome) : Docket :=
  { d with
    events := d.events.modify e fun _ => verdictEventStatus o.verdict
    investigations := d.investigations ++
      [{ eventId := e, status := o.status, startedAt := s, finishedAt := some f }]
    verdicts := d.verdicts ++ [(d.investigations.length, o.verdict)]
    dispositions := d.dispositions ++
      if o.suggests then [(d.investigations.length, .suggested)] else [] }

def dispatch (e i : ℕ) : Docket :=
  { d with
    requests := d.requests ++ [{ investigationId := i, eventId := e, status := .sent }]
    investigations := d.investigations.modify i (.withStatus .needsHuman) }

/-- The docket after a request is answered, which may put its event back into the queue. -/
def answer (n : ℕ) (r : RequestCore) (reopen : Bool) : Docket :=
  { d with
    requests := d.requests.modify n fun r => { r with status := .answered }
    events := if reopen then d.events.modify r.eventId fun _ => .pendingReview else d.events
    investigations := d.investigations.modify r.investigationId fun i =>
      if i.status = .needsHuman then i.withStatus .completed else i }

inductive Act
  | tick | opened | investigated | moved | dispatched (maxResend : ℤ)
  | answered (reopen : Bool) | filed
  | closed (confirm : Bool) | decided

inductive Step (k : ClockKind) : Act → Docket → Docket → Prop
  | tick {d : Docket} {t : Time} (passed : k.Passes d.clock t) : Step k .tick d { d with clock := t }
  | opened {d : Docket} : Step k .opened d { d with events := d.events ++ [.pendingReview] }
  | investigated {d : Docket} {e : ℕ} {s f t : Time} {o : Outcome} {rs : List RequestCore}
      (started : k.Follows d.clock s) (finished : k.Follows s f) (passed : k.Passes f t)
      (complete : o.Complete) (retires : List.Forall₂ RequestCore.Retires d.requests rs) :
      Step k .investigated d { d.investigate e s f o with requests := rs, clock := t }
  | moved {d : Docket} {rs : List RequestCore}
      (retires : List.Forall₂ RequestCore.Retires d.requests rs) :
      Step k .moved d { d with requests := rs }
  | dispatched {d : Docket} {maxResend : ℤ} {e i : ℕ} {inv : InvestigationCore}
      (pending : d.events[e]? = some .humanPending) (latest : LatestOf d.investigations e i inv)
      (unsent : d.sentCount e = 0) (few : (d.requestCount e : ℤ) ≤ maxResend) :
      Step k (.dispatched maxResend) d (d.dispatch e i)
  | answered {d : Docket} {n : ℕ} {r : RequestCore} (row : d.requests[n]? = some r)
      (reopen : Bool) : Step k (.answered reopen) d (d.answer n r reopen)
  | filed {d : Docket} {i : ℕ} (fresh : d.cases.count i = 0) :
      Step k .filed d { d with cases := d.cases ++ [i] }
  | closed {d : Docket} {confirm : Bool} {e i : ℕ} {inv : InvestigationCore}
      {v : InvestigationVerdict} (concluded : d.events[e]? = some .concluded)
      (closable : d.Closable confirm e i inv v) :
      Step k (.closed confirm) d { d with events := d.events.modify e fun _ => .closed }
  | decided {d : Docket} {n : ℕ} {s : DispositionStatus} (decision : s ≠ .suggested) :
      Step k .decided d { d with dispositions := d.dispositions.modify n fun p => (p.1, s) }

def Steps (k : ClockKind) (A : Act → Prop) : Docket → Docket → Prop :=
  Relation.ReflTransGen fun d d' => ∃ a, (a = .tick ∨ A a) ∧ Step k a d d'

section Steps

variable {d} {k : ClockKind} {A B : Act → Prop} {a : Act} {d' d'' : Docket}

theorem Step.passes (h : Step k a d d') : k.Passes d.clock d'.clock := by
  cases h with
  | tick passed => exact passed
  | investigated started finished passed => exact started.passes.trans (finished.passes.trans passed)
  | opened => exact .refl _ _
  | moved => exact .refl _ _
  | dispatched => exact .refl _ _
  | answered => exact .refl _ _
  | filed => exact .refl _ _
  | closed => exact .refl _ _
  | decided => exact .refl _ _

theorem Steps.refl (d : Docket) : Steps k A d d := Relation.ReflTransGen.refl

theorem Steps.trans (h : Steps k A d d') (h' : Steps k A d' d'') : Steps k A d d'' :=
  Relation.ReflTransGen.trans h h'

theorem Steps.single (ha : A a) (h : Step k a d d') : Steps k A d d' :=
  Relation.ReflTransGen.single ⟨a, .inr ha, h⟩

theorem Steps.tick {t : Time} (h : k.Passes d.clock t) : Steps k A d { d with clock := t } :=
  Relation.ReflTransGen.single ⟨.tick, .inl rfl, .tick h⟩

theorem Steps.rel {R : Docket → Docket → Prop} (refl : ∀ d, R d d)
    (trans : ∀ d d' d'', R d d' → R d' d'' → R d d'')
    (step : ∀ a d d', a = .tick ∨ A a → Step k a d d' → R d d') (h : Steps k A d d') : R d d' := by
  induction h with
  | refl => exact refl _
  | tail _ hs ih =>
    obtain ⟨a, ha, hs⟩ := hs
    exact trans _ _ _ ih (step a _ _ ha hs)

theorem Steps.invariant {I : Docket → Prop}
    (step : ∀ a d d', a = .tick ∨ A a → Step k a d d' → I d → I d') (h : Steps k A d d')
    (hd : I d) : I d' :=
  h.rel (R := fun d d' => I d → I d') (fun _ => id) (fun _ _ _ h h' hd => h' (h hd)) step hd

theorem Steps.mono (h : Steps k A d d') (hAB : ∀ a, A a → B a) : Steps k B d d' :=
  h.rel (R := Steps k B) .refl (fun _ _ _ => .trans) fun a _ _ ha hs =>
    Relation.ReflTransGen.single ⟨a, ha.imp_right (hAB a), hs⟩

theorem Steps.passes (h : Steps k A d d') : k.Passes d.clock d'.clock :=
  h.rel (R := fun d d' => k.Passes d.clock d'.clock) (fun _ => .refl _ _)
    (fun _ _ _ => .trans) fun _ _ _ _ => Step.passes

end Steps

end Docket

end Minsight

import Minsight.Assets.Builders
import Minsight.Foundation.Connections

/-! # Confirmations of a whitelist candidate

A request reads the candidate, decides in Python and writes back what it computed; reading does not
lock the row. Nothing goes wrong while a confirmation is written to the row that was read and no
rejection is written over a promotion.
-/

namespace Minsight

open Program

section

variable (rt : Runtime) (config : DefenseAssetConfig) (now : Time) (i : ℕ)

/-- The rule that `_promote` makes of a candidate. -/
def promotedRule (candidate : WhitelistCandidate) : Except Exn WhitelistRule :=
  let pattern := candidate.suggestedPattern
  let matchPattern := ((pattern.get? "match_pattern").filter Json.truthy).getD (.obj [])
  let phash := match (pattern.get? "pattern_hash").filter Json.truthy with
    | some h => rt.str h
    | none => patternHash rt matchPattern
  let ruleType := WhitelistRuleType.ofValue
    (rt.str ((pattern.get? "rule_type").getD (.str "composite")))
  -- an empty pattern is read as one without fields
  if pattern.truthy && !pattern.isObj then
    .error (.attributeError "get")
  else
    .ok {
      name := "auto-promoted-" ++ phash
      ruleType := ruleType.getD .composite
      matchPattern
      confirmationCount := candidate.humanConfirmations
      effectiveFrom := now
      effectiveUntil := now + hours (24 * config.whitelistRuleTtlDays)
      status := .active
      auditTrail := [{
        source := "whitelist_candidate"
        candidateId := i
        investigationId := candidate.investigationId
        confirmations := candidate.humanConfirmations }] }

end

/-- The rules that were made of a candidate. -/
def rulesFrom (i : ℕ) (db : Db) : List WhitelistRule :=
  db.whitelistRules.filter fun rule => rule.auditTrail.any fun entry => entry.candidateId == i

inductive CandidateEvent
  /-- A confirmation is written over a row with this status. -/
  | confirmed (found : WhitelistCandidateStatus)
  | promoted
  | rejected
  deriving DecidableEq

/-- The tables, and what was done to the candidate, for an observer. -/
structure PromotionStore where
  db : Db
  history : List CandidateEvent := []

/-- The confirmations that took effect while the candidate was pending. -/
def confirmsIn (history : List CandidateEvent) : ℕ := history.count (.confirmed .pending)

/-- `UPDATE whitelist_candidates` of one row. -/
def updateCandidate (i : ℕ) (f : WhitelistCandidate → WhitelistCandidate)
    (event : WhitelistCandidate → CandidateEvent) (s : PromotionStore) : PromotionStore :=
  match s.db.whitelistCandidates[i]? with
  | none => s
  | some candidate => {
      db := { s.db with whitelistCandidates := s.db.whitelistCandidates.modify i f }
      history := s.history ++ [event candidate] }

inductive PromotionWrite
  | insertRule (rule : WhitelistRule)
  | confirm (confirmations : ℤ)
  | promote
  | reject

def PromotionWrite.apply (i : ℕ) : PromotionWrite → PromotionStore → PromotionStore
  | .insertRule rule, s =>
    { s with db := { s.db with whitelistRules := s.db.whitelistRules ++ [rule] } }
  | .confirm confirmations, s =>
    updateCandidate i ({ · with humanConfirmations := confirmations }) (.confirmed ·.status) s
  -- the rule is the last one: the same transaction has just inserted it
  | .promote, s =>
    updateCandidate i ({ · with
      status := .promoted, promotedRuleId := some (s.db.whitelistRules.length - 1) })
      (fun _ => .promoted) s
  | .reject, s => updateCandidate i ({ · with status := .rejected }) (fun _ => .rejected) s

def PromotionWrite.row (i : ℕ) : PromotionWrite → Option ℕ
  | .insertRule _ => none
  | _ => some i

inductive PromotionPoint
  | confirm
  | confirming (candidate : WhitelistCandidate)
  | promoting
  | reject
  | rejecting
  | committing
  | ended

inductive PromotionAnswer
  | ok (now : Time)
  | fault

section

variable (rt : Runtime) (config : DefenseAssetConfig) (i : ℕ)

/--
The statements of `confirm_whitelist_candidate` and `reject_whitelist_candidate`. A session writes
the attributes that were changed when it is flushed, which a commit does first.
-/
def promotionStatement : PromotionAnswer → PromotionStore → PromotionPoint →
    Option (Statement PromotionWrite PromotionPoint)
  | _, _, .ended => none
  | .fault, _, _ => some (.abort .ended)
  | .ok _, s, .confirm =>
    match s.db.whitelistCandidates[i]? with
    | none => some (.read .committing)
    | some candidate =>
      if candidate.status = .pending then some (.read (.confirming candidate))
      else some (.read .committing)
  | .ok now, _, .confirming candidate =>
    let confirmations := candidate.humanConfirmations + 1
    if confirmations < config.whitelistPromotionThreshold then
      some (.write [.confirm confirmations] .committing)
    else
      match promotedRule rt config now i { candidate with humanConfirmations := confirmations } with
      | .error _ => some (.abort .ended)
      | .ok rule => some (.write [.insertRule rule, .confirm confirmations] .promoting)
  | .ok _, _, .promoting => some (.write [.promote] .committing)
  | .ok _, s, .reject =>
    match s.db.whitelistCandidates[i]? with
    | none => some (.abort .ended)
    | some candidate =>
      if candidate.status = .pending then some (.read .rejecting) else some (.abort .ended)
  | .ok _, _, .rejecting => some (.write [.reject] .committing)
  | .ok _, _, .committing => some (.commit .ended)

def promotionProgram : Program PromotionStore ℕ PromotionWrite PromotionPoint PromotionAnswer where
  apply := PromotionWrite.apply i
  row := PromotionWrite.row i
  statement := promotionStatement rt config i

def promotionInit (requests : List PromotionPoint) (db : Db) :
    Shared PromotionStore PromotionWrite PromotionPoint where
  db := { db := db }
  connections := requests.map fun point => { point }

def promotionSystem (requests : List PromotionPoint) (db : Db) :
    System (Shared PromotionStore PromotionWrite PromotionPoint) (ℕ × PromotionAnswer) :=
  (promotionProgram rt config i).system (promotionInit requests db)

/-- The points at which a request begins. -/
def PromotionPoint.begins : PromotionPoint → Bool
  | .confirm | .reject => true
  | _ => false

/--
A confirmation is written while the candidate is pending and has the confirmations that were read,
and a rejection while it is not promoted.
-/
def uncontested (s : Shared PromotionStore PromotionWrite PromotionPoint)
    (l : ℕ × PromotionAnswer) : Bool :=
  match (s.connections[l.1]?).map Connection.point, l.2 with
  | some (.confirming candidate), .ok _ => (s.db.db.whitelistCandidates[i]?).any fun row =>
      row.status == .pending && row.humanConfirmations == candidate.humanConfirmations
  | some .rejecting, .ok _ => (s.db.db.whitelistCandidates[i]?).any fun row =>
      row.status != .promoted
  | _, _ => true

end

inductive PromotionMove (threshold : ℤ) (i : ℕ) (s : PromotionStore) :
    PromotionAnswer → PromotionPoint → Statement PromotionWrite PromotionPoint → Prop
  | stop (a : PromotionAnswer) (point : PromotionPoint) :
      PromotionMove threshold i s a point (.abort .ended)
  | skip (now : Time) : PromotionMove threshold i s (.ok now) .confirm (.read .committing)
  | load (now : Time) (row : WhitelistCandidate) :
      PromotionMove threshold i s (.ok now) .confirm (.read (.confirming row))
  | confirm (now : Time) (candidate : WhitelistCandidate) :
      PromotionMove threshold i s (.ok now) (.confirming candidate)
        (.write [.confirm (candidate.humanConfirmations + 1)] .committing)
  | approve (now : Time) {candidate : WhitelistCandidate} {rule : WhitelistRule}
      (henough : threshold ≤ candidate.humanConfirmations + 1)
      (hrule : rule.auditTrail.any fun entry => entry.candidateId == i) :
      PromotionMove threshold i s (.ok now) (.confirming candidate)
        (.write [.insertRule rule, .confirm (candidate.humanConfirmations + 1)] .promoting)
  | promote (now : Time) :
      PromotionMove threshold i s (.ok now) .promoting (.write [.promote] .committing)
  | find (now : Time) : PromotionMove threshold i s (.ok now) .reject (.read .rejecting)
  | reject (now : Time) :
      PromotionMove threshold i s (.ok now) .rejecting (.write [.reject] .committing)
  | commit (now : Time) : PromotionMove threshold i s (.ok now) .committing (.commit .ended)

section

variable {rt : Runtime} {config : DefenseAssetConfig} {i : ℕ} {a : PromotionAnswer}
  {s : PromotionStore} {point : PromotionPoint} {statement : Statement PromotionWrite PromotionPoint}

theorem promotedRule_audit {now : Time} {candidate : WhitelistCandidate} {rule : WhitelistRule}
    (h : promotedRule rt config now i candidate = .ok rule) :
    rule.auditTrail.any fun entry => entry.candidateId == i := by
  simp only [promotedRule] at h
  split at h
  · cases h
  · obtain rfl := Except.ok.inj h
    simp

theorem PromotionMove.of_statement (h : promotionStatement rt config i a s point = some statement) :
    PromotionMove config.whitelistPromotionThreshold i s a point statement := by
  unfold promotionStatement at h
  split at h
  · cases h
  · obtain rfl := Option.some.inj h
    exact .stop _ _
  · split at h
    · obtain rfl := Option.some.inj h
      exact .skip _
    · split at h
      · obtain rfl := Option.some.inj h
        exact .load _ _
      · obtain rfl := Option.some.inj h
        exact .skip _
  · dsimp only at h
    split at h
    · obtain rfl := Option.some.inj h
      exact .confirm _ _
    · rename_i henough
      split at h
      · obtain rfl := Option.some.inj h
        exact .stop _ _
      · rename_i hrule
        obtain rfl := Option.some.inj h
        exact .approve _ (not_lt.mp henough) (promotedRule_audit hrule)
  · obtain rfl := Option.some.inj h
    exact .promote _
  · split at h
    · obtain rfl := Option.some.inj h
      exact .stop _ _
    · split at h
      · obtain rfl := Option.some.inj h
        exact .find _
      · obtain rfl := Option.some.inj h
        exact .stop _ _
  · obtain rfl := Option.some.inj h
    exact .reject _
  · obtain rfl := Option.some.inj h
    exact .commit _

end

/-- The law of a candidate and the rules that are made of it. -/
structure PromotionLaw (threshold : ℤ) (i : ℕ) (s : PromotionStore) : Prop where
  counted : ∀ candidate, s.db.whitelistCandidates[i]? = some candidate →
    candidate.humanConfirmations = confirmsIn s.history
  oneRule : (rulesFrom i s.db).length ≤ 1
  /-- A rule is made with a promotion. -/
  promoted : rulesFrom i s.db ≠ [] → .promoted ∈ s.history
  enough : ∀ before after, s.history = before ++ .promoted :: after → threshold ≤ confirmsIn before
  notBoth : .rejected ∈ s.history → .promoted ∉ s.history

/-- What a status says of the history of a candidate and of its rules. -/
inductive StatusFits (threshold : ℤ) :
    WhitelistCandidateStatus → List CandidateEvent → List WhitelistRule → Prop
  | pending {history} (hpromoted : .promoted ∉ history) (hrejected : .rejected ∉ history) :
      StatusFits threshold .pending history []
  | rejected {history} (hpromoted : .promoted ∉ history) : StatusFits threshold .rejected history []
  | promoted {history rule} (hpromoted : .promoted ∉ history) (hrejected : .rejected ∉ history)
      (henough : threshold ≤ confirmsIn history) :
      StatusFits threshold .promoted (history ++ [.promoted]) [rule]

def PromotionHeld (threshold : ℤ) (i : ℕ) (s : PromotionStore) : Prop :=
  ∃ candidate, s.db.whitelistCandidates[i]? = some candidate ∧
    candidate.humanConfirmations = confirmsIn s.history ∧
    StatusFits threshold candidate.status s.history (rulesFrom i s.db)

inductive PromotionKept (threshold : ℤ) (i : ℕ) (s : PromotionStore) :
    PromotionPoint → List PromotionWrite → Prop
  | idle {point} (h : point ≠ .promoting) : PromotionKept threshold i s point []
  | confirmed {row} (hrow : s.db.whitelistCandidates[i]? = some row)
      (hpending : row.status = .pending) :
      PromotionKept threshold i s .committing [.confirm (row.humanConfirmations + 1)]
  | promoting {row rule} (hrow : s.db.whitelistCandidates[i]? = some row)
      (hpending : row.status = .pending) (henough : threshold ≤ row.humanConfirmations + 1)
      (hrule : rule.auditTrail.any fun entry => entry.candidateId == i) :
      PromotionKept threshold i s .promoting
        [.insertRule rule, .confirm (row.humanConfirmations + 1)]
  | promoted {row rule} (hrow : s.db.whitelistCandidates[i]? = some row)
      (hpending : row.status = .pending) (henough : threshold ≤ row.humanConfirmations + 1)
      (hrule : rule.auditTrail.any fun entry => entry.candidateId == i) :
      PromotionKept threshold i s .committing
        [.insertRule rule, .confirm (row.humanConfirmations + 1), .promote]
  | rejected {row} (hrow : s.db.whitelistCandidates[i]? = some row)
      (hnot : row.status ≠ .promoted) : PromotionKept threshold i s .committing [.reject]

section

variable {threshold : ℤ} {i : ℕ} {s : PromotionStore} {row : WhitelistCandidate}
  {f : WhitelistCandidate → WhitelistCandidate} {event : WhitelistCandidate → CandidateEvent}

theorem updateCandidate_row (hrow : s.db.whitelistCandidates[i]? = some row) :
    (updateCandidate i f event s).db.whitelistCandidates[i]? = some (f row) := by
  simp only [updateCandidate, hrow]
  rw [List.getElem?_modify_eq, hrow]
  rfl

theorem updateCandidate_history (hrow : s.db.whitelistCandidates[i]? = some row) :
    (updateCandidate i f event s).history = s.history ++ [event row] := by
  simp only [updateCandidate, hrow]

theorem rulesFrom_updateCandidate (j : ℕ) :
    rulesFrom j (updateCandidate i f event s).db = rulesFrom j s.db := by
  unfold updateCandidate
  split <;> rfl

theorem confirm_row {n : ℤ} (hrow : s.db.whitelistCandidates[i]? = some row) :
    ((PromotionWrite.confirm n).apply i s).db.whitelistCandidates[i]? =
      some { row with humanConfirmations := n } :=
  updateCandidate_row hrow

theorem confirm_history {n : ℤ} (hrow : s.db.whitelistCandidates[i]? = some row) :
    ((PromotionWrite.confirm n).apply i s).history = s.history ++ [.confirmed row.status] :=
  updateCandidate_history hrow

theorem rulesFrom_confirm {n : ℤ} :
    rulesFrom i ((PromotionWrite.confirm n).apply i s).db = rulesFrom i s.db :=
  rulesFrom_updateCandidate i

theorem promote_row (hrow : s.db.whitelistCandidates[i]? = some row) :
    (PromotionWrite.promote.apply i s).db.whitelistCandidates[i]? = some { row with
      status := .promoted, promotedRuleId := some (s.db.whitelistRules.length - 1) } :=
  updateCandidate_row hrow

theorem promote_history (hrow : s.db.whitelistCandidates[i]? = some row) :
    (PromotionWrite.promote.apply i s).history = s.history ++ [.promoted] :=
  updateCandidate_history hrow

theorem rulesFrom_promote :
    rulesFrom i (PromotionWrite.promote.apply i s).db = rulesFrom i s.db :=
  rulesFrom_updateCandidate i

theorem reject_row (hrow : s.db.whitelistCandidates[i]? = some row) :
    (PromotionWrite.reject.apply i s).db.whitelistCandidates[i]? =
      some { row with status := .rejected } :=
  updateCandidate_row hrow

theorem reject_history (hrow : s.db.whitelistCandidates[i]? = some row) :
    (PromotionWrite.reject.apply i s).history = s.history ++ [.rejected] :=
  updateCandidate_history hrow

theorem rulesFrom_reject :
    rulesFrom i (PromotionWrite.reject.apply i s).db = rulesFrom i s.db :=
  rulesFrom_updateCandidate i

theorem insertRule_row {rule : WhitelistRule} (hrow : s.db.whitelistCandidates[i]? = some row) :
    ((PromotionWrite.insertRule rule).apply i s).db.whitelistCandidates[i]? = some row :=
  hrow

theorem insertRule_history {rule : WhitelistRule} :
    ((PromotionWrite.insertRule rule).apply i s).history = s.history :=
  rfl

theorem rulesFrom_insertRule {rule : WhitelistRule}
    (hrule : rule.auditTrail.any fun entry => entry.candidateId == i) :
    rulesFrom i ((PromotionWrite.insertRule rule).apply i s).db = rulesFrom i s.db ++ [rule] := by
  simp [PromotionWrite.apply, rulesFrom, hrule]

theorem confirmsIn_append (history : List CandidateEvent) (event : CandidateEvent) :
    confirmsIn (history ++ [event]) =
      confirmsIn history + if event = .confirmed .pending then 1 else 0 := by
  simp [confirmsIn, List.count_append, List.count_singleton]

theorem PromotionHeld.pending (h : PromotionHeld threshold i s)
    (hrow : s.db.whitelistCandidates[i]? = some row) (hpending : row.status = .pending) :
    row.humanConfirmations = confirmsIn s.history ∧ .promoted ∉ s.history ∧
      .rejected ∉ s.history ∧ rulesFrom i s.db = [] := by
  obtain ⟨candidate, hcandidate, hcount, hfits⟩ := h
  obtain rfl := Option.some.inj (hcandidate.symm.trans hrow)
  rw [hpending] at hfits
  generalize rulesFrom i s.db = rules at hfits
  cases hfits with
  | pending hpromoted hrejected => exact ⟨hcount, hpromoted, hrejected, rfl⟩

theorem PromotionHeld.confirm (h : PromotionHeld threshold i s)
    (hrow : s.db.whitelistCandidates[i]? = some row) (hpending : row.status = .pending) :
    PromotionHeld threshold i
      ((PromotionWrite.confirm (row.humanConfirmations + 1)).apply i s) := by
  obtain ⟨hcount, hpromoted, hrejected, hrules⟩ := h.pending hrow hpending
  refine ⟨_, confirm_row hrow, ?_, ?_⟩
  · rw [confirm_history hrow, confirmsIn_append, hpending, if_pos rfl, hcount]
    rfl
  · rw [confirm_history hrow, rulesFrom_confirm, hrules, hpending]
    apply StatusFits.pending
    · simp [hpromoted]
    · simp [hrejected]

theorem PromotionHeld.promote {rule : WhitelistRule} (h : PromotionHeld threshold i s)
    (hrow : s.db.whitelistCandidates[i]? = some row) (hpending : row.status = .pending)
    (henough : threshold ≤ row.humanConfirmations + 1)
    (hrule : rule.auditTrail.any fun entry => entry.candidateId == i) :
    PromotionHeld threshold i (PromotionWrite.promote.apply i
      ((PromotionWrite.confirm (row.humanConfirmations + 1)).apply i
        ((PromotionWrite.insertRule rule).apply i s))) := by
  obtain ⟨hcount, hpromoted, hrejected, hrules⟩ := h.pending hrow hpending
  have hinserted : ((PromotionWrite.insertRule rule).apply i s).db.whitelistCandidates[i]? =
      some row := insertRule_row hrow
  have hconfirmed := confirm_row (n := row.humanConfirmations + 1) hinserted
  have hconfirms : row.humanConfirmations + 1 =
      (confirmsIn (s.history ++ [.confirmed .pending]) : ℤ) := by
    rw [confirmsIn_append, if_pos rfl, hcount]
    rfl
  refine ⟨_, promote_row hconfirmed, ?_, ?_⟩
  · rw [promote_history hconfirmed, confirm_history hinserted, hpending, confirmsIn_append,
      if_neg (by simp)]
    exact hconfirms
  · rw [promote_history hconfirmed, confirm_history hinserted, insertRule_history, hpending,
      rulesFrom_promote, rulesFrom_confirm, rulesFrom_insertRule hrule, hrules]
    apply StatusFits.promoted
    · simp [hpromoted]
    · simp [hrejected]
    · rw [← hconfirms]
      exact henough

theorem PromotionHeld.reject (h : PromotionHeld threshold i s)
    (hrow : s.db.whitelistCandidates[i]? = some row) (hnot : row.status ≠ .promoted) :
    PromotionHeld threshold i (PromotionWrite.reject.apply i s) := by
  obtain ⟨candidate, hcandidate, hcount, hfits⟩ := h
  obtain rfl := Option.some.inj (hcandidate.symm.trans hrow)
  refine ⟨_, reject_row hrow, ?_, ?_⟩
  · rw [reject_history hrow, confirmsIn_append, if_neg (by simp)]
    exact hcount
  · rw [reject_history hrow, rulesFrom_reject]
    have hpromoted : .promoted ∉ s.history ∧ rulesFrom i s.db = [] := by
      generalize rulesFrom i s.db = rules at hfits
      generalize s.history = history at hfits
      generalize candidate.status = status at hfits hnot
      cases hfits with
      | pending hpromoted _ => exact ⟨hpromoted, rfl⟩
      | rejected hpromoted => exact ⟨hpromoted, rfl⟩
      | promoted => exact absurd rfl hnot
    rw [hpromoted.2]
    apply StatusFits.rejected
    simp [hpromoted.1]

theorem PromotionHeld.law (h : PromotionHeld threshold i s) : PromotionLaw threshold i s := by
  obtain ⟨candidate, hcandidate, hcount, hfits⟩ := h
  have hcounted : ∀ row, s.db.whitelistCandidates[i]? = some row →
      row.humanConfirmations = confirmsIn s.history := by
    intro row hrow
    obtain rfl := Option.some.inj (hcandidate.symm.trans hrow)
    exact hcount
  have hnever {before after : List CandidateEvent} (hnot : .promoted ∉ s.history)
      (hsplit : s.history = before ++ .promoted :: after) : threshold ≤ confirmsIn before := by
    rw [hsplit] at hnot
    exact absurd (List.mem_append_right _ List.mem_cons_self) hnot
  generalize hrules : rulesFrom i s.db = rules at hfits
  generalize hhistory : s.history = history at hfits
  generalize candidate.status = status at hfits
  cases hfits with
  | pending hpromoted hrejected =>
    rw [← hhistory] at hpromoted hrejected
    exact ⟨hcounted, by simp [hrules], by simp [hrules], fun _ _ => hnever hpromoted,
      fun hmem => absurd hmem hrejected⟩
  | rejected hpromoted =>
    rw [← hhistory] at hpromoted
    exact ⟨hcounted, by simp [hrules], by simp [hrules], fun _ _ => hnever hpromoted,
      fun _ => hpromoted⟩
  | @promoted history rule hpromoted hrejected henough =>
    refine ⟨hcounted, by simp [hrules], fun _ => by simp [hhistory], ?_, ?_⟩
    · intro before after hsplit
      rw [hhistory] at hsplit
      obtain ⟨rfl, -, -⟩ := (List.append_cons_inj_of_notMem hpromoted List.not_mem_nil).mp hsplit
      exact henough
    · intro hmem
      rw [hhistory] at hmem
      exact absurd hmem (by simp [hrejected])

end

section

variable {rt : Runtime} {config : DefenseAssetConfig} {threshold : ℤ} {i j : ℕ}
  {s : PromotionStore} {st : Shared PromotionStore PromotionWrite PromotionPoint}
  {point : PromotionPoint} {log : List PromotionWrite} {now : Time}

theorem PromotionKept.log_nil (h : PromotionKept threshold i s point log)
    (hpromoting : point ≠ .promoting) (hcommitting : point ≠ .committing) : log = [] := by
  cases h with
  | idle => rfl
  | confirmed => exact absurd rfl hcommitting
  | promoting => exact absurd rfl hpromoting
  | promoted => exact absurd rfl hcommitting
  | rejected => exact absurd rfl hcommitting

theorem PromotionKept.locks (rt : Runtime) (config : DefenseAssetConfig)
    (h : PromotionKept threshold i s point log) :
    log = [] ∨ i ∈ (promotionProgram rt config i).locked log := by
  cases h with
  | idle => exact .inl rfl
  | _ => exact .inr (by simp [locked, promotionProgram, PromotionWrite.row])

theorem uncontested_confirming {candidate : WhitelistCandidate}
    (hc : st.connections[j]? = some { point := .confirming candidate, log })
    (h : uncontested i st (j, .ok now) = true) :
    ∃ row, st.db.db.whitelistCandidates[i]? = some row ∧ row.status = .pending ∧
      row.humanConfirmations = candidate.humanConfirmations := by
  simp only [uncontested, hc, Option.map_some, Option.any_eq_true, Bool.and_eq_true,
    beq_iff_eq] at h
  exact h

theorem uncontested_rejecting (hc : st.connections[j]? = some { point := .rejecting, log })
    (h : uncontested i st (j, .ok now) = true) :
    ∃ row, st.db.db.whitelistCandidates[i]? = some row ∧ row.status ≠ .promoted := by
  simp only [uncontested, hc, Option.map_some, Option.any_eq_true, bne_iff_ne] at h
  exact h

theorem PromotionKept.commit (h : PromotionKept threshold i s .committing log)
    (hheld : PromotionHeld threshold i s) :
    PromotionHeld threshold i ((promotionProgram rt config i).applyAll log s) := by
  cases h with
  | idle => exact hheld
  | confirmed hrow hpending => exact hheld.confirm hrow hpending
  | promoted hrow hpending henough hrule => exact hheld.promote hrow hpending henough hrule
  | rejected hrow hnot => exact hheld.reject hrow hnot

theorem promotion_outline :
    (promotionProgram rt config i).Outline (fun st l => uncontested i st l = true)
      (PromotionHeld config.whitelistPromotionThreshold i)
      (fun s c => PromotionKept config.whitelistPromotionThreshold i s c.point c.log) where
  keeps := by
    rintro st j a ⟨point, log⟩ s' c' huncontested hc hheld hkept hsteps
    cases hsteps with
    | read statement =>
      refine ⟨hheld, ?_⟩
      cases PromotionMove.of_statement statement with
      | skip | load | find =>
        rw [hkept.log_nil (by simp) (by simp)]
        exact .idle (by simp)
    | write statement free =>
      refine ⟨hheld, ?_⟩
      cases PromotionMove.of_statement statement with
      | confirm now candidate =>
        obtain ⟨row, hrow, hpending, hcount⟩ := uncontested_confirming hc huncontested
        rw [hkept.log_nil (by simp) (by simp), ← hcount]
        exact .confirmed hrow hpending
      | approve now henough hrule =>
        obtain ⟨row, hrow, hpending, hcount⟩ := uncontested_confirming hc huncontested
        rw [← hcount] at henough ⊢
        rw [hkept.log_nil (by simp) (by simp)]
        exact .promoting hrow hpending henough hrule
      | promote =>
        cases hkept with
        | idle h => exact absurd rfl h
        | promoting hrow hpending henough hrule => exact .promoted hrow hpending henough hrule
      | reject =>
        obtain ⟨row, hrow, hnot⟩ := uncontested_rejecting hc huncontested
        rw [hkept.log_nil (by simp) (by simp)]
        exact .rejected hrow hnot
    | commit statement =>
      cases PromotionMove.of_statement statement with
      | commit => exact ⟨hkept.commit hheld, .idle (by simp)⟩
    | abort statement =>
      cases PromotionMove.of_statement statement with
      | stop => exact ⟨hheld, .idle (by simp)⟩
  interfere := by
    rintro st j a ⟨point, log⟩ ⟨point', log'⟩ q huncontested hc hheld hkept hstatement hkept'
      hdisjoint
    rcases hkept'.locks rt config with rfl | hlocked
    · cases hkept' with
      | idle h => exact .idle h
    · rcases hkept.locks rt config with rfl | hlocked'
      · exact hkept'
      · exact absurd hlocked (hdisjoint hlocked')

/--
In every interleaving of requests about a new candidate in which no confirmation is written to
another row than was read and no rejection over a promotion, the law of promotion holds.
-/
theorem promotion_law_kept {requests : List PromotionPoint} {db : Db}
    {candidate : WhitelistCandidate} (hrequests : ∀ point ∈ requests, point.begins = true)
    (hcandidate : db.whitelistCandidates[i]? = some candidate)
    (hpending : candidate.status = .pending) (hcount : candidate.humanConfirmations = 0)
    (hrules : rulesFrom i db = [])
    (h : (promotionSystem rt config i requests db).ReachableBy
      (fun st l => uncontested i st l = true) st) :
    PromotionLaw config.whitelistPromotionThreshold i st.db := by
  have hheld : PromotionHeld config.whitelistPromotionThreshold i { db := db } := by
    refine ⟨candidate, hcandidate, hcount, ?_⟩
    rw [hrules, hpending]
    exact .pending List.not_mem_nil List.not_mem_nil
  refine (promotion_outline.invariant hheld ?_ ?_ h).1.law
  · intro c hc
    obtain ⟨point, hpoint, rfl⟩ := List.mem_map.mp hc
    apply PromotionKept.idle
    rintro rfl
    cases hrequests _ hpoint
  · intro c hc
    obtain ⟨point, hpoint, rfl⟩ := List.mem_map.mp hc
    rfl

end

def confirmedCandidate : WhitelistCandidate where
  investigationId := 0
  suggestedPattern := .obj [("match_pattern", .obj [("field", .str "host_name"),
    ("value", .str "web-1")]), ("pattern_hash", .str "ab")]

def confirmationSample (requests : List PromotionPoint) :
    System (Shared PromotionStore PromotionWrite PromotionPoint) (ℕ × PromotionAnswer) :=
  promotionSystem (sampleRuntime .nondecreasing []) {} 0 requests
    { whitelistCandidates := [confirmedCandidate] }

def lostConfirmation : Shared PromotionStore PromotionWrite PromotionPoint :=
  ((confirmationSample [.confirm, .confirm]).run
    ([0, 1, 0, 0, 1, 1].map fun j => (j, .ok 0))
    (confirmationSample [.confirm, .confirm]).init).getD (confirmationSample []).init

/-- Of two confirmations one is counted. -/
theorem confirmation_is_lost :
    ∃ st, (confirmationSample [.confirm, .confirm]).Reachable st ∧
      ¬ PromotionLaw 3 0 st.db := by
  have hrun : (confirmationSample [.confirm, .confirm]).run
      ([0, 1, 0, 0, 1, 1].map fun j => (j, .ok 0)) (confirmationSample [.confirm, .confirm]).init =
        some lostConfirmation := System.run_getD (by decide +kernel)
  refine ⟨lostConfirmation, System.reachable_of_run hrun, fun h => ?_⟩
  have hcount : (lostConfirmation.db.db.whitelistCandidates[0]?).map (·.humanConfirmations) =
      some 1 := by decide +kernel
  have hconfirms : confirmsIn lostConfirmation.db.history = 2 := by decide +kernel
  obtain ⟨row, hrow, hone⟩ := Option.map_eq_some_iff.mp hcount
  have htwo := h.counted row hrow
  rw [hone, hconfirms] at htwo
  exact absurd htwo (by decide)

/-- Three confirmations one after the other, and a rejection that comes too late. -/
def confirmedRequests : List PromotionPoint := [.confirm, .confirm, .confirm, .reject]

def promotedSample : Shared PromotionStore PromotionWrite PromotionPoint :=
  ((confirmationSample confirmedRequests).runIf (uncontested 0)
    ([0, 0, 0, 1, 1, 1, 2, 2, 2, 2, 3].map fun j => (j, .ok 0))
    (confirmationSample confirmedRequests).init).getD (confirmationSample []).init

theorem promotion_law_kept_three :
    promotedSample.db.history = [.confirmed .pending, .confirmed .pending, .confirmed .pending,
        .promoted] ∧
      (rulesFrom 0 promotedSample.db.db).map (·.name) = ["auto-promoted-ab"] ∧
      PromotionLaw 3 0 promotedSample.db := by
  have hrun : (confirmationSample confirmedRequests).runIf (uncontested 0)
      ([0, 0, 0, 1, 1, 1, 2, 2, 2, 2, 3].map fun j => (j, .ok 0))
      (confirmationSample confirmedRequests).init = some promotedSample :=
    System.runIf_getD (by decide +kernel)
  have hreach := System.ReachableBy.runIf .init hrun
  refine ⟨by decide +kernel, by decide +kernel, ?_⟩
  exact promotion_law_kept (by decide) rfl rfl rfl rfl hreach

end Minsight

import Minsight.Lifecycle.Docket

/-! # Invariants of the docket

Each invariant is kept by every step, and so by every run of the services.
-/

namespace Minsight

open Docket

variable {d d' : Docket} {k : ClockKind} {a : Act}

/-- The investigation asked for a human, or it has been completed since. -/
def InvestigationCore.Asked (i : InvestigationCore) : Prop :=
  i.status = .needsHuman ∨ i.status = .completed

/-- The investigation a request is about is one of its event and asked for a human. -/
def RequestCore.Taken (invs : List InvestigationCore) (r : RequestCore) : Prop :=
  ∃ inv, invs[r.investigationId]? = some inv ∧ inv.eventId = r.eventId ∧ inv.Asked

def Docket.Taken (d : Docket) : Prop := ∀ r ∈ d.requests, r.Taken d.investigations

theorem exists_moves_of_mem {rs rs' : List RequestCore} (h : List.Forall₂ RequestCore.Moves rs rs')
    {r' : RequestCore} (hr : r' ∈ rs') : ∃ r ∈ rs, r.Moves r' := by
  induction h with
  | nil => simp at hr
  | @cons r s rs ss hrs _ ih =>
    rcases List.mem_cons.mp hr with rfl | hmem
    · exact ⟨r, List.mem_cons_self, hrs⟩
    · obtain ⟨r, hr, hm⟩ := ih hmem
      exact ⟨r, List.mem_cons_of_mem _ hr, hm⟩

theorem answer_moves (n : ℕ) (rs : List RequestCore) :
    List.Forall₂ RequestCore.Moves rs (rs.modify n fun r => { r with status := .answered }) :=
  Rows.forall₂_update .refl fun _ _ => ⟨rfl, rfl, nofun⟩

theorem Docket.Taken.moves {rs : List RequestCore} {invs : List InvestigationCore} (h : d.Taken)
    (hm : List.Forall₂ RequestCore.Moves d.requests rs)
    (hi : ∀ (i : ℕ) (inv : InvestigationCore), d.investigations[i]? = some inv → inv.Asked →
      ∃ inv', invs[i]? = some inv' ∧ inv'.eventId = inv.eventId ∧ inv'.Asked) :
    ∀ r ∈ rs, r.Taken invs := by
  intro r' hr'
  obtain ⟨r, hr, hmr⟩ := exists_moves_of_mem hm hr'
  obtain ⟨inv, hinv, he, hs⟩ := h r hr
  obtain ⟨inv', hinv', he', hs'⟩ := hi _ _ hinv hs
  exact ⟨inv', hmr.investigationId ▸ hinv', by rw [he', he, hmr.eventId], hs'⟩

theorem Docket.Step.taken (hs : Step k a d d') (h : d.Taken) : d'.Taken := by
  cases hs with
  | tick => exact h
  | opened => exact h
  | investigated _ _ _ _ retires =>
    refine h.moves (moves_of_retires retires) fun i inv hi hs => ⟨inv, ?_, rfl, hs⟩
    exact (List.getElem?_append_left (Rows.lt_of_getElem? hi)).trans hi
  | moved retires =>
    exact h.moves (moves_of_retires retires) fun i inv hi hs => ⟨inv, hi, rfl, hs⟩
  | @dispatched _ maxResend e i inv _ latest _ _ =>
    intro r hr
    rcases List.mem_append.mp hr with hr | hr
    · refine h.moves (List.forall₂_same.mpr fun r _ => .refl r) (fun j inv' hj hs => ?_) r hr
      by_cases hij : i = j
      · exact ⟨inv'.withStatus .needsHuman,
          Rows.getElem?_update.mpr (.inl ⟨hij, inv', hj, rfl⟩), rfl, .inl rfl⟩
      · exact ⟨inv', Rows.getElem?_update.mpr (.inr ⟨hij, hj⟩), rfl, hs⟩
    · obtain rfl := List.mem_singleton.mp hr
      exact ⟨inv.withStatus .needsHuman,
        Rows.getElem?_update.mpr (.inl ⟨rfl, inv, latest.row, rfl⟩), latest.eventId, .inl rfl⟩
  | @answered _ n r row reopen =>
    refine h.moves (answer_moves n _) fun j inv hj hs => ?_
    by_cases hij : r.investigationId = j
    · refine ⟨_, Rows.getElem?_update.mpr (.inl ⟨hij, inv, hj, rfl⟩), ?_, .inr ?_⟩
      · split <;> rfl
      · split
        · rfl
        · exact hs.resolve_left ‹_›
    · exact ⟨inv, Rows.getElem?_update.mpr (.inr ⟨hij, hj⟩), rfl, hs⟩
  | filed => exact h
  | closed => exact h
  | decided => exact h

/--
No event is being investigated, no investigation is running, and every investigation has
exactly one verdict.
-/
structure Docket.Ended (d : Docket) : Prop where
  events : ∀ s ∈ d.events, s ≠ .investigating
  investigations : ∀ i ∈ d.investigations, i.status ≠ .running
  verdicts : d.verdicts.map Prod.fst = List.range d.investigations.length

theorem Outcome.Complete.ne_running {o : Outcome} (h : o.Complete) : o.status ≠ .running := by
  rw [Outcome.Complete] at h
  rw [h]
  split <;> nofun

theorem verdictEventStatus_ne_investigating (v : InvestigationVerdict) :
    verdictEventStatus v ≠ .investigating := by
  cases v <;> nofun

theorem Docket.Step.ended (hs : Step k a d d') (h : d.Ended) : d'.Ended := by
  have verdicts {invs : List InvestigationCore} (hlen : invs.length = d.investigations.length) :
      d.verdicts.map Prod.fst = List.range invs.length := hlen ▸ h.verdicts
  cases hs with
  | tick => exact ⟨h.events, h.investigations, h.verdicts⟩
  | opened =>
    refine ⟨fun s hs => ?_, h.investigations, h.verdicts⟩
    rcases List.mem_append.mp hs with hs | hs
    · exact h.events s hs
    · rw [List.mem_singleton.mp hs]
      nofun
  | @investigated _ e s f t o rs started finished passed complete retires =>
    refine ⟨fun s' hs' => ?_, fun i hi => ?_, ?_⟩
    · rcases Rows.mem_update hs' with hold | ⟨s₀, -, rfl⟩
      · exact h.events s' hold
      · exact verdictEventStatus_ne_investigating _
    · rcases List.mem_append.mp hi with hold | hnew
      · exact h.investigations i hold
      · rw [List.mem_singleton.mp hnew]
        exact complete.ne_running
    · simp only [investigate, List.map_append, h.verdicts, List.length_append, List.length_singleton]
      exact List.range_succ.symm
  | moved => exact ⟨h.events, h.investigations, h.verdicts⟩
  | @dispatched _ m e i inv =>
    refine ⟨h.events, fun j hj => ?_, verdicts (List.length_modify _ _ _)⟩
    rcases Rows.mem_update hj with hold | ⟨j₀, -, rfl⟩
    · exact h.investigations j hold
    · nofun
  | @answered _ n r row reopen =>
    refine ⟨fun s hs => ?_, fun j hj => ?_, verdicts (List.length_modify _ _ _)⟩
    · cases reopen with
      | false => exact h.events s hs
      | true =>
        rcases Rows.mem_update hs with hold | ⟨s₀, -, rfl⟩
        · exact h.events s hold
        · nofun
    · rcases Rows.mem_update hj with hold | ⟨j₀, hj₀, rfl⟩
      · exact h.investigations j hold
      · split
        · nofun
        · exact h.investigations j₀ hj₀
  | filed => exact ⟨h.events, h.investigations, h.verdicts⟩
  | @closed _ confirm e =>
    refine ⟨fun s hs => ?_, h.investigations, h.verdicts⟩
    rcases Rows.mem_update hs with hold | ⟨s₀, -, rfl⟩
    · exact h.events s hold
    · nofun
  | decided => exact ⟨h.events, h.investigations, h.verdicts⟩

/-- At most one request of an event is sent, and there are at most `n` of them. -/
structure Docket.FewRequests (n : ℕ) (d : Docket) : Prop where
  sent : ∀ e, d.sentCount e ≤ 1
  all : ∀ e, d.requestCount e ≤ n

theorem Docket.FewRequests.moves {n : ℕ} (h : d.FewRequests n)
    (hm : List.Forall₂ RequestCore.Moves d.requests d'.requests) : d'.FewRequests n where
  sent e := by
    refine le_trans (Rows.countP_le_of_forall₂ hm fun r r' hr hq => ?_) (h.sent e)
    rw [Bool.and_eq_true, beq_iff_eq, beq_iff_eq] at hq ⊢
    exact ⟨hr.eventId ▸ hq.1, hr.status hq.2⟩
  all e := by
    refine le_trans (Rows.countP_le_of_forall₂ hm fun r r' hr hq => ?_) (h.all e)
    rw [beq_iff_eq] at hq ⊢
    exact hr.eventId ▸ hq

theorem Docket.Step.fewRequests {maxResend : ℤ} (hs : Step k a d d')
    (ha : ∀ m, a = .dispatched m → m = maxResend) (h : d.FewRequests (maxResend + 1).toNat) :
    d'.FewRequests (maxResend + 1).toNat := by
  cases hs with
  | tick => exact ⟨h.sent, h.all⟩
  | opened => exact ⟨h.sent, h.all⟩
  | investigated _ _ _ _ retires => exact h.moves (moves_of_retires retires)
  | moved retires => exact h.moves (moves_of_retires retires)
  | @dispatched _ m e i inv _ _ unsent few =>
    obtain rfl := ha m rfl
    constructor
    · intro e'
      have hle := h.sent e'
      simp only [sentCount, dispatch, List.countP_append, List.countP_singleton] at hle unsent ⊢
      by_cases he : e = e'
      · subst he
        simp [unsent]
      · simpa [he] using hle
    · intro e'
      have hle := h.all e'
      simp only [requestCount, dispatch, List.countP_append, List.countP_singleton] at hle few ⊢
      by_cases he : e = e'
      · subst he
        simp only [beq_self_eq_true, if_true]
        omega
      · simpa [he] using hle
  | @answered _ n r row reopen => exact h.moves (answer_moves n _)
  | filed => exact ⟨h.sent, h.all⟩
  | closed => exact ⟨h.sent, h.all⟩
  | decided => exact ⟨h.sent, h.all⟩

def Docket.OneCase (d : Docket) : Prop := ∀ i, d.cases.count i ≤ 1

theorem Docket.Step.oneCase (hs : Step k a d d') (h : d.OneCase) : d'.OneCase := by
  cases hs with
  | @filed _ i fresh =>
    intro j
    rw [List.count_append]
    by_cases hj : i = j
    · subst hj
      simp [fresh]
    · simpa [hj] using h j
  | tick => exact h
  | opened => exact h
  | investigated => exact h
  | moved => exact h
  | dispatched => exact h
  | answered => exact h
  | closed => exact h
  | decided => exact h

/-- Investigations follow one another in time, and all of them have finished. -/
structure Docket.Ordered (d : Docket) : Prop where
  finished : ∀ p ∈ d.investigations.map InvestigationCore.span,
    ∃ f, p.2.2 = some f ∧ p.2.1 < f ∧ f ≤ d.clock
  apart : (d.investigations.map InvestigationCore.span).Pairwise fun p q =>
    ∀ f, p.2.2 = some f → f < q.2.1

theorem Docket.Ordered.congr (h : d.Ordered)
    (hi : d'.investigations.map InvestigationCore.span = d.investigations.map InvestigationCore.span)
    (hc : d.clock ≤ d'.clock) : d'.Ordered where
  finished p hp := by
    obtain ⟨f, hf, hs, hle⟩ := h.finished p (hi ▸ hp)
    exact ⟨f, hf, hs, hle.trans hc⟩
  apart := hi ▸ h.apart

theorem withStatus_span (s : InvestigationStatus) (i : InvestigationCore) :
    (i.withStatus s).span = i.span := rfl

theorem dispatch_spans (e i : ℕ) : (d.dispatch e i).investigations.map InvestigationCore.span =
    d.investigations.map InvestigationCore.span :=
  Rows.map_update_eq (withStatus_span _)

theorem answer_spans (n : ℕ) (r : RequestCore) (reopen : Bool) :
    (d.answer n r reopen).investigations.map InvestigationCore.span =
      d.investigations.map InvestigationCore.span := by
  refine Rows.map_update_eq fun i => ?_
  split
  · exact withStatus_span _ i
  · rfl

theorem Docket.Step.ordered (hs : Step .increasing a d d') (h : d.Ordered) : d'.Ordered := by
  have hc : d.clock ≤ d'.clock := hs.passes
  cases hs with
  | tick => exact h.congr rfl hc
  | opened => exact h.congr rfl hc
  | @investigated _ e s f t o rs started finished passed _ _ =>
    have hstart : d.clock < s := started
    have hfinish : s < f := finished
    have hpass : f ≤ t := passed
    constructor
    · intro p hp
      simp only [investigate, List.map_append, List.mem_append, List.map_cons, List.map_nil,
        List.mem_singleton] at hp
      rcases hp with hp | rfl
      · obtain ⟨g, hg, hlt, hle⟩ := h.finished p hp
        exact ⟨g, hg, hlt, hle.trans hc⟩
      · exact ⟨f, rfl, hfinish, hpass⟩
    · simp only [investigate, List.map_append, List.map_cons, List.map_nil]
      refine List.pairwise_append.mpr ⟨h.apart, List.pairwise_singleton _ _, fun p hp q hq g hg => ?_⟩
      obtain rfl := List.mem_singleton.mp hq
      obtain ⟨g', hg', -, hle⟩ := h.finished p hp
      obtain rfl : g' = g := Option.some.inj (hg'.symm.trans hg)
      exact lt_of_le_of_lt hle hstart
  | moved => exact h.congr rfl hc
  | @dispatched _ m e i => exact h.congr (dispatch_spans e i) hc
  | @answered _ n r _ reopen => exact h.congr (answer_spans n r reopen) hc
  | filed => exact h.congr rfl hc
  | closed => exact h.congr rfl hc
  | decided => exact h.congr rfl hc

theorem Docket.Ordered.lt_of_lt (h : d.Ordered) {i j : ℕ} {p q : InvestigationCore} {f : Time}
    (hij : i < j) (hp : d.investigations[i]? = some p) (hq : d.investigations[j]? = some q)
    (hf : p.finishedAt = some f) : f < q.startedAt := by
  obtain ⟨hi, rfl⟩ := List.getElem?_eq_some_iff.mp hp
  obtain ⟨hj, rfl⟩ := List.getElem?_eq_some_iff.mp hq
  have := List.pairwise_iff_getElem.mp h.apart i j (by simpa using hi) (by simpa using hj) hij f
  simpa [InvestigationCore.span, hf] using this

theorem Docket.Ordered.finishedAt (h : d.Ordered) {i : ℕ} {p : InvestigationCore}
    (hp : d.investigations[i]? = some p) :
    ∃ f, p.finishedAt = some f ∧ p.startedAt < f ∧ f ≤ d.clock :=
  h.finished p.span (List.mem_map_of_mem (List.mem_of_getElem? hp))

def Docket.VerdictsBelow (d : Docket) : Prop := ∀ p ∈ d.verdicts, p.1 < d.investigations.length

theorem Docket.Step.verdictsBelow (hs : Step k a d d') (h : d.VerdictsBelow) :
    d'.VerdictsBelow := by
  cases hs with
  | investigated =>
    intro p hp
    simp only [investigate, List.length_append, List.length_singleton]
    rcases List.mem_append.mp hp with hp | hp
    · exact (h p hp).trans (Nat.lt_succ_self _)
    · obtain rfl := List.mem_singleton.mp hp
      exact Nat.lt_succ_self _
  | dispatched => simpa [VerdictsBelow, dispatch] using h
  | answered => simpa [VerdictsBelow, answer] using h
  | tick => exact h
  | opened => exact h
  | moved => exact h
  | filed => exact h
  | closed => exact h
  | decided => exact h

/-- The latest investigation of the event is completed with a verdict that can be settled. -/
def Docket.Settleable (d : Docket) (e : ℕ) : Prop :=
  ∃ i inv v, LatestOf d.investigations e i inv ∧ inv.status = .completed ∧ d.verdictOf i = some v ∧
    v.isSettleable = true

def Docket.Concluded (d : Docket) : Prop :=
  ∀ e : ℕ, d.events[e]? = some .concluded → d.Settleable e

theorem getElem?_of_spans (hs : d'.investigations.map InvestigationCore.span =
    d.investigations.map InvestigationCore.span) {j : ℕ} {inv' : InvestigationCore}
    (h : d'.investigations[j]? = some inv') :
    ∃ inv, d.investigations[j]? = some inv ∧ inv.span = inv'.span := by
  have hj := congrArg (·[j]?) hs
  simp only [List.getElem?_map, h, Option.map_some] at hj
  exact Option.map_eq_some_iff.mp hj.symm

theorem LatestOf.of_spans {e i : ℕ} {inv inv' : InvestigationCore} (h : LatestOf d.investigations e i inv)
    (hs : d'.investigations.map InvestigationCore.span =
      d.investigations.map InvestigationCore.span)
    (hrow : d'.investigations[i]? = some inv') : LatestOf d'.investigations e i inv' := by
  obtain ⟨p, hp, hspan⟩ := getElem?_of_spans hs hrow
  obtain rfl : inv = p := Option.some.inj (h.row.symm.trans hp)
  simp only [InvestigationCore.span, Prod.mk.injEq] at hspan
  refine ⟨hrow, hspan.1 ▸ h.eventId, fun j q' hq' he => ?_⟩
  obtain ⟨q, hq, hspan'⟩ := getElem?_of_spans hs hq'
  simp only [InvestigationCore.span, Prod.mk.injEq] at hspan'
  rw [← hspan.2.1, ← hspan'.2.1]
  exact h.last j q hq (hspan'.1.trans he)

theorem isSettleable_of_verdictEventStatus {v : InvestigationVerdict}
    (h : verdictEventStatus v = .concluded) : v.isSettleable = true := by
  cases v <;> first | rfl | cases h

theorem latest_investigate (h : d.Ordered) {e : ℕ} {s f : Time} {o : Outcome}
    (hs : d.clock < s) : LatestOf (d.investigate e s f o).investigations e
      d.investigations.length { eventId := e, status := o.status, startedAt := s, finishedAt := some f } := by
  refine ⟨by simp [investigate], rfl, fun j inv hj he => ?_⟩
  rcases Rows.getElem?_insert.mp hj with hj | ⟨-, rfl⟩
  · obtain ⟨g, -, hlt, hle⟩ := h.finishedAt hj
    exact (hlt.trans_le (hle.trans hs.le)).le
  · exact le_rfl

theorem LatestOf.investigate {e e' i : ℕ} {inv : InvestigationCore} {s f : Time}
    {o : Outcome} (h : LatestOf d.investigations e i inv) (he : e' ≠ e) :
    LatestOf (d.investigate e' s f o).investigations e i inv := by
  refine ⟨Rows.getElem?_insert.mpr (.inl h.row), h.eventId, fun j inv' hj he' => ?_⟩
  rcases Rows.getElem?_insert.mp hj with hj | ⟨-, rfl⟩
  · exact h.last j inv' hj he'
  · exact absurd he' he

theorem verdictOf_investigate_of_some {i : ℕ} {v : InvestigationVerdict}
    (h : d.verdictOf i = some v) (e : ℕ) (s f : Time) (o : Outcome) :
    (d.investigate e s f o).verdictOf i = some v := by
  obtain ⟨p, hp, rfl⟩ := Option.map_eq_some_iff.mp h
  simp [verdictOf, Docket.investigate, List.find?_append, hp]

theorem verdictOf_investigate_self (h : d.VerdictsBelow) (e : ℕ) (s f : Time) (o : Outcome) :
    (d.investigate e s f o).verdictOf d.investigations.length = some o.verdict := by
  have hnone : d.verdicts.find? (fun v => v.1 == d.investigations.length) = none := by
    refine List.find?_eq_none.mpr fun p hp => ?_
    simpa using (h p hp).ne
  simp [verdictOf, Docket.investigate, List.find?_append, hnone]

theorem Docket.Step.concluded (hs : Step .increasing a d d') (ho : d.Ordered)
    (hv : d.VerdictsBelow) (h : d.Concluded) : d'.Concluded := by
  cases hs with
  | tick => exact h
  | opened =>
    intro e he
    rcases Rows.getElem?_insert.mp he with he | ⟨-, he⟩
    · exact h e he
    · cases he
  | @investigated _ e s f t o rs started finished passed complete retires =>
    intro e' he'
    rcases Rows.getElem?_update.mp he' with ⟨rfl, _, -, hc⟩ | ⟨hne, he'⟩
    · have hcomplete : o.status = .completed := complete.trans (by simp [hc])
      exact ⟨_, { eventId := e, status := o.status, startedAt := s, finishedAt := some f }, _,
        latest_investigate ho started, hcomplete, verdictOf_investigate_self hv e s f o,
        isSettleable_of_verdictEventStatus hc⟩
    · obtain ⟨i, inv, v, hl, hcomplete, hverdict, hset⟩ := h e' he'
      exact ⟨i, inv, v, hl.investigate hne, hcomplete,
        verdictOf_investigate_of_some hverdict e s f o, hset⟩
  | moved => exact h
  | @dispatched _ m e i inv pending latest unsent few =>
    intro e' he'
    obtain ⟨j, inv', v, hl, hcomplete, hverdict, hset⟩ := h e' he'
    -- the request is about another event, which waits for a human
    have hij : i ≠ j := by
      rintro rfl
      obtain rfl : inv = inv' := Option.some.inj (latest.row.symm.trans hl.row)
      have hc : d.events[e']? = some .concluded := he'
      rw [← latest.eventId, hl.eventId, hc] at pending
      cases pending
    exact ⟨j, inv', v, hl.of_spans (dispatch_spans e i)
      (Rows.getElem?_update.mpr (.inr ⟨hij, hl.row⟩)), hcomplete, hverdict, hset⟩
  | @answered _ n r row reopen =>
    intro e' he'
    have hconc : d.events[e']? = some .concluded := by
      cases reopen with
      | false => exact he'
      | true =>
        rcases Rows.getElem?_update.mp he' with ⟨-, _, -, hc⟩ | ⟨-, he'⟩
        · cases hc
        · exact he'
    obtain ⟨j, inv', v, hl, hcomplete, hverdict, hset⟩ := h e' hconc
    refine ⟨j, inv', v, hl.of_spans (answer_spans n r reopen) ?_, hcomplete, hverdict, hset⟩
    by_cases hij : r.investigationId = j
    · exact Rows.getElem?_update.mpr (.inl ⟨hij, inv', hl.row, by simp [hcomplete]⟩)
    · exact Rows.getElem?_update.mpr (.inr ⟨hij, hl.row⟩)
  | filed => exact h
  | @closed _ confirm e i inv v concluded closable =>
    intro e' he'
    rcases Rows.getElem?_update.mp he' with ⟨-, _, -, hc⟩ | ⟨-, he'⟩
    · cases hc
    · exact h e' he'
  | decided => exact h

def Docket.Answered (d : Docket) (i : ℕ) : Prop :=
  ∃ r ∈ d.requests, r.investigationId = i ∧ r.status = .answered

/-- The latest investigation of an event that waits for a human has no answer. -/
def Docket.Unanswered (d : Docket) : Prop :=
  ∀ (e i : ℕ) (inv : InvestigationCore), d.events[e]? = some .humanPending →
    LatestOf d.investigations e i inv → ¬d.Answered i

theorem answered_of_retires {rs : List RequestCore} {i : ℕ}
    (h : List.Forall₂ RequestCore.Retires d.requests rs) :
    Docket.Answered { d with requests := rs } i ↔ d.Answered i := by
  unfold Docket.Answered
  dsimp only
  generalize d.requests = qs at h
  induction h with
  | nil => simp
  | @cons q r qs rs hqr _ ih =>
    simp only [List.mem_cons, exists_eq_or_imp, hqr.investigationId, hqr.answered, ih]

theorem Docket.Unanswered.mono (h : d.Unanswered)
    (he : ∀ e : ℕ, d'.events[e]? = some .humanPending → d.events[e]? = some .humanPending)
    (hl : ∀ e i inv, LatestOf d'.investigations e i inv → ∃ inv', LatestOf d.investigations e i inv')
    (ha : ∀ i, d'.Answered i → d.Answered i) : d'.Unanswered := by
  intro e i inv hpending hlatest hanswered
  obtain ⟨inv', hlatest'⟩ := hl e i inv hlatest
  exact h e i inv' (he e hpending) hlatest' (ha i hanswered)

/-- The latest investigation after another one has ended: the new one, or one of another event. -/
theorem LatestOf.of_investigate {e e' i : ℕ} {inv : InvestigationCore} {s f : Time} {o : Outcome}
    (ho : d.Ordered) (hs : d.clock < s)
    (h : LatestOf (d.investigate e s f o).investigations e' i inv) :
    i = d.investigations.length ∨ e' ≠ e ∧ LatestOf d.investigations e' i inv := by
  rcases Rows.getElem?_insert.mp h.row with hrow | ⟨hi, -⟩
  · refine .inr ⟨fun he => ?_, hrow, h.eventId, fun j inv' hj => ?_⟩
    · -- the new investigation of the event started later
      subst he
      have hlast := h.last _ _ (latest_investigate ho hs (f := f) (o := o)).row rfl
      obtain ⟨g, -, hlt, hle⟩ := ho.finishedAt hrow
      exact absurd (hlt.trans_le (hle.trans hs.le)) (not_lt.mpr hlast)
    · exact h.last j inv' (Rows.getElem?_insert.mpr (.inl hj))
  · exact .inl hi

theorem Docket.Step.unanswered (hs : Step .increasing a d d') (ha : a ≠ .answered false)
    (ho : d.Ordered) (ht : d.Taken) (h : d.Unanswered) : d'.Unanswered := by
  have latest {invs : List InvestigationCore} (hspans : invs.map InvestigationCore.span =
      d.investigations.map InvestigationCore.span) :
      ∀ e i inv, LatestOf invs e i inv → ∃ inv', LatestOf d.investigations e i inv' := by
    intro e i inv hl
    have hl' : LatestOf ({ d with investigations := invs } : Docket).investigations e i inv := hl
    obtain ⟨inv', hrow, -⟩ := getElem?_of_spans hspans hl'.row
    exact ⟨inv', LatestOf.of_spans (d := { d with investigations := invs }) hl hspans.symm hrow⟩
  cases hs with
  | tick => exact h
  | opened =>
    refine h.mono (fun e he => ?_) (fun e i inv hl => ⟨inv, hl⟩) fun i => id
    rcases Rows.getElem?_insert.mp he with he | ⟨-, he⟩
    · exact he
    · cases he
  | @investigated _ e s f t o rs started finished passed complete retires =>
    intro e' i inv hpending hlatest hanswered
    have hold : d.Answered i :=
      (answered_of_retires (d := d.investigate e s f o) retires).mp hanswered
    rcases hlatest.of_investigate ho started with rfl | ⟨hne, hlatest⟩
    · -- no request is about an investigation that has just been started
      obtain ⟨r, hr, hid, -⟩ := hold
      obtain ⟨inv', hrow, -⟩ := ht r hr
      rw [hid] at hrow
      exact absurd (Rows.lt_of_getElem? hrow) (lt_irrefl _)
    · rcases Rows.getElem?_update.mp hpending with ⟨he, -⟩ | ⟨-, hpending⟩
      · exact hne he.symm
      · exact h e' i inv hpending hlatest hold
  | moved retires =>
    exact h.mono (fun _ => id) (fun _ _ inv hl => ⟨inv, hl⟩) fun i => (answered_of_retires retires).mp
  | @dispatched _ m e i inv =>
    refine h.mono (fun _ => id) (latest (dispatch_spans e i)) ?_
    rintro j ⟨r, hr, hid, hanswered⟩
    rcases List.mem_append.mp hr with hr | hr
    · exact ⟨r, hr, hid, hanswered⟩
    · rw [List.mem_singleton.mp hr] at hanswered
      cases hanswered
  | @answered _ n r row reopen =>
    obtain rfl : reopen = true := by simpa using ha
    intro e i inv hpending hlatest hanswered
    obtain ⟨inv', hlatest'⟩ := latest (answer_spans n r true) e i inv hlatest
    rcases Rows.getElem?_update.mp hpending with ⟨-, _, -, hc⟩ | ⟨hne, hpending⟩
    · cases hc
    · obtain ⟨r', hr', hid, hstatus⟩ := hanswered
      obtain ⟨m, hm⟩ := List.mem_iff_getElem?.mp hr'
      rcases Rows.getElem?_update.mp hm with ⟨rfl, r₀, hr₀, rfl⟩ | ⟨-, hold⟩
      · -- the request that is answered is about another event
        obtain rfl := Option.some.inj (hr₀.symm.trans row)
        obtain ⟨inv₀, hrow₀, he₀, -⟩ := ht _ (List.mem_of_getElem? row)
        rw [show _ = i from hid] at hrow₀
        obtain rfl := Option.some.inj (hrow₀.symm.trans hlatest'.row)
        exact hne (he₀.symm.trans hlatest'.eventId)
      · exact h e i inv' hpending hlatest' ⟨r', List.mem_of_getElem? hold, hid, hstatus⟩
  | filed => exact h
  | @closed _ confirm e =>
    refine h.mono (fun e' he' => ?_) (fun _ _ inv hl => ⟨inv, hl⟩) fun i => id
    rcases Rows.getElem?_update.mp he' with ⟨-, _, -, hc⟩ | ⟨-, he'⟩
    · cases hc
    · exact he'
  | decided => exact h

/-- The event's latest investigation is completed, has its case and, if that is asked for, no
disposition that is still a suggestion. -/
def Docket.Settled (d : Docket) (confirm : Bool) (e : ℕ) : Prop :=
  ∃ i inv v, LatestOf d.investigations e i inv ∧ inv.status = .completed ∧ d.verdictOf i = some v ∧
    v.isSettleable = true ∧ 0 < d.cases.count i ∧
    (confirm = true → ∀ p ∈ d.dispositions, p.1 = i → p.2 ≠ .suggested)

theorem Docket.Closable.latest {confirm : Bool} {e i : ℕ} {inv : InvestigationCore}
    {v : InvestigationVerdict} (hc : d.Closable confirm e i inv v) (ho : d.Ordered)
    (h : d.Settleable e) : LatestOf d.investigations e i inv := by
  obtain ⟨j, inv', v', hl, hcomplete, -⟩ := h
  obtain ⟨t', ht', hlt', -⟩ := ho.finishedAt hl.row
  obtain ⟨t, ht, hle⟩ := hc.last j inv' t' hl.row hl.eventId hcomplete ht'
  rcases lt_trichotomy i j with hij | rfl | hij
  · have := ho.lt_of_lt hij hc.row hl.row ht
    exact absurd (this.trans hlt') (not_lt.mpr hle)
  · obtain rfl : inv = inv' := Option.some.inj (hc.row.symm.trans hl.row)
    exact hl
  · have := ho.lt_of_lt hij hl.row hc.row ht'
    exact absurd (hlt'.trans this) (not_lt.mpr (hl.last i inv hc.row hc.eventId))

structure Docket.Lawful (d : Docket) : Prop where
  ordered : d.Ordered
  verdictsBelow : d.VerdictsBelow
  concluded : d.Concluded

theorem Docket.Step.lawful (hs : Step .increasing a d d') (h : d.Lawful) : d'.Lawful where
  ordered := hs.ordered h.ordered
  verdictsBelow := hs.verdictsBelow h.verdictsBelow
  concluded := hs.concluded h.ordered h.verdictsBelow h.concluded

/-- Events are closed only when they are settled, and settled events stay so. -/
structure ClosesSettled (confirm : Bool) (d d' : Docket) : Prop where
  keeps : ∀ e, d.Settled confirm e → d'.Settled confirm e
  closes : ∀ e : ℕ, d'.events[e]? = some .closed →
    d.events[e]? = some .closed ∨ d'.Settled confirm e

theorem ClosesSettled.refl (confirm : Bool) (d : Docket) : ClosesSettled confirm d d :=
  ⟨fun _ => id, fun _ => .inl⟩

theorem ClosesSettled.trans {confirm : Bool} {d d' d'' : Docket} (h : ClosesSettled confirm d d')
    (h' : ClosesSettled confirm d' d'') : ClosesSettled confirm d d'' where
  keeps e hs := h'.keeps e (h.keeps e hs)
  closes e he := by
    rcases h'.closes e he with he | hs
    · exact (h.closes e he).imp_right (h'.keeps e)
    · exact .inr hs

theorem Docket.Step.closesSettled {confirm : Bool} (hs : Step .increasing a d d')
    (ha : a = .tick ∨ a = .filed ∨ a = .closed confirm) (h : d.Lawful) :
    ClosesSettled confirm d d' := by
  rcases ha with rfl | rfl | rfl
  · cases hs
    exact ⟨fun _ => id, fun _ => .inl⟩
  · cases hs
    refine ⟨?_, fun _ => .inl⟩
    rintro e ⟨i, inv, v, hl, hc, hv, hset, hcase, hres⟩
    refine ⟨i, inv, v, hl, hc, hv, hset, ?_, hres⟩
    rw [List.count_append]
    omega
  · cases hs with
    | @closed _ _ e i inv v concluded closable =>
      have hl := closable.latest h.ordered (h.concluded e concluded)
      refine ⟨fun _ => id, fun e' he' => ?_⟩
      rcases Rows.getElem?_update.mp he' with ⟨rfl, -⟩ | ⟨-, he'⟩
      · exact .inr ⟨i, inv, v, hl, closable.completed, closable.verdict, closable.settleable,
          closable.case, closable.resolved⟩
      · exact .inl he'

theorem Docket.Steps.lawful {A : Act → Prop} (h : Steps .increasing A d d') (hd : d.Lawful) :
    d'.Lawful :=
  h.invariant (fun _ _ _ _ => Step.lawful) hd

theorem Docket.Steps.closesSettled {confirm : Bool} {A : Act → Prop}
    (h : Steps .increasing A d d') (hA : ∀ a, A a → a = .filed ∨ a = .closed confirm)
    (hd : d.Lawful) : ClosesSettled confirm d d' := by
  have hrel := h.rel (R := fun d d' => d.Lawful → d'.Lawful ∧ ClosesSettled confirm d d')
    (fun d hd => ⟨hd, .refl confirm d⟩)
    (fun d d' d'' h h' hd => by
      obtain ⟨hd', hc⟩ := h hd
      obtain ⟨hd'', hc'⟩ := h' hd'
      exact ⟨hd'', hc.trans hc'⟩)
    (fun a d d' ha hs hd => ⟨hs.lawful hd, hs.closesSettled (ha.imp_right (hA a)) hd⟩)
  exact (hrel hd).2

theorem Docket.Steps.closed_of_closed {A : Act → Prop} (h : Steps k A d d')
    (hA : ∀ confirm, ¬ A (.closed confirm)) {e : ℕ} (he : d'.events[e]? = some .closed) :
    d.events[e]? = some .closed := by
  refine h.rel (R := fun d d' => d'.events[e]? = some .closed → d.events[e]? = some .closed)
    (fun _ => id) (fun _ _ _ h h' he => h (h' he)) (fun a d d' ha hs he => ?_) he
  cases hs with
  | opened =>
    rcases Rows.getElem?_insert.mp he with he | ⟨-, he⟩
    · exact he
    · cases he
  | @investigated _ e' s f t o rs =>
    rcases Rows.getElem?_update.mp he with ⟨-, _, -, hc⟩ | ⟨-, he⟩
    · exact absurd hc (by cases o.verdict <;> decide)
    · exact he
  | @answered _ n r row reopen =>
    cases reopen with
    | false => exact he
    | true =>
      rcases Rows.getElem?_update.mp he with ⟨-, _, -, hc⟩ | ⟨-, he⟩
      · cases hc
      · exact he
  | @closed _ confirm => exact absurd (ha.resolve_left nofun) (hA confirm)
  | tick => exact he
  | moved => exact he
  | dispatched => exact he
  | filed => exact he
  | decided => exact he

end Minsight

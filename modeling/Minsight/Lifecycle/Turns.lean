import Minsight.Lifecycle.Invariants

/-! # Steps taken where they are due

The services investigate events of the queue only, and a reply counts only for a request that is
sent. So an event that is neither due for an investigation, nor in the hands of a human, nor to be
settled is left as it is.
-/

namespace Minsight

open Docket

structure EventFile where
  status : Option EventStatus
  investigations : List InvestigationCore

namespace EventFile

def Queued (f : EventFile) : Prop := f.status = some .pendingReview

/-- The event is in the queue and none of its investigations is completed. -/
structure Waits (f : EventFile) : Prop where
  queued : f.Queued
  incomplete : ∀ inv ∈ f.investigations, inv.status ≠ .completed

/-- The event is in the queue and none of its investigations is running or completed. -/
structure Pickable (f : EventFile) : Prop where
  queued : f.Queued
  running : ∀ inv ∈ f.investigations, inv.status ≠ .running
  completed : ∀ inv ∈ f.investigations, inv.status ≠ .completed

structure Idle (f : EventFile) : Prop where
  known : f.status ≠ none
  humanPending : f.status ≠ some .humanPending
  concluded : f.status ≠ some .concluded

theorem Pickable.waits {f : EventFile} (h : f.Pickable) : f.Waits := ⟨h.queued, h.completed⟩

end EventFile

namespace Docket

def file (d : Docket) (e : ℕ) : EventFile where
  status := d.events[e]?
  investigations := d.investigations.filter fun inv => inv.eventId == e

/-- A step that investigates only events whose files `p` holds of, and answers only requests that
are sent. -/
inductive Due (k : ClockKind) (p : EventFile → Prop) : Docket → Docket → Prop
  | investigated {d : Docket} {e : ℕ} {s f t : Time} {o : Outcome} {rs : List RequestCore}
      (due : p (d.file e)) (started : k.Follows d.clock s) (finished : k.Follows s f)
      (passed : k.Passes f t) (complete : o.Complete)
      (retires : List.Forall₂ RequestCore.Retires d.requests rs) :
      Due k p d { d.investigate e s f o with requests := rs, clock := t }
  | answered {d : Docket} {n : ℕ} {r : RequestCore} (row : d.requests[n]? = some r)
      (sent : r.status = .sent) (reopen : Bool) : Due k p d (d.answer n r reopen)
  | other {a : Act} {d d' : Docket} (notInvestigated : a ≠ .investigated)
      (notAnswered : ∀ reopen, a ≠ .answered reopen) (step : Step k a d d') : Due k p d d'

def Turns (k : ClockKind) (p : EventFile → Prop) : Docket → Docket → Prop :=
  Relation.ReflTransGen (Due k p)

variable {d d' : Docket} {k : ClockKind} {p q : EventFile → Prop} {e : ℕ}

theorem Due.step (h : Due k p d d') : ∃ a, Step k a d d' := by
  cases h with
  | investigated _ started finished passed complete retires =>
    exact ⟨_, .investigated started finished passed complete retires⟩
  | answered row _ reopen => exact ⟨_, .answered row reopen⟩
  | other _ _ step => exact ⟨_, step⟩

theorem Due.mono (hpq : ∀ f, p f → q f) (h : Due k p d d') : Due k q d d' := by
  cases h with
  | investigated due started finished passed complete retires =>
    exact .investigated (hpq _ due) started finished passed complete retires
  | answered row sent reopen => exact .answered row sent reopen
  | other hi ha step => exact .other hi ha step

theorem Turns.mono (hpq : ∀ f, p f → q f) (h : Turns k p d d') : Turns k q d d' :=
  Relation.ReflTransGen.mono (fun _ _ => Due.mono hpq) _ _ h

/-- What every step keeps, with an invariant to rely on, is kept by any number of steps. -/
theorem Turns.rel {I : Docket → Prop} {R : Docket → Docket → Prop} (refl : ∀ d, R d d)
    (trans : ∀ d d' d'', R d d' → R d' d'' → R d d'')
    (step : ∀ d d', I d → Due k p d d' → I d' ∧ R d d') (h : Turns k p d d') (hd : I d) :
    I d' ∧ R d d' := by
  induction h with
  | refl => exact ⟨hd, refl _⟩
  | tail _ hs ih =>
    obtain ⟨hI, hR⟩ := step _ _ ih.1 hs
    exact ⟨hI, trans _ _ _ ih.2 hR⟩

theorem Turns.invariant {I : Docket → Prop} (step : ∀ d d', I d → Due k p d d' → I d')
    (h : Turns k p d d') (hd : I d) : I d' :=
  (h.rel (R := fun _ _ => True) (fun _ => trivial) (fun _ _ _ _ _ => trivial)
    (fun d d' hI hs => ⟨step d d' hI hs, trivial⟩) hd).1

theorem turns_of_steps {A : Act → Prop} (hi : ¬A .investigated)
    (ha : ∀ reopen, ¬A (.answered reopen)) (h : Steps k A d d') : Turns k p d d' := by
  refine Relation.ReflTransGen.mono ?_ _ _ h
  rintro d d' ⟨a, hkind, hs⟩
  refine .other ?_ ?_ hs
  · rintro rfl
    rcases hkind with hkind | hkind
    · cases hkind
    · exact hi hkind
  · rintro reopen rfl
    rcases hkind with hkind | hkind
    · cases hkind
    · exact ha reopen hkind

/-- A request that is sent is the only one about an event that waits for a human. -/
structure Awaited (d : Docket) : Prop where
  pending : ∀ r ∈ d.requests, r.status = .sent → d.events[r.eventId]? = some .humanPending
  single : ∀ (i j : ℕ) (r r' : RequestCore), d.requests[i]? = some r → d.requests[j]? = some r' →
    r.status = .sent → r'.status = .sent → r.eventId = r'.eventId → i = j

theorem Awaited.moves {rs : List RequestCore} (h : d.Awaited)
    (hm : List.Forall₂ RequestCore.Moves d.requests rs) :
    Awaited { d with requests := rs } where
  pending r' hr' hsent := by
    obtain ⟨r, hr, hmr⟩ := exists_moves_of_mem hm hr'
    rw [hmr.eventId]
    exact h.pending r hr (hmr.status hsent)
  single i j r r' hi hj hr hr' he := by
    obtain ⟨r₁, h₁, hm₁⟩ := Rows.getElem?_of_forall₂ hm hi
    obtain ⟨r₂, h₂, hm₂⟩ := Rows.getElem?_of_forall₂ hm hj
    refine h.single i j r₁ r₂ h₁ h₂ (hm₁.status hr) (hm₂.status hr') ?_
    rw [← hm₁.eventId, ← hm₂.eventId]
    exact he

theorem Awaited.events (h : d.Awaited) (events : List EventStatus)
    (he : ∀ r ∈ d.requests, r.status = .sent → events[r.eventId]? = d.events[r.eventId]?) :
    Awaited { d with events := events } where
  pending r hr hsent := (he r hr hsent).trans (h.pending r hr hsent)
  single := h.single

theorem Awaited.congr (h : d.Awaited) (hevents : d'.events = d.events)
    (hrequests : d'.requests = d.requests) : d'.Awaited where
  pending := hrequests ▸ hevents ▸ h.pending
  single := hrequests ▸ h.single

/-- An event that has a status other than waiting for a human has no request that is sent. -/
theorem Awaited.ne (h : d.Awaited) {r : RequestCore} (hr : r ∈ d.requests)
    (hsent : r.status = .sent) (he : d.events[e]? ≠ some .humanPending) : e ≠ r.eventId := by
  rintro rfl
  exact he (h.pending r hr hsent)

theorem Awaited.answer (h : d.Awaited) {n : ℕ} {r : RequestCore} (row : d.requests[n]? = some r)
    (sent : r.status = .sent) (reopen : Bool) : (d.answer n r reopen).Awaited := by
  have hmoved := h.moves (answer_moves n d.requests)
  refine (hmoved.events (d.answer n r reopen).events ?_).congr rfl rfl
  -- the request was the only one about its event
  intro r' hr' hsent'
  obtain ⟨j, hj⟩ := List.mem_iff_getElem?.mp hr'
  have hne : r.eventId ≠ r'.eventId := by
    intro he
    rcases Rows.getElem?_update.mp hj with ⟨-, _, -, rfl⟩ | ⟨hnj, hold⟩
    · cases hsent'
    · exact hnj (h.single n j r r' row hold sent hsent' he)
  cases reopen with
  | false => rfl
  | true => exact List.getElem?_modify_ne _ _ hne

theorem Awaited.dispatch (h : d.Awaited) {i : ℕ} (pending : d.events[e]? = some .humanPending)
    (unsent : d.sentCount e = 0) : (d.dispatch e i).Awaited := by
  have hnone : ∀ r ∈ d.requests, r.status = .sent → r.eventId ≠ e := by
    intro r hr hsent he
    have hcount := List.countP_eq_zero.mp unsent r hr
    simp [hsent, he] at hcount
  constructor
  · intro r hr hsent
    rcases List.mem_append.mp hr with hr | hr
    · exact h.pending r hr hsent
    · obtain rfl := List.mem_singleton.mp hr
      exact pending
  · intro j j' r r' hj hj' hr hr' he
    rcases Rows.getElem?_insert.mp hj with hj | ⟨rfl, rfl⟩
    · rcases Rows.getElem?_insert.mp hj' with hj' | ⟨rfl, rfl⟩
      · exact h.single j j' r r' hj hj' hr hr' he
      · exact absurd he (hnone r (List.mem_of_getElem? hj) hr)
    · rcases Rows.getElem?_insert.mp hj' with hj' | ⟨rfl, rfl⟩
      · exact absurd he.symm (hnone r' (List.mem_of_getElem? hj') hr')
      · rfl

theorem Due.awaited (hp : ∀ f, p f → f.Queued) (hs : Due k p d d') (h : d.Awaited) :
    d'.Awaited := by
  cases hs with
  | @investigated _ e s f t o rs due _ _ _ _ retires =>
    have hqueued : d.events[e]? = some .pendingReview := hp _ due
    have hevents : Awaited { d with
        events := d.events.modify e fun _ => verdictEventStatus o.verdict } := by
      refine h.events _ fun r hr hsent => List.getElem?_modify_ne _ _ ?_
      exact h.ne hr hsent (by rw [hqueued]; nofun)
    exact (hevents.moves (moves_of_retires retires)).congr rfl rfl
  | answered row sent reopen => exact h.answer row sent reopen
  | other hi ha step =>
    cases step with
    | tick => exact h.congr rfl rfl
    | opened =>
      refine (h.events _ fun r hr hsent => ?_).congr rfl rfl
      exact List.getElem?_append_left (Rows.lt_of_getElem? (h.pending r hr hsent))
    | investigated => exact absurd rfl hi
    | moved retires => exact h.moves (moves_of_retires retires)
    | dispatched pending _ unsent _ => exact h.dispatch pending unsent
    | answered _ reopen => exact absurd rfl (ha reopen)
    | filed => exact h.congr rfl rfl
    | @closed _ _ e _ _ _ concluded _ =>
      refine (h.events _ fun r hr hsent => List.getElem?_modify_ne _ _ ?_).congr rfl rfl
      exact h.ne hr hsent (by rw [concluded]; nofun)
    | decided => exact h.congr rfl rfl

/-- The file of an event and the number of its requests are as they were. -/
structure Untouched (e : ℕ) (d d' : Docket) : Prop where
  file : d'.file e = d.file e
  requestCount : d'.requestCount e = d.requestCount e

theorem Untouched.refl (e : ℕ) (d : Docket) : Untouched e d d := ⟨rfl, rfl⟩

theorem Untouched.trans {d'' : Docket} (h : Untouched e d d') (h' : Untouched e d' d'') :
    Untouched e d d'' :=
  ⟨h'.file.trans h.file, h'.requestCount.trans h.requestCount⟩

theorem file_congr (hstatus : d'.events[e]? = d.events[e]?)
    (hinvs : (d'.investigations.filter fun inv => inv.eventId == e) =
      d.investigations.filter fun inv => inv.eventId == e) : d'.file e = d.file e := by
  rw [file, file, hstatus, hinvs]

theorem file_of_eq (hevents : d'.events = d.events) (hinvs : d'.investigations = d.investigations)
    (e : ℕ) : d'.file e = d.file e := by
  rw [file, file, hevents, hinvs]

theorem file_investigate_ne {e' : ℕ} (s f : Time) (o : Outcome) (hne : e' ≠ e) :
    (d.investigate e' s f o).file e = d.file e := by
  refine file_congr (List.getElem?_modify_ne _ _ hne) ?_
  simp [investigate, List.filter_append, hne]

theorem filter_modify_ne {i : ℕ} {inv : InvestigationCore}
    {f : InvestigationCore → InvestigationCore} (row : d.investigations[i]? = some inv)
    (hne : inv.eventId ≠ e) (hf : ∀ inv, (f inv).eventId = inv.eventId) :
    ((d.investigations.modify i f).filter fun inv => inv.eventId == e) =
      d.investigations.filter fun inv => inv.eventId == e := by
  refine Rows.filter_update fun inv' hinv' => ?_
  obtain rfl := Option.some.inj (row.symm.trans hinv')
  rw [hf, beq_eq_false_iff_ne]
  exact ⟨hne, hne⟩

theorem file_dispatch_ne {e' i : ℕ} {inv : InvestigationCore}
    (latest : LatestOf d.investigations e' i inv) (hne : e' ≠ e) :
    (d.dispatch e' i).file e = d.file e :=
  file_congr rfl (filter_modify_ne latest.row (latest.eventId.symm ▸ hne) fun _ => rfl)

theorem file_answer_ne {n : ℕ} {r : RequestCore} (ht : d.Taken) (row : d.requests[n]? = some r)
    (reopen : Bool) (hne : r.eventId ≠ e) : (d.answer n r reopen).file e = d.file e := by
  obtain ⟨inv, hinv, he, -⟩ := ht r (List.mem_of_getElem? row)
  refine file_congr ?_ (filter_modify_ne hinv (he.symm ▸ hne) fun inv' => ?_)
  · cases reopen with
    | false => rfl
    | true => exact List.getElem?_modify_ne _ _ hne
  · split <;> rfl

theorem file_close_ne {e' : ℕ} {s : EventStatus} (hne : e' ≠ e) :
    Docket.file { d with events := d.events.modify e' fun _ => s } e = d.file e :=
  file_congr (List.getElem?_modify_ne _ _ hne) rfl

theorem countP_of_moves {rs rs' : List RequestCore} (hm : List.Forall₂ RequestCore.Moves rs rs') :
    (rs'.countP fun r => r.eventId == e) = rs.countP fun r => r.eventId == e := by
  induction hm with
  | nil => rfl
  | cons hr _ ih => rw [List.countP_cons, List.countP_cons, hr.eventId, ih]

/-- What a step does to an event that it does not investigate, that no human is asked about and
that is not settled. -/
theorem Due.untouched (hs : Due k p d d') (h : d.Awaited) (ht : d.Taken)
    (hidle : (d.file e).Idle) (hdue : ¬p (d.file e)) : Untouched e d d' := by
  have hknown : e < d.events.length := by
    obtain ⟨status, hstatus⟩ := Option.ne_none_iff_exists'.mp hidle.known
    exact Rows.lt_of_getElem? hstatus
  cases hs with
  | @investigated _ e' s f t o rs due _ _ _ _ retires =>
    have hne : e' ≠ e := by
      rintro rfl
      exact hdue due
    refine ⟨(file_of_eq rfl rfl e).trans (file_investigate_ne s f o hne), countP_of_moves ?_⟩
    exact moves_of_retires retires
  | @answered _ n r row sent reopen =>
    have hne : e ≠ r.eventId := h.ne (List.mem_of_getElem? row) sent hidle.humanPending
    exact ⟨file_answer_ne ht row reopen hne.symm, countP_of_moves (answer_moves n d.requests)⟩
  | other hi ha step =>
    cases step with
    | tick => exact ⟨rfl, rfl⟩
    | opened => exact ⟨file_congr (List.getElem?_append_left hknown) rfl, rfl⟩
    | investigated => exact absurd rfl hi
    | moved retires => exact ⟨rfl, countP_of_moves (moves_of_retires retires)⟩
    | @dispatched _ _ e' i inv pending latest _ _ =>
      have hne : e' ≠ e := by
        rintro rfl
        exact hidle.humanPending pending
      refine ⟨file_dispatch_ne latest hne, ?_⟩
      simp [requestCount, Docket.dispatch, List.countP_append, hne]
    | answered _ reopen => exact absurd rfl (ha reopen)
    | filed => exact ⟨rfl, rfl⟩
    | @closed _ _ e' _ _ _ concluded _ =>
      have hne : e' ≠ e := by
        rintro rfl
        exact hidle.concluded concluded
      exact ⟨file_close_ne hne, rfl⟩
    | decided => exact ⟨rfl, rfl⟩

theorem Turns.untouched (hp : ∀ f, p f → f.Queued) (h : Turns k p d d') (ha : d.Awaited)
    (ht : d.Taken) (hidle : (d.file e).Idle) (hdue : ¬p (d.file e)) : Untouched e d d' := by
  refine (h.rel (I := fun d₁ => d₁.Awaited ∧ d₁.Taken ∧ (d₁.file e).Idle ∧ ¬p (d₁.file e))
    (R := Untouched e) (.refl e) (fun _ _ _ => .trans) ?_ ⟨ha, ht, hidle, hdue⟩).2
  rintro d₁ d₂ ⟨ha, ht, hidle, hdue⟩ hs
  have hsame := hs.untouched ha ht hidle hdue
  obtain ⟨a, hstep⟩ := hs.step
  refine ⟨⟨hs.awaited hp ha, hstep.taken ht, ?_, ?_⟩, hsame⟩
  · rw [hsame.file]
    exact hidle
  · rw [hsame.file]
    exact hdue

theorem verdictEventStatus_ne_pendingReview (v : InvestigationVerdict) :
    verdictEventStatus v ≠ .pendingReview := by
  cases v <;> nofun

theorem answer_completes {n : ℕ} {r : RequestCore} (ht : d.Taken) (row : d.requests[n]? = some r)
    (reopen : Bool) : ∃ inv ∈ ((d.answer n r reopen).file r.eventId).investigations,
      inv.status = .completed := by
  obtain ⟨inv, hinv, he, hasked⟩ := ht r (List.mem_of_getElem? row)
  refine ⟨if inv.status = .needsHuman then inv.withStatus .completed else inv,
    List.mem_filter.mpr ⟨List.mem_of_getElem?
      (Rows.getElem?_update.mpr (.inl ⟨rfl, inv, hinv, rfl⟩)), ?_⟩, ?_⟩
  · split
    · exact beq_iff_eq.mpr he
    · exact beq_iff_eq.mpr he
  · split
    · rfl
    · exact hasked.resolve_left ‹_›

theorem Step.pickable {a : Act} (hs : Step k a d d') (ha : a ≠ .opened) (ht : d.Taken)
    (h : (d'.file e).Pickable) : (d.file e).Pickable := by
  have hqueued : d'.events[e]? = some .pendingReview := h.queued
  cases hs with
  | tick => exact h
  | opened => exact absurd rfl ha
  | @investigated _ e' s f t o rs _ _ _ _ _ =>
    have hne : e' ≠ e := by
      rintro rfl
      obtain ⟨-, he, hstatus⟩ | ⟨hne, -⟩ := Rows.getElem?_update.mp hqueued
      · exact verdictEventStatus_ne_pendingReview _ hstatus.2
      · exact hne rfl
    rw [← file_investigate_ne s f o hne]
    exact h
  | moved => exact h
  | @dispatched _ _ e' i inv pending latest _ _ =>
    have hne : e' ≠ e := by
      rintro rfl
      exact absurd (hqueued.symm.trans pending) nofun
    rw [← file_dispatch_ne latest hne]
    exact h
  | @answered _ n r row reopen =>
    by_cases hne : r.eventId = e
    · subst hne
      obtain ⟨inv, hinv, hcompleted⟩ := answer_completes ht row reopen
      exact absurd hcompleted (h.completed inv hinv)
    · rw [← file_answer_ne ht row reopen hne]
      exact h
  | filed => exact h
  | @closed _ _ e' _ _ _ concluded _ =>
    have hne : e' ≠ e := by
      rintro rfl
      obtain ⟨-, he, hstatus⟩ | ⟨hne, -⟩ := Rows.getElem?_update.mp hqueued
      · cases hstatus.2
      · exact hne rfl
    rw [← file_close_ne hne]
    exact h
  | decided => exact h

/-- No two investigations are of one event, and the investigation of an event of the queue is
completed. -/
structure Once (d : Docket) : Prop where
  known : ∀ inv ∈ d.investigations, inv.eventId < d.events.length
  single : (d.investigations.map (·.eventId)).Nodup
  rested : ∀ inv ∈ d.investigations, d.events[inv.eventId]? = some .pendingReview →
    inv.status = .completed

theorem Once.eq_of_eventId (h : d.Once) {i j : ℕ} {inv inv' : InvestigationCore}
    (hi : d.investigations[i]? = some inv) (hj : d.investigations[j]? = some inv')
    (he : inv.eventId = inv'.eventId) : i = j := by
  have hlt : i < (d.investigations.map (·.eventId)).length := by
    rw [List.length_map]
    exact Rows.lt_of_getElem? hi
  refine (List.getElem?_inj hlt h.single).mp ?_
  rw [List.getElem?_map, List.getElem?_map, hi, hj, Option.map_some, Option.map_some, he]

theorem Once.modify (h : d.Once) {i : ℕ} {f : InvestigationCore → InvestigationCore}
    (events : List EventStatus) (hf : ∀ inv, (f inv).eventId = inv.eventId)
    (hlen : events.length = d.events.length)
    (hrested : ∀ inv ∈ d.investigations.modify i f, events[inv.eventId]? = some .pendingReview →
      inv.status = .completed) :
    Once { d with events := events, investigations := d.investigations.modify i f } where
  known inv hinv := by
    rw [hlen]
    rcases Rows.mem_update hinv with hold | ⟨inv₀, hinv₀, rfl⟩
    · exact h.known inv hold
    · rw [hf]
      exact h.known inv₀ hinv₀
  single := by
    rw [Rows.map_update_eq hf]
    exact h.single
  rested := hrested

theorem Once.congr (h : d.Once) (hevents : d'.events = d.events)
    (hinvs : d'.investigations = d.investigations) : d'.Once where
  known := hevents ▸ hinvs ▸ h.known
  single := hinvs ▸ h.single
  rested := hevents ▸ hinvs ▸ h.rested

theorem Once.notMem_of_waits (h : d.Once) (hw : (d.file e).Waits) :
    e ∉ d.investigations.map (·.eventId) := by
  intro hmem
  obtain ⟨inv, hinv, rfl⟩ := List.mem_map.mp hmem
  refine hw.incomplete inv ?_ (h.rested inv hinv hw.queued)
  exact List.mem_filter.mpr ⟨hinv, beq_self_eq_true _⟩

theorem Once.investigate (h : d.Once) (hw : (d.file e).Waits) (s f : Time) (o : Outcome) :
    (d.investigate e s f o).Once := by
  have hnew := h.notMem_of_waits hw
  have hqueued : d.events[e]? = some .pendingReview := hw.queued
  constructor
  · intro inv hinv
    change inv.eventId < (d.events.modify e _).length
    rw [List.length_modify]
    rcases List.mem_append.mp hinv with hold | hlast
    · exact h.known inv hold
    · obtain rfl := List.mem_singleton.mp hlast
      exact Rows.lt_of_getElem? hqueued
  · change (List.map _ (d.investigations ++ [_])).Nodup
    rw [List.map_append, List.map_singleton, ← List.concat_eq_append]
    exact h.single.concat hnew
  · intro inv hinv hpending
    rcases List.mem_append.mp hinv with hold | hlast
    · have hne : e ≠ inv.eventId := fun he => hnew (List.mem_map.mpr ⟨inv, hold, he.symm⟩)
      have hevents : (d.events.modify e fun _ => verdictEventStatus o.verdict)[inv.eventId]? =
          d.events[inv.eventId]? := List.getElem?_modify_ne _ _ hne
      exact h.rested inv hold (hevents.symm.trans hpending)
    · obtain rfl := List.mem_singleton.mp hlast
      have hevents : (d.events.modify e fun _ => verdictEventStatus o.verdict)[e]? =
          some (verdictEventStatus o.verdict) := by
        rw [List.getElem?_modify_eq, hqueued]
        rfl
      exact absurd (Option.some.inj (hevents.symm.trans hpending))
        (verdictEventStatus_ne_pendingReview o.verdict)

theorem Once.answer (h : d.Once) (ht : d.Taken) {n : ℕ} {r : RequestCore}
    (row : d.requests[n]? = some r) (reopen : Bool) : (d.answer n r reopen).Once := by
  obtain ⟨inv, hinv, he, hasked⟩ := ht r (List.mem_of_getElem? row)
  refine (h.modify (i := r.investigationId) (d.answer n r reopen).events
    (f := fun i => if i.status = .needsHuman then i.withStatus .completed else i) ?_ ?_ ?_).congr
    rfl rfl
  · intro inv
    split <;> rfl
  · cases reopen with
    | false => rfl
    | true => exact List.length_modify _ _ _
  · intro inv' hinv' hpending
    obtain ⟨j, hj⟩ := List.mem_iff_getElem?.mp hinv'
    rcases Rows.getElem?_update.mp hj with ⟨rfl, inv₀, hinv₀, rfl⟩ | ⟨hne, hold⟩
    · -- the investigation of the request, which asked for a human or is completed already
      obtain rfl := Option.some.inj (hinv.symm.trans hinv₀)
      split
      · rfl
      · exact hasked.resolve_left ‹_›
    · have hother : r.eventId ≠ inv'.eventId := by
        rintro heq
        exact hne (h.eq_of_eventId hinv hold (he.trans heq))
      refine h.rested inv' (List.mem_of_getElem? hold) ?_
      rw [← hpending]
      cases reopen with
      | false => rfl
      | true => exact (List.getElem?_modify_ne _ _ hother).symm

theorem Due.once (hp : ∀ f, p f → f.Waits) (hs : Due k p d d') (h : d.Once) (ht : d.Taken) :
    d'.Once := by
  cases hs with
  | @investigated _ e s f t o rs due _ _ _ _ retires =>
    exact (h.investigate (hp _ due) s f o).congr rfl rfl
  | answered row sent reopen => exact h.answer ht row reopen
  | other hi ha step =>
    cases step with
    | tick => exact h.congr rfl rfl
    | opened =>
      refine ⟨fun inv hinv => ?_, h.single, fun inv hinv hpending => h.rested inv hinv ?_⟩
      · rw [List.length_append]
        exact Nat.lt_add_right _ (h.known inv hinv)
      · exact (List.getElem?_append_left (h.known inv hinv)).symm.trans hpending
    | investigated => exact absurd rfl hi
    | moved => exact h.congr rfl rfl
    | @dispatched _ _ e i inv pending latest _ _ =>
      refine (h.modify (i := i) (f := .withStatus .needsHuman) _ (fun _ => rfl) rfl ?_).congr
        rfl rfl
      intro inv' hinv' hpending
      obtain ⟨j, hj⟩ := List.mem_iff_getElem?.mp hinv'
      rcases Rows.getElem?_update.mp hj with ⟨rfl, inv₀, hinv₀, rfl⟩ | ⟨-, hold⟩
      · -- the event of this investigation waits for a human
        obtain rfl := Option.some.inj (latest.row.symm.trans hinv₀)
        have hsame : d.events[inv.eventId]? = some .pendingReview := hpending
        rw [latest.eventId, pending] at hsame
        cases hsame
      · exact h.rested inv' (List.mem_of_getElem? hold) hpending
    | answered _ reopen => exact absurd rfl (ha reopen)
    | filed => exact h.congr rfl rfl
    | @closed _ _ e _ _ _ concluded _ =>
      refine ⟨fun inv hinv => ?_, h.single, fun inv hinv hpending => h.rested inv hinv ?_⟩
      · rw [List.length_modify]
        exact h.known inv hinv
      · rcases Rows.getElem?_update.mp hpending with ⟨-, _, -, hclosed⟩ | ⟨-, hold⟩
        · cases hclosed
        · exact hold
    | decided => exact h.congr rfl rfl

end Docket

end Minsight

import Minsight.Foundation.Spans
import Minsight.License.Manager

/-! # The grace period between activations

Without a license that verifies, operations are allowed for the grace hours from the first call on
and never again. An activation deletes the markers, and what follows it is a new trial.
-/

namespace Minsight

namespace License

inductive Call
  | status
  | allowOperation
  | importFile (src : Except String String)

/-- A call, and the license file that it finds. -/
structure Event where
  now : Time
  license : Option String
  call : Call

/-- What is noted of a call. -/
structure Entry where
  event : Event
  /-- The status that the call reports or decides by. -/
  reported : Option StatusKind := none
  /-- The call allows an operation. -/
  allowed : Bool := false
  imported : Bool := false

section

variable (host : Host) (community : Bool) (graceHours : ℚ)

def callStep (dir : Directory) (e : Event) : Entry × Directory :=
  let dir := { dir with licenseFile := e.license }
  match e.call with
  | .status =>
    let (info, dir) := status host community graceHours e.now dir
    ({ event := e, reported := some info.status }, dir)
  | .allowOperation =>
    let (info, _) := status host community graceHours e.now dir
    let (allowed, dir) := allowOperation host community graceHours e.now dir
    ({ event := e, reported := some info.status, allowed }, dir)
  | .importFile src =>
    let (result, dir) := importFile host e.now src dir
    ({ event := e, imported := result.isOk }, dir)

/-- What is noted of a history of calls. -/
def history : Directory → List Event → List Entry
  | _, [] => []
  | dir, e :: events =>
    let (entry, dir) := callStep host community graceHours dir e
    entry :: history dir events

/-- The call finds a license that verifies. -/
def Entry.licensed (entry : Entry) : Bool :=
  entry.event.license.any fun content => (verifyFull host entry.event.now content).isOk

def Entry.onTrial (entry : Entry) : Bool := entry.allowed && !entry.licensed host

/-- The call finds a license that verifies, or imports one. -/
def Entry.activates (entry : Entry) : Bool :=
  match entry.event.call with
  | .importFile _ => entry.imported
  | _ => entry.licensed host

def Entry.hour (entry : Entry) : ℚ := hoursBetween 0 entry.event.now

/-- The law of the grace period. -/
structure GraceLaw (log : List Entry) : Prop where
  /-- The times between neighbouring calls that both allow an operation without a license; a call of
  another kind ends a stretch, so `within` says more. -/
  total : markedSpan (Entry.onTrial host) Entry.hour log ≤ max 0 graceHours
  within : ∀ a ∈ log, ∀ b ∈ log, a.onTrial host = true → b.onTrial host = true →
    b.hour - a.hour ≤ max 0 graceHours
  noReturn : log.Pairwise fun a b =>
    a.reported = some .graceExpired → b.reported ≠ some .gracePeriod

end

/-- What `status` can find in the professional edition: its status and what it leaves. -/
inductive StatusStep (host : Host) (graceHours : ℚ) (now : Time) (dir : Directory) :
    StatusKind → Directory → Prop
  | active {content} (hlicense : dir.licenseFile = some content)
      (hverifies : (verifyFull host now content).isOk = true) :
      StatusStep host graceHours now dir .active
        { dir with graceFile := none, graceExpiredFile := none }
  | refused {content message} (hlicense : dir.licenseFile = some content)
      (hrefused : verifyFull host now content = .error message) :
      StatusStep host graceHours now dir (classifyVerifyError message).1 dir
  | ended (hexpired : dir.graceExpiredFile.isSome = true) :
      StatusStep host graceHours now dir .graceExpired dir
  | begins (hnone : dir.graceFile = none) (hexpired : dir.graceExpiredFile = none) :
      StatusStep host graceHours now dir .gracePeriod
        { dir with graceFile := some (host.strftime now) }
  | unread {raw} (hfile : dir.graceFile = some raw) (hraw : parseGraceStart host raw = none) :
      StatusStep host graceHours now dir .noLicense dir
  | continues {raw start} (hfile : dir.graceFile = some raw)
      (hexpired : dir.graceExpiredFile = none)
      (hraw : parseGraceStart host raw = some start)
      (hremain : hoursBetween start now < graceHours) :
      StatusStep host graceHours now dir .gracePeriod dir
  | ends {raw start} (hfile : dir.graceFile = some raw)
      (hraw : parseGraceStart host raw = some start) :
      StatusStep host graceHours now dir .graceExpired
        { dir with graceExpiredFile := some (host.strftime now) }

section

variable {host : Host} {graceHours : ℚ} {now : Time} {dir : Directory}

theorem refusedStatus_status (info : Status) (content message : String) :
    (refusedStatus host info content message).status = (classifyVerifyError message).1 := by
  unfold refusedStatus
  cases parseAndVerify host content <;> rfl

theorem classifyVerifyError_refuses (message : String) :
    (classifyVerifyError message).1 ≠ .active ∧ (classifyVerifyError message).1 ≠ .gracePeriod ∧
      (classifyVerifyError message).1 ≠ .graceExpired := by
  unfold classifyVerifyError
  split
  · simp
  · split
    · simp
    · split <;> simp

theorem statusStep (host : Host) (graceHours : ℚ) (now : Time) (dir : Directory) :
    StatusStep host graceHours now dir (status host false graceHours now dir).1.status
      (status host false graceHours now dir).2 := by
  obtain ⟨licenseFile, backup, graceFile, graceExpiredFile⟩ := dir
  cases licenseFile with
  | some content =>
    simp only [status]
    cases hverify : verifyFull host now content with
    | ok verified => exact .active rfl (by rw [hverify]; rfl)
    | error message =>
      dsimp only
      rw [refusedStatus_status]
      exact .refused rfl hverify
  | none =>
    simp only [status, Bool.false_eq_true, if_false, graceStatus]
    cases graceExpiredFile with
    | some text => exact .ended rfl
    | none =>
      cases graceFile with
      | none => exact .begins rfl rfl
      | some raw =>
        simp only [Option.isSome_none, Bool.false_eq_true, if_false]
        cases hraw : parseGraceStart host raw with
        | none => exact .unread rfl hraw
        | some start =>
          dsimp only
          split
          · rename_i hremain
            exact .continues rfl rfl hraw (sub_pos.mp hremain)
          · exact .ends rfl hraw

end

def StartRead (host : Host) (now : Time) (dir : Directory) : Prop :=
  ∀ raw, dir.graceFile = some raw → ∃ start, parseGraceStart host raw = some start ∧ start ≤ now

/-- What holds of the calls since the last activation and of the markers. -/
structure TrialHeld (host : Host) (graceHours : ℚ) (dir : Directory) (now : Time)
    (log : List Entry) : Prop where
  read : StartRead host now dir
  past : ∀ e ∈ log, e.event.now ≤ now
  grace : ∀ e ∈ log, e.onTrial host = true → e.reported = some .gracePeriod
  trial : (∃ e ∈ log, e.reported = some .gracePeriod) → ∃ first raw start,
    dir.graceFile = some raw ∧ parseGraceStart host raw = some start ∧ start ≤ first ∧
      ∀ e ∈ log, e.reported = some .gracePeriod → first ≤ e.event.now ∧
        (e.event.now = first ∨ hoursBetween start e.event.now < graceHours)
  ended : (∃ e ∈ log, e.reported = some .graceExpired) → dir.graceExpiredFile.isSome = true
  noReturn : log.Pairwise fun a b =>
    a.reported = some .graceExpired → b.reported ≠ some .gracePeriod

section

variable {host : Host} {graceHours : ℚ} {now now' : Time} {dir dir' : Directory}
  {log : List Entry} {entry : Entry}

theorem trialHeld_nil (h : StartRead host now dir) : TrialHeld host graceHours dir now [] where
  read := h
  past := List.forall_mem_nil _
  grace := List.forall_mem_nil _
  trial := by simp
  ended := by simp
  noReturn := List.Pairwise.nil

theorem TrialHeld.later (h : TrialHeld host graceHours dir now log) (hle : now ≤ now') :
    TrialHeld host graceHours dir now' log where
  read raw hraw := by
    obtain ⟨start, hstart, hpast⟩ := h.read raw hraw
    exact ⟨start, hstart, hpast.trans hle⟩
  past e he := (h.past e he).trans hle
  grace := h.grace
  trial := h.trial
  ended := h.ended
  noReturn := h.noReturn

theorem TrialHeld.of_markers (h : TrialHeld host graceHours dir now log)
    (hgrace : dir'.graceFile = dir.graceFile)
    (hexpired : dir'.graceExpiredFile = dir.graceExpiredFile) :
    TrialHeld host graceHours dir' now log where
  read := by
    unfold StartRead
    rw [hgrace]
    exact h.read
  past := h.past
  grace := h.grace
  trial := by
    rw [hgrace]
    exact h.trial
  ended := by
    rw [hexpired]
    exact h.ended
  noReturn := h.noReturn

theorem exists_mem_append_singleton {p : Entry → Prop} :
    (∃ e ∈ log ++ [entry], p e) ↔ (∃ e ∈ log, p e) ∨ p entry := by
  simp only [List.mem_append, List.mem_singleton, or_and_right, exists_or, exists_eq_left]

theorem TrialHeld.append (h : TrialHeld host graceHours dir now log) (hnow : entry.event.now = now)
    (htrial : entry.onTrial host = false) (hnot : entry.reported ≠ some .gracePeriod)
    (hgrace : dir'.graceFile = dir.graceFile)
    (hexpired : dir.graceExpiredFile.isSome = true ∨ entry.reported = some .graceExpired →
      dir'.graceExpiredFile.isSome = true) :
    TrialHeld host graceHours dir' now (log ++ [entry]) where
  read := by
    unfold StartRead
    rw [hgrace]
    exact h.read
  past e he := by
    rcases List.mem_append.mp he with he | he
    · exact h.past e he
    · rw [List.mem_singleton.mp he, hnow]
  grace e he ht := by
    rcases List.mem_append.mp he with he | he
    · exact h.grace e he ht
    · rw [List.mem_singleton.mp he, htrial] at ht
      cases ht
  trial hsome := by
    obtain ⟨first, raw, start, hfile, hraw, hfirst, hall⟩ :=
      h.trial ((exists_mem_append_singleton.mp hsome).resolve_right hnot)
    refine ⟨first, raw, start, hgrace.trans hfile, hraw, hfirst, fun e he hreported => ?_⟩
    rcases List.mem_append.mp he with he | he
    · exact hall e he hreported
    · rw [List.mem_singleton.mp he] at hreported
      exact absurd hreported hnot
  ended hsome := hexpired ((exists_mem_append_singleton.mp hsome).imp_left h.ended)
  noReturn := List.pairwise_append.mpr ⟨h.noReturn, List.pairwise_singleton _ _,
    fun a _ b hb _ => by rw [List.mem_singleton.mp hb]; exact hnot⟩

theorem TrialHeld.grant {raw : String} {start : Time} (h : TrialHeld host graceHours dir now log)
    (hnow : entry.event.now = now) (hreported : entry.reported = some .gracePeriod)
    (hnone : dir.graceExpiredFile = none) (hfile : dir'.graceFile = some raw)
    (hraw : parseGraceStart host raw = some start) (hstart : start ≤ now)
    (hcase : dir.graceFile = none ∨
      dir.graceFile = some raw ∧ hoursBetween start now < graceHours) :
    TrialHeld host graceHours dir' now (log ++ [entry]) where
  read raw' hraw' := by
    obtain rfl := Option.some.inj (hfile.symm.trans hraw')
    exact ⟨start, hraw, hstart⟩
  past e he := by
    rcases List.mem_append.mp he with he | he
    · exact h.past e he
    · rw [List.mem_singleton.mp he, hnow]
  grace e he ht := by
    rcases List.mem_append.mp he with he | he
    · exact h.grace e he ht
    · rw [List.mem_singleton.mp he]
      exact hreported
  trial _ := by
    by_cases hsome : ∃ e ∈ log, e.reported = some .gracePeriod
    · obtain ⟨first, raw', start', hfile', hraw', hfirst, hall⟩ := h.trial hsome
      rcases hcase with hcase | ⟨hcase, hremain⟩
      · rw [hfile'] at hcase
        cases hcase
      · obtain rfl := Option.some.inj (hfile'.symm.trans hcase)
        obtain rfl := Option.some.inj (hraw'.symm.trans hraw)
        refine ⟨first, raw', start', hfile, hraw, hfirst, fun e he hgranted => ?_⟩
        rcases List.mem_append.mp he with he | he
        · exact hall e he hgranted
        · rw [List.mem_singleton.mp he, hnow]
          obtain ⟨e', he', hgranted'⟩ := hsome
          exact ⟨(hall e' he' hgranted').1.trans (h.past e' he'), .inr hremain⟩
    · -- the first call that is granted
      refine ⟨now, raw, start, hfile, hraw, hstart, fun e he hgranted => ?_⟩
      rcases List.mem_append.mp he with he | he
      · exact absurd ⟨e, he, hgranted⟩ hsome
      · rw [List.mem_singleton.mp he, hnow]
        exact ⟨le_rfl, .inl rfl⟩
  ended hsome := by
    rcases exists_mem_append_singleton.mp hsome with hsome | hexpired
    · have hover := h.ended hsome
      rw [hnone] at hover
      cases hover
    · rw [hreported] at hexpired
      cases hexpired
  noReturn := by
    refine List.pairwise_append.mpr ⟨h.noReturn, List.pairwise_singleton _ _, ?_⟩
    intro a ha b _ hexpired
    have hover := h.ended ⟨a, ha, hexpired⟩
    rw [hnone] at hover
    cases hover

/-- What a call of `status` or `allow_operation` keeps, when it does not find a license. -/
theorem TrialHeld.report {kind : StatusKind} (h : TrialHeld host graceHours dir now log)
    (hmark : parseGraceStart host (host.strftime now) = some (now / 1000000 * 1000000))
    (hstep : StatusStep host graceHours now dir kind dir') (hnow : entry.event.now = now)
    (hreported : entry.reported = some kind) (hactive : kind ≠ .active)
    (htrial : entry.onTrial host = true → kind = .gracePeriod) :
    TrialHeld host graceHours dir' now (log ++ [entry]) := by
  have hoff (hkind : kind ≠ .gracePeriod) :
      entry.onTrial host = false ∧ entry.reported ≠ some .gracePeriod := by
    constructor
    · exact Bool.eq_false_iff.mpr fun ht => hkind (htrial ht)
    · rw [hreported]
      exact fun h => hkind (Option.some.inj h)
  cases hstep with
  | active => exact absurd rfl hactive
  | @refused content message hlicense hrefused =>
    obtain ⟨-, hgrace, hexpired⟩ := classifyVerifyError_refuses message
    refine h.append hnow (hoff hgrace).1 (hoff hgrace).2 rfl fun hor => hor.resolve_right ?_
    rw [hreported]
    exact fun h => hexpired (Option.some.inj h)
  | ended hexpired => exact h.append hnow (hoff (by simp)).1 (hoff (by simp)).2 rfl fun _ => hexpired
  | begins hnone hexpired =>
    exact h.grant hnow hreported hexpired rfl hmark (Int.ediv_mul_le now (by decide)) (.inl hnone)
  | unread hfile hraw =>
    exact h.append hnow (hoff (by simp)).1 (hoff (by simp)).2 rfl fun hor =>
      hor.resolve_right (by simp [hreported])
  | continues hfile hexpired hraw hremain =>
    obtain ⟨start, hstart, hpast⟩ := h.read _ hfile
    obtain rfl := Option.some.inj (hstart.symm.trans hraw)
    exact h.grant hnow hreported hexpired hfile hraw hpast (.inr ⟨hfile, hremain⟩)
  | ends hfile hraw => exact h.append hnow (hoff (by simp)).1 (hoff (by simp)).2 rfl fun _ => rfl

end

section

variable {host : Host} {graceHours : ℚ} {now : Time} {dir dir' : Directory} {log : List Entry}
  {events : List Event} {e : Event}

def afterCalls (host : Host) (graceHours : ℚ) (dir : Directory) (events : List Event) : Directory :=
  events.foldl (fun dir e => (callStep host false graceHours dir e).2) dir

/-- What is written as the start of the grace period by these calls is read as its second. -/
def MarksRead (host : Host) (events : List Event) : Prop :=
  ∀ e ∈ events, parseGraceStart host (host.strftime e.now) = some (e.now / 1000000 * 1000000)

theorem history_split {l l' : List Entry} (h : history host false graceHours dir events = l ++ l') :
    ∃ es es', events = es ++ es' ∧ l = history host false graceHours dir es ∧
      l' = history host false graceHours (afterCalls host graceHours dir es) es' := by
  induction l generalizing dir events with
  | nil => exact ⟨[], events, rfl, rfl, h.symm⟩
  | cons a l ih =>
    cases events with
    | nil => cases h
    | cons e events =>
      rw [history, List.cons_append, List.cons.injEq] at h
      obtain ⟨rfl, h⟩ := h
      obtain ⟨es, es', rfl, rfl, rfl⟩ := ih h
      exact ⟨e :: es, es', rfl, rfl, rfl⟩

theorem callStep_event : (callStep host false graceHours dir e).1.event = e := by
  unfold callStep
  split <;> rfl

theorem callStep_graceFile {raw : String}
    (h : (callStep host false graceHours dir e).2.graceFile = some raw) :
    dir.graceFile = some raw ∨ raw = host.strftime e.now := by
  have hstatus : (status host false graceHours e.now
      { dir with licenseFile := e.license }).2.graceFile = some raw →
        dir.graceFile = some raw ∨ raw = host.strftime e.now := by
    have hstep := statusStep host graceHours e.now { dir with licenseFile := e.license }
    generalize status host false graceHours e.now { dir with licenseFile := e.license } = result
      at hstep ⊢
    obtain ⟨info, dir'⟩ := result
    generalize info.status = kind at hstep
    intro hraw
    cases hstep with
    | active => cases hraw
    | begins => exact .inr (Option.some.inj hraw).symm
    | _ => exact .inl hraw
  unfold callStep at h
  split at h
  · exact hstatus h
  · exact hstatus h
  · left
    dsimp only [importFile] at h
    split at h
    · cases h
    · split at h <;> exact h

theorem StatusStep.verifies (h : StatusStep host graceHours now dir .active dir') :
    dir.licenseFile.any (fun content => (verifyFull host now content).isOk) = true := by
  generalize hkind : StatusKind.active = kind at h
  cases h with
  | active hlicense hverifies =>
    rw [hlicense]
    exact hverifies
  | refused => exact absurd hkind.symm (classifyVerifyError_refuses _).1
  | _ => cases hkind

theorem TrialHeld.call (h : TrialHeld host graceHours dir now log)
    (hmark : parseGraceStart host (host.strftime e.now) = some (e.now / 1000000 * 1000000))
    (hnow : now ≤ e.now)
    (hoff : (callStep host false graceHours dir e).1.activates host = false) :
    TrialHeld host graceHours (callStep host false graceHours dir e).2 e.now
      (log ++ [(callStep host false graceHours dir e).1]) := by
  have hheld : TrialHeld host graceHours { dir with licenseFile := e.license } e.now log :=
    (h.later hnow).of_markers rfl rfl
  have hstep := statusStep host graceHours e.now { dir with licenseFile := e.license }
  -- a license that verifies would be an activation
  have hactive (hnone : (e.license.any fun content => (verifyFull host e.now content).isOk) = false) :
      (status host false graceHours e.now { dir with licenseFile := e.license }).1.status ≠
        .active := by
    intro hkind
    rw [hkind] at hstep
    rw [hstep.verifies] at hnone
    cases hnone
  obtain ⟨time, license, call⟩ := e
  cases call with
  | status =>
    exact hheld.report hmark hstep rfl rfl (hactive hoff) fun ht => by
      simp [callStep, Entry.onTrial] at ht
  | allowOperation =>
    refine hheld.report hmark hstep rfl rfl (hactive hoff) fun ht => ?_
    have hallowed := (Bool.and_eq_true_iff.mp ht).1
    simp only [callStep, allowOperation, Bool.or_eq_true, beq_iff_eq] at hallowed
    exact hallowed.resolve_left (hactive hoff)
  | importFile src =>
    have hfailed : (importFile host time src { dir with licenseFile := license }).1.isOk = false :=
      hoff
    have hmarkers : (importFile host time src { dir with licenseFile := license }).2.graceFile =
          dir.graceFile ∧
        (importFile host time src { dir with licenseFile := license }).2.graceExpiredFile =
          dir.graceExpiredFile := by
      unfold importFile at hfailed ⊢
      dsimp only at hfailed ⊢
      split at hfailed
      · cases hfailed
      · split <;> exact ⟨rfl, rfl⟩
    refine hheld.append rfl rfl (by simp [callStep]) hmarkers.1 fun hor => ?_
    rcases hor with hexpired | hreported
    · rw [show (callStep host false graceHours dir ⟨time, license, .importFile src⟩).2 =
        (importFile host time src { dir with licenseFile := license }).2 from rfl, hmarkers.2]
      exact hexpired
    · cases hreported

theorem TrialHeld.calls (h : TrialHeld host graceHours dir now log)
    (hmarks : MarksRead host events) (hnow : ∀ e ∈ events, now ≤ e.now)
    (hsorted : events.Pairwise fun a b => a.now ≤ b.now)
    (hoff : ∀ e ∈ history host false graceHours dir events, e.activates host = false) :
    ∃ now' dir', TrialHeld host graceHours dir' now'
      (log ++ history host false graceHours dir events) := by
  induction events generalizing dir now log with
  | nil => exact ⟨now, dir, by simpa [history] using h⟩
  | cons e events ih =>
    obtain ⟨hhead, htail⟩ := List.pairwise_cons.mp hsorted
    have hcall := h.call (hmarks e List.mem_cons_self) (hnow e List.mem_cons_self)
      (hoff _ List.mem_cons_self)
    obtain ⟨now', dir', hheld⟩ := ih hcall (fun e' he' => hmarks e' (List.mem_cons_of_mem _ he'))
      hhead htail fun e' he' => hoff e' (List.mem_cons_of_mem _ he')
    rw [List.append_assoc] at hheld
    exact ⟨now', dir', hheld⟩

theorem StartRead.after (h : StartRead host now dir) (hmarks : MarksRead host events)
    (hpast : ∀ e ∈ events, e.now ≤ now) :
    StartRead host now (afterCalls host graceHours dir events) := by
  induction events generalizing dir with
  | nil => exact h
  | cons e events ih =>
    refine ih ?_ (fun e' he' => hmarks e' (List.mem_cons_of_mem _ he'))
      fun e' he' => hpast e' (List.mem_cons_of_mem _ he')
    intro raw hraw
    rcases callStep_graceFile hraw with hold | rfl
    · exact h raw hold
    · exact ⟨_, hmarks e List.mem_cons_self,
        (Int.ediv_mul_le e.now (by decide)).trans (hpast e List.mem_cons_self)⟩

theorem hoursBetween_sub (a b c : Time) :
    hoursBetween a c - hoursBetween a b = hoursBetween b c := by
  simp only [hoursBetween, Int.cast_sub]
  ring

theorem hoursBetween_nonneg {a b : Time} (h : a ≤ b) : 0 ≤ hoursBetween a b := by
  have hsub : (0 : ℚ) ≤ ((b - a : ℤ) : ℚ) := by
    exact_mod_cast sub_nonneg.mpr h
  exact div_nonneg hsub (by norm_num)

theorem Entry.hour_le {a b : Entry} (h : a.event.now ≤ b.event.now) : a.hour ≤ b.hour := by
  have hnonneg := hoursBetween_nonneg h
  rw [← hoursBetween_sub 0] at hnonneg
  exact sub_nonneg.mp hnonneg

theorem TrialHeld.bounds (h : TrialHeld host graceHours dir now log)
    (hsome : ∃ e ∈ log, e.reported = some .gracePeriod) :
    ∃ low, ∀ e ∈ log, e.onTrial host = true → low ≤ e.hour ∧ e.hour ≤ low + max 0 graceHours := by
  obtain ⟨first, raw, start, -, -, hfirst, hall⟩ := h.trial hsome
  refine ⟨hoursBetween 0 first, fun e he ht => ?_⟩
  obtain ⟨hlow, hcase⟩ := hall e he (h.grace e he ht)
  have hnonneg := hoursBetween_nonneg hlow
  rw [← hoursBetween_sub 0] at hnonneg
  refine ⟨sub_nonneg.mp hnonneg, ?_⟩
  rcases hcase with heq | hremain
  · rw [Entry.hour, heq]
    exact le_add_of_nonneg_right (le_max_left _ _)
  · -- the start that is read is not later than the first call
    have hearly := hoursBetween_nonneg hfirst
    rw [← hoursBetween_sub 0] at hearly hremain
    have hmax : graceHours ≤ max 0 graceHours := le_max_right _ _
    rw [Entry.hour]
    linarith

theorem TrialHeld.law (h : TrialHeld host graceHours dir now log)
    (hsorted : log.Pairwise fun a b => a.event.now ≤ b.event.now) :
    GraceLaw host graceHours log := by
  have hhours : log.Pairwise fun a b => a.hour ≤ b.hour := hsorted.imp Entry.hour_le
  by_cases hsome : ∃ e ∈ log, e.reported = some .gracePeriod
  · obtain ⟨low, hbounds⟩ := h.bounds hsome
    have hle : low ≤ low + max 0 graceHours := le_add_of_nonneg_right (le_max_left _ _)
    refine ⟨?_, fun a ha b hb hat hbt => ?_, h.noReturn⟩
    · have hspan := markedSpan_le hhours hle hbounds
      rwa [add_sub_cancel_left] at hspan
    · obtain ⟨hlow, -⟩ := hbounds a ha hat
      obtain ⟨-, hhigh⟩ := hbounds b hb hbt
      linarith
  · have hoff (e) (he : e ∈ log) : ¬ e.onTrial host = true := fun ht =>
      hsome ⟨e, he, h.grace e he ht⟩
    refine ⟨?_, fun a ha _ _ hat => absurd hat (hoff a ha), h.noReturn⟩
    have hspan := markedSpan_le hhours (le_max_left 0 graceHours) fun e he ht =>
      absurd ht (hoff e he)
    rwa [sub_zero] at hspan

theorem history_events : (history host false graceHours dir events).map Entry.event = events := by
  induction events generalizing dir with
  | nil => rfl
  | cons e events ih =>
    rw [history, List.map_cons, ih, callStep_event]

/--
In the professional edition, whatever the license file does, the calls between two activations keep
the law of the grace period.
-/
theorem grace_bounded_between_activations (hsorted : events.Pairwise fun a b => a.now ≤ b.now)
    (hmarks : MarksRead host events) (hfresh : dir.graceFile = none)
    {before stretch after : List Entry}
    (hlog : history host false graceHours dir events = before ++ stretch ++ after)
    (hoff : ∀ e ∈ stretch, e.activates host = false) : GraceLaw host graceHours stretch := by
  rw [List.append_assoc] at hlog
  obtain ⟨es₁, es₂₃, rfl, -, hrest⟩ := history_split hlog
  obtain ⟨es₂, es₃, rfl, rfl, -⟩ := history_split hrest.symm
  obtain ⟨hsorted₁, hsorted₂₃, hbetween⟩ := List.pairwise_append.mp hsorted
  obtain ⟨hsorted₂, -, -⟩ := List.pairwise_append.mp hsorted₂₃
  have hfresh' (t : Time) : StartRead host t dir := by
    intro raw hraw
    rw [hfresh] at hraw
    cases hraw
  cases es₂ with
  | nil => exact (trialHeld_nil (hfresh' 0)).law List.Pairwise.nil
  | cons e es₂ =>
    have hstart : StartRead host e.now (afterCalls host graceHours dir es₁) :=
      (hfresh' e.now).after (fun e' he' => hmarks e' (List.mem_append_left _ he'))
        fun e' he' => hbetween e' he' e (List.mem_append_left _ List.mem_cons_self)
    have hlater : ∀ e' ∈ e :: es₂, e.now ≤ e'.now := by
      intro e' he'
      rcases List.mem_cons.mp he' with rfl | he'
      · exact le_rfl
      · exact (List.pairwise_cons.mp hsorted₂).1 e' he'
    have hmarks₂ : MarksRead host (e :: es₂) := fun e' he' =>
      hmarks e' (List.mem_append_right _ (List.mem_append_left _ he'))
    obtain ⟨now', dir', hheld⟩ := (trialHeld_nil hstart).calls hmarks₂ hlater hsorted₂ hoff
    refine hheld.law ?_
    rw [List.nil_append, ← List.pairwise_map (f := Entry.event) (R := fun a b => a.now ≤ b.now),
      history_events]
    exact hsorted₂

end

def sampleTimes : List (Time × String) :=
  [(hours 0, "1970-01-01 00:00:00"), (hours 71, "1970-01-03 23:00:00"),
    (hours 73, "1970-01-04 01:00:00"), (hours 74, "1970-01-04 02:00:00"),
    (hours 75, "1970-01-04 03:00:00"), (hours 146, "1970-01-07 02:00:00")]

/-- A host on which every signature verifies. -/
def sampleHost : Host where
  base64 := .ok
  verifies _ _ := .ok true
  loads _ := .ok (.obj [("client_name", .str "c"), ("issue_date", .str "1970-01-01"),
    ("expiry_date", .str "1970-12-31"), ("fingerprint", .str "fp")])
  int
    | .int n => .ok n
    | _ => .error "invalid literal for int()"
  str
    | .str s => s
    | _ => ""
  lower := id
  date text := if text = "1970-12-31" then some 364 else none
  fingerprints := [("fp", "machine-id")]
  strftime t := ((sampleTimes.find? (·.1 == t)).map Prod.snd).getD ""
  strptime text := (sampleTimes.find? (·.2 == text)).map Prod.fst
  fromisoformat _ := none

/-- A trial to its end. -/
def firstTrial : List Event :=
  [⟨hours 0, none, .allowOperation⟩, ⟨hours 71, none, .allowOperation⟩, ⟨hours 73, none, .status⟩]

def secondTrial : List Event :=
  [⟨hours 74, some "license.signature", .status⟩, ⟨hours 75, none, .allowOperation⟩,
    ⟨hours 146, none, .allowOperation⟩]

theorem sampleTrials_sorted : (firstTrial ++ secondTrial).Pairwise fun a b => a.now ≤ b.now := by
  decide +kernel

theorem sampleTrials_marks : MarksRead sampleHost (firstTrial ++ secondTrial) := by
  have hmarks : (firstTrial ++ secondTrial).all (fun e =>
      parseGraceStart sampleHost (sampleHost.strftime e.now) ==
        some (e.now / 1000000 * 1000000)) = true := by decide +kernel
  exact fun e he => beq_iff_eq.mp (List.all_eq_true.mp hmarks e he)

/-- A license that appears once begins a second trial. -/
theorem grace_begins_again :
    ¬ ∀ (host : Host) (graceHours : ℚ) (events : List Event),
      (events.Pairwise fun a b => a.now ≤ b.now) → MarksRead host events →
        GraceLaw host graceHours (history host false graceHours {} events) := by
  intro h
  have htotal := (h sampleHost 72 _ sampleTrials_sorted sampleTrials_marks).total
  exact absurd htotal (by decide +kernel)

theorem grace_bounded_between_activations_first :
    (history sampleHost false 72 {} firstTrial).map Entry.reported =
        [some .gracePeriod, some .gracePeriod, some .graceExpired] ∧
      GraceLaw sampleHost 72 (history sampleHost false 72 {} firstTrial) := by
  refine ⟨by decide +kernel, ?_⟩
  have hlog : history sampleHost false 72 {} (firstTrial ++ secondTrial) =
      [] ++ history sampleHost false 72 {} firstTrial ++
        history sampleHost false 72 (afterCalls sampleHost 72 {} firstTrial) secondTrial := rfl
  exact grace_bounded_between_activations sampleTrials_sorted sampleTrials_marks rfl hlog
    (by decide +kernel)

end License

end Minsight

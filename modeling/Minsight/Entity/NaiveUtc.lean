import Minsight.Concurrency.Promotion
import Minsight.Entity.RelationImport

/-! # Times in naive UTC

Time columns have no offset and are read as UTC. A writer has to hand them a time without an offset
that reads as the instant it means. The promotion of a candidate and the application of a profile
update hand over aware times, and an imported relation hands over what its record is written with.
-/

namespace Minsight

/-- The instant that is meant; a time without an offset is in UTC. -/
def Datetime.instant : Datetime → Time
  | (t, none) => t
  | (t, some offset) => t - offset

/-- `d > d'`, which raises between an aware and a naive time. -/
def Datetime.laterThan : Datetime → Datetime → Except Exn Bool
  | (t, none), (u, none) => .ok (decide (u < t))
  | (t, some o), (u, some p) => .ok (decide (u - p < t - o))
  | _, _ => .error .typeError

/-- What the driver does with a time for a `TIMESTAMP WITHOUT TIME ZONE` column. -/
structure NaiveColumn (driver : Datetime → Except Exn Time) : Prop where
  naive : ∀ t, driver (t, none) = .ok t
  aware : ∀ t offset, ∃ e, driver (t, some offset) = .error e

/-- The time is stored as its instant, and is compared with `utc_now()` as its instant. -/
structure KeptNaive (driver : Datetime → Except Exn Time) (d : Datetime) : Prop where
  stored : driver d = .ok d.instant
  later : ∀ now, d.laterThan (now, none) = .ok (decide (now < d.instant))
  earlier : ∀ now, Datetime.laterThan (now, none) d = .ok (decide (d.instant < now))

section

variable {driver : Datetime → Except Exn Time} {d : Datetime}

theorem keptNaive_iff (hdriver : NaiveColumn driver) : KeptNaive driver d ↔ d.2 = none := by
  obtain ⟨t, _ | offset⟩ := d
  · exact iff_of_true ⟨hdriver.naive t, fun _ => rfl, fun _ => rfl⟩ rfl
  · refine iff_of_false (fun h => ?_) nofun
    obtain ⟨e, he⟩ := hdriver.aware t offset
    cases he.symm.trans h.stored

end

/-- `effective_from` and `effective_until` as `_promote` hands them over. -/
def promotionTimes (config : DefenseAssetConfig) (now : Time) : List Datetime :=
  [(now, some 0), (now + hours (24 * config.whitelistRuleTtlDays), some 0)]

/-- What `ProfileUpdateApplier.apply` writes. -/
structure ProfileUpdateWrite where
  entityProfileId : ℕ
  memoryType : EntityMemoryType
  content : String
  /-- A number that is not finite is `none`. -/
  confidence : Option ℚ
  sourceInvestigationId : ℕ
  /-- `applied_at` of the suggestion. -/
  appliedAt : Datetime

/-- `EntityMemoryType(value)`, which raises `ValueError` on any other text. -/
def EntityMemoryType.ofValue (text : String) : Option EntityMemoryType :=
  [behaviorNote, pastVerdict, operatorComment].find? fun t => t.value == text

/-- `ProfileUpdateApplier.apply` on a suggestion that was found. -/
def applyProfileUpdate (lib : RelationLib) (now : Time) (suggestion : ProfileUpdateSuggestion) :
    Except Exn (Option ProfileUpdateWrite) :=
  if suggestion.status ≠ .pending then .ok none
  else
    let changes := suggestion.suggestedChanges
    let memoryType := EntityMemoryType.ofValue
      (lib.rt.str ((changes.get? "memory_type").getD (.str "past_verdict")))
    match (changes.get? "content").filter Json.truthy with
    | none => .ok none
    | some content => do
      let confidence ← lib.float ((changes.get? "confidence").getD (.float (4 / 5)))
      pure (some {
        entityProfileId := suggestion.entityProfileId
        memoryType := memoryType.getD .pastVerdict
        content := lib.rt.str content
        confidence
        sourceInvestigationId := suggestion.investigationId
        appliedAt := (now, some 0) })

/-- The times of a parsed relation. -/
def RelationRecord.times (record : RelationRecord) : List Datetime :=
  record.validFrom.toList ++ record.validUntil.toList

def isZoneSign (c : Char) : Bool := c = '-' || c = '+' || c = 'Z'

def hasZone (cs : List Char) : Bool :=
  match dateEnd cs with
  | some n => (cs.drop (n + 1)).any isZoneSign
  | none => false

/-- The value of a field is written with an offset. -/
def offsetIn (lib : RelationLib) (raw : Option Json) : Bool :=
  (givenTime raw).any fun value => hasZone (isoText lib value)

section

variable {lib : RelationLib} {cs : List Char} {t : ℤ} {offset : Option ℤ}

theorem timeOfDay?_offset (h : timeOfDay? cs = some (t, offset)) :
    offset.isSome = cs.any isZoneSign := by
  -- a text has a sign exactly when something is left from its first sign on
  have hrest : cs.any isZoneSign = !(cs.dropWhile fun c => !isZoneSign c).isEmpty := by
    clear h
    induction cs with
    | nil => rfl
    | cons c cs ih =>
      rw [List.any_cons, List.dropWhile_cons]
      cases hc : isZoneSign c with
      | false => simpa using ih
      | true => rfl
  obtain ⟨⟨⟨hour, minute, second, fraction⟩, stray⟩, -, h⟩ := Option.bind_eq_some_iff.mp h
  dsimp only at h
  split at h
  · cases h
  · rw [hrest]
    have hsign : (fun c => !(decide (c = '-') || decide (c = '+') || decide (c = 'Z'))) =
      fun c => !isZoneSign c := rfl
    rw [hsign] at h
    split at h
    · rename_i hnil
      split at h
      · cases h
      · obtain ⟨-, rfl⟩ := Prod.mk.inj (Option.some.inj h)
        rw [hnil]
        rfl
    · rename_i hz
      split at h
      · obtain ⟨-, rfl⟩ := Prod.mk.inj (Option.some.inj h)
        rw [hz]
        rfl
      · cases h
    · rename_i hzone
      obtain ⟨_, -, h⟩ := Option.bind_eq_some_iff.mp h
      obtain ⟨-, rfl⟩ := Prod.mk.inj (Option.some.inj h)
      rw [hzone]
      rfl

theorem any_isZoneSign_utf8Bytes (cs : List Char) :
    (utf8Bytes cs).any isZoneSign = cs.any isZoneSign := by
  have hbytes (c : Char) : (if c.toNat < 128 then [c] else
      List.replicate c.utf8Size '\x80').any isZoneSign = isZoneSign c := by
    split
    · simp
    · rename_i hc
      have hsign : isZoneSign c = false := by
        rw [Bool.eq_false_iff]
        intro hsign
        simp only [isZoneSign, Bool.or_eq_true, decide_eq_true_eq] at hsign
        rcases hsign with (rfl | rfl) | rfl <;> exact hc (by decide)
      rw [hsign, List.any_replicate]
      split <;> rfl
  rw [utf8Bytes, List.any_flatMap]
  exact congrArg (cs.any ·) (funext hbytes)

theorem fromIsoFormat_offset (h : fromIsoFormat cs = some (t, offset)) :
    offset.isSome = hasZone cs := by
  unfold fromIsoFormat at h
  split at h
  · cases h
  · obtain ⟨n, hn, h⟩ := Option.bind_eq_some_iff.mp h
    obtain ⟨day, -, h⟩ := Option.bind_eq_some_iff.mp h
    have hzone : hasZone cs = ((cs.drop n).drop 1).any isZoneSign := by
      rw [hasZone, hn, List.drop_drop]
    rw [hzone]
    split at h
    · cases h
    · split at h
      · rename_i hnil
        obtain ⟨-, rfl⟩ := Prod.mk.inj (Option.some.inj h)
        rw [hnil]
        rfl
      · rename_i hrest
        obtain ⟨⟨time, zone⟩, htime, h⟩ := Option.bind_eq_some_iff.mp h
        obtain ⟨-, rfl⟩ := Prod.mk.inj (Option.some.inj h)
        rw [hrest, List.drop_one, List.tail_cons, ← any_isZoneSign_utf8Bytes]
        exact timeOfDay?_offset htime

/-- A field is parsed to a time with an offset exactly when it is written with one. -/
theorem parseDatetime_offset {raw : Option Json} {parsed : Option Datetime}
    (h : parseDatetime lib raw = .ok parsed) :
    (∀ d ∈ parsed.toList, d.2 = none) ↔ offsetIn lib raw = false := by
  unfold parseDatetime at h
  unfold offsetIn
  split at h
  · rename_i hgiven
    obtain rfl := Except.ok.inj h
    simp [hgiven]
  · rename_i value hgiven
    split at h
    · rename_i d hd
      obtain ⟨t, offset⟩ := d
      obtain rfl := Except.ok.inj h
      rw [hgiven, Option.any_some, ← fromIsoFormat_offset hd]
      simp
    · cases h

theorem parseRelationRecord_times {data : Json} {lineNo : ℕ} {record : RelationRecord}
    (h : parseRelationRecord lib data lineNo = .ok record) :
    parseDatetime lib (data.get? "valid_from") = .ok record.validFrom ∧
      parseDatetime lib (data.get? "valid_until") = .ok record.validUntil := by
  unfold parseRelationRecord at h
  dsimp only at h
  split at h
  · cases h
  · obtain ⟨confidence, -, h⟩ := Tx.except_bind_ok.mp h
    split at h
    · cases h
    · split at h
      · cases h
      · obtain ⟨fromEntityType, -, h⟩ := Tx.except_bind_ok.mp h
        obtain ⟨toEntityType, -, h⟩ := Tx.except_bind_ok.mp h
        obtain ⟨validFrom, hfrom, h⟩ := Tx.except_bind_ok.mp h
        obtain ⟨validUntil, huntil, h⟩ := Tx.except_bind_ok.mp h
        rw [← Except.ok.inj h]
        exact ⟨hfrom, huntil⟩

end

section

variable {lib : RelationLib} {driver : Datetime → Except Exn Time}

/--
No promotion and no application of a profile update hands over a naive time; an imported relation
does exactly when its record is written without offsets.
-/
theorem naive_utc_iff (hdriver : NaiveColumn driver) :
    (∀ config now i candidate rule, promotedRule lib.rt config now i candidate = .ok rule →
      (promotionTimes config now).map Datetime.instant =
          [rule.effectiveFrom, rule.effectiveUntil] ∧
        ¬∀ d ∈ promotionTimes config now, KeptNaive driver d) ∧
    (∀ now suggestion write, applyProfileUpdate lib now suggestion = .ok (some write) →
      write.appliedAt.instant = now ∧ ¬KeptNaive driver write.appliedAt) ∧
    ∀ data lineNo record, parseRelationRecord lib data lineNo = .ok record →
      ((∀ d ∈ record.times, KeptNaive driver d) ↔
        offsetIn lib (data.get? "valid_from") = false ∧
          offsetIn lib (data.get? "valid_until") = false) := by
  refine ⟨fun config now i candidate rule h => ⟨?_, fun hkept => ?_⟩,
    fun now suggestion write h => ?_, fun data lineNo record h => ?_⟩
  · unfold promotedRule at h
    dsimp only at h
    split at h
    · cases h
    · rw [← Except.ok.inj h]
      simp [promotionTimes, Datetime.instant]
  · have hnaive := (keptNaive_iff hdriver).mp (hkept (now, some 0) List.mem_cons_self)
    cases hnaive
  · unfold applyProfileUpdate at h
    split at h
    · cases h
    · dsimp only at h
      split at h
      · cases h
      · obtain ⟨confidence, -, h⟩ := Tx.except_bind_ok.mp h
        rw [← Option.some.inj (Except.ok.inj h), keptNaive_iff hdriver]
        exact ⟨sub_zero now, nofun⟩
  · obtain ⟨hfrom, huntil⟩ := parseRelationRecord_times h
    rw [← parseDatetime_offset hfrom, ← parseDatetime_offset huntil, ← List.forall_mem_append]
    simp only [keptNaive_iff hdriver, RelationRecord.times]

theorem storeTime_kept {o : Option Datetime} (h : ∀ d ∈ o.toList, KeptNaive driver d) :
    storeTime driver o = .ok (o.map Datetime.instant) := by
  cases o with
  | none => rfl
  | some d => rw [storeTime, (h d (List.mem_singleton_self d)).stored, Except.map, Option.map_some]

/-- A record whose times are kept is written over its edge, or added, with its instants. -/
theorem upsertEntityRelation_kept {record : RelationRecord} {relations : Rows EntityRelation}
    (hkept : ∀ d ∈ record.times, KeptNaive driver d)
    (hunique : (relations.select fun _ rel => record.names rel).length ≤ 1) :
    ∃ created relations', upsertEntityRelation driver record relations = .ok (created, relations') ∧
      ∃ rel ∈ relations', rel.validFrom = record.validFrom.map Datetime.instant ∧
        rel.validUntil = record.validUntil.map Datetime.instant := by
  obtain ⟨hfrom, huntil⟩ := List.forall_mem_append.mp hkept
  unfold upsertEntityRelation
  rw [storeTime_kept hfrom, storeTime_kept huntil]
  rcases hrows : relations.select fun _ rel => record.names rel with _ | ⟨⟨i, rel⟩, _ | _⟩
  · exact ⟨true, _, rfl, _, List.mem_append_right _ List.mem_cons_self, rfl, rfl⟩
  · obtain ⟨hrel, -⟩ := Rows.mem_select.mp (hrows ▸ List.mem_cons_self)
    refine ⟨false, _, rfl, ?_⟩
    exact ⟨_, List.mem_of_getElem? (Rows.getElem?_update.mpr (.inl ⟨rfl, rel, hrel, rfl⟩)),
      rfl, rfl⟩
  · rw [hrows] at hunique
    simp at hunique

theorem relationInForce_iff {now : Time} {rel : EntityRelation} {record : RelationRecord}
    (hfrom : rel.validFrom = record.validFrom.map Datetime.instant)
    (huntil : rel.validUntil = record.validUntil.map Datetime.instant) :
    relationInForce now rel = true ↔
      (∀ d ∈ record.validFrom, d.instant ≤ now) ∧ ∀ d ∈ record.validUntil, now ≤ d.instant := by
  rw [relationInForce, hfrom, huntil]
  cases record.validFrom <;> cases record.validUntil <;> simp

end

/-- A driver that writes naive times and refuses aware ones. -/
def naiveDriver : Datetime → Except Exn Time
  | (t, none) => .ok t
  | (_, some _) => .error .statement

def sampleRelationLib : RelationLib where
  rt := sampleRuntime .free []
  float
    | .float q => .ok (some q)
    | .int n => .ok (some n)
    | _ => .error .typeError
  repr s := "'" ++ s ++ "'"

/-- A host that runs an application from a time on. -/
def sampleRelation (validFrom : String) : Json :=
  .obj [("from_entity_type", .str "host"), ("from_entity_key", .str "web-1"),
    ("to_entity_type", .str "user"), ("to_entity_key", .str "deploy"),
    ("relation_type", .str "used_by"), ("valid_from", .str validFrom)]

theorem naiveColumn_sample : NaiveColumn naiveDriver where
  naive _ := rfl
  aware _ _ := ⟨_, rfl⟩

theorem naive_utc_sample :
    ∃ record, parseRelationRecord sampleRelationLib (sampleRelation "2026-01-01T08:00:00") 1 =
        .ok record ∧ ∀ d ∈ record.times, KeptNaive naiveDriver d := by
  obtain ⟨record, hrecord⟩ : ∃ record, parseRelationRecord sampleRelationLib
      (sampleRelation "2026-01-01T08:00:00") 1 = .ok record :=
    Tx.ok_of_isOk (by decide +kernel)
  refine ⟨record, hrecord, ((naive_utc_iff naiveColumn_sample).2.2 _ _ _ hrecord).mpr ?_⟩
  decide

theorem aware_times_are_refused :
    ∃ record, parseRelationRecord sampleRelationLib (sampleRelation "2026-01-01T08:00:00+08:00") 1 =
        .ok record ∧ upsertEntityRelation naiveDriver record [] = .error .statement := by
  obtain ⟨record, hrecord⟩ : ∃ record, parseRelationRecord sampleRelationLib
      (sampleRelation "2026-01-01T08:00:00+08:00") 1 = .ok record :=
    Tx.ok_of_isOk (by decide +kernel)
  refine ⟨record, hrecord, ?_⟩
  have hfrom : record.validFrom = some (1767254400000000, some 28800000000) := by
    have hparsed := (parseRelationRecord_times hrecord).1
    have hread : parseDatetime sampleRelationLib
      ((sampleRelation "2026-01-01T08:00:00+08:00").get? "valid_from") =
        .ok (some (1767254400000000, some 28800000000)) := rfl
    exact (Except.ok.inj (hread.symm.trans hparsed)).symm
  unfold upsertEntityRelation
  rw [hfrom]
  rfl

end Minsight

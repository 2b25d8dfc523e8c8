import Mathlib.Logic.Function.Basic
import Minsight.Assets.Suggestions

/-! # Suggestions that mean the same

Candidates are told apart by a hash of the whole pattern, whereas the matcher reads some keys of it.
A pattern with a key that is not read is taken for another one, and the type of a suggestion, which
is not in its pattern, does not tell it from another.
-/

namespace Minsight

open Tx Session

def readKeys (keys : List String) (j : Json) : Json :=
  .obj (keys.filterMap fun key => (j.get? key).map fun value => (key, value))

def readCondition : Json → Json
  | .obj fields => readKeys ["field", "op", "value"] (.obj fields)
  | other => other

def readConditions : Json → Json
  | .arr items => .arr (items.map readCondition)
  | other => other

/-- What `match_pattern` reads of a pattern. -/
def readPattern (p : Json) : Json :=
  match p.get? "all" with
  | some conditions => .obj [("all", readConditions conditions)]
  | none =>
    match p.get? "any" with
    | some conditions => .obj [("any", readConditions conditions)]
    | none =>
      if ((p.get? "field").getD .null).truthy then readCondition p
      else readKeys ["value", "rule_type"] p

/-- The patterns differ in keys and in an order of keys that the matcher ignores. -/
def SameReading (p q : Json) : Prop := (readPattern p).canonical = (readPattern q).canonical

section

variable {rt : Runtime} {alert : Alert} {c d j k p q : Json} {keys : List String} {key : String}

theorem get_readKeys : (readKeys keys j).get? key = if key ∈ keys then j.get? key else none := by
  induction keys with
  | nil => rfl
  | cons k keys ih =>
    have hread : (readKeys (k :: keys) j).get? key =
        (((j.get? k).map fun value => (k, value)).toList ++
          keys.filterMap fun key => (j.get? key).map fun value => (key, value)).lookup key := by
      rw [readKeys, Json.get?, List.filterMap_cons]
      cases j.get? k <;> rfl
    rw [readKeys, Json.get?] at ih
    rw [hread, List.lookup_append, ih]
    by_cases hk : key = k
    · subst hk
      cases j.get? key <;> simp
    · have hne : (key == k) = false := by simpa using hk
      cases j.get? k <;> simp [hk, hne, List.lookup_cons]

theorem matchSingle_readCondition :
    matchSingle rt alert (readCondition c) = matchSingle rt alert c := by
  cases c with
  | obj fields =>
    have hget (key : String) (h : key ∈ ["field", "op", "value"]) :
        (readCondition (.obj fields)).get? key = (Json.obj fields).get? key := by
      rw [readCondition, get_readKeys, if_pos h]
    obtain ⟨read, hread⟩ : ∃ read, readCondition (.obj fields) = .obj read := ⟨_, rfl⟩
    rw [hread] at hget ⊢
    simp only [matchSingle, hget "field" (by decide), hget "op" (by decide),
      hget "value" (by decide)]
  | _ => rfl

theorem matchAll_congr {cs ds : List Json}
    (h : List.Forall₂ (fun c d => matchSingle rt alert c = matchSingle rt alert d) cs ds) :
    matchAll rt alert cs = matchAll rt alert ds := by
  induction h with
  | nil => rfl
  | cons hcd _ ih => simp only [matchAll, hcd, ih]

theorem matchAny_congr {cs ds : List Json}
    (h : List.Forall₂ (fun c d => matchSingle rt alert c = matchSingle rt alert d) cs ds) :
    matchAny rt alert cs = matchAny rt alert ds := by
  induction h with
  | nil => rfl
  | cons hcd _ ih => simp only [matchAny, hcd, ih]

theorem forall₂_readCondition (cs : List Json) : List.Forall₂
    (fun c d => matchSingle rt alert c = matchSingle rt alert d) (cs.map readCondition) cs := by
  rw [List.forall₂_map_left_iff]
  exact List.forall₂_same.mpr fun _ _ => matchSingle_readCondition

theorem conditionsOf_readConditions (v : Json) :
    ∃ read : List Json → List Json, (read = id ∨ read = List.map readCondition) ∧
      conditionsOf (readConditions v) = (conditionsOf v).map read := by
  cases v with
  | arr items =>
    refine ⟨List.map readCondition, .inr rfl, ?_⟩
    cases items <;> simp [conditionsOf, readConditions, Json.truthy, Except.map]
  | _ => exact ⟨id, .inl rfl, by simp [readConditions]⟩

theorem matchPattern_readPattern :
    matchPattern rt alert (readPattern p) = matchPattern rt alert p := by
  unfold readPattern
  cases hall : p.get? "all" with
  | some v =>
    have hread : (Json.obj [("all", readConditions v)]).get? "all" = some (readConditions v) := rfl
    obtain ⟨read, hcases, hconditions⟩ := conditionsOf_readConditions v
    simp only [matchPattern, hread, hall, hconditions]
    cases conditionsOf v with
    | error e => rfl
    | ok cs =>
      rcases hcases with rfl | rfl
      · rfl
      · exact matchAll_congr (forall₂_readCondition cs)
  | none =>
    cases hany : p.get? "any" with
    | some v =>
      have hread : (Json.obj [("any", readConditions v)]).get? "any" =
        some (readConditions v) := rfl
      have hmissing : (Json.obj [("any", readConditions v)]).get? "all" = none := rfl
      obtain ⟨read, hcases, hconditions⟩ := conditionsOf_readConditions v
      simp only [matchPattern, hread, hmissing, hall, hany, hconditions]
      cases conditionsOf v with
      | error e => rfl
      | ok cs =>
        rcases hcases with rfl | rfl
        · rfl
        · exact matchAny_congr (forall₂_readCondition cs)
    | none =>
      dsimp only
      split
      · rename_i hfield
        obtain ⟨fields, rfl⟩ : ∃ fields, p = .obj fields := by
          cases p with
          | obj fields => exact ⟨fields, rfl⟩
          | _ => simp [Json.get?, Json.truthy] at hfield
        have hget (key : String) : (readCondition (.obj fields)).get? key =
            if key ∈ ["field", "op", "value"] then (Json.obj fields).get? key else none :=
          get_readKeys
        have hread : ((readCondition (.obj fields)).get? "field").getD .null =
            ((Json.obj fields).get? "field").getD .null := by
          rw [hget, if_pos (by decide)]
        simp only [matchPattern, hread, hfield, hall, hany]
        simp [hget, matchSingle_readCondition]
      · rename_i hfield
        simp only [matchPattern, get_readKeys, hall, hany, hfield]
        simp [Json.truthy]

theorem readKeys_canonical (h : j.canonical = k.canonical) (keys : List String) :
    (readKeys keys j).canonical = (readKeys keys k).canonical := by
  have hfields (key : String) (f : Json → String × Json) (hf : f = fun value => (key, value)) :
      ((j.get? key).map f).map (fun g => (g.1, g.2.canonical)) =
        ((k.get? key).map f).map fun g => (g.1, g.2.canonical) := by
    have hget := congrArg (Option.map f) (Json.get_of_canonical_eq h key)
    subst hf
    simpa [Option.map_map, Function.comp_def] using hget
  simp only [readKeys, Json.canonical, Json.canonicalFields_eq, List.map_filterMap]
  congr 2
  exact List.filterMap_congr fun key _ => hfields key _ rfl

theorem readCondition_canonical (h : c.canonical = d.canonical) :
    (readCondition c).canonical = (readCondition d).canonical := by
  cases c with
  | obj fields =>
    cases d with
    | obj fields' => exact readKeys_canonical h _
    | _ => simp [Json.canonical] at h
  | _ =>
    cases d with
    | obj fields' => simp [Json.canonical] at h
    | _ => exact h

theorem readConditions_canonical (h : c.canonical = d.canonical) :
    (readConditions c).canonical = (readConditions d).canonical := by
  cases c with
  | arr items =>
    cases d with
    | arr items' =>
      have hitems := Json.map_canonical_of_arr h
      -- what is read of a condition depends on what it is up to the order of keys
      have hfactors : Function.FactorsThrough (fun c => (readCondition c).canonical)
        Json.canonical := fun _ _ => readCondition_canonical
      simp only [readConditions, Json.canonical, Json.canonicalItems_eq, List.map_map]
      rw [show Json.canonical ∘ readCondition = _ from (hfactors.extend_comp fun _ => .null).symm,
        ← List.map_map, hitems, List.map_map]
    | _ => simp [Json.canonical] at h
  | _ =>
    cases d with
    | arr items' => simp [Json.canonical] at h
    | _ => exact h

theorem sameReading_of_canonical (h : p.canonical = q.canonical) : SameReading p q := by
  have hobject (key : String) {v u : Json} (hvu : (readConditions v).canonical =
      (readConditions u).canonical) : (Json.obj [(key, readConditions v)]).canonical =
        (Json.obj [(key, readConditions u)]).canonical := by
    simp only [Json.canonical, Json.canonicalFields_eq, List.map_cons, List.map_nil, hvu]
  have hall := Json.get_of_canonical_eq h "all"
  have hany := Json.get_of_canonical_eq h "any"
  have hfield := Json.truthy_of_canonical_eq (Json.getD_of_canonical_eq h "field" .null)
  unfold SameReading readPattern
  cases hpall : p.get? "all" <;> cases hqall : q.get? "all" <;> rw [hpall, hqall] at hall
  · cases hpany : p.get? "any" <;> cases hqany : q.get? "any" <;> rw [hpany, hqany] at hany
    · dsimp only
      rw [hfield]
      split
      · exact readCondition_canonical h
      · exact readKeys_canonical h _
    · cases hany
    · cases hany
    · exact hobject "any" (readConditions_canonical (Option.some.inj hany))
  · cases hall
  · cases hall
  · exact hobject "all" (readConditions_canonical (Option.some.inj hall))

section

variable (hstr : ∀ j k : Json, j.canonical = k.canonical → rt.str j = rt.str k)

include hstr

theorem expectedItems_canonical (h : c.canonical = d.canonical) :
    (expectedItems c).map rt.str = (expectedItems d).map rt.str := by
  have hfactors : Function.FactorsThrough rt.str Json.canonical := fun _ _ => hstr _ _
  have hmap (items : List Json) : items.map rt.str =
      (items.map Json.canonical).map (Function.extend Json.canonical rt.str fun _ => "") := by
    rw [List.map_map, hfactors.extend_comp]
  cases c with
  | arr items =>
    cases d with
    | arr items' =>
      have hitems := Json.map_canonical_of_arr h
      rw [expectedItems, expectedItems, hmap, hitems, ← hmap]
    | _ => simp [Json.canonical] at h
  | _ =>
    cases d with
    | arr items' => simp [Json.canonical] at h
    | _ => exact congrArg (fun s => [s]) (hstr _ _ h)

theorem matchSingle_canonical (h : c.canonical = d.canonical) :
    matchSingle rt alert c = matchSingle rt alert d := by
  cases c with
  | obj fields =>
    cases d with
    | obj fields' =>
      have hfield := Json.getD_of_canonical_eq h "field" .null
      have hvalue := Json.getD_of_canonical_eq h "value" .null
      have hop := Json.getD_of_canonical_eq h "op" (.str "eq")
      have hitems := expectedItems_canonical hstr hvalue
      simp only [matchSingle, Json.truthy_of_canonical_eq hfield, hstr _ _ hfield, hstr _ _ hvalue]
      generalize ((Json.obj fields).get? "op").getD (.str "eq") = op at hop
      generalize ((Json.obj fields').get? "op").getD (.str "eq") = op' at hop
      split
      · rfl
      · split
        · rfl
        · cases op with
          | str s =>
            cases op' with
            | str s' =>
              obtain rfl : s = s' := Json.str_of_canonical_eq hop
              -- only `in` looks at more than the text of the expected value
              split <;> try rfl
              exact congrArg (fun items : List String => Except.ok (items.contains _)) hitems
            | _ => simp [Json.canonical] at hop
          | _ =>
            cases op' with
            | str s' => simp [Json.canonical] at hop
            | _ => rfl
    | _ => simp [Json.canonical] at h
  | _ =>
    cases d with
    | obj fields' => simp [Json.canonical] at h
    | _ => rfl

theorem forall₂_canonical {cs ds : List Json}
    (h : cs.map Json.canonical = ds.map Json.canonical) :
    List.Forall₂ (fun c d => matchSingle rt alert c = matchSingle rt alert d) cs ds := by
  have hsame : List.Forall₂ Eq (cs.map Json.canonical) (ds.map Json.canonical) := by
    rw [List.forall₂_eq_eq_eq]
    exact h
  rw [List.forall₂_map_left_iff, List.forall₂_map_right_iff] at hsame
  exact hsame.imp fun _ _ => matchSingle_canonical hstr

theorem conditions_canonical (h : c.canonical = d.canonical)
    {run : List Json → Except Exn Bool}
    (hrun : ∀ cs ds, List.Forall₂
      (fun c d => matchSingle rt alert c = matchSingle rt alert d) cs ds → run cs = run ds)
    (htext : ∀ s cs, run (.str s :: cs) = .error (.attributeError "get")) :
    (conditionsOf c >>= run) = conditionsOf d >>= run := by
  have htruthy := Json.truthy_of_canonical_eq h
  cases c with
  | arr items =>
    cases d with
    | arr items' =>
      have hitems := Json.map_canonical_of_arr h
      rw [conditionsOf, conditionsOf, htruthy]
      split
      · rfl
      · exact hrun _ _ (forall₂_canonical hstr hitems)
    | _ => simp [Json.canonical] at h
  | obj fields =>
    cases d with
    | obj fields' =>
      -- the keys of an object are no conditions, in whatever order they come
      cases fields with
      | nil =>
        cases fields' with
        | nil => rfl
        | cons f' fields' => cases htruthy
      | cons f fields =>
        cases fields' with
        | nil => cases htruthy
        | cons f' fields' => exact (htext _ _).trans (htext _ _).symm
    | _ => simp [Json.canonical] at h
  | _ =>
    cases d with
    | arr items' => simp [Json.canonical] at h
    | obj fields' => simp [Json.canonical] at h
    | _ => cases h <;> rfl

theorem matchPattern_canonical (h : p.canonical = q.canonical) :
    matchPattern rt alert p = matchPattern rt alert q := by
  have hall := Json.get_of_canonical_eq h "all"
  have hany := Json.get_of_canonical_eq h "any"
  have hfield := Json.truthy_of_canonical_eq (Json.getD_of_canonical_eq h "field" .null)
  have hvalue := Json.getD_of_canonical_eq h "value" .null
  have htype := Json.get_of_canonical_eq h "rule_type"
  unfold matchPattern
  cases hpall : p.get? "all" <;> cases hqall : q.get? "all" <;> rw [hpall, hqall] at hall
  · cases hpany : p.get? "any" <;> cases hqany : q.get? "any" <;> rw [hpany, hqany] at hany
    · dsimp only
      rw [hfield, Json.truthy_of_canonical_eq hvalue, hstr _ _ hvalue]
      split
      · exact matchSingle_canonical hstr h
      · split
        · rfl
        · -- a type that is a text is the same text in both
          generalize p.get? "rule_type" = o at htype ⊢
          generalize q.get? "rule_type" = o' at htype ⊢
          cases o with
          | none =>
            cases o' with
            | none => rfl
            | some u => cases htype
          | some v =>
            cases o' with
            | none => cases htype
            | some u =>
              have hvu : v.canonical = u.canonical := Option.some.inj htype
              cases v with
              | str s =>
                cases u with
                | str s' =>
                  obtain rfl : s = s' := Json.str_of_canonical_eq hvu
                  rfl
                | _ => simp [Json.canonical] at hvu
              | _ =>
                cases u with
                | str s' => simp [Json.canonical] at hvu
                | _ => rfl
    · cases hany
    · cases hany
    · exact conditions_canonical hstr (Option.some.inj hany) (fun _ _ => matchAny_congr)
        fun _ _ => rfl
  · cases hall
  · cases hall
  · exact conditions_canonical hstr (Option.some.inj hall) (fun _ _ => matchAll_congr)
      fun _ _ => rfl

theorem matchPattern_sameReading (h : SameReading p q) :
    matchPattern rt alert p = matchPattern rt alert q := by
  rw [← matchPattern_readPattern, matchPattern_canonical hstr h, matchPattern_readPattern]

end

def isShorthand (p : Json) : Bool :=
  (p.get? "all").isNone && (p.get? "any").isNone && !((p.get? "field").getD .null).truthy

/-- The type that a suggestion gives to its value, in the pattern or beside it. -/
def suggestedType (wl p : Json) : Json :=
  (p.get? "rule_type").getD ((wl.get? "rule_type").getD (.str "composite"))

def SameType (wl p wl' q : Json) : Prop :=
  isShorthand p = true → (suggestedType wl p).canonical = (suggestedType wl' q).canonical

/-- Two suggestions, with their patterns, state the same conditions. -/
def SameConditions (wl p wl' q : Json) : Prop := SameReading p q ∧ SameType wl p wl' q

def PendingBeside (db : Db) (i : ℕ) (phash : String) : Prop :=
  ∃ j c, j ≠ i ∧ db.whitelistCandidates[j]? = some c ∧ c.status = .pending ∧
    samePatternHash phash c = true

end

section

variable {rt : Runtime} {config : DefenseAssetConfig} {env : SettleEnv} {t : SettleTarget}
  {w : World} {wl wl' p q : Json}

/-- Settling the suggestion of a target adds no candidate. -/
def Suppressed (rt : Runtime) (config : DefenseAssetConfig) (env : SettleEnv) (t : SettleTarget)
    (w : World) : Prop :=
  (exec (addWhitelistCandidate rt config env t) w).2.db.whitelistCandidates =
    w.db.whitelistCandidates

/-- A suggestion is suppressed exactly by a pending candidate of its hash. -/
theorem suppressed_iff {phash : String} (hopen : w.failed = false)
    (hfault : env.faults .whitelist = none)
    (hpattern : whitelistPattern rt config t.conclusion = some (wl, p, phash)) :
    Suppressed rt config env t w ↔
      ∃ c ∈ w.db.whitelistCandidates, c.status = .pending ∧ samePatternHash phash c = true := by
  have hcount : (∃ c ∈ w.db.whitelistCandidates, c.status = .pending ∧
      samePatternHash phash c = true) ↔ 0 < w.db.whitelistCandidates.countP fun c =>
        c.status == .pending && samePatternHash phash c := by
    rw [List.countP_pos_iff]
    simp
  have hstep (k : Unit → Session Unit) :
      exec (settleStep (env.faults .whitelist) >>= k) w = exec (k ()) w := by
    simp [settleStep, hopen, hfault]
  rw [hcount, Suppressed, addWhitelistCandidate, hpattern]
  simp only [hstep, exec_query_bind]
  generalize (w.db.whitelistCandidates.countP fun c =>
    c.status == .pending && samePatternHash phash c) = count
  rcases count with _ | _ | n
  · simp
  · simp
  · simp

/-- The suggestion of a first candidate suppresses a second one with the same canonical text. -/
theorem suppressed_by_first {i inv : ℕ} {n : ℤ}
    (hhash : patternHash rt p = patternHash rt q → rt.dumps p = rt.dumps q)
    (hdumps : rt.dumps p = rt.dumps q ↔ p.canonical = q.canonical) (hopen : w.failed = false)
    (hfault : env.faults .whitelist = none)
    (hfirst : w.db.whitelistCandidates[i]? = some
      { whitelistCandidateOf inv wl p (patternHash rt p) with humanConfirmations := n })
    (hpattern : whitelistPattern rt config t.conclusion = some (wl', q, patternHash rt q)) :
    Suppressed rt config env t w ↔
      p.canonical = q.canonical ∨ PendingBeside w.db i (patternHash rt q) := by
  rw [suppressed_iff hopen hfault hpattern]
  have hsame : samePatternHash (patternHash rt q)
      { whitelistCandidateOf inv wl p (patternHash rt p) with humanConfirmations := n } = true ↔
        p.canonical = q.canonical := by
    have hget : samePatternHash (patternHash rt q)
        { whitelistCandidateOf inv wl p (patternHash rt p) with humanConfirmations := n } =
          (patternHash rt p == patternHash rt q) := rfl
    rw [hget, beq_iff_eq, ← hdumps]
    constructor
    · exact hhash
    · intro h
      rw [patternHash, h, patternHash]
  constructor
  · rintro ⟨c, hc, hpending, hashed⟩
    obtain ⟨j, hj⟩ := List.mem_iff_getElem?.mp hc
    by_cases hji : j = i
    · subst hji
      obtain rfl := Option.some.inj (hfirst.symm.trans hj)
      exact .inl (hsame.mp hashed)
    · exact .inr ⟨j, c, hji, hj, hpending, hashed⟩
  · rintro (hcanonical | ⟨j, c, -, hj, hpending, hashed⟩)
    · exact ⟨_, List.mem_of_getElem? hfirst, rfl, hsame.mpr hcanonical⟩
    · exact ⟨c, List.mem_of_getElem? hj, hpending, hashed⟩

/--
Beside no other candidate of its hash, a second suggestion is suppressed for its meaning exactly
when the same conditions are written in the same pattern and a pattern without a field comes with
one type.
-/
theorem dedup_by_meaning_iff {i inv : ℕ} {n : ℤ}
    (hhash : patternHash rt p = patternHash rt q → rt.dumps p = rt.dumps q)
    (hdumps : rt.dumps p = rt.dumps q ↔ p.canonical = q.canonical) (hopen : w.failed = false)
    (hfault : env.faults .whitelist = none)
    (hfirst : w.db.whitelistCandidates[i]? = some
      { whitelistCandidateOf inv wl p (patternHash rt p) with humanConfirmations := n })
    (hpattern : whitelistPattern rt config t.conclusion = some (wl', q, patternHash rt q)) :
    ((SameConditions wl p wl' q → Suppressed rt config env t w) ∧
        (¬SameConditions wl p wl' q → Suppressed rt config env t w →
          PendingBeside w.db i (patternHash rt q))) ↔
      PendingBeside w.db i (patternHash rt q) ∨
        (SameConditions wl p wl' q → p.canonical = q.canonical) ∧
          (p.canonical = q.canonical → SameType wl p wl' q) := by
  rw [suppressed_by_first hhash hdumps hopen hfault hfirst hpattern]
  constructor
  · rintro ⟨hsame, hdiffer⟩
    by_cases hbeside : PendingBeside w.db i (patternHash rt q)
    · exact .inl hbeside
    · refine .inr ⟨fun h => (hsame h).resolve_right hbeside, fun hcanonical => ?_⟩
      by_contra htype
      exact hbeside (hdiffer (fun h => htype h.2) (.inl hcanonical))
  · rintro (hbeside | ⟨hsame, htype⟩)
    · exact ⟨fun _ => .inr hbeside, fun _ _ => hbeside⟩
    · refine ⟨fun h => .inl (hsame h), fun hdiffer hsuppressed => ?_⟩
      apply hsuppressed.resolve_left
      intro hcanonical
      exact hdiffer ⟨sameReading_of_canonical hcanonical, htype hcanonical⟩

end

/-- A flat suggestion with the reason that the model gives for it. -/
def reasonedPattern (reason : String) : List (String × Json) :=
  [("field", .str "src_ip"), ("value", .str "203.0.113.7"), ("reason", .str reason)]

/-- A runtime that writes the patterns of two reasons. -/
def reasonRuntime : Runtime :=
  { sampleRuntime .free
      [("\x7b\"field\": \"src_ip\", \"reason\": \"scanner\", \"value\": \"203.0.113.7\"\x7d",
        "a4a4eaef4295f8708c09bedf3ba9030c9fb77f467572711d29a02d9daf1c2c25"),
       ("\x7b\"field\": \"src_ip\", \"reason\": \"backup host\", \"value\": \"203.0.113.7\"\x7d",
        "dca3df50d99890c24209072190ff79f5f21b5c9c110b1d6e4a112379414b4718")] with
    dumps := fun p => "\x7b\"field\": \"src_ip\", \"reason\": \"" ++
      (((p.get? "reason").bind Json.asStr?).getD "") ++ "\", \"value\": \"203.0.113.7\"\x7d" }

def fieldFirst : List (String × Json) := [("field", .str "src_ip"), ("value", .str "203.0.113.7")]

def valueFirst : List (String × Json) := [("value", .str "203.0.113.7"), ("field", .str "src_ip")]

theorem dedup_by_meaning_reordered :
    Suppressed flatRuntime {} {} (suggestionTarget valueFirst)
      { db := { whitelistCandidates := [whitelistCandidateOf 0 (.obj fieldFirst)
        (.obj fieldFirst) (patternHash flatRuntime (.obj fieldFirst))] } } := by
  have hcanonical : (Json.obj fieldFirst).canonical = (Json.obj valueFirst).canonical := rfl
  have hflat : ¬isShorthand (.obj fieldFirst) = true := by decide
  have htext : flatRuntime.dumps (.obj fieldFirst) = flatRuntime.dumps (.obj valueFirst) := rfl
  have hpattern : whitelistPattern flatRuntime {} (suggestionTarget valueFirst).conclusion =
    some (.obj valueFirst, .obj valueFirst, patternHash flatRuntime (.obj valueFirst)) := rfl
  apply ((dedup_by_meaning_iff (i := 0) (n := 0) (fun _ => htext)
    ⟨fun _ => hcanonical, fun _ => htext⟩ rfl rfl rfl hpattern).mpr
    (.inr ⟨fun _ => hcanonical, fun _ h => absurd h hflat⟩)).1
  exact ⟨sameReading_of_canonical hcanonical, fun h => absurd h hflat⟩

theorem ignored_keys_are_compared :
    ∃ w, exec (addWhitelistCandidate reasonRuntime {} {}
        (suggestionTarget (reasonedPattern "scanner"))) {} = (.ok (), w) ∧
      SameConditions (.obj (reasonedPattern "scanner")) (.obj (reasonedPattern "scanner"))
        (.obj (reasonedPattern "backup host")) (.obj (reasonedPattern "backup host")) ∧
      ¬Suppressed reasonRuntime {} {} (suggestionTarget (reasonedPattern "backup host")) w := by
  refine ⟨_, rfl, ⟨rfl, fun h => ?_⟩, fun h => ?_⟩
  · cases h
  · have hlength := congrArg List.length h
    revert hlength
    decide +kernel

end Minsight

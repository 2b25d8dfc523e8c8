import Minsight.Concurrency.Lookback
import Minsight.Config.Seeds

/-! # Settings beside each other

The application writes the defaults when it starts, and operators set values meanwhile; nobody
takes a lock, and the key of a row is unique. The settings that the services read are those that
the operators have written, whatever the order.
-/

namespace Minsight

open Program Regression

structure ConfigRow where
  key : String
  value : Json
  description : Option String

def settingsOf (rows : List ConfigRow) : SystemConfig := rows.map fun row => (row.key, row.value)

structure ConfigStore where
  rows : List ConfigRow := []
  /-- The values that operators have written, the last one first, for an observer. -/
  edits : SystemConfig := []

namespace ConfigStore

variable (s : ConfigStore)

def settings : SystemConfig := settingsOf s.rows

def keys : List String := s.rows.map (·.key)

def find (key : String) : Option ConfigRow := s.rows.find? fun row => row.key == key

end ConfigStore

inductive ConfigWrite
  /-- `INSERT` of a default. -/
  | seed (d : ConfigDefault)
  /-- `UPDATE` of a row without a description, with that of its default. -/
  | describe (key description : String)
  /-- `INSERT` of a value that is set. -/
  | insert (key : String) (value : Json) (description : Option String)
  /-- `UPDATE` of the columns that a request changes. -/
  | update (key : String) (value : Option Json) (description : Option String)

namespace ConfigWrite

def key : ConfigWrite → String
  | .seed d => d.key
  | .describe key _ | .insert key _ _ | .update key _ _ => key

def inserts : ConfigWrite → Bool
  | .seed _ | .insert .. => true
  | _ => false

/-- What an `UPDATE` does to the row of its key. -/
def onRow : ConfigWrite → ConfigRow → ConfigRow
  | .describe _ description, row => { row with description := some description }
  | .update _ value description, row =>
    { row with value := value.getD row.value, description := description.or row.description }
  | _, row => row

def apply : ConfigWrite → ConfigStore → ConfigStore
  | .seed d, s => { s with rows := s.rows ++ [⟨d.key, d.value, some d.description⟩] }
  | .insert key value description, s =>
    { rows := s.rows ++ [⟨key, value, description⟩], edits := (key, value) :: s.edits }
  | .update key value description, s => {
      rows := s.rows.map fun row =>
        if row.key == key then (ConfigWrite.update key value description).onRow row else row
      edits := (value.map fun v => (key, v)).toList ++ s.edits }
  | .describe key description, s => { s with
      rows := s.rows.map fun row =>
        if row.key == key then (ConfigWrite.describe key description).onRow row else row }

def conflicts (w : ConfigWrite) (s : ConfigStore) : Bool := w.inserts && (s.find w.key).isSome

end ConfigWrite

inductive ConfigPoint
  /-- The defaults still to be looked for in this transaction, and in those after it. -/
  | seeding (defaults : List ConfigDefault) (later : List (List ConfigDefault))
  /-- A write that the session holds back until its next statement. -/
  | flushing (w : ConfigWrite) (defaults : List ConfigDefault) (later : List (List ConfigDefault))
  | updating (key : String) (value : Json) (description : Option String)
  | saving (w : ConfigWrite)
  | committing
  | started
  | updated
  | failed

inductive ConfigAnswer
  | ok
  | fault

/-- The write of `ensure_config_key`, if it makes one. -/
def ensureConfigKey (d : ConfigDefault) (s : ConfigStore) : Option ConfigWrite :=
  match s.find d.key with
  | none => some (.seed d)
  | some row =>
    if d.description ≠ "" && (truthyText row.description).isNone then
      some (.describe d.key d.description)
    else none

/-- The write of `update_config`, if it makes one. -/
def updateConfig (key : String) (value : Json) (description : Option String) (s : ConfigStore) :
    Option ConfigWrite :=
  match s.find key with
  | none => some (.insert key value description)
  | some row =>
    match changed row.value value, (truthyText description).filter (row.description ≠ some ·) with
    | none, none => none
    | value, description => some (.update key value description)

/-- The statements of the transactions of `lifespan`, and of `update_config`. -/
def configStatement : ConfigAnswer → ConfigStore → ConfigPoint →
    Option (Statement ConfigWrite ConfigPoint)
  | _, _, .started => none
  | _, _, .updated => none
  | _, _, .failed => none
  | .fault, _, _ => some (.abort .failed)
  | .ok, _, .seeding [] [] => some (.commit .started)
  | .ok, _, .seeding [] (defaults :: later) => some (.commit (.seeding defaults later))
  | .ok, s, .seeding (d :: defaults) later =>
    match ensureConfigKey d s with
    | none => some (.read (.seeding defaults later))
    | some w => some (.read (.flushing w defaults later))
  | .ok, s, .flushing w defaults later =>
    if w.conflicts s then some (.abort .failed) else some (.write [w] (.seeding defaults later))
  | .ok, s, .updating key value description =>
    match updateConfig key value description s with
    | none => some (.read .committing)
    | some w => some (.read (.saving w))
  | .ok, s, .saving w =>
    if w.conflicts s then some (.abort .failed) else some (.write [w] .committing)
  | .ok, _, .committing => some (.commit .updated)

def configProgram : Program ConfigStore String ConfigWrite ConfigPoint ConfigAnswer where
  apply := ConfigWrite.apply
  row w := some w.key
  statement := configStatement

/-- A start of the application, or a request of an operator. -/
inductive ConfigJob
  | start (pro : Bool)
  | update (key : String) (value : Json) (description : Option String)

def ConfigJob.connection : ConfigJob → Connection ConfigWrite ConfigPoint
  | .start pro => { point := .seeding triageDefaults (lifespanDefaults pro).tail }
  | .update key value description => { point := .updating key value description }

def configInit (jobs : List ConfigJob) (db : ConfigStore) :
    Shared ConfigStore ConfigWrite ConfigPoint where
  db := db
  connections := jobs.map ConfigJob.connection

def configSystem (jobs : List ConfigJob) (db : ConfigStore) :
    System (Shared ConfigStore ConfigWrite ConfigPoint) (ℕ × ConfigAnswer) :=
  configProgram.system (configInit jobs db)

section

variable {rows : List ConfigRow} {w : ConfigWrite} {key : String}

def ConfigWrite.onRows (w : ConfigWrite) (key : String) (rows : List ConfigRow) : List ConfigRow :=
  rows.map fun row => if row.key == key then w.onRow row else row

theorem key_onRow (w : ConfigWrite) (row : ConfigRow) : (w.onRow row).key = row.key := by
  cases w <;> rfl

theorem keys_onRows (w : ConfigWrite) (key : String) (rows : List ConfigRow) :
    (w.onRows key rows).map (·.key) = rows.map (·.key) := by
  rw [ConfigWrite.onRows, List.map_map]
  refine List.map_congr_left fun row _ => ?_
  rw [Function.comp_apply]
  split
  · exact key_onRow w row
  · rfl

theorem lookup_eq_none : (settingsOf rows).lookup key = none ↔ key ∉ rows.map (·.key) := by
  rw [List.lookup_eq_none_iff]
  constructor
  · intro h hmem
    obtain ⟨row, hrow, rfl⟩ := List.mem_map.mp hmem
    simpa using h (row.key, row.value) (List.mem_map_of_mem hrow)
  · intro h p hp
    obtain ⟨row, hrow, rfl⟩ := List.mem_map.mp hp
    exact bne_iff_ne.mpr fun he => h (he ▸ List.mem_map_of_mem hrow)

theorem lookup_append (row : ConfigRow) (k : String) :
    (settingsOf (rows ++ [row])).lookup k =
      ((settingsOf rows).lookup k).or (if k = row.key then some row.value else none) := by
  rw [settingsOf, List.map_append, List.lookup_append]
  congr 1
  rw [List.map_singleton, List.lookup_cons, List.lookup_nil]
  by_cases hk : k = row.key
  · rw [if_pos hk, beq_iff_eq.mpr hk]
  · rw [if_neg hk, beq_false_of_ne hk]

theorem settingsOf_onRows (hvalue : ∀ row, (w.onRow row).value = row.value) :
    settingsOf (w.onRows key rows) = settingsOf rows := by
  rw [settingsOf, settingsOf, ConfigWrite.onRows, List.map_map]
  refine List.map_congr_left fun row _ => ?_
  rw [Function.comp_apply]
  split
  · rw [key_onRow, hvalue]
  · rfl

theorem lookup_onRows {value : Json} (hvalue : ∀ row, (w.onRow row).value = value) (k : String) :
    (settingsOf (w.onRows key rows)).lookup k =
      if k = key then ((settingsOf rows).lookup k).map fun _ => value
      else (settingsOf rows).lookup k := by
  induction rows with
  | nil => simp [ConfigWrite.onRows, settingsOf]
  | cons row rows ih =>
    have hkey : (if (row.key == key) = true then w.onRow row else row).key = row.key := by
      split
      · exact key_onRow w row
      · rfl
    simp only [ConfigWrite.onRows, settingsOf, List.map_cons, List.lookup_cons, hkey] at ih ⊢
    by_cases hk : k = row.key
    · subst hk
      by_cases he : row.key = key
      · simp [he, hvalue]
      · simp [he]
    · rw [beq_false_of_ne hk]
      exact ih

end

variable {s s' : ConfigStore} {w : ConfigWrite} {log : List ConfigWrite} {key : String}

theorem keys_apply (w : ConfigWrite) (s : ConfigStore) :
    (w.apply s).keys = if w.inserts then s.keys ++ [w.key] else s.keys := by
  cases w with
  | seed d => exact List.map_append
  | insert key value description => exact List.map_append
  | describe key description => exact keys_onRows _ key s.rows
  | update key value description => exact keys_onRows _ key s.rows

theorem find_eq_none : s.find key = none ↔ key ∉ s.keys := by
  simp [ConfigStore.find, ConfigStore.keys]

/-- The settings are those that were written, and defaults for other keys. -/
structure ConfigStore.Sound (s : ConfigStore) : Prop where
  unique : s.keys.Nodup
  seeded : Seeded s.settings s.edits

/-- The write can be made, and a default is one of those that are listed. -/
def ConfigWrite.Fits (s : ConfigStore) : ConfigWrite → Prop
  | .seed d => (d.key, d.value) ∈ configSeeds ∧ d.key ∉ s.keys
  | .insert key _ _ => key ∉ s.keys
  | .update key _ _ => key ∈ s.keys
  | .describe _ _ => True

theorem ConfigStore.Sound.unedited (h : s.Sound) (hkey : key ∉ s.keys) :
    s.edits.lookup key = none := by
  have hnone : s.settings.lookup key = none := lookup_eq_none.mpr hkey
  rcases h.seeded key with heq | ⟨hedits, -⟩
  · rw [← heq, hnone]
  · exact hedits

/-- A new row with a default for an edited key would hide nothing, and there is none. -/
theorem Seeded.seed {rows rows' : SystemConfig} {value : Json} (h : Seeded rows rows')
    (hkey : rows'.lookup key = none) (hlisted : (key, value) ∈ configSeeds)
    {rows'' : SystemConfig} (hself : rows''.lookup key = some value)
    (hothers : ∀ k, k ≠ key → rows''.lookup k = rows.lookup k) : Seeded rows'' rows' := by
  intro k
  by_cases hk : k = key
  · subst hk
    exact .inr ⟨hkey, value, hlisted, hself⟩
  · rw [hothers k hk]
    exact h k

theorem Seeded.edit {rows rows' rows'' : SystemConfig} {value : Json} (h : Seeded rows rows')
    (hself : rows''.lookup key = some value)
    (hothers : ∀ k, k ≠ key → rows''.lookup k = rows.lookup k) :
    Seeded rows'' ((key, value) :: rows') := by
  intro k
  rw [List.lookup_cons]
  by_cases hk : k = key
  · subst hk
    rw [BEq.rfl]
    exact .inl hself
  · rw [beq_false_of_ne hk, hothers k hk]
    exact h k

theorem ConfigStore.Sound.apply (h : s.Sound) (hw : w.Fits s) : (w.apply s).Sound := by
  have hinserted (hkey : w.key ∉ s.keys) : (s.keys ++ [w.key]).Nodup :=
    List.nodup_append_comm.mp (List.nodup_cons.mpr ⟨hkey, h.unique⟩)
  cases w with
  | seed d =>
    obtain ⟨hlisted, hkey⟩ := hw
    refine ⟨keys_apply _ s ▸ hinserted hkey, ?_⟩
    have hnone : (settingsOf s.rows).lookup d.key = none := lookup_eq_none.mpr hkey
    refine h.seeded.seed (h.unedited hkey) hlisted ?_ fun k hk => ?_
    · rw [ConfigStore.settings, ConfigWrite.apply, lookup_append, hnone, if_pos rfl]
      rfl
    · rw [ConfigStore.settings, ConfigWrite.apply, lookup_append, if_neg hk, Option.or_none]
      rfl
  | insert key value description =>
    refine ⟨keys_apply _ s ▸ hinserted hw, ?_⟩
    have hnone : (settingsOf s.rows).lookup key = none := lookup_eq_none.mpr hw
    refine h.seeded.edit ?_ fun k hk => ?_
    · rw [ConfigStore.settings, ConfigWrite.apply, lookup_append, hnone, if_pos rfl]
      rfl
    · rw [ConfigStore.settings, ConfigWrite.apply, lookup_append, if_neg hk, Option.or_none]
      rfl
  | update key value description =>
    refine ⟨keys_apply _ s ▸ h.unique, ?_⟩
    cases value with
    | none =>
      have hsettings : ((ConfigWrite.update key none description).apply s).settings = s.settings :=
        settingsOf_onRows fun _ => rfl
      rw [hsettings]
      exact h.seeded
    | some value =>
      have hlookup : ∀ k, ((ConfigWrite.update key (some value) description).apply s).settings.lookup
          k = _ := lookup_onRows fun _ => rfl
      refine h.seeded.edit ?_ fun k hk => ?_
      · obtain ⟨v, hv⟩ := Option.ne_none_iff_exists'.mp (mt lookup_eq_none.mp (not_not.mpr hw))
        rw [hlookup, if_pos rfl, hv]
        rfl
      · rw [hlookup, if_neg hk]
        rfl
  | describe key description =>
    have hsettings : ((ConfigWrite.describe key description).apply s).settings = s.settings :=
      settingsOf_onRows fun _ => rfl
    refine ⟨keys_apply _ s ▸ h.unique, ?_⟩
    rw [hsettings]
    exact h.seeded

def LogFits : ConfigStore → List ConfigWrite → Prop
  | _, [] => True
  | s, w :: log => w.Fits s ∧ LogFits (w.apply s) log

theorem ConfigStore.Sound.applyAll (h : s.Sound) (hlog : LogFits s log) :
    (configProgram.applyAll log s).Sound := by
  induction log generalizing s with
  | nil => exact h
  | cons w log ih => exact ih (h.apply hlog.1) hlog.2

theorem LogFits.concat (hlog : LogFits s log) (hw : w.Fits (configProgram.applyAll log s)) :
    LogFits s (log ++ [w]) := by
  induction log generalizing s with
  | nil => exact ⟨hw, trivial⟩
  | cons v log ih => exact ⟨hlog.1, ih hlog.2 hw⟩

theorem mem_keys_apply : key ∈ (w.apply s).keys ↔ key ∈ s.keys ∨ w.inserts = true ∧ key = w.key := by
  rw [keys_apply]
  split <;> simp_all

theorem mem_keys_applyAll : key ∈ (configProgram.applyAll log s).keys ↔
    key ∈ s.keys ∨ ∃ w ∈ log, w.inserts = true ∧ key = w.key := by
  induction log generalizing s with
  | nil => simp
  | cons w log ih =>
    rw [applyAll_cons, ih, List.exists_mem_cons_iff, ← or_assoc]
    exact or_congr_left mem_keys_apply

theorem mem_keys_of_unlocked (hkey : key ∉ configProgram.locked log) :
    key ∈ (configProgram.applyAll log s).keys ↔ key ∈ s.keys := by
  rw [mem_keys_applyAll, or_iff_left]
  rintro ⟨w, hw, -, rfl⟩
  exact hkey (List.mem_filterMap.mpr ⟨w, hw, rfl⟩)

theorem subset_keys_applyAll (log : List ConfigWrite) (s : ConfigStore) :
    s.keys ⊆ (configProgram.applyAll log s).keys := fun _ h => mem_keys_applyAll.mpr (.inl h)

theorem ConfigWrite.Fits.congr (h : w.Fits s) (hkeys : w.key ∈ s'.keys ↔ w.key ∈ s.keys) :
    w.Fits s' := by
  cases w with
  | seed d => exact ⟨h.1, mt hkeys.mp h.2⟩
  | insert => exact mt hkeys.mp h
  | update => exact hkeys.mpr h
  | describe => trivial

theorem LogFits.congr (h : LogFits s log)
    (hkeys : ∀ key ∈ configProgram.locked log, key ∈ s'.keys ↔ key ∈ s.keys) : LogFits s' log := by
  induction log generalizing s s' with
  | nil => trivial
  | cons w log ih =>
    have hlocked : configProgram.locked (w :: log) = w.key :: configProgram.locked log := rfl
    rw [hlocked] at hkeys
    refine ⟨h.1.congr (hkeys _ List.mem_cons_self), ih h.2 fun key hkey => ?_⟩
    rw [mem_keys_apply, mem_keys_apply, hkeys key (List.mem_cons_of_mem _ hkey)]

def ConfigPoint.blocked (s : ConfigStore) : ConfigPoint → Bool
  | .flushing w _ _ | .saving w => w.conflicts s
  | _ => false

/-- What a connection can do at a point, and what it has seen when it does it. -/
inductive ConfigMove (s : ConfigStore) :
    ConfigAnswer → ConfigPoint → Statement ConfigWrite ConfigPoint → Prop
  | stop {a : ConfigAnswer} {point : ConfigPoint}
      (cause : a = .fault ∨ point.blocked s = true) : ConfigMove s a point (.abort .failed)
  | finish : ConfigMove s .ok (.seeding [] []) (.commit .started)
  | next (defaults : List ConfigDefault) (later : List (List ConfigDefault)) :
      ConfigMove s .ok (.seeding [] (defaults :: later)) (.commit (.seeding defaults later))
  | skip {d : ConfigDefault} (defaults : List ConfigDefault) (later : List (List ConfigDefault))
      (kept : ensureConfigKey d s = none) :
      ConfigMove s .ok (.seeding (d :: defaults) later) (.read (.seeding defaults later))
  | hold {d : ConfigDefault} {w : ConfigWrite} (defaults : List ConfigDefault)
      (later : List (List ConfigDefault)) (missing : ensureConfigKey d s = some w) :
      ConfigMove s .ok (.seeding (d :: defaults) later) (.read (.flushing w defaults later))
  | flush {w : ConfigWrite} (defaults : List ConfigDefault) (later : List (List ConfigDefault))
      (free : w.conflicts s = false) :
      ConfigMove s .ok (.flushing w defaults later) (.write [w] (.seeding defaults later))
  | same {key : String} {value : Json} {description : Option String}
      (kept : updateConfig key value description s = none) :
      ConfigMove s .ok (.updating key value description) (.read .committing)
  | change {key : String} {value : Json} {description : Option String} {w : ConfigWrite}
      (changed : updateConfig key value description s = some w) :
      ConfigMove s .ok (.updating key value description) (.read (.saving w))
  | save {w : ConfigWrite} (free : w.conflicts s = false) :
      ConfigMove s .ok (.saving w) (.write [w] .committing)
  | commit : ConfigMove s .ok .committing (.commit .updated)

theorem configMove_of_statement {a : ConfigAnswer} {point : ConfigPoint}
    {statement : Statement ConfigWrite ConfigPoint}
    (h : configProgram.statement a s point = some statement) : ConfigMove s a point statement := by
  change configStatement a s point = some statement at h
  unfold configStatement at h
  split at h
  · cases h
  · cases h
  · cases h
  · obtain rfl := Option.some.inj h
    exact .stop (.inl rfl)
  · obtain rfl := Option.some.inj h
    exact .finish
  · obtain rfl := Option.some.inj h
    exact .next _ _
  · split at h
    · obtain rfl := Option.some.inj h
      exact .skip _ _ ‹_›
    · obtain rfl := Option.some.inj h
      exact .hold _ _ ‹_›
  · split at h
    · obtain rfl := Option.some.inj h
      exact .stop (.inr ‹_›)
    · obtain rfl := Option.some.inj h
      exact .flush _ _ (Bool.eq_false_iff.mpr ‹_›)
  · split at h
    · obtain rfl := Option.some.inj h
      exact .same ‹_›
    · obtain rfl := Option.some.inj h
      exact .change ‹_›
  · split at h
    · obtain rfl := Option.some.inj h
      exact .stop (.inr ‹_›)
    · obtain rfl := Option.some.inj h
      exact .save (Bool.eq_false_iff.mpr ‹_›)
  · obtain rfl := Option.some.inj h
    exact .commit

theorem idle_configInit (jobs : List ConfigJob) (db : ConfigStore) :
    ∀ c ∈ (configInit jobs db).connections, c.log = [] := by
  intro c hc
  obtain ⟨job, -, rfl⟩ := List.mem_map.mp hc
  cases job <;> rfl

def ConfigDefault.Listed (d : ConfigDefault) : Prop := (d.key, d.value) ∈ configSeeds

def ConfigPoint.Expects (s : ConfigStore) : ConfigPoint → Prop
  | .seeding defaults later => ∀ d ∈ defaults ++ later.flatten, d.Listed
  | .flushing (.seed d) defaults later => d.Listed ∧ ∀ d ∈ defaults ++ later.flatten, d.Listed
  | .flushing (.describe _ _) defaults later => ∀ d ∈ defaults ++ later.flatten, d.Listed
  | .flushing _ _ _ => False
  | .saving (.update key _ _) => key ∈ s.keys
  | .saving (.insert _ _ _) => True
  | .saving _ => False
  | _ => True

theorem ConfigPoint.Expects.mono {point : ConfigPoint} (h : point.Expects s)
    (hkeys : s.keys ⊆ s'.keys) : point.Expects s' := by
  cases point with
  | saving w =>
    cases w with
    | update => exact hkeys h
    | _ => exact h
  | flushing w => cases w <;> exact h
  | _ => exact h

theorem ConfigPoint.Expects.flush {defaults : List ConfigDefault}
    {later : List (List ConfigDefault)} (h : (ConfigPoint.flushing w defaults later).Expects s)
    (hfree : w.conflicts s = false) :
    w.Fits s ∧ (ConfigPoint.seeding defaults later).Expects s' := by
  cases w with
  | seed d =>
    refine ⟨⟨h.1, find_eq_none.mp ?_⟩, h.2⟩
    simpa [ConfigWrite.conflicts, ConfigWrite.inserts, ConfigWrite.key] using hfree
  | describe => exact ⟨trivial, h⟩
  | insert => exact h.elim
  | update => exact h.elim

theorem ConfigPoint.Expects.save (h : (ConfigPoint.saving w).Expects s)
    (hfree : w.conflicts s = false) : w.Fits s := by
  cases w with
  | insert key =>
    refine find_eq_none.mp ?_
    simpa [ConfigWrite.conflicts, ConfigWrite.inserts, ConfigWrite.key] using hfree
  | update => exact h
  | seed => exact h.elim
  | describe => exact h.elim

theorem expects_ensureConfigKey {d : ConfigDefault} {defaults : List ConfigDefault}
    {later : List (List ConfigDefault)} (h : ensureConfigKey d s = some w)
    (hlisted : ∀ d' ∈ d :: (defaults ++ later.flatten), d'.Listed) :
    (ConfigPoint.flushing w defaults later).Expects s := by
  obtain ⟨hd, hrest⟩ := List.forall_mem_cons.mp hlisted
  unfold ensureConfigKey at h
  split at h
  · obtain rfl := Option.some.inj h
    exact ⟨hd, hrest⟩
  · split at h
    · obtain rfl := Option.some.inj h
      exact hrest
    · cases h

theorem expects_updateConfig {value : Json} {description : Option String}
    (h : updateConfig key value description s = some w) : (ConfigPoint.saving w).Expects s := by
  unfold updateConfig at h
  split at h
  · obtain rfl := Option.some.inj h
    trivial
  · rename_i hfound
    split at h
    · cases h
    · obtain rfl := Option.some.inj h
      by_contra hkey
      rw [find_eq_none.mpr hkey] at hfound
      cases hfound

/-- The writes of a connection can be made, and it goes on as it may. -/
structure ConfigKept (s : ConfigStore) (c : Connection ConfigWrite ConfigPoint) : Prop where
  log : LogFits s c.log
  point : c.point.Expects (configProgram.applyAll c.log s)

theorem config_outline :
    configProgram.Outline (fun _ _ => True) ConfigStore.Sound ConfigKept where
  keeps := by
    rintro st i a ⟨point, log⟩ s' c' - hc hsound ⟨hlog, hpoint⟩ hsteps
    cases hsteps with
    | read statement =>
      refine ⟨hsound, hlog, ?_⟩
      cases configMove_of_statement statement with
      | skip defaults later => exact fun d hd => hpoint d (List.mem_cons_of_mem _ hd)
      | hold defaults later missing => exact expects_ensureConfigKey missing hpoint
      | same => trivial
      | change changed => exact expects_updateConfig changed
    | write statement =>
      cases configMove_of_statement statement with
      | flush defaults later free =>
        obtain ⟨hfits, hexpects⟩ := ConfigPoint.Expects.flush hpoint free
        exact ⟨hsound, hlog.concat hfits, hexpects⟩
      | save free =>
        exact ⟨hsound, hlog.concat (ConfigPoint.Expects.save hpoint free), trivial⟩
    | commit statement =>
      refine ⟨hsound.applyAll hlog, trivial, ?_⟩
      cases configMove_of_statement statement with
      | finish => trivial
      | next defaults later => exact hpoint
      | commit => trivial
    | abort statement =>
      refine ⟨hsound, trivial, ?_⟩
      cases configMove_of_statement statement with
      | stop => trivial
  interfere := by
    rintro st i a ⟨point, log⟩ ⟨point', log'⟩ q - hc hsound - - ⟨hlog', hpoint'⟩ hdisjoint
    refine ⟨hlog'.congr fun key hkey => mem_keys_of_unlocked fun h => hdisjoint h hkey, ?_⟩
    refine hpoint'.mono fun key hkey => ?_
    exact mem_keys_applyAll.mpr
      ((mem_keys_applyAll.mp hkey).imp_left fun h => subset_keys_applyAll log st.db h)

/-- Nobody has set anything: each row is a default. -/
structure ConfigStore.Unedited (s : ConfigStore) : Prop where
  unique : s.keys.Nodup
  defaults : ∀ row ∈ s.rows, (row.key, row.value) ∈ configSeeds
  edits : s.edits = []

theorem ConfigStore.Unedited.sound (h : s.Unedited) : s.Sound where
  unique := h.unique
  seeded key := by
    rw [h.edits]
    cases hlookup : s.settings.lookup key with
    | none => exact .inl rfl
    | some value =>
      obtain ⟨l₁, l₂, hsplit, -⟩ := List.lookup_eq_some_iff.mp hlookup
      have hmem : (key, value) ∈ s.settings := by
        rw [hsplit]
        exact List.mem_append_right _ List.mem_cons_self
      obtain ⟨row, hrow, heq⟩ := List.mem_map.mp hmem
      exact .inr ⟨rfl, value, heq ▸ h.defaults row hrow, rfl⟩

theorem listed_of_mem {pro : Bool} {d : ConfigDefault} (hd : d ∈ (lifespanDefaults pro).flatten) :
    d ∈ (lifespanDefaults true).flatten := by
  cases pro with
  | true => exact hd
  | false =>
    refine List.mem_flatten.mpr ?_
    obtain ⟨ds, hds, hd⟩ := List.mem_flatten.mp hd
    rw [lifespanDefaults, if_neg nofun, List.append_nil] at hds
    exact ⟨ds, List.mem_append_left _ hds, hd⟩

theorem configKept_connection (job : ConfigJob) (s : ConfigStore) : ConfigKept s job.connection := by
  cases job with
  | update => exact ⟨trivial, trivial⟩
  | start pro =>
    refine ⟨trivial, fun d hd => ?_⟩
    have hmem : d ∈ (lifespanDefaults pro).flatten := hd
    exact List.mem_append_left _ (List.mem_map_of_mem (listed_of_mem hmem))

/--
In every interleaving of starts of the application with requests that set values, over rows that
are defaults at first: a key has the value that was written for it last, and every service reads
what it would read if the defaults had never been written.
-/
theorem settings_follow_edits {rt : Runtime} {int : String → Option ℤ} {float : String → Option ℚ}
    (hstr : ∀ t, rt.str (.str t) = t) {jobs : List ConfigJob} {db : ConfigStore}
    (hdb : db.Unedited) {st : Shared ConfigStore ConfigWrite ConfigPoint}
    (h : (configSystem jobs db).Reachable st) :
    (∀ key value, st.db.edits.lookup key = some value →
      st.db.settings.lookup key = some value) ∧
    ReadsAlike rt int float st.db.settings st.db.edits := by
  have hconnections : ∀ c ∈ (configInit jobs db).connections, ConfigKept db c := by
    intro c hc
    obtain ⟨job, -, rfl⟩ := List.mem_map.mp hc
    exact configKept_connection job db
  obtain ⟨hsound, -, -⟩ :=
    config_outline.invariant hdb.sound hconnections (idle_configInit jobs db) h
  refine ⟨fun key value hedit => ?_, hsound.seeded.readsAlike hstr⟩
  rcases hsound.seeded key with heq | ⟨hnone, -⟩
  · rw [heq, hedit]
  · rw [hnone] at hedit
    cases hedit

/-- A start has begun with its defaults, an operator sets a value, and the start goes on until it
has committed the settings of triage. -/
def startedRun : List (ℕ × ConfigAnswer) :=
  [(0, .ok), (0, .ok), (1, .ok), (0, .ok), (1, .ok), (1, .ok)] ++ List.replicate 20 (0, .ok)

def startedJobs : List ConfigJob :=
  [.start false, .update "triage.batch_size" (Json.int 50).valued none]

def startedState : Shared ConfigStore ConfigWrite ConfigPoint :=
  ((configSystem startedJobs {}).run startedRun (configInit startedJobs {})).getD
    (configInit startedJobs {})

theorem settings_follow_edits_started :
    startedState.db.keys.length = 11 ∧
      startedState.db.edits.map Prod.fst = ["triage.batch_size"] ∧
      ReadsAlike (sampleRuntime .increasing []) (fun _ => none) (fun _ => none)
        startedState.db.settings startedState.db.edits := by
  have hrun : (configSystem startedJobs {}).run startedRun (configInit startedJobs {}) =
      some startedState := System.run_getD (by decide +kernel)
  exact ⟨by decide +kernel, by decide +kernel, (@settings_follow_edits _ _ _ (fun _ => rfl)
    startedJobs {} ⟨.nil, nofun, rfl⟩ _ (System.reachable_of_run hrun)).2⟩

/-- Every default has a row with a description, as the migrations leave it. -/
def ConfigStore.Complete (s : ConfigStore) : Prop :=
  ∀ d ∈ (lifespanDefaults true).flatten, ∃ row, s.find d.key = some row ∧
    (truthyText row.description).isSome = true

/-- The write of an operator who changes a row and does not blank its description. -/
def ConfigWrite.Changes : ConfigWrite → Prop
  | .update _ _ description => ∀ text, description = some text → text ≠ ""
  | _ => False

theorem find_onRows {rows : List ConfigRow} (k : String) :
    (w.onRows key rows).find? (fun row => row.key == k) =
      (rows.find? fun row => row.key == k).map fun row =>
        if row.key == key then w.onRow row else row := by
  have hkeys : ((fun row : ConfigRow => row.key == k) ∘ fun row : ConfigRow =>
      if row.key == key then w.onRow row else row) = fun row => row.key == k := by
    funext row
    rw [Function.comp_apply]
    split
    · rw [key_onRow]
    · rfl
  rw [ConfigWrite.onRows, List.find?_map, hkeys]

theorem truthyText_or {description old : Option String}
    (hnew : ∀ text, description = some text → text ≠ "")
    (hold : (truthyText old).isSome = true) :
    (truthyText (description.or old)).isSome = true := by
  cases description with
  | none => exact hold
  | some text => simp [truthyText, hnew text rfl]

theorem ConfigStore.Complete.apply (h : s.Complete) (hw : w.Changes) : (w.apply s).Complete := by
  cases w with
  | update key value description =>
    intro d hd
    obtain ⟨row, hrow, hdescribed⟩ := h d hd
    refine ⟨_, (find_onRows d.key).trans (congrArg _ hrow), ?_⟩
    dsimp only
    split
    · exact truthyText_or hw hdescribed
    · exact hdescribed
  | _ => exact hw.elim

theorem ConfigStore.Complete.applyAll (h : s.Complete) (hlog : ∀ w ∈ log, w.Changes) :
    (configProgram.applyAll log s).Complete := by
  induction log generalizing s with
  | nil => exact h
  | cons w log ih =>
    obtain ⟨hw, hlog⟩ := List.forall_mem_cons.mp hlog
    exact ih (h.apply hw) hlog

theorem ensureConfigKey_complete (h : s.Complete) {d : ConfigDefault}
    (hd : d ∈ (lifespanDefaults true).flatten) : ensureConfigKey d s = none := by
  obtain ⟨row, hrow, hdescribed⟩ := h d hd
  have hsome : (truthyText row.description).isNone = false :=
    Option.isNone_eq_false_iff.mpr hdescribed
  rw [ensureConfigKey, hrow]
  simp [hsome]

theorem updateConfig_known {value : Json} {description : Option String} (hkey : key ∈ s.keys)
    (h : updateConfig key value description s = some w) : w.Changes ∧ w.inserts = false := by
  unfold updateConfig at h
  split at h
  · exact absurd hkey (find_eq_none.mp ‹_›)
  · split at h
    · cases h
    · obtain rfl := Option.some.inj h
      refine ⟨fun text htext => ?_, rfl⟩
      obtain ⟨htext, -⟩ := Option.filter_eq_some_iff.mp htext
      simpa using (Option.filter_eq_some_iff.mp htext).2

def ConfigPoint.Settled (s : ConfigStore) : ConfigPoint → Prop
  | .seeding defaults later =>
    ∀ d ∈ defaults ++ later.flatten, d ∈ (lifespanDefaults true).flatten
  | .updating key _ _ => key ∈ s.keys
  | .saving w => w.Changes ∧ w.inserts = false
  | .flushing _ _ _ | .failed => False
  | .committing | .started | .updated => True

structure ConfigSettled (s : ConfigStore) (c : Connection ConfigWrite ConfigPoint) : Prop where
  log : ∀ w ∈ c.log, w.Changes
  point : c.point.Settled s

theorem ConfigPoint.Settled.mono {point : ConfigPoint} (h : point.Settled s)
    (hkeys : s.keys ⊆ s'.keys) : point.Settled s' := by
  cases point with
  | updating => exact hkeys h
  | _ => exact h

theorem settled_outline : configProgram.Outline (fun _ l => l.2 = .ok) ConfigStore.Complete
    ConfigSettled where
  keeps := by
    rintro st i a ⟨point, log⟩ s' c' hok hc hcomplete ⟨hlog, hpoint⟩ hsteps
    have hseen : (configProgram.applyAll log st.db).Complete := hcomplete.applyAll hlog
    cases hsteps with
    | read statement =>
      refine ⟨hcomplete, hlog, ?_⟩
      cases configMove_of_statement statement with
      | skip defaults later => exact fun d hd => hpoint d (List.mem_cons_of_mem _ hd)
      | hold defaults later missing =>
        rw [ensureConfigKey_complete hseen (hpoint _ List.mem_cons_self)] at missing
        cases missing
      | same => trivial
      | change changed => exact updateConfig_known (subset_keys_applyAll _ _ hpoint) changed
    | write statement =>
      cases configMove_of_statement statement with
      | flush => exact hpoint.elim
      | save free =>
        refine ⟨hcomplete, fun w hw => ?_, trivial⟩
        rcases List.mem_append.mp hw with hw | hw
        · exact hlog w hw
        · obtain rfl := List.mem_singleton.mp hw
          exact hpoint.1
    | commit statement =>
      refine ⟨hseen, nofun, ?_⟩
      cases configMove_of_statement statement with
      | finish => trivial
      | next defaults later => exact hpoint
      | commit => trivial
    | abort statement =>
      cases configMove_of_statement statement with
      | stop cause =>
        rcases cause with rfl | hblocked
        · cases hok
        · cases point with
          | flushing => exact hpoint.elim
          | saving w =>
            rw [ConfigPoint.blocked, ConfigWrite.conflicts, hpoint.2] at hblocked
            cases hblocked
          | _ => cases hblocked
  interfere := by
    rintro st i a ⟨point, log⟩ ⟨point', log'⟩ q - - - - - ⟨hlog', hpoint'⟩ -
    exact ⟨hlog', hpoint'.mono (subset_keys_applyAll log st.db)⟩

/-- The request is about a key that has a row. -/
def ConfigJob.Known (s : ConfigStore) : ConfigJob → Prop
  | .start _ => True
  | .update key _ _ => key ∈ s.keys

theorem configSettled_connection {job : ConfigJob} (h : job.Known s) :
    ConfigSettled s job.connection := by
  cases job with
  | update => exact ⟨nofun, h⟩
  | start pro =>
    refine ⟨nofun, fun d hd => ?_⟩
    have hmem : d ∈ (lifespanDefaults pro).flatten := hd
    exact listed_of_mem hmem

/--
Where every default has a row with a description, as after the migrations, no start of the
application writes anything, and neither a start nor a request about a known key fails, in every
interleaving in which the database answers.
-/
theorem complete_settings_settle {jobs : List ConfigJob} {db : ConfigStore} (hdb : db.Complete)
    (hjobs : ∀ job ∈ jobs, job.Known db) {st : Shared ConfigStore ConfigWrite ConfigPoint}
    (h : (configSystem jobs db).ReachableBy (fun _ l => l.2 = .ok) st) :
    ∀ c ∈ st.connections, c.point ≠ .failed ∧
      ∀ w ∈ c.log, ∃ key value description, w = .update key value description := by
  have hconnections : ∀ c ∈ (configInit jobs db).connections, ConfigSettled db c := by
    intro c hc
    obtain ⟨job, hjob, rfl⟩ := List.mem_map.mp hc
    exact configSettled_connection (hjobs job hjob)
  obtain ⟨-, hsettled, -⟩ := settled_outline.invariant hdb hconnections (idle_configInit jobs db) h
  intro c hc
  obtain ⟨hlog, hpoint⟩ := hsettled c hc
  refine ⟨fun hfailed => ?_, fun w hw => ?_⟩
  · rw [hfailed] at hpoint
    exact hpoint
  · have hchanges := hlog w hw
    cases w with
    | update key value description => exact ⟨key, value, description, rfl⟩
    | _ => exact hchanges.elim

def migratedStore : ConfigStore where
  rows := (lifespanDefaults true).flatten.map fun d => ⟨d.key, d.value, some d.description⟩

theorem migratedStore_complete : migratedStore.Complete := by
  have hdescribed : ∀ d ∈ (lifespanDefaults true).flatten,
      (truthyText (some d.description)).isSome = true := by
    decide +kernel
  intro d hd
  have hmem : (⟨d.key, d.value, some d.description⟩ : ConfigRow) ∈ migratedStore.rows :=
    List.mem_map_of_mem hd
  cases hfind : migratedStore.find d.key with
  | none => exact absurd (List.mem_map_of_mem hmem) (find_eq_none.mp hfind)
  | some row =>
    obtain ⟨d', hd', rfl⟩ := List.mem_map.mp (List.mem_of_find?_eq_some hfind)
    exact ⟨_, rfl, hdescribed d' hd'⟩

def restartedJobs : List ConfigJob :=
  [.start true, .start false, .update "triage.batch_size" (Json.int 50).valued (some "less")]

def restartedRun : List (ℕ × ConfigAnswer) :=
  [(0, .ok), (2, .ok), (1, .ok), (2, .ok), (0, .ok), (2, .ok), (0, .ok)]

def restartedState : Shared ConfigStore ConfigWrite ConfigPoint :=
  ((configSystem restartedJobs migratedStore).run restartedRun
    (configInit restartedJobs migratedStore)).getD (configInit restartedJobs migratedStore)

theorem complete_settings_settle_restarted :
    restartedState.db.edits.map Prod.fst = ["triage.batch_size"] ∧
      ∀ c ∈ restartedState.connections, c.point ≠ .failed ∧
        ∀ w ∈ c.log, ∃ key value description, w = .update key value description := by
  have hrun : (configSystem restartedJobs migratedStore).run restartedRun
      (configInit restartedJobs migratedStore) = some restartedState :=
    System.run_getD (by decide +kernel)
  have hknown : ∀ job ∈ restartedJobs, job.Known migratedStore := by
    intro job hjob
    have hkey : "triage.batch_size" ∈ migratedStore.keys := by decide +kernel
    rcases List.mem_cons.mp hjob with rfl | hjob
    · trivial
    · rcases List.mem_cons.mp hjob with rfl | hjob
      · trivial
      · obtain rfl := List.mem_singleton.mp hjob
        exact hkey
  have hanswers : ∀ l ∈ restartedRun, l.2 = .ok := by simp [restartedRun]
  exact ⟨by decide +kernel, complete_settings_settle migratedStore_complete hknown
    (System.reachableBy_of_run (System.runsBy_of_labels hanswers) hrun)⟩

end Minsight

import Minsight.Foundation.Tx
import Minsight.License.Format
import Mathlib.Logic.Function.Basic

/-! # Importing a license

The import sets the license file aside under the name of the backup, and puts the backup back when
the new file cannot be written or does not verify. A backup that was there before is put back too,
even when there was no license file to set aside.
-/

namespace Minsight

namespace License

inductive FileName
  | licenseFile | backup | graceFile | graceExpiredFile | source
  deriving DecidableEq, Repr

/-- A path is a file when it has a content. -/
abbrev Files := FileName → Option Bytes

/-- How the operations of one import fail outside the program. -/
structure Faults where
  /-- `read_bytes` of a source that exists -/
  read : Option String := none
  /-- `write_bytes`, and what it leaves of the file -/
  write : Option (Option Bytes × String) := none
  /-- a step of the verification, such as reading the file again -/
  verify : Option String := none

namespace Files

def isFile (name : FileName) : Tx String Files Bool := Tx.read fun files => (files name).isSome

/-- `path.unlink(missing_ok=True)` -/
def unlink (name : FileName) : Tx String Files Unit :=
  Tx.write fun files => Function.update files name none

/-- `path.replace(target)` of a file -/
def replace (name target : FileName) : Tx String Files Unit :=
  Tx.write fun files => Function.update (Function.update files target (files name)) name none

/-- `if path.is_file(): path.replace(target)` -/
def replaceIfFile (name target : FileName) : Tx String Files Unit := do
  if ← isFile name then replace name target

/-- `path.read_bytes()` -/
def readBytes (name : FileName) (failure : Option String) : Tx String Files Bytes := do
  Tx.fallible failure
  match ← Tx.read fun files => files name with
  | none => Tx.raise "[Errno 2] No such file or directory"
  | some content => pure content

/-- `path.write_bytes(content)` -/
def writeBytes (name : FileName) (content : Bytes) (failure : Option (Option Bytes × String)) :
    Tx String Files Unit :=
  match failure with
  | none => Tx.write fun files => Function.update files name (some content)
  | some (left, message) => do
    Tx.write fun files => Function.update files name left
    Tx.raise message

end Files

namespace Manager

variable (m : Manager) (today : ℤ) (faults : Faults)

/-- The part of `import_file` that is rolled back. -/
def writeAndVerify : Tx String Files Unit := do
  let content ← Files.readBytes .source faults.read
  Files.writeBytes .licenseFile content faults.write
  Tx.fallible faults.verify
  match m.verifyFull today (← Tx.read fun files => files .licenseFile) with
  | .error message => Tx.raise message
  | .ok _ => pure ()

/-- What `import_file` does when the new file is refused. -/
def rollBack (exc : String) : Tx String Files Unit := do
  Files.unlink .licenseFile
  Files.replaceIfFile .backup .licenseFile
  Tx.raise ("导入失败（未生效）: " ++ exc)

/-- What `import_file` removes once the new file is accepted. -/
def cleanUp : Tx String Files Unit := do
  Files.unlink .graceFile
  Files.unlink .graceExpiredFile
  Files.unlink .backup

/-- `Manager.import_file` -/
def importFile : Tx String Files Unit := do
  Files.replaceIfFile .licenseFile .backup
  match ← Tx.attempt (m.writeAndVerify today faults) with
  | .error exc => rollBack exc
  | .ok _ => cleanUp

end Manager

/-- The source can be read and written, and what it holds verifies. -/
def Importable (m : Manager) (today : ℤ) (faults : Faults) (files : Files) : Prop :=
  faults.read = none ∧ faults.write = none ∧ faults.verify = none ∧
    ∃ content, files .source = some content ∧ (m.verifyFull today (some content)).isOk = true

variable {m : Manager} {today : ℤ} {faults : Faults} {files : Files}

def SameOthers (files files' : Files) : Prop :=
  ∀ name, name ≠ .licenseFile → files' name = files name

instance : Std.Refl SameOthers where
  refl _ _ _ := rfl

instance : IsTrans Files SameOthers where
  trans _ _ _ h h' name hname := (h' name hname).trans (h name hname)

theorem respects_readBytes (name : FileName) (failure : Option String) :
    Tx.Respects SameOthers (Files.readBytes name failure) := by
  refine (Tx.respects_fallible _).bind fun _ => (Tx.respects_read _).bind fun content => ?_
  cases content with
  | none => exact Tx.respects_raise _
  | some content => exact Tx.respects_pure _

theorem respects_writeBytes (content : Bytes) (failure : Option (Option Bytes × String)) :
    Tx.Respects SameOthers (Files.writeBytes .licenseFile content failure) := by
  have hwrite : ∀ left, Tx.Respects (ε := String) SameOthers
      (Tx.write fun files => Function.update files .licenseFile left) :=
    fun left => Tx.respects_write fun files name hname => Function.update_of_ne hname left files
  cases failure with
  | none => exact hwrite _
  | some failure => exact (hwrite _).bind fun _ => Tx.respects_raise _

theorem respects_writeAndVerify : Tx.Respects SameOthers (m.writeAndVerify today faults) := by
  refine (respects_readBytes _ _).bind fun content => (respects_writeBytes _ _).bind fun _ =>
    (Tx.respects_fallible _).bind fun _ => (Tx.respects_read _).bind fun file => ?_
  cases m.verifyFull today file with
  | error message => exact Tx.respects_raise _
  | ok accepted => exact Tx.respects_pure _

theorem exec_readBytes_ok {name : FileName} {failure : Option String} {content : Bytes}
    {files' : Files} :
    Tx.exec (Files.readBytes name failure) files = (.ok content, files') ↔
      failure = none ∧ files name = some content ∧ files = files' := by
  rw [Files.readBytes, Tx.exec_fallible_bind_ok, Tx.exec_bind_read]
  cases files name with
  | none => simp
  | some found => simp

theorem exec_writeBytes_ok {name : FileName} {content : Bytes}
    {failure : Option (Option Bytes × String)} {files' : Files} :
    Tx.exec (Files.writeBytes name content failure) files = (.ok (), files') ↔
      failure = none ∧ Function.update files name (some content) = files' := by
  cases failure with
  | none => simp [Files.writeBytes]
  | some failure => simp [Files.writeBytes]

/-- Writing and verifying return exactly for an importable source, whose bytes they leave. -/
theorem exec_writeAndVerify_ok {files' : Files} :
    Tx.exec (m.writeAndVerify today faults) files = (.ok (), files') ↔
      Importable m today faults files ∧
        files' = Function.update files .licenseFile (files .source) := by
  constructor
  · intro h
    obtain ⟨content, _, hread, h⟩ := Tx.exec_bind_ok.mp h
    obtain ⟨hnoread, hsource, rfl⟩ := exec_readBytes_ok.mp hread
    obtain ⟨_, _, hwrite, h⟩ := Tx.exec_bind_ok.mp h
    obtain ⟨hnowrite, rfl⟩ := exec_writeBytes_ok.mp hwrite
    rw [Tx.exec_fallible_bind_ok, Tx.exec_bind_read, Function.update_self] at h
    obtain ⟨hnoverify, h⟩ := h
    cases hverify : m.verifyFull today (some content) with
    | error message =>
      rw [hverify] at h
      exact absurd (Prod.mk.inj h).1 Tx.error_ne_ok
    | ok accepted =>
      rw [hverify] at h
      obtain ⟨-, rfl⟩ := Prod.mk.inj h
      rw [hsource]
      exact ⟨⟨hnoread, hnowrite, hnoverify, content, hsource, congrArg Except.isOk hverify⟩, rfl⟩
  · rintro ⟨⟨hnoread, hnowrite, hnoverify, content, hsource, hok⟩, rfl⟩
    obtain ⟨accepted, hverify⟩ := Tx.ok_of_isOk hok
    rw [hsource]
    apply Tx.exec_bind_ok.mpr
    refine ⟨content, files, exec_readBytes_ok.mpr ⟨hnoread, hsource, rfl⟩, ?_⟩
    apply Tx.exec_bind_ok.mpr
    refine ⟨(), _, exec_writeBytes_ok.mpr ⟨hnowrite, rfl⟩, ?_⟩
    rw [Tx.exec_fallible_bind_ok, Tx.exec_bind_read, Function.update_self, hverify]
    exact ⟨hnoverify, rfl⟩

/-- The files after a file, if there is one, is moved over another. -/
def moved (name target : FileName) (files : Files) : Files :=
  if (files name).isSome then
    Function.update (Function.update files target (files name)) name none
  else files

@[simp] theorem exec_replaceIfFile (name target : FileName) (files : Files) :
    Tx.exec (Files.replaceIfFile name target) files = (.ok (), moved name target files) := by
  unfold Files.replaceIfFile Files.isFile moved
  rw [Tx.exec_bind_read]
  split <;> rfl

theorem moved_target {name target : FileName} (hne : name ≠ target) (files : Files) :
    moved name target files target = (files name).or (files target) := by
  unfold moved
  cases h : files name with
  | none => simp
  | some content => simp [Function.update, hne.symm]

theorem moved_name (name target : FileName) (files : Files) :
    moved name target files name = none := by
  unfold moved
  split
  · exact Function.update_self ..
  · rename_i h
    exact Option.not_isSome_iff_eq_none.mp h

theorem moved_of_ne {name target other : FileName} (hname : other ≠ name)
    (htarget : other ≠ target) (files : Files) : moved name target files other = files other := by
  unfold moved
  split
  · rw [Function.update_of_ne hname, Function.update_of_ne htarget]
  · rfl

/-- The files once the license file, if there is one, is set aside. -/
def setAside (files : Files) : Files := moved .licenseFile .backup files

theorem exec_importFile (m : Manager) (today : ℤ) (faults : Faults) (files : Files) :
    Tx.exec (m.importFile today faults) files =
      match Tx.exec (m.writeAndVerify today faults) (setAside files) with
      | (.error exc, tried) => Tx.exec (Manager.rollBack exc) tried
      | (.ok (), tried) => Tx.exec Manager.cleanUp tried := by
  rw [Manager.importFile, Tx.exec_bind_of_ok (exec_replaceIfFile _ _ _), Tx.exec_bind_attempt]
  rcases h : Tx.exec (m.writeAndVerify today faults) (setAside files) with ⟨_ | ⟨⟩, _⟩ <;>
    rw [setAside] at h <;> rw [h]

/-- Rolling back always raises, and leaves what is under the name of the backup as the license. -/
theorem exec_rollBack (exc : String) (tried : Files) :
    Tx.exec (Manager.rollBack exc) tried = (.error ("导入失败（未生效）: " ++ exc),
      moved .backup .licenseFile (Function.update tried .licenseFile none)) := by
  rw [Manager.rollBack, Files.unlink, Tx.exec_bind_write,
    Tx.exec_bind_of_ok (exec_replaceIfFile _ _ _), Tx.exec_raise]

theorem exec_cleanUp (tried : Files) :
    Tx.exec Manager.cleanUp tried = (.ok (), Function.update (Function.update
      (Function.update tried .graceFile none) .graceExpiredFile none) .backup none) := rfl

theorem importable_setAside :
    Importable m today faults (setAside files) ↔ Importable m today faults files := by
  unfold Importable
  rw [setAside, moved_of_ne (by decide) (by decide)]

/-- An import of an importable source returns, and leaves the source as the license. -/
theorem importFile_of_importable (h : Importable m today faults files) :
    ∃ files', Tx.exec (m.importFile today faults) files = (.ok (), files') ∧
      files' .licenseFile = files .source ∧ files' .graceFile = none ∧
      files' .graceExpiredFile = none ∧ files' .backup = none := by
  have hexec := exec_importFile m today faults files
  rw [exec_writeAndVerify_ok.mpr ⟨importable_setAside.mpr h, rfl⟩] at hexec
  have hsource : setAside files .source = files .source := moved_of_ne (by decide) (by decide) files
  exact ⟨_, hexec.trans (exec_cleanUp _), by simp [Function.update, hsource],
    by simp [Function.update], by simp [Function.update], by simp [Function.update]⟩

/-- A refused import raises, keeps the markers, and leaves the license file, or else the backup,
as the license file, and no backup. -/
theorem importFile_of_not_importable (h : ¬ Importable m today faults files) :
    ∃ e files', Tx.exec (m.importFile today faults) files = (.error e, files') ∧
      files' .licenseFile = (files .licenseFile).or (files .backup) ∧
      files' .graceFile = files .graceFile ∧
      files' .graceExpiredFile = files .graceExpiredFile ∧ files' .backup = none := by
  rcases htry : Tx.exec (m.writeAndVerify today faults) (setAside files) with ⟨exc | ⟨⟩, tried⟩
  · have hothers : ∀ name, name ≠ .licenseFile → tried name = setAside files name :=
      respects_writeAndVerify.of_exec htry
    have hbackup : tried .backup = (files .licenseFile).or (files .backup) := by
      rw [hothers .backup (by decide), setAside, moved_target (by decide)]
    have hkept : ∀ name, name ≠ .licenseFile → name ≠ .backup →
        moved .backup .licenseFile (Function.update tried .licenseFile none) name = files name := by
      intro name hlicense hback
      rw [moved_of_ne hback hlicense, Function.update_of_ne hlicense, hothers name hlicense,
        setAside, moved_of_ne hlicense hback]
    have hexec := exec_importFile m today faults files
    rw [htry] at hexec
    refine ⟨_, _, hexec.trans (exec_rollBack exc tried), ?_, ?_, ?_, moved_name ..⟩
    · rw [moved_target (by decide), Function.update_self, Function.update_of_ne (by decide),
        hbackup, Option.or_none]
    · exact hkept .graceFile (by decide) (by decide)
    · exact hkept .graceExpiredFile (by decide) (by decide)
  · exact absurd (importable_setAside.mp (exec_writeAndVerify_ok.mp htry).1) h

/-- A raised import changed neither the license file nor the markers; an import that returned left
the source as the license file, which verifies, and no marker or backup. -/
structure AllOrNothing (m : Manager) (today : ℤ) (faults : Faults) (files : Files) : Prop where
  raised : ∀ e files', Tx.exec (m.importFile today faults) files = (.error e, files') →
    files' .licenseFile = files .licenseFile ∧ files' .graceFile = files .graceFile ∧
      files' .graceExpiredFile = files .graceExpiredFile
  returned : ∀ files', Tx.exec (m.importFile today faults) files = (.ok (), files') →
    ∃ content, files .source = some content ∧ files' .licenseFile = some content ∧
      (m.verifyFull today (files' .licenseFile)).isOk = true ∧ files' .graceFile = none ∧
      files' .graceExpiredFile = none ∧ files' .backup = none

theorem allOrNothing_of_importable (h : Importable m today faults files) :
    AllOrNothing m today faults files := by
  obtain ⟨files', hexec, hlicense, hgrace, hexpired, hbackup⟩ := importFile_of_importable h
  obtain ⟨-, -, -, content, hsource, hok⟩ := h
  constructor
  · intro e other hraised
    rw [hexec] at hraised
    exact absurd (Prod.mk.inj hraised).1.symm Tx.error_ne_ok
  · intro other hreturned
    rw [hexec] at hreturned
    obtain rfl := (Prod.mk.inj hreturned).2
    have hverified : (m.verifyFull today (files' .licenseFile)).isOk = true := by
      rw [hlicense, hsource, hok]
    exact ⟨content, hsource, hlicense.trans hsource, hverified, hgrace, hexpired, hbackup⟩

/-- A refused import leaves the license file as it was if there was one, or no backup. -/
theorem allOrNothing_refused_iff (h : ¬ Importable m today faults files) :
    AllOrNothing m today faults files ↔
      (files .licenseFile).isSome = true ∨ files .backup = none := by
  obtain ⟨e, files', hexec, hlicense, hgrace, hexpired, -⟩ := importFile_of_not_importable h
  have hsame : files' .licenseFile = files .licenseFile ↔
      (files .licenseFile).isSome = true ∨ files .backup = none := by
    rw [hlicense]
    cases files .licenseFile with
    | none => simp
    | some content => simp
  constructor
  · intro law
    exact hsame.mp (law.raised e files' hexec).1
  · intro hcond
    constructor
    · intro e' other hraised
      rw [hexec] at hraised
      obtain rfl := (Prod.mk.inj hraised).2
      exact ⟨hsame.mpr hcond, hgrace, hexpired⟩
    · intro other hreturned
      rw [hexec] at hreturned
      exact absurd (Prod.mk.inj hreturned).1 Tx.error_ne_ok

/-- An import is all or nothing unless it is refused while a backup is there and no license. -/
theorem import_all_or_nothing_iff (m : Manager) (today : ℤ) (faults : Faults) (files : Files) :
    AllOrNothing m today faults files ↔
      (files .licenseFile).isSome = true ∨ files .backup = none ∨
        Importable m today faults files := by
  rw [← or_assoc]
  by_cases himp : Importable m today faults files
  · constructor
    · intro _
      exact Or.inr himp
    · intro _
      exact allOrNothing_of_importable himp
  · rw [allOrNothing_refused_iff himp]
    constructor
    · exact Or.inl
    · intro h
      exact h.resolve_right himp

def staleBackup : Files
  | .backup => some (utf8 "old")
  | .source => some (utf8 "not-a-license")
  | _ => none

/-- The refused import brings the old backup into effect. -/
theorem refused_import_restores_stale_backup :
    ¬ ∀ (m : Manager) (today : ℤ) (faults : Faults) (files : Files),
      AllOrNothing m today faults files := by
  intro h
  have hparts : acmeManager.signedParts (some (utf8 "not-a-license")) =
      .error "Base64 解码失败: Incorrect padding" := by
    rw [Manager.signedParts, Manager.readText, Manager.decode, decodeUtf8_utf8]
    rfl
  have hrefused : ¬ Importable acmeManager 20500 {} staleBackup := by
    rintro ⟨-, -, -, content, hsource, hok⟩
    obtain rfl : utf8 "not-a-license" = content := Option.some.inj hsource
    rw [Manager.verifyFull, Manager.parseAndVerify, hparts] at hok
    cases hok
  obtain ⟨e, files', hexec, hlicense, -⟩ := importFile_of_not_importable hrefused
  have hsame := ((h acmeManager 20500 {} staleBackup).raised e files' hexec).1
  rw [hlicense] at hsame
  cases hsame

end License

end Minsight

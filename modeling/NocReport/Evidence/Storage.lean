import Mathlib.Data.List.Basic
import NocReport.Foundation.ObjectStore
import NocReport.Foundation.Text

set_option relaxedAutoImplicit false
set_option autoImplicit false

/-!
# Evidence and its storage

The rows of `evidence`, and the names of the objects that they stand for. The objects of upload
intents and those of prefill screenshots are in the same bucket, under different prefixes.

## Main definitions

* `Storage.Uuid`, `Storage.ObjectName` — what objects are named after.
* `Storage.evidenceObjectKey`, `Storage.prefillObjectKey` — the keys of the two kinds of objects.
* `Storage.Evidence` — a row of `evidence`.
* `Storage.purgeStorage` — the deletion of the version of a row.

## Main results

* `Storage.evidenceObjectKey_ne_prefillObjectKey` — the two kinds of keys differ.
* `Storage.prefillObjectKey_inj` — different prefills have different keys.
* `Storage.bytesOf?_purgeStorage` — a purge leaves the versions of other objects alone.
-/

namespace Storage

open ObjectStore

/-- A UUID, by its text. -/
structure Uuid where
  text : PyStr
  noSlash : 47 ∉ text
  deriving DecidableEq

/-- A letter is no slash. -/
lemma noSlash_a : 47 ∉ ([97] : PyStr) := by decide

/-- Another letter is no slash. -/
lemma noSlash_b : 47 ∉ ([98] : PyStr) := by decide

abbrev IncidentId := Uuid

abbrev EvidenceId := Uuid

abbrev UserId := ℕ

/-- The name of an object. -/
structure ObjectName where
  bucket : PyStr
  key : PyStr
  deriving DecidableEq, Repr

inductive EvidenceType
  | alertScreenshot
  | log
  | grafanaScreenshot
  | supportingDocument
  | other
  deriving DecidableEq, Repr

/-- The value of an evidence type in the database. -/
def EvidenceType.value : EvidenceType → PyStr
  | alertScreenshot => py "ALERT_SCREENSHOT"
  | log => py "LOG"
  | grafanaScreenshot => py "GRAFANA_SCREENSHOT"
  | supportingDocument => py "SUPPORTING_DOCUMENT"
  | other => py "OTHER"

/-- The directory of an evidence type. -/
def EvidenceType.subdir : EvidenceType → PyStr
  | alertScreenshot | grafanaScreenshot => py "alert"
  | log => py "logs"
  | supportingDocument | other => py "supporting"

/-- `pathlib.PurePath(path).name`. -/
def purePathName (path : PyStr) : PyStr :=
  (((path.splitOn 47).filter fun part => part ≠ [] ∧ part ≠ py ".").getLast?).getD []

/-- `os.path.basename`. -/
def basename (path : PyStr) : PyStr := ((path.splitOn 47).getLast?).getD []

/-- The file name within the key of an upload. -/
def safeFilename (filename : PyStr) : PyStr :=
  (purePathName (filename.map fun c => if c = 92 then 47 else c)).map fun c =>
    if c = 47 then 95 else c

/-- `evidence_object_key`. -/
def evidenceObjectKey (incident : IncidentId) (evidenceType : EvidenceType) (filename : PyStr)
    (upload : Uuid) : PyStr :=
  py "incidents/" ++ incident.text ++ py "/" ++ evidenceType.subdir ++ py "/" ++ upload.text ++
    py "-" ++ safeFilename filename

/-- The key of the screenshot of a prefill. -/
def prefillObjectKey (prefill : Uuid) (filename : PyStr) : PyStr :=
  py "prefills/" ++ prefill.text ++ py "/" ++ filename

/-- The objects of upload intents are not those of prefills. -/
theorem evidenceObjectKey_ne_prefillObjectKey (incident : IncidentId) (evidenceType : EvidenceType)
    (filename : PyStr) (upload prefill : Uuid) (name : PyStr) :
    evidenceObjectKey incident evidenceType filename upload ≠ prefillObjectKey prefill name := by
  intro h
  have hhead := congrArg List.head? h
  simp [evidenceObjectKey, prefillObjectKey, py] at hhead

/-- Different prefills have different keys. -/
theorem prefillObjectKey_inj {prefill prefill' : Uuid} {name name' : PyStr}
    (h : prefillObjectKey prefill name = prefillObjectKey prefill' name') : prefill = prefill' := by
  obtain ⟨text, hslash⟩ := prefill
  obtain ⟨text', hslash'⟩ := prefill'
  simp only [prefillObjectKey, List.append_assoc, List.append_cancel_left_eq] at h
  have hcut : ∀ t : PyStr, 47 ∉ t → ∀ u : PyStr,
      (t ++ (py "/" ++ u)).takeWhile (fun c => c ≠ 47) = t := by
    intro t ht u
    rw [List.takeWhile_append_of_pos]
    · simp [py]
    · intro c hc
      simpa using fun hc' : c = 47 => ht (hc' ▸ hc)
  have htext := congrArg (List.takeWhile fun c => decide (c ≠ 47)) h
  rw [hcut text hslash, hcut text' hslash'] at htext
  subst htext
  rfl

/-- An object as it is stored. -/
structure StoredObject (Content : Type) where
  content : Content
  contentType : Option PyStr
  deriving DecidableEq, Repr

/-- `evidence.lifecycle_state`. -/
inductive LifecycleState
  | active
  | purgePending
  | purged
  deriving DecidableEq, Repr

/-- A row of `evidence`. -/
structure Evidence (Digest : Type) where
  incidentId : Option IncidentId
  evidenceType : EvidenceType
  bucket : PyStr
  objectKey : PyStr
  originalFilename : PyStr
  mimeType : Option PyStr
  byteSize : Option ℕ
  sha256 : Option Digest
  versionId : Option ℕ
  uploadedBy : Option UserId
  lifecycleState : LifecycleState
  deletedAt : Option ℕ
  deriving DecidableEq

/-- The object of a row. -/
def Evidence.object {Digest : Type} (row : Evidence Digest) : ObjectName :=
  ⟨row.bucket, row.objectKey⟩

/-- The version of an object that a row stands for. -/
def Evidence.version {Digest : Type} (row : Evidence Digest) : ObjectName × Option ℕ :=
  (row.object, row.versionId)

section Purge

variable {Content Digest : Type} (S : Store ObjectName (StoredObject Content))
  (row : Evidence Digest)

/-- `purge_storage`; that the version is gone already is a success too. -/
def purgeStorage : Store ObjectName (StoredObject Content) := S.delete row.object row.versionId

/-- The bytes of a row. -/
def bytesOf? : Option (StoredObject Content) :=
  match row.versionId with
  | some v => S.get? row.object v
  | none => (S.head? row.object).map (·.2)

variable {S row} {row' : Evidence Digest}

/-- A purge leaves the versions of other objects alone. -/
lemma versions_purgeStorage {n : ObjectName} (h : n ≠ row.object) :
    (purgeStorage S row).versions n = S.versions n := by
  rw [purgeStorage]
  cases row.versionId with
  | none => simp [Store.delete, h]
  | some v => simp [Store.delete, h]

theorem bytesOf?_purgeStorage (h : row'.object ≠ row.object) :
    bytesOf? (purgeStorage S row) row' = bytesOf? S row' := by
  unfold bytesOf?
  cases row'.versionId with
  | none => simp only [Store.head?, versions_purgeStorage h]
  | some v => simp only [Store.get?, versions_purgeStorage h]

end Purge

end Storage

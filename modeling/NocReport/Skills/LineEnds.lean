import NocReport.Skills.Pinning
import NocReport.Skills.Registry

set_option relaxedAutoImplicit false
set_option autoImplicit false

/-!
# Line ends of skill files

The API hashes the bytes of the files of a skill and stores their text, which it reads in text
mode. The bridge hashes the text that is stored.

## Main definitions

* `Skills.storedHash` — the hash of the text that is stored.
* `Skills.Session.WithoutReturns` — no file of a skill holds a carriage return.
* `Skills.Session.CollisionFree` — the digest tells the files of a skill from what is stored.

## Main results

* `Skills.getOrCreateSnapshot_recorded` — what the rows that a call adds are made of.
* `Skills.createdSnapshots_verify_iff` — when the two hashes agree.
-/

namespace Skills

/-- The files that make up the identity of a skill. -/
def identityFilenames : List String := ["SKILL.md", "output.schema.json", "skill.yaml"]

/-- The hash that the bridge computes of files that are stored. -/
def storedHash (lib : SkillLibrary) (files : SkillFiles) : Except PyError String :=
  contentHash lib (encodeUtf8 files.skillMd) (encodeUtf8 files.outputSchemaJson)
    (encodeUtf8 files.manifestYaml)

section Session

variable (session : Session)

/-- No file of the skill holds a carriage return. -/
def Session.WithoutReturns (skillName : String) : Prop :=
  ∀ filename ∈ identityFilenames, ∀ contents, session.readBytes skillName filename = some contents →
    ∀ text, String.fromUTF8? ⟨contents.toArray⟩ = some text → '\r' ∉ text.toList

/-- The digest of the files of the skill is not that of other files, where those are stored. -/
def Session.CollisionFree (lib : SkillLibrary) (skillName : String) : Prop :=
  ∀ prompt schema manifest files text stored,
    readSkillFile session skillName "SKILL.md" = .ok prompt →
    readSkillFile session skillName "output.schema.json" = .ok schema →
    readSkillFile session skillName "skill.yaml" = .ok manifest →
    readSkillFiles session skillName = .ok files → contentText prompt schema manifest = .ok text →
    contentText (encodeUtf8 files.skillMd) (encodeUtf8 files.outputSchemaJson)
      (encodeUtf8 files.manifestYaml) = .ok stored →
    lib.sha256Hex text = lib.sha256Hex stored → text = stored

end Session

variable {lib : ContractLibrary} {session : Session} {skillName : String}

/-! ## One file -/

/-- A text that is read in text mode has no carriage return. -/
lemma not_mem_universalNewlines (s : List Char) : '\r' ∉ universalNewlines s := by
  induction s using universalNewlines.induct with
  | case1 s ih => simpa [universalNewlines] using ih
  | case2 s hs ih =>
    rw [universalNewlines]
    · simpa using ih
    · exact hs
  | case3 c s hcrlf hcr ih =>
    have hne : c ≠ '\r' := by
      intro hc
      cases s with
      | nil => exact hcr hc
      | cons d s => exact hcr hc
    rw [universalNewlines]
    · simpa [hne.symm] using ih
    · exact hcrlf
    · exact hcr
  | case4 => simp [universalNewlines]

/-- A text is read as it is exactly if it has no carriage return. -/
lemma universalNewlines_eq_self_iff {s : List Char} : universalNewlines s = s ↔ '\r' ∉ s := by
  constructor
  · intro h
    exact h ▸ not_mem_universalNewlines s
  · intro h
    induction s with
    | nil => rfl
    | cons c s ih =>
      rw [List.mem_cons, not_or] at h
      rw [universalNewlines, ih h.2]
      · rintro s' rfl
        exact absurd rfl h.1
      · rintro rfl
        exact absurd rfl h.1

/-- A file that is read both as bytes and as text. -/
lemma readText_eq_ok {filename text : String} (h : readText session skillName filename = .ok text) :
    ∃ contents s, session.readBytes skillName filename = some contents ∧
      String.fromUTF8? ⟨contents.toArray⟩ = some s ∧ encodeUtf8 s = contents ∧
      text = String.ofList (universalNewlines s.toList) := by
  unfold readText at h
  split at h
  · next contents hcontents =>
    split at h
    · next s hs =>
      rw [Except.pure_eq_ok] at h
      refine ⟨contents, s, hcontents, hs, ?_, h.symm⟩
      unfold String.fromUTF8? at hs
      split at hs
      · cases hs
        rfl
      · cases hs
    · exact absurd h Except.throw_ne_ok
  · exact absurd h Except.throw_ne_ok

/-- A file is stored as it is exactly if it has no carriage return. -/
lemma encodeUtf8_universalNewlines_iff {s : String} :
    encodeUtf8 (String.ofList (universalNewlines s.toList)) = encodeUtf8 s ↔ '\r' ∉ s.toList := by
  rw [← universalNewlines_eq_self_iff]
  constructor
  · intro h
    have hlist := congrArg String.toList (encodeUtf8_inj h)
    rwa [String.toList_ofList] at hlist
  · intro h
    rw [h, String.ofList_toList]

/-! ## The files of a skill -/

lemma readSkillFile_eq_ok {filename : String} {contents : List UInt8} :
    readSkillFile session skillName filename = .ok contents ↔
      session.readBytes skillName filename = some contents := by
  unfold readSkillFile
  cases session.readBytes skillName filename with
  | none => exact iff_of_false Except.throw_ne_ok (by simp)
  | some c => exact Except.pure_eq_ok.trans (by simp)

/-- The files of a skill, as bytes and as they are stored. -/
lemma readSkill_files {hash : String} {files : SkillFiles}
    (hhash : computeSkillHash lib session skillName = .ok hash)
    (hfiles : readSkillFiles session skillName = .ok files) :
    ∃ prompt schema manifest p s m, String.fromUTF8? ⟨prompt.toArray⟩ = some p ∧
      String.fromUTF8? ⟨schema.toArray⟩ = some s ∧ String.fromUTF8? ⟨manifest.toArray⟩ = some m ∧
      session.readBytes skillName "SKILL.md" = some prompt ∧
      session.readBytes skillName "output.schema.json" = some schema ∧
      session.readBytes skillName "skill.yaml" = some manifest ∧
      encodeUtf8 p = prompt ∧ encodeUtf8 s = schema ∧ encodeUtf8 m = manifest ∧
      contentHash lib.toSkillLibrary prompt schema manifest = .ok hash ∧
      files = ⟨String.ofList (universalNewlines p.toList),
        String.ofList (universalNewlines s.toList), String.ofList (universalNewlines m.toList)⟩ := by
  obtain ⟨_, hmd, hfiles⟩ := Except.bind_eq_ok.mp hfiles
  obtain ⟨_, hjson, hfiles⟩ := Except.bind_eq_ok.mp hfiles
  obtain ⟨_, hyaml, hfiles⟩ := Except.bind_eq_ok.mp hfiles
  rw [Except.pure_eq_ok] at hfiles
  obtain ⟨prompt, p, hprompt, hp, hp', rfl⟩ := readText_eq_ok hmd
  obtain ⟨schema, s, hschema, hs, hs', rfl⟩ := readText_eq_ok hjson
  obtain ⟨manifest, m, hmanifest, hm, hm', rfl⟩ := readText_eq_ok hyaml
  obtain ⟨_, hreadPrompt, hhash⟩ := Except.bind_eq_ok.mp hhash
  obtain ⟨_, hreadSchema, hhash⟩ := Except.bind_eq_ok.mp hhash
  obtain ⟨_, hreadManifest, hhash⟩ := Except.bind_eq_ok.mp hhash
  rw [readSkillFile_eq_ok] at hreadPrompt hreadSchema hreadManifest
  rw [hprompt] at hreadPrompt
  rw [hschema] at hreadSchema
  rw [hmanifest] at hreadManifest
  cases hreadPrompt
  cases hreadSchema
  cases hreadManifest
  exact ⟨prompt, schema, manifest, p, s, m, hp, hs, hm, hprompt, hschema, hmanifest, hp', hs', hm',
    hhash, hfiles.symm⟩

/-- **The stored hash of a skill is the one of its files** exactly if none of them has a carriage
return. -/
lemma storedHash_eq_iff {hash : String} {files : SkillFiles}
    (hcollision : session.CollisionFree lib.toSkillLibrary skillName)
    (hhash : computeSkillHash lib session skillName = .ok hash)
    (hfiles : readSkillFiles session skillName = .ok files) :
    storedHash lib.toSkillLibrary files = .ok hash ↔ session.WithoutReturns skillName := by
  obtain ⟨prompt, schema, manifest, p, s, m, hp, hs, hm, hprompt, hschema, hmanifest, hp', hs', hm',
    hcontent, rfl⟩ := readSkill_files hhash hfiles
  have hwithout : session.WithoutReturns skillName ↔
      '\r' ∉ p.toList ∧ '\r' ∉ s.toList ∧ '\r' ∉ m.toList := by
    simp only [Session.WithoutReturns, identityFilenames, List.forall_mem_cons, List.not_mem_nil,
      false_imp_iff, forall_const, and_true, hprompt, hschema, hmanifest, Option.some.injEq,
      forall_eq', hp, hs, hm]
  rw [hwithout]
  constructor
  · intro hstored
    obtain ⟨text, htext, hdigest⟩ := Except.bind_eq_ok.mp hcontent
    obtain ⟨stored, hstoredText, hstoredDigest⟩ := Except.bind_eq_ok.mp hstored
    rw [Except.pure_eq_ok] at hdigest hstoredDigest
    have hsame := hcollision prompt schema manifest _ text stored (readSkillFile_eq_ok.mpr hprompt)
      (readSkillFile_eq_ok.mpr hschema) (readSkillFile_eq_ok.mpr hmanifest) hfiles htext
      hstoredText (hdigest.trans hstoredDigest.symm)
    subst hsame
    obtain ⟨hmd, hjson, hyaml⟩ := contentText_inj hstoredText htext
    exact ⟨encodeUtf8_universalNewlines_iff.mp (hmd.trans hp'.symm),
      encodeUtf8_universalNewlines_iff.mp (hjson.trans hs'.symm),
      encodeUtf8_universalNewlines_iff.mp (hyaml.trans hm'.symm)⟩
  · rintro ⟨hmd, hjson, hyaml⟩
    rw [storedHash, encodeUtf8_universalNewlines_iff.mpr hmd,
      encodeUtf8_universalNewlines_iff.mpr hjson, encodeUtf8_universalNewlines_iff.mpr hyaml, hp',
      hs', hm']
    exact hcontent

/-! ## The rows that a call adds -/

/-- The row is made of the files of its skill on disk. -/
def SkillSnapshot.RecordedFrom (lib : ContractLibrary) (session : Session) (row : SkillSnapshot) :
    Prop :=
  computeSkillHash lib session row.skillName = .ok row.contentHash ∧
    readSkillFiles session row.skillName = .ok row.toSkillFiles

/-- Rows that a call adds are made of files on disk. -/
def Recorded (lib : ContractLibrary) (session : Session) (table table' : SkillTable) : Prop :=
  ∀ row ∈ table'.frozen, row ∈ table.frozen ∨ row.RecordedFrom lib session

variable {table table' : SkillTable}

lemma Recorded.refl (table : SkillTable) : Recorded lib session table table := fun _ => .inl

lemma Recorded.trans {table'' : SkillTable} (h : Recorded lib session table table')
    (h' : Recorded lib session table' table'') : Recorded lib session table table'' :=
  fun row hrow => (h' row hrow).elim (h row) .inr

/-- A row that is created is made of the files that were read. -/
lemma createSnapshot_recorded {activate : Option Bool} {hash : String} {files : SkillFiles}
    {dependencies : List Yaml} {pins : Dict String String} {result : SkillSnapshot}
    (hread : readSkill lib session skillName = .ok (hash, files, dependencies))
    (h : createSnapshot lib session activate skillName hash files pins table =
      .ok result table') : Recorded lib session table table' := by
  obtain ⟨_, hhash, hread⟩ := Except.bind_eq_ok.mp hread
  obtain ⟨_, hfiles, hread⟩ := Except.bind_eq_ok.mp hread
  obtain ⟨_, -, hread⟩ := Except.bind_eq_ok.mp hread
  obtain ⟨_, -, hread⟩ := Except.bind_eq_ok.mp hread
  obtain ⟨_, -, hread⟩ := Except.bind_eq_ok.mp hread
  cases Except.pure_eq_ok.mp hread
  obtain ⟨executionHash, rfl, -, hrows⟩ := createSnapshot_eq_ok h
  intro row hrow
  rw [SkillTable.frozen, hrows, List.map_append, List.mem_append] at hrow
  rcases hrow with hrow | hrow
  · left
    exact @setActive_frozen table _ ▸ hrow
  · obtain rfl := List.mem_singleton.mp hrow
    exact .inr ⟨hhash, hfiles⟩

/-- **What the rows that a call adds are made of.** -/
lemma getOrCreateSnapshot_recorded {fuel : ℕ} {activate : Option Bool} {result : SkillSnapshot}
    (h : getOrCreateSnapshot lib session fuel activate skillName table = .ok result table') :
    Recorded lib session table table' :=
  getOrCreateSnapshot_rel Recorded.refl (fun _ _ _ => Recorded.trans) (p := fun _ => True) trivial
    (fun _ _ _ _ _ _ _ _ _ _ hread hcreate => createSnapshot_recorded hread hcreate) trivial h

/-- A row that a call adds is verified exactly if its stored hash is the one of its files. -/
lemma verifySnapshotRow_iff {lib : SkillLibrary} {row : SkillSnapshot}
    (hdigest : row.contentHash.length = 64) :
    verifySnapshotRow lib row none = .ok () ↔
      storedHash lib row.toSkillFiles = .ok row.contentHash :=
  ⟨fun h => verifies_of_verifySnapshotRow h hdigest,
    fun h => Verifies.verifySnapshotRow h (by simp)⟩

lemma length_of_computeSkillHash {hash : String} (hdigest : ∀ text, (lib.sha256Hex text).length = 64)
    (h : computeSkillHash lib session skillName = .ok hash) : hash.length = 64 := by
  obtain ⟨_, -, h⟩ := Except.bind_eq_ok.mp h
  obtain ⟨_, -, h⟩ := Except.bind_eq_ok.mp h
  obtain ⟨_, -, h⟩ := Except.bind_eq_ok.mp h
  obtain ⟨_, -, h⟩ := Except.bind_eq_ok.mp h
  rw [Except.pure_eq_ok] at h
  exact h ▸ hdigest _

/-- **When the API and the bridge agree about content.** For every digest of 64 characters, and
whatever files are on disk, of which the digest tells those of each skill from what is stored of
them: where the files of a skill can be hashed and read as UTF-8, the hash that the bridge
recomputes from what is stored is the one the API computed of the bytes exactly if no file holds a
carriage return; and of the rows that a call of `get_or_create_snapshot` adds to whatever table, the
bridge verifies exactly those whose files hold none. -/
theorem createdSnapshots_verify_iff (lib : ContractLibrary) (session : Session)
    (hdigest : ∀ text, (lib.sha256Hex text).length = 64)
    (hcollision : ∀ skillName, session.CollisionFree lib.toSkillLibrary skillName) :
    (∀ skillName hash files, computeSkillHash lib session skillName = .ok hash →
      readSkillFiles session skillName = .ok files →
      (storedHash lib.toSkillLibrary files = .ok hash ↔ session.WithoutReturns skillName)) ∧
    ∀ fuel activate skillName table result table',
      getOrCreateSnapshot lib session fuel activate skillName table = .ok result table' →
      ∀ row ∈ table'.rows, row.id ∉ table.rows.map (·.id) →
        (verifySnapshotRow lib.toSkillLibrary row none = .ok () ↔
          session.WithoutReturns row.skillName) := by
  refine ⟨fun skillName hash files => storedHash_eq_iff (hcollision skillName), ?_⟩
  intro fuel activate skillName table result table' h row hrow hnew
  have hrecorded : row.RecordedFrom lib session := by
    rcases getOrCreateSnapshot_recorded h row.frozen (List.mem_map_of_mem hrow) with hold | hfrozen
    · obtain ⟨old, hold, hsame⟩ := List.mem_map.mp hold
      have hid : old.frozen.id = row.frozen.id := by rw [hsame]
      exact absurd (List.mem_map.mpr ⟨old, hold, hid⟩) hnew
    · exact hfrozen
  obtain ⟨hhash, hfiles⟩ := hrecorded
  rw [verifySnapshotRow_iff (length_of_computeSkillHash hdigest hhash)]
  exact storedHash_eq_iff (hcollision row.skillName) hhash hfiles

/-! ## A file with carriage returns -/

/-- The files of the skill that reads logs, with instructions from another editor. -/
def returnFiles : SkillFiles := { triageFiles with skillMd := "# Triage\r\n" }

/-- The digests of those files, and of the execution hash of their snapshot. -/
def returnDigests : Dict (List UInt8) String := [
  (framedFiles returnFiles, "761f1ef046286e9d337aa4530387235d3d13b0e7f219cc1e7a57bb8e186db837"),
  (encodeUtf8 ("\x7b\"content_hash\":\"" ++
      "761f1ef046286e9d337aa4530387235d3d13b0e7f219cc1e7a57bb8e186db837" ++
      "\",\"dependencies\":[]\x7d"),
    "7c7584df13188e7a7136c5e88911a76fc838ada389d19d6b123d455144d115ca")]

/-- Libraries that answer as the real ones do on the files with and without carriage returns. -/
def returnContract : ContractLibrary :=
  { sampleContract with
    sha256Hex := fun text =>
      (Dict.get? (returnDigests ++ sampleDigests) text).getD
        "0000000000000000000000000000000000000000000000000000000000000000" }

/-- A session in which only the skill that reads logs is on disk. -/
def triageSession (onDisk : SkillFiles) : Session :=
  { sampleSession reportFiles with
    readBytes := fun skillName filename =>
      if skillName = "triage" then
        (Dict.get? [("SKILL.md", onDisk.skillMd), ("output.schema.json", onDisk.outputSchemaJson),
          ("skill.yaml", onDisk.manifestYaml)] filename).map encodeUtf8
      else none }

lemma triageSession_collisionFree (skillName : String) :
    (triageSession returnFiles).CollisionFree returnContract.toSkillLibrary skillName := by
  intro prompt schema manifest files text stored hprompt hschema hmanifest hfiles htext hstored hsame
  by_cases hname : skillName = "triage"
  · subst hname
    have hpromptRead : readSkillFile (triageSession returnFiles) "triage" "SKILL.md" =
        .ok (encodeUtf8 returnFiles.skillMd) := by rfl
    have hschemaRead : readSkillFile (triageSession returnFiles) "triage" "output.schema.json" =
        .ok (encodeUtf8 returnFiles.outputSchemaJson) := by rfl
    have hmanifestRead : readSkillFile (triageSession returnFiles) "triage" "skill.yaml" =
        .ok (encodeUtf8 returnFiles.manifestYaml) := by rfl
    have hfilesRead : readSkillFiles (triageSession returnFiles) "triage" = .ok triageFiles := by
      rfl
    have hdisk : contentText (encodeUtf8 returnFiles.skillMd)
        (encodeUtf8 returnFiles.outputSchemaJson) (encodeUtf8 returnFiles.manifestYaml) =
          .ok (framedFiles returnFiles) := by rfl
    have htable : contentText (encodeUtf8 triageFiles.skillMd)
        (encodeUtf8 triageFiles.outputSchemaJson) (encodeUtf8 triageFiles.manifestYaml) =
          .ok (framedFiles triageFiles) := by rfl
    cases hpromptRead.symm.trans hprompt
    cases hschemaRead.symm.trans hschema
    cases hmanifestRead.symm.trans hmanifest
    cases hfilesRead.symm.trans hfiles
    cases hdisk.symm.trans htext
    cases htable.symm.trans hstored
    exact absurd hsame (by decide +kernel)
  · rw [readSkillFile_eq_ok] at hprompt
    simp [triageSession, hname] at hprompt

lemma returnContract_digest (text : List UInt8) :
    (returnContract.sha256Hex text).length = 64 := by
  have hall : ∀ p ∈ returnDigests ++ sampleDigests, p.2.length = 64 := by decide +kernel
  show ((Dict.get? (returnDigests ++ sampleDigests) text).getD _).length = 64
  cases hget : Dict.get? (returnDigests ++ sampleDigests) text with
  | none => decide
  | some digest => exact hall _ (Dict.mem_of_get?_eq_some hget)

/-- `createdSnapshots_verify_iff` at files one of which has a carriage return. -/
theorem returnFiles_storedHash :
    computeSkillHash returnContract (triageSession returnFiles) "triage" =
        .ok "761f1ef046286e9d337aa4530387235d3d13b0e7f219cc1e7a57bb8e186db837" ∧
      readSkillFiles (triageSession returnFiles) "triage" = .ok triageFiles ∧
      ¬ (triageSession returnFiles).WithoutReturns "triage" := by
  have hhash : computeSkillHash returnContract (triageSession returnFiles) "triage" =
      .ok "761f1ef046286e9d337aa4530387235d3d13b0e7f219cc1e7a57bb8e186db837" := by rfl
  have hfiles : readSkillFiles (triageSession returnFiles) "triage" = .ok triageFiles := by
    rfl
  have hiff := (createdSnapshots_verify_iff returnContract (triageSession returnFiles)
    returnContract_digest triageSession_collisionFree).1 "triage" _ _ hhash hfiles
  exact ⟨hhash, hfiles, fun hwithout => absurd (hiff.mpr hwithout) (by decide +kernel)⟩

/-- **A snapshot that the bridge refuses**: the API hashes the carriage return and stores a line
feed. -/
theorem returnFiles_not_verified :
    (callStep returnContract .empty (.getOrCreate (triageSession returnFiles) false "triage")).map
        (fun table => table.rows.map fun row =>
          verifySnapshotRow returnContract.toSkillLibrary row none) =
      some [.error (snapshotMissing ("snapshot 00000000-0000-4000-8000-000000000000" ++
        " failed content hash verification"))] := by
  rfl

end Skills

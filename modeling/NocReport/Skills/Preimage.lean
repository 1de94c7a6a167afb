import NocReport.Skills.LineEnds

set_option relaxedAutoImplicit false
set_option autoImplicit false

/-!
# What the content hash is taken over

Three functions feed the files of a skill to a digest, each file with its length before it: the API
and the bridge those on disk, and the bridge those of a row. All three feed it the same bytes, and
these bytes determine the files, whatever the files hold.

## Main definitions

* `Skills.Digest` — a digest, by the bytes it has been updated with.
* `Skills.digestSkill`, `Skills.Bridge.digestSkill`, `Skills.Bridge.digestRow` — the three loops
  over the files.
* `Skills.frame` — a file with its length before it.

## Main results

* `Skills.flatMap_frame_inj` — files with their lengths can be told apart.
* `Skills.computeSkillHash_eq_digest`, `Skills.verifySnapshotRow_eq_digest` — the hashes are those
  of the digests.
* `Skills.digest_injective` — the digests are fed the same bytes only for the same files.
-/

namespace Skills

/-! ## Digests -/

/-- `hashlib.sha256()`, by the bytes it has been updated with. -/
structure Digest where
  fed : List UInt8
  deriving DecidableEq, Repr

namespace Digest

/-- A new digest. -/
def new : Digest := ⟨[]⟩

/-- `digest.update(contents)`. -/
def update (digest : Digest) (contents : List UInt8) : Digest := ⟨digest.fed ++ contents⟩

/-- `digest.hexdigest()`. -/
def hexdigest (lib : SkillLibrary) (digest : Digest) : String := lib.sha256Hex digest.fed

/-- `n.to_bytes(8, "big")`. -/
def toBytes8 (n : ℕ) : Except PyError (List UInt8) :=
  if n < 2 ^ 64 then pure (bigEndian8 n) else throw .overflowError

/-- The two updates for a file: its length and its contents. -/
def feed (digest : Digest) (contents : List UInt8) : Except PyError Digest := do
  let length ← toBytes8 contents.length
  return (digest.update length).update contents

end Digest

/-! ## The three loops -/

section Loops

variable (session : Session) (skillName : String)

/-- The loop of `compute_skill_hash` in the API. -/
def digestSkill : Except PyError Digest :=
  identityFilenames.foldlM (fun digest filename => do
    let contents ← readSkillFile session skillName filename
    digest.feed contents) .new

namespace Bridge

/-- `(directory / filename).read_bytes()`. -/
def readFile (filename : String) : Except PyError (List UInt8) :=
  match session.readBytes skillName filename with
  | some contents => pure contents
  | none => throw (.custom (py "FileNotFoundError") (py (session.skillsDir ++ "/" ++ skillName ++
      "/" ++ filename)))

/-- The loop of `compute_skill_hash` in the bridge. -/
def digestSkill : Except PyError Digest :=
  identityFilenames.foldlM (fun digest filename => do
    let contents ← readFile session skillName filename
    digest.feed contents) .new

/-- `compute_skill_hash` in the bridge. -/
def computeSkillHash (lib : SkillLibrary) : Except PyError String := do
  let digest ← digestSkill session skillName
  return digest.hexdigest lib

/-- The loop of `_verify_snapshot_row`. -/
def digestRow (row : SkillSnapshot) : Except PyError Digest :=
  [row.skillMd, row.outputSchemaJson, row.manifestYaml].foldlM
    (fun digest value => digest.feed (encodeUtf8 value)) .new

/-- What `_verify_snapshot_row` does with the hash of the row. -/
def checkHash (row : SkillSnapshot) (expectedHash : Option String) (actualHash : String) :
    Except PyError Unit := do
  raiseIf (row.contentHash.length = 64 && actualHash != row.contentHash) (snapshotMissing
    ("snapshot " ++ (if row.id = "" then row.contentHash else row.id) ++
      " failed content hash verification"))
  match expectedHash with
  | some expected =>
    raiseIf (expected != row.contentHash) (snapshotMissing
      ("snapshot " ++ (if row.id = "" then expected else row.id) ++
        " hash does not match the job reference"))
  | none => return ()

end Bridge

end Loops

/-! ## Files with their lengths -/

/-- A file with its length before it. -/
def frame (contents : List UInt8) : List UInt8 := bigEndian8 contents.length ++ contents

section Frames

variable {a b r r' : List UInt8} {xs ys : List (List UInt8)}

lemma frame_ne_nil (contents : List UInt8) : frame contents ≠ [] := by
  intro h
  have hlength := congrArg List.length h
  simp [frame] at hlength

/-- A file ends where its length says, whatever it holds and whatever follows. -/
lemma frame_append_inj (ha : a.length < 2 ^ 64) (hb : b.length < 2 ^ 64)
    (h : frame a ++ r = frame b ++ r') : a = b ∧ r = r' := by
  rw [frame, frame, List.append_assoc, List.append_assoc] at h
  obtain ⟨hlength, hrest⟩ := List.append_inj h (by simp)
  exact List.append_inj hrest (bigEndian8_inj ha hb hlength)

/-- **Files with their lengths can be told apart**, however many there are. -/
theorem flatMap_frame_inj (hxs : ∀ x ∈ xs, x.length < 2 ^ 64) (hys : ∀ y ∈ ys, y.length < 2 ^ 64)
    (h : xs.flatMap frame = ys.flatMap frame) : xs = ys := by
  induction xs generalizing ys with
  | nil =>
    cases ys with
    | nil => rfl
    | cons y ys =>
      rw [List.flatMap_nil, List.flatMap_cons] at h
      exact absurd (List.append_eq_nil_iff.mp h.symm).1 (frame_ne_nil y)
  | cons x xs ih =>
    cases ys with
    | nil =>
      rw [List.flatMap_nil, List.flatMap_cons] at h
      exact absurd (List.append_eq_nil_iff.mp h).1 (frame_ne_nil x)
    | cons y ys =>
      rw [List.flatMap_cons, List.flatMap_cons] at h
      rw [List.forall_mem_cons] at hxs hys
      obtain ⟨rfl, hrest⟩ := frame_append_inj hxs.1 hys.1 h
      rw [ih hxs.2 hys.2 hrest]

lemma lengthPrefixed_of_lt (h : a.length < 2 ^ 64) : lengthPrefixed a = .ok (frame a) := by
  rw [lengthPrefixed, if_pos h]
  rfl

/-- The two updates are one with the file and its length. -/
lemma Digest.feed_eq (digest : Digest) :
    digest.feed a = lengthPrefixed a >>= fun bytes => pure ⟨digest.fed ++ bytes⟩ := by
  unfold Digest.feed Digest.toBytes8 lengthPrefixed
  split
  · show Except.ok _ = Except.ok _
    rw [Digest.update, Digest.update, List.append_assoc]
  · rfl

/-- A loop that feeds files to a digest. -/
lemma foldlM_feed {digest : Digest} (hxs : ∀ x ∈ xs, x.length < 2 ^ 64) :
    xs.foldlM Digest.feed digest = .ok ⟨digest.fed ++ xs.flatMap frame⟩ := by
  induction xs generalizing digest with
  | nil =>
    rw [List.flatMap_nil, List.append_nil]
    rfl
  | cons x xs ih =>
    rw [List.forall_mem_cons] at hxs
    rw [List.foldlM_cons, Digest.feed_eq, lengthPrefixed_of_lt hxs.1, Except.ok_bind, pure_bind,
      ih hxs.2, List.flatMap_cons, List.append_assoc]

end Frames

/-! ## The hashes -/

section Hashes

variable {lib : SkillLibrary} {session : Session} {skillName : String}

/-- The content hash of three files is that of the digest they are fed to. -/
lemma contentHash_eq_digest (a b c : List UInt8) :
    contentHash lib a b c = (do
      let digest ← [a, b, c].foldlM Digest.feed .new
      return digest.hexdigest lib) := by
  simp only [contentHash, contentText, List.foldlM_cons, List.foldlM_nil, Digest.feed_eq,
    bind_assoc, pure_bind]
  rfl

/-- **What `_verify_snapshot_row` checks** is the hash of the digest. -/
theorem verifySnapshotRow_eq_digest (row : SkillSnapshot) (expectedHash : Option String) :
    verifySnapshotRow lib row expectedHash = (do
      let digest ← Bridge.digestRow row
      Bridge.checkHash row expectedHash (digest.hexdigest lib)) := by
  have hrow : Bridge.digestRow row = [encodeUtf8 row.skillMd, encodeUtf8 row.outputSchemaJson,
      encodeUtf8 row.manifestYaml].foldlM Digest.feed .new := by
    simp [Bridge.digestRow]
  unfold verifySnapshotRow
  rw [contentHash_eq_digest, hrow, bind_assoc]
  rfl

/-! ## The files of a skill -/

/-- The bytes of the three files of a skill. -/
structure Identity where
  prompt : List UInt8
  schema : List UInt8
  manifest : List UInt8
  deriving DecidableEq, Repr

/-- The files in the order they are fed. -/
def Identity.contents (files : Identity) : List (List UInt8) :=
  [files.prompt, files.schema, files.manifest]

/-- The lengths of the files fit into eight bytes. -/
def Identity.Fits (files : Identity) : Prop := ∀ contents ∈ files.contents, contents.length < 2 ^ 64

instance Identity.decidableFits (files : Identity) : Decidable files.Fits :=
  inferInstanceAs (Decidable (∀ contents ∈ files.contents, contents.length < 2 ^ 64))

/-- The files of the skill on disk are these. -/
def Session.Holds (session : Session) (skillName : String) (files : Identity) : Prop :=
  session.readBytes skillName "SKILL.md" = some files.prompt ∧
    session.readBytes skillName "output.schema.json" = some files.schema ∧
    session.readBytes skillName "skill.yaml" = some files.manifest

/-- The files that a row stands for. -/
def SkillSnapshot.identity (row : SkillSnapshot) : Identity :=
  ⟨encodeUtf8 row.skillMd, encodeUtf8 row.outputSchemaJson, encodeUtf8 row.manifestYaml⟩

/-- A loop over the files that reads each of them and feeds it. -/
lemma foldlM_read {read : String → Except PyError (List UInt8)}
    (hread : ∀ filename contents,
      read filename = .ok contents ↔ session.readBytes skillName filename = some contents)
    {digest : Digest} :
    identityFilenames.foldlM (fun (digest : Digest) filename => do
        let contents ← read filename
        digest.feed contents) .new = .ok digest ↔
      ∃ files : Identity, session.Holds skillName files ∧
        files.contents.foldlM Digest.feed .new = .ok digest := by
  simp only [identityFilenames, Identity.contents, List.foldlM_cons, List.foldlM_nil, bind_assoc]
  constructor
  · intro h
    obtain ⟨prompt, hprompt, h⟩ := Except.bind_eq_ok.mp h
    obtain ⟨digest₁, hfeed₁, h⟩ := Except.bind_eq_ok.mp h
    obtain ⟨schema, hschema, h⟩ := Except.bind_eq_ok.mp h
    obtain ⟨digest₂, hfeed₂, h⟩ := Except.bind_eq_ok.mp h
    obtain ⟨manifest, hmanifest, h⟩ := Except.bind_eq_ok.mp h
    refine ⟨⟨prompt, schema, manifest⟩, ⟨(hread _ _).mp hprompt, (hread _ _).mp hschema,
      (hread _ _).mp hmanifest⟩, ?_⟩
    rw [hfeed₁, Except.ok_bind, hfeed₂, Except.ok_bind, h]
  · rintro ⟨files, ⟨hprompt, hschema, hmanifest⟩, h⟩
    obtain ⟨digest₁, hfeed₁, h⟩ := Except.bind_eq_ok.mp h
    obtain ⟨digest₂, hfeed₂, h⟩ := Except.bind_eq_ok.mp h
    rw [(hread _ _).mpr hprompt, Except.ok_bind, hfeed₁, Except.ok_bind, (hread _ _).mpr hschema,
      Except.ok_bind, hfeed₂, Except.ok_bind, (hread _ _).mpr hmanifest, Except.ok_bind, h]

lemma digestSkill_eq_ok {digest : Digest} :
    digestSkill session skillName = .ok digest ↔ ∃ files : Identity,
      session.Holds skillName files ∧ files.contents.foldlM Digest.feed .new = .ok digest :=
  foldlM_read fun _ _ => readSkillFile_eq_ok

lemma Bridge.readFile_eq_ok {filename : String} {contents : List UInt8} :
    Bridge.readFile session skillName filename = .ok contents ↔
      session.readBytes skillName filename = some contents := by
  unfold Bridge.readFile
  cases session.readBytes skillName filename with
  | none => exact iff_of_false Except.throw_ne_ok (by simp)
  | some c => exact Except.pure_eq_ok.trans (by simp)

lemma Bridge.digestSkill_eq_ok {digest : Digest} :
    Bridge.digestSkill session skillName = .ok digest ↔ ∃ files : Identity,
      session.Holds skillName files ∧ files.contents.foldlM Digest.feed .new = .ok digest :=
  foldlM_read fun _ _ => Bridge.readFile_eq_ok

/-- **What `compute_skill_hash` of the API returns** is the hash of the digest. -/
theorem computeSkillHash_eq_digest {lib : ContractLibrary} {hash : String} :
    computeSkillHash lib session skillName = .ok hash ↔
      ∃ digest, digestSkill session skillName = .ok digest ∧
        hash = digest.hexdigest lib.toSkillLibrary := by
  constructor
  · intro h
    obtain ⟨prompt, hprompt, h⟩ := Except.bind_eq_ok.mp h
    obtain ⟨schema, hschema, h⟩ := Except.bind_eq_ok.mp h
    obtain ⟨manifest, hmanifest, h⟩ := Except.bind_eq_ok.mp h
    rw [contentHash_eq_digest] at h
    obtain ⟨digest, hdigest, h⟩ := Except.bind_eq_ok.mp h
    rw [Except.pure_eq_ok] at h
    refine ⟨digest, digestSkill_eq_ok.mpr ⟨⟨prompt, schema, manifest⟩, ?_, hdigest⟩, h.symm⟩
    exact ⟨readSkillFile_eq_ok.mp hprompt, readSkillFile_eq_ok.mp hschema,
      readSkillFile_eq_ok.mp hmanifest⟩
  · rintro ⟨digest, hdigest, rfl⟩
    obtain ⟨files, ⟨hprompt, hschema, hmanifest⟩, hdigest⟩ := digestSkill_eq_ok.mp hdigest
    unfold computeSkillHash
    rw [readSkillFile_eq_ok.mpr hprompt, Except.ok_bind, readSkillFile_eq_ok.mpr hschema,
      Except.ok_bind, readSkillFile_eq_ok.mpr hmanifest, Except.ok_bind, contentHash_eq_digest]
    exact Except.bind_eq_ok.mpr ⟨digest, hdigest, rfl⟩

/-- All three loops feed these files to the digest in the same way: those of the API and of the
bridge when the files are on disk, and that of the bridge when they are those of a row. Each hash
is the hash of the digest. -/
structure Identity.Feeds (files : Identity) (digest : Digest) : Prop where
  api : ∀ session skillName, session.Holds skillName files →
    digestSkill session skillName = .ok digest ∧
      ∀ lib : ContractLibrary, computeSkillHash lib session skillName =
        .ok (digest.hexdigest lib.toSkillLibrary)
  bridge : ∀ session skillName, session.Holds skillName files →
    Bridge.digestSkill session skillName = .ok digest ∧
      ∀ lib, Bridge.computeSkillHash session skillName lib = .ok (digest.hexdigest lib)
  row : ∀ row : SkillSnapshot, row.identity = files →
    Bridge.digestRow row = .ok digest ∧
      ∀ lib expectedHash, verifySnapshotRow lib row expectedHash =
        Bridge.checkHash row expectedHash (digest.hexdigest lib)

/-- The files with their lengths are what is fed. -/
lemma Identity.Fits.feeds {files : Identity} (hfits : files.Fits) :
    files.Feeds ⟨files.contents.flatMap frame⟩ := by
  have hfed : files.contents.foldlM Digest.feed .new = .ok ⟨files.contents.flatMap frame⟩ := by
    rw [foldlM_feed hfits, Digest.new, List.nil_append]
  refine ⟨fun session skillName hholds => ?_, fun session skillName hholds => ?_,
    fun row hrow => ?_⟩
  · have hdigest := digestSkill_eq_ok.mpr ⟨files, hholds, hfed⟩
    exact ⟨hdigest, fun lib => computeSkillHash_eq_digest.mpr ⟨_, hdigest, rfl⟩⟩
  · have hdigest := Bridge.digestSkill_eq_ok.mpr ⟨files, hholds, hfed⟩
    refine ⟨hdigest, fun lib => ?_⟩
    rw [Bridge.computeSkillHash, hdigest]
    rfl
  · have hdigest : Bridge.digestRow row = .ok ⟨files.contents.flatMap frame⟩ := by
      rw [← hfed, ← hrow]
      simp [Bridge.digestRow, SkillSnapshot.identity, Identity.contents]
    refine ⟨hdigest, fun lib expectedHash => ?_⟩
    rw [verifySnapshotRow_eq_digest, hdigest]
    rfl

/-- **The bytes under the content hash determine the files.** For all files that are shorter than
`2 ^ 64` bytes: the loops of the API and of the bridge over the files on disk and the loop of the
bridge over those of a row feed the same bytes to the digest, and they feed the same for other
files only if these are the same, so that nothing can be moved from one file to another. -/
theorem digest_injective (files files' : Identity) (hfits : files.Fits) (hfits' : files'.Fits) :
    ∃ digest digest' : Digest, files.Feeds digest ∧ files'.Feeds digest' ∧
      (digest.fed = digest'.fed → files = files') := by
  refine ⟨_, _, hfits.feeds, hfits'.feeds, fun heq => ?_⟩
  have hcontents : files.contents = files'.contents := flatMap_frame_inj hfits hfits' heq
  obtain ⟨prompt, schema, manifest⟩ := files
  obtain ⟨prompt', schema', manifest'⟩ := files'
  simp only [Identity.contents, List.cons.injEq, and_true] at hcontents
  obtain ⟨rfl, rfl, rfl⟩ := hcontents
  rfl

/-- A prompt that goes on like the file after it, which is empty. -/
def imitatingFiles : Identity := ⟨[1] ++ frame [2], [], [3]⟩

/-- The file that the prompt imitates. -/
def imitatedFiles : Identity := ⟨[1], [2], [3]⟩

/-- `digest_injective` at files of which one imitates another. -/
theorem imitatingFiles_digest : ∃ digest digest' : Digest,
    imitatingFiles.Feeds digest ∧ imitatedFiles.Feeds digest' ∧ digest.fed ≠ digest'.fed := by
  obtain ⟨digest, digest', hfeeds, hfeeds', hinj⟩ :=
    digest_injective imitatingFiles imitatedFiles (by decide) (by decide)
  exact ⟨digest, digest', hfeeds, hfeeds', fun heq => absurd (hinj heq) (by decide)⟩

end Hashes

end Skills

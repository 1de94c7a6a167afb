import Mathlib.Data.List.MinMax
import Mathlib.Order.WithBot
import NocReport.Foundation.JsonText
import NocReport.Foundation.Python

set_option relaxedAutoImplicit false
set_option autoImplicit false

/-!
# Skill snapshots

A skill is three files: its instructions, the schema of its output, and a manifest in YAML that
names the skills it depends on. A snapshot is a row that holds the files, their hash, and the ids
of the rows that the dependencies were resolved to.

## Main definitions

* `Yaml` — the values `yaml.safe_load` returns.
* `Skills.SkillLibrary` — the libraries that are parameters.
* `Skills.SkillSnapshot`, `Skills.SkillTable` — the rows and the table.
* `Skills.contentHash` — the hash over the three files.
* `Skills.Component`, `Skills.payload` — what the execution hash is taken over.

## Main results

* `Skills.contentText_inj` — the text under the content hash determines the files.
* `Skills.payload_dumps_inj` — the text under the execution hash determines its parts.
-/

/-! ## YAML values -/

/-- A value that `yaml.safe_load` returns; `other` is one of the classes nothing looks into (dates
and sets), with its truth value. -/
inductive Yaml where
  | null
  | bool (b : Bool)
  | int (i : ℤ)
  | float (x : JsonFloat)
  | str (s : String)
  | bytes (b : List UInt8)
  | other (truth : Bool)
  | seq (xs : List Yaml)
  | map (fields : List (Yaml × Yaml))
  deriving Repr

namespace Yaml

/-- The truth value. -/
def truthy : Yaml → Bool
  | null => false
  | bool b => b
  | int i => i != 0
  | float (.finite q) => q != 0
  | float _ => true
  | str s => s ≠ ""
  | bytes b => !b.isEmpty
  | other truth => truth
  | seq xs => !xs.isEmpty
  | map fields => !fields.isEmpty

/-- `v or {}`. -/
def orEmpty (v : Yaml) : Yaml := if v.truthy then v else map []

/-- `v is None`. -/
def isNull : Yaml → Bool
  | null => true
  | _ => false

/-- `v == s` for a text `s`. -/
def isText (v : Yaml) (s : String) : Bool :=
  match v with
  | str t => t = s
  | _ => false

/-- The value of key `k` among the items of a dictionary. -/
def field? : List (Yaml × Yaml) → String → Option Yaml
  | [], _ => none
  | (k', v) :: fields, k => if k'.isText k then some v else field? fields k

/-- `v.get(k, d)`. -/
def getD (v : Yaml) (k : String) (d : Yaml) : Except PyError Yaml :=
  match v with
  | map fields => pure ((field? fields k).getD d)
  | _ => throw .attributeError

/-- `v.get(k)`. -/
def get (v : Yaml) (k : String) : Except PyError Yaml := v.getD k null

/-- The values a `for` loop over `v` goes through; those of a set or of bytes are left open. -/
def iter : Yaml → Except PyError (List Yaml)
  | seq xs => pure xs
  | map fields => pure (fields.map (·.1))
  | str s => pure (s.toList.map fun c => str (String.singleton c))
  | bytes b => pure (b.map fun n => int n.toNat)
  | _ => throw .typeError

end Yaml

namespace Skills

/-! ## The libraries -/

/-- The libraries that are not embedded. -/
structure SkillLibrary where
  /-- the hexadecimal digest of SHA-256 -/
  sha256Hex : List UInt8 → String
  /-- `yaml.safe_load`, or the message of its error -/
  safeLoad : String → Except String Yaml
  /-- `int` of a text or of bytes -/
  parseInt : Yaml → Option ℤ
  /-- `repr(v)`, which is also `str(v)` of anything but a text -/
  repr : Yaml → String

variable (lib : SkillLibrary)

/-- `int(v)`. -/
def SkillLibrary.int : Yaml → Except PyError ℤ
  | .bool b => pure (if b then 1 else 0)
  | .int i => pure i
  | .float (.finite q) => pure (q.num.tdiv q.den)
  | .float .nan => throw (.valueError (py "cannot convert float NaN to integer"))
  | .float _ => throw .overflowError
  | .str s => parse (.str s)
  | .bytes b => parse (.bytes b)
  | _ => throw .typeError
where
  /-- The number in a text. -/
  parse (v : Yaml) : Except PyError ℤ :=
    match lib.parseInt v with
    | some i => pure i
    | none => throw (.valueError (py "invalid literal for int()"))

/-- `int(v)`, where a value that is no number is another error. -/
def SkillLibrary.intOr (invalid : PyError) (v : Yaml) : Except PyError ℤ :=
  match lib.int v with
  | .ok number => pure number
  | .error .overflowError => throw .overflowError
  | .error _ => throw invalid

/-- `str(v)`. -/
def SkillLibrary.str : Yaml → String
  | .str s => s
  | v => lib.repr v

/-- `yaml.safe_load`, which raises an error of its own. -/
def SkillLibrary.load (manifestYaml : String) : Except PyError Yaml :=
  match lib.safeLoad manifestYaml with
  | .ok manifest => pure manifest
  | .error message => throw (.custom (py "YAMLError") (py message))

/-- `SkillSnapshotMissing`. -/
def snapshotMissing (message : String) : PyError :=
  .custom (py "SkillSnapshotMissing") (py message)

/-- The error of a database that compares a text with a value of another type. -/
def programmingError : PyError := .custom (py "ProgrammingError") (py "operator does not exist")

/-- `if condition: raise error`. -/
def raiseIf (condition : Bool) (error : PyError) : Except PyError Unit :=
  if condition then throw error else pure ()

lemma raiseIf_eq_ok {condition : Bool} {error : PyError} {u : Unit} :
    raiseIf condition error = .ok u ↔ condition = false := by
  cases condition with
  | false => exact iff_of_true rfl rfl
  | true => exact iff_of_false Except.throw_ne_ok (by decide)

lemma SkillLibrary.intOr_eq_ok {lib : SkillLibrary} {invalid : PyError} {v : Yaml} {number : ℤ} :
    lib.intOr invalid v = .ok number ↔ lib.int v = .ok number := by
  unfold SkillLibrary.intOr
  cases lib.int v with
  | ok i => exact Except.pure_eq_ok.trans (by simp)
  | error e => cases e <;> exact iff_of_false Except.throw_ne_ok (by simp)

/-! ## Rows -/

/-- The three files of a skill. -/
structure SkillFiles where
  skillMd : String
  outputSchemaJson : String
  manifestYaml : String
  deriving DecidableEq, Repr

/-- A row of `skill_snapshots`. The column of the dependency ids is written as an object of texts
and is not null; `created_at` is an instant, and may be null. -/
structure SkillSnapshot extends SkillFiles where
  id : String
  skillName : String
  versionLabel : ℤ
  contentHash : String
  executionHash : Option String
  dependencySnapshotIds : Dict String String
  createdAt : Option ℤ
  isActive : Bool
  deriving DecidableEq, Repr

/-- The table, in the order in which the database goes through its rows. Ids are texts of UUIDs,
and different. -/
structure SkillTable where
  rows : List SkillSnapshot
  nodup : (rows.map (·.id)).Nodup
  ids_ne : ∀ row ∈ rows, row.id ≠ ""

namespace SkillTable

variable (table : SkillTable)

/-- The row with an id. -/
def get (id : String) : Option SkillSnapshot := table.rows.find? fun row => row.id = id

/-- The rows of a skill. A name that is no text is compared as it is: nothing equals a null, and
the database refuses to compare a text with anything else. -/
def named (name : Yaml) : Except PyError (List SkillSnapshot) :=
  match name with
  | .str name => pure (table.rows.filter fun row => row.skillName = name)
  | .null => pure []
  | _ => throw programmingError

lemma get_mem {id : String} {row : SkillSnapshot} (h : table.get id = some row) :
    row ∈ table.rows ∧ row.id = id :=
  ⟨List.mem_of_find?_eq_some h, by simpa using List.find?_some h⟩

/-- Rows with the same id are the same. -/
lemma eq_of_id {a b : SkillSnapshot} (ha : a ∈ table.rows) (hb : b ∈ table.rows)
    (h : a.id = b.id) : a = b :=
  List.inj_on_of_nodup_map table.nodup ha hb h

/-- A row is found under its id. -/
lemma get_of_mem {row : SkillSnapshot} (h : row ∈ table.rows) : table.get row.id = some row := by
  cases hget : table.get row.id with
  | none =>
    have hnone := List.find?_eq_none.mp hget row h
    simp at hnone
  | some other =>
    obtain ⟨hmem, hid⟩ := table.get_mem hget
    rw [table.eq_of_id hmem h hid]

lemma mem_of_named {name : Yaml} {rows : List SkillSnapshot} (h : table.named name = .ok rows)
    {row : SkillSnapshot} (hrow : row ∈ rows) : row ∈ table.rows ∧ name = .str row.skillName := by
  unfold named at h
  split at h
  · rw [Except.pure_eq_ok] at h
    subst h
    obtain ⟨hmem, hname⟩ := List.mem_filter.mp hrow
    exact ⟨hmem, by rw [of_decide_eq_true hname]⟩
  · rw [Except.pure_eq_ok] at h
    subst h
    cases hrow
  · exact absurd h Except.throw_ne_ok

end SkillTable

section Ranking

/-- The order of the integers, as an instance that computes. -/
local instance preorderInt : Preorder ℤ := instLatticeInt.toSemilatticeInf.toPartialOrder.toPreorder

/-- The first row of `ORDER BY version_label DESC`. -/
def highestVersion (rows : List SkillSnapshot) : Option SkillSnapshot :=
  rows.argmax (·.versionLabel)

/-- The rank of a row in an order by `created_at`, where a null is greater than any instant. -/
def SkillSnapshot.createdRank (row : SkillSnapshot) : WithTop ℤ :=
  match row.createdAt with
  | some instant => instant
  | none => ⊤

/-- The first row of `ORDER BY created_at DESC`. -/
def latestCreated (rows : List SkillSnapshot) : Option SkillSnapshot :=
  rows.argmax SkillSnapshot.createdRank

end Ranking

lemma highestVersion_mem {rows : List SkillSnapshot} {row : SkillSnapshot}
    (h : highestVersion rows = some row) : row ∈ rows :=
  List.argmax_mem h

lemma latestCreated_mem {rows : List SkillSnapshot} {row : SkillSnapshot}
    (h : latestCreated rows = some row) : row ∈ rows :=
  List.argmax_mem h

/-! ## The content hash -/

/-- `value.encode("utf-8")`. -/
def encodeUtf8 (s : String) : List UInt8 := s.toUTF8.data.toList

lemma encodeUtf8_inj {s t : String} (h : encodeUtf8 s = encodeUtf8 t) : s = t := by
  have hdata : s.toUTF8.data = t.toUTF8.data := Array.toList_inj.mp h
  exact String.toByteArray_inj.mp (ByteArray.ext hdata)

/-- `n.to_bytes(8, "big")`, for a number that fits. -/
def bigEndian8 (n : ℕ) : List UInt8 :=
  (List.range 8).map fun i => UInt8.ofNat (n / 256 ^ (7 - i))

/-- The number that bytes stand for. -/
def ofBigEndian (bytes : List UInt8) : ℕ := bytes.foldl (fun n b => n * 256 + b.toNat) 0

lemma ofBigEndian_bigEndian8 {n : ℕ} (h : n < 2 ^ 64) : ofBigEndian (bigEndian8 n) = n := by
  simp only [bigEndian8, ofBigEndian, List.range, List.range.loop, List.map_cons, List.map_nil,
    List.foldl_cons, List.foldl_nil, UInt8.toNat_ofNat']
  omega

lemma bigEndian8_inj {m n : ℕ} (hm : m < 2 ^ 64) (hn : n < 2 ^ 64)
    (h : bigEndian8 m = bigEndian8 n) : m = n := by
  rw [← ofBigEndian_bigEndian8 hm, ← ofBigEndian_bigEndian8 hn, h]

@[simp] lemma length_bigEndian8 (n : ℕ) : (bigEndian8 n).length = 8 := by simp [bigEndian8]

/-- The length of some bytes, and the bytes. -/
def lengthPrefixed (contents : List UInt8) : Except PyError (List UInt8) :=
  if contents.length < 2 ^ 64 then pure (bigEndian8 contents.length ++ contents)
  else throw .overflowError

/-- The text under the content hash of three files. -/
def contentText (prompt schema manifest : List UInt8) : Except PyError (List UInt8) := do
  let prompt ← lengthPrefixed prompt
  let schema ← lengthPrefixed schema
  let manifest ← lengthPrefixed manifest
  return prompt ++ schema ++ manifest

/-- The content hash of three files. -/
def contentHash (prompt schema manifest : List UInt8) : Except PyError String := do
  let text ← contentText prompt schema manifest
  return lib.sha256Hex text

lemma lengthPrefixed_eq_ok {contents bytes : List UInt8} (h : lengthPrefixed contents = .ok bytes) :
    contents.length < 2 ^ 64 ∧ bytes = bigEndian8 contents.length ++ contents := by
  unfold lengthPrefixed at h
  split at h
  · next hlt => exact ⟨hlt, (Except.pure_eq_ok.mp h).symm⟩
  · exact absurd h Except.throw_ne_ok

/-- No file with its length is a prefix of another's. -/
lemma lengthPrefixed_append_inj {a b bytes bytes' r r' : List UInt8}
    (ha : lengthPrefixed a = .ok bytes) (hb : lengthPrefixed b = .ok bytes')
    (h : bytes ++ r = bytes' ++ r') : a = b ∧ r = r' := by
  obtain ⟨hlta, rfl⟩ := lengthPrefixed_eq_ok ha
  obtain ⟨hltb, rfl⟩ := lengthPrefixed_eq_ok hb
  rw [List.append_assoc, List.append_assoc] at h
  obtain ⟨hhead, hrest⟩ := List.append_inj h (by simp)
  exact List.append_inj hrest (bigEndian8_inj hlta hltb hhead)

/-- **The text under the content hash determines the files.** -/
lemma contentText_inj {a b c a' b' c' text : List UInt8} (h : contentText a b c = .ok text)
    (h' : contentText a' b' c' = .ok text) : a = a' ∧ b = b' ∧ c = c' := by
  obtain ⟨pa, ha, h⟩ := Except.bind_eq_ok.mp h
  obtain ⟨pb, hb, h⟩ := Except.bind_eq_ok.mp h
  obtain ⟨pc, hc, h⟩ := Except.bind_eq_ok.mp h
  obtain ⟨pa', ha', h'⟩ := Except.bind_eq_ok.mp h'
  obtain ⟨pb', hb', h'⟩ := Except.bind_eq_ok.mp h'
  obtain ⟨pc', hc', h'⟩ := Except.bind_eq_ok.mp h'
  rw [Except.pure_eq_ok] at h h'
  have heq : pa ++ (pb ++ (pc ++ [])) = pa' ++ (pb' ++ (pc' ++ [])) := by
    simp only [List.append_nil, ← List.append_assoc]
    rw [h, h']
  obtain ⟨rfl, heq₁⟩ := lengthPrefixed_append_inj ha ha' heq
  obtain ⟨rfl, heq₂⟩ := lengthPrefixed_append_inj hb hb' heq₁
  obtain ⟨rfl, -⟩ := lengthPrefixed_append_inj hc hc' heq₂
  exact ⟨rfl, rfl, rfl⟩

/-! ## The execution hash -/

/-- What the execution hash says about a dependency. -/
structure Component where
  id : String
  contentHash : String
  executionHash : String
  deriving DecidableEq, Repr

/-- `components.sort(key=lambda item: (item["id"], item["content_hash"]))`. -/
def sortComponents (components : List Component) : List Component :=
  components.insertionSort fun a b =>
    a.id < b.id ∨ (a.id = b.id ∧ a.contentHash ≤ b.contentHash)

/-- The object of a dependency. -/
def Component.toJson (c : Component) : JsonText :=
  .obj [("id", .str c.id), ("content_hash", .str c.contentHash),
    ("execution_hash", .str c.executionHash)]

/-- The object that the execution hash is taken over. -/
def payload (contentHash : String) (components : List JsonText) : JsonText :=
  .obj [("content_hash", .str contentHash), ("dependencies", .arr components)]

/-- The execution hash of a content hash and the objects of the dependencies. -/
def payloadHash (contentHash : String) (components : List JsonText) : String :=
  lib.sha256Hex (encodeUtf8 (payload contentHash components).dumps)

lemma sorted_payload (contentHash : String) (components : List JsonText) :
    (payload contentHash components).sorted =
      .obj [("content_hash", .str contentHash), ("dependencies", .arr (components.map JsonText.sorted))] := by
  simp [payload, JsonText.sorted, JsonText.sortedFields, JsonText.sortedItems_eq_map,
    JsonText.sortFields]

lemma Component.sorted_toJson (c : Component) :
    c.toJson.sorted = .obj [("content_hash", .str c.contentHash),
      ("execution_hash", .str c.executionHash), ("id", .str c.id)] := by
  simp [Component.toJson, JsonText.sorted, JsonText.sortedFields, JsonText.sortFields]

/-- The text under the execution hash determines its parts. -/
lemma payload_dumps_inj {contentHash contentHash' : String} {components components' : List JsonText}
    (h : encodeUtf8 (payload contentHash components).dumps =
      encodeUtf8 (payload contentHash' components').dumps) :
    contentHash = contentHash' ∧ components.map JsonText.sorted = components'.map JsonText.sorted := by
  have hsorted := JsonText.dumps_inj (encodeUtf8_inj h)
  rw [sorted_payload, sorted_payload] at hsorted
  simpa using hsorted

lemma Component.sorted_toJson_inj {c d : Component} (h : c.toJson.sorted = d.toJson.sorted) :
    c = d := by
  rw [c.sorted_toJson, d.sorted_toJson] at h
  obtain ⟨hcontent, hexecution, hid⟩ : c.contentHash = d.contentHash ∧
      c.executionHash = d.executionHash ∧ c.id = d.id := by simpa using h
  cases c
  cases d
  simp_all

end Skills

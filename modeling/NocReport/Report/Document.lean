import NocReport.Foundation.Python

set_option relaxedAutoImplicit false
set_option autoImplicit false

/-!
# Report documents

The renderer-neutral representation of a report (`bridge/noc_bridge/report_document.py`): typed
blocks, of which an analysis reference contains further blocks, and the parser that builds them
from a declarative JSON result. A field the parser copies unchecked holds whatever JSON value it
found; a field it converts with `str` holds a text.

## Main definitions

* `Report.Block`, `Report.ReportDocument` — the blocks and the document.
* `Report.parseBlocks`, `Report.buildReportDocument` — the parser.
* `Report.Block.screenshots` — the screenshots of a block, at any depth.
* `Report.Block.parts` — a block and the blocks in it, at any depth.
* `Report.Block.isProse` — the blocks that hold text only.
* `Report.rawScreenshots` — the objects of a declarative result that the parser reads as
  screenshots.

## Main results

* `Report.parseBlocks_screenshots` — the screenshots of parsed blocks are exactly those of the
  declarative result.
-/

namespace Report

/-! ## Blocks -/

structure Heading where
  text : Json
  level : ℤ
  deriving Repr

structure Paragraph where
  text : Json
  style : Json
  deriving Repr

/-- A single label/value fact line. -/
structure Metadata where
  label : Json
  value : PyStr
  deriving Repr

structure Link where
  label : Json
  url : Json
  text : Json
  linkPrefix : Json
  deriving Repr

structure LogFileReference where
  filename : Json
  url : Json
  deriving Repr

/-- A stored image: where it is, and which bytes it had. -/
structure Screenshot where
  bucket : Json
  objectKey : Json
  filename : Json
  versionId : Json
  sha256 : Json
  contentType : Json
  byteSize : Json
  deriving Repr

structure NavigationEntry where
  text : PyStr
  target : Json
  deriving Repr

/-- The same content in two languages. -/
structure BilingualText where
  textZh : Json
  textEn : Json
  headingZh : Json
  headingEn : Json
  deriving Repr

structure Find where
  label : PyStr
  detail : Option PyStr
  stat : Option PyStr
  deriving Repr

structure BilingualFindList where
  headingZh : PyStr
  headingEn : PyStr
  findsZh : List Find
  findsEn : List Find
  deriving Repr

structure FindList where
  heading : PyStr
  finds : List Find
  language : Json
  deriving Repr

/-- One incident's evidence: its facts, links, log file and screenshots. -/
structure IncidentEvidence where
  heading : Json
  incidentId : Json
  metadata : List Metadata
  link : Option Link
  links : List Link
  logFile : Option LogFileReference
  screenshots : List Screenshot
  navigationTarget : Json
  deriving Repr

/-- The fields of an `AnalysisReference` other than its children. -/
structure AnalysisFields where
  heading : PyStr
  available : Bool
  incidentId : Option PyStr
  analysisRunId : Option PyStr
  unavailableText : Json
  metadata : List Metadata
  provenance : List Metadata
  screenshots : List Screenshot
  logFile : Option LogFileReference
  summary : Option BilingualText
  keyFinds : Option BilingualFindList
  secondaryFinds : Option BilingualFindList
  likelyCause : Option BilingualText
  recommendedAction : Option BilingualText
  bookmark : Json
  deriving Repr

/-- A block of a document. -/
inductive Block where
  | heading (b : Heading)
  | paragraph (b : Paragraph)
  | divider
  | pageBreak
  | metadata (b : Metadata)
  | link (b : Link)
  | logFileReference (b : LogFileReference)
  | screenshot (b : Screenshot)
  | alertNavigation (entries : List NavigationEntry)
  | bilingualText (b : BilingualText)
  | bilingualFindList (b : BilingualFindList)
  | findList (b : FindList)
  | incidentEvidence (b : IncidentEvidence)
  | analysisReference (b : AnalysisFields) (children : List Block)

structure ReportDocument where
  title : Json
  blocks : List Block
  metadata : List Metadata
  provenance : List Metadata

mutual

/-- The screenshots of a block, at any depth. -/
def Block.screenshots : Block → List Screenshot
  | .screenshot b => [b]
  | .incidentEvidence b => b.screenshots
  | .analysisReference b children => b.screenshots ++ blockListScreenshots children
  | _ => []

/-- The screenshots of a list of blocks, at any depth. -/
def blockListScreenshots : List Block → List Screenshot
  | [] => []
  | b :: bs => b.screenshots ++ blockListScreenshots bs

end

/-- The screenshots of a document. -/
def ReportDocument.screenshots (doc : ReportDocument) : List Screenshot :=
  blockListScreenshots doc.blocks

mutual

/-- The block and the blocks in it, at any depth. -/
def Block.parts : Block → List Block
  | .analysisReference b children => .analysisReference b children :: blockListParts children
  | b => [b]

/-- The blocks of a list and the blocks in them, at any depth. -/
def blockListParts : List Block → List Block
  | [] => []
  | b :: bs => b.parts ++ blockListParts bs

end

lemma blockListParts_append (bs cs : List Block) :
    blockListParts (bs ++ cs) = blockListParts bs ++ blockListParts cs := by
  induction bs with
  | nil => rfl
  | cons b bs ih => simp [blockListParts, ih]

/-- The block holds text only, and no other block. -/
def Block.isProse : Block → Bool
  | .heading _ | .paragraph _ | .divider | .pageBreak | .bilingualText _ | .findList _ => true
  | _ => false

lemma Block.screenshots_of_isProse {b : Block} (h : b.isProse = true) : b.screenshots = [] := by
  cases b with
  | heading | paragraph | divider | pageBreak | bilingualText | findList => rfl
  | metadata | link | logFileReference | screenshot | alertNavigation | bilingualFindList
  | incidentEvidence | analysisReference => cases h

lemma mem_blockListParts_iff {bs : List Block} {part : Block} :
    part ∈ blockListParts bs ↔ ∃ b ∈ bs, part ∈ b.parts := by
  induction bs with
  | nil => simp [blockListParts]
  | cons b bs ih => simp [blockListParts, ih]

/-- The blocks of a list are among its parts. -/
lemma mem_blockListParts {bs : List Block} {b : Block} (h : b ∈ bs) : b ∈ blockListParts bs := by
  have hself : b ∈ b.parts := by cases b <;> simp [Block.parts]
  exact mem_blockListParts_iff.mpr ⟨b, h, hself⟩

/-- Blocks that hold text only have no parts but themselves. -/
lemma blockListParts_of_isProse {bs : List Block} (h : ∀ b ∈ bs, b.isProse = true) :
    blockListParts bs = bs := by
  induction bs with
  | nil => rfl
  | cons b bs ih =>
    have hb := h b List.mem_cons_self
    rw [blockListParts, ih fun c hc => h c (List.mem_cons_of_mem _ hc)]
    cases b with
    | heading | paragraph | divider | pageBreak | bilingualText | findList => rfl
    | metadata | link | logFileReference | screenshot | alertNavigation | bilingualFindList
    | incidentEvidence | analysisReference => cases hb

/-! ## The parser -/

/-- `screenshot_from_dict`. -/
def screenshotFromDict (raw : Json) : Except PyError Screenshot := do
  let bucket ← raw.index (py "bucket")
  let objectKey ← raw.index (py "object_key")
  let filename ← raw.getD (py "filename") .null
  let versionId ← raw.getD (py "version_id") .null
  let sha256 ← raw.getD (py "sha256") .null
  let contentType ← raw.getD (py "content_type") .null
  let byteSize ← raw.getD (py "byte_size") .null
  return ⟨bucket, objectKey, filename, versionId, sha256, contentType, byteSize⟩

section Parser

variable (rt : PyRuntime)

/-- `Metadata(str(item["label"]), str(item["value"]))`. -/
def parseMetadata (item : Json) : Except PyError Metadata := do
  let label ← item.index (py "label")
  let value ← item.index (py "value")
  return ⟨.str (rt.str label), rt.str value⟩

/-- `Link(item["label"], item["url"], item.get("text"), item.get("prefix"))`. -/
def parseLink (item : Json) : Except PyError Link := do
  let label ← item.index (py "label")
  let url ← item.index (py "url")
  let text ← item.getD (py "text") .null
  let linkPrefix ← item.getD (py "prefix") .null
  return ⟨label, url, text, linkPrefix⟩

/-- `_parse_find`. -/
def parseFind (raw : Json) : Except PyError Find := do
  let label ← raw.getD (py "label") .null
  let detail ← raw.getD (py "detail") .null
  let stat ← raw.getD (py "stat") .null
  let optionalText := fun v : Json => match v with
    | .null => none
    | v => some (rt.str v)
  return ⟨rt.str (label.or (.str [])), optionalText detail, optionalText stat⟩

/-- The elements of a field that is iterated over, each parsed; a missing field has none. -/
def parseEach {α : Type} (fields : Json.Fields) (k : PyStr) (parse : Json → Except PyError α) :
    Except PyError (List α) := do
  let items ← (fields.getD k (.arr [])).iter
  items.mapM parse

/-- The field `log_file` when it is an object. -/
def parseLogFile (fields : Json.Fields) : Except PyError (Option LogFileReference) :=
  match fields.get (py "log_file") with
  | .obj raw => do
    let filename ← (Json.obj raw).index (py "filename")
    return some ⟨filename, Json.Fields.get raw (py "url")⟩
  | _ => return none

/-- The results of parsing one field of an object as a list of blocks and as a single block. -/
structure Nested where
  blocks : Except PyError (List Block)
  block : Except PyError (Option Block)

/-- `_parse_optional_block(raw.get(k), expected)`, where `expected` picks the blocks of the
expected type. -/
def optionalBlock {α : Type} (nested : Dict PyStr Nested) (k : PyStr) (expected : Block → Option α) :
    Except PyError (Option α) :=
  match Dict.get? nested k with
  | some n => do
    let b ← n.block
    return b.bind expected
  | none => return none

def Block.bilingualText? : Block → Option BilingualText
  | .bilingualText b => some b
  | _ => none

def Block.bilingualFindList? : Block → Option BilingualFindList
  | .bilingualFindList b => some b
  | _ => none

/-- The children of an analysis reference: the field `children`, else the field `blocks`. -/
def childBlocks (nested : Dict PyStr Nested) : Except PyError (List Block) :=
  match Dict.get? nested (py "children") with
  | some n => n.blocks
  | none => match Dict.get? nested (py "blocks") with
    | some n => n.blocks
    | none => return []

/-- The field `link`, unless it is false. -/
def parseOptionalLink (fields : Json.Fields) : Except PyError (Option Link) :=
  if (fields.get (py "link")).truthy then do
    let link ← parseLink (fields.get (py "link"))
    return some link
  else return none

/-- An `IncidentEvidence` from its object. -/
def parseIncidentEvidence (fields : Json.Fields) : Except PyError IncidentEvidence := do
  let raw := Json.obj fields
  let heading ← raw.index (py "heading")
  let metadata ← parseEach fields (py "metadata") (parseMetadata rt)
  let link ← parseOptionalLink fields
  let links ← parseEach fields (py "links") parseLink
  let logFile ← parseLogFile fields
  let screenshots ← parseEach fields (py "screenshots") screenshotFromDict
  return ⟨heading, fields.get (py "incident_id"), metadata, link, links, logFile, screenshots,
    fields.get (py "navigation_target")⟩

/-- `str(v)` unless `v` is `None`. -/
def strOrNone (v : Json) : Option PyStr :=
  match v with
  | .null => none
  | v => some (rt.str v)

/-- An `AnalysisReference` from its object and the parsed blocks in it. -/
def parseAnalysisReference (fields : Json.Fields) (nested : Dict PyStr Nested) :
    Except PyError Block := do
  let analysisRunId := fields.get (py "analysis_run_id")
  let heading := (((fields.get (py "heading")).or (fields.get (py "label"))).or analysisRunId).or
    (.str (py "Analysis"))
  let metadata ← parseEach fields (py "metadata") (parseMetadata rt)
  let provenance ← parseEach fields (py "provenance") (parseMetadata rt)
  let children ← childBlocks nested
  let screenshots ← parseEach fields (py "screenshots") screenshotFromDict
  let logFile ← parseLogFile fields
  let summary ← optionalBlock nested (py "summary") Block.bilingualText?
  let keyFinds ← optionalBlock nested (py "key_finds") Block.bilingualFindList?
  let secondaryFinds ← optionalBlock nested (py "secondary_finds") Block.bilingualFindList?
  let likelyCause ← optionalBlock nested (py "likely_cause") Block.bilingualText?
  let recommendedAction ← optionalBlock nested (py "recommended_action") Block.bilingualText?
  return .analysisReference
    { heading := rt.str heading
      available := (fields.getD (py "available") (.bool true)).truthy
      incidentId := strOrNone rt (fields.get (py "incident_id"))
      analysisRunId := strOrNone rt analysisRunId
      unavailableText := fields.get (py "unavailable_text")
      metadata, provenance, screenshots, logFile, summary, keyFinds, secondaryFinds, likelyCause
      recommendedAction
      bookmark := fields.get (py "bookmark") } children

/-- The block types `_parse_blocks` accepts. -/
inductive BlockKind
  | heading | paragraph | bilingualText | metadata | link | logFileReference | screenshot
  | alertNavigation | bilingualFindList | findList | incidentEvidence | divider | pageBreak
  | analysisReference
  deriving DecidableEq, Repr

namespace BlockKind

/-- The value of the field `type`. -/
def name : BlockKind → String
  | heading => "heading"
  | paragraph => "paragraph"
  | bilingualText => "bilingual_text"
  | metadata => "metadata"
  | link => "link"
  | logFileReference => "log_file_reference"
  | screenshot => "screenshot"
  | alertNavigation => "alert_navigation"
  | bilingualFindList => "bilingual_find_list"
  | findList => "find_list"
  | incidentEvidence => "incident_evidence"
  | divider => "divider"
  | pageBreak => "page_break"
  | analysisReference => "analysis_reference"

/-- All block types. -/
def all : List BlockKind :=
  [heading, paragraph, bilingualText, metadata, link, logFileReference, screenshot,
    alertNavigation, bilingualFindList, findList, incidentEvidence, divider, pageBreak,
    analysisReference]

/-- The block type a value of the field `type` names. -/
def ofJson? (v : Json) : Option BlockKind := all.find? fun k => v.isText k.name

end BlockKind

/-- One turn of the loop of `_parse_blocks`, on an object whose fields have been parsed as
blocks where they contain some. -/
def parseBlockOf (fields : Json.Fields) (nested : Dict PyStr Nested) : Except PyError Block :=
  let raw := Json.obj fields
  match BlockKind.ofJson? (fields.get (py "type")) with
  | some .heading => do
    let text ← raw.index (py "text")
    let level ← rt.int (fields.getD (py "level") (.int 1))
    return .heading ⟨text, level⟩
  | some .paragraph => do
    let text ← raw.index (py "text")
    return .paragraph ⟨text, fields.get (py "style")⟩
  | some .bilingualText =>
    return .bilingualText ⟨fields.getD (py "zh") (.str []), fields.getD (py "en") (.str []),
      fields.get (py "heading_zh"), fields.get (py "heading_en")⟩
  | some .metadata => do
    let label ← raw.index (py "label")
    let value ← raw.index (py "value")
    return .metadata ⟨label, rt.str value⟩
  | some .link => do
    let b ← parseLink raw
    return .link b
  | some .logFileReference => do
    let filename ← raw.index (py "filename")
    return .logFileReference ⟨filename, fields.get (py "url")⟩
  | some .screenshot => do
    let b ← screenshotFromDict raw
    return .screenshot b
  | some .alertNavigation => do
    let entries ← parseEach fields (py "entries") fun item => do
      let text ← item.index (py "text")
      let target ← item.index (py "target")
      return (⟨rt.str text, .str (rt.str target)⟩ : NavigationEntry)
    return .alertNavigation entries
  | some .bilingualFindList => do
    let headingZh ← raw.index (py "heading_zh")
    let headingEn ← raw.index (py "heading_en")
    let findsZh ← parseEach fields (py "finds_zh") (parseFind rt)
    let findsEn ← parseEach fields (py "finds_en") (parseFind rt)
    return .bilingualFindList ⟨rt.str headingZh, rt.str headingEn, findsZh, findsEn⟩
  | some .findList => do
    let heading ← raw.index (py "heading")
    let finds ← parseEach fields (py "finds") (parseFind rt)
    return .findList ⟨rt.str heading, finds, fields.get (py "language")⟩
  | some .incidentEvidence => do
    let b ← parseIncidentEvidence rt fields
    return .incidentEvidence b
  | some .divider => return .divider
  | some .pageBreak => return .pageBreak
  | some .analysisReference => parseAnalysisReference rt fields nested
  | none =>
    throw (.valueError
      (py "unsupported ReportDocument block type: " ++ rt.repr (fields.get (py "type"))))

mutual

/-- `_parse_blocks`. -/
def parseBlocks : Json → Except PyError (List Block)
  | .arr xs => parseBlockList xs
  | .obj fields => if fields.isEmpty then pure [] else throw .attributeError
  | .str s => if s.isEmpty then pure [] else throw .attributeError
  | _ => throw .typeError

/-- The loop of `_parse_blocks`. -/
def parseBlockList : List Json → Except PyError (List Block)
  | [] => pure []
  | x :: xs => do
    let b ← parseBlock x
    let bs ← parseBlockList xs
    return b :: bs

/-- One turn of the loop of `_parse_blocks`. -/
def parseBlock : Json → Except PyError Block
  | .obj fields => parseBlockOf rt fields (parseFields fields)
  | _ => throw .attributeError

/-- The blocks in the fields of an object. -/
def parseFields : List (PyStr × Json) → Dict PyStr Nested
  | [] => []
  | (k, v) :: rest => (k, ⟨parseBlocks v, parseOptional v⟩) :: parseFields rest

/-- `_parse_optional_block` before the block's type is looked at. -/
def parseOptional : Json → Except PyError (Option Block)
  | .obj fields => some <$> parseBlockOf rt fields (parseFields fields)
  | _ => pure none

end

/-- `build_report_document`. -/
def buildReportDocument (result : Json.Fields) : Except PyError ReportDocument := do
  let rawMetadata ← itemsOf ((result.get (py "metadata")).or (.obj []))
  let rawProvenance ← itemsOf ((result.get (py "provenance")).or (.obj []))
  let blocks ← parseBlocks rt (result.getD (py "blocks") (.arr []))
  return {
    title := rawMetadata.getD (py "title") (.str (py "Report"))
    blocks
    metadata := rawMetadata.filterMap fun p =>
      if p.1 = py "title" then none else (strOrNone rt p.2).map fun v => ⟨.str p.1, v⟩
    provenance := rawProvenance.filterMap fun p =>
      (strOrNone rt p.2).map fun v => ⟨.str p.1, v⟩ }
where
  /-- The items of a dictionary. -/
  itemsOf : Json → Except PyError Json.Fields
    | .obj fields => pure fields
    | _ => throw .attributeError

end Parser

/-! ## The screenshots of a declarative result -/

/-- The elements of the field `screenshots`. -/
def screenshotItems (fields : Json.Fields) : List Json :=
  match fields.getD (py "screenshots") (.arr []) with
  | .arr xs => xs
  | _ => []

/-- The objects one object is read as screenshots of, given those of its fields. -/
def rawScreenshotsOf (fields : Json.Fields) (nested : Dict PyStr (List Json)) : List Json :=
  match BlockKind.ofJson? (fields.get (py "type")) with
  | some .screenshot => [.obj fields]
  | some .incidentEvidence => screenshotItems fields
  | some .analysisReference =>
    screenshotItems fields ++
      ((Dict.get? nested (py "children")).orElse fun _ => Dict.get? nested (py "blocks")).getD []
  | _ => []

mutual

/-- The objects `_parse_blocks` reads as screenshots, at any depth. -/
def rawScreenshots : Json → List Json
  | .arr xs => rawScreenshotList xs
  | _ => []

/-- The objects read as screenshots in a list of blocks. -/
def rawScreenshotList : List Json → List Json
  | [] => []
  | x :: xs => blockRawScreenshots x ++ rawScreenshotList xs

/-- The objects read as screenshots in one block. -/
def blockRawScreenshots : Json → List Json
  | .obj fields => rawScreenshotsOf fields (rawScreenshotFields fields)
  | _ => []

/-- The objects read as screenshots in each field. -/
def rawScreenshotFields : List (PyStr × Json) → Dict PyStr (List Json)
  | [] => []
  | (k, v) :: rest => (k, rawScreenshots v) :: rawScreenshotFields rest

end

section Screenshots

variable {rt : PyRuntime}

/-- The screenshots `shots` are read from the objects `raws`, in order. -/
abbrev ReadAs (raws : List Json) (shots : List Screenshot) : Prop :=
  List.Forall₂ (fun raw shot => screenshotFromDict raw = .ok shot) raws shots

lemma parseEach_screenshots {fields : Json.Fields} {shots : List Screenshot}
    (h : parseEach fields (py "screenshots") screenshotFromDict = .ok shots) :
    ReadAs (screenshotItems fields) shots := by
  obtain ⟨items, hitems, hshots⟩ := Except.bind_eq_ok.mp h
  have hread := Except.mapM_eq_ok.mp hshots
  unfold screenshotItems
  generalize fields.getD (py "screenshots") (.arr []) = v at hitems
  cases v with
  | arr xs =>
    cases hitems
    exact hread
  | obj fs =>
    -- the keys of an object are texts, which are no screenshots
    cases hitems
    cases fs with
    | nil =>
      cases hread
      exact .nil
    | cons p fs =>
      cases hread with
      | cons hp _ => cases hp
  | str s =>
    cases hitems
    cases s with
    | nil =>
      cases hread
      exact .nil
    | cons c s =>
      cases hread with
      | cons hc _ => cases hc
  | null | bool | int | float => cases hitems

/-- How the blocks parsed in the fields and the screenshots found in them correspond. -/
structure NestedRead (nested : Dict PyStr Nested) (raws : Dict PyStr (List Json)) : Prop where
  none : ∀ k, Dict.get? nested k = none → Dict.get? raws k = none
  some : ∀ k n, Dict.get? nested k = some n → ∃ r, Dict.get? raws k = some r ∧
    ∀ bs, n.blocks = .ok bs → ReadAs r (blockListScreenshots bs)

/-- The screenshots of the children of an analysis reference. -/
lemma childBlocks_screenshots {nested : Dict PyStr Nested} {raws : Dict PyStr (List Json)}
    (hn : NestedRead nested raws) {bs : List Block} (h : childBlocks nested = .ok bs) :
    ReadAs (((Dict.get? raws (py "children")).orElse fun _ =>
      Dict.get? raws (py "blocks")).getD []) (blockListScreenshots bs) := by
  unfold childBlocks at h
  cases hc : Dict.get? nested (py "children") with
  | some n =>
    rw [hc] at h
    obtain ⟨r, hr, hread⟩ := hn.some _ n hc
    rw [hr]
    exact hread bs h
  | none =>
    rw [hc] at h
    rw [hn.none _ hc]
    cases hb : Dict.get? nested (py "blocks") with
    | some n =>
      rw [hb] at h
      obtain ⟨r, hr, hread⟩ := hn.some _ n hb
      rw [hr]
      exact hread bs h
    | none =>
      rw [hb] at h
      rw [hn.none _ hb]
      cases h
      exact .nil

/-- The screenshots of one parsed block. -/
lemma parseBlockOf_screenshots {fields : Json.Fields} {nested : Dict PyStr Nested}
    {raws : Dict PyStr (List Json)} (hn : NestedRead nested raws) {b : Block}
    (h : parseBlockOf rt fields nested = .ok b) :
    ReadAs (rawScreenshotsOf fields raws) b.screenshots := by
  unfold parseBlockOf at h
  unfold rawScreenshotsOf
  dsimp only at h
  cases hk : BlockKind.ofJson? (fields.get (py "type")) with
  | none =>
    rw [hk] at h
    cases h
  | some kind =>
    rw [hk] at h
    cases kind with
    | heading =>
      obtain ⟨text, -, h⟩ := Except.bind_eq_ok.mp h
      obtain ⟨level, -, h⟩ := Except.bind_eq_ok.mp h
      cases h
      exact .nil
    | paragraph | link | logFileReference | alertNavigation =>
      obtain ⟨x, -, h⟩ := Except.bind_eq_ok.mp h
      cases h
      exact .nil
    | bilingualText | divider | pageBreak =>
      cases h
      exact .nil
    | metadata | findList =>
      obtain ⟨x, -, h⟩ := Except.bind_eq_ok.mp h
      obtain ⟨y, -, h⟩ := Except.bind_eq_ok.mp h
      cases h
      exact .nil
    | screenshot =>
      obtain ⟨shot, hshot, h⟩ := Except.bind_eq_ok.mp h
      cases h
      exact .cons hshot .nil
    | bilingualFindList =>
      obtain ⟨headingZh, -, h⟩ := Except.bind_eq_ok.mp h
      obtain ⟨headingEn, -, h⟩ := Except.bind_eq_ok.mp h
      obtain ⟨findsZh, -, h⟩ := Except.bind_eq_ok.mp h
      obtain ⟨findsEn, -, h⟩ := Except.bind_eq_ok.mp h
      cases h
      exact .nil
    | incidentEvidence =>
      obtain ⟨e, he, h⟩ := Except.bind_eq_ok.mp h
      cases h
      obtain ⟨heading, -, he⟩ := Except.bind_eq_ok.mp he
      obtain ⟨metadata, -, he⟩ := Except.bind_eq_ok.mp he
      obtain ⟨link, -, he⟩ := Except.bind_eq_ok.mp he
      obtain ⟨links, -, he⟩ := Except.bind_eq_ok.mp he
      obtain ⟨logFile, -, he⟩ := Except.bind_eq_ok.mp he
      obtain ⟨shots, hshots, he⟩ := Except.bind_eq_ok.mp he
      cases he
      exact parseEach_screenshots hshots
    | analysisReference =>
      obtain ⟨metadata, -, h⟩ := Except.bind_eq_ok.mp h
      obtain ⟨provenance, -, h⟩ := Except.bind_eq_ok.mp h
      obtain ⟨children, hchildren, h⟩ := Except.bind_eq_ok.mp h
      obtain ⟨shots, hshots, h⟩ := Except.bind_eq_ok.mp h
      obtain ⟨logFile, -, h⟩ := Except.bind_eq_ok.mp h
      obtain ⟨summary, -, h⟩ := Except.bind_eq_ok.mp h
      obtain ⟨keyFinds, -, h⟩ := Except.bind_eq_ok.mp h
      obtain ⟨secondaryFinds, -, h⟩ := Except.bind_eq_ok.mp h
      obtain ⟨likelyCause, -, h⟩ := Except.bind_eq_ok.mp h
      obtain ⟨recommendedAction, -, h⟩ := Except.bind_eq_ok.mp h
      cases h
      exact List.rel_append (parseEach_screenshots hshots) (childBlocks_screenshots hn hchildren)

mutual

/-- **The screenshots of parsed blocks** are read, in order, from the objects that
`rawScreenshots` finds in the declarative result. -/
theorem parseBlocks_screenshots (raw : Json) (bs : List Block) (h : parseBlocks rt raw = .ok bs) :
    ReadAs (rawScreenshots raw) (blockListScreenshots bs) := by
  cases raw with
  | arr xs => exact parseBlockList_screenshots xs bs h
  | obj fields =>
    simp only [parseBlocks] at h
    split at h <;> cases h
    exact .nil
  | str s =>
    simp only [parseBlocks] at h
    split at h <;> cases h
    exact .nil
  | null | bool | int | float => cases h

theorem parseBlockList_screenshots (xs : List Json) (bs : List Block)
    (h : parseBlockList rt xs = .ok bs) :
    ReadAs (rawScreenshotList xs) (blockListScreenshots bs) := by
  cases xs with
  | nil =>
    cases h
    exact .nil
  | cons x xs =>
    obtain ⟨b, hb, h⟩ := Except.bind_eq_ok.mp h
    obtain ⟨bs, hbs, h⟩ := Except.bind_eq_ok.mp h
    cases h
    exact List.rel_append (parseBlock_screenshots x b hb) (parseBlockList_screenshots xs bs hbs)

theorem parseBlock_screenshots (raw : Json) (b : Block) (h : parseBlock rt raw = .ok b) :
    ReadAs (blockRawScreenshots raw) b.screenshots := by
  cases raw with
  | obj fields => exact parseBlockOf_screenshots (parseFields_screenshots fields) h
  | null | bool | int | float | str | arr => cases h

theorem parseFields_screenshots (fields : List (PyStr × Json)) :
    NestedRead (parseFields rt fields) (rawScreenshotFields fields) := by
  cases fields with
  | nil => exact ⟨fun _ _ => rfl, fun _ _ h => by cases h⟩
  | cons p rest =>
    obtain ⟨k, v⟩ := p
    obtain ⟨hnone, hsome⟩ := parseFields_screenshots rest
    constructor
    · intro i hi
      rw [parseFields, Dict.get?_cons] at hi
      rw [rawScreenshotFields, Dict.get?_cons]
      split at hi
      · cases hi
      · next hne =>
        rw [if_neg hne]
        exact hnone i hi
    · intro i n hi
      rw [parseFields, Dict.get?_cons] at hi
      rw [rawScreenshotFields, Dict.get?_cons]
      split at hi
      · next heq =>
        cases hi
        exact ⟨_, if_pos heq, fun bs hbs => parseBlocks_screenshots v bs hbs⟩
      · next hne =>
        rw [if_neg hne]
        exact hsome i n hi

end

end Screenshots

end Report

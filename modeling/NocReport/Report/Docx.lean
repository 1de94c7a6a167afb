import NocReport.Report.Document

set_option relaxedAutoImplicit false
set_option autoImplicit false

/-!
# The DOCX renderer

How a report document is rendered (`docx_render.py`). A DOCX is the sequence of its paragraphs and
tables with what stands in them; fonts, colours, borders and spacing are left out. A picture is
represented by the screenshot whose bytes it shows.

## Main definitions

* `Report.Docx` — the rendered document.
* `Report.RenderEnv` — the libraries, and where the images come from.
* `Report.renderBlock`, `Report.renderDocument` — the renderer.
* `Report.Links` — the anchors that internal hyperlinks name and the bookmarks that are created.
* `Report.LinksResolve` — every internal hyperlink leads somewhere.
* `Report.Mark` — what leads somewhere, is led to, or is a picture; `Report.Block.marks`, the marks
  a block is rendered with.
* `Report.Docx.pictures` — the pictures of the rendered document.

## Main results

* `Report.renderBlock_marks`, `Report.renderDocument_marks` — the marks of what is rendered are
  those of the blocks.
* `Report.renderDocument_links`, `Report.renderDocument_pictures` — and so are the links and the
  pictures.
-/

namespace Report

/-! ## The rendered document -/

/-- What stands in a paragraph. -/
inductive Inline where
  | run (text : PyStr)
  | pageBreak
  | hyperlink (url text : PyStr)
  | internalHyperlink (anchor text : PyStr)
  | bookmarkStart (id : ℤ) (name : PyStr)
  | bookmarkEnd (id : ℤ)
  | picture (shot : Screenshot)

structure DocxParagraph where
  style : PyStr
  content : List Inline

/-- An element of the body. -/
inductive BodyElement where
  | paragraph (p : DocxParagraph)
  | table (rows : List (List DocxParagraph))

structure Docx where
  header : List Inline
  footer : List Inline
  body : List BodyElement

/-! ## The libraries -/

/-- A screenshot fetcher, called with or without the version and the digest; it may answer
`None`. -/
structure ScreenshotFetcher where
  versioned : (bucket objectKey versionId sha256 : Json) → Except PyError (Option (List UInt8))
  unversioned : (bucket objectKey : Json) → Except PyError (Option (List UInt8))

/-- The bounds a picture is scaled to. -/
inductive PictureBounds
  | single | pair
  deriving DecidableEq, Repr

/-- The libraries the renderer uses. -/
structure RenderEnv extends PyRuntime where
  /-- what python-docx writes for a value that is given as the text of a run -/
  runText : Json → Except PyError PyStr
  /-- the paragraph style that python-docx finds under a name -/
  paragraphStyle : Json → Except PyError PyStr
  /-- `int(s, 16)` -/
  parseHex : PyStr → Option ℤ
  /-- `str.casefold` -/
  casefold : PyStr → PyStr
  /-- `_scaled_dimensions`, the width only, in EMU -/
  scaledWidth : List UInt8 → PictureBounds → Except PyError ℤ
  screenshotFetcher : Option ScreenshotFetcher

/-- `EvidenceIntegrityError`. -/
def evidenceIntegrityError (message : PyStr) : PyError :=
  .custom (py "EvidenceIntegrityError") message

/-- `EvidenceRetrievalError`. -/
def evidenceRetrievalError (message : PyStr) : PyError :=
  .custom (py "EvidenceRetrievalError") message

/-- `except Exception as exc: raise EvidenceIntegrityError(message)`. -/
def orIntegrityError {α : Type} (message : PyStr) : Except PyError α → Except PyError α
  | .error _ => .error (evidenceIntegrityError message)
  | result => result

/-- The code points that lxml accepts. -/
def xmlChar (c : ℕ) : Bool :=
  c == 9 || c == 10 || c == 13 || (0x20 ≤ c && c ≤ 0xD7FF) || (0xE000 ≤ c && c ≤ 0xFFFD) ||
    0x10000 ≤ c

/-- `element.set(name, v)`: the value of the attribute. -/
def xmlAttribute : Json → Except PyError PyStr
  | .str s =>
    if s.all xmlChar then pure s else throw (.valueError (py
      "All strings must be XML compatible: Unicode or ASCII, no NULL bytes or control characters"))
  | _ => throw .typeError

/-- `element.text = v`: the text of the element. -/
def xmlText : Json → Except PyError PyStr
  | .null => pure []
  | v => xmlAttribute v

section Renderer

variable (env : RenderEnv)

/-! ## Paragraphs, links and bookmarks -/

/-- `paragraph.add_run(v)`. -/
def addRun (v : Json) : Except PyError Inline :=
  if v.truthy then do
    let t ← env.runText v
    return .run t
  else return .run []

/-- `doc.add_paragraph(v, style)`; a value that is false adds no run. -/
def addParagraph (v : Json) (style : PyStr) : Except PyError DocxParagraph :=
  if v.truthy then do
    let r ← addRun env v
    return ⟨style, [r]⟩
  else return ⟨style, []⟩

/-- What is added under a condition. -/
def addWhen {α : Type} (condition : Bool) (add : Except PyError α) : Except PyError (List α) :=
  if condition then do
    let a ← add
    return [a]
  else return []

/-- The default style. -/
def normal : PyStr := py "Normal"

/-- `doc.add_heading(v, level)`. -/
def addHeading (v : Json) (level : ℤ) : Except PyError DocxParagraph :=
  if 0 ≤ level ∧ level ≤ 9 then
    addParagraph env v (if level = 0 then py "Title" else py "Heading " ++ .ofInt level)
  else throw (.valueError (py "level must be in range 0-9, got " ++ .ofInt level))

/-- `_add_hyperlink`. -/
def addHyperlink (url linkText : Json) : Except PyError Inline := do
  let url ← xmlAttribute url
  let linkText ← xmlText linkText
  return .hyperlink url linkText

/-- `_add_internal_hyperlink`. -/
def addInternalHyperlink (target linkText : Json) : Except PyError Inline := do
  let target ← xmlAttribute target
  let linkText ← xmlText linkText
  return .internalHyperlink target linkText

/-- `name.rsplit("_", 1)[-1]`. -/
def lastPart (name : PyStr) : PyStr := (name.reverse.takeWhile fun c => c != 95).reverse

/-- The numeric id of a bookmark. -/
def bookmarkId (name : PyStr) : Except PyError ℤ :=
  if name = py "alerts_start" then return 0
  else match env.parseHex (lastPart name) with
    | some id => return id
    | none => throw (.valueError
        (py "invalid literal for int() with base 16: " ++ env.repr (.str (lastPart name))))

/-- `_add_bookmark`: the paragraph with a bookmark around its content. -/
def addBookmark (p : DocxParagraph) : Json → Except PyError DocxParagraph
  | .str name => do
    let id ← bookmarkId env name
    let name ← xmlAttribute (.str name)
    return { p with content := .bookmarkStart id name :: p.content ++ [.bookmarkEnd id] }
  | _ => throw .attributeError

/-- `_add_link_paragraph`. -/
def addLinkParagraph (link : Link) : Except PyError DocxParagraph := do
  let h ← addHyperlink link.url (link.linkPrefix.or link.label)
  return ⟨normal, [h]⟩

/-- `doc.add_paragraph(f"{metadata.label}: {metadata.value}")`. -/
def addMetadata (b : Metadata) : Except PyError DocxParagraph :=
  addParagraph env (.str (env.str b.label ++ py ": " ++ b.value)) normal

/-! ## Screenshots -/

/-- `shot.filename or shot.object_key`. -/
def Screenshot.label (shot : Screenshot) : Json := shot.filename.or shot.objectKey

/-- `_fetch_screenshot`. -/
def fetchScreenshot (shot : Screenshot) : Except PyError (List UInt8) :=
  match env.screenshotFetcher with
  | none => throw (evidenceIntegrityError
      (py "no screenshot fetcher for frozen evidence: " ++ env.str shot.label))
  | some fetcher => do
    let data ←
      match fetcher.versioned shot.bucket shot.objectKey shot.versionId shot.sha256 with
      | .error .typeError => fetcher.unversioned shot.bucket shot.objectKey
      | result => result
    match data with
    | some (byte :: bytes) => return byte :: bytes
    | _ => throw (evidenceRetrievalError (py "frozen screenshot could not be retrieved: " ++
        env.str shot.bucket ++ py "/" ++ env.str shot.objectKey))

/-- `_add_picture`, in a paragraph of its own. -/
def addPicture (shot : Screenshot) (data : List UInt8) : Except PyError DocxParagraph := do
  let _ ← env.scaledWidth data .single
  return ⟨normal, [.picture shot]⟩

/-- `_add_screenshot`. -/
def addScreenshot (shot : Screenshot) : Except PyError BodyElement := do
  let data ← fetchScreenshot env shot
  let p ← orIntegrityError
    (py "frozen screenshot is not a valid image: " ++ env.str shot.label) (addPicture env shot data)
  return .paragraph p

/-- `word in name`. -/
def mentions (name : PyStr) (word : String) : Bool :=
  name.tails.any fun rest => (py word).isPrefixOf rest

/-- `_screenshot_label`. -/
def screenshotLabel (shot : Screenshot) (index : ℕ) : Except PyError PyStr :=
  match shot.label with
  | .str name =>
    if mentions (env.casefold name) "recover" then return py "Recovered"
    else if mentions (env.casefold name) "trigger" then return py "Triggered"
    else return py "Screenshot " ++ .ofNat index
  | _ => throw .attributeError

/-- `_EMU_PER_INCH`. -/
def emuPerInch : ℤ := 914400

/-- `width / _EMU_PER_INCH < 2.15`. -/
def narrow (width : ℤ) : Bool := width * 100 < 215 * emuPerInch

/-- A screenshot of a pair: its label above it. -/
def stackedScreenshot (shot : Screenshot) (index : ℕ) (data : List UInt8) :
    Except PyError (List BodyElement) := do
  let label ← screenshotLabel env shot index
  let label ← addParagraph env (.str label) normal
  let p ← addPicture env shot data
  return [.paragraph label, .paragraph p]

/-- A screenshot of a pair: the cell with its label and the cell with the picture. -/
def screenshotCells (shot : Screenshot) (index : ℕ) :
    Except PyError (DocxParagraph × DocxParagraph) := do
  let label ← screenshotLabel env shot index
  let label ← addRun env (.str label)
  return (⟨normal, [label]⟩, ⟨normal, [.picture shot]⟩)

/-- The pair of screenshots, on top of each other when one is narrow, else side by side. -/
def placePair (first second : Screenshot) (firstData secondData : List UInt8) :
    Except PyError (List BodyElement) := do
  let firstWidth ← env.scaledWidth firstData .pair
  let secondWidth ← env.scaledWidth secondData .pair
  if narrow firstWidth || narrow secondWidth then
    let above ← stackedScreenshot env first 1 firstData
    let below ← stackedScreenshot env second 2 secondData
    return above ++ below
  else
    let left ← screenshotCells env first 1
    let right ← screenshotCells env second 2
    return [.table [[left.1, right.1], [left.2, right.2]]]

/-- `_add_screenshots`. -/
def addScreenshots : List Screenshot → Except PyError (List BodyElement)
  | [first, second] => do
    let firstData ← fetchScreenshot env first
    let secondData ← fetchScreenshot env second
    orIntegrityError (py "frozen screenshot pair contains an invalid image")
      (placePair env first second firstData secondData)
  | shots => shots.mapM (addScreenshot env)

/-! ## Blocks -/

/-- An entry of the alert navigation. -/
def addNavigationEntry (entry : NavigationEntry) : Except PyError BodyElement := do
  let h ← addInternalHyperlink entry.target (.str entry.text)
  return .paragraph ⟨py "List Bullet", [h]⟩

/-- `_add_alert_navigation`. -/
def addAlertNavigation (entries : List NavigationEntry) : Except PyError (List BodyElement) := do
  let heading ← addHeading env (.str (py "Alert Navigation")) 3
  let heading ← addBookmark env heading (.str (py "alerts_start"))
  let items ← entries.mapM addNavigationEntry
  return .paragraph heading :: items

/-- The name of a log file, as a link when it has an address. -/
def addLogFileName (b : LogFileReference) : Except PyError Inline :=
  if b.url.truthy then addHyperlink b.url b.filename else addRun env b.filename

/-- `_add_log_file`. -/
def addLogFile (b : LogFileReference) : Except PyError BodyElement := do
  let label ← addRun env (.str (py "Log File: "))
  let file ← addLogFileName env b
  return .paragraph ⟨normal, [label, file]⟩

/-- The statistic behind the label of a finding. -/
def findStats (zh : Bool) (stat : Option PyStr) : PyStr :=
  match stat with
  | none => []
  | some stat =>
    if stat.isEmpty then []
    else if zh then py "（" ++ stat ++ py "）" else py " (" ++ stat ++ py ")"

/-- One finding of a list. -/
def addFind (zh : Bool) (number : ℕ) (find : Find) : Except PyError BodyElement := do
  let number ← addRun env (.str (.ofNat number ++ py ". "))
  let label ← addRun env (.str find.label)
  let stats := findStats zh find.stat
  let stats ← addWhen (!stats.isEmpty) (addRun env (.str stats))
  let detail := find.detail.getD []
  let detail ← addWhen (!detail.isEmpty) (addRun env (.str (py " - " ++ detail)))
  return .paragraph ⟨normal, number :: label :: stats ++ detail⟩

/-- `_add_finds`. -/
def addFinds (heading : PyStr) (finds : List Find) (zh : Bool) :
    Except PyError (List BodyElement) := do
  let heading ← addParagraph env (.str heading) (py "Intense Quote")
  let items ← finds.zipIdx.mapM fun p => addFind env zh (p.2 + 1) p.1
  return .paragraph heading :: items

/-- `_add_bilingual_find_list`. -/
def addBilingualFindList (b : BilingualFindList) : Except PyError (List BodyElement) := do
  let zh ← addFinds env b.headingZh b.findsZh true
  let en ← addFinds env b.headingEn b.findsEn false
  return zh ++ en

/-- One language of a bilingual text. -/
def addLanguage (heading body : Json) : Except PyError (List BodyElement) := do
  let headings ← addWhen heading.truthy (addHeading env heading 3)
  let body ← addParagraph env body normal
  return (headings ++ [body]).map .paragraph

/-- `_add_bilingual_text`. -/
def addBilingualText (b : BilingualText) : Except PyError (List BodyElement) := do
  let zh ← addLanguage env b.headingZh b.textZh
  let en ← addLanguage env b.headingEn b.textEn
  return zh ++ en

/-- The elements added for a part of a block that may be missing. -/
def addOptional {α : Type} (add : α → Except PyError (List BodyElement)) :
    Option α → Except PyError (List BodyElement)
  | none => return []
  | some a => add a

/-- The two texts of a bilingual text, each in a paragraph unless it is empty. -/
def addTexts (b : BilingualText) : Except PyError (List BodyElement) := do
  let texts ← ([b.textZh, b.textEn].filter Json.truthy).mapM fun v => addParagraph env v normal
  return texts.map .paragraph

/-- The title of an incident, as a link when it has a target. -/
def addAlertTitle (b : IncidentEvidence) : Except PyError Inline :=
  if b.navigationTarget.truthy then addInternalHyperlink b.navigationTarget b.heading
  else addRun env b.heading

/-- The heading of an incident, which leads to its analysis. -/
def addAlertHeading (b : IncidentEvidence) : Except PyError BodyElement := do
  let heading ← addHeading env (.str []) 2
  let content ← addAlertTitle env b
  return .paragraph { heading with content := heading.content ++ [content] }

/-- A fact about an incident. -/
def addFact (b : Metadata) : Except PyError BodyElement := do
  let label ← addRun env (.str (env.str b.label ++ py ": "))
  let value ← addRun env (.str b.value)
  return .paragraph ⟨normal, [label, value]⟩

/-- `_add_incident_evidence`. -/
def addIncidentEvidence (includeProvenance : Bool) (b : IncidentEvidence) :
    Except PyError (List BodyElement) := do
  let heading ← addAlertHeading env b
  let shots ← addScreenshots env b.screenshots
  let facts ← b.metadata.mapM (addFact env)
  let links ← (b.link.toList ++ b.links).mapM addLinkParagraph
  let logFile ← b.logFile.toList.mapM (addLogFile env)
  let provenance ← addWhen (includeProvenance && b.incidentId.truthy)
    (addParagraph env (.str (py "Incident ID: " ++ env.str b.incidentId)) normal)
  return heading :: shots ++ facts ++ links.map .paragraph ++ logFile ++ provenance.map .paragraph

/-- The heading of an analysis with its bookmark, if it has one. -/
def addAnalysisBookmark (b : AnalysisFields) (heading : DocxParagraph) :
    Except PyError DocxParagraph :=
  if b.bookmark.truthy then addBookmark env heading b.bookmark else return heading

/-- The heading of an analysis. -/
def addAnalysisHeading (b : AnalysisFields) : Except PyError BodyElement := do
  let heading ← addHeading env (.str b.heading) 2
  let heading ← addAnalysisBookmark env b heading
  return .paragraph heading

/-- What only the audit rendering shows of an analysis. -/
def addAnalysisProvenance (includeProvenance : Bool) (b : AnalysisFields) :
    Except PyError (List BodyElement) :=
  if includeProvenance then do
    let runs ← (b.analysisRunId.toList.filter fun id => !id.isEmpty).mapM fun id =>
      addParagraph env (.str (py "Analysis reference: " ++ id)) normal
    let facts ← (b.metadata ++ b.provenance).mapM (addMetadata env)
    return (runs ++ facts).map .paragraph
  else return []

/-- What stands above the body of an analysis. -/
def addAnalysisFront (includeProvenance : Bool) (b : AnalysisFields) :
    Except PyError (List BodyElement) := do
  let heading ← addAnalysisHeading env b
  let shots ← addScreenshots env b.screenshots
  let logFile ← b.logFile.toList.mapM (addLogFile env)
  let provenance ← addAnalysisProvenance env includeProvenance b
  return heading :: shots ++ logFile ++ provenance

/-- The fields of an analysis that old reports have in place of children. -/
def addCompatibilityFields (b : AnalysisFields) : Except PyError (List BodyElement) := do
  let summary ← addOptional (addBilingualText env) b.summary
  let keyFinds ← addOptional (addBilingualFindList env) b.keyFinds
  let secondaryFinds ← addOptional (addBilingualFindList env) b.secondaryFinds
  let likelyCause ← addOptional (addTexts env) b.likelyCause
  let recommendedAction ← addOptional (addTexts env) b.recommendedAction
  return summary ++ keyFinds ++ secondaryFinds ++ likelyCause ++ recommendedAction

/-- The link back to the navigation, below an analysis with a bookmark. -/
def addBackLink (b : AnalysisFields) : Except PyError (List BodyElement) :=
  if b.bookmark.truthy then do
    let h ← addInternalHyperlink (.str (py "alerts_start")) (.str (py "↑ Back to Alerts"))
    return [.paragraph ⟨normal, [h]⟩]
  else return []

/-- `_add_analysis_reference`, given the elements of the children. -/
def addAnalysisReference (includeProvenance : Bool) (b : AnalysisFields)
    (children : Except PyError (List BodyElement)) : Except PyError (List BodyElement) := do
  let front ← addAnalysisFront env includeProvenance b
  if !b.available then
    let p ← addParagraph env (b.unavailableText.or (.str (py "No analysis available."))) normal
    return front ++ [.paragraph p]
  else
    let children ← children
    let fields ← addCompatibilityFields env b
    let back ← addBackLink b
    return front ++ children ++ fields ++ back

/-- A paragraph, in the style it names. -/
def addStyledParagraph (b : Paragraph) : Except PyError DocxParagraph := do
  let p ← addParagraph env b.text normal
  if b.style.truthy then
    let style ← env.paragraphStyle b.style
    return { p with style }
  else return p

mutual

/-- `_render_block`. -/
def renderBlock (includeProvenance : Bool) : Block → Except PyError (List BodyElement)
  | .heading b => (fun p => [.paragraph p]) <$> addHeading env b.text b.level
  | .paragraph b => (fun p => [.paragraph p]) <$> addStyledParagraph env b
  | .metadata b => (fun p => [.paragraph p]) <$> addMetadata env b
  | .link b => (fun p => [.paragraph p]) <$> addLinkParagraph b
  | .logFileReference b => (fun e => [e]) <$> addLogFile env b
  | .screenshot b => (fun e => [e]) <$> addScreenshot env b
  | .alertNavigation entries => addAlertNavigation env entries
  | .divider =>
    (fun p => [.paragraph p]) <$> addParagraph env (.str (List.replicate 20 0x2015)) normal
  | .pageBreak => return [.paragraph ⟨normal, [.pageBreak]⟩]
  | .bilingualText b => addBilingualText env b
  | .bilingualFindList b => addBilingualFindList env b
  | .findList b => addFinds env b.heading b.finds (b.language.isText "Chinese")
  | .incidentEvidence b => addIncidentEvidence env includeProvenance b
  | .analysisReference b children =>
    addAnalysisReference env includeProvenance b (renderBlocks includeProvenance children)

/-- The loop over the blocks of a document or the children of an analysis. -/
def renderBlocks (includeProvenance : Bool) : List Block → Except PyError (List BodyElement)
  | [] => return []
  | b :: bs => do
    let first ← renderBlock includeProvenance b
    let rest ← renderBlocks includeProvenance bs
    return first ++ rest

end

/-! ## The document -/

/-- The first value with a label, else the empty text. -/
def metadataValue (metadata : List Metadata) (label : String) : PyStr :=
  ((metadata.find? fun m => m.label.isText label).map (·.value)).getD []

/-- The footer; the number of the page follows it. -/
def addFooter (metadata : List Metadata) : Except PyError (List Inline) := do
  let values := [metadataValue metadata "Date", metadataValue metadata "Shift"]
  let values ← addRun env (.str ((py " · ").intercalate (values.filter fun v => !v.isEmpty)))
  let page ← addRun env (.str (py "  |  Page "))
  return [values, page]

/-- A value of the subtitle; a label that cannot be hashed raises. -/
def subtitleValue (item : Metadata) : Except PyError PyStr :=
  match item.label with
  | .arr _ | .obj _ => throw .typeError
  | label =>
    if label.isText "Date" || label.isText "Shift" then return item.value
    else return env.str label ++ py ": " ++ item.value

/-- The subtitle, unless there is nothing to show in it. -/
def addSubtitle (metadata : List Metadata) : Except PyError (List BodyElement) :=
  if metadata.isEmpty then return []
  else do
    let values ← metadata.mapM (subtitleValue env)
    let p ← addParagraph env (.str ((py " | ").intercalate values)) normal
    return [.paragraph p]

/-- The section of the audit rendering on where the report comes from. -/
def addProvenance (includeProvenance : Bool) (provenance : List Metadata) :
    Except PyError (List BodyElement) :=
  if includeProvenance && !provenance.isEmpty then do
    let heading ← addHeading env (.str (py "Audit Provenance")) 2
    let facts ← provenance.mapM (addMetadata env)
    return (heading :: facts).map .paragraph
  else return []

/-- `render_document`, up to writing the file. -/
def renderDocument (includeProvenance : Bool) (doc : ReportDocument) : Except PyError Docx := do
  let header ← addRun env doc.title
  let footer ← addFooter env doc.metadata
  let title ← addHeading env doc.title 0
  let subtitle ← addSubtitle env doc.metadata
  let provenance ← addProvenance env includeProvenance doc.provenance
  let blocks ← renderBlocks env includeProvenance doc.blocks
  return ⟨[header], footer, .paragraph title :: subtitle ++ provenance ++ blocks⟩

end Renderer

/-! ## Links -/

/-- The anchors that internal hyperlinks name, and the bookmarks that are created. -/
@[ext]
structure Links where
  anchors : List PyStr
  bookmarks : List PyStr

namespace Links

/-- No link at all. -/
def none : Links := ⟨[], []⟩

instance : Append Links := ⟨fun a b => ⟨a.anchors ++ b.anchors, a.bookmarks ++ b.bookmarks⟩⟩

@[simp] lemma anchors_none : none.anchors = [] := rfl

@[simp] lemma bookmarks_none : none.bookmarks = [] := rfl

@[simp] lemma anchors_append (a b : Links) : (a ++ b).anchors = a.anchors ++ b.anchors := rfl

@[simp] lemma bookmarks_append (a b : Links) :
    (a ++ b).bookmarks = a.bookmarks ++ b.bookmarks := rfl

@[simp] lemma none_append (a : Links) : none ++ a = a := rfl

@[simp] lemma append_none (a : Links) : a ++ none = a := by
  ext1 <;> simp

lemma append_assoc (a b c : Links) : a ++ b ++ c = a ++ (b ++ c) := by
  ext1 <;> simp

end Links

/-- The link an inline is. -/
def Inline.links : Inline → Links
  | .internalHyperlink anchor _ => ⟨[anchor], []⟩
  | .bookmarkStart _ name => ⟨[], [name]⟩
  | _ => .none

/-- The links in the content of a paragraph. -/
def contentLinks : List Inline → Links
  | [] => .none
  | i :: is => i.links ++ contentLinks is

/-- The links in an element of the body. -/
def BodyElement.links : BodyElement → Links
  | .paragraph p => contentLinks p.content
  | .table rows => contentLinks (rows.flatten.flatMap (·.content))

/-- The links in a part of the body. -/
def bodyLinks : List BodyElement → Links
  | [] => .none
  | e :: es => e.links ++ bodyLinks es

/-- **Link integrity**: every internal hyperlink names a bookmark that is created exactly once. -/
def LinksResolve (docx : Docx) : Prop :=
  ∀ anchor ∈ (bodyLinks docx.body).anchors, (bodyLinks docx.body).bookmarks.count anchor = 1

/-- The text a value is, if it is one. -/
def textOf : Json → List PyStr
  | .str s => [s]
  | _ => []

/-- The name in a field, unless it is empty. -/
def nameOf (v : Json) : List PyStr := if v.truthy then textOf v else []

mutual

/-- The links a block is rendered with: a navigation is bookmarked itself, an incident leads to
its analysis, and an analysis is bookmarked and leads back to the navigation. -/
def Block.links : Block → Links
  | .alertNavigation entries => 
    ⟨entries.flatMap fun entry => textOf entry.target, [py "alerts_start"]⟩
  | .incidentEvidence b => ⟨nameOf b.navigationTarget, []⟩
  | .analysisReference b children =>
    ⟨[], nameOf b.bookmark⟩ ++ if b.available then
      blockLinks children ++ ⟨if b.bookmark.truthy then [py "alerts_start"] else [], []⟩ else .none
  | _ => .none

/-- The links a list of blocks is rendered with. -/
def blockLinks : List Block → Links
  | [] => .none
  | b :: bs => b.links ++ blockLinks bs

end

/-! ## Marks -/

/-- What of the content of a paragraph leads somewhere, is led to, or is a picture. -/
inductive Mark where
  | anchor (name : PyStr)
  | bookmark (name : PyStr)
  | picture (shot : Screenshot)

/-- The mark an inline is. -/
def Inline.marks : Inline → List Mark
  | .internalHyperlink anchor _ => [.anchor anchor]
  | .bookmarkStart _ name => [.bookmark name]
  | .picture shot => [.picture shot]
  | _ => []

/-- The marks in the content of a paragraph. -/
def contentMarks (is : List Inline) : List Mark := is.flatMap Inline.marks

/-- The marks in an element of the body. -/
def BodyElement.marks : BodyElement → List Mark
  | .paragraph p => contentMarks p.content
  | .table rows => contentMarks (rows.flatten.flatMap (·.content))

/-- The marks in a part of the body. -/
def bodyMarks (es : List BodyElement) : List Mark := es.flatMap BodyElement.marks

/-- The name that a mark leads to. -/
def Mark.anchor? : Mark → Option PyStr
  | .anchor name => some name
  | _ => none

/-- The name that a mark is led to by. -/
def Mark.bookmark? : Mark → Option PyStr
  | .bookmark name => some name
  | _ => none

/-- The picture a mark is. -/
def Mark.picture? : Mark → Option Screenshot
  | .picture shot => some shot
  | _ => none

/-- The pictures of a rendered document. -/
def Docx.pictures (docx : Docx) : List Screenshot :=
  (contentMarks docx.header ++ contentMarks docx.footer ++ bodyMarks docx.body).filterMap
    Mark.picture?

/-- The links among some marks. -/
def marksLinks (ms : List Mark) : Links := ⟨ms.filterMap Mark.anchor?, ms.filterMap Mark.bookmark?⟩

mutual

/-- The marks a block is rendered with, in order. -/
def Block.marks : Block → List Mark
  | .screenshot b => [.picture b]
  | .alertNavigation entries =>
    .bookmark (py "alerts_start") ::
      entries.flatMap fun entry => (textOf entry.target).map .anchor
  | .incidentEvidence b => (nameOf b.navigationTarget).map .anchor ++ b.screenshots.map .picture
  | .analysisReference b children =>
    (nameOf b.bookmark).map .bookmark ++ b.screenshots.map .picture ++ if b.available then
      blockMarks children ++ if b.bookmark.truthy then [.anchor (py "alerts_start")] else []
    else []
  | _ => []

/-- The marks a list of blocks is rendered with, in order. -/
def blockMarks : List Block → List Mark
  | [] => []
  | b :: bs => b.marks ++ blockMarks bs

end

section MarkLemmas

variable {env : RenderEnv}

@[simp]
lemma contentMarks_nil : contentMarks [] = [] := rfl

@[simp]
lemma contentMarks_cons (i : Inline) (is : List Inline) :
    contentMarks (i :: is) = i.marks ++ contentMarks is := rfl

lemma contentMarks_append (is js : List Inline) :
    contentMarks (is ++ js) = contentMarks is ++ contentMarks js := List.flatMap_append

@[simp]
lemma bodyMarks_nil : bodyMarks [] = [] := rfl

@[simp]
lemma bodyMarks_cons (e : BodyElement) (es : List BodyElement) :
    bodyMarks (e :: es) = e.marks ++ bodyMarks es := rfl

lemma bodyMarks_append (es fs : List BodyElement) :
    bodyMarks (es ++ fs) = bodyMarks es ++ bodyMarks fs := List.flatMap_append

lemma bodyMarks_eq_nil {es : List BodyElement} (h : ∀ e ∈ es, e.marks = []) : bodyMarks es = [] :=
  List.flatMap_eq_nil_iff.mpr h

lemma contentMarks_eq_nil {is : List Inline} (h : ∀ i ∈ is, i.marks = []) : contentMarks is = [] :=
  List.flatMap_eq_nil_iff.mpr h

lemma bodyMarks_paragraphs {ps : List DocxParagraph}
    (h : ∀ p ∈ ps, contentMarks p.content = []) : bodyMarks (ps.map .paragraph) = [] := by
  refine bodyMarks_eq_nil fun e he => ?_
  obtain ⟨p, hp, rfl⟩ := List.mem_map.mp he
  exact h p hp

/-- Elements without marks that a loop adds. -/
lemma bodyMarks_mapM {α : Type} {add : α → Except PyError BodyElement} {xs : List α}
    {es : List BodyElement} (hadd : ∀ x e, add x = .ok e → e.marks = [])
    (h : xs.mapM add = .ok es) : bodyMarks es = [] := by
  refine bodyMarks_eq_nil fun e he => ?_
  obtain ⟨x, -, hx⟩ := Except.mem_of_mapM_eq_ok h he
  exact hadd x e hx

/-- Paragraphs without marks that a loop adds. -/
lemma bodyMarks_paragraphs_mapM {α : Type} {add : α → Except PyError DocxParagraph} {xs : List α}
    {ps : List DocxParagraph} (hadd : ∀ x p, add x = .ok p → contentMarks p.content = [])
    (h : xs.mapM add = .ok ps) : bodyMarks (ps.map .paragraph) = [] := by
  refine bodyMarks_paragraphs fun p hp => ?_
  obtain ⟨x, -, hx⟩ := Except.mem_of_mapM_eq_ok h hp
  exact hadd x p hx

/-- What is added under a condition has a property that it has without one. -/
lemma addWhen_forall {α : Type} {P : α → Prop} {condition : Bool} {add : Except PyError α}
    {as : List α} (hadd : ∀ a, add = .ok a → P a) (h : addWhen condition add = .ok as) :
    ∀ a ∈ as, P a := by
  intro a ha
  unfold addWhen at h
  split at h
  · obtain ⟨a', ha', h⟩ := Except.bind_eq_ok.mp h
    cases h
    rw [List.mem_singleton.mp ha]
    exact hadd a' ha'
  · cases h
    cases ha

lemma addRun_marks {v : Json} {r : Inline} (h : addRun env v = .ok r) : r.marks = [] := by
  unfold addRun at h
  split at h
  · obtain ⟨t, -, h⟩ := Except.bind_eq_ok.mp h
    cases h
    rfl
  · cases h
    rfl

lemma addParagraph_marks {v : Json} {style : PyStr} {p : DocxParagraph}
    (h : addParagraph env v style = .ok p) : contentMarks p.content = [] := by
  unfold addParagraph at h
  split at h
  · obtain ⟨r, hr, h⟩ := Except.bind_eq_ok.mp h
    cases h
    simp [addRun_marks hr]
  · cases h
    rfl

lemma addHeading_marks {v : Json} {level : ℤ} {p : DocxParagraph}
    (h : addHeading env v level = .ok p) : contentMarks p.content = [] := by
  unfold addHeading at h
  split at h
  · exact addParagraph_marks h
  · exact absurd h Except.throw_ne_ok

lemma addHyperlink_marks {url linkText : Json} {i : Inline}
    (h : addHyperlink url linkText = .ok i) : i.marks = [] := by
  obtain ⟨url, -, h⟩ := Except.bind_eq_ok.mp h
  obtain ⟨linkText, -, h⟩ := Except.bind_eq_ok.mp h
  cases h
  rfl

lemma xmlAttribute_eq_ok {v : Json} {s : PyStr} (h : xmlAttribute v = .ok s) : v = .str s := by
  unfold xmlAttribute at h
  split at h
  · split at h
    · rw [Except.pure_eq_ok] at h
      rw [h]
    · exact absurd h Except.throw_ne_ok
  · exact absurd h Except.throw_ne_ok

/-- An internal hyperlink names its target. -/
lemma addInternalHyperlink_marks {target linkText : Json} {i : Inline}
    (h : addInternalHyperlink target linkText = .ok i) :
    i.marks = (textOf target).map .anchor := by
  obtain ⟨anchor, hanchor, h⟩ := Except.bind_eq_ok.mp h
  obtain ⟨linkText, -, h⟩ := Except.bind_eq_ok.mp h
  cases h
  rw [xmlAttribute_eq_ok hanchor]
  rfl

/-- A bookmark is created under its name. -/
lemma addBookmark_marks {p p' : DocxParagraph} {name : Json} (hp : contentMarks p.content = [])
    (h : addBookmark env p name = .ok p') :
    contentMarks p'.content = (textOf name).map .bookmark := by
  unfold addBookmark at h
  split at h
  · next name =>
    obtain ⟨id, -, h⟩ := Except.bind_eq_ok.mp h
    obtain ⟨name', hname, h⟩ := Except.bind_eq_ok.mp h
    cases h
    cases xmlAttribute_eq_ok hname
    rw [List.cons_append, contentMarks_cons, contentMarks_append, hp]
    rfl
  · exact absurd h Except.throw_ne_ok

lemma addLinkParagraph_marks {link : Link} {p : DocxParagraph}
    (h : addLinkParagraph link = .ok p) : contentMarks p.content = [] := by
  obtain ⟨i, hi, h⟩ := Except.bind_eq_ok.mp h
  cases h
  simp [addHyperlink_marks hi]

lemma addLogFile_marks {b : LogFileReference} {e : BodyElement} (h : addLogFile env b = .ok e) :
    e.marks = [] := by
  obtain ⟨label, hlabel, h⟩ := Except.bind_eq_ok.mp h
  obtain ⟨file, hfile, h⟩ := Except.bind_eq_ok.mp h
  cases h
  have hfile : file.marks = [] := by
    unfold addLogFileName at hfile
    split at hfile
    · exact addHyperlink_marks hfile
    · exact addRun_marks hfile
  simp [BodyElement.marks, addRun_marks hlabel, hfile]

/-! ### Screenshots -/

lemma ok_of_orIntegrityError {α : Type} {message : PyStr} {x : Except PyError α} {a : α}
    (h : orIntegrityError message x = .ok a) : x = .ok a := by
  unfold orIntegrityError at h
  split at h
  · cases h
  · exact h

/-- A picture shows its screenshot. -/
lemma addPicture_marks {shot : Screenshot} {data : List UInt8} {p : DocxParagraph}
    (h : addPicture env shot data = .ok p) : contentMarks p.content = [.picture shot] := by
  obtain ⟨width, -, h⟩ := Except.bind_eq_ok.mp h
  cases h
  rfl

lemma addScreenshot_marks {shot : Screenshot} {e : BodyElement}
    (h : addScreenshot env shot = .ok e) : e.marks = [.picture shot] := by
  obtain ⟨data, -, h⟩ := Except.bind_eq_ok.mp h
  obtain ⟨p, hp, h⟩ := Except.bind_eq_ok.mp h
  cases h
  exact addPicture_marks (ok_of_orIntegrityError hp)

lemma stackedScreenshot_marks {shot : Screenshot} {index : ℕ} {data : List UInt8}
    {es : List BodyElement} (h : stackedScreenshot env shot index data = .ok es) :
    bodyMarks es = [.picture shot] := by
  obtain ⟨name, -, h⟩ := Except.bind_eq_ok.mp h
  obtain ⟨label, hlabel, h⟩ := Except.bind_eq_ok.mp h
  obtain ⟨p, hp, h⟩ := Except.bind_eq_ok.mp h
  cases h
  simp [BodyElement.marks, addParagraph_marks hlabel, addPicture_marks hp]

lemma screenshotCells_marks {shot : Screenshot} {index : ℕ} {cells : DocxParagraph × DocxParagraph}
    (h : screenshotCells env shot index = .ok cells) :
    contentMarks cells.1.content = [] ∧ contentMarks cells.2.content = [.picture shot] := by
  obtain ⟨name, -, h⟩ := Except.bind_eq_ok.mp h
  obtain ⟨label, hlabel, h⟩ := Except.bind_eq_ok.mp h
  cases h
  exact ⟨by simp [addRun_marks hlabel], rfl⟩

lemma placePair_marks {first second : Screenshot} {firstData secondData : List UInt8}
    {es : List BodyElement} (h : placePair env first second firstData secondData = .ok es) :
    bodyMarks es = [.picture first, .picture second] := by
  obtain ⟨firstWidth, -, h⟩ := Except.bind_eq_ok.mp h
  obtain ⟨secondWidth, -, h⟩ := Except.bind_eq_ok.mp h
  split at h
  · obtain ⟨above, habove, h⟩ := Except.bind_eq_ok.mp h
    obtain ⟨below, hbelow, h⟩ := Except.bind_eq_ok.mp h
    cases h
    rw [bodyMarks_append, stackedScreenshot_marks habove, stackedScreenshot_marks hbelow]
    rfl
  · obtain ⟨left, hleft, h⟩ := Except.bind_eq_ok.mp h
    obtain ⟨right, hright, h⟩ := Except.bind_eq_ok.mp h
    cases h
    obtain ⟨hl₁, hl₂⟩ := screenshotCells_marks hleft
    obtain ⟨hr₁, hr₂⟩ := screenshotCells_marks hright
    simp [BodyElement.marks, contentMarks_append, hl₁, hl₂, hr₁, hr₂]

/-- The screenshots of a block are shown once each, in order. -/
lemma addScreenshots_marks {shots : List Screenshot} {es : List BodyElement}
    (h : addScreenshots env shots = .ok es) : bodyMarks es = shots.map .picture := by
  unfold addScreenshots at h
  split at h
  · obtain ⟨firstData, -, h⟩ := Except.bind_eq_ok.mp h
    obtain ⟨secondData, -, h⟩ := Except.bind_eq_ok.mp h
    exact placePair_marks (ok_of_orIntegrityError h)
  · next hother =>
    have hall := Except.mapM_eq_ok.mp h
    clear h hother
    induction hall with
    | nil => rfl
    | cons hshot _ ih =>
      rw [bodyMarks_cons, addScreenshot_marks hshot, ih]
      rfl

/-! ### Texts and findings -/

lemma addFind_marks {zh : Bool} {number : ℕ} {find : Find} {e : BodyElement}
    (h : addFind env zh number find = .ok e) : e.marks = [] := by
  obtain ⟨number, hnumber, h⟩ := Except.bind_eq_ok.mp h
  obtain ⟨label, hlabel, h⟩ := Except.bind_eq_ok.mp h
  obtain ⟨stats, hstats, h⟩ := Except.bind_eq_ok.mp h
  obtain ⟨detail, hdetail, h⟩ := Except.bind_eq_ok.mp h
  cases h
  simp [BodyElement.marks, contentMarks_append, addRun_marks hnumber,
    addRun_marks hlabel, contentMarks_eq_nil (addWhen_forall (fun _ => addRun_marks) hstats),
    contentMarks_eq_nil (addWhen_forall (fun _ => addRun_marks) hdetail)]

lemma addFinds_marks {heading : PyStr} {finds : List Find} {zh : Bool} {es : List BodyElement}
    (h : addFinds env heading finds zh = .ok es) : bodyMarks es = [] := by
  obtain ⟨p, hp, h⟩ := Except.bind_eq_ok.mp h
  obtain ⟨items, hitems, h⟩ := Except.bind_eq_ok.mp h
  cases h
  have hitems := bodyMarks_mapM (fun _ _ => addFind_marks) hitems
  simp [BodyElement.marks, addParagraph_marks hp, hitems]

lemma addBilingualFindList_marks {b : BilingualFindList} {es : List BodyElement}
    (h : addBilingualFindList env b = .ok es) : bodyMarks es = [] := by
  obtain ⟨zh, hzh, h⟩ := Except.bind_eq_ok.mp h
  obtain ⟨en, hen, h⟩ := Except.bind_eq_ok.mp h
  cases h
  rw [bodyMarks_append, addFinds_marks hzh, addFinds_marks hen]
  rfl

lemma addLanguage_marks {heading body : Json} {es : List BodyElement}
    (h : addLanguage env heading body = .ok es) : bodyMarks es = [] := by
  obtain ⟨headings, hheadings, h⟩ := Except.bind_eq_ok.mp h
  obtain ⟨p, hp, h⟩ := Except.bind_eq_ok.mp h
  cases h
  refine bodyMarks_paragraphs fun q hq => ?_
  rcases List.mem_append.mp hq with hq | hq
  · exact addWhen_forall (fun _ => addHeading_marks) hheadings q hq
  · rw [List.mem_singleton.mp hq]
    exact addParagraph_marks hp

lemma addBilingualText_marks {b : BilingualText} {es : List BodyElement}
    (h : addBilingualText env b = .ok es) : bodyMarks es = [] := by
  obtain ⟨zh, hzh, h⟩ := Except.bind_eq_ok.mp h
  obtain ⟨en, hen, h⟩ := Except.bind_eq_ok.mp h
  cases h
  rw [bodyMarks_append, addLanguage_marks hzh, addLanguage_marks hen]
  rfl

lemma addTexts_marks {b : BilingualText} {es : List BodyElement} (h : addTexts env b = .ok es) :
    bodyMarks es = [] := by
  obtain ⟨texts, htexts, h⟩ := Except.bind_eq_ok.mp h
  cases h
  exact bodyMarks_paragraphs_mapM (fun _ _ => addParagraph_marks) htexts

lemma addOptional_marks {α : Type} {add : α → Except PyError (List BodyElement)} {part : Option α}
    {es : List BodyElement} (hadd : ∀ a es, add a = .ok es → bodyMarks es = [])
    (h : addOptional add part = .ok es) : bodyMarks es = [] := by
  cases part with
  | none =>
    cases h
    rfl
  | some a => exact hadd a es h

/-! ### Incidents and analyses -/

lemma addFact_marks {b : Metadata} {e : BodyElement} (h : addFact env b = .ok e) :
    e.marks = [] := by
  obtain ⟨label, hlabel, h⟩ := Except.bind_eq_ok.mp h
  obtain ⟨value, hvalue, h⟩ := Except.bind_eq_ok.mp h
  cases h
  simp [BodyElement.marks, addRun_marks hlabel, addRun_marks hvalue]

lemma addAlertHeading_marks {b : IncidentEvidence} {e : BodyElement}
    (h : addAlertHeading env b = .ok e) : e.marks = (nameOf b.navigationTarget).map .anchor := by
  obtain ⟨heading, hheading, h⟩ := Except.bind_eq_ok.mp h
  obtain ⟨content, hcontent, h⟩ := Except.bind_eq_ok.mp h
  cases h
  simp only [BodyElement.marks, contentMarks_append, addHeading_marks hheading,
    contentMarks_cons, contentMarks_nil, List.nil_append, List.append_nil]
  unfold addAlertTitle at hcontent
  unfold nameOf
  split at hcontent
  · next htarget =>
    rw [if_pos htarget, addInternalHyperlink_marks hcontent]
  · next htarget =>
    rw [if_neg htarget, addRun_marks hcontent]
    rfl

lemma addIncidentEvidence_marks {includeProvenance : Bool} {b : IncidentEvidence}
    {es : List BodyElement} (h : addIncidentEvidence env includeProvenance b = .ok es) :
    bodyMarks es = (Block.incidentEvidence b).marks := by
  obtain ⟨heading, hheading, h⟩ := Except.bind_eq_ok.mp h
  obtain ⟨shots, hshots, h⟩ := Except.bind_eq_ok.mp h
  obtain ⟨facts, hfacts, h⟩ := Except.bind_eq_ok.mp h
  obtain ⟨links, hlinks, h⟩ := Except.bind_eq_ok.mp h
  obtain ⟨logFile, hlogFile, h⟩ := Except.bind_eq_ok.mp h
  obtain ⟨provenance, hprovenance, h⟩ := Except.bind_eq_ok.mp h
  cases h
  have hprovenance :=
    bodyMarks_paragraphs (addWhen_forall (fun _ => addParagraph_marks) hprovenance)
  simp only [bodyMarks_cons, List.cons_append, bodyMarks_append, addAlertHeading_marks hheading,
    addScreenshots_marks hshots, bodyMarks_mapM (fun _ _ => addFact_marks) hfacts,
    bodyMarks_paragraphs_mapM (fun _ _ => addLinkParagraph_marks) hlinks,
    bodyMarks_mapM (fun _ _ => addLogFile_marks) hlogFile, hprovenance, List.append_nil,
    Block.marks]

lemma addAnalysisHeading_marks {b : AnalysisFields} {e : BodyElement}
    (h : addAnalysisHeading env b = .ok e) : e.marks = (nameOf b.bookmark).map .bookmark := by
  obtain ⟨heading, hheading, h⟩ := Except.bind_eq_ok.mp h
  obtain ⟨bookmarked, hbookmarked, h⟩ := Except.bind_eq_ok.mp h
  cases h
  have hnone := addHeading_marks hheading
  unfold addAnalysisBookmark at hbookmarked
  unfold nameOf
  split at hbookmarked
  · next hbookmark =>
    rw [if_pos hbookmark]
    exact addBookmark_marks hnone hbookmarked
  · next hbookmark =>
    cases hbookmarked
    rw [if_neg hbookmark]
    exact hnone

lemma addAnalysisProvenance_marks {includeProvenance : Bool} {b : AnalysisFields}
    {es : List BodyElement} (h : addAnalysisProvenance env includeProvenance b = .ok es) :
    bodyMarks es = [] := by
  unfold addAnalysisProvenance at h
  split at h
  · obtain ⟨runs, hruns, h⟩ := Except.bind_eq_ok.mp h
    obtain ⟨facts, hfacts, h⟩ := Except.bind_eq_ok.mp h
    cases h
    rw [List.map_append, bodyMarks_append,
      bodyMarks_paragraphs_mapM (fun _ _ => addParagraph_marks) hruns,
      bodyMarks_paragraphs_mapM (fun _ _ => addParagraph_marks) hfacts]
    rfl
  · cases h
    rfl

lemma addAnalysisFront_marks {includeProvenance : Bool} {b : AnalysisFields}
    {es : List BodyElement} (h : addAnalysisFront env includeProvenance b = .ok es) :
    bodyMarks es = (nameOf b.bookmark).map .bookmark ++ b.screenshots.map .picture := by
  obtain ⟨heading, hheading, h⟩ := Except.bind_eq_ok.mp h
  obtain ⟨shots, hshots, h⟩ := Except.bind_eq_ok.mp h
  obtain ⟨logFile, hlogFile, h⟩ := Except.bind_eq_ok.mp h
  obtain ⟨provenance, hprovenance, h⟩ := Except.bind_eq_ok.mp h
  cases h
  simp only [bodyMarks_cons, List.cons_append, bodyMarks_append, addAnalysisHeading_marks hheading,
    addScreenshots_marks hshots, bodyMarks_mapM (fun _ _ => addLogFile_marks) hlogFile,
    addAnalysisProvenance_marks hprovenance, List.append_nil]

lemma addCompatibilityFields_marks {b : AnalysisFields} {es : List BodyElement}
    (h : addCompatibilityFields env b = .ok es) : bodyMarks es = [] := by
  obtain ⟨summary, hsummary, h⟩ := Except.bind_eq_ok.mp h
  obtain ⟨keyFinds, hkeyFinds, h⟩ := Except.bind_eq_ok.mp h
  obtain ⟨secondaryFinds, hsecondaryFinds, h⟩ := Except.bind_eq_ok.mp h
  obtain ⟨likelyCause, hlikelyCause, h⟩ := Except.bind_eq_ok.mp h
  obtain ⟨recommendedAction, hrecommendedAction, h⟩ := Except.bind_eq_ok.mp h
  cases h
  simp only [bodyMarks_append, addOptional_marks (fun _ _ => addBilingualText_marks) hsummary,
    addOptional_marks (fun _ _ => addBilingualFindList_marks) hkeyFinds,
    addOptional_marks (fun _ _ => addBilingualFindList_marks) hsecondaryFinds,
    addOptional_marks (fun _ _ => addTexts_marks) hlikelyCause,
    addOptional_marks (fun _ _ => addTexts_marks) hrecommendedAction, List.append_nil]

/-- The link back leads to the navigation. -/
lemma addBackLink_marks {b : AnalysisFields} {es : List BodyElement} (h : addBackLink b = .ok es) :
    bodyMarks es = if b.bookmark.truthy then [.anchor (py "alerts_start")] else [] := by
  unfold addBackLink at h
  split at h
  · next hbookmark =>
    obtain ⟨i, hi, h⟩ := Except.bind_eq_ok.mp h
    cases h
    rw [if_pos hbookmark]
    simp only [bodyMarks_cons, bodyMarks_nil, BodyElement.marks, contentMarks_cons,
      contentMarks_nil, addInternalHyperlink_marks hi, List.append_nil]
    rfl
  · next hbookmark =>
    cases h
    rw [if_neg hbookmark]
    rfl

/-- The marks of an analysis reference, given those of its children. -/
lemma addAnalysisReference_marks {includeProvenance : Bool} {b : AnalysisFields}
    {children : List Block} {rendered : Except PyError (List BodyElement)} {es : List BodyElement}
    (hchildren : ∀ es, rendered = .ok es → bodyMarks es = blockMarks children)
    (h : addAnalysisReference env includeProvenance b rendered = .ok es) :
    bodyMarks es = (Block.analysisReference b children).marks := by
  obtain ⟨front, hfront, h⟩ := Except.bind_eq_ok.mp h
  rw [Block.marks]
  split at h
  · next havailable =>
    obtain ⟨p, hp, h⟩ := Except.bind_eq_ok.mp h
    cases h
    rw [bodyMarks_append, addAnalysisFront_marks hfront, if_neg (by simpa using havailable)]
    simp [BodyElement.marks, addParagraph_marks hp]
  · next havailable =>
    obtain ⟨below, hbelow, h⟩ := Except.bind_eq_ok.mp h
    obtain ⟨fields, hfields, h⟩ := Except.bind_eq_ok.mp h
    obtain ⟨back, hback, h⟩ := Except.bind_eq_ok.mp h
    cases h
    rw [if_pos (by simpa using havailable)]
    simp only [bodyMarks_append, addAnalysisFront_marks hfront, hchildren below hbelow,
      addCompatibilityFields_marks hfields, addBackLink_marks hback, List.nil_append,
      List.append_assoc]

/-- The entries of the navigation lead to their targets. -/
lemma addNavigationEntries_marks {entries : List NavigationEntry} {items : List BodyElement}
    (h : List.Forall₂ (fun entry item => addNavigationEntry entry = .ok item) entries items) :
    bodyMarks items = entries.flatMap fun entry => (textOf entry.target).map .anchor := by
  induction h with
  | nil => rfl
  | cons hentry _ ih =>
    obtain ⟨i, hi, hentry⟩ := Except.bind_eq_ok.mp hentry
    cases hentry
    rw [bodyMarks_cons, ih]
    simp [BodyElement.marks, addInternalHyperlink_marks hi]

lemma addAlertNavigation_marks {entries : List NavigationEntry} {es : List BodyElement}
    (h : addAlertNavigation env entries = .ok es) :
    bodyMarks es = (Block.alertNavigation entries).marks := by
  obtain ⟨heading, hheading, h⟩ := Except.bind_eq_ok.mp h
  obtain ⟨bookmarked, hbookmarked, h⟩ := Except.bind_eq_ok.mp h
  obtain ⟨items, hitems, h⟩ := Except.bind_eq_ok.mp h
  cases h
  have hbookmark := addBookmark_marks (addHeading_marks hheading) hbookmarked
  rw [bodyMarks_cons, addNavigationEntries_marks (Except.mapM_eq_ok.mp hitems), BodyElement.marks,
    hbookmark]
  rfl

/-! ### Blocks and documents -/

lemma addStyledParagraph_marks {b : Paragraph} {p : DocxParagraph}
    (h : addStyledParagraph env b = .ok p) : contentMarks p.content = [] := by
  obtain ⟨p', hp, h⟩ := Except.bind_eq_ok.mp h
  have hnone := addParagraph_marks hp
  split at h
  · obtain ⟨style, -, h⟩ := Except.bind_eq_ok.mp h
    cases h
    exact hnone
  · cases h
    exact hnone

/-- A block that is rendered as one paragraph without marks. -/
lemma bodyMarks_of_paragraph {x : Except PyError DocxParagraph} {es : List BodyElement}
    (hx : ∀ p, x = .ok p → contentMarks p.content = [])
    (h : (fun p => [BodyElement.paragraph p]) <$> x = .ok es) : bodyMarks es = [] := by
  cases x with
  | error => cases h
  | ok p =>
    cases h
    simp [BodyElement.marks, hx p rfl]

/-- A block that is rendered as one element. -/
lemma bodyMarks_of_element {x : Except PyError BodyElement} {es : List BodyElement}
    {ms : List Mark} (hx : ∀ e, x = .ok e → e.marks = ms) (h : (fun e => [e]) <$> x = .ok es) :
    bodyMarks es = ms := by
  cases x with
  | error => cases h
  | ok e =>
    cases h
    simp [hx e rfl]

lemma addSubtitle_marks {metadata : List Metadata} {es : List BodyElement}
    (h : addSubtitle env metadata = .ok es) : bodyMarks es = [] := by
  unfold addSubtitle at h
  split at h
  · cases h
    rfl
  · obtain ⟨values, -, h⟩ := Except.bind_eq_ok.mp h
    obtain ⟨p, hp, h⟩ := Except.bind_eq_ok.mp h
    cases h
    simp [BodyElement.marks, addParagraph_marks hp]

lemma addProvenance_marks {includeProvenance : Bool} {provenance : List Metadata}
    {es : List BodyElement} (h : addProvenance env includeProvenance provenance = .ok es) :
    bodyMarks es = [] := by
  unfold addProvenance at h
  split at h
  · obtain ⟨heading, hheading, h⟩ := Except.bind_eq_ok.mp h
    obtain ⟨facts, hfacts, h⟩ := Except.bind_eq_ok.mp h
    cases h
    rw [List.map_cons, bodyMarks_cons, BodyElement.marks, addHeading_marks hheading,
      bodyMarks_paragraphs_mapM (fun _ _ => addParagraph_marks) hfacts]
    rfl
  · cases h
    rfl

mutual

/-- **The marks a block is rendered with.** -/
theorem renderBlock_marks {includeProvenance : Bool} (b : Block) (es : List BodyElement)
    (h : renderBlock env includeProvenance b = .ok es) : bodyMarks es = b.marks := by
  cases b with
  | heading => exact bodyMarks_of_paragraph (fun _ => addHeading_marks) h
  | paragraph => exact bodyMarks_of_paragraph (fun _ => addStyledParagraph_marks) h
  | metadata | divider => exact bodyMarks_of_paragraph (fun _ => addParagraph_marks) h
  | link => exact bodyMarks_of_paragraph (fun _ => addLinkParagraph_marks) h
  | logFileReference => exact bodyMarks_of_element (fun _ => addLogFile_marks) h
  | screenshot => exact bodyMarks_of_element (fun _ => addScreenshot_marks) h
  | pageBreak =>
    cases h
    rfl
  | alertNavigation => exact addAlertNavigation_marks h
  | bilingualText => exact addBilingualText_marks h
  | bilingualFindList => exact addBilingualFindList_marks h
  | findList => exact addFinds_marks h
  | incidentEvidence => exact addIncidentEvidence_marks h
  | analysisReference b children =>
    exact addAnalysisReference_marks (fun es => renderBlocks_marks children es) h

theorem renderBlocks_marks {includeProvenance : Bool} (bs : List Block) (es : List BodyElement)
    (h : renderBlocks env includeProvenance bs = .ok es) : bodyMarks es = blockMarks bs := by
  cases bs with
  | nil =>
    cases h
    rfl
  | cons b bs =>
    obtain ⟨first, hfirst, h⟩ := Except.bind_eq_ok.mp h
    obtain ⟨rest, hrest, h⟩ := Except.bind_eq_ok.mp h
    cases h
    rw [bodyMarks_append, renderBlock_marks b first hfirst, renderBlocks_marks bs rest hrest]
    rfl

end

/-- The marks of a rendered document are those of its blocks. -/
theorem renderDocument_marks {includeProvenance : Bool} {doc : ReportDocument} {docx : Docx}
    (h : renderDocument env includeProvenance doc = .ok docx) :
    contentMarks docx.header = [] ∧ contentMarks docx.footer = [] ∧
      bodyMarks docx.body = blockMarks doc.blocks := by
  obtain ⟨header, hheader, h⟩ := Except.bind_eq_ok.mp h
  obtain ⟨footer, hfooter, h⟩ := Except.bind_eq_ok.mp h
  obtain ⟨title, htitle, h⟩ := Except.bind_eq_ok.mp h
  obtain ⟨subtitle, hsubtitle, h⟩ := Except.bind_eq_ok.mp h
  obtain ⟨provenance, hprovenance, h⟩ := Except.bind_eq_ok.mp h
  obtain ⟨blocks, hblocks, h⟩ := Except.bind_eq_ok.mp h
  cases h
  obtain ⟨values, hvalues, hfooter⟩ := Except.bind_eq_ok.mp hfooter
  obtain ⟨page, hpage, hfooter⟩ := Except.bind_eq_ok.mp hfooter
  cases hfooter
  refine ⟨by simp [addRun_marks hheader], by simp [addRun_marks hvalues, addRun_marks hpage], ?_⟩
  simp only [bodyMarks_cons, List.cons_append, bodyMarks_append, BodyElement.marks,
    addHeading_marks htitle, addSubtitle_marks hsubtitle, addProvenance_marks hprovenance,
    renderBlocks_marks doc.blocks blocks hblocks, List.nil_append]

/-! ### Links and pictures -/

@[simp]
lemma marksLinks_append (ms ns : List Mark) :
    marksLinks (ms ++ ns) = marksLinks ms ++ marksLinks ns := by
  ext1 <;> simp [marksLinks]

lemma contentLinks_eq (is : List Inline) : contentLinks is = marksLinks (contentMarks is) := by
  induction is with
  | nil => rfl
  | cons i is ih =>
    have hi : i.links = marksLinks i.marks := by cases i <;> rfl
    rw [contentLinks, contentMarks_cons, marksLinks_append, hi, ih]

lemma bodyLinks_eq (es : List BodyElement) : bodyLinks es = marksLinks (bodyMarks es) := by
  induction es with
  | nil => rfl
  | cons e es ih =>
    have he : e.links = marksLinks e.marks := by cases e <;> exact contentLinks_eq _
    rw [bodyLinks, bodyMarks_cons, marksLinks_append, he, ih]

lemma marksLinks_anchors (names : List PyStr) : marksLinks (names.map .anchor) = ⟨names, []⟩ := by
  ext1 <;> simp [marksLinks, List.filterMap_map, Function.comp_def, Mark.anchor?, Mark.bookmark?]

lemma marksLinks_bookmarks (names : List PyStr) :
    marksLinks (names.map .bookmark) = ⟨[], names⟩ := by
  ext1 <;> simp [marksLinks, List.filterMap_map, Function.comp_def, Mark.anchor?, Mark.bookmark?]

lemma marksLinks_pictures (shots : List Screenshot) :
    marksLinks (shots.map .picture) = .none := by
  ext1 <;> simp [marksLinks, List.filterMap_map, Function.comp_def, Mark.anchor?, Mark.bookmark?]

mutual

/-- The links of a block are among its marks. -/
lemma Block.links_eq (b : Block) : b.links = marksLinks b.marks := by
  cases b with
  | alertNavigation entries =>
    have hanchors : (entries.flatMap fun entry => (textOf entry.target).map Mark.anchor) =
        (entries.flatMap fun entry => textOf entry.target).map .anchor :=
      List.map_flatMap.symm
    have hcons : ∀ name ms, marksLinks (.bookmark name :: ms) = ⟨[], [name]⟩ ++ marksLinks ms :=
      fun _ _ => rfl
    rw [Block.links, Block.marks, hanchors, hcons, marksLinks_anchors]
    rfl
  | incidentEvidence b =>
    rw [Block.links, Block.marks, marksLinks_append, marksLinks_anchors, marksLinks_pictures,
      Links.append_none]
  | analysisReference b children =>
    rw [Block.links, Block.marks, marksLinks_append, marksLinks_append, marksLinks_bookmarks,
      marksLinks_pictures, Links.append_none]
    cases b.available with
    | false => rfl
    | true =>
      rw [if_pos rfl, if_pos rfl, marksLinks_append, ← blockLinks_eq children]
      cases b.bookmark.truthy <;> rfl
  | heading | paragraph | divider | pageBreak | metadata | link | logFileReference | screenshot
  | bilingualText | bilingualFindList | findList => rfl

lemma blockLinks_eq (bs : List Block) : blockLinks bs = marksLinks (blockMarks bs) := by
  cases bs with
  | nil => rfl
  | cons b bs => rw [blockLinks, blockMarks, marksLinks_append, b.links_eq, blockLinks_eq bs]

end

/-- The links of a rendered document are those of its blocks. -/
theorem renderDocument_links {includeProvenance : Bool} {doc : ReportDocument} {docx : Docx}
    (h : renderDocument env includeProvenance doc = .ok docx) :
    bodyLinks docx.body = blockLinks doc.blocks := by
  rw [bodyLinks_eq, blockLinks_eq, (renderDocument_marks h).2.2]

/-- The pictures of a rendered document are those of its blocks. -/
theorem renderDocument_pictures {includeProvenance : Bool} {doc : ReportDocument} {docx : Docx}
    (h : renderDocument env includeProvenance doc = .ok docx) :
    docx.pictures = (blockMarks doc.blocks).filterMap Mark.picture? := by
  obtain ⟨hheader, hfooter, hbody⟩ := renderDocument_marks h
  rw [Docx.pictures, hheader, hfooter, hbody, List.nil_append, List.nil_append]

end MarkLemmas

end Report

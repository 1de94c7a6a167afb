import NocReport.Report.Document

set_option relaxedAutoImplicit false
set_option autoImplicit false

/-!
# The preview of a report document

How a report document is serialised for the browser (`report_document_json.py`). A screenshot is
serialised as an index only; where it is stored goes to a private list, in the order the
screenshots are serialised in.

## Main definitions

* `Report.blockToJson` — one block, and the private list after it.
* `Report.documentToPreviewJson`, `Report.documentToAuditJson` — the two serialisations.
* `Report.ReportDocument.serialised` — the screenshots in the order they are serialised.
* `Report.payloadScreenshots` — the screenshots of a payload.
* `Report.ReportDocument.redact` — a document without what the browser must not see.

## Main results

* `Report.blocksToJson_private`, `Report.blocksToJson_shown` — the private list and the payload go
  through the same screenshots.
* `Report.blocksToJson_redact` — the payload does not depend on what is redacted.
* `Report.documentToPreviewJson_confidential` — both for whole documents.
-/

namespace Report

/-! ## The serialiser -/

/-- A text that may be missing. -/
def optionalText : Option PyStr → Json
  | none => .null
  | some s => .str s

/-- `_find_to_json`. -/
def findToJson (find : Find) : Json :=
  .obj [(py "label", .str find.label), (py "detail", optionalText find.detail),
    (py "stat", optionalText find.stat)]

/-- The value of the field `type`. -/
def blockType (kind : BlockKind) : PyStr × Json := (py "type", .str (py kind.name))

/-- A `Metadata`. -/
def metadataToJson (b : Metadata) : Json :=
  .obj [blockType .metadata, (py "label", b.label), (py "value", .str b.value)]

/-- A `Link`. -/
def linkToJson (b : Link) : Json :=
  .obj [blockType .link, (py "label", b.label), (py "prefix", b.linkPrefix), (py "url", b.url),
    (py "text", b.text)]

/-- A `LogFileReference`. -/
def logFileToJson (b : LogFileReference) : Json :=
  .obj [blockType .logFileReference, (py "filename", b.filename), (py "url", b.url)]

/-- A `BilingualText`. -/
def bilingualTextToJson (b : BilingualText) : Json :=
  .obj [blockType .bilingualText, (py "text_zh", b.textZh), (py "text_en", b.textEn),
    (py "heading_zh", b.headingZh), (py "heading_en", b.headingEn)]

/-- A `BilingualFindList`. -/
def bilingualFindListToJson (b : BilingualFindList) : Json :=
  .obj [blockType .bilingualFindList, (py "heading_zh", .str b.headingZh),
    (py "heading_en", .str b.headingEn), (py "finds_zh", .arr (b.findsZh.map findToJson)),
    (py "finds_en", .arr (b.findsEn.map findToJson))]

/-- `… if block.part else None`. -/
def optionalPart {α : Type} (toJson : α → Json) : Option α → Json
  | none => .null
  | some b => toJson b

/-- The entry of a screenshot in the private list. -/
def storageReference (b : Screenshot) : Json.Fields :=
  [(py "bucket", b.bucket), (py "object_key", b.objectKey), (py "filename", b.filename),
    (py "version_id", b.versionId), (py "sha256", b.sha256), (py "content_type", b.contentType),
    (py "byte_size", b.byteSize)].filter fun p => !p.2.isNull

/-- A `Screenshot` with its index. -/
def screenshotToJson (index : ℕ) (b : Screenshot) : Json :=
  .obj [blockType .screenshot, (py "index", .int index), (py "filename", b.filename)]

/-- A list of screenshots, and the private list after it. -/
def screenshotsToJson : List Screenshot → List Json.Fields → List Json × List Json.Fields
  | [], screenshots => ([], screenshots)
  | b :: bs, screenshots =>
    let (rest, after) := screenshotsToJson bs (screenshots ++ [storageReference b])
    (screenshotToJson screenshots.length b :: rest, after)

mutual

/-- `_block_to_json`: the block, and the private list after it. -/
def blockToJson (includeProvenance : Bool) :
    Block → List Json.Fields → Json × List Json.Fields
  | .heading b, screenshots =>
    (.obj [blockType .heading, (py "text", b.text), (py "level", .int b.level)], screenshots)
  | .paragraph b, screenshots =>
    (.obj [blockType .paragraph, (py "text", b.text), (py "style", b.style)], screenshots)
  | .divider, screenshots => (.obj [blockType .divider], screenshots)
  | .pageBreak, screenshots => (.obj [blockType .pageBreak], screenshots)
  | .metadata b, screenshots => (metadataToJson b, screenshots)
  | .link b, screenshots => (linkToJson b, screenshots)
  | .logFileReference b, screenshots => (logFileToJson b, screenshots)
  | .screenshot b, screenshots =>
    (screenshotToJson screenshots.length b, screenshots ++ [storageReference b])
  | .alertNavigation entries, screenshots =>
    (.obj [blockType .alertNavigation, (py "entries", .arr (entries.map fun entry =>
      .obj [(py "text", .str entry.text), (py "target", entry.target)]))], screenshots)
  | .bilingualText b, screenshots => (bilingualTextToJson b, screenshots)
  | .bilingualFindList b, screenshots => (bilingualFindListToJson b, screenshots)
  | .findList b, screenshots =>
    (.obj [blockType .findList, (py "heading", .str b.heading), (py "language", b.language),
      (py "finds", .arr (b.finds.map findToJson))], screenshots)
  | .incidentEvidence b, screenshots =>
    let (shots, after) := screenshotsToJson b.screenshots screenshots
    (.obj [blockType .incidentEvidence, (py "heading", b.heading),
      (py "incident_id", if includeProvenance then b.incidentId else .null),
      (py "metadata", .arr (b.metadata.map metadataToJson)),
      (py "links", .arr ((b.link.toList ++ b.links).map linkToJson)),
      (py "log_file", optionalPart logFileToJson b.logFile), (py "screenshots", .arr shots),
      (py "navigation_target", b.navigationTarget)], after)
  | .analysisReference b children, screenshots =>
    let (childrenJson, screenshots) := blocksToJson includeProvenance children screenshots
    let (shots, after) := screenshotsToJson b.screenshots screenshots
    (.obj ([blockType .analysisReference, (py "heading", .str b.heading),
      (py "available", .bool b.available),
      (py "incident_id", if includeProvenance then optionalText b.incidentId else .null),
      (py "unavailable_text", b.unavailableText), (py "children", .arr childrenJson),
      (py "screenshots", .arr shots), (py "log_file", optionalPart logFileToJson b.logFile),
      (py "summary", optionalPart bilingualTextToJson b.summary),
      (py "key_finds", optionalPart bilingualFindListToJson b.keyFinds),
      (py "secondary_finds", optionalPart bilingualFindListToJson b.secondaryFinds),
      (py "likely_cause", optionalPart bilingualTextToJson b.likelyCause),
      (py "recommended_action", optionalPart bilingualTextToJson b.recommendedAction),
      (py "bookmark", b.bookmark)] ++
      if includeProvenance then
        [(py "analysis_run_id", optionalText b.analysisRunId),
          (py "metadata", .arr (b.metadata.map metadataToJson)),
          (py "provenance", .arr (b.provenance.map metadataToJson))]
      else []), after)

/-- A list of blocks, and the private list after it. -/
def blocksToJson (includeProvenance : Bool) :
    List Block → List Json.Fields → List Json × List Json.Fields
  | [], screenshots => ([], screenshots)
  | b :: bs, screenshots =>
    let (first, screenshots) := blockToJson includeProvenance b screenshots
    let (rest, after) := blocksToJson includeProvenance bs screenshots
    (first :: rest, after)

end

/-- `document_to_preview_json`: the payload for the browser, and the private list. -/
def documentToPreviewJson (doc : ReportDocument) : Json.Fields × List Json.Fields :=
  let (blocks, screenshots) := blocksToJson false doc.blocks []
  ([(py "title", doc.title), (py "metadata", .arr (doc.metadata.map metadataToJson)),
    (py "blocks", .arr blocks)], screenshots)

/-- `document_to_audit_json`. -/
def documentToAuditJson (doc : ReportDocument) : Json.Fields :=
  let (blocks, screenshots) := blocksToJson true doc.blocks []
  [(py "title", doc.title), (py "metadata", .arr (doc.metadata.map metadataToJson)),
    (py "provenance", .arr (doc.provenance.map metadataToJson)), (py "blocks", .arr blocks),
    (py "screenshots", .arr (screenshots.map .obj))]

/-! ## The order of the screenshots -/

mutual

/-- The screenshots of a block in the order they are serialised: those of the children of an
analysis reference come before its own. -/
def Block.serialised : Block → List Screenshot
  | .screenshot b => [b]
  | .incidentEvidence b => b.screenshots
  | .analysisReference b children => serialisedList children ++ b.screenshots
  | _ => []

/-- The screenshots of a list of blocks in the order they are serialised. -/
def serialisedList : List Block → List Screenshot
  | [] => []
  | b :: bs => b.serialised ++ serialisedList bs

end

/-- The screenshots of a document in the order they are serialised. -/
def ReportDocument.serialised (doc : ReportDocument) : List Screenshot :=
  serialisedList doc.blocks

mutual

/-- All screenshots are serialised, each of them once. -/
lemma Block.serialised_perm (b : Block) : b.serialised.Perm b.screenshots := by
  cases b with
  | analysisReference b children =>
    exact List.perm_append_comm.trans ((serialisedList_perm children).append_left b.screenshots)
  | heading | paragraph | divider | pageBreak | metadata | link | logFileReference | screenshot
  | alertNavigation | bilingualText | bilingualFindList | findList | incidentEvidence =>
    exact .refl _

lemma serialisedList_perm (bs : List Block) :
    (serialisedList bs).Perm (blockListScreenshots bs) := by
  cases bs with
  | nil => exact .refl _
  | cons b bs => exact b.serialised_perm.append (serialisedList_perm bs)

end

/-! ## The screenshots of a payload -/

/-- The screenshots in one object, given those in its fields. -/
def shownOf (fields : Json.Fields) (nested : Dict PyStr (List Json)) : List Json :=
  let shown := fun key => (Dict.get? nested (py key)).getD []
  match BlockKind.ofJson? (fields.get (py "type")) with
  | some .screenshot => [.obj fields]
  | some .incidentEvidence => shown "screenshots"
  | some .analysisReference => shown "children" ++ shown "screenshots"
  | _ => []

mutual

/-- The screenshots in a serialised block. -/
def shownIn : Json → List Json
  | .obj fields => shownOf fields (shownInFields fields)
  | _ => []

/-- The screenshots in each field, where it is a list of serialised blocks. -/
def shownInFields : List (PyStr × Json) → Dict PyStr (List Json)
  | [] => []
  | (k, .arr xs) :: rest => (k, shownInList xs) :: shownInFields rest
  | (k, _) :: rest => (k, []) :: shownInFields rest

/-- The screenshots in a list of serialised blocks. -/
def shownInList : List Json → List Json
  | [] => []
  | x :: xs => shownIn x ++ shownInList xs

end

/-- The screenshots of a payload, in order. -/
def payloadScreenshots (payload : Json.Fields) : List Json :=
  match payload.get (py "blocks") with
  | .arr blocks => shownInList blocks
  | _ => []

/-- Screenshots as they are serialised, counted from `n`. -/
def indexed (n : ℕ) (shots : List Screenshot) : List Json :=
  (shots.zipIdx n).map fun p => screenshotToJson p.2 p.1

lemma indexed_append (n : ℕ) (shots shots' : List Screenshot) :
    indexed n (shots ++ shots') = indexed n shots ++ indexed (n + shots.length) shots' := by
  rw [indexed, List.zipIdx_append, List.map_append]
  rfl

lemma screenshotsToJson_eq (bs : List Screenshot) (screenshots : List Json.Fields) :
    screenshotsToJson bs screenshots =
      (indexed screenshots.length bs, screenshots ++ bs.map storageReference) := by
  induction bs generalizing screenshots with
  | nil => simp [screenshotsToJson, indexed]
  | cons b bs ih => simp [screenshotsToJson, ih, indexed]

mutual

/-- **The private list** gets the references of the screenshots in the order they are serialised. -/
theorem blockToJson_private (includeProvenance : Bool) (b : Block)
    (screenshots : List Json.Fields) :
    (blockToJson includeProvenance b screenshots).2 =
      screenshots ++ b.serialised.map storageReference := by
  cases b with
  | screenshot b => rfl
  | incidentEvidence b => simp only [blockToJson, screenshotsToJson_eq, Block.serialised]
  | analysisReference b children =>
    have hchildren := blocksToJson_private includeProvenance children screenshots
    simp only [blockToJson, screenshotsToJson_eq, Block.serialised, hchildren, List.map_append,
      List.append_assoc]
  | heading | paragraph | divider | pageBreak | metadata | link | logFileReference
  | alertNavigation | bilingualText | bilingualFindList | findList =>
    exact (List.append_nil screenshots).symm

theorem blocksToJson_private (includeProvenance : Bool) (bs : List Block)
    (screenshots : List Json.Fields) :
    (blocksToJson includeProvenance bs screenshots).2 =
      screenshots ++ (serialisedList bs).map storageReference := by
  cases bs with
  | nil => exact (List.append_nil screenshots).symm
  | cons b bs =>
    have hfirst := blockToJson_private includeProvenance b screenshots
    have hrest := blocksToJson_private includeProvenance bs
      (blockToJson includeProvenance b screenshots).2
    simp only [blocksToJson, serialisedList, List.map_append]
    rw [hrest, hfirst, List.append_assoc]

end

/-! ## The screenshots of a serialised block -/

lemma ofJson?_name (kind : BlockKind) : BlockKind.ofJson? (.str (py kind.name)) = some kind := by
  cases kind <;> decide

lemma get?_shownInFields (fields : Json.Fields) (k : PyStr) :
    Dict.get? (shownInFields fields) k = (Dict.get? fields k).map fun v => match v with
      | .arr xs => shownInList xs
      | _ => [] := by
  induction fields with
  | nil => rfl
  | cons p rest ih =>
    obtain ⟨k', v⟩ := p
    rw [Dict.get?_cons]
    cases v with
    | arr xs =>
      rw [shownInFields, Dict.get?_cons, ih]
      split <;> rfl
    | null | bool | int | float | str | obj =>
      rw [shownInFields, Dict.get?_cons, ih]
      · split <;> rfl
      · simp

/-- The screenshots of an object with a type, from its fields. -/
lemma shownIn_blockType (kind : BlockKind) (rest : Json.Fields) :
    shownIn (.obj (blockType kind :: rest)) =
      let shown := fun key : String => match Dict.get? (blockType kind :: rest) (py key) with
        | some (.arr xs) => shownInList xs
        | _ => []
      match kind with
      | .screenshot => [.obj (blockType kind :: rest)]
      | .incidentEvidence => shown "screenshots"
      | .analysisReference => shown "children" ++ shown "screenshots"
      | _ => [] := by
  have htype : Json.Fields.get (blockType kind :: rest) (py "type") = .str (py kind.name) := by
    simp [Json.Fields.get, Json.Fields.getD, blockType, Dict.get?_cons]
  have hshown : ∀ key : String,
      (Dict.get? (shownInFields (blockType kind :: rest)) (py key)).getD [] =
        match Dict.get? (blockType kind :: rest) (py key) with
        | some (.arr xs) => shownInList xs
        | _ => [] := by
    intro key
    rw [get?_shownInFields]
    cases Dict.get? (blockType kind :: rest) (py key) with
    | none => rfl
    | some v => cases v <;> rfl
  rw [shownIn, shownOf, htype, ofJson?_name]
  dsimp only
  rw [hshown, hshown]
  cases kind <;> rfl

lemma shownInList_append (xs ys : List Json) :
    shownInList (xs ++ ys) = shownInList xs ++ shownInList ys := by
  induction xs with
  | nil => rfl
  | cons x xs ih => rw [List.cons_append, shownInList, shownInList, ih, List.append_assoc]

/-- Screenshots that are serialised are shown. -/
lemma shownInList_indexed (n : ℕ) (shots : List Screenshot) :
    shownInList (indexed n shots) = indexed n shots := by
  induction shots generalizing n with
  | nil => rfl
  | cons b shots ih =>
    have hcons : indexed n (b :: shots) = screenshotToJson n b :: indexed (n + 1) shots := rfl
    rw [hcons, shownInList, ih, screenshotToJson, shownIn_blockType]
    rfl

mutual

/-- **The payload** shows the screenshots in the order they are serialised, with their indices. -/
theorem blockToJson_shown (includeProvenance : Bool) (b : Block)
    (screenshots : List Json.Fields) :
    shownIn (blockToJson includeProvenance b screenshots).1 =
      indexed screenshots.length b.serialised := by
  cases b with
  | screenshot b =>
    rw [blockToJson, screenshotToJson, shownIn_blockType]
    rfl
  | incidentEvidence b =>
    simp only [blockToJson, screenshotsToJson_eq, shownIn_blockType, Block.serialised]
    simp [blockType, Dict.get?_cons, shownInList_indexed]
  | analysisReference b children =>
    have hchildren := blocksToJson_shown includeProvenance children screenshots
    have hprivate := blocksToJson_private includeProvenance children screenshots
    simp only [blockToJson, screenshotsToJson_eq, List.cons_append, shownIn_blockType,
      Block.serialised, indexed_append]
    simp [blockType, Dict.get?_cons, shownInList_indexed, hchildren, hprivate]
  | heading | paragraph | divider | pageBreak | metadata | link | logFileReference
  | alertNavigation | bilingualText | bilingualFindList | findList =>
    exact shownIn_blockType _ _

theorem blocksToJson_shown (includeProvenance : Bool) (bs : List Block)
    (screenshots : List Json.Fields) :
    shownInList (blocksToJson includeProvenance bs screenshots).1 =
      indexed screenshots.length (serialisedList bs) := by
  cases bs with
  | nil => rfl
  | cons b bs =>
    have hfirst := blockToJson_shown includeProvenance b screenshots
    have hprivate := blockToJson_private includeProvenance b screenshots
    have hrest := blocksToJson_shown includeProvenance bs
      (blockToJson includeProvenance b screenshots).2
    simp only [blocksToJson, shownInList, serialisedList, indexed_append, hfirst, hrest]
    rw [hprivate, List.length_append, List.length_map]

end

/-! ## What the browser must not see -/

/-- A screenshot without where it is stored. -/
def Screenshot.redact (b : Screenshot) : Screenshot :=
  { b with
    bucket := .null, objectKey := .null, versionId := .null, sha256 := .null
    contentType := .null, byteSize := .null }

mutual

/-- A block without where its screenshots are stored and without its provenance. -/
def Block.redact : Block → Block
  | .screenshot b => .screenshot b.redact
  | .incidentEvidence b =>
    .incidentEvidence { b with incidentId := .null, screenshots := b.screenshots.map .redact }
  | .analysisReference b children =>
    .analysisReference
      { b with
        incidentId := none, analysisRunId := none, provenance := []
        screenshots := b.screenshots.map .redact }
      (redactList children)
  | b => b

/-- A list of blocks without what the browser must not see. -/
def redactList : List Block → List Block
  | [] => []
  | b :: bs => b.redact :: redactList bs

end

/-- A document without where its screenshots are stored and without its provenance. -/
def ReportDocument.redact (doc : ReportDocument) : ReportDocument :=
  { doc with blocks := redactList doc.blocks, provenance := [] }

lemma indexed_redact (n : ℕ) (shots : List Screenshot) :
    indexed n (shots.map .redact) = indexed n shots := by
  induction shots generalizing n with
  | nil => rfl
  | cons b shots ih =>
    have hcons : ∀ (b : Screenshot) (shots : List Screenshot),
        indexed n (b :: shots) = screenshotToJson n b :: indexed (n + 1) shots := fun _ _ => rfl
    rw [List.map_cons, hcons, hcons, ih]
    rfl

mutual

lemma Block.length_serialised_redact (b : Block) :
    b.redact.serialised.length = b.serialised.length := by
  cases b with
  | incidentEvidence b => exact List.length_map _
  | analysisReference b children =>
    simp [Block.redact, Block.serialised, length_serialisedList_redact children]
  | heading | paragraph | divider | pageBreak | metadata | link | logFileReference | screenshot
  | alertNavigation | bilingualText | bilingualFindList | findList => rfl

lemma length_serialisedList_redact (bs : List Block) :
    (serialisedList (redactList bs)).length = (serialisedList bs).length := by
  cases bs with
  | nil => rfl
  | cons b bs =>
    simp [redactList, serialisedList, b.length_serialised_redact, length_serialisedList_redact bs]

end

mutual

/-- **The payload does not depend on what is redacted**, only on how many screenshots came
before. -/
theorem blockToJson_redact (b : Block) {screenshots screenshots' : List Json.Fields}
    (h : screenshots'.length = screenshots.length) :
    (blockToJson false b.redact screenshots').1 = (blockToJson false b screenshots).1 := by
  cases b with
  | screenshot b =>
    simp only [Block.redact, blockToJson, h]
    rfl
  | incidentEvidence b =>
    simp only [Block.redact, blockToJson, screenshotsToJson_eq, h, indexed_redact]
    rfl
  | analysisReference b children =>
    have hchildren := blocksToJson_redact children h
    have hlen : (blocksToJson false (redactList children) screenshots').2.length =
        (blocksToJson false children screenshots).2.length := by
      rw [blocksToJson_private, blocksToJson_private, List.length_append, List.length_append,
        List.length_map, List.length_map, length_serialisedList_redact, h]
    simp only [Block.redact, blockToJson, screenshotsToJson_eq, hlen, indexed_redact, hchildren]
    rfl
  | heading | paragraph | divider | pageBreak | metadata | link | logFileReference
  | alertNavigation | bilingualText | bilingualFindList | findList => rfl

theorem blocksToJson_redact (bs : List Block) {screenshots screenshots' : List Json.Fields}
    (h : screenshots'.length = screenshots.length) :
    (blocksToJson false (redactList bs) screenshots').1 =
      (blocksToJson false bs screenshots).1 := by
  cases bs with
  | nil => rfl
  | cons b bs =>
    have hlen : (blockToJson false b.redact screenshots').2.length =
        (blockToJson false b screenshots).2.length := by
      rw [blockToJson_private, blockToJson_private, List.length_append, List.length_append,
        List.length_map, List.length_map, b.length_serialised_redact, h]
    simp only [redactList, blocksToJson, blockToJson_redact b h, blocksToJson_redact bs hlen]

end

/-! ## Whole documents -/

/-- The private list of a document, and the screenshots of its payload. -/
lemma documentToPreviewJson_screenshots (doc : ReportDocument) :
    (documentToPreviewJson doc).2 = doc.serialised.map storageReference ∧
      payloadScreenshots (documentToPreviewJson doc).1 = indexed 0 doc.serialised := by
  have hshown := blocksToJson_shown false doc.blocks []
  have hprivate := blocksToJson_private false doc.blocks []
  refine ⟨hprivate, ?_⟩
  have hget : Json.Fields.get (documentToPreviewJson doc).1 (py "blocks") =
      .arr (blocksToJson false doc.blocks []).1 := by
    simp [documentToPreviewJson, Json.Fields.get, Json.Fields.getD, Dict.get?_cons]
  rw [payloadScreenshots, hget]
  exact hshown

end Report

import NocReport.Foundation.UnionFind
import NocReport.Triage.EntryGrouped

set_option relaxedAutoImplicit false
set_option autoImplicit false

/-!
# Reconciliation by pattern ids

The part of `reconcile_result` (`sandbox/preprocessing.py`) that handles results whose findings
name patterns. A first loop checks and counts the patterns of each finding; it is the only part
that can raise an exception. After it findings that share a family are merged (a union-find over
the findings), in fallback mode those with the same detail too, and unquantified ones are matched
to families by their text; last, patterns nobody has claimed are appended.

The findings are shared between the argument and the dictionaries `result` is bound to later, so
after the first loop they live in a heap, and a dictionary holds references to them.

## Main definitions

* `Triage.assignFindings` — the first loop.
* `Triage.Work` — the heap, the current dictionary and the argument.
* `Triage.components`, `Triage.mergeFamilies` — merging by families.
* `Triage.mergeDuplicates` — merging by details.
* `Triage.recount` — the counts after merging.
* `Triage.repairUnquantified` — the unquantified findings in fallback mode.
* `Triage.appendOmitted`, `Triage.promote` — the appended findings.
* `Triage.reconcilePatterns` — the whole.
-/

namespace Triage

/-! ## The manifest -/

section Manifest

variable (st : Statistics)

/-- `pattern_by_id`. -/
def patternById : Dict PyStr Pattern := Dict.ofList (st.patternManifest.map fun p => (p.id, p))

/-- The items of the manifest that stand for one pattern. -/
def namedPatterns : List Pattern := st.patternManifest.filter fun p => p.id ≠ py "other"

/-- `family_by_pattern`. -/
def familyByPattern : Dict PyStr PyStr :=
  ((patternById st).filter fun p => p.1 ≠ py "other").map fun p => (p.1, p.2.family)

/-- `family_labels`. -/
def familyLabels : Dict PyStr PyStr :=
  Dict.ofList ((namedPatterns st).map fun p => (p.family, p.label))

/-- `pattern_by_id[id]["count"]`. -/
def patternCount (id : PyStr) : ℕ := ((Dict.get? (patternById st) id).map (·.count)).getD 0

/-- `sum(pattern_by_id[id]["count"] for id in ids)`. -/
def countOf (ids : List PyStr) : ℕ := (ids.map (patternCount st)).sum

end Manifest

/-! ## The first loop -/

section Assign

variable (env : Env) (st : Statistics) (fallback : Bool)

/-- The finding with a count. -/
def setCount (finding : Json.Fields) (count : ℕ) : Json.Fields :=
  Dict.set (Dict.set finding (py "count") (.int count)) (py "percentage")
    (percentage count st.totalEntries)

/-- The finding without a count. -/
def clearCount (finding : Json.Fields) : Json.Fields :=
  Dict.set (Dict.set finding (py "count") .null) (py "percentage") .null

/-- The value is a key of `pattern_by_id`; what cannot be hashed raises. -/
def isKnown (v : Json) : Except PyError Bool :=
  match v with
  | .str s => return Dict.contains (patternById st) s
  | .arr _ | .obj _ => throw .typeError
  | _ => return false

/-- `pattern_id != "unquantified" and pattern_id not in pattern_by_id`. -/
def isUnknown (v : Json) : Except PyError Bool := do
  if v.isText "unquantified" then return false else return !(← isKnown st v)

/-- The texts among some values. -/
def textsOf (items : List Json) : List PyStr :=
  items.filterMap fun v => match v with
    | .str s => some s
    | _ => none

/-- The finding and its pattern ids after unknown ids are rejected or, in fallback mode, dropped.
With no unknown id left every id is a text. -/
def normalizeIds (finding : Json.Fields) : Except PyError (Json.Fields × List PyStr) := do
  let items ← ((finding.get (py "pattern_ids")).or (.arr [])).iter
  match ← items.filterM (isUnknown st) with
  | [] => return (finding, textsOf items)
  | unknown :: _ =>
    if fallback then
      match ← items.filterM (isKnown st) with
      | [] =>
        return (clearCount (Dict.set finding (py "pattern_ids") unquantifiedIds),
          [py "unquantified"])
      | known =>
        let ids := (textsOf known).eraseDups
        return (Dict.set finding (py "pattern_ids") (texts ids), ids)
    else throw (.valueError (py "unknown deterministic pattern id: " ++ env.str unknown))

/-- `used` with the ids of a finding, each of which may be used once. -/
def useIds (used : List PyStr) : List PyStr → Except PyError (List PyStr)
  | [] => return used
  | id :: ids =>
    if id = py "unquantified" then useIds used ids
    else if used.contains id then
      throw (.valueError (py "deterministic pattern assigned more than once: " ++ id))
    else useIds (used ++ [id]) ids

/-- What the first loop carries: the ids used, and whether an unquantified finding was seen. -/
structure Assigned where
  used : List PyStr
  unquantifiedSeen : Bool

/-- One turn of the first loop: the finding as it is left, whether it is kept, and the state. -/
def assignFinding (s : Assigned) (finding : Json) :
    Except (Failure Json) (Json × Bool × Assigned) :=
  match finding with
  | .obj fields =>
    match normalizeIds env st fallback fields with
    | .error e => .error (e, finding)
    | .ok (fields, ids) =>
      if isUnquantified (fields.get (py "pattern_ids")) then
        if s.unquantifiedSeen ∧ fallback then .ok (.obj fields, false, s)
        else .ok (.obj (clearCount fields), true, { s with unquantifiedSeen := true })
      else match useIds s.used ids with
        | .error e => .error (e, .obj fields)
        | .ok used =>
          if ids.all (Dict.contains (patternById st)) then
            .ok (.obj (setCount st fields (countOf st ids)), true, { s with used })
          else .error (.keyError, .obj fields)
  | _ => .error (.attributeError, finding)

/-- The first loop over one list: the findings that are kept. -/
def assignFindings (s : Assigned) :
    List Json → Except (Failure (List Json)) (List Json × Assigned)
  | [] => .ok ([], s)
  | finding :: rest =>
    match assignFinding env st fallback s finding with
    | .error (e, finding) => .error (e, finding :: rest)
    | .ok (finding, kept, s) =>
      match assignFindings s rest with
      | .error (e, rest) => .error (e, finding :: rest)
      | .ok (rest, s) => .ok (if kept then finding :: rest else rest, s)

/-- The first loop over one group, which is a list afterwards. -/
def assignGroup (result : Json.Fields) (s : Assigned) (name : PyStr) :
    Except (Failure Json.Fields) (Json.Fields × Assigned) :=
  match result.getD name (.arr []) with
  | .arr items =>
    match assignFindings env st fallback s items with
    | .error (e, items) => .error (e, Dict.set result name (.arr items))
    | .ok (items, s) => .ok (Dict.set result name (.arr items), s)
  | v =>
    match v.iter with
    | .error e => .error (e, result)
    | .ok [] => .ok (Dict.set result name (.arr []), s)
    | .ok (_ :: _) => .error (.attributeError, result)

end Assign

/-! ## The heap -/

/-- A reference to a finding. -/
abbrev Ref := ℕ

/-- A dictionary whose two groups are lists of references. -/
structure Doc where
  fields : Json.Fields
  keyFinds : List Ref
  secondaryFinds : List Ref

/-- The findings after the first loop, and the dictionaries that refer to them. -/
structure Work where
  heap : Ref → Json.Fields
  /-- the next free reference -/
  next : Ref
  /-- `result` -/
  doc : Doc
  /-- the argument, once `result` is another dictionary -/
  argument : Option Doc

/-- The dictionary as a value. -/
def Doc.read (heap : Ref → Json.Fields) (doc : Doc) : Json.Fields :=
  let group := fun refs : List Ref => Json.arr (refs.map fun r => .obj (heap r))
  Dict.set (Dict.set doc.fields (py "key_finds") (group doc.keyFinds)) (py "secondary_finds")
    (group doc.secondaryFinds)

/-- The references of a dictionary, in order. -/
def Doc.refs (doc : Doc) : List Ref := doc.keyFinds ++ doc.secondaryFinds

/-- The ids the `pattern_ids` of a finding goes through, which the first loop has checked. -/
def idsOf (finding : Json.Fields) : List PyStr :=
  match finding.get (py "pattern_ids") with
  | .arr items => textsOf items
  | .obj fields => Dict.keys fields
  | .str s => s.map fun c => [c]
  | _ => []

namespace Work

variable (w : Work)

/-- The findings of a result whose groups are lists. -/
def start (result : Json.Fields) : Work :=
  let key := groupItems result (py "key_finds")
  let secondary := groupItems result (py "secondary_finds")
  let fieldsOf := fun v : Json => match v with
    | .obj fields => fields
    | _ => []
  { heap := fun r => fieldsOf ((key ++ secondary)[r]?.getD .null)
    next := key.length + secondary.length
    doc := ⟨result, List.range key.length, List.range' key.length secondary.length⟩
    argument := none }

/-- The argument as a value. -/
def leftBehind : Json.Fields := (w.argument.getD w.doc).read w.heap

/-- The ids of a finding. -/
def ids (r : Ref) : List PyStr := idsOf (w.heap r)

/-- `finding.get("pattern_ids") != ["unquantified"]`. -/
def quantified (r : Ref) : Bool := !isUnquantified ((w.heap r).get (py "pattern_ids"))

/-- The quantified findings, in order. -/
def items : List Ref := w.doc.refs.filter w.quantified

/-- Give a finding other fields. -/
def write (r : Ref) (finding : Json.Fields) : Work :=
  { w with heap := Function.update w.heap r finding }

/-- `finding["pattern_ids"] = ids`. -/
def setIds (r : Ref) (ids : List PyStr) : Work :=
  w.write r (Dict.set (w.heap r) (py "pattern_ids") (texts ids))

/-- Bind `result` to a new dictionary with the same other fields. -/
def rebind (keyFinds secondaryFinds : List Ref) : Work :=
  let rest := w.doc.fields.filter fun p =>
    p.1 ≠ py "key_finds" ∧ p.1 ≠ py "secondary_finds"
  { w with
    doc := ⟨[(py "key_finds", .arr []), (py "secondary_finds", .arr [])] ++ rest, keyFinds,
      secondaryFinds⟩
    argument := some (w.argument.getD w.doc) }

/-- Whether the `pattern_ids` of a finding can be iterated; a missing one is an empty list. -/
def iterable (r : Ref) : Bool :=
  match Dict.get? (w.heap r) (py "pattern_ids") with
  | none | some (.arr _) | some (.obj _) | some (.str _) => true
  | _ => false

end Work

/-! ## Merging by families -/

section Families

variable (env : Env) (st : Statistics)

/-- The families of a finding, in the order a set of them is iterated. -/
def familiesOf (ids : List PyStr) : List PyStr :=
  env.setOrder (ids.filterMap (Dict.get? (familyByPattern st)))

/-- What the loop over the findings carries: the forest, and a finding of each family. -/
structure Linked where
  parent : ℕ → ℕ
  familyToItem : Dict PyStr ℕ

/-- The loop over the families of finding `index`. -/
def linkFamily (n index : ℕ) (s : Linked) (family : PyStr) : Linked :=
  match Dict.get? s.familyToItem family with
  | some previous => { s with parent := UnionFind.union n s.parent index previous }
  | none => { s with familyToItem := Dict.set s.familyToItem family index }

/-- The forest over `n` findings, from the families of each. -/
def linkFamilies (families : List (List PyStr)) : Linked :=
  families.zipIdx.foldl
    (fun s item => item.1.foldl (linkFamily families.length item.2) s) ⟨id, []⟩

/-- `components[find(index)].append(item)`. -/
def addToComponent (n : ℕ) (s : (ℕ → ℕ) × Dict ℕ (List Ref)) (item : Ref × ℕ) :
    (ℕ → ℕ) × Dict ℕ (List Ref) :=
  let (root, parent) := UnionFind.find n s.1 item.2
  (parent, Dict.push s.2 root item.1)

/-- The components of the findings, each in order. -/
def components (w : Work) : List (List Ref) :=
  let items := w.items
  let linked := linkFamilies (items.map fun r => familiesOf env st (w.ids r))
  let (_, components) := items.zipIdx.foldl (addToComponent items.length) (linked.parent, [])
  components.map (·.2)

/-- The first key find of a component, or its first finding. -/
def primaryOf (w : Work) (component : List Ref) : Option Ref :=
  match component.find? w.doc.keyFinds.contains with
  | some r => some r
  | none => component.head?

/-- The primary finding of a component gets the ids of all of them. -/
def mergeComponent (w : Work) (component : List Ref) : Work :=
  match primaryOf w component with
  | some r => w.setIds r (component.flatMap w.ids).eraseDups
  | none => w

/-- The union-find over the findings, and the merging of its components. -/
def mergeFamilies (w : Work) : Work :=
  let components := components env st w
  if components.any fun c => 1 < c.length then
    let primaries := components.filterMap (primaryOf w)
    let merged := components.foldl mergeComponent w
    let rebuilt := fun group : List Ref =>
      primaries.filter group.contains ++ group.filter fun r => !merged.quantified r
    merged.rebind (rebuilt w.doc.keyFinds) (rebuilt w.doc.secondaryFinds)
  else w

end Families

/-! ## Merging by details -/

section Details

variable (env : Env)

/-- `_compact_narrative_key`. -/
def compactNarrativeKey (value : PyStr) : PyStr :=
  (Regex.plus (.chars fun c => !env.isWord c)).sub env.isWord [] (env.casefold value)

/-- The signatures a finding is recognised by: its long details. -/
def signatures (finding : Json.Fields) : List PyStr :=
  ["detail_en", "detail_zh"].filterMap fun key => match finding.get (py key) with
    | .str value =>
      let signature := compactNarrativeKey env value
      if 32 ≤ signature.length then some signature else none
    | _ => none

/-- The owner of the first signature another finding owns; until then the finding owns its
signatures. -/
def findOwner (r : Ref) (owners : Dict PyStr Ref) : List PyStr → Dict PyStr Ref × Option Ref
  | [] => (owners, none)
  | signature :: rest =>
    match Dict.get? owners signature with
    | some owner =>
      if owner = r then findOwner r (Dict.set owners signature r) rest else (owners, some owner)
    | none => findOwner r (Dict.set owners signature r) rest

/-- The duplicates among some findings, with the finding each of them duplicates. -/
def duplicates (w : Work) (refs : List Ref) : List (Ref × Ref) :=
  (refs.foldl (fun (s : Dict PyStr Ref × List (Ref × Ref)) r =>
    let (owners, owner) := findOwner r s.1 (signatures env (w.heap r))
    (owners, s.2 ++ (owner.map fun o => (r, o)).toList)) ([], [])).2

/-- The owner of a duplicate gets its ids. -/
def mergeDuplicate (w : Work) (p : Ref × Ref) : Work :=
  w.setIds p.2 (w.ids p.2 ++ w.ids p.1).eraseDups

/-- The merging of findings with the same detail. -/
def mergeDuplicates (w : Work) : Work :=
  let dups := duplicates env w w.items
  if dups = [] then w
  else
    let unique := fun r => !(dups.map (·.1)).contains r
    (dups.foldl mergeDuplicate w).rebind (w.doc.keyFinds.filter unique)
      (w.doc.secondaryFinds.filter unique)

end Details

/-! ## Counts -/

section Counts

variable (st : Statistics)

/-- The count and the percentage of a finding, from its ids. -/
def recountFinding (w : Work) (r : Ref) : Work :=
  w.write r (setCount st (w.heap r) (countOf st (w.ids r)))

/-- The counts of all quantified findings. -/
def recount (w : Work) : Work := w.items.foldl (recountFinding st) w

/-- The ids of all quantified findings. -/
def usedIds (w : Work) : List PyStr := w.items.flatMap w.ids

end Counts

/-! ## Unquantified findings -/

section Repair

variable (env : Env) (st : Statistics)

/-- The tokens that are no hint. -/
def stopTokens : List PyStr :=
  ["related", "failure", "failures", "error", "entries", "pattern", "timeout", "exception",
    "database", "query", "service", "logged", "json", "http", "response", "return", "warning",
    "failed", "parse", "callback", "external", "third", "api", "request", "line", "trace"].map py

/-- `[a-z][a-z0-9_]{3,}|\b\d{3}\b` -/
def tokenRegex : Regex :=
  let isLower := fun c => decide (97 ≤ c) && decide (c ≤ 122)
  .alt
    (.concat [.chars isLower, .rep 3 none (.chars fun c => isLower c || isAsciiDigit c || c == 95)])
    (.concat [.boundary, .times 3 (digit env), .boundary])

/-- The hints of a pattern: the tokens of its label and template. -/
def hintsOf (p : Pattern) : List PyStr :=
  let source := env.casefold
    (joinText (py " ") [Dict.getD (familyLabels st) p.family [], p.template])
  (((tokenRegex env).findAll env.isWord source).map Regex.Match.text).filter
    fun token => !stopTokens.contains token

/-- `family_hints`. -/
def familyHints : Dict PyStr (List PyStr) :=
  (namedPatterns st).foldl
    (fun d p => Dict.set d p.family (Dict.getD d p.family [] ++ hintsOf env st p)) []

/-- The families preferred when their marker occurs. -/
def preferredMarkers : List (PyStr × PyStr) :=
  [(py "ndrp-availability", py "ndrp"), (py "elasticsearch-timeout", py "elasticsearch"),
    (py "clickhouse-sql", py "clickhouse"), (py "face-compare-timeout", py "facecompare"),
    (py "payment-order-missing", py "payment")]

/-- The text of a finding. -/
def findingText (finding : Json.Fields) : PyStr :=
  env.casefold (joinText (py " ") (["label_en", "detail_en", "label_zh", "detail_zh"].map fun key =>
    env.str (finding.getD (py key) (.str []))))

/-- The families a text matches. -/
def matchingFamilies (text : PyStr) : List PyStr :=
  let hints := familyHints env st
  let preferred := (preferredMarkers.filter fun p =>
    Dict.contains hints p.1 && hasText p.2 text).map (·.1)
  if preferred.length = 1 then preferred
  else (hints.filter fun p => p.2.any fun hint => 4 ≤ hint.length && hasText hint text).map (·.1)

/-- The patterns recorded under a family. -/
def memberIds (family : PyStr) : List PyStr :=
  ((namedPatterns st).filter fun p => p.familyId = some family).map (·.id)

/-- What the loop over the unquantified findings carries. -/
structure Repaired where
  work : Work
  familyUsed : List PyStr
  removed : List Ref

/-- An unquantified finding that matches one family gets its patterns, or is removed when the
family is used already. -/
def repairFinding (s : Repaired) (r : Ref) : Repaired :=
  match matchingFamilies env st (findingText env (s.work.heap r)) with
  | [family] =>
    if s.familyUsed.contains family then { s with removed := r :: s.removed }
    else match memberIds st family with
      | [] => s
      | members =>
        let work := s.work.setIds r members
        { s with
          work := work.write r (setCount st (work.heap r) (countOf st members))
          familyUsed := family :: s.familyUsed }
  | _ => s

/-- The loop over the unquantified findings, and the removal of duplicates. -/
def repairUnquantified (w : Work) : Work :=
  let familyUsed := (usedIds w).filterMap (Dict.get? (familyByPattern st))
  let s := (w.doc.refs.filter fun r => !w.quantified r).foldl (repairFinding env st)
    ⟨w, familyUsed, []⟩
  let kept := fun refs : List Ref => refs.filter fun r => !s.removed.contains r
  { s.work with
    doc := { s.work.doc with
      keyFinds := kept s.work.doc.keyFinds
      secondaryFinds := kept s.work.doc.secondaryFinds } }

end Repair

/-! ## Appended findings -/

section Append

variable (env : Env) (st : Statistics)

/-- `str.rstrip`. -/
def rstrip (text : PyStr) : PyStr := (text.reverse.dropWhile PyStr.isSpace).reverse

/-- The descriptor of a label: no sentence ends, and at most 180 characters. -/
def descriptor (label : PyStr) : PyStr :=
  let text := (Regex.plus (.chars (among ".!?。！？"))).sub env.isWord (py " ") label
  rstrip ((whitespaceRegex.sub env.isWord (py " ") text).strip.take 180)

/-- A finding for patterns of one family, the first of which is `item`. -/
def familyFinding (kind : String) (family : PyStr) (item : Pattern) (ids : List PyStr)
    (count : ℕ) (detailEn detailZh : PyStr) : Json.Fields :=
  let label := (Dict.get? (familyLabels st) family).getD item.template
  [(py "id", .str (py kind ++ family)), (py "label_en", .str label), (py "label_zh", .str label),
    (py "count", .int count), (py "percentage", percentage count st.totalEntries),
    (py "pattern_ids", texts ids), (py "detail_en", .str detailEn),
    (py "detail_zh", .str detailZh)]

/-- `existing_by_family`: the last finding with a pattern of a family. -/
def existingByFamily (w : Work) : Dict PyStr Ref :=
  Dict.ofList (w.doc.refs.flatMap fun r =>
    (w.ids r).filterMap fun id =>
      match Dict.get? (familyByPattern st) id with
      | some (c :: cs) => some (c :: cs, r)
      | _ => none)

/-- The patterns of the manifest that are not used, by family. -/
def omittedByFamily (used : List PyStr) : Dict PyStr (List Pattern) :=
  Dict.groupBy Pattern.family ((namedPatterns st).filter fun p => !used.contains p.id)

/-- The unused patterns of one family go to the finding that has the family, or to a new one. -/
def appendFamily (existing : Dict PyStr Ref) (w : Work) (group : PyStr × List Pattern) : Work :=
  let (family, items) := group
  let ids := items.map (·.id)
  match Dict.get? existing family with
  | some r =>
    let all := (w.ids r ++ ids).eraseDups
    let w := w.setIds r all
    w.write r (setCount st (w.heap r) (countOf st all))
  | none =>
    match items with
    | [] => w
    | item :: _ =>
      let label := (Dict.get? (familyLabels st) family).getD item.template
      let about := descriptor env label
      let finding := familyFinding st "unlabeled-" family item ids (items.map (·.count)).sum
        (py "Observed related log entries matching: " ++ about ++ py ".")
        (py "相关日志条目匹配以下模式：" ++ about ++ py "。")
      { w.write w.next finding with
        next := w.next + 1
        doc := { w.doc with secondaryFinds := w.doc.secondaryFinds ++ [w.next] } }

/-- The patterns nobody has claimed. -/
def appendOmitted (w : Work) : Work :=
  (omittedByFamily st (usedIds w)).foldl (appendFamily env st (existingByFamily st w)) w

/-- A result without key finds gets its first secondary find as one, or a new one. -/
def promote (w : Work) : Work :=
  match w.doc.keyFinds, w.doc.secondaryFinds with
  | [], r :: rest => { w with doc := { w.doc with keyFinds := [r], secondaryFinds := rest } }
  | [], [] =>
    match (namedPatterns st).head? with
    | some item =>
      let label := (Dict.get? (familyLabels st) item.family).getD item.template
      let members := memberIds st item.family
      let finding := familyFinding st "fallback-" item.family item members (countOf st members)
        (py "Observed the dominant deterministic family: " ++ label ++ py ".")
        (py "检测到主要确定性模式族：" ++ label ++ py "。")
      { w.write w.next finding with
        next := w.next + 1
        doc := { w.doc with keyFinds := [w.next] } }
    | none => w
  | _, _ => w

end Append

/-! ## The whole -/

section Reconcile

variable (env : Env) (st : Statistics) (fallback : Bool)

/-- What follows the first loop, when every `pattern_ids` can be iterated. -/
def finishPatterns (w : Work) : Work :=
  let w := mergeFamilies env st w
  let w := if fallback then mergeDuplicates env w else w
  let w := recount st w
  let w := if fallback then repairUnquantified env st w else w
  let w := appendOmitted env st w
  let w := if fallback then promote st w else w
  { w with doc := { w.doc with
    fields := Dict.set w.doc.fields (py "total_entries") (.int st.totalEntries) } }

/-- `reconcile_result` on a result whose findings name no entries: the result and the argument
as it is left. -/
def reconcilePatterns (result : Json.Fields) :
    Except (Failure Json.Fields) (Json.Fields × Json.Fields) := do
  let (result, s) ← assignGroup env st fallback result ⟨[], false⟩ (py "key_finds")
  let (result, _) ← assignGroup env st fallback result s (py "secondary_finds")
  let w := Work.start result
  if w.items.all w.iterable then
    let w := finishPatterns env st fallback w
    return (w.doc.read w.heap, w.leftBehind)
  else throw (.typeError, w.leftBehind)

end Reconcile

/-- `any("evidence_entry_ids" in finding …)`. -/
def anyEvidence : List Json → Except PyError Bool
  | [] => return false
  | finding :: rest => do
    if ← hasEvidence finding then return true else anyEvidence rest

/-- The findings of the two groups in order; what is not a list is iterated all the same. -/
def iterGroups (result : Json.Fields) : List PyStr → Except PyError Bool
  | [] => return false
  | name :: names => do
    let items ← (result.getD name (.arr [])).iter
    if ← anyEvidence items then return true else iterGroups result names

/-- `reconcile_result`: the result, and the argument as it is left. -/
def reconcileResult (env : Env) (st : Statistics) (fallback : Bool) (result : Json.Fields) :
    Except (Failure Json.Fields) (Json.Fields × Json.Fields) :=
  match iterGroups result groupNames with
  | .error e => .error (e, result)
  | .ok true => do
    let out ← reconcileEntryGrouped env st result
    return (out, out)
  | .ok false => reconcilePatterns env st fallback result

end Triage

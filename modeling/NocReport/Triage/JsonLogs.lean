import NocReport.Foundation.JsonNewlines
import NocReport.Foundation.JsonRoundTrip
import NocReport.Triage.EntryPartition

set_option relaxedAutoImplicit false
set_option autoImplicit false

/-!
# Logs that are written as JSON

How logs are cut into entries (`sandbox/preprocessing.py`) when the JSON library reads and writes
as it does, for the two ways a worker gets at the text of an evidence file
(`bridge/noc_bridge/worker.py`): `raw_bytes.decode("utf-8")` when it processes a job, and
`evidence_path.read_text(encoding="utf-8")` when it looks for the result of an earlier attempt.

## Main definitions

* `Triage.Env.withJson` — the parameters, with the JSON library in its place.
* `Triage.CutAlike` — objects as an array and as lines are cut into the same entries.

## Main results

* `Triage.preprocessLog_readText` — both ways lead to the same statistics.
* `Triage.cutAlike_iff` — when objects are cut alike.
-/

namespace Triage

open TextFile

/-- The parameters, with `json.loads`, `json.dumps` and `repr` in their places. -/
def Env.withJson (env : Env) (lib : PyJson.Lib) : Env :=
  { env with
    repr := PyJson.repr lib
    jsonLoads := PyJson.loads lib
    jsonDumps := PyJson.dumps lib }

/-! ## Line ends -/

section Newlines

variable {env : Env} {lib : PyJson.Lib}

lemma splitLinesFrom_cons {line text : PyStr} {c : ℕ} (hc : c ≠ 13) :
    splitLinesFrom line (c :: text) =
      if isLineBreak c then line.reverse :: splitLinesFrom [] text
      else splitLinesFrom (c :: line) text := by
  rw [splitLinesFrom.eq_def]
  split
  · next h => cases h
  · next h =>
    cases h
    exact absurd rfl hc
  · next h =>
    cases h
    rfl

/-- A carriage return ends the line, with the line feed after it. -/
lemma splitLinesFrom_return {line text : PyStr} :
    splitLinesFrom line (13 :: text) =
      line.reverse :: splitLinesFrom [] (if text.head? = some 10 then text.tail else text) := by
  cases text with
  | nil => rfl
  | cons c text =>
    by_cases hc : c = 10
    · subst hc
      rfl
    · rw [splitLinesFrom.eq_def]
      split
      · next h => cases h
      · next h =>
        cases h
        exact absurd rfl hc
      · next h =>
        cases h
        simp [isLineBreak, hc]

/-- The lines of a text do not depend on how the lines end. -/
lemma splitLines_universalNewlines (text : PyStr) :
    splitLines (universalNewlines text) = splitLines text := by
  have hfrom : ∀ line : PyStr,
      splitLinesFrom line (newlinesFrom false text) = splitLinesFrom line text ∧
      splitLinesFrom line (newlinesFrom true text) =
        splitLinesFrom line (if text.head? = some 10 then text.tail else text) := by
    induction text with
    | nil => exact fun line => ⟨rfl, rfl⟩
    | cons c text ih =>
      -- what the translation does but for a line feed that is left out
      have hstep : ∀ line : PyStr, splitLinesFrom line
          (if c = 13 then 10 :: newlinesFrom true text else c :: newlinesFrom false text) =
            splitLinesFrom line (c :: text) := by
        intro line
        split
        · next hc =>
          subst hc
          rw [splitLinesFrom_return, splitLinesFrom_cons (by decide), if_pos (by decide),
            (ih []).2]
        · next hc => rw [splitLinesFrom_cons hc, splitLinesFrom_cons hc, (ih []).1, (ih (c :: line)).1]
      intro line
      simp only [newlinesFrom, Bool.false_eq_true, false_and, if_false, true_and,
        List.head?_cons, Option.some.injEq, List.tail_cons]
      refine ⟨hstep line, ?_⟩
      by_cases hc : c = 10
      · subst hc
        rw [if_neg (by decide), if_pos rfl, if_pos rfl, (ih line).1]
      · rw [if_neg hc, if_neg hc]
        exact hstep line
  exact (hfrom []).1

/-- The entries of a log do not depend on how the lines end. -/
lemma entries_universalNewlines (text : PyStr) :
    entries (env.withJson lib) (universalNewlines text) = entries (env.withJson lib) text := by
  have hloads : tryLoads (env.withJson lib) (universalNewlines text) =
      tryLoads (env.withJson lib) text := by
    unfold tryLoads
    dsimp only [Env.withJson]
    rw [PyJson.loads_universalNewlines]
  unfold entries
  rw [hloads, splitLines_universalNewlines]

/-- **The recovery of a job computes the statistics of its processing.** Whatever the evidence file
holds, the text that `read_text` makes of it has the statistics of the text that `decode` makes of
it; both raise the same on bytes that are not UTF-8. -/
theorem preprocessLog_readText (env : Env) (lib : PyJson.Lib) (raw : List UInt8) :
    (readText raw).map (preprocessLog (env.withJson lib)) =
      (decodeUtf8 raw).map (preprocessLog (env.withJson lib)) := by
  unfold readText
  cases decodeUtf8 raw with
  | error e => rfl
  | ok text =>
    refine congrArg Except.ok ?_
    rw [preprocessLog, preprocessLog, preprocessLogWith, preprocessLogWith,
      entries_universalNewlines]

end Newlines

/-! ## One array, or one object a line -/

/-- The objects as one JSON array. -/
def arrayText (lib : PyJson.Lib) (objects : List Json.Fields) : PyStr :=
  PyJson.dumps lib (.arr (objects.map .obj))

/-- The objects as JSON lines. -/
def linesText (lib : PyJson.Lib) (objects : List Json.Fields) : PyStr :=
  objects.flatMap fun fields => PyJson.dumps lib (.obj fields) ++ [10]

/-- Both ways to write the objects down are cut into the same entries. -/
def CutAlike (env : Env) (lib : PyJson.Lib) (objects : List Json.Fields) : Prop :=
  ∃ es, entries (env.withJson lib) (arrayText lib objects) = .ok es ∧
    entries (env.withJson lib) (linesText lib objects) = .ok es

/-- No text of the object has a line boundary that JSON does not escape: the next line, the line
separator and the paragraph separator. -/
def NoRawBreak (fields : Json.Fields) : Prop :=
  ∀ s, .str s ∈ (Json.obj fields).leaves → ∀ c ∈ s, c ≠ 0x85 ∧ c ≠ 0x2028 ∧ c ≠ 0x2029

section Lines

variable {env : Env} {lib : PyJson.Lib} {objects : List Json.Fields} {fields : Json.Fields}

/-- What is written ends no line, but for the breaks that JSON does not escape. -/
lemma dumps_noBreak (h : NoRawBreak fields) :
    ∀ c ∈ PyJson.dumps lib (.obj fields), isLineBreak c = false := by
  refine PyJson.forall_mem_dumps (fun c h1 h2 => ?_) (.obj fields) fun s hs c hc hbig => ?_
  · simp only [isLineBreak, Bool.or_eq_false_iff, Bool.and_eq_false_iff, decide_eq_false_iff_not,
      beq_eq_false_iff_ne]
    omega
  · obtain ⟨h85, h2028, h2029⟩ := h s hs c hc
    simp only [isLineBreak, Bool.or_eq_false_iff, Bool.and_eq_false_iff, decide_eq_false_iff_not,
      beq_eq_false_iff_ne]
    omega

lemma noRawBreak_of_dumps (h : ∀ c ∈ PyJson.dumps lib (.obj fields), isLineBreak c = false) :
    NoRawBreak fields := by
  intro s hs c hc
  by_contra hbreak
  have hbig : 127 < c ∧ isLineBreak c = true := by
    rcases (by omega : c = 0x85 ∨ c = 0x2028 ∨ c = 0x2029) with rfl | rfl | rfl <;> decide
  rw [h c (PyJson.mem_dumps_of_mem_leaves hs hc hbig.1)] at hbig
  exact Bool.false_ne_true hbig.2

/-- The lines of a text have no line boundary in them. -/
lemma splitLines_noBreak {text line : PyStr} (h : line ∈ splitLines text) :
    ∀ c ∈ line, isLineBreak c = false := by
  have hfrom : ∀ start : PyStr, (∀ c ∈ start, isLineBreak c = false) →
      ∀ line ∈ splitLinesFrom start text, ∀ c ∈ line, isLineBreak c = false := by
    clear h
    intro start
    fun_induction splitLinesFrom start text with
    | case1 start hempty => simp
    | case2 start hempty => simp
    | case3 start rest ih =>
      intro hstart line hline
      rcases List.mem_cons.mp hline with rfl | hline
      · simpa using hstart
      · exact ih (by simp) line hline
    | case4 start c rest _ hbreak ih =>
      intro hstart line hline
      rcases List.mem_cons.mp hline with rfl | hline
      · simpa using hstart
      · exact ih (by simp) line hline
    | case5 start c rest _ hbreak ih =>
      intro hstart line hline
      exact ih (List.forall_mem_cons.mpr ⟨by simpa using hbreak, hstart⟩) line hline
  exact hfrom [] (by simp) line h

/-- A line and what follows it. -/
lemma splitLinesFrom_append {start line rest : PyStr} (h : ∀ c ∈ line, isLineBreak c = false) :
    splitLinesFrom start (line ++ 10 :: rest) = (start.reverse ++ line) :: splitLinesFrom [] rest := by
  induction line generalizing start with
  | nil => simp [splitLinesFrom_cons, isLineBreak]
  | cons c line ih =>
    obtain ⟨hc, hline⟩ := List.forall_mem_cons.mp h
    have h13 : c ≠ 13 := by
      rintro rfl
      cases hc
    rw [List.cons_append, splitLinesFrom_cons h13, hc, if_neg (by decide), ih hline]
    simp

lemma splitLines_linesText (h : ∀ fields ∈ objects, NoRawBreak fields) :
    splitLines (linesText lib objects) = objects.map fun fields => PyJson.dumps lib (.obj fields) := by
  induction objects with
  | nil => rfl
  | cons fields objects ih =>
    obtain ⟨hfields, hobjects⟩ := List.forall_mem_cons.mp h
    rw [linesText, List.flatMap_cons, List.append_assoc, splitLines,
      List.singleton_append, splitLinesFrom_append (dumps_noBreak hfields)]
    exact congrArg _ (ih hobjects)

/-- An object is not blank. -/
lemma notBlank_dumps (fields : Json.Fields) :
    notBlank (PyJson.dumps lib (.obj fields)) = true := by
  obtain ⟨text, h⟩ := PyJson.dumps_obj_starts lib fields
  rw [h]
  exact notBlank_cons (by decide)

/-- The entries of objects. -/
def objectEntries (lib : PyJson.Lib) (objects : List Json.Fields) : List LogEntry :=
  objects.map fun fields => (PyJson.dumps lib (.obj fields), some fields)

/-- The objects can be read inside an array. -/
def FitsArray (lib : PyJson.Lib) (objects : List Json.Fields) : Prop :=
  ∀ fields ∈ objects, (Json.obj fields).depth < lib.maxDepth ∧
    PyJson.IntegersFit lib (.obj fields)

lemma within_array_iff (hne : objects ≠ []) :
    PyJson.Within lib lib.maxDepth (.arr (objects.map .obj)) ↔ FitsArray lib objects := by
  unfold FitsArray
  cases h : lib.maxDepth with
  | zero =>
    refine iff_of_false (fun hw => absurd hw.depth (by simp [Json.depth])) fun hall => ?_
    obtain ⟨fields, hfields⟩ := List.exists_mem_of_ne_nil objects hne
    exact Nat.not_lt_zero _ (hall fields hfields).1
  | succ d =>
    rw [PyJson.within_arr, List.forall_mem_map]
    exact forall₂_congr fun fields _ =>
      ⟨fun hw => ⟨Nat.lt_succ_of_le hw.depth, hw.digits⟩, fun hr => ⟨Nat.le_of_lt_succ hr.1, hr.2⟩⟩

/-- The entries of an array of objects. -/
lemma entries_of_array {text : PyStr}
    (h : PyJson.loads lib text = .ok (.arr (objects.map .obj))) :
    entries (env.withJson lib) text = .ok (objectEntries lib objects) := by
  have hfilter : (objectEntries lib objects).filter (fun entry => notBlank entry.1) =
      objectEntries lib objects := by
    rw [List.filter_eq_self]
    intro entry hentry
    obtain ⟨fields, -, rfl⟩ := List.mem_map.mp hentry
    exact notBlank_dumps fields
  unfold entries tryLoads
  dsimp only [Env.withJson]
  rw [h]
  change Except.ok (List.filter _ (List.map _ (List.map _ _))) = _
  rw [List.map_map]
  exact congrArg Except.ok hfilter

/-- What raises neither `JSONDecodeError` nor `TypeError` has no entries. -/
lemma entries_of_error {text : PyStr} {e : PyError} (h : PyJson.loads lib text = .error e)
    (hne : e ≠ PyJson.decodeError ∧ e ≠ .typeError) :
    entries (env.withJson lib) text = .error e := by
  have hcaught : ¬ (e = jsonDecodeError ∨ e = .typeError) := not_or.mpr hne
  unfold entries tryLoads
  dsimp only [Env.withJson]
  rw [h]
  dsimp only
  rw [if_neg hcaught]
  rfl

/-- The entries of the array are those of the objects, when it can be read. -/
lemma entries_arrayText (hne : objects ≠ [])
    (hwritten : ∀ fields ∈ objects, PyJson.Written lib (.obj fields)) {es : List LogEntry} :
    entries (env.withJson lib) (arrayText lib objects) = .ok es ↔
      FitsArray lib objects ∧ es = objectEntries lib objects := by
  have harray : PyJson.Written lib (.arr (objects.map .obj)) :=
    .arr _ (List.forall_mem_map.mpr hwritten)
  obtain ⟨hok, herror⟩ := PyJson.loads_dumps harray
  rw [within_array_iff hne] at hok herror
  by_cases hread : FitsArray lib objects
  · rw [arrayText, entries_of_array (hok hread), Except.ok.injEq]
    exact ⟨fun h => ⟨hread, h.symm⟩, fun h => h.2.symm⟩
  · obtain ⟨e, he, hcaught⟩ := herror hread
    rw [arrayText, entries_of_error he hcaught]
    exact iff_of_false (by simp) fun h => hread h.1

/-- The lines are no JSON text: there is something behind the first object. -/
lemma loads_linesText {first second : Json.Fields} (hfirst : PyJson.Written lib (.obj first))
    (hread : PyJson.Within lib lib.maxDepth (.obj first)) :
    PyJson.loads lib (linesText lib (first :: second :: objects)) = .error PyJson.decodeError := by
  obtain ⟨text, htext⟩ := PyJson.dumps_obj_starts lib second
  have hlines : linesText lib (first :: second :: objects) = PyJson.dumps lib (.obj first) ++
      10 :: 123 :: (text ++ 10 :: linesText lib objects) := by
    simp [linesText, htext]
  have hstops : PyJson.Stops (10 :: 123 :: (text ++ 10 :: linesText lib objects)) :=
    PyJson.stops_cons (by decide)
  rw [hlines, (PyJson.loads_dumps_append hfirst hstops).1 hread]
  exact if_neg (List.cons_ne_nil _ _)

/-- A text that is no JSON is cut into lines. -/
lemma entries_of_noJson {text : PyStr}
    (h : PyJson.loads lib text = .error PyJson.decodeError) :
    entries (env.withJson lib) text = ((splitLines text).filter notBlank).mapM fun line => do
      return (line, ← jsonObject (env.withJson lib) line) := by
  unfold entries
  have hnone : tryLoads (env.withJson lib) text = .ok none := by
    unfold tryLoads
    dsimp only [Env.withJson]
    rw [h]
    exact if_pos (.inl rfl)
  rw [hnone]
  rfl

/-- The object in a line. -/
lemma jsonObject_dumps (hfields : PyJson.Written lib (.obj fields))
    (hread : PyJson.Within lib lib.maxDepth (.obj fields)) :
    jsonObject (env.withJson lib) (PyJson.dumps lib (.obj fields)) = .ok (some fields) := by
  unfold jsonObject tryLoads
  dsimp only [Env.withJson]
  rw [(PyJson.loads_dumps hfields).1 hread]
  rfl

lemma FitsArray.within (hread : FitsArray lib objects) (hfields : fields ∈ objects) :
    PyJson.Within lib lib.maxDepth (.obj fields) :=
  ⟨(hread fields hfields).1.le, (hread fields hfields).2⟩

/-- When the array can be read, the entries of the lines are those of the objects, if no line is
broken. -/
lemma entries_linesText_iff {first second : Json.Fields}
    (hwritten : ∀ fields ∈ first :: second :: objects, PyJson.Written lib (.obj fields))
    (hread : FitsArray lib (first :: second :: objects)) :
    entries (env.withJson lib) (linesText lib (first :: second :: objects)) =
        .ok (objectEntries lib (first :: second :: objects)) ↔
      ∀ fields ∈ first :: second :: objects, NoRawBreak fields := by
  rw [entries_of_noJson (loads_linesText (hwritten first List.mem_cons_self)
    (hread.within List.mem_cons_self)), Except.mapM_eq_ok]
  generalize first :: second :: objects = objects at *
  constructor
  · intro hall fields hfields
    obtain ⟨line, hline, hentry⟩ := List.Forall₂.exists_left hall
      (List.mem_map.mpr ⟨fields, hfields, rfl⟩)
    obtain ⟨object, -, hentry⟩ := Except.bind_eq_ok.mp hentry
    cases hentry
    exact noRawBreak_of_dumps (splitLines_noBreak (List.mem_filter.mp hline).1)
  · intro hbreak
    have hblank : (splitLines (linesText lib objects)).filter notBlank =
        objects.map fun fields => PyJson.dumps lib (.obj fields) := by
      rw [splitLines_linesText hbreak, List.filter_eq_self]
      intro line hline
      obtain ⟨fields, -, rfl⟩ := List.mem_map.mp hline
      exact notBlank_dumps fields
    rw [hblank, objectEntries, List.forall₂_map_left_iff, List.forall₂_map_right_iff,
      List.forall₂_same]
    intro fields hfields
    rw [jsonObject_dumps (hwritten fields hfields) (hread.within hfields)]
    rfl

end Lines

/-- **JSON lines are cut like a JSON array** exactly when the array can be read and no text has a
line boundary that JSON does not escape; in other words, of the objects that can be read inside an
array, those with the next line, the line separator or the paragraph separator in a text are torn
into several lines. -/
theorem cutAlike_iff (env : Env) (lib : PyJson.Lib) (objects : List Json.Fields)
    (htwo : 2 ≤ objects.length)
    (hwritten : ∀ fields ∈ objects, PyJson.Written lib (.obj fields)) :
    CutAlike env lib objects ↔
      FitsArray lib objects ∧ ∀ fields ∈ objects, NoRawBreak fields := by
  obtain ⟨first, second, objects, rfl⟩ : ∃ first second rest, objects = first :: second :: rest := by
    cases objects with
    | nil => simp at htwo
    | cons first objects =>
      cases objects with
      | nil => simp at htwo
      | cons second rest => exact ⟨first, second, rest, rfl⟩
  constructor
  · rintro ⟨es, harray, hlines⟩
    obtain ⟨hread, rfl⟩ := (entries_arrayText (List.cons_ne_nil _ _) hwritten).mp harray
    exact ⟨hread, (entries_linesText_iff hwritten hread).mp hlines⟩
  · rintro ⟨hread, hbreak⟩
    exact ⟨_, (entries_arrayText (List.cons_ne_nil _ _) hwritten).mpr ⟨hread, rfl⟩,
      (entries_linesText_iff hwritten hread).mpr hbreak⟩

/-- A zeroNumber. -/
def zeroNumber : PyJson.Number := ⟨[], [48], [46, 48], []⟩

lemma zeroNumber_valid : zeroNumber.Valid where
  sign := .inl rfl
  digits := ⟨List.cons_ne_nil _ _, by decide⟩
  whole := fun _ => rfl
  fraction := .inr ⟨[48], ⟨List.cons_ne_nil _ _, by decide⟩, rfl⟩
  exponent := .inl rfl

lemma zeroNumber_isFloat (q : ℚ) : ∃ n : PyJson.Number, n.Valid ∧
    (n.fraction ≠ [] ∨ n.exponent ≠ []) ∧ (fun _ : ℚ => zeroNumber.text) q = n.text :=
  ⟨zeroNumber, zeroNumber_valid, .inl (List.cons_ne_nil _ _), rfl⟩

/-- A library for values without floats. -/
def sampleLib : PyJson.Lib where
  floatRepr := fun _ => zeroNumber.text
  floatRepr_number := zeroNumber_isFloat
  readFloat := fun _ => .finite 0
  isPrintable := fun c => decide (160 < c)
  intDigits := 4300
  maxDepth := 1000

/-- An object with a text, and an empty object. -/
def sampleObjects (text : PyStr) : List Json.Fields := [[(py "a", .str text)], []]

lemma sampleObjects_written (text : PyStr) :
    ∀ fields ∈ sampleObjects text, PyJson.Written sampleLib (.obj fields) := by
  simp only [sampleObjects, List.forall_mem_cons]
  refine ⟨.obj _ (by simp) ?_, .obj _ (by simp) (by simp), by simp⟩
  simp only [List.forall_mem_cons]
  exact ⟨.str text, by simp⟩

lemma sampleObjects_readable (text : PyStr) : FitsArray sampleLib (sampleObjects text) := by
  simp [FitsArray, sampleObjects, Json.depth, Json.depthFields, PyJson.IntegersFit, Json.leaves,
    Json.leavesFields, sampleLib]

/-- Objects without such texts are cut alike. -/
theorem sampleObjects_cutAlike : CutAlike sampleEnv sampleLib (sampleObjects (py "b")) := by
  refine (cutAlike_iff sampleEnv sampleLib (sampleObjects (py "b")) (by decide)
    (sampleObjects_written _)).mpr ⟨sampleObjects_readable _, ?_⟩
  have hb : ∀ c ∈ py "b", c ≠ 0x85 ∧ c ≠ 0x2028 ∧ c ≠ 0x2029 := by decide
  have ha : ∀ c ∈ py "a", c ≠ 0x85 ∧ c ≠ 0x2028 ∧ c ≠ 0x2029 := by decide
  simp only [sampleObjects, List.forall_mem_cons, NoRawBreak, Json.leaves, Json.leavesFields]
  simpa using ⟨ha, hb⟩

/-- Not all objects are: the line of one with a line separator in a text is torn. -/
theorem cutAlike_fails :
    ¬ ∀ (env : Env) (lib : PyJson.Lib) (objects : List Json.Fields), 2 ≤ objects.length →
      (∀ fields ∈ objects, PyJson.Written lib (.obj fields)) → CutAlike env lib objects := by
  intro h
  obtain ⟨es, harray, hlines⟩ := h sampleEnv sampleLib (sampleObjects [120, 0x2028, 121])
    (by decide) (sampleObjects_written _)
  obtain ⟨hread, rfl⟩ := (entries_arrayText (List.cons_ne_nil _ _)
    (sampleObjects_written _)).mp harray
  have hbreak := (entries_linesText_iff (sampleObjects_written _) hread).mp hlines
  exact (hbreak _ List.mem_cons_self [120, 0x2028, 121]
    (by simp [Json.leaves, Json.leavesFields]) 0x2028 (by decide)).2.1 rfl

end Triage

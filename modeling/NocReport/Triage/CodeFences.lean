import NocReport.Foundation.JsonLineBreaks
import NocReport.Triage.JsonLogs

set_option relaxedAutoImplicit false
set_option autoImplicit false

/-!
# Answers in code fences

What the worker makes of the text a model answers (`bridge/noc_bridge/hermes.py`): bare JSON, or one
complete code fence. The fence is cut off by lines, and a line ends in more places than where JSON
allows it to.

## Main definitions

* `Triage.parseStructuredContent` — `_parse_structured_content`.
* `Triage.fenced` — a text in a code fence.

## Main results

* `Triage.parseStructuredContent_fenced_iff` — when an object is read alike in a fence and without.
-/

namespace Triage

open TextFile

/-- What is inside a code fence, in `_parse_structured_content`; `lower` is `str.lower`. -/
def fenceContent (lower : PyStr → PyStr) (text : PyStr) : Except PyError PyStr :=
  let lines := splitLines text
  let lastLine : PyStr := lines.getLastD []
  let firstLine : PyStr := lines.headD []
  if lines.length < 3 ∨ lastLine.strip ≠ py "```" then
    throw (.valueError (py "incomplete structured JSON fence"))
  else if lower (PyStr.strip (firstLine.drop 3)) ∉ [py "", py "json"] then
    throw (.valueError (py "structured output used a non-JSON fence"))
  else return (joinText (py "\n") lines.tail.dropLast).strip

/-- `_parse_structured_content`. -/
def parseStructuredContent (lib : PyJson.Lib) (lower : PyStr → PyStr) (content : PyStr) :
    Except PyError Json.Fields := do
  let text ← if (py "```").isPrefixOf content.strip then fenceContent lower content.strip
    else pure content.strip
  match ← PyJson.loads lib text with
  | .obj result => return result
  | _ => throw (.valueError (py "assistant content is not a JSON object"))

/-- A text in a code fence. -/
def fenced (s : PyStr) : PyStr := py "```json\n" ++ s ++ py "\n```"

/-! ## The lines of a fence -/

/-- What becomes of the end of a line when the lines are joined again. -/
def lineFeed (c : ℕ) : ℕ := if isLineBreak c = true ∧ c ≠ 13 then 10 else c

lemma lineFeed_feeds : PyJson.Feeds lineFeed where
  ascii := by
    intro c h32 h127
    have hno : isLineBreak c = false := by
      simp only [isLineBreak, Bool.or_eq_false_iff, Bool.and_eq_false_iff, decide_eq_false_iff_not,
        beq_eq_false_iff_ne]
      omega
    simp [lineFeed, hno]
  space := by
    intro c hc
    simp only [PyJson.isWhitespace, decide_eq_true_eq] at hc
    rcases hc with rfl | rfl | rfl | rfl <;> decide
  feed := by
    intro c
    unfold lineFeed
    split_ifs
    · exact .inr rfl
    · exact .inl rfl

lemma lineFeed_eq_self_iff {c : ℕ} :
    lineFeed c = c ↔ (isLineBreak c = true → c = 10 ∨ c = 13) := by
  unfold lineFeed
  split_ifs with h
  · simp only [h.1, true_imp_iff, h.2, or_false, eq_comm]
  · simp only [true_iff]
    intro hbreak
    by_contra hno
    exact h ⟨hbreak, fun h13 => hno (.inr h13)⟩

lemma isSpace_of_isLineBreak {c : ℕ} (h : isLineBreak c = true) : PyStr.isSpace c = true := by
  simp only [isLineBreak, Bool.or_eq_true, Bool.and_eq_true, decide_eq_true_eq, beq_iff_eq] at h
  simp only [PyStr.isSpace, Bool.or_eq_true, Bool.and_eq_true, decide_eq_true_eq, beq_iff_eq]
  omega

lemma isSpace_lineFeed (c : ℕ) : PyStr.isSpace (lineFeed c) = PyStr.isSpace c := by
  unfold lineFeed
  split_ifs with h
  · rw [isSpace_of_isLineBreak h.1]
    rfl
  · rfl

/-- The lines of a text that ends in a line feed, each with a line feed. -/
lemma flatMap_splitLinesFrom {line text : PyStr} (h : 13 ∉ text) :
    (splitLinesFrom line (text ++ [10])).flatMap (· ++ [10]) =
      line.reverse ++ (text ++ [10]).map lineFeed := by
  induction text generalizing line with
  | nil => simp [splitLinesFrom_cons, splitLinesFrom, isLineBreak, lineFeed]
  | cons c text ih =>
    obtain ⟨h13, h⟩ := not_or.mp (List.mem_cons.not.mp h)
    have hc : c ≠ 13 := fun heq => h13 heq.symm
    rw [List.cons_append, splitLinesFrom_cons hc, List.map_cons]
    split_ifs with hbreak
    · rw [List.flatMap_cons, ih h]
      simp [lineFeed, hbreak, hc]
    · rw [ih h]
      simp [lineFeed, hbreak]

/-- The lines of a text that goes on after a line feed. -/
lemma splitLinesFrom_append_feed {line text rest : PyStr} (h : 13 ∉ text) :
    splitLinesFrom line (text ++ 10 :: rest) =
      splitLinesFrom line (text ++ [10]) ++ splitLinesFrom [] rest := by
  induction text generalizing line with
  | nil => simp [splitLinesFrom_cons, splitLinesFrom, isLineBreak]
  | cons c text ih =>
    obtain ⟨h13, h⟩ := not_or.mp (List.mem_cons.not.mp h)
    have hc : c ≠ 13 := fun heq => h13 heq.symm
    rw [List.cons_append, List.cons_append, splitLinesFrom_cons hc, splitLinesFrom_cons hc]
    split_ifs with hbreak
    · rw [ih h, List.cons_append]
    · exact ih h

/-- The lines of a text, joined again. -/
lemma joinText_append_feed {lines : List PyStr} (hne : lines ≠ []) :
    joinText (py "\n") lines ++ [10] = lines.flatMap (· ++ [10]) := by
  obtain ⟨line, lines, rfl⟩ := List.exists_cons_of_ne_nil hne
  induction lines generalizing line with
  | nil => simp [joinText]
  | cons next lines ih =>
    have hstep : joinText (py "\n") (line :: next :: lines) =
        line ++ [10] ++ joinText (py "\n") (next :: lines) := by
      simp [joinText, List.intercalate, py]
    rw [hstep, List.append_assoc, ih next (by simp)]
    rfl

/-! ## White space around the lines -/

lemma strip_map_lineFeed (text : PyStr) :
    PyStr.strip (text.map lineFeed) = text.strip.map lineFeed := by
  have hcomp : PyStr.isSpace ∘ lineFeed = PyStr.isSpace := funext isSpace_lineFeed
  unfold PyStr.strip
  rw [List.dropWhile_map, hcomp, ← List.map_reverse, List.dropWhile_map, hcomp, List.map_reverse]

/-- The translation of the line ends of a text that is stripped already is stripped already. -/
lemma strip_universalNewlines_of_strip {text : PyStr} (h : text.strip = text) :
    (universalNewlines text).strip = universalNewlines text := by
  cases text with
  | nil => rfl
  | cons c rest =>
    have hc : PyStr.isSpace c = false := PyStr.not_isSpace_of_strip h
    obtain ⟨before, last, hlast⟩ := List.eq_nil_or_concat (c :: rest) |>.resolve_left (by simp)
    rw [List.concat_eq_append] at hlast
    have hspace : PyStr.isSpace last = false := PyStr.not_isSpace_last (hlast ▸ h)
    have hne : ∀ d, PyStr.isSpace d = false → d ≠ 10 ∧ d ≠ 13 := by
      intro d hd
      constructor
      · rintro rfl
        cases hd
      · rintro rfl
        cases hd
    have hhead : universalNewlines (c :: rest) = c :: universalNewlines rest :=
      universalNewlines_cons (hne c hc).2
    have htail : universalNewlines (c :: rest) = newlinesFrom false before ++ [last] := by
      rw [hlast, universalNewlines, newlinesFrom_append (by simp [(hne last hspace).1]),
        universalNewlines_cons (hne last hspace).2, universalNewlines_nil]
    rw [PyStr.strip_eq, hhead, List.dropWhile_cons_of_neg (by simp [hc]), ← hhead, htail,
      List.rdropWhile_concat_neg _ _ _ (by simp [hspace])]

/-- The line ends of a text and those of what stripping leaves of it. -/
lemma strip_universalNewlines (text : PyStr) :
    (universalNewlines text).strip = universalNewlines text.strip := by
  obtain ⟨front, back, htext, hfront, hback⟩ := PyStr.exists_eq_strip text
  have hspaces : ∀ (s : PyStr) (b : Bool), (∀ c ∈ s, PyStr.isSpace c = true) →
      ∀ c ∈ newlinesFrom b s, PyStr.isSpace c = true := by
    intro s b hs c hc
    rcases mem_newlinesFrom hc with rfl | ⟨-, hc⟩
    · rfl
    · exact hs c hc
  rcases List.eq_nil_or_concat text.strip with hnil | ⟨before, last, hlast⟩
  · rw [hnil, List.append_nil] at htext
    have hall : ∀ c ∈ text, PyStr.isSpace c = true := by
      rw [htext]
      exact List.forall_mem_append.mpr ⟨hfront, hback⟩
    have hstrip : PyStr.strip (universalNewlines text ++ [] ++ []) = [] :=
      PyStr.strip_between (hspaces text false hall) (by simp) rfl
    rw [List.append_nil, List.append_nil] at hstrip
    rw [hstrip, hnil]
    rfl
  · have hcore : PyStr.strip text.strip = text.strip := PyStr.strip_strip text
    have hhead : (text.strip ++ back).head? ≠ some 10 := by
      cases hcons : text.strip with
      | nil => simp [hcons] at hlast
      | cons c rest =>
        rw [hcons] at hcore
        have hc := PyStr.not_isSpace_of_strip hcore
        rintro hten
        cases hten
        cases hc
    rw [List.concat_eq_append] at hlast
    have hspace : PyStr.isSpace last = false := PyStr.not_isSpace_last (hlast ▸ hcore)
    have h10 : last ≠ 10 := by
      rintro rfl
      cases hspace
    have h13 : last ≠ 13 := by
      rintro rfl
      cases hspace
    have hsplit : universalNewlines text =
        newlinesFrom false front ++ universalNewlines text.strip ++ universalNewlines back := by
      have happend := @newlinesFrom_append front (text.strip ++ back) false hhead
      rw [← List.append_assoc, ← htext, hlast, List.append_assoc, List.singleton_append,
        universalNewlines_append h10 h13, ← hlast, ← List.append_assoc] at happend
      exact happend
    rw [hsplit]
    exact PyStr.strip_between (hspaces front false hfront) (hspaces back false hback)
      (strip_universalNewlines_of_strip hcore)

/-! ## What is read in a fence -/

/-- A text that ends in a line feed still does when its line ends are translated. -/
lemma universalNewlines_append_feed (s : PyStr) :
    ∃ lines : PyStr, universalNewlines (s ++ [10]) = lines ++ [10] ∧ 13 ∉ lines := by
  have hfrom : ∀ b : Bool, (∃ lines : PyStr, newlinesFrom b (s ++ [10]) = lines ++ [10]) ∨
      b = true ∧ newlinesFrom b (s ++ [10]) = [] := by
    induction s with
    | nil =>
      intro b
      cases b with
      | false => exact .inl ⟨[], rfl⟩
      | true => exact .inr ⟨rfl, rfl⟩
    | cons c s ih =>
      have hlater : ∀ (d : ℕ), ∃ lines : PyStr, d :: newlinesFrom false (s ++ [10]) =
          lines ++ [10] := by
        intro d
        rcases ih false with ⟨lines, hlines⟩ | ⟨hfalse, -⟩
        · exact ⟨d :: lines, by rw [hlines, List.cons_append]⟩
        · cases hfalse
      intro b
      rw [List.cons_append, newlinesFrom]
      split_ifs with h13 h10
      · left
        rcases ih true with ⟨lines, hlines⟩ | ⟨-, hnil⟩
        · exact ⟨10 :: lines, by rw [hlines, List.cons_append]⟩
        · exact ⟨[], by rw [hnil]; rfl⟩
      · rcases ih false with hlines | ⟨hfalse, -⟩
        · exact .inl hlines
        · cases hfalse
      · exact .inl (hlater c)
  rcases hfrom false with ⟨lines, hlines⟩ | ⟨hfalse, -⟩
  · refine ⟨lines, hlines, fun hmem => ?_⟩
    have hline : 13 ∈ newlinesFrom false (s ++ [10]) := by
      rw [hlines]
      exact List.mem_append_left _ hmem
    rcases mem_newlinesFrom hline with h | h
    · cases h
    · exact h.1 rfl
  · cases hfalse

/-- The lines of a fence are its two ends and the lines inside. -/
lemma splitLines_fenced (s : PyStr) :
    splitLines (fenced s) = py "```json" :: splitLines (s ++ [10]) ++ [py "```"] := by
  have hfence : fenced s = py "```jso" ++ 110 :: 10 :: (s ++ [10] ++ py "```") := by
    simp [fenced, py]
  have hbody : universalNewlines (10 :: (s ++ [10] ++ py "```")) =
      10 :: (universalNewlines (s ++ [10]) ++ py "```") := by
    rw [universalNewlines_cons (by decide)]
    have happend := @newlinesFrom_append (s ++ [10]) (py "```") false (by decide)
    exact congrArg _ happend
  obtain ⟨lines, hlines, h13⟩ := universalNewlines_append_feed s
  have hstart : universalNewlines (py "```jso" ++ [110]) = py "```json" := by decide
  rw [← splitLines_universalNewlines, hfence, universalNewlines_append (by decide) (by decide),
    hstart, hbody, hlines, splitLines, splitLinesFrom_append (by decide), List.append_assoc,
    List.singleton_append, splitLinesFrom_append_feed h13, ← hlines, ← splitLines,
    splitLines_universalNewlines]
  rfl

/-- The lines inside a fence, joined again and stripped, are the text with its line ends replaced by
line feeds. -/
lemma strip_joinText_splitLines (s : PyStr) :
    splitLines (s ++ [10]) ≠ [] ∧ (joinText (py "\n") (splitLines (s ++ [10]))).strip =
      (universalNewlines s.strip).map lineFeed := by
  obtain ⟨lines, hlines, h13⟩ := universalNewlines_append_feed s
  have hflat : (splitLines (s ++ [10])).flatMap (· ++ [10]) =
      (universalNewlines (s ++ [10])).map lineFeed := by
    rw [← splitLines_universalNewlines, hlines, splitLines, flatMap_splitLinesFrom h13]
    rfl
  have hne : splitLines (s ++ [10]) ≠ [] := by
    intro hnil
    rw [hnil, hlines, List.flatMap_nil, List.map_append] at hflat
    simp at hflat
  have hstripFeed : ∀ t : PyStr, PyStr.strip (t ++ [10]) = t.strip := by
    intro t
    obtain ⟨front, back, htext, hfront, hback⟩ := PyStr.exists_eq_strip t
    have hsplit : t ++ [10] = front ++ t.strip ++ (back ++ [10]) := by
      rw [← List.append_assoc, ← htext]
    rw [hsplit]
    exact PyStr.strip_between hfront (List.forall_mem_append.mpr ⟨hback, by simp [PyStr.isSpace]⟩)
      (PyStr.strip_strip t)
  refine ⟨hne, ?_⟩
  rw [← hstripFeed, joinText_append_feed hne, hflat, strip_map_lineFeed, strip_universalNewlines,
    hstripFeed]

/-- What is read of a fence: the text inside, with its line ends replaced by line feeds. -/
lemma parseStructuredContent_fenced {lib : PyJson.Lib} {lower : PyStr → PyStr}
    (hlower : lower (py "json") = py "json") (s : PyStr) :
    parseStructuredContent lib lower (fenced s) = (do
      match ← PyJson.loads lib ((universalNewlines s.strip).map lineFeed) with
      | .obj result => return result
      | _ => throw (.valueError (py "assistant content is not a JSON object"))) := by
  have hstrip : (fenced s).strip = fenced s := by
    have hends : fenced s = 96 :: (py "``json\n" ++ s ++ py "\n``") ++ [96] := by
      simp [fenced, py]
    rw [hends]
    exact PyStr.strip_eq_self (by decide) (by decide)
  have hopen : (py "```").isPrefixOf (fenced s) = true := by
    rw [List.isPrefixOf_iff_prefix]
    exact ⟨py "json\n" ++ s ++ py "\n```", by simp [fenced, py]⟩
  obtain ⟨hne, hbody⟩ := strip_joinText_splitLines s
  have hcontent : fenceContent lower (fenced s) =
      .ok ((universalNewlines s.strip).map lineFeed) := by
    have hlength : 0 < (splitLines (s ++ [10])).length := List.length_pos_of_ne_nil hne
    have hlanguage : lower (PyStr.strip ((py "```json").drop 3)) = py "json" := by
      rw [show PyStr.strip ((py "```json").drop 3) = py "json" by decide, hlower]
    unfold fenceContent
    dsimp only
    have hlong : ¬ ((splitLines (fenced s)).length < 3 ∨
        PyStr.strip ((splitLines (fenced s)).getLastD []) ≠ py "```") := by
      rw [splitLines_fenced, List.getLastD_eq_getLast?, List.getLast?_concat, Option.getD_some,
        List.length_append, List.length_cons, List.length_singleton, not_or, not_not]
      exact ⟨by omega, by decide⟩
    rw [if_neg hlong, splitLines_fenced, List.cons_append, List.headD_cons, hlanguage,
      if_neg (by simp), List.tail_cons, List.dropLast_concat, hbody]
    rfl
  unfold parseStructuredContent
  rw [hstrip, if_pos hopen, hcontent]
  rfl

/-- A text that is JSON is no fence. -/
lemma not_isPrefixOf_of_loads {lib : PyJson.Lib} {text : PyStr} {v : Json}
    (h : PyJson.loads lib text = .ok v) : (py "```").isPrefixOf text = false := by
  rw [Bool.eq_false_iff]
  intro hprefix
  obtain ⟨rest, rfl⟩ := List.isPrefixOf_iff_prefix.mp hprefix
  have hread : ∀ depth, PyJson.scanValue lib depth (96 :: (96 :: 96 :: rest)) =
      .error PyJson.decodeError := by
    intro depth
    cases depth <;> rfl
  have hskip : PyJson.skipWhitespace (py "```" ++ rest) = 96 :: (96 :: 96 :: rest) := rfl
  unfold PyJson.loads at h
  rw [if_neg (by simp [py]), hskip, hread] at h
  cases h

/-- **When an object is read alike in a code fence and without.** For every text that is an object,
with any white space around it, the fence is read as the text itself is exactly if the only line
ends in the text are line feeds and carriage returns. -/
theorem parseStructuredContent_fenced_iff (lib : PyJson.Lib) (lower : PyStr → PyStr)
    (hlower : lower (py "json") = py "json") (s : PyStr) (fields : Json.Fields)
    (hs : PyJson.loads lib s.strip = .ok (.obj fields)) :
    parseStructuredContent lib lower s = .ok fields ∧
      (parseStructuredContent lib lower (fenced s) = parseStructuredContent lib lower s ↔
        ∀ c ∈ s.strip, isLineBreak c = true → c = 10 ∨ c = 13) := by
  have hbare : parseStructuredContent lib lower s = .ok fields := by
    unfold parseStructuredContent
    rw [not_isPrefixOf_of_loads hs, if_neg (by decide), pure_bind]
    dsimp only
    rw [hs]
    rfl
  have hlines : PyJson.loads lib (universalNewlines s.strip) = .ok (.obj fields) := by
    rw [PyJson.loads_universalNewlines, hs]
  refine ⟨hbare, ?_⟩
  rw [hbare, parseStructuredContent_fenced hlower]
  constructor
  · intro h c hc hbreak
    obtain ⟨v, hv, -⟩ := Except.bind_eq_ok.mp h
    by_contra hno
    obtain ⟨h10, h13⟩ := not_or.mp hno
    have hfixed := PyJson.loads_lockstep lineFeed_feeds hlines hv c
      (mem_newlinesFrom_of_ne h10 h13 hc)
    exact hno (lineFeed_eq_self_iff.mp hfixed hbreak)
  · intro hbreaks
    have hsame : (universalNewlines s.strip).map lineFeed = universalNewlines s.strip := by
      refine (List.map_congr_left fun c hc => ?_).trans (List.map_id _)
      rcases mem_newlinesFrom hc with rfl | ⟨-, hc⟩
      · rfl
      · exact lineFeed_eq_self_iff.mpr (hbreaks c hc)
    rw [hsame, hlines]
    rfl

/-! ## A sample -/

/-- `str.lower` of ASCII. -/
def lowerCase (s : PyStr) : PyStr := s.map fun c => if 65 ≤ c ∧ c ≤ 90 then c + 32 else c

/-- The answer that the tests know. -/
def okAnswer : PyStr := py "\x7b\"ok\": true\x7d"

/-- `parseStructuredContent_fenced_iff` at the answer that the tests know. -/
theorem okAnswer_fenced :
    parseStructuredContent sampleLib lowerCase (fenced okAnswer) =
      .ok [(py "ok", .bool true)] := by
  have hs : PyJson.loads sampleLib okAnswer.strip = .ok (.obj [(py "ok", .bool true)]) := by
    decide +kernel
  have hiff := parseStructuredContent_fenced_iff sampleLib lowerCase (by decide) okAnswer _ hs
  rw [hiff.2.mpr (by decide), hiff.1]

/-- An object with a text in which a line separator stands. -/
def separatorAnswer : PyStr := py "\x7b\"a\":\"b" ++ 0x2028 :: py "c\"\x7d"

/-- **An object that is not read in a fence.** The line separator in its text is a line feed when the
lines are joined again, which JSON does not allow inside a text. -/
theorem separatorAnswer_fenced :
    parseStructuredContent sampleLib lowerCase separatorAnswer =
        .ok [(py "a", .str (py "b" ++ 0x2028 :: py "c"))] ∧
      parseStructuredContent sampleLib lowerCase (fenced separatorAnswer) =
        .error PyJson.decodeError := by
  decide +kernel

end Triage

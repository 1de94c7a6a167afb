import NocReport.Triage.HermesInput
import NocReport.Triage.JsonLogs

set_option relaxedAutoImplicit false
set_option autoImplicit false

/-!
# Markers in the log a model gets to see

`_annotated_log` (`sandbox/preprocessing.py`) puts each entry on a line after a marker with its id.
The text of an entry can come out of a JSON array, so it can have a line feed in it, and what
follows the line feed can look like another entry.

## Main definitions

* `Triage.Unforged` — the lines of an annotated log are its entries.
* `Triage.NoRawNewline` — no text of the array has a line feed where it would be seen.

## Main results

* `Triage.annotatedLog_unforged_iff` — when the lines are the entries.
* `Triage.annotatedLog_forged` — a log with a marker of its own making.
-/

namespace Triage

/-- The annotated log has a line for each entry of the manifest, and each of them starts with the
marker of its entry. -/
structure Unforged (st : Statistics) (logText : PyStr) : Prop where
  length : ((annotatedLog st logText).splitOn 10).length = st.entryManifest.length
  markers : ∀ i, ∀ line ∈ ((annotatedLog st logText).splitOn 10)[i]?, entryMarker i <+: line

/-- When the log is a JSON array, no text in it that is not blank has a line feed among the
characters that are kept. -/
def NoRawNewline (lib : PyJson.Lib) (logText : PyStr) : Prop :=
  ∀ items, PyJson.loads lib logText = .ok (.arr items) →
    ∀ s, .str s ∈ items → notBlank s = true → 10 ∉ s.take 1200

/-! ## Lines -/

section Lines

/-- A text is split into one line more than it has line feeds. -/
lemma length_splitOn (text : PyStr) : (text.splitOn 10).length = text.count 10 + 1 := by
  induction text with
  | nil => rfl
  | cons c text ih =>
    rw [List.splitOn_cons_eq_if_modifyHead, List.count_cons]
    split
    · simp [ih]
    · simp [ih]

/-- The line feeds of lines that are joined. -/
lemma count_joinText {text : PyStr} {texts : List PyStr} :
    (joinText (py "\n") (text :: texts)).count 10 =
      texts.length + ((text :: texts).map (·.count 10)).sum := by
  induction texts generalizing text with
  | nil => simp [joinText, List.intercalate]
  | cons t texts ih =>
    have hjoin : joinText (py "\n") (text :: t :: texts) =
        text ++ py "\n" ++ joinText (py "\n") (t :: texts) := by
      simp [joinText, List.intercalate]
    have hone : (py "\n").count 10 = 1 := by decide
    rw [hjoin, List.count_append, List.count_append, ih, hone]
    simp only [List.map_cons, List.sum_cons, List.length_cons]
    omega

lemma entryMarker_noNewline (id : ℕ) : 10 ∉ entryMarker id := by
  intro h
  simp only [entryMarker, List.mem_append] at h
  rcases h with (h | h) | h
  · exact absurd h (by decide)
  · have := PyJson.isDecimal_of_mem_ofNat h
    exact absurd this (by decide)
  · exact absurd h (by decide)

/-- The lines are the entries exactly when no text of an entry has a line feed. -/
lemma unforged_iff {st : Statistics} {logText : PyStr} (hst : st.WellFormed)
    (hne : st.entryManifest ≠ []) :
    Unforged st logText ↔ ∀ item ∈ st.entryManifest, 10 ∉ item.text := by
  have hlog : annotatedLog st logText = joinText (py "\n")
      (st.entryManifest.map fun item => entryMarker item.id ++ item.text) := by
    rw [annotatedLog, if_neg (by simp [hne])]
  constructor
  · intro h item hitem hnewline
    obtain ⟨first, rest, hmanifest⟩ := List.exists_cons_of_ne_nil hne
    have hlength := h.length
    rw [length_splitOn, hlog, hmanifest, List.map_cons, count_joinText, List.length_map,
      List.length_cons] at hlength
    have hzero : ((((entryMarker first.id ++ first.text) ::
        rest.map fun item => entryMarker item.id ++ item.text)).map (·.count 10)).sum = 0 := by
      omega
    rw [← List.map_cons (f := fun item : Entry => entryMarker item.id ++ item.text), ← hmanifest,
      List.map_map, List.sum_eq_zero_iff] at hzero
    have := hzero _ (List.mem_map.mpr ⟨item, hitem, rfl⟩)
    simp only [Function.comp_apply, List.count_append, Nat.add_eq_zero_iff,
      List.count_eq_zero] at this
    exact this.2 hnewline
  · intro h
    have hlines : (annotatedLog st logText).splitOn 10 =
        st.entryManifest.map fun item => entryMarker item.id ++ item.text := by
      rw [hlog]
      refine List.splitOn_intercalate 10 ?_ (by simpa using hne)
      intro line hline
      obtain ⟨item, hitem, rfl⟩ := List.mem_map.mp hline
      rw [List.mem_append, not_or]
      exact ⟨entryMarker_noNewline _, h item hitem⟩
    constructor
    · rw [hlines, List.length_map]
    · intro i line hline
      rw [hlines, List.getElem?_map] at hline
      obtain ⟨item, hitem, rfl⟩ := Option.map_eq_some_iff.mp hline
      -- the entries are numbered from zero
      have hid : (st.entryManifest.map (·.id))[i]? = some item.id := by
        rw [List.getElem?_map, hitem]
        rfl
      rw [hst.ids] at hid
      obtain ⟨hi, hid⟩ := List.getElem?_eq_some_iff.mp hid
      rw [List.getElem_range] at hid
      rw [hid]
      exact List.prefix_append _ _

end Lines

/-! ## The texts of entries -/

section Texts

variable {env : Env} {lib : PyJson.Lib} {logText : PyStr} {es : List LogEntry}

/-- The text of an element of an array. -/
def itemText (env : Env) : Json → PyStr
  | .obj fields => env.jsonDumps (.obj fields)
  | item => env.str item

/-- The texts of the entries of an array. -/
lemma entries_texts_of_array {items : List Json}
    (hloads : PyJson.loads lib logText = .ok (.arr items))
    (h : entries (env.withJson lib) logText = .ok es) :
    es.map (·.1) = (items.map (itemText (env.withJson lib))).filter notBlank := by
  have hfilter : ∀ l : List LogEntry,
      (l.filter fun entry => notBlank entry.1).map (·.1) = (l.map (·.1)).filter notBlank := by
    intro l
    rw [List.filter_map]
    rfl
  unfold entries tryLoads at h
  dsimp only [Env.withJson] at h
  rw [hloads] at h
  dsimp only [pure, Except.pure, bind, Except.bind] at h
  rw [Except.ok.injEq] at h
  rw [← h, hfilter, List.map_map]
  refine congrArg (List.filter notBlank) (List.map_congr_left fun item _ => ?_)
  cases item <;> rfl

lemma dumps_noNewline (fields : Json.Fields) : 10 ∉ PyJson.dumps lib (.obj fields) := by
  have h : ∀ c ∈ PyJson.dumps lib (.obj fields), c ≠ 10 :=
    PyJson.forall_mem_dumps (fun c hc _ => by omega) (.obj fields) fun _ _ c _ hc => by omega
  exact fun hmem => h 10 hmem rfl

/-- What is no array is written without line feeds. -/
lemma entries_noNewline (harray : ∀ items, PyJson.loads lib logText ≠ .ok (.arr items))
    (h : entries (env.withJson lib) logText = .ok es) : ∀ entry ∈ es, 10 ∉ entry.1 := by
  have hlines : ∀ es : List LogEntry,
      (((splitLines logText).filter notBlank).mapM fun line => do
        return (line, ← jsonObject (env.withJson lib) line)) = Except.ok es →
      ∀ entry ∈ es, 10 ∉ entry.1 := by
    intro es h entry hentry hmem
    obtain ⟨line, hline, hread⟩ := Except.mem_of_mapM_eq_ok h hentry
    obtain ⟨object, -, hread⟩ := Except.bind_eq_ok.mp hread
    cases hread
    have := splitLines_noBreak (List.mem_filter.mp hline).1 10 hmem
    exact absurd this (by decide)
  obtain ⟨found, hfound, h⟩ := Except.bind_eq_ok.mp h
  have hfound' : ∀ items, found ≠ some (.arr items) := by
    rintro items rfl
    unfold tryLoads at hfound
    split at hfound
    · next v hv =>
      cases hfound
      exact harray items hv
    · split at hfound <;> cases hfound
  split at h
  · next items => exact absurd rfl (hfound' items)
  · next fields =>
    cases h
    intro entry hentry
    obtain rfl := List.mem_singleton.mp hentry
    exact dumps_noNewline fields
  · exact hlines es h

/-- An element of an array has a line feed in its text only if it is a text. -/
lemma itemText_noNewline {item : Json} (h : ∀ s, item ≠ .str s) :
    10 ∉ itemText (env.withJson lib) item := by
  have hrepr : ∀ v, 10 ∉ PyJson.repr lib v := by
    intro v hmem
    exact PyJson.forall_mem_repr (p := (· ≠ 10)) (fun c hc _ => by omega) v
      (fun c hc _ => by omega) 10 hmem rfl
  cases item with
  | null => exact (by decide : 10 ∉ py "None")
  | bool b =>
    cases b
    · exact (by decide : 10 ∉ py "False")
    · exact (by decide : 10 ∉ py "True")
  | int i =>
    intro hmem
    exact PyJson.forall_mem_ofInt (p := (· ≠ 10)) (fun c hc _ => by omega) i 10 hmem rfl
  | float f => exact hrepr (.float f)
  | str s => exact absurd rfl (h s)
  | arr xs => exact hrepr (.arr xs)
  | obj fields => exact dumps_noNewline fields

/-- The texts that are kept have no line feeds exactly when those of the array have none. -/
lemma entries_noNewline_iff (h : entries (env.withJson lib) logText = .ok es) :
    (∀ entry ∈ es, 10 ∉ entry.1.take 1200) ↔ NoRawNewline lib logText := by
  by_cases harray : ∃ items, PyJson.loads lib logText = .ok (.arr items)
  · obtain ⟨items, hloads⟩ := harray
    have htexts := entries_texts_of_array hloads h
    have hall : (∀ entry ∈ es, 10 ∉ entry.1.take 1200) ↔
        ∀ item ∈ items, notBlank (itemText (env.withJson lib) item) = true →
          10 ∉ (itemText (env.withJson lib) item).take 1200 := by
      rw [← List.forall_mem_map (f := fun entry : LogEntry => entry.1) (P := fun t => 10 ∉ t.take 1200),
        htexts]
      simp [List.mem_filter]
    rw [hall]
    constructor
    · intro hitems items' hloads' s hs hblank
      obtain rfl : items = items' := by simpa [hloads] using hloads'
      exact hitems _ hs hblank
    · intro hraw item hitem hblank hmem
      by_cases hs : ∃ s, item = .str s
      · obtain ⟨s, rfl⟩ := hs
        exact hraw items hloads s hitem hblank hmem
      · exact itemText_noNewline (not_exists.mp hs) (List.mem_of_mem_take hmem)
  · rw [not_exists] at harray
    refine iff_of_true (fun entry hentry hmem => ?_) fun items hloads => absurd hloads (harray items)
    exact entries_noNewline harray h entry hentry (List.mem_of_mem_take hmem)

end Texts

/-- **Markers cannot be forged** exactly when the log is no JSON array with a line feed among the
first characters of one of its texts: then, and only then, the annotated log has a line for each
entry, with the marker of the entry. -/
theorem annotatedLog_unforged_iff (env : Env) (lib : PyJson.Lib) (logText : PyStr)
    (st : Statistics) (hst : preprocessLog (env.withJson lib) logText = .ok st)
    (hne : st.entryManifest ≠ []) :
    Unforged st logText ↔ NoRawNewline lib logText := by
  obtain ⟨items, hitems, htexts⟩ := preprocessLogWith_texts hst
  rw [unforged_iff (preprocessLog_wellFormed hst) hne, ← entries_noNewline_iff hitems]
  have hmanifest : (∀ item ∈ st.entryManifest, 10 ∉ item.text) ↔
      ∀ t ∈ st.entryManifest.map (·.text), 10 ∉ t := by simp
  rw [hmanifest, htexts, List.forall_mem_map]

/-- An array with one text. -/
def textLog (text : PyStr) : PyStr := PyJson.dumps sampleLib (.arr [.str text])

example : textLog (py "a\n[entry_id=1] b") = py "[\"a\\n[entry_id=1] b\"]" := by rfl

lemma loads_textLog (text : PyStr) :
    PyJson.loads sampleLib (textLog text) = .ok (.arr [.str text]) := by
  refine (PyJson.loads_dumps (.arr _ (by simpa using PyJson.Written.str text))).1 ⟨?_, ?_⟩
  · simp [Json.depth, Json.depthItems, sampleLib]
  · simp [PyJson.IntegersFit, Json.leaves, Json.leavesItems]

lemma entries_textLog {text : PyStr} (hblank : notBlank text = true) :
    entries (sampleEnv.withJson sampleLib) (textLog text) = .ok [(text, none)] := by
  have hfilter : ([(text, none)] : List LogEntry).filter (fun entry => notBlank entry.1) =
      [(text, none)] := by
    simp [hblank]
  unfold entries tryLoads
  dsimp only [Env.withJson]
  rw [loads_textLog]
  exact congrArg Except.ok hfilter

/-- The logs of these texts have statistics, with an entry. -/
lemma exists_textLog {text : PyStr} (h : text = py "a\n[entry_id=1] b" ∨ text = py "disk full") :
    ∃ st, preprocessLog (sampleEnv.withJson sampleLib) (textLog text) = .ok st ∧
      st.entryManifest ≠ [] := by
  have hblank : notBlank text = true := by
    rcases h with rfl | rfl <;> decide
  have hsome : ∀ x : Except PyError Statistics, x.toOption.isSome = true → ∃ st, x = .ok st := by
    intro x hx
    cases x with
    | error e => cases hx
    | ok st => exact ⟨st, rfl⟩
  obtain ⟨st, hst⟩ := hsome (preprocessLog (sampleEnv.withJson sampleLib) (textLog text)) (by
    unfold preprocessLog preprocessLogWith
    rw [entries_textLog hblank]
    rcases h with rfl | rfl <;> rfl)
  refine ⟨st, hst, fun hnil => ?_⟩
  obtain ⟨items, hitems, htexts⟩ := preprocessLogWith_texts hst
  rw [entries_textLog hblank, Except.ok.injEq] at hitems
  rw [← hitems, hnil] at htexts
  cases htexts

/-- The log of a text without line feeds is not forged. -/
theorem textLog_unforged :
    ∃ st, preprocessLog (sampleEnv.withJson sampleLib) (textLog (py "disk full")) = .ok st ∧
      Unforged st (textLog (py "disk full")) := by
  obtain ⟨st, hst, hne⟩ := exists_textLog (.inr rfl)
  refine ⟨st, hst, (annotatedLog_unforged_iff sampleEnv sampleLib _ st hst hne).mpr ?_⟩
  intro items hitems s hs _
  rw [loads_textLog] at hitems
  cases hitems
  obtain rfl : s = py "disk full" := by simpa using hs
  decide

/-- Not every annotated log has the lines of its entries: a text of an array brings along the marker
of an entry that there is not. -/
theorem annotatedLog_forged :
    ¬ ∀ (env : Env) (lib : PyJson.Lib) (logText : PyStr) (st : Statistics),
      preprocessLog (env.withJson lib) logText = .ok st → st.entryManifest ≠ [] →
      Unforged st logText := by
  intro h
  obtain ⟨st, hst, hne⟩ := exists_textLog (.inl rfl)
  have hlines := (unforged_iff (preprocessLog_wellFormed hst) hne).mp (h _ _ _ st hst hne)
  obtain ⟨items, hitems, htexts⟩ := preprocessLogWith_texts hst
  rw [entries_textLog (by decide), Except.ok.injEq] at hitems
  subst hitems
  have hmem : (py "a\n[entry_id=1] b").take 1200 ∈ st.entryManifest.map (·.text) := by
    rw [htexts]
    exact List.mem_singleton_self _
  obtain ⟨item, hitem, htext⟩ := List.mem_map.mp hmem
  refine hlines item hitem ?_
  rw [htext]
  decide

end Triage

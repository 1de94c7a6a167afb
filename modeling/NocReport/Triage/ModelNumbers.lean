import NocReport.Triage.HiddenNumbers
import NocReport.Triage.OutputSchema
import NocReport.Triage.PatternConservation

set_option relaxedAutoImplicit false
set_option autoImplicit false

/-!
# The numbers of a model result

Two results that differ in nothing but their numbers are both rejected by reconciliation or both
accepted. What comes out differs exactly in the numbers that reconciliation does not replace: all
numbers of findings without entries, when the results are reconciled by entries, and the audit
counts of the findings that stay, when they are reconciled by patterns.

## Main definitions

* `Triage.numberKeys`, `Triage.SameButNumbers` — the numbers, and results that differ in these.
* `Triage.keptFindings`, `Triage.stayingFindings` — the findings the first loop keeps, and those that
  stay to the end.
* `Triage.NumbersAgree` — the numbers that are not replaced agree.

## Main results

* `Triage.groupFindings_both`, `Triage.assignFindings_both` — both loops on two results.
* `Triage.reconcileResult_numbers` — two results side by side.
-/

namespace Triage

/-- The numbers of a finding. -/
def numberKeys : List PyStr :=
  ["physical_entry_count", "occurrence_count", "count", "percentage"].map py

/-- The finding without its numbers. -/
abbrev hideNumbers (find : Json.Fields) : Json.Fields := Dict.hide numberKeys .null find

/-- A value in the place of a finding without its numbers. -/
def hideFinding (finding : Json) : Json :=
  match finding with
  | .obj find => .obj (hideNumbers find)
  | v => v

/-- A field of a result without the numbers in it. -/
def hideField (name : PyStr) (v : Json) : Json :=
  if name = py "total_entries" then .null
  else match v with
    | .arr items => if name ∈ groupNames then .arr (items.map hideFinding) else .arr items
    | v => v

/-- The result without its numbers. -/
def hideResult (result : Json.Fields) : Json.Fields :=
  result.map fun p => (p.1, hideField p.1 p.2)

/-- The results differ at most in their numbers. -/
def SameButNumbers (result result' : Json.Fields) : Prop := hideResult result = hideResult result'

/-- Two findings of the contract that differ at most in their numbers. -/
def Twins (finding finding' : Json) : Prop :=
  ∃ find find', ContractFind finding find ∧ ContractFind finding' find' ∧
    hideNumbers find = hideNumbers find'

/-! ## Results that differ in numbers -/

section Same

lemma get?_hideResult (result : Json.Fields) (k : PyStr) :
    Dict.get? (hideResult result) k = (Dict.get? result k).map (hideField k) := by
  induction result with
  | nil => rfl
  | cons p result ih =>
    obtain ⟨k', v⟩ := p
    simp only [hideResult] at ih
    rw [hideResult, List.map_cons, Dict.get?_cons, Dict.get?_cons, ih]
    by_cases hk : k' = k
    · simp [hk]
    · simp [hk]

lemma keys_hideResult (result : Json.Fields) : Dict.keys (hideResult result) = Dict.keys result := by
  simp [hideResult, Dict.keys]

/-- What is neither a number nor a group is the same. -/
lemma hide_hideResult (result : Json.Fields) :
    Dict.hide resultKeys (.arr []) (hideResult result) =
      Dict.hide resultKeys (.arr []) result := by
  induction result with
  | nil => rfl
  | cons p result ih =>
    obtain ⟨k, v⟩ := p
    simp only [hideResult] at ih
    rw [hideResult, List.map_cons, Dict.hide_cons, Dict.hide_cons, ih]
    by_cases hk : k ∈ resultKeys
    · simp [hk]
    · have hfield : hideField k v = v := by
        simp only [resultKeys, List.map_cons, List.map_nil, List.mem_cons, List.not_mem_nil,
          or_false, not_or] at hk
        unfold hideField
        rw [if_neg hk.1]
        cases v with
        | arr items => simp [groupNames, hk.2.1, hk.2.2]
        | null | bool | int | float | str | obj => rfl
      rw [hfield]

variable {r r' : ModelResult}

lemma SameButNumbers.hide (h : SameButNumbers r.fields r'.fields) :
    Dict.hide resultKeys (.arr []) r.fields = Dict.hide resultKeys (.arr []) r'.fields := by
  rw [← hide_hideResult, ← hide_hideResult r'.fields, h]

/-- The groups of the results are twins, finding by finding. -/
lemma SameButNumbers.exists_groups (h : SameButNumbers r.fields r'.fields) (name : PyStr)
    (hname : name ∈ groupNames) :
    ∃ items items', Dict.get? r.fields name = some (.arr items) ∧
      Dict.get? r'.fields name = some (.arr items') ∧ List.Forall₂ Twins items items' := by
  obtain ⟨items, hget, hfinds⟩ := r.exists_group hname
  obtain ⟨items', hget', hfinds'⟩ := r'.exists_group hname
  refine ⟨items, items', hget, hget', ?_⟩
  have hfield : hideField name (.arr items) = hideField name (.arr items') := by
    have hlookup := congrArg (Dict.get? · name) h
    simpa only [get?_hideResult, hget, hget', Option.map_some, Option.some.injEq] using hlookup
  have hmap : items.map hideFinding = items'.map hideFinding := by
    have hne : name ≠ py "total_entries" := by
      rintro rfl
      exact absurd hname (by decide)
    simpa [hideField, hne, hname] using hfield
  clear hget hget' hfield
  induction items generalizing items' with
  | nil =>
    cases items' with
    | nil => exact .nil
    | cons => cases hmap
  | cons finding items ih =>
    cases items' with
    | nil => cases hmap
    | cons finding' items' =>
      rw [List.map_cons, List.map_cons, List.cons.injEq] at hmap
      refine .cons ?_ (ih (fun f hf => hfinds f (List.mem_cons_of_mem _ hf)) items'
        (fun f hf => hfinds' f (List.mem_cons_of_mem _ hf)) hmap.2)
      obtain ⟨find, hfind⟩ := hfinds finding List.mem_cons_self
      obtain ⟨find', hfind'⟩ := hfinds' finding' List.mem_cons_self
      refine ⟨find, find', hfind, hfind', ?_⟩
      have hhead := hmap.1
      rw [hfind.object, hfind'.object] at hhead
      simpa [hideFinding] using hhead

end Same

/-! ## Reconciliation by entries -/

section Entries

variable {env : Env} {st : Statistics}

lemma get_of_hideNumbers {find find' : Json.Fields} (h : hideNumbers find = hideNumbers find')
    {k : PyStr} (hk : k ∉ numberKeys) : Json.Fields.get find k = Json.Fields.get find' k := by
  have hget := congrArg (Dict.get? · k) h
  simp only [Dict.get?_hide_of_notMem hk] at hget
  rw [Json.Fields.get, Json.Fields.getD, hget]
  rfl

lemma keys_of_hideNumbers {find find' : Json.Fields} (h : hideNumbers find = hideNumbers find') :
    Dict.keys find = Dict.keys find' := by
  have hkeys := congrArg Dict.keys h
  simpa only [Dict.keys_hide] using hkeys

/-- The numbers of a finding that gets entries are all set. -/
lemma quantify_eq {find : Json.Fields} (hfind : (Dict.keys find).Nodup) (patternId : PyStr)
    (ids : List ℕ) : quantify st find patternId ids = quantify st (hideNumbers find) patternId ids := by
  have hset : ∀ g : Json.Fields, (Dict.keys g).Nodup → quantify st g patternId ids =
      Dict.set (Dict.set (Dict.set (Dict.set (Dict.set (Dict.set (hideNumbers g)
        (py "pattern_ids") (texts [patternId])) (py "evidence_entry_ids") (entryIds ids))
        (py "physical_entry_count") (.int ids.length))
        (py "occurrence_count") (.int (occurrenceCount st ids))) (py "count") (.int ids.length))
        (py "percentage") (percentage ids.length st.totalEntries) := by
    intro g hg
    have h₁ := Dict.nodup_keys_set hg (py "pattern_ids") (texts [patternId])
    have h₂ := Dict.nodup_keys_set h₁ (py "evidence_entry_ids") (entryIds ids)
    have h₃ := Dict.nodup_keys_set h₂ (py "physical_entry_count") (.int ids.length)
    have h₄ := Dict.nodup_keys_set h₃ (py "occurrence_count") (.int (occurrenceCount st ids))
    have h₅ := Dict.nodup_keys_set h₄ (py "count") (.int ids.length)
    rw [quantify, ← Dict.hide_nil (v := Json.null) (Dict.set _ (py "percentage") _)]
    rw [Dict.hide_set_of_nodup h₅ (by decide), Dict.hide_set_of_nodup h₄ (by decide),
      Dict.hide_set_of_nodup h₃ (by decide), Dict.hide_set_of_nodup h₂ (by decide),
      Dict.hide_set_of_notMem (by decide), Dict.hide_set_of_notMem (by decide)]
    rfl
  have hhidden : (Dict.keys (hideNumbers find)).Nodup := by
    rw [Dict.keys_hide]
    exact hfind
  rw [hset find hfind, hset _ hhidden, hideNumbers, hideNumbers, Dict.hide_hide fun _ hk => hk]

/-- A finding that names entries is expanded to some. -/
lemma expandIds_ne_nil (hst : st.WellFormed) {finding : Json} {find : Json.Fields}
    (hfind : ContractFind finding find) (hkey : py "evidence_entry_ids" ∈ Dict.keys find)
    {claimed ids : List ℕ}
    (hids : readEntryIds st (Json.Fields.get find (py "evidence_entry_ids")) = .ok ids)
    (hfree : ∀ id ∈ ids, id ∉ claimed) : expandIds st claimed ids ≠ [] := by
  obtain ⟨hknown, hempty⟩ := readEntryIds_spec hst hids
  cases ids with
  | nil =>
    exfalso
    cases hget : Dict.get? find (py "evidence_entry_ids") with
    | none => exact (Dict.get?_eq_none_iff _ _).mp hget hkey
    | some v =>
      obtain ⟨items, rfl, hne⟩ := hfind.evidence v hget
      have hnil := hempty rfl
      rw [Json.Fields.get, Json.Fields.getD, hget] at hnil
      cases hnil
      exact hne rfl
  | cons id ids => exact List.ne_nil_of_mem (subset_expandIds hst hknown hfree List.mem_cons_self)

/-- What a finding that names entries claims, and what becomes of it, does not depend on its
numbers. -/
lemma claimEntries_congr (hst : st.WellFormed) {finding finding' : Json}
    {find find' : Json.Fields} (hfind : ContractFind finding find)
    (hfind' : ContractFind finding' find') (h : hideNumbers find = hideNumbers find')
    (hkey : py "evidence_entry_ids" ∈ Dict.keys find) (claimed : List ℕ) :
    claimEntries env st claimed find = claimEntries env st claimed find' := by
  unfold claimEntries
  rw [get_of_hideNumbers h (k := py "evidence_entry_ids") (by decide),
    get_of_hideNumbers h (k := py "id") (by decide)]
  cases hids : readEntryIds st (Json.Fields.get find' (py "evidence_entry_ids")) with
  | error e => rfl
  | ok ids =>
    rw [Except.ok_bind, Except.ok_bind]
    cases hoverlap : (ids.filter claimed.contains).min? with
    | some i => rfl
    | none =>
      have hfree : ∀ id ∈ ids, id ∉ claimed := by
        intro id hid hclaimed
        rw [List.min?_eq_none_iff] at hoverlap
        exact List.filter_eq_nil_iff.mp hoverlap id hid (by simpa using hclaimed)
      have hne := expandIds_ne_nil hst hfind' (keys_of_hideNumbers h ▸ hkey) hids hfree
      dsimp only
      rw [if_neg hne, if_neg hne]
      cases semanticPatternId env (Json.Fields.get find' (py "id")) with
      | error e => rfl
      | ok patternId =>
        rw [Except.ok_bind, Except.ok_bind, quantify_eq hfind.unique, h,
          ← quantify_eq hfind'.unique]

/-- Twins both name entries or neither does. -/
lemma Twins.hasEvidence_eq {finding finding' : Json} (h : Twins finding finding') :
    hasEvidence finding = hasEvidence finding' := by
  obtain ⟨find, find', hfind, hfind', hnumbers⟩ := h
  have hcontains : Dict.contains find (py "evidence_entry_ids") =
      Dict.contains find' (py "evidence_entry_ids") := by
    rw [Bool.eq_iff_iff, Dict.contains_iff, Dict.contains_iff, keys_of_hideNumbers hnumbers]
  rw [hfind.object, hfind'.object, hasEvidence, hasEvidence, hcontains]

lemma hasEvidence_of_namesEvidence {finding : Json} (h : NamesEvidence finding) :
    hasEvidence finding = .ok true := by
  obtain ⟨fields, rfl, hkey⟩ := h
  rw [hasEvidence, (Dict.contains_iff fields _).mpr hkey]
  rfl

lemma Twins.hasEvidence_of_not {finding finding' : Json} (h : Twins finding finding')
    (hev : ¬ NamesEvidence finding) : hasEvidence finding = .ok false := by
  obtain ⟨find, -, hfind, -, -⟩ := h
  have hcontains : Dict.contains find (py "evidence_entry_ids") = false := by
    rw [← Bool.not_eq_true, Dict.contains_iff]
    exact fun hkey => hev ⟨find, hfind.object, hkey⟩
  rw [hfind.object, hasEvidence, hcontains]
  rfl

variable (env) in
/-- A turn of the loop for each of two twins: they claim the same, and come out the same unless
they name no entries and were different before. -/
lemma groupFinding_both (hst : st.WellFormed) {finding finding' : Json}
    (h : Twins finding finding') (claimed : List ℕ) :
    Except.Both (fun p p' => p.2 = p'.2 ∧ (p.1 = p'.1 ↔ NamesEvidence finding ∨ finding = finding'))
      (groupFinding env st claimed finding) (groupFinding env st claimed finding') := by
  have hsame := h.hasEvidence_eq
  by_cases hev : NamesEvidence finding
  · have htrue := hasEvidence_of_namesEvidence hev
    obtain ⟨find, find', hfind, hfind', hnumbers⟩ := h
    have hkey : py "evidence_entry_ids" ∈ Dict.keys find := by
      obtain ⟨fields, hobject, hkey⟩ := hev
      rw [hfind.object] at hobject
      cases hobject
      exact hkey
    unfold groupFinding
    rw [← hsame, htrue, Except.ok_bind, Except.ok_bind, if_pos rfl, if_pos rfl,
      hfind.object, hfind'.object]
    dsimp only
    rw [claimEntries_congr hst hfind hfind' hnumbers hkey claimed]
    cases claimEntries env st claimed find' with
    | error e => exact .error e e
    | ok p =>
      refine .ok ⟨rfl, ?_⟩
      rw [← hfind.object]
      exact iff_of_true rfl (.inl hev)
  · have hfalse := h.hasEvidence_of_not hev
    unfold groupFinding
    rw [← hsame, hfalse, Except.ok_bind, Except.ok_bind]
    refine .ok ⟨rfl, ?_⟩
    simp [hev]

variable (env) in
/-- The loop over two lists of twins. -/
lemma groupFindings_both (hst : st.WellFormed) {found found' : List Json}
    (h : List.Forall₂ Twins found found') (claimed : List ℕ) :
    Except.Both (fun p p' => p.2 = p'.2 ∧
        (p.1 = p'.1 ↔ List.Forall₂ (fun f f' => NamesEvidence f ∨ f = f') found found'))
      (groupFindings env st claimed found) (groupFindings env st claimed found') := by
  induction h generalizing claimed with
  | nil => exact .ok ⟨rfl, iff_of_true rfl .nil⟩
  | @cons finding finding' rest rest' htwins _ ih =>
    have hturn := groupFinding_both env hst htwins claimed
    rw [groupFindings, groupFindings]
    generalize groupFinding env st claimed finding = x at hturn ⊢
    generalize groupFinding env st claimed finding' = x' at hturn ⊢
    cases hturn with
    | error e e' => exact .error _ _
    | @ok p p' hp =>
      obtain ⟨out, after⟩ := p
      obtain ⟨out', after'⟩ := p'
      obtain ⟨rfl, hout⟩ := hp
      dsimp only at hout ⊢
      have hrest := ih after
      generalize groupFindings env st after rest = y at hrest ⊢
      generalize groupFindings env st after rest' = y' at hrest ⊢
      cases hrest with
      | error e e' => exact .error _ _
      | ok hq =>
        refine .ok ⟨hq.1, ?_⟩
        rw [List.cons.injEq, hout, hq.2, List.forall₂_cons]

lemma reconcileGroup_of_get? {result : Json.Fields} {name : PyStr} {items : List Json}
    (h : Dict.get? result name = some (.arr items)) (claimed : List ℕ) :
    reconcileGroup env st result claimed name =
      match groupFindings env st claimed items with
      | .error (e, items) => .error (e, Dict.set result name (.arr items))
      | .ok (items, claimed) => .ok (Dict.set result name (.arr items), claimed) := by
  cases hfound : groupFindings env st claimed items with
  | error e => simp [reconcileGroup, h, hfound]
  | ok out => simp [reconcileGroup, h, hfound]

lemma appendUnclaimed_of_get? {result : Json.Fields} {items : List Json}
    (h : Dict.get? result (py "secondary_finds") = some (.arr items)) (claimed : List ℕ) :
    appendUnclaimed env st result claimed =
      match appendedFindings env st claimed with
      | .error e => .error (e, result)
      | .ok found => .ok (Dict.set result (py "secondary_finds")
          (.arr (items ++ found.map .obj))) := by
  unfold appendUnclaimed
  cases appendedFindings env st claimed with
  | error e => rfl
  | ok found =>
    cases found with
    | nil =>
      dsimp only
      rw [List.map_nil, List.append_nil, Dict.set_eq_self h]
    | cons f found =>
      dsimp only
      rw [Json.Fields.getD, h]
      rfl

/-- The loop over one group of two results. -/
lemma reconcileGroup_both (hst : st.WellFormed) {result result' : Json.Fields} {name : PyStr}
    {items items' : List Json} (hget : Dict.get? result name = some (.arr items))
    (hget' : Dict.get? result' name = some (.arr items')) (h : List.Forall₂ Twins items items')
    (claimed : List ℕ) :
    Except.Both (fun p p' => p.2 = p'.2 ∧ ∃ out out', p.1 = Dict.set result name (.arr out) ∧
        p'.1 = Dict.set result' name (.arr out') ∧
        (out = out' ↔ List.Forall₂ (fun f f' => NamesEvidence f ∨ f = f') items items'))
      (reconcileGroup env st result claimed name)
      (reconcileGroup env st result' claimed name) := by
  rw [reconcileGroup_of_get? hget, reconcileGroup_of_get? hget']
  have hloop := groupFindings_both env hst h claimed
  generalize groupFindings env st claimed items = x at hloop ⊢
  generalize groupFindings env st claimed items' = x' at hloop ⊢
  cases hloop with
  | error e e' => exact .error _ _
  | ok hp => exact .ok ⟨hp.1, _, _, rfl, rfl, hp.2⟩

/-- Two results that agree in all else are equal when their groups are. -/
lemma setGroups_inj {result result' : Json.Fields} (hresult : (Dict.keys result).Nodup)
    (hresult' : (Dict.keys result').Nodup)
    (h : Dict.hide resultKeys (.arr []) result = Dict.hide resultKeys (.arr []) result')
    (key key' secondary secondary' : List Json) :
    Dict.set (Dict.set (Dict.set result (py "key_finds") (.arr key)) (py "secondary_finds")
        (.arr secondary)) (py "total_entries") (.int st.totalEntries) =
      Dict.set (Dict.set (Dict.set result' (py "key_finds") (.arr key')) (py "secondary_finds")
        (.arr secondary')) (py "total_entries") (.int st.totalEntries) ↔
      key = key' ∧ secondary = secondary' := by
  constructor
  · intro heq
    have hget := fun k => congrArg (Dict.get? · k) heq
    have hkey := hget (py "key_finds")
    have hsecondary := hget (py "secondary_finds")
    simp only [Dict.get?_set, py_inj] at hkey hsecondary
    simpa using And.intro hkey hsecondary
  · rintro ⟨rfl, rfl⟩
    have hall : Dict.hide [py "key_finds", py "secondary_finds", py "total_entries"] (.arr [])
        result =
        Dict.hide [py "key_finds", py "secondary_finds", py "total_entries"] (.arr []) result' := by
      have hsame : ∀ k, k ∈ [py "key_finds", py "secondary_finds", py "total_entries"] ↔
          k ∈ resultKeys := by
        intro k
        simp only [resultKeys, List.map_cons, List.map_nil, List.mem_cons, List.not_mem_nil,
          or_false]
        tauto
      rw [Dict.hide_congr hsame, Dict.hide_congr hsame, h]
    have hnodup := fun k (v : Json) => Dict.nodup_keys_set hresult k v
    have hnodup' := fun k (v : Json) => Dict.nodup_keys_set hresult' k v
    have hkey := Dict.hide_set_congr hresult hresult' (by decide) hall (.arr key)
    have hsecondary := Dict.hide_set_congr (hnodup _ _) (hnodup' _ _) (by decide) hkey
      (.arr secondary)
    have htotal := Dict.hide_set_congr (Dict.nodup_keys_set (hnodup _ _) _ _)
      (Dict.nodup_keys_set (hnodup' _ _) _ _) List.not_mem_nil hsecondary (.int st.totalEntries)
    rwa [Dict.hide_nil, Dict.hide_nil] at htotal

/-- **Reconciliation by entries on two results.** What comes out is the same exactly when the
findings that name no entries are. -/
lemma reconcileEntryGrouped_both (hst : st.WellFormed) {r r' : ModelResult}
    (h : SameButNumbers r.fields r'.fields) :
    Except.Both (fun out out' => out = out' ↔ ∀ name ∈ groupNames,
        List.Forall₂ (fun f f' => NamesEvidence f ∨ f = f') (groupItems r.fields name)
          (groupItems r'.fields name))
      (reconcileEntryGrouped env st r.fields) (reconcileEntryGrouped env st r'.fields) := by
  obtain ⟨key, key', hkey, hkey', hkeys⟩ := h.exists_groups (py "key_finds") (by decide)
  obtain ⟨secondary, secondary', hsecondary, hsecondary', hsecondaries⟩ :=
    h.exists_groups (py "secondary_finds") (by decide)
  have hitems : ∀ (result : Json.Fields) name items, Dict.get? result name = some (.arr items) →
      groupItems result name = items := by
    intro result name items hget
    simp [groupItems, Json.Fields.get, Json.Fields.getD, hget]
  have hne : py "secondary_finds" ≠ py "key_finds" := by decide
  unfold reconcileEntryGrouped
  refine Except.Both.bind (reconcileGroup_both hst hkey hkey' hkeys []) ?_
  rintro ⟨_, claimed⟩ ⟨_, _⟩ ⟨rfl, outKey, outKey', rfl, rfl, hkeyOut⟩
  dsimp only
  rw [← Dict.get?_set_of_ne _ (.arr outKey) hne] at hsecondary
  rw [← Dict.get?_set_of_ne _ (.arr outKey') hne] at hsecondary'
  refine Except.Both.bind (reconcileGroup_both hst hsecondary hsecondary' hsecondaries claimed) ?_
  rintro ⟨_, claimed⟩ ⟨_, _⟩ ⟨rfl, outSecondary, outSecondary', rfl, rfl, hsecondaryOut⟩
  dsimp only
  rw [appendUnclaimed_of_get? (Dict.get?_set_self _ _ _),
    appendUnclaimed_of_get? (Dict.get?_set_self _ _ _)]
  cases appendedFindings env st claimed with
  | error e => exact .error _ _
  | ok appended =>
    refine .ok ?_
    rw [Dict.set_set, Dict.set_set, setGroups_inj r.unique r'.unique h.hide, hkeyOut,
      List.append_left_inj, hsecondaryOut]
    rw [Dict.get?_set_of_ne _ _ hne] at hsecondary hsecondary'
    simp only [groupNames, List.forall_mem_cons, List.not_mem_nil, false_implies, implies_true,
      and_true, hitems _ _ _ hkey, hitems _ _ _ hkey', hitems _ _ _ hsecondary,
      hitems _ _ _ hsecondary']

end Entries

/-! ## The first loop of reconciliation by patterns -/

/-- The audit counts of a finding. -/
def auditOf (finding : Json) : Json.Fields :=
  match finding with
  | .obj find => Dict.only auditKeys find
  | _ => []

/-- The findings the first loop keeps, as they were before it. -/
def keptFindings (env : Env) (st : Statistics) (fallback : Bool) (s : Assigned) :
    List Json → List Json
  | [] => []
  | finding :: rest =>
    match assignFinding env st fallback s finding with
    | .error _ => []
    | .ok (_, true, s) => finding :: keptFindings env st fallback s rest
    | .ok (_, false, s) => keptFindings env st fallback s rest

/-- Two findings that differ at most in their audit counts. -/
def SameButAudit (finding finding' : Json) : Prop :=
  ∃ find find', finding = .obj find ∧ finding' = .obj find' ∧ hideAudit find = hideAudit find'

section Assign

variable {env : Env} {st : Statistics} {fallback : Bool}

lemma hideNumbers_clearCount (find : Json.Fields) :
    hideNumbers (clearCount find) = clearCount (hideNumbers find) := by
  rw [clearCount, hideNumbers, Dict.hide_set_of_mem (by decide), Dict.hide_set_of_mem (by decide)]
  rfl

variable (env st fallback) in
/-- The ids of a finding do not depend on its numbers, and the numbers are no part of what is done
with the ids. -/
lemma normalizeIds_hideNumbers (find : Json.Fields) :
    normalizeIds env st fallback (hideNumbers find) =
      (normalizeIds env st fallback find).map fun p => (hideNumbers p.1, p.2) := by
  have hids : Json.Fields.get (hideNumbers find) (py "pattern_ids") =
      Json.Fields.get find (py "pattern_ids") := by
    rw [Json.Fields.get, Json.Fields.getD, Dict.get?_hide_of_notMem (by decide)]
    rfl
  have hset : ∀ v, Dict.set (hideNumbers find) (py "pattern_ids") v =
      hideNumbers (Dict.set find (py "pattern_ids") v) := by
    intro v
    rw [hideNumbers, hideNumbers, Dict.hide_set_of_notMem (by decide)]
  unfold normalizeIds
  simp only [hids, hset, ← hideNumbers_clearCount]
  cases ((Json.Fields.get find (py "pattern_ids")).or (.arr [])).iter with
  | error e => rfl
  | ok items =>
    rw [Except.ok_bind, Except.ok_bind]
    cases items.filterM (isUnknown st) with
    | error e => rfl
    | ok unknown =>
      rw [Except.ok_bind, Except.ok_bind]
      cases unknown with
      | nil => rfl
      | cons unknown rest =>
        cases fallback with
        | false => rfl
        | true =>
          dsimp only
          rw [if_pos rfl, if_pos rfl]
          cases items.filterM (isKnown st) with
          | error e => rfl
          | ok known =>
            rw [Except.ok_bind, Except.ok_bind]
            cases known with
            | nil => rfl
            | cons known rest => rfl

variable (env st fallback) in
/-- The ids of two findings that differ in their numbers. -/
lemma normalizeIds_both {find find' : Json.Fields} (h : hideNumbers find = hideNumbers find') :
    Except.Both (fun p p' => p.2 = p'.2 ∧ hideNumbers p.1 = hideNumbers p'.1)
      (normalizeIds env st fallback find) (normalizeIds env st fallback find') := by
  have hmap := normalizeIds_hideNumbers env st fallback find
  rw [h, normalizeIds_hideNumbers] at hmap
  generalize normalizeIds env st fallback find = x at hmap ⊢
  generalize normalizeIds env st fallback find' = x' at hmap ⊢
  cases x with
  | error e =>
    cases x' with
    | error e' => exact .error e e'
    | ok p' => cases hmap
  | ok p =>
    cases x' with
    | error e' => cases hmap
    | ok p' =>
      simp only [Except.map, Except.ok.injEq, Prod.mk.injEq] at hmap
      exact .ok ⟨hmap.2.symm, hmap.1.symm⟩

variable (env st fallback) in
/-- A finding whose ids are normalized has each key once, and the audit counts it had. -/
lemma normalizeIds_frame {find : Json.Fields} (hfind : (Dict.keys find).Nodup)
    (find' : Json.Fields) (ids : List PyStr)
    (h : normalizeIds env st fallback find = .ok (find', ids)) :
    (Dict.keys find').Nodup ∧ Dict.only auditKeys find' = Dict.only auditKeys find := by
  obtain ⟨items, -, h⟩ := Except.bind_eq_ok.mp h
  obtain ⟨unknown, -, h⟩ := Except.bind_eq_ok.mp h
  split at h
  · rw [Except.pure_eq_ok] at h
    cases h
    exact ⟨hfind, rfl⟩
  · split at h
    · obtain ⟨known, -, h⟩ := Except.bind_eq_ok.mp h
      split at h
      · rw [Except.pure_eq_ok] at h
        cases h
        refine ⟨Dict.nodup_keys_set (Dict.nodup_keys_set (Dict.nodup_keys_set hfind _ _) _ _) _ _,
          ?_⟩
        rw [clearCount, Dict.only_set_of_notMem (by decide), Dict.only_set_of_notMem (by decide),
          Dict.only_set_of_notMem (by decide)]
      · rw [Except.pure_eq_ok] at h
        cases h
        exact ⟨Dict.nodup_keys_set hfind _ _, Dict.only_set_of_notMem (by decide) _ _⟩
    · exact absurd h Except.throw_ne_ok

/-- A count and a percentage in the place of other ones. -/
lemma hideAudit_counted {find find' : Json.Fields} (hfind : (Dict.keys find).Nodup)
    (hfind' : (Dict.keys find').Nodup) (h : hideNumbers find = hideNumbers find')
    (count percentage : Json) :
    hideAudit (Dict.set (Dict.set find (py "count") count) (py "percentage") percentage) =
      hideAudit (Dict.set (Dict.set find' (py "count") count) (py "percentage") percentage) := by
  have hsame : ∀ k, k ∈ py "count" :: py "percentage" :: auditKeys ↔ k ∈ numberKeys := by
    intro k
    simp only [auditKeys, numberKeys, List.map_cons, List.map_nil, List.mem_cons,
      List.not_mem_nil, or_false]
    tauto
  refine Dict.hide_set_congr (Dict.nodup_keys_set hfind _ _) (Dict.nodup_keys_set hfind' _ _)
    (by decide) ?_ _
  refine Dict.hide_set_congr hfind hfind' (by decide) ?_ _
  rw [Dict.hide_congr hsame, Dict.hide_congr hsame]
  exact h

variable (env st fallback) in
/-- A turn of the first loop for each of two twins: both are kept or dropped, and a finding that is
kept differs from the other at most in its audit counts, which are those it had. -/
lemma assignFinding_both {finding finding' : Json} (h : Twins finding finding') (s : Assigned) :
    Except.Both (fun p p' => p.2 = p'.2 ∧ (p.2.1 = true → SameButAudit p.1 p'.1 ∧
        auditOf p.1 = auditOf finding ∧ auditOf p'.1 = auditOf finding'))
      (assignFinding env st fallback s finding) (assignFinding env st fallback s finding') := by
  obtain ⟨find, find', hfind, hfind', hnumbers⟩ := h
  rw [hfind.object, hfind'.object]
  have hnormal := normalizeIds_both env st fallback hnumbers
  have hframe := normalizeIds_frame env st fallback hfind.unique
  have hframe' := normalizeIds_frame env st fallback hfind'.unique
  unfold assignFinding
  dsimp only
  generalize normalizeIds env st fallback find = x at hnormal hframe ⊢
  generalize normalizeIds env st fallback find' = x' at hnormal hframe' ⊢
  cases hnormal with
  | error e e' => exact .error _ _
  | @ok p p' hp =>
    obtain ⟨f, ids⟩ := p
    obtain ⟨f', ids'⟩ := p'
    obtain ⟨rfl, hf⟩ := hp
    dsimp only at hf
    obtain ⟨hunique, haudit⟩ := hframe f ids rfl
    obtain ⟨hunique', haudit'⟩ := hframe' f' ids rfl
    have hcounted : ∀ count percentage : Json,
        let out := Dict.set (Dict.set f (py "count") count) (py "percentage") percentage
        let out' := Dict.set (Dict.set f' (py "count") count) (py "percentage") percentage
        SameButAudit (.obj out) (.obj out') ∧ auditOf (.obj out) = auditOf (.obj find) ∧
          auditOf (.obj out') = auditOf (.obj find') := by
      intro count percentage
      refine ⟨⟨_, _, rfl, rfl, hideAudit_counted hunique hunique' hf _ _⟩, ?_, ?_⟩
      · simp only [auditOf]
        rw [Dict.only_set_of_notMem (by decide), Dict.only_set_of_notMem (by decide), haudit]
      · simp only [auditOf]
        rw [Dict.only_set_of_notMem (by decide), Dict.only_set_of_notMem (by decide), haudit']
    dsimp only
    rw [get_of_hideNumbers hf (k := py "pattern_ids") (by decide)]
    by_cases hmarker : isUnquantified (Json.Fields.get f' (py "pattern_ids")) = true
    · rw [if_pos hmarker, if_pos hmarker]
      by_cases hseen : s.unquantifiedSeen ∧ fallback
      · rw [if_pos hseen, if_pos hseen]
        exact .ok ⟨rfl, by simp⟩
      · rw [if_neg hseen, if_neg hseen]
        exact .ok ⟨rfl, fun _ => hcounted .null .null⟩
    · rw [if_neg hmarker, if_neg hmarker]
      cases useIds s.used ids with
      | error e => exact .error _ _
      | ok used =>
        dsimp only
        by_cases hknown : ids.all (Dict.contains (patternById st)) = true
        · rw [if_pos hknown, if_pos hknown]
          exact .ok ⟨rfl, fun _ => hcounted _ _⟩
        · rw [if_neg hknown, if_neg hknown]
          exact .error _ _

variable (env st fallback) in
/-- The first loop over two lists of twins. -/
lemma assignFindings_both {found found' : List Json} (h : List.Forall₂ Twins found found')
    (s : Assigned) :
    Except.Both (fun p p' => p.2 = p'.2 ∧ List.Forall₂ SameButAudit p.1 p'.1 ∧
        p.1.map auditOf = (keptFindings env st fallback s found).map auditOf ∧
        p'.1.map auditOf = (keptFindings env st fallback s found').map auditOf)
      (assignFindings env st fallback s found) (assignFindings env st fallback s found') := by
  induction h generalizing s with
  | nil => exact .ok ⟨rfl, .nil, rfl, rfl⟩
  | @cons finding finding' rest rest' htwins _ ih =>
    have hturn := assignFinding_both env st fallback htwins s
    rw [assignFindings, assignFindings, keptFindings, keptFindings]
    generalize assignFinding env st fallback s finding = x at hturn ⊢
    generalize assignFinding env st fallback s finding' = x' at hturn ⊢
    cases hturn with
    | error e e' => exact .error _ _
    | @ok p p' hp =>
      obtain ⟨out, kept, after⟩ := p
      obtain ⟨out', kept', after'⟩ := p'
      obtain ⟨heq, hout⟩ := hp
      cases heq
      have hrest := ih after
      dsimp only at hout ⊢
      generalize assignFindings env st fallback after rest = y at hrest ⊢
      generalize assignFindings env st fallback after rest' = y' at hrest ⊢
      cases hrest with
      | error e e' => exact .error _ _
      | ok hq =>
        obtain ⟨hafter, hsame, haudit, haudit'⟩ := hq
        cases kept with
        | false => exact .ok ⟨hafter, hsame, haudit, haudit'⟩
        | true =>
          obtain ⟨hfirst, hown, hown'⟩ := hout rfl
          refine .ok ⟨hafter, .cons hfirst hsame, ?_, ?_⟩
          · simp only [if_true, List.map_cons, hown, haudit]
          · simp only [if_true, List.map_cons, hown', haudit']

/-- The findings of two lists that are kept. -/
lemma keptFindings_append {s after : Assigned} {found found₁ : List Json}
    (h : assignFindings env st fallback s found = .ok (found₁, after)) (rest : List Json) :
    keptFindings env st fallback s (found ++ rest) =
      keptFindings env st fallback s found ++ keptFindings env st fallback after rest := by
  induction found generalizing s found₁ with
  | nil =>
    cases h
    rfl
  | cons finding found ih =>
    rw [assignFindings] at h
    rw [List.cons_append, keptFindings, keptFindings]
    cases hturn : assignFinding env st fallback s finding with
    | error e =>
      rw [hturn] at h
      cases h
    | ok p =>
      obtain ⟨out, kept, between⟩ := p
      rw [hturn] at h
      dsimp only at h
      cases hrest : assignFindings env st fallback between found with
      | error e =>
        rw [hrest] at h
        cases h
      | ok q =>
        rw [hrest] at h
        cases h
        cases kept with
        | false => exact ih hrest
        | true =>
          dsimp only
          rw [ih hrest, List.cons_append]

end Assign

/-! ## What follows the first loop -/

section Finish

variable (env : Env) (st : Statistics) (fallback : Bool) {w w' : Work}

/-- What comes of findings that are the same but for their audit counts is the same exactly when
the findings that stay had the same audit counts. -/
lemma read_finishPatterns_eq_iff (h : w.hide = w'.hide) (hw : Fresh w) (hw' : Fresh w')
    (hunique : (Dict.keys w.doc.fields).Nodup) (hunique' : (Dict.keys w'.doc.fields).Nodup) :
    (finishPatterns env st fallback w).doc.read (finishPatterns env st fallback w).heap =
        (finishPatterns env st fallback w').doc.read (finishPatterns env st fallback w').heap ↔
      ∀ r ∈ (finishPatterns env st fallback w).doc.refs, w.audit r = w'.audit r := by
  have hhide : (finishBody env st w fallback).hide = (finishBody env st w' fallback).hide := by
    rw [← finishBody_hide, ← finishBody_hide, h]
  have hframe := finishBody_frame env st w fallback hw
  have hframe' := finishBody_frame env st w' fallback hw'
  rw [finishPatterns_eq, finishPatterns_eq]
  generalize finishBody env st w fallback = b at hhide hframe ⊢
  generalize finishBody env st w' fallback = b' at hhide hframe' ⊢
  have hkey : b.doc.keyFinds = b'.doc.keyFinds := by
    rw [← keyFinds_hide, hhide, keyFinds_hide]
  have hsecondary : b.doc.secondaryFinds = b'.doc.secondaryFinds := by
    rw [← secondaryFinds_hide, hhide, secondaryFinds_hide]
  have hfields : Dict.hide resultKeys (.arr []) b.doc.fields =
      Dict.hide resultKeys (.arr []) b'.doc.fields := congrArg (·.doc.fields) hhide
  have hfinding : ∀ r, b.heap r = b'.heap r ↔ w.audit r = w'.audit r := by
    intro r
    have hrest : hideAudit (b.heap r) = hideAudit (b'.heap r) := by
      rw [← heap_hide, hhide, heap_hide]
    rw [Dict.eq_iff_hide_only auditKeys Json.null, ← hframe.audit, ← hframe'.audit]
    exact and_iff_right hrest
  simp only [Doc.refs, List.mem_append]
  constructor
  · intro heq r hr
    have hgroups : ∀ r ∈ b.doc.keyFinds ++ b.doc.secondaryFinds, b.heap r = b'.heap r := by
      have hget := fun k => congrArg (Dict.get? · k) heq
      have hkeyGet := hget (py "key_finds")
      have hsecondaryGet := hget (py "secondary_finds")
      simp only [Doc.read, Dict.get?_set, py_inj, ← hkey, ← hsecondary] at hkeyGet hsecondaryGet
      intro r hr
      rcases List.mem_append.mp hr with hr | hr
      · have hkeyFinds : ∀ r ∈ b.doc.keyFinds, b.heap r = b'.heap r := by simpa using hkeyGet
        exact hkeyFinds r hr
      · have hsecondaryFinds : ∀ r ∈ b.doc.secondaryFinds, b.heap r = b'.heap r := by
          simpa using hsecondaryGet
        exact hsecondaryFinds r hr
    exact (hfinding r).mp (hgroups r (List.mem_append.mpr hr))
  · intro haudit
    have hgroup : ∀ refs : List Ref, (∀ r ∈ refs, w.audit r = w'.audit r) →
        refs.map (fun r => Json.obj (b.heap r)) = refs.map fun r => Json.obj (b'.heap r) := by
      intro refs hrefs
      exact List.map_congr_left fun r hr => by rw [(hfinding r).mpr (hrefs r hr)]
    have hb := hframe.unique hunique
    have hb' := hframe'.unique hunique'
    simp only [Doc.read, ← hkey, ← hsecondary]
    rw [hgroup _ fun r hr => haudit r (.inl hr), hgroup _ fun r hr => haudit r (.inr hr)]
    have htotal := Dict.hide_set_congr hb hb' (by decide) hfields (.int st.totalEntries)
    have hkeys := Dict.hide_set_congr (Dict.nodup_keys_set hb _ _) (Dict.nodup_keys_set hb' _ _)
      (by decide) htotal (.arr (b.doc.keyFinds.map fun r => .obj (b'.heap r)))
    have hall := Dict.hide_set_congr (Dict.nodup_keys_set (Dict.nodup_keys_set hb _ _) _ _)
      (Dict.nodup_keys_set (Dict.nodup_keys_set hb' _ _) _ _) List.not_mem_nil hkeys
      (.arr (b.doc.secondaryFinds.map fun r => .obj (b'.heap r)))
    rwa [Dict.hide_nil, Dict.hide_nil] at hall

end Finish

/-! ## Reconciliation by patterns -/

/-- `reconcile_result` by patterns, up to the end of the first loop. -/
def firstLoop (env : Env) (st : Statistics) (fallback : Bool) (result : Json.Fields) :
    Except (Failure Json.Fields) Json.Fields := do
  let (result, s) ← assignGroup env st fallback result ⟨[], false⟩ (py "key_finds")
  let (result, _) ← assignGroup env st fallback result s (py "secondary_finds")
  return result

/-- The places of the findings that stay, in the order they come out. -/
def survivors (env : Env) (st : Statistics) (fallback : Bool) (result : Json.Fields) : List Ref :=
  match firstLoop env st fallback result with
  | .ok result => (finishPatterns env st fallback (Work.start result)).doc.refs
  | .error _ => []

/-- The findings that stay, as the model gave them. -/
def stayingFindings (env : Env) (st : Statistics) (fallback : Bool) (result : Json.Fields) :
    List Json :=
  let kept := keptFindings env st fallback ⟨[], false⟩ (findings result)
  (survivors env st fallback result).filterMap fun r => kept[r]?

section Patterns

variable {env : Env} {st : Statistics} {fallback : Bool}

lemma reconcilePatterns_eq (result : Json.Fields) :
    reconcilePatterns env st fallback result =
      firstLoop env st fallback result >>= fun result =>
        let w := Work.start result
        if w.items.all w.iterable then
          let w := finishPatterns env st fallback w
          pure (w.doc.read w.heap, w.leftBehind)
        else throw (.typeError, w.leftBehind) := by
  unfold reconcilePatterns firstLoop
  cases assignGroup env st fallback result ⟨[], false⟩ (py "key_finds") with
  | error e => rfl
  | ok p =>
    obtain ⟨first, s⟩ := p
    rw [Except.ok_bind, Except.ok_bind]
    dsimp only
    cases assignGroup env st fallback first s (py "secondary_finds") with
    | error e => rfl
    | ok q => rfl

lemma assignGroup_of_get? {result : Json.Fields} {name : PyStr} {items : List Json}
    (h : Dict.get? result name = some (.arr items)) (s : Assigned) :
    assignGroup env st fallback result s name =
      match assignFindings env st fallback s items with
      | .error (e, items) => .error (e, Dict.set result name (.arr items))
      | .ok (items, s) => .ok (Dict.set result name (.arr items), s) := by
  rw [assignGroup, Json.Fields.getD, h]
  rfl

/-- A result after the first loop: its groups have the findings that are kept, with the audit
counts they had. -/
structure AfterLoop (env : Env) (st : Statistics) (fallback : Bool) (r : ModelResult)
    (result : Json.Fields) (key secondary : List Json) : Prop where
  result_eq : result = Dict.set (Dict.set r.fields (py "key_finds") (.arr key))
    (py "secondary_finds") (.arr secondary)
  audit : (key ++ secondary).map auditOf =
    (keptFindings env st fallback ⟨[], false⟩ (findings r.fields)).map auditOf

variable (env st fallback) in
/-- The first loop over two results. -/
lemma firstLoop_both {r r' : ModelResult} (h : SameButNumbers r.fields r'.fields) :
    Except.Both (fun result result' => ∃ key key' secondary secondary',
        AfterLoop env st fallback r result key secondary ∧
        AfterLoop env st fallback r' result' key' secondary' ∧
        List.Forall₂ SameButAudit key key' ∧ List.Forall₂ SameButAudit secondary secondary')
      (firstLoop env st fallback r.fields) (firstLoop env st fallback r'.fields) := by
  obtain ⟨key, key', hkey, hkey', hkeys⟩ := h.exists_groups (py "key_finds") (by decide)
  obtain ⟨secondary, secondary', hsecondary, hsecondary', hsecondaries⟩ :=
    h.exists_groups (py "secondary_finds") (by decide)
  have hfindings : ∀ {result : Json.Fields} {key secondary},
      Dict.get? result (py "key_finds") = some (.arr key) →
      Dict.get? result (py "secondary_finds") = some (.arr secondary) →
      findings result = key ++ secondary := by
    intro result key secondary hkey hsecondary
    rw [findings_eq]
    simp [groupItems, Json.Fields.get, Json.Fields.getD, hkey, hsecondary]
  have hfound := hfindings hkey hsecondary
  have hfound' := hfindings hkey' hsecondary'
  have hne : py "secondary_finds" ≠ py "key_finds" := by decide
  unfold firstLoop
  rw [assignGroup_of_get? hkey, assignGroup_of_get? hkey']
  have hloop := assignFindings_both env st fallback hkeys ⟨[], false⟩
  cases hx : assignFindings env st fallback ⟨[], false⟩ key with
  | error e =>
    rw [hx] at hloop
    generalize assignFindings env st fallback ⟨[], false⟩ key' = x' at hloop ⊢
    cases hloop
    exact .error _ _
  | ok p =>
    cases hx' : assignFindings env st fallback ⟨[], false⟩ key' with
    | error e' =>
      rw [hx, hx'] at hloop
      cases hloop
    | ok p' =>
      obtain ⟨keyOut, after⟩ := p
      obtain ⟨keyOut', after'⟩ := p'
      obtain ⟨heq, hsame, haudit, haudit'⟩ := hloop.of_ok hx hx'
      dsimp only at heq hsame haudit haudit'
      subst heq
      dsimp only
      rw [Except.ok_bind, Except.ok_bind]
      dsimp only
      rw [assignGroup_of_get? ((Dict.get?_set_of_ne _ _ hne).trans hsecondary),
        assignGroup_of_get? ((Dict.get?_set_of_ne _ _ hne).trans hsecondary')]
      have hloop := assignFindings_both env st fallback hsecondaries after
      have hkept := keptFindings_append hx secondary
      have hkept' := keptFindings_append hx' secondary'
      generalize assignFindings env st fallback after secondary = y at hloop ⊢
      generalize assignFindings env st fallback after secondary' = y' at hloop ⊢
      cases hloop with
      | error e e' => exact .error _ _
      | ok hq =>
        obtain ⟨-, hsame₂, haudit₂, haudit₂'⟩ := hq
        refine .ok ⟨_, _, _, _, ⟨rfl, ?_⟩, ⟨rfl, ?_⟩, hsame, hsame₂⟩
        · rw [hfound, hkept, List.map_append, List.map_append, haudit, haudit₂]
        · rw [hfound', hkept', List.map_append, List.map_append, haudit', haudit₂']

namespace AfterLoop

variable {r r' : ModelResult} {result result' : Json.Fields}
  {key key' secondary secondary' : List Json}

lemma groups (h : AfterLoop env st fallback r result key secondary) :
    groupItems result (py "key_finds") = key ∧
      groupItems result (py "secondary_finds") = secondary := by
  rw [h.result_eq]
  simp [groupItems]

lemma next_start (h : AfterLoop env st fallback r result key secondary) :
    (Work.start result).next = (key ++ secondary).length := by
  rw [Work.start, h.groups.1, h.groups.2, List.length_append]

/-- The findings the steps start with have the audit counts the model gave them. -/
lemma audit_start (h : AfterLoop env st fallback r result key secondary) (ref : Ref) :
    (Work.start result).audit ref =
      (((keptFindings env st fallback ⟨[], false⟩ (findings r.fields))[ref]?).map auditOf).getD
        [] := by
  have hlookup : ((keptFindings env st fallback ⟨[], false⟩ (findings r.fields))[ref]?).map auditOf =
      ((key ++ secondary)[ref]?).map auditOf := by
    rw [← List.getElem?_map, ← h.audit, List.getElem?_map]
  rw [hlookup, Work.audit, Work.start, h.groups.1, h.groups.2]
  dsimp only
  cases (key ++ secondary)[ref]? with
  | none => rfl
  | some v =>
    cases v with
    | obj find => rfl
    | null | bool | int | float | str | arr => rfl

lemma length_kept (h : AfterLoop env st fallback r result key secondary) :
    (keptFindings env st fallback ⟨[], false⟩ (findings r.fields)).length =
      (key ++ secondary).length := by
  have hlength := congrArg List.length h.audit
  simpa only [List.length_map] using hlength.symm

lemma fresh (h : AfterLoop env st fallback r result key secondary) : Fresh (Work.start result) := by
  intro ref href
  rw [h.audit_start, List.getElem?_eq_none]
  · rfl
  · rw [h.length_kept, ← h.next_start]
    exact href

lemma unique (h : AfterLoop env st fallback r result key secondary) :
    (Dict.keys (Work.start result).doc.fields).Nodup := by
  show (Dict.keys result).Nodup
  rw [h.result_eq]
  exact Dict.nodup_keys_set (Dict.nodup_keys_set r.unique _ _) _ _

/-- After the first loop the results differ at most in the audit counts. -/
lemma hide_start (h : AfterLoop env st fallback r result key secondary)
    (h' : AfterLoop env st fallback r' result' key' secondary')
    (hsame : SameButNumbers r.fields r'.fields) (hkey : List.Forall₂ SameButAudit key key')
    (hsecondary : List.Forall₂ SameButAudit secondary secondary') :
    (Work.start result).hide = (Work.start result').hide := by
  have hfields : Dict.hide resultKeys (.arr []) result = Dict.hide resultKeys (.arr []) result' := by
    rw [h.result_eq, h'.result_eq, Dict.hide_set_of_mem (by decide),
      Dict.hide_set_of_mem (by decide), Dict.hide_set_of_mem (by decide),
      Dict.hide_set_of_mem (by decide), hsame.hide]
  have hfound : List.Forall₂ SameButAudit (key ++ secondary) (key' ++ secondary') :=
    List.rel_append hkey hsecondary
  have hheap : ∀ ref, hideAudit ((Work.start result).heap ref) =
      hideAudit ((Work.start result').heap ref) := by
    intro ref
    rw [Work.start, Work.start, h.groups.1, h.groups.2, h'.groups.1, h'.groups.2]
    dsimp only
    by_cases href : ref < (key ++ secondary).length
    · have href' : ref < (key' ++ secondary').length := hfound.length_eq ▸ href
      obtain ⟨find, find', hfind, hfind', hhide⟩ := hfound.get href href'
      rw [List.get_eq_getElem] at hfind hfind'
      rw [List.getElem?_eq_getElem href, List.getElem?_eq_getElem href', Option.getD_some,
        Option.getD_some, hfind, hfind']
      exact hhide
    · have hlength := Nat.not_lt.mp href
      rw [List.getElem?_eq_none hlength, List.getElem?_eq_none (hfound.length_eq ▸ hlength)]
  simp only [Work.hide, Work.mk.injEq]
  refine ⟨funext hheap, ?_, ?_, rfl⟩
  · rw [h.next_start, h'.next_start, hfound.length_eq]
  · rw [Work.start, Work.start, h.groups.1, h.groups.2, h'.groups.1, h'.groups.2, Doc.hide,
      Doc.hide]
    dsimp only
    rw [hfields, hkey.length_eq, hsecondary.length_eq]

end AfterLoop

/-- Lookups in two lists of the same length find the same exactly when the elements that are
found are the same. -/
lemma map_filterMap_getElem?_eq_iff {α β : Type} (f : α → β) {xs ys : List α}
    (h : xs.length = ys.length) (refs : List ℕ) :
    (refs.filterMap (xs[·]?)).map f = (refs.filterMap (ys[·]?)).map f ↔
      ∀ r ∈ refs, (xs[r]?).map f = (ys[r]?).map f := by
  induction refs with
  | nil => simp
  | cons r refs ih =>
    rw [List.forall_mem_cons, ← ih]
    by_cases hr : r < xs.length
    · have hr' : r < ys.length := h ▸ hr
      simp [List.getElem?_eq_getElem hr, List.getElem?_eq_getElem hr']
    · have hlength := Nat.not_lt.mp hr
      simp [List.getElem?_eq_none hlength, List.getElem?_eq_none (h ▸ hlength)]

variable (env st fallback) in
/-- **Reconciliation by patterns on two results.** What comes out is the same exactly when the
findings that stay have the same audit counts. -/
lemma reconcilePatterns_both {r r' : ModelResult} (h : SameButNumbers r.fields r'.fields) :
    Except.Both (fun p p' => p.1 = p'.1 ↔
        (stayingFindings env st fallback r.fields).map auditOf =
          (stayingFindings env st fallback r'.fields).map auditOf)
      (reconcilePatterns env st fallback r.fields)
      (reconcilePatterns env st fallback r'.fields) := by
  have hloop := firstLoop_both env st fallback h
  rw [reconcilePatterns_eq, reconcilePatterns_eq, stayingFindings, stayingFindings, survivors,
    survivors]
  generalize firstLoop env st fallback r.fields = x at hloop ⊢
  generalize firstLoop env st fallback r'.fields = x' at hloop ⊢
  cases hloop with
  | error e e' => exact .error _ _
  | ok hresults =>
    obtain ⟨key, key', secondary, secondary', hafter, hafter', hkey, hsecondary⟩ := hresults
    have hstart := hafter.hide_start hafter' h hkey hsecondary
    have hread := read_finishPatterns_eq_iff env st fallback hstart hafter.fresh hafter'.fresh
      hafter.unique hafter'.unique
    rename_i result result'
    rw [Except.ok_bind, Except.ok_bind]
    dsimp only
    rw [← items_hide, ← iterable_hide, hstart, items_hide, iterable_hide]
    by_cases hiterable : (Work.start result').items.all (Work.start result').iterable = true
    · rw [if_pos hiterable, if_pos hiterable]
      refine .ok ?_
      rw [hread]
      have hrefs : (finishPatterns env st fallback (Work.start result)).doc.refs =
          (finishPatterns env st fallback (Work.start result')).doc.refs := by
        rw [finishPatterns_eq, finishPatterns_eq]
        show (finishBody env st _ fallback).doc.refs = (finishBody env st _ fallback).doc.refs
        rw [← refs_hide, ← finishBody_hide, hstart, finishBody_hide, refs_hide]
      have hlength : (keptFindings env st fallback ⟨[], false⟩ (findings r.fields)).length =
          (keptFindings env st fallback ⟨[], false⟩ (findings r'.fields)).length := by
        rw [hafter.length_kept, hafter'.length_kept]
        exact (List.rel_append hkey hsecondary).length_eq
      rw [← hrefs, map_filterMap_getElem?_eq_iff auditOf hlength]
      refine forall_congr' fun ref => forall_congr' fun _ => ?_
      rw [hafter.audit_start, hafter'.audit_start]
      by_cases href :
          ref < (keptFindings env st fallback ⟨[], false⟩ (findings r.fields)).length
      · have href' := hlength ▸ href
        simp [List.getElem?_eq_getElem href, List.getElem?_eq_getElem href']
      · have hnone := Nat.not_lt.mp href
        rw [List.getElem?_eq_none hnone, List.getElem?_eq_none (hlength ▸ hnone)]
        simp
    · rw [if_neg hiterable, if_neg hiterable]
      exact .error _ _

end Patterns

/-! ## Both paths -/

/-- The numbers that reconciliation does not replace agree. By entries, these are the numbers of
the findings that name no entries; by patterns, the audit counts of the findings that stay. -/
structure NumbersAgree (env : Env) (st : Statistics) (fallback : Bool)
    (result result' : Json.Fields) : Prop where
  entries : (∃ f ∈ findings result, NamesEvidence f) → ∀ name ∈ groupNames,
    List.Forall₂ (fun f f' => NamesEvidence f ∨ f = f') (groupItems result name)
      (groupItems result' name)
  patterns : (¬ ∃ f ∈ findings result, NamesEvidence f) →
    (stayingFindings env st fallback result).map auditOf =
      (stayingFindings env st fallback result').map auditOf

section Numbers

variable {env : Env} {st : Statistics} {fallback : Bool}

/-- Whether a finding names entries does not depend on its numbers. -/
lemma anyEvidence_twins {found found' : List Json} (h : List.Forall₂ Twins found found') :
    ∃ named, anyEvidence found = .ok named ∧ anyEvidence found' = .ok named ∧
      (named = true ↔ ∃ f ∈ found, NamesEvidence f) := by
  induction h with
  | nil => exact ⟨false, rfl, rfl, by simp⟩
  | @cons finding finding' rest rest' htwins _ ih =>
    rw [anyEvidence, anyEvidence, ← htwins.hasEvidence_eq, List.exists_mem_cons_iff]
    by_cases hev : NamesEvidence finding
    · rw [hasEvidence_of_namesEvidence hev]
      exact ⟨true, rfl, rfl, by simp [hev]⟩
    · rw [htwins.hasEvidence_of_not hev]
      obtain ⟨named, hnamed, hnamed', hiff⟩ := ih
      exact ⟨named, hnamed, hnamed', by simp [hev, hiff]⟩

/-- Which way a result is reconciled does not depend on its numbers. -/
lemma iterGroups_same {r r' : ModelResult} (h : SameButNumbers r.fields r'.fields)
    (names : List PyStr) (hnames : ∀ name ∈ names, name ∈ groupNames) :
    ∃ named, iterGroups r.fields names = .ok named ∧ iterGroups r'.fields names = .ok named ∧
      (named = true ↔ ∃ f ∈ names.flatMap (groupItems r.fields), NamesEvidence f) := by
  induction names with
  | nil => exact ⟨false, rfl, rfl, by simp⟩
  | cons name names ih =>
    obtain ⟨items, items', hget, hget', htwins⟩ :=
      h.exists_groups name (hnames name List.mem_cons_self)
    obtain ⟨first, hfirst, hfirst', hiff⟩ := anyEvidence_twins htwins
    have hitems : groupItems r.fields name = items := by
      simp [groupItems, Json.Fields.get, Json.Fields.getD, hget]
    rw [iterGroups, iterGroups, Json.Fields.getD, Json.Fields.getD, hget, hget', Option.getD_some,
      Option.getD_some, Json.iter, Json.iter, pure_bind, pure_bind, hfirst, hfirst',
      Except.ok_bind, Except.ok_bind, List.flatMap_cons, hitems]
    cases first with
    | true =>
      obtain ⟨f, hf, hev⟩ := hiff.mp rfl
      exact ⟨true, rfl, rfl, iff_of_true rfl ⟨f, List.mem_append_left _ hf, hev⟩⟩
    | false =>
      obtain ⟨named, hnamed, hnamed', hrest⟩ :=
        ih fun other hother => hnames other (List.mem_cons_of_mem _ hother)
      have hnone : ∀ f ∈ items, ¬ NamesEvidence f := by
        intro f hf hev
        exact Bool.false_ne_true (hiff.mpr ⟨f, hf, hev⟩)
      refine ⟨named, hnamed, hnamed', hrest.trans ?_⟩
      constructor
      · rintro ⟨f, hf, hev⟩
        exact ⟨f, List.mem_append_right _ hf, hev⟩
      · rintro ⟨f, hf, hev⟩
        rcases List.mem_append.mp hf with hf | hf
        · exact absurd hev (hnone f hf)
        · exact ⟨f, hf, hev⟩

/-- **The numbers of a model result.** For every log and every two results of the contract that
differ at most in their numbers, reconciliation rejects both or accepts both, and it makes the
same of them exactly when the numbers it does not replace agree. -/
theorem reconcileResult_numbers (env : Env) (logText : PyStr) (st : Statistics)
    (hst : preprocessLog env logText = .ok st) (fallback : Bool) (r r' : ModelResult)
    (h : SameButNumbers r.fields r'.fields) :
    Except.Both (fun p p' => p.1 = p'.1 ↔ NumbersAgree env st fallback r.fields r'.fields)
      (reconcileResult env st fallback r.fields) (reconcileResult env st fallback r'.fields) := by
  have hwf := preprocessLog_wellFormed hst
  obtain ⟨named, hnamed, hnamed', hiff⟩ := iterGroups_same h groupNames fun _ hn => hn
  unfold reconcileResult
  rw [hnamed, hnamed']
  cases named with
  | true =>
    have hev : ∃ f ∈ findings r.fields, NamesEvidence f := hiff.mp rfl
    refine Except.Both.bind (reconcileEntryGrouped_both hwf h) fun out out' hout => ?_
    refine .ok (hout.trans ⟨fun hentries => ⟨fun _ => hentries, fun hnot => absurd hev hnot⟩, ?_⟩)
    exact fun hagree => hagree.entries hev
  | false =>
    have hev : ¬ ∃ f ∈ findings r.fields, NamesEvidence f := by
      intro hev
      exact Bool.false_ne_true (hiff.mpr hev)
    have hboth := reconcilePatterns_both env st fallback h
    dsimp only
    generalize reconcilePatterns env st fallback r.fields = x at hboth ⊢
    generalize reconcilePatterns env st fallback r'.fields = x' at hboth ⊢
    cases hboth with
    | error e e' => exact .error _ _
    | ok hout =>
      refine .ok (hout.trans ⟨fun hstay => ⟨fun hnot => absurd hnot hev, fun _ => hstay⟩, ?_⟩)
      exact fun hagree => hagree.patterns hev

/-- A finding of the contract. -/
def sampleFind (id : String) (count : ℕ) (rest : Json.Fields) : Json :=
  .obj ([(py "id", literal id), (py "label_en", literal "x"), (py "label_zh", literal "x"),
    (py "count", .int count), (py "percentage", .null),
    (py "pattern_ids", .arr [literal "unquantified"]), (py "detail_en", literal "x"),
    (py "detail_zh", literal "x")] ++ rest)

/-- A result whose first finding names the first entry of `sampleLog`, and whose second finding
names none and has a count. -/
def sampleCounted (count : ℕ) : Json.Fields :=
  [(py "total_entries", .int 2), (py "summary_en", literal "x"), (py "summary_zh", literal "x"),
    (py "key_finds", .arr [sampleFind "f1" 1 [(py "evidence_entry_ids", .arr [.int 0])]]),
    (py "secondary_finds", .arr [sampleFind "f2" count []]),
    (py "severity_signal", literal "low"), (py "confidence", .int 1)]

lemma uniqueFinds_sampleCounted (count : ℕ) : ∀ finding ∈ findings (sampleCounted count),
    ∀ find, finding = .obj find → (Dict.keys find).Nodup := by
  intro finding hfinding find heq
  simp [findings, groupNames, sampleCounted, groupItems, Json.Fields.get, Json.Fields.getD,
    Dict.get?_cons, sampleFind] at hfinding
  rcases hfinding with rfl | rfl
  · cases heq
    decide
  · cases heq
    show (["id", "label_en", "label_zh", "count", "percentage", "pattern_ids", "detail_en",
      "detail_zh"].map py).Nodup
    decide

/-- The two results are the same but for that count. -/
lemma sampleCounted_same (count count' : ℕ) :
    SameButNumbers (sampleCounted count) (sampleCounted count') := rfl

/-- `sampleCounted` with the count 7. -/
def sampleSeven : ModelResult where
  fields := sampleCounted 7
  valid := by rfl
  unique := by decide
  uniqueFinds := uniqueFinds_sampleCounted 7

/-- `sampleCounted` with the count 8. -/
def sampleEight : ModelResult where
  fields := sampleCounted 8
  valid := by decide +kernel
  unique := by decide
  uniqueFinds := uniqueFinds_sampleCounted 8

/-- The counts of the findings of `sampleSeven`, reconciled. -/
lemma exists_sampleSeven_run : ∃ st out left, preprocessLog sampleEnv sampleLog = .ok st ∧
    reconcileResult sampleEnv st false sampleSeven.fields = .ok (out, left) ∧
    decide ((findings out).map countField = [1, 7, 1]) = true :=
  exists_run sampleEnv sampleLog false sampleSeven.fields
    (fun _ out => (findings out).map countField = [1, 7, 1]) (by decide +kernel)

/-- `reconcileResult_numbers` speaks about `sampleSeven` and `sampleEight`. -/
theorem sampleCounted_numbers : ∃ st, preprocessLog sampleEnv sampleLog = .ok st ∧
    Except.Both (fun p p' => p.1 = p'.1 ↔
        NumbersAgree sampleEnv st false sampleSeven.fields sampleEight.fields)
      (reconcileResult sampleEnv st false sampleSeven.fields)
      (reconcileResult sampleEnv st false sampleEight.fields) := by
  obtain ⟨st, -, -, hst, -, -⟩ := exists_sampleSeven_run
  exact ⟨st, hst, reconcileResult_numbers sampleEnv sampleLog st hst false sampleSeven sampleEight
    (sampleCounted_same 7 8)⟩

/-- Reconciliation leaves the count of the second finding alone. -/
theorem sampleCounted_differs : ∃ st out left out' left',
    preprocessLog sampleEnv sampleLog = .ok st ∧
      SameButNumbers sampleSeven.fields sampleEight.fields ∧
      reconcileResult sampleEnv st false sampleSeven.fields = .ok (out, left) ∧
      reconcileResult sampleEnv st false sampleEight.fields = .ok (out', left') ∧
      (findings out).map countField = [1, 7, 1] ∧ (findings out').map countField = [1, 8, 1] ∧
      out ≠ out' := by
  obtain ⟨st, out, left, hst, h, hcounts⟩ := exists_sampleSeven_run
  obtain ⟨st', out', left', hst', h', hcounts'⟩ := exists_run sampleEnv sampleLog false
    sampleEight.fields (fun _ out => (findings out).map countField = [1, 8, 1]) (by decide +kernel)
  obtain rfl : st = st' := Except.ok.inj (hst.symm.trans hst')
  have hseven : (findings out).map countField = [1, 7, 1] := by simpa using hcounts
  have height : (findings out').map countField = [1, 8, 1] := by simpa using hcounts'
  refine ⟨st, out, left, out', left', hst, sampleCounted_same 7 8, h, h', hseven, height, ?_⟩
  rintro rfl
  rw [hseven] at height
  exact absurd height (by decide)

end Numbers

end Triage

import NocReport.Triage.EntryPartition

set_option relaxedAutoImplicit false
set_option autoImplicit false

/-!
# What findings claim

The first loop of the reconciliation by patterns: every quantified finding claims known patterns,
and no pattern is claimed twice.

## Main definitions

* `Triage.patternIds` — the patterns of a manifest.
* `Triage.claimedIds` — the patterns some findings claim.

## Main results

* `Triage.countOf_patternIds` — the counts of all patterns add up to the entries.
* `Triage.normalizeIds_spec`, `Triage.useIds_spec` — what the two checks of a finding guarantee.
* `Triage.assignGroup_spec` — what the first loop leaves.
-/

namespace Dict

variable {κ α β : Type} [DecidableEq κ]

/-- What a lookup finds was assigned. -/
lemma mem_of_get?_ofList {items : List (κ × α)} {k : κ} {v : α}
    (h : get? (ofList items) k = some v) : (k, v) ∈ items := by
  induction items using List.reverseRecOn with
  | nil => cases h
  | append_singleton items p ih =>
    rw [ofList, List.foldl_append, List.foldl_cons, List.foldl_nil, get?_set] at h
    split at h
    · next hk =>
      cases h
      exact List.mem_append_right _ (by rw [hk]; exact List.mem_singleton_self p)
    · exact List.mem_append_left _ (ih h)

/-- What was assigned to is found. -/
lemma get?_ofList_ne_none {items : List (κ × α)} {p : κ × α} (h : p ∈ items) :
    get? (ofList items) p.1 ≠ none := by
  induction items using List.reverseRecOn with
  | nil => cases h
  | append_singleton items q ih =>
    rw [ofList, List.foldl_append, List.foldl_cons, List.foldl_nil, get?_set]
    split
    · simp
    · next hk =>
      refine ih ?_
      rcases List.mem_append.mp h with h | h
      · exact h
      · exact absurd (by rw [List.mem_singleton.mp h]) hk

end Dict

namespace Triage

/-! ## The manifest -/

section Manifest

variable {st : Statistics}

/-- The patterns of a manifest. -/
def patternIds (st : Statistics) : List PyStr := st.patternManifest.map (·.id)

lemma patternById_eq (hst : st.WellFormed) :
    patternById st = st.patternManifest.map fun p => (p.id, p) := by
  refine Dict.ofList_of_nodup ?_
  rw [List.map_map]
  exact hst.patternIds

lemma keys_patternById (hst : st.WellFormed) : Dict.keys (patternById st) = patternIds st := by
  rw [patternById_eq hst, Dict.keys, List.map_map]
  rfl

lemma contains_patternById (hst : st.WellFormed) {id : PyStr} :
    Dict.contains (patternById st) id = true ↔ id ∈ patternIds st := by
  rw [Dict.contains_iff, keys_patternById hst]

lemma unquantified_not_mem (hst : st.WellFormed) : py "unquantified" ∉ patternIds st := by
  intro h
  obtain ⟨p, hp, hid⟩ := List.mem_map.mp h
  exact hst.patternNamed p hp hid

/-- Looking up a pattern of the manifest finds it. -/
lemma get?_patternById (hst : st.WellFormed) {p : Pattern} (hp : p ∈ st.patternManifest) :
    Dict.get? (patternById st) p.id = some p := by
  have hmem : p.id ∈ Dict.keys (patternById st) := by
    rw [keys_patternById hst]
    exact List.mem_map_of_mem hp
  cases hget : Dict.get? (patternById st) p.id with
  | none => exact absurd hmem ((Dict.get?_eq_none_iff _ _).mp hget)
  | some q =>
    have hq := Dict.mem_of_get?_eq_some hget
    rw [patternById_eq hst] at hq
    obtain ⟨q', hq', heq⟩ := List.mem_map.mp hq
    obtain ⟨hid, rfl⟩ := Prod.mk.inj heq
    rw [List.inj_on_of_nodup_map hst.patternIds hq' hp hid]

lemma patternCount_id (hst : st.WellFormed) {p : Pattern} (hp : p ∈ st.patternManifest) :
    patternCount st p.id = p.count := by
  rw [patternCount, get?_patternById hst hp]
  rfl

/-- The family of a pattern that is not `other`. -/
lemma get?_familyByPattern (hst : st.WellFormed) {id family : PyStr} :
    Dict.get? (familyByPattern st) id = some family ↔
      ∃ p ∈ namedPatterns st, p.id = id ∧ p.family = family := by
  have hget := Dict.get?_filter (patternById st) (fun id => id ≠ py "other") id
  rw [familyByPattern, Dict.get?_map, hget]
  simp only [namedPatterns, List.mem_filter, decide_eq_true_eq]
  constructor
  · intro h
    split at h
    · next hne =>
      obtain ⟨p, hp, hfamily⟩ := Option.map_eq_some_iff.mp h
      have hmem := Dict.mem_of_get?_eq_some hp
      rw [patternById_eq hst] at hmem
      obtain ⟨q, hq, heq⟩ := List.mem_map.mp hmem
      cases heq
      exact ⟨p, ⟨hq, hne⟩, rfl, hfamily⟩
    · cases h
  · rintro ⟨p, ⟨hp, hne⟩, rfl, rfl⟩
    rw [if_pos hne, get?_patternById hst hp]
    rfl

/-- The counts of all patterns add up to the entries. -/
lemma countOf_patternIds (hst : st.WellFormed) : countOf st (patternIds st) = st.totalEntries := by
  rw [countOf, patternIds, List.map_map, ← hst.total]
  congr 1
  exact List.map_congr_left fun p hp => patternCount_id hst hp

lemma countOf_append (ids ids' : List PyStr) :
    countOf st (ids ++ ids') = countOf st ids + countOf st ids' := by
  simp [countOf]

lemma countOf_flatMap {α : Type} (xs : List α) (f : α → List PyStr) :
    countOf st (xs.flatMap f) = (xs.map fun x => countOf st (f x)).sum := by
  induction xs with
  | nil => rfl
  | cons x xs ih => rw [List.flatMap_cons, countOf_append, ih, List.map_cons, List.sum_cons]

lemma countOf_perm {ids ids' : List PyStr} (h : ids.Perm ids') : countOf st ids = countOf st ids' :=
  (h.map _).sum_eq

end Manifest

/-! ## Pattern ids of findings -/

lemma textsOf_map_str (ids : List PyStr) : textsOf (ids.map Json.str) = ids := by
  induction ids with
  | nil => rfl
  | cons id ids ih => simp [textsOf]

/-- The ids a finding goes through depend on its `pattern_ids` only. -/
lemma idsOf_congr {f f' : Json.Fields}
    (h : Json.Fields.get f' (py "pattern_ids") = Json.Fields.get f (py "pattern_ids")) :
    idsOf f' = idsOf f := by
  rw [idsOf, idsOf, h]

@[simp] lemma idsOf_set_pattern_ids (f : Json.Fields) (ids : List PyStr) :
    idsOf (Dict.set f (py "pattern_ids") (texts ids)) = ids := by
  simp only [idsOf, get_set, if_pos, texts]
  exact textsOf_map_str ids

@[simp] lemma get_setCount_pattern_ids (st : Statistics) (f : Json.Fields) (n : ℕ) :
    Json.Fields.get (setCount st f n) (py "pattern_ids") =
      Json.Fields.get f (py "pattern_ids") := by
  simp [setCount]

@[simp] lemma get_clearCount_pattern_ids (f : Json.Fields) :
    Json.Fields.get (clearCount f) (py "pattern_ids") = Json.Fields.get f (py "pattern_ids") := by
  simp [clearCount]

/-- A finding without a count stays as it is. -/
lemma clearCount_clearCount (f : Json.Fields) : clearCount (clearCount f) = clearCount f := by
  have hcount : Dict.get? (clearCount f) (py "count") = some .null := by
    rw [clearCount, Dict.get?_set_of_ne _ _ (by decide), Dict.get?_set_self]
  have hpercentage : Dict.get? (clearCount f) (py "percentage") = some .null :=
    Dict.get?_set_self _ _ _
  rw [show clearCount (clearCount f) = Dict.set (Dict.set (clearCount f) (py "count") .null)
    (py "percentage") .null from rfl, Dict.set_eq_self hcount, Dict.set_eq_self hpercentage]

/-- A finding with a count stays as it is. -/
lemma setCount_setCount (st : Statistics) (f : Json.Fields) (n : ℕ) :
    setCount st (setCount st f n) n = setCount st f n := by
  have hcount : Dict.get? (setCount st f n) (py "count") = some (.int n) := by
    rw [setCount, Dict.get?_set_of_ne _ _ (by decide), Dict.get?_set_self]
  have hpercentage : Dict.get? (setCount st f n) (py "percentage") =
      some (percentage n st.totalEntries) := Dict.get?_set_self _ _ _
  rw [show setCount st (setCount st f n) n =
    Dict.set (Dict.set (setCount st f n) (py "count") (.int n)) (py "percentage")
      (percentage n st.totalEntries) from rfl, Dict.set_eq_self hcount,
    Dict.set_eq_self hpercentage]

@[simp] lemma idsOf_setCount (st : Statistics) (f : Json.Fields) (n : ℕ) :
    idsOf (setCount st f n) = idsOf f :=
  idsOf_congr (by simp)

/-- The marker of unquantified findings is no list of patterns. -/
lemma isUnquantified_texts {ids : List PyStr} (h : py "unquantified" ∉ ids) :
    isUnquantified (texts ids) = false := by
  cases ids with
  | nil => rfl
  | cons id ids =>
    cases ids with
    | nil =>
      have hne : id ≠ py "unquantified" := fun he => h (he ▸ List.mem_cons_self)
      simpa [isUnquantified, texts] using hne
    | cons => rfl

/-! ## The first loop -/

section Assign

variable {env : Env} {st : Statistics} {fallback : Bool}

/-- A value that can be iterated, or nothing, and the ids it goes through. -/
lemma idsOf_eq_textsOf {f : Json.Fields} {items : List Json}
    (h : ((Json.Fields.get f (py "pattern_ids")).or (.arr [])).iter = .ok items) :
    idsOf f = textsOf items := by
  unfold idsOf
  generalize Json.Fields.get f (py "pattern_ids") = v at h ⊢
  by_cases ht : v.truthy = true
  · rw [Json.or, if_pos ht] at h
    cases v with
    | arr xs =>
      cases h
      rfl
    | obj fields =>
      cases h
      have htexts := textsOf_map_str (Dict.keys fields)
      rw [Dict.keys, List.map_map] at htexts
      exact htexts.symm
    | str s =>
      cases h
      have htexts := textsOf_map_str (s.map fun c => [c])
      rw [List.map_map] at htexts
      exact htexts.symm
    | null | bool | int | float => cases h
  · rw [Json.or, if_neg ht] at h
    cases h
    cases v with
    | arr xs =>
      have hnil : xs = [] := by simpa [Json.truthy] using ht
      rw [hnil]
    | obj fields =>
      have hnil : fields = [] := by simpa [Json.truthy] using ht
      rw [hnil]
      rfl
    | str s =>
      have hnil : s = [] := by simpa [Json.truthy] using ht
      rw [hnil]
      rfl
    | null | bool | int | float => rfl

lemma isKnown_eq_ok_true (hst : st.WellFormed) {v : Json} (h : isKnown st v = .ok true) :
    ∃ id ∈ patternIds st, v = .str id := by
  cases v with
  | str s =>
    rw [isKnown, Except.pure_eq_ok] at h
    exact ⟨s, (contains_patternById hst).mp h, rfl⟩
  | null | bool | int | float | arr | obj => cases h

lemma isUnknown_eq_ok_false (hst : st.WellFormed) {v : Json} (h : isUnknown st v = .ok false) :
    ∃ id, v = .str id ∧ (id = py "unquantified" ∨ id ∈ patternIds st) := by
  unfold isUnknown at h
  split at h
  · next ht =>
    cases v with
    | str s => exact ⟨s, rfl, .inl (by simpa [Json.isText] using ht)⟩
    | null | bool | int | float | arr | obj => cases ht
  · obtain ⟨b, hb, h⟩ := Except.bind_eq_ok.mp h
    rw [Except.pure_eq_ok] at h
    have htrue : b = true := by simpa using h
    obtain ⟨id, hid, rfl⟩ := isKnown_eq_ok_true hst (htrue ▸ hb)
    exact ⟨id, rfl, .inr hid⟩

/-- Values without a text among them that is not wanted have no such text. -/
lemma mem_textsOf {items : List Json} {id : PyStr} : id ∈ textsOf items ↔ .str id ∈ items := by
  simp only [textsOf, List.mem_filterMap]
  constructor
  · rintro ⟨v, hv, h⟩
    split at h
    · cases h
      exact hv
    · cases h
  · exact fun h => ⟨_, h, rfl⟩

/-- The ids of a finding after normalization are known, or the marker. -/
lemma normalizeIds_spec (hst : st.WellFormed) {f f' : Json.Fields} {ids : List PyStr}
    (h : normalizeIds env st fallback f = .ok (f', ids)) :
    idsOf f' = ids ∧ ∀ id ∈ ids, id = py "unquantified" ∨ id ∈ patternIds st := by
  obtain ⟨items, hitems, h⟩ := Except.bind_eq_ok.mp h
  obtain ⟨unknown, hunknown, h⟩ := Except.bind_eq_ok.mp h
  split at h
  · rw [Except.pure_eq_ok] at h
    cases h
    refine ⟨idsOf_eq_textsOf hitems, fun id hid => ?_⟩
    have hmem := mem_textsOf.mp hid
    have hfalse : isUnknown st (.str id) = .ok false := by
      simpa using (Except.filterM_eq_ok hunknown).2 _ hmem
    obtain ⟨id', heq, hid'⟩ := isUnknown_eq_ok_false hst hfalse
    cases heq
    exact hid'
  · split at h
    · obtain ⟨known, hknown, h⟩ := Except.bind_eq_ok.mp h
      split at h
      · rw [Except.pure_eq_ok] at h
        cases h
        refine ⟨?_, by simp⟩
        rw [idsOf_congr (get_clearCount_pattern_ids _)]
        exact idsOf_set_pattern_ids f [py "unquantified"]
      · rw [Except.pure_eq_ok] at h
        cases h
        refine ⟨idsOf_set_pattern_ids _ _, fun id hid => .inr ?_⟩
        have hmem := mem_textsOf.mp (List.mem_eraseDups.mp hid)
        obtain ⟨id', hid', heq⟩ :=
          isKnown_eq_ok_true hst ((Except.filterM_eq_ok hknown).1 _ hmem).2
        cases heq
        exact hid'
    · exact absurd h Except.throw_ne_ok

/-- Ids that are used are used once. -/
lemma useIds_spec {used used' ids : List PyStr} (hids : py "unquantified" ∉ ids)
    (hused : used.Nodup) (h : useIds used ids = .ok used') :
    used' = used ++ ids ∧ used'.Nodup := by
  induction ids generalizing used with
  | nil =>
    rw [useIds, Except.pure_eq_ok] at h
    subst h
    exact ⟨(List.append_nil _).symm, hused⟩
  | cons id ids ih =>
    simp only [List.mem_cons, not_or] at hids
    rw [useIds, if_neg (Ne.symm hids.1)] at h
    split at h
    · exact absurd h Except.throw_ne_ok
    · next hfree =>
      have hnodup : (used ++ [id]).Nodup := by
        refine List.nodup_append.mpr ⟨hused, List.nodup_singleton id, ?_⟩
        rintro a ha b hb rfl
        rw [List.mem_singleton] at hb
        exact hfree (by simpa [hb] using ha)
      obtain ⟨rfl, hall⟩ := ih hids.2 hnodup h
      exact ⟨by rw [List.append_assoc]; rfl, hall⟩

/-- The ids a finding goes through. -/
def patternIdsOf (finding : Json) : List PyStr :=
  match finding with
  | .obj fields => idsOf fields
  | _ => []

/-- The ids of the quantified findings among some. -/
def claimedIds (found : List Json) : List PyStr :=
  (found.filter isQuantified).flatMap patternIdsOf

lemma claimedIds_quantified {fields : Json.Fields}
    (h : isUnquantified (Json.Fields.get fields (py "pattern_ids")) = false) :
    claimedIds [.obj fields] = idsOf fields := by
  simp [claimedIds, isQuantified, h, patternIdsOf]

lemma claimedIds_unquantified {fields : Json.Fields}
    (h : isUnquantified (Json.Fields.get fields (py "pattern_ids")) = true) :
    claimedIds [.obj fields] = [] := by
  simp [claimedIds, isQuantified, h]

lemma claimedIds_append (found found' : List Json) :
    claimedIds (found ++ found') = claimedIds found ++ claimedIds found' := by
  simp [claimedIds]

/-- The finding has a count only if it is quantified. -/
def Cleared (finding : Json) : Prop :=
  ∃ fields, finding = .obj fields ∧
    (isUnquantified (Json.Fields.get fields (py "pattern_ids")) = true → clearCount fields = fields)

/-- One turn of the first loop: a quantified finding uses known ids nobody has used before. -/
lemma assignFinding_spec (hst : st.WellFormed) {s s' : Assigned} {finding finding' : Json}
    {kept : Bool} (hused : s.used.Nodup)
    (h : assignFinding env st fallback s finding = .ok (finding', kept, s')) :
    (kept = true → Cleared finding') ∧ s'.used.Nodup ∧
      s'.used = s.used ++ (if kept then claimedIds [finding'] else []) ∧
      ∀ id ∈ claimedIds [finding'], kept = true → id ∈ patternIds st := by
  unfold assignFinding at h
  split at h
  · next fields =>
    split at h
    · cases h
    · next fields' ids hnormal =>
      obtain ⟨hids, hknown⟩ := normalizeIds_spec hst hnormal
      split at h
      · next hmarker =>
        split at h
        · cases h
          exact ⟨by simp, hused, (List.append_nil _).symm, by simp⟩
        · cases h
          have hnone : claimedIds [.obj (clearCount fields')] = [] :=
            claimedIds_unquantified (by simpa using hmarker)
          refine ⟨fun _ => ⟨_, rfl, fun _ => clearCount_clearCount fields'⟩, hused, ?_, ?_⟩
          · rw [hnone]
            exact (List.append_nil _).symm
          · simp [hnone]
      · next hquantified =>
        split at h
        · cases h
        · next used huse =>
          split at h
          · next hall =>
            cases h
            have hmem : ∀ id ∈ ids, id ∈ patternIds st := fun id hid =>
              (contains_patternById hst).mp (List.all_eq_true.mp hall id hid)
            have hfree : py "unquantified" ∉ ids := fun hid =>
              unquantified_not_mem hst (hmem _ hid)
            obtain ⟨rfl, hnodup⟩ := useIds_spec hfree hused huse
            have hclaimed : claimedIds [.obj (setCount st fields' (countOf st ids))] = ids := by
              rw [claimedIds_quantified (by simpa using hquantified), idsOf_setCount, hids]
            refine ⟨fun _ => ⟨_, rfl, fun hmarker => ?_⟩, hnodup, ?_, ?_⟩
            · rw [get_setCount_pattern_ids] at hmarker
              exact absurd hmarker hquantified
            · rw [hclaimed]
              rfl
            · rw [hclaimed]
              exact fun id hid _ => hmem id hid
          · cases h
  · cases h

/-- The first loop over one list: the quantified findings that are kept use known ids, each id
once. -/
lemma assignFindings_spec (hst : st.WellFormed) {s s' : Assigned} {found found' : List Json}
    (hused : s.used.Nodup) (h : assignFindings env st fallback s found = .ok (found', s')) :
    (∀ f ∈ found', Cleared f) ∧ s'.used.Nodup ∧
      s'.used = s.used ++ claimedIds found' ∧ ∀ id ∈ claimedIds found', id ∈ patternIds st := by
  induction found generalizing s found' with
  | nil =>
    simp only [assignFindings, Except.ok.injEq, Prod.mk.injEq] at h
    obtain ⟨rfl, rfl⟩ := h
    exact ⟨by simp, hused, by simp [claimedIds], by simp [claimedIds]⟩
  | cons finding rest ih =>
    rw [assignFindings] at h
    split at h
    · cases h
    · next finding' kept s₁ hfinding =>
      split at h
      · cases h
      · next rest' s₂ hrest =>
        cases h
        obtain ⟨hobj, hused₁, heq₁, hmem₁⟩ := assignFinding_spec hst hused hfinding
        obtain ⟨hobjs, hused₂, heq₂, hmem₂⟩ := ih hused₁ hrest
        cases kept with
        | true =>
          have hsplit : claimedIds (finding' :: rest') =
              claimedIds [finding'] ++ claimedIds rest' := claimedIds_append [finding'] rest'
          refine ⟨?_, hused₂, ?_, ?_⟩
          · intro f hf
            rcases List.mem_cons.mp hf with rfl | hf
            · exact hobj rfl
            · exact hobjs f hf
          · rw [heq₂, heq₁, if_pos rfl, if_pos rfl, hsplit, List.append_assoc]
          · intro id hid
            rw [if_pos rfl, hsplit] at hid
            rcases List.mem_append.mp hid with hid | hid
            · exact hmem₁ id hid rfl
            · exact hmem₂ id hid
        | false =>
          refine ⟨hobjs, hused₂, ?_, hmem₂⟩
          rw [heq₂, heq₁]
          simp

/-- The first loop over one group, which leaves the other group alone. -/
lemma assignGroup_spec (hst : st.WellFormed) {s s' : Assigned} {result result' : Json.Fields}
    {name : PyStr} (hused : s.used.Nodup)
    (h : assignGroup env st fallback result s name = .ok (result', s')) :
    (∃ items, Json.Fields.get result' name = .arr items) ∧
      (∀ f ∈ groupItems result' name, Cleared f) ∧ s'.used.Nodup ∧
      s'.used = s.used ++ claimedIds (groupItems result' name) ∧
      (∀ id ∈ claimedIds (groupItems result' name), id ∈ patternIds st) ∧
      ∀ other, other ≠ name → Json.Fields.get result' other = Json.Fields.get result other := by
  unfold assignGroup at h
  split at h
  · next items hitems =>
    split at h
    · cases h
    · next items' s₁ hfound =>
      cases h
      obtain ⟨hobjs, hnodup, heq, hmem⟩ := assignFindings_spec hst hused hfound
      rw [groupItems_set_self]
      exact ⟨⟨items', by simp⟩, hobjs, hnodup, heq, hmem, fun other hother => by simp [hother]⟩
  · split at h
    · cases h
    · cases h
      rw [groupItems_set_self]
      exact ⟨⟨[], by simp⟩, by simp, hused, by simp [claimedIds], by simp [claimedIds],
        fun other hother => by simp [hother]⟩
    · cases h

end Assign

end Triage

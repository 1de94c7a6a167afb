import NocReport.Triage.Announcements
import NocReport.Triage.DuplicateChains
import NocReport.Triage.HiddenNumbers
import NocReport.Triage.JsonLogs

set_option relaxedAutoImplicit false
set_option autoImplicit false

/-!
# Completed results

The last steps of `reconcile_result` (`sandbox/preprocessing.py`) complete the findings: the unused
patterns of a family go to the finding that has others of the family, and a family nobody has gets
a finding of its own, at the end. All findings together are checked afterwards. What a completed
result is rejected for can be such a finding: its sentence may end with an incomplete phrase, and
its id and its texts may meet those of others.

## Main definitions

* `Triage.uncompleted`, `Triage.completed` — the findings before and after these steps.
* `Triage.leftOut` — the families nobody has.
* `Triage.Blameless` — the appended findings are not why a result is rejected.
* `Triage.Unobtrusive` — their ids and texts meet no others.

## Main results

* `Triage.appendOmitted_completes` — what the steps do.
* `Triage.completed_blameless_iff` — when the appended findings are not why a result is rejected.
-/

namespace Triage

variable {env : Env} {st : Statistics}

/-! ## The steps -/

section Steps

/-- The findings before they are completed. -/
def uncompleted (env : Env) (st : Statistics) (fallback : Bool) (w : Work) : Work :=
  let w := mergeFamilies env st w
  let w := if fallback then mergeDuplicates env w else w
  let w := recount st w
  if fallback then repairUnquantified env st w else w

/-- The findings when they have been completed. -/
def completed (env : Env) (st : Statistics) (fallback : Bool) (w : Work) : Work :=
  let w := appendOmitted env st w
  let w := if fallback then promote st w else w
  { w with doc := { w.doc with
    fields := Dict.set w.doc.fields (py "total_entries") (.int st.totalEntries) } }

lemma finishPatterns_completed (fallback : Bool) (w : Work) :
    finishPatterns env st fallback w =
      completed env st fallback (uncompleted env st fallback w) := rfl

/-- The findings are counted before they are completed. -/
lemma uncompleted_counted (env : Env) (hst : st.WellFormed) (fallback : Bool) {w : Work}
    (hw : Sound (· = ·) st w) : Counted st (uncompleted env st fallback w) := by
  have hmerged : Sound (Clash st) st (mergeFamilies env st w) := mergeFamilies_sound hst hw
  cases fallback with
  | true => exact repairUnquantified_counted hst (recount_counted (mergeDuplicates_sound hst hmerged))
  | false => exact recount_counted hmerged

/-- The families with unused patterns that no finding has. -/
def leftOut (st : Statistics) (w : Work) : List (PyStr × List Pattern) :=
  (omittedByFamily st (usedIds w)).filter fun group =>
    (Dict.get? (existingByFamily st w) group.1).isNone

/-- The fields of a finding that completion sets. -/
def completedKeys : List PyStr := ["pattern_ids", "count", "percentage"].map py

/-- What completion does for some families nobody has, where `n` is the first new finding. -/
structure Completes (env : Env) (st : Statistics) (n : Ref) (groups : List (PyStr × List Pattern))
    (w w' : Work) : Prop where
  keyFinds : w'.doc.keyFinds = w.doc.keyFinds
  secondaryFinds : w'.doc.secondaryFinds =
    w.doc.secondaryFinds ++ List.range' w.next groups.length
  fields : w'.doc.fields = w.doc.fields
  next : w'.next = w.next + groups.length
  announced : (List.range' w.next groups.length).map w'.heap = groups.map (announcement env st)
  /-- the findings there were keep their texts -/
  keeps : ∀ r < n, ∀ key ∉ completedKeys, Dict.get? (w'.heap r) key = Dict.get? (w.heap r) key
  same : ∀ r, n ≤ r → r < w.next → w'.heap r = w.heap r

lemma Completes.refl (env : Env) (st : Statistics) (n : Ref) (w : Work) :
    Completes env st n [] w w where
  keyFinds := rfl
  secondaryFinds := (List.append_nil _).symm
  fields := rfl
  next := rfl
  announced := rfl
  keeps := fun _ _ _ _ => rfl
  same := fun _ _ _ => rfl

lemma Completes.trans {n : Ref} {groups groups' : List (PyStr × List Pattern)} {w w' w'' : Work}
    (hn : n ≤ w.next) (h : Completes env st n groups w w') (h' : Completes env st n groups' w' w'') :
    Completes env st n (groups ++ groups') w w'' where
  keyFinds := h'.keyFinds.trans h.keyFinds
  secondaryFinds := by
    rw [h'.secondaryFinds, h.secondaryFinds, h.next, List.append_assoc, List.length_append,
      List.range'_append_1]
  fields := h'.fields.trans h.fields
  next := by rw [h'.next, h.next, List.length_append, Nat.add_assoc]
  announced := by
    have hold : (List.range' w.next groups.length).map w''.heap =
        (List.range' w.next groups.length).map w'.heap := by
      refine List.map_congr_left fun r hr => ?_
      obtain ⟨hle, hlt⟩ := List.mem_range'_1.mp hr
      exact h'.same r (hn.trans hle) (h.next ▸ hlt)
    rw [List.length_append, ← List.range'_append_1, List.map_append, List.map_append, hold,
      h.announced, ← h.next, h'.announced]
  keeps r hr key hkey := (h'.keeps r hr key hkey).trans (h.keeps r hr key hkey)
  same r hle hlt := by
    have hlt' : r < w'.next := h.next ▸ Nat.lt_add_right _ hlt
    exact (h'.same r hle hlt').trans (h.same r hle hlt)

/-- A finding with other patterns keeps its texts. -/
lemma get?_heap_claim (w : Work) (r x : Ref) (ids : List PyStr) {key : PyStr}
    (hkey : key ∉ completedKeys) :
    Dict.get? ((claim st w r ids).heap x) key = Dict.get? (w.heap x) key := by
  by_cases hx : x = r
  · subst hx
    simp only [completedKeys, List.map_cons, List.map_nil, List.mem_cons, List.not_mem_nil, or_false,
      not_or] at hkey
    rw [heap_claim, setCount, Dict.get?_set_of_ne _ _ hkey.2.2, Dict.get?_set_of_ne _ _ hkey.2.1,
      Dict.get?_set_of_ne _ _ hkey.1]
  · rw [heap_claim_of_ne st w ids hx]

/-- The turn of one family. -/
lemma appendFamily_completes {n : Ref} {existing : Dict PyStr Ref} {w : Work}
    {group : PyStr × List Pattern} (hn : n ≤ w.next) (hne : group.2 ≠ [])
    (howner : ∀ r, Dict.get? existing group.1 = some r → r < n) :
    Completes env st n ([group].filter fun g => (Dict.get? existing g.1).isNone) w
      (appendFamily env st existing w group) := by
  obtain ⟨family, items⟩ := group
  obtain ⟨item, rest, rfl⟩ := List.exists_cons_of_ne_nil hne
  dsimp only at howner
  unfold appendFamily
  dsimp only
  cases hexisting : Dict.get? existing family with
  | some owner =>
    have hnone : ([(family, item :: rest)].filter fun g => (Dict.get? existing g.1).isNone) = [] := by
      simp [hexisting]
    rw [hnone]
    refine { Completes.refl env st n w with
      keeps := fun r _ key hkey => get?_heap_claim w owner r _ hkey
      same := fun r hle _ => heap_claim_of_ne st w _ ?_ }
    exact (Nat.lt_of_lt_of_le (howner owner hexisting) hle).ne'
  | none =>
    have hsome : ([(family, item :: rest)].filter fun g => (Dict.get? existing g.1).isNone) =
        [(family, item :: rest)] := by
      simp [hexisting]
    rw [hsome]
    constructor
    · rfl
    · rfl
    · rfl
    · rfl
    · simp only [List.length_singleton, List.range'_one, List.map_singleton, Work.heap_write,
        if_true]
      rfl
    · intro r hr key _
      rw [Work.heap_write, if_neg (Nat.lt_of_lt_of_le hr hn).ne]
    · intro r _ hlt
      rw [Work.heap_write, if_neg hlt.ne]

/-- The turns of some families. -/
lemma foldl_appendFamily_completes {n : Ref} {existing : Dict PyStr Ref}
    {groups : List (PyStr × List Pattern)} {w : Work} (hn : n ≤ w.next)
    (hne : ∀ group ∈ groups, group.2 ≠ [])
    (howner : ∀ family r, Dict.get? existing family = some r → r < n) :
    Completes env st n (groups.filter fun g => (Dict.get? existing g.1).isNone) w
      (groups.foldl (appendFamily env st existing) w) := by
  induction groups generalizing w with
  | nil => exact .refl env st n w
  | cons group groups ih =>
    obtain ⟨hgroup, hne⟩ := List.forall_mem_cons.mp hne
    have hturn : Completes env st n ([group].filter fun g => (Dict.get? existing g.1).isNone) w
        (appendFamily env st existing w group) :=
      appendFamily_completes hn hgroup (howner group.1)
    have hn' : n ≤ (appendFamily env st existing w group).next := by
      rw [hturn.next]
      exact Nat.le_add_right_of_le hn
    have hsplit : ((group :: groups).filter fun g => (Dict.get? existing g.1).isNone) =
        ([group].filter fun g => (Dict.get? existing g.1).isNone) ++
          groups.filter fun g => (Dict.get? existing g.1).isNone :=
      List.filter_append [group] groups
    rw [hsplit, List.foldl_cons]
    exact hturn.trans hn (ih hn' hne)

/-- Every recorded owner of a family is one of the findings. -/
lemma mem_refs_of_existing {w : Work} {family : PyStr} {r : Ref}
    (h : Dict.get? (existingByFamily st w) family = some r) : r ∈ w.doc.refs := by
  obtain ⟨x, hx, hmem⟩ := List.mem_flatMap.mp (Dict.mem_of_get?_ofList h)
  obtain ⟨id, -, hfound⟩ := List.mem_filterMap.mp hmem
  split at hfound
  · cases hfound
    exact hx
  · cases hfound

/-- **What the appending does**: the families nobody has are announced at the end, and the findings
there were keep their texts. -/
theorem appendOmitted_completes {w : Work} (hlt : ∀ r ∈ w.doc.refs, r < w.next) :
    Completes env st w.next (leftOut st w) w (appendOmitted env st w) := by
  refine foldl_appendFamily_completes le_rfl (fun group hgroup => ?_) fun family r hr =>
    hlt r (mem_refs_of_existing hr)
  exact Dict.ne_nil_of_mem_foldl_push Pattern.family id _ (by simp) group hgroup

end Steps

/-! ## Announcements -/

section Announced

variable {w : Work} {group : PyStr × List Pattern}

/-- A family nobody has, with its patterns. -/
structure LeftOut (st : Statistics) (w : Work) (group : PyStr × List Pattern) : Prop
    extends Pending st (existingByFamily st w) w group where
  nonempty : group.2 ≠ []
  unrecorded : Dict.get? (existingByFamily st w) group.1 = none

lemma leftOut_spec (hst : st.WellFormed) (w : Work) :
    ((leftOut st w).map (·.1)).Nodup ∧ ∀ group ∈ leftOut st w, LeftOut st w group := by
  obtain ⟨hkeys, hpending, -⟩ := omittedByFamily_spec hst w
  refine ⟨hkeys.sublist ((List.filter_sublist (p := _)).map _), fun group hgroup => ?_⟩
  obtain ⟨hgroup, hnone⟩ := List.mem_filter.mp hgroup
  exact { hpending group hgroup with
    nonempty := Dict.ne_nil_of_mem_foldl_push Pattern.family id _ (by simp) group hgroup
    unrecorded := Option.isNone_iff_eq_none.mp hnone }

/-- The label that announces a family. -/
def announcedLabel (st : Statistics) (group : PyStr × List Pattern) : PyStr :=
  (group.2.head?.map (familyLabel st group.1)).getD []

/-- What the checks read off the finding of a family. -/
lemma announced_announcement (env : Env) (st : Statistics) (hne : group.2 ≠ []) :
    Announced st (announcement env st group) (py "unlabeled-" ++ group.1) (announcedLabel st group)
      (group.2.map (·.id)) (group.2.map (·.count)).sum
      (observedEn ++ descriptor env (announcedLabel st group) ++ py ".")
      (observedZh ++ descriptor env (announcedLabel st group) ++ py "。") := by
  obtain ⟨family, items⟩ := group
  obtain ⟨item, rest, rfl⟩ := List.exists_cons_of_ne_nil hne
  exact announced_familyFinding st "unlabeled-" family item _ _ _ _

/-- The label of a family with patterns is one of theirs. -/
lemma notBlank_announcedLabel (hlabelled : st.Labelled) (h : LeftOut st w group) :
    notBlank (announcedLabel st group) = true := by
  obtain ⟨family, items⟩ := group
  obtain ⟨item, rest, rfl⟩ := List.exists_cons_of_ne_nil h.nonempty
  obtain ⟨hnamed, hfamily⟩ := h.named item List.mem_cons_self
  have hrecorded : (family, item.label) ∈ (namedPatterns st).map fun p => (p.family, p.label) :=
    List.mem_map.mpr ⟨item, hnamed, by rw [hfamily]⟩
  show notBlank ((Dict.get? (familyLabels st) family).getD item.template) = true
  cases hlabel : Dict.get? (familyLabels st) family with
  | none => exact absurd hlabel (Dict.get?_ofList_ne_none hrecorded)
  | some label =>
    obtain ⟨p, hp, heq⟩ := List.mem_map.mp (Dict.mem_of_get?_ofList hlabel)
    cases heq
    exact hlabelled.labels p (List.mem_filter.mp hp).1

/-- **The finding of a family nobody has is accepted alone.** -/
lemma LeftOut.acceptedAlone (env : Env) (hst : st.WellFormed) (hlabelled : st.Labelled)
    (h : LeftOut st w group) :
    acceptedAlone env st.totalEntries (.obj (announcement env st group)) =
      .ok ⟨group.2.map (·.id), [py "unlabeled-" ++ group.1]⟩ := by
  have hmem : ∀ p ∈ group.2, p ∈ st.patternManifest := fun p hp =>
    (List.mem_filter.mp (h.named p hp).1).1
  have hids : ∀ id ∈ group.2.map (·.id), id ∈ patternIds st := fun id hid => by
    obtain ⟨p, hp, rfl⟩ := List.mem_map.mp hid
    exact List.mem_map_of_mem (hmem p hp)
  have hsum : (group.2.map (·.count)).sum = countOf st (group.2.map (·.id)) := by
    rw [countOf, List.map_map]
    exact congrArg List.sum (List.map_congr_left fun p hp => (patternCount_id hst (hmem p hp)).symm)
  have hcount : (group.2.map (·.count)).sum ≤ st.totalEntries := by
    obtain ⟨own, hown, hsub⟩ := h.nodup.subperm hids
    obtain ⟨rest, hrest⟩ := hsub.exists_perm_append
    rw [hsum, ← countOf_patternIds hst, countOf_perm hrest, countOf_append, countOf_perm hown]
    exact Nat.le_add_right _ _
  have hwords : ∀ words ∈ [(py "unlabeled-", 117), (observedEn, 79), (observedZh, 0x76F8)],
      words.1.head? = some words.2 ∧ PyStr.isSpace words.2 = false := by decide
  have hstarts : ∀ words ∈ [(py "unlabeled-", 117), (observedEn, 79), (observedZh, 0x76F8)],
      ∀ more, notBlank (words.1 ++ more) = true := by
    intro words hmem more
    obtain ⟨hhead, hspace⟩ := hwords words hmem
    obtain ⟨rest, hrest⟩ := List.head?_eq_some_iff.mp hhead
    rw [hrest]
    exact notBlank_cons hspace
  refine (announced_announcement env st h.nonempty).acceptedAlone ?_
    (notBlank_announcedLabel hlabelled h) ?_ ?_ (by simpa using h.nonempty) (fun id hid => ?_)
    h.nodup (fun hid => unquantified_not_mem hst (hids _ hid)) hcount
  · exact hstarts (py "unlabeled-", 117) (by simp) group.1
  · rw [List.append_assoc]
    exact hstarts (observedEn, 79) (by simp) _
  · rw [List.append_assoc]
    exact hstarts (observedZh, 0x76F8) (by simp) _
  · obtain ⟨p, hp, rfl⟩ := List.mem_map.mp hid
    exact hlabelled.ids p (hmem p hp)

end Announced

/-! ## Results with more findings -/

section Lengthened

variable {total : ℕ} {result result' : Json.Fields} {keyFinds secondaryFinds : List Json}

/-- A result with more findings, at the end. -/
structure Lengthened (keyFinds secondaryFinds : List Json) (result result' : Json.Fields) : Prop where
  lists : ∀ name ∈ groupNames, (∃ items, Json.Fields.get result name = .arr items) ∧
    ∃ items, Json.Fields.get result' name = .arr items
  key : groupItems result' (py "key_finds") = groupItems result (py "key_finds") ++ keyFinds
  secondary : groupItems result' (py "secondary_finds") =
    groupItems result (py "secondary_finds") ++ secondaryFinds
  ordered : keyFinds = [] ∨ groupItems result (py "secondary_finds") = []
  others : ∀ name ∉ groupNames, Json.Fields.get result' name = Json.Fields.get result name

lemma Lengthened.findings_append (h : Lengthened keyFinds secondaryFinds result result') :
    findings result' = findings result ++ (keyFinds ++ secondaryFinds) := by
  rw [findings_eq, findings_eq, h.key, h.secondary]
  rcases h.ordered with hkey | hsecondary
  · simp [hkey]
  · simp [hsecondary]

/-- What a result that is accepted is accepted with. -/
theorem Lengthened.accepted_iff (h : Lengthened keyFinds secondaryFinds result result')
    (haccepted : Accepted env total result) :
    Accepted env total result' ↔
      ((∀ f, .obj f ∈ keyFinds → WithinLimits env 600 3 f) ∧
        ∀ f, .obj f ∈ secondaryFinds → WithinLimits env 320 1 f) ∧
      FindingsAccepted env total (Seen.none.append (identitiesOf env total (findings result)))
        (keyFinds ++ secondaryFinds) ∧
      (∀ suffix ∈ ["_zh", "_en"], ∀ summary,
        Json.Fields.get result (py ("summary" ++ suffix)) = .str summary →
        (∀ detail ∈ compactDetails env suffix (keyFinds ++ secondaryFinds),
          hasText detail (compactNarrativeKey env summary) = false) ∧
        (compactDetails env suffix (findings result) ++
          compactDetails env suffix (keyFinds ++ secondaryFinds)).Nodup) ∧
      unsupportedCause env (causationText result') = false := by
  have hgroups : (∀ limit ∈ detailLimits, ∀ f, .obj f ∈ groupItems result' limit.1 →
        WithinLimits env limit.2.1 limit.2.2 f) ↔
      (∀ f, .obj f ∈ keyFinds → WithinLimits env 600 3 f) ∧
        ∀ f, .obj f ∈ secondaryFinds → WithinLimits env 320 1 f := by
    have hold := haccepted.limits
    simp only [detailLimits, List.forall_mem_cons, List.not_mem_nil, false_imp_iff, forall_const,
      and_true] at hold ⊢
    simp only [h.key, h.secondary, List.mem_append, or_imp, forall_and]
    exact and_congr (and_iff_right hold.1) (and_iff_right hold.2)
  have hsummary : ∀ suffix ∈ ["_zh", "_en"],
      Json.Fields.get result' (py ("summary" ++ suffix)) =
        Json.Fields.get result (py ("summary" ++ suffix)) := by
    have hname : ∀ suffix ∈ ["_zh", "_en"], py ("summary" ++ suffix) ∉ groupNames := by decide
    exact fun suffix hsuffix => h.others _ (hname suffix hsuffix)
  have hdetails : ∀ suffix, compactDetails env suffix (findings result') =
      compactDetails env suffix (findings result) ++
        compactDetails env suffix (keyFinds ++ secondaryFinds) := fun suffix => by
    rw [h.findings_append]
    exact List.filterMap_append
  constructor
  · intro h'
    refine ⟨hgroups.mp h'.limits, ?_, fun suffix hsuffix summary hget => ?_, h'.causation⟩
    · have hall := h'.accepted
      rw [h.findings_append] at hall
      exact (findingsAccepted_append.mp hall).2
    · obtain ⟨hunlike, hnodup⟩ := h'.unrepeated suffix hsuffix summary
        ((hsummary suffix hsuffix).trans hget)
      rw [hdetails] at hunlike hnodup
      exact ⟨(List.forall_mem_append.mp hunlike).2, hnodup⟩
  · rintro ⟨hlimits, hfound, hunrepeated, hcausation⟩
    constructor
    · rw [h.others _ (by decide)]
      exact haccepted.total_eq
    · intro field hfield
      have hname : ∀ field ∈ ["summary_zh", "summary_en"], py field ∉ groupNames := by decide
      have hsame := h.others _ (hname field hfield)
      have hold := haccepted.summaries field hfield
      unfold validateSummary at hold ⊢
      rw [hsame]
      exact hold
    · exact fun name hname => (h.lists name hname).2
    · rw [h.findings_append]
      exact findingsAccepted_append.mpr ⟨haccepted.accepted, hfound⟩
    · exact hgroups.mpr hlimits
    · intro suffix hsuffix summary hget
      rw [hsummary suffix hsuffix] at hget
      obtain ⟨hunlike, hnodup⟩ := hunrepeated suffix hsuffix summary hget
      rw [hdetails]
      exact ⟨List.forall_mem_append.mpr
        ⟨(haccepted.unrepeated suffix hsuffix summary hget).1, hunlike⟩, hnodup⟩
    · exact hcausation

end Lengthened

/-! ## The completed result -/

section Completed

variable {fallback : Bool} {w : Work}

/-- The findings that are older than `n`. -/
def Work.before (n : Ref) (w : Work) : Work :=
  { w with doc := { w.doc with
    keyFinds := w.doc.keyFinds.filter (· < n)
    secondaryFinds := w.doc.secondaryFinds.filter (· < n) } }

/-- The completed groups: the findings there were and then the new ones, in the first group at most
when there were none in the second. -/
lemma completed_groups (hst : st.WellFormed) (hw : Counted st w) :
    ∃ keyOld secondaryOld keyNew secondaryNew : List Ref,
      keyOld ++ secondaryOld = w.doc.refs ∧
      keyNew ++ secondaryNew = List.range' w.next (leftOut st w).length ∧
      (keyNew = [] ∨ secondaryOld = []) ∧
      (completed env st fallback w).doc.keyFinds = keyOld ++ keyNew ∧
      (completed env st fallback w).doc.secondaryFinds = secondaryOld ++ secondaryNew := by
  have happended : Completes env st w.next (leftOut st w) w (appendOmitted env st w) :=
    appendOmitted_completes hw.lt
  obtain ⟨-, hcovers⟩ := appendOmitted_counted env hst hw
  cases fallback with
  | false =>
    exact ⟨_, _, [], _, rfl, rfl, .inl rfl, happended.keyFinds.trans (List.append_nil _).symm,
      happended.secondaryFinds⟩
  | true =>
    change ∃ keyOld secondaryOld keyNew secondaryNew : List Ref, _ ∧ _ ∧ _ ∧
      (promote st (appendOmitted env st w)).doc.keyFinds = _ ∧
      (promote st (appendOmitted env st w)).doc.secondaryFinds = _
    obtain ⟨hrefs, -, -⟩ := promote_refs hcovers
    have hkeyFinds := happended.keyFinds
    have hsecondaryFinds := happended.secondaryFinds
    generalize appendOmitted env st w = w₁ at hrefs hkeyFinds hsecondaryFinds ⊢
    cases hkey : w₁.doc.keyFinds with
    | cons r rest =>
      have hsame : promote st w₁ = w₁ := by
        unfold promote
        rw [hkey]
      rw [hsame]
      exact ⟨_, _, [], _, rfl, rfl, .inl rfl, hkeyFinds.trans (List.append_nil _).symm,
        hsecondaryFinds⟩
    | nil =>
      rw [hkey] at hkeyFinds
      cases hsecondary : w₁.doc.secondaryFinds with
      | nil =>
        rw [Doc.refs, Doc.refs, hkey, hsecondary, List.append_nil, List.append_eq_nil_iff] at hrefs
        obtain ⟨hold, hnew⟩ := List.append_eq_nil_iff.mp (hsecondaryFinds.symm.trans hsecondary)
        refine ⟨[], [], [], [], ?_, hnew.symm, .inl rfl, hrefs.1, hrefs.2⟩
        rw [Doc.refs, ← hkeyFinds, hold]
      | cons r rest =>
        have hpromoted : promote st w₁ =
            { w₁ with doc := { w₁.doc with keyFinds := [r], secondaryFinds := rest } } := by
          unfold promote
          rw [hkey, hsecondary]
        rw [hpromoted]
        rw [hsecondary] at hsecondaryFinds
        -- the first secondary find is a new one when there was none before
        cases hold : w.doc.secondaryFinds with
        | nil =>
          rw [hold, List.nil_append] at hsecondaryFinds
          refine ⟨[], [], [r], rest, ?_, hsecondaryFinds, .inr rfl, rfl, rfl⟩
          rw [Doc.refs, ← hkeyFinds, hold]
        | cons a old =>
          rw [hold, List.cons_append, List.cons.injEq] at hsecondaryFinds
          obtain ⟨rfl, hrest⟩ := hsecondaryFinds
          refine ⟨[r], old, [], _, ?_, rfl, .inl rfl, rfl, hrest⟩
          rw [Doc.refs, ← hkeyFinds, hold]
          rfl

/-- A finding as a value. -/
abbrev Work.finding (w : Work) (r : Ref) : Json := .obj (w.heap r)

/-- The findings of some references that are not older than `n`. -/
def Work.since (n : Ref) (w : Work) (refs : List Ref) : List Json :=
  (refs.filter (n ≤ ·)).map w.finding

/-- The announcements of the families nobody has. -/
def announcements (env : Env) (st : Statistics) (w : Work) : List Json :=
  (leftOut st w).map fun group => .obj (announcement env st group)

lemma heap_completed (hst : st.WellFormed) (hw : Counted st w) :
    (completed env st fallback w).heap = (appendOmitted env st w).heap := by
  cases fallback with
  | false => rfl
  | true => exact (promote_refs (appendOmitted_counted env hst hw).2).2.1

lemma fields_completed (hw : Counted st w) : (completed env st fallback w).doc.fields =
    Dict.set w.doc.fields (py "total_entries") (.int st.totalEntries) := by
  have happended : (appendOmitted env st w).doc.fields = w.doc.fields :=
    (appendOmitted_completes hw.lt).fields
  have hpromoted : (promote st (appendOmitted env st w)).doc.fields = w.doc.fields := by
    rw [← happended]
    unfold promote
    split
    · rfl
    · split <;> rfl
    · rfl
  cases fallback with
  | false => exact congrArg (Dict.set · _ _) happended
  | true => exact congrArg (Dict.set · _ _) hpromoted

/-- Older references followed by newer ones. -/
lemma filter_older {n : Ref} {old new : List Ref} (hold : ∀ r ∈ old, r < n)
    (hnew : ∀ r ∈ new, n ≤ r) :
    (old ++ new).filter (· < n) = old ∧ (old ++ new).filter (n ≤ ·) = new := by
  constructor
  · have hnone : new.filter (· < n) = [] :=
      List.filter_eq_nil_iff.mpr fun r hr => by simpa using hnew r hr
    rw [List.filter_append, hnone, List.append_nil, List.filter_eq_self]
    exact fun r hr => by simpa using hold r hr
  · have hnone : old.filter (n ≤ ·) = [] :=
      List.filter_eq_nil_iff.mpr fun r hr => by simpa using hold r hr
    rw [List.filter_append, hnone, List.nil_append, List.filter_eq_self]
    exact fun r hr => by simpa using hnew r hr

/-- **The completed result** is the result without the new findings, with the announcements of the
families nobody has. -/
theorem completed_grown (env : Env) (hst : st.WellFormed) (fallback : Bool) (hw : Counted st w) :
    let w' := completed env st fallback w
    Lengthened (w'.since w.next w'.doc.keyFinds) (w'.since w.next w'.doc.secondaryFinds)
        ((w'.before w.next).doc.read w'.heap) (w'.doc.read w'.heap) ∧
      w'.since w.next w'.doc.keyFinds ++ w'.since w.next w'.doc.secondaryFinds =
        announcements env st w ∧
      (w'.before w.next).doc.refs = w.doc.refs ∧
      ∀ r ∈ w.doc.refs, ∀ key ∉ completedKeys,
        Dict.get? (w'.heap r) key = Dict.get? (w.heap r) key := by
  intro w'
  obtain ⟨keyOld, secondaryOld, keyNew, secondaryNew, hold, hnew, hordered, hkey, hsecondary⟩ :=
    @completed_groups env st fallback w hst hw
  have happended : Completes env st w.next (leftOut st w) w (appendOmitted env st w) :=
    appendOmitted_completes hw.lt
  have hheap : w'.heap = (appendOmitted env st w).heap := heap_completed hst hw
  have hlt : ∀ r ∈ keyOld ++ secondaryOld, r < w.next := fun r hr => hw.lt r (hold ▸ hr)
  have hge : ∀ r ∈ keyNew ++ secondaryNew, w.next ≤ r := fun r hr =>
    (List.mem_range'_1.mp (hnew ▸ hr)).1
  obtain ⟨hkeyLt, hsecondaryLt⟩ := List.forall_mem_append.mp hlt
  obtain ⟨hkeyGe, hsecondaryGe⟩ := List.forall_mem_append.mp hge
  obtain ⟨hkeyBefore, hkeySince⟩ := filter_older hkeyLt hkeyGe
  obtain ⟨hsecondaryBefore, hsecondarySince⟩ := filter_older hsecondaryLt hsecondaryGe
  change w'.doc.keyFinds = _ at hkey
  change w'.doc.secondaryFinds = _ at hsecondary
  have hbefore : (w'.before w.next).doc.keyFinds = keyOld ∧
      (w'.before w.next).doc.secondaryFinds = secondaryOld := by
    rw [← hkey] at hkeyBefore
    rw [← hsecondary] at hsecondaryBefore
    exact ⟨hkeyBefore, hsecondaryBefore⟩
  have hsince : w'.since w.next w'.doc.keyFinds = keyNew.map w'.finding ∧
      w'.since w.next w'.doc.secondaryFinds = secondaryNew.map w'.finding := by
    rw [Work.since, Work.since, hkey, hkeySince, hsecondary, hsecondarySince]
    exact ⟨rfl, rfl⟩
  obtain ⟨hget, hget'⟩ := Doc.get_read w'.heap w'.doc
  obtain ⟨hgetBefore, hgetBefore'⟩ := Doc.get_read w'.heap (w'.before w.next).doc
  rw [hbefore.1] at hgetBefore
  rw [hbefore.2] at hgetBefore'
  rw [hkey] at hget
  rw [hsecondary] at hget'
  refine ⟨⟨?_, ?_, ?_, ?_, ?_⟩, ?_, ?_, fun r hr key hcompleted => ?_⟩
  · simp only [groupNames, List.forall_mem_cons, List.not_mem_nil, false_imp_iff, forall_const,
      and_true]
    exact ⟨⟨⟨_, hgetBefore⟩, _, hget⟩, ⟨_, hgetBefore'⟩, _, hget'⟩
  · rw [groupItems, hget, groupItems, hgetBefore, hsince.1]
    exact List.map_append
  · rw [groupItems, hget', groupItems, hgetBefore', hsince.2]
    exact List.map_append
  · rw [hsince.1, groupItems, hgetBefore']
    exact hordered.imp (fun h => by rw [h]; rfl) fun h => by rw [h]; rfl
  · intro name hname
    simp only [groupNames, List.mem_cons, List.not_mem_nil, or_false, not_or] at hname
    simp only [Json.Fields.get, Json.Fields.getD, Doc.read, Dict.get?_set_of_ne _ _ hname.1,
      Dict.get?_set_of_ne _ _ hname.2]
    rfl
  · rw [hsince.1, hsince.2, ← List.map_append, hnew]
    have hannounced := congrArg (List.map Json.obj) happended.announced
    rw [List.map_map, List.map_map, ← hheap] at hannounced
    exact hannounced
  · rw [Doc.refs, hbefore.1, hbefore.2, hold]
  · rw [hheap]
    exact happended.keeps r (hw.lt r hr) key hcompleted

end Completed

/-! ## Identities -/

section Identities

/-- No finding gets a pattern of a family nobody has but the new one. -/
lemma completed_apart (env : Env) (hst : st.WellFormed) (fallback : Bool) {w : Work}
    (hw : Counted st w) {group : PyStr × List Pattern} (hgroup : group ∈ leftOut st w) {p : Pattern}
    (hp : p ∈ group.2) {r : Ref} (hr : r ∈ w.doc.refs) :
    p.id ∉ idsOf ((completed env st fallback w).heap r) := by
  intro hid
  rw [heap_completed hst hw] at hid
  obtain ⟨hcounted, -⟩ := appendOmitted_counted env hst hw
  have happended : Completes env st w.next (leftOut st w) w (appendOmitted env st w) :=
    appendOmitted_completes hw.lt
  have hleft := (leftOut_spec hst w).2 group hgroup
  have hknown : ∀ p ∈ group.2, p.id ∈ patternIds st := fun p hp =>
    List.mem_map_of_mem (List.mem_filter.mp (hleft.named p hp).1).1
  have hrefs : ∀ x, x ∈ w.doc.refs ∨ x ∈ List.range' w.next (leftOut st w).length →
      x ∈ (appendOmitted env st w).doc.refs := by
    intro x hx
    rw [Doc.refs, happended.keyFinds, happended.secondaryFinds, ← List.append_assoc]
    exact List.mem_append.mpr hx
  obtain ⟨r', hr', hheap⟩ : ∃ r' ∈ List.range' w.next (leftOut st w).length,
      (appendOmitted env st w).heap r' = announcement env st group := by
    rw [← List.mem_map, happended.announced]
    exact List.mem_map_of_mem hgroup
  have hannounced := announced_announcement env st hleft.nonempty
  have hitem : r' ∈ (appendOmitted env st w).items := by
    refine Work.mem_items.mpr ⟨hrefs r' (.inr hr'), ?_⟩
    rw [Work.quantified, hheap, hannounced.patternIds, isUnquantified_texts]
    · rfl
    · intro hmarker
      obtain ⟨q, hq, hmarker⟩ := List.mem_map.mp hmarker
      exact unquantified_not_mem hst (hmarker ▸ hknown q hq)
  have hids : (appendOmitted env st w).ids r' = group.2.map (·.id) := by
    rw [Work.ids, hheap, idsOf, hannounced.patternIds]
    exact textsOf_map_str _
  by_cases hq : (appendOmitted env st w).quantified r = true
  · have hne : r ≠ r' := (Nat.lt_of_lt_of_le (hw.lt r hr) (List.mem_range'_1.mp hr').1).ne
    exact hcounted.apart r (Work.mem_items.mpr ⟨hrefs r (.inl hr), hq⟩) r' hitem hne p.id hid p.id
      (hids ▸ List.mem_map_of_mem hp) (.inl rfl)
  · have hmarker := patternIdsOf_unquantified (f := (appendOmitted env st w).finding r)
      (Bool.not_eq_true _ ▸ hq)
    have hid : p.id ∈ patternIdsOf ((appendOmitted env st w).finding r) := hid
    rw [hmarker, List.mem_singleton] at hid
    exact unquantified_not_mem hst (hid ▸ hknown p hp)

variable {w : Work} {fields : Json.Fields}

/-- The identities of a finding that is accepted alone. -/
lemma identities_of_acceptedAlone {total : ℤ} {own : Seen}
    (h : acceptedAlone env total (.obj fields) = .ok own) :
    own.ids = idsOf fields ∧ ∃ id, Json.Fields.get fields (py "id") = .str id ∧
      own.findingIds = [id] := by
  obtain ⟨id, ids, physical, hid, -, hids, -, -, -, rfl⟩ := validateFinding_obj.mp h
  refine ⟨?_, id, ?_, rfl⟩
  · show ids = idsOf fields
    rw [idsOf, texts_of_validatePatternIds hids]
    exact (textsOf_map_str ids).symm
  · unfold validateId at hid
    split at hid
    · next s hs =>
      obtain ⟨-, -, hid⟩ := Except.bind_eq_ok.mp hid
      obtain ⟨-, -, hid⟩ := Except.bind_eq_ok.mp hid
      cases hid
      exact hs
    · exact absurd hid Except.throw_ne_ok

/-- The identities of the announcements are new when no finding has the id of one. -/
lemma announcements_accepted_iff (hst : st.WellFormed) (hlabelled : st.Labelled)
    {w' : Work}
    (hid : ∀ r ∈ w.doc.refs, Json.Fields.get (w'.heap r) (py "id") =
      Json.Fields.get (w.heap r) (py "id"))
    (hapart : ∀ group ∈ leftOut st w, ∀ p ∈ group.2, ∀ r ∈ w.doc.refs, p.id ∉ idsOf (w'.heap r))
    (hfound : FindingsAccepted env st.totalEntries .none (w.doc.refs.map w'.finding)) :
    FindingsAccepted env st.totalEntries
        (Seen.none.append (identitiesOf env st.totalEntries (w.doc.refs.map w'.finding)))
        (announcements env st w) ↔
      ∀ group ∈ leftOut st w, ∀ r ∈ w.doc.refs,
        Json.Fields.get (w.heap r) (py "id") ≠ .str (py "unlabeled-" ++ group.1) := by
  have hspec := leftOut_spec hst w
  have halone : ∀ group ∈ leftOut st w, acceptedAlone env st.totalEntries
      (.obj (announcement env st group)) =
        .ok ⟨group.2.map (·.id), [py "unlabeled-" ++ group.1]⟩ := fun group hgroup =>
    (hspec.2 group hgroup).acceptedAlone env hst hlabelled
  have hidentity : ∀ group ∈ leftOut st w, identityOf env st.totalEntries
      (.obj (announcement env st group)) =
        ⟨group.2.map (·.id), [py "unlabeled-" ++ group.1]⟩ := fun group hgroup => by
    rw [identityOf, halone group hgroup]
  have hids : ((announcements env st w).flatMap fun f => (identityOf env st.totalEntries f).ids) =
      (leftOut st w).flatMap fun group => group.2.map (·.id) := by
    rw [announcements, List.flatMap_map]
    exact List.flatMap_congr fun group hgroup => by rw [hidentity group hgroup]
  have hfindingIds : ((announcements env st w).flatMap fun f =>
      (identityOf env st.totalEntries f).findingIds) =
        (leftOut st w).map fun group => py "unlabeled-" ++ group.1 := by
    rw [announcements, List.flatMap_map, List.map_eq_flatMap]
    exact List.flatMap_congr fun group hgroup => by rw [hidentity group hgroup]
  have hold : ∀ r ∈ w.doc.refs, ∃ id, Json.Fields.get (w.heap r) (py "id") = .str id ∧
      identityOf env st.totalEntries (w'.finding r) = ⟨idsOf (w'.heap r), [id]⟩ := by
    intro r hr
    obtain ⟨own, hown⟩ := hfound.alone (w'.finding r) (List.mem_map_of_mem hr)
    obtain ⟨hids, id, hget, hfindingIds⟩ := identities_of_acceptedAlone hown
    exact ⟨id, (hid r hr).symm.trans hget, by rw [identityOf, hown, ← hids, ← hfindingIds]⟩
  constructor
  · intro h group hgroup r hr heq
    obtain ⟨id, hget, hown⟩ := hold r hr
    obtain rfl : py "unlabeled-" ++ group.1 = id := Json.str.inj (heq.symm.trans hget)
    refine (List.nodup_append.mp h.findingIds).2.2 (py "unlabeled-" ++ group.1) ?_ _ ?_ rfl
    · refine List.mem_flatMap.mpr ⟨w'.finding r, List.mem_map_of_mem hr, ?_⟩
      rw [hown]
      exact List.mem_singleton_self _
    · rw [hfindingIds]
      exact List.mem_map_of_mem hgroup
  · intro h
    refine ⟨?_, ?_, ?_⟩
    · intro f hf
      obtain ⟨group, hgroup, rfl⟩ := List.mem_map.mp hf
      exact ⟨_, halone group hgroup⟩
    · rw [hids]
      refine List.nodup_append.mpr ⟨hfound.ids, ?_, ?_⟩
      · refine List.nodup_flatMap.mpr ⟨fun group hgroup => (hspec.2 group hgroup).nodup, ?_⟩
        refine (List.pairwise_map.mp hspec.1).imp_of_mem fun {a b} ha hb hne => ?_
        -- a pattern has one family
        intro id hida hidb
        obtain ⟨p, hp, rfl⟩ := List.mem_map.mp hida
        obtain ⟨q, hq, hpq⟩ := List.mem_map.mp hidb
        obtain ⟨hp, hfamily⟩ := (hspec.2 a ha).named p hp
        obtain ⟨hq, hfamily'⟩ := (hspec.2 b hb).named q hq
        have hsame := List.inj_on_of_nodup_map hst.patternIds (List.mem_filter.mp hq).1
          (List.mem_filter.mp hp).1 hpq
        exact hne (hfamily.symm.trans (hsame ▸ hfamily'))
      · rintro id hidOld _ hidNew rfl
        obtain ⟨f, hf, hidOld⟩ := List.mem_flatMap.mp hidOld
        obtain ⟨r, hr, rfl⟩ := List.mem_map.mp hf
        obtain ⟨_, -, hown⟩ := hold r hr
        rw [hown] at hidOld
        obtain ⟨group, hgroup, hidNew⟩ := List.mem_flatMap.mp hidNew
        obtain ⟨p, hp, rfl⟩ := List.mem_map.mp hidNew
        exact hapart group hgroup p hp r hr hidOld
    · rw [hfindingIds]
      refine List.nodup_append.mpr ⟨hfound.findingIds, ?_, ?_⟩
      · have hprefix := hspec.1.map fun (a b : PyStr)
            (h : py "unlabeled-" ++ a = py "unlabeled-" ++ b) => List.append_cancel_left h
        rw [List.map_map] at hprefix
        exact hprefix
      · rintro id hidOld _ hidNew rfl
        obtain ⟨f, hf, hidOld⟩ := List.mem_flatMap.mp hidOld
        obtain ⟨r, hr, rfl⟩ := List.mem_map.mp hf
        obtain ⟨id', hget, hown⟩ := hold r hr
        rw [hown, List.mem_singleton] at hidOld
        obtain ⟨group, hgroup, heq⟩ := List.mem_map.mp hidNew
        exact h group hgroup r hr (by rw [hget, ← hidOld, heq])

end Identities

/-! ## Why a completed result is rejected -/

section Blame

variable {fallback : Bool} {w : Work} {label : PyStr}

/-- The findings since `n` are not why a result is rejected: each of them keeps to the limits, no
two of them repeat one another's detail, and what is accepted without them is accepted with them. -/
structure Blameless (env : Env) (label : PyStr) (n : Ref) (w : Work) : Prop where
  keyFinds : ∀ f, .obj f ∈ w.since n w.doc.keyFinds → WithinLimits env 600 3 f
  secondaryFinds : ∀ f, .obj f ∈ w.since n w.doc.secondaryFinds → WithinLimits env 320 1 f
  unrepeated : ∀ suffix ∈ ["_zh", "_en"],
    (compactDetails env suffix (w.since n w.doc.refs)).Nodup
  accepted : validateLogTriageResult env label ((w.before n).doc.read w.heap) = .ok () →
    validateLogTriageResult env label (w.doc.read w.heap) = .ok ()

/-- The text of some findings and the summaries. -/
def narrativeText (fields : Json.Fields) (found : List Json) : PyStr :=
  joinText (py "\n") (textsOf (["summary_en", "summary_zh"].map (fun key => fields.get (py key)) ++
    found.flatMap narrativesOf))

/-- The announcements of the families nobody has meet nothing: no other finding has the id of one,
their details are no other's and in no summary, and all texts together assert no unsupported
cause. -/
structure Unobtrusive (env : Env) (st : Statistics) (w : Work) : Prop where
  ids : ∀ group ∈ leftOut st w, ∀ r ∈ w.doc.refs,
    Json.Fields.get (w.heap r) (py "id") ≠ .str (py "unlabeled-" ++ group.1)
  details : ∀ suffix ∈ ["_zh", "_en"], ∀ detail ∈ compactDetails env suffix (announcements env st w),
    detail ∉ compactDetails env suffix (w.doc.refs.map w.finding)
  summaries : ∀ suffix ∈ ["_zh", "_en"],
    ∀ detail ∈ compactDetails env suffix (announcements env st w), ∀ summary,
      Json.Fields.get w.doc.fields (py ("summary" ++ suffix)) = .str summary →
        hasText detail (compactNarrativeKey env summary) = false
  causation : unsupportedCause env
    (narrativeText w.doc.fields (w.doc.refs.map w.finding ++ announcements env st w)) = false

/-- The announcement of a family keeps to the limits of both groups unless its descriptor
dangles. -/
lemma withinLimits_announcement_iff {group : PyStr × List Pattern} (hne : group.2 ≠ [])
    {maximumLength maximumSentences : ℕ} (hlength : 320 ≤ maximumLength)
    (hsentences : 1 ≤ maximumSentences) :
    WithinLimits env maximumLength maximumSentences (announcement env st group) ↔
      ¬ Dangling env (descriptor env (announcedLabel st group)) := by
  obtain ⟨family, items⟩ := group
  obtain ⟨item, rest, rfl⟩ := List.exists_cons_of_ne_nil hne
  exact withinLimits_familyFinding_iff hlength hsentences

/-- What the checks read off a result besides the announcements is there before it is completed. -/
lemma completed_texts (env : Env) (hst : st.WellFormed) (fallback : Bool) (hw : Counted st w) :
    (∀ key ∈ ["id", "label_en", "label_zh", "detail_en", "detail_zh"], ∀ r ∈ w.doc.refs,
      Json.Fields.get ((completed env st fallback w).heap r) (py key) =
        Json.Fields.get (w.heap r) (py key)) ∧
    ∀ keyFinds secondaryFinds, Json.Fields.get
        (Doc.read (completed env st fallback w).heap
          { (completed env st fallback w).doc with keyFinds, secondaryFinds })
          (py "total_entries") = .int st.totalEntries ∧
      ∀ key ∈ ["summary_en", "summary_zh"], Json.Fields.get
        (Doc.read (completed env st fallback w).heap
          { (completed env st fallback w).doc with keyFinds, secondaryFinds }) (py key) =
        Json.Fields.get w.doc.fields (py key) := by
  obtain ⟨-, -, -, hkeeps⟩ := completed_grown env hst fallback hw
  have hkey : ∀ key ∈ ["id", "label_en", "label_zh", "detail_en", "detail_zh"],
      py key ∉ completedKeys := by decide
  have hsummary : ∀ key ∈ ["summary_en", "summary_zh"], py key ∉ resultKeys := by decide
  refine ⟨fun key hmem r hr => ?_, fun keyFinds secondaryFinds => ⟨?_, fun key hmem => ?_⟩⟩
  · rw [Json.Fields.get, Json.Fields.getD, hkeeps r hr _ (hkey key hmem)]
    rfl
  · rw [Json.Fields.get, Json.Fields.getD, Doc.read, Dict.get?_set_of_ne _ _ (by decide),
      Dict.get?_set_of_ne _ _ (by decide)]
    dsimp only
    rw [fields_completed hw, Dict.get?_set_self]
    rfl
  · have hne := hsummary key hmem
    simp only [resultKeys, List.map_cons, List.map_nil, List.mem_cons, List.not_mem_nil, or_false,
      not_or] at hne
    rw [Json.Fields.get, Json.Fields.getD, Doc.read, Dict.get?_set_of_ne _ _ hne.2.2,
      Dict.get?_set_of_ne _ _ hne.2.1]
    dsimp only
    rw [fields_completed hw, Dict.get?_set_of_ne _ _ hne.1]
    rfl

/-- Findings with the same texts have the same details and narratives. -/
lemma narratives_congr {w' : Work} (suffix : String) {refs : List Ref}
    (hdetails : ∀ r ∈ refs, Json.Fields.get (w'.heap r) (py ("detail" ++ suffix)) =
      Json.Fields.get (w.heap r) (py ("detail" ++ suffix)))
    (htexts : ∀ key ∈ ["label_en", "label_zh", "detail_en", "detail_zh"], ∀ r ∈ refs,
      Json.Fields.get (w'.heap r) (py key) = Json.Fields.get (w.heap r) (py key)) :
    compactDetails env suffix (refs.map w'.finding) = compactDetails env suffix (refs.map w.finding) ∧
      (refs.map w'.finding).flatMap narrativesOf = (refs.map w.finding).flatMap narrativesOf := by
  constructor
  · rw [compactDetails, compactDetails, List.filterMap_map, List.filterMap_map]
    refine List.filterMap_congr fun r hr => ?_
    show compactDetail env suffix (w'.heap r) = compactDetail env suffix (w.heap r)
    rw [compactDetail, compactDetail, hdetails r hr]
  · rw [List.flatMap_map, List.flatMap_map]
    refine List.flatMap_congr fun r hr => ?_
    exact List.map_congr_left fun key hkey => htexts key hkey r hr

/-- All announcements keep to the limits of their groups unless the descriptor of one dangles. -/
lemma announcements_limits_iff (hst : st.WellFormed) {keyFinds secondaryFinds : List Json}
    (h : keyFinds ++ secondaryFinds = announcements env st w) :
    ((∀ f, .obj f ∈ keyFinds → WithinLimits env 600 3 f) ∧
        ∀ f, .obj f ∈ secondaryFinds → WithinLimits env 320 1 f) ↔
      ∀ group ∈ leftOut st w, ¬ Dangling env (descriptor env (announcedLabel st group)) := by
  have hne : ∀ group ∈ leftOut st w, group.2 ≠ [] := fun group hgroup =>
    ((leftOut_spec hst w).2 group hgroup).nonempty
  constructor
  · rintro ⟨hkey, hsecondary⟩ group hgroup
    have hmem : .obj (announcement env st group) ∈ keyFinds ++ secondaryFinds :=
      h ▸ List.mem_map_of_mem hgroup
    rcases List.mem_append.mp hmem with hmem | hmem
    · exact (withinLimits_announcement_iff (hne group hgroup) (by decide) (by decide)).mp
        (hkey _ hmem)
    · exact (withinLimits_announcement_iff (hne group hgroup) le_rfl le_rfl).mp (hsecondary _ hmem)
  · intro hcomplete
    have hall : ∀ f, .obj f ∈ keyFinds ++ secondaryFinds → ∀ maximumLength maximumSentences,
        320 ≤ maximumLength → 1 ≤ maximumSentences →
          WithinLimits env maximumLength maximumSentences f := by
      intro f hf maximumLength maximumSentences hlength hsentences
      rw [h] at hf
      obtain ⟨group, hgroup, heq⟩ := List.mem_map.mp hf
      cases heq
      exact (withinLimits_announcement_iff (hne group hgroup) hlength hsentences).mpr
        (hcomplete group hgroup)
    exact ⟨fun f hf => hall f (List.mem_append_left _ hf) 600 3 (by decide) (by decide),
      fun f hf => hall f (List.mem_append_right _ hf) 320 1 le_rfl le_rfl⟩

/-- The checks with the total that is given. -/
lemma validateLogTriageResult_iff {result : Json.Fields} {total : ℕ}
    (h : Json.Fields.get result (py "total_entries") = .int total) :
    validateLogTriageResult env label result = .ok () ↔ Accepted env total result := by
  rw [validateLogTriageResult_eq_ok]
  refine ⟨?_, fun haccepted => ⟨total, haccepted⟩⟩
  rintro ⟨total', haccepted⟩
  have hsame := haccepted.total_eq
  rw [h] at hsame
  obtain rfl : total = total' := Option.some.inj hsame
  exact haccepted

/-- The summaries of an accepted result are texts. -/
lemma Accepted.exists_summary {total : ℕ} {result : Json.Fields} (h : Accepted env total result)
    {suffix : String} (hsuffix : suffix ∈ ["_zh", "_en"]) :
    ∃ summary, Json.Fields.get result (py ("summary" ++ suffix)) = .str summary := by
  have hname : ∀ suffix ∈ ["_zh", "_en"], "summary" ++ suffix ∈ ["summary_zh", "summary_en"] := by
    decide
  have hvalid := h.summaries _ (hname suffix hsuffix)
  unfold validateSummary at hvalid
  dsimp only at hvalid
  split at hvalid
  · next summary hsummary => exact ⟨summary, hsummary⟩
  · exact absurd hvalid Except.throw_ne_ok

/-- **When the appended findings are not why a result is rejected.** -/
theorem completed_blameless_iff (hst : st.WellFormed) (hlabelled : st.Labelled)
    (hw : Counted st w) :
    Blameless env label w.next (completed env st fallback w) ↔
      (∀ group ∈ leftOut st w, ¬ Dangling env (descriptor env (announcedLabel st group))) ∧
      (∀ suffix ∈ ["_zh", "_en"], (compactDetails env suffix (announcements env st w)).Nodup) ∧
      (validateLogTriageResult env label (((completed env st fallback w).before w.next).doc.read
          (completed env st fallback w).heap) = .ok () → Unobtrusive env st w) := by
  obtain ⟨hgrown, hnew, hrefs, -⟩ := completed_grown env hst fallback hw
  obtain ⟨htexts, hfields⟩ := completed_texts env hst fallback hw
  have hapart := fun group hgroup p hp r hr =>
    @completed_apart st env hst fallback w hw group hgroup p hp r hr
  generalize completed env st fallback w = w' at hgrown hnew hrefs htexts hfields hapart ⊢
  obtain ⟨htotal, hsummaries⟩ := hfields (w'.before w.next).doc.keyFinds
    (w'.before w.next).doc.secondaryFinds
  have hout := (hfields w'.doc.keyFinds w'.doc.secondaryFinds).2
  have hrest : findings ((w'.before w.next).doc.read w'.heap) = w.doc.refs.map w'.finding := by
    rw [← hrefs]
    exact findings_read (w'.before w.next)
  change Json.Fields.get ((w'.before w.next).doc.read w'.heap) _ = _ at htotal
  change ∀ key ∈ _, Json.Fields.get ((w'.before w.next).doc.read w'.heap) _ = _ at hsummaries
  change ∀ key ∈ _, Json.Fields.get (w'.doc.read w'.heap) _ = _ at hout
  have hsince : w'.since w.next w'.doc.refs = announcements env st w := by
    rw [← hnew, Work.since, Doc.refs, List.filter_append, List.map_append]
    rfl
  have htextOf : ∀ suffix ∈ ["_zh", "_en"], compactDetails env suffix (w.doc.refs.map w'.finding) =
        compactDetails env suffix (w.doc.refs.map w.finding) ∧
      (w.doc.refs.map w'.finding).flatMap narrativesOf =
        (w.doc.refs.map w.finding).flatMap narrativesOf := by
    have hdetail : ∀ suffix ∈ ["_zh", "_en"],
        "detail" ++ suffix ∈ ["id", "label_en", "label_zh", "detail_en", "detail_zh"] := by decide
    exact fun suffix hsuffix => narratives_congr suffix (htexts _ (hdetail suffix hsuffix))
      fun key hkey => htexts key (List.mem_cons_of_mem _ hkey)
  have hcausation : causationText (w'.doc.read w'.heap) =
      narrativeText w.doc.fields (w.doc.refs.map w.finding ++ announcements env st w) := by
    rw [causationText, narrativeText, hgrown.findings_append, hrest, hnew, List.flatMap_append,
      List.flatMap_append, (htextOf "_zh" (by decide)).2, List.map_congr_left hout]
  have hlimits := announcements_limits_iff hst hnew
  have hsummary : ∀ suffix ∈ ["_zh", "_en"],
      Json.Fields.get ((w'.before w.next).doc.read w'.heap) (py ("summary" ++ suffix)) =
        Json.Fields.get w.doc.fields (py ("summary" ++ suffix)) := by
    have hname : ∀ suffix ∈ ["_zh", "_en"], "summary" ++ suffix ∈ ["summary_en", "summary_zh"] := by
      decide
    exact fun suffix hsuffix => hsummaries _ (hname suffix hsuffix)
  have hvalid := @validateLogTriageResult_iff env label _ _ htotal
  have hvalid' := @validateLogTriageResult_iff env label _ _
    ((hgrown.others _ (by decide)).trans htotal)
  have hids := fun hfound => @announcements_accepted_iff env st w hst hlabelled w'
    (htexts "id" (by decide)) hapart (hrest ▸ hfound)
  constructor
  · rintro ⟨hkey, hsecondary, hunrepeated, haccepted⟩
    refine ⟨hlimits.mp ⟨hkey, hsecondary⟩, fun suffix hsuffix => hsince ▸ hunrepeated suffix hsuffix,
      fun hok => ?_⟩
    have hold := hvalid.mp hok
    obtain ⟨-, hfound, hall, hcause⟩ := (hgrown.accepted_iff hold).mp (hvalid'.mp (haccepted hok))
    rw [hnew, hrest] at hfound hall
    constructor
    · exact (hids hold.accepted).mp hfound
    · intro suffix hsuffix detail hdetail hmem
      obtain ⟨summary, hget⟩ := hold.exists_summary hsuffix
      obtain ⟨-, hnodup⟩ := hall suffix hsuffix summary hget
      rw [← (htextOf suffix hsuffix).1] at hmem
      exact (List.nodup_append.mp hnodup).2.2 detail hmem detail hdetail rfl
    · intro suffix hsuffix detail hdetail summary hget
      exact (hall suffix hsuffix summary ((hsummary suffix hsuffix).trans hget)).1 detail hdetail
    · exact hcausation ▸ hcause
  · rintro ⟨hcomplete, hnodup, hmeets⟩
    obtain ⟨hkey, hsecondary⟩ := hlimits.mpr hcomplete
    refine ⟨hkey, hsecondary, fun suffix hsuffix => hsince.symm ▸ hnodup suffix hsuffix,
      fun hok => ?_⟩
    have hold := hvalid.mp hok
    have hapartTexts := hmeets hok
    refine hvalid'.mpr ((hgrown.accepted_iff hold).mpr ⟨⟨hkey, hsecondary⟩, ?_, ?_, ?_⟩)
    · rw [hnew, hrest]
      exact (hids hold.accepted).mpr hapartTexts.ids
    · intro suffix hsuffix summary hget
      rw [hnew, hrest]
      have hunrepeated := (hold.unrepeated suffix hsuffix summary hget).2
      rw [hrest] at hunrepeated
      refine ⟨fun detail hdetail => hapartTexts.summaries suffix hsuffix detail hdetail summary
        ((hsummary suffix hsuffix).symm.trans hget), List.nodup_append.mpr
          ⟨hunrepeated, hnodup suffix hsuffix, ?_⟩⟩
      rintro detail hmem _ hdetail rfl
      rw [(htextOf suffix hsuffix).1] at hmem
      exact hapartTexts.details suffix hsuffix detail hdetail hmem
    · rw [hcausation]
      exact hapartTexts.causation

end Blame

/-! ## A model result -/

/-- The findings when completion begins. -/
def beforeCompletion (env : Env) (st : Statistics) (fallback : Bool) (result : Json.Fields) :
    Except (Failure Json.Fields) Work := do
  let (result, s) ← assignGroup env st fallback result ⟨[], false⟩ (py "key_finds")
  let (result, _) ← assignGroup env st fallback result s (py "secondary_finds")
  return uncompleted env st fallback (Work.start result)

/-- **When completion does not poison a result.** For every log, in both modes and for every model
result without evidence entries that is accepted: the appended findings are not why the checks
reject the result if and only if the descriptor of none of them dangles, no two of them have the
same long detail, and, unless the findings are rejected without them, they meet no others. -/
theorem reconcileResult_blameless_iff (env : Env) (lib : PyJson.Lib) (logText : PyStr)
    (st : Statistics) (hst : preprocessLog (env.withJson lib) logText = .ok st) (fallback : Bool)
    (result out left : Json.Fields) (hev : ∀ f ∈ findings result, ¬ NamesEvidence f)
    (h : reconcileResult (env.withJson lib) st fallback result = .ok (out, left)) (label : PyStr) :
    ∃ w, beforeCompletion (env.withJson lib) st fallback result = .ok w ∧
      out = (completed (env.withJson lib) st fallback w).doc.read
        (completed (env.withJson lib) st fallback w).heap ∧
      (Blameless (env.withJson lib) label w.next (completed (env.withJson lib) st fallback w) ↔
        (∀ group ∈ leftOut st w,
          ¬ Dangling (env.withJson lib) (descriptor (env.withJson lib) (announcedLabel st group))) ∧
        (∀ suffix ∈ ["_zh", "_en"],
          (compactDetails (env.withJson lib) suffix
            (announcements (env.withJson lib) st w)).Nodup) ∧
        (validateLogTriageResult (env.withJson lib) label
          (((completed (env.withJson lib) st fallback w).before w.next).doc.read
            (completed (env.withJson lib) st fallback w).heap) = .ok () →
          Unobtrusive (env.withJson lib) st w)) := by
  have hwf := preprocessLog_wellFormed hst
  have hlabelled := preprocessLog_labelled notBlank_dumps hst
  have h := reconcilePatterns_of_reconcileResult hev h
  obtain ⟨⟨result₁, s₁⟩, h₁, h⟩ := Except.bind_eq_ok.mp h
  obtain ⟨⟨result₂, s₂⟩, h₂, h⟩ := Except.bind_eq_ok.mp h
  dsimp only at h
  split at h
  · rw [Except.pure_eq_ok] at h
    cases h
    refine ⟨uncompleted (env.withJson lib) st fallback (Work.start result₂), ?_, rfl, ?_⟩
    · rw [beforeCompletion, h₁, Except.ok_bind]
      dsimp only
      rw [h₂]
      rfl
    · exact completed_blameless_iff hwf hlabelled
        (uncompleted_counted _ hwf fallback (start_sound hwf h₁ h₂))
  · exact absurd h Except.throw_ne_ok

/-- The library on ASCII and Chinese texts, with the digests of the texts of `waitingLog`. -/
def waitingEnv : Env where
  __ := chainEnv
  sha256Hex := fun text => py (
    if text = py "disk full" then
      "8c96d76f620269be0f4cbc27e6cb594426729e32474260ef82eb6fc24b2cba2f"
    else
      "6c8727b027cf82d96d4ddd38c716574dfeca335378dd7d20ca0daf15910e1e4f")

/-- A log of two entries, the second of which ends with a preposition. -/
def waitingLog : PyStr := py "disk full\nwaiting for"

/-- A result about the first of them. -/
def waitingResult : Json.Fields :=
  [(py "summary_en", literal "The disk is full. Nothing else is known."),
    (py "summary_zh", literal "磁盘已满。没有其他信息。"),
    (py "key_finds", .arr [.obj
      [(py "id", literal "f1"), (py "label_en", literal "Disk"), (py "label_zh", literal "磁盘"),
        (py "pattern_ids", .arr [literal "p-8c96d76f6202"]),
        (py "detail_en", literal "The disk is full."), (py "detail_zh", literal "磁盘已满。")]]),
    (py "secondary_finds", .arr [])]

lemma not_namesEvidence_waitingResult : ∀ f ∈ findings waitingResult, ¬ NamesEvidence f := by
  rintro f hf ⟨fields, rfl, hkey⟩
  have hnone : ∀ g ∈ findings waitingResult, hasEvidence g = .ok false := by decide
  have hnames := hnone _ hf
  rw [hasEvidence, (Dict.contains_iff fields _).mpr hkey] at hnames
  cases hnames

/-- It is accepted without the announcement of the second entry, and rejected with it. -/
lemma exists_waitingResult_run :
    ∃ st out left, preprocessLog (waitingEnv.withJson sampleLib) waitingLog = .ok st ∧
      reconcileResult (waitingEnv.withJson sampleLib) st false waitingResult = .ok (out, left) ∧
      ((beforeCompletion (waitingEnv.withJson sampleLib) st false waitingResult).toOption.any
        fun w =>
          let w' := completed (waitingEnv.withJson sampleLib) st false w
          (validateLogTriageResult (waitingEnv.withJson sampleLib) []
              ((w'.before w.next).doc.read w'.heap)).toBool &&
            !(validateLogTriageResult (waitingEnv.withJson sampleLib) []
              (w'.doc.read w'.heap)).toBool) = true :=
  exists_run (waitingEnv.withJson sampleLib) waitingLog false waitingResult _ (by decide +kernel)

/-- `reconcileResult_blameless_iff` speaks about `waitingResult`. -/
theorem waitingResult_blameless_iff :
    ∃ st out left w, preprocessLog (waitingEnv.withJson sampleLib) waitingLog = .ok st ∧
      reconcileResult (waitingEnv.withJson sampleLib) st false waitingResult = .ok (out, left) ∧
      beforeCompletion (waitingEnv.withJson sampleLib) st false waitingResult = .ok w ∧
      (Blameless (waitingEnv.withJson sampleLib) [] w.next
          (completed (waitingEnv.withJson sampleLib) st false w) →
        ∀ group ∈ leftOut st w, ¬ Dangling (waitingEnv.withJson sampleLib)
          (descriptor (waitingEnv.withJson sampleLib) (announcedLabel st group))) := by
  obtain ⟨st, out, left, hst, h, -⟩ := exists_waitingResult_run
  obtain ⟨w, hw, -, hiff⟩ := reconcileResult_blameless_iff waitingEnv sampleLib waitingLog st hst
    false waitingResult out left not_namesEvidence_waitingResult h []
  exact ⟨st, out, left, w, hst, h, hw, fun hblameless => (hiff.mp hblameless).1⟩

/-- The announcement of an entry that ends with a preposition is why the result is rejected. -/
theorem waitingResult_not_blameless :
    ∃ st out left w, preprocessLog (waitingEnv.withJson sampleLib) waitingLog = .ok st ∧
      (∀ f ∈ findings waitingResult, ¬ NamesEvidence f) ∧
      reconcileResult (waitingEnv.withJson sampleLib) st false waitingResult = .ok (out, left) ∧
      beforeCompletion (waitingEnv.withJson sampleLib) st false waitingResult = .ok w ∧
      ¬ Blameless (waitingEnv.withJson sampleLib) [] w.next
        (completed (waitingEnv.withJson sampleLib) st false w) := by
  obtain ⟨st, out, left, hst, h, hrun⟩ := exists_waitingResult_run
  obtain ⟨w, hw, hrun⟩ := (Option.any_eq_true _ _).mp hrun
  refine ⟨st, out, left, w, hst, not_namesEvidence_waitingResult, h, Except.eq_ok_iff_toOption.mpr hw,
    fun hblameless => ?_⟩
  have htoBool : ∀ x : Except PyError Unit, x.toBool = true ↔ x = .ok () := by
    intro x
    cases x with
    | error e => exact iff_of_false (by simp [Except.toBool]) (by simp)
    | ok u => exact iff_of_true rfl rfl
  dsimp only at hrun
  rw [Bool.and_eq_true, Bool.not_eq_true', htoBool] at hrun
  have haccepted := (htoBool _).mpr (hblameless.accepted hrun.1)
  rw [hrun.2] at haccepted
  cases haccepted

end Triage

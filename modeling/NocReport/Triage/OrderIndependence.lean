import NocReport.Triage.EntryPartition

set_option relaxedAutoImplicit false
set_option autoImplicit false

/-!
# Reconciliation by entries does not depend on the order of the findings

A finding that names evidence claims whole families, and is rejected when an entry it names is
claimed already. So what it gets is what it would get alone, and the findings of a result are
accepted together when each of them is accepted alone and no two of them get the same entry.
None of this depends on an order.

## Main definitions

* `Triage.Closed` — families are claimed as wholes.
* `Triage.received` — what a finding becomes when it is alone.
* `Triage.Permuted` — the same findings, in another order.

## Main results

* `Triage.claimEntries_iff` — a finding claims what it claims alone, if that is free.
* `Triage.groupFindings_iff` — the loop over the findings, without an order.
* `Triage.reconcileEntryGrouped_permuted` — the order of the findings does not matter.
-/

namespace Triage

variable {env : Env} {st : Statistics}

/-! ## One finding -/

/-- With an entry all entries of its family are claimed. -/
def Closed (st : Statistics) (claimed : List ℕ) : Prop :=
  ∀ e ∈ st.entryManifest, ∀ e' ∈ st.entryManifest, e.familyId = e'.familyId →
    e.id ∈ claimed → e'.id ∈ claimed

lemma closed_nil (st : Statistics) : Closed st [] := by
  intro _ _ _ _ _ h
  cases h

lemma Closed.append {ids ids' : List ℕ} (h : Closed st ids) (h' : Closed st ids') :
    Closed st (ids ++ ids') := by
  intro e he e' he' hsame hmem
  rw [List.mem_append] at hmem ⊢
  exact hmem.imp (h e he e' he' hsame) (h' e he e' he' hsame)

/-- What some entries are expanded to is whole families. -/
lemma closed_expandIds (hst : st.WellFormed) (ids : List ℕ) : Closed st (expandIds st [] ids) := by
  intro e he e' he' hsame hmem
  obtain ⟨-, i, hi, f, hf, rfl, f', hf', hfamily, hid⟩ := (mem_expandIds hst).mp hmem
  have hown : f' = e := List.inj_on_of_nodup_map (hst.ids ▸ List.nodup_range) hf' he hid
  subst hown
  exact (mem_expandIds hst).mpr
    ⟨List.not_mem_nil, f.id, hi, f, hf, rfl, e', he', hsame ▸ hfamily, rfl⟩

/-- Where families are claimed as wholes, what free entries are expanded to is free. -/
lemma free_expandIds (hst : st.WellFormed) {claimed ids : List ℕ} (hclosed : Closed st claimed)
    (hfree : ∀ id ∈ ids, id ∉ claimed) : ∀ id ∈ expandIds st [] ids, id ∉ claimed := by
  intro id hid hclaimed
  obtain ⟨-, i, hi, e, he, rfl, e', he', hsame, rfl⟩ := (mem_expandIds hst).mp hid
  exact hfree e.id hi (hclosed e' he' e he hsame hclaimed)

/-- What is claimed already does not matter to entries whose families are free. -/
lemma expandIds_of_free {claimed ids : List ℕ}
    (hfree : ∀ id ∈ expandIds st [] ids, id ∉ claimed) :
    expandIds st claimed ids = expandIds st [] ids := by
  have hkeep : ∀ id ∈ (ids.filterMap (Dict.get? (entryById st))).flatMap (expandEntry st),
      (!claimed.contains id) = true := by
    intro id hid
    have hmem : id ∈ expandIds st [] ids := by
      simpa [expandIds, List.mem_insertionSort] using hid
    simpa using hfree id hmem
  simp only [expandIds]
  rw [List.filter_eq_self.mpr hkeep, List.filter_eq_self.mpr (by simp)]

/-- **A finding claims what it claims alone**, if that is free. -/
lemma claimEntries_iff (hst : st.WellFormed) {claimed : List ℕ} (hclosed : Closed st claimed)
    {finding finding' : Json.Fields} {claimed' : List ℕ} :
    claimEntries env st claimed finding = .ok (finding', claimed') ↔
      ∃ ids, claimEntries env st [] finding = .ok (finding', ids) ∧ (∀ id ∈ ids, id ∉ claimed) ∧
        claimed' = claimed ++ ids := by
  simp only [claimEntries_eq_ok_iff]
  constructor
  · rintro ⟨ids, hids, hfree, hfinding, hout⟩
    have hexpanded := free_expandIds hst hclosed hfree
    rw [expandIds_of_free hexpanded] at hfinding hout
    exact ⟨_, ⟨ids, hids, fun _ _ => List.not_mem_nil, hfinding, (List.nil_append _).symm⟩,
      hexpanded, hout⟩
  · rintro ⟨-, ⟨ids, hids, -, hfinding, rfl⟩, hfree, hout⟩
    rw [List.nil_append] at hfree hout
    have hknown := (readEntryIds_spec hst hids).1
    rw [← expandIds_of_free hfree] at hfinding hout
    refine ⟨ids, hids, fun id hid => hfree id ?_, hfinding, hout⟩
    exact subset_expandIds hst hknown (fun _ _ => List.not_mem_nil) hid

/-- What a finding claims is whole families, and no entry twice. -/
lemma closed_of_claimEntries (hst : st.WellFormed) {finding finding' : Json.Fields} {ids : List ℕ}
    (h : claimEntries env st [] finding = .ok (finding', ids)) : Closed st ids ∧ ids.Nodup := by
  obtain ⟨named, -, -, -, rfl⟩ := claimEntries_eq_ok_iff.mp h
  exact ⟨closed_expandIds hst named, nodup_expandIds st [] named⟩

/-- The turn of a finding that names evidence. -/
lemma groupFinding_obj {fields : Json.Fields}
    (hkey : py "evidence_entry_ids" ∈ Dict.keys fields) {claimed claimed' : List ℕ}
    {finding' : Json} :
    groupFinding env st claimed (.obj fields) = .ok (finding', claimed') ↔
      ∃ fields', finding' = .obj fields' ∧
        claimEntries env st claimed fields = .ok (fields', claimed') := by
  have hnames : hasEvidence (.obj fields) = .ok true := by
    rw [hasEvidence, (Dict.contains_iff fields _).mpr hkey]
    rfl
  constructor
  · intro h
    obtain ⟨fields₁, fields', heq, rfl, hclaim⟩ := groupFinding_eq_ok ⟨fields, rfl, hkey⟩ h
    cases heq
    exact ⟨fields', rfl, hclaim⟩
  · rintro ⟨fields', rfl, hclaim⟩
    rw [groupFinding, hnames]
    simp only [Except.ok_bind, if_true, hclaim]
    rfl

/-- The turn of a finding is its turn alone, if what it claims then is free. -/
lemma groupFinding_iff (hst : st.WellFormed) {claimed claimed' : List ℕ} {finding finding' : Json}
    (hev : NamesEvidence finding) (hclosed : Closed st claimed) :
    groupFinding env st claimed finding = .ok (finding', claimed') ↔
      ∃ ids, groupFinding env st [] finding = .ok (finding', ids) ∧ (∀ id ∈ ids, id ∉ claimed) ∧
        claimed' = claimed ++ ids := by
  obtain ⟨fields, rfl, hkey⟩ := hev
  simp only [groupFinding_obj hkey, claimEntries_iff hst hclosed]
  constructor
  · rintro ⟨fields', rfl, ids, hclaim, hfree, rfl⟩
    exact ⟨ids, ⟨fields', rfl, hclaim⟩, hfree, rfl⟩
  · rintro ⟨ids, ⟨fields', rfl, hclaim⟩, hfree, rfl⟩
    exact ⟨fields', rfl, ids, hclaim, hfree, rfl⟩

lemma closed_of_groupFinding (hst : st.WellFormed) {finding finding' : Json} {ids : List ℕ}
    (hev : NamesEvidence finding) (h : groupFinding env st [] finding = .ok (finding', ids)) :
    Closed st ids ∧ ids.Nodup := by
  obtain ⟨fields, fields', rfl, rfl, hclaim⟩ := groupFinding_eq_ok hev h
  exact closed_of_claimEntries hst hclaim

/-! ## All findings -/

/-- The findings `found` become, and what each of them claims, when each of them is alone. -/
abbrev Alone (env : Env) (st : Statistics) (found : List Json) (alone : List (Json × List ℕ)) :
    Prop :=
  List.Forall₂ (fun finding out => groupFinding env st [] finding = .ok out) found alone

/-- **The loop over the findings, without an order**: each finding is accepted alone, and no entry
is claimed twice. -/
lemma groupFindings_iff (hst : st.WellFormed) {claimed claimed' : List ℕ} {found found' : List Json}
    (hev : ∀ finding ∈ found, NamesEvidence finding) (hclosed : Closed st claimed)
    (hnodup : claimed.Nodup) :
    groupFindings env st claimed found = .ok (found', claimed') ↔
      ∃ alone, Alone env st found alone ∧ (claimed ++ alone.flatMap (·.2)).Nodup ∧
        found' = alone.map (·.1) ∧ claimed' = claimed ++ alone.flatMap (·.2) := by
  induction found generalizing claimed found' with
  | nil =>
    constructor
    · intro h
      cases h
      exact ⟨[], .nil, by simpa using hnodup, rfl, by simp⟩
    · rintro ⟨alone, halone, -, rfl, rfl⟩
      cases halone
      simp [groupFindings]
  | cons finding rest ih =>
    have hown := hev finding List.mem_cons_self
    have hrest := fun f hf => hev f (List.mem_cons_of_mem _ hf)
    constructor
    · intro h
      obtain ⟨finding', after, rest', hfinding, hloop, rfl⟩ := groupFindings_cons_eq_ok h
      obtain ⟨ids, halone, hfree, rfl⟩ := (groupFinding_iff hst hown hclosed).mp hfinding
      obtain ⟨hids, hidsNodup⟩ := closed_of_groupFinding hst hown halone
      have hafter : (claimed ++ ids).Nodup := List.nodup_append.mpr
        ⟨hnodup, hidsNodup, fun a ha b hb hab => hfree b hb (hab ▸ ha)⟩
      obtain ⟨alone, hothers, hdisjoint, rfl, rfl⟩ :=
        (ih hrest (hclosed.append hids) hafter).mp hloop
      exact ⟨(finding', ids) :: alone, .cons halone hothers, by simpa using hdisjoint, rfl,
        by simp⟩
    · rintro ⟨alone, halone, hdisjoint, rfl, rfl⟩
      cases halone with
      | @cons _ p _ alone hp hothers =>
        obtain ⟨finding', ids⟩ := p
        rw [List.flatMap_cons, ← List.append_assoc] at hdisjoint
        have hafter := (List.nodup_append.mp hdisjoint).1
        have hfree : ∀ id ∈ ids, id ∉ claimed := fun id hid hclaimed =>
          (List.nodup_append.mp hafter).2.2 id hclaimed id hid rfl
        have hfinding := (groupFinding_iff hst hown hclosed).mpr ⟨ids, hp, hfree, rfl⟩
        have hloop := (ih hrest (hclosed.append (closed_of_groupFinding hst hown hp).1) hafter).mpr
          ⟨alone, hothers, hdisjoint, rfl, by simp⟩
        rw [groupFindings, hfinding]
        dsimp only
        rw [hloop]
        rfl

/-- What a finding becomes when it is alone. -/
def received (env : Env) (st : Statistics) (finding : Json) : Json :=
  match groupFinding env st [] finding with
  | .ok out => out.1
  | .error _ => finding

/-- What a finding claims when it is alone. -/
def claimedAlone (env : Env) (st : Statistics) (finding : Json) : List ℕ :=
  match groupFinding env st [] finding with
  | .ok out => out.2
  | .error _ => []

lemma Alone.eq_map {found : List Json} {alone : List (Json × List ℕ)}
    (h : Alone env st found alone) :
    alone = found.map fun f => (received env st f, claimedAlone env st f) := by
  induction h with
  | nil => rfl
  | cons hout _ ih => simp [ih, received, claimedAlone, hout]

/-- The findings are accepted together: each of them is accepted alone, and no two of them claim
the same entry. -/
structure AcceptedTogether (env : Env) (st : Statistics) (found : List Json) : Prop where
  alone : ∀ finding ∈ found, ∃ out, groupFinding env st [] finding = .ok out
  disjoint : (found.flatMap (claimedAlone env st)).Nodup

/-- Being accepted together does not depend on an order. -/
lemma AcceptedTogether.perm {found found' : List Json} (h : AcceptedTogether env st found)
    (hperm : found.Perm found') : AcceptedTogether env st found' where
  alone := fun finding hf => h.alone finding (hperm.mem_iff.mpr hf)
  disjoint := (hperm.flatMap_right _).nodup_iff.mp h.disjoint

/-- The loop over all findings accepts those that are accepted together. -/
lemma groupFindings_iff_acceptedTogether (hst : st.WellFormed) {found found' : List Json}
    {claimed : List ℕ} (hev : ∀ finding ∈ found, NamesEvidence finding) :
    groupFindings env st [] found = .ok (found', claimed) ↔
      AcceptedTogether env st found ∧ found' = found.map (received env st) ∧
        claimed = found.flatMap (claimedAlone env st) := by
  rw [groupFindings_iff hst hev (closed_nil st) List.nodup_nil]
  simp only [List.nil_append]
  constructor
  · rintro ⟨alone, halone, hnodup, rfl, rfl⟩
    have hmap := halone.eq_map
    have hclaimed : alone.flatMap (·.2) = found.flatMap (claimedAlone env st) := by
      rw [hmap, List.flatMap_map]
    refine ⟨⟨fun f hf => ?_, hclaimed ▸ hnodup⟩, ?_, hclaimed⟩
    · obtain ⟨out, -, hout⟩ := halone.exists_right hf
      exact ⟨out, hout⟩
    · rw [hmap, List.map_map]
      rfl
  · rintro ⟨⟨halone, hnodup⟩, rfl, rfl⟩
    refine ⟨found.map fun f => (received env st f, claimedAlone env st f), ?_, ?_, ?_, ?_⟩
    · rw [Alone, List.forall₂_map_right_iff, List.forall₂_same]
      intro f hf
      obtain ⟨out, hout⟩ := halone f hf
      rw [received, claimedAlone, hout]
    · rwa [List.flatMap_map]
    · rw [List.map_map]
      rfl
    · rw [List.flatMap_map]

/-! ## A result -/

/-- A group of two results: a list in both, or else the same value. -/
def SameKind (result result' : Json.Fields) (name : PyStr) : Prop :=
  IsList result name ∧ IsList result' name ∨ Dict.get? result' name = Dict.get? result name

/-- The same findings, in another order: each group is a list in both results, or else the same
value, and the findings of the one are those of the other. -/
structure Permuted (result result' : Json.Fields) : Prop where
  groups : ∀ name ∈ groupNames, SameKind result result' name
  findings : (findings result).Perm (findings result')

lemma IsList.sameKind {result result' : Json.Fields} {name : PyStr} (h : IsList result name)
    (hkind : SameKind result result' name) : IsList result' name := by
  rcases hkind with hlists | hsame
  · exact hlists.2
  · exact (isList_congr hsame).mpr h

lemma SameKind.congr {result result' out out' : Json.Fields} {name : PyStr}
    (h : SameKind result result' name) (hout : Dict.get? out name = Dict.get? result name)
    (hout' : Dict.get? out' name = Dict.get? result' name) : SameKind out out' name := by
  unfold SameKind at h ⊢
  rw [isList_congr hout, isList_congr hout', hout, hout']
  exact h

lemma Permuted.symm {result result' : Json.Fields} (h : Permuted result result') :
    Permuted result' result where
  groups := fun name hname => (h.groups name hname).imp And.symm Eq.symm
  findings := h.findings.symm

/-- The loop over the texts a value that is no list is iterated as, from any start. -/
lemma foldlM_texts {items : List Json} (hitems : ∀ v ∈ items, ∃ s, v = .str s)
    {start after : Json × List ℕ}
    (h : items.foldlM (groupFinding env st ·.2 ·) start = .ok after) (start' : Json × List ℕ) :
    ∃ after', items.foldlM (groupFinding env st ·.2 ·) start' = .ok after' := by
  induction items generalizing start start' with
  | nil => exact ⟨start', rfl⟩
  | cons v items ih =>
    obtain ⟨s, rfl⟩ := hitems v List.mem_cons_self
    rw [List.foldlM_cons] at h
    obtain ⟨between, hstep, h⟩ := Except.bind_eq_ok.mp h
    obtain ⟨named, hnamed, hstep⟩ := Except.bind_eq_ok.mp hstep
    have hrest := ih (fun v hv => hitems v (List.mem_cons_of_mem _ hv)) h (.str s, start'.2)
    obtain ⟨after', hafter⟩ := hrest
    refine ⟨after', ?_⟩
    rw [List.foldlM_cons]
    cases named with
    | true =>
      rw [if_pos rfl] at hstep
      exact absurd hstep Except.throw_ne_ok
    | false =>
      have hturn : groupFinding env st start'.2 (.str s) = .ok (.str s, start'.2) := by
        unfold groupFinding
        rw [hnamed]
        rfl
      rw [hturn]
      exact hafter

/-- The loop over a group that is a list is the loop over its findings. -/
lemma exists_reconcileGroup_of_list {result : Json.Fields} {name : PyStr} {items found : List Json}
    {claimed after : List ℕ} (hitems : result.getD name (.arr []) = .arr items)
    (h : groupFindings env st claimed items = .ok (found, after)) :
    ∃ out, reconcileGroup env st result claimed name = .ok (out, after) := by
  unfold Json.Fields.getD at hitems
  unfold reconcileGroup
  cases hget : Dict.get? result name with
  | none =>
    rw [hget] at hitems
    cases hitems
    cases h
    exact ⟨result, rfl⟩
  | some v =>
    rw [hget, Option.getD_some] at hitems
    subst hitems
    dsimp only
    rw [h]
    exact ⟨_, rfl⟩

/-- The loop over a group that is no list leaves the result as it is. -/
lemma reconcileGroup_of_ne {result : Json.Fields} {name : PyStr} {v : Json}
    (hne : ∀ xs, v ≠ .arr xs) (hget : Dict.get? result name = some v) (claimed : List ℕ) :
    reconcileGroup env st result claimed name =
      match v.iter >>= fun items =>
        items.foldlM (groupFinding env st ·.2 ·) (.null, claimed) with
      | .error e => .error (e, result)
      | .ok (_, claimed) => .ok (result, claimed) := by
  unfold reconcileGroup
  rw [hget]
  cases v with
  | arr xs => exact absurd rfl (hne xs)
  | null | bool | int | float | str | obj => rfl

/-- The loop over a group that is no list claims nothing, from any start. -/
lemma exists_reconcileGroup_of_ne {result result' out : Json.Fields} {name : PyStr} {v : Json}
    {claimed after : List ℕ} (hne : ∀ xs, v ≠ .arr xs) (hget : Dict.get? result name = some v)
    (hget' : Dict.get? result' name = some v)
    (h : reconcileGroup env st result claimed name = .ok (out, after)) (claimed' : List ℕ) :
    ∃ out', reconcileGroup env st result' claimed' name = .ok (out', claimed') := by
  rw [reconcileGroup_of_ne hne hget] at h
  rw [reconcileGroup_of_ne hne hget']
  split at h
  · cases h
  · next after hafter =>
    obtain ⟨items, hiter, hafter⟩ := Except.bind_eq_ok.mp hafter
    have htexts := texts_of_iter hne hiter
    obtain ⟨after', hafter'⟩ := foldlM_texts htexts hafter (.null, claimed')
    have hclaimed := groupFindings_texts htexts hafter'
    rw [hiter]
    simp only [Except.ok_bind, hafter']
    exact ⟨result', by rw [hclaimed]⟩

/-- The loop over one group succeeds with the loop over its findings, if it does so for a group
that is of the same kind. -/
lemma exists_reconcileGroup {result result' out : Json.Fields} {name : PyStr}
    {claimed claimed' after after' : List ℕ} {found : List Json}
    (hgroup : SameKind result result' name)
    (h : reconcileGroup env st result claimed name = .ok (out, after))
    (hloop : groupFindings env st claimed' (groupItems result' name) = .ok (found, after')) :
    ∃ out', reconcileGroup env st result' claimed' name = .ok (out', after') := by
  have hlist : ∀ items, result'.getD name (.arr []) = .arr items →
      ∃ out', reconcileGroup env st result' claimed' name = .ok (out', after') := by
    intro items hitems
    rw [groupItems_of_getD hitems] at hloop
    exact exists_reconcileGroup_of_list hitems hloop
  rcases hgroup with ⟨-, items', hitems'⟩ | hsame
  · exact hlist items' hitems'
  · cases hget : Dict.get? result' name with
    | none => exact hlist [] (by simp [Json.Fields.getD, hget])
    | some v =>
      cases v with
      | arr xs => exact hlist xs (by simp [Json.Fields.getD, hget])
      | null | bool | int | float | str | obj =>
        have hitems : groupItems result' name = [] := by
          simp [groupItems, Json.Fields.get, Json.Fields.getD, hget]
        rw [hitems] at hloop
        cases hloop
        exact exists_reconcileGroup_of_ne (by rintro _ ⟨⟩) (hsame ▸ hget) hget h claimed'

/-- Findings are appended where there is a list to append them to. -/
lemma exists_appendUnclaimed {result : Json.Fields} {claimed : List ℕ}
    {appended : List Json.Fields} (happended : appendedFindings env st claimed = .ok appended)
    (hlist : appended ≠ [] → IsList result (py "secondary_finds")) :
    ∃ out, appendUnclaimed env st result claimed = .ok out := by
  unfold appendUnclaimed
  rw [happended]
  cases appended with
  | nil => exact ⟨result, rfl⟩
  | cons finding rest =>
    obtain ⟨items, hitems⟩ := hlist (List.cons_ne_nil _ _)
    dsimp only
    rw [hitems]
    exact ⟨_, rfl⟩

/-! ## The whole -/

/-- How the groups of a result come out: every finding becomes what it would become alone, and the
findings for the entries nobody claims come last. -/
structure GroupsReceived (env : Env) (st : Statistics) (result out : Json.Fields)
    (appended : List Json.Fields) : Prop where
  keyFinds : groupItems out (py "key_finds") =
    (groupItems result (py "key_finds")).map (received env st)
  secondaryFinds : groupItems out (py "secondary_finds") =
    (groupItems result (py "secondary_finds")).map (received env st) ++ appended.map .obj

/-- The appended findings depend on which entries are claimed, not on an order. -/
lemma appendedFindings_perm {claimed claimed' : List ℕ} (h : claimed.Perm claimed') :
    appendedFindings env st claimed' = appendedFindings env st claimed := by
  have hcontains : ∀ id, claimed'.contains id = claimed.contains id := by
    intro id
    rw [List.contains_eq_mem, List.contains_eq_mem, decide_eq_decide]
    exact h.mem_iff.symm
  have hunclaimed : unclaimedIds st claimed' = unclaimedIds st claimed := by
    simp only [unclaimedIds, hcontains]
  have hfamilies : unclaimedByFamily st claimed' = unclaimedByFamily st claimed := by
    rw [unclaimedByFamily, unclaimedByFamily, hunclaimed]
  unfold appendedFindings
  rw [hfamilies]

/-- The loop over two lists is the loop over the first and then over the second. -/
lemma groupFindings_append_eq_ok {claimed claimed' : List ℕ} {found rest all : List Json}
    (h : groupFindings env st claimed (found ++ rest) = .ok (all, claimed')) :
    ∃ found' between rest', groupFindings env st claimed found = .ok (found', between) ∧
      groupFindings env st between rest = .ok (rest', claimed') := by
  induction found generalizing claimed all with
  | nil => exact ⟨[], claimed, all, rfl, h⟩
  | cons finding found ih =>
    obtain ⟨finding', after, all', hfinding, hloop, rfl⟩ := groupFindings_cons_eq_ok h
    obtain ⟨found', between, rest', hfound, hrest⟩ := ih hloop
    refine ⟨finding' :: found', between, rest', ?_, hrest⟩
    rw [groupFindings, hfinding]
    dsimp only
    rw [hfound]

/-- What an accepted result comes out as, without an order. -/
lemma groupsReceived (hst : st.WellFormed) {result out : Json.Fields}
    (hev : ∀ finding ∈ findings result, NamesEvidence finding)
    (h : reconcileEntryGrouped env st result = .ok out) :
    AcceptedTogether env st (findings result) ∧
      ∃ appended, appendedFindings env st ((findings result).flatMap (claimedAlone env st)) =
          .ok appended ∧
        GroupsReceived env st result out appended := by
  obtain ⟨between, claimed, appended, hkey, ⟨secondary, hsecondary, hout⟩, happended⟩ :=
    reconcileEntryGrouped_groups h
  have hall := groupFindings_append hkey hsecondary
  rw [← findings_eq] at hall
  obtain ⟨htogether, hreceived, hclaimed⟩ := (groupFindings_iff_acceptedTogether hst hev).mp hall
  have hevKey : ∀ f ∈ groupItems result (py "key_finds"), NamesEvidence f := by
    intro f hf
    exact hev f (findings_eq result ▸ List.mem_append_left _ hf)
  obtain ⟨-, hkeyReceived, -⟩ := (groupFindings_iff_acceptedTogether hst hevKey).mp hkey
  rw [findings_eq, List.map_append, hkeyReceived] at hreceived
  have hsecondaryReceived := List.append_cancel_left hreceived
  refine ⟨htogether, appended, hclaimed ▸ happended, hkeyReceived, ?_⟩
  rw [hout, hsecondaryReceived]

/-- A result is accepted with the results that have its findings in another order. -/
lemma exists_reconcileEntryGrouped (hst : st.WellFormed) {result result' out : Json.Fields}
    (hperm : Permuted result result') (hev : ∀ finding ∈ findings result, NamesEvidence finding)
    (h : reconcileEntryGrouped env st result = .ok out) :
    ∃ out', reconcileEntryGrouped env st result' = .ok out' := by
  obtain ⟨⟨result₁, between⟩, h₁, h⟩ := Except.bind_eq_ok.mp h
  obtain ⟨⟨result₂, claimed⟩, h₂, h⟩ := Except.bind_eq_ok.mp h
  obtain ⟨result₃, h₃, -⟩ := Except.bind_eq_ok.mp h
  obtain ⟨hloop₁, hframe⟩ := reconcileGroup_eq_ok h₁
  obtain ⟨hloop₂, -⟩ := reconcileGroup_eq_ok h₂
  obtain ⟨appended, happended, hlist, -⟩ := appendUnclaimed_eq_ok h₃
  specialize hframe (py "secondary_finds") (by simp)
  rw [groupItems_of_get? hframe] at hloop₂
  have hloop := groupFindings_append hloop₁ hloop₂
  rw [← findings_eq] at hloop
  obtain ⟨htogether, -, rfl⟩ := (groupFindings_iff_acceptedTogether hst hev).mp hloop
  -- the findings of the other result take their turns
  have hev' : ∀ finding ∈ findings result', NamesEvidence finding := fun f hf =>
    hev f (hperm.findings.mem_iff.mpr hf)
  have hloop' := (groupFindings_iff_acceptedTogether hst hev').mpr
    ⟨htogether.perm hperm.findings, rfl, rfl⟩
  rw [findings_eq] at hloop'
  obtain ⟨key, between', secondary, hkey, hsecondary⟩ := groupFindings_append_eq_ok hloop'
  rw [← findings_eq] at hsecondary
  obtain ⟨out₁, hout₁⟩ := exists_reconcileGroup
    (hperm.groups (py "key_finds") (by simp [groupNames])) h₁ hkey
  have hframe' := (reconcileGroup_eq_ok hout₁).2 (py "secondary_finds") (by simp)
  have hkind := (hperm.groups (py "secondary_finds") (by simp [groupNames])).congr hframe hframe'
  rw [← groupItems_of_get? hframe'] at hsecondary
  obtain ⟨out₂, hout₂⟩ := exists_reconcileGroup hkind h₂ hsecondary
  -- and what they leave is appended
  rw [← appendedFindings_perm (hperm.findings.flatMap_right (claimedAlone env st))] at happended
  have hlist' : appended ≠ [] → IsList out₂ (py "secondary_finds") := by
    intro hne
    have h := ((isList_reconcileGroup h₂).mp (hlist hne)).sameKind hkind
    exact (isList_reconcileGroup hout₂).mpr h
  obtain ⟨out₃, hout₃⟩ := exists_appendUnclaimed happended hlist'
  refine ⟨Dict.set out₃ (py "total_entries") (.int st.totalEntries), ?_⟩
  rw [reconcileEntryGrouped, hout₁, Except.ok_bind]
  dsimp only
  rw [hout₂, Except.ok_bind]
  dsimp only
  rw [hout₃]
  rfl

/-- **The order of the findings does not matter.** For every log, every model result whose findings
name evidence and every result with the same findings in another order, within the groups and
across them: the one is accepted if and only if the other is, and then every finding gets the same
entries and counts, and the same findings are appended. -/
theorem reconcileEntryGrouped_permuted (env : Env) (logText : PyStr) (st : Statistics)
    (hst : preprocessLog env logText = .ok st) (result result' : Json.Fields)
    (hperm : Permuted result result') (hev : ∀ finding ∈ findings result, NamesEvidence finding) :
    ((∃ out, reconcileEntryGrouped env st result = .ok out) ↔
        ∃ out', reconcileEntryGrouped env st result' = .ok out') ∧
      ∀ out out', reconcileEntryGrouped env st result = .ok out →
        reconcileEntryGrouped env st result' = .ok out' →
        ∃ appended, GroupsReceived env st result out appended ∧
          GroupsReceived env st result' out' appended := by
  have hwf := preprocessLog_wellFormed hst
  have hev' : ∀ finding ∈ findings result', NamesEvidence finding := fun f hf =>
    hev f (hperm.findings.mem_iff.mpr hf)
  refine ⟨⟨fun ⟨_, h⟩ => ?_, fun ⟨_, h⟩ => ?_⟩, fun out out' h h' => ?_⟩
  · exact exists_reconcileEntryGrouped hwf hperm hev h
  · exact exists_reconcileEntryGrouped hwf hperm.symm hev' h
  · obtain ⟨-, appended, happended, hgroups⟩ := groupsReceived hwf hev h
    obtain ⟨-, appended', happended', hgroups'⟩ := groupsReceived hwf hev' h'
    rw [appendedFindings_perm (hperm.findings.flatMap_right (claimedAlone env st)), happended,
      Except.ok.injEq] at happended'
    exact ⟨appended, hgroups, happended' ▸ hgroups'⟩

/-- A finding about one entry of `sampleLog`. -/
def entryFinding (id : String) (entry : ℤ) : Json :=
  .obj [(py "id", literal id), (py "evidence_entry_ids", .arr [.int entry])]

/-- A finding for each of the entries of `sampleLog`. -/
def orderedResult : Json.Fields :=
  [(py "key_finds", .arr [entryFinding "f1" 0, entryFinding "f2" 1])]

/-- The findings of `orderedResult`, the first of them in the other group. -/
def reorderedResult : Json.Fields :=
  [(py "key_finds", .arr [entryFinding "f2" 1]), (py "secondary_finds", .arr [entryFinding "f1" 0])]

/-- `reconcileEntryGrouped_permuted` speaks about `orderedResult` and `reorderedResult`. -/
theorem reorderedResult_permuted :
    ∃ st out out' appended, preprocessLog sampleEnv sampleLog = .ok st ∧
      reconcileEntryGrouped sampleEnv st orderedResult = .ok out ∧
      reconcileEntryGrouped sampleEnv st reorderedResult = .ok out' ∧
      GroupsReceived sampleEnv st orderedResult out appended ∧
      GroupsReceived sampleEnv st reorderedResult out' appended := by
  have hev : ∀ finding ∈ findings orderedResult, NamesEvidence finding := by
    intro f hf
    have hmem : f ∈ [entryFinding "f1" 0, entryFinding "f2" 1] := hf
    simp only [List.mem_cons, List.not_mem_nil, or_false] at hmem
    rcases hmem with rfl | rfl
    · exact ⟨_, rfl, by decide⟩
    · exact ⟨_, rfl, by decide⟩
  have hperm : Permuted orderedResult reorderedResult := by
    constructor
    · intro name hname
      simp only [groupNames, List.mem_cons, List.not_mem_nil, or_false] at hname
      rcases hname with rfl | rfl
      · exact .inl ⟨⟨_, rfl⟩, ⟨_, rfl⟩⟩
      · exact .inl ⟨⟨_, rfl⟩, ⟨_, rfl⟩⟩
    · exact List.Perm.swap _ _ []
  obtain ⟨st, out, left, hst, hrun, -⟩ := exists_run sampleEnv sampleLog false orderedResult
    (fun _ _ => true) (by decide +kernel)
  have hne : findings orderedResult ≠ [] := by decide
  have hout := reconcileEntryGrouped_of_namesEvidence hne hev hrun
  obtain ⟨hiff, hsame⟩ :=
    reconcileEntryGrouped_permuted sampleEnv sampleLog st hst orderedResult reorderedResult hperm hev
  obtain ⟨out', hout'⟩ := hiff.mp ⟨out, hout⟩
  obtain ⟨appended, hgroups, hgroups'⟩ := hsame out out' hout hout'
  exact ⟨st, out, out', appended, hst, hout, hout', hgroups, hgroups'⟩

end Triage

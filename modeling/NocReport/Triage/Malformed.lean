import NocReport.Foundation.Raises
import NocReport.Triage.PatternConservation

set_option relaxedAutoImplicit false
set_option autoImplicit false

/-!
# What reconciliation cannot read

`reconcile_result` runs on the answer of a model before anything is known about its shape. A
`ValueError` says that the answer is wrong; any other exception says that the code has met a value
it cannot read. Where it meets one is settled here, for every JSON object.

## Main definitions

* `Triage.met` — the findings the loops go through.
* `Triage.claimTurn`, `Triage.assignTurn` — what the turns of the two loops carry.
* `Triage.WellShaped`, `Triage.FallbackShaped` — every finding an attempt reaches can be read.

## Main results

* `Triage.raises_strict_iff` — a strict attempt raises only `ValueError`s exactly when it reaches no
  finding that it cannot read.
* `Triage.raises_fallback_iff` — the same for a fallback attempt, which contains more exceptions.
-/

namespace Triage

/-! ## The findings that are met -/

/-- The elements of a group. What cannot be iterated stands for itself, as an element that cannot
be read. -/
def groupElements (v : Json) : List Json :=
  match v.iter with
  | .ok items => items
  | .error _ => [v]

/-- The findings of both groups, whatever they are. -/
def met (result : Json.Fields) : List Json :=
  groupNames.flatMap fun name => groupElements (result.getD name (.arr []))

/-- The exceptions that say that an answer is wrong. -/
def isValueError : PyError → Bool
  | .valueError _ => true
  | .custom cls _ => cls == py "OutputValidationError"
  | _ => false

/-- The exceptions a fallback attempt contains. -/
def isContained : PyError → Bool
  | .keyError | .typeError => true
  | e => isValueError e

lemma isContained_of_isValueError {e : PyError} (h : isValueError e = true) :
    isContained e = true := by
  cases e with
  | keyError | typeError | attributeError | overflowError | valueError => first | exact h | rfl
  | custom cls message => exact h

lemma isValueError_of_isContained {e : PyError} (h : isContained e = false) :
    isValueError e = false := by
  by_contra hvalue
  rw [isContained_of_isValueError (Bool.eq_true_of_not_eq_false hvalue)] at h
  cases h

lemma hasEvidence_of_iter {v : Json} {e : PyError} (h : v.iter = .error e) :
    e = .typeError ∧ hasEvidence v = .error .typeError := by
  cases v with
  | null | bool | int | float =>
    cases h
    exact ⟨rfl, rfl⟩
  | arr | obj | str => cases h

/-- What cannot be asked for evidence. -/
lemma eq_typeError_of_hasEvidence {finding : Json} {e : PyError}
    (h : hasEvidence finding = .error e) : e = .typeError := by
  cases finding with
  | null | bool | int | float =>
    cases h
    rfl
  | arr | obj | str => cases h

lemma anyEvidence_append (xs ys : List Json) :
    anyEvidence (xs ++ ys) =
      anyEvidence xs >>= fun found => if found then pure true else anyEvidence ys := by
  induction xs with
  | nil => rfl
  | cons x xs ih =>
    rw [List.cons_append, anyEvidence, anyEvidence]
    cases hasEvidence x with
    | error e => rfl
    | ok b =>
      cases b with
      | true => rfl
      | false => exact ih

/-- The test for evidence goes through the findings that are met. -/
lemma iterGroups_eq (result : Json.Fields) :
    iterGroups result groupNames = anyEvidence (met result) := by
  have hgroups : ∀ names : List PyStr, iterGroups result names =
      anyEvidence (names.flatMap fun name => groupElements (result.getD name (.arr []))) := by
    intro names
    induction names with
    | nil => rfl
    | cons name names ih =>
      rw [iterGroups, List.flatMap_cons, anyEvidence_append, ← ih, groupElements]
      cases h : (result.getD name (.arr [])).iter with
      | ok items => rfl
      | error e =>
        obtain ⟨rfl, hev⟩ := hasEvidence_of_iter h
        rw [anyEvidence, hev]
        rfl
  exact hgroups groupNames

/-- When the test for evidence raises. -/
lemma anyEvidence_eq_error_iff {found : List Json} {e : PyError} :
    anyEvidence found = .error e ↔ ∃ before x after, found = before ++ x :: after ∧
      (∀ y ∈ before, hasEvidence y = .ok false) ∧ hasEvidence x = .error e := by
  induction found with
  | nil => simp [anyEvidence, pure, Except.pure]
  | cons x found ih =>
    rw [anyEvidence, Except.bind_eq_error]
    constructor
    · rintro (h | ⟨b, hb, h⟩)
      · exact ⟨[], x, found, rfl, by simp, h⟩
      · cases b with
        | true => exact absurd h Except.pure_ne_error
        | false =>
          obtain ⟨before, y, after, rfl, hbefore, hy⟩ := ih.mp h
          exact ⟨x :: before, y, after, rfl, List.forall_mem_cons.mpr ⟨hb, hbefore⟩, hy⟩
    · rintro ⟨before, y, after, hfound, hbefore, hy⟩
      cases before with
      | nil =>
        obtain ⟨rfl, -⟩ := List.cons.inj hfound
        exact .inl hy
      | cons z before =>
        obtain ⟨rfl, rfl⟩ := List.cons.inj hfound
        obtain ⟨hx, hbefore⟩ := List.forall_mem_cons.mp hbefore
        refine .inr ⟨false, hx, ?_⟩
        rw [if_neg (by simp)]
        exact ih.mpr ⟨before, y, after, rfl, hbefore, hy⟩

section Entries

variable {env : Env} {st : Statistics}

/-! ## The loop over the entries of findings -/

/-- What a turn of the loop over the findings claims. -/
def claimTurn (env : Env) (st : Statistics) (claimed : List ℕ) (finding : Json) :
    Except PyError (List ℕ) :=
  (groupFinding env st claimed finding).map (·.2)

/-- What is left of an exception without the object left behind. -/
def raised {α β : Type} (x : Except (Failure α) β) : Except PyError β := x.mapError (·.1)

lemma raised_eq_error {α β : Type} {x : Except (Failure α) β} {e : PyError} :
    raised x = .error e ↔ ∃ left, x = .error (e, left) := by
  cases x with
  | error f =>
    obtain ⟨e', left⟩ := f
    simp [raised, Except.mapError]
  | ok b => simp [raised, Except.mapError]

lemma raised_eq_ok {α β : Type} {x : Except (Failure α) β} {b : β} :
    raised x = .ok b ↔ x = .ok b := by
  cases x <;> simp [raised, Except.mapError]

lemma groupFindings_claimed (claimed : List ℕ) (found : List Json) :
    raised ((groupFindings env st claimed found).map (·.2)) =
      found.foldlM (claimTurn env st) claimed := by
  induction found generalizing claimed with
  | nil => rfl
  | cons x found ih =>
    rw [groupFindings, List.foldlM_cons, claimTurn]
    cases groupFinding env st claimed x with
    | error e => rfl
    | ok out =>
      obtain ⟨x', after⟩ := out
      have hrest := ih after
      dsimp only
      rw [Except.map, Except.ok_bind, ← hrest]
      cases groupFindings env st after found with
      | error f => rfl
      | ok out => rfl

lemma foldlM_groupFinding_claimed (v : Json) (claimed : List ℕ) (found : List Json) :
    (found.foldlM (groupFinding env st ·.2 ·) (v, claimed)).map (·.2) =
      found.foldlM (claimTurn env st) claimed := by
  induction found generalizing v claimed with
  | nil => rfl
  | cons x found ih =>
    rw [List.foldlM_cons, List.foldlM_cons, claimTurn]
    cases groupFinding env st claimed x with
    | error e => rfl
    | ok out => exact ih out.1 out.2

variable (env st) in
/-- What the loop over one group claims, and raises. -/
lemma reconcileGroup_claimed (result : Json.Fields) (claimed : List ℕ) (name : PyStr) :
    raised ((reconcileGroup env st result claimed name).map (·.2)) =
      (groupElements (result.getD name (.arr []))).foldlM (claimTurn env st) claimed := by
  unfold reconcileGroup
  split
  · next hnone =>
    have helements : result.getD name (.arr []) = .arr [] := by rw [Json.Fields.getD, hnone]; rfl
    rw [helements]
    rfl
  · next items hitems =>
    have helements : result.getD name (.arr []) = .arr items := by
      rw [Json.Fields.getD, hitems]
      rfl
    rw [helements]
    show _ = items.foldlM (claimTurn env st) claimed
    rw [← groupFindings_claimed]
    cases groupFindings env st claimed items with
    | error f => rfl
    | ok out => rfl
  · next v _ hv =>
    have helements : result.getD name (.arr []) = v := by rw [Json.Fields.getD, hv]; rfl
    rw [helements, groupElements]
    cases hiter : v.iter with
    | error e =>
      obtain ⟨rfl, hev⟩ := hasEvidence_of_iter hiter
      have hturn : claimTurn env st claimed v = .error .typeError := by
        unfold claimTurn groupFinding
        rw [hev]
        rfl
      show _ = [v].foldlM (claimTurn env st) claimed
      rw [List.foldlM_cons, hturn]
      rfl
    | ok items =>
      rw [Except.ok_bind]
      dsimp only
      rw [← foldlM_groupFinding_claimed .null]
      cases items.foldlM (groupFinding env st ·.2 ·) (.null, claimed) with
      | error e => rfl
      | ok out => rfl

lemma semanticPatternId_raises (findingId : Json) :
    (semanticPatternId env findingId).Raises fun e => isValueError e = true := by
  refine Except.Raises.bind ?_ fun _ _ => .pure _
  unfold shortDigest
  split
  · exact .pure _
  · exact .throw rfl

/-- Reading the ids among some elements raises only a `ValueError`. -/
lemma readIds_raises (items : List Json) :
    (do
      let ids ← items.mapM fun v => match asInt v with
        | some i => pure i
        | none => throw (.valueError (py "evidence_entry_ids must contain integer entry IDs"))
      ids.eraseDups.mapM fun i =>
        if 0 ≤ i ∧ Dict.contains (entryById st) i.toNat then pure i.toNat
        else throw (.valueError (py "unknown evidence entry id: " ++ .ofInt i)) :
      Except PyError (List ℕ)).Raises fun e => isValueError e = true := by
  refine Except.Raises.bind (.mapM fun v _ => ?_) fun ids _ => .mapM fun i _ => ?_
  · split
    · exact .pure _
    · exact .throw rfl
  · split
    · exact .pure _
    · exact .throw rfl

/-- Claiming raises only a `ValueError`. -/
lemma claimEntries_raises (claimed : List ℕ) (finding : Json.Fields) :
    (claimEntries env st claimed finding).Raises fun e => isValueError e = true := by
  have hread : (readEntryIds st (finding.get (py "evidence_entry_ids"))).Raises
      fun e => isValueError e = true := by
    unfold readEntryIds
    dsimp only
    split
    · exact readIds_raises _
    · exact Except.Raises.bind (.throw rfl) fun items _ => readIds_raises items
  refine hread.bind fun ids _ => ?_
  split
  · exact .throw rfl
  · dsimp only
    split
    · exact .pure _
    · exact (semanticPatternId_raises _).bind fun _ _ => .pure _

/-- What the loop over the entries of findings cannot read. -/
lemma claimTurn_eq_error_iff {claimed : List ℕ} {finding : Json} {e : PyError}
    (he : isValueError e = false) :
    claimTurn env st claimed finding = .error e ↔ hasEvidence finding = .error e ∨
      (hasEvidence finding = .ok true ∧ finding.isObject = false ∧ e = .attributeError) := by
  unfold claimTurn groupFinding
  cases hev : hasEvidence finding with
  | error e' => simp [bind, Except.bind, Except.map]
  | ok b =>
    cases b with
    | false => simp [bind, Except.bind, Except.map, pure, Except.pure]
    | true =>
      cases finding with
      | obj fields =>
        simp only [Except.ok_bind, if_true, reduceCtorEq, Json.isObject, Bool.true_eq_false,
          false_and, and_false, or_self, iff_false]
        intro h
        cases hclaim : claimEntries env st claimed fields with
        | error e' =>
          rw [hclaim] at h
          cases h
          exact absurd (claimEntries_raises claimed fields _ hclaim) (by simp [he])
        | ok out =>
          rw [hclaim] at h
          cases h
      | null | bool | int | float | str | arr =>
        simp [bind, Except.bind, Except.map, Json.isObject, throw, throwThe, MonadExceptOf.throw,
          eq_comm]

lemma appendedFindings_raises (claimed : List ℕ) :
    (appendedFindings env st claimed).Raises fun e => isValueError e = true := by
  have hone : ∀ id p ids, (appendedFinding env st id p ids).Raises
      fun e => isValueError e = true := fun id p ids =>
    (semanticPatternId_raises _).bind fun _ _ => .pure _
  unfold appendedFindings
  refine Except.Raises.bind (.mapM fun item _ => hone _ _ _) fun recovered _ => ?_
  dsimp only
  split
  · exact .pure _
  · exact (hone _ _ _).bind fun _ _ => .pure _

variable (env st) in
/-- What is appended cannot be put into what is no list. -/
lemma appendUnclaimed_eq_error_iff (claimed : List ℕ) (result : Json.Fields) {e : PyError}
    (he : isValueError e = false) :
    raised (appendUnclaimed env st result claimed) = .error e ↔
      (∃ appended, appended ≠ [] ∧ appendedFindings env st claimed = .ok appended) ∧
        ¬ IsList result (py "secondary_finds") ∧ e = .attributeError := by
  rw [raised_eq_error]
  unfold appendUnclaimed
  split
  · next e' happended =>
    constructor
    · rintro ⟨left, h⟩
      cases h
      exact absurd (appendedFindings_raises claimed _ happended) (by simp [he])
    · rintro ⟨⟨appended, -, h⟩, -⟩
      rw [happended] at h
      cases h
  · next happended =>
    constructor
    · rintro ⟨left, h⟩
      cases h
    · rintro ⟨⟨appended, hne, h⟩, -⟩
      rw [happended] at h
      cases h
      exact absurd rfl hne
  · next appended hne happended =>
    have hsome : ∃ appended, appended ≠ [] ∧ appendedFindings env st claimed = .ok appended :=
      ⟨appended, hne, happended⟩
    split
    · next items hitems =>
      constructor
      · rintro ⟨left, h⟩
        cases h
      · rintro ⟨-, hlist, -⟩
        exact absurd ⟨items, hitems⟩ hlist
    · next hlist =>
      constructor
      · rintro ⟨left, h⟩
        cases h
        refine ⟨hsome, ?_, rfl⟩
        rintro ⟨items, hitems⟩
        exact hlist items hitems
      · rintro ⟨-, -, rfl⟩
        exact ⟨result, rfl⟩

lemma met_eq (result : Json.Fields) :
    met result = groupElements (result.getD (py "key_finds") (.arr [])) ++
      groupElements (result.getD (py "secondary_finds") (.arr [])) := by
  simp [met, groupNames]

/-- The loop over the entries goes through the findings that are met, and then appends. -/
lemma reconcileEntryGrouped_eq_error_iff {result : Json.Fields} {e : PyError}
    (he : isValueError e = false) :
    raised (reconcileEntryGrouped env st result) = .error e ↔
      (met result).foldlM (claimTurn env st) [] = .error e ∨
        ∃ claimed, (met result).foldlM (claimTurn env st) [] = .ok claimed ∧
          (∃ appended, appended ≠ [] ∧ appendedFindings env st claimed = .ok appended) ∧
          ¬ IsList result (py "secondary_finds") ∧ e = .attributeError := by
  rw [met_eq, List.foldlM_append, reconcileEntryGrouped]
  have hkey := reconcileGroup_claimed env st result [] (py "key_finds")
  rw [← hkey]
  cases h₁ : reconcileGroup env st result [] (py "key_finds") with
  | error f =>
    simp [raised, Except.mapError, Except.map, bind, Except.bind]
  | ok out₁ =>
    obtain ⟨result₁, between⟩ := out₁
    have hframe := (reconcileGroup_eq_ok h₁).2 (py "secondary_finds") (by simp)
    have hsecondary := reconcileGroup_claimed env st result₁ between
      (py "secondary_finds")
    rw [Json.Fields.getD, hframe, ← Json.Fields.getD] at hsecondary
    simp only [Except.map, raised, Except.mapError, Except.ok_bind] at hsecondary ⊢
    rw [← hsecondary]
    cases h₂ : reconcileGroup env st result₁ between (py "secondary_finds") with
    | error f => simp [Except.bind, bind]
    | ok out₂ =>
      obtain ⟨result₂, claimed⟩ := out₂
      have hlist : IsList result₂ (py "secondary_finds") ↔ IsList result (py "secondary_finds") :=
        (isList_reconcileGroup h₂).trans (isList_congr hframe)
      have happend := appendUnclaimed_eq_error_iff env st claimed result₂ he
      rw [hlist] at happend
      simp only [reduceCtorEq, false_or, Except.ok.injEq, exists_eq_left']
      rw [← happend, raised]
      cases h₃ : appendUnclaimed env st result₂ claimed with
      | error f => simp [bind, Except.bind, h₃, Except.mapError]
      | ok result₃ => simp [bind, Except.bind, h₃, pure, Except.pure, Except.mapError]

end Entries

/-! ## The loop over the patterns of findings -/

section Patterns

variable {env : Env} {st : Statistics} {fallback : Bool}

/-- What a turn of the loop over the findings carries on. -/
def assignTurn (env : Env) (st : Statistics) (fallback : Bool) (s : Assigned) (finding : Json) :
    Except PyError Assigned :=
  raised ((assignFinding env st fallback s finding).map (·.2.2))

lemma assignFindings_assigned (s : Assigned) (found : List Json) :
    raised ((assignFindings env st fallback s found).map (·.2)) =
      found.foldlM (assignTurn env st fallback) s := by
  induction found generalizing s with
  | nil => rfl
  | cons x found ih =>
    rw [assignFindings, List.foldlM_cons, assignTurn]
    cases assignFinding env st fallback s x with
    | error f => rfl
    | ok out =>
      obtain ⟨x', kept, after⟩ := out
      have hrest := ih after
      dsimp only [Except.map, raised, Except.mapError] at hrest ⊢
      rw [Except.ok_bind, ← hrest]
      cases assignFindings env st fallback after found with
      | error f => rfl
      | ok out => rfl

/-- What the loop over one group carries on, and raises. -/
lemma assignGroup_assigned {result : Json.Fields} {name : PyStr} {items : List Json}
    (hitems : (result.getD name (.arr [])).iter = .ok items) (s : Assigned) :
    raised ((assignGroup env st fallback result s name).map (·.2)) =
      items.foldlM (assignTurn env st fallback) s := by
  unfold assignGroup
  split
  · next xs hxs =>
    rw [hxs] at hitems
    have hsame : xs = items := Except.ok.inj hitems
    rw [hsame, ← assignFindings_assigned]
    rcases assignFindings env st fallback s items with ⟨e, left⟩ | ⟨found, after⟩
    · rfl
    · rfl
  · next v hne =>
    have htexts := texts_of_iter hne hitems
    rw [hitems]
    cases items with
    | nil => rfl
    | cons x rest =>
      -- the first of the texts has no `get`
      obtain ⟨text, rfl⟩ := htexts x List.mem_cons_self
      rfl

/-- The loop over one group leaves the other fields alone. -/
lemma get?_assignGroup {result result' : Json.Fields} {s s' : Assigned} {name : PyStr}
    (h : assignGroup env st fallback result s name = .ok (result', s')) (other : PyStr)
    (hother : other ≠ name) : Dict.get? result' other = Dict.get? result other := by
  unfold assignGroup at h
  split at h
  · split at h
    · cases h
    · cases h
      exact Dict.get?_set_of_ne _ _ hother
  · split at h
    · cases h
    · cases h
      exact Dict.get?_set_of_ne _ _ hother
    · cases h

/-- The groups of a result can be iterated. -/
def Iterable (result : Json.Fields) : Prop :=
  ∀ name ∈ groupNames, ∃ items, (result.getD name (.arr [])).iter = .ok items

/-- A result that has been tested for evidence has groups that can be iterated. -/
lemma iterable_of_iterGroups {result : Json.Fields} (h : iterGroups result groupNames = .ok false) :
    Iterable result := by
  obtain ⟨key, hkey, h⟩ := Except.bind_eq_ok.mp h
  obtain ⟨found, -, h⟩ := Except.bind_eq_ok.mp h
  cases found with
  | true => cases h
  | false =>
    obtain ⟨secondary, hsecondary, -⟩ := Except.bind_eq_ok.mp h
    intro name hname
    rcases List.mem_cons.mp hname with rfl | hname
    · exact ⟨key, hkey⟩
    · rw [List.mem_singleton] at hname
      exact ⟨secondary, hname ▸ hsecondary⟩

/-- The first loop over both groups. -/
def assignGroups (env : Env) (st : Statistics) (fallback : Bool) (result : Json.Fields) :
    Except (Failure Json.Fields) (Json.Fields × Assigned) := do
  let (result, s) ← assignGroup env st fallback result ⟨[], false⟩ (py "key_finds")
  assignGroup env st fallback result s (py "secondary_finds")

lemma assignGroups_assigned {result : Json.Fields} (h : Iterable result) :
    raised ((assignGroups env st fallback result).map (·.2)) =
      (met result).foldlM (assignTurn env st fallback) ⟨[], false⟩ := by
  obtain ⟨key, hkey⟩ := h (py "key_finds") List.mem_cons_self
  obtain ⟨secondary, hsecondary⟩ :=
    h (py "secondary_finds") (List.mem_cons_of_mem _ List.mem_cons_self)
  have hmet : met result = key ++ secondary := by
    rw [met_eq, groupElements, groupElements, hkey, hsecondary]
  rw [hmet, List.foldlM_append, ← assignGroup_assigned hkey, assignGroups]
  cases h₁ : assignGroup env st fallback result ⟨[], false⟩ (py "key_finds") with
  | error f => rfl
  | ok out =>
    obtain ⟨result₁, s⟩ := out
    have hframe := get?_assignGroup h₁ (py "secondary_finds") (by simp)
    have hsecondary' : (result₁.getD (py "secondary_finds") (.arr [])).iter = .ok secondary := by
      rw [Json.Fields.getD, hframe, ← Json.Fields.getD, hsecondary]
    show _ = secondary.foldlM (assignTurn env st fallback) s
    rw [← assignGroup_assigned hsecondary']
    rfl

/-- Where the part that follows the first loop raises an exception. -/
lemma reconcilePatterns_eq_error_iff {result : Json.Fields} {e : PyError} :
    raised (reconcilePatterns env st fallback result) = .error e ↔
      raised (assignGroups env st fallback result) = .error e ∨
        ∃ out, assignGroups env st fallback result = .ok out ∧
          (Work.start out.1).items.all (Work.start out.1).iterable = false ∧ e = .typeError := by
  have hsplit : reconcilePatterns env st fallback result =
      assignGroups env st fallback result >>= fun out =>
        let w := Work.start out.1
        if w.items.all w.iterable then
          let w := finishPatterns env st fallback w
          return (w.doc.read w.heap, w.leftBehind)
        else throw (.typeError, w.leftBehind) := by
    unfold reconcilePatterns assignGroups
    rw [bind_assoc]
  rw [hsplit]
  cases assignGroups env st fallback result with
  | error f => simp [raised, Except.mapError, bind, Except.bind]
  | ok out =>
    have hout : raised (.ok out : Except (Failure Json.Fields) (Json.Fields × Assigned)) ≠
        .error e := by
      rintro ⟨⟩
    simp only [Except.ok_bind, hout, false_or, Except.ok.injEq, exists_eq_left']
    split
    · next hall =>
      rw [hall]
      constructor
      · rintro ⟨⟩
      · rintro ⟨⟨⟩, -⟩
    · next hall =>
      have hfalse := Bool.eq_false_iff.mpr hall
      constructor
      · rintro ⟨⟩
        exact ⟨hfalse, rfl⟩
      · rintro ⟨-, rfl⟩
        rfl

/-! ## What the loop cannot read -/

/-- `hash(v)` returns. -/
def hashable (v : Json) : Bool :=
  match v with
  | .arr _ | .obj _ => false
  | _ => true

/-- The value is the marker of unquantified findings or the id of a pattern. -/
def Recognized (st : Statistics) (item : Json) : Prop :=
  ∃ id, item = .str id ∧ (id = py "unquantified" ∨ Dict.contains (patternById st) id = true)

/-- The ids of patterns among some values. -/
def properIds (ids : List PyStr) : List PyStr := ids.filter fun id => id ≠ py "unquantified"

/-- The marker of unquantified findings among other values, all of them recognized and none used
before: the marker has no count. -/
structure Mixed (st : Statistics) (used : List PyStr) (fields : Json.Fields) (items : List Json) :
    Prop where
  recognized : ∀ item ∈ items, Recognized st item
  marker : .str (py "unquantified") ∈ items
  more : isUnquantified (fields.get (py "pattern_ids")) = false
  nameless : Dict.contains (patternById st) (py "unquantified") = false
  nodup : (properIds (textsOf items)).Nodup
  fresh : ∀ id ∈ properIds (textsOf items), id ∉ used

/-- A finding a strict attempt cannot read when it has used some ids. -/
def Unassignable (st : Statistics) (used : List PyStr) (finding : Json) : Prop :=
  match finding with
  | .obj fields =>
    match (Json.or (Json.Fields.get fields (py "pattern_ids")) (.arr [])).iter with
    | .error _ => True
    | .ok items => (∃ item ∈ items, hashable item = false) ∨ Mixed st used fields items
  | _ => True

/-- When ids may be used. -/
lemma useIds_eq_ok_iff {used used' ids : List PyStr} :
    useIds used ids = .ok used' ↔ (properIds ids).Nodup ∧ (∀ id ∈ properIds ids, id ∉ used) ∧
      used' = used ++ properIds ids := by
  induction ids generalizing used with
  | nil =>
    rw [useIds, Except.pure_eq_ok]
    simp [properIds, eq_comm]
  | cons id ids ih =>
    rw [useIds]
    by_cases hid : id = py "unquantified"
    · rw [if_pos hid, ih]
      simp [properIds, hid]
    · have hproper : properIds (id :: ids) = id :: properIds ids := by simp [properIds, hid]
      rw [if_neg hid, hproper, List.nodup_cons, List.forall_mem_cons]
      by_cases hused : id ∈ used
      · rw [if_pos (by simpa using hused)]
        simp [hused, throw, throwThe, MonadExceptOf.throw]
      · rw [if_neg (by simpa using hused), ih]
        constructor
        · rintro ⟨hnodup, hfresh, rfl⟩
          refine ⟨⟨fun hmem => hfresh id hmem (by simp), hnodup⟩, ⟨hused, fun i hi hmem => ?_⟩, by simp⟩
          exact hfresh i hi (List.mem_append_left _ hmem)
        · rintro ⟨⟨hnew, hnodup⟩, ⟨-, hfresh⟩, rfl⟩
          refine ⟨hnodup, fun i hi hmem => ?_, by simp⟩
          rcases List.mem_append.mp hmem with hmem | hmem
          · exact hfresh i hi hmem
          · exact hnew (List.mem_singleton.mp hmem ▸ hi)

lemma useIds_raises (used ids : List PyStr) :
    (useIds used ids).Raises fun e => isValueError e = true := by
  induction ids generalizing used with
  | nil => exact .pure _
  | cons id ids ih =>
    rw [useIds]
    split
    · exact ih used
    · split
      · exact .throw rfl
      · exact ih _

variable (st) in
/-- Whether a value is known is asked of what can be hashed. -/
lemma isUnknown_cases (item : Json) :
    (hashable item = false ∧ isUnknown st item = .error .typeError) ∨
      (hashable item = true ∧ ∃ b, isUnknown st item = .ok b ∧ (b = false ↔ Recognized st item)) := by
  cases item with
  | arr | obj => exact .inl ⟨rfl, rfl⟩
  | null | bool | int | float =>
    refine .inr ⟨rfl, true, rfl, ?_⟩
    simp [Recognized]
  | str id =>
    refine .inr ⟨rfl, ?_⟩
    unfold isUnknown
    by_cases hid : id = py "unquantified"
    · refine ⟨false, by simp [Json.isText, hid, pure, Except.pure], ?_⟩
      simp [Recognized, hid]
    · refine ⟨!Dict.contains (patternById st) id, ?_, ?_⟩
      · simp [Json.isText, hid, isKnown, pure, Except.pure, bind, Except.bind]
      · simp [Recognized, hid]

lemma assignTurn_eq_error_iff {s : Assigned} {finding : Json} {e : PyError} :
    assignTurn env st fallback s finding = .error e ↔
      ∃ left, assignFinding env st fallback s finding = .error (e, left) := by
  rw [assignTurn, raised_eq_error]
  cases assignFinding env st fallback s finding with
  | error f => simp [Except.map]
  | ok out => simp [Except.map]

variable (env st) in
/-- The ids of a finding a strict attempt can normalize are hashable, and recognized. -/
lemma normalizeIds_strict {fields : Json.Fields} {items : List Json}
    (hitems : (Json.or (Json.Fields.get fields (py "pattern_ids")) (.arr [])).iter = .ok items) :
    ((∃ item ∈ items, hashable item = false) ∧
        normalizeIds env st false fields = .error .typeError) ∨
      (¬ (∀ item ∈ items, Recognized st item) ∧ ∃ e, normalizeIds env st false fields = .error e ∧
        isValueError e = true ∧ ∀ item ∈ items, hashable item = true) ∨
      ((∀ item ∈ items, Recognized st item) ∧
        normalizeIds env st false fields = .ok (fields, textsOf items)) := by
  unfold normalizeIds
  rw [hitems, Except.ok_bind]
  cases hunknown : items.filterM (isUnknown st) with
  | error e =>
    have htype : e = .typeError := by
      refine Except.Raises.filterM (p := fun e => e = .typeError) (fun item _ => ?_) e hunknown
      rcases isUnknown_cases st item with ⟨-, h⟩ | ⟨-, b, h, -⟩
      · rw [h]
        exact .throw rfl
      · rw [h]
        exact .ok b
    refine .inl ⟨?_, htype ▸ rfl⟩
    by_contra hall
    push Not at hall
    obtain ⟨ys, hys⟩ := Except.exists_filterM_eq_ok.mpr fun item hitem => by
      rcases isUnknown_cases st item with ⟨h, -⟩ | ⟨-, b, h, -⟩
      · exact absurd h (hall item hitem)
      · exact ⟨b, h⟩
    rw [hunknown] at hys
    cases hys
  | ok unknown =>
    have hhash : ∀ item ∈ items, hashable item = true := by
      intro item hitem
      obtain ⟨b, hb⟩ := Except.exists_filterM_eq_ok.mp ⟨unknown, hunknown⟩ item hitem
      rcases isUnknown_cases st item with ⟨-, h⟩ | ⟨h, -⟩
      · rw [hb] at h
        cases h
      · exact h
    have hrecognized : ∀ item ∈ items, isUnknown st item = .ok false ↔ Recognized st item := by
      intro item hitem
      rcases isUnknown_cases st item with ⟨h, -⟩ | ⟨-, b, h, hb⟩
      · rw [hhash item hitem] at h
        cases h
      · rw [h, ← hb, Except.ok.injEq]
    obtain ⟨hkept, hdropped⟩ := Except.filterM_eq_ok hunknown
    cases unknown with
    | nil =>
      refine .inr (.inr ⟨fun item hitem => (hrecognized item hitem).mp ?_, rfl⟩)
      simpa using hdropped item hitem
    | cons item unknown =>
      refine .inr (.inl ⟨fun hall => ?_, _, rfl, rfl, hhash⟩)
      obtain ⟨hitem, htrue⟩ := hkept item List.mem_cons_self
      rw [(hrecognized item hitem).mpr (hall item hitem)] at htrue
      cases htrue

/-- **What the loop over the findings of a strict attempt cannot read.** -/
lemma assignTurn_breaks_iff {s : Assigned} {finding : Json} :
    (∃ e, assignTurn env st false s finding = .error e ∧ isValueError e = false) ↔
      Unassignable st s.used finding := by
  simp only [assignTurn_eq_error_iff]
  cases finding with
  | null | bool | int | float | str | arr =>
    exact ⟨fun _ => trivial, fun _ => ⟨.attributeError, ⟨_, rfl⟩, rfl⟩⟩
  | obj fields =>
    unfold Unassignable assignFinding
    dsimp only
    cases hiter : (Json.or (Json.Fields.get fields (py "pattern_ids")) (.arr [])).iter with
    | error e =>
      refine ⟨fun _ => trivial, fun _ => ⟨e, ⟨.obj fields, ?_⟩, ?_⟩⟩
      · unfold normalizeIds
        rw [hiter]
        rfl
      · rw [(hasEvidence_of_iter hiter).1]
        rfl
    | ok items =>
      dsimp only
      rcases normalizeIds_strict env st hiter with
        ⟨hunhashable, h⟩ | ⟨hunknown, e, h, he, hhash⟩ | ⟨hrecognized, h⟩
      · rw [h]
        exact ⟨fun _ => .inl hunhashable, fun _ => ⟨.typeError, ⟨_, rfl⟩, rfl⟩⟩
      · rw [h]
        constructor
        · rintro ⟨e', ⟨left, h'⟩, he'⟩
          cases h'
          rw [he] at he'
          cases he'
        · rintro (⟨item, hitem, hfalse⟩ | hmixed)
          · rw [hhash item hitem] at hfalse
            cases hfalse
          · exact absurd hmixed.recognized hunknown
      · rw [h]
        dsimp only
        have hhash : ¬ ∃ item ∈ items, hashable item = false := by
          rintro ⟨item, hitem, hfalse⟩
          obtain ⟨id, rfl, -⟩ := hrecognized item hitem
          cases hfalse
        rw [or_iff_right hhash]
        split
        · next hmarker =>
          refine ⟨?_, fun hmixed => ?_⟩
          · split
            · rintro ⟨e, ⟨left, h⟩, -⟩
              cases h
            · rintro ⟨e, ⟨left, h⟩, -⟩
              cases h
          · rw [hmixed.more] at hmarker
            cases hmarker
        · next hmarker =>
          cases huse : useIds s.used (textsOf items) with
          | error e =>
            refine ⟨?_, fun hmixed => ?_⟩
            · rintro ⟨e', ⟨left, h⟩, he⟩
              cases h
              have hvalue : isValueError e = true := useIds_raises _ _ e huse
              rw [he] at hvalue
              cases hvalue
            · rw [useIds_eq_ok_iff.mpr ⟨hmixed.nodup, hmixed.fresh, rfl⟩] at huse
              cases huse
          | ok used =>
            obtain ⟨hnodup, hfresh, -⟩ := useIds_eq_ok_iff.mp huse
            dsimp only
            split
            · next hall =>
              refine ⟨?_, fun hmixed => ?_⟩
              · rintro ⟨e', ⟨left, h⟩, -⟩
                cases h
              · have hmem := mem_textsOf.mpr hmixed.marker
                have hknown := List.all_eq_true.mp hall _ hmem
                rw [hmixed.nameless] at hknown
                cases hknown
            · next hall =>
              refine ⟨fun _ => ?_, fun _ => ⟨.keyError, ⟨_, rfl⟩, rfl⟩⟩
              have hunknown : ∃ id ∈ textsOf items,
                  Dict.contains (patternById st) id = false := by
                simpa using hall
              obtain ⟨id, hid, hfalse⟩ := hunknown
              -- only the marker can be unknown here
              obtain ⟨id', heq, hid'⟩ := hrecognized _ (mem_textsOf.mp hid)
              cases heq
              rcases hid' with rfl | hknown
              · exact ⟨hrecognized, mem_textsOf.mp hid, Bool.eq_false_iff.mpr hmarker, hfalse,
                  hnodup, hfresh⟩
              · rw [hfalse] at hknown
                cases hknown

lemma isKnown_raises (v : Json) : (isKnown st v).Raises fun e => e = .typeError := by
  cases v with
  | arr | obj => exact .throw rfl
  | null | bool | int | float | str => exact .pure _

lemma normalizeIds_raises (fields : Json.Fields) :
    (normalizeIds env st fallback fields).Raises fun e => isContained e = true := by
  have htype : ∀ e, e = PyError.typeError → isContained e = true := by
    rintro _ rfl
    rfl
  have hiter : ((fields.get (py "pattern_ids")).or (.arr [])).iter.Raises
      fun e => isContained e = true :=
    fun e he => htype e (hasEvidence_of_iter he).1
  refine hiter.bind fun items _ => ?_
  refine Except.Raises.bind (.filterM fun item _ => ?_) fun unknown _ => ?_
  · unfold isUnknown
    split
    · exact .pure _
    · exact ((isKnown_raises item).mono htype).bind fun _ _ => .pure _
  · split
    · exact .pure _
    · split
      · refine Except.Raises.bind (.filterM fun item _ => (isKnown_raises item).mono htype)
          fun known _ => ?_
        split
        · exact .pure _
        · exact .pure _
      · exact .throw rfl

/-- What the loop over the findings has no `get` of is all that is not contained. -/
lemma assignTurn_escapes_iff {s : Assigned} {finding : Json} :
    (∃ e, assignTurn env st fallback s finding = .error e ∧ isContained e = false) ↔
      finding.isObject = false := by
  simp only [assignTurn_eq_error_iff]
  cases finding with
  | null | bool | int | float | str | arr =>
    exact ⟨fun _ => rfl, fun _ => ⟨.attributeError, ⟨_, rfl⟩, rfl⟩⟩
  | obj fields =>
    refine ⟨?_, fun h => by cases h⟩
    rintro ⟨e, ⟨left, h⟩, he⟩
    have hcontained : isContained e = true := by
      unfold assignFinding at h
      dsimp only at h
      split at h
      · next e' hnormal =>
        cases h
        exact normalizeIds_raises fields _ hnormal
      · split at h
        · split at h
          · cases h
          · cases h
        · split at h
          · next e' huse =>
            cases h
            exact isContained_of_isValueError (useIds_raises _ _ _ huse)
          · split at h
            · cases h
            · cases h
              rfl
    rw [he] at hcontained
    cases hcontained

end Patterns

section Iterability

variable {env : Env} {st : Statistics}

/-! ## What follows the loop -/

/-- The `pattern_ids` of a finding can be iterated; a missing one is an empty list. -/
def iterableIds (finding : Json.Fields) : Bool :=
  match Dict.get? finding (py "pattern_ids") with
  | none | some (.arr _) | some (.obj _) | some (.str _) => true
  | _ => false

/-- A finding before and after a turn: both are objects, with the same `pattern_ids`. -/
def SameIds (finding finding' : Json) : Prop :=
  ∃ fields fields', finding = .obj fields ∧ finding' = .obj fields' ∧
    Dict.get? fields' (py "pattern_ids") = Dict.get? fields (py "pattern_ids")

lemma iterableIds_congr {fields fields' : Json.Fields}
    (h : Dict.get? fields' (py "pattern_ids") = Dict.get? fields (py "pattern_ids")) :
    iterableIds fields' = iterableIds fields := by
  rw [iterableIds, iterableIds, h]

/-- A strict attempt keeps every finding, with its `pattern_ids`. -/
lemma assignFinding_strict {s s' : Assigned} {finding finding' : Json} {kept : Bool}
    (h : assignFinding env st false s finding = .ok (finding', kept, s')) :
    kept = true ∧ SameIds finding finding' := by
  unfold assignFinding at h
  split at h
  · next fields =>
    split at h
    · cases h
    · next fields' ids hnormal =>
      have hsame : fields' = fields := by
        obtain ⟨items, hitems, -⟩ := Except.bind_eq_ok.mp hnormal
        rcases normalizeIds_strict env st hitems with
          ⟨-, h'⟩ | ⟨-, e, h', -⟩ | ⟨-, h'⟩
        · rw [hnormal] at h'
          cases h'
        · rw [hnormal] at h'
          cases h'
        · rw [hnormal] at h'
          cases h'
          rfl
      subst hsame
      split at h
      · simp only [Bool.false_eq_true, and_false, if_false, Except.ok.injEq, Prod.mk.injEq] at h
        obtain ⟨rfl, rfl, -⟩ := h
        refine ⟨rfl, fields', _, rfl, rfl, ?_⟩
        simp [clearCount, Dict.get?_set]
      · split at h
        · cases h
        · split at h
          · cases h
            refine ⟨rfl, fields', _, rfl, rfl, ?_⟩
            simp [setCount, Dict.get?_set]
          · cases h
  · cases h

lemma assignFindings_strict {s s' : Assigned} {found found' : List Json}
    (h : assignFindings env st false s found = .ok (found', s')) :
    List.Forall₂ SameIds found found' := by
  induction found generalizing s found' with
  | nil =>
    cases h
    exact .nil
  | cons x found ih =>
    rw [assignFindings] at h
    split at h
    · cases h
    · next x' kept s₁ hx =>
      obtain ⟨rfl, hsame⟩ := assignFinding_strict hx
      split at h
      · cases h
      · next rest s₂ hrest =>
        cases h
        exact .cons hsame (ih hrest)

lemma assignGroup_strict {result result' : Json.Fields} {s s' : Assigned} {name : PyStr}
    (h : assignGroup env st false result s name = .ok (result', s')) :
    List.Forall₂ SameIds (groupElements (result.getD name (.arr []))) (groupItems result' name) := by
  unfold assignGroup at h
  split at h
  · next items hitems =>
    rw [hitems]
    split at h
    · cases h
    · next items' s₁ hfound =>
      cases h
      rw [groupItems_set_self]
      exact assignFindings_strict hfound
  · split at h
    · cases h
    · next hiter =>
      cases h
      rw [groupItems_set_self, groupElements, hiter]
      exact .nil
    · cases h

/-- The loop of a strict attempt over both groups leaves the findings that are met. -/
lemma assignGroups_strict {result : Json.Fields} {out : Json.Fields × Assigned}
    (h : assignGroups env st false result = .ok out) :
    List.Forall₂ SameIds (met result) (findings out.1) := by
  obtain ⟨⟨result₁, s₁⟩, h₁, h₂⟩ := Except.bind_eq_ok.mp h
  obtain ⟨result₂, s₂⟩ := out
  dsimp only at h₂
  have hkey := assignGroup_strict h₁
  have hsecondary := assignGroup_strict h₂
  rw [Json.Fields.getD, get?_assignGroup h₁ (py "secondary_finds") (by simp),
    ← Json.Fields.getD] at hsecondary
  rw [← groupItems_of_get? (get?_assignGroup h₂ (py "key_finds") (by simp))] at hkey
  rw [met_eq, findings_eq]
  exact List.rel_append hkey hsecondary

/-- The ids of some finding cannot be iterated. -/
lemma items_iterable_iff {result : Json.Fields} {out : Json.Fields × Assigned}
    (h : assignGroups env st false result = .ok out) :
    (Work.start out.1).items.all (Work.start out.1).iterable = false ↔
      ∃ fields, .obj fields ∈ met result ∧ iterableIds fields = false := by
  have hsame := assignGroups_strict h
  have hobj : ∀ f ∈ findings out.1, ∃ fields, f = .obj fields := by
    intro f hf
    obtain ⟨x, -, fields, fields', -, rfl, -⟩ := hsame.exists_left hf
    exact ⟨fields', rfl⟩
  have hrefs := start_refs hobj
  rw [List.all_eq_false]
  constructor
  · rintro ⟨r, hr, hiterable⟩
    have hmem : Json.obj ((Work.start out.1).heap r) ∈ findings out.1 := by
      rw [← hrefs]
      exact List.mem_map.mpr ⟨r, List.mem_of_mem_filter hr, rfl⟩
    obtain ⟨x, hx, fields, fields', rfl, heq, hids⟩ := hsame.exists_left hmem
    cases heq
    refine ⟨fields, hx, ?_⟩
    rw [← iterableIds_congr hids]
    exact Bool.eq_false_iff.mpr hiterable
  · rintro ⟨fields, hx, hiterable⟩
    obtain ⟨f, hf, _, fields', heq, rfl, hids⟩ := hsame.exists_right hx
    cases heq
    rw [← hrefs, List.mem_map] at hf
    obtain ⟨r, hr, heq⟩ := hf
    cases heq
    rw [← iterableIds_congr hids] at hiterable
    refine ⟨r, List.mem_filter.mpr ⟨hr, ?_⟩, Bool.eq_false_iff.mp hiterable⟩
    -- what cannot be iterated is not the marker
    unfold Work.quantified Json.Fields.get Json.Fields.getD
    unfold iterableIds at hiterable
    split at hiterable
    · cases hiterable
    · cases hiterable
    · cases hiterable
    · cases hiterable
    · next v hnone harr hobj' hstr =>
      cases hget : Dict.get? ((Work.start out.1).heap r) (py "pattern_ids") with
      | none => exact absurd hget hnone
      | some v =>
        cases v with
        | arr xs => exact absurd hget (harr xs)
        | null | bool | int | float | str | obj => rfl

end Iterability

/-! ## Where an attempt raises -/

section Attempt

variable {env : Env} {st : Statistics} {fallback : Bool} {result : Json.Fields}
  {p : PyError → Bool}

/-- The exceptions of a loop are of a kind when no turn it gets to raises another one. -/
lemma raises_foldlM_iff {σ α : Type} {turn : σ → α → Except PyError σ} {start : σ}
    {found : List α} :
    (found.foldlM turn start).Raises (fun e => p e = true) ↔
      ∀ s x, Except.Reaches turn start found s x → ¬ ∃ e, turn s x = .error e ∧ p e = false := by
  constructor
  · rintro h s x hreach ⟨e, hturn, he⟩
    have htrue : p e = true := h e (Except.foldlM_eq_error_iff.mpr ⟨s, x, hreach, hturn⟩)
    rw [he] at htrue
    cases htrue
  · intro h e he
    obtain ⟨s, x, hreach, hturn⟩ := Except.foldlM_eq_error_iff.mp he
    by_contra hfalse
    exact h s x hreach ⟨e, hturn, Bool.eq_false_iff.mpr hfalse⟩

/-- There is a list to append the findings for unclaimed entries to. -/
def Appendable (env : Env) (st : Statistics) (result : Json.Fields) : Prop :=
  ∀ claimed appended, (met result).foldlM (claimTurn env st) [] = .ok claimed →
    appendedFindings env st claimed = .ok appended → appended ≠ [] →
    IsList result (py "secondary_finds")

/-- What an attempt raises when some finding names evidence. -/
lemma raises_reconcileEntryGrouped_iff (hp : ∀ e, p e = false → isValueError e = false)
    (hattribute : p .attributeError = false) :
    (raised (reconcileEntryGrouped env st result)).Raises (fun e => p e = true) ↔
      ((met result).foldlM (claimTurn env st) []).Raises (fun e => p e = true) ∧
        Appendable env st result := by
  constructor
  · intro h
    refine ⟨fun e he => ?_, fun claimed appended hclaimed happended hne => ?_⟩
    · by_contra hfalse
      exact hfalse (h e ((reconcileEntryGrouped_eq_error_iff
        (hp e (Bool.eq_false_iff.mpr hfalse))).mpr (.inl he)))
    · by_contra hlist
      have hraise := h .attributeError ((reconcileEntryGrouped_eq_error_iff rfl).mpr
        (.inr ⟨claimed, hclaimed, ⟨appended, hne, happended⟩, hlist, rfl⟩))
      dsimp only at hraise
      rw [hattribute] at hraise
      cases hraise
  · rintro ⟨hloop, hlist⟩ e he
    by_contra hfalse
    rcases (reconcileEntryGrouped_eq_error_iff (hp e (Bool.eq_false_iff.mpr hfalse))).mp he with
      he | ⟨claimed, hclaimed, ⟨appended, hne, happended⟩, hno, -⟩
    · exact hfalse (hloop e he)
    · exact hno (hlist claimed appended hclaimed happended hne)

/-- What an attempt raises, by what the test for evidence says. -/
lemma raises_reconcileResult_cases :
    (raised (reconcileResult env st fallback result)).Raises (fun e => p e = true) ↔
      (∀ e, anyEvidence (met result) = .error e → p e = true) ∧
      (anyEvidence (met result) = .ok true →
        (raised (reconcileEntryGrouped env st result)).Raises fun e => p e = true) ∧
      (anyEvidence (met result) = .ok false →
        (raised (reconcilePatterns env st fallback result)).Raises fun e => p e = true) := by
  unfold reconcileResult
  rw [iterGroups_eq result]
  cases hev : anyEvidence (met result) with
  | error e => simp [raised, Except.mapError, Except.Raises]
  | ok found =>
    cases found with
    | true =>
      cases hout : reconcileEntryGrouped env st result with
      | error f => simp [raised, Except.mapError, Except.Raises, bind, Except.bind]
      | ok out => simp [raised, Except.mapError, Except.Raises, bind, Except.bind, pure, Except.pure]
    | false => simp

/-! ## A strict attempt -/

/-- A finding the loop over entries can read: it can be asked for evidence, and what names some is
an object. -/
def Claimable (finding : Json) : Prop :=
  ∃ found, hasEvidence finding = .ok found ∧ (found = true → finding.isObject = true)

/-- **Every finding a strict attempt reaches can be read.** -/
structure WellShaped (env : Env) (st : Statistics) (result : Json.Fields) : Prop where
  /-- up to the first finding that names evidence, each can be asked for it -/
  tested : ∀ before x after, met result = before ++ x :: after →
    (∀ y ∈ before, hasEvidence y = .ok false) → ∃ found, hasEvidence x = .ok found
  claimed : anyEvidence (met result) = .ok true → ∀ claimed x,
    Except.Reaches (claimTurn env st) [] (met result) claimed x → Claimable x
  appendable : anyEvidence (met result) = .ok true → Appendable env st result
  assigned : anyEvidence (met result) = .ok false → ∀ s x,
    Except.Reaches (assignTurn env st false) ⟨[], false⟩ (met result) s x →
    ¬ Unassignable st s.used x
  iterable : anyEvidence (met result) = .ok false → ∀ s,
    (met result).foldlM (assignTurn env st false) ⟨[], false⟩ = .ok s →
    ∀ fields, .obj fields ∈ met result → iterableIds fields = true

lemma claimTurn_breaks_iff {claimed : List ℕ} {finding : Json} :
    (∃ e, claimTurn env st claimed finding = .error e ∧ isValueError e = false) ↔
      ¬ Claimable finding := by
  constructor
  · rintro ⟨e, h, he⟩ ⟨found, hfound, hobject⟩
    rcases (claimTurn_eq_error_iff he).mp h with h | ⟨htrue, hfalse, -⟩
    · rw [hfound] at h
      cases h
    · rw [hfound] at htrue
      cases htrue
      rw [hobject rfl] at hfalse
      cases hfalse
  · intro h
    cases hev : hasEvidence finding with
    | error e =>
      have he : isValueError e = false := by
        rw [eq_typeError_of_hasEvidence hev]
        rfl
      exact ⟨e, (claimTurn_eq_error_iff he).mpr (.inl hev), he⟩
    | ok found =>
      have hbad : found = true ∧ finding.isObject = false := by
        by_contra hgood
        refine h ⟨found, hev, fun htrue => ?_⟩
        by_contra hobject
        exact hgood ⟨htrue, Bool.eq_false_iff.mpr hobject⟩
      obtain ⟨rfl, hobject⟩ := hbad
      exact ⟨.attributeError, (claimTurn_eq_error_iff rfl).mpr (.inr ⟨hev, hobject, rfl⟩), rfl⟩

/-- What a strict attempt raises when no finding names evidence. -/
lemma raises_reconcilePatterns_iff (h : Iterable result) :
    (raised (reconcilePatterns env st false result)).Raises (fun e => isValueError e = true) ↔
      ((met result).foldlM (assignTurn env st false) ⟨[], false⟩).Raises
          (fun e => isValueError e = true) ∧
        ∀ s, (met result).foldlM (assignTurn env st false) ⟨[], false⟩ = .ok s →
          ∀ fields, .obj fields ∈ met result → iterableIds fields = true := by
  have herror : ∀ e, raised (reconcilePatterns env st false result) = .error e ↔
      (met result).foldlM (assignTurn env st false) ⟨[], false⟩ = .error e ∨
        ∃ s, (met result).foldlM (assignTurn env st false) ⟨[], false⟩ = .ok s ∧
          (∃ fields, .obj fields ∈ met result ∧ iterableIds fields = false) ∧ e = .typeError := by
    intro e
    rw [reconcilePatterns_eq_error_iff, ← assignGroups_assigned h]
    cases hout : assignGroups env st false result with
    | error f => simp [raised, Except.mapError, Except.map]
    | ok out =>
      simp only [raised, Except.mapError, Except.map, reduceCtorEq, false_or, Except.ok.injEq,
        exists_eq_left']
      rw [items_iterable_iff hout]
  constructor
  · intro hall
    refine ⟨fun e he => hall e ((herror e).mpr (.inl he)), fun s hs fields hfields => ?_⟩
    by_contra hfalse
    have hraise := hall .typeError ((herror _).mpr
      (.inr ⟨s, hs, ⟨fields, hfields, Bool.eq_false_iff.mpr hfalse⟩, rfl⟩))
    cases hraise
  · rintro ⟨hloop, hiterable⟩ e he
    rcases (herror e).mp he with he | ⟨s, hs, ⟨fields, hfields, hfalse⟩, -⟩
    · exact hloop e he
    · rw [hiterable s hs fields hfields] at hfalse
      cases hfalse

/-- **What a strict attempt raises.** -/
theorem raises_strict_iff :
    (raised (reconcileResult env st false result)).Raises (fun e => isValueError e = true) ↔
      WellShaped env st result := by
  have htested : (∀ e, anyEvidence (met result) = .error e → isValueError e = true) ↔
      ∀ before x after, met result = before ++ x :: after →
        (∀ y ∈ before, hasEvidence y = .ok false) → ∃ found, hasEvidence x = .ok found := by
    constructor
    · intro h before x after hmet hbefore
      cases hx : hasEvidence x with
      | ok found => exact ⟨found, rfl⟩
      | error e =>
        have hraise := h e (anyEvidence_eq_error_iff.mpr ⟨before, x, after, hmet, hbefore, hx⟩)
        rw [eq_typeError_of_hasEvidence hx] at hraise
        cases hraise
    · intro h e he
      obtain ⟨before, x, after, hmet, hbefore, hx⟩ := anyEvidence_eq_error_iff.mp he
      obtain ⟨found, hfound⟩ := h before x after hmet hbefore
      rw [hx] at hfound
      cases hfound
  have hclaimed : ((met result).foldlM (claimTurn env st) []).Raises
      (fun e => isValueError e = true) ↔ ∀ claimed x,
        Except.Reaches (claimTurn env st) [] (met result) claimed x → Claimable x := by
    rw [raises_foldlM_iff]
    simp only [claimTurn_breaks_iff, not_not]
  have hassigned : ((met result).foldlM (assignTurn env st false) ⟨[], false⟩).Raises
      (fun e => isValueError e = true) ↔ ∀ s x,
        Except.Reaches (assignTurn env st false) ⟨[], false⟩ (met result) s x →
        ¬ Unassignable st s.used x := by
    rw [raises_foldlM_iff]
    simp only [assignTurn_breaks_iff]
  have hentries : (raised (reconcileEntryGrouped env st result)).Raises
      (fun e => isValueError e = true) ↔
      ((met result).foldlM (claimTurn env st) []).Raises (fun e => isValueError e = true) ∧
        Appendable env st result :=
    raises_reconcileEntryGrouped_iff (fun e he => he) rfl
  rw [raises_reconcileResult_cases, htested, hentries, hclaimed]
  have hiterable : anyEvidence (met result) = .ok false → Iterable result := fun h =>
    iterable_of_iterGroups ((iterGroups_eq result).trans h)
  constructor
  · rintro ⟨htested, hentry, hpattern⟩
    refine ⟨htested, fun h => (hentry h).1, fun h => (hentry h).2, fun h => ?_, fun h => ?_⟩
    · exact hassigned.mp ((raises_reconcilePatterns_iff (hiterable h)).mp (hpattern h)).1
    · exact ((raises_reconcilePatterns_iff (hiterable h)).mp (hpattern h)).2
  · rintro ⟨htested, hclaim, happend, hassign, hiter⟩
    refine ⟨htested, fun h => ⟨hclaim h, happend h⟩, fun h => ?_⟩
    exact (raises_reconcilePatterns_iff (hiterable h)).mpr ⟨hassigned.mpr (hassign h), hiter h⟩

/-! ## A fallback attempt -/

/-- **Every finding a fallback attempt reaches can be read**, or makes it raise an exception that
is contained. -/
structure FallbackShaped (env : Env) (st : Statistics) (result : Json.Fields) : Prop where
  claimed : anyEvidence (met result) = .ok true → ∀ claimed x,
    Except.Reaches (claimTurn env st) [] (met result) claimed x → hasEvidence x = .ok true →
    x.isObject = true
  appendable : anyEvidence (met result) = .ok true → Appendable env st result
  assigned : anyEvidence (met result) = .ok false → ∀ s x,
    Except.Reaches (assignTurn env st true) ⟨[], false⟩ (met result) s x → x.isObject = true

lemma claimTurn_escapes_iff {claimed : List ℕ} {finding : Json} :
    (∃ e, claimTurn env st claimed finding = .error e ∧ isContained e = false) ↔
      hasEvidence finding = .ok true ∧ finding.isObject = false := by
  constructor
  · rintro ⟨e, h, he⟩
    rcases (claimTurn_eq_error_iff (isValueError_of_isContained he)).mp h with h | ⟨htrue, hno, -⟩
    · rw [eq_typeError_of_hasEvidence h] at he
      cases he
    · exact ⟨htrue, hno⟩
  · rintro ⟨htrue, hno⟩
    exact ⟨.attributeError, (claimTurn_eq_error_iff rfl).mpr (.inr ⟨htrue, hno, rfl⟩), rfl⟩

/-- **What a fallback attempt raises.** -/
theorem raises_fallback_iff :
    (raised (reconcileResult env st true result)).Raises (fun e => isContained e = true) ↔
      FallbackShaped env st result := by
  have htested : ∀ e, anyEvidence (met result) = .error e → isContained e = true := by
    intro e he
    obtain ⟨before, x, after, -, -, hx⟩ := anyEvidence_eq_error_iff.mp he
    rw [eq_typeError_of_hasEvidence hx]
    rfl
  have hclaimed : ((met result).foldlM (claimTurn env st) []).Raises
      (fun e => isContained e = true) ↔ ∀ claimed x,
        Except.Reaches (claimTurn env st) [] (met result) claimed x → hasEvidence x = .ok true →
          x.isObject = true := by
    rw [raises_foldlM_iff]
    simp only [claimTurn_escapes_iff, not_and, Bool.not_eq_false]
  have hassigned : ((met result).foldlM (assignTurn env st true) ⟨[], false⟩).Raises
      (fun e => isContained e = true) ↔ ∀ s x,
        Except.Reaches (assignTurn env st true) ⟨[], false⟩ (met result) s x →
        x.isObject = true := by
    rw [raises_foldlM_iff]
    simp only [assignTurn_escapes_iff, Bool.not_eq_false]
  have hpatterns : Iterable result →
      ((raised (reconcilePatterns env st true result)).Raises (fun e => isContained e = true) ↔
        ((met result).foldlM (assignTurn env st true) ⟨[], false⟩).Raises
          fun e => isContained e = true) := by
    intro h
    have herror : ∀ e, raised (assignGroups env st true result) = .error e ↔
        (met result).foldlM (assignTurn env st true) ⟨[], false⟩ = .error e := by
      intro e
      rw [← assignGroups_assigned h]
      cases assignGroups env st true result with
      | error f => simp [raised, Except.mapError, Except.map]
      | ok out => simp [raised, Except.mapError, Except.map]
    constructor
    · intro hall e he
      exact hall e (reconcilePatterns_eq_error_iff.mpr (.inl ((herror e).mpr he)))
    · intro hall e he
      rcases reconcilePatterns_eq_error_iff.mp he with he | ⟨-, -, -, rfl⟩
      · exact hall e ((herror e).mp he)
      · rfl
  have hentries : (raised (reconcileEntryGrouped env st result)).Raises
      (fun e => isContained e = true) ↔
      ((met result).foldlM (claimTurn env st) []).Raises (fun e => isContained e = true) ∧
        Appendable env st result :=
    raises_reconcileEntryGrouped_iff (fun e => isValueError_of_isContained) rfl
  rw [raises_reconcileResult_cases, hentries, hclaimed]
  have hiterable : anyEvidence (met result) = .ok false → Iterable result := fun h =>
    iterable_of_iterGroups ((iterGroups_eq result).trans h)
  constructor
  · rintro ⟨-, hentry, hpattern⟩
    refine ⟨fun h => (hentry h).1, fun h => (hentry h).2, fun h => ?_⟩
    exact hassigned.mp ((hpatterns (hiterable h)).mp (hpattern h))
  · rintro ⟨hclaim, happend, hassign⟩
    refine ⟨htested, fun h => ⟨hclaim h, happend h⟩, fun h => ?_⟩
    exact (hpatterns (hiterable h)).mpr (hassigned.mpr (hassign h))

end Attempt

end Triage

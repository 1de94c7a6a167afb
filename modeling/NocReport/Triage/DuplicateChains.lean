import NocReport.Triage.PatternConservation

set_option relaxedAutoImplicit false
set_option autoImplicit false

/-!
# Duplicates of duplicates

In fallback mode a finding whose detail repeats that of an earlier one is left out, and the earlier
one, its owner, gets its patterns. With details in two languages an owner may be left out itself.
It has handed its own patterns on by then, so what it gets is in no finding any more. The later
steps bring such patterns back family by family, `other` not at all.

## Main definitions

* `Triage.OneFamily` — patterns of one family.
* `Triage.Extends` — what the steps after the merging do to the findings.
* `Triage.beforeDetails` — the findings when the merging by details begins.

## Main results

* `Triage.finishPatterns_extends` — the later steps lose no pattern and mix no families.
* `Triage.unmixed_of_chain` — nobody has the patterns of a duplicate of a duplicate.
* `Triage.reconcileResult_keeps_duplicates_iff` — when the patterns of all duplicates are kept.
-/

namespace Triage

variable {env : Env} {st : Statistics}

/-! ## Families -/

/-- Two patterns of one family. -/
def SameFamily (st : Statistics) (id id' : PyStr) : Prop :=
  ∃ family, Dict.get? (familyByPattern st) id = some family ∧
    Dict.get? (familyByPattern st) id' = some family

/-- The patterns are of one family, which `other` never is. -/
def OneFamily (st : Statistics) (ids : List PyStr) : Prop :=
  ∀ id ∈ ids, ∀ id' ∈ ids, SameFamily st id id'

/-- What clashes with a pattern of a family is of that family. -/
lemma sameFamily_of_clash {id a b family : PyStr} (h : Clash st id a)
    (ha : Dict.get? (familyByPattern st) a = some family)
    (hb : Dict.get? (familyByPattern st) b = some family) : SameFamily st id b := by
  rcases h with rfl | ⟨family', hid, ha'⟩
  · exact ⟨family, ha, hb⟩
  · rw [ha] at ha'
    cases ha'
    exact ⟨family, hid, hb⟩

/-- A finding with a pattern that clashes with `id` has patterns of the family of `id` only. -/
def Unmixed (st : Statistics) (id : PyStr) (w : Work) : Prop :=
  ∀ r ∈ w.items, (∃ a ∈ w.ids r, Clash st id a) → ∀ a ∈ w.ids r, SameFamily st id a

/-- What the steps after the merging do to the findings: no finding loses a pattern, and no
patterns of different families come together. -/
structure Extends (st : Statistics) (w w' : Work) : Prop where
  grows : ∀ r ∈ w.items, r ∈ w'.items ∧ ∀ id ∈ w.ids r, id ∈ w'.ids r
  unmixed : ∀ id, Unmixed st id w → Unmixed st id w'

lemma Extends.trans {w w' w'' : Work} (h : Extends st w w') (h' : Extends st w' w'') :
    Extends st w w'' where
  grows r hr := by
    obtain ⟨hr', hids⟩ := h.grows r hr
    obtain ⟨hr'', hids'⟩ := h'.grows r hr'
    exact ⟨hr'', fun id hid => hids' id (hids id hid)⟩
  unmixed id hid := h'.unmixed id (h.unmixed id hid)

lemma Extends.of_same {w w' : Work} (hitems : w'.items = w.items)
    (hids : ∀ r, w'.ids r = w.ids r) : Extends st w w' where
  grows r hr := ⟨hitems ▸ hr, fun id hid => (hids r).symm ▸ hid⟩
  unmixed id hid r hr := by
    rw [hids r]
    exact hid r (hitems ▸ hr)

/-! ## Unquantified findings -/

/-- A finding that had no patterns gets those of a family. -/
lemma extends_claim {w : Work} {r : Ref} {ids : List PyStr} {family : PyStr} (hr : r ∉ w.items)
    (hids : ∀ id ∈ ids, Dict.get? (familyByPattern st) id = some family) :
    Extends st w (claim st w r ids) := by
  have hsame : ∀ x, x ≠ r → (claim st w r ids).heap x = w.heap x := fun x hx =>
    heap_claim_of_ne st w ids hx
  constructor
  · intro x hx
    have hxr : x ≠ r := fun h => hr (h ▸ hx)
    obtain ⟨hmem, hq⟩ := Work.mem_items.mp hx
    rw [Work.ids_congr (hsame x hxr)]
    exact ⟨Work.mem_items.mpr ⟨hmem, (Work.quantified_congr (hsame x hxr)).trans hq⟩,
      fun _ hid => hid⟩
  · intro id hid x hx
    by_cases hxr : x = r
    · subst hxr
      rw [ids_claim]
      rintro ⟨a, ha, hclash⟩ b hb
      exact sameFamily_of_clash hclash (hids a ha) (hids b hb)
    · rw [Work.ids_congr (hsame x hxr)]
      obtain ⟨hmem, hq⟩ := Work.mem_items.mp hx
      rw [Work.quantified_congr (hsame x hxr)] at hq
      exact hid x (Work.mem_items.mpr ⟨hmem, hq⟩)

/-- The turn of an unquantified finding changes that finding only. -/
lemma repairFinding_extends (env : Env) (hst : st.WellFormed) {s : Repaired} {r : Ref}
    (hr : r ∉ s.work.items) :
    Extends st s.work (repairFinding env st s r).work ∧
      (∀ x, x ≠ r → x ∉ s.work.items → x ∉ (repairFinding env st s r).work.items) ∧
      ∀ x ∈ (repairFinding env st s r).removed, x = r ∨ x ∈ s.removed := by
  have hrefl : Extends st s.work s.work := .of_same rfl fun _ => rfl
  unfold repairFinding
  split
  · next family _ =>
    split
    · exact ⟨hrefl, fun _ _ h => h, fun x hx => List.mem_cons.mp hx⟩
    · split
      · exact ⟨hrefl, fun _ _ h => h, fun _ hx => .inr hx⟩
      · have hfamily := fun id hid => ((memberIds_spec hst family).2 id hid).2
        refine ⟨extends_claim hr hfamily, fun x hx hnot hmem => hnot ?_, fun _ hx => .inr hx⟩
        have hsame := heap_claim_of_ne st s.work (memberIds st family) hx
        obtain ⟨hmem, hq⟩ := Work.mem_items.mp hmem
        exact Work.mem_items.mpr ⟨hmem, (Work.quantified_congr hsame).symm.trans hq⟩
  · exact ⟨hrefl, fun _ _ h => h, fun _ hx => .inr hx⟩

lemma foldl_repairFinding_extends (env : Env) (hst : st.WellFormed) {refs : List Ref}
    {s : Repaired} (hrefs : refs.Nodup) (hfree : ∀ r ∈ refs, r ∉ s.work.items) :
    Extends st s.work (refs.foldl (repairFinding env st) s).work ∧
      ∀ x ∈ (refs.foldl (repairFinding env st) s).removed, x ∈ refs ∨ x ∈ s.removed := by
  induction refs generalizing s with
  | nil => exact ⟨.of_same rfl fun _ => rfl, fun _ hx => .inr hx⟩
  | cons r refs ih =>
    obtain ⟨hr, hrefs⟩ := List.nodup_cons.mp hrefs
    obtain ⟨hstep, hothers, hremoved⟩ :=
      repairFinding_extends env hst (hfree r List.mem_cons_self)
    have hrest := fun x hx => hothers x (fun h => hr (h ▸ hx)) (hfree x (List.mem_cons_of_mem _ hx))
    obtain ⟨hloop, hremoved'⟩ := ih hrefs hrest
    refine ⟨hstep.trans hloop, fun x hx => ?_⟩
    rcases hremoved' x hx with hx | hx
    · exact .inl (List.mem_cons_of_mem _ hx)
    · rcases hremoved x hx with rfl | hx
      · exact .inl List.mem_cons_self
      · exact .inr hx

/-- Only unquantified findings are left out. -/
lemma repairUnquantified_extends (env : Env) (hst : st.WellFormed) {w : Work}
    (hrefs : w.doc.refs.Nodup) : Extends st w (repairUnquantified env st w) := by
  have hfree : ∀ r ∈ w.doc.refs.filter fun r => !w.quantified r, r ∉ w.items := by
    intro r hr hitem
    have hq := (List.mem_filter.mp hr).2
    simp [(Work.mem_items.mp hitem).2] at hq
  obtain ⟨hloop, hremoved⟩ := foldl_repairFinding_extends env hst
    (s := ⟨w, (usedIds w).filterMap (Dict.get? (familyByPattern st)), []⟩) (hrefs.filter _) hfree
  unfold repairUnquantified
  dsimp only
  generalize (w.doc.refs.filter fun r => !w.quantified r).foldl (repairFinding env st)
    ⟨w, (usedIds w).filterMap (Dict.get? (familyByPattern st)), []⟩ = s at hloop hremoved ⊢
  generalize hw' : ({ s.work with doc := { s.work.doc with
      keyFinds := s.work.doc.keyFinds.filter fun r => !s.removed.contains r
      secondaryFinds := s.work.doc.secondaryFinds.filter fun r => !s.removed.contains r } } : Work)
    = w'
  have hsame : ∀ r, w'.heap r = s.work.heap r := fun r => by rw [← hw']
  have hmem : ∀ r, r ∈ w'.items ↔ r ∈ s.work.items ∧ r ∉ s.removed := by
    intro r
    have hrefs' : w'.doc.refs = s.work.doc.refs.filter fun r => !s.removed.contains r := by
      rw [← hw', Doc.refs, Doc.refs, List.filter_append]
    rw [Work.mem_items, Work.mem_items, hrefs', List.mem_filter, Work.quantified_congr (hsame r)]
    simp only [Bool.not_eq_true', List.contains_eq_mem, decide_eq_false_iff_not]
    exact and_right_comm
  constructor
  · intro r hr
    obtain ⟨hr', hids⟩ := hloop.grows r hr
    refine ⟨(hmem r).mpr ⟨hr', fun hout => ?_⟩, fun id hid => ?_⟩
    · rcases hremoved r hout with hout | hout
      · exact hfree r hout hr
      · cases hout
    · rw [Work.ids_congr (hsame r)]
      exact hids id hid
  · intro id hid r hr
    rw [Work.ids_congr (hsame r)]
    exact hloop.unmixed id hid r ((hmem r).mp hr).1

/-! ## Appended findings -/

/-- A finding that gets the unused patterns of a family has one of the family. -/
lemma ids_appendFamily (env : Env) {existing : Dict PyStr Ref} {w : Work}
    {group : PyStr × List Pattern} (hw : Counted st w) (h : Pending st existing w group) {r : Ref}
    (hr : r ∈ w.items) {id : PyStr} (hid : id ∈ (appendFamily env st existing w group).ids r) :
    id ∈ w.ids r ∨ id ∈ group.2.map (·.id) ∧
      ∃ own ∈ w.ids r, Dict.get? (familyByPattern st) own = some group.1 := by
  obtain ⟨family, items⟩ := group
  unfold appendFamily at hid
  dsimp only at hid
  split at hid
  · next owner hexisting =>
    change id ∈ (claim st w owner _).ids r at hid
    by_cases hro : r = owner
    · subst hro
      rw [ids_claim, List.mem_eraseDups, List.mem_append] at hid
      exact hid.imp_right fun hid => ⟨hid, (h.owner r hexisting).2⟩
    · rw [Work.ids_congr (heap_claim_of_ne st w _ hro)] at hid
      exact .inl hid
  · split at hid
    · exact .inl hid
    · have hne : r ≠ w.next := Nat.ne_of_lt (hw.lt r (Work.mem_items.mp hr).1)
      simp only [Work.ids, Work.heap_write, if_neg hne] at hid
      exact .inl hid

/-- The unused patterns of a family. -/
lemma appendFamily_extends (env : Env) (hst : st.WellFormed) {existing : Dict PyStr Ref} {w : Work}
    {group : PyStr × List Pattern} (hw : Counted st w) (h : Pending st existing w group) :
    Extends st w (appendFamily env st existing w group) := by
  have happended := (appendFamily_spec env hst hw h).2
  have hfamily : ∀ id ∈ group.2.map (·.id),
      Dict.get? (familyByPattern st) id = some group.1 := by
    intro id hid
    obtain ⟨p, hp, rfl⟩ := List.mem_map.mp hid
    exact (get?_familyByPattern hst).mpr ⟨p, (h.named p hp).1, rfl, (h.named p hp).2⟩
  refine ⟨happended.grows, fun id hid r hr => ?_⟩
  rintro ⟨a, ha, hclash⟩ b hb
  by_cases hitem : r ∈ w.items
  · -- the family the finding has already is the one it gets more patterns of
    have hold : ∃ a ∈ w.ids r, Clash st id a := by
      rcases ids_appendFamily env hw h hitem ha with ha | ⟨ha, own, hown, hf⟩
      · exact ⟨a, ha, hclash⟩
      · exact ⟨own, hown, .inr (sameFamily_of_clash hclash (hfamily a ha) hf)⟩
    rcases ids_appendFamily env hw h hitem hb with hb | ⟨hb, own, hown, hf⟩
    · exact hid r hitem hold b hb
    · exact sameFamily_of_clash (.inr (hid r hitem hold own hown)) hf (hfamily b hb)
  · have hnew : ∀ c ∈ (appendFamily env st existing w group).ids r,
        Dict.get? (familyByPattern st) c = some group.1 := by
      intro c hc
      rcases happended.only r hr c hc with hc | ⟨hold, -⟩
      · exact hfamily c hc
      · exact absurd hold hitem
    exact sameFamily_of_clash hclash (hnew a ha) (hnew b hb)

lemma foldl_appendFamily_extends (env : Env) (hst : st.WellFormed) {existing : Dict PyStr Ref}
    {w : Work} {groups : Dict PyStr (List Pattern)} (hkeys : (Dict.keys groups).Nodup)
    (hw : Counted st w) (h : ∀ group ∈ groups, Pending st existing w group) :
    Extends st w (groups.foldl (appendFamily env st existing) w) := by
  induction groups generalizing w with
  | nil => exact .of_same rfl fun _ => rfl
  | cons group groups ih =>
    obtain ⟨hkey, hkeys⟩ := List.nodup_cons.mp hkeys
    have hgroup := h group List.mem_cons_self
    obtain ⟨hcounted, happended⟩ := appendFamily_spec env hst hw hgroup
    refine (appendFamily_extends env hst hw hgroup).trans (ih hkeys hcounted fun other hother => ?_)
    refine (h other (List.mem_cons_of_mem _ hother)).mono hst ?_ hgroup.named happended
    intro heq
    exact hkey (List.mem_map.mpr ⟨other, hother, heq⟩)

/-! ## The later steps -/

/-- **The steps after the merging by details lose no pattern and mix no families.** -/
theorem finishPatterns_extends (env : Env) (hst : st.WellFormed) {w : Work}
    (hw : Sound (· = ·) st w) :
    Extends st (mergeDuplicates env (mergeFamilies env st w)) (finishPatterns env st true w) := by
  have hsound : Sound (Clash st) st (mergeDuplicates env (mergeFamilies env st w)) :=
    mergeDuplicates_sound hst (mergeFamilies_sound hst hw)
  unfold finishPatterns
  simp only [if_true]
  generalize mergeDuplicates env (mergeFamilies env st w) = w₁ at hsound ⊢
  -- the counts
  obtain ⟨hitems, hids, -⟩ := recount_items st hsound.refs
  have hcounted := recount_counted hsound
  refine (Extends.of_same hitems hids).trans ?_
  generalize recount st w₁ = w₂ at hcounted ⊢
  -- the unquantified findings
  refine (repairUnquantified_extends env hst hcounted.refs).trans ?_
  have hrepaired : Counted st (repairUnquantified env st w₂) :=
    repairUnquantified_counted hst hcounted
  generalize repairUnquantified env st w₂ = w₃ at hrepaired ⊢
  -- the appended findings
  obtain ⟨hkeys, hpending, -⟩ := omittedByFamily_spec hst w₃
  refine (foldl_appendFamily_extends env hst hkeys hrepaired hpending).trans ?_
  change Extends st (appendOmitted env st w₃) _
  obtain ⟨-, hcovers⟩ := appendOmitted_counted env hst hrepaired
  obtain ⟨hrefs, hheap, -⟩ := promote_refs hcovers
  have hsame : ∀ r, (promote st (appendOmitted env st w₃)).heap r =
      (appendOmitted env st w₃).heap r := fun r => by rw [hheap]
  refine .of_same ?_ fun r => Work.ids_congr (hsame r)
  have hquantified := funext fun r => Work.quantified_congr (hsame r)
  show (promote st (appendOmitted env st w₃)).doc.refs.filter _ = _
  rw [hrefs]
  exact congrArg (List.filter · _) hquantified

/-! ## Chains -/

/-- Every finding that is left out as a duplicate has its patterns in one finding of the result. -/
def KeepsDuplicates (env : Env) (w : Work) (out : Json.Fields) : Prop :=
  ∀ p ∈ duplicates env w w.items, ∃ f ∈ findings out, ∀ id ∈ w.ids p.1, id ∈ patternIdsOf f

instance (env : Env) (w : Work) (out : Json.Fields) : Decidable (KeepsDuplicates env w out) :=
  inferInstanceAs (Decidable (∀ p ∈ duplicates env w w.items, _))

/-- A duplicate whose owner is a duplicate itself has patterns of one family. -/
def ChainsOfOneFamily (env : Env) (st : Statistics) (w : Work) : Prop :=
  ∀ p ∈ duplicates env w w.items, ∀ q ∈ duplicates env w w.items, q.1 = p.2 →
    OneFamily st (w.ids p.1)

/-- **Nobody has the patterns of a duplicate of a duplicate**, nor others of their families. -/
lemma unmixed_of_chain (hst : st.WellFormed) {w : Work} (hw : Sound (Clash st) st w)
    {p q : Ref × Ref} (hp : p ∈ duplicates env w w.items) (hq : q ∈ duplicates env w w.items)
    (hchain : q.1 = p.2) {id : PyStr} (hid : id ∈ w.ids p.1) :
    Unmixed st id (mergeDuplicates env w) := by
  have hitems : w.items.Nodup := hw.refs.filter _
  have hmerged := mergeDuplicates_deduplicated env hst hw
  obtain ⟨hsublist, -, -⟩ := duplicates_spec env w hitems
  have hfst := hitems.sublist hsublist
  have hdup : ∀ p ∈ duplicates env w w.items, p.1 ∈ w.items := fun p hp =>
    hsublist.mem (List.mem_map_of_mem hp)
  rintro r hr ⟨a, ha, hclash⟩
  obtain ⟨hr, hkept⟩ := hmerged.mem_items.mp hr
  rcases hmerged.source r hr a ha with ha | ⟨p', hp', rfl, hown⟩
  · exact absurd hclash (hw.apart p.1 (hdup p hp) r hr (hkept p hp) id hid a ha)
  · by_cases hsame : p.1 = p'.1
    · -- what the duplicate has goes to its owner only, which is left out
      rw [← List.inj_on_of_nodup_map hfst hp hp' hsame] at hkept
      exact absurd hchain (hkept q hq)
    · exact absurd hclash (hw.apart p.1 (hdup p hp) p'.1 (hdup p' hp') hsame id hid a hown)

/-- The owner of the first duplicate is left. -/
lemma exists_kept (hst : st.WellFormed) {w : Work} (hw : Sound (Clash st) st w)
    {p : Ref × Ref} (hp : p ∈ duplicates env w w.items) :
    ∃ r, r ∈ (mergeDuplicates env w).items := by
  have hmerged := mergeDuplicates_deduplicated env hst hw
  have hitems : w.items.Nodup := hw.refs.filter _
  obtain ⟨-, howners, hpair⟩ := duplicates_spec env w hitems
  generalize duplicates env w w.items = dups at hp hmerged howners hpair
  cases dups with
  | nil => cases hp
  | cons first rest =>
    obtain ⟨howner, hne⟩ := howners first List.mem_cons_self
    refine ⟨first.2, hmerged.mem_items.mpr ⟨howner, fun q hq => ?_⟩⟩
    rcases List.mem_cons.mp hq with rfl | hq
    · exact hne.symm
    · exact (List.pairwise_cons.mp hpair).1 q hq

/-- When the patterns of all duplicates are kept. -/
theorem finishPatterns_keeps_duplicates_iff (hst : st.WellFormed) {w : Work}
    (hw : Sound (· = ·) st w) :
    KeepsDuplicates env (mergeFamilies env st w)
        ((finishPatterns env st true w).doc.read (finishPatterns env st true w).heap) ↔
      ChainsOfOneFamily env st (mergeFamilies env st w) := by
  have hsound : Sound (Clash st) st (mergeFamilies env st w) := mergeFamilies_sound hst hw
  have hmerged := mergeDuplicates_deduplicated env hst hsound
  have hextends := finishPatterns_extends env hst hw
  obtain ⟨hcounted, hcomplete⟩ := finishPatterns_counted env hst true hw
  generalize finishPatterns env st true w = final at hextends hcounted hcomplete ⊢
  generalize mergeFamilies env st w = w at hsound hmerged hextends ⊢
  have hitems : w.items.Nodup := hsound.refs.filter _
  obtain ⟨hsublist, howners, -⟩ := duplicates_spec env w hitems
  have hdup : ∀ p ∈ duplicates env w w.items, p.1 ∈ w.items := fun p hp =>
    hsublist.mem (List.mem_map_of_mem hp)
  have hfound : ∀ r ∈ final.items,
      Json.obj (final.heap r) ∈ findings (final.doc.read final.heap) :=
    fun r hr => findings_read final ▸ List.mem_map_of_mem (Work.mem_items.mp hr).1
  unfold KeepsDuplicates ChainsOfOneFamily
  constructor
  · intro hkept p hp q hq hchain id hid id' hid'
    obtain ⟨f, hf, hall⟩ := hkept p hp
    rw [findings_read] at hf
    obtain ⟨r, hr, rfl⟩ := List.mem_map.mp hf
    have hitem : r ∈ final.items := by
      refine Work.mem_items.mpr ⟨hr, ?_⟩
      by_contra hq
      have hmarker := patternIdsOf_unquantified (f := .obj (final.heap r))
        (Bool.not_eq_true _ ▸ hq)
      have hmem := hall id hid
      rw [hmarker, List.mem_singleton] at hmem
      exact unquantified_not_mem hst (hmem ▸ hsound.known p.1 (hdup p hp) id hid)
    have hunmixed := hextends.unmixed id (unmixed_of_chain hst hsound hp hq hchain hid)
    exact hunmixed r hitem ⟨id, hall id hid, .inl rfl⟩ id' (hall id' hid')
  · intro hfamilies p hp
    by_cases hchain : ∃ q ∈ duplicates env w w.items, q.1 = p.2
    · obtain ⟨q, hq, hchain⟩ := hchain
      have hone := hfamilies p hp q hq hchain
      -- every pattern of the family is claimed, and by the same finding
      have hclaimed : ∀ id ∈ w.ids p.1, ∃ r ∈ final.items, id ∈ final.ids r := by
        intro id hid
        obtain ⟨family, hfamily, -⟩ := hone id hid id hid
        obtain ⟨pattern, hpattern, rfl, -⟩ := (get?_familyByPattern hst).mp hfamily
        exact hcomplete pattern hpattern
      cases hids : w.ids p.1 with
      | nil =>
        obtain ⟨r, hr⟩ := exists_kept hst hsound hp
        exact ⟨_, hfound r (hextends.grows r hr).1, by simp⟩
      | cons first rest =>
        have hfirst : first ∈ w.ids p.1 := hids ▸ List.mem_cons_self
        obtain ⟨r, hr, hmem⟩ := hclaimed first hfirst
        refine ⟨_, hfound r hr, fun id hid => ?_⟩
        rw [← hids] at hid
        obtain ⟨r', hr', hmem'⟩ := hclaimed id hid
        have hsame : r = r' := by
          by_contra hne
          exact hcounted.apart r hr r' hr' hne first hmem id hmem' (.inr (hone first hfirst id hid))
        exact hsame ▸ hmem'
    · push Not at hchain
      have hkept := hmerged.mem_items.mpr ⟨(howners p hp).1, hchain⟩
      obtain ⟨hitem, hids⟩ := hextends.grows p.2 hkept
      exact ⟨_, hfound p.2 hitem, fun id hid => hids id (hmerged.gets p hp id hid)⟩

/-! ## A model result -/

/-- The findings when the merging by details begins. -/
def beforeDetails (env : Env) (st : Statistics) (result : Json.Fields) :
    Except (Failure Json.Fields) Work := do
  let (result, s) ← assignGroup env st true result ⟨[], false⟩ (py "key_finds")
  let (result, _) ← assignGroup env st true result s (py "secondary_finds")
  return mergeFamilies env st (Work.start result)

/-- **When the patterns of all duplicates are kept.** For every log and every model result without
evidence entries that is accepted in fallback mode: each finding left out as a duplicate has its
patterns in one finding of the result if and only if every duplicate of a duplicate has patterns of
one family. -/
theorem reconcileResult_keeps_duplicates_iff (env : Env) (logText : PyStr) (st : Statistics)
    (hst : preprocessLog env logText = .ok st) (result out left : Json.Fields)
    (hev : ∀ f ∈ findings result, ¬ NamesEvidence f)
    (h : reconcileResult env st true result = .ok (out, left)) :
    ∃ w, beforeDetails env st result = .ok w ∧
      (KeepsDuplicates env w out ↔ ChainsOfOneFamily env st w) := by
  have hwf := preprocessLog_wellFormed hst
  have h := reconcilePatterns_of_reconcileResult hev h
  obtain ⟨⟨result₁, s₁⟩, h₁, h⟩ := Except.bind_eq_ok.mp h
  obtain ⟨⟨result₂, s₂⟩, h₂, h⟩ := Except.bind_eq_ok.mp h
  dsimp only at h
  split at h
  · rw [Except.pure_eq_ok] at h
    cases h
    refine ⟨mergeFamilies env st (Work.start result₂), ?_, ?_⟩
    · rw [beforeDetails, h₁, Except.ok_bind]
      dsimp only
      rw [h₂]
      rfl
    · exact finishPatterns_keeps_duplicates_iff hwf (start_sound hwf h₁ h₂)
  · exact absurd h Except.throw_ne_ok

/-- The library on ASCII and Chinese texts, with the digests of the texts of `chainLog`. -/
def chainEnv : Env where
  __ := sampleEnv
  isWord := fun c => sampleEnv.isWord c || (decide (0x4E00 ≤ c) && decide (c ≤ 0x9FFF))
  sha256Hex := fun text => py (
    if text = py "disk full" then
      "8c96d76f620269be0f4cbc27e6cb594426729e32474260ef82eb6fc24b2cba2f"
    else if text = py "user ok" then
      "46ef61a2e42b2a6d0d593ba545a79d4efeba1cb21456d8296a7ea2d07f3479f2"
    else if text = py "queue idle" then
      "13a8bf24bd34d3255a53d435c1dfbeb834acd59d9c1a4df0cef753fd6e99687d"
    else
      "d8e30b832a7e6dfc69ba31ae3ac885bfa7e048e2c93fd2aca53f2cb4e0a0f276")

/-- A log of four entries, each with a pattern of its own. -/
def chainLog : PyStr := py "disk full\nuser ok\nqueue idle\ncache cold"

/-- A finding of `chainResult`. -/
def chainFinding (id : String) (patterns : List String) (detailEn detailZh : String) : Json :=
  .obj [(py "id", literal id), (py "pattern_ids", .arr (patterns.map literal)),
    (py "detail_en", literal detailEn), (py "detail_zh", literal detailZh)]

/-- Three findings: the second repeats the Chinese detail of the first, and the third the English
detail of the second. -/
def chainResult : Json.Fields :=
  [(py "key_finds", .arr [
    chainFinding "f1" ["p-8c96d76f6202"]
      "The disk of the reporting host is full and rejects writes."
      "报告主机的磁盘空间已经耗尽因此所有写入请求都被拒绝并且后续任务全部处于等待状态",
    chainFinding "f2" ["p-46ef61a2e42b"]
      "The host keeps accepting user sessions without any errors."
      "报告主机的磁盘空间已经耗尽因此所有写入请求都被拒绝并且后续任务全部处于等待状态",
    chainFinding "f3" ["p-13a8bf24bd34", "p-d8e30b832a7e"]
      "The host keeps accepting user sessions without any errors."
      "队列空闲"])]

lemma not_namesEvidence_chainResult : ∀ f ∈ findings chainResult, ¬ NamesEvidence f := by
  rintro f hf ⟨fields, rfl, hkey⟩
  have hnone : ∀ g ∈ findings chainResult, hasEvidence g = .ok false := by decide
  have hnames := hnone _ hf
  rw [hasEvidence, (Dict.contains_iff fields _).mpr hkey] at hnames
  cases hnames

lemma exists_chainResult_run :
    ∃ st out left, preprocessLog chainEnv chainLog = .ok st ∧
      reconcileResult chainEnv st true chainResult = .ok (out, left) ∧
      ((beforeDetails chainEnv st chainResult).toOption.any fun w =>
        !decide (KeepsDuplicates chainEnv w out)) = true :=
  exists_run chainEnv chainLog true chainResult _ (by decide +kernel)

/-- `reconcileResult_keeps_duplicates_iff` speaks about `chainResult`. -/
theorem chainResult_keeps_duplicates_iff :
    ∃ st out left w, preprocessLog chainEnv chainLog = .ok st ∧
      reconcileResult chainEnv st true chainResult = .ok (out, left) ∧
      beforeDetails chainEnv st chainResult = .ok w ∧
      (KeepsDuplicates chainEnv w out ↔ ChainsOfOneFamily chainEnv st w) := by
  obtain ⟨st, out, left, hst, h, -⟩ := exists_chainResult_run
  obtain ⟨w, hw, hiff⟩ := reconcileResult_keeps_duplicates_iff chainEnv chainLog st hst chainResult
    out left not_namesEvidence_chainResult h
  exact ⟨st, out, left, w, hst, h, hw, hiff⟩

/-- The patterns of the third finding end up in two findings. -/
theorem chainResult_not_keeps_duplicates :
    ∃ st out left w, preprocessLog chainEnv chainLog = .ok st ∧
      (∀ f ∈ findings chainResult, ¬ NamesEvidence f) ∧
      reconcileResult chainEnv st true chainResult = .ok (out, left) ∧
      beforeDetails chainEnv st chainResult = .ok w ∧ ¬ KeepsDuplicates chainEnv w out := by
  obtain ⟨st, out, left, hst, h, hrun⟩ := exists_chainResult_run
  obtain ⟨w, hw, hkept⟩ := (Option.any_eq_true _ _).mp hrun
  exact ⟨st, out, left, w, hst, not_namesEvidence_chainResult, h, Except.eq_ok_iff_toOption.mpr hw,
    by simpa using hkept⟩

end Triage

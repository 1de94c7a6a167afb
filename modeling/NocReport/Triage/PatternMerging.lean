import Mathlib.Data.List.Pairwise
import NocReport.Triage.PatternClaims

set_option relaxedAutoImplicit false
set_option autoImplicit false

/-!
# Merging findings

After the first loop the findings claim different patterns. Merging keeps it that way: the
patterns of a finding go to one finding at most. After the merging by families no two findings
have patterns of the same family either.

## Main definitions

* `Triage.Clash` — two patterns that may not be in different findings after the merging.
* `Triage.Sound` — the findings claim known patterns, and none that clash.

## Main results

* `Triage.Sound.regroup` — moving the patterns of every finding to one finding keeps it sound.
* `Triage.linkFamilies_spec` — findings that share a family get the same root.
* `Triage.components_spec` — the components share no finding and no family.
* `Triage.mergeFamilies_sound`, `Triage.mergeDuplicates_sound` — the two mergings.
-/

namespace Dict

variable {κ α β : Type} [DecidableEq κ]

/-- Collecting values by keys: what is found at a key. -/
lemma getD_foldl_push (key : β → κ) (val : β → α) (xs : List β) (d : Dict κ (List α)) (k : κ) :
    getD (xs.foldl (fun d x => push d (key x) (val x)) d) k [] =
      getD d k [] ++ (xs.filter fun x => key x = k).map val := by
  induction xs generalizing d with
  | nil => exact (List.append_nil _).symm
  | cons x xs ih =>
    rw [List.foldl_cons, ih]
    by_cases hk : key x = k
    · subst hk
      simp [push, getD]
    · have hpush : getD (push d (key x) (val x)) k [] = getD d k [] := by
        rw [push, getD, get?_set_of_ne _ _ (Ne.symm hk), getD]
      rw [hpush, List.filter_cons_of_neg (by simpa using hk)]

lemma nodup_keys_foldl_push (key : β → κ) (val : β → α) (xs : List β) {d : Dict κ (List α)}
    (hd : (keys d).Nodup) :
    (keys (xs.foldl (fun d x => push d (key x) (val x)) d)).Nodup := by
  induction xs generalizing d with
  | nil => exact hd
  | cons x xs ih => exact ih (nodup_keys_set hd _ _)

lemma ne_nil_of_mem_foldl_push (key : β → κ) (val : β → α) (xs : List β) {d : Dict κ (List α)}
    (hd : ∀ p ∈ d, p.2 ≠ []) :
    ∀ p ∈ xs.foldl (fun d x => push d (key x) (val x)) d, p.2 ≠ [] := by
  induction xs generalizing d with
  | nil => exact hd
  | cons x xs ih =>
    refine ih fun p hp => ?_
    rcases mem_set hp with rfl | hp
    · simp
    · exact hd p hp

section Collected

variable {key : β → κ} {val : β → α} {xs : List β}

/-- What is collected at a key are the values with it. -/
lemma mem_of_mem_foldl_push {k : κ} {c : List α}
    (h : (k, c) ∈ xs.foldl (fun d x => push d (key x) (val x)) []) {v : α} :
    v ∈ c ↔ ∃ x ∈ xs, key x = k ∧ val x = v := by
  have hkeys := nodup_keys_foldl_push key val xs (d := []) List.nodup_nil
  have hget := getD_foldl_push key val xs [] k
  rw [getD, get?_of_mem hkeys h, Option.getD_some] at hget
  rw [hget]
  simp [getD, and_assoc]

lemma exists_mem_foldl_push (key : β → κ) (val : β → α) {x : β} (hx : x ∈ xs) :
    ∃ c, (key x, c) ∈ xs.foldl (fun d x => push d (key x) (val x)) [] ∧ val x ∈ c := by
  have hget := getD_foldl_push key val xs [] (key x)
  have hmem : val x ∈ getD (xs.foldl (fun d x => push d (key x) (val x)) []) (key x) [] := by
    rw [hget]
    refine List.mem_append_right _ (List.mem_map_of_mem (List.mem_filter.mpr ⟨hx, ?_⟩))
    exact decide_eq_true rfl
  cases hc : get? (xs.foldl (fun d x => push d (key x) (val x)) []) (key x) with
  | none =>
    rw [getD, hc] at hmem
    cases hmem
  | some c =>
    rw [getD, hc] at hmem
    exact ⟨c, mem_of_get?_eq_some hc, hmem⟩

end Collected

end Dict

namespace Triage

/-! ## Findings in the heap -/

namespace Work

variable {w : Work} {r r' : Ref}

@[simp] lemma heap_write (w : Work) (r r' : Ref) (f : Json.Fields) :
    (w.write r f).heap r' = if r' = r then f else w.heap r' :=
  Function.update_apply _ _ _ _

@[simp] lemma doc_write (w : Work) (r : Ref) (f : Json.Fields) : (w.write r f).doc = w.doc := rfl

@[simp] lemma next_write (w : Work) (r : Ref) (f : Json.Fields) : (w.write r f).next = w.next := rfl

lemma heap_setIds (w : Work) (r r' : Ref) (ids : List PyStr) :
    (w.setIds r ids).heap r' =
      if r' = r then Dict.set (w.heap r) (py "pattern_ids") (texts ids) else w.heap r' :=
  heap_write w r r' _

@[simp] lemma doc_setIds (w : Work) (r : Ref) (ids : List PyStr) :
    (w.setIds r ids).doc = w.doc := rfl

@[simp] lemma next_setIds (w : Work) (r : Ref) (ids : List PyStr) :
    (w.setIds r ids).next = w.next := rfl

lemma mem_items : r ∈ w.items ↔ r ∈ w.doc.refs ∧ w.quantified r = true := List.mem_filter

/-- What is known about a finding depends on its fields only. -/
lemma ids_congr {w' : Work} (h : w'.heap r = w.heap r) : w'.ids r = w.ids r := by
  rw [ids, ids, h]

lemma quantified_congr {w' : Work} (h : w'.heap r = w.heap r) :
    w'.quantified r = w.quantified r := by
  rw [quantified, quantified, h]

/-- A finding with new patterns has these. -/
lemma ids_of_heap {f : Json.Fields} {ids : List PyStr}
    (h : w.heap r = Dict.set f (py "pattern_ids") (texts ids)) : w.ids r = ids := by
  rw [Work.ids, h, idsOf_set_pattern_ids]

lemma quantified_of_heap {f : Json.Fields} {ids : List PyStr}
    (h : w.heap r = Dict.set f (py "pattern_ids") (texts ids))
    (hids : py "unquantified" ∉ ids) : w.quantified r = true := by
  simp [quantified, h, isUnquantified_texts hids]

end Work

/-- The groups of a document share no finding when no finding is referred to twice. -/
lemma Doc.nodup_refs {doc : Doc} :
    doc.refs.Nodup ↔ doc.keyFinds.Nodup ∧ doc.secondaryFinds.Nodup ∧
      ∀ r ∈ doc.keyFinds, r ∉ doc.secondaryFinds := by
  rw [Doc.refs, List.nodup_append]
  refine and_congr_right fun _ => and_congr_right fun _ => ?_
  exact ⟨fun h r hk hs => h r hk r hs rfl, fun h a ha b hb hab => h a ha (hab ▸ hb)⟩

/-! ## Soundness -/

/-- Two patterns that are the same or of one family. -/
def Clash (st : Statistics) (id id' : PyStr) : Prop :=
  id = id' ∨ ∃ family, Dict.get? (familyByPattern st) id = some family ∧
    Dict.get? (familyByPattern st) id' = some family

lemma Clash.symm {st : Statistics} {id id' : PyStr} (h : Clash st id id') : Clash st id' id := by
  rcases h with rfl | ⟨family, h, h'⟩
  · exact .inl rfl
  · exact .inr ⟨family, h', h⟩

/-- No finding is referred to twice, those that are not quantified have no count, and the
quantified ones claim known patterns, of which no two in different findings are related. -/
structure Sound (related : PyStr → PyStr → Prop) (st : Statistics) (w : Work) : Prop where
  refs : w.doc.refs.Nodup
  lt : ∀ r ∈ w.doc.refs, r < w.next
  cleared : ∀ r ∈ w.doc.refs, w.quantified r = false → clearCount (w.heap r) = w.heap r
  known : ∀ r ∈ w.items, ∀ id ∈ w.ids r, id ∈ patternIds st
  own : ∀ r ∈ w.items, (w.ids r).Nodup
  apart : ∀ r ∈ w.items, ∀ r' ∈ w.items, r ≠ r' → ∀ id ∈ w.ids r, ∀ id' ∈ w.ids r',
    ¬ related id id'

section Sound

variable {related related' : PyStr → PyStr → Prop} {st : Statistics} {w w' : Work}

/-- Moving patterns between findings keeps them sound, if those of one finding go to one finding
at most and related ones go to the same. -/
lemma Sound.regroup (hw : Sound related st w) (goesTo : Ref → Ref → Prop)
    (hrefs : w'.doc.refs.Nodup) (hsub : ∀ r ∈ w'.doc.refs, r ∈ w.doc.refs)
    (hnext : w'.next = w.next)
    (hsame : ∀ r ∈ w'.doc.refs, w'.quantified r = false → w'.heap r = w.heap r)
    (hown : ∀ r ∈ w'.items, (w'.ids r).Nodup)
    (hids : ∀ r ∈ w'.items, ∀ id ∈ w'.ids r, ∃ x ∈ w.items, goesTo x r ∧ id ∈ w.ids x)
    (hone : ∀ x r r', goesTo x r → goesTo x r' → r = r')
    (hapart : ∀ x ∈ w.items, ∀ x' ∈ w.items, x ≠ x' → ∀ id ∈ w.ids x, ∀ id' ∈ w.ids x',
      related' id id' → ∀ r r', goesTo x r → goesTo x' r' → r = r') :
    Sound related' st w' where
  refs := hrefs
  lt r hr := hnext ▸ hw.lt r (hsub r hr)
  cleared r hr hq := by
    have hheap := hsame r hr hq
    rw [hheap]
    exact hw.cleared r (hsub r hr) (Work.quantified_congr hheap ▸ hq)
  known r hr id hid := by
    obtain ⟨x, hx, -, hid⟩ := hids r hr id hid
    exact hw.known x hx id hid
  own := hown
  apart r hr r' hr' hne id hid id' hid' hrel := by
    obtain ⟨x, hx, hgoes, hid⟩ := hids r hr id hid
    obtain ⟨x', hx', hgoes', hid'⟩ := hids r' hr' id' hid'
    by_cases hxx : x = x'
    · subst hxx
      exact hne (hone x r r' hgoes hgoes')
    · exact hne (hapart x hx x' hx' hxx id hid id' hid' hrel r r' hgoes hgoes')

end Sound

/-! ## Linking by families -/

section Families

variable {env : Env} {st : Statistics}

lemma mem_familiesOf {ids : List PyStr} {family : PyStr} :
    family ∈ familiesOf env st ids ↔
      ∃ id ∈ ids, Dict.get? (familyByPattern st) id = some family := by
  rw [familiesOf, (env.setOrder_perm _).mem_iff, List.mem_eraseDups, List.mem_filterMap]

/-- What holds when the families of the findings below `k` have been linked, those that `seen`
says: the other findings are roots, and a family leads to a finding with the root of each
finding it was seen in. -/
structure Linking (n k : ℕ) (seen : ℕ → PyStr → Prop) (s : Linked) : Prop where
  rising : UnionFind.Rising n s.parent
  fresh : ∀ j, k ≤ j → j < n → UnionFind.root n s.parent j = j
  below : ∀ j, j < k → UnionFind.root n s.parent j < k
  items : ∀ family j, Dict.get? s.familyToItem family = some j → j < k
  found : ∀ i family, seen i family → i < k ∧ ∃ j,
    Dict.get? s.familyToItem family = some j ∧
      UnionFind.root n s.parent j = UnionFind.root n s.parent i

/-- Linking finding `k` begins with itself as a root. -/
lemma Linking.next {n k : ℕ} {seen : ℕ → PyStr → Prop} {s : Linked} (h : Linking n k seen s)
    (hk : k < n) : Linking n (k + 1) seen s where
  rising := h.rising
  fresh j hj hn := h.fresh j (by omega) hn
  below j hj := by
    by_cases hjk : j = k
    · rw [hjk, h.fresh k (le_refl k) hk]
      omega
    · have := h.below j (by omega)
      omega
  items family j hj := by
    have := h.items family j hj
    omega
  found i family hi := by
    obtain ⟨hik, hfound⟩ := h.found i family hi
    exact ⟨by omega, hfound⟩

/-- One family of finding `k`. -/
lemma Linking.linkFamily {n k : ℕ} {seen : ℕ → PyStr → Prop} {s : Linked}
    (h : Linking n (k + 1) seen s) (hk : k < n) (family : PyStr) :
    Linking n (k + 1) (fun i f => seen i f ∨ (i = k ∧ f = family)) (linkFamily n k s family) := by
  have hroot : UnionFind.root n s.parent k = k := by
    have hle := h.rising.le_root (i := k)
    have hlt := h.below k (by omega)
    omega
  unfold Triage.linkFamily
  split
  · next previous hprevious =>
    have hlt := h.items family previous hprevious
    have hbelow := h.below previous hlt
    obtain ⟨hrising, hroots⟩ := UnionFind.union_spec n h.rising hk
      (show previous < n by omega) (le_refl n) (by omega)
    -- equal roots stay equal
    have hcongr : ∀ i j, i < n → j < n →
        UnionFind.root n s.parent i = UnionFind.root n s.parent j →
        UnionFind.root n (UnionFind.union n s.parent k previous) i =
          UnionFind.root n (UnionFind.union n s.parent k previous) j := by
      intro i j hi hj hij
      rw [hroots i hi, hroots j hj, hij]
    refine ⟨hrising, fun j hj hn => ?_, fun j hj => ?_, h.items, fun i f hseen => ?_⟩
    · rw [hroots j hn, h.fresh j hj hn, if_neg (by omega)]
    · rw [hroots j (by omega)]
      split
      · omega
      · exact h.below j hj
    · rcases hseen with hseen | ⟨rfl, rfl⟩
      · obtain ⟨hi, j, hj, hij⟩ := h.found i f hseen
        have := h.items f j hj
        exact ⟨hi, j, hj, hcongr j i (by omega) (by omega) hij⟩
      · refine ⟨by omega, previous, hprevious, ?_⟩
        rw [hroots previous (by omega), hroots i hk, if_pos rfl, hroot]
        split <;> rfl
  · next hnone =>
    refine ⟨h.rising, h.fresh, h.below, fun f j hj => ?_, fun i f hseen => ?_⟩
    · dsimp only at hj
      rw [Dict.get?_set] at hj
      split at hj
      · cases hj
        omega
      · exact h.items f j hj
    · rcases hseen with hseen | ⟨rfl, rfl⟩
      · obtain ⟨hi, j, hj, hij⟩ := h.found i f hseen
        refine ⟨hi, j, ?_, hij⟩
        have hne : f ≠ family := by
          rintro rfl
          rw [hnone] at hj
          cases hj
        rw [← hj]
        exact Dict.get?_set_of_ne _ _ hne
      · exact ⟨by omega, i, Dict.get?_set_self _ _ _, rfl⟩

/-- All families of finding `k`. -/
lemma Linking.foldl_linkFamily {n k : ℕ} {seen : ℕ → PyStr → Prop} {s : Linked}
    (h : Linking n (k + 1) seen s) (hk : k < n) (families : List PyStr) :
    Linking n (k + 1) (fun i f => seen i f ∨ (i = k ∧ f ∈ families))
      (families.foldl (Triage.linkFamily n k) s) := by
  induction families generalizing seen s with
  | nil => simpa using h
  | cons family families ih =>
    rw [List.foldl_cons]
    have hstep := ih (h.linkFamily hk family)
    refine ⟨hstep.rising, hstep.fresh, hstep.below, hstep.items, fun i f hseen => ?_⟩
    refine hstep.found i f ?_
    rcases hseen with hseen | ⟨hi, hf⟩
    · exact .inl (.inl hseen)
    · rcases List.mem_cons.mp hf with hf | hf
      · exact .inl (.inr ⟨hi, hf⟩)
      · exact .inr ⟨hi, hf⟩

/-- All families of some findings, the first of those there are. -/
lemma linking_foldl (n : ℕ) (families : List (List PyStr)) (hn : families.length ≤ n) :
    Linking n families.length (fun i f => ∃ fs, families[i]? = some fs ∧ f ∈ fs)
      (families.zipIdx.foldl (fun s item => item.1.foldl (linkFamily n item.2) s) ⟨id, []⟩) := by
  induction families using List.reverseRecOn with
  | nil =>
    refine ⟨UnionFind.rising_id n, fun j _ _ => UnionFind.Rising.root_of_fixed rfl, ?_, ?_, ?_⟩
    · intro j hj
      cases hj
    · intro family j hj
      cases hj
    · rintro i f ⟨fs, hfs, -⟩
      cases hfs
  | append_singleton families fs ih =>
    rw [List.length_append, List.length_singleton] at hn ⊢
    rw [List.zipIdx_append, List.foldl_append]
    have hstep := ((ih (by omega)).next (by omega)).foldl_linkFamily (by omega) fs
    rw [Nat.zero_add]
    refine ⟨hstep.rising, hstep.fresh, hstep.below, hstep.items, ?_⟩
    rintro i f ⟨fs', hfs', hf⟩
    refine hstep.found i f ?_
    rw [List.getElem?_append] at hfs'
    split at hfs'
    · exact .inl ⟨fs', hfs', hf⟩
    · have hi : i = families.length := by
        by_contra hne
        rw [List.getElem?_eq_none (by simp; omega)] at hfs'
        cases hfs'
      subst hi
      rw [Nat.sub_self] at hfs'
      cases hfs'
      exact .inr ⟨rfl, hf⟩

/-- **Findings that share a family get the same root.** -/
theorem linkFamilies_spec (families : List (List PyStr)) :
    UnionFind.Rising families.length (linkFamilies families).parent ∧
      ∀ i i' fs fs' f, families[i]? = some fs → families[i']? = some fs' → f ∈ fs → f ∈ fs' →
        UnionFind.root families.length (linkFamilies families).parent i =
          UnionFind.root families.length (linkFamilies families).parent i' := by
  have h := linking_foldl families.length families (le_refl _)
  refine ⟨h.rising, fun i i' fs fs' f hfs hfs' hf hf' => ?_⟩
  obtain ⟨-, j, hj, hij⟩ := h.found i f ⟨fs, hfs, hf⟩
  obtain ⟨-, j', hj', hij'⟩ := h.found i' f ⟨fs', hfs', hf'⟩
  rw [hj] at hj'
  cases hj'
  exact hij.symm.trans hij'

/-- Collecting the findings by their roots, with path halving on the way. -/
lemma foldl_addToComponent {n : ℕ} {root : ℕ → ℕ} {items : List (Ref × ℕ)}
    {s : (ℕ → ℕ) × Dict ℕ (List Ref)} (hitems : ∀ item ∈ items, item.2 < n)
    (hs : UnionFind.Rising n s.1) (hroot : ∀ k < n, UnionFind.root n s.1 k = root k) :
    (items.foldl (addToComponent n) s).2 =
      items.foldl (fun d item => Dict.push d (root item.2) item.1) s.2 := by
  induction items generalizing s with
  | nil => rfl
  | cons item items ih =>
    have hlt := hitems item List.mem_cons_self
    obtain ⟨hfind, hrising, hroots⟩ := UnionFind.find_spec n hs hlt (by omega)
    rw [List.foldl_cons, List.foldl_cons, ih (fun i hi => hitems i (List.mem_cons_of_mem _ hi))]
    · simp only [addToComponent, hfind, hroot item.2 hlt]
    · exact hrising
    · intro k hk
      rw [← hroot k hk]
      exact hroots k hk

lemma snd_lt_of_mem_zipIdx {α : Type} {xs : List α} {x : α × ℕ} (h : x ∈ xs.zipIdx) :
    x.2 < xs.length := (List.mem_zipIdx' h).1

/-- **The components share no finding and no family.** Every quantified finding is in some
component, no two components have one in common, and a finding that shares a family with a
finding of a component is in it too. -/
theorem components_spec (env : Env) (st : Statistics) {w : Work} (hitems : w.items.Nodup) :
    (∀ c ∈ components env st w, ∀ r ∈ c, r ∈ w.items) ∧
      (components env st w).Pairwise (fun c c' => ∀ r ∈ c, r ∉ c') ∧
      (∀ r ∈ w.items, ∃ c ∈ components env st w, r ∈ c) ∧
      ∀ r ∈ w.items, ∀ r' ∈ w.items, ∀ id ∈ w.ids r, ∀ id' ∈ w.ids r', ∀ family,
        Dict.get? (familyByPattern st) id = some family →
        Dict.get? (familyByPattern st) id' = some family →
        ∀ c ∈ components env st w, r ∈ c → r' ∈ c := by
  let families := w.items.map fun r => familiesOf env st (w.ids r)
  let n := w.items.length
  let root := UnionFind.root n (linkFamilies families).parent
  let dict := w.items.zipIdx.foldl (fun d item => Dict.push d (root item.2) item.1) []
  have hlen : families.length = n := List.length_map _
  obtain ⟨hrising, hshared⟩ := linkFamilies_spec families
  rw [hlen] at hrising hshared
  have hcomponents : components env st w = dict.map (·.2) := by
    show ((w.items.zipIdx.foldl (addToComponent n) ((linkFamilies families).parent, [])).2).map
      (·.2) = _
    rw [foldl_addToComponent (fun _ h => snd_lt_of_mem_zipIdx h) hrising fun _ _ => rfl]
  have hkeys : (Dict.keys dict).Nodup := Dict.nodup_keys_foldl_push _ _ _ List.nodup_nil
  -- a component is what is collected at its root
  have hmem : ∀ k c, (k, c) ∈ dict → ∀ r, r ∈ c ↔ ∃ i, w.items[i]? = some r ∧ root i = k := by
    intro k c hc r
    rw [Dict.mem_of_mem_foldl_push hc]
    constructor
    · rintro ⟨⟨r', i⟩, hr, hk, rfl⟩
      exact ⟨i, List.mem_zipIdx_iff_getElem?.mp hr, hk⟩
    · rintro ⟨i, hi, hk⟩
      exact ⟨(r, i), List.mem_zipIdx_iff_getElem?.mpr hi, hk, rfl⟩
  have hunique : ∀ (i j : ℕ) (r : Ref), w.items[i]? = some r → w.items[j]? = some r → i = j := by
    intro i j r hi hj
    obtain ⟨hlt, -⟩ := List.getElem?_eq_some_iff.mp hi
    exact (List.getElem?_inj hlt hitems).mp (hi.trans hj.symm)
  rw [hcomponents]
  refine ⟨?_, ?_, fun r hr => ?_, fun r hr r' hr' id hid id' hid' family hf hf' c hc hrc => ?_⟩
  · intro c hc r hr
    obtain ⟨⟨k, c⟩, hkc, rfl⟩ := List.mem_map.mp hc
    obtain ⟨i, hi, -⟩ := (hmem k c hkc r).mp hr
    exact List.mem_of_getElem? hi
  · rw [List.pairwise_map]
    have hpair : dict.Pairwise fun p q => p.1 ≠ q.1 := List.pairwise_map.mp hkeys
    refine List.Pairwise.imp_of_mem ?_ hpair
    rintro ⟨k, c⟩ ⟨k', c'⟩ hc hc' hne r hr hr'
    obtain ⟨i, hi, hik⟩ := (hmem k c hc r).mp hr
    obtain ⟨j, hj, hjk⟩ := (hmem k' c' hc' r).mp hr'
    rw [hunique i j r hi hj] at hik
    exact hne (hik.symm.trans hjk)
  · obtain ⟨i, hi⟩ := List.mem_iff_getElem?.mp hr
    have hitem : (r, i) ∈ w.items.zipIdx := List.mem_zipIdx_iff_getElem?.mpr hi
    obtain ⟨c, hc, hrc⟩ :=
      Dict.exists_mem_foldl_push (fun item : Ref × ℕ => root item.2) (·.1) hitem
    exact ⟨c, List.mem_map.mpr ⟨_, hc, rfl⟩, hrc⟩
  · obtain ⟨⟨k, c⟩, hkc, rfl⟩ := List.mem_map.mp hc
    obtain ⟨i, hi, hik⟩ := (hmem k c hkc r).mp hrc
    obtain ⟨j, hj⟩ := List.mem_iff_getElem?.mp hr'
    refine (hmem k c hkc r').mpr ⟨j, hj, ?_⟩
    rw [← hik]
    refine hshared j i (familiesOf env st (w.ids r')) (familiesOf env st (w.ids r)) family ?_ ?_
      (mem_familiesOf.mpr ⟨id', hid', hf'⟩) (mem_familiesOf.mpr ⟨id, hid, hf⟩)
    · rw [List.getElem?_map, hj]
      rfl
    · rw [List.getElem?_map, hi]
      rfl

/-- The finding a component is merged into is one of its findings. -/
lemma mem_of_primaryOf {w : Work} {c : List Ref} {r : Ref} (h : primaryOf w c = some r) : r ∈ c := by
  unfold primaryOf at h
  split at h
  · next hfind =>
    cases h
    exact List.mem_of_find?_eq_some hfind
  · exact List.mem_of_head? h

lemma primaryOf_congr {w w' : Work} (h : w'.doc = w.doc) (c : List Ref) :
    primaryOf w' c = primaryOf w c := by
  rw [primaryOf, primaryOf, h]

/-- What merging some components does: each primary finding gets the patterns of its component,
and no other finding changes. -/
lemma foldl_mergeComponent (w : Work) {comps : List (List Ref)}
    (hdisjoint : comps.Pairwise fun c c' => ∀ r ∈ c, r ∉ c') :
    (comps.foldl mergeComponent w).doc = w.doc ∧ (comps.foldl mergeComponent w).next = w.next ∧
      ∀ r, ((∀ c ∈ comps, primaryOf w c ≠ some r) →
          (comps.foldl mergeComponent w).heap r = w.heap r) ∧
        ∀ c ∈ comps, primaryOf w c = some r → (comps.foldl mergeComponent w).heap r =
          Dict.set (w.heap r) (py "pattern_ids") (texts (c.flatMap w.ids).eraseDups) := by
  induction comps using List.reverseRecOn with
  | nil => exact ⟨rfl, rfl, fun r => ⟨fun _ => rfl, by simp⟩⟩
  | append_singleton comps c ih =>
    rw [List.pairwise_append] at hdisjoint
    obtain ⟨hinit, -, hlast⟩ := hdisjoint
    obtain ⟨hdoc, hnext, hheap⟩ := ih hinit
    rw [List.foldl_append, List.foldl_cons, List.foldl_nil]
    -- the component was not touched before
    have hfresh : ∀ r ∈ c, (comps.foldl mergeComponent w).heap r = w.heap r := fun r hr =>
      (hheap r).1 fun c' hc' hp =>
        hlast c' hc' c (List.mem_singleton_self c) r (mem_of_primaryOf hp) hr
    have hids : c.flatMap (comps.foldl mergeComponent w).ids = c.flatMap w.ids :=
      List.flatMap_congr fun r hr => Work.ids_congr (hfresh r hr)
    generalize comps.foldl mergeComponent w = v at hdoc hnext hheap hfresh hids ⊢
    rw [mergeComponent, primaryOf_congr hdoc]
    cases hprimary : primaryOf w c with
    | none =>
      refine ⟨hdoc, hnext, fun r => ⟨fun hr => ?_, fun c' hc' hp => ?_⟩⟩
      · exact (hheap r).1 fun c' hc' => hr c' (List.mem_append_left _ hc')
      · rcases List.mem_append.mp hc' with hc' | hc'
        · exact (hheap r).2 c' hc' hp
        · rw [List.mem_singleton] at hc'
          subst hc'
          rw [hprimary] at hp
          cases hp
    | some p =>
      have hpc : p ∈ c := mem_of_primaryOf hprimary
      refine ⟨hdoc, hnext, fun r => ?_⟩
      dsimp only
      rw [Work.heap_setIds, hids]
      constructor
      · intro hr
        have hne : r ≠ p := by
          rintro rfl
          exact hr c (by simp) hprimary
        rw [if_neg hne]
        exact (hheap r).1 fun c' hc' => hr c' (List.mem_append_left _ hc')
      · intro c' hc' hp
        rcases List.mem_append.mp hc' with hc' | hc'
        · have hne : r ≠ p := by
            rintro rfl
            exact hlast c' hc' c (List.mem_singleton_self c) r (mem_of_primaryOf hp) hpc
          rw [if_neg hne]
          exact (hheap r).2 c' hc' hp
        · rw [List.mem_singleton] at hc'
          subst hc'
          rw [hprimary] at hp
          cases hp
          rw [if_pos rfl, hfresh _ hpc]

/-- A group after the merging: its primary findings, and those that are not quantified. -/
lemma rebuilt_spec {primaries group : List Ref} {q : Ref → Bool} (hprimaries : primaries.Nodup)
    (hgroup : group.Nodup) (hq : ∀ r ∈ primaries, q r = true) :
    (primaries.filter group.contains ++ group.filter fun r => !q r).Nodup ∧
      ∀ r ∈ primaries.filter group.contains ++ group.filter (fun r => !q r),
        r ∈ group ∧ (q r = true → r ∈ primaries) := by
  constructor
  · refine List.nodup_append.mpr ⟨hprimaries.filter _, hgroup.filter _, ?_⟩
    rintro a ha b hb rfl
    rw [List.mem_filter] at ha hb
    simp [hq a ha.1] at hb
  · intro r hr
    rcases List.mem_append.mp hr with hr | hr
    · rw [List.mem_filter] at hr
      exact ⟨by simpa using hr.2, fun _ => hr.1⟩
    · rw [List.mem_filter] at hr
      exact ⟨hr.1, fun h => by simp [h] at hr⟩

/-- A group of findings that replaces another one. -/
lemma Doc.nodup_refs_of_subset {doc doc' : Doc} (h : doc.refs.Nodup)
    (hkey : doc'.keyFinds.Nodup) (hsecondary : doc'.secondaryFinds.Nodup)
    (hsubKey : ∀ r ∈ doc'.keyFinds, r ∈ doc.keyFinds)
    (hsubSecondary : ∀ r ∈ doc'.secondaryFinds, r ∈ doc.secondaryFinds) : doc'.refs.Nodup := by
  obtain ⟨-, -, hdisjoint⟩ := Doc.nodup_refs.mp h
  exact Doc.nodup_refs.mpr
    ⟨hkey, hsecondary, fun r hr hr' => hdisjoint r (hsubKey r hr) (hsubSecondary r hr')⟩

/-- **Merging by families is sound**, and no two findings have patterns of a family after it. -/
theorem mergeFamilies_sound (hst : st.WellFormed) {w : Work} (hw : Sound (· = ·) st w) :
    Sound (Clash st) st (mergeFamilies env st w) := by
  have hitems : w.items.Nodup := hw.refs.filter _
  obtain ⟨hsub, hdisjoint, hcover, hfamily⟩ := components_spec env st hitems
  generalize hcomps : components env st w = comps at hsub hdisjoint hcover hfamily
  have hone : ∀ c ∈ comps, ∀ c' ∈ comps, ∀ r, r ∈ c → r ∈ c' → c = c' := by
    intro c hc c' hc' r hr hr'
    by_contra hne
    have : Std.Symm fun c c' : List Ref => ∀ r ∈ c, r ∉ c' := ⟨fun _ _ h r hr' hr => h r hr hr'⟩
    exact hdisjoint.forall hc hc' hne r hr hr'
  have hknown : ∀ c ∈ comps, py "unquantified" ∉ (c.flatMap w.ids).eraseDups := by
    intro c hc hmem
    obtain ⟨r, hr, hid⟩ := List.mem_flatMap.mp (List.mem_eraseDups.mp hmem)
    exact unquantified_not_mem hst (hw.known r (hsub c hc r hr) _ hid)
  unfold mergeFamilies
  rw [hcomps]
  dsimp only
  split
  · obtain ⟨hdoc, hnext, hheap⟩ := foldl_mergeComponent w hdisjoint
    generalize comps.foldl mergeComponent w = merged at hdoc hnext hheap ⊢
    have hprimary : ∀ c ∈ comps, ∀ r, primaryOf w c = some r →
        merged.ids r = (c.flatMap w.ids).eraseDups ∧ merged.quantified r = true := fun c hc r hr =>
      ⟨Work.ids_of_heap ((hheap r).2 c hc hr),
        Work.quantified_of_heap ((hheap r).2 c hc hr) (hknown c hc)⟩
    have hnodup : (comps.filterMap (primaryOf w)).Nodup := by
      refine hdisjoint.filterMap _ ?_
      intro c c' hcc r hr r' hr' heq
      exact hcc r (mem_of_primaryOf hr) (heq ▸ mem_of_primaryOf hr')
    have hquantified : ∀ r ∈ comps.filterMap (primaryOf w), merged.quantified r = true := by
      intro r hr
      obtain ⟨c, hc, hr⟩ := List.mem_filterMap.mp hr
      exact (hprimary c hc r hr).2
    obtain ⟨hkey, hsecondary, -⟩ := Doc.nodup_refs.mp hw.refs
    obtain ⟨hkey', hkeyMem⟩ := rebuilt_spec hnodup hkey hquantified
    obtain ⟨hsecondary', hsecondaryMem⟩ := rebuilt_spec hnodup hsecondary hquantified
    let rebuilt := fun group : List Ref =>
      (comps.filterMap (primaryOf w)).filter group.contains ++
        group.filter fun r => !merged.quantified r
    have hmem : ∀ r ∈ rebuilt w.doc.keyFinds ++ rebuilt w.doc.secondaryFinds,
        r ∈ w.doc.refs ∧ (merged.quantified r = true → r ∈ comps.filterMap (primaryOf w)) := by
      intro r hr
      rcases List.mem_append.mp hr with hr | hr
      · exact ⟨List.mem_append_left _ (hkeyMem r hr).1, (hkeyMem r hr).2⟩
      · exact ⟨List.mem_append_right _ (hsecondaryMem r hr).1, (hsecondaryMem r hr).2⟩
    refine hw.regroup (fun x r => ∃ c ∈ comps, x ∈ c ∧ primaryOf w c = some r)
      (Doc.nodup_refs_of_subset hw.refs hkey' hsecondary' (fun r hr => (hkeyMem r hr).1)
        fun r hr => (hsecondaryMem r hr).1)
      (fun r hr => (hmem r hr).1) hnext ?_ ?_ ?_ ?_ ?_
    · intro r _ hq
      refine (hheap r).1 fun c hc hr => ?_
      have hq' : merged.quantified r = false := hq
      rw [(hprimary c hc r hr).2] at hq'
      cases hq'
    · intro r hr
      obtain ⟨hr, hq⟩ := Work.mem_items.mp hr
      obtain ⟨c, hc, hr⟩ := List.mem_filterMap.mp ((hmem r hr).2 hq)
      show (merged.ids r).Nodup
      rw [(hprimary c hc r hr).1]
      exact List.nodup_eraseDups (c.flatMap w.ids)
    · intro r hr id hid
      obtain ⟨hr, hq⟩ := Work.mem_items.mp hr
      obtain ⟨c, hc, hr⟩ := List.mem_filterMap.mp ((hmem r hr).2 hq)
      have hid' : id ∈ merged.ids r := hid
      rw [(hprimary c hc r hr).1, List.mem_eraseDups, List.mem_flatMap] at hid'
      obtain ⟨x, hx, hid'⟩ := hid'
      exact ⟨x, hsub c hc x hx, ⟨c, hc, hx, hr⟩, hid'⟩
    · rintro x r r' ⟨c, hc, hx, hr⟩ ⟨c', hc', hx', hr'⟩
      rw [hone c hc c' hc' x hx hx', hr'] at hr
      cases hr
      rfl
    · rintro x hx x' hx' hne id hid id' hid' hclash r r' ⟨c, hc, hxc, hr⟩ ⟨c', hc', hxc', hr'⟩
      rcases hclash with rfl | ⟨family, hf, hf'⟩
      · exact absurd rfl (hw.apart x hx x' hx' hne id hid id hid')
      · have hx'c := hfamily x hx x' hx' id hid id' hid' family hf hf' c hc hxc
        rw [hone c hc c' hc' x' hx'c hxc', hr'] at hr
        cases hr
        rfl
  · next hsingle =>
    refine { hw with apart := fun r hr r' hr' hne id hid id' hid' hclash => ?_ }
    rcases hclash with rfl | ⟨family, hf, hf'⟩
    · exact hw.apart r hr r' hr' hne id hid id hid' rfl
    · obtain ⟨c, hc, hrc⟩ := hcover r hr
      have hr'c := hfamily r hr r' hr' id hid id' hid' family hf hf' c hc hrc
      have hlen : c.length ≤ 1 := by
        have := mt List.any_eq_true.mpr hsingle
        push Not at this
        simpa using this c hc
      match c, hlen, hrc, hr'c with
      | [x], _, hrc, hr'c =>
        rw [List.mem_singleton] at hrc hr'c
        exact hne (hrc.trans hr'c.symm)

end Families

/-! ## Merging by details -/

section Details

variable {env : Env} {st : Statistics}

/-- The owner found for a finding owned a signature before, and is another one. -/
lemma findOwner_spec {r : Ref} {owners owners' : Dict PyStr Ref} {signatures : List PyStr}
    {owner : Option Ref} (h : findOwner r owners signatures = (owners', owner)) :
    (∀ o, owner = some o → o ≠ r ∧ ∃ signature, Dict.get? owners signature = some o) ∧
      ∀ signature o, Dict.get? owners' signature = some o →
        o = r ∨ Dict.get? owners signature = some o := by
  induction signatures generalizing owners with
  | nil =>
    cases h
    exact ⟨by simp, fun signature o ho => .inr ho⟩
  | cons signature rest ih =>
    have hset : ∀ s o, Dict.get? (Dict.set owners signature r) s = some o →
        o = r ∨ Dict.get? owners s = some o := by
      intro s o ho
      rw [Dict.get?_set] at ho
      split at ho
      · exact .inl (by cases ho; rfl)
      · exact .inr ho
    -- what is recorded for the finding itself is no owner of it
    have hrest : findOwner r (Dict.set owners signature r) rest = (owners', owner) →
        (∀ o, owner = some o → o ≠ r ∧ ∃ s, Dict.get? owners s = some o) ∧
          ∀ s o, Dict.get? owners' s = some o → o = r ∨ Dict.get? owners s = some o := by
      intro hfind
      obtain ⟨howner, howners⟩ := ih hfind
      refine ⟨fun o ho => ?_, fun s o ho => ?_⟩
      · obtain ⟨hne, s, hs⟩ := howner o ho
        exact ⟨hne, s, (hset s o hs).resolve_left hne⟩
      · rcases howners s o ho with ho | ho
        · exact .inl ho
        · exact hset s o ho
    rw [findOwner] at h
    split at h
    · next o ho =>
      split at h
      · exact hrest h
      · next hne =>
        cases h
        refine ⟨fun o' ho' => ?_, fun s o ho => .inr ho⟩
        cases ho'
        exact ⟨hne, signature, ho⟩
    · exact hrest h

/-- Every duplicate is one of the findings, once, and its owner comes before it. -/
lemma duplicates_spec (env : Env) (w : Work) {refs : List Ref} (hrefs : refs.Nodup) :
    ((duplicates env w refs).map (·.1)).Sublist refs ∧
      (∀ p ∈ duplicates env w refs, p.2 ∈ refs ∧ p.2 ≠ p.1) ∧
      (duplicates env w refs).Pairwise fun p q => q.1 ≠ p.2 := by
  let step := fun (s : Dict PyStr Ref × List (Ref × Ref)) r =>
    let found := findOwner r s.1 (signatures env (w.heap r))
    (found.1, s.2 ++ (found.2.map fun o => (r, o)).toList)
  have key : (∀ s o, Dict.get? (refs.foldl step ([], [])).1 s = some o → o ∈ refs) ∧
      ((refs.foldl step ([], [])).2.map (·.1)).Sublist refs ∧
      (∀ p ∈ (refs.foldl step ([], [])).2, p.2 ∈ refs ∧ p.2 ≠ p.1) ∧
      (refs.foldl step ([], [])).2.Pairwise fun p q => q.1 ≠ p.2 := by
    induction refs using List.reverseRecOn with
    | nil => exact ⟨by simp, .slnil, by simp, .nil⟩
    | append_singleton refs r ih =>
      rw [List.nodup_append] at hrefs
      obtain ⟨hinit, -, hlast⟩ := hrefs
      obtain ⟨howners, hsub, hdups, hpair⟩ := ih hinit
      have hfresh : r ∉ refs := fun hr => hlast r hr r (List.mem_singleton_self r) rfl
      rw [List.foldl_append, List.foldl_cons, List.foldl_nil]
      generalize refs.foldl step ([], []) = s at howners hsub hdups hpair ⊢
      dsimp only [step]
      cases hfind : findOwner r s.1 (signatures env (w.heap r)) with
      | mk owners' owner =>
        obtain ⟨howner, howners'⟩ := findOwner_spec hfind
        refine ⟨fun signature o ho => ?_, ?_, fun p hp => ?_, ?_⟩
        · rcases howners' signature o ho with rfl | ho
          · exact List.mem_append_right _ (List.mem_singleton_self o)
          · exact List.mem_append_left _ (howners signature o ho)
        · cases owner with
          | none => simpa using hsub.trans (List.sublist_append_left refs [r])
          | some o => simpa using hsub.append (List.Sublist.refl [r])
        · rcases List.mem_append.mp hp with hp | hp
          · exact ⟨List.mem_append_left _ (hdups p hp).1, (hdups p hp).2⟩
          · cases owner with
            | none => simp at hp
            | some o =>
              obtain ⟨hne, signature, ho⟩ := howner o rfl
              have hpo : p = (r, o) := by simpa using hp
              rw [hpo]
              exact ⟨List.mem_append_left _ (howners signature o ho), hne⟩
        · refine List.pairwise_append.mpr ⟨hpair, ?_, fun p hp q hq => ?_⟩
          · cases owner <;> simp
          · cases owner with
            | none => simp at hq
            | some o =>
              have hqo : q = (r, o) := by simpa using hq
              rw [hqo]
              rintro rfl
              exact hfresh (hdups p hp).1
  exact key.2

/-- What merging duplicates does: an owner has its own patterns and those of its duplicates, and
no other finding changes. -/
lemma foldl_mergeDuplicate (w : Work) {dups : List (Ref × Ref)}
    (hdups : dups.Pairwise fun p q => q.1 ≠ p.2) :
    (dups.foldl mergeDuplicate w).doc = w.doc ∧ (dups.foldl mergeDuplicate w).next = w.next ∧
      ∀ r, ((∀ p ∈ dups, p.2 ≠ r) → (dups.foldl mergeDuplicate w).heap r = w.heap r) ∧
        ∀ p ∈ dups, p.2 = r → ∃ f ids,
          (dups.foldl mergeDuplicate w).heap r = Dict.set f (py "pattern_ids") (texts ids) ∧
            ids.Nodup ∧ ∀ id ∈ ids, id ∈ w.ids r ∨ ∃ q ∈ dups, q.2 = r ∧ id ∈ w.ids q.1 := by
  induction dups using List.reverseRecOn with
  | nil => exact ⟨rfl, rfl, fun r => ⟨fun _ => rfl, by simp⟩⟩
  | append_singleton dups p ih =>
    rw [List.pairwise_append] at hdups
    obtain ⟨hinit, -, hlast⟩ := hdups
    obtain ⟨hdoc, hnext, hheap⟩ := ih hinit
    rw [List.foldl_append, List.foldl_cons, List.foldl_nil]
    generalize dups.foldl mergeDuplicate w = v at hdoc hnext hheap ⊢
    -- nothing has been merged into a duplicate when its turn comes
    have hfresh : v.ids p.1 = w.ids p.1 :=
      Work.ids_congr ((hheap p.1).1 fun q hq => Ne.symm (hlast q hq p (List.mem_singleton_self p)))
    have hold : ∀ id ∈ v.ids p.2,
        id ∈ w.ids p.2 ∨ ∃ q ∈ dups, q.2 = p.2 ∧ id ∈ w.ids q.1 := by
      intro id hid
      by_cases howner : ∃ q ∈ dups, q.2 = p.2
      · obtain ⟨q, hq, hqp⟩ := howner
        obtain ⟨f, ids, hf, -, hids⟩ := (hheap p.2).2 q hq hqp
        rw [Work.ids_of_heap hf] at hid
        exact hids id hid
      · push Not at howner
        rw [Work.ids_congr ((hheap p.2).1 howner)] at hid
        exact .inl hid
    refine ⟨hdoc, hnext, fun r => ?_⟩
    rw [mergeDuplicate, Work.heap_setIds]
    constructor
    · intro hr
      rw [if_neg fun h => hr p (by simp) h.symm]
      exact (hheap r).1 fun q hq => hr q (List.mem_append_left _ hq)
    · intro q hq hqr
      by_cases hrp : r = p.2
      · subst hrp
        rw [if_pos rfl, hfresh]
        refine ⟨_, _, rfl, List.nodup_eraseDups _, fun id hid => ?_⟩
        rcases List.mem_append.mp (List.mem_eraseDups.mp hid) with hid | hid
        · rcases hold id hid with hid | ⟨q', hq', h⟩
          · exact .inl hid
          · exact .inr ⟨q', List.mem_append_left _ hq', h⟩
        · exact .inr ⟨p, by simp, rfl, hid⟩
      · rw [if_neg hrp]
        have hq' : q ∈ dups := by
          rcases List.mem_append.mp hq with hq | hq
          · exact hq
          · rw [List.mem_singleton] at hq
            subst hq
            exact absurd hqr.symm hrp
        obtain ⟨f, ids, hf, hnodup, hids⟩ := (hheap r).2 q hq' hqr
        refine ⟨f, ids, hf, hnodup, fun id hid => ?_⟩
        rcases hids id hid with hid | ⟨q', hq', h⟩
        · exact .inl hid
        · exact .inr ⟨q', List.mem_append_left _ hq', h⟩

/-- No finding loses a pattern, and an owner gets those of its duplicates. -/
lemma subset_foldl_mergeDuplicate (w : Work) (dups : List (Ref × Ref)) :
    (∀ r, ∀ id ∈ w.ids r, id ∈ (dups.foldl mergeDuplicate w).ids r) ∧
      ∀ p ∈ dups, ∀ id ∈ w.ids p.1, id ∈ (dups.foldl mergeDuplicate w).ids p.2 := by
  induction dups using List.reverseRecOn with
  | nil => exact ⟨fun _ _ hid => hid, by simp⟩
  | append_singleton dups p ih =>
    obtain ⟨hkeeps, hgets⟩ := ih
    rw [List.foldl_append, List.foldl_cons, List.foldl_nil]
    generalize dups.foldl mergeDuplicate w = v at hkeeps hgets ⊢
    have howner : (mergeDuplicate v p).ids p.2 = (v.ids p.2 ++ v.ids p.1).eraseDups :=
      Work.ids_of_heap ((v.heap_setIds p.2 p.2 _).trans (if_pos rfl))
    have hgrows : ∀ r, ∀ id ∈ v.ids r, id ∈ (mergeDuplicate v p).ids r := by
      intro r id hid
      by_cases hr : r = p.2
      · rw [hr, howner, List.mem_eraseDups, List.mem_append]
        exact .inl (hr ▸ hid)
      · have hsame : (mergeDuplicate v p).heap r = v.heap r :=
          (v.heap_setIds p.2 r _).trans (if_neg hr)
        rw [Work.ids_congr hsame]
        exact hid
    refine ⟨fun r id hid => hgrows r id (hkeeps r id hid), fun q hq id hid => ?_⟩
    rcases List.mem_append.mp hq with hq | hq
    · exact hgrows q.2 id (hgets q hq id hid)
    · rw [List.mem_singleton] at hq
      rw [hq] at hid ⊢
      rw [howner, List.mem_eraseDups, List.mem_append]
      exact .inr (hkeeps p.1 id hid)

/-- What merging duplicates does: they are left out, and their owners get their patterns. -/
structure Deduplicated (w w' : Work) (dups : List (Ref × Ref)) : Prop where
  next : w'.next = w.next
  refs : ∀ r, r ∈ w'.doc.refs ↔ r ∈ w.doc.refs ∧ ∀ p ∈ dups, p.1 ≠ r
  same : ∀ r, r ∉ w.items → w'.heap r = w.heap r
  quantified : ∀ r ∈ w.items, w'.quantified r = true
  own : ∀ r ∈ w.items, (w'.ids r).Nodup
  /-- a pattern is the finding's own or a duplicate's -/
  source : ∀ r ∈ w.items, ∀ id ∈ w'.ids r,
    id ∈ w.ids r ∨ ∃ p ∈ dups, p.2 = r ∧ id ∈ w.ids p.1
  keeps : ∀ r, ∀ id ∈ w.ids r, id ∈ w'.ids r
  gets : ∀ p ∈ dups, ∀ id ∈ w.ids p.1, id ∈ w'.ids p.2

/-- The quantified findings that are left. -/
lemma Deduplicated.mem_items {w w' : Work} {dups : List (Ref × Ref)} (h : Deduplicated w w' dups)
    {r : Ref} : r ∈ w'.items ↔ r ∈ w.items ∧ ∀ p ∈ dups, p.1 ≠ r := by
  rw [Work.mem_items, h.refs]
  constructor
  · rintro ⟨⟨hr, hkept⟩, hq⟩
    refine ⟨?_, hkept⟩
    by_contra hnot
    rw [Work.quantified_congr (h.same r hnot)] at hq
    exact hnot (Work.mem_items.mpr ⟨hr, hq⟩)
  · rintro ⟨hr, hkept⟩
    exact ⟨⟨(Work.mem_items.mp hr).1, hkept⟩, h.quantified r hr⟩

lemma mergeDuplicates_deduplicated (env : Env) (hst : st.WellFormed) {w : Work}
    (hw : Sound (Clash st) st w) :
    Deduplicated w (mergeDuplicates env w) (duplicates env w w.items) := by
  have hitems : w.items.Nodup := hw.refs.filter _
  obtain ⟨hsublist, howners, hpair⟩ := duplicates_spec env w hitems
  have hdup : ∀ p ∈ duplicates env w w.items, p.1 ∈ w.items := fun p hp =>
    hsublist.mem (List.mem_map_of_mem hp)
  obtain ⟨hdoc, hnext, hheap⟩ := foldl_mergeDuplicate w hpair
  obtain ⟨hkeeps, hgets⟩ := subset_foldl_mergeDuplicate w (duplicates env w w.items)
  unfold mergeDuplicates
  dsimp only
  split
  · next hnil =>
    rw [hnil]
    exact ⟨rfl, by simp, fun _ _ => rfl, fun r hr => (Work.mem_items.mp hr).2, hw.own,
      fun _ _ _ hid => .inl hid, fun _ _ hid => hid, by simp⟩
  · generalize (duplicates env w w.items).foldl mergeDuplicate w = v
      at hdoc hnext hheap hkeeps hgets ⊢
    generalize duplicates env w w.items = dups at howners hdup hheap hgets ⊢
    -- an owner has its patterns and those of its duplicates, and the others are left alone
    have hids : ∀ r ∈ w.items, v.quantified r = true ∧ (v.ids r).Nodup ∧
        ∀ id ∈ v.ids r, id ∈ w.ids r ∨ ∃ p ∈ dups, p.2 = r ∧ id ∈ w.ids p.1 := by
      intro r hr
      by_cases howner : ∃ p ∈ dups, p.2 = r
      · obtain ⟨p, hp, hpr⟩ := howner
        obtain ⟨f, ids, hf, hnodup, hids⟩ := (hheap r).2 p hp hpr
        have hfree : py "unquantified" ∉ ids := by
          intro hmarker
          rcases hids _ hmarker with hmarker | ⟨q, hq, -, hmarker⟩
          · exact unquantified_not_mem hst (hw.known r hr _ hmarker)
          · exact unquantified_not_mem hst (hw.known q.1 (hdup q hq) _ hmarker)
        rw [Work.ids_of_heap hf]
        exact ⟨Work.quantified_of_heap hf hfree, hnodup, hids⟩
      · push Not at howner
        have hsame := (hheap r).1 howner
        rw [Work.ids_congr hsame, Work.quantified_congr hsame]
        exact ⟨(Work.mem_items.mp hr).2, hw.own r hr, fun id hid => .inl hid⟩
    refine ⟨hnext, fun r => ?_, fun r hr => ?_, fun r hr => (hids r hr).1,
      fun r hr => (hids r hr).2.1, fun r hr => (hids r hr).2.2, hkeeps, hgets⟩
    · show r ∈ w.doc.keyFinds.filter _ ++ w.doc.secondaryFinds.filter _ ↔ _
      rw [← List.filter_append, List.mem_filter]
      refine and_congr_right fun _ => ?_
      rw [Bool.not_eq_true', List.contains_eq_mem, decide_eq_false_iff_not, List.mem_map]
      push Not
      exact Iff.rfl
    · exact (hheap r).1 fun p hp hpr => hr (hpr ▸ (howners p hp).1)

/-- **Merging by details is sound.** -/
theorem mergeDuplicates_sound (hst : st.WellFormed) {w : Work} (hw : Sound (Clash st) st w) :
    Sound (Clash st) st (mergeDuplicates env w) := by
  have hitems : w.items.Nodup := hw.refs.filter _
  have hmerged := mergeDuplicates_deduplicated env hst hw
  obtain ⟨hsublist, -, -⟩ := duplicates_spec env w hitems
  have hfst : ((duplicates env w w.items).map (·.1)).Nodup := hitems.sublist hsublist
  have hrefs : (mergeDuplicates env w).doc.refs.Nodup := by
    obtain ⟨hkey, hsecondary, -⟩ := Doc.nodup_refs.mp hw.refs
    unfold mergeDuplicates
    dsimp only
    split
    · exact hw.refs
    · exact Doc.nodup_refs_of_subset hw.refs (hkey.filter _) (hsecondary.filter _)
        (fun r hr => (List.mem_filter.mp hr).1) fun r hr => (List.mem_filter.mp hr).1
  generalize mergeDuplicates env w = w' at hmerged hrefs ⊢
  generalize duplicates env w w.items = dups at hmerged hsublist hfst
  have hdup : ∀ p ∈ dups, p.1 ∈ w.items := fun p hp => hsublist.mem (List.mem_map_of_mem hp)
  have hitem : ∀ r ∈ w'.items, r ∈ w.items := fun r hr => (hmerged.mem_items.mp hr).1
  refine hw.regroup
    (fun x r => (x = r ∧ ∀ p ∈ dups, p.1 ≠ r) ∨ ∃ p ∈ dups, p.1 = x ∧ p.2 = r)
    hrefs (fun r hr => ((hmerged.refs r).mp hr).1) hmerged.next ?_ ?_ ?_ ?_ ?_
  · intro r _ hq
    refine hmerged.same r fun hr => ?_
    rw [hmerged.quantified r hr] at hq
    cases hq
  · intro r hr
    exact hmerged.own r (hitem r hr)
  · intro r hr id hid
    rcases hmerged.source r (hitem r hr) id hid with hid | ⟨p, hp, hpr, hid⟩
    · exact ⟨r, hitem r hr, .inl ⟨rfl, (hmerged.mem_items.mp hr).2⟩, hid⟩
    · exact ⟨p.1, hdup p hp, .inr ⟨p, hp, rfl, hpr⟩, hid⟩
  · rintro x r r' (⟨rfl, hx⟩ | ⟨p, hp, rfl, rfl⟩) (⟨rfl, hx'⟩ | ⟨q, hq, hqx, rfl⟩)
    · rfl
    · exact absurd hqx (hx q hq)
    · exact absurd rfl (hx' p hp)
    · rw [List.inj_on_of_nodup_map hfst hq hp hqx]
  · intro x hx x' hx' hne id hid id' hid' hclash
    exact absurd hclash (hw.apart x hx x' hx' hne id hid id' hid')

end Details

end Triage

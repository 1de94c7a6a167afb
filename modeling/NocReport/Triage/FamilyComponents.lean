import Mathlib.Logic.Relation
import NocReport.Foundation.Transition
import NocReport.Triage.PatternMerging

set_option relaxedAutoImplicit false
set_option autoImplicit false

/-!
# Merging by families computes connected components

The union-find over the findings ends, and puts two findings into one component exactly when a
chain of findings leads from one to the other, in which neighbours share a family. In which order
the families of each finding are gone through does not matter.

## Main definitions

* `Triage.EndsWith` — the loops of the union-find end with certain components.
* `Triage.Connected` — a chain of findings leads from one to another.

## Main results

* `Triage.root_eq_iff` — which findings get the same root.
* `Triage.endsWith_iff` — the loops end, in one way only.
* `Triage.components_connected` — the components.
-/

namespace Dict

variable {κ κ' α β : Type} [DecidableEq κ] [DecidableEq κ']

lemma push_cons (k k' : κ) (vs : List α) (d : Dict κ (List α)) (v : α) :
    push ((k', vs) :: d) k v = if k' = k then (k', vs ++ [v]) :: d else (k', vs) :: push d k v := by
  rw [push, getD, get?_cons, set]
  split
  · rfl
  · rfl

/-- Appending to the value of a key adds one element to the values. -/
lemma flatten_push_perm (d : Dict κ (List α)) (k : κ) (v : α) :
    ((push d k v).map (·.2)).flatten.Perm ((d.map (·.2)).flatten ++ [v]) := by
  induction d with
  | nil => exact .refl _
  | cons p d ih =>
    obtain ⟨k', vs⟩ := p
    rw [push_cons]
    split
    · simp only [List.map_cons, List.flatten_cons, List.append_assoc]
      exact List.perm_append_comm.append_left vs
    · simp only [List.map_cons, List.flatten_cons, List.append_assoc]
      exact ih.append_left vs

/-- Collecting values by keys keeps each of them. -/
lemma flatten_foldl_push_perm (key : β → κ) (val : β → α) (xs : List β) (d : Dict κ (List α)) :
    ((xs.foldl (fun d x => push d (key x) (val x)) d).map (·.2)).flatten.Perm
      ((d.map (·.2)).flatten ++ xs.map val) := by
  induction xs generalizing d with
  | nil => simp
  | cons x xs ih =>
    refine (ih _).trans ?_
    rw [List.map_cons, List.append_cons]
    exact (flatten_push_perm d (key x) (val x)).append_right _

section Keys

variable {same : κ → κ' → Prop} {d : Dict κ (List α)} {d' : Dict κ' (List α)}

/-- Dictionaries that are the same up to their keys stay so. -/
lemma push_forall₂ (hsame : ∀ k l k' l', same k k' → same l l' → (k = l ↔ k' = l'))
    (h : List.Forall₂ (fun p p' => same p.1 p'.1 ∧ p.2 = p'.2) d d') {k : κ} {k' : κ'}
    (hk : same k k') (v : α) :
    List.Forall₂ (fun p p' => same p.1 p'.1 ∧ p.2 = p'.2) (push d k v) (push d' k' v) := by
  induction h with
  | nil => exact .cons ⟨hk, rfl⟩ .nil
  | @cons p p' d d' hp hd ih =>
    obtain ⟨l, vs⟩ := p
    obtain ⟨l', vs'⟩ := p'
    obtain ⟨hl, rfl⟩ : same l l' ∧ vs = vs' := hp
    rw [push_cons, push_cons]
    by_cases hlk : l = k
    · rw [if_pos hlk, if_pos ((hsame l k l' k' hl hk).mp hlk)]
      exact .cons ⟨hl, rfl⟩ hd
    · rw [if_neg hlk, if_neg (mt (hsame l k l' k' hl hk).mpr hlk)]
      exact .cons ⟨hl, rfl⟩ ih

/-- **What values are collected together does not depend on the keys**, but on which of them are
equal. -/
lemma map_snd_foldl_push (key : β → κ) (key' : β → κ') (val : β → α) (xs : List β)
    (h : ∀ x ∈ xs, ∀ y ∈ xs, key x = key y ↔ key' x = key' y) :
    (xs.foldl (fun d x => push d (key x) (val x)) []).map (·.2) =
      (xs.foldl (fun d x => push d (key' x) (val x)) []).map (·.2) := by
  let same : κ → κ' → Prop := fun k k' => ∃ x ∈ xs, key x = k ∧ key' x = k'
  have hsame : ∀ k l k' l', same k k' → same l l' → (k = l ↔ k' = l') := by
    rintro k l k' l' ⟨x, hx, rfl, rfl⟩ ⟨y, hy, rfl, rfl⟩
    exact h x hx y hy
  have hfold : ∀ (ys : List β) (d : Dict κ (List α)) (d' : Dict κ' (List α)), (∀ y ∈ ys, y ∈ xs) →
      List.Forall₂ (fun p p' => same p.1 p'.1 ∧ p.2 = p'.2) d d' →
      List.Forall₂ (fun p p' => same p.1 p'.1 ∧ p.2 = p'.2)
        (ys.foldl (fun d x => push d (key x) (val x)) d)
        (ys.foldl (fun d x => push d (key' x) (val x)) d') := by
    intro ys
    induction ys with
    | nil => exact fun _ _ _ hd => hd
    | cons y ys ih =>
      intro d d' hys hd
      refine ih _ _ (fun z hz => hys z (List.mem_cons_of_mem _ hz)) ?_
      exact push_forall₂ hsame hd ⟨y, hys y List.mem_cons_self, rfl, rfl⟩ (val y)
  have hdicts := hfold xs [] [] (fun _ hx => hx) .nil
  rw [← List.forall₂_eq_eq_eq, List.forall₂_map_left_iff, List.forall₂_map_right_iff]
  exact hdicts.imp fun _ _ hp => hp.2

end Keys

end Dict

namespace Triage

/-! ## The loops without a bound -/

/-- A turn of the loop over the families of finding `index`. -/
inductive LinksFamily (index : ℕ) : Linked → PyStr → Linked → Prop
  | union {s : Linked} {family : PyStr} {previous : ℕ} {parent' : ℕ → ℕ}
      (h : Dict.get? s.familyToItem family = some previous)
      (hunion : UnionFind.Unions s.parent index previous parent') :
      LinksFamily index s family { s with parent := parent' }
  | own {s : Linked} {family : PyStr} (h : Dict.get? s.familyToItem family = none) :
      LinksFamily index s family
        { s with familyToItem := Dict.set s.familyToItem family index }

/-- A turn of the loop over the findings, from the families of the finding in the order they are
gone through. -/
def LinksFinding (s : Linked) (item : List PyStr × ℕ) (t : Linked) : Prop :=
  Transition.Loop (LinksFamily item.2) s item.1 t

/-- The loop over the findings. -/
def Links (families : List (List PyStr)) (linked : Linked) : Prop :=
  Transition.Loop LinksFinding ⟨id, []⟩ families.zipIdx linked

/-- `components[find(index)].append(item)`. -/
def CollectsFinding (s : (ℕ → ℕ) × Dict ℕ (List Ref)) (item : Ref × ℕ)
    (t : (ℕ → ℕ) × Dict ℕ (List Ref)) : Prop :=
  ∃ root parent', UnionFind.Finds s.1 item.2 root parent' ∧
    t = (parent', Dict.push s.2 root item.1)

/-- The union-find over the findings ends with these components. -/
def EndsWith (families : List (List PyStr)) (items : List Ref) (cs : List (List Ref)) : Prop :=
  ∃ linked t, Links families linked ∧
    Transition.Loop CollectsFinding (linked.parent, []) items.zipIdx t ∧ cs = t.2.map (·.2)

/-! ## They end -/

section Ends

variable {n k : ℕ} {seen : ℕ → PyStr → Prop} {s t t' : Linked}

lemma LinksFamily.unique {index : ℕ} {family : PyStr} (h : LinksFamily index s family t)
    (h' : LinksFamily index s family t') : t = t' := by
  cases h with
  | union hprevious hunion =>
    cases h' with
    | union hprevious' hunion' =>
      cases hprevious.symm.trans hprevious'
      rw [hunion.unique hunion']
    | own hnone => cases hprevious.symm.trans hnone
  | own hnone =>
    cases h' with
    | union hprevious => cases hprevious.symm.trans hnone
    | own => rfl

lemma LinksFinding.unique {item : List PyStr × ℕ} (h : LinksFinding s item t)
    (h' : LinksFinding s item t') : t = t' := by
  refine Transition.Loop.unique ?_ h h'
  intro _ _ _ _ hs hs'
  exact hs.unique hs'

lemma Links.unique {families : List (List PyStr)} (h : Links families t) (h' : Links families t') :
    t = t' := by
  refine Transition.Loop.unique ?_ h h'
  intro _ _ _ _ hs hs'
  exact hs.unique hs'

lemma CollectsFinding.unique {s t t' : (ℕ → ℕ) × Dict ℕ (List Ref)} {item : Ref × ℕ}
    (h : CollectsFinding s item t) (h' : CollectsFinding s item t') : t = t' := by
  obtain ⟨root, parent, hfind, rfl⟩ := h
  obtain ⟨root', parent', hfind', rfl⟩ := h'
  obtain ⟨rfl, rfl⟩ := hfind.unique hfind'
  rfl

lemma collects_unique {s t t' : (ℕ → ℕ) × Dict ℕ (List Ref)} {items : List (Ref × ℕ)}
    (h : Transition.Loop CollectsFinding s items t)
    (h' : Transition.Loop CollectsFinding s items t') : t = t' := by
  refine h.unique ?_ h'
  intro _ _ _ _ hs hs'
  exact hs.unique hs'

/-- One family of finding `k`. -/
lemma Linking.linksFamily (h : Linking n (k + 1) seen s) (hk : k < n) (family : PyStr) :
    LinksFamily k s family (Triage.linkFamily n k s family) := by
  unfold Triage.linkFamily
  split
  · next previous hprevious =>
    have hlt := h.items family previous hprevious
    exact .union hprevious (UnionFind.unions_union n h.rising hk (by omega) (le_refl n))
  · next hnone => exact .own hnone

/-- All families of finding `k`. -/
lemma Linking.loop_linksFamily (h : Linking n (k + 1) seen s) (hk : k < n) (families : List PyStr) :
    Transition.Loop (LinksFamily k) s families (families.foldl (Triage.linkFamily n k) s) := by
  induction families generalizing seen s with
  | nil => exact .nil s
  | cons family families ih =>
    exact .cons (h.linksFamily hk family) (ih (h.linkFamily hk family))

/-- All families of some findings, the first of those there are. -/
lemma links_foldl (n : ℕ) (families : List (List PyStr)) (hn : families.length ≤ n) :
    Links families
      (families.zipIdx.foldl (fun s item => item.1.foldl (linkFamily n item.2) s) ⟨id, []⟩) := by
  induction families using List.reverseRecOn with
  | nil => exact .nil _
  | append_singleton families fs ih =>
    rw [List.length_append, List.length_singleton] at hn
    have hlinking := (linking_foldl n families (by omega)).next (by omega)
    unfold Links
    rw [List.zipIdx_append, List.foldl_append, Nat.zero_add]
    exact (ih (by omega)).append (.single (hlinking.loop_linksFamily (by omega) fs))

/-- The loop that collects the findings ends. -/
lemma loop_collectsFinding {items : List (Ref × ℕ)} {s : (ℕ → ℕ) × Dict ℕ (List Ref)}
    (hitems : ∀ item ∈ items, item.2 < n) (hs : UnionFind.Rising n s.1) :
    Transition.Loop CollectsFinding s items (items.foldl (addToComponent n) s) := by
  induction items generalizing s with
  | nil => exact .nil s
  | cons item items ih =>
    have hlt := hitems item List.mem_cons_self
    have hrising := (UnionFind.find_spec n hs hlt (by omega)).2.1
    refine .cons ⟨_, _, UnionFind.finds_find n hs hlt (by omega), rfl⟩ ?_
    exact ih (fun i hi => hitems i (List.mem_cons_of_mem _ hi)) hrising

end Ends

/-! ## Which findings get the same root -/

/-- Two findings, by their positions, share a family. -/
def Neighbours (families : List (List PyStr)) (i j : ℕ) : Prop :=
  ∃ fs fs' family, families[i]? = some fs ∧ families[j]? = some fs' ∧ family ∈ fs ∧ family ∈ fs'

/-- What holds of a forest in which only findings of a chain are linked. -/
structure Tied (families : List (List PyStr)) (n : ℕ) (s : Linked) : Prop where
  root : ∀ i < n, Relation.ReflTransGen (Neighbours families) i (UnionFind.root n s.parent i)
  items : ∀ family j, Dict.get? s.familyToItem family = some j →
    ∃ fs, families[j]? = some fs ∧ family ∈ fs

section Roots

variable {families : List (List PyStr)} {n k : ℕ} {seen : ℕ → PyStr → Prop} {s : Linked}

lemma Neighbours.symm {i j : ℕ} (h : Neighbours families i j) : Neighbours families j i := by
  obtain ⟨fs, fs', family, hi, hj, hf, hf'⟩ := h
  exact ⟨fs', fs, family, hj, hi, hf', hf⟩

lemma Neighbours.lt {i j : ℕ} (h : Neighbours families i j) : j < families.length := by
  obtain ⟨-, fs', -, -, hj, -⟩ := h
  exact (List.getElem?_eq_some_iff.mp hj).1

/-- Chains can be followed backwards. -/
lemma chain_symm {i j : ℕ} (h : Relation.ReflTransGen (Neighbours families) i j) :
    Relation.ReflTransGen (Neighbours families) j i := by
  induction h with
  | refl => exact .refl
  | tail _ hlast ih => exact .head hlast.symm ih

/-- One family of finding `k`: what is linked to it has the family. -/
lemma Tied.linkFamily (ht : Tied families n s) (h : Linking n (k + 1) seen s) (hk : k < n)
    {fs : List PyStr} {family : PyStr} (hfs : families[k]? = some fs) (hfamily : family ∈ fs) :
    Tied families n (Triage.linkFamily n k s family) := by
  unfold Triage.linkFamily
  split
  · next previous hprevious =>
    have hlt := h.items family previous hprevious
    have hbelow := h.below previous hlt
    have hfresh : UnionFind.root n s.parent k = k := by
      have hle := h.rising.le_root (i := k)
      have := h.below k (by omega)
      omega
    obtain ⟨-, hroots⟩ := UnionFind.union_spec n h.rising hk
      (show previous < n by omega) (le_refl n) (by omega)
    refine ⟨fun i hi => ?_, ht.items⟩
    rw [hroots i hi]
    split
    · next hsame =>
      -- from `i` up to the root, down to the other finding of the family, and over to `k`
      obtain ⟨fs', hfs', hfamily'⟩ := ht.items family previous hprevious
      have hup := ht.root i hi
      have hdown := chain_symm (ht.root previous (by omega))
      rw [hsame] at hup
      rw [hfresh]
      exact (hup.trans hdown).tail ⟨fs', fs, family, hfs', hfs, hfamily', hfamily⟩
    · exact ht.root i hi
  · next hnone =>
    refine ⟨ht.root, fun f j hj => ?_⟩
    dsimp only at hj
    rw [Dict.get?_set] at hj
    split at hj
    · next heq =>
      cases hj
      exact ⟨fs, hfs, heq ▸ hfamily⟩
    · exact ht.items f j hj

/-- All families of finding `k`. -/
lemma Tied.foldl_linkFamily (ht : Tied families n s) (h : Linking n (k + 1) seen s) (hk : k < n)
    {fs : List PyStr} (hfs : families[k]? = some fs) (fs' : List PyStr) (hsub : fs' ⊆ fs) :
    Tied families n (fs'.foldl (Triage.linkFamily n k) s) := by
  induction fs' generalizing seen s with
  | nil => exact ht
  | cons family fs' ih =>
    obtain ⟨hfamily, hsub⟩ := List.cons_subset.mp hsub
    exact ih (ht.linkFamily h hk hfs hfamily) (h.linkFamily hk family) hsub

/-- All families of some findings, the first of those there are. -/
lemma tied_foldl {pre : List (List PyStr)} (hpre : pre <+: families) :
    Tied families families.length (pre.zipIdx.foldl
      (fun s item => item.1.foldl (linkFamily families.length item.2) s) ⟨id, []⟩) := by
  induction pre using List.reverseRecOn with
  | nil =>
    refine ⟨fun i hi => ?_, fun family j hj => by cases hj⟩
    rw [List.zipIdx_nil, List.foldl_nil, UnionFind.Rising.root_of_fixed rfl]
  | append_singleton pre fs ih =>
    obtain ⟨post, rfl⟩ := hpre
    have hlen : pre.length < (pre ++ [fs] ++ post).length := by simp
    have hlinking := (linking_foldl (pre ++ [fs] ++ post).length pre (by omega)).next hlen
    have htied := ih ⟨[fs] ++ post, (List.append_assoc _ _ _).symm⟩
    rw [List.zipIdx_append, List.foldl_append, Nat.zero_add]
    refine htied.foldl_linkFamily hlinking hlen ?_ fs (List.Subset.refl fs)
    simp

/-- **Two findings get the same root exactly when a chain leads from one to the other**, in which
neighbours share a family. -/
theorem root_eq_iff {i j : ℕ} (hi : i < families.length) (hj : j < families.length) :
    UnionFind.root families.length (linkFamilies families).parent i =
        UnionFind.root families.length (linkFamilies families).parent j ↔
      Relation.ReflTransGen (Neighbours families) i j := by
  have htied : Tied families families.length (linkFamilies families) := tied_foldl List.prefix_rfl
  constructor
  · intro hroot
    have hup := htied.root i hi
    rw [hroot] at hup
    exact hup.trans (chain_symm (htied.root j hj))
  · intro hchain
    induction hchain with
    | refl => rfl
    | tail _ hshares ih =>
      obtain ⟨fs, fs', family, hfs, hfs', hf, hf'⟩ := hshares
      rw [ih (List.getElem?_eq_some_iff.mp hfs).1]
      exact (linkFamilies_spec families).2 _ _ fs fs' family hfs hfs' hf hf'

end Roots

/-! ## The components -/

section Components

variable {env : Env} {st : Statistics} {w : Work} {items : List Ref}
  {families families' : List (List PyStr)}

/-- The components of findings with these families. -/
def componentsOf (families : List (List PyStr)) (items : List Ref) : List (List Ref) :=
  (items.zipIdx.foldl (addToComponent items.length) ((linkFamilies families).parent, [])).2.map
    (·.2)

lemma components_eq : components env st w =
    componentsOf (w.items.map fun r => familiesOf env st (w.ids r)) w.items := rfl

/-- **The loops of the union-find end**, in one way only. -/
theorem endsWith_iff (hlen : families.length = items.length) {cs : List (List Ref)} :
    EndsWith families items cs ↔ cs = componentsOf families items := by
  have hlinks : Links families (linkFamilies families) :=
    links_foldl families.length families (le_refl _)
  have hrising := (linkFamilies_spec families).1
  rw [hlen] at hrising
  have hcollects := loop_collectsFinding (s := ((linkFamilies families).parent, []))
    (fun item (hitem : item ∈ items.zipIdx) => snd_lt_of_mem_zipIdx hitem) hrising
  constructor
  · rintro ⟨linked, t, hlinked, ht, rfl⟩
    cases hlinked.unique hlinks
    rw [collects_unique ht hcollects]
    rfl
  · rintro rfl
    exact ⟨_, _, hlinks, hcollects, rfl⟩

/-- The findings are collected by their roots. -/
lemma componentsOf_eq (hlen : families.length = items.length) :
    componentsOf families items =
      (items.zipIdx.foldl (fun d item => Dict.push d
        (UnionFind.root families.length (linkFamilies families).parent item.2) item.1) []).map
          (·.2) := by
  have hrising := (linkFamilies_spec families).1
  rw [hlen] at hrising ⊢
  rw [componentsOf, foldl_addToComponent (fun _ => snd_lt_of_mem_zipIdx) hrising fun _ _ => rfl]

/-- The components are made of the findings. -/
lemma flatten_componentsOf_perm (hlen : families.length = items.length) :
    (componentsOf families items).flatten.Perm items := by
  rw [componentsOf_eq hlen]
  refine (Dict.flatten_foldl_push_perm _ _ _ _).trans ?_
  rw [List.zipIdx_map_fst]
  exact .refl _

/-- The components are the same where the same findings share families. -/
lemma componentsOf_congr (hlen : families.length = items.length)
    (hlen' : families'.length = items.length)
    (h : ∀ i j, Neighbours families i j ↔ Neighbours families' i j) :
    componentsOf families items = componentsOf families' items := by
  have hchain : Neighbours families = Neighbours families' := by
    funext i j
    exact propext (h i j)
  rw [componentsOf_eq hlen, componentsOf_eq hlen']
  refine Dict.map_snd_foldl_push _ _ _ _ fun x hx y hy => ?_
  have hlt := snd_lt_of_mem_zipIdx hx
  have hlt' := snd_lt_of_mem_zipIdx hy
  rw [root_eq_iff (by omega) (by omega), root_eq_iff (by omega) (by omega), hchain]

/-- **Two findings are in one component exactly when a chain leads from one to the other.** -/
theorem exists_component_iff (hlen : families.length = items.length) {r r' : Ref} :
    (∃ c ∈ componentsOf families items, r ∈ c ∧ r' ∈ c) ↔
      ∃ i j, items[i]? = some r ∧ items[j]? = some r' ∧
        Relation.ReflTransGen (Neighbours families) i j := by
  rw [componentsOf_eq hlen]
  constructor
  · rintro ⟨c, hc, hr, hr'⟩
    obtain ⟨⟨k, c⟩, hkc, rfl⟩ := List.mem_map.mp hc
    obtain ⟨⟨r, i⟩, hi, hik, rfl⟩ := (Dict.mem_of_mem_foldl_push hkc).mp hr
    obtain ⟨⟨r', j⟩, hj, hjk, rfl⟩ := (Dict.mem_of_mem_foldl_push hkc).mp hr'
    have hlt := snd_lt_of_mem_zipIdx hi
    have hlt' := snd_lt_of_mem_zipIdx hj
    refine ⟨i, j, List.mem_zipIdx_iff_getElem?.mp hi, List.mem_zipIdx_iff_getElem?.mp hj, ?_⟩
    exact (root_eq_iff (by omega) (by omega)).mp (hik.trans hjk.symm)
  · rintro ⟨i, j, hi, hj, hchain⟩
    have hiteml : (r, i) ∈ items.zipIdx := List.mem_zipIdx_iff_getElem?.mpr hi
    have hitemr : (r', j) ∈ items.zipIdx := List.mem_zipIdx_iff_getElem?.mpr hj
    have hlt := snd_lt_of_mem_zipIdx hiteml
    have hlt' := snd_lt_of_mem_zipIdx hitemr
    obtain ⟨c, hc, hr⟩ := Dict.exists_mem_foldl_push (fun item : Ref × ℕ =>
      UnionFind.root families.length (linkFamilies families).parent item.2) (·.1) hiteml
    refine ⟨c, List.mem_map.mpr ⟨_, hc, rfl⟩, hr, ?_⟩
    refine (Dict.mem_of_mem_foldl_push hc).mpr ⟨(r', j), hitemr, ?_, rfl⟩
    exact ((root_eq_iff (by omega) (by omega)).mpr hchain).symm

end Components

/-! ## Chains of findings -/

section Connected

variable {env : Env} {st : Statistics} {w : Work}

/-- Two findings share a family of patterns. -/
def ShareFamily (st : Statistics) (w : Work) (r r' : Ref) : Prop :=
  ∃ id ∈ w.ids r, ∃ id' ∈ w.ids r', ∃ family, Dict.get? (familyByPattern st) id = some family ∧
    Dict.get? (familyByPattern st) id' = some family

/-- A chain of findings leads from one to another, in which neighbours share a family. -/
def Connected (st : Statistics) (w : Work) : Ref → Ref → Prop :=
  Relation.ReflTransGen fun r r' => r' ∈ w.items ∧ ShareFamily st w r r'

/-- A list of the families of a finding, in the order a set of them is gone through. -/
def ListsFamilies (st : Statistics) (w : Work) (r : Ref) (families : List PyStr) : Prop :=
  families.Perm ((w.ids r).filterMap (Dict.get? (familyByPattern st))).eraseDups

lemma listsFamilies_familiesOf (r : Ref) : ListsFamilies st w r (familiesOf env st (w.ids r)) :=
  env.setOrder_perm _

lemma ListsFamilies.mem {r : Ref} {families : List PyStr} (h : ListsFamilies st w r families)
    {family : PyStr} :
    family ∈ families ↔ ∃ id ∈ w.ids r, Dict.get? (familyByPattern st) id = some family := by
  rw [h.mem_iff, List.mem_eraseDups, List.mem_filterMap]

variable {families : List (List PyStr)}

lemma getElem?_of_forall₂ (h : List.Forall₂ (ListsFamilies st w) w.items families) {i : ℕ} {r : Ref}
    (hi : w.items[i]? = some r) : ∃ fs, families[i]? = some fs ∧ ListsFamilies st w r fs := by
  obtain ⟨hlt, rfl⟩ := List.getElem?_eq_some_iff.mp hi
  have hlt' : i < families.length := h.length_eq ▸ hlt
  exact ⟨families[i], List.getElem?_eq_getElem hlt', h.get hlt hlt'⟩

/-- Which findings are neighbours does not depend on the orders. -/
lemma neighbours_iff (h : List.Forall₂ (ListsFamilies st w) w.items families) {i j : ℕ} :
    Neighbours families i j ↔ ∃ r r', w.items[i]? = some r ∧ w.items[j]? = some r' ∧
      ShareFamily st w r r' := by
  constructor
  · rintro ⟨fs, fs', family, hfs, hfs', hf, hf'⟩
    have hlt : i < w.items.length := h.length_eq ▸ (List.getElem?_eq_some_iff.mp hfs).1
    have hlt' : j < w.items.length := h.length_eq ▸ (List.getElem?_eq_some_iff.mp hfs').1
    have hi := List.getElem?_eq_getElem hlt
    have hj := List.getElem?_eq_getElem hlt'
    obtain ⟨gs, hgs, hlists⟩ := getElem?_of_forall₂ h hi
    obtain ⟨gs', hgs', hlists'⟩ := getElem?_of_forall₂ h hj
    cases hfs.symm.trans hgs
    cases hfs'.symm.trans hgs'
    obtain ⟨id, hid, hget⟩ := hlists.mem.mp hf
    obtain ⟨id', hid', hget'⟩ := hlists'.mem.mp hf'
    exact ⟨_, _, hi, hj, id, hid, id', hid', family, hget, hget'⟩
  · rintro ⟨r, r', hi, hj, id, hid, id', hid', family, hget, hget'⟩
    obtain ⟨fs, hfs, hlists⟩ := getElem?_of_forall₂ h hi
    obtain ⟨fs', hfs', hlists'⟩ := getElem?_of_forall₂ h hj
    exact ⟨fs, fs', family, hfs, hfs', hlists.mem.mpr ⟨id, hid, hget⟩,
      hlists'.mem.mpr ⟨id', hid', hget'⟩⟩

/-- A chain of positions is a chain of findings. -/
lemma chain_iff_connected (h : List.Forall₂ (ListsFamilies st w) w.items families) {r r' : Ref}
    (hr : r ∈ w.items) :
    (∃ i j, w.items[i]? = some r ∧ w.items[j]? = some r' ∧
      Relation.ReflTransGen (Neighbours families) i j) ↔ Connected st w r r' := by
  constructor
  · rintro ⟨i, j, hi, hj, hchain⟩
    induction hchain generalizing r' with
    | refl =>
      cases hi.symm.trans hj
      exact .refl
    | tail _ hlast ih =>
      obtain ⟨b, c, hb, hc, hshare⟩ := (neighbours_iff h).mp hlast
      cases hj.symm.trans hc
      exact (ih hb).tail ⟨List.mem_of_getElem? hc, hshare⟩
  · intro hconnected
    obtain ⟨i, hi⟩ := List.mem_iff_getElem?.mp hr
    induction hconnected with
    | refl => exact ⟨i, i, hi, hi, .refl⟩
    | tail _ hlast ih =>
      obtain ⟨i', j, hi', hj, hchain⟩ := ih
      obtain ⟨hmem, hshare⟩ := hlast
      obtain ⟨l, hl⟩ := List.mem_iff_getElem?.mp hmem
      exact ⟨i', l, hi', hl, hchain.tail ((neighbours_iff h).mpr ⟨_, _, hj, hl, hshare⟩)⟩

/-- The families of the findings, each in its order. -/
lemma forall₂_familiesOf (env : Env) :
    List.Forall₂ (ListsFamilies st w) w.items (w.items.map fun r => familiesOf env st (w.ids r)) := by
  rw [List.forall₂_map_right_iff, List.forall₂_same]
  exact fun r _ => listsFamilies_familiesOf r

/-- Whatever the orders are, the components are the same. -/
lemma componentsOf_of_lists (env : Env) (h : List.Forall₂ (ListsFamilies st w) w.items families) :
    componentsOf families w.items = components env st w := by
  rw [components_eq]
  refine componentsOf_congr h.length_eq.symm (List.length_map _) fun i j => ?_
  rw [neighbours_iff h, neighbours_iff (forall₂_familiesOf env)]

/-- **Merging by families computes connected components.** For all findings, with whatever patterns
and over whatever statistics, and whatever the order is in which the families of each finding are
gone through: the loops of the union-find end, and with the same components. These are a partition
of the findings, and two findings are in one component exactly when a chain of findings leads from
one to the other in which neighbours share a family. -/
theorem components_connected (env : Env) (st : Statistics) (w : Work) :
    (∀ families, List.Forall₂ (ListsFamilies st w) w.items families →
      ∀ cs, EndsWith families w.items cs ↔ cs = components env st w) ∧
    (components env st w).flatten.Perm w.items ∧
    (∀ r ∈ w.items, ∀ r' ∈ w.items,
      (∃ c ∈ components env st w, r ∈ c ∧ r' ∈ c) ↔ Connected st w r r') ∧
    ∀ env' : Env, components env' st w = components env st w := by
  have hlists : List.Forall₂ (ListsFamilies st w) w.items _ := forall₂_familiesOf env
  refine ⟨fun families h cs => ?_, ?_, fun r hr r' _ => ?_, fun env' => ?_⟩
  · rw [endsWith_iff h.length_eq.symm, componentsOf_of_lists env h]
  · exact flatten_componentsOf_perm hlists.length_eq.symm
  · rw [components_eq, exists_component_iff hlists.length_eq.symm, chain_iff_connected hlists hr]
  · rw [components_eq, componentsOf_of_lists env (forall₂_familiesOf env')]

end Connected

/-- Four patterns, the first two and the last two of which are of one family. -/
def pairedStatistics : Statistics where
  totalEntries := 4
  levelCounts := []
  errorCount := 0
  exceptionCount := 0
  exceptionCounts := []
  endpointCounts := []
  httpStatusCounts := []
  traceCounts := []
  userIdCounts := []
  recordIdCounts := []
  representativeEntries := []
  entryManifest := []
  timestampStart := none
  timestampEnd := none
  durationSeconds := none
  patternManifest := [
    ⟨py "p-a", py "timeout <n>", 1, [], some (py "family-timeout"), none⟩,
    ⟨py "p-b", py "timed out", 1, [], some (py "family-timeout"), none⟩,
    ⟨py "p-c", py "refused <n>", 1, [], some (py "family-refused"), none⟩,
    ⟨py "p-d", py "was refused", 1, [], some (py "family-refused"), none⟩]
  patternFamilies := []

/-- Three findings, the second of which shares a family with each of the others. -/
def bridgedFindings : Work := .start [
  (py "key_finds", .arr [
    .obj [(py "pattern_ids", texts [py "p-a"])],
    .obj [(py "pattern_ids", texts [py "p-b", py "p-c"])]]),
  (py "secondary_finds", .arr [.obj [(py "pattern_ids", texts [py "p-d"])]])]

/-- `components_connected` speaks about the three findings: the first and the last are in one
component, and in a chain. -/
theorem bridgedFindings_connected :
    components sampleEnv pairedStatistics bridgedFindings = [[0, 1, 2]] ∧
      ¬ ShareFamily pairedStatistics bridgedFindings 0 2 ∧
      Connected pairedStatistics bridgedFindings 0 2 := by
  have hcomponents : components sampleEnv pairedStatistics bridgedFindings = [[0, 1, 2]] := by
    rfl
  have hiff := (components_connected sampleEnv pairedStatistics bridgedFindings).2.2.1 0
    (by decide) 2 (by decide)
  refine ⟨hcomponents, ?_, hiff.mp ⟨[0, 1, 2], ?_, by decide, by decide⟩⟩
  · rintro ⟨id, hid, id', hid', family, hget, hget'⟩
    have hne : ∀ id ∈ bridgedFindings.ids 0, ∀ id' ∈ bridgedFindings.ids 2,
        Dict.get? (familyByPattern pairedStatistics) id ≠
          Dict.get? (familyByPattern pairedStatistics) id' := by decide
    exact hne id hid id' hid' (hget.trans hget'.symm)
  · rw [hcomponents]
    exact List.mem_singleton_self _

end Triage

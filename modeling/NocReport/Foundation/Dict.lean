import Mathlib.Data.List.Basic
import Mathlib.Data.List.Nodup

set_option relaxedAutoImplicit false
set_option autoImplicit false

/-!
# Insertion-ordered dictionaries

A dictionary as the list of its items in insertion order. Setting a key that is present keeps
its place; a new key goes to the end.

## Main definitions

* `Dict.get?`, `Dict.set`, `Dict.erase`, `Dict.keys` — lookup, assignment, removal, and the keys
  in order.
* `Dict.setAll` — some assignments, one after the other.
* `Dict.hide`, `Dict.only` — a dictionary without the values of some keys, and with only these.

## Main results

* `Dict.get?_set_self`, `Dict.get?_set_of_ne` — what a lookup finds after an assignment.
* `Dict.get?_filter` — what a lookup finds among the items with certain keys.
* `Dict.get?_eq_none_iff` — a lookup fails exactly on the keys that are absent.
* `List.nodup_eraseDups` — a list whose repetitions are dropped has none.
* `Dict.hide_set_of_nodup`, `Dict.hide_set_congr` — after an assignment it does not matter what the
  key had before.
-/

namespace List

variable {α : Type} [BEq α] [LawfulBEq α]

/-- What is left when repetitions are dropped has none. -/
lemma nodup_eraseDups (l : List α) : l.eraseDups.Nodup := by
  induction hn : l.length using Nat.strongRecOn generalizing l with
  | ind n ih =>
    cases l with
    | nil => exact List.nodup_nil
    | cons a l =>
      rw [List.eraseDups_cons, List.nodup_cons]
      have hlt : (l.filter fun b => !b == a).length < n := by
        have := List.length_filter_le (fun b => !b == a) l
        simp only [List.length_cons] at hn
        omega
      refine ⟨?_, ih _ hlt _ rfl⟩
      simp [List.mem_eraseDups]

/-- A list without repetitions is left alone. -/
lemma eraseDups_of_nodup {l : List α} (h : l.Nodup) : l.eraseDups = l := by
  induction l with
  | nil => rfl
  | cons a l ih =>
    obtain ⟨ha, hl⟩ := List.nodup_cons.mp h
    have hfilter : (l.filter fun b => !b == a) = l := by
      refine List.filter_eq_self.mpr fun b hb => ?_
      have hne : b ≠ a := by
        rintro rfl
        exact ha hb
      simp [hne]
    rw [List.eraseDups_cons, hfilter, ih hl]

end List

/-- An insertion-ordered dictionary. -/
abbrev Dict (κ α : Type) := List (κ × α)

namespace Dict

variable {κ α β : Type} [DecidableEq κ]

/-- The value at key `k`. -/
def get? : Dict κ α → κ → Option α
  | [], _ => none
  | (k', v) :: d, k => if k' = k then some v else get? d k

/-- Assign `v` to key `k`. -/
def set : Dict κ α → κ → α → Dict κ α
  | [], k, v => [(k, v)]
  | (k', v') :: d, k, v => if k' = k then (k', v) :: d else (k', v') :: set d k v

/-- Remove key `k`. -/
def erase (d : Dict κ α) (k : κ) : Dict κ α := d.filter fun p => p.1 ≠ k

/-- The keys in insertion order. -/
def keys (d : Dict κ α) : List κ := d.map (·.1)

/-- `d == d'`: the same keys with the same values, in any order. -/
def same [DecidableEq α] (d d' : Dict κ α) : Bool :=
  (d.all fun p => get? d' p.1 = some p.2) && d'.all fun p => get? d p.1 = some p.2

/-- Whether key `k` is present. -/
def contains (d : Dict κ α) (k : κ) : Bool := (get? d k).isSome

@[simp] lemma get?_nil (k : κ) : get? ([] : Dict κ α) k = none := rfl

lemma get?_cons (k k' : κ) (v : α) (d : Dict κ α) :
    get? ((k', v) :: d) k = if k' = k then some v else get? d k := rfl

/-- After an assignment the key has the new value. -/
@[simp] lemma get?_set_self (d : Dict κ α) (k : κ) (v : α) : get? (set d k v) k = some v := by
  induction d with
  | nil => simp [set, get?]
  | cons p d ih =>
    obtain ⟨k', v'⟩ := p
    by_cases h : k' = k
    · simp [set, get?, h]
    · simp [set, get?, h, ih]

/-- An assignment leaves the other keys alone. -/
lemma get?_set_of_ne (d : Dict κ α) {k i : κ} (v : α) (h : i ≠ k) :
    get? (set d k v) i = get? d i := by
  induction d with
  | nil => simp [set, get?, Ne.symm h]
  | cons p d ih =>
    obtain ⟨k', v'⟩ := p
    by_cases hk : k' = k
    · subst hk
      simp [set, get?, Ne.symm h]
    · simp only [set, if_neg hk, get?_cons, ih]

lemma get?_set (d : Dict κ α) (k i : κ) (v : α) :
    get? (set d k v) i = if i = k then some v else get? d i := by
  split
  · next h => rw [h, get?_set_self]
  · next h => exact get?_set_of_ne d v h

/-- A lookup fails exactly on the keys that are absent. -/
lemma get?_eq_none_iff (d : Dict κ α) (k : κ) : get? d k = none ↔ k ∉ keys d := by
  induction d with
  | nil => simp [keys]
  | cons p d ih =>
    obtain ⟨k', v'⟩ := p
    rw [get?_cons]
    by_cases h : k' = k
    · simp [keys, h]
    · simp only [if_neg h, ih, keys, List.map_cons, List.mem_cons, not_or]
      exact ⟨fun hk => ⟨Ne.symm h, hk⟩, fun hk => hk.2⟩

lemma contains_iff (d : Dict κ α) (k : κ) : contains d k = true ↔ k ∈ keys d := by
  rw [contains, Option.isSome_iff_ne_none, ne_eq, get?_eq_none_iff, not_not]

/-- What a lookup finds is an item of the dictionary. -/
lemma mem_of_get?_eq_some {d : Dict κ α} {k : κ} {v : α} (h : get? d k = some v) :
    (k, v) ∈ d := by
  induction d with
  | nil => cases h
  | cons p d ih =>
    obtain ⟨k', v'⟩ := p
    rw [get?_cons] at h
    split at h
    · next hk =>
      cases h
      rw [hk]
      exact List.mem_cons_self
    · exact List.mem_cons_of_mem _ (ih h)

/-- An item of a dictionary is what a lookup of its key finds. -/
lemma get?_of_mem {d : Dict κ α} (hd : (keys d).Nodup) {k : κ} {v : α} (h : (k, v) ∈ d) :
    get? d k = some v := by
  induction d with
  | nil => cases h
  | cons p d ih =>
    obtain ⟨k', v'⟩ := p
    obtain ⟨hk, hd⟩ := List.nodup_cons.mp hd
    rw [get?_cons]
    rcases List.mem_cons.mp h with heq | hmem
    · cases heq
      rw [if_pos rfl]
    · have hne : k' ≠ k := by
        rintro rfl
        exact hk (List.mem_map.mpr ⟨_, hmem, rfl⟩)
      rw [if_neg hne, ih hd hmem]

/-- A dictionary that has each key once equals itself. -/
lemma same_self [DecidableEq α] {d : Dict κ α} (hd : (keys d).Nodup) : same d d = true := by
  have hall : (d.all fun p => decide (get? d p.1 = some p.2)) = true := by
    rw [List.all_eq_true]
    intro p hp
    exact decide_eq_true (get?_of_mem hd hp)
  rw [same, hall]
  rfl

/-- Assigning what is there already changes nothing. -/
lemma set_eq_self {d : Dict κ α} {k : κ} {v : α} (h : get? d k = some v) : set d k v = d := by
  induction d with
  | nil => cases h
  | cons p d ih =>
    obtain ⟨k', v'⟩ := p
    rw [get?_cons] at h
    rw [set]
    split at h
    · next hk =>
      cases h
      rw [if_pos hk]
    · next hk => rw [if_neg hk, ih h]

/-- Some assignments, one after the other. -/
def setAll (d : Dict κ α) (items : List (κ × α)) : Dict κ α :=
  items.foldl (fun d p => set d p.1 p.2) d

lemma get?_setAll_of_notMem {d : Dict κ α} {items : List (κ × α)} {k : κ}
    (h : k ∉ items.map (·.1)) :
    get? (setAll d items) k = get? d k := by
  induction items generalizing d with
  | nil => rfl
  | cons p items ih =>
    rw [List.map_cons, List.mem_cons, not_or] at h
    exact (ih h.2).trans (get?_set_of_ne _ _ h.1)

/-- Each value that is assigned is there afterwards. -/
lemma get?_setAll {d : Dict κ α} {items : List (κ × α)} (hkeys : (items.map (·.1)).Nodup)
    {p : κ × α} (hp : p ∈ items) : get? (setAll d items) p.1 = some p.2 := by
  induction items generalizing d with
  | nil => cases hp
  | cons q items ih =>
    obtain ⟨hq, hkeys⟩ := List.nodup_cons.mp hkeys
    rcases List.mem_cons.mp hp with rfl | hp
    · exact (get?_setAll_of_notMem hq).trans (get?_set_self _ _ _)
    · exact ih hkeys hp

/-- Assignments change nothing exactly when all values are there already. -/
lemma setAll_eq_self_iff {d : Dict κ α} {items : List (κ × α)} (hkeys : (items.map (·.1)).Nodup) :
    setAll d items = d ↔ ∀ p ∈ items, get? d p.1 = some p.2 := by
  constructor
  · intro h p hp
    rw [← h, get?_setAll hkeys hp]
  · intro h
    clear hkeys
    induction items with
    | nil => rfl
    | cons p items ih =>
      obtain ⟨hp, h⟩ := List.forall_mem_cons.mp h
      rw [setAll, List.foldl_cons, set_eq_self hp]
      exact ih h

/-- A lookup among changed values. -/
lemma get?_map (d : Dict κ α) (f : α → β) (k : κ) :
    get? (d.map fun p => (p.1, f p.2)) k = (get? d k).map f := by
  induction d with
  | nil => rfl
  | cons p d ih =>
    obtain ⟨k', v⟩ := p
    rw [List.map_cons, get?_cons, get?_cons, ih]
    split <;> rfl

/-- What a lookup finds among the items whose keys satisfy `p`. -/
lemma get?_filter (d : Dict κ α) (p : κ → Bool) (k : κ) :
    get? (d.filter fun i => p i.1) k = if p k then get? d k else none := by
  induction d with
  | nil => simp
  | cons i d ih =>
    obtain ⟨k', v'⟩ := i
    by_cases hp : p k' = true
    · rw [List.filter_cons_of_pos (by simpa using hp), get?_cons, get?_cons, ih]
      by_cases hk : k' = k
      · rw [if_pos hk, if_pos hk, if_pos (hk ▸ hp)]
      · rw [if_neg hk, if_neg hk]
    · rw [List.filter_cons_of_neg (by simpa using hp), get?_cons, ih]
      by_cases hk : k' = k
      · rw [if_neg (hk ▸ hp), if_neg (hk ▸ hp)]
      · rw [if_neg hk]

/-- What a lookup finds after a removal. -/
lemma get?_erase (d : Dict κ α) (k i : κ) :
    get? (erase d k) i = if i = k then none else get? d i := by
  have h := get?_filter d (fun j => j ≠ k) i
  by_cases hi : i = k
  · simpa [erase, hi] using h
  · simpa [erase, hi] using h

/-- The items after an assignment are the new one and old ones. -/
lemma mem_set {d : Dict κ α} {k : κ} {v : α} {p : κ × α} (h : p ∈ set d k v) :
    p = (k, v) ∨ p ∈ d := by
  induction d with
  | nil => exact .inl (by simpa [set] using h)
  | cons q d ih =>
    obtain ⟨k', v'⟩ := q
    by_cases hk : k' = k
    · rw [set, if_pos hk] at h
      rcases List.mem_cons.mp h with h | h
      · exact .inl (by rw [h, hk])
      · exact .inr (List.mem_cons_of_mem _ h)
    · rw [set, if_neg hk] at h
      rcases List.mem_cons.mp h with h | h
      · exact .inr (h ▸ List.mem_cons_self)
      · exact (ih h).imp_right (List.mem_cons_of_mem _)

/-- An assignment adds at most its own key. -/
lemma mem_keys_set (d : Dict κ α) (k i : κ) (v : α) :
    i ∈ keys (set d k v) ↔ i = k ∨ i ∈ keys d := by
  have h := get?_set d k i v
  by_cases hi : i = k
  · subst hi
    simp only [true_or, iff_true]
    by_contra hn
    rw [← get?_eq_none_iff, get?_set_self] at hn
    cases hn
  · rw [if_neg hi] at h
    rw [← not_iff_not, ← get?_eq_none_iff, h, get?_eq_none_iff]
    simp [hi]

/-- A new key goes to the end. -/
lemma set_of_notMem {d : Dict κ α} {k : κ} (v : α) (h : k ∉ keys d) :
    set d k v = d ++ [(k, v)] := by
  induction d with
  | nil => rfl
  | cons p d ih =>
    obtain ⟨k', v'⟩ := p
    simp only [keys, List.map_cons, List.mem_cons, not_or] at h
    rw [set, if_neg (Ne.symm h.1), ih h.2]
    rfl

/-- A dictionary built by assignments, in order. -/
def ofList (items : List (κ × α)) : Dict κ α := items.foldl (fun d p => set d p.1 p.2) []

/-- Assignments to different keys are the items of the dictionary. -/
lemma ofList_of_nodup {items : List (κ × α)} (h : (items.map (·.1)).Nodup) :
    ofList items = items := by
  have key : ∀ (xs : List (κ × α)) (d : Dict κ α), ((d ++ xs).map (·.1)).Nodup →
      xs.foldl (fun d p => set d p.1 p.2) d = d ++ xs := by
    intro xs
    induction xs with
    | nil =>
      intro d _
      exact (List.append_nil d).symm
    | cons p xs ih =>
      intro d hd
      have hp : p.1 ∉ keys d := by
        rw [List.map_append, List.nodup_append] at hd
        intro hmem
        exact hd.2.2 p.1 hmem p.1 (by simp) rfl
      rw [List.foldl_cons, set_of_notMem _ hp, ih]
      · simp
      · simpa using hd
  exact key items [] h

/-- The keys keep their places, and a new one goes to the end. -/
lemma keys_set (d : Dict κ α) (k : κ) (v : α) :
    keys (set d k v) = if k ∈ keys d then keys d else keys d ++ [k] := by
  induction d with
  | nil => simp [keys, set]
  | cons p d ih =>
    obtain ⟨k', v'⟩ := p
    by_cases hk : k' = k
    · simp [set, hk, keys]
    · have hk' : k ≠ k' := Ne.symm hk
      simp only [keys] at ih
      by_cases hmem : k ∈ keys d
      · simp only [keys] at hmem
        simp [set, hk, keys, ih, hmem]
      · simp only [keys] at hmem
        simp [set, hk, hk', keys, ih, hmem]

lemma nodup_keys_set {d : Dict κ α} (h : (keys d).Nodup) (k : κ) (v : α) :
    (keys (set d k v)).Nodup := by
  rw [keys_set]
  split
  · exact h
  · next hk => exact List.nodup_append.mpr ⟨h, List.nodup_singleton k, by
      rintro a ha b hb rfl
      exact hk (List.mem_singleton.mp hb ▸ ha)⟩

/-- The second of two assignments to a key counts. -/
@[simp] lemma set_set (d : Dict κ α) (k : κ) (v w : α) : set (set d k v) k w = set d k w := by
  induction d with
  | nil => simp [set]
  | cons p d ih =>
    obtain ⟨k', v'⟩ := p
    by_cases h : k' = k
    · simp [set, h]
    · simp [set, h, ih]

lemma mem_keys_filter (d : Dict κ α) (p : κ → Bool) (k : κ) :
    k ∈ keys (d.filter fun i => p i.1) ↔ p k = true ∧ k ∈ keys d := by
  rw [← not_iff_not, ← get?_eq_none_iff, get?_filter]
  split
  · next h => simp [h, get?_eq_none_iff]
  · next h => simp [h]

/-! ## Hidden values -/

/-- The dictionary with `v` in the place of the values of some keys. -/
def hide (ks : List κ) (v : α) (d : Dict κ α) : Dict κ α :=
  d.map fun p => if p.1 ∈ ks then (p.1, v) else p

/-- The items of some keys. -/
def only (ks : List κ) (d : Dict κ α) : Dict κ α := d.filter fun p => p.1 ∈ ks

section Hide

variable {ks : List κ} {v : α}

lemma hide_cons (k : κ) (w : α) (d : Dict κ α) :
    hide ks v ((k, w) :: d) = (k, if k ∈ ks then v else w) :: hide ks v d := by
  by_cases h : k ∈ ks <;> simp [hide, h]

@[simp] lemma keys_hide (d : Dict κ α) : keys (hide ks v d) = keys d := by
  induction d with
  | nil => rfl
  | cons p d ih =>
    obtain ⟨k, w⟩ := p
    simp only [keys] at ih
    simp [hide_cons, keys, ih]

@[simp] lemma hide_nil (d : Dict κ α) : hide [] v d = d := by
  simp [hide]

/-- The other keys are not hidden. -/
lemma get?_hide_of_notMem {k : κ} (h : k ∉ ks) (d : Dict κ α) :
    get? (hide ks v d) k = get? d k := by
  induction d with
  | nil => rfl
  | cons p d ih =>
    obtain ⟨k', w⟩ := p
    rw [hide_cons, get?_cons, get?_cons, ih]
    by_cases hk : k' = k
    · subst hk
      simp [h]
    · simp [hk]

/-- An assignment to a key that is not hidden. -/
lemma hide_set_of_notMem {k : κ} (h : k ∉ ks) (w : α) (d : Dict κ α) :
    hide ks v (set d k w) = set (hide ks v d) k w := by
  induction d with
  | nil => simp [set, hide, h]
  | cons p d ih =>
    obtain ⟨k', w'⟩ := p
    by_cases hk : k' = k
    · subst hk
      simp [set, hide_cons, h]
    · simp [set, hide_cons, hk, ih]

/-- An assignment to a key that is hidden. -/
lemma hide_set_of_mem {k : κ} (h : k ∈ ks) (w : α) (d : Dict κ α) :
    hide ks v (set d k w) = set (hide ks v d) k v := by
  induction d with
  | nil => simp [set, hide, h]
  | cons p d ih =>
    obtain ⟨k', w'⟩ := p
    by_cases hk : k' = k
    · subst hk
      simp [set, hide_cons, h]
    · simp [set, hide_cons, hk, ih]

/-- After an assignment it does not matter what the key had before. -/
lemma hide_set_of_nodup {d : Dict κ α} (hd : (keys d).Nodup) {k : κ} (h : k ∉ ks) (w : α) :
    hide ks v (set d k w) = set (hide (k :: ks) v d) k w := by
  induction d with
  | nil => simp [set, hide, h]
  | cons p d ih =>
    obtain ⟨k', w'⟩ := p
    obtain ⟨hk', hd⟩ := List.nodup_cons.mp hd
    by_cases hk : k' = k
    · subst hk
      have hrest : hide ks v d = hide (k' :: ks) v d := by
        refine List.map_congr_left fun p hp => ?_
        have hne : p.1 ≠ k' := by
          intro heq
          apply hk'
          simpa only [heq] using List.mem_map_of_mem (f := (·.1)) hp
        simp [hne]
      simp [set, hide_cons, h, hrest]
    · simp [set, hide_cons, hk, ih hd]

lemma hide_congr {ks' : List κ} (h : ∀ k, k ∈ ks ↔ k ∈ ks') (d : Dict κ α) :
    hide ks v d = hide ks' v d := by
  simp [hide, h]

/-- The same assignment to dictionaries that are the same but for the key. -/
lemma hide_set_congr {d d' : Dict κ α} (hd : (keys d).Nodup) (hd' : (keys d').Nodup) {k : κ}
    (hk : k ∉ ks) (h : hide (k :: ks) v d = hide (k :: ks) v d') (w : α) :
    hide ks v (set d k w) = hide ks v (set d' k w) := by
  rw [hide_set_of_nodup hd hk, hide_set_of_nodup hd' hk, h]

/-- Hiding more hides what was hidden before. -/
lemma hide_hide {ks' : List κ} {w : α} (h : ∀ k ∈ ks', k ∈ ks) (d : Dict κ α) :
    hide ks v (hide ks' w d) = hide ks v d := by
  induction d with
  | nil => rfl
  | cons p d ih =>
    obtain ⟨k, x⟩ := p
    rw [hide_cons, hide_cons, hide_cons, ih]
    by_cases hk : k ∈ ks'
    · simp [h k hk]
    · simp [hk]

lemma hide_filter (p : κ → Bool) (d : Dict κ α) :
    hide ks v (d.filter fun i => p i.1) = (hide ks v d).filter fun i => p i.1 := by
  induction d with
  | nil => rfl
  | cons i d ih =>
    obtain ⟨k, w⟩ := i
    by_cases hk : p k = true
    · simp [hide_cons, hk, ih]
    · simp [hide_cons, hk, ih]

lemma only_set_of_notMem {k : κ} (h : k ∉ ks) (w : α) (d : Dict κ α) :
    only ks (set d k w) = only ks d := by
  induction d with
  | nil => simp [only, set, h]
  | cons p d ih =>
    obtain ⟨k', w'⟩ := p
    simp only [only] at ih
    by_cases hk : k' = k
    · subst hk
      simp [set, only, h]
    · simp only [set, if_neg hk, only, List.filter_cons, ih]

variable (ks v) in
/-- Dictionaries are the same when what is hidden and what is not are. -/
lemma eq_iff_hide_only {d d' : Dict κ α} :
    d = d' ↔ hide ks v d = hide ks v d' ∧ only ks d = only ks d' := by
  constructor
  · rintro rfl
    exact ⟨rfl, rfl⟩
  rintro ⟨hhide, honly⟩
  induction d generalizing d' with
  | nil =>
    cases d' with
    | nil => rfl
    | cons p d' => simp [hide] at hhide
  | cons p d ih =>
    obtain ⟨k, w⟩ := p
    cases d' with
    | nil => simp [hide] at hhide
    | cons p' d' =>
      obtain ⟨k', w'⟩ := p'
      rw [hide_cons, hide_cons] at hhide
      simp only [List.cons.injEq, Prod.mk.injEq] at hhide
      obtain ⟨⟨rfl, hvalue⟩, hrest⟩ := hhide
      by_cases hk : k ∈ ks
      · simp only [only, List.filter_cons, hk, decide_true, if_true, List.cons.injEq,
          Prod.mk.injEq, true_and] at honly
        rw [honly.1, ih hrest honly.2]
      · simp only [if_neg hk] at hvalue
        simp only [only, List.filter_cons, hk, decide_false, Bool.false_eq_true, if_false] at honly
        rw [hvalue, ih hrest honly]

end Hide

end Dict

import NocReport.Triage.PatternMerging

set_option relaxedAutoImplicit false
set_option autoImplicit false

/-!
# The accounts of a log

The counts `preprocess_log` keeps in several places are counts of the same entries: the counter of
patterns counts the pattern ids of the manifest, whatever is ranked low goes to `other` with its
count, and the families are the patterns grouped once more.

## Main definitions

* `Triage.Tally.Counts` — the counter of patterns counts the manifest.
* `Triage.Statistics.AddsUp` — all counts are those of the manifest.

## Main results

* `Triage.Counter.getD_addAll` — a counter counts.
* `Triage.Tally.families_perm` — the families share the patterns.
* `Triage.preprocessLogWith_addsUp` — the statistics of every log add up.
-/

namespace Triage

namespace Counter

lemma getD_add (c : Counter) (k i : PyStr) :
    Dict.getD (c.add k) i 0 = Dict.getD c i 0 + if i = k then 1 else 0 := by
  rw [add, Dict.getD, Dict.get?_set]
  split
  · next h => rw [h]; rfl
  · rfl

/-- A counter counts. -/
lemma getD_addAll (c : Counter) (ks : List PyStr) (i : PyStr) :
    Dict.getD (c.addAll ks) i 0 = Dict.getD c i 0 + ks.count i := by
  induction ks generalizing c with
  | nil => rfl
  | cons k ks ih =>
    show Dict.getD ((c.add k).addAll ks) i 0 = _
    rw [ih, getD_add, List.count_cons]
    by_cases hk : i = k
    · subst hk
      simp only [if_true, beq_self_eq_true]
      omega
    · have hne : k ≠ i := Ne.symm hk
      simp [hk, hne]

/-- The keys of a counter are what it has counted. -/
lemma mem_keys_addAll (c : Counter) (ks : List PyStr) (i : PyStr) :
    i ∈ Dict.keys (c.addAll ks) ↔ i ∈ Dict.keys c ∨ i ∈ ks := by
  induction ks generalizing c with
  | nil => simp [addAll]
  | cons k ks ih =>
    show i ∈ Dict.keys ((c.add k).addAll ks) ↔ _
    rw [ih, add, Dict.mem_keys_set, List.mem_cons]
    tauto

end Counter

/-! ## The counter of patterns -/

section Counts

variable {env : Env} {t t' : Tally} {maxSamples : ℕ}

/-- The pattern ids of the manifest, entry by entry. -/
def Tally.manifestPatterns (t : Tally) : List PyStr := t.entryManifest.map (·.patternId)

/-- The counter of patterns counts the manifest. -/
def Tally.Counts (t : Tally) : Prop :=
  t.patternCounts = Counter.addAll [] t.manifestPatterns

/-- An entry goes to the counter and to the manifest. -/
lemma tallyEntry_counts {item : ℕ × LogEntry} (ht : t.Counts)
    (h : tallyEntry env maxSamples t item = .ok t') : t'.Counts := by
  obtain ⟨n, entry⟩ := item
  obtain ⟨e, family, -, -, -, -, -, hmanifest, hcounts, -⟩ := tallyEntry_frame h
  have hids : t'.manifestPatterns = t.manifestPatterns ++ [e.patternId] := by
    simp [Tally.manifestPatterns, hmanifest]
  rw [Tally.Counts, hids, hcounts, ht, Counter.addAll, Counter.addAll, List.foldl_append]
  rfl

lemma Tally.Counts.getD (ht : t.Counts) (pid : PyStr) :
    Dict.getD t.patternCounts pid 0 = t.manifestPatterns.count pid := by
  rw [ht, Counter.getD_addAll]
  exact Nat.zero_add _

lemma Tally.Counts.mem_keys (ht : t.Counts) (pid : PyStr) :
    pid ∈ Dict.keys t.patternCounts ↔ pid ∈ t.manifestPatterns := by
  rw [ht, Counter.mem_keys_addAll]
  simp [Dict.keys]

/-- A listed pattern has the count of its entries. -/
lemma Tally.Counts.pattern (ht : t.Counts) {maxPatterns : ℕ} {p : Pattern}
    (hp : p ∈ t.patterns maxPatterns) (hother : p.id ≠ py "other") :
    p.count = t.manifestPatterns.count p.id := by
  rcases List.mem_append.mp hp with hp | hp
  · obtain ⟨pid, -, rfl⟩ := List.mem_map.mp hp
    exact ht.getD pid
  · split at hp
    · cases hp
    · rw [List.mem_singleton] at hp
      subst hp
      exact absurd rfl hother

end Counts

/-! ## The families -/

section Families

variable {t : Tally} {n : ℕ}

/-- The patterns by their families. -/
def Tally.members (t : Tally) : Dict PyStr (List PyStr) :=
  Dict.groupBy (fun pid => (Dict.getD t.patternFamilies pid ([], [])).1) (Dict.keys t.patternCounts)

/-- The count of some patterns together. -/
def Tally.countOf (t : Tally) (pids : List PyStr) : ℕ :=
  (pids.map fun pid => Dict.getD t.patternCounts pid 0).sum

/-- What can be read off the families, item by item, can be read off their members. -/
lemma Tally.families_map {β : Type} (t : Tally) (f : List PyStr → ℕ → β) :
    (t.families.map fun family => f family.patternIds family.count).Perm
      (t.members.map fun p => f p.2 (t.countOf p.2)) := by
  refine ((List.perm_insertionSort _ _).map _).trans ?_
  rw [List.map_map]
  exact .refl _

/-- The families share the patterns. -/
lemma Tally.families_perm (t : Tally) :
    (t.families.flatMap (·.patternIds)).Perm (Dict.keys t.patternCounts) := by
  rw [List.flatMap_def]
  refine (t.families_map fun pids _ => pids).flatten.trans ?_
  rw [← List.flatMap_def]
  exact Dict.groupBy_perm _ _

/-- No family is empty. -/
lemma Tally.families_ne_nil {family : Family} (h : family ∈ t.families) :
    family.patternIds ≠ [] := by
  have hmem := (t.families_map fun pids _ => pids).mem_iff.mp (List.mem_map_of_mem h)
  obtain ⟨p, hp, heq⟩ := List.mem_map.mp hmem
  rw [← heq]
  exact Dict.ne_nil_of_mem_foldl_push _ id _ (by simp) p hp

/-- The counts of the families are those of all patterns. -/
lemma Tally.Sound.families_total (ht : t.Sound n) : (t.families.map (·.count)).sum = n := by
  have hsum : ∀ d : Dict PyStr (List PyStr),
      (d.map fun p => t.countOf p.2).sum = t.countOf (d.flatMap (·.2)) := by
    intro d
    induction d with
    | nil => rfl
    | cons p d ih =>
      rw [List.map_cons, List.sum_cons, ih, List.flatMap_cons]
      simp [Tally.countOf]
  calc (t.families.map (·.count)).sum
      = (t.members.map fun p => t.countOf p.2).sum := (t.families_map fun _ k => k).sum_eq
    _ = t.countOf (t.members.flatMap (·.2)) := hsum _
    _ = t.countOf (Dict.keys t.patternCounts) := ((Dict.groupBy_perm _ _).map _).sum_eq
    _ = t.patternCounts.total := by rw [Tally.countOf, Dict.map_getD_keys ht.keys]; rfl
    _ = n := ht.total

end Families

/-! ## The statistics -/

/-- All counts of the statistics are those of the entry manifest. -/
structure Statistics.AddsUp (st : Statistics) : Prop where
  /-- the counts of the listed patterns, `other` among them, make up the entries -/
  total : (st.patternManifest.map (·.count)).sum = st.totalEntries
  ids : st.entryManifest.map (·.id) = List.range st.totalEntries
  pattern : ∀ p ∈ st.patternManifest, p.id ≠ py "other" →
    p.count = (st.entryManifest.map (·.patternId)).count p.id
  /-- every pattern of the manifest is in one family, and only once -/
  partition : (st.patternFamilies.flatMap (·.patternIds)).Perm
    (st.entryManifest.map (·.patternId)).dedup
  nonempty : ∀ family ∈ st.patternFamilies, family.patternIds ≠ []
  families : (st.patternFamilies.map (·.count)).sum = st.totalEntries

/-- **The statistics of every log add up.** -/
theorem preprocessLogWith_addsUp {env : Env} {maxPatterns maxSamples : ℕ} {logText : PyStr}
    {st : Statistics} (h : preprocessLogWith env maxPatterns maxSamples logText = .ok st) :
    st.AddsUp := by
  have hwf := preprocessLogWith_wellFormed h
  obtain ⟨items, -, h⟩ := Except.bind_eq_ok.mp h
  obtain ⟨t, ht, h⟩ := Except.bind_eq_ok.mp h
  obtain ⟨first, -, h⟩ := Except.bind_eq_ok.mp h
  obtain ⟨last, -, h⟩ := Except.bind_eq_ok.mp h
  rw [Except.pure_eq_ok] at h
  subst h
  have hempty : Tally.empty.Counts := rfl
  have hcounts : t.Counts :=
    Except.foldlM_invariant (fun _ _ _ _ hc h => tallyEntry_counts hc h) hempty ht
  rw [List.range_eq_range'] at ht
  have hsound := tallyEntries_sound Tally.sound_empty ht
  rw [Nat.zero_add] at hsound
  refine ⟨hwf.total, hwf.ids, fun p hp hother => hcounts.pattern hp hother, ?_,
    fun family hfamily => Tally.families_ne_nil hfamily, hsound.families_total⟩
  refine t.families_perm.trans ?_
  rw [List.perm_ext_iff_of_nodup hsound.keys (List.nodup_dedup _)]
  intro pid
  rw [hcounts.mem_keys, List.mem_dedup]
  rfl

/-- The accounts of the sample log, with one pattern listed. -/
theorem sampleLog_addsUp : ∃ st, preprocessLogWith sampleEnv 1 40 sampleLog = .ok st ∧
    st.AddsUp := by
  obtain ⟨st, hst⟩ : ∃ st, preprocessLogWith sampleEnv 1 40 sampleLog = .ok st :=
    ⟨_, rfl⟩
  exact ⟨st, hst, preprocessLogWith_addsUp hst⟩

end Triage

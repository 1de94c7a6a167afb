import NocReport.Foundation.Text

set_option relaxedAutoImplicit false
set_option autoImplicit false

/-!
# Backtracking regular expressions

The expressions of Python's `re` with at most one capturing group, matched the way a
backtracking engine does: alternatives from left to right, repetitions greedily. Which code
points are word characters is a parameter.

## Main definitions

* `Regex` — the expressions; `Regex.literal`, `Regex.optional`, `Regex.plus`, `Regex.oneOf` —
  common forms of them.
* `Regex.run` — matching at one place, with a continuation that says what has to follow.
* `Regex.pieces` — the text cut into its leftmost matches and the code points between them.
* `Regex.search`, `Regex.findAll`, `Regex.sub` — `re.search`, `re.findall` and `re.sub` with a
  constant replacement.

## Main results

* `Regex.exists_of_run` — an expression that matches ends where the rest goes on.
* `Regex.exists_of_times` — what a repeated set of code points matches.
* `Regex.exists_of_mem_findAll` — what `re.findall` finds is a match at some place.
* `Regex.mem_of_mem_sub_plus`, `Regex.mem_sub_plus` — what `re.sub` leaves of a text when it
  replaces runs of some code points.
-/

/-- A regular expression. -/
inductive Regex where
  | empty
  | chars (p : ℕ → Bool)
  | seq (a b : Regex)
  | alt (a b : Regex)
  /-- between `lo` and `hi` repetitions, as many as possible -/
  | rep (lo : ℕ) (hi : Option ℕ) (a : Regex)
  /-- the capturing group -/
  | group (a : Regex)
  /-- `\1` -/
  | groupAgain
  /-- `(?!…)` -/
  | notAhead (a : Regex)
  /-- `(?<!…)` with one code point inside -/
  | notBehind (p : ℕ → Bool)
  /-- `\b` -/
  | boundary
  /-- `$` -/
  | atEnd

namespace Regex

/-- A place in a text: the code point before it, the text after it, and what the group has
captured. -/
structure Place where
  before : Option ℕ
  rest : List ℕ
  captured : Option PyStr
  deriving DecidableEq, Repr

/-- The start of a text. -/
def Place.start (text : PyStr) : Place := ⟨none, text, none⟩

/-- The place after `n` more code points. -/
def Place.forward (s : Place) (n : ℕ) : Place :=
  { s with before := if n = 0 then s.before else s.rest[n - 1]?, rest := s.rest.drop n }

/-- The text between a place and a later one. -/
def Place.upTo (s t : Place) : PyStr := s.rest.take (s.rest.length - t.rest.length)

/-- A match has to go on from a place, or fails. -/
abbrev Continuation := Place → Option Place

/-- `lo` repetitions of `body` and then as many as possible up to `hi`; one that consumes nothing
is not repeated again. -/
def repeatBody (body : Continuation → Continuation) (k : Continuation) :
    ℕ → ℕ → Option ℕ → Continuation
  | 0, lo, _, s => if lo = 0 then k s else none
  | fuel + 1, lo + 1, hi, s =>
    body (repeatBody body k fuel lo (hi.map (· - 1))) s
  | fuel + 1, 0, hi, s =>
    let more := if hi = some 0 then none else
      body (fun t => if t.rest.length < s.rest.length then
        repeatBody body k fuel 0 (hi.map (· - 1)) t else none) s
    match more with
    | some t => some t
    | none => k s

section Matching

variable (isWord : ℕ → Bool)

/-- Whether the place is at a word boundary. -/
def Place.boundary (s : Place) : Bool :=
  (s.before.any isWord) != (s.rest.head?.any isWord)

/-- Match an expression at a place, and go on with `k` after it. -/
def run : Regex → Continuation → Continuation
  | empty, k, s => k s
  | chars p, k, s =>
    match s.rest with
    | c :: _ => if p c then k (s.forward 1) else none
    | [] => none
  | seq a b, k, s => run a (run b k) s
  | alt a b, k, s =>
    match run a k s with
    | some t => some t
    | none => run b k s
  | rep lo hi a, k, s => repeatBody (run a) k (lo + s.rest.length + 1) lo hi s
  | group a, k, s => run a (fun t => k { t with captured := some (s.upTo t) }) s
  | groupAgain, k, s =>
    match s.captured with
    | some text => if text.isPrefixOf s.rest then k (s.forward text.length) else none
    | none => none
  | notAhead a, k, s => if (run a some s).isSome then none else k s
  | notBehind p, k, s => if s.before.any p then none else k s
  | boundary, k, s => if s.boundary isWord then k s else none
  | atEnd, k, s => if s.rest = [] ∨ s.rest = [10] then k s else none

/-- A match: its text, and what the group has captured. -/
structure Match where
  text : PyStr
  captured : Option PyStr
  deriving DecidableEq, Repr

/-- `match.group(1)`. -/
def Match.group (m : Match) : PyStr := m.captured.getD []

variable (re : Regex)

/-- The text from a place on, cut into the leftmost matches and the code points between them. -/
def piecesFrom : ℕ → Place → List (ℕ ⊕ Match)
  | 0, _ => []
  | fuel + 1, s =>
    let next := match s.rest with
      | [] => []
      | c :: _ => .inl c :: piecesFrom fuel (s.forward 1)
    match run isWord re some s with
    | none => next
    | some t =>
      .inr ⟨s.upTo t, t.captured⟩ ::
        if t.rest.length < s.rest.length then piecesFrom fuel { t with captured := none } else next

/-- The text cut into its leftmost matches and the code points between them. -/
def pieces (text : PyStr) : List (ℕ ⊕ Match) :=
  piecesFrom isWord re (text.length + 1) (.start text)

/-- `re.findall`, with the whole match and the group of each. -/
def findAll (text : PyStr) : List Match := (pieces isWord re text).filterMap Sum.getRight?

/-- `re.search`. -/
def search (text : PyStr) : Option Match := (findAll isWord re text).head?

/-- `re.sub` with a constant replacement. -/
def sub (replacement text : PyStr) : PyStr :=
  (pieces isWord re text).flatMap (Sum.elim (fun c => [c]) fun _ => replacement)

end Matching

/-! ## Common forms -/

/-- The text of a literal, each code point matched by `same`. -/
def literal (same : ℕ → ℕ → Bool) (s : String) : Regex :=
  (py s).foldr (fun c re => seq (chars (same c)) re) empty

/-- One expression after the other. -/
def concat (res : List Regex) : Regex := res.foldr seq empty

/-- One of the expressions, the first that matches. -/
def oneOf : List Regex → Regex
  | [] => chars fun _ => false
  | [re] => re
  | re :: res => alt re (oneOf res)

/-- `(…)?` -/
def optional (re : Regex) : Regex := rep 0 (some 1) re

/-- `(…)*` -/
def many (re : Regex) : Regex := rep 0 none re

/-- `(…)+` -/
def plus (re : Regex) : Regex := rep 1 none re

/-- `(…){n}` -/
def times (n : ℕ) (re : Regex) : Regex := rep n (some n) re

/-! ## Where a match ends -/

section Matches

attribute [local simp] run repeatBody

variable {isWord : ℕ → Bool} {k : Continuation} {s t : Place}

/-- A repetition that matches ends where the rest goes on. -/
lemma exists_of_repeatBody {body : Continuation → Continuation}
    (hbody : ∀ (k : Continuation) (s t : Place), body k s = some t → ∃ s', k s' = some t)
    {fuel lo : ℕ} {hi : Option ℕ} (h : repeatBody body k fuel lo hi s = some t) :
    ∃ s', k s' = some t := by
  induction fuel generalizing lo hi s with
  | zero =>
    rw [repeatBody] at h
    split at h
    · exact ⟨s, h⟩
    · cases h
  | succ fuel ih =>
    cases lo with
    | succ lo =>
      obtain ⟨s', hs'⟩ := hbody _ _ _ h
      exact ih hs'
    | zero =>
      simp only [repeatBody] at h
      split at h
      · next hmore =>
        split at hmore
        · cases hmore
        · obtain ⟨s', hs'⟩ := hbody _ _ _ hmore
          split at hs'
          · cases h
            exact ih hs'
          · cases hs'
      · exact ⟨s, h⟩

/-- An expression that matches ends where the rest goes on. -/
lemma exists_of_run (re : Regex) (h : run isWord re k s = some t) : ∃ s', k s' = some t := by
  induction re generalizing k s t with
  | empty => exact ⟨s, h⟩
  | chars p =>
    rw [run] at h
    split at h
    · split at h
      · exact ⟨_, h⟩
      · cases h
    · cases h
  | seq a b iha ihb =>
    obtain ⟨s', hs'⟩ := iha h
    exact ihb hs'
  | alt a b iha ihb =>
    rw [run] at h
    split at h
    · next ha =>
      cases h
      exact iha ha
    · exact ihb h
  | rep lo hi a ih => exact exists_of_repeatBody (fun _ _ _ ha => ih ha) h
  | group a ih =>
    obtain ⟨s', hs'⟩ := ih h
    exact ⟨_, hs'⟩
  | groupAgain =>
    rw [run] at h
    split at h
    · split at h
      · exact ⟨_, h⟩
      · cases h
    · cases h
  | notAhead a =>
    rw [run] at h
    split at h
    · cases h
    · exact ⟨s, h⟩
  | notBehind p =>
    rw [run] at h
    split at h
    · cases h
    · exact ⟨s, h⟩
  | boundary =>
    rw [run] at h
    split at h
    · exact ⟨s, h⟩
    · cases h
  | atEnd =>
    rw [run] at h
    split at h
    · exact ⟨s, h⟩
    · cases h

/-- A sequence that matches goes on with its second part somewhere. -/
lemma exists_of_seq {a b : Regex} (h : run isWord (seq a b) k s = some t) :
    ∃ s', run isWord b k s' = some t :=
  exists_of_run a h

/-- What `(…){n}` with one code point inside matches. -/
lemma exists_of_times {p : ℕ → Bool} {n : ℕ} (h : run isWord (times n (chars p)) k s = some t) :
    ∃ s' text, s.rest = text ++ s'.rest ∧ text.length = n ∧ (∀ c ∈ text, p c = true) ∧
      k s' = some t := by
  have hloop : ∀ (n fuel : ℕ) (s : Place),
      repeatBody (run isWord (chars p)) k fuel n (some n) s = some t →
      ∃ s' text, s.rest = text ++ s'.rest ∧ text.length = n ∧ (∀ c ∈ text, p c = true) ∧
        k s' = some t := by
    intro n
    induction n with
    | zero =>
      intro fuel s h
      refine ⟨s, [], rfl, rfl, by simp, ?_⟩
      cases fuel with
      | zero => simpa [repeatBody] using h
      | succ fuel => simpa [repeatBody] using h
    | succ n ih =>
      intro fuel s h
      cases fuel with
      | zero => simp [repeatBody] at h
      | succ fuel =>
        simp only [repeatBody, run, Option.map_some, Nat.add_sub_cancel] at h
        split at h
        · next c rest hrest =>
          split at h
          · next hc =>
            obtain ⟨s', text, htext, hlen, hall, hk⟩ := ih fuel _ h
            refine ⟨s', c :: text, ?_, by rw [List.length_cons, hlen], ?_, hk⟩
            · rw [hrest, List.cons_append, ← htext, Place.forward, hrest]
              rfl
            · intro d hd
              rcases List.mem_cons.mp hd with rfl | hd
              · exact hc
              · exact hall d hd
          · cases h
        · cases h
  exact hloop n _ s h

/-- What a group has captured when the expression after it does not capture. -/
lemma upTo_of_rest {s' : Place} {text : PyStr} (h : s.rest = text ++ s'.rest) :
    s.upTo s' = text := by
  rw [Place.upTo, h, List.length_append, Nat.add_sub_cancel]
  exact List.take_left

variable {re : Regex}

lemma mem_piecesFrom {fuel : ℕ} {m : Match} (h : Sum.inr m ∈ piecesFrom isWord re fuel s) :
    ∃ s t, run isWord re some s = some t ∧ m = ⟨s.upTo t, t.captured⟩ := by
  induction fuel generalizing s with
  | zero => cases h
  | succ fuel ih =>
    have hnext : Sum.inr m ∈ (match s.rest with
        | [] => []
        | c :: _ => Sum.inl c :: piecesFrom isWord re fuel (s.forward 1)) →
        ∃ s t, run isWord re some s = some t ∧ m = ⟨s.upTo t, t.captured⟩ := by
      intro h
      split at h
      · cases h
      · rcases List.mem_cons.mp h with h | h
        · cases h
        · exact ih h
    simp only [piecesFrom] at h
    split at h
    · exact hnext h
    · next t ht =>
      rcases List.mem_cons.mp h with h | h
      · cases h
        exact ⟨s, t, ht, rfl⟩
      · split at h
        · exact ih h
        · exact hnext h

/-- What is found is a match at some place of the text. -/
lemma exists_of_mem_findAll {m : Match} {text : PyStr} (h : m ∈ findAll isWord re text) :
    ∃ s t, run isWord re some s = some t ∧ m = ⟨s.upTo t, t.captured⟩ := by
  obtain ⟨piece, hpiece, hm⟩ := List.mem_filterMap.mp h
  cases piece with
  | inl c => cases hm
  | inr m' =>
    cases hm
    exact mem_piecesFrom hpiece

end Matches

/-! ## Replaced runs -/

section Runs

variable {isWord : ℕ → Bool} {p : ℕ → Bool} {k : Continuation} {s t : Place}

/-- What a repeated set of code points matches. -/
lemma exists_of_repeat_chars {fuel lo : ℕ} {hi : Option ℕ}
    (h : repeatBody (run isWord (chars p)) k fuel lo hi s = some t) :
    ∃ s' text, s.rest = text ++ s'.rest ∧ lo ≤ text.length ∧ (∀ c ∈ text, p c = true) ∧
      k s' = some t := by
  have hone : ∀ {k' : Continuation} {s : Place}, run isWord (chars p) k' s = some t →
      ∃ c rest, s.rest = c :: rest ∧ p c = true ∧ k' (s.forward 1) = some t := by
    intro k' s h
    rw [run] at h
    split at h
    · next c rest hrest =>
      split at h
      · next hc => exact ⟨c, rest, hrest, hc, h⟩
      · cases h
    · cases h
  have hlonger : ∀ {s s' : Place} {c : ℕ} {rest text : List ℕ} {n : ℕ}, s.rest = c :: rest →
      p c = true → (s.forward 1).rest = text ++ s'.rest → n ≤ text.length →
      (∀ c ∈ text, p c = true) →
      s.rest = (c :: text) ++ s'.rest ∧ n + 1 ≤ (c :: text).length ∧
        ∀ d ∈ c :: text, p d = true := by
    intro s s' c rest text n hrest hc htext hlen hall
    refine ⟨?_, Nat.succ_le_succ hlen, List.forall_mem_cons.mpr ⟨hc, hall⟩⟩
    rw [List.cons_append, ← htext, Place.forward, hrest]
    rfl
  induction fuel generalizing lo hi s with
  | zero =>
    rw [repeatBody] at h
    split at h
    · next hlo => exact ⟨s, [], rfl, hlo ▸ Nat.le_refl 0, by simp, h⟩
    · cases h
  | succ fuel ih =>
    cases lo with
    | succ lo =>
      obtain ⟨c, rest, hrest, hc, h⟩ := hone h
      obtain ⟨s', text, htext, hlen, hall, hk⟩ := ih h
      obtain ⟨htext, hlen, hall⟩ := hlonger hrest hc htext hlen hall
      exact ⟨s', c :: text, htext, hlen, hall, hk⟩
    | zero =>
      simp only [repeatBody] at h
      split at h
      · next hmore =>
        cases h
        split at hmore
        · cases hmore
        · obtain ⟨c, rest, hrest, hc, hmore⟩ := hone hmore
          split at hmore
          · obtain ⟨s', text, htext, hlen, hall, hk⟩ := ih hmore
            obtain ⟨htext, -, hall⟩ := hlonger hrest hc htext hlen hall
            exact ⟨s', c :: text, htext, Nat.zero_le _, hall, hk⟩
          · cases hmore
      · exact ⟨s, [], rfl, Nat.le_refl 0, by simp, h⟩

/-- A repetition that may be empty matches. -/
lemma exists_repeatBody {body : Continuation → Continuation} (fuel : ℕ) (hi : Option ℕ)
    (s : Place) : ∃ t, repeatBody body some fuel 0 hi s = some t := by
  cases fuel with
  | zero => exact ⟨s, by simp [repeatBody]⟩
  | succ fuel =>
    rw [repeatBody]
    split
    · exact ⟨_, rfl⟩
    · exact ⟨s, rfl⟩

/-- `[…]+` matches where there is one of the code points. -/
lemma exists_run_plus {c : ℕ} {rest : List ℕ} (hrest : s.rest = c :: rest) (hc : p c = true) :
    ∃ t, run isWord (plus (chars p)) some s = some t := by
  show ∃ t, repeatBody (run isWord (chars p)) some (1 + s.rest.length + 1) 1 none s = some t
  show ∃ t, run isWord (chars p) (repeatBody _ some (1 + s.rest.length) 0 none) s = some t
  rw [run, hrest]
  dsimp only
  rw [if_pos hc]
  exact exists_repeatBody _ _ _

/-- What `[…]+` matches. -/
lemma exists_of_plus (h : run isWord (plus (chars p)) some s = some t) :
    ∃ text, s.rest = text ++ t.rest ∧ text ≠ [] ∧ ∀ c ∈ text, p c = true := by
  obtain ⟨s', text, htext, hlen, hall, hk⟩ := exists_of_repeat_chars h
  cases hk
  exact ⟨text, htext, List.length_pos_iff.mp hlen, hall⟩

/-- The code points between the runs are the others, and all of them. -/
lemma mem_pieces_plus {fuel c : ℕ} (hfuel : s.rest.length < fuel) :
    Sum.inl c ∈ piecesFrom isWord (plus (chars p)) fuel s ↔ c ∈ s.rest ∧ p c = false := by
  induction fuel generalizing s with
  | zero => cases hfuel
  | succ fuel ih =>
    simp only [piecesFrom]
    split
    · next hnone =>
      cases hrest : s.rest with
      | nil => simp
      | cons d rest =>
        have hd : p d = false := by
          cases hd : p d with
          | false => rfl
          | true =>
            obtain ⟨t, ht⟩ := @exists_run_plus isWord p s d rest hrest hd
            rw [hnone] at ht
            cases ht
        have hforward : (s.forward 1).rest = rest := by rw [Place.forward, hrest]; rfl
        have hlen : (s.forward 1).rest.length < fuel := by
          rw [hforward]
          rw [hrest, List.length_cons] at hfuel
          omega
        rw [List.mem_cons, ih hlen, hforward, List.mem_cons, Sum.inl.injEq]
        constructor
        · rintro (rfl | ⟨hc, hp⟩)
          · exact ⟨.inl rfl, hd⟩
          · exact ⟨.inr hc, hp⟩
        · rintro ⟨rfl | hc, hp⟩
          · exact .inl rfl
          · exact .inr ⟨hc, hp⟩
    · next t ht =>
      obtain ⟨text, htext, hne, hall⟩ := exists_of_plus ht
      have hlt : t.rest.length < s.rest.length := by
        have := List.length_pos_iff.mpr hne
        rw [htext, List.length_append]
        omega
      have hlen : ({ t with captured := none } : Place).rest.length < fuel := by
        show t.rest.length < fuel
        omega
      rw [if_pos hlt, List.mem_cons, ih hlen, htext, List.mem_append]
      constructor
      · rintro (h | ⟨hc, hp⟩)
        · cases h
        · exact ⟨.inr hc, hp⟩
      · rintro ⟨hc | hc, hp⟩
        · rw [hall c hc] at hp
          cases hp
        · exact .inr ⟨hc, hp⟩

/-- **What is left when runs of some code points are replaced:** the other code points, and those
of the replacement. -/
lemma mem_of_mem_sub_plus {replacement text : PyStr} {c : ℕ}
    (h : c ∈ sub isWord (plus (chars p)) replacement text) :
    (c ∈ text ∧ p c = false) ∨ c ∈ replacement := by
  obtain ⟨piece, hpiece, hc⟩ := List.mem_flatMap.mp h
  cases piece with
  | inl d =>
    rw [Sum.elim_inl, List.mem_singleton] at hc
    subst hc
    exact .inl ((mem_pieces_plus (Nat.lt_succ_self _)).mp hpiece)
  | inr m => exact .inr hc

lemma mem_sub_plus {replacement text : PyStr} {c : ℕ} (hc : c ∈ text) (hp : p c = false) :
    c ∈ sub isWord (plus (chars p)) replacement text :=
  List.mem_flatMap.mpr ⟨.inl c, (mem_pieces_plus (Nat.lt_succ_self _)).mpr ⟨hc, hp⟩,
    List.mem_singleton_self c⟩

end Runs

end Regex

import NocReport.Foundation.JsonDecoder

set_option relaxedAutoImplicit false
set_option autoImplicit false

/-!
# JSON and characters that become line feeds

A JSON text can hold, inside its strings, characters that other parts of a program take for the end
of a line. Where they are replaced by line feeds, the text is no JSON any more.

## Main definitions

* `PyJson.Feeds` — a translation of some characters to line feeds, not of those JSON is made of.
* `PyJson.Lockstep` — a reader that accepts a text and its translation only if it has read no
  character that is translated.

## Main results

* `PyJson.loads_lockstep` — `json.loads` is such a reader.
-/

namespace PyJson

variable {α β : Type} {lib : Lib} {text rest : PyStr} {f : ℕ → ℕ}

/-- A translation of some characters to line feeds, not of those JSON is made of. -/
structure Feeds (f : ℕ → ℕ) : Prop where
  ascii : ∀ c, 32 ≤ c → c < 127 → f c = c
  space : ∀ c, isWhitespace c = true → f c = c
  feed : ∀ c, f c = c ∨ f c = 10

/-- What has been read of a text holds no character that is translated. -/
def Keeps (f : ℕ → ℕ) (text rest : PyStr) : Prop :=
  ∃ used, text = used ++ rest ∧ ∀ c ∈ used, f c = c

lemma Keeps.refl : Keeps f text text := ⟨[], rfl, by simp⟩

lemma Keeps.trans {t : PyStr} (h : Keeps f text t) (h' : Keeps f t rest) : Keeps f text rest := by
  obtain ⟨used, rfl, hused⟩ := h
  obtain ⟨used', rfl, hused'⟩ := h'
  refine ⟨used ++ used', (List.append_assoc _ _ _).symm, fun c hc => ?_⟩
  rcases List.mem_append.mp hc with hc | hc
  · exact hused c hc
  · exact hused' c hc

lemma Keeps.cons {c : ℕ} (hc : f c = c) (h : Keeps f text rest) : Keeps f (c :: text) rest := by
  obtain ⟨used, rfl, hused⟩ := h
  exact ⟨c :: used, rfl, List.forall_mem_cons.mpr ⟨hc, hused⟩⟩

/-- A reader that accepts a text and its translation only if it has read no character that is
translated; then what it leaves of the translation is the translation of what it leaves. -/
def Lockstep (f : ℕ → ℕ) (scan : PyStr → Except PyError (α × PyStr)) : Prop :=
  ∀ ⦃text a rest b rest'⦄, scan text = .ok (a, rest) → scan (text.map f) = .ok (b, rest') →
    rest' = rest.map f ∧ Keeps f text rest

/-- What a reader accepts starts with a character that is not translated. -/
def Starts (f : ℕ → ℕ) (scan : PyStr → Except PyError (α × PyStr)) : Prop :=
  ∀ ⦃text a rest⦄, scan text = .ok (a, rest) →
    ∃ c left, text = c :: left ∧ f c = c

namespace Feeds

variable (hf : Feeds f)

include hf

/-- A character JSON is made of comes only from itself. -/
lemma eq_iff {c d : ℕ} (h32 : 32 ≤ d) (h127 : d < 127) : f c = d ↔ c = d := by
  constructor
  · intro h
    rcases hf.feed c with hc | hc
    · exact hc.symm.trans h
    · omega
  · rintro rfl
    exact hf.ascii c h32 h127

lemma isDecimal (c : ℕ) : PyJson.isDecimal (f c) = PyJson.isDecimal c := by
  rw [Bool.eq_iff_iff]
  simp only [PyJson.isDecimal, Bool.and_eq_true, decide_eq_true_eq]
  constructor
  · intro h
    have hc : c = f c := (hf.eq_iff (by omega) (by omega)).mp rfl
    omega
  · intro h
    rw [hf.ascii c (by omega) (by omega)]
    exact h

end Feeds

section Readers

variable (hf : Feeds f)

include hf

/-! ## White space -/

lemma keeps_skipWhitespace (text : PyStr) : Keeps f text (skipWhitespace text) :=
  ⟨text.takeWhile isWhitespace, List.takeWhile_append_dropWhile.symm,
    fun c hc => hf.space c (List.mem_takeWhile_imp hc)⟩

lemma skipWhitespace_map (h : ∀ c ∈ (skipWhitespace text).head?, f c = c) :
    skipWhitespace (text.map f) = (skipWhitespace text).map f := by
  induction text with
  | nil => rfl
  | cons c text ih =>
    by_cases hc : isWhitespace c = true
    · have hstep : ∀ t : PyStr, skipWhitespace (c :: t) = skipWhitespace t :=
        fun t => List.dropWhile_cons_of_pos hc
      rw [List.map_cons, hf.space c hc, hstep, hstep]
      rw [hstep] at h
      exact ih h
    · have hstep : ∀ t : PyStr, skipWhitespace (c :: t) = c :: t :=
        fun t => List.dropWhile_cons_of_neg hc
      rw [hstep] at h ⊢
      have hkept : f c = c := h c rfl
      rw [List.map_cons, hkept, hstep]

/-- White space before a character that is not translated. -/
lemma skipWhitespace_map_cons {c : ℕ} (h : skipWhitespace text = c :: rest) (hc : f c = c) :
    skipWhitespace (text.map f) = c :: rest.map f ∧ Keeps f text rest := by
  have hhead : ∀ d ∈ (skipWhitespace text).head?, f d = d := by
    intro d hd
    rw [h] at hd
    cases hd
    exact hc
  refine ⟨?_, (keeps_skipWhitespace hf text).trans ?_⟩
  · rw [skipWhitespace_map hf hhead, h, List.map_cons, hc]
  · rw [h]
    exact Keeps.cons hc .refl

/-! ## Strings -/

lemma hexValue_keeps {c n : ℕ} (h : hexValue c = some n) : f c = c := by
  unfold hexValue at h
  split_ifs at h
  · exact hf.ascii c (by omega) (by omega)
  · exact hf.ascii c (by omega) (by omega)
  · exact hf.ascii c (by omega) (by omega)

lemma hexUnit_keeps {a b c d unit : ℕ} (h : hexUnit a b c d = some unit) :
    f a = a ∧ f b = b ∧ f c = c ∧ f d = d := by
  obtain ⟨n1, h1, h⟩ := Option.bind_eq_some_iff.mp h
  obtain ⟨n2, h2, h⟩ := Option.bind_eq_some_iff.mp h
  obtain ⟨n3, h3, h⟩ := Option.bind_eq_some_iff.mp h
  obtain ⟨n4, h4, -⟩ := Option.bind_eq_some_iff.mp h
  exact ⟨hexValue_keeps hf h1, hexValue_keeps hf h2, hexValue_keeps hf h3, hexValue_keeps hf h4⟩

lemma unescape_keeps {letter c : ℕ} (h : unescape letter = some c) : f letter = letter := by
  have hletters : ∀ p ∈ shortEscapes, 32 ≤ p.2 ∧ p.2 < 127 := by decide
  unfold unescape at h
  split_ifs at h with h47
  · exact hf.ascii letter (by omega) (by omega)
  · obtain ⟨p, hp, -⟩ := Option.map_eq_some_iff.mp h
    have hfound := List.find?_some hp
    rw [decide_eq_true_eq] at hfound
    have hbound := hletters p (List.mem_of_find?_eq_some hp)
    exact hf.ascii letter (by omega) (by omega)

lemma scanUnits_lockstep : Lockstep f scanUnits := by
  intro text units rest units' rest' h h'
  fun_induction scanUnits text generalizing units rest units' rest' with
  | case1 => cases h
  | case2 text =>
    cases h
    rw [List.map_cons, hf.ascii 34 (by decide) (by decide), scanUnits_quote] at h'
    cases h'
    exact ⟨rfl, Keeps.cons (hf.ascii 34 (by decide) (by decide)) .refl⟩
  | case3 => cases h
  | case4 a b c d text unit hunit _ ih =>
    obtain ⟨ha, hb, hc, hd⟩ := hexUnit_keeps hf hunit
    have h92 : f 92 = 92 := hf.ascii 92 (by decide) (by decide)
    have h117 : f 117 = 117 := hf.ascii 117 (by decide) (by decide)
    simp only [List.map_cons, ha, hb, hc, hd, h92, h117] at h'
    rw [scanUnits_hex hunit] at h'
    obtain ⟨read, hread, h⟩ := Except.bind_eq_ok.mp h
    obtain ⟨read', hread', h'⟩ := Except.bind_eq_ok.mp h'
    cases h
    cases h'
    obtain ⟨hrest, hkeeps⟩ := ih hread hread'
    exact ⟨hrest, .cons h92 (.cons h117 (.cons ha (.cons hb (.cons hc (.cons hd hkeeps)))))⟩
  | case5 => cases h
  | case6 => cases h
  | case7 letter text hletter c hc _ ih =>
    have h92 : f 92 = 92 := hf.ascii 92 (by decide) (by decide)
    have hkept := unescape_keeps hf hc
    simp only [List.map_cons, hkept, h92] at h'
    rw [scanUnits_letter hletter hc] at h'
    obtain ⟨read, hread, h⟩ := Except.bind_eq_ok.mp h
    obtain ⟨read', hread', h'⟩ := Except.bind_eq_ok.mp h'
    cases h
    cases h'
    obtain ⟨hrest, hkeeps⟩ := ih hread hread'
    exact ⟨hrest, .cons h92 (.cons hkept hkeeps)⟩
  | case8 => cases h
  | case9 => cases h
  | case10 c text h34 h92 hc ih =>
    rw [List.map_cons] at h'
    rcases hf.feed c with hkept | hfeed
    · rw [hkept, scanUnits_char h34 h92 (by omega)] at h'
      obtain ⟨read, hread, h⟩ := Except.bind_eq_ok.mp h
      obtain ⟨read', hread', h'⟩ := Except.bind_eq_ok.mp h'
      cases h
      cases h'
      obtain ⟨hrest, hkeeps⟩ := ih hread hread'
      exact ⟨hrest, .cons hkept hkeeps⟩
    · -- a line feed inside a string is refused
      rw [hfeed, scanUnits_control (by decide)] at h'
      cases h'

lemma scanString_lockstep : Lockstep f scanString := by
  intro text s rest s' rest' h h'
  obtain ⟨read, hread, h⟩ := Except.bind_eq_ok.mp h
  obtain ⟨read', hread', h'⟩ := Except.bind_eq_ok.mp h'
  cases h
  cases h'
  exact scanUnits_lockstep hf hread hread'

/-! ## Words and numbers -/

lemma after_map {word : PyStr} (hword : ∀ c ∈ word, 32 ≤ c ∧ c < 127) :
    after word (text.map f) = (after word text).map (List.map f) := by
  induction word generalizing text with
  | nil => rfl
  | cons c word ih =>
    obtain ⟨hc, hword⟩ := List.forall_mem_cons.mp hword
    cases text with
    | nil => rfl
    | cons d text =>
      have hiff : c = f d ↔ c = d := by
        rw [eq_comm, hf.eq_iff hc.1 hc.2, eq_comm]
      rw [List.map_cons, after, after]
      simp only [hiff]
      split_ifs
      · exact ih hword
      · rfl

lemma span_isDecimal_map (text : PyStr) :
    (text.map f).takeWhile isDecimal = text.takeWhile isDecimal ∧
      (text.map f).dropWhile isDecimal = (text.dropWhile isDecimal).map f := by
  have hcomp : isDecimal ∘ f = isDecimal := funext hf.isDecimal
  rw [List.takeWhile_map, List.dropWhile_map, hcomp]
  refine ⟨(List.map_congr_left fun c hc => ?_).trans (List.map_id _), rfl⟩
  have hdigit := List.mem_takeWhile_imp hc
  simp only [isDecimal, Bool.and_eq_true, decide_eq_true_eq] at hdigit
  exact hf.ascii c (by omega) (by omega)

omit hf in
/-- A part of a number, which is cut off the translated text as it is off the text. -/
def Cuts (f : ℕ → ℕ) (cut : PyStr → PyStr × PyStr) : Prop :=
  ∀ text, cut (text.map f) = ((cut text).1, (cut text).2.map f) ∧ Keeps f text (cut text).2

lemma keeps_dropWhile_isDecimal (text : PyStr) : Keeps f text (text.dropWhile isDecimal) := by
  refine ⟨text.takeWhile isDecimal, List.takeWhile_append_dropWhile.symm, fun c hc => ?_⟩
  have hdigit := List.mem_takeWhile_imp hc
  simp only [isDecimal, Bool.and_eq_true, decide_eq_true_eq] at hdigit
  exact hf.ascii c (by omega) (by omega)

lemma scanSign_cuts : Cuts f scanSign := by
  intro text
  cases text with
  | nil => exact ⟨rfl, .refl⟩
  | cons c rest =>
    unfold scanSign
    simp only [List.map_cons, hf.eq_iff (d := 45) (by decide) (by decide)]
    split_ifs with hc
    · have hkept : f c = c := hf.ascii c (by omega) (by omega)
      exact ⟨by rw [hkept], .cons hkept .refl⟩
    · exact ⟨rfl, .refl⟩

lemma scanExponentSign_cuts : Cuts f scanExponentSign := by
  intro text
  cases text with
  | nil => exact ⟨rfl, .refl⟩
  | cons c rest =>
    unfold scanExponentSign
    simp only [List.map_cons, hf.eq_iff (d := 45) (by decide) (by decide),
      hf.eq_iff (d := 43) (by decide) (by decide)]
    split_ifs with hc
    · have hkept : f c = c := hf.ascii c (by omega) (by omega)
      exact ⟨by rw [hkept], .cons hkept .refl⟩
    · exact ⟨rfl, .refl⟩

lemma scanFraction_cuts : Cuts f scanFraction := by
  intro text
  cases text with
  | nil => exact ⟨rfl, .refl⟩
  | cons c rest =>
    obtain ⟨htake, hdrop⟩ := span_isDecimal_map hf rest
    unfold scanFraction
    simp only [List.map_cons, hf.eq_iff (d := 46) (by decide) (by decide), htake, hdrop]
    split_ifs with hc
    · have hkept : f c = c := hf.ascii c (by omega) (by omega)
      exact ⟨by rw [hkept], .cons hkept (keeps_dropWhile_isDecimal hf rest)⟩
    · exact ⟨rfl, .refl⟩

lemma scanExponent_cuts : Cuts f scanExponent := by
  intro text
  cases text with
  | nil => exact ⟨rfl, .refl⟩
  | cons c rest =>
    obtain ⟨hsign, hkeeps⟩ := scanExponentSign_cuts hf rest
    obtain ⟨htake, hdrop⟩ := span_isDecimal_map hf (scanExponentSign rest).2
    unfold scanExponent
    simp only [List.map_cons, hf.eq_iff (d := 101) (by decide) (by decide),
      hf.eq_iff (d := 69) (by decide) (by decide), hsign, htake, hdrop]
    split_ifs with hc
    · have hkept : f c = c := hf.ascii c (by omega) (by omega)
      exact ⟨by rw [hkept], .cons hkept (hkeeps.trans (keeps_dropWhile_isDecimal hf _))⟩
    · exact ⟨rfl, .refl⟩

lemma scanDigits_map (text : PyStr) :
    scanDigits (text.map f) = (scanDigits text).map fun whole => (whole.1, whole.2.map f) := by
  cases text with
  | nil => rfl
  | cons c rest =>
    obtain ⟨htake, hdrop⟩ := span_isDecimal_map hf (c :: rest)
    unfold scanDigits
    simp only [List.map_cons] at htake hdrop ⊢
    simp only [htake, hdrop, hf.eq_iff (d := 48) (by decide) (by decide), hf.isDecimal]
    split_ifs with h48
    · rw [hf.ascii c (by omega) (by omega)]
      rfl
    · rfl
    · rfl

lemma scanDigits_keeps {whole : PyStr × PyStr} (h : scanDigits text = some whole) :
    Keeps f text whole.2 := by
  unfold scanDigits at h
  split at h
  · cases h
  · next c rest =>
    split_ifs at h with h48
    · cases h
      exact .cons (hf.ascii c (by omega) (by omega)) .refl
    · cases h
      exact keeps_dropWhile_isDecimal hf _

lemma scanNumber_map (text : PyStr) :
    scanNumber (text.map f) = (scanNumber text).map fun read => (read.1, read.2.map f) := by
  unfold scanNumber
  dsimp only
  rw [(scanSign_cuts hf text).1]
  dsimp only
  rw [scanDigits_map hf, Option.map_map, Option.map_map]
  refine congrArg (fun g => (scanDigits (scanSign text).2).map g) (funext fun whole => ?_)
  simp only [Function.comp_apply, (scanFraction_cuts hf _).1, (scanExponent_cuts hf _).1]

lemma scanNumber_keeps {n : Number} (h : scanNumber text = some (n, rest)) :
    Keeps f text rest := by
  obtain ⟨whole, hwhole, h⟩ := Option.map_eq_some_iff.mp h
  cases h
  exact (scanSign_cuts hf text).2.trans ((scanDigits_keeps hf hwhole).trans
    ((scanFraction_cuts hf _).2.trans (scanExponent_cuts hf _).2))

variable (lib) in
lemma scanScalar_lockstep : Lockstep f (scanScalar lib) := by
  intro text v rest v' rest' h h'
  have hascii : ∀ p ∈ literals, ∀ c ∈ p.1, 32 ≤ c ∧ c < 127 := by decide
  have hwords : ∀ words : List (PyStr × Json), (∀ p ∈ words, ∀ c ∈ p.1, 32 ≤ c ∧ c < 127) →
      (words.findSome? fun p => (after p.1 (text.map f)).map fun rest => (p.2, rest)) =
        (words.findSome? fun p => (after p.1 text).map fun rest => (p.2, rest)).map
          fun read => (read.1, read.2.map f) := by
    intro words hwords
    induction words with
    | nil => rfl
    | cons p words ih =>
      obtain ⟨hp, hwords⟩ := List.forall_mem_cons.mp hwords
      rw [List.findSome?_cons, List.findSome?_cons, after_map hf hp]
      cases hafter : after p.1 text with
      | none => exact ih hwords
      | some rest => rfl
  unfold scanScalar at h h'
  rw [hwords literals hascii, scanNumber_map hf] at h'
  cases hfound : literals.findSome? fun p => (after p.1 text).map fun rest => (p.2, rest) with
  | some found =>
    rw [hfound] at h h'
    cases h
    cases h'
    obtain ⟨p, hp, hafter⟩ := List.exists_of_findSome?_eq_some hfound
    obtain ⟨left, hleft, heq⟩ := Option.map_eq_some_iff.mp hafter
    cases heq
    exact ⟨rfl, p.1, after_eq hleft, fun c hc =>
      hf.ascii c (hascii p hp c hc).1 (hascii p hp c hc).2⟩
  | none =>
    rw [hfound] at h h'
    cases hnumber : scanNumber text with
    | none =>
      rw [hnumber] at h
      cases h
    | some read =>
      obtain ⟨n, left⟩ := read
      rw [hnumber] at h h'
      obtain ⟨x, hx, h⟩ := Except.bind_eq_ok.mp h
      obtain ⟨x', hx', h'⟩ := Except.bind_eq_ok.mp h'
      cases h
      cases h'
      exact ⟨rfl, scanNumber_keeps hf hnumber⟩

omit hf in
/-- What has been read of a text starts with its first character. -/
lemma Keeps.head (h : Keeps f text rest) (hshort : rest.length < text.length) :
    ∃ c left, text = c :: left ∧ f c = c := by
  obtain ⟨used, rfl, hused⟩ := h
  cases used with
  | nil => simp at hshort
  | cons c used => exact ⟨c, used ++ rest, rfl, hused c List.mem_cons_self⟩

variable (lib) in
lemma scanScalar_starts : Starts f (scanScalar lib) := by
  intro text v rest h
  have hshort := scanScalar_shorter h
  have hascii : ∀ p ∈ literals, ∀ c ∈ p.1, 32 ≤ c ∧ c < 127 := by decide
  unfold scanScalar at h
  split at h
  · next found hfound =>
    cases h
    obtain ⟨p, hp, hafter⟩ := List.exists_of_findSome?_eq_some hfound
    obtain ⟨left, hleft, heq⟩ := Option.map_eq_some_iff.mp hafter
    cases heq
    have hkeeps : Keeps f text rest := ⟨p.1, after_eq hleft, fun c hc =>
      hf.ascii c (hascii p hp c hc).1 (hascii p hp c hc).2⟩
    exact hkeeps.head hshort
  · split at h
    · next n left hnumber =>
      obtain ⟨x, -, h⟩ := Except.bind_eq_ok.mp h
      cases h
      exact (scanNumber_keeps hf hnumber).head hshort
    · cases h

/-! ## Containers -/

section Containers

variable {value : PyStr → Except PyError (Json × PyStr)} (hvalue : Lockstep f value)
  (hstart : Starts f value)

include hvalue hstart

omit hf hvalue in
lemma scanItems_starts (turns : ℕ) : Starts f (scanItems value turns) := by
  intro text items rest h
  cases turns with
  | zero => cases h
  | succ turns =>
    obtain ⟨⟨v, left⟩, hread, -⟩ := Except.bind_eq_ok.mp h
    exact hstart hread

lemma scanItems_lockstep (turns : ℕ) : Lockstep f (scanItems value turns) := by
  induction turns with
  | zero =>
    intro text items rest items' rest' h
    cases h
  | succ turns ih =>
    intro text items rest items' rest' h h'
    obtain ⟨⟨v, left⟩, hread, h⟩ := Except.bind_eq_ok.mp h
    obtain ⟨⟨v', left'⟩, hread', h'⟩ := Except.bind_eq_ok.mp h'
    obtain ⟨rfl, hkeeps⟩ := hvalue hread hread'
    dsimp only at h h'
    cases hskip : skipWhitespace left with
    | nil =>
      rw [hskip] at h
      cases h
    | cons c after =>
      rw [hskip] at h
      dsimp only at h
      split_ifs at h with h93 h44
      · cases h
        obtain ⟨hmap, hleft⟩ := skipWhitespace_map_cons hf hskip (hf.ascii c (by omega) (by omega))
        rw [hmap] at h'
        dsimp only at h'
        rw [if_pos h93] at h'
        cases h'
        exact ⟨rfl, hkeeps.trans hleft⟩
      · obtain ⟨hmap, hleft⟩ := skipWhitespace_map_cons hf hskip (hf.ascii c (by omega) (by omega))
        rw [hmap] at h'
        dsimp only at h'
        rw [if_neg h93, if_pos h44] at h'
        obtain ⟨⟨items, rest⟩, hitems, h⟩ := Except.bind_eq_ok.mp h
        cases h
        obtain ⟨d, next, hnext, hd⟩ := scanItems_starts hstart turns hitems
        rw [skipWhitespace_map hf (by simp [hnext, hd])] at h'
        obtain ⟨⟨items', rest'⟩, hitems', h'⟩ := Except.bind_eq_ok.mp h'
        cases h'
        obtain ⟨hrest, hkeeps'⟩ := ih hitems hitems'
        exact ⟨hrest, hkeeps.trans (hleft.trans ((keeps_skipWhitespace hf after).trans hkeeps'))⟩

lemma scanArray_lockstep : Lockstep f (scanArray value) := by
  intro text v rest v' rest' h h'
  unfold scanArray at h h'
  cases hskip : skipWhitespace text with
  | nil =>
    rw [hskip] at h
    cases h
  | cons c left =>
    rw [hskip] at h
    dsimp only at h
    split_ifs at h with h93
    · cases h
      obtain ⟨hmap, hleft⟩ := skipWhitespace_map_cons hf hskip (hf.ascii c (by omega) (by omega))
      rw [hmap] at h'
      dsimp only at h'
      rw [if_pos h93] at h'
      cases h'
      exact ⟨rfl, hleft⟩
    · obtain ⟨⟨items, rest⟩, hitems, h⟩ := Except.bind_eq_ok.mp h
      cases h
      obtain ⟨d, next, hnext, hd⟩ := scanItems_starts hstart _ hitems
      cases hnext
      rw [skipWhitespace_map hf (by simp [hskip, hd]), hskip, List.map_cons, hd] at h'
      dsimp only at h'
      rw [if_neg h93, List.length_map] at h'
      obtain ⟨⟨items', rest'⟩, hitems', h'⟩ := Except.bind_eq_ok.mp h'
      cases h'
      have hcons : (c :: left).map f = c :: left.map f := by rw [List.map_cons, hd]
      rw [← hcons] at hitems'
      obtain ⟨hrest, hkeeps⟩ := scanItems_lockstep hf hvalue hstart _ hitems hitems'
      exact ⟨hrest, (hskip ▸ keeps_skipWhitespace hf text).trans hkeeps⟩

omit hvalue hstart in
lemma scanField_starts : Starts f (scanField value) := by
  intro text field rest h
  unfold scanField at h
  split at h
  · cases h
  · next c left =>
    split_ifs at h with h34
    exact ⟨c, left, rfl, hf.ascii c (by omega) (by omega)⟩

lemma scanField_lockstep : Lockstep f (scanField value) := by
  intro text field rest field' rest' h h'
  obtain ⟨c, text, rfl, hc⟩ := scanField_starts hf h
  unfold scanField at h h'
  rw [List.map_cons, hc] at h'
  dsimp only at h h'
  split_ifs at h h' with h34
  obtain ⟨⟨key, left⟩, hkey, h⟩ := Except.bind_eq_ok.mp h
  obtain ⟨⟨key', left'⟩, hkey', h'⟩ := Except.bind_eq_ok.mp h'
  obtain ⟨rfl, hkeeps⟩ := scanString_lockstep hf hkey hkey'
  dsimp only at h h'
  cases hskip : skipWhitespace left with
  | nil =>
    rw [hskip] at h
    cases h
  | cons d after =>
    rw [hskip] at h
    dsimp only at h
    split_ifs at h with h58
    obtain ⟨hmap, hleft⟩ := skipWhitespace_map_cons hf hskip (hf.ascii d (by omega) (by omega))
    rw [hmap] at h'
    dsimp only at h'
    rw [if_pos h58] at h'
    obtain ⟨⟨v, rest⟩, hread, h⟩ := Except.bind_eq_ok.mp h
    cases h
    obtain ⟨e, next, hnext, he⟩ := hstart hread
    rw [skipWhitespace_map hf (by simp [hnext, he])] at h'
    obtain ⟨⟨v', rest'⟩, hread', h'⟩ := Except.bind_eq_ok.mp h'
    cases h'
    obtain ⟨hrest, hkeeps'⟩ := hvalue hread hread'
    exact ⟨hrest, .cons hc (hkeeps.trans (hleft.trans
      ((keeps_skipWhitespace hf after).trans hkeeps')))⟩

omit hvalue hstart in
lemma scanFields_starts (turns : ℕ) : Starts f (scanFields value turns) := by
  intro text fields rest h
  cases turns with
  | zero => cases h
  | succ turns =>
    obtain ⟨⟨field, left⟩, hread, -⟩ := Except.bind_eq_ok.mp h
    exact scanField_starts hf hread

lemma scanFields_lockstep (turns : ℕ) : Lockstep f (scanFields value turns) := by
  induction turns with
  | zero =>
    intro text fields rest fields' rest' h
    cases h
  | succ turns ih =>
    intro text fields rest fields' rest' h h'
    obtain ⟨⟨field, left⟩, hread, h⟩ := Except.bind_eq_ok.mp h
    obtain ⟨⟨field', left'⟩, hread', h'⟩ := Except.bind_eq_ok.mp h'
    obtain ⟨rfl, hkeeps⟩ := scanField_lockstep hf hvalue hstart hread hread'
    dsimp only at h h'
    cases hskip : skipWhitespace left with
    | nil =>
      rw [hskip] at h
      cases h
    | cons c after =>
      rw [hskip] at h
      dsimp only at h
      split_ifs at h with h125 h44
      · cases h
        obtain ⟨hmap, hleft⟩ := skipWhitespace_map_cons hf hskip (hf.ascii c (by omega) (by omega))
        rw [hmap] at h'
        dsimp only at h'
        rw [if_pos h125] at h'
        cases h'
        exact ⟨rfl, hkeeps.trans hleft⟩
      · obtain ⟨hmap, hleft⟩ := skipWhitespace_map_cons hf hskip (hf.ascii c (by omega) (by omega))
        rw [hmap] at h'
        dsimp only at h'
        rw [if_neg h125, if_pos h44] at h'
        obtain ⟨⟨fields, rest⟩, hfields, h⟩ := Except.bind_eq_ok.mp h
        cases h
        obtain ⟨d, next, hnext, hd⟩ := scanFields_starts hf turns hfields
        rw [skipWhitespace_map hf (by simp [hnext, hd])] at h'
        obtain ⟨⟨fields', rest'⟩, hfields', h'⟩ := Except.bind_eq_ok.mp h'
        cases h'
        obtain ⟨hrest, hkeeps'⟩ := ih hfields hfields'
        exact ⟨hrest, hkeeps.trans (hleft.trans ((keeps_skipWhitespace hf after).trans hkeeps'))⟩

lemma scanObject_lockstep : Lockstep f (scanObject value) := by
  intro text v rest v' rest' h h'
  unfold scanObject at h h'
  cases hskip : skipWhitespace text with
  | nil =>
    rw [hskip] at h
    cases h
  | cons c left =>
    rw [hskip] at h
    dsimp only at h
    split_ifs at h with h125
    · cases h
      obtain ⟨hmap, hleft⟩ := skipWhitespace_map_cons hf hskip (hf.ascii c (by omega) (by omega))
      rw [hmap] at h'
      dsimp only at h'
      rw [if_pos h125] at h'
      cases h'
      exact ⟨rfl, hleft⟩
    · obtain ⟨⟨fields, rest⟩, hfields, h⟩ := Except.bind_eq_ok.mp h
      cases h
      obtain ⟨d, next, hnext, hd⟩ := scanFields_starts hf _ hfields
      cases hnext
      rw [skipWhitespace_map hf (by simp [hskip, hd]), hskip, List.map_cons, hd] at h'
      dsimp only at h'
      rw [if_neg h125, List.length_map] at h'
      obtain ⟨⟨fields', rest'⟩, hfields', h'⟩ := Except.bind_eq_ok.mp h'
      cases h'
      have hcons : (c :: left).map f = c :: left.map f := by rw [List.map_cons, hd]
      rw [← hcons] at hfields'
      obtain ⟨hrest, hkeeps⟩ := scanFields_lockstep hf hvalue hstart _ hfields hfields'
      exact ⟨hrest, (hskip ▸ keeps_skipWhitespace hf text).trans hkeeps⟩

/-! ## Values -/

omit hvalue hstart in
lemma scanOnce_starts {enter : Except PyError Unit} : Starts f (scanOnce lib value enter) := by
  intro text v rest h
  unfold scanOnce at h
  split at h
  · cases h
  · next c left =>
    split_ifs at h with h34 h123 h91
    · exact ⟨c, left, rfl, hf.ascii c (by omega) (by omega)⟩
    · exact ⟨c, left, rfl, hf.ascii c (by omega) (by omega)⟩
    · exact ⟨c, left, rfl, hf.ascii c (by omega) (by omega)⟩
    · exact scanScalar_starts lib hf h

lemma scanOnce_lockstep {enter : Except PyError Unit} :
    Lockstep f (scanOnce lib value enter) := by
  intro text v rest v' rest' h h'
  obtain ⟨c, text, rfl, hc⟩ := scanOnce_starts hf h
  have hscalar := @scanScalar_lockstep lib f hf (c :: text) v rest v' rest'
  rw [List.map_cons, hc] at hscalar h'
  unfold scanOnce at h h'
  dsimp only at h h'
  split_ifs at h h' with h34 h123 h91
  · obtain ⟨read, hread, h⟩ := Except.bind_eq_ok.mp h
    obtain ⟨read', hread', h'⟩ := Except.bind_eq_ok.mp h'
    cases h
    cases h'
    obtain ⟨hrest, hkeeps⟩ := scanString_lockstep hf hread hread'
    exact ⟨hrest, .cons hc hkeeps⟩
  · obtain ⟨-, -, h⟩ := Except.bind_eq_ok.mp h
    obtain ⟨-, -, h'⟩ := Except.bind_eq_ok.mp h'
    obtain ⟨hrest, hkeeps⟩ := scanObject_lockstep hf hvalue hstart h h'
    exact ⟨hrest, .cons hc hkeeps⟩
  · obtain ⟨-, -, h⟩ := Except.bind_eq_ok.mp h
    obtain ⟨-, -, h'⟩ := Except.bind_eq_ok.mp h'
    obtain ⟨hrest, hkeeps⟩ := scanArray_lockstep hf hvalue hstart h h'
    exact ⟨hrest, .cons hc hkeeps⟩
  · exact hscalar h h'

end Containers

lemma scanValue_lockstep (depth : ℕ) :
    Lockstep f (scanValue lib depth) ∧ Starts f (scanValue lib depth) := by
  induction depth with
  | zero =>
    refine ⟨scanOnce_lockstep hf ?_ ?_, scanOnce_starts hf⟩
    · intro text v rest v' rest' h
      cases h
    · intro text v rest h
      cases h
  | succ depth ih => exact ⟨scanOnce_lockstep hf ih.1 ih.2, scanOnce_starts hf⟩

/-- **A text and its translation are both JSON only if they are the same.** -/
theorem loads_lockstep {v v' : Json} (h : loads lib text = .ok v)
    (h' : loads lib (text.map f) = .ok v') : ∀ c ∈ text, f c = c := by
  unfold loads at h h'
  split_ifs at h h'
  obtain ⟨⟨x, rest⟩, hread, h⟩ := Except.bind_eq_ok.mp h
  obtain ⟨c, left, hleft, hc⟩ := (scanValue_lockstep hf _).2 hread
  rw [skipWhitespace_map hf (by simp [hleft, hc])] at h'
  obtain ⟨⟨x', rest'⟩, hread', h'⟩ := Except.bind_eq_ok.mp h'
  dsimp only at h
  split_ifs at h with hend
  have hall := (keeps_skipWhitespace hf text).trans
    (((scanValue_lockstep hf _).1 hread hread').2.trans (hend ▸ keeps_skipWhitespace hf rest))
  obtain ⟨used, htext, hused⟩ := hall
  rw [List.append_nil] at htext
  exact htext ▸ hused

end Readers

end PyJson

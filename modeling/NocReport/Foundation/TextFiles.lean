import NocReport.Foundation.Python

set_option relaxedAutoImplicit false
set_option autoImplicit false

/-!
# Text files

The bytes of a file as a text: `raw.decode("utf-8")`, which keeps the text as it is, and
`path.read_text(encoding="utf-8")`, which turns the line ends into line feeds.

## Main definitions

* `TextFile.decodeUtf8` — the decoder, and `TextFile.UnicodeDecodeError`, what it raises.
* `TextFile.universalNewlines` — the translation of the line ends.
* `TextFile.readText` — `Path.read_text`.

## Main results

* `TextFile.decodeUtf8_reason` — what can be wrong with bytes.
* `TextFile.universalNewlines_cons`, `TextFile.universalNewlines_return` — the translation,
  character by character.
* `TextFile.span_universalNewlines` — it keeps what comes before a line end.
* `TextFile.universalNewlines_append` — it starts afresh after a character that stays.
-/

namespace TextFile

/-! ## Decoding -/

/-- `UnicodeDecodeError`: the bytes from `start` on and before `stop`, and what is wrong. -/
structure UnicodeDecodeError where
  start : ℕ
  stop : ℕ
  reason : PyStr
  deriving DecidableEq, Repr

/-- `str(exc)` of the error in decoding `raw`. -/
def UnicodeDecodeError.message (e : UnicodeDecodeError) (raw : List UInt8) : PyStr :=
  let digit := fun n : ℕ => if n < 10 then 48 + n else 87 + n
  let byte := (raw.getD e.start 0).toNat
  py "'utf-8' codec can't decode " ++
    (if e.stop = e.start + 1 then
      py "byte 0x" ++ [digit (byte / 16), digit (byte % 16)] ++ py " in position " ++
        .ofNat e.start
    else py "bytes in position " ++ .ofNat e.start ++ py "-" ++ .ofNat (e.stop - 1)) ++
    py ": " ++ e.reason

/-- A character of which bytes are missing: where it starts, its bits so far, how many bytes are
missing and the bounds of the next one. -/
structure Partial where
  start : ℕ
  value : ℕ
  missing : ℕ
  low : ℕ
  high : ℕ

/-- A byte that starts a character of several bytes. The bounds of the second byte leave out what
could be written shorter, the surrogates and what is beyond Unicode. -/
def leadByte (position b : ℕ) : Option Partial :=
  if b < 0xC2 then none
  else if b < 0xE0 then some ⟨position, b - 0xC0, 1, 0x80, 0xBF⟩
  else if b < 0xF0 then
    some ⟨position, b - 0xE0, 2, if b = 0xE0 then 0xA0 else 0x80, if b = 0xED then 0x9F else 0xBF⟩
  else if b < 0xF5 then
    some ⟨position, b - 0xF0, 3, if b = 0xF0 then 0x90 else 0x80, if b = 0xF4 then 0x8F else 0xBF⟩
  else none

/-- The text of the bytes from `position` on, after the bytes of an incomplete character. -/
def decodeFrom : Option Partial → ℕ → List UInt8 → Except UnicodeDecodeError PyStr
  | none, _, [] => return []
  | some p, position, [] => throw ⟨p.start, position, py "unexpected end of data"⟩
  | none, position, b :: bytes =>
    if b.toNat < 0x80 then return b.toNat :: (← decodeFrom none (position + 1) bytes)
    else match leadByte position b.toNat with
      | none => throw ⟨position, position + 1, py "invalid start byte"⟩
      | some p => decodeFrom (some p) (position + 1) bytes
  | some p, position, b :: bytes =>
    if p.low ≤ b.toNat ∧ b.toNat ≤ p.high then
      let value := p.value * 64 + (b.toNat - 0x80)
      if p.missing ≤ 1 then return value :: (← decodeFrom none (position + 1) bytes)
      else decodeFrom (some ⟨p.start, value, p.missing - 1, 0x80, 0xBF⟩) (position + 1) bytes
    else throw ⟨p.start, position, py "invalid continuation byte"⟩

/-- `raw.decode("utf-8")`. -/
def decodeUtf8 (raw : List UInt8) : Except UnicodeDecodeError PyStr := decodeFrom none 0 raw

/-- What can be wrong with bytes. -/
def reasons : List PyStr :=
  [py "invalid start byte", py "invalid continuation byte", py "unexpected end of data"]

lemma decodeFrom_reason {p : Option Partial} {position : ℕ} {raw : List UInt8}
    {e : UnicodeDecodeError} (h : decodeFrom p position raw = .error e) : e.reason ∈ reasons := by
  induction raw generalizing p position with
  | nil =>
    cases p with
    | none => cases h
    | some p =>
      cases h
      simp [reasons]
  | cons b raw ih =>
    cases p with
    | none =>
      rw [decodeFrom] at h
      split at h
      · cases hrest : decodeFrom none (position + 1) raw with
        | error e' =>
          rw [hrest] at h
          cases h
          exact ih hrest
        | ok text =>
          rw [hrest] at h
          cases h
      · split at h
        · cases h
          simp [reasons]
        · exact ih h
    | some p =>
      rw [decodeFrom] at h
      split at h
      · dsimp only at h
        split at h
        · cases hrest : decodeFrom none (position + 1) raw with
          | error e' =>
            rw [hrest] at h
            cases h
            exact ih hrest
          | ok text =>
            rw [hrest] at h
            cases h
        · exact ih h
      · cases h
        simp [reasons]

/-- What is wrong with bytes that are not UTF-8. -/
lemma decodeUtf8_reason {raw : List UInt8} {e : UnicodeDecodeError}
    (h : decodeUtf8 raw = .error e) : e.reason ∈ reasons := decodeFrom_reason h

/-! ## Line ends -/

/-- The text with its line ends as line feeds; a line feed after a carriage return belongs to it. -/
def newlinesFrom : Bool → PyStr → PyStr
  | _, [] => []
  | afterReturn, c :: text =>
    if c = 13 then 10 :: newlinesFrom true text
    else if afterReturn = true ∧ c = 10 then newlinesFrom false text
    else c :: newlinesFrom false text

/-- What `newline=None` makes of a text. -/
def universalNewlines (text : PyStr) : PyStr := newlinesFrom false text

/-- `path.read_text(encoding="utf-8")` of a file with these bytes. -/
def readText (raw : List UInt8) : Except UnicodeDecodeError PyStr :=
  (decodeUtf8 raw).map universalNewlines

section Newlines

variable {text : PyStr} {c : ℕ}

@[simp] lemma universalNewlines_nil : universalNewlines [] = [] := rfl

lemma universalNewlines_cons (hc : c ≠ 13) :
    universalNewlines (c :: text) = c :: universalNewlines text := by
  simp [universalNewlines, newlinesFrom, hc]

lemma universalNewlines_return :
    universalNewlines (13 :: text) = 10 :: newlinesFrom true text := rfl

/-- The translation does not make a text longer. -/
lemma length_universalNewlines_le (text : PyStr) :
    (universalNewlines text).length ≤ text.length := by
  have hfrom : ∀ afterReturn, (newlinesFrom afterReturn text).length ≤ text.length := by
    induction text with
    | nil => exact fun _ => le_refl _
    | cons c text ih =>
      intro afterReturn
      have h1 := ih true
      have h2 := ih false
      rw [newlinesFrom]
      split
      · simp only [List.length_cons]
        omega
      · split
        · simp only [List.length_cons]
          omega
        · simp only [List.length_cons]
          omega
  exact hfrom false

/-- A text is empty, or starts with a character that stays, or with a carriage return, which
becomes a line feed. -/
lemma universalNewlines_cases (text : PyStr) :
    (text = [] ∧ universalNewlines text = []) ∨
    (∃ c rest, c ≠ 13 ∧ text = c :: rest ∧
      universalNewlines text = c :: universalNewlines rest) ∨
    ∃ rest rest', text = 13 :: rest ∧ universalNewlines text = 10 :: rest' := by
  cases text with
  | nil => exact .inl ⟨rfl, rfl⟩
  | cons c rest =>
    by_cases hc : c = 13
    · subst hc
      exact .inr (.inr ⟨rest, _, rfl, universalNewlines_return⟩)
    · exact .inr (.inl ⟨c, rest, hc, rfl, universalNewlines_cons hc⟩)

/-- A character that is no line feed was there before the translation. -/
lemma of_universalNewlines_eq_cons {rest : PyStr} (h : universalNewlines text = c :: rest)
    (hc : c ≠ 10) : ∃ rest', text = c :: rest' ∧ rest = universalNewlines rest' := by
  obtain ⟨-, h'⟩ | ⟨d, rest', -, rfl, h'⟩ | ⟨rest', rest'', -, h'⟩ := universalNewlines_cases text
  · rw [h'] at h
    cases h
  · rw [h'] at h
    cases h
    exact ⟨rest', rfl, rfl⟩
  · rw [h'] at h
    cases h
    exact absurd rfl hc

/-- The translation keeps what comes before a line end. -/
lemma span_universalNewlines {p : ℕ → Bool} (h10 : p 10 = false) (h13 : p 13 = false)
    (text : PyStr) :
    (universalNewlines text).takeWhile p = text.takeWhile p ∧
      (universalNewlines text).dropWhile p = universalNewlines (text.dropWhile p) := by
  induction text with
  | nil => exact ⟨rfl, rfl⟩
  | cons c text ih =>
    by_cases hc : c = 13
    · subst hc
      rw [List.dropWhile_cons_of_neg (by simp [h13]), List.takeWhile_cons_of_neg (by simp [h13]),
        universalNewlines_return, List.dropWhile_cons_of_neg (by simp [h10]),
        List.takeWhile_cons_of_neg (by simp [h10])]
      exact ⟨rfl, rfl⟩
    · rw [universalNewlines_cons hc]
      by_cases hp : p c = true
      · rw [List.takeWhile_cons_of_pos hp, List.dropWhile_cons_of_pos hp,
          List.takeWhile_cons_of_pos hp, List.dropWhile_cons_of_pos hp, ih.1]
        exact ⟨rfl, ih.2⟩
      · rw [List.takeWhile_cons_of_neg hp, List.dropWhile_cons_of_neg hp,
          List.takeWhile_cons_of_neg hp, List.dropWhile_cons_of_neg hp, universalNewlines_cons hc]
        exact ⟨rfl, rfl⟩

/-- Where line feeds and carriage returns are skipped, the translation makes no difference. -/
lemma dropWhile_universalNewlines {p : ℕ → Bool} (h10 : p 10 = true) (h13 : p 13 = true)
    (text : PyStr) :
    (universalNewlines text).dropWhile p = universalNewlines (text.dropWhile p) := by
  have hfrom : ∀ afterReturn,
      (newlinesFrom afterReturn text).dropWhile p = universalNewlines (text.dropWhile p) := by
    induction text with
    | nil => exact fun _ => rfl
    | cons c text ih =>
      intro afterReturn
      rw [newlinesFrom]
      by_cases hc : c = 13
      · subst hc
        rw [if_pos rfl, List.dropWhile_cons_of_pos h10, List.dropWhile_cons_of_pos h13, ih]
      · rw [if_neg hc]
        by_cases hp : p c = true
        · rw [List.dropWhile_cons_of_pos hp]
          split
          · exact ih false
          · rw [List.dropWhile_cons_of_pos hp, ih]
        · have h : ¬ (afterReturn = true ∧ c = 10) := by
            rintro ⟨-, rfl⟩
            exact hp h10
          rw [if_neg h, List.dropWhile_cons_of_neg hp, List.dropWhile_cons_of_neg hp,
            universalNewlines_cons hc]
          rfl
  exact hfrom false

lemma mem_newlinesFrom {afterReturn : Bool}
    (hc : c ∈ newlinesFrom afterReturn text) : c = 10 ∨ c ≠ 13 ∧ c ∈ text := by
  induction text generalizing afterReturn with
  | nil => cases hc
  | cons d text ih =>
    have hlater : ∀ {b}, c ∈ newlinesFrom b text → c = 10 ∨ c ≠ 13 ∧ c ∈ d :: text :=
      fun hc => (ih hc).imp id fun h => ⟨h.1, List.mem_cons_of_mem _ h.2⟩
    rw [newlinesFrom] at hc
    split_ifs at hc with h13 h10
    · rcases List.mem_cons.mp hc with rfl | hc
      · exact .inl rfl
      · exact hlater hc
    · exact hlater hc
    · rcases List.mem_cons.mp hc with rfl | hc
      · exact .inr ⟨h13, List.mem_cons_self⟩
      · exact hlater hc

lemma mem_newlinesFrom_of_ne {afterReturn : Bool} (h10 : c ≠ 10)
    (h13 : c ≠ 13) (hc : c ∈ text) : c ∈ newlinesFrom afterReturn text := by
  induction text generalizing afterReturn with
  | nil => cases hc
  | cons d text ih =>
    rw [newlinesFrom]
    rcases List.mem_cons.mp hc with rfl | hc
    · rw [if_neg h13, if_neg fun h => h10 h.2]
      exact List.mem_cons_self
    · split_ifs
      · exact List.mem_cons_of_mem _ (ih hc)
      · exact ih hc
      · exact List.mem_cons_of_mem _ (ih hc)

/-- The translation of the line ends, before and after a character that is none. -/
lemma newlinesFrom_append {before after : PyStr} {afterReturn : Bool}
    (h : after.head? ≠ some 10) :
    newlinesFrom afterReturn (before ++ after) =
      newlinesFrom afterReturn before ++ universalNewlines after := by
  induction before generalizing afterReturn with
  | nil =>
    cases after with
    | nil => cases afterReturn <;> rfl
    | cons c after =>
      have hc : c ≠ 10 := fun heq => h (by rw [heq]; rfl)
      simp [newlinesFrom, universalNewlines, hc]
  | cons c before ih =>
    rw [List.cons_append, newlinesFrom, newlinesFrom]
    split_ifs
    · rw [ih, List.cons_append]
    · exact ih
    · rw [ih, List.cons_append]

/-- The translation starts afresh after a character that stays. -/
lemma universalNewlines_append {before after : PyStr} {last : ℕ} (h10 : last ≠ 10)
    (h13 : last ≠ 13) : universalNewlines (before ++ last :: after) =
      universalNewlines (before ++ [last]) ++ universalNewlines after := by
  have hstart : ∀ t : PyStr, universalNewlines (before ++ last :: t) =
      newlinesFrom false before ++ last :: universalNewlines t := by
    intro t
    rw [universalNewlines, newlinesFrom_append (by simp [h10]), universalNewlines_cons h13]
  rw [hstart, hstart, universalNewlines_nil, List.append_assoc, List.singleton_append]

end Newlines

end TextFile

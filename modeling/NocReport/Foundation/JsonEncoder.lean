import NocReport.Foundation.JsonNumbers

set_option relaxedAutoImplicit false
set_option autoImplicit false

/-!
# The texts of JSON values

What `json.dumps(v, ensure_ascii=False, separators=(",", ":"))` and `repr(v)` write. The text of a
float and the table of printable characters are parameters.

## Main definitions

* `PyJson.Lib` — the parameters, of reading and of writing.
* `PyJson.dumps` — `json.dumps`.
* `PyJson.repr` — `repr`.
* `Json.leaves`, `Json.depth` — the texts, numbers and words of a value, keys included, and how
  many containers are inside one another.

## Main results

* `Json.induct` — induction over values.
* `PyJson.forall_mem_dumps`, `PyJson.forall_mem_repr` — the characters that are written.
* `PyJson.mem_dumps_of_mem_leaves` — what is not ASCII is written as it is.
-/

/-! ## Values -/

namespace Json

/-- Induction over values: a container has what each of its parts has. -/
@[elab_as_elim]
theorem induct {P : Json → Prop} (null : P .null) (bool : ∀ b, P (.bool b))
    (int : ∀ i, P (.int i)) (float : ∀ f, P (.float f)) (str : ∀ s, P (.str s))
    (arr : ∀ xs, (∀ x ∈ xs, P x) → P (.arr xs))
    (obj : ∀ fields : List (PyStr × Json), (∀ p ∈ fields, P p.2) → P (.obj fields)) (v : Json) :
    P v :=
  @Json.rec P (fun xs => ∀ x ∈ xs, P x) (fun fields => ∀ p ∈ fields, P p.2) (fun p => P p.2)
    null bool int float str (fun xs => arr xs) (fun fields => obj fields)
    (List.forall_mem_nil _) (fun _ _ hx hxs => List.forall_mem_cons.mpr ⟨hx, hxs⟩)
    (List.forall_mem_nil _) (fun _ _ hp hps => List.forall_mem_cons.mpr ⟨hp, hps⟩)
    (fun _ _ hv => hv) v

mutual

/-- The texts, numbers and words of a value; the keys of objects are among the texts. -/
def leaves : Json → List Json
  | .arr xs => leavesItems xs
  | .obj fields => leavesFields fields
  | v => [v]

def leavesItems : List Json → List Json
  | [] => []
  | x :: xs => leaves x ++ leavesItems xs

def leavesFields : List (PyStr × Json) → List Json
  | [] => []
  | (k, v) :: fields => .str k :: leaves v ++ leavesFields fields

end

mutual

/-- How many containers are inside one another. -/
def depth : Json → ℕ
  | .arr xs => depthItems xs + 1
  | .obj fields => depthFields fields + 1
  | _ => 0

def depthItems : List Json → ℕ
  | [] => 0
  | x :: xs => max (depth x) (depthItems xs)

def depthFields : List (PyStr × Json) → ℕ
  | [] => 0
  | (_, v) :: fields => max (depth v) (depthFields fields)

end

lemma mem_leaves_arr {xs : List Json} {l : Json} :
    l ∈ leaves (.arr xs) ↔ ∃ x ∈ xs, l ∈ leaves x := by
  rw [leaves]
  induction xs with
  | nil => simp [leavesItems]
  | cons x xs ih => simp [leavesItems, ih]

lemma mem_leaves_obj {fields : List (PyStr × Json)} {l : Json} :
    l ∈ leaves (.obj fields) ↔ ∃ p ∈ fields, l = .str p.1 ∨ l ∈ leaves p.2 := by
  rw [leaves]
  induction fields with
  | nil => simp [leavesFields]
  | cons p fields ih =>
    obtain ⟨k, v⟩ := p
    simp [leavesFields, ih, or_assoc]

lemma depth_arr_le {xs : List Json} {d : ℕ} :
    depth (.arr xs) ≤ d + 1 ↔ ∀ x ∈ xs, depth x ≤ d := by
  have hitems : depthItems xs ≤ d ↔ ∀ x ∈ xs, depth x ≤ d := by
    induction xs with
    | nil => simp [depthItems]
    | cons x xs ih => simp [depthItems, ih]
  rw [← hitems, depth]
  omega

lemma depth_obj_le {fields : List (PyStr × Json)} {d : ℕ} :
    depth (.obj fields) ≤ d + 1 ↔ ∀ p ∈ fields, depth p.2 ≤ d := by
  have hfields : depthFields fields ≤ d ↔ ∀ p ∈ fields, depth p.2 ≤ d := by
    induction fields with
    | nil => simp [depthFields]
    | cons p fields ih =>
      obtain ⟨k, v⟩ := p
      simp [depthFields, ih]
  rw [← hfields, depth]
  omega

end Json

namespace PyJson

/-- The parts of the language library that read and write numbers and characters. -/
structure Lib where
  /-- `repr(x)` of a finite float -/
  floatRepr : ℚ → PyStr
  /-- it is a number with a fraction or an exponent -/
  floatRepr_number : ∀ q, ∃ n : Number, n.Valid ∧ (n.fraction ≠ [] ∨ n.exponent ≠ []) ∧
    floatRepr q = n.text
  /-- `float(text)` -/
  readFloat : PyStr → JsonFloat
  /-- `str.isprintable` of a character that is not ASCII -/
  isPrintable : ℕ → Bool
  /-- `sys.get_int_max_str_digits()` -/
  intDigits : ℕ
  /-- the number of containers inside one another that can be read -/
  maxDepth : ℕ

/-! ## Characters -/

/-- A hexadecimal digit. -/
def hexDigit (n : ℕ) : ℕ := if n < 10 then 48 + n else 87 + n

/-- The last hexadecimal digits of a number. -/
def hexText : ℕ → ℕ → PyStr
  | 0, _ => []
  | width + 1, n => hexText width (n / 16) ++ [hexDigit (n % 16)]

/-- The characters with a short escape, each with the character after the backslash. -/
def shortEscapes : List (ℕ × ℕ) :=
  [(34, 34), (92, 92), (10, 110), (13, 114), (9, 116), (12, 102), (8, 98)]

/-- A character inside quotation marks. -/
def escapeChar (c : ℕ) : PyStr :=
  match shortEscapes.lookup c with
  | some letter => [92, letter]
  | none => if c < 32 then py "\\u" ++ hexText 4 c else [c]

/-- A text in quotation marks. -/
def quoted (s : PyStr) : PyStr := 34 :: s.flatMap escapeChar ++ [34]

section Writing

variable (lib : Lib)

/-! ## `json.dumps` -/

/-- The text of a float. -/
def floatText : JsonFloat → PyStr
  | .finite q => lib.floatRepr q
  | .nan => py "NaN"
  | .posInf => py "Infinity"
  | .negInf => py "-Infinity"

mutual

/-- `json.dumps(v, ensure_ascii=False, separators=(",", ":"))`. -/
def dumps : Json → PyStr
  | .null => py "null"
  | .bool b => if b then py "true" else py "false"
  | .int i => .ofInt i
  | .float f => floatText lib f
  | .str s => quoted s
  | .arr [] => py "[]"
  | .arr (x :: xs) => 91 :: dumps x ++ dumpsItems xs
  | .obj [] => py "{}"
  | .obj ((k, v) :: fields) => 123 :: quoted k ++ 58 :: dumps v ++ dumpsFields fields

/-- The rest of an array after an element. -/
def dumpsItems : List Json → PyStr
  | [] => [93]
  | x :: xs => 44 :: dumps x ++ dumpsItems xs

/-- The rest of an object after a field. -/
def dumpsFields : List (PyStr × Json) → PyStr
  | [] => [125]
  | (k, v) :: fields => 44 :: quoted k ++ 58 :: dumps v ++ dumpsFields fields

end

/-! ## `repr` -/

/-- A character of the `repr` of a text, in these quotation marks. -/
def reprChar (quote c : ℕ) : PyStr :=
  if c = quote ∨ c = 92 then [92, c]
  else if c = 9 then py "\\t"
  else if c = 10 then py "\\n"
  else if c = 13 then py "\\r"
  else if c < 32 ∨ c = 127 then py "\\x" ++ hexText 2 c
  else if c < 127 ∨ lib.isPrintable c then [c]
  else if c < 0x100 then py "\\x" ++ hexText 2 c
  else if c < 0x10000 then py "\\u" ++ hexText 4 c
  else py "\\U" ++ hexText 8 c

/-- `repr` of a text. -/
def reprStr (s : PyStr) : PyStr :=
  let quote := if s.contains 39 && !s.contains 34 then 34 else 39
  quote :: s.flatMap (reprChar lib quote) ++ [quote]

/-- `repr` of a float. -/
def reprFloat : JsonFloat → PyStr
  | .finite q => lib.floatRepr q
  | .nan => py "nan"
  | .posInf => py "inf"
  | .negInf => py "-inf"

mutual

/-- `repr`. -/
def repr : Json → PyStr
  | .null => py "None"
  | .bool b => if b then py "True" else py "False"
  | .int i => .ofInt i
  | .float f => reprFloat lib f
  | .str s => reprStr lib s
  | .arr [] => py "[]"
  | .arr (x :: xs) => 91 :: repr x ++ reprItems xs
  | .obj [] => py "{}"
  | .obj ((k, v) :: fields) => 123 :: reprStr lib k ++ py ": " ++ repr v ++ reprFields fields

/-- The rest of a list after an element. -/
def reprItems : List Json → PyStr
  | [] => [93]
  | x :: xs => py ", " ++ repr x ++ reprItems xs

/-- The rest of a dictionary after an item. -/
def reprFields : List (PyStr × Json) → PyStr
  | [] => [125]
  | (k, v) :: fields => py ", " ++ reprStr lib k ++ py ": " ++ repr v ++ reprFields fields

end

end Writing

/-! ## The characters of containers -/

section Members

variable {lib : Lib} {c : ℕ} {xs : List Json} {fields : List (PyStr × Json)}

/-- The characters of an array are those of its elements, but for the punctuation. -/
lemma mem_dumps_arr (hc : c ∉ py "[,]") :
    c ∈ dumps lib (.arr xs) ↔ ∃ x ∈ xs, c ∈ dumps lib x := by
  obtain ⟨h1, h2, h3⟩ : c ≠ 91 ∧ c ≠ 44 ∧ c ≠ 93 := by simpa [py] using hc
  have hitems : ∀ ys, c ∈ dumpsItems lib ys ↔ ∃ y ∈ ys, c ∈ dumps lib y := by
    intro ys
    induction ys with
    | nil => simp [dumpsItems, h3]
    | cons y ys ih => simp [dumpsItems, h2, ih]
  cases xs with
  | nil => simp [dumps, py, h1, h3]
  | cons x xs => simp [dumps, h1, hitems]

/-- The characters of an object are those of its keys and values, but for the punctuation. -/
lemma mem_dumps_obj (hc : c ∉ py "\x7b,:\x7d") :
    c ∈ dumps lib (.obj fields) ↔ ∃ q ∈ fields, c ∈ quoted q.1 ∨ c ∈ dumps lib q.2 := by
  obtain ⟨h1, h2, h3, h4⟩ : c ≠ 123 ∧ c ≠ 44 ∧ c ≠ 58 ∧ c ≠ 125 := by simpa [py] using hc
  have hfields : ∀ rest, c ∈ dumpsFields lib rest ↔
      ∃ q ∈ rest, c ∈ quoted q.1 ∨ c ∈ dumps lib q.2 := by
    intro rest
    induction rest with
    | nil => simp [dumpsFields, h4]
    | cons q rest ih => simp [dumpsFields, h2, h3, ih, or_assoc]
  cases fields with
  | nil => simp [dumps, py, h1, h4]
  | cons q fields => simp [dumps, h1, h3, hfields, or_assoc]

/-- The characters of a list are those of its elements, but for the punctuation. -/
lemma mem_repr_arr (hc : c ∉ py "[, ]") :
    c ∈ repr lib (.arr xs) ↔ ∃ x ∈ xs, c ∈ repr lib x := by
  obtain ⟨h1, h2, h3, h4⟩ : c ≠ 91 ∧ c ≠ 44 ∧ c ≠ 32 ∧ c ≠ 93 := by simpa [py] using hc
  have hitems : ∀ ys, c ∈ reprItems lib ys ↔ ∃ y ∈ ys, c ∈ repr lib y := by
    intro ys
    induction ys with
    | nil => simp [reprItems, h4]
    | cons y ys ih => simp [reprItems, py, h2, h3, ih]
  cases xs with
  | nil => simp [repr, py, h1, h4]
  | cons x xs => simp [repr, h1, hitems]

/-- The characters of a dictionary are those of its keys and values, but for the punctuation. -/
lemma mem_repr_obj (hc : c ∉ py "\x7b, :\x7d") :
    c ∈ repr lib (.obj fields) ↔ ∃ q ∈ fields, c ∈ reprStr lib q.1 ∨ c ∈ repr lib q.2 := by
  obtain ⟨h1, h2, h3, h4, h5⟩ : c ≠ 123 ∧ c ≠ 44 ∧ c ≠ 32 ∧ c ≠ 58 ∧ c ≠ 125 := by
    simpa [py] using hc
  have hfields : ∀ rest, c ∈ reprFields lib rest ↔
      ∃ q ∈ rest, c ∈ reprStr lib q.1 ∨ c ∈ repr lib q.2 := by
    intro rest
    induction rest with
    | nil => simp [reprFields, h5]
    | cons q rest ih => simp [reprFields, py, h2, h3, h4, ih, or_assoc]
  cases fields with
  | nil => simp [repr, py, h1, h5]
  | cons q fields => simp [repr, py, h1, h3, h4, hfields, or_assoc]

end Members

/-! ## The characters that are written -/

section Characters

variable {lib : Lib} {p : ℕ → Prop}

/-- The characters of a number are printable ASCII. -/
lemma Number.Valid.ascii {n : Number} (h : n.Valid) : ∀ c ∈ n.text, 32 ≤ c ∧ c < 127 := by
  have hdigits : ∀ {ds}, IsDigits ds → ∀ c ∈ ds, 32 ≤ c ∧ c < 127 := by
    intro ds hds c hc
    have := hds.2 c hc
    simp only [isDecimal, Bool.and_eq_true, decide_eq_true_eq] at this
    omega
  intro c hc
  simp only [Number.text, List.mem_append, or_assoc] at hc
  rcases hc with hc | hc | hc | hc
  · rcases h.sign with hs | hs <;> rw [hs] at hc
    · cases hc
    · obtain rfl := List.mem_singleton.mp hc
      decide
  · exact hdigits h.digits c hc
  · rcases h.fraction with hf | ⟨ds, hds, hf⟩ <;> rw [hf] at hc
    · cases hc
    · rcases List.mem_cons.mp hc with rfl | hc
      · decide
      · exact hdigits hds c hc
  · rcases h.exponent with he | ⟨e, s, ds, hletter, hs, hds, he⟩ <;> rw [he] at hc
    · cases hc
    · simp only [List.mem_append, List.mem_cons] at hc
      rcases hc with (rfl | hc) | hc
      · rcases hletter with rfl | rfl <;> decide
      · rcases hs with rfl | rfl | rfl
        · cases hc
        · obtain rfl := List.mem_singleton.mp hc
          decide
        · obtain rfl := List.mem_singleton.mp hc
          decide
      · exact hdigits hds c hc

lemma hexText_ascii (width n : ℕ) : ∀ c ∈ hexText width n, 32 ≤ c ∧ c < 127 := by
  induction width generalizing n with
  | zero => exact fun c hc => absurd hc List.not_mem_nil
  | succ width ih =>
    intro c hc
    rcases List.mem_append.mp hc with hc | hc
    · exact ih (n / 16) c hc
    · obtain rfl := List.mem_singleton.mp hc
      unfold hexDigit
      split <;> omega

variable (hascii : ∀ c, 32 ≤ c → c < 127 → p c)

include hascii

lemma forall_of_ascii {t : PyStr} (h : ∀ c ∈ t, 32 ≤ c ∧ c < 127) : ∀ c ∈ t, p c :=
  fun c hc => hascii c (h c hc).1 (h c hc).2

lemma forall_mem_floatRepr (q : ℚ) : ∀ c ∈ lib.floatRepr q, p c := by
  obtain ⟨n, hn, -, h⟩ := lib.floatRepr_number q
  exact forall_of_ascii hascii (h ▸ hn.ascii)

lemma forall_mem_ofInt (i : ℤ) : ∀ c ∈ PyStr.ofInt i, p c :=
  forall_of_ascii hascii (intNumber_text i ▸ (intNumber_valid i).ascii)

lemma forall_mem_escapeChar {c : ℕ} (hc : 32 ≤ c → p c) : ∀ d ∈ escapeChar c, p d := by
  have hletters : ∀ letter, shortEscapes.lookup c = some letter → 32 ≤ letter ∧ letter < 127 := by
    intro letter hletter
    have hall : ∀ q ∈ shortEscapes, 32 ≤ q.2 ∧ q.2 < 127 := by decide
    obtain ⟨before, rest, hsplit, -⟩ := List.lookup_eq_some_iff.mp hletter
    exact hall (c, letter) (by simp [hsplit])
  intro d hd
  unfold escapeChar at hd
  split at hd
  · next letter hletter =>
    rcases List.mem_cons.mp hd with rfl | hd
    · exact hascii 92 (by decide) (by decide)
    · obtain rfl := List.mem_singleton.mp hd
      exact hascii d (hletters d hletter).1 (hletters d hletter).2
  · split at hd
    · rcases List.mem_append.mp hd with hd | hd
      · exact forall_of_ascii hascii (t := py "\\u") (by decide) d hd
      · exact forall_of_ascii hascii (hexText_ascii 4 c) d hd
    · obtain rfl := List.mem_singleton.mp hd
      exact hc (by omega)

lemma forall_mem_quoted {s : PyStr} (hs : ∀ c ∈ s, 32 ≤ c → p c) : ∀ c ∈ quoted s, p c := by
  intro c hc
  simp only [quoted, List.mem_append, List.mem_cons, List.mem_flatMap, List.not_mem_nil,
    or_false] at hc
  obtain (rfl | ⟨d, hd, hc⟩) | rfl := hc
  · exact hascii 34 (by decide) (by decide)
  · exact forall_mem_escapeChar hascii (hs d hd) c hc
  · exact hascii 34 (by decide) (by decide)

/-- What is written has a property that printable ASCII has, if the texts of the value have it. -/
theorem forall_mem_dumps (v : Json)
    (htexts : ∀ s, .str s ∈ v.leaves → ∀ c ∈ s, 32 ≤ c → p c) : ∀ c ∈ dumps lib v, p c := by
  have hword : ∀ t : PyStr, (∀ c ∈ t, 32 ≤ c ∧ c < 127) → ∀ c ∈ t, p c :=
    fun _ h => forall_of_ascii hascii h
  induction v using Json.induct with
  | null => exact hword (py "null") (by decide)
  | bool b =>
    cases b
    · exact hword (py "false") (by decide)
    · exact hword (py "true") (by decide)
  | int i => exact forall_mem_ofInt hascii i
  | float f =>
    cases f with
    | finite q => exact forall_mem_floatRepr hascii q
    | nan => exact hword (py "NaN") (by decide)
    | posInf => exact hword (py "Infinity") (by decide)
    | negInf => exact hword (py "-Infinity") (by decide)
  | str s => exact forall_mem_quoted hascii (htexts s (by simp [Json.leaves]))
  | arr xs ih =>
    intro c hc
    by_cases hpunct : c ∈ py "[,]"
    · exact hword (py "[,]") (by decide) c hpunct
    · obtain ⟨x, hx, hc⟩ := (mem_dumps_arr hpunct).mp hc
      exact ih x hx (fun s hs => htexts s (Json.mem_leaves_arr.mpr ⟨x, hx, hs⟩)) c hc
  | obj fields ih =>
    intro c hc
    by_cases hpunct : c ∈ py "\x7b,:\x7d"
    · exact hword (py "\x7b,:\x7d") (by decide) c hpunct
    · obtain ⟨q, hq, hc | hc⟩ := (mem_dumps_obj hpunct).mp hc
      · exact forall_mem_quoted hascii
          (htexts q.1 (Json.mem_leaves_obj.mpr ⟨q, hq, .inl rfl⟩)) c hc
      · exact ih q hq (fun s hs => htexts s (Json.mem_leaves_obj.mpr ⟨q, hq, .inr hs⟩)) c hc

lemma forall_mem_reprChar {quote c : ℕ} (hquote : 32 ≤ quote ∧ quote < 127)
    (hc : 127 < c → lib.isPrintable c = true → p c) : ∀ d ∈ reprChar lib quote c, p d := by
  intro d hd
  unfold reprChar at hd
  have hhex : ∀ (t : PyStr) (width : ℕ), (∀ c ∈ t, 32 ≤ c ∧ c < 127) →
      d ∈ t ++ hexText width c → p d := by
    intro t width ht hd
    rcases List.mem_append.mp hd with hd | hd
    · exact forall_of_ascii hascii ht d hd
    · exact forall_of_ascii hascii (hexText_ascii width c) d hd
  split_ifs at hd with h1 h2 h3 h4 h5 h6 h7 h8
  · refine forall_of_ascii hascii (t := [92, c]) ?_ d hd
    intro e he
    simp only [List.mem_cons, List.not_mem_nil, or_false] at he
    omega
  · exact forall_of_ascii hascii (t := py "\\t") (by decide) d hd
  · exact forall_of_ascii hascii (t := py "\\n") (by decide) d hd
  · exact forall_of_ascii hascii (t := py "\\r") (by decide) d hd
  · exact hhex _ _ (by decide) hd
  · obtain rfl := List.mem_singleton.mp hd
    by_cases hlt : d < 127
    · exact hascii d (by omega) hlt
    · exact hc (by omega) (h6.resolve_left hlt)
  · exact hhex _ _ (by decide) hd
  · exact hhex _ _ (by decide) hd
  · exact hhex _ _ (by decide) hd

lemma forall_mem_reprStr {s : PyStr} (hs : ∀ c, 127 < c → lib.isPrintable c = true → p c) :
    ∀ c ∈ reprStr lib s, p c := by
  intro c hc
  have hquote : ∀ b : Bool, 32 ≤ (if b then 34 else 39 : ℕ) ∧ (if b then 34 else 39 : ℕ) < 127 := by
    decide
  simp only [reprStr, List.mem_append, List.mem_cons, List.mem_flatMap, List.not_mem_nil,
    or_false] at hc
  obtain (rfl | ⟨d, -, hc⟩) | rfl := hc
  · exact hascii _ (hquote _).1 (hquote _).2
  · exact forall_mem_reprChar hascii (hquote _) (hs d) c hc
  · exact hascii _ (hquote _).1 (hquote _).2

/-- What `repr` writes has a property that printable characters have. -/
theorem forall_mem_repr (v : Json) (hp : ∀ c, 127 < c → lib.isPrintable c = true → p c) :
    ∀ c ∈ repr lib v, p c := by
  have hword : ∀ t : PyStr, (∀ c ∈ t, 32 ≤ c ∧ c < 127) → ∀ c ∈ t, p c :=
    fun _ h => forall_of_ascii hascii h
  induction v using Json.induct with
  | null => exact hword (py "None") (by decide)
  | bool b =>
    cases b
    · exact hword (py "False") (by decide)
    · exact hword (py "True") (by decide)
  | int i => exact forall_mem_ofInt hascii i
  | float f =>
    cases f with
    | finite q => exact forall_mem_floatRepr hascii q
    | nan => exact hword (py "nan") (by decide)
    | posInf => exact hword (py "inf") (by decide)
    | negInf => exact hword (py "-inf") (by decide)
  | str s => exact forall_mem_reprStr hascii hp
  | arr xs ih =>
    intro c hc
    by_cases hpunct : c ∈ py "[, ]"
    · exact hword (py "[, ]") (by decide) c hpunct
    · obtain ⟨x, hx, hc⟩ := (mem_repr_arr hpunct).mp hc
      exact ih x hx c hc
  | obj fields ih =>
    intro c hc
    by_cases hpunct : c ∈ py "\x7b, :\x7d"
    · exact hword (py "\x7b, :\x7d") (by decide) c hpunct
    · obtain ⟨q, hq, hc | hc⟩ := (mem_repr_obj hpunct).mp hc
      · exact forall_mem_reprStr hascii hp c hc
      · exact ih q hq c hc

end Characters

/-- What is not ASCII is written as it is. -/
theorem mem_dumps_of_mem_leaves {lib : Lib} {v : Json} {s : PyStr} {c : ℕ}
    (hs : .str s ∈ v.leaves) (hc : c ∈ s) (hbig : 127 < c) : c ∈ dumps lib v := by
  have hquoted : ∀ {t : PyStr}, c ∈ t → c ∈ quoted t := by
    intro t ht
    have hnone : shortEscapes.lookup c = none := by
      rw [List.lookup_eq_none_iff]
      intro q hq
      have hall : ∀ q ∈ shortEscapes, q.1 ≤ 127 := by decide
      have := hall q hq
      rw [bne_iff_ne]
      omega
    refine List.mem_append_left _ (List.mem_cons_of_mem _ (List.mem_flatMap.mpr ⟨c, ht, ?_⟩))
    rw [escapeChar, hnone]
    simp only [if_neg (show ¬ c < 32 by omega), List.mem_singleton]
  have hascii : ∀ t : PyStr, (∀ d ∈ t, d ≤ 127) → c ∉ t := by
    intro t ht hmem
    have := ht c hmem
    omega
  induction v using Json.induct with
  | arr xs ih =>
    obtain ⟨x, hx, hs⟩ := Json.mem_leaves_arr.mp hs
    exact (mem_dumps_arr (hascii _ (by decide))).mpr ⟨x, hx, ih x hx hs⟩
  | obj fields ih =>
    obtain ⟨q, hq, hkey | hs⟩ := Json.mem_leaves_obj.mp hs
    · cases hkey
      exact (mem_dumps_obj (hascii _ (by decide))).mpr ⟨q, hq, .inl (hquoted hc)⟩
    · exact (mem_dumps_obj (hascii _ (by decide))).mpr ⟨q, hq, .inr (ih q hq hs)⟩
  | str t =>
    obtain rfl : s = t := by simpa [Json.leaves] using hs
    exact hquoted hc
  | null => simp [Json.leaves] at hs
  | bool b => simp [Json.leaves] at hs
  | int i => simp [Json.leaves] at hs
  | float f => simp [Json.leaves] at hs

end PyJson

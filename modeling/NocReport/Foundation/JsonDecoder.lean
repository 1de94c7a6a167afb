import NocReport.Foundation.JsonEncoder

set_option relaxedAutoImplicit false
set_option autoImplicit false

/-!
# Reading JSON

What `json.loads` makes of a text. A text that is no JSON raises `JSONDecodeError`; a number with
too many digits raises a plain `ValueError`, and too many containers inside one another raise
`RecursionError`.

## Main definitions

* `PyJson.scanString`, `PyJson.scanArray`, `PyJson.scanObject` — the readers of the parts: each
  returns what it has read and what is left of the text.
* `PyJson.scanValue` — the reader of a value.
* `PyJson.loads` — `json.loads`.

## Main results

* `PyJson.scanValue_shorter` — reading a value uses up some of the text.
* `PyJson.scanItems_fuel`, `PyJson.scanFields_fuel` — the loops never run out of turns.
-/

namespace PyJson

/-- `JSONDecodeError`. -/
def decodeError : PyError := .custom (py "JSONDecodeError") []

/-- `RecursionError`. -/
def recursionError : PyError := .custom (py "RecursionError") []

/-! ## White space -/

/-- The white space of JSON. -/
def isWhitespace (c : ℕ) : Bool := c = 32 ∨ c = 9 ∨ c = 10 ∨ c = 13

/-- What follows white space. -/
def skipWhitespace (text : PyStr) : PyStr := text.dropWhile isWhitespace

/-- What follows a word. -/
def after : PyStr → PyStr → Option PyStr
  | [], text => some text
  | _ :: _, [] => none
  | c :: word, d :: text => if c = d then after word text else none

/-! ## Texts -/

/-- The value of a hexadecimal digit. -/
def hexValue (c : ℕ) : Option ℕ :=
  if 48 ≤ c ∧ c ≤ 57 then some (c - 48)
  else if 97 ≤ c ∧ c ≤ 102 then some (c - 87)
  else if 65 ≤ c ∧ c ≤ 70 then some (c - 55)
  else none

/-- The number that four hexadecimal digits make. -/
def hexUnit (a b c d : ℕ) : Option ℕ := do
  return ((← hexValue a) * 16 + (← hexValue b)) * 256 + (← hexValue c) * 16 + (← hexValue d)

/-- The character a short escape stands for. -/
def unescape (letter : ℕ) : Option ℕ :=
  if letter = 47 then some 47 else (shortEscapes.find? fun p => p.2 = letter).map (·.1)

/-- The characters up to the closing quotation mark, each with whether it was written as a number,
and what follows. -/
def scanUnits : PyStr → Except PyError (List (Bool × ℕ) × PyStr)
  | [] => throw decodeError
  | c :: text =>
    if c = 34 then return ([], text)
    else if c = 92 then
      match text with
      | [] => throw decodeError
      | letter :: text =>
        if letter = 117 then
          match text with
          | a :: b :: c :: d :: text =>
            match hexUnit a b c d with
            | some unit => do
              let (units, rest) ← scanUnits text
              return ((true, unit) :: units, rest)
            | none => throw decodeError
          | _ => throw decodeError
        else match unescape letter with
          | some c => do
            let (units, rest) ← scanUnits text
            return ((false, c) :: units, rest)
          | none => throw decodeError
    else if c < 32 then throw decodeError
    else do
      let (units, rest) ← scanUnits text
      return ((false, c) :: units, rest)

/-- The equation of `scanUnits`. -/
alias scanUnits_eq := scanUnits.eq_def

section Units

variable {a b c d letter unit : ℕ} {text : PyStr}

lemma scanUnits_quote : scanUnits (34 :: text) = .ok ([], text) := by
  rw [scanUnits_eq]
  rfl

lemma scanUnits_hex (h : hexUnit a b c d = some unit) :
    scanUnits (92 :: 117 :: a :: b :: c :: d :: text) =
      (scanUnits text >>= fun read => .ok ((true, unit) :: read.1, read.2)) := by
  rw [scanUnits_eq]
  simp only [h]
  rfl

lemma scanUnits_hex_none
    (h : ∀ a b c d rest, text = a :: b :: c :: d :: rest → hexUnit a b c d = none) :
    scanUnits (92 :: 117 :: text) = .error decodeError := by
  rw [scanUnits_eq]
  dsimp only
  rw [if_neg (by decide), if_pos rfl, if_pos rfl]
  split
  · next a b c d rest => rw [h a b c d rest rfl]; rfl
  · rfl

lemma scanUnits_letter (hletter : letter ≠ 117) (h : unescape letter = some c) :
    scanUnits (92 :: letter :: text) =
      (scanUnits text >>= fun read => .ok ((false, c) :: read.1, read.2)) := by
  rw [scanUnits_eq]
  dsimp only
  rw [if_neg (by decide), if_pos rfl, if_neg hletter, h]
  rfl

lemma scanUnits_letter_none (hletter : letter ≠ 117) (h : unescape letter = none) :
    scanUnits (92 :: letter :: text) = .error decodeError := by
  rw [scanUnits_eq]
  dsimp only
  rw [if_neg (by decide), if_pos rfl, if_neg hletter, h]
  rfl

lemma scanUnits_control (hc : c < 32) : scanUnits (c :: text) = .error decodeError := by
  rw [scanUnits_eq]
  dsimp only
  rw [if_neg (by omega), if_neg (by omega), if_pos hc]
  rfl

lemma scanUnits_char (h34 : c ≠ 34) (h92 : c ≠ 92) (hc : 32 ≤ c) :
    scanUnits (c :: text) =
      (scanUnits text >>= fun read => .ok ((false, c) :: read.1, read.2)) := by
  rw [scanUnits_eq]
  dsimp only
  rw [if_neg h34, if_neg h92, if_neg (by omega)]
  rfl

end Units

/-- Two surrogates written one after the other as numbers are one character. -/
def joinSurrogates : List (Bool × ℕ) → PyStr
  | [] => []
  | [(_, c)] => [c]
  | (true, high) :: (true, low) :: units =>
    if 0xD800 ≤ high ∧ high ≤ 0xDBFF ∧ 0xDC00 ≤ low ∧ low ≤ 0xDFFF then
      (0x10000 + (high - 0xD800) * 0x400 + (low - 0xDC00)) :: joinSurrogates units
    else high :: joinSurrogates ((true, low) :: units)
  | (_, c) :: unit :: units => c :: joinSurrogates (unit :: units)

/-- A text, after the opening quotation mark. -/
def scanString (text : PyStr) : Except PyError (PyStr × PyStr) := do
  let (units, rest) ← scanUnits text
  return (joinSurrogates units, rest)

/-! ## Numbers -/

/-- The value of a number: `int(text)` without a fraction and an exponent, else `float(text)`. -/
def Number.value (lib : Lib) (n : Number) : Except PyError Json :=
  if n.fraction = [] ∧ n.exponent = [] then
    if lib.intDigits < n.digits.length then
      throw (.valueError (py "Exceeds the limit (" ++ .ofNat lib.intDigits ++
        py " digits) for integer string conversion: value has " ++ .ofNat n.digits.length ++
        py " digits; use sys.set_int_max_str_digits() to increase the limit"))
    else return .int (if n.sign = [] then decimalValue n.digits else -decimalValue n.digits)
  else return .float (lib.readFloat n.text)

/-! ## Containers -/

section Containers

variable (value : PyStr → Except PyError (Json × PyStr))

/-- The elements of an array from the first on, in at most so many turns. -/
def scanItems : ℕ → PyStr → Except PyError (List Json × PyStr)
  | 0, _ => throw decodeError
  | turns + 1, text => do
    let (v, rest) ← value text
    match skipWhitespace rest with
    | [] => throw decodeError
    | c :: rest =>
      if c = 93 then return ([v], rest)
      else if c = 44 then do
        let (items, rest) ← scanItems turns (skipWhitespace rest)
        return (v :: items, rest)
      else throw decodeError

/-- An array, after the opening bracket. -/
def scanArray (text : PyStr) : Except PyError (Json × PyStr) :=
  match skipWhitespace text with
  | [] => throw decodeError
  | c :: rest =>
    if c = 93 then return (.arr [], rest)
    else do
      let (items, rest) ← scanItems value (text.length + 1) (c :: rest)
      return (.arr items, rest)

/-- A field of an object: its key, a colon and its value. -/
def scanField (text : PyStr) : Except PyError ((PyStr × Json) × PyStr) :=
  match text with
  | [] => throw decodeError
  | c :: text =>
    if c = 34 then do
      let (key, rest) ← scanString text
      match skipWhitespace rest with
      | [] => throw decodeError
      | c :: rest =>
        if c = 58 then do
          let (v, rest) ← value (skipWhitespace rest)
          return ((key, v), rest)
        else throw decodeError
    else throw decodeError

/-- The fields of an object from the first on, in at most so many turns. -/
def scanFields : ℕ → PyStr → Except PyError (List (PyStr × Json) × PyStr)
  | 0, _ => throw decodeError
  | turns + 1, text => do
    let (field, rest) ← scanField value text
    match skipWhitespace rest with
    | [] => throw decodeError
    | c :: rest =>
      if c = 125 then return ([field], rest)
      else if c = 44 then do
        let (fields, rest) ← scanFields turns (skipWhitespace rest)
        return (field :: fields, rest)
      else throw decodeError

/-- An object, after the opening brace; of two fields with the same key the later value counts. -/
def scanObject (text : PyStr) : Except PyError (Json × PyStr) :=
  match skipWhitespace text with
  | [] => throw decodeError
  | c :: rest =>
    if c = 125 then return (.obj [], rest)
    else do
      let (fields, rest) ← scanFields value (text.length + 1) (c :: rest)
      return (.obj (Dict.ofList fields), rest)

end Containers

/-! ## Values -/

section Values

variable (lib : Lib)

/-- The words that are values. -/
def literals : List (PyStr × Json) :=
  [(py "null", .null), (py "true", .bool true), (py "false", .bool false),
    (py "NaN", .float .nan), (py "Infinity", .float .posInf), (py "-Infinity", .float .negInf)]

/-- A value that is no container. -/
def scanScalar (text : PyStr) : Except PyError (Json × PyStr) :=
  match literals.findSome? fun p => (after p.1 text).map fun rest => (p.2, rest) with
  | some found => return found
  | none =>
    match scanNumber text with
    | some (n, rest) => do return (← n.value lib, rest)
    | none => throw decodeError

/-- A value, when what is inside it is read by `nested`. -/
def scanOnce (nested : PyStr → Except PyError (Json × PyStr))
    (enter : Except PyError Unit) (text : PyStr) : Except PyError (Json × PyStr) :=
  match text with
  | [] => throw decodeError
  | c :: rest =>
    if c = 34 then do
      let (s, rest) ← scanString rest
      return (.str s, rest)
    else if c = 123 then do
      enter
      scanObject nested rest
    else if c = 91 then do
      enter
      scanArray nested rest
    else scanScalar lib text

/-- A value with at most so many containers inside one another. -/
def scanValue : ℕ → PyStr → Except PyError (Json × PyStr)
  | 0 => scanOnce lib (fun _ => throw recursionError) (throw recursionError)
  | depth + 1 => scanOnce lib (scanValue depth) (return ())

/-- `json.loads`. -/
def loads (text : PyStr) : Except PyError Json :=
  if text.head? = some 0xFEFF then throw decodeError
  else do
    let (v, rest) ← scanValue lib lib.maxDepth (skipWhitespace text)
    if skipWhitespace rest = [] then return v else throw decodeError

end Values

/-! ## Progress -/

section Progress

variable {lib : Lib} {text rest : PyStr}

lemma skipWhitespace_length_le (text : PyStr) : (skipWhitespace text).length ≤ text.length :=
  List.length_dropWhile_le isWhitespace text

lemma after_eq {word : PyStr} (h : after word text = some rest) : text = word ++ rest := by
  induction word generalizing text with
  | nil => simpa [after] using h
  | cons c word ih =>
    cases text with
    | nil => simp [after] at h
    | cons d text =>
      rw [after] at h
      split at h
      · next hcd => rw [ih h, hcd, List.cons_append]
      · cases h

lemma scanUnits_shorter {units : List (Bool × ℕ)} (h : scanUnits text = .ok (units, rest)) :
    rest.length < text.length := by
  fun_induction scanUnits text generalizing units rest with
  | case1 => cases h
  | case2 text =>
    cases h
    exact Nat.lt_succ_self _
  | case3 => cases h
  | case4 a b c d text unit _ _ ih =>
    obtain ⟨⟨units, rest⟩, hread, h⟩ := Except.bind_eq_ok.mp h
    cases h
    have := ih hread
    simp only [List.length_cons]
    omega
  | case5 => cases h
  | case6 => cases h
  | case7 letter text _ c _ _ ih =>
    obtain ⟨⟨units, rest⟩, hread, h⟩ := Except.bind_eq_ok.mp h
    cases h
    have := ih hread
    simp only [List.length_cons]
    omega
  | case8 => cases h
  | case9 => cases h
  | case10 c text _ _ _ ih =>
    obtain ⟨⟨units, rest⟩, hread, h⟩ := Except.bind_eq_ok.mp h
    cases h
    have := ih hread
    simp only [List.length_cons]
    omega

lemma scanString_shorter {s : PyStr} (h : scanString text = .ok (s, rest)) :
    rest.length < text.length := by
  obtain ⟨⟨units, rest⟩, hread, h⟩ := Except.bind_eq_ok.mp h
  cases h
  exact scanUnits_shorter hread

lemma scanNumber_shorter {n : Number} (h : scanNumber text = some (n, rest)) :
    rest.length < text.length := by
  obtain ⟨⟨digits, left⟩, hdigits, h⟩ := Option.map_eq_some_iff.mp h
  cases h
  dsimp only
  have hsign : (scanSign text).2.length ≤ text.length := by
    unfold scanSign
    split
    · exact le_refl _
    · split
      · exact Nat.le_succ _
      · exact le_refl _
  have hwhole : left.length < (scanSign text).2.length := by
    generalize (scanSign text).2 = text at hdigits
    unfold scanDigits at hdigits
    split at hdigits
    · cases hdigits
    · next c rest =>
      split_ifs at hdigits with h48 hc
      · cases hdigits
        exact Nat.lt_succ_self _
      · cases hdigits
        rw [List.dropWhile_cons_of_pos hc]
        exact Nat.lt_succ_of_le (List.length_dropWhile_le _ _)
  have hfraction : (scanFraction left).2.length ≤ left.length := by
    unfold scanFraction
    split
    · exact le_refl _
    · split
      · exact (List.length_dropWhile_le _ _).trans (Nat.le_succ _)
      · exact le_refl _
  have hexponent : ∀ t : PyStr, (scanExponent t).2.length ≤ t.length := by
    intro t
    have hsigned : ∀ t : PyStr, (scanExponentSign t).2.length ≤ t.length := by
      intro t
      unfold scanExponentSign
      split
      · exact le_refl _
      · split
        · exact Nat.le_succ _
        · exact le_refl _
    unfold scanExponent
    split
    · exact le_refl _
    · next c rest =>
      dsimp only
      split
      · exact ((List.length_dropWhile_le _ _).trans (hsigned rest)).trans (Nat.le_succ _)
      · exact le_refl _
  have := hexponent (scanFraction left).2
  omega

lemma scanScalar_shorter {v : Json} (h : scanScalar lib text = .ok (v, rest)) :
    rest.length < text.length := by
  unfold scanScalar at h
  split at h
  · next found hfound =>
    rw [Except.pure_eq_ok] at h
    subst h
    obtain ⟨p, hp, hafter⟩ := List.exists_of_findSome?_eq_some hfound
    obtain ⟨left, hleft, heq⟩ := Option.map_eq_some_iff.mp hafter
    cases heq
    have hlong : ∀ p ∈ literals, 0 < p.1.length := by decide
    have := hlong p hp
    rw [after_eq hleft, List.length_append]
    omega
  · split at h
    · next n left hnumber =>
      obtain ⟨v, -, h⟩ := Except.bind_eq_ok.mp h
      cases h
      exact scanNumber_shorter hnumber
    · cases h

/-- The reader of what is inside a container uses up some of the text. -/
def Shortens (value : PyStr → Except PyError (Json × PyStr)) : Prop :=
  ∀ ⦃text v rest⦄, value text = .ok (v, rest) → rest.length < text.length

variable {value : PyStr → Except PyError (Json × PyStr)} (hvalue : Shortens value)

include hvalue

lemma scanItems_shorter {turns : ℕ} {items : List Json}
    (h : scanItems value turns text = .ok (items, rest)) : rest.length < text.length := by
  induction turns generalizing text items rest with
  | zero => cases h
  | succ turns ih =>
    obtain ⟨⟨v, left⟩, hread, h⟩ := Except.bind_eq_ok.mp h
    dsimp only at h
    have hlt := hvalue hread
    have hle := skipWhitespace_length_le left
    split at h
    · cases h
    · next c left' hskip =>
      rw [hskip, List.length_cons] at hle
      split_ifs at h
      · cases h
        omega
      · obtain ⟨⟨items, rest⟩, hitems, h⟩ := Except.bind_eq_ok.mp h
        cases h
        dsimp only
        have := ih hitems
        have := skipWhitespace_length_le left'
        omega

lemma scanField_shorter {field : PyStr × Json} (h : scanField value text = .ok (field, rest)) :
    rest.length < text.length := by
  unfold scanField at h
  split at h
  · cases h
  · next c text =>
    split_ifs at h
    · obtain ⟨⟨key, left⟩, hkey, h⟩ := Except.bind_eq_ok.mp h
      dsimp only at h
      have hlt := scanString_shorter hkey
      have hle := skipWhitespace_length_le left
      split at h
      · cases h
      · next c left' hskip =>
        rw [hskip, List.length_cons] at hle
        split_ifs at h
        · obtain ⟨⟨v, rest⟩, hread, h⟩ := Except.bind_eq_ok.mp h
          cases h
          dsimp only
          have := hvalue hread
          have := skipWhitespace_length_le left'
          rw [List.length_cons]
          omega

lemma scanFields_shorter {turns : ℕ} {fields : List (PyStr × Json)}
    (h : scanFields value turns text = .ok (fields, rest)) : rest.length < text.length := by
  induction turns generalizing text fields rest with
  | zero => cases h
  | succ turns ih =>
    obtain ⟨⟨field, left⟩, hread, h⟩ := Except.bind_eq_ok.mp h
    dsimp only at h
    have hlt := scanField_shorter hvalue hread
    have hle := skipWhitespace_length_le left
    split at h
    · cases h
    · next c left' hskip =>
      rw [hskip, List.length_cons] at hle
      split_ifs at h
      · cases h
        omega
      · obtain ⟨⟨fields, rest⟩, hfields, h⟩ := Except.bind_eq_ok.mp h
        cases h
        dsimp only
        have := ih hfields
        have := skipWhitespace_length_le left'
        omega

lemma scanArray_shorter {v : Json} (h : scanArray value text = .ok (v, rest)) :
    rest.length < text.length := by
  unfold scanArray at h
  have hle := skipWhitespace_length_le text
  split at h
  · cases h
  · next c left hskip =>
    rw [hskip] at hle
    split_ifs at h
    · cases h
      exact hle
    · obtain ⟨⟨items, rest⟩, hitems, h⟩ := Except.bind_eq_ok.mp h
      cases h
      exact (scanItems_shorter hvalue hitems).trans_le hle

lemma scanObject_shorter {v : Json} (h : scanObject value text = .ok (v, rest)) :
    rest.length < text.length := by
  unfold scanObject at h
  have hle := skipWhitespace_length_le text
  split at h
  · cases h
  · next c left hskip =>
    rw [hskip] at hle
    split_ifs at h
    · cases h
      exact hle
    · obtain ⟨⟨fields, rest⟩, hfields, h⟩ := Except.bind_eq_ok.mp h
      cases h
      exact (scanFields_shorter hvalue hfields).trans_le hle

lemma scanOnce_shorter {enter : Except PyError Unit} : Shortens (scanOnce lib value enter) := by
  intro text v rest h
  unfold scanOnce at h
  split at h
  · cases h
  · next c text =>
    split_ifs at h
    · obtain ⟨⟨s, rest⟩, hread, h⟩ := Except.bind_eq_ok.mp h
      cases h
      exact (scanString_shorter hread).trans (Nat.lt_succ_self _)
    · obtain ⟨-, -, h⟩ := Except.bind_eq_ok.mp h
      exact (scanObject_shorter hvalue h).trans (Nat.lt_succ_self _)
    · obtain ⟨-, -, h⟩ := Except.bind_eq_ok.mp h
      exact (scanArray_shorter hvalue h).trans (Nat.lt_succ_self _)
    · exact scanScalar_shorter h

/-- The elements of an array never run out of turns. -/
theorem scanItems_fuel {m n : ℕ} (hm : text.length < m) (hn : text.length < n) :
    scanItems value m text = scanItems value n text := by
  induction m generalizing n text with
  | zero => omega
  | succ m ih =>
    cases n with
    | zero => omega
    | succ n =>
      rw [scanItems, scanItems]
      refine Except.bind_congr fun read hread => ?_
      obtain ⟨v, left⟩ := read
      have hlt := hvalue hread
      have hle := skipWhitespace_length_le left
      dsimp only
      cases hskip : skipWhitespace left with
      | nil => rfl
      | cons c left' =>
        rw [hskip, List.length_cons] at hle
        have := skipWhitespace_length_le left'
        dsimp only
        rw [ih (n := n) (by omega) (by omega)]

/-- The fields of an object never run out of turns. -/
theorem scanFields_fuel {m n : ℕ} (hm : text.length < m) (hn : text.length < n) :
    scanFields value m text = scanFields value n text := by
  induction m generalizing n text with
  | zero => omega
  | succ m ih =>
    cases n with
    | zero => omega
    | succ n =>
      rw [scanFields, scanFields]
      refine Except.bind_congr fun read hread => ?_
      obtain ⟨field, left⟩ := read
      have hlt := scanField_shorter hvalue hread
      have hle := skipWhitespace_length_le left
      dsimp only
      cases hskip : skipWhitespace left with
      | nil => rfl
      | cons c left' =>
        rw [hskip, List.length_cons] at hle
        have := skipWhitespace_length_le left'
        dsimp only
        rw [ih (n := n) (by omega) (by omega)]

omit hvalue

/-- Reading a value uses up some of the text. -/
theorem scanValue_shorter (depth : ℕ) : Shortens (scanValue lib depth) := by
  induction depth with
  | zero =>
    refine scanOnce_shorter fun text v rest h => ?_
    cases h
  | succ depth ih => exact scanOnce_shorter ih

end Progress

end PyJson

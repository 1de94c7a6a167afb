import Mathlib.Data.List.Sort
import Mathlib.Data.String.Basic

set_option relaxedAutoImplicit false
set_option autoImplicit false

/-!
# Compact JSON text

The text that `json.dumps(v, sort_keys=True, separators=(",", ":"))` makes of texts, lists and
objects: no white space, ASCII only, and the fields of an object in the order of their keys.

## Main definitions

* `JsonText` — texts, lists and objects.
* `JsonText.write` — the text of a value, with the fields in the order they have.
* `JsonText.sorted` — the value with the fields of each object sorted.
* `JsonText.dumps` — the text of the sorted value.

## Main results

* `JsonText.escapeChar_inj` — no escape of a character is a prefix of another's.
* `JsonText.write_inj` — no text of a value is a prefix of another's.
* `JsonText.dumps_inj` — values with the same text are the same once sorted.
-/

/-- Texts, lists and objects. -/
inductive JsonText where
  | str (s : String)
  | arr (xs : List JsonText)
  | obj (fields : List (String × JsonText))
  deriving Repr

namespace JsonText

/-! ## Characters -/

/-- Four hexadecimal digits. -/
def hex4 (n : ℕ) : List Char :=
  [Nat.digitChar (n / 4096 % 16), Nat.digitChar (n / 256 % 16), Nat.digitChar (n / 16 % 16),
    Nat.digitChar (n % 16)]

/-- The escape of a UTF-16 code unit. -/
def escapeUnit (n : ℕ) : List Char := '\\' :: 'u' :: hex4 n

/-- The short escapes: the character after the backslash, for the characters that have one. -/
def shortEscape (c : Char) : Option Char :=
  if c = '"' then some '"' else if c = '\\' then some '\\' else if c = '\n' then some 'n'
  else if c = '\r' then some 'r' else if c = '\t' then some 't' else if c = '\x08' then some 'b'
  else if c = '\x0c' then some 'f' else none

/-- A character inside quotation marks. -/
def escapeChar (c : Char) : List Char :=
  match shortEscape c with
  | some short => ['\\', short]
  | none =>
    if ' ' ≤ c ∧ c ≤ '~' then [c]
    else if c.toNat < 0x10000 then escapeUnit c.toNat
    else escapeUnit (0xD800 + (c.toNat - 0x10000) / 0x400) ++
      escapeUnit (0xDC00 + (c.toNat - 0x10000) % 0x400)

/-- The value of a hexadecimal digit. -/
def hexValue (c : Char) : ℕ := if c.toNat < 58 then c.toNat - 48 else c.toNat - 87

lemma hexValue_digitChar {n : ℕ} (h : n < 16) : hexValue (Nat.digitChar n) = n := by
  have hall : ∀ m < 16, hexValue (Nat.digitChar m) = m := by decide
  exact hall n h

/-- The code unit that the character after a backslash stands for. -/
def shortValue (c : Char) : ℕ :=
  if c = 'n' then 10 else if c = 'r' then 13 else if c = 't' then 9 else if c = 'b' then 8
  else if c = 'f' then 12 else c.toNat

/-- The code unit that a text begins with, and the rest of the text. -/
def readUnit : List Char → Option (ℕ × List Char)
  | [] => none
  | c :: r =>
    if c ≠ '\\' then some (c.toNat, r)
    else match r with
      | 'u' :: a :: b :: c :: d :: r =>
        some (hexValue a * 4096 + hexValue b * 256 + hexValue c * 16 + hexValue d, r)
      | c :: r => some (shortValue c, r)
      | [] => none

lemma readUnit_escapeUnit {n : ℕ} (h : n < 65536) (r : List Char) :
    readUnit (escapeUnit n ++ r) = some (n, r) := by
  have hdigits : n / 4096 % 16 * 4096 + n / 256 % 16 * 256 + n / 16 % 16 * 16 + n % 16 = n := by
    omega
  simp only [escapeUnit, hex4, List.cons_append, List.nil_append, readUnit, ne_eq,
    not_true_eq_false, if_false]
  rw [hexValue_digitChar (Nat.mod_lt _ (by omega)), hexValue_digitChar (Nat.mod_lt _ (by omega)),
    hexValue_digitChar (Nat.mod_lt _ (by omega)), hexValue_digitChar (Nat.mod_lt _ (by omega)),
    hdigits]

lemma readUnit_of_shortEscape {c short : Char} (h : shortEscape c = some short) (r : List Char) :
    readUnit ('\\' :: short :: r) = some (c.toNat, r) := by
  unfold shortEscape at h
  split_ifs at h <;> cases h <;> subst_vars <;> rfl

/-- Reading the escape of a character of the basic plane gives its code point. -/
lemma readUnit_escapeChar {c : Char} (h : c.toNat < 65536) (r : List Char) :
    readUnit (escapeChar c ++ r) = some (c.toNat, r) := by
  unfold escapeChar
  split
  · next short hshort => exact readUnit_of_shortEscape hshort r
  · next hshort =>
    split_ifs with hprint
    · have hne : c ≠ '\\' := by
        rintro rfl
        cases hshort
      simp [readUnit, hne]
    · exact readUnit_escapeUnit h r

lemma shortEscape_of_le {c : Char} (h : 65536 ≤ c.toNat) : shortEscape c = none := by
  unfold shortEscape
  split_ifs <;> first | rfl | (subst_vars; exact absurd h (by decide))

/-- Reading the escape of any other character gives the first half of its surrogate pair. -/
lemma escapeChar_of_le {c : Char} (h : 65536 ≤ c.toNat) :
    escapeChar c = escapeUnit (0xD800 + (c.toNat - 0x10000) / 0x400) ++
      escapeUnit (0xDC00 + (c.toNat - 0x10000) % 0x400) := by
  have hprint : ¬ (' ' ≤ c ∧ c ≤ '~') := by
    rintro ⟨-, hle⟩
    have hnat : c.toNat ≤ '~'.toNat := hle
    exact absurd (le_trans h hnat) (by decide)
  rw [escapeChar, shortEscape_of_le h]
  simp only [if_neg hprint, if_neg (not_lt.mpr h)]

/-- A code point is no surrogate. -/
lemma not_surrogate (c : Char) : ¬ (0xD800 ≤ c.toNat ∧ c.toNat < 0xE000) ∧ c.toNat < 0x110000 := by
  have h := c.valid
  simp only [UInt32.isValidChar, Nat.isValidChar] at h
  show ¬ (0xD800 ≤ c.val.toNat ∧ c.val.toNat < 0xE000) ∧ c.val.toNat < 0x110000
  omega

/-- **No escape of a character is a prefix of another's.** -/
lemma escapeChar_inj {c d : Char} {r r' : List Char} (h : escapeChar c ++ r = escapeChar d ++ r') :
    c = d ∧ r = r' := by
  have hread := congrArg readUnit h
  have hc := not_surrogate c
  have hd := not_surrogate d
  by_cases hcb : c.toNat < 65536
  · rw [readUnit_escapeChar hcb] at hread
    by_cases hdb : d.toNat < 65536
    · rw [readUnit_escapeChar hdb] at hread
      simp only [Option.some.injEq, Prod.mk.injEq] at hread
      exact ⟨Char.toNat_inj.mp hread.1, hread.2⟩
    · rw [escapeChar_of_le (not_lt.mp hdb), List.append_assoc, readUnit_escapeUnit (by omega)]
        at hread
      simp only [Option.some.injEq, Prod.mk.injEq] at hread
      omega
  · rw [escapeChar_of_le (not_lt.mp hcb), List.append_assoc, readUnit_escapeUnit (by omega)]
      at hread
    by_cases hdb : d.toNat < 65536
    · rw [readUnit_escapeChar hdb] at hread
      simp only [Option.some.injEq, Prod.mk.injEq] at hread
      omega
    · rw [escapeChar_of_le (not_lt.mp hdb), List.append_assoc, readUnit_escapeUnit (by omega)]
        at hread
      simp only [Option.some.injEq, Prod.mk.injEq] at hread
      have hlow := congrArg readUnit hread.2
      rw [readUnit_escapeUnit (by omega), readUnit_escapeUnit (by omega)] at hlow
      simp only [Option.some.injEq, Prod.mk.injEq] at hlow
      exact ⟨Char.toNat_inj.mp (by omega), hlow.2⟩

/-- No escape begins with a quotation mark. -/
lemma escapeChar_ne_quote {c : Char} {r r' : List Char} : escapeChar c ++ r ≠ '"' :: r' := by
  unfold escapeChar
  split
  · simp
  · next hshort =>
    split_ifs
    · intro h
      rw [List.singleton_append, List.cons.injEq] at h
      rw [h.1] at hshort
      cases hshort
    · simp [escapeUnit]
    · simp [escapeUnit]

/-! ## Texts and values -/

/-- A text in quotation marks. -/
def quote (s : String) : List Char := '"' :: (s.toList.flatMap escapeChar ++ ['"'])

lemma flatMap_escapeChar_inj {cs ds : List Char} {r r' : List Char}
    (h : cs.flatMap escapeChar ++ '"' :: r = ds.flatMap escapeChar ++ '"' :: r') :
    cs = ds ∧ r = r' := by
  induction cs generalizing ds with
  | nil =>
    cases ds with
    | nil => simpa using h
    | cons d ds =>
      rw [List.flatMap_cons, List.append_assoc] at h
      exact absurd h.symm escapeChar_ne_quote
  | cons c cs ih =>
    cases ds with
    | nil =>
      rw [List.flatMap_cons, List.append_assoc] at h
      exact absurd h escapeChar_ne_quote
    | cons d ds =>
      rw [List.flatMap_cons, List.flatMap_cons, List.append_assoc, List.append_assoc] at h
      obtain ⟨rfl, htail⟩ := escapeChar_inj h
      obtain ⟨rfl, rfl⟩ := ih htail
      exact ⟨rfl, rfl⟩

lemma quote_inj {s t : String} {r r' : List Char} (h : quote s ++ r = quote t ++ r') :
    s = t ∧ r = r' := by
  simp only [quote, List.cons_append, List.append_assoc, List.nil_append, List.cons.injEq,
    true_and] at h
  obtain ⟨hs, hr⟩ := flatMap_escapeChar_inj h
  exact ⟨String.toList_inj.mp hs, hr⟩

mutual

/-- The text of a value. -/
def write : JsonText → List Char
  | str s => quote s
  | arr [] => ['[', ']']
  | arr (x :: xs) => '[' :: (write x ++ writeItems xs)
  | obj [] => ['{', '}']
  | obj ((k, x) :: fields) => '{' :: (quote k ++ ':' :: (write x ++ writeFields fields))

/-- The elements of a list after the first, and the end of the list. -/
def writeItems : List JsonText → List Char
  | [] => [']']
  | x :: xs => ',' :: (write x ++ writeItems xs)

/-- The fields of an object after the first, and the end of the object. -/
def writeFields : List (String × JsonText) → List Char
  | [] => ['}']
  | (k, x) :: fields => ',' :: (quote k ++ ':' :: (write x ++ writeFields fields))

end

/-- A value begins with a quotation mark or an opening bracket. -/
lemma write_ne_close (v : JsonText) (r r' : List Char) :
    write v ++ r ≠ ']' :: r' ∧ write v ++ r ≠ '}' :: r' := by
  match v with
  | str s => simp [write, quote]
  | arr [] => simp [write]
  | arr (x :: xs) => simp [write]
  | obj [] => simp [write]
  | obj ((k, x) :: fields) => simp [write]

mutual

/-- **No text of a value is a prefix of another's.** -/
lemma write_inj : ∀ {v w : JsonText} {r r' : List Char}, write v ++ r = write w ++ r' →
    v = w ∧ r = r'
  | str s, w, r, r', h => by
    match w with
    | str t =>
      rw [write, write] at h
      obtain ⟨rfl, rfl⟩ := quote_inj h
      exact ⟨rfl, rfl⟩
    | arr [] | arr (_ :: _) | obj [] | obj ((_, _) :: _) => simp [write, quote] at h
  | arr [], w, r, r', h => by
    match w with
    | arr [] => exact ⟨rfl, by simpa [write] using h⟩
    | arr (y :: ys) =>
      simp only [write, List.cons_append, List.nil_append, List.append_assoc, List.cons.injEq,
        true_and] at h
      exact absurd h.symm (write_ne_close y _ r).1
    | str _ | obj [] | obj ((_, _) :: _) => simp [write, quote] at h
  | arr (x :: xs), w, r, r', h => by
    match w with
    | arr [] =>
      simp only [write, List.cons_append, List.nil_append, List.append_assoc, List.cons.injEq,
        true_and] at h
      exact absurd h (write_ne_close x _ r').1
    | arr (y :: ys) =>
      simp only [write, List.cons_append, List.append_assoc, List.cons.injEq, true_and] at h
      obtain ⟨rfl, hrest⟩ := write_inj h
      obtain ⟨rfl, rfl⟩ := writeItems_inj hrest
      exact ⟨rfl, rfl⟩
    | str _ | obj [] | obj ((_, _) :: _) => simp [write, quote] at h
  | obj [], w, r, r', h => by
    match w with
    | obj [] => exact ⟨rfl, by simpa [write] using h⟩
    | str _ | arr [] | arr (_ :: _) | obj ((_, _) :: _) => simp [write, quote] at h
  | obj ((k, x) :: fields), w, r, r', h => by
    match w with
    | obj ((l, y) :: others) =>
      simp only [write, List.cons_append, List.append_assoc, List.cons.injEq, true_and] at h
      obtain ⟨rfl, hvalue⟩ := quote_inj h
      simp only [List.cons.injEq, true_and] at hvalue
      obtain ⟨rfl, hrest⟩ := write_inj hvalue
      obtain ⟨rfl, rfl⟩ := writeFields_inj hrest
      exact ⟨rfl, rfl⟩
    | str _ | arr [] | arr (_ :: _) | obj [] => simp [write, quote] at h

lemma writeItems_inj : ∀ {xs ys : List JsonText} {r r' : List Char},
    writeItems xs ++ r = writeItems ys ++ r' → xs = ys ∧ r = r'
  | [], ys, r, r', h => by
    match ys with
    | [] => exact ⟨rfl, by simpa [writeItems] using h⟩
    | _ :: _ => simp [writeItems] at h
  | x :: xs, ys, r, r', h => by
    match ys with
    | [] => simp [writeItems] at h
    | y :: ys =>
      simp only [writeItems, List.cons_append, List.append_assoc, List.cons.injEq, true_and] at h
      obtain ⟨rfl, hrest⟩ := write_inj h
      obtain ⟨rfl, rfl⟩ := writeItems_inj hrest
      exact ⟨rfl, rfl⟩

lemma writeFields_inj : ∀ {fields others : List (String × JsonText)} {r r' : List Char},
    writeFields fields ++ r = writeFields others ++ r' → fields = others ∧ r = r'
  | [], others, r, r', h => by
    match others with
    | [] => exact ⟨rfl, by simpa [writeFields] using h⟩
    | (_, _) :: _ => simp [writeFields] at h
  | (k, x) :: fields, others, r, r', h => by
    match others with
    | [] => simp [writeFields] at h
    | (l, y) :: others =>
      simp only [writeFields, List.cons_append, List.append_assoc, List.cons.injEq, true_and] at h
      obtain ⟨rfl, hvalue⟩ := quote_inj h
      simp only [List.cons.injEq, true_and] at hvalue
      obtain ⟨rfl, hrest⟩ := write_inj hvalue
      obtain ⟨rfl, rfl⟩ := writeFields_inj hrest
      exact ⟨rfl, rfl⟩

end

/-! ## Sorted fields -/

/-- Fields in the order of their keys. -/
def sortFields (fields : List (String × JsonText)) : List (String × JsonText) :=
  fields.insertionSort fun a b => a.1 ≤ b.1

mutual

/-- The value with the fields of each object sorted. -/
def sorted : JsonText → JsonText
  | str s => str s
  | arr xs => arr (sortedItems xs)
  | obj fields => obj (sortFields (sortedFields fields))

/-- Each element with its fields sorted. -/
def sortedItems : List JsonText → List JsonText
  | [] => []
  | x :: xs => sorted x :: sortedItems xs

/-- The value of each field with its fields sorted. -/
def sortedFields : List (String × JsonText) → List (String × JsonText)
  | [] => []
  | (k, x) :: fields => (k, sorted x) :: sortedFields fields

end

lemma sortedItems_eq_map (xs : List JsonText) : sortedItems xs = xs.map sorted := by
  induction xs with
  | nil => rfl
  | cons x xs ih => rw [sortedItems, List.map_cons, ih]

/-- The text of the sorted value. -/
def dumps (v : JsonText) : String := String.ofList (write (sorted v))

/-- Values with the same text are the same once sorted. -/
theorem dumps_inj {v w : JsonText} (h : dumps v = dumps w) : sorted v = sorted w := by
  have hwrite : write (sorted v) = write (sorted w) := String.ofList_injective h
  have happend : write (sorted v) ++ [] = write (sorted w) ++ [] := by rw [hwrite]
  exact (write_inj happend).1

example : dumps (.obj [("id", .str "a\"b\n"), ("x", .arr [.str "é", .str "😀"])]) =
    "\x7b\"id\":\"a\\\"b\\n\",\"x\":[\"\\u00e9\",\"\\ud83d\\ude00\"]\x7d" := by decide

end JsonText

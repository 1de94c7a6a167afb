import NocReport.Foundation.JsonDecoder

set_option relaxedAutoImplicit false
set_option autoImplicit false

/-!
# Reading what was written

`json.loads` reads what `json.dumps` writes, if the value is not nested too deeply and its integers
are not too long; otherwise it raises something else than `JSONDecodeError`.

## Main definitions

* `PyJson.Written` — the values that are written: the keys of an object are different, and the
  floats are those that the library can write and read.
* `PyJson.Within` — the values within the limits of the reader.
* `PyJson.Reads` — a reader reads a value within the limits, and raises beyond them.

## Main results

* `PyJson.scanString_quoted` — texts are read as they were written.
* `PyJson.scanValue_dumps` — so are values.
* `PyJson.loads_dumps`, `PyJson.loads_dumps_append` — what `json.loads` makes of it.
-/

namespace PyJson

variable {lib : Lib} {rest : PyStr}

/-! ## Texts -/

section Strings

lemma hexValue_hexDigit : ∀ n < 16, hexValue (hexDigit n) = some n := by decide

/-- The four digits of a small number. -/
lemma hexUnit_hexText {c : ℕ} (hc : c < 32) :
    ∃ d1 d2 d3 d4, hexText 4 c = [d1, d2, d3, d4] ∧ hexUnit d1 d2 d3 d4 = some c := by
  refine ⟨_, _, _, _, rfl, ?_⟩
  simp only [hexUnit, hexValue_hexDigit _ (Nat.mod_lt _ (by decide : 0 < 16)),
    Option.pure_def, Option.bind_eq_bind, Option.bind_some, Option.some.injEq]
  omega

/-- A character is read as it was written. -/
lemma scanUnits_escapeChar (c : ℕ) : ∃ written, (written = true → c < 32) ∧ ∀ text,
    scanUnits (escapeChar c ++ text) =
      (scanUnits text >>= fun read => .ok ((written, c) :: read.1, read.2)) := by
  unfold escapeChar
  split
  · next letter hletter =>
    have hshort : ∀ p ∈ shortEscapes, p.2 ≠ 117 ∧ unescape p.2 = some p.1 := by decide
    obtain ⟨before, after, hsplit, -⟩ := List.lookup_eq_some_iff.mp hletter
    obtain ⟨hne, hread⟩ := hshort (c, letter) (by simp [hsplit])
    exact ⟨false, by simp, fun text => scanUnits_letter hne hread⟩
  · next hnone =>
    split
    · next hc =>
      obtain ⟨d1, d2, d3, d4, hhex, hunit⟩ := hexUnit_hexText hc
      rw [hhex]
      exact ⟨true, fun _ => hc, fun text => scanUnits_hex hunit⟩
    · next hc =>
      have hnot : ∀ p ∈ shortEscapes, c ≠ p.1 := by
        intro p hp
        simpa using List.lookup_eq_none_iff.mp hnone p hp
      have h34 : c ≠ 34 := hnot (34, 34) (by decide)
      have h92 : c ≠ 92 := hnot (92, 92) (by decide)
      exact ⟨false, by simp, fun text => scanUnits_char h34 h92 (by omega)⟩

/-- The characters written as numbers are no surrogates. -/
lemma joinSurrogates_small {units : List (Bool × ℕ)} (h : ∀ u ∈ units, u.1 = true → u.2 < 32) :
    joinSurrogates units = units.map (·.2) := by
  fun_induction joinSurrogates units with
  | case1 => rfl
  | case2 => rfl
  | case3 high low units hpair ih =>
    have := h (true, high) (by simp) rfl
    dsimp only at this
    omega
  | case4 high low units hpair ih =>
    rw [ih fun u hu => h u (List.mem_cons_of_mem _ hu)]
    rfl
  | case5 written c unit units hne ih =>
    rw [ih fun u hu => h u (List.mem_cons_of_mem _ hu)]
    rfl

/-- A text is read as it was written. -/
lemma scanString_quoted (s : PyStr) :
    scanString (s.flatMap escapeChar ++ 34 :: rest) = .ok (s, rest) := by
  have hunits : ∃ units : List (Bool × ℕ), (∀ u ∈ units, u.1 = true → u.2 < 32) ∧
      units.map (·.2) = s ∧
      scanUnits (s.flatMap escapeChar ++ 34 :: rest) = .ok (units, rest) := by
    induction s with
    | nil => exact ⟨[], by simp, rfl, scanUnits_quote⟩
    | cons c s ih =>
      obtain ⟨units, hsmall, hs, hread⟩ := ih
      obtain ⟨written, hwritten, hchar⟩ := scanUnits_escapeChar c
      refine ⟨(written, c) :: units, List.forall_mem_cons.mpr ⟨hwritten, hsmall⟩, by simp [hs], ?_⟩
      rw [List.flatMap_cons, List.append_assoc, hchar, hread]
      rfl
  obtain ⟨units, hsmall, hs, hread⟩ := hunits
  rw [scanString, hread]
  change Except.ok (joinSurrogates units, rest) = _
  rw [joinSurrogates_small hsmall, hs]

end Strings

/-! ## Limits -/

/-- The values that are written. -/
inductive Written (lib : Lib) : Json → Prop
  | null : Written lib .null
  | bool (b : Bool) : Written lib (.bool b)
  | int (i : ℤ) : Written lib (.int i)
  | float (f : JsonFloat) (h : ∀ q, f = .finite q → lib.readFloat (lib.floatRepr q) = f) :
    Written lib (.float f)
  | str (s : PyStr) : Written lib (.str s)
  | arr (xs : List Json) (h : ∀ x ∈ xs, Written lib x) : Written lib (.arr xs)
  | obj (fields : List (PyStr × Json)) (hkeys : (fields.map (·.1)).Nodup)
    (h : ∀ p ∈ fields, Written lib p.2) : Written lib (.obj fields)

/-- The integers of a value are not too long. -/
def IntegersFit (lib : Lib) (v : Json) : Prop :=
  ∀ i, .int i ∈ v.leaves → (PyStr.ofNat i.natAbs).length ≤ lib.intDigits

/-- The value is nested at most so deeply, and its integers are not too long. -/
structure Within (lib : Lib) (depth : ℕ) (v : Json) : Prop where
  depth : v.depth ≤ depth
  digits : IntegersFit lib v

lemma within_arr {depth : ℕ} {xs : List Json} :
    Within lib (depth + 1) (.arr xs) ↔ ∀ x ∈ xs, Within lib depth x := by
  constructor
  · intro h x hx
    exact ⟨Json.depth_arr_le.mp h.depth x hx,
      fun i hi => h.digits i (Json.mem_leaves_arr.mpr ⟨x, hx, hi⟩)⟩
  · intro h
    refine ⟨Json.depth_arr_le.mpr fun x hx => (h x hx).depth, fun i hi => ?_⟩
    obtain ⟨x, hx, hi⟩ := Json.mem_leaves_arr.mp hi
    exact (h x hx).digits i hi

lemma within_obj {depth : ℕ} {fields : List (PyStr × Json)} :
    Within lib (depth + 1) (.obj fields) ↔ ∀ p ∈ fields, Within lib depth p.2 := by
  constructor
  · intro h p hp
    exact ⟨Json.depth_obj_le.mp h.depth p hp,
      fun i hi => h.digits i (Json.mem_leaves_obj.mpr ⟨p, hp, .inr hi⟩)⟩
  · intro h
    refine ⟨Json.depth_obj_le.mpr fun p hp => (h p hp).depth, fun i hi => ?_⟩
    obtain ⟨p, hp, hkey | hi⟩ := Json.mem_leaves_obj.mp hi
    · cases hkey
    · exact (h p hp).digits i hi

/-- The reader reads this when the condition holds, and raises something else than
`JSONDecodeError` and `TypeError` when it does not. -/
structure Reads {α : Type} (x : Except PyError (α × PyStr)) (p : Prop) (v : α) (rest : PyStr) :
    Prop where
  ok : p → x = .ok (v, rest)
  error : ¬ p → ∃ e, x = .error e ∧ e ≠ decodeError ∧ e ≠ .typeError

namespace Reads

variable {α β : Type} {x : Except PyError (α × PyStr)} {p q : Prop} {v : α} {w : β}
  {rest rest' : PyStr}

lemma of_ok (h : x = .ok (v, rest)) : Reads x True v rest := ⟨fun _ => h, fun hn => absurd trivial hn⟩

lemma congr (h : Reads x p v rest) (hpq : p ↔ q) : Reads x q v rest :=
  ⟨fun hq => h.ok (hpq.mpr hq), fun hq => h.error (mt hpq.mp hq)⟩

/-- One reader after the other. -/
lemma bind {f : α × PyStr → Except PyError (β × PyStr)} (h : Reads x p v rest)
    (hf : Reads (f (v, rest)) q w rest') : Reads (x >>= f) (p ∧ q) w rest' := by
  constructor
  · rintro ⟨hp, hq⟩
    rw [h.ok hp]
    exact hf.ok hq
  · intro hn
    by_cases hp : p
    · rw [h.ok hp]
      exact hf.error fun hq => hn ⟨hp, hq⟩
    · obtain ⟨e, he, hne⟩ := h.error hp
      rw [he]
      exact ⟨e, rfl, hne⟩

lemma map (h : Reads x p v rest) (f : α → β) :
    Reads (x >>= fun read => .ok (f read.1, read.2)) p (f v) rest := by
  have hmap : Reads (x >>= fun read => .ok (f read.1, read.2)) (p ∧ True) (f v) rest :=
    h.bind (of_ok rfl)
  exact hmap.congr (and_iff_left trivial)

end Reads

/-! ## Numbers and words -/

section Scalars

lemma number_head {n : Number} (hn : n.Valid) :
    ∃ c t, n.text = c :: t ∧ (isDecimal c = true ∨ c = 45 ∧ ∃ d t', t = d :: t' ∧
      isDecimal d = true) := by
  obtain ⟨hne, hall⟩ := hn.digits
  obtain ⟨d, ds, hds⟩ := List.exists_cons_of_ne_nil hne
  have hd : isDecimal d = true := hall d (by simp [hds])
  rcases hn.sign with h | h
  · exact ⟨d, ds ++ (n.fraction ++ n.exponent), by simp [Number.text, h, hds], .inl hd⟩
  · exact ⟨45, d :: ds ++ (n.fraction ++ n.exponent), by simp [Number.text, h, hds],
      .inr ⟨rfl, d, _, rfl, hd⟩⟩

/-- No word starts a number. -/
lemma after_number {n : Number} (hn : n.Valid) {p : PyStr × Json} (hp : p ∈ literals) :
    after p.1 (n.text ++ rest) = none := by
  have hwords : ∀ p ∈ literals, 1 < p.1.length ∧ isDecimal (p.1.getD 0 0) = false ∧
      (p.1.getD 0 0 = 45 → isDecimal (p.1.getD 1 0) = false) := by decide
  obtain ⟨hlong, hfirst, hsecond⟩ := hwords p hp
  by_contra hsome
  obtain ⟨left, hleft⟩ := Option.ne_none_iff_exists'.mp hsome
  have hsplit := after_eq hleft
  have h0 : (p.1 ++ left).getD 0 0 = p.1.getD 0 0 := by
    rw [List.getD_eq_getElem?_getD, List.getElem?_append_left (by omega),
      ← List.getD_eq_getElem?_getD]
  have h1 : (p.1 ++ left).getD 1 0 = p.1.getD 1 0 := by
    rw [List.getD_eq_getElem?_getD, List.getElem?_append_left hlong, ← List.getD_eq_getElem?_getD]
  obtain ⟨c, t, htext, hc | ⟨rfl, d, t', rfl, hd⟩⟩ := number_head hn
  · rw [← hsplit, htext] at h0
    rw [← h0] at hfirst
    simp [hc] at hfirst
  · rw [← hsplit, htext] at h0 h1
    rw [← h0, ← h1] at hsecond
    simp [hd] at hsecond

/-- A number is no word. -/
lemma scanScalar_number {n : Number} (hn : n.Valid) (hrest : Stops rest) :
    scanScalar lib (n.text ++ rest) = (n.value lib >>= fun v => .ok (v, rest)) := by
  have hnone : (literals.findSome? fun p => (after p.1 (n.text ++ rest)).map fun rest =>
      (p.2, rest)) = none := by
    rw [List.findSome?_eq_none_iff]
    intro p hp
    rw [after_number hn hp]
    rfl
  unfold scanScalar
  rw [hnone, scanNumber_text hn hrest]
  rfl

/-- What starts with no quotation mark, brace or bracket is no text and no container. -/
lemma scanOnce_scalar {nested : PyStr → Except PyError (Json × PyStr)}
    {enter : Except PyError Unit} {text : PyStr}
    (h : ∀ c ∈ text.head?, c ≠ 34 ∧ c ≠ 123 ∧ c ≠ 91) :
    scanOnce lib nested enter text = scanScalar lib text := by
  cases text with
  | nil => rfl
  | cons c text =>
    obtain ⟨h34, h123, h91⟩ := h c rfl
    rw [scanOnce, if_neg h34, if_neg h123, if_neg h91]

lemma scanOnce_number {nested : PyStr → Except PyError (Json × PyStr)}
    {enter : Except PyError Unit} {n : Number} (hn : n.Valid) (hrest : Stops rest) :
    scanOnce lib nested enter (n.text ++ rest) =
      (n.value lib >>= fun v => .ok (v, rest)) := by
  rw [scanOnce_scalar, scanScalar_number hn hrest]
  obtain ⟨c, t, htext, hc⟩ := number_head hn
  rw [htext]
  rintro _ ⟨⟩
  have hc' : isDecimal c = true ∨ c = 45 := hc.imp_right fun h => h.1
  simp only [isDecimal, Bool.and_eq_true, decide_eq_true_eq] at hc'
  omega

/-- Integers are read, if they are not too long. -/
lemma intNumber_value_eq (i : ℤ) :
    (intNumber i).value lib =
      if lib.intDigits < (PyStr.ofNat i.natAbs).length then
        .error (.valueError (py "Exceeds the limit (" ++ .ofNat lib.intDigits ++
          py " digits) for integer string conversion: value has " ++
          .ofNat (PyStr.ofNat i.natAbs).length ++
          py " digits; use sys.set_int_max_str_digits() to increase the limit"))
      else .ok (.int i) := by
  have hvalue := intNumber_value i
  rw [Number.value, if_pos ⟨rfl, rfl⟩]
  change (if lib.intDigits < (PyStr.ofNat i.natAbs).length then _ else _) = _
  split
  · rfl
  · rw [hvalue]
    rfl

end Scalars

/-! ## Containers -/

section Containers

/-- The characters a value can start with. -/
def valueStarts : PyStr := py "ntfNI-0123456789\"[\x7b"

lemma number_starts {n : Number} (hn : n.Valid) :
    ∃ c t, n.text = c :: t ∧ c ∈ valueStarts := by
  obtain ⟨c, t, htext, hc⟩ := number_head hn
  refine ⟨c, t, htext, ?_⟩
  rcases hc with hc | ⟨rfl, -⟩
  · have hdigits : ∀ k < 10, 48 + k ∈ valueStarts := by decide
    simp only [isDecimal, Bool.and_eq_true, decide_eq_true_eq] at hc
    have := hdigits (c - 48) (by omega)
    rwa [show 48 + (c - 48) = c by omega] at this
  · decide

variable (lib) in
lemma dumps_starts (v : Json) : ∃ c t, dumps lib v = c :: t ∧ c ∈ valueStarts := by
  cases v with
  | null => exact ⟨_, _, rfl, by decide⟩
  | bool b => cases b <;> exact ⟨_, _, rfl, by decide⟩
  | int i =>
    rw [dumps, ← intNumber_text]
    exact number_starts (intNumber_valid i)
  | float f =>
    cases f with
    | finite q =>
      obtain ⟨n, hn, -, htext⟩ := lib.floatRepr_number q
      rw [dumps, floatText, htext]
      exact number_starts hn
    | nan => exact ⟨_, _, rfl, by decide⟩
    | posInf => exact ⟨_, _, rfl, by decide⟩
    | negInf => exact ⟨_, _, rfl, by decide⟩
  | str s => exact ⟨_, _, rfl, by decide⟩
  | arr xs => cases xs <;> exact ⟨_, _, rfl, by decide⟩
  | obj fields => cases fields <;> exact ⟨_, _, rfl, by decide⟩

/-- There is no white space before a value. -/
lemma skipWhitespace_dumps (v : Json) :
    skipWhitespace (dumps lib v ++ rest) = dumps lib v ++ rest := by
  obtain ⟨c, t, h, hc⟩ := dumps_starts lib v
  have hnone : ∀ c ∈ valueStarts, isWhitespace c = false := by decide
  rw [h, List.cons_append, skipWhitespace, List.dropWhile_cons_of_neg (by simp [hnone c hc])]

variable {value : PyStr → Except PyError (Json × PyStr)} {p : Json → Prop}

/-- The reader reads the values of the list, if each is within its limits. -/
def ReadsEach (lib : Lib) (value : PyStr → Except PyError (Json × PyStr)) (p : Json → Prop)
    (x : Json) : Prop :=
  ∀ ⦃rest⦄, Stops rest → Reads (value (dumps lib x ++ rest)) (p x) x rest

lemma stops_cons {c : ℕ} (h : isDecimal c = false ∧ c ≠ 46 ∧ c ≠ 101 ∧ c ≠ 69) :
    Stops (c :: rest) := by
  rintro _ ⟨⟩
  exact h

variable (rest) in
lemma scanItems_dumps {x : Json} {xs : List Json}
    (h : ∀ y ∈ x :: xs, ReadsEach lib value p y) {turns : ℕ} (hturns : xs.length < turns) :
    Reads (scanItems value turns (dumps lib x ++ (dumpsItems lib xs ++ rest)))
      (∀ y ∈ x :: xs, p y) (x :: xs) rest := by
  induction xs generalizing x turns with
  | nil =>
    cases turns with
    | zero => exact absurd hturns (Nat.not_lt_zero _)
    | succ turns =>
      have hx : Reads (value (dumps lib x ++ 93 :: rest)) (p x) x (93 :: rest) :=
        h x List.mem_cons_self (stops_cons (by decide))
      rw [scanItems]
      refine Reads.congr (p := p x ∧ True) (hx.bind (Reads.of_ok rfl)) ?_
      simp
  | cons y ys ih =>
    cases turns with
    | zero => exact absurd hturns (Nat.not_lt_zero _)
    | succ turns =>
      obtain ⟨hx, hxs⟩ := List.forall_mem_cons.mp h
      have htail := ih hxs (Nat.lt_of_succ_lt_succ hturns)
      have hrest : dumpsItems lib (y :: ys) ++ rest =
          44 :: (dumps lib y ++ (dumpsItems lib ys ++ rest)) := by
        simp [dumpsItems]
      rw [scanItems, hrest]
      refine ((hx (stops_cons (by decide))).bind ?_).congr List.forall_mem_cons.symm
      change Reads (scanItems value turns (skipWhitespace _) >>= _) _ _ _
      rw [skipWhitespace_dumps]
      exact htail.map (x :: ·)

lemma scanField_dumps {k : PyStr} {v : Json} (hv : ReadsEach lib value p v) (hrest : Stops rest) :
    Reads (scanField value (quoted k ++ 58 :: (dumps lib v ++ rest))) (p v) (k, v) rest := by
  have hkey : quoted k ++ 58 :: (dumps lib v ++ rest) =
      34 :: (k.flatMap escapeChar ++ 34 :: 58 :: (dumps lib v ++ rest)) := by
    simp [quoted]
  rw [hkey, scanField, if_pos rfl, scanString_quoted, Except.ok_bind]
  change Reads (value (skipWhitespace _) >>= _) _ _ _
  rw [skipWhitespace_dumps]
  exact (hv hrest).map (k, ·)

variable (rest) in
lemma scanFields_dumps {k : PyStr} {v : Json} {fields : List (PyStr × Json)}
    (h : ∀ q ∈ (k, v) :: fields, ReadsEach lib value p q.2) {turns : ℕ}
    (hturns : fields.length < turns) :
    Reads (scanFields value turns
        (quoted k ++ 58 :: (dumps lib v ++ (dumpsFields lib fields ++ rest))))
      (∀ q ∈ (k, v) :: fields, p q.2) ((k, v) :: fields) rest := by
  induction fields generalizing k v turns with
  | nil =>
    cases turns with
    | zero => exact absurd hturns (Nat.not_lt_zero _)
    | succ turns =>
      have hfield : Reads (scanField value (quoted k ++ 58 :: (dumps lib v ++ 125 :: rest))) (p v)
          (k, v) (125 :: rest) :=
        scanField_dumps (h (k, v) List.mem_cons_self) (stops_cons (by decide))
      rw [scanFields]
      refine Reads.congr (p := p v ∧ True) (hfield.bind (Reads.of_ok rfl)) ?_
      simp
  | cons q fields ih =>
    cases turns with
    | zero => exact absurd hturns (Nat.not_lt_zero _)
    | succ turns =>
      obtain ⟨i, w⟩ := q
      obtain ⟨hv, hfields⟩ := List.forall_mem_cons.mp h
      have htail := ih hfields (Nat.lt_of_succ_lt_succ hturns)
      have hrest : dumpsFields lib ((i, w) :: fields) ++ rest =
          44 :: (quoted i ++ 58 :: (dumps lib w ++ (dumpsFields lib fields ++ rest))) := by
        simp [dumpsFields]
      rw [scanFields, hrest]
      refine ((scanField_dumps hv (stops_cons (by decide))).bind ?_).congr
        (List.forall_mem_cons (p := fun q : PyStr × Json => p q.2)).symm
      exact htail.map ((k, v) :: ·)

variable (lib) in
lemma length_dumpsItems (xs : List Json) : xs.length < (dumpsItems lib xs).length := by
  induction xs with
  | nil => exact Nat.lt_succ_self 0
  | cons x xs ih =>
    simp only [dumpsItems, List.length_cons, List.length_append]
    omega

variable (lib) in
lemma length_dumpsFields (fields : List (PyStr × Json)) :
    fields.length < (dumpsFields lib fields).length := by
  induction fields with
  | nil => exact Nat.lt_succ_self 0
  | cons q fields ih =>
    obtain ⟨k, v⟩ := q
    simp only [dumpsFields, List.length_cons, List.length_append]
    omega

variable (rest) in
/-- An array is read, if its elements are within their limits. -/
lemma scanArray_dumps {xs : List Json} (h : ∀ x ∈ xs, ReadsEach lib value p x) :
    ∃ text, dumps lib (.arr xs) ++ rest = 91 :: text ∧
      Reads (scanArray value text) (∀ x ∈ xs, p x) (.arr xs) rest := by
  cases xs with
  | nil => exact ⟨93 :: rest, rfl, (Reads.of_ok rfl).congr (by simp)⟩
  | cons x xs =>
    refine ⟨dumps lib x ++ (dumpsItems lib xs ++ rest), by simp [dumps], ?_⟩
    obtain ⟨c, t, hstart, hc⟩ := dumps_starts lib x
    have hne : ∀ c ∈ valueStarts, c ≠ 93 := by decide
    have hturns : xs.length < (dumps lib x ++ (dumpsItems lib xs ++ rest)).length + 1 := by
      have := length_dumpsItems lib xs
      simp only [List.length_append]
      omega
    have hitems := scanItems_dumps rest h hturns
    unfold scanArray
    rw [skipWhitespace_dumps]
    rw [hstart, List.cons_append] at hitems ⊢
    dsimp only
    rw [if_neg (hne c hc)]
    exact hitems.map Json.arr

variable (rest) in
/-- An object is read, if its values are within their limits. -/
lemma scanObject_dumps {fields : List (PyStr × Json)} (hkeys : (fields.map (·.1)).Nodup)
    (h : ∀ q ∈ fields, ReadsEach lib value p q.2) :
    ∃ text, dumps lib (.obj fields) ++ rest = 123 :: text ∧
      Reads (scanObject value text) (∀ q ∈ fields, p q.2) (.obj fields) rest := by
  cases fields with
  | nil => exact ⟨125 :: rest, rfl, (Reads.of_ok rfl).congr (by simp)⟩
  | cons q fields =>
    obtain ⟨k, v⟩ := q
    refine ⟨quoted k ++ 58 :: (dumps lib v ++ (dumpsFields lib fields ++ rest)),
      by simp [dumps], ?_⟩
    have hturns : fields.length <
        (quoted k ++ 58 :: (dumps lib v ++ (dumpsFields lib fields ++ rest))).length + 1 := by
      have := length_dumpsFields lib fields
      simp only [List.length_append, List.length_cons]
      omega
    have hfields := (scanFields_dumps rest h hturns).map fun fields =>
      Json.obj (Dict.ofList fields)
    rw [Dict.ofList_of_nodup hkeys] at hfields
    exact hfields

end Containers

/-! ## Values -/

section Values

/-- A value that is no container is read, if it is no integer that is too long. -/
lemma scanOnce_dumps {nested : PyStr → Except PyError (Json × PyStr)} {enter : Except PyError Unit}
    {v : Json} (hv : Written lib v) (hdepth : v.depth = 0) (hrest : Stops rest) :
    Reads (scanOnce lib nested enter (dumps lib v ++ rest)) (IntegersFit lib v) v rest := by
  have hfit : ∀ {w : Json}, (∀ i, .int i ∉ w.leaves) → (True ↔ IntegersFit lib w) :=
    fun h => iff_of_true trivial fun i hi => absurd hi (h i)
  cases hv with
  | null => exact (Reads.of_ok rfl).congr (hfit (by simp [Json.leaves]))
  | bool b =>
    refine Reads.congr (Reads.of_ok ?_) (hfit (by simp [Json.leaves]))
    cases b <;> rfl
  | int i =>
    have hfits : IntegersFit lib (.int i) ↔
        ¬ lib.intDigits < (PyStr.ofNat i.natAbs).length := by
      simp [IntegersFit, Json.leaves]
    rw [dumps, ← intNumber_text, scanOnce_number (intNumber_valid i) hrest, intNumber_value_eq]
    constructor
    · intro h
      rw [if_neg (hfits.mp h)]
      rfl
    · intro h
      rw [if_pos (not_not.mp (mt hfits.mpr h))]
      exact ⟨_, rfl, by simp [decodeError], by simp⟩
  | float f hf =>
    refine Reads.congr (Reads.of_ok ?_) (hfit (by simp [Json.leaves]))
    cases f with
    | finite q =>
      obtain ⟨n, hn, hparts, htext⟩ := lib.floatRepr_number q
      have hfloat : n.value lib = .ok (.float (.finite q)) := by
        rw [Number.value, if_neg (by tauto), ← htext, hf q rfl]
        rfl
      rw [dumps, floatText, htext, scanOnce_number hn hrest, hfloat]
      rfl
    | nan => rfl
    | posInf => rfl
    | negInf => rfl
  | str s =>
    have htext : dumps lib (.str s) ++ rest = 34 :: (s.flatMap escapeChar ++ 34 :: rest) := by
      simp [dumps, quoted]
    refine Reads.congr (Reads.of_ok ?_) (hfit (by simp [Json.leaves]))
    rw [htext, scanOnce, if_pos rfl, scanString_quoted]
    rfl
  | arr xs => simp [Json.depth] at hdepth
  | obj fields => simp [Json.depth] at hdepth

variable (lib) in
lemma dumps_arr_starts (xs : List Json) : ∃ text, dumps lib (.arr xs) = 91 :: text := by
  cases xs <;> exact ⟨_, rfl⟩

variable (lib) in
lemma dumps_obj_starts (fields : List (PyStr × Json)) :
    ∃ text, dumps lib (.obj fields) = 123 :: text := by
  cases fields <;> exact ⟨_, rfl⟩

/-- **What was written is read.** A value is read as it was written within the limits of the
reader, and raises something else than `JSONDecodeError` beyond them. -/
theorem scanValue_dumps {v : Json} (hv : Written lib v) (depth : ℕ) (hrest : Stops rest) :
    Reads (scanValue lib depth (dumps lib v ++ rest)) (Within lib depth v) v rest := by
  have hscalar : ∀ {w : Json} {depth : ℕ} {rest : PyStr}, Written lib w → w.depth = 0 →
      Stops rest → Reads (scanValue lib depth (dumps lib w ++ rest)) (Within lib depth w) w rest := by
    intro w depth rest hw hdepth hrest
    have hwithin : IntegersFit lib w ↔ Within lib depth w :=
      ⟨fun h => ⟨hdepth ▸ Nat.zero_le depth, h⟩, fun h => h.digits⟩
    cases depth with
    | zero => exact (scanOnce_dumps hw hdepth hrest).congr hwithin
    | succ depth => exact (scanOnce_dumps hw hdepth hrest).congr hwithin
  -- a container is not read at the last level
  have hrefused : recursionError ≠ decodeError ∧ recursionError ≠ .typeError := by decide
  induction hv generalizing depth rest with
  | null => exact hscalar .null rfl hrest
  | bool b => exact hscalar (.bool b) rfl hrest
  | int i => exact hscalar (.int i) rfl hrest
  | float f hf => exact hscalar (.float f hf) rfl hrest
  | str s => exact hscalar (.str s) rfl hrest
  | arr xs _ ih =>
    cases depth with
    | zero =>
      obtain ⟨text, htext⟩ := dumps_arr_starts lib xs
      have hdeep : ¬ Within lib 0 (.arr xs) := fun h => Nat.not_succ_le_zero _ h.depth
      rw [htext]
      exact ⟨fun h => absurd h hdeep, fun _ => ⟨recursionError, rfl, hrefused⟩⟩
    | succ depth =>
      obtain ⟨text, htext, hread⟩ := scanArray_dumps rest
        fun x hx rest hrest => ih x hx depth hrest
      rw [htext]
      exact hread.congr within_arr.symm
  | obj fields hkeys _ ih =>
    cases depth with
    | zero =>
      obtain ⟨text, htext⟩ := dumps_obj_starts lib fields
      have hdeep : ¬ Within lib 0 (.obj fields) := fun h => Nat.not_succ_le_zero _ h.depth
      rw [htext]
      exact ⟨fun h => absurd h hdeep, fun _ => ⟨recursionError, rfl, hrefused⟩⟩
    | succ depth =>
      obtain ⟨text, htext, hread⟩ := scanObject_dumps rest hkeys
        fun q hq rest hrest => ih q hq depth hrest
      rw [htext]
      exact hread.congr within_obj.symm

/-- `json.loads` of a value that was written, with something behind it. -/
lemma loads_dumps_append {v : Json} (hv : Written lib v) (hrest : Stops rest) :
    (Within lib lib.maxDepth v → loads lib (dumps lib v ++ rest) =
      if skipWhitespace rest = [] then .ok v else .error decodeError) ∧
    (¬ Within lib lib.maxDepth v → ∃ e, loads lib (dumps lib v ++ rest) = .error e ∧
      e ≠ decodeError ∧ e ≠ .typeError) := by
  have hhead : (dumps lib v ++ rest).head? ≠ some 0xFEFF := by
    obtain ⟨c, t, h, hc⟩ := dumps_starts lib v
    have hne : ∀ c ∈ valueStarts, c ≠ 0xFEFF := by decide
    rw [h]
    exact fun heq => hne c hc (Option.some.inj heq)
  have hread := scanValue_dumps hv lib.maxDepth hrest
  rw [loads, if_neg hhead, skipWhitespace_dumps]
  constructor
  · intro hwithin
    rw [hread.ok hwithin]
    rfl
  · intro hwithin
    obtain ⟨e, he, hne⟩ := hread.error hwithin
    rw [he]
    exact ⟨e, rfl, hne⟩

/-- `json.loads` of a value that was written. -/
theorem loads_dumps {v : Json} (hv : Written lib v) :
    (Within lib lib.maxDepth v → loads lib (dumps lib v) = .ok v) ∧
    (¬ Within lib lib.maxDepth v → ∃ e, loads lib (dumps lib v) = .error e ∧
      e ≠ decodeError ∧ e ≠ .typeError) := by
  have hnil : Stops [] := by simp [Stops]
  have h := loads_dumps_append hv hnil
  rw [List.append_nil] at h
  exact ⟨fun hwithin => (h.1 hwithin).trans (if_pos rfl), h.2⟩

end Values

end PyJson

import Mathlib.Data.List.Forall2
import NocReport.Foundation.Json

set_option relaxedAutoImplicit false
set_option autoImplicit false

/-!
# Python on decoded JSON

The built-in operations a Python program applies to decoded JSON, with the exceptions they
raise. What the language library decides in ways that are not embedded (the text of a float or
of a container, the numbers `int` reads off a text) is a parameter.

## Main definitions

* `PyError` — the exceptions, with the message where a program looks at it.
* `PyRuntime` — the parts of the language library that are parameters.
* `Json.truthy`, `Json.index`, `Json.getD`, `Json.iter` — truth value, `v[k]`, `v.get(k, d)` and
  iteration.
* `PyRuntime.str`, `PyRuntime.int`, `PyRuntime.formatComma` — `str(v)`, `int(v)` and `f"{v:,}"`.
* `PyStr.strip` — `str.strip`.

## Main results

* `Except.bind_eq_ok`, `Except.mapM_eq_ok`, `Except.foldlM_invariant` — how a computation that
  succeeds has gone.
* `Except.Agree.bind`, `Except.Agree.mapM` — two computations succeed alike when their parts do.
* `Except.Both.bind` — two computations have related results when their parts have.
-/

/-- An exception; `custom` is one of a class the program defines. -/
inductive PyError where
  | keyError
  | typeError
  | attributeError
  | overflowError
  | valueError (message : PyStr)
  | custom (cls message : PyStr)
  deriving DecidableEq, Repr

/-- The parts of the language library that are not embedded. -/
structure PyRuntime where
  /-- `repr(v)`, which is also `str(v)` of a float, a list or an object -/
  repr : Json → PyStr
  /-- `int` of a text -/
  parseInt : PyStr → Option ℤ
  /-- `f"{x:,}"` of a float -/
  floatComma : JsonFloat → PyStr

namespace PyStr

/-- The characters `str.isspace` accepts. -/
def isSpace (c : ℕ) : Bool :=
  (9 ≤ c && c ≤ 13) || (28 ≤ c && c ≤ 32) || c == 0x85 || c == 0xA0 || c == 0x1680 ||
    (0x2000 ≤ c && c ≤ 0x200A) || c == 0x2028 || c == 0x2029 || c == 0x202F || c == 0x205F ||
    c == 0x3000

/-- `str.strip`. -/
def strip (s : PyStr) : PyStr := ((s.dropWhile isSpace).reverse.dropWhile isSpace).reverse

/-- The text has an encoding in UTF-8: no code point is a surrogate. -/
def encodable (s : PyStr) : Bool := s.all fun c => !(0xD800 ≤ c && c ≤ 0xDFFF)

/-- The decimal digits of a natural number. -/
def ofNat (n : ℕ) : PyStr := (Nat.toDigits 10 n).map Char.toNat

/-- The decimal text of an integer. -/
def ofInt (i : ℤ) : PyStr := (if i < 0 then py "-" else []) ++ ofNat i.natAbs

/-- Digits, least significant first, with a comma between the groups of three. -/
def groupThousands : PyStr → PyStr
  | a :: b :: c :: d :: rest => a :: b :: c :: (py ",") ++ groupThousands (d :: rest)
  | digits => digits

/-- The decimal text of an integer with thousands separators. -/
def ofIntComma (i : ℤ) : PyStr :=
  (if i < 0 then py "-" else []) ++ (groupThousands (ofNat i.natAbs).reverse).reverse

end PyStr

namespace Json

/-- The truth value. -/
def truthy : Json → Bool
  | null => false
  | bool b => b
  | int i => i != 0
  | float (.finite q) => q != 0
  | float _ => true
  | str s => !s.isEmpty
  | arr xs => !xs.isEmpty
  | obj fields => !fields.isEmpty

/-- `a or b`. -/
def or (a b : Json) : Json := if a.truthy then a else b

/-- `v is None`. -/
def isNull : Json → Bool
  | null => true
  | _ => false

/-- `isinstance(v, dict)`. -/
def isObject : Json → Bool
  | obj _ => true
  | _ => false

/-- `v == s` for a text literal `s`. -/
def isText (v : Json) (s : String) : Bool :=
  match v with
  | str t => t == py s
  | _ => false

/-- `value in (None, "")`. -/
def isNullOrEmpty : Json → Bool
  | null => true
  | str s => s.isEmpty
  | _ => false

/-- `v[k]`. -/
def index (v : Json) (k : PyStr) : Except PyError Json :=
  match v with
  | obj fields => match Dict.get? fields k with
    | some x => pure x
    | none => throw .keyError
  | _ => throw .typeError

/-- `v.get(k, d)`. -/
def getD (v : Json) (k : PyStr) (d : Json) : Except PyError Json :=
  match v with
  | obj fields => pure ((Dict.get? fields k).getD d)
  | _ => throw .attributeError

/-- The values a `for` loop over `v` goes through. -/
def iter : Json → Except PyError (List Json)
  | arr xs => pure xs
  | obj fields => pure (fields.map fun p => str p.1)
  | str s => pure (s.map fun c => str [c])
  | _ => throw .typeError

/-- A loop over a list, or over nothing when the list is empty, goes through its elements. -/
lemma iter_or_arr (xs : List Json) : ((arr xs).or (arr [])).iter = .ok xs := by
  cases xs <;> rfl

/-- The objects that a loop over `v or []` goes through are elements of a list. -/
lemma mem_of_iter_or {v item : Json} {items : List Json} (h : (v.or (arr [])).iter = .ok items)
    (hm : item ∈ items) (ho : item.isObject = true) : ∃ xs, v = arr xs ∧ item ∈ xs := by
  by_cases ht : v.truthy = true
  · rw [Json.or, if_pos ht] at h
    cases v with
    | arr xs =>
      have hitems : xs = items := Except.ok.inj h
      exact ⟨xs, rfl, hitems ▸ hm⟩
    | obj fields =>
      cases h
      obtain ⟨p, -, rfl⟩ := List.mem_map.mp hm
      cases ho
    | str s =>
      cases h
      obtain ⟨c, -, rfl⟩ := List.mem_map.mp hm
      cases ho
    | null | bool | int | float => cases h
  · rw [Json.or, if_neg ht] at h
    cases h
    cases hm

/-- `fields.get(k, d)` of a dictionary. -/
def Fields.getD (fields : Fields) (k : PyStr) (d : Json) : Json := (Dict.get? fields k).getD d

/-- `fields.get(k)` of a dictionary. -/
def Fields.get (fields : Fields) (k : PyStr) : Json := fields.getD k null

end Json

namespace PyRuntime

variable (rt : PyRuntime)

/-- `str(v)`, and what an f-string makes of `v`. -/
def str : Json → PyStr
  | .null => py "None"
  | .bool true => py "True"
  | .bool false => py "False"
  | .int i => .ofInt i
  | .str s => s
  | v => rt.repr v

/-- `int(v)`. -/
def int : Json → Except PyError ℤ
  | .bool b => pure (if b then 1 else 0)
  | .int i => pure i
  | .float (.finite q) => pure (q.num.tdiv q.den)
  | .float .nan => throw (.valueError (py "cannot convert float NaN to integer"))
  | .float _ => throw .overflowError
  | .str s => match rt.parseInt s with
    | some i => pure i
    | none => throw (.valueError (py "invalid literal for int()"))
  | _ => throw .typeError

/-- `f"{v:,}"`. -/
def formatComma : Json → Except PyError PyStr
  | .bool b => pure (.ofIntComma (if b then 1 else 0))
  | .int i => pure (.ofIntComma i)
  | .float f => pure (rt.floatComma f)
  | .str _ => throw (.valueError (py "Cannot specify ',' with 's'."))
  | _ => throw .typeError

end PyRuntime

/-! ## How a computation that succeeds has gone -/

namespace List.Forall₂

variable {α β : Type} {r : α → β → Prop} {xs : List α} {ys : List β}

/-- The partner of an element of the second list. -/
lemma exists_left (h : Forall₂ r xs ys) {y : β} (hy : y ∈ ys) : ∃ x ∈ xs, r x y := by
  induction h with
  | nil => cases hy
  | cons hxy _ ih =>
    rcases List.mem_cons.mp hy with rfl | hy
    · exact ⟨_, List.mem_cons_self, hxy⟩
    · obtain ⟨x, hx, hxy⟩ := ih hy
      exact ⟨x, List.mem_cons_of_mem _ hx, hxy⟩

/-- The partner of an element of the first list. -/
lemma exists_right (h : Forall₂ r xs ys) {x : α} (hx : x ∈ xs) : ∃ y ∈ ys, r x y := by
  induction h with
  | nil => cases hx
  | cons hxy _ ih =>
    rcases List.mem_cons.mp hx with rfl | hx
    · exact ⟨_, List.mem_cons_self, hxy⟩
    · obtain ⟨y, hy, hxy⟩ := ih hx
      exact ⟨y, List.mem_cons_of_mem _ hy, hxy⟩

/-- What does not distinguish partners comes out the same. -/
lemma map_eq {γ : Type} {g : α → γ} {zs : List α} {r : α → α → Prop} (h : Forall₂ r xs zs)
    (hg : ∀ x ∈ xs, ∀ z, r x z → g z = g x) : zs.map g = xs.map g := by
  induction h with
  | nil => rfl
  | @cons x z xs zs hxz _ ih =>
    obtain ⟨hx, hg⟩ := List.forall_mem_cons.mp hg
    rw [List.map_cons, List.map_cons, hx z hxz, ih hg]

lemma exists_append {xs' : List α} (h : Forall₂ r (xs ++ xs') ys) :
    ∃ zs zs', ys = zs ++ zs' ∧ Forall₂ r xs zs ∧ Forall₂ r xs' zs' := by
  induction xs generalizing ys with
  | nil => exact ⟨[], ys, rfl, .nil, h⟩
  | cons x xs ih =>
    cases h with
    | @cons _ y _ ys hx h =>
      obtain ⟨zs, zs', rfl, hzs, hzs'⟩ := ih h
      exact ⟨y :: zs, zs', rfl, .cons hx hzs, hzs'⟩

end List.Forall₂

namespace Except

variable {ε α β : Type}

lemma bind_eq_ok {x : Except ε α} {f : α → Except ε β} {b : β} :
    (x >>= f) = .ok b ↔ ∃ a, x = .ok a ∧ f a = .ok b := by
  cases x with
  | error e => simp [bind, Except.bind]
  | ok a => simp [bind, Except.bind]

/-- A sequence succeeds when its parts do. -/
lemma exists_bind_eq_ok {x : Except ε α} {f : α → Except ε β} :
    (∃ b, (x >>= f) = .ok b) ↔ ∃ a, x = .ok a ∧ ∃ b, f a = .ok b := by
  simp only [Except.bind, bind]
  cases x <;> simp

lemma bind_congr {x : Except ε α} {f g : α → Except ε β} (h : ∀ a, x = .ok a → f a = g a) :
    (x >>= f) = x >>= g := by
  cases x with
  | error e => rfl
  | ok a => exact h a rfl

lemma ok_bind (a : α) (f : α → Except ε β) : (Except.ok a >>= f) = f a := rfl

lemma pure_eq_ok {a b : α} : (pure a : Except ε α) = .ok b ↔ a = b := by
  simp [pure, Except.pure]

lemma throw_ne_ok {e : ε} {b : α} : (throw e : Except ε α) ≠ .ok b := by
  simp [throw, throwThe, MonadExceptOf.throw]

/-- A traversal succeeds when each of its calls does. -/
lemma mapM_eq_ok {f : α → Except ε β} {xs : List α} {ys : List β} :
    xs.mapM f = .ok ys ↔ List.Forall₂ (fun x y => f x = .ok y) xs ys := by
  induction xs generalizing ys with
  | nil =>
    rw [List.mapM_nil, pure_eq_ok]
    cases ys <;> simp
  | cons x xs ih =>
    rw [List.mapM_cons, bind_eq_ok]
    simp only [bind_eq_ok, pure_eq_ok, ih]
    constructor
    · rintro ⟨y, hy, ys, hys, rfl⟩
      exact .cons hy hys
    · rintro (_ | ⟨hy, hys⟩)
      exact ⟨_, hy, _, hys, rfl⟩

/-- Two computations have the same result, or both fail. -/
def Agree (x y : Except ε α) : Prop := ∀ a, x = .ok a ↔ y = .ok a

lemma Agree.refl (x : Except ε α) : Agree x x := fun _ => Iff.rfl

lemma Agree.bind {x y : Except ε α} {f g : α → Except ε β} (h : Agree x y)
    (hfg : ∀ a, x = .ok a → Agree (f a) (g a)) : Agree (x >>= f) (y >>= g) := by
  intro b
  rw [bind_eq_ok, bind_eq_ok]
  constructor
  · rintro ⟨a, ha, hb⟩
    exact ⟨a, (h a).mp ha, (hfg a ha b).mp hb⟩
  · rintro ⟨a, ha, hb⟩
    have hx := (h a).mpr ha
    exact ⟨a, hx, (hfg a hx b).mpr hb⟩

lemma Agree.mapM {f g : α → Except ε β} {xs : List α} (h : ∀ x ∈ xs, Agree (f x) (g x)) :
    Agree (xs.mapM f) (xs.mapM g) := by
  induction xs with
  | nil => exact .refl _
  | cons x xs ih =>
    rw [List.mapM_cons, List.mapM_cons]
    exact (h x List.mem_cons_self).bind fun _ _ =>
      (ih fun y hy => h y (List.mem_cons_of_mem _ hy)).bind fun _ _ => .refl _

/-- Every result of a traversal is the result of one of its calls. -/
lemma mem_of_mapM_eq_ok {f : α → Except ε β} {xs : List α} {ys : List β}
    (h : xs.mapM f = .ok ys) {y : β} (hy : y ∈ ys) : ∃ x ∈ xs, f x = .ok y :=
  (mapM_eq_ok.mp h).exists_left hy

/-- Every call of a traversal that succeeds does. -/
lemma exists_of_mapM_eq_ok {f : α → Except ε β} {xs : List α} {ys : List β}
    (h : xs.mapM f = .ok ys) {x : α} (hx : x ∈ xs) : ∃ y ∈ ys, f x = .ok y :=
  (mapM_eq_ok.mp h).exists_right hx

/-- A traversal whose calls succeed succeeds. -/
lemma exists_mapM_eq_ok {f : α → Except ε β} {xs : List α} (h : ∀ x ∈ xs, ∃ y, f x = .ok y) :
    ∃ ys, xs.mapM f = .ok ys := by
  induction xs with
  | nil => exact ⟨[], rfl⟩
  | cons x xs ih =>
    obtain ⟨y, hy⟩ := h x List.mem_cons_self
    obtain ⟨ys, hys⟩ := ih fun z hz => h z (List.mem_cons_of_mem _ hz)
    exact ⟨y :: ys, by rw [List.mapM_cons, hy, hys]; rfl⟩

lemma exists_filterMapM_eq_ok {f : α → Except ε (Option β)} {xs : List α}
    (h : ∀ x ∈ xs, ∃ y, f x = .ok y) : ∃ ys, xs.filterMapM f = .ok ys := by
  induction xs with
  | nil => exact ⟨[], rfl⟩
  | cons x xs ih =>
    obtain ⟨y, hy⟩ := h x List.mem_cons_self
    obtain ⟨ys, hys⟩ := ih fun z hz => h z (List.mem_cons_of_mem _ hz)
    rw [List.filterMapM_cons, hy, ok_bind]
    cases y with
    | none => exact ⟨ys, hys⟩
    | some y => exact ⟨y :: ys, by simp only [hys]; rfl⟩

/-- Both computations fail, or both succeed, with related results. -/
inductive Both {ε' γ : Type} (r : α → γ → Prop) : Except ε α → Except ε' γ → Prop
  | error (e : ε) (e' : ε') : Both r (.error e) (.error e')
  | ok {a : α} {c : γ} (h : r a c) : Both r (.ok a) (.ok c)

section Both

variable {ε' γ δ : Type} {r : α → γ → Prop} {x : Except ε α} {y : Except ε' γ}

lemma Both.bind {q : β → δ → Prop} (h : Both r x y) {f : α → Except ε β} {g : γ → Except ε' δ}
    (hfg : ∀ a c, r a c → Both q (f a) (g c)) : Both q (x >>= f) (y >>= g) := by
  cases h with
  | error e e' => exact .error e e'
  | ok h => exact hfg _ _ h

/-- Both succeed or none does. -/
lemma Both.iff (h : Both r x y) : (∃ a, x = .ok a) ↔ ∃ c, y = .ok c := by
  cases h with
  | error e e' => simp
  | ok h => simp

lemma Both.of_ok {a : α} {c : γ} (h : Both r x y) (hx : x = .ok a) (hy : y = .ok c) : r a c := by
  cases h with
  | error e e' => cases hx
  | ok h =>
    cases hx
    cases hy
    exact h

end Both

lemma eq_ok_iff_toOption {x : Except ε α} {a : α} : x = .ok a ↔ x.toOption = some a := by
  cases x <;> simp [Except.toOption]

/-- What every turn of a loop preserves holds at its end. -/
lemma foldlM_invariant {f : β → α → Except ε β} {P : β → Prop} {xs : List α} {b c : β}
    (hstep : ∀ b x c, x ∈ xs → P b → f b x = .ok c → P c) (hb : P b)
    (h : xs.foldlM f b = .ok c) : P c := by
  induction xs generalizing b with
  | nil =>
    rw [List.foldlM_nil, pure_eq_ok] at h
    exact h ▸ hb
  | cons x xs ih =>
    rw [List.foldlM_cons, bind_eq_ok] at h
    obtain ⟨d, hd, h⟩ := h
    exact ih (fun b y c hy => hstep b y c (List.mem_cons_of_mem _ hy))
      (hstep b x d List.mem_cons_self hb hd) h

/-- A loop whose turns do not depend on each other succeeds when its turns do. -/
lemma exists_foldlM_eq_ok {f : β → α → Except ε β} {q : α → Prop}
    (hf : ∀ b x, (∃ c, f b x = .ok c) ↔ q x) (xs : List α) (b : β) :
    (∃ c, xs.foldlM f b = .ok c) ↔ ∀ x ∈ xs, q x := by
  induction xs generalizing b with
  | nil => simp [pure, Except.pure]
  | cons x xs ih =>
    rw [List.foldlM_cons, exists_bind_eq_ok, List.forall_mem_cons, ← hf b x]
    simp only [ih]
    constructor
    · rintro ⟨c, hc, hrest⟩
      exact ⟨⟨c, hc⟩, hrest⟩
    · rintro ⟨⟨c, hc⟩, hrest⟩
      exact ⟨c, hc, hrest⟩

/-- What a filter that succeeds keeps, and what it drops. -/
lemma filterM_eq_ok {p : α → Except ε Bool} {xs ys : List α} (h : xs.filterM p = .ok ys) :
    (∀ y ∈ ys, y ∈ xs ∧ p y = .ok true) ∧ ∀ x ∈ xs, x ∈ ys ∨ p x = .ok false := by
  have hloop : ∀ (xs acc zs : List α), xs.filterAuxM p acc = .ok zs →
      (∀ z ∈ zs, z ∈ acc ∨ (z ∈ xs ∧ p z = .ok true)) ∧ (∀ a ∈ acc, a ∈ zs) ∧
        ∀ x ∈ xs, x ∈ zs ∨ p x = .ok false := by
    intro xs
    induction xs with
    | nil =>
      intro acc zs hz
      rw [List.filterAuxM, pure_eq_ok] at hz
      subst hz
      exact ⟨fun z hz => .inl hz, fun a ha => ha, by simp⟩
    | cons x xs ih =>
      intro acc zs hz
      rw [List.filterAuxM, bind_eq_ok] at hz
      obtain ⟨b, hb, hz⟩ := hz
      obtain ⟨hkept, hacc, hall⟩ := ih _ zs hz
      refine ⟨fun z hzs => ?_, fun a ha => hacc a ?_, fun y hy => ?_⟩
      · rcases hkept z hzs with hz | ⟨hz, hp⟩
        · cases b with
          | true =>
            rcases List.mem_cons.mp hz with rfl | hz
            · exact .inr ⟨List.mem_cons_self, hb⟩
            · exact .inl hz
          | false => exact .inl hz
        · exact .inr ⟨List.mem_cons_of_mem _ hz, hp⟩
      · cases b with
        | true => exact List.mem_cons_of_mem _ ha
        | false => exact ha
      · rcases List.mem_cons.mp hy with rfl | hy
        · cases b with
          | true => exact .inl (hacc y List.mem_cons_self)
          | false => exact .inr hb
        · exact hall y hy
  rw [List.filterM, bind_eq_ok] at h
  obtain ⟨zs, hzs, h⟩ := h
  rw [pure_eq_ok] at h
  subst h
  obtain ⟨hkept, -, hall⟩ := hloop xs [] zs hzs
  refine ⟨fun y hy => ?_, fun x hx => ?_⟩
  · rcases hkept y (List.mem_reverse.mp hy) with hy | hy
    · cases hy
    · exact hy
  · exact (hall x hx).imp_left List.mem_reverse.mpr

end Except

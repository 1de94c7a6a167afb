import Mathlib.Data.Multiset.Filter
import NocReport.Foundation.Text
import NocReport.Foundation.Transition

set_option relaxedAutoImplicit false
set_option autoImplicit false
set_option linter.unusedSectionVars false

/-!
# A message broker

An AMQP broker with durable exchanges and queues: what a client declares, where a published
message goes, and what becomes of it until it is acknowledged. A queue may dead-letter what is
rejected and what expires to another exchange. The order in which a queue delivers is left open,
so the messages that wait in it are a multiset.

## Main definitions

* `Amqp.Topology` — what has been declared; `Amqp.Declaration`, `Amqp.Topology.declare`.
* `Amqp.Topology.routed` — the queues that a published message goes to.
* `Amqp.Store` — the messages of a broker, and what can be done with them.
* `Amqp.Broker`, `Amqp.Op`, `Amqp.Broker.step` — a broker, and the operations of its clients.
* `Amqp.Store.restrict` — a part of the queues as a store of its own.

## Main results

* `Amqp.Topology.declareAll_again` — declaring the same things again changes nothing.
* `Amqp.Store.step_restrict` — a part of the queues that dead-letters among itself is a store of
  its own.
-/

namespace Amqp

/-! ## Declarations -/

inductive ExchangeType
  | direct | topic
  deriving DecidableEq, Repr

/-- The arguments of a queue. One that dead-letters names the exchange and the routing key. -/
structure Arguments where
  deadLetter : Option (PyStr × PyStr)
  messageTtl : Option ℕ
  deriving DecidableEq, Repr

/-- What a client asks of the broker before it uses it. -/
inductive Declaration
  | exchange (name : PyStr) (type : ExchangeType)
  | queue (name : PyStr) (arguments : Arguments)
  | bind (queue exchange : PyStr) (key : PyStr)
  deriving DecidableEq, Repr

/-- What has been declared. -/
structure Topology where
  exchanges : List (PyStr × ExchangeType)
  queues : List (PyStr × Arguments)
  bindings : List (PyStr × PyStr × PyStr)
  deriving DecidableEq, Repr

namespace Topology

def empty : Topology := ⟨[], [], []⟩

/-- A declaration. What exists already must have been declared in the same way, and a binding is
between a queue and an exchange that exist; otherwise the broker closes the channel. -/
def declare (T : Topology) : Declaration → Option Topology
  | .exchange name type =>
    match T.exchanges.lookup name with
    | none => some { T with exchanges := T.exchanges ++ [(name, type)] }
    | some type' => if type' = type then some T else none
  | .queue name arguments =>
    match T.queues.lookup name with
    | none => some { T with queues := T.queues ++ [(name, arguments)] }
    | some arguments' => if arguments' = arguments then some T else none
  | .bind queue exchange key =>
    if (T.queues.lookup queue).isSome ∧ (T.exchanges.lookup exchange).isSome then
      some (if (queue, exchange, key) ∈ T.bindings then T
        else { T with bindings := T.bindings ++ [(queue, exchange, key)] })
    else none

/-- Declarations one after the other. -/
def declareAll (T : Topology) (ds : List Declaration) : Option Topology := ds.foldlM declare T

/-- What is declared is there. -/
def Has (T : Topology) : Declaration → Prop
  | .exchange name type => T.exchanges.lookup name = some type
  | .queue name arguments => T.queues.lookup name = some arguments
  | .bind queue exchange key =>
    (T.queues.lookup queue).isSome ∧ (T.exchanges.lookup exchange).isSome ∧
      (queue, exchange, key) ∈ T.bindings

variable {T T' : Topology} {d d' : Declaration} {ds : List Declaration}

lemma lookup_append_of_some {α β : Type} [BEq α] {l l' : List (α × β)} {a : α} {b : β}
    (h : l.lookup a = some b) : (l ++ l').lookup a = some b := by
  rw [List.lookup_append, h]
  rfl

lemma lookup_append_self {α β : Type} [BEq α] [LawfulBEq α] {l : List (α × β)} {a : α} {b : β}
    (h : l.lookup a = none) : (l ++ [(a, b)]).lookup a = some b := by
  simp [List.lookup_append, h]

/-- After a declaration, what it declares is there. -/
lemma has_declare (h : T.declare d = some T') : T'.Has d := by
  cases d with
  | exchange name type =>
    simp only [declare] at h
    split at h
    · next hl =>
      cases h
      exact lookup_append_self hl
    · next type' hl =>
      split at h
      · next ht =>
        cases h
        rw [Has, hl, ht]
      · cases h
  | queue name arguments =>
    simp only [declare] at h
    split at h
    · next hl =>
      cases h
      exact lookup_append_self hl
    · next arguments' hl =>
      split at h
      · next ha =>
        cases h
        rw [Has, hl, ha]
      · cases h
  | bind queue exchange key =>
    simp only [declare] at h
    split at h
    · next hq =>
      cases h
      split
      · next hb => exact ⟨hq.1, hq.2, hb⟩
      · exact ⟨hq.1, hq.2, by simp⟩
    · cases h

/-- A declaration keeps what is there. -/
lemma Has.declare (hT : T.Has d') (h : T.declare d = some T') : T'.Has d' := by
  have key : (∀ x y, T.exchanges.lookup x = some y → T'.exchanges.lookup x = some y) ∧
      (∀ x y, T.queues.lookup x = some y → T'.queues.lookup x = some y) ∧
      ∀ b ∈ T.bindings, b ∈ T'.bindings := by
    cases d with
    | exchange name type =>
      simp only [Topology.declare] at h
      split at h
      · cases h
        exact ⟨fun _ _ hx => lookup_append_of_some hx, fun _ _ hx => hx, fun _ hb => hb⟩
      · split at h
        · cases h
          exact ⟨fun _ _ hx => hx, fun _ _ hx => hx, fun _ hb => hb⟩
        · cases h
    | queue name arguments =>
      simp only [Topology.declare] at h
      split at h
      · cases h
        exact ⟨fun _ _ hx => hx, fun _ _ hx => lookup_append_of_some hx, fun _ hb => hb⟩
      · split at h
        · cases h
          exact ⟨fun _ _ hx => hx, fun _ _ hx => hx, fun _ hb => hb⟩
        · cases h
    | bind queue exchange key =>
      simp only [Topology.declare] at h
      split at h
      · cases h
        split
        · exact ⟨fun _ _ hx => hx, fun _ _ hx => hx, fun _ hb => hb⟩
        · exact ⟨fun _ _ hx => hx, fun _ _ hx => hx, fun _ hb => List.mem_append_left _ hb⟩
      · cases h
  obtain ⟨hx, hq, hb⟩ := key
  cases d' with
  | exchange name type => exact hx _ _ hT
  | queue name arguments => exact hq _ _ hT
  | bind queue exchange k =>
    obtain ⟨h1, h2, h3⟩ := hT
    obtain ⟨a, ha⟩ := Option.isSome_iff_exists.mp h1
    obtain ⟨b, hb'⟩ := Option.isSome_iff_exists.mp h2
    exact ⟨by rw [hq _ _ ha]; rfl, by rw [hx _ _ hb']; rfl, hb _ h3⟩

/-- What is there can be declared again, and nothing changes. -/
lemma Has.declare_eq (hT : T.Has d) : T.declare d = some T := by
  cases d with
  | exchange name type =>
    have hl : T.exchanges.lookup name = some type := hT
    simp [Topology.declare, hl]
  | queue name arguments =>
    have hl : T.queues.lookup name = some arguments := hT
    simp [Topology.declare, hl]
  | bind queue exchange key =>
    obtain ⟨hq, hx, hb⟩ := hT
    simp [Topology.declare, hq, hx, hb]

lemma Has.declareAll (hT : T.Has d) (h : T.declareAll ds = some T') : T'.Has d := by
  induction ds generalizing T with
  | nil =>
    cases h
    exact hT
  | cons e ds ih =>
    simp only [Topology.declareAll, List.foldlM_cons] at h
    obtain ⟨U, hU, h⟩ := Option.bind_eq_some_iff.mp h
    exact ih (hT.declare hU) h

lemma has_of_declareAll (h : T.declareAll ds = some T') : ∀ d ∈ ds, T'.Has d := by
  induction ds generalizing T with
  | nil => simp
  | cons e ds ih =>
    simp only [declareAll, List.foldlM_cons] at h
    obtain ⟨U, hU, hrest⟩ := Option.bind_eq_some_iff.mp h
    intro d hd
    rcases List.mem_cons.mp hd with rfl | hd
    · exact (has_declare hU).declareAll hrest
    · exact ih hrest d hd

/-- **Declaring the same things again changes nothing.** -/
theorem declareAll_again (h : T.declareAll ds = some T') : T'.declareAll ds = some T' := by
  have hall := has_of_declareAll h
  clear h
  induction ds with
  | nil => rfl
  | cons d ds ih =>
    simp only [declareAll, List.foldlM_cons, (hall d List.mem_cons_self).declare_eq]
    exact ih fun d hd => hall d (List.mem_cons_of_mem _ hd)

lemma lookup_append_single {α β : Type} [BEq α] [LawfulBEq α] {l : List (α × β)} {a x : α}
    {b y : β} (h : (l ++ [(a, b)]).lookup x = some y) :
    l.lookup x = some y ∨ (x = a ∧ y = b) := by
  rw [List.lookup_append] at h
  cases hl : l.lookup x with
  | some z =>
    rw [hl] at h
    exact .inl h
  | none =>
    rw [hl] at h
    by_cases hx : x = a
    · subst hx
      simp only [List.lookup_cons, beq_self_eq_true, Option.none_or,
        Option.some.injEq] at h
      exact .inr ⟨rfl, h.symm⟩
    · have hne : (x == a) = false := by simpa using hx
      simp [List.lookup_cons, hne] at h

/-- A declaration adds what it declares, and nothing else. -/
lemma of_declare (h : T.declare d = some T') :
    (∀ x type, T'.exchanges.lookup x = some type →
      T.exchanges.lookup x = some type ∨ d = .exchange x type) ∧
    (∀ q arguments, T'.queues.lookup q = some arguments →
      T.queues.lookup q = some arguments ∨ d = .queue q arguments) ∧
    ∀ b ∈ T'.bindings, b ∈ T.bindings ∨ d = .bind b.1 b.2.1 b.2.2 := by
  cases d with
  | exchange name type =>
    simp only [declare] at h
    split at h
    · cases h
      refine ⟨fun x type' hx => ?_, fun _ _ h => .inl h, fun _ h => .inl h⟩
      rcases lookup_append_single hx with hx | ⟨rfl, rfl⟩
      · exact .inl hx
      · exact .inr rfl
    · split at h
      · cases h
        exact ⟨fun _ _ h => .inl h, fun _ _ h => .inl h, fun _ h => .inl h⟩
      · cases h
  | queue name arguments =>
    simp only [declare] at h
    split at h
    · cases h
      refine ⟨fun _ _ h => .inl h, fun q arguments' hq => ?_, fun _ h => .inl h⟩
      rcases lookup_append_single hq with hq | ⟨rfl, rfl⟩
      · exact .inl hq
      · exact .inr rfl
    · split at h
      · cases h
        exact ⟨fun _ _ h => .inl h, fun _ _ h => .inl h, fun _ h => .inl h⟩
      · cases h
  | bind queue exchange key =>
    simp only [declare] at h
    split at h
    · cases h
      refine ⟨?_, ?_, fun b hb => ?_⟩
      · split <;> exact fun _ _ h => .inl h
      · split <;> exact fun _ _ h => .inl h
      · split at hb
        · exact .inl hb
        · rcases List.mem_append.mp hb with hb | hb
          · exact .inl hb
          · obtain rfl := List.mem_singleton.mp hb
            exact .inr rfl
    · cases h

/-- Nothing is there that was not there before and has not been declared. -/
lemma of_declareAll (h : T.declareAll ds = some T') :
    (∀ x type, T'.exchanges.lookup x = some type →
      T.exchanges.lookup x = some type ∨ .exchange x type ∈ ds) ∧
    (∀ q arguments, T'.queues.lookup q = some arguments →
      T.queues.lookup q = some arguments ∨ .queue q arguments ∈ ds) ∧
    ∀ b ∈ T'.bindings, b ∈ T.bindings ∨ .bind b.1 b.2.1 b.2.2 ∈ ds := by
  induction ds generalizing T with
  | nil =>
    cases h
    exact ⟨fun _ _ h => .inl h, fun _ _ h => .inl h, fun _ h => .inl h⟩
  | cons d ds ih =>
    simp only [declareAll, List.foldlM_cons] at h
    obtain ⟨U, hU, hrest⟩ := Option.bind_eq_some_iff.mp h
    obtain ⟨hx, hq, hb⟩ := ih hrest
    obtain ⟨hx', hq', hb'⟩ := of_declare hU
    refine ⟨fun x type h => ?_, fun q arguments h => ?_, fun b h => ?_⟩
    · rcases hx x type h with h | h
      · exact (hx' x type h).imp_right fun h => List.mem_cons.mpr (.inl h.symm)
      · exact .inr (List.mem_cons_of_mem _ h)
    · rcases hq q arguments h with h | h
      · exact (hq' q arguments h).imp_right fun h => List.mem_cons.mpr (.inl h.symm)
      · exact .inr (List.mem_cons_of_mem _ h)
    · rcases hb b h with h | h
      · exact (hb' b h).imp_right fun h => List.mem_cons.mpr (.inl h.symm)
      · exact .inr (List.mem_cons_of_mem _ h)

/-! ## Routing -/

/-- A topic pattern, split at its dots, matches a routing key: `*` stands for one word and `#` for
any number of words. -/
def topicMatches : List PyStr → List PyStr → Bool
  | [], key => key.isEmpty
  | w :: pattern, key =>
    if w = py "#" then
      topicMatches pattern key ||
        match key with
        | [] => false
        | _ :: key => topicMatches (w :: pattern) key
    else
      match key with
      | [] => false
      | k :: key => (w = py "*" || w = k) && topicMatches pattern key
  termination_by pattern key => pattern.length + key.length

/-- A binding of an exchange of this type takes a message with this routing key. -/
def takes (type : ExchangeType) (binding key : PyStr) : Bool :=
  match type with
  | .direct => binding = key
  | .topic => topicMatches (binding.splitOn 46) (key.splitOn 46)

/-- The queues that a message published to an exchange goes to. -/
def routed (T : Topology) (exchange key : PyStr) : List PyStr :=
  match T.exchanges.lookup exchange with
  | none => []
  | some type =>
    (T.bindings.filter fun b => b.2.1 = exchange ∧ takes type b.2.2 key).map (·.1)

lemma mem_routed {q exchange key : PyStr} :
    q ∈ T.routed exchange key ↔ ∃ type k, T.exchanges.lookup exchange = some type ∧
      (q, exchange, k) ∈ T.bindings ∧ takes type k key = true := by
  unfold routed
  cases T.exchanges.lookup exchange with
  | none => simp
  | some type =>
    simp only [List.mem_map, List.mem_filter, decide_eq_true_eq, Option.some.injEq]
    constructor
    · rintro ⟨⟨q', x, k⟩, ⟨hb, hx, ht⟩, rfl⟩
      obtain rfl : x = exchange := hx
      exact ⟨type, k, rfl, hb, ht⟩
    · rintro ⟨type', k, rfl, hb, ht⟩
      exact ⟨(q, exchange, k), ⟨hb, rfl, ht⟩, rfl⟩

lemma mem_routed_direct {q exchange key : PyStr}
    (hx : T.exchanges.lookup exchange = some .direct) :
    q ∈ T.routed exchange key ↔ (q, exchange, key) ∈ T.bindings := by
  simp only [mem_routed, hx, Option.some.injEq, takes]
  constructor
  · rintro ⟨_, k, rfl, hb, hk⟩
    obtain rfl : k = key := by simpa using hk
    exact hb
  · exact fun hb => ⟨.direct, key, rfl, hb, by simp⟩

end Topology

/-! ## Messages -/

/-- The messages of a broker: those that wait in its queues `Q`, and those it has delivered to a
client `C` and waits for an acknowledgement of. -/
@[ext]
structure Store (Q C M : Type) where
  ready : Q → Multiset M
  unacked : Multiset (C × Q × M)

namespace Store

variable {Q Q' C M : Type}

def empty : Store Q C M := ⟨fun _ => 0, 0⟩

section Operations

variable [DecidableEq Q] [DecidableEq C] [DecidableEq M] (s : Store Q C M)

/-- A message goes to some queues, to each of them once. -/
@[simps]
def enqueue (qs : List Q) (m : M) : Store Q C M :=
  { s with ready := fun q => if q ∈ qs then m ::ₘ s.ready q else s.ready q }

/-- A message that waits in a queue leaves it. -/
@[simps]
def take (q : Q) (m : M) : Store Q C M :=
  { s with ready := Function.update s.ready q ((s.ready q).erase m) }

/-- A message is delivered. -/
@[simps!]
def deliver (c : C) (q : Q) (m : M) : Store Q C M :=
  { s.take q m with unacked := (c, q, m) ::ₘ s.unacked }

/-- The broker no longer waits for an acknowledgement. -/
@[simps]
def settle (c : C) (q : Q) (m : M) : Store Q C M := { s with unacked := s.unacked.erase (c, q, m) }

/-- What these clients have not acknowledged goes back to its queue. -/
@[simps]
def takeBack (lost : C → Bool) : Store Q C M where
  ready := fun q => s.ready q +
    (s.unacked.filter fun d => lost d.1 = true ∧ d.2.1 = q).map (·.2.2)
  unacked := s.unacked.filter fun d => lost d.1 = false

/-- What is only in the memory of the broker is lost. -/
@[simps]
def forget (persistent : M → Bool) : Store Q C M :=
  { s with ready := fun q => (s.ready q).filter fun m => persistent m = true }

/-- A queue is emptied. -/
@[simps]
def purge (q : Q) : Store Q C M := { s with ready := Function.update s.ready q 0 }

end Operations

/-- What can happen to the messages, once it is known which queues a message goes to. -/
inductive Op (Q C M : Type)
  | publish (qs : List Q) (m : M)
  | deliver (c : C) (q : Q) (m : M)
  | ack (c : C) (q : Q) (m : M)
  /-- a negative acknowledgement without requeueing -/
  | reject (c : C) (q : Q) (m : M)
  /-- the time to live of a message is over -/
  | expire (q : Q) (m : M)
  | disconnect (c : C)
  | restart
  | purge (q : Q)
  deriving DecidableEq

/-- What a store needs to know of the declarations: where a queue dead-letters to, and whether its
messages expire; and of a message, whether it is persistent. -/
structure Rules (Q M : Type) where
  deadLetter : Q → List Q
  expires : Q → Bool
  persistent : M → Bool

section Step

variable [DecidableEq Q] [DecidableEq C] [DecidableEq M] (rules : Rules Q M) (s : Store Q C M)

/-- One step of a store. -/
def step : Op Q C M → Option (Store Q C M)
  | .publish qs m => some (s.enqueue qs m)
  | .deliver c q m => if m ∈ s.ready q then some (s.deliver c q m) else none
  | .ack c q m => if (c, q, m) ∈ s.unacked then some (s.settle c q m) else none
  | .reject c q m =>
    if (c, q, m) ∈ s.unacked then some ((s.settle c q m).enqueue (rules.deadLetter q) m) else none
  | .expire q m =>
    if rules.expires q = true ∧ m ∈ s.ready q then
      some ((s.take q m).enqueue (rules.deadLetter q) m)
    else none
  | .disconnect c => some (s.takeBack fun c' => c' = c)
  | .restart => some ((s.takeBack fun _ => true).forget rules.persistent)
  | .purge q => some (s.purge q)

end Step

/-! ### A part of the queues -/

/-- The part of a store that is in the queues `queue q`; `part` finds their names. -/
@[simps]
def restrict (queue : Q' → Q) (part : Q → Option Q') (s : Store Q C M) : Store Q' C M where
  ready := fun q => s.ready (queue q)
  unacked := s.unacked.filterMap fun d => (part d.2.1).map fun q => (d.1, q, d.2.2)

/-- What an operation is for a part of the queues, if it is anything. -/
def Op.restrict (part : Q → Option Q') : Op Q C M → Option (Op Q' C M)
  | .publish qs m => some (.publish (qs.filterMap part) m)
  | .deliver c q m => (part q).map fun q' => .deliver c q' m
  | .ack c q m => (part q).map fun q' => .ack c q' m
  | .reject c q m => (part q).map fun q' => .reject c q' m
  | .expire q m => (part q).map fun q' => .expire q' m
  | .disconnect c => some (.disconnect c)
  | .restart => some .restart
  | .purge q => (part q).map .purge

/-- The queues `queue q` are a part of all queues that dead-letters among itself. -/
structure IsPart (queue : Q' → Q) (part : Q → Option Q') (rules : Rules Q M)
    (rules' : Rules Q' M) : Prop where
  part_eq_some : ∀ q q', part q = some q' ↔ q = queue q'
  inside : ∀ q' x, queue x ∈ rules.deadLetter (queue q') ↔ x ∈ rules'.deadLetter q'
  outside : ∀ q x, part q = none → queue x ∉ rules.deadLetter q
  expires : ∀ q', rules.expires (queue q') = rules'.expires q'
  persistent : rules.persistent = rules'.persistent

variable [DecidableEq Q] [DecidableEq Q'] [DecidableEq C] [DecidableEq M] {queue : Q' → Q}
  {part : Q → Option Q'} {rules : Rules Q M} {rules' : Rules Q' M} {s t : Store Q C M} {c : C}
  {q : Q} {q' : Q'} {m : M}

/-- What goes to some queues goes to those of a part that are among them. -/
lemma restrict_enqueue {qs : List Q} {qs' : List Q'} (h : ∀ x, queue x ∈ qs ↔ x ∈ qs') :
    (s.enqueue qs m).restrict queue part = (s.restrict queue part).enqueue qs' m := by
  ext1
  · funext x
    simp [h]
  · rfl

lemma restrict_enqueue_outside {qs : List Q} (h : ∀ x, queue x ∉ qs) :
    (s.enqueue qs m).restrict queue part = s.restrict queue part := by
  ext1
  · funext x
    simp [h]
  · rfl

section Part

variable (hpart : ∀ q q', part q = some q' ↔ q = queue q')
include hpart

lemma part_queue (q' : Q') : part (queue q') = some q' := (hpart _ q').mpr rfl

lemma queue_inj {q₁ q₂ : Q'} : queue q₁ = queue q₂ ↔ q₁ = q₂ := by
  refine ⟨fun h => ?_, fun h => h ▸ rfl⟩
  have h₁ := part_queue hpart q₁
  rw [h, part_queue hpart q₂] at h₁
  exact (Option.some.inj h₁).symm

lemma queue_ne (h : part q = none) : queue q' ≠ q := by
  rintro rfl
  rw [part_queue hpart] at h
  cases h

/-- What is unacknowledged in a part of the queues. -/
lemma mem_restrict_unacked :
    (c, q', m) ∈ (s.restrict queue part).unacked ↔ (c, queue q', m) ∈ s.unacked := by
  simp only [restrict_unacked, Multiset.mem_filterMap, Option.map_eq_some_iff]
  constructor
  · rintro ⟨⟨c₁, q₁, m₁⟩, hd, q₂, hq, heq⟩
    cases heq
    rwa [← (hpart _ _).mp hq]
  · exact fun h => ⟨_, h, q', part_queue hpart q', rfl⟩

lemma restrict_take : (s.take (queue q') m).restrict queue part =
    (s.restrict queue part).take q' m := by
  ext1
  · funext q₁
    by_cases h : q₁ = q'
    · subst h
      simp
    · simp [h, queue_inj hpart]
  · rfl

lemma restrict_take_outside (h : part q = none) :
    (s.take q m).restrict queue part = s.restrict queue part := by
  ext1
  · funext q₁
    simp [queue_ne hpart h]
  · rfl

lemma restrict_deliver : (s.deliver c (queue q') m).restrict queue part =
    (s.restrict queue part).deliver c q' m := by
  ext1
  · change ((s.take (queue q') m).restrict queue part).ready = _
    rw [restrict_take hpart]
    rfl
  · simp [part_queue hpart]

lemma restrict_deliver_outside (h : part q = none) :
    (s.deliver c q m).restrict queue part = s.restrict queue part := by
  ext1
  · change ((s.take q m).restrict queue part).ready = _
    rw [restrict_take_outside hpart h]
  · simp [h]

lemma restrict_settle (h : (c, queue q', m) ∈ s.unacked) :
    (s.settle c (queue q') m).restrict queue part = (s.restrict queue part).settle c q' m := by
  obtain ⟨u, hu⟩ := Multiset.exists_cons_of_mem h
  ext1
  · rfl
  · simp [hu, part_queue hpart]

lemma restrict_settle_outside (h : (c, q, m) ∈ s.unacked) (hq : part q = none) :
    (s.settle c q m).restrict queue part = s.restrict queue part := by
  obtain ⟨u, hu⟩ := Multiset.exists_cons_of_mem h
  ext1
  · rfl
  · simp [hu, hq]

lemma restrict_takeBack (lost : C → Bool) : (s.takeBack lost).restrict queue part =
    (s.restrict queue part).takeBack lost := by
  ext1
  · funext q'
    simp only [restrict_ready, takeBack_ready, restrict_unacked]
    congr 1
    induction s.unacked using Multiset.induction with
    | empty => rfl
    | cons d u ih =>
      obtain ⟨c, q, m⟩ := d
      cases hq : part q with
      | none => simp [hq, ih, (queue_ne hpart hq).symm]
      | some q₁ =>
        obtain rfl := (hpart _ _).mp hq
        by_cases hl : lost c = true ∧ q₁ = q'
        · obtain ⟨hl, rfl⟩ := hl
          simp [hq, hl, ih]
        · simp [hq, hl, ih, queue_inj hpart]
  · simp only [restrict_unacked, takeBack_unacked]
    induction s.unacked using Multiset.induction with
    | empty => rfl
    | cons d u ih =>
      obtain ⟨c, q, m⟩ := d
      cases hq : part q <;> cases hl : lost c <;> simp [hq, hl, ih]

lemma restrict_purge : (s.purge (queue q')).restrict queue part =
    (s.restrict queue part).purge q' := by
  ext1
  · funext q₁
    by_cases h : q₁ = q'
    · subst h
      simp
    · simp [h, queue_inj hpart]
  · rfl

lemma restrict_purge_outside (h : part q = none) :
    (s.purge q).restrict queue part = s.restrict queue part := by
  ext1
  · funext q₁
    simp [queue_ne hpart h]
  · rfl

end Part

/-- A step of a store is a step of each part of it, or nothing. -/
theorem step_restrict {op : Op Q C M} (hp : IsPart queue part rules rules')
    (h : s.step rules op = some t) :
    (op.restrict part).elim (t.restrict queue part = s.restrict queue part) fun op' =>
      (s.restrict queue part).step rules' op' = some (t.restrict queue part) := by
  have hpart := hp.part_eq_some
  cases op with
  | publish qs m =>
    cases h
    refine congrArg some (restrict_enqueue fun x => ?_).symm
    simp only [List.mem_filterMap, hpart, exists_eq_right]
  | deliver c q m =>
    simp only [step] at h
    split at h
    · next hm =>
      cases h
      cases hq : part q with
      | none => simpa [Op.restrict, hq] using restrict_deliver_outside hpart hq
      | some q' =>
        obtain rfl := (hpart _ _).mp hq
        simp [Op.restrict, hq, step, hm, restrict_deliver hpart]
    · cases h
  | ack c q m =>
    simp only [step] at h
    split at h
    · next hm =>
      cases h
      cases hq : part q with
      | none => simpa [Op.restrict, hq] using restrict_settle_outside hpart hm hq
      | some q' =>
        obtain rfl := (hpart _ _).mp hq
        have hm' := (mem_restrict_unacked hpart).mpr hm
        simp only [Op.restrict, hq, Option.map_some, Option.elim_some, step]
        rw [if_pos hm', restrict_settle hpart hm]
    · cases h
  | reject c q m =>
    simp only [step] at h
    split at h
    · next hm =>
      cases h
      cases hq : part q with
      | none =>
        simp only [Op.restrict, hq, Option.map_none, Option.elim_none]
        rw [restrict_enqueue_outside fun x => hp.outside q x hq,
          restrict_settle_outside hpart hm hq]
      | some q' =>
        obtain rfl := (hpart _ _).mp hq
        have hm' := (mem_restrict_unacked hpart).mpr hm
        simp only [Op.restrict, hq, Option.map_some, Option.elim_some, step]
        rw [if_pos hm', restrict_enqueue (hp.inside q'), restrict_settle hpart hm]
    · cases h
  | expire q m =>
    simp only [step] at h
    split at h
    · next hm =>
      cases h
      cases hq : part q with
      | none =>
        simp only [Op.restrict, hq, Option.map_none, Option.elim_none]
        rw [restrict_enqueue_outside fun x => hp.outside q x hq,
          restrict_take_outside hpart hq]
      | some q' =>
        obtain rfl := (hpart _ _).mp hq
        simp only [Op.restrict, hq, Option.map_some, Option.elim_some, step]
        rw [if_pos ⟨hp.expires q' ▸ hm.1, hm.2⟩, restrict_enqueue (hp.inside q'),
          restrict_take hpart]
    · cases h
  | disconnect c =>
    cases h
    exact congrArg some (restrict_takeBack hpart _).symm
  | restart =>
    cases h
    refine congrArg some ?_
    rw [← restrict_takeBack hpart, ← hp.persistent]
    rfl
  | purge q =>
    cases h
    cases hq : part q with
    | none => simpa [Op.restrict, hq] using restrict_purge_outside hpart hq
    | some q' =>
      obtain rfl := (hpart _ _).mp hq
      simp [Op.restrict, hq, step, restrict_purge hpart]

/-- An operation on a queue of a part is enabled when it is for the part. -/
lemma step_isSome {op : Op Q C M} {op' : Op Q' C M} (hp : IsPart queue part rules rules')
    (hop : op.restrict part = some op')
    (h : ((s.restrict queue part).step rules' op').isSome) : (s.step rules op).isSome := by
  have hpart := hp.part_eq_some
  cases op with
  | publish | disconnect | restart | purge => rfl
  | deliver c q m =>
    obtain ⟨q', hq, rfl⟩ := Option.map_eq_some_iff.mp hop
    obtain rfl := (hpart _ _).mp hq
    simpa [step] using h
  | ack c q m =>
    obtain ⟨q', hq, rfl⟩ := Option.map_eq_some_iff.mp hop
    obtain rfl := (hpart _ _).mp hq
    simp only [step, Option.isSome_ite, mem_restrict_unacked hpart] at h ⊢
    exact h
  | reject c q m =>
    obtain ⟨q', hq, rfl⟩ := Option.map_eq_some_iff.mp hop
    obtain rfl := (hpart _ _).mp hq
    simp only [step, Option.isSome_ite, mem_restrict_unacked hpart] at h ⊢
    exact h
  | expire q m =>
    obtain ⟨q', hq, rfl⟩ := Option.map_eq_some_iff.mp hop
    obtain rfl := (hpart _ _).mp hq
    simpa [step, hp.expires] using h

end Store

/-! ## Brokers -/

/-- A broker: what has been declared, and the messages. -/
structure Broker (C M : Type) where
  topology : Topology
  store : Store PyStr C M

/-- What a client can ask of a broker, and what happens to it. -/
inductive Op (C M : Type)
  | publish (exchange key : PyStr) (m : M)
  | deliver (c : C) (queue : PyStr) (m : M)
  | ack (c : C) (queue : PyStr) (m : M)
  | reject (c : C) (queue : PyStr) (m : M)
  | expire (queue : PyStr) (m : M)
  | disconnect (c : C)
  | restart
  | purge (queue : PyStr)
  deriving DecidableEq

variable {C M : Type}

/-- What the declarations say about queues. -/
@[simps]
def Topology.rules (T : Topology) (persistent : M → Bool) : Store.Rules PyStr M where
  deadLetter := fun q =>
    ((T.queues.lookup q).bind (·.deadLetter)).elim [] fun d => T.routed d.1 d.2
  expires := fun q => ((T.queues.lookup q).bind (·.messageTtl)).isSome
  persistent := persistent

/-- An operation, once a published message is routed. -/
def Op.route (T : Topology) : Op C M → Store.Op PyStr C M
  | .publish exchange key m => .publish (T.routed exchange key) m
  | .deliver c q m => .deliver c q m
  | .ack c q m => .ack c q m
  | .reject c q m => .reject c q m
  | .expire q m => .expire q m
  | .disconnect c => .disconnect c
  | .restart => .restart
  | .purge q => .purge q

namespace Broker

variable [DecidableEq C] [DecidableEq M] (persistent : M → Bool) (b : Broker C M)

/-- One step of a broker; its declarations stay. -/
def step (op : Op C M) : Option (Broker C M) :=
  (b.store.step (b.topology.rules persistent) (op.route b.topology)).map fun store =>
    { b with store }

end Broker

end Amqp

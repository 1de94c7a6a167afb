import Mathlib.Data.List.Perm.Subperm
import NocReport.Foundation.JsonDecoder
import NocReport.Foundation.Threads
import NocReport.Foundation.Transition

set_option relaxedAutoImplicit false
set_option autoImplicit false

/-!
# Calls of the local model

The adapter to the local model admits a bounded number of calls and runs one of them at a time
(`app/local_inference.py`). It is made by the first call that needs it, and kept
(`configured_local_inference` in `app/incident_prefill.py`): calls that ask for it before it has
been kept make one each, and keep using their own. The calls run in threads of one process, and a
step of the model is what a thread does without another one seeing its middle.

## Main definitions

* `LocalInference.readReply`, `LocalInference.completeWithBoundedRetry` — what is taken from a
  reply of the model, and the two attempts of a call.
* `LocalInference.Phase`, `LocalInference.State`, `LocalInference.step` — the calls and the adapters
  of a process.
* `LocalInference.State.inFlight` — the adapters of the requests that the model is working on.
* `LocalInference.Proceeds` — what a call can do by itself.
* `LocalInference.Inv` — the slots and the locks are those of the calls that hold them.

## Main results

* `LocalInference.inFlight_le` — no adapter has two requests in flight, and so the process has at
  most one more than adapters were made too late.
-/

namespace LocalInference

/-! ## One call -/

/-- What `httpx.post`, `raise_for_status` and `json` make of a request. -/
abbrev Reply := Except PyError Json

/-- What the process was configured with. -/
structure Settings where
  enabled : Bool
  provider : PyStr
  model : PyStr
  contextSize : ℤ
  keepAlive : PyStr
  maxConcurrency : ℤ
  maxQueue : ℤ

/-- The libraries: JSON, and `str(exc)`. -/
structure Env extends PyJson.Lib where
  errorText : PyError → PyStr

/-- `httpx.HTTPError`. -/
def httpError (message : PyStr) : PyError := .custom (py "HTTPError") message

/-- `LocalInferenceBusy`. -/
def busy : PyError := .custom (py "LocalInferenceBusy") (py "local prefill queue is full")

section Call

variable (env : Env) (settings : Settings)

/-- The request for a prompt. -/
def chatRequest (prompt : PyStr) (schema : Json) : Json :=
  .obj [
    (py "model", .str settings.model),
    (py "messages", .arr [
      .obj [(py "role", .str (py "system")), (py "content", .str (py
        "Return one JSON object only. Never invent facts absent from the supplied OCR evidence."))],
      .obj [(py "role", .str (py "user")), (py "content", .str prompt)]]),
    (py "stream", .bool false),
    (py "format", schema.or (.str (py "json"))),
    (py "keep_alive", .str settings.keepAlive),
    (py "options", .obj [
      (py "num_ctx", .int settings.contextSize),
      (py "num_predict", .int 64),
      (py "temperature", .int 0)])]

/-- `(body.get("message") or {}).get("content") or body.get("response")`. -/
def replyContent (body : Json) : Except PyError Json := do
  let message ← body.getD (py "message") .null
  let content ← (message.or (.obj [])).getD (py "content") .null
  if content.truthy then return content else body.getD (py "response") .null

/-- The object in a reply. -/
def readReply (reply : Reply) : Except PyError Json := do
  let body ← reply
  let content ← replyContent body
  match content with
  | .str text => do
    let result ← PyJson.loads env.toLib text
    if result.isObject then return result
    else throw (.valueError (py "Ollama response JSON must be an object"))
  | _ => throw (.valueError (py "Ollama response did not contain message.content"))

/-- `except (httpx.HTTPError, json.JSONDecodeError, ValueError)`. -/
def isHandled : PyError → Bool
  | .valueError _ => true
  | .custom cls _ => cls == py "HTTPError" || cls == py "JSONDecodeError"
  | _ => false

/-- `LocalInferenceError` for an exception. -/
def localInferenceError (e : PyError) : PyError :=
  .custom (py "LocalInferenceError") (py "Ollama local prefill failed: " ++ env.errorText e)

/-- What a reply leads to: the end of the call, or another attempt. -/
def attempt (last : Bool) (reply : Reply) : Option (Except PyError Json) :=
  match readReply env reply with
  | .ok result => some (.ok result)
  | .error e =>
    if isHandled e then
      if last then some (.error (localInferenceError env e)) else none
    else some (.error e)

/-- The prompt of the first or the second attempt. -/
def attemptPrompt (last : Bool) (prompt : PyStr) : PyStr :=
  if last then prompt ++ py "\nReturn strict JSON without markdown or commentary." else prompt

/-- The request of the first or the second attempt. -/
def attemptRequest (last : Bool) (prompt : PyStr) (schema : Json) : Json :=
  chatRequest settings (attemptPrompt last prompt) schema

/-- `_complete_with_bounded_retry`, when requests are answered by `post`. -/
def completeWithBoundedRetry (post : Json → Reply) (prompt : PyStr) (schema : Json) :
    Except PyError Json :=
  match attempt env false (post (attemptRequest settings false prompt schema)) with
  | some result => result
  | none => (attempt env true (post (attemptRequest settings true prompt schema))).getD (.ok .null)

end Call

/-! ## The calls of a process -/

/-- An adapter: the value of its semaphore, and whether its lock is held. -/
structure Adapter where
  slots : ℕ
  locked : Bool
  deriving DecidableEq, Repr

/-- Where a call is. -/
inductive Phase
  /-- before `configured_local_inference` -/
  | arrived
  /-- in the body of `configured_local_inference` -/
  | constructing
  /-- with an adapter, before the queue -/
  | ready (a : ℕ)
  /-- with a slot of the queue, before the lock -/
  | queued (a : ℕ)
  /-- with the lock, waiting for the reply to an attempt -/
  | posting (a : ℕ) (last : Bool)
  /-- with a result, before the lock is given back -/
  | leaving (a : ℕ) (result : Except PyError Json)
  /-- before the slot is given back -/
  | releasing (a : ℕ) (result : Except PyError Json)
  /-- at its end; no result where no model is configured -/
  | done (result : Option (Except PyError Json))

namespace Phase

/-- The adapter that a call uses. -/
def user : Phase → Option ℕ
  | ready a | queued a | posting a _ | leaving a _ | releasing a _ => some a
  | _ => none

/-- The adapter of whose slots a call has one. -/
def admitted : Phase → Option ℕ
  | queued a | posting a _ | leaving a _ | releasing a _ => some a
  | _ => none

/-- The adapter whose lock a call has. -/
def holder : Phase → Option ℕ
  | posting a _ | leaving a _ => some a
  | _ => none

/-- The adapter from which a call waits for a reply. -/
def waiting : Phase → Option ℕ
  | posting a _ => some a
  | _ => none

/-- The answer that a call has at its end. -/
def answer : Phase → Option Json
  | done (some (.ok v)) => some v
  | _ => none

/-- The call makes an adapter. -/
def isConstructing : Phase → Bool
  | constructing => true
  | _ => false

/-- How many steps a call has taken, at least. -/
def taken : Phase → ℕ
  | arrived => 1
  | constructing => 2
  | ready _ => 3
  | queued _ => 4
  | posting _ last => if last then 6 else 5
  | leaving .. => 7
  | releasing .. => 8
  | done _ => 9

end Phase

structure Call where
  prompt : PyStr
  schema : Json
  phase : Phase

/-- The calls of a process, its adapters, and the value that `lru_cache` keeps: the number of an
adapter, or that no model is configured. -/
structure State where
  cached : Option (Option ℕ)
  adapters : List Adapter
  calls : List Call

/-- A process that has had no call. -/
def start : State := ⟨none, [], []⟩

inductive Action
  | arrive (prompt : PyStr) (schema : Json)
  | proceed (r : ℕ)
  | reply (r : ℕ) (reply : Reply)

section System

variable (env : Env) (settings : Settings)

/-- `OllamaLocalInference(…)`. -/
def newAdapter : Except PyError Adapter :=
  if settings.maxConcurrency ≠ 1 then throw (.valueError
    (py "Incident Prefill local inference must remain single-concurrency"))
  else if settings.maxQueue < 0 then throw (.valueError
    (py "semaphore initial value must be >= 0"))
  else return ⟨settings.maxQueue.toNat, false⟩

/-- The lookup in the cache of `configured_local_inference`. -/
def lookUp (s : State) : State × Phase :=
  match s.cached with
  | some (some a) => (s, .ready a)
  | some none => (s, .done none)
  | none =>
    if settings.enabled && settings.provider == py "ollama" then (s, .constructing)
    else ({ s with cached := some none }, .done none)

/-- The end of `configured_local_inference`: the cache keeps what was first put there, and the call
gets what it has made. -/
def construct (s : State) : State × Phase :=
  match newAdapter settings with
  | .error e => (s, .done (some (.error e)))
  | .ok adapter =>
    ({ s with cached := s.cached.or (some (some s.adapters.length)),
              adapters := s.adapters ++ [adapter] }, .ready s.adapters.length)

/-- An adapter is set to something else. -/
def State.setAdapter (s : State) (a : ℕ) (adapter : Adapter) : State :=
  { s with adapters := s.adapters.set a adapter }

/-- `_queue_slots.acquire(blocking=False)`. -/
def acquire (s : State) (a : ℕ) (adapter : Adapter) : State × Phase :=
  match adapter.slots with
  | 0 => (s, .done (some (.error busy)))
  | n + 1 => (s.setAdapter a { adapter with slots := n }, .queued a)

/-- `_queue_slots.release()`, at the end of `complete_json`. -/
def release (s : State) (a : ℕ) (adapter : Adapter) (result : Except PyError Json) :
    State × Phase :=
  if (adapter.slots : ℤ) < settings.maxQueue then
    (s.setAdapter a { adapter with slots := adapter.slots + 1 }, .done (some result))
  else (s, .done (some (.error (.valueError (py "Semaphore released too many times")))))

/-- What a call does next by itself; it waits for the lock and for the reply. -/
def proceed (s : State) : Phase → Option (State × Phase)
  | .arrived => some (lookUp settings s)
  | .constructing => some (construct settings s)
  | .ready a => s.adapters[a]?.map (acquire s a)
  | .queued a => do
    let adapter ← s.adapters[a]?
    if adapter.locked then none
    else some (s.setAdapter a { adapter with locked := true }, .posting a false)
  | .posting .. => none
  | .leaving a result => do
    let adapter ← s.adapters[a]?
    return (s.setAdapter a { adapter with locked := false }, .releasing a result)
  | .releasing a result => s.adapters[a]?.map fun adapter => release settings s a adapter result
  | .done _ => none

/-- What a call does with a reply. -/
def receive (reply : Reply) : Phase → Option Phase
  | .posting a last => some <| match attempt env last reply with
    | some result => .leaving a result
    | none => .posting a true
  | _ => none

/-- A call goes on to a phase. -/
def State.setPhase (s : State) (r : ℕ) (c : Call) (p : Phase) : State :=
  { s with calls := s.calls.set r { c with phase := p } }

def step (s : State) : Action → Option State
  | .arrive prompt schema => some { s with calls := s.calls ++ [⟨prompt, schema, .arrived⟩] }
  | .proceed r => do
    let c ← s.calls[r]?
    let (t, p) ← proceed settings s c.phase
    return t.setPhase r c p
  | .reply r reply => do
    let c ← s.calls[r]?
    let p ← receive env reply c.phase
    return s.setPhase r c p

/-- The step makes an adapter although there is one. -/
def makesAnother (s : State) : Action → Bool
  | .proceed r => (s.calls[r]?.any fun c => c.phase.isConstructing) && !s.adapters.isEmpty
  | _ => false

/-- What a call can do by itself, one case for each way on. -/
inductive Proceeds (s : State) : Phase → State → Phase → Prop
  | found (a : ℕ) (h : s.cached = some (some a)) : Proceeds s .arrived s (.ready a)
  | without (h : s.cached = some none) : Proceeds s .arrived s (.done none)
  | enter (h : s.cached = none) : Proceeds s .arrived s .constructing
  | disabled (h : s.cached = none) :
    Proceeds s .arrived { s with cached := some none } (.done none)
  | raised (e : PyError) (h : newAdapter settings = .error e) :
    Proceeds s .constructing s (.done (some (.error e)))
  | made (x : Adapter) (h : newAdapter settings = .ok x) :
    Proceeds s .constructing
      { s with cached := s.cached.or (some (some s.adapters.length)),
               adapters := s.adapters ++ [x] } (.ready s.adapters.length)
  | refused (a : ℕ) (x : Adapter) (hx : s.adapters[a]? = some x) (h : x.slots = 0) :
    Proceeds s (.ready a) s (.done (some (.error busy)))
  | admitted (a n : ℕ) (x : Adapter) (hx : s.adapters[a]? = some x) (h : x.slots = n + 1) :
    Proceeds s (.ready a) (s.setAdapter a { x with slots := n }) (.queued a)
  | locked (a : ℕ) (x : Adapter) (hx : s.adapters[a]? = some x) (h : x.locked = false) :
    Proceeds s (.queued a) (s.setAdapter a { x with locked := true }) (.posting a false)
  | left (a : ℕ) (x : Adapter) (result : Except PyError Json) (hx : s.adapters[a]? = some x) :
    Proceeds s (.leaving a result) (s.setAdapter a { x with locked := false })
      (.releasing a result)
  | released (a : ℕ) (x : Adapter) (result : Except PyError Json) (hx : s.adapters[a]? = some x)
    (h : (x.slots : ℤ) < settings.maxQueue) :
    Proceeds s (.releasing a result) (s.setAdapter a { x with slots := x.slots + 1 })
      (.done (some result))
  | overReleased (a : ℕ) (x : Adapter) (result : Except PyError Json)
    (hx : s.adapters[a]? = some x) (h : ¬(x.slots : ℤ) < settings.maxQueue) :
    Proceeds s (.releasing a result) s
      (.done (some (.error (.valueError (py "Semaphore released too many times")))))

variable {settings} {env}

/-- The last attempt ends the call. -/
lemma attempt_last (reply : Reply) : attempt env true reply ≠ none := by
  unfold attempt
  split
  · exact Option.some_ne_none _
  · split
    · exact Option.some_ne_none _
    · exact Option.some_ne_none _

/-- A reply ends the call or leads to its last attempt. -/
lemma receive_eq_some {reply : Reply} {p q : Phase} (hp : receive env reply p = some q) :
    ∃ a last, p = .posting a last ∧
      ((∃ result, attempt env last reply = some result ∧ q = .leaving a result) ∨
        last = false ∧ attempt env false reply = none ∧ q = .posting a true) := by
  cases p with
  | posting a last =>
    refine ⟨a, last, rfl, ?_⟩
    cases hattempt : attempt env last reply with
    | some result =>
      simp only [receive, hattempt, Option.some.injEq] at hp
      exact .inl ⟨result, rfl, hp.symm⟩
    | none =>
      simp only [receive, hattempt, Option.some.injEq] at hp
      cases last with
      | true => exact absurd hattempt (attempt_last reply)
      | false => exact .inr ⟨rfl, hattempt, hp.symm⟩
  | arrived | constructing | ready | queued | leaving | releasing | done => cases hp

/-- There is no other way on. -/
lemma proceeds_of_proceed {s t : State} {p q : Phase} (hp : proceed settings s p = some (t, q)) :
    Proceeds settings s p t q := by
  cases p with
  | arrived =>
    have hp := Option.some.inj hp
    unfold lookUp at hp
    split at hp
    · next a h => cases hp; exact .found a h
    · next h => cases hp; exact .without h
    · next h =>
      split at hp
      · cases hp; exact .enter h
      · cases hp; exact .disabled h
  | constructing =>
    have hp := Option.some.inj hp
    unfold construct at hp
    split at hp
    · next e h => cases hp; exact .raised e h
    · next x h => cases hp; exact .made x h
  | ready a =>
    obtain ⟨x, hx, hp⟩ := Option.map_eq_some_iff.mp hp
    unfold acquire at hp
    split at hp
    · next h => cases hp; exact .refused a x hx h
    · next n h => cases hp; exact .admitted a n x hx h
  | queued a =>
    obtain ⟨x, hx, hp⟩ := Option.bind_eq_some_iff.mp hp
    split at hp
    · cases hp
    · next h =>
      cases hp
      exact .locked a x hx (Bool.eq_false_iff.mpr h)
  | posting => cases hp
  | leaving a result =>
    obtain ⟨x, hx, hp⟩ := Option.bind_eq_some_iff.mp hp
    cases hp
    exact .left a x result hx
  | releasing a result =>
    obtain ⟨x, hx, hp⟩ := Option.map_eq_some_iff.mp hp
    unfold release at hp
    split at hp
    · next h => cases hp; exact .released a x result hx h
    · next h => cases hp; exact .overReleased a x result hx h
  | done => cases hp

end System

/-! ## Slots and locks -/

namespace State

variable (s : State)

/-- The adapters in use, once for each call. -/
def users : List ℕ := Threads.held (fun c => c.phase.user) s.calls

/-- The adapters whose slots are held. -/
def admitted : List ℕ := Threads.held (fun c => c.phase.admitted) s.calls

/-- The adapters whose locks are held. -/
def holders : List ℕ := Threads.held (fun c => c.phase.holder) s.calls

/-- The adapters from which calls wait for a reply. -/
def inFlight : List ℕ := Threads.held (fun c => c.phase.waiting) s.calls

end State

/-- Every slot that is gone and every lock that is held is that of a call. Only the adapter that is
kept is used by more than one call. -/
structure Inv (settings : Settings) (s : State) : Prop where
  cached : ∀ a, s.cached = some (some a) → a < s.adapters.length
  made : ∀ a, s.adapters.length ≤ a → s.users.count a = 0
  own : ∀ a, s.cached ≠ some (some a) → s.users.count a ≤ 1
  slots : ∀ a x, s.adapters[a]? = some x → x.slots + s.admitted.count a = settings.maxQueue.toNat
  lock : ∀ a x, s.adapters[a]? = some x → s.holders.count a = if x.locked then 1 else 0

lemma start_inv (settings : Settings) : Inv settings start where
  cached := by simp [start]
  made := by simp [start, State.users, Threads.held_nil]
  own := by simp [start, State.users, Threads.held_nil]
  slots := by simp [start]
  lock := by simp [start]

section Steps

variable {settings : Settings} {s t : State} {r : ℕ} {c : Call} {p : Phase}

lemma count_users (hc : s.calls[r]? = some c) (p : Phase) (a : ℕ) :
    (s.setPhase r c p).users.count a + (if c.phase.user = some a then 1 else 0) =
      s.users.count a + if p.user = some a then 1 else 0 :=
  Threads.count_held_set (fun c : Call => c.phase.user) hc _ a

lemma count_admitted (hc : s.calls[r]? = some c) (p : Phase) (a : ℕ) :
    (s.setPhase r c p).admitted.count a + (if c.phase.admitted = some a then 1 else 0) =
      s.admitted.count a + if p.admitted = some a then 1 else 0 :=
  Threads.count_held_set (fun c : Call => c.phase.admitted) hc _ a

lemma count_holders (hc : s.calls[r]? = some c) (p : Phase) (a : ℕ) :
    (s.setPhase r c p).holders.count a + (if c.phase.holder = some a then 1 else 0) =
      s.holders.count a + if p.holder = some a then 1 else 0 :=
  Threads.count_held_set (fun c : Call => c.phase.holder) hc _ a

/-- A call that goes on with no adapter that it has not used. -/
lemma count_users_le {a : ℕ} (hc : s.calls[r]? = some c)
    (h : p.user = some a → c.phase.user = some a) :
    (s.setPhase r c p).users.count a ≤ s.users.count a := by
  have hcount := count_users hc p a
  by_cases hp : p.user = some a
  · rw [if_pos hp, if_pos (h hp)] at hcount
    omega
  · rw [if_neg hp] at hcount
    omega

/-- A call that comes holds nothing yet. -/
lemma Inv.arrive (h : Inv settings s) (prompt : PyStr) (schema : Json) :
    Inv settings { s with calls := s.calls ++ [⟨prompt, schema, .arrived⟩] } := by
  have husers : Threads.held (fun c : Call => c.phase.user)
      (s.calls ++ [⟨prompt, schema, .arrived⟩]) = s.users := Threads.held_append _ rfl
  have hadmitted : Threads.held (fun c : Call => c.phase.admitted)
      (s.calls ++ [⟨prompt, schema, .arrived⟩]) = s.admitted := Threads.held_append _ rfl
  have hholders : Threads.held (fun c : Call => c.phase.holder)
      (s.calls ++ [⟨prompt, schema, .arrived⟩]) = s.holders := Threads.held_append _ rfl
  constructor
  case cached => exact h.cached
  case made => exact fun a ha => (congrArg (List.count a) husers).trans (h.made a ha)
  case own => exact fun a ha => (congrArg (List.count a) husers).trans_le (h.own a ha)
  case slots =>
    intro a x hx
    have hcount := congrArg (List.count a) hadmitted
    exact (congrArg (x.slots + ·) hcount).trans (h.slots a x hx)
  case lock => exact fun a x hx => (congrArg (List.count a) hholders).trans (h.lock a x hx)

/-- A call that takes and gives back nothing, and uses no adapter that it has not used, save for
the one that is kept. -/
lemma Inv.stay (h : Inv settings s) (hc : s.calls[r]? = some c)
    (huser : ∀ a, p.user = some a → c.phase.user = some a ∨ s.cached = some (some a))
    (hadmitted : p.admitted = c.phase.admitted) (hholder : p.holder = c.phase.holder) :
    Inv settings (s.setPhase r c p) where
  cached := h.cached
  made := by
    intro a ha
    refine Nat.le_zero.mp ((count_users_le hc fun hp => ?_).trans_eq (h.made a ha))
    rcases huser a hp with hsame | hcached
    · exact hsame
    · exact absurd (h.cached a hcached) (Nat.not_lt.mpr ha)
  own := by
    intro a ha
    refine (count_users_le hc fun hp => ?_).trans (h.own a ha)
    rcases huser a hp with hsame | hcached
    · exact hsame
    · exact absurd hcached ha
  slots := by
    intro a x hx
    have hcount := count_admitted hc p a
    have hslots := h.slots a x hx
    rw [hadmitted] at hcount
    omega
  lock := by
    intro a x hx
    have hcount := count_holders hc p a
    have hlock := h.lock a x hx
    rw [hholder] at hcount
    omega

/-- A call that goes on with its adapter, which changes as the call says. -/
lemma Inv.setAdapter (h : Inv settings s) {a : ℕ} {x y : Adapter} (hc : s.calls[r]? = some c)
    (hx : s.adapters[a]? = some x) (huser : ∀ b, p.user = some b → c.phase.user = some b)
    (hadmitted : ∀ b, c.phase.admitted = some b ∨ p.admitted = some b → b = a)
    (hholder : ∀ b, c.phase.holder = some b ∨ p.holder = some b → b = a)
    (hslots : y.slots + (if p.admitted = some a then 1 else 0) =
      x.slots + if c.phase.admitted = some a then 1 else 0)
    (hlock : (if y.locked then 1 else 0) + (if c.phase.holder = some a then 1 else 0) =
      (if x.locked then 1 else 0) + if p.holder = some a then 1 else 0) :
    Inv settings ((s.setAdapter a y).setPhase r c p) := by
  have hlt : a < s.adapters.length := (List.getElem?_eq_some_iff.mp hx).1
  have hlength : (s.adapters.set a y).length = s.adapters.length := List.length_set
  have hget : ∀ b z, (s.adapters.set a y)[b]? = some z →
      b = a ∧ z = y ∨ b ≠ a ∧ s.adapters[b]? = some z := by
    intro b z hz
    by_cases hb : b = a
    · rw [hb, List.getElem?_set_self hlt] at hz
      exact .inl ⟨hb, (Option.some.inj hz).symm⟩
    · exact .inr ⟨hb, (List.getElem?_set_ne (Ne.symm hb)).symm.trans hz⟩
  constructor
  case cached => exact fun b hb => (h.cached b hb).trans_eq hlength.symm
  case made =>
    intro b hb
    have hnone := h.made b (hlength.symm.trans_le hb)
    exact Nat.le_zero.mp ((count_users_le hc (huser b)).trans_eq hnone)
  case own => exact fun b hb => (count_users_le hc (huser b)).trans (h.own b hb)
  case slots =>
    intro b z hz
    have hcount : ((s.setAdapter a y).setPhase r c p).admitted.count b + _ = _ :=
      count_admitted (s := s) hc p b
    rcases hget b z hz with ⟨rfl, rfl⟩ | ⟨hb, hz⟩
    · have hsum := h.slots b x hx
      omega
    · have hsum := h.slots b z hz
      rw [if_neg fun hp => hb (hadmitted b (.inl hp)),
        if_neg fun hp => hb (hadmitted b (.inr hp))] at hcount
      omega
  case lock =>
    intro b z hz
    have hcount : ((s.setAdapter a y).setPhase r c p).holders.count b + _ = _ :=
      count_holders (s := s) hc p b
    rcases hget b z hz with ⟨rfl, rfl⟩ | ⟨hb, hz⟩
    · have hheld := h.lock b x hx
      omega
    · have hheld := h.lock b z hz
      rw [if_neg fun hp => hb (hholder b (.inl hp)),
        if_neg fun hp => hb (hholder b (.inr hp))] at hcount
      omega

lemma Phase.user_of_admitted {a : ℕ} (h : p.admitted = some a) : p.user = some a := by
  cases p with
  | queued | posting | leaving | releasing => exact h
  | arrived | constructing | ready | done => cases h

lemma Phase.admitted_of_holder {a : ℕ} (h : p.holder = some a) : p.admitted = some a := by
  cases p with
  | posting | leaving => exact h
  | arrived | constructing | ready | queued | releasing | done => cases h

lemma Phase.holder_of_waiting {a : ℕ} (h : p.waiting = some a) : p.holder = some a := by
  cases p with
  | posting => exact h
  | arrived | constructing | ready | queued | leaving | releasing | done => cases h

lemma count_admitted_le (s : State) (a : ℕ) : s.admitted.count a ≤ s.users.count a :=
  Threads.count_held_le (fun _ => Phase.user_of_admitted) s.calls

lemma count_holders_le (s : State) (a : ℕ) : s.holders.count a ≤ s.admitted.count a :=
  Threads.count_held_le (fun _ => Phase.admitted_of_holder) s.calls

lemma count_inFlight_le (s : State) (a : ℕ) : s.inFlight.count a ≤ s.holders.count a :=
  Threads.count_held_le (fun _ => Phase.holder_of_waiting) s.calls

/-- A new adapter has all its slots, and its lock is open. -/
lemma newAdapter_eq {x : Adapter} (h : newAdapter settings = .ok x) :
    x = ⟨settings.maxQueue.toNat, false⟩ := by
  unfold newAdapter at h
  split at h
  · cases h
  · split at h
    · cases h
    · cases h
      rfl

/-- A call that makes an adapter for itself. -/
lemma Inv.append (h : Inv settings s) {x : Adapter} (hc : s.calls[r]? = some c)
    (hx : newAdapter settings = .ok x) (hphase : c.phase = .constructing) :
    Inv settings (State.setPhase
      { s with cached := s.cached.or (some (some s.adapters.length)),
               adapters := s.adapters ++ [x] } r c (.ready s.adapters.length)) := by
  have hnew := newAdapter_eq hx
  have husers : ∀ b, (s.setPhase r c (.ready s.adapters.length)).users.count b =
      s.users.count b + if s.adapters.length = b then 1 else 0 := by
    intro b
    simpa [hphase, Phase.user] using count_users hc (.ready s.adapters.length) b
  have hadmitted : ∀ b, (s.setPhase r c (.ready s.adapters.length)).admitted.count b =
      s.admitted.count b := by
    intro b
    simpa [hphase, Phase.admitted] using count_admitted hc (.ready s.adapters.length) b
  have hholders : ∀ b, (s.setPhase r c (.ready s.adapters.length)).holders.count b =
      s.holders.count b := by
    intro b
    simpa [hphase, Phase.holder] using count_holders hc (.ready s.adapters.length) b
  -- nobody has used the new adapter yet
  have hunused := h.made s.adapters.length (Nat.le_refl _)
  have hfree := count_admitted_le s s.adapters.length
  have hopen := count_holders_le s s.adapters.length
  have hget : ∀ b z, (s.adapters ++ [x])[b]? = some z →
      s.adapters[b]? = some z ∨ b = s.adapters.length ∧ z = x :=
    fun _ _ hz => Threads.eq_some_of_append hz
  have hlength : (s.adapters ++ [x]).length = s.adapters.length + 1 := by simp
  constructor
  case cached =>
    intro a ha
    refine lt_of_lt_of_eq ?_ hlength.symm
    rcases Option.or_eq_some_iff.mp ha with hkept | ⟨-, hfirst⟩
    · have hlt := h.cached a hkept
      omega
    · have heq := Option.some.inj (Option.some.inj hfirst)
      omega
  case made =>
    intro b hb
    have hlt : s.adapters.length + 1 ≤ b := hlength.symm.trans_le hb
    refine (husers b).trans ?_
    rw [h.made b (by omega), if_neg (by omega)]
  case own =>
    intro b hb
    refine (husers b).trans_le ?_
    split
    · next heq => rw [← heq, hunused]
    · refine h.own b fun hkept => hb ?_
      exact Option.or_eq_some_iff.mpr (.inl hkept)
  case slots =>
    intro b z hz
    refine (congrArg (z.slots + ·) (hadmitted b)).trans ?_
    rcases hget b z hz with hz | ⟨rfl, rfl⟩
    · exact h.slots b z hz
    · rw [hnew]
      simp only
      omega
  case lock =>
    intro b z hz
    refine (hholders b).trans ?_
    rcases hget b z hz with hz | ⟨rfl, rfl⟩
    · exact h.lock b z hz
    · rw [hnew, if_neg Bool.false_ne_true]
      omega

/-- The cache keeps that no model is configured. -/
lemma Inv.unconfigured (h : Inv settings s) (hcached : s.cached = none) :
    Inv settings { s with cached := some none } where
  cached := by simp
  made := h.made
  own := fun a _ => h.own a (by simp [hcached])
  slots := h.slots
  lock := h.lock

/-- The slots of an adapter of which a call has one are not all free. -/
lemma Inv.slots_lt (h : Inv settings s) {a : ℕ} {x : Adapter} (hc : s.calls[r]? = some c)
    (hx : s.adapters[a]? = some x) (hadmitted : c.phase.admitted = some a) :
    (x.slots : ℤ) < settings.maxQueue := by
  have hsum := h.slots a x hx
  have hmem : a ∈ s.admitted :=
    Threads.mem_held (f := fun c => c.phase.admitted) hc hadmitted
  have hcount := List.count_pos_iff.mpr hmem
  omega

/-- The lock that a call has is held. -/
lemma Inv.locked (h : Inv settings s) {a : ℕ} {x : Adapter} (hc : s.calls[r]? = some c)
    (hx : s.adapters[a]? = some x) (hholder : c.phase.holder = some a) : x.locked = true := by
  have hheld := h.lock a x hx
  have hmem : a ∈ s.holders := Threads.mem_held (f := fun c => c.phase.holder) hc hholder
  have hcount := List.count_pos_iff.mpr hmem
  by_contra hopen
  rw [if_neg hopen] at hheld
  omega

/-- What a call does by itself. -/
lemma Inv.of_proceed (h : Inv settings s) {q : Phase} (hc : s.calls[r]? = some c)
    (hphase : c.phase = p) (hp : Proceeds settings s p t q) : Inv settings (t.setPhase r c q) := by
  cases hp with
  | found a hcached =>
    refine h.stay hc (fun b hb => .inr ?_) (by rw [hphase]; rfl) (by rw [hphase]; rfl)
    rw [hcached, ← Option.some.inj hb]
  | without | enter | raised | refused =>
    exact h.stay hc (fun b hb => by cases hb) (by rw [hphase]; rfl) (by rw [hphase]; rfl)
  | disabled hcached =>
    exact (h.unconfigured hcached).stay hc (fun b hb => by cases hb) (by rw [hphase]; rfl)
      (by rw [hphase]; rfl)
  | made x hx => exact h.append hc hx hphase
  | admitted a n x hx hn =>
    refine h.setAdapter hc hx (fun b hb => ?_) (fun b hb => ?_) (fun b hb => ?_) ?_ ?_
    · rw [hphase]; exact hb
    · simpa [hphase, Phase.admitted, eq_comm] using hb
    · simp [hphase, Phase.holder] at hb
    · simp [hphase, Phase.admitted, hn]
    · simp [hphase, Phase.holder]
  | locked a x hx hlocked =>
    refine h.setAdapter hc hx (fun b hb => ?_) (fun b hb => ?_) (fun b hb => ?_) ?_ ?_
    · rw [hphase]; exact hb
    · simpa [hphase, Phase.admitted, eq_comm] using hb
    · simpa [hphase, Phase.holder, eq_comm] using hb
    · simp [hphase, Phase.admitted]
    · simp [hphase, Phase.holder, hlocked]
  | left a x result hx =>
    have hlocked := h.locked hc hx (by rw [hphase]; rfl)
    refine h.setAdapter hc hx (fun b hb => ?_) (fun b hb => ?_) (fun b hb => ?_) ?_ ?_
    · rw [hphase]; exact hb
    · simpa [hphase, Phase.admitted, eq_comm] using hb
    · simpa [hphase, Phase.holder, eq_comm] using hb
    · simp [hphase, Phase.admitted]
    · simp [hphase, Phase.holder, hlocked]
  | released a x result hx =>
    refine h.setAdapter hc hx (fun b hb => ?_) (fun b hb => ?_) (fun b hb => ?_) ?_ ?_
    · cases hb
    · simpa [hphase, Phase.admitted, eq_comm] using hb
    · simp [hphase, Phase.holder] at hb
    · simp [hphase, Phase.admitted]
    · simp [hphase, Phase.holder]
  | overReleased a x result hx hmax =>
    exact absurd (h.slots_lt hc hx (by rw [hphase]; rfl)) hmax

/-- What a call does with a reply changes no adapter. -/
lemma Inv.of_receive (h : Inv settings s) {env : Env} {reply : Reply} (hc : s.calls[r]? = some c)
    (hp : receive env reply c.phase = some p) : Inv settings (s.setPhase r c p) := by
  obtain ⟨a, last, hphase, hq⟩ := receive_eq_some hp
  have hsame : p.user = some a ∧ p.admitted = some a ∧ p.holder = some a := by
    rcases hq with ⟨result, -, rfl⟩ | ⟨-, -, rfl⟩ <;> exact ⟨rfl, rfl, rfl⟩
  obtain ⟨huser, hadmitted, hholder⟩ := hsame
  refine h.stay hc (fun b hb => .inl ?_) ?_ ?_
  · rw [hphase, ← hb, huser]
    rfl
  · rw [hphase, hadmitted]
    rfl
  · rw [hphase, hholder]
    rfl

/-- One step of a process. -/
lemma step_inv {env : Env} {s t : State} {a : Action} (h : Inv settings s)
    (hs : step env settings s a = some t) : Inv settings t := by
  cases a with
  | arrive prompt schema =>
    cases hs
    exact h.arrive prompt schema
  | proceed r =>
    obtain ⟨c, hc, hs⟩ := Option.bind_eq_some_iff.mp hs
    obtain ⟨⟨u, p⟩, hp, hs⟩ := Option.bind_eq_some_iff.mp hs
    cases hs
    exact h.of_proceed hc rfl (proceeds_of_proceed hp)
  | reply r reply =>
    obtain ⟨c, hc, hs⟩ := Option.bind_eq_some_iff.mp hs
    obtain ⟨p, hp, hs⟩ := Option.bind_eq_some_iff.mp hs
    cases hs
    exact h.of_receive hc hp

end Steps

section Runs

variable {env : Env} {settings : Settings} {s t : State} {as : List Action}

/-- The invariant holds in every state of every run. -/
lemma run_inv (hr : Transition.run (step env settings) start as = some s) : Inv settings s :=
  Transition.run_invariant (I := Inv settings) (P := fun _ _ => True)
    (fun _ _ _ h _ hs => step_inv h hs) (start_inv settings) (fun _ _ _ _ _ _ => trivial) hr

/-- An adapter is made by a call in the body of `configured_local_inference` only. -/
lemma Proceeds.length_le {p q : Phase} (hp : Proceeds settings s p t q) :
    t.adapters.length ≤ s.adapters.length + if p.isConstructing then 1 else 0 := by
  cases hp with
  | made x => simp [Phase.isConstructing]
  | admitted | locked | left | released => simp [State.setAdapter]
  | found | without | enter | disabled | raised | refused | overReleased =>
    exact Nat.le_add_right _ _

/-- Beyond the first adapter there is one for each step that made another. -/
lemma step_length {a : Action} (hs : step env settings s a = some t) :
    t.adapters.length - 1 ≤ s.adapters.length - 1 + if makesAnother s a then 1 else 0 := by
  cases a with
  | arrive prompt schema =>
    cases hs
    exact Nat.le_add_right _ _
  | proceed r =>
    obtain ⟨c, hc, hs⟩ := Option.bind_eq_some_iff.mp hs
    obtain ⟨⟨u, p⟩, hp, hs⟩ := Option.bind_eq_some_iff.mp hs
    cases hs
    have hlength := (proceeds_of_proceed hp).length_le
    have hmakes : makesAnother s (.proceed r) =
        (c.phase.isConstructing && !s.adapters.isEmpty) := by
      rw [makesAnother, hc]
      rfl
    rw [hmakes]
    refine (Nat.sub_le_sub_right hlength 1).trans ?_
    cases c.phase.isConstructing with
    | false => simp
    | true =>
      cases s.adapters with
      | nil => simp
      | cons x xs => simp
  | reply r reply =>
    obtain ⟨c, hc, hs⟩ := Option.bind_eq_some_iff.mp hs
    obtain ⟨p, hp, hs⟩ := Option.bind_eq_some_iff.mp hs
    cases hs
    exact Nat.le_add_right _ _

/-- A lock has one holder at most. -/
lemma Inv.count_holders_le_one (h : Inv settings s) (a : ℕ) : s.holders.count a ≤ 1 := by
  rcases Nat.lt_or_ge a s.adapters.length with ha | ha
  · rw [h.lock a _ (List.getElem?_eq_getElem ha)]
    split <;> decide
  · have hunused := h.made a ha
    have hadmitted := count_admitted_le s a
    have hholders := count_holders_le s a
    omega

/-- The adapter that a call uses has been made. -/
lemma Inv.exists_adapter (h : Inv settings s) {r a : ℕ} {c : Call} (hc : s.calls[r]? = some c)
    (huser : c.phase.user = some a) : ∃ x, s.adapters[a]? = some x := by
  have hmem : a ∈ s.users := Threads.mem_held (f := fun c => c.phase.user) hc huser
  have hcount := List.count_pos_iff.mpr hmem
  have ha : a < s.adapters.length := by
    by_contra hge
    have hnone := h.made a (Nat.not_lt.mp hge)
    omega
  exact ⟨_, List.getElem?_eq_getElem ha⟩

/-- A call is refused exactly when the queue of its adapter is full. -/
lemma Inv.busy_iff (h : Inv settings s) {r a : ℕ} {c : Call} (hc : s.calls[r]? = some c)
    (hphase : c.phase = .ready a) :
    step env settings s (.proceed r) = some (s.setPhase r c (.done (some (.error busy)))) ↔
      s.admitted.count a = settings.maxQueue.toNat := by
  obtain ⟨x, hx⟩ := h.exists_adapter hc (by rw [hphase]; rfl)
  have hsum := h.slots a x hx
  have hstep : step env settings s (.proceed r) =
      some ((acquire s a x).1.setPhase r c (acquire s a x).2) := by
    simp [step, hc, proceed, hphase, hx]
  rw [hstep]
  cases hslots : x.slots with
  | zero =>
    have hacquire : acquire s a x = (s, .done (some (.error busy))) := by rw [acquire, hslots]
    rw [hacquire]
    exact ⟨fun _ => by omega, fun _ => rfl⟩
  | succ n =>
    have hacquire : acquire s a x = (s.setAdapter a { x with slots := n }, .queued a) := by
      rw [acquire, hslots]
    rw [hacquire]
    refine ⟨fun heq => ?_, fun hfull => by omega⟩
    -- an admitted call is not at its end
    have hcalls := congrArg (fun t : State => t.calls[r]?) (Option.some.inj heq)
    have hr := (List.getElem?_eq_some_iff.mp hc).1
    simp [State.setPhase, State.setAdapter, List.getElem?_set_self hr] at hcalls

/-- **Requests in flight.** In every state of every run: the model works on one request of an
adapter at most; an adapter other than the one that is kept is used by one call; and a call is
refused exactly when the queue of its adapter is full. There is one request in flight at most,
and one more for each adapter that was made although there was one. -/
theorem inFlight_le (hr : Transition.run (step env settings) start as = some s) :
    s.inFlight.Nodup ∧
    (∀ a, s.cached ≠ some (some a) → s.users.count a ≤ 1) ∧
    (∀ r c a, s.calls[r]? = some c → c.phase = .ready a →
      (step env settings s (.proceed r) = some (s.setPhase r c (.done (some (.error busy)))) ↔
        s.admitted.count a = settings.maxQueue.toNat)) ∧
    s.inFlight.length ≤
      1 + Transition.countSteps (step env settings) (fun s a => makesAnother s a = true) start
        as := by
  have h := run_inv hr
  have hnodup : s.inFlight.Nodup := List.nodup_iff_count_le_one.mpr fun a =>
    (count_inFlight_le s a).trans (h.count_holders_le_one a)
  have hsub : s.inFlight ⊆ List.range s.adapters.length := by
    intro a ha
    obtain ⟨r, c, hr, hwaiting⟩ := Threads.exists_of_mem_held ha
    have huser := Phase.user_of_admitted
      (Phase.admitted_of_holder (Phase.holder_of_waiting hwaiting))
    obtain ⟨x, hx⟩ := h.exists_adapter hr huser
    exact List.mem_range.mpr (List.getElem?_eq_some_iff.mp hx).1
  have hadapters := (List.subperm_of_subset hnodup hsub).length_le
  rw [List.length_range] at hadapters
  have hmade : s.adapters.length - 1 ≤ 0 + Transition.countSteps (step env settings)
      (fun s a => makesAnother s a = true) start as :=
    Transition.countSteps_bound (I := fun _ => True) (φ := fun s : State => s.adapters.length - 1)
      (fun _ _ _ _ _ => trivial) (fun _ _ _ _ hs => step_length hs) trivial hr
  exact ⟨hnodup, h.own, fun r c a hc hphase => h.busy_iff hc hphase, by omega⟩

end Runs

/-! ## Two first calls at once -/

/-- `0.0`. -/
def zeroFloat : PyJson.Number := ⟨[], [48], [46, 48], []⟩

lemma zeroFloat_isFloat (q : ℚ) : ∃ n : PyJson.Number, n.Valid ∧
    (n.fraction ≠ [] ∨ n.exponent ≠ []) ∧ (fun _ : ℚ => zeroFloat.text) q = n.text := by
  refine ⟨zeroFloat, ?_, .inl (List.cons_ne_nil _ _), rfl⟩
  exact {
    sign := .inl rfl
    digits := ⟨List.cons_ne_nil _ _, by decide⟩
    whole := fun _ => rfl
    fraction := .inr ⟨[48], ⟨List.cons_ne_nil _ _, by decide⟩, rfl⟩
    exponent := .inl rfl }

/-- The libraries on texts without numbers. -/
def textEnv : Env where
  floatRepr := fun _ => zeroFloat.text
  floatRepr_number := zeroFloat_isFloat
  readFloat := fun _ => .finite 0
  isPrintable := fun c => decide (160 < c)
  intDigits := 4300
  maxDepth := 10
  errorText := fun _ => []

/-- A model with one place in its queue. -/
def smallSettings : Settings :=
  ⟨true, py "ollama", py "qwen2.5:3b", 2048, py "5m", 1, 1⟩

/-- The reply with an empty object. -/
def emptyReply : Reply := .ok (.obj [(py "response", .str [123, 125])])

/-- Two calls make an adapter each, and a third one comes when both wait for a reply. -/
def crossedCalls : List Action :=
  [.arrive (py "a") .null, .arrive (py "b") .null, .proceed 0, .proceed 1, .proceed 0, .proceed 1,
    .proceed 0, .proceed 1, .proceed 0, .proceed 1, .arrive (py "c") .null, .proceed 2]

/-- A call that has taken three steps is ready. -/
lemma ready_of_taken {p : Phase} {a : ℕ} (htaken : p.taken = 3) (huser : p.user = some a) :
    p = .ready a := by
  cases p with
  | ready b => rw [Option.some.inj huser]
  | posting b last => cases last <;> simp [Phase.taken] at htaken
  | arrived | constructing | queued | leaving | releasing | done => simp [Phase.taken] at htaken

/-- Both adapters have a request in flight, one of them because it was made although there was
one; the third call is refused. -/
theorem crossedCalls_inFlight :
    ∃ s c, Transition.run (step textEnv smallSettings) start crossedCalls = some s ∧
      s.inFlight = [0, 1] ∧ s.inFlight.Nodup ∧ s.inFlight.length ≤ 1 + 1 ∧
      step textEnv smallSettings s (.proceed 2) =
        some (s.setPhase 2 c (.done (some (.error busy)))) := by
  have hlast : ((Transition.run (step textEnv smallSettings) start crossedCalls).map fun s =>
      (s.inFlight, s.admitted, s.calls[2]?.map fun c => (c.phase.taken, c.phase.user))) =
        some ([0, 1], [0, 1], some (3, some 0)) := by decide +kernel
  have hcount : Transition.countSteps (step textEnv smallSettings)
      (fun s a => makesAnother s a = true) start crossedCalls = 1 := by decide +kernel
  obtain ⟨s, hr, hs⟩ := Option.map_eq_some_iff.mp hlast
  simp only [Prod.mk.injEq] at hs
  obtain ⟨hinFlight, hadmitted, hthird⟩ := hs
  obtain ⟨c, hc, hphase⟩ := Option.map_eq_some_iff.mp hthird
  simp only [Prod.mk.injEq] at hphase
  obtain ⟨hnodup, -, hbusy, hlength⟩ := inFlight_le hr
  rw [hcount] at hlength
  have hfull := (hbusy 2 c 0 hc (ready_of_taken hphase.1 hphase.2)).mpr (by rw [hadmitted]; rfl)
  exact ⟨s, c, hr, hinFlight, hnodup, hlength, hfull⟩

end LocalInference

import NocReport.Prefill.Admission

set_option relaxedAutoImplicit false
set_option autoImplicit false

/-!
# How the calls of the local model end

However the threads of the process are scheduled and whatever the model replies, every call of the
local model comes to its end, and one that is not refused comes to the end that it has alone.

## Main definitions

* `LocalInference.State.taken` — how many steps the calls have taken.
* `LocalInference.AnsweredBy`, `LocalInference.Explained` — the model as a function of the requests
  of each call, and what a call has so far when it is so.

## Main results

* `LocalInference.calls_finish` — no schedule stops before every call has finished.
* `LocalInference.result_eq` — a call that is not refused ends as it does alone.
-/

namespace LocalInference

section Runs

variable {env : Env} {settings : Settings} {s t : State} {as : List Action}

/-! ## The end of the calls -/

/-- How many steps the calls have taken, at least. -/
def State.taken (s : State) : ℕ := (s.calls.map fun c => c.phase.taken).sum

lemma taken_setPhase {r : ℕ} {c : Call} {p : Phase} (hc : s.calls[r]? = some c)
    (hp : c.phase.taken < p.taken) : s.taken + 1 ≤ (s.setPhase r c p).taken := by
  have hsum : (s.setPhase r c p).taken + c.phase.taken = s.taken + p.taken :=
    Threads.sum_set (fun c : Call => c.phase.taken) hc { c with phase := p }
  omega

lemma Proceeds.calls_eq {p q : Phase} (hp : Proceeds settings s p t q) : t.calls = s.calls := by
  cases hp <;> rfl

/-- A call goes on with each step. -/
lemma Proceeds.taken_lt {p q : Phase} (hp : Proceeds settings s p t q) : p.taken < q.taken := by
  cases hp <;> simp [Phase.taken]

/-- Each step takes a call on. -/
lemma step_taken {a : Action} (hs : step env settings s a = some t) : s.taken + 1 ≤ t.taken := by
  cases a with
  | arrive prompt schema =>
    cases hs
    simp [State.taken, Phase.taken]
  | proceed r =>
    obtain ⟨c, hc, hs⟩ := Option.bind_eq_some_iff.mp hs
    obtain ⟨⟨u, p⟩, hp, hs⟩ := Option.bind_eq_some_iff.mp hs
    cases hs
    have hgo := proceeds_of_proceed hp
    have hcalls : u.calls[r]? = some c := by rw [hgo.calls_eq, hc]
    have htaken := taken_setPhase hcalls hgo.taken_lt
    rwa [State.taken, hgo.calls_eq] at htaken
  | reply r reply =>
    obtain ⟨c, hc, hs⟩ := Option.bind_eq_some_iff.mp hs
    obtain ⟨p, hp, hs⟩ := Option.bind_eq_some_iff.mp hs
    cases hs
    refine taken_setPhase hc ?_
    obtain ⟨a, last, hphase, hq⟩ := receive_eq_some hp
    rw [hphase]
    rcases hq with ⟨result, -, rfl⟩ | ⟨rfl, -, rfl⟩
    · cases last <;> simp [Phase.taken]
    · simp [Phase.taken]

/-- No call takes more than nine steps. -/
lemma taken_le (s : State) : s.taken ≤ 9 * s.calls.length := by
  have hone : ∀ p : Phase, p.taken ≤ 9 := by
    intro p
    cases p with
    | posting a last => cases last <;> simp [Phase.taken]
    | arrived | constructing | ready | queued | leaving | releasing | done => simp [Phase.taken]
  have hsum : ∀ cs : List Call, (cs.map fun c => c.phase.taken).sum ≤ 9 * cs.length := by
    intro cs
    induction cs with
    | nil => exact Nat.le_refl _
    | cons c cs ih =>
      have hc := hone c.phase
      simp only [List.map_cons, List.sum_cons, List.length_cons]
      omega
  exact hsum s.calls

variable (env) in
/-- Something can be done about a call that is not at its end, unless it waits for a lock. -/
lemma Inv.goes_on (h : Inv settings s) {r : ℕ} {c : Call} (hc : s.calls[r]? = some c)
    (hphase : ∀ result, c.phase ≠ .done result) :
    (∃ t, step env settings s (.proceed r) = some t) ∨
      (∀ reply, ∃ t, step env settings s (.reply r reply) = some t) ∨
      ∃ a x, c.phase = .queued a ∧ s.adapters[a]? = some x ∧ x.locked = true := by
  have hstep : ∀ t q, proceed settings s c.phase = some (t, q) →
      step env settings s (.proceed r) = some (t.setPhase r c q) := by
    intro t q hp
    simp [step, hc, hp]
  cases hp : c.phase with
  | arrived => exact .inl ⟨_, hstep _ _ (by rw [hp]; rfl)⟩
  | constructing => exact .inl ⟨_, hstep _ _ (by rw [hp]; rfl)⟩
  | ready a =>
    obtain ⟨x, hx⟩ := h.exists_adapter hc (by rw [hp]; rfl)
    exact .inl ⟨_, hstep _ _ (by simp only [hp, proceed, hx]; rfl)⟩
  | queued a =>
    obtain ⟨x, hx⟩ := h.exists_adapter hc (by rw [hp]; rfl)
    cases hlocked : x.locked with
    | true => exact .inr (.inr ⟨a, x, rfl, hx, hlocked⟩)
    | false => exact .inl ⟨_, hstep _ _ (by simp [hp, proceed, hx, hlocked]; exact ⟨rfl, rfl⟩)⟩
  | posting a last =>
    refine .inr (.inl fun reply => ?_)
    simp [step, hc, hp, receive]
  | leaving a result =>
    obtain ⟨x, hx⟩ := h.exists_adapter hc (by rw [hp]; rfl)
    exact .inl ⟨_, hstep _ _ (by simp only [hp, proceed, hx]; rfl)⟩
  | releasing a result =>
    obtain ⟨x, hx⟩ := h.exists_adapter hc (by rw [hp]; rfl)
    exact .inl ⟨_, hstep _ _ (by simp only [hp, proceed, hx]; rfl)⟩
  | done result => exact absurd hp (hphase result)

/-- **Every call finishes.** A process takes at most nine steps for each call, and where nothing is
left to do but to wait for new calls, every call is at its end, every slot is free and every lock
is open. -/
theorem calls_finish (hr : Transition.run (step env settings) start as = some s) :
    as.length ≤ 9 * s.calls.length ∧
    ((∀ a t, step env settings s a = some t → ∃ prompt schema, a = .arrive prompt schema) →
      (∀ c ∈ s.calls, ∃ result, c.phase = .done result) ∧
        ∀ x ∈ s.adapters, x = ⟨settings.maxQueue.toNat, false⟩) := by
  have h := run_inv hr
  constructor
  · have hlength : 0 + as.length ≤ s.taken :=
      Transition.length_le_of_growth (φ := State.taken) (fun _ _ _ hs => step_taken hs) hr
    have hle := taken_le s
    omega
  intro hstuck
  -- a call that is not at its end waits for a lock
  have hwaits : ∀ (r : ℕ) (c : Call), s.calls[r]? = some c →
      (∀ result, c.phase ≠ .done result) →
      ∃ (a : ℕ) (x : Adapter), c.phase = .queued a ∧ s.adapters[a]? = some x ∧ x.locked = true := by
    intro r c hc hphase
    rcases h.goes_on env hc hphase with ⟨t, ht⟩ | hreply | hlock
    · obtain ⟨prompt, schema, harrive⟩ := hstuck _ t ht
      cases harrive
    · obtain ⟨t, ht⟩ := hreply (.ok .null)
      obtain ⟨prompt, schema, harrive⟩ := hstuck _ t ht
      cases harrive
    · exact hlock
  -- whoever has the lock is not at its end and does not wait for one
  have hopen : s.holders = [] := by
    refine List.eq_nil_iff_forall_not_mem.mpr fun a ha => ?_
    obtain ⟨r, c, hr, hholder⟩ := Threads.exists_of_mem_held ha
    obtain ⟨b, x, hqueued, -⟩ := hwaits r c hr fun result hdone => by
      rw [hdone] at hholder
      cases hholder
    rw [hqueued] at hholder
    cases hholder
  have hdone : ∀ c ∈ s.calls, ∃ result, c.phase = .done result := by
    intro c hc
    obtain ⟨r, hr⟩ := List.mem_iff_getElem?.mp hc
    by_contra hnot
    obtain ⟨a, x, -, hx, hlocked⟩ := hwaits r c hr fun result hphase => hnot ⟨result, hphase⟩
    have hheld := h.lock a x hx
    rw [hopen, if_pos hlocked] at hheld
    cases hheld
  have hfree : s.admitted = [] := by
    refine Threads.held_eq_nil fun c hc => ?_
    obtain ⟨result, hphase⟩ := hdone c hc
    rw [hphase]
    rfl
  refine ⟨hdone, fun x hx => ?_⟩
  obtain ⟨a, ha⟩ := List.mem_iff_getElem?.mp hx
  have hslots := h.slots a x ha
  have hlock := h.lock a x ha
  rw [hfree, List.count_nil, Nat.add_zero] at hslots
  rw [hopen, List.count_nil] at hlock
  have hunlocked : x.locked = false := by
    by_contra hlocked
    rw [if_pos (Bool.not_eq_false _ ▸ hlocked)] at hlock
    cases hlock
  rw [← hslots, ← hunlocked]

/-! ## The results -/

/-- The request of a call that waits for a reply. -/
def Call.request (settings : Settings) (c : Call) : Option Json :=
  match c.phase with
  | .posting _ last => some (attemptRequest settings last c.prompt c.schema)
  | _ => none

/-- The requests of each call are answered by a function. -/
def AnsweredBy (settings : Settings) (post : ℕ → Json → Reply) (s : State) (a : Action) : Prop :=
  ∀ r reply c request, a = .reply r reply → s.calls[r]? = some c →
    c.request settings = some request → reply = post r request

/-- What a call has so far is what it has alone. -/
def Explained (env : Env) (settings : Settings) (post : Json → Reply) (c : Call) : Prop :=
  match c.phase with
  | .posting _ true =>
    attempt env false (post (attemptRequest settings false c.prompt c.schema)) = none
  | .leaving _ result | .releasing _ result =>
    result = completeWithBoundedRetry env settings post c.prompt c.schema
  | .done (some result) =>
    result = .error busy ∨ (∃ e, newAdapter settings = .error e ∧ result = .error e) ∨
      result = completeWithBoundedRetry env settings post c.prompt c.schema
  | _ => True

/-- What a call does by itself keeps its result. -/
lemma Explained.proceed {post : Json → Reply} {r : ℕ} {c : Call} {p q : Phase}
    (h : Explained env settings post c) (hinv : Inv settings s) (hc : s.calls[r]? = some c)
    (hphase : c.phase = p) (hp : Proceeds settings s p t q) :
    Explained env settings post { c with phase := q } := by
  unfold Explained at h
  rw [hphase] at h
  cases hp with
  | found | without | enter | disabled | made | admitted | locked => trivial
  | raised e he => exact .inr (.inl ⟨e, he, rfl⟩)
  | refused => exact .inl rfl
  | left => exact h
  | released => exact .inr (.inr h)
  | overReleased a x result hx hmax =>
    exact absurd (hinv.slots_lt hc hx (by rw [hphase]; rfl)) hmax

/-- A reply leads to the result that it leads to alone. -/
lemma Explained.receive {post : Json → Reply} {c : Call} {q : Phase} {reply : Reply}
    (h : Explained env settings post c)
    (hreply : ∀ request, c.request settings = some request → reply = post request)
    (hp : receive env reply c.phase = some q) :
    Explained env settings post { c with phase := q } := by
  obtain ⟨a, last, hphase, hq⟩ := receive_eq_some hp
  have hpost := hreply (attemptRequest settings last c.prompt c.schema) (by
    rw [Call.request, hphase])
  rcases hq with ⟨result, hattempt, rfl⟩ | ⟨rfl, hattempt, rfl⟩
  · rw [hpost] at hattempt
    have hresult : result = completeWithBoundedRetry env settings post c.prompt c.schema := by
      cases last with
      | false => simp only [completeWithBoundedRetry, hattempt]
      | true =>
        simp only [Explained, hphase] at h
        simp only [completeWithBoundedRetry, h, hattempt, Option.getD_some]
    exact hresult
  · rw [hpost] at hattempt
    exact hattempt

/-- Each step explains the results as they are alone. -/
lemma step_explained {post : ℕ → Json → Reply} {a : Action} (hinv : Inv settings s)
    (h : ∀ (r : ℕ) (c : Call), s.calls[r]? = some c → Explained env settings (post r) c)
    (hpost : AnsweredBy settings post s a) (hs : step env settings s a = some t) (r : ℕ) (c : Call)
    (hc : t.calls[r]? = some c) : Explained env settings (post r) c := by
  cases a with
  | arrive prompt schema =>
    cases hs
    rcases Nat.lt_or_ge r s.calls.length with hr | hr
    · exact h r c ((List.getElem?_append_left hr).symm.trans hc)
    · rw [List.getElem?_append_right hr, List.getElem?_singleton] at hc
      split at hc
      · cases hc
        trivial
      · cases hc
  | proceed r =>
    obtain ⟨d, hd, hs⟩ := Option.bind_eq_some_iff.mp hs
    obtain ⟨⟨u, p⟩, hp, hs⟩ := Option.bind_eq_some_iff.mp hs
    cases hs
    have hgo := proceeds_of_proceed hp
    have hcalls : ∀ (r : ℕ) (c : Call), u.calls[r]? = some c →
        Explained env settings (post r) c := by
      intro r c hc
      exact h r c (by rwa [hgo.calls_eq] at hc)
    exact Threads.forall_set hcalls ((h _ d hd).proceed hinv hd rfl hgo) _ c hc
  | reply r reply =>
    obtain ⟨d, hd, hs⟩ := Option.bind_eq_some_iff.mp hs
    obtain ⟨p, hp, hs⟩ := Option.bind_eq_some_iff.mp hs
    cases hs
    have hreply := (h _ d hd).receive (fun request => hpost r reply d request rfl hd) hp
    exact Threads.forall_set h hreply _ c hc

/-- **Calls do not affect one another.** However the steps of the calls are ordered, a call that
the queue does not refuse ends with the result that it has when it is alone. -/
theorem result_eq {post : ℕ → Json → Reply}
    (hr : Transition.run (step env settings) start as = some s)
    (hpost : Transition.EveryStep (step env settings) (AnsweredBy settings post) start as)
    {r : ℕ} {c : Call} {result : Except PyError Json} (hc : s.calls[r]? = some c)
    (hdone : c.phase = .done (some result)) :
    result = .error busy ∨ (∃ e, newAdapter settings = .error e ∧ result = .error e) ∨
      result = completeWithBoundedRetry env settings (post r) c.prompt c.schema := by
  have hall : Inv settings s ∧
      ∀ (r : ℕ) (c : Call), s.calls[r]? = some c → Explained env settings (post r) c :=
    Transition.run_invariant
      (I := fun s => Inv settings s ∧
        ∀ (r : ℕ) (c : Call), s.calls[r]? = some c → Explained env settings (post r) c)
      (fun s a t h hP hs => ⟨step_inv h.1 hs, step_explained h.1 h.2 hP hs⟩)
      ⟨start_inv settings, by simp [start]⟩ hpost hr
  have hexplained := hall.2 r c hc
  unfold Explained at hexplained
  rw [hdone] at hexplained
  exact hexplained

end Runs

/-! ## Calls that are answered -/

/-- All three calls go to their ends. -/
def answeredCalls : List Action :=
  crossedCalls ++ [.proceed 2, .reply 1 emptyReply, .reply 0 emptyReply, .proceed 0, .proceed 1,
    .proceed 0, .proceed 1]

/-- A call that has taken nine steps has taken its last. -/
lemma done_of_taken {p : Phase} (htaken : p.taken = 9) : ∃ result, p = .done result := by
  cases p with
  | done result => exact ⟨result, rfl⟩
  | posting b last => cases last <;> simp [Phase.taken] at htaken
  | arrived | constructing | ready | queued | leaving | releasing => simp [Phase.taken] at htaken

/-- The calls finish in nineteen steps. Their adapters are then as they were made. -/
theorem answeredCalls_finish :
    ∃ s, Transition.run (step textEnv smallSettings) start answeredCalls = some s ∧
      answeredCalls.length ≤ 9 * 3 ∧ ∀ x ∈ s.adapters, x = ⟨1, false⟩ := by
  have hlast : ((Transition.run (step textEnv smallSettings) start answeredCalls).map fun s =>
      s.calls.map fun c => c.phase.taken) = some [9, 9, 9] := by decide +kernel
  obtain ⟨s, hr, hs⟩ := Option.map_eq_some_iff.mp hlast
  have hlength : s.calls.length = 3 := by simpa using congrArg List.length hs
  have hdone : ∀ (r : ℕ) (c : Call), s.calls[r]? = some c → ∃ result, c.phase = .done result := by
    intro r c hc
    have htaken : c.phase.taken ∈ s.calls.map fun c => c.phase.taken :=
      List.mem_map_of_mem (List.mem_of_getElem? hc)
    rw [hs] at htaken
    exact done_of_taken (by simpa using htaken)
  obtain ⟨hbound, hfinish⟩ := calls_finish hr
  rw [hlength] at hbound
  refine ⟨s, hr, hbound, (hfinish fun a t ha => ?_).2⟩
  cases a with
  | arrive prompt schema => exact ⟨prompt, schema, rfl⟩
  | proceed r =>
    obtain ⟨c, hc, ha⟩ := Option.bind_eq_some_iff.mp ha
    obtain ⟨result, hphase⟩ := hdone r c hc
    simp [hphase, proceed] at ha
  | reply r reply =>
    obtain ⟨c, hc, ha⟩ := Option.bind_eq_some_iff.mp ha
    obtain ⟨result, hphase⟩ := hdone r c hc
    simp [hphase, receive] at ha

lemma done_of_answer {p : Phase} {v : Json} (h : p.answer = some v) :
    p = .done (some (.ok v)) := by
  unfold Phase.answer at h
  split at h
  · cases h
    rfl
  · cases h

/-- The first call ends with the answer that it would have got alone. -/
theorem answeredCalls_result :
    ∃ s c v, Transition.run (step textEnv smallSettings) start answeredCalls = some s ∧
      s.calls[0]? = some c ∧ c.phase = .done (some (.ok v)) ∧
      completeWithBoundedRetry textEnv smallSettings (fun _ => emptyReply) c.prompt c.schema =
        .ok v := by
  have hlast : ((Transition.run (step textEnv smallSettings) start answeredCalls).map fun s =>
      s.calls[0]?.map fun c => c.phase.answer.isSome) = some (some true) := by decide +kernel
  obtain ⟨s, hr, hs⟩ := Option.map_eq_some_iff.mp hlast
  obtain ⟨c, hc, hanswer⟩ := Option.map_eq_some_iff.mp hs
  obtain ⟨v, hv⟩ := Option.isSome_iff_exists.mp hanswer
  have hdone := done_of_answer hv
  have hpost : Transition.EveryStep (step textEnv smallSettings)
      (AnsweredBy smallSettings fun _ _ => emptyReply) start answeredCalls := by
    intro pre a post t has ht r reply c request ha hc hrequest
    have hmem : Action.reply r reply ∈ answeredCalls := by
      rw [has, ha]
      exact List.mem_append_right _ List.mem_cons_self
    have heither : r = 1 ∧ reply = emptyReply ∨ r = 0 ∧ reply = emptyReply := by
      simpa [answeredCalls, crossedCalls] using hmem
    exact heither.elim And.right And.right
  refine ⟨s, c, v, hr, hc, hdone, ?_⟩
  rcases result_eq hr hpost hc hdone with hbusy | ⟨e, -, he⟩ | hresult
  · cases hbusy
  · cases he
  · exact hresult.symm

end LocalInference

import Dialer.Proofs.Backoff.Sharing
import Dialer.Proofs.Retry.Decisions

/-!
# The decisions of a policy over its history

A policy is asked after one failed attempt or another, with any number and any error. A question
about a terminal error or about the last attempt allowed is answered without a delay, and leaves
the policy as it is (`RetryPolicy.Used.ask_of_idle`). Any other draws the delay whose index is the
number of such questions before it (`RetryPolicy.Used.ask_of_draws`). So an answer hangs on the
question and on that number alone, which is what `RetryPolicy.ruling` says.

A policy made anew from another one begins with the first delay, and the two share nothing. In a
`Panel` of policies that come of one in this way, each answers what it is asked as the first one
would if it were asked nothing else (`Panel.Sound`).
-/

namespace Dialer

namespace CallError

/-- An error that no attempt may follow: one that is not a failure, or a session that gave up on
such an error. -/
inductive Terminal : CallError → Prop
  | circuitOpen (breaker : String) : Terminal (.circuitOpen breaker)
  | tooManyRequests (breaker : String) : Terminal (.tooManyRequests breaker)
  | transportClosing (reason : String) : Terminal (.transportClosing reason)
  | successShaped (reason : String) : Terminal (.successShaped reason)
  | wrapped (attempts : UInt32) {last : CallError} (h : Terminal last) :
      Terminal (.retriesExhausted attempts last)

theorem isTerminal_kind_iff {error : CallError} :
    error.kind.isTerminal = true ↔ error.Terminal := by
  constructor
  · intro h
    induction error with
    | circuitOpen breaker => exact .circuitOpen breaker
    | tooManyRequests breaker => exact .tooManyRequests breaker
    | transportClosing reason => exact .transportClosing reason
    | successShaped reason => exact .successShaped reason
    | retriesExhausted attempts last ih => exact .wrapped attempts (ih h)
    | timeout limit => cases h
    | failed reason => cases h
    | cancelled => cases h
  · intro h
    induction h with
    | wrapped attempts h ih => exact ih
    | _ => rfl

instance (error : CallError) : Decidable error.Terminal :=
  decidable_of_iff _ isTerminal_kind_iff

end CallError

namespace RetryPolicy

open Backoff

/-- What a policy is asked: whether an error of the attempt of a number is to be followed by
another attempt. -/
structure Question where
  attempt : UInt32
  error : CallError

variable {p q : RetryPolicy} {k : Nat} {question : Question}

/-- The attempt is not followed by another one, however it failed. -/
def Exhausts (p : RetryPolicy) (attempt : UInt32) : Prop :=
  0 < p.maxAttempts ∧ p.maxAttempts ≤ attempt

instance (p : RetryPolicy) (attempt : UInt32) : Decidable (p.Exhausts attempt) :=
  inferInstanceAs (Decidable (_ ∧ _))

/-- The question is about neither a terminal error nor the last attempt allowed. -/
def Draws (p : RetryPolicy) (question : Question) : Prop :=
  ¬ question.error.Terminal ∧ ¬ p.Exhausts question.attempt

instance (p : RetryPolicy) (question : Question) : Decidable (p.Draws question) :=
  inferInstanceAs (Decidable (_ ∧ _))

/-- The answer to a question before which a number of delays were drawn. -/
def ruling (p : RetryPolicy) (drawn : Nat) (question : Question) : RetryDecision :=
  if question.error.Terminal then .stop .terminal
  else if p.Exhausts question.attempt then .stop .exhausted
  else
    let delay := pureDelay p.backoff.base p.backoff.max drawn
    if p.stopAtCap = true ∧ delay = p.backoff.max then .stop .capReached else .retry delay

/-! ## One question -/

/-- The answer to a question, and the policy after it. -/
def ask (p : RetryPolicy) (question : Question) : RetryDecision × RetryPolicy :=
  p.decide question.attempt question.error

/-- A question is about a terminal error, or about the last attempt allowed, or it draws. -/
theorem ask_cases (p : RetryPolicy) (question : Question) :
    (question.error.Terminal ∧ p.ask question = (.stop .terminal, p)) ∨
    (¬ question.error.Terminal ∧ p.Exhausts question.attempt ∧
      p.ask question = (.stop .exhausted, p)) ∨
    (p.Draws question ∧ p.ask question =
      (if p.stopAtCap = true ∧ p.backoff.max ≤ p.backoff.next.1 then .stop .capReached
        else .retry p.backoff.next.1, { p with backoff := p.backoff.next.2 })) := by
  have hexhausts : (p.maxAttempts > 0 && question.attempt ≥ p.maxAttempts) = true ↔
      p.Exhausts question.attempt := by
    simp only [Bool.and_eq_true, decide_eq_true_eq]
    exact Iff.rfl
  unfold ask decide
  simp only [CallError.isTerminal_kind_iff, hexhausts]
  by_cases hterminal : question.error.Terminal
  · exact .inl ⟨hterminal, if_pos hterminal⟩
  rw [if_neg hterminal]
  by_cases hlast : p.Exhausts question.attempt
  · exact .inr (.inl ⟨hterminal, hlast, if_pos hlast⟩)
  rw [if_neg hlast]
  refine .inr (.inr ⟨⟨hterminal, hlast⟩, ?_⟩)
  simp only [Bool.and_eq_true, decide_eq_true_eq]
  split <;> rfl

/-- A question that draws nothing is answered by what it is about, and leaves the policy as it
is. -/
theorem Used.ask_of_idle (h : p.Used k q) (hidle : ¬ p.Draws question) :
    q.ask question = (p.ruling k question, q) := by
  have hexhausts (attempt : UInt32) : q.Exhausts attempt ↔ p.Exhausts attempt := by
    simp only [Exhausts, h.maxAttempts]
  rcases q.ask_cases question with ⟨hterminal, hask⟩ | ⟨hgoes, hlast, hask⟩ | ⟨hdraws, -⟩
  · rw [hask, ruling, if_pos hterminal]
  · rw [hask, ruling, if_neg hgoes, if_pos ((hexhausts _).mp hlast)]
  · exact absurd ⟨hdraws.1, fun hlast => hdraws.2 ((hexhausts _).mpr hlast)⟩ hidle

/-- Any other draws one delay. -/
theorem Used.ask_of_draws (h : p.Used k q) (hdraws : p.Draws question) :
    ∃ after, q.ask question = (p.ruling k question, after) ∧ p.Used (k + 1) after := by
  obtain ⟨hgoes, hnot⟩ := hdraws
  rcases q.ask_cases question with ⟨hterminal, -⟩ | ⟨-, hlast, -⟩ | ⟨-, hask⟩
  · exact absurd hterminal hgoes
  · rw [Exhausts, h.maxAttempts] at hlast
    exact absurd hlast hnot
  · have hdelay : q.backoff.next.1 = pureDelay p.backoff.base p.backoff.max k := by
      rw [h.drawn.next_eq, delayAt_eq_pureDelay]
    have hle : pureDelay p.backoff.base p.backoff.max k ≤ p.backoff.max := by
      rw [← delayAt_eq_pureDelay]
      exact delayAt_le k
    -- a delay is never beyond the cap, so reaching it is being it
    have hcap : p.backoff.max ≤ pureDelay p.backoff.base p.backoff.max k ↔
        pureDelay p.backoff.base p.backoff.max k = p.backoff.max :=
      ⟨Duration.le_antisymm hle, fun heq => Nat.le_of_eq (congrArg Duration.toNanos heq.symm)⟩
    refine ⟨{ q with backoff := q.backoff.next.2 }, ?_, h.maxAttempts, h.stopAtCap, h.drawn.next⟩
    rw [hask, ruling, if_neg hgoes, if_neg hnot, h.drawn.max_eq, hdelay]
    simp only [h.stopAtCap, hcap]

/-! ## Questions one after the other -/

/-- The policy behind a number of questions. -/
def after (p : RetryPolicy) (questions : List Question) : RetryPolicy :=
  questions.foldl (fun p question => (p.ask question).2) p

/-- The answers to a number of questions. -/
def answers (p : RetryPolicy) : List Question → List RetryDecision
  | [] => []
  | question :: rest => (p.ask question).1 :: (p.ask question).2.answers rest

/-- How many of the questions draw. -/
def draws (p : RetryPolicy) (questions : List Question) : Nat :=
  questions.countP (p.Draws ·)

theorem after_append (p : RetryPolicy) (before later : List Question) :
    p.after (before ++ later) = (p.after before).after later :=
  List.foldl_append

theorem answers_append (p : RetryPolicy) (before later : List Question) :
    p.answers (before ++ later) = p.answers before ++ (p.after before).answers later := by
  induction before generalizing p with
  | nil => rfl
  | cons question rest ih =>
      show (p.ask question).1 :: (p.ask question).2.answers (rest ++ later) = _
      rw [ih]
      rfl

theorem Used.after (h : p.Used k q) (questions : List Question) :
    p.Used (k + p.draws questions) (q.after questions) := by
  induction questions generalizing k q with
  | nil => exact h
  | cons question rest ih =>
      by_cases hdraws : p.Draws question
      · obtain ⟨next, hask, hnext⟩ := h.ask_of_draws hdraws
        have hcount : p.draws (question :: rest) = p.draws rest + 1 :=
          List.countP_cons_of_pos (decide_eq_true hdraws)
        have hafter : q.after (question :: rest) = next.after rest := by
          rw [RetryPolicy.after, List.foldl_cons, hask]
          rfl
        rw [hcount, hafter, Nat.add_comm (p.draws rest), ← Nat.add_assoc]
        exact ih hnext
      · have hask := h.ask_of_idle hdraws
        have hcount : p.draws (question :: rest) = p.draws rest :=
          List.countP_cons_of_neg (by simpa using hdraws)
        have hafter : q.after (question :: rest) = q.after rest := by
          rw [RetryPolicy.after, List.foldl_cons, hask]
          rfl
        rw [hcount, hafter]
        exact ih h

/-! ## New policies -/

/-- A policy that nobody has asked yet: it is made from bounds or from a configuration, and may be
given other limits. -/
inductive Built : RetryPolicy → Prop
  | make {base max : Duration} {p : RetryPolicy} (h : RetryPolicy.make base max = .ok p) : Built p
  | ofConfig {c : RetryConfig} {p : RetryPolicy} (h : RetryPolicy.ofConfig c = .ok p) : Built p
  | limited {p : RetryPolicy} (h : Built p) (maxAttempts : UInt32) : Built { p with maxAttempts }
  | stopping {p : RetryPolicy} (h : Built p) (stopAtCap : Bool) : Built { p with stopAtCap }

theorem make_eq_ok_iff {base max : Duration} :
    RetryPolicy.make base max = .ok p ↔
      0 < base.toNanos ∧ base ≤ max ∧ p = ⟨⟨base, max, 0⟩, 0, false⟩ := by
  unfold RetryPolicy.make
  cases hmake : Backoff.make base max with
  | error error =>
      refine ⟨fun h => (by cases h), fun ⟨hpos, hle, _⟩ => ?_⟩
      have hok := Backoff.make_eq_ok_iff.mpr ⟨hpos, hle, rfl⟩
      cases hmake.symm.trans hok
  | ok b =>
      obtain ⟨hpos, hle, rfl⟩ := Backoff.make_eq_ok_iff.mp hmake
      refine ⟨fun h => ⟨hpos, hle, ?_⟩, fun ⟨_, _, h⟩ => ?_⟩
      · cases h
        rfl
      · rw [h]
        rfl

theorem Built.fresh_eq (h : Built p) : p.fresh = p := by
  induction h with
  | make h =>
      obtain ⟨-, -, rfl⟩ := make_eq_ok_iff.mp h
      rfl
  | @ofConfig c p h =>
      unfold RetryPolicy.ofConfig at h
      cases hmake : RetryPolicy.make c.baseDelay c.maxDelay with
      | error error =>
          rw [hmake] at h
          cases h
      | ok q =>
          obtain ⟨-, -, rfl⟩ := make_eq_ok_iff.mp hmake
          rw [hmake] at h
          cases h
          rfl
  | limited h maxAttempts ih =>
      unfold fresh at ih ⊢
      simpa using congrArg backoff ih
  | stopping h stopAtCap ih =>
      unfold fresh at ih ⊢
      simpa using congrArg backoff ih

/-! ## Policies beside each other -/

/-- What is done with the policies of a panel. -/
inductive Use where
  /-- Ask a policy. -/
  | ask (policy : Nat) (question : Question)
  /-- Make another policy from one. -/
  | fresh (policy : Nat)

/-- What a policy was asked and answered. -/
structure Answered where
  policy : Nat
  question : Question
  answer : RetryDecision

/-- The policies in the order in which they were made, and all that they were asked. -/
structure Panel where
  policies : List RetryPolicy
  record : List Answered

namespace Panel

variable {panel : Panel} {g : Nat}

/-- One policy that nobody has asked. -/
def single (p : RetryPolicy) : Panel :=
  ⟨[p], []⟩

/-- One use. A policy that was not made cannot be used. -/
def step (panel : Panel) : Use → Panel
  | .ask g question =>
    match panel.policies[g]? with
    | some p =>
      ⟨panel.policies.set g (p.ask question).2,
        panel.record ++ [⟨g, question, (p.ask question).1⟩]⟩
    | none => panel
  | .fresh g =>
    match panel.policies[g]? with
    | some p => { panel with policies := panel.policies ++ [p.fresh] }
    | none => panel

/-- Uses one after the other. -/
def run (panel : Panel) (uses : List Use) : Panel :=
  uses.foldl step panel

/-- The questions that a policy was asked. -/
def asked (panel : Panel) (g : Nat) : List Question :=
  (panel.record.filter (·.policy == g)).map (·.question)

/-- The answers that it gave. -/
def told (panel : Panel) (g : Nat) : List RetryDecision :=
  (panel.record.filter (·.policy == g)).map (·.answer)

theorem step_ask (hq : panel.policies[g]? = some q) (question : Question) :
    panel.step (.ask g question) =
      ⟨panel.policies.set g (q.ask question).2,
        panel.record ++ [⟨g, question, (q.ask question).1⟩]⟩ := by
  rw [step, hq]

theorem step_fresh (hq : panel.policies[g]? = some q) :
    panel.step (.fresh g) = { panel with policies := panel.policies ++ [q.fresh] } := by
  rw [step, hq]

/-- A use asks a policy, makes one, or does nothing. -/
theorem step_cases (panel : Panel) (use : Use) :
    (∃ (g : Nat) (question : Question) (q : RetryPolicy), panel.policies[g]? = some q ∧
      panel.step use =
      ⟨panel.policies.set g (q.ask question).2,
        panel.record ++ [⟨g, question, (q.ask question).1⟩]⟩) ∨
    (∃ (g : Nat) (q : RetryPolicy), panel.policies[g]? = some q ∧
      panel.step use = { panel with policies := panel.policies ++ [q.fresh] }) ∨
    panel.step use = panel := by
  cases use with
  | ask g question =>
      cases hq : panel.policies[g]? with
      | some q => exact .inl ⟨g, question, q, hq, step_ask hq question⟩
      | none => exact .inr (.inr (by rw [step, hq]))
  | fresh g =>
      cases hq : panel.policies[g]? with
      | some q => exact .inr (.inl ⟨g, q, hq, step_fresh hq⟩)
      | none => exact .inr (.inr (by rw [step, hq]))

theorem asked_append (panel : Panel) (policies : List RetryPolicy) (x : Answered) (g : Nat) :
    asked ⟨policies, panel.record ++ [x]⟩ g =
      panel.asked g ++ if x.policy = g then [x.question] else [] := by
  by_cases hg : x.policy = g <;> simp [asked, List.filter_append, hg]

theorem told_append (panel : Panel) (policies : List RetryPolicy) (x : Answered) (g : Nat) :
    told ⟨policies, panel.record ++ [x]⟩ g =
      panel.told g ++ if x.policy = g then [x.answer] else [] := by
  by_cases hg : x.policy = g <;> simp [told, List.filter_append, hg]

/-- Each policy of a panel is where its own questions have brought the first one, and answered as
that one would have. -/
structure Sound (p : RetryPolicy) (panel : Panel) : Prop where
  policy_eq : ∀ {g q}, panel.policies[g]? = some q → q = p.after (panel.asked g)
  told_eq : ∀ g, panel.told g = p.answers (panel.asked g)
  known : ∀ x ∈ panel.record, x.policy < panel.policies.length

theorem sound_single (p : RetryPolicy) : Sound p (single p) := by
  refine ⟨fun {g q} hq => ?_, fun _ => rfl, fun _ hnone => absurd hnone List.not_mem_nil⟩
  obtain ⟨-, rfl⟩ : g = 0 ∧ q = p := by
    simpa [single, List.getElem?_singleton, eq_comm] using hq
  rfl

/-- A policy that was not made was not asked. -/
theorem Sound.asked_of_ge (h : Sound p panel) (hg : panel.policies.length ≤ g) :
    panel.asked g = [] := by
  rw [asked, List.map_eq_nil_iff, List.filter_eq_nil_iff]
  intro x hx
  have hlt := h.known x hx
  simp only [beq_iff_eq]
  omega

theorem Sound.ask (h : Sound p panel) (hq : panel.policies[g]? = some q) (question : Question) :
    Sound p ⟨panel.policies.set g (q.ask question).2,
      panel.record ++ [⟨g, question, (q.ask question).1⟩]⟩ := by
  have hlt : g < panel.policies.length := (List.getElem?_eq_some_iff.mp hq).1
  have hpolicy := h.policy_eq hq
  -- the policy that is asked moves along with its questions, and the others stand still
  refine ⟨fun {f r} hr => ?_, fun f => ?_, fun x hx => ?_⟩
  · rw [asked_append]
    by_cases hf : g = f
    · subst hf
      obtain rfl : (q.ask question).2 = r := by simpa [List.getElem?_set_self hlt] using hr
      rw [if_pos rfl, after_append, ← hpolicy]
      rfl
    · rw [List.getElem?_set_ne hf] at hr
      rw [if_neg hf, List.append_nil]
      exact h.policy_eq hr
  · rw [asked_append, told_append, h.told_eq]
    by_cases hf : g = f
    · subst hf
      rw [if_pos rfl, if_pos rfl, answers_append, ← hpolicy]
      rfl
    · rw [if_neg hf, if_neg hf, List.append_nil, List.append_nil]
  · rw [List.length_set]
    rcases List.mem_append.mp hx with hold | hnew
    · exact h.known x hold
    · rwa [List.mem_singleton.mp hnew]

theorem Sound.fresh (h : Sound p panel) (hfresh : q.fresh = p) :
    Sound p { panel with policies := panel.policies ++ [q.fresh] } := by
  refine ⟨fun {f r} hr => ?_, h.told_eq, fun x hx => ?_⟩
  · rw [List.getElem?_append] at hr
    split at hr
    · exact h.policy_eq hr
    · -- the new policy has the next free place, where nobody was asked
      rename_i hover
      rw [List.getElem?_singleton, Option.ite_none_right_eq_some] at hr
      obtain rfl := Option.some.inj hr.2
      have hnone : panel.asked f = [] := h.asked_of_ge (by omega)
      show q.fresh = p.after (panel.asked f)
      rw [hnone, hfresh]
      rfl
  · rw [List.length_append]
    exact Nat.lt_add_right _ (h.known x hx)

theorem Sound.fresh_eq (h : Sound p panel) (hbuilt : Built p) (hq : panel.policies[g]? = some q) :
    q.fresh = p := by
  have hused := (hbuilt.fresh_eq ▸ p.used_fresh).after (panel.asked g)
  rw [← h.policy_eq hq] at hused
  have hfresh : q.fresh = p.fresh := by
    unfold RetryPolicy.fresh restart
    rw [hused.maxAttempts, hused.stopAtCap, hused.drawn.base_eq, hused.drawn.max_eq]
  rw [hfresh, hbuilt.fresh_eq]

theorem Sound.run (h : Sound p panel) (hbuilt : Built p) (uses : List Use) :
    Sound p (panel.run uses) := by
  induction uses generalizing panel with
  | nil => exact h
  | cons use rest ih =>
      refine ih ?_
      rcases panel.step_cases use with ⟨g, question, q, hq, hstep⟩ | ⟨g, q, hq, hstep⟩ | hstep <;>
        rw [hstep]
      · exact h.ask hq question
      · exact h.fresh (h.fresh_eq hbuilt hq)
      · exact h

end Panel

/-! ## Any history -/

/-- **A decision hangs on the question and on how many drew before it.** For a policy that nobody
has asked yet:

* The answer to each question is that of `ruling` for the number of questions before it that are
  about neither a terminal error nor the last attempt allowed.
* A question that is about one of these changes no later answer.
* Of policies that are made of it and of one another at any point, each answers what it is asked as
  the first one would alone, and a policy that is made from one of them is the first one anew. -/
theorem decisions_follow_rule (hbuilt : Built p) :
    (∀ before question, p.answers (before ++ [question]) =
      p.answers before ++ [p.ruling (p.draws before) question]) ∧
    (∀ before question later, ¬ p.Draws question → ∃ rest,
      p.answers (before ++ later) = p.answers before ++ rest ∧
      p.answers (before ++ question :: later) =
        p.answers before ++ p.ruling (p.draws before) question :: rest) ∧
    ∀ uses g, g < ((Panel.single p).run uses).policies.length →
      let panel := (Panel.single p).run uses
      panel.told g = p.answers (panel.asked g) ∧
      (∀ question, (panel.step (.ask g question)).record = panel.record ++
        [⟨g, question, p.ruling (p.draws (panel.asked g)) question⟩]) ∧
      (panel.step (.fresh g)).policies = panel.policies ++ [p] := by
  have hused (questions : List Question) : p.Used (p.draws questions) (p.after questions) := by
    have hstart : p.Used 0 p := hbuilt.fresh_eq ▸ p.used_fresh
    have hafter := hstart.after questions
    rwa [Nat.zero_add] at hafter
  have hanswer (before : List Question) (question : Question) :
      ((p.after before).ask question).1 = p.ruling (p.draws before) question := by
    by_cases hdraws : p.Draws question
    · obtain ⟨after, hask, -⟩ := (hused before).ask_of_draws hdraws
      rw [hask]
    · rw [(hused before).ask_of_idle hdraws]
  refine ⟨fun before question => ?_, fun before question later hidle => ?_, fun uses g hg => ?_⟩
  · rw [answers_append, ← hanswer]
    rfl
  · refine ⟨(p.after before).answers later, answers_append p before later, ?_⟩
    rw [answers_append, answers, (hused before).ask_of_idle hidle]
  · intro panel
    have hsound : Panel.Sound p panel := (Panel.sound_single p).run hbuilt uses
    obtain ⟨q, hq⟩ : ∃ q, panel.policies[g]? = some q := ⟨_, List.getElem?_eq_getElem hg⟩
    refine ⟨hsound.told_eq g, fun question => ?_, ?_⟩
    · rw [Panel.step_ask hq, hsound.policy_eq hq, hanswer]
    · rw [Panel.step_fresh hq, hsound.fresh_eq hbuilt hq]

/-- Between a tenth and a fifth of a second the second question that draws reaches the cap, whatever
was asked in between; a policy made then begins with a tenth. -/
theorem decisions_follow_rule_capped :
    let p : RetryPolicy := ⟨⟨.ofMillis64 100, .ofMillis64 200, 0⟩, 5, true⟩
    let failing (attempt : UInt32) : Question := ⟨attempt, .failed "unavailable"⟩
    let rejected : Question := ⟨2, .retriesExhausted 3 (.circuitOpen "svc")⟩
    let panel := (Panel.single p).run [.ask 0 (failing 1), .ask 0 rejected, .fresh 0]
    Built p ∧
    p.answers ([failing 1, rejected, failing 7] ++ [failing 2]) =
      p.answers [failing 1, rejected, failing 7] ++ [.stop .capReached] ∧
    ¬ p.Draws rejected ∧
    (∃ rest, p.answers ([failing 1] ++ [failing 2]) = p.answers [failing 1] ++ rest ∧
      p.answers ([failing 1] ++ rejected :: [failing 2]) =
        p.answers [failing 1] ++ .stop .terminal :: rest) ∧
    1 < panel.policies.length ∧
    (panel.step (.ask 1 (failing 1))).record =
      panel.record ++ [⟨1, failing 1, .retry (.ofMillis64 100)⟩] ∧
    (panel.step (.ask 0 (failing 2))).record =
      panel.record ++ [⟨0, failing 2, .stop .capReached⟩] := by
  intro p failing rejected panel
  have hmake : RetryPolicy.make (.ofMillis64 100) (.ofMillis64 200) =
      .ok ⟨⟨.ofMillis64 100, .ofMillis64 200, 0⟩, 0, false⟩ := rfl
  have hbuilt : Built p := ((Built.make hmake).limited 5).stopping true
  have hidle : ¬ p.Draws rejected := by decide
  have hmade : 1 < panel.policies.length := by decide
  have hcapped : p.ruling (p.draws [failing 1, rejected, failing 7]) (failing 2) =
      .stop .capReached := by decide
  have hfirst : p.ruling (p.draws (panel.asked 1)) (failing 1) = .retry (.ofMillis64 100) := by
    decide
  have hsecond : p.ruling (p.draws (panel.asked 0)) (failing 2) = .stop .capReached := by decide
  obtain ⟨hanswer, hchanges, hpanel⟩ := decisions_follow_rule hbuilt
  exact ⟨hbuilt, hcapped ▸ hanswer _ _, hidle, hchanges _ _ _ hidle, hmade,
    hfirst ▸ (hpanel _ 1 hmade).2.1 _, hsecond ▸ (hpanel _ 0 (by decide)).2.1 _⟩

end RetryPolicy

end Dialer

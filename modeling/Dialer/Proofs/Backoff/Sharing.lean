import Dialer.Proofs.Backoff.Growth

/-!
# Generators in many hands

Callers may share a generator. A draw keeps the index to itself from reading it to writing it, so
the draws from one generator come one after another whoever makes them, and a `Use` is one step of
a `Pool`: the generators that come of one by restarts, and the delays that were handed out.
Every sequence of uses leaves a pool `Sound`: each generator has handed out the delays of the pure
form in their order, and is as far as their number (`draws_follow_pure`).
-/

namespace Dialer

namespace Backoff

variable {base max : Duration} {b : Backoff}

/-- The pure form of the delay with an index of any size: an index that no word holds gives the
cap. -/
def pureDelay (base max : Duration) (k : Nat) : Duration :=
  if k < UInt32.size then delay (.ofNat k) base max else max

theorem delayAt_eq_pureDelay (k : Nat) : delayAt base max k = pureDelay base max k := by
  unfold pureDelay
  by_cases hk : k < UInt32.size
  · rw [if_pos hk, delayAt_eq (UInt32.toNat_ofNat_of_lt' hk)]
  · have hwide : 32 ≤ k := by
      have hsize : UInt32.size = 2 ^ 32 := rfl
      omega
    rw [if_neg hk, delayAt_of_ge hwide]

/-- A draw moves the index on only where a multiplication was still in range. -/
theorem next_index_le (h : b.index.toNat ≤ 32) : b.next.2.index.toNat ≤ 32 := by
  by_cases hlt : b.next.1 < b.max
  · obtain ⟨hsmall, hindex⟩ := next_index_of_lt hlt
    omega
  · have hnext : b.next.2 = b := if_neg hlt
    rwa [hnext]

/-- What callers do with the generators that they share. -/
inductive Use where
  /-- Draw the next delay of a generator. -/
  | draw (caller generator : Nat)
  /-- Begin another generator with the bounds of one. -/
  | restart (generator : Nat)

/-- A delay in the hands of the caller that drew it. -/
structure Handout where
  caller : Nat
  generator : Nat
  delay : Duration

/-- The generators in the order in which they began, and all that was drawn from them. -/
structure Pool where
  generators : List Backoff
  handouts : List Handout

namespace Pool

variable {p : Pool} {g : Nat}

/-- One generator that nobody has drawn from. -/
def single (b : Backoff) : Pool :=
  ⟨[b], []⟩

/-- One use. A generator that has not begun cannot be used. -/
def step (p : Pool) : Use → Pool
  | .draw caller g =>
    match p.generators[g]? with
    | some b => ⟨p.generators.set g b.next.2, p.handouts ++ [⟨caller, g, b.next.1⟩]⟩
    | none => p
  | .restart g =>
    match p.generators[g]? with
    | some b => { p with generators := p.generators ++ [b.restart] }
    | none => p

/-- Uses one after another. -/
def run (p : Pool) (uses : List Use) : Pool :=
  uses.foldl step p

/-- The delays drawn from a generator, in order, whoever drew them. -/
def drawnFrom (p : Pool) (g : Nat) : List Duration :=
  (p.handouts.filter (·.generator == g)).map (·.delay)

/-! ## One use -/

theorem step_draw (hb : p.generators[g]? = some b) (caller : Nat) :
    p.step (.draw caller g) =
      ⟨p.generators.set g b.next.2, p.handouts ++ [⟨caller, g, b.next.1⟩]⟩ := by
  rw [step, hb]

theorem step_restart (hb : p.generators[g]? = some b) :
    p.step (.restart g) = { p with generators := p.generators ++ [b.restart] } := by
  rw [step, hb]

/-- A use draws from a generator, begins one, or does nothing. -/
theorem step_cases (p : Pool) (use : Use) :
    (∃ caller g b, use = .draw caller g ∧ p.generators[g]? = some b ∧
      p.step use = ⟨p.generators.set g b.next.2, p.handouts ++ [⟨caller, g, b.next.1⟩]⟩) ∨
    (∃ g b, use = .restart g ∧ p.generators[g]? = some b ∧
      p.step use = { p with generators := p.generators ++ [b.restart] }) ∨
    p.step use = p := by
  cases use with
  | draw caller g =>
      cases hb : p.generators[g]? with
      | some b => exact .inl ⟨caller, g, b, rfl, hb, step_draw hb caller⟩
      | none => exact .inr (.inr (by rw [step, hb]))
  | restart g =>
      cases hb : p.generators[g]? with
      | some b => exact .inr (.inl ⟨g, b, rfl, hb, step_restart hb⟩)
      | none => exact .inr (.inr (by rw [step, hb]))

theorem drawnFrom_append (p : Pool) (generators : List Backoff) (h : Handout) (g : Nat) :
    drawnFrom ⟨generators, p.handouts ++ [h]⟩ g =
      p.drawnFrom g ++ if h.generator = g then [h.delay] else [] := by
  by_cases hg : h.generator = g <;>
    simp [drawnFrom, List.filter_append, hg]

/-! ## Sound pools -/

/-- The generators of a pool are as far as what was drawn from them, and that is the pure form. -/
structure Sound (base max : Duration) (p : Pool) : Prop where
  drawn : ∀ {g b}, p.generators[g]? = some b → Drawn base max (p.drawnFrom g).length b
  delays : ∀ g, p.drawnFrom g = (List.range (p.drawnFrom g).length).map (delayAt base max)
  known : ∀ h ∈ p.handouts, h.generator < p.generators.length
  index_le : ∀ b ∈ p.generators, b.index.toNat ≤ 32

theorem sound_single (hmake : make base max = .ok b) : Sound base max (single b) := by
  obtain ⟨-, -, rfl⟩ := make_eq_ok_iff.mp hmake
  refine ⟨fun {g c} hc => ?_, fun _ => rfl, fun _ hnone => absurd hnone List.not_mem_nil, ?_⟩
  · obtain ⟨-, rfl⟩ : g = 0 ∧ c = ⟨base, max, 0⟩ := by
      simpa [single, List.getElem?_singleton, eq_comm] using hc
    exact drawn_restart ⟨base, max, 0⟩
  · intro c hc
    rw [List.mem_singleton.mp hc]
    exact Nat.zero_le _

/-- Nothing was drawn from a generator that has not begun. -/
theorem Sound.drawnFrom_of_ge (hp : Sound base max p) (hg : p.generators.length ≤ g) :
    p.drawnFrom g = [] := by
  rw [drawnFrom, List.map_eq_nil_iff, List.filter_eq_nil_iff]
  intro h hmem
  have hlt := hp.known h hmem
  simp only [beq_iff_eq]
  omega

/-- What is drawn is the delay that comes after those drawn before. -/
theorem Sound.draw (hp : Sound base max p) (hb : p.generators[g]? = some b) (caller : Nat) :
    Sound base max ⟨p.generators.set g b.next.2, p.handouts ++ [⟨caller, g, b.next.1⟩]⟩ := by
  have hdrawn := hp.drawn hb
  have hnext : b.next.1 = delayAt base max (p.drawnFrom g).length := hdrawn.next_eq
  have hlt : g < p.generators.length := (List.getElem?_eq_some_iff.mp hb).1
  -- the generator that is drawn from moves along with its draws, and the others stand still
  refine ⟨fun {f c} hc => ?_, fun f => ?_, fun h hmem => ?_, fun c hmem => ?_⟩
  · by_cases hf : g = f
    · subst hf
      obtain rfl : b.next.2 = c := by
        simpa [List.getElem?_set_self hlt] using hc
      rw [drawnFrom_append, if_pos rfl, List.length_append, List.length_singleton]
      exact hdrawn.next
    · rw [List.getElem?_set_ne hf] at hc
      rw [drawnFrom_append, if_neg hf, List.append_nil]
      exact hp.drawn hc
  · by_cases hf : g = f
    · subst hf
      rw [drawnFrom_append, if_pos rfl, List.length_append, List.length_singleton,
        List.range_succ, List.map_append, List.map_singleton, ← hp.delays g, ← hnext]
    · rw [drawnFrom_append, if_neg hf, List.append_nil]
      exact hp.delays f
  · rw [List.length_set]
    rcases List.mem_append.mp hmem with hold | hnew
    · exact hp.known h hold
    · rwa [List.mem_singleton.mp hnew]
  · rcases List.mem_or_eq_of_mem_set hmem with hold | rfl
    · exact hp.index_le c hold
    · exact next_index_le (hp.index_le b (List.mem_of_getElem? hb))

theorem Sound.restart (hp : Sound base max p) (hb : p.generators[g]? = some b) :
    Sound base max { p with generators := p.generators ++ [b.restart] } := by
  have hdrawn := hp.drawn hb
  refine ⟨fun {f c} hc => ?_, hp.delays, fun h hmem => ?_, fun c hmem => ?_⟩
  · rw [List.getElem?_append] at hc
    split at hc
    · exact hp.drawn hc
    · -- the new generator has the next free place, which nothing was drawn from
      rename_i hover
      rw [List.getElem?_singleton, Option.ite_none_right_eq_some] at hc
      obtain rfl := Option.some.inj hc.2
      have hnone : p.drawnFrom f = [] := hp.drawnFrom_of_ge (by omega)
      show Drawn base max (p.drawnFrom f).length b.restart
      rw [hnone, ← hdrawn.base_eq, ← hdrawn.max_eq]
      exact drawn_restart b
  · rw [List.length_append]
    exact Nat.lt_add_right _ (hp.known h hmem)
  · rcases List.mem_append.mp hmem with hold | hnew
    · exact hp.index_le c hold
    · rw [List.mem_singleton.mp hnew]
      exact Nat.zero_le _

theorem Sound.step (hp : Sound base max p) (use : Use) : Sound base max (p.step use) := by
  rcases p.step_cases use with
    ⟨caller, g, b, -, hb, hstep⟩ | ⟨g, b, -, hb, hstep⟩ | hstep <;> rw [hstep]
  · exact hp.draw hb caller
  · exact hp.restart hb
  · exact hp

theorem Sound.run (hp : Sound base max p) (uses : List Use) : Sound base max (p.run uses) := by
  induction uses generalizing p with
  | nil => exact hp
  | cons use rest ih => exact ih (hp.step use)

/-! ## Draws elsewhere -/

/-- A generator that begins does so at the end, so the others keep their places. -/
theorem step_length_le (p : Pool) (use : Use) :
    p.generators.length ≤ (p.step use).generators.length := by
  rcases p.step_cases use with
    ⟨caller, g, b, -, -, hstep⟩ | ⟨g, b, -, -, hstep⟩ | hstep <;>
    simp [hstep]

theorem step_elsewhere (hg : g < p.generators.length) {use : Use}
    (huse : ∀ caller, use ≠ .draw caller g) :
    (p.step use).generators[g]? = p.generators[g]? ∧
    (p.step use).drawnFrom g = p.drawnFrom g := by
  rcases p.step_cases use with
    ⟨caller, f, b, rfl, -, hstep⟩ | ⟨f, b, -, -, hstep⟩ | hstep <;> rw [hstep]
  · have hf : f ≠ g := fun heq => huse caller (heq ▸ rfl)
    rw [drawnFrom_append, if_neg hf, List.append_nil]
    exact ⟨List.getElem?_set_ne hf, rfl⟩
  · exact ⟨List.getElem?_append_left hg, rfl⟩
  · exact ⟨rfl, rfl⟩

/-- Uses without a draw from a generator leave it as it is. -/
theorem run_elsewhere (hg : g < p.generators.length) {uses : List Use}
    (huses : ∀ caller, Use.draw caller g ∉ uses) :
    (p.run uses).generators[g]? = p.generators[g]? ∧
    (p.run uses).drawnFrom g = p.drawnFrom g := by
  induction uses generalizing p with
  | nil => exact ⟨rfl, rfl⟩
  | cons use rest ih =>
      have hother (caller : Nat) : use ≠ .draw caller g := fun heq =>
        huses caller (heq ▸ List.mem_cons_self)
      have hfirst := step_elsewhere hg hother
      have hrest := ih (Nat.lt_of_lt_of_le hg (p.step_length_le use)) fun caller hmem =>
        huses caller (List.mem_cons_of_mem _ hmem)
      exact ⟨hrest.1.trans hfirst.1, hrest.2.trans hfirst.2⟩

/-! ## Any uses -/

/-- **Whoever draws, a generator hands out the pure delays in their order.** After any uses by any
callers, what was drawn from a generator is the pure form of the first indices, and the next draw
gives the next one. The delays do not decrease, they lie between the bounds, and the 33rd of them
is the cap; no index is beyond 32. A restart begins a generator like the first one, and only a
draw from a generator itself moves it. -/
theorem draws_follow_pure (hmake : make base max = .ok b) {uses : List Use}
    (hrun : (single b).run uses = p) (hg : g < p.generators.length) :
    p.drawnFrom g = (List.range (p.drawnFrom g).length).map (pureDelay base max) ∧
    (∀ caller, (p.step (.draw caller g)).handouts =
      p.handouts ++ [⟨caller, g, pureDelay base max (p.drawnFrom g).length⟩]) ∧
    (p.drawnFrom g).Pairwise (· ≤ ·) ∧
    (∀ d ∈ p.drawnFrom g, base ≤ d ∧ d ≤ max) ∧
    (∀ d, (p.drawnFrom g)[32]? = some d → d = max) ∧
    (∀ c ∈ p.generators, c.index.toNat ≤ 32) ∧
    (p.step (.restart g)).generators = p.generators ++ [b] ∧
    (p.step (.restart g)).drawnFrom p.generators.length = [] ∧
    (∀ more : List Use, (∀ caller, Use.draw caller g ∉ more) →
      (p.run more).generators[g]? = p.generators[g]? ∧
      (p.run more).drawnFrom g = p.drawnFrom g) := by
  have hsound : Sound base max p := hrun ▸ (sound_single hmake).run uses
  obtain ⟨-, horder, rfl⟩ := make_eq_ok_iff.mp hmake
  obtain ⟨c, hc⟩ : ∃ c, p.generators[g]? = some c := ⟨_, List.getElem?_eq_getElem hg⟩
  have hdrawn := hsound.drawn hc
  have hdelays := hsound.delays g
  have hpure : pureDelay base max = delayAt base max :=
    funext fun k => (delayAt_eq_pureDelay k).symm
  refine ⟨?_, fun caller => ?_, ?_, fun d hd => ?_, fun d hd => ?_, hsound.index_le, ?_, ?_,
    fun more hmore => run_elsewhere hg hmore⟩
  · rw [hpure]
    exact hdelays
  · rw [step_draw hc, hdrawn.next_eq, hpure]
  · rw [hdelays, List.pairwise_map]
    exact List.pairwise_lt_range.imp fun hlt => delayAt_mono (Nat.le_of_lt hlt)
  · rw [hdelays] at hd
    obtain ⟨k, -, rfl⟩ := List.mem_map.mp hd
    have hfirst : delayAt base max 0 ≤ delayAt base max k := delayAt_mono (Nat.zero_le k)
    rw [delayAt_zero horder] at hfirst
    exact ⟨hfirst, delayAt_le k⟩
  · rw [hdelays, List.getElem?_map, Option.map_eq_some_iff] at hd
    obtain ⟨k, hk, rfl⟩ := hd
    obtain ⟨-, rfl⟩ := List.getElem?_eq_some_iff.mp hk
    rw [List.getElem_range]
    exact delayAt_of_ge (Nat.le_refl _)
  · have hrestart : c.restart = ⟨base, max, 0⟩ := by
      rw [restart, hdrawn.base_eq, hdrawn.max_eq]
    rw [step_restart hc, hrestart]
  · rw [step_restart hc]
    exact hsound.drawnFrom_of_ge (Nat.le_refl _)

/-- Two callers draw from one generator between a tenth and four tenths of a second, and one of
them from a restart of it: the first generator goes on where it was. -/
theorem draws_follow_pure_two_callers :
    let b : Backoff :=
      ⟨⟨0, 100_000_000, by decide, by decide⟩, ⟨0, 400_000_000, by decide, by decide⟩, 0⟩
    let p := (single b).run [.draw 1 0, .draw 2 0, .restart 0, .draw 2 1, .draw 1 0]
    make b.base b.max = .ok b ∧ 0 < p.generators.length ∧
    p.drawnFrom 0 = [0, 1, 2].map (pureDelay b.base b.max) ∧
    (∀ caller, (p.step (.draw caller 0)).handouts =
      p.handouts ++ [⟨caller, 0, pureDelay b.base b.max 3⟩]) := by
  intro b p
  have hmake : make b.base b.max = .ok b := make_eq_ok_iff.mpr ⟨by decide, by decide, rfl⟩
  have hbegun : 0 < p.generators.length := by decide
  have hcount : (p.drawnFrom 0).length = 3 := by decide
  obtain ⟨hpure, hnext, -⟩ := draws_follow_pure hmake (p := p) rfl hbegun
  rw [hcount] at hpure hnext
  exact ⟨hmake, hbegun, hpure, hnext⟩

end Pool

end Backoff

end Dialer

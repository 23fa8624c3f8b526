import Dialer.Proofs.Connector.Office
import Dialer.Proofs.Resolver.Passage

/-!
# A connector while time passes

A program deals with its connector and lets time pass, as the exchange does that:
`Exchange.passTo` has every task go on at its own time, and `Exchange.jumpTo` passes timers by. Such
a program is one among the runs of an office (`Office.program_runs`): between what it does, the
background goes on in turns, and nothing is left undone. So whatever holds of all runs of an office
holds of every program, and of those that neither stop nor jump if it holds of the undisturbed runs.
-/

namespace Dialer

open Resolver Chronicle

/-- What a program does. -/
inductive Episode where
  | deal (e : Errand)
  /-- Time passes, up to an instant. -/
  | pass (limit : Nat)
  /-- It is another instant at once. -/
  | jump (now : Nat)

namespace Episode

/-- The episode is an errand, or to an instant that is not past. -/
def Fits (c : Connector) : Episode → Prop
  | .deal e => ∀ occurrence, e ≠ .background occurrence
  | .pass limit => c.now ≤ limit
  | .jump now => c.now ≤ now

def disturbs : Episode → Bool
  | .deal e => e.disturbs
  | .pass _ => false
  | .jump _ => true

end Episode

namespace Connector

/-- A connector after an episode. -/
def after (c : Connector) : Episode → Connector
  | .deal e => (Office.step ⟨c, fun _ => none, []⟩ e).connector
  | .pass limit => c.via (·.passTo limit)
  | .jump now => c.via (·.jumpTo now)

/-- Episodes, each of which fits, lead from one connector to another. -/
inductive Leads : Connector → List Episode → Connector → Prop
  | nothing (c : Connector) : Leads c [] c
  | episode {c c' : Connector} {e : Episode} {episodes : List Episode} (hfits : e.Fits c)
      (h : Leads (c.after e) episodes c') : Leads c (e :: episodes) c'

end Connector

namespace Office

variable {config : Config} {byAuthority : Bool} {o : Office}

/-- Occurrences in the background come to errands. -/
theorem run_background {occurrences : List Occurrence}
    (hbackground : ∀ occurrence ∈ occurrences, occurrence.isBackground = true) :
    run (occurrences.map .background) o =
      o.withChronicle (Chronicle.run occurrences o.chronicle) := by
  induction occurrences generalizing o with
  | nil => rfl
  | cons occurrence occurrences ih =>
      have hstep : o.step (.background occurrence) =
          o.withChronicle (o.chronicle.step occurrence) :=
        if_pos (hbackground occurrence List.mem_cons_self)
      show run (occurrences.map .background) (o.step (.background occurrence)) = _
      rw [hstep, ih fun other hother => hbackground other (List.mem_cons_of_mem _ hother)]
      rfl

/-- Errands, none of which disturbs unless that is allowed, lead to a connector, and leave nothing
undone. -/
def Manages (config : Config) (byAuthority disturbed : Bool) (o : Office) (c : Connector) : Prop :=
  ∃ errands, (∀ e ∈ errands, e.disturbs = true → disturbed = true) ∧
    (run errands o).connector = c ∧ (run errands o).Sound config byAuthority ∧
    (run errands o).chronicle.Calm

variable {disturbed : Bool}

/-- What passes is in the background, and disturbs only if that is allowed. -/
theorem background_of_passing {occurrence : Occurrence} (h : Passing disturbed occurrence) :
    occurrence.isBackground = true ∧ occurrence.isAct = false ∧
      ((Errand.background occurrence).disturbs = true → disturbed = true) := by
  cases h with
  | turn hturn =>
      cases hturn with
      | go n => exact ⟨rfl, rfl, Bool.noConfusion⟩
      | sweep n => exact ⟨rfl, rfl, Bool.noConfusion⟩
  | pass now => exact ⟨rfl, rfl, Bool.noConfusion⟩
  | jump now hallowed => exact ⟨rfl, rfl, fun _ => hallowed⟩
  | retire => exact ⟨rfl, rfl, Bool.noConfusion⟩

theorem calm_reaches {v v' : Chronicle} (h : v.Calm)
    (hreaches : Reaches (Deals config byAuthority disturbed) v v') : v'.Calm := by
  obtain ⟨occurrences, hdeals, rfl⟩ := hreaches
  refine run_keeps (Deals config byAuthority disturbed) ?_ h.sound hdeals h
  rintro v o - ⟨-, hact⟩ hcalm
  refine calm_step hcalm fun hpassing => ?_
  rw [(background_of_passing hpassing).2.1] at hact
  cases hact

theorem calm_start (config : Config) (directory : Directory) (byAuthority : Bool)
    (draw : Nat → Float) : (start config directory byAuthority draw).chronicle.Calm := by
  rw [start_chronicle]
  refine run_keeps (P := Calm) (fun o => ¬ Passing true o)
    (fun v o _ hpassing hcalm => calm_step hcalm hpassing)
    (Chronicle.sound_start directory) ?_ (Chronicle.calm_start directory)
  have hopening : ∀ o ∈ opening config, o.isBackground = false := by
    simp [opening, Occurrence.isBackground]
  intro o ho hpassing
  have hopens := hopening o ho
  rw [(background_of_passing hpassing).1] at hopens
  cases hopens

theorem step_connector {e : Errand} (hdeals : ∀ occurrence, e ≠ .background occurrence)
    (o : Office) : (o.step e).connector = o.connector.after (.deal e) := by
  have hconnection (name : String) (f : Connector → Connection → Connector) :
      (o.withConnection name f).connector =
        (withConnection ⟨o.connector, fun _ => none, []⟩ name f).connector := by
    simp only [withConnection]
    cases o.connector.connection? name with
    | none => rfl
    | some connection => rfl
  cases e with
  | connect name raw =>
      simp only [Connector.after, step]
      cases o.connector.connect name raw with
      | ok c => rfl
      | error e => rfl
  | drop name => rfl
  | close name => exact hconnection name _
  | refresh name => exact hconnection name _
  | stop => rfl
  | register scheme addresses complaint => rfl
  | use name breaker updates => exact hconnection name _
  | background occurrence => exact absurd rfl (hdeals occurrence)

/-- What goes on in the background is among the errands. -/
theorem manages_of_passing (h : o.Sound config byAuthority) {v : Chronicle}
    (hcalm : v.Calm) (hreaches : Reaches (Passing disturbed) o.chronicle v) :
    Manages config byAuthority disturbed o { o.connector with exchange := v.exchange } := by
  obtain ⟨occurrences, hpassing, rfl⟩ := hreaches
  have hdisturbs : ∀ e ∈ occurrences.map Errand.background, e.disturbs = true →
      disturbed = true := by
    intro e he
    obtain ⟨occurrence, hmem, rfl⟩ := List.mem_map.mp he
    exact (background_of_passing (hpassing occurrence hmem)).2.2
  have hrun : run (occurrences.map .background) o =
      o.withChronicle (Chronicle.run occurrences o.chronicle) :=
    run_background fun occurrence hmem => (background_of_passing (hpassing occurrence hmem)).1
  refine ⟨_, hdisturbs, ?_, (errands_reach disturbed h _ hdisturbs).1, ?_⟩
  · rw [hrun]
    rfl
  · rw [hrun]
    exact hcalm

theorem episode_managed (disturbed : Bool) (h : o.Sound config byAuthority)
    (hcalm : o.chronicle.Calm) {e : Episode} (hfits : e.Fits o.connector)
    (hdisturbs : e.disturbs = true → disturbed = true) :
    Manages config byAuthority disturbed o (o.connector.after e) := by
  cases e with
  | deal errand =>
      obtain ⟨hsound, hdeals⟩ := deal_reaches disturbed h hfits hdisturbs
      refine ⟨[errand], ?_, step_connector hfits o, hsound, calm_reaches hcalm hdeals⟩
      intro e he
      rw [List.mem_singleton.mp he]
      exact hdisturbs
  | pass limit =>
      obtain ⟨v, hcalm', hreaches, hexchange, -⟩ := reaches_passTo disturbed hcalm hfits
      have hmanaged := manages_of_passing h hcalm' hreaches
      rw [hexchange] at hmanaged
      exact hmanaged
  | jump now =>
      obtain rfl : disturbed = true := hdisturbs rfl
      obtain ⟨v, hcalm', hreaches, hexchange, -⟩ := reaches_jumpTo hcalm hfits
      have hmanaged := manages_of_passing h hcalm' hreaches
      rw [hexchange] at hmanaged
      exact hmanaged

theorem episodes_managed (disturbed : Bool) (h : o.Sound config byAuthority)
    (hcalm : o.chronicle.Calm) {c c' : Connector} (hc : o.connector = c) {episodes : List Episode}
    (hleads : c.Leads episodes c')
    (hdisturbs : ∀ e ∈ episodes, e.disturbs = true → disturbed = true) :
    Manages config byAuthority disturbed o c' := by
  induction hleads generalizing o with
  | nothing c => exact ⟨[], fun _ he => absurd he List.not_mem_nil, hc, h, hcalm⟩
  | episode hfits hrest ih =>
      subst hc
      obtain ⟨first, hfirst, hconnector, hsound, hcalm'⟩ :=
        episode_managed disturbed h hcalm hfits (hdisturbs _ List.mem_cons_self)
      obtain ⟨second, hsecond, hresult⟩ := ih hsound hcalm' hconnector
        fun e he => hdisturbs e (List.mem_cons_of_mem _ he)
      refine ⟨first ++ second, ?_, ?_⟩
      · intro e he
        rcases List.mem_append.mp he with h | h
        · exact hfirst e h
        · exact hsecond e h
      · rw [run_append]
        exact hresult

/-- **Whatever a program does with a connector is a run of an office,** and undisturbed if the
program neither stops the connector nor jumps. -/
theorem program_runs (config : Config) (directory : Directory) (byAuthority : Bool)
    (draw : Nat → Float) {episodes : List Episode} {c : Connector}
    (hleads : (start config directory byAuthority draw).connector.Leads episodes c) :
    ∃ errands, (run errands (start config directory byAuthority draw)).connector = c ∧
      ((∀ e ∈ episodes, e.disturbs = false) → ∀ e ∈ errands, e.disturbs = false) := by
  have hsound := sound_start config directory byAuthority draw
  have hcalm := calm_start config directory byAuthority draw
  obtain ⟨errands, hdisturbed, hconnector, -⟩ :=
    episodes_managed (episodes.any Episode.disturbs) hsound hcalm rfl hleads
      fun e he hdisturbs => List.any_eq_true.mpr ⟨e, he, hdisturbs⟩
  refine ⟨errands, hconnector, fun hquiet e he => Bool.eq_false_iff.mpr fun hdisturbs => ?_⟩
  obtain ⟨episode, hmem, hloud⟩ := List.any_eq_true.mp (hdisturbed e he hdisturbs)
  rw [hquiet episode hmem] at hloud
  cases hloud

end Office

end Dialer

import Rl78Sim.Framework.Transition

/-! # Deterministic Machines Inside a System

    A transducer turns a sequence of inputs into a sequence of outputs. A part
    of a larger system follows a transducer when its view of the state changes
    as the transducer's state does on the inputs that concern it, and on
    nothing else. What such a part puts out in a run then depends on its inputs
    in that run only.
-/

namespace Transition

variable {State Label View Input Output : Type*}

/-- A deterministic machine with outputs. -/
structure Transducer (View Input Output : Type*) where
  start : View
  react : View → Input → View × List Output

namespace Transducer

/-- One more input, after some outputs. -/
def feed (m : Transducer View Input Output) (p : View × List Output) (i : Input) :
    View × List Output :=
  ((m.react p.1 i).1, p.2 ++ (m.react p.1 i).2)

/-- The state and the outputs after all inputs. -/
def replay (m : Transducer View Input Output) (inputs : List Input) : View × List Output :=
  inputs.foldl m.feed (m.start, [])

@[simp] theorem replay_nil (m : Transducer View Input Output) : m.replay [] = (m.start, []) := rfl

@[simp] theorem replay_append (m : Transducer View Input Output) (inputs : List Input) (i : Input) :
    m.replay (inputs ++ [i]) = m.feed (m.replay inputs) i := by
  simp [replay]

end Transducer

/-- Record the inputs and the outputs of every step. -/
def transcribe (input : State → Label → Option Input) (output : State → Label → List Output)
    (s : State) (l : Label) (_ : State) (h : List Input × List Output) :
    List Input × List Output :=
  (h.1 ++ (input s l).toList, h.2 ++ output s l)

/-- The view of a guarded system follows the transducer: a step without an
    input leaves it alone and puts nothing out, and a step with one is that of
    the transducer. -/
structure Transduces (sys : System State Label) (ok : Guard State Label)
    (m : Transducer View Input Output) (view : State → View)
    (input : State → Label → Option Input) (output : State → Label → List Output) : Prop where
  init (s : State) : sys.init s → view s = m.start
  silent (s s' : State) (l : Label) : Reachable sys ok s → ok s l → sys.step s l = some s' →
    input s l = none → view s' = view s ∧ output s l = []
  heard (s s' : State) (l : Label) (i : Input) : Reachable sys ok s → ok s l →
    sys.step s l = some s' → input s l = some i →
      view s' = (m.react (view s) i).1 ∧ output s l = (m.react (view s) i).2

variable {sys : System State Label} {ok : Guard State Label} {m : Transducer View Input Output}
  {view : State → View} {input : State → Label → Option Input}
  {output : State → Label → List Output}

/-- A run puts out what the transducer does on the inputs of the run. -/
theorem Transduces.replay (hf : Transduces sys ok m view input output)
    {s : State × (List Input × List Output)}
    (h : Reachable (sys.logged ([], []) (transcribe input output)) (fun s l => ok s.1 l) s) :
    (view s.1, s.2.2) = m.replay s.2.1 := by
  induction h with
  | init hi =>
    obtain ⟨hinit, hhist⟩ := hi
    rw [hhist, hf.init _ hinit]
    rfl
  | @step s s' l hreach hok hstep ih =>
    obtain ⟨hact, hlog⟩ := System.logged_step_cases hstep
    have hpre : Reachable sys ok s.1 := hreach.unlogged fun _ _ h => h
    rw [hlog]
    unfold transcribe
    cases hinput : input s.1 l with
    | none =>
      obtain ⟨hview, houtput⟩ := hf.silent s.1 s'.1 l hpre hok hact hinput
      simp [hview, houtput, ih]
    | some i =>
      obtain ⟨hview, houtput⟩ := hf.heard s.1 s'.1 l i hpre hok hact hinput
      simp [hview, houtput, Transducer.feed, ← ih]

/-- Two runs with the same inputs put out the same. -/
theorem Transduces.noninterference (hf : Transduces sys ok m view input output)
    {s t : State × (List Input × List Output)}
    (hs : Reachable (sys.logged ([], []) (transcribe input output)) (fun s l => ok s.1 l) s)
    (ht : Reachable (sys.logged ([], []) (transcribe input output)) (fun s l => ok s.1 l) t)
    (hinputs : s.2.1 = t.2.1) : s.2.2 = t.2.2 := by
  have hs' := hf.replay hs
  have ht' := hf.replay ht
  rw [hinputs, ← ht'] at hs'
  exact (Prod.mk.inj hs').2

end Transition

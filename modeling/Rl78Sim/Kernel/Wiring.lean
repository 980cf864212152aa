import Mathlib.Data.Fintype.Card
import Mathlib.Logic.Function.Basic
import Mathlib.Logic.Relation
import Rl78Sim.Framework.Fins

/-! # Wires

    To drive a wire is to call its sinks at once, under the lock of the wire. A
    sink may drive another wire, so a drive goes down a chain of wires and holds
    the lock of each; the lock is not reentrant. A drive comes back unless the
    chain closes on itself, and it changes only the wires below its own.

    The closures of a board share the state of its parts. One that is called may
    change the parts, drive, change the parts again, and so on. The locks of the
    parts are not modelled: a closure takes none that is held by whoever drives.
-/

namespace Rl78Sim

open Relation

variable {W S T : Type}

/-! ### Ports and sinks -/

/-- `SourcePort`: the wire it is bound to, and its place among the sources. -/
structure SourcePort (W : Type) where
  wire : Option W
  index : Nat
  deriving DecidableEq

/-- What a closure does when it is called. -/
inductive SinkCall (W S T : Type) where
  | done (parts : S)
  | drive (parts : S) (port : SourcePort W) (value : T) (next : S → SinkCall W S T)

/-- `SinkFn`: called with the values of all sources, and which of them changed. -/
abbrev Sink (W S T : Type) := S → List T → Nat → SinkCall W S T

/-- The values on the wires, and the parts. -/
structure Wired (W S T : Type) where
  values : W → List T
  parts : S

/-- A call comes back, or waits for a lock that its own caller holds. `unfinished`
    is the end of the fuel. -/
inductive DriveEnd (B : Type) where
  | returned (b : B)
  | deadlock
  | unfinished

/-- One call after another. -/
def DriveEnd.bind {B : Type} : DriveEnd B → (B → DriveEnd B) → DriveEnd B
  | .returned b, next => next b
  | .deadlock, _ => .deadlock
  | .unfinished, _ => .unfinished

/-- Run a closure, where `drive` is what a drive in it does. -/
def SinkCall.run (drive : SourcePort W → T → Wired W S T → DriveEnd (Wired W S T)) :
    SinkCall W S T → (W → List T) → DriveEnd (Wired W S T)
  | .done parts, values => .returned ⟨values, parts⟩
  | .drive parts port value next, values =>
    (drive port value ⟨values, parts⟩).bind fun b => (next b.parts).run drive b.values

/-- Call the sinks of a wire in their order. -/
def notify (drive : SourcePort W → T → Wired W S T → DriveEnd (Wired W S T)) (seen : List T)
    (changed : Nat) : List (Sink W S T) → Wired W S T → DriveEnd (Wired W S T)
  | [], b => .returned b
  | sink :: sinks, b =>
    ((sink b.parts seen changed).run drive b.values).bind (notify drive seen changed sinks)

variable [DecidableEq W]

/-- `SourcePort::drive`, with the locks that the callers hold. -/
def drive (sinks : W → List (Sink W S T)) : Nat → List W → SourcePort W → T → Wired W S T →
    DriveEnd (Wired W S T)
  | 0, _, _, _, _ => .unfinished
  | fuel + 1, held, port, value, b =>
    match port.wire with
    | none => .returned b
    | some w =>
      if w ∈ held then .deadlock
      else
        let values := (b.values w).set port.index value
        notify (drive sinks fuel (w :: held)) values port.index (sinks w)
          { b with values := Function.update b.values w values }

/-- Drives from outside, one after the other. -/
def drive_all (sinks : W → List (Sink W S T)) (fuel : Nat) :
    List (SourcePort W × T) → Wired W S T → DriveEnd (Wired W S T)
  | [], b => .returned b
  | (port, value) :: drives, b =>
    (drive sinks fuel [] port value b).bind (drive_all sinks fuel drives)

/-! ### What can come back -/

section outcomes

variable {B : Type}

/-- What holds of an outcome: `ok` of the state it comes back with, and `dead` if
    it does not come back. It has not run out of fuel. -/
def DriveEnd.Ends (ok : B → Prop) (dead : Prop) : DriveEnd B → Prop
  | .returned b => ok b
  | .deadlock => dead
  | .unfinished => False

theorem DriveEnd.Ends.bind {ok ok' : B → Prop} {dead : Prop} {o : DriveEnd B}
    {next : B → DriveEnd B} (h : o.Ends ok dead) (hnext : ∀ b, ok b → (next b).Ends ok' dead) :
    (o.bind next).Ends ok' dead := by
  cases o with
  | returned b => exact hnext b h
  | deadlock => exact h
  | unfinished => exact h

theorem DriveEnd.Ends.mono {ok ok' : B → Prop} {dead : Prop} {o : DriveEnd B}
    (h : o.Ends ok dead) (hle : ∀ b, ok b → ok' b) : o.Ends ok' dead := by
  cases o with
  | returned b => exact hle b h
  | deadlock => exact h
  | unfinished => exact h

end outcomes

omit [DecidableEq W] in
/-- A closure drives the wire on some path. -/
inductive SinkCall.Drives (w : W) : SinkCall W S T → Prop where
  | here {parts : S} {port : SourcePort W} {value : T} {next : S → SinkCall W S T}
      (h : port.wire = some w) : Drives w (.drive parts port value next)
  | later {parts : S} {port : SourcePort W} {value : T} {next : S → SinkCall W S T} (parts' : S)
      (h : Drives w (next parts')) : Drives w (.drive parts port value next)

/-- A sink of the first wire may drive the second. -/
def Feeds (sinks : W → List (Sink W S T)) (w w' : W) : Prop :=
  ∃ sink ∈ sinks w, ∃ parts seen changed, (sink parts seen changed).Drives w'

variable {dead : Prop} {call : SourcePort W → T → Wired W S T → DriveEnd (Wired W S T)}

omit [DecidableEq W] in
/-- A closure keeps what every drive in it keeps. -/
theorem run_ends (Inv : (W → List T) → Prop) {c : SinkCall W S T}
    (hcall : ∀ port value b, (∀ w, port.wire = some w → c.Drives w) → Inv b.values →
      (call port value b).Ends (fun b' => Inv b'.values) dead) {values : W → List T}
    (hvalues : Inv values) : (c.run call values).Ends (fun b' => Inv b'.values) dead := by
  induction c generalizing values with
  | done parts => exact hvalues
  | drive parts port value next ih =>
    have hfirst := hcall port value ⟨values, parts⟩ (fun _ h => .here h) hvalues
    refine hfirst.bind fun b hb => ?_
    exact ih b.parts
      (fun port value b' hdrives => hcall port value b' fun w h => .later b.parts (hdrives w h)) hb

omit [DecidableEq W] in
/-- And so do the sinks of a wire. -/
theorem notify_ends (Inv : (W → List T) → Prop) {seen : List T} {changed : Nat}
    {list : List (Sink W S T)}
    (hcall : ∀ port value b,
      (∀ w, port.wire = some w → ∃ sink ∈ list, ∃ parts, (sink parts seen changed).Drives w) →
      Inv b.values → (call port value b).Ends (fun b' => Inv b'.values) dead)
    {b : Wired W S T} (hb : Inv b.values) :
    (notify call seen changed list b).Ends (fun b' => Inv b'.values) dead := by
  induction list generalizing b with
  | nil => exact hb
  | cons sink list ih =>
    have hrun : ((sink b.parts seen changed).run call b.values).Ends
        (fun b' => Inv b'.values) dead :=
      run_ends Inv (fun port value b' hdrives => hcall port value b' fun w h =>
        ⟨sink, List.mem_cons_self, b.parts, hdrives w h⟩) hb
    refine hrun.bind fun b' hb' => ih (fun port value c hdrives => ?_) hb'
    refine hcall port value c fun w h => ?_
    obtain ⟨sink', hmem, parts, hsink⟩ := hdrives w h
    exact ⟨sink', List.mem_cons_of_mem _ hmem, parts, hsink⟩

/-! ### One drive -/

variable (sinks : W → List (Sink W S T))

/-- What a drive through a port has done to the values. -/
structure Driven (held : List W) (port : SourcePort W) (value : T) (before after : W → List T) :
    Prop where
  held : ∀ w ∈ held, after w = before w
  own : ∀ w, port.wire = some w → after w = (before w).set port.index value
  below : ∀ x, (∀ w, port.wire = some w → ¬ ReflTransGen (Feeds sinks) w x) → after x = before x

variable {sinks} [Fintype W]

/-- With a lock left for every wire, a drive comes back, or there is a cycle. -/
theorem drive_ends (fuel : Nat) {held : List W} (hnodup : held.Nodup)
    (hfuel : Fintype.card W < held.length + fuel) {port : SourcePort W}
    (hchain : ∀ w, port.wire = some w → ∀ h ∈ held, TransGen (Feeds sinks) h w) (value : T)
    (b : Wired W S T) :
    (drive sinks fuel held port value b).Ends
      (fun b' => Driven sinks held port value b.values b'.values)
      (∃ w, TransGen (Feeds sinks) w w) := by
  induction fuel generalizing held port value b with
  | zero => exact absurd hfuel (not_lt.mpr hnodup.length_le_card)
  | succ fuel ih =>
    unfold drive
    split
    · rename_i hnone
      refine ⟨fun _ _ => rfl, fun w hw => ?_, fun _ _ => rfl⟩
      rw [hnone] at hw
      cases hw
    · rename_i w hwire
      split
      · rename_i hheld
        exact ⟨w, hchain w hwire w hheld⟩
      · rename_i hfree
        -- Under the lock, the wire and those above it stay as they are.
        have hkeep : (notify (drive sinks fuel (w :: held)) ((b.values w).set port.index value)
            port.index (sinks w)
            { b with
              values := Function.update b.values w ((b.values w).set port.index value) }).Ends
            (fun b' => (∀ x ∈ w :: held, b'.values x =
                Function.update b.values w ((b.values w).set port.index value) x) ∧
              ∀ x, ¬ ReflTransGen (Feeds sinks) w x → b'.values x = b.values x)
            (∃ w, TransGen (Feeds sinks) w w) := by
          refine notify_ends (fun values => (∀ x ∈ w :: held, values x =
              Function.update b.values w ((b.values w).set port.index value) x) ∧
            ∀ x, ¬ ReflTransGen (Feeds sinks) w x → values x = b.values x) ?_ ?_
          · rintro port' value' c hdrives ⟨habove, hbelow⟩
            have hfeeds (w' : W) (h : port'.wire = some w') : Feeds sinks w w' := by
              obtain ⟨sink, hmem, parts, hsink⟩ := hdrives w' h
              exact ⟨sink, hmem, parts, _, _, hsink⟩
            refine (ih (List.nodup_cons.mpr ⟨hfree, hnodup⟩) ?_ ?_ value' c).mono fun c' hc => ?_
            · rw [List.length_cons]
              omega
            · intro w' hw' h hmem
              rcases List.mem_cons.mp hmem with rfl | hmem
              · exact .single (hfeeds w' hw')
              · exact .tail (hchain w hwire h hmem) (hfeeds w' hw')
            · refine ⟨fun x hx => (hc.held x hx).trans (habove x hx), fun x hx => ?_⟩
              refine (hc.below x fun w' hw' hreach => ?_).trans (hbelow x hx)
              exact hx (.head (hfeeds w' hw') hreach)
          · refine ⟨fun _ _ => rfl, fun x hx => Function.update_of_ne ?_ ..⟩
            rintro rfl
            exact hx .refl
        refine hkeep.mono fun b' hb => ⟨fun x hx => ?_, fun w' hw' => ?_, fun x hx => ?_⟩
        · have hne : x ≠ w := by
            rintro rfl
            exact hfree hx
          exact (hb.1 x (List.mem_cons_of_mem _ hx)).trans (Function.update_of_ne hne ..)
        · cases hwire.symm.trans hw'
          exact (hb.1 w List.mem_cons_self).trans (Function.update_self ..)
        · exact hb.2 x (hx w hwire)

/-! ### More fuel -/

/-- The same outcome, unless the first has run out of fuel. -/
def DriveEnd.Agrees {B : Type} (o o' : DriveEnd B) : Prop := o = .unfinished ∨ o' = o

theorem DriveEnd.Agrees.bind {B : Type} {o o' : DriveEnd B} {next next' : B → DriveEnd B}
    (h : o.Agrees o') (hnext : ∀ b, (next b).Agrees (next' b)) :
    (o.bind next).Agrees (o'.bind next') := by
  rcases h with rfl | rfl
  · exact .inl rfl
  · cases o' with
    | returned b => exact hnext b
    | deadlock => exact .inr rfl
    | unfinished => exact .inl rfl

omit [DecidableEq W] [Fintype W] in
theorem run_agrees {call' : SourcePort W → T → Wired W S T → DriveEnd (Wired W S T)}
    (hcall : ∀ port value b, (call port value b).Agrees (call' port value b))
    (c : SinkCall W S T) (values : W → List T) :
    (c.run call values).Agrees (c.run call' values) := by
  induction c generalizing values with
  | done parts => exact .inr rfl
  | drive parts port value next ih =>
    exact (hcall port value ⟨values, parts⟩).bind fun b => ih b.parts b.values

omit [DecidableEq W] [Fintype W] in
theorem notify_agrees {call' : SourcePort W → T → Wired W S T → DriveEnd (Wired W S T)}
    (hcall : ∀ port value b, (call port value b).Agrees (call' port value b)) (seen : List T)
    (changed : Nat) (list : List (Sink W S T)) (b : Wired W S T) :
    (notify call seen changed list b).Agrees (notify call' seen changed list b) := by
  induction list generalizing b with
  | nil => exact .inr rfl
  | cons sink list ih => exact (run_agrees hcall _ _).bind ih

omit [Fintype W] in
/-- More fuel does not change how a drive ends. -/
theorem drive_agrees (fuel more : Nat) (held : List W) (port : SourcePort W) (value : T)
    (b : Wired W S T) :
    (drive sinks fuel held port value b).Agrees
      (drive sinks (fuel + more) held port value b) := by
  induction fuel generalizing held port value b with
  | zero => exact .inl rfl
  | succ fuel ih =>
    rw [Nat.add_right_comm]
    unfold drive
    split
    · exact .inr rfl
    · split
      · exact .inr rfl
      · exact notify_agrees (fun port value b => ih _ port value b) _ _ _ _

/-! ### Main results -/

/-- The values of a wire after drives, if they all are on ports of it. -/
def shown_on (w : W) (values : List T) (drives : List (SourcePort W × T)) : List T :=
  drives.foldl
    (fun values d => if d.1.wire = some w then values.set d.1.index d.2 else values) values

/-- Without a cycle a drive comes back, with any fuel beyond the number of wires. -/
theorem drive_returns (hacyclic : ∀ w, ¬ TransGen (Feeds sinks) w w) (port : SourcePort W)
    (value : T) (b : Wired W S T) :
    ∃ b', (∀ fuel, Fintype.card W < fuel → drive sinks fuel [] port value b = .returned b') ∧
      Driven sinks [] port value b.values b'.values := by
  have hends : (drive sinks (Fintype.card W + 1) [] port value b).Ends
      (fun b' => Driven sinks [] port value b.values b'.values)
      (∃ w, TransGen (Feeds sinks) w w) :=
    drive_ends (Fintype.card W + 1) List.nodup_nil (by simp)
      (fun _ _ h hin => absurd hin List.not_mem_nil) value b
  cases hdrive : drive sinks (Fintype.card W + 1) [] port value b with
  | returned b' =>
    rw [hdrive] at hends
    refine ⟨b', fun fuel hfuel => ?_, hends⟩
    obtain ⟨more, rfl⟩ := Nat.exists_eq_add_of_le hfuel
    have hagrees : (drive sinks (Fintype.card W + 1) [] port value b).Agrees
        (drive sinks (Fintype.card W + 1 + more) [] port value b) := drive_agrees ..
    rcases hagrees with h | h
    · rw [hdrive] at h
      cases h
    · exact h.trans hdrive
  | deadlock =>
    rw [hdrive] at hends
    obtain ⟨w, hcycle⟩ := hends
    exact absurd hcycle (hacyclic w)
  | unfinished =>
    rw [hdrive] at hends
    exact hends.elim

omit [DecidableEq W] [Fintype W] in
/-- No chain leads to a wire that no sink drives. -/
theorem not_reaches_root {w w' : W} (hroot : ∀ x, ¬ Feeds sinks x w) (hne : w' ≠ w) :
    ¬ ReflTransGen (Feeds sinks) w' w := by
  intro hreach
  rcases ReflTransGen.cases_tail hreach with heq | ⟨x, -, hfeeds⟩
  · exact hne heq.symm
  · exact hroot x hfeeds

/-- Where no chain of sinks closes on itself, and no sink waits for a lock of a
    part, all drives come back, with any fuel beyond the number of wires and with
    the same values. A wire that no sink drives then shows for each source what
    was last driven through it, and a wire below none of the driven ones is as
    before. -/
theorem drives_return (hacyclic : ∀ w, ¬ TransGen (Feeds sinks) w w)
    (drives : List (SourcePort W × T)) (b : Wired W S T) :
    ∃ b', (∀ fuel, Fintype.card W < fuel → drive_all sinks fuel drives b = .returned b') ∧
      (∀ w, (∀ w', ¬ Feeds sinks w' w) → b'.values w = shown_on w (b.values w) drives) ∧
      ∀ x, (∀ d ∈ drives, ∀ w, d.1.wire = some w → ¬ ReflTransGen (Feeds sinks) w x) →
        b'.values x = b.values x := by
  induction drives generalizing b with
  | nil => exact ⟨b, fun _ _ => rfl, fun _ _ => rfl, fun _ _ => rfl⟩
  | cons d drives ih =>
    obtain ⟨port, value⟩ := d
    obtain ⟨b₁, hdrive, hdriven⟩ := drive_returns hacyclic port value b
    obtain ⟨b₂, hrest, hroots, hbelow⟩ := ih b₁
    refine ⟨b₂, fun fuel hfuel => ?_, fun w hroot => ?_, fun x hx => ?_⟩
    · show (drive sinks fuel [] port value b).bind _ = _
      rw [hdrive fuel hfuel]
      exact hrest fuel hfuel
    · rw [hroots w hroot]
      show _ = drives.foldl _ (if port.wire = some w then _ else _)
      by_cases hwire : port.wire = some w
      · rw [if_pos hwire, hdriven.own w hwire]
        rfl
      · have hsame : b₁.values w = b.values w := by
          refine hdriven.below w fun w' hw' => not_reaches_root hroot ?_
          rintro rfl
          exact hwire hw'
        rw [if_neg hwire, hsame]
        rfl
    · rw [hbelow x fun d hd => hx d (List.mem_cons_of_mem _ hd)]
      exact hdriven.below x fun w hw => hx _ List.mem_cons_self w hw

/-- A wire whose sink drives a second one, with a sink that keeps what it gets. -/
def chained : Bool → List (Sink Bool (List Nat) Nat)
  | false => [fun parts seen changed => .drive parts ⟨some true, 0⟩ (seen.getD changed 0) .done]
  | true => [fun parts seen changed => .done (parts ++ seen[changed]?.toList)]

theorem chained_feeds {w w' : Bool} (h : Feeds chained w w') : w = false ∧ w' = true := by
  obtain ⟨sink, hmem, parts, seen, changed, hdrives⟩ := h
  cases w with
  | false =>
    cases List.mem_singleton.mp hmem
    cases hdrives with
    | here hwire => exact ⟨rfl, (Option.some.inj hwire).symm⟩
    | later parts' hnext => cases hnext
  | true =>
    cases List.mem_singleton.mp hmem
    cases hdrives

theorem drives_return_chained : ∃ b',
    drive_all chained 3 [(⟨some false, 0⟩, 7), (⟨some false, 0⟩, 9)] ⟨fun _ => [0], []⟩ =
      .returned b' ∧ b'.values false = [9] ∧ b'.parts = [7, 9] := by
  have hacyclic : ∀ w, ¬ TransGen (Feeds chained) w w := by
    intro w hcycle
    obtain ⟨x, hfirst, -⟩ := TransGen.head'_iff.mp hcycle
    obtain ⟨y, -, hlast⟩ := TransGen.tail'_iff.mp hcycle
    have hends := (chained_feeds hfirst).1.symm.trans (chained_feeds hlast).2
    cases hends
  obtain ⟨b', hreturned, hroots, -⟩ := drives_return hacyclic
    [(⟨some false, 0⟩, 7), (⟨some false, 0⟩, 9)] ⟨fun _ => [0], []⟩
  have hdrive := hreturned 3 (by decide)
  refine ⟨b', hdrive, hroots false fun w' h => ?_, ?_⟩
  · cases (chained_feeds h).2
  · cases hdrive
    rfl

end Rl78Sim

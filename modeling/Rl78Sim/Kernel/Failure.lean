import Rl78Sim.Kernel.Sim

/-! # Which Polls Fail

    The one error of a poll is an instruction period that exceeds the quantum:
    a machine checks it once the events already due have fired. Plants never
    fail.
-/

namespace Rl78Sim

namespace Machine

variable {C Ev F : Type} [Cpu C Ev F]

/-- Once the events already due have fired, an instruction does not fit into a
    quantum. -/
def period_exceeds (m : Machine C Ev F) (fuel max_quantum : Nat) : Bool :=
  match fire_due_events fuel m with
  | some (m, none) => m.period.any fun ns_per_insn => max_quantum < ns_per_insn
  | _ => false

theorem finish_poll_no_error {m m' : Machine C Ev F} {fuel : Nat} {err : SimError} :
    finish_poll fuel m ≠ some (m', .Done (.Error err)) := by
  intro h
  obtain ⟨⟨fired, stop⟩, -, heq⟩ := Option.map_eq_some_iff.mp h
  cases stop <;> cases heq

theorem idle_no_error {m m' : Machine C Ev F} {fuel budget : Nat} {err : SimError} :
    m.idle fuel budget ≠ some (m', .Done (.Error err)) := by
  intro h
  unfold idle at h
  split at h
  · cases h
  · exact finish_poll_no_error h

theorem quantum_no_error {m m' : Machine C Ev F} {fuel ns_per_insn budget n : Nat}
    {err : SimError} : m.quantum fuel ns_per_insn budget n ≠ some (m', .Done (.Error err)) := by
  intro h
  unfold quantum at h
  dsimp only at h
  split at h
  · cases h
  · unfold settle at h
    split at h
    · cases h
    · split at h
      · cases h
      · exact finish_poll_no_error h

/-- A poll of a machine fails only for its instruction period. -/
theorem poll_error_iff {m m' : Machine C Ev F} {fuel : Nat} {ctx : AdvanceCtx} {r : EntityPoll}
    (h : m.poll fuel ctx = some (m', r)) :
    (∃ err, r = .Done (.Error err)) ↔ m.period_exceeds fuel ctx.max_quantum = true := by
  unfold poll at h
  unfold period_exceeds
  split at h
  · cases h
  · rename_i fired stop hfire
    cases h
    simp [hfire]
  · rename_i fired hfire
    simp only [hfire]
    unfold run at h
    dsimp only at h
    have hperiod : ({ fired with events := fired.events.next_deadline.1 } : Machine C Ev F).period =
        fired.period := rfl
    rw [hperiod] at h
    cases hp : fired.period with
    | none =>
      simp only [hp] at h
      refine ⟨?_, fun hfalse => by cases hfalse⟩
      rintro ⟨err, rfl⟩
      exact absurd h idle_no_error
    | some ns_per_insn =>
      simp only [hp] at h
      simp only [Option.any_some, decide_eq_true_eq]
      split at h
      · rename_i hlong
        cases h
        exact ⟨fun _ => hlong, fun _ => ⟨_, rfl⟩⟩
      · rename_i hfits
        refine ⟨?_, fun hlong => absurd hlong hfits⟩
        rintro ⟨err, rfl⟩
        split at h
        · exact absurd h idle_no_error
        · exact absurd h quantum_no_error

end Machine

namespace Board

variable {C Ev M F : Type} [Cpu C Ev F] [Model M F]

/-- The board is a machine whose instruction period exceeds the quantum. -/
def period_exceeds (fuel max_quantum : Nat) : Board C Ev M F → Bool
  | .machine m => m.period_exceeds fuel max_quantum
  | .plant _ => false

theorem poll_error_iff {b b' : Board C Ev M F} {fuel : Nat} {ctx : AdvanceCtx} {r : EntityPoll}
    (h : Entity.poll fuel b ctx = some (b', r)) :
    (∃ err, r = .Done (.Error err)) ↔ b.period_exceeds fuel ctx.max_quantum = true := by
  rcases poll_cases h with ⟨m, m', rfl, rfl, hm⟩ | ⟨p, p', rfl, rfl, hp⟩
  · exact Machine.poll_error_iff hm
  · refine ⟨?_, fun hfalse => by cases hfalse⟩
    rintro ⟨err, rfl⟩
    replace hp : p.poll ctx = (p', .Done (.Error err)) := Option.some.inj hp
    rcases Plant.poll_cases p ctx with heq | ⟨delta, -, heq⟩ | heq <;> rw [heq] at hp <;> cases hp

end Board

namespace Simulator

/-- A poll of a running simulator answers with an error exactly when its entity
    fails. -/
theorem poll_error_iff {C Ev M F : Type} [Cpu C Ev F] [Model M F]
    {sim sim' : Simulator (Board C Ev M F)} {fuel : Nat} {rsp : Option Response}
    (hrun : sim.state = .Running) (h : sim.poll fuel = some (sim', rsp)) :
    (∃ err, rsp = some (.Error err)) ↔
      sim.entity.period_exceeds fuel sim.max_quantum = true := by
  rw [poll, if_pos hrun, Option.map_eq_some_iff] at h
  obtain ⟨⟨entity, r⟩, hpoll, heq⟩ := h
  rw [← show sim.advance_ctx.max_quantum = sim.max_quantum from rfl,
    ← Board.poll_error_iff hpoll]
  dsimp only at heq
  have hrsp : rsp = (({ sim with entity := entity } : Simulator _).complete r).2 := by rw [heq]
  subst hrsp
  constructor
  · rintro ⟨err, herr⟩
    unfold complete at herr
    split at herr
    · cases herr
    · split at herr <;> cases herr
    · unfold commit_stop at herr
      split at herr
      · split at herr <;> cases herr
      · cases herr
    · exact ⟨_, rfl⟩
    · rename_i other hstop herr'
      rcases LawfulEntity.poll_done hpoll with ⟨reason, rfl⟩ | ⟨err', rfl⟩
      · exact absurd rfl (hstop reason)
      · exact ⟨err', rfl⟩
  · rintro ⟨err, rfl⟩
    exact ⟨err, rfl⟩

end Simulator

end Rl78Sim

import Rl78Sim.Kernel.Bookings

/-! # Recorded Events

    A peripheral keeps the id of an event that it schedules, so that it can
    cancel it. The records are in order when, among the live events, each one
    that belongs to a slot of a peripheral is the one recorded there, and no
    other event is. Scheduling into a free slot, cancelling what a slot records
    and serving an event keep them so. What the peripheral does leaves the events
    of the others alone, so that each has its records to itself. -/

namespace Rl78Sim

variable {Ev σ : Type} [DecidableEq σ]

/-- `ids` records the live events of `q`; `slot` tells where an event belongs. -/
structure Recorded (slot : Ev → Option σ) (ids : σ → Option Nat) (q : EventQueue Ev) : Prop where
  sound : q.Sound
  old {s : σ} {id : Nat} : ids s = some id → id ≤ q.next_id
  owns {b : Booking Ev} : q.Books b → ∀ s, ids s = some b.id ↔ slot b.event = some s

/-- No event of the slot is live. -/
def Idle (slot : Ev → Option σ) (q : EventQueue Ev) (s : σ) : Prop :=
  ∀ b, q.Books b → slot b.event ≠ some s

namespace Recorded

variable {slot : Ev → Option σ} {ids : σ → Option Nat} {q : EventQueue Ev} {s : σ}

omit [DecidableEq σ] in
theorem new (slot : Ev → Option σ) : Recorded slot (fun _ => none) EventQueue.new :=
  ⟨EventQueue.sound_new, nofun, fun hb => absurd hb (EventQueue.not_books_new _)⟩

omit [DecidableEq σ] in
/-- A slot without a record has no live event. -/
theorem idle_of_none (h : Recorded slot ids q) (hs : ids s = none) : Idle slot q s := by
  intro b hb hslot
  rw [(h.owns hb s).mpr hslot] at hs
  cases hs

/-- A slot that has no live event may drop its record, or keep a stale one. -/
theorem forget (h : Recorded slot ids q) (hidle : Idle slot q s) :
    Recorded slot (Function.update ids s none) q := by
  refine ⟨h.sound, fun {s' id} hid => ?_, fun {b} hb s' => ?_⟩
  · by_cases hs : s' = s
    · subst hs
      simp at hid
    · rw [Function.update_of_ne hs] at hid
      exact h.old hid
  · by_cases hs : s' = s
    · subst hs
      simpa using hidle b hb
    · rw [Function.update_of_ne hs]
      exact h.owns hb s'

/-- What the slot records is cancelled; with nothing recorded nothing happens. -/
theorem cancel (h : Recorded slot ids q) (s : σ) :
    Recorded slot (Function.update ids s none)
      (match ids s with
        | some id => (q.cancel id).1
        | none => q) := by
  cases hs : ids s with
  | none => exact h.forget (h.idle_of_none hs)
  | some id =>
    dsimp only
    refine ⟨h.sound.cancel id, fun {s' id'} hid => ?_, fun {b} hb s' => ?_⟩
    · have hnext : (q.cancel id).1.next_id = q.next_id := by
        unfold EventQueue.cancel
        split <;> rfl
      rw [hnext]
      by_cases hss : s' = s
      · subst hss
        simp at hid
      · rw [Function.update_of_ne hss] at hid
        exact h.old hid
    · obtain ⟨hb, hne⟩ := (EventQueue.books_cancel q id b).mp hb
      by_cases hss : s' = s
      · subst hss
        have howns := h.owns hb s'
        rw [hs] at howns
        simp only [Function.update_self, reduceCtorEq, false_iff]
        intro hslot
        exact hne (Option.some.inj (howns.mpr hslot)).symm
      · rw [Function.update_of_ne hss]
        exact h.owns hb s'

omit [DecidableEq σ] in
/-- The new id is recorded nowhere. -/
theorem ne_next (h : Recorded slot ids q) (s : σ) : ids s ≠ some (q.next_id + 1) := by
  intro hid
  have hle := h.old hid
  omega

/-- An event is scheduled into a slot that has no live one. -/
theorem schedule (h : Recorded slot ids q) (hidle : Idle slot q s) {event : Ev}
    (hslot : slot event = some s) (at_ : Nat) :
    Recorded slot (Function.update ids s (some (q.next_id + 1))) (q.schedule at_ event).1 := by
  refine ⟨h.sound.schedule at_ event, fun {s' id} hid => ?_, fun {b} hb s' => ?_⟩
  · change id ≤ q.next_id + 1
    by_cases hs : s' = s
    · subst hs
      simp only [Function.update_self, Option.some.injEq] at hid
      omega
    · rw [Function.update_of_ne hs] at hid
      exact Nat.le_succ_of_le (h.old hid)
  · rcases (h.sound.books_schedule at_ event b).mp hb with rfl | hold
    · by_cases hs : s' = s
      · subst hs
        simp [hslot]
      · rw [Function.update_of_ne hs, hslot]
        simpa [Ne.symm hs] using h.ne_next s'
    · by_cases hs : s' = s
      · subst hs
        have hle := hold.id_le h.sound
        simp only [Function.update_self, Option.some.injEq]
        exact ⟨fun hid => absurd hid (by omega), fun hs => absurd hs (hidle b hold)⟩
      · rw [Function.update_of_ne hs]
        exact h.owns hold s'

omit [DecidableEq σ] in
/-- An event that belongs to no slot is scheduled. -/
theorem schedule_free (h : Recorded slot ids q) {event : Ev} (hslot : slot event = none)
    (at_ : Nat) : Recorded slot ids (q.schedule at_ event).1 := by
  refine ⟨h.sound.schedule at_ event, fun {s' id} hid => Nat.le_succ_of_le (h.old hid),
    fun {b} hb s' => ?_⟩
  rcases (h.sound.books_schedule at_ event b).mp hb with rfl | hold
  · rw [hslot]
    simpa using h.ne_next s'
  · exact h.owns hold s'

omit [DecidableEq σ] in
/-- Serving the queue keeps the records; the slot of a served event is idle. -/
theorem pop_due (h : Recorded slot ids q) (now : Nat) :
    Recorded slot ids (q.pop_due now).1 ∧
      ∀ id event s, (q.pop_due now).2 = some (id, event) → slot event = some s →
        Idle slot (q.pop_due now).1 s := by
  have hserved := h.sound.served now
  revert hserved
  generalize q.pop_due now = popped
  intro hserved
  cases hserved with
  | nothing q' _ hsound hnext hbooks =>
    refine ⟨⟨hsound, fun hid => hnext ▸ h.old hid, fun hb => h.owns ((hbooks _).mp hb)⟩, ?_⟩
    intro id event s hpop
    cases hpop
  | event q' b hb _ _ hsound hnext hbooks =>
    refine ⟨⟨hsound, fun hid => hnext ▸ h.old hid, fun hb' => h.owns ((hbooks _).mp hb').1⟩, ?_⟩
    intro id event s hpop hslot b' hb' hslot'
    cases hpop
    obtain ⟨hb', hne⟩ := (hbooks b').mp hb'
    have hid := (h.owns hb s).mpr hslot
    rw [(h.owns hb' s).mpr hslot'] at hid
    exact hne (Option.some.inj hid)

omit [DecidableEq σ] in
theorem next_deadline (h : Recorded slot ids q) : Recorded slot ids q.next_deadline.1 := by
  have hsame : q.drop_stale.agenda = q.agenda := h.sound.wf.agenda_drop_stale
  refine ⟨⟨h.sound.wf.drop_stale, ?_⟩, h.old, fun {b} hb => h.owns ?_⟩
  · show q.drop_stale.agenda.entries.Pairwise _
    rw [hsame]
    exact h.sound.ids
  · have hb : q.drop_stale.agenda.Books b := hb
    rw [hsame] at hb
    exact hb

end Recorded

/-! ### What one peripheral does -/

/-- The records are in order, and since the queue was `q₀` only events of a slot
    have come and gone. -/
structure Since (slot : Ev → Option σ) (q₀ : EventQueue Ev) (ids : σ → Option Nat)
    (q : EventQueue Ev) : Prop extends Recorded slot ids q where
  next : q₀.next_id ≤ q.next_id
  same {b : Booking Ev} : slot b.event = none → (q.Books b ↔ q₀.Books b)
  back {b : Booking Ev} : q.Books b → b.id ≤ q₀.next_id → q₀.Books b

omit [DecidableEq σ] in
theorem Recorded.since {slot : Ev → Option σ} {ids : σ → Option Nat} {q : EventQueue Ev}
    (h : Recorded slot ids q) : Since slot q ids q :=
  ⟨h, Nat.le_refl _, fun _ => Iff.rfl, fun hb _ => hb⟩

namespace Since

variable {slot : Ev → Option σ} {ids : σ → Option Nat} {q₀ q : EventQueue Ev} {s : σ}

theorem forget (h : Since slot q₀ ids q) (hidle : Idle slot q s) :
    Since slot q₀ (Function.update ids s none) q :=
  ⟨h.toRecorded.forget hidle, h.next, h.same, h.back⟩

theorem cancel (h : Since slot q₀ ids q) (s : σ) :
    Since slot q₀ (Function.update ids s none)
      (match ids s with
        | some id => (q.cancel id).1
        | none => q) := by
  refine ⟨h.toRecorded.cancel s, ?_, ?_, ?_⟩
  all_goals
    cases hs : ids s with
    | none => first | exact h.next | exact h.same | exact h.back
    | some id => ?_
  · have hnext : (q.cancel id).1.next_id = q.next_id := by
      unfold EventQueue.cancel
      split <;> rfl
    exact hnext ▸ h.next
  · intro b hfree
    rw [← h.same hfree]
    refine (EventQueue.books_cancel q id b).trans ⟨And.left, fun hb => ⟨hb, ?_⟩⟩
    -- the id recorded is that of an event of the slot
    rintro rfl
    rw [(h.owns hb s).mp hs] at hfree
    cases hfree
  · intro b hb hle
    exact h.back ((EventQueue.books_cancel q id b).mp hb).1 hle

theorem schedule (h : Since slot q₀ ids q) (hidle : Idle slot q s) {event : Ev}
    (hslot : slot event = some s) (at_ : Nat) :
    Since slot q₀ (Function.update ids s (some (q.next_id + 1))) (q.schedule at_ event).1 := by
  refine ⟨h.toRecorded.schedule hidle hslot at_, Nat.le_succ_of_le h.next, ?_, ?_⟩
  · intro b hfree
    rw [← h.same hfree, h.sound.books_schedule]
    refine ⟨fun hb => hb.resolve_left ?_, .inr⟩
    rintro rfl
    rw [hslot] at hfree
    cases hfree
  · intro b hb hle
    rcases (h.sound.books_schedule at_ event b).mp hb with rfl | hold
    · have hnext := h.next
      simp only at hle
      omega
    · exact h.back hold hle

end Since

omit [DecidableEq σ] in
/-- The records of one peripheral stand through what another one does. -/
theorem Recorded.frame {τ : Type} {slot : Ev → Option σ} {other : Ev → Option τ}
    {ids : σ → Option Nat} {ids' : τ → Option Nat} {q q' : EventQueue Ev}
    (h : Recorded slot ids q) (hs : Since other q ids' q')
    (hdisj : ∀ event s, slot event = some s → other event = none) : Recorded slot ids q' := by
  refine ⟨hs.sound, fun hid => Nat.le_trans (h.old hid) hs.next, fun {b} hb s => ⟨?_, ?_⟩⟩
  · intro hid
    exact (h.owns (hs.back hb (h.old hid)) s).mp hid
  · intro hslot
    exact (h.owns ((hs.same (hdisj _ s hslot)).mp hb) s).mpr hslot

/-! ### Other names for the events -/

variable {Ev' : Type}

/-- The queue, with its events renamed. -/
def EventQueue.map (f : Ev → Ev') (q : EventQueue Ev) : EventQueue Ev' :=
  { q with events := q.events.map fun e => (e.1, f e.2) }

namespace EventQueue

theorem lookup_map (f : Ev → Ev') (q : EventQueue Ev) (id : Nat) :
    (q.map f).events.lookup id = (q.events.lookup id).map f := by
  show (q.events.map fun e => (e.1, f e.2)).lookup id = _
  induction q.events with
  | nil => rfl
  | cons e rest ih =>
    obtain ⟨id', event⟩ := e
    rw [List.map_cons, List.lookup_cons, List.lookup_cons, ih]
    cases id == id' <;> rfl

theorem map_map_of_inverse {f : Ev → Ev'} {g : Ev' → Ev} (hgf : ∀ e, g (f e) = e)
    (q : EventQueue Ev) : (q.map f).map g = q := by
  simp [map, hgf, Function.comp_def]

theorem agenda_map_entries (f : Ev → Ev') (q : EventQueue Ev) :
    (q.map f).agenda.entries = q.agenda.entries := by
  simp only [agenda, lookup_map, Option.isSome_map]
  rfl

theorem Sound.map {q : EventQueue Ev} (h : q.Sound) (f : Ev → Ev') : (q.map f).Sound := by
  refine ⟨⟨h.wf.sorted, ?_, h.wf.heap_le, ?_, h.wf.cancelled_le, h.wf.seq_le⟩, ?_⟩
  · intro id hid
    rw [lookup_map, h.wf.cancelled_gone id hid]
    rfl
  · intro id hsome
    rw [lookup_map, Option.isSome_map] at hsome
    exact h.wf.events_le id hsome
  · rw [agenda_map_entries]
    exact h.ids

theorem books_map {f : Ev → Ev'} {g : Ev' → Ev} (hgf : ∀ e, g (f e) = e) (hfg : ∀ e, f (g e) = e)
    (q : EventQueue Ev) (b : Booking Ev') :
    (q.map f).Books b ↔ q.Books ⟨b.id, b.at_, g b.event⟩ := by
  have hlookup : (q.map f).events.lookup b.id = some b.event ↔
      q.events.lookup b.id = some (g b.event) := by
    rw [lookup_map, Option.map_eq_some_iff]
    constructor
    · rintro ⟨event, hevent, hf⟩
      rw [hevent, ← hf, hgf]
    · intro hevent
      exact ⟨_, hevent, hfg _⟩
  unfold Books Agenda.Books
  rw [agenda_map_entries]
  exact and_congr Iff.rfl hlookup

end EventQueue

omit [DecidableEq σ] in
theorem Recorded.map {slot : Ev → Option σ} {slot' : Ev' → Option σ} {ids : σ → Option Nat}
    {q : EventQueue Ev} {f : Ev → Ev'} {g : Ev' → Ev} (h : Recorded slot ids q)
    (hgf : ∀ e, g (f e) = e) (hfg : ∀ e, f (g e) = e) (hslot : ∀ e, slot (g e) = slot' e) :
    Recorded slot' ids (q.map f) := by
  refine ⟨h.sound.map f, h.old, fun {b} hb s => ?_⟩
  rw [h.owns ((EventQueue.books_map hgf hfg q b).mp hb) s, hslot]

omit [DecidableEq σ] in
theorem Idle.map {slot : Ev → Option σ} {slot' : Ev' → Option σ} {q : EventQueue Ev} {s : σ}
    {f : Ev → Ev'} {g : Ev' → Ev} (h : Idle slot q s) (hgf : ∀ e, g (f e) = e)
    (hfg : ∀ e, f (g e) = e) (hslot : ∀ e, slot (g e) = slot' e) : Idle slot' (q.map f) s := by
  intro b hb
  rw [← hslot]
  exact h _ ((EventQueue.books_map hgf hfg q b).mp hb)

omit [DecidableEq σ] in
theorem Since.map {slot : Ev → Option σ} {slot' : Ev' → Option σ} {ids : σ → Option Nat}
    {q₀ q : EventQueue Ev} {f : Ev → Ev'} {g : Ev' → Ev} (h : Since slot q₀ ids q)
    (hgf : ∀ e, g (f e) = e) (hfg : ∀ e, f (g e) = e) (hslot : ∀ e, slot (g e) = slot' e) :
    Since slot' (q₀.map f) ids (q.map f) := by
  refine ⟨h.toRecorded.map hgf hfg hslot, h.next, fun {b} hfree => ?_, fun {b} hb hle => ?_⟩
  · rw [EventQueue.books_map hgf hfg, EventQueue.books_map hgf hfg]
    exact h.same ((hslot _).trans hfree)
  · rw [EventQueue.books_map hgf hfg] at hb ⊢
    exact h.back hb hle

end Rl78Sim

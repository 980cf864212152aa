import Rl78Sim.Cluster.Viewer

/-! # One Viewer at a Time

    A stream that has a token has the lock, and no release of it is under way.
    So two streams never have a token at once, however the jobs come in between.
-/

namespace Rl78Sim

open Transition

namespace ViewerNet

variable {s s' : ViewerNet} {l : ViewerStep}

/-- A stream has been granted a token, and has not been dropped. -/
def Holds (s : ViewerNet) (conn : Nat) (text : String) : Prop :=
  s.conn conn = .replied (some text) ∨ s.conn conn = .holding text

/-- The release of a token is on its way, or in the queue. -/
def Releasing (s : ViewerNet) (text : String) : Prop :=
  .detach text ∈ s.jobs ∨ text ∈ s.detaching

/-- The page has seen a token. -/
def Delivered (s : ViewerNet) (text : String) : Prop :=
  ∃ conn, s.conn conn = .holding text ∨ s.conn conn = .closed (some text)

/-- Nothing is assumed of a step. -/
def AnyViewer (_ : ViewerNet) (_ : ViewerStep) : Prop := True

/-! ### Tokens -/

theorem token_injective {m n : Nat} (hm : m ≤ u64_max) (hn : n ≤ u64_max)
    (h : token m = token n) : m = n := by
  have hlt (k : Nat) (hk : k ≤ u64_max) : k < UInt64.size := Nat.lt_succ_of_le hk
  have hwords := congrArg UInt64.toNat (HashedId.to_hex_injective h)
  rwa [UInt64.toNat_ofNat_of_lt' (hlt m hm), UInt64.toNat_ofNat_of_lt' (hlt n hn)] at hwords

/-! ### What a step does -/

theorem set_conn_self (s : ViewerNet) (conn : Nat) (state : ViewerConn) :
    (s.set_conn conn state).conn conn = state := Function.update_self ..

theorem set_conn_ne (s : ViewerNet) {conn other : Nat} (state : ViewerConn) (h : other ≠ conn) :
    (s.set_conn conn state).conn other = s.conn other := Function.update_of_ne h ..

/-- The handlers of streams of which one has changed. -/
theorem holds_set_conn {conn other : Nat} {state : ViewerConn} {text : String} :
    (s.set_conn conn state).Holds other text ↔
      if other = conn then state = .replied (some text) ∨ state = .holding text
      else s.Holds other text := by
  unfold Holds
  by_cases h : other = conn
  · rw [if_pos h, h, set_conn_self]
  · rw [if_neg h, set_conn_ne s state h]

/-- What is left of a state when nothing is granted and nothing released. -/
structure Shrinks (s s' : ViewerNet) : Prop where
  holds : ∀ conn text, s'.Holds conn text → s.Holds conn text
  live : s'.live = true → s.live = true
  viewer : s'.viewer = s.viewer
  releasing : ∀ text, s'.Releasing text → s.Releasing text
  delivered : ∀ text, s'.Delivered text → s.Delivered text ∨ ∃ conn, s.Holds conn text
  next_request_id : s'.next_request_id < u64_max → s.next_request_id ≤ s'.next_request_id

/-! ### The worker -/

theorem reply_conn (s : ViewerNet) (conn other : Nat) (text : Option String) :
    (s.reply conn text).conn other =
      if other = conn ∧ s.conn conn = .attaching then .replied text else s.conn other := by
  unfold reply
  by_cases hconn : s.conn conn = .attaching
  · rw [if_pos hconn]
    by_cases h : other = conn
    · rw [h, if_pos ⟨rfl, hconn⟩, set_conn_self]
    · rw [if_neg fun hand => h hand.1, set_conn_ne s _ h]
  · rw [if_neg hconn, if_neg fun hand => hconn hand.2]

/-- A reply changes nothing but its handler. -/
theorem reply_eq (s : ViewerNet) (conn : Nat) (text : Option String) :
    s.reply conn text = { s with conn := (s.reply conn text).conn } := by
  unfold reply
  split <;> rfl

theorem answer_eq (s : ViewerNet) (request : Nat) (passes : Bool) :
    s.answer request passes = { s with gated := (s.answer request passes).gated } := by
  unfold answer
  split <;> rfl

theorem reply_holds {conn : Nat} {given : Option String} (other : Nat) (text : String)
    (h : (s.reply conn given).Holds other text) :
    s.Holds other text ∨ other = conn ∧ given = some text := by
  unfold Holds at h ⊢
  rw [reply_conn] at h
  split at h
  · rename_i hand
    rcases h with h | h
    · exact .inr ⟨hand.1, ViewerConn.replied.inj h⟩
    · cases h
  · exact .inl h

theorem reply_delivered {conn : Nat} {given : Option String} (text : String)
    (h : (s.reply conn given).Delivered text) : s.Delivered text := by
  obtain ⟨other, h⟩ := h
  rw [reply_conn] at h
  split at h
  · rcases h with h | h <;> cases h
  · exact ⟨other, h⟩

/-- The lock is given to a stream. -/
def grant (s : ViewerNet) (conn : Nat) : ViewerNet :=
  { s.take_id.reply conn (some (token s.next_request_id)) with
    viewer := some (token s.next_request_id) }

theorem grant_next_request_id (s : ViewerNet) (conn : Nat) :
    (s.grant conn).next_request_id = saturating_add s.next_request_id 1 := by
  unfold grant
  rw [reply_eq]
  rfl

/-- The lock is given to whoever comes when it is free. -/
theorem dispatch_attach (s : ViewerNet) (conn : Nat) :
    (s.live = true ∧ s.viewer = none ∧ s.dispatch (.attach conn) = s.grant conn) ∨
    (¬ (s.live = true ∧ s.viewer = none) ∧ s.dispatch (.attach conn) = s.reply conn none) := by
  unfold dispatch
  cases hlive : s.live with
  | false => exact .inr ⟨fun h => (by cases h.1), rfl⟩
  | true =>
    cases hviewer : s.viewer with
    | none => exact .inl ⟨rfl, rfl, rfl⟩
    | some text => exact .inr ⟨fun h => (by cases h.2), rfl⟩

theorem dispatch_detach (s : ViewerNet) (text : String) :
    (s.live = true ∧ s.viewer = some text ∧
      s.dispatch (.detach text) = { s with viewer := none }) ∨
    (¬ (s.live = true ∧ s.viewer = some text) ∧ s.dispatch (.detach text) = s) := by
  unfold dispatch
  by_cases h : s.live = true ∧ s.viewer = some text
  · exact .inl ⟨h.1, h.2, if_pos h⟩
  · exact .inr ⟨h, if_neg h⟩

theorem work_cases (h : s.step .work = some s') :
    ∃ job jobs, s.jobs = job :: jobs ∧ s' = { s with jobs := jobs }.dispatch job := by
  simp only [step] at h
  split at h
  · cases h
  · rename_i job jobs hjobs
    exact ⟨job, jobs, hjobs, (Option.some.inj h).symm⟩

theorem receive_cases {conn : Nat} (h : s.step (.receive conn) = some s') :
    (∃ text, s.conn conn = .replied (some text) ∧ s' = s.set_conn conn (.holding text)) ∨
      s.conn conn = .replied none ∧ s' = s.set_conn conn (.closed none) := by
  simp only [step] at h
  split at h
  · rename_i text hconn
    exact .inl ⟨text, hconn, (Option.some.inj h).symm⟩
  · rename_i hconn
    exact .inr ⟨hconn, (Option.some.inj h).symm⟩
  · cases h

theorem abandon_cases {conn : Nat} (h : s.step (.abandon conn) = some s') :
    (s.conn conn = .attaching ∨ ∃ given, s.conn conn = .replied given) ∧
      s' = s.set_conn conn .abandoned := by
  simp only [step] at h
  split at h
  · rename_i hconn
    exact ⟨.inl hconn, (Option.some.inj h).symm⟩
  · rename_i given hconn
    exact ⟨.inr ⟨given, hconn⟩, (Option.some.inj h).symm⟩
  · cases h

theorem drop_cases {conn : Nat} (h : s.step (.drop conn) = some s') :
    ∃ text, s.conn conn = .holding text ∧
      s' = { s.set_conn conn (.closed (some text)) with
        detaching := s.detaching ++ [text] } := by
  simp only [step] at h
  split at h
  · rename_i text hconn
    exact ⟨text, hconn, (Option.some.inj h).symm⟩
  · cases h

theorem deliver_cases {text : String} (h : s.step (.deliver text) = some s') :
    text ∈ s.detaching ∧ s' = { s with
      detaching := s.detaching.erase text
      jobs := s.jobs ++ [.detach text] } := by
  simp only [step, Option.ite_none_right_eq_some, Option.some.injEq] at h
  exact ⟨h.1, h.2.symm⟩

theorem lose_cases {text : String} (h : s.step (.lose text) = some s') :
    text ∈ s.detaching ∧ s' = { s with detaching := s.detaching.erase text } := by
  simp only [step, Option.ite_none_right_eq_some, Option.some.injEq] at h
  exact ⟨h.1, h.2.symm⟩

theorem act_cases {request : Nat} (h : s.step (.act request) = some s') :
    ∃ kind, s.gated request = .allowed kind ∧
      s' = { s with
        gated := Function.update s.gated request .sent
        jobs := s.jobs ++ [.run kind] } := by
  simp only [step] at h
  split at h
  · rename_i kind hgated
    exact ⟨kind, hgated, (Option.some.inj h).symm⟩
  · cases h

/-! ### Exclusion -/

/-- A token that has been given out. -/
def Known (s : ViewerNet) (text : String) : Prop :=
  s.viewer = some text ∨ (∃ conn, s.Holds conn text) ∨ s.Releasing text ∨ s.Delivered text

/-- Whoever holds a token holds the lock, and no release of it is under way. -/
structure Exclusive (s : ViewerNet) : Prop where
  owner : s.live = true → ∀ conn text, s.Holds conn text → s.viewer = some text
  one : ∀ conn other text text', s.Holds conn text → s.Holds other text' → conn = other
  kept : ∀ conn text, s.Holds conn text → ¬ s.Releasing text
  issued : ∀ text, s.Known text → ∃ n < s.next_request_id, text = token n

theorem Shrinks.exclusive (h : Shrinks s s') (hs : s.Exclusive)
    (hlt : s'.next_request_id < u64_max) : s'.Exclusive where
  owner hlive conn text hholds := by
    rw [h.viewer]
    exact hs.owner (h.live hlive) conn text (h.holds conn text hholds)
  one conn other text text' hconn hother :=
    hs.one conn other text text' (h.holds _ _ hconn) (h.holds _ _ hother)
  kept conn text hholds hdetach :=
    hs.kept conn text (h.holds _ _ hholds) (h.releasing text hdetach)
  issued text hknown := by
    have hknown' : s.Known text := by
      rcases hknown with hviewer | ⟨conn, hholds⟩ | hdetach | hdelivered
      · exact .inl (h.viewer ▸ hviewer)
      · exact .inr (.inl ⟨conn, h.holds conn text hholds⟩)
      · exact .inr (.inr (.inl (h.releasing text hdetach)))
      · rcases h.delivered text hdelivered with hbefore | hholds
        · exact .inr (.inr (.inr hbefore))
        · exact .inr (.inl hholds)
    obtain ⟨n, hn, heq⟩ := hs.issued text hknown'
    exact ⟨n, hn.trans_le (h.next_request_id hlt), heq⟩

/-- A grant: nobody held a token, and the new one is fresh. -/
theorem Exclusive.grant (hs : s.Exclusive) {conn : Nat} (hlive : s.live = true)
    (hfree : s.viewer = none) (hlt : saturating_add s.next_request_id 1 < u64_max) :
    (s.grant conn).Exclusive := by
  have hnobody (other : Nat) (text : String) : ¬ s.Holds other text := by
    intro hholds
    have howner := hs.owner hlive other text hholds
    rw [hfree] at howner
    cases howner
  have hnew (other : Nat) (text : String)
      (hholds : (s.grant conn).Holds other text) :
      other = conn ∧ text = token s.next_request_id := by
    rcases reply_holds other text hholds with hold | ⟨hconn, htext⟩
    · exact absurd hold (hnobody other text)
    · exact ⟨hconn, (Option.some.inj htext).symm⟩
  have hreleasing (text : String)
      (h : (s.grant conn).Releasing text) : s.Releasing text := by
    unfold ViewerNet.grant at h
    rw [reply_eq] at h
    exact h
  have hless := lt_saturating_succ hlt
  refine ⟨fun _ other text hholds => ?_, fun other other' text text' h h' => ?_,
    fun other text hholds hdetach => ?_, fun text hknown => ?_⟩
  · rw [(hnew other text hholds).2]
    rfl
  · rw [(hnew other text h).1, (hnew other' text' h').1]
  -- A release that is under way is of a token with a smaller number.
  · rw [(hnew other text hholds).2] at hdetach
    obtain ⟨n, hn, heq⟩ := hs.issued _ (.inr (.inr (.inl (hreleasing _ hdetach))))
    have hsame := token_injective (hless.trans hlt).le (hn.trans (hless.trans hlt)).le heq
    exact absurd hsame hn.ne'
  · have hnew' : text = token s.next_request_id ∨ s.Known text := by
      rcases hknown with hviewer | ⟨other, hholds⟩ | hdetach | ⟨other, hdelivered⟩
      · exact .inl (Option.some.inj hviewer).symm
      · exact .inl (hnew other text hholds).2
      · exact .inr (.inr (.inr (.inl (hreleasing text hdetach))))
      · have hold : s.take_id.Delivered text := reply_delivered text ⟨other, hdelivered⟩
        exact .inr (.inr (.inr (.inr hold)))
    rw [grant_next_request_id]
    rcases hnew' with rfl | hold
    · exact ⟨_, hless, rfl⟩
    · obtain ⟨n, hn, heq⟩ := hs.issued text hold
      exact ⟨n, hn.trans hless, heq⟩

/-- The end of a stream: nobody else held its token. -/
theorem Exclusive.drop (hs : s.Exclusive) {conn : Nat} {text : String}
    (hconn : s.conn conn = .holding text) :
    ({ s.set_conn conn (.closed (some text)) with
      detaching := s.detaching ++ [text] } : ViewerNet).Exclusive := by
  have hholds : s.Holds conn text := .inr hconn
  have hold (other : Nat) (text' : String)
      (h : (s.set_conn conn (.closed (some text))).Holds other text') :
      other ≠ conn ∧ s.Holds other text' := by
    rw [holds_set_conn] at h
    split at h
    · rcases h with h | h <;> cases h
    · rename_i hne
      exact ⟨hne, h⟩
  -- The new release is of a token that nobody else holds.
  have hreleasing (text' : String) (h : ({ s.set_conn conn (.closed (some text)) with
      detaching := s.detaching ++ [text] } : ViewerNet).Releasing text') :
      s.Releasing text' ∨ text' = text := by
    rcases h with hjob | hway
    · exact .inl (.inl hjob)
    · rcases List.mem_append.mp hway with hin | hlast
      · exact .inl (.inr hin)
      · exact .inr (List.mem_singleton.mp hlast)
  refine ⟨fun hlive other text' h => hs.owner hlive other text' (hold other text' h).2,
    fun other other' a b ha hb => hs.one other other' a b (hold other a ha).2 (hold other' b hb).2,
    fun other text' h hdetach => ?_, fun text' hknown => ?_⟩
  · obtain ⟨hne, h'⟩ := hold other text' h
    exact hne (hs.one other conn text' text h' hholds)
  · refine hs.issued text' ?_
    rcases hknown with hviewer | ⟨other, h⟩ | hdetach | ⟨other, h⟩
    · exact .inl hviewer
    · exact .inr (.inl ⟨other, (hold other text' h).2⟩)
    · rcases hreleasing text' hdetach with hin | rfl
      · exact .inr (.inr (.inl hin))
      · exact .inr (.inl ⟨conn, hholds⟩)
    · by_cases hne : other = conn
      · rw [hne] at h
        have hstate : (s.set_conn conn (.closed (some text))).conn conn = .closed (some text) :=
          set_conn_self ..
        rcases h with h | h
        · cases hstate.symm.trans h
        · cases hstate.symm.trans h
          exact .inr (.inl ⟨conn, hholds⟩)
      · exact .inr (.inr (.inr ⟨other, set_conn_ne s _ hne ▸ h⟩))

/-- A release: whoever held the token has been dropped. -/
theorem Exclusive.release (hs : s.Exclusive) {text : String} {jobs : List ViewerJob}
    (hlive : s.live = true) (hviewer : s.viewer = some text)
    (hjobs : s.jobs = .detach text :: jobs) :
    ({ s with jobs := jobs, viewer := none } : ViewerNet).Exclusive := by
  have hmem (job : ViewerJob) (h : job ∈ jobs) : job ∈ s.jobs := by
    rw [hjobs]
    exact List.mem_cons_of_mem _ h
  have hnobody (conn : Nat) (text' : String) (h : s.Holds conn text') : False := by
    have hsame := hs.owner hlive conn text' h
    rw [hviewer] at hsame
    refine hs.kept conn text' h (.inl ?_)
    rw [hjobs, Option.some.inj hsame]
    exact List.mem_cons_self
  refine ⟨fun _ conn text' h => (hnobody conn text' h).elim,
    fun conn _ a _ h _ => (hnobody conn a h).elim,
    fun conn text' h => (hnobody conn text' h).elim, fun text' hknown => ?_⟩
  rcases hknown with hnone | ⟨conn, h⟩ | hdetach | hdelivered
  · cases hnone
  · exact (hnobody conn text' h).elim
  · exact hs.issued text' (.inr (.inr (.inl (hdetach.imp (hmem _) id))))
  · exact hs.issued text' (.inr (.inr (.inr hdelivered)))

/-! ### One step -/

theorem Shrinks.refl (s : ViewerNet) : Shrinks s s :=
  ⟨fun _ _ h => h, fun h => h, rfl, fun _ h => h, fun _ h => .inl h, fun _ => le_rfl⟩

/-- Another job at the end of the queue. -/
theorem Shrinks.queue (h : Shrinks s s') (hjobs : s'.jobs = s.jobs) (job : ViewerJob)
    (hjob : ∀ text, job ≠ .detach text) : Shrinks s { s' with jobs := s.jobs ++ [job] } where
  holds := h.holds
  live := h.live
  viewer := h.viewer
  releasing text hdetach := by
    refine h.releasing text (hdetach.imp (fun hin => ?_) id)
    rw [hjobs]
    rcases List.mem_append.mp hin with hold | hlast
    · exact hold
    · exact absurd (List.mem_singleton.mp hlast).symm (hjob text)
  delivered := h.delivered
  next_request_id := h.next_request_id

/-- A handler goes on, and has no other token then. -/
theorem Shrinks.set_conn {conn : Nat} {state : ViewerConn}
    (hholds : ∀ text, state = .replied (some text) ∨ state = .holding text → s.Holds conn text)
    (hclosed : ∀ text, state ≠ .closed (some text)) : Shrinks s (s.set_conn conn state) where
  holds other text h := by
    rw [holds_set_conn] at h
    split at h
    · rename_i heq
      rw [heq]
      exact hholds text h
    · exact h
  live h := h
  viewer := rfl
  releasing _ h := h
  delivered text h := by
    obtain ⟨other, h⟩ := h
    by_cases hne : other = conn
    · rw [hne, set_conn_self] at h
      rcases h with h | h
      · exact .inr ⟨conn, hholds text (.inr h)⟩
      · exact absurd h (hclosed text)
    · rw [set_conn_ne s state hne] at h
      exact .inl ⟨other, h⟩
  next_request_id _ := le_rfl

theorem Shrinks.tail {job : ViewerJob} {jobs : List ViewerJob} (hjobs : s.jobs = job :: jobs) :
    Shrinks s { s with jobs := jobs } where
  holds _ _ h := h
  live h := h
  viewer := rfl
  releasing text h := by
    refine h.imp (fun hin => ?_) id
    rw [hjobs]
    exact List.mem_cons_of_mem _ hin
  delivered _ h := .inl h
  next_request_id _ := le_rfl

theorem Shrinks.reply {conn : Nat} (h : Shrinks s s') : Shrinks s (s'.reply conn none) := by
  rw [reply_eq]
  refine ⟨fun other text hholds => ?_, h.live, h.viewer, h.releasing, fun text hdelivered => ?_,
    h.next_request_id⟩
  · rcases reply_holds other text hholds with hold | ⟨-, hnone⟩
    · exact h.holds other text hold
    · cases hnone
  · exact h.delivered text (reply_delivered text hdelivered)

/-- Fields that the lock does not depend on. -/
theorem Shrinks.of_fields (h : Shrinks s s') {t : ViewerNet} (hconn : t.conn = s'.conn)
    (hlive : t.live = true → s'.live = true) (hviewer : t.viewer = s'.viewer)
    (hjobs : t.jobs = s'.jobs) (hway : t.detaching = s'.detaching)
    (hid : t.next_request_id < u64_max → s'.next_request_id ≤ t.next_request_id) :
    Shrinks s t where
  holds conn text hholds := h.holds conn text (by rwa [Holds, ← hconn])
  live ht := h.live (hlive ht)
  viewer := hviewer.trans h.viewer
  releasing text hdetach := h.releasing text (by rwa [Releasing, ← hjobs, ← hway])
  delivered text hdelivered := h.delivered text (by rwa [Delivered, ← hconn])
  next_request_id hlt := (h.next_request_id ((hid hlt).trans_lt hlt)).trans (hid hlt)

/-- A release comes to the queue, or fails. -/
theorem Shrinks.deliver {text : String} (hway : text ∈ s.detaching) :
    Shrinks s { s with
      detaching := s.detaching.erase text
      jobs := s.jobs ++ [.detach text] } where
  holds _ _ h := h
  live h := h
  viewer := rfl
  releasing text' h := by
    rcases h with hjob | hin
    · rcases List.mem_append.mp hjob with hold | hlast
      · exact .inl hold
      · cases List.mem_singleton.mp hlast
        exact .inr hway
    · exact .inr (List.mem_of_mem_erase hin)
  delivered _ h := .inl h
  next_request_id _ := le_rfl

theorem Shrinks.lose (text : String) :
    Shrinks s { s with detaching := s.detaching.erase text } where
  holds _ _ h := h
  live h := h
  viewer := rfl
  releasing _ h := h.imp id List.mem_of_mem_erase
  delivered _ h := .inl h
  next_request_id _ := le_rfl

/-- What a step does to the lock. -/
inductive Moves (s : ViewerNet) : ViewerStep → ViewerNet → Prop
  /-- Nothing is granted, and nothing is released. -/
  | shrinks {l : ViewerStep} {s' : ViewerNet} (hl : ∀ conn, l ≠ .drop conn) (h : Shrinks s s') :
    Moves s l s'
  /-- A stream ends, and its release sets out. -/
  | drop {conn : Nat} {text : String} (hconn : s.conn conn = .holding text) :
    Moves s (.drop conn) { s.set_conn conn (.closed (some text)) with
      detaching := s.detaching ++ [text] }
  | grant {conn : Nat} {jobs : List ViewerJob} (hjobs : s.jobs = .attach conn :: jobs)
    (hlive : s.live = true) (hfree : s.viewer = none) :
    Moves s .work (({ s with jobs := jobs } : ViewerNet).grant conn)
  | release {text : String} {jobs : List ViewerJob} (hjobs : s.jobs = .detach text :: jobs)
    (hlive : s.live = true) (hviewer : s.viewer = some text) :
    Moves s .work { s with jobs := jobs, viewer := none }

theorem work_moves (h : s.step .work = some s') : Moves s .work s' := by
  obtain ⟨job, jobs, hjobs, rfl⟩ := work_cases h
  have htail := Shrinks.tail hjobs
  have shrinks {t : ViewerNet} (h : Shrinks s t) : Moves s .work t := .shrinks (by rintro _ ⟨⟩) h
  cases job with
  | attach conn =>
    rcases dispatch_attach { s with jobs := jobs } conn with ⟨hlive, hfree, heq⟩ | ⟨-, heq⟩
    · rw [heq]
      exact .grant hjobs hlive hfree
    · rw [heq]
      exact shrinks htail.reply
  | check request text =>
    refine shrinks ?_
    show Shrinks s (answer _ request _)
    rw [answer_eq]
    exact htail.of_fields rfl (fun h => h) rfl rfl rfl fun _ => le_rfl
  | detach text =>
    rcases dispatch_detach { s with jobs := jobs } text with ⟨hlive, hviewer, heq⟩ | ⟨-, heq⟩
    · rw [heq]
      exact .release hjobs hlive hviewer
    · rw [heq]
      exact shrinks htail
  | run kind =>
    refine shrinks ?_
    cases kind with
    | delete => exact htail.of_fields rfl (fun h => by cases h) rfl rfl rfl fun _ => le_rfl
    | numbered =>
      show Shrinks s (if s.live = true then _ else _)
      split
      · exact htail.of_fields rfl (fun h => h) rfl rfl rfl fun hlt => (lt_saturating_succ hlt).le
      · exact htail
    | other => exact htail

theorem step_moves (hstep : s.step l = some s') : Moves s l s' := by
  cases l with
  | connect conn =>
    simp only [step, Option.ite_none_right_eq_some, Option.some.injEq] at hstep
    obtain ⟨-, rfl⟩ := hstep
    refine .shrinks (by rintro _ ⟨⟩) ((Shrinks.set_conn ?_ ?_).queue rfl (.attach conn) ?_)
    · rintro text (h | h) <;> cases h
    · rintro text ⟨⟩
    · rintro text ⟨⟩
  | receive conn =>
    rcases receive_cases hstep with ⟨text, hconn, rfl⟩ | ⟨-, rfl⟩
    · refine .shrinks (by rintro _ ⟨⟩) (Shrinks.set_conn ?_ ?_)
      · rintro text' (h | h)
        · cases h
        · cases h
          exact .inl hconn
      · rintro text' ⟨⟩
    · refine .shrinks (by rintro _ ⟨⟩) (Shrinks.set_conn ?_ ?_)
      · rintro text (h | h) <;> cases h
      · rintro text ⟨⟩
  | abandon conn =>
    obtain ⟨-, rfl⟩ := abandon_cases hstep
    refine .shrinks (by rintro _ ⟨⟩) (Shrinks.set_conn ?_ ?_)
    · rintro text (h | h) <;> cases h
    · rintro text ⟨⟩
  | drop conn =>
    obtain ⟨text, hconn, rfl⟩ := drop_cases hstep
    exact .drop hconn
  | deliver text =>
    obtain ⟨hway, rfl⟩ := deliver_cases hstep
    exact .shrinks (by rintro _ ⟨⟩) (Shrinks.deliver hway)
  | lose text =>
    obtain ⟨-, rfl⟩ := lose_cases hstep
    exact .shrinks (by rintro _ ⟨⟩) (Shrinks.lose text)
  | ask request text kind =>
    simp only [step, Option.ite_none_right_eq_some, Option.some.injEq] at hstep
    obtain ⟨-, rfl⟩ := hstep
    refine .shrinks (by rintro _ ⟨⟩) (((Shrinks.refl s).queue rfl (.check request text)
      ?_).of_fields rfl (fun h => h) rfl rfl rfl fun _ => le_rfl)
    rintro text' ⟨⟩
  | act request =>
    obtain ⟨kind, -, rfl⟩ := act_cases hstep
    refine .shrinks (by rintro _ ⟨⟩) (((Shrinks.refl s).queue rfl (.run kind)
      ?_).of_fields rfl (fun h => h) rfl rfl rfl fun _ => le_rfl)
    rintro text ⟨⟩
  | work => exact work_moves hstep

theorem next_request_id_le (hstep : s.step l = some s') (hlt : s'.next_request_id < u64_max) :
    s.next_request_id ≤ s'.next_request_id := by
  cases step_moves hstep with
  | shrinks _ h => exact h.next_request_id hlt
  | drop _ => exact le_rfl
  | grant _ _ _ =>
    rw [grant_next_request_id] at hlt ⊢
    exact (lt_saturating_succ hlt).le
  | release _ _ _ => exact le_rfl

theorem exclusive_step (hs : s.Exclusive) (hstep : s.step l = some s')
    (hlt : s'.next_request_id < u64_max) : s'.Exclusive := by
  cases step_moves hstep with
  | shrinks _ h => exact h.exclusive hs hlt
  | drop hconn => exact hs.drop hconn
  | grant hjobs hlive hfree =>
    rw [grant_next_request_id] at hlt
    have htail := (Shrinks.tail hjobs).exclusive hs ((lt_saturating_succ hlt).trans hlt)
    exact htail.grant hlive hfree hlt
  | release hjobs hlive hviewer => exact hs.release hlive hviewer hjobs

theorem exclusive_of_reachable {ok : Guard ViewerNet ViewerStep}
    (h : Reachable viewer_net ok s) (hlt : s.next_request_id < u64_max) : s.Exclusive := by
  induction h with
  | init hi =>
    obtain rfl : _ = ViewerNet.new := hi
    have hnobody (conn : Nat) (text : String) : ¬ ViewerNet.new.Holds conn text := by
      rintro (h | h) <;> cases h
    refine ⟨fun _ conn text h => (hnobody conn text h).elim, fun conn _ a _ h _ =>
      (hnobody conn a h).elim, fun conn text h => (hnobody conn text h).elim, ?_⟩
    rintro text (h | ⟨conn, h⟩ | h | ⟨conn, h⟩)
    · cases h
    · exact (hnobody conn text h).elim
    · rcases h with h | h <;> cases h
    · rcases h with h | h <;> cases h
  | step l _ _ hstep ih =>
    exact exclusive_step (ih ((next_request_id_le hstep hlt).trans_lt hlt)) hstep hlt

/-! ### One viewer at a time -/

/-- Two attaches: the first is granted, and the second is refused. -/
def pair_of_streams : List ViewerStep := [.connect 0, .connect 1, .work, .work, .receive 0]

instance (s : ViewerNet) (l : ViewerStep) : Decidable (AnyViewer s l) := .isTrue trivial

instance (s : ViewerNet) (conn : Nat) (text : String) : Decidable (s.Holds conn text) :=
  inferInstanceAs (Decidable (_ ∨ _))

/-- While the request ids have not run out, two streams never have a token at
    once, and the token of a stream is the one that the simulation checks for. -/
theorem viewer_exclusive (h : Reachable viewer_net AnyViewer s)
    (hlt : s.next_request_id < u64_max) :
    (∀ conn other text text', s.Holds conn text → s.Holds other text' →
      conn = other ∧ text = text') ∧
    (s.live = true → ∀ conn text, s.Holds conn text → s.viewer = some text) := by
  have hex := exclusive_of_reachable h hlt
  refine ⟨fun conn other text text' hconn hother => ?_, hex.owner⟩
  obtain rfl := hex.one conn other text text' hconn hother
  refine ⟨rfl, ?_⟩
  rcases hconn with hconn | hconn <;> rcases hother with hother | hother <;>
    cases hconn.symm.trans hother <;> rfl

theorem viewer_exclusive_pair : ∃ s, Reachable viewer_net AnyViewer s ∧
    s.Holds 0 "0000000000000001" ∧ s.conn 1 = .replied none ∧
    (s.live = true → ∀ conn text, s.Holds conn text → s.viewer = some text) := by
  obtain ⟨s, hs, hlt, hholds, hrefused⟩ : ∃ s, Reachable viewer_net AnyViewer s ∧
      s.next_request_id < u64_max ∧ s.Holds 0 "0000000000000001" ∧ s.conn 1 = .replied none :=
    Reachable.exists_of_exec pair_of_streams rfl (by decide +kernel)
  exact ⟨s, hs, hholds, hrefused, (viewer_exclusive hs hlt).2⟩

end ViewerNet

end Rl78Sim

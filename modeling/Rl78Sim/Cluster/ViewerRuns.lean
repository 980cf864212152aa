import Rl78Sim.Cluster.ViewerLock

/-! # The Release of the Lock

    A lock is released with the stream that has it. But when a handler gives up on
    its attach, or the release is lost on its way, the lock is taken for good: no
    stream is opened from there on, and no request passes unless a page has seen
    the token.
-/

namespace Rl78Sim

open Transition

namespace ViewerNet

variable {s s' : ViewerNet} {l : ViewerStep}

/-- No release is lost on its way. -/
def Reliable (_ : ViewerNet) : ViewerStep → Prop
  | .lose _ => False
  | _ => True

/-- No handler gives up on its attach either. -/
def Patient (_ : ViewerNet) : ViewerStep → Prop
  | .abandon _ | .lose _ => False
  | _ => True

instance (s : ViewerNet) (l : ViewerStep) : Decidable (Patient s l) :=
  match l with
  | .abandon _ | .lose _ => .isFalse id
  | .connect _ | .receive _ | .drop _ | .deliver _ | .ask .. | .act _ | .work => .isTrue trivial

/-- A request shows a token that the page has seen. -/
def Honest (s : ViewerNet) : ViewerStep → Prop
  | .ask _ text _ => s.Delivered text
  | _ => True

/-! ### Release -/

/-- Somebody has the lock who will release it. -/
def Owed (s : ViewerNet) (text : String) : Prop :=
  (∃ conn, s.Holds conn text) ∨ s.Releasing text

/-- A stream whose job is in the queue waits for its reply, and every lock is owed. -/
structure Served (s : ViewerNet) : Prop where
  waiting : ∀ conn, .attach conn ∈ s.jobs → s.conn conn = .attaching
  once : ∀ conn, s.jobs.count (.attach conn) ≤ 1
  owed : s.live = true → ∀ text, s.viewer = some text → s.Owed text

/-- A step of a handler that keeps its token, and at most queues a job. -/
theorem Served.keep (hs : s.Served) (job : Option ViewerJob)
    (hjob : ∀ conn, job ≠ some (.attach conn)) (hjobs : s'.jobs = s.jobs ++ job.toList)
    (hviewer : s'.viewer = s.viewer) (hlive : s'.live = s.live)
    (hwaits : ∀ conn, s.conn conn = .attaching → s'.conn conn = .attaching)
    (hway : ∀ text ∈ s.detaching, s'.Releasing text)
    (hholds : ∀ conn text, s.Holds conn text → s'.Owed text) : s'.Served := by
  have hnew (conn : Nat) : (.attach conn ∈ s'.jobs → .attach conn ∈ s.jobs) ∧
      s'.jobs.count (.attach conn) = s.jobs.count (.attach conn) := by
    rw [hjobs]
    cases job with
    | none => simp
    | some job =>
      have hne : job ≠ .attach conn := fun h => hjob conn (congrArg some h)
      simp [Ne.symm hne, hne]
  refine ⟨fun conn h => hwaits conn (hs.waiting conn ((hnew conn).1 h)), fun conn => ?_,
    fun h text htext => ?_⟩
  · rw [(hnew conn).2]
    exact hs.once conn
  · rcases hs.owed (hlive ▸ h) text (hviewer ▸ htext) with ⟨conn, hconn⟩ | hdetach
    · exact hholds conn text hconn
    · rcases hdetach with hjob | hin
      · refine .inr (.inl ?_)
        rw [hjobs]
        exact List.mem_append_left _ hjob
      · exact .inr (hway text hin)

/-- The streams that still wait, without the first job. -/
theorem Served.rest (hs : s.Served) {job : ViewerJob} {jobs : List ViewerJob}
    (hjobs : s.jobs = job :: jobs) (conn : Nat) :
    (.attach conn ∈ jobs → s.conn conn = .attaching ∧ job ≠ .attach conn) ∧
      jobs.count (.attach conn) ≤ 1 := by
  have hcount := hs.once conn
  rw [hjobs, List.count_cons] at hcount
  refine ⟨fun h => ⟨hs.waiting conn (hjobs ▸ List.mem_cons_of_mem _ h), ?_⟩, by omega⟩
  rintro rfl
  have hpos := List.count_pos_iff.mpr h
  rw [if_pos (beq_self_eq_true _)] at hcount
  omega

/-- The first job has been an attach, which has been answered. -/
theorem Served.answered (hs : s.Served) {conn : Nat} {jobs : List ViewerJob}
    (hjobs : s.jobs = .attach conn :: jobs) {given : Option String}
    (hconn : s'.conn = (s.set_conn conn (.replied given)).conn) (hjobs' : s'.jobs = jobs)
    (howed : s'.live = true → ∀ text, s'.viewer = some text → s'.Owed text) : s'.Served := by
  refine ⟨fun other h => ?_, fun other => ?_, howed⟩
  · rw [hjobs'] at h
    obtain ⟨hother, hne⟩ := (hs.rest hjobs other).1 h
    have hdiff : other ≠ conn := by
      rintro rfl
      exact hne rfl
    rw [hconn, set_conn_ne s _ hdiff, hother]
  · rw [hjobs']
    exact (hs.rest hjobs other).2

/-- What is owed by another job than the first is still in the queue. -/
theorem Served.still_owed (hs : s.Served) {job : ViewerJob} {jobs : List ViewerJob}
    (hjobs : s.jobs = job :: jobs) {text : String} (hne : job ≠ .detach text)
    (hlive : s.live = true) (hviewer : s.viewer = some text) :
    ({ s with jobs := jobs } : ViewerNet).Owed text := by
  rcases hs.owed hlive text hviewer with hholds | hjob | hway
  · exact .inl hholds
  · rw [hjobs] at hjob
    rcases List.mem_cons.mp hjob with heq | hin
    · exact absurd heq.symm hne
    · exact .inr (.inl hin)
  · exact .inr (.inr hway)

theorem served_attach (hs : s.Served) {conn : Nat} {jobs : List ViewerJob}
    (hjobs : s.jobs = .attach conn :: jobs) :
    (({ s with jobs := jobs } : ViewerNet).dispatch (.attach conn)).Served := by
  have hattaching : s.conn conn = .attaching := hs.waiting conn (hjobs ▸ List.mem_cons_self)
  rcases dispatch_attach { s with jobs := jobs } conn with ⟨-, -, heq⟩ | ⟨-, heq⟩
  · have hreply : ({ s with jobs := jobs } : ViewerNet).take_id.reply conn
        (some (token s.next_request_id)) =
          ({ s with jobs := jobs } : ViewerNet).take_id.set_conn conn
            (.replied (some (token s.next_request_id))) := if_pos hattaching
    rw [heq, grant, hreply]
    refine hs.answered hjobs rfl rfl fun _ text h => .inl ⟨conn, .inl ?_⟩
    cases h
    exact set_conn_self ..
  · have hreply : ({ s with jobs := jobs } : ViewerNet).reply conn none =
        ({ s with jobs := jobs } : ViewerNet).set_conn conn (.replied none) := if_pos hattaching
    rw [heq, hreply]
    refine hs.answered hjobs rfl rfl fun hlive text h => ?_
    rcases hs.still_owed hjobs (by rintro ⟨⟩) hlive h with ⟨other, hholds⟩ | hdetach
    · have hdiff : other ≠ conn := by
        rintro rfl
        rcases hholds with hholds | hholds <;> cases hattaching.symm.trans hholds
      exact .inl ⟨other, holds_set_conn.mpr (by rwa [if_neg hdiff])⟩
    · exact .inr hdetach

theorem served_work (hs : s.Served) (hstep : s.step .work = some s') : s'.Served := by
  obtain ⟨job, jobs, hjobs, rfl⟩ := work_cases hstep
  have hrest := hs.rest hjobs
  have hkept (hne : ∀ text, s.live = true → s.viewer = some text → job ≠ .detach text) :
      ({ s with jobs := jobs } : ViewerNet).Served :=
    ⟨fun conn h => ((hrest conn).1 h).1, fun conn => (hrest conn).2,
      fun hlive text h => hs.still_owed hjobs (hne text hlive h) hlive h⟩
  cases job with
  | attach conn => exact served_attach hs hjobs
  | check request text =>
    have htail := hkept fun _ _ _ => by rintro ⟨⟩
    show (answer _ request _).Served
    rw [answer_eq]
    exact ⟨htail.waiting, htail.once, htail.owed⟩
  | detach text =>
    rcases dispatch_detach { s with jobs := jobs } text with ⟨-, -, heq⟩ | ⟨hother, heq⟩
    · rw [heq]
      exact ⟨fun conn h => ((hrest conn).1 h).1, fun conn => (hrest conn).2,
        fun _ _ h => by cases h⟩
    · rw [heq]
      refine hkept fun text' hlive hviewer => ?_
      rintro ⟨⟩
      exact hother ⟨hlive, hviewer⟩
  | run kind =>
    have htail := hkept fun _ _ _ => by rintro ⟨⟩
    cases kind with
    | delete => exact ⟨htail.waiting, htail.once, fun h => by cases h⟩
    | numbered =>
      show Served (if s.live = true then _ else _)
      split
      · exact ⟨htail.waiting, htail.once, htail.owed⟩
      · exact htail
    | other => exact htail

/-- A release that comes to the queue is still under way, as are the others. -/
theorem releasing_deliver {text other : String} (h : other ∈ s.detaching) :
    ({ s with
      detaching := s.detaching.erase text
      jobs := s.jobs ++ [.detach text] } : ViewerNet).Releasing other := by
  by_cases heq : other = text
  · exact .inl (List.mem_append_right _ (List.mem_singleton.mpr (by rw [heq])))
  · exact .inr ((List.mem_erase_of_ne heq).mpr h)

theorem waits_of_ne {conn : Nat} {state : ViewerConn} (h : s.conn conn ≠ .attaching) (other : Nat)
    (hother : s.conn other = .attaching) : (s.set_conn conn state).conn other = .attaching := by
  rw [set_conn_ne s state, hother]
  rintro rfl
  exact h hother

theorem served_step (hs : s.Served) (hok : Patient s l) (hstep : s.step l = some s') :
    s'.Served := by
  cases l with
  | connect conn =>
    simp only [step, Option.ite_none_right_eq_some, Option.some.injEq] at hstep
    obtain ⟨hidle, rfl⟩ := hstep
    have hnone : .attach conn ∉ s.jobs := fun h => by
      have hwaits := hs.waiting conn h
      rw [hidle] at hwaits
      cases hwaits
    refine ⟨fun other h => ?_, fun other => ?_, fun hlive text h => ?_⟩
    · by_cases heq : other = conn
      · rw [heq]
        exact set_conn_self ..
      · have hin : .attach other ∈ s.jobs := by simpa [heq] using h
        exact (set_conn_ne s _ heq).trans (hs.waiting other hin)
    · show (s.jobs ++ [ViewerJob.attach conn]).count (.attach other) ≤ 1
      by_cases heq : other = conn
      · rw [heq, List.count_append, List.count_eq_zero.mpr hnone]
        simp
      · simpa [Ne.symm heq] using hs.once other
    · rcases hs.owed hlive text h with ⟨other, hholds⟩ | hdetach
      · have hdiff : other ≠ conn := by
          rintro rfl
          rcases hholds with hholds | hholds <;> cases hidle.symm.trans hholds
        exact .inl ⟨other, holds_set_conn.mpr (by rwa [if_neg hdiff])⟩
      · exact .inr (hdetach.imp (List.mem_append_left _) id)
  | receive conn =>
    rcases receive_cases hstep with ⟨text, hconn, rfl⟩ | ⟨hconn, rfl⟩
    · refine hs.keep none (by rintro _ ⟨⟩) (List.append_nil _).symm rfl rfl
        (waits_of_ne (by rw [hconn]; rintro ⟨⟩)) (fun _ h => .inr h)
        fun other text' h => .inl ⟨other, ?_⟩
      rw [holds_set_conn]
      split
      · rename_i heq
        rw [heq] at h
        rcases h with h | h
        · cases hconn.symm.trans h
          exact .inr rfl
        · cases hconn.symm.trans h
      · exact h
    · refine hs.keep none (by rintro _ ⟨⟩) (List.append_nil _).symm rfl rfl
        (waits_of_ne (by rw [hconn]; rintro ⟨⟩)) (fun _ h => .inr h)
        fun other text' h => .inl ⟨other, ?_⟩
      have hdiff : other ≠ conn := by
        rintro rfl
        rcases h with h | h <;> cases hconn.symm.trans h
      exact holds_set_conn.mpr (by rwa [if_neg hdiff])
  | abandon conn => exact hok.elim
  | drop conn =>
    obtain ⟨text, hconn, rfl⟩ := drop_cases hstep
    refine hs.keep none (by rintro _ ⟨⟩) (List.append_nil _).symm rfl rfl
      (waits_of_ne (by rw [hconn]; rintro ⟨⟩)) (fun _ h => .inr (List.mem_append_left _ h))
      fun other text' h => ?_
    by_cases heq : other = conn
    · rw [heq] at h
      rcases h with h | h
      · cases hconn.symm.trans h
      · cases hconn.symm.trans h
        exact .inr (.inr (List.mem_append_right _ (List.mem_singleton_self _)))
    · exact .inl ⟨other, holds_set_conn.mpr (by rwa [if_neg heq])⟩
  | deliver text =>
    obtain ⟨-, rfl⟩ := deliver_cases hstep
    exact hs.keep (some (.detach text)) (by rintro _ ⟨⟩) rfl rfl rfl (fun _ h => h)
      (fun _ => releasing_deliver) fun conn _ h => .inl ⟨conn, h⟩
  | lose text => exact hok.elim
  | ask request text kind =>
    simp only [step, Option.ite_none_right_eq_some, Option.some.injEq] at hstep
    obtain ⟨-, rfl⟩ := hstep
    exact hs.keep (some (.check request text)) (by rintro _ ⟨⟩) rfl rfl rfl (fun _ h => h)
      (fun _ h => .inr h) fun conn _ h => .inl ⟨conn, h⟩
  | act request =>
    obtain ⟨kind, -, rfl⟩ := act_cases hstep
    exact hs.keep (some (.run kind)) (by rintro _ ⟨⟩) rfl rfl rfl (fun _ h => h)
      (fun _ h => .inr h) fun conn _ h => .inl ⟨conn, h⟩
  | work => exact served_work hs hstep

/-! ### A lock for good -/

/-- The token of the lock is with nobody, and its release is not under way. -/
structure Lost (s : ViewerNet) (text : String) : Prop where
  viewer : s.viewer = some text
  holds : ∀ conn text', ¬ s.Holds conn text'
  releasing : ¬ s.Releasing text

variable {text : String}

/-- A lost lock is neither granted nor released, whatever is done. -/
theorem lost_step (h : s.Lost text) (hstep : s.step l = some s') : s'.Lost text := by
  cases step_moves hstep with
  | shrinks _ hshrinks =>
    exact ⟨hshrinks.viewer.trans h.viewer,
      fun conn text' hholds => h.holds conn text' (hshrinks.holds conn text' hholds),
      fun hreleasing => h.releasing (hshrinks.releasing text hreleasing)⟩
  | drop hconn => exact absurd (.inr hconn) (h.holds _ _)
  | grant _ _ hfree => cases h.viewer.symm.trans hfree
  | release hjobs _ hviewer =>
    cases h.viewer.symm.trans hviewer
    exact absurd (.inl (hjobs ▸ List.mem_cons_self)) h.releasing

/-! ### How a stream goes on -/

/-- What a step makes of the handler of a stream. -/
inductive ConnStep (l : ViewerStep) (conn : Nat) : ViewerConn → ViewerConn → Prop where
  | stays (state : ViewerConn) : ConnStep l conn state state
  | connects : ConnStep l conn .idle .attaching
  | answered (given : Option String) : ConnStep l conn .attaching (.replied given)
  | receives (text : String) : ConnStep l conn (.replied (some text)) (.holding text)
  | refused : ConnStep l conn (.replied none) (.closed none)
  | abandons (state : ViewerConn) (hwaits : state = .attaching ∨ ∃ given, state = .replied given) :
      ConnStep l conn state .abandoned
  | drops (text : String) (hl : l = .drop conn) :
      ConnStep l conn (.holding text) (.closed (some text))

theorem conn_set {conn : Nat} {state : ViewerConn} (h : ConnStep l conn (s.conn conn) state)
    (other : Nat) : ConnStep l other (s.conn other) ((s.set_conn conn state).conn other) := by
  by_cases heq : other = conn
  · subst heq
    rwa [set_conn_self]
  · rw [set_conn_ne s state heq]
    exact .stays _

theorem conn_reply (s : ViewerNet) (conn : Nat) (given : Option String) (other : Nat) :
    ConnStep .work other (s.conn other) ((s.reply conn given).conn other) := by
  rw [reply_conn]
  split
  · rename_i hand
    rw [hand.1, hand.2]
    exact .answered given
  · exact .stays _

/-- The worker does nothing to the streams but answer them, and leaves the queue. -/
theorem dispatch_frame (s : ViewerNet) (job : ViewerJob) :
    (s.dispatch job).jobs = s.jobs ∧ (s.dispatch job).detaching = s.detaching ∧
      ∀ conn, ConnStep .work conn (s.conn conn) ((s.dispatch job).conn conn) := by
  cases job with
  | attach conn =>
    rcases dispatch_attach s conn with ⟨-, -, heq⟩ | ⟨-, heq⟩
    · have hanswered := conn_reply s.take_id conn (some (token s.next_request_id))
      rw [heq, grant, reply_eq]
      exact ⟨rfl, rfl, hanswered⟩
    · have hanswered := conn_reply s conn none
      rw [heq, reply_eq]
      exact ⟨rfl, rfl, hanswered⟩
  | check request other =>
    show (answer s request _).jobs = _ ∧ (answer s request _).detaching = _ ∧
      ∀ conn, ConnStep .work conn _ ((answer s request _).conn conn)
    rw [answer_eq]
    exact ⟨rfl, rfl, fun _ => .stays _⟩
  | detach other =>
    rcases dispatch_detach s other with ⟨-, -, heq⟩ | ⟨-, heq⟩ <;> rw [heq] <;>
      exact ⟨rfl, rfl, fun _ => .stays _⟩
  | run kind =>
    cases kind with
    | numbered =>
      have heq : s.dispatch (.run .numbered) = if s.live = true then s.take_id else s := rfl
      rw [heq]
      split <;> exact ⟨rfl, rfl, fun _ => .stays _⟩
    | delete | other => exact ⟨rfl, rfl, fun _ => .stays _⟩

theorem conn_step (hstep : s.step l = some s') (conn : Nat) :
    ConnStep l conn (s.conn conn) (s'.conn conn) := by
  cases l with
  | connect other =>
    simp only [step, Option.ite_none_right_eq_some, Option.some.injEq] at hstep
    obtain ⟨hidle, rfl⟩ := hstep
    have hconnects : ConnStep (.connect other) other (s.conn other) .attaching := by
      rw [hidle]
      exact .connects
    exact conn_set hconnects conn
  | receive other =>
    rcases receive_cases hstep with ⟨text, hconn, rfl⟩ | ⟨hconn, rfl⟩
    · refine conn_set ?_ conn
      rw [hconn]
      exact .receives text
    · refine conn_set ?_ conn
      rw [hconn]
      exact .refused
  | abandon other =>
    obtain ⟨hwaits, rfl⟩ := abandon_cases hstep
    exact conn_set (.abandons _ hwaits) conn
  | drop other =>
    obtain ⟨text, hconn, rfl⟩ := drop_cases hstep
    have hdrops : ConnStep (.drop other) other (s.conn other) (.closed (some text)) := by
      rw [hconn]
      exact .drops text rfl
    exact conn_set hdrops conn
  | deliver text =>
    obtain ⟨-, rfl⟩ := deliver_cases hstep
    exact .stays _
  | lose text =>
    obtain ⟨-, rfl⟩ := lose_cases hstep
    exact .stays _
  | ask request text kind =>
    simp only [step, Option.ite_none_right_eq_some, Option.some.injEq] at hstep
    obtain ⟨-, rfl⟩ := hstep
    exact .stays _
  | act request =>
    obtain ⟨_, -, rfl⟩ := act_cases hstep
    exact .stays _
  | work =>
    obtain ⟨job, jobs, -, rfl⟩ := work_cases hstep
    exact (dispatch_frame { s with jobs := jobs } job).2.2 conn

/-! ### What a page has seen -/

/-- The page has seen no more than before, or the token of a stream. -/
theorem seen_step (h : s'.Delivered text) (hstep : s.step l = some s') :
    s.Delivered text ∨ ∃ conn, s.Holds conn text := by
  obtain ⟨conn, h⟩ := h
  have hstays (hsame : s'.conn conn = s.conn conn) : s.Delivered text := by
    rw [hsame] at h
    exact ⟨conn, h⟩
  have hconn := conn_step hstep conn
  generalize hbefore : s.conn conn = before at hconn hstays
  generalize s'.conn conn = after at hconn hstays h
  cases hconn with
  | stays state => exact .inl (hstays rfl)
  | receives own =>
    rcases h with h | h
    · cases h
      exact .inr ⟨conn, .inl hbefore⟩
    · cases h
  | drops own hl =>
    rcases h with h | h
    · cases h
    · cases h
      exact .inr ⟨conn, .inr hbefore⟩
  | _ => rcases h with h | h <;> cases h

/-- A page does not forget a token. -/
theorem delivered_step (h : s.Delivered text) (hstep : s.step l = some s') :
    s'.Delivered text := by
  obtain ⟨conn, h⟩ := h
  refine ⟨conn, ?_⟩
  have hconn := conn_step hstep conn
  generalize s.conn conn = before at hconn h
  generalize s'.conn conn = after at hconn ⊢
  cases hconn with
  | stays state => exact h
  | drops own hl =>
    rcases h with h | h
    · cases h
      exact .inr rfl
    · cases h
  | abandons state hwaits =>
    rcases hwaits with rfl | ⟨given, rfl⟩ <;> rcases h with h | h <;> cases h
  | _ => rcases h with h | h <;> cases h

/-- Who has asked with a token: a request that is in the queue, or a new one. -/
theorem asked_step {request : Nat} (h : .check request text ∈ s'.jobs)
    (hstep : s.step l = some s') :
    .check request text ∈ s.jobs ∨ ∃ kind, l = .ask request text kind := by
  cases l with
  | connect conn =>
    simp only [step, Option.ite_none_right_eq_some, Option.some.injEq] at hstep
    obtain ⟨-, rfl⟩ := hstep
    exact .inl (by simpa using h)
  | receive conn => rcases receive_cases hstep with ⟨_, -, rfl⟩ | ⟨-, rfl⟩ <;> exact .inl h
  | abandon conn =>
    obtain ⟨-, rfl⟩ := abandon_cases hstep
    exact .inl h
  | drop conn =>
    obtain ⟨_, -, rfl⟩ := drop_cases hstep
    exact .inl h
  | deliver other =>
    obtain ⟨-, rfl⟩ := deliver_cases hstep
    exact .inl (by simpa using h)
  | lose other =>
    obtain ⟨-, rfl⟩ := lose_cases hstep
    exact .inl h
  | ask number other kind =>
    simp only [step, Option.ite_none_right_eq_some, Option.some.injEq] at hstep
    obtain ⟨-, rfl⟩ := hstep
    rcases List.mem_append.mp h with hin | hlast
    · exact .inl hin
    · cases List.mem_singleton.mp hlast
      exact .inr ⟨kind, rfl⟩
  | act number =>
    obtain ⟨_, -, rfl⟩ := act_cases hstep
    exact .inl (by simpa using h)
  | work =>
    obtain ⟨job, jobs, hjobs, rfl⟩ := work_cases hstep
    rw [(dispatch_frame _ _).1] at h
    rw [hjobs]
    exact .inl (List.mem_cons_of_mem _ h)

/-- Whoever shows a token has seen it. -/
def Candid (s : ViewerNet) : Prop :=
  ∀ request text, .check request text ∈ s.jobs → s.Delivered text

theorem candid_of_reachable (h : Reachable viewer_net Honest s) : s.Candid := by
  induction h with
  | init hi =>
    obtain rfl : _ = ViewerNet.new := hi
    exact fun _ _ h => by cases h
  | step l _ hok hstep ih =>
    intro request text hin
    refine delivered_step ?_ hstep
    rcases asked_step hin hstep with hold | ⟨kind, rfl⟩
    · exact ih request text hold
    · exact hok

/-! ### A release that arrives -/

/-- The release of a stream that had the lock is under way. -/
def Closing (s : ViewerNet) : Prop :=
  s.live = true → ∀ conn text, s.conn conn = .closed (some text) → s.viewer = some text →
    s.Releasing text

/-- A stream that has ended had ended before, or it is dropped now. -/
theorem closed_step {conn : Nat} (h : s'.conn conn = .closed (some text))
    (hl : l ≠ .drop conn) (hstep : s.step l = some s') : s.conn conn = .closed (some text) := by
  have hconn := conn_step hstep conn
  rw [h] at hconn
  generalize s.conn conn = before at hconn ⊢
  cases hconn with
  | stays state => rfl
  | drops own hdrop => exact absurd hdrop hl

/-- A release under way stays so until the worker serves it. -/
theorem releasing_step (h : s.Releasing text) (hok : Reliable s l) (hviewer : s.viewer = some text)
    (hlive : s.live = true) (hstep : s.step l = some s') :
    s'.Releasing text ∨ s'.viewer = none := by
  cases l with
  | connect conn =>
    simp only [step, Option.ite_none_right_eq_some, Option.some.injEq] at hstep
    obtain ⟨-, rfl⟩ := hstep
    exact .inl (h.imp (List.mem_append_left _) id)
  | receive conn => rcases receive_cases hstep with ⟨_, -, rfl⟩ | ⟨-, rfl⟩ <;> exact .inl h
  | abandon conn =>
    obtain ⟨-, rfl⟩ := abandon_cases hstep
    exact .inl h
  | drop conn =>
    obtain ⟨_, -, rfl⟩ := drop_cases hstep
    exact .inl (h.imp id (List.mem_append_left _))
  | deliver other =>
    obtain ⟨-, rfl⟩ := deliver_cases hstep
    rcases h with hjob | hway
    · exact .inl (.inl (List.mem_append_left _ hjob))
    · exact .inl (releasing_deliver hway)
  | lose other => exact hok.elim
  | ask request other kind =>
    simp only [step, Option.ite_none_right_eq_some, Option.some.injEq] at hstep
    obtain ⟨-, rfl⟩ := hstep
    exact .inl (h.imp (List.mem_append_left _) id)
  | act request =>
    obtain ⟨_, -, rfl⟩ := act_cases hstep
    exact .inl (h.imp (List.mem_append_left _) id)
  | work =>
    obtain ⟨job, jobs, hjobs, rfl⟩ := work_cases hstep
    by_cases hjob : job = .detach text
    · subst hjob
      exact .inr (congrArg ViewerNet.viewer (if_pos ⟨hlive, hviewer⟩))
    · refine .inl (h.imp (fun hin => ?_) fun hway => ?_)
      · rw [(dispatch_frame _ _).1]
        rw [hjobs] at hin
        exact (List.mem_cons.mp hin).resolve_left fun heq => hjob heq.symm
      · rwa [(dispatch_frame _ _).2.1]

theorem closing_step (hs : s.Closing) (hex : s.Exclusive) (hok : Reliable s l)
    (hstep : s.step l = some s') (hlt : s'.next_request_id < u64_max) : s'.Closing := by
  intro hlive conn text hconn hviewer
  have hmoves := step_moves hstep
  cases hmoves with
  | shrinks hl h =>
    have hbefore := h.live hlive
    have hold : s.viewer = some text := h.viewer ▸ hviewer
    have hunder := hs hbefore conn text (closed_step hconn (hl conn) hstep) hold
    refine (releasing_step hunder hok hold hbefore hstep).resolve_right fun hnone => ?_
    cases hviewer.symm.trans hnone
  | drop hholds =>
    rename_i other own
    by_cases heq : conn = other
    · rw [heq, set_conn_self] at hconn
      cases hconn
      exact .inr (List.mem_append_right _ (List.mem_singleton_self _))
    · rw [set_conn_ne s _ heq] at hconn
      exact (hs hlive conn text hconn hviewer).imp id (List.mem_append_left _)
  | grant hjobs _ _ =>
    -- A stream that has ended had an older token.
    cases hviewer
    have hold := closed_step hconn (by rintro ⟨⟩) hstep
    obtain ⟨n, hn, hsame⟩ := hex.issued _ (.inr (.inr (.inr ⟨conn, .inr hold⟩)))
    rw [grant_next_request_id] at hlt
    have hless : s.next_request_id < u64_max := (lt_saturating_succ hlt).trans hlt
    exact absurd (token_injective hless.le (hn.trans hless).le hsame) hn.ne'
  | release _ _ _ => cases hviewer

theorem closing_of_reachable (h : Reachable viewer_net Reliable s)
    (hlt : s.next_request_id < u64_max) : s.Closing := by
  induction h with
  | init hi =>
    obtain rfl : _ = ViewerNet.new := hi
    exact fun _ _ _ h => by cases h
  | step l hreach hok hstep ih =>
    have hbefore := (next_request_id_le hstep hlt).trans_lt hlt
    exact closing_step (ih hbefore) (exclusive_of_reachable hreach hbefore) hok hstep hlt

/-! ### Requests -/

/-- No page has seen the token, so that no request shows it. -/
structure Unseen (s : ViewerNet) (text : String) : Prop where
  delivered : ¬ s.Delivered text
  asked : ∀ request, .check request text ∉ s.jobs

theorem unseen_step (h : s.Lost text) (hunseen : s.Unseen text) (hok : Honest s l)
    (hstep : s.step l = some s') : s'.Unseen text where
  delivered hseen := (seen_step hseen hstep).elim hunseen.delivered fun ⟨conn, hholds⟩ =>
    h.holds conn text hholds
  asked request hin := by
    rcases asked_step hin hstep with hold | ⟨kind, rfl⟩
    · exact hunseen.asked request hold
    · exact hunseen.delivered hok

/-- What has been let through: a request, or its job. -/
def LetThrough (s : ViewerNet) (kind : GatedKind) : Prop :=
  (∃ request, s.gated request = .allowed kind) ∨ .run kind ∈ s.jobs

/-- Nothing is let through, and the simulation stays unless a delete has been
    let through before. -/
structure Shut (s s' : ViewerNet) : Prop where
  passed : ∀ request kind, s'.gated request = .allowed kind → s.gated request = .allowed kind
  through : ∀ kind, s'.LetThrough kind → s.LetThrough kind
  live : s.live = true → ¬ s.LetThrough .delete → s'.live = true

theorem Shut.refl (s : ViewerNet) : Shut s s := ⟨fun _ _ h => h, fun _ h => h, fun h _ => h⟩

theorem Shut.trans {t : ViewerNet} (h : Shut s s') (h' : Shut s' t) : Shut s t where
  passed _ _ hallowed := h.passed _ _ (h'.passed _ _ hallowed)
  through kind hthrough := h.through kind (h'.through kind hthrough)
  live hlive hnone := h'.live (h.live hlive hnone) fun hthrough => hnone (h.through _ hthrough)

/-- A step that lets no request pass, and queues no job of one that has not. -/
theorem Shut.of_jobs
    (hpassed : ∀ request kind, s'.gated request = .allowed kind → s.gated request = .allowed kind)
    (hrun : ∀ kind, .run kind ∈ s'.jobs → s.LetThrough kind)
    (hlive : s.live = true → ¬ s.LetThrough .delete → s'.live = true) : Shut s s' where
  passed := hpassed
  through kind hthrough := by
    rcases hthrough with ⟨request, hallowed⟩ | hin
    · exact .inl ⟨request, hpassed request kind hallowed⟩
    · exact hrun kind hin
  live := hlive

/-- A handler that is not let through. -/
theorem allowed_of_update {gated : Nat → GatedRequest} {request number : Nat}
    {state : GatedRequest} {kind : GatedKind} (hstate : state ≠ .allowed kind)
    (h : Function.update gated request state number = .allowed kind) :
    gated number = .allowed kind := by
  by_cases heq : number = request
  · rw [heq, Function.update_self] at h
    exact absurd h hstate
  · rwa [Function.update_of_ne heq] at h

/-- A request with another token is refused. -/
theorem shut_work (h : s.Lost text) (hunseen : s.Unseen text) (hstep : s.step .work = some s') :
    Shut s s' := by
  obtain ⟨job, jobs, hjobs, rfl⟩ := work_cases hstep
  have hfirst : job ∈ s.jobs := hjobs ▸ List.mem_cons_self
  refine Shut.of_jobs (fun number kind hallowed => ?_) (fun kind hin => ?_) fun hlive hnone => ?_
  · cases job with
    | attach conn =>
      rcases dispatch_attach { s with jobs := jobs } conn with ⟨-, hfree, -⟩ | ⟨-, heq⟩
      · cases h.viewer.symm.trans hfree
      · rw [heq, reply_eq] at hallowed
        exact hallowed
    | check request other =>
      have hne : s.viewer ≠ some other := by
        rw [h.viewer]
        rintro ⟨⟩
        exact hunseen.asked request hfirst
      replace hallowed : (answer _ request (s.live && decide (s.viewer = some other))).gated
          number = .allowed kind := hallowed
      rw [decide_eq_false hne, Bool.and_false] at hallowed
      unfold answer at hallowed
      split at hallowed
      · exact allowed_of_update (by rintro ⟨⟩) hallowed
      · exact hallowed
    | detach other =>
      rcases dispatch_detach { s with jobs := jobs } other with ⟨-, -, heq⟩ | ⟨-, heq⟩ <;>
        rw [heq] at hallowed <;> exact hallowed
    | run kind =>
      cases kind with
      | numbered =>
        replace hallowed : ViewerNet.gated (if s.live = true then _ else _) number = _ := hallowed
        split at hallowed <;> exact hallowed
      | delete | other => exact hallowed
  · rw [(dispatch_frame _ _).1] at hin
    exact .inr (hjobs ▸ List.mem_cons_of_mem _ hin)
  · cases job with
    | attach conn =>
      rcases dispatch_attach { s with jobs := jobs } conn with ⟨-, hfree, -⟩ | ⟨-, heq⟩
      · cases h.viewer.symm.trans hfree
      · rw [heq, reply_eq]
        exact hlive
    | check request other =>
      show (answer _ request _).live = true
      rw [answer_eq]
      exact hlive
    | detach other =>
      rcases dispatch_detach { s with jobs := jobs } other with ⟨-, -, heq⟩ | ⟨-, heq⟩ <;>
        rw [heq] <;> exact hlive
    | run kind =>
      cases kind with
      | delete => exact absurd (.inr hfirst) hnone
      | numbered =>
        show ViewerNet.live (if s.live = true then _ else _) = true
        split <;> exact hlive
      | other => exact hlive

theorem shut_step (h : s.Lost text) (hunseen : s.Unseen text) (hstep : s.step l = some s') :
    Shut s s' := by
  cases l with
  | connect conn =>
    simp only [step, Option.ite_none_right_eq_some, Option.some.injEq] at hstep
    obtain ⟨-, rfl⟩ := hstep
    exact Shut.of_jobs (fun _ _ h => h) (fun _ hin => .inr (by simpa using hin)) fun h _ => h
  | receive conn =>
    rcases receive_cases hstep with ⟨_, -, rfl⟩ | ⟨-, rfl⟩ <;>
      exact Shut.of_jobs (fun _ _ h => h) (fun _ hin => .inr hin) fun h _ => h
  | abandon conn =>
    obtain ⟨-, rfl⟩ := abandon_cases hstep
    exact Shut.of_jobs (fun _ _ h => h) (fun _ hin => .inr hin) fun h _ => h
  | drop conn =>
    obtain ⟨_, -, rfl⟩ := drop_cases hstep
    exact Shut.of_jobs (fun _ _ h => h) (fun _ hin => .inr hin) fun h _ => h
  | deliver other =>
    obtain ⟨-, rfl⟩ := deliver_cases hstep
    exact Shut.of_jobs (fun _ _ h => h) (fun _ hin => .inr (by simpa using hin)) fun h _ => h
  | lose other =>
    obtain ⟨-, rfl⟩ := lose_cases hstep
    exact Shut.of_jobs (fun _ _ h => h) (fun _ hin => .inr hin) fun h _ => h
  | ask request other kind =>
    simp only [step, Option.ite_none_right_eq_some, Option.some.injEq] at hstep
    obtain ⟨-, rfl⟩ := hstep
    refine Shut.of_jobs (fun _ _ => allowed_of_update (by rintro ⟨⟩))
      (fun _ hin => .inr (by simpa using hin)) fun h _ => h
  | act request =>
    obtain ⟨kind, hallowed, rfl⟩ := act_cases hstep
    refine Shut.of_jobs (fun _ _ => allowed_of_update (by rintro ⟨⟩)) (fun kind' hin => ?_)
      fun h _ => h
    rcases List.mem_append.mp hin with hold | hlast
    · exact .inr hold
    · cases List.mem_singleton.mp hlast
      exact .inl ⟨request, hallowed⟩
  | work => exact shut_work h hunseen hstep

/-- The lock stays lost, and while no page has seen the token nothing is let
    through. -/
theorem stays_lost (h : s.Lost text) {t : ViewerNet} (hpath : Path viewer_net Honest s t) :
    t.Lost text ∧ (s.Unseen text → t.Unseen text ∧ Shut s t) := by
  induction hpath with
  | refl => exact ⟨h, fun hunseen => ⟨hunseen, Shut.refl s⟩⟩
  | tail l _ hok hstep ih =>
    obtain ⟨hlost, hshut⟩ := ih
    refine ⟨lost_step hlost hstep, fun hunseen => ?_⟩
    obtain ⟨hstill, hbefore⟩ := hshut hunseen
    exact ⟨unseen_step hlost hstill hok hstep,
      hbefore.trans (shut_step hlost hstill hstep)⟩

/-! ### Main results -/

/-- When no handler gives up on its attach and no release is lost, a lock that is
    taken is one that a stream has, or whose release is under way. -/
theorem viewer_released (h : Reachable viewer_net Patient s) (hlive : s.live = true)
    (hviewer : s.viewer = some text) : (∃ conn, s.Holds conn text) ∨ s.Releasing text := by
  have hserved : s.Served := by
    refine h.invariant (fun t hi => ?_) fun _ _ _ hs hok hstep => served_step hs hok hstep
    obtain rfl : t = .new := hi
    exact ⟨fun _ h => (by cases h), fun _ => Nat.zero_le _, fun _ _ h => by cases h⟩
  exact hserved.owed hlive text hviewer

/-- The first stream has ended, its release is still on its way, and the second
    one has been refused. -/
theorem viewer_released_pair : ∃ s, Reachable viewer_net Patient s ∧
    s.viewer = some "0000000000000001" ∧ s.conn 1 = .closed none ∧
    (∀ conn, conn < 2 → ¬ s.Holds conn "0000000000000001") ∧
    ((∃ conn, s.Holds conn "0000000000000001") ∨ s.Releasing "0000000000000001") := by
  obtain ⟨s, hs, hlive, hviewer, hrefused, hnone⟩ : ∃ s, Reachable viewer_net Patient s ∧
      s.live = true ∧ s.viewer = some "0000000000000001" ∧ s.conn 1 = .closed none ∧
      ∀ conn, conn < 2 → ¬ s.Holds conn "0000000000000001" :=
    Reachable.exists_of_exec (pair_of_streams ++ [.drop 0, .receive 1]) rfl (by decide +kernel)
  exact ⟨s, hs, hviewer, hrefused, hnone, viewer_released hs hlive hviewer⟩

/-- A lock that no stream has and whose release is not under way is never
    released: from there on no stream is given a token. If no page has seen its
    token, as in every run in which no release is lost, no request is let through
    either, and the simulation stays unless a delete has been let through before. -/
theorem viewer_lost (h : Reachable viewer_net Honest s) (hlt : s.next_request_id < u64_max)
    (hlive : s.live = true) (hviewer : s.viewer = some text)
    (hholds : ∀ conn, ¬ s.Holds conn text) (hreleasing : ¬ s.Releasing text) {t : ViewerNet}
    (hpath : Path viewer_net Honest s t) :
    (∀ conn text', ¬ t.Holds conn text') ∧
    (¬ s.Delivered text →
      (∀ request kind, t.gated request = .allowed kind → s.gated request = .allowed kind) ∧
      (¬ s.LetThrough .delete → t.live = true)) ∧
    (Reachable viewer_net Reliable s → ¬ s.Delivered text) := by
  have hlost : s.Lost text := by
    refine ⟨hviewer, fun conn text' hother => ?_, hreleasing⟩
    have hsame := (exclusive_of_reachable h hlt).owner hlive conn text' hother
    cases hviewer.symm.trans hsame
    exact hholds conn hother
  obtain ⟨hstays, hshut⟩ := stays_lost hlost hpath
  refine ⟨hstays.holds, fun hunseen => ?_, fun hreliable => ?_⟩
  · have hasked := candid_of_reachable h
    obtain ⟨-, hnone⟩ := hshut ⟨hunseen, fun request hin => hunseen (hasked request text hin)⟩
    exact ⟨hnone.passed, hnone.live hlive⟩
  · rintro ⟨conn, hconn | hconn⟩
    · exact hholds conn (.inr hconn)
    · exact hreleasing (closing_of_reachable hreliable hlt hlive conn text hconn hviewer)

/-- The handler of the first stream is dropped before the worker has come to its
    job. The worker grants it all the same, and refuses the second stream. -/
def first_dropped : ViewerNet where
  live := true
  viewer := some (token 1)
  next_request_id := 2
  jobs := []
  detaching := []
  conn := Function.update (Function.update new.conn 0 .attaching) 0 .abandoned
  gated := new.gated

def second_refused : ViewerNet :=
  { first_dropped with
    conn :=
      Function.update (Function.update first_dropped.conn 1 .attaching) 1 (.replied none) }

theorem viewer_lost_once : Reachable viewer_net Honest first_dropped ∧
    Path viewer_net Honest first_dropped second_refused ∧
    (∀ conn text, ¬ second_refused.Holds conn text) ∧ second_refused.live = true := by
  have hrun {ok : Guard ViewerNet ViewerStep} (h0 : ok .new (.connect 0))
      (h1 : ∀ s, ok s (.abandon 0)) (h2 : ∀ s, ok s .work) :
      Reachable viewer_net ok first_dropped :=
    .step .work (.step (.abandon 0) (.step (.connect 0) (.init rfl) h0 rfl) (h1 _) rfl) (h2 _) rfl
  have hs : Reachable viewer_net Honest first_dropped :=
    hrun trivial (fun _ => trivial) fun _ => trivial
  have hpath : Path viewer_net Honest first_dropped second_refused :=
    .tail .work (.single (l := .connect 1) trivial rfl) trivial rfl
  have hnobody (conn : Nat) (text : String) : ¬ first_dropped.Holds conn text := by
    have hconn : first_dropped.conn conn = .abandoned ∨ first_dropped.conn conn = .idle := by
      by_cases h : conn = 0
      · subst h
        exact .inl rfl
      · exact .inr ((Function.update_of_ne h ..).trans (Function.update_of_ne h ..))
    rintro (h | h) <;> rcases hconn with hconn | hconn <;> cases hconn.symm.trans h
  have hnone : ¬ first_dropped.LetThrough .delete := by
    rintro (⟨request, h⟩ | h) <;> cases h
  obtain ⟨hholds, hshut, hunseen⟩ := viewer_lost hs (by decide) rfl rfl
    (fun conn => hnobody conn _) (by rintro (h | h) <;> cases h) hpath
  have hreliable : Reachable viewer_net Reliable first_dropped :=
    hrun trivial (fun _ => trivial) fun _ => trivial
  exact ⟨hs, hpath, hholds, (hshut (hunseen hreliable)).2 hnone⟩

end ViewerNet

end Rl78Sim

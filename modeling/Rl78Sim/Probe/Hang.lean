import Mathlib.Algebra.Order.BigOperators.Group.Finset
import Rl78Sim.Probe.Samples

/-! # Queries That Hang the Cluster

    Query replies wait for room, and only the server makes room, while it
    collects. When it has given a query up, the replies of that query stay in
    the channels until the next one. They do no harm as long as one channel
    can hold them all; when they are more, the arbiter or a node comes to wait
    for room that nobody makes.
-/

namespace Rl78Sim

open Transition NodeProbes Dialogue

namespace ProbeNet

variable {n : Nat} {catalog : ProbeCatalog n} {s s' : ProbeNet n} {l : ProbeStep n}

/-- The arbiter waits in `publish_reply_to_server`. -/
def HubBlocked (s : ProbeNet n) : Prop :=
  s.hub.held ≠ none ∧ reply_buffer n ≤ s.query_a2s.length

/-- Node `i` waits in `publish_reply`. -/
def NodeBlocked (s : ProbeNet n) (i : Fin n) : Prop :=
  (s.node i).sending ≠ [] ∧ reply_buffer n ≤ s.query_n2a.length

/-- The server has no query in progress. -/
def Idle (s : ProbeNet n) : Prop := ∀ c, s.server.call ≠ .query c

/-- A loop is blocked, and nobody is going to read a reply. -/
def Hung (s : ProbeNet n) : Prop := s.Idle ∧ (s.HubBlocked ∨ ∃ i, s.NodeBlocked i)

/-! ### Replies under way -/

/-- The number of `p` replies on their way to the server. -/
def load (p : ProbeQueryReplyWire n → Bool) (s : ProbeNet n) : Nat :=
  s.query_a2s.countP p + s.hub.held.toList.countP p + s.query_n2a.countP p +
    ∑ i, (s.node i).sending.countP p

/-- The server is collecting request `r`. -/
def in_progress (s : ProbeNet n) (r : Nat) : Bool :=
  match s.server.call with
  | .query c => c.request_id = r
  | _ => false

/-- The reply is one that the server does not wait for. -/
def given_up (s : ProbeNet n) (x : ProbeQueryReplyWire n) : Bool := !s.in_progress x.request_id

theorem Idle.given_up (h : s.Idle) (x : ProbeQueryReplyWire n) : s.given_up x = true := by
  unfold ProbeNet.given_up in_progress
  split
  · rename_i c hcall
    exact absurd hcall (h c)
  · rfl

variable {p q : ProbeQueryReplyWire n → Bool}

theorem load_mono (h : ∀ x, p x = true → q x = true) (s : ProbeNet n) : load p s ≤ load q s := by
  have hle (xs : List (ProbeQueryReplyWire n)) : xs.countP p ≤ xs.countP q :=
    List.countP_mono_left fun x _ => h x
  have hsum : ∑ i, (s.node i).sending.countP p ≤ ∑ i, (s.node i).sending.countP q :=
    Finset.sum_le_sum fun i _ => hle _
  have ha2s := hle s.query_a2s
  have hheld := hle s.hub.held.toList
  have hn2a := hle s.query_n2a
  unfold load
  omega

theorem load_congr (h : Replies s fun x => p x = q x) : load p s = load q s := by
  have heq (xs : List (ProbeQueryReplyWire n)) (hxs : ∀ x ∈ xs, p x = q x) :
      xs.countP p = xs.countP q :=
    List.countP_congr fun x hx => by rw [hxs x hx]
  unfold load
  rw [heq _ h.a2s, heq _ (fun x hx => h.held x (Option.mem_toList.mp hx)), heq _ h.n2a,
    Finset.sum_congr rfl fun i _ => heq _ (h.sending i)]

/-- Exchanging one summand. -/
theorem sum_update {α : Type} (f : Fin n → α) (g : α → Nat) (i : Fin n) (x : α) :
    (∑ j, g (Function.update f i x j)) + g (f i) = (∑ j, g (f j)) + g x := by
  rw [← Finset.add_sum_erase _ (fun j => g (Function.update f i x j)) (Finset.mem_univ i),
    ← Finset.add_sum_erase _ (fun j => g (f j)) (Finset.mem_univ i)]
  have hcongr : ∑ j ∈ Finset.univ.erase i, g (Function.update f i x j) =
      ∑ j ∈ Finset.univ.erase i, g (f j) := by
    apply Finset.sum_congr rfl
    intro j hj
    rw [Function.update_of_ne (Finset.mem_erase.mp hj).1]
  rw [hcongr, Function.update_self]
  omega

theorem load_taken (p : ProbeQueryReplyWire n → Bool) {reply : ProbeQueryReplyWire n}
    {rest : List (ProbeQueryReplyWire n)} (hheld : s.hub.held = none)
    (hqueue : s.query_n2a = reply :: rest) :
    load p { s with hub := { s.hub with held := some reply }, query_n2a := rest } = load p s := by
  unfold load
  dsimp only
  rw [hheld, hqueue, List.countP_cons]
  simp only [Option.toList_some, Option.toList_none, List.countP_cons, List.countP_nil]
  omega

theorem load_published (p : ProbeQueryReplyWire n → Bool) {reply : ProbeQueryReplyWire n}
    (hheld : s.hub.held = some reply) :
    load p { s with
      hub := { s.hub with held := none }, query_a2s := s.query_a2s ++ [reply] } = load p s := by
  unfold load
  dsimp only
  rw [hheld, List.countP_append]
  simp only [Option.toList_some, Option.toList_none, List.countP_nil]
  omega

theorem load_sent (p : ProbeQueryReplyWire n → Bool) {i : Fin n} {reply : ProbeQueryReplyWire n}
    {rest : List (ProbeQueryReplyWire n)} (hsending : (s.node i).sending = reply :: rest) :
    load p { s with
      node := Function.update s.node i { s.node i with sending := rest }
      query_n2a := s.query_n2a ++ [reply] } = load p s := by
  have hsum := sum_update s.node (fun nd => nd.sending.countP p) i
    { s.node i with sending := rest }
  rw [hsending, List.countP_cons] at hsum
  unfold load
  dsimp only at hsum ⊢
  rw [List.countP_append, List.countP_singleton]
  omega

/-- What a step does to the number of replies under way. -/
inductive Loaded (catalog : ProbeCatalog n) (p : ProbeQueryReplyWire n → Bool) (s : ProbeNet n) :
    ProbeStep n → ProbeNet n → Prop where
  | same (l : ProbeStep n) (s' : ProbeNet n) : load p s' = load p s → Loaded catalog p s l s'
  | fewer (s' : ProbeNet n) (c : Collect n) : s.server.call = .query c → load p s' ≤ load p s →
      Loaded catalog p s (.server .read_reply) s'
  | answered (i : Fin n) (io_ok : Bool) (query : ProbeQueryWire n)
      (rest : List (ProbeQueryWire n)) (records : List ProbeRecord) (truncated : Bool)
      (s' : ProbeNet n) : s.query_a2n i = query :: rest → query.addresses i = true →
      (s.node i).answer_query i io_ok query = { s.node i with
        sending := query_reply i query.request_id truncated records
        answered := (s.node i).answered ++ [⟨query.request_id, (s.node i).log.history⟩] } →
      load p s' = load p s + (query_reply i query.request_id truncated records).countP p →
      Loaded catalog p s (.node i (.take_query io_ok)) s'

theorem loaded (p : ProbeQueryReplyWire n → Bool) (hm : QueryMove catalog s l s')
    (hnode : ∀ i, (s.node i).Wf catalog i) : Loaded catalog p s l s' := by
  cases hm with
  | other _ _ hsame _ =>
    refine .same _ _ ?_
    unfold load
    rw [hsame.query_a2s_eq, hsame.held_eq, hsame.query_n2a_eq,
      Finset.sum_congr rfl fun i _ => by rw [hsame.sending_eq i]]
  | asked _ _ _ _ _ _ _ _ _ _ _ _ hn2a ha2s hhub hnode' =>
    refine .same _ _ ?_
    unfold load
    rw [ha2s, hhub, hn2a, hnode']
  | gave_up | finished | forwarded => exact .same _ _ rfl
  | read c reply rest hcall hqueue =>
    refine .fewer _ c hcall ?_
    unfold load
    dsimp only
    rw [hqueue, List.countP_cons]
    omega
  | taken reply rest hheld hqueue => exact .same _ _ (load_taken p hheld hqueue)
  | published reply hheld => exact .same _ _ (load_published p hheld)
  | sent i reply rest hsending => exact .same _ _ (load_sent p hsending)
  | answered i io_ok query rest hsending hqueue =>
    rcases (hnode i).answer_query io_ok query with ⟨-, heq⟩ | ⟨haddr, records, truncated, -, heq⟩
    · refine .same _ _ ?_
      rw [heq, Function.update_eq_self]
      rfl
    -- The node was sending nothing, so its whole answer is new.
    · refine .answered i io_ok query rest records truncated _ hqueue haddr heq ?_
      have hsum := sum_update s.node (fun nd => nd.sending.countP p) i { s.node i with
        sending := query_reply i query.request_id truncated records
        answered := (s.node i).answered ++ [⟨query.request_id, (s.node i).log.history⟩] }
      rw [hsending, List.countP_nil] at hsum
      rw [heq]
      unfold load
      dsimp only at hsum ⊢
      omega

/-! ### Room for what has been given up -/

/-- The number of messages in which a node answers a query. -/
def answer_size (nd : NodeProbes n) (io_ok : Bool) (query : ProbeQueryWire n) : Nat :=
  match query.kind with
  | .Latest => max (nd.log.latest_of query.probe_ids).length 1
  | .Range => max (nd.range_records io_ok query).1.length 1

/-- One channel has room for all replies that nobody waits for, when the server
    gives a query up and when a node answers a query that the server has given
    up. -/
def Spares : Guard (ProbeNet n) (ProbeStep n)
  | s, .server .timeout => load (fun _ => true) s ≤ reply_buffer n
  | s, .node i (.take_query io_ok) => ∀ query ∈ (s.query_a2n i).head?,
      query.addresses i = true → s.in_progress query.request_id = false →
      load s.given_up s + answer_size (s.node i) io_ok query ≤ reply_buffer n
  | _, _ => True

/-- The replies that nobody waits for fit into one channel. -/
def Spare (s : ProbeNet n) : Prop := load s.given_up s ≤ reply_buffer n

theorem answer_size_eq {nd : NodeProbes n} {i : Fin n} {io_ok : Bool} {query : ProbeQueryWire n}
    {records : List ProbeRecord} {truncated : Bool} (haddr : query.addresses i = true)
    (h : nd.answer_query i io_ok query = { nd with
      sending := query_reply i query.request_id truncated records
      answered := nd.answered ++ [⟨query.request_id, nd.log.history⟩] }) :
    (query_reply i query.request_id truncated records).length = answer_size nd io_ok query := by
  have hsending := congrArg NodeProbes.sending h
  dsimp only at hsending
  rw [← hsending]
  unfold NodeProbes.answer_query answer_size
  rw [if_pos haddr]
  cases query.kind <;> exact query_reply_length _ _ _ _

/-- When the last reply has arrived, none of the query is left. -/
theorem Queries.none_left (h : Queries catalog s) {c : Collect n}
    (hcall : s.server.call = .query c) (hexpected : c.expected = []) :
    Replies s fun x => x.request_id ≠ c.request_id := by
  obtain ⟨ids, wire, -, -, hboard⟩ := (h.asking c hcall).board
  -- A board that is not awaited any more has nothing left on its way.
  have hsilent (b : Fin n) : (s.in_flight b).filter (tells c.request_id b) = [] := by
    obtain ⟨got, hgot⟩ := hboard b
    refine (hgot.phase.silent ?_).2
    show decide (b ∈ c.expected) = false
    rw [hexpected]
    rfl
  have hnot {b : Fin n} {x : ProbeQueryReplyWire n} (hx : x ∈ s.in_flight b)
      (hfrom : x.from_ = b) : x.request_id ≠ c.request_id := by
    intro hid
    have hmem : x ∈ (s.in_flight b).filter (tells c.request_id b) :=
      List.mem_filter.mpr ⟨hx, by simp [tells, hid, hfrom]⟩
    rw [hsilent b] at hmem
    cases hmem
  refine ⟨?_, ?_, ?_, ?_⟩
  · intro x hx
    refine hnot (b := x.from_) ?_ rfl
    simp only [in_flight, List.mem_append]
    exact .inl (.inl (.inl hx))
  · intro x hx
    refine hnot (b := x.from_) ?_ rfl
    simp only [in_flight, List.mem_append, Option.mem_toList]
    exact .inl (.inl (.inr hx))
  · intro x hx
    refine hnot (b := x.from_) ?_ rfl
    simp only [in_flight, List.mem_append]
    exact .inl (.inr hx)
  · intro i x hx
    refine hnot (b := i) ?_ (h.tidy.sender i x hx)
    simp only [in_flight, List.mem_append]
    exact .inr hx

theorem load_le_all (p : ProbeQueryReplyWire n → Bool) (s : ProbeNet n) :
    load p s ≤ load (fun _ => true) s :=
  load_mono (fun _ _ => rfl) s

/-- Between the ends of queries it does not change which replies are waited for. -/
theorem given_up_eq (hcall : s'.server.call = s.server.call) : s'.given_up = s.given_up := by
  funext x
  unfold given_up in_progress
  rw [hcall]

theorem given_up_idle (h : s.Idle) (h' : s'.Idle) : s'.given_up = s.given_up := by
  funext x
  rw [h.given_up x, h'.given_up x]

/-- An answer that fits leaves room. -/
theorem Spare.answered (h : s.Spare) (hm : Loaded catalog s.given_up s l s')
    (hok : Spares s l) (hsame : s'.given_up = s.given_up) : s'.Spare := by
  unfold Spare at h ⊢
  rw [hsame]
  cases hm with
  | same _ _ heq =>
    rw [heq]
    exact h
  | fewer _ _ _ hle => exact Nat.le_trans hle h
  | answered i io_ok query rest records truncated _ hqueue haddr heq hload =>
    rw [hload]
    obtain ⟨-, hmarks⟩ := query_reply_records i query.request_id truncated records
    have hgiven (x : ProbeQueryReplyWire n)
        (hx : x ∈ query_reply i query.request_id truncated records) :
        s.given_up x = !s.in_progress query.request_id := by
      unfold given_up
      rw [(hmarks x hx).1]
    -- An answer to the request in progress is not given up; any other counts in
    -- full.
    cases hprogress : s.in_progress query.request_id with
    | true =>
      have hzero : (query_reply i query.request_id truncated records).countP s.given_up = 0 := by
        apply List.countP_eq_zero.mpr
        intro x hx
        rw [hgiven x hx, hprogress]
        nofun
      omega
    | false =>
      have hfits := hok query (by rw [hqueue]; rfl) haddr hprogress
      rw [← answer_size_eq haddr heq] at hfits
      exact Nat.le_trans (Nat.add_le_add_left List.countP_le_length _) hfits

theorem Spare.moved (h : s.Spare) (hinv : Queries catalog s) (hm : QueryMove catalog s l s')
    (hok : Spares s l) : s'.Spare := by
  have hload := loaded s.given_up hm hinv.tidy.node
  cases hm with
  | other _ _ _ hcall =>
    refine h.answered hload hok ?_
    rcases hcall with hsame | ⟨hidle, hidle'⟩
    · exact given_up_eq hsame
    · exact given_up_idle hidle hidle'
  | forwarded | taken | published | answered | sent => exact h.answered hload hok (given_up_eq rfl)
  | read c reply rest hcall =>
    refine h.answered hload hok ?_
    funext x
    have hid : (ProbeServer.read_reply reply c).request_id = c.request_id := by
      unfold ProbeServer.read_reply
      split <;> rfl
    unfold given_up in_progress
    rw [hcall]
    dsimp only
    rw [hid]
  | asked l s' purpose ids wire hcall hasks hsome hcall' hnext hs2a ha2n hn2a ha2s hhub hnode =>
    have hidle : s.Idle := by
      intro c
      rw [hcall]
      nofun
    -- An idle server has given up everything in flight, so asking gives up no
    -- more.
    have hsum : load (fun _ => true) s' = load (fun _ => true) s := by
      unfold load
      rw [ha2s, hhub, hn2a, hnode]
    have hold : load s.given_up s = load (fun _ => true) s :=
      load_congr ⟨fun x _ => hidle.given_up x, fun x _ => hidle.given_up x,
        fun x _ => hidle.given_up x, fun _ x _ => hidle.given_up x⟩
    have hle := load_le_all s'.given_up s'
    unfold Spare at h ⊢
    omega
  | gave_up c hcall =>
    refine Nat.le_trans (load_le_all _ _) ?_
    exact hok
  | finished c hcall hexpected =>
    -- All boards have answered: what is in flight was given up before.
    have hnone := hinv.none_left hcall hexpected
    have hgiven (x : ProbeQueryReplyWire n) (hx : x.request_id ≠ c.request_id) :
        true = s.given_up x := by
      unfold given_up in_progress
      rw [hcall]
      simpa using Ne.symm hx
    have hsum : load (fun _ => true) s = load s.given_up s :=
      load_congr (hnone.mono hgiven)
    refine Nat.le_trans (load_le_all _ _) ?_
    unfold Spare at h
    rw [← hsum] at h
    exact h

theorem Ready.spare (h : Ready catalog s) : s.Spare := by
  have hzero : load s.given_up s = 0 := by
    unfold load
    rw [h.query_a2s_eq, h.held_eq, h.query_n2a_eq,
      Finset.sum_congr rfl fun i _ => by rw [(h.node i).sending_eq]]
    simp
  unfold Spare
  rw [hzero]
  exact Nat.zero_le _

/-- What a loop waits with, and what fills its channel, has no room together. -/
theorem Spare.not_hung (h : s.Spare) : ¬s.Hung := by
  rintro ⟨hidle, hblocked⟩
  have hall : load s.given_up s = load (fun _ => true) s :=
    load_congr ⟨fun x _ => hidle.given_up x, fun x _ => hidle.given_up x,
      fun x _ => hidle.given_up x, fun _ x _ => hidle.given_up x⟩
  unfold Spare at h
  rw [hall] at h
  unfold load at h
  simp only [List.countP_true] at h
  rcases hblocked with ⟨hheld, hfull⟩ | ⟨i, hsending, hfull⟩
  · cases hcase : s.hub.held with
    | none => exact hheld hcase
    | some reply =>
      rw [hcase, Option.toList_some, List.length_singleton] at h
      omega
  · have hone : (s.node i).sending.length ≤ ∑ j, (s.node j).sending.length :=
      Finset.single_le_sum (f := fun j => (s.node j).sending.length)
        (fun _ _ => Nat.zero_le _) (Finset.mem_univ i)
    have hpos : 0 < (s.node i).sending.length := List.length_pos_iff.mpr hsending
    omega

/-! ### Hanging -/

/-- The messages that are still to be passed on, each counted once for every
    hop. -/
def hops (s : ProbeNet n) : Nat :=
  s.hub.held.toList.length + 2 * s.query_n2a.length + 3 * ∑ i, (s.node i).sending.length

/-- More replies than the channel to the server takes pile up before it. -/
theorem piles_up (hidle : s.Idle) (hcap : s.query_a2s.length ≤ reply_buffer n)
    (hload : reply_buffer n < load (fun _ => true) s) :
    ∃ t, Path (system catalog) (fun _ _ => True) s t ∧ t.Hung := by
  induction hk : s.hops using Nat.strong_induction_on generalizing s with
  | h k ih =>
    cases hheld : s.hub.held with
    | some reply =>
      by_cases hroom : s.query_a2s.length < reply_buffer n
      · -- The arbiter passes its reply on.
        have hstep : (system catalog).step s (.hub .publish_reply) = some { s with
            hub := { s.hub with held := none }, query_a2s := s.query_a2s ++ [reply] } := by
          show s.hub_step .publish_reply = _
          simp only [hub_step, hheld, if_pos hroom]
        have hfewer : hops { s with
            hub := { s.hub with held := none }, query_a2s := s.query_a2s ++ [reply] } < k := by
          rw [← hk]
          unfold hops
          dsimp only
          rw [hheld, Option.toList_some, Option.toList_none, List.length_singleton,
            List.length_nil]
          omega
        have hcap' : (s.query_a2s ++ [reply]).length ≤ reply_buffer n := by
          rw [List.length_append, List.length_singleton]
          exact hroom
        obtain ⟨t, hpath, hhung⟩ := ih _ hfewer (s := { s with
          hub := { s.hub with held := none }, query_a2s := s.query_a2s ++ [reply] }) hidle
          hcap' (by rw [load_published _ hheld]; exact hload) rfl
        exact ⟨t, (Path.single trivial hstep).trans hpath, hhung⟩
      · refine ⟨s, .refl s, hidle, .inl ⟨?_, Nat.le_of_not_lt hroom⟩⟩
        rw [hheld]
        exact Option.some_ne_none _
    | none =>
      cases hqueue : s.query_n2a with
      | cons reply rest =>
        have hstep : (system catalog).step s (.hub .take_reply) = some { s with
            hub := { s.hub with held := some reply }, query_n2a := rest } := by
          show s.hub_step .take_reply = _
          simp only [hub_step, hheld, hqueue]
        have hfewer : hops { s with
            hub := { s.hub with held := some reply }, query_n2a := rest } < k := by
          rw [← hk]
          unfold hops
          dsimp only
          rw [hheld, hqueue, Option.toList_some, Option.toList_none, List.length_singleton,
            List.length_nil, List.length_cons]
          omega
        obtain ⟨t, hpath, hhung⟩ := ih _ hfewer (s := { s with
          hub := { s.hub with held := some reply }, query_n2a := rest }) hidle hcap
          (by rw [load_taken _ hheld hqueue]; exact hload) rfl
        exact ⟨t, (Path.single trivial hstep).trans hpath, hhung⟩
      | nil =>
        -- Some node has a reply left.
        obtain ⟨i, hi⟩ : ∃ i, (s.node i).sending ≠ [] := by
          by_contra hnone
          have hall : ∀ i, (s.node i).sending = [] := by
            intro i
            by_contra hi
            exact hnone ⟨i, hi⟩
          have hsum : load (fun _ => true) s = s.query_a2s.length := by
            unfold load
            rw [hheld, hqueue, Finset.sum_congr rfl fun i _ => by rw [hall i]]
            simp
          omega
        cases hsending : (s.node i).sending with
        | nil => exact absurd hsending hi
        | cons reply rest =>
          have hroom : s.query_n2a.length < reply_buffer n := by
            rw [hqueue]
            exact reply_buffer_pos n
          have hstep : (system catalog).step s (.node i .send_reply) = some { s with
              node := Function.update s.node i { s.node i with sending := rest }
              query_n2a := s.query_n2a ++ [reply] } := by
            show s.node_step i .send_reply = _
            simp only [node_step, hsending, if_pos hroom]
          have hfewer : hops { s with
              node := Function.update s.node i { s.node i with sending := rest }
              query_n2a := s.query_n2a ++ [reply] } < k := by
            have hsum := sum_update s.node (fun nd => nd.sending.length) i
              { s.node i with sending := rest }
            rw [hsending, List.length_cons] at hsum
            rw [← hk]
            unfold hops
            dsimp only at hsum ⊢
            rw [List.length_append, List.length_singleton]
            omega
          obtain ⟨t, hpath, hhung⟩ := ih _ hfewer (s := { s with
            node := Function.update s.node i { s.node i with sending := rest }
            query_n2a := s.query_n2a ++ [reply] }) hidle hcap
            (by rw [load_sent _ hsending]; exact hload) rfl
          exact ⟨t, (Path.single trivial hstep).trans hpath, hhung⟩

/-- The channel to the server is not over its size. -/
def Bounded (s : ProbeNet n) : Prop := s.query_a2s.length ≤ reply_buffer n

theorem bounded {ok : Guard (ProbeNet n) (ProbeStep n)} (h : Reachable (system catalog) ok s) :
    s.Bounded := by
  refine h.invariant ?_ ?_
  · intro s hs
    show s.query_a2s.length ≤ _
    rw [hs.query_a2s_eq]
    exact Nat.zero_le _
  · intro s l s' hs _ hstep
    have hm : QueryMove catalog s l s' := query_move hstep
    unfold Bounded at hs ⊢
    cases hm with
    | other _ _ hsame _ =>
      rw [hsame.query_a2s_eq]
      exact hs
    | asked _ _ _ _ _ _ _ _ _ _ _ _ _ ha2s =>
      rw [ha2s]
      exact hs
    | gave_up | finished | forwarded | taken | answered | sent => exact hs
    | read c reply rest _ hqueue =>
      rw [hqueue, List.length_cons] at hs
      exact Nat.le_of_succ_le hs
    | published reply _ hroom =>
      show (s.query_a2s ++ [reply]).length ≤ _
      rw [List.length_append, List.length_singleton]
      exact hroom

/-- Once the channels hold too much that nobody waits for, the server only has
    to stop collecting. -/
theorem hangs_soon (hcap : s.query_a2s.length ≤ reply_buffer n)
    (hload : reply_buffer n < load s.given_up s) :
    ∃ t, Path (system catalog) (fun _ _ => True) s t ∧ t.Hung := by
  have hall : reply_buffer n < load (fun _ => true) s := Nat.lt_of_lt_of_le hload (load_le_all _ s)
  by_cases hidle : s.Idle
  · exact piles_up hidle hcap hall
  · obtain ⟨c, hcall⟩ : ∃ c, s.server.call = .query c := by
      by_contra hnone
      exact hidle fun c hcall => hnone ⟨c, hcall⟩
    -- The server ends its call first, and then reads nothing any more.
    by_cases hexpected : c.expected = []
    · have hstep : (system catalog).step s (.server .finish) =
          some { s with server := s.server.finish_query c } := by
        show s.server_step catalog .finish = _
        simp only [server_step, hcall, hexpected, List.isEmpty_nil, if_true]
      have hidle' : Idle { s with server := s.server.finish_query c } := by
        intro c'
        show (s.server.finish_query c).call ≠ .query c'
        rw [finish_query_call]
        simp
      have hpile : ∃ t, Path (system catalog) (fun _ _ => True)
          { s with server := s.server.finish_query c } t ∧ t.Hung := piles_up hidle' hcap hall
      obtain ⟨t, hpath, hhung⟩ := hpile
      exact ⟨t, (Path.single trivial hstep).trans hpath, hhung⟩
    · have hstep : (system catalog).step s (.server .timeout) =
          some { s with server := { s.server with call := .none } } := by
        show s.server_step catalog .timeout = _
        have hsome : c.expected.isEmpty = false := by
          rw [List.isEmpty_eq_false_iff]
          exact hexpected
        simp only [server_step, hcall, hsome]
        rfl
      have hidle' : Idle { s with server := { s.server with call := .none } } := by simp [Idle]
      have hpile : ∃ t, Path (system catalog) (fun _ _ => True)
          { s with server := { s.server with call := .none } } t ∧ t.Hung :=
        piles_up hidle' hcap hall
      obtain ⟨t, hpath, hhung⟩ := hpile
      exact ⟨t, (Path.single trivial hstep).trans hpath, hhung⟩

/-- What goes wrong when there is no room: too much is given up, or is answered
    too late. -/
theorem not_spares (h : ¬Spares s l) :
    (l = .server .timeout ∧ reply_buffer n < load (fun _ => true) s) ∨
    ∃ i io_ok query rest, l = .node i (.take_query io_ok) ∧ s.query_a2n i = query :: rest ∧
      query.addresses i = true ∧ s.in_progress query.request_id = false ∧
      reply_buffer n < load s.given_up s + answer_size (s.node i) io_ok query := by
  unfold Spares at h
  split at h
  · exact .inl ⟨rfl, Nat.lt_of_not_le h⟩
  · rename_i i io_ok
    right
    simp only [not_forall] at h
    obtain ⟨query, hhead, haddr, hprogress, hlt⟩ := h
    cases hqueue : s.query_a2n i with
    | nil =>
      rw [hqueue] at hhead
      cases hhead
    | cons first rest =>
      rw [hqueue] at hhead
      obtain rfl : first = query := Option.some.inj hhead
      exact ⟨i, io_ok, first, rest, rfl, hqueue, haddr, hprogress, Nat.lt_of_not_le hlt⟩
  · exact absurd trivial h

/-- After a step that leaves no room, the cluster can hang. -/
theorem hangs_after {ok : Guard (ProbeNet n) (ProbeStep n)} (h : Reachable (system catalog) ok s)
    (hok : ok s l) (hstep : step catalog s l = some s') (hbad : ¬Spares s l) :
    ∃ t, Path (system catalog) (fun _ _ => True) s' t ∧ t.Hung := by
  have hcap : s'.query_a2s.length ≤ reply_buffer n := bounded (.step l h hok hstep)
  rcases not_spares hbad with
    ⟨rfl, hload⟩ | ⟨i, io_ok, query, rest, rfl, hqueue, haddr, hprogress, hload⟩
  · have hmove : ServerMove catalog s .timeout s' := server_move hstep
    cases hmove with
    | timeout c hcall => exact piles_up nofun hcap hload
  · have hwf := (Queries.reachable h).tidy.node i
    have hmove : NodeMove s i (.take_query io_ok) s' := node_move hstep
    cases hmove with
    | take_query _ query' rest' hsending hqueue' =>
      obtain ⟨rfl, rfl⟩ : query = query' ∧ rest = rest' := List.cons.inj (hqueue.symm.trans hqueue')
      apply hangs_soon hcap
      rcases hwf.answer_query io_ok query with ⟨hother, -⟩ | ⟨-, records, truncated, -, heq⟩
      · rw [haddr] at hother
        cases hother
      · have hsum := sum_update s.node (fun nd => nd.sending.countP s.given_up) i { s.node i with
          sending := query_reply i query.request_id truncated records
          answered := (s.node i).answered ++ [⟨query.request_id, (s.node i).log.history⟩] }
        -- The whole answer is given up as it is made.
        have hall : (query_reply i query.request_id truncated records).countP s.given_up =
            answer_size (s.node i) io_ok query := by
          rw [← answer_size_eq haddr heq]
          apply List.countP_eq_length.mpr
          intro x hx
          obtain ⟨-, hmarks⟩ := query_reply_records i query.request_id truncated records
          unfold given_up
          rw [(hmarks x hx).1, hprogress]
          rfl
        rw [hsending, List.countP_nil] at hsum
        change reply_buffer n < load s.given_up _
        rw [heq]
        unfold load at hload ⊢
        dsimp only at hsum ⊢
        omega

/-- As long as one channel has room for all replies that nobody waits for, no
    loop is blocked while the server has no query in progress; and after a step
    that leaves less room, the cluster can hang. -/
theorem query_hangs_iff_crowded (catalog : ProbeCatalog n) :
    (∀ s, Reachable (system catalog) Spares s → ¬s.Hung) ∧
    (∀ s l s', Reachable (system catalog) (fun _ _ => True) s → step catalog s l = some s' →
      ¬Spares s l → ∃ t, Path (system catalog) (fun _ _ => True) s' t ∧ t.Hung) := by
  refine ⟨?_, ?_⟩
  · intro s h
    have hspare : s.Spare := by
      have hreach : Reachable (system catalog) (fun s l => Spares s l ∧ Queries catalog s) s :=
        h.strengthen fun s hs => Queries.reachable hs
      refine hreach.invariant ?_ ?_
      · intro s hs
        exact hs.spare
      · rintro s l s' hs ⟨hok, hinv⟩ hstep
        exact hs.moved hinv (query_move hstep) hok
    exact hspare.not_hung
  · intro s l s' h hstep hbad
    exact hangs_after h trivial hstep hbad

/-! ### A long log -/

/-- The query for all samples of the probe. -/
def all_samples : ProbeQueryWire 1 := .range_ 1 0 [1] ⟨some 0, none⟩

/-- The server waits for all samples of the probe, and the node has the query. -/
def asked_uart (words : List (Nat × Nat)) : ProbeNet 1 :=
  { uart_net words with
    server := { (ProbeServer.new : ProbeServer 1) with
      next_request_id := 2
      call := .query ⟨1, [0], [], false, .Samples 1 ⟨some 0, none⟩⟩ }
    query_a2n := fun _ => [all_samples] }

theorem reachable_asked_uart (words : List (Nat × Nat)) :
    Reachable (system uart_catalog) Spares (asked_uart words) := by
  have hinit : Reachable (system uart_catalog) Spares (uart_net words) :=
    .init (ready_uart_net words)
  have hasked := hinit.step (ProbeStep.server (.query_samples ⟨0, 7⟩ ⟨some 0, none⟩))
    trivial rfl
  exact hasked.step (ProbeStep.hub .forward_query) trivial rfl

/-- The answer has a message for every word. -/
theorem answer_size_uart (words : List (Nat × Nat)) :
    words.length ≤ answer_size ((asked_uart words).node 0) true all_samples := by
  show words.length ≤ max (((uart_net words).node 0).range_records true all_samples).1.length 1
  rw [range_records_uart words rfl rfl]
  have hall : ((words.map fun w => uart_word w.1 w.2).filter fun rec =>
      all_samples.range.contains rec.virtual_time_ns) = words.map fun w => uart_word w.1 w.2 := by
    apply List.filter_eq_self.mpr
    intro rec _
    simp [all_samples, ProbeQueryWire.range_, ProbeQueryWire.csv, ProbeRange.contains]
  rw [hall, List.length_map]
  exact Nat.le_max_left _ _

/-- The node answers with more samples than a channel takes, and the server
    gives the query up. -/
theorem crowded_uart {words : List (Nat × Nat)} (hlong : reply_buffer 1 < words.length) :
    ∃ s s', Reachable (system uart_catalog) (fun _ _ => True) s ∧
      step uart_catalog s (.server .timeout) = some s' ∧ ¬Spares s (.server .timeout) := by
  obtain ⟨hquiet, -, hcatalog⟩ := uart_log words 0
  have hwf : ((asked_uart words).node 0).Wf uart_catalog 0 := ⟨hquiet.wf, hcatalog⟩
  rcases hwf.answer_query true all_samples with ⟨hother, -⟩ | ⟨-, records, truncated, -, heq⟩
  · cases hother
  · have hasked : Reachable (system uart_catalog) (fun _ _ => True) (asked_uart words) :=
      (reachable_asked_uart words).mono fun _ _ _ => trivial
    have hanswered := hasked.step (.node 0 (.take_query true)) trivial rfl
    refine ⟨_, _, hanswered, rfl, ?_⟩
    have hsize := answer_size_uart words
    rw [← answer_size_eq rfl heq] at hsize
    have hsending := congrArg NodeProbes.sending heq
    dsimp only at hsending
    rw [← hsending] at hsize
    intro hle
    have hle' : load (fun _ => true) _ ≤ reply_buffer 1 := hle
    unfold load at hle'
    simp only [List.countP_true, Finset.univ_unique, Finset.sum_singleton] at hle'
    have hfits := Nat.le_trans (Nat.le_add_left _ _) hle'
    exact absurd (Nat.le_trans hsize hfits) (Nat.not_le.mpr hlong)

/-- One more sample than a channel takes. -/
def long_log : List (Nat × Nat) := (List.range 1025).map fun k => (1000 * k, 65)

theorem long_log_length : reply_buffer 1 < long_log.length := by
  unfold long_log
  rw [List.length_map, List.length_range]
  decide

/-- A query that is given up hangs a cluster of one board with a long log. -/
theorem long_log_hangs : ∃ s, Reachable (system uart_catalog) (fun _ _ => True) s ∧ s.Hung := by
  obtain ⟨s, s', hreach, hstep, hbad⟩ := crowded_uart long_log_length
  obtain ⟨t, hpath, hhung⟩ := hangs_after hreach trivial hstep hbad
  have hgiven := Reachable.step (ProbeStep.server .timeout) hreach trivial hstep
  exact ⟨t, hgiven.of_path hpath, hhung⟩

/-- A query of a short log may be given up; one of a long log may not. -/
theorem query_hangs_iff_crowded_uart :
    (∃ s, Reachable (system uart_catalog) Spares s ∧ s.Idle ∧ ¬s.Hung) ∧
    (∃ s s', Reachable (system uart_catalog) (fun _ _ => True) s ∧
      step uart_catalog s (.server .timeout) = some s' ∧
      ∃ t, Path (system uart_catalog) (fun _ _ => True) s' t ∧ t.Hung) := by
  refine ⟨?_, ?_⟩
  · have hfits : Spares (asked_uart [(10, 65)]) (.server .timeout) := by
      show load (fun _ => true) (asked_uart [(10, 65)]) ≤ reply_buffer 1
      decide
    have hreach := (reachable_asked_uart [(10, 65)]).step (ProbeStep.server .timeout) hfits rfl
    exact ⟨_, hreach, nofun, (query_hangs_iff_crowded uart_catalog).1 _ hreach⟩
  · obtain ⟨s, s', hreach, hstep, hbad⟩ := crowded_uart long_log_length
    exact ⟨s, s', hreach, hstep,
      (query_hangs_iff_crowded uart_catalog).2 s _ s' hreach hstep hbad⟩

end ProbeNet

end Rl78Sim

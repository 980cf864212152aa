import Rl78Sim.Probe.Replies

/-! # The Dialogues of a Query

    The query in progress and one board make a dialogue: the messages that
    carry the request id and are for, or from, that board. Every step is a
    step of the dialogue or none, whatever else is in the channels.
-/

namespace Rl78Sim

open Transition NodeProbes Dialogue

namespace ProbeNet

variable {n : Nat} {catalog : ProbeCatalog n} {s s' : ProbeNet n} {l : ProbeStep n}

/-- The message puts request `r` to board `b`. -/
def puts (r : Nat) (b : Fin n) (q : ProbeQueryWire n) : Bool := q.request_id = r && q.addresses b

/-- The message answers request `r` for board `b`. -/
def tells (r : Nat) (b : Fin n) (x : ProbeQueryReplyWire n) : Bool :=
  x.request_id = r && x.from_ = b

/-- The query replies on their way from board `b`, and those it shares its way
    with. -/
def in_flight (s : ProbeNet n) (b : Fin n) : List (ProbeQueryReplyWire n) :=
  s.query_a2s ++ s.hub.held.toList ++ s.query_n2a ++ (s.node b).sending

/-- The dialogue of query `c` with board `b`. What the server has received is
    not kept by the code. -/
def talk (s : ProbeNet n) (c : Collect n) (b : Fin n) (got : List (ProbeQueryReplyWire n)) :
    Dialogue (ProbeQueryWire n) Snapshot (ProbeQueryReplyWire n) where
  asked := (s.query_a2n b ++ s.query_s2a).filter (puts c.request_id b)
  answers := (s.node b).answered.filter fun snap => snap.request_id = c.request_id
  replies := (s.in_flight b).filter (tells c.request_id b)
  got := got
  awaited := decide (b ∈ c.expected)

/-- How board `b` answers queries. -/
def query_manner (catalog : ProbeCatalog n) (b : Fin n) :
    Manner (ProbeQueryWire n) Snapshot (ProbeQueryReplyWire n) where
  answers q snap rs := ∃ records truncated, Answer catalog b q snap records truncated ∧
    rs = query_reply b q.request_id truncated records
  last := ProbeQueryReplyWire.last
  ends := by
    rintro q snap rs ⟨records, truncated, -, rfl⟩
    exact query_reply_ends b q.request_id truncated records

/-- The dialogue is in order, and the server has kept what it has received. -/
structure Hears (catalog : ProbeCatalog n) (s : ProbeNet n) (c : Collect n) (b : Fin n)
    (question : Option (ProbeQueryWire n)) (got : List (ProbeQueryReplyWire n)) : Prop where
  phase : Phase (query_manner catalog b) question (s.talk c b got)
  records_eq : c.records.filter (fun rec => catalog.board_of rec.probe_id = some b) =
    got.flatMap ProbeQueryReplyWire.records
  truncated : ∀ x ∈ got, x.truncated = true → c.truncated = true

/-- The query in progress talks to the boards that it was put to. -/
structure Asking (catalog : ProbeCatalog n) (s : ProbeNet n) (c : Collect n) : Prop where
  board : ∃ ids wire, Asks c.request_id c.purpose ids wire ∧ catalog.by_board ids ≠ [] ∧
    ∀ b, ∃ got, Hears catalog s c b (catalog.question ids wire b) got
  known : ∀ rec ∈ c.records, ∃ b, catalog.board_of rec.probe_id = some b

/-! ### Steps -/

variable {c : Collect n} {b : Fin n} {question : Option (ProbeQueryWire n)}
  {got : List (ProbeQueryReplyWire n)}

theorem filter_snoc {α : Type} {p : α → Bool} (xs : List α) (x : α) (hx : p x = false) :
    (xs ++ [x]).filter p = xs.filter p := by
  rw [List.filter_append, List.filter_cons_of_neg (by simp [hx]), List.filter_nil, List.append_nil]

theorem filter_head {α : Type} {p : α → Bool} {x : α} {xs : List α} (hx : p x = false) :
    (x :: xs).filter p = xs.filter p :=
  List.filter_cons_of_neg (by simp [hx])

/-- Records of another board are none of `b`. -/
theorem filter_owned {records : List ProbeRecord} {i : Fin n} (h : Owned catalog i records) :
    records.filter (fun rec => catalog.board_of rec.probe_id = some b) =
      if i = b then records else [] := by
  split
  · rename_i hi
    apply List.filter_eq_self.mpr
    intro rec hrec
    rw [h rec hrec, hi]
    exact decide_eq_true rfl
  · rename_i hi
    apply List.filter_eq_nil_iff.mpr
    intro rec hrec
    rw [h rec hrec]
    simpa using hi

/-- Nothing of the dialogue has moved. -/
theorem Hears.same (h : Hears catalog s c b question got)
    (hasked : (s'.query_a2n b ++ s'.query_s2a).filter (puts c.request_id b) =
      (s.query_a2n b ++ s.query_s2a).filter (puts c.request_id b))
    (hanswers : (s'.node b).answered.filter (fun snap => snap.request_id = c.request_id) =
      (s.node b).answered.filter fun snap => snap.request_id = c.request_id)
    (hreplies : (s'.in_flight b).filter (tells c.request_id b) =
      (s.in_flight b).filter (tells c.request_id b)) :
    Hears catalog s' c b question got := by
  refine ⟨?_, h.records_eq, h.truncated⟩
  have heq : s'.talk c b got = s.talk c b got := by
    unfold talk
    rw [hasked, hanswers, hreplies]
  rw [heq]
  exact h.phase

/-- A query that has just been put: nothing carries its id but its messages. -/
theorem hears_asked (h : Tidy catalog s) {ids : List Nat}
    {wire : Fin n → List Nat → ProbeQueryWire n} {purpose : QueryPurpose}
    (hasks : Asks s.server.next_request_id purpose ids wire)
    (hs2a : s'.query_s2a = Ring.push_all watch_buffer s.query_s2a
      ((catalog.by_board ids).map fun p => wire p.1 p.2))
    (ha2n : s'.query_a2n = s.query_a2n) (hn2a : s'.query_n2a = s.query_n2a)
    (ha2s : s'.query_a2s = s.query_a2s) (hhub : s'.hub = s.hub) (hnode : s'.node = s.node)
    (b : Fin n) :
    Hears catalog s'
      ⟨s.server.next_request_id, (catalog.by_board ids).map Prod.fst, [], false, purpose⟩ b
      (catalog.question ids wire b) [] := by
  refine ⟨?_, rfl, nofun⟩
  -- Nothing in flight carries the new id yet.
  have hold (q : ProbeQueryWire n) (hq : q.request_id < s.server.next_request_id) :
      puts s.server.next_request_id b q = false := by
    unfold puts
    rw [decide_eq_false (Nat.ne_of_lt hq), Bool.false_and]
  have hnone (x : ProbeQueryReplyWire n) (hx : x.request_id < s.server.next_request_id) :
      tells s.server.next_request_id b x = false := by
    unfold tells
    rw [decide_eq_false (Nat.ne_of_lt hx), Bool.false_and]
  refine .waiting ?_ ?_ ?_ rfl ?_
  · show ((s'.query_a2n b ++ s'.query_s2a).filter (puts s.server.next_request_id b)).Sublist _
    have hqueue : (s.query_a2n b).filter (puts s.server.next_request_id b) = [] := by
      apply List.filter_eq_nil_iff.mpr
      intro q hq
      simp [hold q (h.wires.a2n b q hq)]
    have hs2a_old : s.query_s2a.filter (puts s.server.next_request_id b) = [] := by
      apply List.filter_eq_nil_iff.mpr
      intro q hq
      simp [hold q (h.wires.s2a q hq)]
    -- Of the queries that are put, one at most is for this board.
    have hmine : ((catalog.by_board ids).map fun p => wire p.1 p.2).filter
        (puts s.server.next_request_id b) = (catalog.question ids wire b).toList := by
      apply ProbeCatalog.question_toList
      intro i is
      obtain ⟨hid, haddr⟩ := hasks.request_eq i is
      unfold puts
      rw [hid, haddr, decide_eq_true rfl, Bool.true_and]
    have hsub := (Ring.push_all_sublist watch_buffer s.query_s2a
      ((catalog.by_board ids).map fun p => wire p.1 p.2)).filter
        (puts s.server.next_request_id b)
    rw [List.filter_append, hs2a_old, hmine, List.nil_append] at hsub
    rw [List.filter_append, ha2n, hqueue, List.nil_append, hs2a]
    exact hsub
  · apply List.filter_eq_nil_iff.mpr
    intro snap hsnap
    rw [hnode] at hsnap
    have hlt := h.answered b snap hsnap
    simpa using Nat.ne_of_lt hlt
  · apply List.filter_eq_nil_iff.mpr
    intro x hx
    unfold in_flight at hx
    rw [ha2s, hhub, hn2a, hnode] at hx
    simp only [List.mem_append, Option.mem_toList] at hx
    rcases hx with ((hx | hx) | hx) | hx
    · simp [hnone x (h.replies.a2s x hx).1]
    · simp [hnone x (h.replies.held x hx).1]
    · simp [hnone x (h.replies.n2a x hx).1]
    · simp [hnone x (h.replies.sending b x hx).1]
  · exact (ProbeCatalog.question_isSome ids wire b).symm

/-- The arbiter passes a query on; full queues lose the oldest one. -/
theorem Hears.forwarded (h : Hears catalog s c b question got) {query : ProbeQueryWire n}
    {rest : List (ProbeQueryWire n)} (hqueue : s.query_s2a = query :: rest) :
    Hears catalog { s with
      query_s2a := rest, query_a2n := broadcast watch_buffer s.query_a2n query } c b
      question got := by
  refine ⟨?_, h.records_eq, h.truncated⟩
  have hfewer : ((Ring.push watch_buffer (s.query_a2n b) query ++ rest).filter
      (puts c.request_id b)).Sublist (s.talk c b got).asked := by
    show List.Sublist _ ((s.query_a2n b ++ s.query_s2a).filter _)
    have hpush := (Ring.push_sublist watch_buffer (s.query_a2n b) query).append
      (List.Sublist.refl rest)
    rw [List.append_assoc] at hpush
    rw [hqueue]
    exact hpush.filter _
  exact h.phase.fewer_asked hfewer

/-- A node reads a query. -/
theorem Hears.answered (h : Hears catalog s c b question got) (hnode : ∀ i, (s.node i).Wf catalog i)
    {i : Fin n} {io_ok : Bool} {query : ProbeQueryWire n} {rest : List (ProbeQueryWire n)}
    (hsending : (s.node i).sending = []) (hqueue : s.query_a2n i = query :: rest) :
    Hears catalog { s with
      node := Function.update s.node i ((s.node i).answer_query i io_ok query)
      query_a2n := Function.update s.query_a2n i rest } c b question got := by
  by_cases hb : b = i
  · subst hb
    rcases (hnode b).answer_query io_ok query with
      ⟨haddr, heq⟩ | ⟨haddr, records, truncated, ha, heq⟩
    · -- The query is for another board.
      rw [heq, Function.update_eq_self]
      apply h.same
      · show (Function.update s.query_a2n b rest b ++ s.query_s2a).filter _ = _
        rw [Function.update_self, hqueue, List.cons_append]
        exact (filter_head (by simp [puts, haddr])).symm
      · rfl
      · rfl
    · rw [heq]
      by_cases hid : query.request_id = c.request_id
      · refine ⟨?_, h.records_eq, h.truncated⟩
        have hasked : (s.talk c b got).asked =
            query :: (rest ++ s.query_s2a).filter (puts c.request_id b) := by
          show (s.query_a2n b ++ s.query_s2a).filter _ = _
          rw [hqueue, List.cons_append]
          exact List.filter_cons_of_pos (by simp [puts, hid, haddr])
        have hanswer := h.phase.answer hasked (s := ⟨query.request_id, (s.node b).log.history⟩)
          ⟨records, truncated, ha, rfl⟩
        have heq' : talk { s with
            node := Function.update s.node b { s.node b with
              sending := query_reply b query.request_id truncated records
              answered := (s.node b).answered ++
                [⟨query.request_id, (s.node b).log.history⟩] }
            query_a2n := Function.update s.query_a2n b rest } c b got =
            { s.talk c b got with
              asked := (rest ++ s.query_s2a).filter (puts c.request_id b)
              answers := (s.talk c b got).answers ++
                [⟨query.request_id, (s.node b).log.history⟩]
              replies := (s.talk c b got).replies ++
                query_reply b query.request_id truncated records } := by
          unfold talk in_flight
          dsimp only
          rw [Function.update_self, Function.update_self, hsending, List.append_nil,
            List.filter_append,
            List.filter_append (s.query_a2s ++ s.hub.held.toList ++ s.query_n2a)]
          congr 1
          · show ((s.node b).answered ++
              [(⟨query.request_id, (s.node b).log.history⟩ : Snapshot)]).filter _ = _
            rw [List.filter_append, List.filter_cons_of_pos (by simpa using hid)]
            rfl
          · congr 1
            apply List.filter_eq_self.mpr
            intro x hx
            obtain ⟨hxid, hxfrom, -⟩ := ha.reply hx
            simp [tells, hxid, hxfrom, hid]
        rw [heq']
        exact hanswer
      · -- The query is not the one in progress.
        apply h.same
        · show (Function.update s.query_a2n b rest b ++ s.query_s2a).filter _ = _
          rw [Function.update_self, hqueue, List.cons_append]
          exact (filter_head (by simp [puts, hid])).symm
        · show (Function.update s.node b _ b).answered.filter _ = _
          rw [Function.update_self]
          exact filter_snoc _ _ (by simpa using hid)
        · show (s.query_a2s ++ s.hub.held.toList ++ s.query_n2a ++
            (Function.update s.node b _ b).sending).filter _ = (in_flight s b).filter _
          unfold in_flight
          rw [Function.update_self, hsending, List.append_nil, List.filter_append]
          have hnone : (query_reply b query.request_id truncated records).filter
              (tells c.request_id b) = [] := by
            apply List.filter_eq_nil_iff.mpr
            intro x hx
            obtain ⟨hxid, -, -⟩ := ha.reply hx
            simp [tells, hxid, hid]
          rw [hnone, List.append_nil]
  · apply h.same
    · show (Function.update s.query_a2n i rest b ++ s.query_s2a).filter _ = _
      rw [Function.update_of_ne hb]
    · show (Function.update s.node i _ b).answered.filter _ = _
      rw [Function.update_of_ne hb]
    · show (s.query_a2s ++ s.hub.held.toList ++ s.query_n2a ++
        (Function.update s.node i _ b).sending).filter _ = _
      rw [Function.update_of_ne hb]
      rfl

/-- A node sends a reply. -/
theorem Hears.sent (h : Hears catalog s c b question got) {i : Fin n}
    {reply : ProbeQueryReplyWire n} {rest : List (ProbeQueryReplyWire n)}
    (hsending : (s.node i).sending = reply :: rest) (hfrom : reply.from_ = i) :
    Hears catalog { s with
      node := Function.update s.node i { s.node i with sending := rest }
      query_n2a := s.query_n2a ++ [reply] } c b question got := by
  by_cases hb : b = i
  · subst hb
    apply h.same
    · rfl
    · show (Function.update s.node b _ b).answered.filter _ = _
      rw [Function.update_self]
    · show (s.query_a2s ++ s.hub.held.toList ++ (s.query_n2a ++ [reply]) ++
        (Function.update s.node b _ b).sending).filter _ = (in_flight s b).filter _
      unfold in_flight
      rw [Function.update_self, hsending]
      simp only [List.append_assoc, List.singleton_append]
  · apply h.same
    · rfl
    · show (Function.update s.node i _ b).answered.filter _ = _
      rw [Function.update_of_ne hb]
    · show (s.query_a2s ++ s.hub.held.toList ++ (s.query_n2a ++ [reply]) ++
        (Function.update s.node i _ b).sending).filter _ = (in_flight s b).filter _
      unfold in_flight
      -- A reply of another node does not count.
      have hother : tells c.request_id b reply = false := by
        unfold tells
        rw [hfrom, decide_eq_false (Ne.symm hb), Bool.and_false]
      rw [Function.update_of_ne hb, ← List.append_assoc, List.filter_append, filter_snoc _ _ hother,
        ← List.filter_append]

/-- The server reads a reply. -/
theorem Hears.read (h : Hears catalog s c b question got) (htidy : Tidy catalog s)
    {reply : ProbeQueryReplyWire n} {rest : List (ProbeQueryReplyWire n)}
    (hqueue : s.query_a2s = reply :: rest) {sv : ProbeServer n} :
    ∃ got', Hears catalog { s with server := sv, query_a2s := rest }
      (ProbeServer.read_reply reply c) b question got' := by
  have howned := (htidy.replies.a2s reply (hqueue ▸ List.mem_cons_self)).2
  have hflight : in_flight s b =
      reply :: in_flight { s with server := sv, query_a2s := rest } b := by
    unfold in_flight
    rw [hqueue]
    simp only [List.cons_append]
  by_cases hid : reply.request_id = c.request_id
  · have hread : ProbeServer.read_reply reply c = { c with
        records := c.records ++ reply.records
        truncated := c.truncated || reply.truncated
        expected := if reply.last then c.expected.filter fun i => i ≠ reply.from_
          else c.expected } := if_pos hid
    rw [hread]
    by_cases hb : reply.from_ = b
    · have htells : tells c.request_id b reply = true := by simp [tells, hid, hb]
      refine ⟨got ++ [reply], ?_, ?_, ?_⟩
      -- The oldest reply of this board is the next one of its answer.
      · have hreplies : (s.talk c b got).replies = reply ::
            (in_flight { s with server := sv, query_a2s := rest } b).filter
              (tells c.request_id b) := by
          show (in_flight s b).filter _ = _
          rw [hflight, List.filter_cons_of_pos htells]
        have hreceive := h.phase.receive hreplies
        have heq : talk { s with server := sv, query_a2s := rest } { c with
              records := c.records ++ reply.records
              truncated := c.truncated || reply.truncated
              expected := if reply.last then c.expected.filter fun i => i ≠ reply.from_
                else c.expected } b (got ++ [reply]) =
            { s.talk c b got with
              replies := (in_flight { s with server := sv, query_a2s := rest } b).filter
                (tells c.request_id b)
              got := (s.talk c b got).got ++ [reply]
              awaited := (s.talk c b got).awaited && !reply.last } := by
          unfold talk
          dsimp only
          congr 1
          cases reply.last with
          | false => simp
          | true => simp [hb]
        rw [heq]
        exact hreceive
      · show (c.records ++ reply.records).filter _ = _
        rw [List.filter_append, h.records_eq, filter_owned howned, if_pos hb,
          List.flatMap_append, List.flatMap_singleton]
      · intro x hx htrunc
        show (c.truncated || reply.truncated) = true
        rcases List.mem_append.mp hx with hold | hnew
        · rw [h.truncated x hold htrunc, Bool.true_or]
        · rw [List.mem_singleton.mp hnew] at htrunc
          rw [htrunc, Bool.or_true]
    · -- The reply is from another board.
      have htells : tells c.request_id b reply = false := by simp [tells, hb]
      refine ⟨got, ?_, ?_, ?_⟩
      · have heq : talk { s with server := sv, query_a2s := rest } { c with
              records := c.records ++ reply.records
              truncated := c.truncated || reply.truncated
              expected := if reply.last then c.expected.filter fun i => i ≠ reply.from_
                else c.expected } b got = s.talk c b got := by
          unfold talk
          rw [hflight, filter_head htells]
          dsimp only
          congr 1
          cases reply.last with
          | false => rfl
          | true => simp [Ne.symm hb]
        rw [heq]
        exact h.phase
      · show (c.records ++ reply.records).filter _ = _
        rw [List.filter_append, h.records_eq, filter_owned howned, if_neg hb, List.append_nil]
      · intro x hx htrunc
        show (c.truncated || reply.truncated) = true
        rw [h.truncated x hx htrunc, Bool.true_or]
  · have hread : ProbeServer.read_reply reply c = c := if_neg hid
    rw [hread]
    refine ⟨got, h.same rfl rfl ?_⟩
    rw [hflight]
    exact (filter_head (by simp [tells, hid])).symm

theorem Asks.keep {r : Nat} {purpose : QueryPurpose} {ids : List Nat}
    {wire : Fin n → List Nat → ProbeQueryWire n} (h : Asks r purpose ids wire)
    {r' : Nat} {purpose' : QueryPurpose} (hr : r' = r) (hpurpose : purpose' = purpose) :
    Asks r' purpose' ids wire := by
  rw [hr, hpurpose]
  exact h

/-- A query goes on talking to its boards where every dialogue goes on. -/
theorem Asking.of_hears (h : Asking catalog s c)
    (hboard : ∀ b question got, Hears catalog s c b question got →
      Hears catalog s' c b question got) : Asking catalog s' c := by
  obtain ⟨⟨ids, wire, hasks, hsome, hheard⟩, hknown⟩ := h
  refine ⟨⟨ids, wire, hasks, hsome, ?_⟩, hknown⟩
  intro b
  obtain ⟨got, hgot⟩ := hheard b
  exact ⟨got, hboard b _ got hgot⟩

/-- A query in progress goes on talking to its boards. -/
theorem Asking.moved (htidy : Tidy catalog s) (hm : QueryMove catalog s l s')
    (h : ∀ c, s.server.call = .query c → Asking catalog s c) {c' : Collect n}
    (hcall : s'.server.call = .query c') : Asking catalog s' c' := by
  cases hm with
  | other _ _ hsame hcall' =>
    rcases hcall' with heq | ⟨-, hnone⟩
    · apply (h c' (heq ▸ hcall)).of_hears
      intro b question got hgot
      apply hgot.same
      · rw [hsame.query_a2n_eq, hsame.query_s2a_eq]
      · rw [hsame.answered_eq b]
      · unfold in_flight
        rw [hsame.query_a2s_eq, hsame.held_eq, hsame.query_n2a_eq, hsame.sending_eq b]
    · exact absurd hcall (hnone c')
  | asked _ _ purpose ids wire _ hasks hsome hc _ hs2a ha2n hn2a ha2s hhub hnode =>
    rw [hc] at hcall
    injection hcall with heq
    subst heq
    refine ⟨⟨ids, wire, hasks, hsome, ?_⟩, nofun⟩
    intro b
    exact ⟨[], hears_asked htidy hasks hs2a ha2n hn2a ha2s hhub hnode b⟩
  -- A query that has ended asks nothing.
  | gave_up c => cases hcall
  | finished c =>
    rw [finish_query_call] at hcall
    cases hcall
  | read c reply rest hc hqueue =>
    injection hcall with heq
    subst heq
    obtain ⟨⟨ids, wire, hasks, hsome, hboard⟩, hknown⟩ := h c hc
    refine ⟨⟨ids, wire, hasks.keep ?_ ?_, hsome, ?_⟩, ?_⟩
    · unfold ProbeServer.read_reply
      split <;> rfl
    · unfold ProbeServer.read_reply
      split <;> rfl
    · intro b
      obtain ⟨got, hgot⟩ := hboard b
      exact hgot.read htidy hqueue
    · unfold ProbeServer.read_reply
      split
      · intro rec hrec
        rcases List.mem_append.mp hrec with hold | hnew
        · exact hknown rec hold
        · exact ⟨_, (htidy.replies.a2s reply (hqueue ▸ List.mem_cons_self)).2 rec hnew⟩
      · exact hknown
  | forwarded query rest hqueue =>
    apply (h c' hcall).of_hears
    intro b question got hgot
    exact hgot.forwarded hqueue
  | taken reply rest hheld hqueue =>
    apply (h c' hcall).of_hears
    intro b question got hgot
    refine hgot.same rfl rfl ?_
    unfold in_flight
    rw [hheld, hqueue]
    simp
  | published reply hheld =>
    apply (h c' hcall).of_hears
    intro b question got hgot
    refine hgot.same rfl rfl ?_
    unfold in_flight
    rw [hheld]
    simp
  | answered i io_ok query rest hsending hqueue =>
    apply (h c' hcall).of_hears
    intro b question got hgot
    exact hgot.answered htidy.node hsending hqueue
  | sent i reply rest hsending =>
    apply (h c' hcall).of_hears
    intro b question got hgot
    exact hgot.sent hsending (htidy.sender i reply (hsending ▸ List.mem_cons_self))

/-! ### Runs -/

/-- What holds of the queries in every state of a run. -/
structure Queries (catalog : ProbeCatalog n) (s : ProbeNet n) : Prop where
  tidy : Tidy catalog s
  asking (c : Collect n) : s.server.call = .query c → Asking catalog s c

theorem Queries.initial (h : Ready catalog s) : Queries catalog s := by
  refine ⟨h.tidy, ?_⟩
  intro c hcall
  rw [h.server_eq] at hcall
  cases hcall

theorem Queries.moved (h : Queries catalog s) (hm : QueryMove catalog s l s') :
    Queries catalog s' :=
  ⟨h.tidy.moved hm, fun _ hcall => Asking.moved h.tidy hm h.asking hcall⟩

theorem Queries.reachable {ok : Guard (ProbeNet n) (ProbeStep n)}
    (h : Reachable (system catalog) ok s) : Queries catalog s := by
  refine h.invariant ?_ ?_
  · intro s hs
    exact Queries.initial hs
  · intro s l s' hs _ hstep
    exact hs.moved (query_move hstep)

end ProbeNet

end Rl78Sim

import Rl78Sim.Hw.Tau

/-! # The Grid of a Timer Channel

    From the start of a channel on, as long as its period stays, its expiries
    are due on the grid of the start. A late expiry skips the deadlines that
    have passed, and the grid stays where it is.
-/

namespace Rl78Sim

open Transition

namespace TauUnit

variable {F : Type}

/-- What the period of the channel depends on: its data and mode register, the
    prescalers and the clock. -/
def settings (s : Sim F) (ch : Fin tau_channels) :
    BitVec 16 × BitVec 16 × BitVec 16 × Hertz :=
  (s.unit.tdr ch, s.unit.tmr ch, s.unit.tps, s.f_clk)

/-- The action neither stops the channel nor changes its settings. -/
def Steady (ch : Fin tau_channels) (s : Sim F × History) (a : Act F) : Prop :=
  ¬ Stops ch a ∧ ∀ s' ∈ s.1.step a, settings s' ch = settings s.1 ch

/-- The deadlines are `t0 + k * period`, as far as the clock goes, for a `k`
    that starts at one and grows; by exactly one after an expiry that was
    served at its deadline. No deadline is served twice. -/
structure OnGrid (t0 period : Nat) (served : List Expiry) (k : Nat → Nat) : Prop where
  first : k 0 = 1
  deadline {i : Nat} {r : Expiry} : served[i]? = some r →
    r.at_ = saturating_add t0 (k i * period)
  grows {i : Nat} {r : Expiry} : served[i + 1]? = some r → k i < k (i + 1)
  prompt {i : Nat} {r r' : Expiry} : served[i]? = some r → served[i + 1]? = some r' →
    r.now = r.at_ → k (i + 1) = k i + 1
  once {i : Nat} {r r' : Expiry} : served[i]? = some r → served[i + 1]? = some r' →
    r.at_ < r'.at_

/-! ### Skipping late deadlines -/

/-- The loop ends past the present time, a number of periods ahead; at once
    where the next deadline is not late. -/
theorem skip_past_some {period now rounds next n : Nat} (hmax : next ≤ u64_max)
    (h : skip_past period now rounds next = some n) :
    now < n ∧ ∃ j, n = saturating_add next (j * period) ∧ (now < next → j = 0) := by
  have hhere {next : Nat} (hmax : next ≤ u64_max) : next = saturating_add next (0 * period) := by
    unfold saturating_add
    omega
  induction rounds generalizing next with
  | zero =>
    unfold skip_past at h
    split at h
    · cases h
    · obtain rfl := Option.some.inj h
      exact ⟨by omega, 0, hhere hmax, fun _ => rfl⟩
  | succ rounds ih =>
    unfold skip_past at h
    split at h
    · obtain ⟨hpast, j, hn, -⟩ := ih (saturating_add_le_max _ _) h
      refine ⟨hpast, j + 1, ?_, ?_⟩
      · rw [hn, Nat.succ_mul]
        unfold saturating_add
        omega
      · intro hearly
        omega
    · obtain rfl := Option.some.inj h
      exact ⟨by omega, 0, hhere hmax, fun _ => rfl⟩

/-- The loop does not end only where the clock shows the last time, and then
    no number of rounds ends it. -/
theorem skip_past_none {period now next : Nat} (hperiod : 0 < period) (hnow : now ≤ u64_max)
    (h : skip_past period now (now + 1 - next) next = none) :
    now = u64_max ∧ ∀ rounds, skip_past period now rounds next = none := by
  have hmoves (rounds : Nat) (next : Nat) (hlt : now < u64_max)
      (henough : now + 1 ≤ next + rounds) :
      skip_past period now rounds next ≠ none := by
    induction rounds generalizing next with
    | zero =>
      unfold skip_past
      rw [if_neg (by omega)]
      nofun
    | succ rounds ih =>
      unfold skip_past
      split
      · apply ih
        unfold saturating_add
        omega
      · nofun
  have hend : now = u64_max := by
    by_contra hne
    exact hmoves _ next (by omega) (by omega) h
  have hlate : next ≤ u64_max := by
    by_contra hlt
    unfold skip_past at h
    split at h
    · rw [if_neg (by omega)] at h
      cases h
    · rw [if_neg (by omega)] at h
      cases h
  refine ⟨hend, ?_⟩
  intro rounds
  clear h
  induction rounds generalizing next with
  | zero =>
    unfold skip_past
    rw [if_pos (by omega)]
  | succ rounds ih =>
    unfold skip_past
    rw [if_pos (by omega)]
    exact ih (saturating_add_le_max _ _)

/-! ### The grid -/

/-- A grid is extended by the deadlines that follow its last expiry. -/
theorem OnGrid.extend {t0 period : Nat} {served : List Expiry} {r r' : Expiry} {k : Nat → Nat}
    (h : OnGrid t0 period (served ++ [r]) k) {j : Nat} (hj : 0 < j)
    (hprompt : r.now = r.at_ → j = 1) (hlater : r.at_ < r'.at_)
    (hat : r'.at_ = saturating_add t0 ((k served.length + j) * period)) :
    OnGrid t0 period (served ++ [r] ++ [r'])
      (Function.update k (served.length + 1) (k served.length + j)) := by
  have hlen : (served ++ [r]).length = served.length + 1 := by simp
  have hold {i : Nat} (hi : i ≤ served.length) :
      Function.update k (served.length + 1) (k served.length + j) i = k i :=
    Function.update_of_ne (by omega) _ _
  -- An entry is an old one, or the new one at the end.
  have hentry {i : Nat} {x : Expiry} (hx : (served ++ [r] ++ [r'])[i]? = some x) :
      (i ≤ served.length ∧ (served ++ [r])[i]? = some x) ∨ (i = served.length + 1 ∧ x = r') := by
    by_cases hi : i < (served ++ [r]).length
    · left
      rw [List.getElem?_append_left hi] at hx
      exact ⟨by omega, hx⟩
    · right
      rw [List.getElem?_append_right (by omega), List.getElem?_singleton] at hx
      split at hx
      · exact ⟨by omega, (Option.some.inj hx).symm⟩
      · cases hx
  refine ⟨?_, ?_, ?_, ?_, ?_⟩
  · rw [hold (Nat.zero_le _)]
    exact h.first
  · intro i x hx
    rcases hentry hx with ⟨hi, hx⟩ | ⟨rfl, rfl⟩
    · rw [hold hi]
      exact h.deadline hx
    · rw [Function.update_self]
      exact hat
  · intro i x hx
    rcases hentry hx with ⟨hi, hx⟩ | ⟨hi, -⟩
    · rw [hold hi, hold (by omega)]
      exact h.grows hx
    · obtain rfl : i = served.length := by omega
      rw [Function.update_self, hold (Nat.le_refl _)]
      omega
  · intro i x x' hx hx' hnow
    rcases hentry hx' with ⟨hi, hx'⟩ | ⟨hi, -⟩
    · rcases hentry hx with ⟨-, hx⟩ | ⟨hi', -⟩
      · rw [hold hi, hold (by omega)]
        exact h.prompt hx hx' hnow
      · omega
    · obtain rfl : i = served.length := by omega
      rcases hentry hx with ⟨-, hx⟩ | ⟨hi', -⟩
      · obtain rfl : r = x := by simpa using hx
        rw [Function.update_self, hold (Nat.le_refl _), hprompt hnow]
      · omega
  · intro i x x' hx hx'
    rcases hentry hx' with ⟨hi, hx'⟩ | ⟨hi, rfl⟩
    · rcases hentry hx with ⟨-, hx⟩ | ⟨hi', -⟩
      · exact h.once hx hx'
      · omega
    · obtain rfl : i = served.length := by omega
      rcases hentry hx with ⟨-, hx⟩ | ⟨hi', -⟩
      · obtain rfl : r = x := by simpa using hx
        exact hlater
      · omega

theorem onGrid_first {t0 period : Nat} {r : Expiry} (hat : r.at_ = saturating_add t0 period) :
    OnGrid t0 period [r] (fun _ => 1) := by
  refine ⟨rfl, ?_, ?_, ?_, ?_⟩
  · intro i x hx
    cases i with
    | zero =>
      obtain rfl : r = x := by simpa using hx
      rw [Nat.one_mul]
      exact hat
    | succ i => simp at hx
  · intro i x hx
    simp at hx
  · intro i x x' _ hx'
    simp at hx'
  · intro i x x' _ hx'
    simp at hx'

/-- A channel that was started at `t0` and has served some expiries since: its
    live expiry is the next one of the grid. -/
structure Running (ch : Fin tau_channels) (t0 period : Nat) (s : Sim F)
    (served : List Expiry) : Prop where
  period_eq : s.unit.interval s.f_clk ch = some period
  recorded : s.unit.expire_id ch ≠ none
  served_grid : ∃ k, OnGrid t0 period served k
  next_grid {b : Booking (TauEvent F)} {ev : TauExpire} : IsExpiry s.ctl.events ch b ev →
    ∀ now, ∃ k, OnGrid t0 period (served ++ [⟨b.at_, now⟩]) k

/-- A step that keeps the channel's id and adds no expiry keeps the grid. -/
theorem Running.keep {ch : Fin tau_channels} {t0 period : Nat} {s s' : Sim F}
    {served : List Expiry} (h : Running ch t0 period s served)
    (hkeeps : Keeps ch s.unit s.ctl s'.unit s'.ctl)
    (hsettings : settings s' ch = settings s ch) : Running ch t0 period s' served := by
  have hinterval : s'.unit.interval s'.f_clk ch = s.unit.interval s.f_clk ch := by
    simp only [settings, Prod.mk.injEq] at hsettings
    obtain ⟨htdr, htmr, htps, hclk⟩ := hsettings
    unfold interval ck_divider
    rw [htdr, htmr, htps, hclk]
  refine ⟨hinterval.trans h.period_eq, ?_, h.served_grid, fun hb => h.next_grid (hkeeps.sub hb)⟩
  rw [hkeeps.expire_id]
  exact h.recorded

/-- The next deadline is on the grid, as many periods on as the expiry was
    late. -/
theorem next_on_grid {t0 period n j : Nat} {served : List Expiry} {r : Expiry} {k : Nat → Nat}
    (hperiod : 0 < period) (hgrid : OnGrid t0 period (served ++ [r]) k) (hdue : r.at_ ≤ r.now)
    (hnow : r.now < n) (hmax : n ≤ u64_max)
    (hn : n = saturating_add (saturating_add r.at_ period) (j * period))
    (hearly : r.now < saturating_add r.at_ period → j = 0) (now : Nat) :
    ∃ k, OnGrid t0 period (served ++ [r] ++ [⟨n, now⟩]) k := by
  have hat : r.at_ = saturating_add t0 (k served.length * period) := hgrid.deadline (by simp)
  refine ⟨_, hgrid.extend (j := j + 1) (Nat.succ_pos _) ?_ (Nat.lt_of_le_of_lt hdue hnow) ?_⟩
  · intro hprompt
    have hzero := hearly (by unfold saturating_add; omega)
    omega
  · show n = _
    rw [hn, Nat.add_mul, Nat.succ_mul]
    unfold saturating_add at *
    omega

theorem Running.pop_due {ch : Fin tau_channels} {t0 period : Nat} {s : Sim F}
    (hok : Ok s.unit s.ctl) {served : History} (h : Running ch t0 period s (served ch)) :
    Running ch t0 period s.pop_due (note s .pop_due s.pop_due served ch) := by
  rcases pop_cases hok with
    ⟨hpop, -, hsub, hnone⟩ | ⟨b, ev, hb, hdue, hfront, hpopped, hsound, hbooks, hpop⟩
  -- Nothing of the timers was served.
  · have hnote : note s .pop_due s.pop_due served = served := by
      unfold note
      dsimp only
      split
      · rename_i id ev heq
        exact absurd heq (hnone id ev)
      · rfl
    rw [hnote, hpop]
    exact h.keep ⟨rfl, fun hb => hb.of_books (hsub _ hb.books)⟩ rfl
  · obtain ⟨hid, hgen, hat, hon⟩ := hok.owned hb
    have hnote : note s .pop_due s.pop_due served = Function.update served ev.channel
        (served ev.channel ++ [⟨b.at_, s.ctl.now⟩]) := by
      unfold note
      dsimp only
      rw [hpopped, hfront]
    obtain ⟨-, -, htdr, htmr, htps⟩ := fire_keeps ev s.unit s.f_clk s.ctl.pop_due.1
    have hsettings : settings s.pop_due ch = settings s ch := by
      rw [hpop]
      simp [settings, htdr, htmr, htps]
    have hcases := fire_cases hgen hon s.f_clk s.ctl.pop_due.1
    rw [hnote]
    by_cases hch : ch = ev.channel
    · -- The expiry of the channel itself.
      subst hch
      rw [Function.update_self]
      have hgone {b' : Booking (TauEvent F)} {ev' : TauExpire} :
          ¬ IsExpiry s.ctl.pop_due.1.events ev.channel b' ev' := by
        intro hb'
        obtain ⟨hold, hne⟩ := (hbooks b').mp hb'.books
        exact hne (congrArg Booking.id (hok.one (hb'.of_books hold) hb))
      have hinterval : s.pop_due.unit.interval s.pop_due.f_clk ev.channel = some period := by
        rw [← h.period_eq, hpop]
        unfold interval ck_divider
        rw [htdr, htmr, htps]
      have hgrid := h.next_grid hb s.ctl.now
      refine ⟨hinterval, ?_, hgrid, ?_⟩
      · rw [hpop]
        rcases hcases with ⟨-, hids | ⟨hstopped, -⟩⟩ | ⟨_, _, -, -, -, -, hids⟩
        · rw [hids]
          exact h.recorded
        · rw [h.period_eq] at hstopped
          cases hstopped
        · rw [hids]
          simp
      · intro b' ev' hb'
        rw [hpop] at hb'
        rcases hcases with ⟨hctl, -⟩ | ⟨period', n, hperiod, hpos, hskip, hctl, -⟩
        · rw [hctl] at hb'
          exact absurd hb' hgone
        · rw [hctl] at hb'
          -- The next booking is whole periods behind this one, and more than one only
          -- if the channel was late.
          rcases isExpiry_schedule hsound hb' with ⟨rfl, rfl, -⟩ | hold
          · rw [h.period_eq] at hperiod
            obtain rfl := Option.some.inj hperiod
            rw [hat] at hskip
            obtain ⟨hpast, j, hn, hearly⟩ := skip_past_some (saturating_add_le_max _ _) hskip
            obtain ⟨k, hk⟩ := hgrid
            have hmax : n ≤ u64_max := hn ▸ saturating_add_le_max _ _
            exact next_on_grid hpos hk hdue hpast hmax hn hearly
          · exact absurd hold hgone
    -- The expiry of another channel.
    · rw [Function.update_of_ne hch]
      refine h.keep ?_ hsettings
      rw [hpop]
      rcases hcases with ⟨hctl, hids⟩ | ⟨period', n, -, -, -, hctl, hids⟩
      · refine ⟨?_, ?_⟩
        · rcases hids with hids | ⟨-, hids⟩
          · rw [hids]
          · rw [hids, Function.update_of_ne hch]
        · intro b' ev' hb'
          rw [hctl] at hb'
          exact hb'.of_books ((hbooks b').mp hb'.books).1
      · refine ⟨by rw [hids, Function.update_of_ne hch], ?_⟩
        intro b' ev' hb'
        rw [hctl] at hb'
        rcases isExpiry_schedule hsound hb' with ⟨-, -, hnew⟩ | hold
        · exact absurd hnew.symm hch
        · exact hold.of_books ((hbooks b').mp hold.books).1

/-- A control write that does not stop a channel with a recorded expiry keeps
    it. -/
theorem keeps_write_ctrl {t : TauUnit} {ctl : EventCtl (TauEvent F)} (hok : Ok t ctl)
    (f_clk : Hertz) {ch : Fin tau_channels} (hrecorded : t.expire_id ch ≠ none) {offset : Nat}
    {value : BitVec 16} (hstop : ¬ (offset = 0x34 ∧ value.getLsbD ch.val = true)) :
    Keeps ch t ctl (t.write_ctrl f_clk ctl offset value).1
      (t.write_ctrl f_clk ctl offset value).2 := by
  rcases write_ctrl_cases f_clk ctl t offset value with
    ⟨-, hwrite⟩ | ⟨hoffset, hwrite⟩ | ⟨-, t', hwrite, hid, -, -⟩
  -- A start of a channel that runs already does nothing to it.
  · rw [hwrite]
    refine (for_channels_rule (P := fun t' ctl' => Ok t' ctl' ∧ Keeps ch t ctl t' ctl')
      ⟨hok, .refl ch t ctl⟩ ?_).2
    rintro i - t' ctl' ⟨hok', hkeeps⟩
    refine ⟨hok'.start f_clk i, hkeeps.trans (keeps_start hok' f_clk (.inr ?_))⟩
    rw [hkeeps.expire_id]
    exact hrecorded
  · rw [hwrite]
    refine for_channels_rule (P := Keeps ch t ctl) (.refl ch t ctl) ?_
    intro i hi t' ctl' hkeeps
    refine hkeeps.trans (keeps_stop ctl' t' ?_)
    rintro rfl
    exact hstop ⟨hoffset, mem_selected.mp hi⟩
  · rw [hwrite]
    exact ⟨by rw [hid], fun hb => hb⟩

/-- A steady step keeps the channel on its grid. -/
theorem Running.step {ch : Fin tau_channels} {t0 period : Nat} {s s' : Sim F}
    (hok : Ok s.unit s.ctl) {served : History} (h : Running ch t0 period s (served ch))
    {a : Act F} (hstop : ¬ Stops ch a) (hsettings : settings s' ch = settings s ch)
    (hstep : s.step a = some s') : Running ch t0 period s' (note s a s' served ch) := by
  unfold Sim.step at hstep
  split at hstep
  · cases hstep
  · cases a with
    | write_tdr channel value =>
      obtain rfl := Option.some.inj hstep
      exact h.keep ⟨rfl, fun hb => hb⟩ hsettings
    | write_ctrl offset value =>
      have hnote : note s (.write_ctrl offset value) s' served ch = served ch := by
        unfold note
        simp [h.recorded]
      rw [hnote]
      obtain rfl := Option.some.inj hstep
      exact h.keep (keeps_write_ctrl hok s.f_clk h.recorded hstop) hsettings
    | reset => exact absurd trivial hstop
    | set_f_clk f_clk =>
      obtain rfl := Option.some.inj hstep
      exact h.keep ⟨rfl, fun hb => hb⟩ hsettings
    | advance delta =>
      obtain rfl := Option.some.inj hstep
      exact h.keep ⟨rfl, fun hb => hb.of_books hb.books⟩ hsettings
    | pop_due =>
      obtain rfl := Option.some.inj hstep
      exact h.pop_due hok
    | schedule_other at_ event =>
      obtain rfl := Option.some.inj hstep
      refine h.keep ⟨rfl, ?_⟩ hsettings
      intro b ev hb
      rcases (hok.sound.books_schedule at_ (.other event) b).mp hb.books with rfl | hold
      · cases hb.event
      · exact hb.of_books hold
    | cancel_other id =>
      obtain rfl := cancel_other_eq hstep
      refine h.keep ⟨rfl, ?_⟩ hsettings
      intro b ev hb
      exact hb.of_books ((EventQueue.books_cancel _ id b).mp hb.books).1

/-! ### Starting a channel -/

/-- The channel has just been started: its expiry is due after one period. -/
structure Started (ch : Fin tau_channels) (period : Nat) (t : TauUnit)
    (ctl : EventCtl (TauEvent F)) : Prop where
  recorded : t.expire_id ch ≠ none
  due {b : Booking (TauEvent F)} {ev : TauExpire} : IsExpiry ctl.events ch b ev →
    b.at_ = saturating_add ctl.now period

theorem start_settings (f_clk : Hertz) (ctl : EventCtl (TauEvent F)) (t : TauUnit)
    (i : Fin tau_channels) : (∀ f ch, (t.start_channel f_clk ctl i).1.interval f ch =
      t.interval f ch) ∧ (t.start_channel f_clk ctl i).2.now = ctl.now := by
  rcases start_cases f_clk ctl t i with ⟨hsame, -⟩ | ⟨period, -, -, hstart⟩
  · rw [hsame]
    exact ⟨fun _ _ => rfl, rfl⟩
  · rw [hstart]
    exact ⟨fun _ _ => rfl, rfl⟩

/-- Channels that are started later do not change what one of them is due. -/
theorem Started.start {ch : Fin tau_channels} {period : Nat} {t : TauUnit}
    {ctl : EventCtl (TauEvent F)} (h : Started ch period t ctl) (hok : Ok t ctl) (f_clk : Hertz)
    (i : Fin tau_channels) :
    Started ch period (t.start_channel f_clk ctl i).1 (t.start_channel f_clk ctl i).2 := by
  have hkeeps := keeps_start hok f_clk (i := i) (.inr h.recorded)
  refine ⟨?_, ?_⟩
  · rw [hkeeps.expire_id]
    exact h.recorded
  · intro b ev hb
    rw [(start_settings f_clk ctl t i).2]
    exact h.due (hkeeps.sub hb)

theorem started_for_channels {ch : Fin tau_channels} {period : Nat} {f_clk : Hertz}
    {channels : List (Fin tau_channels)} (hmem : ch ∈ channels) {t : TauUnit}
    {ctl : EventCtl (TauEvent F)} (hok : Ok t ctl) (hidle : t.expire_id ch = none)
    (hperiod : t.interval f_clk ch = some period) :
    Started ch period (for_channels (start_channel f_clk) channels t ctl).1
      (for_channels (start_channel f_clk) channels t ctl).2 := by
  induction channels generalizing t ctl with
  | nil => cases hmem
  | cons i rest ih =>
    show Started ch period
      (for_channels (start_channel f_clk) rest (t.start_channel f_clk ctl i).1
        (t.start_channel f_clk ctl i).2).1
      (for_channels (start_channel f_clk) rest (t.start_channel f_clk ctl i).1
        (t.start_channel f_clk ctl i).2).2
    have hok' := hok.start f_clk i
    by_cases hi : ch = i
    · subst hi
      have hstarted : Started ch period (t.start_channel f_clk ctl ch).1
          (t.start_channel f_clk ctl ch).2 := by
        rcases start_cases f_clk ctl t ch with ⟨-, hsome | hnone⟩ | ⟨period', -, hsome, hstart⟩
        · exact absurd hidle hsome
        · rw [hperiod] at hnone
          cases hnone
        · rw [hperiod] at hsome
          obtain rfl := Option.some.inj hsome
          rw [hstart]
          refine ⟨by simp, ?_⟩
          intro b ev hb
          rcases isExpiry_schedule hok.sound hb with ⟨rfl, -, -⟩ | hold
          · rfl
          · have hid := (hok.owned hold).1
            rw [hidle] at hid
            cases hid
      refine (for_channels_rule (P := fun t ctl => Ok t ctl ∧ Started ch period t ctl)
        ⟨hok', hstarted⟩ ?_).2
      rintro j - t ctl ⟨hok, hstarted⟩
      exact ⟨hok.start f_clk j, hstarted.start hok f_clk j⟩
    · have hkeeps := keeps_start hok f_clk (i := i) (.inl hi)
      refine ih ?_ hok' ?_ ?_
      · simpa [hi] using hmem
      · rw [hkeeps.expire_id]
        exact hidle
      · rw [(start_settings f_clk ctl t i).1]
        exact hperiod

/-- The write that starts an idle channel puts it on the grid of that time. -/
theorem running_of_start {ch : Fin tau_channels} {period : Nat} {s : Sim F} {value : BitVec 16}
    (hok : Ok s.unit s.ctl) (hbit : value.getLsbD ch.val = true)
    (hidle : s.unit.expire_id ch = none) (hperiod : s.unit.interval s.f_clk ch = some period) :
    Running ch s.ctl.now period (s.next (s.unit.write_ctrl s.f_clk s.ctl 0x32 value)) [] := by
  have hwrite : s.unit.write_ctrl s.f_clk s.ctl 0x32 value =
      for_channels (start_channel s.f_clk) (selected value) s.unit s.ctl := rfl
  have hsame : (for_channels (start_channel s.f_clk) (selected value) s.unit s.ctl).1.interval
        s.f_clk ch = some period ∧
      (for_channels (start_channel s.f_clk) (selected value) s.unit s.ctl).2.now = s.ctl.now := by
    refine for_channels_rule
      (P := fun t ctl => t.interval s.f_clk ch = some period ∧ ctl.now = s.ctl.now)
      ⟨hperiod, rfl⟩ ?_
    intro i _ t ctl h
    obtain ⟨hinterval, hnow⟩ := start_settings s.f_clk ctl t i
    exact ⟨(hinterval _ _).trans h.1, hnow.trans h.2⟩
  have hstarted := started_for_channels (mem_selected.mpr hbit) hok hidle hperiod
  rw [hwrite]
  refine ⟨hsame.1, hstarted.recorded, ⟨fun _ => 1, rfl, nofun, nofun, nofun, nofun⟩, ?_⟩
  intro b ev hb now
  refine ⟨_, onGrid_first ?_⟩
  rw [← hsame.2]
  exact hstarted.due hb

/-- The grid is an invariant of the steady steps. -/
theorem running_inductive (ch : Fin tau_channels) (t0 period : Nat) :
    Inductive (runs F) (Steady ch)
      fun s => Ok s.1.unit s.1.ctl ∧ Running ch t0 period s.1 (s.2 ch) := by
  rintro s a s' ⟨hok, hrun⟩ ⟨hstop, hsettings⟩ hstep
  obtain ⟨hact, hnote⟩ := System.logged_step_cases hstep
  rw [hnote]
  exact ⟨hok.step hact, hrun.step hok hstop (hsettings _ hact) hact⟩

theorem stop_disables {ch : Fin tau_channels} {s s' : Sim F} {a : Act F} (hstop : Stops ch a)
    (hstep : s.step a = some s') : s'.unit.channel_enabled ch = false := by
  unfold Sim.step at hstep
  split at hstep
  · cases hstep
  · cases a with
    | write_ctrl offset value =>
      obtain ⟨rfl, hbit⟩ := hstop
      obtain rfl := Option.some.inj hstep
      exact for_stop_disabled (mem_selected.mpr hbit) s.unit s.ctl
    | reset =>
      obtain rfl := Option.some.inj hstep
      simp [Sim.next, TauUnit.reset, channel_enabled]
    | _ => exact hstop.elim

/-- In every run a channel has one live expiry at most, the recorded one of the
    current generation, and none once it is stopped; and from its start on, as
    long as its settings stay, its expiries are on the grid of the start. -/
theorem tau_on_schedule (ch : Fin tau_channels) (F : Type) :
    (∀ s : Sim F × History, Reachable (runs F) AnyAct s → OneExpiry s.1 ch) ∧
    (∀ (s s' : Sim F × History) (a : Act F), Reachable (runs F) AnyAct s →
      (runs F).step s a = some s' → Stops ch a →
        s'.1.unit.channel_enabled ch = false ∧ ∀ b ev, ¬ IsExpiry s'.1.ctl.events ch b ev) ∧
    ∀ (s s₁ : Sim F × History) (value : BitVec 16) (period : Nat),
      Reachable (runs F) AnyAct s → (runs F).step s (.write_ctrl 0x32 value) = some s₁ →
      value.getLsbD ch.val = true → s.1.unit.expire_id ch = none →
      s.1.unit.interval s.1.f_clk ch = some period →
      ∀ s₂, Path (runs F) (Steady ch) s₁ s₂ → ∃ k, OnGrid s.1.ctl.now period (s₂.2 ch) k := by
  refine ⟨fun s h => (ok_of_reachable h).oneExpiry ch, ?_, ?_⟩
  · intro s s' a h hstep hstop
    have hoff := stop_disables hstop (System.logged_step_cases hstep).1
    have hok := ok_of_reachable (h.step a trivial hstep)
    exact ⟨hoff, fun b ev => (hok.oneExpiry ch).stopped hoff⟩
  · intro s s₁ value period h hstep hbit hidle hperiod s₂ hpath
    have hok₁ := ok_of_reachable (h.step (.write_ctrl 0x32 value) trivial hstep)
    -- The start books the first expiry, and nothing has been served since.
    have hrun : Running ch s.1.ctl.now period s₁.1 (s₁.2 ch) := by
      obtain ⟨hact, hnote⟩ := System.logged_step_cases hstep
      have hnext : s₁.1 = s.1.next (s.1.unit.write_ctrl s.1.f_clk s.1.ctl 0x32 value) := by
        replace hact : s.1.step (.write_ctrl 0x32 value) = some s₁.1 := hact
        unfold Sim.step at hact
        split at hact
        · cases hact
        · exact (Option.some.inj hact).symm
      have hrunning := running_of_start (ok_of_reachable h) hbit hidle hperiod
      rw [← hnext] at hrunning
      have hserved : s₁.2 ch = [] := by
        rw [hnote]
        unfold note
        simp [hidle, Option.isSome_iff_ne_none, hrunning.recorded]
      rw [hserved]
      exact hrunning
    exact (hpath.invariant (running_inductive ch s.1.ctl.now period) ⟨hok₁, hrun⟩).2.served_grid

/-! ### The end of the clock -/

/-- Before the clock shows its last time every expiry returns. -/
theorem returned_of_lt {ctl : EventCtl (TauEvent F)} (hnow : ctl.now < u64_max) (ev : TauExpire)
    (t : TauUnit) (f_clk : Hertz) : (t.fire ev f_clk ctl).returned = true := by
  unfold fire
  dsimp only
  split
  · rfl
  · split
    · rfl
    · split
      · rfl
      · rename_i period _ hperiod
        split
        · rename_i hskip
          have hend := (skip_past_none (by omega) (by omega) hskip).1
          omega
        · rfl

/-- An expiry catches the simulation thread at the last time of the clock
    only. -/
theorem caught_at_end {s : Sim F × History} (h : Reachable (runs F) AnyAct s)
    (hcaught : s.1.caught = true) : s.1.ctl.now = u64_max := by
  cases h with
  | init hi =>
    rw [hi.1.2.2] at hcaught
    cases hcaught
  | @step s _ a hreach _ hstep =>
    replace hstep := (System.logged_step_cases hstep).1
    replace hstep : s.1.step a = some _ := hstep
    unfold Sim.step at hstep
    split at hstep
    · cases hstep
    -- Only the firing of an expiry catches up.
    · rename_i hfree
      cases a with
      | pop_due =>
        have hpopped : s.1.pop_due = _ := Option.some.inj hstep
        rw [← hpopped] at hcaught ⊢
        rcases pop_cases (ok_of_reachable hreach) with
          ⟨hpop, -⟩ | ⟨b, ev, hb, -, -, -, -, -, hpop⟩
        · rw [hpop] at hcaught
          exact absurd hcaught hfree
        · rw [hpop] at hcaught ⊢
          have hle : s.1.ctl.now ≤ u64_max := s.1.ctl.now_le
          have hend : ¬ s.1.ctl.pop_due.1.now < u64_max := by
            intro hlt
            simp [returned_of_lt hlt] at hcaught
          obtain ⟨-, hgen, -, hon⟩ := (ok_of_reachable hreach).owned hb
          have hnow : (s.1.unit.fire ev s.1.f_clk s.1.ctl.pop_due.1).ctl.now = s.1.ctl.now := by
            rcases fire_cases hgen hon s.1.f_clk s.1.ctl.pop_due.1 with
              ⟨hctl, -⟩ | ⟨_, _, -, -, -, hctl, -⟩
            · rw [hctl]
              rfl
            · rw [hctl]
              rfl
          rw [EventCtl.pop_due_now] at hend
          show (s.1.unit.fire ev s.1.f_clk s.1.ctl.pop_due.1).ctl.now = u64_max
          omega
      | cancel_other id =>
        rw [← cancel_other_eq hstep] at hcaught
        exact absurd hcaught hfree
      | _ =>
        obtain heq := Option.some.inj hstep
        rw [← heq] at hcaught
        exact absurd hcaught hfree

/-! ### Runs of one channel -/

instance (s : Sim F × History) (a : Act F) : Decidable (AnyAct s a) := .isTrue trivial

instance (ch : Fin tau_channels) (a : Act F) : Decidable (Stops ch a) :=
  match a with
  | .write_ctrl _ _ => inferInstanceAs (Decidable (_ ∧ _))
  | .reset => .isTrue trivial
  | .write_tdr _ _ | .set_f_clk _ | .advance _ | .pop_due | .schedule_other _ _ | .cancel_other _ =>
      .isFalse nofun

instance (ch : Fin tau_channels) (s : Sim F × History) (a : Act F) : Decidable (Steady ch s a) :=
  inferInstanceAs (Decidable (_ ∧ ∀ s' ∈ s.1.step a, settings s' ch = settings s.1 ch))

/-- A new unit at 32 MHz: a period of 31 nanoseconds. -/
def start : Sim Empty × History := (⟨new, .new, .from_mhz 32, false⟩, fun _ => [])

theorem init_start : (runs Empty).init start := ⟨⟨rfl, rfl, rfl⟩, rfl⟩

/-- Started five nanoseconds before the clock stops, the channel serves an
    expiry at the last time of the clock, which is no multiple of the period
    after the start. -/
theorem tau_off_schedule_at_end : ∃ s s₁ s₂ : Sim Empty × History,
    Reachable (runs Empty) AnyAct s ∧ (runs Empty).step s (.write_ctrl 0x32 1) = some s₁ ∧
      s.1.unit.expire_id 0 = none ∧ s.1.unit.interval s.1.f_clk 0 = some 31 ∧
      Path (runs Empty) (Steady 0) s₁ s₂ ∧ s₂.2 0 = [⟨u64_max, u64_max⟩] ∧
      ∀ k, u64_max ≠ s.1.ctl.now + k * 31 := by
  obtain ⟨s, s₁, hreach, hstep, hidle, hperiod, hnow, hexec⟩ :
      ∃ s s₁ : Sim Empty × History, Reachable (runs Empty) AnyAct s ∧
        (runs Empty).step s (.write_ctrl 0x32 1) = some s₁ ∧ s.1.unit.expire_id 0 = none ∧
        s.1.unit.interval s.1.f_clk 0 = some 31 ∧ s.1.ctl.now = u64_max - 5 ∧
        (((runs Empty).exec (Steady 0) s₁ [.advance 5, .pop_due]).any
          fun s₂ => s₂.2 0 = [⟨u64_max, u64_max⟩]) = true :=
    Reachable.exists_step_of_exec [.advance (u64_max - 5)] init_start (by decide +kernel)
  obtain ⟨s₂, hpath, hserved⟩ := Path.exists_of_exec _ hexec
  refine ⟨s, s₁, s₂, hreach, hstep, hidle, hperiod, hpath, hserved, ?_⟩
  intro k
  rw [hnow]
  unfold u64_max
  omega

/-- The second expiry is served late, and the third one is again on the grid. -/
theorem tau_on_schedule_late : ∃ s₂ : Sim Empty × History,
    s₂.2 0 = [⟨31, 31⟩, ⟨62, 100⟩, ⟨124, 130⟩] ∧ ∃ k, OnGrid 0 31 (s₂.2 0) k := by
  obtain ⟨s, s₁, hreach, hstep, hidle, hperiod, hnow, hexec⟩ :
      ∃ s s₁ : Sim Empty × History, Reachable (runs Empty) AnyAct s ∧
        (runs Empty).step s (.write_ctrl 0x32 1) = some s₁ ∧ s.1.unit.expire_id 0 = none ∧
        s.1.unit.interval s.1.f_clk 0 = some 31 ∧ s.1.ctl.now = 0 ∧
        (((runs Empty).exec (Steady 0) s₁ [.advance 31, .pop_due, .advance 69, .pop_due,
          .advance 30, .pop_due]).any
            fun s₂ => s₂.2 0 = [⟨31, 31⟩, ⟨62, 100⟩, ⟨124, 130⟩]) = true :=
    Reachable.exists_step_of_exec [] init_start (by decide +kernel)
  obtain ⟨s₂, hpath, hserved⟩ := Path.exists_of_exec _ hexec
  have hgrid := (tau_on_schedule 0 Empty).2.2 s s₁ 1 31 hreach hstep rfl hidle hperiod s₂ hpath
  rw [hnow] at hgrid
  exact ⟨s₂, hserved, hgrid⟩

end TauUnit

end Rl78Sim

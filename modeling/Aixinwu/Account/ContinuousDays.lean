import Aixinwu.Account.Models
import Aixinwu.Lib.Streak
import Mathlib

/-!
# The daily login reward

`_update_continuous_days` of `saleor/plugins/openid_connect/utils.py`: three coupled columns of a
user, `continuous`, `last_login` and `balance`, and one balance event for the first login of a
day. The calendar is a parameter, a function from instants to day numbers; the code uses the one
of Asia/Shanghai.

The counter of the code and the length of a run of consecutive dates are two different things:
the counter is kept from login to login, the run length is a function of the set of login dates
(`Streak.streak`). That they agree over every history is **`logins_rewards`**. The induction is on
the history from the front to the back. It goes through because a run length looks only at
earlier dates, so a new login does not change what any earlier reward was worth.

## Main definitions

* `updateContinuousDays` — one login
* `logins` — the fold over a history of logins
* `DailyRewards` — what the history should have done

## Main results

* `updateContinuousDays_sameDate`, `updateContinuousDays_laterDate` — one login
* `logins_rewards` — every history
-/

namespace Aixinwu

namespace Account

/-- `xs[i]`: a negative index counts from the end, and `none` is the `IndexError`. -/
def pyIndex {α : Type*} (xs : List α) (i : ℤ) : Option α :=
  if 0 ≤ i then xs[i.toNat]?
  else if 0 ≤ xs.length + i then xs[(xs.length + i).toNat]? else none

theorem pyIndex_of_nonneg {α : Type*} (xs : List α) {i : ℤ} (h : 0 ≤ i) :
    pyIndex xs i = xs[i.toNat]? := if_pos h

theorem pyIndex_neg_one {α : Type*} (xs : List α) : pyIndex xs (-1) = xs[xs.length - 1]? := by
  rw [pyIndex, if_neg (by omega)]
  by_cases h : 0 ≤ (xs.length : ℤ) + -1
  · rw [if_pos h, show ((xs.length : ℤ) + -1).toNat = xs.length - 1 by omega]
  · rw [if_neg h, List.getElem?_eq_none (by omega)]

/-- The `balance_delta` of `_update_continuous_days`: the table entry of the counter, the last one
when the counter is past the end. -/
def balanceDelta (table : List Amount) (continuous : ℤ) : Option Amount :=
  if continuous ≤ (table.length : ℤ) then pyIndex table (continuous - 1) else pyIndex table (-1)

/-- `_update_continuous_days`: the user in memory afterwards, the balance events written and the
fields to save. `table` is `CONTINUOUS_BALANCE_ADD`, `date` the calendar and `now` the clock when
the event is written; `none` is the `IndexError` of the table. -/
def updateContinuousDays (table : List Amount) (date : Time → ℤ) (now : Time) (user : User)
    (loginTime : Time) (fieldsToSave : List UserField) :
    Option (User × List BalanceEvent × List UserField) := do
  let delta := date loginTime - date user.lastLogin
  let user := if delta > 1 then { user with continuous := 0 } else user
  if delta ≥ 1 then
    let user := { user with continuous := user.continuous + 1 }
    let delta ← balanceDelta table user.continuous
    let user := { user with balance := user.balance + delta }
    let event := consecutiveLoginBalanceEvent now user delta
    some ({ user with lastLogin := loginTime }, [event],
      fieldsToSave ++ [.balance, .continuous, .lastLogin])
  else
    some ({ user with lastLogin := loginTime }, [], fieldsToSave ++ [.continuous, .lastLogin])

/-! ### One login -/

section Step

variable {table : List Amount} {date : Time → ℤ} {user : User} {loginTime : Time}

/-- A further login of the same date only moves `last_login`. -/
theorem updateContinuousDays_sameDate (h : date loginTime = date user.lastLogin) (now : Time)
    (fieldsToSave : List UserField) :
    updateContinuousDays table date now user loginTime fieldsToSave
      = some ({ user with lastLogin := loginTime }, [],
          fieldsToSave ++ [.continuous, .lastLogin]) := by
  rw [updateContinuousDays, h]
  simp

/-- The value `continuous` takes on a later date: the counter goes on after one day and starts
anew after more. -/
def nextContinuous (date : Time → ℤ) (user : User) (loginTime : Time) : ℤ :=
  if date user.lastLogin + 1 = date loginTime then user.continuous + 1 else 1

theorem one_le_nextContinuous (hc : 0 ≤ user.continuous) :
    1 ≤ nextContinuous date user loginTime := by
  rw [nextContinuous]
  split <;> omega

/-- The table entry a run of `n` days is worth: the last one for every longer run. -/
def rewardAt (table : List Amount) (n : ℤ) : Option Amount := table[(min n table.length - 1).toNat]?

theorem rewardAt_isSome (htable : table ≠ []) (n : ℤ) : (rewardAt table n).isSome := by
  have := List.length_pos_iff.mpr htable
  rw [rewardAt, List.getElem?_eq_getElem (by omega)]
  rfl

theorem balanceDelta_eq_rewardAt {n : ℤ} (hn : 1 ≤ n) :
    balanceDelta table n = rewardAt table n := by
  rw [balanceDelta, rewardAt]
  by_cases h : n ≤ (table.length : ℤ)
  · rw [if_pos h, pyIndex_of_nonneg _ (by omega), min_eq_left h]
  · rw [if_neg h, pyIndex_neg_one, min_eq_right (by omega),
      show ((table.length : ℤ) - 1).toNat = table.length - 1 by omega]

/-- The first login of a later date is rewarded by what the run is then worth. -/
theorem updateContinuousDays_laterDate (htable : table ≠ []) (hc : 0 ≤ user.continuous)
    (h : date user.lastLogin < date loginTime) (now : Time) (fieldsToSave : List UserField) :
    ∃ delta, rewardAt table (nextContinuous date user loginTime) = some delta ∧
      updateContinuousDays table date now user loginTime fieldsToSave
        = some ({ user with
              continuous := nextContinuous date user loginTime
              balance := user.balance + delta
              lastLogin := loginTime },
            [consecutiveLoginBalanceEvent now { user with balance := user.balance + delta } delta],
            fieldsToSave ++ [.balance, .continuous, .lastLogin]) := by
  have hn : 1 ≤ nextContinuous date user loginTime := one_le_nextContinuous hc
  obtain ⟨delta, hdelta⟩ := Option.isSome_iff_exists.mp (rewardAt_isSome htable _)
  refine ⟨delta, hdelta, ?_⟩
  rw [← balanceDelta_eq_rewardAt hn, nextContinuous] at hdelta
  rw [nextContinuous]
  by_cases hone : date user.lastLogin + 1 = date loginTime
  · simp only [hone, if_true] at hdelta ⊢
    have hgt : ¬ date loginTime - date user.lastLogin > 1 := by omega
    have hge : date loginTime - date user.lastLogin ≥ 1 := by omega
    simp [updateContinuousDays, hgt, hge, hdelta, consecutiveLoginBalanceEvent]
  · simp only [hone, if_false] at hdelta ⊢
    have hgt : date loginTime - date user.lastLogin > 1 := by omega
    have hge : date loginTime - date user.lastLogin ≥ 1 := by omega
    simp [updateContinuousDays, hgt, hge, hdelta, consecutiveLoginBalanceEvent]

end Step

/-! ### A history of logins -/

/-- A login: its time, and the clock when its balance event, if any, is written. -/
structure Login where
  loginTime : Time
  now : Time
deriving DecidableEq, Repr

/-- Fold `updateContinuousDays` over a history: the user afterwards, and every balance event with
the login that wrote it. -/
def logins (table : List Amount) (date : Time → ℤ) (user : User) (history : List Login) :
    Option (User × List (Login × BalanceEvent)) :=
  history.foldlM (fun acc l =>
    (updateContinuousDays table date l.now acc.1 l.loginTime []).map fun out =>
      (out.1, acc.2 ++ out.2.1.map (l, ·))) (user, [])

theorem logins_snoc (table : List Amount) (date : Time → ℤ) (user : User) (history : List Login)
    (l : Login) :
    logins table date user (history ++ [l]) = (logins table date user history).bind fun acc =>
      (updateContinuousDays table date l.now acc.1 l.loginTime []).map fun out =>
        (out.1, acc.2 ++ out.2.1.map (l, ·)) := by
  simp only [logins, List.foldlM_append, List.foldlM_cons, List.foldlM_nil, bind_pure]
  rfl

/-- The dates of a history, with the date of the login before it. -/
def loginDates (date : Time → ℤ) (user : User) (history : List Login) : List ℤ :=
  date user.lastLogin :: history.map fun l => date l.loginTime

theorem loginDates_snoc (date : Time → ℤ) (user : User) (history : List Login) (l : Login) :
    loginDates date user (history ++ [l]) = loginDates date user history ++ [date l.loginTime] := by
  simp [loginDates]

/-- The length of the run of consecutive login dates that ends at day `n`. A run that reaches back
to the date of the starting user's last login also counts that user's `continuous`. -/
def runLength (date : Time → ℤ) (user : User) (history : List Login) (n : ℤ) : ℤ :=
  Streak.streak (· ∈ loginDates date user history) (date user.lastLogin) user.continuous n

/-- What a history of logins should do to `start`: the user afterwards and the rewards, each with
the login that earned it. -/
structure DailyRewards (table : List Amount) (date : Time → ℤ) (start : User)
    (history : List Login) (user : User) (rewards : List (Login × BalanceEvent)) : Prop where
  /-- No two rewards are for the same date, and they come in the order of the dates. -/
  dates_increasing : (rewards.map fun r => date r.1.loginTime).Pairwise (· < ·)
  /-- The rewarded dates are the login dates after the starting one. -/
  mem_dates : ∀ d, d ∈ rewards.map (fun r => date r.1.loginTime) ↔
    date start.lastLogin < d ∧ d ∈ history.map (fun l => date l.loginTime)
  /-- Each is one reward event of this user. -/
  event : ∀ r ∈ rewards, r.2.type = .consecutiveLogin ∧ r.2.user = start.pk ∧ r.2.date = r.1.now
  /-- Each is worth what the table says about the run that ends on its date. -/
  delta : ∀ r ∈ rewards, 1 ≤ runLength date start history (date r.1.loginTime) ∧
    rewardAt table (runLength date start history (date r.1.loginTime)) = some r.2.delta
  lastLogin : user.lastLogin = ((start.lastLogin :: history.map (·.loginTime)).getLast (by simp))
  continuous : user.continuous = runLength date start history (date user.lastLogin)
  balance : user.balance = start.balance + (rewards.map (·.2.delta)).sum
  /-- The other columns are not touched. -/
  frame : user = { start with
    continuous := user.continuous, balance := user.balance, lastLogin := user.lastLogin }

section History

variable {table : List Amount} {date : Time → ℤ} {start user : User} {history : List Login}
  {l : Login} {rewards : List (Login × BalanceEvent)}

theorem DailyRewards.nil : DailyRewards table date start [] start [] where
  dates_increasing := .nil
  mem_dates := by simp
  event := by simp
  delta := by simp
  lastLogin := rfl
  continuous := Streak.streak_self.symm
  balance := by simp
  frame := rfl

/-- The date of the last login is one of the dates. -/
theorem DailyRewards.date_mem (h : DailyRewards table date start history user rewards) :
    date user.lastLogin ∈ loginDates date start history := by
  have hmap : loginDates date start history
      = (start.lastLogin :: history.map (·.loginTime)).map date := by simp [loginDates]
  rw [hmap, h.lastLogin]
  exact List.mem_map_of_mem (List.getLast_mem _)

/-- No date is later than that of the last login. -/
theorem DailyRewards.le_date (h : DailyRewards table date start history user rewards)
    (hdate : Monotone date)
    (hsorted : (start.lastLogin :: history.map (·.loginTime)).Pairwise (· ≤ ·)) :
    ∀ d ∈ loginDates date start history, d ≤ date user.lastLogin := by
  have hmap : loginDates date start history
      = (start.lastLogin :: history.map (·.loginTime)).map date := by simp [loginDates]
  intro d hd
  rw [hmap] at hd
  obtain ⟨t, ht, rfl⟩ := List.mem_map.mp hd
  refine hdate ?_
  rw [h.lastLogin]
  exact hsorted.rel_getLast_of_rel_getLast_getLast ht le_rfl

/-- A login changes no run length up to its own date. -/
theorem runLength_snoc {n : ℤ} (hn : n ≤ date l.loginTime) :
    runLength date start (history ++ [l]) n = runLength date start history n := by
  refine Streak.streak_congr fun m _ hm => ?_
  rw [loginDates_snoc, List.mem_append, List.mem_singleton]
  exact ⟨fun h => h.resolve_right (by omega), Or.inl⟩

/-- The counter of the next date is the length of the run that ends on it. -/
theorem DailyRewards.nextContinuous_eq (h : DailyRewards table date start history user rewards)
    (hmax : ∀ d ∈ loginDates date start history, d ≤ date user.lastLogin)
    (hlt : date user.lastLogin < date l.loginTime) :
    nextContinuous date user l.loginTime
      = runLength date start history (date l.loginTime) := by
  have hstart : date start.lastLogin < date l.loginTime :=
    (hmax _ List.mem_cons_self).trans_lt hlt
  rw [nextContinuous, runLength]
  by_cases hone : date user.lastLogin + 1 = date l.loginTime
  · have hprev : date l.loginTime - 1 = date user.lastLogin := by omega
    rw [if_pos hone, Streak.streak_of_mem hstart (by rw [hprev]; exact h.date_mem), hprev,
      h.continuous, runLength]
  · rw [if_neg hone, Streak.streak_of_not_mem hstart]
    intro hmem
    have := hmax _ hmem
    omega

/-- A further login of the last date earns nothing and moves no counter. -/
theorem DailyRewards.snoc_sameDate (h : DailyRewards table date start history user rewards)
    (heq : date l.loginTime = date user.lastLogin)
    (hmax : ∀ d ∈ loginDates date start history, d ≤ date user.lastLogin) :
    DailyRewards table date start (history ++ [l]) { user with lastLogin := l.loginTime }
      rewards where
  dates_increasing := h.dates_increasing
  mem_dates d := by
    rw [h.mem_dates, List.map_append, List.mem_append, List.map_singleton, List.mem_singleton]
    -- the date of `l` was there already, unless it is the starting date
    have hold := h.date_mem
    rw [loginDates, List.mem_cons, ← heq] at hold
    constructor
    · rintro ⟨hd, hmem⟩
      exact ⟨hd, Or.inl hmem⟩
    · rintro ⟨hd, hmem | rfl⟩
      · exact ⟨hd, hmem⟩
      · exact ⟨hd, hold.resolve_left (by omega)⟩
  event := h.event
  delta r hr := by
    have hle : date r.1.loginTime ≤ date l.loginTime := by
      have hmem := ((h.mem_dates _).mp (List.mem_map_of_mem hr)).2
      rw [heq]
      exact hmax _ (List.mem_cons_of_mem _ hmem)
    rw [runLength_snoc hle]
    exact h.delta r hr
  lastLogin := by simp
  continuous := by
    change user.continuous = runLength date start (history ++ [l]) (date l.loginTime)
    rw [runLength_snoc le_rfl, heq, h.continuous]
  balance := h.balance
  frame := by
    have := h.frame
    rw [User.mk.injEq] at this ⊢
    simpa using this

/-- The first login of a later date earns what the run is then worth. -/
theorem DailyRewards.snoc_laterDate (h : DailyRewards table date start history user rewards)
    (hc : 0 ≤ user.continuous)
    (hmax : ∀ d ∈ loginDates date start history, d ≤ date user.lastLogin)
    (hlt : date user.lastLogin < date l.loginTime) {delta : Amount}
    (hdelta : rewardAt table (nextContinuous date user l.loginTime) = some delta) :
    DailyRewards table date start (history ++ [l])
      { user with
        continuous := nextContinuous date user l.loginTime
        balance := user.balance + delta
        lastLogin := l.loginTime }
      (rewards ++ [(l, consecutiveLoginBalanceEvent l.now
        { user with balance := user.balance + delta } delta)]) where
  dates_increasing := by
    rw [List.map_append, List.pairwise_append]
    refine ⟨h.dates_increasing, List.pairwise_singleton _ _, fun d hd e he => ?_⟩
    obtain rfl := List.mem_singleton.mp he
    have hmem := ((h.mem_dates d).mp hd).2
    exact (hmax d (List.mem_cons_of_mem _ hmem)).trans_lt hlt
  mem_dates d := by
    have hstart : date start.lastLogin < date l.loginTime :=
      (hmax _ List.mem_cons_self).trans_lt hlt
    rw [List.map_append, List.mem_append, h.mem_dates, List.map_append, List.mem_append]
    simp only [List.map_cons, List.map_nil, List.mem_singleton]
    constructor
    · rintro (⟨hd, hmem⟩ | rfl)
      · exact ⟨hd, Or.inl hmem⟩
      · exact ⟨hstart, Or.inr rfl⟩
    · rintro ⟨hd, hmem | hmem⟩
      · exact Or.inl ⟨hd, hmem⟩
      · exact Or.inr hmem
  event r hr := by
    rcases List.mem_append.mp hr with hr | hr
    · exact h.event r hr
    · obtain rfl := List.mem_singleton.mp hr
      have hpk : user.pk = start.pk := by rw [h.frame]
      exact ⟨rfl, hpk, rfl⟩
  delta r hr := by
    rcases List.mem_append.mp hr with hr | hr
    · have hle : date r.1.loginTime ≤ date l.loginTime := by
        have hmem := ((h.mem_dates _).mp (List.mem_map_of_mem hr)).2
        exact (hmax _ (List.mem_cons_of_mem _ hmem)).trans hlt.le
      rw [runLength_snoc hle]
      exact h.delta r hr
    · obtain rfl := List.mem_singleton.mp hr
      rw [runLength_snoc le_rfl, ← h.nextContinuous_eq hmax hlt]
      exact ⟨one_le_nextContinuous hc, hdelta⟩
  lastLogin := by simp
  continuous := by
    change nextContinuous date user l.loginTime
      = runLength date start (history ++ [l]) (date l.loginTime)
    rw [runLength_snoc le_rfl, h.nextContinuous_eq hmax hlt]
  balance := by
    simp only [List.map_append, List.sum_append, List.map_cons, List.map_nil, List.sum_singleton]
    rw [h.balance, add_assoc]
    rfl
  frame := by
    have := h.frame
    rw [User.mk.injEq] at this ⊢
    simpa using this

/-- **Every history.** From a counter that is not negative, over every sequence of login times
that never goes back and never starts before the last login, the code rewards exactly the later
login dates, once each, by the table entry of the run of consecutive dates that ends there; the
counter is the length of the run that ends on the last login date, and the balance has grown by
the rewards. The table is never indexed out of range. -/
theorem logins_rewards (htable : table ≠ []) (hdate : Monotone date)
    (hc : 0 ≤ start.continuous)
    (hsorted : (start.lastLogin :: history.map (·.loginTime)).Pairwise (· ≤ ·)) :
    ∃ user rewards, logins table date start history = some (user, rewards) ∧
      DailyRewards table date start history user rewards := by
  suffices key : ∃ user rewards, logins table date start history = some (user, rewards) ∧
      DailyRewards table date start history user rewards ∧ 0 ≤ user.continuous by
    obtain ⟨user, rewards, hrun, h, _⟩ := key
    exact ⟨user, rewards, hrun, h⟩
  induction history using List.reverseRecOn with
  | nil => exact ⟨start, [], rfl, .nil, hc⟩
  | append_singleton history l ih =>
    rw [List.map_append, ← List.cons_append, List.pairwise_append] at hsorted
    obtain ⟨user, rewards, hrun, h, hcont⟩ := ih hsorted.1
    have hmax := h.le_date hdate hsorted.1
    have hle : date user.lastLogin ≤ date l.loginTime := by
      refine hdate (hsorted.2.2 _ ?_ _ List.mem_cons_self)
      rw [h.lastLogin]
      exact List.getLast_mem _
    rw [logins_snoc, hrun]
    simp only [Option.bind_some]
    rcases hle.eq_or_lt with heq | hlt
    · rw [updateContinuousDays_sameDate heq.symm]
      refine ⟨_, _, rfl, ?_, hcont⟩
      simpa using h.snoc_sameDate heq.symm hmax
    · obtain ⟨delta, hdelta, hstep⟩ :=
        updateContinuousDays_laterDate htable hcont hlt l.now []
      rw [hstep]
      refine ⟨_, _, rfl, h.snoc_laterDate hcont hmax hlt hdelta, ?_⟩
      exact (one_le_nextContinuous hcont).trans' zero_le_one

/-- Four logins with the table of the settings, in the calendar eight hours ahead of UTC: two on
the next date, one on the date after, and one after a gap. -/
theorem logins_rewards_fourLogins :
    ∃ user rewards,
      logins CONTINUOUS_BALANCE_ADD (fun t => (t + 28800) / 86400)
        { pk := 7, email := "a@sjtu.edu.cn", balance := 100, lastLogin := 0 }
        [⟨60000, 60001⟩, ⟨86400, 86401⟩, ⟨172800, 172801⟩, ⟨500000, 500001⟩]
          = some (user, rewards) ∧
      DailyRewards CONTINUOUS_BALANCE_ADD (fun t => (t + 28800) / 86400)
        { pk := 7, email := "a@sjtu.edu.cn", balance := 100, lastLogin := 0 }
        [⟨60000, 60001⟩, ⟨86400, 86401⟩, ⟨172800, 172801⟩, ⟨500000, 500001⟩] user rewards :=
  logins_rewards (by decide)
    (fun _ _ h => Int.ediv_le_ediv (by decide) (Int.add_le_add_right h _)) (by decide) (by decide)

end History

end Account

end Aixinwu

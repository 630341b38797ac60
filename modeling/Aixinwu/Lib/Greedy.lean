import Aixinwu.Lib.Aggregates
import Mathlib.Algebra.Order.BigOperators.Group.List
import Mathlib.Algebra.Order.Group.Int
import Mathlib.Data.List.Nodup
import Mathlib.Tactic.Linarith

/-!
# Filling a demand from bins in order

A demand is met from bins in a fixed order: each gives what it has, at most what is still wanted,
until nothing is. A bin that has nothing, or less than nothing, is passed over. What a bin gives
then depends only on the demand and on what the bins before it have: it is the part of the demand
between what they have and what they and the bin have, `share`.

## Main definitions

* `pour` — what each bin gives, and what is still wanted
* `share` — the closed form

## Main results

* `sum_pour` — what is given and what is wanted make up the demand
* `pour_le` — no bin gives more than it has
* `pour_emptied` — the bins before the last one that gives are emptied
* `givenBy_pour` — each bin gives its share
* `share_rest` — the shares of a second demand
-/

namespace Aixinwu

namespace Greedy

variable {β : Type*} (available : β → ℤ)

/-- What the bins give, in order, and what is still wanted in the end. -/
def pour : ℤ → List β → List (β × ℤ) × ℤ
  | wanted, [] => ([], wanted)
  | wanted, b :: bs =>
    let x := min wanted (available b)
    if 0 < x then
      let (given, rest) := pour (wanted - x) bs
      ((b, x) :: given, rest)
    else pour wanted bs

@[simp] theorem pour_nil (wanted : ℤ) : pour available wanted [] = ([], wanted) := rfl

theorem pour_cons (wanted : ℤ) (b : β) (bs : List β) :
    pour available wanted (b :: bs)
      = if 0 < min wanted (available b) then
          ((b, min wanted (available b)) :: (pour available (wanted - min wanted (available b)) bs).1,
            (pour available (wanted - min wanted (available b)) bs).2)
        else pour available wanted bs := rfl

/-- Nothing is given where nothing is wanted. -/
theorem pour_of_nonpos {wanted : ℤ} (h : wanted ≤ 0) (bs : List β) :
    pour available wanted bs = ([], wanted) := by
  induction bs with
  | nil => rfl
  | cons b bs ih =>
    have hmin : ¬ 0 < min wanted (available b) := by omega
    rw [pour_cons, if_neg hmin, ih]

variable {available}

/-- **What is given and what is still wanted** make up the demand. -/
theorem sum_pour (wanted : ℤ) (bs : List β) :
    ((pour available wanted bs).1.map (·.2)).sum + (pour available wanted bs).2 = wanted := by
  induction bs generalizing wanted with
  | nil => simp
  | cons b bs ih =>
    rw [pour_cons]
    split
    · have hrest := ih (wanted - min wanted (available b))
      rw [List.map_cons, List.sum_cons]
      omega
    · exact ih wanted

/-- **No bin gives more than it has**, and what gives gives something. -/
theorem pour_le {wanted : ℤ} {bs : List β} {e : β × ℤ} (he : e ∈ (pour available wanted bs).1) :
    0 < e.2 ∧ e.2 ≤ available e.1 := by
  induction bs generalizing wanted with
  | nil => cases he
  | cons b bs ih =>
    rw [pour_cons] at he
    split at he
    · rename_i hpos
      rcases List.mem_cons.mp he with rfl | he
      · exact ⟨hpos, min_le_right _ _⟩
      · exact ih he
    · exact ih he

/-- The bins that give stand in their order. -/
theorem pour_sublist (wanted : ℤ) (bs : List β) :
    List.Sublist ((pour available wanted bs).1.map (·.1)) bs := by
  induction bs generalizing wanted with
  | nil => exact List.Sublist.slnil
  | cons b bs ih =>
    rw [pour_cons]
    split
    · exact (ih _).cons_cons b
    · exact (ih _).cons b

theorem sum_max_nonneg (bs : List β) : 0 ≤ (bs.map fun c => max (available c) 0).sum := by
  refine List.sum_nonneg fun x hx => ?_
  obtain ⟨c, -, rfl⟩ := List.mem_map.mp hx
  exact le_max_right _ _

theorem pour_max (wanted : ℤ) (bs : List β) :
    (pour available (max wanted 0) bs).1 = (pour available wanted bs).1 := by
  rcases le_total wanted 0 with h | h
  · rw [max_eq_right h, pour_of_nonpos available h, pour_of_nonpos available le_rfl]
  · rw [max_eq_left h]

/-- **What is still wanted** is what the bins do not have. -/
theorem pour_snd {wanted : ℤ} (h : 0 ≤ wanted) (bs : List β) :
    (pour available wanted bs).2
      = max (wanted - (bs.map fun c => max (available c) 0).sum) 0 := by
  induction bs generalizing wanted with
  | nil => simp [h]
  | cons b bs ih =>
    have hsum : 0 ≤ (bs.map fun c => max (available c) 0).sum := sum_max_nonneg bs
    rw [pour_cons, List.map_cons, List.sum_cons]
    split
    · rw [ih (by omega)]
      omega
    · rw [ih h]
      omega

/-- **The bins before the last one that gives** are emptied. -/
theorem pour_emptied {wanted : ℤ} {bs : List β} (h : 0 < wanted)
    (hmet : (pour available wanted bs).2 = 0) :
    ∃ before last rest x, bs = before ++ last :: rest ∧
      (pour available wanted bs).1
        = (before.filter fun b => 0 < available b).map (fun b => (b, available b)) ++ [(last, x)] := by
  induction bs generalizing wanted with
  | nil =>
    rw [pour_nil] at hmet
    exact absurd hmet h.ne'
  | cons b bs ih =>
    rw [pour_cons] at hmet ⊢
    by_cases hgives : 0 < min wanted (available b)
    · rw [if_pos hgives] at hmet ⊢
      rcases le_or_gt wanted (available b) with hlast | hmore
      · -- the bin meets the demand alone
        refine ⟨[], b, bs, wanted, rfl, ?_⟩
        rw [min_eq_left hlast, sub_self, pour_of_nonpos available le_rfl]
        rfl
      · rw [min_eq_right hmore.le] at hmet hgives ⊢
        obtain ⟨before, last, rest, x, rfl, hgiven⟩ := ih (sub_pos.mpr hmore) hmet
        refine ⟨b :: before, last, rest, x, rfl, ?_⟩
        rw [hgiven, List.filter_cons_of_pos (by simpa using hgives)]
        rfl
    · rw [if_neg hgives] at hmet ⊢
      have hnothing : ¬ 0 < available b := by omega
      obtain ⟨before, last, rest, x, rfl, hgiven⟩ := ih h hmet
      refine ⟨b :: before, last, rest, x, rfl, ?_⟩
      rw [hgiven, List.filter_cons_of_neg (by simpa using hnothing)]

/-! ### The share of a bin -/

section Share

variable [DecidableEq β] (available)

/-- What the bins before `b` have. -/
def before (b : β) (bs : List β) : ℤ := ((bs.takeWhile (· ≠ b)).map fun c => max (available c) 0).sum

/-- The part of the demand that falls to `b`. -/
def share (wanted : ℤ) (b : β) (bs : List β) : ℤ :=
  min wanted (before available b bs + max (available b) 0) - min wanted (before available b bs)

/-- What `b` gives. -/
def givenBy (b : β) (given : List (β × ℤ)) : ℤ := sumIf (fun e => decide (e.1 = b)) (·.2) given

variable {available}

theorem before_nonneg (b : β) (bs : List β) : 0 ≤ before available b bs := sum_max_nonneg _

theorem before_self (b : β) (bs : List β) : before available b (b :: bs) = 0 := by
  simp [before]

theorem before_cons {b c : β} (h : c ≠ b) (bs : List β) :
    before available b (c :: bs) = max (available c) 0 + before available b bs := by
  simp [before, h]

theorem givenBy_cons (b : β) (e : β × ℤ) (given : List (β × ℤ)) :
    givenBy b (e :: given) = (if e.1 = b then e.2 else 0) + givenBy b given := by
  rw [givenBy, sumIf_cons]
  by_cases h : e.1 = b <;> simp [givenBy, h]

theorem givenBy_eq_zero {b : β} {given : List (β × ℤ)} (h : b ∉ given.map (·.1)) :
    givenBy b given = 0 := by
  refine sumIf_eq_zero fun e he hb => absurd ?_ h
  rw [← of_decide_eq_true hb]
  exact List.mem_map_of_mem he

/-- **Each bin gives its share.** -/
theorem givenBy_pour {bs : List β} (hnodup : bs.Nodup) {b : β} (hb : b ∈ bs) {wanted : ℤ}
    (hwanted : 0 ≤ wanted) :
    givenBy b (pour available wanted bs).1 = share available wanted b bs := by
  induction bs generalizing wanted with
  | nil => cases hb
  | cons c bs ih =>
    obtain ⟨hc, hnodup⟩ := List.nodup_cons.mp hnodup
    rw [pour_cons, share]
    by_cases hcb : c = b
    · -- the bin itself stands first: nothing before it, and nothing of it later
      subst hcb
      have hlater : ∀ w, givenBy c (pour available w bs).1 = 0 := fun w =>
        givenBy_eq_zero fun hmem => hc ((pour_sublist w bs).subset hmem)
      rw [before_self]
      split
      · rw [givenBy_cons, if_pos rfl, hlater]
        omega
      · rw [hlater]
        omega
    · have hb : b ∈ bs := (List.mem_cons.mp hb).resolve_left (Ne.symm hcb)
      have hbefore : 0 ≤ before available b bs := before_nonneg b bs
      rw [before_cons hcb]
      split
      · rw [givenBy_cons, if_neg hcb, ih hnodup hb (by omega), share]
        omega
      · rw [ih hnodup hb hwanted, share]
        omega

/-- A share is not negative, and at most what the bin has. -/
theorem share_nonneg (wanted : ℤ) (b : β) (bs : List β) : 0 ≤ share available wanted b bs := by
  rw [share]
  omega

theorem share_le (wanted : ℤ) (b : β) (bs : List β) :
    share available wanted b bs ≤ max (available b) 0 := by
  rw [share]
  omega

/-! ### Filling twice -/

/-- What all bins have. -/
def held (available : β → ℤ) (bs : List β) : ℤ := (bs.map fun c => max (available c) 0).sum

theorem share_self (wanted : ℤ) (b : β) (bs : List β) (h : 0 ≤ wanted) :
    share available wanted b (b :: bs) = min wanted (max (available b) 0) := by
  rw [share, before_self]
  omega

theorem share_cons {b c : β} (hc : c ≠ b) {wanted : ℤ} (h : 0 ≤ wanted) (bs : List β) :
    share available wanted b (c :: bs)
      = share available (wanted - min wanted (max (available c) 0)) b bs := by
  have hbefore : 0 ≤ before available b bs := before_nonneg b bs
  rw [share, share, before_cons hc]
  omega

/-- What the bins before `b` give. -/
theorem sum_share_before {bs : List β} (hnodup : bs.Nodup) (b : β) {wanted : ℤ} (h : 0 ≤ wanted) :
    ((bs.takeWhile (· ≠ b)).map fun c => share available wanted c bs).sum
      = min wanted (before available b bs) := by
  induction bs generalizing wanted with
  | nil =>
    rw [before, List.takeWhile_nil, List.map_nil, List.map_nil, List.sum_nil]
    exact (min_eq_right h).symm
  | cons d bs ih =>
    obtain ⟨hd, hnodup⟩ := List.nodup_cons.mp hnodup
    by_cases hdb : d = b
    · rw [hdb, before_self, List.takeWhile_cons_of_neg (by simp)]
      exact (min_eq_right h).symm
    · have hrest : ((bs.takeWhile (· ≠ b)).map fun c => share available wanted c (d :: bs))
          = (bs.takeWhile (· ≠ b)).map fun c =>
              share available (wanted - min wanted (max (available d) 0)) c bs := by
        refine List.map_congr_left fun c hc => share_cons (fun hdc => hd ?_) h bs
        rw [hdc]
        exact (List.takeWhile_subset _) hc
      have hbefore : 0 ≤ before available b bs := before_nonneg b bs
      rw [List.takeWhile_cons_of_pos (by simpa using hdb), List.map_cons, List.sum_cons, hrest,
        ih hnodup (by omega), share_self wanted d bs h, before_cons hdb]
      omega

/-- What some bins have once some demand has been met. -/
theorem sum_max_sub_share (wanted : ℤ) (bs l : List β) :
    (l.map fun c => max (available c - share available wanted c bs) 0).sum
      = (l.map fun c => max (available c) 0).sum
        - (l.map fun c => share available wanted c bs).sum := by
  induction l with
  | nil => rfl
  | cons c l ih =>
    have hle : share available wanted c bs ≤ max (available c) 0 := share_le wanted c bs
    have hnonneg : 0 ≤ share available wanted c bs := share_nonneg wanted c bs
    simp only [List.map_cons, List.sum_cons, ih]
    omega

/-- What the bins before `b` have once some demand has been met. -/
theorem before_rest {bs : List β} (hnodup : bs.Nodup) (b : β) {wanted : ℤ} (h : 0 ≤ wanted) :
    before (fun c => available c - share available wanted c bs) b bs
      = before available b bs - min wanted (before available b bs) := by
  rw [before, sum_max_sub_share, sum_share_before hnodup b h]
  rfl

/-- **Filling twice**: a second demand is met with what the two together would take more than the
first. -/
theorem share_rest {bs : List β} (hnodup : bs.Nodup) (b : β) {wanted more : ℤ} (h : 0 ≤ wanted)
    (hmore : 0 ≤ more) :
    share (fun c => available c - share available wanted c bs) more b bs
      = share available (wanted + more) b bs - share available wanted b bs := by
  have hbefore : 0 ≤ before available b bs := before_nonneg b bs
  rw [share, before_rest hnodup b h, share, share]
  omega

/-- The bins that give are those with a share. -/
theorem mem_pour_iff {bs : List β} (hnodup : bs.Nodup) {b : β} (hb : b ∈ bs) {wanted : ℤ}
    (h : 0 ≤ wanted) :
    b ∈ (pour available wanted bs).1.map (·.1) ↔ 0 < share available wanted b bs := by
  rw [← givenBy_pour hnodup hb h]
  constructor
  · intro hmem
    obtain ⟨e, he, rfl⟩ := List.mem_map.mp hmem
    refine lt_of_lt_of_le (pour_le he).1 (List.single_le_sum ?_ _ ?_)
    · intro x hx
      obtain ⟨e', he', rfl⟩ := List.mem_map.mp hx
      exact (pour_le (List.mem_of_mem_filter he')).1.le
    · exact List.mem_map_of_mem (List.mem_filter.mpr ⟨he, decide_eq_true rfl⟩)
  · intro hpos
    by_contra hnot
    rw [givenBy_eq_zero hnot] at hpos
    exact lt_irrefl 0 hpos

/-- Only what the bins have counts. -/
theorem share_congr {available' : β → ℤ} {bs : List β} (h : ∀ c ∈ bs, available c = available' c)
    {b : β} (hb : b ∈ bs) (wanted : ℤ) :
    share available wanted b bs = share available' wanted b bs := by
  have hbefore : before available b bs = before available' b bs := by
    refine congrArg List.sum (List.map_congr_left fun c hc => ?_)
    rw [h c (List.takeWhile_subset _ hc)]
  rw [share, share, hbefore, h b hb]

/-- What the bins give altogether. -/
theorem sum_share {bs : List β} (hnodup : bs.Nodup) {wanted : ℤ} (h : 0 ≤ wanted) :
    (bs.map fun c => share available wanted c bs).sum = min wanted (held available bs) := by
  have hgiven : (bs.map fun c => share available wanted c bs)
      = bs.map fun c => givenBy c (pour available wanted bs).1 :=
    List.map_congr_left fun c hc => (givenBy_pour hnodup hc h).symm
  have hall : ∀ e ∈ (pour available wanted bs).1, decide (e.1 ∈ bs) = true := fun e he =>
    decide_eq_true ((pour_sublist wanted bs).subset (List.mem_map_of_mem he))
  have hkeys : (bs.map fun c => givenBy c (pour available wanted bs).1).sum
      = sumIf (fun e => decide (e.1 ∈ bs)) (·.2) (pour available wanted bs).1 :=
    sum_sumIf_key _ _ hnodup _
  have hsum : ((pour available wanted bs).1.map (·.2)).sum + (pour available wanted bs).2
      = wanted := sum_pour wanted bs
  rw [pour_snd h] at hsum
  rw [hgiven, hkeys, sumIf_of_forall hall, held]
  omega

/-- What all bins have once some demand has been met. -/
theorem held_rest {bs : List β} (hnodup : bs.Nodup) {wanted : ℤ} (h : 0 ≤ wanted) :
    held (fun c => available c - share available wanted c bs) bs
      = held available bs - min wanted (held available bs) := by
  rw [held, sum_max_sub_share, sum_share hnodup h]
  rfl

theorem before_add_le_held {bs : List β} {b : β} (hb : b ∈ bs) :
    before available b bs + max (available b) 0 ≤ held available bs := by
  induction bs with
  | nil => cases hb
  | cons d bs ih =>
    have hheld : held available (d :: bs) = max (available d) 0 + held available bs := by
      rw [held, List.map_cons, List.sum_cons, held]
    have hnonneg : 0 ≤ held available bs := sum_max_nonneg bs
    by_cases hdb : d = b
    · subst hdb
      rw [before_self, hheld]
      omega
    · have hrest := ih ((List.mem_cons.mp hb).resolve_left (Ne.symm hdb))
      rw [before_cons hdb, hheld]
      omega

/-- A demand for all there is takes all. -/
theorem share_of_held_le {bs : List β} {b : β} (hb : b ∈ bs) {wanted : ℤ}
    (h : held available bs ≤ wanted) : share available wanted b bs = max (available b) 0 := by
  have hle : before available b bs + max (available b) 0 ≤ held available bs :=
    before_add_le_held hb
  rw [share]
  omega

end Share

end Greedy

end Aixinwu

import Aixinwu.Lib.Json

/-!
# Truncated texts

`JsonTruncText.truncate` cuts a text down to a number of octets, as it is written in JSON. It takes
as many characters as the limit has octets, and then looks only at those that have to be escaped: at
the first that no longer fits, or just fits, it cuts.

So the plain characters after the last escaped one are never counted.
**`byteSize_truncate_le_iff`**: the result keeps to the limit unless the limit falls between two
plain characters and some character before them is escaped. A text without escaped characters, and
one that fits, is never too long.

## Main definitions

* `JsonTruncText`, `JsonTruncText.truncate`
* `CutsPlain`
* `JsonTruncText.TruncatesRight` — what truncating a text is to do

## Main results

* `escapedLength_truncate` — `byteSize` is the size in JSON
* `byteSize_truncate_le_iff`
* `truncatesRight_iff`
-/

namespace Aixinwu

namespace Observability

open Json

/-- `JsonTruncText`. -/
structure JsonTruncText where
  text : List ℕ
  truncated : Bool
  addedBytes : ℕ
deriving DecidableEq, Repr

namespace JsonTruncText

/-- `JsonTruncText.byte_size`. -/
def byteSize (t : JsonTruncText) : ℕ := t.text.length + t.addedBytes

theorem byteSize_mk (text : List ℕ) (truncated : Bool) (addedBytes : ℕ) :
    byteSize ⟨text, truncated, addedBytes⟩ = text.length + addedBytes :=
  rfl

/-- `JsonTruncText.json_char_len`, which is asked for characters that match `ESCAPE_ASCII` only. -/
def jsonCharLen (c : ℕ) : ℕ :=
  if (shortEscape c).isSome then 2 else if c < 32 then 6 else if c < 0x10000 then 6 else 12

/-- The loop of `truncate` over the matches of `ESCAPE_ASCII` in `s`: what is left of `s`, and the
position and `added_bytes` before it. -/
def truncateLoop (s : List ℕ) (limit sInitLen : ℕ) : List ℕ → ℕ → ℕ → JsonTruncText
  | [], _, addedBytes => ⟨s, s.length < sInitLen, addedBytes⟩
  | c :: rest, start, addedBytes =>
    if needsEscape c then
      let markup := jsonCharLen c - 1
      if limit < start + 1 + (addedBytes + markup) then ⟨s.take start, true, addedBytes⟩
      else if start + 1 + (addedBytes + markup) = limit then
        ⟨s.take (start + 1), (s.take (start + 1)).length < sInitLen, addedBytes + markup⟩
      else truncateLoop s limit sInitLen rest (start + 1) (addedBytes + markup)
    else truncateLoop s limit sInitLen rest (start + 1) addedBytes

/-- `JsonTruncText.truncate`. -/
def truncate (s : List ℕ) (limit : ℤ) : JsonTruncText :=
  truncateLoop (s.take limit.toNat) limit.toNat s.length (s.take limit.toNat) 0 0

end JsonTruncText

/-- The limit falls between two plain characters, and some character before is escaped. -/
def CutsPlain (s : List ℕ) (limit : ℕ) : Prop :=
  ∃ before a b after, s = before ++ a :: b :: after ∧ escapedLength (before ++ [a]) = limit ∧
    needsEscape a = false ∧ needsEscape b = false ∧ ∃ c ∈ before, needsEscape c = true

namespace JsonTruncText

theorem jsonCharLen_eq {c : ℕ} (h : needsEscape c = true) : jsonCharLen c = charLen c := by
  rw [jsonCharLen, charLen_of_needsEscape h]
  split
  · rfl
  · split
    · rename_i hlt
      exact (if_pos (by omega)).symm
    · rfl

/-! ### Sizes -/

section Sizes

variable {s : List ℕ} {limit sInitLen : ℕ}

theorem escapedLength_concat (p : List ℕ) (c : ℕ) :
    escapedLength (p ++ [c]) = escapedLength p + charLen c := by
  rw [escapedLength_append, escapedLength_cons, escapedLength_nil, Nat.add_zero]

/-- The accounts after a character that is escaped. -/
theorem escapedLength_concat_of_needsEscape {p : List ℕ} {c addedBytes : ℕ}
    (hescape : needsEscape c = true) (hp : escapedLength p = p.length + addedBytes) :
    escapedLength (p ++ [c]) = (p ++ [c]).length + (addedBytes + (jsonCharLen c - 1)) := by
  have hlen := one_lt_charLen hescape
  rw [escapedLength_concat, List.length_append, List.length_singleton, jsonCharLen_eq hescape]
  omega

/-- The octets that have been added are those of the text. -/
theorem escapedLength_truncateLoop : ∀ {rest p : List ℕ} {addedBytes : ℕ}, s = p ++ rest →
    escapedLength p = p.length + addedBytes →
    escapedLength (truncateLoop s limit sInitLen rest p.length addedBytes).text
      = (truncateLoop s limit sInitLen rest p.length addedBytes).byteSize
  | [], p, addedBytes, hs, hp => by
    rw [List.append_nil] at hs
    subst hs
    exact hp
  | c :: rest, p, addedBytes, hs, hp => by
    have hnext : (p ++ [c]).length = p.length + 1 := by
      rw [List.length_append, List.length_singleton]
    have hs' : s = (p ++ [c]) ++ rest := by
      rw [hs, List.append_assoc]
      rfl
    have htake : s.take (p.length + 1) = p ++ [c] := by
      rw [hs', ← hnext, List.take_left]
    have hsize := escapedLength_concat p c
    rw [truncateLoop]
    split
    · rename_i hescape
      have hp' := escapedLength_concat_of_needsEscape hescape hp
      dsimp only
      split
      · rw [byteSize, hs, List.take_left]
        exact hp
      · split
        · rw [byteSize, htake]
          exact hp'
        · have ih := escapedLength_truncateLoop hs' hp'
          rwa [hnext] at ih
    · rename_i hplain
      have hp' : escapedLength (p ++ [c]) = (p ++ [c]).length + addedBytes := by
        rw [hsize, hnext, charLen_of_not_needsEscape (by simpa using hplain)]
        omega
      have ih := escapedLength_truncateLoop hs' hp'
      rwa [hnext] at ih

end Sizes

/-- **`byte_size` is the size of the text in JSON.** -/
theorem escapedLength_truncate (s : List ℕ) (limit : ℤ) :
    escapedLength (truncate s limit).text = (truncate s limit).byteSize :=
  escapedLength_truncateLoop (p := []) rfl rfl

/-! ### The limit -/

/-- Two first parts of a text, and the second ends within the next character after the first. -/
theorem eq_of_escapedLength_lt {p q r r' : List ℕ} {c : ℕ} (h : p ++ c :: r = q ++ r')
    (hle : escapedLength p ≤ escapedLength q)
    (hlt : escapedLength q < escapedLength p + charLen c) : p = q := by
  rcases List.append_eq_append_iff.mp h with ⟨t, rfl, ht⟩ | ⟨t, rfl, -⟩
  · cases t with
    | nil => exact (List.append_nil p).symm
    | cons x t =>
      obtain ⟨rfl, -⟩ := List.cons.inj ht
      rw [escapedLength_append, escapedLength_cons] at hlt
      omega
  · rw [escapedLength_append] at hle
    have ht := length_le_escapedLength t
    obtain rfl := List.length_eq_zero_iff.mp (show t.length = 0 by omega)
    exact List.append_nil q

theorem eq_of_escapedLength_eq {p q r r' : List ℕ} (h : p ++ r = q ++ r')
    (heq : escapedLength p = escapedLength q) : p = q := by
  rcases List.append_eq_append_iff.mp h with ⟨t, rfl, -⟩ | ⟨t, rfl, -⟩
  · rw [escapedLength_append] at heq
    have ht := length_le_escapedLength t
    obtain rfl := List.length_eq_zero_iff.mp (show t.length = 0 by omega)
    exact (List.append_nil p).symm
  · rw [escapedLength_append] at heq
    have ht := length_le_escapedLength t
    obtain rfl := List.length_eq_zero_iff.mp (show t.length = 0 by omega)
    exact List.append_nil q

theorem length_lt_escapedLength {text : List ℕ} (h : ∃ c ∈ text, needsEscape c = true) :
    text.length < escapedLength text := by
  obtain ⟨c, hc, hescape⟩ := h
  obtain ⟨before, after, rfl⟩ := List.append_of_mem hc
  have hbefore := length_le_escapedLength before
  have hafter := length_le_escapedLength after
  have hc' := one_lt_charLen hescape
  rw [escapedLength_append, escapedLength_cons, List.length_append, List.length_cons]
  omega

section Limit

variable {full s : List ℕ} {limit : ℕ}

/-- Once the limit is exceeded it stays so. -/
theorem lt_byteSize_truncateLoop : ∀ {rest p : List ℕ} {addedBytes : ℕ}, s = p ++ rest →
    escapedLength p = p.length + addedBytes → limit < escapedLength p →
    limit < (truncateLoop s limit full.length rest p.length addedBytes).byteSize
  | [], p, addedBytes, hs, hp, hlt => by
    rw [List.append_nil] at hs
    subst hs
    rwa [hp] at hlt
  | c :: rest, p, addedBytes, hs, hp, hlt => by
    have hnext : (p ++ [c]).length = p.length + 1 := by
      rw [List.length_append, List.length_singleton]
    have hs' : s = (p ++ [c]) ++ rest := by
      rw [hs, List.append_assoc]
      rfl
    rw [truncateLoop]
    split
    · dsimp only
      rw [if_pos (by omega), byteSize_mk, hs, List.take_left]
      omega
    · rename_i hplain
      have hsize : escapedLength (p ++ [c]) = escapedLength p + 1 := by
        rw [escapedLength_append, escapedLength_cons, escapedLength_nil,
          charLen_of_not_needsEscape (by simpa using hplain)]
      have hp' : escapedLength (p ++ [c]) = (p ++ [c]).length + addedBytes := by omega
      have ih := lt_byteSize_truncateLoop hs' hp' (by omega)
      rwa [hnext] at ih

/-- The loop, from a first part that keeps to the limit. The first part does not end in an escaped
character that reaches it. -/
theorem byteSize_truncateLoop_le_iff (hs : s = full.take limit) :
    ∀ {rest p : List ℕ} {addedBytes : ℕ}, s = p ++ rest →
      escapedLength p = p.length + addedBytes → escapedLength p ≤ limit →
      (∀ before a, p = before ++ [a] → needsEscape a = true → escapedLength p < limit) →
      ((truncateLoop s limit full.length rest p.length addedBytes).byteSize ≤ limit ↔
        ¬ CutsPlain full limit)
  | [], p, addedBytes, hrest, hp, hle, _ => by
    rw [List.append_nil] at hrest
    subst hrest
    have hsize : (truncateLoop s limit full.length [] s.length addedBytes).byteSize ≤ limit := by
      rw [truncateLoop, byteSize_mk]
      omega
    refine iff_of_true hsize ?_
    rintro ⟨before, a, b, after, hfull, hlimit, ha, hb, c, hc, hescape⟩
    -- with the next plain character the text is still within the first characters
    have hlt := length_lt_escapedLength ⟨c, List.mem_append_left [a] hc, hescape⟩
    have hprefix : before ++ [a] ++ [b] <+: s := by
      rw [hs, List.prefix_take_iff]
      refine ⟨⟨after, by rw [hfull]; simp⟩, ?_⟩
      rw [List.length_append, List.length_singleton]
      omega
    obtain ⟨t, ht⟩ := hprefix
    rw [← ht, escapedLength_append, escapedLength_append, hlimit, escapedLength_cons,
      charLen_of_not_needsEscape hb] at hle
    omega
  | c :: rest, p, addedBytes, hrest, hp, hle, hlast => by
    have hnext : (p ++ [c]).length = p.length + 1 := by
      rw [List.length_append, List.length_singleton]
    have hrest' : s = (p ++ [c]) ++ rest := by
      rw [hrest, List.append_assoc]
      rfl
    have hsize := escapedLength_concat p c
    obtain ⟨tail, htail⟩ : ∃ tail, full = p ++ c :: (rest ++ tail) := by
      have hfull := List.take_append_drop limit full
      rw [← hs, hrest, List.append_assoc] at hfull
      exact ⟨full.drop limit, hfull.symm⟩
    rw [truncateLoop]
    split
    · rename_i hescape
      have hlen := one_lt_charLen hescape
      have hp' := escapedLength_concat_of_needsEscape hescape hp
      dsimp only
      split
      · -- the escaped character no longer fits
        rename_i hover
        refine iff_of_true (by rw [byteSize_mk, hrest, List.take_left]; omega) ?_
        rintro ⟨before, a, b, after, hfull, hlimit, ha, hb, -⟩
        have hsame : p ++ c :: (rest ++ tail) = (before ++ [a]) ++ b :: after := by
          rw [← htail, hfull]
          simp
        have heq := eq_of_escapedLength_lt hsame (by omega) (by omega)
        rw [heq] at hsame
        obtain ⟨rfl, -⟩ := List.cons.inj (List.append_cancel_left hsame)
        rw [hescape] at hb
        cases hb
      · split
        · -- it just fits
          rename_i hfits
          have htake : s.take (p.length + 1) = p ++ [c] := by
            rw [hrest', ← hnext, List.take_left]
          refine iff_of_true (by rw [byteSize_mk, htake]; omega) ?_
          rintro ⟨before, a, b, after, hfull, hlimit, ha, hb, -⟩
          have hsame : (p ++ [c]) ++ (rest ++ tail) = (before ++ [a]) ++ b :: after := by
            rw [List.append_assoc, List.singleton_append, ← htail, hfull]
            simp
          have heq := eq_of_escapedLength_eq hsame (by omega)
          obtain ⟨-, hca⟩ := List.append_inj' heq rfl
          obtain rfl := List.singleton_inj.mp hca
          rw [hescape] at ha
          cases ha
        · have ih := byteSize_truncateLoop_le_iff hs hrest' hp' (by omega) fun _ _ _ _ => by omega
          rwa [hnext] at ih
    · rename_i hplain
      have hplain' : needsEscape c = false := by simpa using hplain
      rw [charLen_of_not_needsEscape hplain'] at hsize
      have hp' : escapedLength (p ++ [c]) = (p ++ [c]).length + addedBytes := by omega
      by_cases hfits : escapedLength p + 1 ≤ limit
      · have ih := byteSize_truncateLoop_le_iff hs hrest' hp' (by omega) fun before a heq ha => by
          obtain ⟨-, hca⟩ := List.append_inj' heq rfl
          obtain rfl := List.singleton_inj.mp hca
          rw [hplain'] at ha
          cases ha
        rwa [hnext] at ih
      · -- the limit is just here
        have hover : limit < (truncateLoop s limit full.length rest (p ++ [c]).length
            addedBytes).byteSize := lt_byteSize_truncateLoop hrest' hp' (by omega)
        rw [hnext] at hover
        refine iff_of_false (by omega) (not_not_intro ?_)
        have hshort : p.length + 1 ≤ limit := by
          have hlength : s.length ≤ limit := by
            rw [hs]
            exact List.length_take_le limit full
          rw [hrest', List.length_append, hnext] at hlength
          omega
        have hsome : ∃ c' ∈ p, needsEscape c' = true := by
          by_contra hnone
          have hall : ∀ c' ∈ p, needsEscape c' = false := fun c' hc' => by
            simpa using fun h => hnone ⟨c', hc', h⟩
          have hlength := escapedLength_of_plain hall
          omega
        rcases List.eq_nil_or_concat p with rfl | ⟨before, a, hpa⟩
        · obtain ⟨c', hc', -⟩ := hsome
          cases hc'
        · have ha : needsEscape a = false := by
            cases hescape : needsEscape a with
            | false => rfl
            | true => exact absurd (hlast before a (by simpa using hpa) hescape) (by omega)
          subst hpa
          obtain ⟨c', hc', hescape⟩ := hsome
          rw [List.concat_eq_append, List.mem_append, List.mem_singleton] at hc'
          refine ⟨before, a, c, rest ++ tail, by rw [htail]; simp, ?_, ha, hplain', c', ?_, hescape⟩
          · rw [← List.concat_eq_append]
            omega
          · rcases hc' with hc' | rfl
            · exact hc'
            · rw [ha] at hescape
              cases hescape

end Limit

/-- **The result keeps to the limit** unless the limit falls between two plain characters after an
escaped one. -/
theorem byteSize_truncate_le_iff (s : List ℕ) (limit : ℤ) :
    (truncate s limit).byteSize ≤ limit.toNat ↔ ¬ CutsPlain s limit.toNat := by
  refine byteSize_truncateLoop_le_iff rfl (p := []) rfl rfl (Nat.zero_le _) fun before a h _ => ?_
  exact absurd h (by simp)

/-! ### The longest part that fits -/

/-- A longer first part of a text is longer in JSON. -/
theorem escapedLength_lt_of_prefix {p q : List ℕ} (h : p <+: q) (hlt : p.length < q.length) :
    escapedLength p < escapedLength q := by
  obtain ⟨t, rfl⟩ := h
  rw [List.length_append] at hlt
  rw [escapedLength_append]
  have ht := length_le_escapedLength t
  omega

/-- What a result is besides keeping to the limit: a first part of the text that says whether it is
all of it, and where it keeps to the limit the longest that does. -/
structure CutRight (full : List ℕ) (limit : ℕ) (t : JsonTruncText) : Prop where
  isPrefix : t.text <+: full
  truncated : t.truncated = true ↔ t.text ≠ full
  longest : t.byteSize ≤ limit → ∀ q, q <+: full → t.text.length < q.length → limit < escapedLength q

section Longest

variable {full s : List ℕ} {limit : ℕ}

/-- A first part says rightly that it is shorter. -/
theorem truncated_iff {p : List ℕ} (h : p <+: full) :
    decide (p.length < full.length) = true ↔ p ≠ full := by
  rw [decide_eq_true_iff]
  refine ⟨fun hlt heq => ?_, fun hne => ?_⟩
  · rw [heq] at hlt
    exact lt_irrefl _ hlt
  · exact lt_of_le_of_ne h.length_le fun heq => hne (h.eq_of_length heq)

theorem cutRight_truncateLoop (hs : s = full.take limit) :
    ∀ {rest p : List ℕ} {addedBytes : ℕ}, s = p ++ rest →
      escapedLength p = p.length + addedBytes →
      CutRight full limit (truncateLoop s limit full.length rest p.length addedBytes)
  | [], p, addedBytes, hrest, hp => by
    rw [truncateLoop, hs]
    have hstart : full.take limit <+: full := List.take_prefix limit full
    refine ⟨hstart, truncated_iff hstart, fun _ q hq hlonger => ?_⟩
    -- a longer part has more characters than the limit has octets
    dsimp only at hlonger
    rw [List.length_take] at hlonger
    have hlength := hq.length_le
    have hoctets := length_le_escapedLength q
    omega
  | c :: rest, p, addedBytes, hrest, hp => by
    have hnext : (p ++ [c]).length = p.length + 1 := by
      rw [List.length_append, List.length_singleton]
    have hrest' : s = (p ++ [c]) ++ rest := by
      rw [hrest, List.append_assoc]
      rfl
    have hfull : p ++ [c] <+: full := by
      have hpart : p ++ [c] <+: s := ⟨rest, hrest'.symm⟩
      exact hpart.trans (hs ▸ List.take_prefix limit full)
    rw [truncateLoop]
    split
    · rename_i hescape
      have hp' := escapedLength_concat_of_needsEscape hescape hp
      dsimp only
      split
      · -- the escaped character no longer fits
        rename_i hover
        have htake : s.take p.length = p := by rw [hrest, List.take_left]
        rw [htake]
        have hstart : p <+: full := (List.prefix_append p [c]).trans hfull
        refine ⟨hstart, iff_of_true rfl fun heq => ?_, fun _ q hq hlonger => ?_⟩
        · have hlength := hfull.length_le
          rw [hnext, ← heq] at hlength
          exact Nat.not_succ_le_self _ hlength
        · have hcut : p ++ [c] <+: q :=
            List.prefix_of_prefix_length_le hfull hq (by rw [hnext]; exact hlonger)
          have hle : escapedLength (p ++ [c]) ≤ escapedLength q := by
            obtain ⟨t, rfl⟩ := hcut
            rw [escapedLength_append (p ++ [c])]
            exact Nat.le_add_right _ _
          omega
      · split
        · -- it just fits
          rename_i hfits
          have htake : s.take (p.length + 1) = p ++ [c] := by
            rw [hrest', ← hnext, List.take_left]
          rw [htake]
          refine ⟨hfull, truncated_iff hfull, fun _ q hq hlonger => ?_⟩
          have hlt := escapedLength_lt_of_prefix
            (List.prefix_of_prefix_length_le hfull hq hlonger.le) hlonger
          omega
        · have ih := cutRight_truncateLoop hs hrest' hp'
          rwa [hnext] at ih
    · rename_i hplain
      have hp' : escapedLength (p ++ [c]) = (p ++ [c]).length + addedBytes := by
        rw [escapedLength_concat, hnext, charLen_of_not_needsEscape (by simpa using hplain)]
        omega
      have ih := cutRight_truncateLoop hs hrest' hp'
      rwa [hnext] at ih

end Longest

/-- **Truncating a text** gives the longest first part of it that fits, with its size in JSON, and
says whether it is all of the text. -/
structure TruncatesRight (s : List ℕ) (limit : ℤ) : Prop where
  isPrefix : (truncate s limit).text <+: s
  byteSize_eq : (truncate s limit).byteSize = escapedLength (truncate s limit).text
  fits : ((truncate s limit).byteSize : ℤ) ≤ max limit 0
  truncated : (truncate s limit).truncated = true ↔ (truncate s limit).text ≠ s
  longest : ∀ q, q <+: s → (truncate s limit).text.length < q.length →
    max limit 0 < (escapedLength q : ℤ)

/-- It does so unless the limit falls between two plain characters after an escaped one. -/
theorem truncatesRight_iff (s : List ℕ) (limit : ℤ) :
    TruncatesRight s limit ↔ ¬ CutsPlain s limit.toNat := by
  have hcut : CutRight s limit.toNat (truncate s limit) := cutRight_truncateLoop rfl (p := []) rfl rfl
  have hmax : max limit 0 = (limit.toNat : ℤ) := (Int.toNat_eq_max limit).symm
  rw [← byteSize_truncate_le_iff]
  constructor
  · intro h
    have hfits := h.fits
    rw [hmax] at hfits
    exact Int.ofNat_le.mp hfits
  · intro hfits
    refine ⟨hcut.isPrefix, (escapedLength_truncate s limit).symm, ?_, hcut.truncated,
      fun q hq hlonger => ?_⟩
    · rw [hmax]
      exact Int.ofNat_le.mpr hfits
    · rw [hmax]
      exact Int.ofNat_lt.mpr (hcut.longest hfits q hq hlonger)

/-- The text `"` and two plain characters takes more than 3 octets, cut to 3. -/
theorem not_truncatesRight_quote : ¬ ∀ s limit, TruncatesRight s limit := by
  intro h
  have hfits := (h [34, 97, 98] 3).fits
  revert hfits
  decide

end JsonTruncText

end Observability

end Aixinwu

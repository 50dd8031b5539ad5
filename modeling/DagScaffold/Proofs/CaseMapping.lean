import Mathlib
import DagScaffold.Text.Blank
import DagScaffold.Text.Case

/-!
# Texts in lower case stay as they are

The tables of the case mappings are checked once, run against run; all that is said of the mappings
of a text follows from that check.

* `IsLower` : the characters that have no other lower case form;
* `isLower_of_mem_toLower`, `toLower_eq_self` : the mapping to lower case gives such characters, and
  leaves a text of them as it is;
* `eq_of_mem_upperChar` : a character that stands in no upper case form but its own;
* `all_isBlank_take_lowerFrom` : blanks and the mapping to lower case.
-/

namespace DagScaffold.Text

/-! ## Runs that keep apart -/

/-- Whether the second run covers no image of the first one: its code points lie before or after the
images, or they have the other parity. -/
def CaseRun.avoids (r q : CaseRun) : Bool :=
  Nat.blt q.last r.target || Nat.blt (r.target + (r.last - r.first)) q.first ||
    ((r.stride == 2 || r.first == r.last) && q.stride == 2 && r.target % 2 != q.first % 2)

theorem CaseRun.not_covers_image {r q : CaseRun} {n : Nat} (h : r.avoids q = true)
    (hn : r.covers n = true) : q.covers (r.image n) = false := by
  simp only [covers, Bool.and_eq_true, decide_eq_true_eq] at hn
  obtain ⟨⟨hfirst, hlast⟩, hstride⟩ := hn
  simp only [avoids, Nat.blt_eq, Bool.or_eq_true, Bool.and_eq_true, beq_iff_eq, bne_iff_ne] at h
  rw [Bool.eq_false_iff]
  intro hq
  simp only [covers, Bool.and_eq_true, decide_eq_true_eq] at hq
  obtain ⟨⟨hqfirst, hqlast⟩, hqstride⟩ := hq
  unfold image at hqfirst hqlast hqstride
  rcases h with (hbefore | hafter) | ⟨⟨hr, hq2⟩, hparity⟩
  · omega
  · omega
  · rw [hq2] at hqstride
    rcases hr with hr | hr
    · rw [hr] at hstride
      omega
    · omega

/-- A code point that no run covers stays. -/
theorem moveBy_eq_self {runs : List CaseRun} {n : Nat} (h : ∀ q ∈ runs, q.covers n = false) :
    moveBy runs n = n := by
  have hnone : runs.find? (·.covers n) = none := by
    rw [List.find?_eq_none]
    intro q hq
    simp [h q hq]
  rw [moveBy, hnone]

/-- A code point stays, or a run that covers it moves it. -/
theorem moveBy_eq_self_or_image (runs : List CaseRun) (n : Nat) :
    moveBy runs n = n ∨ ∃ r ∈ runs, r.covers n = true ∧ moveBy runs n = r.image n := by
  unfold moveBy
  cases hfind : runs.find? (·.covers n) with
  | none => exact Or.inl rfl
  | some r =>
      have hcovers := List.find?_some hfind
      exact Or.inr ⟨r, List.mem_of_find?_eq_some hfind, hcovers, rfl⟩

/-- No run moves a code point to `m` when all keep apart from the run of `m` alone. -/
theorem eq_of_moveBy_eq {runs : List CaseRun} {m n : Nat}
    (h : runs.all (·.avoids ⟨m, m, 2, m⟩) = true) (hm : moveBy runs n = m) : n = m := by
  rcases moveBy_eq_self_or_image runs n with hself | ⟨r, hr, hcovers, himage⟩
  · rw [← hself, hm]
  · have hapart := CaseRun.not_covers_image (List.all_eq_true.mp h r hr) hcovers
    rw [← himage, hm] at hapart
    simp [CaseRun.covers] at hapart

/-- No run to lower case covers an image of another one. -/
theorem lowerRuns_avoid : (lowerRuns.all fun r => lowerRuns.all r.avoids) = true := by
  decide +kernel

/-- A number that was moved to its small letter stays where it is. -/
theorem moveBy_lowerRuns_moveBy (n : Nat) :
    moveBy lowerRuns (moveBy lowerRuns n) = moveBy lowerRuns n := by
  rcases moveBy_eq_self_or_image lowerRuns n with hself | ⟨r, hr, hcovers, himage⟩
  · rw [hself, hself]
  · rw [himage]
    refine moveBy_eq_self fun q hq => CaseRun.not_covers_image ?_ hcovers
    exact List.all_eq_true.mp (List.all_eq_true.mp lowerRuns_avoid r hr) q hq

/-! ## Lower case -/

/-- Whether a character is its own lower case form in every place. -/
def IsLower (c : Char) : Prop :=
  c ≠ 'Σ' ∧ lowerChar c = [c]

/-- The lower case form of a character consists of such characters. -/
theorem isLower_of_mem_lowerChar {c d : Char} (h : d ∈ lowerChar c) : IsLower d := by
  unfold lowerChar at h
  split_ifs at h with hdot
  · -- the dotted capital has a letter and a mark as its form
    rcases List.mem_pair.mp h with rfl | rfl
    · exact ⟨by decide, by decide +kernel⟩
    · exact ⟨by decide, by decide +kernel⟩
  · have hd : d.toNat = moveBy lowerRuns c.toNat ∨ d.toNat = 0 := by
      rw [List.mem_singleton.mp h, Char.toNat_ofNat]
      split_ifs
      · exact Or.inl rfl
      · exact Or.inr rfl
    have hfixed : moveBy lowerRuns d.toNat = d.toNat := by
      rcases hd with hd | hd
      · rw [hd, moveBy_lowerRuns_moveBy]
      · rw [hd]
        decide +kernel
    -- the dotted capital was the case before, and no run leads to it
    have hundotted : d ≠ 'İ' := by
      rintro rfl
      rcases hd with hd | hd
      · have hc : c.toNat = 'İ'.toNat := eq_of_moveBy_eq (by decide +kernel) hd.symm
        exact hdot (Char.toNat_inj.mp hc)
      · exact absurd hd (by decide)
    refine ⟨?_, ?_⟩
    · rintro rfl
      exact absurd hfixed (by decide +kernel)
    · rw [lowerChar, if_neg hundotted, hfixed, Char.ofNat_toNat]

/-- The characters of a lowercased text are small ones. -/
theorem isLower_of_mem_lowerFrom {before cs : List Char} {d : Char}
    (h : d ∈ lowerFrom before cs) : IsLower d := by
  induction cs generalizing before with
  | nil => simp [lowerFrom] at h
  | cons c cs ih =>
      rw [lowerFrom, List.mem_append] at h
      rcases h with h | h
      · split_ifs at h
        · rw [List.mem_singleton.mp h]
          exact ⟨by decide, by decide +kernel⟩
        · rw [List.mem_singleton.mp h]
          exact ⟨by decide, by decide +kernel⟩
        · exact isLower_of_mem_lowerChar h
      · exact ih h

theorem isLower_of_mem_toLower {s : String} {c : Char} (h : c ∈ (toLower s).toList) :
    IsLower c := by
  rw [toLower, String.toList_ofList] at h
  exact isLower_of_mem_lowerFrom h

/-- A text of small characters is its own lowercased form. -/
theorem lowerFrom_eq_self (before : List Char) {cs : List Char} (h : ∀ c ∈ cs, IsLower c) :
    lowerFrom before cs = cs := by
  induction cs generalizing before with
  | nil => rfl
  | cons c cs ih =>
      obtain ⟨⟨hsigma, hlower⟩, hrest⟩ := List.forall_mem_cons.mp h
      rw [lowerFrom, if_neg hsigma, hlower, ih (c :: before) hrest]
      rfl

/-- A text of lower case letters and of characters without case stays as it is. -/
theorem toLower_eq_self {s : String} (h : ∀ c ∈ s.toList, IsLower c) : toLower s = s := by
  rw [toLower, lowerFrom_eq_self [] h, String.ofList_toList]

/-- A small character is no capital letter. -/
theorem isUpper_eq_false_of_isLower {c : Char} (h : IsLower c) : c.isUpper = false := by
  have hcapitals : ∀ n < 26, lowerChar (Char.ofNat (65 + n)) ≠ [Char.ofNat (65 + n)] := by
    decide +kernel
  by_contra hupper
  rw [Bool.not_eq_false, Char.isUpper, decide_eq_true_eq] at hupper
  have hrange : 65 ≤ c.toNat ∧ c.toNat ≤ 90 := hupper
  have hc : Char.ofNat (65 + (c.toNat - 65)) = c := by
    rw [Nat.add_sub_cancel' hrange.1, Char.ofNat_toNat]
  refine hcapitals (c.toNat - 65) (by omega) ?_
  rw [hc]
  exact h.2

/-- No character is lost in lower case. -/
theorem length_le_length_lowerFrom (before cs : List Char) :
    cs.length ≤ (lowerFrom before cs).length := by
  induction cs generalizing before with
  | nil => simp
  | cons c cs ih =>
      have hrest := ih (c :: before)
      rw [lowerFrom, List.length_append, List.length_cons]
      split_ifs
      · simp only [List.length_singleton]
        omega
      · simp only [List.length_singleton]
        omega
      · unfold lowerChar
        split_ifs
        · simp only [List.length_cons, List.length_nil]
          omega
        · simp only [List.length_singleton]
          omega

/-- Only the empty text is empty once it is lowercased. -/
theorem eq_nil_of_toLower {s : String} (h : (toLower s).toList = []) : s.toList = [] := by
  rw [toLower, String.toList_ofList] at h
  have hlength := length_le_length_lowerFrom [] s.toList
  rw [h] at hlength
  exact List.eq_nil_of_length_eq_zero (Nat.le_zero.mp hlength)

/-! ## Upper case -/

/-- Whether the code point `n` stands in the upper case form of no other character. -/
def isOwnUpper (n : Nat) : Bool :=
  n != 0 && upperRuns.all (·.avoids ⟨n, n, 2, n⟩) &&
    upperSequences.all fun entry => !entry.2.contains n

theorem eq_of_mem_upperChar {c d : Char} (hown : isOwnUpper d.toNat = true)
    (h : d ∈ upperChar c) : c = d := by
  simp only [isOwnUpper, Bool.and_eq_true, bne_iff_ne] at hown
  obtain ⟨⟨hzero, hruns⟩, hsequences⟩ := hown
  have hnumber : ∀ n, d = Char.ofNat n → d.toNat = n := by
    intro n hn
    have hd := congrArg Char.toNat hn
    rw [Char.toNat_ofNat] at hd
    split_ifs at hd
    · exact hd
    · exact absurd hd hzero
  unfold upperChar at h
  cases hfind : upperSequences.find? (·.1 == c.toNat) with
  | some entry =>
      rw [hfind] at h
      obtain ⟨n, hn, hd⟩ := List.mem_map.mp h
      have hentry := List.all_eq_true.mp hsequences entry (List.mem_of_find?_eq_some hfind)
      rw [← hnumber n hd.symm] at hn
      simp [hn] at hentry
  | none =>
      rw [hfind] at h
      have hd := hnumber _ (List.mem_singleton.mp h)
      exact Char.toNat_inj.mp (eq_of_moveBy_eq hruns hd.symm)

/-! ## Blank characters -/

/-- The code points of the blank characters. -/
def blankNumbers : List Nat :=
  [0x9, 0xa, 0xb, 0xc, 0xd, 0x20, 0x85, 0xa0, 0x1680, 0x2000, 0x2001, 0x2002, 0x2003, 0x2004,
    0x2005, 0x2006, 0x2007, 0x2008, 0x2009, 0x200a, 0x2028, 0x2029, 0x202f, 0x205f, 0x3000]

theorem isBlank_iff_mem (c : Char) : isBlank c = true ↔ c.toNat ∈ blankNumbers := by
  simp only [isBlank, blankNumbers, Bool.or_eq_true, Bool.and_eq_true, beq_iff_eq,
    decide_eq_true_eq, List.mem_cons, List.not_mem_nil, or_false]
  omega

/-- Blank characters have no case, and no character with case has a blank one as its lower case
form. -/
theorem lowerRuns_avoid_blankNumbers :
    (blankNumbers.all fun n => n != 0 && moveBy lowerRuns n == n &&
      lowerRuns.all (·.avoids ⟨n, n, 2, n⟩)) = true := by
  decide +kernel

theorem lowerChar_of_isBlank {c : Char} (h : isBlank c = true) : lowerChar c = [c] := by
  have hn := List.all_eq_true.mp lowerRuns_avoid_blankNumbers c.toNat ((isBlank_iff_mem c).mp h)
  simp only [Bool.and_eq_true, beq_iff_eq] at hn
  have hdotted : c ≠ 'İ' := by
    rintro rfl
    exact absurd h (by decide)
  rw [lowerChar, if_neg hdotted, hn.1.2, Char.ofNat_toNat]

/-- A character that is not blank has a lower case form that does not open with a blank. -/
theorem exists_lowerChar_of_not_isBlank {c : Char} (h : isBlank c = false) :
    ∃ d ds, lowerChar c = d :: ds ∧ isBlank d = false := by
  unfold lowerChar
  split_ifs with hdotted
  · exact ⟨'i', _, rfl, by decide⟩
  · refine ⟨_, _, rfl, ?_⟩
    rw [Bool.eq_false_iff]
    intro hblank
    have hn := (isBlank_iff_mem _).mp hblank
    have havoid := List.all_eq_true.mp lowerRuns_avoid_blankNumbers _ hn
    simp only [Bool.and_eq_true, bne_iff_ne] at havoid
    have hmoved : moveBy lowerRuns c.toNat = (Char.ofNat (moveBy lowerRuns c.toNat)).toNat := by
      rw [Char.toNat_ofNat]
      split_ifs with hvalid
      · rfl
      · rw [Char.toNat_ofNat, if_neg hvalid] at havoid
        exact absurd rfl havoid.1.1
    rw [← eq_of_moveBy_eq havoid.2 hmoved] at hn
    rw [(isBlank_iff_mem c).mpr hn] at h
    exact absurd h (by decide)

/-- The first characters of a text are blank when those of its lower case form are. -/
theorem all_isBlank_take_lowerFrom (n : Nat) (before cs : List Char) :
    ((lowerFrom before cs).take n).all isBlank = (cs.take n).all isBlank := by
  induction cs generalizing n before with
  | nil => rfl
  | cons c cs ih =>
      cases n with
      | zero => rfl
      | succ n =>
          rw [lowerFrom]
          cases hblank : isBlank c with
          | true =>
              -- a blank stays one character, so the same number is left to take
              have hsigma : c ≠ 'Σ' := by
                rintro rfl
                exact absurd hblank (by decide)
              rw [if_neg hsigma, lowerChar_of_isBlank hblank, List.singleton_append]
              simp only [List.take_succ_cons, List.all_cons, hblank, ih n (c :: before)]
          | false =>
              -- neither text is blank any more at its first character
              obtain ⟨d, ds, hform, hd⟩ : ∃ d ds,
                  (if c = 'Σ' then [if endsWord before cs then 'ς' else 'σ'] else lowerChar c) =
                    d :: ds ∧ isBlank d = false := by
                split_ifs
                · exact ⟨'ς', [], rfl, by decide⟩
                · exact ⟨'σ', [], rfl, by decide⟩
                · exact exists_lowerChar_of_not_isBlank hblank
              rw [hform]
              simp only [List.cons_append, List.take_succ_cons, List.all_cons, hblank, hd,
                Bool.false_and]

end DagScaffold.Text

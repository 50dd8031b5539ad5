import Mathlib
import DagScaffold.Manifest.Recovery

/-!
# Fronts, ends and first occurrences of texts

What was put together from parts is taken apart into the same parts: a front or an end is found
where it was added, and a mark is found first where nothing before it holds its first character.

* `afterFront?_eq_some_iff`, `beforeEnd?_eq_some_iff` : the texts with a given front or end;
* `splitAtFirst?_eq_some_iff` : the parts around the first mark in a text.
-/

namespace DagScaffold.Manifest

/-! ## What was put together -/

theorem afterFront?_append (front rest : List Char) :
    afterFront? front (front ++ rest) = some rest := by
  induction front with
  | nil => rfl
  | cons c front ih => rw [List.cons_append, afterFront?, if_pos rfl, ih]

theorem beforeEnd?_append (front tail : List Char) :
    beforeEnd? tail (front ++ tail) = some front := by
  rw [beforeEnd?, List.reverse_append, afterFront?_append, Option.map_some, List.reverse_reverse]

/-- A mark is found at once behind a front without the mark's first character. -/
theorem splitAtFirst?_append {c : Char} {mark front : List Char} (rest : List Char)
    (h : c ∉ front) :
    splitAtFirst? (c :: mark) (front ++ (c :: mark ++ rest)) = some (front, rest) := by
  induction front with
  | nil =>
      rw [List.nil_append, List.cons_append, splitAtFirst?, ← List.cons_append,
        afterFront?_append]
  | cons d front ih =>
      obtain ⟨hd, hfront⟩ := not_or.mp (List.mem_cons.not.mp h)
      rw [List.cons_append, splitAtFirst?, afterFront?, if_neg hd, ih hfront]
      rfl

/-! ## What is found -/

/-- What follows a front is found when the text starts with it. -/
theorem afterFront?_eq_some_iff (front cs rest : List Char) :
    afterFront? front cs = some rest ↔ cs = front ++ rest := by
  constructor
  · intro h
    induction front generalizing cs with
    | nil => exact Option.some.inj h
    | cons e front ih =>
        cases cs with
        | nil => cases h
        | cons c cs =>
            rw [afterFront?] at h
            split_ifs at h with hc
            rw [hc, ih cs h]
            rfl
  · rintro rfl
    exact afterFront?_append front rest

/-- What is before an end is found when the text ends with it. -/
theorem beforeEnd?_eq_some_iff (tail cs front : List Char) :
    beforeEnd? tail cs = some front ↔ cs = front ++ tail := by
  constructor
  · intro h
    obtain ⟨rest, hrest, rfl⟩ := Option.map_eq_some_iff.mp h
    rw [← List.reverse_reverse cs, (afterFront?_eq_some_iff _ _ _).mp hrest, List.reverse_append,
      List.reverse_reverse]
  · rintro rfl
    exact beforeEnd?_append front tail

/-- A text is cut at its first mark: no other mark in it has less in front. -/
theorem splitAtFirst?_eq_some_iff (mark cs front rest : List Char) :
    splitAtFirst? mark cs = some (front, rest) ↔
      cs = front ++ (mark ++ rest) ∧
        ∀ front' rest', cs = front' ++ (mark ++ rest') → front.length ≤ front'.length := by
  induction cs generalizing front with
  | nil =>
      rw [splitAtFirst?, Option.map_eq_some_iff]
      constructor
      · rintro ⟨rest', hrest, hparts⟩
        obtain ⟨rfl, rfl⟩ := Prod.mk.inj hparts
        exact ⟨(afterFront?_eq_some_iff mark [] _).mp hrest, fun _ _ _ => Nat.zero_le _⟩
      · rintro ⟨hsplit, -⟩
        obtain ⟨rfl, hrest⟩ := List.append_eq_nil_iff.mp hsplit.symm
        exact ⟨rest, (afterFront?_eq_some_iff _ _ _).mpr hrest.symm, rfl⟩
  | cons c cs ih =>
      rw [splitAtFirst?]
      cases hmark : afterFront? mark (c :: cs) with
      | some rest' =>
          -- the text opens with the mark, so no part in front of it is left
          have hcs := (afterFront?_eq_some_iff _ _ _).mp hmark
          constructor
          · intro h
            obtain ⟨rfl, rfl⟩ := Prod.mk.inj (Option.some.inj h)
            exact ⟨hcs, fun _ _ _ => Nat.zero_le _⟩
          · rintro ⟨hsplit, hfirst⟩
            obtain rfl := List.eq_nil_of_length_eq_zero (Nat.le_zero.mp (hfirst [] rest' hcs))
            rw [List.append_cancel_left (hcs.symm.trans hsplit)]
      | none =>
          have hopen (rest' : List Char) : c :: cs ≠ [] ++ (mark ++ rest') := by
            intro hcs
            rw [(afterFront?_eq_some_iff mark _ rest').mpr hcs] at hmark
            cases hmark
          rw [Option.map_eq_some_iff]
          constructor
          · rintro ⟨⟨front₀, rest₀⟩, hparts, hsame⟩
            obtain ⟨rfl, rfl⟩ := Prod.mk.inj hsame
            obtain ⟨rfl, hfirst⟩ := (ih front₀).mp hparts
            refine ⟨rfl, fun front' rest' hsplit => ?_⟩
            cases front' with
            | nil => exact absurd hsplit (hopen rest')
            | cons d front' => exact Nat.succ_le_succ (hfirst front' rest' (List.cons.inj hsplit).2)
          · rintro ⟨hsplit, hfirst⟩
            cases front with
            | nil => exact absurd hsplit (hopen rest)
            | cons d front =>
                obtain ⟨rfl, hcs⟩ := List.cons.inj hsplit
                refine ⟨(front, rest), (ih front).mpr ⟨hcs, fun front' rest' hsplit' => ?_⟩, rfl⟩
                exact Nat.le_of_succ_le_succ
                  (hfirst (c :: front') rest' (congrArg (c :: ·) hsplit'))

end DagScaffold.Manifest

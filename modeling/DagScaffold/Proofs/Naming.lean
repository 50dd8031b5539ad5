import Mathlib
import DagScaffold.Project.Name
import DagScaffold.Proofs.CaseMapping
import DagScaffold.Symbol
import DagScaffold.Text.Blank

/-!
# Normal forms of names

The normal forms of a project's name and of a robin code are fixed points, and a symbol without a
problem is an identifier that nothing else in the generated code goes by.

* `nameProblem?_eq_none_iff` : the names of projects by their characters;
* `nameProblem?_eq_some_iff`, `Symbol.problem?_eq_some_iff` : what a problem says;
* `normalizeName_normalizeName`, `normalizeRobin_normalizeRobin` : normal forms stay as they are;
* `nameProblem?_normalizeName` : a name that can name a project has a normal form that can;
* `Symbol.problem?_eq_none_iff` : the symbols that can stand in the generated code.
-/

namespace DagScaffold

namespace Project

/-! ## Names of projects -/

/-- A name can name a project when it is not empty and holds letters and digits of ASCII,
underscores and hyphens only; the other rules say nothing beyond that. -/
theorem nameProblem?_eq_none_iff (name : String) :
    nameProblem? name = none ↔ name ≠ "" ∧ ∀ c ∈ name.toList, isNameChar c = true := by
  unfold nameProblem?
  constructor
  · intro h
    split_ifs at h with hempty hseparator hdots
    refine ⟨hempty, fun c hc => ?_⟩
    simpa using List.find?_eq_none.mp (Option.map_eq_none_iff.mp h) c hc
  · rintro ⟨hempty, hchars⟩
    have hseparator : (name.toList.any fun c => c = '/' || c = '\\') = false := by
      rw [List.any_eq_false]
      rintro c hc hmark
      rcases (by simpa using hmark : c = '/' ∨ c = '\\') with rfl | rfl
      · exact absurd (hchars _ hc) (by decide)
      · exact absurd (hchars _ hc) (by decide)
    have hdots : ¬(name = "." ∨ name = "..") := by
      rintro (rfl | rfl)
      · exact absurd (hchars '.' (by decide)) (by decide)
      · exact absurd (hchars '.' (by decide)) (by decide)
    rw [if_neg hempty, hseparator, if_neg Bool.false_ne_true, if_neg hdots, Option.map_eq_none_iff,
      List.find?_eq_none]
    intro c hc
    simp [hchars c hc]

/-- What a problem says of a name; it is the first of the rules that the name breaks. -/
def NameProblem.Describes (name : String) : NameProblem → Prop
  | empty => name = ""
  | separator shown => shown = name ∧ ∃ c ∈ name.toList, c = '/' ∨ c = '\\'
  | notADirectory shown => shown = name ∧ (name = "." ∨ name = "..")
  | character shown c =>
    shown = name ∧ (¬∃ d ∈ name.toList, d = '/' ∨ d = '\\') ∧ ¬(name = "." ∨ name = "..") ∧
      ∃ front back, name.toList = front ++ c :: back ∧ isNameChar c = false ∧
        ∀ d ∈ front, isNameChar d = true

/-- A name has the problem that describes it. -/
theorem nameProblem?_eq_some_iff (name : String) (problem : NameProblem) :
    nameProblem? name = some problem ↔ problem.Describes name := by
  have hmark : (name.toList.any fun c => c = '/' || c = '\\') = true ↔
      ∃ c ∈ name.toList, c = '/' ∨ c = '\\' := by
    simp only [List.any_eq_true, Bool.or_eq_true, decide_eq_true_eq]
  have hfind (c : Char) : (name.toList.find? fun c => !isNameChar c) = some c ↔
      ∃ front back, name.toList = front ++ c :: back ∧ isNameChar c = false ∧
        ∀ d ∈ front, isNameChar d = true := by
    simp only [List.find?_eq_some_iff_append, Bool.not_eq_true', Bool.not_not]
    constructor
    · rintro ⟨hc, front, back, hsplit, hfront⟩
      exact ⟨front, back, hsplit, hc, hfront⟩
    · rintro ⟨front, back, hsplit, hc, hfront⟩
      exact ⟨hc, front, back, hsplit, hfront⟩
  unfold nameProblem?
  constructor
  · intro h
    split_ifs at h with hempty hseparator hdots
    · obtain rfl := Option.some.inj h
      exact hempty
    · obtain rfl := Option.some.inj h
      exact ⟨rfl, hmark.mp hseparator⟩
    · obtain rfl := Option.some.inj h
      exact ⟨rfl, hdots⟩
    · obtain ⟨c, hc, rfl⟩ := Option.map_eq_some_iff.mp h
      exact ⟨rfl, fun hslash => hseparator (hmark.mpr hslash), hdots, (hfind c).mp hc⟩
  · intro h
    cases problem with
    | empty => exact if_pos h
    | separator shown =>
        obtain ⟨rfl, hslash⟩ := h
        have hempty : shown ≠ "" := by
          rintro rfl
          simp at hslash
        rw [if_neg hempty, if_pos (hmark.mpr hslash)]
    | notADirectory shown =>
        obtain ⟨rfl, rfl | rfl⟩ := h
        · decide
        · decide
    | character shown c =>
        obtain ⟨rfl, hslash, hdots, hc⟩ := h
        have hempty : shown ≠ "" := by
          rintro rfl
          simp at hc
        rw [if_neg hempty, if_neg (mt hmark.mp hslash), if_neg hdots, (hfind c).mpr hc,
          Option.map_some]

/-- No character of a project's name is blank. -/
theorem isBlank_eq_false_of_isNameChar {c : Char} (h : isNameChar c = true) :
    Text.isBlank c = false := by
  simp only [isNameChar, Bool.or_eq_true, decide_eq_true_eq] at h
  rcases h with (h | rfl) | rfl
  · simp only [Char.isAlphanum, Char.isAlpha, Char.isUpper, Char.isLower, Char.isDigit,
      Bool.or_eq_true, Bool.and_eq_true, decide_eq_true_eq, ge_iff_le, UInt32.le_iff_toNat_le] at h
    have hnumber : ((65 ≤ c.toNat ∧ c.toNat ≤ 90) ∨ (97 ≤ c.toNat ∧ c.toNat ≤ 122)) ∨
        (48 ≤ c.toNat ∧ c.toNat ≤ 57) := h
    simp only [Text.isBlank, Bool.or_eq_false_iff, Bool.and_eq_false_iff, beq_eq_false_iff_ne,
      decide_eq_false_iff_not]
    omega
  · decide
  · decide

/-- A name of small characters without spaces is in its normal form. -/
theorem normalizeName_eq_self {name : String} (hspace : ' ' ∉ name.toList)
    (hlower : ∀ c ∈ name.toList, Text.IsLower c) : normalizeName name = name := by
  have hmap : name.toList.map (fun c => if c = ' ' then '_' else c) = name.toList := by
    conv_rhs => rw [← List.map_id name.toList]
    refine List.map_congr_left fun c hc => ?_
    have hne : c ≠ ' ' := by
      rintro rfl
      exact hspace hc
    rw [if_neg hne]
    rfl
  rw [normalizeName, hmap, String.ofList_toList]
  exact Text.toLower_eq_self hlower

/-- The normal form of a name that can name a project is its own normal form. -/
theorem normalizeName_normalizeName {name : String}
    (h : nameProblem? (normalizeName name) = none) :
    normalizeName (normalizeName name) = normalizeName name := by
  refine normalizeName_eq_self (fun hspace => ?_) fun c => Text.isLower_of_mem_toLower
  have hchar := ((nameProblem?_eq_none_iff _).mp h).2 ' ' hspace
  exact absurd hchar (by decide)

/-- A name that can name a project is not blank. -/
theorem isBlankText_eq_false_of_nameProblem? {name : String} (h : nameProblem? name = none) :
    Text.isBlankText name = false := by
  obtain ⟨hempty, hchars⟩ := (nameProblem?_eq_none_iff name).mp h
  rw [Text.isBlankText, List.all_eq_false]
  obtain ⟨c, hc⟩ := List.exists_mem_of_ne_nil name.toList (by simpa using hempty)
  exact ⟨c, hc, by simp [isBlank_eq_false_of_isNameChar (hchars c hc)]⟩

/-- The normal form of a name that is not blank keeps a character. -/
theorem normalizeName_ne_empty {name : String} (h : Text.isBlankText name = false) :
    normalizeName name ≠ "" := by
  intro hempty
  have hmap := Text.eq_nil_of_toLower (congrArg String.toList hempty)
  rw [String.toList_ofList, List.map_eq_nil_iff] at hmap
  rw [Text.isBlankText, hmap] at h
  exact absurd h (by decide)

/-! ## Names in lower case -/

theorem toNat_le_of_isNameChar {c : Char} (h : isNameChar c = true) : c.toNat ≤ 122 := by
  simp only [isNameChar, Char.isAlphanum, Char.isAlpha, Char.isUpper, Char.isLower, Char.isDigit,
    Bool.or_eq_true, Bool.and_eq_true, decide_eq_true_eq, ge_iff_le, UInt32.le_iff_toNat_le] at h
  rcases h with (((⟨-, h⟩ | ⟨-, h⟩) | ⟨-, h⟩) | rfl) | rfl
  · exact h.trans (by decide)
  · exact h
  · exact h.trans (by decide)
  · decide
  · decide

/-- The lower case form of a name's character can stand in a name as well. -/
theorem isNameChar_of_mem_lowerChar {c d : Char} (h : isNameChar c = true)
    (hd : d ∈ Text.lowerChar c) : isNameChar d = true := by
  have hall : ∀ n ≤ 122, isNameChar (Char.ofNat n) = true →
      (Text.lowerChar (Char.ofNat n)).all isNameChar = true := by
    decide +kernel
  have hc := hall c.toNat (toNat_le_of_isNameChar h)
  rw [Char.ofNat_toNat] at hc
  exact List.all_eq_true.mp (hc h) d hd

theorem isNameChar_of_mem_lowerFrom {before cs : List Char} (h : ∀ c ∈ cs, isNameChar c = true)
    {d : Char} (hd : d ∈ Text.lowerFrom before cs) : isNameChar d = true := by
  induction cs generalizing before with
  | nil => exact absurd hd List.not_mem_nil
  | cons c cs ih =>
      obtain ⟨hc, hcs⟩ := List.forall_mem_cons.mp h
      have hsigma : c ≠ 'Σ' := by
        rintro rfl
        exact absurd hc (by decide)
      rw [Text.lowerFrom, if_neg hsigma, List.mem_append] at hd
      rcases hd with hd | hd
      · exact isNameChar_of_mem_lowerChar hc hd
      · exact ih hcs hd

/-- The normal form of a name without a problem has none. -/
theorem nameProblem?_normalizeName {name : String} (h : nameProblem? name = none) :
    nameProblem? (normalizeName name) = none := by
  have hblank : Text.isBlankText name = false := isBlankText_eq_false_of_nameProblem? h
  obtain ⟨-, hchars⟩ := (nameProblem?_eq_none_iff name).mp h
  refine (nameProblem?_eq_none_iff _).mpr ⟨normalizeName_ne_empty hblank, fun d hd => ?_⟩
  rw [normalizeName, Text.toLower, String.toList_ofList, String.toList_ofList] at hd
  refine isNameChar_of_mem_lowerFrom (fun c hc => ?_) hd
  obtain ⟨e, he, rfl⟩ := List.mem_map.mp hc
  split_ifs
  · decide
  · exact hchars e he

/-! ## Robin codes -/

theorem normalizeRobin_normalizeRobin (robin : String) :
    normalizeRobin (normalizeRobin robin) = normalizeRobin robin := by
  have hlower : ∀ c ∈ (normalizeRobin robin).toList, Text.IsLower c := by
    intro c hc
    rw [normalizeRobin, String.toList_ofList] at hc
    exact Text.isLower_of_mem_toLower (List.mem_of_mem_take hc)
  have hshort : (normalizeRobin robin).toList.length ≤ robinLength := by
    rw [normalizeRobin, String.toList_ofList]
    exact List.length_take_le _ _
  conv_lhs => rw [normalizeRobin, Text.toLower_eq_self hlower, List.take_of_length_le hshort]
  exact String.ofList_toList

/-- The normal form of a robin code that is not blank keeps a character. -/
theorem normalizeRobin_ne_empty {robin : String} (h : Text.isBlankText robin = false) :
    normalizeRobin robin ≠ "" := by
  intro hempty
  have htake := congrArg String.toList hempty
  rw [normalizeRobin, String.toList_ofList] at htake
  have hrobin : robin.toList = [] := Text.eq_nil_of_toLower (by simpa [robinLength] using htake)
  rw [Text.isBlankText, hrobin] at h
  exact absurd h (by decide)

end Project

/-! ## Symbols -/

namespace Symbol

theorem isAllowed_clean (c : Char) : isAllowed (clean c) = true := by
  unfold clean
  split_ifs with h
  · exact h
  · decide

/-- A symbol holds letters and digits of ASCII and underscores only. -/
theorem isAllowed_of_mem_ofName {name : String} {c : Char} (h : c ∈ (ofName name).toList) :
    isAllowed c = true := by
  rw [ofName, String.toList_ofList, List.mem_map] at h
  obtain ⟨d, -, rfl⟩ := h
  exact isAllowed_clean d

/-- A symbol can stand in the generated code when it opens with no digit and is neither empty, a
keyword nor a name that the DAG binds for itself. -/
theorem problem?_eq_none_iff (symbol : String) :
    problem? symbol = none ↔
      symbol ≠ "" ∧ (symbol.toList.head?.any Char.isDigit) = false ∧ symbol ∉ keywords ∧
        symbol ∉ reserved := by
  unfold problem?
  cases hchars : symbol.toList with
  | nil =>
      have hempty : symbol = "" := by
        rw [← String.ofList_toList (s := symbol), hchars]
      simp [hempty]
  | cons c cs =>
      have hne : symbol ≠ "" := by
        rintro rfl
        simp at hchars
      by_cases hdigit : c.isDigit = true
      · simp [hdigit]
      · by_cases hkeyword : symbol ∈ keywords
        · simp [hdigit, hkeyword]
        · by_cases hreserved : symbol ∈ reserved
          · simp [hdigit, hkeyword, hreserved]
          · simp [hdigit, hkeyword, hreserved, hne]

/-- What a problem says of a symbol. -/
def Problem.Describes (symbol : String) : Problem → Prop
  | empty => symbol = ""
  | startsWithDigit shown => shown = symbol ∧ (symbol.toList.head?.any Char.isDigit) = true
  | keyword shown => shown = symbol ∧ symbol ∈ keywords
  | reserved shown => shown = symbol ∧ symbol ∈ Symbol.reserved

/-- No keyword and no reserved name opens with a digit, and no name is both. -/
theorem digit_keyword_reserved_apart (word : String) :
    (word ∈ keywords ∨ word ∈ reserved → (word.toList.head?.any Char.isDigit) = false) ∧
      (word ∈ reserved → word ∉ keywords) := by
  have hkeywords : ∀ word ∈ keywords, (word.toList.head?.any Char.isDigit) = false := by decide
  have hreserved : ∀ word ∈ reserved,
      (word.toList.head?.any Char.isDigit) = false ∧ word ∉ keywords := by decide
  exact ⟨fun h => h.elim (hkeywords word) fun h => (hreserved word h).1,
    fun h => (hreserved word h).2⟩

/-- The problems of symbols exclude one another, so the first one that is found is the only one. -/
theorem problem?_eq_some_iff (symbol : String) (problem : Problem) :
    problem? symbol = some problem ↔ problem.Describes symbol := by
  obtain ⟨hdigit, happart⟩ := digit_keyword_reserved_apart symbol
  unfold problem?
  cases hchars : symbol.toList with
  | nil =>
      obtain rfl : symbol = "" := String.toList_eq_nil_iff.mp hchars
      cases problem <;> simp [Problem.Describes, keywords, reserved]
  | cons c cs =>
      have hempty : symbol ≠ "" := by
        rintro rfl
        simp at hchars
      have hhead : (symbol.toList.head?.any Char.isDigit) = c.isDigit := by
        rw [hchars, List.head?_cons, Option.any_some]
      rw [hhead] at hdigit
      constructor
      · intro h
        simp only at h
        split_ifs at h with hc hkeyword hreserved
        · obtain rfl := Option.some.inj h
          exact ⟨rfl, hhead.trans hc⟩
        · obtain rfl := Option.some.inj h
          exact ⟨rfl, hkeyword⟩
        · obtain rfl := Option.some.inj h
          exact ⟨rfl, hreserved⟩
      · intro h
        cases problem with
        | empty => exact absurd h hempty
        | startsWithDigit shown =>
            obtain ⟨rfl, hc⟩ := h
            rw [hhead] at hc
            exact if_pos hc
        | keyword shown =>
            obtain ⟨rfl, hkeyword⟩ := h
            have hc := hdigit (Or.inl hkeyword)
            simp [hc, hkeyword]
        | reserved shown =>
            obtain ⟨rfl, hreserved⟩ := h
            have hc := hdigit (Or.inr hreserved)
            simp [hc, happart hreserved, hreserved]

/-- A symbol has a problem when it breaks one of the rules. -/
theorem exists_describes_iff (symbol : String) :
    (∃ problem : Problem, problem.Describes symbol) ↔
      symbol = "" ∨ (symbol.toList.head?.any Char.isDigit) = true ∨ symbol ∈ keywords ∨
        symbol ∈ reserved := by
  constructor
  · rintro ⟨problem, hproblem⟩
    cases problem with
    | empty => exact Or.inl hproblem
    | startsWithDigit shown => exact Or.inr (Or.inl hproblem.2)
    | keyword shown => exact Or.inr (Or.inr (Or.inl hproblem.2))
    | reserved shown => exact Or.inr (Or.inr (Or.inr hproblem.2))
  · rintro (h | h | h | h)
    · exact ⟨.empty, h⟩
    · exact ⟨.startsWithDigit symbol, rfl, h⟩
    · exact ⟨.keyword symbol, rfl, h⟩
    · exact ⟨.reserved symbol, rfl, h⟩

end Symbol

end DagScaffold

import Mathlib
import DagScaffold.Proofs.DecimalRange
import DagScaffold.Yaml.Schema
import DagScaffold.Yaml.Scalar

/-!
# Numbers among plain texts

A plain text of small letters, digits, underscores and hyphens can be a number: an integer in digits
to one of four bases, or a decimal with an exponent. What is written in this way but too large to be
held is a text again.

* `Numeral`, `Magnitude`, `Decimal` : digits, integers and decimals without a sign;
* `WritesNumber` : texts that are read as numbers;
* `meaning_eq_text_iff` : texts that stand for themselves.
-/

namespace DagScaffold.Yaml

open DagScaffold.Decimal

/-! ## Digits -/

/-- Whether a character is a small letter, a digit, an underscore or a hyphen. -/
def IsSlugChar (c : Char) : Prop :=
  c.isLower = true ∨ c.isDigit = true ∨ c = '_' ∨ c = '-'

instance (c : Char) : Decidable (IsSlugChar c) :=
  inferInstanceAs (Decidable (_ ∨ _))

/-- Whether characters are the digits of a number to a base. -/
def Numeral (base : ℕ) (cs : List Char) (n : ℕ) : Prop :=
  ∃ ds : List ℕ, ds ≠ [] ∧ (∀ d ∈ ds, d < base) ∧ cs = ds.map Nat.digitChar ∧
    n = Nat.ofDigits base ds.reverse

/-- The characters of a name come before the ones behind the small letters. -/
theorem IsSlugChar.toNat_le {c : Char} (h : IsSlugChar c) : c.toNat ≤ 122 := by
  rcases h with hlower | hdigit | rfl | rfl
  · simp only [Char.isLower, Bool.and_eq_true, decide_eq_true_eq, ge_iff_le,
      UInt32.le_iff_toNat_le] at hlower
    exact hlower.2
  · simp only [Char.isDigit, Bool.and_eq_true, decide_eq_true_eq, ge_iff_le,
      UInt32.le_iff_toNat_le] at hdigit
    exact hdigit.2.trans (by decide)
  · decide
  · decide

/-- There are few such characters, so what is true of each of them can be checked. -/
theorem IsSlugChar.of_forall_le {P : Char → Prop}
    (hall : ∀ n ≤ 122, IsSlugChar (Char.ofNat n) → P (Char.ofNat n)) {c : Char}
    (hc : IsSlugChar c) : P c := by
  have hchar := hall c.toNat hc.toNat_le
  rw [Char.ofNat_toNat] at hchar
  exact hchar hc

/-- A text of such characters holds no other one. -/
theorem not_mem_slug {cs : List Char} (hcs : ∀ c ∈ cs, IsSlugChar c) {c : Char}
    (hc : ¬IsSlugChar c) : c ∉ cs :=
  fun hmem => hc (hcs c hmem)

/-- Of such characters those are digits that stand for a number below the base. -/
theorem digit?_eq_some_iff {base d : ℕ} (hbase : base ≤ 16) {c : Char} (hc : IsSlugChar c) :
    digit? base c = some d ↔ d < base ∧ c = Nat.digitChar d := by
  have hslug : (Text.hexValue c).all (fun k => c = Nat.digitChar k) = true := by
    apply hc.of_forall_le
    decide +kernel
  show (Text.hexValue c).filter (· < base) = some d ↔ _
  rw [Option.filter_eq_some_iff, decide_eq_true_eq]
  constructor
  · rintro ⟨hd, hlt⟩
    rw [hd] at hslug
    exact ⟨hlt, of_decide_eq_true hslug⟩
  · rintro ⟨hlt, rfl⟩
    exact ⟨(Text.hexValue_digitChar (hlt.trans_le hbase)).1, hlt⟩

/-- A row of digits is read from the left, each digit behind the value of those before. -/
theorem foldlM_digit?_eq_some_iff {base : ℕ} (hbase : base ≤ 16) {cs : List Char}
    (hcs : ∀ c ∈ cs, IsSlugChar c) (before n : ℕ) :
    cs.foldlM (fun m c => (digit? base c).map (base * m + ·)) before = some n ↔
      ∃ ds : List ℕ, (∀ d ∈ ds, d < base) ∧ cs = ds.map Nat.digitChar ∧
        n = ds.foldl (fun m d => d + base * m) before := by
  induction cs generalizing before with
  | nil =>
      constructor
      · intro h
        exact ⟨[], by simp, rfl, (Option.some.inj h).symm⟩
      · rintro ⟨ds, -, hds, rfl⟩
        rw [List.map_eq_nil_iff.mp hds.symm]
        rfl
  | cons c cs ih =>
      obtain ⟨hc, hrest⟩ := List.forall_mem_cons.mp hcs
      simp only [List.foldlM_cons, Option.bind_eq_bind, Option.bind_eq_some_iff,
        Option.map_eq_some_iff, digit?_eq_some_iff hbase hc, ih hrest]
      constructor
      · rintro ⟨-, ⟨d, ⟨hd, rfl⟩, rfl⟩, ds, hds, rfl, rfl⟩
        refine ⟨d :: ds, List.forall_mem_cons.mpr ⟨hd, hds⟩, rfl, ?_⟩
        rw [List.foldl_cons, Nat.add_comm]
      · rintro ⟨ds, hds, hmap, rfl⟩
        obtain ⟨d, ds, rfl, rfl, rfl⟩ := List.map_eq_cons_iff.mp hmap.symm
        obtain ⟨hd, hds⟩ := List.forall_mem_cons.mp hds
        refine ⟨_, ⟨d, ⟨hd, rfl⟩, rfl⟩, ds, hds, rfl, ?_⟩
        rw [List.foldl_cons, Nat.add_comm]

/-- A row of characters is read as the number of which it has the digits. -/
theorem digits?_eq_some_iff {base n : ℕ} (hbase : base ≤ 16) {cs : List Char}
    (hcs : ∀ c ∈ cs, IsSlugChar c) : digits? base cs = some n ↔ Numeral base cs n := by
  cases cs with
  | nil =>
      refine iff_of_false (by simp [digits?]) ?_
      rintro ⟨ds, hne, -, hds, -⟩
      exact hne (List.map_eq_nil_iff.mp hds.symm)
  | cons c cs =>
      rw [digits?, List.isEmpty_cons, if_neg Bool.false_ne_true,
        foldlM_digit?_eq_some_iff hbase hcs]
      constructor
      · rintro ⟨ds, hds, hmap, rfl⟩
        refine ⟨ds, ?_, hds, hmap, ?_⟩
        · rintro rfl
          cases hmap
        · rw [Nat.ofDigits_eq_foldr, List.foldr_reverse]
          rfl
      · rintro ⟨ds, -, hds, hmap, rfl⟩
        refine ⟨ds, hds, hmap, ?_⟩
        rw [Nat.ofDigits_eq_foldr, List.foldr_reverse]
        rfl

/-- A numeral opens with a digit. -/
theorem Numeral.ne_nil {base n : ℕ} {cs : List Char} (h : Numeral base cs n) : cs ≠ [] := by
  obtain ⟨ds, hne, -, rfl, -⟩ := h
  exact fun hnil => hne (List.map_eq_nil_iff.mp hnil)

/-- A number to the base ten has decimal digits only. -/
theorem Numeral.isDigit {n : ℕ} {cs : List Char} (h : Numeral 10 cs n) {c : Char} (hc : c ∈ cs) :
    c.isDigit = true := by
  obtain ⟨ds, -, hds, rfl, -⟩ := h
  obtain ⟨d, hd, rfl⟩ := List.mem_map.mp hc
  have hall : ∀ k < 10, (Nat.digitChar k).isDigit = true := by decide
  exact hall d (hds d hd)

/-! ## Signs -/

/-- Whether characters write a number that `Unsigned` knows without its sign. -/
inductive Signed {α : Type} [Neg α] (Unsigned : List Char → α → Prop) : List Char → α → Prop
  | plain {cs : List Char} {x : α} : Unsigned cs x → Signed Unsigned cs x
  | negative {cs : List Char} {x : α} : Unsigned cs x → Signed Unsigned ('-' :: cs) (-x)

/-- Behind a hyphen stands the opposite number. -/
theorem signed_cons_iff {α : Type} [InvolutiveNeg α] {Unsigned : List Char → α → Prop}
    {cs : List Char} {x : α} (h : ¬Unsigned ('-' :: cs) x) :
    Signed Unsigned ('-' :: cs) x ↔ Unsigned cs (-x) := by
  constructor
  · intro hsigned
    cases hsigned with
    | plain hplain => exact absurd hplain h
    | negative hnegative => rwa [neg_neg]
  · intro hunsigned
    have hsigned := Signed.negative hunsigned
    rwa [neg_neg] at hsigned

/-- Without a hyphen in front a number is its own magnitude. -/
theorem signed_iff_of_head?_ne {α : Type} [Neg α] {Unsigned : List Char → α → Prop} {cs : List Char}
    {x : α} (h : cs.head? ≠ some '-') : Signed Unsigned cs x ↔ Unsigned cs x := by
  constructor
  · intro hsigned
    cases hsigned with
    | plain hplain => exact hplain
    | negative _ => exact absurd rfl h
  · exact .plain

/-- A slug has a hyphen for its sign, or none. -/
theorem sign_cases {cs : List Char} (hcs : ∀ c ∈ cs, IsSlugChar c) :
    cs = '-' :: unsigned cs ∨ cs.head? ≠ some '-' ∧ cs.head? ≠ some '+' ∧ unsigned cs = cs := by
  unfold unsigned
  split
  · exact absurd List.mem_cons_self (not_mem_slug hcs (by decide))
  · exact .inl rfl
  · next hplus hminus =>
      refine .inr ⟨fun h => ?_, fun h => ?_, rfl⟩
      · obtain ⟨rest, rfl⟩ := List.head?_eq_some_iff.mp h
        exact hminus rest rfl
      · obtain ⟨rest, rfl⟩ := List.head?_eq_some_iff.mp h
        exact hplus rest rfl

/-! ## Integers -/

/-- Whether the first digit of a row is needed: it is no zero, or the only one. -/
def FirstNeeded (cs : List Char) : Prop :=
  cs.head? = some '0' → cs = ['0']

/-- Whether characters write an integer without a sign. -/
inductive Magnitude : List Char → ℤ → Prop
  | decimal {cs : List Char} {n : ℕ} : Numeral 10 cs n → FirstNeeded cs → Magnitude cs n
  | hexadecimal {cs : List Char} {n : ℕ} : Numeral 16 cs n → Magnitude ('0' :: 'x' :: cs) n
  | octal {cs : List Char} {n : ℕ} : Numeral 8 cs n → Magnitude ('0' :: 'o' :: cs) n
  | binary {cs : List Char} {n : ℕ} : Numeral 2 cs n → Magnitude ('0' :: 'b' :: cs) n

/-- The magnitude of an integer has no hyphen in front. -/
theorem not_magnitude_minus (cs : List Char) (i : ℤ) : ¬Magnitude ('-' :: cs) i := by
  intro h
  cases h with
  | decimal hnumeral _ => exact absurd (hnumeral.isDigit List.mem_cons_self) (by decide)

/-- There is no needless zero in front when the first digit of a row of digits is needed. -/
theorem hasNeedlessZero_eq_false_iff (cs : List Char) :
    hasNeedlessZero cs = false ↔
      ((∀ c ∈ unsigned cs, c.isDigit = true) → FirstNeeded (unsigned cs)) := by
  have hzero : Char.isDigit '0' = true := by decide
  unfold hasNeedlessZero FirstNeeded
  split
  · next c rest hunsigned =>
      rw [hunsigned]
      simp only [List.forall_mem_cons, hzero, true_and, List.head?_cons, forall_const,
        List.cons.injEq, List.cons_ne_nil, and_false, imp_false, ← Bool.not_eq_true,
        List.all_eq_true]
  · next hshort =>
      refine iff_of_true rfl fun _ hhead => ?_
      rcases hunsigned : unsigned cs with _ | ⟨c, _ | ⟨d, rest⟩⟩
      · rw [hunsigned] at hhead
        cases hhead
      · rw [hunsigned] at hhead
        rw [Option.some.inj hhead]
      · rw [hunsigned] at hhead
        rw [List.head?_cons, Option.some.injEq] at hhead
        exact absurd (hhead ▸ hunsigned) (hshort d rest)

/-- An integer is read from digits in front of which no zero is needless. -/
theorem magnitude_iff {cs : List Char} (hcs : ∀ c ∈ cs, IsSlugChar c) (i : ℤ) :
    Magnitude cs i ↔
      ((∀ c ∈ cs, c.isDigit = true) → FirstNeeded cs) ∧
        ∃ n : ℕ, magnitude? cs = some n ∧ i = n := by
  have hletter {c d : Char} {rest : List Char} (hd : d.isDigit = false)
      (h : ∀ x ∈ c :: d :: rest, x.isDigit = true) : False := by
    have hdigit := h d (by simp)
    rw [hd] at hdigit
    cases hdigit
  have htail {c d : Char} {rest : List Char} (h : ∀ x ∈ c :: d :: rest, IsSlugChar x) :
      ∀ x ∈ rest, IsSlugChar x := fun x hx => h x (by simp [hx])
  constructor
  · intro h
    cases h with
    | @decimal _ n hnumeral hneeded =>
        refine ⟨fun _ => hneeded, n, ?_, rfl⟩
        -- a second digit is no letter for a base
        unfold magnitude?
        split
        · exact (hletter (by decide) fun x => hnumeral.isDigit).elim
        · exact (hletter (by decide) fun x => hnumeral.isDigit).elim
        · exact (hletter (by decide) fun x => hnumeral.isDigit).elim
        · exact (digits?_eq_some_iff (by decide) hcs).mpr hnumeral
    | @hexadecimal _ n hnumeral =>
        refine ⟨fun h => (hletter (by decide) h).elim, n, ?_, rfl⟩
        exact (digits?_eq_some_iff (by decide) (htail hcs)).mpr hnumeral
    | @octal _ n hnumeral =>
        refine ⟨fun h => (hletter (by decide) h).elim, n, ?_, rfl⟩
        exact (digits?_eq_some_iff (by decide) (htail hcs)).mpr hnumeral
    | @binary _ n hnumeral =>
        refine ⟨fun h => (hletter (by decide) h).elim, n, ?_, rfl⟩
        exact (digits?_eq_some_iff (by decide) (htail hcs)).mpr hnumeral
  · rintro ⟨hneeded, n, h, rfl⟩
    unfold magnitude? at h
    split at h
    · exact .hexadecimal ((digits?_eq_some_iff (by decide) (htail hcs)).mp h)
    · exact .octal ((digits?_eq_some_iff (by decide) (htail hcs)).mp h)
    · exact .binary ((digits?_eq_some_iff (by decide) (htail hcs)).mp h)
    · have hnumeral := (digits?_eq_some_iff (by decide) hcs).mp h
      exact .decimal hnumeral (hneeded fun x => hnumeral.isDigit)

/-- A text is read as an integer when it writes one. -/
theorem integer?_eq_some_iff {cs : List Char} (hcs : ∀ c ∈ cs, IsSlugChar c) (i : ℤ) :
    integer? cs = some i ↔ Signed Magnitude cs i := by
  have hneeded := hasNeedlessZero_eq_false_iff cs
  rcases sign_cases hcs with hsign | ⟨hminus, hplus, hunsigned⟩
  · generalize unsigned cs = body at hsign hneeded
    subst hsign
    have hbody : ∀ c ∈ body, IsSlugChar c := fun c hc => hcs c (List.mem_cons_of_mem _ hc)
    rw [signed_cons_iff (not_magnitude_minus body i), magnitude_iff hbody, ← hneeded, integer?]
    cases hasNeedlessZero ('-' :: body) with
    | true => simp
    | false => simp [Option.bind_eq_some_iff, neg_eq_iff_eq_neg, eq_comm (a := -i)]
  · rw [hunsigned] at hneeded
    have hread : integer? cs = if hasNeedlessZero cs then none
        else (magnitude? cs).map (Nat.cast : ℕ → ℤ) := by
      unfold integer?
      split
      · rfl
      · split
        · exact absurd rfl hminus
        · exact absurd rfl hplus
        · cases magnitude? cs <;> rfl
    rw [signed_iff_of_head?_ne hminus, magnitude_iff hcs, ← hneeded, hread]
    cases hasNeedlessZero cs with
    | true => simp
    | false => simp [eq_comm]

/-! ## Decimals -/

/-- Whether characters write the power of ten after a row of digits. -/
inductive Exponent : List Char → ℤ → Prop
  | absent : Exponent [] 0
  | positive {cs : List Char} {n : ℕ} : Numeral 10 cs n → Exponent ('e' :: cs) n
  | negative {cs : List Char} {n : ℕ} : Numeral 10 cs n → Exponent ('e' :: '-' :: cs) (-n)

/-- Whether characters write a decimal without a sign. -/
inductive Decimal : List Char → ℚ → Prop
  | mk {ds es : List Char} {n : ℕ} {e : ℤ} :
    Numeral 10 ds n → Exponent es e → (es = [] → FirstNeeded ds) → Decimal (ds ++ es) (n * 10 ^ e)

/-- A decimal without its sign has no hyphen in front. -/
theorem not_decimal_minus (cs : List Char) (x : ℚ) : ¬Decimal ('-' :: cs) x := by
  intro h
  generalize htext : '-' :: cs = text at h
  obtain ⟨hnumeral, -, -⟩ := h
  obtain ⟨d, ds, rfl⟩ := List.exists_cons_of_ne_nil hnumeral.ne_nil
  rw [List.cons_append, List.cons.injEq] at htext
  have hdigit := hnumeral.isDigit List.mem_cons_self
  rw [← htext.1] at hdigit
  exact absurd hdigit (by decide)

/-- A text is read as an exponent when it writes one. -/
theorem exponent?_eq_some_iff {cs : List Char} (hcs : ∀ c ∈ cs, IsSlugChar c) (e : ℤ) :
    exponent? cs = some e ↔ Exponent cs e := by
  cases cs with
  | nil =>
      constructor
      · intro h
        rw [← Option.some.inj h]
        exact .absent
      · rintro ⟨⟩
        rfl
  | cons c cs =>
      obtain ⟨hc, hrest⟩ := List.forall_mem_cons.mp hcs
      by_cases he : c = 'e'
      · subst he
        rcases sign_cases hrest with hsign | ⟨hminus, hplus, -⟩
        · generalize unsigned cs = body at hsign
          subst hsign
          have hbody : ∀ c ∈ body, IsSlugChar c := fun c hc => hrest c (List.mem_cons_of_mem _ hc)
          have hread : exponent? ('e' :: '-' :: body) =
              (digits? 10 body).map fun n : ℕ => -(n : ℤ) := by
            cases hdigits : digits? 10 body <;> simp [exponent?, hdigits]
          rw [hread, Option.map_eq_some_iff]
          simp only [digits?_eq_some_iff (show 10 ≤ 16 by decide) hbody]
          constructor
          · rintro ⟨n, hnumeral, rfl⟩
            exact .negative hnumeral
          · intro h
            cases h with
            | positive hnumeral => exact absurd (hnumeral.isDigit List.mem_cons_self) (by decide)
            | @negative _ n hnumeral => exact ⟨n, hnumeral, rfl⟩
        · have hread : exponent? ('e' :: cs) = (digits? 10 cs).map (Nat.cast : ℕ → ℤ) := by
            simp only [exponent?, true_or, if_true]
            split
            · exact absurd rfl hminus
            · exact absurd rfl hplus
            · cases digits? 10 cs <;> rfl
          rw [hread, Option.map_eq_some_iff]
          simp only [digits?_eq_some_iff (show 10 ≤ 16 by decide) hrest]
          constructor
          · rintro ⟨n, hnumeral, rfl⟩
            exact .positive hnumeral
          · intro h
            cases h with
            | @positive _ n hnumeral => exact ⟨n, hnumeral, rfl⟩
            | negative _ => exact absurd rfl hminus
      · have hcapital : c ≠ 'E' := by
          rintro rfl
          exact absurd hc (by decide)
        refine iff_of_false ?_ ?_
        · simp [exponent?, he, hcapital]
        · rintro ⟨⟩ <;> exact he rfl

/-- An exponent opens with no digit. -/
theorem Exponent.takeWhile_isDigit {es : List Char} {e : ℤ} (h : Exponent es e) :
    es.takeWhile Char.isDigit = [] := by
  cases h <;> rfl

/-- No digits are left out before an exponent. -/
theorem Exponent.dropWhile_isDigit {es : List Char} {e : ℤ} (h : Exponent es e) :
    es.dropWhile Char.isDigit = es := by
  cases h <;> rfl

/-- Digits without a point are read with their exponent. -/
theorem decimal?_eq (negative : Bool) {cs : List Char} (hcs : ∀ c ∈ cs, IsSlugChar c) :
    decimal? negative cs =
      (digits? 10 (cs.takeWhile Char.isDigit)).bind fun n =>
        (exponent? (cs.dropWhile Char.isDigit)).bind fun e => Binary64.ofDecimal negative n e := by
  have hpoint : (cs.dropWhile Char.isDigit).head? ≠ some '.' := by
    intro h
    have hmem : '.' ∈ cs := (List.dropWhile_sublist _).mem (List.mem_of_mem_head? h)
    exact not_mem_slug hcs (by decide) hmem
  unfold decimal?
  simp only [hpoint, if_false, List.append_nil, List.length_nil, Nat.cast_zero, sub_zero]
  cases digits? 10 (cs.takeWhile Char.isDigit) <;>
    cases exponent? (cs.dropWhile Char.isDigit) <;> rfl

/-- A decimal is read unless it reaches the limit of the format. -/
theorem exists_decimal?_eq_some_iff (negative : Bool) {cs : List Char}
    (hcs : ∀ c ∈ cs, IsSlugChar c) :
    ((∀ c ∈ cs, c.isDigit = true) → FirstNeeded cs) ∧ (∃ y, decimal? negative cs = some y) ↔
      ∃ x, Decimal cs x ∧ x < Binary64.limit := by
  have hfront : ∀ c ∈ cs.takeWhile Char.isDigit, IsSlugChar c := fun c hc =>
    hcs c ((List.takeWhile_sublist _).mem hc)
  have hback : ∀ c ∈ cs.dropWhile Char.isDigit, IsSlugChar c := fun c hc =>
    hcs c ((List.dropWhile_sublist _).mem hc)
  have hvalue (n : ℕ) (e : ℤ) :
      (∃ y, Binary64.ofDecimal negative n e = some y) ↔ (n * 10 ^ e : ℚ) < Binary64.limit := by
    rw [← not_le, ← Binary64.ofDecimal_eq_none_iff negative, ← Option.ne_none_iff_exists']
  rw [decimal?_eq negative hcs]
  simp only [Option.bind_eq_some_iff, digits?_eq_some_iff (show 10 ≤ 16 by decide) hfront,
    exponent?_eq_some_iff hback]
  constructor
  · rintro ⟨hneeded, y, n, hnumeral, e, hexponent, hy⟩
    refine ⟨n * 10 ^ e, ?_, (hvalue n e).mp ⟨y, hy⟩⟩
    rw [← List.takeWhile_append_dropWhile (p := Char.isDigit) (l := cs)]
    refine .mk hnumeral hexponent fun hnil => ?_
    have hall : cs.takeWhile Char.isDigit = cs := by
      have happend := List.takeWhile_append_dropWhile (p := Char.isDigit) (l := cs)
      rwa [hnil, List.append_nil] at happend
    rw [hall] at hnumeral ⊢
    exact hneeded fun c => hnumeral.isDigit
  · rintro ⟨x, hdecimal, hlimit⟩
    cases hdecimal with
    | @mk ds es n e hnumeral hexponent hneeded =>
        have hdigits : ∀ c ∈ ds, c.isDigit = true := fun c => hnumeral.isDigit
        rw [List.takeWhile_append_of_pos hdigits, List.dropWhile_append_of_pos hdigits,
          hexponent.takeWhile_isDigit, hexponent.dropWhile_isDigit, List.append_nil]
        obtain ⟨y, hy⟩ := (hvalue n e).mpr hlimit
        refine ⟨fun hall => ?_, y, n, hnumeral, e, hexponent, hy⟩
        -- an exponent has a letter
        cases hexponent with
        | absent => exact (List.append_nil ds).symm ▸ hneeded rfl
        | positive _ => exact absurd (hall 'e' (by simp)) (by decide)
        | negative _ => exact absurd (hall 'e' (by simp)) (by decide)

/-! ## Texts that stand for themselves -/

/-- Whether characters write a number that can be held: an integer of at most 128 bits, or of 128
bits with its sign, or a decimal below the limit of the format. -/
inductive WritesNumber (cs : List Char) : Prop
  | integer {i : ℤ} : Signed Magnitude cs i → -2 ^ 127 ≤ i → i < 2 ^ 128 → WritesNumber cs
  | decimal {x : ℚ} : Signed Decimal cs x → |x| < Binary64.limit → WritesNumber cs

/-- A decimal without its sign is not negative. -/
theorem Decimal.abs_eq {cs : List Char} {x : ℚ} (h : Decimal cs x) : |x| = x := by
  cases h with
  | mk _ _ _ => exact abs_of_nonneg (by positivity)

/-- Among such texts the fractions are the decimals, with or without a hyphen in front. -/
theorem fraction?_eq {cs : List Char} (hcs : ∀ c ∈ cs, IsSlugChar c) :
    fraction? cs = (decimal? (cs.head? = some '-') (unsigned cs)).map .fraction := by
  have hpoint : '.' ∉ cs := not_mem_slug hcs (by decide)
  have hname : cs ∉ [['.', 'n', 'a', 'n'], ['.', 'N', 'a', 'N'], ['.', 'N', 'A', 'N']] := by
    intro h
    simp only [List.mem_cons, List.not_mem_nil, or_false] at h
    rcases h with rfl | rfl | rfl <;> exact hpoint List.mem_cons_self
  have hinfinity : unsigned cs ∉ [['.', 'i', 'n', 'f'], ['.', 'I', 'n', 'f'],
      ['.', 'I', 'N', 'F']] := by
    have hpoint' : '.' ∉ unsigned cs := by
      rcases sign_cases hcs with hsign | ⟨-, -, hunsigned⟩
      · rw [hsign] at hpoint
        exact fun h => hpoint (List.mem_cons_of_mem _ h)
      · rwa [hunsigned]
    intro h
    simp only [List.mem_cons, List.not_mem_nil, or_false] at h
    rcases h with h | h | h <;> exact hpoint' (h ▸ List.mem_cons_self)
  rw [fraction?, if_neg hname]
  show (if unsigned cs ∈ _ then _ else _) = _
  rw [if_neg hinfinity]

/-- A text is read as a fraction when it writes a decimal that a fraction can hold. -/
theorem exists_fraction?_eq_some_iff {cs : List Char} (hcs : ∀ c ∈ cs, IsSlugChar c) :
    hasNeedlessZero cs = false ∧ (∃ y, fraction? cs = some y) ↔
      ∃ x, Signed Decimal cs x ∧ |x| < Binary64.limit := by
  have hsome : (∃ y, fraction? cs = some y) ↔
      ∃ y, decimal? (cs.head? = some '-') (unsigned cs) = some y := by
    rw [fraction?_eq hcs]
    simp
  rw [hsome, hasNeedlessZero_eq_false_iff]
  rcases sign_cases hcs with hsign | ⟨hminus, -, hunsigned⟩
  · generalize unsigned cs = body at hsign
    subst hsign
    have hbody : ∀ c ∈ body, IsSlugChar c := fun c hc => hcs c (List.mem_cons_of_mem _ hc)
    rw [exists_decimal?_eq_some_iff _ hbody]
    constructor
    · rintro ⟨x, hdecimal, hlimit⟩
      refine ⟨-x, .negative hdecimal, ?_⟩
      rwa [abs_neg, hdecimal.abs_eq]
    · rintro ⟨x, hsigned, hlimit⟩
      have hdecimal := (signed_cons_iff (not_decimal_minus body x)).mp hsigned
      refine ⟨-x, hdecimal, ?_⟩
      rwa [← hdecimal.abs_eq, abs_neg]
  · rw [hunsigned, exists_decimal?_eq_some_iff _ hcs]
    refine exists_congr fun x => ?_
    rw [signed_iff_of_head?_ne hminus]
    exact and_congr_right fun hdecimal => by rw [hdecimal.abs_eq]

/-- An integer fits when it lies within the bounds for its sign. -/
theorem fits_iff (bits : ℕ) (i : ℤ) : fits bits i = true ↔ -2 ^ (bits - 1) ≤ i ∧ i < 2 ^ bits := by
  simp [fits]

/-- A text has no integer as its meaning when it writes none of at most 128 bits. -/
theorem integerMeaning?_eq_none_iff {cs : List Char} (hcs : ∀ c ∈ cs, IsSlugChar c) :
    integerMeaning? cs = none ↔ ¬∃ i, Signed Magnitude cs i ∧ -2 ^ 127 ≤ i ∧ i < 2 ^ 128 := by
  simp only [← integer?_eq_some_iff hcs]
  unfold integerMeaning?
  cases integer? cs with
  | none => simp
  | some i =>
      have hrange : (∃ j, some i = some j ∧ -2 ^ 127 ≤ j ∧ j < 2 ^ 128) ↔ fits 128 i = true := by
        simp [fits_iff]
      rw [hrange]
      -- what has 64 bits has 128 bits
      have hwide : fits 64 i = true → fits 128 i = true := by
        simp only [fits_iff]
        omega
      by_cases hshort : fits 64 i = true
      · simp [hshort, hwide hshort]
      · by_cases hlong : fits 128 i = true <;> simp [hshort, hlong]

/-- A number is written in the way of an integer, or else of a decimal in front of which no zero is
needless. -/
theorem writesNumber_iff {cs : List Char} (hcs : ∀ c ∈ cs, IsSlugChar c) :
    WritesNumber cs ↔
      (∃ i, Signed Magnitude cs i ∧ -2 ^ 127 ≤ i ∧ i < 2 ^ 128) ∨
        hasNeedlessZero cs = false ∧ ∃ y, fraction? cs = some y := by
  rw [exists_fraction?_eq_some_iff hcs]
  constructor
  · rintro (⟨hinteger, hlow, hhigh⟩ | ⟨hdecimal, hlimit⟩)
    · exact .inl ⟨_, hinteger, hlow, hhigh⟩
    · exact .inr ⟨_, hdecimal, hlimit⟩
  · rintro (⟨i, hinteger, hlow, hhigh⟩ | ⟨x, hdecimal, hlimit⟩)
    · exact .integer hinteger hlow hhigh
    · exact .decimal hdecimal hlimit

theorem ne_text_of_integerMeaning? {cs : List Char} {m : Meaning}
    (h : integerMeaning? cs = some m) :
    m ≠ .text := by
  rintro rfl
  unfold integerMeaning? at h
  split at h
  · cases h
  · split_ifs at h <;> cases h

/-- A slug stands for itself unless it is a word for nothing or for a flag, or writes a number. -/
theorem meaning_eq_text_iff {s : String} (hs : ∀ c ∈ s.toList, IsSlugChar c) (hne : s ≠ "") :
    meaning s = .text ↔ s ∉ ["null", "true", "false"] ∧ ¬WritesNumber s.toList := by
  by_cases hword : s ∈ ["null", "true", "false"]
  · refine iff_of_false ?_ fun h => h.1 hword
    simp only [List.mem_cons, List.not_mem_nil, or_false] at hword
    rcases hword with rfl | rfl | rfl <;> decide
  have hother {word : String} (c : Char) (hc : ¬IsSlugChar c) (hmem : c ∈ word.toList) :
      s ≠ word := by
    rintro rfl
    exact not_mem_slug hs hc hmem
  simp only [List.mem_cons, List.not_mem_nil, or_false, not_or] at hword
  have hnull : (s = "" || isNullWord s) = false := by
    have hspelled : s ≠ "Null" ∧ s ≠ "NULL" ∧ s ≠ "~" :=
      ⟨hother 'N' (by decide) (by simp), hother 'N' (by decide) (by simp),
        hother '~' (by decide) (by simp)⟩
    simp [isNullWord, hne, hword, hspelled]
  have hflag : flag? s = none := by
    have hspelled : (s ≠ "True" ∧ s ≠ "TRUE") ∧ s ≠ "False" ∧ s ≠ "FALSE" :=
      ⟨⟨hother 'T' (by decide) (by simp), hother 'T' (by decide) (by simp)⟩,
        hother 'F' (by decide) (by simp), hother 'F' (by decide) (by simp)⟩
    simp [flag?, hword, hspelled]
  have hinteger := integerMeaning?_eq_none_iff hs
  simp only [meaning, hnull, hflag, hword, writesNumber_iff hs, List.mem_cons, List.not_mem_nil,
    or_false, not_false_eq_true, true_and, not_or]
  rw [← hinteger]
  cases hmeaning : integerMeaning? s.toList with
  | some m => simp [ne_text_of_integerMeaning? hmeaning]
  | none =>
      cases hasNeedlessZero s.toList with
      | true => simp
      | false => cases fraction? s.toList <;> simp

end DagScaffold.Yaml

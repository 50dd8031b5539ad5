import Mathlib
import DagScaffold.Proofs.Yaml.WordScan
import DagScaffold.Yaml.Layout

/-!
# Steps of the search for tokens

The search for tokens is followed from one layout to another. A step first skips blanks, then
forgets the keys that have become impossible and closes the collections that have ended, and only
then finds a token; so it is the same step from every layout that differs in what is skipped,
forgotten or closed.

* `Layout.Reaches`, `Layout.Reaches.exists_tokens_eq` : the search goes on from one layout as from
  another one;
* `Layout.step_eq_next`, `Layout.step_eq_token` : a step by its parts;
* `Layout.reaches_skipSpace`, `Layout.reaches_forgetKey` : what belongs to no step of its own.
-/

namespace DagScaffold.Yaml

open Written

/-! ## The course of the search -/

namespace Layout

/-- Whether the search for tokens comes from `s` to a place where it goes on as from `s'`, in no
more steps than there are characters before that place. -/
def Reaches (s s' : Layout) : Prop :=
  ∃ n, n + s'.rest.length ≤ s.rest.length ∧ ∀ fuel, run (n + fuel + 1) s = run (fuel + 1) s'

/-- A search reaches where it stands. -/
theorem Reaches.refl (s : Layout) : Reaches s s :=
  ⟨0, by omega, fun fuel => by rw [Nat.zero_add]⟩

/-- What is reached from where a search comes is reached. -/
theorem Reaches.trans {s s' s'' : Layout} (h : Reaches s s') (h' : Reaches s' s'') :
    Reaches s s'' := by
  obtain ⟨m, hm, hrun⟩ := h
  obtain ⟨n, hn, hrun'⟩ := h'
  refine ⟨m + n, by omega, fun fuel => ?_⟩
  rw [Nat.add_assoc m n fuel, hrun, hrun']

/-- A search makes a step and goes on from there if it is not at its end. -/
theorem run_succ (fuel : Nat) (s : Layout) :
    run (fuel + 1) s =
      s.step.bind fun r => if r.2 then run fuel r.1 else .ok r.1.found.reverse := by
  rw [run]
  congr 1
  funext r
  obtain ⟨s', more⟩ := r
  cases more <;> rfl

/-- Two layouts with the same next step go on in the same way. -/
theorem reaches_of_step_eq {s s' : Layout} (h : s.step = s'.step)
    (hlength : s'.rest.length ≤ s.rest.length) : Reaches s s' := by
  refine ⟨0, by omega, fun fuel => ?_⟩
  rw [Nat.zero_add, run_succ, run_succ, h]

/-- A step that leaves less of the text is reached. -/
theorem reaches_of_step {s s' : Layout} (h : s.step = .ok (s', true))
    (hlength : s'.rest.length < s.rest.length) : Reaches s s' := by
  refine ⟨1, by omega, fun fuel => ?_⟩
  rw [Nat.add_comm 1 fuel, run_succ, h]
  rfl

/-- The tokens of a text are found from any layout that the search reaches. -/
theorem Reaches.exists_tokens_eq {cs : List Char} {s : Layout}
    (h : Reaches { place := ⟨0, 0⟩, rest := cs } s) :
    ∃ fuel, tokens cs = run (fuel + 1) s := by
  obtain ⟨n, hlength, hrun⟩ := h
  refine ⟨cs.length - n, ?_⟩
  -- the search takes no more steps than there are characters
  have hfuel : cs.length + 1 = n + (cs.length - n) + 1 := by
    have hn : n ≤ cs.length := (Nat.le_add_right n _).trans hlength
    omega
  rw [tokens, hfuel]
  exact hrun _

/-! ## Blanks before a token -/

/-- There are no blanks where the text goes on. -/
theorem blanksFrom_of_goesOn {inBrackets keyAllowed : Bool} {p : Place} {rest : List Char}
    (h : goesOn rest = true) :
    blanksFrom inBrackets keyAllowed false p rest = (keyAllowed, p, rest) := by
  cases rest with
  | nil => rfl
  | cons c rest =>
      simp only [goesOn, isBlank, Bool.and_eq_true, Bool.not_eq_true', Bool.or_eq_false_iff,
        decide_eq_true_eq, decide_eq_false_iff_not] at h
      obtain ⟨⟨⟨hspace, htab⟩, hbreak⟩, hnumber⟩ := h
      simp [blanksFrom, hspace, htab, hbreak, hnumber]

/-- Spaces are left out, and move the place to the right. -/
theorem blanksFrom_spaces {inBrackets keyAllowed : Bool} {p : Place} {rest : List Char} (k : Nat)
    (h : goesOn rest = true) :
    blanksFrom inBrackets keyAllowed false p (List.replicate k ' ' ++ rest) =
      (keyAllowed, p.right k, rest) := by
  induction k generalizing p with
  | zero => exact blanksFrom_of_goesOn h
  | succ k ih =>
      have hbreak : isBreak ' ' = false := by decide
      rw [List.replicate_succ, List.cons_append, blanksFrom, hbreak, Place.after_eq_right hbreak]
      show blanksFrom inBrackets keyAllowed false (p.right 1) (List.replicate k ' ' ++ rest) = _
      rw [ih, Place.right_right, Nat.add_comm]

/-- A key may begin on the next line. -/
theorem blanksFrom_line {keyAllowed : Bool} {p : Place} {rest : List Char} (k : Nat)
    (h : goesOn rest = true) :
    blanksFrom false keyAllowed false p ('\n' :: (List.replicate k ' ' ++ rest)) =
      (true, ⟨p.line + 1, k⟩, rest) := by
  rw [blanksFrom, if_pos (by decide), blanksFrom_spaces k h, Bool.not_false, Bool.or_true]
  show (true, (⟨p.line + 1, 0⟩ : Place).right k, rest) = _
  rw [Place.right, Nat.zero_add]

/-- A search stays where the text goes on. -/
theorem skipBlanks_of_goesOn {s : Layout} (h : goesOn s.rest = true) : s.skipBlanks = s := by
  rw [skipBlanks, blanksFrom_of_goesOn h]

/-- A search goes over one space. -/
theorem skipBlanks_space {s : Layout} {rest : List Char} (hrest : s.rest = ' ' :: rest)
    (h : goesOn rest = true) :
    s.skipBlanks = { s with place := s.place.right 1, rest := rest } := by
  have hspaces := @blanksFrom_spaces s.inBrackets s.keyAllowed s.place rest 1 h
  rw [skipBlanks, hrest]
  show (let r := blanksFrom s.inBrackets s.keyAllowed false s.place (List.replicate 1 ' ' ++ rest)
    ({ s with keyAllowed := r.1, place := r.2.1, rest := r.2.2 } : Layout)) = _
  rw [hspaces]

/-- A search without outer collections is in no brackets. -/
theorem inBrackets_eq_false {s : Layout} (h : s.outer = []) : s.inBrackets = false := by
  rw [inBrackets, h]
  rfl

/-- A search goes over a line end to the first character of the next line, where a key may stand. -/
theorem skipBlanks_line {s : Layout} {k : Nat} {rest : List Char} (houter : s.outer = [])
    (hrest : s.rest = '\n' :: (List.replicate k ' ' ++ rest)) (h : goesOn rest = true) :
    s.skipBlanks = { s with place := ⟨s.place.line + 1, k⟩, rest := rest, keyAllowed := true } := by
  rw [skipBlanks, inBrackets_eq_false houter, hrest, blanksFrom_line k h]

/-- A step goes over blanks before it looks at a character. -/
theorem step_skipBlanks {s : Layout} (h : goesOn s.skipBlanks.rest = true) :
    s.skipBlanks.step = s.step := by
  rw [step, skipBlanks_of_goesOn h, step]

/-- The blanks after a token belong to no step of their own. -/
theorem reaches_of_step_skipBlanks {s s' s'' : Layout} (h : s.step = .ok (s', true))
    (hblanks : s'.skipBlanks = s'') (hgo : goesOn s''.rest = true)
    (hlength : s''.rest.length < s.rest.length) : Reaches s s'' := by
  subst hblanks
  refine ⟨1, by omega, fun fuel => ?_⟩
  rw [Nat.add_comm 1 fuel, run_succ, h]
  show run (fuel + 1) s' = run (fuel + 1) s'.skipBlanks
  rw [run_succ, run_succ, step_skipBlanks hgo]

/-! ## Keys that may have begun -/

/-- A key of an earlier line that need not be one is forgotten. -/
theorem refreshKeys_of_line {s : Layout} (houter : s.outer = [])
    (hkey : ∀ k, s.key = some k → k.required = false ∧ k.place.line < s.place.line) :
    s.refreshKeys = .ok { s with key := none } := by
  have hstill : stillKey s.place s.key = .ok none := by
    cases h : s.key with
    | none => rfl
    | some k =>
        obtain ⟨hrequired, hline⟩ := hkey k h
        simp [stillKey, hline, hrequired]
  rw [refreshKeys, hstill, houter]
  simp only [List.mapM_nil, pure, Except.pure, bind, Except.bind]

/-- A search that waits for no colon has nothing to forget. -/
theorem refreshKeys_eq_self {s : Layout} (houter : s.outer = []) (hkey : s.key = none) :
    s.refreshKeys = .ok s := by
  have hnone : s.refreshKeys = .ok { s with key := none } := by
    refine refreshKeys_of_line houter fun k hk => ?_
    rw [hkey] at hk
    cases hk
  rw [hnone, ← hkey]

/-! ## Steps of the search -/

/-- The next step once the blanks have been skipped and what has ended is forgotten or closed. -/
def next (s : Layout) : Except Fault (Layout × Bool) :=
  match s.rest with
  | [] => s.closeAll.dropKey.map fun s => (s, false)
  | c :: cs => (s.token c cs).map fun s => (s, true)

/-- A step goes over blanks, forgets keys and closes collections before it looks at a character. -/
theorem step_eq_next {s s₁ s₂ s₃ : Layout} (hblanks : s.skipBlanks = s₁)
    (hkeys : s₁.refreshKeys = .ok s₂) (hclose : s₂.closeDeeper s₂.place.column = s₃) :
    s.step = s₃.next := by
  rw [step, hblanks, hkeys, ← hclose]
  rfl

/-- No collection is closed where none is deeper. -/
theorem closeDeeper_eq_self {s : Layout} {column : Nat} (h : ∀ open' ∈ s.blocks, open' ≤ column) :
    s.closeDeeper column = s := by
  have htake : s.blocks.takeWhile (column < ·) = [] := by
    rw [List.takeWhile_eq_nil_iff]
    intro hlength hopen
    exact absurd (of_decide_eq_true hopen) (Nat.not_lt.mpr (h _ (List.getElem_mem hlength)))
  have hdrop : s.blocks.dropWhile (column < ·) = s.blocks := by
    have happend := List.takeWhile_append_dropWhile (p := (column < ·)) (l := s.blocks)
    rwa [htake, List.nil_append] at happend
  unfold closeDeeper
  split
  · rfl
  · simp only [htake, hdrop, List.length_nil, List.replicate_zero, List.nil_append]

/-- A step reads the token that a character opens when no collection is closed before. -/
theorem step_eq_token {s s₁ s₂ : Layout} {c : Char} {cs : List Char} (hblanks : s.skipBlanks = s₁)
    (hkeys : s₁.refreshKeys = .ok s₂)
    (hshallow : ∀ column ∈ s₂.blocks, column ≤ s₂.place.column) (hrest : s₂.rest = c :: cs) :
    s.step = (s₂.token c cs).map fun s => (s, true) := by
  rw [step_eq_next hblanks hkeys (closeDeeper_eq_self hshallow), next, hrest]

/-- A key of an earlier line that need not be one is as good as none. -/
theorem reaches_forgetKey {s : Layout} (houter : s.outer = []) (hgo : goesOn s.rest = true)
    (hkey : ∀ k, s.key = some k → k.required = false ∧ k.place.line < s.place.line) :
    Reaches s { s with key := none } := by
  have hstep := step_eq_next (skipBlanks_of_goesOn hgo) (refreshKeys_of_line houter hkey) rfl
  have hstep' := @step_eq_next { s with key := none } _ _ _ (skipBlanks_of_goesOn hgo)
    (refreshKeys_eq_self houter rfl) rfl
  exact reaches_of_step_eq (hstep.trans hstep'.symm) le_rfl

/-- A space before a token belongs to no step of its own. -/
theorem reaches_skipSpace {s : Layout} {rest : List Char} (hrest : s.rest = ' ' :: rest)
    (hgo : goesOn rest = true) : Reaches s { s with place := s.place.right 1, rest := rest } := by
  have hskip := skipBlanks_space hrest hgo
  refine reaches_of_step_eq ?_ ?_
  · rw [← hskip]
    exact (step_skipBlanks (by rw [hskip]; exact hgo)).symm
  · rw [hrest]
    exact Nat.le_succ _

end Layout

end DagScaffold.Yaml

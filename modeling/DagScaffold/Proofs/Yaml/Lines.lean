import Mathlib
import DagScaffold.Proofs.Yaml.Pieces

/-!
# The tokens of lines with keys

The search for tokens is followed over the lines of a document, each with a key and a piece or with
a key and a list of pieces on the lines below it. At the start of a line it goes on as from a layout
that depends on the tokens before it only.

* `Layout.atLine`, `Layout.atValue`, `Layout.atItem` : the places between the parts of lines;
* `Layout.reaches_atValue` : from the start of a line over its key;
* `Layout.reaches_atLine_of_value`, `Layout.reaches_afterItem` : over the piece of a key and of an
  item.
-/

namespace DagScaffold.Yaml

open Written

namespace Layout

/-! ## Places on lines -/

/-- The search at the start of a line, after the tokens of the lines before it. -/
def atLine (done : List Token) (line : Nat) (rest : List Char) : Layout where
  place := ⟨line, 0⟩
  rest := rest
  found := if done = [] then [] else (.blockMap :: done).reverse
  blocks := if done = [] then [] else [0]

theorem eq_zero_of_mem_blocks_atLine {done : List Token} {line : Nat} {rest : List Char}
    {column : Nat} (h : column ∈ (atLine done line rest).blocks) : column = 0 := by
  rw [atLine] at h
  split_ifs at h
  · exact absurd h List.not_mem_nil
  · exact List.mem_singleton.mp h

/-- The search after the colon of a key. -/
def atValue (done : List Token) (key : List Char) (line : Nat) (rest : List Char) : Layout where
  place := ⟨line, key.length + 1⟩
  rest := rest
  found := .value :: .scalar .plain (.ofList key) :: .key :: (.blockMap :: done).reverse
  blocks := [0]
  keyAllowed := false

/-- The search within a list, where the next line begins at a column. -/
def afterItem (found : List Token) (line column : Nat) (rest : List Char) : Layout where
  place := ⟨line, column⟩
  rest := rest
  found := found
  blocks := [2, 0]

/-- The search before the hyphen of an item. -/
def atItem (found : List Token) (line : Nat) (rest : List Char) : Layout :=
  afterItem found line 2 rest

/-! ## Keys -/

theorem ne_of_isKeyChar {c d : Char} (hc : isKeyChar c = true) (hd : isKeyChar d = false) :
    c ≠ d := by
  rintro rfl
  rw [hc] at hd
  exact absurd hd (by decide)

theorem goesOn_key {c : Char} {cs : List Char} (hc : isKeyChar c = true) :
    goesOn (c :: cs) = true := by
  have hshown := isShown_of_isKeyChar hc
  have hspace : c ≠ ' ' := ne_of_isKeyChar hc (by decide)
  have hnumber : c ≠ '#' := ne_of_isKeyChar hc (by decide)
  rw [goesOn, isBlank_of_isShown hshown, isBreak_eq_false_of_isShown hshown, decide_eq_false hspace,
    decide_eq_true hnumber]
  rfl

/-- A character of a key opens a plain text. -/
theorem token_key {s : Layout} {c : Char} {cs : List Char} (hc : isKeyChar c = true) :
    s.token c cs = s.plainText := by
  have hmark : c ∉ openingMarks := by
    intro hmem
    have hall : openingMarks.all (fun d => !isKeyChar d) = true := by decide
    have hnot := List.all_eq_true.mp hall c hmem
    rw [hc] at hnot
    exact absurd hnot (by decide)
  have hmarker : atMarker s.place (c :: cs) = false := by
    rw [atMarker, isMarker_eq_false cs (ne_of_isKeyChar hc (by decide)),
      isMarker_eq_false cs (ne_of_isKeyChar hc (by decide)), Bool.or_self]
  refine token_plain hmark (isShown_of_isKeyChar hc) hmarker fun hword => ?_
  rcases hword with rfl | rfl | rfl <;> exact absurd hc (by decide)

/-- A colon at the end of a word is the mark of a value. -/
theorem token_value {s : Layout} {cs : List Char} (hends : endsWord cs = true) :
    s.token ':' cs = s.valueMark := by
  rw [token, isMarker_eq_false cs (by decide), isMarker_eq_false cs (by decide), hends]
  simp

/-- A hyphen at the end of a word is the mark of an entry. -/
theorem token_entry {s : Layout} {cs : List Char} (hcolumn : 0 < s.place.column)
    (hends : endsWord cs = true) : s.token '-' cs = s.entryMark := by
  have hmarker := atMarker_eq_false ('-' :: cs) hcolumn
  simp only [atMarker, Bool.or_eq_false_iff] at hmarker
  simp [token, hmarker, hends]

/-- The mark of a key is put before the token of the key, and so is that of a map which is not open
yet. -/
theorem valueMark_eq {s : Layout} {t : Token} {before : List Token} {p : Place} {required : Bool}
    (houter : s.outer = []) (hkey : s.key = some ⟨p, required, before.length⟩)
    (hfound : s.found = t :: before) :
    s.valueMark =
      .ok { s with
        place := s.place.right 1
        rest := s.rest.drop 1
        found := .value :: t :: .key ::
          if s.blocks.head?.any (p.column ≤ ·) then before else .blockMap :: before
        blocks := if s.blocks.head?.any (p.column ≤ ·) then s.blocks else p.column :: s.blocks
        key := none
        keyAllowed := false } := by
  have hfirst : before.length + 1 - before.length = 1 := by omega
  have hsecond : before.length + 1 + 1 - before.length = 2 := by omega
  simp only [valueMark, hkey, hfound, List.length_cons, hfirst, List.take_succ_cons, List.take_zero,
    List.drop_succ_cons, List.drop_zero, List.singleton_append]
  by_cases hopen : s.blocks.head?.any (p.column ≤ ·) = true
  · simp [openBlock, hopen, emit, skip, moveTo]
  · have hclosed := Bool.eq_false_of_not_eq_true hopen
    simp [openBlock, hclosed, inBrackets, houter, hsecond, emit, skip, moveTo]

/-- A place where a line begins: it is outside brackets and as deep as all open collections, and a
key may begin there. -/
structure OpensLine (s : Layout) : Prop where
  outer : s.outer = []
  key : s.key = none
  allowed : s.keyAllowed = true
  shallow : ∀ column ∈ s.blocks, column ≤ s.place.column

/-- The search after a key, which it takes for one once it finds a colon. -/
def afterKey (s : Layout) (key : List Char) (required : Bool) (rest : List Char) : Layout :=
  { s with
    place := s.place.right key.length
    rest := rest
    found := .scalar .plain (.ofList key) :: s.found
    key := some ⟨s.place, required, s.found.length⟩
    keyAllowed := false }

/-- The open collections after a mark at a column, which opens one there unless it is open. -/
def opened (column : Nat) (blocks : List Nat) : List Nat :=
  if blocks.head?.any (column ≤ ·) then blocks else column :: blocks

/-- The search after the colon of a key, which opens a map at its column unless one is open. -/
def afterColon (s : Layout) (key rest : List Char) : Layout :=
  { s with
    place := s.place.right (key.length + 1)
    rest := rest
    found := .value :: .scalar .plain (.ofList key) :: .key ::
      if s.blocks.head?.any (s.place.column ≤ ·) then s.found else .blockMap :: s.found
    blocks := opened s.place.column s.blocks
    key := none
    keyAllowed := false }

/-- The colon after a key opens the map of the key, unless it is open, and puts the mark of a key
before the key. -/
theorem reaches_afterColon_of_afterKey {s : Layout} {key rest : List Char} {required : Bool}
    (hs : s.OpensLine) (hends : endsWord rest = true) (hlength : key.length ≤ keyLength) :
    Reaches (s.afterKey key required (':' :: rest)) (s.afterColon key rest) := by
  let s' : Layout := s.afterKey key required (':' :: rest)
  have hkeys : s'.refreshKeys = .ok s' := by
    -- the key is short enough to be still one at its colon
    have hstill : stillKey s'.place s'.key = .ok s'.key := by
      simp [s', afterKey, stillKey, Place.right, hlength]
    have houter : s'.outer.mapM (stillKey s'.place) = .ok s'.outer := by
      rw [show s'.outer = [] from hs.outer]
      rfl
    rw [refreshKeys, hstill]
    simp only [bind, Except.bind, houter]
    rfl
  have hshallow : ∀ column ∈ s'.blocks, column ≤ s'.place.column := fun column hcolumn =>
    (hs.shallow column hcolumn).trans (Nat.le_add_right _ _)
  have hstep := step_eq_token (skipBlanks_of_goesOn rfl) hkeys hshallow
    (show s'.rest = ':' :: rest from rfl)
  have hmark := @valueMark_eq s' _ _ s.place required hs.outer rfl rfl
  rw [token_value hends, hmark] at hstep
  refine reaches_of_step (hstep.trans ?_) (Nat.lt_succ_self _)
  simp [s', afterKey, afterColon, opened, Except.map]

/-- A key and its colon open the map of the key, unless it is open, and give their tokens. -/
theorem reaches_afterColon {s : Layout} {key rest : List Char} (hs : s.OpensLine) (hne : key ≠ [])
    (hkey : ∀ c ∈ key, isKeyChar c = true) (hlength : key.length ≤ keyLength)
    (hends : endsWord rest = true) (hrest : s.rest = key ++ ':' :: rest) :
    Reaches s (s.afterColon key rest) := by
  obtain ⟨c, cs, rfl⟩ := List.exists_cons_of_ne_nil hne
  have hc : isKeyChar c = true := hkey c List.mem_cons_self
  have hblanks : s.skipBlanks = s := skipBlanks_of_goesOn (by rw [hrest]; exact goesOn_key hc)
  have hbegin : s.beginKey = .ok { s with
      key := some ⟨s.place, !s.inBrackets && s.blocks.head? = some s.place.column, s.found.length⟩
      keyAllowed := false } := by
    simp [beginKey, dropKey, hs.allowed, hs.key, Except.map, inBrackets]
  have hread : plain s.inBrackets s.margin s.place s.rest =
      .ok ⟨⟨c :: cs, false⟩, s.place.right (c :: cs).length, ':' :: rest⟩ := by
    rw [inBrackets_eq_false hs.outer, hrest]
    exact plain_key hkey hends
  have hstep := step_eq_token hblanks (refreshKeys_eq_self hs.outer hs.key) hs.shallow hrest
  rw [token_key hc, plainText_eq hbegin hread] at hstep
  refine (reaches_of_step hstep ?_).trans (reaches_afterColon_of_afterKey hs hends hlength)
  rw [hrest]
  simp only [List.length_cons, List.length_append]
  omega

theorem opensLine_atLine (done : List Token) (line : Nat) (rest : List Char) :
    (atLine done line rest).OpensLine where
  outer := rfl
  key := rfl
  allowed := rfl
  shallow column hcolumn := by
    rw [eq_zero_of_mem_blocks_atLine hcolumn]
    exact Nat.zero_le _

/-- The first key opens the map of all lines. -/
theorem reaches_atValue {done : List Token} {key rest : List Char} {line : Nat} (hne : key ≠ [])
    (hkey : ∀ c ∈ key, isKeyChar c = true) (hlength : key.length ≤ keyLength)
    (hends : endsWord rest = true) :
    Reaches (atLine done line (key ++ ':' :: rest)) (atValue done key line rest) := by
  have hcolon := reaches_afterColon (opensLine_atLine done line (key ++ ':' :: rest)) hne hkey
    hlength hends rfl
  have hvalue : (atLine done line (key ++ ':' :: rest)).afterColon key rest =
      atValue done key line rest := by
    by_cases hdone : done = [] <;> simp [afterColon, opened, atLine, atValue, hdone, Place.right]
  rwa [hvalue] at hcolon

/-! ## Pieces -/

/-- A piece after a key ends the line of the key. -/
theorem reaches_atLine_of_value {done : List Token} {key rest : List Char} {line : Nat} {w : Piece}
    (hw : w.Fits 1) (hgo : goesOn rest = true) :
    ∃ line', Reaches (atValue done key line (' ' :: (w.chars ++ '\n' :: rest)))
      (atLine (done ++ [.key, .scalar .plain (.ofList key), .value, w.token]) line' rest) := by
  let s : Layout :=
    { atValue done key line (w.chars ++ '\n' :: rest) with place := ⟨line, key.length + 2⟩ }
  have hspace : Reaches (atValue done key line (' ' :: (w.chars ++ '\n' :: rest))) s :=
    reaches_skipSpace rfl (hw.goesOn _)
  have hfree : s.IsFree := by
    refine ⟨rfl, rfl, fun column hcolumn => ?_⟩
    rw [List.mem_singleton.mp hcolumn]
    exact Nat.succ_pos _
  obtain ⟨line', hpiece⟩ := @hw.reaches s 0 rest hfree rfl rfl Nat.zero_lt_one hgo
  refine ⟨line', ?_⟩
  -- a key may begin on the new line, so it is the start of a line
  have hend : ({ s with
      found := w.token :: s.found
      place := ⟨line', 0⟩
      rest := rest
      keyAllowed := true } : Layout) =
      atLine (done ++ [.key, .scalar .plain (.ofList key), .value, w.token]) line' rest := by
    simp [s, atLine, atValue]
  rw [hend] at hpiece
  exact hspace.trans hpiece

/-- The mark of an item is put after that of its list, which it opens unless it is open. -/
theorem entryMark_eq {s : Layout} (houter : s.outer = []) (hkey : s.key = none)
    (hallowed : s.keyAllowed = true) :
    s.entryMark =
      .ok { s with
        place := s.place.right 1
        rest := s.rest.drop 1
        found := .entry ::
          if s.blocks.head?.any (s.place.column ≤ ·) then s.found else .blockList :: s.found
        blocks :=
          if s.blocks.head?.any (s.place.column ≤ ·) then s.blocks else s.place.column :: s.blocks
        keyAllowed := true } := by
  by_cases hopen : s.blocks.head?.any (s.place.column ≤ ·) = true
  · simp [entryMark, openHere, openBlock, dropKey, inBrackets, houter, hkey, hallowed, hopen, emit,
      skip, moveTo, bind, Except.bind, pure, Except.pure]
  · have hclosed := Bool.eq_false_of_not_eq_true hopen
    simp [entryMark, openHere, openBlock, dropKey, inBrackets, houter, hkey, hallowed, hclosed,
      emit, skip, moveTo, bind, Except.bind, pure, Except.pure]

/-- The items of a list are found on the lines below its key. -/
theorem reaches_atItem_of_value {done : List Token} {key rest : List Char} {line : Nat}
    (hends : endsWord rest = true) :
    Reaches (atValue done key line ('\n' :: ' ' :: ' ' :: '-' :: rest))
      (atItem (.blockList :: (atValue done key line []).found) (line + 1) ('-' :: rest)) := by
  let s : Layout := atValue done key line ('\n' :: ' ' :: ' ' :: '-' :: rest)
  let s₁ : Layout := { s with place := ⟨line + 1, 2⟩, rest := '-' :: rest, keyAllowed := true }
  let t : Layout := atItem (.blockList :: (atValue done key line []).found) (line + 1) ('-' :: rest)
  have hblanks : s.skipBlanks = s₁ := @skipBlanks_line s 2 ('-' :: rest) rfl rfl rfl
  have hstep := @step_eq_token s s₁ s₁ '-' rest hblanks (refreshKeys_eq_self rfl rfl)
    (by simp [s₁, s, atValue]) rfl
  have hstep' := @step_eq_token t t t '-' rest (skipBlanks_of_goesOn rfl)
    (refreshKeys_eq_self rfl rfl) (by simp [t, atItem, afterItem]) rfl
  -- the hyphen opens the list unless it is open, so both searches go on alike
  have hmark : s₁.entryMark = t.entryMark := by
    rw [entryMark_eq rfl rfl rfl, entryMark_eq rfl rfl rfl]
    rfl
  refine reaches_of_step_eq ?_ ?_
  · show s.step = t.step
    rw [hstep, hstep', token_entry Nat.zero_lt_two hends, token_entry Nat.zero_lt_two hends, hmark]
  · show ('-' :: rest).length ≤ ('\n' :: ' ' :: ' ' :: '-' :: rest).length
    simp only [List.length_cons]
    omega

/-- An item is a mark and a piece. -/
theorem reaches_afterItem {found : List Token} {rest : List Char} {line k : Nat} {w : Piece}
    (hw : w.Fits 3) (hk : k < 3) (hgo : goesOn rest = true) :
    ∃ line', Reaches
      (atItem found line ('-' :: ' ' :: (w.chars ++ '\n' :: (List.replicate k ' ' ++ rest))))
      (afterItem (w.token :: .entry :: found) line' k rest) := by
  let piece := w.chars ++ '\n' :: (List.replicate k ' ' ++ rest)
  let s : Layout := atItem found line ('-' :: ' ' :: piece)
  let t : Layout := { atItem (.entry :: found) line (' ' :: piece) with place := ⟨line, 3⟩ }
  let t₁ : Layout := { t with place := ⟨line, 4⟩, rest := piece }
  have hmark : Reaches s t := by
    have hstep := @step_eq_token s s s '-' (' ' :: piece) (skipBlanks_of_goesOn rfl)
      (refreshKeys_eq_self rfl rfl) (by simp [s, atItem, afterItem]) rfl
    rw [token_entry Nat.zero_lt_two rfl, entryMark_eq rfl rfl rfl] at hstep
    exact reaches_of_step hstep (Nat.lt_succ_self _)
  have hspace : Reaches t t₁ := reaches_skipSpace rfl (hw.goesOn _)
  have hfree : t₁.IsFree := ⟨rfl, rfl, by simp [t₁, t, atItem, afterItem]⟩
  obtain ⟨line', hpiece⟩ := @hw.reaches t₁ k rest hfree rfl rfl hk hgo
  exact ⟨line', (hmark.trans hspace).trans hpiece⟩

/-- A line with less indentation closes the list. -/
theorem reaches_atLine_of_afterItem {done found : List Token} {line : Nat} {rest : List Char}
    (hfound : .blockEnd :: found = (.blockMap :: done).reverse) (hne : done ≠ [])
    (hgo : goesOn rest = true) :
    Reaches (afterItem found line 0 rest) (atLine done line rest) := by
  refine reaches_of_step_eq ?_ le_rfl
  -- the first step at the shallow line gives the end of the list before any other token
  have hclose : (afterItem found line 0 rest).closeDeeper 0 = atLine done line rest := by
    rw [atLine, if_neg hne, if_neg hne, ← hfound]
    rfl
  have hshallow : ∀ column ∈ (atLine done line rest).blocks, column ≤ 0 := fun _ hcolumn =>
    Nat.le_of_eq (eq_zero_of_mem_blocks_atLine hcolumn)
  rw [step_eq_next (skipBlanks_of_goesOn hgo) (refreshKeys_eq_self rfl rfl) hclose,
    step_eq_next (skipBlanks_of_goesOn hgo) (refreshKeys_eq_self rfl rfl)
      (closeDeeper_eq_self hshallow)]

end Layout

end DagScaffold.Yaml

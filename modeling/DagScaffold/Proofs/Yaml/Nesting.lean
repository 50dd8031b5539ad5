import Mathlib
import DagScaffold.Proofs.Yaml.Members

/-!
# The tokens of nested lines

The lines of a map may stand below a key of another map, with more indentation, and blank lines may
divide them. The search for tokens is followed over such lines at any column.

* `Line` : a key, a key with a text or an item, at a column;
* `Nest`, `Nest.after` : what the search remembers at the start of a line, and after a line;
* `Layout.reaches_lines` : the search over some lines;
* `tokens_linesBefore` : the tokens of a document of lines.
-/

namespace DagScaffold.Yaml

open Written

/-! ## Lines -/

/-- A line with a key that has lines below it, with a key and a text or with an item, and the number
of blank lines after it. -/
inductive Line where
  | heading (column : Nat) (key : String)
  | member (column : Nat) (key text : String) (blanks : Nat)
  | item (column : Nat) (text : String) (blanks : Nat)
  deriving DecidableEq, Repr

namespace Line

/-- The column at which a line begins. -/
def column : Line → Nat
  | heading column _ => column
  | member column _ _ _ => column
  | item column _ _ => column

/-- A line without its indentation, with the blank lines after it. -/
def chars : Line → List Char
  | heading _ key => key.toList ++ [':', '\n']
  | member _ key text blanks =>
    key.toList ++ ':' :: ' ' :: (text.toList ++ '\n' :: List.replicate blanks '\n')
  | item _ text blanks => '-' :: ' ' :: (text.toList ++ '\n' :: List.replicate blanks '\n')

/-- The token that opens the collection of a line. -/
def opening : Line → Token
  | heading _ _ => .blockMap
  | member _ _ _ _ => .blockMap
  | item _ _ _ => .blockList

/-- The tokens of a line in an open collection. -/
def tokens : Line → List Token
  | heading _ key => [.key, .scalar .plain key, .value]
  | member _ key text _ => [.key, .scalar .plain key, .value, .scalar .plain text]
  | item _ text _ => [.entry, .scalar .plain text]

/-- Whether a line can be read before a line at the column `next`. -/
def Fits (next : Nat) : Line → Prop
  | heading _ key => IsKey key
  | member column key text _ => IsKey key ∧ Inline text.toList ∧ next ≤ column
  | item column text _ => 0 < column ∧ Inline text.toList ∧ next ≤ column

end Line

/-- The column at which the first one of some lines begins, or `next` if there is none. -/
def firstColumn (next : Nat) : List Line → Nat
  | [] => next
  | l :: _ => l.column

/-- Some lines without the indentation of the first one, before a text at the column `next`. -/
def linesBefore (next : Nat) (rest : List Char) : List Line → List Char
  | [] => rest
  | l :: ls => l.chars ++ (List.replicate (firstColumn next ls) ' ' ++ linesBefore next rest ls)

/-- Whether some lines can be read one after the other. -/
def LinesFit (next : Nat) : List Line → Prop
  | [] => True
  | l :: ls => l.Fits (firstColumn next ls) ∧ LinesFit next ls

/-- The first column of some lines before others is known from both. -/
theorem firstColumn_append (next : Nat) (ls ms : List Line) :
    firstColumn next (ls ++ ms) = firstColumn (firstColumn next ms) ls := by
  cases ls <;> rfl

/-- Some lines before others, and these before a text. -/
theorem linesBefore_append (next : Nat) (rest : List Char) (ls ms : List Line) :
    linesBefore next rest (ls ++ ms) =
      linesBefore (firstColumn next ms) (linesBefore next rest ms) ls := by
  induction ls with
  | nil => rfl
  | cons l ls ih =>
      rw [List.cons_append, linesBefore, ih, firstColumn_append]
      rfl

/-- Lines can be read one after the other when the front ones can before the back ones. -/
theorem LinesFit.append {next : Nat} {ls ms : List Line} (hls : LinesFit (firstColumn next ms) ls)
    (hms : LinesFit next ms) : LinesFit next (ls ++ ms) := by
  induction ls with
  | nil => exact hms
  | cons l ls ih =>
      rw [List.cons_append, LinesFit, firstColumn_append]
      exact ⟨hls.1, ih hls.2⟩

/-- A line opens with its key or with a hyphen. -/
theorem Line.Fits.goesOn {l : Line} {next : Nat} (hl : l.Fits next) (rest : List Char) :
    Yaml.goesOn (l.chars ++ rest) = true := by
  cases l with
  | heading column key =>
      rw [chars, List.append_assoc]
      exact IsKey.goesOn hl _
  | member column key text blanks =>
      rw [chars, List.append_assoc]
      exact hl.1.goesOn _
  | item column text blanks => rfl

/-- No line is the end of the document. -/
theorem goesOn_linesBefore {ls : List Line} {next : Nat} {rest : List Char} (hls : LinesFit next ls)
    (hrest : goesOn rest = true) : goesOn (linesBefore next rest ls) = true := by
  cases ls with
  | nil => exact hrest
  | cons l ls => exact hls.1.goesOn _

/-- Lines that fit can be shown. -/
theorem Line.Fits.isPrintable {l : Line} {next : Nat} (hl : l.Fits next) {c : Char}
    (hc : c ∈ l.chars) :
    Written.isPrintable c = true := by
  cases l with
  | heading column key =>
      simp only [chars, List.mem_append, List.mem_cons, List.not_mem_nil, or_false] at hc
      rcases hc with hc | rfl | rfl
      · exact IsKey.isPrintable hl hc
      · decide
      · decide
  | member column key text blanks =>
      simp only [chars, List.mem_append, List.mem_cons, List.mem_replicate] at hc
      rcases hc with hc | rfl | rfl | hc | rfl | ⟨-, rfl⟩
      · exact hl.1.isPrintable hc
      · decide
      · decide
      · exact hl.2.1.isPrintable hc
      · decide
      · decide
  | item column text blanks =>
      simp only [chars, List.mem_append, List.mem_cons, List.mem_replicate] at hc
      rcases hc with rfl | rfl | hc | rfl | ⟨-, rfl⟩
      · decide
      · decide
      · exact hl.2.1.isPrintable hc
      · decide
      · decide

/-- Lines that fit are printable. -/
theorem isPrintable_of_mem_linesBefore {ls : List Line} {next : Nat} {rest : List Char}
    (hls : LinesFit next ls) (hrest : ∀ c ∈ rest, Written.isPrintable c = true) :
    ∀ c ∈ linesBefore next rest ls, Written.isPrintable c = true := by
  induction ls with
  | nil => exact hrest
  | cons l ls ih =>
      intro c hc
      rw [linesBefore, List.mem_append, List.mem_append] at hc
      rcases hc with hc | hc | hc
      · exact hls.1.isPrintable hc
      · rw [List.eq_of_mem_replicate hc]
        decide
      · exact ih hls.2 c hc

/-! ## What the search remembers -/

/-- The tokens before a line, and the columns of the open collections, the innermost one first. -/
structure Nest where
  done : List Token := []
  blocks : List Nat := []
  deriving DecidableEq, Repr

namespace Nest

/-- Closes the collections that are deeper than a column. -/
def closed (s : Nest) (column : Nat) : Nest where
  done := s.done ++ List.replicate (s.blocks.takeWhile (column < ·)).length .blockEnd
  blocks := s.blocks.dropWhile (column < ·)

/-- Opens a collection at a column unless it is open. -/
def opened (s : Nest) (column : Nat) (t : Token) : Nest where
  done := if s.blocks.head?.any (column ≤ ·) then s.done else s.done ++ [t]
  blocks := Layout.opened column s.blocks

/-- Adds tokens. -/
def add (s : Nest) (ts : List Token) : Nest :=
  { s with done := s.done ++ ts }

/-- What the search remembers after a line. -/
def after (s : Nest) (l : Line) : Nest :=
  ((s.closed l.column).opened l.column l.opening).add l.tokens

/-- Opening a collection adds its token unless the collection is open. -/
theorem reverse_done_opened (s : Nest) (column : Nat) (t : Token) :
    (s.opened column t).done.reverse =
      if s.blocks.head?.any (column ≤ ·) then s.done.reverse else t :: s.done.reverse := by
  rw [opened]
  split_ifs <;> simp

/-- Whether every open collection is deeper than those around it. -/
def Ordered (s : Nest) : Prop :=
  s.blocks.Pairwise (· > ·)

/-- What is left open is no deeper than the column. -/
theorem le_of_mem_closed {s : Nest} (hs : s.Ordered) (column : Nat) :
    ∀ other ∈ (s.closed column).blocks, other ≤ column := by
  intro other hmem
  have hordered : (s.closed column).Ordered := hs.sublist (List.dropWhile_sublist _)
  cases hblocks : (s.closed column).blocks with
  | nil =>
      rw [hblocks] at hmem
      exact absurd hmem List.not_mem_nil
  | cons first blocks =>
      have hfirst : first ≤ column := by
        have hhead := List.head?_dropWhile_not (column < ·) s.blocks
        rw [show s.blocks.dropWhile (column < ·) = first :: blocks from hblocks] at hhead
        simpa using hhead
      rw [Ordered, hblocks, List.pairwise_cons] at hordered
      rw [hblocks] at hmem
      rcases List.mem_cons.mp hmem with rfl | hmem
      · exact hfirst
      · exact (hordered.1 other hmem).le.trans hfirst

/-- After a line the open collections are still deeper than those around them. -/
theorem Ordered.after {s : Nest} (hs : s.Ordered) (l : Line) : (s.after l).Ordered := by
  have hclosed : (s.closed l.column).Ordered := hs.sublist (List.dropWhile_sublist _)
  have hshallow := le_of_mem_closed hs l.column
  show (Layout.opened l.column (s.closed l.column).blocks).Pairwise (· > ·)
  rw [Ordered] at hclosed
  generalize (s.closed l.column).blocks = blocks at hclosed hshallow
  rw [Layout.opened]
  split_ifs with hopen
  · exact hclosed
  · -- the innermost collection is less deep than the new one, and the others less deep than it
    refine List.pairwise_cons.mpr ⟨fun other hmem => ?_, hclosed⟩
    cases blocks with
    | nil => exact absurd hmem List.not_mem_nil
    | cons first blocks =>
        have hfirst : first < l.column := by simpa using hopen
        rcases List.mem_cons.mp hmem with rfl | hmem
        · exact hfirst
        · exact ((List.pairwise_cons.mp hclosed).1 other hmem).trans hfirst

/-- After some lines the open collections are still deeper than those around them. -/
theorem Ordered.foldl_after {s : Nest} (hs : s.Ordered) (ls : List Line) :
    (ls.foldl Nest.after s).Ordered := by
  induction ls generalizing s with
  | nil => exact hs
  | cons l ls ih => exact ih (hs.after l)

end Nest

namespace Layout

/-! ## Texts -/

/-- A plain text at the end of a line is one token. -/
theorem reaches_text {s : Layout} {text : String} {rest : List Char} {n k : Nat}
    (htext : Inline text.toList) (hs : s.IsFree) (hk : k < s.margin) (hgo : goesOn rest = true)
    (hrest : s.rest = text.toList ++ '\n' ::
      (List.replicate n '\n' ++ (List.replicate k ' ' ++ rest))) :
    Reaches s { s with
      place := ⟨s.place.line + (n + 1), k⟩
      rest := rest
      found := .scalar .plain text :: s.found
      keyAllowed := true } := by
  obtain ⟨start, hbegin, hstart⟩ := hs.beginKey
  obtain ⟨c, tail, hcons⟩ := List.exists_cons_of_ne_nil htext.ne_nil
  have hblanks : s.skipBlanks = s := skipBlanks_of_goesOn (by rw [hrest]; exact htext.goesOn _)
  have hopen : s.rest =
      c :: (tail ++ '\n' :: (List.replicate n '\n' ++ (List.replicate k ' ' ++ rest))) := by
    rw [hrest, hcons, List.cons_append]
  have hcolumn : 0 < s.place.column := (Nat.zero_lt_of_lt hk).trans_le hs.margin_le
  have hread : plain s.inBrackets s.margin s.place s.rest =
      .ok ⟨⟨text.toList, true⟩, ⟨s.place.line + (n + 1), k⟩, rest⟩ := by
    rw [inBrackets_eq_false hs.outer, hrest]
    exact htext.plain hk hs.margin_le hgo
  have hstep := step_eq_token hblanks (refreshKeys_eq_self hs.outer hs.key)
    (fun column hmem => (hs.deeper column hmem).le) hopen
  rw [token_inline (hcons ▸ htext) hs.outer hcolumn, plainText_eq hbegin hread,
    String.ofList_toList] at hstep
  -- the text could have been a key on its own line only
  have hforget := @reaches_forgetKey
    { s with
      place := ⟨s.place.line + (n + 1), k⟩
      rest := rest
      found := .scalar .plain text :: s.found
      key := start
      keyAllowed := true } hs.outer hgo fun start' hstart' => by
        obtain ⟨hrequired, hsame⟩ := hstart start' hstart'
        refine ⟨hrequired, ?_⟩
        rw [hsame]
        exact Nat.lt_add_of_pos_right (Nat.succ_pos n)
  have hlength : rest.length < s.rest.length := by
    rw [hrest]
    simp only [List.length_append, List.length_cons]
    omega
  have hreach := (reaches_of_step hstep hlength).trans hforget
  rw [hs.key]
  exact hreach

/-! ## Lines -/

variable {s : Nest} {key text : String} {rest : List Char} {line column n k : Nat}

/-- The search at the first character of a line. -/
def lineAt (s : Nest) (line column : Nat) (rest : List Char) : Layout where
  place := ⟨line, column⟩
  rest := rest
  found := s.done.reverse
  blocks := s.blocks

/-- The search stands where a line of the open collections begins. -/
theorem opensLine_lineAt (hshallow : ∀ other ∈ s.blocks, other ≤ column) (line : Nat)
    (rest : List Char) :
    (lineAt s line column rest).OpensLine :=
  ⟨rfl, rfl, rfl, hshallow⟩

/-- A line with less indentation closes the collections that are deeper. -/
theorem reaches_closed (hs : s.Ordered) (hgo : goesOn rest = true) :
    Reaches (lineAt s line column rest) (lineAt (s.closed column) line column rest) := by
  have hclose : (lineAt s line column rest).closeDeeper column =
      lineAt (s.closed column) line column rest := by
    simp [closeDeeper, lineAt, Nest.closed, inBrackets]
  have hblanks (t : Nest) : (lineAt t line column rest).skipBlanks = lineAt t line column rest :=
    skipBlanks_of_goesOn hgo
  have hclosed : (lineAt (s.closed column) line column rest).closeDeeper column =
      lineAt (s.closed column) line column rest :=
    closeDeeper_eq_self (Nest.le_of_mem_closed hs column)
  refine reaches_of_step_eq ?_ le_rfl
  rw [step_eq_next (hblanks s) (refreshKeys_eq_self rfl rfl) hclose,
    step_eq_next (hblanks _) (refreshKeys_eq_self rfl rfl) hclosed]

/-- The search behind the mark of a line: the colon of a key, or the hyphen of an item. -/
def markedAt (s : Nest) (keyAllowed : Bool) (line column : Nat) (rest : List Char) : Layout :=
  { lineAt s line column rest with keyAllowed := keyAllowed }

/-- Behind its mark a line is free for a text. -/
theorem isFree_markedAt (hshallow : ∀ other ∈ s.blocks, other ≤ column) (keyAllowed : Bool)
    (t : Token) (ts : List Token) (hn : 0 < n) :
    (markedAt ((s.opened column t).add ts) keyAllowed line (column + n) rest).IsFree where
  outer := rfl
  key := rfl
  deeper other hmem := by
    have hle : other ≤ column := by
      change other ∈ opened column s.blocks at hmem
      rw [opened] at hmem
      split_ifs at hmem
      · exact hshallow other hmem
      · rcases List.mem_cons.mp hmem with rfl | hmem
        · exact le_rfl
        · exact hshallow other hmem
    show other < column + n
    omega

/-- What belongs to a mark is deeper than the line of the mark. -/
theorem margin_markedAt (hshallow : ∀ other ∈ s.blocks, other ≤ column) (keyAllowed : Bool)
    (t : Token) (ts : List Token) :
    (markedAt ((s.opened column t).add ts) keyAllowed line n rest).margin = column + 1 := by
  have hblocks : (markedAt ((s.opened column t).add ts) keyAllowed line n rest).blocks =
      opened column s.blocks := rfl
  rw [margin, hblocks, opened]
  cases h : s.blocks with
  | nil => rfl
  | cons other blocks =>
      have hle : other ≤ column := hshallow other (h ▸ List.mem_cons_self)
      by_cases hopen : column ≤ other
      · simp [Nat.le_antisymm hle hopen]
      · simp [hopen]

/-- The search goes over a key and its colon. -/
theorem reaches_colon (hshallow : ∀ other ∈ s.blocks, other ≤ column) (hkey : IsKey key)
    (hends : endsWord rest = true) :
    Reaches (lineAt s line column (key.toList ++ ':' :: rest))
      (markedAt ((s.opened column .blockMap).add [.key, .scalar .plain key, .value]) false line
        (column + (key.toList.length + 1)) rest) := by
  have hcolon := reaches_afterColon (opensLine_lineAt hshallow line (key.toList ++ ':' :: rest))
    hkey.ne_nil (List.all_eq_true.mp hkey.chars) hkey.short hends rfl
  have hmarked : (lineAt s line column (key.toList ++ ':' :: rest)).afterColon key.toList rest =
      markedAt ((s.opened column .blockMap).add [.key, .scalar .plain key, .value]) false line
        (column + (key.toList.length + 1)) rest := by
    simp only [afterColon, markedAt, lineAt, Nest.add, List.reverse_append,
      Nest.reverse_done_opened]
    rw [String.ofList_toList]
    rfl
  rwa [hmarked] at hcolon

/-- The search goes over the hyphen of an item. -/
theorem reaches_hyphen (hshallow : ∀ other ∈ s.blocks, other ≤ column) (hcolumn : 0 < column)
    (hends : endsWord rest = true) :
    Reaches (lineAt s line column ('-' :: rest))
      (markedAt ((s.opened column .blockList).add [.entry]) true line (column + 1) rest) := by
  have hline := opensLine_lineAt hshallow line ('-' :: rest)
  have hstep := step_eq_token (skipBlanks_of_goesOn rfl)
    (refreshKeys_eq_self hline.outer hline.key) hline.shallow
    (show (lineAt s line column ('-' :: rest)).rest = '-' :: rest from rfl)
  rw [token_entry hcolumn hends, entryMark_eq hline.outer hline.key hline.allowed] at hstep
  refine reaches_of_step (hstep.trans ?_) (Nat.lt_succ_self _)
  simp only [markedAt, lineAt, Nest.add, List.reverse_append, Nest.reverse_done_opened]
  rfl

/-- A text behind a mark ends the line of the mark. -/
theorem reaches_lineAt_of_text {keyAllowed : Bool} {t : Token} {ts : List Token}
    (hshallow : ∀ other ∈ s.blocks, other ≤ column) (htext : Inline text.toList) (hk : k ≤ column)
    (hgo : goesOn rest = true) (width : Nat) :
    Reaches (markedAt ((s.opened column t).add ts) keyAllowed line (column + width)
        (' ' :: (text.toList ++ '\n' :: (List.replicate n '\n' ++ (List.replicate k ' ' ++ rest)))))
      (lineAt ((s.opened column t).add (ts ++ [.scalar .plain text])) (line + (n + 1)) k rest) := by
  let more := text.toList ++ '\n' :: (List.replicate n '\n' ++ (List.replicate k ' ' ++ rest))
  let s' : Layout := markedAt ((s.opened column t).add ts) keyAllowed line
    (column + (width + 1)) more
  have hspace : Reaches (markedAt ((s.opened column t).add ts) keyAllowed line (column + width)
      (' ' :: more)) s' :=
    reaches_skipSpace rfl (htext.goesOn _)
  have hmargin : s'.margin = column + 1 := margin_markedAt hshallow keyAllowed t ts
  have hfree : s'.IsFree := isFree_markedAt hshallow keyAllowed t ts (Nat.succ_pos width)
  have htoken := reaches_text htext hfree (by omega) hgo (show s'.rest = more from rfl)
  have hline : lineAt ((s.opened column t).add (ts ++ [.scalar .plain text]))
      (line + (n + 1)) k rest =
      { s' with
        place := ⟨line + (n + 1), k⟩
        rest := rest
        found := .scalar .plain text :: s'.found
        keyAllowed := true } := by
    simp [s', markedAt, lineAt, Nest.add]
  rw [hline]
  exact hspace.trans htoken

/-- No item can begin behind a key. -/
theorem run_hyphen (hshallow : ∀ other ∈ s.blocks, other ≤ column) (t : Token) (ts : List Token)
    (width : Nat) (hends : endsWord rest = true) (fuel : Nat) :
    run (fuel + 1) (markedAt ((s.opened column t).add ts) false line (column + (width + 1))
      ('-' :: rest)) =
      .error .misplacedIndicator := by
  let s' : Layout := markedAt ((s.opened column t).add ts) false line (column + (width + 1))
    ('-' :: rest)
  have hfree : s'.IsFree := isFree_markedAt hshallow false t ts (Nat.succ_pos width)
  have hstep := step_eq_token (skipBlanks_of_goesOn rfl) (refreshKeys_eq_self hfree.outer hfree.key)
    (fun other hmem => (hfree.deeper other hmem).le) (show s'.rest = '-' :: rest from rfl)
  rw [token_entry (show 0 < s'.place.column from Nat.succ_pos _) hends] at hstep
  rw [run_succ, hstep]
  rfl

/-- The lines below a key begin at any column. -/
theorem reaches_lineAt_of_break (hgo : goesOn rest = true) :
    Reaches (markedAt s false line column ('\n' :: (List.replicate k ' ' ++ rest)))
      (lineAt s (line + 1) k rest) := by
  let s' : Layout := markedAt s false line column ('\n' :: (List.replicate k ' ' ++ rest))
  have hblanks : s'.skipBlanks = lineAt s (line + 1) k rest := skipBlanks_line rfl rfl hgo
  refine reaches_of_step_eq ?_ ?_
  · rw [← hblanks]
    exact (step_skipBlanks (by rw [hblanks]; exact hgo)).symm
  · show rest.length ≤ ('\n' :: (List.replicate k ' ' ++ rest)).length
    simp only [List.length_cons, List.length_append]
    omega

/-- The search goes over a line to the line after it. -/
theorem reaches_line (hs : s.Ordered) {l : Line} (hl : l.Fits k) (hgo : goesOn rest = true) :
    ∃ line', Reaches (lineAt s line l.column (l.chars ++ (List.replicate k ' ' ++ rest)))
      (lineAt (s.after l) line' k rest) := by
  have hshallow := Nest.le_of_mem_closed hs l.column
  have hfirst := hl.goesOn (List.replicate k ' ' ++ rest)
  cases l with
  | heading column key =>
      refine ⟨line + 1, (reaches_closed hs hfirst).trans ?_⟩
      have hchars : (Line.heading column key).chars ++ (List.replicate k ' ' ++ rest) =
          key.toList ++ ':' :: '\n' :: (List.replicate k ' ' ++ rest) := by
        simp [Line.chars]
      rw [hchars]
      exact (reaches_colon hshallow hl rfl).trans (reaches_lineAt_of_break hgo)
  | member column key text blanks =>
      obtain ⟨hkey, htext, hk⟩ := hl
      refine ⟨line + (blanks + 1), (reaches_closed hs hfirst).trans ?_⟩
      have hchars : (Line.member column key text blanks).chars ++ (List.replicate k ' ' ++ rest) =
          key.toList ++ ':' :: ' ' ::
            (text.toList ++ '\n' :: (List.replicate blanks '\n' ++
              (List.replicate k ' ' ++ rest))) := by
        simp [Line.chars]
      rw [hchars]
      exact (reaches_colon hshallow hkey rfl).trans (reaches_lineAt_of_text hshallow htext hk hgo _)
  | item column text blanks =>
      obtain ⟨hcolumn, htext, hk⟩ := hl
      refine ⟨line + (blanks + 1), (reaches_closed hs hfirst).trans ?_⟩
      have hchars : (Line.item column text blanks).chars ++ (List.replicate k ' ' ++ rest) =
          '-' :: ' ' ::
            (text.toList ++ '\n' :: (List.replicate blanks '\n' ++
              (List.replicate k ' ' ++ rest))) := by
        simp [Line.chars]
      rw [hchars]
      exact (reaches_hyphen hshallow hcolumn rfl).trans
        (reaches_lineAt_of_text hshallow htext hk hgo _)

/-- The search goes over some lines to the line after them. -/
theorem reaches_lines (hs : s.Ordered) {ls : List Line} (hls : LinesFit k ls)
    (hgo : goesOn rest = true) :
    ∃ line', Reaches (lineAt s line (firstColumn k ls) (linesBefore k rest ls))
      (lineAt (ls.foldl Nest.after s) line' k rest) := by
  induction ls generalizing s line with
  | nil => exact ⟨line, Reaches.refl _⟩
  | cons l ls ih =>
      obtain ⟨hl, hls⟩ := hls
      obtain ⟨line₁, hfirst⟩ := reaches_line hs hl (goesOn_linesBefore hls hgo)
      obtain ⟨line₂, hothers⟩ := ih (hs.after l) hls
      exact ⟨line₂, hfirst.trans hothers⟩

/-- At the end of the text all collections are closed. -/
theorem run_lineAt_nil (hshallow : ∀ other ∈ s.blocks, other ≤ column) (fuel : Nat) :
    run (fuel + 1) (lineAt s line column []) =
      .ok (s.done ++ List.replicate s.blocks.length .blockEnd) := by
  have hline := opensLine_lineAt hshallow line []
  have hstep := step_eq_next (skipBlanks_of_goesOn rfl) (refreshKeys_eq_self hline.outer hline.key)
    (closeDeeper_eq_self hline.shallow)
  have hend : (lineAt s line column []).next = .ok ((lineAt s line column []).closeAll, false) :=
    rfl
  rw [run_succ, hstep, hend]
  simp [Except.bind, closeAll, inBrackets, lineAt]

end Layout

/-! ## Documents of lines -/

/-- The tokens of a document of lines are those that the search remembers after its last line, and
the ends of the collections that are still open. -/
theorem tokens_linesBefore {ls : List Line} {s : Nest} (hls : LinesFit 0 ls)
    (hfirst : firstColumn 0 ls = 0) (hs : (ls.foldl Nest.after {}).closed 0 = s) :
    tokens (linesBefore 0 [] ls) = .ok (s.done ++ List.replicate s.blocks.length .blockEnd) := by
  subst hs
  have hempty : ({} : Nest).Ordered := List.Pairwise.nil
  have hordered := hempty.foldl_after ls
  obtain ⟨line, hlines⟩ := @Layout.reaches_lines {} [] 0 0 hempty ls hls rfl
  rw [hfirst] at hlines
  obtain ⟨fuel, htokens⟩ := (hlines.trans (Layout.reaches_closed hordered rfl)).exists_tokens_eq
  rw [htokens]
  exact Layout.run_lineAt_nil (Nest.le_of_mem_closed hordered 0) fuel

/-- A document has no tokens when a line after its first ones has a lone hyphen behind its key. -/
theorem tokens_hyphen {ls : List Line} {s : Nest} {key : String} {rest : List Char} {column : Nat}
    (hls : LinesFit column ls) (hfirst : firstColumn column ls = 0)
    (hs : ls.foldl Nest.after {} = s) (hshallow : ∀ other ∈ s.blocks, other ≤ column)
    (hkey : IsKey key) (hends : endsWord rest = true) :
    tokens (linesBefore column (key.toList ++ ':' :: ' ' :: '-' :: rest) ls) =
      .error .misplacedIndicator := by
  subst hs
  have hempty : ({} : Nest).Ordered := List.Pairwise.nil
  obtain ⟨line, hlines⟩ := @Layout.reaches_lines {} _ 0 column hempty ls hls (hkey.goesOn _)
  rw [hfirst] at hlines
  have hcolon := @Layout.reaches_colon _ key (' ' :: '-' :: rest) line column hshallow hkey rfl
  have hhyphen := (hlines.trans hcolon).trans (Layout.reaches_skipSpace rfl rfl)
  obtain ⟨fuel, htokens⟩ := hhyphen.exists_tokens_eq
  rw [htokens]
  exact Layout.run_hyphen hshallow .blockMap [.key, .scalar .plain key, .value]
    (key.toList.length + 1) hends fuel

end DagScaffold.Yaml

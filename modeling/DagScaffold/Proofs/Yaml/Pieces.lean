import Mathlib
import DagScaffold.Proofs.Yaml.ReadBack
import DagScaffold.Proofs.Yaml.Steps

/-!
# The tokens of written texts

The written form of a text at the end of a line is one token, whatever follows on the next line, if
that has less indentation than the place of the text.

* `Piece` : a written form with what it is read as;
* `Piece.Fits` : the piece is one token where the margin is `margin`;
* `Piece.fits_ofWord`, `Piece.fits_ofText`, `Piece.fits_ofItem` : words, and the texts of keys and
  of lists.
-/

namespace DagScaffold.Yaml

open Written

namespace Layout

/-! ## The tokens of words -/

/-- A mark of a document starts with its character. -/
theorem isMarker_eq_false {marker c : Char} {p : Place} (cs : List Char) (h : c ≠ marker) :
    isMarker marker p (c :: cs) = false := by
  unfold isMarker
  split
  next heq =>
    obtain ⟨rfl, -⟩ := List.cons_eq_cons.mp heq
    simp [h]
  next => rfl

/-- A single quote opens a quoted text. -/
theorem token_single (s : Layout) (cs : List Char) : s.token '\'' cs = s.quotedText .single := by
  rw [token, isMarker_eq_false cs (by decide), isMarker_eq_false cs (by decide)]
  simp

/-- A double quote opens a quoted text. -/
theorem token_double (s : Layout) (cs : List Char) : s.token '"' cs = s.quotedText .double := by
  rw [token, isMarker_eq_false cs (by decide), isMarker_eq_false cs (by decide)]
  simp

/-- A plain text begins where no mark does. -/
theorem token_plain {s : Layout} {c : Char} {cs : List Char} (hmark : c ∉ openingMarks)
    (hshown : isShown c = true) (hmarker : atMarker s.place (c :: cs) = false)
    (hword : c = '-' ∨ c = '?' ∨ c = ':' → s.inBrackets = false ∧ endsWord cs = false) :
    s.token c cs = s.plainText := by
  have htab := ne_tab_of_isShown hshown
  simp only [openingMarks, List.mem_cons, List.not_mem_nil, or_false, not_or] at hmark
  simp only [atMarker, Bool.or_eq_false_iff] at hmarker
  have hdash : (decide (c = '-') && endsWord cs) = false := by
    by_cases h : c = '-'
    · rw [(hword (.inl h)).2, Bool.and_false]
    · rw [decide_eq_false h, Bool.false_and]
  have hquestion : (decide (c = '?') && (s.inBrackets || endsWord cs)) = false := by
    by_cases h : c = '?'
    · obtain ⟨hout, hends⟩ := hword (.inr (.inl h))
      rw [hout, hends, Bool.or_self, Bool.and_false]
    · rw [decide_eq_false h, Bool.false_and]
  have hcolon : (decide (c = ':') && (s.inBrackets || endsWord cs)) = false := by
    by_cases h : c = ':'
    · obtain ⟨hout, hends⟩ := hword (.inr (.inr h))
      rw [hout, hends, Bool.or_self, Bool.and_false]
    · rw [decide_eq_false h, Bool.false_and]
  have hstarts : startsNothing c = false := by
    simp [startsNothing, hmark, htab]
  simp [token, hmark, hmarker, hdash, hquestion, hcolon, hstarts]

/-- What a search remembers after a quoted text. -/
theorem quotedText_eq {s : Layout} {key : Option KeyStart} {style : Style} {text : String}
    {p : Place} {rest : List Char}
    (hbegin : s.beginKey = .ok { s with key := key, keyAllowed := false })
    (hread : quoted (style = .single) (s.place.right 1) s.rest.tail = .ok ⟨text.toList, p, rest⟩) :
    s.quotedText style =
      .ok { s with
        key := key
        found := .scalar style text :: s.found
        place := p
        rest := rest
        keyAllowed := false } := by
  simp only [quotedText, hbegin, bind, Except.bind, hread, pure, Except.pure, emit, moveTo,
    String.ofList_toList]

/-- What a search remembers after a plain text. -/
theorem plainText_eq {s : Layout} {key : Option KeyStart} {cs : List Char} {endsLine : Bool}
    {p : Place} {rest : List Char}
    (hbegin : s.beginKey = .ok { s with key := key, keyAllowed := false })
    (hread : plain s.inBrackets s.margin s.place s.rest = .ok ⟨⟨cs, endsLine⟩, p, rest⟩) :
    s.plainText =
      .ok { s with
        key := key
        found := .scalar .plain (.ofList cs) :: s.found
        place := p
        rest := rest
        keyAllowed := endsLine } := by
  have hsame : plain ({ s with key := key, keyAllowed := false } : Layout).inBrackets
      ({ s with key := key, keyAllowed := false } : Layout).margin s.place s.rest =
      .ok ⟨⟨cs, endsLine⟩, p, rest⟩ := hread
  simp only [plainText, hbegin, bind, Except.bind, hsame, pure, Except.pure, emit, moveTo]

/-- A text that can be written inside a line opens a plain text there. -/
theorem token_inline {s : Layout} {c : Char} {cs : List Char} (h : Inline (c :: cs))
    (houter : s.outer = []) (hcolumn : 0 < s.place.column) (rest : List Char) :
    s.token c (cs ++ rest) = s.plainText := by
  have hmark := h.mark
  simp only [opensWithMark, Bool.or_eq_false_iff, decide_eq_false_iff_not] at hmark
  have hcolon := h.colon
  simp only [hasKeyColon, Bool.or_eq_false_iff] at hcolon
  refine token_plain hmark.1 (h.shown c List.mem_cons_self) (atMarker_eq_false _ hcolumn)
    fun hword => ?_
  refine ⟨inBrackets_eq_false houter, endsWord_append_eq_false ?_⟩
  rcases hword with rfl | rfl | rfl
  · simpa using hmark.2
  · simpa using hmark.2
  · simpa using hcolon.1

/-- A place where a value may begin: it is outside brackets and deeper than all open collections,
and no key has begun. -/
structure IsFree (s : Layout) : Prop where
  outer : s.outer = []
  key : s.key = none
  deeper : ∀ column ∈ s.blocks, column < s.place.column

/-- A text stands where it belongs to its collection. -/
theorem IsFree.margin_le {s : Layout} (h : s.IsFree) : s.margin ≤ s.place.column := by
  unfold margin
  cases hblocks : s.blocks with
  | nil => exact Nat.zero_le _
  | cons column blocks => exact h.deeper column (hblocks ▸ List.mem_cons_self)

/-- A key that begins where a value may begin need not be one. -/
theorem IsFree.beginKey {s : Layout} (h : s.IsFree) :
    ∃ key, s.beginKey = .ok { s with key := key, keyAllowed := false } ∧
      ∀ k, key = some k → k.required = false ∧ k.place.line = s.place.line := by
  have hnone : s.dropKey = .ok s := by
    obtain ⟨place, rest, found, blocks, key, outer, keyAllowed⟩ := s
    obtain rfl : key = none := h.key
    rfl
  have hdeep : s.blocks.head? ≠ some s.place.column := by
    intro heq
    exact absurd (h.deeper _ (List.mem_of_head? heq)) (Nat.lt_irrefl _)
  cases hallowed : s.keyAllowed with
  | true =>
      refine ⟨some ⟨s.place, !s.inBrackets && s.blocks.head? = some s.place.column, s.found.length⟩,
        ?_, ?_⟩
      · rw [Layout.beginKey, hallowed, if_pos rfl, hnone]
        rfl
      · rintro k hk
        obtain rfl := Option.some.inj hk
        exact ⟨by simp [hdeep], rfl⟩
  | false =>
      refine ⟨none, ?_, fun k hk => by cases hk⟩
      obtain ⟨place, rest, found, blocks, key, outer, keyAllowed⟩ := s
      obtain rfl : key = none := h.key
      obtain rfl : keyAllowed = false := hallowed
      rfl

end Layout

open Layout

/-! ## Pieces -/

/-- The written form of a text, the way in which it is written and what it is read as. -/
structure Piece where
  style : Style
  text : String
  chars : List Char
  deriving DecidableEq, Repr

namespace Piece

/-- The token of a piece. -/
def token (w : Piece) : Token :=
  .scalar w.style w.text

/-- Whether a piece at the end of a line is one token, after which the search goes on on a later
line with less indentation than `margin`. -/
structure Fits (margin : Nat) (w : Piece) : Prop where
  printable : ∀ c ∈ w.chars, isPrintable c = true
  goesOn : ∀ rest, goesOn (w.chars ++ rest) = true
  reaches : ∀ {s : Layout} {k : Nat} {rest : List Char}, s.IsFree → s.margin = margin →
    s.rest = w.chars ++ '\n' :: (List.replicate k ' ' ++ rest) → k < margin →
      Yaml.goesOn rest = true →
    ∃ line, s.Reaches
      { s with found := w.token :: s.found, place := ⟨line, k⟩, rest := rest, keyAllowed := true }

/-! ### Words -/

/-- The piece of a word. -/
def ofWord (w : Word) : Piece where
  style := w.style
  text := w.text
  chars := w.chars

/-- No word is the end of the document. -/
theorem goesOn_word {w : Word} (hw : w.Fits) (rest : List Char) :
    Yaml.goesOn (w.chars ++ rest) = true := by
  cases w with
  | plain text => exact (Inline.of_fits hw).goesOn rest
  | single text => rfl
  | double text => rfl

/-- The token of a quoted text, whose closing quote stands at the end of a line. -/
theorem quotedText_word {s : Layout} {key : Option KeyStart} {w : Word} {k : Nat} {rest : List Char}
    {p : Place} (houter : s.outer = []) (hgo : Yaml.goesOn rest = true)
    (hbegin : s.beginKey = .ok { s with key := key, keyAllowed := false })
    (hread : quoted (w.style = .single) (s.place.right 1) s.rest.tail =
      .ok ⟨w.text.toList, p, '\n' :: (List.replicate k ' ' ++ rest)⟩) :
    ∃ s', s.quotedText w.style = .ok s' ∧ s'.skipBlanks =
      { s with
        key := key
        found := (ofWord w).token :: s.found
        place := ⟨p.line + 1, k⟩
        rest := rest
        keyAllowed := true } := by
  refine ⟨_, quotedText_eq hbegin hread, ?_⟩
  apply skipBlanks_line _ rfl hgo
  exact houter

/-- A word at the end of a line is one token, and the search goes on on a later line. -/
theorem token_word {s : Layout} {key : Option KeyStart} {w : Word} {k : Nat} {rest : List Char}
    (hw : w.Fits) (hs : s.IsFree)
    (hbegin : s.beginKey = .ok { s with key := key, keyAllowed := false })
    (hrest : s.rest = w.chars ++ '\n' :: (List.replicate k ' ' ++ rest)) (hk : k < s.margin)
    (hgo : Yaml.goesOn rest = true) :
    ∃ c cs s' line, s.rest = c :: cs ∧ s.token c cs = .ok s' ∧ s.place.line < line ∧
      s'.skipBlanks =
        { s with
          key := key
          found := (ofWord w).token :: s.found
          place := ⟨line, k⟩
          rest := rest
          keyAllowed := true } := by
  cases w with
  | plain text =>
      have hinline := Inline.of_fits hw
      -- the break and the blanks after it are read with the word
      have hread : plain s.inBrackets s.margin s.place s.rest =
          .ok ⟨⟨text.toList, true⟩, ⟨s.place.line + 1, k⟩, rest⟩ := by
        rw [inBrackets_eq_false hs.outer, hrest]
        exact @Inline.plain _ _ 0 _ _ _ hinline hk hs.margin_le hgo
      obtain ⟨c, cs, htext⟩ := List.exists_cons_of_ne_nil hinline.ne_nil
      have hpos : 0 < s.place.column := Nat.lt_of_lt_of_le (Nat.zero_lt_of_lt hk) hs.margin_le
      have htoken := token_inline (htext ▸ hinline) hs.outer hpos
        ('\n' :: (List.replicate k ' ' ++ rest))
      refine ⟨c, cs ++ '\n' :: (List.replicate k ' ' ++ rest), _, s.place.line + 1, ?_,
        htoken.trans (plainText_eq hbegin hread), Nat.lt_succ_self _, ?_⟩
      · rw [hrest, Word.chars, htext, List.cons_append]
      · rw [skipBlanks_of_goesOn hgo, String.ofList_toList]
        rfl
  | single text =>
      have hgap : SingleGap false .none (s.place.right 1) text.toList :=
        @SingleGap.line [] _ _ (Nat.succ_pos _) fun h => absurd rfl h
      obtain ⟨p, hline, hread⟩ := @quotedFrom_single false .none text.toList
        ('\n' :: (List.replicate k ' ' ++ rest)) _ hgap hw.1 hw.2 (by simp)
      obtain ⟨s', htoken, hnext⟩ := @quotedText_word s key
        (.single text) k rest p hs.outer hgo hbegin (by rw [hrest]; exact hread)
      refine ⟨_, _, s', p.line + 1, hrest, (token_single s _).trans htoken, Nat.lt_succ_of_le hline,
        hnext⟩
  | double text =>
      obtain ⟨n, hread⟩ := @quotedFrom_double [] text.toList
        ('\n' :: (List.replicate k ' ' ++ rest)) (s.place.right 1) (Nat.succ_pos _)
      obtain ⟨s', htoken, hnext⟩ := @quotedText_word s key
        (.double text) k rest _ hs.outer hgo hbegin (by
          rw [hrest, Word.chars, List.cons_append, List.cons_append, List.tail_cons,
            List.append_assoc]
          exact hread)
      exact ⟨_, _, s', _, hrest, (token_double s _).trans htoken, Nat.lt_succ_self _, hnext⟩

/-- A word is a piece wherever there is a margin. -/
theorem fits_ofWord {w : Word} (hw : w.Fits) (margin : Nat) : (ofWord w).Fits margin where
  printable c hc := (Word.isPrintable_of_mem_chars hw c hc).1
  goesOn := goesOn_word hw
  reaches {s k rest} hs hmargin hrest hk hgo := by
    obtain ⟨key, hbegin, hkey⟩ := hs.beginKey
    obtain ⟨c, cs, s', line, hcons, htoken, hline, hnext⟩ :=
      token_word hw hs hbegin hrest (hmargin ▸ hk) hgo
    refine ⟨line, ?_⟩
    have hblanks : s.skipBlanks = s :=
      skipBlanks_of_goesOn (by rw [hrest]; exact goesOn_word hw _)
    have hstep := step_eq_token hblanks (refreshKeys_eq_self hs.outer hs.key)
      (fun column hcolumn => (hs.deeper column hcolumn).le) hcons
    rw [htoken] at hstep
    have hlength : rest.length < s.rest.length := by
      rw [hrest]
      simp only [List.length_append, List.length_cons]
      omega
    -- the word could have been a key on its own line only
    have hforget := @reaches_forgetKey
      { s with
        key := key
        found := (ofWord w).token :: s.found
        place := ⟨line, k⟩
        rest := rest
        keyAllowed := true } hs.outer hgo fun start hstart => by
          obtain ⟨hrequired, hsame⟩ := hkey start hstart
          exact ⟨hrequired, hsame ▸ hline⟩
    have hreach := (reaches_of_step_skipBlanks hstep hnext hgo hlength).trans hforget
    rw [hs.key]
    exact hreach

/-! ### Texts over lines -/

/-- A bar opens a text over lines. -/
theorem token_bar {s : Layout} {cs : List Char} (hout : s.inBrackets = false) :
    s.token '|' cs = s.blockText .literal := by
  rw [Layout.token, isMarker_eq_false cs (by decide), isMarker_eq_false cs (by decide)]
  simp [hout]

/-- What a search remembers after a text over lines. -/
theorem blockText_eq {s : Layout} {text : String} {p : Place} {rest : List Char}
    (hkey : s.key = none)
    (hread : block false s.margin (s.place.right 1) s.rest.tail = .ok ⟨text.toList, p, rest⟩) :
    s.blockText .literal =
      .ok { s with
        found := .scalar .literal text :: s.found
        place := p
        rest := rest
        keyAllowed := true } := by
  have hdrop : s.dropKey = .ok { s with key := none } := by
    rw [dropKey, hkey]
    rfl
  have hread' : block (Style.literal = .folded) ({ s with key := none } : Layout).margin
      (s.place.right 1) s.rest.tail = .ok ⟨text.toList, p, rest⟩ := hread
  simp only [blockText, hdrop, bind, Except.bind, hread', pure, Except.pure, emit, moveTo,
    String.ofList_toList, hkey]

/-- A text over lines is a piece where its lines are read up to a line with less indentation. -/
theorem fits_of_block {w : Piece} {margin : Nat} {more : List Char} (hstyle : w.style = .literal)
    (hchars : w.chars = '|' :: more) (hprint : ∀ c ∈ w.chars, isPrintable c = true)
    (hread : ∀ {p : Place} {k : Nat} {rest : List Char}, k < margin → Yaml.goesOn rest = true →
      ∃ line, p.line < line ∧
        block false margin p (w.chars.tail ++ '\n' :: (List.replicate k ' ' ++ rest)) =
        .ok ⟨w.text.toList, ⟨line, k⟩, rest⟩) :
    w.Fits margin where
  printable := hprint
  goesOn rest := by
    rw [hchars]
    rfl
  reaches {s k rest} hs hmargin hrest hk hgo := by
    obtain ⟨line, -, hblock⟩ := @hread (s.place.right 1) k rest hk hgo
    refine ⟨line, ?_⟩
    rw [hchars, List.cons_append] at hrest
    rw [hchars, List.tail_cons, ← hmargin] at hblock
    have hblanks : s.skipBlanks = s := skipBlanks_of_goesOn (by rw [hrest]; rfl)
    have hstep := step_eq_token hblanks (refreshKeys_eq_self hs.outer hs.key)
      (fun column hcolumn => (hs.deeper column hcolumn).le) hrest
    have htext := @blockText_eq s w.text _ rest hs.key (by rw [hrest]; exact hblock)
    rw [token_bar (inBrackets_eq_false hs.outer), htext] at hstep
    have hlength : rest.length < s.rest.length := by
      rw [hrest]
      simp only [List.length_append, List.length_cons]
      omega
    rw [token, hstyle]
    exact reaches_of_step hstep hlength

/-! ### Texts of keys and of lists -/

/-- The piece of a text in the value of a key. -/
def ofText (s : String) : Piece where
  style := Written.style s
  text := asText s
  chars := (written "" s).toList

/-- The piece of a text in an item of a list. -/
def ofItem (s : String) : Piece where
  style := Written.style s
  text := asItem s
  chars := (written "    " s).toList

/-- A text that is not written over lines is a word. -/
theorem ofText_eq_ofWord {s : String} (h : Written.style s ≠ .literal) :
    ofText s = ofWord (.ofText s) := by
  rw [ofText, ofWord, asText, if_neg h, written_eq_chars h, String.toList_ofList, style_ofText h,
    Word.text_ofText]

/-- An item that is not written over lines is a word. -/
theorem ofItem_eq_ofWord {s : String} (h : Written.style s ≠ .literal) :
    ofItem s = ofWord (.ofText s) := by
  rw [ofItem, ofWord, asItem, if_neg h, written_eq_chars h, String.toList_ofList, style_ofText h,
    Word.text_ofText]

/-- The text of a key is a piece of its line. -/
theorem fits_ofText (s : String) : (ofText s).Fits 1 := by
  by_cases h : Written.style s = .literal
  · have hchars : (ofText s).chars = (written "" s).toList := by rw [ofText]
    obtain ⟨more, hmore⟩ := exists_written_eq_cons h ""
    refine fits_of_block h (hchars.trans hmore) (fun c hc => ?_) fun hk hgo => ?_
    · rw [hchars] at hc
      exact isPrintable_of_mem_written h (by simp) hc
    · rw [hchars]
      exact block_text h hk hgo
  · rw [ofText_eq_ofWord h]
    exact fits_ofWord (Yaml.fits_ofText s) 1

/-- The text of an item is a piece of its line if no break but a line feed divides its lines. -/
theorem fits_ofItem {s : String} (hfeeds : DividedByFeeds s) : (ofItem s).Fits 3 := by
  by_cases h : Written.style s = .literal
  · have hchars : (ofItem s).chars = (written "    " s).toList := by rw [ofItem]
    obtain ⟨more, hmore⟩ := exists_written_eq_cons h "    "
    refine fits_of_block h (hchars.trans hmore) (fun c hc => ?_) fun hk hgo => ?_
    · rw [hchars] at hc
      refine isPrintable_of_mem_written h (fun d hd => ?_) hc
      rw [List.eq_of_mem_replicate (show d ∈ List.replicate 4 ' ' from hd)]
      decide
    · rw [hchars]
      exact block_item h (hfeeds h) hk hgo
  · rw [ofItem_eq_ofWord h]
    exact fits_ofWord (Yaml.fits_ofText s) 3

end Piece

end DagScaffold.Yaml

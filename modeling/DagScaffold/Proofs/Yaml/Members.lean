import Mathlib
import DagScaffold.Proofs.Yaml.Lines
import DagScaffold.Yaml.Reader

/-!
# Documents of lines with keys

A member of a document is a key with a piece or with a list of pieces on the lines below it. The
lines of some members are read back as a map with their keys and texts, in their order.

* `Member`, `Member.chars`, `Member.tokens` : a key with its pieces, its lines and its tokens;
* `tokens_chars` : the tokens of the lines of some members;
* `tree_tokens` : the map that is built from these tokens;
* `run_entries_chars` : the entries that are read from the lines.
-/

namespace DagScaffold.Yaml

open Layout

/-! ## Members -/

/-- The lines of a piece in a list. -/
def Piece.itemChars (w : Piece) : List Char :=
  ' ' :: ' ' :: '-' :: ' ' :: (w.chars ++ ['\n'])

/-- Whether a text can be the key of a line: it is a short row of letters, digits and
underscores. -/
structure IsKey (key : String) : Prop where
  ne_empty : key ≠ ""
  chars : key.toList.all isKeyChar = true
  short : key.toList.length ≤ keyLength

instance (key : String) : Decidable (IsKey key) :=
  decidable_of_iff
    (key ≠ "" ∧ key.toList.all isKeyChar = true ∧ key.toList.length ≤ keyLength)
    ⟨fun h => ⟨h.1, h.2.1, h.2.2⟩, fun h => ⟨h.ne_empty, h.chars, h.short⟩⟩

namespace IsKey

variable {key : String}

theorem ne_nil (h : IsKey key) : key.toList ≠ [] :=
  mt String.toList_eq_nil_iff.mp h.ne_empty

/-- A key opens a line. -/
theorem goesOn (h : IsKey key) (rest : List Char) : goesOn (key.toList ++ rest) = true := by
  obtain ⟨c, cs, hcons⟩ := List.exists_cons_of_ne_nil h.ne_nil
  rw [hcons, List.cons_append]
  exact goesOn_key (List.all_eq_true.mp h.chars c (hcons ▸ List.mem_cons_self))

/-- The characters of a key are printable. -/
theorem isPrintable (h : IsKey key) {c : Char} (hc : c ∈ key.toList) :
    Written.isPrintable c = true :=
  isPrintable_of_isShown (isShown_of_isKeyChar (List.all_eq_true.mp h.chars c hc))

end IsKey

/-- A key with a piece, or with a list of pieces. -/
inductive Member where
  | text (key : String) (value : Piece)
  | list (key : String) (items : List Piece)
  deriving DecidableEq, Repr

namespace Member

/-- The key of a member. -/
def key : Member → String
  | text key _ => key
  | list key _ => key

/-- The pieces of a member. -/
def pieces : Member → List Piece
  | text _ w => [w]
  | list _ ws => ws

/-- The least column that belongs to a piece of a member. -/
def margin : Member → Nat
  | text _ _ => 1
  | list _ _ => 3

/-- The lines of a member. -/
def chars : Member → List Char
  | text key w => key.toList ++ ':' :: ' ' :: (w.chars ++ ['\n'])
  | list key ws => key.toList ++ ':' :: '\n' :: ws.flatMap Piece.itemChars

/-- The tokens of a member. -/
def tokens : Member → List Token
  | text key w => [.key, .scalar .plain key, .value, w.token]
  | list key ws =>
    [.key, .scalar .plain key, .value, .blockList] ++ ws.flatMap (fun w => [.entry, w.token]) ++
      [.blockEnd]

/-- Whether the lines of a member can be read: it has a key, and pieces that fit where they
stand. -/
structure Fits (m : Member) : Prop where
  key : IsKey m.key
  pieces_ne : m.pieces ≠ []
  pieces_fit : ∀ w ∈ m.pieces, w.Fits m.margin

/-- A member has tokens. -/
theorem tokens_ne_nil (m : Member) : m.tokens ≠ [] := by
  cases m <;> exact List.cons_ne_nil _ _

/-- The lines of a member hold characters that can be shown. -/
theorem isPrintable_of_mem_chars {m : Member} (hm : m.Fits) {c : Char} (hc : c ∈ m.chars) :
    Written.isPrintable c = true := by
  cases m with
  | text key w =>
      have hw := (hm.pieces_fit w (by simp [pieces])).printable
      simp only [chars, List.mem_append, List.mem_cons, List.not_mem_nil, or_false] at hc
      rcases hc with hc | rfl | rfl | hc | rfl
      · exact hm.key.isPrintable hc
      · decide
      · decide
      · exact hw c hc
      · decide
  | list key ws =>
      simp only [chars, Piece.itemChars, List.mem_append, List.mem_cons, List.mem_flatMap,
        List.not_mem_nil, or_false] at hc
      rcases hc with hc | rfl | rfl | ⟨w, hw, rfl | rfl | rfl | rfl | hc | rfl⟩
      · exact hm.key.isPrintable hc
      · decide
      · decide
      · decide
      · decide
      · decide
      · decide
      · exact (hm.pieces_fit w hw).printable c hc
      · decide

end Member

/-- No line of a member is the end of the document. -/
theorem goesOn_flatMap_chars {ms : List Member} (hms : ∀ m ∈ ms, m.Fits) :
    goesOn (ms.flatMap Member.chars) = true := by
  cases ms with
  | nil => rfl
  | cons m ms =>
      have hkey : IsKey m.key := (hms m List.mem_cons_self).key
      cases m with
      | text key w =>
          rw [List.flatMap_cons, Member.chars, List.append_assoc]
          exact hkey.goesOn _
      | list key ws =>
          rw [List.flatMap_cons, Member.chars, List.append_assoc]
          exact hkey.goesOn _

/-! ## Tokens of members -/

/-- The items of a list are found one after another. -/
theorem reaches_items {w : Piece} {ws : List Piece} {found : List Token} {line : Nat}
    {rest : List Char} (hfits : ∀ v ∈ w :: ws, v.Fits 3) (hgo : goesOn rest = true) :
    ∃ line',
      Reaches (atItem found line ('-' :: ' ' ::
        (w.chars ++ '\n' :: (ws.flatMap Piece.itemChars ++ rest))))
        (afterItem (((w :: ws).flatMap fun v => [Token.entry, v.token]).reverse ++ found) line' 0
          rest) := by
  -- the items after the first one vary; each leaves the search where the next can start
  induction ws generalizing w found line with
  | nil => exact @reaches_afterItem found rest line 0 w (hfits w List.mem_cons_self) (by decide) hgo
  | cons v ws ih =>
      obtain ⟨hw, hvs⟩ := List.forall_mem_cons.mp hfits
      let more := '-' :: ' ' :: (v.chars ++ '\n' :: (ws.flatMap Piece.itemChars ++ rest))
      obtain ⟨line₁, hitem⟩ := @reaches_afterItem found more line 2 w hw (by decide) rfl
      obtain ⟨line₂, hrest⟩ := @ih v (w.token :: .entry :: found) line₁ hvs
      refine ⟨line₂, ?_⟩
      have hchars : (v :: ws).flatMap Piece.itemChars ++ rest = List.replicate 2 ' ' ++ more := by
        simp [more, Piece.itemChars, List.replicate]
      have hfound : ((w :: v :: ws).flatMap fun v => [Token.entry, v.token]).reverse ++ found =
          ((v :: ws).flatMap fun v => [Token.entry, v.token]).reverse ++
            (w.token :: .entry :: found) := by
        simp
      rw [hchars, hfound]
      exact hitem.trans hrest

/-- A member gives its tokens and leads to the start of a line. -/
theorem reaches_member {m : Member} (hm : m.Fits) {done : List Token} {line : Nat}
    {rest : List Char} (hgo : goesOn rest = true) :
    ∃ line', Reaches (atLine done line (m.chars ++ rest))
      (atLine (done ++ m.tokens) line' rest) := by
  have hne : m.key.toList ≠ [] := hm.key.ne_nil
  have hkey := List.all_eq_true.mp hm.key.chars
  cases m with
  | text key w =>
      have hcolon := @reaches_atValue done key.toList
        (' ' :: (w.chars ++ '\n' :: rest)) line hne hkey
        hm.key.short rfl
      obtain ⟨line', hpiece⟩ := @reaches_atLine_of_value done key.toList rest line w
        (hm.pieces_fit w List.mem_cons_self) hgo
      refine ⟨line', ?_⟩
      rw [String.ofList_toList] at hpiece
      have hchars : (Member.text key w).chars ++ rest =
          key.toList ++ ':' :: ' ' :: (w.chars ++ '\n' :: rest) := by
        simp [Member.chars]
      rw [hchars]
      exact hcolon.trans hpiece
  | list key ws =>
      obtain ⟨w, ws, rfl⟩ := List.exists_cons_of_ne_nil hm.pieces_ne
      let items := ' ' :: (w.chars ++ '\n' :: (ws.flatMap Piece.itemChars ++ rest))
      let more := '\n' :: ' ' :: ' ' :: '-' :: items
      let found := Token.blockList :: (atValue done key.toList line []).found
      have hcolon := @reaches_atValue done key.toList more line hne hkey hm.key.short rfl
      have hopen := @reaches_atItem_of_value done key.toList items line rfl
      obtain ⟨line', hitems⟩ := @reaches_items w ws found (line + 1) rest hm.pieces_fit hgo
      refine ⟨line', ?_⟩
      have hchars : (Member.list key (w :: ws)).chars ++ rest = key.toList ++ ':' :: more := by
        simp [Member.chars, Piece.itemChars, more, items]
      have hfound : Token.blockEnd ::
          (((w :: ws).flatMap fun v => [Token.entry, v.token]).reverse ++ found) =
          (Token.blockMap :: (done ++ (Member.list key (w :: ws)).tokens)).reverse := by
        simp [Member.tokens, found, atValue]
      have hend := @reaches_atLine_of_afterItem _ _ line' rest hfound
        (List.append_ne_nil_of_right_ne_nil done (Member.tokens_ne_nil _)) hgo
      rw [hchars]
      exact ((hcolon.trans hopen).trans hitems).trans hend

/-- The search for tokens goes from member to member. -/
theorem reaches_members {ms : List Member} (hms : ∀ m ∈ ms, m.Fits) {done : List Token}
    {line : Nat} :
    ∃ line', Reaches (atLine done line (ms.flatMap Member.chars))
      (atLine (done ++ ms.flatMap Member.tokens) line' []) := by
  induction ms generalizing done line with
  | nil =>
      refine ⟨line, ?_⟩
      rw [List.flatMap_nil, List.flatMap_nil, List.append_nil]
      exact Reaches.refl _
  | cons m ms ih =>
      obtain ⟨hm, hms⟩ := List.forall_mem_cons.mp hms
      obtain ⟨line₁, hfirst⟩ := @reaches_member m hm done line _ (goesOn_flatMap_chars hms)
      obtain ⟨line₂, hothers⟩ := @ih hms (done ++ m.tokens) line₁
      refine ⟨line₂, ?_⟩
      rw [List.flatMap_cons, List.flatMap_cons, ← List.append_assoc]
      exact hfirst.trans hothers

/-- At the end of the text the map of all lines is closed. -/
theorem run_atLine_nil {done : List Token} {line : Nat} (fuel : Nat) (hne : done ≠ []) :
    run (fuel + 1) (atLine done line []) = .ok (.blockMap :: (done ++ [.blockEnd])) := by
  have hshallow : ∀ column ∈ (atLine done line []).blocks, column ≤ 0 := fun _ hcolumn =>
    Nat.le_of_eq (eq_zero_of_mem_blocks_atLine hcolumn)
  let s : Layout := atLine done line []
  have hstep := @step_eq_next s s s s (skipBlanks_of_goesOn rfl)
    (refreshKeys_eq_self rfl rfl) (closeDeeper_eq_self hshallow)
  have hend : s.next =
      .ok ({ s with found := .blockEnd :: (Token.blockMap :: done).reverse, blocks := [] },
        false) := by
    simp [s, next, atLine, hne, closeAll, inBrackets, dropKey, Except.map]
  rw [run_succ, hstep, hend]
  simp [Except.bind]

/-- The tokens of the lines of some members are those of the members between the marks of a map. -/
theorem tokens_chars {ms : List Member} (hne : ms ≠ []) (hms : ∀ m ∈ ms, m.Fits) :
    tokens (ms.flatMap Member.chars) =
      .ok (.blockMap :: (ms.flatMap Member.tokens ++ [.blockEnd])) := by
  obtain ⟨line, hreach⟩ := @reaches_members ms hms [] 0
  have hdone : ms.flatMap Member.tokens ≠ [] := by
    obtain ⟨m, ms, rfl⟩ := List.exists_cons_of_ne_nil hne
    rw [List.flatMap_cons]
    exact List.append_ne_nil_of_left_ne_nil (Member.tokens_ne_nil m) _
  obtain ⟨fuel, htokens⟩ := hreach.exists_tokens_eq
  rw [htokens, List.nil_append]
  exact run_atLine_nil fuel hdone

/-! ## Trees of members -/

/-- The part of a document that is a piece. -/
def Piece.node (w : Piece) : Node :=
  .scalar none w.style w.text

/-- The member of a map for a key with its pieces. -/
def Member.node : Member → Node × Node
  | .text key w => (.scalar none .plain key, w.node)
  | .list key ws => (.scalar none .plain key, .list none (ws.map Piece.node))

section Building

variable (handles : List (String × String)) {anchors : Anchors} {ts : List Token}

/-- A scalar is a part of a document by itself. -/
theorem node_scalar (fuel : Nat) (around : Surroundings) (style : Style) (text : String) :
    node handles (fuel + 2) around anchors (.scalar style text :: ts) =
      .ok ⟨.scalar none style text, ts, anchors⟩ := by
  simp [node, content, properties, resolveTag, scalarTag, Anchors.declare, Anchors.complete,
    Except.bind, Except.map]

/-- A list below a key is made of its items. -/
theorem node_blockList {fuel : Nat} {nodes : List Node} {rest : List Token}
    (h : items handles fuel anchors ts = .ok ⟨nodes, rest, anchors⟩) :
    node handles (fuel + 2) .linesAfterKey anchors (.blockList :: ts) =
      .ok ⟨.list none nodes, rest, anchors⟩ := by
  simp [node, content, properties, resolveTag, Anchors.declare, Anchors.complete, h, Except.bind,
    Except.map, Built.map]

/-- A map is made of its members. -/
theorem node_blockMap {fuel : Nat} {nodes : List (Node × Node)} {rest : List Token}
    (h : members handles fuel anchors ts = .ok ⟨nodes, rest, anchors⟩) :
    node handles (fuel + 2) .lines anchors (.blockMap :: ts) =
      .ok ⟨.map none nodes, rest, anchors⟩ := by
  simp [node, content, properties, resolveTag, Anchors.declare, Anchors.complete, h, Except.bind,
    Except.map, Built.map]

/-- The items of a list are made from the tokens of its pieces. -/
theorem items_tokens {ws : List Piece} {fuel : Nat} (hfuel : ws.length + 3 ≤ fuel) :
    items handles fuel anchors (ws.flatMap (fun w => [.entry, w.token]) ++ .blockEnd :: ts) =
      .ok ⟨ws.map Piece.node, ts, anchors⟩ := by
  induction ws generalizing fuel with
  | nil =>
      obtain ⟨fuel, rfl⟩ := Nat.exists_eq_add_of_le' (Nat.le_of_add_left_le hfuel)
      rfl
  | cons w ws ih =>
      rw [List.length_cons] at hfuel
      obtain ⟨fuel, rfl⟩ : ∃ n, fuel = n + 2 + 1 := ⟨fuel - 3, by omega⟩
      have hrest := @ih (fuel + 2) (by omega)
      have hnode := @node_scalar handles anchors
        (ws.flatMap (fun w => [.entry, w.token]) ++ .blockEnd :: ts) fuel .lines w.style w.text
      rw [List.flatMap_cons, List.append_assoc]
      show items handles (fuel + 2 + 1) anchors (.entry :: .scalar w.style w.text ::
        (ws.flatMap (fun w => [.entry, w.token]) ++ .blockEnd :: ts)) = _
      rw [items]
      simp only [lacksItem, Bool.false_eq_true, if_false, hnode, Except.bind, hrest, Except.map]
      rfl

/-- The value of a member is a piece or a list that is more indented. -/
theorem memberValue_tokens {m : Member} {fuel : Nat} (hfuel : m.tokens.length + 2 ≤ fuel) :
    memberValue handles fuel anchors (m.tokens.drop 2 ++ ts) = .ok ⟨m.node.2, ts, anchors⟩ := by
  cases m with
  | text key w =>
      have hlong : 4 + 2 ≤ fuel := hfuel
      obtain ⟨fuel, rfl⟩ : ∃ n, fuel = n + 2 + 1 := ⟨fuel - 3, by omega⟩
      have hnode := @node_scalar handles anchors ts fuel .linesAfterKey w.style w.text
      show memberValue handles (fuel + 2 + 1) anchors (.value :: .scalar w.style w.text :: ts) = _
      rw [memberValue]
      simp only [lacksMember, Bool.false_eq_true, if_false, hnode]
      rfl
  | list key ws =>
      have hlength : (Member.list key ws).tokens.length = 2 * ws.length + 5 := by
        simp [Member.tokens]
        omega
      obtain ⟨fuel, rfl⟩ : ∃ n, fuel = n + 3 := ⟨fuel - 3, by omega⟩
      have hitems := @items_tokens handles anchors ts ws fuel (by omega)
      have htokens : (Member.list key ws).tokens.drop 2 ++ ts =
          .value :: .blockList :: (ws.flatMap (fun w => [.entry, w.token]) ++ .blockEnd :: ts) := by
        simp [Member.tokens]
      rw [htokens, memberValue]
      simp only [lacksMember, Bool.false_eq_true, if_false, node_blockList handles hitems]
      rfl

/-- A member is made from its tokens, before those of the others. -/
theorem member_tokens {m : Member} {fuel : Nat} (hfuel : m.tokens.length + 2 ≤ fuel) :
    members handles (fuel + 1) anchors (m.tokens ++ ts) =
      (members handles fuel anchors ts).map (.map (m.node :: ·)) := by
  obtain ⟨n, rfl⟩ : ∃ n, fuel = n + 2 := ⟨fuel - 2, by omega⟩
  have hvalue := @memberValue_tokens handles anchors ts m (n + 2) hfuel
  have hkey := @node_scalar handles anchors (m.tokens.drop 2 ++ ts) n .linesAfterKey .plain m.key
  have htokens : m.tokens ++ ts = .key :: .scalar .plain m.key :: (m.tokens.drop 2 ++ ts) := by
    cases m <;> rfl
  rw [htokens, members]
  simp only [lacksMember, Bool.false_eq_true, if_false, hkey, hvalue, Except.bind]
  cases m <;> rfl

/-- The members of a map are made from their tokens. -/
theorem members_tokens {ms : List Member} {fuel : Nat}
    (hfuel : (ms.flatMap Member.tokens).length + 3 ≤ fuel) :
    members handles fuel anchors (ms.flatMap Member.tokens ++ .blockEnd :: ts) =
      .ok ⟨ms.map Member.node, ts, anchors⟩ := by
  induction ms generalizing fuel with
  | nil =>
      obtain ⟨fuel, rfl⟩ := Nat.exists_eq_add_of_le' (Nat.le_of_add_left_le hfuel)
      rfl
  | cons m ms ih =>
      have hpos := List.length_pos_of_ne_nil m.tokens_ne_nil
      rw [List.flatMap_cons, List.length_append] at hfuel
      obtain ⟨fuel, rfl⟩ : ∃ n, fuel = n + 1 := ⟨fuel - 1, by omega⟩
      rw [List.flatMap_cons, List.append_assoc, member_tokens handles (by omega),
        @ih fuel (by omega)]
      rfl

end Building

/-- The tokens of some members make up a document that is a map. -/
theorem tree_tokens (ms : List Member) :
    tree (.blockMap :: (ms.flatMap Member.tokens ++ [.blockEnd])) =
      .ok ⟨.map none (ms.map Member.node), [], {}⟩ := by
  let ts := ms.flatMap Member.tokens ++ [.blockEnd]
  have hmembers := @members_tokens standardHandles {} [] ms (3 * ts.length + 5)
    (by simp [ts]; omega)
  exact node_blockMap standardHandles hmembers

/-! ## Documents -/

/-- The document of a text that can be shown is what its tokens make up. -/
theorem document_eq_ok {s : String} {ts : List Token} {b : Built Node}
    (hs : ∀ c ∈ s.toList, Written.isPrintable c = true) (htokens : tokens s.toList = .ok ts)
    (htree : tree ts = .ok b) (hend : endsText b.rest = true) :
    document s = .ok ⟨b.value, b.anchors.parts⟩ := by
  rw [document, readable_of_isPrintable hs]
  simp only [htokens, htree, hend, Except.bind, if_true]

/-- A text without tokens is no document. -/
theorem document_eq_error {s : String} {fault : Fault}
    (hs : ∀ c ∈ s.toList, Written.isPrintable c = true)
    (htokens : tokens s.toList = .error fault) :
    document s = .error fault := by
  rw [document, readable_of_isPrintable hs]
  simp only [htokens, Except.bind]

/-! ## Entries of members -/

/-- What a member gives when it is read: its key, with the value of its piece or with the texts of
its list. -/
inductive Member.Means : Member → String × Value → Prop
  | text {key : String} {w : Piece} {v : Value} (h : untaggedValue w.style w.text = .ok v) :
    Means (.text key w) (key, v)
  | list {key : String} {ws : List Piece}
      (h : ∀ w ∈ ws, untaggedValue w.style w.text = .ok (.text w.text)) :
    Means (.list key ws) (key, .list (ws.map fun w => .text w.text))

/-- A plain text that stands for nothing else is read as itself. -/
theorem untaggedValue_of_meaning {style : Style} {s : String}
    (h : style = .plain → meaning s = .text) :
    untaggedValue style s = .ok (.text s) := by
  unfold untaggedValue
  split_ifs with hplain
  · rw [h hplain]
  · rfl

/-- A text is written plainly only if it stands for itself. -/
theorem untaggedValue_style {s t : String} (h : Written.style s = .plain → t = s) :
    untaggedValue (Written.style s) t = .ok (.text t) := by
  refine untaggedValue_of_meaning fun hplain => ?_
  rw [h hplain]
  simp only [Written.style] at hplain
  split_ifs at hplain with hfeed hliteral hallowed
  have hmeans := (Bool.and_eq_true_iff.mp hallowed).1
  simp only [Written.meansOther, Bool.not_eq_true', Bool.or_eq_false_iff, decide_eq_false_iff_not,
    not_not] at hmeans
  exact hmeans.1

/-- The piece of a text is read as its text. -/
theorem untaggedValue_ofText (s : String) :
    untaggedValue (Piece.ofText s).style (Piece.ofText s).text = .ok (.text (asText s)) := by
  refine untaggedValue_style fun hplain => if_neg ?_
  rw [hplain]
  decide

/-- The piece for an item is read as the text that is left of the item. -/
theorem untaggedValue_ofItem (s : String) :
    untaggedValue (Piece.ofItem s).style (Piece.ofItem s).text = .ok (.text (asItem s)) := by
  refine untaggedValue_style fun hplain => if_neg ?_
  rw [hplain]
  decide

namespace Reader

variable {parts : List (Nat × Node)}

theorem value_scalar (depth : Nat) (style : Style) (text : String) (budget : Nat) :
    value depth parts (.scalar none style text) budget =
      (untaggedValue style text).map fun v => (v, budget) := by
  cases depth <;> rfl

theorem value_list (depth : Nat) (items : List Node) (budget : Nat) :
    value (depth + 1) parts (.list none items) budget =
      (each (value depth) parts items budget).map fun out => (.list out.1, out.2) := rfl

theorem value_map (depth : Nat) (ms : List (Node × Node)) (budget : Nat) :
    value (depth + 1) parts (.map none ms) budget =
      (pairs (value depth) parts [] ms budget).map fun out => (.map out.1, out.2) := rfl

theorem value_piece (depth : Nat) (w : Piece) (budget : Nat) :
    value depth parts w.node budget = (untaggedValue w.style w.text).map fun v => (v, budget) :=
  value_scalar depth w.style w.text budget

/-- Pieces that are texts are read as a list of these. -/
theorem each_pieces {depth : Nat} {ws : List Piece} {budget : Nat}
    (h : ∀ w ∈ ws, untaggedValue w.style w.text = .ok (.text w.text)) :
    each (value depth) parts (ws.map Piece.node) budget =
      .ok (ws.map fun w => .text w.text, budget) := by
  induction ws with
  | nil => rfl
  | cons w ws ih =>
      obtain ⟨hw, hws⟩ := List.forall_mem_cons.mp h
      rw [List.map_cons, each, value_piece, hw]
      show (each (value depth) parts (ws.map Piece.node) budget).map _ = _
      rw [ih hws]
      rfl

/-- The members of a map are read as its entries. -/
theorem entriesOf_members {ms : List Member} {es : List (String × Value)} {budget : Nat}
    (h : List.Forall₂ Member.Means ms es) :
    entriesOf parts (ms.map Member.node) budget = .ok (es, budget) := by
  induction h with
  | nil => rfl
  | @cons m e ms es hm hms ih =>
      rw [List.map_cons, entriesOf]
      cases hm with
      | @text key w v hvalue =>
          have hread : value (maxDepth - 1) parts w.node budget = .ok (v, budget) := by
            rw [value_piece, hvalue]
            rfl
          show (value (maxDepth - 1) parts w.node budget).bind _ = _
          rw [hread]
          show (entriesOf parts (ms.map Member.node) budget).map _ = _
          rw [ih]
          rfl
      | @list key ws htexts =>
          have hread : value (maxDepth - 1) parts (.list none (ws.map Piece.node)) budget =
              .ok (.list (ws.map fun w => .text w.text), budget) := by
            show (each (value (maxDepth - 2)) parts (ws.map Piece.node) budget).map _ = _
            rw [each_pieces htexts]
            rfl
          show (value (maxDepth - 1) parts (.list none (ws.map Piece.node)) budget).bind _ = _
          rw [hread]
          show (entriesOf parts (ms.map Member.node) budget).map _ = _
          rw [ih]
          rfl

/-- The lines of some members are read as what the members mean. -/
theorem run_entries_chars {s : String} {ms : List Member} {es : List (String × Value)}
    (hs : s.toList = ms.flatMap Member.chars) (hne : ms ≠ []) (hms : ∀ m ∈ ms, m.Fits)
    (hmeans : List.Forall₂ Member.Means ms es) : entries.run s = .ok es := by
  have hprint : ∀ c ∈ s.toList, Written.isPrintable c = true := by
    intro c hc
    rw [hs] at hc
    obtain ⟨m, hm, hc⟩ := List.mem_flatMap.mp hc
    exact Member.isPrintable_of_mem_chars (hms m hm) hc
  have htokens := tokens_chars hne hms
  rw [← hs] at htokens
  have hdocument := document_eq_ok hprint htokens (tree_tokens ms) rfl
  rw [run, hdocument]
  show ((entriesOf [] (ms.map Member.node) _).map _) = _
  rw [entriesOf_members hmeans]
  rfl

end Reader

end DagScaffold.Yaml

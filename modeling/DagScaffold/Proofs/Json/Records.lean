import Mathlib
import DagScaffold.Proofs.Json.Printed

/-!
# Reading printed lists and objects

The printed form of a list or of an object has its parts on lines of their own, with commas between
them. A reader of lists takes it item by item. A reader of records takes it member by member, and
each member makes the change of its field, so the record that is read is found by following the
members alone.

* `further` : the parts after the first one;
* `Reader.takes_list` : lists;
* `Reader.Tells`, `Reader.takes_record` : the change that members make to a record, and records.
-/

namespace DagScaffold.Json

open DagScaffold.Record

/-! ## Parts on lines of their own -/

/-- The parts of a list or an object after the first one. -/
def further (level : Nat) (ps : List (List Char)) : List Char :=
  ps.flatMap fun p => ',' :: (newLine level ++ p)

/-- A further part stands behind a comma, on a line of its own. -/
theorem further_cons (level : Nat) (p : List Char) (ps : List (List Char)) :
    further level (p :: ps) = ',' :: (newLine level ++ (p ++ further level ps)) := by
  rw [further, List.flatMap_cons, ← further, List.cons_append, List.append_assoc]

/-- The first part stands on a line of its own. -/
theorem separate_cons (level : Nat) (p : List Char) (ps : List (List Char)) :
    separate level (p :: ps) = newLine level ++ (p ++ further level ps) := by
  induction ps generalizing p with
  | nil =>
      rw [separate, further, List.flatMap_nil, List.append_nil]
  | cons next ps ih =>
      rw [separate, ih, further_cons, List.append_assoc]
      exact List.cons_ne_nil next ps

/-- The printed parts up to the closing bracket. -/
theorem separate_enclosed (outer level : Nat) (p : List Char) (ps : List (List Char)) (close : Char)
    (rest : List Char) :
    separate level (p :: ps) ++ newLine outer ++ [close] ++ rest =
      newLine level ++ (p ++ (further level ps ++ (newLine outer ++ close :: rest))) := by
  rw [separate_cons]
  simp only [List.append_assoc, List.cons_append, List.nil_append]

/-- The printed form of some parts is no shorter than their number. -/
theorem length_le_length_further (level : Nat) (ps : List (List Char)) :
    ps.length ≤ (further level ps).length := by
  induction ps with
  | nil => exact Nat.le_refl 0
  | cons p ps ih =>
      rw [further_cons]
      simp only [List.length_cons, List.length_append]
      omega

/-- Behind a part come a further one or the closing line. -/
theorem follows_further (level k : Nat) (ps : List (List Char)) (cs : List Char) :
    Follows (further level ps ++ (newLine k ++ cs)) := by
  cases ps with
  | nil => exact follows_newLine k cs
  | cons p ps =>
      rw [further_cons]
      exact .comma _

namespace Reader

variable {α : Type}

/-! ## Lists -/

/-- A closing bracket on its line ends the items. -/
theorem nextItem_end (first : Bool) (k : Nat) (rest : List Char) :
    nextItem first (newLine k ++ ']' :: rest) = .ok none := by
  rw [nextItem, skipBlanks_newLine, skipBlanks_cons (by decide)]
  rfl

/-- A list is closed by the bracket on its last line. -/
theorem closeList_end (k : Nat) (rest : List Char) :
    closeList (newLine k ++ ']' :: rest) = .ok rest := by
  rw [closeList, skipBlanks_newLine, skipBlanks_cons (by decide)]
  rfl

section Items

variable {inner : Reader α} {chars : List Char} {a : α}

/-- The first item stands on the line after the opening bracket. -/
theorem Takes.nextItem_first (h : Takes inner chars a) (level : Nat) (rest : List Char) :
    nextItem true (newLine level ++ (chars ++ rest)) = .ok (some (chars ++ rest)) := by
  obtain ⟨c, cs, rfl, hc, hend⟩ := h.opens
  rw [nextItem, skipBlanks_newLine, List.cons_append, skipBlanks_cons hc]
  simp [hend]

/-- A further item stands on the line after a comma. -/
theorem Takes.nextItem_further (h : Takes inner chars a) (level : Nat) (rest : List Char) :
    nextItem false (',' :: (newLine level ++ (chars ++ rest))) = .ok (some (chars ++ rest)) := by
  obtain ⟨c, cs, rfl, hc, hend⟩ := h.opens
  rw [nextItem, skipBlanks_cons (by decide)]
  simp [skipBlanks_newLine, skipBlanks_cons hc, hend]

/-- An item that is found is the next one of the list. -/
theorem Takes.items_succ (h : Takes inner chars a) {fuel : Nat} {first : Bool} {cs rest : List Char}
    (hnext : nextItem first cs = .ok (some (chars ++ rest))) (hrest : Follows rest) :
    items inner (fuel + 1) first cs =
      (items inner fuel false rest).map fun others => (a :: others.1, others.2) := by
  rw [items, hnext]
  show (inner (chars ++ rest)).bind _ = _
  rw [h.reads_front hrest]
  rfl

/-- Items that can be read each are read one after the other, up to the closing bracket. -/
theorem items_further {level k : Nat} {vs : List Value} {as : List α}
    (h : List.Forall₂ (fun v a => Takes inner (v.printAt level) a) vs as) {fuel : Nat}
    (hfuel : vs.length < fuel) (rest : List Char) :
    items inner fuel false (further level (Value.printItems level vs) ++
      (newLine k ++ ']' :: rest)) =
      .ok (as, rest) := by
  induction h generalizing fuel with
  | nil =>
      obtain ⟨fuel, rfl⟩ := Nat.exists_eq_add_one_of_ne_zero (Nat.ne_of_gt hfuel)
      show items inner (fuel + 1) false (newLine k ++ ']' :: rest) = _
      rw [items, nextItem_end]
      show (closeList _).map _ = _
      rw [closeList_end]
      rfl
  | @cons v a vs as hv h ih =>
      obtain ⟨fuel, rfl⟩ := Nat.exists_eq_add_one_of_ne_zero
        (Nat.ne_of_gt (Nat.zero_lt_of_lt hfuel))
      have hnext := hv.nextItem_further level
        (further level (Value.printItems level vs) ++ (newLine k ++ ']' :: rest))
      rw [Value.printItems, further_cons, List.cons_append, List.append_assoc, List.append_assoc,
        hv.items_succ hnext (follows_further level k _ _), ih (Nat.lt_of_succ_lt_succ hfuel)]
      rfl

/-- Every item of a list is printed. -/
theorem length_printItems (level : Nat) (vs : List Value) :
    (Value.printItems level vs).length = vs.length := by
  induction vs with
  | nil => rfl
  | cons v vs ih => rw [Value.printItems, List.length_cons, ih, List.length_cons]

/-- A list is read back when each of its items is. -/
theorem takes_list {level : Nat} {vs : List Value} {as : List α}
    (h : List.Forall₂ (fun v a => Takes inner (v.printAt (level + 1)) a) vs as) :
    Takes (list inner) (Value.printAt level (.list vs)) as := by
  cases h with
  | nil => exact takes_peek (by decide) (by decide) fun rest _ => rfl
  | @cons v a vs as hv h =>
      show Takes (list inner)
        ('[' :: (separate (level + 1) (Value.printItems (level + 1) (v :: vs)) ++
        newLine level ++ [']'])) (a :: as)
      refine takes_peek (by decide) (by decide) fun rest _ => ?_
      rw [if_pos rfl, Value.printItems, separate_enclosed]
      have hlength := length_le_length_further (level + 1) (Value.printItems (level + 1) vs)
      rw [length_printItems] at hlength
      rw [hv.items_succ (hv.nextItem_first (level + 1) _) (follows_further (level + 1) level _ _),
        items_further h]
      · rfl
      · simp only [List.length_append, newLine, List.length_cons]
        omega

end Items

/-! ## Records -/

/-- A closing brace on its line ends the members. -/
theorem nextKey_end (first : Bool) (k : Nat) (rest : List Char) :
    nextKey first (newLine k ++ '\x7d' :: rest) = .ok (none, rest) := by
  rw [nextKey, skipBlanks_newLine, skipBlanks_cons (by decide)]
  rfl

/-- The first key stands on the line after the opening brace. -/
theorem nextKey_first (level : Nat) (cs : List Char) :
    nextKey true (newLine level ++ '"' :: cs) = .ok (some cs, cs) := by
  rw [nextKey, skipBlanks_newLine, skipBlanks_cons (by decide)]
  rfl

/-- A further key stands on the line after a comma. -/
theorem nextKey_further (level : Nat) (cs : List Char) :
    nextKey false (',' :: (newLine level ++ '"' :: cs)) = .ok (some cs, cs) := by
  rw [nextKey, skipBlanks_cons (by decide)]
  simp only [skipBlanks_newLine, skipBlanks_cons (show isSeparator '"' = false by decide)]
  rfl

section Members

variable {fields : List (Field Reader α)} {level k : Nat}

/-- Whether members, each of which stands for a field, turn one record into another. -/
inductive Tells (fields : List (Field Reader α)) (level : Nat) :
    List (String × Value) → α → α → Prop
  | nil (acc : α) : Tells fields level [] acc acc
  | cons {name : String} {v : Value} {ms : List (String × Value)} {f : Field Reader α}
      {change : α → α} {acc result : α} (hfind : fields.find? (·.name = name) = some f)
      (hvalue : Takes f.change (v.printAt level) change)
      (hrest : Tells fields level ms (change acc) result) :
      Tells fields level ((name, v) :: ms) acc result

/-- The printed form of a member after its opening quote, with what follows it. -/
def memberChars (level : Nat) (m : String × Value) (rest : List Char) : List Char :=
  m.1.toList.flatMap escapeChar ++ '"' :: (':' :: ([' '] ++ (m.2.printAt level ++ rest)))

/-- A member whose field is known, and was not seen before, changes the record, and the others
follow. -/
theorem members_succ {name : String} {v : Value} {f : Field Reader α} {change : α → α} {fuel : Nat}
    {first : Bool} {seen : List String} {acc : α} {cs rest : List Char}
    (hfind : fields.find? (·.name = name) = some f)
    (hvalue : Takes f.change (v.printAt level) change) (hkey : nextKey first cs =
      .ok (some (memberChars level (name, v) rest), memberChars level (name, v) rest))
    (hseen : name ∉ seen) (hrest : Follows rest) :
    members fields (fuel + 1) first seen acc cs =
      members fields fuel false (name :: seen) (change acc) rest := by
  have hname := quoted_printed name (':' :: ([' '] ++ (v.printAt level ++ rest)))
  have hchange := hvalue.reads [' '] (List.forall_mem_singleton.mpr rfl) hrest
  have hcolon : colon (':' :: ([' '] ++ (v.printAt level ++ rest))) =
      .ok ([' '] ++ (v.printAt level ++ rest)) := by rfl
  simp only [members, hkey, memberChars, Except.bind, hname, hfind, hseen, hcolon, hchange,
    if_false]

/-- The printed form of a member is its key behind a quote, and its value. -/
theorem printed_member (level : Nat) (m : String × Value) (rest : List Char) :
    (printText m.1 ++ ':' :: ' ' :: m.2.printAt level) ++ rest =
      '"' :: memberChars level m rest := by
  simp [printText, memberChars]

/-- Every member of an object is printed. -/
theorem length_printMembers (level : Nat) (ms : List (String × Value)) :
    (Value.printMembers level ms).length = ms.length := by
  induction ms with
  | nil => rfl
  | cons m ms ih => rw [Value.printMembers, List.length_cons, ih, List.length_cons]

/-- Members that tell a record are read one after the other, up to the closing brace. -/
theorem members_further {ms : List (String × Value)} {acc result : α}
    (h : Tells fields level ms acc result) {fuel : Nat} {seen : List String}
    (hfuel : ms.length < fuel) (hnodup : (ms.map Prod.fst).Nodup)
    (hseen : ∀ name ∈ ms.map Prod.fst, name ∉ seen) (rest : List Char) :
    members fields fuel false seen acc
        (further level (Value.printMembers level ms) ++ (newLine k ++ '\x7d' :: rest)) =
      .ok (result, rest) := by
  induction h generalizing fuel seen with
  | nil acc =>
      obtain ⟨fuel, rfl⟩ := Nat.exists_eq_add_one_of_ne_zero (Nat.ne_of_gt hfuel)
      show members fields (fuel + 1) false seen acc (newLine k ++ '\x7d' :: rest) = _
      rw [members, nextKey_end]
      rfl
  | @cons name v ms f change acc result hfind hvalue _ ih =>
      obtain ⟨fuel, rfl⟩ := Nat.exists_eq_add_one_of_ne_zero
        (Nat.ne_of_gt (Nat.zero_lt_of_lt hfuel))
      obtain ⟨hname, hnames⟩ := List.nodup_cons.mp hnodup
      obtain ⟨hfree, hfrees⟩ := List.forall_mem_cons.mp hseen
      rw [Value.printMembers, further_cons, List.cons_append, List.append_assoc, List.append_assoc,
        printed_member, members_succ hfind hvalue (nextKey_further level _) hfree
          (follows_further level k _ _)]
      refine ih (Nat.lt_of_succ_lt_succ hfuel) hnames fun other hother => ?_
      exact List.not_mem_cons_of_ne_of_not_mem (ne_of_mem_of_not_mem hother hname)
        (hfrees other hother)

/-- A record is read back when its members, each of them there once, turn the default into it. -/
theorem takes_record {name : String} {default result : α} {ms : List (String × Value)}
    (h : Tells fields (level + 1) ms default result) (hnodup : (ms.map Prod.fst).Nodup) :
    Takes (record name default fields) (Value.printAt level (.object ms)) result := by
  cases h with
  | nil => exact takes_peek (by decide) (by decide) fun rest _ => rfl
  | @cons key v ms f change _ _ hfind hvalue htells =>
      obtain ⟨hkey, hkeys⟩ := List.nodup_cons.mp hnodup
      show Takes (record name default fields)
        ('\x7b' :: (separate (level + 1) (Value.printMembers (level + 1) ((key, v) :: ms)) ++
          newLine level ++ ['\x7d'])) result
      refine takes_peek (by decide) (by decide) fun rest _ => ?_
      have hlength := length_le_length_further (level + 1) (Value.printMembers (level + 1) ms)
      rw [length_printMembers] at hlength
      rw [if_neg (by decide), if_pos rfl, Value.printMembers, separate_enclosed, printed_member,
        members_succ hfind hvalue (nextKey_first (level + 1) _) List.not_mem_nil
          (follows_further (level + 1) level _ _)]
      refine members_further htells ?_ hkeys (fun other hother => ?_) rest
      · simp only [memberChars, List.length_append, List.length_cons]
        omega
      · rw [List.mem_singleton]
        exact ne_of_mem_of_not_mem hother hkey

end Members

end Reader

end DagScaffold.Json

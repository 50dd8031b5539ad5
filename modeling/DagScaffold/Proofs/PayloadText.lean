import Mathlib
import DagScaffold.CommandLine.Run
import DagScaffold.Proofs.Json.Records

/-!
# Payloads are read back from their printed form

The commands print a payload as a JSON text in which every field has its own member, but for the
pool of a task that asks for none. Each member is one that the reader of payloads knows, and the
change it makes is the component that was printed, so reading the text gives the same payload.

* `Json.Reader.Tells.text`, `flag` : members that are read into a text or a flag;
* `Payload.takes_task`, `takes_step`, `takes_payload` : the records, from the inside out;
* `Payload.ofJsonText_printed` : what a command prints is read back.
-/

namespace DagScaffold

open DagScaffold.Json DagScaffold.Json.Reader DagScaffold.Record

/-! ## Members of records -/

namespace Json.Reader.Tells

variable {α : Type} {fields : List (Field Reader α)} {level : Nat} {name : String}
  {ms : List (String × Value)} {acc result : α}

/-- A member with a text sets a field of texts. -/
theorem text {s : String} {store : String → α → α}
    (hfind : fields.find? (·.name = name) = some (.of name Reading.text store))
    (hrest : Tells fields level ms (store s acc) result) :
    Tells fields level ((name, .text s) :: ms) acc result :=
  .cons hfind ((takes_text s).map store) hrest

/-- A member with a flag sets a field of flags. -/
theorem flag {b : Bool} {store : Bool → α → α}
    (hfind : fields.find? (·.name = name) = some (.of name Reading.flag store))
    (hrest : Tells fields level ms (store b acc) result) :
    Tells fields level ((name, .flag b) :: ms) acc result :=
  .cons hfind ((takes_flag level b).map store) hrest

/-- A member with an integer sets a field of integers. -/
theorem integer {n : Int64} {store : Int64 → α → α}
    (hfind : fields.find? (·.name = name) = some (.of name Reading.integer store))
    (hrest : Tells fields level ms (store n acc) result) :
    Tells fields level ((name, .number (.integer n.toInt)) :: ms) acc result :=
  .cons hfind ((takes_integer n).map store) hrest

/-- A member with a text sets a field of texts that may be missing. -/
theorem optionalText {s : String} {store : Option String → α → α}
    (hfind : fields.find? (·.name = name) = some (.of name (Reading.optional Reading.text) store))
    (hrest : Tells fields level ms (store (some s) acc) result) :
    Tells fields level ((name, .text s) :: ms) acc result := by
  have hthere : Takes (Reader.optional Reader.text) (printText s) (some s) :=
    (takes_text s).optional (by simp [printText])
  exact .cons hfind (hthere.map store) hrest

/-- A member with a list sets a field of lists, when the items can be read. -/
theorem list {β : Type} {inner : Reader β} {vs : List Value} {bs : List β} {store : List β → α → α}
    (hfind : fields.find? (·.name = name) = some (.of name (Reading.list inner) store))
    (hitems : List.Forall₂ (fun v b => Takes inner (v.printAt (level + 1)) b) vs bs)
    (hrest : Tells fields level ms (store bs acc) result) :
    Tells fields level ((name, .list vs) :: ms) acc result :=
  .cons hfind ((takes_list hitems).map store) hrest

end Json.Reader.Tells

namespace Payload

/-- A task is read back. Its last member is there when it asks for a pool. -/
theorem takes_task (level : Nat) (t : Task) : Takes Task.reading (t.toJson.printAt level) t := by
  obtain ⟨id, name, imports, code, priority, poolSlots, kind, selectedPool⟩ := t
  cases selectedPool with
  | none =>
      refine takes_record (.text rfl <| .text rfl <| .text rfl <| .text rfl <| .text rfl <|
        .integer rfl <| .text rfl <| .nil _) ?_
      show ["id", "name", "imports", "code", "priority", "pool_slots", "type"].Nodup
      decide
  | some pool =>
      refine takes_record (.text rfl <| .text rfl <| .text rfl <| .text rfl <| .text rfl <|
        .integer rfl <| .text rfl <| .optionalText rfl <| .nil _) ?_
      show ["id", "name", "imports", "code", "priority", "pool_slots", "type",
        "selected_pool"].Nodup
      decide

/-- The items of a list that are read back one by one. -/
theorem forall₂_takes {α : Type} {inner : Reader α} {level : Nat} {toJson : α → Value}
    (h : ∀ a, Takes inner ((toJson a).printAt level) a) (as : List α) :
    List.Forall₂ (fun v a => Takes inner (v.printAt level) a) (as.map toJson) as := by
  rw [List.forall₂_map_left_iff, List.forall₂_same]
  exact fun a _ => h a

/-- A step is read back from its printed form. -/
theorem takes_step (level : Nat) (s : Step) : Takes Step.reading (s.toJson.printAt level) s := by
  refine takes_record (.text rfl <| .list rfl (forall₂_takes (takes_task _) s.tasks) <| .nil _) ?_
  show ["id", "tasks"].Nodup
  decide

/-- A payload is read back from its printed form. -/
theorem takes_payload (level : Nat) (p : Payload) : Takes reading (p.toJson.printAt level) p := by
  have hsteps := forall₂_takes (takes_step (level + 1 + 1)) p.pipeline
  have hpools : List.Forall₂ (fun v pool => Takes text (v.printAt (level + 1 + 1)) pool)
      (p.pools.map Value.text) p.pools := forall₂_takes takes_text p.pools
  refine takes_record (.text rfl <| .text rfl <| .text rfl <| .text rfl <| .text rfl <| .flag rfl <|
    .text rfl <| .text rfl <| .flag rfl <| .text rfl <| .flag rfl <| .text rfl <| .flag rfl <|
    .text rfl <| .flag rfl <| .flag rfl <| .text rfl <| .text rfl <| .flag rfl <|
    .list rfl hsteps <| .list rfl hpools <| .nil _) ?_
  show ["nomprojet", "coderobin", "git_remote", "persoid", "lddata", "use_conda", "condaenv",
    "stage", "use_vertica", "silot", "use_input", "datalab_in", "use_output", "datalab_out",
    "use_nas", "use_gpu", "cron", "bundle_base", "prepare_tests", "pipeline", "pools"].Nodup
  decide

/-- A text that a command prints for a payload is read as that payload, with or without the line
feed at its end. -/
theorem ofJsonText_printed (p : Payload) :
    ofJsonText p.toJson.pretty = .ok p ∧ ofJsonText (CommandLine.printed p.toJson) = .ok p := by
  have hpayload := takes_payload 0 p
  refine ⟨?_, hpayload.run (.lineFeed []) (by rfl)⟩
  rw [← String.append_empty (s := p.toJson.pretty)]
  exact hpayload.run .nothing (by rfl)

end Payload

end DagScaffold

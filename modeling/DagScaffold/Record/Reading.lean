/-!
# Reading records in any notation

A record is described once, by its name, its default and its fields, and read from every notation
that says how a text, a flag, an integer, a list and a record look in it.

* `Reading` : what a notation offers;
* `Field` : a named field of a record, which replaces one component.
-/

namespace DagScaffold.Record

/-- A named part of a record of type `α`: reading it gives the change it makes to the record. -/
structure Field (R : Type → Type) (α : Type) where
  name : String
  change : R (α → α)

/-- The readers of a notation. A field that is absent keeps its value in the default record, a field
that the record does not have is passed over, and a list stands for the fields in their order. -/
class Reading (R : Type → Type) where
  map : {α β : Type} → (α → β) → R α → R β
  text : R String
  flag : R Bool
  integer : R Int64
  optional : {α : Type} → R α → R (Option α)
  list : {α : Type} → R α → R (List α)
  record : {α : Type} → (name : String) → (default : α) → List (Field R α) → R α

namespace Field

variable {R : Type → Type} [Reading R] {α β : Type}

/-- The field `name`, read by `reader` and stored by `store`. -/
def of (name : String) (reader : R β) (store : β → α → α) : Field R α :=
  ⟨name, Reading.map store reader⟩

end Field

end DagScaffold.Record

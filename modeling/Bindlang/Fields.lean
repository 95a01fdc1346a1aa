import Bindlang.Keyed

namespace Bindlang

structure Fields (α : Type) where
  entries : List (String × α)
  distinct : (entries.map Prod.fst).Nodup
  deriving DecidableEq

namespace Fields

variable {α : Type}

def empty : Fields α := ⟨[], List.nodup_nil⟩

def put (name : String) (value : α) (fields : Fields α) : Fields α :=
  ⟨Keyed.put Prod.fst (name, value) fields.entries, Keyed.nodup_put Prod.fst fields.distinct⟩

/-- Of those with one name the last counts, at the place of the first. -/
def ofList (entries : List (String × α)) : Fields α :=
  ⟨Keyed.ofList Prod.fst entries, Keyed.nodup_ofList Prod.fst entries⟩

def find? (name : String) (fields : Fields α) : Option α :=
  (Keyed.find? Prod.fst name fields.entries).map Prod.snd

def names (fields : Fields α) : List String :=
  fields.entries.map Prod.fst

def contains (name : String) (fields : Fields α) : Bool :=
  fields.names.contains name

@[simp] theorem find_put (name other : String) (value : α) (fields : Fields α) :
    (fields.put other value).find? name = if other = name then some value else fields.find? name := by
  simp only [find?, put, Keyed.find_put]
  split <;> rfl

end Fields

end Bindlang

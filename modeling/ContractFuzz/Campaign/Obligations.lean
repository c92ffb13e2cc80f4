import ContractFuzz.Text.Front

namespace ContractFuzz

structure Obligations where
  live : List String
  nodup : live.Nodup

namespace Obligations

/-- Add a name after the others, unless it is there. -/
def add (o : Obligations) (name : String) : Obligations :=
  if h : name ∈ o.live then o
  else
    ⟨o.live ++ [name], by
      refine List.nodup_append.2 ⟨o.nodup, by simp, ?_⟩
      rintro a ha b hb rfl
      simp only [List.mem_singleton] at hb
      exact h (hb ▸ ha)⟩

def empty : Obligations := ⟨[], List.Pairwise.nil⟩

instance : Inhabited Obligations := ⟨empty⟩

/-- The distinct names of a list, each where it comes first. -/
def ofList (names : List String) : Obligations := names.foldl add empty

def isEmpty (o : Obligations) : Bool := o.live.isEmpty

def size (o : Obligations) : Nat := o.live.length

def contains (o : Obligations) (name : String) : Bool := o.live.contains name

/-- The first live name that a message starts with. -/
def matching? (o : Obligations) (message : String) : Option String :=
  o.live.find? fun name => Text.startsWith message name

/-- Remove a name. -/
def retire (o : Obligations) (name : String) : Obligations :=
  ⟨o.live.erase name, o.nodup.erase name⟩

/-- Remove a name, and tell whether it was there. -/
def containsThenRetire (o : Obligations) (name : String) : Bool × Obligations :=
  (o.contains name, o.retire name)

/-- Remove names one after another. -/
def retireAll (o : Obligations) (names : List String) : Obligations := names.foldl retire o

end Obligations

end ContractFuzz

import ContractFuzz.Schema
import Mathlib.Data.List.Forall2

namespace ContractFuzz

namespace Abi

def Entry.defines? (name : String) : Entry → Option Struct
  | .struct s => if s.localName = name then some s else none
  | _ => none

/-- The struct that a local name stands for among some entries: the last one that has it. -/
def definition? (name : String) : List Entry → Option Struct
  | [] => none
  | entry :: rest => (definition? name rest).or (entry.defines? name)

theorem Entry.defines?_eq_some_iff {name : String} {entry : Entry} {s : Struct} :
    entry.defines? name = some s ↔ entry = .struct s ∧ s.localName = name := by
  cases entry <;> simp [defines?]
  constructor
  · rintro ⟨hname, rfl⟩
    exact ⟨rfl, hname⟩
  · rintro ⟨rfl, hname⟩
    exact ⟨hname, rfl⟩

theorem definition?_append (name : String) (earlier later : List Entry) :
    definition? name (earlier ++ later) =
      (definition? name later).or (definition? name earlier) := by
  induction earlier with
  | nil => simp [definition?]
  | cons entry rest ih => rw [List.cons_append, definition?, definition?, ih, Option.or_assoc]

theorem definition?_eq_none_iff {name : String} {entries : List Entry} :
    definition? name entries = none ↔ ∀ s, .struct s ∈ entries → s.localName ≠ name := by
  induction entries with
  | nil => simp [definition?]
  | cons entry rest ih =>
      rw [definition?, Option.or_eq_none_iff, ih]
      constructor
      · rintro ⟨hrest, hentry⟩ s hs hname
        rcases List.mem_cons.mp hs with hs | hs
        · rw [Entry.defines?_eq_some_iff.mpr ⟨hs.symm, hname⟩] at hentry
          cases hentry
        · exact hrest s hs hname
      · intro h
        refine ⟨fun s hs => h s (List.mem_cons_of_mem _ hs), ?_⟩
        rw [Option.eq_none_iff_forall_ne_some]
        intro s hs
        obtain ⟨rfl, hname⟩ := Entry.defines?_eq_some_iff.mp hs
        exact h s List.mem_cons_self hname

theorem mem_of_definition? {name : String} {entries : List Entry} {s : Struct}
    (h : definition? name entries = some s) : .struct s ∈ entries ∧ s.localName = name := by
  induction entries with
  | nil => cases h
  | cons entry rest ih =>
      rcases Option.or_eq_some_iff.mp h with h | ⟨-, h⟩
      · exact ⟨List.mem_cons_of_mem _ (ih h).1, (ih h).2⟩
      · obtain ⟨rfl, hname⟩ := Entry.defines?_eq_some_iff.mp h
        exact ⟨List.mem_cons_self, hname⟩

theorem definition?_of_unique {entries : List Entry} {s : Struct} (hs : .struct s ∈ entries)
    (hunique : ∀ other, .struct other ∈ entries → other.localName = s.localName → other = s) :
    definition? s.localName entries = some s := by
  cases hfound : definition? s.localName entries with
  | none => exact absurd rfl (definition?_eq_none_iff.mp hfound s hs)
  | some other =>
      obtain ⟨hother, hname⟩ := mem_of_definition? hfound
      rw [hunique other hother hname]

end Abi

namespace Schema

/-- A schema has, at a local name, the members of a struct: their types as they are read, in memory
order. -/
def Defines (schema : Schema) (name : String) (s : Abi.Struct) : Prop :=
  ∃ shapes, (s.orderedMembers.mapM fun m => Calldata.Shape.parse m.typeText) = .ok shapes ∧
    schema.structs.get? name = some shapes

theorem mapM_reads {α β ε : Type} (read : α → Except ε β) (items : List α) :
    match items.mapM read with
    | .ok values => List.Forall₂ (fun item value => read item = .ok value) items values
    | .error e => ∃ item ∈ items, read item = .error e := by
  induction items with
  | nil => exact .nil
  | cons item rest ih =>
      rw [List.mapM_cons]
      rcases hitem : read item with e | value
      · exact ⟨item, List.mem_cons_self, hitem⟩
      rcases hrest : rest.mapM read with e | values
      · rw [hrest] at ih
        obtain ⟨other, hother, hread⟩ := ih
        exact ⟨other, List.mem_cons_of_mem _ hother, hread⟩
      · rw [hrest] at ih
        exact .cons hitem ih

theorem exists_mem_of_forall₂ {α β : Type} {R : α → β → Prop} {items : List α} {values : List β}
    (h : List.Forall₂ R items values) {item : α} (hitem : item ∈ items) :
    ∃ value ∈ values, R item value := by
  induction h with
  | nil => cases hitem
  | cons hfirst _ ih =>
      rcases List.mem_cons.mp hitem with rfl | hrest
      · exact ⟨_, List.mem_cons_self, hfirst⟩
      · obtain ⟨value, hvalue, hrelated⟩ := ih hrest
        exact ⟨value, List.mem_cons_of_mem _ hvalue, hrelated⟩

variable {schema after : Schema}

theorem get?_of_registerEntry (name : String) {entry : Abi.Entry}
    (h : schema.registerEntry entry = .ok after) :
    match entry.defines? name with
    | some s => after.Defines name s
    | none => after.structs.get? name = schema.structs.get? name := by
  cases entry with
  | struct s =>
      rw [registerEntry, memberShapes] at h
      rcases hread : s.orderedMembers.mapM fun m => Calldata.Shape.parse m.typeText with e | shapes
      · rw [hread] at h
        cases h
      · rw [hread] at h
        cases h
        rw [Abi.Entry.defines?]
        by_cases hname : s.localName = name
        · rw [if_pos hname]
          exact ⟨shapes, hread, by rw [SortedMap.get?_insert, if_pos hname.symm]⟩
        · rw [if_neg hname]
          exact (SortedMap.get?_insert).trans (if_neg (Ne.symm hname))
  | constructor | function | l1Handler | event | other =>
      cases h
      rfl

/-- Registered entries define the names that they have structs for, and leave the others alone. -/
theorem get?_of_register (name : String) {entries : List Abi.Entry}
    (h : schema.register entries = .ok after) :
    match Abi.definition? name entries with
    | some s => after.Defines name s
    | none => after.structs.get? name = schema.structs.get? name := by
  induction entries generalizing schema with
  | nil =>
      cases h
      rfl
  | cons entry rest ih =>
      rw [register] at h
      split at h
      · rename_i middle hentry
        have hrest := ih h
        rw [Abi.definition?]
        cases hlater : Abi.definition? name rest with
        | some s =>
            rw [hlater] at hrest
            exact hrest
        | none =>
            rw [hlater] at hrest
            have hfirst := get?_of_registerEntry name hentry
            rw [Option.none_or]
            cases hdefined : entry.defines? name with
            | some s =>
                rw [hdefined] at hfirst
                obtain ⟨shapes, hread, hget⟩ := hfirst
                exact ⟨shapes, hread, hrest.trans hget⟩
            | none =>
                rw [hdefined] at hfirst
                exact hrest.trans hfirst
      · cases h

theorem register_append (schema : Schema) (earlier later : List Abi.Entry) :
    schema.register (earlier ++ later) = (schema.register earlier).bind (·.register later) := by
  induction earlier generalizing schema with
  | nil => rfl
  | cons entry rest ih =>
      rw [List.cons_append, register, register]
      split
      · exact ih _
      · rfl

theorem registerAll_eq_register (schema : Schema) (interfaces : List (List Abi.Entry)) :
    schema.registerAll interfaces = schema.register interfaces.flatten := by
  induction interfaces generalizing schema with
  | nil => rfl
  | cons entries rest ih =>
      rw [List.flatten_cons, register_append, registerAll]
      split
      · rename_i middle hregister
        rw [hregister, ih]
        rfl
      · rename_i e hregister
        rw [hregister]
        rfl

theorem structs_of_survey {options : SchemaOptions} {entries : List Abi.Entry}
    (h : (survey options schema entries).1 = .ok after) : after.structs = schema.structs := by
  induction entries generalizing schema with
  | nil =>
      cases h
      rfl
  | cons entry rest ih =>
      rw [survey] at h
      split at h
      · exact (ih h).trans rfl
      · exact ih h
      · split at h
        · exact (ih h).trans rfl
        · cases h
      · exact ih h

/-- A struct whose local name is its own within the target has the members of the last declared
struct of that name, and its own members if none is declared. -/
theorem discover_defines {target : List Abi.Entry} {declared : List (List Abi.Entry)}
    {options : SchemaOptions} (h : (discover target declared options).1 = .ok schema)
    {s : Abi.Struct} (hs : .struct s ∈ target)
    (hunique : ∀ other, .struct other ∈ target → other.localName = s.localName → other = s) :
    schema.Defines s.localName ((Abi.definition? s.localName declared.flatten).getD s) := by
  rw [discover] at h
  split at h
  · rename_i registered hregistered
    rw [registerAll_eq_register, List.flatten_cons] at hregistered
    have hdefined := get?_of_register s.localName hregistered
    rw [Abi.definition?_append, Abi.definition?_of_unique hs hunique] at hdefined
    rw [Defines, structs_of_survey h]
    cases hdeclared : Abi.definition? s.localName declared.flatten with
    | some other =>
        rw [hdeclared] at hdefined
        exact hdefined
    | none =>
        rw [hdeclared] at hdefined
        exact hdefined
  · cases h

def point : Abi.Struct :=
  ⟨"drawing.Point", some 2, [⟨"x", "felt", some 0⟩, ⟨"y", "felt", some 1⟩]⟩

/-- What a match is won by, of which a contract that is declared along has its own notion. -/
def matchPoint : Abi.Struct := ⟨"scoring.Point", some 1, [⟨"player", "felt", some 0⟩]⟩

def drawing : List Abi.Entry :=
  [.struct point, .function ⟨"plot", [⟨"p", "drawing.Point", none⟩], [], none⟩]

def scoring : List Abi.Entry := [.struct matchPoint]

def plainOptions : SchemaOptions := ⟨"tayt_", .empty⟩

theorem point_unique {other : Abi.Struct} (h : .struct other ∈ drawing) : other = point := by
  rcases List.mem_cons.mp h with h | h
  · exact Abi.Entry.struct.inj h
  · cases List.mem_singleton.mp h

theorem memberShapes_point : memberShapes point = .ok [.felt, .felt] := by
  have hordered : point.orderedMembers = point.members := List.mergeSort_of_pairwise (by decide)
  rw [memberShapes, hordered]
  rfl

theorem memberShapes_matchPoint : memberShapes matchPoint = .ok [.felt] := by
  have hordered : matchPoint.orderedMembers = matchPoint.members :=
    List.mergeSort_of_pairwise (by decide)
  rw [memberShapes, hordered]
  rfl

theorem discover_drawing : ∃ schema, (discover drawing [scoring] plainOptions).1 = .ok schema ∧
    schema.structs.get? point.localName = some [.felt] := by
  simp only [discover, drawing, scoring, registerAll, register, registerEntry, memberShapes_point,
    memberShapes_matchPoint]
  exact ⟨_, rfl, SortedMap.get?_insert.trans (if_pos (by decide +kernel))⟩

theorem discover_defines_matchPoint : ∃ schema,
    (discover drawing [scoring] plainOptions).1 = .ok schema ∧
      schema.Defines point.localName matchPoint := by
  obtain ⟨schema, hschema, -⟩ := discover_drawing
  have hdefines := discover_defines hschema List.mem_cons_self fun _ h _ => point_unique h
  have hmatch : (Abi.definition? point.localName [scoring].flatten).getD point = matchPoint := by
    decide +kernel
  rw [hmatch] at hdefines
  exact ⟨schema, hschema, hdefines⟩

/-- A plotted point has two coordinates, but gets calldata for the one member of a match point. -/
theorem drawing_loses_point : ∃ schema,
    (discover drawing [scoring] plainOptions).1 = .ok schema ∧ .struct point ∈ drawing ∧
      (∀ other, .struct other ∈ drawing → other.localName = point.localName → other = point) ∧
      ¬ schema.Defines point.localName point := by
  obtain ⟨schema, hschema, hone⟩ := discover_drawing
  refine ⟨schema, hschema, List.mem_cons_self, fun _ h _ => point_unique h, ?_⟩
  rintro ⟨shapes, hread, hget⟩
  have htwo := memberShapes_point
  rw [memberShapes, hread] at htwo
  cases htwo
  rw [hget] at hone
  cases hone

end Schema

end ContractFuzz

import ContractFuzz.Proofs.Calldata.Faults
import ContractFuzz.Proofs.Calldata.Printing
import ContractFuzz.Proofs.Schema.Surface

/-!
References to structs. Types refer to structs by their whole names, while the struct table knows
them by their local ones. The last part of a path is the local name of the struct that the path is
the name of, so generation finds every struct that is referred to in this way.
-/

namespace ContractFuzz

namespace Calldata

/-- The text of a type has a path in it that stands for a type. -/
def RefersBy (typeText : String) (p : Grammar.Path) : Prop :=
  ∃ tokens shape, Grammar.Spells typeText.toList tokens [] ∧ Grammar.IsType tokens shape ∧
    p.IsTypeIn tokens

theorem exists_refersBy {typeText name : String} {shape : Shape}
    (h : Shape.parse typeText = .ok shape) (hname : shape.Mentions name) :
    ∃ p, RefersBy typeText p ∧ p.Names (.struct name) := by
  rw [parse_eq_ok_iff_whole, Parser.whole_eq_ok_iff] at h
  obtain ⟨tokens, hspells, htype⟩ := h
  obtain ⟨p, hp, hnames⟩ := htype.exists_path hname
  exact ⟨p, ⟨tokens, shape, hspells, htype, hp⟩, hnames⟩

section Paths

variable {s : List Char}

theorem skipBlank_of_path (h : ∀ c ∈ s, Parser.isPathChar c = true) : Text.skipBlank s = s := by
  cases s with
  | nil => rfl
  | cons c s =>
      apply Grammar.skipBlank_cons_of_not_blank
      rw [Grammar.isBlank_eq_false_of_isPathChar (h c List.mem_cons_self)]
      exact Bool.false_ne_true

theorem chars_of_refersBy {typeText : String} {p : Grammar.Path}
    (hpath : ∀ c ∈ typeText.toList, Parser.isPathChar c = true) (h : RefersBy typeText p) :
    p.chars = typeText.toList := by
  obtain ⟨tokens, shape, hspells, htype, hp⟩ := h
  have hchar {t : Grammar.Token} (ht : t ∈ tokens) {c : Char} (hc : c ∈ t.text) :
      Parser.isPathChar c = true := by
    obtain ⟨before, after, hs⟩ := hspells.exists_append ht
    exact hpath c (by simp [hs, hc])
  cases htype with
  | stars hbase count =>
      cases count with
      | succ count =>
          exact absurd (hchar (List.mem_append_right _ List.mem_cons_self) (List.mem_singleton_self '*'))
            (by decide)
      | zero =>
          cases hbase with
          | unit => exact absurd (hchar List.mem_cons_self (List.mem_singleton_self '(')) (by decide)
          | tuple _ => exact absurd (hchar List.mem_cons_self (List.mem_singleton_self '(')) (by decide)
          | @path q _ _ =>
              obtain rfl : p = q := by simpa using hp.mem
              obtain ⟨rest, hs, hrest⟩ := Grammar.spells_cons_iff.mp hspells
              rw [skipBlank_of_path hpath] at hs
              have hnone : Text.skipBlank rest = [] := hrest.skipBlank_eq
              rw [skipBlank_of_path fun c hc => hpath c (by simp [hs, hc])] at hnone
              rw [hs, hnone, List.append_nil]
              rfl

end Paths

section Lowering

variable {lowered after : List TypedInput} {typed : TypedInput}

theorem mem_of_lowerInput {input : Abi.Member} (h : lowerInput lowered input = .ok after)
    (htyped : typed ∈ after) :
    typed ∈ lowered ∨ Shape.parse input.typeText = .ok typed.shape := by
  rw [lowerInput] at h
  split at h
  · cases h
  rename_i shape hread
  split at h
  · split at h
    · split at h
      · cases h
        rcases List.mem_cons.mp htyped with rfl | hbefore
        · exact .inr hread
        · exact .inl (List.mem_cons_of_mem _ hbefore)
      · cases h
    · cases h
  · cases h
    rcases List.mem_cons.mp htyped with rfl | hlowered
    · exact .inr hread
    · exact .inl hlowered

theorem mem_of_lowerInputs {inputs : List Abi.Member} (h : lowerInputs lowered inputs = .ok after)
    (htyped : typed ∈ after) :
    typed ∈ lowered ∨ ∃ input ∈ inputs, Shape.parse input.typeText = .ok typed.shape := by
  induction inputs generalizing lowered with
  | nil =>
      cases h
      exact .inl htyped
  | cons input rest ih =>
      rw [lowerInputs] at h
      split at h
      · rename_i middle hlower
        rcases ih h with hmiddle | ⟨other, hother, hread⟩
        · exact (mem_of_lowerInput hlower hmiddle).imp_right fun hread =>
            ⟨input, List.mem_cons_self, hread⟩
        · exact .inr ⟨other, List.mem_cons_of_mem _ hother, hread⟩
      · cases h

theorem exists_input_of_parseArguments {inputs : List Abi.Member} {arguments : List Shape}
    (h : parseArguments inputs = .ok arguments) {shape : Shape} (hshape : shape ∈ arguments) :
    ∃ input ∈ inputs, Shape.parse input.typeText = .ok shape := by
  rw [parseArguments] at h
  split at h
  · rename_i lowered hlowered
    cases h
    obtain ⟨typed, htyped, rfl⟩ := List.mem_map.mp hshape
    rcases mem_of_lowerInputs hlowered (List.mem_reverse.mp htyped) with hnone | hinput
    · cases hnone
    · exact hinput
  · cases h

end Lowering

/-- A struct table has every struct that a shape mentions. -/
def Shape.Resolves (structs : StructTable) (shape : Shape) : Prop :=
  ∀ name, shape.Mentions name → structs.get? name ≠ none

section Tables

variable {structs : StructTable}

theorem Shape.Resolves.children {shape child : Shape} (h : shape.Resolves structs)
    (htable : ∀ name members, structs.get? name = some members →
      ∀ member ∈ members, member.Resolves structs)
    (hchild : child ∈ shape.children structs) : child.Resolves structs := by
  cases shape with
  | felt => cases hchild
  | pointer pointee =>
      rw [List.mem_singleton.mp hchild]
      exact fun name hname => h name (.pointer hname)
  | tuple members => exact fun name hname => h name (.tuple hchild hname)
  | struct name =>
      obtain ⟨members, hmembers⟩ := Option.ne_none_iff_exists'.mp (h name .struct)
      rw [Shape.children, hmembers] at hchild
      exact htable name members hmembers child hchild

theorem LiesAt.resolves {shape node : Shape} {place : List Nat}
    (h : LiesAt structs shape place node) (hshape : shape.Resolves structs)
    (htable : ∀ name members, structs.get? name = some members →
      ∀ member ∈ members, member.Resolves structs) : node.Resolves structs := by
  induction h with
  | here => exact hshape
  | down hchild _ ih => exact ih (hshape.children htable (List.mem_of_getElem? hchild))

theorem calldata_ne_unknownStruct {shapes : List Shape}
    (hshapes : ∀ shape ∈ shapes, shape.Resolves structs)
    (htable : ∀ name members, structs.get? name = some members →
      ∀ member ∈ members, member.Resolves structs)
    {ρ : Type} (source : Random.Source ρ) (g : Generator) (state : ρ) (name : String) :
    (g.calldata source structs shapes state).1 ≠ .error (.unknownStruct name) := by
  intro herror
  have htells := Generator.tells_calldata source g structs shapes state
  rw [herror] at htells
  obtain ⟨_, hoffends, -⟩ := htells
  cases hoffends with
  | item hitem hoffends =>
      cases hoffends with
      | unknownStruct h _ hname =>
          exact h.resolves (hshapes _ (List.mem_of_getElem? hitem)) htable name .struct hname

end Tables

end Calldata

open Calldata (Shape RefersBy exists_refersBy)

/-- A type refers to nothing but the scalar and structs among some entries, by their whole names. -/
def Abi.RefersWithin (entries : List Entry) (typeText : String) : Prop :=
  ∀ p, RefersBy typeText p →
    p.chars = "felt".toList ∨ ∃ s, .struct s ∈ entries ∧ s.name.toList = p.chars

namespace Schema

variable {schema : Schema} {entries : List Abi.Entry}

theorem localName_of_names {p : Calldata.Grammar.Path} {name : String} {s : Abi.Struct}
    (h : p.Names (.struct name)) (hs : s.name.toList = p.chars) : s.localName = name := by
  cases h with
  | struct _ _ split hscope hname =>
      rw [Abi.Struct.localName, hs, Abi.lastSegment_eq_iff.mpr ⟨_, split, hscope, hname⟩]

theorem get?_register_ne_none (h : empty.register entries = .ok schema) {s : Abi.Struct}
    (hs : .struct s ∈ entries) : schema.structs.get? s.localName ≠ none := by
  have hdefined := get?_of_register s.localName h
  cases hfound : Abi.definition? s.localName entries with
  | none => exact absurd rfl (Abi.definition?_eq_none_iff.mp hfound s hs)
  | some last =>
      rw [hfound] at hdefined
      obtain ⟨shapes, -, hget⟩ := hdefined
      rw [hget]
      exact Option.some_ne_none shapes

theorem exists_member_of_register (h : empty.register entries = .ok schema) {name : String}
    {members : List Shape} (hmembers : schema.structs.get? name = some members) :
    ∃ s, Abi.definition? name entries = some s ∧
      ∀ shape ∈ members, ∃ m ∈ s.members, Shape.parse m.typeText = .ok shape := by
  have hdefined := get?_of_register name h
  cases hfound : Abi.definition? name entries with
  | none =>
      rw [hfound] at hdefined
      change schema.structs.get? name = none at hdefined
      rw [hmembers] at hdefined
      cases hdefined
  | some s =>
      rw [hfound] at hdefined
      obtain ⟨shapes, hread, hget⟩ := hdefined
      rw [hmembers] at hget
      cases hget
      have hreads := mapM_reads (fun m : Abi.Member => Shape.parse m.typeText) s.orderedMembers
      rw [hread] at hreads
      refine ⟨s, rfl, ?_⟩
      intro shape hshape
      obtain ⟨m, hm, hshape⟩ := exists_mem_of_forall₂ hreads.flip hshape
      exact ⟨m, List.mem_mergeSort.mp hm, hshape⟩

theorem resolves_of_refersWithin (h : empty.register entries = .ok schema) {typeText : String}
    (hrefers : Abi.RefersWithin entries typeText) {shape : Shape}
    (hread : Shape.parse typeText = .ok shape) : shape.Resolves schema.structs := by
  intro name hname
  obtain ⟨p, hp, hnames⟩ := exists_refersBy hread hname
  rcases hrefers p hp with hfelt | ⟨s, hs, hchars⟩
  · cases hnames with
    | struct notFelt => exact absurd hfelt notFelt
  · rw [← localName_of_names hnames hchars]
    exact get?_register_ne_none h hs

/-- Where the structs of the table and the inputs of all functions that are called refer to structs
by their names, no generator fails for a struct that is not known. -/
theorem discover_resolves {target : List Abi.Entry} {declared : List (List Abi.Entry)}
    {options : SchemaOptions} (h : (discover target declared options).1 = .ok schema)
    (hmembers : ∀ name s, Abi.definition? name (target :: declared).flatten = some s →
      ∀ m ∈ s.members, Abi.RefersWithin (target :: declared).flatten m.typeText)
    (hinputs : ∀ entry ∈ target, ∀ f kind, options.role entry = .callable f kind →
      ∀ input ∈ f.inputs, Abi.RefersWithin (target :: declared).flatten input.typeText)
    {c : Callable} (hc : c ∈ schema.functions) {ρ : Type} (source : Random.Source ρ)
    (g : Calldata.Generator) (state : ρ) (name : String) :
    (g.calldata source schema.structs c.arguments state).1 ≠ .error (.unknownStruct name) := by
  have hfound := discover_foundIn h
  rw [discover] at h
  split at h
  · rename_i registered hregistered
    rw [registerAll_eq_register] at hregistered
    rw [structs_of_survey h]
    apply Calldata.calldata_ne_unknownStruct
    · intro shape hshape
      obtain ⟨entry, hentry, f, hrole, hcallable⟩ := hfound.functions c hc
      obtain ⟨-, -, harguments⟩ := callableOf_eq_ok hcallable
      obtain ⟨input, hinput, hread⟩ := Calldata.exists_input_of_parseArguments harguments hshape
      exact resolves_of_refersWithin hregistered (hinputs entry hentry f _ hrole input hinput) hread
    · intro name members hget shape hshape
      obtain ⟨s, hs, hread⟩ := exists_member_of_register hregistered hget
      obtain ⟨m, hm, hread⟩ := hread shape hshape
      exact resolves_of_refersWithin hregistered (hmembers name s hs m hm) hread
  · cases h

theorem plot_discovered : ∃ schema, (discover drawing [scoring] plainOptions).1 = .ok schema ∧
    ⟨"plot", [.struct "Point"], .mutating⟩ ∈ schema.functions := by
  simp only [discover, drawing, scoring, registerAll, register, registerEntry, memberShapes_point,
    memberShapes_matchPoint]
  exact ⟨_, rfl, List.mem_cons_self⟩

theorem refersWithin_of_felt : Abi.RefersWithin entries "felt" := by
  have hpath : ∀ c ∈ "felt".toList, Calldata.Parser.isPathChar c = true :=
    List.all_eq_true.mp (by decide)
  intro p hp
  exact .inl (Calldata.chars_of_refersBy hpath hp)

theorem struct_mem_drawing {s : Abi.Struct} (h : .struct s ∈ [drawing, scoring].flatten) :
    s = point ∨ s = matchPoint := by
  simpa [drawing, scoring] using h

theorem discover_resolves_drawing : ∃ schema,
    (discover drawing [scoring] plainOptions).1 = .ok schema ∧
      ∃ c ∈ schema.functions, c.arguments = [.struct "Point"] ∧
        ∀ (g : Calldata.Generator) state name,
          (g.calldata Random.Stream.source schema.structs c.arguments state).1 ≠
            .error (.unknownStruct name) := by
  obtain ⟨schema, hschema, hplot⟩ := plot_discovered
  refine ⟨schema, hschema, _, hplot, rfl, ?_⟩
  intro g state name
  apply discover_resolves hschema ?_ ?_ hplot
  · intro name s hs m hm
    have hfelt : m.typeText = "felt" := by
      rcases struct_mem_drawing (Abi.mem_of_definition? hs).1 with rfl | rfl
      · rcases List.mem_cons.mp hm with rfl | hm
        · rfl
        · rw [List.mem_singleton.mp hm]
      · rw [List.mem_singleton.mp hm]
    rw [hfelt]
    exact refersWithin_of_felt
  · intro entry hentry f kind hrole input hinput p hp
    have hpoint : input.typeText = "drawing.Point" := by
      rcases (SchemaOptions.of_role_callable hrole).1 with rfl | rfl
      · have hf : f = ⟨"plot", [⟨"p", "drawing.Point", none⟩], [], none⟩ := by
          simpa [drawing] using hentry
        rw [hf] at hinput
        rw [List.mem_singleton.mp hinput]
      · simp [drawing] at hentry
    rw [hpoint] at hp
    have hpath : ∀ c ∈ "drawing.Point".toList, Calldata.Parser.isPathChar c = true :=
      List.all_eq_true.mp (by decide)
    exact .inr ⟨point, by simp [drawing], (Calldata.chars_of_refersBy hpath hp).symm⟩

end Schema

end ContractFuzz

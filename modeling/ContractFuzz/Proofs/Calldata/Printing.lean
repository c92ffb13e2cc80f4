import ContractFuzz.Proofs.Calldata.Reading

namespace ContractFuzz.Calldata

@[elab_as_elim, induction_eliminator]
theorem Shape.induction {motive : Shape → Prop} (felt : motive .felt)
    (pointer : ∀ pointee, motive pointee → motive (.pointer pointee))
    (tuple : ∀ members, (∀ member ∈ members, motive member) → motive (.tuple members))
    (struct : ∀ name, motive (.struct name)) (shape : Shape) : motive shape :=
  match shape with
  | .felt => felt
  | .pointer pointee => pointer pointee (induction felt pointer tuple struct pointee)
  | .tuple members => tuple members fun member _ => induction felt pointer tuple struct member
  | .struct name => struct name

/-- The names of the structs anywhere in a shape. -/
inductive Shape.Mentions (name : String) : Shape → Prop
  | pointer {pointee} (h : Mentions name pointee) : Mentions name (.pointer pointee)
  | tuple {members member} (hmember : member ∈ members) (h : Mentions name member) :
      Mentions name (.tuple members)
  | struct : Mentions name (.struct name)

section Mentions

variable {name word : String}

@[simp]
theorem Shape.mentions_felt : ¬Shape.felt.Mentions name := by
  intro h
  cases h

@[simp]
theorem Shape.mentions_pointer {pointee : Shape} :
    (Shape.pointer pointee).Mentions name ↔ pointee.Mentions name := by
  constructor
  · intro h
    cases h with
    | pointer h => exact h
  · exact .pointer

@[simp]
theorem Shape.mentions_tuple {members : List Shape} :
    (Shape.tuple members).Mentions name ↔ ∃ member ∈ members, member.Mentions name := by
  constructor
  · intro h
    cases h with
    | tuple hmember h => exact ⟨_, hmember, h⟩
  · rintro ⟨member, hmember, h⟩
    exact .tuple hmember h

@[simp]
theorem Shape.mentions_struct : (Shape.struct word).Mentions name ↔ name = word := by
  constructor
  · intro h
    cases h
    rfl
  · rintro rfl
    exact .struct

@[simp]
theorem Shape.mentions_iterate_pointer {base : Shape} {count : Nat} :
    (Shape.pointer^[count] base).Mentions name ↔ base.Mentions name := by
  induction count generalizing base with
  | zero => rfl
  | succ count ih => rw [Function.iterate_succ_apply, ih, mentions_pointer]

end Mentions

/-- A word that is read as the struct of that name. -/
structure IsStructName (name : String) : Prop where
  nonempty : name ≠ ""
  word : ∀ c ∈ name.toList, c.isAlphanum = true ∨ c = '_'
  ne_felt : name ≠ "felt"
  ne_codeOffset : name ≠ "codeoffset"

namespace Grammar

section Printing

variable {tokens : List Token} {base shape first : Shape} {others : List Shape} {name : String}

theorem IsBase.isType (h : IsBase tokens base) : IsType tokens base := by
  simpa using IsType.stars h 0

theorem IsType.pointer (h : IsType tokens shape) : IsType (tokens ++ [.star]) (.pointer shape) := by
  cases h with
  | stars hbase count =>
      rw [List.append_assoc, ← List.replicate_succ', ← Function.iterate_succ_apply' Shape.pointer]
      exact .stars hbase (count + 1)

/-- A text spells a type of a shape, whatever comes after it. -/
def SpelledBy (text : List Char) (shape : Shape) : Prop :=
  ∃ tokens, IsType tokens shape ∧ ∀ rest, Spells (text ++ rest) tokens rest

theorem spelledBy_path (p : Path) (h : p.Names shape) : SpelledBy p.chars shape :=
  ⟨[.path p], (IsBase.path h).isType, fun _ => .token (.path p) .done⟩

theorem spelledBy_struct (h : IsStructName name) : SpelledBy name.toList (.struct name) := by
  have hne {word : String} (hname : name ≠ word) : name.toList ≠ word.toList := by
    intro hword
    exact hname (String.toList_inj.mp hword)
  have hchars : ∀ c ∈ name.toList, Parser.isPathChar c = true := by
    intro c hc
    rcases h.word c hc with hc | rfl
    · simp [Parser.isPathChar, hc]
    · rfl
  have hpoint : '.' ∉ name.toList := by
    intro hc
    rcases h.word '.' hc with hc | hc <;> exact absurd hc (by decide)
  let p : Path := ⟨name.toList, hne h.nonempty, hchars⟩
  have hnames : p.Names (.struct (String.ofList name.toList)) :=
    .struct (hne h.ne_felt) (hne h.ne_codeOffset) (List.nil_append _).symm (.inl rfl) hpoint
  rw [String.ofList_toList] at hnames
  exact spelledBy_path p hnames

theorem areMembers_textRest (hfirst : SpelledBy first.text first)
    (hothers : ∀ member ∈ others, SpelledBy member.text member) :
    ∃ tokens, AreMembers tokens (first :: others) ∧
      ∀ rest, Spells (first.text ++ Shape.textRest others ++ rest) tokens rest := by
  induction others generalizing first with
  | nil =>
      obtain ⟨tokens, htype, hspells⟩ := hfirst
      refine ⟨tokens, .last (.unnamed htype), ?_⟩
      intro rest
      rw [Shape.textRest, List.append_nil]
      exact hspells rest
  | cons second others ih =>
      obtain ⟨hsecond, hothers⟩ := List.forall_mem_cons.mp hothers
      obtain ⟨tokens, htype, hspells⟩ := hfirst
      obtain ⟨more, hmore, hmoreSpells⟩ := ih hsecond hothers
      refine ⟨tokens ++ .comma :: more, .more (.unnamed htype) hmore, ?_⟩
      intro rest
      rw [Shape.textRest, List.append_assoc]
      apply (hspells _).append
      exact .token .comma (.blank (by decide) (hmoreSpells rest))

theorem spelledBy_text (h : ∀ name, shape.Mentions name → IsStructName name) :
    SpelledBy shape.text shape := by
  induction shape with
  | felt =>
      let p : Path := ⟨"felt".toList, by decide, List.all_eq_true.mp rfl⟩
      exact spelledBy_path p (.felt rfl)
  | pointer pointee ih =>
      obtain ⟨tokens, htype, hspells⟩ := ih fun name hname => h name (.pointer hname)
      refine ⟨tokens ++ [.star], htype.pointer, ?_⟩
      intro rest
      rw [Shape.text, List.append_assoc]
      exact (hspells _).append (.token .star .done)
  | tuple members ih =>
      have hmembers : ∀ member ∈ members, SpelledBy member.text member := by
        intro member hmember
        exact ih member hmember fun name hname => h name (.tuple hmember hname)
      cases members with
      | nil => exact ⟨_, IsBase.unit.isType, fun _ => .token .leftParen (.token .rightParen .done)⟩
      | cons first others =>
          obtain ⟨hfirst, hothers⟩ := List.forall_mem_cons.mp hmembers
          obtain ⟨tokens, hareMembers, hspells⟩ := areMembers_textRest hfirst hothers
          refine ⟨_, (IsBase.tuple hareMembers).isType, ?_⟩
          intro rest
          rw [Shape.text, List.cons_append, List.append_assoc]
          exact .token .leftParen ((hspells _).append (.token .rightParen .done))
  | struct name => exact spelledBy_struct (h name .struct)

end Printing

section Names

variable {name : String}

mutual

theorem IsType.exists_path {tokens : List Token} {shape : Shape} (h : IsType tokens shape)
    (hname : shape.Mentions name) : ∃ p : Path, p.IsTypeIn tokens ∧ p.Names (.struct name) :=
  match h with
  | .stars hbase count => by
      obtain ⟨p, hp, hnames⟩ := hbase.exists_path (Shape.mentions_iterate_pointer.mp hname)
      refine ⟨p, hp.append ?_, hnames⟩
      cases count <;> simp [List.replicate_succ]

theorem IsBase.exists_path {tokens : List Token} {base : Shape} (h : IsBase tokens base)
    (hname : base.Mentions name) : ∃ p : Path, p.IsTypeIn tokens ∧ p.Names (.struct name) :=
  match h with
  | .unit => by simp at hname
  | .tuple hareMembers => by
      obtain ⟨member, hmember, hname⟩ := Shape.mentions_tuple.mp hname
      obtain ⟨p, hp, hnames⟩ := hareMembers.exists_path member hmember hname
      exact ⟨p, (hp.append (by simp)).prepend [.leftParen], hnames⟩
  | .path hnames => by
      cases hname with
      | struct => exact ⟨_, Path.isTypeIn_singleton, hnames⟩
      | _ => cases hnames

theorem AreMembers.exists_path {tokens : List Token} {members : List Shape}
    (h : AreMembers tokens members) : ∀ member ∈ members, member.Mentions name →
      ∃ p : Path, p.IsTypeIn tokens ∧ p.Names (.struct name) :=
  match h with
  | .last hlast => by
      intro member hmember hname
      rw [List.mem_singleton.mp hmember] at hname
      exact hlast.exists_path hname
  | @AreMembers.more tokens _ _ _ hfirst hothers => by
      intro member hmember hname
      rcases List.mem_cons.mp hmember with hmember | hmember
      · rw [hmember] at hname
        obtain ⟨p, hp, hnames⟩ := hfirst.exists_path hname
        exact ⟨p, hp.append (by simp), hnames⟩
      · obtain ⟨p, hp, hnames⟩ := hothers.exists_path member hmember hname
        exact ⟨p, (hp.prepend [.comma]).prepend tokens, hnames⟩

theorem IsMember.exists_path {tokens : List Token} {member : Shape} (h : IsMember tokens member)
    (hname : member.Mentions name) : ∃ p : Path, p.IsTypeIn tokens ∧ p.Names (.struct name) :=
  match h with
  | .unnamed htype => htype.exists_path hname
  | .named word htype => by
      obtain ⟨p, hp, hnames⟩ := htype.exists_path hname
      exact ⟨p, hp.prepend [.path word, .colon], hnames⟩

end

theorem Path.Names.last {p : Path} (h : p.Names (.struct name)) :
    '.' ∉ name.toList ∧ (IsStructName name ∨
      (name = "" ∨ name = "felt" ∨ name = "codeoffset") ∧
        ∃ outer, p.chars = outer ++ '.' :: name.toList) := by
  cases h with
  | @struct scope chars notFelt notCodeOffset split hscope hname =>
      rw [String.toList_ofList]
      refine ⟨hname, ?_⟩
      have hword : ∀ c ∈ chars, c.isAlphanum = true ∨ c = '_' := by
        intro c hc
        have hpath := p.all c (by rw [split]; exact List.mem_append_right _ hc)
        have hne : c ≠ '.' := by
          rintro rfl
          exact hname hc
        simpa [Parser.isPathChar, hne] using hpath
      rcases hscope with rfl | ⟨outer, rfl⟩
      · left
        rw [List.nil_append] at split
        have hne {word : String} (hchars : p.chars ≠ word.toList) :
            String.ofList chars ≠ word := by
          rintro rfl
          exact hchars (by rw [split, String.toList_ofList])
        refine ⟨hne p.nonempty, ?_, hne notFelt, hne notCodeOffset⟩
        rwa [String.toList_ofList]
      · by_cases hthree : String.ofList chars = "" ∨ String.ofList chars = "felt" ∨
            String.ofList chars = "codeoffset"
        · exact .inr ⟨hthree, outer, by rw [split, List.append_assoc]; rfl⟩
        · obtain ⟨hempty, hwords⟩ := not_or.mp hthree
          obtain ⟨hfelt, hcodeOffset⟩ := not_or.mp hwords
          left
          refine ⟨hempty, ?_, hfelt, hcodeOffset⟩
          rwa [String.toList_ofList]

theorem Spells.exists_append {s rest : List Char} {tokens : List Token} {t : Token}
    (h : Spells s tokens rest) (ht : t ∈ tokens) :
    ∃ before after, s = before ++ t.text ++ after := by
  induction h with
  | done => cases ht
  | @blank c s _ _ _ _ ih =>
      obtain ⟨before, after, rfl⟩ := ih ht
      exact ⟨c :: before, after, rfl⟩
  | @token u s _ _ _ ih =>
      rcases List.mem_cons.mp ht with rfl | ht
      · exact ⟨[], s, rfl⟩
      · obtain ⟨before, after, rfl⟩ := ih ht
        exact ⟨u.text ++ before, after, by simp⟩

theorem name_of_spelled {s : List Char} {shape : Shape} (h : Spelled s shape)
    (hname : shape.Mentions name) :
    '.' ∉ name.toList ∧ (IsStructName name ∨
      (name = "" ∨ name = "felt" ∨ name = "codeoffset") ∧
        ∃ before after, s = before ++ '.' :: name.toList ++ after) := by
  obtain ⟨tokens, hspells, htype⟩ := h
  obtain ⟨p, hp, hnames⟩ := htype.exists_path hname
  obtain ⟨hpoint, hlast⟩ := hnames.last
  refine ⟨hpoint, hlast.imp_right ?_⟩
  rintro ⟨hthree, outer, hchars⟩
  obtain ⟨before, after, rfl⟩ := hspells.exists_append hp.mem
  refine ⟨hthree, before ++ outer, after, ?_⟩
  simp [Token.text, hchars]

end Names

end Grammar

section Render

variable {shape : Shape}

theorem parse_render_iff :
    Shape.parse shape.render = .ok shape ↔ Grammar.Spelled shape.text shape := by
  rw [parse_eq_ok_iff_whole, Parser.whole_eq_ok_iff, Shape.render, String.toList_ofList]

theorem spelled_text (h : ∀ name, shape.Mentions name → IsStructName name) :
    Grammar.Spelled shape.text shape := by
  obtain ⟨tokens, htype, hspells⟩ := Grammar.spelledBy_text h
  have hall := hspells []
  rw [List.append_nil] at hall
  exact ⟨tokens, hall, htype⟩

/-- The text of a shape is read as that shape again, if its structs have names that can be read. -/
theorem parse_render (h : ∀ name, shape.Mentions name → IsStructName name) :
    Shape.parse shape.render = .ok shape :=
  parse_render_iff.mpr (spelled_text h)

def nestedShape : Shape :=
  .tuple [.pointer (.tuple []), .tuple [.struct "Uint_256"], .pointer (.pointer .felt)]

theorem eq_of_mentions_nestedShape {name : String} (h : nestedShape.Mentions name) :
    name = "Uint_256" := by
  simpa [nestedShape] using h

theorem parse_render_nestedShape :
    (∀ name, nestedShape.Mentions name → IsStructName name) ∧
      Shape.parse "(()*, (Uint_256), felt**)" = .ok nestedShape := by
  have hnames : ∀ name, nestedShape.Mentions name → IsStructName name := by
    intro name hname
    rw [eq_of_mentions_nestedShape hname]
    exact ⟨by decide, by simp, by decide, by decide⟩
  have htext : nestedShape.text = "(()*, (Uint_256), felt**)".toList := by decide +kernel
  have hparse := parse_render hnames
  rw [Shape.render, htext, String.ofList_toList] at hparse
  exact ⟨hnames, hparse⟩

theorem Shape.mem_textRest {c : Char} {others : List Shape} (h : c ∈ Shape.textRest others) :
    c = ',' ∨ c = ' ' ∨ ∃ member ∈ others, c ∈ member.text := by
  induction others with
  | nil => cases h
  | cons second others ih =>
      simp only [Shape.textRest, List.mem_cons, List.mem_append] at h
      rcases h with rfl | rfl | h | h
      · simp
      · simp
      · exact .inr (.inr ⟨second, List.mem_cons_self, h⟩)
      · rcases ih h with h | h | ⟨member, hmember, h⟩
        · exact .inl h
        · exact .inr (.inl h)
        · exact .inr (.inr ⟨member, List.mem_cons_of_mem _ hmember, h⟩)

theorem Shape.point_mem_text (h : '.' ∈ shape.text) :
    ∃ name, shape.Mentions name ∧ '.' ∈ name.toList := by
  induction shape with
  | felt => exact absurd h (by decide)
  | pointer pointee ih =>
      have hpointee : '.' ∈ pointee.text := by simpa [Shape.text] using h
      obtain ⟨name, hname, hpoint⟩ := ih hpointee
      exact ⟨name, .pointer hname, hpoint⟩
  | tuple members ih =>
      have hmember : ∃ member ∈ members, '.' ∈ member.text := by
        cases members with
        | nil => exact absurd h (by decide)
        | cons first others =>
            have hmem : '.' ∈ first.text ∨ '.' ∈ Shape.textRest others := by
              simpa [Shape.text] using h
            rcases hmem with hfirst | hothers
            · exact ⟨first, List.mem_cons_self, hfirst⟩
            · obtain ⟨member, hmember, hpoint⟩ : ∃ member ∈ others, '.' ∈ member.text := by
                simpa using Shape.mem_textRest hothers
              exact ⟨member, List.mem_cons_of_mem _ hmember, hpoint⟩
      obtain ⟨member, hmember, hmem⟩ := hmember
      obtain ⟨name, hname, hpoint⟩ := ih member hmember hmem
      exact ⟨name, .tuple hmember hname, hpoint⟩
  | struct name => exact ⟨name, .struct, h⟩

/-- Names that are read have no points. Those that cannot be read again are three words, each of
which is only read after a point; it is for them alone that a shape that has been read is not read
again from its own text. -/
theorem parse_names {s : String} (h : Shape.parse s = .ok shape) :
    (∀ name, shape.Mentions name → '.' ∉ name.toList ∧ (IsStructName name ∨
      (name = "" ∨ name = "felt" ∨ name = "codeoffset") ∧
        ∃ before after, s.toList = before ++ '.' :: name.toList ++ after)) ∧
    (Shape.parse shape.render = .ok shape ↔ ∀ name, shape.Mentions name → IsStructName name) := by
  rw [parse_eq_ok_iff_whole, Parser.whole_eq_ok_iff] at h
  refine ⟨fun name hname => Grammar.name_of_spelled h hname, ?_⟩
  rw [parse_render_iff]
  constructor
  · intro hagain name hname
    rcases (Grammar.name_of_spelled hagain hname).2 with hstruct | ⟨-, before, after, htext⟩
    · exact hstruct
    · have hmem : '.' ∈ shape.text := by simp [htext]
      obtain ⟨other, hother, hpoint⟩ := Shape.point_mem_text hmem
      exact absurd hpoint (Grammar.name_of_spelled h hother).1
  · exact spelled_text

theorem parse_of_chars {s : String} {chars : List Char} (hs : s.toList = chars)
    (h : Parser.whole chars = .ok shape) : Shape.parse s = .ok shape := by
  rw [parse_eq_ok_iff_whole, hs, h]

def ledgerShape : Shape := .tuple [.pointer (.struct "Uint"), .struct "felt"]

theorem parse_ledgerShape : Shape.parse "(u: lib.Uint*, lib.felt)" = .ok ledgerShape := by
  have hchars : "(u: lib.Uint*, lib.felt)".toList = ['(', 'u', ':', ' ', 'l', 'i', 'b', '.', 'U',
    'i', 'n', 't', '*', ',', ' ', 'l', 'i', 'b', '.', 'f', 'e', 'l', 't', ')'] := rfl
  exact parse_of_chars hchars rfl

theorem parse_names_ledgerShape :
    Shape.parse "(u: lib.Uint*, lib.felt)" = .ok ledgerShape ∧ IsStructName "Uint" ∧
      (∃ before after,
        "(u: lib.Uint*, lib.felt)".toList = before ++ '.' :: "felt".toList ++ after) ∧
      Shape.parse ledgerShape.render ≠ .ok ledgerShape := by
  have hfelt : ¬IsStructName "felt" := fun h => h.ne_felt rfl
  have hmentions : ledgerShape.Mentions "felt" := by simp [ledgerShape]
  obtain ⟨hnames, hagain⟩ := parse_names parse_ledgerShape
  refine ⟨parse_ledgerShape, ?_, ?_, ?_⟩
  · obtain ⟨-, hname | ⟨hthree, -⟩⟩ := hnames "Uint" (by simp [ledgerShape])
    · exact hname
    · exact absurd hthree (by decide)
  · obtain ⟨-, hname | ⟨-, hpoint⟩⟩ := hnames "felt" hmentions
    · exact absurd hname hfelt
    · exact hpoint
  · intro hread
    exact hfelt (hagain.mp hread "felt" hmentions)

/-- The last part of a path may be no name: a word of the grammar, or nothing at all. Printed, it
is not read, or read as something else. -/
theorem parse_last_parts :
    (Shape.parse "lib.codeoffset" = .ok (.struct "codeoffset") ∧
      Shape.parse (Shape.struct "codeoffset").render = .error ⟨"codeoffset", .codeOffset⟩) ∧
    (Shape.parse "lib." = .ok (.struct "") ∧
      Shape.parse (Shape.struct "").render = .error ⟨"", .endOfInput⟩) ∧
    Shape.parse "lib.felt" = .ok (.struct "felt") ∧
      Shape.parse (Shape.struct "felt").render = .ok .felt := by
  have hrender (name : String) : (Shape.struct name).render = name := String.ofList_toList
  simp only [hrender]
  refine ⟨⟨?_, ?_⟩, ⟨?_, rfl⟩, ?_, ?_⟩
  · have hchars : "lib.codeoffset".toList =
      ['l', 'i', 'b', '.', 'c', 'o', 'd', 'e', 'o', 'f', 'f', 's', 'e', 't'] := rfl
    exact parse_of_chars hchars rfl
  · have hchars : "codeoffset".toList =
      ['c', 'o', 'd', 'e', 'o', 'f', 'f', 's', 'e', 't'] := rfl
    rw [Shape.parse, hchars]
    rfl
  · have hchars : "lib.".toList = ['l', 'i', 'b', '.'] := rfl
    exact parse_of_chars hchars rfl
  · have hchars : "lib.felt".toList = ['l', 'i', 'b', '.', 'f', 'e', 'l', 't'] := rfl
    exact parse_of_chars hchars rfl
  · have hchars : "felt".toList = ['f', 'e', 'l', 't'] := rfl
    exact parse_of_chars hchars rfl

end Render

end ContractFuzz.Calldata

import ContractFuzz.Calldata.Parser
import Mathlib.Logic.Function.Iterate

namespace ContractFuzz.Calldata.Grammar

open ContractFuzz.Calldata.Parser (isPathChar)
open ContractFuzz.Text (isBlank skipBlank)

/-- A run of letters, digits, underscores and points. -/
structure Path where
  chars : List Char
  nonempty : chars ≠ []
  all : ∀ c ∈ chars, isPathChar c = true

inductive Token where
  | leftParen
  | rightParen
  | comma
  | colon
  | star
  | path (p : Path)

def Token.text : Token → List Char
  | .leftParen => ['(']
  | .rightParen => [')']
  | .comma => [',']
  | .colon => [':']
  | .star => ['*']
  | .path p => p.chars

/-- A text that begins with some tokens, with blanks before, between and after them, and goes on
with a rest. -/
inductive Spells : List Char → List Token → List Char → Prop
  | done {rest} : Spells rest [] rest
  | blank {c s tokens rest} (h : isBlank c = true) (more : Spells s tokens rest) :
      Spells (c :: s) tokens rest
  | token (t : Token) {s tokens rest} (more : Spells s tokens rest) :
      Spells (t.text ++ s) (t :: tokens) rest

/-- The shape that a path stands for: the scalar, or the struct named by what comes after the last
point. The word `codeoffset` stands for none. -/
inductive Path.Names (p : Path) : Shape → Prop
  | felt (word : p.chars = "felt".toList) : p.Names .felt
  | struct {scope name : List Char} (notFelt : p.chars ≠ "felt".toList)
      (notCodeOffset : p.chars ≠ "codeoffset".toList) (split : p.chars = scope ++ name)
      (hscope : scope = [] ∨ ∃ outer, scope = outer ++ ['.']) (hname : '.' ∉ name) :
      p.Names (.struct (String.ofList name))

mutual

/-- `type := base '*'*` -/
inductive IsType : List Token → Shape → Prop
  | stars {tokens base} (h : IsBase tokens base) (count : Nat) :
      IsType (tokens ++ List.replicate count .star) (Shape.pointer^[count] base)

/-- `base := '(' ')' | '(' members ')' | path` -/
inductive IsBase : List Token → Shape → Prop
  | unit : IsBase [.leftParen, .rightParen] (.tuple [])
  | tuple {tokens members} (h : AreMembers tokens members) :
      IsBase (.leftParen :: (tokens ++ [.rightParen])) (.tuple members)
  | path {p shape} (h : p.Names shape) : IsBase [.path p] shape

/-- `members := member (',' member)*` -/
inductive AreMembers : List Token → List Shape → Prop
  | last {tokens member} (h : IsMember tokens member) : AreMembers tokens [member]
  | more {tokens others member members} (h : IsMember tokens member)
      (hothers : AreMembers others members) :
      AreMembers (tokens ++ .comma :: others) (member :: members)

/-- `member := type | path ':' type`, where the path is the name of the member. -/
inductive IsMember : List Token → Shape → Prop
  | unnamed {tokens shape} (h : IsType tokens shape) : IsMember tokens shape
  | named {tokens shape} (name : Path) (h : IsType tokens shape) :
      IsMember (.path name :: .colon :: tokens) shape

end

def Spelled (s : List Char) (shape : Shape) : Prop :=
  ∃ tokens, Spells s tokens [] ∧ IsType tokens shape

/-- A path stands for a type somewhere in some tokens. Before a colon it is the name of a member,
and stands for none. -/
def Path.IsTypeIn (p : Path) (tokens : List Token) : Prop :=
  ∃ before after, tokens = before ++ .path p :: after ∧ after.head? ≠ some .colon

section Types

variable {p : Path} {tokens : List Token}

theorem Path.isTypeIn_singleton : p.IsTypeIn [.path p] := ⟨[], [], rfl, nofun⟩

theorem Path.IsTypeIn.mem (h : p.IsTypeIn tokens) : .path p ∈ tokens := by
  obtain ⟨before, after, rfl, -⟩ := h
  simp

theorem Path.IsTypeIn.prepend (h : p.IsTypeIn tokens) (front : List Token) :
    p.IsTypeIn (front ++ tokens) := by
  obtain ⟨before, after, rfl, hafter⟩ := h
  exact ⟨front ++ before, after, by simp, hafter⟩

theorem Path.IsTypeIn.append (h : p.IsTypeIn tokens) {back : List Token}
    (hback : back.head? ≠ some .colon) : p.IsTypeIn (tokens ++ back) := by
  obtain ⟨before, after, rfl, hafter⟩ := h
  refine ⟨before, after ++ back, by simp, ?_⟩
  cases after with
  | nil => exact hback
  | cons t after => exact hafter

end Types

theorem isBlank_eq_false_of_isPathChar {c : Char} (h : isPathChar c = true) :
    isBlank c = false := by
  have hupper : c.isUpper = decide (c.val ≥ 65 ∧ c.val ≤ 90) := rfl
  have hlower : c.isLower = (decide (c.val ≥ 97) && decide (c.val ≤ 122)) := rfl
  have hletter : c.isAlpha = (c.isUpper || c.isLower) := rfl
  have hcode : (((65 ≤ c.toNat ∧ c.toNat ≤ 90 ∨ 97 ≤ c.toNat ∧ c.toNat ≤ 122) ∨
      48 ≤ c.toNat ∧ c.toNat ≤ 57) ∨ c = '_') ∨ c = '.' := by
    simpa [isPathChar, Char.isAlphanum, hletter, hupper, hlower, Char.isDigit,
      UInt32.le_iff_toNat_le] using h
  rcases hcode with (hcode | rfl) | rfl
  · simp [isBlank, Text.blankRanges]
    omega
  · decide
  · decide

theorem Path.exists_cons (p : Path) : ∃ c cs, p.chars = c :: cs ∧ isPathChar c = true := by
  obtain ⟨c, cs, hchars⟩ := List.exists_cons_of_ne_nil p.nonempty
  refine ⟨c, cs, hchars, p.all c ?_⟩
  rw [hchars]
  exact List.mem_cons_self

theorem Path.chars_append_ne {c : Char} (hc : isPathChar c = false) (p : Path)
    (s after : List Char) : p.chars ++ s ≠ c :: after := by
  obtain ⟨d, cs, hchars, hd⟩ := p.exists_cons
  rw [hchars]
  intro h
  cases h
  rw [hc] at hd
  cases hd

theorem Token.length_text_pos (t : Token) : 0 < t.text.length := by
  cases t with
  | path p => exact List.length_pos_iff.mpr p.nonempty
  | _ => exact Nat.one_pos

section Blanks

variable {s : List Char}

theorem skipBlank_cons_of_blank {c : Char} (h : isBlank c = true) (s : List Char) :
    skipBlank (c :: s) = skipBlank s := List.dropWhile_cons_of_pos h

theorem skipBlank_cons_of_not_blank {c : Char} (h : ¬isBlank c = true) (s : List Char) :
    skipBlank (c :: s) = c :: s := List.dropWhile_cons_of_neg h

theorem length_skipBlank_le (s : List Char) : (skipBlank s).length ≤ s.length :=
  (List.dropWhile_sublist _).length_le

theorem skipBlank_text_append (t : Token) (s : List Char) :
    skipBlank (t.text ++ s) = t.text ++ s := by
  cases t with
  | path p =>
      obtain ⟨c, cs, hchars, hc⟩ := p.exists_cons
      have hblank : ¬isBlank c = true := by simp [isBlank_eq_false_of_isPathChar hc]
      simp only [Token.text, hchars, List.cons_append, skipBlank_cons_of_not_blank hblank]
  | _ => rfl

end Blanks

section Spelling

variable {s middle rest : List Char} {t : Token} {tokens others : List Token}

theorem Spells.append (h : Spells s tokens middle) (hothers : Spells middle others rest) :
    Spells s (tokens ++ others) rest := by
  induction h with
  | done => exact hothers
  | blank hblank _ ih => exact .blank hblank (ih hothers)
  | token t _ ih => exact .token t (ih hothers)

theorem Spells.split (h : Spells s (tokens ++ others) rest) :
    ∃ middle, Spells s tokens middle ∧ Spells middle others rest := by
  generalize hall : tokens ++ others = all at h
  induction h generalizing tokens with
  | done =>
      obtain ⟨rfl, rfl⟩ := List.append_eq_nil_iff.mp hall
      exact ⟨_, .done, .done⟩
  | blank hblank _ ih =>
      obtain ⟨middle, hfront, hback⟩ := ih hall
      exact ⟨middle, .blank hblank hfront, hback⟩
  | token t more ih =>
      cases tokens with
      | nil =>
          subst hall
          exact ⟨_, .done, .token t more⟩
      | cons u tokens =>
          obtain ⟨rfl, hrest⟩ := List.cons.inj hall
          obtain ⟨middle, hfront, hback⟩ := ih hrest
          exact ⟨middle, .token u hfront, hback⟩

theorem Spells.of_skipBlank (h : Spells (skipBlank s) tokens rest) : Spells s tokens rest := by
  induction s with
  | nil => exact h
  | cons c s ih =>
      by_cases hblank : isBlank c = true
      · rw [skipBlank_cons_of_blank hblank] at h
        exact .blank hblank (ih h)
      · rwa [skipBlank_cons_of_not_blank hblank] at h

theorem Spells.skipBlank_eq (h : Spells s [] rest) : skipBlank s = skipBlank rest := by
  generalize hnone : ([] : List Token) = none at h
  induction h with
  | done => rfl
  | blank hblank _ ih =>
      rw [skipBlank_cons_of_blank hblank]
      exact ih hnone
  | token => cases hnone

theorem spells_cons_iff :
    Spells s (t :: tokens) rest ↔
      ∃ middle, skipBlank s = t.text ++ middle ∧ Spells middle tokens rest := by
  constructor
  · intro h
    generalize hall : t :: tokens = all at h
    induction h with
    | done => cases hall
    | blank hblank _ ih =>
        rw [skipBlank_cons_of_blank hblank]
        exact ih hall
    | token u more _ =>
        cases hall
        exact ⟨_, skipBlank_text_append t _, more⟩
  · rintro ⟨middle, hs, hmiddle⟩
    apply Spells.of_skipBlank
    rw [hs]
    exact .token t hmiddle

theorem spells_singleton (h : skipBlank s = t.text ++ rest) : Spells s [t] rest :=
  spells_cons_iff.mpr ⟨rest, h, .done⟩

theorem Spells.length_le (h : Spells s tokens rest) :
    tokens.length + rest.length ≤ s.length := by
  induction h with
  | done => simp
  | blank _ _ ih =>
      rw [List.length_cons]
      omega
  | token t _ ih =>
      have hpos := t.length_text_pos
      rw [List.length_append, List.length_cons]
      omega

end Spelling

section FirstTokens

variable {s rest : List Char} {tokens : List Token} {shape : Shape}

/-- Types and members begin with a parenthesis or a path. -/
def Begins (tokens : List Token) : Prop :=
  ∃ t others, tokens = t :: others ∧ (t = .leftParen ∨ ∃ p, t = .path p)

theorem IsType.begins (h : IsType tokens shape) : Begins tokens := by
  cases h with
  | stars hbase count =>
      cases hbase with
      | unit => exact ⟨_, _, rfl, .inl rfl⟩
      | tuple _ => exact ⟨_, _, rfl, .inl rfl⟩
      | @path p _ _ => exact ⟨_, _, rfl, .inr ⟨p, rfl⟩⟩

theorem AreMembers.begins {members : List Shape} (h : AreMembers tokens members) :
    Begins tokens := by
  have hmember {tokens : List Token} {member : Shape} (h : IsMember tokens member) :
      Begins tokens := by
    cases h with
    | unnamed htype => exact htype.begins
    | named name _ => exact ⟨_, _, rfl, .inr ⟨name, rfl⟩⟩
  cases h with
  | last h => exact hmember h
  | more h _ =>
      obtain ⟨t, others, rfl, ht⟩ := hmember h
      exact ⟨t, _, rfl, ht⟩

theorem Spells.skipBlank (h : Spells s tokens rest) (hbegins : Begins tokens) :
    Spells (skipBlank s) tokens rest := by
  obtain ⟨t, others, rfl, -⟩ := hbegins
  obtain ⟨middle, hs, hmiddle⟩ := spells_cons_iff.mp h
  rw [hs]
  exact .token t hmiddle

theorem Spells.skipBlank_ne (h : Spells s tokens rest) (hbegins : Begins tokens)
    (after : List Char) : ContractFuzz.Text.skipBlank s ≠ ')' :: after := by
  obtain ⟨t, others, rfl, ht⟩ := hbegins
  obtain ⟨middle, hs, -⟩ := spells_cons_iff.mp h
  rw [hs]
  rcases ht with rfl | ⟨p, rfl⟩
  · intro hparen
    cases hparen
  · exact p.chars_append_ne rfl middle after

end FirstTokens

end ContractFuzz.Calldata.Grammar

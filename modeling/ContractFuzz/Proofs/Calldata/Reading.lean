import ContractFuzz.Proofs.Calldata.Grammar
import Mathlib.Data.List.DropRight
import Mathlib.Data.List.TakeWhile

/-!
What the reader of types accepts: exactly the texts that spell a type, each read as the shape that
the grammar gives it. Soundness and completeness are inductions on the fuel of the reader.
-/

namespace ContractFuzz

open Calldata (Shape)
open Calldata.Grammar
open Calldata.Parser (isPathChar)
open Text (isBlank skipBlank)

theorem Abi.lastSegment_eq_iff {chars name : List Char} :
    lastSegment chars = name ↔
      ∃ scope, chars = scope ++ name ∧ (scope = [] ∨ ∃ outer, scope = outer ++ ['.']) ∧
        '.' ∉ name := by
  constructor
  · rintro rfl
    change ∃ scope, chars = scope ++ chars.rtakeWhile (· != '.') ∧ _ ∧ '.' ∉ chars.rtakeWhile _
    refine ⟨chars.rdropWhile (· != '.'), List.rdropWhile_append_rtakeWhile.symm, ?_, ?_⟩
    · rcases List.eq_nil_or_concat (chars.rdropWhile (· != '.')) with hnil | ⟨outer, c, hscope⟩
      · exact .inl hnil
      · have hnot := List.rdropWhile_last_not (· != '.') chars (by simp [hscope])
        have hlast : c = '.' := by simpa [hscope] using hnot
        exact .inr ⟨outer, by rw [hscope, List.concat_eq_append, hlast]⟩
    · intro hmem
      simpa using List.mem_rtakeWhile_imp hmem
  · rintro ⟨scope, rfl, hscope, hname⟩
    have hwhole : ∀ c ∈ name.reverse, (c != '.') = true := by
      intro c hc
      rw [bne_iff_ne]
      rintro rfl
      exact hname (List.mem_reverse.mp hc)
    rw [lastSegment, List.reverse_append, List.takeWhile_append_of_pos hwhole]
    rcases hscope with rfl | ⟨outer, rfl⟩ <;> simp

namespace Calldata.Parser

section Paths

variable {p : Path} {s rest : List Char} {shape : Shape}

theorem names_iff : p.Names shape ↔ ofPath p.chars = .ok shape := by
  have hnonempty : p.chars.isEmpty = false := List.isEmpty_eq_false_iff.mpr p.nonempty
  simp only [ofPath, hnonempty, Bool.false_eq_true, if_false, beq_iff_eq]
  constructor
  · intro h
    cases h with
    | felt word => rw [if_pos word]
    | struct notFelt notCodeOffset split hscope hname =>
        rw [if_neg notFelt, if_neg notCodeOffset,
          Abi.lastSegment_eq_iff.mpr ⟨_, split, hscope, hname⟩]
  · intro h
    split at h
    · rename_i word
      cases h
      exact .felt word
    split at h
    · cases h
    · rename_i notFelt notCodeOffset
      cases h
      obtain ⟨scope, split, hscope, hname⟩ := Abi.lastSegment_eq_iff.mp rfl
      exact .struct notFelt notCodeOffset split hscope hname

theorem spells_path (h : (path s).1 ≠ []) :
    ∃ p : Path, p.chars = (path s).1 ∧ Spells s [.path p] (path s).2 := by
  let p : Path := ⟨(path s).1, h, fun c hc => List.mem_takeWhile_imp hc⟩
  refine ⟨p, rfl, ?_⟩
  have hs : (Token.path p).text ++ (path s).2 = s := List.takeWhile_append_dropWhile
  have hspells : Spells ((Token.path p).text ++ (path s).2) [.path p] (path s).2 :=
    .token (.path p) .done
  rwa [hs] at hspells

theorem path_append (hrest : ∀ c ∈ (skipBlank rest).head?, isPathChar c = false) :
    path (p.chars ++ rest) = (p.chars, rest) := by
  rw [path, List.takeWhile_append_of_pos p.all, List.dropWhile_append_of_pos p.all]
  cases rest with
  | nil => simp
  | cons c rest =>
      have hc : isPathChar c = false := by
        by_cases hblank : isBlank c = true
        · by_contra hpath
          rw [Bool.not_eq_false] at hpath
          rw [isBlank_eq_false_of_isPathChar hpath] at hblank
          cases hblank
        · rw [skipBlank_cons_of_not_blank hblank] at hrest
          exact hrest c rfl
      simp [hc]

end Paths

section Soundness

variable {s start rest : List Char} {base found : Shape} {fuel : Nat}

theorem spells_stars (h : stars base s = (found, rest)) :
    ∃ count, Spells s (List.replicate count .star) rest ∧ found = Shape.pointer^[count] base := by
  induction s generalizing base with
  | nil =>
      cases h
      exact ⟨0, .done, rfl⟩
  | cons c s ih =>
      rw [stars] at h
      split at h
      · rename_i hblank
        obtain ⟨count, hspells, hfound⟩ := ih h
        exact ⟨count, .blank hblank hspells, hfound⟩
      split at h
      · rename_i hstar
        rw [beq_iff_eq] at hstar
        subst hstar
        obtain ⟨count, hspells, hfound⟩ := ih h
        exact ⟨count + 1, .token .star hspells, hfound⟩
      · cases h
        exact ⟨0, .done, rfl⟩

theorem type_of_stars {tokens : List Token} {after : List Char} (hbase : IsBase tokens base)
    (hspells : Spells s tokens after) (h : stars base after = (found, rest)) :
    ∃ tokens, Spells s tokens rest ∧ IsType tokens found := by
  obtain ⟨count, hstars, rfl⟩ := spells_stars h
  exact ⟨_, hspells.append hstars, .stars hbase count⟩

theorem spells_dropName (h : dropName s = .ok start) :
    Spells s [] start ∨ ∃ name, Spells s [.path name, .colon] start := by
  have hstart : Spells s [] (skipBlank s) := .of_skipBlank .done
  rw [dropName] at h
  split at h
  · rename_i inner hs
    cases h
    rw [← hs]
    exact .inl hstart
  split at h
  · cases h
  rename_i chars middle hchars hpath
  split at h
  · rename_i rest hmiddle
    cases h
    have hnonempty : (path (skipBlank s)).1 ≠ [] := by
      rw [hpath]
      exact hchars
    obtain ⟨name, -, hname⟩ := spells_path hnonempty
    rw [hpath] at hname
    have hcolon : Spells middle [.colon] start := spells_singleton hmiddle
    exact .inr ⟨name, (hname.append hcolon).of_skipBlank⟩
  · cases h
    exact .inl hstart

def ReadsTypes (fuel : Nat) : Prop :=
  ∀ {s found rest}, shape fuel s = .ok (found, rest) →
    ∃ tokens, Spells s tokens rest ∧ IsType tokens found

def ReadsMembers (fuel : Nat) : Prop :=
  ∀ {s found rest}, members fuel s = .ok (found, rest) →
    ∃ tokens, Spells s (tokens ++ [.rightParen]) rest ∧ AreMembers tokens found

theorem readsTypes_succ (hmembers : ReadsMembers fuel) : ReadsTypes (fuel + 1) := by
  intro s found rest h
  rw [shape] at h
  split at h
  · cases h
  · rename_i inner hs
    have hopen : Spells s [.leftParen] inner := spells_singleton hs
    split at h
    · rename_i after hinner
      have hclose : Spells inner [.rightParen] after := spells_singleton hinner
      exact type_of_stars .unit (hopen.append hclose) (Except.ok.inj h)
    · split at h
      · rename_i others after hothers
        obtain ⟨tokens, hspells, hareMembers⟩ := hmembers hothers
        exact type_of_stars (.tuple hareMembers) (hopen.append hspells.of_skipBlank)
          (Except.ok.inj h)
      · cases h
  · split at h
    · rename_i base hbase
      have hnonempty : (path (skipBlank s)).1 ≠ [] := by
        intro hnil
        rw [hnil] at hbase
        cases hbase
      obtain ⟨p, hp, hspells⟩ := spells_path hnonempty
      rw [← hp] at hbase
      exact type_of_stars (.path (names_iff.mpr hbase)) hspells.of_skipBlank (Except.ok.inj h)
    · cases h

theorem readsMembers_succ (htypes : ReadsTypes fuel) (hmembers : ReadsMembers fuel) :
    ReadsMembers (fuel + 1) := by
  intro s found rest h
  rw [members] at h
  split at h
  · cases h
  rename_i start hname
  split at h
  · cases h
  rename_i member after hmember
  have hfront : ∃ tokens, Spells s tokens after ∧ IsMember tokens member := by
    obtain ⟨tokens, hspells, htype⟩ := htypes hmember
    rcases spells_dropName hname with hnone | ⟨name, hnamed⟩
    · exact ⟨tokens, hnone.append hspells, .unnamed htype⟩
    · exact ⟨_, hnamed.append hspells, .named name htype⟩
  obtain ⟨tokens, hspells, hisMember⟩ := hfront
  split at h
  · cases h
  · split at h
    · rename_i others last hothers
      cases h
      obtain ⟨more, hmore, hareMembers⟩ := hmembers hothers
      refine ⟨tokens ++ .comma :: more, ?_, .more hisMember hareMembers⟩
      rw [List.append_assoc]
      exact hspells.append (.token .comma hmore)
    · cases h
  · cases h
    exact ⟨tokens, hspells.append (.token .rightParen .done), .last hisMember⟩
  · cases h

theorem reads (fuel : Nat) : ReadsTypes fuel ∧ ReadsMembers fuel := by
  induction fuel with
  | zero =>
      constructor
      · intro s found rest h
        cases h
      · intro s found rest h
        cases h
  | succ fuel ih => exact ⟨readsTypes_succ ih.2, readsMembers_succ ih.1 ih.2⟩

end Soundness

section Completeness

variable {s start after rest : List Char} {p : Path} {tokens : List Token} {base found : Shape}
  {fuel count : Nat}

/-- What may come after a type: the end of the text, another member or the end of a tuple. -/
inductive Ends : List Char → Prop
  | text : Ends []
  | comma (rest : List Char) : Ends (',' :: rest)
  | rightParen (rest : List Char) : Ends (')' :: rest)

/-- What may come after a base: that, or a star. -/
def Follows (s : List Char) : Prop := Ends s ∨ ∃ after, s = '*' :: after

theorem Follows.head (h : Follows s) : ∀ c ∈ s.head?, isPathChar c = false := by
  rcases h with h | ⟨after, rfl⟩
  · cases h <;> simp [isPathChar]
  · simp [isPathChar]

theorem follows_of_spells (h : Spells s (List.replicate count .star) rest)
    (hrest : Ends (skipBlank rest)) : Follows (skipBlank s) := by
  cases count with
  | zero =>
      rw [h.skipBlank_eq]
      exact .inl hrest
  | succ count =>
      obtain ⟨after, hs, -⟩ := spells_cons_iff.mp h
      exact .inr ⟨after, hs⟩

theorem stars_skipBlank (base : Shape) (s : List Char) :
    stars base (skipBlank s) = stars base s := by
  induction s with
  | nil => rfl
  | cons c s ih =>
      by_cases hblank : isBlank c = true
      · rw [skipBlank_cons_of_blank hblank, ih, stars, if_pos hblank]
      · rw [skipBlank_cons_of_not_blank hblank]

theorem stars_of_spells (h : Spells s (List.replicate count .star) rest)
    (hrest : Ends (skipBlank rest)) :
    stars base s = (Shape.pointer^[count] base, skipBlank rest) := by
  induction count generalizing s base with
  | zero =>
      rw [← stars_skipBlank, h.skipBlank_eq]
      generalize skipBlank rest = ending at hrest ⊢
      cases hrest <;> rfl
  | succ count ih =>
      obtain ⟨after, hs, hafter⟩ := spells_cons_iff.mp h
      rw [← stars_skipBlank, hs]
      exact ih hafter

theorem dropName_of_path (hs : skipBlank s = p.chars ++ after)
    (hafter : ∀ c ∈ (skipBlank after).head?, isPathChar c = false) :
    dropName s =
      match skipBlank after with
      | ':' :: start => .ok start
      | _ => .ok (skipBlank s) := by
  rw [dropName]
  split
  · rename_i inner hinner
    exact absurd (hs.symm.trans hinner) (p.chars_append_ne rfl after inner)
  · rw [hs, path_append hafter]
    split
    · rename_i hnil
      exact absurd (Prod.mk.inj hnil).1 p.nonempty
    · rename_i hmk
      cases hmk
      rfl

theorem dropName_named (h : Spells s (.path p :: .colon :: tokens) rest) :
    ∃ start, dropName s = .ok start ∧ Spells start tokens rest := by
  obtain ⟨after, hs, hafter⟩ := spells_cons_iff.mp h
  obtain ⟨start, hcolon, hstart⟩ := spells_cons_iff.mp hafter
  change skipBlank after = ':' :: start at hcolon
  refine ⟨start, ?_, hstart⟩
  rw [dropName_of_path hs (by simp [hcolon, isPathChar]), hcolon]
  rfl

theorem dropName_unnamed (h : Spells s tokens rest) (htype : IsType tokens found)
    (hrest : Ends (skipBlank rest)) : dropName s = .ok (skipBlank s) := by
  cases htype with
  | stars hbase count =>
      cases hbase with
      | unit =>
          obtain ⟨after, hs, -⟩ := spells_cons_iff.mp h
          rw [dropName, hs]
          rfl
      | tuple _ =>
          obtain ⟨after, hs, -⟩ := spells_cons_iff.mp h
          rw [dropName, hs]
          rfl
      | path _ =>
          obtain ⟨after, hs, hstars⟩ := spells_cons_iff.mp h
          have hfollows := follows_of_spells hstars hrest
          rw [dropName_of_path hs hfollows.head]
          rcases hfollows with hends | ⟨more, hstar⟩
          · generalize skipBlank after = ending at hends
            cases hends <;> rfl
          · rw [hstar]
            rfl

theorem length_dropName_le (h : dropName s = .ok start) : start.length ≤ s.length := by
  rcases spells_dropName h with hspells | ⟨name, hspells⟩
  all_goals
    have hlength := hspells.length_le
    omega

def TypesAreRead (fuel : Nat) : Prop :=
  ∀ {s tokens found rest}, IsType tokens found → Spells s tokens rest → Ends (skipBlank rest) →
    2 * s.length < fuel → shape fuel s = .ok (found, skipBlank rest)

def MembersAreRead (fuel : Nat) : Prop :=
  ∀ {s tokens found after rest}, AreMembers tokens found → Spells s tokens after →
    skipBlank after = ')' :: rest → 2 * s.length + 1 < fuel →
    members fuel s = .ok (found, rest)

theorem typesAreRead_succ (hmembers : MembersAreRead fuel) : TypesAreRead (fuel + 1) := by
  intro s tokens found rest htype hspells hrest hfuel
  cases htype with
  | stars hbase count =>
      cases hbase with
      | unit =>
          obtain ⟨inner, hs, hinner⟩ := spells_cons_iff.mp hspells
          obtain ⟨after, hclose, hstars⟩ := spells_cons_iff.mp hinner
          change skipBlank s = '(' :: inner at hs
          change skipBlank inner = ')' :: after at hclose
          rw [shape, hs]
          simp only [hclose]
          rw [stars_of_spells hstars hrest]
      | tuple hareMembers =>
          obtain ⟨inner, hs, hinner⟩ := spells_cons_iff.mp hspells
          change skipBlank s = '(' :: inner at hs
          rw [List.append_eq, List.append_assoc] at hinner
          obtain ⟨middle, hinner, hmiddle⟩ := hinner.split
          obtain ⟨after, hclose, hstars⟩ := spells_cons_iff.mp hmiddle
          change skipBlank middle = ')' :: after at hclose
          have hlength := length_skipBlank_le s
          rw [hs, List.length_cons] at hlength
          have hinnerLength := length_skipBlank_le inner
          have hfound := hmembers hareMembers (hinner.skipBlank hareMembers.begins) hclose
            (by omega)
          rw [shape, hs]
          simp only
          -- the reader looks for an empty tuple first
          split
          · rename_i hparen
            exact absurd hparen (hinner.skipBlank_ne hareMembers.begins _)
          · rw [hfound]
            simp only
            rw [stars_of_spells hstars hrest]
      | @path p _ hnames =>
          obtain ⟨after, hs, hstars⟩ := spells_cons_iff.mp hspells
          change skipBlank s = p.chars ++ after at hs
          have hfollows := follows_of_spells hstars hrest
          rw [shape]
          split
          · rename_i hnil
            exact absurd (List.append_eq_nil_iff.mp (hs.symm.trans hnil)).1 p.nonempty
          · rename_i inner hinner
            exact absurd (hs.symm.trans hinner) (p.chars_append_ne rfl after inner)
          · rw [hs, path_append hfollows.head, names_iff.mp hnames]
            simp only
            rw [stars_of_spells hstars hrest]

theorem member_isRead (htypes : TypesAreRead fuel) (hmember : IsMember tokens found)
    (h : Spells s tokens rest) (hrest : Ends (skipBlank rest)) (hfuel : 2 * s.length < fuel) :
    ∃ start, dropName s = .ok start ∧ shape fuel start = .ok (found, skipBlank rest) := by
  cases hmember with
  | unnamed htype =>
      refine ⟨_, dropName_unnamed h htype hrest, ?_⟩
      have hlength := length_skipBlank_le s
      exact htypes htype (h.skipBlank htype.begins) hrest (by omega)
  | named name htype =>
      obtain ⟨start, hname, hstart⟩ := dropName_named h
      have hlength := length_dropName_le hname
      exact ⟨start, hname, htypes htype hstart hrest (by omega)⟩

theorem membersAreRead_succ (htypes : TypesAreRead fuel) (hmembers : MembersAreRead fuel) :
    MembersAreRead (fuel + 1) := by
  intro s tokens found after rest hareMembers hspells hclose hfuel
  cases hareMembers with
  | last hmember =>
      have hends : Ends (skipBlank after) := by
        rw [hclose]
        exact .rightParen rest
      obtain ⟨start, hname, hread⟩ := member_isRead htypes hmember hspells hends (by omega)
      simp only [members, hname, hread, hclose]
  | more hmember hothers =>
      obtain ⟨middle, hfront, hback⟩ := hspells.split
      obtain ⟨next, hcomma, hnext⟩ := spells_cons_iff.mp hback
      change skipBlank middle = ',' :: next at hcomma
      have hends : Ends (skipBlank middle) := by
        rw [hcomma]
        exact .comma next
      obtain ⟨start, hname, hread⟩ := member_isRead htypes hmember hfront hends (by omega)
      have hlength := hfront.length_le
      have hmiddleLength := length_skipBlank_le middle
      rw [hcomma, List.length_cons] at hmiddleLength
      have hrest := hmembers hothers hnext hclose (by omega)
      simp only [members, hname, hread, hcomma, hrest]

theorem areRead (fuel : Nat) : TypesAreRead fuel ∧ MembersAreRead fuel := by
  induction fuel with
  | zero =>
      constructor
      · intro s tokens found rest _ _ _ hfuel
        omega
      · intro s tokens found after rest _ _ _ hfuel
        omega
  | succ fuel ih => exact ⟨typesAreRead_succ ih.2, membersAreRead_succ ih.1 ih.2⟩

end Completeness

theorem whole_eq_ok_iff {s : List Char} {found : Shape} :
    whole s = .ok found ↔ Spelled s found := by
  constructor
  · intro h
    rw [whole] at h
    split at h
    · cases h
    · rename_i hread
      cases h
      exact (reads _).1 hread
    · cases h
  · rintro ⟨tokens, hspells, htype⟩
    have hread := (areRead (2 * s.length + 1)).1 htype hspells .text (Nat.lt_succ_self _)
    rw [whole, hread]
    rfl

end Calldata.Parser

namespace Calldata

theorem parse_eq_ok_iff_whole {s : String} {shape : Shape} :
    Shape.parse s = .ok shape ↔ Parser.whole s.toList = .ok shape := by
  rw [Shape.parse]
  cases Parser.whole s.toList with
  | ok found => simp
  | error failure => simp

/-- A text is read as a shape just if it spells a type of that shape. -/
theorem parse_eq_ok_iff {s : String} {shape : Shape} :
    Shape.parse s = .ok shape ↔ Grammar.Spelled s.toList shape :=
  parse_eq_ok_iff_whole.trans Parser.whole_eq_ok_iff

end Calldata

end ContractFuzz

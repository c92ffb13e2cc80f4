import ContractFuzz.Proofs.Campaign.FirstOccurrences
import ContractFuzz.Proofs.Campaign.Obligations
import Mathlib.Data.Finset.Card

namespace ContractFuzz.Obligations

/-- What is asked of obligations. -/
inductive Operation where
  | retire (name : String)
  | matching (message : String)

/-- Whether a name was there to be retired, or the name that a message was matched with. -/
inductive Answer where
  | retired (there : Bool)
  | matched (found : Option String)
  deriving DecidableEq

def perform (o : Obligations) : Operation → Answer × Obligations
  | .retire name =>
      let (there, left) := o.containsThenRetire name
      (.retired there, left)
  | .matching message => (.matched (o.matching? message), o)

/-- The answers to operations one after another, and what is left after them. -/
def performAll (o : Obligations) : List Operation → List Answer × Obligations
  | [] => ([], o)
  | operation :: rest =>
      let (answer, left) := o.perform operation
      let (answers, last) := left.performAll rest
      (answer :: answers, last)

theorem performAll_cons (o : Obligations) (operation : Operation) (rest : List Operation) :
    o.performAll (operation :: rest) =
      ((o.perform operation).1 :: ((o.perform operation).2.performAll rest).1,
        ((o.perform operation).2.performAll rest).2) := rfl

def Operation.name? : Operation → Option String
  | .retire name => some name
  | .matching _ => none

/-- The names that operations retire, as often as they do. -/
def retiredBy (operations : List Operation) : List String := operations.filterMap Operation.name?

/-- The first of some names that a message starts with, or that it starts with none of them. -/
def IsFirstFront (message : String) (names : List String) : Option String → Prop
  | some name => ∃ before after, names = before ++ name :: after ∧
      (∃ rest, message = name ++ rest) ∧ ∀ other ∈ before, ¬∃ rest, message = other ++ rest
  | none => ∀ name ∈ names, ¬∃ rest, message = name ++ rest

/-- What an operation is to answer when some names are live. -/
def Answers (live : List String) : Operation → Answer → Prop
  | .retire name, .retired there => there = true ↔ name ∈ live
  | .matching message, .matched found => IsFirstFront message live found
  | _, _ => False

theorem matching?_isFirstFront (o : Obligations) (message : String) :
    IsFirstFront message o.live (o.matching? message) := by
  cases hfound : o.matching? message with
  | none =>
      intro name hname hstarts
      exact List.find?_eq_none.mp hfound name hname (Text.startsWith_iff.mpr hstarts)
  | some name =>
      obtain ⟨hname, before, after, hlive, hbefore⟩ := List.find?_eq_some_iff_append.mp hfound
      refine ⟨before, after, hlive, Text.startsWith_iff.mp hname, ?_⟩
      intro other hother hstarts
      have hnot := hbefore other hother
      rw [Text.startsWith_iff.mpr hstarts] at hnot
      cases hnot

theorem perform_answers (o : Obligations) (operation : Operation) :
    Answers o.live operation (o.perform operation).1 := by
  cases operation with
  | retire name => exact List.contains_iff_mem
  | matching message => exact o.matching?_isFirstFront message

theorem performAll_concat (o : Obligations) (operations : List Operation) (operation : Operation) :
    (o.performAll (operations ++ [operation])).1 =
      (o.performAll operations).1 ++ [((o.performAll operations).2.perform operation).1] := by
  induction operations generalizing o with
  | nil => rfl
  | cons first rest ih =>
      rw [List.cons_append, performAll_cons, performAll_cons, ih, List.cons_append]

theorem performAll_eq_retireAll (o : Obligations) (operations : List Operation) :
    (o.performAll operations).2 = o.retireAll (retiredBy operations) := by
  induction operations generalizing o with
  | nil => rfl
  | cons operation rest ih =>
      cases operation with
      | retire name => exact ih (o.retire name)
      | matching message => exact ih o

theorem count_perform (o : Obligations) (operation : Operation) :
    [(o.perform operation).1].count (.retired true) + (o.perform operation).2.live.length =
      o.live.length := by
  cases operation with
  | retire name =>
      change [Answer.retired (o.live.contains name)].count _ + (o.live.erase name).length = _
      by_cases hname : name ∈ o.live
      · have hpos := List.length_pos_of_mem hname
        rw [List.contains_iff_mem.mpr hname, List.count_singleton_self,
          List.length_erase_of_mem hname]
        omega
      · have hnot : o.live.contains name = false := by
          rw [List.contains_eq_mem, decide_eq_false hname]
        rw [hnot, List.erase_of_not_mem hname]
        exact Nat.zero_add _
  | matching message => exact Nat.zero_add _

theorem count_performAll (o : Obligations) (operations : List Operation) :
    (o.performAll operations).1.count (.retired true) +
      (o.performAll operations).2.live.length = o.live.length := by
  induction operations generalizing o with
  | nil => exact Nat.zero_add _
  | cons operation rest ih =>
      have hfirst := o.count_perform operation
      have hrest := ih (o.perform operation).2
      simp only [performAll_cons]
      rw [← List.singleton_append, List.count_append]
      omega

theorem count_retired (o : Obligations) (operations : List Operation) :
    (o.performAll operations).1.count (.retired true) =
      ((retiredBy operations).toFinset ∩ o.live.toFinset).card := by
  have hcount := o.count_performAll operations
  have hsplit := List.length_eq_length_filter_add (l := o.live) (· ∈ retiredBy operations)
  rw [performAll_eq_retireAll, live_retireAll] at hcount
  have hlength : (o.live.filter (· ∈ retiredBy operations)).length =
      ((retiredBy operations).toFinset ∩ o.live.toFinset).card := by
    rw [← List.toFinset_card_of_nodup (o.nodup.filter _)]
    congr 1
    ext name
    simp [and_comm]
  simp only [decide_not] at hcount hsplit
  omega

/-- Of obligations made of some names, those are live that have not been retired, in the order in
which the names came first. As many retirements find their name as there are names both given and
retired, and whatever is asked next is answered by what is live. -/
theorem performAll_retires (names : List String) (operations : List Operation) :
    let answers := ((ofList names).performAll operations).1
    let left := ((ofList names).performAll operations).2
    left.live = names.eraseDups.filter (· ∉ retiredBy operations) ∧
      answers.count (.retired true) =
        ((retiredBy operations).toFinset ∩ names.toFinset).card ∧
      ∀ operation, ∃ answer,
        ((ofList names).performAll (operations ++ [operation])).1 = answers ++ [answer] ∧
          Answers left.live operation answer := by
  intro answers left
  have hlive : left.live = names.eraseDups.filter (· ∉ retiredBy operations) := by
    rw [← live_ofList, ← live_retireAll, ← performAll_eq_retireAll]
  have hnames : (ofList names).live.toFinset = names.toFinset := by
    ext name
    rw [List.mem_toFinset, List.mem_toFinset, mem_ofList]
  refine ⟨hlive, ?_, ?_⟩
  · rw [← hnames]
    exact count_retired _ operations
  · intro operation
    exact ⟨_, performAll_concat _ operations operation, perform_answers _ operation⟩

/-- With one name the front of another, the match depends on what has been retired. -/
example :
    (performAll (ofList ["owner", "own", "owner"]) [.matching "owner is zero", .retire "owner",
      .matching "owner is zero", .retire "owner", .retire "debt", .matching "zero"]).1 =
    [.matched (some "owner"), .retired true, .matched (some "own"), .retired false, .retired false,
      .matched none] := by decide +kernel

end ContractFuzz.Obligations

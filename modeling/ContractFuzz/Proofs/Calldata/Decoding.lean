import ContractFuzz.Proofs.Calldata.Encoding

namespace ContractFuzz.Calldata

open ContractFuzz.Random

/-- The lengths of the arrays of a value, in the order in which they stand, and the numbers that
come after the value. -/
abbrev Reading := List Nat × List Felt

/-- Read a value for one item after another. -/
def readEach {α : Type} (step : α → List Felt → Option Reading) :
    List α → List Felt → Option Reading
  | [], numbers => some ([], numbers)
  | item :: rest, numbers => do
      let (front, numbers) ← step item numbers
      let (back, numbers) ← readEach step rest numbers
      return (front ++ back, numbers)

/-- Read a value of a shape, of which so many levels may still be entered. -/
def readWithin (structs : StructTable) : Nat → Shape → List Felt → Option Reading
  | 0, _, _ => none
  | _ + 1, .felt, numbers =>
      match numbers with
      | [] => none
      | _ :: rest => some ([], rest)
  | levels + 1, .pointer pointee, numbers =>
      match numbers with
      | [] => none
      | length :: rest => do
          let (lengths, rest) ←
            readEach (readWithin structs levels) (List.replicate length pointee) rest
          return (length :: lengths, rest)
  | levels + 1, .tuple members, numbers => readEach (readWithin structs levels) members numbers
  | levels + 1, .struct name, numbers => do
      let members ← structs.get? name
      readEach (readWithin structs levels) members numbers

/-- A reader takes just these numbers for a value, whatever comes after them, and meets no length
beyond a limit. -/
def Takes (read : List Felt → Option Reading) (limit : Nat) (numbers : List Felt) : Prop :=
  ∃ lengths, (∀ length ∈ lengths, 1 ≤ length ∧ length ≤ limit) ∧
    ∀ rest, read (numbers ++ rest) = some (lengths, rest)

variable {limit modulus levels : Nat} {structs : StructTable}

theorem takes_readEach {α : Type} {step : α → List Felt → Option Reading} {items : List α}
    {parts : List (List Felt)}
    (h : List.Forall₂ (fun item part => Takes (step item) limit part) items parts) :
    Takes (readEach step items) limit parts.flatten := by
  induction h with
  | nil => exact ⟨[], by simp, fun _ => rfl⟩
  | cons hfront _ ih =>
      obtain ⟨front, hfrontBounds, hfront⟩ := hfront
      obtain ⟨back, hbackBounds, hback⟩ := ih
      refine ⟨front ++ back, ?_, ?_⟩
      · intro length hlength
        rcases List.mem_append.mp hlength with hlength | hlength
        · exact hfrontBounds length hlength
        · exact hbackBounds length hlength
      · intro rest
        simp [readEach, List.append_assoc, hfront, hback]

theorem Encodes.takes {shape : Shape} {numbers : List Felt}
    (h : Encodes modulus limit structs levels shape numbers) {deeper : Nat}
    (hdeeper : levels ≤ deeper) : Takes (readWithin structs deeper shape) limit numbers := by
  induction levels generalizing shape numbers deeper with
  | zero => cases h
  | succ levels ih =>
      obtain ⟨deeper, rfl⟩ : ∃ less, deeper = less + 1 := ⟨deeper - 1, by omega⟩
      have hlevels : levels ≤ deeper := by omega
      have hmembers {members : List Shape} {parts : List (List Felt)}
          (h : List.Forall₂ (Encodes modulus limit structs levels) members parts) :
          Takes (readEach (readWithin structs deeper) members) limit parts.flatten :=
        takes_readEach (h.imp fun _ _ hpart => ih hpart hlevels)
      cases shape with
      | felt =>
          obtain ⟨x, -, rfl⟩ := h
          exact ⟨[], by simp, fun _ => rfl⟩
      | pointer pointee =>
          obtain ⟨elements, hpos, hlimit, helements, rfl⟩ := h
          have hpointees : List.Forall₂ (Encodes modulus limit structs levels)
              (List.replicate elements.length pointee) elements := by
            refine List.forall₂_iff_get.mpr ⟨by simp, ?_⟩
            intro i _ hi
            simpa using helements _ (List.get_mem elements ⟨i, hi⟩)
          obtain ⟨lengths, hlengths, hread⟩ := hmembers hpointees
          refine ⟨elements.length :: lengths, ?_, ?_⟩
          · exact List.forall_mem_cons.mpr ⟨⟨hpos, hlimit⟩, hlengths⟩
          · intro rest
            simp [readWithin, hread]
      | tuple members =>
          obtain ⟨parts, hparts, rfl⟩ := h
          exact hmembers hparts
      | struct name =>
          obtain ⟨members, parts, hname, hparts, rfl⟩ := h
          obtain ⟨lengths, hlengths, hread⟩ := hmembers hparts
          refine ⟨lengths, hlengths, ?_⟩
          intro rest
          simp [readWithin, hname, hread]

/-- Generated calldata is read to its end, whoever drew it, and every array in it has at least one
element and no more than the limit allows. -/
theorem calldata_reads {ρ : Type} {source : Source ρ} (hsource : source.InRange) {g : Generator}
    (hmake : Generator.make modulus limit = .ok g) {shapes : List Shape} {state next : ρ}
    {numbers : List Felt} (h : g.calldata source structs shapes state = (.ok numbers, next))
    (hlevels : maximalNesting < levels) :
    ∃ lengths, readEach (readWithin structs levels) shapes numbers = some (lengths, []) ∧
      ∀ length ∈ lengths, 1 ≤ length ∧ length ≤ max 1 limit := by
  obtain ⟨parts, hparts, rfl⟩ := Generator.calldata_encodes hsource h
  rw [(Generator.make_eq_ok hmake).2, Nat.max_comm limit 1] at hparts
  obtain ⟨lengths, hlengths, hread⟩ :=
    takes_readEach (hparts.imp fun _ _ hpart => hpart.takes hlevels)
  have hwhole := hread []
  rw [List.append_nil] at hwhole
  exact ⟨lengths, hwhole, hlengths⟩

/-- A team is a captain and any number of players. -/
def teams : StructTable := .ofList [("Team", [.felt, .pointer .felt])]

def rosterShapes : List Shape := [.pointer (.struct "Team"), .felt]

/-- Two teams, of one player and of two. -/
def rosterTape : List Nat :=
  let tier := Generator.edgeTier
  [1, tier, 7, 0, tier, 8, tier, 9, 1, tier, 10, tier, 11, tier, 12]

def rosterGenerator : Generator := ⟨Felt.prime, 2, by decide, by decide⟩

theorem calldata_reads_roster :
    rosterGenerator.calldata tapeSource teams rosterShapes rosterTape =
      (.ok [2, 7, 1, 8, 9, 2, 10, 11, 12], []) ∧
    ∃ lengths, readEach (readWithin teams 40) rosterShapes [2, 7, 1, 8, 9, 2, 10, 11, 12] =
      some (lengths, []) ∧ ∀ length ∈ lengths, 1 ≤ length ∧ length ≤ max 1 2 := by
  have hmake : Generator.make Felt.prime 2 = .ok rosterGenerator := rfl
  have hdrawn : rosterGenerator.calldata tapeSource teams rosterShapes rosterTape =
      (.ok [2, 7, 1, 8, 9, 2, 10, 11, 12], []) := by rfl
  exact ⟨hdrawn, calldata_reads tapeSource_inRange hmake hdrawn (by decide)⟩

example : readEach (readWithin teams 40) rosterShapes [2, 7, 1, 8, 9, 2, 10, 11, 12] =
    some ([2, 1, 2], []) := by decide +kernel

end ContractFuzz.Calldata

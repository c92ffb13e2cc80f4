import ContractFuzz.Artifact.Basic
import ContractFuzz.Proofs.Abi.Wire
import ContractFuzz.Proofs.Text.Numerals

namespace ContractFuzz

open Json

theorem Diagnostic.readsBack : ReadsBack Diagnostic.toJson Diagnostic.ofJson? := by
  intro d
  have hfields : d.toJson.recordFields? ["signature", "message_template"] =
      some [some (.string d.signature), some (.string d.messageTemplate)] :=
    recordFields?_object (by simp) _
  rw [ofJson?, hfields]
  rfl

namespace Location

/-- Locations with line numbers that fit 32 bits, here and wherever they were expanded. -/
inductive Fits : Location → Prop
  | outermost {filename startLine endLine} (starts : startLine < 1 <<< 32)
      (ends : endLine < 1 <<< 32) : Fits ⟨filename, startLine, endLine, none⟩
  | expanded {filename startLine endLine outer} (note : String) (starts : startLine < 1 <<< 32)
      (ends : endLine < 1 <<< 32) (fits : Fits outer) :
      Fits ⟨filename, startLine, endLine, some (outer, note)⟩

theorem inputFile?_object (filename : Option String) :
    inputFile? (.object [("filename", ofOption .string filename)]) = some filename := by
  have hfields : recordFields? ["filename"] (.object [("filename", ofOption .string filename)]) =
      some [some (ofOption .string filename)] := recordFields?_object (by simp) _
  rw [inputFile?, hfields]
  exact readsBack_string.option nofun filename

theorem line?_ofNat {n : Nat} (h : n < 1 <<< 32) : line? (ofNat n) = some n := if_pos h

theorem recordFields?_location (file startLine endLine parent : Json) :
    recordFields? ["input_file", "start_line", "end_line", "parent_location"]
      (.object [("input_file", file), ("start_line", startLine), ("end_line", endLine),
        ("parent_location", parent)]) =
      some [some file, some startLine, some endLine, some parent] :=
  recordFields?_object (by simp) _

theorem ofJsonWithin?_toJson {location : Location} (h : location.Fits) :
    ∀ fuel, location.toJson.height ≤ fuel → ofJsonWithin? fuel location.toJson = some location := by
  induction h with
  | @outermost filename startLine endLine starts ends =>
      intro fuel hfuel
      rw [toJson] at hfuel ⊢
      obtain ⟨fuel, rfl, -⟩ := exists_fuel hfuel
      rw [ofJsonWithin?, recordFields?_location]
      simp only [required, inputFile?_object filename, line?_ofNat starts, line?_ofNat ends]
      rfl
  | @expanded filename startLine endLine outer note starts ends _ ih =>
      intro fuel hfuel
      rw [toJson] at hfuel ⊢
      obtain ⟨fuel, rfl, hparts⟩ := exists_fuel hfuel
      have hpair : (Json.array [outer.toJson, .string note]).height ≤ fuel :=
        hparts _ _ (List.mem_of_getLast? rfl)
      have houter : outer.toJson.height ≤ fuel :=
        Nat.le_trans (Nat.le_of_lt (height_lt_of_mem_items List.mem_cons_self)) hpair
      rw [ofJsonWithin?, recordFields?_location]
      simp only [required, inputFile?_object filename, line?_ofNat starts, line?_ofNat ends]
      simp only [Json.optional, ih fuel houter]
      rfl

theorem ofJson?_toJson {location : Location} (h : location.Fits) :
    ofJson? location.toJson = some location := ofJsonWithin?_toJson h _ (Nat.le_refl _)

end Location

namespace DebugInfo

/-- Debug information of which all addresses fit 64 bits and all line numbers 32. -/
structure Fits (info : DebugInfo) : Prop where
  addresses : ∀ entry ∈ info.locations.entries, entry.1 < 1 <<< 64
  locations : ∀ entry ∈ info.locations.entries, entry.2.Fits

theorem address?_decimalDigits {n : Nat} (h : n < 1 <<< 64) :
    address? (String.ofList (Text.decimalDigits n)) = some n := by
  have hten : 1 < 10 := by decide
  obtain ⟨digit, rest, hdigits, hlt, hpos⟩ := Text.toDigits_eq_cons hten n
  change Text.decimalDigits n = digit.digitChar :: rest at hdigits
  by_cases hzero : n = 0
  · subst hzero
    rfl
  · have hfirst : ∀ digit < 10, 0 < digit → digit.digitChar ≠ '0' ∧ digit.digitChar ≠ '+' := by
      decide
    obtain ⟨hnonzero, hplus⟩ := hfirst digit hlt (hpos (Nat.pos_of_ne_zero hzero))
    rw [address?, String.toList_ofList, hdigits]
    split
    · rename_i heq
      exact absurd (List.cons.inj heq).1 hnonzero
    · rename_i heq
      exact absurd (List.cons.inj heq).1 hnonzero
    · rename_i heq
      exact absurd (List.cons.inj heq).1 hplus
    · rw [← hdigits]
      exact Text.word?_decimalDigits h

/-- An entry of the table of locations, as it is written. -/
def field (entry : Nat × Location) : String × Json :=
  (String.ofList (Text.decimalDigits entry.1), .object [("inst", entry.2.toJson)])

theorem entry?_field {entry : Nat × Location} (haddress : entry.1 < 1 <<< 64)
    (hlocation : entry.2.Fits) : entry? (field entry) = some entry := by
  have hinst : instruction? (.object [("inst", entry.2.toJson)]) = some entry.2 := by
    have hfields : recordFields? ["inst"] (.object [("inst", entry.2.toJson)]) =
        some [some entry.2.toJson] := recordFields?_object (by simp) _
    rw [instruction?, hfields]
    exact Location.ofJson?_toJson hlocation
  change (address? (String.ofList (Text.decimalDigits entry.1))).bind (fun address =>
    (instruction? (.object [("inst", entry.2.toJson)])).bind fun location =>
      some (address, location)) = some entry
  rw [address?_decimalDigits haddress, hinst]
  rfl

theorem ofJson?_of_perm {info : DebugInfo} (h : info.Fits) {entries : List (Nat × Location)}
    (hperm : entries.Perm info.locations.entries) :
    ofJson? (.object [("instruction_locations", .object (entries.map field))]) = some info := by
  have hentries : (entries.map field).mapM entry? = some entries := by
    have hread : ∀ entry ∈ entries, ( entry? ∘ field) entry = some (id entry) := by
      intro entry hentry
      have hlisted := hperm.subset hentry
      exact entry?_field (h.addresses entry hlisted) (h.locations entry hlisted)
    rw [List.mapM_map, mapM_eq_some_map hread, List.map_id]
  have hfields : recordFields? ["instruction_locations"]
      (.object [("instruction_locations", .object (entries.map field))]) =
        some [some (.object (entries.map field))] := recordFields?_object (by simp) _
  have hlocations : locations? (.object (entries.map field)) = some info.locations := by
    rw [locations?, hentries, Option.map_some, SortedMap.ofList_of_perm hperm]
  rw [ofJson?, hfields]
  exact congrArg (Option.map mk) hlocations

end DebugInfo

/-- Entries of every kind, diagnostics and debug information are read back as they were written, the
debug information in whatever order its addresses come. -/
theorem Artifact.parts_survive :
    (∀ entry : Abi.Entry, Abi.Entry.ofJson? entry.toJson = some entry) ∧
      (∀ d : Diagnostic, Diagnostic.ofJson? d.toJson = some d) ∧
      ∀ info : DebugInfo, info.Fits →
        DebugInfo.ofJson? info.toJson = some info ∧
        ∀ entries : List (Nat × Location), entries.Perm info.locations.entries →
          DebugInfo.ofJson? (.object [("instruction_locations",
            .object (entries.map DebugInfo.field))]) = some info := by
  refine ⟨Abi.Entry.readsBack, Diagnostic.readsBack, fun info hfits => ⟨?_, ?_⟩⟩
  · exact DebugInfo.ofJson?_of_perm hfits (.refl _)
  · exact fun entries hperm => DebugInfo.ofJson?_of_perm hfits hperm

/-- A location without a file, expanded twice. -/
def Location.expandedTwice : Location :=
  ⟨none, 3, 4, some (⟨some "lib", 7, 7, some (⟨some "main", 10, 1 <<< 32 - 1, none⟩, "")⟩, "While")⟩

/-- The locations of the first and the last address there can be, and of one between them. -/
def DebugInfo.farApart : DebugInfo :=
  ⟨[(0, .expandedTwice), (9, ⟨none, 0, 0, none⟩), (1 <<< 64 - 1, .expandedTwice)], by decide⟩

theorem DebugInfo.fits_farApart : farApart.Fits := by
  have htwice : Location.expandedTwice.Fits :=
    .expanded "While" (by decide) (by decide)
      (.expanded "" (by decide) (by decide) (.outermost (by decide) (by decide)))
  constructor
  · decide
  · simp only [farApart, List.forall_mem_cons]
    exact ⟨htwice, .outermost (by decide) (by decide), htwice, List.forall_mem_nil _⟩

theorem Artifact.parts_survive_farApart :
    DebugInfo.farApart.Fits ∧
      DebugInfo.ofJson? DebugInfo.farApart.toJson = some DebugInfo.farApart ∧
      DebugInfo.ofJson? (.object [("instruction_locations", .object
        [("0", .object [("inst", Location.expandedTwice.toJson)]),
          ("18446744073709551615", .object [("inst", Location.expandedTwice.toJson)]),
          ("9", .object [("inst", Location.toJson ⟨none, 0, 0, none⟩)])])]) =
        some DebugInfo.farApart := by
  obtain ⟨-, -, hsurvives⟩ := parts_survive
  obtain ⟨hread, hsorted⟩ := hsurvives DebugInfo.farApart DebugInfo.fits_farApart
  have hlast : String.ofList (Text.decimalDigits (1 <<< 64 - 1)) = "18446744073709551615" := by
    decide +kernel
  have hswapped := hsorted
    [(0, .expandedTwice), (1 <<< 64 - 1, .expandedTwice), (9, ⟨none, 0, 0, none⟩)]
    (.cons _ (.swap _ _ []))
  simp only [List.map_cons, DebugInfo.field, hlast] at hswapped
  exact ⟨DebugInfo.fits_farApart, hread, hswapped⟩

end ContractFuzz

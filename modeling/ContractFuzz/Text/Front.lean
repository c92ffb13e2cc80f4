namespace ContractFuzz.Text

/-- Whether a text starts with another. -/
def startsWith (s front : String) : Bool := front.toList.isPrefixOf s.toList

/-- A text without the front it starts with. -/
def dropFront? (front s : String) : Option String :=
  if startsWith s front then some (String.ofList (s.toList.drop front.toList.length)) else none

theorem startsWith_iff {s front : String} :
    startsWith s front = true ↔ ∃ rest, s = front ++ rest := by
  rw [startsWith, List.isPrefixOf_iff_prefix]
  constructor
  · rintro ⟨rest, hrest⟩
    refine ⟨String.ofList rest, ?_⟩
    rw [← String.toList_inj, String.toList_append, String.toList_ofList, hrest]
  · rintro ⟨rest, rfl⟩
    rw [String.toList_append]
    exact List.prefix_append _ _

theorem dropFront?_append (front rest : String) : dropFront? front (front ++ rest) = some rest := by
  rw [dropFront?, if_pos (startsWith_iff.mpr ⟨rest, rfl⟩), String.toList_append, List.drop_left,
    String.ofList_toList]

theorem dropFront?_eq_some_iff {front s rest : String} :
    dropFront? front s = some rest ↔ s = front ++ rest := by
  constructor
  · intro h
    by_cases hstarts : startsWith s front = true
    · obtain ⟨others, rfl⟩ := startsWith_iff.mp hstarts
      rw [dropFront?_append] at h
      rw [Option.some.inj h]
    · rw [dropFront?, if_neg hstarts] at h
      cases h
  · rintro rfl
    exact dropFront?_append front rest

theorem startsWith_or_startsWith {s front other : String} (h : startsWith s front = true)
    (hother : startsWith s other = true) :
    startsWith other front = true ∨ startsWith front other = true := by
  simp only [startsWith, List.isPrefixOf_iff_prefix] at h hother ⊢
  exact List.prefix_or_prefix_of_prefix h hother

theorem dropFront?_bind (front other s : String) :
    (dropFront? front s).bind (dropFront? other) = dropFront? (front ++ other) s := by
  ext rest
  simp only [Option.bind_eq_some_iff, dropFront?_eq_some_iff]
  constructor
  · rintro ⟨middle, rfl, rfl⟩
    rw [String.append_assoc]
  · rintro rfl
    exact ⟨other ++ rest, String.append_assoc, rfl⟩

end ContractFuzz.Text

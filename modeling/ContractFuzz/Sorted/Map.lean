import ContractFuzz.Sorted.Set

namespace ContractFuzz

/-- The entry lists in which every key comes before all that follow it. -/
abbrev AscendingKeys {α β : Type} [Ord α] (entries : List (α × β)) : Prop :=
  entries.Pairwise fun a b => compare a.1 b.1 = .lt

structure SortedMap (α β : Type) [Ord α] where
  entries : List (α × β)
  ascending : AscendingKeys entries

namespace SortedMap

variable {α β : Type} [Ord α]

/-- Change what stands at a key, given what stood there. -/
def alterList (key : α) (change : Option β → β) : List (α × β) → List (α × β)
  | [] => [(key, change none)]
  | entry :: rest =>
      match compare key entry.1 with
      | .lt => (key, change none) :: entry :: rest
      | .eq => (entry.1, change (some entry.2)) :: rest
      | .gt => entry :: alterList key change rest

/-- Look a key up; the list is left as soon as its keys are larger. -/
def findList (key : α) : List (α × β) → Option β
  | [] => none
  | entry :: rest =>
      match compare key entry.1 with
      | .lt => none
      | .eq => some entry.2
      | .gt => findList key rest

theorem mem_keys_alterList [Std.LawfulEqOrd α] {key k : α} {change : Option β → β}
    {entries : List (α × β)} :
    k ∈ (alterList key change entries).map Prod.fst ↔ k = key ∨ k ∈ entries.map Prod.fst := by
  induction entries with
  | nil => simp [alterList]
  | cons entry rest ih =>
      rw [alterList]
      split
      · simp
      · rename_i hcompare
        have heq := Std.LawfulEqOrd.eq_of_compare hcompare
        simp [heq]
      · rw [List.map_cons, List.mem_cons, ih, List.map_cons, List.mem_cons]
        exact or_left_comm

theorem ascending_alterList [Std.TransOrd α] [Std.LawfulEqOrd α] {key : α}
    {change : Option β → β} {entries : List (α × β)} (h : AscendingKeys entries) :
    AscendingKeys (alterList key change entries) := by
  induction entries with
  | nil => simp [alterList]
  | cons entry rest ih =>
      obtain ⟨hfirst, hrest⟩ := List.pairwise_cons.1 h
      rw [alterList]
      split
      · rename_i hlt
        refine List.pairwise_cons.2 ⟨fun other hother => ?_, h⟩
        rcases List.mem_cons.1 hother with rfl | hother
        · exact hlt
        · exact Std.TransCmp.lt_trans hlt (hfirst other hother)
      · exact List.pairwise_cons.2 ⟨hfirst, hrest⟩
      · rename_i hgt
        refine List.pairwise_cons.2 ⟨fun other hother => ?_, ih hrest⟩
        have hkey : other.1 ∈ (alterList key change rest).map Prod.fst :=
          List.mem_map_of_mem hother
        rcases mem_keys_alterList.1 hkey with heq | hmem
        · rw [heq]
          exact Std.OrientedCmp.lt_of_gt hgt
        · obtain ⟨found, hfound, hfst⟩ := List.mem_map.1 hmem
          rw [← hfst]
          exact hfirst found hfound

theorem findList_alterList [Std.TransOrd α] [Std.LawfulEqOrd α] [DecidableEq α] {key k : α}
    {change : Option β → β} {entries : List (α × β)} :
    findList k (alterList key change entries) =
      if k = key then some (change (findList key entries)) else findList k entries := by
  induction entries with
  | nil =>
      by_cases hk : k = key
      · subst hk
        simp [alterList, findList, Std.ReflCmp.compare_self]
      · have hne : compare k key ≠ .eq := fun h => hk (Std.LawfulEqOrd.eq_of_compare h)
        simp only [alterList, findList, hk, if_false]
        split <;> simp_all
  | cons entry rest ih =>
      rw [alterList]
      split
      · rename_i hlt
        by_cases hk : k = key
        · subst hk
          simp [findList, Std.ReflCmp.compare_self, hlt]
        · have hne : compare k key ≠ .eq := fun h => hk (Std.LawfulEqOrd.eq_of_compare h)
          rw [if_neg hk, findList]
          split
          · rename_i hk'
            simp [findList, Std.TransCmp.lt_trans hk' hlt]
          · contradiction
          · rfl
      · rename_i heq
        have hkey := Std.LawfulEqOrd.eq_of_compare heq
        by_cases hk : k = key
        · subst hk
          simp [findList, heq]
        · have hne : compare k entry.1 ≠ .eq := fun h =>
            hk ((Std.LawfulEqOrd.eq_of_compare h).trans hkey.symm)
          rw [if_neg hk, findList, findList]
          split <;> simp_all
      · rename_i hgt
        rw [findList, ih]
        by_cases hk : k = key
        · subst hk
          simp [findList, hgt]
        · simp only [hk, if_false, findList]

theorem findList_eq_some_iff [Std.TransOrd α] [Std.LawfulEqOrd α] {key : α} {value : β}
    {entries : List (α × β)} (h : AscendingKeys entries) :
    findList key entries = some value ↔ (key, value) ∈ entries := by
  induction entries with
  | nil => simp [findList]
  | cons entry rest ih =>
      obtain ⟨hfirst, hrest⟩ := List.pairwise_cons.1 h
      -- the keys that come later are larger than this one, so they cannot be the one looked for
      have hlater : (key, value) ∈ rest → compare key entry.1 = .gt := fun hmem =>
        Std.OrientedCmp.gt_of_lt (hfirst _ hmem)
      rw [findList]
      split
      · rename_i hlt
        refine ⟨fun hfound => (by cases hfound), fun hmem => ?_⟩
        rcases List.mem_cons.1 hmem with rfl | hmem
        · simp [Std.ReflCmp.compare_self] at hlt
        · rw [hlater hmem] at hlt
          cases hlt
      · rename_i heq
        have hkey := Std.LawfulEqOrd.eq_of_compare heq
        refine ⟨fun hfound => ?_, fun hmem => ?_⟩
        · rw [hkey, ← Option.some.inj hfound]
          exact List.mem_cons_self
        · rcases List.mem_cons.1 hmem with rfl | hmem
          · rfl
          · rw [hlater hmem] at heq
            cases heq
      · rename_i hgt
        rw [ih hrest, List.mem_cons]
        refine ⟨Or.inr, fun hmem => hmem.resolve_left ?_⟩
        rintro rfl
        simp [Std.ReflCmp.compare_self] at hgt

theorem perm_alterList [Std.LawfulEqOrd α] {key : α} {change : Option β → β}
    {entries : List (α × β)} (h : key ∉ entries.map Prod.fst) :
    (alterList key change entries).Perm ((key, change none) :: entries) := by
  induction entries with
  | nil => exact .refl _
  | cons entry rest ih =>
      rw [List.map_cons, List.mem_cons, not_or] at h
      rw [alterList]
      split
      · exact .refl _
      · rename_i heq
        exact absurd (Std.LawfulEqOrd.eq_of_compare heq) h.1
      · exact ((ih h.2).cons entry).trans (.swap _ _ rest)

def empty : SortedMap α β := ⟨[], List.Pairwise.nil⟩

instance : EmptyCollection (SortedMap α β) := ⟨empty⟩

instance : Inhabited (SortedMap α β) := ⟨empty⟩

theorem eq_of_entries {m n : SortedMap α β} (h : m.entries = n.entries) : m = n := by
  cases m
  cases n
  cases h
  rfl

def get? (m : SortedMap α β) (key : α) : Option β := findList key m.entries

def keys (m : SortedMap α β) : List α := m.entries.map Prod.fst

def values (m : SortedMap α β) : List β := m.entries.map Prod.snd

theorem nodup_keys [Std.LawfulEqOrd α] (m : SortedMap α β) : m.keys.Nodup := by
  refine List.pairwise_map.mpr (m.ascending.imp ?_)
  intro entry other hlt heq
  have hself : compare other.1 other.1 = .eq := Std.ReflCmp.compare_self
  rw [heq, hself] at hlt
  cases hlt

variable [Std.TransOrd α] [Std.LawfulEqOrd α]

/-- Change what stands at a key, given what stood there. -/
def alter (m : SortedMap α β) (key : α) (change : Option β → β) : SortedMap α β :=
  ⟨alterList key change m.entries, ascending_alterList m.ascending⟩

/-- Write a value at a key, over what stood there. -/
def insert (m : SortedMap α β) (key : α) (value : β) : SortedMap α β :=
  m.alter key fun _ => value

def ofList (entries : List (α × β)) : SortedMap α β :=
  entries.foldl (fun m entry => m.insert entry.1 entry.2) empty

theorem get?_eq_some_iff {m : SortedMap α β} {key : α} {value : β} :
    m.get? key = some value ↔ (key, value) ∈ m.entries :=
  findList_eq_some_iff m.ascending

theorem get?_insert [DecidableEq α] {m : SortedMap α β} {key k : α} {value : β} :
    (m.insert key value).get? k = if k = key then some value else m.get? k :=
  findList_alterList

theorem perm_foldl_insert {m : SortedMap α β} {entries : List (α × β)}
    (h : ((m.entries ++ entries).map Prod.fst).Nodup) :
    (entries.foldl (fun m entry => m.insert entry.1 entry.2) m).entries.Perm
      (m.entries ++ entries) := by
  induction entries generalizing m with
  | nil => rw [List.append_nil, List.foldl_nil]
  | cons entry rest ih =>
      have hmiddle : (m.entries ++ entry :: rest).Perm (entry :: (m.entries ++ rest)) :=
        List.perm_middle
      have hnodup := (hmiddle.map Prod.fst).nodup_iff.mp h
      have hnew : entry.1 ∉ m.entries.map Prod.fst := by
        intro hkey
        refine (List.nodup_cons.mp hnodup).1 ?_
        rw [List.map_append]
        exact List.mem_append_left _ hkey
      have hinsert : ((m.insert entry.1 entry.2).entries ++ rest).Perm
          (entry :: (m.entries ++ rest)) := (perm_alterList hnew).append_right rest
      have hrest := ih ((hinsert.map Prod.fst).nodup_iff.mpr hnodup)
      exact hrest.trans (hinsert.trans hmiddle.symm)

theorem ofList_of_perm {m : SortedMap α β} {entries : List (α × β)} (h : entries.Perm m.entries) :
    ofList entries = m := by
  have hnodup : (entries.map Prod.fst).Nodup := (h.map Prod.fst).nodup_iff.mpr m.nodup_keys
  have hperm : (ofList entries).entries.Perm m.entries := (perm_foldl_insert hnodup).trans h
  refine eq_of_entries (hperm.eq_of_pairwise ?_ (ofList entries).ascending m.ascending)
  intro entry other _ _ hlt hgt
  exact absurd hgt (Std.OrientedCmp.not_lt_of_lt hlt)

end SortedMap

end ContractFuzz

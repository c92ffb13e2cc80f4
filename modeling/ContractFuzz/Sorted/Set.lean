namespace ContractFuzz

/-- The lists in which every element comes before all that follow it. -/
abbrev Ascending {α : Type} [Ord α] (xs : List α) : Prop :=
  xs.Pairwise fun a b => compare a b = .lt

structure SortedSet (α : Type) [Ord α] where
  toList : List α
  ascending : Ascending toList

namespace SortedSet

variable {α : Type} [Ord α]

/-- Put an element at its place, unless it is there already. -/
def insertList (a : α) : List α → List α
  | [] => [a]
  | b :: rest =>
      match compare a b with
      | .lt => a :: b :: rest
      | .eq => b :: rest
      | .gt => b :: insertList a rest

section Members

variable [Std.LawfulEqOrd α]

theorem mem_insertList {x a : α} {xs : List α} : x ∈ insertList a xs ↔ x = a ∨ x ∈ xs := by
  induction xs with
  | nil => simp [insertList]
  | cons b rest ih =>
      rw [insertList]
      split
      · simp
      · rename_i hcompare
        obtain rfl := Std.LawfulEqOrd.eq_of_compare hcompare
        simp
      · simp only [List.mem_cons, ih]
        exact or_left_comm

end Members

section Order

variable [Std.TransOrd α] [Std.LawfulEqOrd α]

theorem ascending_insertList {a : α} {xs : List α} (h : Ascending xs) :
    Ascending (insertList a xs) := by
  induction xs with
  | nil => simp [insertList]
  | cons b rest ih =>
      obtain ⟨hb, hrest⟩ := List.pairwise_cons.1 h
      rw [insertList]
      split
      · rename_i hab
        refine List.pairwise_cons.2 ⟨fun x hx => ?_, h⟩
        rcases List.mem_cons.1 hx with rfl | hx
        · exact hab
        · exact Std.TransCmp.lt_trans hab (hb x hx)
      · exact h
      · rename_i hab
        refine List.pairwise_cons.2 ⟨fun x hx => ?_, ih hrest⟩
        rcases mem_insertList.1 hx with rfl | hx
        · exact Std.OrientedCmp.lt_of_gt hab
        · exact hb x hx

theorem eq_of_mem_iff {xs ys : List α} (hx : Ascending xs) (hy : Ascending ys)
    (h : ∀ a, a ∈ xs ↔ a ∈ ys) : xs = ys := by
  induction xs generalizing ys with
  | nil =>
      cases ys with
      | nil => rfl
      | cons b bs => exact absurd ((h b).2 (List.mem_cons_self ..)) (by simp)
  | cons a as ih =>
      cases ys with
      | nil => exact absurd ((h a).1 (List.mem_cons_self ..)) (by simp)
      | cons b bs =>
          obtain ⟨hfirst, has⟩ := List.pairwise_cons.1 hx
          obtain ⟨hfirst', hbs⟩ := List.pairwise_cons.1 hy
          have hirrefl : ∀ c : α, ¬ compare c c = .lt := fun c => by
            simp [Std.ReflCmp.compare_self]
          have hab : a = b := by
            rcases List.mem_cons.1 ((h a).1 (List.mem_cons_self ..)) with hab | hmem
            · exact hab
            · rcases List.mem_cons.1 ((h b).2 (List.mem_cons_self ..)) with hba | hmem'
              · exact hba.symm
              · exact absurd (Std.TransCmp.lt_trans (hfirst b hmem') (hfirst' a hmem))
                  (hirrefl a)
          subst hab
          congr 1
          refine ih has hbs fun c => ⟨fun hc => ?_, fun hc => ?_⟩
          · rcases List.mem_cons.1 ((h c).1 (List.mem_cons_of_mem _ hc)) with rfl | hc'
            · exact absurd (hfirst c hc) (hirrefl c)
            · exact hc'
          · rcases List.mem_cons.1 ((h c).2 (List.mem_cons_of_mem _ hc)) with rfl | hc'
            · exact absurd (hfirst' c hc) (hirrefl c)
            · exact hc'

end Order

instance : Membership α (SortedSet α) := ⟨fun s a => a ∈ s.toList⟩

theorem mem_toList {s : SortedSet α} {a : α} : a ∈ s.toList ↔ a ∈ s := Iff.rfl

def empty : SortedSet α := ⟨[], List.Pairwise.nil⟩

instance : EmptyCollection (SortedSet α) := ⟨empty⟩

instance : Inhabited (SortedSet α) := ⟨empty⟩

def size (s : SortedSet α) : Nat := s.toList.length

/-- Look an element up; the list is left as soon as its elements are larger. -/
def containsList (a : α) : List α → Bool
  | [] => false
  | b :: rest =>
      match compare a b with
      | .lt => false
      | .eq => true
      | .gt => containsList a rest

def contains (s : SortedSet α) (a : α) : Bool := containsList a s.toList

theorem length_insertList (a : α) (xs : List α) :
    (insertList a xs).length = xs.length + (!containsList a xs).toNat := by
  induction xs with
  | nil => rfl
  | cons b rest ih =>
      rw [insertList, containsList]
      cases compare a b with
      | lt | eq => rfl
      | gt => simp only [List.length_cons, ih, Nat.add_right_comm]

section Operations

variable [Std.TransOrd α] [Std.LawfulEqOrd α]

theorem containsList_iff_mem {a : α} {xs : List α} (h : Ascending xs) :
    containsList a xs = true ↔ a ∈ xs := by
  induction xs with
  | nil => simp [containsList]
  | cons b rest ih =>
      obtain ⟨hb, hrest⟩ := List.pairwise_cons.1 h
      rw [containsList]
      split
      · rename_i hab
        have hlate : ∀ c ∈ b :: rest, compare a c = .lt := by
          intro c hc
          rcases List.mem_cons.1 hc with rfl | hc
          · exact hab
          · exact Std.TransCmp.lt_trans hab (hb c hc)
        have hmem : a ∉ b :: rest := fun ha => by
          simpa [Std.ReflCmp.compare_self] using hlate a ha
        simp only [Bool.false_eq_true, hmem]
      · rename_i hab
        obtain rfl := Std.LawfulEqOrd.eq_of_compare hab
        simp
      · rename_i hab
        have hne : a ≠ b := by
          rintro rfl
          simp [Std.ReflCmp.compare_self] at hab
        rw [ih hrest, List.mem_cons, or_iff_right hne]

theorem contains_iff_mem {s : SortedSet α} {a : α} : s.contains a = true ↔ a ∈ s :=
  containsList_iff_mem s.ascending

theorem ext {s t : SortedSet α} (h : ∀ a, a ∈ s ↔ a ∈ t) : s = t := by
  obtain ⟨xs, hx⟩ := s
  obtain ⟨ys, hy⟩ := t
  obtain rfl : xs = ys := eq_of_mem_iff hx hy h
  rfl

def insert (s : SortedSet α) (a : α) : SortedSet α :=
  ⟨insertList a s.toList, ascending_insertList s.ascending⟩

/-- Insert an element, and tell whether it was not there yet. -/
def insertNew (s : SortedSet α) (a : α) : Bool × SortedSet α := (!s.contains a, s.insert a)

/-- Insert elements one after another, and count those that were not there when they came. -/
def insertEach (s : SortedSet α) : List α → Nat × SortedSet α
  | [] => (0, s)
  | a :: rest =>
      let (isNew, s) := s.insertNew a
      let (count, s) := s.insertEach rest
      (isNew.toNat + count, s)

def ofList (xs : List α) : SortedSet α := xs.foldl insert empty

@[simp] theorem mem_insert {s : SortedSet α} {a x : α} : x ∈ s.insert a ↔ x = a ∨ x ∈ s :=
  mem_insertList

theorem mem_foldl_insert {s : SortedSet α} {xs : List α} {x : α} :
    x ∈ xs.foldl insert s ↔ x ∈ s ∨ x ∈ xs := by
  induction xs generalizing s with
  | nil => simp
  | cons a rest ih =>
      rw [List.foldl_cons, ih, mem_insert, List.mem_cons, or_assoc, or_left_comm]

@[simp] theorem mem_ofList {xs : List α} {x : α} : x ∈ ofList xs ↔ x ∈ xs := by
  rw [ofList, mem_foldl_insert]
  exact or_iff_right List.not_mem_nil

@[simp] theorem mem_insertEach {s : SortedSet α} {xs : List α} {x : α} :
    x ∈ (s.insertEach xs).2 ↔ x ∈ s ∨ x ∈ xs := by
  induction xs generalizing s with
  | nil => simp [insertEach]
  | cons a rest ih =>
      simp only [insertEach, insertNew, ih, mem_insert, List.mem_cons, or_assoc, or_left_comm]

theorem size_insert (s : SortedSet α) (a : α) :
    (s.insert a).size = s.size + (!s.contains a).toNat :=
  length_insertList a s.toList

theorem size_insertEach (s : SortedSet α) (xs : List α) :
    (s.insertEach xs).2.size = s.size + (s.insertEach xs).1 := by
  induction xs generalizing s with
  | nil => rfl
  | cons a rest ih =>
      simp only [insertEach, insertNew, ih, size_insert, Nat.add_assoc]

theorem ofList_toList (s : SortedSet α) : ofList s.toList = s := ext fun _ => mem_ofList

end Operations

end SortedSet

end ContractFuzz

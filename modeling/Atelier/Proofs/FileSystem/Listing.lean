import Atelier.Proofs.FileSystem.Contents

/-!
# Directories that are listed in any order

A file system gives the names in a directory in no particular order. What it gives of a tree is a
forest that has the contents of the tree and no name twice in a directory (`FileTree.Lists`).
Sorting each directory of it gives the forest of the tree itself, in whatever order the names came
(`FileTree.Lists.inOrder_eq`).
-/

namespace Atelier

namespace Forest

variable {f : Forest} {front : Forest → Forest} {inside : Location → Option Item} {name n : Name}
  {l : Location}

/-- Whether no name stands twice in a directory, nor in any directory inside it. -/
def Distinct : Forest → Prop
  | nil => True
  | file m _ rest => m ∉ rest.names ∧ rest.Distinct
  | directory m inside rest => m ∉ rest.names ∧ inside.Distinct ∧ rest.Distinct

theorem Ordered.distinct (h : f.Ordered) : f.Distinct := by
  induction f with
  | nil => exact trivial
  | file m content rest ih => exact ⟨fun hm => ne_of_mem_names h.1 hm rfl, ih h.2⟩
  | directory m inside rest ihInside ih =>
    exact ⟨fun hm => ne_of_mem_names h.1 hm rfl, ihInside h.2.1, ih h.2.2⟩

theorem mem_names_insertFront (hfront : ∀ f, (front f).names = name :: f.names) :
    n ∈ (insertFront name front f).names ↔ n = name ∨ n ∈ f.names := by
  induction f with
  | nil => simp [insertFront, hfront]
  | file m content rest ih =>
    rw [insertFront]
    split
    · rw [hfront, List.mem_cons]
    · simp only [names, List.mem_cons, ih]
      tauto
  | directory m inside rest _ ih =>
    rw [insertFront]
    split
    · rw [hfront, List.mem_cons]
    · simp only [names, List.mem_cons, ih]
      tauto

/-- A name that is not before another, and is not the other, is behind it. -/
theorem lt_of_not_lt {m : Name} (hne : name ≠ m) (h : ¬ compare name m = .lt) :
    compare m name = .lt := by
  cases hcompare : compare name m with
  | lt => exact absurd hcompare h
  | eq => exact absurd (Std.LawfulEqCmp.eq_of_compare hcompare) hne
  | gt => exact Std.OrientedCmp.lt_of_gt hcompare

theorem Ordered.insertFront (hnames : ∀ f, (front f).names = name :: f.names)
    (hfront : ∀ f : Forest, (∀ n ∈ f.names, compare name n = .lt) → f.Ordered → (front f).Ordered)
    (hname : name ∉ f.names) (h : f.Ordered) : (insertFront name front f).Ordered := by
  have hbehind : ∀ {m : Name} {rest : Forest}, name ≠ m → ¬ compare name m = .lt →
      (∀ n ∈ rest.names, compare m n = .lt) →
      ∀ n ∈ (Forest.insertFront name front rest).names, compare m n = .lt := by
    intro m rest hne hnot hrest n hn
    rcases (mem_names_insertFront hnames).1 hn with rfl | hn
    · exact lt_of_not_lt hne hnot
    · exact hrest n hn
  induction f with
  | nil => exact hfront nil (by simp [names]) h
  | file m content rest ih =>
    obtain ⟨hne, hrest⟩ := not_or.1 (List.mem_cons.not.1 hname)
    rw [Forest.insertFront]
    split
    · rename_i hlt
      exact hfront _ (lt_of_lt_head hlt h.1) h
    · rename_i hnot
      exact ⟨hbehind hne hnot h.1, ih hrest h.2⟩
  | directory m inside rest _ ih =>
    obtain ⟨hne, hrest⟩ := not_or.1 (List.mem_cons.not.1 hname)
    rw [Forest.insertFront]
    split
    · rename_i hlt
      exact hfront _ (lt_of_lt_head hlt h.1) h
    · rename_i hnot
      exact ⟨hbehind hne hnot h.1, h.2.1, ih hrest h.2.2⟩

theorem get?_insertFront
    (hfront : ∀ f n l, (front f).get? (n :: l) = if name = n then inside l else f.get? (n :: l))
    (hname : name ∉ f.names) :
    (insertFront name front f).get? (n :: l) = if name = n then inside l else f.get? (n :: l) := by
  induction f with
  | nil => exact hfront nil n l
  | file m content rest ih =>
    obtain ⟨hne, hrest⟩ := not_or.1 (List.mem_cons.not.1 hname)
    rw [insertFront]
    split
    · exact hfront _ n l
    · by_cases hm : m = n
      · simp [get?, hm, hm ▸ hne]
      · simp [get?, hm, ih hrest]
  | directory m inside' rest _ ih =>
    obtain ⟨hne, hrest⟩ := not_or.1 (List.mem_cons.not.1 hname)
    rw [insertFront]
    split
    · exact hfront _ n l
    · by_cases hm : m = n
      · simp [get?, hm, hm ▸ hne]
      · simp [get?, hm, ih hrest]

theorem mem_names_inOrder : n ∈ f.inOrder.names ↔ n ∈ f.names := by
  induction f with
  | nil => rfl
  | file m content rest ih =>
    rw [inOrder, mem_names_insertFront fun _ => rfl, ih, names, List.mem_cons]
  | directory m inside rest _ ih =>
    rw [inOrder, mem_names_insertFront fun _ => rfl, ih, names, List.mem_cons]

theorem Distinct.ordered_inOrder (h : f.Distinct) : f.inOrder.Ordered := by
  induction f with
  | nil => exact trivial
  | file m content rest ih =>
    exact (ih h.2).insertFront (fun _ => rfl) (fun _ hbefore hrest => ⟨hbefore, hrest⟩)
      (mem_names_inOrder.not.2 h.1)
  | directory m inside rest ihInside ih =>
    exact (ih h.2.2).insertFront (fun _ => rfl)
      (fun _ hbefore hrest => ⟨hbefore, ihInside h.2.1, hrest⟩) (mem_names_inOrder.not.2 h.1)

/-- Sorting changes nothing about what stands where. -/
theorem Distinct.get?_inOrder (h : f.Distinct) : f.inOrder.get? l = f.get? l := by
  induction f generalizing l with
  | nil => rfl
  | file m content rest ih =>
    cases l with
    | nil => simp
    | cons n l =>
      rw [inOrder, get?_insertFront (fun _ _ _ => rfl) (mem_names_inOrder.not.2 h.1), ih h.2, get?]
  | directory m inside rest ihInside ih =>
    cases l with
    | nil => simp
    | cons n l =>
      rw [inOrder, get?_insertFront (fun _ _ _ => rfl) (mem_names_inOrder.not.2 h.1), ih h.2.2,
        get?, ihInside h.2.1]

end Forest

namespace FileTree

variable {t : FileTree} {listed : Forest}

/-- Whether a forest lists what is in a tree, each directory in some order. -/
structure Lists (t : FileTree) (listed : Forest) : Prop where
  distinct : listed.Distinct
  same : ∀ l, listed.get? l = t.get? l

/-- **The order in which directories are listed does not matter**: sorting each of them gives the
tree. -/
theorem Lists.inOrder_eq (h : t.Lists listed) : listed.inOrder = t.top := by
  apply Forest.eq_of_get? h.distinct.ordered_inOrder t.ordered
  intro l
  rw [h.distinct.get?_inOrder, h.same, get?]

theorem lists_iff : t.Lists listed ↔ listed.Distinct ∧ listed.inOrder = t.top := by
  constructor
  · intro h
    exact ⟨h.distinct, h.inOrder_eq⟩
  · rintro ⟨hdistinct, hsorted⟩
    refine ⟨hdistinct, fun l => ?_⟩
    rw [← hdistinct.get?_inOrder, hsorted, get?]

theorem lists_top (t : FileTree) : t.Lists t.top :=
  ⟨t.ordered.distinct, fun _ => rfl⟩

end FileTree

end Atelier

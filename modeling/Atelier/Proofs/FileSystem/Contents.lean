import Atelier.FileSystem.Tree
import Atelier.Proofs.Order.Increasing

/-!
# Trees with the same contents

A file tree is what stands at its locations and nothing more: two trees in which the same stands at
every location are one tree (`FileTree.eq_of_get?`). A forest can be told apart from another only
by the order of the items in a directory, and a tree keeps that order fixed.
-/

namespace Atelier

namespace Forest

variable {f g : Forest} {m n : Name} {l : Location}

theorem mem_names_iff : n ∈ f.names ↔ f.get? [n] ≠ none := by
  induction f with
  | nil => simp [names, get?]
  | file m content rest ih =>
    by_cases hm : m = n
    · simp [names, get?, hm]
    · simp [names, get?, hm, Ne.symm hm, ih]
  | directory m inside rest _ ih =>
    by_cases hm : m = n
    · simp [names, get?, hm]
    · simp [names, get?, hm, Ne.symm hm, ih]

theorem Ordered.increasing_names (h : f.Ordered) : Increasing compare id f.names := by
  induction f with
  | nil => exact .nil
  | file m content rest ih => exact .cons h.1 (ih h.2)
  | directory m inside rest _ ih => exact .cons h.1 (ih h.2.2)

/-- Where the same names stand, they stand in the same order. -/
theorem names_eq (hf : f.Ordered) (hg : g.Ordered) (h : ∀ l, f.get? l = g.get? l) :
    f.names = g.names := by
  apply hf.increasing_names.eq_of_mem_iff hg.increasing_names
  intro n
  rw [mem_names_iff, mem_names_iff, h]

/-- What is behind the first item of a directory is told by the locations that do not start with
the name of the item. -/
theorem get?_eq_of_rest (hf : ∀ n ∈ f.names, compare m n = .lt)
    (hg : ∀ n ∈ g.names, compare m n = .lt)
    (h : ∀ n l, m ≠ n → f.get? (n :: l) = g.get? (n :: l)) (l : Location) :
    f.get? l = g.get? l := by
  cases l with
  | nil => rw [get?_nil, get?_nil]
  | cons n l =>
    by_cases hn : m = n
    · subst hn
      have hself : compare m m ≠ .lt := by simp [Std.ReflCmp.compare_self]
      rw [get?_eq_none fun hm => hself (hf m hm), get?_eq_none fun hm => hself (hg m hm)]
    · exact h n l hn

/-- **Ordered forests with the same contents are equal.** -/
theorem eq_of_get? (hf : f.Ordered) (hg : g.Ordered) (h : ∀ l, f.get? l = g.get? l) : f = g := by
  have hnames := names_eq hf hg h
  induction f generalizing g with
  | nil =>
    cases g with
    | nil => rfl
    | file m content rest => cases hnames
    | directory m inside rest => cases hnames
  | file m content rest ih =>
    cases g with
    | nil => cases hnames
    | directory m' inside rest' =>
      obtain ⟨rfl, -⟩ := List.cons.inj hnames
      simpa [get?] using h [m]
    | file m' content' rest' =>
      obtain ⟨rfl, hrest⟩ := List.cons.inj hnames
      have hcontent : content = content' := by simpa [get?] using h [m]
      have hbehind : ∀ l, rest.get? l = rest'.get? l := by
        apply get?_eq_of_rest hf.1 hg.1
        intro n l hn
        simpa [get?, hn] using h (n :: l)
      rw [hcontent, ih hf.2 hg.2 hbehind hrest]
  | directory m inside rest ihInside ih =>
    cases g with
    | nil => cases hnames
    | file m' content rest' =>
      obtain ⟨rfl, -⟩ := List.cons.inj hnames
      simpa [get?] using h [m]
    | directory m' inside' rest' =>
      obtain ⟨rfl, hrest⟩ := List.cons.inj hnames
      have hinside : ∀ l, inside.get? l = inside'.get? l := by
        intro l
        simpa [get?] using h (m :: l)
      have hbehind : ∀ l, rest.get? l = rest'.get? l := by
        apply get?_eq_of_rest hf.1 hg.1
        intro n l hn
        simpa [get?, hn] using h (n :: l)
      rw [ihInside hf.2.1 hg.2.1 hinside (names_eq hf.2.1 hg.2.1 hinside),
        ih hf.2.2 hg.2.2 hbehind hrest]

end Forest

/-- **Trees with the same contents are equal.** -/
theorem FileTree.eq_of_get? {t t' : FileTree} (h : ∀ l, t.get? l = t'.get? l) : t = t' := by
  obtain ⟨f, hf⟩ := t
  obtain ⟨g, hg⟩ := t'
  obtain rfl : f = g := Forest.eq_of_get? hf hg h
  rfl

end Atelier

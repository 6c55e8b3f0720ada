import Mathlib.Data.List.Sort
import Mathlib.Order.Defs.Unbundled

/-!
# Increasing lists

A list whose keys are strictly increasing is determined by its members. So there is one way to bring
things with different keys into order, in whatever order they are listed at first.
-/

namespace Atelier

variable {α κ : Type} {cmp : κ → κ → Ordering} {key : α → κ} {items items' : List α}

/-- Whether the keys of a list are strictly increasing. -/
abbrev Increasing (cmp : κ → κ → Ordering) (key : α → κ) (items : List α) : Prop :=
  items.Pairwise fun a b => cmp (key a) (key b) = .lt

namespace Increasing

variable [Std.TransCmp cmp]

/-- **An increasing list is determined by its members.** -/
theorem eq_of_mem_iff (h : Increasing cmp key items) (h' : Increasing cmp key items')
    (hmem : ∀ a, a ∈ items ↔ a ∈ items') : items = items' := by
  have hirrefl : Std.Irrefl fun a b : α => cmp (key a) (key b) = .lt :=
    ⟨fun a hlt => by simp [Std.ReflCmp.compare_self] at hlt⟩
  have hantisymm : Std.Antisymm fun a b : α => cmp (key a) (key b) = .lt :=
    ⟨fun a b hlt hgt => by simp [Std.OrientedCmp.gt_of_lt hlt] at hgt⟩
  exact List.Pairwise.eq_of_mem_iff h h' hmem

/-- No key stands twice in an increasing list. -/
theorem nodup_map (h : Increasing cmp key items) : (items.map key).Nodup := by
  rw [List.Nodup, List.pairwise_map]
  apply h.imp
  intro a b hlt heq
  simp [heq, Std.ReflCmp.compare_self] at hlt

/-- Things with different keys are brought into order by sorting them. -/
theorem mergeSort [Std.LawfulEqCmp cmp] (h : (items.map key).Nodup) :
    Increasing cmp key (items.mergeSort fun a b => (cmp (key a) (key b)).isLE) := by
  have hperm := items.mergeSort_perm fun a b => (cmp (key a) (key b)).isLE
  have htotal : ∀ a b, ((cmp (key a) (key b)).isLE || (cmp (key b) (key a)).isLE) = true := by
    intro a b
    have hswap : cmp (key b) (key a) = (cmp (key a) (key b)).swap := Std.OrientedCmp.eq_swap
    rw [hswap]
    cases cmp (key a) (key b) <;> rfl
  have hle := List.pairwise_mergeSort (fun a b c => Std.TransCmp.isLE_trans) htotal items
  have hne := List.pairwise_map.1 ((hperm.map key).nodup_iff.2 h)
  apply (hle.and hne).imp
  rintro a b ⟨hab, hdiffer⟩
  cases hcmp : cmp (key a) (key b) with
  | lt => rfl
  | eq => exact absurd (Std.LawfulEqCmp.eq_of_compare hcmp) hdiffer
  | gt => simp [hcmp] at hab

end Increasing

end Atelier

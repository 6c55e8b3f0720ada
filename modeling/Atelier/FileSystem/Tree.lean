import Atelier.FileSystem.Name

/-!
# File trees

What a directory holds is a `Forest`: files and directories side by side, in the order of their
names, with a forest inside each directory. A file tree is what its root directory holds.

* `get?` is the view of a tree: what stands at a location.
* `put` adds a directory or file, or replaces a file.
* `entries` lists a tree: each directory right before what it holds, so in the order of locations.
* `below` lists what a directory holds at every depth.
* `inOrder` sorts a forest that lists its directories in some other order.
-/

namespace Atelier

/-- What stands at a location. -/
inductive Item where
  | directory
  | file (content : ByteArray)

instance : DecidableEq Item
  | .directory, .directory => isTrue rfl
  | .directory, .file _ => isFalse nofun
  | .file _, .directory => isFalse nofun
  | .file x, .file y =>
    match ByteArray.instDecidableEq x y with
    | isTrue h => isTrue (congrArg Item.file h)
    | isFalse h => isFalse fun e => h (Item.file.inj e)

abbrev Listing := List (Location × Item)

/-- What a directory holds. -/
inductive Forest where
  | nil
  | file (name : Name) (content : ByteArray) (rest : Forest)
  | directory (name : Name) (inside rest : Forest)

namespace Forest

/-! ## Looking -/

def names : Forest → List Name
  | nil => []
  | file m _ rest => m :: rest.names
  | directory m _ rest => m :: rest.names

/-- What stands at a location, seen from a directory; the directory itself stands at no names. -/
def get? : Forest → Location → Option Item
  | _, [] => some .directory
  | nil, _ :: _ => none
  | file m content rest, n :: l =>
    if m = n then if l = [] then some (.file content) else none else rest.get? (n :: l)
  | directory m inside rest, n :: l => if m = n then inside.get? l else rest.get? (n :: l)

/-- An entry of a directory, seen from the directory above. -/
def inDirectory (m : Name) (e : Location × Item) : Location × Item :=
  (m :: e.1, e.2)

/-- Everything in a directory, each directory before what it holds. -/
def entries : Forest → Listing
  | nil => []
  | file m content rest => ([m], .file content) :: rest.entries
  | directory m inside rest =>
    ([m], .directory) :: (inside.entries.map (inDirectory m) ++ rest.entries)

/-- The entries at a location and below it. -/
def entriesBelow (f : Forest) (l : Location) : Listing :=
  f.entries.filter fun e => l.isPrefixOf e.1

/-! ## Changing -/

def cons (name : Name) (item : Item) (rest : Forest) : Forest :=
  match item with
  | .directory => directory name nil rest
  | .file content => file name content rest

/-- Puts an item into a directory, in place of a file that has the name. A directory that has the
name stays as it is. -/
def insert (name : Name) (item : Item) : Forest → Forest
  | nil => cons name item nil
  | file m content rest =>
    match compare name m with
    | .lt => cons name item (file m content rest)
    | .eq => cons name item rest
    | .gt => file m content (insert name item rest)
  | directory m inside rest =>
    match compare name m with
    | .lt => cons name item (directory m inside rest)
    | .eq => directory m inside rest
    | .gt => directory m inside (insert name item rest)

/-- Puts an item into the directory at a location. Nothing changes where there is none. -/
def put (name : Name) (item : Item) : Forest → Location → Forest
  | f, [] => f.insert name item
  | nil, _ :: _ => nil
  | file m content rest, n :: parent => file m content (put name item rest (n :: parent))
  | directory m inside rest, n :: parent =>
    if m = n then directory m (put name item inside parent) rest
    else directory m inside (put name item rest (n :: parent))

/-! ## Sorting -/

/-- Puts something with a name in front of the first name that is greater. -/
def insertFront (name : Name) (front : Forest → Forest) : Forest → Forest
  | nil => front nil
  | file m content rest =>
    if compare name m = .lt then front (file m content rest)
    else file m content (insertFront name front rest)
  | directory m inside rest =>
    if compare name m = .lt then front (directory m inside rest)
    else directory m inside (insertFront name front rest)

/-- A forest with each directory sorted by name. -/
def inOrder : Forest → Forest
  | nil => nil
  | file m content rest => insertFront m (file m content) rest.inOrder
  | directory m inside rest => insertFront m (directory m inside.inOrder) rest.inOrder

/-! ## Order -/

/-- Whether the names in a directory, and in all directories inside it, are strictly increasing. -/
def Ordered : Forest → Prop
  | nil => True
  | file m _ rest => (∀ n ∈ rest.names, compare m n = .lt) ∧ rest.Ordered
  | directory m inside rest =>
    (∀ n ∈ rest.names, compare m n = .lt) ∧ inside.Ordered ∧ rest.Ordered

@[simp] theorem names_cons (name : Name) (item : Item) (rest : Forest) :
    (cons name item rest).names = name :: rest.names := by
  cases item <;> rfl

theorem ordered_cons {name : Name} {item : Item} {rest : Forest} :
    (cons name item rest).Ordered ↔ (∀ n ∈ rest.names, compare name n = .lt) ∧ rest.Ordered := by
  cases item <;> simp [cons, Ordered]

/-- A name before the first of a directory is before all of them. -/
theorem lt_of_lt_head {name m : Name} {ms : List Name} (h : compare name m = .lt)
    (hms : ∀ n ∈ ms, compare m n = .lt) : ∀ n ∈ m :: ms, compare name n = .lt := by
  intro n hn
  rcases List.mem_cons.1 hn with rfl | hn
  · exact h
  · exact Std.TransCmp.lt_trans h (hms n hn)

theorem mem_names_insert {name n : Name} {item : Item} {f : Forest}
    (h : n ∈ (insert name item f).names) : n = name ∨ n ∈ f.names := by
  induction f with
  | nil => simpa [insert, names] using h
  | file m content rest ih =>
    unfold insert at h
    split at h
    · simpa [names] using h
    · exact (List.mem_cons.1 (by simpa using h)).imp_right (List.mem_cons_of_mem _)
    · rcases List.mem_cons.1 h with h | h
      · exact .inr (h ▸ List.mem_cons_self)
      · exact (ih h).imp_right (List.mem_cons_of_mem _)
  | directory m inside rest _ ih =>
    unfold insert at h
    split at h
    · simpa [names] using h
    · exact .inr h
    · rcases List.mem_cons.1 h with h | h
      · exact .inr (h ▸ List.mem_cons_self)
      · exact (ih h).imp_right (List.mem_cons_of_mem _)

theorem Ordered.insert {name : Name} {item : Item} {f : Forest} (h : f.Ordered) :
    (insert name item f).Ordered := by
  induction f with
  | nil => exact ordered_cons.2 ⟨by simp [names], trivial⟩
  | file m content rest ih =>
    unfold Forest.insert
    split
    · rename_i hlt
      exact ordered_cons.2 ⟨lt_of_lt_head hlt h.1, h⟩
    · rename_i heq
      obtain rfl := Std.LawfulEqCmp.eq_of_compare heq
      exact ordered_cons.2 h
    · rename_i hgt
      refine ⟨fun n hn => ?_, ih h.2⟩
      rcases mem_names_insert hn with rfl | hn
      · exact Std.OrientedCmp.lt_of_gt hgt
      · exact h.1 n hn
  | directory m inside rest _ ih =>
    unfold Forest.insert
    split
    · rename_i hlt
      exact ordered_cons.2 ⟨lt_of_lt_head hlt h.1, h⟩
    · exact h
    · rename_i hgt
      refine ⟨fun n hn => ?_, h.2.1, ih h.2.2⟩
      rcases mem_names_insert hn with rfl | hn
      · exact Std.OrientedCmp.lt_of_gt hgt
      · exact h.1 n hn

@[simp] theorem names_put {name n : Name} {item : Item} {f : Forest} {parent : Location} :
    (put name item f (n :: parent)).names = f.names := by
  induction f with
  | nil => rfl
  | file m content rest ih => simp [put, names, ih]
  | directory m inside rest _ ih =>
    unfold put
    split <;> simp [names, ih]

theorem Ordered.put {name : Name} {item : Item} {f : Forest} {parent : Location}
    (h : f.Ordered) : (put name item f parent).Ordered := by
  induction f generalizing parent with
  | nil =>
    cases parent with
    | nil => simpa [Forest.put] using h.insert
    | cons n parent => exact h
  | file m content rest ih =>
    cases parent with
    | nil => simpa [Forest.put] using h.insert
    | cons n parent => exact ⟨by simpa using h.1, ih h.2⟩
  | directory m inside rest ihInside ih =>
    cases parent with
    | nil => simpa [Forest.put] using h.insert
    | cons n parent =>
      unfold Forest.put
      split
      · exact ⟨h.1, ihInside h.2.1, h.2.2⟩
      · exact ⟨by simpa using h.1, h.2.1, ih h.2.2⟩

/-! ## Listing -/

/-- A listed location starts with a name in the directory. -/
theorem exists_head_of_mem_entries {f : Forest} {e : Location × Item} (h : e ∈ f.entries) :
    ∃ n ∈ f.names, ∃ l, e.1 = n :: l := by
  induction f with
  | nil => simp [entries] at h
  | file m content rest ih =>
    rcases List.mem_cons.1 h with rfl | h
    · exact ⟨m, List.mem_cons_self, [], rfl⟩
    · obtain ⟨n, hn, l, hl⟩ := ih h
      exact ⟨n, List.mem_cons_of_mem _ hn, l, hl⟩
  | directory m inside rest _ ih =>
    rcases List.mem_cons.1 h with rfl | h
    · exact ⟨m, List.mem_cons_self, [], rfl⟩
    · rcases List.mem_append.1 h with h | h
      · obtain ⟨a, -, rfl⟩ := List.mem_map.1 h
        exact ⟨m, List.mem_cons_self, a.1, rfl⟩
      · obtain ⟨n, hn, l, hl⟩ := ih h
        exact ⟨n, List.mem_cons_of_mem _ hn, l, hl⟩

/-- A name that comes before all others is not among them. -/
theorem ne_of_mem_names {m n : Name} {f : Forest} (h : ∀ n ∈ f.names, compare m n = .lt)
    (hn : n ∈ f.names) : m ≠ n := by
  rintro rfl
  have hlt := h m hn
  have hself : compare m m = .eq := Std.ReflCmp.compare_self
  simp_all

/-- Nothing is listed at a location that starts with no name of the directory. -/
theorem not_mem_entries {m : Name} {f : Forest} (h : ∀ n ∈ f.names, compare m n = .lt)
    (l : Location) (item : Item) : (m :: l, item) ∉ f.entries := by
  intro hmem
  obtain ⟨n, hn, _, hl⟩ := exists_head_of_mem_entries hmem
  exact ne_of_mem_names h hn (List.cons.inj hl).1

/-- What is listed at a location is what stands there. -/
theorem mem_entries_iff {f : Forest} (h : f.Ordered) {l : Location} {item : Item} (hl : l ≠ []) :
    (l, item) ∈ f.entries ↔ f.get? l = some item := by
  induction f generalizing l with
  | nil =>
    obtain ⟨n, l, rfl⟩ := List.exists_cons_of_ne_nil hl
    simp [entries, get?]
  | file m content rest ih =>
    obtain ⟨n, l, rfl⟩ := List.exists_cons_of_ne_nil hl
    by_cases hm : m = n
    · subst hm
      have absent := not_mem_entries h.1 l item
      by_cases hl' : l = []
      · subst hl'
        simp [entries, get?, absent, eq_comm]
      · simp [entries, get?, absent, hl']
    · have apart : ¬ n = m := fun e => hm e.symm
      simp [entries, get?, hm, apart, ih h.2]
  | directory m inside rest ihInside ih =>
    obtain ⟨n, l, rfl⟩ := List.exists_cons_of_ne_nil hl
    have hinside : (n :: l, item) ∈ inside.entries.map (inDirectory m) ↔
        n = m ∧ (l, item) ∈ inside.entries := by
      simp [inDirectory, Prod.ext_iff, and_comm, eq_comm, and_assoc]
    by_cases hm : m = n
    · subst hm
      have absent := not_mem_entries h.1 l item
      by_cases hl' : l = []
      · subst hl'
        have hroot : ([], item) ∉ inside.entries := by
          intro hmem
          obtain ⟨_, _, _, hnil⟩ := exists_head_of_mem_entries hmem
          simp at hnil
        simp [entries, get?, absent, hroot, hinside, eq_comm]
      · simp [entries, get?, absent, hinside, hl', ihInside h.2.1 hl']
    · have apart : ¬ n = m := fun e => hm e.symm
      simp [entries, get?, hm, apart, hinside, ih h.2.2]

/-- Locations with different first names are in the order of these. -/
theorem compare_of_head {m n : Name} {k l : Location} (h : compare m n = .lt) :
    compare (m :: k) (n :: l) = .lt := by
  show List.compareLex compare (m :: k) (n :: l) = .lt
  simp [List.compareLex_cons_cons, h]

/-- Locations with the same first name are in the order of what follows it. -/
theorem compare_of_tail {m : Name} {k l : Location} (h : compare k l = .lt) :
    compare (m :: k) (m :: l) = .lt := by
  show List.compareLex compare (m :: k) (m :: l) = .lt
  have hself : compare m m = .eq := Std.ReflCmp.compare_self
  simp only [List.compareLex_cons_cons, hself]
  exact h

/-- Entries are listed in the order of their locations. -/
theorem pairwise_entries {f : Forest} (h : f.Ordered) :
    f.entries.Pairwise fun a b => compare a.1 b.1 = .lt := by
  induction f with
  | nil => exact .nil
  | file m content rest ih =>
    refine List.pairwise_cons.2 ⟨fun e he => ?_, ih h.2⟩
    obtain ⟨n, hn, l, hl⟩ := exists_head_of_mem_entries he
    rw [hl]
    exact compare_of_head (h.1 n hn)
  | directory m inside rest ihInside ih =>
    have later : ∀ k : Location, ∀ e ∈ rest.entries, compare (m :: k) e.1 = .lt := by
      intro k e he
      obtain ⟨n, hn, l, hl⟩ := exists_head_of_mem_entries he
      rw [hl]
      exact compare_of_head (h.1 n hn)
    refine List.pairwise_cons.2 ⟨fun e he => ?_, List.pairwise_append.2 ⟨?_, ih h.2.2, ?_⟩⟩
    · rcases List.mem_append.1 he with he | he
      · obtain ⟨a, ha, rfl⟩ := List.mem_map.1 he
        obtain ⟨n, -, l, hl⟩ := exists_head_of_mem_entries ha
        refine compare_of_tail ?_
        rw [hl]
        rfl
      · exact later [] e he
    · exact List.pairwise_map.2 ((ihInside h.2.1).imp compare_of_tail)
    · intro a ha e he
      obtain ⟨a, -, rfl⟩ := List.mem_map.1 ha
      exact later a.1 e he

/-! ## Looking after a change -/

/-- Nothing stands at a location that starts with no name of the directory. -/
theorem get?_eq_none {n : Name} {l : Location} {f : Forest} (h : n ∉ f.names) :
    f.get? (n :: l) = none := by
  induction f with
  | nil => rfl
  | file m content rest ih =>
    have hm : m ≠ n := fun e => h (e ▸ List.mem_cons_self)
    simp [get?, hm, ih fun hn => h (List.mem_cons_of_mem _ hn)]
  | directory m inside rest _ ih =>
    have hm : m ≠ n := fun e => h (e ▸ List.mem_cons_self)
    simp [get?, hm, ih fun hn => h (List.mem_cons_of_mem _ hn)]

/-- An item in front of others hides nothing that has another name. -/
theorem get?_cons {name n : Name} {l : Location} {item : Item} {f : Forest} :
    (cons name item f).get? (n :: l) =
      if name = n then if l = [] then some item else none else f.get? (n :: l) := by
  cases item with
  | file content => rfl
  | directory => cases l <;> simp [cons, get?]

/-- After a change in a directory another item stands at the one name, unless a directory does. -/
theorem get?_insert {name n : Name} {l : Location} {item : Item} {f : Forest} (h : f.Ordered) :
    (insert name item f).get? (n :: l) =
      if name = n ∧ l = [] ∧ f.get? [name] ≠ some .directory then some item
      else f.get? (n :: l) := by
  induction f with
  | nil =>
    simp only [insert, get?_cons]
    by_cases hn : name = n <;> by_cases hl : l = [] <;> simp [hn, hl, get?]
  | file m content rest ih =>
    unfold insert
    split
    · rename_i hlt
      have apart : ∀ k ∈ (file m content rest).names, compare name k = .lt :=
        lt_of_lt_head hlt h.1
      have absent : name ∉ (file m content rest).names := fun hk => ne_of_mem_names apart hk rfl
      rw [get?_cons, get?_eq_none absent]
      by_cases hn : name = n
      · subst hn
        by_cases hl : l = [] <;> simp [hl, get?_eq_none absent]
      · simp [hn]
    · rename_i heq
      obtain rfl := Std.LawfulEqCmp.eq_of_compare heq
      rw [get?_cons]
      by_cases hn : name = n <;> by_cases hl : l = [] <;> simp [hn, hl, get?]
    · rename_i hgt
      have hm : m ≠ name := by
        rintro rfl
        have hself : compare m m = .eq := Std.ReflCmp.compare_self
        simp_all
      by_cases hn : m = n
      · subst hn
        simp [get?, hm.symm]
      · simp [get?, hn, hm, ih h.2]
  | directory m inside rest _ ih =>
    unfold insert
    split
    · rename_i hlt
      have apart : ∀ k ∈ (directory m inside rest).names, compare name k = .lt :=
        lt_of_lt_head hlt h.1
      have absent : name ∉ (directory m inside rest).names := fun hk => ne_of_mem_names apart hk rfl
      rw [get?_cons, get?_eq_none absent]
      by_cases hn : name = n
      · subst hn
        by_cases hl : l = [] <;> simp [hl, get?_eq_none absent]
      · simp [hn]
    · rename_i heq
      obtain rfl := Std.LawfulEqCmp.eq_of_compare heq
      simp [get?]
    · rename_i hgt
      have hm : m ≠ name := by
        rintro rfl
        have hself : compare m m = .eq := Std.ReflCmp.compare_self
        simp_all
      by_cases hn : m = n
      · subst hn
        simp [get?, hm.symm]
      · simp [get?, hn, hm, ih h.2.2]

/-- Whether an item may be put under a name in a directory: the directory is there, and the name
does not stand for a directory yet. -/
def Accepts (f : Forest) (parent : Location) (name : Name) : Prop :=
  f.get? parent = some .directory ∧ f.get? (parent ++ [name]) ≠ some .directory

instance (f : Forest) (parent : Location) (name : Name) : Decidable (f.Accepts parent name) :=
  inferInstanceAs (Decidable (_ ∧ _))

theorem put_nil {name : Name} {item : Item} {f : Forest} :
    put name item f [] = insert name item f := by
  cases f <;> rfl

@[simp] theorem get?_nil {f : Forest} : f.get? [] = some .directory := by
  cases f <;> rfl

theorem accepts_nil {f : Forest} {name : Name} :
    f.Accepts [] name ↔ f.get? [name] ≠ some .directory := by
  simp [Accepts]

/-- After a change another item stands at the one location, if it was accepted there. -/
theorem get?_put {name : Name} {item : Item} {f : Forest} {parent l : Location} (h : f.Ordered) :
    (put name item f parent).get? l =
      if l = parent ++ [name] ∧ f.Accepts parent name then some item else f.get? l := by
  induction f generalizing parent l with
  | nil =>
    match l, parent with
    | [], _ => simp
    | n :: l, [] =>
      rw [put_nil, get?_insert h]
      by_cases hn : name = n <;> by_cases hl : l = [] <;> simp [accepts_nil, hn, hl, eq_comm]
    | n :: l, k :: parent => simp [put, get?, Accepts]
  | file m content rest ih =>
    match l, parent with
    | [], _ => simp
    | n :: l, [] =>
      rw [put_nil, get?_insert h]
      by_cases hn : name = n <;> by_cases hl : l = [] <;> simp [accepts_nil, hn, hl, eq_comm]
    | n :: l, k :: parent =>
      by_cases hk : n = k
      · subst hk
        by_cases hm : m = n
        · subst hm
          have refused : ¬ (file m content rest).Accepts (m :: parent) name := by
            rintro ⟨hd, -⟩
            by_cases hp : parent = [] <;> simp [get?, hp] at hd
          simp [put, get?, refused]
        · simp [put, get?, hm, ih h.2, Accepts]
      · by_cases hm : m = n <;> simp [put, get?, hm, ih h.2, hk]
  | directory m inside rest ihInside ih =>
    match l, parent with
    | [], _ => simp
    | n :: l, [] =>
      rw [put_nil, get?_insert h]
      by_cases hn : name = n <;> by_cases hl : l = [] <;> simp [accepts_nil, hn, hl, eq_comm]
    | n :: l, k :: parent =>
      by_cases hk : n = k
      · subst hk
        by_cases hm : m = n
        · subst hm
          have below : (directory m inside rest).Accepts (m :: parent) name ↔
              inside.Accepts parent name := by simp [Accepts, get?]
          simp [put, get?, ihInside h.2.1, below]
        · simp [put, get?, hm, ih h.2.2, Accepts]
      · by_cases hm : m = k
        · subst hm
          simp [put, get?, Ne.symm hk, hk]
        · by_cases hn : m = n <;> simp [put, get?, hm, hn, ih h.2.2, hk]

end Forest

/-! ## Trees -/

/-- A file tree: what its root directory holds, in order. -/
structure FileTree where
  top : Forest
  ordered : top.Ordered

namespace FileTree

def empty : FileTree :=
  ⟨.nil, trivial⟩

/-- What stands at a location. -/
def get? (t : FileTree) (l : Location) : Option Item :=
  t.top.get? l

@[simp] theorem get?_root (t : FileTree) : t.get? [] = some .directory := by
  unfold get? Forest.get?
  rfl

/-- Everything in a tree, each directory before what it holds. -/
def entries (t : FileTree) : Listing :=
  t.top.entries

/-- What a tree lists at a location is what stands there. -/
theorem get?_eq_some_iff {t : FileTree} {l : Location} {item : Item} (hl : l ≠ []) :
    t.get? l = some item ↔ (l, item) ∈ t.entries :=
  (Forest.mem_entries_iff t.ordered hl).symm

/-- Puts an item under a name in a directory, in place of a file that has the name. Nothing changes
where there is no such directory, or where the name stands for a directory already. -/
def put (t : FileTree) (parent : Location) (name : Name) (item : Item) : FileTree :=
  ⟨t.top.put name item parent, t.ordered.put⟩

/-- Whether an item may be put under a name in a directory. -/
def Accepts (t : FileTree) (parent : Location) (name : Name) : Prop :=
  t.top.Accepts parent name

instance (t : FileTree) (parent : Location) (name : Name) : Decidable (t.Accepts parent name) :=
  inferInstanceAs (Decidable (t.top.Accepts parent name))

/-- After a change another item stands at the one location, if it was accepted there. -/
theorem get?_put {t : FileTree} {parent l : Location} {name : Name} {item : Item} :
    (t.put parent name item).get? l =
      if l = parent ++ [name] ∧ t.Accepts parent name then some item else t.get? l :=
  Forest.get?_put t.ordered

/-- The entries of a tree at a location and below it. -/
def below (t : FileTree) (l : Location) : Listing :=
  t.top.entriesBelow l

end FileTree

end Atelier

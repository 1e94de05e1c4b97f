/-! # Sets of plan nodes

    Plan nodes are numbered in the order in which they are made. A set of them
    is an ascending list without repetition, so two sets with the same members
    are equal.
-/

namespace PushDown

/-- The number of a plan node. -/
abbrev NodeId := Nat

/-- The node as it is written in plans: `#3`. -/
def NodeId.text (id : NodeId) : String :=
  "#" ++ toString id

/-- A finite set of plan nodes. -/
structure NodeSet where
  ids    : List NodeId
  sorted : ids.Pairwise (· < ·)
  deriving DecidableEq

namespace NodeSet

/-! ## §1. Insertion into an ascending list -/

/-- Puts `id` in its place, once. -/
def insertInto (id : NodeId) : List NodeId → List NodeId
  | [] => [id]
  | x :: xs =>
    if id < x then id :: x :: xs
    else if id = x then x :: xs
    else x :: insertInto id xs

@[simp] theorem mem_insertInto {a id : NodeId} {xs : List NodeId} :
    a ∈ insertInto id xs ↔ a = id ∨ a ∈ xs := by
  induction xs with
  | nil => simp [insertInto]
  | cons x xs ih =>
    unfold insertInto
    split
    · simp
    · split
      · next h => subst h; simp
      · simp only [List.mem_cons, ih]
        constructor
        · rintro (h | h | h) <;> simp [h]
        · rintro (h | h | h) <;> simp [h]

theorem sorted_insertInto {id : NodeId} {xs : List NodeId} (h : xs.Pairwise (· < ·)) :
    (insertInto id xs).Pairwise (· < ·) := by
  induction xs with
  | nil => simp [insertInto]
  | cons x xs ih =>
    rw [List.pairwise_cons] at h
    unfold insertInto
    split
    · next hlt =>
      refine List.pairwise_cons.mpr ⟨?_, List.pairwise_cons.mpr h⟩
      intro y hy
      rcases List.mem_cons.mp hy with rfl | hy
      · exact hlt
      · exact Nat.lt_trans hlt (h.1 y hy)
    · split
      · exact List.pairwise_cons.mpr h
      · next hlt hne =>
        refine List.pairwise_cons.mpr ⟨?_, ih h.2⟩
        intro y hy
        rcases mem_insertInto.mp hy with rfl | hy
        · exact Nat.lt_of_le_of_ne (Nat.le_of_not_lt hlt) (Ne.symm hne)
        · exact h.1 y hy

/-- Ascending lists with the same members are equal. -/
theorem eq_of_mem_iff {xs ys : List NodeId} (hx : xs.Pairwise (· < ·)) (hy : ys.Pairwise (· < ·))
    (h : ∀ id, id ∈ xs ↔ id ∈ ys) : xs = ys := by
  induction xs generalizing ys with
  | nil =>
    exact (List.eq_nil_iff_forall_not_mem.mpr fun id hid => List.not_mem_nil ((h id).mpr hid)).symm
  | cons x xs ih =>
    cases ys with
    | nil => exact absurd ((h x).mp List.mem_cons_self) List.not_mem_nil
    | cons y ys =>
      obtain ⟨hxmin, hxs⟩ := List.pairwise_cons.mp hx
      obtain ⟨hymin, hys⟩ := List.pairwise_cons.mp hy
      -- the least members agree
      have hxy : x = y := by
        rcases List.mem_cons.mp ((h x).mp List.mem_cons_self) with hx | hx
        · exact hx
        · rcases List.mem_cons.mp ((h y).mpr List.mem_cons_self) with hy | hy
          · exact hy.symm
          · exact absurd (Nat.lt_trans (hxmin y hy) (hymin x hx)) (Nat.lt_irrefl x)
      subst hxy
      rw [ih hxs hys]
      intro id
      constructor
      · intro hid
        rcases List.mem_cons.mp ((h id).mp (List.mem_cons_of_mem _ hid)) with rfl | hid'
        · exact absurd (hxmin id hid) (Nat.lt_irrefl id)
        · exact hid'
      · intro hid
        rcases List.mem_cons.mp ((h id).mpr (List.mem_cons_of_mem _ hid)) with rfl | hid'
        · exact absurd (hymin id hid) (Nat.lt_irrefl id)
        · exact hid'

/-! ## §2. Operations -/

/-- The set without members. -/
def empty : NodeSet := ⟨[], .nil⟩

instance : EmptyCollection NodeSet := ⟨empty⟩
instance : Inhabited NodeSet := ⟨empty⟩
instance : Membership NodeId NodeSet := ⟨fun s id => id ∈ s.ids⟩

instance (id : NodeId) (s : NodeSet) : Decidable (id ∈ s) :=
  inferInstanceAs (Decidable (id ∈ s.ids))

/-- The set with one more member. -/
def insert (s : NodeSet) (id : NodeId) : NodeSet :=
  ⟨insertInto id s.ids, sorted_insertInto s.sorted⟩

/-- The members of both sets. -/
def union (s t : NodeSet) : NodeSet :=
  t.ids.foldl insert s

instance : Union NodeSet := ⟨union⟩

/-- The set with a single member. -/
def singleton (id : NodeId) : NodeSet :=
  empty.insert id

/-! ## §3. Membership -/

@[simp] theorem mem_ids {id : NodeId} {s : NodeSet} : id ∈ s.ids ↔ id ∈ s := Iff.rfl

@[simp] theorem not_mem_empty {id : NodeId} : ¬ id ∈ (∅ : NodeSet) := List.not_mem_nil

@[simp] theorem mem_insert {a id : NodeId} {s : NodeSet} : a ∈ s.insert id ↔ a = id ∨ a ∈ s :=
  mem_insertInto

@[simp] theorem mem_singleton {a id : NodeId} : a ∈ singleton id ↔ a = id := by
  rw [singleton, mem_insert]
  exact or_iff_left (fun h => not_mem_empty h)

theorem mem_foldl_insert {a : NodeId} {ids : List NodeId} {s : NodeSet} :
    a ∈ ids.foldl insert s ↔ a ∈ s ∨ a ∈ ids := by
  induction ids generalizing s with
  | nil => simp
  | cons id ids ih =>
    rw [List.foldl_cons, ih, mem_insert, List.mem_cons]
    constructor
    · rintro ((h | h) | h) <;> simp [h]
    · rintro (h | h | h) <;> simp [h]

@[simp] theorem mem_union {a : NodeId} {s t : NodeSet} : a ∈ s ∪ t ↔ a ∈ s ∨ a ∈ t :=
  mem_foldl_insert

/-- Sets with the same members are equal. -/
@[ext] theorem ext {s t : NodeSet} (h : ∀ id, id ∈ s ↔ id ∈ t) : s = t := by
  cases s with
  | mk xs hx =>
    cases t with
    | mk ys hy =>
      have : xs = ys := eq_of_mem_iff hx hy h
      subst this
      rfl

/-! ## §4. Few members -/

theorem ids_eq_nil_iff {s : NodeSet} : s.ids = [] ↔ s = ∅ := by
  constructor
  · intro h
    ext id
    rw [← mem_ids, h]
    simp
  · rintro rfl
    rfl

theorem ids_eq_singleton_iff {s : NodeSet} {id : NodeId} : s.ids = [id] ↔ s = singleton id := by
  constructor
  · intro h
    ext a
    rw [← mem_ids, h]
    simp
  · rintro rfl
    rfl

/-- An ascending list that goes on after its first two members has two different ones. -/
theorem exists_ne_of_ids_eq {s : NodeSet} {a b : NodeId} {rest : List NodeId}
    (h : s.ids = a :: b :: rest) : a ∈ s ∧ b ∈ s ∧ a ≠ b := by
  have hsorted := s.sorted
  rw [h, List.pairwise_cons] at hsorted
  refine ⟨?_, ?_, Nat.ne_of_lt (hsorted.1 b List.mem_cons_self)⟩
  · rw [← mem_ids, h]
    exact List.mem_cons_self
  · rw [← mem_ids, h]
    exact List.mem_cons_of_mem a List.mem_cons_self

theorem exists_ids_eq_of_ne {s : NodeSet} {a b : NodeId} (ha : a ∈ s) (hb : b ∈ s) (h : a ≠ b) :
    ∃ x y rest, s.ids = x :: y :: rest := by
  rw [← mem_ids] at ha hb
  match hids : s.ids with
  | [] => rw [hids] at ha; cases ha
  | [x] =>
    rw [hids, List.mem_singleton] at ha hb
    exact absurd (ha.trans hb.symm) h
  | x :: y :: rest => exact ⟨x, y, rest, rfl⟩

end NodeSet

end PushDown

import PushDown.Plan.Ownership

/-! # What a record keeps

    Expressions that a record holds for the same form classes: `same` is an
    equivalence. Recording only ever adds, and only for a class that has no
    entry yet, so the first entry of a class is found ever after
    (`find?_add`).

    What holds of every recorded owner and expression is kept when a pair of
    which it holds is recorded (`All.add`). All entries keep their places
    (`within_add`).
-/

namespace PushDown

/-! ## §1. Sameness -/

namespace Expr

theorem alike_refl (e : Expr) : e.alike e = true := by
  cases e <;> simp [alike]

theorem alike_symm {a b : Expr} (h : a.alike b = true) : b.alike a = true := by
  cases a <;> cases b <;> simp_all [alike]

theorem alike_trans {a b c : Expr} (hab : a.alike b = true) (hbc : b.alike c = true) :
    a.alike c = true := by
  cases a <;> cases b <;> cases c <;> simp_all [alike]

theorem label_eq_of_alike {a b : Expr} (h : a.alike b = true) : a.label = b.label := by
  cases a <;> cases b <;> simp_all [alike]

theorem same_iff {a b : Expr} : a.same b = true ↔ a.hashCode = b.hashCode ∧ a.alike b = true := by
  simp [same]

theorem same_refl (e : Expr) : e.same e = true :=
  same_iff.mpr ⟨rfl, alike_refl e⟩

theorem same_symm {a b : Expr} (h : a.same b = true) : b.same a = true := by
  obtain ⟨hcode, halike⟩ := same_iff.mp h
  exact same_iff.mpr ⟨hcode.symm, alike_symm halike⟩

theorem same_trans {a b c : Expr} (hab : a.same b = true) (hbc : b.same c = true) :
    a.same c = true := by
  obtain ⟨hcode, halike⟩ := same_iff.mp hab
  obtain ⟨hcode', halike'⟩ := same_iff.mp hbc
  exact same_iff.mpr ⟨hcode.trans hcode', alike_trans halike halike'⟩

end Expr

/-! ## §2. Sharing out -/

/-- What is shared out by owner arrives once at each owner that is served, and only there. -/
theorem flatMap_filter_perm {α : Type} (owner : α → NodeId) (xs : List α) {ids : List NodeId}
    (h : ids.Nodup) :
    (ids.flatMap fun id => xs.filter fun x => owner x == id).Perm
      (xs.filter fun x => decide (owner x ∈ ids)) := by
  induction ids with
  | nil => simp
  | cons id ids ih =>
    obtain ⟨hnew, hrest⟩ := List.nodup_cons.mp h
    let served := xs.filter fun x => decide (owner x ∈ id :: ids)
    -- what is served is what the first owner gets, and what the others get
    have hfirst : (served.filter fun x => owner x == id) = xs.filter fun x => owner x == id := by
      rw [List.filter_filter]
      refine List.filter_congr fun x _ => ?_
      by_cases hx : owner x = id <;> simp [hx]
    have hothers : (served.filter fun x => !(owner x == id)) =
        xs.filter fun x => decide (owner x ∈ ids) := by
      rw [List.filter_filter]
      refine List.filter_congr fun x _ => ?_
      by_cases hx : owner x = id
      · simp [hx, hnew]
      · simp [hx]
    have hsplit := List.filter_append_perm (fun x => owner x == id) served
    rw [hfirst, hothers] at hsplit
    rw [List.flatMap_cons]
    exact ((ih hrest).append_left _).trans hsplit

namespace Ownership

/-! ## §3. Search -/

/-- A search finds the first entry of the class of the expression. -/
theorem find?_eq (own : Ownership) (x : Expr) :
    own.find? x = own.index.find? fun r => r.expr.same x := by
  have h : (fun r : Recorded => r.code == x.hashCode && r.expr.alike x) =
      fun r => r.expr.same x := by
    funext r
    rw [Expr.same, r.code_eq]
  rw [← h, find?]

theorem same_of_find? {own : Ownership} {x : Expr} {r : Recorded} (h : own.find? x = some r) :
    r.expr.same x = true := by
  rw [find?_eq] at h
  have hsame := List.find?_some h
  exact hsame

theorem mem_of_find? {own : Ownership} {x : Expr} {r : Recorded} (h : own.find? x = some r) :
    r ∈ own.index := by
  rw [find?_eq] at h
  exact List.mem_of_find?_eq_some h

/-- After a record was made, a search finds what it found before, or else what was recorded. -/
theorem find?_add (own : Ownership) (owner : NodeId) (e x : Expr) :
    (own.add owner e).find? x =
      (own.find? x).or
        (if e.same x then some { expr := e, owner, code := e.hashCode } else none) := by
  unfold add
  split
  · next hcontains =>
    -- the class of `e` has an entry already
    obtain ⟨r, hr⟩ := Option.isSome_iff_exists.mp hcontains
    by_cases hsame : e.same x = true
    · have hrx : r.expr.same x = true := Expr.same_trans (same_of_find? hr) hsame
      have hfound : (own.find? x).isSome = true := by
        rw [find?_eq, List.find?_isSome]
        exact ⟨r, mem_of_find? hr, hrx⟩
      rw [Option.or_of_isSome hfound]
    · simp [hsame]
  · -- the class of `e` is new, and its entry comes last
    simp only [find?_eq, List.find?_append, List.find?_singleton]

/-- What is recorded is found, with the owner of the first entry of its class. -/
theorem exists_find?_add_self (own : Ownership) (owner : NodeId) (e : Expr) :
    ∃ r, (own.add owner e).find? e = some r := by
  rw [find?_add, if_pos (Expr.same_refl e)]
  cases own.find? e with
  | none => exact ⟨_, rfl⟩
  | some r => exact ⟨r, rfl⟩

/-! ## §4. Properties of all that is recorded -/

/-- Every recorded owner and expression have the property, in the index and in the groups. -/
structure All (P : NodeId → Expr → Prop) (own : Ownership) : Prop where
  index  : ∀ r ∈ own.index, P r.owner r.expr
  groups : ∀ group ∈ own.groups, ∀ e ∈ group.2, P group.1 e

theorem all_empty (P : NodeId → Expr → Prop) : empty.All P :=
  ⟨fun _ h => absurd h List.not_mem_nil, fun _ h => absurd h List.not_mem_nil⟩

theorem All.mono {P Q : NodeId → Expr → Prop} {own : Ownership} (h : own.All P)
    (hPQ : ∀ owner e, P owner e → Q owner e) : own.All Q :=
  ⟨fun r hr => hPQ _ _ (h.index r hr), fun g hg e he => hPQ _ _ (h.groups g hg e he)⟩

theorem mem_addToGroup {owner : NodeId} {e : Expr} {groups : List (NodeId × List Expr)}
    {group : NodeId × List Expr} (h : group ∈ addToGroup owner e groups) {x : Expr}
    (hx : x ∈ group.2) : (group.1 = owner ∧ x = e) ∨ ∃ g ∈ groups, g.1 = group.1 ∧ x ∈ g.2 := by
  induction groups with
  | nil =>
    rw [addToGroup, List.mem_singleton] at h
    subst h
    exact .inl ⟨rfl, List.mem_singleton.mp hx⟩
  | cons first groups ih =>
    obtain ⟨other, es⟩ := first
    rw [addToGroup] at h
    split at h
    · next heq =>
      -- the first group is that of the owner
      rcases List.mem_cons.mp h with rfl | h
      · rcases List.mem_append.mp hx with hx | hx
        · exact .inr ⟨(other, es), List.mem_cons_self, rfl, hx⟩
        · exact .inl ⟨heq, List.mem_singleton.mp hx⟩
      · exact .inr ⟨group, List.mem_cons_of_mem _ h, rfl, hx⟩
    · rcases List.mem_cons.mp h with rfl | h
      · exact .inr ⟨(other, es), List.mem_cons_self, rfl, hx⟩
      · rcases ih h with hnew | ⟨g, hg, hgx⟩
        · exact .inl hnew
        · exact .inr ⟨g, List.mem_cons_of_mem _ hg, hgx⟩

/-- What holds of all that is recorded still does after a pair of which it holds is. -/
theorem All.add {P : NodeId → Expr → Prop} {own : Ownership} (h : own.All P) {owner : NodeId}
    {e : Expr} (he : P owner e) : (own.add owner e).All P := by
  unfold Ownership.add
  split
  · exact h
  · constructor
    · intro r hr
      rcases List.mem_append.mp hr with hr | hr
      · exact h.index r hr
      · rw [List.mem_singleton] at hr
        subst hr
        exact he
    · intro group hgroup x hx
      rcases mem_addToGroup hgroup hx with ⟨howner, rfl⟩ | ⟨g, hg, howner, hx⟩
      · rw [howner]
        exact he
      · rw [← howner]
        exact h.groups g hg x hx

/-! ## §5. Groups -/

theorem lookup_cons (other first : NodeId) (es : List Expr) (groups : List (NodeId × List Expr)) :
    ((first, es) :: groups).lookup other =
      if other = first then some es else groups.lookup other := by
  rw [List.lookup_cons]
  by_cases h : other = first
  · simp only [h, beq_self_eq_true, if_true]
  · simp only [h, beq_eq_false_iff_ne.mpr h, if_false]

/-- A group is extended, and all others stay. -/
theorem lookup_addToGroup (owner other : NodeId) (e : Expr) (groups : List (NodeId × List Expr)) :
    (addToGroup owner e groups).lookup other =
      if other = owner then some ((groups.lookup owner).getD [] ++ [e])
      else groups.lookup other := by
  induction groups with
  | nil =>
    rw [addToGroup, lookup_cons]
    rfl
  | cons group groups ih =>
    obtain ⟨first, es⟩ := group
    rw [addToGroup]
    split
    · next heq =>
      subst heq
      simp only [lookup_cons, if_true, Option.getD_some]
      split <;> rfl
    · next hne =>
      have hne' : ¬ owner = first := fun h => hne h.symm
      simp only [lookup_cons, ih, if_neg hne']
      by_cases h : other = first
      · rw [if_pos h, if_pos h, if_neg (fun heq => hne (h.symm.trans heq))]
      · rw [if_neg h, if_neg h]

theorem add_of_contains {own : Ownership} {e : Expr} (h : own.contains e = true)
    (owner : NodeId) : own.add owner e = own := by
  rw [add, if_pos h]

/-- What is recorded anew comes last in the group of its owner. -/
theorem ownedBy_add {own : Ownership} {e : Expr} (h : ¬ own.contains e = true)
    (owner other : NodeId) :
    (own.add owner e).ownedBy other =
      if other = owner then own.ownedBy other ++ [e] else own.ownedBy other := by
  rw [add, if_neg h, ownedBy, lookup_addToGroup]
  by_cases hother : other = owner
  · rw [if_pos hother, if_pos hother, hother]
    rfl
  · rw [if_neg hother, if_neg hother]
    rfl

theorem owners_addToGroup (owner : NodeId) (e : Expr) (groups : List (NodeId × List Expr)) :
    (addToGroup owner e groups).map (·.1) =
      if owner ∈ groups.map (·.1) then groups.map (·.1) else groups.map (·.1) ++ [owner] := by
  induction groups with
  | nil => rfl
  | cons first groups ih =>
    obtain ⟨other, es⟩ := first
    rw [addToGroup]
    by_cases heq : other = owner
    · simp [heq]
    · have hne : ¬ owner = other := fun h => heq h.symm
      rw [if_neg heq, List.map_cons, ih]
      simp only [List.map_cons, List.mem_cons, hne, false_or]
      split <;> rfl

/-- Index and groups hold the same expressions: every owner has one group, with its entries in the
    order in which they were recorded. -/
structure Grouped (own : Ownership) : Prop where
  owners     : (own.groups.map (·.1)).Nodup
  nonempty   : ∀ group ∈ own.groups, group.2 ≠ []
  ownedBy_eq : ∀ owner,
    own.ownedBy owner = (own.index.filter fun r => r.owner == owner).map (·.expr)

theorem grouped_empty : empty.Grouped :=
  ⟨List.nodup_nil, fun _ h => absurd h List.not_mem_nil, fun _ => rfl⟩

/-- Every entry is in the group of its owner. -/
theorem Grouped.mem {own : Ownership} (h : own.Grouped) {r : Recorded} (hr : r ∈ own.index) :
    r.expr ∈ own.ownedBy r.owner := by
  rw [h.ownedBy_eq]
  exact List.mem_map_of_mem (List.mem_filter.mpr ⟨hr, beq_self_eq_true _⟩)

theorem nonempty_of_mem_addToGroup {owner : NodeId} {e : Expr}
    {groups : List (NodeId × List Expr)} (h : ∀ group ∈ groups, group.2 ≠ []) :
    ∀ group ∈ addToGroup owner e groups, group.2 ≠ [] := by
  induction groups with
  | nil =>
    intro group hgroup
    rw [addToGroup, List.mem_singleton] at hgroup
    subst hgroup
    exact List.cons_ne_nil _ _
  | cons first groups ih =>
    obtain ⟨other, es⟩ := first
    have hrest := fun group hgroup => h group (List.mem_cons_of_mem (other, es) hgroup)
    intro group hgroup
    rw [addToGroup] at hgroup
    split at hgroup
    · rcases List.mem_cons.mp hgroup with rfl | hgroup
      · exact List.append_ne_nil_of_right_ne_nil es (List.cons_ne_nil e [])
      · exact hrest group hgroup
    · rcases List.mem_cons.mp hgroup with rfl | hgroup
      · exact h _ List.mem_cons_self
      · exact ih hrest group hgroup

theorem Grouped.add {own : Ownership} (h : own.Grouped) (owner : NodeId) (e : Expr) :
    (own.add owner e).Grouped := by
  by_cases hcontains : own.contains e = true
  · rw [add_of_contains hcontains]
    exact h
  · refine ⟨?_, ?_, fun other => ?_⟩
    · rw [Ownership.add, if_neg hcontains, owners_addToGroup]
      split
      · exact h.owners
      · next hnew =>
        refine List.nodup_append.mpr ⟨h.owners, List.pairwise_singleton _ _, ?_⟩
        intro a ha b hb heq
        rw [heq, List.mem_singleton.mp hb] at ha
        exact hnew ha
    · rw [Ownership.add, if_neg hcontains]
      exact nonempty_of_mem_addToGroup h.nonempty
    · -- the new entry is the last one, and the last one of its owner
      rw [ownedBy_add hcontains, h.ownedBy_eq, Ownership.add, if_neg hcontains, List.filter_append,
        List.map_append]
      by_cases hother : other = owner
      · simp [hother]
      · have hne : ¬ owner = other := fun heq => hother heq.symm
        simp [hother, hne]

/-- What holds of all groups holds of the expressions of an owner. -/
theorem All.of_mem_ownedBy {P : NodeId → Expr → Prop} {own : Ownership} (h : own.All P)
    {owner : NodeId} {e : Expr} (he : e ∈ own.ownedBy owner) : P owner e := by
  rw [ownedBy] at he
  cases hlookup : own.groups.lookup owner with
  | none =>
    rw [hlookup] at he
    exact absurd he List.not_mem_nil
  | some es =>
    rw [hlookup] at he
    obtain ⟨before, after, hsplit, _⟩ := List.lookup_eq_some_iff.mp hlookup
    have hgroup : (owner, es) ∈ own.groups := by
      rw [hsplit]
      exact List.mem_append_right _ List.mem_cons_self
    exact h.groups _ hgroup e he

/-! ## §6. Growth -/

/-- The entries of the first record are entries of the second, in their places and under their
    owners. -/
structure Within (own own' : Ownership) : Prop where
  index   : own.index <+: own'.index
  owners  : own.groups.map (·.1) <+: own'.groups.map (·.1)
  ownedBy : ∀ owner, own.ownedBy owner <+: own'.ownedBy owner

theorem Within.refl (own : Ownership) : own.Within own :=
  ⟨List.prefix_rfl, List.prefix_rfl, fun _ => List.prefix_rfl⟩

theorem Within.trans {own own' own'' : Ownership} (h : own.Within own') (h' : own'.Within own'') :
    own.Within own'' where
  index := h.index.trans h'.index
  owners := h.owners.trans h'.owners
  ownedBy owner := (h.ownedBy owner).trans (h'.ownedBy owner)

/-- What is recorded anew comes last. -/
theorem within_add (own : Ownership) (owner : NodeId) (e : Expr) : own.Within (own.add owner e) := by
  by_cases hcontains : own.contains e = true
  · rw [add_of_contains hcontains]
    exact .refl own
  · refine ⟨?_, ?_, fun other => ?_⟩
    · rw [add, if_neg hcontains]
      exact List.prefix_append _ _
    · rw [add, if_neg hcontains, owners_addToGroup]
      split
      · exact List.prefix_rfl
      · exact List.prefix_append _ _
    · rw [ownedBy_add hcontains]
      split
      · exact List.prefix_append _ _
      · exact List.prefix_rfl

/-- What is found is found in every record that has more. -/
theorem Within.find?_of_some {own own' : Ownership} (h : own.Within own') {x : Expr} {r : Recorded}
    (hr : own.find? x = some r) : own'.find? x = some r := by
  obtain ⟨rest, hrest⟩ := h.index
  rw [find?_eq] at hr
  rw [find?_eq, ← hrest, List.find?_append, hr, Option.some_or]

theorem Within.ownerOf?_of_some {own own' : Ownership} (h : own.Within own') {x : Expr}
    {owner : NodeId} (howner : own.ownerOf? x = some owner) : own'.ownerOf? x = some owner := by
  obtain ⟨r, hr, rfl⟩ := Option.map_eq_some_iff.mp howner
  rw [ownerOf?, h.find?_of_some hr]
  rfl

end Ownership

end PushDown

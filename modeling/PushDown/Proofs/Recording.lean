import Mathlib.Data.List.Basic
import PushDown.Proofs.Ownership
import PushDown.Proofs.Reachable

/-! # What a record lists

    A record is added to and cleared, in any order and any number of times. Its
    groups and its index are changed one after the other and read by different
    callers, so they have to stay in step.

    The log of a run has the additions since the last clearing that were
    answered with success. The index has the entries of the log, and the groups
    share them out by owner (`Keeps`). So what is listed is what is indexed, and
    an addition is refused exactly when the same expression is listed
    (`inStep_run`).
-/

namespace PushDown.Ownership

variable {own : Ownership} {log : List (NodeId × Expr)} {owner : NodeId} {e : Expr}

/-! ## §1. Runs -/

/-- What can be done to a record. -/
inductive Action
  | add (owner : NodeId) (e : Expr)
  | clear

/-- A record, and the additions that succeeded since it was last cleared, in order. -/
structure Run where
  own : Ownership
  log : List (NodeId × Expr)

namespace Run

def start : Run := ⟨.empty, []⟩

/-- An addition is logged when it is answered with success. -/
def step (run : Run) : Action → Run
  | .add owner e =>
    match run.own.addNew owner e with
    | (own, true) => ⟨own, run.log ++ [(owner, e)]⟩
    | (own, false) => ⟨own, run.log⟩
  | .clear => start

/-- The run that takes the actions in order, from a record in which there is nothing. -/
def ofActions (actions : List Action) : Run :=
  actions.foldl step start

end Run

/-! ## §2. Index and groups -/

/-- The indexed expressions with their owners. -/
def entries (own : Ownership) : List (NodeId × Expr) :=
  own.index.map fun r => (r.owner, r.expr)

/-- The listed expressions with the owners of their groups. -/
def listed (own : Ownership) : List (NodeId × Expr) :=
  own.groups.flatMap fun group => group.2.map (group.1, ·)

/-- An expression is found when the same one is indexed. -/
theorem contains_iff : own.contains e = true ↔ ∃ entry ∈ own.entries, entry.2.same e = true := by
  rw [contains, find?_eq, List.find?_isSome]
  constructor
  · rintro ⟨r, hr, hsame⟩
    exact ⟨(r.owner, r.expr), List.mem_map_of_mem hr, hsame⟩
  · rintro ⟨entry, hentry, hsame⟩
    obtain ⟨r, hr, rfl⟩ := List.mem_map.mp hentry
    exact ⟨r, hr, hsame⟩

theorem Grouped.ownedBy_of_mem (h : own.Grouped) {group : NodeId × List Expr}
    (hgroup : group ∈ own.groups) : own.ownedBy group.1 = group.2 := by
  obtain ⟨before, after, hsplit⟩ := List.append_of_mem hgroup
  have howners := h.owners
  rw [hsplit, List.map_append, List.nodup_append] at howners
  -- no group before it has its owner
  have hlookup : own.groups.lookup group.1 = some group.2 := by
    refine List.lookup_eq_some_iff.mpr ⟨before, after, hsplit, fun other hother => ?_⟩
    have hne := howners.2.2 other.1 (List.mem_map_of_mem hother) group.1 (by simp)
    exact bne_iff_ne.mpr hne.symm
  rw [ownedBy, hlookup, Option.getD_some]

/-- A group lists the entries of its owner. -/
theorem Grouped.map_of_mem (h : own.Grouped) {group : NodeId × List Expr}
    (hgroup : group ∈ own.groups) :
    group.2.map (group.1, ·) = own.entries.filter fun entry => entry.1 == group.1 := by
  rw [← h.ownedBy_of_mem hgroup, h.ownedBy_eq, List.map_map, entries, List.filter_map]
  refine List.map_congr_left fun r hr => ?_
  have howner : r.owner = group.1 := beq_iff_eq.mp (List.mem_filter.mp hr).2
  rw [Function.comp_apply, howner]

/-- If every entry has a group, what is listed is what is indexed. -/
theorem Grouped.listed_perm (h : own.Grouped)
    (howners : ∀ entry ∈ own.entries, entry.1 ∈ own.groups.map (·.1)) :
    own.listed.Perm own.entries := by
  have hshared := flatMap_filter_perm (·.1) own.entries h.owners
  have hall : (own.entries.filter fun entry => decide (entry.1 ∈ own.groups.map (·.1))) =
      own.entries := List.filter_eq_self.mpr fun entry hentry => decide_eq_true (howners entry hentry)
  have hlisted : own.listed = (own.groups.map (·.1)).flatMap fun id =>
      own.entries.filter fun entry => entry.1 == id := by
    rw [List.flatMap_map]
    exact List.flatMap_congr fun group hgroup => h.map_of_mem hgroup
  rwa [hall, ← hlisted] at hshared

/-! ## §3. The log decides -/

/-- The record has the entries of the log, no two of which are the same. The groups share them out
    and are in the order in which their owners first appear. -/
structure Keeps (own : Ownership) (log : List (NodeId × Expr)) : Prop where
  entries_eq : own.entries = log
  grouped    : own.Grouped
  owners_eq  : own.groups.map (·.1) = (log.map (·.1)).eraseDups
  distinct   : log.Pairwise fun a b => ¬ a.2.same b.2 = true

/-- What comes last is kept only if it did not come before. -/
theorem eraseDups_concat (ids : List NodeId) (id : NodeId) :
    (ids ++ [id]).eraseDups = if id ∈ ids then ids.eraseDups else ids.eraseDups ++ [id] := by
  rw [List.eraseDups_append]
  split
  · next hmem => simp [List.removeAll, hmem]
  · next hnew => simp [List.removeAll, hnew, List.eraseDups_cons]

theorem keeps_empty : empty.Keeps [] :=
  ⟨rfl, grouped_empty, rfl, .nil⟩

/-- **Step.** What is recorded anew comes last in the log. -/
theorem Keeps.add (h : own.Keeps log) (hnew : ¬ own.contains e = true) :
    (own.add owner e).Keeps (log ++ [(owner, e)]) := by
  refine ⟨?_, h.grouped.add owner e, ?_, ?_⟩
  · rw [Ownership.add, if_neg hnew, entries, List.map_append, ← h.entries_eq]
    rfl
  · rw [Ownership.add, if_neg hnew, owners_addToGroup, h.owners_eq, List.map_append,
      List.map_singleton, eraseDups_concat]
    -- the owners that have groups are those that appear in the log
    simp only [List.mem_eraseDups]
  · refine List.pairwise_append.mpr ⟨h.distinct, List.pairwise_singleton _ _, ?_⟩
    intro entry hentry last hlast hsame
    obtain rfl := List.mem_singleton.mp hlast
    exact hnew (contains_iff.mpr ⟨entry, h.entries_eq ▸ hentry, hsame⟩)

theorem Keeps.step {run : Run} (h : run.own.Keeps run.log) (action : Action) :
    (run.step action).own.Keeps (run.step action).log := by
  cases action with
  | clear => exact keeps_empty
  | add owner e =>
    by_cases hcontains : run.own.contains e = true
    · simp only [Run.step, addNew, hcontains, Bool.not_true, add_of_contains hcontains]
      exact h
    · simp only [Run.step, addNew, hcontains, Bool.not_false]
      exact h.add hcontains

/-- **Run.** Along a run the record has the entries of the log. -/
theorem keeps_run (actions : List Action) :
    (Run.ofActions actions).own.Keeps (Run.ofActions actions).log := by
  suffices h : ∀ run : Run, run.own.Keeps run.log →
      (actions.foldl Run.step run).own.Keeps (actions.foldl Run.step run).log from
    h Run.start keeps_empty
  induction actions with
  | nil => exact fun run h => h
  | cons action actions ih => exact fun run h => ih (run.step action) (h.step action)

theorem Keeps.listed_perm (h : own.Keeps log) : own.listed.Perm log := by
  have hperm := h.grouped.listed_perm fun entry hentry => ?_
  · rwa [h.entries_eq] at hperm
  · rw [h.entries_eq] at hentry
    rw [h.owners_eq, List.mem_eraseDups]
    exact List.mem_map_of_mem hentry

theorem Keeps.distinct_listed (h : own.Keeps log) :
    own.listed.Pairwise fun a b => ¬ a.2.same b.2 = true := by
  refine (h.listed_perm.pairwise_iff ?_).mpr h.distinct
  exact fun hab hba => hab (Expr.same_symm hba)

/-- What is listed is found under the owner of its group, and nothing else is found. -/
theorem Keeps.ownerOf?_eq_some_iff (h : own.Keeps log) {x : Expr} :
    own.ownerOf? x = some owner ↔ ∃ e, (owner, e) ∈ own.listed ∧ e.same x = true := by
  have hlisted : own.listed.Perm own.entries := h.entries_eq.symm ▸ h.listed_perm
  rw [ownerOf?, Option.map_eq_some_iff]
  constructor
  · rintro ⟨r, hr, rfl⟩
    have hentry : (r.owner, r.expr) ∈ own.entries := List.mem_map_of_mem (mem_of_find? hr)
    exact ⟨r.expr, hlisted.mem_iff.mpr hentry, same_of_find? hr⟩
  · rintro ⟨e, hmem, hsame⟩
    obtain ⟨r, hr, heq⟩ := List.mem_map.mp (hlisted.mem_iff.mp hmem)
    obtain ⟨rfl, rfl⟩ := Prod.mk.inj heq
    obtain ⟨before, after, hsplit⟩ := List.append_of_mem hr
    -- no entry before it is the same, so the search does not stop earlier
    have hdistinct := h.distinct
    rw [← h.entries_eq, entries, List.pairwise_map, hsplit, List.pairwise_append] at hdistinct
    refine ⟨r, ?_, rfl⟩
    rw [find?_eq]
    refine List.find?_eq_some_iff_append.mpr ⟨hsame, before, after, hsplit, fun earlier hmem => ?_⟩
    have hother := hdistinct.2.2 earlier hmem r List.mem_cons_self
    rw [Bool.not_eq_true']
    refine Bool.eq_false_iff.mpr fun hearlier => hother ?_
    exact Expr.same_trans hearlier (Expr.same_symm hsame)

theorem Keeps.contains_iff (h : own.Keeps log) :
    own.contains e = true ↔ ∃ entry ∈ own.listed, entry.2.same e = true := by
  rw [Ownership.contains_iff, h.entries_eq]
  simp only [h.listed_perm.mem_iff]

theorem Keeps.isEmpty_iff (h : own.Keeps log) : own.isEmpty = true ↔ own.size = 0 := by
  have hsize : own.size = log.length := by
    rw [← h.entries_eq, entries, List.length_map, size]
  have howners := h.owners_eq
  rw [isEmpty, List.isEmpty_iff, hsize, List.length_eq_zero_iff]
  constructor
  · intro hgroups
    rw [hgroups, List.map_nil] at howners
    cases log with
    | nil => rfl
    | cons entry log => simp [List.eraseDups_cons] at howners
  · rintro rfl
    exact List.map_eq_nil_iff.mp howners

/-! ## §4. What is listed -/

/-- Groups and index of a record are in step with each other and with the log of its additions. -/
structure InStep (own : Ownership) (log : List (NodeId × Expr)) : Prop where
  /-- The owners are in the order in which something was first recorded for them. -/
  owners      : own.groups.map (·.1) = (log.map (·.1)).eraseDups
  nodup       : (own.groups.map (·.1)).Nodup
  nonempty    : ∀ group ∈ own.groups, group.2 ≠ []
  /-- What the index has is listed once, and nothing else is listed. -/
  indexed     : own.listed.Perm own.entries
  /-- What was recorded is listed once, under its owner. -/
  logged      : own.listed.Perm log
  /-- No two listed expressions are the same, in one group or in two. -/
  distinct    : own.listed.Pairwise fun a b => ¬ a.2.same b.2 = true
  ownerOf?    : ∀ owner x, own.ownerOf? x = some owner ↔
    ∃ e, (owner, e) ∈ own.listed ∧ e.same x = true
  size_eq     : own.size = own.listed.length
  isEmpty_iff : own.isEmpty = true ↔ own.size = 0
  /-- An addition is refused when the same expression is listed, and only then. -/
  refused_iff : ∀ owner e, (own.addNew owner e).2 = false ↔
    ∃ entry ∈ own.listed, entry.2.same e = true
  unchanged   : ∀ owner e, (own.addNew owner e).2 = false → (own.addNew owner e).1 = own

/-- After any additions and clearings, groups and index are in step. -/
theorem inStep_run (actions : List Action) :
    (Run.ofActions actions).own.InStep (Run.ofActions actions).log := by
  have h := keeps_run actions
  generalize (Run.ofActions actions).own = own at h ⊢
  generalize (Run.ofActions actions).log = log at h ⊢
  have hindexed : own.listed.Perm own.entries := h.entries_eq.symm ▸ h.listed_perm
  have hrefused : ∀ owner e, (own.addNew owner e).2 = false ↔ own.contains e = true :=
    fun owner e => by simp [addNew]
  refine ⟨h.owners_eq, h.grouped.owners, h.grouped.nonempty, hindexed, h.listed_perm,
    h.distinct_listed, fun _ _ => h.ownerOf?_eq_some_iff, ?_, h.isEmpty_iff, ?_, ?_⟩
  · rw [hindexed.length_eq, entries, List.length_map, size]
  · exact fun owner e => (hrefused owner e).trans h.contains_iff
  · exact fun owner e hanswer => add_of_contains ((hrefused owner e).mp hanswer) owner

/-- `orders.amount` is recorded for its table, a test of it for another node, and the constant for the
    first owner again. The third addition after the clearing is refused. -/
def mixed : List Action :=
  [.add 2 (.literal (.int 1)), .clear, .add 1 (.field Plan.Shop.amount),
    .add 0 (.isNull (.field Plan.Shop.amount)), .add 0 (.field Plan.Shop.amount),
    .add 1 (.literal (.int 5))]

theorem inStep_run_mixed :
    ∃ run, Run.ofActions mixed = run ∧ run.own.InStep run.log ∧
      run.own.groups.map (·.1) = [1, 0] ∧
      run.own.listed.map (fun entry => (entry.1, entry.2.label)) =
        [(1, "`orders`.`amount`"), (1, "5"), (0, "(`orders`.`amount` IS NULL)")] ∧
      run.log.map (·.1) = [1, 0, 1] ∧
      run.own.ownerOf? (.field Plan.Shop.amount) = some 1 ∧
      (run.own.addNew 0 (.field Plan.Shop.amount)).2 = false :=
  ⟨_, rfl, inStep_run mixed, by decide +kernel, by decide +kernel, by decide +kernel,
    by decide +kernel, by decide +kernel⟩

end PushDown.Ownership

import Mathlib.Data.List.Nodup
import Mathlib.Logic.Relation

/-! Forests given by parent pointers over a flat list, and orders of removal from the list. -/

namespace Modvm.Lib

variable {α : Type*} (parent : α → Option α)

/-- Proper descendants: one or more parent pointers lead up. -/
def Under : α → α → Prop := Relation.TransGen fun child above => parent child = some above

/-- The parent pointers of the listed entries form a forest. -/
structure Forest (listed : List α) : Prop where
  nodup : listed.Nodup
  closed : ∀ child ∈ listed, ∀ above, parent child = some above → above ∈ listed
  acyclic : ∀ entry ∈ listed, ¬ Under parent entry entry

/-- An order of removal for the entries in a set: each once, and after its descendants. -/
structure ChildrenFirst (listed : List α) (chosen : α → Prop) (order : List α) : Prop where
  nodup : order.Nodup
  mem_iff : ∀ entry, entry ∈ order ↔ entry ∈ listed ∧ chosen entry
  childFirst : order.Pairwise fun earlier later => ¬ Under parent later earlier

section
variable {parent} {listed : List α} {top : α}

theorem Forest.mem_of_under (forest : Forest parent listed) {entry above : α}
    (under : Under parent entry above) (member : entry ∈ listed)
    : above ∈ listed := by
  induction under with
  | single pointer => exact forest.closed _ member _ pointer
  | tail _ pointer ih => exact forest.closed _ ih _ pointer

theorem Forest.child_above (forest : Forest parent listed) {entry : α}
    (under : Under parent entry top) (member : entry ∈ listed)
    : ∃ child ∈ listed, parent child = some top ∧ (entry = child ∨ Under parent entry child) := by
  cases under with
  | single pointer => exact ⟨entry, member, pointer, .inl rfl⟩
  | tail before pointer =>
    exact ⟨_, forest.mem_of_under before member, pointer, .inr before⟩

theorem ChildrenFirst.none (forest : Forest parent listed)
    (childless : ∀ child ∈ listed, parent child ≠ some top)
    : ChildrenFirst parent listed (Under parent · top) [] := by
  refine ⟨List.nodup_nil, fun entry => ?_, .nil⟩
  refine iff_of_false List.not_mem_nil fun ⟨member, under⟩ => ?_
  obtain ⟨child, childMember, pointer, -⟩ := forest.child_above under member
  exact childless child childMember pointer

theorem Under.of_child {child entry : α} (pointer : parent child = some top)
    (below : entry = child ∨ Under parent entry child)
    : Under parent entry top := by
  rcases below with rfl | under
  · exact .single pointer
  · exact .tail under pointer

theorem ChildrenFirst.root (forest : Forest parent listed) (member : top ∈ listed)
    {order : List α} (below : ChildrenFirst parent listed (Under parent · top) order)
    : ChildrenFirst parent listed (fun entry => entry = top ∨ Under parent entry top)
        (order ++ [top]) := by
  have absent : top ∉ order := fun inside =>
    forest.acyclic top member ((below.mem_iff top).mp inside).2
  refine ⟨?_, fun entry => ?_, ?_⟩
  · exact below.nodup.append (List.nodup_singleton top)
      (List.disjoint_singleton.mpr absent)
  · rw [List.mem_append, List.mem_singleton, below.mem_iff]
    constructor
    · rintro (⟨listed, under⟩ | rfl)
      · exact ⟨listed, .inr under⟩
      · exact ⟨member, .inl rfl⟩
    · rintro ⟨listed, rfl | under⟩
      · exact .inr rfl
      · exact .inl ⟨listed, under⟩
  · refine List.pairwise_append.mpr ⟨below.childFirst, List.pairwise_singleton _ _, ?_⟩
    intro earlier inside later last above
    rw [List.mem_singleton] at last
    subst last
    exact forest.acyclic later member (above.trans ((below.mem_iff earlier).mp inside).2)

variable [DecidableEq α]

/-- A forest less a subtree is a forest. -/
theorem Forest.without (forest : Forest parent listed) {child : α} {order : List α}
    (subtree : ChildrenFirst parent listed
      (fun entry => entry = child ∨ Under parent entry child) order)
    : Forest parent (listed.filter (· ∉ order)) := by
  refine ⟨forest.nodup.filter _, ?_, ?_⟩
  · intro entry kept above pointer
    obtain ⟨member, outside⟩ := List.mem_filter.mp kept
    rw [decide_eq_true_eq] at outside
    refine List.mem_filter.mpr ⟨forest.closed entry member above pointer, ?_⟩
    rw [decide_eq_true_eq]
    intro inside
    refine outside ((subtree.mem_iff entry).mpr ⟨member, .inr ?_⟩)
    rcases ((subtree.mem_iff above).mp inside).2 with rfl | under
    · exact .single pointer
    · exact .head pointer under
  · intro entry kept
    exact forest.acyclic entry (List.mem_filter.mp kept).1

theorem ChildrenFirst.append {child : α} {chosen : α → Prop} {first rest : List α}
    (within : ∀ entry, entry = child ∨ Under parent entry child → chosen entry)
    (subtree : ChildrenFirst parent listed
      (fun entry => entry = child ∨ Under parent entry child) first)
    (remaining : ChildrenFirst parent (listed.filter (· ∉ first)) chosen rest)
    : ChildrenFirst parent listed chosen (first ++ rest) := by
  have outside : ∀ entry ∈ rest, entry ∈ listed ∧ entry ∉ first := by
    intro entry inside
    simpa using ((remaining.mem_iff entry).mp inside).1
  refine ⟨?_, fun entry => ?_, ?_⟩
  · refine subtree.nodup.append remaining.nodup fun entry inFirst inRest => ?_
    exact (outside entry inRest).2 inFirst
  · rw [List.mem_append]
    constructor
    · rintro (inFirst | inRest)
      · obtain ⟨member, below⟩ := (subtree.mem_iff entry).mp inFirst
        exact ⟨member, within entry below⟩
      · exact ⟨(outside entry inRest).1, ((remaining.mem_iff entry).mp inRest).2⟩
    · rintro ⟨member, taken⟩
      by_cases inFirst : entry ∈ first
      · exact .inl inFirst
      · refine .inr ((remaining.mem_iff entry).mpr ⟨?_, taken⟩)
        simpa using And.intro member inFirst
  · refine List.pairwise_append.mpr ⟨subtree.childFirst, remaining.childFirst, ?_⟩
    -- What descends from the subtree is in it, so it is not among the rest.
    intro earlier inFirst later inRest under
    obtain ⟨member, notFirst⟩ := outside later inRest
    refine notFirst ((subtree.mem_iff later).mpr ⟨member, .inr ?_⟩)
    rcases ((subtree.mem_iff earlier).mp inFirst).2 with rfl | above
    · exact under
    · exact under.trans above

end

open Classical in
noncomputable def countUnder (listed : List α) (top : α) : Nat :=
  listed.countP fun entry => decide (Under parent entry top)

theorem countP_lt {smaller larger : α → Bool} {listed : List α} {entry : α}
    (weaker : ∀ other ∈ listed, smaller other = true → larger other = true)
    (member : entry ∈ listed) (out : smaller entry = false) (counted : larger entry = true)
    : listed.countP smaller < listed.countP larger := by
  induction listed with
  | nil => cases member
  | cons first rest ih =>
    have tail : ∀ other ∈ rest, smaller other = true → larger other = true :=
      fun other inside => weaker other (List.mem_cons_of_mem first inside)
    rw [List.countP_cons, List.countP_cons]
    rcases List.mem_cons.mp member with rfl | inside
    · have := List.countP_mono_left tail
      simp only [out, counted, Bool.false_eq_true, if_false, if_true]
      omega
    · have := ih tail inside
      have head := weaker first List.mem_cons_self
      by_cases small : smaller first = true
      · simp only [small, head small]
        omega
      · simp only [small, Bool.false_eq_true, if_false]
        omega

section
variable {parent} {listed : List α} {top child : α}

/-- The measure of a recursion over the children. -/
theorem Forest.countUnder_child (forest : Forest parent listed) (member : child ∈ listed)
    (pointer : parent child = some top)
    : countUnder parent listed child < countUnder parent listed top := by
  classical
  refine countP_lt ?_ member ?_ ?_
  · intro other _ under
    rw [decide_eq_true_eq] at under ⊢
    exact .tail under pointer
  · exact decide_eq_false (forest.acyclic child member)
  · exact decide_eq_true (.single pointer)

theorem countUnder_without [DecidableEq α] (member : child ∈ listed)
    (pointer : parent child = some top) {order : List α} (removed : child ∈ order)
    : countUnder parent (listed.filter (· ∉ order)) top < countUnder parent listed top := by
  classical
  unfold countUnder
  rw [List.countP_filter]
  refine countP_lt ?_ member ?_ ?_
  · intro other _ kept
    exact (Bool.and_eq_true_iff.mp kept).1
  · simp [removed]
  · exact decide_eq_true (.single pointer)

theorem Forest.countUnder_lt_length (forest : Forest parent listed) (member : top ∈ listed)
    : countUnder parent listed top < listed.length := by
  classical
  rw [← List.countP_true]
  exact countP_lt (fun _ _ _ => rfl) member (decide_eq_false (forest.acyclic top member)) rfl

end

end Modvm.Lib

import Mathlib.Data.List.Basic

/-! Strong Kleene conjunction over lists of three-valued answers. -/

namespace LfuScan.Foundations

/-- The three answers a test can have. -/
inductive Kleene
  | no
  | yes
  | unknown
deriving DecidableEq, Repr

namespace Kleene

/-- A test that is decided answers yes or no. -/
def ofBool : Bool → Kleene
  | true => yes
  | false => no

/-- Negation swaps the definite answers and keeps the open one. -/
def not : Kleene → Kleene
  | no => yes
  | yes => no
  | unknown => unknown

/-- Conjunction: a definite no decides, and otherwise an open answer stays open. -/
def and : Kleene → Kleene → Kleene
  | no, _ => no
  | yes, answer => answer
  | unknown, no => no
  | unknown, _ => unknown

/-- Conjunction of a whole list, yes when it is empty. -/
def all (answers : List Kleene) : Kleene :=
  answers.foldr and yes

@[simp] theorem no_and (answer : Kleene) : no.and answer = no := rfl

@[simp] theorem yes_and (answer : Kleene) : yes.and answer = answer := rfl

@[simp] theorem and_yes (answer : Kleene) : answer.and yes = answer := by
  cases answer <;> rfl

@[simp] theorem and_no (answer : Kleene) : answer.and no = no := by
  cases answer <;> rfl

theorem and_assoc (left middle right : Kleene)
    : (left.and middle).and right = left.and (middle.and right) := by
  cases left <;> cases middle <;> cases right <;> rfl

theorem and_comm (left right : Kleene) : left.and right = right.and left := by
  cases left <;> cases right <;> rfl

@[simp] theorem all_nil : all [] = yes := rfl

@[simp] theorem all_cons (answer : Kleene) (rest : List Kleene)
    : all (answer :: rest) = answer.and (all rest) := rfl

theorem and_eq_no_iff (left right : Kleene)
    : left.and right = no ↔ left = no ∨ right = no := by
  cases left <;> cases right <;> decide

theorem and_eq_yes_iff (left right : Kleene)
    : left.and right = yes ↔ left = yes ∧ right = yes := by
  cases left <;> cases right <;> decide

/-- A conjunction is no exactly when some conjunct is. -/
theorem all_eq_no_iff (answers : List Kleene) : all answers = no ↔ no ∈ answers := by
  induction answers with
  | nil => simp
  | cons answer rest ih => rw [all_cons, and_eq_no_iff, ih, List.mem_cons, eq_comm]

/-- A conjunction is yes exactly when every conjunct is. -/
theorem all_eq_yes_iff (answers : List Kleene)
    : all answers = yes ↔ ∀ answer ∈ answers, answer = yes := by
  induction answers with
  | nil => simp
  | cons answer rest ih => simp [and_eq_yes_iff, ih]

/-- A conjunction depends on which answers there are, not on their order or number. -/
theorem all_congr_mem {left right : List Kleene} (same : ∀ answer, answer ∈ left ↔ answer ∈ right)
    : all left = all right := by
  have no : all left = .no ↔ all right = .no := by simp only [all_eq_no_iff, same]
  have yes : all left = .yes ↔ all right = .yes := by simp only [all_eq_yes_iff, same]
  cases first : all left <;> cases second : all right <;> simp_all

/-- Splitting a list by a test and conjoining the two halves in turn changes nothing. -/
theorem all_partition {α : Type*} (answer : α → Kleene) (test : α → Bool) (items : List α)
    : all (items.map answer)
      = (all ((items.filter test).map answer)).and
          (all ((items.filter (fun item => !test item)).map answer)) := by
  induction items with
  | nil => rfl
  | cons item rest ih =>
      cases chosen : test item
      · simp only [List.map_cons, all_cons, ih, chosen, List.filter_cons, Bool.not_false,
          Bool.false_eq_true, if_false, if_true]
        rw [← and_assoc, and_comm (answer item), and_assoc]
      · simp [chosen, ih, and_assoc]

end Kleene

end LfuScan.Foundations

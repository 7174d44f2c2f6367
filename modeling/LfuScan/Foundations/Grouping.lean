import Mathlib.Data.List.Nodup
import Mathlib.Logic.Function.Basic

/-! Items gathered under a key until their group is let go. A key may be let go more than
once, and then the groups of that key, in the order in which they left, are consecutive
parts of what came in for it.
-/

namespace LfuScan.Foundations

variable {κ α : Type*}

/-- The keys around a group, where none occurs twice. -/
theorem keys_around {front back : List (κ × List α)} {group : κ × List α}
    (distinct : ((front ++ group :: back).map Prod.fst).Nodup)
    : ((front ++ back).map Prod.fst).Nodup ∧ group.1 ∉ (front ++ back).map Prod.fst := by
  rw [List.map_append, List.map_cons, List.nodup_middle, List.nodup_cons, ← List.map_append]
    at distinct
  exact ⟨distinct.2, distinct.1⟩

/-- What stands last comes after everything else. -/
theorem getLast?_of_pairwise {rel : α → α → Prop} {items : List α} {last : α}
    (ordered : items.Pairwise rel) (latest : items.getLast? = some last)
    : ∀ item ∈ items, item = last ∨ rel item last := by
  obtain ⟨front, rfl⟩ := List.getLast?_eq_some_iff.mp latest
  intro item member
  rcases List.mem_append.mp member with earlier | here
  · exact .inr ((List.pairwise_append.mp ordered).2.2 item earlier last List.mem_cons_self)
  · exact .inl (List.mem_singleton.mp here)

variable [DecidableEq κ]

/-- The items of a key's groups, in their order. -/
def itemsOf (groups : List (κ × List α)) (key : κ) : List α :=
  (groups.filter (·.1 = key)).flatMap Prod.snd

@[simp]
theorem itemsOf_nil (key : κ) : itemsOf ([] : List (κ × List α)) key = [] := rfl

@[simp]
theorem itemsOf_append (left right : List (κ × List α)) (key : κ)
    : itemsOf (left ++ right) key = itemsOf left key ++ itemsOf right key := by
  simp [itemsOf]

theorem itemsOf_cons (group : κ × List α) (rest : List (κ × List α)) (key : κ)
    : itemsOf (group :: rest) key
      = (if group.1 = key then group.2 else []) ++ itemsOf rest key := by
  unfold itemsOf
  rw [List.filter_cons]
  by_cases same : group.1 = key <;> simp [same]

theorem mem_itemsOf {groups : List (κ × List α)} {key : κ} {item : α}
    : item ∈ itemsOf groups key ↔ ∃ group ∈ groups, group.1 = key ∧ item ∈ group.2 := by
  simp [itemsOf, and_assoc]

/-- A group is a part of what its key's groups hold. -/
theorem sublist_itemsOf {groups : List (κ × List α)} {group : κ × List α}
    (member : group ∈ groups)
    : group.2.Sublist (itemsOf groups group.1) := by
  obtain ⟨front, back, rfl⟩ := List.append_of_mem member
  rw [itemsOf_append, itemsOf_cons, if_pos rfl]
  exact (List.sublist_append_left _ _).trans (List.sublist_append_right _ _)

theorem itemsOf_of_absent {groups : List (κ × List α)} {key : κ}
    (absent : key ∉ groups.map Prod.fst)
    : itemsOf groups key = [] := by
  have none : groups.filter (·.1 = key) = [] := by
    apply List.filter_eq_nil_iff.mpr
    intro group member same
    exact absent (List.mem_map.mpr ⟨group, member, by simpa using same⟩)
  rw [itemsOf, none]
  rfl

/-- One more item for a key. -/
def received (input : κ → List α) (key : κ) (item : α) : κ → List α :=
  Function.update input key (input key ++ [item])

theorem received_self (input : κ → List α) (key : κ) (item : α)
    : received input key item key = input key ++ [item] :=
  Function.update_self ..

theorem received_other (input : κ → List α) {key other : κ} (item : α) (differ : other ≠ key)
    : received input key item other = input other :=
  Function.update_of_ne differ ..

/-- Groups that have left and groups still held account for all that came in, and no key is
held twice.
-/
structure Grouping (left held : List (κ × List α)) (input : κ → List α) : Prop where
  distinct : (held.map Prod.fst).Nodup
  filled : ∀ group ∈ left ++ held, group.2 ≠ []
  conserved : ∀ key, itemsOf left key ++ itemsOf held key = input key

namespace Grouping

variable {left held front back : List (κ × List α)} {input : κ → List α}

theorem start : Grouping ([] : List (κ × List α)) [] (fun _ => []) where
  distinct := List.nodup_nil
  filled := fun _ member => absurd member List.not_mem_nil
  conserved := fun _ => rfl

/-- A group leaves, from anywhere among those held. -/
theorem release {group : κ × List α} (books : Grouping left (front ++ group :: back) input)
    : Grouping (left ++ [group]) (front ++ back) input := by
  obtain ⟨distinct, absent⟩ := keys_around books.distinct
  refine ⟨distinct, fun other member => books.filled other ?_, fun key => ?_⟩
  · simp only [List.mem_append, List.mem_cons, List.not_mem_nil, or_false] at member ⊢
    tauto
  · have conserved := books.conserved key
    rw [itemsOf_append, itemsOf_cons] at conserved
    by_cases same : group.1 = key
    · subst same
      -- nothing else is held under its key
      rw [List.map_append, List.mem_append, not_or] at absent
      rw [itemsOf_of_absent absent.1, itemsOf_of_absent absent.2] at conserved
      rw [← conserved, itemsOf_append, itemsOf_append, itemsOf_cons,
        itemsOf_of_absent absent.1, itemsOf_of_absent absent.2]
      simp
    · rw [← conserved, itemsOf_append, itemsOf_append, itemsOf_cons]
      simp [same]

/-- One more item for a held group, which then stands last. -/
theorem gather {key : κ} {items : List α}
    (books : Grouping left (front ++ (key, items) :: back) input) (item : α)
    : Grouping left ((front ++ back) ++ [(key, items ++ [item])]) (received input key item) := by
  obtain ⟨distinct, absent⟩ := keys_around books.distinct
  refine ⟨?_, fun other member => ?_, fun other => ?_⟩
  · rw [List.map_append, List.nodup_append_comm]
    exact List.nodup_cons.mpr ⟨absent, distinct⟩
  · simp only [List.mem_append, List.mem_singleton] at member
    rcases member with old | (held | held) | rfl
    · exact books.filled other (by simp [old])
    · exact books.filled other (by simp [held])
    · exact books.filled other (by simp [held])
    · simp
  · have conserved := books.conserved other
    rw [itemsOf_append, itemsOf_cons] at conserved
    by_cases same : key = other
    · subst same
      rw [List.map_append, List.mem_append, not_or] at absent
      rw [itemsOf_of_absent absent.1, itemsOf_of_absent absent.2] at conserved
      rw [received_self, ← conserved, itemsOf_append, itemsOf_append, itemsOf_cons,
        itemsOf_of_absent absent.1, itemsOf_of_absent absent.2]
      simp
    · rw [received_other _ _ (Ne.symm same), ← conserved, itemsOf_append, itemsOf_append,
        itemsOf_cons]
      simp [same]

/-- The first item of a key that is not held. -/
theorem begin {key : κ} (books : Grouping left held input)
    (absent : key ∉ held.map Prod.fst) (item : α)
    : Grouping left (held ++ [(key, [item])]) (received input key item) := by
  refine ⟨?_, fun other member => ?_, fun other => ?_⟩
  · rw [List.map_append, List.nodup_append_comm]
    exact List.nodup_cons.mpr ⟨absent, books.distinct⟩
  · simp only [List.mem_append, List.mem_singleton] at member
    rcases member with old | kept | rfl
    · exact books.filled other (by simp [old])
    · exact books.filled other (by simp [kept])
    · simp
  · have conserved := books.conserved other
    by_cases same : key = other
    · subst same
      rw [received_self, ← conserved, itemsOf_append, itemsOf_cons]
      simp
    · rw [received_other _ _ (Ne.symm same), ← conserved, itemsOf_append, itemsOf_cons]
      simp [same]

/-- Once nothing is held, the groups that left are all of the input. -/
theorem finished (books : Grouping left [] input) (key : κ) : itemsOf left key = input key := by
  simpa using books.conserved key

end Grouping

/-- The item of a key that occurs once. -/
theorem filter_eq_singleton {key : α → κ} {l : List α}
    (distinct : (l.map key).Nodup) {x : α} (member : x ∈ l)
    : l.filter (key · = key x) = [x] := by
  induction l with
  | nil => cases member
  | cons y rest ih =>
      obtain ⟨differs, distinct⟩ := List.nodup_cons.mp distinct
      rcases List.mem_cons.mp member with rfl | member
      · rw [List.filter_cons_of_pos (by simp), List.filter_eq_nil_iff.mpr]
        intro z other
        simpa using fun same : key z = key x => differs (same ▸ List.mem_map_of_mem other)
      · rw [List.filter_cons_of_neg, ih distinct member]
        simpa using fun same : key y = key x => differs (same ▸ List.mem_map_of_mem member)

end LfuScan.Foundations

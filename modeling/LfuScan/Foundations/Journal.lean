import Mathlib.Data.List.Infix
import Mathlib.Data.List.Nodup
import Mathlib.Logic.Function.Basic

/-! Journals: records with increasing indices are appended at one end and purged from the
other, while a reader goes through what is there.
-/

namespace LfuScan.Foundations

variable {α : Type} {index : α → Nat}

/-- All that was ever logged, and how many of the oldest records are gone. A purge leaves at
least one record. `disturbed` says that something was purged since the journal was marked.
-/
structure Journal (index : α → Nat) where
  history : List α
  purged : Nat := 0
  disturbed : Bool := false
  increasing : history.Pairwise (index · < index ·)
  positive : ∀ r ∈ history, 0 < index r
  kept : purged = 0 ∨ purged < history.length

namespace Journal

/-- What is still there. -/
def current (journal : Journal index) : List α := journal.history.drop journal.purged

/-- What is still there from an index on. -/
def onwards (journal : Journal index) (start : Nat) : List α :=
  journal.current.filter (start ≤ index ·)

/-- A record is logged if its index is the highest. -/
def append (journal : Journal index) (r : α) : Journal index :=
  if highest : 0 < index r ∧ ∀ x ∈ journal.history, index x < index r then
    {
      history := journal.history ++ [r]
      purged := journal.purged
      disturbed := journal.disturbed
      increasing := by
        refine List.pairwise_append.mpr ⟨journal.increasing, List.pairwise_singleton _ _, ?_⟩
        intro x member y last
        rw [List.mem_singleton.mp last]
        exact highest.2 x member
      positive := by
        intro x member
        rcases List.mem_append.mp member with old | last
        · exact journal.positive x old
        · rw [List.mem_singleton.mp last]
          exact highest.1
      kept := journal.kept.imp_right fun short => by
        rw [List.length_append]
        omega
    }
  else
    journal

/-- The oldest records go, if some are left. -/
def purge (journal : Journal index) (count : Nat) : Journal index :=
  if some : journal.purged + count < journal.history.length then
    {
      journal with
      purged := journal.purged + count
      disturbed := journal.disturbed || count != 0
      kept := .inr some
    }
  else
    journal

def mark (journal : Journal index) : Journal index := { journal with disturbed := false }

/-- The journal some time later. -/
structure Later (before after : Journal index) : Prop where
  history : before.history <+: after.history
  purged : before.purged ≤ after.purged

/-- Unless something was purged, everything past an index is still there. -/
def Intact (journal : Journal index) (past : Nat) : Prop :=
  journal.disturbed = false → ∀ r ∈ journal.history, past < index r → r ∈ journal.current

variable {before after : Journal index}

theorem Later.refl (journal : Journal index) : Later journal journal :=
  ⟨List.prefix_rfl, Nat.le_refl _⟩

theorem Later.trans {middle : Journal index} (first : Later before middle)
    (second : Later middle after)
    : Later before after :=
  ⟨first.history.trans second.history, Nat.le_trans first.purged second.purged⟩

theorem mem_current_iff {journal : Journal index} {r : α}
    : r ∈ journal.current
      ↔ r ∈ journal.history ∧ r ∉ journal.history.take journal.purged := by
  have ordered := journal.increasing
  rw [← List.take_append_drop journal.purged journal.history, List.pairwise_append] at ordered
  have parts : r ∈ journal.history
      ↔ r ∈ journal.history.take journal.purged ∨ r ∈ journal.history.drop journal.purged := by
    rw [← List.mem_append, List.take_append_drop]
  rw [parts, current]
  refine ⟨fun here => ⟨.inr here, fun gone => ?_⟩, fun here => here.1.resolve_left here.2⟩
  exact Nat.lt_irrefl _ (ordered.2.2 r gone r here)

theorem current_subset {journal : Journal index} {r : α} (here : r ∈ journal.current)
    : r ∈ journal.history :=
  (mem_current_iff.mp here).1

theorem current_ne_nil {journal : Journal index} {r : α} (logged : r ∈ journal.history)
    : journal.current ≠ [] := by
  have length := List.length_pos_of_mem logged
  have kept := journal.kept
  rw [current, ← List.length_pos_iff, List.length_drop]
  omega

/-- An index belongs to one record. -/
theorem eq_of_index_eq {journal : Journal index} {x y : α} (first : x ∈ journal.history)
    (second : y ∈ journal.history) (same : index x = index y)
    : x = y := by
  have distinct : (journal.history.map index).Nodup :=
    List.pairwise_map.mpr (journal.increasing.imp fun less => Nat.ne_of_lt less)
  exact List.inj_on_of_nodup_map distinct first second same

/-- What is logged later has a higher index. -/
theorem Later.mem_history (later : Later before after) {r x : α} (logged : r ∈ after.history)
    (earlier : x ∈ before.history) (upto : index r ≤ index x)
    : r ∈ before.history := by
  obtain ⟨more, same⟩ := later.history
  have ordered := after.increasing
  rw [← same] at ordered logged
  rcases List.mem_append.mp logged with old | new
  · exact old
  · have above := (List.pairwise_append.mp ordered).2.2 x earlier r new
    omega

/-- What is still there was there before. -/
theorem Later.mem_current (later : Later before after) {r : α} (here : r ∈ after.current)
    (logged : r ∈ before.history)
    : r ∈ before.current := by
  have gone : before.history.take before.purged <+: after.history.take after.purged := by
    rw [List.prefix_take_iff, List.length_take]
    exact ⟨(List.take_prefix _ _).trans later.history,
      Nat.le_trans (Nat.min_le_left _ _) later.purged⟩
  exact mem_current_iff.mpr ⟨logged, fun purged =>
    (mem_current_iff.mp here).2 (gone.subset purged)⟩

/-- The head of what is there has the lowest index. -/
theorem head_le {journal : Journal index} {start : Nat} {head : α} {rest : List α}
    (there : journal.onwards start = head :: rest)
    : start ≤ index head ∧ head ∈ journal.current
      ∧ ∀ r ∈ journal.current, start ≤ index r → index head ≤ index r := by
  have member : head ∈ journal.onwards start := there ▸ List.mem_cons_self
  have ordered : (journal.onwards start).Pairwise (index · < index ·) :=
    (journal.increasing.sublist (List.drop_sublist _ _)).sublist List.filter_sublist
  refine ⟨of_decide_eq_true (List.mem_filter.mp member).2, (List.mem_filter.mp member).1, ?_⟩
  intro r here from_
  have inside : r ∈ journal.onwards start := List.mem_filter.mpr ⟨here, decide_eq_true from_⟩
  rw [there] at ordered inside
  rcases List.mem_cons.mp inside with rfl | inside
  · exact Nat.le_refl _
  · exact Nat.le_of_lt ((List.pairwise_cons.mp ordered).1 r inside)

/-- A journal whose oldest record is not past the next index has everything past this one. -/
theorem intact_of_oldest {journal : Journal index} {oldest : α} {rest : List α}
    (there : journal.onwards 0 = oldest :: rest) {past : Nat} (near : index oldest ≤ past + 1)
    : journal.mark.Intact past := by
  intro _ r logged above
  refine mem_current_iff.mpr ⟨logged, fun gone => ?_⟩
  obtain ⟨_, here, _⟩ := head_le there
  have ordered := journal.increasing
  rw [← List.take_append_drop journal.purged journal.history, List.pairwise_append] at ordered
  have below := ordered.2.2 r gone oldest here
  omega

theorem mark_later (journal : Journal index) : Later journal journal.mark :=
  ⟨List.prefix_rfl, Nat.le_refl _⟩

-----------------------------------------------------------------------------------------
-- What happens to journals
-----------------------------------------------------------------------------------------

/-- What happens to a journal that is not marked again. -/
structure Evolves (before after : Journal index) : Prop extends Later before after where
  intact : ∀ past, before.Intact past → after.Intact past

theorem Evolves.refl (journal : Journal index) : Evolves journal journal :=
  ⟨.refl journal, fun _ => id⟩

theorem Evolves.trans {middle : Journal index} (first : Evolves before middle)
    (second : Evolves middle after)
    : Evolves before after :=
  ⟨first.toLater.trans second.toLater, fun past => second.intact past ∘ first.intact past⟩

theorem append_evolves (journal : Journal index) (r : α)
    : Evolves journal (journal.append r) := by
  unfold append
  split
  · refine ⟨⟨List.prefix_append _ _, Nat.le_refl _⟩, fun past intact quiet x logged above => ?_⟩
    have within : journal.purged ≤ journal.history.length := by
      have kept := journal.kept
      omega
    unfold current
    dsimp only
    rw [List.drop_append_of_le_length within, List.mem_append]
    exact (List.mem_append.mp logged).imp_left fun old => intact quiet x old above
  · exact .refl journal

theorem purge_evolves (journal : Journal index) (count : Nat)
    : Evolves journal (journal.purge count) := by
  unfold purge
  split
  · refine ⟨⟨List.prefix_rfl, Nat.le_add_right _ _⟩, fun past intact quiet x logged above => ?_⟩
    have still : journal.disturbed = false ∧ count = 0 := by simpa using quiet
    have here := intact still.1 x logged above
    unfold current at here ⊢
    simpa [still.2] using here
  · exact .refl journal

end Journal

section Journals

open Journal

variable {ι : Type} [DecidableEq ι]

inductive JournalEvent (ι α : Type)
  | append (key : ι) (r : α)
  | purge (key : ι) (count : Nat)

def JournalEvent.apply (journals : ι → Journal index) : JournalEvent ι α → ι → Journal index
  | .append key r => Function.update journals key ((journals key).append r)
  | .purge key count => Function.update journals key ((journals key).purge count)

def happen (events : List (JournalEvent ι α)) (journals : ι → Journal index)
    : ι → Journal index :=
  events.foldl JournalEvent.apply journals

/-- A reader of one journal, from an index on. Before each record something may happen, and
once nothing happens any more the rest is read.
-/
def receive (key : ι)
    : List (List (JournalEvent ι α)) → Nat → (ι → Journal index)
      → List α × (ι → Journal index)
  | [], start, journals => ((journals key).onwards start, journals)
  | events :: later, start, journals =>
      let journals := happen events journals
      match (journals key).onwards start with
      | [] => ([], journals)
      | r :: _ =>
          let (read, journals) := receive key later (index r + 1) journals
          (r :: read, journals)

theorem update_evolves (journals : ι → Journal index) (key : ι) {after : Journal index}
    (evolves : Evolves (journals key) after) (other : ι)
    : Evolves (journals other) (Function.update journals key after other) := by
  by_cases same : other = key
  · subst same
    rwa [Function.update_self]
  · rw [Function.update_of_ne same]
    exact .refl _

theorem apply_evolves (journals : ι → Journal index) (event : JournalEvent ι α) (key : ι)
    : Evolves (journals key) (event.apply journals key) := by
  cases event with
  | append other r => exact update_evolves journals other (append_evolves _ r) key
  | purge other count => exact update_evolves journals other (purge_evolves _ count) key

theorem happen_evolves (events : List (JournalEvent ι α)) (journals : ι → Journal index)
    (key : ι)
    : Evolves (journals key) (happen events journals key) := by
  induction events generalizing journals with
  | nil => exact .refl _
  | cons event rest ih => exact (apply_evolves journals event key).trans (ih _)

/-- What a reader got: nothing that is still there was passed over. -/
structure Received (key : ι) (start : Nat) (journals : ι → Journal index) (read : List α)
    (after : ι → Journal index)
    : Prop where
  evolves : ∀ other, Evolves (journals other) (after other)
  increasing : read.Pairwise (index · < index ·)
  onwards : ∀ r ∈ read, start ≤ index r
  logged : ∀ r ∈ read, r ∈ (after key).history
  complete
    : ∀ r ∈ (after key).current, start ≤ index r → ∀ x ∈ read, index r ≤ index x → r ∈ read

theorem receive_received (key : ι) (gaps : List (List (JournalEvent ι α))) (start : Nat)
    (journals : ι → Journal index)
    : Received key start journals (receive key gaps start journals).1
        (receive key gaps start journals).2 := by
  induction gaps generalizing start journals with
  | nil =>
      refine ⟨fun _ => .refl _, ?_, ?_, ?_, ?_⟩
      · exact ((journals key).increasing.sublist (List.drop_sublist _ _)).sublist
          List.filter_sublist
      · exact fun r member => of_decide_eq_true (List.mem_filter.mp member).2
      · exact fun r member => current_subset (List.mem_filter.mp member).1
      · exact fun r here from_ _ _ _ => List.mem_filter.mpr ⟨here, decide_eq_true from_⟩
  | cons events later ih =>
      have happened := happen_evolves events journals
      unfold receive
      dsimp only
      split
      · exact ⟨happened, .nil, by simp, by simp, by simp⟩
      rename_i r rest there
      obtain ⟨from_, here, lowest⟩ := head_le there
      have next := ih (index r + 1) (happen events journals)
      generalize receive key later (index r + 1) (happen events journals) = result at next ⊢
      obtain ⟨read, after⟩ := result
      have history : r ∈ (after key).history :=
        (next.evolves key).history.subset (current_subset here)
      refine ⟨fun other => (happened other).trans (next.evolves other), ?_, ?_, ?_, ?_⟩
      · exact List.pairwise_cons.mpr ⟨fun x member => next.onwards x member, next.increasing⟩
      · intro x member
        rcases List.mem_cons.mp member with rfl | member
        · exact from_
        · exact Nat.le_trans from_ (Nat.le_of_succ_le (next.onwards x member))
      · intro x member
        rcases List.mem_cons.mp member with rfl | member
        · exact history
        · exact next.logged x member
      · intro y still start x member upto
        by_cases past : index r < index y
        · -- the rest of the reading has it
          rcases List.mem_cons.mp member with rfl | member
          · omega
          · exact List.mem_cons_of_mem _ (next.complete y still past x member upto)
        · -- it was there when `r` was the first
          have before := (next.evolves key).mem_history (current_subset still)
            (current_subset here) (by omega)
          have above := lowest y ((next.evolves key).mem_current still before) start
          have same : y = r :=
            eq_of_index_eq (current_subset still) history (by omega)
          exact same ▸ List.mem_cons_self

end Journals

-----------------------------------------------------------------------------------------
-- Cursors
-----------------------------------------------------------------------------------------

/-- A step of a cursor that goes through a journal: where it was and where it is, 0 being
nowhere yet, and what was read on the way.
-/
structure CursorStep (α : Type) where
  before : Nat
  after : Nat
  reads : α → Bool

def CursorStep.moved (step : CursorStep α) : Bool := step.before != step.after

/-- Nothing between the two places is passed over, and a step that moves reads nothing else. -/
structure CursorStep.Sound (index : α → Nat) (logged : α → Prop) (step : CursorStep α)
    : Prop where
  forward : step.before ≤ step.after
  covers
    : step.before ≠ 0 → ∀ r, logged r → step.before < index r → index r ≤ step.after
        → step.reads r = true
  within
    : step.moved = true → ∀ r, step.reads r = true
        → step.before < index r ∧ index r ≤ step.after

/-- Each step starts where the one before it ended. -/
def Chained : Nat → List (CursorStep α) → Nat → Prop
  | first, [], last => first = last
  | first, step :: rest, last => step.before = first ∧ Chained step.after rest last

/-- The steps that moved and read a record. -/
def readers (steps : List (CursorStep α)) (r : α) : List (CursorStep α) :=
  steps.filter fun step => step.moved && step.reads r

section Cursor

variable {logged : α → Prop} {steps : List (CursorStep α)} {first last : Nat} {r : α}

/-- A step that does not have the record between its places is not among them. -/
theorem CursorStep.Sound.reader {step : CursorStep α} (sound : step.Sound index logged)
    (outside : index r ≤ step.before ∨ step.after < index r)
    : (step.moved && step.reads r) = false := by
  by_contra reader
  rw [Bool.not_eq_false, Bool.and_eq_true] at reader
  have within := sound.within reader.1 r reader.2
  omega

theorem readers_behind (sound : ∀ step ∈ steps, step.Sound index logged)
    (chained : Chained first steps last) (behind : index r ≤ first)
    : readers steps r = [] := by
  induction steps generalizing first with
  | nil => rfl
  | cons step rest ih =>
      obtain ⟨rfl, chained⟩ := chained
      have here := sound step List.mem_cons_self
      have later := ih (fun other member => sound other (List.mem_cons_of_mem _ member)) chained
        (Nat.le_trans behind here.forward)
      rw [readers, List.filter_cons_of_neg (by rw [here.reader (.inl behind)]; simp)]
      exact later

/-- A record past a cursor that is somewhere is read by one of the steps that pass it. -/
theorem readers_ahead (sound : ∀ step ∈ steps, step.Sound index logged)
    (chained : Chained first steps last) (somewhere : first ≠ 0) (known : logged r)
    (ahead : first < index r) (reached : index r ≤ last)
    : (readers steps r).length = 1 := by
  induction steps generalizing first with
  | nil =>
      have same : first = last := chained
      omega
  | cons step rest ih =>
      obtain ⟨rfl, chained⟩ := chained
      have here := sound step List.mem_cons_self
      have others := fun other member => sound other (List.mem_cons_of_mem step member)
      have forward := here.forward
      by_cases upto : index r ≤ step.after
      · have reads := here.covers somewhere r known ahead upto
        have moved : step.moved = true := by
          simp only [CursorStep.moved, bne_iff_ne]
          omega
        have none := readers_behind others chained upto
        rw [readers, List.filter_cons_of_pos (by simp [moved, reads])]
        rw [readers] at none
        rw [none]
        rfl
      · rw [readers, List.filter_cons_of_neg (by rw [here.reader (.inr (by omega))]; simp)]
        exact ih others chained (by omega) (by omega)

/-- A record past the first place of a cursor is read by one of the steps that move it. -/
theorem readers_between (sound : ∀ step ∈ steps, step.Sound index logged)
    (chained : Chained 0 steps last) {place : Nat}
    (started : (steps.map (·.after)).find? (· != 0) = some place) (known : logged r)
    (ahead : place < index r) (reached : index r ≤ last)
    : (readers steps r).length = 1 := by
  induction steps with
  | nil => cases started
  | cons step rest ih =>
      obtain ⟨nowhere, chained⟩ := chained
      have here := sound step List.mem_cons_self
      have others := fun other member => sound other (List.mem_cons_of_mem step member)
      rw [List.map_cons] at started
      by_cases still : step.after = 0
      · rw [List.find?_cons_of_neg (by simp [still])] at started
        rw [readers, List.filter_cons_of_neg (by simp [CursorStep.moved, nowhere, still])]
        exact ih others (still ▸ chained) started
      · rw [List.find?_cons_of_pos (by simp [still])] at started
        cases started
        rw [readers, List.filter_cons_of_neg (by rw [here.reader (.inr ahead)]; simp)]
        exact readers_ahead others chained still known ahead reached

end Cursor

end LfuScan.Foundations

import Mathlib.Algebra.Group.Nat.Defs
import Mathlib.Data.List.Basic
import Mathlib.Data.List.Perm.Basic

/-! Tables with open addressing and linear probing. A slot is vacant or has a key; an entry is
found by looking at one slot after the other from the home of its key, up to the first one
that is vacant or has the key. Nothing is ever taken out, so what was placed stays in reach.
-/

namespace LfuScan.Foundations

variable {ε κ : Type}

/-- The first slot, from `i` on, that `stop` accepts; `none` after as many rounds as are left. -/
def probe (stop : Nat → Bool) (next : Nat → Nat) : Nat → Nat → Option Nat
  | 0, _ => none
  | left + 1, i => if stop i then some i else probe stop next left (next i)

/-- The slots from `home` on, around the table. -/
def slotAt (cap home d : Nat) : Nat := (home + d) % cap

theorem slotAt_lt {cap : Nat} (positive : 0 < cap) (home d : Nat) : slotAt cap home d < cap :=
  Nat.mod_lt _ positive

theorem slotAt_next (cap home d : Nat) : (slotAt cap home d + 1) % cap = slotAt cap home (d + 1) :=
  Nat.mod_add_mod (home + d) cap 1

/-- Every slot is some way from home. -/
theorem exists_slotAt {cap home i : Nat} (inside : home < cap) (within : i < cap)
    : ∃ d < cap, slotAt cap home d = i := by
  refine ⟨(i + (cap - home)) % cap, Nat.mod_lt _ (by omega), ?_⟩
  rw [slotAt, Nat.add_mod_mod]
  have around : home + (i + (cap - home)) = i + cap := by omega
  rw [around, Nat.add_mod_right, Nat.mod_eq_of_lt within]

/-- With a round for every step to some accepted slot the probe gives the first one. -/
theorem probe_first {stop : Nat → Bool} {next : Nat → Nat} {cap home d : Nat}
    (follows : ∀ i < cap, next i = (i + 1) % cap) (positive : 0 < cap)
    (accepted : stop (slotAt cap home d) = true)
    (before : ∀ c < d, stop (slotAt cap home c) = false) {left : Nat} (rounds : d < left)
    : probe stop next left (slotAt cap home 0) = some (slotAt cap home d) := by
  -- the same from every slot on the way
  have onward (c : Nat) (between : c ≤ d) {left : Nat} (rounds : d < left + c)
      : probe stop next left (slotAt cap home c) = some (slotAt cap home d) := by
    induction left generalizing c with
    | zero => omega
    | succ left ih =>
        rw [probe]
        rcases Nat.eq_or_lt_of_le between with rfl | less
        · rw [if_pos accepted]
        · rw [if_neg (by rw [before c less]; exact Bool.false_ne_true),
            follows _ (slotAt_lt positive home c), slotAt_next]
          exact ih (c + 1) less (by omega)
  exact onward 0 (Nat.zero_le d) rounds

/-- Among the steps from home there is a first one to an accepted slot. -/
theorem exists_first {stop : Nat → Bool} {cap home d : Nat}
    (accepted : stop (slotAt cap home d) = true)
    : ∃ first ≤ d, stop (slotAt cap home first) = true
        ∧ ∀ c < first, stop (slotAt cap home c) = false := by
  induction d using Nat.strongRecOn with
  | ind d ih =>
      by_cases earlier : ∃ c < d, stop (slotAt cap home c) = true
      · obtain ⟨c, less, sooner⟩ := earlier
        obtain ⟨first, bound, found⟩ := ih c less sooner
        exact ⟨first, Nat.le_trans bound (Nat.le_of_lt less), found⟩
      · refine ⟨d, Nat.le_refl d, accepted, fun c less => Bool.eq_false_iff.mpr fun sooner => ?_⟩
        exact earlier ⟨c, less, sooner⟩

section Table

variable (key? : ε → Option κ) (home : κ → Nat)

/-- The key of a slot, `none` for a vacant one. -/
def slotKey (tab : List ε) (i : Nat) : Option κ := tab[i]?.bind key?

/-- What is in the table. -/
def occupants (tab : List ε) : List ε := tab.filter fun e => (key? e).isSome

/-- Every entry is in reach from its home: the slots before it are taken by other keys. -/
structure Reachable (tab : List ε) : Prop where
  inside : ∀ k, home k < tab.length
  reach : ∀ i k, slotKey key? tab i = some k →
    ∃ d < tab.length, i = slotAt tab.length (home k) d
      ∧ ∀ c < d, ∃ other, slotKey key? tab (slotAt tab.length (home k) c) = some other ∧ other ≠ k

variable {key?} {home}

theorem slotKey_mem {tab : List ε} {i : Nat} {k : κ} (found : slotKey key? tab i = some k)
    : ∃ e ∈ tab, key? e = some k := by
  obtain ⟨e, here, named⟩ := Option.bind_eq_some_iff.mp found
  exact ⟨e, List.mem_of_getElem? here, named⟩

theorem mem_occupants {tab : List ε} {e : ε} : e ∈ occupants key? tab ↔ e ∈ tab ∧ (key? e).isSome :=
  List.mem_filter

theorem slotKey_of_mem {tab : List ε} {e : ε} {k : κ} (member : e ∈ tab) (named : key? e = some k)
    : ∃ i : Nat, tab[i]? = some e ∧ slotKey key? tab i = some k := by
  obtain ⟨i, here⟩ := List.mem_iff_getElem?.mp member
  exact ⟨i, here, by rw [slotKey, here, Option.bind_some, named]⟩

section Blank

variable {blank : ε} (vacant : key? blank = none)
include vacant

/-- Beyond the table a slot may be read as a vacant one. -/
theorem slotKey_getD (tab : List ε) (i : Nat) : slotKey key? tab i = key? (tab.getD i blank) := by
  rw [slotKey, List.getD_eq_getElem?_getD]
  cases tab[i]? with
  | none => exact vacant.symm
  | some e => rfl

/-- A table as it is allocated. -/
theorem Reachable.fresh {cap : Nat} (inside : ∀ k, home k < cap)
    : Reachable key? home (List.replicate cap blank) := by
  refine ⟨fun k => by rw [List.length_replicate]; exact inside k, fun i k found => ?_⟩
  obtain ⟨e, member, named⟩ := slotKey_mem found
  rw [(List.mem_replicate.mp member).2, vacant] at named
  cases named

theorem occupants_fresh (cap : Nat) : occupants key? (List.replicate cap blank) = [] := by
  rw [occupants, List.filter_eq_nil_iff]
  intro e member
  rw [(List.mem_replicate.mp member).2, vacant]
  exact Bool.false_ne_true

end Blank

theorem occupants_append (front back : List ε)
    : occupants key? (front ++ back) = occupants key? front ++ occupants key? back :=
  List.filter_append ..

theorem occupants_cons_vacant {e : ε} (vacant : key? e = none) (rest : List ε)
    : occupants key? (e :: rest) = occupants key? rest :=
  List.filter_cons_of_neg (by rw [vacant]; exact Bool.false_ne_true)

theorem occupants_cons {e : ε} (named : (key? e).isSome) (rest : List ε)
    : occupants key? (e :: rest) = e :: occupants key? rest :=
  List.filter_cons_of_pos named

theorem slotKey_set {tab : List ε} {j : Nat} (within : j < tab.length) (e : ε) (i : Nat)
    : slotKey key? (tab.set j e) i = if i = j then key? e else slotKey key? tab i := by
  by_cases same : i = j
  · rw [slotKey, same, List.getElem?_set_self within, if_pos rfl, Option.bind_some]
  · rw [slotKey, List.getElem?_set_ne (Ne.symm same), if_neg same, slotKey]

/-- An entry placed in the first vacant slot is in reach, and so is everything else. -/
theorem Reachable.place {tab : List ε} (table : Reachable key? home tab) {e : ε} {k : κ} {d : Nat}
    (named : key? e = some k) (bound : d < tab.length)
    (vacant : slotKey key? tab (slotAt tab.length (home k) d) = none)
    (before : ∀ c < d, ∃ other,
      slotKey key? tab (slotAt tab.length (home k) c) = some other ∧ other ≠ k)
    : Reachable key? home (tab.set (slotAt tab.length (home k) d) e) := by
  have within : slotAt tab.length (home k) d < tab.length := slotAt_lt (by omega) _ _
  -- what was taken is still taken by the same key
  have kept {i : Nat} {other : κ} (taken : slotKey key? tab i = some other)
      : slotKey key? (tab.set (slotAt tab.length (home k) d) e) i = some other := by
    rw [slotKey_set within, if_neg, taken]
    rintro rfl
    rw [vacant] at taken
    cases taken
  refine ⟨fun k => by rw [List.length_set]; exact table.inside k, fun i key found => ?_⟩
  rw [List.length_set]
  rw [slotKey_set within] at found
  split at found
  · rename_i here
    obtain rfl : k = key := Option.some.inj (named.symm.trans found)
    refine ⟨d, bound, here, fun c less => ?_⟩
    obtain ⟨other, taken, differ⟩ := before c less
    exact ⟨other, kept taken, differ⟩
  · obtain ⟨far, bound, here, earlier⟩ := table.reach i key found
    refine ⟨far, bound, here, fun c less => ?_⟩
    obtain ⟨other, taken, differ⟩ := earlier c less
    exact ⟨other, kept taken, differ⟩

/-- A vacant slot and what is around it. -/
theorem vacant_split {tab : List ε} {j : Nat} (within : j < tab.length)
    (vacant : slotKey key? tab j = none) (e : ε)
    : ∃ front old back,
        tab = front ++ old :: back ∧ tab.set j e = front ++ e :: back ∧ key? old = none := by
  refine ⟨tab.take j, tab.get ⟨j, within⟩, tab.drop (j + 1), ?_, ?_, ?_⟩
  · rw [List.get_eq_getElem, ← List.drop_eq_getElem_cons within, List.take_append_drop]
  · rw [List.set_eq_take_append_cons_drop, if_pos within]
  · rwa [slotKey, List.getElem?_eq_getElem within, Option.bind_some] at vacant

/-- One more entry, and nothing lost. -/
theorem occupants_set {tab : List ε} {j : Nat} (within : j < tab.length) {e : ε}
    (named : (key? e).isSome) (vacant : slotKey key? tab j = none)
    : (occupants key? (tab.set j e)).Perm (e :: occupants key? tab) := by
  obtain ⟨front, old, back, before, after, empty⟩ := vacant_split within vacant e
  rw [after, before, occupants_append, occupants_append, occupants_cons named,
    occupants_cons_vacant empty]
  exact List.perm_middle

/-- A vacant slot that is set to an entry without a key is still vacant. -/
theorem slotKey_set_vacant {tab : List ε} {j : Nat} (within : j < tab.length) {e : ε}
    (unnamed : key? e = none) (vacant : slotKey key? tab j = none) (i : Nat)
    : slotKey key? (tab.set j e) i = slotKey key? tab i := by
  rw [slotKey_set within]
  split
  · rename_i here
    rw [here, vacant, unnamed]
  · rfl

theorem Reachable.set_vacant {tab : List ε} (table : Reachable key? home tab) {j : Nat}
    (within : j < tab.length) {e : ε} (unnamed : key? e = none)
    (vacant : slotKey key? tab j = none)
    : Reachable key? home (tab.set j e) := by
  refine ⟨fun k => by rw [List.length_set]; exact table.inside k, fun i k found => ?_⟩
  rw [slotKey_set_vacant within unnamed vacant] at found
  simp only [List.length_set, slotKey_set_vacant within unnamed vacant]
  exact table.reach i k found

theorem occupants_set_vacant {tab : List ε} {j : Nat} (within : j < tab.length) {e : ε}
    (unnamed : key? e = none) (vacant : slotKey key? tab j = none)
    : occupants key? (tab.set j e) = occupants key? tab := by
  obtain ⟨front, old, back, before, after, empty⟩ := vacant_split within vacant e
  rw [after, before, occupants_append, occupants_append, occupants_cons_vacant unnamed,
    occupants_cons_vacant empty]

/-- A table that is not full has a vacant slot. -/
theorem exists_vacant {tab : List ε} (room : (occupants key? tab).length < tab.length)
    : ∃ i < tab.length, slotKey key? tab i = none := by
  by_contra full
  have all : ∀ e ∈ tab, (key? e).isSome = true := by
    intro e member
    obtain ⟨i, here⟩ := List.mem_iff_getElem?.mp member
    rw [Option.isSome_iff_ne_none]
    intro vacant
    have within : i < tab.length := (List.getElem?_eq_some_iff.mp here).1
    exact full ⟨i, within, by rw [slotKey, here, Option.bind_some, vacant]⟩
  rw [occupants, List.filter_eq_self.mpr all] at room
  exact Nat.lt_irrefl _ room

variable [DecidableEq κ]

/-- Where the probe for a key stops. -/
def stopsFor (key? : ε → Option κ) (tab : List ε) (k : κ) (i : Nat) : Bool :=
  match slotKey key? tab i with
  | none => true
  | some other => decide (other = k)

theorem stopsFor_eq_false_iff {tab : List ε} {k : κ} {i : Nat}
    : stopsFor key? tab k i = false ↔ ∃ other, slotKey key? tab i = some other ∧ other ≠ k := by
  unfold stopsFor
  cases slotKey key? tab i with
  | none => simp
  | some other => simp

/-- A test of the entries that accepts a vacant one and one with the key. -/
theorem stopsFor_eq {blank : ε} (vacant : key? blank = none) {tab : List ε} {k : κ}
    (stop : ε → Bool) (agrees : ∀ e, stop e = true ↔ ∀ other, key? e = some other → other = k)
    : (fun i => stop (tab.getD i blank)) = stopsFor key? tab k := by
  funext i
  rw [Bool.eq_iff_iff, agrees, stopsFor, slotKey_getD vacant]
  cases key? (tab.getD i blank) with
  | none => simp
  | some other => simp

/-- Around a table whose size is a power of two. -/
theorem mask_follows {tab : List ε} {bits : Nat} (size : tab.length = 2 ^ bits)
    : ∀ i < tab.length, (i + 1) &&& (2 ^ bits - 1) = (i + 1) % tab.length := by
  intro i _
  rw [size, Nat.and_two_pow_sub_one_eq_mod]

/-- A key that is in the table is found. -/
theorem Reachable.probe_found {tab : List ε} (table : Reachable key? home tab)
    {next : Nat → Nat} (follows : ∀ i < tab.length, next i = (i + 1) % tab.length) {i : Nat}
    {k : κ} (found : slotKey key? tab i = some k)
    : probe (stopsFor key? tab k) next tab.length (home k) = some i := by
  obtain ⟨d, rounds, rfl, before⟩ := table.reach i k found
  have inside := table.inside k
  have start : slotAt tab.length (home k) 0 = home k := Nat.mod_eq_of_lt inside
  have accepted : stopsFor key? tab k (slotAt tab.length (home k) d) = true := by
    rw [stopsFor, found]
    exact decide_eq_true rfl
  have first := probe_first follows (by omega) accepted
    (fun c less => stopsFor_eq_false_iff.mpr (before c less)) rounds
  rwa [start] at first

/-- A key that is not in the table leads to a vacant slot, over slots that are taken. -/
theorem Reachable.probe_absent {tab : List ε} (table : Reachable key? home tab)
    {next : Nat → Nat} (follows : ∀ i < tab.length, next i = (i + 1) % tab.length) {k : κ}
    (absent : ∀ i, slotKey key? tab i ≠ some k) {vacancy : Nat} (within : vacancy < tab.length)
    (vacant : slotKey key? tab vacancy = none)
    : ∃ d < tab.length,
        probe (stopsFor key? tab k) next tab.length (home k)
          = some (slotAt tab.length (home k) d)
        ∧ slotKey key? tab (slotAt tab.length (home k) d) = none
        ∧ ∀ c < d, ∃ other,
            slotKey key? tab (slotAt tab.length (home k) c) = some other ∧ other ≠ k := by
  have inside := table.inside k
  have start : slotAt tab.length (home k) 0 = home k := Nat.mod_eq_of_lt inside
  obtain ⟨far, bound, rfl⟩ := exists_slotAt inside within
  have accepted : stopsFor key? tab k (slotAt tab.length (home k) far) = true := by
    rw [stopsFor, vacant]
  obtain ⟨d, near, stops, before⟩ := exists_first accepted
  have first := probe_first follows (by omega) stops before (Nat.lt_of_le_of_lt near bound)
  rw [start] at first
  refine ⟨d, Nat.lt_of_le_of_lt near bound, first, ?_,
    fun c less => stopsFor_eq_false_iff.mp (before c less)⟩
  unfold stopsFor at stops
  split at stops
  · assumption
  · rename_i other taken
    rw [of_decide_eq_true stops] at taken
    exact absurd taken (absent _)

end Table

end LfuScan.Foundations

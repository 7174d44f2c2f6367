import LfuScan.Filter.Compile
import LfuScan.Foundations.Literal

/-! Index lists: the elements an accepted argument is made of, as they are written, and the
list the parser makes of them. The list is exact as long as no number carries a minus sign
that makes it negative, and no element is empty.
-/

namespace LfuScan.Filter

open LfuScan.Lustre LfuScan.Foundations

/-- An element of an index list: an index, or the first and the last index of a range. -/
inductive IndexElem
  | index (number : Literal 0)
  | range (first last : Literal 0)

namespace IndexElem

def text : IndexElem → Bytes
  | index number => number.text
  | range first last => first.text ++ ch '-' :: last.text

def lo : IndexElem → Int
  | index number => number.value
  | range first _ => first.value

def hi : IndexElem → Int
  | index number => number.value
  | range _ last => last.value

/-- How many indices an element names. -/
def count (elem : IndexElem) : Nat := (elem.hi + 1 - elem.lo).toNat

/-- No number is negative. -/
def Positive (elem : IndexElem) : Prop := 0 ≤ elem.lo ∧ 0 ≤ elem.hi

theorem text_ne_nil (elem : IndexElem) : elem.text ≠ [] := by
  cases elem with
  | index number => simp [text, Literal.text, number.nonempty]
  | range first last => simp [text]

end IndexElem

/-- The list is the one the argument names: every piece between commas is an element, none is
reversed or too large, there are not too many indices, and each is in the list.
-/
structure ExactList (arg : Bytes) (elems : List IndexElem) (list : List UInt32) : Prop where
  written : arg.splitOn (ch ',') = elems.map IndexElem.text
  ordered : ∀ elem ∈ elems, 0 ≤ elem.lo ∧ elem.lo ≤ elem.hi ∧ elem.hi < 2 ^ 32
  counted : (elems.map IndexElem.count).sum = list.length
  few : 1 ≤ list.length ∧ list.length ≤ lfuMaxList
  named : ∀ v : UInt32, v ∈ list ↔ ∃ elem ∈ elems, elem.lo ≤ v.toNat ∧ v.toNat ≤ elem.hi

-----------------------------------------------------------------------------------------
-- The loops, without a count of rounds
-----------------------------------------------------------------------------------------

/-- The list as the parser keeps it stays within its array. -/
def LfuPred.Listed (p : LfuPred) : Prop := 0 ≤ p.nlist ∧ p.nlist ≤ lfuMaxList

/-- One more index at the end of the list. -/
def LfuPred.push (p : LfuPred) (v : UInt64) : LfuPred :=
  { p with list := p.list.setIfInBounds p.nlist.toNat v.toUInt32, nlist := p.nlist + 1 }

/-- A run of the value loop of a range, from `v` on, to the end. -/
inductive RangeRun (hi : UInt64) : UInt64 → LfuPred → ListParse → Prop
  | past {v : UInt64} {p : LfuPred} (over_ : v > hi) : RangeRun hi v p { ok := true, pred := p }
  | full {v : UInt64} {p : LfuPred} (within : ¬v > hi) (full : p.nlist = lfuMaxList)
    : RangeRun hi v p { ok := false, pred := p, said := [.listTooLong] }
  | large {v : UInt64} {p : LfuPred} (within : ¬v > hi) (room : p.nlist ≠ lfuMaxList)
    (large : v > 0xffffffff)
    : RangeRun hi v p { ok := false, pred := p }
  | push {v : UInt64} {p : LfuPred} {result : ListParse} (within : ¬v > hi)
    (room : p.nlist ≠ lfuMaxList) (small : ¬v > 0xffffffff)
    (rest : RangeRun hi (v + 1) (p.push v) result)
    : RangeRun hi v p result

/-- A run of the parser over the elements of the argument, to the end. -/
inductive TokensRun : List Bytes → LfuPred → ListParse → Prop
  | done {p : LfuPred} : TokensRun [] p { ok := p.nlist != 0, pred := p }
  | malformed {tok : Bytes} {rest : List Bytes} {p : LfuPred} (bad : indexRange? tok = none)
    : TokensRun (tok :: rest) p { ok := false, pred := p }
  | stop {tok : Bytes} {rest : List Bytes} {p : LfuPred} {lo hi : UInt64} {added : ListParse}
    (good : indexRange? tok = some (lo, hi)) (run : RangeRun hi lo p added)
    (failed : added.ok = false)
    : TokensRun (tok :: rest) p added
  | next {tok : Bytes} {rest : List Bytes} {p : LfuPred} {lo hi : UInt64}
    {added result : ListParse} (good : indexRange? tok = some (lo, hi))
    (run : RangeRun hi lo p added) (succeeded : added.ok = true)
    (others : TokensRun rest added.pred result)
    : TokensRun (tok :: rest) p result

/-- A run of the parser, to the end. -/
inductive IndexListRun (arg : Bytes) (p : LfuPred) : ListParse → Prop
  | long (long : arg.length ≥ 512) : IndexListRun arg p { ok := false, pred := p }
  | tokens {result : ListParse} (short : ¬arg.length ≥ 512)
    (run : TokensRun (strtok arg (ch ',')) p result)
    : IndexListRun arg p result

theorem LfuPred.Listed.push {p : LfuPred} (listed : p.Listed) (room : p.nlist ≠ lfuMaxList)
    (v : UInt64)
    : (p.push v).Listed := by
  obtain ⟨lower, upper⟩ := listed
  simp only [Listed, LfuPred.push]
  omega

/-- With a round for every free slot and one more the value loop comes to its end. -/
theorem addRange_run {hi : UInt64} {left : Nat} {v : UInt64} {p : LfuPred} (listed : p.Listed)
    (rounds : (lfuMaxList : Int) - p.nlist < left)
    : RangeRun hi v p (addRange hi left v p) := by
  induction left generalizing v p with
  | zero =>
      have upper := listed.2
      omega
  | succ left ih =>
      unfold addRange
      split
      · exact .past ‹_›
      split
      · exact .full ‹_› (beq_iff_eq.mp ‹_›)
      rename_i room
      have room : p.nlist ≠ lfuMaxList := fun full => room (beq_iff_eq.mpr full)
      split
      · exact .large ‹_› room ‹_›
      · refine .push ‹_› room ‹_› (ih (listed.push room v) ?_)
        show (lfuMaxList : Int) - (p.nlist + 1) < left
        omega

theorem RangeRun.listed {hi v : UInt64} {p : LfuPred} {result : ListParse}
    (run : RangeRun hi v p result) (listed : p.Listed)
    : result.pred.Listed := by
  induction run with
  | past | full | large => exact listed
  | push _ room _ _ ih => exact ih (listed.push room _)

theorem indexTokens_run (tokens : List Bytes) {p : LfuPred} (listed : p.Listed)
    : TokensRun tokens p (indexTokens tokens p) := by
  induction tokens generalizing p with
  | nil => exact .done
  | cons tok rest ih =>
      unfold indexTokens
      split
      · exact .malformed ‹_›
      · rename_i lo hi good
        have run : RangeRun hi lo p (addRange hi (lfuMaxList + 1) lo p) :=
          addRange_run listed (by have lower := listed.1; omega)
        dsimp only
        split
        · exact .next good run ‹_› (ih (run.listed listed))
        · exact .stop good run (Bool.eq_false_iff.mpr ‹_›)

theorem lfuParseIndexList_run (arg : Bytes) {p : LfuPred} (listed : p.Listed)
    : IndexListRun arg p (lfuParseIndexList arg p) := by
  unfold lfuParseIndexList
  split
  · exact .long ‹_›
  · exact .tokens ‹_› (indexTokens_run _ listed)

-----------------------------------------------------------------------------------------
-- What a run adds
-----------------------------------------------------------------------------------------

/-- The indices from `lo` to `hi`. -/
def span (lo hi : UInt64) : List UInt32 :=
  (List.range' lo.toNat (hi.toNat + 1 - lo.toNat)).map UInt32.ofNat

theorem mem_span {lo hi : UInt64} (small : hi.toNat < 2 ^ 32) (v : UInt32)
    : v ∈ span lo hi ↔ lo.toNat ≤ v.toNat ∧ v.toNat ≤ hi.toNat := by
  rw [span, List.mem_map]
  constructor
  · rintro ⟨n, member, rfl⟩
    rw [List.mem_range'_1] at member
    have fits : n < 2 ^ 32 := by omega
    rw [UInt32.toNat_ofNat_of_lt' fits]
    omega
  · rintro ⟨lower, upper⟩
    exact ⟨v.toNat, List.mem_range'_1.mpr (by omega), UInt32.ofNat_toNat⟩

theorem indices_push {p : LfuPred} (listed : p.Listed) (room : p.nlist ≠ lfuMaxList) (v : UInt64)
    : (p.push v).indices = p.indices ++ [v.toUInt32] := by
  obtain ⟨lower, upper⟩ := listed
  have slot : p.nlist.toNat < 64 := by
    simp only [lfuMaxList] at upper room
    omega
  have next : (p.nlist + 1).toNat = p.nlist.toNat + 1 := by omega
  simp only [LfuPred.indices, LfuPred.push, next, Vector.toList_setIfInBounds]
  rw [List.take_add_one, List.take_set_of_le (Nat.le_refl _),
    List.getElem?_set_self (by rw [Vector.length_toList]; exact slot)]
  rfl

/-- A value loop that succeeds has added its range, of which no index was cut. -/
theorem RangeRun.added {hi v : UInt64} {p : LfuPred} {result : ListParse}
    (run : RangeRun hi v p result) (listed : p.Listed) (succeeded : result.ok = true)
    : result.pred.indices = p.indices ++ span v hi
      ∧ (v.toNat ≤ hi.toNat → hi.toNat < 2 ^ 32) := by
  induction run with
  | @past v p over_ =>
      have above := UInt64.lt_iff_toNat_lt.mp over_
      have none_ : span v hi = [] := by
        rw [span, Nat.sub_eq_zero_of_le above]
        rfl
      rw [none_, List.append_nil]
      exact ⟨rfl, fun within => absurd above (Nat.not_lt.mpr within)⟩
  | full | large => cases succeeded
  | @push v p result within room small rest ih =>
      obtain ⟨indices, bound⟩ := ih (listed.push room v) succeeded
      have within : v.toNat ≤ hi.toNat := Nat.not_lt.mp fun above =>
        within (UInt64.lt_iff_toNat_lt.mpr above)
      have small : v.toNat ≤ 0xffffffff := Nat.not_lt.mp fun above =>
        small (UInt64.lt_iff_toNat_lt.mpr above)
      have next : (v + 1).toNat = v.toNat + 1 := by
        rw [UInt64.toNat_add]
        exact Nat.mod_eq_of_lt (Nat.lt_of_le_of_lt (Nat.succ_le_succ small) (by decide))
      have first : span v hi = v.toUInt32 :: span (v + 1) hi := by
        have count : hi.toNat + 1 - v.toNat = hi.toNat + 1 - (v.toNat + 1) + 1 := by omega
        rw [span, span, next, count, List.range'_succ, List.map_cons]
        rfl
      refine ⟨?_, fun _ => ?_⟩
      · rw [indices, indices_push listed room, first, List.append_assoc]
        rfl
      · by_cases last : v.toNat = hi.toNat
        · omega
        · exact bound (by omega)

/-- An element as the parser has read it, and the bounds it took. -/
structure IndexReading where
  elem : IndexElem
  lo : UInt64
  hi : UInt64
  ordered : lo.toNat ≤ hi.toNat
  small : hi.toNat < 2 ^ 32
  value : elem.Positive → (lo.toNat : Int) = elem.lo ∧ (hi.toNat : Int) = elem.hi

namespace IndexReading

theorem positive_iff (reading : IndexReading)
    : reading.elem.Positive ↔ 0 ≤ reading.elem.lo ∧ reading.elem.lo ≤ reading.elem.hi
        ∧ reading.elem.hi < 2 ^ 32 := by
  constructor
  · intro positive
    obtain ⟨lo, hi⟩ := reading.value positive
    have ordered := reading.ordered
    have small := reading.small
    omega
  · rintro ⟨lower, ordered, _⟩
    exact ⟨lower, Int.le_trans lower ordered⟩

theorem count_eq (reading : IndexReading) (positive : reading.elem.Positive)
    : reading.elem.count = (span reading.lo reading.hi).length := by
  obtain ⟨lo, hi⟩ := reading.value positive
  rw [IndexElem.count, span, List.length_map, List.length_range', ← lo, ← hi]
  omega

theorem mem_span_iff (reading : IndexReading) (positive : reading.elem.Positive) (v : UInt32)
    : v ∈ span reading.lo reading.hi
      ↔ reading.elem.lo ≤ v.toNat ∧ v.toNat ≤ reading.elem.hi := by
  obtain ⟨lo, hi⟩ := reading.value positive
  rw [mem_span reading.small, ← lo, ← hi]
  omega

end IndexReading

/-- The element behind a token, and the bounds the parser took for it. The upper bound of a
range that does not fit is the largest number there is.
-/
theorem indexRange?_reads {tok : Bytes} {lo hi : UInt64} (good : indexRange? tok = some (lo, hi))
    : ∃ elem : IndexElem, tok = elem.text ∧ lo.toNat ≤ hi.toNat
        ∧ (hi.toNat < 2 ^ 32 → elem.Positive
            → (lo.toNat : Int) = elem.lo ∧ (hi.toNat : Int) = elem.hi) := by
  unfold indexRange? at good
  dsimp only at good
  split at good
  · cases good
  rename_i number
  rw [Bool.or_eq_true, not_or, Bool.not_eq_true', Bool.not_eq_false, Bool.not_eq_true] at number
  obtain ⟨first, read⟩ := strtoull_converted number.1
  have value := read.value (read.magnitude_lt number.2)
  split at good
  · rename_i dash
    rw [Bool.and_eq_true, beq_iff_eq] at dash
    have split := cons_of_firstChar dash.1 (by decide)
    split at good
    · cases good
    rename_i upper
    simp only [Bool.or_eq_true, not_or, Bool.not_eq_true', Bool.not_eq_false, decide_eq_true_eq,
      List.isEmpty_iff] at upper
    obtain ⟨⟨converted, whole⟩, ordered⟩ := upper
    obtain ⟨rfl, rfl⟩ := Prod.mk.inj (Option.some.inj good)
    obtain ⟨last, readLast⟩ := strtoull_converted converted
    have text := readLast.text
    rw [whole, List.append_nil] at text
    refine ⟨.range first last, ?_, ?_, fun small positive => ⟨value positive.1, ?_⟩⟩
    · rw [IndexElem.text, ← text, ← split]
      exact read.text
    · exact Nat.not_lt.mp fun less => ordered (UInt64.lt_iff_toNat_lt.mpr less)
    · refine readLast.value (readLast.magnitude_lt ?_) positive.2
      rw [Bool.eq_false_iff]
      intro saturated
      rw [strtoull_saturated saturated] at small
      exact absurd small (by decide)
  split at good
  · rename_i whole
    obtain ⟨rfl, rfl⟩ := Prod.mk.inj (Option.some.inj good)
    have text := read.text
    rw [List.isEmpty_iff.mp whole, List.append_nil] at text
    exact ⟨.index first, text, Nat.le_refl _,
      fun _ positive => ⟨value positive.1, value positive.1⟩⟩
  · cases good

/-- A run that succeeds has read every token as an element and added what the elements name. -/
theorem TokensRun.reads {tokens : List Bytes} {p : LfuPred} {result : ListParse}
    (run : TokensRun tokens p result) (listed : p.Listed) (succeeded : result.ok = true)
    : ∃ readings : List IndexReading,
        tokens = readings.map (·.elem.text)
        ∧ result.pred.indices = p.indices ++ readings.flatMap (fun reading =>
            span reading.lo reading.hi)
        ∧ result.pred.Listed ∧ result.pred.nlist ≠ 0 := by
  induction run with
  | done => exact ⟨[], rfl, (List.append_nil _).symm, listed, by simpa using succeeded⟩
  | malformed => cases succeeded
  | stop _ _ failed => rw [failed] at succeeded; cases succeeded
  | @next tok rest p lo hi added result good loop ok others ih =>
      obtain ⟨elem, text, ordered, value⟩ := indexRange?_reads good
      obtain ⟨indices, bound⟩ := loop.added listed ok
      have small := bound ordered
      obtain ⟨readings, texts, all, rest⟩ := ih (loop.listed listed) succeeded
      refine ⟨⟨elem, lo, hi, ordered, small, value small⟩ :: readings, ?_, ?_, rest⟩
      · rw [List.map_cons, ← texts, text]
      · rw [all, indices, List.flatMap_cons, List.append_assoc]

theorem indices_fresh {p : LfuPred} (fresh : p.nlist = 0) : p.indices = [] := by
  rw [LfuPred.indices, fresh]
  rfl

theorem length_indices {p : LfuPred} (listed : p.Listed) : p.indices.length = p.nlist.toNat := by
  have upper := listed.2
  rw [LfuPred.indices, List.length_take, Vector.length_toList]
  simp only [lfuMaxList] at upper
  omega

/-- Where no element is negative and none is empty the list is exact, and only there. -/
theorem exactList_iff {arg : Bytes} {readings : List IndexReading} {list : List UInt32}
    (texts : strtok arg (ch ',') = readings.map (·.elem.text))
    (added : list = readings.flatMap fun reading => span reading.lo reading.hi)
    (few : 1 ≤ list.length ∧ list.length ≤ lfuMaxList)
    : ExactList arg (readings.map (·.elem)) list
      ↔ [] ∉ arg.splitOn (ch ',') ∧ ∀ elem ∈ readings.map (·.elem), elem.Positive := by
  constructor
  · intro exact_
    refine ⟨fun empty => ?_, fun elem member => ?_⟩
    · rw [exact_.written] at empty
      obtain ⟨elem, _, none_⟩ := List.mem_map.mp empty
      exact elem.text_ne_nil none_
    · obtain ⟨reading, _, rfl⟩ := List.mem_map.mp member
      exact reading.positive_iff.mpr (exact_.ordered _ member)
  · rintro ⟨nonempty, positive⟩
    have positive (reading : IndexReading) (member : reading ∈ readings) : reading.elem.Positive :=
      positive _ (List.mem_map_of_mem member)
    refine ⟨?_, ?_, ?_, few, fun v => ?_⟩
    · rw [List.map_map]
      refine Eq.trans ?_ texts
      rw [strtok, List.filter_eq_self.mpr]
      intro piece member
      rw [Bool.not_eq_true', List.isEmpty_eq_false_iff]
      exact fun empty => nonempty (empty ▸ member)
    · intro elem member
      obtain ⟨reading, here, rfl⟩ := List.mem_map.mp member
      exact reading.positive_iff.mp (positive reading here)
    · rw [added, List.length_flatMap, List.map_map]
      refine congrArg List.sum (List.map_congr_left fun reading member => ?_)
      exact reading.count_eq (positive reading member)
    · rw [added, List.mem_flatMap]
      simp only [List.mem_map, exists_exists_and_eq_and]
      refine exists_congr fun reading => and_congr_right fun member => ?_
      exact reading.mem_span_iff (positive reading member) v

/-- The parser always comes to an end. What it accepts has between one and as many indices as
there are slots, and is a list of elements; the indices are just the ones the elements name if
no element is empty and no number is negative, and only then.
-/
theorem index_list_exact_iff (arg : Bytes) {p : LfuPred} (fresh : p.nlist = 0)
    : IndexListRun arg p (lfuParseIndexList arg p)
      ∧ ((lfuParseIndexList arg p).ok = true →
          ∃ elems : List IndexElem,
            strtok arg (ch ',') = elems.map IndexElem.text
            ∧ 1 ≤ (lfuParseIndexList arg p).pred.indices.length
            ∧ (lfuParseIndexList arg p).pred.indices.length ≤ lfuMaxList
            ∧ (ExactList arg elems (lfuParseIndexList arg p).pred.indices
              ↔ [] ∉ arg.splitOn (ch ',') ∧ ∀ elem ∈ elems, elem.Positive)) := by
  have listed : p.Listed := by
    rw [LfuPred.Listed, fresh]
    exact ⟨by decide, by decide⟩
  have run := lfuParseIndexList_run arg listed
  refine ⟨run, fun accepted => ?_⟩
  generalize lfuParseIndexList arg p = result at run accepted ⊢
  cases run with
  | long => cases accepted
  | tokens _ run =>
      obtain ⟨readings, texts, added, within, some_⟩ := run.reads listed accepted
      rw [indices_fresh fresh, List.nil_append] at added
      have length := length_indices within
      have few : 1 ≤ result.pred.indices.length
          ∧ result.pred.indices.length ≤ lfuMaxList := by
        obtain ⟨lower, upper⟩ := within
        omega
      refine ⟨readings.map (·.elem), ?_, few.1, few.2, exactList_iff texts added few⟩
      rw [texts, List.map_map]
      rfl

theorem index_list_exact_of_ranges
    : (lfuParseIndexList (cstr "0-3,7") {}).pred.indices = [0, 1, 2, 3, 7]
      ∧ ∃ elems : List IndexElem,
          strtok (cstr "0-3,7") (ch ',') = elems.map IndexElem.text
          ∧ (ExactList (cstr "0-3,7") elems
                (lfuParseIndexList (cstr "0-3,7") {}).pred.indices
            ↔ [] ∉ (cstr "0-3,7").splitOn (ch ',') ∧ ∀ elem ∈ elems, elem.Positive) := by
  obtain ⟨_, exact_⟩ := index_list_exact_iff (cstr "0-3,7") (p := {}) rfl
  obtain ⟨elems, texts, _, _, both⟩ := exact_ (by decide +kernel)
  exact ⟨by decide +kernel, elems, texts, both⟩

theorem no_blanks : ∀ c ∈ ([] : Bytes), isSpace c = true := List.forall_mem_nil _

/-- The most negative number there is for `strtoull`, which it takes for 1. -/
def wrappedToOne : Literal 0 where
  blanks := []
  sign := some .minus
  mark := []
  base := 10
  digits := cstr "18446744073709551615"
  blank := no_blanks
  radix := .decimal (by decide)
  nonempty := by decide
  digital := by decide +kernel

/-- A negative index is taken for a positive one, and an empty element is passed over. -/
theorem negative_index_is_listed
    : wrappedToOne.text = cstr "-18446744073709551615"
      ∧ wrappedToOne.value = -18446744073709551615
      ∧ (lfuParseIndexList (cstr "-18446744073709551615") {}).ok = true
      ∧ (lfuParseIndexList (cstr "-18446744073709551615") {}).pred.indices = [1]
      ∧ ¬ExactList (cstr "-18446744073709551615") [.index wrappedToOne] [1]
      ∧ (lfuParseIndexList (cstr "1--18446744073709551614") {}).ok = true
      ∧ (lfuParseIndexList (cstr "1--18446744073709551614") {}).pred.indices = [1, 2]
      ∧ (lfuParseIndexList (cstr "1,,2") {}).ok = true
      ∧ [] ∈ (cstr "1,,2").splitOn (ch ',') := by
  refine ⟨by decide +kernel, by decide +kernel, by decide +kernel, by decide +kernel, ?_,
    by decide +kernel, by decide +kernel, by decide +kernel, by decide +kernel⟩
  intro exact_
  have lower := (exact_.ordered _ List.mem_cons_self).1
  exact absurd lower (by decide +kernel)

end LfuScan.Filter
